import DbmlRestore.Proofs.Charset.Characters
import DbmlRestore.Proofs.Cli.Failing

/-!
# Runs in the known charsets

On a sound system, a file is spoilt by a command that merges, and by no other
(`Command.Spoils.exists_eq_merge`): the comments of a snapshot may have any characters, but what the
other commands come to is in ASCII, or has characters of schemas that were decoded, and can be
encoded again in their charset (`Command.Makes.exists_encode_eq_ok`). So a run that does not ask to
merge keeps all files if it fails (`keeps_of_forall_ne_merge`).
-/

namespace DbmlRestore

open Text (Over IsAlphabet)

/-- Reordering takes nothing from a snapshot but the order, so that a text stays one, with its
    characters. -/
theorem Snapshot.exists_through_reorder_eq {P : Char → Prop} (hP : IsAlphabet P)
    (s : Snapshot Wording) {t : Text} (ht : Over P t) :
    ∃ u, s.through Snapshot.reorder (.text t) = .text u ∧ Over P u := by
  rw [through]
  cases s.needsMarks (.text t) with
  | false => exact ⟨_, rfl, Block.over_reorder hP _ ht⟩
  | true =>
    -- Each line carries one of the text, or is empty.
    obtain ⟨u, hu, hover⟩ := Wording.exists_ofCarried_eq_text (P := Over P)
      (t := Snapshot.reorder (s.map (Wording.carried true)) ((Wording.text t).carried true))
      (Block.forall_lines_reorder ⟨[], Text.over_nil, List.not_mem_nil, rfl⟩ _ fun l hl => by
        rw [Wording.lines_carried] at hl
        obtain ⟨k, hk, rfl⟩ := List.mem_map.1 hl
        exact ⟨k, (Text.forall_lines_over hP).2 ht k hk, Text.newline_not_mem hk, rfl⟩)
    exact ⟨u, hu, (Text.forall_lines_over hP).1 hover⟩

namespace Cli

variable {s : Session} {c : Command} {w : World} {wording : Wording}

/-- What a charset decodes is a text over its characters. -/
theorem Session.Decodes.exists_over (h : s.Decodes .sound wording) : ∃ charset t,
    Charset.ofName s.config.defaults.encoding = .ok charset ∧ wording = .text t ∧
      Over charset.Holds t := by
  obtain ⟨codec, bytes, hcodec, hdecode⟩ := h
  obtain ⟨charset, hname, rfl⟩ := map_eq_ok_iff.1 hcodec
  obtain ⟨t, ht, rfl⟩ := map_eq_ok_iff.1 (mapError_eq_ok_iff.1 hdecode)
  exact ⟨charset, t, hname, rfl, Charset.over_of_decode ht⟩

/-- A text whose characters are all in the charset is encoded. -/
theorem exists_codec_encode_eq_ok {charset : Charset} {t : Text} (h : Over charset.Holds t) :
    ∃ bytes, charset.codec.encode (.text t) = .ok bytes := by
  obtain ⟨bytes, hbytes⟩ := Charset.exists_encode_eq_ok h
  exact ⟨bytes, mapError_eq_ok_iff.2 hbytes⟩

/-- What a command comes to that does not merge can be encoded in the charset of the settings. -/
theorem Command.Makes.exists_encode_eq_ok (h : c.Makes .sound s wording)
    (hc : ∀ regenerated file output, c ≠ .merge regenerated file output) {codec : Codec}
    (hcodec : System.sound.codecs s.config.defaults.encoding = .ok codec) :
    ∃ bytes, codec.encode wording = .ok bytes := by
  obtain ⟨charset, hname, rfl⟩ := map_eq_ok_iff.1 hcodec
  -- What was decoded is over the charset that encodes.
  have hdecodes : ∀ {w}, s.Decodes .sound w → ∃ t, w = .text t ∧ Over charset.Holds t := by
    intro w hw
    obtain ⟨charset', t, hname', rfl, ht⟩ := hw.exists_over
    obtain rfl := Except.ok.inj (hname.symm.trans hname')
    exact ⟨t, rfl, ht⟩
  cases h with
  | extract h =>
    obtain ⟨t, rfl, -⟩ := hdecodes h
    exact exists_codec_encode_eq_ok (Charset.over_of_ascii (Snapshot.capture t).ascii_stored)
  | reorder _ h =>
    obtain ⟨t, rfl, ht⟩ := hdecodes h
    obtain ⟨u, hu, hover⟩ :=
      Snapshot.exists_through_reorder_eq charset.isAlphabet_holds _ ht
    rw [hu]
    exact exists_codec_encode_eq_ok hover
  | merge => exact absurd rfl (hc _ _ _)
  | restore horiginal h =>
    obtain ⟨original, rfl, hover⟩ := hdecodes horiginal
    obtain ⟨t, rfl, ht⟩ := hdecodes h
    rw [Snapshot.captureWording_text, Snapshot.through_text, Snapshot.through_text]
    exact exists_codec_encode_eq_ok (over_preserve charset.isAlphabet_holds hover ht)

/-- On a sound system, a command that spoils its output merges. -/
theorem Command.Spoils.exists_eq_merge (h : c.Spoils .sound s w) :
    ∃ regenerated file output, c = .merge regenerated file output := by
  obtain ⟨wording, output, file, v, hprepare, hfile, u, v', old, left, -, -, -, hleaves, -⟩ := h
  have hmakes := ((c.prepare_reads .sound s).of_run hprepare).2 _ rfl wording output rfl
  by_contra hno
  simp only [not_exists] at hno
  cases hleaves with
  | unencoded hcodec hencode =>
    obtain ⟨bytes, hbytes⟩ := hmakes.exists_encode_eq_ok hno hcodec
    cases hbytes.symm.trans hencode
  | brokenOff _ _ hbreaks => cases hbreaks

/-- On a sound system, a run that does not ask to merge keeps all files if it fails. -/
theorem keeps_of_forall_ne_merge {args : List Text} (hfail : (outcome .sound w args).1 ≠ .exit 0)
    (h : ∀ i, Invocation.read args = .ok i →
      ∀ regenerated file output, i.command ≠ some (.merge regenerated file output)) :
    w.tree.Keeps (outcome .sound w args).2.tree := by
  refine keeps_of_forall_not_spoils hfail fun s c v hperforms hspoils => ?_
  obtain ⟨regenerated, file, output, rfl⟩ := hspoils.exists_eq_merge
  obtain ⟨pre, i, u, -, -, -, -, hread, hcommand, -⟩ := hperforms
  exact h i hread regenerated file output hcommand

end Cli

end DbmlRestore
