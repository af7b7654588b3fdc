import DbmlRestore.Proofs.Block.Balanced
import DbmlRestore.Proofs.Comment.Extracted
import DbmlRestore.Snapshot

/-!
# Characters of restored texts

Putting back the order of tables and the comments makes no characters but spaces, carriage returns
and line feeds. So in an alphabet that has these (`Text.IsAlphabet`), the comments of a text over it
are over it, and what is made of texts over it is, too:

* `Comment.over_text_of_mem_extract`: the comments of a text;
* `Block.forall_lines_reorder`, `Block.over_reorder`: a text with its tables in some order;
* `Comment.over_merge`: a text with comments;
* `over_preserve`: a text with the order and the comments of another one.
-/

namespace DbmlRestore

variable {P : Char → Prop}

namespace Text

/-- All characters of the text are in the alphabet `P`. -/
def Over (P : Char → Prop) (t : Text) : Prop := ∀ c ∈ t, P c

/-- The alphabet has the characters that are put between words and at the ends of lines. -/
structure IsAlphabet (P : Char → Prop) : Prop where
  space : P ' '
  carriageReturn : P '\r'
  lineFeed : P '\n'

theorem over_nil : Over P [] := by rintro _ ⟨⟩

theorem over_cons {c : Char} {t : Text} : Over P (c :: t) ↔ P c ∧ Over P t :=
  List.forall_mem_cons

theorem over_append {s t : Text} : Over P (s ++ t) ↔ Over P s ∧ Over P t :=
  List.forall_mem_append

/-- A part of a text over an alphabet is over it. -/
theorem Over.of_isInfix {s t : Text} (h : Over P t) (hs : s <:+: t) : Over P s :=
  fun c hc => h c (hs.subset hc)

/-- A joined text is over an alphabet with line feeds if its pieces are. -/
theorem over_unlines (hP : IsAlphabet P) {ps : List Text} :
    Over P (unlines ps) ↔ ∀ p ∈ ps, Over P p := by
  refine ⟨fun h p hp => h.of_isInfix (infix_unlines_of_mem hp), fun h => ?_⟩
  induction ps with
  | nil => exact over_nil
  | cons p ps ih =>
    obtain ⟨hp, hps⟩ := List.forall_mem_cons.1 h
    cases ps with
    | nil => rwa [unlines_singleton]
    | cons q qs =>
      rw [unlines_cons_cons]
      exact over_append.2 ⟨hp, over_cons.2 ⟨hP.lineFeed, ih hps⟩⟩

/-- A text is over an alphabet if its lines are, as the line feed is in it. -/
theorem forall_lines_over (hP : IsAlphabet P) {t : Text} :
    (∀ l ∈ lines t, Over P l) ↔ Over P t := by
  rw [← over_unlines hP, unlines_lines]

end Text

open Text (Over IsAlphabet over_append over_unlines forall_lines_over)

/-! ## Extracting comments -/

namespace Extraction

variable {e : Extraction} {us : List CommentUnit} {c : Comment}

/-- The induction is on the units: what waits is made of units, too. -/
theorem over_text_of_mem_run (hP : IsAlphabet P) (hus : ∀ u ∈ us, ∀ l ∈ u.lines, Over P l)
    (he : ∀ t ∈ e.pending, Over P t) (hc : c ∈ e.run us) : Over P c.text := by
  induction us generalizing e with
  | nil =>
    rcases of_mem_finish hc with rfl | rfl
    · exact (over_unlines hP).2 he
    · exact (over_unlines hP).2 he
  | cons u us ih =>
    obtain ⟨hu, hus⟩ := List.forall_mem_cons.1 hus
    have htext : Over P u.text := (over_unlines hP).2 hu
    rcases List.mem_append.1 hc with hc | hc
    · rcases cases_of_mem_step hc with
        ⟨-, table, rfl | rfl⟩ | ⟨table, rfl⟩ | ⟨code, comment, table, field, hcut, rfl⟩
      · exact (over_unlines hP).2 he
      · exact (over_unlines hP).2 he
      · exact htext
      · exact (hu u.first List.mem_cons_self).of_isInfix (Line.of_inlineComment? hcut).1
    · refine ih hus (fun t ht => ?_) hc
      rcases mem_pending_step ht with ht | rfl
      · exact he t ht
      · exact htext

end Extraction

namespace Comment

/-- A comment of a text has characters of the text and line feeds. -/
theorem over_text_of_mem_extract (hP : IsAlphabet P) {source : Text} (h : Over P source)
    {c : Comment} (hc : c ∈ extract source) : Over P c.text := by
  refine Extraction.over_text_of_mem_run hP (fun u hu l hl => ?_) (by rintro _ ⟨⟩) hc
  refine (forall_lines_over hP).2 h l ?_
  exact CommentUnit.flatMap_lines_ofLines (Text.lines source) ▸ List.mem_flatMap.2 ⟨u, hu, hl⟩

end Comment

/-! ## Merging comments -/

/-- Putting a comment at the end of a line adds a space at most. -/
theorem Line.over_withComment (hP : IsAlphabet P) {l : Line} {c : Text} (hl : Over P l)
    (hc : Over P c) : Over P (Line.withComment l c) := by
  have hspaced : Over P (' ' :: c) := Text.over_cons.2 ⟨hP.space, hc⟩
  rw [withComment]
  split
  · refine over_append.2 ⟨over_append.2 ⟨?_, hspaced⟩, ?_⟩
    · exact hl.of_isInfix (List.dropLast_prefix l).isInfix
    · split
      · exact Text.over_nil
      · exact Text.over_cons.2 ⟨hP.carriageReturn, Text.over_nil⟩
  · exact over_append.2 ⟨hl, hspaced⟩

variable {cs : List Comment} {ls : List Line}

/-- Merging line by line stays in the alphabet. The induction is on the lines, for any state. -/
theorem Merging.over_of_mem_run (hP : IsAlphabet P) (hcs : ∀ c ∈ cs, Over P c.text)
    (hls : ∀ l ∈ ls, Over P l) {m : Merging} : ∀ t ∈ m.run cs ls, Over P t := by
  induction ls generalizing m with
  | nil => rintro _ ⟨⟩
  | cons l ls ih =>
    obtain ⟨hl, hls⟩ := List.forall_mem_cons.1 hls
    have hkept : Over P (m.kept cs l) := by
      rcases kept_cases with heq | ⟨field, -, c, hc, -, heq⟩
      · rwa [heq]
      · rw [heq]
        exact Line.over_withComment hP hl (hcs c hc)
    have hstep : ∀ t ∈ (m.step cs l).1, Over P t := by
      refine List.forall_mem_append.2 ⟨fun t ht => ?_, fun t ht => ?_⟩
      · obtain ⟨c, hc, rfl⟩ := exists_of_mem_above ht
        exact hcs c hc
      · rwa [List.mem_singleton.1 ht]
    exact List.forall_mem_append.2 ⟨hstep, ih hls⟩

/-- A text with comments has the characters of both, spaces and ends of lines. -/
theorem Comment.over_merge (hP : IsAlphabet P) (hcs : ∀ c ∈ cs, Over P c.text) {t : Text}
    (ht : Over P t) : Over P (merge cs t) := by
  have htexts : ∀ kind, ∀ s ∈ textsOf cs kind, Over P s := by
    intro kind s hs
    obtain ⟨c, hc, -, rfl⟩ := exists_of_mem_textsOf hs
    exact hcs c hc
  rw [merge]
  split
  · exact ht
  · rw [over_unlines hP, mergePieces, List.forall_mem_append, List.forall_mem_append]
    refine ⟨⟨?_, ?_⟩, ?_⟩
    · split
      · rintro _ ⟨⟩
      · exact List.forall_mem_append.2 ⟨htexts .header, List.forall_mem_singleton.2 Text.over_nil⟩
    · exact Merging.over_of_mem_run hP hcs ((forall_lines_over hP).2 ht)
    · split
      · rintro _ ⟨⟩
      · exact List.forall_mem_cons.2 ⟨Text.over_nil, htexts .footer⟩

/-! ## Reordering tables -/

section

variable {Q : Line → Prop} (hnil : Q [])
include hnil

/-- What holds of the empty line and of the lines of some pieces holds of them put together. -/
theorem Text.forall_lines_unlines {ps : List Text} (h : ∀ p ∈ ps, ∀ l ∈ lines p, Q l) :
    ∀ l ∈ lines (unlines ps), Q l := by
  by_cases hps : ps = []
  · rw [hps, unlines_nil, lines_nil]
    exact List.forall_mem_singleton.2 hnil
  · intro l hl
    rw [lines_unlines hps] at hl
    obtain ⟨p, hp, hl⟩ := List.mem_flatMap.1 hl
    exact h p hp l hl

/-- A tidied layout has lines of the text and empty ones. -/
theorem Layout.forall_lines_tidy {t : Text} (ht : ∀ l ∈ Text.lines t, Q l) :
    ∀ l ∈ Text.lines (tidy t), Q l := by
  rw [lines_tidy, List.forall_mem_append]
  refine ⟨fun l hl => ?_, List.forall_mem_singleton.2 hnil⟩
  rcases mem_trimEnd_collapse hl with rfl | hl
  · exact hnil
  · exact ht l hl

/-- A line of a reordered text is one of the text, or empty. -/
theorem Block.forall_lines_reorder (order : List TableEntry) {t : Text}
    (ht : ∀ l ∈ Text.lines t, Q l) : ∀ l ∈ Text.lines (reorder order t), Q l := by
  -- The lines of a block are lines of the text.
  have hblocks : ∀ b ∈ partition t, ∀ l ∈ Text.lines b.text, Q l := fun b hb => by
    refine Text.forall_lines_unlines hnil fun k hk l hl => ?_
    obtain ⟨hQ, hnl⟩ := (Partition.forall_mem_run (P := fun l => Q l ∧ '\n' ∉ l) (p := .start)
      ⟨hnil, List.not_mem_nil⟩ (fun l hl => ⟨ht l hl, Text.newline_not_mem hl⟩)
      (by rintro _ ⟨⟩) b hb).2 k hk
    rw [Text.lines_eq_singleton hnl] at hl
    exact List.mem_singleton.1 hl ▸ hQ
  have hkind : ∀ kind, ∀ b ∈ ofKind (partition t) kind, ∀ l ∈ Text.lines b.text, Q l :=
    fun _ b hb => hblocks b (List.mem_filter.1 hb).1
  have hempty : ∀ l ∈ Text.lines [], Q l := List.forall_mem_singleton.2 hnil
  refine Layout.forall_lines_tidy hnil (Text.forall_lines_unlines hnil ?_)
  simp only [layout, List.forall_mem_append, List.forall_mem_map]
  refine ⟨⟨⟨hkind .enum, ?_⟩, fun b hb => ?_⟩, ?_⟩
  · split
    · rintro _ ⟨⟩
    · exact List.forall_mem_singleton.2 hempty
  · exact hkind .table b ((List.mergeSort_perm _ _).mem_iff.1 hb)
  · split
    · rintro _ ⟨⟩
    · exact List.forall_mem_cons.2 ⟨hempty, List.forall_mem_map.2 (hkind .ref)⟩

end

/-- A reordered text has characters of the text and line feeds. -/
theorem Block.over_reorder (hP : IsAlphabet P) (order : List TableEntry) {t : Text}
    (ht : Over P t) : Over P (reorder order t) :=
  (forall_lines_over hP).1 (forall_lines_reorder Text.over_nil order ((forall_lines_over hP).2 ht))

/-- A restored text has characters of the hand-written and the regenerated text, spaces and ends of
    lines. -/
theorem over_preserve (hP : IsAlphabet P) {source regenerated : Text} (hs : Over P source)
    (hr : Over P regenerated) : Over P (preserve source regenerated) :=
  Comment.over_merge hP (fun _ hc => Comment.over_text_of_mem_extract hP hs hc)
    (Block.over_reorder hP _ hr)

end DbmlRestore
