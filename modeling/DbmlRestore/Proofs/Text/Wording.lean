import DbmlRestore.Proofs.Text.Lines
import DbmlRestore.Text.Wording

/-!
# Carried wordings

A wording is known from the text that carries it with marks (`Wording.ofCarried_carried`), so that
no two of them are carried by the same text. A text is carried by itself, with its marks doubled,
and this is so for each of its lines (`Wording.lines_carried`).
-/

namespace DbmlRestore

namespace Wording

variable {n : Nat} {ns : List Nat}

/-! ## Numbers -/

theorem toNat_ofNat (h : n.isValidChar) : (Char.ofNat n).toNat = n := by
  rw [Char.ofNat, dif_pos h]
  rfl

/-- The halves of surrogate pairs are these code points. -/
theorem isHalf_iff : isHalf n = true ↔ 0xD800 ≤ n ∧ n < 0xE000 := by
  rw [isHalf, Bool.and_eq_true, decide_eq_true_eq, decide_eq_true_eq]

/-- A number up to that of the last character is that of a character, or of half of a surrogate
    pair. -/
theorem isValidChar_of_not_isHalf (hn : n < 0x110000) (h : isHalf n = false) : n.isValidChar := by
  rw [← Bool.not_eq_true, isHalf_iff] at h
  rw [Nat.isValidChar]
  omega

/-- No character is a half of a surrogate pair. -/
theorem isHalf_toNat (c : Char) : isHalf c.toNat = false := by
  have hvalid : c.toNat < 0xD800 ∨ 0xDFFF < c.toNat ∧ c.toNat < 0x110000 := c.valid
  rw [← Bool.not_eq_true, isHalf_iff]
  omega

/-- The numbers of a wording are those that it is made of. -/
theorem codes_ofCodes (h : ∀ n ∈ ns, n < 0x110000) : (ofCodes ns).codes = ns := by
  rw [ofCodes]
  split
  · rfl
  · next hnone =>
    rw [codes, List.map_map]
    refine (List.map_congr_left fun n hn => ?_).trans ns.map_id
    rw [List.any_eq_true, not_exists] at hnone
    refine toNat_ofNat (isValidChar_of_not_isHalf (h n hn) (Bool.eq_false_iff.2 fun hhalf => ?_))
    exact hnone n ⟨hn, hhalf⟩

/-- The codes of a text are read as the text. -/
theorem ofCodes_text (t : Text) : ofCodes (t.map Char.toNat) = .text t := by
  have hnone : (t.map Char.toNat).any isHalf = false := by
    rw [List.any_map, List.any_eq_false]
    exact fun c _ => Bool.eq_false_iff.1 (isHalf_toNat c)
  rw [ofCodes, hnone, if_neg Bool.false_ne_true, List.map_map]
  exact congrArg _ ((List.map_congr_left fun c _ => Char.ofNat_toNat c).trans t.map_id)

/-! ## Carrying -/

/-- What carries a number is read as this number, whatever follows. -/
theorem uncarried_carriers_append (n : Nat) (ns : List Nat) :
    uncarried (carriers n ++ ns) = n :: uncarried ns := by
  rw [carriers]
  split
  · next hhalf =>
    -- A half of a pair: the mark, and its stand-in.
    obtain ⟨-, hlt⟩ := isHalf_iff.1 hhalf
    have hne : standInOffset + n ≠ markCode := by
      rw [standInOffset, markCode]
      omega
    show (if markCode = markCode then _ else _) = _
    rw [if_pos rfl, if_neg hne, Nat.add_sub_cancel_left]
    rfl
  · split
    · next hmark =>
      -- The mark itself: two marks.
      show (if markCode = markCode then _ else _) = _
      rw [if_pos rfl, if_pos rfl, hmark]
      rfl
    · next hne =>
      -- Any other number is carried as it is.
      cases ns with
      | nil => rfl
      | cons m ns =>
        show (if n = markCode then _ else _) = _
        rw [if_neg hne]

/-- What the numbers are carried by is read as these numbers. -/
theorem uncarried_flatMap_carriers (ns : List Nat) : uncarried (ns.flatMap carriers) = ns := by
  induction ns with
  | nil => rfl
  | cons n ns ih => rw [List.flatMap_cons, uncarried_carriers_append, ih]

/-- Wordings are carried by characters, and by no halves of surrogate pairs. -/
theorem isValidChar_of_mem_carriers (hn : n < 0x110000) {m : Nat} (h : m ∈ carriers n) :
    m.isValidChar := by
  rw [carriers] at h
  split at h
  · next hhalf =>
    rw [isHalf_iff] at hhalf
    simp only [List.mem_cons, List.not_mem_nil, or_false, markCode, standInOffset] at h
    rw [Nat.isValidChar]
    omega
  · next hhalf =>
    have hvalid := isValidChar_of_not_isHalf hn (Bool.eq_false_iff.2 hhalf)
    split at h
    · next hmark =>
      simp only [List.mem_cons, List.not_mem_nil, or_false, or_self] at h
      rwa [h, ← hmark]
    · rwa [List.mem_singleton.1 h]

/-- A wording is known from the text that carries it. -/
theorem ofCarried_carried (h : ∀ n ∈ ns, n < 0x110000) :
    ofCarried true ((ofCodes ns).carried true) = ofCodes ns := by
  have hcodes : (((ns.flatMap carriers).map Char.ofNat).map Char.toNat) = ns.flatMap carriers := by
    rw [List.map_map]
    refine (List.map_congr_left fun m hm => ?_).trans (List.map_id _)
    obtain ⟨n, hn, hm⟩ := List.mem_flatMap.1 hm
    exact toNat_ofNat (isValidChar_of_mem_carriers (h n hn) hm)
  rw [carried, if_pos rfl, codes_ofCodes h, ofCarried, if_pos rfl, hcodes,
    uncarried_flatMap_carriers]

/-- No two wordings are carried by the same text. -/
theorem ofCodes_inj_of_carried {ms : List Nat} (hn : ∀ n ∈ ns, n < 0x110000)
    (hm : ∀ m ∈ ms, m < 0x110000) (h : (ofCodes ns).carried true = (ofCodes ms).carried true) :
    ofCodes ns = ofCodes ms := by
  rw [← ofCarried_carried hn, h, ofCarried_carried hm]

/-! ## Texts -/

/-- A character, or two marks for a mark. -/
def doubled (c : Char) : Text := if c.toNat = markCode then [c, c] else [c]

/-- A text is carried as it is, but for the doubled marks. -/
theorem carried_text (t : Text) : (text t).carried true = t.flatMap doubled := by
  rw [carried, if_pos rfl, codes, List.flatMap_map, List.map_flatMap]
  refine congrArg (t.flatMap ·) (funext fun c => ?_)
  rw [carriers, isHalf_toNat, if_neg Bool.false_ne_true, doubled]
  split
  · next hmark => rw [← hmark, List.map_cons, List.map_singleton, Char.ofNat_toNat]
  · rw [List.map_singleton, Char.ofNat_toNat]

/-- A text is carried and read back. -/
theorem ofCarried_carried_text (t : Text) : ofCarried true ((text t).carried true) = .text t := by
  have hcodes : ∀ n ∈ t.map Char.toNat, n < 0x110000 := List.forall_mem_map.2 fun c _ => by
    have hvalid : c.toNat < 0xD800 ∨ 0xDFFF < c.toNat ∧ c.toNat < 0x110000 := c.valid
    omega
  have h := ofCarried_carried hcodes
  rwa [ofCodes_text] at h

/-- Lines are carried one by one, and so are the line feeds between them. -/
theorem carried_unlines (ls : List Text) : (text (Text.unlines ls)).carried true =
    Text.unlines (ls.map fun l => (text l).carried true) := by
  induction ls with
  | nil => rfl
  | cons l ls ih =>
    cases ls with
    | nil => rw [Text.unlines_singleton, List.map_singleton, Text.unlines_singleton]
    | cons m ls =>
      have hnewline : doubled '\n' = ['\n'] := rfl
      rw [List.map_cons] at ih
      rw [Text.unlines_cons_cons, carried_text, List.flatMap_append, List.flatMap_cons, hnewline,
        List.singleton_append, ← carried_text, ← carried_text, ih, List.map_cons, List.map_cons,
        Text.unlines_cons_cons]

/-- To carry a text makes no line feed. -/
theorem newline_not_mem_carried {t : Text} (h : '\n' ∉ t) : '\n' ∉ (text t).carried true := by
  rw [carried_text]
  intro hmem
  obtain ⟨c, hc, hmem⟩ := List.mem_flatMap.1 hmem
  have hsame : '\n' = c := by
    rw [doubled] at hmem
    split at hmem <;> simpa using hmem
  exact h (hsame ▸ hc)

/-- The lines of a text are carried one by one. -/
theorem lines_carried (t : Text) : Text.lines ((text t).carried true) =
    (Text.lines t).map fun l => (text l).carried true := by
  conv_lhs => rw [← Text.unlines_lines t]
  rw [carried_unlines, Text.lines_unlines_of_forall]
  · rw [ne_eq, List.map_eq_nil_iff]
    exact Text.lines_ne_nil t
  · intro l hl
    obtain ⟨k, hk, rfl⟩ := List.mem_map.1 hl
    exact newline_not_mem_carried (Text.newline_not_mem hk)

/-- A text whose lines carry texts carries the text that is made of these. -/
theorem exists_ofCarried_eq_text {P : Line → Prop} {t : Text}
    (h : ∀ l ∈ Text.lines t, ∃ k, P k ∧ '\n' ∉ k ∧ (text k).carried true = l) :
    ∃ u, ofCarried true t = .text u ∧ ∀ k ∈ Text.lines u, P k := by
  choose! k hP hnl hk using h
  have ht : t = (text (Text.unlines ((Text.lines t).map k))).carried true := by
    rw [carried_unlines, List.map_map]
    conv_lhs => rw [← Text.unlines_lines t]
    exact congrArg _ ((List.map_congr_left hk).trans (List.map_id _)).symm
  refine ⟨Text.unlines ((Text.lines t).map k), ?_, ?_⟩
  · conv_lhs => rw [ht]
    exact ofCarried_carried_text _
  · rw [Text.lines_unlines_of_forall]
    · exact List.forall_mem_map.2 hP
    · rw [ne_eq, List.map_eq_nil_iff]
      exact Text.lines_ne_nil t
    · exact List.forall_mem_map.2 hnl

end Wording

end DbmlRestore
