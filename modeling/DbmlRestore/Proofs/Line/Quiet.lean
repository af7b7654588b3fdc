import DbmlRestore.Proofs.TableScan

/-!
# Quiet lines

A line is *quiet* (`Line.IsQuiet`) if it is blank or a remark. A quiet line is no header and
holds no brace, so that it can be left out of a text without moving any depth: the lines
that are not quiet (`Line.solid`) stand at the depths they had (`AtZero.solid_iff`), and a
scan that passes a quiet line is alike before and after it (`TableScan.alike_pass_of_quiet`).
-/

namespace DbmlRestore

namespace Line

/-- A blank line or a remark. -/
def IsQuiet (l : Line) : Prop := Text.trim l = [] ∨ IsRemark l

instance (l : Line) : Decidable (IsQuiet l) := inferInstanceAs (Decidable (_ ∨ _))

theorem isQuiet_nil : IsQuiet [] := .inl rfl

/-- A blank line holds no character that is not blank. -/
theorem not_mem_of_trim_eq_nil {l : Line} (h : Text.trim l = []) {c : Char}
    (hc : Text.isBlank c = false) : c ∉ l := by
  intro hmem
  exact Bool.noConfusion (hc.symm.trans (Text.trim_eq_nil_iff.1 h c hmem))

namespace IsQuiet

variable {l : Line} (h : IsQuiet l)
include h

theorem opens_eq : opens l = 0 := by
  rcases h with h | h
  · exact List.count_eq_zero.2 (not_mem_of_trim_eq_nil h (by decide))
  · exact h.opens_eq

theorem closes_eq : closes l = 0 := by
  rcases h with h | h
  · exact List.count_eq_zero.2 (not_mem_of_trim_eq_nil h (by decide))
  · exact h.closes_eq

theorem opened?_eq_none : Block.opened? (Text.trim l) = none := by
  rcases h with h | h
  · rw [h]; rfl
  · exact h.opened?_eq_none

theorem tableHeader?_eq_none : tableHeader? (Text.trim l) = none :=
  (opened?_eq_none_iff.1 h.opened?_eq_none).1

theorem not_isTableHeader : ¬ IsTableHeader l := by
  rw [IsTableHeader, h.tableHeader?_eq_none]
  exact Bool.false_ne_true

/-- A quiet line does not change the depth. -/
theorem depthChange_eq_zero : depthChange l = 0 := by
  rw [depthChange, h.opens_eq, h.closes_eq]
  rfl

end IsQuiet

/-- A blank line holds no comment. -/
theorem isBare_of_trim_eq_nil {l : Line} (h : Text.trim l = []) : IsBare l := by
  refine ⟨?_, by rw [h]; rfl⟩
  rw [← Bool.not_eq_true, Text.holds_eq_true_iff]
  intro hin
  exact not_mem_of_trim_eq_nil h (by decide) (hin.subset (List.mem_cons_self (a := '/')))

theorem Continues.isQuiet_iff {l l' : Line} (h : Continues l l') : IsQuiet l' ↔ IsQuiet l := by
  have hremark : IsRemark l' ↔ IsRemark l := by
    constructor
    · exact fun hr => ⟨h.isComment_eq ▸ hr.isComment, h.opens_eq ▸ hr.opens_eq,
        h.closes_eq ▸ hr.closes_eq⟩
    · exact fun hr => ⟨h.isComment_eq.trans hr.isComment, h.opens_eq.trans hr.opens_eq,
        h.closes_eq.trans hr.closes_eq⟩
  rw [IsQuiet, IsQuiet, h.trim_eq_nil_iff, hremark]

/-! ## Solid lines -/

/-- The lines that are not quiet. -/
def solid (ls : List Line) : List Line := ls.filter fun l => ¬ IsQuiet l

theorem solid_append (ls ls' : List Line) : solid (ls ++ ls') = solid ls ++ solid ls' :=
  List.filter_append ..

theorem solid_cons_of_quiet {l : Line} (h : IsQuiet l) (ls : List Line) :
    solid (l :: ls) = solid ls :=
  List.filter_cons_of_neg (by simpa using h)

theorem solid_cons_of_not_quiet {l : Line} (h : ¬ IsQuiet l) (ls : List Line) :
    solid (l :: ls) = l :: solid ls :=
  List.filter_cons_of_pos (by simpa using h)

theorem solid_eq_nil {ls : List Line} (h : ∀ l ∈ ls, IsQuiet l) : solid ls = [] :=
  List.filter_eq_nil_iff.2 fun l hl => by simpa using h l hl

/-- Quiet lines do not change the depth, so that the solid ones lead to the same depth. -/
theorem depthOf_solid (ls : List Line) : depthOf (solid ls) = depthOf ls := by
  induction ls with
  | nil => rfl
  | cons l ls ih =>
    by_cases h : IsQuiet l
    · rw [solid_cons_of_quiet h, ih, depthOf_cons, h.depthChange_eq_zero, Int.zero_add]
    · rw [solid_cons_of_not_quiet h, depthOf_cons, ih, depthOf_cons]

/-- Leaving quiet lines out moves no other line to another depth. -/
theorem AtZero.solid_iff {p : Line → Prop} (hp : ∀ l, IsQuiet l → ¬ p l) {d : Int}
    {ls : List Line} : AtZero p d (solid ls) ↔ AtZero p d ls := by
  induction ls generalizing d with
  | nil => rfl
  | cons l ls ih =>
    by_cases h : IsQuiet l
    · rw [solid_cons_of_quiet h, ih, AtZero.cons_iff, h.depthChange_eq_zero, Int.add_zero]
      exact ⟨fun hls => ⟨fun hl => absurd hl (hp l h), hls⟩, And.right⟩
    · rw [solid_cons_of_not_quiet h, AtZero.cons_iff, ih, AtZero.cons_iff]

/-- Dressed lines stand at the depths of the lines. -/
theorem AtZero.dressed_iff {p : Line → Prop} (hp : ∀ {l l'}, Dressed l l' → (p l' ↔ p l))
    {ls ls' : List Line} (h : List.Forall₂ Dressed ls ls') {d : Int} :
    AtZero p d ls' ↔ AtZero p d ls := by
  induction h generalizing d with
  | nil => rfl
  | cons hl _ ih => rw [AtZero.cons_iff, AtZero.cons_iff, hp hl, hl.continues.depthChange_eq, ih]

/-- Dressing lines keeps their depth. -/
theorem depthOf_dressed {ls ls' : List Line} (h : List.Forall₂ Dressed ls ls') :
    depthOf ls' = depthOf ls := by
  induction h with
  | nil => rfl
  | cons hl _ ih => rw [depthOf_cons, depthOf_cons, hl.continues.depthChange_eq, ih]

end Line

/-- A scan is alike before and after a quiet line. -/
theorem TableScan.alike_pass_of_quiet (s : TableScan) {l : Line} (h : Line.IsQuiet l) :
    TableScan.Alike (s.pass l) s :=
  s.alike_pass h.tableHeader?_eq_none h.opens_eq h.closes_eq

end DbmlRestore
