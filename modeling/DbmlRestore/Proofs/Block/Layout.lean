import DbmlRestore.Block.Reorder
import DbmlRestore.Proofs.Line.Forms
import Mathlib.Data.List.Chain

/-!
# Laying out

Tidying leaves lines alone of which no two in a row are blank and the last is not
blank, and takes away the empty lines after them (`Layout.trimEnd_collapse`). Sorting
blocks whose ranks are in order finds this order from every other one
(`Block.sortByRank_eq_of_perm`).
-/

namespace DbmlRestore

namespace Line

/-- A line is blank if nothing is left of it without its margins. -/
theorem isBlankLine_iff {l : Line} : isBlankLine l = true ↔ Text.trim l = [] := by
  rw [isBlankLine, List.all_eq_true, Text.trim_eq_nil_iff]

theorem isBlankLine_eq_false_iff {l : Line} : isBlankLine l = false ↔ Text.trim l ≠ [] := by
  rw [← Bool.not_eq_true, isBlankLine_iff]

theorem isEmpty_trim (l : Line) : (Text.trim l).isEmpty = isBlankLine l := by
  rw [Bool.eq_iff_iff, List.isEmpty_iff, isBlankLine_iff]

end Line

namespace Layout

/-- A line of padding is blank. -/
theorem isBlankLine_of_isPadding {l : Line} (h : isPadding l = true) :
    Line.isBlankLine l = true := by
  rw [isPadding, List.all_eq_true] at h
  refine List.all_eq_true.2 fun c hc => ?_
  have := h c hc
  simp only [Bool.or_eq_true, beq_iff_eq] at this
  rcases this with (rfl | rfl) | rfl <;> rfl

/-! ## Spaced lines -/

/-- No two lines in a row are blank. -/
def Spaced (ls : List Line) : Prop :=
  ls.IsChain fun l m => (Line.isBlankLine l && Line.isBlankLine m) = false

/-- Lines that are not blank are spaced. -/
theorem spaced_of_forall {ls : List Line} (h : ∀ l ∈ ls, Line.isBlankLine l = false) :
    Spaced ls := by
  induction ls with
  | nil => exact List.isChain_nil
  | cons l ls ih =>
    refine List.isChain_cons.2 ⟨fun m _ => ?_, ih fun m hm => h m (List.mem_cons_of_mem l hm)⟩
    rw [h l List.mem_cons_self, Bool.false_and]

/-- An empty line between lines that are not blank leaves lines spaced. -/
theorem Spaced.append_nil {ls ms : List Line} (hls : ∀ l ∈ ls, Line.isBlankLine l = false)
    (hms : Spaced ms) (hhead : ∀ m ∈ ms.head?, Line.isBlankLine m = false) :
    Spaced (ls ++ [] :: ms) := by
  refine List.IsChain.append (spaced_of_forall hls)
    (List.isChain_cons.2 ⟨fun m hm => ?_, hms⟩) fun l hl m _ => ?_
  · rw [hhead m hm, Bool.and_false]
  · rw [hls l (List.mem_of_getLast? hl), Bool.false_and]

/-- Where no two empty lines follow one another, there is nothing to shorten. -/
theorem squeeze_of_spaced {ls : List Line} (h : Spaced ls) : squeeze ls = ls := by
  induction ls with
  | nil => rfl
  | cons l ls ih =>
    obtain ⟨hhead, htail⟩ := List.isChain_cons.1 h
    rw [squeeze, ih htail]
    cases ls with
    | nil => rfl
    | cons m ms =>
      show (if (Line.isBlankLine l && Line.isBlankLine m) = true then _ else _) = _
      rw [hhead m rfl, if_neg Bool.false_ne_true]

theorem squeeze_replicate_nil (n : Nat) : squeeze (List.replicate (n + 1) []) = [[]] := by
  induction n with
  | zero => rfl
  | succ n ih =>
    rw [List.replicate_succ, squeeze, ih]
    rfl

/-- Empty lines at the end become one. -/
theorem squeeze_append_replicate_nil {ls : List Line} (h : Spaced ls)
    (hlast : ∀ l ∈ ls.getLast?, Line.isBlankLine l = false) (n : Nat) :
    squeeze (ls ++ List.replicate (n + 1) []) = ls ++ [[]] := by
  induction ls with
  | nil => exact squeeze_replicate_nil n
  | cons l ls ih =>
    obtain ⟨hhead, htail⟩ := List.isChain_cons.1 h
    have hlast' : ∀ m ∈ ls.getLast?, Line.isBlankLine m = false := fun m hm =>
      hlast m (by rw [List.getLast?_cons, hm]; rfl)
    rw [List.cons_append, squeeze, ih htail hlast']
    cases ls with
    | nil =>
      show (if (Line.isBlankLine l && true) = true then _ else _) = _
      rw [hlast l rfl, Bool.false_and, if_neg Bool.false_ne_true]
      rfl
    | cons m ms =>
      show (if (Line.isBlankLine l && Line.isBlankLine m) = true then _ else _) = _
      rw [hhead m rfl, if_neg Bool.false_ne_true]
      rfl

/-- Collapsing spaced lines does nothing but thin out the empty lines after them. -/
theorem exists_collapse_eq {ls : List Line} (h : Spaced ls) (hne : ls ≠ [])
    (hlast : ∀ l ∈ ls.getLast?, Line.isBlankLine l = false) (n : Nat) :
    ∃ k, collapse (ls ++ List.replicate n []) = ls ++ List.replicate k [] := by
  obtain ⟨first, rest, rfl⟩ := List.exists_cons_of_ne_nil hne
  have hrest : Spaced rest := (List.isChain_cons.1 h).2
  have hlast' : ∀ m ∈ rest.getLast?, Line.isBlankLine m = false := fun m hm =>
    hlast m (by rw [List.getLast?_cons, hm]; rfl)
  -- Squeezing leaves one empty line, and the last line is not squeezed with the others.
  match n with
  | 0 =>
    refine ⟨0, ?_⟩
    rw [List.replicate_zero, List.append_nil, collapse,
      squeeze_of_spaced (List.IsChain.dropLast hrest), List.cons_append]
    congr 1
    cases hl : rest.getLast? with
    | none => rw [List.getLast?_eq_none_iff.1 hl]; rfl
    | some l =>
      obtain ⟨front, rfl⟩ := List.getLast?_eq_some_iff.1 hl
      rw [List.dropLast_concat]
      rfl
  | 1 =>
    refine ⟨1, ?_⟩
    show collapse (first :: (rest ++ [[]])) = _
    rw [collapse, List.dropLast_concat, List.getLast?_concat, squeeze_of_spaced hrest]
    rfl
  | n + 2 =>
    refine ⟨2, ?_⟩
    have hcut : rest ++ List.replicate (n + 2) [] =
        (rest ++ List.replicate (n + 1) []) ++ [[]] := by
      rw [List.append_assoc, ← List.replicate_succ']
    show collapse (first :: (rest ++ List.replicate (n + 2) [])) = _
    rw [hcut, collapse, List.dropLast_concat, List.getLast?_concat,
      squeeze_append_replicate_nil hrest hlast' n, List.cons_append, List.append_assoc]
    rfl

/-- Tidying spaced lines takes away the empty lines after them. -/
theorem trimEnd_collapse {ls : List Line} (h : Spaced ls) (hne : ls ≠ [])
    (hlast : ∀ l ∈ ls.getLast?, Line.isBlankLine l = false) (n : Nat) :
    trimEnd (collapse (ls ++ List.replicate n [])) = ls := by
  obtain ⟨k, hk⟩ := exists_collapse_eq h hne hlast n
  obtain ⟨first, rest, rfl⟩ := List.exists_cons_of_ne_nil hne
  have hpad : ∀ l ∈ List.replicate k ([] : Line), isPadding l = true := fun l hl => by
    rw [List.eq_of_mem_replicate hl]
    rfl
  rw [hk, List.cons_append, trimEnd, Text.dropEndWhile_append_of_forall rest hpad]
  congr 1
  cases hl : rest.getLast? with
  | none => rw [List.getLast?_eq_none_iff.1 hl]; rfl
  | some l =>
    obtain ⟨front, rfl⟩ := List.getLast?_eq_some_iff.1 hl
    have hl' : isPadding l = false := Bool.eq_false_iff.2 fun hp => by
      have hb := hlast l (by rw [List.getLast?_cons, List.getLast?_concat]; rfl)
      rw [isBlankLine_of_isPadding hp] at hb
      exact Bool.noConfusion hb
    rw [Text.dropEndWhile_append_of_exists front ⟨l, List.mem_singleton_self l, hl'⟩]
    simp [Text.dropEndWhile, hl']

end Layout

namespace Block

/-! ## Sorting -/

theorem rankLe_trans {i j k : Option Nat} (hij : rankLe i j = true) (hjk : rankLe j k = true) :
    rankLe i k = true := by
  cases i <;> cases j <;> cases k <;> simp_all [rankLe]
  omega

/-- Any two ranks can be compared. -/
theorem rankLe_total (i j : Option Nat) : (rankLe i j || rankLe j i) = true := by
  cases i <;> cases j <;> simp [rankLe]
  omega

/-- Of members with increasing ranks, no two have the same. -/
theorem eq_of_rankLe {α : Type} {rank : α → Option Nat} {as : List α}
    (h : as.Pairwise fun a b => rankLe (rank b) (rank a) = false) {a b : α} (ha : a ∈ as)
    (hb : b ∈ as) (hab : rankLe (rank a) (rank b) = true) (hba : rankLe (rank b) (rank a) = true) :
    a = b := by
  induction as with
  | nil => exact absurd ha List.not_mem_nil
  | cons c as ih =>
    obtain ⟨hc, has⟩ := List.pairwise_cons.1 h
    rcases List.mem_cons.1 ha with rfl | ha' <;> rcases List.mem_cons.1 hb with rfl | hb'
    · rfl
    · exact Bool.noConfusion ((hc b hb').symm.trans hba)
    · exact Bool.noConfusion ((hc a ha').symm.trans hab)
    · exact ih has ha' hb'

/-- Members with increasing ranks are in order in one way only. -/
theorem eq_of_perm_of_rankLe {α : Type} {rank : α → Option Nat} {as bs : List α}
    (hperm : as.Perm bs) (has : as.Pairwise fun a b => rankLe (rank a) (rank b) = true)
    (hbs : bs.Pairwise fun a b => rankLe (rank b) (rank a) = false) : as = bs := by
  have hbs' : bs.Pairwise fun a b => rankLe (rank a) (rank b) = true :=
    hbs.imp fun {a b} hba => by
      have := rankLe_total (rank a) (rank b)
      rwa [hba, Bool.or_false] at this
  exact hperm.eq_of_pairwise (fun a b ha hb => eq_of_rankLe hbs (hperm.mem_iff.1 ha) hb) has hbs'

/-- The sorted blocks stand in the order of their ranks. -/
theorem pairwise_sortByRank (index : OrderIndex) (bs : List Block) :
    (sortByRank index bs).Pairwise fun a b =>
      rankLe (a.rank? index) (b.rank? index) = true := by
  refine List.pairwise_mergeSort ?_ ?_ bs
  · exact fun _ _ _ => rankLe_trans
  · exact fun _ _ => rankLe_total _ _

/-- Blocks with increasing ranks are found in their order from every other one. -/
theorem sortByRank_eq_of_perm {index : OrderIndex} {bs bs' : List Block} (hperm : bs.Perm bs')
    (h : bs'.Pairwise fun a b => rankLe (b.rank? index) (a.rank? index) = false) :
    sortByRank index bs = bs' :=
  eq_of_perm_of_rankLe ((List.mergeSort_perm _ _).trans hperm) (pairwise_sortByRank index bs) h

end Block

end DbmlRestore
