import DbmlRestore.Proofs.Block.Balanced
import DbmlRestore.Proofs.TableOrder
import Mathlib.Data.ENat.Basic
import Mathlib.Order.Bounds.Basic

/-!
# What a reordered text is made of

A table is sorted by its *rank* in the given order: the position of the last entry that has its
qualified name, be it as its own qualified or bare name, or else of the last entry that has its bare
name (`Block.HasRank`). Of the entries of a name the index of the order finds the last one
(`OrderIndex.lastNamed_find?_ofOrder`), so that its answer is the rank (`Block.hasRank_rank`).

Sorting moves tables past each other only if their ranks differ; tables of the same rank, and those
that the order does not know, keep the order that they had (`Block.isStablySorted_sortByRank`). All
in all, the lines of a reordered text that are not blank are those of the enums, of the tables
sorted in this way and of the references (`Block.inked_reorder_sorted`).
-/

namespace DbmlRestore

/-! ## Positions of names -/

namespace TableEntry

/-- Entry `i` of an order has the name, be it as its qualified or as its bare name. -/
def NamedAt (order : List TableEntry) (name : Text) (i : Nat) : Prop :=
  ∃ e ∈ order[i]?, e.qualified = name ∨ e.table = name

/-- The last entry that has the name is at the position; without a position there is none. -/
def LastNamed (order : List TableEntry) (name : Text) : Option Nat → Prop
  | some i => IsGreatest {i | NamedAt order name i} i
  | none => ∀ i, ¬ NamedAt order name i

variable {order : List TableEntry} {e : TableEntry} {name : Text} {i : Nat}

/-- A position at which a name stands is one of the order. -/
theorem NamedAt.lt (h : NamedAt order name i) : i < order.length := by
  obtain ⟨e, he, -⟩ := h
  exact (List.getElem?_eq_some_iff.1 he).1

/-- One more entry is named at its own position only. -/
theorem namedAt_concat_iff : NamedAt (order ++ [e]) name i ↔
    NamedAt order name i ∨ i = order.length ∧ (e.qualified = name ∨ e.table = name) := by
  rcases Nat.lt_trichotomy i order.length with hlt | rfl | hgt
  · rw [NamedAt, List.getElem?_append_left hlt]
    exact (or_iff_left fun h => Nat.ne_of_lt hlt h.1).symm
  · have hnone : ¬ NamedAt order name order.length := fun h => Nat.lt_irrefl _ h.lt
    rw [NamedAt, List.getElem?_concat_length]
    simp [hnone]
  · have hnone : ¬ NamedAt order name i := fun h => Nat.lt_asymm hgt h.lt
    rw [NamedAt, List.getElem?_eq_none (by rw [List.length_append]; exact hgt)]
    simp [hnone, Nat.ne_of_gt hgt]

end TableEntry

namespace OrderIndex

open TableEntry

/-- The last entry takes over the names that it has. -/
theorem find?_ofOrder_concat (order : List TableEntry) (e : TableEntry) (name : Text) :
    find? (ofOrder (order ++ [e])) name =
      if e.qualified = name ∨ e.table = name then some order.length
      else find? (ofOrder order) name := by
  rw [ofOrder, addFrom_append, addFrom, addFrom, find?_insert, find?_insert, Nat.zero_add]
  by_cases ht : e.table = name <;> by_cases hq : e.qualified = name <;> simp [ht, hq, ofOrder]

/-- The index finds the last entry of a name. -/
theorem lastNamed_find?_ofOrder (order : List TableEntry) (name : Text) :
    LastNamed order name (find? (ofOrder order) name) := by
  induction order using List.reverseRecOn with
  | nil =>
    rintro i ⟨e, he, -⟩
    exact nomatch he
  | append_singleton order e ih =>
    rw [find?_ofOrder_concat]
    split
    · next hname =>
      -- The last entry has the name, and no position comes after it.
      refine ⟨namedAt_concat_iff.2 (.inr ⟨rfl, hname⟩), fun i hi => ?_⟩
      have := hi.lt
      rw [List.length_append] at this
      exact Nat.le_of_lt_succ this
    · next hname =>
      -- The last entry does not have the name, so that the positions are as before.
      have hiff : ∀ i, NamedAt (order ++ [e]) name i ↔ NamedAt order name i := fun i =>
        namedAt_concat_iff.trans (or_iff_left fun h => hname h.2)
      cases hfind : find? (ofOrder order) name with
      | none =>
        rw [hfind] at ih
        exact fun i hi => ih i ((hiff i).1 hi)
      | some p =>
        rw [hfind] at ih
        exact ⟨(hiff p).2 ih.1, fun i hi => ih.2 ((hiff i).1 hi)⟩

end OrderIndex

/-! ## Ranks -/

/-- The members of a list sorted by rank, those of the same rank in the order that they had. -/
structure IsStablySorted {α : Type} (rank : α → ℕ∞) (as sorted : List α) : Prop where
  perm : sorted.Perm as
  pairwise : sorted.Pairwise fun a b => rank a ≤ rank b
  stable : ∀ r, sorted.filter (rank · = r) = as.filter (rank · = r)

namespace Block

open TableEntry

/-- The rank of a block in an order: the last position of its qualified name, or else the last one
    of its bare name, or else infinity. -/
inductive HasRank (order : List TableEntry) (b : Block) : ℕ∞ → Prop where
  | qualified {i : ℕ} (hq : LastNamed order b.qualified (some i)) : HasRank order b i
  | bare {i : ℕ} (hq : LastNamed order b.qualified none)
      (ht : LastNamed order (b.table.getD []) (some i)) : HasRank order b i
  | unknown (hq : LastNamed order b.qualified none)
      (ht : LastNamed order (b.table.getD []) none) : HasRank order b ⊤

/-- The rank as it is found in the index of the order. -/
def rank (order : List TableEntry) (b : Block) : ℕ∞ :=
  ((b.rank? (OrderIndex.ofOrder order)).map Nat.cast).getD ⊤

/-- The rank by the index is the one that the order gives to the block. -/
theorem hasRank_rank (order : List TableEntry) (b : Block) : b.HasRank order (b.rank order) := by
  have hq := OrderIndex.lastNamed_find?_ofOrder order b.qualified
  have ht := OrderIndex.lastNamed_find?_ofOrder order (b.table.getD [])
  rw [rank, rank?, OrderIndex.rank?]
  cases hfind : OrderIndex.find? (OrderIndex.ofOrder order) b.qualified with
  | some i =>
    rw [hfind] at hq
    exact .qualified hq
  | none =>
    rw [hfind] at hq
    cases hfind' : OrderIndex.find? (OrderIndex.ofOrder order) (b.table.getD []) with
    | some i =>
      rw [hfind'] at ht
      exact .bare hq ht
    | none =>
      rw [hfind'] at ht
      exact .unknown hq ht

/-- No rank stands after all ranks, as an infinite one would. -/
theorem rankLe_iff {i j : Option Nat} :
    rankLe i j = true ↔ (i.map Nat.cast).getD (⊤ : ℕ∞) ≤ (j.map Nat.cast).getD ⊤ := by
  cases i <;> cases j <;> simp [rankLe]

/-- Sorting keeps tables of the same rank in their order. -/
theorem isStablySorted_sortByRank (order : List TableEntry) (bs : List Block) :
    IsStablySorted (rank order) bs (sortByRank (OrderIndex.ofOrder order) bs) := by
  have hperm := List.mergeSort_perm bs fun a b =>
    rankLe (a.rank? (OrderIndex.ofOrder order)) (b.rank? (OrderIndex.ofOrder order))
  refine ⟨hperm, (pairwise_sortByRank _ bs).imp rankLe_iff.1, fun r => ?_⟩
  -- The blocks of the rank are in order, so that sorting leaves them as they stand.
  have hsame : (bs.filter (rank order · = r)).Pairwise fun a b =>
      rankLe (a.rank? (OrderIndex.ofOrder order)) (b.rank? (OrderIndex.ofOrder order)) = true := by
    refine List.pairwise_of_forall_mem_list fun a ha b hb => rankLe_iff.2 (le_of_eq ?_)
    have ha := of_decide_eq_true (List.mem_filter.1 ha).2
    have hb := of_decide_eq_true (List.mem_filter.1 hb).2
    exact ha.trans hb.symm
  have hsub : (bs.filter (rank order · = r)).Sublist
      (sortByRank (OrderIndex.ofOrder order) bs) := by
    refine List.sublist_mergeSort ?_ ?_ hsame List.filter_sublist
    · exact fun _ _ _ => rankLe_trans
    · exact fun _ _ => rankLe_total _ _
  have hfilter := hsub.filter (rank order · = r)
  rw [List.filter_filter] at hfilter
  simp only [Bool.and_self] at hfilter
  exact (hfilter.eq_of_length (hperm.filter _).length_eq.symm).symm

/-! ## The lines of a reordered text -/

/-- The lines of a block that are not blank. -/
def inkedLines (b : Block) : List Line := Line.inked (Text.lines b.text)

theorem inked_flatMap_lines {t : Text} {bs : List Block} (h : ∀ b ∈ bs, b ∈ partition t) :
    Line.inked (bs.flatMap (·.lines)) = bs.flatMap inkedLines := by
  rw [Line.inked, List.filter_flatMap]
  refine List.flatMap_congr fun b hb => ?_
  obtain ⟨hne, hnl⟩ := lines_of_mem_partition (h b hb)
  rw [inkedLines, text, Text.lines_unlines_of_forall hne hnl, Line.inked]

/-- The lines of a reordered text that are not blank are those of the enums, then those of the
    tables, stably sorted by rank, and then those of the references. -/
theorem inked_reorder_sorted (order : List TableEntry) (t : Text) :
    ∃ rank : Block → ℕ∞, (∀ b : Block, b.HasRank order (rank b)) ∧
      ∃ tables, IsStablySorted rank ((partition t).filter (·.kind = .table)) tables ∧
        Line.inked (Text.lines (reorder order t)) =
          ((partition t).filter (·.kind = .enum)).flatMap inkedLines ++
            tables.flatMap inkedLines ++
            ((partition t).filter (·.kind = .ref)).flatMap inkedLines := by
  have hsorted := isStablySorted_sortByRank order (ofKind (partition t) .table)
  refine ⟨rank order, hasRank_rank order, _, hsorted, ?_⟩
  have hkind : ∀ {k : BlockKind}, ∀ b ∈ ofKind (partition t) k, b ∈ partition t :=
    fun b hb => List.mem_of_mem_filter hb
  have htables : ∀ b ∈ sortByRank (OrderIndex.ofOrder order) (ofKind (partition t) .table),
      b ∈ partition t := fun b hb => hkind b (hsorted.perm.mem_iff.1 hb)
  rw [inked_reorder, laid, List.flatMap_append, List.flatMap_append, Line.inked_append,
    Line.inked_append, inked_flatMap_lines hkind, inked_flatMap_lines htables,
    inked_flatMap_lines hkind]
  rfl

end Block

end DbmlRestore
