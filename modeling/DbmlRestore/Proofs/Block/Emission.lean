import DbmlRestore.Proofs.Block.Whole

/-!
# The order in which blocks are emitted

A block is *complete* (`Block.IsComplete`) if it is what its own text is partitioned into, its last
line closes a brace, and its braces sum to zero. Such blocks need nothing of what stands around
them: they are found again in every text that is joined from theirs, in whatever order
(`Block.partition_unlines`).

A generator may thus emit tables in any order. If they have positions of their own in the
given order, there is one way to sort them (`Block.sortByRank_congr`), and the reordered text does
not hang on the order in which they came, nor on where enums and references stood between them
(`Block.partition_and_reorder_unlines`).
-/

namespace DbmlRestore

namespace Block

variable {index : OrderIndex} {bs bs' : List Block} {b : Block}

/-! ## Complete blocks -/

/-- The text of the block is that block and no other, the last line closes a brace, and the braces
    sum to zero. -/
structure IsComplete (b : Block) : Prop where
  partition_text : partition b.text = [b]
  kind_ne_other : b.kind ≠ .other
  closes : ∃ l ∈ (Text.lines b.text).getLast?, '\x7d' ∈ l
  balanced : Line.depthOf (Text.lines b.text) = 0

instance : DecidablePred IsComplete := fun b =>
  decidable_of_iff (partition b.text = [b] ∧ b.kind ≠ .other ∧
      (∃ l ∈ (Text.lines b.text).getLast?, '\x7d' ∈ l) ∧ Line.depthOf (Text.lines b.text) = 0)
    ⟨fun ⟨hp, hk, hc, hb⟩ => ⟨hp, hk, hc, hb⟩, fun ⟨hp, hk, hc, hb⟩ => ⟨hp, hk, hc, hb⟩⟩

namespace IsComplete

/-- A complete block is the one that its own text is read as. -/
theorem mem_partition (h : b.IsComplete) : b ∈ partition b.text := by
  rw [h.partition_text]
  exact List.mem_singleton_self b

theorem lines_text (h : b.IsComplete) : Text.lines b.text = b.lines := by
  obtain ⟨hne, hnl⟩ := lines_of_mem_partition h.mem_partition
  exact Text.lines_unlines_of_forall hne hnl

theorem isWhole (h : b.IsComplete) : b.IsWhole := by
  have hmem : b ∈ proper (partition b.text) :=
    List.mem_filter.2 ⟨h.mem_partition, decide_eq_true h.kind_ne_other⟩
  exact isWhole_of_mem_proper h.balanced hmem

theorem isClosed (h : b.IsComplete) : b.IsClosed := by
  obtain ⟨l, hl, hmem⟩ := h.closes
  have hbal := h.balanced
  rw [h.lines_text] at hl hbal
  exact ⟨hbal, l, hl, List.count_pos_iff.2 hmem⟩

end IsComplete

end Block

/-- Complete blocks are found one after the other. -/
theorem Partition.run_flatMap_lines {bs : List Block} (h : ∀ b ∈ bs, b.IsComplete)
    (started : Bool) : run ⟨none, 0, started⟩ (bs.flatMap (·.lines)) = bs := by
  induction bs generalizing started with
  | nil => rfl
  | cons b bs ih =>
    have hb := h b List.mem_cons_self
    rw [List.flatMap_cons, run_closed rfl hb.isWhole hb.isClosed,
      ih fun c hc => h c (List.mem_cons_of_mem b hc)]
    rfl

namespace Block

/-- A text that is joined from those of complete blocks has these blocks. -/
theorem partition_unlines (h : ∀ b ∈ bs, b.IsComplete) :
    partition (Text.unlines (bs.map text)) = bs := by
  rcases List.eq_nil_or_concat' bs with rfl | ⟨_, _, hbs⟩
  · rfl
  · have hne : bs.map text ≠ [] := by simp [hbs]
    have hlines : (bs.map text).flatMap Text.lines = bs.flatMap (·.lines) :=
      flatMap_lines_map_text fun b hb => lines_of_mem_partition (h b hb).mem_partition
    rw [partition, Text.lines_unlines hne, hlines]
    exact Partition.run_flatMap_lines h false

/-! ## Tables at positions of their own -/

/-- Of two positions that differ, only one comes before the other. -/
theorem rankLe_antisymm {i j : Option Nat} (hij : rankLe i j = true) (hji : rankLe j i = true) :
    i = j := by
  cases i <;> cases j <;> simp_all [rankLe]
  omega

/-- The positions of the sorted tables increase. -/
theorem pairwise_sortByRank_of_nodup (h : (bs.map (rank? index)).Nodup) :
    (sortByRank index bs).Pairwise fun a b => rankLe (b.rank? index) (a.rank? index) = false := by
  have hperm : bs.Perm (sortByRank index bs) := (List.mergeSort_perm bs _).symm
  have hdistinct := List.pairwise_map.1 ((hperm.map _).nodup_iff.1 h)
  refine ((pairwise_sortByRank index bs).and hdistinct).imp fun {a b} hab => ?_
  exact Bool.eq_false_iff.2 fun hba => hab.2 (rankLe_antisymm hab.1 hba)

/-- Tables at positions of their own are sorted in one way. -/
theorem sortByRank_congr (h : (bs.map (rank? index)).Nodup) (hperm : bs'.Perm bs) :
    sortByRank index bs' = sortByRank index bs :=
  sortByRank_eq_of_perm (hperm.trans (List.mergeSort_perm bs _).symm)
    (pairwise_sortByRank_of_nodup h)

/-- Tables of different ranks are laid out in one way, however they stood before. -/
theorem layout_congr (hperm : bs'.Perm bs) (henums : ofKind bs' .enum = ofKind bs .enum)
    (hrefs : ofKind bs' .ref = ofKind bs .ref)
    (h : ((ofKind bs .table).map (rank? index)).Nodup) : layout index bs' = layout index bs := by
  have htables : (ofKind bs' .table).Perm (ofKind bs .table) := hperm.filter _
  rw [layout, layout, henums, hrefs, sortByRank_congr h htables]

/-! ## The order of emission -/

/-- A text that is joined from those of complete blocks has exactly these blocks. However they are
    joined, as long as enums and references keep their order, they are laid out alike by every
    order that has no two of the tables at the same position. (It may do without a position for
    one of them.) -/
theorem partition_and_reorder_unlines (h : ∀ b ∈ bs, b.IsComplete) :
    partition (Text.unlines (bs.map text)) = bs ∧
      ∀ (order : List TableEntry) (bs' : List Block), bs'.Perm bs →
        ofKind bs' .enum = ofKind bs .enum → ofKind bs' .ref = ofKind bs .ref →
        ((ofKind bs .table).map (rank? (OrderIndex.ofOrder order))).Nodup →
        reorder order (Text.unlines (bs'.map text)) =
          reorder order (Text.unlines (bs.map text)) := by
  refine ⟨partition_unlines h, fun order bs' hperm henums hrefs hranks => ?_⟩
  have h' : ∀ b ∈ bs', b.IsComplete := fun b hb => h b (hperm.mem_iff.1 hb)
  rw [reorder, reorder, partition_unlines h, partition_unlines h',
    layout_congr hperm henums hrefs hranks]

/-- Two enums, two tables and a reference with braces, in two orders. -/
theorem partition_and_reorder_unlines_shuffled :
    let enum (name : String) : Block :=
      ⟨.enum, [("Enum " ++ name ++ " \x7b").toList, "  x".toList, "\x7d".toList], none, none⟩
    let a : Block := ⟨.table, ["Table a \x7b".toList, "\x7d".toList], some ['a'], none⟩
    let b : Block :=
      ⟨.table, ["  table \"p\".b \x7b id int \x7d".toList], some ['b'], some ['p']⟩
    let ref : Block := ⟨.ref, ["Ref: \x7b".toList, " a.i > b.i \x7d ".toList], none, none⟩
    let bs := [a, enum "e", b, ref, enum "d"]
    let bs' := [enum "e", ref, enum "d", b, a]
    let order : List TableEntry := [⟨['b'], some ['p']⟩, ⟨['c'], none⟩, ⟨['a'], none⟩]
    partition (Text.unlines (bs.map text)) = bs ∧
      reorder order (Text.unlines (bs'.map text)) =
        reorder order (Text.unlines (bs.map text)) := by
  intro enum a b ref bs bs' order
  have hbs : ∀ b ∈ bs, b.IsComplete := by decide +kernel
  have h := partition_and_reorder_unlines hbs
  refine ⟨h.1, h.2 order bs' ?_ ?_ ?_ ?_⟩
  all_goals decide +kernel

end Block

end DbmlRestore
