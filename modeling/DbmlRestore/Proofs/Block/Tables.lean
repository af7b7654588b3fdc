import DbmlRestore.Proofs.Block.Whole
import DbmlRestore.Proofs.TableOrder

/-!
# The tables of the blocks

The order of the tables of a text is read off its headers, wherever they stand; its blocks start at
depth zero only. So the tables of the blocks are some of those in the order, and come in the same
order (`Block.tables_sublist_extract`). They are all of them if and only if no header of a table
stands inside of braces, or after a brace that was closed too often.
-/

namespace DbmlRestore

/-! ## Lists -/

section Lists

variable {α β γ : Type}

/-- Members that are left out make no difference exactly if nothing is made of them. -/
theorem filterMap_filter_eq_iff {p : α → Bool} {f : α → Option β} {as : List α} :
    (as.filter p).filterMap f = as.filterMap f ↔ ∀ a ∈ as, (f a).isSome → p a = true := by
  induction as with
  | nil => exact iff_of_true rfl fun _ ha => absurd ha List.not_mem_nil
  | cons a as ih =>
    rw [List.forall_mem_cons]
    cases hp : p a with
    | true =>
      rw [List.filter_cons_of_pos hp, List.filterMap_cons, List.filterMap_cons]
      cases f a with
      | none => exact ih.trans (and_iff_right fun _ => rfl).symm
      | some b => exact (List.cons_inj_right b).trans (ih.trans (and_iff_right fun _ => rfl).symm)
    | false =>
      rw [List.filter_cons_of_neg (by rw [hp]; exact Bool.false_ne_true), List.filterMap_cons]
      cases f a with
      | none => exact ih.trans (and_iff_right nofun).symm
      | some b =>
        -- What is made of the member that is left out is missing.
        refine iff_of_false (fun h => ?_) fun h => Bool.false_ne_true (h.1 rfl)
        have hsub : ((as.filter p).filterMap f).Sublist (as.filterMap f) :=
          List.filter_sublist.filterMap f
        have hle := hsub.length_le
        rw [h, List.length_cons] at hle
        exact Nat.not_succ_le_self _ hle

theorem filterMap_eq_of_forall₂ {R : α → β → Prop} {f : α → Option γ} {g : β → Option γ}
    {as : List α} {bs : List β} (h : List.Forall₂ R as bs) (hfg : ∀ a b, R a b → f a = g b) :
    as.filterMap f = bs.filterMap g := by
  induction h with
  | nil => rfl
  | cons hab _ ih => rw [List.filterMap_cons, List.filterMap_cons, hfg _ _ hab, ih]

/-- To look up all positions of a list is to go through the list. -/
theorem filterMap_range_getElem? (f : α → Option β) (as : List α) :
    (List.range as.length).filterMap (fun i => as[i]?.bind f) = as.filterMap f := by
  induction as with
  | nil => rfl
  | cons a as ih =>
    rw [List.length_cons, List.range_succ_eq_map, List.filterMap_cons, List.filterMap_map,
      List.filterMap_cons, ← ih]
    rfl

end Lists

namespace Line

/-! ## Headers of tables -/

/-- The table that a line is the header of. -/
def asTable? (l : Line) : Option TableEntry :=
  (tableHeader? (Text.trim l)).map TableEntry.ofHeader

/-- Only the header of a table has an entry. -/
theorem asTable?_eq_none {l : Line} (h : ¬ IsTableHeader l) : asTable? l = none := by
  rw [asTable?, Option.not_isSome_iff_eq_none.1 h]
  rfl

/-- The header of a table starts a block at depth zero, and only there. -/
theorem isStart_iff_of_isTableHeader {ls : List Line} {i : Nat} {l : Line} (hl : ls[i]? = some l)
    (hheader : IsTableHeader l) : IsStart ls i ↔ depthBefore ls i = 0 := by
  refine and_iff_left ⟨l, hl, ?_⟩
  rw [startKind?, if_pos hheader]
  rfl

end Line

namespace Block

variable {b : Block} {t : Text}

/-- The table that the block is. -/
def asTable? (b : Block) : Option TableEntry := b.table.map fun table => ⟨table, b.schema⟩

/-- The entry of a block is that of its header. -/
theorem HeadedBy.asTable?_eq {l : Line} (h : b.HeadedBy l) : Line.asTable? l = b.asTable? := by
  rw [asTable?, h.table, h.schema, Line.asTable?]
  cases Line.tableHeader? (Text.trim l) <;> rfl

/-- A proper block has the name of a table if and only if it is one. -/
theorem isSome_table_iff {b : Block} (hb : b ∈ proper (partition t)) :
    b.table.isSome ↔ b.kind = .table := by
  obtain ⟨i, e, h⟩ := exists_standsAt hb
  obtain ⟨l, -, hheader⟩ := h.header
  rw [hheader.table, Option.isSome_map]
  exact hheader.isTableHeader_iff

/-- The blocks of tables are those with a table, so that their names can be taken from all blocks.
    -/
theorem map_ofKind_table {bs : List Block} (hbs : ∀ b ∈ bs, b.table.isSome ↔ b.kind = .table) :
    (ofKind bs .table).map (fun b => (b.table, b.schema)) =
      (bs.filterMap asTable?).map fun e => (some e.table, e.schema) := by
  induction bs with
  | nil => rfl
  | cons b bs ih =>
    obtain ⟨hb, hbs⟩ := List.forall_mem_cons.1 hbs
    rw [List.filterMap_cons, asTable?, ofKind]
    cases htable : b.table with
    | none =>
      have hkind : ¬ decide (b.kind = .table) = true := fun hk => by
        have hsome := hb.2 (of_decide_eq_true hk)
        rw [htable] at hsome
        exact Bool.noConfusion hsome
      rw [List.filter_cons, if_neg hkind]
      exact ih hbs
    | some table =>
      have hkind : decide (b.kind = .table) = true := decide_eq_true (hb.1 (htable ▸ rfl))
      rw [List.filter_cons, if_pos hkind, List.map_cons, htable]
      exact congrArg (List.cons _) (ih hbs)

/-- The tables of the blocks are those of the headers at depth zero. -/
theorem filterMap_proper (t : Text) :
    (proper (partition t)).filterMap asTable? =
      ((List.range (Text.lines t).length).filter (Line.IsStart (Text.lines t) ·)).filterMap
        fun i => (Text.lines t)[i]?.bind Line.asTable? := by
  refine (filterMap_eq_of_forall₂ (forall₂_standsAt t) fun i b ⟨e, h⟩ => ?_).symm
  obtain ⟨l, hl, hheader⟩ := h.header
  rw [Option.mem_def] at hl
  rw [hl]
  exact hheader.asTable?_eq

/-- The tables in the order of a text are those of its headers. -/
theorem extract_eq_filterMap_range (t : Text) :
    TableEntry.extract t = (List.range (Text.lines t).length).filterMap
      fun i => (Text.lines t)[i]?.bind Line.asTable? :=
  (filterMap_range_getElem? Line.asTable? (Text.lines t)).symm

/-- The tables of the blocks are tables of the text, in the same order. -/
theorem filterMap_proper_sublist (t : Text) :
    ((proper (partition t)).filterMap asTable?).Sublist (TableEntry.extract t) := by
  rw [filterMap_proper, extract_eq_filterMap_range]
  exact List.filter_sublist.filterMap _

/-- No table is missing if and only if each header of one stands at depth zero. -/
theorem filterMap_proper_eq_extract_iff (t : Text) :
    (proper (partition t)).filterMap asTable? = TableEntry.extract t ↔
      ∀ i, ∀ l ∈ (Text.lines t)[i]?, Line.IsTableHeader l →
        Line.depthBefore (Text.lines t) i = 0 := by
  have hline : ∀ {i : Nat} {l : Line}, (Text.lines t)[i]? = some l →
      ((((Text.lines t)[i]?.bind Line.asTable?).isSome →
          decide (Line.IsStart (Text.lines t) i) = true) ↔
        (Line.IsTableHeader l → Line.depthBefore (Text.lines t) i = 0)) := by
    intro i l hl
    rw [hl, Option.bind_some, Line.asTable?, Option.isSome_map, decide_eq_true_eq]
    exact forall_congr' fun hheader => Line.isStart_iff_of_isTableHeader hl hheader
  rw [filterMap_proper, extract_eq_filterMap_range, filterMap_filter_eq_iff]
  constructor
  · intro hstart i l hl
    exact (hline hl).1 (hstart i (List.mem_range.2 (List.getElem?_eq_some_iff.1 hl).1))
  · intro hzero i hi
    obtain ⟨l, hl⟩ : ∃ l, (Text.lines t)[i]? = some l :=
      ⟨_, List.getElem?_eq_getElem (List.mem_range.1 hi)⟩
    exact (hline hl).2 (hzero i l hl)

/-- The tables of the blocks of a text, with their schemas, come in the order of its headers. All
    of the headers are among them if and only if each of them stands at depth zero. -/
theorem tables_sublist_extract (t : Text) :
    let tables := (ofKind (partition t) .table).map fun b => (b.table, b.schema)
    let order := (TableEntry.extract t).map fun e => (some e.table, e.schema)
    tables.Sublist order ∧ (tables = order ↔ ∀ i, ∀ l ∈ (Text.lines t)[i]?, Line.IsTableHeader l →
      Line.depthBefore (Text.lines t) i = 0) := by
  intro tables order
  have htables : tables =
      ((proper (partition t)).filterMap asTable?).map fun e => (some e.table, e.schema) := by
    rw [← map_ofKind_table fun b hb => isSome_table_iff hb, ofKind_proper (by decide)]
  have hinj : Function.Injective fun e : TableEntry => (some e.table, e.schema) := by
    rintro ⟨table, schema⟩ ⟨table', schema'⟩ h
    cases h
    rfl
  rw [htables]
  refine ⟨(filterMap_proper_sublist t).map _, ?_⟩
  rw [(List.map_injective_iff.2 hinj).eq_iff]
  exact filterMap_proper_eq_extract_iff t

end Block

end DbmlRestore
