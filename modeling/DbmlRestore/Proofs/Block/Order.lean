import DbmlRestore.Proofs.Block.Tables

/-!
# The order comes back

If the headers of tables stand at depth zero, the tables of a text are those of its blocks, one for
each block of a table (`Block.extract_eq_filterMap`), and the reordered text has the same tables in
the order of the sorted blocks (`Block.extract_reorder`).

An entry of an order is found at its own position (`TableEntry.rank?_ofOrder`) if it differs from
the later ones, and no later one has its bare name where it has no schema; names without a dot are
not mistaken for qualified ones. Sorting tables by these positions gives the order back
(`TableEntry.extract_reorder_extract`).
-/

namespace DbmlRestore

namespace Line

/-- Blank lines are no headers. -/
theorem filterMap_inked (ls : List Line) :
    (inked ls).filterMap asTable? = ls.filterMap asTable? := by
  induction ls with
  | nil => rfl
  | cons l ls ih =>
    cases h : isBlankLine l with
    | true =>
      have hquiet : IsQuiet l := .inl (isBlankLine_iff.1 h)
      rw [inked_cons_of_blank h, ih,
        List.filterMap_cons_none (asTable?_eq_none hquiet.not_isTableHeader)]
    | false =>
      rw [inked_cons_of_not_blank h, List.filterMap_cons, List.filterMap_cons, ih]

end Line

/-- The position of an entry in an order. -/
def TableEntry.rank? (index : OrderIndex) (e : TableEntry) : Option Nat :=
  OrderIndex.rank? index e.qualified e.table

namespace Block

variable {b : Block} {t : Text}

/-- No line of a block but the first is the header of a table. -/
theorem IsSpan.filterMap_lines {h : Line} {body : List Line} (hspan : b.IsSpan h body)
    (hz : Line.AtZero Line.IsTableHeader 0 b.lines) :
    b.lines.filterMap Line.asTable? = b.asTable?.toList := by
  have hbody : ∀ l ∈ body, Line.asTable? l = none := by
    intro l hl
    obtain ⟨pre, post, rfl⟩ := List.append_of_mem hl
    refine Line.asTable?_eq_none fun hheader => ?_
    have hdepth := hz (h :: pre) l post hspan.lines hheader
    rw [Line.depthOf_cons, Int.zero_add] at hdepth
    have := hspan.inner pre l post rfl hdepth
    rw [Line.startKind?, if_pos hheader] at this
    cases this
  rw [hspan.lines, List.filterMap_cons, List.filterMap_eq_nil_iff.2 hbody, hspan.header.asTable?_eq]
  cases b.asTable? <;> rfl

/-- What holds at depth zero in the text does so in the block, which starts there. -/
theorem StandsAt.atZero {ls : List Line} {i e : Nat} (h : b.StandsAt ls i e) {p : Line → Prop}
    (hz : Line.AtZero p 0 ls) : Line.AtZero p 0 b.lines := by
  intro pre l post hsplit hl
  obtain ⟨hcut, -, hdepth⟩ := h.cut hsplit
  have := hz _ l _ hcut hl
  rwa [hdepth] at this

end Block

namespace Block

section

variable {t : Text} (hz : Line.AtZero Line.IsTableHeader 0 (Text.lines t))
include hz

/-- The only header in the lines of a block is its own. -/
theorem filterMap_lines_of_mem_proper {b : Block} (hb : b ∈ proper (partition t)) :
    b.lines.filterMap Line.asTable? = b.asTable?.toList := by
  obtain ⟨i, e, h⟩ := exists_standsAt hb
  obtain ⟨header, body, hspan⟩ := h.exists_isSpan
  exact hspan.filterMap_lines (h.atZero hz)

/-- The headers in the lines of the blocks are the tables of the blocks, one for each. -/
theorem filterMap_flatMap_lines {bs : List Block} (hbs : ∀ b ∈ bs, b ∈ proper (partition t)) :
    (bs.flatMap (·.lines)).filterMap Line.asTable? = bs.filterMap asTable? := by
  induction bs with
  | nil => rfl
  | cons b bs ih =>
    rw [List.flatMap_cons, List.filterMap_append, ih fun c hc => hbs c (List.mem_cons_of_mem b hc),
      filterMap_lines_of_mem_proper hz (hbs b List.mem_cons_self), List.filterMap_cons]
    cases b.asTable? <;> rfl

/-- The tables of a text are those of its blocks. -/
theorem extract_eq_filterMap :
    TableEntry.extract t = (proper (partition t)).filterMap asTable? := by
  refine ((filterMap_proper_eq_extract_iff t).2 fun i l hl hheader => ?_).symm
  obtain ⟨hi, rfl⟩ := List.getElem?_eq_some_iff.1 hl
  have hsplit : Text.lines t = (Text.lines t).take i ++ (Text.lines t)[i] ::
      (Text.lines t).drop (i + 1) := by
    rw [← List.drop_eq_getElem_cons, List.take_append_drop]
  have hzero := hz _ _ _ hsplit hheader
  rwa [Int.zero_add] at hzero

/-- The tables of a reordered text are those of the sorted blocks. -/
theorem extract_reorder (order : List TableEntry) :
    TableEntry.extract (reorder order t) =
      (laid (OrderIndex.ofOrder order) (partition t)).filterMap asTable? := by
  show (Text.lines (reorder order t)).filterMap Line.asTable? = _
  rw [← Line.filterMap_inked, inked_reorder, Line.filterMap_inked,
    filterMap_flatMap_lines hz fun b hb => (laid_perm _ _).mem_iff.1 hb]

/-- Reordering keeps the tables of a text, in some order. -/
theorem extract_reorder_perm (order : List TableEntry) :
    (TableEntry.extract (reorder order t)).Perm (TableEntry.extract t) := by
  rw [extract_reorder hz, extract_eq_filterMap hz]
  exact (laid_perm _ _).filterMap _

end

/-- A block of another kind than a table has no entry. -/
theorem asTable?_eq_none {kind : BlockKind} (hk : kind ≠ .other) (ht : kind ≠ .table) {b : Block}
    (hb : b ∈ ofKind (partition t) kind) : b.asTable? = none := by
  obtain ⟨hb, hkind⟩ := List.mem_filter.1 hb
  rw [decide_eq_true_eq] at hkind
  obtain ⟨i, e, h⟩ := exists_standsAt (List.mem_filter.2 ⟨hb, decide_eq_true (hkind ▸ hk)⟩)
  obtain ⟨l, -, hheader⟩ := h.header
  rw [← hheader.asTable?_eq]
  exact Line.asTable?_eq_none fun hl => ht (hkind ▸ hheader.isTableHeader_iff.1 hl)

/-- The layout has the tables in the order in which their blocks were sorted. -/
theorem filterMap_laid (index : OrderIndex) :
    (laid index (partition t)).filterMap asTable? =
      (sortByRank index (ofKind (partition t) .table)).filterMap asTable? := by
  have hnone : ∀ kind, kind ≠ .other → kind ≠ .table →
      (ofKind (partition t) kind).filterMap asTable? = [] := fun kind hk ht =>
    List.filterMap_eq_nil_iff.2 fun b hb => asTable?_eq_none hk ht hb
  rw [laid, List.filterMap_append, List.filterMap_append, hnone .enum (by decide) (by decide),
    hnone .ref (by decide) (by decide), List.nil_append, List.append_nil]

/-- The position of a table is that of its entry. -/
theorem rank?_eq_of_asTable? {index : OrderIndex} {b : Block} {e : TableEntry}
    (h : b.asTable? = some e) : b.rank? index = e.rank? index := by
  obtain ⟨table, ht, rfl⟩ := Option.map_eq_some_iff.1 h
  rw [rank?, qualified, ht]
  rfl

/-- The tables of a reordered text are sorted. -/
theorem pairwise_extract_reorder (hz : Line.AtZero Line.IsTableHeader 0 (Text.lines t))
    (order : List TableEntry) :
    (TableEntry.extract (reorder order t)).Pairwise fun d e =>
      rankLe (d.rank? (OrderIndex.ofOrder order)) (e.rank? (OrderIndex.ofOrder order)) = true := by
  rw [extract_reorder hz, filterMap_laid, List.pairwise_filterMap]
  refine (pairwise_sortByRank _ _).imp fun {a b} hab d hd e he => ?_
  rwa [← rank?_eq_of_asTable? hd, ← rank?_eq_of_asTable? he]

end Block

namespace TableEntry

/-! ## Positions -/

/-- No schema is empty, as the name of one is not. -/
theorem schema_ne_nil_of_mem_extract {t : Text} {e : TableEntry} (he : e ∈ extract t) :
    e.schema ≠ some [] := by
  obtain ⟨l, -, hl⟩ := List.mem_filterMap.1 he
  obtain ⟨h, hh, rfl⟩ := Option.map_eq_some_iff.1 hl
  exact (Line.ne_nil_of_tableHeader? hh).2

/-- A qualified name has a dot, and ends in the name of the table. -/
theorem qualified_of_some {e : TableEntry} {schema : Text} (hs : e.schema = some schema)
    (hne : schema ≠ []) : e.qualified = schema ++ '.' :: e.table := by
  rw [qualified, hs, qualifiedName, if_neg (by rwa [List.isEmpty_iff])]

/-- A table without a schema has one name. -/
theorem qualified_of_none {e : TableEntry} (hs : e.schema = none) : e.qualified = e.table := by
  rw [qualified, hs]
  rfl

/-- The conditions under which no entry of an order takes over the name under which an earlier one
    is found. -/
structure IsClear (order : List TableEntry) : Prop where
  nodup : order.Nodup
  noDot : ∀ e ∈ order, '.' ∉ e.table
  schema : ∀ e ∈ order, e.schema ≠ some []
  bare : order.Pairwise fun e d => e.schema = none → d.table ≠ e.table

/-- The qualified name of an entry is no name of another one, unless they have the same bare name
    and the entry has no schema. -/
theorem ne_qualified {e d : TableEntry} (he : '.' ∉ e.table) (hd : '.' ∉ d.table)
    (hes : e.schema ≠ some []) (hds : d.schema ≠ some []) (hne : e ≠ d)
    (hbare : e.schema = none → d.table ≠ e.table) :
    d.table ≠ e.qualified ∧ d.qualified ≠ e.qualified := by
  have hlast := lastName_qualified hd
  -- Without a schema, the qualified name is the bare one, and has no dot.
  cases hs : e.schema with
  | none =>
    rw [qualified_of_none hs]
    refine ⟨hbare hs, fun heq => hbare hs ?_⟩
    rw [← hlast, heq, lastName_eq_self he]
  | some schema =>
    have hschema : schema ≠ [] := fun h => hes (h ▸ hs)
    -- With a schema, it has a dot, and the name behind the dot and the one before can be told
    -- apart.
    have hq := qualified_of_some hs hschema
    have hmem : '.' ∈ e.qualified := by
      rw [hq]
      exact List.mem_append_right _ List.mem_cons_self
    refine ⟨fun heq => hd (heq ▸ hmem), fun heq => ?_⟩
    cases hs' : d.schema with
    | none =>
      rw [← heq, qualified_of_none hs'] at hmem
      exact hd hmem
    | some schema' =>
      have htable : d.table = e.table := by rw [← hlast, heq, lastName_qualified he]
      rw [qualified_of_some hs' fun h => hds (h ▸ hs'), hq, htable] at heq
      have hsame := List.append_cancel_right heq
      obtain ⟨table, _⟩ := e
      obtain ⟨table', _⟩ := d
      obtain rfl : table' = table := htable
      cases hs
      cases hs'
      rw [hsame] at hne
      exact hne rfl

/-- Every entry is found at its own position. -/
theorem rank?_ofOrder {pre post : List TableEntry} {e : TableEntry}
    (h : IsClear (pre ++ e :: post)) :
    e.rank? (OrderIndex.ofOrder (pre ++ e :: post)) = some pre.length := by
  refine OrderIndex.rank?_ofOrder_of_forall fun d hd => ?_
  have he : e ∈ pre ++ e :: post := List.mem_append_right _ List.mem_cons_self
  have hd' : d ∈ pre ++ e :: post := List.mem_append_right _ (List.mem_cons_of_mem e hd)
  have hnodup := List.pairwise_cons.1 (List.pairwise_append.1 h.nodup).2.1
  have hbare := List.pairwise_cons.1 (List.pairwise_append.1 h.bare).2.1
  exact ne_qualified (h.noDot e he) (h.noDot d hd') (h.schema e he) (h.schema d hd')
    (hnodup.1 d hd) (hbare.1 d hd)

/-- In a clear order, each entry has its own position as its rank. -/
theorem rank?_getElem {order : List TableEntry} (h : IsClear order) {i : Nat}
    (hi : i < order.length) : order[i].rank? (OrderIndex.ofOrder order) = some i := by
  have hsplit : order = order.take i ++ order[i] :: order.drop (i + 1) := by
    rw [← List.drop_eq_getElem_cons hi, List.take_append_drop]
  have hrank := rank?_ofOrder (hsplit ▸ h)
  rwa [← hsplit, List.length_take, Nat.min_eq_left (Nat.le_of_lt hi)] at hrank

/-- The positions of the entries increase. -/
theorem pairwise_rankLe {order : List TableEntry} (h : IsClear order) :
    order.Pairwise fun d e => Block.rankLe (e.rank? (OrderIndex.ofOrder order))
      (d.rank? (OrderIndex.ofOrder order)) = false := by
  rw [List.pairwise_iff_getElem]
  intro i j hi hj hij
  rw [rank?_getElem h hi, rank?_getElem h hj]
  exact decide_eq_false (Nat.not_le_of_lt hij)

/-- The tables come back in the order of another text, if that text has the same tables, each of
    them once. The names must not have dots, and a table without a schema must not be followed by
    one of the same name. -/
theorem extract_reorder_extract {source t : Text}
    (hz : Line.AtZero Line.IsTableHeader 0 (Text.lines t))
    (hperm : (extract t).Perm (extract source)) (hnodup : (extract source).Nodup)
    (hdot : ∀ e ∈ extract source, '.' ∉ e.table)
    (hbare : (extract source).Pairwise fun e d => e.schema = none → d.table ≠ e.table) :
    extract (Block.reorder (extract source) t) = extract source := by
  have hclear : IsClear (extract source) :=
    ⟨hnodup, hdot, fun e he => schema_ne_nil_of_mem_extract he, hbare⟩
  exact Block.eq_of_perm_of_rankLe ((Block.extract_reorder_perm hz _).trans hperm)
    (Block.pairwise_extract_reorder hz _) (pairwise_rankLe hclear)

/-- Tables of the same name in different schemas, the one without a schema being the last. -/
theorem extract_reorder_extract_schemas :
    let source := "Table b\nTable x.a \x7b\x7d\nTable \"y\".a\nTable a".toList
    let t := ("Table a \x7b\n\x7d\n// x\nRef: b.i > a.i\n\nTable y.a \x7b\n  id int\n" ++
      "\x7d\nTable b\n\nTable \"x\".\"a\" \x7b\n\x7d").toList
    extract t ≠ extract source ∧ extract (Block.reorder (extract source) t) = extract source := by
  intro source t
  refine ⟨by decide +kernel, extract_reorder_extract ?_ ?_ ?_ ?_ ?_⟩
  all_goals decide +kernel

end TableEntry

end DbmlRestore
