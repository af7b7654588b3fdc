import DbmlRestore.Proofs.Line.Forms
import DbmlRestore.TableOrder

/-!
# Positions in a table order

The index of an order answers for a name with the last entry that has it, be it as its
bare or as its qualified name (`OrderIndex.find?_insert`). Both names of an entry end in
the name of its table (`TableEntry.lastName_qualified`). So if the tables have different
names without a dot, no entry takes over a name of another one, and every entry is found
at its own position (`OrderIndex.rank?_ofOrder`).
-/

namespace DbmlRestore

namespace OrderIndex

/-- A name that is put into an index is found at its position, and the others are as before. -/
theorem find?_insert (index : OrderIndex) (name k : Text) (position : Nat) :
    find? (insert name position index) k =
      if name = k then some position else find? index k := by
  induction index with
  | nil =>
    rw [insert, find?, List.find?_cons]
    by_cases h : name = k <;> simp [h, find?]
  | cons entry index ih =>
    obtain ⟨n, p⟩ := entry
    rw [insert]
    by_cases hn : n = name
    · rw [if_pos hn, find?, find?, List.find?_cons, List.find?_cons]
      by_cases h : name = k <;> simp [h, hn]
    · rw [if_neg hn, find?, List.find?_cons]
      by_cases h : n = k
      · have hne : name ≠ k := fun e => hn (h.trans e.symm)
        simp [h, hne, find?]
      · rw [find?] at ih
        rw [decide_eq_false h]
        show Option.map _ (List.find? _ (insert name position index)) = _
        rw [ih, find?, find?, List.find?_cons, decide_eq_false h]

/-- Entries without a name leave its position alone. -/
theorem find?_addFrom_of_ne {es : List TableEntry} {k : Text}
    (h : ∀ e ∈ es, e.table ≠ k ∧ e.qualified ≠ k) (position : Nat) (index : OrderIndex) :
    find? (addFrom position index es) k = find? index k := by
  induction es generalizing position index with
  | nil => rfl
  | cons e es ih =>
    obtain ⟨ht, hq⟩ := h e List.mem_cons_self
    rw [addFrom, ih fun d hd => h d (List.mem_cons_of_mem e hd), find?_insert, if_neg ht,
      find?_insert, if_neg hq]

/-- Entries can be added in two parts, the second from the position after the first. -/
theorem addFrom_append (es es' : List TableEntry) (position : Nat) (index : OrderIndex) :
    addFrom position index (es ++ es') =
      addFrom (position + es.length) (addFrom position index es) es' := by
  induction es generalizing position index with
  | nil => rfl
  | cons e es ih =>
    rw [List.cons_append, addFrom, ih, addFrom, List.length_cons, Nat.add_right_comm, Nat.add_assoc]

/-- A name that only one entry has stands for its position. -/
theorem find?_ofOrder {pre post : List TableEntry} {e : TableEntry} {k : Text}
    (hk : e.table = k ∨ e.qualified = k) (h : ∀ d ∈ post, d.table ≠ k ∧ d.qualified ≠ k) :
    find? (ofOrder (pre ++ e :: post)) k = some pre.length := by
  rw [ofOrder, addFrom_append, addFrom, find?_addFrom_of_ne h, find?_insert, find?_insert]
  rcases hk with hk | hk
  · rw [if_pos hk, Nat.zero_add]
  · rw [if_pos hk, Nat.zero_add, ite_self]

end OrderIndex

namespace TableEntry

/-- What follows the last dot of a name. -/
def lastName (t : Text) : Text := (t.reverse.takeWhile (· != '.')).reverse

theorem lastName_eq_self {t : Text} (h : '.' ∉ t) : lastName t = t := by
  have hall : ∀ c ∈ t.reverse, (c != '.') = true := fun c hc =>
    bne_iff_ne.2 fun e => h (e ▸ List.mem_reverse.1 hc)
  have htake : t.reverse.takeWhile (· != '.') = t.reverse := by
    rw [List.takeWhile_eq_self_iff]
    exact hall
  rw [lastName, htake, List.reverse_reverse]

/-- A qualified name ends in the name of the table. -/
theorem lastName_qualified {e : TableEntry} (h : '.' ∉ e.table) :
    lastName e.qualified = e.table := by
  unfold qualified qualifiedName
  split
  · exact lastName_eq_self h
  · split
    · exact lastName_eq_self h
    · next s _ =>
      have hrev : '.' ∉ e.table.reverse := fun hc => h (List.mem_reverse.1 hc)
      rw [lastName, List.reverse_append, List.reverse_cons, List.append_assoc,
        List.singleton_append, Text.takeWhile_ne_append hrev, List.reverse_reverse]

end TableEntry

/-- An entry whose qualified name no later one takes over is found at its own position. -/
theorem OrderIndex.rank?_ofOrder_of_forall {pre post : List TableEntry} {e : TableEntry}
    (h : ∀ d ∈ post, d.table ≠ e.qualified ∧ d.qualified ≠ e.qualified) :
    rank? (ofOrder (pre ++ e :: post)) e.qualified e.table = some pre.length := by
  rw [rank?, find?_ofOrder (.inr rfl) h]
  rfl

/-- Tables with different names without a dot are found at their own positions. -/
theorem OrderIndex.rank?_ofOrder {pre post : List TableEntry} {e : TableEntry}
    (hn : ((pre ++ e :: post).map (·.table)).Nodup)
    (hdot : ∀ d ∈ pre ++ e :: post, '.' ∉ d.table) :
    rank? (ofOrder (pre ++ e :: post)) e.qualified e.table = some pre.length := by
  have he : '.' ∉ e.table := hdot e (List.mem_append_right _ List.mem_cons_self)
  have hlast := TableEntry.lastName_qualified he
  -- No later entry has the name, as the last part of a qualified name is that of the table.
  have hother : ∀ d ∈ post, d.table ≠ e.qualified ∧ d.qualified ≠ e.qualified := by
    intro d hd
    have hddot : '.' ∉ d.table :=
      hdot d (List.mem_append_right _ (List.mem_cons_of_mem e hd))
    have hne : d.table ≠ e.table := by
      rw [List.map_append, List.map_cons, List.nodup_append] at hn
      have := (List.nodup_cons.1 hn.2.1).1
      exact fun heq => this (heq ▸ List.mem_map_of_mem hd)
    constructor
    · intro heq
      rw [← heq, TableEntry.lastName_eq_self hddot] at hlast
      exact hne hlast
    · intro heq
      rw [← heq, TableEntry.lastName_qualified hddot] at hlast
      exact hne hlast
  exact rank?_ofOrder_of_forall hother

end DbmlRestore
