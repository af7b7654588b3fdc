import DbmlRestore.Line

/-!
# Table order

The order of the tables of a schema is the list of its `Table` headers, wherever
they stand. A table is looked up in it by its qualified name first and by its
bare name else; the index that answers (`OrderIndex.ofOrder`) has both names of
each entry, and a later entry takes a name over from an earlier one.

The names of an entry are texts, unless it comes from elsewhere: its type tells of
which type they are.
-/

namespace DbmlRestore

/-- A table of a schema, as its header names it. -/
structure TableEntry (σ : Type := Text) where
  /-- The table. -/
  table : σ
  /-- The schema, if the name is qualified. -/
  schema : Option σ
deriving Repr, DecidableEq

/-- The name of a table with its schema, if it has one that is not empty. -/
def qualifiedName (schema : Option Text) (table : Text) : Text :=
  match schema with
  | none => table
  | some s => if s.isEmpty then table else s ++ '.' :: table

namespace TableEntry

/-- The entry with other names. -/
def map {σ τ : Type} (f : σ → τ) (e : TableEntry σ) : TableEntry τ :=
  ⟨f e.table, e.schema.map f⟩

@[simp] theorem map_id {σ : Type} (e : TableEntry σ) : e.map id = e := by
  rw [map, Option.map_id]
  rfl

@[simp] theorem map_map {σ τ υ : Type} (f : σ → τ) (g : τ → υ) (e : TableEntry σ) :
    (e.map f).map g = e.map (g ∘ f) := by
  rw [map, map, map, Option.map_map]
  rfl

/-- The name of the table with its schema. -/
def qualified (e : TableEntry) : Text := qualifiedName e.schema e.table

/-- The table a header names. -/
def ofHeader (h : TableHeader) : TableEntry := ⟨h.table, h.schema⟩

/-- The tables of a text, one for each header, in order. -/
def extract (source : Text) : List TableEntry :=
  (Text.lines source).filterMap fun line => (Line.tableHeader? (Text.trim line)).map ofHeader

end TableEntry

/-- Names with the positions they stand for, each name once. -/
abbrev OrderIndex := List (Text × Nat)

namespace OrderIndex

/-- Sets the position of a name. -/
def insert (name : Text) (position : Nat) : OrderIndex → OrderIndex
  | [] => [(name, position)]
  | (n, p) :: index =>
    if n = name then (name, position) :: index else (n, p) :: insert name position index

/-- The position of a name. -/
def find? (index : OrderIndex) (name : Text) : Option Nat :=
  (List.find? (fun entry => entry.1 = name) index).map (·.2)

/-- Both names of the entries that follow, the first of them at `position`. -/
def addFrom (position : Nat) (index : OrderIndex) : List TableEntry → OrderIndex
  | [] => index
  | e :: es =>
    addFrom (position + 1) (insert e.table position (insert e.qualified position index)) es

/-- The positions of both names of each entry. -/
def ofOrder (order : List TableEntry) : OrderIndex :=
  addFrom 0 [] order

/-- The position of a table: under its qualified name, or else under its bare
    name. -/
def rank? (index : OrderIndex) (qualified table : Text) : Option Nat :=
  find? index qualified <|> find? index table

end OrderIndex

end DbmlRestore
