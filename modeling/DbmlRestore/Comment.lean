import DbmlRestore.Text

/-!
# Comments

A comment is kept as it was written, with its delimiters, together with the
place it belongs to: the *kind* says what sort of place, and the *anchor* names
the table, and for a comment at the end of a field's line also the field.

A record may carry any anchor; the ones that make sense for its kind are
described by `Comment.AnchorRule`. What is written in it, and the names in its
anchor, are texts, unless it comes from elsewhere: its type tells of which type
they are.
-/

namespace DbmlRestore

/-- What a comment is attached to. -/
inductive CommentKind where
  /-- The schema, before its first definition. -/
  | header
  /-- A table, before its header. -/
  | table
  /-- A table, inside its body. -/
  | field
  /-- The schema, after its last definition. -/
  | footer
  /-- A field, at the end of its line. -/
  | inline
deriving Repr, DecidableEq

/-- The name of a kind in a snapshot. -/
def CommentKind.name : CommentKind → Text
  | .header => "header".toList
  | .table => "table".toList
  | .field => "field".toList
  | .footer => "footer".toList
  | .inline => "inline".toList

/-- All kinds, in the order in which they are listed to the user. -/
def CommentKind.all : List CommentKind :=
  [.header, .table, .field, .footer, .inline]

/-- The kind with a given name. -/
def CommentKind.ofName? (name : Text) : Option CommentKind :=
  all.find? (·.name = name)

/-- The table, and for a comment at the end of a line the field, that a comment
    is attached to. -/
structure Anchor (σ : Type := Text) where
  /-- The table. -/
  table : Option σ
  /-- The field. -/
  field : Option σ
deriving Repr, DecidableEq

namespace Anchor

/-- No table and no field. -/
def none {σ : Type} : Anchor σ := ⟨.none, .none⟩

/-- The anchor with other names. -/
def map {σ τ : Type} (f : σ → τ) (a : Anchor σ) : Anchor τ := ⟨a.table.map f, a.field.map f⟩

@[simp] theorem map_id {σ : Type} (a : Anchor σ) : a.map id = a := by
  rw [map, Option.map_id]
  rfl

@[simp] theorem map_map {σ τ υ : Type} (f : σ → τ) (g : τ → υ) (a : Anchor σ) :
    (a.map f).map g = a.map (g ∘ f) := by
  rw [map, map, map, Option.map_map, Option.map_map]

/-- The key under which a comment on `field` of `table` is looked up. -/
def key (table field : Text) : Text :=
  table ++ '.' :: field

/-- The key of an anchor that names both a table and a field. -/
def inlineKey? (a : Anchor) : Option Text :=
  match a.table, a.field with
  | some t, some f => some (key t f)
  | _, _ => .none

end Anchor

/-- A comment as it was written, and where it belongs. -/
structure Comment (σ : Type := Text) where
  /-- What the comment is attached to. -/
  kind : CommentKind
  /-- The comment with its delimiters; a full-line comment keeps its indentation,
      and a comment of several lines its line feeds. -/
  text : σ
  /-- The table and the field. -/
  anchor : Anchor σ := Anchor.none
deriving Repr, DecidableEq

namespace Comment

/-- The comment with other texts and names. -/
def map {σ τ : Type} (f : σ → τ) (c : Comment σ) : Comment τ :=
  ⟨c.kind, f c.text, c.anchor.map f⟩

@[simp] theorem map_id {σ : Type} (c : Comment σ) : c.map id = c := by
  rw [map, Anchor.map_id]
  rfl

@[simp] theorem map_map {σ τ υ : Type} (f : σ → τ) (g : τ → υ) (c : Comment σ) :
    (c.map f).map g = c.map (g ∘ f) := by
  rw [map, map, map, Anchor.map_map]
  rfl

/-- A comment before the first definition. -/
def header (text : Text) : Comment := ⟨.header, text, .none⟩

/-- A comment after the last definition. -/
def footer (text : Text) : Comment := ⟨.footer, text, .none⟩

/-- A comment before the header of a table. -/
def onTable (text : Text) (table : Option Text) : Comment := ⟨.table, text, ⟨table, .none⟩⟩

/-- A comment inside the body of a table. -/
def inBody (text : Text) (table : Option Text) : Comment := ⟨.field, text, ⟨table, .none⟩⟩

/-- A comment at the end of the line of a field. -/
def inline (text : Text) (table field : Option Text) : Comment := ⟨.inline, text, ⟨table, field⟩⟩

/-- The anchors that make sense for a kind: both names for a comment at the end
    of a line, the table alone for the other comments of a table, and none for
    those of the schema. -/
def AnchorRule {σ : Type} : CommentKind → Anchor σ → Prop
  | .inline, a => a.table.isSome ∧ a.field.isSome
  | .table, a => a.table.isSome ∧ a.field = .none
  | .field, a => a.table.isSome ∧ a.field = .none
  | .header, a => a = .none
  | .footer, a => a = .none

instance {σ : Type} [DecidableEq σ] :
    (k : CommentKind) → (a : Anchor σ) → Decidable (AnchorRule k a)
  | .inline, a => inferInstanceAs (Decidable (a.table.isSome ∧ a.field.isSome))
  | .table, a => inferInstanceAs (Decidable (a.table.isSome ∧ a.field = .none))
  | .field, a => inferInstanceAs (Decidable (a.table.isSome ∧ a.field = .none))
  | .header, a => inferInstanceAs (Decidable (a = .none))
  | .footer, a => inferInstanceAs (Decidable (a = .none))

/-- It does not matter what the names are. -/
@[simp] theorem anchorRule_map {σ τ : Type} (f : σ → τ) (k : CommentKind) (a : Anchor σ) :
    AnchorRule k (a.map f) ↔ AnchorRule k a := by
  obtain ⟨table, field⟩ := a
  cases k <;> cases table <;> cases field <;> simp [AnchorRule, Anchor.map, Anchor.none]

end Comment

end DbmlRestore
