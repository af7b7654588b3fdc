import DbmlRestore.Block.Reorder
import DbmlRestore.Comment.Extract
import DbmlRestore.Comment.Merge

/-!
# Snapshots

A snapshot is what regenerating a schema would lose: the order of its tables and
its comments. It is captured from the hand-written text and put back into the
regenerated one, first the order and then the comments, so that comments are put
into a text that is laid out already.

The names and comments of a captured snapshot are texts. Those of a stored one are
what its file holds, which may be no texts (`Wording`).
-/

namespace DbmlRestore

/-- The table order and the comments of a schema. -/
structure Snapshot (σ : Type := Text) where
  /-- The tables in order. -/
  order : List (TableEntry σ)
  /-- The comments in order. -/
  comments : List (Comment σ)
deriving Repr, DecidableEq

namespace Snapshot

/-- The snapshot with other names and comments. -/
def map {σ τ : Type} (f : σ → τ) (s : Snapshot σ) : Snapshot τ :=
  ⟨s.order.map (·.map f), s.comments.map (·.map f)⟩

@[simp] theorem map_id {σ : Type} (s : Snapshot σ) : s.map id = s := by
  simp [map]

@[simp] theorem map_map {σ τ υ : Type} (f : σ → τ) (g : τ → υ) (s : Snapshot σ) :
    (s.map f).map g = s.map (g ∘ f) := by
  simp [map, Function.comp_def]

/-- The snapshot of a text. -/
def capture (source : Text) : Snapshot :=
  ⟨TableEntry.extract source, Comment.extract source⟩

/-- Whether there is nothing to put back. -/
def isEmpty {σ : Type} (s : Snapshot σ) : Bool := s.order.isEmpty && s.comments.isEmpty

/-- A text with its tables in the order of the snapshot. -/
def reorder (s : Snapshot) (regenerated : Text) : Text := Block.reorder s.order regenerated

/-- A text with the comments of the snapshot. -/
def merge (s : Snapshot) (regenerated : Text) : Text := Comment.merge s.comments regenerated

/-- A text with the order and the comments of the snapshot. -/
def restore (s : Snapshot) (regenerated : Text) : Text := s.merge (s.reorder regenerated)

end Snapshot

/-- A regenerated text with the order and the comments of the hand-written one. -/
def preserve (source regenerated : Text) : Text :=
  (Snapshot.capture source).restore regenerated

end DbmlRestore
