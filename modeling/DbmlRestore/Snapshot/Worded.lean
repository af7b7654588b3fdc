import DbmlRestore.Snapshot
import DbmlRestore.Text.Wording

/-!
# Snapshots of wordings

A stored snapshot holds wordings, and a schema that was decoded may be a broken one. What is
made of them is made of the texts that carry them, with marks if one of them is broken
(`Snapshot.needsMarks`). Of texts, the same is made as ever.
-/

namespace DbmlRestore

/-- The names of an entry. -/
def TableEntry.names {σ : Type} (e : TableEntry σ) : List σ := e.table :: e.schema.toList

/-- The text of a comment, and the names in its anchor. -/
def Comment.strings {σ : Type} (c : Comment σ) : List σ :=
  c.text :: (c.anchor.table.toList ++ c.anchor.field.toList)

namespace Snapshot

/-- The names and the comments. -/
def strings {σ : Type} (s : Snapshot σ) : List σ :=
  s.order.flatMap TableEntry.names ++ s.comments.flatMap Comment.strings

theorem strings_map {σ τ : Type} (f : σ → τ) (s : Snapshot σ) :
    (s.map f).strings = s.strings.map f := by
  simp only [strings, map, List.map_append, List.map_flatMap, List.flatMap_map]
  congr 2
  · funext e
    obtain ⟨table, _ | schema⟩ := e <;> rfl
  · funext c
    obtain ⟨kind, text, _ | table, _ | field⟩ := c <;> rfl

/-- Whether a name or a comment of the snapshot, or the schema, is broken. -/
def needsMarks (s : Snapshot Wording) (w : Wording) : Bool :=
  s.strings.any Wording.isBroken || w.isBroken

@[simp] theorem needsMarks_text (s : Snapshot) (t : Text) :
    (s.map .text).needsMarks (.text t) = false := by
  rw [needsMarks, strings_map, List.any_map, Wording.isBroken_text, Bool.or_false,
    List.any_eq_false]
  exact fun _ _ => Bool.false_ne_true

/-- The snapshot of a wording. -/
def captureWording (source : Wording) : Snapshot Wording :=
  (capture (source.carried source.isBroken)).map (.ofCarried source.isBroken)

@[simp] theorem captureWording_text (t : Text) :
    captureWording (.text t) = (capture t).map .text := rfl

/-- What `f` makes of a snapshot and a schema. -/
def through (f : Snapshot → Text → Text) (s : Snapshot Wording) (w : Wording) : Wording :=
  let marked := s.needsMarks w
  .ofCarried marked (f (s.map (Wording.carried marked)) (w.carried marked))

@[simp] theorem through_text (f : Snapshot → Text → Text) (s : Snapshot) (t : Text) :
    (s.map .text).through f (.text t) = .text (f s t) := by
  have hid : Wording.carried false ∘ Wording.text = id := rfl
  rw [through, needsMarks_text, map_map, hid, map_id]
  rfl

end Snapshot

end DbmlRestore
