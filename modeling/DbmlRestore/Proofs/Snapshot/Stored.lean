import DbmlRestore.Proofs.Comment.Extracted
import DbmlRestore.Proofs.Snapshot.Wire

/-!
# Storing a captured snapshot

A snapshot that was captured from a text has comments with anchors that go with their kinds, and
all its strings are texts. So the file that it is written to gives it back
(`Snapshot.ofText_stored_capture`).
-/

namespace DbmlRestore

namespace Snapshot

/-- The text of the file that a snapshot is stored in. -/
def stored (s : Snapshot) : Text := (s.map .text).toText (.spaces 2) ++ ['\n']

/-- What is stored for a snapshot is ASCII. -/
theorem ascii_stored (s : Snapshot) : Json.Ascii s.stored :=
  Json.ascii_append.2 ⟨s.plain_toJson.ascii_render _, by decide⟩

/-- What is stored for a snapshot is read as its members. -/
theorem parse_stored (s : Snapshot) : Json.parse s.stored = .ok (s.map .text).toJson :=
  s.plain_toJson.parse_render_newline _

/-- A snapshot with anchors by the rule is read back from its file. -/
theorem ofText_stored {s : Snapshot} (h : ∀ c ∈ s.comments, Comment.AnchorRule c.kind c.anchor) :
    ofText s.stored = .ok (s.map .text) := by
  rw [ofText, parse_stored]
  exact ofJson_toJson_texts h

/-- A captured snapshot is read back from its file. -/
theorem ofText_stored_capture (source : Text) :
    ofText (capture source).stored = .ok ((capture source).map .text) :=
  ofText_stored fun _ hc => Comment.anchorRule_of_mem_extract hc

end Snapshot

end DbmlRestore
