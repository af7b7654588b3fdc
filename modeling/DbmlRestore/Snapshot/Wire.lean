import DbmlRestore.Json.Parser
import DbmlRestore.Json.Printer
import DbmlRestore.Report
import DbmlRestore.Snapshot.Payload
import DbmlRestore.Text.Digit

/-!
# Snapshots as text

A snapshot is stored as a JSON text. Reading one back fails for three reasons
(`SnapshotError`): the text is not JSON, the value is not the wire form of a
snapshot, or an integer in the text has too many digits to be read at all. The
first two are errors of the library (`SnapshotError.report`).
-/

namespace DbmlRestore

/-- Why a snapshot cannot be read. -/
inductive SnapshotError where
  /-- The text is not JSON. -/
  | notJson (fault : Json.Fault) (position : Position)
  /-- The value is not the wire form of a snapshot. -/
  | invalid (issue : Issue)
  /-- An integer has too many digits. -/
  | digits (count : Nat)
deriving Repr, DecidableEq

/-- The error for a snapshot from a file; none for an integer with too many
    digits. -/
def SnapshotError.report (path : Option Text) : SnapshotError → Option LibraryError
  | .notJson fault position => some
    { area := .snapshot
      message := "Snapshot is not valid JSON: ".toList ++ fault.message
      location := ⟨path, some position.line, some position.column⟩ }
  | .invalid issue => some
    { area := .snapshot
      message := "Invalid snapshot payload: ".toList ++ issue.message
      location := { path := path }
      hint := some "Regenerate the snapshot with 'dbmlkeep extract'".toList }
  | .digits _ => none

namespace Snapshot

/-- The snapshot that a JSON value is the wire form of. -/
def ofJson (v : Json) : Except SnapshotError (Snapshot Wording) :=
  (Payload.snapshot v).mapError .invalid

/-- The snapshot that was read as JSON, or why it cannot be read. -/
def ofParsed : Except Json.ReadError Json → Except SnapshotError (Snapshot Wording)
  | .ok v => ofJson v
  | .error (.notJson fault position) => .error (.notJson fault position)
  | .error (.digits n) => .error (.digits n)

/-- The snapshot that a text writes. -/
def ofText (t : Text) : Except SnapshotError (Snapshot Wording) := ofParsed (Json.parse t)

/-- The snapshot that a wording writes. -/
def ofWording (w : Wording) : Except SnapshotError (Snapshot Wording) :=
  ofParsed (Json.parseWording w)

@[simp] theorem ofWording_text (t : Text) : ofWording (.text t) = ofText t := rfl

/-- The text of a snapshot. -/
def toText (i : Json.Indent) (s : Snapshot Wording) : Text :=
  Json.render i s.toJson

end Snapshot

end DbmlRestore
