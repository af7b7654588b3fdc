import DbmlRestore.Proofs.Cli.Session

/-!
# What the commands write

A command reads the texts of files, does with them what it is there for, and comes to a text for its
output: `extract` to the snapshot of a schema, `reorder` to a schema in the order of a snapshot,
`merge` to one with its comments, and `restore` to one with both. An output in the directory of the
workspace is then a file that holds the text in UTF-8 (`Command.runIn_yields`).
-/

namespace DbmlRestore

namespace Cli

namespace Session

/-! ## Parts of the work -/

section

variable {sys : System} (s : Session) (snapshot : Snapshot Wording) (schema : Wording) (w : World)

/-- Capturing yields the snapshot of the wording. -/
theorem capture_yields : (s.capture schema : Action (On sys) _).Yields w
    (Snapshot.captureWording schema) w.tree :=
  .bind (s.log_yields ..) fun _ _ => .bind (s.log_yields ..) fun _ _ => .pure _ _

/-- Partitioning yields the blocks of the text. -/
theorem partition_yields (text : Text) :
    (s.partition text : Action (On sys) _).Yields w (Block.partition text) w.tree :=
  .bind (s.log_yields ..) fun _ _ => .pure _ _

/-- Reordering yields the text or the wording that it should, and leaves the files as they are. -/
theorem reorder_yields : (s.reorder snapshot schema : Action (On sys) _).Yields w
    (snapshot.through Snapshot.reorder schema) w.tree := by
  rw [reorder]
  refine .bind (s.partition_yields ..) fun output reports => ?_
  dsimp only
  split
  · exact .bind (s.log_yields ..) fun _ _ => .pure _ _
  · exact .pure _ _

/-- So does merging. -/
theorem merge_yields : (s.merge snapshot schema : Action (On sys) _).Yields w
    (snapshot.through Snapshot.merge schema) w.tree := by
  rw [merge]
  dsimp only
  split
  · exact .bind (s.log_yields ..) fun _ _ => .pure _ _
  · exact .pure _ _

/-- Restoring yields what reordering and merging make of the schema, one after the other. -/
theorem restore_yields : (s.restore snapshot schema : Action (On sys) _).Yields w
    (snapshot.through Snapshot.merge (snapshot.through Snapshot.reorder schema)) w.tree :=
  .bind (s.reorder_yields ..) fun _ _ => s.merge_yields ..

end

/-! ## Commands -/

variable {s : Session} {w : World} {file : Text} (hs : s.config.defaults = {})
include hs

/-- The snapshot of a schema is captured. -/
theorem prepareExtract_yields {source text : Text} (hsource : s.HasSchema w.tree source text)
    (hauto : file ≠ "auto".toList) :
    (s.prepareExtract source (some file) false : Action (On .sound) _).Yields w
      (.output (.text (Snapshot.capture text).stored) (some file)) w.tree := by
  rw [prepareExtract]
  refine .bind (readSchema_yields hs true hsource) fun _ _ => ?_
  refine .bind (s.capture_yields ..) fun o r => ?_
  dsimp only
  rw [if_neg Bool.false_ne_true, if_neg fun h => hauto (Option.some.inj h)]
  exact .pure _ _

/-- A schema takes from a snapshot what is put back. -/
theorem preparePutBack_yields {stored regenerated text : Text} {snapshot : Snapshot Wording}
    (hstored : s.HasSnapshot w.tree stored snapshot) (htext : s.HasSchema w.tree regenerated text)
    {back : Snapshot Wording → Wording → Action (On .sound) Wording} {restored : Wording}
    (hback : ∀ v : World, (back snapshot (.text text)).Yields v restored v.tree) :
    (s.preparePutBack back regenerated (some stored) (some file)).Yields w
      (.output restored (some file)) w.tree := by
  rw [preparePutBack]
  refine .bind (readSnapshot_yields hs hstored) fun _ _ => ?_
  refine .bind (readSchema_yields hs true htext) fun _ _ => ?_
  exact .bind (hback _) fun _ _ => .pure _ _

/-- A schema takes the order and the comments of another one. -/
theorem prepareRestore_yields {source regenerated original text : Text}
    (hsource : s.HasSchema w.tree source original) (htext : s.HasSchema w.tree regenerated text) :
    (s.prepareRestore source (some regenerated) (some file) false : Action (On .sound) _).Yields w
      (.output (.text (preserve original text)) (some file)) w.tree := by
  have hrestored (v : World) : (s.restore ((Snapshot.capture original).map .text) (.text text) :
      Action (On .sound) Wording).Yields v (.text (preserve original text)) v.tree := by
    have hcomposed : preserve original text =
        (Snapshot.capture original).merge ((Snapshot.capture original).reorder text) := rfl
    rw [hcomposed, ← Snapshot.through_text, ← Snapshot.through_text]
    exact s.restore_yields ..
  rw [prepareRestore]
  dsimp only
  rw [Bool.false_and, if_neg Bool.false_ne_true]
  refine .bind (readSchema_yields hs true hsource) fun _ _ => ?_
  refine .bind (s.capture_yields ..) fun _ _ => ?_
  refine .bind (readSchema_yields hs true htext) fun _ _ => ?_
  refine .bind (hrestored _) fun _ _ => ?_
  dsimp only
  rw [if_neg Bool.false_ne_true]
  exact .bind (s.log_yields ..) fun o r => .pure _ _

end Session

/-- A command that comes to a text for a file in the workspace writes it there, in UTF-8. -/
theorem Command.runIn_yields {s : Session} {w : World} (hs : s.config.defaults = {}) {c : Command}
    {text file : Text} {a : Address} (hprepare : (c.prepare s : Action (On .sound) _).Yields w
      (.output (.text text) (some file)) w.tree)
    (hspot : s.IsSpot w.tree a file) (hfree : w.tree.entry? (a ++ [file]) ≠ some .directory) :
    (c.runIn s : Action (On .sound) Nat).Yields w 0
      (w.tree.insert (a ++ [file]) (.file (Charset.Utf8.encode text))) :=
  .bind hprepare fun o r =>
    Session.conclude_yields (w := { w with output := o, reports := r }) hs hspot hfree text

end Cli

end DbmlRestore
