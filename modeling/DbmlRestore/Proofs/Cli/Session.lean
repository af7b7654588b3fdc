import DbmlRestore.Cli.Run
import DbmlRestore.Proofs.Charset.Utf8
import DbmlRestore.Proofs.Snapshot.Stored
import DbmlRestore.Proofs.World

/-!
# Sessions in a directory

An action of the command line may fail. What it does in a world where it does not is told by its
result and the files that it leaves (`Action.Yields`), and one action after the other yields the
result of the second one (`Action.Yields.bind`). On a sound system, files are read and written in a
directory as the library does it, under names that lead nowhere else.
-/

namespace DbmlRestore

namespace Cli

section

variable {sys : System} {α β : Type}

/-- In the world `w`, the action `x` gives the result `a`, and leaves the files `t`. -/
def Action.Yields (x : Action (On sys) α) (w : World) (a : α) (t : FileTree) : Prop :=
  w.Yields x.run (.ok a) t

namespace Action.Yields

variable {w : World} {a : α} {b : β} {t t' : FileTree}

theorem pure (w : World) (a : α) : Action.Yields (Pure.pure a : Action (On sys) α) w a w.tree :=
  ⟨w.output, w.reports, rfl⟩

theorem lift {x : On sys α} (hx : w.Yields x a t) : Action.Yields (ExceptT.lift x) w a t := by
  obtain ⟨output, reports, hx⟩ := hx
  refine ⟨output, reports, ?_⟩
  show (Except.ok (x.run w).1, (x.run w).2) = _
  rw [hx]

/-- Actions that yield their values can be taken one after the other. -/
theorem bind {x : Action (On sys) α} {f : α → Action (On sys) β} (hx : x.Yields w a t)
    (hf : ∀ output reports,
      (f a).Yields { w with tree := t, output := output, reports := reports } b t') :
    Action.Yields (x >>= f) w b t' :=
  World.Yields.bind (f := ExceptT.bindCont f) hx hf

end Action.Yields

end

/-! ## The host -/

section

variable {w : World} {p : Path} {t : FileTree}

theorem kind?_yields (w : World) (p : Path) :
    Action.Yields (Host.kind? p : Action (On .sound) _) w ((w.tree.at? p).map (·.map Entry.kind))
      w.tree :=
  .lift (w.kind?_yields p)

theorem read_yields (w : World) (p : Path) :
    Action.Yields (Host.read p : Action (On .sound) _) w (w.tree.read p) w.tree :=
  .lift (w.read_yields p)

/-- Emptying a file leaves it with no content. -/
theorem empty_yields (h : w.tree.write p [] = .ok t) :
    Action.Yields (Host.empty p : Action (On .sound) _) w (.ok ()) t :=
  .lift ⟨w.output, w.reports, World.change_eq_ok (f := (·.write p [])) h⟩

/-- A file is stored with its content, as nothing breaks off on a sound system. -/
theorem store_yields {content : Charset.Bytes} (h : w.tree.write p content = .ok t) :
    Action.Yields (Host.store p content : Action (On .sound) _) w (.ok ()) t :=
  .lift ⟨w.output, w.reports, World.change_eq_ok (f := (·.write p content)) h⟩

end

namespace Session

theorem log_yields (sys : System) (s : Session) (source : String) (message : Text) (w : World) :
    (s.log source message : Action (On sys) Unit).Yields w () w.tree := by
  rw [log]
  split
  · exact ⟨w.output, _, rfl⟩
  · exact .pure w ()

variable {s : Session} {w : World} {p : Path} {content : Charset.Bytes} {text : Text}

/-- What can be read is a file. -/
theorem isFile_yields (h : w.tree.read p = .ok content) :
    (isFile p : Action (On .sound) Bool).Yields w true w.tree := by
  have hkind := kind?_yields w p
  rw [FileTree.at?_of_read h] at hkind
  exact .bind (hkind.bind fun _ _ => .pure _ _) fun _ _ => .pure _ _

/-- The codec is that of UTF-8, if nothing else is asked for. -/
theorem codec_yields (hs : s.config.defaults = {}) (w : World) :
    (s.codec : Action (On .sound) Codec).Yields w (Charset.codec .utf8) w.tree := by
  have hcodec : Charset.registry s.config.defaults.encoding = .ok (Charset.codec .utf8) := by
    rw [hs]
    rfl
  have hlookup : Action.Yields (Host.codec s.config.defaults.encoding : Action (On .sound) _) w
      (Charset.registry s.config.defaults.encoding) w.tree := ⟨w.output, w.reports, rfl⟩
  rw [codec]
  refine hlookup.bind fun _ _ => ?_
  rw [hcodec]
  exact .pure _ _

/-- A file in UTF-8 is read as the text that it holds. -/
theorem readText_yields (hs : s.config.defaults = {}) (h : w.tree.read p = .ok content)
    (htext : Charset.Utf8.decode content = .ok text) :
    (s.readText p : Action (On .sound) Wording).Yields w (.text text) w.tree := by
  have hdecode : (Charset.codec .utf8).decode content = .ok (.text text) := by
    simp only [Charset.codec, Charset.decode, htext]
    rfl
  rw [readText]
  refine (read_yields w p).bind fun _ _ => ?_
  rw [h]
  refine .bind (codec_yields hs _) fun _ _ => ?_
  rw [hdecode]
  exact .pure _ _

/-- The file is there and holds the text. -/
def HasText (s : Session) (t : FileTree) (file text : Text) : Prop :=
  ∃ content, t.read (s.resolve file) = .ok content ∧ Charset.Utf8.decode content = .ok text

/-- The file is there, has the suffix of a schema, and holds the text. -/
structure HasSchema (s : Session) (t : FileTree) (file text : Text) : Prop where
  suffix : (s.resolve file).suffix = ".dbml".toList
  text : s.HasText t file text

/-- The file is there and holds a text that writes the snapshot. -/
def HasSnapshot (s : Session) (t : FileTree) (file : Text) (snapshot : Snapshot Wording) : Prop :=
  ∃ text, s.HasText t file text ∧ Snapshot.ofText text = .ok snapshot

/-- A schema file is read, whether or not its suffix is looked at. -/
theorem readSchema_yields (hs : s.config.defaults = {}) {file : Text} (strict : Bool)
    (hschema : s.HasSchema w.tree file text) :
    (s.readSchema file strict : Action (On .sound) Wording).Yields w (.text text) w.tree := by
  obtain ⟨hsuffix, content, hread, htext⟩ := hschema
  have haccepts : s.config.accepts (s.resolve file) = true := by
    rw [Config.accepts, hs, hsuffix]
    rfl
  rw [readSchema]
  refine (isFile_yields hread).bind fun output reports => ?_
  dsimp only
  rw [haccepts, Bool.not_true, Bool.and_false, if_neg Bool.false_ne_true,
    if_neg Bool.false_ne_true]
  exact readText_yields hs hread htext

/-- A snapshot file is read as the snapshot that it writes. -/
theorem readSnapshot_yields (hs : s.config.defaults = {}) {file : Text}
    {snapshot : Snapshot Wording} (h : s.HasSnapshot w.tree file snapshot) :
    (s.readSnapshot file : Action (On .sound) _).Yields w snapshot w.tree := by
  obtain ⟨text, ⟨content, hread, htext⟩, hsnapshot⟩ := h
  rw [readSnapshot]
  refine (isFile_yields hread).bind fun output reports => ?_
  dsimp only
  rw [Bool.not_true, if_neg Bool.false_ne_true]
  refine .bind (readText_yields hs hread htext) fun output reports => ?_
  rw [Snapshot.ofWording_text, hsnapshot]
  exact .bind (s.log_yields ..) fun _ _ => .pure _ _

/-! ## Writing -/

/-- A file is written into a directory that is there. -/
theorem writeFile_yields (hs : s.config.defaults = {}) {a : Address} {name : Text}
    (hdir : w.tree.LeadsTo p a) (hfits : p.Fits name)
    (hfree : w.tree.entry? (a ++ [name]) ≠ some .directory) (text : Text) :
    (s.writeFile (p.child name) (.text text) : Action (On .sound) Unit).Yields w ()
      (w.tree.insert (a ++ [name]) (.file (Charset.Utf8.encode text))) := by
  have hparent : (p.child name).parent = p := by
    rw [Path.parent, Path.child, List.dropLast_concat]
  have hencode : (Charset.codec .utf8).encode (.text text) = .ok (Charset.Utf8.encode text) := rfl
  have hl := hdir.locate_child hfits
  have hempty : w.tree.write (p.child name) [] = .ok (w.tree.insert (a ++ [name]) (.file [])) :=
    FileTree.write_eq_ok_iff.2 ⟨_, hl, hfree, rfl⟩
  have hstore := FileTree.write_insert hl hfree [] (Charset.Utf8.encode text)
  rw [writeFile, hparent]
  refine .bind (.lift (World.makeDirectories_yields hdir)) fun o r => ?_
  refine .bind (empty_yields (w := { w with output := o, reports := r }) hempty) fun _ _ => ?_
  rw [fill]
  refine .bind (codec_yields hs _) fun o r => ?_
  rw [hencode]
  refine .bind (store_yields (w := ⟨_, w.environment, w.directory, o, r⟩) hstore) fun _ _ => ?_
  exact s.log_yields ..

/-- The name is that of a file in the directory of the workspace, which is at the address `a`. -/
structure IsSpot (s : Session) (t : FileTree) (a : Address) (file : Text) : Prop where
  directory : t.LeadsTo s.root a
  resolve : s.resolve file = s.root.child file
  fits : s.root.Fits file
  ne_dash : file ≠ ['-']
  ne_nil : file ≠ []

/-- A file at a spot has the text that its content stands for. -/
theorem IsSpot.hasText {t : FileTree} {a : Address} {file : Text} (h : s.IsSpot t a file)
    (hfile : t.entry? (a ++ [file]) = some (.file content))
    (htext : Charset.Utf8.decode content = .ok text) : s.HasText t file text := by
  refine ⟨content, ?_, htext⟩
  rw [h.resolve]
  exact h.directory.read_child h.fits hfile

/-- A command that has come to a text writes it, and ends with zero. -/
theorem conclude_yields (hs : s.config.defaults = {}) {a : Address} {file : Text}
    (h : s.IsSpot w.tree a file) (hfree : w.tree.entry? (a ++ [file]) ≠ some .directory)
    (text : Text) :
    (s.conclude (.output (.text text) (some file)) : Action (On .sound) Nat).Yields w 0
      (w.tree.insert (a ++ [file]) (.file (Charset.Utf8.encode text))) := by
  have hfile : outputFile? (some file) = some file := by
    obtain ⟨c, rest, rfl⟩ := List.exists_cons_of_ne_nil h.ne_nil
    exact Option.filter_eq_some_iff.2 ⟨rfl, decide_eq_true h.ne_dash⟩
  have hwrite := writeFile_yields hs h.directory h.fits hfree text
  rw [conclude, writeOutput, hfile]
  dsimp only
  rw [h.resolve]
  exact hwrite.bind fun _ _ => .pure _ _

end Session

end Cli

end DbmlRestore
