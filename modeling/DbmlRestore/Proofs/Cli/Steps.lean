import DbmlRestore.Proofs.Cli.Command
import DbmlRestore.Proofs.Config

/-!
# Restoring step by step

A schema can be restored by one command, or by three that hand on a snapshot and a schema in files.
Both leave the same bytes (`Cli.run_steps`): the snapshot and the schema between the steps are read
as they were written, and putting back the order and then the comments is what restoring does.

A run does what the command does that its arguments ask for (`Cli.run_yields`). The steps are run
in a workspace without a settings file (`Cli.IsWorkspace`), which stays one when a step has written
its file (`Cli.IsWorkspace.insert`).
-/

namespace DbmlRestore

/-- How the program ends that is run in a world, and the world afterwards. -/
def World.call (w : World) (args : List String) : Cli.Ending × World :=
  (Cli.run (args.map String.toList) : On .sound Cli.Ending).run w

namespace Cli

variable {w : World} {t : FileTree}

/-- The arguments ask for a command, and for nothing else. -/
structure AsksFor (args : List Text) (c : Command) : Prop where
  read : Invocation.read args = .ok ⟨false, none, some c⟩
  preliminary : ∃ r, Invocation.preliminary args = .ok r ∧ r.value? "--workspace" = none ∧
    r.value? "--config" = none

/-- A run does what the command does that it is asked for. -/
theorem run_yields {args : List Text} {c : Command} (hargs : AsksFor args c)
    (hnull : w.directory.hasNull = false)
    (hdir : Path.resolve w.directory w.directory = w.directory)
    (hconfig : ∀ name ∈ Config.fileNames, w.tree.at? (w.directory.child name) = .ok none)
    (hcommand : ∀ logging output reports,
      (c.runIn ⟨w.directory, { root := w.directory }, logging⟩ : Action (On .sound) Nat).Yields
        { w with output := output, reports := reports } 0 t) :
    w.Yields (run args : On .sound Ending) (.exit 0) t := by
  obtain ⟨r, hr, hworkspace, hsettings⟩ := hargs.preliminary
  have hstart : w.Yields (Host.startDirectory : On .sound Path) w.directory w.tree :=
    ⟨w.output, w.reports, rfl⟩
  rw [run, hr]
  refine .bind hstart fun o r => ?_
  have hload := Config.load_yields (w := { w with output := o, reports := r }) hnull hdir hconfig
  simp only [hworkspace, hsettings, Text.present?, Option.map_none, Option.any_none,
    Option.getD_none, Bool.or_self, Bool.false_eq_true, if_false]
  refine .bind hload fun o r => ?_
  rw [hargs.read]
  -- Whether a log is kept does not matter for what the command does.
  have hlog : ∃ logging, World.Yields { w with output := o, reports := r }
      (keepsLog ⟨false, none, some c⟩ { root := w.directory } : On .sound Bool) logging w.tree :=
    ⟨_, o, r, rfl⟩
  obtain ⟨logging, hlog⟩ := hlog
  refine .bind hlog fun o r => ?_
  exact .bind (hcommand logging o r) fun _ _ => .pure _ _

/-! ## A workspace with two schemas -/

/-- The schemas of the workspace. -/
def schemaFiles : List Text := ["S.dbml".toList, "R.dbml".toList]

/-- The files that are written in it. -/
def writtenFiles : List Text :=
  ["snap.json".toList, "mid.dbml".toList, "one.dbml".toList, "two.dbml".toList]

/-- The directory `p`, at the address `a`, has no settings file, and has two schemas with the texts
    `s` and `r`. -/
structure IsWorkspace (t : FileTree) (p : Path) (a : Address) (s r : Text) : Prop where
  directory : t.LeadsTo p a
  resolved : Path.resolve p p = p
  bare : ∀ name ∈ Config.fileNames, p.Fits name ∧ t.entry? (a ++ [name]) = none
  fits : ∀ name ∈ schemaFiles ++ writtenFiles, p.Fits name
  free : ∀ name ∈ writtenFiles, t.entry? (a ++ [name]) ≠ some .directory
  source : ∃ content, t.entry? (a ++ ["S.dbml".toList]) = some (.file content) ∧
    Charset.Utf8.decode content = .ok s
  regenerated : ∃ content, t.entry? (a ++ ["R.dbml".toList]) = some (.file content) ∧
    Charset.Utf8.decode content = .ok r

namespace IsWorkspace

variable {p : Path} {a : Address} {s r name : Text}

/-- A file that is put into the workspace leaves the others as they are. -/
theorem entry?_insert_of_ne {other : Text} (hne : name ≠ other) (x : Entry) :
    FileTree.entry? (t.insert (a ++ [name]) x) (a ++ [other]) = t.entry? (a ++ [other]) := by
  rw [FileTree.entry?_insert _ (FileTree.concat_ne_nil a name), if_neg fun heq => hne ?_]
  exact List.singleton_inj.1 (List.append_cancel_left heq)

/-- The workspace stays one when a file is written. -/
theorem insert (h : IsWorkspace t p a s r) (hname : name ∈ writtenFiles)
    (content : Charset.Bytes) :
    IsWorkspace (t.insert (a ++ [name]) (.file content)) p a s r where
  directory := h.directory.insert (h.free name hname)
  resolved := h.resolved
  fits := h.fits
  -- None of the written files has the name of a settings file or of a schema.
  bare other hother := by
    have hne : ∀ name ∈ writtenFiles, ∀ other ∈ Config.fileNames, name ≠ other := by decide
    rw [entry?_insert_of_ne (hne name hname other hother)]
    exact h.bare other hother
  free other hother := by
    rw [FileTree.entry?_insert _ (FileTree.concat_ne_nil a name)]
    split
    · exact nofun
    · exact h.free other hother
  source := by
    have hne : ∀ name ∈ writtenFiles, name ≠ "S.dbml".toList := by decide
    rw [entry?_insert_of_ne (hne name hname)]
    exact h.source
  regenerated := by
    have hne : ∀ name ∈ writtenFiles, name ≠ "R.dbml".toList := by decide
    rw [entry?_insert_of_ne (hne name hname)]
    exact h.regenerated

variable {logging : Bool}

/-- Each file of the workspace is at a place where it can be read or written. -/
theorem spot (h : IsWorkspace t p a s r) (hname : name ∈ schemaFiles ++ writtenFiles) :
    Session.IsSpot ⟨p, { root := p }, logging⟩ t a name := by
  have hnames : ∀ name ∈ schemaFiles ++ writtenFiles,
      Path.ofText name = ⟨.relative, [name]⟩ ∧ name ≠ ['-'] ∧ name ≠ [] := by decide
  obtain ⟨hpath, hdash, hnil⟩ := hnames name hname
  refine ⟨h.directory, ?_, h.fits name hname, hdash, hnil⟩
  rw [Session.resolve, hpath]
  rfl

/-- The suffix of a file is that of its name, also after the name was resolved. -/
theorem suffix_resolve (h : IsWorkspace t p a s r) (hname : name ∈ schemaFiles ++ writtenFiles)
    (hsuffix : Path.suffix ⟨.relative, [name]⟩ = ".dbml".toList) :
    (Session.resolve ⟨p, { root := p }, logging⟩ name).suffix = ".dbml".toList := by
  have hlast : (p.child name).name = name := by
    rw [Path.name, Path.child, List.getLast?_concat]
    rfl
  rw [(h.spot hname).resolve, ← hsuffix, Path.suffix, Path.suffix, hlast]
  rfl

theorem hasText (h : IsWorkspace t p a s r) (hname : name ∈ schemaFiles ++ writtenFiles)
    {content : Charset.Bytes} {text : Text} (hfile : t.entry? (a ++ [name]) = some (.file content))
    (htext : Charset.Utf8.decode content = .ok text) :
    Session.HasText ⟨p, { root := p }, logging⟩ t name text :=
  (h.spot hname).hasText hfile htext

theorem hasSchema (h : IsWorkspace t p a s r) (hname : name ∈ schemaFiles ++ writtenFiles)
    (hsuffix : Path.suffix ⟨.relative, [name]⟩ = ".dbml".toList)
    {content : Charset.Bytes} {text : Text} (hfile : t.entry? (a ++ [name]) = some (.file content))
    (htext : Charset.Utf8.decode content = .ok text) :
    Session.HasSchema ⟨p, { root := p }, logging⟩ t name text :=
  ⟨h.suffix_resolve hname hsuffix, h.hasText hname hfile htext⟩

/-- The file `S.dbml` is the schema that is restored from. -/
theorem source_hasSchema (h : IsWorkspace t p a s r) :
    Session.HasSchema ⟨p, { root := p }, logging⟩ t "S.dbml".toList s := by
  obtain ⟨content, hfile, htext⟩ := h.source
  exact h.hasSchema (by decide) (by decide) hfile htext

/-- The file `R.dbml` is the regenerated schema. -/
theorem regenerated_hasSchema (h : IsWorkspace t p a s r) :
    Session.HasSchema ⟨p, { root := p }, logging⟩ t "R.dbml".toList r := by
  obtain ⟨content, hfile, htext⟩ := h.regenerated
  exact h.hasSchema (by decide) (by decide) hfile htext

/-- The tree with a file of the directory at `a` that holds a text. -/
def put (t : FileTree) (a : Address) (name text : Text) : FileTree :=
  t.insert (a ++ [name]) (.file (Charset.Utf8.encode text))

theorem entry?_put (t : FileTree) (a : Address) (name text : Text) :
    FileTree.entry? (put t a name text) (a ++ [name]) =
      some (.file (Charset.Utf8.encode text)) := by
  rw [put, FileTree.entry?_insert _ (FileTree.concat_ne_nil a name), if_pos rfl]

/-- A run whose command comes to a text for a file of the workspace leaves it there. -/
theorem run_writes (h : IsWorkspace w.tree w.directory a s r) {args : List Text} {c : Command}
    (hargs : AsksFor args c) (hname : name ∈ writtenFiles) {text : Text}
    (hprepare : ∀ logging (v : World), v.tree = w.tree →
      (c.prepare ⟨w.directory, { root := w.directory }, logging⟩ : Action (On .sound) _).Yields v
        (.output (.text text) (some name)) v.tree) :
    w.Yields (run args : On .sound Ending) (.exit 0) (put w.tree a name text) := by
  obtain ⟨hnull, -, -⟩ := (FileTree.locate_eq_ok_iff ..).1 h.directory.locate
  refine run_yields hargs hnull h.resolved (fun name hname => ?_) fun logging o r => ?_
  · obtain ⟨hfits, hentry⟩ := h.bare name hname
    rw [h.directory.at?_child hfits, hentry]
  · exact Command.runIn_yields (w := { w with output := o, reports := r }) rfl
      (hprepare logging _ rfl) (h.spot (List.mem_append_right _ hname)) (h.free name hname)

/-! ## The steps -/

/-- The first step writes the snapshot of the schema. -/
theorem run_extract (h : IsWorkspace w.tree w.directory a s r) :
    w.Yields (run (["extract", "S.dbml", "-o", "snap.json"].map String.toList) : On .sound Ending)
      (.exit 0) (put w.tree a "snap.json".toList (Snapshot.capture s).stored) := by
  have hargs : AsksFor (["extract", "S.dbml", "-o", "snap.json"].map String.toList)
      (.extract "S.dbml".toList (some "snap.json".toList) false) := ⟨rfl, _, rfl, rfl, rfl⟩
  refine h.run_writes hargs (by decide) fun logging v hv => ?_
  exact Session.prepareExtract_yields rfl (hv ▸ h.source_hasSchema) (by decide)

section

variable (h : IsWorkspace w.tree w.directory a s r) (hsnapshot : w.tree.entry?
  (a ++ ["snap.json".toList]) = some (.file (Charset.Utf8.encode (Snapshot.capture s).stored)))
include h hsnapshot

theorem hasSnapshot : Session.HasSnapshot ⟨w.directory, { root := w.directory }, logging⟩ w.tree
    "snap.json".toList ((Snapshot.capture s).map .text) :=
  ⟨_, h.hasText (by decide) hsnapshot (Charset.Utf8.decode_encode _),
    Snapshot.ofText_stored_capture s⟩

/-- The second step puts the tables into the order of the snapshot. -/
theorem run_reorder :
    w.Yields (run (["reorder", "R.dbml", "--snapshot", "snap.json", "-o", "mid.dbml"].map
        String.toList) : On .sound Ending) (.exit 0)
      (put w.tree a "mid.dbml".toList ((Snapshot.capture s).reorder r)) := by
  have hargs : AsksFor
      (["reorder", "R.dbml", "--snapshot", "snap.json", "-o", "mid.dbml"].map String.toList)
      (.reorder "R.dbml".toList (some "snap.json".toList) (some "mid.dbml".toList)) :=
    ⟨rfl, _, rfl, rfl, rfl⟩
  refine h.run_writes hargs (by decide) fun logging v hv => ?_
  refine Session.preparePutBack_yields rfl (hv ▸ h.hasSnapshot hsnapshot)
    (hv ▸ h.regenerated_hasSchema) fun v => ?_
  rw [← Snapshot.through_text]
  exact Session.reorder_yields ..

/-- The third step puts back the comments of the snapshot. -/
theorem run_merge {text : Text} (htext : w.tree.entry? (a ++ ["mid.dbml".toList]) =
    some (.file (Charset.Utf8.encode text))) :
    w.Yields (run (["merge", "mid.dbml", "--snapshot", "snap.json", "-o", "one.dbml"].map
        String.toList) : On .sound Ending) (.exit 0)
      (put w.tree a "one.dbml".toList ((Snapshot.capture s).merge text)) := by
  have hargs : AsksFor
      (["merge", "mid.dbml", "--snapshot", "snap.json", "-o", "one.dbml"].map String.toList)
      (.merge "mid.dbml".toList (some "snap.json".toList) (some "one.dbml".toList)) :=
    ⟨rfl, _, rfl, rfl, rfl⟩
  refine h.run_writes hargs (by decide) fun logging v hv => ?_
  refine Session.preparePutBack_yields rfl (hv ▸ h.hasSnapshot hsnapshot)
    (hv ▸ h.hasSchema (by decide) (by decide) htext (Charset.Utf8.decode_encode _)) fun v => ?_
  rw [← Snapshot.through_text]
  exact Session.merge_yields ..

end

/-- The one step that does all three writes the schema that is restored. -/
theorem run_restore (h : IsWorkspace w.tree w.directory a s r) :
    w.Yields (run (["restore", "S.dbml", "R.dbml", "-o", "two.dbml"].map String.toList) :
      On .sound Ending) (.exit 0) (put w.tree a "two.dbml".toList (preserve s r)) := by
  have hargs : AsksFor (["restore", "S.dbml", "R.dbml", "-o", "two.dbml"].map String.toList)
      (.restore "S.dbml".toList (some "R.dbml".toList) (some "two.dbml".toList) false) :=
    ⟨rfl, _, rfl, rfl, rfl⟩
  refine h.run_writes hargs (by decide) fun logging v hv => ?_
  exact Session.prepareRestore_yields rfl (hv ▸ h.source_hasSchema) (hv ▸ h.regenerated_hasSchema)

end IsWorkspace

/-- A start directory without steps up, in which nothing is found under the name of a settings file
    or of a file that the commands write, and the schemas can be read, is a workspace. -/
theorem exists_isWorkspace (w : World)
    (hdir : Path.resolve w.directory w.directory = w.directory)
    (hfree : ∀ name ∈ Config.fileNames ++ writtenFiles,
      w.tree.at? (w.directory.child name) = .ok none)
    {source regenerated : Charset.Bytes} {s r : Text}
    (hsource : w.tree.read (w.directory.child "S.dbml".toList) = .ok source)
    (hs : Charset.Utf8.decode source = .ok s)
    (hregenerated : w.tree.read (w.directory.child "R.dbml".toList) = .ok regenerated)
    (hr : Charset.Utf8.decode regenerated = .ok r) :
    ∃ a, IsWorkspace w.tree w.directory a s r := by
  have hroot : w.directory.root ≠ .relative := by
    rw [← hdir]
    exact nofun
  -- That a schema can be read tells where the directory is.
  obtain ⟨a, hleads, hfitsS, hfileS⟩ := FileTree.exists_leadsTo hroot (by decide) hsource
  obtain ⟨hfitsR, hfileR⟩ := hleads.of_read hroot (by decide) hregenerated
  have hnames : ∀ name ∈ Config.fileNames ++ writtenFiles,
      name ≠ Path.up ∧ name.contains '\x00' = false ∧ byteCount name ≤ nameLimit := by decide
  have hnone : ∀ name ∈ Config.fileNames ++ writtenFiles,
      w.directory.Fits name ∧ w.tree.entry? (a ++ [name]) = none := fun name hname => by
    obtain ⟨hup, hnull, hshort⟩ := hnames name hname
    exact hleads.of_at?_eq_none hup hnull hshort (hfree name hname)
  refine ⟨a, hleads, hdir, ?_, ?_, ?_, ⟨source, hfileS, hs⟩, ⟨regenerated, hfileR, hr⟩⟩
  · exact fun name hname => hnone name (List.mem_append_left _ hname)
  · intro name hname
    rcases List.mem_append.1 hname with hname | hname
    · rcases List.mem_cons.1 hname with rfl | hname
      · exact hfitsS
      · exact List.mem_singleton.1 hname ▸ hfitsR
    · exact (hnone name (List.mem_append_right _ hname)).1
  · intro name hname
    rw [(hnone name (List.mem_append_right _ hname)).2]
    exact nofun

/-- In a directory without a settings file, with two schemas in UTF-8 and no other file of the names
    below, extracting, reordering and merging succeed one after the other. The file that they leave
    has the bytes that restoring at once writes, from the same files or after the three steps. -/
theorem run_steps (w : World) (hdir : Path.resolve w.directory w.directory = w.directory)
    (hbare : ∀ name ∈ Config.fileNames, w.tree.at? (w.directory.child name) = .ok none)
    (hfree : ∀ name ∈ ["snap.json", "mid.dbml", "one.dbml", "two.dbml"].map String.toList,
      w.tree.at? (w.directory.child name) = .ok none)
    {source regenerated : Charset.Bytes} {s r : Text}
    (hsource : w.tree.read (w.directory.child "S.dbml".toList) = .ok source)
    (hs : Charset.Utf8.decode source = .ok s)
    (hregenerated : w.tree.read (w.directory.child "R.dbml".toList) = .ok regenerated)
    (hr : Charset.Utf8.decode regenerated = .ok r) :
    ∃ w₁ w₂ w₃ : World,
      w.call ["extract", "S.dbml", "-o", "snap.json"] = (.exit 0, w₁) ∧
      w₁.call ["reorder", "R.dbml", "--snapshot", "snap.json", "-o", "mid.dbml"] = (.exit 0, w₂) ∧
      w₂.call ["merge", "mid.dbml", "--snapshot", "snap.json", "-o", "one.dbml"] = (.exit 0, w₃) ∧
      ∃ bytes, w₃.tree.read (w.directory.child "one.dbml".toList) = .ok bytes ∧
        ∀ v ∈ [w, w₃], ∃ v' : World,
          v.call ["restore", "S.dbml", "R.dbml", "-o", "two.dbml"] = (.exit 0, v') ∧
          v'.tree.read (w.directory.child "two.dbml".toList) = .ok bytes := by
  obtain ⟨a, h⟩ := exists_isWorkspace w hdir (List.forall_mem_append.2 ⟨hbare, hfree⟩) hsource hs
    hregenerated hr
  -- After each step the workspace is still one, with what the step wrote.
  let t₁ := IsWorkspace.put w.tree a "snap.json".toList (Snapshot.capture s).stored
  let t₂ := IsWorkspace.put t₁ a "mid.dbml".toList ((Snapshot.capture s).reorder r)
  let t₃ := IsWorkspace.put t₂ a "one.dbml".toList (preserve s r)
  have h₁ : IsWorkspace t₁ w.directory a s r := h.insert (by decide) _
  have h₂ : IsWorkspace t₂ w.directory a s r := h₁.insert (by decide) _
  have h₃ : IsWorkspace t₃ w.directory a s r := h₂.insert (by decide) _
  have hsnapshot₁ : t₁.entry? (a ++ ["snap.json".toList]) =
      some (.file (Charset.Utf8.encode (Snapshot.capture s).stored)) := IsWorkspace.entry?_put ..
  have hsnapshot₂ : t₂.entry? (a ++ ["snap.json".toList]) =
      some (.file (Charset.Utf8.encode (Snapshot.capture s).stored)) :=
    (IsWorkspace.entry?_insert_of_ne (by decide) _).trans hsnapshot₁
  have hmid₂ : t₂.entry? (a ++ ["mid.dbml".toList]) =
      some (.file (Charset.Utf8.encode ((Snapshot.capture s).reorder r))) :=
    IsWorkspace.entry?_put ..
  obtain ⟨o₁, r₁, hrun₁⟩ := h.run_extract
  obtain ⟨o₂, r₂, hrun₂⟩ := IsWorkspace.run_reorder
    (w := { w with tree := t₁, output := o₁, reports := r₁ }) h₁ hsnapshot₁
  obtain ⟨o₃, r₃, hrun₃⟩ := IsWorkspace.run_merge
    (w := { w with tree := t₂, output := o₂, reports := r₂ }) h₂ hsnapshot₂ hmid₂
  have hread : ∀ {t : FileTree} {name : Text}, IsWorkspace t w.directory a s r →
      name ∈ writtenFiles →
        (IsWorkspace.put t a name (preserve s r)).read (w.directory.child name) =
          .ok (Charset.Utf8.encode (preserve s r)) := fun ht hname =>
    (ht.insert hname _).directory.read_child
      (ht.fits _ (List.mem_append_right _ hname)) (IsWorkspace.entry?_put ..)
  refine ⟨_, _, _, hrun₁, hrun₂, hrun₃, _, hread h₂ (by decide), fun v hv => ?_⟩
  rcases List.mem_cons.1 hv with rfl | hv
  · obtain ⟨o, r', hrun⟩ := h.run_restore
    exact ⟨_, hrun, hread h (by decide)⟩
  · obtain rfl := List.mem_singleton.1 hv
    obtain ⟨o, r', hrun⟩ := IsWorkspace.run_restore
      (w := { w with tree := t₃, output := o₃, reports := r₃ }) h₃
    exact ⟨_, hrun, hread h₃ (by decide)⟩

/-- The schemas hold carriage returns and characters of several bytes. -/
theorem run_steps_accents :
    let ofLines := fun ls : List String => Text.unlines (ls.map String.toList)
    let source := ofLines ["// \u00e9\r", "Table b \x7b", "  \"id\" int // \u2713", "\x7d",
      "Table a \x7b", "\x7d"]
    let regenerated := ofLines ["Table a \x7b", "\x7d", "Table b \x7b", "  \"id\" int", "\x7d", ""]
    let w : World := {
      tree := ⟨[(["w".toList], .directory),
        (["w".toList, "S.dbml".toList], .file (Charset.Utf8.encode source)),
        (["w".toList, "R.dbml".toList], .file (Charset.Utf8.encode regenerated))]⟩
      directory := ⟨.slash, ["w".toList]⟩ }
    ∃ w₁ w₂ w₃ : World,
      w.call ["extract", "S.dbml", "-o", "snap.json"] = (.exit 0, w₁) ∧
      w₁.call ["reorder", "R.dbml", "--snapshot", "snap.json", "-o", "mid.dbml"] = (.exit 0, w₂) ∧
      w₂.call ["merge", "mid.dbml", "--snapshot", "snap.json", "-o", "one.dbml"] = (.exit 0, w₃) ∧
      ∃ bytes, w₃.tree.read ⟨.slash, ["w".toList, "one.dbml".toList]⟩ = .ok bytes ∧
        ∀ v ∈ [w, w₃], ∃ v' : World,
          v.call ["restore", "S.dbml", "R.dbml", "-o", "two.dbml"] = (.exit 0, v') ∧
          v'.tree.read ⟨.slash, ["w".toList, "two.dbml".toList]⟩ = .ok bytes := by
  intro ofLines source regenerated w
  have hsource : w.tree.read (w.directory.child "S.dbml".toList) =
      .ok (Charset.Utf8.encode source) := rfl
  have hregenerated : w.tree.read (w.directory.child "R.dbml".toList) =
      .ok (Charset.Utf8.encode regenerated) := rfl
  exact run_steps w rfl (by decide) (by decide) hsource (Charset.Utf8.decode_encode _)
    hregenerated (Charset.Utf8.decode_encode _)

end Cli

end DbmlRestore
