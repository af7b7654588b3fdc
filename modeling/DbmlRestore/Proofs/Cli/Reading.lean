import DbmlRestore.Proofs.Cli.Command

/-!
# Actions that read

All that a command does before it writes leaves the files as they are (`Action.Reads`): it reads
files, tells what it finds, or works on texts. Such an action followed by another one, whatever the
result of the first, is one again (`Action.Reads.bind`).

What is read was decoded by the codec of the settings (`Session.Decodes`), so that there is one. What
a command comes to is made of that (`Command.Makes`, `Command.prepare_reads`).
-/

namespace DbmlRestore

namespace Cli

variable {sys : System}

/-- In every world, the action leaves the files as they are, and its result, if there is one, is as
    `Q` says. -/
abbrev Action.Reads {α : Type} (x : Action (On sys) α) (Q : α → Prop) : Prop :=
  World.Reads x.run fun r => ∀ a, r = .ok a → Q a

namespace Action.Reads

variable {α β : Type} {x : Action (On sys) α} {f : α → Action (On sys) β} {Q : α → Prop}
  {P : β → Prop} {a : α}

theorem pure (h : Q a) : Action.Reads (Pure.pure a : Action (On sys) α) Q :=
  World.Within.pure fun _ heq => Except.ok.inj heq ▸ h

theorem throw (e : Failure) : Action.Reads (MonadExcept.throw e : Action (On sys) α) Q :=
  World.Within.pure (by rintro _ ⟨⟩)

theorem lift {x : On sys α} (hx : World.Reads x Q) : Action.Reads (ExceptT.lift x) Q :=
  fun w => ⟨(hx w).1, fun _ heq => Except.ok.inj heq ▸ (hx w).2⟩

/-- Actions that read can be taken one after the other. -/
theorem bind (hx : x.Reads Q) (hf : ∀ a, Q a → (f a).Reads P) : Action.Reads (x >>= f) P := by
  refine World.Within.bind (f := ExceptT.bindCont f) hx fun r hr => ?_
  cases r with
  | ok a => exact hf a (hr a rfl)
  | error e => exact .pure (by rintro _ ⟨⟩)

/-- A check before the action, which may fail. -/
theorem check {c : Prop} [Decidable c] (e : Failure) (hx : x.Reads Q) :
    Action.Reads (if c then (do MonadExcept.throw e; x) else x) Q := by
  split
  · have hthrow : Action.Reads (MonadExcept.throw e : Action (On sys) PUnit) fun _ => True :=
      .throw e
    exact hthrow.bind fun _ _ => hx
  · exact hx

/-- An action with a known result, which leaves the files as they are. -/
theorem of_yields (h : ∀ w : World, x.Yields w a w.tree) (ha : Q a) : x.Reads Q := fun w => by
  obtain ⟨output, reports, h⟩ := h w
  rw [h]
  exact ⟨rfl, fun _ heq => Except.ok.inj heq ▸ ha⟩

end Action.Reads

theorem printGrid_reads (title : Text) (columns : List Grid.Column) :
    Action.Reads (printGrid title columns : Action (On sys) Unit) fun _ => True := by
  rw [printGrid]
  split
  · exact .lift (World.print_reads sys _)
  · exact .throw _

namespace Session

variable (sys) (s : Session)

/-- Logging leaves the files as they are. -/
theorem log_reads (source : String) (message : Text) :
    (s.log source message : Action (On sys) Unit).Reads fun _ => True :=
  .of_yields (s.log_yields sys source message) trivial

/-! ## Reading -/

theorem isFile_reads (p : Path) : (isFile p : Action (On sys) Bool).Reads fun _ => True := by
  refine .bind (.lift (World.isFile_reads sys p)) fun r _ => ?_
  split
  · exact .pure trivial
  · exact .throw _

/-- The codec of the settings is there, and decodes some bytes as the wording. -/
def Decodes (w : Wording) : Prop :=
  ∃ c bytes, sys.codecs s.config.defaults.encoding = .ok c ∧ c.decode bytes = .ok w

/-- The codec is the one that the system knows under the name in the settings. -/
theorem codec_reads : (s.codec : Action (On sys) Codec).Reads fun c =>
    sys.codecs s.config.defaults.encoding = .ok c := by
  rw [codec]
  refine .bind (.lift (World.codec_reads sys _)) fun r hr => ?_
  split
  · exact .throw _
  · exact .pure hr.symm

/-- The codec of the settings has decoded what is read. -/
theorem readText_reads (p : Path) :
    (s.readText p : Action (On sys) Wording).Reads (s.Decodes sys) := by
  rw [readText]
  refine .bind (.lift (World.read_reads sys p)) fun r _ => ?_
  split
  · exact .throw _
  · next bytes =>
    refine (s.codec_reads sys).bind fun c hc => ?_
    split
    · exact .throw _
    · next hdecode => exact .pure ⟨c, bytes, hc, hdecode⟩

/-- The schema that is read was decoded. -/
theorem readSchema_reads (file : Text) (strict : Bool) :
    (s.readSchema file strict : Action (On sys) Wording).Reads (s.Decodes sys) := by
  rw [readSchema]
  refine (isFile_reads sys _).bind fun b _ => ?_
  exact .check _ (.check _ (s.readText_reads sys _))

/-- The snapshot is written by a wording that the codec of the settings decodes. -/
def DecodesSnapshot (snapshot : Snapshot Wording) : Prop :=
  ∃ w, s.Decodes sys w ∧ Snapshot.ofWording w = .ok snapshot

/-- The snapshot that is read is in a file that was decoded. -/
theorem readSnapshot_reads (file : Text) :
    (s.readSnapshot file : Action (On sys) _).Reads (s.DecodesSnapshot sys) := by
  rw [readSnapshot]
  refine (isFile_reads sys _).bind fun b _ => .check _ ?_
  refine (s.readText_reads sys _).bind fun w hw => ?_
  split
  · exact .throw _
  · next hsnapshot => exact (s.log_reads sys _ _).bind fun _ _ => .pure ⟨w, hw, hsnapshot⟩

/-- So was the snapshot, which is refused if its option was left out. -/
theorem readGivenSnapshot_reads (file : Option Text) :
    (s.readGivenSnapshot file : Action (On sys) _).Reads (s.DecodesSnapshot sys) := by
  cases file with
  | none => exact .throw _
  | some file => exact s.readSnapshot_reads sys file

end Session

/-! ## What commands come to -/

/-- What the command may write: it is made of a schema, or of two, or of a schema and a snapshot,
    that the codec of the settings decodes. -/
inductive Command.Makes (sys : System) (s : Session) : Command → Wording → Prop
  /-- The text of the snapshot of a schema. -/
  | extract {source : Text} {output : Option Text} {schema : Wording} (h : s.Decodes sys schema) :
    Makes sys s (.extract source output false)
      (.text ((Snapshot.captureWording schema).toText (.spaces 2) ++ ['\n']))
  /-- A schema in the order of a snapshot. -/
  | reorder {regenerated : Text} {file output : Option Text} {snapshot : Snapshot Wording}
    {schema : Wording} (hsnapshot : s.DecodesSnapshot sys snapshot) (h : s.Decodes sys schema) :
    Makes sys s (.reorder regenerated file output) (snapshot.through Snapshot.reorder schema)
  /-- A schema with the comments of a snapshot. -/
  | merge {regenerated : Text} {file output : Option Text} {snapshot : Snapshot Wording}
    {schema : Wording} (hsnapshot : s.DecodesSnapshot sys snapshot) (h : s.Decodes sys schema) :
    Makes sys s (.merge regenerated file output) (snapshot.through Snapshot.merge schema)
  /-- A schema with the order and the comments of another one. -/
  | restore {source : Text} {regenerated output : Option Text} {original schema : Wording}
    (horiginal : s.Decodes sys original) (h : s.Decodes sys schema) :
    Makes sys s (.restore source regenerated output false)
      ((Snapshot.captureWording original).through Snapshot.merge
        ((Snapshot.captureWording original).through Snapshot.reorder schema))

/-- A command that makes a wording has looked up its codec, even where it is the text of a snapshot.
    -/
theorem Command.Makes.exists_codec {s : Session} {c : Command} {w : Wording}
    (h : c.Makes sys s w) : ∃ codec, sys.codecs s.config.defaults.encoding = .ok codec := by
  cases h with
  | extract h => exact ⟨_, h.choose_spec.choose_spec.1⟩
  | reorder _ h => exact ⟨_, h.choose_spec.choose_spec.1⟩
  | merge _ h => exact ⟨_, h.choose_spec.choose_spec.1⟩
  | restore _ h => exact ⟨_, h.choose_spec.choose_spec.1⟩

/-- If there is a wording for an output, then it is as `Q` says. -/
def Outcome.Gives (Q : Wording → Prop) (o : Outcome) : Prop :=
  ∀ wording output, o = .output wording output → Q wording

theorem Outcome.gives_done {Q : Wording → Prop} (status : Nat) : (done status).Gives Q :=
  fun _ _ => nofun

theorem Outcome.gives_output {Q : Wording → Prop} {w : Wording} (h : Q w) (file : Option Text) :
    (output w file).Gives Q := by
  rintro _ _ ⟨⟩
  exact h

open Outcome (gives_done gives_output)

namespace Session

variable (sys) (s : Session)

/-- `extract` only writes the text of the snapshot that it has captured. -/
theorem prepareExtract_reads (source : Text) (output : Option Text) (asTables : Bool) :
    (s.prepareExtract source output asTables : Action (On sys) Outcome).Reads
      (Outcome.Gives ((Command.extract source output asTables).Makes sys s)) := by
  rw [prepareExtract]
  refine (s.readSchema_reads sys source true).bind fun schema hschema => ?_
  have hcapture : (s.capture schema : Action (On sys) _).Reads (· = Snapshot.captureWording schema) :=
    .of_yields (s.capture_yields schema) rfl
  refine hcapture.bind fun snapshot hsnapshot => ?_
  obtain rfl := hsnapshot
  cases asTables with
  | true =>
    rw [if_pos rfl]
    refine (printGrid_reads _ _).bind fun _ _ => (printGrid_reads _ _).bind fun _ _ => ?_
    exact .pure (gives_done 0)
  | false =>
    rw [if_neg Bool.false_ne_true]
    dsimp only
    split
    · split
      · exact .pure (gives_output (.extract hschema) _)
      · exact .throw _
    · exact .pure (gives_output (.extract hschema) _)

/-- The lines of the blocks are printed, and written nowhere. -/
theorem prepareBlocks_reads (file : Text) (includeOther : Bool) {Q : Wording → Prop} :
    (s.prepareBlocks file includeOther : Action (On sys) Outcome).Reads (Outcome.Gives Q) := by
  rw [prepareBlocks]
  refine (s.readSchema_reads sys file false).bind fun schema _ => ?_
  have hpartition : (s.partition schema.visible : Action (On sys) _).Reads fun _ => True :=
    .of_yields (s.partition_yields · _) trivial
  refine hpartition.bind fun blocks _ => (printGrid_reads _ _).bind fun _ _ => ?_
  exact .bind (.lift (World.print_reads sys _)) fun _ _ => .pure (gives_done 0)

/-- What is put back comes from a snapshot file and a schema file that were read. -/
theorem preparePutBack_reads {f : Snapshot → Text → Text}
    {back : Snapshot Wording → Wording → Action (On sys) Wording}
    (hback : ∀ snapshot schema (w : World),
      (back snapshot schema).Yields w (snapshot.through f schema) w.tree)
    (regenerated : Text) (file output : Option Text) {Q : Wording → Prop}
    (hQ : ∀ snapshot schema, s.DecodesSnapshot sys snapshot → s.Decodes sys schema →
      Q (snapshot.through f schema)) :
    (s.preparePutBack back regenerated file output).Reads (Outcome.Gives Q) := by
  rw [preparePutBack]
  refine (s.readGivenSnapshot_reads sys file).bind fun snapshot hsnapshot => ?_
  refine (s.readSchema_reads sys regenerated true).bind fun schema hschema => ?_
  refine .bind (.of_yields (hback snapshot schema) (hQ snapshot schema hsnapshot hschema))
    fun w hw => ?_
  exact .pure (gives_output hw _)

theorem tellChange_reads (source regenerated : Text) (changed : Bool) :
    (tellChange source regenerated changed : Action (On sys) Nat).Reads fun _ => True := by
  rw [tellChange]
  split
  · exact .bind (.lift (World.print_reads sys _)) fun _ _ => .pure trivial
  · exact .bind (.lift (World.print_reads sys _)) fun _ _ => .pure trivial

/-- `restore` only writes what it has made of two schemas, and nothing if it checks. -/
theorem prepareRestore_reads (source : Text) (regenerated output : Option Text) (check : Bool) :
    (s.prepareRestore source regenerated output check : Action (On sys) Outcome).Reads
      (Outcome.Gives ((Command.restore source regenerated output check).Makes sys s)) := by
  rw [prepareRestore]
  dsimp only
  refine .check _ ?_
  refine (s.readSchema_reads sys source true).bind fun original horiginal => ?_
  have hcapture : (s.capture original : Action (On sys) _).Reads
      (· = Snapshot.captureWording original) := .of_yields (s.capture_yields original) rfl
  refine hcapture.bind fun snapshot hsnapshot => ?_
  obtain rfl := hsnapshot
  split
  · exact .throw _
  · refine (s.readSchema_reads sys _ true).bind fun schema hschema => ?_
    have hrestore : (s.restore (Snapshot.captureWording original) schema : Action (On sys) _).Reads
        (· = _) := .of_yields (s.restore_yields _ schema) rfl
    refine hrestore.bind fun restored hrestored => ?_
    obtain rfl := hrestored
    cases check with
    | true => exact (tellChange_reads sys _ _ _).bind fun _ _ => .pure (gives_done _)
    | false =>
      rw [if_neg Bool.false_ne_true]
      refine (s.log_reads sys _ _).bind fun _ _ => ?_
      exact .pure (gives_output (.restore horiginal hschema) _)

end Session

/-- Before it writes, a command leaves the files as they are. -/
theorem Command.prepare_reads (sys : System) (s : Session) (c : Command) :
    (c.prepare s : Action (On sys) Outcome).Reads (Outcome.Gives (c.Makes sys s)) := by
  cases c with
  | extract source output asTables => exact s.prepareExtract_reads sys source output asTables
  | blocks file includeOther => exact s.prepareBlocks_reads sys file includeOther
  | reorder regenerated file output =>
    exact s.preparePutBack_reads sys s.reorder_yields regenerated file output
      fun _ _ hsnapshot hschema => .reorder hsnapshot hschema
  | merge regenerated file output =>
    exact s.preparePutBack_reads sys s.merge_yields regenerated file output
      fun _ _ hsnapshot hschema => .merge hsnapshot hschema
  | restore source regenerated output check =>
    exact s.prepareRestore_reads sys source regenerated output check

end Cli

end DbmlRestore
