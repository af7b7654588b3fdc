import DbmlRestore.Proofs.Cli.Writing
import DbmlRestore.Proofs.Config

/-!
# Runs that fail

A run that fails keeps all files, with one exception (`Cli.run_keeps_iff`): the file of the output is
emptied before the wording for it is encoded and stored. If that fails, then what the file held is
lost (`Command.Spoils`). So it is on every system, whatever codecs there are, and whatever goes wrong
with files.

Before its command, a run only reads: the settings, and the variables of the environment. So what it
does to the files is what the command does that its arguments ask for (`Cli.Performs`,
`Cli.run_cases`).
-/

namespace DbmlRestore

open World (Reads)

namespace Cli

/-! ## Ends of runs -/

section

variable (sys : System)

theorem isOn_reads (name : String) : Reads (isOn name : On sys Bool) fun _ => True :=
  (World.environment?_reads sys _).bind fun _ _ => .pure trivial

theorem keepsLog_reads (i : Invocation) (config : Config) :
    Reads (keepsLog i config : On sys Bool) fun _ => True :=
  (World.environment?_reads sys _).bind fun _ _ => .pure trivial

/-- A failure is not told as success. -/
theorem failed_reads (verbose : Bool) (f : Failure) :
    Reads (failed verbose f : On sys Ending) (· ≠ .exit 0) := by
  refine (isOn_reads sys _).bind fun debugging _ => (isOn_reads sys _).bind fun reraises _ => ?_
  split
  · exact .pure (by rintro ⟨⟩)
  · refine (isOn_reads sys _).bind fun verbose _ =>
      (World.report_reads sys _).bind fun _ _ => ?_
    exact .pure (by rintro ⟨⟩)

theorem refused_reads (r : Refusal) : Reads (refused r : On sys Ending) fun _ => True := by
  rw [refused]
  split
  · exact (World.print_reads sys _).bind fun _ _ => .pure trivial
  · exact (World.print_reads sys _).bind fun _ _ => .pure trivial
  · exact (World.report_reads sys _).bind fun _ _ => .pure trivial

theorem misconfigured_reads (verbose : Bool) (f : ConfigFault) (path : Path) :
    Reads (misconfigured verbose f path : On sys Ending) fun _ => True := by
  rw [misconfigured]
  split
  · exact (failed_reads sys _ _).mono fun _ _ => trivial
  · exact .pure trivial

end

/-! ## The command of a run -/

/-- How a run ends, and the world afterwards. -/
def outcome (sys : System) (w : World) (args : List Text) : Ending × World :=
  (run args : On sys Ending).run w

/-- The path that is given for an option, if any. -/
def Grammar.Reading.path? (r : Grammar.Reading) (key : String) : Option Path :=
  (Text.present? (r.value? key)).map .ofText

/-- In the world `w`, the arguments ask for the command `c`, and are not refused, nor are the
    settings. The session that the command is run in is `s`, and the world is then `v`. -/
def Performs (sys : System) (w : World) (args : List Text) (s : Session) (c : Command)
    (v : World) : Prop :=
  ∃ pre i u, Invocation.preliminary args = .ok pre ∧
    ((pre.path? "--workspace").any Path.hasNull || (pre.path? "--config").any Path.hasNull) =
      false ∧
    s.root = ((pre.path? "--workspace").map (Path.resolve w.directory)).getD w.directory ∧
    (Config.load w.directory s.root ((pre.path? "--config").map (Path.resolve w.directory)) :
      On sys _).run w = (.ok s.config, u) ∧
    Invocation.read args = .ok i ∧ i.command = some c ∧
    (keepsLog i s.config : On sys Bool).run u = (s.logging, v)

variable {sys : System} {w v : World} {args : List Text} {s : Session} {c : Command}

/-- The files are those of the start. -/
theorem Performs.tree_eq (h : Performs sys w args s c v) : v.tree = w.tree := by
  obtain ⟨pre, i, u, -, -, -, hload, -, -, hlog⟩ := h
  have hu := ((Config.load_reads sys _ _ _).of_run hload).1
  exact (hu.trans ((keepsLog_reads sys i s.config).of_run hlog).1).symm

/-- A run comes to its command, -/
theorem Performs.exists_outcome (h : Performs sys w args s c v) :
    ∃ verbose, outcome sys w args = (c.run (some s) verbose : On sys Ending).run v := by
  obtain ⟨pre, i, u, hpre, hnull, hroot, hload, hread, hcommand, hlog⟩ := h
  refine ⟨i.verbose, ?_⟩
  rw [Grammar.Reading.path?, Grammar.Reading.path?] at hnull
  rw [Grammar.Reading.path?] at hroot hload
  have hstart : (Host.startDirectory : On sys Path).run w = (w.directory, w) := rfl
  rw [outcome, run, hpre]
  dsimp only
  rw [On.run_bind, hstart]
  dsimp only
  rw [hnull, if_neg Bool.false_ne_true, ← hroot, On.run_bind, hload]
  dsimp only
  rw [hread]
  dsimp only
  rw [Invocation.run, On.run_bind, hlog, hcommand]

/-- or only reads. -/
theorem run_cases (sys : System) (w : World) (args : List Text) :
    (∃ s c v, Performs sys w args s c v) ∨ (outcome sys w args).2.tree = w.tree := by
  rw [outcome, run]
  -- Up to the command, each step reads: the options, the settings, and then the options again.
  cases hpre : Invocation.preliminary args with
  | error r => exact .inr (refused_reads sys r w).1.symm
  | ok pre =>
    have hstart : (Host.startDirectory : On sys Path).run w = (w.directory, w) := rfl
    dsimp only
    rw [On.run_bind, hstart]
    dsimp only
    split
    · exact .inr rfl
    · next hnull =>
      rw [On.run_bind]
      rcases hload : (Config.load w.directory _ _ : On sys _).run w with ⟨r, u⟩
      dsimp only
      rw [((Config.load_reads sys _ _ _).of_run hload).1]
      cases r with
      | error fault => exact .inr (misconfigured_reads sys _ fault.1 fault.2 u).1.symm
      | ok config =>
        dsimp only
        cases hread : Invocation.read args with
        | error r => exact .inr (refused_reads sys r u).1.symm
        | ok i =>
          rcases hlog : (keepsLog i config : On sys Bool).run u with ⟨logging, v⟩
          cases hcommand : i.command with
          | some c =>
            exact .inl ⟨⟨_, config, logging⟩, c, v, pre, i, u, hpre, Bool.eq_false_iff.2 hnull, rfl,
              hload, hread, hcommand, hlog⟩
          | none =>
            have hv := ((keepsLog_reads sys i config).of_run hlog).1
            right
            dsimp only
            rw [Invocation.run, On.run_bind, hlog, hcommand]
            exact hv.symm

/-! ## What a run leaves -/

/-- A command with a session fails as its action does. -/
theorem Command.run_some (c : Command) (s : Session) (verbose : Bool) (v : World) :
    (c.run (some s) verbose : On sys Ending).run v =
      match (c.runIn s : Action (On sys) Nat).run.run v with
      | (.ok status, u) => (.exit status, u)
      | (.error f, u) => (failed verbose f : On sys Ending).run u := by
  rw [Command.run, On.run_bind]
  rcases (c.runIn s : Action (On sys) Nat).run.run v with ⟨r, u⟩
  cases r <;> rfl

/-- A file that the command of a run spoils is lost. -/
theorem Performs.not_keeps (h : Performs sys w args s c v) (hspoils : c.Spoils sys s v) :
    ¬ w.tree.Keeps (outcome sys w args).2.tree := by
  obtain ⟨verbose, hrun⟩ := h.exists_outcome
  obtain ⟨e, u, hcommand, hlost⟩ := hspoils.run_runIn
  rw [hrun, c.run_some, hcommand, ← (failed_reads sys verbose e u).1]
  exact h.tree_eq ▸ hlost

/-- A run that spoils no file keeps all of them if it fails. -/
theorem keeps_of_forall_not_spoils (hfail : (outcome sys w args).1 ≠ .exit 0)
    (h : ∀ s c v, Performs sys w args s c v → ¬ c.Spoils sys s v) :
    w.tree.Keeps (outcome sys w args).2.tree := by
  rcases run_cases sys w args with ⟨s, c, v, hperforms⟩ | htree
  · obtain ⟨verbose, hrun⟩ := hperforms.exists_outcome
    have hkeeps := Command.keeps_of_not_spoils (h s c v hperforms)
    rcases hcommand : (c.runIn s : Action (On sys) Nat).run.run v with ⟨r, u⟩
    rw [hcommand, hperforms.tree_eq] at hkeeps
    rw [hrun, c.run_some, hcommand] at hfail ⊢
    cases r with
    | ok status => exact hkeeps fun heq => hfail (congrArg Ending.exit (Except.ok.inj heq))
    | error f =>
      rw [← (failed_reads sys verbose f u).1]
      exact hkeeps (by rintro ⟨⟩)
  · rw [htree]
    exact .refl _

/-- A run that ends with another status than zero, or with a failure that is handed on, keeps every
    file with its content, unless its command spoils a file: it has come to a wording for its output,
    which is there and has been emptied, and the wording cannot be encoded by the codec of the
    settings, or not be stored by the system, and something else is left than what was there. -/
theorem run_keeps_iff (sys : System) (w : World) (args : List Text)
    (hfail : (outcome sys w args).1 ≠ .exit 0) :
    w.tree.Keeps (outcome sys w args).2.tree ↔
      ¬ ∃ s c v, Performs sys w args s c v ∧ c.Spoils sys s v := by
  constructor
  · rintro hkeeps ⟨s, c, v, hperforms, hspoils⟩
    exact hperforms.not_keeps hspoils hkeeps
  · exact fun hno => keeps_of_forall_not_spoils hfail fun s c v hperforms hspoils =>
      hno ⟨s, c, v, hperforms, hspoils⟩

/-- The text of a comment has half of a surrogate pair, which is in no charset. -/
theorem exists_spoils_of_half :
    let bytes := fun t : String => Entry.file (Charset.Utf8.encode t.toList)
    let w : World := {
      tree := ⟨[(["w".toList], .directory),
        (["w".toList, "R.dbml".toList], bytes "Table a \x7b\n\x7d\n"),
        (["w".toList, "snap.json".toList], bytes
          "\x7b\"comments\": [\x7b\"type\": \"header\", \"text\": \"// \\ud83d\"\x7d]\x7d"),
        (["w".toList, "out.dbml".toList], bytes "Table a \x7b\n\x7d\n")]⟩
      directory := ⟨.slash, ["w".toList]⟩ }
    let args := ["merge", "R.dbml", "--snapshot", "snap.json", "-o", "out.dbml"].map String.toList
    (outcome .sound w args).1 ≠ .exit 0 ∧ ¬ w.tree.Keeps (outcome .sound w args).2.tree ∧
      ∃ s c v, Performs .sound w args s c v ∧ c.Spoils .sound s v := by
  intro bytes w args
  obtain ⟨hfail, hlost⟩ : (outcome .sound w args).1 ≠ .exit 0 ∧
      ¬ w.tree.Keeps (outcome .sound w args).2.tree := by
    decide +kernel
  exact ⟨hfail, hlost, not_not.1 (mt (run_keeps_iff .sound w args hfail).2 hlost)⟩

/-- In ASCII, a comment with an accent is not found to be too much before the output is emptied. -/
theorem not_forall_keeps :
    ¬ ∀ (w : World) (args : List Text), (outcome .sound w args).1 ≠ .exit 0 →
      w.tree.Keeps (outcome .sound w args).2.tree := by
  intro h
  let bytes := fun t : String => Entry.file (Charset.Utf8.encode t.toList)
  let w : World := {
    tree := ⟨[(["w".toList], .directory),
      (["w".toList, ".dbmlkeeprc".toList], bytes
        "\x7b\"defaults\": \x7b\"encoding\": \"ascii\"\x7d\x7d"),
      (["w".toList, "R.dbml".toList], bytes "Table a \x7b\n\x7d\n"),
      (["w".toList, "snap.json".toList], bytes
        "\x7b\"comments\": [\x7b\"type\": \"header\", \"text\": \"// \\u00e9\"\x7d]\x7d"),
      (["w".toList, "out.dbml".toList], bytes "Table a \x7b\n\x7d\n")]⟩
    directory := ⟨.slash, ["w".toList]⟩ }
  let args := ["merge", "R.dbml", "--snapshot", "snap.json", "-o", "out.dbml"].map String.toList
  obtain ⟨hfail, hlost⟩ : (outcome .sound w args).1 ≠ .exit 0 ∧
      ¬ w.tree.Keeps (outcome .sound w args).2.tree := by
    decide +kernel
  exact hlost (h w args hfail)

end Cli

end DbmlRestore
