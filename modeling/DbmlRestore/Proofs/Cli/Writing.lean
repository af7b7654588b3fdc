import DbmlRestore.Proofs.Cli.Reading

/-!
# Files that are spoilt

A command writes at the end of its work, if at all. It makes the directories of its output, which
leaves all files as they are, takes the content from the file, and then stores what it has come to.
If that cannot be encoded, or not be stored, then the file is left empty or with a part of it
(`Session.Leaves`): a file that had another content is spoilt (`Session.Spoils`). In all other cases
in which writing fails, all files are kept (`Session.keeps_of_not_spoils`), and so they are when a
command fails (`Command.Spoils`, `Command.keeps_of_not_spoils`).
-/

namespace DbmlRestore

namespace Cli

variable {sys : System}

/-! ## Actions in one world -/

namespace Action

variable {α β : Type} {x : Action (On sys) α} {f : α → Action (On sys) β} {w v : World} {a : α}
  {e : Failure}

theorem run_lift (x : On sys α) (w : World) :
    (ExceptT.lift x : Action (On sys) α).run.run w = (.ok (x.run w).1, (x.run w).2) := rfl

/-- After an action that gives a result, the next one counts, -/
theorem run_bind_ok (hx : x.run.run w = (.ok a, v)) : (x >>= f).run.run w = (f a).run.run v := by
  show (ExceptT.bindCont f (x.run.run w).1).run (x.run.run w).2 = _
  rw [hx]
  rfl

/-- and after one that fails, nothing is done. -/
theorem run_bind_error (hx : x.run.run w = (.error e, v)) :
    (x >>= f).run.run w = (.error e, v) := by
  show (ExceptT.bindCont f (x.run.run w).1).run (x.run.run w).2 = _
  rw [hx]
  rfl

theorem run_codec (s : Session) {c : Codec} (hc : sys.codecs s.config.defaults.encoding = .ok c)
    (w : World) : (s.codec : Action (On sys) Codec).run.run w = (.ok c, w) := by
  rw [Session.codec, run_bind_ok (v := w) (a := .ok c) (by rw [← hc]; rfl)]
  rfl

end Action

open DbmlRestore.Cli.Action (run_lift run_bind_ok run_bind_error run_codec)

namespace Session

variable {s : Session} {w v : World} {p : Path} {wording : Wording}

/-! ## Storing -/

/-- What is left in an empty file that a wording cannot be stored in: nothing if the codec of the
    settings cannot encode it, and a part of its bytes if the system breaks off. -/
inductive Leaves (sys : System) (s : Session) (v : World) (p : Path) (wording : Wording) :
    Charset.Bytes → Prop
  /-- The wording cannot be encoded. -/
  | unencoded {c : Codec} {fault : Codec.Fault}
    (hc : sys.codecs s.config.defaults.encoding = .ok c) (hencode : c.encode wording = .error fault) :
    Leaves sys s v p wording []
  /-- The bytes cannot be stored. -/
  | brokenOff {c : Codec} {bytes : Charset.Bytes} {count : Nat} {fault : SystemFault}
    (hc : sys.codecs s.config.defaults.encoding = .ok c) (hencode : c.encode wording = .ok bytes)
    (hbreaks : sys.breaksOff v p bytes = some (count, fault)) :
    Leaves sys s v p wording (bytes.take count)

section

variable {t : FileTree} {l : Address} (hl : t.locate p = .ok l)
  (hfree : t.entry? l ≠ some .directory)

include hl hfree in
/-- The file was emptied, and has what is left of the wording when storing it has failed. -/
theorem Leaves.run_fill {left : Charset.Bytes} (h : s.Leaves sys v p wording left)
    (hv : v.tree = t.insert l (.file [])) :
    ∃ e u, (s.fill p wording : Action (On sys) Unit).run.run v = (.error e, u) ∧
      u.tree = t.insert l (.file left) := by
  cases h with
  | @unencoded c fault hc hencode =>
    refine ⟨codecFailure fault, v, ?_, hv⟩
    rw [fill, run_bind_ok (run_codec s hc v), hencode]
    rfl
  | @brokenOff c bytes count fault hc hencode hbreaks =>
    have hstore : (Host.store p bytes : Action (On sys) _).run.run v =
        (.ok (.error ⟨fault, p⟩), { v with tree := t.insert l (.file (bytes.take count)) }) := by
      have hchange := World.change_eq_ok (w := v) (f := (·.write p (bytes.take count)))
        (hv ▸ FileTree.write_insert hl hfree [] (bytes.take count))
      refine (run_lift (Host.store p bytes : On sys _) v).trans ?_
      rw [World.run_store_of_some hbreaks, hchange]
    rw [fill, run_bind_ok (run_codec s hc v), hencode]
    exact ⟨_, _, run_bind_ok hstore, rfl⟩

include hl hfree in
/-- Storing succeeds, or something is left. -/
theorem run_fill_cases {c : Codec} (hc : sys.codecs s.config.defaults.encoding = .ok c)
    (wording : Wording) (hv : v.tree = t.insert l (.file [])) :
    ((s.fill p wording : Action (On sys) Unit).run.run v).1 = .ok () ∨
      ∃ left, s.Leaves sys v p wording left := by
  cases hencode : c.encode wording with
  -- The codec cannot encode the wording, so that the file is left empty.
  | error fault => exact .inr ⟨[], .unencoded hc hencode⟩
  | ok bytes =>
    cases hbreaks : sys.breaksOff v p bytes with
    -- The device breaks off, so that the file is left with the first bytes.
    | some r => exact .inr ⟨_, .brokenOff hc hencode hbreaks⟩
    | none =>
      -- The file gets its whole content, and only a line for the log is left to be written.
      have hstore : (Host.store p bytes : Action (On sys) _).run.run v =
          (.ok (.ok ()), { v with tree := t.insert l (.file bytes) }) := by
        have hchange := World.change_eq_ok (w := v) (f := (·.write p bytes))
          (hv ▸ FileTree.write_insert hl hfree [] bytes)
        refine (run_lift (Host.store p bytes : On sys _) v).trans ?_
        rw [World.run_store_of_none hbreaks, hchange]
      obtain ⟨output, reports, hlog⟩ := s.log_yields sys "dbmlkeep.cli.context"
        ("Wrote ".toList ++ p.toText) { v with tree := t.insert l (.file bytes) }
      left
      rw [fill, run_bind_ok (run_codec s hc v), hencode]
      dsimp only
      rw [run_bind_ok hstore]
      exact congrArg Prod.fst hlog

end

/-! ## Writing -/

/-- A file is emptied, or all is left as it is. -/
theorem run_empty_cases (sys : System) (p : Path) (w : World) :
    (∃ e, (Host.empty p : On sys _).run w = (.error e, w)) ∨
      ∃ l, w.tree.locate p = .ok l ∧ w.tree.entry? l ≠ some .directory ∧
        (Host.empty p : On sys _).run w =
          (.ok (), { w with tree := w.tree.insert l (.file []) }) := by
  cases hrefuses : sys.refuses w .empty p with
  | some fault => exact .inl ⟨_, World.run_unlessRefused_of_some hrefuses⟩
  | none =>
    have hrun : (Host.empty p : On sys _).run w = w.change (·.write p []) :=
      World.run_unlessRefused_of_none hrefuses
    rw [hrun]
    cases hwrite : w.tree.write p [] with
    | error e => exact .inl ⟨e, World.change_eq_error (f := (·.write p [])) hwrite⟩
    | ok t =>
      obtain ⟨l, hl, hfree, rfl⟩ := FileTree.write_eq_ok_iff.1 hwrite
      exact .inr ⟨l, hl, hfree, World.change_eq_ok (f := (·.write p [])) hwrite⟩

/-- When the wording is written in the world `w`, the file at `p` is there once its directories are
    made, its content is taken from it, and something else is left. -/
def Spoils (sys : System) (s : Session) (w : World) (p : Path) (wording : Wording) : Prop :=
  ∃ u v old left, (Host.makeDirectories p.parent : On sys _).run w = (.ok (), u) ∧
    u.tree.read p = .ok old ∧ (Host.empty p : On sys _).run u = (.ok (), v) ∧
    s.Leaves sys v p wording left ∧ left ≠ old

section

variable {u : World} (hmake : (Host.makeDirectories p.parent : On sys _).run w = (.ok (), u))
include hmake

theorem run_makeDirectories :
    (ExceptT.lift (Host.makeDirectories p.parent) : Action (On sys) _).run.run w =
      (.ok (.ok ()), u) := by
  rw [run_lift, hmake]

/-- Once the directories are made and the file is emptied, the wording is stored. -/
theorem run_writeFile (hempty : (Host.empty p : On sys _).run u = (.ok (), v))
    (wording : Wording) : (s.writeFile p wording : Action (On sys) Unit).run.run w =
      (s.fill p wording : Action (On sys) Unit).run.run v := by
  have hempty : (Host.empty p : Action (On sys) _).run.run u = (.ok (.ok ()), v) :=
    (run_lift (Host.empty p : On sys _) u).trans (by rw [hempty])
  rw [writeFile]
  refine (run_bind_ok (run_makeDirectories hmake)).trans ?_
  exact run_bind_ok hempty

end

/-- Other files are kept when one is emptied, and this one if it had what is left. -/
theorem keeps_insert_iff_of_made {u : World} {l : Address} {left : Charset.Bytes}
    (hsame : w.tree.SameFiles u.tree) (hfree : u.tree.entry? l ≠ some .directory) :
    w.tree.Keeps (u.tree.insert l (.file left)) ↔
      ∀ old, u.tree.entry? l = some (.file old) → left = old := by
  rw [← FileTree.keeps_insert_iff hfree]
  exact ⟨fun h l' old hold => h l' old ((hsame l' old).2 hold),
    fun h l' old hold => h l' old ((hsame l' old).1 hold)⟩

/-- A file that is spoilt is lost, and it is told that writing failed. -/
theorem Spoils.run_writeFile (h : s.Spoils sys w p wording) :
    ∃ e u, (s.writeFile p wording : Action (On sys) Unit).run.run w = (.error e, u) ∧
      ¬ w.tree.Keeps u.tree := by
  obtain ⟨u, v, old, left, hmake, hread, hempty, hleaves, hne⟩ := h
  obtain ⟨l, hl, hfile⟩ := FileTree.read_eq_ok_iff.1 hread
  rcases run_empty_cases sys p u with ⟨e, herror⟩ | ⟨l', hl', hfree, hok⟩
  · cases herror.symm.trans hempty
  · obtain rfl := Except.ok.inj (hl.symm.trans hl')
    obtain rfl := (Prod.mk.inj (hok.symm.trans hempty)).2
    obtain ⟨e, u', hfill, htree⟩ := hleaves.run_fill hl hfree rfl
    refine ⟨e, u', (Session.run_writeFile hmake hempty wording).trans hfill, ?_⟩
    have hsame := ((World.makeDirectories_makes sys p.parent).of_run hmake).1
    rw [htree, keeps_insert_iff_of_made hsame hfree]
    exact fun hkeeps => hne (hkeeps old hfile)

/-- Writing fails without a loss if it does not spoil the file. -/
theorem keeps_of_not_spoils {c : Codec} (hc : sys.codecs s.config.defaults.encoding = .ok c)
    (h : ¬ s.Spoils sys w p wording)
    (hfail : ((s.writeFile p wording : Action (On sys) Unit).run.run w).1 ≠ .ok ()) :
    w.tree.Keeps ((s.writeFile p wording : Action (On sys) Unit).run.run w).2.tree := by
  rcases hmake : (Host.makeDirectories p.parent : On sys _).run w with ⟨r, u⟩
  have hsame := ((World.makeDirectories_makes sys p.parent).of_run hmake).1
  cases r with
  -- The directories cannot be made, and the file is not touched.
  | error e =>
    have hrun : (s.writeFile p wording : Action (On sys) Unit).run.run w =
        (.error (writeFailure p e), u) := by
      rw [writeFile]
      exact run_bind_ok ((run_lift _ _).trans (by rw [hmake]))
    rw [hrun]
    exact hsame.keeps
  | ok a =>
    rcases run_empty_cases sys p u with ⟨e, hempty⟩ | ⟨l, hl, hfree, hempty⟩
    · -- The file cannot be emptied, and is not touched either.
      have hrun : (s.writeFile p wording : Action (On sys) Unit).run.run w =
          (.error (writeFailure p e), u) := by
        rw [writeFile]
        refine (run_bind_ok (run_makeDirectories hmake)).trans ?_
        exact run_bind_ok ((run_lift (Host.empty p : On sys _) u).trans (by rw [hempty]))
      rw [hrun]
      exact hsame.keeps
    · -- The file was emptied, so that it is kept only if what is left in it is what was there.
      rw [Session.run_writeFile hmake hempty wording] at hfail ⊢
      obtain ⟨left, hleaves⟩ := (run_fill_cases hl hfree hc wording rfl).resolve_left hfail
      obtain ⟨e, u', hfill, htree⟩ := hleaves.run_fill hl hfree rfl
      rw [hfill, htree, keeps_insert_iff_of_made hsame hfree]
      intro old hold
      by_contra hne
      exact h ⟨u, _, old, left, hmake, FileTree.read_eq_ok_iff.2 ⟨l, hl, hold⟩, hempty, hleaves, hne⟩

end Session

/-! ## Commands -/

variable {s : Session} {c : Command} {w : World}

/-- The command, run in the world `w`, comes to a wording for a file, and spoils the file when it
    writes. -/
def Command.Spoils (sys : System) (s : Session) (c : Command) (w : World) : Prop :=
  ∃ wording output file v,
    (c.prepare s : Action (On sys) Outcome).run.run w = (.ok (.output wording output), v) ∧
    Session.outputFile? output = some file ∧ s.Spoils sys v (s.resolve file) wording

/-- A command that spoils a file ends in an error, and the file is not kept. -/
theorem Command.Spoils.run_runIn (h : c.Spoils sys s w) :
    ∃ e u, (c.runIn s : Action (On sys) Nat).run.run w = (.error e, u) ∧
      ¬ w.tree.Keeps u.tree := by
  obtain ⟨wording, output, file, v, hprepare, hfile, hspoils⟩ := h
  obtain ⟨e, u, hwrite, hlost⟩ := hspoils.run_writeFile
  have hv := ((c.prepare_reads sys s).of_run hprepare).1
  refine ⟨e, u, ?_, hv ▸ hlost⟩
  rw [runIn, run_bind_ok hprepare, Session.conclude, Session.writeOutput, hfile]
  exact run_bind_error hwrite

/-- A command fails without a loss if it does not spoil its output. -/
theorem Command.keeps_of_not_spoils (h : ¬ c.Spoils sys s w)
    (hfail : ((c.runIn s : Action (On sys) Nat).run.run w).1 ≠ .ok 0) :
    w.tree.Keeps ((c.runIn s : Action (On sys) Nat).run.run w).2.tree := by
  rcases hprepare : (c.prepare s : Action (On sys) Outcome).run.run w with ⟨r, v⟩
  obtain ⟨hv, hmakes⟩ := (c.prepare_reads sys s).of_run hprepare
  have hkeeps : w.tree.Keeps v.tree := by
    rw [hv]
    exact .refl _
  cases r with
  | error e => rwa [runIn, run_bind_error hprepare]
  | ok o =>
    rw [runIn, run_bind_ok hprepare] at hfail ⊢
    cases o with
    | done status => exact hkeeps
    | output wording output =>
      -- The codec is known, as the command has come to something to write.
      obtain ⟨codec, hcodec⟩ := (hmakes _ rfl wording output rfl).exists_codec
      rw [Session.conclude, Session.writeOutput] at hfail ⊢
      cases hfile : Session.outputFile? output with
      | none => exact hkeeps
      | some file =>
        rw [hfile] at hfail
        dsimp only at hfail ⊢
        rcases hwrite : (s.writeFile (s.resolve file) wording : Action (On sys) Unit).run.run v with
          ⟨r, u⟩
        cases r with
        | ok a => exact absurd (congrArg Prod.fst (run_bind_ok hwrite)) hfail
        | error e =>
          rw [run_bind_error hwrite]
          have hnot : ¬ s.Spoils sys v (s.resolve file) wording := fun hspoils =>
            h ⟨wording, output, file, v, hprepare, hfile, hspoils⟩
          have hwritten := Session.keeps_of_not_spoils hcodec hnot (by rw [hwrite]; rintro ⟨⟩)
          rw [hwrite] at hwritten
          exact hv ▸ hwritten

end Cli

end DbmlRestore
