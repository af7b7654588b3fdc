import DbmlRestore.Proofs.FileTree
import DbmlRestore.World

/-!
# What an action does in a world

An action gives a result and leaves the files in some state (`World.Yields`). It may print, but the
environment and the start directory stay as they are. One action after the other yields the result
of the second one (`World.Yields.bind`).

What an action does to the files in every world, and on every system, is a relation between the
files before and after it (`World.Within`), which goes from the parts of an action to the whole
(`World.Within.bind`): most actions leave the files as they are (`World.Reads`), and some only make
directories (`World.MakesDirectories`).
-/

namespace DbmlRestore

variable {sys : System} {α β : Type}

namespace On

@[simp] theorem run_bind (x : On sys α) (f : α → On sys β) (w : World) :
    (x >>= f).run w = (f (x.run w).1).run (x.run w).2 := rfl

end On

namespace World

variable {w : World} {a : α} {b : β} {t t' : FileTree}

/-! ## In one world -/

/-- In the world `w`, the result of `x` is `b`, and the files afterwards are `t`. What was printed
    may change as well, but nothing else. -/
def Yields (w : World) (x : On sys β) (b : β) (t : FileTree) : Prop :=
  ∃ output reports, x.run w = (b, { w with tree := t, output := output, reports := reports })

theorem Yields.pure (w : World) (b : β) : w.Yields (Pure.pure b : On sys β) b w.tree :=
  ⟨w.output, w.reports, rfl⟩

/-- Actions that yield their values can be taken one after the other, whatever was printed between.
    -/
theorem Yields.bind {x : On sys α} {f : α → On sys β} (hx : w.Yields x a t)
    (hf : ∀ output reports,
      Yields { w with tree := t, output := output, reports := reports } (f a) b t') :
    w.Yields (x >>= f) b t' := by
  obtain ⟨output, reports, hx⟩ := hx
  obtain ⟨output', reports', hf⟩ := hf output reports
  refine ⟨output', reports', ?_⟩
  rw [On.run_bind, hx, hf]

/-- What changes the files can do so. -/
theorem change_eq_ok {f : FileTree → Except SystemError FileTree} (h : f w.tree = .ok t) :
    w.change f = (.ok (), { w with tree := t }) := by
  rw [change, h]

/-- A change that fails leaves the world as it was. -/
theorem change_eq_error {f : FileTree → Except SystemError FileTree} {e : SystemError}
    (h : f w.tree = .error e) : w.change f = (.error e, w) := by
  rw [change, h]

theorem kind?_yields (w : World) (p : Path) :
    w.Yields (Host.kind? p : On .sound _) ((w.tree.at? p).map (·.map Entry.kind)) w.tree :=
  ⟨w.output, w.reports, rfl⟩

theorem isThere_yields (w : World) (p : Path) :
    w.Yields (Host.isThere p : On .sound _) ((w.tree.at? p).map (·.isSome)) w.tree := by
  refine ⟨w.output, w.reports, ?_⟩
  show (((w.tree.at? p).map (·.map Entry.kind)).map (·.isSome), w) = _
  cases w.tree.at? p with
  | error e => rfl
  | ok x => cases x <;> rfl

theorem read_yields (w : World) (p : Path) :
    w.Yields (Host.read p : On .sound _) (w.tree.read p) w.tree :=
  ⟨w.output, w.reports, rfl⟩

section

variable {p : Path} {l : Address}

/-- A directory that is there cannot be made again, -/
theorem makeDirectory_yields (h : w.tree.LeadsTo p l) :
    w.Yields (Host.makeDirectory p : On .sound _) (.error ⟨.alreadyThere, p⟩) w.tree := by
  have hmake : w.tree.makeDirectory p = .error ⟨.alreadyThere, p⟩ := by
    rw [FileTree.makeDirectory, h.locate]
    dsimp only
    rw [h.directory]
  exact ⟨w.output, w.reports, change_eq_error (f := (·.makeDirectory p)) hmake⟩

/-- but that is as good. -/
theorem acceptDirectory_yields (h : w.tree.LeadsTo p l) (e : SystemError) :
    w.Yields (Host.acceptDirectory p e : On .sound _) (.ok ()) w.tree := by
  have hat : w.tree.at? p = .ok (some .directory) := by
    rw [FileTree.at?, h.locate]
    dsimp only
    rw [h.directory]
  have hkind := kind?_yields w p
  rw [hat] at hkind
  exact hkind.bind fun _ _ => .pure _ _

/-- The directories of a path that leads to one are there, so that nothing has to be made. -/
theorem makeDirectories_yields (h : w.tree.LeadsTo p l) :
    w.Yields (Host.makeDirectories p : On .sound _) (.ok ()) w.tree := by
  obtain ⟨root, parts⟩ := p
  rw [Host.makeDirectories]
  show w.Yields (Host.makeDirectoriesFrom root parts.reverse) (.ok ()) w.tree
  generalize hparts : parts.reverse = above
  obtain rfl : parts = above.reverse := by rw [← hparts, List.reverse_reverse]
  have haccept : ∀ output reports, Yields { w with output := output, reports := reports }
      (Host.acceptDirectory ⟨root, above.reverse⟩ ⟨.alreadyThere, ⟨root, above.reverse⟩⟩ :
        On .sound _) (.ok ()) w.tree := fun output reports =>
    acceptDirectory_yields (w := { w with output := output, reports := reports }) h _
  cases above with
  | nil => exact .bind (makeDirectory_yields h) haccept
  | cons part above => exact .bind (makeDirectory_yields h) haccept

end

/-! ## In every world -/

/-- In every world, the files before and after the action are as `R` says, and so is its result as
    `Q` says. -/
def Within (R : FileTree → FileTree → Prop) (x : On sys α) (Q : α → Prop) : Prop :=
  ∀ w : World, R w.tree (x.run w).2.tree ∧ Q (x.run w).1

namespace Within

variable {R : FileTree → FileTree → Prop} {x : On sys α} {f : α → On sys β} {Q : α → Prop}
  {P : β → Prop}

theorem pure [Std.Refl R] (h : Q a) : Within R (Pure.pure a : On sys α) Q := fun _ =>
  ⟨Std.Refl.refl _, h⟩

/-- Actions within a relation stay in it together, if it is transitive. -/
theorem bind [IsTrans FileTree R] (hx : Within R x Q) (hf : ∀ a, Q a → Within R (f a) P) :
    Within R (x >>= f) P := fun w =>
  have h := hf _ (hx w).2 (x.run w).2
  ⟨IsTrans.trans _ _ _ (hx w).1 h.1, h.2⟩

theorem of_run (hx : Within R x Q) {v : World} (h : x.run w = (a, v)) : R w.tree v.tree ∧ Q a := by
  have hw := hx w
  rwa [h] at hw

theorem mono (hx : Within R x Q) {Q' : α → Prop} (hQ : ∀ a, Q a → Q' a) : Within R x Q' := fun w =>
  ⟨(hx w).1, hQ _ (hx w).2⟩

end Within

/-- In every world, the action leaves the files as they are, and its result is as `Q` says. -/
abbrev Reads (x : On sys α) (Q : α → Prop) : Prop := Within Eq x Q

/-- In every world, the action leaves all files as they are, but may make directories. -/
abbrev MakesDirectories (x : On sys α) : Prop := Within FileTree.SameFiles x fun _ => True

/-- What only reads makes no directories. -/
theorem Reads.makesDirectories {x : On sys α} {Q : α → Prop} (hx : Reads x Q) :
    MakesDirectories x := fun w =>
  ⟨(hx w).1 ▸ .refl _, trivial⟩

/-! ## The host -/

section

variable {p : Path} {request : Request} {x : On sys (Except SystemError α)} {fault : SystemFault}
  {content : Charset.Bytes}

/-- A refused request does nothing. -/
theorem run_unlessRefused_of_some (h : sys.refuses w request p = some fault) :
    (On.unlessRefused request p x).run w = (.error ⟨fault, p⟩, w) := by
  rw [On.run, On.unlessRefused, h]

theorem run_unlessRefused_of_none (h : sys.refuses w request p = none) :
    (On.unlessRefused request p x).run w = x.run w := by
  rw [On.run, On.unlessRefused, h]
  rfl

/-- A store that breaks off leaves the first bytes of the content. -/
theorem run_store_of_some {count : Nat} (h : sys.breaksOff w p content = some (count, fault)) :
    (Host.store p content : On sys _).run w =
      (.error ⟨fault, p⟩, (w.change (·.write p (content.take count))).2) := by
  show On.storeContent p content w = _
  rw [On.storeContent, h]

/-- A store that does not break off leaves all of it. -/
theorem run_store_of_none (h : sys.breaksOff w p content = none) :
    (Host.store p content : On sys _).run w = w.change (·.write p content) := by
  show On.storeContent p content w = _
  rw [On.storeContent, h]

end

section

variable (sys) (p : Path) (request : Request)

/-- A system that refuses a request leaves the files as they are. -/
theorem within_unlessRefused {R : FileTree → FileTree → Prop} [Std.Refl R]
    {x : On sys (Except SystemError α)} (hx : Within R x fun _ => True) :
    Within R (On.unlessRefused request p x) fun _ => True := by
  intro w
  cases h : sys.refuses w request p with
  | some fault =>
    rw [run_unlessRefused_of_some h]
    exact ⟨Std.Refl.refl _, trivial⟩
  | none =>
    rw [run_unlessRefused_of_none h]
    exact hx w

theorem kind?_reads : Reads (Host.kind? p : On sys _) fun _ => True :=
  within_unlessRefused sys p .look fun _ => ⟨rfl, trivial⟩

theorem read_reads : Reads (Host.read p : On sys _) fun _ => True :=
  within_unlessRefused sys p .read fun _ => ⟨rfl, trivial⟩

/-- A codec is looked up under its name, and the files are left alone. -/
theorem codec_reads (name : Wording) :
    Reads (Host.codec name : On sys _) (· = sys.codecs name) :=
  fun _ => ⟨rfl, rfl⟩

theorem environment?_reads (name : Text) :
    Reads (Host.environment? name : On sys _) fun _ => True :=
  fun _ => ⟨rfl, trivial⟩

theorem print_reads (text : Text) : Reads (Host.print text : On sys _) fun _ => True :=
  fun _ => ⟨rfl, trivial⟩

theorem report_reads (text : Text) : Reads (Host.report text : On sys _) fun _ => True :=
  fun _ => ⟨rfl, trivial⟩

theorem isThere_reads : Reads (Host.isThere p : On sys _) fun _ => True :=
  (kind?_reads sys p).bind fun _ _ => .pure trivial

theorem isFile_reads : Reads (Host.isFile p : On sys _) fun _ => True :=
  (kind?_reads sys p).bind fun _ _ => .pure trivial

/-! ## Making directories -/

/-- The request for one directory makes it or nothing. -/
theorem makeDirectory_makes : MakesDirectories (Host.makeDirectory p : On sys _) := by
  refine within_unlessRefused sys p .makeDirectory fun w => ⟨?_, trivial⟩
  show w.tree.SameFiles (w.change (·.makeDirectory p)).2.tree
  cases h : w.tree.makeDirectory p with
  | error e => rw [change_eq_error h]; exact .refl _
  | ok t => rw [change_eq_ok h]; exact FileTree.sameFiles_of_makeDirectory h

theorem acceptDirectory_makes (e : SystemError) :
    MakesDirectories (Host.acceptDirectory p e : On sys _) := by
  refine (kind?_reads sys p).makesDirectories.bind fun r _ => ?_
  split <;> exact .pure trivial

/-- Only directories are made, also where some were made before a request is refused. -/
theorem makeDirectoriesFrom_makes (root : PathRoot) (parts : List Text) :
    MakesDirectories (Host.makeDirectoriesFrom root parts : On sys _) := by
  -- The parts are in reverse order: where a directory cannot be made, the one above is made first.
  induction parts with
  | nil =>
    refine (makeDirectory_makes sys _).bind fun r _ => ?_
    split
    · exact .pure trivial
    · split
      · exact .pure trivial
      · exact acceptDirectory_makes sys _ _
  | cons part above ih =>
    refine (makeDirectory_makes sys _).bind fun r _ => ?_
    split
    · exact .pure trivial
    · split
      · refine ih.bind fun r _ => ?_
        split
        · exact .pure trivial
        · refine (makeDirectory_makes sys _).bind fun r _ => ?_
          split
          · exact .pure trivial
          · split
            · exact .pure trivial
            · exact acceptDirectory_makes sys _ _
      · exact acceptDirectory_makes sys _ _

/-- The directories of a path are made, or some of them, and no files are touched. -/
theorem makeDirectories_makes : MakesDirectories (Host.makeDirectories p : On sys _) :=
  makeDirectoriesFrom_makes sys p.root p.parts.reverse

end

end World

end DbmlRestore
