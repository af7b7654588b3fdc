import DbmlRestore.Proofs.Line.Forms
import Mathlib.Algebra.Ring.Int.Defs

/-!
# The view of a scan

A scan is asked two things only: the table it is in, and the depth. States that
agree on both are *alike* (`TableScan.Alike`): they answer every question the same
way, and stay alike whatever line follows. So a line that is no header and holds no
brace, be it a remark or a blank line, may be put in or left out without any effect
on what is found later (`alike_finish`).

`TableScan.pass` is the state after one line, and `TableScan.after` that after some
lines. Its depth is the sum of what the lines before it open and close
(`after_depth`); `Line.AtZero` says of some lines, the headers say, that the sum is
zero where they stand.
-/

namespace DbmlRestore

namespace Line

/-- How some lines change the brace depth. -/
def depthOf (ls : List Line) : Int := (ls.map depthChange).sum

@[simp] theorem depthOf_nil : depthOf [] = 0 := rfl

theorem depthOf_cons (l : Line) (ls : List Line) : depthOf (l :: ls) = depthChange l + depthOf ls :=
  List.sum_cons

theorem depthOf_append (ls ls' : List Line) : depthOf (ls ++ ls') = depthOf ls + depthOf ls' := by
  rw [depthOf, List.map_append, List.sum_append, ← depthOf, ← depthOf]

/-- Whether a line is the header of a table. -/
abbrev IsTableHeader (l : Line) : Prop := (tableHeader? (Text.trim l)).isSome

/-- Among the lines that follow the depth `d`, those with `p` stand at depth zero. -/
def AtZero (p : Line → Prop) (d : Int) (ls : List Line) : Prop :=
  ∀ pre l post, ls = pre ++ l :: post → p l → d + depthOf pre = 0

namespace AtZero

variable {p : Line → Prop} {d : Int} {l : Line} {ls : List Line}

theorem head (h : AtZero p d (l :: ls)) (hl : p l) : d = 0 := by
  have := h [] l ls rfl hl
  rwa [depthOf_nil, Int.add_zero] at this

theorem tail (h : AtZero p d (l :: ls)) : AtZero p (d + depthChange l) ls := by
  intro pre m post hls hm
  have := h (l :: pre) m post (by rw [hls]; rfl) hm
  rwa [depthOf_cons, ← Int.add_assoc] at this

theorem append_right {ls' : List Line} (h : AtZero p d (ls ++ ls')) :
    AtZero p (d + depthOf ls) ls' := by
  intro pre m post hls hm
  have := h (ls ++ pre) m post (by rw [hls, List.append_assoc]) hm
  rwa [depthOf_append, ← Int.add_assoc] at this

theorem nil : AtZero p d [] := fun pre _ _ h => absurd h.symm (by cases pre <;> nofun)

/-- Headers stand at depth zero if the first line does so, and the others from the depth after it.
    -/
theorem cons_iff : AtZero p d (l :: ls) ↔ (p l → d = 0) ∧ AtZero p (d + depthChange l) ls := by
  refine ⟨fun h => ⟨h.head, h.tail⟩, fun ⟨hl, hls⟩ pre m post heq hm => ?_⟩
  cases pre with
  | nil =>
    obtain ⟨rfl, -⟩ := List.cons.inj heq
    rw [depthOf_nil, Int.add_zero]
    exact hl hm
  | cons k pre =>
    obtain ⟨rfl, hrest⟩ := List.cons.inj heq
    rw [depthOf_cons, ← Int.add_assoc]
    exact hls pre m post hrest hm

instance decidable [DecidablePred p] (d : Int) : (ls : List Line) → Decidable (AtZero p d ls)
  | [] => .isTrue nil
  | l :: ls =>
    have := decidable (d + depthChange l) ls
    decidable_of_iff ((p l → d = 0) ∧ AtZero p (d + depthChange l) ls) cons_iff.symm

end AtZero

end Line

namespace TableScan

@[simp] theorem enter_table? (s : TableScan) (t : Text) : (s.enter t).table? = some t := rfl

theorem finishLine_depth (s : TableScan) (o c : Nat) :
    (s.finishLine o c).depth = s.depth + o - c := rfl

/-- A table is left by the line that closes a brace and brings the depth to zero. -/
theorem finishLine_table? (s : TableScan) (o c : Nat) :
    (s.finishLine o c).table? = if s.depth + o - c = 0 ∧ 0 < c then none else s.table? := by
  rw [table?, table?, finishLine]
  cases s.place with
  | idle => exact (ite_self _).symm
  | header t =>
    show Place.table? (if _ then _ else if _ then _ else _) = _
    split
    · rfl
    · split <;> rfl
  | body t =>
    show Place.table? (if _ then _ else _) = _
    split <;> rfl

theorem finish_depth (s : TableScan) (l : Line) :
    (s.finish l).depth = s.depth + Line.depthChange l := by
  rw [finish, finishLine_depth, Line.depthChange]
  omega

theorem finish_table? (s : TableScan) (l : Line) :
    (s.finish l).table? =
      if s.depth + Line.depthChange l = 0 ∧ 0 < Line.closes l then none else s.table? := by
  rw [finish, finishLine_table?, Line.depthChange, Int.add_sub_assoc]

/-- Two states that no question tells apart. -/
structure Alike (s s' : TableScan) : Prop where
  table : s.table? = s'.table?
  depth : s.depth = s'.depth

namespace Alike

theorem refl (s : TableScan) : Alike s s := ⟨rfl, rfl⟩

variable {s s' s'' : TableScan}

theorem symm (h : Alike s s') : Alike s' s := ⟨h.table.symm, h.depth.symm⟩

theorem trans (h : Alike s s') (h' : Alike s' s'') : Alike s s'' :=
  ⟨h.table.trans h'.table, h.depth.trans h'.depth⟩

theorem bodyTable? (h : Alike s s') : s.bodyTable? = s'.bodyTable? := by
  rw [TableScan.bodyTable?, TableScan.bodyTable?, h.table, h.depth]

theorem enter (h : Alike s s') (t : Text) : Alike (s.enter t) (s'.enter t) := ⟨rfl, h.depth⟩

/-- Lines with the same braces leave alike states alike. -/
theorem finish (h : Alike s s') {l l' : Line} (ho : Line.opens l = Line.opens l')
    (hc : Line.closes l = Line.closes l') : Alike (s.finish l) (s'.finish l') := by
  refine ⟨?_, ?_⟩
  · rw [finish_table?, finish_table?, Line.depthChange, Line.depthChange, h.table, h.depth, ho, hc]
  · rw [finish_depth, finish_depth, Line.depthChange, Line.depthChange, h.depth, ho, hc]

end Alike

/-- A line without braces changes nothing that can be asked for. -/
theorem alike_finish (s : TableScan) {l : Line} (ho : Line.opens l = 0) (hc : Line.closes l = 0) :
    Alike (s.finish l) s := by
  refine ⟨?_, ?_⟩
  · rw [finish_table?, hc, if_neg fun h => Nat.lt_irrefl 0 h.2]
  · rw [finish_depth, Line.depthChange, ho, hc]
    exact Int.add_zero _

/-! ## Passing over lines -/

/-- The state in which a line is looked at: a table header is entered first. -/
def see (s : TableScan) (l : Line) : TableScan :=
  match Line.tableHeader? (Text.trim l) with
  | some h => s.enter h.table
  | none => s

/-- The state after a line. -/
def pass (s : TableScan) (l : Line) : TableScan := (s.see l).finish l

/-- The state after some lines. -/
def after (s : TableScan) (ls : List Line) : TableScan := ls.foldl pass s

@[simp] theorem after_nil (s : TableScan) : s.after [] = s := rfl

@[simp] theorem after_cons (s : TableScan) (l : Line) (ls : List Line) :
    s.after (l :: ls) = (s.pass l).after ls := rfl

theorem after_append (s : TableScan) (ls ls' : List Line) :
    s.after (ls ++ ls') = (s.after ls).after ls' := List.foldl_append

theorem see_of_header {l : Line} {h : TableHeader}
    (hl : Line.tableHeader? (Text.trim l) = some h) (s : TableScan) :
    s.see l = s.enter h.table := by
  rw [see, hl]

/-- A line that is no header of a table is not entered. -/
theorem see_of_none {l : Line} (hl : Line.tableHeader? (Text.trim l) = none) (s : TableScan) :
    s.see l = s := by
  rw [see, hl]

theorem see_depth (s : TableScan) (l : Line) : (s.see l).depth = s.depth := by
  rw [see]
  split <;> rfl

/-- Passing a line changes the depth as its braces do. -/
theorem pass_depth (s : TableScan) (l : Line) :
    (s.pass l).depth = s.depth + Line.depthChange l := by
  rw [pass, finish_depth, see_depth]

/-- The scan counts the braces of the lines, and nothing else. -/
theorem after_depth (s : TableScan) (ls : List Line) :
    (s.after ls).depth = s.depth + Line.depthOf ls := by
  induction ls generalizing s with
  | nil => exact (Int.add_zero _).symm
  | cons l ls ih => rw [after_cons, ih, pass_depth, Line.depthOf_cons, Int.add_assoc]

/-- A line leaves the table it is in, or stays in it. -/
theorem pass_table?_eq (s : TableScan) (l : Line) :
    (s.pass l).table? = none ∨ (s.pass l).table? = (s.see l).table? := by
  rw [pass, finish_table?]
  split
  · exact .inl rfl
  · exact .inr rfl

/-- A line that is no header stays outside of the tables. -/
theorem pass_table?_of_idle {s : TableScan} (hs : s.table? = none) {l : Line}
    (hl : Line.tableHeader? (Text.trim l) = none) : (s.pass l).table? = none := by
  rw [pass, see_of_none hl, finish_table?, hs, ite_self]

/-- A line that is no header and is without braces is passed over. -/
theorem alike_pass (s : TableScan) {l : Line} (hl : Line.tableHeader? (Text.trim l) = none)
    (ho : Line.opens l = 0) (hc : Line.closes l = 0) : Alike (s.pass l) s := by
  rw [pass, see_of_none hl]
  exact alike_finish s ho hc

/-- Scans that are alike see the same in a line. -/
theorem Alike.see {s s' : TableScan} (h : Alike s s') (l : Line) : Alike (s.see l) (s'.see l) := by
  rw [TableScan.see, TableScan.see]
  split
  · exact h.enter _
  · exact h

/-- Scans that are alike stay so along a line. -/
theorem Alike.pass {s s' : TableScan} (h : Alike s s') (l : Line) : Alike (s.pass l) (s'.pass l) :=
  (h.see l).finish rfl rfl

/-- A line that goes on is passed as the line it was. -/
theorem alike_pass_of_continues (s : TableScan) {l l' : Line} (h : Line.Continues l l') :
    Alike (s.pass l') (s.pass l) := by
  have hsee : s.see l' = s.see l := by rw [see, see, h.tableHeader?_eq]
  rw [pass, pass, hsee]
  exact (Alike.refl _).finish h.opens_eq h.closes_eq

/-- The table of a body is the table of the scan. -/
theorem table?_of_bodyTable? {s : TableScan} {t : Text} (h : s.bodyTable? = some t) :
    s.table? = some t := by
  rw [bodyTable?] at h
  split at h
  · exact h
  · exact nomatch h

/-- At depth zero no body is open. -/
theorem bodyTable?_of_depth_eq_zero {s : TableScan} (h : s.depth = 0) : s.bodyTable? = none := by
  rw [bodyTable?, h]
  rfl

end TableScan

end DbmlRestore
