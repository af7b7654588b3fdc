import DbmlRestore.Proofs.Block.Enclosed
import Mathlib.Order.Bounds.Basic
import Mathlib.Data.List.Forall2

/-!
# Where blocks start and end

A partition goes over the lines of a text with a block that is open or not. What it finds can be
said without any of this, from the depth before each line (`Line.depthBefore`):

* a block starts at each header that stands at depth zero (`Line.IsStart`), and nowhere else;
* it goes on to the first line that closes a brace and brings the depth to zero, or that stands
  before the next start, or that is the last one (`Line.IsEnd`).

The proper blocks are these stretches of lines, one for each start and in order
(`Block.partition_spans`). Nothing is asked of the text: the depth may go below zero, and blocks
may be left open.

`Partition.OpenFrom` is what holds of the block that is open before a line. One line keeps it, or
ends the block and with that makes it a stretch of the text (`Block.StandsAt`).
-/

namespace DbmlRestore

namespace Line

/-! ## Starts and ends -/

/-- What a line starts where the depth is zero: a table if it is the header of one, else an enum,
    else a reference. -/
def startKind? (l : Line) : Option BlockKind :=
  if (tableHeader? (Text.trim l)).isSome then some .table
  else if isEnumHeader (Text.trim l) then some .enum
  else if isRefHeader (Text.trim l) then some .ref
  else none

/-- The brace depth before line `i`. -/
def depthBefore (ls : List Line) (i : Nat) : Int := depthOf (ls.take i)

/-- Line `i` is a header at depth zero. -/
def IsStart (ls : List Line) (i : Nat) : Prop :=
  depthBefore ls i = 0 ∧ ∃ l ∈ ls[i]?, (startKind? l).isSome

instance (ls : List Line) : DecidablePred (IsStart ls) := fun _ =>
  inferInstanceAs (Decidable (_ ∧ _))

/-- Line `i` holds a closing brace, and the depth after it is zero. -/
def IsClosing (ls : List Line) (i : Nat) : Prop :=
  depthBefore ls (i + 1) = 0 ∧ ∃ l ∈ ls[i]?, '\x7d' ∈ l

instance (ls : List Line) : DecidablePred (IsClosing ls) := fun _ =>
  inferInstanceAs (Decidable (_ ∧ _))

/-- A block that is open ends with line `i`. -/
def IsEnd (ls : List Line) (i : Nat) : Prop :=
  IsClosing ls i ∨ IsStart ls (i + 1) ∨ i + 1 = ls.length

/-- A line opens the block that it starts. -/
theorem opened?_trim (l : Line) : Block.opened? (Text.trim l) =
    (startKind? l).map fun kind =>
      { kind, lines := [], table := (tableHeader? (Text.trim l)).map (·.table),
        schema := (tableHeader? (Text.trim l)).bind (·.schema) } := by
  unfold Block.opened? startKind?
  cases tableHeader? (Text.trim l) with
  | some h => rfl
  | none => cases isEnumHeader (Text.trim l) <;> cases isRefHeader (Text.trim l) <;> rfl

/-- A line at depth `d` closes a brace and brings the depth to zero. -/
def ClosesAt (d : Int) (l : Line) : Prop := d + depthChange l = 0 ∧ 0 < closes l

/-- Whether a line starts a block is a matter of the lines before it. -/
theorem isStart_append (pre post : List Line) (l : Line) :
    IsStart (pre ++ l :: post) pre.length ↔ depthOf pre = 0 ∧ (startKind? l).isSome := by
  rw [IsStart, depthBefore, List.take_left' rfl, List.getElem?_append_right (Nat.le_refl _),
    Nat.sub_self, List.getElem?_cons_zero]
  simp

/-- Whether a line closes a block is a matter of the lines before it. -/
theorem isClosing_append (pre post : List Line) (l : Line) :
    IsClosing (pre ++ l :: post) pre.length ↔ ClosesAt (depthOf pre) l := by
  have htake : (pre ++ l :: post).take (pre.length + 1) = pre ++ [l] := by
    rw [List.take_length_add_append]
    rfl
  rw [IsClosing, depthBefore, htake, depthOf_append, depthOf_cons, depthOf_nil, Int.add_zero,
    List.getElem?_append_right (Nat.le_refl _), Nat.sub_self, List.getElem?_cons_zero, ClosesAt,
    closes, List.count_pos_iff]
  simp

theorem isSome_opened?_trim (l : Line) :
    (Block.opened? (Text.trim l)).isSome = (startKind? l).isSome := by
  rw [opened?_trim, Option.isSome_map]

theorem map_kind_opened? (l : Line) :
    (Block.opened? (Text.trim l)).map (·.kind) = startKind? l := by
  rw [opened?_trim]
  cases startKind? l <;> rfl

theorem opened?_trim_eq_none_iff {l : Line} :
    Block.opened? (Text.trim l) = none ↔ startKind? l = none := by
  rw [opened?_trim, Option.map_eq_none_iff]

end Line

namespace TableScan

variable {s : TableScan} {l : Line}

/-- A table is left by the line that closes it. -/
theorem pass_table?_of_closesAt (hl : Line.ClosesAt s.depth l) : (s.pass l).table? = none := by
  rw [pass, finish_table?, see_depth]
  exact if_pos hl

/-- A line that does not close the table stays in it. -/
theorem pass_table?_of_not_closesAt (hl : ¬ Line.ClosesAt s.depth l) :
    (s.pass l).table? = (s.see l).table? := by
  rw [pass, finish_table?, see_depth]
  exact if_neg hl

end TableScan

namespace Block

/-- The block is of the kind that the line starts, and has the names that it carries. -/
structure HeadedBy (b : Block) (l : Line) : Prop where
  kind : Line.startKind? l = some b.kind
  table : b.table = (Line.tableHeader? (Text.trim l)).map (·.table)
  schema : b.schema = (Line.tableHeader? (Text.trim l)).bind (·.schema)

theorem headedBy_of_opened? {b : Block} {l : Line} (h : opened? (Text.trim l) = some b) :
    b.HeadedBy l := by
  rw [Line.opened?_trim, Option.map_eq_some_iff] at h
  obtain ⟨kind, hkind, rfl⟩ := h
  exact ⟨hkind, rfl, rfl⟩

/-- A block with a header is opened by it. -/
theorem HeadedBy.opened?_eq {b : Block} {l : Line} (h : b.HeadedBy l) :
    opened? (Text.trim l) = some { b with lines := [] } := by
  rw [Line.opened?_trim, h.kind, ← h.table, ← h.schema]
  rfl

/-- A block with a header is not left over. -/
theorem HeadedBy.kind_ne_other {b : Block} {l : Line} (h : b.HeadedBy l) : b.kind ≠ .other := by
  show ({ b with lines := [] } : Block).kind ≠ .other
  exact kind_of_opened? h.opened?_eq

/-- A block is a table if and only if it has the header of one. -/
theorem HeadedBy.isTableHeader_iff {b : Block} {l : Line} (h : b.HeadedBy l) :
    Line.IsTableHeader l ↔ b.kind = .table := by
  have hkind := h.kind
  rw [Line.startKind?] at hkind
  split at hkind
  · next hl => exact iff_of_true hl (Option.some.inj hkind).symm
  · next hl =>
    refine iff_of_false hl fun hk => ?_
    rw [hk] at hkind
    split at hkind
    · exact nomatch hkind
    · split at hkind <;> exact nomatch hkind

/-- The block is the stretch of lines from the start `i` to the first end after it, which
    is `e`. -/
structure StandsAt (ls : List Line) (i e : Nat) (b : Block) : Prop where
  start : Line.IsStart ls i
  header : ∃ l ∈ ls[i]?, b.HeadedBy l
  least : IsLeast {j | i ≤ j ∧ Line.IsEnd ls j} e
  lines : b.lines = (ls.take (e + 1)).drop i

end Block

/-! ## What one line does -/

namespace Partition

open Line

/-- The block `b` is open before line `k`, and was opened by line `i`. -/
structure OpenFrom (ls : List Line) (i k : Nat) (b : Block) : Prop where
  lt : i < k
  start : IsStart ls i
  header : ∃ l ∈ ls[i]?, b.HeadedBy l
  notEnd : ∀ j, i ≤ j → j + 1 < k → ¬ IsEnd ls j
  notClosing : ∀ j, j + 1 = k → ¬ IsClosing ls j
  lines : b.lines = (ls.take k).drop i

namespace OpenFrom

variable {ls : List Line} {i k : Nat} {b : Block} {l : Line}

theorem kind_ne_other (h : OpenFrom ls i k b) : b.kind ≠ .other := by
  obtain ⟨_, _, hheader⟩ := h.header
  exact hheader.kind_ne_other

/-- The next start and the end of the text end the block. -/
theorem standsAt (h : OpenFrom ls i k b) (hk : IsStart ls k ∨ k = ls.length) :
    ∃ e, b.StandsAt ls i e := by
  obtain ⟨e, rfl⟩ : ∃ e, k = e + 1 := ⟨k - 1, by have := h.lt; omega⟩
  refine ⟨e, h.start, h.header, ⟨⟨Nat.le_of_lt_succ h.lt, .inr hk⟩, ?_⟩, h.lines⟩
  intro j ⟨hij, hend⟩
  by_contra hlt
  exact h.notEnd j hij (by omega) hend

/-- No line before one that is no start ends the block. -/
theorem not_isEnd (h : OpenFrom ls i k b) (hk : ¬ IsStart ls k) (hlen : k < ls.length) {j : Nat}
    (hij : i ≤ j) (hjk : j < k) : ¬ IsEnd ls j := by
  rcases Nat.lt_or_eq_of_le (Nat.succ_le_of_lt hjk) with hlt | rfl
  · exact h.notEnd j hij hlt
  · rintro (hc | hs | he)
    · exact h.notClosing j rfl hc
    · exact hk hs
    · exact Nat.ne_of_lt hlen he

theorem drop_take_succ (hl : ls[k]? = some l) (hik : i ≤ k) :
    (ls.take (k + 1)).drop i = (ls.take k).drop i ++ [l] := by
  obtain ⟨hlen, hl⟩ := List.getElem?_eq_some_iff.1 hl
  rw [List.take_succ_eq_append_getElem hlen, hl,
    List.drop_append_of_le_length (by rw [List.length_take]; omega)]

/-- A line that joins the block leaves it open. -/
theorem push (h : OpenFrom ls i k b) (hl : ls[k]? = some l) (hs : ¬ IsStart ls k)
    (hc : ¬ IsClosing ls k) : OpenFrom ls i (k + 1) (b.push l) := by
  have hlen := (List.getElem?_eq_some_iff.1 hl).1
  refine ⟨Nat.lt_succ_of_lt h.lt, h.start, ?_, ?_, ?_, ?_⟩
  · obtain ⟨m, hm, hheader⟩ := h.header
    exact ⟨m, hm, hheader.kind, hheader.table, hheader.schema⟩
  · exact fun j hij hjk => h.not_isEnd hs hlen hij (Nat.lt_of_succ_lt_succ hjk)
  · rintro j hj
    obtain rfl : j = k := Nat.succ.inj hj
    exact hc
  · rw [drop_take_succ hl (Nat.le_of_lt h.lt), Block.push, h.lines]

/-- A line that closes the block is its end. -/
theorem standsAt_push (h : OpenFrom ls i k b) (hl : ls[k]? = some l) (hs : ¬ IsStart ls k)
    (hc : IsClosing ls k) : (b.push l).StandsAt ls i k := by
  have hlen := (List.getElem?_eq_some_iff.1 hl).1
  refine ⟨h.start, ?_, ⟨⟨Nat.le_of_lt h.lt, .inl hc⟩, ?_⟩, ?_⟩
  · obtain ⟨m, hm, hheader⟩ := h.header
    exact ⟨m, hm, hheader.kind, hheader.table, hheader.schema⟩
  · intro j ⟨hij, hend⟩
    by_contra hlt
    exact h.not_isEnd hs hlen hij (Nat.lt_of_not_le hlt) hend
  · rw [drop_take_succ hl (Nat.le_of_lt h.lt), Block.push, h.lines]

end OpenFrom

section

variable {ls : List Line} {k : Nat} {b : Block} {l : Line} (hl : ls[k]? = some l)
  (hb : Block.opened? (Text.trim l) = some b)
include hl hb

theorem lines_push_of_opened : (b.push l).lines = (ls.take (k + 1)).drop k := by
  have hlen := (List.getElem?_eq_some_iff.1 hl).1
  rw [OpenFrom.drop_take_succ hl (Nat.le_refl k), Block.push, Line.lines_of_opened? hb,
    List.drop_eq_nil_of_le (by rw [List.length_take]; omega)]

/-- A block that was opened by a line has this line as its header. -/
theorem headedBy_push_of_opened : ∃ m ∈ ls[k]?, (b.push l).HeadedBy m := by
  have hheader := Block.headedBy_of_opened? hb
  exact ⟨l, hl, hheader.kind, hheader.table, hheader.schema⟩

/-- A header opens a block. -/
theorem openFrom_of_opened (hs : IsStart ls k) (hc : ¬ IsClosing ls k) :
    OpenFrom ls k (k + 1) (b.push l) := by
  refine ⟨Nat.lt_succ_self k, hs, headedBy_push_of_opened hl hb, ?_, ?_,
    lines_push_of_opened hl hb⟩
  · intro j hkj hjk
    omega
  · rintro j hj
    obtain rfl : j = k := Nat.succ.inj hj
    exact hc

/-- A header that closes the block it opens is all of it. -/
theorem standsAt_of_opened (hs : IsStart ls k) (hc : IsClosing ls k) :
    (b.push l).StandsAt ls k k :=
  ⟨hs, headedBy_push_of_opened hl hb, ⟨⟨Nat.le_refl k, .inl hc⟩, fun _ h => h.1⟩,
    lines_push_of_opened hl hb⟩

end

/-! ## What a run finds -/

/-- A start and the end of the text end the block that is open. -/
theorem forall₂_toList {ls : List Line} {k : Nat} {o : Option Nat} {current : Option Block}
    (ho : Option.Rel (fun i b => OpenFrom ls i k b) o current)
    (hk : IsStart ls k ∨ k = ls.length) :
    List.Forall₂ (fun i b => ∃ e, Block.StandsAt ls i e b) o.toList
      (Block.proper current.toList) := by
  cases ho with
  | none => exact .nil
  | some h =>
    rw [Option.toList_some, Option.toList_some, Block.proper_singleton h.kind_ne_other]
    exact .cons (h.standsAt hk) .nil

/-- The proper blocks that a line adds are stretches that it ends. Of the block that was open before
    the line and the one that it starts, one may be open after it. -/
theorem forall₂_step {ls pre rest : List Line} {l : Line} (hls : ls = pre ++ l :: rest)
    {p : Partition} (hd : p.depth = depthOf pre) {o : Option Nat}
    (ho : Option.Rel (fun i b => OpenFrom ls i pre.length b) o p.current) :
    ∃ (done : List Nat) (o' : Option Nat),
      o.toList ++ [pre.length].filter (IsStart ls ·) = done ++ o'.toList ∧
      List.Forall₂ (fun i b => ∃ e, Block.StandsAt ls i e b) done (Block.proper (p.step l).1) ∧
      Option.Rel (fun i b => OpenFrom ls i (pre.length + 1) b) o' (p.step l).2.current := by
  have hl : ls[pre.length]? = some l := by
    rw [hls, List.getElem?_append_right (Nat.le_refl _), Nat.sub_self, List.getElem?_cons_zero]
  have hstart : IsStart ls pre.length ↔ p.depth = 0 ∧ (Block.opened? (Text.trim l)).isSome := by
    rw [hls, isStart_append, hd, isSome_opened?_trim]
  have hclosing : IsClosing ls pre.length ↔ p.Closes l := by
    rw [hls, isClosing_append, ← hd]
    rfl
  obtain ⟨b, hz, hb, hstep⟩ | ⟨hopen, hstep⟩ := step_cases p l
  · -- A start ends the block that is open, and may close the one that it opens.
    have hs : IsStart ls pre.length := hstart.2 ⟨hz, by rw [hb]; rfl⟩
    have hended := forall₂_toList ho (.inl hs)
    rw [List.filter_cons, if_pos (decide_eq_true hs), List.filter_nil]
    obtain ⟨hc, hstep⟩ | ⟨hc, hstep⟩ := hstep
    · have hopened := openFrom_of_opened hl hb hs (mt hclosing.1 hc)
      rw [hstep]
      exact ⟨o.toList, some pre.length, rfl, hended, .some hopened⟩
    · have hclosed := standsAt_of_opened hl hb hs (hclosing.2 hc)
      have hkind := Block.kind_of_opened? hb
      rw [hstep, Block.proper_append, Block.proper_singleton (b := b.push l) hkind]
      exact ⟨o.toList ++ [pre.length], none, (List.append_nil _).symm,
        List.rel_append hended (.cons ⟨_, hclosed⟩ .nil), .none⟩
  · have hs : ¬ IsStart ls pre.length := fun hs => by
      obtain ⟨hz, hsome⟩ := hstart.1 hs
      rw [hopen hz] at hsome
      exact nomatch hsome
    rw [List.filter_cons, if_neg (by rwa [decide_eq_true_eq]), List.filter_nil, List.append_nil]
    obtain ⟨b, hcur, hstep⟩ | ⟨hcur, hstep⟩ := hstep
    · -- Any other line joins the block that is open, and may close it.
      rw [hcur] at ho
      cases ho with
      | @some i _ h =>
        obtain ⟨hc, hstep⟩ | ⟨hc, hstep⟩ := hstep
        · rw [hstep]
          exact ⟨[], some i, rfl, .nil, .some (h.push hl hs (mt hclosing.1 hc))⟩
        · have hclosed := h.standsAt_push hl hs (hclosing.2 hc)
          rw [hstep, Block.proper_singleton (b := b.push l) h.kind_ne_other]
          exact ⟨[i], none, rfl, .cons ⟨_, hclosed⟩ .nil, .none⟩
    · rw [hcur] at ho
      cases ho with
      | none =>
        rw [hstep, proper_alone]
        exact ⟨[], none, rfl, .nil, .none⟩

/-- The proper blocks that a run finds are the stretches from the block that is open, if there is
    one, and from the starts that follow. -/
theorem forall₂_run {ls pre rest : List Line} (hls : ls = pre ++ rest) {p : Partition}
    (hd : p.depth = depthOf pre) {o : Option Nat}
    (ho : Option.Rel (fun i b => OpenFrom ls i pre.length b) o p.current) :
    List.Forall₂ (fun i b => ∃ e, Block.StandsAt ls i e b)
      (o.toList ++ (List.range' pre.length rest.length).filter (IsStart ls ·))
      (Block.proper (p.run rest)) := by
  induction rest generalizing pre p o with
  | nil =>
    rw [List.length_nil, List.range'_zero, List.filter_nil, List.append_nil]
    exact forall₂_toList ho (.inr (by rw [hls, List.append_nil]))
  | cons l rest ih =>
    -- The blocks that this line completes come before those that the other lines do.
    obtain ⟨done, o', hstarts, hdone, ho'⟩ := forall₂_step hls hd ho
    have hls' : ls = (pre ++ [l]) ++ rest := by rw [hls, List.append_assoc]; rfl
    have hlen : (pre ++ [l]).length = pre.length + 1 := List.length_append
    have hdepth : (p.step l).2.depth = depthOf (pre ++ [l]) := by
      rw [step_depth, hd, depthOf_append, depthOf_cons, depthOf_nil, Int.add_zero]
    rw [← hlen] at ho'
    have hrest := ih hls' hdepth ho'
    rw [hlen] at hrest
    rw [List.length_cons, List.range'_succ, ← List.singleton_append, List.filter_append,
      ← List.append_assoc, hstarts, List.append_assoc, run_cons, Block.proper_append]
    exact List.rel_append hdone hrest

end Partition

namespace Block

/-- The proper blocks of a text are stretches of its lines. -/
theorem forall₂_standsAt (t : Text) :
    List.Forall₂ (fun i b => ∃ e, StandsAt (Text.lines t) i e b)
      ((List.range (Text.lines t).length).filter (Line.IsStart (Text.lines t) ·))
      (proper (partition t)) := by
  rw [List.range_eq_range']
  exact Partition.forall₂_run (p := .start) (List.nil_append (Text.lines t)).symm rfl .none

/-- The proper blocks of a text correspond, one to one and in order, to the headers at depth
    zero. Each has the kind and the names of its header, and the text from there to the first line
    that closes a brace and brings the depth to zero, or is followed by a start, or is the last. -/
theorem partition_spans (t : Text) :
    let ls := Text.lines t
    List.Forall₂
      (fun i b => (∃ l ∈ ls[i]?, b.HeadedBy l) ∧
        ∃ e, IsLeast {j | i ≤ j ∧ Line.IsEnd ls j} e ∧
          b.text = Text.unlines ((ls.take (e + 1)).drop i))
      ((List.range ls.length).filter (Line.IsStart ls ·))
      ((partition t).filter (·.kind ≠ .other)) := by
  intro ls
  refine (forall₂_standsAt t).imp fun i b ⟨e, h⟩ => ⟨h.header, e, h.least, ?_⟩
  rw [text, h.lines]

end Block

end DbmlRestore
