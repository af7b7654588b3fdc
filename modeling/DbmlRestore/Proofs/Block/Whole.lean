import DbmlRestore.Proofs.Block.Balanced
import DbmlRestore.Proofs.Block.Spans

/-!
# Whole blocks

A block of a text starts with its header. No other header stands in it at depth zero, and no line
before the last closes it (`Block.IsSpan`): this is what its being a stretch of the text says about
its own lines. If the braces of the text balance, so do those of each block, wherever it stands and
whatever is outside of the blocks (`Block.isWhole_of_mem_proper`). Such blocks are *whole*
(`Block.IsWhole`).

A whole block is found again in every text in which it stands at depth zero, before another
header or at the end (`Partition.run_whole`). A block that no brace closes takes an empty line that
follows it (`Partition.proper_run_gap`). Whether a block is whole does not hang on the blank lines
in it (`Block.IsWhole.respaced`).
-/

namespace DbmlRestore

namespace Line

/-! ## Lines along their depths -/

/-- Every line has `P` at the depth at which it stands, the first one standing at `d`. -/
def Along (P : Int → Line → Prop) (d : Int) (ls : List Line) : Prop :=
  ∀ pre l post, ls = pre ++ l :: post → P (d + depthOf pre) l

namespace Along

variable {P : Int → Line → Prop} {d : Int} {l : Line} {ls ls' : List Line}

theorem nil : Along P d [] := fun pre _ _ h => absurd h.symm (by cases pre <;> nofun)

/-- A property along some lines is one of the first line, and one along the others from the depth
    after it. -/
theorem cons_iff : Along P d (l :: ls) ↔ P d l ∧ Along P (d + depthChange l) ls := by
  refine ⟨fun h => ⟨?_, fun pre m post hls => ?_⟩, fun ⟨hl, hls⟩ pre m post heq => ?_⟩
  · have := h [] l ls rfl
    rwa [depthOf_nil, Int.add_zero] at this
  · have := h (l :: pre) m post (by rw [hls]; rfl)
    rwa [depthOf_cons, ← Int.add_assoc] at this
  · cases pre with
    | nil =>
      obtain ⟨rfl, -⟩ := List.cons.inj heq
      rwa [depthOf_nil, Int.add_zero]
    | cons k pre =>
      obtain ⟨rfl, hrest⟩ := List.cons.inj heq
      rw [depthOf_cons, ← Int.add_assoc]
      exact hls pre m post hrest

/-- A property along lines in two parts, the second from the depth after the first. -/
theorem append_iff : Along P d (ls ++ ls') ↔ Along P d ls ∧ Along P (d + depthOf ls) ls' := by
  induction ls generalizing d with
  | nil => rw [depthOf_nil, Int.add_zero]; exact ⟨fun h => ⟨nil, h⟩, And.right⟩
  | cons l ls ih =>
    rw [List.cons_append, cons_iff, ih, cons_iff, depthOf_cons, ← Int.add_assoc, and_assoc]

/-- What holds of blank lines anyway does not hang on them. -/
theorem inked_iff (hP : ∀ d l, isBlankLine l = true → P d l) :
    Along P d (inked ls) ↔ Along P d ls := by
  induction ls generalizing d with
  | nil => rfl
  | cons l ls ih =>
    cases h : isBlankLine l with
    | true =>
      have hquiet : IsQuiet l := .inl (isBlankLine_iff.1 h)
      rw [inked_cons_of_blank h, ih, cons_iff, hquiet.depthChange_eq_zero, Int.add_zero]
      exact ⟨fun hls => ⟨hP d l h, hls⟩, And.right⟩
    | false =>
      rw [inked_cons_of_not_blank h, cons_iff, ih, cons_iff]

/-- Lines may be changed without any effect on their depths. -/
theorem map_iff {f : Line → Line} (hdepth : ∀ l, depthChange (f l) = depthChange l)
    (hP : ∀ d l, P d (f l) ↔ P d l) : Along P d (ls.map f) ↔ Along P d ls := by
  induction ls generalizing d with
  | nil => rfl
  | cons l ls ih => rw [List.map_cons, cons_iff, cons_iff, hP, hdepth, ih]

end Along

/-- The line at depth `d` starts no block. -/
def StartsNone (d : Int) (l : Line) : Prop := d = 0 → startKind? l = none

/-- The lines start with a header, if there are any. -/
def Heads (ls : List Line) : Prop := ∀ l ∈ ls.head?, (startKind? l).isSome

/-- The line has no braces and is no header. -/
structure IsInert (l : Line) : Prop where
  startKind?_eq : startKind? l = none
  opens_eq : opens l = 0
  closes_eq : closes l = 0

instance (l : Line) : Decidable (IsInert l) :=
  decidable_of_iff (startKind? l = none ∧ opens l = 0 ∧ closes l = 0)
    ⟨fun ⟨hk, ho, hc⟩ => ⟨hk, ho, hc⟩, fun ⟨hk, ho, hc⟩ => ⟨hk, ho, hc⟩⟩

theorem isInert_nil : IsInert [] := ⟨rfl, rfl, rfl⟩

theorem Heads.append {ls ms : List Line} (hls : Heads ls) (hms : Heads ms) : Heads (ls ++ ms) := by
  cases ls with
  | nil => exact hms
  | cons l ls => exact hls

/-- A blank line starts no block. -/
theorem startKind?_of_blank {l : Line} (h : isBlankLine l = true) : startKind? l = none :=
  opened?_trim_eq_none_iff.1 (IsQuiet.opened?_eq_none (.inl (isBlankLine_iff.1 h)))

theorem Heads.isBlankLine_eq_false {l : Line} {ls : List Line} (h : Heads (l :: ls)) :
    isBlankLine l = false := Bool.eq_false_iff.2 fun hl => by
  have := h l rfl
  rw [startKind?_of_blank hl] at this
  exact nomatch this

theorem startsNone_of_blank (d : Int) (l : Line) (h : isBlankLine l = true) : StartsNone d l :=
  fun _ => startKind?_of_blank h

/-- A blank line closes nothing, as it has no brace. -/
theorem not_closesAt_of_blank (d : Int) (l : Line) (h : isBlankLine l = true) :
    ¬ ClosesAt d l := by
  have hquiet : IsQuiet l := .inl (isBlankLine_iff.1 h)
  rw [ClosesAt, hquiet.closes_eq]
  exact fun hc => Nat.lt_irrefl 0 hc.2

end Line

namespace Block

/-! ## Stretches of a text -/

theorem HeadedBy.isBlankLine_eq_false {b : Block} {l : Line} (h : b.HeadedBy l) :
    Line.isBlankLine l = false := Bool.eq_false_iff.2 fun hl => by
  have := h.kind
  rw [Line.startKind?_of_blank hl] at this
  exact nomatch this

/-- The block has the header `h` and the lines `body` after it. None of these starts a block, and
    no line but the last closes the block. -/
structure IsSpan (b : Block) (h : Line) (body : List Line) : Prop where
  lines : b.lines = h :: body
  header : b.HeadedBy h
  inner : Line.Along Line.StartsNone (Line.depthChange h) body
  unclosed : Line.Along (fun d l => ¬ Line.ClosesAt d l) 0 b.lines.dropLast

namespace StandsAt

variable {ls : List Line} {i e : Nat} {b : Block} (h : b.StandsAt ls i e)
include h

theorem take_succ : ls.take (e + 1) = ls.take i ++ b.lines := by
  have hie : i ≤ e + 1 := Nat.le_succ_of_le h.least.1.1
  have htake : ls.take i = (ls.take (e + 1)).take i := by
    rw [List.take_take, Nat.min_eq_left hie]
  rw [h.lines, htake, List.take_append_drop]

/-- A stretch is cut out of the text. -/
theorem split : ls = ls.take i ++ b.lines ++ ls.drop (e + 1) := by
  rw [← h.take_succ, List.take_append_drop]

section

variable {pre post : List Line} {l : Line} (hsplit : b.lines = pre ++ l :: post)
include hsplit

/-- The lines of a stretch stand before its end. -/
theorem add_length_le : i + pre.length + post.length ≤ e := by
  have hlen := congrArg List.length hsplit
  rw [h.lines, List.length_drop, List.length_take, List.length_append, List.length_cons] at hlen
  omega

/-- The text cut at a line of the stretch: what stands before that line, and the depth there. -/
theorem cut : ls = (ls.take i ++ pre) ++ l :: (post ++ ls.drop (e + 1)) ∧
    (ls.take i ++ pre).length = i + pre.length ∧ Line.depthOf (ls.take i ++ pre) =
      Line.depthOf pre := by
  obtain ⟨m, hm, -⟩ := h.header
  have hlen := (List.getElem?_eq_some_iff.1 hm).1
  have hcut := h.split
  rw [hsplit] at hcut
  refine ⟨?_, ?_, ?_⟩
  · simpa only [List.append_assoc, List.cons_append] using hcut
  · rw [List.length_append, List.length_take, Nat.min_eq_left (Nat.le_of_lt hlen)]
  · rw [Line.depthOf_append, show Line.depthOf (ls.take i) = 0 from h.start.1, Int.zero_add]

theorem isStart_iff : Line.IsStart ls (i + pre.length) ↔
    Line.depthOf pre = 0 ∧ (Line.startKind? l).isSome := by
  obtain ⟨hcut, hlen, hdepth⟩ := h.cut hsplit
  have := Line.isStart_append (ls.take i ++ pre) (post ++ ls.drop (e + 1)) l
  rwa [← hcut, hlen, hdepth] at this

theorem isClosing_iff : Line.IsClosing ls (i + pre.length) ↔
    Line.ClosesAt (Line.depthOf pre) l := by
  obtain ⟨hcut, hlen, hdepth⟩ := h.cut hsplit
  have := Line.isClosing_append (ls.take i ++ pre) (post ++ ls.drop (e + 1)) l
  rwa [← hcut, hlen, hdepth] at this

end

/-- A stretch is a header and a body, as `IsSpan` describes them. -/
theorem exists_isSpan : ∃ header body, b.IsSpan header body := by
  obtain ⟨l, hl, hheader⟩ := h.header
  have hhead : b.lines.head? = some l := by
    rw [h.lines, List.head?_drop, List.getElem?_take_of_lt (Nat.lt_succ_of_le h.least.1.1)]
    exact hl
  obtain ⟨body, hbody⟩ := List.head?_eq_some_iff.1 hhead
  refine ⟨l, body, hbody, hheader, ?_, ?_⟩
  · -- A header at depth zero would be a start, and the line before it an end.
    intro pre m post hm hz
    by_contra hsome
    have hsplit : b.lines = (l :: pre) ++ m :: post := by rw [hbody, hm]; rfl
    have hle := h.add_length_le hsplit
    have hstart : Line.IsStart ls (i + pre.length + 1) :=
      (h.isStart_iff hsplit).2 ⟨hz, Option.isSome_iff_ne_none.2 hsome⟩
    have := h.least.2 ⟨Nat.le_add_right i pre.length, .inr (.inl hstart)⟩
    rw [List.length_cons] at hle
    omega
  · -- A closing line before the last would be an earlier end.
    intro pre m post hm hc
    have hne : b.lines ≠ [] := by rw [hbody]; exact List.cons_ne_nil _ _
    have hsplit : b.lines = pre ++ m :: (post ++ [b.lines.getLast hne]) := by
      rw [← List.cons_append, ← List.append_assoc, ← hm, List.dropLast_append_getLast]
    have hle := h.add_length_le hsplit
    rw [Int.zero_add] at hc
    have := h.least.2 ⟨Nat.le_add_right i pre.length, .inl ((h.isClosing_iff hsplit).2 hc)⟩
    rw [List.length_append, List.length_singleton] at hle
    omega

/-- The depth is zero after a stretch, unless it is open at the end of the text. -/
theorem depthOf_lines : Line.depthOf b.lines = 0 ∨ ls.drop (e + 1) = [] := by
  have hdepth : Line.depthBefore ls (e + 1) = Line.depthOf b.lines := by
    rw [Line.depthBefore, h.take_succ, Line.depthOf_append,
      show Line.depthOf (ls.take i) = 0 from h.start.1, Int.zero_add]
  rw [← hdepth]
  rcases h.least.1.2 with hc | hs | he
  · exact .inl hc.1
  · exact .inl hs.1
  · exact .inr (List.drop_eq_nil_of_le (Nat.le_of_eq he.symm))

end StandsAt

/-- Each proper block of a text stands somewhere in it. -/
theorem exists_standsAt {t : Text} {b : Block} (hb : b ∈ proper (partition t)) :
    ∃ i e, StandsAt (Text.lines t) i e b := by
  obtain ⟨n, rfl⟩ := List.get_of_mem hb
  have hspans := forall₂_standsAt t
  exact ⟨_, hspans.get (by rw [hspans.length_eq]; exact n.2) n.2⟩

/-- A block starts with a line that is not blank. -/
theorem exists_lines_eq_of_mem_ofKind {kind : BlockKind} (hkind : kind ≠ .other) {b : Block}
    (hb : b ∈ ofKind (partition t) kind) :
    ∃ h body, b.lines = h :: body ∧ Line.isBlankLine h = false := by
  obtain ⟨hmem, hk⟩ := List.mem_filter.1 hb
  rw [decide_eq_true_eq] at hk
  obtain ⟨i, e, hstands⟩ := exists_standsAt (List.mem_filter.2 ⟨hmem, decide_eq_true (hk ▸ hkind)⟩)
  obtain ⟨h, body, hspan⟩ := hstands.exists_isSpan
  exact ⟨h, body, hspan.lines, hspan.header.isBlankLine_eq_false⟩

/-- The lines of blocks start with a line that is not blank. -/
theorem exists_flatMap_lines_eq {bs : List Block} (hne : bs ≠ [])
    (hbs : ∀ b ∈ bs, ∃ h body, b.lines = h :: body ∧ Line.isBlankLine h = false) :
    ∃ h ls, bs.flatMap (·.lines) = h :: ls ∧ Line.isBlankLine h = false := by
  obtain ⟨b, bs', rfl⟩ := List.exists_cons_of_ne_nil hne
  obtain ⟨h, body, hlines, hblank⟩ := hbs b List.mem_cons_self
  exact ⟨h, body ++ bs'.flatMap (·.lines), by rw [List.flatMap_cons, hlines]; rfl, hblank⟩

/-! ## Whole blocks -/

/-- A block that is a stretch of some text, with braces that balance. -/
structure IsWhole (b : Block) : Prop where
  span : ∃ h body, b.IsSpan h body
  balanced : Line.depthOf b.lines = 0

/-- The blocks of a text whose braces balance are whole. -/
theorem isWhole_of_mem_proper {t : Text} (hbal : Line.depthOf (Text.lines t) = 0) {b : Block}
    (hb : b ∈ proper (partition t)) : b.IsWhole := by
  obtain ⟨i, e, h⟩ := exists_standsAt hb
  refine ⟨h.exists_isSpan, ?_⟩
  rcases h.depthOf_lines with hz | hend
  · exact hz
  · rw [h.split, hend, List.append_nil, Line.depthOf_append,
      show Line.depthOf ((Text.lines t).take i) = 0 from h.start.1, Int.zero_add] at hbal
    exact hbal

/-- The last line of the block closes a brace and brings the depth to zero. -/
def IsClosed (b : Block) : Prop :=
  Line.depthOf b.lines = 0 ∧ ∃ l ∈ b.lines.getLast?, 0 < Line.closes l

instance : DecidablePred IsClosed := fun _ => inferInstanceAs (Decidable (_ ∧ _))

/-- A whole block is not closed if and only if none of its lines closes it. -/
theorem IsWhole.not_isClosed_iff {b : Block} (hb : b.IsWhole) :
    ¬ b.IsClosed ↔ Line.Along (fun d l => ¬ Line.ClosesAt d l) 0 b.lines := by
  obtain ⟨h, body, hspan⟩ := hb.span
  obtain ⟨init, last, hlines⟩ : ∃ init last, b.lines = init ++ [last] :=
    ⟨_, _, (List.dropLast_append_getLast (by rw [hspan.lines]; exact List.cons_ne_nil _ _)).symm⟩
  have hunclosed := hspan.unclosed
  have hbal := hb.balanced
  rw [hlines, List.dropLast_concat] at hunclosed
  rw [hlines, Line.depthOf_append, Line.depthOf_cons, Line.depthOf_nil, Int.add_zero] at hbal
  -- The depth after the last line is zero, so that it closes the block if it closes a brace.
  rw [IsClosed, hb.balanced, hlines, Line.Along.append_iff, Line.Along.cons_iff, Line.ClosesAt,
    Int.zero_add, hbal, List.getLast?_concat]
  simp [hunclosed, Line.Along.nil]

/-- Blank lines after the header start no blocks, so that the block is still a stretch of some text,
    if no line but the last closes it. -/
theorem IsSpan.respaced {b : Block} {h : Line} {body body' : List Line} (hspan : b.IsSpan h body)
    (hinked : Line.inked (h :: body') = Line.inked b.lines)
    (hunclosed : Line.Along (fun d l => ¬ Line.ClosesAt d l) 0 (h :: body').dropLast) :
    ({ b with lines := h :: body' } : Block).IsSpan h body' := by
  have hblank := hspan.header.isBlankLine_eq_false
  rw [hspan.lines, Line.inked_cons_of_not_blank hblank,
    Line.inked_cons_of_not_blank hblank] at hinked
  refine ⟨rfl, ⟨hspan.header.kind, hspan.header.table, hspan.header.schema⟩, ?_, hunclosed⟩
  rw [← Line.Along.inked_iff Line.startsNone_of_blank, (List.cons.inj hinked).2,
    Line.Along.inked_iff Line.startsNone_of_blank]
  exact hspan.inner

/-- Blank lines close nothing. -/
theorem unclosed_congr {ls ls' : List Line} (h : Line.inked ls' = Line.inked ls) :
    Line.Along (fun d l => ¬ Line.ClosesAt d l) 0 ls' ↔
      Line.Along (fun d l => ¬ Line.ClosesAt d l) 0 ls := by
  rw [← Line.Along.inked_iff Line.not_closesAt_of_blank, h,
    Line.Along.inked_iff Line.not_closesAt_of_blank]

/-- A block is whole, and closed or not, whatever blank lines stand in it; if it is closed, none
    may follow its last line. -/
theorem IsWhole.respaced {b : Block} (hb : b.IsWhole) {ls : List Line}
    (hinked : Line.inked ls = Line.inked b.lines) (hhead : ls.head? = b.lines.head?)
    (hlast : b.IsClosed → ls.getLast? = b.lines.getLast?) :
    ({ b with lines := ls } : Block).IsWhole ∧
      (({ b with lines := ls } : Block).IsClosed ↔ b.IsClosed) := by
  obtain ⟨h, body, hspan⟩ := hb.span
  rw [hspan.lines, List.head?_cons] at hhead
  obtain ⟨body', rfl⟩ := List.head?_eq_some_iff.1 hhead
  have hbal : Line.depthOf (h :: body') = 0 := by
    rw [← Line.depthOf_inked, hinked, Line.depthOf_inked, hb.balanced]
  by_cases hc : b.IsClosed
  · -- The last line, which closes the block, is not blank.
    have hlast := hlast hc
    obtain ⟨-, last, hlast', hcloses⟩ := id hc
    rw [hlast'] at hlast
    obtain ⟨init', hinit'⟩ := List.getLast?_eq_some_iff.1 hlast
    obtain ⟨init, hinit⟩ := List.getLast?_eq_some_iff.1 hlast'
    have hinits : Line.inked init' = Line.inked init := by
      have hinked := hinked
      rw [hinit', hinit, Line.inked_append, Line.inked_append] at hinked
      exact List.append_cancel_right hinked
    have hunclosed := hspan.unclosed
    rw [hinit, List.dropLast_concat, ← unclosed_congr hinits] at hunclosed
    have hspan' := hspan.respaced hinked (by rwa [hinit', List.dropLast_concat])
    exact ⟨⟨⟨h, body', hspan'⟩, hbal⟩, iff_of_true ⟨hbal, last, hlast, hcloses⟩ hc⟩
  · -- An open block has no closing line, before and after.
    have hunclosed := (unclosed_congr hinked).2 (hb.not_isClosed_iff.1 hc)
    have hinit : Line.Along (fun d l => ¬ Line.ClosesAt d l) 0 (h :: body').dropLast := by
      rw [← List.dropLast_append_getLast (List.cons_ne_nil h body'),
        Line.Along.append_iff] at hunclosed
      exact hunclosed.1
    have hwhole : ({ b with lines := h :: body' } : Block).IsWhole :=
      ⟨⟨h, body', hspan.respaced hinked hinit⟩, hbal⟩
    exact ⟨hwhole, iff_of_false (hwhole.not_isClosed_iff.2 hunclosed) hc⟩

/-- The block with the empty line that follows it, which a block that is closed does not take. -/
def withGap (b : Block) : Block := if b.IsClosed then b else b.push []

/-- A gap of blank lines at the end leaves a block whole. -/
theorem IsWhole.withGap {b : Block} (hb : b.IsWhole) : b.withGap.IsWhole := by
  rw [Block.withGap]
  split
  · exact hb
  · next hc =>
    obtain ⟨h, body, hspan⟩ := hb.span
    refine (hb.respaced ?_ ?_ fun h => absurd h hc).1
    · rw [Line.inked_append]
      exact List.append_nil _
    · rw [hspan.lines]
      rfl

end Block

/-! ## Whole blocks in a text -/

namespace Partition

variable {p : Partition} {b : Block} {h : Line} {body rest : List Line}

/-- Lines that start and close no block join the block that is open. -/
theorem run_joined {d : Int} (hstarts : Line.Along Line.StartsNone d body)
    (hcloses : Line.Along (fun d l => ¬ Line.ClosesAt d l) d body) (started : Bool) :
    run ⟨some b, d, started⟩ (body ++ rest) =
      run ⟨some { b with lines := b.lines ++ body }, d + Line.depthOf body, started⟩ rest := by
  induction body generalizing b d with
  | nil => rw [List.append_nil, Line.depthOf_nil, Int.add_zero]; rfl
  | cons l body ih =>
    obtain ⟨hl, hstarts⟩ := Line.Along.cons_iff.1 hstarts
    obtain ⟨hc, hcloses⟩ := Line.Along.cons_iff.1 hcloses
    have hnone : d = 0 → Block.opened? (Text.trim l) = none := fun hz =>
      Line.opened?_trim_eq_none_iff.2 (hl hz)
    rw [List.cons_append, run_cons, step_of_joined (p := ⟨some b, d, started⟩) rfl hnone hc,
      List.nil_append, ih hstarts hcloses, Block.push, Line.depthOf_cons, ← Int.add_assoc]
    simp only [List.append_assoc, List.singleton_append]

/-- A header and lines that do not close its block are read as a block that is open. -/
theorem run_opened (hz : p.depth = 0) (hheader : b.HeadedBy h)
    (hinner : Line.Along Line.StartsNone (Line.depthChange h) body)
    (hunclosed : Line.Along (fun d l => ¬ Line.ClosesAt d l) 0 (h :: body)) :
    p.run (h :: body ++ rest) = p.flush ++ run ⟨some { b with lines := h :: body },
      Line.depthOf (h :: body), p.started || p.current.isSome⟩ rest := by
  obtain ⟨hc, hunclosed⟩ := Line.Along.cons_iff.1 hunclosed
  rw [Int.zero_add] at hunclosed
  have hc' : ¬ p.Closes h := by
    rw [Closes, hz]
    exact hc
  rw [List.cons_append, run_cons, step_of_opened hz hheader.opened?_eq hc',
    run_joined hinner hunclosed]
  rfl

/-- A whole block that is closed is found as it stands. -/
theorem run_closed (hz : p.depth = 0) (hb : b.IsWhole) (hc : b.IsClosed) :
    p.run (b.lines ++ rest) = p.flush ++ b :: run ⟨none, 0, true⟩ rest := by
  obtain ⟨h, body, hspan⟩ := hb.span
  obtain ⟨hbal, last, hlast, hcloses⟩ := hc
  have hunclosed := hspan.unclosed
  obtain ⟨kind, lines, table, schema⟩ := b
  obtain rfl : lines = h :: body := hspan.lines
  rcases List.eq_nil_or_concat body with rfl | ⟨init, l, rfl⟩
  · -- The header closes the block that it opens.
    obtain rfl : last = h := (Option.some.inj hlast).symm
    have hc : p.Closes last := by
      rw [Closes, hz, Int.zero_add]
      exact ⟨(Int.add_zero _).symm.trans hbal, hcloses⟩
    rw [List.singleton_append, run_cons, step_of_opened_closed hz hspan.header.opened?_eq hc,
      List.append_assoc]
    rfl
  · -- The lines up to the last one leave the block open, and the last one closes it.
    rw [List.concat_eq_append] at hlast hunclosed hbal ⊢
    have hinner := hspan.inner
    rw [List.concat_eq_append, Line.Along.append_iff, Line.Along.cons_iff] at hinner
    rw [← List.cons_append, List.getLast?_concat] at hlast
    obtain rfl : last = l := (Option.some.inj hlast).symm
    rw [← List.cons_append, List.dropLast_concat] at hunclosed
    rw [← List.cons_append, Line.depthOf_append, Line.depthOf_cons last, Line.depthOf_nil,
      Int.add_zero] at hbal
    have hnone : Line.depthOf (h :: init) = 0 → Block.opened? (Text.trim last) = none :=
      fun hz => Line.opened?_trim_eq_none_iff.2 (hinner.2.1 hz)
    rw [← List.cons_append, List.append_assoc, run_opened hz hspan.header hinner.1 hunclosed,
      List.singleton_append, run_cons, step_of_closed rfl hnone ⟨hbal, hcloses⟩]
    rfl

/-- A whole block that is not closed stays open. -/
theorem run_unclosed (hz : p.depth = 0) (hb : b.IsWhole) (hc : ¬ b.IsClosed) :
    p.run (b.lines ++ rest) =
      p.flush ++ run ⟨some b, 0, p.started || p.current.isSome⟩ rest := by
  obtain ⟨h, body, hspan⟩ := hb.span
  have hbal := hb.balanced
  obtain ⟨kind, lines, table, schema⟩ := b
  obtain rfl : lines = h :: body := hspan.lines
  have hunclosed := hb.not_isClosed_iff.1 hc
  rw [run_opened hz hspan.header hspan.inner hunclosed, hbal]

/-- A header ends the block that is open. -/
theorem run_heads (hrest : Line.Heads rest) (started : Bool) :
    run ⟨some b, 0, started⟩ rest = b :: run ⟨none, 0, true⟩ rest := by
  cases rest with
  | nil => rfl
  | cons l rest =>
    have hl := hrest l rfl
    rw [← Line.isSome_opened?_trim] at hl
    obtain ⟨c, hc⟩ := Option.isSome_iff_exists.1 hl
    by_cases hcl : Line.ClosesAt 0 l
    · rw [run_cons, run_cons, step_of_opened_closed (p := ⟨some b, 0, started⟩) rfl hc hcl,
        step_of_opened_closed (p := ⟨none, 0, true⟩) rfl hc hcl]
      rfl
    · rw [run_cons, run_cons, step_of_opened (p := ⟨some b, 0, started⟩) rfl hc hcl,
        step_of_opened (p := ⟨none, 0, true⟩) rfl hc hcl]
      simp [flush]

/-- A whole block that stands at depth zero before a header, or at the end, is found as it
    stands. -/
theorem run_whole (hz : p.depth = 0) (hb : b.IsWhole) (hrest : Line.Heads rest) :
    p.run (b.lines ++ rest) = p.flush ++ b :: run ⟨none, 0, true⟩ rest := by
  by_cases hc : b.IsClosed
  · exact run_closed hz hb hc
  · rw [run_unclosed hz hb hc, run_heads hrest]

/-- Outside of the blocks, lines without braces that are no headers have no effect on the proper
    blocks. -/
theorem proper_run_inert {ls : List Line} (hls : ∀ l ∈ ls, Line.IsInert l) (depth : Int)
    (started : Bool) : Block.proper (run ⟨none, depth, started⟩ (ls ++ rest)) =
      Block.proper (run ⟨none, depth, started⟩ rest) := by
  induction ls generalizing started with
  | nil => rfl
  | cons l ls ih =>
    obtain ⟨hl, ho, hc⟩ := hls l List.mem_cons_self
    have hdepth : Line.depthChange l = 0 := by rw [Line.depthChange, ho, hc]; rfl
    rw [List.cons_append, run_cons,
      step_of_alone (p := ⟨none, depth, started⟩) rfl fun _ => Line.opened?_trim_eq_none_iff.2 hl,
      Block.proper_append, proper_alone, hdepth, Int.add_zero, List.nil_append,
      ih fun k hk => hls k (List.mem_cons_of_mem l hk)]
    exact proper_run_started _ _ _ _ _

/-- An empty line outside of the blocks is in none. -/
theorem proper_run_nil_cons (depth : Int) (started : Bool) :
    Block.proper (run ⟨none, depth, started⟩ ([] :: rest)) =
      Block.proper (run ⟨none, depth, started⟩ rest) := by
  have hinert : ∀ l ∈ ([[]] : List Line), Line.IsInert l := fun l hl => by
    rw [List.mem_singleton.1 hl]
    exact Line.isInert_nil
  exact proper_run_inert hinert depth started

/-- A whole block that an empty line follows is found, with this line if it is not closed. -/
theorem proper_run_gap (hz : p.depth = 0) (hb : b.IsWhole) (hrest : Line.Heads rest) :
    Block.proper (p.run (b.lines ++ [] :: rest)) =
      Block.proper p.flush ++ b.withGap :: Block.proper (run ⟨none, 0, true⟩ rest) := by
  obtain ⟨_, _, hspan⟩ := hb.span
  have hkind := hspan.header.kind_ne_other
  by_cases hc : b.IsClosed
  · rw [run_closed hz hb hc, Block.withGap, if_pos hc, Block.proper_append,
      Block.proper_cons hkind, proper_run_nil_cons]
  · rw [run_unclosed hz hb hc, Block.withGap, if_neg hc, run_cons,
      step_of_joined rfl (fun _ => rfl) (not_closes rfl), List.nil_append, Block.proper_append]
    show _ ++ Block.proper (run ⟨some (b.push []), 0, _⟩ rest) = _
    rw [run_heads hrest, Block.proper_cons (b := b.push []) hkind]

end Partition

end DbmlRestore
