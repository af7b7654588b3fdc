import DbmlRestore.Proofs.Comment.Dressing
import DbmlRestore.Proofs.Line.Current

/-!
# What merging emits

What merging makes of a line hangs on the place of the line alone (`Comment.emitted`): the comments
on the table if the line is its header, those inside of it if the line opens its body, and the line
itself, with the comment of its field. A body is opened by the first line of the current table that
a brace is open before (`Line.OpensBody`), be it the header itself; so each header has at most one
such line.

The merged text is joined from these pieces, between the comments of the schema's header and those
of its footer (`Comment.merge_eq_unlines_emitted`). No condition is put on the text: tables may be
repeated, headers may stand at any depth, and braces may be closed too often.
-/

namespace DbmlRestore

namespace Line

/-- Line `i` is the first line of its table that a brace is open before. -/
def OpensBody (ls : List Line) (i : Nat) : Prop :=
  ∃ h ∈ current? ls i, IsLeast {k | h ≤ k ∧ 0 < depthBefore ls k ∧ current? ls k = some h} i

variable {ls : List Line} {i h : Nat} {l : Line}

/-- The body opens at the first line after the header that stands below an open brace. -/
theorem opensBody_iff (hc : current? ls i = some h) :
    OpensBody ls i ↔ 0 < depthBefore ls i ∧ ∀ k < i, h ≤ k → ¬ 0 < depthBefore ls k := by
  constructor
  · rintro ⟨h', hh', ⟨-, hdepth, -⟩, hleast⟩
    obtain rfl : h = h' := Option.some.inj (hc.symm.trans hh')
    refine ⟨hdepth, fun k hki hhk hk => ?_⟩
    exact absurd hki (Nat.not_lt_of_le (hleast ⟨hhk, hk, current?_of_le hc hhk (Nat.le_of_lt hki)⟩))
  · rintro ⟨hdepth, hbefore⟩
    refine ⟨h, hc, ⟨le_of_current? hc, hdepth, hc⟩, fun k ⟨hhk, hk, _⟩ => ?_⟩
    by_contra hlt
    exact hbefore k (Nat.lt_of_not_le hlt) hhk hk

instance (ls : List Line) : DecidablePred (OpensBody ls) := fun i =>
  decidable_of_iff
    (∃ h ∈ current? ls i, 0 < depthBefore ls i ∧ ∀ k < i, h ≤ k → ¬ 0 < depthBefore ls k)
    ⟨fun ⟨_, hc, hi⟩ => (opensBody_iff hc).2 hi,
      fun hi => hi.imp fun _ hh => ⟨hh.1, (opensBody_iff hh.1).1 hi⟩⟩

end Line

/-! ## Pieces -/

namespace Comment

variable (cs : List Comment) (ls : List Line) (i : Nat) (l : Line)

/-- The comments that are put above a line: those on its table if it is a header. -/
def textsAbove : List Text :=
  match Line.tableHeader? (Text.trim l) with
  | some h => textsOn cs .table h.table
  | none => []

/-- The comments that are put inside of a table, where line `i` opens the body. -/
def textsInside : List Text :=
  if Line.OpensBody ls i then (Line.tableAt? ls i).toList.flatMap (textsOn cs .field) else []

/-- The comment that a line takes: that of the field it starts with, in the current table, unless
    it has a comment mark already. -/
def ending? : Option Text :=
  if Text.holds Line.commentMark l then none
  else (Line.tableAt? ls i).bind fun table =>
    (Line.fieldName? (Text.trim l)).bind fun field => inlineText? cs table field

/-- What becomes of line `i`, which is `l`: the comments put before it, and the line, with a comment
    at its end if it takes one. -/
def emitted : List Text :=
  textsAbove cs l ++ textsInside cs ls i ++ [(ending? cs ls i l).elim l (Line.withComment l)]

end Comment

/-! ## One line -/

namespace Merging

open Line

variable {cs : List Comment} {ls : List Line} {i h : Nat} {l : Line}

/-- The state before line `i`. -/
def before (cs : List Comment) (ls : List Line) (i : Nat) : Merging := start.after cs (ls.take i)

/-- Merging has come to where the scan of the lines before has come to. -/
theorem before_scan (cs : List Comment) (ls : List Line) (i : Nat) :
    (before cs ls i).scan = TableScan.start.after (ls.take i) := after_scan start cs _

theorem before_succ (hl : ls[i]? = some l) : before cs ls (i + 1) = (before cs ls i).next cs l := by
  rw [before, List.take_add_one, hl, after, List.foldl_append]
  rfl

/-- When a line is looked at, its table has been filled if and only if a line of the table before it
    stands inside of braces. -/
theorem beforeHeader_filled_iff (hl : ls[i]? = some l) (hc : current? ls i = some h) :
    ((before cs ls i).beforeHeader cs l).2.filled = true ↔
      ∃ k < i, h ≤ k ∧ 0 < depthBefore ls k := by
  induction i generalizing l with
  | zero =>
    have hfilled : ((before cs ls 0).beforeHeader cs l).2.filled = false := by
      rw [beforeHeader_filled]
      rfl
    rw [hfilled]
    exact iff_of_false nofun fun ⟨k, hk, _⟩ => Nat.not_lt_zero k hk
  | succ i ih =>
    by_cases hheader : IsTableHeader l
    · -- A header starts a table that has not been filled, and has no line before it.
      rw [current?_of_isTableHeader hl hheader, Option.some_inj] at hc
      rw [beforeHeader_filled, hheader, Bool.not_true, Bool.and_false]
      exact iff_of_false nofun fun ⟨k, hk, hhk, _⟩ => Nat.not_lt_of_le hhk (hc ▸ hk)
    · obtain ⟨m, hm⟩ : ∃ m, ls[i]? = some m :=
        ⟨_, List.getElem?_eq_getElem (Nat.lt_of_succ_lt (List.getElem?_eq_some_iff.1 hl).1)⟩
      have hhi := le_of_current?_succ hl hheader hc
      have hci := current?_of_le hc hhi (Nat.le_succ i)
      have hbody : ((before cs ls i).scan.see m).bodyTable?.isSome = true ↔
          0 < depthBefore ls i := by
        have htable : (tableAt? ls i).isSome = true := by rw [isSome_tableAt?, hci]; rfl
        rw [before_scan, TableScan.bodyTable?_see_after hm]
        split
        · next hi => exact iff_of_true htable hi
        · next hi => exact iff_of_false nofun hi
      have hfilled := ih hm hci
      rw [beforeHeader_filled] at hfilled
      rw [beforeHeader_filled, Bool.eq_false_iff.2 hheader, Bool.not_false, Bool.and_true,
        before_succ hm, next_eq, Bool.or_eq_true, hfilled, hbody]
      constructor
      · rintro (⟨k, hk, hhk, hdk⟩ | hi)
        · exact ⟨k, Nat.lt_succ_of_lt hk, hhk, hdk⟩
        · exact ⟨i, Nat.lt_succ_self i, hhi, hi⟩
      · rintro ⟨k, hk, hhk, hdk⟩
        rcases Nat.lt_succ_iff_lt_or_eq.1 hk with hk | rfl
        · exact .inl ⟨k, hk, hhk, hdk⟩
        · exact .inr hdk

/-- The comments above a line are those on the table that it is the header of. -/
theorem beforeHeader_fst (m : Merging) (cs : List Comment) (l : Line) :
    (m.beforeHeader cs l).1 = Comment.textsAbove cs l := by
  rw [beforeHeader, Comment.textsAbove]
  cases tableHeader? (Text.trim l) <;> rfl

/-- The comments inside of a table are put where its body is opened. -/
theorem openingBody_before (hl : ls[i]? = some l) :
    (((before cs ls i).beforeHeader cs l).2.openingBody cs).1 =
      Comment.textsInside cs ls i := by
  rw [openingBody_fst, beforeHeader_scan, before_scan, TableScan.bodyTable?_see_after hl,
    Comment.textsInside]
  cases hc : current? ls i with
  | none =>
    have htable : tableAt? ls i = none := by rw [tableAt?, hc]; rfl
    rw [htable, ite_self, Option.toList_none, List.flatMap_nil, ite_self, ite_self]
  | some h =>
    -- The body was filled if some line since the header stood below an open brace.
    have hfilled : ((before cs ls i).beforeHeader cs l).2.filled = true ↔
        ∃ k < i, h ≤ k ∧ 0 < depthBefore ls k := beforeHeader_filled_iff hl hc
    by_cases hi : 0 < depthBefore ls i
    · rw [if_pos hi]
      by_cases hk : ∃ k < i, h ≤ k ∧ 0 < depthBefore ls k
      · have hclosed : ¬ OpensBody ls i := fun hopen => by
          obtain ⟨k, hki, hhk, hdk⟩ := hk
          exact ((opensBody_iff hc).1 hopen).2 k hki hhk hdk
        rw [if_pos (hfilled.2 hk), if_neg hclosed]
      · have hopen : OpensBody ls i := (opensBody_iff hc).2
          ⟨hi, fun k hki hhk hdk => hk ⟨k, hki, hhk, hdk⟩⟩
        rw [if_neg (mt hfilled.1 hk), if_pos hopen]
    · have hclosed : ¬ OpensBody ls i := fun hopen => hi ((opensBody_iff hc).1 hopen).1
      rw [if_neg hi, if_neg hclosed, Option.toList_none, List.flatMap_nil, ite_self]

/-- The line takes the comment of its field in the current table. -/
theorem kept_before (hl : ls[i]? = some l) :
    (before cs ls i).kept cs l = (Comment.ending? cs ls i l).elim l (Line.withComment l) := by
  rw [kept_eq, before_scan, TableScan.table?_see_after hl, Comment.ending?]
  cases tableAt? ls i with
  | none => rw [Option.bind_none, ite_self]; rfl
  | some table =>
    cases fieldName? (Text.trim l) with
    | none => rw [Option.bind_some, Option.bind_none, ite_self]; rfl
    | some field =>
      rw [Option.bind_some, Option.bind_some]
      show (if _ then l else _) = _
      split
      · rfl
      · cases Comment.inlineText? cs table field <;> rfl

/-- What a line becomes, known from its place. -/
theorem step_before (hl : ls[i]? = some l) :
    ((before cs ls i).step cs l).1 = Comment.emitted cs ls i l := by
  rw [Comment.emitted, ← beforeHeader_fst (before cs ls i), ← openingBody_before hl,
    ← kept_before hl]
  rfl

/-! ## The whole text -/

/-- A run goes from line to line, each with the state that the lines before it have left. -/
theorem run_eq_flatMap (m : Merging) (cs : List Comment) (ls : List Line) :
    m.run cs ls = ls.zipIdx.flatMap fun x => ((m.after cs (ls.take x.2)).step cs x.1).1 := by
  induction ls generalizing m with
  | nil => rfl
  | cons l ls ih =>
    rw [run_cons, ih, List.zipIdx_cons, List.zipIdx_succ, List.flatMap_cons, List.flatMap_map]
    rfl

/-- The run over a text gives what becomes of each line. -/
theorem run_start (cs : List Comment) (ls : List Line) :
    start.run cs ls = ls.zipIdx.flatMap fun (l, i) => Comment.emitted cs ls i l := by
  rw [run_eq_flatMap]
  refine List.flatMap_congr fun x hx => ?_
  exact step_before (List.mem_zipIdx_iff_getElem?.1 hx)

end Merging

namespace Comment

variable {cs : List Comment} {kind : CommentKind}

theorem textsOf_eq_nil (hcs : ∀ c ∈ cs, c.kind ≠ kind) : textsOf cs kind = [] := by
  refine List.eq_nil_iff_forall_not_mem.2 fun text htext => ?_
  obtain ⟨c, hc, hkind, -⟩ := exists_of_mem_textsOf htext
  exact hcs c hc hkind

theorem textsOn_eq_nil (hcs : ∀ c ∈ cs, c.kind ≠ kind) (table : Text) :
    textsOn cs kind table = [] := by
  refine List.eq_nil_iff_forall_not_mem.2 fun text htext => ?_
  obtain ⟨c, hc, hkind, -⟩ := exists_of_mem_textsOn htext
  exact hcs c hc hkind

/-- Nothing is put before a line if all comments are for ends of lines. -/
theorem emitted_of_inline (hcs : ∀ c ∈ cs, c.kind = .inline) (ls : List Line) (i : Nat) (l : Line) :
    emitted cs ls i l = [(ending? cs ls i l).elim l (Line.withComment l)] := by
  have hother : ∀ kind ≠ .inline, ∀ c ∈ cs, c.kind ≠ kind := fun kind hkind c hc h =>
    hkind (h.symm.trans (hcs c hc))
  have habove : textsAbove cs l = [] := by
    rw [textsAbove]
    split
    · exact textsOn_eq_nil (hother .table nofun) _
    · rfl
  have hinside : textsInside cs ls i = [] := by
    rw [textsInside]
    split
    · exact List.flatMap_eq_nil_iff.2 fun table _ => textsOn_eq_nil (hother .field nofun) table
    · rfl
  rw [emitted, habove, hinside]
  rfl

/-- Without comments a line stays as it is. -/
theorem emitted_nil (ls : List Line) (i : Nat) (l : Line) : emitted [] ls i l = [l] := by
  have hending : ending? [] ls i l = none := by
    rw [ending?]
    split
    · rfl
    · cases Line.tableAt? ls i <;> cases Line.fieldName? (Text.trim l) <;> rfl
  rw [emitted_of_inline (fun _ hc => absurd hc List.not_mem_nil), hending]
  rfl

/-- A text is merged by its pieces, also if there are no comments. -/
theorem merge_eq_unlines_mergePieces (cs : List Comment) (t : Text) :
    merge cs t = Text.unlines (mergePieces cs t) := by
  rw [merge]
  split
  · next hcs =>
    obtain rfl := List.isEmpty_iff.1 hcs
    show t = Text.unlines (Merging.start.run [] (Text.lines t) ++ [])
    rw [List.append_nil, Merging.run_start]
    simp only [emitted_nil]
    rw [← List.map_eq_flatMap, List.zipIdx_map_fst, Text.unlines_lines]
  · rfl

/-- A merged text is joined from the comments of the schema's header and an empty line, what becomes
    of each line, and an empty line and the comments of the footer. -/
theorem merge_eq_unlines_emitted (cs : List Comment) (t : Text) :
    merge cs t = Text.unlines
      ((if textsOf cs .header = [] then [] else textsOf cs .header ++ [[]]) ++
        (Text.lines t).zipIdx.flatMap (fun (l, i) => emitted cs (Text.lines t) i l) ++
        (if textsOf cs .footer = [] then [] else [] :: textsOf cs .footer)) := by
  rw [merge_eq_unlines_mergePieces, mergePieces, Merging.run_start]
  simp only [List.isEmpty_iff]

end Comment

end DbmlRestore
