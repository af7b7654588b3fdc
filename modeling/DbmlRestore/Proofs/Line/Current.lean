import DbmlRestore.Proofs.Block.Spans

/-!
# The current table

Which table a scan is in when it looks at a line can be said by the positions of lines alone: it is
that of the last header up to there, unless a line from this header on closes a brace and brings the
depth to zero (`Line.current?`). Nothing is asked of the lines; headers may stand at any depth, and
the depth may be negative.

The table so found is the one that the scan is in (`TableScan.table?_see_after`), and its depth is the
one before the line (`TableScan.after_depth_start`). So what is done at a line, with a scan or several
values along the way, is known from positions.
-/

namespace DbmlRestore

namespace Line

/-! ## Headers that are open -/

/-- Line `h` is the header of a table, and no line from it on closes the table before line `i`. -/
def IsOpenAt (ls : List Line) (i h : Nat) : Prop :=
  h ≤ i ∧ (∃ l ∈ ls[h]?, IsTableHeader l) ∧ ∀ k < i, h ≤ k → ¬ IsClosing ls k

instance (ls : List Line) (i : Nat) : DecidablePred (IsOpenAt ls i) := fun _ =>
  inferInstanceAs (Decidable (_ ∧ _))

/-- The header of the table that is current at line `i`: the last one that is open there. -/
def current? (ls : List Line) (i : Nat) : Option Nat :=
  ((List.range (i + 1)).filter (IsOpenAt ls i ·)).getLast?

/-- The table that is current at line `i`. -/
def tableAt? (ls : List Line) (i : Nat) : Option Text :=
  (current? ls i).bind fun h => ls[h]?.bind fun l => (tableHeader? (Text.trim l)).map (·.table)

variable {ls : List Line} {i h k : Nat} {l : Line}

/-- The last of the numbers below `n` that satisfy `p` is the greatest one. -/
theorem getLast?_filter_range_eq_some_iff {p : Nat → Bool} {n m : Nat} :
    ((List.range n).filter p).getLast? = some m ↔ IsGreatest {k | k < n ∧ p k = true} m := by
  induction n with
  | zero => exact iff_of_false nofun fun hm => Nat.not_lt_zero m hm.1.1
  | succ n ih =>
    rw [List.range_succ, List.filter_append]
    cases hp : p n with
    | true =>
      have hn : IsGreatest {k | k < n + 1 ∧ p k = true} n :=
        ⟨⟨Nat.lt_succ_self n, hp⟩, fun k hk => Nat.le_of_lt_succ hk.1⟩
      rw [List.filter_cons_of_pos hp, List.filter_nil, List.getLast?_concat, Option.some_inj]
      exact ⟨fun he => he ▸ hn, fun hm => hn.unique hm⟩
    | false =>
      have hset : {k | k < n + 1 ∧ p k = true} = {k | k < n ∧ p k = true} := by
        ext k
        refine and_congr_left fun hk => ⟨fun hlt => ?_, Nat.lt_succ_of_lt⟩
        refine Nat.lt_of_le_of_ne (Nat.le_of_lt_succ hlt) ?_
        rintro rfl
        exact Bool.noConfusion (hp.symm.trans hk)
      rw [List.filter_cons_of_neg (by rw [hp]; exact Bool.false_ne_true), List.filter_nil,
        List.append_nil, ih, hset]

/-- The header of the current table is the last one that is open. -/
theorem current?_eq_some_iff : current? ls i = some h ↔ IsGreatest {h | IsOpenAt ls i h} h := by
  have hset : {k | k < i + 1 ∧ decide (IsOpenAt ls i k) = true} = {h | IsOpenAt ls i h} := by
    ext k
    rw [Set.mem_ofPred_eq, Set.mem_ofPred_eq, decide_eq_true_eq]
    exact and_iff_right_of_imp fun hk => Nat.lt_succ_of_le hk.1
  rw [current?, getLast?_filter_range_eq_some_iff, hset]

/-- The current header stands above. -/
theorem le_of_current? (hc : current? ls i = some h) : h ≤ i :=
  (current?_eq_some_iff.1 hc).1.1

/-- The current header is one of a table. -/
theorem isTableHeader_of_current? (hc : current? ls i = some h) : ∃ l ∈ ls[h]?, IsTableHeader l :=
  (current?_eq_some_iff.1 hc).1.2.1

/-- A header is that of its own table. -/
theorem current?_of_isTableHeader (hl : ls[i]? = some l) (hheader : IsTableHeader l) :
    current? ls i = some i := by
  rw [current?_eq_some_iff]
  refine ⟨⟨Nat.le_refl i, ⟨l, hl, hheader⟩, fun k hk hik => ?_⟩, fun _ hopen => hopen.1⟩
  exact absurd hk (Nat.not_lt_of_le hik)

/-- From its header on, a table is current until the line up to which it is. -/
theorem current?_of_le (hc : current? ls i = some h) (hhk : h ≤ k) (hki : k ≤ i) :
    current? ls k = some h := by
  rw [current?_eq_some_iff] at hc ⊢
  obtain ⟨⟨-, hheader, hopen⟩, hgreatest⟩ := hc
  refine ⟨⟨hhk, hheader, fun j hj hhj => hopen j (Nat.lt_of_lt_of_le hj hki) hhj⟩, ?_⟩
  intro h' hh'
  by_contra hlt
  -- A later header would be open at line `i` as well.
  refine hlt (hgreatest ⟨hh'.1.trans hki, hh'.2.1, fun j hj hhj => ?_⟩)
  exact hopen j hj ((Nat.le_of_lt (Nat.lt_of_not_le hlt)).trans hhj)

/-- No other header follows while a table is current. -/
theorem not_isTableHeader_of_current? (hc : current? ls i = some h) (hhk : h < k) (hki : k ≤ i)
    (hl : ls[k]? = some l) : ¬ IsTableHeader l := fun hheader => by
  have hk := current?_of_le hc (Nat.le_of_lt hhk) hki
  rw [current?_of_isTableHeader hl hheader] at hk
  exact Nat.ne_of_gt hhk (Option.some.inj hk)

/-- The header of the table of a line that is none stands before the line. -/
theorem le_of_current?_succ (hl : ls[i + 1]? = some l) (hheader : ¬ IsTableHeader l)
    (hc : current? ls (i + 1) = some h) : h ≤ i := by
  refine Nat.le_of_lt_succ (Nat.lt_of_le_of_ne (le_of_current? hc) ?_)
  rintro rfl
  obtain ⟨m, hm, hmheader⟩ := isTableHeader_of_current? hc
  exact hheader (Option.some.inj (hl.symm.trans hm) ▸ hmheader)

/-! ## From line to line -/

/-- No table is current at the first line unless this is a header. -/
theorem current?_zero_of_not_isTableHeader (hl : ls[0]? = some l) (hheader : ¬ IsTableHeader l) :
    current? ls 0 = none := by
  have hnot : ¬ IsOpenAt ls 0 0 := by
    rintro ⟨-, ⟨m, hm, hmheader⟩, -⟩
    rw [hl, Option.mem_some_iff] at hm
    exact hheader (hm ▸ hmheader)
  show ([0].filter _).getLast? = none
  rw [List.filter_cons_of_neg (by rwa [decide_eq_true_eq])]
  rfl

/-- Of the lines that are no headers, each has the table of the one before it, unless that one
    closed the table. -/
theorem current?_succ_of_not_isTableHeader (hl : ls[i + 1]? = some l)
    (hheader : ¬ IsTableHeader l) :
    current? ls (i + 1) = if IsClosing ls i then none else current? ls i := by
  -- The line is no header, so that the current one stands above.
  have hlast : ¬ IsOpenAt ls (i + 1) (i + 1) := by
    rintro ⟨-, ⟨m, hm, hmheader⟩, -⟩
    rw [hl, Option.mem_some_iff] at hm
    exact hheader (hm ▸ hmheader)
  -- A header that was current still is, unless the last line has closed its table.
  have hbefore : ∀ h ∈ List.range (i + 1), decide (IsOpenAt ls (i + 1) h) =
      (decide (IsOpenAt ls i h) && !decide (IsClosing ls i)) := by
    intro h hh
    have hhi := Nat.le_of_lt_succ (List.mem_range.1 hh)
    rw [← decide_not, ← Bool.decide_and, decide_eq_decide]
    constructor
    · rintro ⟨-, hheader, hopen⟩
      exact ⟨⟨hhi, hheader, fun k hk => hopen k (Nat.lt_succ_of_lt hk)⟩,
        hopen i (Nat.lt_succ_self i) hhi⟩
    · rintro ⟨⟨-, hheader, hopen⟩, hnot⟩
      refine ⟨Nat.le_succ_of_le hhi, hheader, fun k hk hhk => ?_⟩
      rcases Nat.lt_succ_iff_lt_or_eq.1 hk with hk | rfl
      · exact hopen k hk hhk
      · exact hnot
  rw [current?, List.range_succ, List.filter_append,
    List.filter_cons_of_neg (by rwa [decide_eq_true_eq]), List.filter_nil, List.append_nil,
    List.filter_congr hbefore]
  split
  · next hclosing => simp [hclosing]
  · next hclosing => simp [hclosing, current?]

/-- The header of a table is on a line of this table. -/
theorem tableAt?_of_isTableHeader {header : TableHeader} (hl : ls[i]? = some l)
    (hheader : tableHeader? (Text.trim l) = some header) :
    tableAt? ls i = some header.table := by
  rw [tableAt?, current?_of_isTableHeader hl (by rw [IsTableHeader, hheader]; rfl),
    Option.bind_some, hl, Option.bind_some, hheader]
  rfl

theorem tableAt?_zero_of_none (hl : ls[0]? = some l) (hheader : tableHeader? (Text.trim l) = none) :
    tableAt? ls 0 = none := by
  rw [tableAt?, current?_zero_of_not_isTableHeader hl (by rw [IsTableHeader, hheader]; exact Bool.false_ne_true)]
  rfl

/-- A line that is no header has the table of the line before, unless that line closes it. -/
theorem tableAt?_succ_of_none (hl : ls[i + 1]? = some l)
    (hheader : tableHeader? (Text.trim l) = none) :
    tableAt? ls (i + 1) = if IsClosing ls i then none else tableAt? ls i := by
  rw [tableAt?, current?_succ_of_not_isTableHeader hl (by rw [IsTableHeader, hheader]; exact Bool.false_ne_true)]
  split
  · rfl
  · rfl

/-- A line has a current table if and only if it has the header of one. -/
theorem isSome_tableAt? : (tableAt? ls i).isSome = (current? ls i).isSome := by
  cases hc : current? ls i with
  | none => rw [tableAt?, hc]; rfl
  | some h =>
    obtain ⟨l, hl, hheader⟩ := isTableHeader_of_current? hc
    rw [Option.mem_def] at hl
    rw [tableAt?, hc, Option.bind_some, hl, Option.bind_some, Option.isSome_map]
    exact hheader

end Line

/-! ## The table of a scan -/

namespace TableScan

open Line

variable {ls : List Line} {i : Nat} {l : Line}

/-- The scan counts the depth of the lines that it has passed. -/
theorem after_depth_start (ls : List Line) (i : Nat) :
    (start.after (ls.take i)).depth = depthBefore ls i := by
  rw [after_depth, depthBefore]
  exact Int.zero_add _

theorem after_take_succ (hl : ls[i]? = some l) :
    start.after (ls.take (i + 1)) = (start.after (ls.take i)).pass l := by
  rw [List.take_add_one, hl, after_append]
  rfl

/-- A scan that looks at a line is in the table that is current there. -/
theorem table?_see_after (hl : ls[i]? = some l) :
    ((start.after (ls.take i)).see l).table? = tableAt? ls i := by
  induction i generalizing l with
  | zero =>
    cases hheader : tableHeader? (Text.trim l) with
    | some header => rw [see_of_header hheader, tableAt?_of_isTableHeader hl hheader]; rfl
    | none => rw [see_of_none hheader, tableAt?_zero_of_none hl hheader]; rfl
  | succ i ih =>
    cases hheader : tableHeader? (Text.trim l) with
    | some header => rw [see_of_header hheader, tableAt?_of_isTableHeader hl hheader]; rfl
    | none =>
      obtain ⟨hlen, -⟩ := List.getElem?_eq_some_iff.1 hl
      have hk : ls[i]? = some ls[i] := List.getElem?_eq_getElem (Nat.lt_of_succ_lt hlen)
      -- Whether the line closes is told from the depth that the scan has come to.
      have hclosing : IsClosing ls i ↔ ClosesAt (start.after (ls.take i)).depth ls[i] := by
        have hsplit : ls.take i ++ ls[i] :: ls.drop (i + 1) = ls := by
          rw [← List.drop_eq_getElem_cons, List.take_append_drop]
        have h := isClosing_append (ls.take i) (ls.drop (i + 1)) ls[i]
        rwa [hsplit, List.length_take, Nat.min_eq_left (by omega), ← depthBefore,
          ← after_depth_start] at h
      rw [see_of_none hheader, after_take_succ hk, tableAt?_succ_of_none hl hheader]
      split
      · next hc => exact pass_table?_of_closesAt (hclosing.1 hc)
      · next hc => rw [pass_table?_of_not_closesAt (mt hclosing.2 hc), ih hk]

/-- A line that is no header is looked at in the table that the lines before it have left. -/
theorem table?_after (hl : ls[i]? = some l) (hheader : tableHeader? (Text.trim l) = none) :
    (start.after (ls.take i)).table? = tableAt? ls i := by
  rw [← table?_see_after hl, see_of_none hheader]

/-- The table whose body a line is in. -/
theorem bodyTable?_see_after (hl : ls[i]? = some l) :
    ((start.after (ls.take i)).see l).bodyTable? =
      if 0 < depthBefore ls i then tableAt? ls i else none := by
  rw [bodyTable?, see_depth, after_depth_start, table?_see_after hl]

end TableScan

end DbmlRestore
