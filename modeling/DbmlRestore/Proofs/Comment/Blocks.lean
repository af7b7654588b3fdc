import DbmlRestore.Proofs.Block.Balanced
import DbmlRestore.Proofs.Comment.Counting

/-!
# Comments and blocks

A merged text is cut into blocks again. The comments at the ends of lines, and those that open
the body of a table, stand where the scan is in a table, and so inside of blocks
(`Comment.mem_enclosed_of_field`, `Comment.countP_isMarked_reorder`). If no remark stands
inside of a block, then all remarks are left out when the text is laid out again, and what is left
is the text with the comments at the ends of its lines (`Comment.reorder_merge`).
-/

namespace DbmlRestore

namespace TableScan

variable {s s' : TableScan} {ls : List Line}

theorem tabled_cons (s : TableScan) (l : Line) (ls : List Line) :
    s.tabled (l :: ls) =
      (if (s.see l).table?.isSome then [l] else []) ++ (s.pass l).tabled ls := rfl

theorem tabled_append (s : TableScan) (ls ls' : List Line) :
    s.tabled (ls ++ ls') = s.tabled ls ++ (s.after ls).tabled ls' := by
  induction ls generalizing s with
  | nil => rfl
  | cons l ls ih => rw [List.cons_append, tabled_cons, ih, tabled_cons, List.append_assoc]; rfl

/-- Remarks and blank lines leave a scan alike. -/
theorem alike_after_of_quiet (hls : ∀ l ∈ ls, Line.IsQuiet l) (s : TableScan) :
    Alike (s.after ls) s := by
  induction ls generalizing s with
  | nil => exact .refl s
  | cons l ls ih =>
    refine (ih (fun k hk => hls k (List.mem_cons_of_mem l hk)) (s.pass l)).trans ?_
    exact s.alike_pass_of_quiet (hls l List.mem_cons_self)

/-- In a table, quiet lines are lines of the table. -/
theorem tabled_of_quiet (hls : ∀ l ∈ ls, Line.IsQuiet l) (hs : s.table?.isSome) :
    s.tabled ls = ls := by
  induction ls generalizing s with
  | nil => rfl
  | cons l ls ih =>
    have hl := hls l List.mem_cons_self
    rw [tabled_cons, see_of_none hl.tableHeader?_eq_none, if_pos hs,
      ih fun k hk => hls k (List.mem_cons_of_mem l hk)]
    · rfl
    · rw [(s.alike_pass_of_quiet hl).table]
      exact hs

end TableScan

namespace Line

/-- Quiet lines have no comment at the end. -/
theorem isMarked_eq_false_of_quiet {l : Line} (h : IsQuiet l) : isMarked l = false := by
  rw [isMarked]
  rcases h with h | h
  · rw [(isBare_of_trim_eq_nil h).noMark]
    rfl
  · rw [h.isComment]
    exact Bool.and_false _

/-- None of the quiet lines has a comment at its end. -/
theorem filter_isMarked_of_quiet {ls : List Line} (h : ∀ l ∈ ls, IsQuiet l) :
    ls.filter isMarked = [] :=
  List.filter_eq_nil_iff.2 fun l hl => by rw [isMarked_eq_false_of_quiet (h l hl)]; exact nofun

/-- Blank lines have no comment at the end, so that leaving them out keeps the number of marked
    ones. -/
theorem countP_isMarked_inked (ls : List Line) :
    (inked ls).countP isMarked = ls.countP isMarked := by
  rw [inked, List.countP_filter]
  refine List.countP_congr fun l _ => ?_
  cases h : isBlankLine l with
  | false => rw [Bool.not_false, Bool.and_true]
  | true => rw [isMarked_eq_false_of_quiet (.inl (isBlankLine_iff.1 h))]; rfl

end Line

namespace Merging

variable {m : Merging} {cs : List Comment} {s : TableScan} {l : Line} {ls : List Line}

/-- A line that takes a comment stands in a table. -/
theorem table?_of_isMarked_kept (hl : Line.IsBare l) (h : Line.isMarked (m.kept cs l) = true) :
    (m.scan.see l).table?.isSome := by
  cases hs : (m.scan.see l).table? with
  | some t => rfl
  | none =>
    rw [kept_eq, hs, Line.isMarked] at h
    exact Bool.noConfusion ((Bool.and_eq_true_iff.1 h).1.symm.trans hl.noMark)

/-- The scan over the lines above a line, and over the line with its comment. -/
theorem tabled_dressing (hcs : ∀ c ∈ cs, c.IsPlain) (hs : s.Alike m.scan) (rest : List Line) :
    ∃ s' : TableScan, s'.Alike (m.scan.pass l) ∧
      s.tabled (m.above cs l ++ m.kept cs l :: rest) = s.tabled (m.above cs l) ++
        ((if (m.scan.see l).table?.isSome then [m.kept cs l] else []) ++ s'.tabled rest) := by
  have hd : Line.Dressed l (m.kept cs l) := kept_dressed hcs
  have hs' : (s.after (m.above cs l)).Alike m.scan :=
    (TableScan.alike_after_of_quiet (fun r hr => .inr (isRemark_of_mem_above hcs hr)) s).trans hs
  refine ⟨(s.after (m.above cs l)).pass (m.kept cs l), ?_, ?_⟩
  · exact (hs'.pass _).trans (m.scan.alike_pass_of_continues hd.continues)
  · have hsee : ((s.after (m.above cs l)).see (m.kept cs l)).table? = (m.scan.see l).table? := by
      rw [(hs'.see _).table, TableScan.see, TableScan.see, hd.continues.tableHeader?_eq]
    rw [TableScan.tabled_append, TableScan.tabled_cons, hsee]

/-- The marked lines of a dressed text stand in tables. -/
theorem filter_isMarked_dressings (hcs : ∀ c ∈ cs, c.IsPlain) (hls : ∀ l ∈ ls, Line.IsBare l)
    (hs : s.Alike m.scan) :
    (((m.dressings cs ls).flatMap Dressing.lines).filter Line.isMarked).Sublist
      (s.tabled ((m.dressings cs ls).flatMap Dressing.lines)) := by
  induction ls generalizing m s with
  | nil => exact .slnil
  | cons l ls ih =>
    obtain ⟨s', hs', htabled⟩ := tabled_dressing (l := l) hcs hs
      (((m.next cs l).dressings cs ls).flatMap Dressing.lines)
    rw [← next_scan m cs l] at hs'
    have hrest := ih (fun k hk => hls k (List.mem_cons_of_mem l hk)) hs'
    rw [dressings, List.flatMap_cons, Dressing.lines, List.append_assoc, List.singleton_append,
      htabled, List.filter_append,
      Line.filter_isMarked_of_quiet fun r hr => .inr (isRemark_of_mem_above hcs hr),
      ← List.singleton_append, List.filter_append]
    refine (List.nil_sublist _).append (List.Sublist.append ?_ hrest)
    -- A comment at the end of a line stands on the line of a field, and so in a table.
    cases hmark : Line.isMarked (m.kept cs l) with
    | false =>
      rw [List.filter_cons_of_neg (by rw [hmark]; decide)]
      exact List.nil_sublist _
    | true =>
      rw [List.filter_cons_of_pos hmark,
        if_pos (table?_of_isMarked_kept (hls l List.mem_cons_self) hmark)]
      exact List.Sublist.refl _

/-- The comments that open a body stand in the table. -/
theorem mem_tabled_of_field (hcs : ∀ c ∈ cs, c.IsPlain)
    (hz : Line.AtZero Line.IsTableHeader m.scan.depth ls)
    (hs : s.Alike m.scan) {x : Site} (hx : x ∈ m.sites ls) (hk : x.kind = .field) {r : Line}
    (hr : r ∈ Comment.linesOn cs x) :
    r ∈ s.tabled ((m.dressings cs ls).flatMap Dressing.lines) := by
  induction ls generalizing m s with
  | nil => exact absurd hx List.not_mem_nil
  | cons l ls ih =>
    have hz' := atZero_next cs hz
    obtain ⟨s', hs', htabled⟩ := tabled_dressing (l := l) hcs hs
      (((m.next cs l).dressings cs ls).flatMap Dressing.lines)
    rw [dressings, List.flatMap_cons, Dressing.lines, List.append_assoc, List.singleton_append,
      htabled]
    rw [sites_cons cs] at hx
    rcases List.mem_append.1 hx with hx | hx
    · refine List.mem_append_left _ ?_
      -- What is put into a body stands in the table that the body is of.
      have habove : r ∈ m.above cs l := by
        rw [above_eq_sites hz.head]
        exact List.mem_flatMap.2 ⟨x, hx, hr⟩
      have htable : s.table?.isSome := by
        rw [hs.table]
        rw [sitesAt] at hx
        split at hx
        · rw [List.mem_singleton.1 hx] at hk
          cases hk
        · split at hx
          · next t hb => rw [TableScan.table?_of_bodyTable? hb]; rfl
          · exact absurd hx List.not_mem_nil
      rw [TableScan.tabled_of_quiet (fun r hr => .inr (isRemark_of_mem_above hcs hr)) htable]
      exact habove
    · rw [← next_scan m cs l] at hs'
      exact List.mem_append_right _ (List.mem_append_right _ (ih hz' hs' hx))

end Merging

namespace Partition

variable {p : Partition} {ls ls' : List Line}

theorem taken_prefix (p : Partition) (ls ls' : List Line) : p.taken ls <+: p.taken (ls ++ ls') := by
  induction ls generalizing p with
  | nil => exact List.nil_prefix
  | cons l ls ih => exact List.prefix_append_right_inj _ |>.2 (ih (p.step l).2)

end Partition

namespace Comment

variable {cs : List Comment} {t : Text}

/-- The last line of the footer is a remark. -/
theorem isRemark_of_mem_getLast?_bottom (hcs : ∀ c ∈ cs, c.IsPlain) {r : Line}
    (hr : r ∈ (bottom cs).getLast?) : Line.IsRemark r := by
  rw [bottom_eq] at hr
  split at hr
  · exact nomatch hr
  · next hne =>
    rw [← List.singleton_append, List.getLast?_append_of_ne_nil _ hne] at hr
    exact isRemark_of_mem_linesOf hcs (List.mem_of_getLast? hr)

section

variable (hcs : ∀ c ∈ cs, c.IsPlain)
  (hz : Line.AtZero Line.IsTableHeader 0 (Text.lines t))
include hcs hz

/-- What a scan of a merged text sees in tables is inside of blocks. -/
theorem tabled_sublist_enclosed :
    (TableScan.start.tabled (Text.lines (merge cs t))).Sublist
      (Block.enclosed (Block.partition (merge cs t))) := by
  have hfollows : Partition.Follows .start .start := ⟨rfl, fun h => nomatch h⟩
  have hsub := hfollows.tabled_sublist ((atZero_tableHeader_merge hcs).2 hz)
  rwa [Block.partition, Partition.enclosed_run Partition.isLaid_start]

/-- The comments that open a body are inside of blocks. -/
theorem mem_enclosed_of_field {x : Site} (hx : x ∈ Merging.start.sites (Text.lines t))
    (hk : x.kind = .field) {r : Line} (hr : r ∈ linesOn cs x) :
    r ∈ Block.enclosed (Block.partition (merge cs t)) := by
  refine (tabled_sublist_enclosed hcs hz).subset ?_
  have hs := TableScan.alike_after_of_quiet (fun r hr => isQuiet_of_mem_top hcs hr) .start
  rw [lines_merge hcs, TableScan.tabled_append, TableScan.tabled_append]
  refine List.mem_append_left _ (List.mem_append_right _ ?_)
  exact Merging.mem_tabled_of_field (m := .start) hcs hz hs hx hk hr

/-- Laying out a merged text leaves no comment at the end of a line out. -/
theorem countP_isMarked_reorder (ht : ∀ l ∈ Text.lines t, Line.IsBare l)
    (order : List TableEntry) :
    (Text.lines (merge cs t)).countP Line.isMarked ≤
      (Text.lines (Block.reorder order (merge cs t))).countP Line.isMarked := by
  have hs := TableScan.alike_after_of_quiet (fun r hr => isQuiet_of_mem_top hcs hr) .start
  have hsub : ((Text.lines (merge cs t)).filter Line.isMarked).Sublist
      (TableScan.start.tabled (Text.lines (merge cs t))) := by
    rw [lines_merge hcs, TableScan.tabled_append, TableScan.tabled_append, List.filter_append,
      List.filter_append, Line.filter_isMarked_of_quiet fun r hr => isQuiet_of_mem_top hcs hr,
      Line.filter_isMarked_of_quiet fun r hr => isQuiet_of_mem_bottom hcs hr]
    refine List.Sublist.append (List.Sublist.append (List.nil_sublist _) ?_) (List.nil_sublist _)
    exact Merging.filter_isMarked_dressings (m := .start) hcs ht hs
  calc (Text.lines (merge cs t)).countP Line.isMarked
      = ((Text.lines (merge cs t)).filter Line.isMarked).countP Line.isMarked := by
        rw [List.countP_filter]
        exact List.countP_congr fun l _ => by rw [Bool.and_self]
    _ ≤ (Block.enclosed (Block.partition (merge cs t))).countP Line.isMarked :=
        (hsub.trans (tabled_sublist_enclosed hcs hz)).countP_le
    _ = (Text.lines (Block.reorder order (merge cs t))).countP Line.isMarked := by
        rw [← Line.countP_isMarked_inked, ← (Block.inked_reorder_perm order _).countP_eq,
          Line.countP_isMarked_inked]

end

/-- If no remark stands inside of a block, the blocks are those of the text with the comments at
    the ends of its lines. -/
theorem ofKind_partition_merge (hcs : ∀ c ∈ cs, c.IsPlain)
    (ht : ∀ l ∈ Text.lines t, Line.IsBare l)
    (hz : Line.AtZero Line.IsTableHeader 0 (Text.lines t))
    (hno : ∀ l ∈ Block.enclosed (Block.partition (merge cs t)),
      Line.isComment (Text.trim l) = false) {k : BlockKind} (hk : k ≠ .other) :
    Block.ofKind (Block.partition (merge cs t)) k =
      Block.ofKind (Block.partition (merge (endings cs) t)) k := by
  rw [Block.partition, Partition.enclosed_run Partition.isLaid_start, lines_merge hcs] at hno
  have hno' := fun l hl => hno l (List.mem_append_right _ hl)
  have hproper : ∀ d ∈ Merging.start.dressings cs (Text.lines t), d.IsProper :=
    fun d hd => Merging.isProper_of_mem_dressings hcs hd
  have hdressed := Dressing.filter_flatMap_lines hproper
    (fun d hd => (ht _ (Merging.line_mem_of_mem_dressings hd)).isComment_eq_false)
  -- The comments are remarks: those at the top and above lines, and no line is one itself.
  have hremark : ∀ l ∈ top cs ++
      (Merging.start.dressings cs (Text.lines t)).flatMap Dressing.lines,
      Line.isComment (Text.trim l) = true → Line.IsRemark l := by
    intro l hl hcomment
    rcases List.mem_append.1 hl with hl | hl
    · exact (mem_top hcs hl).resolve_left fun h => by rw [h] at hcomment; exact nomatch hcomment
    · obtain ⟨d, hd, hl⟩ := List.mem_flatMap.1 hl
      have hp := hproper d hd
      rcases List.mem_append.1 hl with hl | hl
      · exact hp.above l hl
      · rw [List.mem_singleton.1 hl, hp.dressed.continues.isComment_eq] at hcomment
        exact Bool.noConfusion
          ((ht _ (Merging.line_mem_of_mem_dressings hd)).isComment_eq_false.symm.trans hcomment)
  rw [Block.partition, Block.partition, lines_merge hcs, lines_merge_endings hcs hz,
    Partition.ofKind_run_append Partition.isLaid_start (fun r hr => isQuiet_of_mem_bottom hcs hr)
      (fun r hr => isRemark_of_mem_getLast?_bottom hcs hr) hno' hk,
    ← Partition.ofKind_run_filter Partition.isLaid_start hremark
      (fun l hl => hno' l ((Partition.taken_prefix _ _ _).subset hl)) hk,
    List.filter_append, hdressed, filter_top hcs]
  split
  · rfl
  · exact Partition.ofKind_run_quiet hk rfl Line.isQuiet_nil _

/-- If no remark stands inside of a block, laying the merged text out again in its own order
    gives what the text with the comments at the ends of its lines gives. -/
theorem reorder_merge (hcs : ∀ c ∈ cs, c.IsPlain) (ht : ∀ l ∈ Text.lines t, Line.IsBare l)
    (hz : Line.AtZero Line.IsTableHeader 0 (Text.lines t))
    (hno : ∀ l ∈ Block.enclosed (Block.partition (merge cs t)),
      Line.isComment (Text.trim l) = false) :
    Block.reorder (TableEntry.extract (merge cs t)) (merge cs t) =
      Block.reorder (TableEntry.extract (merge (endings cs) t)) (merge (endings cs) t) := by
  rw [extract_merge_order hcs, extract_merge_order (isPlain_of_mem_endings hcs)]
  exact Block.reorder_congr _ fun k hk => ofKind_partition_merge hcs ht hz hno hk

end Comment

end DbmlRestore
