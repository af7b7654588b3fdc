import DbmlRestore.Proofs.Comment.Rereading
import DbmlRestore.Proofs.Line.Quiet
import Mathlib.Data.List.Forall2

/-!
# Sites

A *site* (`Site`) is where the comments of a table are put: above one of its headers, or
at the opening of its body. The sites of a text (`Merging.sites`) hang on the scan alone, so
that merging comments into a text leaves its sites as they are (`Comment.sites_merge`), also
if the text has remarks of its own.

Above a line stand the comments of its sites (`Merging.above_eq_sites`). Reading them again
gives each site what was put there, as often as the site is met (`Merging.linesOn_records`).
-/

namespace DbmlRestore

/-- Where the comments of a table are put: above a header (`table`), or at the opening of a
    body (`field`). -/
structure Site where
  /-- The kind of the comments. -/
  kind : CommentKind
  /-- The table. -/
  table : Text
deriving Repr, DecidableEq

namespace Comment

/-- The lines of the comments for a site. -/
def linesOn (cs : List Comment) (x : Site) : List Line :=
  (textsOn cs x.kind x.table).flatMap Text.lines

theorem linesOn_append (cs cs' : List Comment) (x : Site) :
    linesOn (cs ++ cs') x = linesOn cs x ++ linesOn cs' x := by
  rw [linesOn, textsOn, List.filter_append, List.map_append, List.flatMap_append]
  rfl

theorem linesOn_eq_nil_of_forall {cs : List Comment} {x : Site}
    (h : ∀ c ∈ cs, ¬ (c.kind = x.kind ∧ c.anchor.table = some x.table)) : linesOn cs x = [] := by
  rw [linesOn, textsOn, List.filter_eq_nil_iff.2 fun c hc => by simpa using h c hc]
  rfl

/-- A site has no lines if there are no comments for it, as each comment has a line. -/
theorem linesOn_eq_nil_iff {cs : List Comment} {x : Site} :
    linesOn cs x = [] ↔ textsOn cs x.kind x.table = [] := by
  refine ⟨fun h => ?_, fun h => by rw [linesOn, h]; rfl⟩
  by_contra hne
  exact Text.flatMap_lines_ne_nil hne h

/-- Comments that are all for one site. -/
theorem linesOn_of_forall {cs : List Comment} {y : Site}
    (h : ∀ c ∈ cs, c.kind = y.kind ∧ c.anchor.table = some y.table) (x : Site) :
    linesOn cs x = if y = x then (cs.map (·.text)).flatMap Text.lines else [] := by
  split
  · next hyx =>
    subst hyx
    rw [linesOn, textsOn, List.filter_eq_self.2 fun c hc => by simpa using h c hc]
  · next hyx =>
    refine linesOn_eq_nil_of_forall fun c hc hcx => hyx ?_
    obtain ⟨hk, ht⟩ := h c hc
    cases y
    cases x
    exact congr (congrArg Site.mk (hk.symm.trans hcx.1)) (Option.some.inj (ht.symm.trans hcx.2))

theorem mem_grouped {record : Text → Comment} {ls : List Line} {c : Comment}
    (h : c ∈ grouped record ls) : c = record (Text.unlines ls) := by
  rw [grouped] at h
  split at h
  · exact absurd h List.not_mem_nil
  · exact List.mem_singleton.1 h

/-- The comment made of some lines has the lines. -/
theorem flatMap_lines_grouped {record : Text → Comment} (hrecord : ∀ t, (record t).text = t)
    {ls : List Line} (h : ∀ l ∈ ls, '\n' ∉ l) :
    ((grouped record ls).map (·.text)).flatMap Text.lines = ls := by
  cases ls with
  | nil => rfl
  | cons l ls =>
    rw [grouped, List.isEmpty_cons, if_neg Bool.false_ne_true, List.map_singleton, hrecord,
      List.flatMap_singleton, Text.lines_unlines_of_forall (List.cons_ne_nil l ls) h]

/-- At the end of a line, only inline comments are recorded. -/
theorem kind_of_mem_inlineOf {e : Extraction} {l : Line} {c : Comment} (h : c ∈ e.inlineOf l) :
    c.kind = .inline := by
  rw [Extraction.inlineOf] at h
  split at h
  · split at h
    · rw [List.mem_singleton.1 h]
      rfl
    · exact absurd h List.not_mem_nil
  · exact absurd h List.not_mem_nil

theorem newline_not_mem_linesOn {cs : List Comment} {x : Site} {r : Line}
    (hr : r ∈ linesOn cs x) : '\n' ∉ r := Text.newline_not_mem_flatMap hr

theorem isRemark_of_mem_linesOn {cs : List Comment} (hcs : ∀ c ∈ cs, c.IsPlain) {x : Site}
    {r : Line} (hr : r ∈ linesOn cs x) : Line.IsRemark r := by
  obtain ⟨t, ht, hr⟩ := List.mem_flatMap.1 hr
  obtain ⟨c, hc, -, -, rfl⟩ := exists_of_mem_textsOn ht
  exact (hcs c hc).remarks r hr

end Comment

namespace Merging

/-! ## The sites of a text -/

variable {m m' : Merging} {cs : List Comment} {l l' : Line} {ls ls' : List Line}

/-- The site at a line, if there is one. -/
def sitesAt (m : Merging) (l : Line) : List Site :=
  match Line.tableHeader? (Text.trim l) with
  | some h => [⟨.table, h.table⟩]
  | none =>
    match m.scan.bodyTable? with
    | some t => if m.filled then [] else [⟨.field, t⟩]
    | none => []

/-- The header of a table is the site of the comments above it. -/
theorem sitesAt_of_header {h : TableHeader} (hl : Line.tableHeader? (Text.trim l) = some h) :
    m.sitesAt l = [⟨.table, h.table⟩] := by
  rw [sitesAt, hl]

/-- Any other line is a site if it stands in a body that is still to be filled. -/
theorem sitesAt_of_none (hl : Line.tableHeader? (Text.trim l) = none) :
    m.sitesAt l =
      match m.scan.bodyTable? with
      | some t => if m.filled then [] else [⟨.field, t⟩]
      | none => [] := by
  rw [sitesAt, hl]

/-- The sites of the lines that follow. -/
def sites (m : Merging) : List Line → List Site
  | [] => []
  | l :: ls => m.sitesAt l ++ (m.next [] l).sites ls

/-- The state after a line does not hang on the comments that are put back. -/
theorem next_congr (cs cs' : List Comment) (l : Line) : m.next cs l = m.next cs' l := by
  rw [next_eq, next_eq]

theorem sites_cons (cs : List Comment) (l : Line) (ls : List Line) :
    m.sites (l :: ls) = m.sitesAt l ++ (m.next cs l).sites ls := by
  rw [sites, next_congr [] cs l]

/-- The sites of lines are found in two parts, whatever comments are merged. -/
theorem sites_append (cs : List Comment) (ls ls' : List Line) :
    m.sites (ls ++ ls') = m.sites ls ++ (m.after cs ls).sites ls' := by
  induction ls generalizing m with
  | nil => rfl
  | cons l ls ih =>
    rw [List.cons_append, sites_cons cs, ih, sites_cons cs, after_cons, List.append_assoc]

/-- States with the same sites to come. -/
structure Alike (m m' : Merging) : Prop where
  scan : m.scan.Alike m'.scan
  filled : m.filled = m'.filled

theorem Alike.refl (m : Merging) : Alike m m := ⟨.refl _, rfl⟩

namespace Alike

variable (hm : Alike m m') (hl : Line.Dressed l l')
include hm hl

/-- Runs that are alike have the same sites. -/
theorem sitesAt_eq : m'.sitesAt l' = m.sitesAt l := by
  rw [sitesAt, sitesAt, hl.continues.tableHeader?_eq, hm.scan.bodyTable?, hm.filled]

/-- Two runs that are alike go on alike, whatever comments they merge. -/
theorem next (cs cs' : List Comment) : Alike (m.next cs l) (m'.next cs' l') := by
  have hheader := hl.continues.tableHeader?_eq
  have hsee : m'.scan.see l' = m'.scan.see l := by rw [TableScan.see, TableScan.see, hheader]
  constructor
  · rw [next_scan, next_scan]
    exact (hm.scan.pass l).trans (m'.scan.alike_pass_of_continues hl.continues).symm
  · rw [next_eq, next_eq, hm.filled, hheader, hsee, (hm.scan.see l).bodyTable?]

end Alike

/-- Dressed lines have the sites of the lines. -/
theorem Alike.sites_eq (hm : Alike m m') (h : List.Forall₂ Line.Dressed ls ls') :
    m'.sites ls' = m.sites ls := by
  induction h generalizing m m' with
  | nil => rfl
  | cons hl _ ih => rw [sites, sites, hm.sitesAt_eq hl, ih (hm.next hl [] [])]

theorem forall₂_dressed_refl (ls : List Line) : List.Forall₂ Line.Dressed ls ls :=
  List.forall₂_same.2 fun l _ => .plain l

/-- The next line of a body that has not been filled is where it is filled. -/
theorem sites_of_unfilled {t : Text} (hb : m.scan.bodyTable? = some t) (hf : m.filled = false)
    (hm : m.scan.Alike m'.scan) (hf' : m'.filled = true)
    (hl : Line.tableHeader? (Text.trim l) = none) :
    m.sites (l :: ls) = ⟨.field, t⟩ :: m'.sites (l :: ls) := by
  have hb' : m'.scan.bodyTable? = some t := hm.bodyTable? ▸ hb
  have hnext : Alike (m'.next [] l) (m.next [] l) := by
    constructor
    · rw [next_scan, next_scan]
      exact hm.symm.pass l
    · rw [next_filled hl, next_filled hl, hb, hb', hf, hf']
      rfl
  rw [sites, sites, sitesAt_of_none hl, sitesAt_of_none hl, hb, hb', hf, hf',
    hnext.sites_eq (forall₂_dressed_refl ls)]
  rfl

/-- A brace that is open is closed by a solid line, so that one follows, which is no header. -/
theorem exists_solid_cons {d : Int} (hd : 0 < d) (hz : Line.AtZero Line.IsTableHeader d ls)
    (hbal : d + Line.depthOf ls = 0) :
    ∃ k ks, Line.solid ls = k :: ks ∧ Line.tableHeader? (Text.trim k) = none := by
  have hdepth := Line.depthOf_solid ls
  have hsolid := (Line.AtZero.solid_iff fun _ hk => hk.not_isTableHeader).2 hz
  cases hls : Line.solid ls with
  | nil =>
    rw [hls, Line.depthOf_nil] at hdepth
    omega
  | cons k ks =>
    rw [hls] at hsolid
    refine ⟨k, ks, rfl, ?_⟩
    rw [← Option.not_isSome_iff_eq_none]
    exact fun h => absurd (hsolid.head h) (Int.ne_of_gt hd)

/-- A quiet line can be left out, if a line that is no header follows wherever a brace is open: a
    body that opens at the quiet line opens at that one then. -/
theorem sites_cons_of_quiet (hq : Line.IsQuiet l)
    (hopen : 0 < m.scan.depth → ∃ k ks, ls = k :: ks ∧ Line.tableHeader? (Text.trim k) = none) :
    m.sites (l :: ls) = m.sites ls := by
  have ht := hq.tableHeader?_eq_none
  have hscan : m.scan.Alike (m.next [] l).scan := by
    rw [next_scan]
    exact (m.scan.alike_pass_of_quiet hq).symm
  rw [sites, sitesAt_of_none ht]
  -- Outside of the bodies, and in one that is filled, a quiet line changes nothing.
  cases hb : m.scan.bodyTable? with
  | none =>
    have hm : Alike m (m.next [] l) := by
      refine ⟨hscan, ?_⟩
      rw [next_filled ht, hb]
      exact (Bool.or_false _).symm
    exact hm.sites_eq (forall₂_dressed_refl _)
  | some t =>
    cases hf : m.filled with
    | true =>
      have hm : Alike m (m.next [] l) := by
        refine ⟨hscan, ?_⟩
        rw [next_filled ht, hf]
        rfl
      exact hm.sites_eq (forall₂_dressed_refl _)
    -- The body opens at the quiet line, and would at the next one, which is no header.
    | false =>
      have hf' : (m.next [] l).filled = true := by
        rw [next_filled ht, hb]
        exact Bool.or_true _
      have hd : 0 < m.scan.depth := by
        by_contra hd
        rw [TableScan.bodyTable?, if_neg hd] at hb
        cases hb
      obtain ⟨k, ks, rfl, hk⟩ := hopen hd
      exact (sites_of_unfilled hb hf hscan hf' hk).symm

/-- Leaving out quiet lines leaves the sites, as every brace is closed. -/
theorem sites_solid
    (hz : Line.AtZero Line.IsTableHeader m.scan.depth ls)
    (hbal : m.scan.depth + Line.depthOf ls = 0) : m.sites (Line.solid ls) = m.sites ls := by
  induction ls generalizing m with
  | nil => rfl
  | cons l ls ih =>
    have hz' := atZero_next [] hz
    have hdepth : (m.next [] l).scan.depth = m.scan.depth + Line.depthChange l := by
      rw [next_scan, TableScan.pass_depth]
    have hbal' : (m.next [] l).scan.depth + Line.depthOf ls = 0 := by
      rw [hdepth, Int.add_assoc, ← Line.depthOf_cons, hbal]
    have ih' := ih hz' hbal'
    by_cases hq : Line.IsQuiet l
    · rw [hq.depthChange_eq_zero, Int.add_zero] at hdepth
      rw [Line.solid_cons_of_quiet hq, sites, ← ih']
      refine (sites_cons_of_quiet hq fun hd => ?_).symm
      rw [← hdepth] at hd
      exact exists_solid_cons hd hz' hbal'
    · rw [Line.solid_cons_of_not_quiet hq, sites, sites, ih']

/-! ## Above the lines -/

/-- Above a line stand the comments of its sites. -/
theorem above_eq_sites (hz : (Line.tableHeader? (Text.trim l)).isSome → m.scan.depth = 0) :
    m.above cs l = (m.sitesAt l).flatMap (Comment.linesOn cs) := by
  cases hl : Line.tableHeader? (Text.trim l) with
  | some h =>
    rw [above_of_header hl (hz (by rw [hl]; rfl)), sitesAt_of_header hl, List.flatMap_singleton]
    rfl
  | none =>
    rw [above_of_none hl, sitesAt_of_none hl]
    cases m.scan.bodyTable? with
    | none => rfl
    | some t => cases m.filled <;> simp [Comment.linesOn]

theorem flatMap_above_dressings
    (hz : Line.AtZero Line.IsTableHeader m.scan.depth ls) :
    (m.dressings cs ls).flatMap (·.above) = (m.sites ls).flatMap (Comment.linesOn cs) := by
  induction ls generalizing m with
  | nil => rfl
  | cons l ls ih =>
    have hz' := atZero_next cs hz
    rw [dressings, List.flatMap_cons, ih hz', sites_cons cs, List.flatMap_append,
      above_eq_sites hz.head]

/-! ## What is read at the sites -/

/-- Lines above the header of a table are all on the table. -/
theorem linesOn_grouped_onTable {rs : List Line} (hnl : ∀ r ∈ rs, '\n' ∉ r) (t : Text)
    (x : Site) :
    Comment.linesOn (Comment.grouped (.onTable · t) rs) x =
      if (⟨.table, t⟩ : Site) = x then rs else [] := by
  rw [Comment.linesOn_of_forall (y := ⟨.table, t⟩) fun c hc => Comment.mem_grouped hc ▸ ⟨rfl, rfl⟩,
    Comment.flatMap_lines_grouped (fun _ => rfl) hnl]

/-- Lines in the body of a table are all there. -/
theorem linesOn_map_inBody {rs : List Line} (hnl : ∀ r ∈ rs, '\n' ∉ r) (t : Text)
    (x : Site) :
    Comment.linesOn (rs.map (.inBody · t)) x =
      if (⟨.field, t⟩ : Site) = x then rs else [] := by
  rw [Comment.linesOn_of_forall (y := ⟨.field, t⟩), List.map_map]
  · show (if _ then (rs.map id).flatMap Text.lines else _) = _
    rw [List.map_id, Text.flatMap_lines_of_forall hnl]
  · intro c hc
    obtain ⟨r, -, rfl⟩ := List.mem_map.1 hc
    exact ⟨rfl, rfl⟩

/-- A site is given the lines that stood there. -/
theorem linesOn_recordsAt (hz : (Line.tableHeader? (Text.trim l)).isSome → m.scan.depth = 0)
    {x : Site} (hx : x.kind ≠ .inline) :
    Comment.linesOn (m.recordsAt cs l) x =
      ((m.sitesAt l).filter (· = x)).flatMap (Comment.linesOn cs) := by
  have habove : m.above cs l = (m.sitesAt l).flatMap (Comment.linesOn cs) := above_eq_sites hz
  have hnl : ∀ r ∈ m.above cs l, '\n' ∉ r := fun r hr => Text.newline_not_mem_flatMap hr
  -- One site that is given its own lines.
  have hone : ∀ y : Site, (if y = x then Comment.linesOn cs y else []) =
      (([y] : List Site).filter (· = x)).flatMap (Comment.linesOn cs) := by
    intro y
    by_cases hyx : y = x <;> simp [hyx]
  have hend : Comment.linesOn (Extraction.inlineOf ⟨m.scan, true, []⟩ (m.kept cs l)) x = [] :=
    Comment.linesOn_eq_nil_of_forall fun c hc hcx =>
      hx (hcx.1.symm.trans (Comment.kind_of_mem_inlineOf hc))
  rw [recordsAt]
  cases hl : Line.tableHeader? (Text.trim l) with
  | some h =>
    rw [sitesAt_of_header hl, List.flatMap_singleton] at habove
    rw [sitesAt_of_header hl, ← hone, ← habove]
    exact linesOn_grouped_onTable hnl _ x
  | none =>
    rw [sitesAt_of_none hl] at habove ⊢
    show Comment.linesOn (_ ++ _) x = _
    rw [Comment.linesOn_append, hend, List.append_nil]
    cases hb : m.scan.bodyTable? with
    | none => rfl
    | some t =>
      rw [hb] at habove
      refine (linesOn_map_inBody hnl t x).trans ?_
      cases hf : m.filled with
      | true =>
        rw [hf] at habove
        rw [show m.above cs l = [] from habove, ite_self]
        rfl
      | false =>
        rw [hf] at habove
        rw [show m.above cs l = Comment.linesOn cs ⟨.field, t⟩ from
          habove.trans (List.flatMap_singleton ..)]
        exact hone ⟨.field, t⟩

/-- Each site is given the lines that stood there, as often as it is met. -/
theorem linesOn_records
    (hz : Line.AtZero Line.IsTableHeader m.scan.depth ls)
    {x : Site} (hx : x.kind ≠ .inline) :
    Comment.linesOn (m.records cs ls) x =
      ((m.sites ls).filter (· = x)).flatMap (Comment.linesOn cs) := by
  induction ls generalizing m with
  | nil => rfl
  | cons l ls ih =>
    have hz' := atZero_next cs hz
    rw [records, Comment.linesOn_append, ih hz', linesOn_recordsAt hz.head hx, sites_cons cs,
      List.filter_append, List.flatMap_append]

end Merging

/-! ## Merging keeps the sites -/

namespace Comment

variable {cs : List Comment} {t : Text}

theorem isQuiet_of_mem_top (hcs : ∀ c ∈ cs, c.IsPlain) {r : Line} (hr : r ∈ top cs) :
    Line.IsQuiet r := by
  rcases mem_top hcs hr with rfl | h
  · exact Line.isQuiet_nil
  · exact .inr h

theorem isQuiet_of_mem_bottom (hcs : ∀ c ∈ cs, c.IsPlain) {r : Line} (hr : r ∈ bottom cs) :
    Line.IsQuiet r := by
  rcases mem_bottom hcs hr with rfl | h
  · exact Line.isQuiet_nil
  · exact .inr h

/-- The lines of a merged text that are not quiet are those of the text, dressed. -/
theorem forall₂_solid_merge (hcs : ∀ c ∈ cs, c.IsPlain) :
    List.Forall₂ Line.Dressed (Line.solid (Text.lines t))
      (Line.solid (Text.lines (merge cs t))) := by
  -- Each dressed line takes the place of its line, and the remarks above it are quiet.
  have hdress : ∀ (ds : List Dressing), (∀ d ∈ ds, d.IsProper) →
      List.Forall₂ Line.Dressed (Line.solid (ds.map (·.line)))
        (Line.solid (ds.flatMap Dressing.lines)) := by
    intro ds hds
    induction ds with
    | nil => exact .nil
    | cons d ds ih =>
      have hd := hds d List.mem_cons_self
      have hrest := ih fun e he => hds e (List.mem_cons_of_mem d he)
      rw [List.map_cons, List.flatMap_cons, Dressing.lines, Line.solid_append, Line.solid_append,
        Line.solid_eq_nil fun r hr => .inr (hd.above r hr), List.nil_append]
      by_cases hq : Line.IsQuiet d.line
      · rw [Line.solid_cons_of_quiet hq,
          Line.solid_cons_of_quiet (hd.dressed.continues.isQuiet_iff.2 hq)]
        exact hrest
      · rw [Line.solid_cons_of_not_quiet hq,
          Line.solid_cons_of_not_quiet fun h => hq (hd.dressed.continues.isQuiet_iff.1 h)]
        exact .cons hd.dressed hrest
  rw [lines_merge hcs, Line.solid_append, Line.solid_append,
    Line.solid_eq_nil fun r hr => isQuiet_of_mem_top hcs hr,
    Line.solid_eq_nil fun r hr => isQuiet_of_mem_bottom hcs hr, List.nil_append, List.append_nil]
  have hproper : ∀ d ∈ Merging.start.dressings cs (Text.lines t), d.IsProper :=
    fun d hd => Merging.isProper_of_mem_dressings hcs hd
  have hsolid := hdress _ hproper
  rwa [Merging.map_line_dressings] at hsolid

/-- Plain comments are without braces, so that merging them keeps the depth. -/
theorem depthOf_merge (hcs : ∀ c ∈ cs, c.IsPlain) :
    Line.depthOf (Text.lines (merge cs t)) = Line.depthOf (Text.lines t) := by
  rw [← Line.depthOf_solid, ← Line.depthOf_solid (Text.lines t),
    Line.depthOf_dressed (forall₂_solid_merge hcs)]

/-- Merging comments leaves the headers at their depths. -/
theorem atZero_merge (hcs : ∀ c ∈ cs, c.IsPlain) {p : Line → Prop}
    (hq : ∀ l, Line.IsQuiet l → ¬ p l) (hd : ∀ {l l'}, Line.Dressed l l' → (p l' ↔ p l)) {d : Int} :
    Line.AtZero p d (Text.lines (merge cs t)) ↔ Line.AtZero p d (Text.lines t) := by
  rw [← Line.AtZero.solid_iff hq, Line.AtZero.dressed_iff hd (forall₂_solid_merge hcs),
    Line.AtZero.solid_iff hq]

/-- Merging plain comments moves no header of a table to another depth. -/
theorem atZero_tableHeader_merge (hcs : ∀ c ∈ cs, c.IsPlain) {d : Int} :
    Line.AtZero Line.IsTableHeader d (Text.lines (merge cs t)) ↔
      Line.AtZero Line.IsTableHeader d (Text.lines t) := by
  refine atZero_merge hcs (fun _ hl => hl.not_isTableHeader) fun h => ?_
  rw [Line.IsTableHeader, h.continues.tableHeader?_eq]

/-- Merging comments keeps the sites. -/
theorem sites_merge (hcs : ∀ c ∈ cs, c.IsPlain)
    (hz : Line.AtZero Line.IsTableHeader 0 (Text.lines t))
    (hbal : Line.depthOf (Text.lines t) = 0) :
    Merging.start.sites (Text.lines (merge cs t)) = Merging.start.sites (Text.lines t) := by
  have hz' := (atZero_tableHeader_merge hcs).2 hz
  have hbal' : Line.depthOf (Text.lines (merge cs t)) = 0 := (depthOf_merge hcs).trans hbal
  rw [← Merging.sites_solid (m := .start) hz' ((Int.zero_add _).trans hbal'),
    ← Merging.sites_solid (m := .start) hz ((Int.zero_add _).trans hbal),
    (Merging.Alike.refl .start).sites_eq (forall₂_solid_merge hcs)]

end Comment

end DbmlRestore
