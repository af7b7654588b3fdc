import DbmlRestore.Block.Reorder
import DbmlRestore.Proofs.TableScan

/-!
# Blocks of a text

A line does one of a few things (`Partition.step_cases`): it opens a block, joins the one
that is open, closes it, or stands alone if there is none. So what holds of a block from its header
on, line by line, holds of the blocks that are complete, which they are at depth zero
(`Partition.forall_step`), and of all blocks of a run (`Partition.forall_run`).

The blocks of texts with a known shape follow as well: a header, lines without braces and a closing
line are one block (`Partition.run_block`), and a reference of one line is ended by the next one
(`Partition.run_refs`).
-/

namespace DbmlRestore

namespace Block

/-- The blocks but for the lines outside of them. -/
def proper (bs : List Block) : List Block := bs.filter (·.kind ≠ .other)

theorem proper_append (bs bs' : List Block) : proper (bs ++ bs') = proper bs ++ proper bs' :=
  List.filter_append ..

theorem proper_cons {b : Block} (h : b.kind ≠ .other) (bs : List Block) :
    proper (b :: bs) = b :: proper bs :=
  List.filter_cons_of_pos (decide_eq_true h)

theorem proper_singleton {b : Block} (h : b.kind ≠ .other) : proper [b] = [b] := proper_cons h []

/-- Only the remaining lines are left out of the proper blocks. -/
theorem ofKind_proper {k : BlockKind} (hk : k ≠ .other) (bs : List Block) :
    ofKind (proper bs) k = ofKind bs k := by
  rw [ofKind, proper, List.filter_filter]
  refine List.filter_congr fun b _ => ?_
  by_cases h : b.kind = k
  · simp [h, hk]
  · simp [h]

end Block

namespace Partition

variable {p : Partition} {b : Block} {l : Line} {ls : List Line}

/-! ## One line -/

/-- Whether a line closes a brace and brings the depth to zero. -/
def Closes (p : Partition) (l : Line) : Prop :=
  p.depth + Line.depthChange l = 0 ∧ 0 < Line.closes l

/-- What a line is outside of the blocks. -/
def alone (p : Partition) (l : Line) : List Block :=
  if !(Text.trim l).isEmpty then [.other l] else if p.started then [.other []] else []

theorem step_of_eq {ended alone closed : List Block} {q r s : Partition}
    (ho : p.openBlock l = (ended, q)) (hp : q.place l = (alone, r)) (hc : r.count l = (closed, s)) :
    p.step l = (ended ++ alone ++ closed, s) := by
  rw [step, ho]
  show (_ ++ (q.place l).1 ++ ((q.place l).2.count l).1, ((q.place l).2.count l).2) = _
  rw [hp, hc]

/-- A header at depth zero ends the open block and opens another one. -/
theorem openBlock_of_some (hz : p.depth = 0) (hb : Block.opened? (Text.trim l) = some b) :
    p.openBlock l =
      (p.flush, ⟨some b, p.depth, p.started || p.current.isSome⟩) := by
  rw [openBlock, if_pos hz, hb]

/-- Any other line leaves the open block as it is. -/
theorem openBlock_of_none (ho : p.depth = 0 → Block.opened? (Text.trim l) = none) :
    p.openBlock l = ([], p) := by
  rw [openBlock]
  by_cases hz : p.depth = 0
  · rw [if_pos hz, ho hz]
  · rw [if_neg hz]

/-- An open block takes the line. -/
theorem place_of_some (hcur : p.current = some b) :
    p.place l = ([], ⟨some (b.push l), p.depth, p.started⟩) := by
  rw [place, hcur]

/-- A closing line ends the open block, and the depth is zero after it. -/
theorem count_of_closes (hc : p.Closes l) (current : Option Block) (started : Bool) :
    count ⟨current, p.depth, started⟩ l =
      (current.toList, ⟨none, 0, started || current.isSome⟩) := by
  rw [Closes] at hc
  rw [count, if_pos hc, hc.1]
  rfl

/-- Any other line only changes the depth. -/
theorem count_of_not_closes (hc : ¬ p.Closes l) (current : Option Block) (started : Bool) :
    count ⟨current, p.depth, started⟩ l =
      ([], ⟨current, p.depth + Line.depthChange l, started⟩) := by
  rw [Closes] at hc
  rw [count, if_neg hc]

/-- A header at depth zero ends the block that is open and opens one. -/
theorem step_of_opened (hz : p.depth = 0) (hb : Block.opened? (Text.trim l) = some b)
    (hc : ¬ p.Closes l) :
    p.step l =
      (p.flush, ⟨some (b.push l), Line.depthChange l, p.started || p.current.isSome⟩) := by
  rw [step_of_eq (openBlock_of_some hz hb) (place_of_some rfl) (count_of_not_closes hc _ _), hz,
    Int.zero_add, List.append_nil, List.append_nil]

/-- A header at depth zero may close the block it opens. -/
theorem step_of_opened_closed (hz : p.depth = 0) (hb : Block.opened? (Text.trim l) = some b)
    (hc : p.Closes l) : p.step l = (p.flush ++ [b.push l], ⟨none, 0, true⟩) := by
  rw [step_of_eq (openBlock_of_some hz hb) (place_of_some rfl) (count_of_closes hc _ _),
    List.append_nil, Option.isSome_some, Bool.or_true]
  rfl

/-- Inside of a block, a line that closes no block joins it. -/
theorem step_of_joined (hcur : p.current = some b)
    (ho : p.depth = 0 → Block.opened? (Text.trim l) = none) (hc : ¬ p.Closes l) :
    p.step l = ([], ⟨some (b.push l), p.depth + Line.depthChange l, p.started⟩) :=
  step_of_eq (openBlock_of_none ho) (place_of_some hcur) (count_of_not_closes hc _ _)

/-- The line that closes a block is its last one. -/
theorem step_of_closed (hcur : p.current = some b)
    (ho : p.depth = 0 → Block.opened? (Text.trim l) = none) (hc : p.Closes l) :
    p.step l = ([b.push l], ⟨none, 0, true⟩) := by
  rw [step_of_eq (openBlock_of_none ho) (place_of_some hcur) (count_of_closes hc _ _),
    Option.isSome_some, Bool.or_true]
  rfl

/-- Outside of the blocks a line stands alone, or is left out. -/
theorem step_of_alone (hcur : p.current = none)
    (ho : p.depth = 0 → Block.opened? (Text.trim l) = none) :
    p.step l = (p.alone l,
      ⟨none, p.depth + Line.depthChange l, p.started || !(Text.trim l).isEmpty⟩) := by
  have hplace : p.place l =
      (p.alone l, ⟨none, p.depth, p.started || !(Text.trim l).isEmpty⟩) := by
    obtain ⟨current, depth, started⟩ := p
    cases hcur
    rw [place, alone]
    cases !(Text.trim l).isEmpty <;> cases started <;> rfl
  have hcount : ∀ started, count ⟨none, p.depth, started⟩ l =
      ([], ⟨none, p.depth + Line.depthChange l, started⟩) := fun started => by
    by_cases hc : p.Closes l
    · rw [count_of_closes hc, Option.isSome_none, Bool.or_false, hc.1]
      rfl
    · exact count_of_not_closes hc _ _
  rw [step_of_eq (openBlock_of_none ho) hplace (hcount _), List.append_nil]
  rfl

/-- What a line can do. -/
theorem step_cases (p : Partition) (l : Line) :
    (∃ b, p.depth = 0 ∧ Block.opened? (Text.trim l) = some b ∧
        (¬ p.Closes l ∧ p.step l =
            (p.flush, ⟨some (b.push l), Line.depthChange l, p.started || p.current.isSome⟩) ∨
          p.Closes l ∧ p.step l = (p.flush ++ [b.push l], ⟨none, 0, true⟩))) ∨
      (p.depth = 0 → Block.opened? (Text.trim l) = none) ∧
        ((∃ b, p.current = some b ∧
            (¬ p.Closes l ∧ p.step l =
                ([], ⟨some (b.push l), p.depth + Line.depthChange l, p.started⟩) ∨
              p.Closes l ∧ p.step l = ([b.push l], ⟨none, 0, true⟩))) ∨
          p.current = none ∧ p.step l = (p.alone l,
            ⟨none, p.depth + Line.depthChange l, p.started || !(Text.trim l).isEmpty⟩)) := by
  by_cases ho : p.depth = 0 → Block.opened? (Text.trim l) = none
  · refine .inr ⟨ho, ?_⟩
    cases hcur : p.current with
    | none => exact .inr ⟨rfl, step_of_alone hcur ho⟩
    | some b =>
      refine .inl ⟨b, rfl, ?_⟩
      by_cases hc : p.Closes l
      · exact .inr ⟨hc, step_of_closed hcur ho hc⟩
      · exact .inl ⟨hc, step_of_joined hcur ho hc⟩
  · rw [Classical.not_imp, ← ne_eq, Option.ne_none_iff_exists'] at ho
    obtain ⟨hz, b, hb⟩ := ho
    refine .inl ⟨b, hz, hb, ?_⟩
    by_cases hc : p.Closes l
    · exact .inr ⟨hc, step_of_opened_closed hz hb hc⟩
    · exact .inl ⟨hc, step_of_opened hz hb hc⟩

/-- The braces of the line are counted, whatever else it does. -/
theorem step_depth (p : Partition) (l : Line) :
    (p.step l).2.depth = p.depth + Line.depthChange l := by
  obtain ⟨b, hz, -, ⟨-, hstep⟩ | ⟨hc, hstep⟩⟩ | ⟨-, ⟨b, -, ⟨-, hstep⟩ | ⟨hc, hstep⟩⟩ |
    ⟨-, hstep⟩⟩ := step_cases p l <;> rw [hstep]
  · rw [hz, Int.zero_add]
  · exact hc.1.symm
  · exact hc.1.symm

/-- A line that closes no brace closes no block. -/
theorem not_closes (hc : Line.closes l = 0) : ¬ p.Closes l := fun h => by
  rw [Closes, hc] at h
  exact Nat.lt_irrefl 0 h.2

theorem run_cons (p : Partition) (l : Line) (ls : List Line) :
    p.run (l :: ls) = (p.step l).1 ++ (p.step l).2.run ls := rfl

/-- A line outside of the blocks is a block of its own, which is empty if the line is blank. -/
theorem mem_alone (hb : b ∈ p.alone l) : b = .other l ∨ b = .other [] := by
  rw [alone] at hb
  split at hb
  · exact .inl (List.mem_singleton.1 hb)
  · split at hb
    · exact .inr (List.mem_singleton.1 hb)
    · exact absurd hb List.not_mem_nil

/-- A line that stands alone is left over. -/
theorem kind_of_mem_alone (hb : b ∈ p.alone l) : b.kind = .other := by
  obtain rfl | rfl := mem_alone hb <;> rfl

/-- A line outside of the blocks is no proper block. -/
theorem proper_alone (p : Partition) (l : Line) : Block.proper (p.alone l) = [] :=
  List.filter_eq_nil_iff.2 fun b hb => by rw [kind_of_mem_alone hb]; exact nofun

theorem ofKind_append (bs bs' : List Block) (k : BlockKind) :
    Block.ofKind (bs ++ bs') k = Block.ofKind bs k ++ Block.ofKind bs' k := List.filter_append ..

/-- Whether there was a block already makes no difference to the proper blocks. -/
theorem proper_run_started (current : Option Block) (depth : Int) (started started' : Bool)
    (ls : List Line) :
    Block.proper (run ⟨current, depth, started⟩ ls) =
      Block.proper (run ⟨current, depth, started'⟩ ls) := by
  induction ls generalizing current depth started started' with
  | nil => rfl
  | cons l ls ih =>
    rw [run_cons, run_cons, Block.proper_append, Block.proper_append]
    obtain ⟨b, hz, hb, ⟨hc, hstep⟩ | ⟨hc, hstep⟩⟩ | ⟨ho, ⟨b, hcur, ⟨hc, hstep⟩ | ⟨hc, hstep⟩⟩ |
      ⟨hcur, hstep⟩⟩ := step_cases ⟨current, depth, started⟩ l
    · rw [hstep, step_of_opened (p := ⟨current, depth, started'⟩) hz hb hc]
      exact congrArg _ (ih _ _ _ _)
    · rw [hstep, step_of_opened_closed (p := ⟨current, depth, started'⟩) hz hb hc]
      exact congrArg _ (ih _ _ _ _)
    · rw [hstep, step_of_joined (p := ⟨current, depth, started'⟩) hcur ho hc]
      exact congrArg _ (ih _ _ _ _)
    · rw [hstep, step_of_closed (p := ⟨current, depth, started'⟩) hcur ho hc]
    · rw [hstep, step_of_alone (p := ⟨current, depth, started'⟩) hcur ho, proper_alone,
        proper_alone]
      exact congrArg _ (ih _ _ _ _)

/-- Whether there was a block already makes no difference to the blocks that are laid
    out. -/
theorem ofKind_run_started {k : BlockKind} (hk : k ≠ .other) (current : Option Block)
    (depth : Int) (started started' : Bool) (ls : List Line) :
    Block.ofKind (run ⟨current, depth, started⟩ ls) k =
      Block.ofKind (run ⟨current, depth, started'⟩ ls) k := by
  rw [← Block.ofKind_proper hk, proper_run_started current depth started started',
    Block.ofKind_proper hk]

/-! ## Properties of blocks -/

/-- What a line does to a property of the block that is open, which may speak of the depth, and to
    one of the blocks that are complete. A block is complete at depth zero, be it by a header or by
    a line that closes it. -/
theorem forall_step {H : Int → Block → Prop} {Q : Block → Prop}
    (hcur : ∀ b ∈ p.current, H p.depth b)
    (hopened : ∀ b, p.depth = 0 → Block.opened? (Text.trim l) = some b →
      H (Line.depthChange l) (b.push l))
    (hjoined : ∀ b ∈ p.current, H (p.depth + Line.depthChange l) (b.push l))
    (hdone : ∀ b, H 0 b → Q b)
    (halone : p.current = none → (p.depth = 0 → Block.opened? (Text.trim l) = none) →
      ∀ b ∈ p.alone l, Q b) :
    (∀ b ∈ (p.step l).1, Q b) ∧ ∀ b ∈ (p.step l).2.current, H (p.step l).2.depth b := by
  have hflush : p.depth = 0 → ∀ b ∈ p.flush, Q b := fun hz b hb =>
    hdone b (hz ▸ hcur b (Option.mem_toList.1 hb))
  obtain ⟨c, hz, hc, ⟨-, hstep⟩ | ⟨hcl, hstep⟩⟩ | ⟨ho, ⟨c, hc, ⟨-, hstep⟩ | ⟨hcl, hstep⟩⟩ |
    ⟨hnone, hstep⟩⟩ := step_cases p l <;> rw [hstep]
  · exact ⟨hflush hz, fun b hb => Option.some.inj hb ▸ hopened c hz hc⟩
  · have hchange : Line.depthChange l = 0 := by rw [← hcl.1, hz, Int.zero_add]
    refine ⟨List.forall_mem_append.2 ⟨hflush hz, ?_⟩, nofun⟩
    exact List.forall_mem_singleton.2 (hdone _ (hchange ▸ hopened c hz hc))
  · exact ⟨fun b hb => absurd hb List.not_mem_nil,
      fun b hb => Option.some.inj hb ▸ hjoined c hc⟩
  · exact ⟨List.forall_mem_singleton.2 (hdone _ (hcl.1 ▸ hjoined c hc)), nofun⟩
  · exact ⟨halone hnone ho, nofun⟩

/-- What each line gives of the blocks that it completes, a run gives of all of its blocks. The
    invariant speaks of the state and of the lines that follow. -/
theorem forall_run {I : Partition → List Line → Prop} {Q : Block → Prop}
    (hstep : ∀ p l ls, I p (l :: ls) → (∀ b ∈ (p.step l).1, Q b) ∧ I (p.step l).2 ls)
    (hend : ∀ p, I p [] → ∀ b ∈ p.current, Q b) (h : I p ls) : ∀ b ∈ p.run ls, Q b := by
  induction ls generalizing p with
  | nil => exact fun b hb => hend p h b (Option.mem_toList.1 hb)
  | cons l ls ih =>
    obtain ⟨hcompleted, hrest⟩ := hstep p l ls h
    rw [run_cons]
    exact List.forall_mem_append.2 ⟨hcompleted, ih hrest⟩

/-- The lines of the blocks are empty or lines of the text, and every block has a line. -/
theorem forall_mem_run {P : Line → Prop} (hnil : P []) (hls : ∀ l ∈ ls, P l)
    (hcur : ∀ c ∈ p.current, c.lines ≠ [] ∧ ∀ l ∈ c.lines, P l) :
    ∀ b ∈ p.run ls, b.lines ≠ [] ∧ ∀ l ∈ b.lines, P l := by
  refine forall_run (I := fun p ls =>
    (∀ l ∈ ls, P l) ∧ ∀ c ∈ p.current, c.lines ≠ [] ∧ ∀ l ∈ c.lines, P l) ?_ ?_ ⟨hls, hcur⟩
  · rintro p l ls ⟨hls, hcur⟩
    obtain ⟨hl, hls⟩ := List.forall_mem_cons.1 hls
    have hpush : ∀ c : Block, (∀ k ∈ c.lines, P k) →
        (c.push l).lines ≠ [] ∧ ∀ k ∈ (c.push l).lines, P k := fun c hc =>
      ⟨List.append_ne_nil_of_right_ne_nil _ (List.cons_ne_nil l []),
        List.forall_mem_append.2 ⟨hc, List.forall_mem_singleton.2 hl⟩⟩
    have halone : ∀ b ∈ p.alone l, b.lines ≠ [] ∧ ∀ k ∈ b.lines, P k := fun b hb => by
      obtain rfl | rfl := mem_alone hb
      · exact ⟨List.cons_ne_nil l [], List.forall_mem_singleton.2 hl⟩
      · exact ⟨List.cons_ne_nil [] [], List.forall_mem_singleton.2 hnil⟩
    have hstep := forall_step (l := l) (H := fun _ c => c.lines ≠ [] ∧ ∀ k ∈ c.lines, P k) hcur
      (fun c _ hc => hpush c (by rw [Line.lines_of_opened? hc]; exact List.forall_mem_nil _))
      (fun c hc => hpush c (hcur c hc).2) (fun _ hc => hc) fun _ _ => halone
    exact ⟨hstep.1, hls, hstep.2⟩
  · exact fun p h => h.2

/-! ## Blocks of known shape -/

/-- Lines without braces join a block that a brace holds open. -/
theorem run_body (hcur : p.current = some b) (hd : p.depth ≠ 0)
    (hls : ∀ l ∈ ls, Line.opens l = 0 ∧ Line.closes l = 0) (rest : List Line) :
    p.run (ls ++ rest) =
      run ⟨some { b with lines := b.lines ++ ls }, p.depth, p.started⟩ rest := by
  induction ls generalizing p b with
  | nil =>
    rw [List.append_nil, List.nil_append, ← hcur]
  | cons l ls ih =>
    obtain ⟨ho, hc⟩ := hls l List.mem_cons_self
    have hdepth : p.depth + Line.depthChange l = p.depth := by
      rw [Line.depthChange, ho, hc]
      exact Int.add_zero _
    rw [List.cons_append, run_cons, step_of_joined hcur (fun h => absurd h hd) (not_closes hc),
      hdepth]
    have hrest := ih (p := ⟨some (b.push l), p.depth, p.started⟩) rfl hd
      fun k hk => hls k (List.mem_cons_of_mem l hk)
    rw [List.nil_append, hrest, Block.push]
    simp only [List.append_assoc, List.singleton_append]

/-- A header that opens a brace, lines without braces and a line that closes the brace
    are one block. -/
theorem run_block {header : Line} (close : Line) (hcur : p.current = none) (hz : p.depth = 0)
    (hb : Block.opened? (Text.trim header) = some b) (ho : Line.opens header = 1)
    (hc : Line.closes header = 0) (hls : ∀ l ∈ ls, Line.opens l = 0 ∧ Line.closes l = 0)
    (hco : Line.opens close = 0) (hcc : Line.closes close = 1) (rest : List Line) :
    p.run (header :: ls ++ close :: rest) =
      { b with lines := b.lines ++ header :: ls ++ [close] } :: run ⟨none, 0, true⟩ rest := by
  have hheader : Line.depthChange header = 1 := by rw [Line.depthChange, ho, hc]; rfl
  have hclose : (1 : Int) + Line.depthChange close = 0 := by rw [Line.depthChange, hco, hcc]; rfl
  rw [List.cons_append, run_cons, step_of_opened hz hb (not_closes hc), flush, hcur, hheader]
  show run ⟨some (b.push header), 1, p.started || false⟩ (ls ++ close :: rest) = _
  rw [run_body rfl Int.one_ne_zero hls, run_cons, step_of_closed rfl
    (fun h => absurd h Int.one_ne_zero) ⟨hclose, by rw [hcc]; decide⟩, Block.push, Block.push]
  simp only [List.append_assoc, List.cons_append]
  rfl

/-- Empty lines outside of the blocks make no block that is laid out. -/
theorem ofKind_run_replicate_nil {k : BlockKind} (hk : k ≠ .other) (hcur : p.current = none)
    (n : Nat) (rest : List Line) :
    Block.ofKind (p.run (List.replicate n [] ++ rest)) k = Block.ofKind (p.run rest) k := by
  have hstep : p.step [] = (p.alone [], p) := by
    rw [step_of_alone hcur fun _ => rfl]
    obtain ⟨current, depth, started⟩ := p
    cases hcur
    cases started <;> simp [Line.depthChange, Line.opens, Line.closes, Text.trim, Text.dropEndWhile]
  have halone : Block.ofKind (p.alone []) k = [] :=
    List.filter_eq_nil_iff.2 fun b hb => by
      rw [kind_of_mem_alone hb, decide_eq_true_eq]
      exact hk.symm
  induction n with
  | zero => rfl
  | succ n ih =>
    rw [List.replicate_succ, List.cons_append, run_cons, hstep, ofKind_append, halone, ih]
    rfl

/-- Empty lines join a block that is open. -/
theorem run_replicate_nil_of_open (hcur : p.current = some b) (n : Nat) :
    p.run (List.replicate n []) = [{ b with lines := b.lines ++ List.replicate n [] }] := by
  induction n generalizing p b with
  | zero =>
    rw [List.replicate_zero, List.append_nil]
    show p.flush = _
    rw [flush, hcur]
    rfl
  | succ n ih =>
    rw [List.replicate_succ, run_cons, step_of_joined hcur (fun _ => rfl) (not_closes rfl)]
    show run _ (List.replicate n []) = _
    rw [ih rfl, Block.push]
    simp only [List.append_assoc, List.singleton_append]

/-- References of one line each end one another; the last one takes the empty lines that
    follow. -/
theorem run_refs {refs : List Line} {last : Line} (hz : p.depth = 0)
    (hrefs : ∀ r ∈ refs ++ [last],
      Block.opened? (Text.trim r) = some { kind := .ref, lines := [] } ∧
      Line.opens r = 0 ∧ Line.closes r = 0) (n : Nat) :
    p.run (refs ++ last :: List.replicate n []) =
      p.flush ++ refs.map (fun r => { kind := .ref, lines := [r] }) ++
        [{ kind := .ref, lines := last :: List.replicate n [] }] := by
  -- Each reference ends the block before it, and is itself left open.
  have hstep : ∀ (q : Partition), q.depth = 0 → ∀ r ∈ refs ++ [last], q.step r =
      (q.flush, ⟨some { kind := .ref, lines := [r] }, 0, q.started || q.current.isSome⟩) := by
    intro q hq r hr
    obtain ⟨hopen, ho, hc⟩ := hrefs r hr
    have hd : Line.depthChange r = 0 := by rw [Line.depthChange, ho, hc]; rfl
    rw [step_of_opened hq hopen (not_closes hc), hd]
    rfl
  clear hrefs
  induction refs generalizing p with
  | nil =>
    rw [List.nil_append, run_cons, hstep p hz last (List.mem_singleton_self _),
      run_replicate_nil_of_open rfl, List.map_nil, List.append_nil]
    rfl
  | cons r refs ih =>
    rw [List.cons_append, run_cons, hstep p hz r List.mem_cons_self,
      ih (p := ⟨some { kind := .ref, lines := [r] }, 0, _⟩) rfl fun q hq k hk =>
        hstep q hq k (List.mem_cons_of_mem r hk), List.map_cons]
    simp only [List.append_assoc]
    rfl

end Partition

end DbmlRestore
