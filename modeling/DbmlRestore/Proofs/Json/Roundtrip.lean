import DbmlRestore.Proofs.Json.Reading
import DbmlRestore.Proofs.Json.Strings

/-!
# Reading back values

A value is *plain* (`Json.Plain`) if it has no floating-point number, its strings and
keys are texts, its keys are distinct, and its integers are of no more digits than are
read. In every layout the text of a plain value reads back as the value
(`Plain.parse_render`).

The reader needs fuel for each level of a value and for each of its items. The length of
the text is always enough, because every level and every item has a character of its own.
-/

namespace DbmlRestore

namespace Json

/-- A value that is read back as it was written. -/
inductive Plain : Json → Prop
  | null : Plain .null
  | bool (b : Bool) : Plain (.bool b)
  | int {n : Int} : (Text.ofNat n.natAbs).length ≤ digitLimit → Plain (.int n)
  | text (t : Text) : Plain (.ofText t)
  | array {vs : List Json} : (∀ v ∈ vs, Plain v) → Plain (.array vs)
  | object {ms : Members} : (∀ m ∈ ms, ∃ t, m.1 = .text t) → (ms.map Prod.fst).Nodup →
      (∀ m ∈ ms, Plain m.2) → Plain (.object ms)

/-! ## Layout -/

/-- A line break is passed over. -/
theorem skipSpace_lineBreak (i : Indent) (level : Nat) (t : Text) :
    skipSpace (i.lineBreak level ++ t) = skipSpace t := by
  cases i with
  | oneLine => rfl
  | spaces n =>
    have hspaces : ∀ c ∈ List.replicate (n * level) ' ', isSpace c = true := by
      intro c hc
      rw [List.eq_of_mem_replicate hc]
      rfl
    show skipSpace (List.replicate (n * level) ' ' ++ t) = _
    exact List.dropWhile_append_of_pos hspaces

/-- What stands between two items is a comma and blanks. -/
theorem separator_eq (i : Indent) (level : Nat) : ∃ s, i.separator level = ',' :: s ∧
    ∀ t, skipSpace (s ++ t) = skipSpace t := by
  cases i with
  | oneLine => exact ⟨[' '], rfl, fun _ => rfl⟩
  | spaces n => exact ⟨_, rfl, skipSpace_lineBreak (.spaces n) level⟩

/-- The end of a line break or of a separator does not go on with a number. -/
theorem stops_lineBreak (i : Indent) (level : Nat) {t : Text} (h : Stops t) :
    Stops (i.lineBreak level ++ t) := by
  cases i with
  | oneLine => exact h
  | spaces n => exact stops_cons

theorem renderAt_array (i : Indent) (level : Nat) (v : Json) (vs : List Json) :
    renderAt i level (.array (v :: vs)) =
      '[' :: i.lineBreak (level + 1) ++ renderAt i (level + 1) v ++ renderItems i (level + 1) vs ++
        i.lineBreak level ++ [']'] :=
  rfl

theorem renderAt_object (i : Indent) (level : Nat) (m : Wording × Json) (ms : Members) :
    renderAt i level (.object (m :: ms)) =
      '\x7b' :: i.lineBreak (level + 1) ++ renderMember i (level + 1) m ++
        renderMembers i (level + 1) ms ++ i.lineBreak level ++ ['\x7d'] :=
  rfl

theorem renderItems_eq_flatMap (i : Indent) (level : Nat) (vs : List Json) :
    renderItems i level vs = vs.flatMap fun v => i.separator level ++ renderAt i level v := by
  induction vs with
  | nil => rfl
  | cons v vs ih =>
    rw [List.flatMap_cons, ← ih]
    rfl

theorem renderMembers_eq_flatMap (i : Indent) (level : Nat) (ms : Members) :
    renderMembers i level ms = ms.flatMap fun m => i.separator level ++ renderMember i level m := by
  induction ms with
  | nil => rfl
  | cons m ms ih =>
    rw [List.flatMap_cons, ← ih]
    rfl

/-- A value starts with a character that is no blank, closes nothing and is no byte order
    mark. -/
theorem Plain.renderAt_cons {v : Json} (h : Plain v) (i : Indent) (level : Nat) :
    ∃ c t, renderAt i level v = c :: t ∧ isSpace c = false ∧ c ≠ ']' ∧ c ≠ '\uFEFF' := by
  cases h with
  | null => exact ⟨_, _, rfl, by decide, by decide, by decide⟩
  | bool b => cases b <;> exact ⟨_, _, rfl, by decide, by decide, by decide⟩
  | @int n _ =>
    obtain ⟨c, t, hct, hc | rfl⟩ := ofInt_cons n
    · exact ⟨c, t, hct, isSpace_of_isDigit hc, ne_of_isDigit hc, ne_of_isDigit hc⟩
    · exact ⟨_, t, hct, by decide, by decide, by decide⟩
  | text t => exact ⟨_, _, rfl, by decide, by decide, by decide⟩
  | @array vs _ => cases vs <;> exact ⟨_, _, rfl, by decide, by decide, by decide⟩
  | @object ms _ _ _ => cases ms <;> exact ⟨_, _, rfl, by decide, by decide, by decide⟩

/-! ## Lists -/

section Lists

variable {i : Indent} {level : Nat} {α : Type} {close : Char} {missing : Fault} {item : Reader α}
  {write : α → Text} {a : α} {as : List α} {rest : Text}

/-- The text of a list has a character for each item and the text of each item. -/
theorem length_le_flatMap_separator (i : Indent) (level : Nat) (f : α → Text) (xs : List α) :
    xs.length ≤ (xs.flatMap fun x => i.separator level ++ f x).length ∧
      ∀ x ∈ xs, (f x).length ≤ (xs.flatMap fun x => i.separator level ++ f x).length := by
  have hsep : 1 ≤ (i.separator level).length := by
    obtain ⟨s, hs, -⟩ := separator_eq i level
    rw [hs]
    exact Nat.le_add_left 1 s.length
  induction xs with
  | nil => exact ⟨Nat.le_refl 0, fun _ h => nomatch h⟩
  | cons x xs ih =>
    rw [List.flatMap_cons, List.length_append, List.length_append, List.length_cons]
    refine ⟨by omega, fun y hy => ?_⟩
    rcases List.mem_cons.1 hy with rfl | hy
    · omega
    · have := ih.2 y hy
      omega

/-- The text starts with a character that is no blank and does not close the list. -/
def Opens (close : Char) (t : Text) : Prop :=
  ∃ c u, t = c :: u ∧ isSpace c = false ∧ c ≠ close

variable (hclose : close ≠ ',') (hopens : ∀ x ∈ a :: as, Opens close (write x))
  (hitem : ∀ x ∈ a :: as, ∀ t, Stops t → item (write x ++ t) = .ok (x, t))
include hclose hopens hitem

/-- A list is read back from the texts of its items, as each item is. -/
theorem listOf_flatMap {fuel : Nat} {tail : Text} (hfuel : as.length < fuel) (hstops : Stops tail)
    (htail : skipSpace tail = close :: rest) :
    listOf close missing item fuel
        (write a ++ (as.flatMap (fun x => i.separator level ++ write x) ++ tail)) =
      .ok (a :: as, rest) := by
  induction as generalizing a fuel with
  | nil =>
    obtain ⟨fuel, rfl⟩ := Nat.exists_eq_add_one.2 hfuel
    exact (listOf_eq_ok_iff hclose).2
      ⟨a, tail, hitem a List.mem_cons_self tail hstops, .inl ⟨htail, rfl⟩⟩
  | cons b bs ih =>
    obtain ⟨fuel, rfl⟩ := Nat.exists_eq_add_one.2 (Nat.zero_lt_of_lt hfuel)
    obtain ⟨s, hsep, hskip⟩ := separator_eq i level
    obtain ⟨c, u, hcu, hspace, -⟩ := hopens b (by simp)
    let next := write b ++ (bs.flatMap (fun x => i.separator level ++ write x) ++ tail)
    have htext : (b :: bs).flatMap (fun x => i.separator level ++ write x) ++ tail =
        ',' :: (s ++ next) := by
      simp only [List.flatMap_cons, hsep, List.append_assoc, List.cons_append, next]
    -- The separator is skipped, as the next item does not begin with a space.
    have hnext : skipSpace (s ++ next) = next := by
      rw [hskip]
      simp only [next, hcu, List.cons_append]
      exact skipSpace_of_not_isSpace hspace
    rw [htext]
    refine (listOf_eq_ok_iff hclose).2 ⟨a, _, hitem a List.mem_cons_self _ stops_cons,
      .inr ⟨_, b :: bs, skipSpace_of_not_isSpace (by decide), ?_, rfl⟩⟩
    rw [hnext]
    exact ih (fun x hx => hopens x (List.mem_cons_of_mem a hx))
      (fun x hx => hitem x (List.mem_cons_of_mem a hx)) (Nat.lt_of_succ_lt_succ hfuel)

/-- So is one on lines of its own. -/
theorem enclosed_flatMap (hspace : isSpace close = false)
    (hstops : ∀ {t}, Stops (close :: t)) (outer : Nat) :
    enclosed close missing item (i.lineBreak level ++ (write a ++
        (as.flatMap (fun x => i.separator level ++ write x) ++
          (i.lineBreak outer ++ close :: rest)))) = .ok (a :: as, rest) := by
  obtain ⟨c, u, hcu, hc, hne⟩ := hopens a List.mem_cons_self
  have hcount := (length_le_flatMap_separator i level write as).1
  refine (enclosed_eq_iff ..).2 (.inr ?_)
  rw [skipSpace_lineBreak, hcu, List.cons_append, skipSpace_of_not_isSpace hc, ← List.cons_append,
    ← hcu]
  refine ⟨?_, listOf_flatMap hclose hopens hitem ?_ (stops_lineBreak i outer hstops) ?_⟩
  · rw [hcu]
    exact firstIs_cons.2 hne
  · rw [hcu]
    simp only [List.length_append, List.length_cons]
    omega
  · rw [skipSpace_lineBreak]
    exact skipSpace_of_not_isSpace hspace

end Lists

/-! ## Members -/

/-- A quoted text is read as its code units. -/
theorem stringRest_quote (start t rest : Text) :
    stringRest start ((t.flatMap escapeChar ++ ['"']) ++ rest) = .ok (t.flatMap units, rest) := by
  rw [List.append_assoc]
  exact stringRest_flatMap_escapeChar start t rest

theorem memberKey_quote (k t : Text) :
    memberKey (quote (.text k) ++ ':' :: ' ' :: t) = .ok (.text k, skipSpace t) := by
  show (stringRest _ ((k.flatMap escapeChar ++ ['"']) ++ _) >>= _) = _
  rw [stringRest_quote]
  show Except.ok (wordingOf _, _) = _
  rw [wordingOf_flatMap_units]
  rfl

/-- Inserting distinct keys one after the other appends them. -/
theorem foldl_insert_eq_append {acc ms : Members} (h : ((acc ++ ms).map Prod.fst).Nodup) :
    ms.foldl (fun acc (k, v) => Members.insert k v acc) acc = acc ++ ms := by
  -- A key that is not there yet is put at the end.
  have hinsert : ∀ {k : Wording} {v : Json} {acc : Members}, k ∉ acc.map Prod.fst →
      Members.insert k v acc = acc ++ [(k, v)] := by
    intro k v acc hk
    induction acc with
    | nil => rfl
    | cons m acc ih =>
      rw [List.map_cons, List.mem_cons, not_or] at hk
      obtain ⟨k', v'⟩ := m
      rw [Members.insert, if_neg (Ne.symm hk.1), ih hk.2]
      rfl
  induction ms generalizing acc with
  | nil => exact (List.append_nil acc).symm
  | cons m ms ih =>
    have hk : m.1 ∉ acc.map Prod.fst := by
      rw [List.map_append, List.map_cons, List.nodup_append] at h
      exact fun hm => h.2.2 _ hm _ List.mem_cons_self rfl
    show ms.foldl _ (Members.insert m.1 m.2 acc) = _
    rw [hinsert hk, ih] <;> rw [List.append_assoc]
    · rfl
    · exact h

/-! ## Values -/

section Values

variable {i : Indent} {level : Nat}

/-- An item is shorter than the array that it is in, which is the fuel for reading it. -/
theorem length_lt_array {v w : Json} {vs : List Json} (h : w ∈ v :: vs) :
    (renderAt i (level + 1) w).length < (renderAt i level (.array (v :: vs))).length := by
  have hitems := (length_le_flatMap_separator i (level + 1) (renderAt i (level + 1)) vs).2 w
  rw [← renderItems_eq_flatMap] at hitems
  simp only [renderAt_array, List.length_append, List.length_cons, List.length_nil]
  rcases List.mem_cons.1 h with rfl | h
  · omega
  · have := hitems h
    omega

/-- A member is shorter than the object that it is in, which is the fuel for reading it. -/
theorem length_lt_object {m x : Wording × Json} {ms : Members} (h : x ∈ m :: ms) :
    (renderAt i (level + 1) x.2).length < (renderAt i level (.object (m :: ms))).length := by
  have hmembers := (length_le_flatMap_separator i (level + 1) (renderMember i (level + 1)) ms).2 x
  have hle : (renderAt i (level + 1) x.2).length ≤ (renderMember i (level + 1) x).length := by
    obtain ⟨k, v⟩ := x
    show _ ≤ (quote k ++ ':' :: ' ' :: renderAt i (level + 1) v).length
    simp only [List.length_append, List.length_cons]
    omega
  rw [← renderMembers_eq_flatMap] at hmembers
  simp only [renderAt_object, List.length_append, List.length_cons, List.length_nil]
  rcases List.mem_cons.1 h with rfl | h
  · omega
  · have := hmembers h
    omega

variable {fuel : Nat} {rest : Text}

/-- An array is read back if its items are. -/
theorem value_renderAt_array {v : Json} {vs : List Json} (hplain : ∀ w ∈ v :: vs, Plain w)
    (hitem : ∀ w ∈ v :: vs, ∀ t, Stops t →
      value fuel (renderAt i (level + 1) w ++ t) = .ok (w, t)) :
    value (fuel + 1) (renderAt i level (.array (v :: vs)) ++ rest) =
      .ok (.array (v :: vs), rest) := by
  have hopens : ∀ w ∈ v :: vs, Opens ']' (renderAt i (level + 1) w) := fun w hw => by
    obtain ⟨c, t, hct, hspace, hclose, -⟩ := (hplain w hw).renderAt_cons i (level + 1)
    exact ⟨c, t, hct, hspace, hclose⟩
  rw [renderAt_array, renderItems_eq_flatMap]
  simp only [List.append_assoc, List.cons_append, List.nil_append, value_bracket]
  exact map_eq_ok_iff.2
    ⟨_, enclosed_flatMap (by decide) hopens hitem (by decide) stops_cons level, rfl⟩

/-- An object is read back if its values are and no key is there twice. -/
theorem value_renderAt_object {m : Wording × Json} {ms : Members}
    (hkeys : ∀ x ∈ m :: ms, ∃ t, x.1 = .text t) (hnodup : ((m :: ms).map Prod.fst).Nodup)
    (hplain : ∀ x ∈ m :: ms, Plain x.2)
    (hitem : ∀ x ∈ m :: ms, ∀ t, Stops t →
      value fuel (renderAt i (level + 1) x.2 ++ t) = .ok (x.2, t)) :
    value (fuel + 1) (renderAt i level (.object (m :: ms)) ++ rest) =
      .ok (.object (m :: ms), rest) := by
  have hopens : ∀ x ∈ m :: ms, Opens '\x7d' (renderMember i (level + 1) x) := by
    rintro ⟨k, v⟩ hx
    obtain ⟨k, rfl⟩ := hkeys _ hx
    exact ⟨_, _, rfl, by decide, by decide⟩
  -- A member starts with its key, which is a string and followed by its value.
  have hpair : ∀ x ∈ m :: ms, ∀ t, Stops t →
      pair (value fuel) (renderMember i (level + 1) x ++ t) = .ok (x, t) := by
    rintro ⟨k, v⟩ hx t ht
    obtain ⟨k, rfl⟩ := hkeys _ hx
    obtain ⟨c, u, hcu, hspace, -⟩ := (hplain _ hx).renderAt_cons i (level + 1)
    have hkey : memberKey (renderMember i (level + 1) (.text k, v) ++ t) =
        .ok (.text k, renderAt i (level + 1) v ++ t) := by
      show memberKey (quote (.text k) ++ ':' :: ' ' :: renderAt i (level + 1) v ++ t) = _
      rw [List.append_assoc]
      show memberKey (_ ++ ':' :: ' ' :: (renderAt i (level + 1) v ++ t)) = _
      rw [memberKey_quote, hcu]
      exact congrArg (fun t => Except.ok (Wording.text k, t)) (skipSpace_of_not_isSpace hspace)
    exact bind_eq_ok_iff.2 ⟨_, hkey, bind_eq_ok_iff.2 ⟨_, hitem _ hx t ht, rfl⟩⟩
  rw [renderAt_object, renderMembers_eq_flatMap]
  simp only [List.append_assoc, List.cons_append, List.nil_append, value_brace]
  refine map_eq_ok_iff.2
    ⟨_, enclosed_flatMap (by decide) hopens hpair (by decide) stops_cons level, ?_⟩
  rw [@foldl_insert_eq_append [] (m :: ms) hnodup]
  rfl

end Values

/-- A plain value is read back from its text, if what follows does not go on with a
    number. -/
theorem Plain.value_renderAt {v : Json} (h : Plain v) : ∀ {i : Indent} {level fuel : Nat}
    {rest : Text}, (renderAt i level v).length ≤ fuel → Stops rest →
      value fuel (renderAt i level v ++ rest) = .ok (v, rest) := by
  induction h with
  | null =>
    intro i level fuel rest hfuel _
    obtain ⟨fuel, rfl⟩ := Nat.exists_eq_add_of_le' hfuel
    rfl
  | bool b =>
    intro i level fuel rest hfuel _
    cases b <;> obtain ⟨fuel, rfl⟩ := Nat.exists_eq_add_of_le' hfuel <;> rfl
  | @int n hn =>
    intro i level fuel rest hfuel hrest
    obtain ⟨c, t, hct, hc⟩ := ofInt_cons n
    have hlen : (c :: t).length ≤ fuel := hct ▸ hfuel
    -- An integer starts with a digit or a sign, and so as an atomic value.
    have hnumeric : Numeric (Text.ofInt n ++ rest) := by
      rw [hct]
      exact firstIs_cons.2 hc
    rw [← scalar_ofInt hn hrest]
    exact value_numeric hnumeric (Nat.lt_of_lt_of_le (Nat.zero_lt_succ t.length) hlen)
  | text t =>
    intro i level fuel rest hfuel _
    obtain ⟨fuel, rfl⟩ := Nat.exists_eq_add_one.2 (Nat.zero_lt_of_lt hfuel)
    show (stringRest _ ((t.flatMap escapeChar ++ ['"']) ++ rest) >>= _) = _
    rw [stringRest_quote]
    show Except.ok (Json.string (wordingOf _), _) = _
    rw [wordingOf_flatMap_units]
  | @array vs hvs ih =>
    intro i level fuel rest hfuel _
    cases vs with
    | nil =>
      obtain ⟨fuel, rfl⟩ := Nat.exists_eq_add_of_le' hfuel
      rfl
    | cons v vs =>
      obtain ⟨fuel, rfl⟩ := Nat.exists_eq_add_one.2 (Nat.zero_lt_of_lt hfuel)
      -- The items are shorter than the array, so that the fuel is enough for them.
      refine value_renderAt_array hvs fun w hw t ht => ?_
      exact ih w hw (Nat.le_of_lt_succ (Nat.lt_of_lt_of_le (length_lt_array hw) hfuel)) ht
  | @object ms hkeys hnodup hms ih =>
    intro i level fuel rest hfuel _
    cases ms with
    | nil =>
      obtain ⟨fuel, rfl⟩ := Nat.exists_eq_add_of_le' hfuel
      rfl
    | cons m ms =>
      obtain ⟨fuel, rfl⟩ := Nat.exists_eq_add_one.2 (Nat.zero_lt_of_lt hfuel)
      -- So are the members, and no key stands twice, so that none is replaced.
      refine value_renderAt_object hkeys hnodup hms fun x hx t ht => ?_
      exact ih x hx (Nat.le_of_lt_succ (Nat.lt_of_lt_of_le (length_lt_object hx) hfuel)) ht

/-! ## Texts -/

/-- A plain value is read back from its text with blanks after it. -/
theorem Plain.document_render {v : Json} (h : Plain v) (i : Indent) {blanks : Text}
    (hstops : Stops blanks) (hblanks : skipSpace blanks = []) :
    document (render i v ++ blanks) = .ok v := by
  obtain ⟨c, t, hct, hspace, -, hmark⟩ := h.renderAt_cons i 0
  have hskip : skipSpace (render i v ++ blanks) = render i v ++ blanks := by
    rw [render, hct]
    exact skipSpace_of_not_isSpace hspace
  have hfuel : (render i v).length ≤ (render i v ++ blanks).length + 1 := by
    rw [List.length_append]
    omega
  unfold document
  split
  · next heq =>
    rw [render, hct] at heq
    exact absurd (List.cons.inj heq).1 hmark
  · rw [hskip]
    show (value _ (renderAt i 0 v ++ blanks) >>= _) = _
    rw [h.value_renderAt hfuel hstops]
    dsimp only [bind, Except.bind]
    rw [hblanks]
    rfl

/-- A plain value is read back from its text in every layout. -/
theorem Plain.parse_render {v : Json} (h : Plain v) (i : Indent) : parse (render i v) = .ok v := by
  have := h.document_render i stops_nil rfl
  rw [List.append_nil] at this
  rw [parse, this]

/-- So it is from a line of its own. -/
theorem Plain.parse_render_newline {v : Json} (h : Plain v) (i : Indent) :
    parse (render i v ++ ['\n']) = .ok v := by
  rw [parse, h.document_render i stops_cons rfl]

end Json

end DbmlRestore
