import DbmlRestore.Proofs.Json.Tokens

/-!
# Reading the front of a text

What a reader takes off the front of a text, it takes off whatever follows, as long as that does
not go on with a number (`Json.Takes`). Where it stops for want of a value, what it says depends
only on the text from there on (`Json.Wants`). Both hold of values (`Json.local_value`), by
induction on how deep they are nested, and so of documents: what stands where a value is wanted
can be swapped (`Json.document_swap`).

The items of an array and the members of an object are lists of one kind (`Json.listOf`), so that
each of these facts has one proof for both. The reader has fuel for each level of a value and for
each item of a list, and a front that is read needs no more than its length.
-/

namespace DbmlRestore

namespace Json

/-! ## Readers -/

/-- The readers `r` take something off the front of `t`, which gives `a` and leaves `rest`. They
    do so whatever follows that does not go on with a number; the fuel is enough that the front
    is long. -/
def Takes {α : Type} (r : Nat → Reader α) (t rest : Text) (a : α) : Prop :=
  ∃ s, s ≠ [] ∧ t = s ++ rest ∧
    ∀ n u, s.length ≤ n → Stops u → r n (s ++ u) = .ok (a, u)

/-- The readers `r` stop in `t` where a value is wanted, for which the text does not do. So they
    do with any other text there that does not do for a value. -/
def Wants {α : Type} (r : Nat → Reader α) (t : Text) (e : Stop) : Prop :=
  ∃ s u, t = s ++ u ∧ scalar u = .error e ∧
    ∀ n u' e', s.length < n → scalar u' = .error e' → e'.AtValue → r n (s ++ u') = .error e'

/-- What the reader `r n` does at the front of a text does not depend on what follows. -/
structure Local {α : Type} (r : Nat → Reader α) (n : Nat) : Prop where
  takes : ∀ {t rest a}, r n t = .ok (a, rest) → Takes r t rest a
  wants : ∀ {t e}, r n t = .error e → e.AtValue → Wants r t e

/-! ## Lists -/

section Lists

variable {α : Type} {close : Char} {missing : Fault} {item : Reader α} {r : Nat → Reader α}
  {fuel n : Nat} {t rest : Text} {as : List α} {e : Stop}

/-- It stops for want of a value in one of its items. -/
theorem listOf_eq_error_iff (hclose : close ≠ ',') (he : e.AtValue) :
    listOf close missing item (fuel + 1) t = .error e ↔ item t = .error e ∨
      ∃ a u w, item t = .ok (a, u) ∧ skipSpace u = ',' :: w ∧
        listOf close missing item fuel (skipSpace w) = .error e := by
  have hcomma : ∀ {u}, e ≠ .fault .comma u := fun heq =>
    Stop.not_atValue (by decide) (heq ▸ he)
  rw [listOf, bind_eq_error_iff]
  refine or_congr_right ⟨?_, ?_⟩
  · rintro ⟨⟨a, u⟩, ha, h⟩
    -- Nothing is missing at a value if an item was read and no comma follows.
    dsimp only at h
    split at h
    · exact absurd (Except.error.inj h).symm hcomma
    · next c w hw =>
      split at h
      · cases h
      · split at h
        · next hc =>
          rcases bind_eq_error_iff.1 h with h | ⟨_, -, h⟩
          · exact ⟨a, u, w, ha, hc ▸ hw, h⟩
          · cases h
        · exact absurd (Except.error.inj h).symm hcomma
  · rintro ⟨a, u, w, ha, hu, h⟩
    refine ⟨(a, u), ha, ?_⟩
    dsimp only
    rw [hu]
    dsimp only
    rw [if_neg hclose.symm, if_pos rfl, h]
    rfl

/-- The character closes lists: it is no comma and no blank, and no number has it. -/
structure Closes (close : Char) : Prop where
  ne_comma : close ≠ ','
  ne_sign : close ≠ '-'
  firm : isSpace close = false
  stops : ∀ t, Stops (close :: t)

variable (hr : Local r n)
include hr

/-- After an item and a comma a list goes on, whatever comes there. -/
theorem Local.comma {a : α} {v w : Text} (ha : r n t = .ok (a, v)) (hv : skipSpace v = ',' :: w) :
    ∃ s, s ≠ [] ∧ t = s ++ skipSpace w ∧ ∀ m u, s.length ≤ m → Firm u →
      ∃ x y, r m (s ++ u) = .ok (a, x) ∧ skipSpace x = ',' :: y ∧ skipSpace y = u := by
  obtain ⟨s, hs, rfl, hread⟩ := hr.takes ha
  obtain ⟨b, hb, hskip, hstops⟩ := exists_blanks v
  obtain ⟨b', hb', hskip', -⟩ := exists_blanks w
  refine ⟨s ++ (b ++ ',' :: b'), by simp [hs], ?_, fun m u hm hu => ?_⟩
  · rw [hb, hv, hb']
    simp only [List.append_assoc, List.cons_append, ← hb']
  · rw [List.length_append] at hm
    refine ⟨b ++ ',' :: (b' ++ u), b' ++ u, ?_, hskip _ (firstIs_cons.2 (by decide)), hskip' u hu⟩
    simp only [List.append_assoc, List.cons_append]
    exact hread m _ (by omega) (hstops _ stops_cons)

variable (hclose : Closes close)
include hclose

/-- A list that is read is read in the same way whatever stands after it, if there is fuel for its
    length. -/
theorem listOf_takes (h : listOf close missing (r n) fuel t = .ok (as, rest)) :
    ∃ s, s ≠ [] ∧ t = s ++ rest ∧ ∀ m k u, s.length ≤ m → s.length ≤ k →
      listOf close missing (r m) k (s ++ u) = .ok (as, u) := by
  induction fuel generalizing t as with
  | zero => cases h
  | succ fuel ih =>
    obtain ⟨a, v, ha, ⟨hv, rfl⟩ | ⟨w, bs, hv, hbs, rfl⟩⟩ := (listOf_eq_ok_iff hclose.ne_comma).1 h
    · -- The last item, the blanks behind it, and the closing mark.
      obtain ⟨s, hs, rfl, hread⟩ := hr.takes ha
      obtain ⟨b, hb, hskip, hstops⟩ := exists_blanks v
      refine ⟨s ++ (b ++ [close]), by simp [hs], ?_, fun m k u hm hk => ?_⟩
      · rw [hb, hv]
        simp only [List.append_assoc, List.singleton_append]
      · simp only [List.length_append, List.length_singleton] at hm hk
        obtain ⟨k, rfl⟩ := Nat.exists_eq_add_one.2 (by omega : 0 < k)
        simp only [List.append_assoc, List.singleton_append]
        exact (listOf_eq_ok_iff hclose.ne_comma).2 ⟨a, _,
          hread m _ (by omega) (hstops _ (hclose.stops u)),
          .inl ⟨hskip _ (firstIs_cons.2 hclose.firm), rfl⟩⟩
    · -- An item up to the comma and the blanks behind it, and the list that follows.
      obtain ⟨s, hs, rfl, hcomma⟩ := hr.comma ha hv
      obtain ⟨s', hs', heq, hread⟩ := ih hbs
      have hfirm : Firm (s' ++ rest) := heq ▸ firm_skipSpace w
      have hpos := List.length_pos_iff.2 hs
      refine ⟨s ++ s', by simp [hs], by rw [heq, List.append_assoc], fun m k u hm hk => ?_⟩
      rw [List.length_append] at hm hk
      obtain ⟨k, rfl⟩ := Nat.exists_eq_add_one.2 (by omega : 0 < k)
      obtain ⟨x, y, hx, hxy, hy⟩ :=
        hcomma m (s' ++ u) (by omega) (hfirm.of_append.append_left hs' u)
      rw [List.append_assoc]
      refine (listOf_eq_ok_iff hclose.ne_comma).2 ⟨a, x, hx, .inr ⟨y, bs, hxy, ?_, rfl⟩⟩
      rw [hy]
      exact hread m k u (by omega) (by omega)

/-- A list that stops where a value is wanted stops there whatever stands in the place of the value,
    with the error for what stands there now. -/
theorem listOf_wants (hnil : ∀ m, r m [] = .error (.fault missing []))
    (h : listOf close missing (r n) fuel t = .error e) (he : e.AtValue) :
    ∃ s u, t = s ++ u ∧ scalar u = .error e ∧ ∀ m k u' e', s.length < m → (s ++ u').length ≤ k →
      scalar u' = .error e' → e'.AtValue →
        listOf close missing (r m) k (s ++ u') = .error e' := by
  -- A value may be wanted in the first item,
  have hfirst : ∀ {t}, r n t = .error e → ∃ s u, t = s ++ u ∧ scalar u = .error e ∧
      ∀ m k u' e', s.length < m → (s ++ u').length ≤ k → scalar u' = .error e' → e'.AtValue →
        listOf close missing (r m) k (s ++ u') = .error e' := by
    intro t h
    obtain ⟨s, u, rfl, hu, hread⟩ := hr.wants h he
    refine ⟨s, u, rfl, hu, fun m k u' e' hm hk hu' he' => ?_⟩
    have hstop := hread m u' e' hm hu' he'
    cases k with
    -- Without fuel a list stops as an item does at the end of the text.
    | zero =>
      rw [List.length_eq_zero_iff.1 (Nat.le_zero.1 hk)] at hstop ⊢
      exact congrArg Except.error (Except.error.inj ((hnil m).symm.trans hstop))
    | succ k => exact (listOf_eq_error_iff hclose.ne_comma he').2 (.inl hstop)
  induction fuel generalizing t with
  | zero =>
    obtain rfl := Except.error.inj h
    rcases he with heq | ⟨_, heq⟩
    · obtain ⟨rfl, rfl⟩ := Stop.fault.inj heq
      exact hfirst (hnil n)
    · cases heq
  | succ fuel ih =>
    rcases (listOf_eq_error_iff hclose.ne_comma he).1 h with hitem | ⟨a, v, w, ha, hv, hnext⟩
    · exact hfirst hitem
    -- or in a later one.
    · obtain ⟨s, hs, rfl, hcomma⟩ := hr.comma ha hv
      obtain ⟨s', u, heq, hu, hread⟩ := ih hnext
      have hfirm : Firm (s' ++ u) := heq ▸ firm_skipSpace w
      have hpos := List.length_pos_iff.2 hs
      refine ⟨s ++ s', u, by rw [heq, List.append_assoc], hu, fun m k u' e' hm hk hu' he' => ?_⟩
      simp only [List.length_append] at hm hk
      obtain ⟨k, rfl⟩ := Nat.exists_eq_add_one.2 (by omega : 0 < k)
      obtain ⟨x, y, hx, hxy, hy⟩ :=
        hcomma m (s' ++ u') (by omega) (hfirm.of_append.append (numeric_of_scalar hu' he').firm)
      rw [List.append_assoc]
      refine (listOf_eq_error_iff hclose.ne_comma he').2 (.inr ⟨a, x, y, hx, hxy, ?_⟩)
      rw [hy]
      refine hread m k u' e' (by omega) ?_ hu' he'
      rw [List.length_append]
      omega

/-- The list after an opening character, which may have no items. -/
theorem local_enclosed (hnil : ∀ m, r m [] = .error (.fault missing [])) :
    Local (fun m => enclosed close missing (r m)) n where
  takes := by
    intro t rest as h
    obtain ⟨b, hb, hskip, -⟩ := exists_blanks t
    have hfirm := firm_skipSpace t
    rcases (enclosed_eq_iff ..).1 h with ⟨u, hu, h⟩ | ⟨hu, h⟩
    · -- An empty list: blanks and the closing mark.
      obtain ⟨rfl, rfl⟩ := Prod.mk.inj (Except.ok.inj h)
      refine ⟨b ++ [close], by simp, ?_, fun m v _ _ => ?_⟩
      · rw [hb, hu, List.append_assoc, List.singleton_append]
      · rw [List.append_assoc]
        exact (enclosed_eq_iff ..).2
          (.inl ⟨v, hskip _ (firstIs_cons.2 hclose.firm), rfl⟩)
    · -- Blanks and a list of items, whose first character is no blank.
      obtain ⟨s, hs, heq, hread⟩ := listOf_takes hr hclose h
      rw [heq] at hfirm hu hb
      refine ⟨b ++ s, by simp [hs], by rw [hb, List.append_assoc], fun m v hm _ => ?_⟩
      have hv : skipSpace (b ++ (s ++ v)) = s ++ v := hskip _ (hfirm.of_append.append_left hs v)
      rw [List.append_assoc]
      rw [List.length_append] at hm
      refine (enclosed_eq_iff ..).2 (.inr ?_)
      rw [hv]
      refine ⟨hu.of_append.append_left hs v, hread m _ v (by omega) ?_⟩
      rw [List.length_append]
      omega
  wants := by
    intro t e h he
    obtain ⟨b, hb, hskip, -⟩ := exists_blanks t
    have hfirm := firm_skipSpace t
    rcases (enclosed_eq_iff ..).1 h with ⟨u, -, h⟩ | ⟨hu, h⟩
    · cases h
    · obtain ⟨s, u, heq, hsu, hread⟩ := listOf_wants hr hclose hnil h he
      rw [heq] at hfirm hu hb
      refine ⟨b ++ s, u, by rw [hb, List.append_assoc], hsu, fun m u' e' hm hu' he' => ?_⟩
      -- What stands there now starts as a number does, so that it is neither blank nor closing.
      have hnum := numeric_of_scalar hu' he'
      have hv : skipSpace (b ++ (s ++ u')) = s ++ u' :=
        hskip _ (hfirm.of_append.append hnum.firm)
      rw [List.append_assoc]
      rw [List.length_append] at hm
      refine (enclosed_eq_iff ..).2 (.inr ?_)
      rw [hv]
      refine ⟨hu.of_append.append (hnum.imp (fun c hc => ?_) hclose.ne_sign.symm),
        hread m _ u' e' (by omega) (Nat.le_refl _) hu' he'⟩
      exact ne_of_isDigit hc (hclose.stops [] close rfl).1

end Lists

/-! ## Values -/

section Values

variable {n : Nat}

/-- A member is read locally if values are: its key is a string, which has nothing to do with what
    follows. -/
theorem local_pair (h : Local value n) : Local (fun m => pair (value m)) n where
  takes := by
    intro t rest a ha
    obtain ⟨⟨k, u⟩, hk, ha⟩ := bind_eq_ok_iff.1 ha
    obtain ⟨⟨v, w⟩, hv, ha⟩ := bind_eq_ok_iff.1 ha
    obtain ⟨rfl, rfl⟩ := Prod.mk.inj (Except.ok.inj ha)
    obtain ⟨s, hs, rfl, hfirm, hkey⟩ := memberKey_eq_ok hk
    obtain ⟨s', hs', rfl, hread⟩ := h.takes hv
    refine ⟨s ++ s', by simp [hs], (List.append_assoc ..).symm, fun m u hm hu => ?_⟩
    rw [List.length_append] at hm
    rw [List.append_assoc]
    exact bind_eq_ok_iff.2 ⟨_, hkey _ (hfirm.of_append.append_left hs' u),
      bind_eq_ok_iff.2 ⟨_, hread m u (by omega) hu, rfl⟩⟩
  wants := by
    intro t e ht he
    rcases bind_eq_error_iff.1 ht with hk | ⟨⟨k, u⟩, hk, ht⟩
    · exact absurd he (memberKey_eq_error hk)
    · rcases bind_eq_error_iff.1 ht with hv | ⟨_, -, ht⟩
      · obtain ⟨s, hs, rfl, hfirm, hkey⟩ := memberKey_eq_ok hk
        obtain ⟨s', w, rfl, hw, hread⟩ := h.wants hv he
        refine ⟨s ++ s', w, (List.append_assoc ..).symm, hw, fun m u' e' hm hu' he' => ?_⟩
        have hnum := numeric_of_scalar hu' he'
        rw [List.length_append] at hm
        rw [List.append_assoc]
        exact bind_eq_error_iff.2 (.inr ⟨_,
          hkey _ (hfirm.of_append.append hnum.firm),
          bind_eq_error_iff.2 (.inl (hread m u' e' (by omega) hu' he'))⟩)
      · cases ht

/-- A value after a character of its own depends on what follows as the reader does that reads the
    rest of it. -/
theorem local_value_cons {α : Type} {c : Char} {r : Nat → Reader α} {f : α → Json}
    (hvalue : ∀ m t, value (m + 1) (c :: t) = (r m t).map fun (a, u) => (f a, u))
    (h : Local r n) {t : Text} :
    (∀ {rest v}, value (n + 1) (c :: t) = .ok (v, rest) → Takes value (c :: t) rest v) ∧
      ∀ {e}, value (n + 1) (c :: t) = .error e → e.AtValue → Wants value (c :: t) e := by
  constructor
  · intro rest v hv
    rw [hvalue] at hv
    obtain ⟨⟨a, u⟩, ha, heq⟩ := map_eq_ok_iff.1 hv
    obtain ⟨rfl, rfl⟩ := Prod.mk.inj heq
    obtain ⟨s, hs, rfl, hread⟩ := h.takes ha
    refine ⟨c :: s, by simp, rfl, fun m u hm hu => ?_⟩
    rw [List.length_cons] at hm
    -- One step of fuel goes for the first character.
    obtain ⟨m, rfl⟩ := Nat.exists_eq_add_one.2 (by omega : 0 < m)
    rw [List.cons_append, hvalue]
    exact map_eq_ok_iff.2 ⟨_, hread m u (by omega) hu, rfl⟩
  · intro e hv he
    rw [hvalue] at hv
    obtain ⟨s, u, rfl, hu, hread⟩ := h.wants (map_eq_error_iff.1 hv) he
    refine ⟨c :: s, u, rfl, hu, fun m u' e' hm hu' he' => ?_⟩
    rw [List.length_cons] at hm
    obtain ⟨m, rfl⟩ := Nat.exists_eq_add_one.2 (by omega : 0 < m)
    rw [List.cons_append, hvalue]
    exact map_eq_error_iff.2 (hread m u' e' (by omega) hu' he')

/-- A string is read up to its closing quote, and what follows has no part in it. -/
theorem local_string : Local (fun _ t => stringRest ('"' :: t) t) n where
  takes := by
    intro t rest ns h
    obtain ⟨s, hs, ht, hread⟩ := stringRest_eq_ok h
    exact ⟨s, hs, ht, fun _ u _ _ => hread _ u⟩
  wants h he := absurd he (stringRest_eq_error h)

theorem closes_bracket : Closes ']' := ⟨by decide, by decide, by decide, fun _ => stops_cons⟩

theorem closes_brace : Closes '\x7d' := ⟨by decide, by decide, by decide, fun _ => stops_cons⟩

/-- Where a value is read does not depend on what follows it. -/
theorem local_value (n : Nat) : Local value n := by
  have hnil : ∀ m, value m [] = .error (.fault .value []) := fun m => by cases m <;> rfl
  induction n with
  -- Without fuel nothing is read, and a value is wanted at once.
  | zero =>
    refine ⟨fun h => (by cases h), fun {t e} h he => ?_⟩
    obtain rfl := Except.error.inj h
    rcases he with heq | ⟨_, heq⟩
    · obtain ⟨-, rfl⟩ := Stop.fault.inj heq
      refine ⟨[], [], rfl, rfl, fun m u' e' hm hu' he' => ?_⟩
      exact (value_numeric (numeric_of_scalar hu' he') hm).trans hu'
    · cases heq
  | succ n ih =>
    have hstring {t : Text} := local_value_cons (f := fun ns => .string (wordingOf ns)) (t := t)
      value_string (local_string (n := n))
    have harray {t : Text} := local_value_cons (f := .array) (t := t) value_bracket
      (local_enclosed ih closes_bracket hnil)
    have hobject {t : Text} := local_value_cons (t := t)
      (f := fun ms : Members => .object (ms.foldl (fun acc m => Members.insert m.1 m.2 acc) []))
      value_brace (local_enclosed (local_pair ih) closes_brace fun _ => rfl)
    have hatomic : ∀ {t}, Atomic t → value (n + 1) t = scalar t := fun ht =>
      value_atomic ht (Nat.zero_lt_succ n)
    constructor
    · intro t rest v h
      rcases first_cases t with ⟨u, rfl⟩ | ⟨u, rfl⟩ | ⟨u, rfl⟩ | ht
      · exact hstring.1 h
      · exact harray.1 h
      · exact hobject.1 h
      · rw [hatomic ht] at h
        obtain ⟨s, hs, rfl, hread⟩ := scalar_eq_ok h
        refine ⟨s, hs, rfl, fun m u hm hu => ?_⟩
        have hm' : 0 < m := Nat.lt_of_lt_of_le (List.length_pos_iff.2 hs) hm
        rw [value_atomic (ht.of_append.append_left hs u) hm', hread u hu]
    · intro t e h he
      rcases first_cases t with ⟨u, rfl⟩ | ⟨u, rfl⟩ | ⟨u, rfl⟩ | ht
      · exact hstring.2 h he
      · exact harray.2 h he
      · exact hobject.2 h he
      · rw [hatomic ht] at h
        refine ⟨[], t, rfl, h, fun m u' e' hm hu' he' => ?_⟩
        exact (value_numeric (numeric_of_scalar hu' he') hm).trans hu'

end Values

/-! ## Documents -/

/-- A document stops where a value is wanted if its value does, as no mark stands at the start. -/
theorem document_eq_error_iff {t : Text} {e : Stop} (he : e.AtValue) : document t = .error e ↔
    FirstIs (· ≠ '\uFEFF') t ∧ value (t.length + 1) (skipSpace t) = .error e := by
  unfold document
  split
  · refine iff_of_false (fun h => ?_) fun h => firstIs_cons.1 h.1 rfl
    exact Stop.not_atValue (by decide) (Except.error.inj h ▸ he)
  · next hmark =>
    have hfirst : FirstIs (· ≠ '\uFEFF') t := by
      cases t with
      | nil => exact firstIs_nil
      | cons c t => exact firstIs_cons.2 fun hc => hmark t (by rw [hc])
    rw [bind_eq_error_iff, iff_true_intro hfirst, true_and, or_iff_left]
    rintro ⟨⟨v, rest⟩, -, h⟩
    dsimp only at h
    split at h
    · cases h
    · exact Stop.not_atValue (by decide) (Except.error.inj h ▸ he)

/-- A document that stops where a value is wanted stops there with any other text that does not do
    for one. -/
theorem document_swap {t : Text} {e : Stop} (h : document t = .error e) (he : e.AtValue) :
    ∃ s u, t = s ++ u ∧ scalar u = .error e ∧
      ∀ u' e', scalar u' = .error e' → e'.AtValue → document (s ++ u') = .error e' := by
  obtain ⟨hmark, hvalue⟩ := (document_eq_error_iff he).1 h
  obtain ⟨b, hb, hskip, -⟩ := exists_blanks t
  have hfirm := firm_skipSpace t
  obtain ⟨s, u, heq, hu, hread⟩ := (local_value _).wants hvalue he
  rw [heq] at hfirm hb
  refine ⟨b ++ s, u, by rw [hb, List.append_assoc], hu, fun u' e' hu' he' => ?_⟩
  have hnum := numeric_of_scalar hu' he'
  have hfirst : FirstIs (· ≠ '\uFEFF') (b ++ s ++ u') := by
    rw [hb, ← List.append_assoc] at hmark
    exact hmark.of_append.append (hnum.imp (fun _ hc => ne_of_isDigit hc) (by decide))
  have hv : skipSpace (b ++ s ++ u') = s ++ u' := by
    rw [List.append_assoc]
    exact hskip _ (hfirm.of_append.append hnum.firm)
  refine (document_eq_error_iff he').2 ⟨hfirst, ?_⟩
  rw [hv]
  refine hread _ u' e' ?_ hu' he'
  simp only [List.length_append]
  omega

end Json

end DbmlRestore
