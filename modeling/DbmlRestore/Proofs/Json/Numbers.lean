import DbmlRestore.Json.Parser

/-!
# Reading back integers

An integer is written by its digits, after a sign if it is negative. It is read back
(`Json.scalar_ofInt`) if it has no more digits than are read, and if the text after it
does not go on with a number (`Json.Stops`): a digit, a point or an exponent would.
-/

namespace DbmlRestore

namespace Json

/-- The text after a number does not go on with it. -/
def Stops (rest : Text) : Prop :=
  ∀ c ∈ rest.head?, isDigit c = false ∧ c ≠ '.' ∧ c ≠ 'e' ∧ c ≠ 'E'

theorem stops_nil : Stops [] := fun _ h => nomatch h

theorem stops_cons {c : Char} {t : Text}
    (h : isDigit c = false ∧ c ≠ '.' ∧ c ≠ 'e' ∧ c ≠ 'E' := by decide) : Stops (c :: t) := by
  intro d hd
  obtain rfl := Option.some.inj hd
  exact h

theorem fraction_eq_none {rest : Text} (h : ∀ c ∈ rest.head?, c ≠ '.') :
    fraction rest = (none, rest) := by
  cases rest with
  | nil => rfl
  | cons c t =>
    unfold fraction
    split
    · next heq => exact absurd (List.cons.inj heq).1 (h c rfl)
    · rfl

theorem exponent_eq_none {rest : Text} (h : ∀ c ∈ rest.head?, c ≠ 'e' ∧ c ≠ 'E') :
    exponent rest = (none, rest) := by
  cases rest with
  | nil => rfl
  | cons c t =>
    unfold exponent
    split
    · next heq => exact absurd (List.cons.inj heq).1 (h c rfl).1
    · next heq => exact absurd (List.cons.inj heq).1 (h c rfl).2
    · rfl

/-- Digits are read as far as they go. -/
theorem takeWhile_isDigit_append {ds rest : Text} (hds : ∀ c ∈ ds, isDigit c = true)
    (h : ∀ c ∈ rest.head?, isDigit c = false) :
    (ds ++ rest).takeWhile isDigit = ds ∧ (ds ++ rest).dropWhile isDigit = rest := by
  rw [List.takeWhile_append_of_pos hds, List.dropWhile_append_of_pos hds]
  cases rest with
  | nil => exact ⟨List.append_nil ds, rfl⟩
  | cons c t =>
    have hc : ¬ isDigit c = true := Bool.not_eq_true _ ▸ h c rfl
    rw [List.takeWhile_cons_of_neg hc, List.dropWhile_cons_of_neg hc, List.append_nil]
    exact ⟨rfl, rfl⟩

/-- A natural number is written in digits. -/
theorem isDigit_of_mem_ofNat {n : Nat} {c : Char} (h : c ∈ Text.ofNat n) : isDigit c = true :=
  Nat.isDigit_of_mem_toDigits (by decide) (by decide) h

/-- Only zero is written with a zero in front. -/
theorem head?_ofNat_ne {n : Nat} (h : 0 < n) : (Text.ofNat n).head? ≠ some '0' := by
  induction n using Nat.strongRecOn with
  | ind n ih =>
    rw [Text.ofNat, Nat.toDigits_eq_if (by decide)]
    split
    · next hlt =>
      rw [List.head?_singleton, ne_eq, Option.some_inj, Nat.digitChar_eq_zero]
      exact Nat.ne_of_gt h
    · next hlt =>
      rw [List.head?_append, List.head?_eq_some_head Nat.toDigits_ne_nil, Option.some_or,
        ← List.head?_eq_some_head Nat.toDigits_ne_nil]
      exact ih (n / 10) (by omega) (by omega)

theorem ofDigits_ofNat (n : Nat) : ofDigits (Text.ofNat n) = n := by
  have h : ∀ t, ofDigits t = Nat.ofDigitChars 10 t 0 := by
    intro t
    rw [ofDigits, Nat.ofDigitChars_eq_foldl]
    simp only [Nat.mul_comm]
  rw [h, Text.ofNat, Nat.ofDigitChars_ten_toDigits]

theorem ne_of_isDigit {c d : Char} (hc : isDigit c = true) (hd : isDigit d = false := by decide) :
    c ≠ d := by
  rintro rfl
  exact Bool.noConfusion (hd.symm.trans hc)

theorem isSpace_of_isDigit {c : Char} (h : isDigit c = true) : isSpace c = false := by
  rw [isSpace, beq_false_of_ne (ne_of_isDigit h), beq_false_of_ne (ne_of_isDigit h),
    beq_false_of_ne (ne_of_isDigit h), beq_false_of_ne (ne_of_isDigit h)]
  rfl

/-- Digits that do not start with a zero are read as far as they go. -/
theorem whole?_append {ds rest : Text} (hds : ∀ c ∈ ds, isDigit c = true) (hne : ds ≠ [])
    (hzero : ds.head? ≠ some '0') (h : ∀ c ∈ rest.head?, isDigit c = false) :
    whole? (ds ++ rest) = some (ds, rest) := by
  obtain ⟨c, t, rfl⟩ := List.exists_cons_of_ne_nil hne
  obtain ⟨htake, hdrop⟩ := takeWhile_isDigit_append hds h
  rw [List.cons_append] at htake hdrop ⊢
  unfold whole?
  split
  · next heq => exact absurd (congrArg some (List.cons.inj heq).1) hzero
  · rw [htake, hdrop]

/-- The digits of a number are read as far as they go. -/
theorem whole?_ofNat (n : Nat) {rest : Text} (h : Stops rest) :
    whole? (Text.ofNat n ++ rest) = some (Text.ofNat n, rest) := by
  rcases Nat.eq_zero_or_pos n with rfl | hn
  · rfl
  · exact whole?_append (fun d => isDigit_of_mem_ofNat (n := n)) Nat.toDigits_ne_nil
      (head?_ofNat_ne hn) fun c hc => (h c hc).1

/-- A number is read part by part. -/
theorem magnitude?_eq_some (negative : Bool) {t u u' rest digits : Text} {f : Option Text}
    {e : Option Int} (hd : whole? t = some (digits, u)) (hf : fraction u = (f, u'))
    (he : exponent u' = (e, rest)) :
    magnitude? negative t = some (⟨negative, digits, f, e⟩, rest) := by
  rw [magnitude?, hd]
  show some (Numeral.mk negative _ (fraction u).1 (exponent (fraction u).2).1,
    (exponent (fraction u).2).2) = _
  rw [hf, he]

/-- A number in decimal is read as its digits. -/
theorem magnitude?_ofNat (negative : Bool) (n : Nat) {rest : Text} (h : Stops rest) :
    magnitude? negative (Text.ofNat n ++ rest) =
      some (⟨negative, Text.ofNat n, none, none⟩, rest) :=
  magnitude?_eq_some negative (whole?_ofNat n h) (fraction_eq_none fun c hc => (h c hc).2.1)
    (exponent_eq_none fun c hc => (h c hc).2.2)

/-- The number of a text of digits, as there are not too many. -/
theorem Numeral.value_ofNat (negative : Bool) {n : Nat}
    (h : (Text.ofNat n).length ≤ digitLimit) :
    Numeral.value ⟨negative, Text.ofNat n, none, none⟩ =
      .ok (.int (if negative then -(n : Int) else n)) := by
  show (if digitLimit < (Text.ofNat n).length then _ else Except.ok (Json.int _)) = _
  rw [if_neg (Nat.not_lt.2 h), ofDigits_ofNat]

theorem after?_eq_none {w t : Text} (h : ∃ a ∈ w.head?, ∀ c ∈ t.head?, a ≠ c) :
    Text.after? w t = none := by
  obtain ⟨a, ha, hne⟩ := h
  cases w with
  | nil => exact nomatch ha
  | cons b w =>
    obtain rfl := Option.some.inj ha
    cases t with
    | nil => rfl
    | cons c t => exact if_neg (hne c rfl)

theorem word?_eq_none {t : Text} (h : ∀ w ∈ words.map Prod.fst, Text.after? w t = none) :
    word? t = none := by
  refine List.findSome?_eq_none_iff.2 fun (w, v) hp => ?_
  show (Text.after? w t).map (v, ·) = none
  rw [h w (List.mem_map_of_mem hp), Option.map_none]

/-- No word starts with a digit, also not after a sign. -/
theorem word?_of_isDigit {c : Char} (h : isDigit c = true) (t : Text) :
    word? (c :: t) = none ∧ word? ('-' :: c :: t) = none := by
  have hwords : ∀ w ∈ words.map Prod.fst, ∃ a ∈ w.head?, isDigit a = false ∧
      (a = '-' → ∃ b ∈ w.tail.head?, isDigit b = false) := by
    intro w hw
    simp only [words, List.map_cons, List.map_nil, List.mem_cons, List.not_mem_nil, or_false] at hw
    rcases hw with rfl | rfl | rfl | rfl | rfl | rfl
    -- Only the last of the words starts with a sign.
    case inr.inr.inr.inr.inr => exact ⟨'-', rfl, rfl, fun _ => ⟨'I', rfl, rfl⟩⟩
    all_goals exact ⟨_, rfl, rfl, fun h => absurd h (by decide)⟩
  constructor
  · refine word?_eq_none fun w hw => ?_
    obtain ⟨a, ha, hdigit, -⟩ := hwords w hw
    exact after?_eq_none ⟨a, ha, fun d hd => Option.some.inj hd ▸ (ne_of_isDigit h hdigit).symm⟩
  · refine word?_eq_none fun w hw => ?_
    obtain ⟨a, ha, hdigit, hsign⟩ := hwords w hw
    by_cases hminus : a = '-'
    · obtain ⟨b, hb, hdigit'⟩ := hsign hminus
      cases w with
      | nil => exact nomatch ha
      | cons a' w =>
        obtain rfl := Option.some.inj ha
        show (if a' = '-' then Text.after? w (c :: t) else none) = none
        rw [if_pos hminus]
        exact after?_eq_none
          ⟨b, hb, fun d hd => Option.some.inj hd ▸ (ne_of_isDigit h hdigit').symm⟩
    · exact after?_eq_none ⟨a, ha, fun d hd => Option.some.inj hd ▸ hminus⟩

/-- A numeral that is no word is read as its value. -/
theorem scalar_of_numeral {t rest : Text} {n : Numeral} {v : Json} (hword : word? t = none)
    (hnum : numeral? t = some (n, rest)) (hv : n.value = .ok v) : scalar t = .ok (v, rest) := by
  rw [scalar, hword]
  dsimp only
  rw [hnum]
  dsimp only
  rw [hv]
  rfl

/-- A natural number starts with a digit. -/
theorem ofNat_cons (n : Nat) : ∃ c t, Text.ofNat n = c :: t ∧ isDigit c = true := by
  obtain ⟨c, t, hct⟩ := List.exists_cons_of_ne_nil (Nat.toDigits_ne_nil (n := n) (b := 10))
  exact ⟨c, t, hct, isDigit_of_mem_ofNat (hct ▸ List.mem_cons_self)⟩

theorem ofInt_cons (n : Int) : ∃ c t, Text.ofInt n = c :: t ∧ (isDigit c = true ∨ c = '-') := by
  cases n with
  | ofNat k =>
    obtain ⟨c, t, hct, hc⟩ := ofNat_cons k
    exact ⟨c, t, hct, .inl hc⟩
  | negSucc k => exact ⟨'-', _, rfl, .inr rfl⟩

/-- An integer that has not too many digits is read back. -/
theorem scalar_ofInt {n : Int} (hn : (Text.ofNat n.natAbs).length ≤ digitLimit) {rest : Text}
    (h : Stops rest) : scalar (Text.ofInt n ++ rest) = .ok (.int n, rest) := by
  cases n with
  | ofNat k =>
    obtain ⟨c, t, hct, hc⟩ := ofNat_cons k
    have hnum := magnitude?_ofNat false k h
    refine scalar_of_numeral ?_ ?_ (Numeral.value_ofNat false hn)
    · show word? (Text.ofNat k ++ rest) = none
      rw [hct]
      exact (word?_of_isDigit hc _).1
    · show numeral? (Text.ofNat k ++ rest) = _
      rw [← hnum, hct, List.cons_append, numeral?]
      exact fun _ heq => absurd (List.cons.inj heq).1 (ne_of_isDigit hc)
  | negSucc k =>
    obtain ⟨c, t, hct, hc⟩ := ofNat_cons (k + 1)
    refine scalar_of_numeral ?_ (magnitude?_ofNat true (k + 1) h) (Numeral.value_ofNat true hn)
    show word? ('-' :: Text.ofNat (k + 1) ++ rest) = none
    rw [hct]
    exact (word?_of_isDigit hc _).2

end Json

end DbmlRestore
