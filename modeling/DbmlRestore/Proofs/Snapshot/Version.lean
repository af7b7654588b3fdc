import DbmlRestore.Proofs.Result
import DbmlRestore.Proofs.Text.Lines
import DbmlRestore.Snapshot.Payload

/-!
# The version of a snapshot

A version may be given as any value that can be read as the integer one. Strings are read in a loose
form, which is taken off in stages: blanks around the number, a plus sign, a point with zeros after
it, leading zeros and underscores. What stands for one is thus the digit `1` with these around it
(`Payload.WritesOne`), and no other text is read as one (`Payload.numeral_eq_ok_one_iff`).
-/

namespace DbmlRestore

namespace Payload

/-! ## Texts that write one -/

/-- Nothing, or zeros and underscores after a first zero. -/
def LeadingZeros (t : Text) : Prop :=
  t = [] ∨ ∃ u, t = '0' :: u ∧ ∀ c ∈ u, c = '0' ∨ c = '_'

/-- Nothing, or a point with zeros after it. -/
def NoFraction (t : Text) : Prop :=
  t = [] ∨ ∃ u, t = '.' :: u ∧ u ≠ [] ∧ ∀ c ∈ u, c = '0'

/-- The text is the digit `1` with leading zeros and a point with zeros after it, or without. -/
def IsLooseOne (t : Text) : Prop :=
  ∃ zeros fraction, LeadingZeros zeros ∧ NoFraction fraction ∧ t = zeros ++ '1' :: fraction

/-- The text is such a one, with a plus sign or none, and blanks around it. -/
def WritesOne (t : Text) : Prop :=
  ∃ before sign one after, (∀ c ∈ before, isMargin c = true) ∧ (sign = [] ∨ sign = ['+']) ∧
    IsLooseOne one ∧ (∀ c ∈ after, isMargin c = true) ∧ t = before ++ (sign ++ one) ++ after

/-! ## The stages of reading -/

variable {t : Text}

/-- No underscore may stand at an end of the text, so that none is left out of a single digit. -/
theorem withoutUnderscores?_eq_one_iff : withoutUnderscores? t = some ['1'] ↔ t = ['1'] := by
  refine ⟨fun h => ?_, fun h => by rw [h]; decide⟩
  unfold withoutUnderscores? at h
  split at h
  · exact nomatch h
  · next hends =>
    have hfilter : t.filter (· != '_') = ['1'] := Option.some.inj h
    rw [not_or, not_or] at hends
    obtain ⟨hhead, hlast, -⟩ := hends
    cases t with
    | nil => exact nomatch hfilter
    | cons c u =>
      have hc : (c != '_') = true := bne_iff_ne.2 fun hc => hhead (congrArg some hc)
      rw [List.filter_cons, if_pos hc] at hfilter
      obtain ⟨rfl, hrest⟩ := List.cons.inj hfilter
      rcases List.eq_nil_or_concat u with rfl | ⟨v, d, rfl⟩
      · rfl
      · have hd := List.filter_eq_nil_iff.1 hrest d (by simp)
        rw [bne_iff_ne, not_not] at hd
        refine absurd ?_ hlast
        rw [List.concat_eq_append, ← List.cons_append, List.getLast?_concat, hd]

/-- Whether a character is passed over after a first zero. -/
theorem isZero_iff {c : Char} : (c == '0' || c == '_') = true ↔ c = '0' ∨ c = '_' := by
  rw [Bool.or_eq_true, beq_iff_eq, beq_iff_eq]

/-- Only zeros, and the underscores between them, may stand before the one that is left. -/
theorem withoutZeros?_eq_one_iff :
    withoutZeros? t = some ['1'] ↔ ∃ zeros, LeadingZeros zeros ∧ t = zeros ++ ['1'] := by
  constructor
  · intro h
    unfold withoutZeros? at h
    split at h
    · next u =>
      split at h
      · next hall =>
        -- Of zeros and underscores alone, the last one is left.
        have hlast := List.mem_of_getLast? (Option.toList_eq_singleton_iff.1 (Option.some.inj h))
        rcases List.mem_cons.1 hlast with hone | hone
        · exact absurd hone (by decide)
        · exact absurd (List.dropWhile_eq_nil_iff.1 hall _ hone) (by decide)
      · next c rest hrest =>
        split at h
        · refine ⟨'0' :: u.takeWhile fun c => c == '0' || c == '_', .inr ⟨_, rfl, ?_⟩, ?_⟩
          · intro c hc
            have := List.mem_takeWhile_imp hc
            exact isZero_iff.1 this
          · rw [List.cons_append, ← Option.some.inj h, ← hrest, List.takeWhile_append_dropWhile]
        · exact nomatch h
    · split at h
      · exact ⟨[], .inl rfl, Option.some.inj h⟩
      · exact nomatch h
    · exact nomatch h
  · rintro ⟨zeros, rfl | ⟨u, rfl, hu⟩, rfl⟩
    · decide
    · have hdrop : (u ++ ['1']).dropWhile (fun c => c == '0' || c == '_') = ['1'] := by
        rw [List.dropWhile_append_of_pos fun c hc => isZero_iff.2 (hu c hc)]
        rfl
      rw [List.cons_append, withoutZeros?, hdrop]
      rfl

theorem LeadingZeros.not_mem {zeros : Text} (h : LeadingZeros zeros) {c : Char} (hc : c ≠ '0')
    (hc' : c ≠ '_') : c ∉ zeros := by
  rcases h with rfl | ⟨u, rfl, hu⟩
  · exact List.not_mem_nil
  · rw [List.mem_cons, not_or]
    exact ⟨hc, fun hmem => (hu c hmem).elim hc hc'⟩

/-- A text without a point is what is left of it with a point and zeros behind it. -/
theorem withoutFraction_eq_iff {whole : Text} (hpoint : '.' ∉ whole) :
    withoutFraction t = whole ↔ ∃ fraction, NoFraction fraction ∧ t = whole ++ fraction := by
  have hne : ∀ c ∈ whole, (c != '.') = true := fun c hc =>
    bne_iff_ne.2 fun heq => hpoint (heq ▸ hc)
  constructor
  · intro h
    unfold withoutFraction Text.cutAt at h
    dsimp only at h
    split at h
    · next hzeros =>
      rw [Bool.and_eq_true, Bool.not_eq_true', List.isEmpty_eq_false_iff, List.all_eq_true] at hzeros
      obtain ⟨hnonempty, hzeros⟩ := hzeros
      cases hrest : t.dropWhile (· != '.') with
      | nil => exact absurd (by rw [hrest]; rfl) hnonempty
      | cons c u =>
        -- What stops the run of other characters is the point.
        have hc : (c != '.') = false := by
          have := List.head?_dropWhile_not (· != '.') t
          rw [hrest] at this
          exact this
        rw [bne_eq_false_iff_eq] at hc
        subst hc
        rw [hrest] at hzeros hnonempty
        refine ⟨'.' :: u, .inr ⟨u, rfl, hnonempty, fun c hc => beq_iff_eq.1 (hzeros c hc)⟩, ?_⟩
        rw [← h, ← hrest, List.takeWhile_append_dropWhile]
    · exact ⟨[], .inl rfl, by rw [h, List.append_nil]⟩
  · rintro ⟨fraction, rfl | ⟨u, rfl, hnonempty, hu⟩, rfl⟩
    · rw [List.append_nil, withoutFraction, Text.cutAt, List.dropWhile_eq_nil_iff.2 hne]
      rfl
    · have hwhole : (whole ++ '.' :: u).takeWhile (· != '.') = whole := by
        rw [List.takeWhile_append_of_pos hne]
        simp
      have hzeros : (whole ++ '.' :: u).dropWhile (· != '.') = '.' :: u := by
        rw [List.dropWhile_append_of_pos hne]
        rfl
      have hu' : (!u.isEmpty && u.all (· == '0')) = true := by
        rw [Bool.and_eq_true, Bool.not_eq_true', List.isEmpty_eq_false_iff, List.all_eq_true]
        exact ⟨hnonempty, fun c hc => beq_iff_eq.2 (hu c hc)⟩
      rw [withoutFraction, Text.cutAt, hwhole, hzeros]
      exact if_pos hu'

/-- A text without its plus sign, which no minus sign may follow. -/
def withoutPlus? : Text → Option Text
  | '+' :: '-' :: _ => none
  | '+' :: t => some t
  | t => some t

/-- The digits of a text without blanks around it and without a plus sign. -/
def significant? (t : Text) : Option Text :=
  match withoutFraction t with
  | '-' :: t => (withoutZeros? t).bind fun t => withoutUnderscores? ('-' :: t)
  | t => (withoutZeros? t).bind withoutUnderscores?

/-- The integer that a string writes loosely is read in three steps: margins, plus sign, and what
    counts. -/
theorem tidyNumeral?_eq (t : Text) : tidyNumeral? t =
    (withoutPlus? (Text.dropEndWhile isMargin (t.dropWhile isMargin))).bind significant? := by
  unfold tidyNumeral?
  dsimp only
  generalize Text.dropEndWhile isMargin (t.dropWhile isMargin) = u
  rcases u with _ | ⟨c, u⟩
  · rfl
  · by_cases hc : c = '+'
    · subst hc
      rcases u with _ | ⟨d, u⟩
      · rfl
      · by_cases hd : d = '-'
        · subst hd
          rfl
        · simp only [withoutPlus?, List.cons.injEq, hd, false_and, imp_self, implies_true]
          rfl
    · simp only [withoutPlus?, List.cons.injEq, hc, false_and, imp_self, implies_true]
      rfl

/-- A plus sign may be left out, and nothing else is. -/
theorem withoutPlus?_eq_some_iff {u : Text} (hplus : u.head? ≠ some '+')
    (hminus : u.head? ≠ some '-') :
    withoutPlus? t = some u ↔ ∃ sign, (sign = [] ∨ sign = ['+']) ∧ t = sign ++ u := by
  constructor
  · intro h
    unfold withoutPlus? at h
    split at h
    · exact nomatch h
    · exact ⟨['+'], .inr rfl, by rw [Option.some.inj h]; rfl⟩
    · exact ⟨[], .inl rfl, Option.some.inj h⟩
  · rintro ⟨sign, rfl | rfl, rfl⟩
    · unfold withoutPlus?
      split
      · exact absurd rfl hplus
      · exact absurd rfl hplus
      · rfl
    · -- What stands behind the plus sign does not start with a minus sign.
      unfold withoutPlus?
      split
      · next heq =>
        rw [List.singleton_append, List.cons.injEq] at heq
        exact absurd (by rw [heq.2]; rfl) hminus
      · next heq => rw [List.singleton_append, List.cons.injEq] at heq; rw [heq.2]
      · next _ hne => exact absurd rfl (hne u)

/-- Of a text with these digits, the digit `1` is left. -/
theorem significant?_eq_one_iff : significant? t = some ['1'] ↔ IsLooseOne t := by
  have hother : ∀ {zeros c}, LeadingZeros zeros → c ≠ '0' → c ≠ '_' → c ≠ '1' →
      c ∉ zeros ++ ['1'] := fun hzeros hc hc' hone => by
    rw [List.mem_append, not_or, List.mem_singleton]
    exact ⟨hzeros.not_mem hc hc', hone⟩
  have hpoint : ∀ {zeros}, LeadingZeros zeros → '.' ∉ zeros ++ ['1'] := fun hzeros =>
    hother hzeros (by decide) (by decide) (by decide)
  constructor
  · intro h
    unfold significant? at h
    split at h
    · -- A minus sign stays.
      obtain ⟨u, -, hu⟩ := Option.bind_eq_some_iff.1 h
      exact absurd (withoutUnderscores?_eq_one_iff.1 hu) (by simp)
    · obtain ⟨u, hu, hone⟩ := Option.bind_eq_some_iff.1 h
      rw [withoutUnderscores?_eq_one_iff.1 hone] at hu
      obtain ⟨zeros, hzeros, hwhole⟩ := withoutZeros?_eq_one_iff.1 hu
      obtain ⟨fraction, hfraction, rfl⟩ := (withoutFraction_eq_iff (hpoint hzeros)).1 hwhole
      exact ⟨zeros, fraction, hzeros, hfraction, by rw [List.append_assoc]; rfl⟩
  · rintro ⟨zeros, fraction, hzeros, hfraction, rfl⟩
    have hwhole : withoutFraction (zeros ++ '1' :: fraction) = zeros ++ ['1'] :=
      (withoutFraction_eq_iff (hpoint hzeros)).2 ⟨fraction, hfraction, by
        rw [List.append_assoc]
        rfl⟩
    unfold significant?
    rw [hwhole]
    split
    · next heq =>
      have hminus : '-' ∈ zeros ++ ['1'] := by rw [heq]; exact List.mem_cons_self
      exact absurd hminus (hother hzeros (by decide) (by decide) (by decide))
    · rw [withoutZeros?_eq_one_iff.2 ⟨zeros, hzeros, rfl⟩, Option.bind_some,
        withoutUnderscores?_eq_one_iff]

/-- A loosely written one starts with a zero or with the one. -/
theorem IsLooseOne.head? (h : IsLooseOne t) : t.head? = some '0' ∨ t.head? = some '1' := by
  obtain ⟨zeros, fraction, rfl | ⟨u, rfl, -⟩, -, rfl⟩ := h
  · exact .inr rfl
  · exact .inl rfl

theorem IsLooseOne.withoutPlus?_eq_some_iff {one : Text} (h : IsLooseOne one) :
    withoutPlus? t = some one ↔ ∃ sign, (sign = [] ∨ sign = ['+']) ∧ t = sign ++ one := by
  refine Payload.withoutPlus?_eq_some_iff ?_ ?_
  · rcases h.head? with hc | hc <;> rw [hc] <;> decide
  · rcases h.head? with hc | hc <;> rw [hc] <;> decide

/-- What is left of a loose one, without its margins, is a sign or none, and the one. -/
theorem tidyNumeral?_eq_one_iff : tidyNumeral? t = some ['1'] ↔
    ∃ sign one, (sign = [] ∨ sign = ['+']) ∧ IsLooseOne one ∧
      Text.dropEndWhile isMargin (t.dropWhile isMargin) = sign ++ one := by
  rw [tidyNumeral?_eq, Option.bind_eq_some_iff]
  constructor
  · rintro ⟨one, hone, hdigits⟩
    have hloose := significant?_eq_one_iff.1 hdigits
    obtain ⟨sign, hsign, heq⟩ := hloose.withoutPlus?_eq_some_iff.1 hone
    exact ⟨sign, one, hsign, hloose, heq⟩
  · rintro ⟨sign, one, hsign, hloose, heq⟩
    exact ⟨one, hloose.withoutPlus?_eq_some_iff.2 ⟨sign, hsign, heq⟩,
      significant?_eq_one_iff.2 hloose⟩

/-- Blanks are taken off both ends. -/
theorem withoutMargins_eq_iff {core : Text} (hne : core ≠ [])
    (hhead : ∀ c ∈ core.head?, isMargin c = false)
    (hlast : ∀ c ∈ core.getLast?, isMargin c = false) :
    Text.dropEndWhile isMargin (t.dropWhile isMargin) = core ↔
      ∃ before after, (∀ c ∈ before, isMargin c = true) ∧ (∀ c ∈ after, isMargin c = true) ∧
        t = before ++ core ++ after := by
  constructor
  · rintro rfl
    obtain ⟨after, hafter, hmargin⟩ :=
      Text.exists_append_dropEndWhile isMargin (t.dropWhile isMargin)
    refine ⟨t.takeWhile isMargin, after, fun c hc => List.mem_takeWhile_imp hc, hmargin, ?_⟩
    rw [List.append_assoc, ← hafter, List.takeWhile_append_dropWhile]
  · rintro ⟨before, after, hbefore, hafter, rfl⟩
    obtain ⟨c, u, rfl⟩ := List.exists_cons_of_ne_nil hne
    have hc : ¬ isMargin c = true := by
      rw [hhead c rfl]
      exact Bool.false_ne_true
    -- The core begins and ends without a margin, so that it is left as it is.
    have hself : Text.dropEndWhile isMargin (c :: u) = c :: u := by
      rw [Text.dropEndWhile_eq_rdropWhile, List.rdropWhile_eq_self_iff]
      intro hne
      rw [hlast _ (List.getLast?_eq_some_getLast hne)]
      exact Bool.false_ne_true
    rw [List.append_assoc, List.dropWhile_append_of_pos hbefore, List.cons_append,
      List.dropWhile_cons_of_neg hc, ← List.cons_append,
      Text.dropEndWhile_append_of_forall _ hafter, hself]

/-- A loosely written one ends in a zero of its fraction or in the one itself. -/
theorem IsLooseOne.getLast? (h : IsLooseOne t) :
    t.getLast? = some '0' ∨ t.getLast? = some '1' := by
  obtain ⟨zeros, fraction, -, rfl | ⟨u, rfl, hne, hu⟩, rfl⟩ := h
  · exact .inr List.getLast?_concat
  · obtain ⟨v, d, rfl⟩ := (List.eq_nil_or_concat u).resolve_left hne
    left
    have hd : d = '0' := hu d (by simp)
    have hsplit : zeros ++ '1' :: '.' :: (v ++ ['0']) = (zeros ++ '1' :: '.' :: v) ++ ['0'] := by
      simp
    rw [hd, List.concat_eq_append, hsplit, List.getLast?_concat]

/-! ## Numerals -/

/-- What the digits after a sign write. -/
def unsigned (negative : Bool) (t : Text) : Except Complaint Int :=
  match t.takeWhile Char.isDigit, t.dropWhile Char.isDigit with
  | [], _ => .error .notNumeral
  | ['0'], [] => .ok 0
  | '0' :: _, _ => .error .notNumeral
  | digits, rest =>
    if digitLimit < digits.length then .error .tooLong
    else if !rest.isEmpty then .error .notNumeral
    else
      let n := digits.foldl (fun n c => n * 10 + (c.toNat - '0'.toNat)) 0
      .ok (if negative then -(n : Int) else n)

theorem plainNumeral_minus (t : Text) : plainNumeral ('-' :: t) = unsigned true t := rfl

theorem plainNumeral_of_head?_ne (h : t.head? ≠ some '-') : plainNumeral t = unsigned false t := by
  rcases t with _ | ⟨c, u⟩
  · rfl
  · have hc : c ≠ '-' := fun hc => h (congrArg some hc)
    unfold plainNumeral
    simp only [List.cons.injEq, hc, false_and, imp_self, implies_true]
    rfl

theorem plainNumeral_cons_of_not_digit {c : Char} (hc : c.isDigit = false) (hminus : c ≠ '-')
    (t : Text) : plainNumeral (c :: t) = .error .notNumeral := by
  have hhead : (c :: t).head? ≠ some '-' := fun h => hminus (Option.some.inj h)
  rw [plainNumeral_of_head?_ne hhead, unsigned,
    List.takeWhile_cons_of_neg (by rw [hc]; exact Bool.false_ne_true)]

/-- A plain numeral has no zero before other digits. -/
theorem plainNumeral_zero_cons (hne : t ≠ []) :
    plainNumeral ('0' :: t) = .error .notNumeral := by
  rw [plainNumeral_of_head?_ne (by simp), unsigned, List.takeWhile_cons_of_pos (by decide),
    List.dropWhile_cons_of_pos (by decide)]
  split
  · rfl
  · next hdigits hrest =>
    rw [← List.takeWhile_append_dropWhile (p := Char.isDigit) (l := t), hrest,
      (List.cons.inj hdigits).2] at hne
    exact absurd rfl hne
  · rfl
  · next hzero _ => exact absurd rfl (hzero _)

theorem plainNumeral_one_cons {c : Char} (hc : c.isDigit = false) (t : Text) :
    plainNumeral ('1' :: c :: t) = .error .notNumeral := by
  have hc' : ¬ c.isDigit = true := by
    rw [hc]
    exact Bool.false_ne_true
  rw [plainNumeral_of_head?_ne (by simp), unsigned, List.takeWhile_cons_of_pos (by decide),
    List.dropWhile_cons_of_pos (by decide), List.takeWhile_cons_of_neg hc',
    List.dropWhile_cons_of_neg hc']
  rfl

/-- Digits can only make a number greater. -/
theorem le_foldl_digits (digits : Text) (n : Nat) :
    n ≤ digits.foldl (fun n c => n * 10 + (c.toNat - '0'.toNat)) n := by
  induction digits generalizing n with
  | nil => exact Nat.le_refl n
  | cons c digits ih =>
    have hstep : n ≤ n * 10 + (c.toNat - '0'.toNat) := by omega
    exact Nat.le_trans hstep (ih _)

/-- Digits that start with no zero write one only if they are the digit `1`. -/
theorem eq_one_of_foldl_digits {c : Char} {digits : Text} (hc : c.isDigit = true) (hzero : c ≠ '0')
    (h : (c :: digits).foldl (fun n c => n * 10 + (c.toNat - '0'.toNat)) 0 = 1) :
    c :: digits = ['1'] := by
  have hrange := Char.isDigit_iff_toNat.1 hc
  have hne : c.toNat ≠ '0'.toNat := fun heq => hzero (Char.toNat_inj.1 heq)
  have hzeroNat : '0'.toNat = 48 := rfl
  have hfirst := le_foldl_digits digits (0 * 10 + (c.toNat - '0'.toNat))
  rw [List.foldl_cons] at h
  cases digits with
  | nil =>
    have hone : c.toNat = '1'.toNat := by
      show c.toNat = 49
      rw [List.foldl_nil] at h
      omega
    rw [Char.toNat_inj.1 hone]
  | cons d digits =>
    -- A second digit makes ten at least.
    have := le_foldl_digits digits ((0 * 10 + (c.toNat - '0'.toNat)) * 10 + (d.toNat - '0'.toNat))
    rw [List.foldl_cons] at h
    omega

/-- The digits of a plain numeral are one if there is a single one, and no minus sign before it. -/
theorem unsigned_eq_one_iff {negative : Bool} :
    unsigned negative t = .ok 1 ↔ negative = false ∧ t = ['1'] := by
  refine ⟨fun h => ?_, fun ⟨hneg, ht⟩ => by rw [hneg, ht]; rfl⟩
  unfold unsigned at h
  split at h
  · exact nomatch h
  · exact absurd (Except.ok.inj h) (by decide)
  · exact nomatch h
  · next hnonempty hzero _ =>
    split at h
    · exact nomatch h
    · split at h
      · exact nomatch h
      · next hrest =>
        rw [Bool.not_eq_true, Bool.not_eq_false', List.isEmpty_iff] at hrest
        have ht := List.takeWhile_append_dropWhile (p := Char.isDigit) (l := t)
        rw [hrest, List.append_nil] at ht
        rw [ht] at h hnonempty hzero
        obtain ⟨c, digits, rfl⟩ := List.exists_cons_of_ne_nil hnonempty
        -- The first digit is no zero, or else the only one.
        have hc : c.isDigit = true := List.mem_takeWhile_imp (ht ▸ List.mem_cons_self)
        have hvalue := Except.ok.inj h
        cases negative with
        | true =>
          rw [if_pos rfl] at hvalue
          omega
        | false =>
          refine ⟨rfl, eq_one_of_foldl_digits hc (fun hc => hzero digits (by rw [hc])) ?_⟩
          rw [if_neg Bool.false_ne_true] at hvalue
          exact Int.ofNat.inj hvalue

/-- A plain numeral writes one as a single digit. -/
theorem plainNumeral_eq_one_iff : plainNumeral t = .ok 1 ↔ t = ['1'] := by
  by_cases h : t.head? = some '-'
  · obtain ⟨u, rfl⟩ := List.head?_eq_some_iff.1 h
    rw [plainNumeral_minus, unsigned_eq_one_iff]
    simp
  · rw [plainNumeral_of_head?_ne h, unsigned_eq_one_iff]
    simp

/-- No margin is a part of a numeral. -/
theorem not_digit_of_isMargin {c : Char} (h : isMargin c = true) :
    c.isDigit = false ∧ c ≠ '-' := by
  simp only [isMargin, Text.isBlank, Bool.and_eq_true, Bool.or_eq_true, decide_eq_true_eq,
    beq_iff_eq] at h
  refine ⟨Bool.eq_false_iff.2 fun hdigit => ?_, fun hminus => ?_⟩
  · have hrange : 48 ≤ c.toNat ∧ c.toNat ≤ 57 := Char.isDigit_iff_toNat.1 hdigit
    omega
  · have : c.toNat = 45 := by rw [hminus]; rfl
    omega

/-- What is wrong with a text that writes one in a loose form is that it is no plain numeral, and
    not that it is too long. -/
theorem WritesOne.plainNumeral_eq (h : WritesOne t) (hne : t ≠ ['1']) :
    plainNumeral t = .error .notNumeral := by
  obtain ⟨before, sign, one, after, hbefore, hsign, hone, hafter, rfl⟩ := h
  rcases before with _ | ⟨c, before⟩
  · rcases hsign with rfl | rfl
    · obtain ⟨zeros, fraction, rfl | ⟨u, rfl, -⟩, hfraction, rfl⟩ := hone
      · rcases hfraction with rfl | ⟨u, rfl, -⟩
        · rcases after with _ | ⟨c, after⟩
          · exact absurd rfl hne
          · exact plainNumeral_one_cons (not_digit_of_isMargin (hafter c List.mem_cons_self)).1 after
        · exact plainNumeral_one_cons (by decide) _
      · exact plainNumeral_zero_cons (by simp)
    · exact plainNumeral_cons_of_not_digit (by decide) (by decide) _
  · obtain ⟨hdigit, hminus⟩ := not_digit_of_isMargin (hbefore c List.mem_cons_self)
    exact plainNumeral_cons_of_not_digit hdigit hminus _

/-- A string writes one in the ways that are listed, and in no other. -/
theorem writesOne_iff : WritesOne t ↔ tidyNumeral? t = some ['1'] := by
  have hmargins : ∀ {sign one : Text}, sign = [] ∨ sign = ['+'] → IsLooseOne one →
      (Text.dropEndWhile isMargin (t.dropWhile isMargin) = sign ++ one ↔
        ∃ before after, (∀ c ∈ before, isMargin c = true) ∧ (∀ c ∈ after, isMargin c = true) ∧
          t = before ++ (sign ++ one) ++ after) := by
    -- A sign or the one is at the start, and the one at the end: neither is a margin.
    intro sign one hsign hone
    have hne : one ≠ [] := fun h => by
      rcases hone.head? with hc | hc <;> rw [h] at hc <;> exact nomatch hc
    refine withoutMargins_eq_iff (List.append_ne_nil_of_right_ne_nil _ hne) ?_ ?_
    · intro c hc
      rcases hsign with rfl | rfl
      · rcases hone.head? with h | h <;> rw [List.nil_append, h] at hc <;> cases hc <;> decide
      · cases hc
        decide
    · intro c hc
      rw [List.getLast?_append_of_ne_nil _ hne] at hc
      rcases hone.getLast? with h | h <;> rw [h] at hc <;> cases hc <;> decide
  rw [tidyNumeral?_eq_one_iff]
  constructor
  · rintro ⟨before, sign, one, after, hbefore, hsign, hone, hafter, ht⟩
    exact ⟨sign, one, hsign, hone, (hmargins hsign hone).2 ⟨before, after, hbefore, hafter, ht⟩⟩
  · rintro ⟨sign, one, hsign, hone, heq⟩
    obtain ⟨before, after, hbefore, hafter, ht⟩ := (hmargins hsign hone).1 heq
    exact ⟨before, sign, one, after, hbefore, hsign, hone, hafter, ht⟩

/-- The texts that write one are those that are read as one. -/
theorem numeral_eq_ok_one_iff : numeral t = .ok 1 ↔ WritesOne t := by
  have hplain : WritesOne ['1'] :=
    ⟨[], [], ['1'], [], nofun, .inl rfl, ⟨[], [], .inl rfl, .inl rfl, rfl⟩, nofun, rfl⟩
  constructor
  · intro h
    unfold numeral at h
    split at h
    · split at h
      · exact nomatch h
      · next u hu =>
        rw [plainNumeral_eq_one_iff.1 (mapError_eq_ok_iff.1 h)] at hu
        exact writesOne_iff.2 hu
    · rw [plainNumeral_eq_one_iff.1 h]
      exact hplain
  · intro h
    by_cases ht : t = ['1']
    · rw [ht]
      rfl
    · -- It is no plain numeral, so that its loose form is taken off and it is read again.
      rw [numeral, h.plainNumeral_eq ht, writesOne_iff.1 h]
      rfl

example : numeral " +00_1.0\t".toList = .ok 1 := by decide +kernel

/-! ## Versions -/

/-- The value is read as the integer one: it is true, the number one with a fraction of zeros or
    without, or a string that writes one. -/
def ReadsAsOne : Json → Prop
  | .bool b => b = true
  | .int i => i = 1
  | .float x => x.toInt? = some 1
  | .string w => ∃ t, w = .text t ∧ WritesOne t
  | _ => False

/-- A number is one if it is the integer one. -/
theorem whole_eq_ok_one_iff {x : Binary64} : whole x = .ok 1 ↔ x.toInt? = some 1 := by
  unfold whole
  split
  · exact iff_of_false nofun nofun
  · exact iff_of_false nofun nofun
  · split
    · next hnone =>
      rw [hnone]
      exact iff_of_false nofun nofun
    · next i hi =>
      rw [hi, Option.some.injEq]
      split
      · rw [Except.ok.injEq]
      · next hbound =>
        refine iff_of_false nofun ?_
        rintro rfl
        exact hbound (by decide)

/-- A value is read as the integer one in the ways that are listed, and in no other. -/
theorem integer_eq_ok_one_iff {v : Json} : integer v = .ok 1 ↔ ReadsAsOne v := by
  cases v with
  | bool b => cases b <;> simp [integer, ReadsAsOne]
  | int i => simp [integer, ReadsAsOne]
  | float x => exact mapError_eq_ok_iff.trans whole_eq_ok_one_iff
  | string w =>
    cases w with
    | text t =>
      refine (mapError_eq_ok_iff.trans numeral_eq_ok_one_iff).trans ⟨fun h => ⟨t, rfl, h⟩, ?_⟩
      rintro ⟨_, heq, h⟩
      cases heq
      exact h
    | broken codes => exact iff_of_false nofun fun ⟨_, h, _⟩ => nomatch h
  | null => exact iff_of_false nofun id
  | array vs => exact iff_of_false nofun id
  | object ms => exact iff_of_false nofun id

/-- The only version is one. -/
theorem version_eq_ok_iff (v : Json) (i : Int) : version v = .ok i ↔ i = 1 ∧ ReadsAsOne v := by
  rw [version, bind_eq_ok_iff, ← integer_eq_ok_one_iff]
  constructor
  · rintro ⟨j, hj, h⟩
    split at h
    · exact nomatch h
    · split at h
      · exact nomatch h
      · next hsmall hlarge =>
        have hone : j = 1 := Int.le_antisymm (Int.not_lt.1 hlarge) (Int.not_lt.1 hsmall)
        rw [← Except.ok.inj h, ← hone]
        exact ⟨rfl, hj⟩
  · rintro ⟨rfl, h⟩
    exact ⟨1, h, rfl⟩

end Payload

end DbmlRestore
