import DbmlRestore.Proofs.Json.Fronts
import DbmlRestore.Value
import Mathlib.Algebra.Ring.Nat

/-!
# Long integers

An integer with more digits than are read (`Json.IsLong`) stops the reader where it comes to it:
the text before it, read alone, stops at its end for want of a value (`Json.ReachesLong`). Nothing
else stops it so (`Json.parse_eq_digits_iff`). An integer that is read is short enough to be shown,
wherever it stands in a value (`Json.isTooLong_of_parse`).
-/

namespace DbmlRestore

namespace Json

/-! ## Where they stop the reader -/

/-- An integer with more digits than are read, in front of `rest`: the first digit is no zero, and
    neither a digit nor a fraction nor an exponent follows. -/
structure IsLong (sign digits rest : Text) : Prop where
  signed : sign = [] ∨ sign = ['-']
  decimal : ∀ c ∈ digits, isDigit c = true
  first : digits.head? ≠ some '0'
  long : digitLimit < digits.length
  ends : FirstIs (isDigit · = false) rest
  noFraction : fraction rest = (none, rest)
  noExponent : exponent rest = (none, rest)

/-- Where a value is wanted in the text, there is an integer of `n` digits, which are more than are
    read. -/
def ReachesLong (t : Text) (n : Nat) : Prop :=
  ∃ s sign digits rest, t = s ++ (sign ++ (digits ++ rest)) ∧
    document s = .error (.fault .value []) ∧ IsLong sign digits rest ∧ digits.length = n

/-- A numeral is refused for its length if it is an integer with too many digits, and for nothing
    else. -/
theorem value_eq_error_iff {m : Numeral} {e : Stop} : m.value = .error e ↔
    m.fraction = none ∧ m.exponent = none ∧ digitLimit < m.whole.length ∧
      e = .digits m.whole.length := by
  obtain ⟨negative, whole, f, i⟩ := m
  cases f with
  | some f => exact iff_of_false nofun fun h => nomatch h.1
  | none =>
    cases i with
    | some i => exact iff_of_false nofun fun h => nomatch h.2.1
    | none =>
      show (if digitLimit < whole.length then _ else _) = _ ↔ _
      split
      · next h => simp [h, eq_comm]
      · next h => exact iff_of_false nofun fun h' => h h'.2.2.1

/-- Where no word and no number can be read, the fault is at the start of the text. -/
theorem eq_of_scalar {t u : Text} {f : Fault} (h : scalar t = .error (.fault f u)) : u = t := by
  unfold scalar at h
  split at h
  · cases h
  · split at h
    · exact nomatch (value_eq_error_iff.1 (map_eq_error_iff.1 h)).2.2.2
    · exact (Stop.fault.inj (Except.error.inj h)).2.symm

theorem eq_of_fraction {t u : Text} (h : fraction t = (none, u)) : u = t := by
  unfold fraction at h
  split at h
  · split at h
    · exact (Prod.mk.inj h).2.symm
    · cases h
  · exact (Prod.mk.inj h).2.symm

/-- Where no exponent is found, nothing is taken. -/
theorem eq_of_exponent {t u : Text} (h : exponent t = (none, u)) : u = t := by
  have hletter : ∀ {c : Char} {t}, (signed? t).elim (none, c :: t)
      (fun r => (some r.1, r.2)) = (none, u) → u = c :: t := by
    intro c t h
    cases hs : signed? t with
    | none =>
      rw [hs] at h
      exact (Prod.mk.inj h).2.symm
    | some r =>
      rw [hs] at h
      cases h
  unfold exponent at h
  split at h
  · exact hletter h
  · exact hletter h
  · exact (Prod.mk.inj h).2.symm

variable {t sign digits rest : Text} {n : Nat}

/-- A long numeral without fraction and exponent is a long integer, which ends where it seems to. -/
theorem isLong_of_magnitude? {negative : Bool} {m : Numeral}
    (hm : magnitude? negative t = some (m, rest)) (hf : m.fraction = none)
    (he : m.exponent = none) (hlong : digitLimit < m.whole.length)
    (hsign : sign = [] ∨ sign = ['-']) : t = m.whole ++ rest ∧ IsLong sign m.whole rest := by
  obtain ⟨-, u, u', hwhole, hfraction, hexponent⟩ := magnitude?_eq_some_iff.1 hm
  rw [hf] at hfraction
  rw [he] at hexponent
  obtain rfl := eq_of_fraction hfraction
  obtain rfl := eq_of_exponent hexponent
  obtain ⟨ht, hdecimal, -, hzero | ⟨hfirst, hends⟩⟩ := whole?_eq_some hwhole
  · rw [hzero] at hlong
    exact absurd hlong (by decide)
  · exact ⟨ht, hsign, hdecimal, hfirst, hlong, hends, hfraction, hexponent⟩

/-- A long integer is read as a number that has no value. -/
theorem IsLong.scalar_eq (h : IsLong sign digits rest) :
    scalar (sign ++ (digits ++ rest)) = .error (.digits digits.length) := by
  have hne : digits ≠ [] := fun hnil => by
    have := h.long
    rw [hnil] at this
    exact absurd this (by decide)
  have hmagnitude : ∀ negative, magnitude? negative (digits ++ rest) =
      some (⟨negative, digits, none, none⟩, rest) := fun negative =>
    magnitude?_eq_some negative (whole?_append h.decimal hne h.first h.ends) h.noFraction
      h.noExponent
  -- The number is well formed, and only its value is refused.
  have hvalue : ∀ negative, Numeral.value ⟨negative, digits, none, none⟩ =
      .error (.digits digits.length) := fun negative =>
    value_eq_error_iff.2 ⟨rfl, rfl, h.long, rfl⟩
  obtain ⟨c, ds, rfl⟩ := List.exists_cons_of_ne_nil hne
  have hc : isDigit c = true := h.decimal c List.mem_cons_self
  rcases h.signed with rfl | rfl
  · have hnumeral : numeral? (c :: ds ++ rest) = some (⟨false, c :: ds, none, none⟩, rest) := by
      rw [List.cons_append, numeral?]
      · exact hmagnitude false
      · exact fun _ heq => ne_of_isDigit hc (by decide) (List.cons.inj heq).1
    rw [List.nil_append, scalar, show word? (c :: ds ++ rest) = none from (word?_of_isDigit hc _).1]
    dsimp only
    rw [hnumeral]
    exact map_eq_error_iff.2 (hvalue false)
  · have hnumeral : numeral? ('-' :: (c :: ds ++ rest)) =
        some (⟨true, c :: ds, none, none⟩, rest) := hmagnitude true
    rw [List.singleton_append, scalar,
      show word? ('-' :: (c :: ds ++ rest)) = none from (word?_of_isDigit hc _).2]
    dsimp only
    rw [hnumeral]
    exact map_eq_error_iff.2 (hvalue true)

/-- An atomic value is refused for its length if a long integer stands there. -/
theorem scalar_eq_digits_iff : scalar t = .error (.digits n) ↔
    ∃ sign digits rest, t = sign ++ (digits ++ rest) ∧ IsLong sign digits rest ∧
      digits.length = n := by
  constructor
  · intro h
    unfold scalar at h
    split at h
    · cases h
    · split at h
      · next m rest hm =>
        obtain ⟨hf, he, hlong, hn⟩ := value_eq_error_iff.1 (map_eq_error_iff.1 h)
        obtain rfl := Stop.digits.inj hn
        unfold numeral? at hm
        split at hm
        · obtain ⟨rfl, h⟩ := isLong_of_magnitude? hm hf he hlong (.inr rfl)
          exact ⟨_, _, _, rfl, h, rfl⟩
        · obtain ⟨rfl, h⟩ := isLong_of_magnitude? hm hf he hlong (.inl rfl)
          exact ⟨_, _, _, rfl, h, rfl⟩
      · cases h
  · rintro ⟨sign, digits, rest, rfl, h, rfl⟩
    exact h.scalar_eq

/-- A document is refused for a long integer if one stands where a value is wanted. -/
theorem document_eq_digits_iff : document t = .error (.digits n) ↔ ReachesLong t n := by
  have hend : (Stop.fault .value []).AtValue := .inl rfl
  have hdigits : (Stop.digits n).AtValue := .inr ⟨n, rfl⟩
  constructor
  · intro h
    obtain ⟨s, u, rfl, hu, hswap⟩ := document_swap h hdigits
    obtain ⟨sign, digits, rest, rfl, hlong, hn⟩ := scalar_eq_digits_iff.1 hu
    have hs := hswap [] _ rfl hend
    rw [List.append_nil] at hs
    exact ⟨s, sign, digits, rest, rfl, hs, hlong, hn⟩
  · rintro ⟨s, sign, digits, rest, rfl, hs, hlong, rfl⟩
    obtain ⟨s', u, rfl, hu, hswap⟩ := document_swap hs hend
    -- The value that is wanted at the end of the text is wanted after all of it.
    obtain rfl := eq_of_scalar hu
    rw [List.append_nil]
    exact hswap _ _ hlong.scalar_eq hdigits

/-- Reading fails for a long integer if there is one where a value is wanted, and only then. -/
theorem parse_eq_digits_iff : parse t = .error (.digits n) ↔ ReachesLong t n := by
  rw [← document_eq_digits_iff, parse]
  split
  · next h => simp [h]
  · next h => simp [h]
  · next h => simp [h]

/-! ## What is read is short -/

theorem sub_lt_of_isDigit {c : Char} (h : isDigit c = true) : c.toNat - '0'.toNat < 10 := by
  simp only [isDigit, Bool.and_eq_true, decide_eq_true_eq, Char.le_def] at h
  have hle : c.toNat ≤ '9'.toNat := h.2
  exact Nat.lt_succ_of_le (Nat.sub_le_sub_right hle _)

/-- Digits write a number that has no more of them. -/
theorem ofDigits_lt {ds : Text} (hds : ∀ c ∈ ds, isDigit c = true) :
    ofDigits ds < 10 ^ ds.length := by
  -- The digits are read from the left, so that the ones before have a number already.
  suffices h : ∀ n, ds.foldl (fun n c => n * 10 + (c.toNat - '0'.toNat)) n <
      (n + 1) * 10 ^ ds.length by
    have := h 0
    rwa [Nat.zero_add, Nat.one_mul] at this
  intro n
  induction ds generalizing n with
  | nil => exact Nat.lt_of_lt_of_eq (Nat.lt_succ_self n) (Nat.mul_one _).symm
  | cons c ds ih =>
    have hc := sub_lt_of_isDigit (hds c List.mem_cons_self)
    calc (c :: ds).foldl (fun n c => n * 10 + (c.toNat - '0'.toNat)) n
        < (n * 10 + (c.toNat - '0'.toNat) + 1) * 10 ^ ds.length :=
          ih (fun d hd => hds d (List.mem_cons_of_mem c hd)) _
      _ ≤ (n + 1) * 10 * 10 ^ ds.length := Nat.mul_le_mul_right _ (by omega)
      _ = (n + 1) * 10 ^ (c :: ds).length := by
          rw [List.length_cons, Nat.pow_succ', Nat.mul_assoc]

/-- What can be read can be shown. -/
theorem isTooLong_int {i : Int} (h : i.natAbs < 10 ^ digitLimit) :
    (Value.int i).isTooLong = false := by
  rw [Value.isTooLong]
  unfold Value.shownBound
  -- The power is not to be computed.
  generalize hd : 4300 = d
  rw [show digitLimit = d from hd] at h
  exact decide_eq_false (Nat.not_le.2 h)

/-- The whole part of a numeral that was read consists of digits. -/
theorem isDigit_of_numeral? {m : Numeral} (h : numeral? t = some (m, rest)) :
    ∀ c ∈ m.whole, isDigit c = true := by
  have hwhole : ∀ {negative t}, magnitude? negative t = some (m, rest) →
      ∀ c ∈ m.whole, isDigit c = true := fun h => by
    obtain ⟨-, u, u', hwhole, -⟩ := magnitude?_eq_some_iff.1 h
    exact (whole?_eq_some hwhole).2.1
  unfold numeral? at h
  split at h
  · exact hwhole h
  · exact hwhole h

/-- An integer that a numeral was read as is short enough to be shown. -/
theorem isTooLong_of_value {m : Numeral} {v : Json} (hdigits : ∀ c ∈ m.whole, isDigit c = true)
    (h : m.value = .ok v) : (Value.ofJson v).isTooLong = false := by
  obtain ⟨negative, whole, f, i⟩ := m
  cases f with
  -- With a fraction or an exponent, the value is no integer.
  | some f =>
    obtain rfl := Except.ok.inj h
    rfl
  | none =>
    cases i with
    | some i =>
      obtain rfl := Except.ok.inj h
      rfl
    | none =>
      simp only [Numeral.value] at h
      split at h
      · cases h
      · next hlong =>
        obtain rfl := Except.ok.inj h
        -- The number has no more digits than the limit, and is less than that power of ten.
        have hlt : ofDigits whole < 10 ^ digitLimit :=
          Nat.lt_of_lt_of_le (ofDigits_lt hdigits)
            (Nat.pow_le_pow_right (by decide) (Nat.not_lt.1 hlong))
        refine isTooLong_int (Nat.lt_of_le_of_lt (Nat.le_of_eq ?_) hlt)
        split
        · rw [Int.natAbs_neg, Int.natAbs_natCast]
        · rw [Int.natAbs_natCast]

/-- An atomic value that was read has no integer that is too long to be shown. -/
theorem isTooLong_of_scalar {v : Json} (h : scalar t = .ok (v, rest)) :
    (Value.ofJson v).isTooLong = false := by
  unfold scalar at h
  split at h
  · next r hr =>
    obtain rfl := Except.ok.inj h
    obtain ⟨⟨w, v'⟩, hw, h⟩ := List.exists_of_findSome?_eq_some hr
    obtain ⟨u, -, heq⟩ := Option.map_eq_some_iff.1 h
    obtain ⟨rfl, rfl⟩ := Prod.mk.inj heq
    have hwords : ∀ p ∈ words, (Value.ofJson p.2).isTooLong = false := by
      simp only [words, List.forall_mem_cons]
      exact ⟨rfl, rfl, rfl, rfl, rfl, rfl, List.forall_mem_nil _⟩
    exact hwords _ hw
  · split at h
    · next m u hm =>
      obtain ⟨v', hv, heq⟩ := map_eq_ok_iff.1 h
      obtain ⟨rfl, rfl⟩ := Prod.mk.inj heq
      exact isTooLong_of_value (isDigit_of_numeral? hm) hv
    · cases h

/-- What holds of all items that can be read holds of the items of a list. -/
theorem forall_of_listOf {α : Type} {close : Char} {missing : Fault} {item : Reader α}
    {P : α → Prop} (hclose : close ≠ ',') (hitem : ∀ {t a u}, item t = .ok (a, u) → P a)
    {fuel : Nat} {as : List α} (h : listOf close missing item fuel t = .ok (as, rest)) :
    ∀ a ∈ as, P a := by
  induction fuel generalizing t as with
  | zero => cases h
  | succ fuel ih =>
    obtain ⟨a, u, ha, ⟨-, rfl⟩ | ⟨w, bs, -, hbs, rfl⟩⟩ := (listOf_eq_ok_iff hclose).1 h
    · exact List.forall_mem_singleton.2 (hitem ha)
    · exact List.forall_mem_cons.2 ⟨hitem ha, ih hbs⟩

theorem forall_of_enclosed {α : Type} {close : Char} {missing : Fault} {item : Reader α}
    {P : α → Prop} (hclose : close ≠ ',') (hitem : ∀ {t a u}, item t = .ok (a, u) → P a)
    {as : List α} (h : enclosed close missing item t = .ok (as, rest)) : ∀ a ∈ as, P a := by
  rcases (enclosed_eq_iff ..).1 h with ⟨u, -, heq⟩ | ⟨-, h⟩
  · obtain ⟨rfl, -⟩ := Prod.mk.inj (Except.ok.inj heq)
    exact fun _ h => nomatch h
  · exact forall_of_listOf hclose hitem h

theorem anyTooLong_ofItems {vs : List Json} (h : ∀ v ∈ vs, (Value.ofJson v).isTooLong = false) :
    Value.anyTooLong (Value.ofItems vs) = false := by
  induction vs with
  | nil => rfl
  | cons v vs ih =>
    obtain ⟨hv, hvs⟩ := List.forall_mem_cons.1 h
    rw [Value.ofItems, Value.anyTooLong, hv, ih hvs]
    rfl

theorem anyMemberTooLong_ofMembers {ms : Members}
    (h : ∀ m ∈ ms, (Value.ofJson m.2).isTooLong = false) :
    Value.anyMemberTooLong (Value.ofMembers ms) = false := by
  induction ms with
  | nil => rfl
  | cons m ms ih =>
    obtain ⟨hm, hms⟩ := List.forall_mem_cons.1 h
    obtain ⟨k, v⟩ := m
    rw [Value.ofMembers, Value.anyMemberTooLong, ih hms, Bool.or_false]
    exact hm

/-- Setting a key adds no value but its own. -/
theorem forall_insert {P : Json → Prop} {k : Wording} {v : Json} {ms : Members} (hv : P v)
    (hms : ∀ m ∈ ms, P m.2) : ∀ m ∈ Members.insert k v ms, P m.2 := by
  induction ms with
  | nil => exact List.forall_mem_singleton.2 hv
  | cons m ms ih =>
    obtain ⟨hm, hms⟩ := List.forall_mem_cons.1 hms
    rw [Members.insert]
    split
    · exact List.forall_mem_cons.2 ⟨hv, hms⟩
    · exact List.forall_mem_cons.2 ⟨hm, ih hms⟩

theorem forall_foldl_insert {P : Json → Prop} {acc ms : Members} (hacc : ∀ m ∈ acc, P m.2)
    (hms : ∀ m ∈ ms, P m.2) :
    ∀ m ∈ ms.foldl (fun acc (k, v) => Members.insert k v acc) acc, P m.2 := by
  induction ms generalizing acc with
  | nil => exact hacc
  | cons m ms ih =>
    obtain ⟨hm, hms⟩ := List.forall_mem_cons.1 hms
    exact ih (forall_insert hm hacc) hms

theorem of_pair {item : Reader Json} {P : Json → Prop}
    (hitem : ∀ {t v u}, item t = .ok (v, u) → P v) {m : Wording × Json}
    (h : pair item t = .ok (m, rest)) : P m.2 := by
  obtain ⟨⟨k, u⟩, -, h⟩ := bind_eq_ok_iff.1 h
  obtain ⟨⟨v, w⟩, hv, h⟩ := bind_eq_ok_iff.1 h
  obtain ⟨rfl, -⟩ := Prod.mk.inj (Except.ok.inj h)
  exact hitem hv

/-- No integer in a value that is read is too long to be shown. -/
theorem isTooLong_of_read {v : Json} {fuel : Nat} (h : value fuel t = .ok (v, rest)) :
    (Value.ofJson v).isTooLong = false := by
  induction fuel generalizing t v rest with
  | zero => cases h
  | succ fuel ih =>
    rcases first_cases t with ⟨u, rfl⟩ | ⟨u, rfl⟩ | ⟨u, rfl⟩ | ht
    · rw [value_string] at h
      obtain ⟨⟨ns, w⟩, -, heq⟩ := map_eq_ok_iff.1 h
      obtain ⟨rfl, -⟩ := Prod.mk.inj heq
      rfl
    · rw [value_bracket] at h
      obtain ⟨⟨vs, w⟩, hvs, heq⟩ := map_eq_ok_iff.1 h
      obtain ⟨rfl, -⟩ := Prod.mk.inj heq
      exact anyTooLong_ofItems (forall_of_enclosed (by decide) ih hvs)
    · rw [value_brace] at h
      obtain ⟨⟨ms, w⟩, hms, heq⟩ := map_eq_ok_iff.1 h
      obtain ⟨rfl, -⟩ := Prod.mk.inj heq
      -- Later members of one key take the place of earlier ones, and all of them were read.
      have hread : ∀ m ∈ ms, (Value.ofJson m.2).isTooLong = false :=
        forall_of_enclosed (by decide) (of_pair ih) hms
      exact anyMemberTooLong_ofMembers
        (forall_foldl_insert (P := fun v => (Value.ofJson v).isTooLong = false)
          (List.forall_mem_nil _) hread)
    · rw [value_atomic ht (Nat.zero_lt_succ fuel)] at h
      exact isTooLong_of_scalar h

/-- A document that was read has no integer that is too long to be shown. -/
theorem isTooLong_of_parse {v : Json} (h : parse t = .ok v) :
    (Value.ofJson v).isTooLong = false := by
  rw [parse] at h
  split at h
  · next v' hv =>
    obtain rfl := Except.ok.inj h
    unfold document at hv
    split at hv
    · cases hv
    · obtain ⟨⟨v, rest⟩, hvalue, hv⟩ := bind_eq_ok_iff.1 hv
      dsimp only at hv
      split at hv
      · obtain rfl := Except.ok.inj hv
        exact isTooLong_of_read hvalue
      · cases hv
  · cases h
  · cases h

end Json

end DbmlRestore
