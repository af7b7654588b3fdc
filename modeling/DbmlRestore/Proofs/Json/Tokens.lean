import DbmlRestore.Proofs.Json.Reading
import DbmlRestore.Proofs.Json.Strings

/-!
# Reading strings, numbers and words

A string, a key, a number or a word is read off the front of a text, and whatever follows may be
replaced: a string or a key is over with a character of its own, and a number unless what follows
goes on with it (`Json.Stops`). So the lemmas of this file give the front that is read, and say
that it is read in front of any other text.

No value is wanted inside of a string or before a key (`Json.Stop.AtValue`). Where a word or a
number is wanted and none can be had, the text is at its end, or it starts with an integer that
has too many digits (`Json.numeric_of_scalar`).
-/

namespace DbmlRestore

namespace Json

/-- Reading stopped for want of a value: at the end of the text, or where an integer has too many
    digits. -/
def Stop.AtValue (e : Stop) : Prop := e = .fault .value [] ∨ ∃ n, e = .digits n

theorem Stop.not_atValue {f : Fault} {rest : Text} (h : f ≠ .value) :
    ¬ (Stop.fault f rest).AtValue := by
  rintro (heq | ⟨_, heq⟩)
  · exact h (Stop.fault.inj heq).1
  · cases heq

/-! ## Strings -/

/-- A string is read up to its closing quote, whatever follows. -/
theorem stringRest_eq_ok {start t rest : Text} {ns : List Nat}
    (h : stringRest start t = .ok (ns, rest)) : ∃ s, s ≠ [] ∧ t = s ++ rest ∧
      ∀ start' rest', stringRest start' (s ++ rest') = .ok (ns, rest') := by
  fun_induction stringRest start t generalizing ns with
  | case1 => cases h
  -- The string is over with its closing quote,
  | case2 t =>
    obtain ⟨rfl, rfl⟩ := Prod.mk.inj (Except.ok.inj h)
    exact ⟨['"'], by simp, rfl, fun _ _ => rfl⟩
  | case3 => cases h
  | case4 => cases h
  -- or goes on with a character that is told by its code,
  | case5 a b c d e t n hn ih =>
    obtain ⟨⟨ms, u⟩, hms, heq⟩ := map_eq_ok_iff.1 h
    obtain ⟨rfl, rfl⟩ := Prod.mk.inj heq
    obtain ⟨s, hs, ht, hread⟩ := ih hms
    obtain ⟨e', s, rfl⟩ := List.exists_cons_of_ne_nil hs
    refine ⟨'\\' :: 'u' :: a :: b :: c :: d :: e' :: s, by simp, by rw [ht]; rfl, ?_⟩
    intro start' rest'
    show stringRest start' ('\\' :: 'u' :: a :: b :: c :: d :: e' :: (s ++ rest')) = _
    rw [stringRest, hn]
    exact map_eq_ok_iff.2 ⟨_, hread start' rest', rfl⟩
  | case6 => cases h
  | case7 => cases h
  -- by a letter after a backslash,
  | case8 c t _ hc x hx ih =>
    obtain ⟨⟨ms, u⟩, hms, heq⟩ := map_eq_ok_iff.1 h
    obtain ⟨rfl, rfl⟩ := Prod.mk.inj heq
    obtain ⟨s, -, rfl, hread⟩ := ih hms
    refine ⟨'\\' :: c :: s, by simp, rfl, fun start' rest' => ?_⟩
    show stringRest start' ('\\' :: c :: (s ++ rest')) = _
    rw [stringRest_letter start' hc hx, hread]
    rfl
  | case9 => cases h
  -- or as it is.
  | case10 c t hq hend _ _ hback hc ih =>
    obtain ⟨⟨ms, u⟩, hms, heq⟩ := map_eq_ok_iff.1 h
    obtain ⟨rfl, rfl⟩ := Prod.mk.inj heq
    obtain ⟨s, -, rfl, hread⟩ := ih hms
    have hslash : c ≠ '\\' := fun heq => by
      cases hs : s ++ u with
      | nil => exact hend heq hs
      | cons d w => exact hback d w heq hs
    refine ⟨c :: s, by simp, rfl, fun start' rest' => ?_⟩
    show stringRest start' (c :: (s ++ rest')) = _
    rw [stringRest_plain start' hq hslash (Nat.not_lt.1 hc), hread]
    rfl

/-- No value is wanted in a string. -/
theorem stringRest_eq_error {start t : Text} {e : Stop} (h : stringRest start t = .error e) :
    ¬ e.AtValue := by
  fun_induction stringRest start t with
  | case2 => cases h
  | case5 _ _ _ _ _ _ _ _ ih | case8 _ _ _ _ _ _ ih | case10 _ _ _ _ _ _ _ _ ih =>
    exact ih (map_eq_error_iff.1 h)
  | case1 | case3 | case4 | case6 | case7 | case9 =>
    exact Except.error.inj h ▸ Stop.not_atValue (by decide)

/-- A key is read up to what follows its colon and the blanks after it. -/
theorem memberKey_eq_ok {t rest : Text} {k : Wording} (h : memberKey t = .ok (k, rest)) :
    ∃ s, s ≠ [] ∧ t = s ++ rest ∧ Firm rest ∧ ∀ u, Firm u → memberKey (s ++ u) = .ok (k, u) := by
  unfold memberKey at h
  split at h
  · next t =>
    obtain ⟨⟨ns, u⟩, hns, h⟩ := bind_eq_ok_iff.1 h
    dsimp only at h
    split at h
    · next w hw =>
      obtain ⟨rfl, rfl⟩ := Prod.mk.inj (Except.ok.inj h)
      obtain ⟨s, -, rfl, hread⟩ := stringRest_eq_ok hns
      obtain ⟨b, hb, hskip, -⟩ := exists_blanks u
      obtain ⟨b', hb', hskip', -⟩ := exists_blanks w
      -- The key, the blanks before the colon, and those behind it.
      refine ⟨'"' :: (s ++ (b ++ ':' :: b')), by simp, ?_, firm_skipSpace w, fun v hv => ?_⟩
      · rw [hb, hw]
        simp only [List.cons_append, List.append_assoc, ← hb']
      · have htext : '"' :: (s ++ (b ++ ':' :: b')) ++ v =
            '"' :: (s ++ (b ++ ':' :: (b' ++ v))) := by
          simp only [List.cons_append, List.append_assoc]
        rw [htext]
        show (stringRest _ _ >>= _) = _
        rw [hread]
        dsimp only [bind, Except.bind]
        rw [hskip _ (firstIs_cons.2 (by decide))]
        show Except.ok (wordingOf ns, skipSpace (b' ++ v)) = _
        rw [hskip' v hv]
    · cases h
  · cases h

/-- No error in the key of a member is one of a value. -/
theorem memberKey_eq_error {t : Text} {e : Stop} (h : memberKey t = .error e) : ¬ e.AtValue := by
  unfold memberKey at h
  split at h
  · rcases bind_eq_error_iff.1 h with h | ⟨⟨ns, u⟩, -, h⟩
    · exact stringRest_eq_error h
    · dsimp only at h
      split at h
      · cases h
      · exact Except.error.inj h ▸ Stop.not_atValue (by decide)
  · exact Except.error.inj h ▸ Stop.not_atValue (by decide)

/-! ## Numbers and words -/

/-- The digits before the point are followed by none, unless they are a single zero. -/
theorem whole?_eq_some {t digits rest : Text} (h : whole? t = some (digits, rest)) :
    t = digits ++ rest ∧ (∀ c ∈ digits, isDigit c = true) ∧ digits ≠ [] ∧
      (digits = ['0'] ∨ digits.head? ≠ some '0' ∧ FirstIs (isDigit · = false) rest) := by
  unfold whole? at h
  split at h
  · obtain ⟨rfl, rfl⟩ := Prod.mk.inj (Option.some.inj h)
    exact ⟨rfl, List.forall_mem_singleton.2 rfl, by simp, .inl rfl⟩
  · next hzero =>
    split at h
    · cases h
    · next ds hne =>
      obtain ⟨rfl, rfl⟩ := Prod.mk.inj (Option.some.inj h)
      refine ⟨List.takeWhile_append_dropWhile.symm, fun c hc => List.mem_takeWhile_imp hc, hne,
        .inr ⟨fun hhead => ?_, fun c hc => ?_⟩⟩
      · obtain ⟨u, hu⟩ := List.head?_eq_some_iff.1 hhead
        refine hzero (u ++ t.dropWhile isDigit) ?_
        rw [← List.cons_append, ← hu, List.takeWhile_append_dropWhile]
      · have := List.head?_dropWhile_not isDigit t
        rw [show (t.dropWhile isDigit).head? = some c from hc] at this
        exact this

/-- A fraction is a point with digits, or nothing. -/
theorem fraction_eq {t rest : Text} {f : Option Text} (h : fraction t = (f, rest)) :
    ∃ s, t = s ++ rest ∧ FirstIs (· = '.') s ∧
      ∀ u, FirstIs (fun c => isDigit c = false ∧ c ≠ '.') u → fraction (s ++ u) = (f, u) := by
  -- Without a point and digits, nothing is taken.
  have hnone : ∀ u, FirstIs (fun c => isDigit c = false ∧ c ≠ '.') u →
      fraction ([] ++ u) = (none, u) := fun u hu => fraction_eq_none fun c hc => (hu c hc).2
  unfold fraction at h
  split at h
  · next t =>
    split at h
    · obtain ⟨rfl, rfl⟩ := Prod.mk.inj h
      exact ⟨[], rfl, firstIs_nil, hnone⟩
    · next ds hne =>
      obtain ⟨rfl, rfl⟩ := Prod.mk.inj h
      refine ⟨'.' :: t.takeWhile isDigit, ?_, firstIs_cons.2 rfl, fun u hu => ?_⟩
      · rw [List.cons_append, List.takeWhile_append_dropWhile]
      · obtain ⟨htake, hdrop⟩ := @takeWhile_isDigit_append (t.takeWhile isDigit) u
          (fun c hc => List.mem_takeWhile_imp hc) fun c hc => (hu c hc).1
        show fraction ('.' :: (t.takeWhile isDigit ++ u)) = _
        obtain ⟨d, ds, hds⟩ := List.exists_cons_of_ne_nil hne
        rw [fraction, htake, hdrop, hds]
  · obtain ⟨rfl, rfl⟩ := Prod.mk.inj h
    exact ⟨[], rfl, firstIs_nil, hnone⟩

/-- Digits are read as they are whatever follows, if it is no digit. -/
theorem unsigned_eq_some {t rest : Text} {n : Nat} (h : signed?.unsigned t = some (n, rest)) :
    ∃ s, s ≠ [] ∧ (∀ c ∈ s, isDigit c = true) ∧ t = s ++ rest ∧
      ∀ u, FirstIs (isDigit · = false) u → signed?.unsigned (s ++ u) = some (n, u) := by
  unfold signed?.unsigned at h
  split at h
  · cases h
  · next ds hne =>
    obtain ⟨rfl, rfl⟩ := Prod.mk.inj (Option.some.inj h)
    have hds : ∀ c ∈ t.takeWhile isDigit, isDigit c = true := fun c hc => List.mem_takeWhile_imp hc
    refine ⟨t.takeWhile isDigit, hne, hds, List.takeWhile_append_dropWhile.symm, fun u hu => ?_⟩
    obtain ⟨htake, hdrop⟩ := takeWhile_isDigit_append hds hu
    obtain ⟨d, ds, hds⟩ := List.exists_cons_of_ne_nil hne
    rw [signed?.unsigned, htake, hdrop, hds]

/-- An integer with a sign is read as it is whatever follows, if it is no digit. -/
theorem signed?_eq_some {t rest : Text} {i : Int} (h : signed? t = some (i, rest)) :
    ∃ s, t = s ++ rest ∧ ∀ u, FirstIs (isDigit · = false) u → signed? (s ++ u) = some (i, u) := by
  unfold signed? at h
  split at h <;> obtain ⟨⟨n, w⟩, hn, heq⟩ := Option.map_eq_some_iff.1 h <;>
    obtain ⟨rfl, rfl⟩ := Prod.mk.inj heq <;> obtain ⟨s, hne, hs, rfl, hread⟩ := unsigned_eq_some hn
  · refine ⟨'-' :: s, rfl, fun u hu => ?_⟩
    show (signed?.unsigned (s ++ u)).map _ = _
    rw [hread u hu]
    rfl
  · refine ⟨'+' :: s, rfl, fun u hu => ?_⟩
    show (signed?.unsigned (s ++ u)).map _ = _
    rw [hread u hu]
    rfl
  · refine ⟨s, rfl, fun u hu => ?_⟩
    obtain ⟨c, s, rfl⟩ := List.exists_cons_of_ne_nil hne
    have hc : isDigit c = true := hs c List.mem_cons_self
    rw [List.cons_append, signed?, ← List.cons_append, hread u hu]
    · rfl
    · exact fun _ heq => ne_of_isDigit hc (by decide) (List.cons.inj heq).1
    · exact fun _ heq => ne_of_isDigit hc (by decide) (List.cons.inj heq).1

/-- An exponent is its letter with digits that may have a sign, or nothing. -/
theorem exponent_eq {t rest : Text} {e : Option Int} (h : exponent t = (e, rest)) :
    ∃ s, t = s ++ rest ∧ FirstIs (fun c => c = 'e' ∨ c = 'E') s ∧
      ∀ u, Stops u → exponent (s ++ u) = (e, u) := by
  -- Without a letter, or a number behind it, nothing is taken.
  have hnothing : (none, t) = (e, rest) → ∃ s, t = s ++ rest ∧
      FirstIs (fun c => c = 'e' ∨ c = 'E') s ∧ ∀ u, Stops u → exponent (s ++ u) = (e, u) := by
    intro h
    obtain ⟨rfl, rfl⟩ := Prod.mk.inj h
    exact ⟨[], rfl, firstIs_nil, fun u hu => exponent_eq_none fun c hc => (hu c hc).2.2⟩
  cases t with
  | nil => exact hnothing h
  | cons a t =>
    by_cases ha : a = 'e' ∨ a = 'E'
    · have hletter : ∀ t, exponent (a :: t) =
          (signed? t).elim (none, a :: t) fun r => (some r.1, r.2) := by
        rcases ha with rfl | rfl <;> exact fun _ => rfl
      rw [hletter] at h
      cases hs : signed? t with
      | none =>
        rw [hs] at h
        exact hnothing h
      | some r =>
        obtain ⟨i, w⟩ := r
        rw [hs] at h
        obtain ⟨rfl, rfl⟩ := Prod.mk.inj h
        obtain ⟨s, rfl, hread⟩ := signed?_eq_some hs
        refine ⟨a :: s, rfl, firstIs_cons.2 ha, fun u hu => ?_⟩
        rw [List.cons_append, hletter, hread u fun c hc => (hu c hc).1]
        rfl
    · rw [exponent_eq_none (firstIs_cons.2 (not_or.1 ha))] at h
      exact hnothing h

/-- A number is read part by part, and each part as far as it goes. -/
theorem magnitude?_eq_some_iff {negative : Bool} {t rest : Text} {n : Numeral} :
    magnitude? negative t = some (n, rest) ↔ n.negative = negative ∧ ∃ u u',
      whole? t = some (n.whole, u) ∧ fraction u = (n.fraction, u') ∧
        exponent u' = (n.exponent, rest) := by
  constructor
  · intro h
    unfold magnitude? at h
    obtain ⟨⟨digits, u⟩, hd, h⟩ := Option.bind_eq_some_iff.1 h
    obtain ⟨rfl, rfl⟩ := Prod.mk.inj (Option.some.inj h)
    exact ⟨rfl, _, _, hd, rfl, rfl⟩
  · rintro ⟨rfl, u, u', hd, hf, he⟩
    exact magnitude?_eq_some n.negative hd hf he

/-- A number is read to its end, whatever stands after it that stops it. -/
theorem magnitude?_append {negative : Bool} {t rest : Text} {n : Numeral}
    (h : magnitude? negative t = some (n, rest)) : ∃ c s, isDigit c = true ∧
      t = c :: s ++ rest ∧ ∀ u, Stops u → magnitude? negative (c :: s ++ u) = some (n, u) := by
  obtain ⟨rfl, v, v', hd, hf, he⟩ := magnitude?_eq_some_iff.1 h
  obtain ⟨rfl, hdigits, hne, hzero⟩ := whole?_eq_some hd
  obtain ⟨f, rfl, hpoint, hfraction⟩ := fraction_eq hf
  obtain ⟨e, rfl, hletter, hexponent⟩ := exponent_eq he
  obtain ⟨c, ds, hds⟩ := List.exists_cons_of_ne_nil hne
  refine ⟨c, ds ++ (f ++ e), hdigits c (hds ▸ List.mem_cons_self), ?_, fun u hu => ?_⟩
  · rw [hds]
    simp only [List.cons_append, List.append_assoc]
  -- No part goes on with the one before it.
  have hafter : FirstIs (fun c => isDigit c = false ∧ c ≠ '.') (e ++ u) :=
    .append (hletter.imp fun c hc => by rcases hc with rfl | rfl <;> decide)
      fun c hc => ⟨(hu c hc).1, (hu c hc).2.1⟩
  have hdigit : FirstIs (isDigit · = false) (f ++ (e ++ u)) :=
    .append (hpoint.imp fun c hc => by rw [hc]; rfl) (hafter.imp fun c hc => hc.1)
  have hwhole : whole? (n.whole ++ (f ++ (e ++ u))) = some (n.whole, f ++ (e ++ u)) := by
    rcases hzero with hzero | ⟨hzero, -⟩
    · rw [hzero]
      rfl
    · exact whole?_append hdigits hne hzero hdigit
  have htext : c :: (ds ++ (f ++ e)) ++ u = n.whole ++ (f ++ (e ++ u)) := by
    rw [hds]
    simp only [List.cons_append, List.append_assoc]
  rw [htext]
  exact magnitude?_eq_some_iff.2 ⟨rfl, _, _, hwhole, hfraction _ hafter, hexponent u hu⟩

/-- A number is read whatever follows that does not go on with it, and it is no word. -/
theorem numeral?_append {t rest : Text} {n : Numeral} (h : numeral? t = some (n, rest)) :
    ∃ s, s ≠ [] ∧ Numeric s ∧ t = s ++ rest ∧
      ∀ u, (Stops u → numeral? (s ++ u) = some (n, u)) ∧ word? (s ++ u) = none := by
  unfold numeral? at h
  split at h
  · obtain ⟨c, s, hc, rfl, hread⟩ := magnitude?_append h
    exact ⟨'-' :: c :: s, by simp, firstIs_cons.2 (.inr rfl), rfl,
      fun u => ⟨hread u, (word?_of_isDigit hc _).2⟩⟩
  · obtain ⟨c, s, hc, rfl, hread⟩ := magnitude?_append h
    refine ⟨c :: s, by simp, firstIs_cons.2 (.inl hc), rfl,
      fun u => ⟨fun hu => ?_, (word?_of_isDigit hc _).1⟩⟩
    rw [List.cons_append, numeral?]
    · exact hread u hu
    · exact fun _ heq => ne_of_isDigit hc (by decide) (List.cons.inj heq).1

theorem after?_eq_some {w t rest : Text} (h : Text.after? w t = some rest) : t = w ++ rest := by
  fun_induction Text.after? w t with
  | case1 => exact Option.some.inj h
  | case2 => cases h
  | case3 _ _ _ ih => exact congrArg _ (ih h)
  | case4 => cases h

/-- A word is read whatever follows. -/
theorem word?_append {t rest : Text} {v : Json} (h : word? t = some (v, rest)) :
    ∃ s, s ≠ [] ∧ t = s ++ rest ∧ ∀ u, word? (s ++ u) = some (v, u) := by
  obtain ⟨⟨w, v'⟩, hw, h⟩ := List.exists_of_findSome?_eq_some h
  obtain ⟨u, hu, heq⟩ := Option.map_eq_some_iff.1 h
  obtain ⟨rfl, rfl⟩ := Prod.mk.inj heq
  refine ⟨w, ?_, after?_eq_some hu, ?_⟩
  · rintro rfl
    exact absurd (List.mem_map_of_mem hw) (by decide : [] ∉ words.map Prod.fst)
  · simp only [words, List.mem_cons, List.not_mem_nil, or_false] at hw
    rcases hw with hw | hw | hw | hw | hw | hw <;> obtain ⟨rfl, rfl⟩ := Prod.mk.inj hw <;>
      exact fun _ => rfl

/-- An atomic value is read to its end in the same way. -/
theorem scalar_eq_ok {t rest : Text} {v : Json} (h : scalar t = .ok (v, rest)) :
    ∃ s, s ≠ [] ∧ t = s ++ rest ∧ ∀ u, Stops u → scalar (s ++ u) = .ok (v, u) := by
  unfold scalar at h
  split at h
  · next r hword =>
    obtain rfl := Except.ok.inj h
    obtain ⟨s, hs, ht, hread⟩ := word?_append hword
    refine ⟨s, hs, ht, fun u _ => ?_⟩
    rw [scalar, hread u]
  · split at h
    · next m w hm =>
      obtain ⟨v', hv, heq⟩ := map_eq_ok_iff.1 h
      obtain ⟨rfl, rfl⟩ := Prod.mk.inj heq
      obtain ⟨s, hs, -, ht, hread⟩ := numeral?_append hm
      exact ⟨s, hs, ht, fun u hu => scalar_of_numeral (hread u).2 ((hread u).1 hu) hv⟩
    · cases h

/-- A text that does not do for a value is at its end, or starts as a number does. -/
theorem numeric_of_scalar {t : Text} {e : Stop} (h : scalar t = .error e) (he : e.AtValue) :
    Numeric t := by
  unfold scalar at h
  split at h
  · cases h
  · split at h
    · next m w hm =>
      obtain ⟨s, hs, hnum, rfl, -⟩ := numeral?_append hm
      exact hnum.append_left hs w
    · obtain rfl := Except.error.inj h
      rcases he with heq | ⟨_, heq⟩
      · obtain ⟨-, rfl⟩ := Stop.fault.inj heq
        exact firstIs_nil
      · cases heq

end Json

end DbmlRestore
