import DbmlRestore.Json.Parser
import DbmlRestore.Json.Printer

/-!
# Reading back strings

A character is written as itself, as an escape of one letter, or by the numbers of its
UTF-16 units (`Json.units`), with four hexadecimal digits each. Reading an escaped text
gives the units of its characters (`stringRest_flatMap_escapeChar`), and joining the
halves of surrogate pairs gives the text (`wordingOf_flatMap_units`): no character is
half of a pair, so a unit that is one stands for the pair it was made from.
-/

namespace DbmlRestore

namespace Json

/-! ## Escapes by number -/

/-- The digits of an escape are read as the numbers that they were written for. -/
theorem hexDigit?_hexChar : ∀ n < 16, hexDigit? (hexChar n) = some n := by decide

/-- Four digits give back the number that they write. -/
theorem hex4?_hexChar {n : Nat} (h : n < 0x10000) :
    hex4? (hexChar (n / 4096 % 16)) (hexChar (n / 256 % 16)) (hexChar (n / 16 % 16))
      (hexChar (n % 16)) = some n := by
  have hd : ∀ k, hexDigit? (hexChar (k % 16)) = some (k % 16) := fun k =>
    hexDigit?_hexChar _ (Nat.mod_lt k (by decide))
  have hsum : ((n / 4096 % 16 * 16 + n / 256 % 16) * 16 + n / 16 % 16) * 16 + n % 16 = n := by
    omega
  simp only [hex4?, hd, Option.bind_eq_bind, Option.bind_some, Option.pure_def, hsum]

/-- Puts codes before those that were read. -/
def prepend (ns : List Nat) (r : Except Stop (List Nat × Text)) : Except Stop (List Nat × Text) :=
  r.map fun (ms, rest) => (ns ++ ms, rest)

theorem prepend_append (ms ns : List Nat) (r : Except Stop (List Nat × Text)) :
    prepend ms (prepend ns r) = prepend (ms ++ ns) r := by
  cases r with
  | error e => rfl
  | ok p => simp only [prepend, Except.map, List.append_assoc]

section StringRest

variable (start : Text) {rest : Text}

/-- An escape by number is read as the number, as the string is not over yet. -/
theorem stringRest_escapeUnit {n : Nat} (h : n < 0x10000) (hrest : rest ≠ []) :
    stringRest start (escapeUnit n ++ rest) = prepend [n] (stringRest start rest) := by
  obtain ⟨e, t, rfl⟩ := List.exists_cons_of_ne_nil hrest
  show stringRest start ('\\' :: 'u' :: _ :: _ :: _ :: _ :: e :: t) = _
  rw [stringRest, hex4?_hexChar h]
  rfl

/-- An escape of one letter is read as the character that it stands for. -/
theorem stringRest_letter {c x : Char} (hc : c ≠ 'u') (hx : unescape? c = some x) :
    stringRest start ('\\' :: c :: rest) = prepend [x.toNat] (stringRest start rest) := by
  rw [stringRest, hx]
  · rfl
  · exact fun _ _ _ _ _ _ h => absurd h hc
  · exact hc

/-- A character that is written as itself. -/
theorem stringRest_plain {c : Char} (hq : c ≠ '"') (hb : c ≠ '\\') (hc : 32 ≤ c.toNat) :
    stringRest start (c :: rest) = prepend [c.toNat] (stringRest start rest) := by
  rw [stringRest, if_neg (Nat.not_lt.2 hc)]
  · rfl
  · exact hq
  · exact fun h => absurd h hb
  · exact fun _ _ _ _ _ _ h => absurd h hb
  · exact fun _ h => absurd h hb
  · exact fun _ _ h => absurd h hb

end StringRest

/-! ## Characters -/

/-- The UTF-16 units of a character. -/
def units (c : Char) : List Nat :=
  if c.toNat < 0x10000 then [c.toNat]
  else [0xD800 + (c.toNat - 0x10000) / 0x400, 0xDC00 + (c.toNat - 0x10000) % 0x400]

/-- No character is half of a surrogate pair, and none is beyond the last plane. -/
theorem toNat_bounds (c : Char) : (c.toNat < 0xD800 ∨ 0xE000 ≤ c.toNat) ∧ c.toNat < 0x110000 := by
  have := c.valid
  rw [UInt32.isValidChar, Nat.isValidChar] at this
  show (c.val.toNat < 0xD800 ∨ 0xE000 ≤ c.val.toNat) ∧ c.val.toNat < 0x110000
  rcases this with h | ⟨h, h'⟩ <;> constructor <;> omega

/-- A character in a string is read as its units. -/
theorem stringRest_escapeChar (start : Text) (c : Char) {rest : Text} (hrest : rest ≠ []) :
    stringRest start (escapeChar c ++ rest) = prepend (units c) (stringRest start rest) := by
  have hsmall : ∀ {d : Char}, d.toNat < 0x10000 → units d = [d.toNat] := fun h => if_pos h
  unfold escapeChar
  -- The seven characters with a letter of their own behind the backslash.
  split
  · next h => subst h; exact stringRest_letter start (by decide) rfl
  split
  · next h => subst h; exact stringRest_letter start (by decide) rfl
  split
  · next h => subst h; exact stringRest_letter start (by decide) rfl
  split
  · next h => subst h; exact stringRest_letter start (by decide) rfl
  split
  · next h => subst h; exact stringRest_letter start (by decide) rfl
  split
  · next h => subst h; exact stringRest_letter start (by decide) rfl
  split
  · next h => subst h; exact stringRest_letter start (by decide) rfl
  split
  · next hq hb _ _ _ _ _ h =>
    -- A character of ASCII that is written as it is.
    rw [hsmall (by omega)]
    exact stringRest_plain start hq hb h.1
  split
  · next h =>
    -- One escape for a character of the first plane.
    rw [hsmall h]
    exact stringRest_escapeUnit start h hrest
  · next h =>
    -- Two escapes for the halves of a surrogate pair.
    obtain ⟨-, hmax⟩ := toNat_bounds c
    have hhigh : 0xD800 + (c.toNat - 0x10000) / 0x400 < 0x10000 := by omega
    have hlow : 0xDC00 + (c.toNat - 0x10000) % 0x400 < 0x10000 := by omega
    have hne : escapeUnit (0xDC00 + (c.toNat - 0x10000) % 0x400) ++ rest ≠ [] :=
      List.cons_ne_nil _ _
    rw [List.append_assoc, stringRest_escapeUnit start hhigh hne,
      stringRest_escapeUnit start hlow hrest, prepend_append, units, if_neg h]
    rfl

/-- An escaped text is read as the units of its characters, up to the quote. -/
theorem stringRest_flatMap_escapeChar (start t rest : Text) :
    stringRest start (t.flatMap escapeChar ++ '"' :: rest) = .ok (t.flatMap units, rest) := by
  induction t with
  | nil => rfl
  | cons c t ih =>
    rw [List.flatMap_cons, List.append_assoc, stringRest_escapeChar start c (by simp), ih]
    rfl

/-! ## Surrogate pairs -/

/-- Joining the halves gives back the numbers of the characters. -/
theorem paired_flatMap_units (t : Text) : paired (t.flatMap units) = t.map Char.toNat := by
  induction t with
  | nil => rfl
  | cons c t ih =>
    obtain ⟨hhalf, hmax⟩ := toNat_bounds c
    rw [List.flatMap_cons, List.map_cons, units]
    split
    · -- A unit that is no half is left alone.
      have hhigh : isHigh c.toNat = false := by
        rw [isHigh, Bool.and_eq_false_iff, decide_eq_false_iff_not, decide_eq_false_iff_not]
        omega
      rw [← ih]
      cases t.flatMap units with
      | nil => rfl
      | cons n ns =>
        show (if (isHigh c.toNat && isLow n) = true then _ else _) = _
        rw [hhigh, Bool.false_and, if_neg Bool.false_ne_true]
    · next h =>
      have hpair : (isHigh (0xD800 + (c.toNat - 0x10000) / 0x400) &&
          isLow (0xDC00 + (c.toNat - 0x10000) % 0x400)) = true := by
        simp only [isHigh, isLow, Bool.and_eq_true, decide_eq_true_eq]
        omega
      have hsum : 0x10000 + (0xD800 + (c.toNat - 0x10000) / 0x400 - 0xD800) * 0x400 +
          (0xDC00 + (c.toNat - 0x10000) % 0x400 - 0xDC00) = c.toNat := by omega
      show (if (isHigh _ && isLow _) = true then _ else _) = _
      rw [if_pos hpair, hsum]
      exact congrArg (c.toNat :: ·) ih

/-- The units of a text write the text. -/
theorem wordingOf_flatMap_units (t : Text) : wordingOf (t.flatMap units) = .text t := by
  have hhalf : (t.map Char.toNat).any Wording.isHalf = false := by
    refine List.any_eq_false.2 fun n hn => ?_
    obtain ⟨c, -, rfl⟩ := List.mem_map.1 hn
    have := (toNat_bounds c).1
    simp only [Wording.isHalf, Bool.and_eq_true, decide_eq_true_eq]
    omega
  have hchars : (t.map Char.toNat).map Char.ofNat = t := by
    rw [List.map_map]
    exact (List.map_congr_left fun c _ => Char.ofNat_toNat c).trans (List.map_id t)
  rw [wordingOf, paired_flatMap_units, Wording.ofCodes, hhalf, if_neg Bool.false_ne_true, hchars]

end Json

end DbmlRestore
