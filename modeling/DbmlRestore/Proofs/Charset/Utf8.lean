import DbmlRestore.Charset
import DbmlRestore.Proofs.Json.Strings
import Mathlib.Algebra.Ring.Nat

/-!
# Encoding and decoding

A text is decoded from its bytes in UTF-8. The bytes of each character are read back one by one
(`Utf8.decodeFrom_encodeChar`): the first byte tells how many are owed and leaves open what the
next one can be, and every further one brings six bits of the number of the character
(`Utf8.decodeFrom_tails`).
-/

namespace DbmlRestore

namespace Charset

namespace Utf8

variable {pos : Nat} {rest : Bytes}

open encodeChar (tail)

theorem toNat_toUInt8 {n : Nat} (h : n < 256) : n.toUInt8.toNat = n := by
  show n % 256 = n
  exact Nat.mod_eq_of_lt h

theorem toNat_tail (n : Nat) : (tail n).toNat = 0x80 + n % 64 :=
  toNat_toUInt8 (by omega)

/-- A byte that goes on with a character adds its six bits. -/
theorem bits_next (p : Pending) (n : Nat) : (p.next (tail n)).bits = p.bits * 64 + n % 64 := by
  show p.bits * 64 + ((tail n).toNat - 0x80) = _
  rw [toNat_tail, Nat.add_sub_cancel_left]

/-- A byte at the start of a character is one of ASCII, or says how many bytes follow. -/
theorem decodeFrom_none_cons (b : UInt8) (t : Bytes) : decodeFrom none pos (b :: t) =
    if b.toNat < 0x80 then (decodeFrom none (pos + 1) t).map (Char.ofNat b.toNat :: ·)
    else
      match Pending.ofFirst? b pos with
      | none => .error (.bytes codec pos 1 b "invalid start byte".toList)
      | some p => decodeFrom (some p) (pos + 1) t := rfl

/-- One more byte of a character: it is in the range that is left, and it ends the character or not.
    -/
theorem decodeFrom_some_cons (p : Pending) (b : UInt8) (t : Bytes) :
    decodeFrom (some p) pos (b :: t) =
      if p.low ≤ b.toNat ∧ b.toNat ≤ p.high then
        if (p.next b).owed = 0 then
          (decodeFrom none (pos + 1) t).map (Char.ofNat (p.next b).bits :: ·)
        else decodeFrom (some (p.next b)) (pos + 1) t
      else .error (p.fault "invalid continuation byte") := rfl

/-- The last `k` bytes of a character of several bytes. -/
def tails (n : Nat) : (k : Nat) → Bytes
  | 0 => []
  | k + 1 => tail (n / 64 ^ k) :: tails n k

theorem tails_zero (n : Nat) : tails n 0 = [] := rfl

theorem tails_succ (n k : Nat) : tails n (k + 1) = tail (n / 64 ^ k) :: tails n k := rfl

theorem length_tails (n k : Nat) : (tails n k).length = k := by
  induction k with
  | zero => rfl
  | succ k ih => rw [tails_succ, List.length_cons, ih]

/-- The bytes that are owed bring the bits of the number that are not read yet. The first of them
    must be in range, and the others are anyway. -/
theorem decodeFrom_tails {p : Pending} {n k : Nat} (howed : p.owed = k + 1)
    (hbits : p.bits = n / 64 ^ (k + 1)) (hlow : p.low ≤ 0x80 + n / 64 ^ k % 64)
    (hhigh : 0x80 + n / 64 ^ k % 64 ≤ p.high) :
    decodeFrom (some p) pos (tails n (k + 1) ++ rest) =
      (decodeFrom none (pos + (k + 1)) rest).map (Char.ofNat n :: ·) := by
  have hnext : ∀ {p : Pending} {k}, p.bits = n / 64 ^ (k + 1) →
      (p.next (tail (n / 64 ^ k))).bits = n / 64 ^ k := fun hbits => by
    rw [bits_next, hbits, Nat.pow_succ, ← Nat.div_div_eq_div_mul, Nat.div_add_mod']
  induction k generalizing p pos with
  -- The last byte: the character is complete.
  | zero =>
    have hlast : (p.next (tail (n / 64 ^ 0))).owed = 0 := congrArg (· - 1) howed
    rw [tails_succ, List.cons_append, decodeFrom_some_cons, toNat_tail, if_pos ⟨hlow, hhigh⟩,
      if_pos hlast,
      hnext hbits, Nat.pow_zero, Nat.div_one]
    rfl
  | succ k ih =>
    -- After the first byte that follows, the others may have any six bits.
    have howed' : (p.next (tail (n / 64 ^ (k + 1)))).owed = k + 1 := congrArg (· - 1) howed
    have hmore : (p.next (tail (n / 64 ^ (k + 1)))).owed ≠ 0 := by
      rw [howed']
      exact Nat.succ_ne_zero k
    have hhigh' : 0x80 + n / 64 ^ k % 64 ≤ 0xBF := by omega
    rw [tails_succ, List.cons_append, decodeFrom_some_cons, toNat_tail, if_pos ⟨hlow, hhigh⟩,
      if_neg hmore, ih howed' (hnext hbits) (Nat.le_add_right _ _) hhigh', Nat.add_assoc, Nat.add_comm 1]

/-- A first byte that owes some is followed by them. -/
theorem decodeFrom_first {first : UInt8} {p : Pending} {n k : Nat} (hfirst : ¬ first.toNat < 0x80)
    (hp : Pending.ofFirst? first pos = some p) (howed : p.owed = k + 1)
    (hbits : p.bits = n / 64 ^ (k + 1)) (hlow : p.low ≤ 0x80 + n / 64 ^ k % 64)
    (hhigh : 0x80 + n / 64 ^ k % 64 ≤ p.high) :
    decodeFrom none pos (first :: tails n (k + 1) ++ rest) =
      (decodeFrom none (pos + (first :: tails n (k + 1)).length) rest).map (Char.ofNat n :: ·) := by
  rw [List.cons_append, decodeFrom_none_cons, if_neg hfirst, hp, List.length_cons, length_tails]
  show decodeFrom (some p) (pos + 1) _ = _
  rw [decodeFrom_tails howed hbits hlow hhigh, Nat.add_assoc, Nat.add_comm 1]

variable {c : Char}

/-- A character below `0x80` is its only byte. -/
theorem decodeFrom_encodeChar_one (h1 : c.toNat < 0x80) :
    decodeFrom none pos (encodeChar c ++ rest) =
      (decodeFrom none (pos + (encodeChar c).length) rest).map (Char.ofNat c.toNat :: ·) := by
  have henc : encodeChar c = [c.toNat.toUInt8] := if_pos h1
  have hbyte : c.toNat.toUInt8.toNat = c.toNat := toNat_toUInt8 (by omega)
  rw [henc, List.singleton_append, decodeFrom_none_cons, hbyte, if_pos h1]
  rfl

/-- The first byte of two leaves the next one any range. -/
theorem decodeFrom_encodeChar_two (h1 : ¬ c.toNat < 0x80) (h2 : c.toNat < 0x800) :
    decodeFrom none pos (encodeChar c ++ rest) =
      (decodeFrom none (pos + (encodeChar c).length) rest).map (Char.ofNat c.toNat :: ·) := by
  have henc : encodeChar c = (0xC0 + c.toNat / 64).toUInt8 :: tails c.toNat 1 := by
    rw [tails_succ, tails_zero, Nat.pow_zero, Nat.div_one]
    exact (if_neg h1).trans (if_pos h2)
  have hfirst : (0xC0 + c.toNat / 64).toUInt8.toNat = 0xC0 + c.toNat / 64 :=
    toNat_toUInt8 (by omega)
  have hp : Pending.ofFirst? (0xC0 + c.toNat / 64).toUInt8 pos =
      some ⟨(0xC0 + c.toNat / 64).toUInt8, pos, 1, 1, 0x80, 0xBF, c.toNat / 64⟩ := by
    rw [Pending.ofFirst?, hfirst, if_neg (by omega), if_pos (by omega), Nat.add_sub_cancel_left]
  rw [henc]
  exact decodeFrom_first (by omega) hp rfl rfl (Nat.le_add_right _ _) (by dsimp only; omega)

/-- After the first byte of three, the next one makes no number that two would do for, and no
    surrogate. -/
theorem decodeFrom_encodeChar_three (h2 : ¬ c.toNat < 0x800) (h3 : c.toNat < 0x10000) :
    decodeFrom none pos (encodeChar c ++ rest) =
      (decodeFrom none (pos + (encodeChar c).length) rest).map (Char.ofNat c.toNat :: ·) := by
  obtain ⟨hsurrogate, -⟩ := Json.toNat_bounds c
  have henc : encodeChar c = (0xE0 + c.toNat / 4096).toUInt8 :: tails c.toNat 2 := by
    rw [tails_succ, tails_succ, tails_zero, Nat.pow_zero, Nat.div_one]
    exact (if_neg (by omega)).trans ((if_neg h2).trans (if_pos h3))
  have hfirst : (0xE0 + c.toNat / 4096).toUInt8.toNat = 0xE0 + c.toNat / 4096 :=
    toNat_toUInt8 (by omega)
  -- The first byte bounds the second: no overlong form, and no half of a surrogate pair.
  have hp : Pending.ofFirst? (0xE0 + c.toNat / 4096).toUInt8 pos =
      some ⟨(0xE0 + c.toNat / 4096).toUInt8, pos, 1, 2, if c.toNat < 4096 then 0xA0 else 0x80,
        if c.toNat / 4096 = 13 then 0x9F else 0xBF, c.toNat / 4096⟩ := by
    have hlow : 0xE0 + c.toNat / 4096 = 0xE0 ↔ c.toNat < 4096 := by omega
    have hhigh : 0xE0 + c.toNat / 4096 = 0xED ↔ c.toNat / 4096 = 13 := by omega
    rw [Pending.ofFirst?, hfirst, if_neg (by omega), if_neg (by omega), if_pos (by omega)]
    simp only [hlow, hhigh, Nat.add_sub_cancel_left]
  rw [henc]
  refine decodeFrom_first (by omega) hp rfl rfl ?_ ?_
  · dsimp only
    split <;> omega
  · dsimp only
    split <;> omega

/-- After the first byte of four, the next one makes no number that three would do for, and none
    beyond the last character. -/
theorem decodeFrom_encodeChar_four (h3 : ¬ c.toNat < 0x10000) :
    decodeFrom none pos (encodeChar c ++ rest) =
      (decodeFrom none (pos + (encodeChar c).length) rest).map (Char.ofNat c.toNat :: ·) := by
  obtain ⟨-, hlt⟩ := Json.toNat_bounds c
  have henc : encodeChar c = (0xF0 + c.toNat / 262144).toUInt8 :: tails c.toNat 3 := by
    rw [tails_succ, tails_succ, tails_succ, tails_zero, Nat.pow_zero, Nat.div_one]
    exact (if_neg (by omega)).trans ((if_neg (by omega)).trans (if_neg h3))
  have hfirst : (0xF0 + c.toNat / 262144).toUInt8.toNat = 0xF0 + c.toNat / 262144 :=
    toNat_toUInt8 (by omega)
  -- The first byte bounds the second: no overlong form, and nothing above the last code point.
  have hp : Pending.ofFirst? (0xF0 + c.toNat / 262144).toUInt8 pos =
      some ⟨(0xF0 + c.toNat / 262144).toUInt8, pos, 1, 3, if c.toNat < 262144 then 0x90 else 0x80,
        if c.toNat / 262144 = 4 then 0x8F else 0xBF, c.toNat / 262144⟩ := by
    have hlow : 0xF0 + c.toNat / 262144 = 0xF0 ↔ c.toNat < 262144 := by omega
    have hhigh : 0xF0 + c.toNat / 262144 = 0xF4 ↔ c.toNat / 262144 = 4 := by omega
    rw [Pending.ofFirst?, hfirst, if_neg (by omega), if_neg (by omega), if_neg (by omega),
      if_pos (by omega)]
    simp only [hlow, hhigh, Nat.add_sub_cancel_left]
  rw [henc]
  refine decodeFrom_first (by omega) hp rfl rfl ?_ ?_
  · dsimp only
    split <;> omega
  · dsimp only
    split <;> omega

/-- The bytes of a character give the character. -/
theorem decodeFrom_encodeChar (c : Char) :
    decodeFrom none pos (encodeChar c ++ rest) =
      (decodeFrom none (pos + (encodeChar c).length) rest).map (c :: ·) := by
  suffices h : decodeFrom none pos (encodeChar c ++ rest) =
      (decodeFrom none (pos + (encodeChar c).length) rest).map (Char.ofNat c.toNat :: ·) by
    rwa [Char.ofNat_toNat] at h
  by_cases h1 : c.toNat < 0x80
  · exact decodeFrom_encodeChar_one h1
  by_cases h2 : c.toNat < 0x800
  · exact decodeFrom_encodeChar_two h1 h2
  by_cases h3 : c.toNat < 0x10000
  · exact decodeFrom_encodeChar_three h2 h3
  · exact decodeFrom_encodeChar_four h3

/-- A text is decoded from its bytes. -/
theorem decode_encode (t : Text) : decode (encode t) = .ok t := by
  suffices h : ∀ pos, decodeFrom none pos (encode t) = .ok t from h 0
  intro pos
  induction t generalizing pos with
  | nil => rfl
  | cons c t ih =>
    rw [encode, List.flatMap_cons, decodeFrom_encodeChar, ← encode, ih]
    rfl

end Utf8

end Charset

end DbmlRestore
