import DbmlRestore.Text

/-!
# Binary64 numbers

The floating-point numbers of a settings file or a snapshot, kept as an integer
times a power of two so that reading and writing them is exact integer
arithmetic.

* `Binary64.ofDecimal`: the number nearest to a decimal, an exact half going to
  the even neighbour;
* `Binary64.shortest`: the fewest decimal digits that read back as the number,
  and of these the nearest;
* `Binary64.text`: the number written with these digits.
-/

namespace DbmlRestore

/-- A binary64 number. The mantissa of a finite one is below `2 ^ 53`, its exponent
    is at least `-1074`, and a mantissa below `2 ^ 52` goes with this exponent only. -/
inductive Binary64 where
  /-- Not a number. -/
  | nan
  /-- An infinity. -/
  | infinity (negative : Bool)
  /-- The mantissa times two to the exponent. -/
  | finite (negative : Bool) (mantissa : Nat) (exponent : Int)
deriving Repr, DecidableEq

namespace Binary64

/-! ## Reading -/

/-- The least exponent of a finite number. -/
def minExponent : Int := -1074

/-- The greatest exponent of a finite number. -/
def maxExponent : Int := 971

/-- The least mantissa of 53 bits, `2 ^ 52`. -/
def minMantissa : Nat := 0x10000000000000

/-- The integer nearest to `num / den`; an exact half goes to the even one. -/
def roundHalfEven (num den : Nat) : Nat :=
  let quotient := num / den
  let twice := 2 * (num % den)
  if twice < den then quotient
  else if den < twice then quotient + 1
  else if quotient % 2 = 0 then quotient
  else quotient + 1

/-- The fraction `num / den` divided by `base ^ e`. -/
def scaleDown (base : Nat) (e : Int) (num den : Nat) : Nat × Nat :=
  match e with
  | .ofNat k => (num, den * base.pow k)
  | .negSucc k => (num * base.pow (k + 1), den)

/-- The exponent for which the mantissa of `num / den` has 53 bits, or the least
    one. -/
def exponentOf (num den : Nat) : Int :=
  -- The lengths alone give an exponent that is right or one too small.
  let guess : Int := (num.log2 : Int) - den.log2 - 53
  let (n, d) := scaleDown 2 (guess + 53) num den
  max (if d ≤ n then guess + 1 else guess) minExponent

/-- The number nearest to `num / den`, both positive. -/
def ofRatio (negative : Bool) (num den : Nat) : Binary64 :=
  let e := exponentOf num den
  let (n, d) := scaleDown 2 e num den
  let m := roundHalfEven n d
  -- Rounding up may have carried over into one more bit.
  let (m, e) := if m = 2 * minMantissa then (minMantissa, e + 1) else (m, e)
  if maxExponent < e then .infinity negative else .finite negative m e

/-- Zero. -/
def zero (negative : Bool) : Binary64 := .finite negative 0 minExponent

/-- The number nearest to `digits` times ten to the `exponent`. Far outside of the
    range the powers of ten are not computed. -/
def ofDecimal (negative : Bool) (digits : Nat) (exponent : Int) : Binary64 :=
  if digits = 0 then zero negative
  else
    let magnitude := exponent + (Text.ofNat digits).length
    if 310 < magnitude then .infinity negative
    else if magnitude < -330 then zero negative
    else
      let (num, den) := scaleDown 10 (-exponent) digits 1
      ofRatio negative num den

/-! ## Views -/

/-- Whether the number is zero, of either sign. -/
def isZero : Binary64 → Bool
  | .finite _ 0 _ => true
  | _ => false

/-- The integer a number is equal to, if there is one. -/
def toInt? : Binary64 → Option Int
  | .finite negative m e =>
    let signed (n : Nat) : Int := if negative then -n else n
    let (num, den) := scaleDown 2 (-e) m 1
    if num % den = 0 then some (signed (num / den)) else none
  | _ => none

/-! ## Writing -/

/-- Decimal digits, the first of which stands for a multiple of ten to the
    `exponent`. -/
structure Decimal where
  /-- The digits as one number. -/
  digits : Nat
  /-- The power of ten of the first digit. -/
  exponent : Int
deriving Repr, DecidableEq

/-- The greatest power of ten that is not above `num / den`. -/
def tenthPower (num den : Nat) : Int :=
  let guess : Int := ((Text.ofNat num).length : Int) - (Text.ofNat den).length
  let (n, d) := scaleDown 10 guess num den
  if d ≤ n then guess else guess - 1

/-- The reals that round to a number: between two fractions over one denominator,
    the ends included or not. -/
structure Interval where
  /-- Four times the lower end. -/
  low : Nat
  /-- Four times the number. -/
  mid : Nat
  /-- Four times the upper end. -/
  high : Nat
  /-- The common denominator. -/
  den : Nat
  /-- Whether the ends round to the number as well. -/
  closed : Bool
deriving Repr, DecidableEq

/-- The reals that round to `m * 2 ^ e`. Below a power of two the neighbour is half
    as far. -/
def intervalOf (m : Nat) (e : Int) : Interval :=
  let below := if m = minMantissa ∧ minExponent < e then 1 else 2
  let (scale, den) := scaleDown 2 (-e) 1 4
  ⟨(4 * m - below) * scale, 4 * m * scale, (4 * m + 2) * scale, den, m % 2 = 0⟩

/-- Whether `d` times ten to the `k` lies in an interval. -/
def Interval.holds (i : Interval) (d : Nat) (k : Int) : Bool :=
  let (num, den) := scaleDown 10 (-k) d 1
  let x := num * i.den
  let lo := i.low * den
  let hi := i.high * den
  if i.closed then lo ≤ x && x ≤ hi else lo < x && x < hi

/-- The decimal with digits down to ten to the `k` that is nearest to the middle
    of an interval, of those inside it; a tie goes to the even one. -/
def Interval.nearest? (i : Interval) (k : Int) : Option Nat :=
  let (num, den) := scaleDown 10 k i.mid i.den
  let d := num / den
  let twice := 2 * (num % den)
  let upFirst := if twice = den then d % 2 = 1 else den < twice
  let candidates := if upFirst then [d + 1, d] else [d, d + 1]
  candidates.find? fun c => 0 < c && i.holds c k

/-- The shortest decimal in an interval, with at least `count` digits, the first of
    them at ten to the `top`. Seventeen digits always suffice. -/
def Interval.shortestFrom (i : Interval) (top : Int) : (fuel count : Nat) → Decimal
  | 0, _ => ⟨0, top⟩
  | fuel + 1, count =>
    let k := top + 1 - count
    match i.nearest? k with
    | some d => ⟨d, k + (Text.ofNat d).length - 1⟩
    | none => i.shortestFrom top fuel (count + 1)

/-- The fewest digits that read back as `m * 2 ^ e`, for a mantissa that is not
    zero. -/
def shortest (m : Nat) (e : Int) : Decimal :=
  let i := intervalOf m e
  i.shortestFrom (tenthPower i.mid i.den) 17 1

/-- The digits without the zeros at their end. -/
def Decimal.significant (d : Decimal) : Text :=
  Text.dropEndWhile (· == '0') (Text.ofNat d.digits)

/-- How numbers are written. -/
structure NumberStyle where
  /-- The least power of ten of the first digit that is written without exponent. -/
  least : Int
  /-- The first power of ten that is written with an exponent again. -/
  bound : Int
  /-- The least number of digits of an exponent. -/
  exponentWidth : Nat
deriving Repr, DecidableEq

/-- Settings show a number without exponent from `0.0001` up to below ten to the
    sixteenth, and exponents with a sign and two digits at least. -/
def settingStyle : NumberStyle := ⟨-4, 16, 2⟩

/-- A decimal in the given style; a whole number keeps `.0`. -/
def Decimal.text (d : Decimal) (n : NumberStyle) : Text :=
  let digits := d.significant
  if n.least ≤ d.exponent ∧ d.exponent < n.bound then
    match d.exponent with
    | .ofNat p =>
      let whole := digits.take (p + 1)
      let fraction := digits.drop (p + 1)
      whole ++ List.replicate (p + 1 - whole.length) '0' ++
        '.' :: (if fraction.isEmpty then ['0'] else fraction)
    | .negSucc p => '0' :: '.' :: List.replicate p '0' ++ digits
  else
    let exponent := Text.ofNat d.exponent.natAbs
    let mark := if d.exponent < 0 then '-' else '+'
    digits.take 1 ++ (if digits.length ≤ 1 then [] else '.' :: digits.drop 1) ++
      'e' :: mark :: List.replicate (n.exponentWidth - exponent.length) '0' ++ exponent

/-- A number as it is shown to the user. -/
def text : Binary64 → Text
  | .nan => ['n', 'a', 'n']
  | .infinity negative => (if negative then ['-'] else []) ++ ['i', 'n', 'f']
  | .finite negative m e =>
    (if negative then ['-'] else []) ++
      (if m = 0 then ['0', '.', '0'] else (shortest m e).text settingStyle)

end Binary64

end DbmlRestore
