import DbmlRestore.Text.Digit

/-!
# Colours

A colour is written as

* a name (`Color.names`), or `default` for the colour that the terminal has;
* `#` and six digits in base sixteen;
* `color(N)` with a number of up to 255;
* `rgb(R,G,B)` with three numbers of up to 255, whose digits may be of any script.

All of it is in lower case. The last form has a corner: three numbers of which one is not
there or has too many digits are not just no colour but a fault (`Color.Fault`).
-/

namespace DbmlRestore

namespace Cli

namespace Color

/-! ## Names -/

/-- The eight colours that also have a bright form. -/
def basic : List String :=
  ["black", "red", "green", "yellow", "blue", "magenta", "cyan", "white"]

/-- The greys, by their brightness in percent. -/
def greys : List Nat :=
  [0, 3, 7, 11, 15, 19, 23, 27, 30, 35, 37, 39, 42, 46, 50, 53, 54, 58, 62, 63, 66, 69, 70, 74,
    78, 82, 84, 85, 89, 93, 100]

/-- The other colours. -/
def others : List String :=
  ["navy_blue", "dark_blue", "blue3", "blue1", "dark_green", "deep_sky_blue4", "dodger_blue3",
    "dodger_blue2", "green4", "spring_green4", "turquoise4", "deep_sky_blue3", "dodger_blue1",
    "green3", "spring_green3", "dark_cyan", "light_sea_green", "deep_sky_blue2",
    "deep_sky_blue1", "spring_green2", "cyan3", "dark_turquoise", "turquoise2", "green1",
    "spring_green1", "medium_spring_green", "cyan2", "cyan1", "dark_red", "deep_pink4",
    "purple4", "purple3", "blue_violet", "orange4", "medium_purple4", "slate_blue3",
    "royal_blue1", "chartreuse4", "dark_sea_green4", "pale_turquoise4", "steel_blue",
    "steel_blue3", "cornflower_blue", "chartreuse3", "cadet_blue", "sky_blue3", "steel_blue1",
    "pale_green3", "sea_green3", "aquamarine3", "medium_turquoise", "chartreuse2", "sea_green2",
    "sea_green1", "aquamarine1", "dark_slate_gray2", "dark_magenta", "dark_violet", "purple",
    "light_pink4", "plum4", "medium_purple3", "slate_blue1", "yellow4", "wheat4",
    "light_slate_grey", "light_slate_gray", "medium_purple", "light_slate_blue",
    "dark_olive_green3", "dark_sea_green", "light_sky_blue3", "sky_blue2", "dark_sea_green3",
    "dark_slate_gray3", "sky_blue1", "chartreuse1", "light_green", "pale_green1",
    "dark_slate_gray1", "red3", "medium_violet_red", "magenta3", "dark_orange3", "indian_red",
    "hot_pink3", "medium_orchid3", "medium_orchid", "medium_purple2", "dark_goldenrod",
    "light_salmon3", "rosy_brown", "medium_purple1", "gold3", "dark_khaki", "navajo_white3",
    "light_steel_blue3", "light_steel_blue", "yellow3", "dark_sea_green2", "light_cyan3",
    "light_sky_blue1", "green_yellow", "dark_olive_green2", "dark_sea_green1",
    "pale_turquoise1", "deep_pink3", "magenta2", "hot_pink2", "orchid", "medium_orchid1",
    "orange3", "light_pink3", "pink3", "plum3", "violet", "light_goldenrod3", "tan",
    "misty_rose3", "thistle3", "plum2", "khaki3", "light_goldenrod2", "light_yellow3",
    "light_steel_blue1", "yellow2", "dark_olive_green1", "honeydew2", "light_cyan1", "red1",
    "deep_pink2", "deep_pink1", "magenta1", "orange_red1", "indian_red1", "hot_pink",
    "dark_orange", "salmon1", "light_coral", "pale_violet_red1", "orchid2", "orchid1",
    "orange1", "sandy_brown", "light_salmon1", "light_pink1", "pink1", "plum1", "gold1",
    "navajo_white1", "misty_rose1", "thistle1", "yellow1", "light_goldenrod1", "khaki1",
    "wheat1", "cornsilk1"]

/-- The names of colours. A grey has two spellings. -/
def names : List String :=
  "default" :: basic ++ basic.map ("bright_" ++ ·) ++ others ++
    greys.flatMap fun n => ["grey" ++ toString n, "gray" ++ toString n]

/-! ## Numbers -/

/-- Why the numbers of a colour cannot be read. -/
inductive Fault where
  /-- A number is not there. -/
  | noNumber
  /-- A number has too many digits. -/
  | digits (count : Nat)
deriving Repr, DecidableEq

/-- The message for a fault. -/
def Fault.message : Fault → Text
  | .noNumber => "invalid literal for int() with base 10: \x27\x27".toList
  | .digits count => digitsMessage count

/-- What stands in the parentheses after `head`, if there is something and nothing
    after it. -/
def inParentheses? (head : String) (t : Text) : Option Text :=
  match Text.after? (head.toList ++ ['(']) t with
  | some t =>
    match t.reverse with
    | ')' :: c :: inner => some (c :: inner).reverse
    | _ => none
  | none => none

/-- The number that digits of any script write. -/
def number (t : Text) : Except Fault Nat :=
  if t.isEmpty then .error .noNumber
  else if digitLimit < t.length then .error (.digits t.length)
  else .ok (t.foldl (fun n c => n * 10 + (Text.digitValue? c).getD 0) 0)

/-- Whether three numbers between commas are a colour; the numbers are read before any
    of them is found to be too great. -/
def isTriple (t : Text) : Except Fault Bool :=
  match Text.splitAt ',' t with
  | [red, green, blue] => do
    let numbers ← [red, green, blue].mapM number
    return numbers.all (· ≤ 255)
  | _ => .ok false

/-- Whether a text in lower case writes a colour. -/
def isColor (t : Text) : Except Fault Bool :=
  if names.any (·.toList = t) then .ok true
  else
    match t with
    | '#' :: t => .ok (t.length = 6 ∧ t.all fun c => c.isDigit || ('a' ≤ c && c ≤ 'f'))
    | _ =>
      match inParentheses? "color" t, inParentheses? "rgb" t with
      | some digits, _ =>
        .ok (digits.length ≤ 3 ∧ digits.all Char.isDigit ∧
          digits.foldl (fun n c => n * 10 + (c.toNat - '0'.toNat)) 0 ≤ 255)
      | none, some numbers =>
        if numbers.all fun c => Text.isDigit c || c == ',' then isTriple numbers
        else .ok false
      | none, none => .ok false

end Color

end Cli

end DbmlRestore
