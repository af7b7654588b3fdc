/-!
# Text

A text is the sequence of its characters, so that every scanner of this library
is a recursion over a list. Its *lines* are what stands between line feeds: a
carriage return belongs to the line it ends. There is always at least one line,
and joining the lines again gives the text back (`Text.unlines_lines`).

A *blank* is a character that trimming removes (`Text.isBlank`). The set is that
of the Unicode separators and of the control characters that move the cursor or
separate records; the zero-width characters are not in it. A table header knows
the six blanks of ASCII only (`Text.isAsciiBlank`).
-/

namespace DbmlRestore

/-- A text, as the sequence of its characters. -/
abbrev Text := List Char

/-- A line of a text, without the line feed that ends it. -/
abbrev Line := List Char

namespace Text

/-! ## Blanks -/

/-- The blanks: tab to carriage return, the four separators of control, space,
    next line, and the separators of Unicode. -/
def isBlank (c : Char) : Bool :=
  let n := c.toNat
  (9 ≤ n && n ≤ 13) || (28 ≤ n && n ≤ 32) || n == 0x85 || n == 0xA0 || n == 0x1680 ||
    (0x2000 ≤ n && n ≤ 0x200A) || n == 0x2028 || n == 0x2029 || n == 0x202F || n == 0x205F ||
    n == 0x3000

/-- The blanks of ASCII: tab to carriage return, and space. -/
def isAsciiBlank (c : Char) : Bool :=
  let n := c.toNat
  (9 ≤ n && n ≤ 13) || n == 32

/-- Removes the longest end of a list whose members satisfy `p`. -/
def dropEndWhile {α : Type} (p : α → Bool) (l : List α) : List α :=
  (l.reverse.dropWhile p).reverse

/-- Removes the blanks at both ends. -/
def trim (t : Text) : Text :=
  dropEndWhile isBlank (t.dropWhile isBlank)

/-! ## Lines -/

/-- The lines of a text. -/
def lines : Text → List Line
  | [] => [[]]
  | c :: t =>
    if c = '\n' then [] :: lines t
    else match lines t with
      | [] => [[c]]
      | l :: ls => (c :: l) :: ls

/-- The text with the given lines (or the pieces of several lines), a line feed
    between each two. -/
def unlines (ls : List Text) : Text :=
  List.intercalate ['\n'] ls

theorem lines_ne_nil : ∀ t : Text, lines t ≠ []
  | [] => by simp [lines]
  | c :: t => by
    unfold lines
    split
    · simp
    · split <;> simp

@[simp] theorem unlines_nil : unlines [] = [] := rfl

@[simp] theorem unlines_singleton (l : Text) : unlines [l] = l := by
  simp [unlines, List.intercalate]

theorem unlines_cons_cons (l m : Text) (ls : List Text) :
    unlines (l :: m :: ls) = l ++ '\n' :: unlines (m :: ls) := by
  simp [unlines, List.intercalate, List.intersperse]

/-- The lines hold the whole text. -/
theorem unlines_lines : ∀ t : Text, unlines (lines t) = t
  | [] => by simp [lines]
  | c :: t => by
    have ih := unlines_lines t
    have hne := lines_ne_nil t
    unfold lines
    obtain ⟨l, ls, hl⟩ := List.exists_cons_of_ne_nil hne
    rw [hl] at ih ⊢
    by_cases hc : c = '\n'
    · rw [if_pos hc, unlines_cons_cons, ih, hc]
      rfl
    · rw [if_neg hc]
      cases ls with
      | nil => simpa using ih
      | cons m ls =>
        rw [unlines_cons_cons] at ih
        show unlines ((c :: l) :: m :: ls) = c :: t
        rw [unlines_cons_cons, ← ih]
        rfl

/-! ## Searching -/

/-- Whether `sub` stands somewhere in the text. -/
def holds (sub : Text) : Text → Bool
  | [] => sub.isEmpty
  | c :: t => sub.isPrefixOf (c :: t) || holds sub t

/-- What follows `head`, if the text starts with it. -/
def after? : (head : Text) → Text → Option Text
  | [], t => some t
  | _ :: _, [] => none
  | a :: head, c :: t => if a = c then after? head t else none

/-- The text cut before the first place where `sub` stands, if there is one. -/
def cutBefore? (sub : Text) : Text → Option (Text × Text)
  | [] => if sub.isEmpty then some ([], []) else none
  | c :: t =>
    if sub.isPrefixOf (c :: t) then some ([], c :: t)
    else (cutBefore? sub t).map fun (before, rest) => (c :: before, rest)

/-- The text cut at the first `c`, which is in neither part. -/
def cutAt (c : Char) (t : Text) : Text × Text :=
  (t.takeWhile (· != c), (t.dropWhile (· != c)).drop 1)

/-- The pieces between the occurrences of `c`. -/
def splitAt (c : Char) : Text → List Text
  | [] => [[]]
  | d :: t =>
    if d = c then [] :: splitAt c t
    else match splitAt c t with
      | [] => [[d]]
      | p :: ps => (d :: p) :: ps

/-- Every occurrence of `old` (which must not be empty) becomes `new`, from the
    left; the argument `skip` counts the characters of an occurrence still to be
    passed over. -/
def replaceFrom (old new : Text) : (skip : Nat) → Text → Text
  | _, [] => []
  | k + 1, _ :: t => replaceFrom old new k t
  | 0, c :: t =>
    if old.isPrefixOf (c :: t) then new ++ replaceFrom old new (old.length - 1) t
    else c :: replaceFrom old new 0 t

/-- Every occurrence of `old` (which must not be empty) becomes `new`. -/
def replace (old new t : Text) : Text :=
  replaceFrom old new 0 t

/-- The pieces with `sep` between each two. -/
def joined (sep : Text) (ps : List Text) : Text :=
  List.intercalate sep ps

/-- The digits of a natural number in base ten. -/
def ofNat (n : Nat) : Text :=
  Nat.toDigits 10 n

/-- An integer in base ten, with a minus sign if it is negative. -/
def ofInt : Int → Text
  | .ofNat n => ofNat n
  | .negSucc n => '-' :: ofNat (n + 1)

end Text

end DbmlRestore
