import DbmlRestore.Text

/-!
# Previews

The first line of a comment, cut to a width, for a table of comments. A mark
shows that there is more: ` ...` after the first of several lines, and `...` in
place of the end of a long one.
-/

namespace DbmlRestore

namespace Cli

/-- The first `count` characters of a text; a negative number leaves out that many
    at the end. -/
def takeSigned (count : Int) (t : Text) : Text :=
  match count with
  | .ofNat n => t.take n
  | .negSucc n => t.take (t.length - (n + 1))

/-- The width of a preview, unless another one is asked for. -/
def previewWidth : Int := 60

/-- The first line of a text without the blanks at its ends, at most `limit`
    characters of it. -/
def preview (t : Text) (limit : Int := previewWidth) : Text :=
  let first := Text.trim (t.takeWhile (· != '\n'))
  let first := if t.contains '\n' then first ++ " ...".toList else first
  if (first.length : Int) ≤ limit then first else takeSigned (limit - 3) first ++ "...".toList

end Cli

end DbmlRestore
