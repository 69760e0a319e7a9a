import GeneratedCode.Text.Blank

/-!
Nested ignore files: lines that speak of paths below their own directory.

`rebase` writes such a line so that it says the same about paths from the top of the project. A
line that names a file anywhere below its directory has no slash but at its end; all others are
tied to their directory. Blank lines and comments stay as they are.
-/

namespace GeneratedCode

namespace Ignore

open Text

/-- The text without the characters `c` at its end. -/
def dropEnd (c : Char) (s : Text) : Text :=
  (s.reverse.dropWhile (· == c)).reverse

/-- The body of a pattern, put below a directory. -/
def rebaseBody (directory body : Text) : Text :=
  if body.head? = some '/' then directory ++ body
  else if (dropEnd '/' body).contains '/' then directory ++ '/' :: body
  else directory ++ "/**/".toList ++ body

/-- A line of the ignore file in `directory`, written for the top of the project. -/
def rebase (directory line : Text) : Text :=
  let line := dropEnd '\n' line
  if line.isEmpty || (trimLeft line).head? = some '#' || directory.isEmpty then line
  else
    match line with
    | '!' :: body => '!' :: rebaseBody directory body
    | body => rebaseBody directory body

end Ignore

end GeneratedCode
