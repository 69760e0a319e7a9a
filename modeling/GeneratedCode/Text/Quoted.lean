import GeneratedCode.Text.Printable

/-!
Quoted texts: a text as it is shown inside a message.

It stands between single quotes, or between double quotes if it holds a single quote and no double
one (`quoteMark`). The mark itself and the backslash get a backslash in front; line feed, carriage
return and tab have letters; any other character that is not printable is given by its code point
in two, four or eight hexadecimal digits.
-/

namespace GeneratedCode

namespace Text

/-- The lowest `width` hexadecimal digits of a number. -/
def hexDigits : (width n : Nat) → Text
  | 0, _ => []
  | width + 1, n => hexDigits width (n / 16) ++ [Nat.digitChar (n % 16)]

/-- The mark that stands around a text. -/
def quoteMark (s : Text) : Char :=
  if s.contains '\'' && !s.contains '"' then '"' else '\''

/-- How a character is written between two marks. -/
def escape (mark c : Char) : Text :=
  if c = mark || c = '\\' then ['\\', c]
  else if c = '\n' then ['\\', 'n']
  else if c = '\r' then ['\\', 'r']
  else if c = '\t' then ['\\', 't']
  else if isPrintable c then [c]
  else if c.toNat < 0x100 then '\\' :: 'x' :: hexDigits 2 c.toNat
  else if c.toNat < 0x10000 then '\\' :: 'u' :: hexDigits 4 c.toNat
  else '\\' :: 'U' :: hexDigits 8 c.toNat

/-- The text between marks, with every character that needs it escaped. -/
def quoted (s : Text) : Text :=
  quoteMark s :: (s.flatMap (escape (quoteMark s)) ++ [quoteMark s])

example : quoted "it's\n".toList = "\"it's\\n\"".toList := by decide +kernel

example : quoted "\x00'\"".toList = "'\\x00\\'\"'".toList := by decide +kernel

end Text

end GeneratedCode
