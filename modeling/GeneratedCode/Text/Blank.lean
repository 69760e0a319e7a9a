import GeneratedCode.Text.Range

/-!
Blank characters, and texts with the blanks at their ends removed.

`isBlank` is the set of characters that count as white space at the ends of a line: the control
characters from tab to carriage return, the four separators in front of the space, next line, and
every space or separator of Unicode. `trimRight_concat` computes a trimmed text from its end.
-/

namespace GeneratedCode

namespace Text

/-- White space, line ends included. -/
def isBlank (c : Char) : Bool :=
  let n := c.toNat
  (9 ≤ n && n ≤ 13) || (0x1C ≤ n && n ≤ 0x20) || n == 0x85 || n == 0xA0 || n == 0x1680 ||
    (0x2000 ≤ n && n ≤ 0x200A) || n == 0x2028 || n == 0x2029 || n == 0x202F || n == 0x205F ||
    n == 0x3000

/-- The text from its first character that is not blank. -/
def trimLeft (s : Text) : Text :=
  s.dropWhile isBlank

/-- The text up to its last character that is not blank. -/
def trimRight (s : Text) : Text :=
  (s.reverse.dropWhile isBlank).reverse

/-- The text without the blanks at both its ends. -/
def trim (s : Text) : Text :=
  trimRight (trimLeft s)

@[simp] theorem trimRight_nil : trimRight [] = [] := rfl

theorem trimRight_concat (s : Text) (c : Char) :
    trimRight (s ++ [c]) = if isBlank c then trimRight s else s ++ [c] := by
  by_cases h : isBlank c <;> simp [trimRight, h]

end Text

end GeneratedCode
