import GeneratedCode.Text.Range

/-!
Lines: a text with one kind of line end, cut into its lines.

An ignore file may end its lines as it likes: `unifyBreaks` writes every carriage return, with or
without a line feed behind it, as a line feed. `lines` then cuts at every line boundary, which also
are the vertical tab, the form feed, the three separators of the control characters, next line, and
the line and paragraph separators. A boundary at the end of the text starts no further line.
-/

namespace GeneratedCode

namespace Text

/-- The text with line feed as its only line end. -/
def unifyBreaks : Text → Text
  | [] => []
  | '\r' :: '\n' :: rest => '\n' :: unifyBreaks rest
  | c :: rest => (if c = '\r' then '\n' else c) :: unifyBreaks rest

/-- The characters at which a text is cut into lines. -/
def isLineBoundary (c : Char) : Bool :=
  let n := c.toNat
  (0x0A ≤ n && n ≤ 0x0D) || (0x1C ≤ n && n ≤ 0x1E) || n == 0x85 || n == 0x2028 || n == 0x2029

/-- Cuts into lines; `line` is the line being read, and `done` the finished ones, latest first. -/
def linesFrom (line : Text) (done : List Text) : Text → List Text
  | [] => (if line.isEmpty then done else line.reverse :: done).reverse
  | '\r' :: '\n' :: rest => linesFrom [] (line.reverse :: done) rest
  | c :: rest =>
      if isLineBoundary c then linesFrom [] (line.reverse :: done) rest
      else linesFrom (c :: line) done rest

/-- The lines of a text, without their boundaries. -/
def lines (s : Text) : List Text :=
  linesFrom [] [] s

example : lines "a\n\nb\r\nc".toList = ["a".toList, [], "b".toList, "c".toList] := by decide

example : lines "a\n".toList = ["a".toList] ∧ lines [] = [] := by decide

end Text

end GeneratedCode
