import GeneratedCode.Text.Blank

/-!
Decimal digits of every script, and the whole numbers written with them.

Each script has its ten digits in a row, so a table of the zeros is enough (`digitValue?`). A
number is an optional sign and digits, between which single low lines may stand (`int?`); it has
at most `maxDigits` digits.
-/

namespace GeneratedCode

namespace Text

/-- The zero of every row of ten decimal digits. -/
def digitZeros : List Nat := [
    0x30, 0x660, 0x6F0, 0x7C0, 0x966, 0x9E6, 0xA66, 0xAE6, 0xB66, 0xBE6, 0xC66, 0xCE6, 0xD66,
    0xDE6, 0xE50, 0xED0, 0xF20, 0x1040, 0x1090, 0x17E0, 0x1810, 0x1946, 0x19D0, 0x1A80, 0x1A90,
    0x1B50, 0x1BB0, 0x1C40, 0x1C50, 0xA620, 0xA8D0, 0xA900, 0xA9D0, 0xA9F0, 0xAA50, 0xABF0,
    0xFF10, 0x104A0, 0x10D30, 0x11066, 0x110F0, 0x11136, 0x111D0, 0x112F0, 0x11450, 0x114D0,
    0x11650, 0x116C0, 0x11730, 0x118E0, 0x11950, 0x11C50, 0x11D50, 0x11DA0, 0x16A60, 0x16AC0,
    0x16B50, 0x1D7CE, 0x1D7D8, 0x1D7E2, 0x1D7EC, 0x1D7F6, 0x1E140, 0x1E2F0, 0x1E950, 0x1FBF0]

/-- The value of a decimal digit of any script. -/
def digitValue? (c : Char) : Option Nat :=
  (digitZeros.find? fun first => first ≤ c.toNat && c.toNat ≤ first + 9).map (c.toNat - ·)

/-- A number has no more digits than this, leading zeros counted. -/
def maxDigits : Nat := 4300

/-- Reads digits with single low lines between them; `done` are the values of those read so far,
latest first, and `afterDigit` tells that the last character read was a digit. -/
def digits? (done : List Nat) (afterDigit : Bool) : Text → Option (List Nat)
  | [] => if afterDigit then some done.reverse else none
  | c :: rest =>
      match digitValue? c with
      | some d => digits? (d :: done) true rest
      | none => if c = '_' && afterDigit then digits? done false rest else none

/-- The number that some digits spell, unless they are too many. -/
def ofDigits? (digits : List Nat) : Option Nat :=
  if digits.length ≤ maxDigits then some (digits.foldl (fun value d => 10 * value + d) 0) else none

/-- The number that a text without a sign spells. -/
def nat? (s : Text) : Option Nat :=
  (digits? [] false s).bind ofDigits?

/-- The whole number that a text spells, blanks around it aside. -/
def int? (s : Text) : Option Int :=
  match trim s with
  | '-' :: rest => (nat? rest).map fun n => -(n : Int)
  | '+' :: rest => (nat? rest).map Int.ofNat
  | rest => (nat? rest).map Int.ofNat

example : int? " +1_0".toList = some 10 ∧ int? "-٣".toList = some (-3) := by decide +kernel

example : int? "1__0".toList = none ∧ int? "_1".toList = none ∧ int? "1_".toList = none := by
  decide +kernel

end Text

end GeneratedCode
