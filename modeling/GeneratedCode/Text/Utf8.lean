import GeneratedCode.Failure

/-!
UTF-8: bytes to text, strictly or with a substitute for what cannot be read.

A character is written as one to four bytes. The first byte (`form?`) says how many follow, and
within which bounds the first of these lies; the others lie between `0x80` and `0xBF`. `piece`
reads one character from the front, or the longest start of one if it does not go on as it should.
Decoding strictly fails at the first such start (`decode`); decoding leniently writes one
replacement character for each (`decodeLossy`).
-/

namespace GeneratedCode

namespace Text

namespace Utf8

/-- The bytes of a text. -/
def encode (s : Text) : List UInt8 :=
  s.flatMap String.utf8EncodeChar

/-! ### One character -/

/-- What the first byte of a character says: how many bytes follow it, the bounds of the first of
them, and the bits that it gives itself. -/
def form? (b : UInt8) : Option (Nat × UInt8 × UInt8 × Nat) :=
  if b < 0x80 then some (0, 0x80, 0xBF, b.toNat)
  else if b < 0xC2 then none
  else if b < 0xE0 then some (1, 0x80, 0xBF, b.toNat - 0xC0)
  else if b = 0xE0 then some (2, 0xA0, 0xBF, 0)
  else if b = 0xED then some (2, 0x80, 0x9F, 0xD)
  else if b < 0xF0 then some (2, 0x80, 0xBF, b.toNat - 0xE0)
  else if b = 0xF0 then some (3, 0x90, 0xBF, 0)
  else if b < 0xF4 then some (3, 0x80, 0xBF, b.toNat - 0xF0)
  else if b = 0xF4 then some (3, 0x80, 0x8F, 4)
  else none

/-- What stands at the front of some bytes: a character, or bytes that are none; and how many bytes
these are. -/
inductive Piece where
  | char (c : Char) (count : Nat)
  | malformed (count : Nat) (cause : MalformedCause)
  deriving DecidableEq, Repr

/-- Reads the bytes that are still missing of a character of which `count` bytes and the bits
`value` are known; the next one lies between `lo` and `hi`. -/
def goOn : (missing : Nat) → (lo hi : UInt8) → (value count : Nat) → List UInt8 →
    Piece × List UInt8
  | 0, _, _, value, count, bytes => (.char (Char.ofNat value) count, bytes)
  | _ + 1, _, _, _, count, [] => (.malformed count .cutOff, [])
  | missing + 1, lo, hi, value, count, b :: bytes =>
      if lo ≤ b && b ≤ hi then
        goOn missing 0x80 0xBF (value * 64 + (b.toNat - 0x80)) (count + 1) bytes
      else (.malformed count .continuation, b :: bytes)

/-- Reads the character that starts with `b`; with it comes what is left of the bytes. -/
def piece (b : UInt8) (bytes : List UInt8) : Piece × List UInt8 :=
  match form? b with
  | none => (.malformed 1 .start, bytes)
  | some (missing, lo, hi, value) => goOn missing lo hi value 1 bytes

theorem length_goOn_le (missing : Nat) (lo hi : UInt8) (value count : Nat) (bytes : List UInt8) :
    (goOn missing lo hi value count bytes).2.length ≤ bytes.length := by
  fun_induction goOn missing lo hi value count bytes <;> (simp_all; try omega)

theorem length_piece_le (b : UInt8) (bytes : List UInt8) :
    (piece b bytes).2.length ≤ bytes.length := by
  unfold piece
  split
  · exact Nat.le_refl _
  · exact length_goOn_le ..

/-! ### Whole texts -/

/-- The character that stands for bytes that are no text. -/
def replacement : Char := '\ufffd'

/-- Decodes leniently; `done` is what has been read, latest first. -/
def decodeLossyFrom (done : Text) : List UInt8 → Text
  | [] => done.reverse
  | b :: bytes =>
      match _h : piece b bytes with
      | (.char c _, rest) => decodeLossyFrom (c :: done) rest
      | (.malformed _ _, rest) => decodeLossyFrom (replacement :: done) rest
termination_by bytes => bytes.length
decreasing_by
  all_goals
    have := length_piece_le b bytes
    simp only [_h] at this
    simp only [List.length_cons]
    omega

/-- Decodes, with one replacement character for each longest start of a character that does not go
on as it should, and for each byte that starts none. -/
def decodeLossy (bytes : List UInt8) : Text :=
  decodeLossyFrom [] bytes

/-- Decodes strictly; `position` bytes have been read, and `done` is what they say, latest first.
-/
def decodeFrom (position : Nat) (done : Text) : List UInt8 → Except Malformed Text
  | [] => .ok done.reverse
  | b :: bytes =>
      match _h : piece b bytes with
      | (.char c count, rest) => decodeFrom (position + count) (c :: done) rest
      | (.malformed count cause, _) => .error ⟨position, count, b, cause⟩
termination_by bytes => bytes.length
decreasing_by
  have := length_piece_le b bytes
  simp only [_h] at this
  simp only [List.length_cons]
  omega

/-- Decodes, or tells where the bytes first are no text. -/
def decode (bytes : List UInt8) : Except Malformed Text :=
  decodeFrom 0 [] bytes

end Utf8

end Text

end GeneratedCode
