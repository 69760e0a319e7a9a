import GeneratedCode.Text.Utf8

/-!
Encodings: how the bytes of a source file are read as text.

An encoding has a name and goes by others, whose spelling is free in some ways
(`Encoding.ofName?`).
No byte sequence is refused: what cannot be read becomes the replacement character
(`Encoding.decode`). Only a file whose encoding asks for a byte order mark is, if it has two bytes
or more and does not start with one.
-/

namespace GeneratedCode

/-- The encodings that a source file can be read in. -/
inductive Encoding where
  | utf8
  /-- UTF-8 behind an optional byte order mark. -/
  | utf8Marked
  | latin1
  | ascii
  | utf16Little
  | utf16Big
  /-- UTF-16 behind a byte order mark, which gives the order of the bytes. -/
  | utf16Marked
  deriving DecidableEq, Repr

namespace Encoding

/-- The encodings. -/
def all : List Encoding :=
  [utf8, utf8Marked, latin1, ascii, utf16Little, utf16Big, utf16Marked]

/-- The name of an encoding, in its plain spelling. -/
def name : Encoding → String
  | utf8 => "utf_8"
  | utf8Marked => "utf_8_sig"
  | latin1 => "latin_1"
  | ascii => "ascii"
  | utf16Little => "utf_16_le"
  | utf16Big => "utf_16_be"
  | utf16Marked => "utf_16"

/-- The other names of an encoding, in their plain spelling. -/
def aliases : Encoding → List String
  | utf8 => ["utf8", "u8", "utf", "utf8_ucs2", "utf8_ucs4", "cp65001"]
  | utf8Marked => []
  | latin1 =>
      ["latin1", "latin", "l1", "iso_8859_1", "iso8859_1", "iso8859", "8859",
        "iso_8859_1_1987", "iso_ir_100", "csisolatin1", "cp819", "ibm819"]
  | ascii =>
      ["us_ascii", "us", "646", "iso646_us", "iso_646.irv_1991", "iso_ir_6",
        "ansi_x3.4_1968", "ansi_x3_4_1968", "ansi_x3.4_1986", "csascii", "cp367", "ibm367"]
  | utf16Little => ["utf_16le", "unicodelittleunmarked"]
  | utf16Big => ["utf_16be", "unicodebigunmarked"]
  | utf16Marked => ["utf16", "u16"]

/-- The plain spelling of what is left of a name, behind `done`, which comes backwards; `gap` says
that a separator came last. -/
def plainFrom (gap : Bool) (done : Text) : Text → Text
  | [] => done.reverse
  | c :: rest =>
      if c.isAlphanum || c = '.' then
        let done := if gap && !done.isEmpty then '_' :: done else done
        plainFrom false (c.toLower :: done) rest
      else plainFrom true done rest

/-- The plain spelling of a name: small letters, digits and dots, with one underscore for whatever
stands between them. -/
def plain (name : String) : String :=
  String.ofList (plainFrom false [] name.toList)

/-- A name with underscores in the place of its dots. -/
def undotted (name : String) : String :=
  String.ofList (name.toList.map fun c => if c = '.' then '_' else c)

/-- Whether a name in its plain spelling is one of an encoding; any but the first may have dots in
the place of its underscores. -/
def isCalled (encoding : Encoding) (name : String) : Bool :=
  encoding.name == name || encoding.aliases.contains name ||
    encoding.aliases.contains (undotted name)

/-- The encoding of a name, in any spelling. The one of the place where the program runs, which is
UTF-8, is called `locale`, in this spelling only. -/
def ofName? (name : String) : Option Encoding :=
  if name = "locale" then some utf8 else all.find? (·.isCalled (plain name))

example : plain " UTF--8 " = "utf_8" := by decide

example : undotted "us.ascii" = "us_ascii" := by decide

theorem mem_all (encoding : Encoding) : encoding ∈ all := by
  cases encoding <;> decide

/-- The number that two bytes form. -/
def unit (big : Bool) (a b : UInt8) : Nat :=
  if big then a.toNat * 256 + b.toNat else b.toNat * 256 + a.toNat

/-- Whether a unit is the first half of a pair. -/
def isHighHalf (n : Nat) : Bool := 0xD800 ≤ n && n ≤ 0xDBFF

/-- Whether a unit is the second half of a pair. -/
def isLowHalf (n : Nat) : Bool := 0xDC00 ≤ n && n ≤ 0xDFFF

/-- Decodes units of two bytes; `done` is what has been read, latest first. A half without its
other half becomes one replacement character, and so does all that is left when the bytes end in
the middle of a unit or behind a first half. -/
def decodeUnits (big : Bool) (done : Text) : List UInt8 → Text
  | [] => done.reverse
  | [_] => (Text.Utf8.replacement :: done).reverse
  | a :: b :: rest =>
      let n := unit big a b
      if isHighHalf n then
        match rest with
        | c :: d :: rest' =>
            let m := unit big c d
            if isLowHalf m then
              let joined := Char.ofNat (0x10000 + (n - 0xD800) * 0x400 + (m - 0xDC00))
              decodeUnits big (joined :: done) rest'
            else decodeUnits big (Text.Utf8.replacement :: done) (c :: d :: rest')
        | _ => (Text.Utf8.replacement :: done).reverse
      else if isLowHalf n then decodeUnits big (Text.Utf8.replacement :: done) rest
      else decodeUnits big (Char.ofNat n :: done) rest
termination_by bytes => bytes.length

/-- Whether the bytes are a proper start of the byte order mark of UTF-8. Too short to tell a mark
from a text, they are read as an empty one. -/
def isPartOfMark (bytes : List UInt8) : Bool :=
  bytes.length < 3 && bytes.isPrefixOf [0xEF, 0xBB]

/-- The text that some bytes are. -/
def decode : Encoding → List UInt8 → Except Failure Text
  | utf8, bytes => .ok (Text.Utf8.decodeLossy bytes)
  | utf8Marked, bytes =>
      match bytes with
      | 0xEF :: 0xBB :: 0xBF :: rest => .ok (Text.Utf8.decodeLossy rest)
      | _ => .ok (if isPartOfMark bytes then [] else Text.Utf8.decodeLossy bytes)
  | latin1, bytes => .ok (bytes.map fun b => Char.ofNat b.toNat)
  | ascii, bytes =>
      .ok (bytes.map fun b => if b < 0x80 then Char.ofNat b.toNat else Text.Utf8.replacement)
  | utf16Little, bytes => .ok (decodeUnits false [] bytes)
  | utf16Big, bytes => .ok (decodeUnits true [] bytes)
  | utf16Marked, bytes =>
      match bytes with
      | 0xFF :: 0xFE :: rest => .ok (decodeUnits false [] rest)
      | 0xFE :: 0xFF :: rest => .ok (decodeUnits true [] rest)
      | _ :: _ :: _ => .error .missingMark
      | short => .ok (decodeUnits false [] short)

end Encoding

end GeneratedCode
