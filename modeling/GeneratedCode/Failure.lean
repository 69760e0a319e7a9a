import GeneratedCode.File
import GeneratedCode.Text.Quoted

/-!
What can go wrong, and how it is put into words.

Every failure is a value that names its cause; `Failure.message` is the only place that words it. A
file that cannot be read and a character class that runs backwards have no message of their own:
their cause says all.
-/

namespace GeneratedCode

/-- Why bytes are no text. -/
inductive MalformedCause where
  /-- No character starts with this byte. -/
  | start
  /-- The character that these bytes start cannot go on as it does. -/
  | continuation
  /-- The bytes end in the middle of a character. -/
  | cutOff
  deriving DecidableEq, Repr

/-- Bytes that are no text: where they stand, how many there are, and the first of them. -/
structure Malformed where
  position : Nat
  count : Nat
  byte : UInt8
  cause : MalformedCause
  deriving DecidableEq, Repr

/-- What a call may fail with. -/
inductive Failure where
  /-- A check found the call cancelled. -/
  | cancelled
  /-- A piece of trivia has a kind of this name, and there is no such kind. -/
  | unknownTriviaKind (name : Text)
  /-- There is no cache mode of this name. -/
  | unknownMode (name : Text)
  /-- The host raised an error of its own. -/
  | raised (message : String)
  /-- An ignore file has a line that is no pattern. -/
  | invalidPattern (line : Text)
  /-- A character class has a range whose end lies before its start. -/
  | reversedRange
  /-- An ignore file is not in UTF-8. -/
  | malformed (what : Malformed)
  /-- A file that has to start with a byte order mark does not. -/
  | missingMark
  /-- A path has a NUL in it, which no path can have. -/
  | nulInPath
  /-- The name of an encoding has a NUL in it. -/
  | nulInEncoding
  /-- There is no encoding of this name. -/
  | unknownEncoding (name : String)
  /-- There is no generation of this number to collect. -/
  | unknownGeneration
  /-- An empty table was asked for its oldest entry. -/
  | nothingToDrop
  /-- A file cannot be opened, or not be read as far as is needed. -/
  | cannotRead (why : FileError)
  deriving DecidableEq, Repr

namespace MalformedCause

/-- The cause in words. -/
def message : MalformedCause → String
  | start => "invalid start byte"
  | continuation => "invalid continuation byte"
  | cutOff => "unexpected end of data"

end MalformedCause

namespace Malformed

/-- A single byte is shown, several are given by their positions. -/
def message (m : Malformed) : String :=
  let what :=
    if m.count = 1 then
      "byte 0x" ++ String.ofList (Text.hexDigits 2 m.byte.toNat) ++ " in position " ++
        toString m.position
    else
      "bytes in position " ++ toString m.position ++ "-" ++ toString (m.position + m.count - 1)
  "'utf-8' codec can't decode " ++ what ++ ": " ++ m.cause.message

end Malformed

namespace Failure

/-- The failure in words, if it has any. -/
def message : Failure → Option String
  | cancelled => some "operation was cancelled"
  | unknownTriviaKind name =>
      some (String.ofList (Text.quoted name) ++ " is not a valid TriviaKind")
  | unknownMode name => some ("Unknown cache mode: " ++ String.ofList name)
  | raised message => some message
  | invalidPattern line => some ("Invalid git pattern: " ++ String.ofList (Text.quoted line))
  | reversedRange => none
  | malformed what => some what.message
  | missingMark => some "UTF-16 stream does not start with BOM"
  | nulInPath => some "embedded null byte"
  | nulInEncoding => some "embedded null character"
  | unknownEncoding name => some ("unknown encoding: " ++ name)
  | unknownGeneration => some "invalid generation"
  | nothingToDrop => some ""
  | cannotRead _ => none

end Failure

end GeneratedCode
