/-!
Files: what opening one gives, and what may go wrong.

A path may lead nowhere, or to what is no file. A file that is there may still be refused
(`Refusal`): when it is opened, or later, when some of it has been read. So an open file is more
than its bytes (`OpenFile`): reading it to its end fails if anything goes wrong on the way
(`OpenFile.whole`), but some pieces of it may be had before (`Fault.grants`).
-/

namespace GeneratedCode

/-- Why a file that is there cannot be opened, or read on. -/
inductive Refusal where
  /-- It may not be read. -/
  | permission
  /-- Any other error of the operating system, by its name. -/
  | other (name : String)
  deriving DecidableEq, Repr

/-- Why a file cannot be read. -/
inductive FileError where
  | notFound
  | isDirectory
  | notDirectory
  | linkLoop
  /-- A name, or the whole path. -/
  | nameTooLong
  /-- It is there, but refused. -/
  | refused (why : Refusal)
  deriving DecidableEq, Repr

/-- Whether it says that there is nothing at the end of a path. -/
def FileError.isAbsence : FileError → Bool
  | notFound | notDirectory | linkLoop => true
  | _ => false

/-- What goes wrong with an open file, and how many pieces of it can be read before. -/
structure Fault where
  pieces : Nat
  why : Refusal
  deriving DecidableEq, Repr

namespace Fault

/-- The fault as it is one piece later. -/
def next (fault : Fault) : Fault :=
  { fault with pieces := fault.pieces - 1 }

/-- What asking for that many pieces comes to, where there is perhaps a fault. -/
def grants (fault : Option Fault) (pieces : Nat) : Except FileError Unit :=
  match fault with
  | none => .ok ()
  | some fault => if pieces ≤ fault.pieces then .ok () else .error (.refused fault.why)

end Fault

/-- An open file: its bytes, and what goes wrong before they are read, if anything does. -/
structure OpenFile where
  bytes : List UInt8
  fault : Option Fault := none
  deriving DecidableEq, Repr

/-- What opening a file gives. -/
abbrev Content := Except FileError OpenFile

namespace OpenFile

/-- The bytes of a file with which nothing goes wrong. -/
instance : Coe (List UInt8) OpenFile where
  coe bytes := { bytes := bytes }

/-- All that a file holds, if it can be read to its end. -/
def whole (file : OpenFile) : Except FileError (List UInt8) :=
  match file.fault with
  | none => .ok file.bytes
  | some fault => .error (.refused fault.why)

end OpenFile

end GeneratedCode
