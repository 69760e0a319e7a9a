import GeneratedCode.Failure

/-!
Events: what is told to a log.
-/

namespace GeneratedCode

/-- When a table of answers may be dropped. -/
inductive Mode where
  /-- By every full collection, and entry by entry when it is full. -/
  | weak
  /-- Entry by entry when it is full. -/
  | bounded
  /-- Nothing is kept. -/
  | off
  deriving DecidableEq, Repr

namespace Mode

/-- The name of a mode. -/
def name : Mode → String
  | weak => "weak"
  | bounded => "bounded"
  | off => "off"

/-- The mode of a name. -/
def ofName? (name : Text) : Option Mode :=
  [weak, bounded, off].find? (·.name.toList == name)

theorem ofName?_name (mode : Mode) : ofName? mode.name.toList = some mode := by
  cases mode <;> decide

end Mode

/-- Something that a log is told. -/
inductive Event where
  /-- The shared cache has been set up. -/
  | configured (mode : Mode) (maxEntries : Nat)
  /-- The mode that was asked for is none. -/
  | invalidMode (mode : Text)
  /-- The bound that was asked for is none. -/
  | invalidMaxEntries (text : Text)
  /-- An answer was not in the table, which had that many entries, and has been worked out. -/
  | miss (path : Text) (generated : Bool) (tableSize : Nat)
  /-- A file could not be read. -/
  | readError (path : Text) (why : FileError)
  deriving DecidableEq, Repr

end GeneratedCode
