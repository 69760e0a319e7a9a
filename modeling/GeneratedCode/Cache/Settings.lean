import GeneratedCode.Cache.Slot
import GeneratedCode.Text.Blank
import GeneratedCode.Text.Case
import GeneratedCode.Text.Digit

/-!
Settings: how the shared cache is set up from two variables of the environment.

One names the mode, the other the bound of the table. A value that says nothing useful is reported
and the usual one taken instead; setting up never fails.
-/

namespace GeneratedCode

namespace Cache

open Text

/-- The two variables, as far as they are set. -/
structure Environment where
  mode : Option Text := none
  maxEntries : Option Text := none
  deriving Repr

/-- How a cache is set up. -/
structure Settings where
  mode : Mode
  maxEntries : Nat
  deriving DecidableEq, Repr

/-- The mode that is taken unless another is asked for. -/
def defaultMode : Mode := .weak

namespace Settings

/-- The mode that a variable asks for. -/
def readMode : Option Text → Mode × List Event
  | none => (defaultMode, [])
  | some text =>
      let name := lower (trim text)
      match Mode.ofName? name with
      | some mode => (mode, [])
      | none => (defaultMode, [.invalidMode name])

/-- The bound that a variable asks for; it has to be a number above zero. -/
def readMaxEntries : Option Text → Nat × List Event
  | none => (defaultMaxEntries, [])
  | some text =>
      match int? text with
      | some (.ofNat (n + 1)) => (n + 1, [])
      | _ => (defaultMaxEntries, [.invalidMaxEntries text])

/-- The settings that the environment asks for, and what the log is told of them. -/
def load (environment : Environment) : Settings × List Event :=
  let (mode, modeEvents) := readMode environment.mode
  let (maxEntries, maxEvents) := readMaxEntries environment.maxEntries
  (⟨mode, maxEntries⟩, modeEvents ++ maxEvents)

/-- The slot of a cache that is set up so. -/
def slot (settings : Settings) : Slot :=
  .ofMode settings.mode settings.maxEntries

/-- Sets a cache up: its settings, and what the log is told in all. -/
def setUp (environment : Environment) : Settings × List Event :=
  let (settings, events) := load environment
  (settings, events ++ [.configured settings.mode settings.maxEntries])

end Settings

end Cache

end GeneratedCode
