import GeneratedCode.Cache.Table
import GeneratedCode.Call
import GeneratedCode.Event

/-!
Slots: where the table that holds now is kept.

A slot may be emptied at any time: by hand, or by a full collection if it is made that way. Losing
a table costs nothing but work: `Slot.isGenerated` looks an answer up and works it out if it is
not there, first from the name of the file and then from its comments. What is worked out goes
into a new table, which takes the place of whatever the slot then holds. A computation that fails
leaves the slot as it is.
-/

namespace GeneratedCode

namespace Cache

/-! ### Slots -/

/-- Holds a table, or nothing. -/
structure Slot where
  /-- How many entries a table may have; without room for one, no table is kept. -/
  maxEntries : Int := 2048
  /-- Whether a full collection drops the table. -/
  dropsOnCollection : Bool := false
  /-- How many tables collections have dropped. -/
  drops : Nat := 0
  table : Option Table := none
  deriving Repr

/-- The bound of a table, unless another is asked for. -/
def defaultMaxEntries : Nat := 2048

/-- The collections that go through all that there is. -/
def fullGeneration : Int := 2

namespace Slot

/-- The answer for a living tree, if it is kept. -/
def lookup? (slot : Slot) (tree : Handle) : Option Bool :=
  slot.table.bind (·.lookup? tree)

/-- How many answers for living trees are kept. -/
def countAlive (alive : Handle → Bool) (slot : Slot) : Nat :=
  (slot.table.map (·.countAlive alive)).getD 0

/-- The slot without its table. -/
def clear (slot : Slot) : Slot :=
  { slot with table := none }

/-- The slot after a collection. -/
def collect (generation : Int) (slot : Slot) : Slot :=
  if slot.dropsOnCollection && generation = fullGeneration && slot.table.isSome then
    { slot with table := none, drops := slot.drops + 1 }
  else slot

/-- The slot of a mode. -/
def ofMode (mode : Mode) (maxEntries : Int) : Slot :=
  match mode with
  | .off => { maxEntries := 0 }
  | .bounded => { maxEntries := maxEntries }
  | .weak => { maxEntries := maxEntries, dropsOnCollection := true }

/-- The slot of the mode of that name. -/
def ofModeName (mode : Text) (maxEntries : Int) : Except Failure Slot :=
  match Mode.ofName? mode with
  | some mode => .ok (ofMode mode maxEntries)
  | none => .error (.unknownMode mode)

end Slot

/-! ### Inquiries -/

/-- A store of answers that is asked for one, what has been told to the log since, the latest
first, and whatever the answer is worked out on. -/
structure Inquiry (κ σ : Type) where
  store : κ
  events : List Event
  inner : σ

namespace Inquiry

variable {κ σ α : Type}

/-- Runs a computation that does not know of the store. -/
def onInner (x : Attempt σ α) : Attempt (Inquiry κ σ) α :=
  x.focus Inquiry.inner fun inquiry inner => { inquiry with inner := inner }

/-- Tells the log of an event. -/
def tell (event : Event) : Attempt (Inquiry κ σ) Unit :=
  modify fun inquiry => { inquiry with events := event :: inquiry.events }

end Inquiry

namespace Slot

variable {σ : Type}

/-- Works out whether a tree is generated code: from its path, or else from its comments. -/
def workOut (path : Text) (byName : Text → Except Failure Bool) (byComment : Attempt σ Bool) :
    Attempt (Inquiry Slot σ) Bool := do
  if ← Attempt.ofExcept (byName path) then return true else Inquiry.onInner byComment

/-- Puts an answer into the next table, made from `table`, unless there is no room for any. -/
def install (alive : Handle → Bool) (table : Table) (tree : Handle) (answer : Bool) :
    Attempt (Inquiry Slot σ) Unit := do
  let inquiry ← get
  if 0 < inquiry.store.maxEntries then
    let next ← Attempt.ofExcept (table.withEntry alive tree answer inquiry.store.maxEntries)
    set { inquiry with store := { inquiry.store with table := some next } }

/-- Whether a tree is generated code: the answer that the slot keeps, or else the one that is
worked out and kept from then on. -/
def isGenerated (alive : Handle → Bool) (tree : Handle) (path : Text)
    (byName : Text → Except Failure Bool) (byComment : Attempt σ Bool) :
    Attempt (Inquiry Slot σ) Bool := do
  let table := (← get).store.table.getD []
  match table.lookup? tree with
  | some answer => return answer
  | none =>
      let answer ← workOut path byName byComment
      Inquiry.tell (.miss path answer table.length)
      install alive table tree answer
      return answer

/-- An answer that is kept is given, and nothing else happens. -/
theorem outcome_isGenerated_of_lookup? {alive : Handle → Bool} {tree : Handle} {path : Text}
    {byName : Text → Except Failure Bool} {byComment : Attempt σ Bool} {inquiry : Inquiry Slot σ}
    {answer : Bool} (h : inquiry.store.lookup? tree = some answer) :
    (isGenerated alive tree path byName byComment).outcome inquiry = (.ok answer, inquiry) := by
  obtain ⟨table, ht, hanswer⟩ := Option.bind_eq_some_iff.1 h
  simp only [isGenerated, Attempt.outcome_bind, Attempt.outcome_get, ht, Option.getD_some, hanswer]
  rfl

end Slot

end Cache

end GeneratedCode
