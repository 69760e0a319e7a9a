import GeneratedCode.Cache.Slot

/-!
Memories: the trees that live, and the tables that are kept.

A tree lives while something holds it: a name, or, if it is pinned, an entry of a table that is
kept. A new tree gets a serial number that no tree had before, and an address that no living tree
has (`freeAddress_ne`), perhaps that of a dead one. Slots are found by their numbers, and changing
one leaves the others alone (`slot_setSlot_of_ne`).
-/

namespace GeneratedCode

open Cache

/-! ### What is kept -/

/-- The trees that names hold, the slots, and the tables that were put aside. -/
structure Memory where
  /-- The serial number of the next tree. -/
  nextSerial : Nat := 0
  /-- The trees that names hold. -/
  held : List Handle := []
  /-- The number of the next slot. -/
  nextSlot : Nat := 0
  /-- The slots by their numbers. -/
  slots : List (Nat × Slot) := []
  /-- Tables that were put aside, by their names; a slot may have had none. -/
  aside : List (String × Option Table) := []

namespace Memory

/-- The tables that are kept. -/
def tables (memory : Memory) : List Table :=
  memory.slots.filterMap (·.2.table) ++ memory.aside.filterMap (·.2)

/-- The pinned trees that tables keep alive. -/
def pinned (memory : Memory) : List Handle :=
  memory.tables.flatMap fun table => (table.map (·.tree)).filter (·.pinned)

/-- Whether a tree lives. -/
def alive (memory : Memory) (tree : Handle) : Bool :=
  (memory.held ++ memory.pinned).any (·.serial == tree.serial)

/-! ### Trees -/

/-- The lowest address that no living tree has. -/
def freeAddress (memory : Memory) : Nat :=
  let used := (memory.held ++ memory.pinned).map (·.address)
  ((List.range used.length).find? (!used.contains ·)).getD (used.foldl max used.length + 1)

/-- Makes a tree that a name holds, at an address that no living tree has. -/
def createAt (memory : Memory) (address : Nat) (pinned : Bool) (label : String) : Handle × Memory :=
  let tree : Handle := ⟨memory.nextSerial, address, pinned, label⟩
  (tree, { memory with nextSerial := memory.nextSerial + 1, held := tree :: memory.held })

/-- Makes a tree that a name holds. -/
def create (memory : Memory) (pinned : Bool) (label : String) : Handle × Memory :=
  memory.createAt memory.freeAddress pinned label

/-- Lets go of a tree that a name holds. -/
def release (memory : Memory) (tree : Handle) : Memory :=
  { memory with held := memory.held.filter (·.serial != tree.serial) }

/-! ### Slots -/

/-- Makes a slot; with the memory comes its number. -/
def addSlot (memory : Memory) (slot : Slot) : Nat × Memory :=
  (memory.nextSlot,
    { memory with
      nextSlot := memory.nextSlot + 1
      slots := (memory.nextSlot, slot) :: memory.slots })

/-- The slot of a number. -/
def slot (memory : Memory) (number : Nat) : Slot :=
  (memory.slots.lookup number).getD {}

/-- Changes the slot of a number. -/
def setSlot (memory : Memory) (number : Nat) (slot : Slot) : Memory :=
  { memory with
    slots := memory.slots.map fun (other, old) =>
      if other = number then (other, slot) else (other, old) }

@[simp] theorem slot_addSlot (memory : Memory) (slot : Slot) :
    (memory.addSlot slot).2.slot (memory.addSlot slot).1 = slot := by
  simp [addSlot, Memory.slot]

/-- Changing a slot leaves the others alone. -/
theorem slot_setSlot_of_ne {memory : Memory} {number other : Nat} (h : other ≠ number)
    (slot : Slot) : (memory.setSlot number slot).slot other = memory.slot other := by
  have lookup_map (slots : List (Nat × Slot)) :
      (slots.map fun (key, old) => if key = number then (key, slot) else (key, old)).lookup other =
        slots.lookup other := by
    induction slots with
    | nil => rfl
    | cons head slots ih =>
        obtain ⟨key, old⟩ := head
        rw [List.map_cons, List.lookup_cons, List.lookup_cons, ih]
        by_cases hkey : key = number
        · rw [if_pos hkey, hkey, beq_false_of_ne h]
        · rw [if_neg hkey]
  rw [Memory.slot, setSlot, lookup_map, Memory.slot]

/-- Forgets the slots that are not wanted any more. -/
def keepSlots (memory : Memory) (wanted : List Nat) : Memory :=
  { memory with slots := memory.slots.filter fun (number, _) => wanted.contains number }

/-- Runs a collection. -/
def collect (memory : Memory) (generation : Int) : Memory :=
  { memory with slots := memory.slots.map fun (number, slot) => (number, slot.collect generation) }

/-- How many slots wait for collections. -/
def hooks (memory : Memory) : Nat :=
  memory.slots.countP (·.2.dropsOnCollection)

/-- Asks the slot of a number whether a tree is generated code. -/
def isGenerated {σ : Type} (number : Nat) (tree : Handle) (path : Text)
    (byName : Text → Except Failure Bool) (byComment : Attempt σ Bool) :
    Attempt (Inquiry Memory σ) Bool := do
  let memory := (← get).store
  (Slot.isGenerated memory.alive tree path byName byComment).focus
    (fun inquiry => ⟨inquiry.store.slot number, inquiry.events, inquiry.inner⟩)
    (fun inquiry after =>
      ⟨inquiry.store.setSlot number after.store, after.events, after.inner⟩)

/-- No living tree has the address that a new tree gets. -/
theorem freeAddress_ne {memory : Memory} {tree : Handle}
    (h : tree ∈ memory.held ++ memory.pinned) : tree.address ≠ memory.freeAddress := by
  have le_foldl (l : List Nat) (start n : Nat) (hn : n ∈ l ∨ n ≤ start) :
      n ≤ l.foldl max start := by
    induction l generalizing start with
    | nil => simpa using hn
    | cons a l ih =>
        refine ih _ ?_
        rcases hn with hn | hn
        · rcases List.mem_cons.1 hn with rfl | hn
          · exact .inr (Nat.le_max_right ..)
          · exact .inl hn
        · exact .inr (Nat.le_trans hn (Nat.le_max_left ..))
  have hmem := List.mem_map_of_mem (f := (·.address)) h
  unfold freeAddress
  intro heq
  rw [heq] at hmem
  revert hmem
  simp only
  cases hfind : (List.range _).find? _ with
  | some n =>
      have := List.find?_some hfind
      simpa using this
  | none =>
      intro hmem
      have := le_foldl _ (((memory.held ++ memory.pinned).map (·.address)).length) _ (.inl hmem)
      simp only [Option.getD_none] at this
      omega

end Memory

end GeneratedCode
