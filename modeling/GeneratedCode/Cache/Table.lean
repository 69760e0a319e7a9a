import GeneratedCode.Failure

/-!
Tables: answers that were worked out before, by tree.

An entry is found by the address of its tree and counts only for the very tree that it was made
for: an address is used again once its tree is dead. An entry does not keep its tree alive, unless
the tree cannot be referred to in any other way (`Handle.pinned`). Entries stand in the order in
which they were made.

* `Table.lookup?` finds an answer.
* `Table.withEntry` makes the next table: entries of dead trees are left out, the new one comes
  last, and the oldest ones go until the bound holds (`trim`).
-/

namespace GeneratedCode

namespace Cache

/-- A tree as a table knows it. -/
structure Handle where
  /-- Tells the tree from all others that there ever were. -/
  serial : Nat
  /-- Tells the tree from all others that live. -/
  address : Nat
  /-- Whether an entry keeps the tree alive. -/
  pinned : Bool := false
  /-- The host's name for the tree. -/
  label : String := ""
  deriving DecidableEq, Repr

/-- An answer for a tree. -/
structure Entry where
  key : Nat
  tree : Handle
  generated : Bool
  deriving DecidableEq, Repr

/-- Answers for some trees, the oldest first. -/
abbrev Table := List Entry

namespace Table

/-- The answer for a living tree. -/
def lookup? (table : Table) (tree : Handle) : Option Bool :=
  match table.find? (·.key == tree.address) with
  | none => none
  | some entry => if entry.tree.serial = tree.serial then some entry.generated else none

/-- Drops the oldest entries until no more than `max` are left. -/
def trim (max : Int) : Table → Except Failure Table
  | [] => if max < 0 then .error .nothingToDrop else .ok []
  | entry :: rest =>
      if max < rest.length + 1 then trim max rest else .ok (entry :: rest)

/-- The table with an answer for `tree` added, or moved to its end. -/
def withEntry (alive : Handle → Bool) (table : Table) (tree : Handle) (generated : Bool)
    (max : Int) : Except Failure Table :=
  let kept := table.filter fun entry => alive entry.tree && entry.key != tree.address
  trim max (kept ++ [⟨tree.address, tree, generated⟩])

/-- How many entries are for living trees. -/
def countAlive (alive : Handle → Bool) (table : Table) : Nat :=
  table.countP fun entry => alive entry.tree

/-- Trimming keeps the youngest entries. -/
theorem trim_eq_drop {max : Nat} (table : Table) :
    trim max table = .ok (table.drop (table.length - max)) := by
  induction table with
  | nil => simp [trim]
  | cons entry rest ih =>
      rw [trim]
      split
      · next h =>
          rw [ih, show (entry :: rest).length - max = rest.length - max + 1 by
            rw [List.length_cons]; omega, List.drop_succ_cons]
      · next h =>
          rw [show (entry :: rest).length - max = 0 by rw [List.length_cons]; omega, List.drop_zero]

/-- No table is small enough for a negative bound. -/
theorem trim_of_neg {max : Int} (h : max < 0) (table : Table) :
    trim max table = .error .nothingToDrop := by
  induction table with
  | nil => simp [trim, h]
  | cons entry rest ih => rw [trim, if_pos (by omega), ih]

end Table

end Cache

end GeneratedCode
