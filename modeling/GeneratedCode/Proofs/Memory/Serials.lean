import Mathlib.Tactic
import GeneratedCode.Proofs.Memory.Tables

/-!
Serial numbers: what a memory keeps is for trees that there were.

No tree of a table has a number that is still to come (`Memory.Numbered`), whatever the answers in
the table are worth. So nothing is ever kept for a tree that is yet to be made, even if it gets the
address of one that was asked about (`Numbered.lookup?_eq_none`): the first time that a cache is
asked about a new tree, it has to work the answer out.
-/

namespace GeneratedCode

open Cache

namespace Memory

/-- Every entry that is kept is for a tree that there was. -/
def Numbered (memory : Memory) : Prop :=
  ∀ table ∈ memory.tables, ∀ entry ∈ table, entry.tree.serial < memory.nextSerial

namespace Numbered

variable {memory : Memory} {number : ℕ} {tree : Handle}

/-- A memory that keeps no other tables. -/
lemma of_subset {after : Memory} (h : memory.Numbered)
    (hserial : memory.nextSerial ≤ after.nextSerial)
    (htables : ∀ table ∈ after.tables, table ∈ memory.tables) : after.Numbered := by
  intro table htable entry hentry
  exact (h table (htables table htable) entry hentry).trans_le hserial

/-- Nothing is kept for a tree that is yet to be made. -/
lemma lookup?_eq_none (h : memory.Numbered) (htree : memory.nextSerial ≤ tree.serial) :
    (memory.slot number).lookup? tree = none := by
  cases hfound : (memory.slot number).lookup? tree with
  | none => rfl
  | some generated =>
      obtain ⟨table, htable, hlookup⟩ := Option.bind_eq_some_iff.1 hfound
      obtain ⟨entry, hentry, -, hserial, -⟩ := Table.exists_of_lookup? hlookup
      have hlt := h table (mem_tables_of_slot htable) entry hentry
      omega

/-- The slot of a number may take on the answer for a tree that there was. -/
lemma setSlot_keeping (h : memory.Numbered) (htree : tree.serial < memory.nextSerial)
    (alive : Handle → Bool) (answer : Bool) :
    (memory.setSlot number ((memory.slot number).keeping alive tree answer)).Numbered := by
  intro table htable entry hentry
  rcases exists_or_eq_of_mem_keeping htable hentry with ⟨old, hold, hmem⟩ | rfl
  · exact h old hold entry hmem
  · exact htree

end Numbered

end Memory

end GeneratedCode
