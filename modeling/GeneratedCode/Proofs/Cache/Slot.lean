import Mathlib.Tactic
import GeneratedCode.Cache.Slot

/-!
What asking a slot does, in one equation each for a hit and a miss.

* `Table.withEntry_eq`: the next table is the end of the old one behind the new entry
  (`Table.next`); with a bound that is not negative, making it never fails.
* `Slot.outcome_isGenerated_of_miss`: a miss works the answer out (`Slot.judge`) and keeps it
  (`Slot.keeping`); if that fails, the slot is as it was.
-/

namespace GeneratedCode

namespace Cache

/-! ### Tables -/

namespace Table

/-- The table with an answer for `tree` at its end, of which the last `max` entries are left. -/
def next (alive : Handle → Bool) (table : Table) (tree : Handle) (generated : Bool) (max : ℕ) :
    Table :=
  let full := table.filter (fun entry => alive entry.tree && entry.key != tree.address) ++
    [⟨tree.address, tree, generated⟩]
  full.drop (full.length - max)

/-- Making the next table succeeds. -/
lemma withEntry_eq (alive : Handle → Bool) (table : Table) (tree : Handle) (generated : Bool)
    (max : ℕ) :
    table.withEntry alive tree generated max = .ok (table.next alive tree generated max) := by
  rw [withEntry, trim_eq_drop]
  rfl

/-- An entry of the next table was there before or is the new one. -/
lemma mem_of_mem_next {alive : Handle → Bool} {table : Table} {tree : Handle} {generated : Bool}
    {max : ℕ} {entry : Entry} (h : entry ∈ table.next alive tree generated max) :
    entry ∈ table ∨ entry = ⟨tree.address, tree, generated⟩ := by
  have hfull := List.mem_of_mem_drop h
  rcases List.mem_append.1 hfull with hold | hnew
  · exact .inl (List.mem_of_mem_filter hold)
  · exact .inr (List.mem_singleton.1 hnew)

/-- An answer that is found is that of an entry which is for the very tree. -/
lemma exists_of_lookup? {table : Table} {tree : Handle} {generated : Bool}
    (h : table.lookup? tree = some generated) :
    ∃ entry ∈ table, entry.key = tree.address ∧ entry.tree.serial = tree.serial ∧
      entry.generated = generated := by
  rw [lookup?] at h
  split at h
  · contradiction
  · next entry hfind =>
      have hkey : entry.key = tree.address := by simpa using List.find?_some hfind
      split at h
      · next hserial =>
          exact ⟨entry, List.mem_of_find?_eq_some hfind, hkey, hserial, Option.some.inj h⟩
      · contradiction

end Table

/-! ### Slots -/

namespace Slot

variable {σ : Type} {alive : Handle → Bool} {tree : Handle} {path : Text}
  {byName : Text → Except Failure Bool} {byComment : Attempt σ Bool}

/-- A new slot is empty. -/
@[simp] lemma ofMode_table (mode : Mode) (maxEntries : ℤ) :
    (ofMode mode maxEntries).table = none := by
  cases mode <;> rfl

lemma table_of_ofModeName {mode : Text} {maxEntries : ℤ} {slot : Slot}
    (h : ofModeName mode maxEntries = .ok slot) : slot.table = none := by
  rw [ofModeName] at h
  split at h
  · rw [← Except.ok.inj h, ofMode_table]
  · contradiction

/-- What the two tests make of a tree: the second is run if the first does not hold. -/
def judge (path : Text) (byName : Text → Except Failure Bool) (byComment : Attempt σ Bool)
    (inner : σ) : Except Failure Bool × σ :=
  match byName path with
  | .error failure => (.error failure, inner)
  | .ok true => (.ok true, inner)
  | .ok false => byComment.outcome inner

/-- The slot with an answer for a tree in its table, if it has room for any. -/
def keeping (alive : Handle → Bool) (slot : Slot) (tree : Handle) (answer : Bool) : Slot :=
  if 0 < slot.maxEntries then
    { slot with
      table := some ((slot.table.getD []).next alive tree answer slot.maxEntries.toNat) }
  else slot

/-- Working an answer out leaves the slot and the log alone. -/
lemma outcome_workOut (inquiry : Inquiry Slot σ) :
    (workOut path byName byComment).outcome inquiry =
      ((judge path byName byComment inquiry.inner).1,
        { inquiry with inner := (judge path byName byComment inquiry.inner).2 }) := by
  rw [workOut, Attempt.outcome_bind, Attempt.outcome_ofExcept, judge]
  rcases byName path with failure | _ | _
  · rfl
  · rfl
  · rfl

lemma outcome_install {table : Table} {answer : Bool} (inquiry : Inquiry Slot σ)
    (htable : inquiry.store.table.getD [] = table) :
    (install alive table tree answer).outcome inquiry =
      (.ok (), { inquiry with store := inquiry.store.keeping alive tree answer }) := by
  subst htable
  rw [install, Attempt.outcome_bind, Attempt.outcome_get]
  simp only [keeping]
  split
  · next hroom =>
      obtain ⟨max, hmax⟩ := Int.eq_ofNat_of_zero_le hroom.le
      rw [Attempt.outcome_bind, hmax, Table.withEntry_eq, Attempt.outcome_ofExcept]
      rfl
  · rfl

/-- **A miss**: the answer is worked out and kept, unless working it out fails. -/
lemma outcome_isGenerated_of_miss {inquiry : Inquiry Slot σ}
    (h : inquiry.store.lookup? tree = none) :
    (isGenerated alive tree path byName byComment).outcome inquiry =
      match judge path byName byComment inquiry.inner with
      | (.error failure, inner) => (.error failure, { inquiry with inner := inner })
      | (.ok answer, inner) =>
          (.ok answer,
            { store := inquiry.store.keeping alive tree answer
              events := .miss path answer (inquiry.store.table.getD []).length :: inquiry.events
              inner := inner }) := by
  have hlookup : (inquiry.store.table.getD []).lookup? tree = none := by
    cases htable : inquiry.store.table with
    | none => rfl
    | some table =>
        rw [lookup?, htable] at h
        exact h
  have hwork := @outcome_workOut σ path byName byComment inquiry
  simp only [isGenerated, Attempt.outcome_bind, Attempt.outcome_get, hlookup]
  rw [hwork]
  rcases judge path byName byComment inquiry.inner with ⟨failure | answer, inner⟩
  · rfl
  · simp only [Inquiry.tell, Attempt.outcome_modify]
    rw [outcome_install]
    · rfl
    · rfl

end Slot

end Cache

end GeneratedCode
