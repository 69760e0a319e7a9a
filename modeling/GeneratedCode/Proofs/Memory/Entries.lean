import Mathlib.Tactic
import GeneratedCode.Proofs.Memory.Turns

/-!
The entries that a slot keeps.

In a tidy memory an answer is found for the trees that have an entry, and for no others
(`Tidy.lookup?_eq_some_iff`). Of these entries the living ones count (`liveEntries`): those of trees
that are held, or that an entry keeps alive by itself (`Tidy.alive_entry_iff`).
-/

namespace GeneratedCode

open Cache

namespace Memory

variable {memory after : Memory} {number : ℕ} {slot : Slot} {tree : Handle} {entry : Entry}

/-- The entries that a slot keeps, if any. -/
def entries (memory : Memory) (number : ℕ) : Table :=
  (memory.slot number).table.getD []

lemma entries_eq (h : memory.slots.lookup number = some slot) :
    memory.entries number = slot.table.getD [] := by
  rw [entries, Memory.slot, h, Option.getD_some]

lemma entries_congr (h : after.slots.lookup number = memory.slots.lookup number) :
    after.entries number = memory.entries number := by
  rw [entries, Memory.slot, h, entries, Memory.slot]

lemma entries_mem_tables (h : entry ∈ memory.entries number) :
    memory.entries number ∈ memory.tables := by
  rw [entries] at h ⊢
  cases htable : (memory.slot number).table with
  | none => simp [htable] at h
  | some table => exact mem_tables_of_slot htable

/-- The tree of an entry is one that the memory has. -/
lemma knows_of_mem_entries (h : entry ∈ memory.entries number) : memory.Knows entry.tree :=
  .inr ⟨_, entries_mem_tables h, entry, h, rfl⟩

/-- The answer for a tree is that of its entry. -/
lemma Tidy.lookup?_eq_some_iff (h : memory.Tidy) (htree : memory.Knows tree) {answer : Bool} :
    (memory.slot number).lookup? tree = some answer ↔
      ∃ entry ∈ memory.entries number, entry.tree = tree ∧ entry.generated = answer := by
  have hsame {entry : Entry} (hentry : entry ∈ memory.entries number) :
      entry.key = tree.address ∧ entry.tree.serial = tree.serial ↔ entry.tree = tree := by
    refine ⟨fun hfound => h.eq_of_serial _ _ (knows_of_mem_entries hentry) htree hfound.2, ?_⟩
    rintro rfl
    exact ⟨h.key_eq _ (entries_mem_tables hentry) entry hentry, rfl⟩
  rw [Slot.lookup?]
  cases htable : (memory.slot number).table with
  | none => simp [entries, htable]
  | some table =>
      have hentries : memory.entries number = table := by rw [entries, htable, Option.getD_some]
      rw [Option.bind_some, Table.lookup?_eq_some_iff (h.nodup _ (mem_tables_of_slot htable)),
        ← hentries]
      refine exists_congr fun entry => and_congr_right fun hentry => ?_
      rw [← and_assoc, hsame hentry]

/-- An answer for a tree is found if and only if the tree has an entry. -/
lemma Tidy.lookup?_ne_none_iff (h : memory.Tidy) (htree : memory.Knows tree) :
    (memory.slot number).lookup? tree ≠ none ↔
      ∃ entry ∈ memory.entries number, entry.tree = tree := by
  simp only [Option.ne_none_iff_exists', h.lookup?_eq_some_iff htree]
  constructor
  · rintro ⟨_, entry, hentry, hsame, -⟩
    exact ⟨entry, hentry, hsame⟩
  · rintro ⟨entry, hentry, hsame⟩
    exact ⟨_, entry, hentry, hsame, rfl⟩

/-- Of a tree that is not found, no living tree's entry has the address. -/
lemma Tidy.key_ne_of_miss (h : memory.Tidy) (htree : tree ∈ memory.living)
    (hmiss : (memory.slot number).lookup? tree = none) (hentry : entry ∈ memory.entries number)
    (hliving : entry.tree ∈ memory.living) : entry.key ≠ tree.address := by
  intro hkey
  rw [h.key_eq _ (entries_mem_tables hentry) entry hentry] at hkey
  have hsame := h.eq_of_address _ hliving tree htree hkey
  exact (h.lookup?_ne_none_iff (.of_living htree)).2 ⟨entry, hentry, hsame⟩ hmiss

/-- What a slot with room for an entry keeps once it has taken on an answer. -/
lemma lookup_slots_keeping (hslot : memory.slots.lookup number = some slot) {m : ℕ} (hm : 1 ≤ m)
    (hroom : slot.maxEntries = m) (answer : Bool) :
    (memory.setSlot number
        ((memory.slot number).keeping memory.alive tree answer)).slots.lookup number =
      some { slot with
        table := some ((memory.entries number).next memory.alive tree answer m) } := by
  have hthere : memory.slot number = slot := by rw [Memory.slot, hslot, Option.getD_some]
  rw [lookup_setSlot, if_pos rfl, hslot, entries, hthere, Slot.keeping, if_pos (by omega), hroom]
  rfl

/-! ### Living entries -/

/-- The entries of a slot whose trees live. -/
def liveEntries (memory : Memory) (number : ℕ) : Table :=
  (memory.entries number).filter fun entry => memory.alive entry.tree

/-- A slot counts those. -/
lemma countAlive_slot (memory : Memory) (number : ℕ) :
    (memory.slot number).countAlive memory.alive = (memory.liveEntries number).length := by
  rw [Slot.countAlive, liveEntries, entries]
  cases (memory.slot number).table with
  | none => rfl
  | some table => exact List.countP_eq_length_filter

/-- An entry keeps its tree alive if the tree is pinned; any other tree has to be held. -/
lemma Tidy.alive_entry_iff (h : memory.Tidy) (hentry : entry ∈ memory.entries number) :
    memory.alive entry.tree = true ↔ entry.tree ∈ memory.held ∨ entry.tree.pinned = true := by
  rw [h.alive_iff_mem (knows_of_mem_entries hentry), mem_living_iff]
  exact or_congr_right (and_iff_left ⟨_, entries_mem_tables hentry, entry, hentry, rfl⟩)

/-- The answer for a living tree is that of its living entry. -/
lemma Tidy.lookup?_eq_some_iff_of_living (h : memory.Tidy) (htree : tree ∈ memory.living)
    {answer : Bool} : (memory.slot number).lookup? tree = some answer ↔
      ∃ entry ∈ memory.liveEntries number, entry.tree = tree ∧ entry.generated = answer := by
  rw [h.lookup?_eq_some_iff (.of_living htree)]
  refine exists_congr fun entry => ⟨?_, ?_⟩
  · rintro ⟨hentry, rfl, hanswer⟩
    exact ⟨List.mem_filter.2 ⟨hentry, (h.alive_iff_mem (.of_living htree)).2 htree⟩, rfl, hanswer⟩
  · rintro ⟨hentry, hsame, hanswer⟩
    exact ⟨List.mem_of_mem_filter hentry, hsame, hanswer⟩

/-- No tree has two of them. -/
lemma Tidy.nodup_liveEntries (h : memory.Tidy) (number : ℕ) :
    ((memory.liveEntries number).map (·.tree)).Nodup := by
  cases htable : (memory.slot number).table with
  | none => simp [liveEntries, entries, htable]
  | some table =>
      have hentries : memory.entries number = table := by rw [entries, htable, Option.getD_some]
      have hmem : table ∈ memory.tables := mem_tables_of_slot htable
      -- they stand at different addresses
      refine List.Nodup.of_map (·.address) ?_
      rw [liveEntries, hentries, List.map_map]
      have hkeys : table.map ((·.address) ∘ (·.tree)) = table.map (·.key) :=
        List.map_congr_left fun entry hentry => (h.key_eq table hmem entry hentry).symm
      have hall : (table.map ((·.address) ∘ (·.tree))).Nodup := hkeys ▸ h.nodup table hmem
      exact hall.sublist (List.filter_sublist.map _)

end Memory

end GeneratedCode
