import Mathlib.Tactic
import GeneratedCode.Proofs.Memory.Tables
import GeneratedCode.Proofs.Session.Run

/-!
What the changes of a world leave alone.

* A cache that is set up keeps no table yet, and a tree that is dropped takes none with it: the
  tables of a world are those it had before (`mem_tables_addCache`, `mem_tables_updateSlot`,
  `mem_tables_dropTree`).
* Only a new tree uses up a serial number (`nextSerial_addTreeAt`, `nextSerial_dropTree`).
* Caches that have the usual tests get no others (`HasUsualTests`).
-/

namespace GeneratedCode

open Cache

namespace Session

/-- What a name still means once another one is free. -/
lemma lookup_of_lookup_unbind {α : Type} {name other : String} {bindings : List (String × α)}
    {value : α} (h : (unbind name bindings).lookup other = some value) :
    bindings.lookup other = some value := by
  rw [lookup_unbind] at h
  split at h
  · contradiction
  · exact h

namespace World

variable {world : World} {table : Table}

/-! ### Caches -/

/-- A new slot without a table adds nothing to what is kept. -/
lemma mem_tables_addCache {name : Option String} {slot : Slot} {classifier : Classifier}
    (hslot : slot.table = none) (h : table ∈ (world.addCache name slot classifier).memory.tables) :
    table ∈ world.memory.tables := by
  have hadded : table ∈ (world.memory.addSlot slot).2.tables := by
    cases name <;> exact Memory.mem_tables_keepSlots h
  rcases Memory.mem_tables_addSlot hadded with hkept | hnew
  · exact hkept
  · rw [hslot] at hnew
    contradiction

/-- A slot that is changed keeps what it kept, or what is kept elsewhere. -/
lemma mem_tables_updateSlot {cache : Project.CacheRef} {f : Slot → Slot}
    (hf : ∀ slot table, (f slot).table = some table →
      slot.table = some table ∨ table ∈ world.memory.tables)
    (h : table ∈ (world.updateSlot cache f).memory.tables) : table ∈ world.memory.tables := by
  rcases Memory.mem_tables_setSlot h with hkept | hnew
  · exact hkept
  · rcases hf _ _ hnew with hslot | hkept
    · exact Memory.mem_tables_of_slot hslot
    · exact hkept

/-- Putting the table of a slot aside keeps no other table. -/
lemma mem_tables_snapshot {memory : Memory} {number : ℕ} {name : String}
    (h : table ∈ ({ memory with
      aside := bind name (memory.slot number).table memory.aside } : Memory).tables) :
    table ∈ memory.tables := by
  rcases Memory.mem_tables_iff.1 h with hslot | ⟨kept, hkept, heq⟩
  · exact Memory.mem_tables_iff.2 (.inl hslot)
  · rcases mem_bind hkept with rfl | hold
    · exact Memory.mem_tables_of_slot heq
    · exact Memory.mem_tables_iff.2 (.inr ⟨kept, hold, heq⟩)

/-- Setting up a cache makes no tree. -/
lemma trees_cache (world : World) (name : Option String) :
    (world.cache name).2.1.trees = world.trees := by
  cases name with
  | some name => rfl
  | none =>
      rw [World.cache]
      cases world.shared <;> rfl

/-! ### Trees -/

lemma lookup_of_lookup_dropTree {name other : String} {found : Handle × Tree}
    (h : (world.dropTree name).trees.lookup other = some found) :
    world.trees.lookup other = some found := by
  rw [dropTree] at h
  split at h
  · exact h
  · exact lookup_of_lookup_unbind h

lemma mem_tables_dropTree {name : String} (h : table ∈ (world.dropTree name).memory.tables) :
    table ∈ world.memory.tables := by
  rw [dropTree] at h
  split at h <;> exact h

lemma nextSerial_dropTree (world : World) (name : String) :
    (world.dropTree name).memory.nextSerial = world.memory.nextSerial := by
  rw [dropTree]
  split <;> rfl

lemma nextSerial_addTreeAt (world : World) (address : ℕ) (name : String) (tree : Tree)
    (pinned : Bool) :
    (world.addTreeAt address name tree pinned).memory.nextSerial = world.memory.nextSerial + 1 :=
  nextSerial_dropTree { world with memory := (world.memory.createAt address pinned name).2 } name

/-! ### The usual tests -/

/-- Whether all caches of a world have the usual tests. -/
structure HasUsualTests (world : World) : Prop where
  caches : ∀ cache ∈ world.caches, cache.2.classifier = {}
  shared : ∀ cache ∈ world.shared, cache.classifier = {}

namespace HasUsualTests

lemma addCache (h : world.HasUsualTests) (name : Option String) (slot : Slot) :
    (world.addCache name slot {}).HasUsualTests := by
  cases name with
  | none =>
      refine ⟨h.caches, fun cache hcache => ?_⟩
      rw [← Option.mem_some_iff.1 hcache]
  | some name =>
      refine ⟨fun cache hcache => ?_, h.shared⟩
      rcases mem_bind hcache with rfl | hold
      · rfl
      · exact h.caches cache hold

/-- The cache that a command asks has the usual tests. -/
lemma cache (h : world.HasUsualTests) (name : Option String) :
    (world.cache name).1.classifier = {} ∧ (world.cache name).2.1.HasUsualTests := by
  cases name with
  | some name =>
      refine ⟨?_, h⟩
      rw [World.cache]
      cases hlookup : world.caches.lookup name with
      | none => rfl
      | some cache => exact h.caches _ (mem_of_lookup hlookup)
  | none =>
      rw [World.cache]
      cases hshared : world.shared with
      | some cache => exact ⟨h.shared cache hshared, h⟩
      | none => exact ⟨rfl, h.addCache none _⟩

lemma dropTree (h : world.HasUsualTests) (name : String) :
    (world.dropTree name).HasUsualTests := by
  rw [World.dropTree]
  split
  · exact h
  · exact ⟨h.caches, h.shared⟩

end HasUsualTests

end World

end Session

end GeneratedCode
