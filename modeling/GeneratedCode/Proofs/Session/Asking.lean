import Mathlib.Tactic
import GeneratedCode.Proofs.Session.Turns

/-!
What it comes to that a cache is asked about a tree.

An answer that is kept is given, and nothing else happens (`inquire_of_lookup?`). Otherwise the
answer is worked out and the slot takes it on, or working it out fails and the slot stays as it is
(`exists_inquire_of_miss`); either way the tests are run.
-/

namespace GeneratedCode

open Cache

namespace Session

namespace World

variable {world : World} {name : String} {handle : Handle} {tree : Tree}
  {cache : Project.CacheRef} {limit : Limit}

/-- A call starts without checks. -/
lemma checks_call (world : World) (limit : Limit) : (world.call limit).checks = 0 := by
  cases limit <;> rfl

/-- **A hit**: the answer is given without a check, the log is told nothing, and the trees and the
slots stay as they are. -/
lemma inquire_of_lookup? (htree : world.trees.lookup name = some (handle, tree)) {answer : Bool}
    (hfound : (world.memory.slot cache.slot).lookup? handle = some answer) (limit : Limit) :
    let out := world.inquire name cache limit
    (out.1.said = .truth (some answer) ∧ out.1.failure = none ∧ out.1.checks = 0 ∧
      out.1.events = []) ∧
    (∀ other, out.2.trees.lookup other = world.trees.lookup other) ∧
      ∀ other, out.2.memory.slots.lookup other = world.memory.slots.lookup other := by
  have hout : (Memory.isGenerated cache.slot handle tree.filePath cache.classifier.byName
      (cache.classifier.byComment world.reader)).outcome
        ⟨world.memory, [], ⟨tree, world.call limit⟩⟩ =
      (.ok answer, ⟨world.memory.setSlot cache.slot (world.memory.slot cache.slot), [],
        ⟨tree, world.call limit⟩⟩) := by
    rw [Memory.outcome_isGenerated, Slot.outcome_isGenerated_of_lookup? hfound]
  rw [inquire, htree]
  simp only [hout]
  refine ⟨⟨rfl, rfl, checks_call world limit, rfl⟩, fun other => ?_,
    Memory.lookup_setSlot_slot world.memory cache.slot⟩
  change (bind name (handle, tree) world.trees).lookup other = _
  by_cases hother : other = name
  · rw [hother, lookup_bind_self, htree]
  · rw [lookup_bind_of_ne hother]

/-- **A miss**: the answer is worked out and the slot takes it on, or there is none. -/
lemma exists_inquire_of_miss (htree : world.trees.lookup name = some (handle, tree))
    (hmiss : (world.memory.slot cache.slot).lookup? handle = none) (limit : Limit) :
    let out := world.inquire name cache limit
    let slot := world.memory.slot cache.slot
    (∃ answer, out.1.said = .truth (some answer) ∧ out.1.events ≠ [] ∧
      out.2.memory =
        world.memory.setSlot cache.slot (slot.keeping world.memory.alive handle answer)) ∨
    (out.1.said = .nothing ∧ out.1.failure ≠ none ∧
      out.2.memory = world.memory.setSlot cache.slot slot) := by
  have hout := @Memory.outcome_isGenerated cache.slot _ handle tree.filePath
    cache.classifier.byName (cache.classifier.byComment world.reader)
    ⟨world.memory, [], ⟨tree, world.call limit⟩⟩
  rw [Slot.outcome_isGenerated_of_miss hmiss] at hout
  dsimp only at hout
  rw [inquire, htree]
  cases hjudged : Slot.judge tree.filePath cache.classifier.byName
    (cache.classifier.byComment world.reader) ⟨tree, world.call limit⟩ with
  | mk result inner =>
    rw [hjudged] at hout
    dsimp only
    rw [hout]
    cases result with
    | error failure => exact .inr ⟨rfl, Option.some_ne_none _, rfl⟩
    | ok answer => exact .inl ⟨answer, rfl, by simp, rfl⟩

end World

end Session

end GeneratedCode
