import Mathlib.Tactic
import GeneratedCode.Proofs.Memory.Turns
import GeneratedCode.Proofs.Text.Digit
import GeneratedCode.Session.World

/-!
How the shared cache is set up.

`AsksMode` and `AsksBound` say what the two variables of the environment ask for, and what the log
is told when one asks for nothing useful. Each speaks of one variable, and so do the two functions
that read them (`asksMode_readMode`, `asksBound_readMaxEntries`). `World.cache_is_as_asked` is the
main result: whatever the variables hold, a cache is set up, and its slot and the log show both
parts side by side.
-/

namespace GeneratedCode

open Text

namespace Cache

/-! ### What the variables ask for -/

/-- Which mode a variable asks for, and what the log is told: it has to be the name of one, in small
or capital letters, blanks around it aside. -/
inductive AsksMode : Option Text → Mode → List Event → Prop where
  | unset : AsksMode none .weak []
  | named {text : Text} {mode : Mode} (h : lower (trim text) = mode.name.toList) :
      AsksMode (some text) mode []
  | invalid {text : Text} (h : ∀ mode : Mode, lower (trim text) ≠ mode.name.toList) :
      AsksMode (some text) .weak [.invalidMode (lower (trim text))]

/-- Which bound a variable asks for, and what the log is told: it has to be a number from one on,
blanks around it aside. -/
inductive AsksBound : Option Text → ℕ → List Event → Prop where
  | unset : AsksBound none 2048 []
  | number {text : Text} {n : ℕ} (h : SpellsInt (trim text) n) (hpos : 1 ≤ n) :
      AsksBound (some text) n []
  | invalid {text : Text} (h : ∀ n : ℕ, 1 ≤ n → ¬ SpellsInt (trim text) n) :
      AsksBound (some text) 2048 [.invalidMaxEntries text]

lemma Mode.ofName?_eq_some_iff {name : Text} {mode : Mode} :
    Mode.ofName? name = some mode ↔ name = mode.name.toList := by
  constructor
  · intro h
    exact (by simpa using List.find?_some h : mode.name.toList = name).symm
  · rintro rfl
    exact Mode.ofName?_name mode

/-- The mode is read from its variable. -/
lemma asksMode_readMode (text? : Option Text) :
    AsksMode text? (Settings.readMode text?).1 (Settings.readMode text?).2 := by
  cases text? with
  | none => exact .unset
  | some text =>
      rw [Settings.readMode]
      cases hmode : Mode.ofName? (lower (trim text)) with
      | some mode => simpa [hmode] using AsksMode.named (Mode.ofName?_eq_some_iff.1 hmode)
      | none =>
          refine .invalid fun mode heq => ?_
          rw [heq, Mode.ofName?_name] at hmode
          contradiction

/-- The bound is read from its variable. -/
lemma asksBound_readMaxEntries (text? : Option Text) :
    AsksBound text? (Settings.readMaxEntries text?).1 (Settings.readMaxEntries text?).2 := by
  cases text? with
  | none => exact .unset
  | some text =>
      rw [Settings.readMaxEntries]
      split
      · next n hn => exact .number (int?_eq_some_iff.1 hn) (by omega)
      · next hnot =>
          refine .invalid fun n hpos hn => ?_
          obtain ⟨m, rfl⟩ := Nat.exists_eq_add_of_le' hpos
          exact hnot m (int?_eq_some_iff.2 hn)

lemma AsksBound.pos {text? : Option Text} {bound : ℕ} {events : List Event}
    (h : AsksBound text? bound events) : 1 ≤ bound := by
  cases h with
  | unset => decide
  | number _ hpos => exact hpos
  | invalid => decide

end Cache

/-! ### The slot of the shared cache -/

namespace Cache.Slot

/-- The slot of a mode has room as asked, or none at all, and no table yet. -/
lemma ofMode_spec (mode : Mode) (bound : ℤ) :
    (ofMode mode bound).maxEntries = (if mode = .off then 0 else bound) ∧
      ((ofMode mode bound).dropsOnCollection = true ↔ mode = .weak) ∧
      (ofMode mode bound).table = none := by
  cases mode <;> simp [ofMode]

end Cache.Slot

namespace Session

open Cache

namespace World

/-- The shared cache has the slot that it is set up with. -/
lemma slot_addCache_none (world : World) (slot : Slot) (classifier : Classifier) :
    (world.addCache none slot classifier).memory.slot world.memory.nextSlot = slot := by
  let used := world.caches.map (·.2.slot) ++ [world.memory.nextSlot]
  have hkept : (world.addCache none slot classifier).memory.slot world.memory.nextSlot =
      (if used.contains world.memory.nextSlot then
        (world.memory.addSlot slot).2.slots.lookup world.memory.nextSlot else none).getD {} := by
    rw [← Memory.lookup_filter_keys used.contains]
    rfl
  rw [hkept, if_pos (by simp [used])]
  simp [Memory.addSlot]

/-- **Setting up the shared cache** never fails. Its mode is the one that the first variable asks
for and its bound the one that the second asks for, each with a warning if it asks for nothing
useful. The log is told both, and then what comes of them. The slot has room for as many entries as
the bound says, which is at least one, unless the mode is `off`, in which it has room for none; a
full collection empties it in mode `weak` only. -/
theorem cache_is_as_asked (world : World) :
    let mode := Settings.readMode world.environment.mode
    let bound := Settings.readMaxEntries world.environment.maxEntries
    let made := ({ world with shared := none } : World).cache none
    let slot := made.2.1.memory.slot made.1.slot
    AsksMode world.environment.mode mode.1 mode.2 ∧
      AsksBound world.environment.maxEntries bound.1 bound.2 ∧ 1 ≤ bound.1 ∧
      made.2.2 = mode.2 ++ bound.2 ++ [.configured mode.1 bound.1] ∧
      made.2.1.shared = some made.1 ∧
      slot.maxEntries = (if mode.1 = .off then 0 else (bound.1 : ℤ)) ∧
      (slot.dropsOnCollection = true ↔ mode.1 = .weak) ∧ slot.table = none := by
  intro mode bound made slot
  have hslot : slot = .ofMode mode.1 bound.1 := slot_addCache_none _ _ _
  have hbound := asksBound_readMaxEntries world.environment.maxEntries
  refine ⟨asksMode_readMode _, hbound, hbound.pos, rfl, rfl, ?_⟩
  rw [hslot]
  exact Slot.ofMode_spec mode.1 bound.1

end World

end Session

end GeneratedCode
