import Mathlib.Logic.Relation
import Mathlib.Tactic
import GeneratedCode.Session.Step

/-!
Runs of a session: commands, one after another, and new trees at any free address.

`Session.step` gives a new tree the lowest address that is free. Where a tree goes is not the
session's to say, so a turn of a run may as well put one at any address that no living tree has,
that of a dead tree included (`Turn.make`). `reaches_run` says that a list of commands is a run.
-/

namespace GeneratedCode

namespace Session

open Cache

lemma mem_bind {α : Type} {name : String} {value : α} {bindings : List (String × α)}
    {binding : String × α} (h : binding ∈ bind name value bindings) :
    binding = (name, value) ∨ binding ∈ bindings := by
  rcases List.mem_cons.1 h with rfl | hold
  · exact .inl rfl
  · exact .inr (List.mem_of_mem_filter hold)

namespace World

/-- Makes a tree at an address; the one that had the name before lives until then. -/
def addTreeAt (world : World) (address : ℕ) (name : String) (tree : Tree) (pinned : Bool) : World :=
  let (handle, memory) := world.memory.createAt address pinned name
  let world := ({ world with memory := memory } : World).dropTree name
  { world with trees := bind name (handle, tree) world.trees }

/-- A command makes its tree at the lowest address that is free. -/
lemma addTree_eq (world : World) (name : String) (tree : Tree) (pinned : Bool) :
    world.addTree name tree pinned =
      world.addTreeAt world.memory.freeAddress name tree pinned := rfl

end World

/-- A turn of a run: a command of those that are allowed, or a tree at an address that no living
tree has. -/
inductive Turn (allowed : Command → Prop) (world : World) : World → Prop
  | step {command : Command} (h : allowed command) : Turn allowed world (step world command).2
  | make {address : ℕ} (name : String) (path : Text) (source : Source) (pinned : Bool)
      (hfree : ∀ tree ∈ world.memory.held ++ world.memory.pinned, tree.address ≠ address) :
      Turn allowed world
        (world.addTreeAt address name { filePath := path, source := source } pinned)

/-- Whether a run leads from one world to another. -/
def Reaches (allowed : Command → Prop) : World → World → Prop :=
  Relation.ReflTransGen (Turn allowed)

/-- Carrying out commands is a run. -/
lemma reaches_run {allowed : Command → Prop} (world : World) {commands : List Command}
    (h : ∀ command ∈ commands, allowed command) : Reaches allowed world (run world commands).2 := by
  induction commands generalizing world with
  | nil => exact .refl
  | cons command commands ih =>
      have hfirst : Turn allowed world (step world command).2 := .step (h command (by simp))
      exact .head hfirst (ih _ fun other hother => h other (by simp [hother]))

end Session

end GeneratedCode
