import GeneratedCode.Session.Command

/-!
Worlds: all that a session remembers from one command to the next.

Names are bound in lists: a name is bound to what it was last bound to (`lookup_bind_self`), and
binding one leaves the others alone (`lookup_bind_of_ne`).
-/

namespace GeneratedCode

namespace Session

open Cache Project

/-- Binds a name to a value, in the place of what it was bound to. -/
def bind {α : Type} (name : String) (value : α) (bindings : List (String × α)) :
    List (String × α) :=
  (name, value) :: bindings.filter (·.1 != name)

/-- Frees a name. -/
def unbind {α : Type} (name : String) (bindings : List (String × α)) : List (String × α) :=
  bindings.filter (·.1 != name)

@[simp] theorem lookup_bind_self {α : Type} (name : String) (value : α)
    (bindings : List (String × α)) : (bind name value bindings).lookup name = some value := by
  simp [bind]

theorem lookup_unbind {α : Type} (name other : String) (bindings : List (String × α)) :
    (unbind name bindings).lookup other =
      if other = name then none else bindings.lookup other := by
  induction bindings with
  | nil => simp [unbind]
  | cons binding bindings ih =>
      obtain ⟨key, value⟩ := binding
      rw [unbind] at ih ⊢
      by_cases hkey : key = name
      · rw [List.filter_cons_of_neg (by simp [hkey]), ih, List.lookup_cons, hkey]
        by_cases hother : other = name
        · rw [if_pos hother, if_pos hother]
        · rw [if_neg hother, if_neg hother, beq_false_of_ne hother]
      · rw [List.filter_cons_of_pos (by simp [hkey]), List.lookup_cons, ih, List.lookup_cons]
        by_cases hother : other = key
        · rw [hother, beq_self_eq_true]; exact (if_neg hkey).symm
        · rw [beq_false_of_ne hother]

theorem lookup_bind_of_ne {α : Type} {name other : String} (h : other ≠ name) (value : α)
    (bindings : List (String × α)) :
    (bind name value bindings).lookup other = bindings.lookup other := by
  have hunbind := lookup_unbind name other bindings
  rw [if_neg h, unbind] at hunbind
  rw [bind, List.lookup_cons, beq_false_of_ne h, hunbind]

/-- What a session remembers. -/
structure World where
  disk : Disk := {}
  memory : Memory := {}
  /-- The trees by their names. -/
  trees : List (String × Handle × Tree) := []
  /-- The number of the next token. -/
  nextToken : Nat := 0
  /-- The numbers of the tokens by their names. -/
  tokens : List (String × Nat) := []
  /-- The tokens that are cancelled. -/
  cancelled : List Nat := []
  /-- The caches by their names. -/
  caches : List (String × CacheRef) := []
  /-- The cache that the whole process shares, once it is set up. -/
  shared : Option CacheRef := none
  environment : Environment := {}

namespace World

/-- The world without the slots that no cache uses. -/
def sweep (world : World) : World :=
  let used := (world.caches.map (·.2.slot)) ++ (world.shared.map (·.slot)).toList
  { world with memory := world.memory.keepSlots used }

/-- Lets go of the tree of a name. -/
def dropTree (world : World) (name : String) : World :=
  match world.trees.lookup name with
  | none => world
  | some (tree, _) =>
      { world with memory := world.memory.release tree, trees := unbind name world.trees }

/-- Makes a tree; the one that had the name before lives until then. -/
def addTree (world : World) (name : String) (tree : Tree) (pinned : Bool) : World :=
  let (handle, memory) := world.memory.create pinned name
  let world := ({ world with memory := memory } : World).dropTree name
  { world with trees := bind name (handle, tree) world.trees }

/-- Adds a cache with a slot of its own, or the shared cache if there is no name. -/
def addCache (world : World) (name : Option String) (slot : Slot) (classifier : Classifier) :
    World :=
  let (number, memory) := world.memory.addSlot slot
  let cache : CacheRef := ⟨number, classifier⟩
  let world := { world with memory := memory }
  match name with
  | some name => ({ world with caches := bind name cache world.caches } : World).sweep
  | none => ({ world with shared := some cache } : World).sweep

/-- The cache of a name, or the shared one, which is set up if there is none; with it come the
world afterwards and what the log is told. -/
def cache (world : World) : Option String → CacheRef × World × List Event
  | some name => ((world.caches.lookup name).getD ⟨world.memory.nextSlot, {}⟩, world, [])
  | none =>
      match world.shared with
      | some cache => (cache, world, [])
      | none =>
          let (settings, events) := Settings.setUp world.environment
          (⟨world.memory.nextSlot, {}⟩, world.addCache none settings.slot {}, events)

/-- Makes a token. A token that had the name before keeps its number, and with it the trees that
fire it. -/
def addToken (world : World) (name : String) : World :=
  { world with
    nextToken := world.nextToken + 1
    tokens := bind name world.nextToken world.tokens }

/-- Whether the token of a limit is cancelled. -/
def isCancelled (world : World) : Limit → Bool
  | .token name => (world.tokens.lookup name).any world.cancelled.contains
  | _ => false

/-- The call that a limit allows. -/
def call (world : World) : Limit → Call
  | .unlimited => .unlimited
  | .checks allowed => .allowing allowed
  | .token name =>
      { token := world.tokens.lookup name
        allowed := if world.isCancelled (.token name) then some 0 else none }

/-- The world with some tokens cancelled. -/
def cancel (world : World) (tokens : List Nat) : World :=
  { world with cancelled := tokens ++ world.cancelled }

/-- The world with the tokens cancelled that a call has fired. -/
def afterCall (world : World) (call : Call) : World :=
  world.cancel call.fired

/-- A table as a host sees it. -/
def rows (world : World) (table : Table) : List Row :=
  table.map fun entry =>
    ⟨if world.memory.alive entry.tree then some entry.tree.label else none, entry.generated⟩

/-- The table of a cache as a host sees it. -/
def tableRows (world : World) (cache : CacheRef) : Option (List Row) :=
  (world.memory.slot cache.slot).table.map world.rows

/-- How many entries of a cache are for living trees. -/
def liveEntries (world : World) (cache : CacheRef) : Nat :=
  (world.memory.slot cache.slot).countAlive world.memory.alive

/-- Changes the slot of a cache. -/
def updateSlot (world : World) (cache : CacheRef) (f : Slot → Slot) : World :=
  { world with
    memory := world.memory.setSlot cache.slot (f (world.memory.slot cache.slot)) }

end World

end Session

end GeneratedCode
