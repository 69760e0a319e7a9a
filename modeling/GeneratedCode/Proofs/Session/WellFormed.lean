import Mathlib.Tactic
import GeneratedCode.Proofs.Disk.Names
import GeneratedCode.Proofs.Session.Turns

/-!
What holds in every world that a session comes to, whatever it is asked.

The names on the disk are proper (`Disk.WellNamed`), and serial numbers come in order: every tree
that has a name, and every tree of which an answer is kept, has a lower one than the next tree is
going to have (`World.WellFormed`). Nothing is said about the answers, so files may change, tests
may be the host's, and tables may be made up.

Only two commands change the disk (`disk_step`), and tidy worlds have their numbers in order
(`tidy_of_reaches`); `wellFormed_of_reaches` puts this together.
-/

namespace GeneratedCode

open Cache

namespace Session

namespace World

/-- A world with proper names on its disk, whose next tree is new. -/
structure WellFormed (world : World) : Prop where
  disk : Disk.WellNamed world.disk
  trees : ∀ tree ∈ world.trees, tree.2.1.serial < world.memory.nextSerial
  memory : world.memory.Numbered

variable {world : World}

/-! ### Caches -/

namespace WellFormed

lemma addCache (h : world.WellFormed) (name : Option String) {slot : Slot}
    (hslot : slot.table = none) (classifier : Classifier) :
    (world.addCache name slot classifier).WellFormed where
  disk := by cases name <;> exact h.disk
  trees := by cases name <;> exact h.trees
  memory := h.memory.of_subset (by cases name <;> exact le_rfl) fun _ => mem_tables_addCache hslot

lemma cache (h : world.WellFormed) (name : Option String) : (world.cache name).2.1.WellFormed := by
  cases name with
  | some name => exact h
  | none =>
      rw [World.cache]
      cases world.shared with
      | some cache => exact h
      | none => exact h.addCache none (Slot.ofMode_table _ _) {}

end WellFormed

/-! ### The disk -/

/-- Setting up the shared cache leaves the disk alone. -/
lemma disk_cache (world : World) (cache : Option String) :
    (world.cache cache).2.1.disk = world.disk := by
  cases cache with
  | some name => rfl
  | none =>
      rw [World.cache]
      cases world.shared <;> rfl

lemma disk_withCache (world : World) (cache : Option String)
    {act : World → Project.CacheRef → Answer × World}
    (hact : ∀ world cache, (act world cache).2.disk = world.disk) :
    (world.withCache cache act).2.disk = world.disk :=
  (hact _ _).trans (disk_cache world cache)

lemma disk_dropTree (world : World) (name : String) : (world.dropTree name).disk = world.disk := by
  rw [dropTree]
  split <;> rfl

lemma disk_addTreeAt (world : World) (address : ℕ) (name : String) (tree : Tree) (pinned : Bool) :
    (world.addTreeAt address name tree pinned).disk = world.disk :=
  disk_dropTree { world with memory := (world.memory.createAt address pinned name).2 } name

lemma disk_visit {α : Type} (world : World) (name : String) (limit : Limit)
    (x : Attempt (Visit Tree) α) (say : α → Said) :
    (world.visit name limit x say).2.disk = world.disk := by
  rw [visit]
  split <;> rfl

lemma disk_inquire (world : World) (name : String) (cache : Project.CacheRef) (limit : Limit) :
    (world.inquire name cache limit).2.disk = world.disk := by
  rw [inquire]
  split <;> rfl

lemma disk_makeCache (world : World) (name : String) (choice : SlotChoice)
    (classifier : Classifier) : (world.makeCache name choice classifier).2.disk = world.disk := by
  cases choice with
  | share other => exact disk_cache world other
  | mode mode maxEntries =>
      rw [makeCache]
      cases Slot.ofModeName mode maxEntries <;> rfl
  | bound maxEntries drops => rfl

lemma disk_nextTable (world : World) (base : Option String) (name tree : String) (generated : Bool)
    (maxEntries : ℤ) :
    (world.nextTable base name tree generated maxEntries).2.disk = world.disk := by
  rw [nextTable]
  cases world.trees.lookup tree with
  | none => rfl
  | some found =>
      dsimp only
      split <;> rfl

/-- A command writes to the disk or deletes from it, or leaves it alone. -/
lemma disk_step (world : World) (command : Command) : (step world command).2.disk =
    match command with
    | .write path item => world.disk.write path item
    | .delete path => world.disk.delete path
    | _ => world.disk := by
  cases command with
  | tree name path source pinned => exact disk_addTreeAt world _ name _ pinned
  | hostTree name path tree fires pinned => exact disk_addTreeAt world _ name _ pinned
  | drop name => exact disk_dropTree world name
  | root tree limit => exact disk_visit world tree limit _ _
  | sameRoot tree => exact disk_visit world tree _ _ _
  | marker tree limit => exact disk_visit world tree limit _ _
  | rootCalls tree => exact disk_visit world tree _ _ _
  | newCache name choice classifier => exact disk_makeCache world name choice classifier
  | generated tree cache limit =>
      exact disk_withCache world cache fun world cache => disk_inquire world tree cache limit
  | lookup tree cache =>
      refine disk_withCache world cache fun world cache => ?_
      split <;> rfl
  | state cache => exact disk_withCache world cache fun _ _ => rfl
  | clear cache => exact disk_withCache world cache fun _ _ => rfl
  | snapshot cache name => exact disk_withCache world cache fun _ _ => rfl
  | restore cache name => exact disk_withCache world cache fun _ _ => rfl
  | withEntry base name tree generated maxEntries =>
      exact disk_nextTable world base name tree generated maxEntries
  | setMax cache maxEntries => exact disk_withCache world cache fun _ _ => rfl
  | collect generation =>
      rw [Session.step]
      split <;> rfl
  | report project extensions cache limit => exact disk_withCache world cache fun _ _ => rfl
  | _ => rfl

/-- Whatever is done to a disk, its names stay proper. -/
lemma wellNamed_step (h : Disk.WellNamed world.disk) (command : Command) :
    Disk.WellNamed (step world command).2.disk := by
  rw [disk_step]
  cases command with
  | write path item => exact Disk.wellNamed_write h path item
  | delete path => exact Disk.wellNamed_delete h path
  | _ => exact h

end World

/-! ### Runs -/

/-- Whatever a session is asked, its worlds are well formed if the names on the disk that it starts
with are proper. -/
theorem wellFormed_of_reaches {allowed : Command → Prop} {disk : Disk} {environment : Environment}
    {world : World} (hdisk : Disk.WellNamed disk)
    (h : Reaches allowed { disk := disk, environment := environment } world) :
    world.WellFormed := by
  have htidy : world.Tidy := World.tidy_of_reaches h
  refine
    { disk := ?_
      trees := fun tree htree => htidy.memory.serial_lt _ (htidy.knows htree)
      memory := htidy.memory.numbered }
  clear htidy
  induction h with
  | refl => exact hdisk
  | tail _ hturn ih =>
      cases hturn with
      | step _ => exact World.wellNamed_step ih _
      | make name path source pinned _ =>
          rw [World.disk_addTreeAt]
          exact ih

end Session

end GeneratedCode
