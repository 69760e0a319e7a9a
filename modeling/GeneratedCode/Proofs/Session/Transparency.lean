import Mathlib.Tactic
import GeneratedCode.Proofs.Session.World
import GeneratedCode.Proofs.Tree.Verdict

/-!
Caches are transparent: what a cache answers is what the tests say of the tree.

The invariant of a run is `World.Sound`: the verdict of every tree that has a name
(`Tree.verdict`) is the truth about its serial number, and the memory tells the truth
(`Memory.Tells`). The truth is fixed when a tree is made, so neither the death of a tree nor a
table that was put aside and comes back can make an entry wrong.

* `Sound.step`, `Sound.addTreeAt`: a turn of a run keeps worlds sound.
* `answers_are_uncached`: whatever came before, an answer is the one that the tests give without a
  cache, and what is kept for a tree is nothing or that answer.
-/

namespace GeneratedCode

open Cache

namespace Session

/-! ### Sound worlds -/

/-- Commands that change no file and make no answer up, of caches with the usual tests. A report is
not one of them: what it does to a cache is made of such commands. -/
def Command.IsHonest : Command → Prop
  | .newCache _ _ classifier => classifier = {}
  | .withEntry .. | .write .. | .delete .. | .report .. => False
  | _ => True

namespace World

/-- A world in which nothing that is kept is wrong; `truth` gives the verdict on each tree by its
serial number. -/
structure Sound (disk : Reader) (truth : ℕ → Except Failure Bool) (world : World) : Prop where
  reader : world.reader = disk
  caches : ∀ cache ∈ world.caches, cache.2.classifier = {}
  shared : ∀ cache ∈ world.shared, cache.classifier = {}
  trees : ∀ tree ∈ world.trees, tree.2.1.serial < world.memory.nextSerial ∧
    tree.2.2.Faithful disk ∧ tree.2.2.verdict disk = truth tree.2.1.serial
  tells : world.memory.Tells truth

variable {disk : Reader} {truth : ℕ → Except Failure Bool} {world : World}

namespace Sound

/-- A sound world remains so with another memory, if that tells the truth of the same trees. -/
lemma withMemory (h : world.Sound disk truth) {memory : Memory}
    (hserial : memory.nextSerial = world.memory.nextSerial) (htells : memory.Tells truth) :
    ({ world with memory := memory } : World).Sound disk truth where
  reader := h.reader
  caches := h.caches
  shared := h.shared
  trees tree htree := by
    rw [hserial]
    exact h.trees tree htree
  tells := htells

lemma withMemory_of_subset (h : world.Sound disk truth) {memory : Memory}
    (hserial : memory.nextSerial = world.memory.nextSerial)
    (htables : ∀ table ∈ memory.tables, table ∈ world.memory.tables) :
    ({ world with memory := memory } : World).Sound disk truth :=
  h.withMemory hserial (h.tells.of_subset hserial.ge htables)

lemma sweep (h : world.Sound disk truth) : world.sweep.Sound disk truth :=
  h.withMemory_of_subset rfl fun _ => Memory.mem_tables_keepSlots

lemma cancel (h : world.Sound disk truth) (tokens : List ℕ) :
    (world.cancel tokens).Sound disk truth :=
  { h with }

/-- A visit may change a tree, but not the verdict on it. -/
lemma bindTree (h : world.Sound disk truth) {name : String} {handle : Handle} {tree after : Tree}
    (htree : world.trees.lookup name = some (handle, tree)) (hfaithful : after.Faithful disk)
    (hverdict : after.verdict disk = tree.verdict disk) :
    ({ world with trees := bind name (handle, after) world.trees } : World).Sound disk truth where
  reader := h.reader
  caches := h.caches
  shared := h.shared
  trees other hother := by
    rcases mem_bind hother with rfl | hold
    · obtain ⟨hserial, -, htruth⟩ := h.trees _ (mem_of_lookup htree)
      exact ⟨hserial, hfaithful, hverdict.trans htruth⟩
    · exact h.trees other hold
  tells := h.tells

/-! ### Trees come and go -/

lemma dropTree (h : world.Sound disk truth) (name : String) :
    (world.dropTree name).Sound disk truth := by
  rw [World.dropTree]
  split
  · exact h
  · next handle _ _ =>
      have hrelease :
          ({ world with memory := world.memory.release handle } : World).Sound disk truth :=
        h.withMemory_of_subset rfl fun table htable => htable
      exact { hrelease with trees := fun tree htree => h.trees tree (List.mem_of_mem_filter htree) }

/-- A new tree has a serial number of its own, about which there was no truth before. -/
lemma addTreeAt (h : world.Sound disk truth) (address : ℕ) (name : String) (path : Text)
    (source : Source) (pinned : Bool) :
    ∃ truth, (world.addTreeAt address name { filePath := path, source := source } pinned).Sound disk
      truth := by
  let tree : Tree := { filePath := path, source := source }
  let created : World :=
    { world with memory := (world.memory.createAt address pinned name).2 }
  let extended (serial : ℕ) : Except Failure Bool :=
    if serial = world.memory.nextSerial then tree.verdict disk else truth serial
  have hextended {serial : ℕ} (hserial : serial < world.memory.nextSerial) :
      extended serial = truth serial := if_neg hserial.ne
  have hcreated : created.Sound disk extended :=
    { reader := h.reader
      caches := h.caches
      shared := h.shared
      trees := fun other hother => by
        obtain ⟨hserial, hfaithful, htruth⟩ := h.trees other hother
        exact ⟨hserial.trans (Nat.lt_succ_self _), hfaithful,
          htruth.trans (hextended hserial).symm⟩
      tells := fun table htable entry hentry => by
        obtain ⟨hserial, htruth⟩ := h.tells table htable entry hentry
        exact ⟨hserial.trans (Nat.lt_succ_self _), (hextended hserial).trans htruth⟩ }
  have hdropped := hcreated.dropTree name
  have hnext := nextSerial_addTreeAt world address name tree pinned
  refine ⟨extended, { hdropped with trees := fun other hother => ?_ }⟩
  rcases mem_bind hother with rfl | hold
  · refine ⟨?_, Tree.faithful_of_root_eq_none rfl, (if_pos rfl).symm⟩
    exact (Nat.lt_succ_self _).trans_eq hnext.symm
  · exact hdropped.trees other hold

/-! ### Caches come and go -/

lemma usual (h : world.Sound disk truth) : world.HasUsualTests :=
  ⟨h.caches, h.shared⟩

lemma addCache (h : world.Sound disk truth) (name : Option String) {slot : Slot}
    (hslot : slot.table = none) : (world.addCache name slot {}).Sound disk truth where
  reader := by cases name <;> exact h.reader
  caches := (h.usual.addCache name slot).caches
  shared := (h.usual.addCache name slot).shared
  trees := by cases name <;> exact h.trees
  tells := h.tells.of_subset (by cases name <;> exact le_rfl) fun _ => mem_tables_addCache hslot

/-- The cache that a command asks has the usual tests. -/
lemma cache (h : world.Sound disk truth) (name : Option String) :
    (world.cache name).1.classifier = {} ∧ (world.cache name).2.1.Sound disk truth := by
  refine ⟨(h.usual.cache name).1, ?_⟩
  cases name with
  | some name => exact h
  | none =>
      rw [World.cache]
      cases hshared : world.shared with
      | some cache => exact h
      | none => exact h.addCache none (Slot.ofMode_table _ _)

lemma withCache (h : world.Sound disk truth) (name : Option String)
    {act : World → Project.CacheRef → Answer × World}
    (hact : ∀ world cache, world.Sound disk truth → cache.classifier = {} →
      (act world cache).2.Sound disk truth) :
    (world.withCache name act).2.Sound disk truth :=
  hact _ _ (h.cache name).2 (h.cache name).1

lemma updateSlot (h : world.Sound disk truth) (cache : Project.CacheRef) {f : Slot → Slot}
    (hf : ∀ slot table, (f slot).table = some table →
      slot.table = some table ∨ table ∈ world.memory.tables) :
    (world.updateSlot cache f).Sound disk truth :=
  h.withMemory_of_subset rfl fun _ => mem_tables_updateSlot hf

/-! ### Trees are looked at -/

/-- A visit that keeps the tree faithful and its verdict as it is. -/
lemma visit {α : Type} (h : world.Sound disk truth) (name : String) (limit : Limit)
    {x : Attempt (Visit Tree) α} (say : α → Said)
    (hx : ∀ visit, visit.tree.Faithful disk → (x.outcome visit).2.tree.Faithful disk ∧
      (x.outcome visit).2.tree.verdict disk = visit.tree.verdict disk) :
    (world.visit name limit x say).2.Sound disk truth := by
  rw [World.visit]
  split
  · exact h
  · next handle tree htree =>
      have htreeFaithful : tree.Faithful disk := (h.trees _ (mem_of_lookup htree)).2.1
      obtain ⟨hfaithful, hverdict⟩ := hx ⟨tree, world.call limit⟩ htreeFaithful
      exact (h.bindTree htree hfaithful hverdict).cancel _

/-- **Asking a cache** about a tree: what it answers is the truth. -/
lemma inquire (h : world.Sound disk truth) (name : String) {cache : Project.CacheRef}
    (hcache : cache.classifier = {}) (limit : Limit) {handle : Handle} {tree : Tree}
    (htree : world.trees.lookup name = some (handle, tree)) :
    (∀ b, (world.inquire name cache limit).1.said = .truth (some b) →
      truth handle.serial = .ok b) ∧
      (world.inquire name cache limit).2.Sound disk truth := by
  obtain ⟨hserial, hfaithful, htruth⟩ := h.trees _ (mem_of_lookup htree)
  obtain ⟨hjudged, hverdict, hafter⟩ := @Tree.judge_usual disk ⟨tree, world.call limit⟩ hfaithful
  cases hout : (Memory.isGenerated cache.slot handle tree.filePath (Classifier.byName {})
      (Classifier.byComment {} disk)).outcome ⟨world.memory, [], ⟨tree, world.call limit⟩⟩ with
  | mk result after =>
    obtain ⟨hanswer, htells, hnext, hinner⟩ := h.tells.isGenerated hserial (fun answer hok => by
      rcases hjudged with hsame | hcancelled
      · rw [← htruth, ← hsame, hok]
      · rw [hcancelled] at hok
        contradiction) hout
    have htree' : after.inner.tree.Faithful disk ∧
        after.inner.tree.verdict disk = tree.verdict disk := by
      rcases hinner with hsame | hleft
      · rw [hsame]
        exact ⟨hfaithful, rfl⟩
      · rw [hleft]
        exact ⟨hafter, hverdict⟩
    rw [World.inquire, htree]
    simp only [hcache, h.reader, hout]
    refine ⟨?_, Sound.cancel ((h.bindTree htree htree'.1 htree'.2).withMemory hnext htells) _⟩
    intro b hsaid
    cases result with
    | error failure => contradiction
    | ok answer =>
        obtain rfl : answer = b := by simpa [Answer.ofOutcome] using hsaid
        exact hanswer answer rfl

lemma sameRoot (h : world.Sound disk truth) (name : String) (say : Bool → Said) :
    (world.visit name .unlimited (World.sameRoot disk) say).2.Sound disk truth := by
  refine h.visit name .unlimited say fun visit hvisit => ?_
  obtain ⟨hfirst, hverdict⟩ := Tree.keeps_of_yields (Tree.yields_getRoot hvisit)
  rw [World.sameRoot, Attempt.outcome_bind]
  cases hroot : (Tree.getRoot disk).outcome visit with
  | mk root after =>
    rw [hroot] at hfirst hverdict
    cases root with
    | error failure => exact ⟨hfirst, hverdict⟩
    | ok root =>
        obtain ⟨hsecond, hagain⟩ := Tree.keeps_of_yields (Tree.yields_getRoot hfirst)
        simp only [Attempt.outcome_bind]
        cases hroot' : (Tree.getRoot disk).outcome after with
        | mk again last =>
          rw [hroot'] at hsecond hagain
          cases again with
          | error failure => exact ⟨hsecond, hagain.trans hverdict⟩
          | ok again =>
              simp only [Attempt.outcome_get]
              split <;> exact ⟨hsecond, hagain.trans hverdict⟩

lemma newCache (h : world.Sound disk truth) (name : String) (choice : SlotChoice) :
    (world.makeCache name choice {}).2.Sound disk truth := by
  cases choice with
  | share other =>
      obtain ⟨-, hworld⟩ := h.cache other
      refine Sound.sweep { hworld with caches := fun cache hcache => ?_ }
      rcases mem_bind hcache with rfl | hold
      · rfl
      · exact hworld.caches cache hold
  | mode mode maxEntries =>
      rw [makeCache]
      cases hslot : Slot.ofModeName mode maxEntries with
      | error failure => exact h
      | ok slot => exact h.addCache (some name) (Slot.table_of_ofModeName hslot)
  | bound maxEntries drops => exact h.addCache (some name) rfl

lemma snapshot (h : world.Sound disk truth) (number : ℕ) (name : String) :
    ({ world with memory :=
        { world.memory with
          aside := bind name (world.memory.slot number).table world.memory.aside } } : World).Sound
      disk truth :=
  h.withMemory_of_subset rfl fun _ => mem_tables_snapshot

/-- A command keeps worlds sound. -/
lemma step (h : world.Sound disk truth) {command : Command} (hhonest : command.IsHonest) :
    ∃ truth, (step world command).2.Sound disk truth := by
  cases command with
  | tree name path source pinned => exact h.addTreeAt _ name path source pinned
  | hostTree name path tree fires pinned => exact h.addTreeAt _ name path _ pinned
  | drop name => exact ⟨truth, h.dropTree name⟩
  | root tree limit =>
      obtain rfl := h.reader
      exact ⟨truth, h.visit tree limit _ fun visit hvisit =>
        Tree.keeps_of_yields (Tree.yields_getRoot hvisit)⟩
  | sameRoot tree =>
      obtain rfl := h.reader
      exact ⟨truth, h.sameRoot tree _⟩
  | marker tree limit =>
      obtain rfl := h.reader
      exact ⟨truth, h.visit tree limit _ fun visit hvisit =>
        Tree.keeps_of_yields (Tree.yields_hasMarker hvisit)⟩
  | rootCalls tree => exact ⟨truth, h.visit tree _ _ fun visit hvisit => ⟨hvisit, rfl⟩⟩
  | newToken name => exact ⟨truth, { h with }⟩
  | cancel token => exact ⟨truth, h.cancel _⟩
  | check limit => exact ⟨truth, h⟩
  | newCache name choice classifier =>
      obtain rfl : classifier = {} := hhonest
      exact ⟨truth, h.newCache name choice⟩
  | dropCache name =>
      exact ⟨truth, Sound.sweep
        { h with caches := fun cache hcache => h.caches cache (List.mem_of_mem_filter hcache) }⟩
  | generated tree cache limit =>
      refine ⟨truth, h.withCache cache fun world cache hworld hcache => ?_⟩
      cases hlookup : world.trees.lookup tree with
      | none =>
          rw [World.inquire, hlookup]
          exact hworld
      | some found => exact (hworld.inquire tree hcache limit hlookup).2
  | lookup tree cache =>
      refine ⟨truth, h.withCache cache fun world cache hworld _ => ?_⟩
      split <;> exact hworld
  | state cache => exact ⟨truth, h.withCache cache fun world cache hworld _ => hworld⟩
  | clear cache =>
      refine ⟨truth, h.withCache cache fun world cache hworld _ => ?_⟩
      refine hworld.updateSlot cache ?_
      intro slot table hclear
      contradiction
  | snapshot cache name =>
      exact ⟨truth, h.withCache cache fun world cache hworld _ => hworld.snapshot cache.slot name⟩
  | restore cache name =>
      refine ⟨truth, h.withCache cache fun world cache hworld _ => ?_⟩
      refine hworld.updateSlot cache (f := fun slot => { slot with table := _ }) ?_
      exact fun slot table haside => .inr (Memory.mem_tables_of_aside haside)
  | setMax cache maxEntries =>
      refine ⟨truth, h.withCache cache fun world cache hworld _ => ?_⟩
      refine hworld.updateSlot cache (f := fun slot => { slot with maxEntries := _ }) ?_
      exact fun slot table hslot => .inl hslot
  | collect generation =>
      refine ⟨truth, ?_⟩
      rw [Session.step]
      split
      · exact h.withMemory_of_subset rfl fun _ => Memory.mem_tables_collect
      · exact h
  | hooks => exact ⟨truth, h⟩
  | setEnvironment environment => exact ⟨truth, { h with }⟩
  | resetShared =>
      exact ⟨truth, Sound.sweep { h with shared := fun cache hcache => by contradiction }⟩
  | sourceFiles project extensions choice => exact ⟨truth, h⟩
  | rules project nested paths => exact ⟨truth, h⟩
  | withEntry base name tree generated maxEntries => exact hhonest.elim
  | write path item => exact hhonest.elim
  | delete path => exact hhonest.elim
  | report project extensions cache limit => exact hhonest.elim

end Sound

end World

/-! ### Runs -/

/-- A run of honest commands leads only to sound worlds. -/
lemma sound_of_reaches {disk : Disk} {environment : Environment} {world : World}
    (h : Reaches Command.IsHonest { disk := disk, environment := environment } world) :
    ∃ truth, world.Sound ({ disk := disk } : World).reader truth := by
  induction h with
  | refl =>
      -- nothing is kept, so the truth may be anything
      exact ⟨fun _ => .ok false,
        { reader := rfl
          caches := fun cache hcache => by contradiction
          shared := fun cache hcache => by contradiction
          trees := fun tree htree => by contradiction
          tells := fun table htable => by contradiction }⟩
  | tail _ hturn ih =>
      obtain ⟨truth, hsound⟩ := ih
      cases hturn with
      | step hhonest => exact hsound.step hhonest
      | make name path source pinned hfree => exact hsound.addTreeAt _ name path source pinned

/-- **Caches are transparent**: whatever trees and caches came and went before, an answer for a
tree is the one that the tests give without a cache, and what is kept for a tree is nothing or
that answer. -/
theorem answers_are_uncached {disk : Disk} {environment : Environment} {world : World}
    (hreach : Reaches Command.IsHonest { disk := disk, environment := environment } world)
    {name : String} {handle : Handle} {tree : Tree}
    (htree : world.trees.lookup name = some (handle, tree)) (cache : Option String)
    (limit : Limit) :
    (∀ b, (step world (.generated name cache limit)).1.said = .truth (some b) →
      tree.uncached world.reader = .ok b) ∧
    ((step world (.lookup name cache)).1.said = .truth none ∨
      ∃ b, (step world (.lookup name cache)).1.said = .truth (some b) ∧
        tree.uncached world.reader = .ok b) := by
  obtain ⟨truth, hsound⟩ := sound_of_reaches hreach
  obtain ⟨-, hfaithful, htruth⟩ := hsound.trees _ (mem_of_lookup htree)
  have huncached : tree.uncached world.reader = truth handle.serial := by
    rw [hsound.reader, Tree.uncached_eq_verdict hfaithful, htruth]
  obtain ⟨hclassifier, hworld⟩ := hsound.cache cache
  have hsame : (world.cache cache).2.1.trees.lookup name = some (handle, tree) := by
    rw [World.trees_cache, htree]
  let slot := (world.cache cache).2.1.memory.slot (world.cache cache).1.slot
  have hsaid : (step world (.lookup name cache)).1.said = .truth (slot.lookup? handle) := by
    rw [step, World.withCache]
    simp only [hsame]
    rfl
  rw [huncached, hsaid]
  refine ⟨fun b hanswer => ?_, ?_⟩
  · exact (hworld.inquire name hclassifier limit hsame).1 b hanswer
  · cases hlookup : slot.lookup? handle with
    | none => exact .inl rfl
    | some b => exact .inr ⟨b, rfl, hworld.tells.lookup? hlookup⟩

/-- A tree that is made where one died of which the cache has an answer. -/
theorem answers_are_uncached_at_old_address :
    let world := (run {}
      [.tree "old" "a.g.cs".toList (.text []) false, .generated "old" none .unlimited, .drop "old",
        .tree "new" "a.cs".toList (.text []) false]).2
    (world.memory.slot 0).table = some [⟨1, ⟨0, 1, false, "old"⟩, true⟩] ∧
      ((∀ b, (step world (.generated "new" none .unlimited)).1.said = .truth (some b) →
        (⟨"a.cs".toList, .text [], none, 0⟩ : Tree).uncached world.reader = .ok b) ∧
      ((step world (.lookup "new" none)).1.said = .truth none ∨
        ∃ b, (step world (.lookup "new" none)).1.said = .truth (some b) ∧
          (⟨"a.cs".toList, .text [], none, 0⟩ : Tree).uncached world.reader = .ok b)) := by
  intro world
  have hreach : Reaches Command.IsHonest {} world := reaches_run {} (by simp [Command.IsHonest])
  have htree : world.trees.lookup "new" =
      some (⟨1, 1, false, "new"⟩, ⟨"a.cs".toList, .text [], none, 0⟩) := rfl
  exact ⟨rfl, answers_are_uncached hreach htree none .unlimited⟩

end Session

end GeneratedCode
