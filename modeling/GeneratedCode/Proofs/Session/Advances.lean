import Mathlib.Tactic
import GeneratedCode.Proofs.Memory.Tables
import GeneratedCode.Proofs.Session.World
import GeneratedCode.Proofs.Tree.Growth

/-!
What one turn of a run does to the trees and to what is kept about them.

`World.Advances` says it for all turns at once: a tree that has a name had it before and has grown
at most (`Tree.Grows`), or is the one tree that was made; an entry of a table was kept before, or
says what is settled about a tree (`Tree.settled?`). It makes no difference whether files change in
between, so unlike the truth about a tree (`World.Sound`) this holds for sessions that write files.

`advances_step` and `advances_addTreeAt` are the cases of a run. They need that all caches have the
usual tests (`HasUsualTests`).
-/

namespace GeneratedCode

open Cache

namespace Session

/-- Commands that make no answer up, of caches with the usual tests. Files may change. -/
def Command.IsPlain : Command → Prop
  | .newCache _ _ classifier => classifier = {}
  | .withEntry .. | .report .. => False
  | _ => True

namespace World

variable {world ready after : World}

/-! ### Turns -/

/-- What a turn does to the trees that have names, and to the entries that are kept. -/
structure Advances (world after : World) : Prop where
  serial_le : world.memory.nextSerial ≤ after.memory.nextSerial
  usual : after.HasUsualTests
  trees : ∃ made : Option String, ∀ name handle tree,
    after.trees.lookup name = some (handle, tree) →
      (∃ old, world.trees.lookup name = some (handle, old) ∧ old.Grows world.reader tree) ∨
      (made = some name ∧ handle.serial = world.memory.nextSerial ∧
        world.memory.nextSerial < after.memory.nextSerial ∧ tree.root = none ∧ tree.rootCalls = 0)
  entries : ∀ table ∈ after.memory.tables, ∀ entry ∈ table,
    (∃ old ∈ world.memory.tables, entry ∈ old) ∨
    ∃ name tree, after.trees.lookup name = some (entry.tree, tree) ∧
      (tree.source.IsRead → tree.settled? = some entry.generated)

/-- A turn that looks at no tree and keeps no more tables. -/
lemma Advances.of_same (htrees : after.trees = world.trees)
    (hserial : after.memory.nextSerial = world.memory.nextSerial)
    (htables : ∀ table ∈ after.memory.tables, table ∈ world.memory.tables)
    (husual : after.HasUsualTests) : Advances world after where
  serial_le := hserial.ge
  usual := husual
  trees := ⟨none, fun name handle tree htree =>
    .inl ⟨tree, by rwa [← htrees], Tree.Grows.refl _ _⟩⟩
  entries table htable entry hentry := .inl ⟨table, htables table htable, hentry⟩

lemma HasUsualTests.advances (h : world.HasUsualTests) : Advances world world :=
  .of_same rfl rfl (fun _ htable => htable) h

/-! ### Caches come and go -/

/-- Setting up a cache is no turn of its own: what comes behind it advances the world as it was
before. -/
lemma Advances.of_addCache {name : Option String} {slot : Slot} (hslot : slot.table = none)
    (h : Advances (world.addCache name slot {}) after) : Advances world after where
  serial_le := by cases name <;> exact h.serial_le
  usual := h.usual
  trees := by cases name <;> exact h.trees
  entries table htable entry hentry := by
    rcases h.entries table htable entry hentry with ⟨old, hold, hmem⟩ | hnew
    · exact .inl ⟨old, mem_tables_addCache hslot hold, hmem⟩
    · exact .inr hnew

lemma Advances.of_cache (name : Option String) (h : Advances (world.cache name).2.1 after) :
    Advances world after := by
  cases name with
  | some name => exact h
  | none =>
      have hslot : (Settings.setUp world.environment).1.slot.table = none := Slot.ofMode_table _ _
      rw [World.cache] at h
      cases hshared : world.shared <;> rw [hshared] at h
      · have hadded : Advances (world.addCache none _ {}) after := h
        exact hadded.of_addCache hslot
      · exact h

lemma advances_addCache (h : world.HasUsualTests) (name : Option String) {slot : Slot}
    (hslot : slot.table = none) : Advances world (world.addCache name slot {}) :=
  (h.addCache name slot).advances.of_addCache hslot

lemma advances_cache (h : world.HasUsualTests) (name : Option String) :
    Advances world (world.cache name).2.1 :=
  (h.cache name).2.advances.of_cache name

lemma advances_withCache (h : world.HasUsualTests) (name : Option String)
    {act : World → Project.CacheRef → Answer × World}
    (hact : ∀ ready cache, ready.HasUsualTests → cache.classifier = {} →
      Advances ready (act ready cache).2) : Advances world (world.withCache name act).2 := by
  obtain ⟨hcache, hready⟩ := h.cache name
  exact (hact _ _ hready hcache).of_cache name

lemma advances_updateSlot (h : world.HasUsualTests) (cache : Project.CacheRef) {f : Slot → Slot}
    (hf : ∀ slot table, (f slot).table = some table →
      slot.table = some table ∨ table ∈ world.memory.tables) :
    Advances world (world.updateSlot cache f) :=
  .of_same rfl rfl (fun _ => mem_tables_updateSlot hf) ⟨h.caches, h.shared⟩

lemma advances_makeCache (h : world.HasUsualTests) (name : String) (choice : SlotChoice) :
    Advances world (world.makeCache name choice {}).2 := by
  cases choice with
  | share other =>
      have hready := (h.cache other).2
      refine Advances.of_cache other ?_
      refine .of_same rfl rfl (fun _ => Memory.mem_tables_keepSlots)
        ⟨fun cache hcache => ?_, hready.shared⟩
      rcases mem_bind hcache with rfl | hold
      · rfl
      · exact hready.caches cache hold
  | mode mode maxEntries =>
      rw [makeCache]
      cases hslot : Slot.ofModeName mode maxEntries with
      | error failure => exact h.advances
      | ok slot => exact advances_addCache h (some name) (Slot.table_of_ofModeName hslot)
  | bound maxEntries drops => exact advances_addCache h (some name) rfl

/-! ### Trees come and go -/

lemma advances_dropTree (h : world.HasUsualTests) (name : String) :
    Advances world (world.dropTree name) where
  serial_le := (nextSerial_dropTree world name).ge
  usual := h.dropTree name
  trees := ⟨none, fun _ _ tree htree =>
    .inl ⟨tree, lookup_of_lookup_dropTree htree, Tree.Grows.refl _ _⟩⟩
  entries table htable _ hentry := .inl ⟨table, mem_tables_dropTree htable, hentry⟩

/-- A tree that is made has the next serial number, and keeps no root. -/
lemma advances_addTreeAt (h : world.HasUsualTests) (address : ℕ) (name : String) (path : Text)
    (source : Source) (pinned : Bool) :
    Advances world
      (world.addTreeAt address name { filePath := path, source := source } pinned) := by
  let created : World := { world with memory := (world.memory.createAt address pinned name).2 }
  have hserial : (created.dropTree name).memory.nextSerial = world.memory.nextSerial + 1 :=
    nextSerial_dropTree created name
  have hcreated : created.HasUsualTests := ⟨h.caches, h.shared⟩
  have husual := hcreated.dropTree name
  refine ⟨?_, ⟨husual.caches, husual.shared⟩, ⟨some name, fun other handle tree htree => ?_⟩,
    fun table htable entry hentry => .inl ⟨table, ?_, hentry⟩⟩
  · exact (Nat.le_succ _).trans hserial.ge
  · by_cases hother : other = name
    · subst hother
      rw [addTreeAt, lookup_bind_self] at htree
      obtain ⟨rfl, rfl⟩ := Prod.mk.inj (Option.some.inj htree)
      exact .inr ⟨rfl, rfl, (Nat.lt_succ_self _).trans_le hserial.ge, rfl, rfl⟩
    · rw [addTreeAt, lookup_bind_of_ne hother] at htree
      have hold : created.trees.lookup other = some (handle, tree) :=
        lookup_of_lookup_dropTree htree
      exact .inl ⟨tree, hold, Tree.Grows.refl _ _⟩
  · change table ∈ created.memory.tables
    exact mem_tables_dropTree htable

/-! ### Trees are looked at -/

/-- One tree grows, and the others stay. -/
lemma exists_of_lookup_bind {name : String} {handle : Handle} {tree grown : Tree}
    (htree : world.trees.lookup name = some (handle, tree))
    (hgrows : tree.Grows world.reader grown) {other : String} {found : Handle} {last : Tree}
    (hlast : (bind name (handle, grown) world.trees).lookup other = some (found, last)) :
    ∃ old, world.trees.lookup other = some (found, old) ∧ old.Grows world.reader last := by
  by_cases hother : other = name
  · subst hother
    rw [lookup_bind_self] at hlast
    obtain ⟨rfl, rfl⟩ := Prod.mk.inj (Option.some.inj hlast)
    exact ⟨tree, htree, hgrows⟩
  · rw [lookup_bind_of_ne hother] at hlast
    exact ⟨last, hlast, Tree.Grows.refl _ _⟩

lemma advances_visit {α : Type} (h : world.HasUsualTests) (name : String) (limit : Limit)
    {x : Attempt (Visit Tree) α} (say : α → Said) (hx : Tree.Grown world.reader x) :
    Advances world (world.visit name limit x say).2 := by
  rw [World.visit]
  split
  · exact h.advances
  · next handle tree htree =>
      exact
        { serial_le := le_rfl
          usual := ⟨h.caches, h.shared⟩
          trees := ⟨none, fun _ _ _ hlast =>
            .inl (exists_of_lookup_bind htree (hx ⟨tree, world.call limit⟩) hlast)⟩
          entries := fun table htable entry hentry => .inl ⟨table, htable, hentry⟩ }

/-- Asking a cache about a tree lets the tree grow, and keeps what is settled by then. -/
lemma advances_inquire (h : world.HasUsualTests) (name : String) {cache : Project.CacheRef}
    (hcache : cache.classifier = {}) (limit : Limit) :
    Advances world (world.inquire name cache limit).2 := by
  rw [World.inquire]
  split
  · exact h.advances
  · next handle tree htree =>
      have hgrows := Tree.grows_judge world.reader tree.filePath ⟨tree, world.call limit⟩
      dsimp only
      cases hout : (Memory.isGenerated cache.slot handle tree.filePath cache.classifier.byName
        (cache.classifier.byComment world.reader)).outcome
          ⟨world.memory, [], ⟨tree, world.call limit⟩⟩ with
      | mk result last =>
        rw [hcache] at hout
        obtain ⟨hserial, hinner, -, hentries⟩ := Memory.origin_of_isGenerated hout
        have hlast : tree.Grows world.reader last.inner.tree := by
          rcases hinner with hsame | hleft
          · rw [hsame]
            exact Tree.Grows.refl _ _
          · rw [hleft]
            exact hgrows
        refine ⟨hserial.ge, ⟨h.caches, h.shared⟩, ⟨none, fun _ _ _ hfound =>
          .inl (exists_of_lookup_bind htree hlast hfound)⟩, fun table htable entry hentry => ?_⟩
        rcases hentries table htable entry hentry with hold | ⟨answer, rfl, hjudged⟩
        · exact .inl hold
        · refine .inr ⟨name, last.inner.tree, lookup_bind_self _ _ _, fun hread => ?_⟩
          rw [hlast.source_eq] at hread
          exact Tree.settled?_of_judge ⟨tree, world.call limit⟩ hread hjudged

lemma grown_sameRoot (disk : Reader) : Tree.Grown disk (World.sameRoot disk) := by
  refine (Tree.grown_getRoot disk).bind fun root => (Tree.grown_getRoot disk).bind fun again => ?_
  intro visit
  rw [Attempt.outcome_bind, Attempt.outcome_get]
  dsimp only
  split <;> exact Tree.Grows.refl _ _

/-! ### All commands -/

/-- **A turn** of a plain command. -/
lemma advances_step (h : world.HasUsualTests) {command : Command} (hplain : command.IsPlain) :
    Advances world (step world command).2 := by
  cases command with
  | tree name path source pinned => exact advances_addTreeAt h _ name path source pinned
  | hostTree name path tree fires pinned => exact advances_addTreeAt h _ name path _ pinned
  | drop name => exact advances_dropTree h name
  | root tree limit => exact advances_visit h tree limit _ (Tree.grown_getRoot _)
  | sameRoot tree => exact advances_visit h tree _ _ (grown_sameRoot _)
  | marker tree limit => exact advances_visit h tree limit _ (Tree.grown_hasMarker _)
  | rootCalls tree => exact advances_visit h tree _ _ fun visit => Tree.Grows.refl _ _
  | newToken name => exact .of_same rfl rfl (fun _ htable => htable) ⟨h.caches, h.shared⟩
  | cancel token => exact .of_same rfl rfl (fun _ htable => htable) ⟨h.caches, h.shared⟩
  | check limit => exact h.advances
  | newCache name choice classifier =>
      obtain rfl : classifier = {} := hplain
      exact advances_makeCache h name choice
  | dropCache name =>
      exact .of_same rfl rfl (fun _ => Memory.mem_tables_keepSlots)
        ⟨fun cache hcache => h.caches cache (List.mem_of_mem_filter hcache), h.shared⟩
  | generated tree cache limit =>
      exact advances_withCache h cache fun ready cache hready hcache =>
        advances_inquire hready tree hcache limit
  | lookup tree cache =>
      refine advances_withCache h cache fun ready cache hready _ => ?_
      split <;> exact hready.advances
  | state cache => exact advances_withCache h cache fun ready cache hready _ => hready.advances
  | clear cache =>
      refine advances_withCache h cache fun ready cache hready _ =>
        advances_updateSlot hready cache ?_
      intro slot table hclear
      contradiction
  | snapshot cache name =>
      refine advances_withCache h cache fun ready cache hready _ => ?_
      refine .of_same rfl rfl (fun table htable => ?_) ⟨hready.caches, hready.shared⟩
      exact mem_tables_snapshot htable
  | restore cache name =>
      refine advances_withCache h cache fun ready cache hready _ => ?_
      refine advances_updateSlot hready cache (f := fun slot => { slot with table := _ }) ?_
      exact fun slot table haside => .inr (Memory.mem_tables_of_aside haside)
  | setMax cache maxEntries =>
      refine advances_withCache h cache fun ready cache hready _ => ?_
      refine advances_updateSlot hready cache (f := fun slot => { slot with maxEntries := _ }) ?_
      exact fun slot table hslot => .inl hslot
  | collect generation =>
      rw [Session.step]
      split
      · exact .of_same rfl rfl (fun _ => Memory.mem_tables_collect) ⟨h.caches, h.shared⟩
      · exact h.advances
  | hooks => exact h.advances
  | setEnvironment environment =>
      exact .of_same rfl rfl (fun _ htable => htable) ⟨h.caches, h.shared⟩
  | resetShared =>
      exact .of_same rfl rfl (fun _ => Memory.mem_tables_keepSlots)
        ⟨h.caches, fun cache hcache => by contradiction⟩
  | write path item => exact .of_same rfl rfl (fun _ htable => htable) ⟨h.caches, h.shared⟩
  | delete path => exact .of_same rfl rfl (fun _ htable => htable) ⟨h.caches, h.shared⟩
  | sourceFiles project extensions choice => exact h.advances
  | rules project nested paths => exact h.advances
  | withEntry base name tree generated maxEntries => exact hplain.elim
  | report project extensions cache limit => exact hplain.elim

/-- A turn of a run. -/
lemma advances_turn (h : world.HasUsualTests) (hturn : Turn Command.IsPlain world after) :
    Advances world after := by
  cases hturn with
  | step hplain => exact advances_step h hplain
  | make name path source pinned hfree => exact advances_addTreeAt h _ name path source pinned

end World

end Session

end GeneratedCode
