import Mathlib.Tactic
import GeneratedCode.Proofs.Project.Turns
import GeneratedCode.Proofs.Session.Project
import GeneratedCode.Proofs.Session.World

/-!
Whatever a session is asked, its memory changes in turns.

`World.Leads` says of two worlds that turns of the memory lead from one to the other and that the
latter is tidy: its memory is, and every name holds a tree of its own. `Tidy.step` and
`Tidy.addTreeAt` are the cases of a run, and `leads_of_reaches` the induction. Where no command puts
a table or a bound into a slot (`Command.Installs`), the slot only takes on answers or loses them
(`leads_of_onlyAsks`).
-/

namespace GeneratedCode

open Cache

/-! ### Worlds -/

namespace Session

/-- Whether a command puts a table, or a bound, into the slot of that number. -/
def Command.Installs (world : World) (number : ℕ) : Command → Prop
  | .restore cache _ | .setMax cache _ => (world.cache cache).1.slot = number
  | _ => False

namespace World

variable {world ready after : World} {installs : ℕ → Prop}

/-- A world with a tidy memory, in which every name holds a tree of its own. -/
structure Tidy (world : World) : Prop where
  memory : world.memory.Tidy
  held : ∀ binding ∈ world.trees, binding.2.1 ∈ world.memory.held
  distinct : ∀ binding ∈ world.trees, ∀ other ∈ world.trees,
    binding.2.1.serial = other.2.1.serial → binding.1 = other.1

/-- Whether turns of the memory lead to a tidy world. -/
structure Leads (installs : ℕ → Prop) (world after : World) : Prop where
  run : Memory.Run installs world.memory after.memory
  tidy : after.Tidy

lemma Leads.refl (h : world.Tidy) : Leads installs world world :=
  ⟨.refl, h⟩

lemma Leads.trans (h : Leads installs world ready) (hlast : Leads installs ready after) :
    Leads installs world after :=
  ⟨h.run.trans hlast.run, hlast.tidy⟩

/-- Turns that let go of no tree with a name. Names may have come to other states of their trees. -/
lemma Leads.of_run (h : world.Tidy) (hrun : Memory.Run installs world.memory after.memory)
    (hheld : ∀ tree ∈ world.memory.held, tree ∈ after.memory.held)
    (htrees : ∀ binding ∈ after.trees, ∃ old ∈ world.trees,
      old.1 = binding.1 ∧ old.2.1 = binding.2.1) : Leads installs world after where
  run := hrun
  tidy :=
    { memory := h.memory.run hrun
      held := fun binding hbinding => by
        obtain ⟨old, hold, -, hhandle⟩ := htrees binding hbinding
        rw [← hhandle]
        exact hheld _ (h.held old hold)
      distinct := fun binding hbinding other hother hserial => by
        obtain ⟨old, hold, hname, hhandle⟩ := htrees binding hbinding
        obtain ⟨old', hold', hname', hhandle'⟩ := htrees other hother
        rw [← hname, ← hname']
        exact h.distinct old hold old' hold' (by rw [hhandle, hhandle', hserial]) }

/-- A turn that leaves the names as they are. -/
lemma Leads.of_turn (h : world.Tidy) (hturn : Memory.Turn installs world.memory after.memory)
    (hheld : after.memory.held = world.memory.held) (htrees : after.trees = world.trees) :
    Leads installs world after := by
  refine .of_run h (.single hturn) (fun tree htree => hheld ▸ htree) fun binding hbinding => ?_
  rw [htrees] at hbinding
  exact ⟨binding, hbinding, rfl, rfl⟩

/-- What is neither a tree nor kept about one does not matter. -/
lemma Leads.of_same (h : world.Tidy) (hmemory : after.memory = world.memory)
    (htrees : after.trees = world.trees) : Leads installs world after := by
  refine .of_run h (hmemory ▸ .refl) (fun tree htree => hmemory ▸ htree) fun binding hbinding => ?_
  rw [htrees] at hbinding
  exact ⟨binding, hbinding, rfl, rfl⟩

namespace Tidy

/-! ### Trees -/

/-- A tree with a name is one that the memory has. -/
lemma knows (h : world.Tidy) {binding : String × Handle × Tree} (hbinding : binding ∈ world.trees) :
    world.memory.Knows binding.2.1 :=
  .inl (h.held binding hbinding)

lemma dropTree (h : world.Tidy) (name : String) : Leads installs world (world.dropTree name) := by
  rw [World.dropTree]
  cases hlookup : world.trees.lookup name with
  | none => exact .refl h
  | some found =>
      obtain ⟨handle, tree⟩ := found
      have hhandle : (name, handle, tree) ∈ world.trees := mem_of_lookup hlookup
      have hturn : Memory.Turn installs world.memory (world.memory.release handle) :=
        .hold fun tree htree => List.mem_of_mem_filter htree
      refine ⟨.single hturn, ⟨h.memory.turn hturn, fun binding hbinding => ?_,
        fun binding hbinding other hother =>
          h.distinct binding (List.mem_of_mem_filter hbinding) other
            (List.mem_of_mem_filter hother)⟩⟩
      -- no other name holds the tree that is let go
      obtain ⟨hold, hother⟩ := List.mem_filter.1 hbinding
      refine List.mem_filter.2 ⟨h.held binding hold, bne_iff_ne.2 fun hserial => ?_⟩
      exact bne_iff_ne.1 hother (h.distinct binding hold _ hhandle hserial)

/-- A tree is made at any free address. -/
lemma addTreeAt (h : world.Tidy) {address : ℕ}
    (hfree : ∀ tree ∈ world.memory.living, tree.address ≠ address) (name : String) (tree : Tree)
    (pinned : Bool) : Leads installs world (world.addTreeAt address name tree pinned) := by
  let handle : Handle := (world.memory.createAt address pinned name).1
  let created : World := { world with memory := (world.memory.createAt address pinned name).2 }
  have hcreated : Leads installs world created :=
    .of_run h (.single (.make address pinned name hfree))
      (fun tree htree => List.mem_cons_of_mem _ htree) fun binding hbinding =>
        ⟨binding, hbinding, rfl, rfl⟩
  have hdropped : Leads installs created (created.dropTree name) := hcreated.tidy.dropTree name
  have hnew {binding : String × Handle × Tree}
      (hbinding : binding ∈ (created.dropTree name).trees) :
      binding.2.1.serial < world.memory.nextSerial := by
    have hold : binding ∈ world.trees := by
      rw [World.dropTree] at hbinding
      split at hbinding
      · exact hbinding
      · exact List.mem_of_mem_filter hbinding
    exact h.memory.serial_lt _ (h.knows hold)
  have hheld : handle ∈ (created.dropTree name).memory.held := by
    rw [World.dropTree]
    split
    · exact List.mem_cons_self
    · next old _ hlookup =>
        have hold : (name, old, _) ∈ world.trees := mem_of_lookup hlookup
        exact List.mem_filter.2 ⟨List.mem_cons_self,
          bne_iff_ne.2 (h.memory.serial_lt old (h.knows hold)).ne'⟩
  refine ⟨hcreated.run.trans hdropped.run, ⟨hdropped.tidy.memory, fun binding hbinding => ?_,
    fun binding hbinding other hother hserial => ?_⟩⟩
  · rcases mem_bind hbinding with rfl | hold
    · exact hheld
    · exact hdropped.tidy.held binding hold
  · rcases mem_bind hbinding with rfl | hold <;> rcases mem_bind hother with rfl | hold'
    · rfl
    · exact absurd hserial (hnew hold').ne'
    · exact absurd hserial (hnew hold).ne
    · exact hdropped.tidy.distinct binding hold other hold' hserial

/-- A visit leaves a tree under its name. -/
lemma bindTree (h : world.Tidy) {name : String} {handle : Handle} {tree : Tree} (grown : Tree)
    (htree : world.trees.lookup name = some (handle, tree))
    (hmemory : Memory.Run installs world.memory after.memory)
    (hheld : after.memory.held = world.memory.held)
    (htrees : after.trees = bind name (handle, grown) world.trees) :
    Leads installs world after := by
  refine .of_run h hmemory (fun tree htree => hheld ▸ htree) fun binding hbinding => ?_
  rw [htrees] at hbinding
  rcases mem_bind hbinding with rfl | hold
  · exact ⟨(name, handle, tree), mem_of_lookup htree, rfl, rfl⟩
  · exact ⟨binding, hold, rfl, rfl⟩

lemma visit {α : Type} (h : world.Tidy) (name : String) (limit : Limit)
    (x : Attempt (Visit Tree) α) (say : α → Said) :
    Leads installs world (world.visit name limit x say).2 := by
  rw [World.visit]
  cases hlookup : world.trees.lookup name with
  | none => exact .refl h
  | some found => exact h.bindTree _ hlookup .refl rfl rfl

/-- **Asking a cache** about a tree, whatever its tests are. -/
lemma inquire (h : world.Tidy) (name : String) (cache : Project.CacheRef) (limit : Limit) :
    Leads installs world (world.inquire name cache limit).2 := by
  rw [World.inquire]
  cases hlookup : world.trees.lookup name with
  | none => exact .refl h
  | some found =>
      obtain ⟨handle, tree⟩ := found
      obtain ⟨hturn, hheld⟩ := @Memory.Turn.isGenerated cache.slot handle installs _ tree.filePath
        cache.classifier.byName (cache.classifier.byComment world.reader)
        ⟨world.memory, [], ⟨tree, world.call limit⟩⟩ (h.held _ (mem_of_lookup hlookup))
      exact h.bindTree _ hlookup (.single hturn) hheld rfl

/-! ### Caches -/

lemma sweep (h : world.Tidy) : Leads installs world world.sweep :=
  .of_turn h (.keepSlots _) rfl rfl

lemma addCache (h : world.Tidy) (name : Option String) {slot : Slot} (hslot : slot.table = none)
    (classifier : Classifier) : Leads installs world (world.addCache name slot classifier) := by
  have hadded : Leads installs world { world with memory := (world.memory.addSlot slot).2 } :=
    .of_turn h (.addSlot hslot) rfl rfl
  cases name with
  | none => exact hadded.trans (.of_turn hadded.tidy (.keepSlots _) rfl rfl)
  | some name => exact hadded.trans (.of_turn hadded.tidy (.keepSlots _) rfl rfl)

lemma cache (h : world.Tidy) (name : Option String) :
    Leads installs world (world.cache name).2.1 := by
  cases name with
  | some name => exact .refl h
  | none =>
      rw [World.cache]
      cases world.shared with
      | some cache => exact .refl h
      | none => exact h.addCache none (Slot.ofMode_table _ _) {}

lemma tidy_cache (h : world.Tidy) (name : Option String) : (world.cache name).2.1.Tidy :=
  have hcache : Leads (fun _ => True) world (world.cache name).2.1 := h.cache name
  hcache.tidy

lemma withCache (h : world.Tidy) (name : Option String)
    {act : World → Project.CacheRef → Answer × World}
    (hact : (world.cache name).2.1.Tidy → Leads installs (world.cache name).2.1
      (act (world.cache name).2.1 (world.cache name).1).2) :
    Leads installs world (world.withCache name act).2 :=
  (h.cache name).trans (hact (h.tidy_cache name))

/-- The slot of a cache is changed. -/
lemma updateSlot (h : world.Tidy) (cache : Project.CacheRef) {f : Slot → Slot}
    (hslot : installs cache.slot ∨ Slot.Turn world.memory.alive (world.memory.slot cache.slot)
      (f (world.memory.slot cache.slot)))
    (htable : ∀ table, (f (world.memory.slot cache.slot)).table = some table →
      table ∈ world.memory.tables) : Leads installs world (world.updateSlot cache f) :=
  .of_turn h (.setSlot hslot fun table hkept => .inl (htable table hkept)) rfl rfl

lemma makeCache (h : world.Tidy) (name : String) (choice : SlotChoice) (classifier : Classifier) :
    Leads installs world (world.makeCache name choice classifier).2 := by
  cases choice with
  | share other =>
      have hready : Leads installs world (world.cache other).2.1 := h.cache other
      exact hready.trans (.of_turn hready.tidy (.keepSlots _) rfl rfl)
  | mode mode maxEntries =>
      rw [World.makeCache]
      cases hslot : Slot.ofModeName mode maxEntries with
      | error failure => exact .refl h
      | ok slot => exact h.addCache (some name) (Slot.table_of_ofModeName hslot) classifier
  | bound maxEntries drops => exact h.addCache (some name) rfl classifier

/-- A table that is kept, or the next one of it, is put aside. -/
lemma putAside (h : world.Tidy) (name : String) {table : Option Table}
    (htable : ∀ t, table = some t → t ∈ world.memory.tables ∨ world.memory.Derives t) :
    Leads installs world
      { world with
        memory := { world.memory with aside := bind name table world.memory.aside } } := by
  refine .of_turn h (.putAside fun binding hbinding t ht => ?_) rfl rfl
  rcases mem_bind hbinding with rfl | hold
  · exact htable t ht
  · exact .inl (Memory.mem_tables_iff.2 (.inr ⟨binding, hold, ht⟩))

lemma nextTable (h : world.Tidy) (base : Option String) (name tree : String) (generated : Bool)
    (maxEntries : ℤ) : Leads installs world
      (world.nextTable base name tree generated maxEntries).2 := by
  rw [World.nextTable]
  cases hlookup : world.trees.lookup tree with
  | none => exact .refl h
  | some found =>
      obtain ⟨handle, tree⟩ := found
      dsimp only
      split
      · exact .refl h
      · next next hnext =>
          refine h.putAside name fun table htable => .inr ?_
          obtain rfl := Option.some.inj htable
          obtain ⟨max, rfl⟩ := Table.exists_next_of_withEntry hnext
          refine ⟨_, handle, generated, max, ?_, h.held _ (mem_of_lookup hlookup), rfl⟩
          cases hbase : (base.bind fun name => world.memory.aside.lookup name).join with
          | none => exact .inl rfl
          | some table =>
              obtain ⟨name, -, haside⟩ :=
                Option.bind_eq_some_iff.1 (Option.join_eq_some_iff.1 hbase)
              exact .inr (Memory.mem_tables_iff.2 (.inr ⟨_, mem_of_lookup haside, rfl⟩))

/-- **A report** asks a cache about trees that it makes itself. -/
lemma report (h : world.Tidy) (project : Text) (extensions : List Text)
    (cache : Project.CacheRef) (limit : Limit) :
    Leads installs world (world.report project extensions cache limit).2 := by
  have hscanned : Memory.Run installs world.memory
        (world.reported project extensions cache limit).2.store ∧
      (world.reported project extensions cache limit).2.store.held = world.memory.held := by
    rw [reported]
    cases world.sources project extensions with
    | error failure => exact ⟨.refl, rfl⟩
    | ok files =>
        obtain ⟨hrun, hheld⟩ := @Project.Scan.run_scanFrom cache (placeOf project) none [] files
          ⟨world.memory, [], world.call limit⟩ installs _ world.memory.held h.memory le_rfl
          (fun tree htree => by contradiction)
          fun tree htree => ⟨h.memory.serial_lt tree (.inl htree), htree⟩
        dsimp only
        rw [Project.outcome_reportOn]
        exact ⟨hrun.tail (.hold hheld), rfl⟩
  rw [report_eq]
  refine .of_run h hscanned.1 (fun tree htree => ?_) fun binding hbinding =>
    ⟨binding, hbinding, rfl, rfl⟩
  change tree ∈ (world.reported project extensions cache limit).2.store.held
  rwa [hscanned.2]

/-! ### Turns -/

/-- **A command** comes to turns of the memory. -/
lemma step (h : world.Tidy) {command : Command}
    (hinstalls : ∀ number, command.Installs world number → installs number) :
    Leads installs world (step world command).2 := by
  cases command with
  | tree name path source pinned =>
      exact h.addTreeAt (fun tree htree => Memory.freeAddress_ne htree) name _ pinned
  | hostTree name path tree fires pinned =>
      exact h.addTreeAt (fun tree htree => Memory.freeAddress_ne htree) name _ pinned
  | drop name => exact h.dropTree name
  | root tree limit => exact h.visit tree limit _ _
  | sameRoot tree => exact h.visit tree _ _ _
  | marker tree limit => exact h.visit tree limit _ _
  | rootCalls tree => exact h.visit tree _ _ _
  | newToken name => exact .of_same h rfl rfl
  | cancel token => exact .of_same h rfl rfl
  | check limit => exact .refl h
  | newCache name choice classifier => exact h.makeCache name choice classifier
  | dropCache name => exact .of_turn h (.keepSlots _) rfl rfl
  | generated tree cache limit =>
      exact h.withCache cache fun hready => hready.inquire tree _ limit
  | lookup tree cache =>
      refine h.withCache cache fun hready => ?_
      split <;> exact .refl hready
  | state cache => exact h.withCache cache fun hready => .refl hready
  | clear cache =>
      exact h.withCache cache fun hready =>
        hready.updateSlot _ (.inr (.empty rfl)) fun table htable => by contradiction
  | snapshot cache name =>
      exact h.withCache cache fun hready =>
        hready.putAside name fun table htable => .inl (Memory.mem_tables_of_slot htable)
  | restore cache name =>
      exact h.withCache cache fun hready =>
        hready.updateSlot (f := fun slot => { slot with table := _ }) _
          (.inl (hinstalls _ rfl)) fun table htable => Memory.mem_tables_of_aside htable
  | withEntry base name tree generated maxEntries =>
      exact h.nextTable base name tree generated maxEntries
  | setMax cache maxEntries =>
      exact h.withCache cache fun hready =>
        hready.updateSlot (f := fun slot => { slot with maxEntries := _ }) _
          (.inl (hinstalls _ rfl)) fun table htable => Memory.mem_tables_of_slot htable
  | collect generation =>
      rw [Session.step]
      split
      · exact .of_turn h (.collect generation) rfl rfl
      · exact .refl h
  | hooks => exact .refl h
  | setEnvironment environment => exact .of_same h rfl rfl
  | resetShared => exact .of_turn h (.keepSlots _) rfl rfl
  | write path item => exact .of_same h rfl rfl
  | delete path => exact .of_same h rfl rfl
  | report project extensions cache limit =>
      exact h.withCache cache fun hready => hready.report project extensions _ limit
  | sourceFiles project extensions choice => exact .refl h
  | rules project nested paths => exact .refl h

/-- **A turn** of a session. -/
lemma turn {allowed : Command → Prop} (h : world.Tidy) (hturn : Turn allowed world after)
    (hinstalls : ∀ command, allowed command → ∀ number, command.Installs world number →
      installs number) : Leads installs world after := by
  cases hturn with
  | step hallowed => exact h.step (hinstalls _ hallowed)
  | make name path source pinned hfree => exact h.addTreeAt hfree name _ pinned

end Tidy

/-! ### Runs -/

/-- A new world is tidy. -/
lemma tidy_start (disk : Disk) (environment : Environment) :
    ({ disk := disk, environment := environment } : World).Tidy where
  memory := Memory.tidy_start
  held binding hbinding := by contradiction
  distinct binding hbinding := by contradiction

/-- Whatever a session is asked, its memory comes from one turn to the next. -/
lemma leads_of_reaches {allowed : Command → Prop} (h : world.Tidy)
    (hreach : Reaches allowed world after) : Leads (fun _ => True) world after := by
  induction hreach with
  | refl => exact .refl h
  | tail _ hturn ih => exact ih.trans (ih.tidy.turn hturn fun _ _ _ _ => trivial)

lemma tidy_of_reaches {allowed : Command → Prop} {disk : Disk} {environment : Environment}
    (hreach : Reaches allowed { disk := disk, environment := environment } world) : world.Tidy :=
  (leads_of_reaches (tidy_start disk environment) hreach).tidy

/-- A run in which nothing is put into the slot of that number but answers. -/
def OnlyAsks (number : ℕ) : World → World → Prop :=
  Relation.ReflTransGen fun world after =>
    Turn (fun command => ¬ command.Installs world number) world after

lemma leads_of_onlyAsks {number : ℕ} (h : world.Tidy) (hrun : OnlyAsks number world after) :
    Leads (· ≠ number) world after := by
  induction hrun with
  | refl => exact .refl h
  | tail _ hturn ih =>
      refine ih.trans (ih.tidy.turn hturn fun command hcommand other hother hsame => ?_)
      exact hcommand (hsame ▸ hother)

end World

end Session

end GeneratedCode
