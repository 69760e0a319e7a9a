import Mathlib.Tactic
import GeneratedCode.Proofs.Memory.Entries
import GeneratedCode.Proofs.Session.Asking

/-!
Which answers a cache keeps.

A run of questions to a cache is told by its completed misses, the latest first (`Asks`): calls
whose answer the slot of the cache took on. Between them anything may happen that leaves the slot as
it is; calls that find an answer or fail do (`Asks.generated`), and trees may die and others be made
in their places.

The invariant is `Retains`: the tree of one of the last misses, as long as it lives, has an entry,
behind which only those of later misses stand. If no tree with an entry dies, there are no other
entries (`Asks.map_tree_eq`). `answers_are_retained` is the main result.
-/

namespace GeneratedCode

open Cache

namespace Session

variable {world after start : World} {name : String} {handle : Handle} {tree : Tree}
  {cache : Option String} {ref : Project.CacheRef} {number m : ℕ} {limit : Limit}
  {missed : List Handle} {passed : World → Prop}

/-! ### Hits -/

/-- Whether asking a cache about a tree finds an answer: whatever the limit of the call, it is given
without a check, the log is told nothing, and trees and slots stay as they are. -/
def World.Hits (world : World) (name : String) (cache : Option String) : Prop :=
  ∃ answer, ∀ limit,
    let out := step world (.generated name cache limit)
    (out.1.said = .truth (some answer) ∧ out.1.failure = none ∧ out.1.checks = 0 ∧
      out.1.events = []) ∧
    (∀ other, out.2.trees.lookup other = world.trees.lookup other) ∧
      ∀ other, out.2.memory.slots.lookup other = world.memory.slots.lookup other

/-- A call to a cache that is set up. -/
lemma step_generated (hcache : world.cache cache = (ref, world, [])) (name : String)
    (limit : Limit) : step world (.generated name cache limit) = world.inquire name ref limit := by
  rw [step, World.withCache, hcache]
  rfl

/-- A call finds an answer if and only if the tree has an entry. -/
lemma hits_iff (h : world.Tidy) (hcache : world.cache cache = (ref, world, []))
    (htree : world.trees.lookup name = some (handle, tree)) :
    world.Hits name cache ↔ ∃ entry ∈ world.memory.entries ref.slot, entry.tree = handle := by
  rw [← h.memory.lookup?_ne_none_iff (h.knows (mem_of_lookup htree))]
  constructor
  · rintro ⟨answer, hhit⟩ hmiss
    obtain ⟨⟨hsaid, -, -, hquiet⟩, -⟩ := hhit .unlimited
    rw [step_generated hcache] at hsaid hquiet
    rcases World.exists_inquire_of_miss htree hmiss .unlimited with
      ⟨made, -, hevents, -⟩ | ⟨hnothing, -⟩
    · exact hevents hquiet
    · rw [hnothing] at hsaid
      contradiction
  · intro hfound
    obtain ⟨answer, hanswer⟩ := Option.ne_none_iff_exists'.1 hfound
    refine ⟨answer, fun limit => ?_⟩
    rw [step_generated hcache]
    exact World.inquire_of_lookup? htree hanswer limit

/-! ### Runs -/

/-- A run of questions to the slot of that number, all worlds of which are `passed`: the trees of
the misses that have been completed, the latest first, and the world that it has come to. -/
inductive Asks (number : ℕ) (passed : World → Prop) (start : World) : List Handle → World → Prop
  | start (hpassed : passed start) : Asks number passed start [] start
  /-- A turn that leaves the slot as it is. -/
  | other {missed : List Handle} {world after : World} (h : Asks number passed start missed world)
      (hturn : Turn (fun _ => True) world after)
      (hslot : after.memory.slots.lookup number = world.memory.slots.lookup number)
      (hpassed : passed after) : Asks number passed start missed after
  /-- A call that finds no answer, and comes to one. -/
  | miss {missed : List Handle} {world : World} (h : Asks number passed start missed world)
      {name : String} {cache : Option String} {ref : Project.CacheRef} {handle : Handle}
      {tree : Tree} {limit : Limit} {answer : Bool}
      (hcache : world.cache cache = (ref, world, [])) (hslot : ref.slot = number)
      (htree : world.trees.lookup name = some (handle, tree))
      (hmiss : (world.memory.slot number).lookup? handle = none)
      (hsaid : (step world (.generated name cache limit)).1.said = .truth (some answer))
      (hpassed : passed (step world (.generated name cache limit)).2) :
      Asks number passed start (handle :: missed) (step world (.generated name cache limit)).2

/-- What a completed miss leaves in the slot. -/
lemma lookup_slots_of_miss (hcache : world.cache cache = (ref, world, []))
    (htree : world.trees.lookup name = some (handle, tree))
    (hmiss : (world.memory.slot ref.slot).lookup? handle = none) {slot : Slot}
    (hslot : world.memory.slots.lookup ref.slot = some slot) (hm : 1 ≤ m)
    (hroom : slot.maxEntries = m) {answer : Bool}
    (hsaid : (step world (.generated name cache limit)).1.said = .truth (some answer)) :
    (step world (.generated name cache limit)).2.memory.slots.lookup ref.slot =
      some { slot with
        table :=
          some ((world.memory.entries ref.slot).next world.memory.alive handle answer m) } := by
  rw [step_generated hcache] at hsaid ⊢
  rcases World.exists_inquire_of_miss htree hmiss limit with
    ⟨made, hmade, -, hmemory⟩ | ⟨hnothing, -⟩
  · obtain rfl : made = answer := by simpa using hmade.symm.trans hsaid
    rw [hmemory]
    exact Memory.lookup_slots_keeping hslot hm hroom made
  · rw [hnothing] at hsaid
    contradiction

/-- A call to the cache goes on with the run: either it leaves the slot as it is, or it completes a
miss. -/
lemma Asks.generated (h : Asks number passed start missed world)
    (hcache : world.cache cache = (ref, world, [])) (hnumber : ref.slot = number) (name : String)
    (limit : Limit) (hpassed : passed (step world (.generated name cache limit)).2) :
    Asks number passed start missed (step world (.generated name cache limit)).2 ∨
      ∃ handle tree, world.trees.lookup name = some (handle, tree) ∧
        (world.memory.slot number).lookup? handle = none ∧
        Asks number passed start (handle :: missed)
          (step world (.generated name cache limit)).2 := by
  subst hnumber
  have hsame (hslots : (step world (.generated name cache limit)).2.memory.slots.lookup ref.slot =
      world.memory.slots.lookup ref.slot) :
      Asks ref.slot passed start missed (step world (.generated name cache limit)).2 :=
    h.other (.step trivial) hslots hpassed
  cases htree : world.trees.lookup name with
  | none =>
      refine .inl (hsame ?_)
      rw [step_generated hcache, World.inquire, htree]
  | some found =>
      obtain ⟨handle, tree⟩ := found
      cases hlookup : (world.memory.slot ref.slot).lookup? handle with
      | some answer =>
          refine .inl (hsame ?_)
          rw [step_generated hcache]
          exact (World.inquire_of_lookup? htree hlookup limit).2.2 ref.slot
      | none =>
          rcases World.exists_inquire_of_miss htree hlookup limit with
            ⟨answer, hsaid, -⟩ | ⟨-, -, hmemory⟩
          · rw [← step_generated hcache] at hsaid
            exact .inr ⟨handle, tree, rfl, hlookup, h.miss hcache rfl htree hlookup hsaid hpassed⟩
          · refine .inl (hsame ?_)
            rw [step_generated hcache, hmemory, Memory.lookup_setSlot_slot]

/-! ### What is retained -/

/-- The invariant of a run: of the trees of the last `m` misses, those that live have entries.
Behind the entry of the one that is number `i` from the end stand no more than `i` others. -/
structure Retains (number m : ℕ) (missed : List Handle) (world : World) : Prop where
  tidy : world.Tidy
  slot : ∃ slot, world.memory.slots.lookup number = some slot ∧ slot.maxEntries = m
  serial_lt : ∀ handle ∈ missed, handle.serial < world.memory.nextSerial
  entries : ∀ i handle, missed[i]? = some handle → i < m → handle ∈ world.memory.living →
    ∃ older newer entry, world.memory.entries number = older ++ entry :: newer ∧
      entry.tree = handle ∧ newer.length ≤ i

/-- A tree of a miss that lives after a turn lived before it. -/
lemma Retains.living_of_leads (h : Retains number m missed world)
    (hleads : World.Leads (fun _ => True) world after) (hmem : handle ∈ missed)
    (hliving : handle ∈ after.memory.living) : handle ∈ world.memory.living :=
  Memory.living_of_run hleads.run (h.serial_lt handle hmem) hliving

/-- A turn that leaves the slot as it is. -/
lemma Retains.other (h : Retains number m missed world) (hturn : Turn (fun _ => True) world after)
    (hslot : after.memory.slots.lookup number = world.memory.slots.lookup number) :
    Retains number m missed after := by
  have hleads : World.Leads (fun _ => True) world after :=
    h.tidy.turn hturn fun _ _ _ _ => trivial
  exact
    { tidy := hleads.tidy
      slot := hslot ▸ h.slot
      serial_lt := fun handle hmem =>
        (h.serial_lt handle hmem).trans_le (Memory.nextSerial_le_of_run hleads.run)
      entries := fun i handle hget hi hliving => by
        rw [Memory.entries_congr hslot]
        exact h.entries i handle hget hi
          (h.living_of_leads hleads (List.mem_of_getElem? hget) hliving) }

/-- **A completed miss**: no entry but the new one comes behind those that are retained. -/
lemma Retains.miss (h : Retains number m missed world) (hm : 1 ≤ m)
    (hcache : world.cache cache = (ref, world, [])) (hslot : ref.slot = number)
    (htree : world.trees.lookup name = some (handle, tree))
    (hmiss : (world.memory.slot number).lookup? handle = none) {answer : Bool}
    (hsaid : (step world (.generated name cache limit)).1.said = .truth (some answer)) :
    Retains number m (handle :: missed) (step world (.generated name cache limit)).2 := by
  subst hslot
  obtain ⟨slot, hthere, hroom⟩ := h.slot
  have hkept := lookup_slots_of_miss hcache htree hmiss hthere hm hroom hsaid
  have hleads : World.Leads (fun _ => True) world (step world (.generated name cache limit)).2 :=
    h.tidy.step fun _ _ => trivial
  have hhandle : handle ∈ world.memory.living :=
    Memory.mem_living_iff.2 (.inl (h.tidy.held _ (mem_of_lookup htree)))
  refine
    { tidy := hleads.tidy
      slot := ⟨_, hkept, hroom⟩
      serial_lt := fun other hmem => ?_
      entries := fun i other hget hi hliving => ?_ }
  · refine lt_of_lt_of_le ?_ (Memory.nextSerial_le_of_run hleads.run)
    rcases List.mem_cons.1 hmem with rfl | hold
    · exact h.tidy.memory.serial_lt _ (.of_living hhandle)
    · exact h.serial_lt other hold
  · rw [Memory.entries_eq hkept]
    cases i with
    | zero =>
        -- the latest miss
        obtain rfl := Option.some.inj hget
        obtain ⟨older, hnext⟩ := @Table.exists_next_eq world.memory.alive
          (world.memory.entries ref.slot) handle answer m hm
        exact ⟨older, [], _, hnext, rfl, Nat.le_refl 0⟩
    | succ i =>
        have hbefore := h.living_of_leads hleads (List.mem_of_getElem? hget) hliving
        obtain ⟨older, newer, entry, hsplit, rfl, hlength⟩ :=
          h.entries i other hget (by omega) hbefore
        have hentry : entry ∈ world.memory.entries ref.slot := by
          rw [hsplit]
          exact List.mem_append_right _ List.mem_cons_self
        have hroom : newer.length + 2 ≤ m := by omega
        obtain ⟨older', newer', hnext, hlength'⟩ := Table.exists_next_of_append hsplit
          (Memory.alive_iff.2 ⟨entry.tree, hbefore, rfl⟩)
          (h.tidy.memory.key_ne_of_miss hhandle hmiss hentry hbefore) hroom
        exact ⟨older', newer', entry, hnext, rfl, by omega⟩

/-- **A run** retains the answers of its last misses. -/
lemma Asks.retains (h : Asks number passed start missed world) (hstart : start.Tidy) (hm : 1 ≤ m)
    {slot : Slot} (hslot : start.memory.slots.lookup number = some slot)
    (hroom : slot.maxEntries = m) : Retains number m missed world := by
  induction h with
  | start => exact ⟨hstart, ⟨slot, hslot, hroom⟩, by simp, by simp⟩
  | other _ hturn hsame _ ih => exact ih.other hturn hsame
  | miss _ hcache hnumber htree hmiss hsaid _ ih =>
      exact ih.miss hm hcache hnumber htree hmiss hsaid

/-! ### Where no tree with an entry dies -/

/-- Whether all entries of a slot are for living trees. -/
def World.NoneDead (world : World) (number : ℕ) : Prop :=
  ∀ entry ∈ world.memory.entries number, world.memory.alive entry.tree = true

instance (number : ℕ) (world : World) : Decidable (world.NoneDead number) :=
  inferInstanceAs (Decidable (∀ entry ∈ world.memory.entries number,
    world.memory.alive entry.tree = true))

lemma Asks.passed_last (h : Asks number passed start missed world) : passed world := by
  cases h with
  | start hpassed => exact hpassed
  | other _ _ _ hpassed => exact hpassed
  | miss _ _ _ _ _ _ hpassed => exact hpassed

/-- The last `m` of some things once there is another one. -/
lemma drop_reverse_take {α : Type} (hm : 1 ≤ m) (l : List α) (a : α) :
    ((l.take m).reverse ++ [a]).drop ((l.take m).length + 1 - m) = ((a :: l).take m).reverse := by
  obtain ⟨k, rfl⟩ : ∃ k, m = k + 1 := ⟨m - 1, by omega⟩
  have hlength := List.length_take_le (k + 1) l
  rw [List.drop_append_of_le_length (by rw [List.length_reverse]; omega), List.drop_reverse,
    List.take_take, List.take_succ_cons, List.reverse_cons]
  congr 2
  rw [List.take_eq_take_iff, List.length_take]
  omega

/-- The entries are then those of the last misses, the oldest first. -/
lemma Asks.map_tree_eq (h : Asks number (World.NoneDead · number) start missed world)
    (hstart : start.Tidy) (hm : 1 ≤ m) {slot : Slot}
    (hslot : start.memory.slots.lookup number = some slot) (hempty : slot.table = none)
    (hroom : slot.maxEntries = m) :
    (world.memory.entries number).map (·.tree) = (missed.take m).reverse := by
  induction h with
  | start =>
      rw [Memory.entries_eq hslot, hempty, List.take_nil]
      rfl
  | other _ _ hsame _ ih => rw [Memory.entries_congr hsame, ih]
  | @miss missed world h name cache ref handle tree limit answer hcache hnumber htree hmiss hsaid _
      ih =>
      have hretains := h.retains hstart hm hslot hroom
      have hdead := h.passed_last
      subst hnumber
      obtain ⟨slot, hthere, hroom⟩ := hretains.slot
      have hkept := lookup_slots_of_miss hcache htree hmiss hthere hm hroom hsaid
      have hhandle : handle ∈ world.memory.living :=
        Memory.mem_living_iff.2 (.inl (hretains.tidy.held _ (mem_of_lookup htree)))
      -- nothing is left out of the next table but for its bound
      have hnext : (world.memory.entries ref.slot).next world.memory.alive handle answer m = _ :=
        Table.next_eq fun entry hentry => by
          have halive := hdead entry hentry
          refine ⟨halive, hretains.tidy.memory.key_ne_of_miss hhandle hmiss hentry ?_⟩
          exact (hretains.tidy.memory.alive_iff_mem (Memory.knows_of_mem_entries hentry)).1 halive
      have hlength : (world.memory.entries ref.slot).length = (missed.take m).length := by
        rw [← List.length_map (·.tree), ih, List.length_reverse]
      rw [Memory.entries_eq hkept, Option.getD_some, hnext, List.map_drop, List.map_append, ih,
        hlength]
      exact drop_reverse_take hm missed handle

/-! ### The law -/

/-- What a cache keeps whose slot starts empty and has room for `m` entries. -/
structure Retention (number m : ℕ) (start : World) : Prop where
  /-- Calls to the cache go on with a run. Those that complete a miss are told by it, and the others
  leave the slot as it is. -/
  goes_on : ∀ {passed missed world}, Asks number passed start missed world →
    ∀ {cache ref}, world.cache cache = (ref, world, []) → ref.slot = number → ∀ {name limit},
      passed (step world (.generated name cache limit)).2 →
      Asks number passed start missed (step world (.generated name cache limit)).2 ∨
        ∃ handle tree, world.trees.lookup name = some (handle, tree) ∧
          (world.memory.slot number).lookup? handle = none ∧
          Asks number passed start (handle :: missed) (step world (.generated name cache limit)).2
  /-- A call finds an answer if one of the last `m` completed misses was about its tree, which
  lives. -/
  hits : ∀ {passed missed world}, Asks number passed start missed world →
    ∀ {cache ref}, world.cache cache = (ref, world, []) → ref.slot = number →
      ∀ {name handle tree}, world.trees.lookup name = some (handle, tree) →
        handle ∈ missed.take m → world.Hits name cache
  /-- If no tree with an entry has died, the entries are those of these misses, the oldest first. -/
  entries : ∀ {missed world}, Asks number (World.NoneDead · number) start missed world →
    (world.memory.entries number).map (·.tree) = (missed.take m).reverse
  /-- A call then finds an answer in no other case. -/
  hits_iff : ∀ {missed world}, Asks number (World.NoneDead · number) start missed world →
    ∀ {cache ref}, world.cache cache = (ref, world, []) → ref.slot = number →
      ∀ {name handle tree}, world.trees.lookup name = some (handle, tree) →
        (world.Hits name cache ↔ handle ∈ missed.take m)

/-- **Answers are retained** until as many others have been taken on as there is room for. -/
theorem answers_are_retained {disk : Disk} {environment : Environment} {slot : Slot}
    (hreach : Reaches (fun _ => True) { disk := disk, environment := environment } start)
    (hslot : start.memory.slots.lookup number = some slot) (hempty : slot.table = none)
    (hroom : slot.maxEntries = m) (hm : 1 ≤ m) : Retention number m start where
  goes_on h _ _ hcache hnumber _ _ hpassed := h.generated hcache hnumber _ _ hpassed
  hits h cache ref hcache hnumber name handle tree htree hmem := by
    subst hnumber
    have hretains := h.retains (World.tidy_of_reaches hreach) hm hslot hroom
    obtain ⟨i, hi, hget⟩ := List.mem_take_iff_getElem.1 hmem
    have hliving : handle ∈ _ :=
      Memory.mem_living_iff.2 (.inl (hretains.tidy.held _ (mem_of_lookup htree)))
    obtain ⟨older, newer, entry, hentries, htreeEq, -⟩ :=
      hretains.entries i handle (List.getElem?_eq_some_iff.2 ⟨by omega, hget⟩) (by omega) hliving
    refine (Session.hits_iff hretains.tidy hcache htree).2 ⟨entry, ?_, htreeEq⟩
    rw [hentries]
    exact List.mem_append_right _ List.mem_cons_self
  entries h := h.map_tree_eq (World.tidy_of_reaches hreach) hm hslot hempty hroom
  hits_iff h cache ref hcache hnumber name handle tree htree := by
    subst hnumber
    have hstart := World.tidy_of_reaches hreach
    have hretains := h.retains hstart hm hslot hroom
    rw [Session.hits_iff hretains.tidy hcache htree, ← List.mem_reverse,
      ← h.map_tree_eq hstart hm hslot hempty hroom, List.mem_map]

/-- A cache with room for one entry that is asked about two trees. -/
theorem answers_are_retained_of_two :
    let start := (run {} [.newCache "c" (.bound 1 false) {},
      .tree "a" "a.g.cs".toList (.text []) false, .tree "b" "b.g.cs".toList (.text []) false]).2
    let asked := (step start (.generated "a" (some "c") .unlimited)).2
    let world := (step asked (.generated "b" (some "c") .unlimited)).2
    Asks 0 (World.NoneDead · 0) start [⟨1, 0, false, "b"⟩, ⟨0, 1, false, "a"⟩] world ∧
      world.Hits "b" (some "c") ∧ ¬ world.Hits "a" (some "c") := by
  intro start asked world
  have hreach : Reaches (fun _ => True) {} start := reaches_run {} (by simp)
  have hslot : start.memory.slots.lookup 0 = some { maxEntries := 1 } := rfl
  have hretention : Retention 0 1 start :=
    answers_are_retained hreach hslot rfl rfl (by decide)
  have hfirst : Asks 0 (World.NoneDead · 0) start [⟨0, 1, false, "a"⟩] asked := by
    have hcache : start.cache (some "c") = (⟨0, {}⟩, start, []) := rfl
    have htree : start.trees.lookup "a" =
      some (⟨0, 1, false, "a"⟩, ⟨"a.g.cs".toList, .text [], none, 0⟩) := rfl
    have hsaid : (step start (.generated "a" (some "c") .unlimited)).1.said =
      .truth (some true) := rfl
    exact .miss (.start (by decide)) hcache rfl htree rfl hsaid (by decide)
  have hasks :
      Asks 0 (World.NoneDead · 0) start [⟨1, 0, false, "b"⟩, ⟨0, 1, false, "a"⟩] world := by
    have hcache : asked.cache (some "c") = (⟨0, {}⟩, asked, []) := rfl
    have htree : asked.trees.lookup "b" =
      some (⟨1, 0, false, "b"⟩, ⟨"b.g.cs".toList, .text [], none, 0⟩) := rfl
    have hsaid : (step asked (.generated "b" (some "c") .unlimited)).1.said =
      .truth (some true) := rfl
    exact .miss hfirst hcache rfl htree rfl hsaid (by decide)
  have hcache : world.cache (some "c") = (⟨0, {}⟩, world, []) := rfl
  have hforgotten : world.trees.lookup "a" =
    some (⟨0, 1, false, "a"⟩, ⟨"a.g.cs".toList, .text [], none, 0⟩) := rfl
  have hkept : world.trees.lookup "b" =
    some (⟨1, 0, false, "b"⟩, ⟨"b.g.cs".toList, .text [], none, 0⟩) := rfl
  refine ⟨hasks, ?_, ?_⟩
  · exact (hretention.hits_iff hasks hcache rfl hkept).2 (by decide)
  · rw [hretention.hits_iff hasks hcache rfl hforgotten]
    decide

end Session

end GeneratedCode
