import Mathlib.Tactic
import GeneratedCode.Proofs.Memory.Entries
import GeneratedCode.Proofs.Session.Asking

/-!
What the tables of a session are like, whatever it is asked.

Trees come and go, addresses are used again, and a table may be put back into any slot later on. All
the same, keys stay apart and an entry for a living tree stands at its address, so that counting
the entries for living trees comes to the same as looking each of them up
(`Memory.Tidy.countAlive_eq`). How many entries there are is a matter of the slot: one that only
takes on answers never has more than it may, and any other comes back within its bound with the
first answer that it takes on. `tables_are_well_kept` puts this together.
-/

namespace GeneratedCode

open Cache

/-! ### Living entries -/

namespace Memory

variable {memory : Memory} {number : ℕ} {tree : Handle}

/-- The trees of the living entries of a slot are the living trees that are found there. -/
lemma Tidy.toFinset_liveEntries (h : memory.Tidy) (number : ℕ) :
    ((memory.liveEntries number).map (·.tree)).toFinset =
      memory.living.toFinset.filter fun tree =>
        ((memory.slot number).lookup? tree).isSome := by
  ext tree
  simp only [List.mem_toFinset, List.mem_map, Finset.mem_filter, Option.isSome_iff_exists]
  constructor
  · rintro ⟨entry, hentry, rfl⟩
    obtain ⟨hmem, halive⟩ := List.mem_filter.1 hentry
    have hliving := (h.alive_iff_mem (knows_of_mem_entries hmem)).1 halive
    exact ⟨hliving, entry.generated,
      (h.lookup?_eq_some_iff_of_living hliving).2 ⟨entry, hentry, rfl, rfl⟩⟩
  · rintro ⟨hliving, answer, hanswer⟩
    obtain ⟨entry, hentry, hsame, -⟩ := (h.lookup?_eq_some_iff_of_living hliving).1 hanswer
    exact ⟨entry, hentry, hsame⟩

/-- **Counting and looking up** come to the same: there are as many living entries in a slot as
living trees that are found there. -/
lemma Tidy.countAlive_eq (h : memory.Tidy) (number : ℕ) :
    (memory.slot number).countAlive memory.alive =
      (memory.living.toFinset.filter fun tree =>
        ((memory.slot number).lookup? tree).isSome).card := by
  rw [countAlive_slot, ← h.toFinset_liveEntries,
    List.toFinset_card_of_nodup (h.nodup_liveEntries number), List.length_map]

/-! ### Taking on an answer -/

/-- Whether a slot has just taken on an answer: it is the last entry of a table with no more than
`max` entries, all for living trees. -/
def HasTakenOn (memory : Memory) (number : ℕ) (max : ℤ) (tree : Handle) (answer : Bool) : Prop :=
  ∃ older table : Table, (memory.slot number).table = some table ∧
    table = older ++ [⟨tree.address, tree, answer⟩] ∧ (table.length : ℤ) ≤ max ∧
    ∀ entry ∈ table, memory.alive entry.tree = true

/-- A slot with room for an entry takes on the answer for a tree that is held. -/
lemma Tidy.hasTakenOn_keeping (h : memory.Tidy) {slot : Slot}
    (hslot : memory.slots.lookup number = some slot) (hroom : 1 ≤ slot.maxEntries)
    (htree : tree ∈ memory.held) (answer : Bool) :
    (memory.setSlot number (slot.keeping memory.alive tree answer)).HasTakenOn number
      slot.maxEntries tree answer := by
  let after := memory.setSlot number (slot.keeping memory.alive tree answer)
  have hafter : after.slot number = slot.keeping memory.alive tree answer := by
    rw [Memory.slot, lookup_setSlot, if_pos rfl, hslot]
    rfl
  have hmax : 1 ≤ slot.maxEntries.toNat := by omega
  obtain ⟨older, hnext⟩ := @Table.exists_next_eq memory.alive (slot.table.getD []) tree answer
    slot.maxEntries.toNat hmax
  have htable : (after.slot number).table = some _ :=
    (congrArg Slot.table hafter).trans (by rw [Slot.keeping, if_pos (by omega)])
  refine ⟨older, _, htable, hnext, ?_, fun entry hentry => ?_⟩
  · have hlength := @Table.length_next_le memory.alive (slot.table.getD []) tree answer
      slot.maxEntries.toNat
    omega
  · have hbefore : memory.alive entry.tree = true :=
      Table.alive_of_mem_next (alive_iff.2 ⟨tree, mem_living_iff.2 (.inl htree), rfl⟩) hentry
    have hknows : memory.Knows entry.tree := by
      rcases Table.mem_of_mem_next hentry with hold | rfl
      · cases hbase : slot.table with
        | none => simp [hbase] at hold
        | some base =>
            have hkept : (memory.slot number).table = some base := by
              rw [Memory.slot, hslot, Option.getD_some, hbase]
            rw [hbase] at hold
            exact .inr ⟨base, mem_tables_of_slot hkept, entry, hold, rfl⟩
      · exact .inl htree
    -- a tree that is not held lives on because its entry does
    refine alive_iff.2 ⟨entry.tree, mem_living_iff.2 ?_, rfl⟩
    refine (mem_living_iff.1 ((h.alive_iff_mem hknows).1 hbefore)).imp_right fun hpinned => ?_
    exact ⟨hpinned.1, _, mem_tables_of_slot htable, entry, hentry, rfl⟩

end Memory

/-! ### Sessions -/

namespace Session

/-- What the tables of a world are like, and what becomes of them from then on. -/
structure World.KeepsTables (world : World) : Prop where
  /-- Keys are apart. -/
  nodup : ∀ table ∈ world.memory.tables, (table.map (·.key)).Nodup
  /-- An entry for a living tree stands at the address of that very tree. -/
  key_eq : ∀ table ∈ world.memory.tables, ∀ entry ∈ table, ∀ tree ∈ world.memory.living,
    entry.tree.serial = tree.serial → entry.tree = tree ∧ entry.key = tree.address
  /-- Living trees have numbers and addresses of their own. -/
  eq_of_serial_or : ∀ tree ∈ world.memory.living, ∀ other ∈ world.memory.living,
    tree.serial = other.serial ∨ tree.address = other.address → tree = other
  /-- A cache says that it has as many entries for living trees as there are living trees that it
  finds. -/
  live_eq : ∀ cache : Option String,
    let ready := (world.cache cache).2.1
    let slot := ready.memory.slot (world.cache cache).1.slot
    (step world (.state cache)).1.said =
      .state (ready.memory.living.toFinset.filter fun tree => (slot.lookup? tree).isSome).card
        slot.drops
  /-- A slot that has been filled only by asking has no more entries than it may have, and no table
  without room for one. -/
  bounded : ∀ number, (world.memory.slot number).table = none →
    ∀ after, World.OnlyAsks number world after →
      (∀ table, (after.memory.slot number).table = some table →
        (table.length : ℤ) ≤ (after.memory.slot number).maxEntries) ∧
      ((after.memory.slot number).maxEntries ≤ 0 → (after.memory.slot number).table = none)
  /-- Whatever was in a slot with room for an entry, the first miss that comes to an answer leaves
  no more entries than there may be, all for living trees, and that of its tree as the last. -/
  miss : ∀ {name handle tree cache slot}, world.trees.lookup name = some (handle, tree) →
    (world.cache cache).2.1.memory.slots.lookup (world.cache cache).1.slot = some slot →
    1 ≤ slot.maxEntries → slot.lookup? handle = none → ∀ {limit answer},
    (step world (.generated name cache limit)).1.said = .truth (some answer) →
      (step world (.generated name cache limit)).2.memory.HasTakenOn (world.cache cache).1.slot
        slot.maxEntries handle answer

variable {world : World} {disk : Disk} {environment : Environment}

/-- A miss that comes to an answer. -/
lemma hasTakenOn_of_miss (h : world.Tidy) {name : String} {handle : Handle} {tree : Tree}
    (htree : world.trees.lookup name = some (handle, tree)) {cache : Option String} {slot : Slot}
    (hslot : (world.cache cache).2.1.memory.slots.lookup (world.cache cache).1.slot = some slot)
    (hroom : 1 ≤ slot.maxEntries) (hmiss : slot.lookup? handle = none) {limit : Limit}
    {answer : Bool}
    (hsaid : (step world (.generated name cache limit)).1.said = .truth (some answer)) :
    (step world (.generated name cache limit)).2.memory.HasTakenOn (world.cache cache).1.slot
      slot.maxEntries handle answer := by
  let ready := (world.cache cache).2.1
  have hready : ready.Tidy := h.tidy_cache cache
  have hsame : ready.trees.lookup name = some (handle, tree) := by
    rw [World.trees_cache, htree]
  have hthere : ready.memory.slot (world.cache cache).1.slot = slot := by
    rw [Memory.slot, hslot, Option.getD_some]
  change ((ready.inquire name (world.cache cache).1 limit).1.said = _) at hsaid
  change (ready.inquire name (world.cache cache).1 limit).2.memory.HasTakenOn _ _ _ _
  rcases World.exists_inquire_of_miss hsame (hthere ▸ hmiss) limit with
    ⟨made, hmade, -, hmemory⟩ | ⟨hnothing, -⟩
  · obtain rfl : made = answer := by simpa using hmade.symm.trans hsaid
    rw [hmemory, hthere]
    exact hready.memory.hasTakenOn_keeping hslot hroom (hready.held _ (mem_of_lookup hsame)) made
  · rw [hnothing] at hsaid
    contradiction

/-- **Tables are well kept** in every world that a session comes to, whatever it is asked. -/
theorem tables_are_well_kept
    (hreach : Reaches (fun _ => True) { disk := disk, environment := environment } world) :
    world.KeepsTables := by
  have h : world.Tidy := World.tidy_of_reaches hreach
  exact
    { nodup := h.memory.nodup
      key_eq := fun table htable entry hentry tree htree hserial => by
        obtain rfl := h.memory.eq_of_serial entry.tree tree
          (.inr ⟨table, htable, entry, hentry, rfl⟩) (.of_living htree) hserial
        exact ⟨rfl, h.memory.key_eq table htable entry hentry⟩
      eq_of_serial_or := fun tree htree other hother hsame => by
        rcases hsame with hserial | haddress
        · exact h.memory.eq_of_serial tree other (.of_living htree) (.of_living hother) hserial
        · exact h.memory.eq_of_address tree htree other hother haddress
      live_eq := fun cache => by
        have hready : (world.cache cache).2.1.Tidy := h.tidy_cache cache
        dsimp only
        rw [← hready.memory.countAlive_eq]
        rfl
      bounded := fun number hnone after hrun => by
        have hbounded : (after.memory.slot number).Bounded :=
          Memory.bounded_of_run (World.leads_of_onlyAsks h hrun).run (by simp)
            (Slot.bounded_of_table_eq_none hnone)
        refine ⟨fun table htable => (hbounded table htable).2, fun hmax => ?_⟩
        refine Option.eq_none_iff_forall_ne_some.2 fun table htable => ?_
        have hroom := (hbounded table htable).1
        omega
      miss := fun htree hslot hroom hmiss _ _ hsaid =>
        hasTakenOn_of_miss h htree hslot hroom hmiss hsaid }

/-- A cache with room for one entry into which the table of a larger one has been put. -/
theorem tables_are_well_kept_of_larger :
    let world := (run {}
      [.tree "a" "a.g.cs".toList (.text []) false, .tree "b" "b.g.cs".toList (.text []) false,
        .newCache "large" (.bound 2 false) {}, .newCache "small" (.bound 1 false) {},
        .generated "a" (some "large") .unlimited, .generated "b" (some "large") .unlimited,
        .snapshot (some "large") "table", .restore (some "small") "table"]).2
    (world.memory.slot 1).maxEntries = 1 ∧
      (world.memory.slot 1).table.map List.length = some 2 ∧ world.KeepsTables := by
  intro world
  have hreach : Reaches (fun _ => True) {} world := reaches_run {} (by simp)
  exact ⟨rfl, rfl, tables_are_well_kept hreach⟩

end Session

end GeneratedCode
