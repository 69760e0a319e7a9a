import Mathlib.Tactic
import GeneratedCode.Proofs.Memory.Entries
import GeneratedCode.Proofs.Project.Turns

/-!
What a scan leaves in the slot of its cache.

Each turn of a scan puts an answer for a tree of its own into the slot, and by the next turn that
tree is dead. So the slot takes on the new answer in the place of the one before, and what was in it
when the scan began makes room for one entry only. The invariant is `Footprint`: it is carried from
one turn to the next by `Footprint.turn`, and along the files by `Footprint.scanFrom`.

What makes it go through is that a scan has no say in which of the old entries live: their trees
were held before, or are kept alive by the entries themselves (`Memory.Stays`).
-/

namespace GeneratedCode

open Cache

/-! ### Entries that stay -/

namespace Memory

variable {base : Memory} {number : ℕ} {entry : Entry}

/-- Whether the tree of an entry lives on for as long as the entry stands in a table, if no tree of
`base` is let go. -/
def Stays (base : Memory) (entry : Entry) : Bool :=
  decide (entry.tree ∈ base.held) || entry.tree.pinned

lemma stays_iff : base.Stays entry = true ↔ entry.tree ∈ base.held ∨ entry.tree.pinned = true := by
  rw [Stays, Bool.or_eq_true, decide_eq_true_eq]

/-- Of the entries that there are, the living ones do. -/
lemma Tidy.liveEntries_eq (h : base.Tidy) (number : ℕ) :
    base.liveEntries number = (base.entries number).filter base.Stays := by
  refine List.filter_congr fun entry hentry => Bool.eq_iff_iff.2 ?_
  rw [h.alive_entry_iff hentry, stays_iff]

/-- The tree of a later entry does not, unless the entry keeps it alive. -/
lemma Tidy.stays_eq_false (h : base.Tidy) (hpinned : entry.tree.pinned = false)
    (hserial : base.nextSerial ≤ entry.tree.serial) : base.Stays entry = false := by
  refine Bool.eq_false_iff.2 fun hstays => ?_
  rcases stays_iff.1 hstays with hheld | hkept
  · exact (h.serial_lt _ (.inl hheld)).not_ge hserial
  · rw [hpinned] at hkept
    contradiction

end Memory

/-! ### The slot during a scan -/

/-- The last `n` of some entries are so many, if there are. -/
lemma length_rtake {α : Type} (l : List α) (n : ℕ) : (l.rtake n).length = min l.length n := by
  rw [List.rtake, List.length_drop]
  omega

namespace Project

variable {base memory : Memory} {number m : ℕ} {slot : Slot} {previous : Option Handle}
  {found : List Finding}

/-- How a scan has changed a slot with room for `m` entries: its trees are new, and only that of the
last turn is held; if a file has been classified, the slot has the answer for the last one behind
the last `m - 1` of the living entries that it had before. -/
structure Footprint (base : Memory) (number m : ℕ) (slot : Slot) (previous : Option Handle)
    (found : List Finding) (memory : Memory) : Prop where
  tidy : memory.Tidy
  held_subset : ∀ tree ∈ base.held, tree ∈ memory.held
  held_or : ∀ tree ∈ memory.held, tree ∈ base.held ∨ tree ∈ previous
  serial_le : ∀ tree ∈ previous, base.nextSerial ≤ tree.serial ∧ tree.serial < memory.nextSerial
  nextSerial_le : base.nextSerial ≤ memory.nextSerial
  unchanged : found = [] → memory.slots.lookup number = some slot
  changed : ∀ last ∈ found.head?, ∃ tree : Handle, tree.pinned = false ∧
    base.nextSerial ≤ tree.serial ∧ memory.slots.lookup number = some { slot with
      table := some ((base.liveEntries number).rtake (m - 1) ++
        [⟨tree.address, tree, last.generated⟩]) }

namespace Footprint

/-- When a scan begins, nothing has changed. -/
lemma start (hbase : base.Tidy) (hslot : base.slots.lookup number = some slot) :
    Footprint base number m slot none [] base where
  tidy := hbase
  held_subset tree htree := htree
  held_or tree htree := .inl htree
  serial_le tree htree := by contradiction
  nextSerial_le := le_rfl
  unchanged _ := hslot
  changed last hlast := by contradiction

/-- The slot has the bound that it had. -/
lemma exists_slot (h : Footprint base number m slot previous found memory) :
    ∃ table, memory.slots.lookup number = some { slot with table := table } := by
  cases found with
  | nil => exact ⟨slot.table, h.unchanged rfl⟩
  | cons last found =>
      obtain ⟨tree, -, -, hslot⟩ := h.changed last rfl
      exact ⟨_, hslot⟩

/-- **Of the entries that stay** there are the living ones before, or once a file has been
classified, the last `m - 1` of them. -/
lemma filter_stays (h : Footprint base number m slot previous found memory) (hbase : base.Tidy)
    (hslot : base.slots.lookup number = some slot) :
    (memory.entries number).filter base.Stays =
      if found = [] then base.liveEntries number else (base.liveEntries number).rtake (m - 1) := by
  cases found with
  | nil =>
      rw [if_pos rfl, Memory.entries_eq (h.unchanged rfl), ← Memory.entries_eq hslot,
        ← hbase.liveEntries_eq]
  | cons last found =>
      obtain ⟨tree, hpinned, hserial, hlast⟩ := h.changed last rfl
      have hall : ((base.liveEntries number).rtake (m - 1)).filter base.Stays =
          (base.liveEntries number).rtake (m - 1) := by
        rw [List.filter_eq_self]
        intro entry hentry
        rw [hbase.liveEntries_eq] at hentry
        exact (List.mem_filter.1 (List.mem_of_mem_drop hentry)).2
      have hnew :
          [(⟨tree.address, tree, last.generated⟩ : Cache.Entry)].filter base.Stays = [] := by
        rw [List.filter_singleton, hbase.stays_eq_false hpinned hserial]
        rfl
      rw [if_neg (by simp), Memory.entries_eq hlast, Option.getD_some, List.filter_append, hall,
        hnew, List.append_nil]

/-- The last `m - 1` of them are the same at any time. -/
lemma rtake_filter_stays (h : Footprint base number m slot previous found memory)
    (hbase : base.Tidy) (hslot : base.slots.lookup number = some slot) :
    ((memory.entries number).filter base.Stays).rtake (m - 1) =
      (base.liveEntries number).rtake (m - 1) := by
  rw [h.filter_stays hbase hslot]
  split
  · rfl
  · rw [List.rtake, length_rtake, Nat.sub_eq_zero_of_le (Nat.min_le_right _ _), List.drop_zero]

/-! ### Turns -/

/-- With the tree of the next turn in the place of the one before, that one is held, and the trees
that were held before the scan. -/
lemma mem_held_nextMemory_iff (h : Footprint base number m slot previous found memory)
    (hbase : base.Tidy) {tree : Handle} : tree ∈ (Scan.nextMemory previous memory).held ↔
      tree ∈ base.held ∨ tree = Scan.nextHandle memory := by
  constructor
  · intro hheld
    cases previous with
    | none => exact (List.mem_cons.1 hheld).symm.imp_left fun hold =>
        (h.held_or tree hold).resolve_right (by simp)
    | some previous =>
        obtain ⟨hmade, hother⟩ := List.mem_filter.1 hheld
        refine (List.mem_cons.1 hmade).symm.imp_left fun hold =>
          (h.held_or tree hold).resolve_right fun hsame => ?_
        rw [Option.mem_some_iff.1 hsame] at hother
        simp at hother
  · rintro (hold | rfl)
    · refine Scan.mem_held_nextMemory (h.held_subset tree hold) fun other hother => ?_
      exact ((hbase.serial_lt tree (.inl hold)).trans_le (h.serial_le other hother).1).ne
    · exact (@Scan.run_nextMemory previous (fun _ => True) memory
        fun tree htree => (h.serial_le tree htree).2).2

/-- So the trees of the entries that stay are those that live. -/
lemma alive_nextMemory (h : Footprint base number m slot previous found memory)
    (hbase : base.Tidy) {entry : Cache.Entry} (hentry : entry ∈ memory.entries number) :
    (Scan.nextMemory previous memory).alive entry.tree = base.Stays entry := by
  have hnext : (Scan.nextMemory previous memory).Tidy :=
    h.tidy.run (@Scan.run_nextMemory previous (fun _ => True) memory
      fun tree htree => (h.serial_le tree htree).2).1
  have hsame : (Scan.nextMemory previous memory).entries number = memory.entries number := by
    rw [Memory.entries, Scan.slot_nextMemory, Memory.entries]
  have hold : entry.tree ≠ Scan.nextHandle memory := fun hnew =>
    (h.tidy.serial_lt _ (Memory.knows_of_mem_entries hentry)).ne (congrArg Handle.serial hnew)
  rw [Bool.eq_iff_iff, hnext.alive_entry_iff (hsame ▸ hentry), Memory.stays_iff,
    h.mem_held_nextMemory_iff hbase, or_iff_left hold]

/-- The next table keeps those. -/
lemma kept_nextMemory (h : Footprint base number m slot previous found memory)
    (hbase : base.Tidy) :
    (memory.entries number).kept (Scan.nextMemory previous memory).alive
        (Scan.nextHandle memory) = (memory.entries number).filter base.Stays := by
  refine List.filter_congr fun entry hentry => ?_
  rw [h.alive_nextMemory hbase hentry]
  cases hstays : base.Stays entry with
  | false => rfl
  | true =>
      -- the address of a new tree is that of no living one
      have halive : memory.alive entry.tree = true := by
        rw [h.tidy.alive_entry_iff hentry]
        exact (Memory.stays_iff.1 hstays).imp_left (h.held_subset _)
      have hliving := (h.tidy.alive_iff_mem (Memory.knows_of_mem_entries hentry)).1 halive
      rw [Bool.true_and, bne_iff_ne, h.tidy.key_eq _ (Memory.entries_mem_tables hentry) _ hentry]
      exact Memory.freeAddress_ne hliving

end Footprint

variable {cache : CacheRef} {place : Text} {file : SourceFile} {files : List SourceFile}
  {scan after : Scan} {made : Handle × Option Finding} {findings : List Finding}

/-- What a turn that comes to its end makes of the memory: the slot has taken on the answer for a
new tree, if something is found of the file. -/
lemma Scan.store_of_turn (hnumbered : scan.store.Numbered)
    (hturn : (Scan.turn cache place previous file).outcome scan = (.ok made, after)) :
    let memory := nextMemory previous scan.store
    let slot := memory.slot cache.slot
    made.1 = nextHandle scan.store ∧ after.store = memory.setSlot cache.slot
      (match made.2 with
      | none => slot
      | some finding => slot.keeping memory.alive (nextHandle scan.store) finding.generated) := by
  cases hspent : scan.inner.spent with
  | true =>
      rw [outcome_turn_of_spent hspent] at hturn
      cases hturn
  | false =>
      revert hturn
      rw [outcome_turn hnumbered hspent]
      dsimp only
      rcases judge cache.classifier file scan.inner.tick with ⟨failure | answer, visit⟩
      · cases failure <;> rintro ⟨⟩
        exact ⟨rfl, rfl⟩
      · rintro ⟨⟩
        exact ⟨rfl, rfl⟩

namespace Footprint

/-- The slot after a turn, if something is found of the file. -/
lemma lookup_setSlot_keeping
    (h : Footprint base cache.slot m slot previous found scan.store) (hbase : base.Tidy)
    (hslot : base.slots.lookup cache.slot = some slot) (hm : 1 ≤ m) (hroom : slot.maxEntries = m)
    (answer : Bool) :
    let next := Scan.nextMemory previous scan.store
    let tree := Scan.nextHandle scan.store
    (next.setSlot cache.slot
        ((next.slot cache.slot).keeping next.alive tree answer)).slots.lookup cache.slot =
      some { slot with
        table := some ((base.liveEntries cache.slot).rtake (m - 1) ++
          [⟨tree.address, tree, answer⟩]) } := by
  intro next tree
  obtain ⟨table, hthere⟩ := h.exists_slot
  have hsame : next.slots.lookup cache.slot = some { slot with table := table } := by
    rw [← hthere]
    cases previous <;> rfl
  have hentries : next.entries cache.slot = scan.store.entries cache.slot :=
    Memory.entries_congr (hsame.trans hthere.symm)
  rw [Memory.lookup_slots_keeping hsame hm hroom, Table.next_eq_rtake hm, hentries,
    h.kept_nextMemory hbase, h.rtake_filter_stays hbase hslot]

/-- **A turn** of a scan leaves the footprint of its file, if something is found of that, and
otherwise the one that there was. -/
lemma turn (h : Footprint base cache.slot m slot previous found scan.store) (hbase : base.Tidy)
    (hslot : base.slots.lookup cache.slot = some slot) (hm : 1 ≤ m) (hroom : slot.maxEntries = m)
    (hturn : (Scan.turn cache place previous file).outcome scan = (.ok made, after)) :
    Footprint base cache.slot m slot (some made.1) (made.2.toList ++ found) after.store := by
  obtain ⟨hrun, -, hserial⟩ := @Scan.run_turn cache place previous file scan (fun _ => True) h.tidy
    fun tree htree => (h.serial_le tree htree).2
  obtain ⟨hmade, hstore⟩ := Scan.store_of_turn h.tidy.numbered hturn
  rw [hturn] at hrun hserial
  obtain ⟨hnew, hnext⟩ := hserial made rfl
  have hheld : after.store.held = (Scan.nextMemory previous scan.store).held := by rw [hstore]; rfl
  have hbefore := h.nextSerial_le
  dsimp only at hrun hnext
  refine
    { tidy := h.tidy.run hrun
      held_subset := fun tree htree => ?_
      held_or := fun tree htree => ?_
      serial_le := fun tree htree => ?_
      nextSerial_le := by omega
      unchanged := fun hnone => ?_
      changed := fun last hlast => ?_ }
  · rw [hheld, h.mem_held_nextMemory_iff hbase]
    exact .inl htree
  · rw [hheld, h.mem_held_nextMemory_iff hbase] at htree
    exact htree.imp_right fun hnew => congrArg some (hmade.trans hnew.symm)
  · obtain rfl := Option.some.inj htree
    omega
  · obtain ⟨hnothing, rfl⟩ := List.append_eq_nil_iff.1 hnone
    obtain hnothing := Option.toList_eq_nil_iff.1 hnothing
    rw [hstore, hnothing, Memory.lookup_setSlot_slot]
    cases previous <;> exact h.unchanged rfl
  · cases hfinding : made.2 with
    | none =>
        rw [hfinding] at hlast hstore
        rw [hstore, Memory.lookup_setSlot_slot]
        cases previous <;> exact h.changed last hlast
    | some finding =>
        rw [hfinding] at hlast hstore
        obtain rfl := Option.some.inj hlast
        refine ⟨Scan.nextHandle scan.store, rfl, h.nextSerial_le, ?_⟩
        rw [hstore]
        exact h.lookup_setSlot_keeping hbase hslot hm hroom _

/-- **A scan** that comes to its end leaves the footprint of what it has found. -/
lemma scanFrom (h : Footprint base cache.slot m slot previous found scan.store) (hbase : base.Tidy)
    (hslot : base.slots.lookup cache.slot = some slot) (hm : 1 ≤ m) (hroom : slot.maxEntries = m)
    (hscan : (Scan.scanFrom cache place previous found files).outcome scan =
      (.ok findings, after)) :
    ∃ last, Footprint base cache.slot m slot last findings.reverse after.store := by
  induction files generalizing previous found scan with
  | nil =>
      cases hscan
      exact ⟨previous, by rwa [List.reverse_reverse]⟩
  | cons file files ih =>
      rw [Scan.scanFrom_cons] at hscan
      obtain ⟨made, mid, hturn, hrest⟩ := Attempt.outcome_bind_eq_ok_iff.1 hscan
      exact ih (h.turn hbase hslot hm hroom hturn) hrest

end Footprint

/-! ### The slot after a scan -/

/-- What a scan leaves of a slot with room for `m` entries: if it has classified a file, the last
`m - 1` of the living entries that there were, and behind them one of a tree of its own, by then
dead, with the answer for the last file. So only the living entries in front of those are lost. -/
structure Trace (before after : Memory) (number m : ℕ) (slot : Slot) (findings : List Finding) :
    Prop where
  unchanged : findings = [] → after.slots.lookup number = some slot
  changed : ∀ last ∈ findings.getLast?, ∃ tree : Handle, ¬ before.Knows tree ∧
    after.alive tree = false ∧ after.slots.lookup number = some { slot with
      table := some ((before.liveEntries number).rtake (m - 1) ++
        [⟨tree.address, tree, last.generated⟩]) }
  lookup_eq : findings ≠ [] → ∀ tree ∈ before.living, (after.slot number).lookup? tree =
    if tree ∈ ((before.liveEntries number).rdrop (m - 1)).map (·.tree) then none
    else (before.slot number).lookup? tree
  count_eq : (after.slot number).countAlive after.alive =
    if findings = [] then (before.liveEntries number).length
    else min (before.liveEntries number).length (m - 1)

/-- In a table with an entry for a new tree, a tree that there was has the answer of its old entry.
-/
lemma lookup?_concat (hbase : base.Tidy) {older : Table} (hsub : older ⊆ base.liveEntries number)
    {tree new : Handle} {answer : Bool} (htree : base.Knows tree)
    (hnew : base.nextSerial ≤ new.serial)
    (hnodup : ((older ++ [(⟨new.address, new, answer⟩ : Cache.Entry)]).map (·.key)).Nodup)
    {found : Bool} :
    Table.lookup? (older ++ [⟨new.address, new, answer⟩]) tree = some found ↔
      ∃ entry ∈ older, entry.tree = tree ∧ entry.generated = found := by
  rw [Table.lookup?_eq_some_iff hnodup]
  refine exists_congr fun entry => ⟨?_, ?_⟩
  · rintro ⟨hentry, -, hserial, hfound⟩
    rcases List.mem_append.1 hentry with hold | hlast
    · have hmem := List.mem_of_mem_filter (hsub hold)
      exact ⟨hold, hbase.eq_of_serial _ _ (Memory.knows_of_mem_entries hmem) htree hserial, hfound⟩
    · obtain rfl := List.mem_singleton.1 hlast
      exact absurd (hserial ▸ hbase.serial_lt tree htree) hnew.not_gt
  · rintro ⟨hentry, rfl, hfound⟩
    have hmem := List.mem_of_mem_filter (hsub hentry)
    exact ⟨List.mem_append_left _ hentry,
      hbase.key_eq _ (Memory.entries_mem_tables hmem) entry hmem, rfl, hfound⟩

/-- Of the living entries, those that are not lost are found as before. -/
lemma lookup?_concat_rtake (hbase : base.Tidy) {tree new : Handle} {answer : Bool}
    (htree : tree ∈ base.living) (hnew : base.nextSerial ≤ new.serial) (n : ℕ)
    (hnodup : (((base.liveEntries number).rtake n ++
      [(⟨new.address, new, answer⟩ : Cache.Entry)]).map (·.key)).Nodup) :
    Table.lookup? ((base.liveEntries number).rtake n ++ [⟨new.address, new, answer⟩]) tree =
      if tree ∈ ((base.liveEntries number).rdrop n).map (·.tree) then none
      else (base.slot number).lookup? tree := by
  have hsplit : base.liveEntries number =
      (base.liveEntries number).rdrop n ++ (base.liveEntries number).rtake n :=
    (List.take_append_drop _ _).symm
  have hfound (found : Bool) := @lookup?_concat base number hbase
    ((base.liveEntries number).rtake n) (List.drop_subset _ _) tree new answer (.of_living htree)
    hnew hnodup found
  split
  · next hlost =>
      -- no tree has an entry in both parts
      obtain ⟨old, hold, rfl⟩ := List.mem_map.1 hlost
      have hapart := hbase.nodup_liveEntries number
      rw [hsplit, List.map_append, List.nodup_append] at hapart
      refine Option.eq_none_iff_forall_ne_some.2 fun found hanswer => ?_
      obtain ⟨entry, hentry, hsame, -⟩ := (hfound found).1 hanswer
      exact hapart.2.2 _ hlost _ (List.mem_map_of_mem hentry) hsame.symm
  · next hkept =>
      refine Option.ext fun found => ?_
      rw [hfound, hbase.lookup?_eq_some_iff_of_living htree]
      refine exists_congr fun entry => ⟨fun ⟨hentry, hrest⟩ => ⟨List.mem_of_mem_drop hentry, hrest⟩,
        fun ⟨hentry, hsame, hanswer⟩ => ⟨?_, hsame, hanswer⟩⟩
      rw [hsplit, List.mem_append] at hentry
      exact hentry.resolve_left fun hlost => hkept (hsame ▸ List.mem_map_of_mem hlost)

/-- **Once its trees are let go**, a scan leaves a trace. -/
lemma Footprint.trace (h : Footprint base number m slot previous findings.reverse memory)
    (hbase : base.Tidy) (hslot : base.slots.lookup number = some slot) :
    Trace base { memory with held := base.held } number m slot findings := by
  let after : Memory := { memory with held := base.held }
  have hafter : after.Tidy :=
    @Memory.Tidy.turn memory after (fun _ => True) h.tidy (.hold h.held_subset)
  have halive {entry : Cache.Entry} (hentry : entry ∈ after.entries number) :
      after.alive entry.tree = base.Stays entry := by
    rw [Bool.eq_iff_iff, hafter.alive_entry_iff hentry, Memory.stays_iff]
  have hlive : after.liveEntries number = if findings = [] then base.liveEntries number
      else (base.liveEntries number).rtake (m - 1) := by
    have hstays := h.filter_stays hbase hslot
    simp only [List.reverse_eq_nil_iff] at hstays
    rw [← hstays]
    exact List.filter_congr fun entry hentry => halive hentry
  have hchanged (last : Finding) (hlast : last ∈ findings.getLast?) :=
    h.changed last (by rwa [List.head?_reverse])
  refine
    { unchanged := fun hnone => h.unchanged (List.reverse_eq_nil_iff.2 hnone)
      changed := fun last hlast => ?_
      lookup_eq := fun hsome tree htree => ?_
      count_eq := ?_ }
  · obtain ⟨tree, hpinned, hserial, hthere⟩ := hchanged last hlast
    have hentry : (⟨tree.address, tree, last.generated⟩ : Cache.Entry) ∈ after.entries number := by
      rw [Memory.entries_eq (show after.slots.lookup number = _ from hthere), Option.getD_some]
      exact List.mem_append_right _ (List.mem_singleton_self _)
    exact ⟨tree, fun hknows => (hbase.serial_lt tree hknows).not_ge hserial,
      (halive hentry).trans (hbase.stays_eq_false hpinned hserial), hthere⟩
  · obtain ⟨last, hlast⟩ := Option.ne_none_iff_exists'.1 fun hnil =>
      hsome (List.getLast?_eq_none_iff.1 hnil)
    obtain ⟨new, -, hserial, hthere⟩ := hchanged last hlast
    have htable : (after.slot number).table = some ((base.liveEntries number).rtake (m - 1) ++
        [⟨new.address, new, last.generated⟩]) := by
      rw [Memory.slot, show after.slots.lookup number = some _ from hthere, Option.getD_some]
    have hnodup := hafter.nodup _ (Memory.mem_tables_of_slot htable)
    change (after.slot number).lookup? tree = _
    rw [Slot.lookup?, htable, Option.bind_some]
    exact lookup?_concat_rtake hbase htree hserial (m - 1) hnodup
  · change (after.slot number).countAlive after.alive = _
    rw [Memory.countAlive_slot, hlive]
    split
    · rfl
    · exact length_rtake _ _

namespace Trace

variable {before after : Memory}

/-- **At most one** living entry is lost, the oldest, and only if there is no room for another,
unless there were more than there may be. -/
lemma at_most_one (h : Trace before after number m slot findings)
    (hslot : before.slots.lookup number = some slot)
    (hlive : (before.liveEntries number).length ≤ m) :
    (∀ tree ∈ before.living, (after.slot number).lookup? tree ≠ (before.slot number).lookup? tree →
      (before.liveEntries number).length = m ∧
        (before.liveEntries number).head?.map (·.tree) = some tree) ∧
    (before.slot number).countAlive before.alive ≤
      (after.slot number).countAlive after.alive + 1 := by
  constructor
  · intro tree htree hchanged
    have hsome : findings ≠ [] := fun hnone => by
      rw [Memory.slot, h.unchanged hnone, Memory.slot, hslot] at hchanged
      exact hchanged rfl
    rw [h.lookup_eq hsome tree htree] at hchanged
    have hlost : tree ∈ ((before.liveEntries number).rdrop (m - 1)).map (·.tree) := by
      by_contra hkept
      exact hchanged (if_neg hkept)
    rw [List.rdrop] at hlost
    cases hentries : before.liveEntries number with
    | nil => simp [hentries] at hlost
    | cons oldest younger =>
        rw [hentries] at hlost hlive
        have hone : (oldest :: younger).length - (m - 1) = 1 := by
          have hpos : (oldest :: younger).length - (m - 1) ≠ 0 := fun hzero => by
            rw [hzero] at hlost
            simp at hlost
          omega
        rw [hone] at hlost
        refine ⟨by omega, ?_⟩
        simpa [eq_comm] using hlost
  · rw [h.count_eq, Memory.countAlive_slot]
    split <;> omega

end Trace

end Project

end GeneratedCode
