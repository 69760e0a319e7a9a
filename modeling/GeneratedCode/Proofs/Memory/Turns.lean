import Mathlib.Logic.Relation
import Mathlib.Tactic
import GeneratedCode.Proofs.Cache.Table
import GeneratedCode.Proofs.Memory.Serials

/-!
What may happen to a memory, and what it keeps true by itself.

However a host goes about it, a memory changes in few ways (`Memory.Turn`): trees are let go and
tables forgotten, a tree is made at a free address, and a next table is made for a tree that is
held. Its invariant is `Memory.Tidy`: a tree has a number and, while it lives, an address of its
own, and so has an entry, which stands at the address of its tree.

* `Tidy.turn` is the step of the induction, and `Tidy.run` the induction.
* `living_of_run`: a tree that has died never lives again, whoever gets its address.
* `bounded_of_run`: a slot that only takes on answers keeps no more than it may.
-/

namespace GeneratedCode

open Cache

namespace Cache.Slot

/-! ### Slots -/

/-- What may happen to a slot into which nobody puts a table or a bound. -/
inductive Turn (alive : Handle → Bool) (slot : Slot) : Slot → Prop
  | same : Turn alive slot slot
  /-- Its table is forgotten. -/
  | empty {after : Slot} (h : after.table = none) : Turn alive slot after
  /-- It takes on an answer. -/
  | keep (tree : Handle) (answer : Bool) : Turn alive slot (slot.keeping alive tree answer)

/-- Whether there are no more entries than there may be, and no table at all without room for one.
-/
def Bounded (slot : Slot) : Prop :=
  ∀ table, slot.table = some table → 0 < slot.maxEntries ∧ (table.length : ℤ) ≤ slot.maxEntries

variable {alive : Handle → Bool} {slot after : Slot}

lemma bounded_of_table_eq_none (h : slot.table = none) : slot.Bounded := by
  intro table htable
  rw [h] at htable
  contradiction

lemma Bounded.keeping (h : slot.Bounded) (tree : Handle) (answer : Bool) :
    (slot.keeping alive tree answer).Bounded := by
  rw [Slot.keeping]
  split
  · next hroom =>
      intro table htable
      obtain rfl := Option.some.inj htable
      have hlength := @Table.length_next_le alive (slot.table.getD []) tree answer
        slot.maxEntries.toNat
      exact ⟨hroom, by dsimp only; omega⟩
  · exact h

/-- A slot stays within its bound. -/
lemma Bounded.turn (h : slot.Bounded) (hturn : Turn alive slot after) : after.Bounded := by
  cases hturn with
  | same => exact h
  | empty hnone => exact bounded_of_table_eq_none hnone
  | keep tree answer => exact h.keeping tree answer

end Cache.Slot

namespace Memory

variable {memory after : Memory} {tree other : Handle} {table : Table} {number : ℕ}
  {installs : ℕ → Prop}

/-! ### Trees -/

/-- The trees that live: a name holds them, or a table does. -/
def living (memory : Memory) : List Handle :=
  memory.held ++ memory.pinned

/-- Whether a memory has a tree at all: it is held, or there is an entry for it. -/
def Knows (memory : Memory) (tree : Handle) : Prop :=
  tree ∈ memory.held ∨ ∃ table ∈ memory.tables, ∃ entry ∈ table, entry.tree = tree

lemma alive_iff :
    memory.alive tree = true ↔ ∃ other ∈ memory.living, other.serial = tree.serial := by
  rw [alive, List.any_eq_true]
  simp only [beq_iff_eq, living]

lemma mem_pinned_iff : tree ∈ memory.pinned ↔
    tree.pinned = true ∧ ∃ table ∈ memory.tables, ∃ entry ∈ table, entry.tree = tree := by
  simp only [pinned, List.mem_flatMap, List.mem_filter, List.mem_map]
  tauto

lemma mem_living_iff : tree ∈ memory.living ↔ tree ∈ memory.held ∨ tree.pinned = true ∧
    ∃ table ∈ memory.tables, ∃ entry ∈ table, entry.tree = tree := by
  rw [living, List.mem_append, mem_pinned_iff]

lemma Knows.of_living (h : tree ∈ memory.living) : memory.Knows tree :=
  (mem_living_iff.1 h).imp_right And.right

/-! ### Tidy memories -/

/-- Trees have their numbers and, while they live, their addresses to themselves, and entries stand
at the addresses of their trees. -/
structure Tidy (memory : Memory) : Prop where
  serial_lt : ∀ tree, memory.Knows tree → tree.serial < memory.nextSerial
  eq_of_serial : ∀ tree other, memory.Knows tree → memory.Knows other →
    tree.serial = other.serial → tree = other
  eq_of_address : ∀ tree ∈ memory.living, ∀ other ∈ memory.living,
    tree.address = other.address → tree = other
  nodup : ∀ table ∈ memory.tables, (table.map (·.key)).Nodup
  key_eq : ∀ table ∈ memory.tables, ∀ entry ∈ table, entry.key = entry.tree.address

/-- A new memory is tidy. -/
lemma tidy_start : Tidy {} where
  serial_lt := by simp [Knows, tables]
  eq_of_serial := by simp [Knows, tables]
  eq_of_address := by simp [living, pinned, tables]
  nodup := by simp [tables]
  key_eq := by simp [tables]

lemma Tidy.numbered (h : memory.Tidy) : memory.Numbered :=
  fun table htable entry hentry => h.serial_lt entry.tree (.inr ⟨table, htable, entry, hentry, rfl⟩)

/-- Of the trees that a memory has, those are alive that live. -/
lemma Tidy.alive_iff_mem (h : memory.Tidy) (htree : memory.Knows tree) :
    memory.alive tree = true ↔ tree ∈ memory.living := by
  rw [alive_iff]
  constructor
  · rintro ⟨other, hother, hserial⟩
    rwa [← h.eq_of_serial other tree (.of_living hother) htree hserial]
  · exact fun hliving => ⟨tree, hliving, rfl⟩

/-! ### Turns -/

/-- The next table of one that is kept, or of an empty one, for a tree that is held. -/
def Derives (memory : Memory) (table : Table) : Prop :=
  ∃ (base : Table) (tree : Handle) (generated : Bool) (max : ℕ),
    (base = [] ∨ base ∈ memory.tables) ∧ tree ∈ memory.held ∧
      table = base.next memory.alive tree generated max

/-- What may happen to a memory. Other tables and bounds are put only into those slots that
`installs` names. -/
inductive Turn (installs : ℕ → Prop) (memory : Memory) : Memory → Prop
  /-- Trees are let go, and tables are forgotten, moved or made. -/
  | change {after : Memory} (hserial : after.nextSerial = memory.nextSerial)
      (hheld : ∀ tree ∈ after.held, tree ∈ memory.held)
      (htables : ∀ table ∈ after.tables, table ∈ memory.tables ∨ memory.Derives table)
      (hslots : ∀ number, installs number ∨
        Slot.Turn memory.alive (memory.slot number) (after.slot number)) :
      Turn installs memory after
  /-- A tree is made at an address that no living tree has. -/
  | make (address : ℕ) (pinned : Bool) (label : String)
      (hfree : ∀ tree ∈ memory.living, tree.address ≠ address) :
      Turn installs memory (memory.createAt address pinned label).2

/-- Turns one after another. -/
def Run (installs : ℕ → Prop) : Memory → Memory → Prop :=
  Relation.ReflTransGen (Turn installs)

/-- An entry of a table that is derived was kept before, or is for a tree that is held. -/
lemma Derives.mem_or (h : memory.Derives table) {entry : Entry} (hentry : entry ∈ table) :
    (∃ old ∈ memory.tables, entry ∈ old) ∨
      entry.tree ∈ memory.held ∧ entry.key = entry.tree.address := by
  obtain ⟨base, tree, generated, max, hbase, htree, rfl⟩ := h
  rcases Table.mem_of_mem_next hentry with hold | rfl
  · rcases hbase with rfl | hbase
    · contradiction
    · exact .inl ⟨base, hbase, hold⟩
  · exact .inr ⟨htree, rfl⟩

/-- So is an entry of any table after a change. -/
lemma mem_or_of_change (htables : ∀ table ∈ after.tables, table ∈ memory.tables ∨
      memory.Derives table) {entry : Entry} (htable : table ∈ after.tables)
    (hentry : entry ∈ table) : (∃ old ∈ memory.tables, entry ∈ old) ∨
      entry.tree ∈ memory.held ∧ entry.key = entry.tree.address := by
  rcases htables table htable with hold | hnew
  · exact .inl ⟨table, hold, hentry⟩
  · exact hnew.mem_or hentry

/-- A change makes no tree. -/
lemma knows_of_change (hheld : ∀ tree ∈ after.held, tree ∈ memory.held)
    (htables : ∀ table ∈ after.tables, table ∈ memory.tables ∨ memory.Derives table)
    (h : after.Knows tree) : memory.Knows tree := by
  rcases h with htree | ⟨table, htable, entry, hentry, rfl⟩
  · exact .inl (hheld tree htree)
  · rcases mem_or_of_change htables htable hentry with ⟨old, hold, hmem⟩ | ⟨htree, -⟩
    · exact .inr ⟨old, hold, entry, hmem, rfl⟩
    · exact .inl htree

/-- A change brings no tree back to life. -/
lemma living_of_change (hheld : ∀ tree ∈ after.held, tree ∈ memory.held)
    (htables : ∀ table ∈ after.tables, table ∈ memory.tables ∨ memory.Derives table)
    (h : tree ∈ after.living) : tree ∈ memory.living := by
  rw [mem_living_iff] at h ⊢
  rcases h with htree | ⟨hpinned, hentry⟩
  · exact .inl (hheld tree htree)
  · exact (knows_of_change hheld htables (.inr hentry)).imp_right fun hold => ⟨hpinned, hold⟩

/-- A tree that has just been made lives, with those that lived before. -/
lemma mem_living_createAt {address : ℕ} {pinned : Bool} {label : String} :
    tree ∈ (memory.createAt address pinned label).2.living ↔
      tree = (memory.createAt address pinned label).1 ∨ tree ∈ memory.living := by
  rw [mem_living_iff, mem_living_iff, ← or_assoc]
  exact or_congr_left List.mem_cons

lemma knows_createAt_iff {address : ℕ} {pinned : Bool} {label : String} :
    (memory.createAt address pinned label).2.Knows tree ↔
      tree = (memory.createAt address pinned label).1 ∨ memory.Knows tree := by
  rw [Knows, Knows, ← or_assoc]
  exact or_congr_left List.mem_cons

/-- A memory in which a tree is made stays tidy. -/
lemma Tidy.createAt (h : memory.Tidy) {address : ℕ} (pinned : Bool) (label : String)
    (hfree : ∀ tree ∈ memory.living, tree.address ≠ address) :
    (memory.createAt address pinned label).2.Tidy where
  serial_lt tree htree := by
    rcases knows_createAt_iff.1 htree with rfl | hold
    · exact Nat.lt_succ_self _
    · exact (h.serial_lt tree hold).trans (Nat.lt_succ_self _)
  eq_of_serial tree other htree hother hserial := by
    rcases knows_createAt_iff.1 htree with rfl | hold <;>
      rcases knows_createAt_iff.1 hother with rfl | hold'
    · rfl
    · exact absurd hserial (h.serial_lt other hold').ne'
    · exact absurd hserial (h.serial_lt tree hold).ne
    · exact h.eq_of_serial tree other hold hold' hserial
  eq_of_address tree htree other hother haddress := by
    rcases mem_living_createAt.1 htree with rfl | hold <;>
      rcases mem_living_createAt.1 hother with rfl | hold'
    · rfl
    · exact absurd haddress.symm (hfree other hold')
    · exact absurd haddress (hfree tree hold)
    · exact h.eq_of_address tree hold other hold' haddress
  nodup := h.nodup
  key_eq := h.key_eq

/-- **A turn** keeps a memory tidy. -/
lemma Tidy.turn (h : memory.Tidy) (hturn : Turn installs memory after) : after.Tidy := by
  cases hturn with
  | make address pinned label hfree => exact h.createAt pinned label hfree
  | change hserial hheld htables _ =>
      exact
        { serial_lt := fun tree htree =>
            hserial ▸ h.serial_lt tree (knows_of_change hheld htables htree)
          eq_of_serial := fun tree other htree hother =>
            h.eq_of_serial tree other (knows_of_change hheld htables htree)
              (knows_of_change hheld htables hother)
          eq_of_address := fun tree htree other hother =>
            h.eq_of_address tree (living_of_change hheld htables htree) other
              (living_of_change hheld htables hother)
          nodup := fun table htable => by
            rcases htables table htable with hold | ⟨base, tree, generated, max, hbase, -, rfl⟩
            · exact h.nodup table hold
            · refine Table.nodup_next ?_
              rcases hbase with rfl | hbase
              · exact List.nodup_nil
              · exact h.nodup base hbase
          key_eq := fun table htable entry hentry => by
            rcases mem_or_of_change htables htable hentry with ⟨old, hold, hmem⟩ | ⟨-, hkey⟩
            · exact h.key_eq old hold entry hmem
            · exact hkey }

lemma Tidy.run (h : memory.Tidy) (hrun : Run installs memory after) : after.Tidy := by
  induction hrun with
  | refl => exact h
  | tail _ hturn ih => exact ih.turn hturn

/-! ### Dead trees -/

lemma nextSerial_le_of_turn (hturn : Turn installs memory after) :
    memory.nextSerial ≤ after.nextSerial := by
  cases hturn with
  | change hserial => exact hserial.ge
  | make => exact Nat.le_succ _

lemma nextSerial_le_of_run (hrun : Run installs memory after) :
    memory.nextSerial ≤ after.nextSerial := by
  induction hrun with
  | refl => exact le_rfl
  | tail _ hturn ih => exact ih.trans (nextSerial_le_of_turn hturn)

/-- A tree that there was and that lives after a turn lived before it. -/
lemma living_of_turn (hturn : Turn installs memory after)
    (hserial : tree.serial < memory.nextSerial) (h : tree ∈ after.living) :
    tree ∈ memory.living := by
  cases hturn with
  | change _ hheld htables => exact living_of_change hheld htables h
  | make =>
      rcases mem_living_createAt.1 h with rfl | hold
      · exact absurd hserial (lt_irrefl _)
      · exact hold

/-- **The dead stay dead**: a tree that there was and that lives after some turns lived before
them. -/
lemma living_of_run (hrun : Run installs memory after) (hserial : tree.serial < memory.nextSerial)
    (h : tree ∈ after.living) : tree ∈ memory.living := by
  induction hrun using Relation.ReflTransGen.head_induction_on with
  | refl => exact h
  | head hturn _ ih =>
      exact living_of_turn hturn hserial (ih (hserial.trans_le (nextSerial_le_of_turn hturn)))

/-! ### The operations are turns -/

/-- What a key means once some values have changed. -/
lemma lookup_map_values {κ α : Type} [BEq κ] [LawfulBEq κ] (f : κ → α → α)
    (bindings : List (κ × α)) (key : κ) :
    (bindings.map fun binding => (binding.1, f binding.1 binding.2)).lookup key =
      (bindings.lookup key).map (f key) := by
  induction bindings with
  | nil => rfl
  | cons binding bindings ih =>
      rw [List.map_cons, List.lookup_cons, List.lookup_cons, ih]
      by_cases hkey : key == binding.1
      · rw [hkey, eq_of_beq hkey]
        rfl
      · rw [Bool.eq_false_iff.2 hkey]

/-- What a key means once only some of them are left. -/
lemma lookup_filter_keys {κ α : Type} [BEq κ] [LawfulBEq κ] (wanted : κ → Bool)
    (bindings : List (κ × α)) (key : κ) :
    (bindings.filter fun binding => wanted binding.1).lookup key =
      if wanted key then bindings.lookup key else none := by
  induction bindings with
  | nil => simp
  | cons binding bindings ih =>
      rw [List.filter_cons, List.lookup_cons]
      by_cases hkey : key == binding.1
      · obtain rfl := eq_of_beq hkey
        by_cases hwanted : wanted binding.1 = true
        · rw [if_pos hwanted, if_pos hwanted, List.lookup_cons, hkey]
        · rw [if_neg hwanted, if_neg hwanted, ih, if_neg hwanted]
      · rw [Bool.eq_false_iff.2 hkey, ← ih]
        by_cases hwanted : wanted binding.1 = true
        · rw [if_pos hwanted, List.lookup_cons, Bool.eq_false_iff.2 hkey]
        · rw [if_neg hwanted]

lemma lookup_setSlot (memory : Memory) (number : ℕ) (slot : Slot) (other : ℕ) :
    (memory.setSlot number slot).slots.lookup other =
      if other = number then (memory.slots.lookup other).map fun _ => slot
      else memory.slots.lookup other := by
  have hslots : (memory.setSlot number slot).slots = memory.slots.map fun binding =>
      (binding.1, if binding.1 = number then slot else binding.2) := by
    refine List.map_congr_left ?_
    rintro ⟨key, old⟩ -
    dsimp only
    split <;> rfl
  rw [hslots, lookup_map_values fun key old => if key = number then slot else old]
  split
  · rfl
  · exact Option.map_id'

/-- A slot that is changed to what it is stays so. -/
lemma lookup_setSlot_slot (memory : Memory) (number other : ℕ) :
    (memory.setSlot number (memory.slot number)).slots.lookup other =
      memory.slots.lookup other := by
  rw [lookup_setSlot]
  split
  · next hother =>
      rw [hother, Memory.slot]
      cases memory.slots.lookup number <;> rfl
  · rfl

/-- A slot is what it is changed to, if there is one. -/
lemma slot_setSlot_self (memory : Memory) (number : ℕ) (slot : Slot) :
    (memory.setSlot number slot).slot number = slot ∨
      (memory.setSlot number slot).slot number = memory.slot number := by
  rw [Memory.slot, lookup_setSlot, if_pos rfl, Memory.slot]
  cases memory.slots.lookup number with
  | none => exact .inr rfl
  | some old => exact .inl rfl

/-- A slot is changed. -/
lemma Turn.setSlot {slot : Slot} (hslot : installs number ∨
      Slot.Turn memory.alive (memory.slot number) slot)
    (htable : ∀ table, slot.table = some table → table ∈ memory.tables ∨ memory.Derives table) :
    Turn installs memory (memory.setSlot number slot) := by
  refine .change rfl (fun tree htree => htree) (fun table hkept => ?_) fun other => ?_
  · exact (mem_tables_setSlot hkept).elim .inl (htable table)
  · by_cases hother : other = number
    · subst hother
      rcases slot_setSlot_self memory other slot with hsame | hsame <;> rw [hsame]
      · exact hslot
      · exact .inr .same
    · rw [slot_setSlot_of_ne hother]
      exact .inr .same

/-- A slot takes on an answer for a tree that is held. -/
lemma Turn.keeping (number : ℕ) (answer : Bool) (htree : tree ∈ memory.held) :
    Turn installs memory
      (memory.setSlot number ((memory.slot number).keeping memory.alive tree answer)) := by
  refine .setSlot (.inr (.keep tree answer)) fun table htable => ?_
  rw [Slot.keeping] at htable
  split at htable
  · obtain rfl := Option.some.inj htable
    refine .inr ⟨_, tree, answer, _, ?_, htree, rfl⟩
    cases hslot : (memory.slot number).table with
    | none => exact .inl rfl
    | some table => exact .inr (mem_tables_of_slot hslot)
  · exact .inl (mem_tables_of_slot htable)

lemma Turn.addSlot {slot : Slot} (hslot : slot.table = none) :
    Turn installs memory (memory.addSlot slot).2 := by
  refine .change rfl (fun tree htree => htree) (fun table hkept => ?_) fun number => .inr ?_
  · rcases mem_tables_addSlot hkept with hold | hnew
    · exact .inl hold
    · rw [hslot] at hnew
      contradiction
  · by_cases hnumber : number = memory.nextSlot
    · subst hnumber
      refine .empty ?_
      rw [show (memory.addSlot slot).2.slot memory.nextSlot = slot from slot_addSlot memory slot,
        hslot]
    · have hsame : (memory.addSlot slot).2.slot number = memory.slot number := by
        simp [Memory.addSlot, Memory.slot, List.lookup_cons, beq_false_of_ne hnumber]
      rw [hsame]
      exact .same

lemma Turn.keepSlots (wanted : List ℕ) : Turn installs memory (memory.keepSlots wanted) := by
  refine .change rfl (fun tree htree => htree)
    (fun table hkept => .inl (mem_tables_keepSlots hkept)) fun number => .inr ?_
  have hlookup : (memory.keepSlots wanted).slot number =
      (if wanted.contains number then memory.slots.lookup number else none).getD {} := by
    rw [← lookup_filter_keys wanted.contains]
    rfl
  rw [hlookup]
  split
  · exact .same
  · exact .empty rfl

lemma Turn.collect (generation : ℤ) : Turn installs memory (memory.collect generation) := by
  refine .change rfl (fun tree htree => htree) (fun table hkept => .inl (mem_tables_collect hkept))
    fun number => .inr ?_
  have hlookup : (memory.collect generation).slot number =
      ((memory.slots.lookup number).map (Slot.collect generation)).getD {} := by
    rw [← lookup_map_values fun _ => Slot.collect generation]
    rfl
  rw [hlookup, Memory.slot]
  cases memory.slots.lookup number with
  | none => exact .same
  | some slot =>
      rw [Option.map_some, Option.getD_some, Option.getD_some, Slot.collect]
      split
      · exact .empty rfl
      · exact .same

/-- Trees are let go. -/
lemma Turn.hold {held : List Handle} (hheld : ∀ tree ∈ held, tree ∈ memory.held) :
    Turn installs memory { memory with held := held } :=
  .change rfl hheld (fun _ htable => .inl htable) fun _ => .inr .same

/-- Tables are put aside. -/
lemma Turn.putAside {aside : List (String × Option Table)}
    (haside : ∀ binding ∈ aside, ∀ table, binding.2 = some table →
      table ∈ memory.tables ∨ memory.Derives table) :
    Turn installs memory { memory with aside := aside } := by
  refine .change rfl (fun _ htree => htree) (fun table htable => ?_) fun _ => .inr .same
  rcases mem_tables_iff.1 htable with hslot | ⟨binding, hbinding, heq⟩
  · exact .inl (mem_tables_iff.2 (.inl hslot))
  · exact haside binding hbinding table heq

/-! ### Slots that only take on answers -/

/-- A slot that only takes on answers stays within its bound. -/
lemma bounded_of_run (hrun : Run installs memory after) (hnumber : ¬ installs number)
    (h : (memory.slot number).Bounded) : (after.slot number).Bounded := by
  induction hrun with
  | refl => exact h
  | tail _ hturn ih =>
      cases hturn with
      | change _ _ _ hslots => exact ih.turn ((hslots number).resolve_left hnumber)
      | make => exact ih

end Memory

end GeneratedCode
