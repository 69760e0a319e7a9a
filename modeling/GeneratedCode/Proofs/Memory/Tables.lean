import Mathlib.Tactic
import GeneratedCode.Memory
import GeneratedCode.Proofs.Cache.Slot

/-!
The tables that a memory keeps, and when they tell the truth.

Every operation on a memory keeps tables that were kept before, or one more, which it is given
(`mem_tables_setSlot` and its neighbours). A memory tells the truth if every entry of every table,
in a slot or put aside, says what is the case for its tree (`Memory.Tells`). Trees go by their
serial numbers, which are never used again, so it does not matter who got the address of a tree
that died.

* `Tells.lookup?`: what a slot of such a memory finds is the case.
* `Tells.isGenerated`: asking it gives what is the case and leaves it telling the truth, provided
  that the tests do not lie.
-/

namespace GeneratedCode

open Cache

lemma mem_of_lookup {κ α : Type} [BEq κ] [LawfulBEq κ] {bindings : List (κ × α)} {key : κ}
    {value : α} (h : bindings.lookup key = some value) : (key, value) ∈ bindings := by
  obtain ⟨before, after, rfl, -⟩ := List.lookup_eq_some_iff.1 h
  simp

namespace Memory

variable {memory : Memory} {table : Table} {number : ℕ} {slot : Slot}

/-! ### Which tables are kept -/

lemma mem_tables_iff :
    table ∈ memory.tables ↔
      (∃ s ∈ memory.slots, s.2.table = some table) ∨ ∃ a ∈ memory.aside, a.2 = some table := by
  rw [tables, List.mem_append, List.mem_filterMap, List.mem_filterMap]

lemma mem_tables_of_slot (h : (memory.slot number).table = some table) :
    table ∈ memory.tables := by
  rw [Memory.slot] at h
  cases hlookup : memory.slots.lookup number with
  | none => simp [hlookup] at h
  | some slot =>
      rw [hlookup] at h
      exact mem_tables_iff.2 (.inl ⟨(number, slot), mem_of_lookup hlookup, h⟩)

lemma mem_tables_of_aside {name : String} (h : (memory.aside.lookup name).join = some table) :
    table ∈ memory.tables := by
  have hlookup : memory.aside.lookup name = some (some table) := Option.join_eq_some_iff.1 h
  exact mem_tables_iff.2 (.inr ⟨(name, some table), mem_of_lookup hlookup, rfl⟩)

lemma mem_tables_setSlot (h : table ∈ (memory.setSlot number slot).tables) :
    table ∈ memory.tables ∨ slot.table = some table := by
  rcases mem_tables_iff.1 h with ⟨s, hs, htable⟩ | haside
  · obtain ⟨⟨other, old⟩, hold, rfl⟩ := List.mem_map.1 hs
    dsimp only at htable
    split at htable
    · exact .inr htable
    · exact .inl (mem_tables_iff.2 (.inl ⟨(other, old), hold, htable⟩))
  · exact .inl (mem_tables_iff.2 (.inr haside))

lemma mem_tables_setSlot_slot
    (h : table ∈ (memory.setSlot number (memory.slot number)).tables) : table ∈ memory.tables := by
  rcases mem_tables_setSlot h with hkept | hslot
  · exact hkept
  · exact mem_tables_of_slot hslot

lemma mem_tables_addSlot (h : table ∈ (memory.addSlot slot).2.tables) :
    table ∈ memory.tables ∨ slot.table = some table := by
  rcases mem_tables_iff.1 h with ⟨s, hs, htable⟩ | haside
  · rcases List.mem_cons.1 hs with rfl | hold
    · exact .inr htable
    · exact .inl (mem_tables_iff.2 (.inl ⟨s, hold, htable⟩))
  · exact .inl (mem_tables_iff.2 (.inr haside))

lemma mem_tables_keepSlots {wanted : List ℕ} (h : table ∈ (memory.keepSlots wanted).tables) :
    table ∈ memory.tables := by
  rcases mem_tables_iff.1 h with ⟨s, hs, htable⟩ | haside
  · exact mem_tables_iff.2 (.inl ⟨s, List.mem_of_mem_filter hs, htable⟩)
  · exact mem_tables_iff.2 (.inr haside)

lemma mem_tables_collect {generation : ℤ} (h : table ∈ (memory.collect generation).tables) :
    table ∈ memory.tables := by
  rcases mem_tables_iff.1 h with ⟨s, hs, htable⟩ | haside
  · obtain ⟨⟨other, old⟩, hold, rfl⟩ := List.mem_map.1 hs
    simp only [Slot.collect] at htable
    split at htable
    · contradiction
    · exact mem_tables_iff.2 (.inl ⟨(other, old), hold, htable⟩)
  · exact mem_tables_iff.2 (.inr haside)

/-- What is kept once a slot has taken on an answer was kept before, or is that answer. -/
lemma exists_or_eq_of_mem_keeping {alive : Handle → Bool} {tree : Handle} {answer : Bool}
    {entry : Entry}
    (htable : table ∈
      (memory.setSlot number ((memory.slot number).keeping alive tree answer)).tables)
    (hentry : entry ∈ table) :
    (∃ old ∈ memory.tables, entry ∈ old) ∨ entry = ⟨tree.address, tree, answer⟩ := by
  rcases mem_tables_setSlot htable with hkept | hnew
  · exact .inl ⟨table, hkept, hentry⟩
  · rw [Slot.keeping] at hnew
    split at hnew
    · obtain rfl := Option.some.inj hnew
      rcases Table.mem_of_mem_next hentry with hmem | rfl
      · cases hslot : (memory.slot number).table with
        | none => simp [hslot] at hmem
        | some old =>
            rw [hslot] at hmem
            exact .inl ⟨old, mem_tables_of_slot hslot, hmem⟩
      · exact .inr rfl
    · exact .inl ⟨table, mem_tables_of_slot hnew, hentry⟩

/-- Asking a memory is asking one of its slots. -/
lemma outcome_isGenerated {σ : Type} {tree : Handle} {path : Text}
    {byName : Text → Except Failure Bool} {byComment : Attempt σ Bool}
    (inquiry : Inquiry Memory σ) :
    (Memory.isGenerated number tree path byName byComment).outcome inquiry =
      let asked := (Slot.isGenerated inquiry.store.alive tree path byName byComment).outcome
        ⟨inquiry.store.slot number, inquiry.events, inquiry.inner⟩
      (asked.1,
        ⟨inquiry.store.setSlot number asked.2.store, asked.2.events, asked.2.inner⟩) := rfl

/-- Where the answer of a memory comes from, and what is kept afterwards: the answer is that of an
entry which is for the very tree, or the one that is worked out; and so is an entry that was not
kept before. What the tests work on is as they leave it, if they are run. -/
lemma origin_of_isGenerated {σ : Type} {tree : Handle} {path : Text}
    {byName : Text → Except Failure Bool} {byComment : Attempt σ Bool}
    {inquiry after : Inquiry Memory σ} {result : Except Failure Bool}
    (hout : (Memory.isGenerated number tree path byName byComment).outcome inquiry =
      (result, after)) :
    let judged := Slot.judge path byName byComment inquiry.inner
    after.store.nextSerial = inquiry.store.nextSerial ∧
      (after.inner = inquiry.inner ∨ after.inner = judged.2) ∧
      (∀ answer, result = .ok answer →
        (∃ old ∈ inquiry.store.tables, ∃ entry ∈ old, entry.tree.serial = tree.serial ∧
          entry.generated = answer ∧ after.inner = inquiry.inner) ∨
        judged = (.ok answer, after.inner)) ∧
      ∀ table ∈ after.store.tables, ∀ entry ∈ table,
        (∃ old ∈ inquiry.store.tables, entry ∈ old) ∨
        ∃ answer, entry = ⟨tree.address, tree, answer⟩ ∧ judged = (.ok answer, after.inner) := by
  intro judged
  have hsame {table : Table}
      (h : table ∈ (inquiry.store.setSlot number (inquiry.store.slot number)).tables)
      (entry : Entry) (hentry : entry ∈ table) : ∃ old ∈ inquiry.store.tables, entry ∈ old :=
    ⟨table, mem_tables_setSlot_slot h, hentry⟩
  rw [outcome_isGenerated] at hout
  obtain ⟨rfl, rfl⟩ := Prod.mk.inj hout
  cases hlookup : (inquiry.store.slot number).lookup? tree with
  | some answer =>
      rw [Slot.outcome_isGenerated_of_lookup? hlookup]
      refine ⟨rfl, .inl rfl, fun found hfound => .inl ?_, fun table htable entry hentry =>
        .inl (hsame htable entry hentry)⟩
      obtain rfl := Except.ok.inj hfound
      obtain ⟨table, htable, hfind⟩ := Option.bind_eq_some_iff.1 hlookup
      obtain ⟨entry, hentry, -, hserial, hgenerated⟩ := Table.exists_of_lookup? hfind
      exact ⟨table, mem_tables_of_slot htable, entry, hentry, hserial, hgenerated, rfl⟩
  | none =>
      rw [Slot.outcome_isGenerated_of_miss hlookup]
      cases hresult : Slot.judge path byName byComment inquiry.inner with
      | mk r inner =>
        have hjudged : judged = (r, inner) := hresult
        cases r with
        | error failure =>
            exact ⟨rfl, .inr (by rw [hjudged]), fun answer hanswer => by contradiction,
              fun table htable entry hentry => .inl (hsame htable entry hentry)⟩
        | ok answer =>
            refine ⟨rfl, .inr (by rw [hjudged]), fun found hfound => .inr ?_,
              fun table htable entry hentry => ?_⟩
            · rw [hjudged, ← Except.ok.inj hfound]
            · rcases exists_or_eq_of_mem_keeping htable hentry with hold | rfl
              · exact .inl hold
              · exact .inr ⟨answer, rfl, hjudged⟩

/-! ### Telling the truth -/

/-- Every entry that is kept is for a tree that there was, and says what is the case for it. -/
def Tells (truth : ℕ → Except Failure Bool) (memory : Memory) : Prop :=
  ∀ table ∈ memory.tables, ∀ entry ∈ table,
    entry.tree.serial < memory.nextSerial ∧ truth entry.tree.serial = .ok entry.generated

namespace Tells

variable {truth : ℕ → Except Failure Bool}

/-- A memory that keeps no other tables tells the truth no less. -/
lemma of_subset {after : Memory} (h : memory.Tells truth)
    (hserial : memory.nextSerial ≤ after.nextSerial)
    (htables : ∀ table ∈ after.tables, table ∈ memory.tables) : after.Tells truth := by
  intro table htable entry hentry
  obtain ⟨hlt, htruth⟩ := h table (htables table htable) entry hentry
  exact ⟨lt_of_lt_of_le hlt hserial, htruth⟩

/-- What a slot finds is the case. -/
lemma lookup? (h : memory.Tells truth) {tree : Handle} {generated : Bool}
    (hfound : (memory.slot number).lookup? tree = some generated) :
    truth tree.serial = .ok generated := by
  obtain ⟨table, htable, hlookup⟩ := Option.bind_eq_some_iff.1 hfound
  obtain ⟨entry, hentry, -, hserial, rfl⟩ := Table.exists_of_lookup? hlookup
  rw [← hserial]
  exact (h table (mem_tables_of_slot htable) entry hentry).2

/-- **Asking a cache**: if the tests find nothing but what is the case, so does the cache, and the
memory goes on telling the truth. What the tests work on is as they leave it, if they are run. -/
lemma isGenerated {σ : Type} {tree : Handle} {path : Text}
    {byName : Text → Except Failure Bool} {byComment : Attempt σ Bool}
    {inquiry after : Inquiry Memory σ} {result : Except Failure Bool}
    (h : inquiry.store.Tells truth) (hserial : tree.serial < inquiry.store.nextSerial)
    (hjudge : ∀ answer, (Slot.judge path byName byComment inquiry.inner).1 = .ok answer →
      truth tree.serial = .ok answer)
    (hout : (Memory.isGenerated number tree path byName byComment).outcome inquiry =
      (result, after)) :
    (∀ answer, result = .ok answer → truth tree.serial = .ok answer) ∧
      after.store.Tells truth ∧ after.store.nextSerial = inquiry.store.nextSerial ∧
      (after.inner = inquiry.inner ∨
        after.inner = (Slot.judge path byName byComment inquiry.inner).2) := by
  obtain ⟨hnext, hinner, hanswer, hentries⟩ := origin_of_isGenerated hout
  refine ⟨fun answer hok => ?_, fun table htable entry hentry => ?_, hnext, hinner⟩
  · rcases hanswer answer hok with ⟨old, hold, entry, hentry, hsame, rfl, -⟩ | hjudged
    · rw [← hsame]
      exact (h old hold entry hentry).2
    · exact hjudge answer (by rw [hjudged])
  · rw [hnext]
    rcases hentries table htable entry hentry with ⟨old, hold, hmem⟩ | ⟨answer, rfl, hjudged⟩
    · exact h old hold entry hmem
    · exact ⟨hserial, hjudge answer (by rw [hjudged])⟩

end Tells

end Memory

end GeneratedCode
