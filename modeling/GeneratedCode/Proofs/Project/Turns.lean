import Mathlib.Tactic
import GeneratedCode.Proofs.Memory.Turns
import GeneratedCode.Proofs.Project.Scan

/-!
What a scan makes of a memory.

A scan makes a tree for each file, asks a cache about it, and lets it go once the next one has been
made. Each of these is a turn of the memory, whatever the tests are and however they end
(`Turn.isGenerated`, `run_turn`), and the trees that were held before the scan are held after it
(`run_scanFrom`).
-/

namespace GeneratedCode

open Cache

/-! ### Asking a memory -/

namespace Memory

variable {memory : Memory} {number : ℕ} {tree : Handle} {installs : ℕ → Prop}

/-- Asking a memory about a tree that is held is a turn, and lets go of no tree. -/
lemma Turn.isGenerated {σ : Type} {path : Text} {byName : Text → Except Failure Bool}
    {byComment : Attempt σ Bool} {inquiry : Inquiry Memory σ} (htree : tree ∈ inquiry.store.held) :
    let after := ((Memory.isGenerated number tree path byName byComment).outcome inquiry).2.store
    Turn installs inquiry.store after ∧ after.held = inquiry.store.held := by
  have hsame : Turn installs inquiry.store
      (inquiry.store.setSlot number (inquiry.store.slot number)) :=
    .setSlot (.inr .same) fun table htable => .inl (mem_tables_of_slot htable)
  rw [outcome_isGenerated]
  refine ⟨?_, rfl⟩
  cases hlookup : (inquiry.store.slot number).lookup? tree with
  | some answer =>
      rw [Slot.outcome_isGenerated_of_lookup? hlookup]
      exact hsame
  | none =>
      rw [Slot.outcome_isGenerated_of_miss hlookup]
      rcases Slot.judge path byName byComment inquiry.inner with ⟨failure | answer, inner⟩
      · exact hsame
      · exact .keeping number answer htree

end Memory

/-! ### Scans -/

namespace Project.Scan

variable {cache : CacheRef} {place : Text} {previous : Option Handle} {found : List Finding}
  {file : SourceFile} {files : List SourceFile} {scan : Scan} {installs : ℕ → Prop}
  {first : ℕ} {start : List Handle}

/-- The tree of a turn is held, and the one before it let go. -/
lemma run_nextMemory {memory : Memory} (hprevious : ∀ tree ∈ previous,
      tree.serial < memory.nextSerial) :
    Memory.Run installs memory (nextMemory previous memory) ∧
      nextHandle memory ∈ (nextMemory previous memory).held := by
  have hmake : Memory.Turn installs memory (memory.create false "").2 :=
    .make _ false "" fun tree htree => Memory.freeAddress_ne htree
  cases previous with
  | none => exact ⟨.single hmake, List.mem_cons_self⟩
  | some previous =>
      refine ⟨.tail (.single hmake) (.hold fun tree htree => List.mem_of_mem_filter htree), ?_⟩
      refine List.mem_filter.2 ⟨List.mem_cons_self, bne_iff_ne.2 ?_⟩
      exact (hprevious previous rfl).ne'

/-- Any other tree that is held stays so. -/
lemma mem_held_nextMemory {memory : Memory} {tree : Handle} (htree : tree ∈ memory.held)
    (hprevious : ∀ other ∈ previous, tree.serial ≠ other.serial) :
    tree ∈ (nextMemory previous memory).held := by
  cases previous with
  | none => exact List.mem_cons_of_mem _ htree
  | some previous =>
      exact List.mem_filter.2 ⟨List.mem_cons_of_mem _ htree, bne_iff_ne.2 (hprevious previous rfl)⟩

/-- What a turn that is not cancelled at once makes of the memory: there is a new tree, and the slot
has taken on the answer for it, unless there is none. -/
lemma exists_store_turn (hnumbered : scan.store.Numbered) (hspent : scan.inner.spent = false) :
    let out := (turn cache place previous file).outcome scan
    let memory := nextMemory previous scan.store
    (∃ slot, out.2.store = memory.setSlot cache.slot slot ∧ (slot = memory.slot cache.slot ∨
      ∃ answer, slot = (memory.slot cache.slot).keeping memory.alive (nextHandle scan.store)
        answer)) ∧
      ∀ made, out.1 = .ok made → made.1 = nextHandle scan.store := by
  rw [outcome_turn hnumbered hspent]
  dsimp only
  rcases judge cache.classifier file scan.inner.tick with ⟨failure | answer, visit⟩
  · cases failure <;> exact ⟨⟨_, rfl, .inl rfl⟩, fun made hmade => by cases hmade <;> rfl⟩
  · exact ⟨⟨_, rfl, .inr ⟨answer, rfl⟩⟩, fun made hmade => by cases hmade; rfl⟩

/-- **A turn of a scan** comes to turns of the memory, and lets go of no tree but that of the turn
before it. -/
lemma run_turn (h : scan.store.Tidy)
    (hprevious : ∀ tree ∈ previous, tree.serial < scan.store.nextSerial) :
    let out := (turn cache place previous file).outcome scan
    Memory.Run installs scan.store out.2.store ∧
      (∀ tree ∈ scan.store.held, (∀ other ∈ previous, tree.serial ≠ other.serial) →
        tree ∈ out.2.store.held) ∧
      ∀ made, out.1 = .ok made → made.1.serial = scan.store.nextSerial ∧
        out.2.store.nextSerial = scan.store.nextSerial + 1 := by
  cases hspent : scan.inner.spent with
  | true =>
      rw [outcome_turn_of_spent hspent]
      exact ⟨.refl, fun tree htree _ => htree, fun made hmade => by contradiction⟩
  | false =>
      obtain ⟨hrun, hheld⟩ := @run_nextMemory previous installs _ hprevious
      obtain ⟨⟨slot, hstore, hslot⟩, hmade⟩ :=
        @exists_store_turn cache place previous file scan h.numbered hspent
      dsimp only
      rw [hstore]
      refine ⟨hrun.tail ?_, fun tree htree hother => mem_held_nextMemory htree hother,
        fun made hok => ⟨?_, nextSerial_nextMemory previous scan.store⟩⟩
      · rcases hslot with rfl | ⟨answer, rfl⟩
        · exact .setSlot (.inr .same) fun table htable => .inl (Memory.mem_tables_of_slot htable)
        · exact .keeping cache.slot answer hheld
      · rw [hmade made hok]
        rfl

/-- **A scan** comes to turns of the memory, and lets go of no tree that was held before it. -/
lemma run_scanFrom (h : scan.store.Tidy) (hfirst : first ≤ scan.store.nextSerial)
    (hprevious : ∀ tree ∈ previous, first ≤ tree.serial ∧ tree.serial < scan.store.nextSerial)
    (hstart : ∀ tree ∈ start, tree.serial < first ∧ tree ∈ scan.store.held) :
    let after := ((scanFrom cache place previous found files).outcome scan).2.store
    Memory.Run installs scan.store after ∧ ∀ tree ∈ start, tree ∈ after.held := by
  induction files generalizing previous found scan with
  | nil => exact ⟨.refl, fun tree htree => (hstart tree htree).2⟩
  | cons file files ih =>
      obtain ⟨hrun, hheld, hmade⟩ := @run_turn cache place previous file scan installs h
        fun tree htree => (hprevious tree htree).2
      have hkept (tree : Handle) (htree : tree ∈ start) :=
        hheld tree (hstart tree htree).2 fun other hother =>
          ((hstart tree htree).1.trans_le (hprevious other hother).1).ne
      rw [scanFrom_cons, Attempt.outcome_bind]
      cases hout : (turn cache place previous file).outcome scan with
      | mk result after =>
        rw [hout] at hrun hheld hmade hkept
        cases result with
        | error failure => exact ⟨hrun, hkept⟩
        | ok made =>
            obtain ⟨hserial, hnext⟩ := hmade made rfl
            dsimp only at hrun hkept hnext ⊢
            obtain ⟨hrest, hstill⟩ := @ih (some made.1) (made.2.toList ++ found) after
              (h.run hrun) (by omega)
              (fun tree htree => by
                obtain rfl := Option.some.inj htree
                omega)
              fun tree htree => ⟨(hstart tree htree).1, hkept tree htree⟩
            exact ⟨hrun.trans hrest, hstill⟩

end Project.Scan

end GeneratedCode
