import Mathlib.Tactic
import GeneratedCode.Proofs.Session.Turns

/-!
The next table, and what becomes of the one that it is made from.

The next table of a bound has the last entries, as many as the bound allows, of those for living
trees at other addresses and of the new one behind them. Only a negative bound keeps it from being
made. The tables that were put aside stay what they are either way, and so do those of the slots
(`World.MakesNext`). In a session the living trees at other addresses are all living trees but the
one that the new entry is for (`World.Tidy.kept_eq`), so that no answer is lost but to the bound.

* `next_table_is_last_entries`: the main result.
-/

namespace GeneratedCode

open Cache

namespace Session

namespace World

variable {world : World} {base : Option String} {name label : String} {handle : Handle}
  {tree : Tree} {generated : Bool}

/-! ### Tables that are put aside -/

/-- The table that was put aside under a name; where there is none, it counts as empty. -/
def tableAside (world : World) (name : Option String) : Table :=
  ((name.bind fun name => world.memory.aside.lookup name).join).getD []

/-- The world with a table put aside under a name. -/
def putAside (world : World) (name : String) (table : Table) : World :=
  { world with
    memory := { world.memory with aside := bind name (some table) world.memory.aside } }

lemma tableAside_putAside_self (world : World) (name : String) (table : Table) :
    (world.putAside name table).tableAside (some name) = table := by
  simp [tableAside, putAside]

lemma tableAside_putAside_of_ne {other : String} (h : other ≠ name) (world : World)
    (table : Table) :
    (world.putAside name table).tableAside (some other) = world.tableAside (some other) := by
  simp [tableAside, putAside, lookup_bind_of_ne h]

/-- A table that was put aside is one that the memory keeps, unless it is empty. -/
lemma tableAside_mem_tables {entry : Entry} (h : entry ∈ world.tableAside base) :
    world.tableAside base ∈ world.memory.tables := by
  rw [tableAside] at h ⊢
  cases htable : (base.bind fun name => world.memory.aside.lookup name).join with
  | none => simp [htable] at h
  | some table =>
      obtain ⟨name, -, haside⟩ := Option.bind_eq_some_iff.1 (Option.join_eq_some_iff.1 htable)
      exact Memory.mem_tables_iff.2 (.inr ⟨_, mem_of_lookup haside, rfl⟩)

/-! ### Making the next table -/

/-- Making the next table for a tree: it is put aside, or nothing happens. -/
lemma step_withEntry (htree : world.trees.lookup label = some (handle, tree)) (max : ℤ) :
    step world (.withEntry base name label generated max) =
      match (world.tableAside base).withEntry world.memory.alive handle generated max with
      | .error failure => ({ failure := some failure }, world)
      | .ok next =>
          ({ said := .next (world.rows next) (world.rows (world.tableAside base)) },
            world.putAside name next) := by
  rw [step, nextTable, htree]
  rfl

/-- What comes of making the next table, for a tree, of one that was put aside. -/
structure MakesNext (world : World) (base : Option String) (name : String) (handle : Handle)
    (generated : Bool) (max : ℤ) (outcome : Answer × World) : Prop where
  /-- It has the last entries, as many as it may have, of those that are kept and of the new one.
  -/
  next : ∀ m : ℕ, max = m →
    let table := world.tableAside base
    let last := (table.kept world.memory.alive handle ++
      [(⟨handle.address, handle, generated⟩ : Entry)]).rtake m
    outcome.1.said = .next (world.rows last) (world.rows table) ∧
      outcome.2.tableAside (some name) = last
  /-- It is not made for a negative bound, and for no other reason. -/
  failure : outcome.1.failure = if max < 0 then some .nothingToDrop else none
  /-- The other tables that were put aside stay, the one that it is made from among them. -/
  aside : ∀ other, other ≠ name ∨ max < 0 →
    outcome.2.tableAside (some other) = world.tableAside (some other)
  slots : outcome.2.memory.slots = world.memory.slots

/-- Making the next table comes to that. -/
lemma makesNext (htree : world.trees.lookup label = some (handle, tree)) (max : ℤ) :
    world.MakesNext base name handle generated max
      (step world (.withEntry base name label generated max)) := by
  rw [step_withEntry htree]
  rcases lt_or_ge max 0 with hneg | hnonneg
  · rw [Table.withEntry_of_neg hneg]
    exact
      { next := by omega
        failure := (if_pos hneg).symm
        aside := fun _ _ => rfl
        slots := rfl }
  · obtain ⟨m, rfl⟩ := Int.eq_ofNat_of_zero_le hnonneg
    rw [Table.withEntry_eq_rtake]
    exact
      { next := fun n hn => by
          obtain rfl : m = n := by omega
          exact ⟨rfl, tableAside_putAside_self world name _⟩
        failure := (if_neg (by omega)).symm
        aside := fun other hother =>
          tableAside_putAside_of_ne (hother.resolve_right (by omega)) world _
        slots := rfl }

/-- **Nothing else is left out**: of the living entries, those at the address of a tree that a name
holds are its own. -/
lemma Tidy.kept_eq (h : world.Tidy) (htree : world.trees.lookup label = some (handle, tree)) :
    (world.tableAside base).kept world.memory.alive handle =
      (world.tableAside base).filter fun entry =>
        world.memory.alive entry.tree && decide (entry.tree ≠ handle) := by
  refine List.filter_congr fun entry hentry => ?_
  have hkept := tableAside_mem_tables hentry
  have hkey := h.memory.key_eq _ hkept entry hentry
  rw [Bool.eq_iff_iff, Bool.and_eq_true, Bool.and_eq_true, bne_iff_ne, decide_eq_true_iff, hkey]
  refine and_congr_right fun halive => not_congr ⟨fun haddress => ?_, congrArg Handle.address⟩
  have hliving : entry.tree ∈ world.memory.living :=
    (h.memory.alive_iff_mem (.inr ⟨_, hkept, entry, hentry, rfl⟩)).1 halive
  have hheld : handle ∈ world.memory.living :=
    Memory.mem_living_iff.2 (.inl (h.held _ (mem_of_lookup htree)))
  exact h.memory.eq_of_address _ hliving _ hheld haddress

end World

/-- **The next table** of any table has the last entries, as many as it may have, of those of the
table that are for living trees at other addresses and of the new one behind them; a negative bound
is the only one with which it cannot be made. In a session, the table that it is made from stays as
it is, and the living trees at other addresses are all but the one that the new entry is for. -/
theorem next_table_is_last_entries :
    (∀ (alive : Handle → Bool) (table : Table) (tree : Handle) (generated : Bool),
      (∀ m : ℕ, table.withEntry alive tree generated m =
        .ok ((table.kept alive tree ++ [(⟨tree.address, tree, generated⟩ : Entry)]).rtake m)) ∧
      ∀ max < 0, table.withEntry alive tree generated max = .error .nothingToDrop) ∧
    ∀ (world : World) (label : String) (handle : Handle) (tree : Tree),
      world.trees.lookup label = some (handle, tree) → ∀ base : Option String,
        (∀ name generated max, world.MakesNext base name handle generated max
          (step world (.withEntry base name label generated max))) ∧
        ∀ disk environment,
          Reaches (fun _ => True) { disk := disk, environment := environment } world →
            (world.tableAside base).kept world.memory.alive handle =
              (world.tableAside base).filter fun entry =>
                world.memory.alive entry.tree && decide (entry.tree ≠ handle) := by
  refine ⟨fun alive table tree generated => ⟨Table.withEntry_eq_rtake alive table tree generated,
    fun max hmax => Table.withEntry_of_neg hmax⟩, fun world label handle tree htree base => ?_⟩
  exact ⟨fun name generated max => World.makesNext htree max,
    fun disk environment hreach => (World.tidy_of_reaches hreach).kept_eq htree⟩

/-- Of three entries, that of a dead tree is left out, at whose address the new tree is now, and
that of the oldest one because only two fit. -/
theorem next_table_is_last_entries_at_old_address :
    let world := (run {}
      [.tree "a" "a.g.cs".toList (.text []) false, .tree "b" "b.g.cs".toList (.text []) false,
        .tree "c" "c.g.cs".toList (.text []) false, .newCache "k" (.bound 3 false) {},
        .generated "a" (some "k") .unlimited, .generated "b" (some "k") .unlimited,
        .generated "c" (some "k") .unlimited, .snapshot (some "k") "old", .drop "b",
        .tree "d" "d.cs".toList (.text []) false]).2
    let after := (step world (.withEntry (some "old") "new" "d" false 2)).2
    world.tableAside (some "old") = [⟨1, ⟨0, 1, false, "a"⟩, true⟩, ⟨0, ⟨1, 0, false, "b"⟩, true⟩,
      ⟨3, ⟨2, 3, false, "c"⟩, true⟩] ∧
    world.trees.lookup "d" = some (⟨3, 0, false, "d"⟩, ⟨"d.cs".toList, .text [], none, 0⟩) ∧
    after.tableAside (some "new") = [⟨3, ⟨2, 3, false, "c"⟩, true⟩, ⟨0, ⟨3, 0, false, "d"⟩, false⟩] ∧
    after.tableAside (some "old") = world.tableAside (some "old") ∧
    (step world (.withEntry (some "old") "new" "d" false (-1))).1.failure = some .nothingToDrop := by
  intro world after
  have htree : world.trees.lookup "d" =
      some (⟨3, 0, false, "d"⟩, ⟨"d.cs".toList, .text [], none, 0⟩) := rfl
  have hmade := (next_table_is_last_entries.2 world "d" _ _ htree (some "old")).1 "new" false
  exact ⟨rfl, htree, ((hmade 2).next 2 rfl).2, (hmade 2).aside "old" (.inl (by decide)),
    (hmade (-1)).failure⟩

end Session

end GeneratedCode
