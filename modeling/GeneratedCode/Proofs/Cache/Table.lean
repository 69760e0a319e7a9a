import Mathlib.Data.List.DropRight
import Mathlib.Tactic
import GeneratedCode.Proofs.Cache.Slot

/-!
What the next table has of the old one.

The next table (`Table.next`) is the end of the old one, without the entries of dead trees and
without the one at the address of the new tree, and the new entry behind it (`next_eq_drop`,
`next_eq_rtake`). So its keys stay apart (`nodup_next`), it has no more entries than it may have
(`length_next_le`), and the new one is the last (`exists_next_eq`). `exists_next_of_append` follows
one entry of the old table, and `next_eq` is for a table of which nothing is left out. Where keys
are apart, there is no other entry to be found than the one of a tree (`lookup?_eq_some_iff`).
-/

namespace GeneratedCode

namespace Cache

namespace Table

variable {alive : Handle → Bool} {table : Table} {tree : Handle} {generated : Bool} {max : ℕ}
  {entry : Entry}

/-- The entries that the next table may take from the old one. -/
def kept (alive : Handle → Bool) (table : Table) (tree : Handle) : Table :=
  table.filter fun entry => alive entry.tree && entry.key != tree.address

lemma mem_kept_iff : entry ∈ table.kept alive tree ↔
    entry ∈ table ∧ alive entry.tree = true ∧ entry.key ≠ tree.address := by
  rw [kept, List.mem_filter, Bool.and_eq_true, bne_iff_ne]

lemma next_eq_drop : table.next alive tree generated max =
    (table.kept alive tree ++ [(⟨tree.address, tree, generated⟩ : Entry)]).drop
      ((table.kept alive tree).length + 1 - max) := by
  rw [next, List.length_append, List.length_singleton, kept]

lemma length_next_le : (table.next alive tree generated max).length ≤ max := by
  rw [next_eq_drop, List.length_drop, List.length_append, List.length_singleton]
  omega

/-- There is no next table of a negative bound. -/
lemma withEntry_of_neg {max : ℤ} (h : max < 0) :
    table.withEntry alive tree generated max = .error .nothingToDrop := by
  rw [withEntry, trim_of_neg h]

/-- If there is a next table at all, it is that of some bound that is not negative. -/
lemma exists_next_of_withEntry {max : ℤ} {next : Table}
    (h : table.withEntry alive tree generated max = .ok next) :
    ∃ n : ℕ, next = table.next alive tree generated n := by
  rcases lt_or_ge max 0 with hneg | hnonneg
  · rw [withEntry_of_neg hneg] at h
    contradiction
  · obtain ⟨n, rfl⟩ := Int.eq_ofNat_of_zero_le hnonneg
    rw [withEntry_eq] at h
    exact ⟨n, (Except.ok.inj h).symm⟩

/-- The new entry comes last, if there is room for one. -/
lemma exists_next_eq (hmax : 1 ≤ max) : ∃ older,
    table.next alive tree generated max = older ++ [(⟨tree.address, tree, generated⟩ : Entry)] := by
  rw [next_eq_drop, List.drop_append_of_le_length (by omega)]
  exact ⟨_, rfl⟩

/-- The keys of the next table are apart. -/
lemma nodup_next (h : (table.map (·.key)).Nodup) :
    ((table.next alive tree generated max).map (·.key)).Nodup := by
  rw [next_eq_drop]
  refine List.Nodup.sublist (List.Sublist.map _ (List.drop_sublist _ _)) ?_
  rw [List.map_append, List.map_singleton, List.nodup_append]
  refine ⟨h.sublist (List.filter_sublist.map _), List.nodup_singleton _, ?_⟩
  rintro key hkey _ hnew rfl
  obtain ⟨entry, hentry, rfl⟩ := List.mem_map.1 hkey
  exact (mem_kept_iff.1 hentry).2.2 (List.mem_singleton.1 hnew)

/-- The next table has entries of living trees only. -/
lemma alive_of_mem_next (htree : alive tree = true)
    (h : entry ∈ table.next alive tree generated max) : alive entry.tree = true := by
  rw [next_eq_drop] at h
  rcases List.mem_append.1 (List.mem_of_mem_drop h) with hkept | hnew
  · exact (mem_kept_iff.1 hkept).2.1
  · rw [List.mem_singleton.1 hnew]
    exact htree

/-- An entry that may be kept, and behind which fewer stand than the next table may have before the
new one, is kept. No more entries stand behind it then than before, but for the new one. -/
lemma exists_next_of_append {older newer : Table} (htable : table = older ++ entry :: newer)
    (halive : alive entry.tree = true) (hkey : entry.key ≠ tree.address)
    (hroom : newer.length + 2 ≤ max) : ∃ older' newer',
      table.next alive tree generated max = older' ++ entry :: newer' ∧
        newer'.length ≤ newer.length + 1 := by
  have hkept : table.kept alive tree = kept alive older tree ++ entry :: kept alive newer tree := by
    rw [kept, htable, List.filter_append, List.filter_cons_of_pos (by simp [halive, hkey])]
    rfl
  have hnewer : (kept alive newer tree).length ≤ newer.length := List.length_filter_le _ _
  refine ⟨(kept alive older tree).drop ((table.kept alive tree).length + 1 - max),
    kept alive newer tree ++ [(⟨tree.address, tree, generated⟩ : Entry)], ?_, by simpa using hnewer⟩
  rw [next_eq_drop, hkept, List.append_assoc, List.drop_append_of_le_length]
  · rfl
  · rw [List.length_append, List.length_cons]
    omega

/-- Where nothing has to be left out, the next table is the old one and the new entry, as far as
they go. -/
lemma next_eq (h : ∀ entry ∈ table, alive entry.tree = true ∧ entry.key ≠ tree.address) :
    table.next alive tree generated max =
      (table ++ [(⟨tree.address, tree, generated⟩ : Entry)]).drop (table.length + 1 - max) := by
  have hkept : table.kept alive tree = table := by
    rw [kept, List.filter_eq_self]
    intro entry hentry
    simpa using h entry hentry
  rw [next_eq_drop, hkept]

/-- The next table is the last of the entries that may be kept and of the new one behind them. -/
lemma withEntry_eq_rtake (alive : Handle → Bool) (table : Table) (tree : Handle) (generated : Bool)
    (max : ℕ) : table.withEntry alive tree generated max =
      .ok ((table.kept alive tree ++ [(⟨tree.address, tree, generated⟩ : Entry)]).rtake max) :=
  withEntry_eq alive table tree generated max

/-- The next table has the new entry, if there is room for one, and in front of it the last of those
that may be kept. -/
lemma next_eq_rtake (hmax : 1 ≤ max) : table.next alive tree generated max =
    (table.kept alive tree).rtake (max - 1) ++ [(⟨tree.address, tree, generated⟩ : Entry)] := by
  rw [next_eq_drop, List.drop_append_of_le_length (by omega), List.rtake]
  congr 2
  omega

/-- Where keys are apart, the answer for a tree is that of its entry. -/
lemma lookup?_eq_some_iff (h : (table.map (·.key)).Nodup) :
    table.lookup? tree = some generated ↔ ∃ entry ∈ table, entry.key = tree.address ∧
      entry.tree.serial = tree.serial ∧ entry.generated = generated := by
  refine ⟨exists_of_lookup?, ?_⟩
  rintro ⟨entry, hentry, hkey, hserial, rfl⟩
  rw [lookup?]
  cases hfind : table.find? (·.key == tree.address) with
  | none =>
      have hnone := List.find?_eq_none.1 hfind entry hentry
      simp [hkey] at hnone
  | some found =>
      have hfound : found.key = entry.key :=
        (by simpa using List.find?_some hfind : found.key = tree.address).trans hkey.symm
      rw [List.inj_on_of_nodup_map h (List.mem_of_find?_eq_some hfind) hentry hfound]
      exact if_pos hserial

end Table

end Cache

end GeneratedCode
