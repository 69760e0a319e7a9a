import Mathlib.Tactic
import GeneratedCode.Path

/-!
Paths and their pieces.

Cutting a path at its slashes undoes joining names (`splitSlash_joinSlash`), and a path with a slash
between two halves is cut into the pieces of both (`splitSlash_append`). A directory of a project is
given by the names that lead to it; the path of an entry has one name more (`entryOf_joinSlash`).
-/

namespace GeneratedCode

namespace Path

lemma splitSlash_append (s r : Text) :
    splitSlash (s ++ '/' :: r) = splitSlash s ++ splitSlash r := by
  induction s with
  | nil => rfl
  | cons c s ih =>
      rw [List.cons_append, splitSlash, splitSlash, ih]
      split
      · rfl
      · obtain ⟨piece, pieces, h⟩ := List.exists_cons_of_ne_nil (splitSlash_ne_nil s)
        rw [h]
        rfl

lemma splitSlash_of_notMem {name : Text} (h : '/' ∉ name) : splitSlash name = [name] := by
  induction name with
  | nil => rfl
  | cons c name ih =>
      have hc : c ≠ '/' := fun heq => h (by simp [heq])
      rw [splitSlash, if_neg hc, ih fun hmem => h (by simp [hmem])]

lemma splitSlash_joinSlash {names : List Text} (hne : names ≠ []) (h : ∀ name ∈ names, '/' ∉ name) :
    splitSlash (joinSlash names) = names := by
  induction names with
  | nil => contradiction
  | cons name names ih =>
      have hname := splitSlash_of_notMem (h name (by simp))
      cases names with
      | nil => exact hname
      | cons second names =>
          rw [joinSlash, splitSlash_append, hname,
            ih (by simp) fun other hother => h other (by simp [hother])]
          · rfl
          · simp

/-- No piece has a slash in it. -/
lemma notMem_of_mem_splitSlash {s piece : Text} (h : piece ∈ splitSlash s) : '/' ∉ piece := by
  induction s generalizing piece with
  | nil =>
      obtain rfl := List.mem_singleton.1 h
      simp
  | cons c s ih =>
      rw [splitSlash] at h
      split at h
      · rcases List.mem_cons.1 h with rfl | h
        · simp
        · exact ih h
      · next hc =>
          obtain ⟨first, pieces, hs⟩ := List.exists_cons_of_ne_nil (splitSlash_ne_nil s)
          rw [hs] at h ih
          rcases List.mem_cons.1 h with rfl | h
          · rintro hmem
            rcases List.mem_cons.1 hmem with heq | hmem
            · exact hc heq.symm
            · exact ih (by simp) hmem
          · exact ih (by simp [h])

/-- Joined names start with the first of them. -/
lemma exists_joinSlash (c : Char) (name : Text) (names : List Text) :
    ∃ rest, joinSlash ((c :: name) :: names) = c :: rest := by
  cases names with
  | nil => exact ⟨name, rfl⟩
  | cons second names => exact ⟨name ++ '/' :: joinSlash (second :: names), rfl⟩

lemma joinSlash_concat {names : List Text} (h : names ≠ []) (last : Text) :
    joinSlash (names ++ [last]) = joinSlash names ++ '/' :: last := by
  induction names with
  | nil => contradiction
  | cons name names ih =>
      cases names with
      | nil => rfl
      | cons second names =>
          rw [List.cons_append, List.cons_append, joinSlash, ← List.cons_append, ih (by simp)]
          · simp [joinSlash]
          · simp

/-! ### Names of entries -/

/-- A name that an entry of a directory can have. -/
def IsName (name : Text) : Prop :=
  name ≠ [] ∧ '/' ∉ name

instance (name : Text) : Decidable (IsName name) :=
  inferInstanceAs (Decidable (_ ∧ _))

lemma joinSlash_ne_nil {names : List Text} (hne : names ≠ []) (h : ∀ name ∈ names, IsName name) :
    joinSlash names ≠ [] := by
  obtain ⟨name, names, rfl⟩ := List.exists_cons_of_ne_nil hne
  obtain ⟨c, name, rfl⟩ := List.exists_cons_of_ne_nil (h name (by simp)).1
  obtain ⟨rest, hrest⟩ := exists_joinSlash c name names
  rw [hrest]
  exact List.cons_ne_nil c rest

/-- The path of an entry of a directory that some names lead to. -/
lemma entryOf_joinSlash {names : List Text} (h : ∀ name ∈ names, IsName name) (name : Text) :
    entryOf (joinSlash names) name = joinSlash (names ++ [name]) := by
  by_cases hne : names = []
  · subst hne
    rfl
  · rw [entryOf, if_neg (by simpa using joinSlash_ne_nil hne h), joinSlash_concat hne]

lemma splitSlash_joinSlash_of_isName {names : List Text} (hne : names ≠ [])
    (h : ∀ name ∈ names, IsName name) : splitSlash (joinSlash names) = names :=
  splitSlash_joinSlash hne fun name hname => (h name hname).2

end Path

end GeneratedCode
