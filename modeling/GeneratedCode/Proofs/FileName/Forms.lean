import Mathlib.Tactic
import GeneratedCode.FileName

/-!
The forms that the names of generated files have.

A name is generated if it goes on behind a fixed start, or if one of six endings stands right before
its last dot; letters are compared without regard to case. `generated_names` says so without a
fold and without a search for the last dot. It has two ingredients:

* **Case.** Two texts differ in nothing but the case of letters if their characters do, one by one
  (`Text.SameButForCase`); there are 26 letters (`Text.letters`), and no other character has a case.
  This is what folding finds out (`fold_eq_fold_iff`).
* **The last dot.** Folding neither makes dots nor loses them, so a name splits where the folded
  name does (`exists_split_of_fold_eq`).
-/

namespace GeneratedCode

namespace Text

/-! ### Letters without regard to case -/

/-- The letters that have a case, small and capital. -/
def letters : List (Char × Char) :=
  "abcdefghijklmnopqrstuvwxyz".toList.zip "ABCDEFGHIJKLMNOPQRSTUVWXYZ".toList

/-- Whether two characters are the same, or the same letter in two cases. -/
def SameLetter (c d : Char) : Prop :=
  c = d ∨ (c, d) ∈ letters ∨ (d, c) ∈ letters

/-- Whether two texts differ in nothing but the case of letters. -/
def SameButForCase (s t : Text) : Prop :=
  List.Forall₂ SameLetter s t

variable {c d : Char}

lemma toUpper_of_mem_letters (h : (c, d) ∈ letters) : c.toUpper = d ∧ d.toUpper = d := by
  have hall : ∀ pair ∈ letters, pair.1.toUpper = pair.2 ∧ pair.2.toUpper = pair.2 := by decide
  exact hall (c, d) h

/-- A character is no small letter, or its capital is the one of the letter. -/
lemma toUpper_eq_or_mem_letters (c : Char) : c.toUpper = c ∨ (c, c.toUpper) ∈ letters := by
  by_cases hsmall : 'a'.val ≤ c.val ∧ c.val ≤ 'z'.val
  · have hall : ∀ n < 123, 97 ≤ n → (Char.ofNat n, (Char.ofNat n).toUpper) ∈ letters := by decide
    have hletter := hall c.toNat (Nat.lt_succ_of_le hsmall.2) hsmall.1
    rw [Char.ofNat_toNat] at hletter
    exact .inr hletter
  · exact .inl (dif_neg hsmall)

/-- Folding finds out whether two characters are the same letter. -/
lemma sameLetter_iff : SameLetter c d ↔ c.toUpper = d.toUpper := by
  constructor
  · rintro (rfl | hcapital | hcapital)
    · rfl
    · rw [(toUpper_of_mem_letters hcapital).1, (toUpper_of_mem_letters hcapital).2]
    · rw [(toUpper_of_mem_letters hcapital).1, (toUpper_of_mem_letters hcapital).2]
  · intro hsame
    rcases toUpper_eq_or_mem_letters c with hc | hc <;>
      rcases toUpper_eq_or_mem_letters d with hd | hd
    · exact .inl (by rw [← hc, hsame, hd])
    · exact .inr (.inr (by rwa [← hsame, hc] at hd))
    · exact .inr (.inl (by rwa [hsame, hd] at hc))
    · have hinj : ∀ a ∈ letters, ∀ b ∈ letters, a.2 = b.2 → a.1 = b.1 := by decide
      exact .inl (hinj _ hc _ hd hsame)

end Text

open Text

namespace FileName

variable {path s t : Text}

/-- **Folding** tells texts apart that differ in more than the case of letters, and no others. -/
lemma fold_eq_fold_iff : fold s = fold t ↔ SameButForCase s t := by
  have hsame : SameLetter = fun c d => c.toUpper = d.toUpper :=
    funext₂ fun _ _ => propext sameLetter_iff
  rw [fold, fold, ← List.forall₂_eq_eq_eq, List.forall₂_map_left_iff, List.forall₂_map_right_iff,
    SameButForCase, hsame]

/-- A character that folds to a dot is one. -/
lemma toUpper_eq_dot_iff {c : Char} : c.toUpper = '.' ↔ c = '.' := by
  have hfold : SameLetter c '.' ↔ c.toUpper = '.' := sameLetter_iff
  have hnone : ∀ pair ∈ letters, pair.1 ≠ '.' ∧ pair.2 ≠ '.' := by decide
  rw [← hfold]
  refine ⟨?_, .inl⟩
  rintro (hsame | hpair | hpair)
  · exact hsame
  · exact absurd rfl (hnone _ hpair).2
  · exact absurd rfl (hnone _ hpair).1

lemma dot_mem_fold_iff : '.' ∈ fold s ↔ '.' ∈ s := by
  simp [fold, toUpper_eq_dot_iff]

/-- Texts that fold to the same split in the same places. -/
lemma exists_split_of_fold_eq {a x b : Text} (h : fold path = fold (a ++ x ++ '.' :: b)) :
    ∃ a' x' b', path = a' ++ x' ++ '.' :: b' ∧ fold x' = fold x ∧ fold b' = fold b := by
  rw [fold, fold, List.map_append, List.map_cons] at h
  obtain ⟨stem, behind, rfl, hstem, hbehind⟩ := List.map_eq_append_iff.1 h
  obtain ⟨dot, b', rfl, hdot, hb⟩ := List.map_eq_cons_iff.1 hbehind
  rw [List.map_append] at hstem
  obtain ⟨a', x', rfl, -, hx⟩ := List.map_eq_append_iff.1 hstem
  obtain rfl : dot = '.' := toUpper_eq_dot_iff.1 hdot
  exact ⟨a', x', b', rfl, hx, hb⟩

/-! ### The two rules -/

lemma hasTemporaryStart_iff : hasTemporaryStart path = true ↔
    23 < path.length ∧ SameButForCase (path.take 23) "TemporaryGeneratedFile_".toList := by
  have hlength : temporaryStart.length = 23 := by decide
  rw [hasTemporaryStart, hlength, Bool.and_eq_true, decide_eq_true_eq, beq_iff_eq,
    fold_eq_fold_iff]
  rfl

/-- Whether a text is what a generator puts right before the extension, in letters of any case. -/
def IsEnding (x : Text) : Prop :=
  ∃ ending ∈ ["AssemblyInfo", ".designer", ".generated", ".g", ".g.i", ".AssemblyAttributes"],
    SameButForCase x ending.toList

lemma exists_isSuffixOf_iff {stem : Text} :
    (endings.any fun ending => (fold ending).isSuffixOf (fold stem)) = true ↔
      ∃ a x, stem = a ++ x ∧ IsEnding x := by
  simp only [endings, List.any_map, List.any_eq_true, Function.comp_apply,
    List.isSuffixOf_iff_suffix, IsEnding]
  constructor
  · rintro ⟨ending, hending, before, hsplit⟩
    obtain ⟨a, x, rfl, -, hx⟩ := List.map_eq_append_iff.1 hsplit.symm
    exact ⟨a, x, rfl, ending, hending, fold_eq_fold_iff.1 hx⟩
  · rintro ⟨a, x, rfl, ending, hending, hx⟩
    refine ⟨ending, hending, fold a, ?_⟩
    rw [← fold_eq_fold_iff.2 hx, fold, fold, fold, List.map_append]

lemma hasGeneratedEnding_iff : hasGeneratedEnding path = true ↔
    ∃ a x b, path = a ++ x ++ '.' :: b ∧ '.' ∉ b ∧ IsEnding x := by
  rw [hasGeneratedEnding]
  constructor
  · intro h
    cases hstem : stem? path with
    | none =>
        rw [hstem] at h
        contradiction
    | some stem =>
        rw [hstem] at h
        obtain ⟨a, x, rfl, hx⟩ := exists_isSuffixOf_iff.1 h
        obtain ⟨b, hb, hpath⟩ := stem?_eq_some_iff.1 hstem
        exact ⟨a, x, b, hpath, hb, hx⟩
  · rintro ⟨a, x, b, hpath, hb, hx⟩
    rw [stem?_eq_some_iff.2 ⟨b, hb, hpath⟩]
    exact exists_isSuffixOf_iff.2 ⟨a, x, rfl, hx⟩

lemma isGenerated_iff : isGenerated path = true ↔
    (23 < path.length ∧ SameButForCase (path.take 23) "TemporaryGeneratedFile_".toList) ∨
      ∃ a x b, path = a ++ x ++ '.' :: b ∧ '.' ∉ b ∧ IsEnding x := by
  rw [isGenerated, Bool.or_eq_true, hasTemporaryStart_iff, hasGeneratedEnding_iff]

/-- The answer is the same for names that fold to the same. -/
lemma isGenerated_of_fold_eq (h : fold s = fold t) (hs : isGenerated s = true) :
    isGenerated t = true := by
  rw [isGenerated_iff] at hs ⊢
  rcases hs with ⟨hlength, hstart⟩ | ⟨a, x, b, rfl, hb, ending, hending, hx⟩
  · left
    have hsame : s.length = t.length := by
      simpa only [fold, List.length_map] using congrArg List.length h
    refine ⟨hsame ▸ hlength, fold_eq_fold_iff.1 ?_⟩
    rw [← fold_eq_fold_iff.2 hstart, fold, fold, List.map_take, List.map_take]
    exact congrArg (List.take 23) h.symm
  · right
    obtain ⟨a', x', b', rfl, hx', hb'⟩ := exists_split_of_fold_eq h.symm
    refine ⟨a', x', b', rfl, ?_, ending, hending, ?_⟩
    · rwa [← dot_mem_fold_iff, hb', dot_mem_fold_iff]
    · rw [← fold_eq_fold_iff, hx']
      exact fold_eq_fold_iff.2 hx

/-- **Generated names**: a name is generated if it is longer than the start of a temporary file's
name and begins with it, or if a generator's ending stands right before its last dot, in letters of
any case. So the case of letters does not matter; and where there is such an ending, neither does
what stands in front of it or behind the dot. -/
theorem generated_names (path : Text) :
    (isGenerated path = true ↔
      (23 < path.length ∧ SameButForCase (path.take 23) "TemporaryGeneratedFile_".toList) ∨
        ∃ a x b, path = a ++ x ++ '.' :: b ∧ '.' ∉ b ∧ IsEnding x) ∧
    (∀ other, SameButForCase path other → isGenerated other = isGenerated path) ∧
    ∀ a x b, path = a ++ x ++ '.' :: b → '.' ∉ b → IsEnding x →
      ∀ a' b', '.' ∉ b' → isGenerated (a' ++ x ++ '.' :: b') = isGenerated path := by
  refine ⟨isGenerated_iff, fun other hsame => ?_, fun a x b hpath hb hx a' b' hb' => ?_⟩
  · have hfold := fold_eq_fold_iff.2 hsame
    exact Bool.eq_iff_iff.2
      ⟨isGenerated_of_fold_eq hfold.symm, isGenerated_of_fold_eq hfold⟩
  · rw [isGenerated_iff.2 (.inr ⟨a', x, b', rfl, hb', hx⟩),
      isGenerated_iff.2 (.inr ⟨a, x, b, hpath, hb, hx⟩)]

/-- A name whose ending has a dot of its own. -/
theorem generated_names_of_view :
    IsEnding ".G.i".toList ∧ isGenerated "View.G.i.cs".toList = true ∧
      isGenerated "view.g.I.CS".toList = isGenerated "View.G.i.cs".toList ∧
      isGenerated ("a.b/É".toList ++ ".G.i".toList ++ '.' :: []) =
        isGenerated "View.G.i.cs".toList := by
  have hsame {s t : Text} (h : fold s = fold t) : SameButForCase s t := fold_eq_fold_iff.1 h
  obtain ⟨hiff, hcase, hparts⟩ := generated_names "View.G.i.cs".toList
  have hending : IsEnding ".G.i".toList := ⟨".g.i", by decide, hsame (by decide)⟩
  refine ⟨hending, hiff.2 (.inr ⟨"View".toList, ".G.i".toList, "cs".toList, rfl, by decide,
    hending⟩), hcase _ (hsame (by decide)), ?_⟩
  exact hparts "View".toList ".G.i".toList "cs".toList rfl (by decide) hending _ [] (by decide)

end FileName

end GeneratedCode
