import Mathlib.Tactic
import GeneratedCode.Proofs.Ignore.Nested

/-!
Lines that are rewritten for one directory after another.

A line of `outer/inner` can be written for the top of the project at once, or for `outer` first and
then for the top. Both give the same line (`rebase_along_path`): what has been rewritten for `inner`
is taken for the same kind of line again (`LineKind`), and its body is tied to its place
(`IsTied`), so that `outer` is only put in front of it. The slash behind `inner` ties the body,
unless nothing but slashes follows (`IsSlashes`): then it is one of those at the end.

* `isTied_rebaseBody`: a rewritten body is tied.
* `HasBody.rebased`: a line that has a body has one once it is rewritten, with the same sign.
-/

namespace GeneratedCode

namespace Ignore

open Text

/-! ### Bodies -/

/-- A slash, or several in a row. -/
def IsSlashes (body : Text) : Prop :=
  body ≠ [] ∧ ∀ c ∈ body, c = '/'

instance (body : Text) : Decidable (IsSlashes body) :=
  -- the characters of the body are gone through, not all that there are
  have := List.decidableBAll (· = '/') body
  inferInstanceAs (Decidable (body ≠ [] ∧ _))

/-- A body with a slash other than at its end, which ties it to its place. -/
def IsTied (body : Text) : Prop :=
  body.head? = some '/' ∨ '/' ∈ dropEnd '/' body

section

variable {outer inner body line : Text} {negated : Bool}

/-- A slash in front of any other character is not at the end. -/
lemma slash_mem_dropEnd {c : Char} {after : Text} (hc : c ∈ after) (hne : c ≠ '/')
    (before : Text) : '/' ∈ dropEnd '/' (before ++ '/' :: after) := by
  obtain ⟨between, rest, rfl⟩ := List.append_of_mem hc
  rw [← List.cons_append, ← List.append_assoc, dropEnd_append hne]
  simp

/-- Behind its directory a body has more than slashes, unless it is nothing but slashes. -/
lemma exists_mem_behindDirectory (h : ¬ IsSlashes body) :
    ∃ c ∈ behindDirectory body, c ≠ '/' := by
  rw [behindDirectory]
  split
  · next hhead =>
      -- all but the slash in front
      obtain ⟨rest, rfl⟩ := List.head?_eq_some_iff.1 hhead
      by_contra! hrest
      exact h ⟨by simp, List.forall_mem_cons.2 ⟨rfl, hrest⟩⟩
  · split
    · next hslash =>
        -- of slashes alone, none would be left without those at the end
        by_contra! hbody
        have hnil : dropEnd '/' body = [] :=
          List.rdropWhile_eq_nil_iff.2 fun c hc => beq_iff_eq.2 (hbody c hc)
        simp [hnil] at hslash
    · exact ⟨'*', by simp, by decide⟩

/-- **A rewritten body is tied** to its place, by the slash behind its directory. -/
lemma isTied_rebaseBody (h : ¬ IsSlashes body) : IsTied (rebaseBody inner body) := by
  obtain ⟨c, hc, hne⟩ := exists_mem_behindDirectory h
  rw [rebaseBody_eq]
  exact .inr (slash_mem_dropEnd hc hne inner)

/-- A directory is only put in front of a body that is tied. -/
lemma rebaseBody_of_isTied (h : IsTied body) (hhead : body.head? ≠ some '/') (outer : Text) :
    rebaseBody outer body = outer ++ '/' :: body := by
  have hslash : (dropEnd '/' body).contains '/' = true :=
    List.contains_iff_mem.2 (h.resolve_left hhead)
  rw [rebaseBody, if_neg hhead, if_pos hslash]

/-- Along a path, the directories above stand in front of what is rewritten for the last. -/
lemma rebaseBody_path (outer inner body : Text) :
    rebaseBody (outer ++ '/' :: inner) body = outer ++ '/' :: rebaseBody inner body := by
  rw [rebaseBody_eq, rebaseBody_eq, List.append_assoc, List.cons_append]

lemma head?_rebaseBody (hinner : inner ≠ []) (body : Text) :
    (rebaseBody inner body).head? = inner.head? := by
  rw [rebaseBody_eq, List.head?_append_of_ne_nil _ hinner]

/-! ### Lines -/

/-- What a line is taken for when it is rewritten. Line feeds at its end do not count. -/
inductive LineKind where
  /-- No characters at all; blanks count as a pattern. -/
  | empty
  | comment
  | pattern (negated : Bool)
  deriving DecidableEq, Repr

/-- The kind of a line. -/
def lineKind (line : Text) : LineKind :=
  if dropEnd '\n' line = [] then .empty
  else if LooksLikeComment (dropEnd '\n' line) then .comment
  else .pattern ((dropEnd '\n' line).head? = some '!')

/-- A line that has a body is a pattern, and no other is. -/
lemma HasBody.lineKind_eq (h : HasBody line negated body) : lineKind line = .pattern negated := by
  rw [lineKind, h.dropEnd_eq, if_neg h.ne_nil, if_neg h.not_looksLikeComment]
  cases negated with
  | true => rfl
  | false => simpa [signed] using h.sign rfl

lemma lineKind_dropEnd (line : Text) : lineKind (dropEnd '\n' line) = lineKind line := by
  rw [lineKind, lineKind, dropEnd_dropEnd]

lemma rebase_dropEnd (directory line : Text) :
    rebase directory (dropEnd '\n' line) = rebase directory line := by
  rw [rebase, rebase, dropEnd_dropEnd]

/-- A line has a body, or it is no pattern and stays as it is. -/
lemma hasBody_or_kept (line : Text) :
    (∃ negated, HasBody line negated (bodyOf (dropEnd '\n' line))) ∨
      (∀ negated, lineKind line ≠ .pattern negated) ∧
        ∀ directory, rebase directory line = dropEnd '\n' line := by
  by_cases hne : dropEnd '\n' line = []
  · exact .inr ⟨by simp [lineKind, hne], fun directory => by simp [rebase, hne]⟩
  by_cases hcomment : LooksLikeComment (dropEnd '\n' line)
  · exact .inr ⟨by simp [lineKind, hne, hcomment], fun _ => rebase_of_looksLikeComment hcomment⟩
  obtain ⟨negated, body, hline, hbody, hsign⟩ := exists_signed (dropEnd '\n' line)
  rw [hbody]
  rw [hline] at hne hcomment
  exact .inl ⟨negated, hline, hne, hcomment, hsign⟩

/-! ### Rewriting a rewritten line -/

lemma dropEnd_signed (negated : Bool) (body : Text) :
    dropEnd '\n' (signed negated body) = signed negated (dropEnd '\n' body) := by
  cases negated with
  | true => exact dropEnd_append (by decide) [] body
  | false => rfl

lemma HasBody.dropEnd_body (h : HasBody line negated body) : dropEnd '\n' body = body := by
  have hline := dropEnd_signed negated body
  rw [← h.dropEnd_eq, dropEnd_dropEnd, h.dropEnd_eq] at hline
  cases negated with
  | true => exact (List.cons.inj hline).2.symm
  | false => exact hline.symm

/-- Line feeds at the end of a rewritten body are those of the body. -/
lemma dropEnd_rebaseBody (h : dropEnd '\n' body = body) :
    dropEnd '\n' (rebaseBody inner body) = rebaseBody inner body := by
  have hbehind : dropEnd '\n' (behindDirectory body) = behindDirectory body := by
    rw [behindDirectory]
    split
    · next hhead =>
        obtain ⟨rest, rfl⟩ := List.head?_eq_some_iff.1 hhead
        rw [← List.nil_append ('/' :: rest), dropEnd_append (by decide)] at h
        exact (List.cons.inj h).2
    · split
      · exact h
      · rw [show "**/".toList ++ body = "**".toList ++ '/' :: body from rfl,
          dropEnd_append (by decide), h]
  rw [rebaseBody_eq, dropEnd_append (by decide), hbehind]

/-- Only the directory in front of a line can make it look like a comment. -/
lemma looksLikeComment_directory_iff (s : Text) :
    LooksLikeComment (inner ++ '/' :: s) ↔ LooksLikeComment inner := by
  rw [LooksLikeComment, LooksLikeComment, trimLeft, trimLeft, List.dropWhile_append]
  split
  · next hblank =>
      rw [List.isEmpty_iff.1 hblank, List.dropWhile_cons_of_neg (by decide)]
      simp
  · next hrest => rw [List.head?_append_of_ne_nil _ (by simpa using hrest)]

/-- **A rewritten line** has the rewritten body, behind the same sign. -/
lemma HasBody.rebased (h : HasBody line negated body) (hinner : inner ≠ [])
    (hsign : inner.head? ≠ some '!') (hcomment : ¬ LooksLikeComment inner) :
    HasBody (rebase inner line) negated (rebaseBody inner body) where
  dropEnd_eq := by rw [h.rebase_eq hinner, dropEnd_signed, dropEnd_rebaseBody h.dropEnd_body]
  ne_nil := by cases negated <;> simp [signed, rebaseBody_eq]
  not_looksLikeComment := by
    cases negated with
    | true => simp [signed, LooksLikeComment, trimLeft, isBlank]
    | false =>
        rw [rebaseBody_eq]
        exact mt (looksLikeComment_directory_iff _).1 hcomment
  sign _ := by rwa [head?_rebaseBody hinner]

/-- **Rewriting a line along a path**, one directory after the other, is rewriting it for the path
at once, unless it is nothing but slashes. A rewritten line is of the same kind as before, and tied
to its place if it is a pattern; the directory above is then only put in front of it. -/
theorem rebase_along_path (houter : outer ≠ []) (hinner : inner ≠ [])
    (hrelative : inner.head? ≠ some '/') (hsign : inner.head? ≠ some '!')
    (hcomment : ¬ LooksLikeComment inner) (hslashes : ¬ IsSlashes (bodyOf (dropEnd '\n' line))) :
    rebase outer (rebase inner line) = rebase (outer ++ '/' :: inner) line ∧
      lineKind (rebase inner line) = lineKind line ∧
      ∀ negated, lineKind line = .pattern negated → ∃ body, IsTied body ∧
        rebase inner line = signed negated body ∧
        rebase (outer ++ '/' :: inner) line = signed negated (outer ++ '/' :: body) := by
  rcases hasBody_or_kept line with ⟨negated, h⟩ | ⟨hkind, hkept⟩
  · -- the rewritten line has a body again, which is tied
    generalize bodyOf (dropEnd '\n' line) = body at h hslashes
    have hrebased := h.rebased hinner hsign hcomment
    have htied : IsTied (rebaseBody inner body) := isTied_rebaseBody hslashes
    have hhead : (rebaseBody inner body).head? ≠ some '/' := by rwa [head?_rebaseBody hinner]
    have hpath : rebase (outer ++ '/' :: inner) line =
        signed negated (outer ++ '/' :: rebaseBody inner body) := by
      rw [h.rebase_eq (by simp), rebaseBody_path]
    refine ⟨?_, hrebased.lineKind_eq.trans h.lineKind_eq.symm, fun sign hkind => ?_⟩
    · rw [hrebased.rebase_eq houter, rebaseBody_of_isTied htied hhead, hpath]
    · obtain rfl : negated = sign := LineKind.pattern.inj (h.lineKind_eq.symm.trans hkind)
      exact ⟨_, htied, h.rebase_eq hinner, hpath⟩
  · refine ⟨?_, by rw [hkept, lineKind_dropEnd], fun negated h => absurd h (hkind negated)⟩
    calc rebase outer (rebase inner line) = rebase outer line := by rw [hkept inner, rebase_dropEnd]
      _ = rebase (outer ++ '/' :: inner) line := by rw [hkept outer, hkept]

/-- A slash alone does not tie the name in front of it. -/
example : rebase "lib".toList (rebase "gen".toList ['/']) = "lib/**/gen/".toList ∧
    rebase "lib/gen".toList ['/'] = "lib/gen/".toList := by decide

/-- A negated name with an exclamation mark of its own, in directories with blanks and slashes at
the ends of their names. -/
theorem rebase_along_path_of_signs :
    let outer := "a b/".toList
    let inner := "  c//".toList
    let line := "!!x/\n".toList
    (outer ≠ [] ∧ inner ≠ [] ∧ inner.head? ≠ some '/' ∧ inner.head? ≠ some '!' ∧
      ¬ LooksLikeComment inner ∧ ¬ IsSlashes (bodyOf (dropEnd '\n' line))) ∧
    rebase outer (rebase inner line) = rebase (outer ++ '/' :: inner) line ∧
    rebase inner line = "!  c///**/!x/".toList := by
  intro outer inner line
  have houter : outer ≠ [] := by decide
  have hinner : inner ≠ [] := by decide
  have hrelative : inner.head? ≠ some '/' := by decide
  have hsign : inner.head? ≠ some '!' := by decide
  have hcomment : ¬ LooksLikeComment inner := by decide
  have hslashes : ¬ IsSlashes (bodyOf (dropEnd '\n' line)) := by decide
  obtain ⟨heq, -, -⟩ := rebase_along_path houter hinner hrelative hsign hcomment hslashes
  exact ⟨⟨houter, hinner, hrelative, hsign, hcomment, hslashes⟩, heq, by decide⟩

end

end Ignore

end GeneratedCode
