import Mathlib.Tactic
import GeneratedCode.Cache.Classifier
import GeneratedCode.Proofs.Cache.Slot
import GeneratedCode.Proofs.Tree.Root

/-!
The answer for a tree.

`Tree.verdict` is the answer as a function of the path and the source of the tree, and so of what
stays the same when the tree is visited. It is what the usual tests find (`judge_usual`), and what
is found without a cache (`uncached_eq_verdict`).
-/

namespace GeneratedCode

open Cache

namespace Tree

/-- Whether a tree is generated code, from its path and its source. -/
def verdict (disk : Reader) (tree : Tree) : Except Failure Bool :=
  if FileName.isGenerated tree.filePath then .ok true
  else (tree.source.root disk).map Root.isSigned

/-- The answer for a tree without a cache, from the test of its name and the scan of its comments,
which nothing cancels. -/
def uncached (disk : Reader) (tree : Tree) : Except Failure Bool :=
  if FileName.isGenerated tree.filePath then .ok true
  else ((Marker.hasMarker (getRoot disk)).outcome ⟨tree, .unlimited⟩).1

lemma uncached_eq_verdict {disk : Reader} {tree : Tree} (h : tree.Faithful disk) :
    tree.uncached disk = tree.verdict disk := by
  have hyields := @yields_hasMarker disk ⟨tree, .unlimited⟩ h
  rw [uncached, verdict, (hyields.unlimited rfl fun n _ => by simp [Call.unlimited]).1]

/-- The usual tests find the verdict, unless they are cancelled, and leave the tree faithful. -/
lemma judge_usual {disk : Reader} {visit : Visit Tree} (h : visit.tree.Faithful disk) :
    let judged := Slot.judge visit.tree.filePath (Classifier.byName {})
      (Classifier.byComment {} disk) visit
    (judged.1 = visit.tree.verdict disk ∨ judged.1 = .error .cancelled) ∧
      judged.2.tree.verdict disk = visit.tree.verdict disk ∧ judged.2.tree.Faithful disk := by
  have hyields := yields_hasMarker h
  cases hname : FileName.isGenerated visit.tree.filePath with
  | true =>
      rw [Slot.judge, Classifier.byName, hname]
      refine ⟨.inl ?_, rfl, h⟩
      rw [verdict, if_pos hname]
  | false =>
      rw [Slot.judge, Classifier.byName, hname]
      refine ⟨?_, ?_, hyields.faithful⟩
      · rw [verdict, if_neg (by simp [hname])]
        exact hyields.outcome
      · rw [verdict, verdict, Classifier.byComment, hyields.filePath, hyields.source]

/-- A call without a limit lets the usual tests find the verdict, and has no limit afterwards. -/
lemma judge_usual_unlimited {disk : Reader} {visit : Visit Tree} (h : visit.tree.Faithful disk)
    (hcall : visit.call.allowed = none)
    (hfires : ∀ n ∈ visit.tree.source.fires?, visit.call.token ≠ some n) :
    let judged := Slot.judge visit.tree.filePath (Classifier.byName {})
      (Classifier.byComment {} disk) visit
    judged.1 = visit.tree.verdict disk ∧ judged.2.call.allowed = none := by
  cases hname : FileName.isGenerated visit.tree.filePath with
  | true =>
      rw [Slot.judge, Classifier.byName, hname, verdict, if_pos hname]
      exact ⟨rfl, hcall⟩
  | false =>
      rw [Slot.judge, Classifier.byName, hname, verdict, if_neg (by simp [hname])]
      exact (yields_hasMarker h).unlimited hcall hfires

/-- What yields something keeps the tree faithful and the verdict on it as it is. -/
lemma keeps_of_yields {α : Type} {disk : Reader} {visit : Visit Tree} {result : Except Failure α}
    {x : Attempt (Visit Tree) α} (h : visit.Yields disk result x) :
    (x.outcome visit).2.tree.Faithful disk ∧
      (x.outcome visit).2.tree.verdict disk = visit.tree.verdict disk := by
  refine ⟨h.faithful, ?_⟩
  rw [verdict, verdict, h.filePath, h.source]

end Tree

end GeneratedCode
