import Mathlib.Tactic
import GeneratedCode.Cache.Classifier
import GeneratedCode.Proofs.Cache.Slot
import GeneratedCode.Proofs.Tree.Pace
import GeneratedCode.Proofs.Tree.Reading

/-!
What asking a tree may change about it.

A tree over a text or a file may take on a root, once, and nothing else ever changes about it
(`Tree.Grows`). It takes on the root that its source gives at that moment, whatever was tried
before; a call that fails on the way leaves it as it was. Once it has a root, the root is all that
the tree gives, and what is on disk is not looked at any more.

* `outcome_getRoot_of_some`: a root that is kept is given for nothing.
* `grown_getRoot`, `grown_hasMarker`: asking for the root or the marker only lets a tree grow.
* `marker?_of_hasMarker`, `settled?_of_judge`: what is found about a tree is settled from then on
  (`Later.marker?`, `Later.settled?`).
-/

namespace GeneratedCode

/-! ### Sources that are read -/

namespace Source

/-- Whether the first token is read from a text, or from a file in pieces that are not empty. -/
def IsRead : Source → Prop
  | .text _ => True
  | .file _ _ size => 1 ≤ size
  | .host _ => False

/-- Whether that is the whole text of a source. -/
def Holds (disk : Reader) : Source → Text → Prop
  | .text content, t => content = t
  | .file path encoding _, t => Has disk path encoding t
  | .host _, _ => False

/-- The root of a source that is read is the first token of its whole text. -/
lemma exists_holds_of_root {disk : Reader} {source : Source} {root : Option Root}
    (hread : source.IsRead) (hroot : source.root disk = .ok root) :
    ∃ t token, source.Holds disk t ∧ ((Token.read t).outcome .unlimited).1 = .ok token ∧
      root = some ⟨some token⟩ := by
  cases source with
  | text content =>
      exact ⟨content, _, rfl, Token.outcome_read_unlimited content, (Except.ok.inj hroot).symm⟩
  | host tree => exact hread.elim
  | file path encoding size =>
      rw [Source.root] at hroot
      cases htoken : fileToken disk path encoding size with
      | error failure =>
          rw [htoken] at hroot
          contradiction
      | ok token =>
          obtain ⟨t, hholds, rfl⟩ := exists_of_fileToken hread htoken
          rw [htoken] at hroot
          exact ⟨t, _, hholds, Token.outcome_read_unlimited t, (Except.ok.inj hroot).symm⟩

end Source

namespace Tree

open Source

variable {disk : Reader} {before mid after : Tree} {α β : Type}

/-! ### Growth -/

/-- What may become of a tree while what is on disk does not change: its source stays, and if that
is read, nothing changes about the tree but that it may take on the root of its source. -/
structure Grows (disk : Reader) (before after : Tree) : Prop where
  source_eq : after.source = before.source
  eq_or : before.source.IsRead → after = before ∨ before.root = none ∧
    ∃ root, before.source.root disk = .ok (some root) ∧ after = { before with root := some root }

/-- A tree that stays as it is. -/
lemma Grows.refl (disk : Reader) (tree : Tree) : Grows disk tree tree :=
  ⟨rfl, fun _ => .inl rfl⟩

lemma Grows.trans (h : Grows disk before mid) (h' : Grows disk mid after) :
    Grows disk before after := by
  refine ⟨h'.source_eq.trans h.source_eq, fun hread => ?_⟩
  rcases h.eq_or hread with rfl | ⟨hnone, root, hroot, rfl⟩
  · exact h'.eq_or hread
  · rcases h'.eq_or hread with rfl | ⟨hkept, -⟩
    · exact .inr ⟨hnone, root, hroot, rfl⟩
    · contradiction

/-- Whether a computation only lets the tree grow that it visits. -/
def Grown (disk : Reader) (x : Attempt (Visit Tree) α) : Prop :=
  ∀ visit, Grows disk visit.tree (x.outcome visit).2.tree

namespace Grown

lemma pure (a : α) : Grown disk (Pure.pure a) :=
  fun visit => Grows.refl disk visit.tree

/-- A computation that does not look at the tree. -/
lemma onCall (x : Attempt Call α) : Grown disk (Visit.onCall x) :=
  fun visit => Grows.refl disk visit.tree

lemma bind {x : Attempt (Visit Tree) α} {f : α → Attempt (Visit Tree) β} (hx : Grown disk x)
    (hf : ∀ a, Grown disk (f a)) : Grown disk (x >>= f) := by
  intro visit
  have hfirst := hx visit
  rw [Attempt.outcome_bind]
  cases hout : x.outcome visit with
  | mk result mid =>
    rw [hout] at hfirst
    cases result with
    | error failure => exact hfirst
    | ok a => exact hfirst.trans (hf a mid)

end Grown

/-! ### The root -/

/-- A tree whose source is read remembers what it finds there. -/
lemma exists_remember (disk : Reader) {source : Source} (hread : source.IsRead) :
    ∃ find token, Steady find token ∧ source.root disk = token.map rootOf ∧
      ∀ visit : Visit Tree, visit.tree.source = source →
        (getRoot disk).outcome visit = (remember find).outcome visit := by
  cases source with
  | text content =>
      exact ⟨_, _, Token.steady_read content, rfl, fun visit => outcome_getRoot⟩
  | file path encoding size =>
      exact ⟨_, _, steady_readToken path encoding size, rfl, fun visit => outcome_getRoot⟩
  | host tree => exact hread.elim

/-- A tree that keeps a root gives it for nothing, whatever is on disk. -/
lemma outcome_getRoot_of_some (visit : Visit Tree) {root : Root}
    (hread : visit.tree.source.IsRead) (hroot : visit.tree.root = some root) (disk : Reader) :
    (getRoot disk).outcome visit = (.ok (some root), visit) := by
  obtain ⟨find, -, -, -, hfind⟩ := exists_remember disk hread
  rw [hfind visit rfl, outcome_remember_of_some hroot]

/-- A tree that keeps no root either takes on the one of its source, which it gives, or stays as it
is, and the call fails. -/
lemma outcome_getRoot_of_none {visit : Visit Tree} (hread : visit.tree.source.IsRead)
    (hroot : visit.tree.root = none) :
    (∃ root, ((getRoot disk).outcome visit).1 = .ok (some root) ∧
      visit.tree.source.root disk = .ok (some root) ∧
      ((getRoot disk).outcome visit).2.tree = { visit.tree with root := some root }) ∨
    ∃ failure, ((getRoot disk).outcome visit).1 = .error failure ∧
      ((getRoot disk).outcome visit).2.tree = visit.tree := by
  obtain ⟨find, token, hsteady, hsource, hfind⟩ := exists_remember disk hread
  have hfound := hsteady.outcome visit.call
  rw [hfind visit rfl, outcome_remember_of_none hroot]
  cases hout : find.outcome visit.call with
  | mk result call =>
    rw [hout] at hfound
    cases result with
    | error failure => exact .inr ⟨failure, rfl, rfl⟩
    | ok found =>
        rcases hfound with rfl | hcancelled
        · exact .inl ⟨_, rfl, hsource, rfl⟩
        · contradiction

/-- A root that is given is kept from then on. -/
lemma root_of_getRoot {visit : Visit Tree} (hread : visit.tree.source.IsRead) {root : Option Root}
    (h : ((getRoot disk).outcome visit).1 = .ok root) :
    ((getRoot disk).outcome visit).2.tree.root = root ∧ root.isSome = true := by
  cases hroot : visit.tree.root with
  | some kept =>
      rw [outcome_getRoot_of_some visit hread hroot] at h ⊢
      obtain rfl := Except.ok.inj h
      exact ⟨hroot, rfl⟩
  | none =>
      rcases outcome_getRoot_of_none hread hroot with ⟨found, hfound, -, hafter⟩ | ⟨_, hfailed, -⟩
      · obtain rfl := Except.ok.inj (hfound.symm.trans h)
        rw [hafter]
        exact ⟨rfl, rfl⟩
      · rw [hfailed] at h
        contradiction

/-- A call that fails leaves the tree as it was. -/
lemma tree_of_getRoot_error (visit : Visit Tree) (hread : visit.tree.source.IsRead)
    {failure : Failure} (h : ((getRoot disk).outcome visit).1 = .error failure) :
    ((getRoot disk).outcome visit).2.tree = visit.tree := by
  cases hroot : visit.tree.root with
  | some kept =>
      rw [outcome_getRoot_of_some visit hread hroot] at h
      contradiction
  | none =>
      rcases outcome_getRoot_of_none hread hroot with ⟨found, hfound, -⟩ | ⟨_, -, hafter⟩
      · rw [hfound] at h
        contradiction
      · exact hafter

lemma source_remember (find : Attempt Call Token) (visit : Visit Tree) :
    ((remember find).outcome visit).2.tree.source = visit.tree.source := by
  cases hroot : visit.tree.root with
  | some kept => rw [outcome_remember_of_some hroot]
  | none =>
      rw [outcome_remember_of_none hroot]
      rcases find.outcome visit.call with ⟨_ | _, _⟩ <;> rfl

lemma source_getRoot (disk : Reader) (visit : Visit Tree) :
    ((getRoot disk).outcome visit).2.tree.source = visit.tree.source := by
  cases hsource : visit.tree.source <;> rw [outcome_getRoot hsource]
  · exact (source_remember _ visit).trans hsource
  · exact (source_remember _ visit).trans hsource
  · exact hsource

/-- **The root**: asking a tree for its root only lets it grow. -/
lemma grown_getRoot (disk : Reader) : Grown disk (getRoot disk) := by
  intro visit
  refine ⟨source_getRoot disk visit, fun hread => ?_⟩
  cases hroot : visit.tree.root with
  | some kept =>
      rw [outcome_getRoot_of_some visit hread hroot]
      exact .inl rfl
  | none =>
      rcases @outcome_getRoot_of_none disk visit hread hroot with
        ⟨root, -, hsource, hafter⟩ | ⟨_, -, hafter⟩
      · exact .inr ⟨rfl, root, hsource, hafter⟩
      · exact .inl hafter

/-! ### The marker -/

/-- **The marker**: so does looking for its marker. -/
lemma grown_hasMarker (disk : Reader) : Grown disk (Marker.hasMarker (getRoot disk)) := by
  refine (Grown.onCall check).bind fun _ => (grown_getRoot disk).bind fun root => ?_
  rcases root with _ | ⟨_ | token⟩
  · exact Grown.pure false
  · exact Grown.pure false
  · cases hleading : token.hasLeading <;> simp only [hleading]
    · exact Grown.pure false
    · exact Grown.onCall _

/-- What the root says that a tree keeps. -/
def marker? (tree : Tree) : Option Bool :=
  tree.root.map fun root => Root.isSigned (some root)

/-- The marker that is found is the one of the root that the tree then keeps. -/
lemma marker?_of_hasMarker {visit after : Visit Tree} (hread : visit.tree.source.IsRead)
    {signed : Bool}
    (h : (Marker.hasMarker (getRoot disk)).outcome visit = (.ok signed, after)) :
    after.tree.marker? = some signed := by
  obtain ⟨⟨⟩, asked, hasked, h⟩ := Attempt.outcome_bind_eq_ok_iff.1 h
  obtain rfl := Visit.eq_of_check hasked
  obtain ⟨root, found, hfound, h⟩ := Attempt.outcome_bind_eq_ok_iff.1 h
  obtain ⟨hkept, hsome⟩ := @root_of_getRoot disk { visit with call := visit.call.tick } hread root
    (by rw [hfound])
  rw [hfound] at hkept
  obtain ⟨root, rfl⟩ := Option.isSome_iff_exists.1 hsome
  suffices hsame : after.tree = found.tree ∧ signed = Root.isSigned (some root) by
    rw [marker?, hsame.1, hkept, hsame.2]
    rfl
  rcases root with _ | token
  · obtain ⟨hsigned, rfl⟩ := Prod.mk.inj h
    exact ⟨rfl, (Except.ok.inj hsigned).symm⟩
  · cases hleading : token.hasLeading <;> simp only [hleading, Root.isSigned] at h ⊢
    · obtain ⟨hsigned, rfl⟩ := Prod.mk.inj h
      exact ⟨rfl, (Except.ok.inj hsigned).symm⟩
    · rw [if_true, Visit.onCall, Attempt.outcome_focus] at h
      obtain ⟨hsigned, rfl⟩ := Prod.mk.inj h
      refine ⟨rfl, ?_⟩
      rcases (Marker.steady_scan_zero token.leading).outcome found.call with hscan | hscan
      · exact Except.ok.inj (hsigned.symm.trans hscan)
      · rw [hscan] at hsigned
        contradiction

/-! ### What is settled -/

/-- What a tree says of itself from now on: its name may tell that it is generated code, and if not,
the root that it keeps. -/
def settled? (tree : Tree) : Option Bool :=
  if FileName.isGenerated tree.filePath then some true else tree.marker?

/-- What may become of a tree whose source is read, whatever becomes of what is on disk: it stays as
it is, or takes on a root. -/
def Later (before after : Tree) : Prop :=
  after = before ∨ before.root = none ∧ ∃ root, after = { before with root := some root }

lemma Grows.later (h : Grows disk before after) (hread : before.source.IsRead) :
    before.Later after :=
  (h.eq_or hread).imp_right fun ⟨hnone, root, _, hafter⟩ => ⟨hnone, root, hafter⟩

namespace Later

lemma trans (h : before.Later mid) (h' : mid.Later after) : before.Later after := by
  rcases h with rfl | ⟨hnone, root, rfl⟩
  · exact h'
  · rcases h' with rfl | ⟨hkept, -⟩
    · exact .inr ⟨hnone, root, rfl⟩
    · contradiction

/-- A tree that keeps a root stays as it is. -/
lemma eq_of_root (h : before.Later after) {root : Root} (hroot : before.root = some root) :
    after = before := by
  rcases h with hsame | ⟨hnone, -⟩
  · exact hsame
  · rw [hroot] at hnone
    contradiction

lemma marker? (h : before.Later after) {signed : Bool} (hsigned : before.marker? = some signed) :
    after.marker? = some signed := by
  obtain ⟨root, hroot, -⟩ := Option.map_eq_some_iff.1 hsigned
  rw [h.eq_of_root hroot, hsigned]

/-- What is settled stays so. -/
lemma settled? (h : before.Later after) {b : Bool} (hb : before.settled? = some b) :
    after.settled? = some b := by
  have hpath : after.filePath = before.filePath := by
    rcases h with rfl | ⟨-, root, rfl⟩ <;> rfl
  unfold Tree.settled? at hb ⊢
  rw [hpath]
  split
  · next hname => rwa [if_pos hname] at hb
  · next hname =>
      rw [if_neg hname] at hb
      exact h.marker? hb

end Later

open Cache

/-- The usual tests only let a tree grow, and settle what they find. -/
lemma grows_judge (disk : Reader) (path : Text) (visit : Visit Tree) :
    Grows disk visit.tree (Slot.judge path (Classifier.byName {})
      (Classifier.byComment {} disk) visit).2.tree := by
  rw [Slot.judge, Classifier.byName]
  cases FileName.isGenerated path with
  | true => exact Grows.refl disk visit.tree
  | false => exact grown_hasMarker disk visit

lemma settled?_of_judge (visit : Visit Tree) (hread : visit.tree.source.IsRead) {b : Bool}
    {after : Visit Tree}
    (h : Slot.judge visit.tree.filePath (Classifier.byName {}) (Classifier.byComment {} disk)
      visit = (.ok b, after)) : after.tree.settled? = some b := by
  have hgrows := grows_judge disk visit.tree.filePath visit
  rw [h] at hgrows
  have hpath : after.tree.filePath = visit.tree.filePath := by
    rcases hgrows.eq_or hread with hsame | ⟨-, root, -, hsame⟩ <;> rw [hsame]
  rw [settled?, hpath]
  rw [Slot.judge, Classifier.byName] at h
  cases hname : FileName.isGenerated visit.tree.filePath with
  | true =>
      rw [hname] at h
      rw [if_pos rfl]
      exact congrArg some (Except.ok.inj (Prod.mk.inj h).1)
  | false =>
      rw [hname] at h
      rw [if_neg (by simp)]
      exact marker?_of_hasMarker hread h

end Tree

end GeneratedCode
