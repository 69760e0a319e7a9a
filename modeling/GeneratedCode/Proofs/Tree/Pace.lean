import Mathlib.Tactic
import GeneratedCode.Proofs.Tree.Root

/-!
How many checks it takes to ask a tree.

A tree is asked by `getRoot`, which may be the host's own. What is needed of it is that it deals
with its call in the cooperative way: it makes some checks, and one that fails ends it
(`Tree.Cooperates`). The trees of the library all do so (`Tree.cooperates_getRoot`).

* `paced_getRoot`: a tree that keeps its root makes no check, any other those of its source.
* `paced_hasMarker_of_ok`: the scan for a marker makes one check, those of the tree, and one for
  each piece of trivia that it looks at.
-/

namespace GeneratedCode

variable {τ α : Type}

/-! ### Visits -/

/-- The visits to a tree by calls that have no token of their own to be fired. -/
def Visit.At (tree : τ) (visit : Visit τ) : Prop :=
  visit.tree = tree ∧ visit.call.token = none

/-- A computation that does not look at the tree makes as many checks on a visit. -/
lemma Visit.paced_onCall {start : Visit τ → Prop} {x : Attempt Call α} {n : ℕ}
    {result : Except Failure α} (hx : Costs x n result) :
    Paced Visit.call start (Visit.onCall x) n result :=
  Paced.focus (fun _ _ => rfl) hx

/-- A check on a visit leaves the tree as it is. -/
lemma Visit.eq_of_check {visit after : Visit τ}
    (h : (Visit.onCall check).outcome visit = (.ok (), after)) :
    after = { visit with call := visit.call.tick } := by
  rw [Visit.onCall, Attempt.outcome_focus, outcome_check] at h
  exact (Prod.mk.inj h).2.symm

lemma Visit.at_of_check {tree : τ} {visit after : Visit τ} (h : Visit.At tree visit)
    (hout : (Visit.onCall check).outcome visit = (.ok (), after)) : Visit.At tree after := by
  rw [Visit.eq_of_check hout]
  exact h

namespace Tree

open Source

/-- Asking for the root comes to some checks and then to one outcome, unless one of the checks
fails, which ends it there. -/
def Cooperates (getRoot : Attempt (Visit τ) (Option Root)) (tree : τ) : Prop :=
  ∃ n result, Paced Visit.call (Visit.At tree) getRoot n result

/-! ### The root -/

variable {disk : Reader}

/-- How many checks it takes to find the root in a source. -/
def sourceTurns (disk : Reader) : Source → ℕ
  | .text content => Trivia.leadingTurns content
  | .file path encoding size => fileTurns disk path encoding size
  | .host _ => 0

/-- What a tree gives for its root: the one that it keeps, or else the one of its source, which is
made anew each time if the tree is the host's. -/
def answer (disk : Reader) (tree : Tree) : Except Failure (Option Root) :=
  match tree.source, tree.root with
  | .host tree, _ => tree.rootOf
  | _, some root => .ok (some root)
  | source, none => source.root disk

/-- How many checks asking a tree for its root makes. -/
def turns (disk : Reader) (tree : Tree) : ℕ :=
  match tree.root with
  | some _ => 0
  | none => sourceTurns disk tree.source

lemma paced_remember {find : Attempt Call Token} {n : ℕ} {token : Except Failure Token}
    (hfind : Costs find n token) (tree : Tree) :
    Paced Visit.call (Visit.At tree) (remember find)
      (match tree.root with | some _ => 0 | none => n)
      (match tree.root with | some root => .ok (some root) | none => token.map rootOf) := by
  cases hroot : tree.root with
  | some root =>
      refine Paced.of_reaches fun visit hvisit => ⟨visit, ?_, rfl, rfl, rfl⟩
      obtain ⟨rfl, -⟩ := hvisit
      exact outcome_remember_of_some hroot
  | none =>
      constructor
      · rintro visit ⟨rfl, -⟩ haffords
        obtain ⟨call, hcall, hreaches⟩ := hfind.afforded visit.call trivial haffords
        rw [outcome_remember_of_none hroot, hcall]
        cases token <;> exact ⟨_, rfl, hreaches⟩
      · rintro visit ⟨rfl, -⟩ hpoor
        obtain ⟨call, hcall, hreaches⟩ := hfind.overdrawn visit.call trivial hpoor
        rw [outcome_remember_of_none hroot, hcall]
        exact ⟨_, rfl, hreaches⟩

/-- **The root**: asking a tree for its root makes the checks of its source, or none. -/
lemma paced_getRoot (disk : Reader) (tree : Tree) :
    Paced Visit.call (Visit.At tree) (getRoot disk) (tree.turns disk) (tree.answer disk) := by
  have hfind (visit : Visit Tree) (hvisit : Visit.At tree visit) :
      (getRoot disk).outcome visit = (findRoot disk tree.source).outcome visit :=
    outcome_getRoot (congrArg Tree.source hvisit.1)
  refine Paced.congr ?_ hfind
  rw [turns, answer]
  cases hsource : tree.source with
  | text content =>
      have h := paced_remember (Token.costs_read content) tree
      cases hroot : tree.root <;> rw [hroot] at h <;> exact h
  | file path encoding size =>
      have h := paced_remember (@costs_readToken disk path encoding size) tree
      cases hroot : tree.root <;> rw [hroot] at h <;> exact h
  | host own =>
      have hturns : (match tree.root with
          | some _ => 0
          | none => sourceTurns disk (.host own)) = 0 := by
        cases tree.root <;> rfl
      rw [hturns]
      refine Paced.of_reaches fun visit hvisit => ?_
      obtain ⟨hresult, htoken, hchecks, hallowed⟩ := outcome_hostRoot own visit.call
      have hlimit := hallowed fun n _ => by
        rw [hvisit.2]
        simp
      exact ⟨_, Prod.ext hresult rfl, hchecks, hlimit, htoken⟩

/-- The trees of the library deal with their calls in the cooperative way. -/
lemma cooperates_getRoot (disk : Reader) (tree : Tree) : Cooperates (getRoot disk) tree :=
  ⟨_, _, paced_getRoot disk tree⟩

/-! ### The marker -/

end Tree

/-- How many checks the scan for a marker makes of a root, if there is one. -/
def Root.scanTurns (root : Option Root) : ℕ :=
  match root with
  | none => 0
  | some root =>
      match root.firstToken with
      | none => 0
      | some token => if token.hasLeading then Marker.scanTurns 0 token.leading else 0

namespace Marker

variable {getRoot : Attempt (Visit τ) (Option Root)} {tree : τ} {n : ℕ}

/-- **The marker**, if there is a root: a check, those of the tree, and those of the scan. -/
lemma paced_hasMarker_of_ok {root : Option Root}
    (h : Paced Visit.call (Visit.At tree) getRoot n (.ok root)) :
    Paced Visit.call (Visit.At tree) (hasMarker getRoot) (1 + (n + Root.scanTurns root))
      (.ok (Root.isSigned root)) := by
  refine (Visit.paced_onCall Paced.check).bind (fun _ _ hvisit => Visit.at_of_check hvisit) ?_
  refine h.bind (fun _ _ _ _ => trivial) (?_ : Paced Visit.call (fun _ => True) _ _ _)
  rcases root with _ | ⟨_ | token⟩
  · exact Paced.pure false
  · exact Paced.pure false
  · simp only [Root.isSigned, Root.scanTurns]
    cases token.hasLeading with
    | false => exact Paced.pure false
    | true => exact Visit.paced_onCall (costs_scan_zero token.leading)

/-- If asking for the root fails, so does the scan, after a check and those of the tree. -/
lemma paced_hasMarker_of_error {failure : Failure}
    (h : Paced Visit.call (Visit.At tree) getRoot n (.error failure)) :
    Paced Visit.call (Visit.At tree) (hasMarker getRoot) (1 + n) (.error failure) :=
  (Visit.paced_onCall Paced.check).bind (fun _ _ hvisit => Visit.at_of_check hvisit) h.bind_error

/-- The scan for a marker in a cooperative tree comes to some checks and then to one outcome. -/
lemma exists_paced_hasMarker (h : Tree.Cooperates getRoot tree) :
    ∃ n result, Paced Visit.call (Visit.At tree) (hasMarker getRoot) n result := by
  obtain ⟨n, failure | root, h⟩ := h
  · exact ⟨_, _, paced_hasMarker_of_error h⟩
  · exact ⟨_, _, paced_hasMarker_of_ok h⟩

/-- The scan is cancelled at a check of its own, or fails as asking for the root does. -/
lemma eq_cancelled_or_of_hasMarker {visit : Visit τ} {failure : Failure}
    (h : ((hasMarker getRoot).outcome visit).1 = .error failure) :
    failure = .cancelled ∨
      (getRoot.outcome { visit with call := visit.call.tick }).1 = .error failure := by
  have hcall {α : Type} {x : Attempt Call α} {m : ℕ} {a : α} (hx : Costs x m (.ok a))
      {visit : Visit τ} (hfail : ((Visit.onCall x).outcome visit).1 = .error failure) :
      failure = .cancelled := by
    rcases hx.steady.outcome visit.call with hok | hcancelled
    · exact absurd (hok.symm.trans hfail) (by simp)
    · exact Except.error.inj (hfail.symm.trans hcancelled)
  rcases Attempt.outcome_bind_eq_error_iff.1 h with hcheck | ⟨⟨⟩, asked, hasked, h⟩
  · exact .inl (hcall Paced.check hcheck)
  obtain rfl := Visit.eq_of_check hasked
  rcases Attempt.outcome_bind_eq_error_iff.1 h with hroot | ⟨root, after, -, h⟩
  · exact .inr hroot
  rcases root with _ | ⟨_ | token⟩
  · contradiction
  · contradiction
  · cases hleading : token.hasLeading <;> simp only [hleading] at h
    · contradiction
    · exact .inl (hcall (costs_scan_zero token.leading) h)

end Marker

end GeneratedCode
