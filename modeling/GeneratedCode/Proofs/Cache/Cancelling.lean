import Mathlib.Tactic
import GeneratedCode.Cache.Classifier
import GeneratedCode.Proofs.Cache.Slot
import GeneratedCode.Proofs.Tree.Pace

/-!
Asking a slot with a call that may be cancelled.

Whether a tree is generated code is found out by making some checks, unless the answer is kept or
the name of the file tells it. A call that allows as many checks gets the same answer, or the same
failure, and leaves the same table as one that nothing cancels; any other is cancelled at the first
check that it cannot pay. `Slot.cancelling_is_exact` is the main result. It has three ingredients:

* the scan of a cooperative tree makes a fixed number of checks (`Marker.exists_paced_hasMarker`);
* what a miss leaves in the slot depends on its result alone (`store_of_ask`);
* a failure is one of the scan, since making the next table never fails
  (`outcome_isGenerated_of_miss`).

A host's tree need not cooperate. If it takes a check that fails for an answer, so does the slot,
which keeps it (`Slot.rootBehindCheck`).
-/

namespace GeneratedCode

open Cache

namespace Cache.Slot

variable {τ : Type}

/-- What a call is answered that asks a slot about a tree, and what it leaves behind: the tests are
the usual ones, and the tree is asked for its root by `getRoot`. -/
def ask (alive : Handle → Bool) (slot : Slot) (handle : Handle) (path : Text)
    (getRoot : Attempt (Visit τ) (Option Root)) (tree : τ) (call : Call) :
    Except Failure Bool × Inquiry Slot (Visit τ) :=
  (isGenerated alive handle path (Classifier.byName {}) (Marker.hasMarker getRoot)).outcome
    ⟨slot, [], ⟨tree, call⟩⟩

/-- Whether failing does no harm: the slot is as it was, and what the call fails with comes from its
token or from asking the tree for its root. -/
structure FailsSafely (slot : Slot) (getRoot : Attempt (Visit τ) (Option Root)) (tree : τ)
    (asked : Call → Except Failure Bool × Inquiry Slot (Visit τ)) : Prop where
  store_eq : ∀ call failure, (asked call).1 = .error failure → (asked call).2.store = slot
  failure_eq : ∀ call failure, (asked call).1 = .error failure →
    failure = .cancelled ∨ (getRoot.outcome ⟨tree, call.tick⟩).1 = .error failure

/-- Whether cancelling is exact: of the `n` checks that a call makes which nothing cancels, one that
allows fewer is cancelled at the first check that it does not allow, and one that allows them comes
to the same end. -/
structure CancelsExactly (asked : Call → Except Failure Bool × Inquiry Slot (Visit τ)) (n : ℕ) :
    Prop where
  checks_eq : (asked .unlimited).2.inner.call.checks = n
  enough : ∀ k, n ≤ k → (asked (.allowing k)).1 = (asked .unlimited).1 ∧
    (asked (.allowing k)).2.inner.call.checks = n ∧
    (asked (.allowing k)).2.store = (asked .unlimited).2.store
  short : ∀ k < n, (asked (.allowing k)).1 = .error .cancelled ∧
    (asked (.allowing k)).2.inner.call.checks = k + 1

variable {alive : Handle → Bool} {slot : Slot} {handle : Handle} {path : Text}
  {getRoot : Attempt (Visit τ) (Option Root)} {tree : τ}

/-! ### What a miss comes to -/

/-- A miss in parts: its result, what it leaves of the tree, and of the slot. -/
lemma ask_of_miss (h : slot.lookup? handle = none) (call : Call) :
    (ask alive slot handle path getRoot tree call).1 =
        (judge path (Classifier.byName {}) (Marker.hasMarker getRoot) ⟨tree, call⟩).1 ∧
      (ask alive slot handle path getRoot tree call).2.inner =
        (judge path (Classifier.byName {}) (Marker.hasMarker getRoot) ⟨tree, call⟩).2 ∧
      (ask alive slot handle path getRoot tree call).2.store =
        match (judge path (Classifier.byName {}) (Marker.hasMarker getRoot) ⟨tree, call⟩).1 with
        | .ok answer => slot.keeping alive handle answer
        | .error _ => slot := by
  have hmiss : (Inquiry.mk slot [] (Visit.mk tree call)).store.lookup? handle = none := h
  rw [ask, outcome_isGenerated_of_miss hmiss]
  rcases judge path (Classifier.byName {}) (Marker.hasMarker getRoot) ⟨tree, call⟩ with
    ⟨failure | answer, after⟩ <;> exact ⟨rfl, rfl, rfl⟩

lemma judge_of_name (h : FileName.isGenerated path = true) (visit : Visit τ) :
    judge path (Classifier.byName {}) (Marker.hasMarker getRoot) visit = (.ok true, visit) := by
  rw [judge, Classifier.byName, h]

lemma judge_of_not_name (h : FileName.isGenerated path = false) (visit : Visit τ) :
    judge path (Classifier.byName {}) (Marker.hasMarker getRoot) visit =
      (Marker.hasMarker getRoot).outcome visit := by
  rw [judge, Classifier.byName, h]

/-- What is left in the slot depends on the result alone. -/
lemma store_of_ask (alive : Handle → Bool) (slot : Slot) (handle : Handle) (path : Text)
    (getRoot : Attempt (Visit τ) (Option Root)) (tree : τ) :
    ∃ keep : Except Failure Bool → Slot, (∀ failure, keep (.error failure) = slot) ∧
      ∀ call, (ask alive slot handle path getRoot tree call).2.store =
        keep (ask alive slot handle path getRoot tree call).1 := by
  cases hlookup : slot.lookup? handle with
  | some answer =>
      refine ⟨fun _ => slot, fun _ => rfl, fun call => ?_⟩
      rw [ask, outcome_isGenerated_of_lookup? hlookup]
  | none =>
      refine ⟨fun result => match result with
        | .ok answer => slot.keeping alive handle answer
        | .error _ => slot, fun _ => rfl, fun call => ?_⟩
      obtain ⟨hresult, -, hstore⟩ := @ask_of_miss τ alive slot handle path getRoot tree hlookup call
      rw [hstore, hresult]

/-! ### Failing -/

/-- A call that fails leaves the slot as it was, whatever the tree does, and what it fails with is
never a matter of the table. -/
lemma failsSafely_ask (alive : Handle → Bool) (slot : Slot) (handle : Handle) (path : Text)
    (getRoot : Attempt (Visit τ) (Option Root)) (tree : τ) :
    FailsSafely slot getRoot tree (ask alive slot handle path getRoot tree) where
  store_eq call failure hfailed := by
    obtain ⟨keep, hkeep, hstore⟩ := store_of_ask alive slot handle path getRoot tree
    rw [hstore, hfailed, hkeep]
  failure_eq call failure hfailed := by
    cases hlookup : slot.lookup? handle with
    | some answer =>
        rw [ask, outcome_isGenerated_of_lookup? hlookup] at hfailed
        contradiction
    | none =>
        rw [(ask_of_miss hlookup call).1] at hfailed
        cases hname : FileName.isGenerated path with
        | true =>
            rw [judge_of_name hname] at hfailed
            contradiction
        | false =>
            rw [judge_of_not_name hname] at hfailed
            exact Marker.eq_cancelled_or_of_hasMarker hfailed

/-! ### Cancelling -/

/-- An inquiry of that slot about that tree, by a call without a token of its own. -/
def Asks (slot : Slot) (tree : τ) (inquiry : Inquiry Slot (Visit τ)) : Prop :=
  inquiry.store = slot ∧ Visit.At tree inquiry.inner

/-- If the answer is kept, or the name of the file tells it, no check is made, whatever the tree
would do. -/
lemma exists_paced_isGenerated_of_known (alive : Handle → Bool)
    (getRoot : Attempt (Visit τ) (Option Root)) (tree : τ)
    (h : slot.lookup? handle ≠ none ∨ FileName.isGenerated path = true) :
    ∃ result, Paced (·.inner.call) (Asks slot tree)
      (isGenerated alive handle path (Classifier.byName {}) (Marker.hasMarker getRoot))
      0 result := by
  cases hlookup : slot.lookup? handle with
  | some answer =>
      refine ⟨.ok answer, Paced.of_reaches fun inquiry hinquiry => ?_⟩
      obtain ⟨rfl, -⟩ := hinquiry
      exact ⟨inquiry, outcome_isGenerated_of_lookup? hlookup, rfl, rfl, rfl⟩
  | none =>
      have hname : FileName.isGenerated path = true := h.resolve_left fun hkept => hkept hlookup
      refine ⟨.ok true, Paced.of_reaches fun inquiry hinquiry => ?_⟩
      obtain ⟨rfl, -⟩ := hinquiry
      rw [outcome_isGenerated_of_miss hlookup, judge_of_name hname]
      exact ⟨_, rfl, rfl, rfl, rfl⟩

/-- If neither is so, the checks are those of the scan. -/
lemma paced_isGenerated_of_scan (alive : Handle → Bool) {n : ℕ} {result : Except Failure Bool}
    (hlookup : slot.lookup? handle = none) (hname : FileName.isGenerated path = false)
    (hpaced : Paced Visit.call (Visit.At tree) (Marker.hasMarker getRoot) n result) :
    Paced (·.inner.call) (Asks slot tree)
      (isGenerated alive handle path (Classifier.byName {}) (Marker.hasMarker getRoot))
      n result where
  afforded := by
    rintro inquiry ⟨rfl, hvisit⟩ haffords
    obtain ⟨after, hafter, hreaches⟩ := hpaced.afforded inquiry.inner hvisit haffords
    rw [outcome_isGenerated_of_miss hlookup, judge_of_not_name hname, hafter]
    cases result <;> exact ⟨_, rfl, hreaches⟩
  overdrawn := by
    rintro inquiry ⟨rfl, hvisit⟩ hpoor
    obtain ⟨after, hafter, hreaches⟩ := hpaced.overdrawn inquiry.inner hvisit hpoor
    rw [outcome_isGenerated_of_miss hlookup, judge_of_not_name hname, hafter]
    exact ⟨_, rfl, hreaches⟩

/-- Asking a slot about a cooperative tree comes to some checks and then to one outcome. -/
lemma exists_paced_isGenerated (alive : Handle → Bool) (slot : Slot) (handle : Handle)
    (path : Text) (h : Tree.Cooperates getRoot tree) :
    ∃ n result, Paced (·.inner.call) (Asks slot tree)
      (isGenerated alive handle path (Classifier.byName {}) (Marker.hasMarker getRoot))
      n result := by
  by_cases hknown : slot.lookup? handle ≠ none ∨ FileName.isGenerated path = true
  · exact ⟨0, exists_paced_isGenerated_of_known alive getRoot tree hknown⟩
  · obtain ⟨hlookup, hname⟩ := not_or.1 hknown
    obtain ⟨n, result, hpaced⟩ := Marker.exists_paced_hasMarker h
    exact ⟨n, result, paced_isGenerated_of_scan alive (not_not.1 hlookup)
      (Bool.eq_false_iff.2 hname) hpaced⟩

/-- Where the number of checks is fixed, cancelling is exact. -/
lemma cancelsExactly_ask {n : ℕ} {result : Except Failure Bool}
    (hpaced : Paced (·.inner.call) (Asks slot tree)
      (isGenerated alive handle path (Classifier.byName {}) (Marker.hasMarker getRoot))
      n result) : CancelsExactly (ask alive slot handle path getRoot tree) n := by
  obtain ⟨keep, -, hstore⟩ := store_of_ask alive slot handle path getRoot tree
  let start (call : Call) : Inquiry Slot (Visit τ) := ⟨slot, [], ⟨tree, call⟩⟩
  have hexact : CancelledExactly (·.inner.call) _ start n result :=
    hpaced.cancelledExactly (fun _ htoken => ⟨rfl, rfl, htoken⟩) fun _ => rfl
  obtain ⟨hfree, hchecks⟩ := hexact.unlimited
  refine ⟨hchecks, fun k hk => ?_, hexact.short⟩
  obtain ⟨hresult, hcount⟩ := hexact.enough k hk
  refine ⟨hresult.trans hfree.symm, hcount, ?_⟩
  rw [hstore, hstore]
  exact congrArg keep (hresult.trans hfree.symm)

/-- **Failing and cancelling**: whatever is in the slot and however many entries it may have, a call
that fails leaves it as it was, and fails only if its token does or asking the tree for its root.
Where the answer is kept or the name of the file tells it, no check is made. Of a cooperative tree,
as all trees of the library are, the same answer or the same failure is found whichever token the
call has, with the same checks and the same table left behind, unless the token allows too few
checks: it then ends the call at the first that it does not allow. -/
theorem cancelling_is_exact (alive : Handle → Bool) (slot : Slot) (handle : Handle) (path : Text) :
    (∀ (disk : Reader) (tree : Tree), Tree.Cooperates (Tree.getRoot disk) tree) ∧
    ∀ {τ : Type} (getRoot : Attempt (Visit τ) (Option Root)) (tree : τ),
      FailsSafely slot getRoot tree (ask alive slot handle path getRoot tree) ∧
      (slot.lookup? handle ≠ none ∨ FileName.isGenerated path = true →
        CancelsExactly (ask alive slot handle path getRoot tree) 0) ∧
      (Tree.Cooperates getRoot tree →
        ∃ n, CancelsExactly (ask alive slot handle path getRoot tree) n) := by
  refine ⟨Tree.cooperates_getRoot, fun getRoot tree =>
    ⟨failsSafely_ask alive slot handle path getRoot tree, fun hknown => ?_, fun hcooperates => ?_⟩⟩
  · obtain ⟨_, hpaced⟩ := exists_paced_isGenerated_of_known alive getRoot tree hknown
    exact cancelsExactly_ask hpaced
  · obtain ⟨n, _, hpaced⟩ := exists_paced_isGenerated alive slot handle path hcooperates
    exact ⟨n, cancelsExactly_ask hpaced⟩

/-- A text whose second comment is a marker, and a slot with room for one entry: the first check is
the scan's own, five are made to find the root, and three in front of the trivia that are looked at.
A call that allows as many puts the answer in the place of the entry that was there, and one that
allows fewer leaves that entry. -/
theorem cancelling_is_exact_of_text :
    let kept : Entry := ⟨1, ⟨1, 1, false, "b"⟩, false⟩
    let slot : Slot := { maxEntries := 1, table := some [kept] }
    let handle : Handle := ⟨2, 0, false, "a"⟩
    let tree : Tree := ⟨"a.cs".toList, .text "//\n// <autogenerated>\nint".toList, none, 0⟩
    let asked := ask (fun _ => true) slot handle "a.cs".toList
      (Tree.getRoot fun _ => .error (.cannotRead .notFound)) tree
    CancelsExactly asked 9 ∧
      ((asked (.allowing 9)).1 = .ok true ∧
        (asked (.allowing 9)).2.store.table = some [⟨0, handle, true⟩]) ∧
      (asked (.allowing 8)).1 = .error .cancelled ∧ (asked (.allowing 8)).2.store = slot := by
  intro kept slot handle tree asked
  obtain ⟨hlibrary, hask⟩ := cancelling_is_exact (fun _ => true) slot handle "a.cs".toList
  obtain ⟨hsafe, -, hexact⟩ := hask (Tree.getRoot fun _ => .error (.cannotRead .notFound)) tree
  obtain ⟨n, h⟩ := hexact (hlibrary _ tree)
  have hchecks : (asked .unlimited).2.inner.call.checks = 9 := by decide +kernel
  have hanswer : (asked .unlimited).1 = .ok true := by decide +kernel
  have htable : (asked .unlimited).2.store.table = some [⟨0, handle, true⟩] := by decide +kernel
  obtain rfl : n = 9 := h.checks_eq.symm.trans hchecks
  obtain ⟨hsame, -, hstore⟩ := h.enough 9 le_rfl
  obtain ⟨hcancelled, -⟩ := h.short 8 (by decide)
  exact ⟨h, ⟨hsame.trans hanswer, (congrArg Slot.table hstore).trans htable⟩, hcancelled,
    hsafe.store_eq _ _ hcancelled⟩

/-! ### Trees that do not cooperate -/

/-- How a tree of the host's may look for its root that takes a check that fails for an answer: it
says that there is no root. -/
def rootBehindCheck (root : Root) : Attempt (Visit τ) (Option Root) :=
  tryCatch (do Visit.onCall check; return some root) fun _ => return none

/-- **Cancelling a tree that does not cooperate** is not exact. One that hides a check that fails is
given a wrong answer, which is kept; one that cancels the token of its call has the call cancelled
that nothing else would cancel. -/
theorem cancelling_is_inexact_of_uncooperative :
    let handle : Handle := ⟨0, 0, false, "a"⟩
    let marker : Trivia := ⟨.singleLineComment, "// <autogenerated>".toList⟩
    let hidden := ask (fun _ => true) {} handle "a.cs".toList
      (rootBehindCheck ⟨some ⟨.token, [], 0, [marker], true⟩⟩) ()
    let host : HostTree :=
      { trivia := [("single_line_comment".toList, marker.text)], fires := some 0 }
    let fired := ask (fun _ => true) {} handle "a.cs".toList
      (Tree.getRoot fun _ => .error (.cannotRead .notFound)) ⟨"a.cs".toList, .host host, none, 0⟩
    ((hidden .unlimited).1 = .ok true ∧ (hidden .unlimited).2.inner.call.checks = 3 ∧
      (hidden (.allowing 1)).1 = .ok false ∧
      (hidden (.allowing 1)).2.store.lookup? handle = some false ∧
      ∀ n, ¬ CancelsExactly hidden n) ∧
    (fired .unlimited).1 = .ok true ∧ (fired .unlimited).2.inner.call.checks = 2 ∧
      ({ token := some 0 } : Call).affords 2 = true ∧
      (fired { token := some 0 }).1 = .error .cancelled := by
  intro handle marker hidden host fired
  have hanswer : (hidden (.allowing 1)).1 = .ok false := by decide +kernel
  have hchecks : (hidden .unlimited).2.inner.call.checks = 3 := by decide +kernel
  refine ⟨⟨by decide +kernel, hchecks, hanswer, by decide +kernel, fun n h => ?_⟩,
    by decide +kernel, by decide +kernel, by decide, by decide +kernel⟩
  obtain rfl : n = 3 := h.checks_eq.symm.trans hchecks
  obtain ⟨hcancelled, -⟩ := h.short 1 (by decide)
  rw [hanswer] at hcancelled
  contradiction

end Cache.Slot

end GeneratedCode
