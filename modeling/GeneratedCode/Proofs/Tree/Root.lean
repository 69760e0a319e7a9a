import Mathlib.Tactic
import GeneratedCode.Proofs.Marker.Comments
import GeneratedCode.Proofs.Token.Reads

/-!
The root of a tree, and its marker, as functions of the source of the tree.

A tree keeps the root that it has found, and a call may be cancelled while it looks for it; neither
has a say in what the root is. `Source.root` is the root that the source gives, `Source.marker` what
the comments in front of its first token say.

* `Tree.Faithful`: the root that a tree keeps, if any, is the one of its source. A tree is so when
  it is made, and stays so whatever happens to the calls that ask it.
* `yields_getRoot`, `yields_hasMarker`: asked for its root or its marker, a faithful tree gives
  those of its source, unless the call is cancelled.
-/

namespace GeneratedCode

/-! ### What a source says -/

namespace HostTree

/-- The root of a tree of the host's. -/
def rootOf (tree : HostTree) : Except Failure (Option Root) :=
  match tree.raises with
  | some message => .error (.raised message)
  | none =>
      (readTrivia tree.trivia).map fun trivia =>
        if !tree.hasRoot then none
        else if !tree.hasToken then some ⟨none⟩
        else some ⟨some
          { kind := .token, text := [], position := 0, leading := trivia
            hasLeading := tree.hasLeading.getD !trivia.isEmpty }⟩

end HostTree

namespace Source

/-- The first token of a file on disk. -/
def fileToken (disk : Reader) (path : Text) (encoding : String) (size : ℕ) : Except Failure Token :=
  if encoding.toList.contains '\x00' then .error .nulInEncoding
  else disk path >>= Token.firstOfFile encoding size

/-- The root with a first token. -/
def rootOf (token : Token) : Option Root :=
  some ⟨some token⟩

/-- The root that is found in a source. -/
def root (disk : Reader) : Source → Except Failure (Option Root)
  | .text content => .ok (rootOf (Token.first content))
  | .file path encoding size => (fileToken disk path encoding size).map rootOf
  | .host tree => tree.rootOf

/-- The token that asking for the root fires. -/
def fires? : Source → Option ℕ
  | .host tree => tree.fires
  | _ => none

end Source

namespace Root

/-- Whether a root, if there is one, has a first token with a signed comment in front. -/
def isSigned (root : Option Root) : Bool :=
  match root with
  | none => false
  | some root =>
      match root.firstToken with
      | none => false
      | some token => token.hasLeading && Marker.isSigned token.leading

end Root

/-! ### Visits -/

/-- A tree that keeps no root but the one of its source. -/
def Tree.Faithful (disk : Reader) (tree : Tree) : Prop :=
  ∀ root, tree.root = some root → tree.source.root disk = .ok (some root)

/-- What a visit to a faithful tree comes to: its result, unless it is cancelled. It is not if the
call has no limit and the tree does not fire its token. The tree is the same afterwards but for the
root that it keeps, which is the one of its source. -/
structure Visit.Yields {α : Type} (disk : Reader) (visit : Visit Tree) (result : Except Failure α)
    (x : Attempt (Visit Tree) α) : Prop where
  outcome : (x.outcome visit).1 = result ∨ (x.outcome visit).1 = .error .cancelled
  unlimited : visit.call.allowed = none →
    (∀ n ∈ visit.tree.source.fires?, visit.call.token ≠ some n) →
      (x.outcome visit).1 = result ∧ (x.outcome visit).2.call.allowed = none
  token : (x.outcome visit).2.call.token = visit.call.token
  filePath : (x.outcome visit).2.tree.filePath = visit.tree.filePath
  source : (x.outcome visit).2.tree.source = visit.tree.source
  faithful : (x.outcome visit).2.tree.Faithful disk

namespace Visit.Yields

variable {α β : Type} {disk : Reader} {visit : Visit Tree} {result : Except Failure α}
  {x y : Attempt (Visit Tree) α}

lemma congr (h : visit.Yields disk result x) (hxy : y.outcome visit = x.outcome visit) :
    visit.Yields disk result y := by
  refine ⟨?_, ?_, ?_, ?_, ?_, ?_⟩ <;> rw [hxy]
  exacts [h.outcome, h.unlimited, h.token, h.filePath, h.source, h.faithful]

/-- A steady computation does not look at the tree. -/
lemma onCall {x : Attempt Call α} (hx : Steady x result) (h : visit.tree.Faithful disk) :
    visit.Yields disk result (Visit.onCall x) where
  outcome := hx.outcome visit.call
  unlimited hallowed _ :=
    ⟨hx.unlimited visit.call hallowed, (hx.keeps visit.call).1.trans hallowed⟩
  token := (hx.keeps visit.call).2
  filePath := rfl
  source := rfl
  faithful := h

/-- Two computations in a row; what the second yields is asked only where it runs. -/
lemma bind {f : α → Attempt (Visit Tree) β} {next : α → Except Failure β}
    (hx : visit.Yields disk result x)
    (hf : ∀ a (after : Visit Tree), after.tree.Faithful disk →
      after.tree.source = visit.tree.source → after.Yields disk (next a) (f a)) :
    visit.Yields disk (result >>= next) (x >>= f) := by
  obtain ⟨houtcome, hunlimited, htoken, hpath, hsource, hfaithful⟩ := hx
  cases hxout : x.outcome visit with
  | mk r after =>
    rw [hxout] at houtcome hunlimited htoken hpath hsource hfaithful
    cases r with
    | error failure =>
        have hout := Attempt.outcome_bind_of_error (f := f) hxout
        refine ⟨?_, fun hallowed hfires => ?_, ?_, ?_, ?_, ?_⟩ <;> rw [hout]
        · rcases houtcome with rfl | h
          · exact .inl rfl
          · exact .inr (congrArg Except.error (Except.error.inj h))
        · obtain ⟨hresult, hafter⟩ := hunlimited hallowed hfires
          rw [← hresult]
          exact ⟨rfl, hafter⟩
        exacts [htoken, hpath, hsource, hfaithful]
    | ok a =>
        have hresult : result = .ok a := by
          rcases houtcome with h | h
          · exact h.symm
          · contradiction
        subst hresult
        have hnext := hf a after hfaithful hsource
        have hout := Attempt.outcome_bind_of_ok (f := f) hxout
        refine ⟨?_, fun hallowed hfires => ?_, ?_, ?_, ?_, ?_⟩ <;> rw [hout]
        · exact hnext.outcome
        · refine hnext.unlimited (hunlimited hallowed hfires).2 fun n hn => ?_
          rw [htoken]
          exact hfires n (by rwa [← hsource])
        exacts [hnext.token.trans htoken, hnext.filePath.trans hpath, hnext.source.trans hsource,
          hnext.faithful]

end Visit.Yields

namespace Tree

open Source

variable {disk : Reader}

/-- A tree that keeps no root is faithful. -/
lemma faithful_of_root_eq_none {tree : Tree} (h : tree.root = none) : tree.Faithful disk := by
  intro root hroot
  rw [h] at hroot
  contradiction

/-- How many checks it takes to read the first token of a file on disk. -/
def fileTurns (disk : Reader) (path : Text) (encoding : String) (size : ℕ) : ℕ :=
  match disk path with
  | .ok opened =>
      if encoding.toList.contains '\x00' then 0 else Token.fileTurns encoding size opened
  | .error _ => 0

lemma costs_readToken (path : Text) (encoding : String) (size : ℕ) :
    Costs (readToken disk path encoding size) (fileTurns disk path encoding size)
      (fileToken disk path encoding size) := by
  rw [readToken, fileToken, fileTurns]
  by_cases hnul : encoding.toList.contains '\x00' = true
  · simp only [if_pos hnul]
    cases disk path <;> exact Paced.bind_error (Paced.throw _)
  · simp only [if_neg hnul]
    cases hopen : disk path with
    | error failure =>
        exact Paced.bind_error (Paced.ofExcept (.error failure))
    | ok opened =>
        exact Costs.bind_free (Paced.ofExcept (.ok opened))
          (Token.costs_readFile encoding size opened)

lemma steady_readToken (path : Text) (encoding : String) (size : ℕ) :
    Steady (readToken disk path encoding size) (fileToken disk path encoding size) :=
  (costs_readToken path encoding size).steady

lemma outcome_remember_of_some {find : Attempt Call Token} {visit : Visit Tree} {root : Root}
    (h : visit.tree.root = some root) :
    (remember find).outcome visit = (.ok (some root), visit) := by
  simp only [remember, Attempt.outcome_bind, Attempt.outcome_get, h, Attempt.outcome_pure]

lemma outcome_remember_of_none {find : Attempt Call Token} {visit : Visit Tree}
    (h : visit.tree.root = none) :
    (remember find).outcome visit =
      match find.outcome visit.call with
      | (.ok token, call) => (.ok (rootOf token), ⟨{ visit.tree with root := rootOf token }, call⟩)
      | (.error failure, call) => (.error failure, ⟨visit.tree, call⟩) := by
  simp only [remember, Attempt.outcome_bind, Attempt.outcome_get, h, Visit.onCall,
    Attempt.outcome_focus]
  rcases find.outcome visit.call with ⟨_ | _, _⟩ <;> rfl

/-- A tree that remembers its root gives the one of its source. -/
lemma yields_remember {find : Attempt Call Token} {token : Except Failure Token}
    (hfind : Steady find token) {visit : Visit Tree} (htree : visit.tree.Faithful disk)
    (hsource : visit.tree.source.root disk = token.map rootOf) :
    visit.Yields disk (token.map rootOf) (remember find) := by
  cases hroot : visit.tree.root with
  | some root =>
      have hout : (remember find).outcome visit = (.ok (some root), visit) :=
        outcome_remember_of_some hroot
      have hsame := htree root hroot
      have hresult : .ok (some root) = token.map rootOf := (hsource.symm.trans hsame).symm
      refine ⟨?_, fun hcall _ => ?_, ?_, ?_, ?_, ?_⟩ <;> rw [hout]
      · exact .inl hresult
      · exact ⟨hresult, hcall⟩
      · exact htree
  | none =>
      have hout := @outcome_remember_of_none find visit hroot
      have hresult := hfind.outcome visit.call
      have hunlimited := hfind.unlimited visit.call
      have hkeeps := hfind.keeps visit.call
      cases hread : find.outcome visit.call with
      | mk r call =>
        rw [hread] at hout hresult hunlimited hkeeps
        cases r with
        | error failure =>
            refine ⟨?_, fun hcall _ => ?_, ?_, ?_, ?_, ?_⟩ <;> rw [hout]
            · rcases hresult with rfl | h
              · exact .inl rfl
              · exact .inr (congrArg Except.error (Except.error.inj h))
            · rw [← hunlimited hcall]
              exact ⟨rfl, hkeeps.1.trans hcall⟩
            · exact hkeeps.2
            · exact htree
        | ok found =>
            have htoken : token = .ok found := by
              rcases hresult with h | h
              · exact h.symm
              · contradiction
            subst htoken
            refine ⟨?_, fun hcall _ => ?_, ?_, ?_, ?_, ?_⟩ <;> rw [hout]
            · exact .inl rfl
            · exact ⟨rfl, hkeeps.1.trans hcall⟩
            · exact hkeeps.2
            · intro root hkept
              rw [hsource, ← hkept]
              rfl

/-! ### The root of a tree -/

/-- Asking a tree of the host's for its root makes no check. -/
lemma outcome_hostRoot (tree : HostTree) (call : Call) :
    (tree.root.outcome call).1 = tree.rootOf ∧
      (tree.root.outcome call).2.token = call.token ∧
      (tree.root.outcome call).2.checks = call.checks ∧
      ((∀ n ∈ tree.fires, call.token ≠ some n) →
        (tree.root.outcome call).2.allowed = call.allowed) := by
  rw [HostTree.root, HostTree.rootOf]
  cases hraises : tree.raises with
  | some message => exact ⟨rfl, rfl, rfl, fun _ => rfl⟩
  | none =>
      cases htrivia : HostTree.readTrivia tree.trivia with
      | error failure => exact ⟨rfl, rfl, rfl, fun _ => rfl⟩
      | ok trivia =>
          cases hfires : tree.fires with
          | none =>
              cases tree.hasRoot <;> cases tree.hasToken <;> exact ⟨rfl, rfl, rfl, fun _ => rfl⟩
          | some token =>
              have hfire (htoken : call.token ≠ some token) :
                  (call.fire token).allowed = call.allowed := if_neg htoken
              cases tree.hasRoot <;> cases tree.hasToken <;>
                exact ⟨rfl, rfl, rfl, fun h => hfire (h token rfl)⟩

/-- How the root of a tree is looked for in its source. -/
def findRoot (disk : Reader) : Source → Attempt (Visit Tree) (Option Root)
  | .text content => remember (Token.read content)
  | .file path encoding size => remember (readToken disk path encoding size)
  | .host tree => do
      modify fun visit =>
        { visit with tree := { visit.tree with rootCalls := visit.tree.rootCalls + 1 } }
      Visit.onCall tree.root

lemma outcome_getRoot {visit : Visit Tree} {source : Source} (h : visit.tree.source = source) :
    (getRoot disk).outcome visit = (findRoot disk source).outcome visit := by
  subst h
  rw [getRoot, Attempt.outcome_bind]
  rfl

/-- **The root**: a faithful tree gives the root of its source. -/
lemma yields_getRoot {visit : Visit Tree} (h : visit.tree.Faithful disk) :
    visit.Yields disk (visit.tree.source.root disk) (getRoot disk) := by
  cases hsource : visit.tree.source with
  | text content =>
      exact (yields_remember (Token.steady_read content) h (by rw [hsource]; rfl)).congr
        (outcome_getRoot hsource)
  | file path encoding size =>
      exact (yields_remember (steady_readToken path encoding size) h (by rw [hsource]; rfl)).congr
        (outcome_getRoot hsource)
  | host tree =>
      have hkeeps (n : ℕ) (hn : n ∈ tree.fires) : n ∈ visit.tree.source.fires? := by
        rwa [hsource]
      obtain ⟨hresult, htoken, -, hafter⟩ := outcome_hostRoot tree visit.call
      refine ⟨?_, fun hallowed hfires => ?_, ?_, ?_, ?_, ?_⟩ <;> rw [outcome_getRoot hsource]
      · exact .inl hresult
      · exact ⟨hresult, (hafter fun n hn => hfires n (hkeeps n hn)).trans hallowed⟩
      · exact htoken
      · rfl
      · rfl
      · exact h

/-! ### The marker -/

/-- **The marker**: a faithful tree is signed if the first comments of its source are. -/
lemma yields_hasMarker {visit : Visit Tree} (h : visit.tree.Faithful disk) :
    visit.Yields disk ((visit.tree.source.root disk).map Root.isSigned)
      (Marker.hasMarker (getRoot disk)) := by
  have hjudge (root : Option Root) (after : Visit Tree) (hafter : after.tree.Faithful disk) :
      after.Yields disk (.ok (Root.isSigned root))
        (match root with
          | none => return false
          | some root =>
              match root.firstToken with
              | none => return false
              | some token =>
                  if token.hasLeading then Visit.onCall (Marker.scan 0 token.leading)
                  else return false) := by
    have hfalse : after.Yields disk (.ok false) (pure false) :=
      (Visit.Yields.onCall (Costs.steady (Paced.pure false)) hafter).congr rfl
    rcases root with _ | ⟨_ | token⟩
    · exact hfalse
    · exact hfalse
    · simp only [Root.isSigned]
      cases token.hasLeading with
      | false => exact hfalse
      | true => exact Visit.Yields.onCall (Marker.steady_scan_zero token.leading) hafter
  have hroot (after : Visit Tree) (hafter : after.tree.Faithful disk)
      (hsource : after.tree.source = visit.tree.source) :=
    hsource ▸ (yields_getRoot hafter).bind fun root after hafter _ => hjudge root after hafter
  have hall := (Visit.Yields.onCall (Costs.steady Paced.check) h).bind fun _ => hroot
  have hmap : ((visit.tree.source.root disk) >>= fun root => .ok (Root.isSigned root)) =
      (visit.tree.source.root disk).map Root.isSigned := by
    cases visit.tree.source.root disk <;> rfl
  rw [← hmap]
  exact hall

end Tree

end GeneratedCode
