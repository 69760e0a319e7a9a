import Mathlib.Tactic
import GeneratedCode.Proofs.Call.Checks

/-!
Computations that make a fixed number of checks.

`Paced` says that a computation, begun in one of some states, makes `n` checks and ends in one
result, and that a call which cannot afford them is cancelled at the first check that it cannot pay.
So it is that number alone which decides whether a call is cut short, and where.

* `Paced.check` is one check, and `Paced.ofExcept` none.
* `Paced.bind`: two computations in a row make the checks of both.
* `Costs.steady`: the call has no other influence on the result.
* `Paced.cancelledExactly`: begun with a token that allows `k` checks, the computation ends as it
  does without one if these are enough, and otherwise at check `k + 1`.
-/

namespace GeneratedCode

/-! ### Computations in a row -/

/-- Two computations in a row succeed if both do. -/
lemma Attempt.outcome_bind_eq_ok_iff {σ α β : Type} {x : Attempt σ α} {f : α → Attempt σ β}
    {s last : σ} {b : β} :
    (x >>= f).outcome s = (.ok b, last) ↔
      ∃ a mid, x.outcome s = (.ok a, mid) ∧ (f a).outcome mid = (.ok b, last) := by
  rw [Attempt.outcome_bind]
  rcases hx : x.outcome s with ⟨failure | a, mid⟩ <;> simp

/-- They fail as the first does, or as the second does where it runs. -/
lemma Attempt.outcome_bind_eq_error_iff {σ α β : Type} {x : Attempt σ α} {f : α → Attempt σ β}
    {s : σ} {failure : Failure} :
    ((x >>= f).outcome s).1 = .error failure ↔
      (x.outcome s).1 = .error failure ∨
        ∃ a after, x.outcome s = (.ok a, after) ∧ ((f a).outcome after).1 = .error failure := by
  rw [Attempt.outcome_bind]
  rcases hx : x.outcome s with ⟨first | a, after⟩ <;> simp

/-! ### What a call can afford, in parts -/

namespace Call

/-- A call that has come to that many checks, with the same token and the same limit. -/
structure Reaches (before : Call) (checks : ℕ) (after : Call) : Prop where
  checks_eq : after.checks = checks
  allowed_eq : after.allowed = before.allowed
  token_eq : after.token = before.token

variable {before after : Call} {n m : ℕ}

lemma Reaches.trans {first last : Call} {k l : ℕ} (h : first.Reaches k before)
    (hlast : before.Reaches l last) : first.Reaches l last :=
  ⟨hlast.checks_eq, hlast.allowed_eq.trans h.allowed_eq, hlast.token_eq.trans h.token_eq⟩

/-- What is left after `n` checks decides about the next ones. -/
lemma affords_add (h : before.Reaches (before.checks + n) after) (m : ℕ) :
    before.affords (n + m) = (before.affords n && after.affords m) := by
  rw [Bool.eq_iff_iff, Bool.and_eq_true]
  cases hallowed : before.allowed with
  | none => simp [affords, hallowed, h.allowed_eq]
  | some k =>
      simp only [affords, hallowed, h.allowed_eq, h.checks_eq, Bool.or_eq_true, decide_eq_true_eq]
      omega

/-- Checks that succeed do not move the one that fails. -/
lemma overdrawn_checks_eq (h : before.Reaches (before.checks + n) after)
    (haffords : before.affords n = true) (hpoor : after.affords m = false) :
    after.overdrawn.checks = before.overdrawn.checks := by
  cases hallowed : before.allowed with
  | none =>
      rw [affords_of_allowed_none (h.allowed_eq.trans hallowed)] at hpoor
      contradiction
  | some k =>
      simp only [affords, hallowed, Bool.or_eq_true, decide_eq_true_eq] at haffords
      simp only [overdrawn, hallowed, h.allowed_eq, h.checks_eq, Option.getD_some]
      omega

lemma affords_allowing (k n : ℕ) : (allowing k).affords n = decide (n ≤ k) := by
  change (decide (n = 0) || decide (0 + n ≤ k)) = decide (n ≤ k)
  rw [Bool.eq_iff_iff, Bool.or_eq_true, decide_eq_true_eq, decide_eq_true_eq, decide_eq_true_eq]
  omega

@[simp] lemma overdrawn_allowing_checks (k : ℕ) : (allowing k).overdrawn.checks = k + 1 := by
  simp [overdrawn, allowing]

end Call

/-! ### Paced computations -/

/-- A computation on a state with a call in it, begun where `start` holds: it makes `n` checks and
ends in `result`, unless one of the checks fails, which ends it there. -/
structure Paced {σ α : Type} (call : σ → Call) (start : σ → Prop) (x : Attempt σ α) (n : ℕ)
    (result : Except Failure α) : Prop where
  afforded : ∀ s, start s → (call s).affords n = true →
    ∃ after, x.outcome s = (result, after) ∧ (call s).Reaches ((call s).checks + n) (call after)
  overdrawn : ∀ s, start s → (call s).affords n = false →
    ∃ after, x.outcome s = (.error .cancelled, after) ∧
      (call s).Reaches (call s).overdrawn.checks (call after)

/-- A computation on nothing but the call that makes `n` checks. -/
abbrev Costs {α : Type} (x : Attempt Call α) (n : ℕ) (result : Except Failure α) : Prop :=
  Paced id (fun _ => True) x n result

namespace Paced

variable {σ τ α β : Type} {call : σ → Call} {start next : σ → Prop} {x y : Attempt σ α} {n m : ℕ}
  {result : Except Failure α}

lemma congr (h : Paced call start x n result) (hxy : ∀ s, start s → y.outcome s = x.outcome s) :
    Paced call start y n result where
  afforded s hs := hxy s hs ▸ h.afforded s hs
  overdrawn s hs := hxy s hs ▸ h.overdrawn s hs

/-- It may be asked of each state by itself. -/
lemma of_each (h : ∀ s, start s → Paced call (· = s) x n result) : Paced call start x n result where
  afforded s hs := (h s hs).afforded s rfl
  overdrawn s hs := (h s hs).overdrawn s rfl

/-- The call keeps its token. -/
lemma token_eq (h : Paced call start x n result) {s : σ} (hs : start s) :
    (call (x.outcome s).2).token = (call s).token := by
  cases haffords : (call s).affords n with
  | true =>
      obtain ⟨after, hafter, hreaches⟩ := h.afforded s hs haffords
      rw [hafter, hreaches.token_eq]
  | false =>
      obtain ⟨after, hafter, hreaches⟩ := h.overdrawn s hs haffords
      rw [hafter, hreaches.token_eq]

/-- What leaves the checks, the limit and the token of the call alone makes no check. -/
lemma of_reaches (h : ∀ s, start s → ∃ after, x.outcome s = (result, after) ∧
      (call s).Reaches (call s).checks (call after)) : Paced call start x 0 result where
  afforded s hs _ := h s hs
  overdrawn s _ hpoor := by simp at hpoor

lemma ofExcept (result : Except Failure α) : Paced call start (Attempt.ofExcept result) 0 result :=
  of_reaches fun s _ => ⟨s, Attempt.outcome_ofExcept result s, rfl, rfl, rfl⟩

lemma pure (a : α) : Paced call start (Pure.pure a) 0 (.ok a) :=
  ofExcept (.ok a)

lemma throw (failure : Failure) :
    Paced call start (throw failure : Attempt σ α) 0 (.error failure) :=
  ofExcept (.error failure)

lemma noteRead (length : ℕ) : Costs (noteRead length) 0 (.ok ()) :=
  of_reaches fun _ _ => ⟨_, rfl, rfl, rfl, rfl⟩

lemma check : Costs check 1 (.ok ()) where
  afforded call _ haffords := by
    have hspent : call.spent = false := by simpa [Call.affords_succ] using haffords
    refine ⟨call.tick, ?_, rfl, rfl, rfl⟩
    rw [outcome_check, hspent]
    rfl
  overdrawn call _ hpoor := by
    have hspent : call.spent = true := by simpa [Call.affords_succ] using hpoor
    refine ⟨call.tick, ?_, congrArg Call.checks (Call.overdrawn_of_spent hspent).symm, rfl, rfl⟩
    rw [outcome_check, hspent]
    rfl

/-- Two computations in a row, the first of which succeeds, make the checks of both. What the first
leaves has to be a state that the second can begin in. -/
lemma bind {a : α} {f : α → Attempt σ β} {last : Except Failure β}
    (hx : Paced call start x n (.ok a))
    (hnext : ∀ s after, start s → x.outcome s = (.ok a, after) → next after)
    (hf : Paced call next (f a) m last) : Paced call start (x >>= f) (n + m) last where
  afforded s hs haffords := by
    have hfirst : (call s).affords n = true := by
      have hticks : (call s).Reaches ((call s).checks + n) ((call s).ticks n) := ⟨rfl, rfl, rfl⟩
      rw [Call.affords_add hticks, Bool.and_eq_true] at haffords
      exact haffords.1
    obtain ⟨mid, hmid, hreaches⟩ := hx.afforded s hs hfirst
    rw [Call.affords_add hreaches, hfirst, Bool.true_and] at haffords
    obtain ⟨after, hafter, hlast⟩ := hf.afforded mid (hnext s mid hs hmid) haffords
    refine ⟨after, (Attempt.outcome_bind_of_ok hmid).trans hafter, ?_⟩
    rw [← Nat.add_assoc, ← hreaches.checks_eq]
    exact hreaches.trans hlast
  overdrawn s hs hpoor := by
    cases hfirst : (call s).affords n with
    | false =>
        obtain ⟨after, hafter, hreaches⟩ := hx.overdrawn s hs hfirst
        exact ⟨after, Attempt.outcome_bind_of_error hafter, hreaches⟩
    | true =>
        obtain ⟨mid, hmid, hreaches⟩ := hx.afforded s hs hfirst
        rw [Call.affords_add hreaches, hfirst, Bool.true_and] at hpoor
        obtain ⟨after, hafter, hlast⟩ := hf.overdrawn mid (hnext s mid hs hmid) hpoor
        refine ⟨after, (Attempt.outcome_bind_of_ok hmid).trans hafter, ?_⟩
        rw [← Call.overdrawn_checks_eq hreaches hfirst hpoor]
        exact hreaches.trans hlast

/-- Nothing runs behind a computation that fails. -/
lemma bind_error {failure : Failure} {f : α → Attempt σ β}
    (hx : Paced call start x n (.error failure)) :
    Paced call start (x >>= f) n (.error failure) where
  afforded s hs haffords :=
    (hx.afforded s hs haffords).imp fun _ h => ⟨Attempt.outcome_bind_of_error h.1, h.2⟩
  overdrawn s hs hpoor :=
    (hx.overdrawn s hs hpoor).imp fun _ h => ⟨Attempt.outcome_bind_of_error h.1, h.2⟩

/-- On a part of a larger state a computation makes as many checks. -/
lemma focus {part : σ → τ} {replace : σ → τ → σ} {inner : τ → Call} {x : Attempt τ α}
    (hpart : ∀ s t, part (replace s t) = t)
    (hx : Paced inner (fun _ => True) x n result) :
    Paced (fun s => inner (part s)) start (x.focus part replace) n result where
  afforded s _ haffords := by
    obtain ⟨after, hafter, hreaches⟩ := hx.afforded (part s) trivial haffords
    refine ⟨replace s after, ?_, by rwa [hpart]⟩
    rw [Attempt.outcome_focus, hafter]
  overdrawn s _ hpoor := by
    obtain ⟨after, hafter, hreaches⟩ := hx.overdrawn (part s) trivial hpoor
    refine ⟨replace s after, ?_, by rwa [hpart]⟩
    rw [Attempt.outcome_focus, hafter]

end Paced

namespace Costs

variable {α β : Type} {x : Attempt Call α} {n m : ℕ} {result : Except Failure α}

lemma bind {a : α} {f : α → Attempt Call β} {last : Except Failure β} (hx : Costs x n (.ok a))
    (hf : Costs (f a) m last) : Costs (x >>= f) (n + m) last :=
  Paced.bind hx (fun _ _ _ _ => trivial) hf

/-- A computation behind one that makes no check. -/
lemma bind_free {a : α} {f : α → Attempt Call β} {last : Except Failure β} (hx : Costs x 0 (.ok a))
    (hf : Costs (f a) m last) : Costs (x >>= f) m last := by
  have h := hx.bind hf
  rwa [Nat.zero_add] at h

/-- The call has no influence on a computation that makes a fixed number of checks but to cut it
short. -/
lemma steady (h : Costs x n result) : Steady x result where
  outcome call := by
    cases haffords : call.affords n with
    | true =>
        obtain ⟨after, hafter, -⟩ := h.afforded call trivial haffords
        exact .inl (by rw [hafter])
    | false =>
        obtain ⟨after, hafter, -⟩ := h.overdrawn call trivial haffords
        exact .inr (by rw [hafter])
  unlimited call hcall := by
    obtain ⟨after, hafter, -⟩ := h.afforded call trivial (Call.affords_of_allowed_none hcall n)
    rw [hafter]
  keeps call := by
    cases haffords : call.affords n with
    | true =>
        obtain ⟨after, hafter, hreaches⟩ := h.afforded call trivial haffords
        rw [hafter]
        exact ⟨hreaches.allowed_eq, hreaches.token_eq⟩
    | false =>
        obtain ⟨after, hafter, hreaches⟩ := h.overdrawn call trivial haffords
        rw [hafter]
        exact ⟨hreaches.allowed_eq, hreaches.token_eq⟩

end Costs

/-! ### Cancelling -/

/-- Whether cancelling is exact: begun with a call that nothing cancels, the computation makes `n`
checks and ends in `result`. A call that allows as many comes to the same end, and one that allows
fewer is cancelled at the first check that it does not allow. -/
structure CancelledExactly {σ α : Type} (call : σ → Call) (x : Attempt σ α) (start : Call → σ)
    (n : ℕ) (result : Except Failure α) : Prop where
  unlimited : (x.outcome (start .unlimited)).1 = result ∧
    (call (x.outcome (start .unlimited)).2).checks = n
  enough : ∀ k, n ≤ k → (x.outcome (start (.allowing k))).1 = result ∧
    (call (x.outcome (start (.allowing k))).2).checks = n
  short : ∀ k < n, (x.outcome (start (.allowing k))).1 = .error .cancelled ∧
    (call (x.outcome (start (.allowing k))).2).checks = k + 1

/-- Where the number of checks is fixed, cancelling is exact. -/
lemma Paced.cancelledExactly {σ α : Type} {call : σ → Call} {begin : σ → Prop} {x : Attempt σ α}
    {n : ℕ} {result : Except Failure α} (h : Paced call begin x n result) {start : Call → σ}
    (hbegin : ∀ c, c.token = none → begin (start c)) (hcall : ∀ c, call (start c) = c) :
    CancelledExactly call x start n result := by
  have hafforded (c : Call) (htoken : c.token = none) (hfresh : c.checks = 0)
      (haffords : c.affords n = true) : (x.outcome (start c)).1 = result ∧
        (call (x.outcome (start c)).2).checks = n := by
    obtain ⟨after, hafter, hreaches⟩ :=
      h.afforded (start c) (hbegin c htoken) (by rwa [hcall])
    rw [hafter]
    refine ⟨rfl, hreaches.checks_eq.trans ?_⟩
    rw [hcall, hfresh, Nat.zero_add]
  refine ⟨hafforded .unlimited rfl rfl (Call.affords_of_allowed_none rfl n), fun k hk =>
    hafforded (.allowing k) rfl rfl (by simpa [Call.affords_allowing] using hk), fun k hk => ?_⟩
  obtain ⟨after, hafter, hreaches⟩ := h.overdrawn (start (.allowing k)) (hbegin _ rfl)
    (by simpa [hcall, Call.affords_allowing] using hk)
  rw [hafter]
  refine ⟨rfl, hreaches.checks_eq.trans ?_⟩
  rw [hcall, Call.overdrawn_allowing_checks]

lemma Costs.cancelledExactly {α : Type} {x : Attempt Call α} {n : ℕ} {result : Except Failure α}
    (h : Costs x n result) : CancelledExactly id x id n result :=
  Paced.cancelledExactly h (fun _ _ => trivial) fun _ => rfl

end GeneratedCode
