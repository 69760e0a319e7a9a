import Mathlib.Tactic
import GeneratedCode.Call

/-!
What a call that may be cancelled does to a computation.

* `Call.affords`: how many more checks succeed. `Call.affords_succ` pays them one by one, and
  `Call.overdrawn` is the call behind the first check that it cannot pay.
* `Steady`: a computation on which the call has no influence but to cut it short. It has one
  result; a call either gets that or is cancelled, and a call without a limit always gets it.
-/

namespace GeneratedCode

/-! ### What a call can afford -/

namespace Call

/-- Whether the next `n` checks succeed. -/
def affords (call : Call) (n : ℕ) : Bool :=
  match call.allowed with
  | none => true
  | some k => n = 0 || call.checks + n ≤ k

/-- The call after `n` more checks. -/
def ticks (call : Call) (n : ℕ) : Call :=
  { call with checks := call.checks + n }

/-- The call after the first check that fails. -/
def overdrawn (call : Call) : Call :=
  { call with checks := max call.checks (call.allowed.getD 0) + 1 }

@[simp] lemma affords_zero (call : Call) : call.affords 0 = true := by
  unfold affords; split <;> simp

@[simp] lemma ticks_zero (call : Call) : call.ticks 0 = call := rfl

lemma ticks_succ (call : Call) (n : ℕ) : call.ticks (n + 1) = call.tick.ticks n := by
  simp only [ticks, tick]
  rw [show call.checks + (n + 1) = call.checks + 1 + n from by omega]

/-- A call that nothing cancels affords everything. -/
lemma affords_of_allowed_none {call : Call} (h : call.allowed = none) (n : ℕ) :
    call.affords n = true := by
  rw [affords, h]

/-- The checks of a call are paid one by one. -/
lemma affords_succ (call : Call) (n : ℕ) :
    call.affords (n + 1) = (!call.spent && call.tick.affords n) := by
  cases h : call.allowed with
  | none => simp [affords, spent, tick, h]
  | some k =>
      simp only [affords, spent, tick, h]
      rw [Bool.eq_iff_iff]
      simp only [Bool.or_eq_true, Bool.and_eq_true, Bool.not_eq_true', decide_eq_true_eq,
        decide_eq_false_iff_not]
      omega

lemma overdrawn_of_spent {call : Call} (h : call.spent = true) : call.overdrawn = call.tick := by
  unfold spent at h
  split at h
  · simp at h
  · next k hk =>
      have hle : k ≤ call.checks := by simpa using h
      simp only [overdrawn, tick, hk, Option.getD_some, max_eq_left hle]

lemma overdrawn_tick {call : Call} (h : call.spent = false) (hallowed : call.allowed ≠ none) :
    call.tick.overdrawn = call.overdrawn := by
  obtain ⟨k, hk⟩ := Option.ne_none_iff_exists'.1 hallowed
  have hlt : call.checks < k := by simpa [spent, hk] using h
  simp only [overdrawn, tick, hk, Option.getD_some]
  rw [show max (call.checks + 1) k = max call.checks k from by omega]

end Call

/-! ### Steady computations -/

/-- A computation that ends in `result` or is cancelled, that an unlimited call cannot have
cancelled, and that leaves the limit of the call as it is. -/
structure Steady {α : Type} (x : Attempt Call α) (result : Except Failure α) : Prop where
  outcome : ∀ call, (x.outcome call).1 = result ∨ (x.outcome call).1 = .error .cancelled
  unlimited : ∀ call, call.allowed = none → (x.outcome call).1 = result
  keeps : ∀ call, (x.outcome call).2.allowed = call.allowed ∧ (x.outcome call).2.token = call.token

end GeneratedCode
