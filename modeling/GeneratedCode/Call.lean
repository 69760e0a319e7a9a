import GeneratedCode.Failure

/-!
Calls: what one call may still do, and what it has done.

A call checks now and then whether it has been cancelled. `Call` counts these checks and the pieces
that the call has read from files; it also knows after how many checks the call is cancelled, if it
is at all. An `Attempt` is a computation that may fail and keeps its state when it does, so what a
cancelled call has done can still be told.

* `Attempt.outcome` runs a computation; `Attempt.outcome_bind` and its neighbours compute it.
* `Attempt.focus` runs a computation on a part of a larger state.
* `check` is the only computation that fails with `Failure.cancelled` (`outcome_check`).
-/

namespace GeneratedCode

/-! ### Attempts -/

/-- A computation on a state of type `σ` that may fail; the state survives the failure. -/
abbrev Attempt (σ α : Type) := ExceptT Failure (StateM σ) α

namespace Attempt

/-- Runs a computation on a part of a larger state. -/
def focus {σ τ α : Type} (part : σ → τ) (replace : σ → τ → σ) (x : Attempt τ α) : Attempt σ α :=
  ExceptT.mk fun s =>
    let (result, t) := (ExceptT.run x).run (part s)
    (result, replace s t)

/-- A computation that has its outcome already. -/
def ofExcept {σ α : Type} : Except Failure α → Attempt σ α
  | .ok a => pure a
  | .error failure => throw failure

/-- The outcome of a computation and the state that it leaves. -/
def outcome {σ α : Type} (x : Attempt σ α) (s : σ) : Except Failure α × σ :=
  (ExceptT.run x).run s

variable {σ τ α β : Type}

@[simp] theorem outcome_pure (a : α) (s : σ) : (pure a : Attempt σ α).outcome s = (.ok a, s) := rfl

@[simp] theorem outcome_throw (failure : Failure) (s : σ) :
    (throw failure : Attempt σ α).outcome s = (.error failure, s) := rfl

@[simp] theorem outcome_get (s : σ) : (get : Attempt σ σ).outcome s = (.ok s, s) := rfl

@[simp] theorem outcome_set (t s : σ) : (set t : Attempt σ PUnit).outcome s = (.ok ⟨⟩, t) := rfl

@[simp] theorem outcome_modify (f : σ → σ) (s : σ) :
    (modify f : Attempt σ PUnit).outcome s = (.ok ⟨⟩, f s) := rfl

/-- One computation behind another: the second runs on the state that the first leaves, unless the
first fails. -/
theorem outcome_bind (x : Attempt σ α) (f : α → Attempt σ β) (s : σ) :
    (x >>= f).outcome s =
      match x.outcome s with
      | (.ok a, t) => (f a).outcome t
      | (.error failure, t) => (.error failure, t) := by
  simp only [outcome, ExceptT.run_bind, StateT.run_bind]
  rcases (ExceptT.run x).run s with ⟨_ | _, _⟩ <;> rfl

theorem outcome_bind_of_ok {x : Attempt σ α} {f : α → Attempt σ β} {s t : σ} {a : α}
    (h : x.outcome s = (.ok a, t)) : (x >>= f).outcome s = (f a).outcome t := by
  rw [outcome_bind, h]

theorem outcome_bind_of_error {x : Attempt σ α} {f : α → Attempt σ β} {s t : σ}
    {failure : Failure} (h : x.outcome s = (.error failure, t)) :
    (x >>= f).outcome s = (.error failure, t) := by
  rw [outcome_bind, h]

@[simp] theorem outcome_ofExcept (r : Except Failure α) (s : σ) :
    (ofExcept r : Attempt σ α).outcome s = (r, s) := by
  cases r <;> rfl

@[simp] theorem outcome_focus (part : σ → τ) (replace : σ → τ → σ) (x : Attempt τ α) (s : σ) :
    (focus part replace x).outcome s =
      ((x.outcome (part s)).1, replace s (x.outcome (part s)).2) := rfl

end Attempt

/-! ### Calls -/

/-- What one call may still do, and what it has done. -/
structure Call where
  /-- The number of the token that can cancel the call, if there is one. -/
  token : Option Nat := none
  /-- How many checks succeed; without it, nothing cancels the call. -/
  allowed : Option Nat := none
  /-- How many checks were made, a failing one included. -/
  checks : Nat := 0
  /-- How many characters each piece read from a file had, the last piece first. -/
  reads : List Nat := []
  /-- The tokens that the call itself has fired. -/
  fired : List Nat := []
  deriving Repr

namespace Call

/-- A call that nothing cancels. -/
def unlimited : Call := {}

/-- A call that is cancelled at the check after the first `k`. -/
def allowing (k : Nat) : Call := { allowed := some k }

/-- Whether the next check finds the call cancelled. -/
def spent (call : Call) : Bool :=
  match call.allowed with
  | none => false
  | some k => k ≤ call.checks

/-- The call after one more check. -/
def tick (call : Call) : Call :=
  { call with checks := call.checks + 1 }

/-- The call after a token has been fired: if it is the call's own, no further check succeeds. -/
def fire (call : Call) (token : Nat) : Call :=
  { call with
    allowed := if call.token = some token then some 0 else call.allowed
    fired := token :: call.fired }

end Call

/-- Counts a check, and fails if the call has been cancelled. -/
def check : Attempt Call Unit := do
  let call ← get
  set call.tick
  if call.spent then throw .cancelled

/-- Notes that a piece of that many characters was read. -/
def noteRead (length : Nat) : Attempt Call Unit :=
  modify fun call => { call with reads := length :: call.reads }

theorem outcome_check (call : Call) :
    check.outcome call = (if call.spent then .error .cancelled else .ok (), call.tick) := by
  simp only [check, Attempt.outcome_bind, Attempt.outcome_get, Attempt.outcome_set]
  split <;> simp

/-- What stands behind a check runs if the check succeeds. -/
theorem outcome_check_bind {α : Type} (x : Attempt Call α) (call : Call) :
    (do check; x : Attempt Call α).outcome call =
      if call.spent then (.error .cancelled, call.tick) else x.outcome call.tick := by
  rw [Attempt.outcome_bind, outcome_check]
  by_cases h : call.spent = true <;> simp [h]

end GeneratedCode
