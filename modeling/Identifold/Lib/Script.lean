import Mathlib.Tactic.TypeStar

/-!
# Identifold.Lib.Script

Scripts: computations over a state that may fail, where a failure keeps the
state it was reached in.  This is the shape of a program that talks to a
connection and catches what the connection throws.

`Triple P x Q` is partial in nothing: from a state with `P`, the script ends,
and its outcome and last state have `Q`.  There is one rule for each
construct, and `Preserves` is the special case of an invariant of the state
that holds whatever the outcome.
-/

/-- A fallible computation over a state that outlives its failure. -/
def Script (σ ε α : Type) : Type := σ → Except ε α × σ

namespace Script

variable {σ ε α β : Type}

/-- The outcome of a script and the state it leaves. -/
def run (x : Script σ ε α) (s : σ) : Except ε α × σ := x s

/-- A script that is one step. -/
def step (f : σ → Except ε α × σ) : Script σ ε α := f

/-- A step that neither reads nor changes the state. -/
def fromExcept (x : Except ε α) : Script σ ε α := fun s => (x, s)

instance : Monad (Script σ ε) where
  pure a := fun s => (.ok a, s)
  bind x f := fun s =>
    match x s with
    | (.ok a, t) => f a t
    | (.error e, t) => (.error e, t)

instance : MonadExcept ε (Script σ ε) where
  throw e := fun s => (.error e, s)
  tryCatch x handler := fun s =>
    match x s with
    | (.ok a, t) => (.ok a, t)
    | (.error e, t) => handler e t

/-- Run the body, then close.  What closing fails with is the outcome where the
body has returned, and is dropped where it has failed. -/
def withClose (close : Script σ ε Unit) (body : Script σ ε α) : Script σ ε α := do
  let a ← tryCatch body fun e => do
    tryCatch close fun _ => pure ()
    throw e
  close
  return a

/-! ## what a script computes -/

section Run

@[simp] theorem run_step (f : σ → Except ε α × σ) (s : σ) : run (step f) s = f s := rfl

@[simp] theorem run_fromExcept (x : Except ε α) (s : σ) : run (fromExcept x) s = (x, s) := rfl

@[simp] theorem run_pure (a : α) (s : σ) : run (pure a : Script σ ε α) s = (.ok a, s) := rfl

@[simp] theorem run_throw (e : ε) (s : σ) : run (throw e : Script σ ε α) s = (.error e, s) := rfl

/-- A script goes on with what it has returned, and ends with what it has thrown. -/
theorem run_bind (x : Script σ ε α) (f : α → Script σ ε β) (s : σ) :
    run (x >>= f) s = match run x s with
      | (.ok a, t) => run (f a) t
      | (.error e, t) => (.error e, t) := rfl

/-- What is thrown is handled in the state where it was thrown. -/
theorem run_tryCatch (x : Script σ ε α) (handler : ε → Script σ ε α) (s : σ) :
    run (tryCatch x handler) s = match run x s with
      | (.ok a, t) => (.ok a, t)
      | (.error e, t) => run (handler e) t := rfl

/-- The resource is closed whichever way the body ends. -/
theorem run_withClose (close : Script σ ε Unit) (body : Script σ ε α) (s : σ) :
    run (withClose close body) s = match run body s with
      | (.ok a, t) => match run close t with
        | (.ok _, u) => (.ok a, u)
        | (.error e, u) => (.error e, u)
      | (.error e, t) => (.error e, (run close t).2) := by
  simp only [withClose, run_bind, run_tryCatch]
  cases run body s with
  | mk outcome t =>
      cases outcome <;> simp only <;> cases run close t with
        | mk closed u => cases closed <;> rfl

end Run

/-! ## triples -/

/-- From a state with `P`, the outcome and the state left have `Q`. -/
def Triple (P : σ → Prop) (x : Script σ ε α) (Q : Except ε α → σ → Prop) : Prop :=
  ∀ s, P s → Q (run x s).1 (run x s).2

namespace Triple

variable {P P' : σ → Prop} {Q Q' : Except ε α → σ → Prop} {x : Script σ ε α}

theorem pure {a : α} (h : ∀ s, P s → Q (.ok a) s) : Triple P (Pure.pure a) Q := h

theorem throw {e : ε} (h : ∀ s, P s → Q (.error e) s) : Triple P (MonadExcept.throw e) Q := h

/-- **Sequence rule**: the second script starts where the first one returned;
where it failed, the sequence has failed. -/
theorem bind {R : α → σ → Prop} {Q : Except ε β → σ → Prop} {f : α → Script σ ε β}
    (hx : Triple P x fun outcome t => match outcome with
      | .ok a => R a t
      | .error e => Q (.error e) t)
    (hf : ∀ a, Triple (R a) (f a) Q) : Triple P (x >>= f) Q := by
  intro s hs
  have hxs := hx s hs
  cases hrun : run x s with
  | mk outcome t =>
      rw [hrun] at hxs
      cases outcome with
      | ok a =>
          rw [run_bind, hrun]
          exact hf a t hxs
      | error e =>
          rw [run_bind, hrun]
          exact hxs

/-- **Handler rule**: the handler starts where the script failed. -/
theorem tryCatch {R : ε → σ → Prop} {handler : ε → Script σ ε α}
    (hx : Triple P x fun outcome t => match outcome with
      | .ok a => Q (.ok a) t
      | .error e => R e t)
    (hh : ∀ e, Triple (R e) (handler e) Q) : Triple P (MonadExcept.tryCatch x handler) Q := by
  intro s hs
  have hxs := hx s hs
  cases hrun : run x s with
  | mk outcome t =>
      rw [hrun] at hxs
      cases outcome with
      | ok a =>
          rw [run_tryCatch, hrun]
          exact hxs
      | error e =>
          rw [run_tryCatch, hrun]
          exact hh e t hxs

/-- The rule of consequence. -/
theorem consequence (h : Triple P x Q) (hP : ∀ s, P' s → P s)
    (hQ : ∀ outcome t, Q outcome t → Q' outcome t) : Triple P' x Q' :=
  fun s hs => hQ _ _ (h s (hP s hs))

/-- The rule of the conditional. -/
theorem ite {c : Prop} [Decidable c] {y : Script σ ε α} (hx : c → Triple P x Q)
    (hy : ¬ c → Triple P y Q) : Triple P (if c then x else y) Q := by
  by_cases h : c
  · rw [if_pos h]
    exact hx h
  · rw [if_neg h]
    exact hy h

end Triple

/-! ## invariants -/

/-- The script keeps `I`, whether it returns or fails. -/
def Preserves (I : σ → Prop) (x : Script σ ε α) : Prop := Triple I x fun _ => I

namespace Preserves

variable {I : σ → Prop} {x : Script σ ε α}

/-- A step preserves what its state function preserves. -/
theorem step {f : σ → Except ε α × σ} (h : ∀ s, I s → I (f s).2) : Preserves I (Script.step f) := h

theorem fromExcept (y : Except ε α) : Preserves I (Script.fromExcept y) := fun _ => id

theorem pure (a : α) : Preserves I (Pure.pure a : Script σ ε α) := fun _ => id

theorem throw (e : ε) : Preserves I (MonadExcept.throw e : Script σ ε α) := fun _ => id

/-- Two scripts preserve it one after the other. -/
theorem bind {f : α → Script σ ε β} (hx : Preserves I x) (hf : ∀ a, Preserves I (f a)) :
    Preserves I (x >>= f) := by
  refine Triple.bind (R := fun _ => I) (hx.consequence (fun _ => id) ?_) hf
  intro outcome t h
  cases outcome with
  | ok a => exact h
  | error e => exact h

/-- A handler must preserve it too. -/
theorem tryCatch {handler : ε → Script σ ε α} (hx : Preserves I x)
    (hh : ∀ e, Preserves I (handler e)) : Preserves I (MonadExcept.tryCatch x handler) := by
  refine Triple.tryCatch (R := fun _ => I) (hx.consequence (fun _ => id) ?_) hh
  intro outcome t h
  cases outcome with
  | ok a => exact h
  | error e => exact h

theorem ite {c : Prop} [Decidable c] {y : Script σ ε α} (hx : Preserves I x) (hy : Preserves I y) :
    Preserves I (if c then x else y) :=
  Triple.ite (fun _ => hx) fun _ => hy

end Preserves

end Script
