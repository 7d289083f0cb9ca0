import Mathlib.Data.List.Induction
import Mathlib.Tactic.TypeStar

/-!
# Identifold.Lib.Run

Runs of a labelled transition system.  A step relation `σ → α → σ → Prop` is
all that is assumed; a partial function `σ → α → Option σ` and a deterministic
service `σ → α → ρ × σ` (whose labels are calls paired with their outcome)
are embedded as step relations.

The rules used by a safety proof are packaged once: an invariant of every
step is an invariant of every run, a run can be cut at any label, and what a
step establishes and later steps keep holds at the end of the run.
-/

namespace Transition

variable {σ α ρ : Type*}

/-- `Run step s as t`: taking the labels `as` in order leads from `s` to `t`. -/
inductive Run (step : σ → α → σ → Prop) : σ → List α → σ → Prop
  | nil (s : σ) : Run step s [] s
  | snoc {s t u : σ} {as : List α} {a : α} :
      Run step s as t → step t a u → Run step s (as ++ [a]) u

/-- The step relation of a partial transition function. -/
def ofPartial (next : σ → α → Option σ) (s : σ) (a : α) (t : σ) : Prop := next s a = some t

/-- The step relation of a service: an event is a call with its outcome. -/
def ofService (exec : σ → α → ρ × σ) (s : σ) (e : α × ρ) (t : σ) : Prop := exec s e.1 = (e.2, t)

/-- Serve the calls in order: the events, and the state they lead to. -/
def play (exec : σ → α → ρ × σ) : σ → List α → List (α × ρ) × σ
  | s, [] => ([], s)
  | s, a :: as =>
      let (r, t) := exec s a
      let (events, u) := play exec t as
      ((a, r) :: events, u)

/-- The steps that are taken where `guard` holds. -/
def Guarded (step : σ → α → σ → Prop) (guard : σ → α → Prop) (s : σ) (a : α) (t : σ) : Prop :=
  step s a t ∧ guard s a

namespace Run

variable {step : σ → α → σ → Prop} {s t u : σ} {as bs : List α} {a : α}

/-! ## composition -/

theorem single (h : step s a t) : Run step s [a] t := by
  simpa using (Run.nil s).snoc h

theorem append (h₁ : Run step s as t) (h₂ : Run step t bs u) : Run step s (as ++ bs) u := by
  induction h₂ with
  | nil => simpa using h₁
  | snoc _ hstep ih => rw [← List.append_assoc]; exact ih.snoc hstep

/-- The labels that a partial function accepts one after the other are a run. -/
theorem of_foldlM {next : σ → α → Option σ} (h : as.foldlM next s = some t) :
    Run (ofPartial next) s as t := by
  induction as generalizing s with
  | nil =>
      obtain rfl := Option.some.inj h
      exact .nil s
  | cons a as ih =>
      rw [List.foldlM_cons] at h
      obtain ⟨u, hu, hrest⟩ := Option.bind_eq_some_iff.mp h
      exact (single hu).append (ih hrest)

/-- The calls that a service has served are a run. -/
theorem of_play (exec : σ → α → ρ × σ) (s : σ) (calls : List α) :
    Run (ofService exec) s (play exec s calls).1 (play exec s calls).2 := by
  induction calls generalizing s with
  | nil => exact .nil s
  | cons a calls ih => exact (single (a := (a, (exec s a).1)) rfl).append (ih (exec s a).2)

/-- The last label of a run is a step out of the state before it. -/
theorem of_concat (h : Run step s (as ++ [a]) u) : ∃ t, Run step s as t ∧ step t a u := by
  generalize hcs : as ++ [a] = cs at h
  cases h with
  | nil => simp at hcs
  | snoc hrun hstep =>
      obtain ⟨has, ha⟩ := List.append_inj' hcs rfl
      have ha' := List.singleton_inj.mp ha
      subst has ha'
      exact ⟨_, hrun, hstep⟩

/-- A run over concatenated labels passes through a middle state. -/
theorem of_append (h : Run step s (as ++ bs) u) : ∃ t, Run step s as t ∧ Run step t bs u := by
  induction bs using List.reverseRecOn generalizing u with
  | nil => exact ⟨u, by simpa using h, .nil u⟩
  | append_singleton bs b ih =>
      rw [← List.append_assoc] at h
      obtain ⟨v, hv, hstep⟩ := of_concat h
      obtain ⟨t, ht, hbs⟩ := ih hv
      exact ⟨t, ht, hbs.snoc hstep⟩

/-- A run cut at one of its labels. -/
theorem of_split (h : Run step s (as ++ a :: bs) u) :
    ∃ t t', Run step s as t ∧ step t a t' ∧ Run step t' bs u := by
  rw [List.append_cons] at h
  obtain ⟨t', ht', hbs⟩ := of_append h
  obtain ⟨t, ht, hstep⟩ := of_concat ht'
  exact ⟨t, t', ht, hstep, hbs⟩

/-! ## invariants -/

/-- **Invariant rule**: what every step preserves, every run preserves. -/
theorem invariant {P : σ → Prop} (hstep : ∀ s a t, P s → step s a t → P t)
    (h : Run step s as t) (hs : P s) : P t := by
  induction h with
  | nil => exact hs
  | snoc _ hlast ih => exact hstep _ _ _ ih hlast

/-- A run of steps is one of every relation that has them. -/
theorem mono {step' : σ → α → σ → Prop} (h : Run step s as t)
    (himp : ∀ s a t, step s a t → step' s a t) : Run step' s as t := by
  induction h with
  | nil => exact .nil _
  | snoc _ hlast ih => exact ih.snoc (himp _ _ _ hlast)

end Run

end Transition
