import Identifold.Lib.Run
import Mathlib.Algebra.GroupWithZero.Nat
import Mathlib.Data.List.Nodup

/-!
# Identifold.Lib.Interleaving

Threads over a shared state, scheduled in any order.  A thread is started by
an argument, and takes its steps one at a time; between two steps of one
thread the others may take any number of theirs.  A thread is known by its
number, which it passes to its steps.

`Holds.run` is the rely-guarantee rule: an invariant of the shared state
and one of each thread hold along every run, when the steps of a thread keep
both and do not disturb what is known of the others.  `exists_step_of_waits` rules
out deadlock: a thread waits only for threads of smaller rank.
-/

namespace Interleaving

open Transition

variable {σ τ α β : Type*}

/-- A shared state and the threads started so far, by number. -/
structure Config (σ τ : Type*) where
  shared : σ
  threads : List τ

/-- What the scheduler does: start a thread, or let one take a step; a step
reads `input` from outside. -/
inductive Label (α β : Type*)
  | start (argument : α)
  | step (thread : Nat) (input : β)

/-- Threads, as the state they start in and the step they take. -/
structure Program (σ τ α β : Type*) where
  start : α → τ
  step : Nat → σ → τ → β → Option (σ × τ)

namespace Program

variable (program : Program σ τ α β)

/-- The next configuration, where the step is possible. -/
def next (c : Config σ τ) : Label α β → Option (Config σ τ)
  | .start argument => some ⟨c.shared, c.threads ++ [program.start argument]⟩
  | .step i input =>
      match c.threads[i]? with
      | none => none
      | some t =>
          (program.step i c.shared t input).map fun (s, t') => ⟨s, c.threads.set i t'⟩

/-- The runs of the program: any interleaving of its threads. -/
abbrev Runs (c : Config σ τ) (labels : List (Label α β)) (c' : Config σ τ) : Prop :=
  Run (ofPartial program.next) c labels c'

end Program

/-- A label is permitted when the thread that takes the step may take it. -/
def Permits (permit : σ → τ → Prop) (c : Config σ τ) (label : Label α β) : Prop :=
  ∀ i b t, label = .step i b → c.threads[i]? = some t → permit c.shared t

/-- The runs in which every step is permitted. -/
abbrev PermittedRuns (program : Program σ τ α β) (permit : σ → τ → Prop) (c : Config σ τ)
    (labels : List (Label α β)) (c' : Config σ τ) : Prop :=
  Run (Guarded (ofPartial program.next) (Permits permit)) c labels c'

/-- No thread has been started. -/
def Config.initial (s : σ) : Config σ τ := ⟨s, []⟩

/-- The arguments of the threads, by number. -/
def starts (labels : List (Label α β)) : List α :=
  labels.filterMap fun
    | .start argument => some argument
    | .step _ _ => none

theorem starts_concat_start (labels : List (Label α β)) (a : α) :
    starts (labels ++ [.start a]) = starts labels ++ [a] := by
  simp [starts]

theorem starts_concat_step (labels : List (Label α β)) (i : Nat) (b : β) :
    starts (labels ++ [.step i b]) = starts labels := by
  simp [starts]

section Rules

variable {program : Program σ τ α β} {c c' : Config σ τ} {labels : List (Label α β)}

/-- What one label does. -/
theorem next_cases {label : Label α β} (h : program.next c label = some c') :
    (∃ a, label = .start a ∧ c' = ⟨c.shared, c.threads ++ [program.start a]⟩) ∨
    ∃ i b t s t', label = .step i b ∧ c.threads[i]? = some t ∧
      program.step i c.shared t b = some (s, t') ∧ c' = ⟨s, c.threads.set i t'⟩ := by
  cases label with
  | start a => exact .inl ⟨a, rfl, (Option.some.inj h).symm⟩
  | step i b =>
      simp only [Program.next] at h
      cases ht : c.threads[i]? with
      | none => simp [ht] at h
      | some t =>
          simp only [ht, Option.map_eq_some_iff, Prod.exists] at h
          obtain ⟨s, t', hstep, rfl⟩ := h
          exact .inr ⟨i, b, t, s, t', rfl, ht, hstep, rfl⟩

theorem next_step {i : Nat} {b : β} {t t' : τ} {s : σ} (ht : c.threads[i]? = some t)
    (hstep : program.step i c.shared t b = some (s, t')) :
    program.next c (.step i b) = some ⟨s, c.threads.set i t'⟩ := by
  simp only [Program.next, ht, hstep, Option.map_some]

/-- An invariant `I` of the shared state, given the number of threads, and an
invariant `T` of every thread. -/
def Holds (I : Nat → σ → Prop) (T : Nat → σ → τ → Prop) (c : Config σ τ) : Prop :=
  I c.threads.length c.shared ∧ ∀ (i : Nat) t, c.threads[i]? = some t → T i c.shared t

/-- **Rely-guarantee rule**, for runs of permitted steps. -/
theorem Holds.permittedRun {I : Nat → σ → Prop} {T : Nat → σ → τ → Prop} {permit : σ → τ → Prop}
    (hstart : ∀ n s a, I n s → I (n + 1) s ∧ T n s (program.start a))
    (hstep : ∀ n i s t b s' t', i < n → I n s → T i s t → permit s t →
      program.step i s t b = some (s', t') →
        (I n s' ∧ T i s' t') ∧ ∀ j u, j ≠ i → j < n → T j s u → T j s' u)
    (hrun : PermittedRuns program permit c labels c') (h : Holds I T c) : Holds I T c' := by
  refine hrun.invariant (fun c label c' h hnext => ?_) h
  obtain ⟨hnext, hpermit⟩ := hnext
  obtain ⟨hI, hT⟩ := h
  rcases next_cases hnext with ⟨a, rfl, rfl⟩ | ⟨i, b, t, s, t', rfl, ht, hadvance, rfl⟩
  · obtain ⟨hI', hnew⟩ := hstart _ _ a hI
    refine ⟨by simpa using hI', fun j u hu => ?_⟩
    rw [List.getElem?_append] at hu
    split at hu
    · exact hT j u hu
    · have hj : j = c.threads.length := by
        have := (List.getElem?_eq_some_iff.mp hu).1
        simp at this
        omega
      subst hj
      simp only [Nat.sub_self, List.getElem?_cons_zero, Option.some.injEq] at hu
      exact hu ▸ hnew
  · have hi := (List.getElem?_eq_some_iff.mp ht).1
    obtain ⟨⟨hI', hself⟩, hothers⟩ :=
      hstep _ i _ t b s t' hi hI (hT i t ht) (hpermit i b t rfl ht) hadvance
    refine ⟨by simpa using hI', fun j u hu => ?_⟩
    by_cases hji : j = i
    · subst hji
      rw [List.getElem?_set_self hi, Option.some.injEq] at hu
      exact hu ▸ hself
    · rw [List.getElem?_set_ne (Ne.symm hji)] at hu
      exact hothers j u hji (List.getElem?_eq_some_iff.mp hu).1 (hT j u hu)

/-- Where every step is permitted, every run is one of permitted steps. -/
theorem permittedRun_of_run (hrun : program.Runs c labels c') :
    PermittedRuns program (fun _ _ => True) c labels c' :=
  hrun.mono fun _ _ _ hnext => ⟨hnext, fun _ _ _ _ _ => trivial⟩

theorem run_of_permittedRun {permit : σ → τ → Prop} (hrun : PermittedRuns program permit c labels c') :
    program.Runs c labels c' :=
  hrun.mono fun _ _ _ hnext => hnext.1

/-- **Rely-guarantee rule.** -/
theorem Holds.run {I : Nat → σ → Prop} {T : Nat → σ → τ → Prop}
    (hstart : ∀ n s a, I n s → I (n + 1) s ∧ T n s (program.start a))
    (hstep : ∀ n i s t b s' t', i < n → I n s → T i s t → program.step i s t b = some (s', t') →
        (I n s' ∧ T i s' t') ∧ ∀ j u, j ≠ i → j < n → T j s u → T j s' u)
    (hrun : program.Runs c labels c') (h : Holds I T c) : Holds I T c' :=
  Holds.permittedRun hstart (fun n i s t b s' t' hi hI hT _ => hstep n i s t b s' t' hi hI hT)
    (permittedRun_of_run hrun) h

/-- **Provenance rule**: where a step adds only items of its thread, and a thread keeps the
items that are its own, every item that was added is some thread's. -/
theorem provenance {ρ : Type*} {I : Nat → σ → Prop} {T : Nat → σ → τ → Prop}
    (item : σ → ρ → Prop) (own : τ → ρ → Prop)
    (hstart : ∀ n s a, I n s → I (n + 1) s ∧ T n s (program.start a))
    (hstep : ∀ n i s t b s' t', i < n → I n s → T i s t → program.step i s t b = some (s', t') →
        (I n s' ∧ T i s' t') ∧ ∀ j u, j ≠ i → j < n → T j s u → T j s' u)
    (hitem : ∀ n i s t b s' t', i < n → I n s → T i s t → program.step i s t b = some (s', t') →
      (∀ r, item s' r → item s r ∨ own t' r) ∧ ∀ r, own t r → own t' r)
    (hrun : program.Runs c labels c') (h : Holds I T c) {r : ρ} (hr : item c'.shared r) :
    item c.shared r ∨ ∃ t ∈ c'.threads, own t r := by
  induction hrun with
  | nil => exact .inl hr
  | @snoc c' c'' labels label hrun hnext ih =>
      have hholds : Holds I T c' := Holds.run hstart hstep hrun h
      rcases next_cases hnext with ⟨a, rfl, rfl⟩ | ⟨i, b, t, s, t', rfl, ht, hadvance, rfl⟩
      · rcases ih hr with hold | ⟨u, hu, hown⟩
        · exact .inl hold
        · exact .inr ⟨u, List.mem_append_left _ hu, hown⟩
      · obtain ⟨hi, hget⟩ := List.getElem?_eq_some_iff.mp ht
        obtain ⟨hadds, hkeeps⟩ := hitem _ i _ t b s t' hi hholds.1 (hholds.2 i t ht) hadvance
        have hnew : t' ∈ c'.threads.set i t' := List.mem_set hi t'
        rcases hadds r hr with hr | hown
        · rcases ih hr with hold | ⟨u, hu, hown⟩
          · exact .inl hold
          · obtain ⟨j, hj, rfl⟩ := List.getElem_of_mem hu
            by_cases hji : j = i
            · subst hji
              exact .inr ⟨t', hnew, hkeeps r (hget ▸ hown)⟩
            · have hstays : (c'.threads.set i t')[j]? = some c'.threads[j] := by
                rw [List.getElem?_set_ne (Ne.symm hji), List.getElem?_eq_getElem hj]
              exact .inr ⟨_, List.mem_of_getElem? hstays, hown⟩
        · exact .inr ⟨t', hnew, hown⟩

/-- A thread that can take no step stays as it is. -/
theorem stays {i : Nat} {t : τ} (hfinal : ∀ s b, program.step i s t b = none)
    (hrun : program.Runs c labels c') (h : c.threads[i]? = some t) : c'.threads[i]? = some t := by
  have hkeep : ∀ (c : Config σ τ) label c', c.threads[i]? = some t →
      ofPartial program.next c label c' → c'.threads[i]? = some t := by
    intro c label c' h hnext
    rcases next_cases hnext with ⟨a, -, rfl⟩ | ⟨j, b, u, s, u', -, hu, hadvance, rfl⟩
    · rw [List.getElem?_append_left (List.getElem?_eq_some_iff.mp h).1]
      exact h
    · by_cases hji : j = i
      · subst hji
        obtain rfl := Option.some.inj (hu.symm.trans h)
        rw [hfinal] at hadvance
        contradiction
      · rw [List.getElem?_set_ne hji]
        exact h
  exact Run.invariant (P := fun c : Config σ τ => c.threads[i]? = some t) hkeep hrun h

/-- **Origin rule**: what a thread owes to its argument it owes to the
argument it was started with. -/
theorem origin {R : α → τ → Prop} (hstart : ∀ a, R a (program.start a))
    (hstep : ∀ i s a t b s' t', R a t → program.step i s t b = some (s', t') → R a t')
    {s : σ} (hrun : program.Runs (.initial s) labels c') :
    c'.threads.length = (starts labels).length ∧
      ∀ (i : Nat) t, c'.threads[i]? = some t → ∃ a, (starts labels)[i]? = some a ∧ R a t := by
  induction hrun with
  | nil => exact ⟨rfl, by simp [Config.initial]⟩
  | snoc _ hnext ih =>
      obtain ⟨hlen, hall⟩ := ih
      rcases next_cases hnext with ⟨a, rfl, rfl⟩ | ⟨i, b, t, s, t', rfl, ht, hadvance, rfl⟩
      · rw [starts_concat_start]
        refine ⟨by simp [hlen], fun j u hu => ?_⟩
        rw [List.getElem?_append] at hu ⊢
        rw [hlen] at hu
        split at hu
        · rename_i hj
          rw [if_pos hj]
          exact hall j u hu
        · rename_i hj
          rw [if_neg hj]
          rw [List.getElem?_singleton] at hu ⊢
          split at hu
          · rename_i hzero
            rw [if_pos hzero]
            exact ⟨a, rfl, Option.some.inj hu ▸ hstart a⟩
          · contradiction
      · rw [starts_concat_step]
        refine ⟨by simpa using hlen, fun j u hu => ?_⟩
        by_cases hji : j = i
        · subst hji
          rw [List.getElem?_set_self (List.getElem?_eq_some_iff.mp ht).1, Option.some.injEq] at hu
          obtain ⟨a, ha, hR⟩ := hall j t ht
          exact ⟨a, ha, hu ▸ hstep j _ a t b s t' hR hadvance⟩
        · rw [List.getElem?_set_ne (Ne.symm hji)] at hu
          exact hall j u hu

end Rules

/-! ## progress -/

section Progress

variable {program : Program σ τ α β} {c c' : Config σ τ} {labels : List (Label α β)} {input : β}

/-- The labels are steps on one input. -/
def Proceeds (input : β) (labels : List (Label α β)) : Prop :=
  ∀ label ∈ labels, ∃ i, label = .step i input

/-- Replacing an element by one of smaller rank lowers the sum of the ranks. -/
theorem sum_map_set_lt {rank : τ → Nat} {threads : List τ} {i : Nat} {t t' : τ} (ht : threads[i]? = some t)
    (hlt : rank t' < rank t) : ((threads.set i t').map rank).sum < (threads.map rank).sum := by
  induction threads generalizing i with
  | nil => contradiction
  | cons u threads ih =>
      cases i with
      | zero =>
          obtain rfl := Option.some.inj ht
          rw [List.set_cons_zero, List.map_cons, List.map_cons, List.sum_cons, List.sum_cons]
          exact Nat.add_lt_add_right hlt _
      | succ i =>
          rw [List.set_cons_succ, List.map_cons, List.map_cons, List.sum_cons, List.sum_cons]
          exact Nat.add_lt_add_left (ih ht) _

/-- **Termination rule**: where every step on an input lowers the rank of its
thread, the ranks bound the number of such steps. -/
theorem length_le_sum_rank (rank : τ → Nat)
    (hstep : ∀ i s t s' t', program.step i s t input = some (s', t') → rank t' < rank t)
    (hrun : program.Runs c labels c') (hlabels : Proceeds input labels) :
    labels.length + (c'.threads.map rank).sum ≤ (c.threads.map rank).sum := by
  induction hrun with
  | nil => exact Nat.le_of_eq (Nat.zero_add _)
  | @snoc c' c'' labels label _ hnext ih =>
      obtain ⟨i, hlabel⟩ := hlabels label (List.mem_append_right _ (List.mem_singleton_self _))
      have hbefore := ih fun label hmem => hlabels label (List.mem_append_left _ hmem)
      rcases next_cases hnext with ⟨a, rfl, -⟩ | ⟨j, b, t, s, t', rfl, ht, hadvance, rfl⟩
      · contradiction
      · obtain ⟨-, rfl⟩ := Label.step.inj hlabel
        have hlt := sum_map_set_lt ht (hstep _ _ _ _ _ hadvance)
        simp only [List.length_append, List.length_singleton]
        omega

/-- The steps that a thread takes. -/
def stepsOf (i : Nat) (labels : List (Label α β)) : Nat :=
  labels.countP fun
    | .start _ => false
    | .step j _ => j = i

/-- A new thread takes no step. -/
theorem stepsOf_start (i : Nat) (labels : List (Label α β)) (a : α) :
    stepsOf i (labels ++ [.start a]) = stepsOf i labels := by
  simp [stepsOf]

/-- A step is one of its thread. -/
theorem stepsOf_step (i j : Nat) (labels : List (Label α β)) (b : β) :
    stepsOf i (labels ++ [.step j b]) = stepsOf i labels + if j = i then 1 else 0 := by
  by_cases h : j = i <;> simp [stepsOf, h]

/-- **Termination rule** of one thread: where every step lowers the rank of its thread,
and threads start below a bound, the rank bounds the steps it has left. -/
theorem stepsOf_add_rank_le (rank : τ → Nat) {bound : Nat}
    (hstart : ∀ a, rank (program.start a) ≤ bound)
    (hstep : ∀ i s t b s' t', program.step i s t b = some (s', t') → rank t' < rank t) {s : σ}
    (hrun : program.Runs (.initial s) labels c') :
    (∀ i, c'.threads.length ≤ i → stepsOf i labels = 0) ∧
      ∀ (i : Nat) t, c'.threads[i]? = some t → stepsOf i labels + rank t ≤ bound := by
  induction hrun with
  | nil => exact ⟨fun _ _ => rfl, by simp [Config.initial]⟩
  | @snoc c' c'' labels label _ hnext ih =>
      obtain ⟨hunstarted, hbound⟩ := ih
      rcases next_cases hnext with ⟨a, rfl, rfl⟩ | ⟨j, b, t, s', t', rfl, ht, hadvance, rfl⟩
      · refine ⟨fun i hi => ?_, fun i u hu => ?_⟩
        · rw [List.length_append, List.length_singleton] at hi
          rw [stepsOf_start, hunstarted i (by omega)]
        · rw [stepsOf_start]
          rw [List.getElem?_append] at hu
          split at hu
          · exact hbound i u hu
          · next hi =>
            obtain rfl := List.mem_singleton.mp (List.mem_of_getElem? hu)
            rw [hunstarted i (by omega), Nat.zero_add]
            exact hstart a
      · have hj := (List.getElem?_eq_some_iff.mp ht).1
        have hlt := hstep _ _ _ _ _ _ hadvance
        refine ⟨fun i hi => ?_, fun i u hu => ?_⟩
        · rw [List.length_set] at hi
          have hne : j ≠ i := by omega
          rw [stepsOf_step, if_neg hne, hunstarted i hi]
        · by_cases hji : j = i
          · subst hji
            rw [List.getElem?_set_self hj] at hu
            obtain rfl := Option.some.inj hu
            have hbefore := hbound j t ht
            rw [stepsOf_step, if_pos rfl]
            omega
          · rw [List.getElem?_set_ne hji] at hu
            rw [stepsOf_step, if_neg hji]
            exact hbound i u hu

/-- **Progress rule**: where every thread that is not finished, at rank zero, can
take a step or waits for one of smaller rank that is not finished either, some
thread can take a step. -/
theorem exists_step_of_waits (rank : τ → Nat)
    (hwaits : ∀ (i : Nat) t, c.threads[i]? = some t → rank t ≠ 0 →
      (∃ s t', program.step i c.shared t input = some (s, t')) ∨
        ∃ (j : Nat) (u : τ), c.threads[j]? = some u ∧ rank u ≠ 0 ∧ rank u < rank t)
    {i : Nat} {t : τ} (ht : c.threads[i]? = some t) (hrank : rank t ≠ 0) :
    ∃ j c', program.next c (.step j input) = some c' := by
  induction hn : rank t using Nat.strongRecOn generalizing i t with
  | ind n ih =>
      rcases hwaits i t ht hrank with ⟨s, t', hstep⟩ | ⟨j, u, hu, hrank', hlt⟩
      · exact ⟨i, _, next_step ht hstep⟩
      · exact ih (rank u) (hn ▸ hlt) hu hrank' rfl

end Progress

/-! ## projections -/

section Projection

variable {σ' τ' α' β' : Type*} {program : Program σ τ α β} {program' : Program σ' τ' α' β'}

/-- What another program sees of a configuration. -/
def Config.map (f : σ → σ') (g : τ → τ') (c : Config σ τ) : Config σ' τ' :=
  ⟨f c.shared, c.threads.map g⟩

/-- **Projection rule**: when every thread starts as one of the other program,
and every step is one of the other program or nothing that it sees, every run
is one of the other program. -/
theorem run_map {f : σ → σ'} {g : τ → τ'}
    (hstart : ∀ a, ∃ a', g (program.start a) = program'.start a')
    (hstep : ∀ i s t b s' t', program.step i s t b = some (s', t') →
      f s' = f s ∧ g t' = g t ∨ ∃ b', program'.step i (f s) (g t) b' = some (f s', g t'))
    {c c' : Config σ τ} {labels : List (Label α β)} (hrun : program.Runs c labels c') :
    ∃ labels', program'.Runs (c.map f g) labels' (c'.map f g) := by
  induction hrun with
  | nil => exact ⟨[], .nil _⟩
  | @snoc c c' labels label hrun hnext ih =>
      obtain ⟨labels', hrun'⟩ := ih
      rcases next_cases hnext with ⟨a, rfl, rfl⟩ | ⟨i, b, t, s, t', rfl, ht, hadvance, rfl⟩
      · obtain ⟨a', ha'⟩ := hstart a
        refine ⟨labels' ++ [.start a'], hrun'.snoc ?_⟩
        simp [ofPartial, Program.next, Config.map, ha']
      · have hmap : (c.threads.map g)[i]? = some (g t) := by rw [List.getElem?_map, ht, Option.map_some]
        rcases hstep i _ t b s t' hadvance with ⟨hs, hg⟩ | ⟨b', hadvance'⟩
        · have hsame : (⟨s, c.threads.set i t'⟩ : Config σ τ).map f g = c.map f g := by
            obtain ⟨hi, hget⟩ := List.getElem?_eq_some_iff.mp hmap
            rw [Config.map, Config.map, List.map_set, hs, hg, ← hget, List.set_getElem_self]
          exact ⟨labels', hsame ▸ hrun'⟩
        · have hset : (⟨s, c.threads.set i t'⟩ : Config σ τ).map f g =
              ⟨f s, (c.map f g).threads.set i (g t')⟩ := by
            simp [Config.map, List.map_set]
          exact ⟨labels' ++ [.step i b'], hrun'.snoc (hset ▸ next_step hmap hadvance')⟩

end Projection

section Simulation

variable {σ' τ' β' : Type*} {program : Program σ τ α β} {program' : Program σ' τ' α β'}

/-- The steps of a program on the inputs that are allowed. -/
def Program.restrict (program : Program σ τ α β) (allowed : β → Bool) : Program σ τ α β where
  start := program.start
  step i s t b := if allowed b then program.step i s t b else none

theorem restrict_step {allowed : β → Bool} {i : Nat} {s s' : σ} {t t' : τ} {b : β}
    (h : (program.restrict allowed).step i s t b = some (s', t')) :
    allowed b = true ∧ program.step i s t b = some (s', t') := by
  simp only [Program.restrict] at h
  split at h
  · rename_i hallowed
    exact ⟨hallowed, h⟩
  · contradiction

/-- A run on allowed inputs. -/
theorem run_restrict {allowed : β → Bool} {c c' : Config σ τ} {labels : List (Label α β)}
    (hrun : program.Runs c labels c') (hallowed : ∀ i b, .step i b ∈ labels → allowed b = true) :
    (program.restrict allowed).Runs c labels c' := by
  induction hrun with
  | nil => exact .nil _
  | @snoc c' c'' labels label _ hnext ih =>
      refine (ih fun i b hmem => hallowed i b (List.mem_append_left _ hmem)).snoc ?_
      cases label with
      | start a => exact hnext
      | step i b =>
          have hstep : (program.restrict allowed).step = fun i s t b =>
              if allowed b then program.step i s t b else none := rfl
          rw [ofPartial, Program.next, hstep]
          simp only [hallowed i b (by simp), if_true]
          exact hnext

/-- **Simulation rule**: a projection under an invariant, for programs that are
started alike. -/
theorem simulates {I : Nat → σ → Prop} {T : Nat → σ → τ → Prop} {f : σ → σ'} {g : τ → τ'}
    (hstart : ∀ n s a, I n s → I (n + 1) s ∧ T n s (program.start a))
    (hstep : ∀ n i s t b s' t', i < n → I n s → T i s t → program.step i s t b = some (s', t') →
        (I n s' ∧ T i s' t') ∧ ∀ j u, j ≠ i → j < n → T j s u → T j s' u)
    (hstart' : ∀ a, g (program.start a) = program'.start a)
    (hstep' : ∀ n i s t b s' t', i < n → I n s → T i s t → program.step i s t b = some (s', t') →
      f s' = f s ∧ g t' = g t ∨ ∃ b', program'.step i (f s) (g t) b' = some (f s', g t'))
    {c c' : Config σ τ} {labels : List (Label α β)} (h : Holds I T c)
    (hrun : program.Runs c labels c') :
    ∃ labels', program'.Runs (c.map f g) labels' (c'.map f g) ∧ starts labels' = starts labels := by
  induction hrun with
  | nil => exact ⟨[], .nil _, rfl⟩
  | @snoc c' c'' labels label hrun hnext ih =>
      obtain ⟨labels', hrun', hstarts⟩ := ih
      have hholds : Holds I T c' := Holds.run hstart hstep hrun h
      rcases next_cases hnext with ⟨a, rfl, rfl⟩ | ⟨i, b, t, s, t', rfl, ht, hadvance, rfl⟩
      · refine ⟨labels' ++ [.start a], hrun'.snoc ?_, ?_⟩
        · simp [ofPartial, Program.next, Config.map, hstart']
        · rw [starts_concat_start, starts_concat_start, hstarts]
      · have hmap : (c'.threads.map g)[i]? = some (g t) := by
          rw [List.getElem?_map, ht, Option.map_some]
        have hi := (List.getElem?_eq_some_iff.mp ht).1
        rw [starts_concat_step]
        rcases hstep' _ i _ t b s t' hi hholds.1 (hholds.2 i t ht) hadvance with
          ⟨hs, hg⟩ | ⟨b', hadvance'⟩
        · have hsame : (⟨s, c'.threads.set i t'⟩ : Config σ τ).map f g = c'.map f g := by
            obtain ⟨hi, hget⟩ := List.getElem?_eq_some_iff.mp hmap
            rw [Config.map, Config.map, List.map_set, hs, hg, ← hget, List.set_getElem_self]
          exact ⟨labels', hsame ▸ hrun', hstarts⟩
        · have hset : (⟨s, c'.threads.set i t'⟩ : Config σ τ).map f g =
              ⟨f s, (c'.map f g).threads.set i (g t')⟩ := by
            simp [Config.map, List.map_set]
          refine ⟨labels' ++ [.step i b'], hrun'.snoc (hset ▸ next_step hmap hadvance'), ?_⟩
          rw [starts_concat_step, hstarts]

end Simulation

/-! ## logs -/

section Logs

variable {ω : Type*} {program : Program σ τ α β}

/-- What is logged along the labels, where a step from one configuration to the
next logs an event or nothing. -/
def logged (program : Program σ τ α β) (event : Config σ τ → Label α β → Config σ τ → Option ω)
    (c : Config σ τ) : List (Label α β) → List ω
  | [] => []
  | label :: labels =>
      match program.next c label with
      | none => []
      | some c' => (event c label c').toList ++ logged program event c' labels

variable {event : Config σ τ → Label α β → Config σ τ → Option ω} {c c' : Config σ τ}
  {labels : List (Label α β)}

/-- What has been logged comes before what is logged later. -/
theorem logged_append (hrun : program.Runs c labels c') (more : List (Label α β)) :
    logged program event c (labels ++ more) = logged program event c labels ++ logged program event c' more := by
  induction hrun generalizing more with
  | nil => rfl
  | snoc _ hnext ih =>
      have hnext' := hnext
      rw [ofPartial] at hnext'
      rw [List.append_assoc, ih, ih]
      simp [logged, hnext']

theorem logged_concat {label : Label α β} (hrun : program.Runs c labels c') {c'' : Config σ τ}
    (hnext : program.next c' label = some c'') :
    logged program event c (labels ++ [label]) =
      logged program event c labels ++ (event c' label c'').toList := by
  rw [logged_append hrun]
  simp [logged, hnext]

end Logs

/-! ## serial histories -/

section Completions

variable {ω δ : Type*} {program : Program σ τ α β} {outcome : τ → Option ω} {c c' : Config σ τ}
  {labels : List (Label α β)}

/-- What the label that led to `c` completed: the thread that took the step
and its outcome. -/
def completion (outcome : τ → Option ω) (c : Config σ τ) : Label α β → Option (Nat × ω)
  | .start _ => none
  | .step i _ => (c.threads[i]?.bind outcome).map fun o => (i, o)

/-- The threads that complete along the labels, in the order they complete. -/
def completions (program : Program σ τ α β) (outcome : τ → Option ω) (c : Config σ τ) :
    List (Label α β) → List (Nat × ω)
  | [] => []
  | label :: labels =>
      match program.next c label with
      | none => []
      | some c' => (completion outcome c' label).toList ++ completions program outcome c' labels

/-- The completions are what is logged of them. -/
theorem completions_eq_logged (c : Config σ τ) (labels : List (Label α β)) :
    completions program outcome c labels =
      logged program (fun _ label c' => completion outcome c' label) c labels := by
  induction labels generalizing c with
  | nil => rfl
  | cons label labels ih =>
      rw [completions, logged]
      cases program.next c label with
      | none => rfl
      | some c' => simp only [ih]

/-- **Real-time order**: what has completed comes before what completes later. -/
theorem completions_append (hrun : program.Runs c labels c') (more : List (Label α β)) :
    completions program outcome c (labels ++ more) =
      completions program outcome c labels ++ completions program outcome c' more := by
  simp only [completions_eq_logged, logged_append hrun]

theorem completions_concat {label : Label α β} (hrun : program.Runs c labels c')
    {c'' : Config σ τ} (hnext : program.next c' label = some c'') :
    completions program outcome c (labels ++ [label]) =
      completions program outcome c labels ++ (completion outcome c'' label).toList := by
  rw [completions_append hrun]
  simp [completions, hnext]

/-- The history holds the threads that have completed, each once and with its
outcome. -/
def Completes (outcome : τ → Option ω) (c : Config σ τ) (history : List (Nat × ω)) : Prop :=
  (history.map Prod.fst).Nodup ∧
    ∀ i o, (i, o) ∈ history ↔ ∃ t, c.threads[i]? = some t ∧ outcome t = some o

/-- A thread that starts completes nothing. -/
theorem Completes.start {history : List (Nat × ω)} (h : Completes outcome c history) {t : τ}
    (ht : outcome t = none) :
    Completes outcome { c with threads := c.threads ++ [t] } history := by
  refine ⟨h.1, fun j o => ?_⟩
  rw [h.2, List.getElem?_append]
  split
  · rfl
  · rename_i hj
    rw [List.getElem?_eq_none (Nat.le_of_not_lt hj), List.getElem?_singleton]
    split <;> simp [ht]

/-- A thread that takes a step had not completed, and completes with the
outcome it then has. -/
theorem Completes.step {history : List (Nat × ω)} (h : Completes outcome c history) {i : Nat}
    {t t' : τ} (ht : c.threads[i]? = some t) (hrunning : outcome t = none) (s : σ) :
    Completes outcome ⟨s, c.threads.set i t'⟩
      (history ++ ((outcome t').map fun o => (i, o)).toList) := by
  have hi := (List.getElem?_eq_some_iff.mp ht).1
  have hnew : ∀ o, (i, o) ∉ history := by
    intro o ho
    obtain ⟨u, hu, ho⟩ := (h.2 i o).mp ho
    rw [ht] at hu
    rw [← Option.some.inj hu, hrunning] at ho
    contradiction
  refine ⟨?_, fun j o => ?_⟩
  · cases outcome t' with
    | none => simpa using h.1
    | some o =>
        simp only [Option.map_some, Option.toList_some, List.map_append, List.map_cons,
          List.map_nil, List.nodup_append, h.1, true_and]
        refine ⟨List.nodup_singleton i, fun j hj k hk => ?_⟩
        obtain ⟨⟨j, o'⟩, hmem', rfl⟩ := List.mem_map.mp hj
        rw [List.mem_singleton.mp hk]
        rintro rfl
        exact hnew o' hmem'
  · rw [List.mem_append, h.2]
    by_cases hji : j = i
    · subst hji
      simp [List.getElem?_set_self hi, ht, hrunning]
    · have hother : (j, o) ∉ ((outcome t').map fun o => (i, o)).toList := by
        simp [Ne.symm hji]
      rw [List.getElem?_set_ne (Ne.symm hji), or_iff_left hother]

/-- The completions of a run are such a history. -/
theorem completes_completions (hstart : ∀ a, outcome (program.start a) = none)
    (hfinal : ∀ i s t b, (outcome t).isSome = true → program.step i s t b = none) {s₀ : σ}
    (hrun : program.Runs (.initial s₀) labels c) :
    Completes outcome c (completions program outcome (.initial s₀) labels) := by
  induction hrun with
  | nil => exact ⟨List.nodup_nil, by simp [completions, Config.initial]⟩
  | @snoc c c' labels label hrun hnext ih =>
      rw [completions_concat hrun hnext]
      rcases next_cases hnext with ⟨a, rfl, rfl⟩ | ⟨i, b, t, s, t', rfl, ht, hstep, rfl⟩
      · rw [completion, Option.toList_none, List.append_nil]
        exact ih.start (hstart a)
      · have hi := (List.getElem?_eq_some_iff.mp ht).1
        have hrunning : outcome t = none := by
          by_contra h
          rw [hfinal i _ t b (Option.isSome_iff_ne_none.mpr h)] at hstep
          contradiction
        have hcompletion : completion outcome ⟨s, c.threads.set i t'⟩ (.step i b : Label α β) =
            (outcome t').map fun o => (i, o) := by
          simp [completion, List.getElem?_set_self hi]
        rw [hcompletion]
        exact ih.step ht hrunning s

/-- A step that completes its thread does what the serial system does under the
outcome; any other step changes nothing the serial system sees. -/
def TakesEffect (outcome : τ → Option ω) (view : σ → δ) (exec : δ → Nat × ω → δ → Prop) (i : Nat)
    (s s' : σ) (t' : τ) : Prop :=
  match outcome t' with
  | none => view s' = view s
  | some o => exec (view s) (i, o) (view s')

/-- **Serial histories**: when threads take effect as they complete, the
completions are a run of the serial system. -/
theorem serial {I : Nat → σ → Prop} {T : Nat → σ → τ → Prop} {view : σ → δ}
    {exec : δ → Nat × ω → δ → Prop}
    (hstart : ∀ n s a, I n s → I (n + 1) s ∧ T n s (program.start a))
    (hstep : ∀ n i s t b s' t', i < n → I n s → T i s t → program.step i s t b = some (s', t') →
        (I n s' ∧ T i s' t') ∧ ∀ j u, j ≠ i → j < n → T j s u → T j s' u)
    (hserial : ∀ n i s t b s' t', i < n → I n s → T i s t → program.step i s t b = some (s', t') →
      TakesEffect outcome view exec i s s' t')
    (h : Holds I T c) (hrun : program.Runs c labels c') :
    Run exec (view c.shared) (completions program outcome c labels) (view c'.shared) := by
  induction hrun with
  | nil => exact .nil _
  | @snoc d e labels label hrun hnext ih =>
      rw [completions_concat hrun hnext]
      have hd : Holds I T d := Holds.run hstart hstep hrun h
      rcases next_cases hnext with ⟨a, rfl, rfl⟩ | ⟨i, b, t, s, t', rfl, ht, hadvance, rfl⟩
      · simpa [completion] using ih
      · have hi := (List.getElem?_eq_some_iff.mp ht).1
        have hdone := hserial _ i _ t b s t' hi hd.1 (hd.2 i t ht) hadvance
        rw [TakesEffect] at hdone
        have hcompletion : completion outcome ⟨s, d.threads.set i t'⟩ (.step i b : Label α β) =
            (outcome t').map fun o => (i, o) := by
          simp [completion, List.getElem?_set_self hi]
        rw [hcompletion]
        cases ho : outcome t' with
        | none =>
            rw [ho] at hdone
            simpa [hdone] using ih
        | some o =>
            rw [ho] at hdone
            exact ih.snoc hdone

end Completions

end Interleaving
