import Identifold.Storage.SwiftAdapter

/-!
# Identifold.Storage.SwiftGate

`MySQLTransactionGate` is a fair mutex.

`release` hands the gate over without a word: where a task waits, it leaves
`locked` set and resumes the first in the queue, which owns the gate from then
on although it has not run yet.  The tasks here acquire and release as often as
they like, each releasing once after every `acquire` that has returned; what
they do in between is left open.

The invariant counts owners, `owners`: the tasks that hold the gate and those
that have been resumed and have not run are one while the gate is locked, and
none while it is not.  The calls of the adapter are such tasks, on every path
of `allocate` (`gateView_run`).
-/

namespace Identifold

namespace Swift

open Interleaving Transition

/-! ## tasks -/

/-- Where a task stands: outside the gate, suspended in `acquire`, or between the
return of `acquire` and the execution of `release`. -/
inductive GatePhase
  | outside
  | waiting
  | holding
  deriving DecidableEq

/-- The step of a task at the gate: `acquire` up to its return or suspension, the
return of an `acquire` that was resumed, or `release`. -/
def gateStep (task : Nat) (gate : Gate) : GatePhase → Option (Gate × GatePhase)
  | .outside =>
      let (acquired, gate) := gate.acquire task
      some (gate, if acquired then .holding else .waiting)
  | .waiting =>
      if task ∈ gate.resumed then
        some ({ gate with resumed := gate.resumed.erase task }, .holding)
      else none
  | .holding => some (gate.release, .outside)

/-- Any number of tasks. -/
def gateClients : Program Gate GatePhase Unit Unit where
  start _ := .outside
  step task gate phase _ := gateStep task gate phase

/-- No task has been started, and the gate is free. -/
def freeGate : Config Gate GatePhase := .initial ⟨false, [], []⟩

/-! ## laws -/

/-- A task owns the gate when it holds it, or has been resumed and has not run. -/
def Owns (c : Config Gate GatePhase) (task : Nat) : Prop :=
  c.threads[task]? = some .holding ∨ task ∈ c.shared.resumed

/-- A task that steps from one phase into another. -/
def passes (before after : GatePhase) (c : Config Gate GatePhase) (label : Label Unit Unit)
    (c' : Config Gate GatePhase) : Option Nat :=
  match label with
  | .start _ => none
  | .step task _ =>
      if c.threads[task]? = some before ∧ c'.threads[task]? = some after then some task else none

/-- The tasks that were queued, in this order. -/
def queued (labels : List (Label Unit Unit)) : List Nat :=
  logged gateClients (passes .outside .waiting) freeGate labels

/-- The tasks that were admitted from the queue, in this order. -/
def admitted (labels : List (Label Unit Unit)) : List Nat :=
  logged gateClients (passes .waiting .holding) freeGate labels

/-- What a fair mutex promises of a run and of the configuration it leads to. -/
structure FairMutex (labels : List (Label Unit Unit)) (c : Config Gate GatePhase) : Prop where
  exclusive : ∀ i j, Owns c i → Owns c j → i = j
  locked : c.shared.locked = true ↔ ∃ i, Owns c i
  unlocked : c.shared.locked = false → c.shared.waiters = []
  fifo : queued labels = admitted labels ++ c.shared.resumed ++ c.shared.waiters

/-! ## the invariant -/

/-- The queue and the resumed are the tasks that are suspended, each once; and the
gate is locked as long as it has its one owner. -/
structure GateInvariant (c : Config Gate GatePhase) : Prop where
  suspended : ∀ i, i ∈ c.shared.resumed ++ c.shared.waiters ↔ c.threads[i]? = some .waiting
  nodup : (c.shared.resumed ++ c.shared.waiters).Nodup
  owners : c.threads.count .holding + c.shared.resumed.length = c.shared.locked.toNat
  unlocked : c.shared.locked = false → c.shared.waiters = []

/-- What a step at the gate does. -/
theorem gateStep_cases {task : Nat} {gate gate' : Gate} {phase phase' : GatePhase}
    (h : gateStep task gate phase = some (gate', phase')) :
    (phase = .outside ∧ phase' = .holding ∧ gate.locked = false ∧
      gate' = { gate with locked := true }) ∨
    (phase = .outside ∧ phase' = .waiting ∧ gate.locked = true ∧
      gate' = { gate with waiters := gate.waiters ++ [task] }) ∨
    (phase = .waiting ∧ phase' = .holding ∧ task ∈ gate.resumed ∧
      gate' = { gate with resumed := gate.resumed.erase task }) ∨
    (phase = .holding ∧ phase' = .outside ∧ gate.waiters = [] ∧
      gate' = { gate with locked := false }) ∨
    ∃ first rest, phase = .holding ∧ phase' = .outside ∧ gate.waiters = first :: rest ∧
      gate' = { gate with waiters := rest, resumed := gate.resumed ++ [first] } := by
  cases phase with
  | outside =>
      cases hlocked : gate.locked with
      | false =>
          simp only [gateStep, Gate.acquire, hlocked, Bool.false_eq_true, if_false, if_true,
            Option.some.injEq, Prod.mk.injEq] at h
          obtain ⟨rfl, rfl⟩ := h
          exact .inl ⟨rfl, rfl, rfl, rfl⟩
      | true =>
          simp only [gateStep, Gate.acquire, hlocked, Bool.false_eq_true, if_false, if_true,
            Option.some.injEq, Prod.mk.injEq] at h
          obtain ⟨rfl, rfl⟩ := h
          exact .inr (.inl ⟨rfl, rfl, rfl, rfl⟩)
  | waiting =>
      obtain ⟨hmem, hstep⟩ := Option.ite_none_right_eq_some.mp h
      obtain ⟨rfl, rfl⟩ := Prod.mk.inj (Option.some.inj hstep)
      exact .inr (.inr (.inl ⟨rfl, rfl, hmem, rfl⟩))
  | holding =>
      obtain ⟨rfl, rfl⟩ := Prod.mk.inj (Option.some.inj h)
      cases hwaiters : gate.waiters with
      | nil => exact .inr (.inr (.inr (.inl ⟨rfl, rfl, rfl, by simp [Gate.release, hwaiters]⟩)))
      | cons first rest =>
          exact .inr (.inr (.inr (.inr ⟨first, rest, rfl, rfl, rfl, by simp [Gate.release, hwaiters]⟩)))

namespace GateInvariant

variable {c : Config Gate GatePhase} {task : Nat} {phase phase' : GatePhase}

/-- The suspended tasks after the step of one task. -/
theorem suspended_set (h : GateInvariant c) (ht : c.threads[task]? = some phase) {suspended : List Nat}
    (hself : task ∈ suspended ↔ phase' = .waiting)
    (hothers : ∀ i, i ≠ task → (i ∈ suspended ↔ i ∈ c.shared.resumed ++ c.shared.waiters)) (i : Nat) :
    i ∈ suspended ↔ (c.threads.set task phase')[i]? = some .waiting := by
  by_cases hi : i = task
  · subst hi
    rw [List.getElem?_set_self (List.getElem?_eq_some_iff.mp ht).1, hself, Option.some.injEq]
  · rw [List.getElem?_set_ne (Ne.symm hi), hothers i hi, h.suspended]

/-- The holders after the step of one task. -/
theorem count_set (ht : c.threads[task]? = some phase) (phase' : GatePhase) :
    (c.threads.set task phase').count .holding + (if phase = .holding then 1 else 0) =
      c.threads.count .holding + (if phase' = .holding then 1 else 0) := by
  obtain ⟨hlt, hget⟩ := List.getElem?_eq_some_iff.mp ht
  have hpos : phase = .holding → 0 < c.threads.count .holding := by
    rintro rfl
    exact List.count_pos_iff.mpr (List.mem_of_getElem? ht)
  rw [List.count_set hlt, hget]
  by_cases hphase : phase = .holding
  · have hcount := hpos hphase
    subst hphase
    cases phase' <;> simp <;> omega
  · cases phase <;> cases phase' <;> simp at hphase ⊢

/-- A task outside the gate is not among the suspended. -/
theorem not_mem (h : GateInvariant c) (ht : c.threads[task]? = some phase) (hne : phase ≠ .waiting) :
    task ∉ c.shared.resumed ++ c.shared.waiters := by
  rw [h.suspended, ht, Option.some.injEq]
  exact hne

/-- Every step at the gate keeps the invariant. -/
theorem step (h : GateInvariant c) (ht : c.threads[task]? = some phase) {gate' : Gate}
    (hstep : gateStep task c.shared phase = some (gate', phase')) :
    GateInvariant ⟨gate', c.threads.set task phase'⟩ := by
  have howners := h.owners
  rcases gateStep_cases hstep with ⟨rfl, rfl, hlocked, rfl⟩ | ⟨rfl, rfl, hlocked, rfl⟩ |
    ⟨rfl, rfl, hmem, rfl⟩ | ⟨rfl, rfl, hwaiters, rfl⟩ | ⟨first, rest, rfl, rfl, hwaiters, rfl⟩
  · -- the gate was free
    have hcount := count_set ht .holding
    refine ⟨h.suspended_set ht ?_ fun _ _ => Iff.rfl, h.nodup, ?_, ?_⟩
    · exact iff_of_false (h.not_mem ht (by decide)) (by decide)
    · simp only [hlocked, Bool.toNat_false, reduceCtorEq, if_false, if_true] at howners hcount
      simp only [Bool.toNat_true]
      omega
    · exact fun hfalse => absurd hfalse.symm Bool.false_ne_true
  · -- the task is queued
    have hnot := h.not_mem ht (by decide)
    have hcount := count_set ht .waiting
    refine ⟨h.suspended_set ht ?_ fun i hi => ?_, ?_, ?_, ?_⟩
    · exact iff_of_true (by simp) rfl
    · simp [hi]
    · rw [← List.append_assoc]
      exact List.nodup_append.mpr ⟨h.nodup, List.nodup_singleton task, fun i hi j hj =>
        List.mem_singleton.mp hj ▸ fun heq => hnot (heq ▸ hi)⟩
    · simp only [reduceCtorEq, if_false] at hcount
      simp only
      omega
    · exact fun hfalse => absurd (hlocked.symm.trans hfalse) (by decide)
  · -- the task runs again
    have hcount := count_set ht .holding
    have hnodup := List.nodup_append.mp h.nodup
    have hlength := List.length_erase_of_mem hmem
    have hpos := List.length_pos_of_mem hmem
    have hnot : task ∉ c.shared.resumed.erase task ++ c.shared.waiters := by
      intro hin
      rcases List.mem_append.mp hin with hresumed | hwaiting
      · exact hnodup.1.not_mem_erase hresumed
      · exact hnodup.2.2 task hmem task hwaiting rfl
    refine ⟨h.suspended_set ht ?_ fun i hi => ?_, ?_, ?_, h.unlocked⟩
    · exact iff_of_false hnot (by decide)
    · rw [List.mem_append, List.mem_append, List.mem_erase_of_ne hi]
    · exact h.nodup.sublist ((List.erase_sublist).append (List.Sublist.refl _))
    · simp only [reduceCtorEq, if_false, if_true] at hcount
      simp only [hlength]
      omega
  · -- nobody waits
    have hcount := count_set ht .outside
    simp only [reduceCtorEq, if_false, if_true] at hcount
    have hle := Bool.toNat_le c.shared.locked
    refine ⟨h.suspended_set ht ?_ fun _ _ => Iff.rfl, h.nodup, ?_, fun _ => hwaiters⟩
    · exact iff_of_false (h.not_mem ht (by decide)) (by decide)
    · simp only [Bool.toNat_false]
      omega
  · -- the first in the queue becomes the owner
    have hcount := count_set ht .outside
    simp only [reduceCtorEq, if_false, if_true] at hcount
    have hqueue : c.shared.resumed ++ [first] ++ rest = c.shared.resumed ++ c.shared.waiters := by
      rw [hwaiters, List.append_assoc, List.singleton_append]
    refine ⟨h.suspended_set ht ?_ fun i _ => ?_, ?_, ?_, ?_⟩
    · rw [hqueue]
      exact iff_of_false (h.not_mem ht (by decide)) (by decide)
    · rw [hqueue]
    · simp only [hqueue]
      exact h.nodup
    · simp only [List.length_append, List.length_singleton]
      omega
    · intro hfalse
      have hnil := h.unlocked hfalse
      rw [hwaiters] at hnil
      contradiction

/-- A task that starts is outside the gate. -/
theorem start (h : GateInvariant c) :
    GateInvariant ⟨c.shared, c.threads ++ [.outside]⟩ where
  suspended i := by
    rw [h.suspended]
    by_cases hi : i < c.threads.length
    · rw [List.getElem?_append_left hi]
    · rw [List.getElem?_eq_none (Nat.le_of_not_lt hi), List.getElem?_append_right (Nat.le_of_not_lt hi),
        List.getElem?_singleton]
      split <;> simp
  nodup := h.nodup
  owners := by
    rw [List.count_append, List.count_singleton]
    simpa using h.owners
  unlocked := h.unlocked

/-- **The invariant holds along every run.** -/
theorem run {labels : List (Label Unit Unit)} (hrun : gateClients.Runs freeGate labels c) :
    GateInvariant c := by
  have hfree : GateInvariant freeGate :=
    ⟨by simp [freeGate, Config.initial], List.nodup_nil, rfl, fun _ => rfl⟩
  refine Run.invariant (fun c label c' h hnext => ?_) hrun hfree
  rcases next_cases hnext with ⟨a, -, rfl⟩ | ⟨i, b, t, s, t', -, ht, hstep, rfl⟩
  · exact h.start
  · exact h.step ht hstep

/-- At most one task has been resumed and has not run. -/
theorem resumed_eq (h : GateInvariant c) (hmem : task ∈ c.shared.resumed) :
    c.shared.resumed = [task] := by
  have howners := h.owners
  have hle := Bool.toNat_le c.shared.locked
  have hpos := List.length_pos_of_mem hmem
  obtain ⟨i, hi⟩ := List.length_eq_one_iff.mp (show c.shared.resumed.length = 1 by omega)
  rw [hi, List.mem_singleton] at hmem
  rw [hi, hmem]

/-- At most one task owns the gate. -/
theorem exclusive (h : GateInvariant c) {i j : Nat} (hi : Owns c i) (hj : Owns c j) : i = j := by
  have howners := h.owners
  have hle := Bool.toNat_le c.shared.locked
  have hholds : ∀ {k}, c.threads[k]? = some GatePhase.holding → 0 < c.threads.count .holding :=
    fun hk => List.count_pos_iff.mpr (List.mem_of_getElem? hk)
  rcases hi with hi | hi <;> rcases hj with hj | hj
  · -- without the one, nobody holds the gate
    by_contra hne
    have hcount := count_set hi .outside
    simp only [reduceCtorEq, if_false, if_true] at hcount
    have hrest : (c.threads.set i .outside)[j]? = some .holding := by
      rwa [List.getElem?_set_ne hne]
    have hpos := List.count_pos_iff.mpr (List.mem_of_getElem? hrest)
    omega
  · have hpos := hholds hi
    have hpos' := List.length_pos_of_mem hj
    omega
  · have hpos := hholds hj
    have hpos' := List.length_pos_of_mem hi
    omega
  · rw [h.resumed_eq hj, List.mem_singleton] at hi
    exact hi

/-- The gate is locked as long as it has an owner. -/
theorem locked_iff (h : GateInvariant c) : c.shared.locked = true ↔ ∃ i, Owns c i := by
  have howners := h.owners
  constructor
  · intro hlocked
    rw [hlocked, Bool.toNat_true] at howners
    by_cases hresumed : c.shared.resumed = []
    · have hpos : 0 < c.threads.count .holding := by
        rw [hresumed, List.length_nil] at howners
        omega
      obtain ⟨i, hi⟩ := List.mem_iff_getElem?.mp (List.count_pos_iff.mp hpos)
      exact ⟨i, .inl hi⟩
    · obtain ⟨i, hi⟩ := List.exists_mem_of_ne_nil _ hresumed
      exact ⟨i, .inr hi⟩
  · rintro ⟨i, hi | hi⟩
    · have hpos := List.count_pos_iff.mpr (List.mem_of_getElem? hi)
      by_contra hfree
      rw [Bool.eq_false_of_not_eq_true hfree, Bool.toNat_false] at howners
      omega
    · have hpos := List.length_pos_of_mem hi
      by_contra hfree
      rw [Bool.eq_false_of_not_eq_true hfree, Bool.toNat_false] at howners
      omega

end GateInvariant

/-! ## the order of admission -/

/-- **First come, first served**: the queue is what is left of it. -/
theorem queued_eq {labels : List (Label Unit Unit)} {c : Config Gate GatePhase}
    (hrun : gateClients.Runs freeGate labels c) :
    queued labels = admitted labels ++ c.shared.resumed ++ c.shared.waiters := by
  induction hrun with
  | nil => rfl
  | @snoc c c' labels label hrun hnext ih =>
      have hc := GateInvariant.run hrun
      rw [queued, admitted, logged_concat hrun hnext, logged_concat hrun hnext, ← queued, ← admitted, ih]
      rcases next_cases hnext with ⟨a, rfl, rfl⟩ | ⟨i, b, t, s, t', rfl, ht, hstep, rfl⟩
      · simp [passes]
      · have hi := (List.getElem?_eq_some_iff.mp ht).1
        have hpasses : ∀ before after, passes before after c (.step i b) ⟨s, c.threads.set i t'⟩ =
            if t = before ∧ t' = after then some i else none := by
          intro before after
          simp only [passes, ht, List.getElem?_set_self hi, Option.some.injEq]
        rw [hpasses, hpasses]
        rcases gateStep_cases hstep with ⟨rfl, rfl, hlocked, rfl⟩ | ⟨rfl, rfl, hlocked, rfl⟩ |
          ⟨rfl, rfl, hmem, rfl⟩ | ⟨rfl, rfl, hwaiters, rfl⟩ | ⟨first, rest, rfl, rfl, hwaiters, rfl⟩
        · simp
        · simp
        · -- only one task has been resumed
          have hone := hc.resumed_eq hmem
          simp [hone]
        · simp
        · simp [hwaiters]

/-- Every run of tasks meets the laws. -/
theorem fairMutex_of_run {labels : List (Label Unit Unit)} {c : Config Gate GatePhase}
    (hrun : gateClients.Runs freeGate labels c) : FairMutex labels c :=
  have h := GateInvariant.run hrun
  ⟨fun _ _ => h.exclusive, h.locked_iff, h.unlocked, queued_eq hrun⟩

/-! ## the calls of the adapter -/

/-- Where a call stands at the gate. -/
def Phase.atGate : Phase → GatePhase
  | .waiting _ => .waiting
  | .transacting _ _ _ _ | .rollingBack _ _ _ | .sleeping _ _ | .releasing _ => .holding
  | _ => .outside

/-- What the gate sees of the calls. -/
def gateView (c : Config Shared Thread) : Config Gate GatePhase :=
  c.map Shared.gate fun t => t.phase.atGate

theorem atGate_startCall (call : Call) : (startCall call).atGate = .outside := by
  cases call with
  | reserve request =>
      rw [startCall]
      cases mysqlUuid request.machineId <;> rfl
  | allocate request =>
      rw [startCall]
      split <;> rfl

theorem atGate_startAttempt (request : SequenceAllocationRequest) (attempt : Nat) :
    (startAttempt request attempt).atGate = .holding := by
  rw [startAttempt]
  cases mysqlUuid request.machineId <;> rfl

theorem atGate_afterRollback (request : SequenceAllocationRequest) (attempt : Nat) (error : SwiftError) :
    (afterRollback request attempt error).atGate = .holding := by
  rw [afterRollback]
  split <;> rfl

/-- A step of a call is a step at the gate, or leaves it alone. -/
theorem stepPhase_atGate {thread : Nat} {s s' : Shared} {fault : Option Fault} {phase phase' : Phase}
    (h : stepPhase thread s fault phase = some (s', phase')) :
    s'.gate = s.gate ∧ phase'.atGate = phase.atGate ∨
      gateStep thread s.gate phase.atGate = some (s'.gate, phase'.atGate) := by
  cases phase with
  | inserting row =>
      obtain ⟨rfl, rfl⟩ := Prod.mk.inj (Option.some.inj h)
      exact .inl ⟨rfl, rfl⟩
  | inserted reply =>
      cases reply <;> obtain ⟨rfl, rfl⟩ := Prod.mk.inj (Option.some.inj h) <;> exact .inl ⟨rfl, rfl⟩
  | reserved result => contradiction
  | acquiring request =>
      -- `acquire` takes a free gate or queues
      refine .inr ?_
      cases hlocked : s.gate.locked with
      | false =>
          simp only [stepPhase, Gate.acquire, hlocked, Bool.false_eq_true, if_false, if_true,
            Option.some.injEq, Prod.mk.injEq] at h
          obtain ⟨rfl, rfl⟩ := h
          rw [atGate_startAttempt]
          simp [gateStep, Gate.acquire, hlocked, Phase.atGate]
      | true =>
          simp only [stepPhase, Gate.acquire, hlocked, Bool.false_eq_true, if_false, if_true,
            Option.some.injEq, Prod.mk.injEq] at h
          obtain ⟨rfl, rfl⟩ := h
          simp [gateStep, Gate.acquire, hlocked, Phase.atGate]
  | waiting request =>
      -- a resumed waiter goes on with its first attempt
      obtain ⟨hmem, hstep⟩ := Option.ite_none_right_eq_some.mp h
      obtain ⟨rfl, rfl⟩ := Prod.mk.inj (Option.some.inj hstep)
      refine .inr ?_
      rw [Phase.atGate, gateStep, if_pos hmem, atGate_startAttempt]
  | transacting request machineId attempt point =>
      -- the statements of a transaction leave the gate held
      obtain ⟨rfl, rfl⟩ := Prod.mk.inj (Option.some.inj h)
      refine .inl ⟨rfl, ?_⟩
      split <;> rfl
  | rollingBack request attempt error =>
      obtain ⟨rfl, rfl⟩ := Prod.mk.inj (Option.some.inj h)
      exact .inl ⟨rfl, atGate_afterRollback request attempt error⟩
  | sleeping request attempt =>
      cases fault with
      | none =>
          obtain ⟨rfl, rfl⟩ := Prod.mk.inj (Option.some.inj h)
          exact .inl ⟨rfl, atGate_startAttempt request (attempt + 1)⟩
      | some fault =>
          obtain ⟨rfl, rfl⟩ := Prod.mk.inj (Option.some.inj h)
          exact .inl ⟨rfl, rfl⟩
  | releasing result =>
      -- `release`
      obtain ⟨rfl, rfl⟩ := Prod.mk.inj (Option.some.inj h)
      exact .inr rfl
  | allocated result => contradiction

/-- **The calls are tasks at the gate**: every run of the adapter is one of
tasks that release once after each `acquire` that has returned, whatever
happens to their statements. -/
theorem gateView_run {labels : List (Label Call (Option Fault))} {c : Config Shared Thread}
    {connection : Connection}
    (hrun : program.Runs (.initial ⟨connection, ⟨false, [], []⟩⟩) labels c) :
    ∃ labels', gateClients.Runs freeGate labels' (gateView c) := by
  have hstart : ∀ call, ∃ argument, (program.start call).phase.atGate = gateClients.start argument :=
    fun call => ⟨(), atGate_startCall call⟩
  refine run_map (f := Shared.gate) (g := fun t => t.phase.atGate) hstart
    (fun i s t fault s' t' hstep => ?_) hrun
  obtain ⟨⟨s'', phase'⟩, hphase, heq⟩ := Option.map_eq_some_iff.mp hstep
  obtain ⟨rfl, rfl⟩ := Prod.mk.inj heq
  rcases stepPhase_atGate hphase with hsame | hgate
  · exact .inl hsame
  · exact .inr ⟨(), hgate⟩

/-- **The gate is a fair mutex**, for any tasks that release once after each
`acquire` that has returned, and so for the calls of the adapter. -/
theorem transactionGate_fair :
    (∀ labels c, gateClients.Runs freeGate labels c → FairMutex labels c) ∧
      ∀ connection labels c, program.Runs (.initial ⟨connection, ⟨false, [], []⟩⟩) labels c →
        ∃ labels', gateClients.Runs freeGate labels' (gateView c) ∧
          FairMutex labels' (gateView c) := by
  refine ⟨fun _ _ => fairMutex_of_run, fun connection labels c hrun => ?_⟩
  obtain ⟨labels', hgate⟩ := gateView_run hrun
  exact ⟨labels', hgate, fairMutex_of_run hgate⟩

/-- The second task is resumed while the third waits. -/
theorem transactionGate_fair_handover :
    let labels : List (Label Unit Unit) :=
      [.start (), .start (), .start (), .step 0 (), .step 1 (), .step 2 (), .step 0 ()]
    let c : Config Gate GatePhase := ⟨⟨true, [2], [1]⟩, [.outside, .waiting, .waiting]⟩
    gateClients.Runs freeGate labels c ∧ FairMutex labels c := by
  intro labels c
  have hrun : gateClients.Runs freeGate labels c := Run.of_foldlM rfl
  exact ⟨hrun, transactionGate_fair.1 labels c hrun⟩

end Swift

end Identifold
