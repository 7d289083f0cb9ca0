import Identifold.Storage.PostgresStorage
import Mathlib.Algebra.Order.BigOperators.Group.List

/-!
# Identifold.Storage.PostgresProgress

The storage calls do not deadlock, and they complete.

A call may wait in three places: for a counter row or a reference that another
transaction has inserted, for a row lock, and for an allocation row.  Whoever holds
such a thing has fewer statements left than whoever waits for it, so the waits form
no cycle; and every statement leaves one less.

* `execute_remaining` — a statement leaves one less;
* `execute_waits` — whoever is waited for has fewer;
* `storage_waits` — the two for both functions.
-/

namespace Identifold

namespace Postgres

open Interleaving Holding Database Transition

/-! ## statements that are left -/

/-- The statements a call of `identifold_allocate_sequence` has left, at most. -/
@[simp] def Phase.remaining : Phase → Nat
  | .replaying => 8
  | .creating => 7
  | .locking => 6
  | .waiting => 5
  | .rechecking _ => 4
  | .updating _ => 3
  | .recording _ => 2
  | .returning _ => 1
  | .done _ => 0

/-- The statements a reservation has left. -/
@[simp] def ReservePhase.remaining : ReservePhase → Nat
  | .inserting => 2
  | .returning _ => 1
  | .done _ => 0

def StorageSession.remaining : StorageSession → Nat
  | .reserve _ phase => phase.remaining
  | .allocate session => session.phase.remaining

theorem storageOutcome_isSome_iff {t : StorageSession} :
    (storageOutcome t).isSome = true ↔ t.remaining = 0 := by
  cases t with
  | reserve call phase =>
      cases phase <;> simp [storageOutcome, StorageSession.remaining]
  | allocate session =>
      cases h : session.phase <;>
        simp [storageOutcome, outcome, h, StorageSession.remaining]

theorem remaining_le (t : StorageSession) : t.remaining ≤ 8 := by
  cases t with
  | reserve call phase => cases phase <;> simp [StorageSession.remaining]
  | allocate session => cases h : session.phase <;> simp [StorageSession.remaining, h]

/-! ## every statement leaves one less -/

section Statements

variable {i : Nat} {s s' : Server} {call : AllocateCall} {phase phase' : Phase}

theorem execute_remaining (h : execute i s call phase = some (.ok (s', phase'))) :
    phase'.remaining < phase.remaining := by
  cases phase with
  | replaying =>
      obtain ⟨found, -, hfound⟩ := bind_eq_ok_iff.mp (Option.some.inj h)
      cases found <;> cases pure_eq_ok_iff.mp hfound <;> simp
  | creating =>
      rw [execute] at h
      split at h
      · cases h
      split at h
      · cases h
        simp
      split at h
      · cases h
      · cases h
        simp
  | locking =>
      rw [execute] at h
      split at h <;> cases h
      simp
  | waiting =>
      rw [execute] at h
      split at h
      · cases h
      · obtain ⟨lastValue, -, hret⟩ := bind_eq_ok_iff.mp (Option.some.inj h)
        cases pure_eq_ok_iff.mp hret
        simp
  | rechecking lastValue =>
      rw [execute] at h
      split at h <;> cases h <;> simp
  | updating lastValue =>
      obtain ⟨_, -, h⟩ := bind_eq_ok_iff.mp (Option.some.inj h)
      obtain ⟨_, -, hret⟩ := bind_eq_ok_iff.mp h
      cases pure_eq_ok_iff.mp hret
      simp
  | recording allocated =>
      rw [execute] at h
      split at h
      · cases h
      split at h
      · cases h
      · cases h
        simp
  | returning sequence =>
      cases h
      simp
  | done result => cases h

/-- A call that has to wait, and the transaction it waits for. -/
theorem execute_waits (h : execute i s call phase = none) (hphase : phase.remaining ≠ 0) :
    ∃ j, j ≠ i ∧ (phase.remaining = 7 ∧ (s.pending j).created ≠ [] ∨
      phase.remaining = 5 ∧ (s.pending j).locked ≠ [] ∨
      phase.remaining = 2 ∧ (s.pending j).recorded ≠ []) := by
  cases phase with
  | replaying => cases h
  | creating =>
      rw [execute] at h
      split at h
      · cases h
      split at h
      · cases h
      split at h
      · rename_i hflight
        simp only [sequenceConflicts, List.any_eq_true] at hflight
        -- the row in flight is another call's
        obtain ⟨r, hr, -⟩ := hflight
        obtain ⟨j, hj, hmem⟩ := mem_heldByOthers.mp hr
        exact ⟨j, hj, .inl ⟨rfl, List.ne_nil_of_mem hmem⟩⟩
      · cases h
  | locking =>
      rw [execute] at h
      split at h <;> cases h
  | waiting =>
      rw [execute] at h
      split at h
      · rename_i hlocked
        obtain ⟨j, hj, hmem⟩ := mem_heldByOthers.mp hlocked
        exact ⟨j, hj, .inr (.inl ⟨rfl, List.ne_nil_of_mem hmem⟩)⟩
      · cases h
  | rechecking lastValue =>
      rw [execute] at h
      split at h <;> cases h
  | updating lastValue => cases h
  | recording allocated =>
      rw [execute] at h
      split at h
      · cases h
      split at h
      · rename_i hflight
        simp only [allocationConflicts, List.any_eq_true] at hflight
        obtain ⟨r, hr, -⟩ := hflight
        obtain ⟨j, hj, hmem⟩ := mem_heldByOthers.mp hr
        exact ⟨j, hj, .inr (.inr ⟨rfl, List.ne_nil_of_mem hmem⟩)⟩
      · cases h
  | returning sequence => cases h
  | done result => exact absurd rfl hphase

/-- So does a reservation, for one that has inserted its row. -/
theorem executeReserve_waits {s : Storage} {call : ReserveCall} {phase : ReservePhase}
    (h : executeReserve i s call phase = none) (hphase : phase.remaining ≠ 0) :
    phase.remaining = 2 ∧ ∃ j, s.insertedBy j ≠ [] := by
  cases phase with
  | inserting =>
      rw [executeReserve] at h
      split at h
      · cases h
      split at h
      · cases h
      split at h
      · rename_i hflight
        simp only [referenceConflicts, List.any_eq_true] at hflight
        obtain ⟨r, hr, -⟩ := hflight
        obtain ⟨j, -, hmem⟩ := mem_heldByOthers.mp hr
        exact ⟨rfl, j, List.ne_nil_of_mem hmem⟩
      · cases h
  | returning found => cases h
  | done result => exact absurd rfl hphase

end Statements

/-! ## who is waited for -/

section Holders

variable {db : Database} {p : Pending} {call : AllocateCall} {phase : Phase}

/-- A transaction that has inserted a counter row is past its insert. -/
theorem Fits.remaining_of_created (h : Fits db p call phase) (hcreated : p.created ≠ []) :
    phase.remaining ≠ 0 ∧ phase.remaining ≤ 6 := by
  cases h with
  | replaying hp | creating hp | returned _ hp | failed _ hp | aborted hp =>
      exact absurd (congrArg Pending.created hp) hcreated
  | replayed _ _ hc => exact absurd hc hcreated
  | locking | waiting | rechecking | updating | recording | recorded => simp

/-- A transaction that has locked a counter row is past its lock. -/
theorem Fits.remaining_of_locked (h : Fits db p call phase) (hlocked : p.locked ≠ []) :
    phase.remaining ≠ 0 ∧ phase.remaining ≤ 4 := by
  cases h with
  | replaying hp | creating hp | returned _ hp | failed _ hp | aborted hp =>
      exact absurd (congrArg Pending.locked hp) hlocked
  | locking _ hl | waiting _ hl => exact absurd hl hlocked
  | rechecking | updating | recording | recorded | replayed => simp

/-- A transaction that has inserted an allocation row is at its `COMMIT`. -/
theorem Fits.remaining_of_recorded (h : Fits db p call phase) (hrecorded : p.recorded ≠ []) :
    phase.remaining = 1 := by
  cases h with
  | replaying hp | creating hp | returned _ hp | failed _ hp | aborted hp =>
      exact absurd (congrArg Pending.recorded hp) hrecorded
  | locking _ _ _ hr | waiting _ _ _ hr | rechecking _ _ _ hr | updating _ _ _ hr
  | recording _ _ _ _ hr | replayed _ _ _ _ hr => exact absurd hr hrecorded
  | recorded => rfl

/-- A reservation that has inserted its row is at its `COMMIT`. -/
theorem Reserves.remaining_of_inserted {held : List ReferenceRow} {call : ReserveCall}
    {phase : ReservePhase} (h : Reserves db held call phase) (hheld : held ≠ []) :
    phase.remaining = 1 := by
  cases h with
  | won => rfl
  | inserting hnil | lost hnil | reserved hnil | refused hnil | failed hnil | aborted hnil =>
      exact absurd hnil hheld

end Holders

/-! ## runs -/

section Runs

variable {labels steps : List (Label StorageCall Input)} {c c' : Config Storage StorageSession}

/-- What is locked or written is locked or written by an allocation. -/
theorem allocation_of_pending (h : Holds StorageSound StorageKnows c) {j : Nat}
    (hpending : c.shared.server.pending j ≠ .none) :
    ∃ session, c.threads[j]? = some (.allocate session) ∧
      Fits c.shared.server.committed (c.shared.server.pending j) session.call session.phase := by
  obtain ⟨hsound, hknows⟩ := h
  have hj : j < c.threads.length := by
    by_contra hj
    exact hpending (hsound.server.unstarted j (Nat.le_of_not_lt hj))
  cases ht : c.threads[j] with
  | reserve call phase =>
      have hget := List.getElem?_eq_some_iff.mpr ⟨hj, ht⟩
      exact absurd (hknows j _ hget).1 hpending
  | allocate session =>
      have hget := List.getElem?_eq_some_iff.mpr ⟨hj, ht⟩
      exact ⟨session, hget, (hknows j _ hget).2⟩

/-- A reference in flight is that of a reservation. -/
theorem reservation_of_inserted (h : Holds StorageSound StorageKnows c) {j : Nat}
    (hinserted : c.shared.insertedBy j ≠ []) :
    ∃ call phase, c.threads[j]? = some (.reserve call phase) ∧
      Reserves c.shared.committed (c.shared.insertedBy j) call phase := by
  obtain ⟨hsound, hknows⟩ := h
  have hj : j < c.threads.length := by
    by_contra hj
    exact hinserted (hsound.unstarted j (Nat.le_of_not_lt hj))
  cases ht : c.threads[j] with
  | reserve call phase =>
      have hget := List.getElem?_eq_some_iff.mpr ⟨hj, ht⟩
      exact ⟨call, phase, hget, (hknows j _ hget).2⟩
  | allocate session =>
      have hget := List.getElem?_eq_some_iff.mpr ⟨hj, ht⟩
      exact absurd (hknows j _ hget).1 hinserted

/-- **Waits**: a call that has statements left can execute the next, or waits for
one that has fewer left. -/
theorem storage_waits (h : Holds StorageSound StorageKnows c) {i : Nat} {t : StorageSession}
    (hremaining : t.remaining ≠ 0) :
    (∃ s t', storage.step i c.shared t .proceed = some (s, t')) ∨
      ∃ (j : Nat) (u : StorageSession), c.threads[j]? = some u ∧ u.remaining ≠ 0 ∧
        u.remaining < t.remaining := by
  cases t with
  | reserve call phase =>
      cases hexec : executeReserve i c.shared call phase with
      | some result =>
          cases result <;> exact .inl ⟨_, _, by simp only [storage, storageStep, hexec]; rfl⟩
      | none =>
          obtain ⟨htwo, j, hheld⟩ := executeReserve_waits hexec hremaining
          obtain ⟨call', phase', hj, hknows⟩ := reservation_of_inserted h hheld
          have hone := hknows.remaining_of_inserted hheld
          refine .inr ⟨j, _, hj, ?_⟩
          simp only [StorageSession.remaining]
          omega
  | allocate session =>
      cases hexec : execute i c.shared.server session.call session.phase with
      | some result =>
          cases result <;> exact .inl ⟨_, _, by simp only [storage, storageStep, step, hexec]; rfl⟩
      | none =>
          obtain ⟨j, -, hholder⟩ := execute_waits hexec hremaining
          have hpending : c.shared.server.pending j ≠ .none := by
            intro hnone
            simp [hnone, Pending.none] at hholder
          obtain ⟨session', hj, hfits⟩ := allocation_of_pending h hpending
          refine .inr ⟨j, _, hj, ?_⟩
          simp only [StorageSession.remaining]
          rcases hholder with ⟨hphase, hcreated⟩ | ⟨hphase, hlocked⟩ | ⟨hphase, hrecorded⟩
          · obtain ⟨hne, hle⟩ := hfits.remaining_of_created hcreated
            exact ⟨hne, by omega⟩
          · obtain ⟨hne, hle⟩ := hfits.remaining_of_locked hlocked
            exact ⟨hne, by omega⟩
          · have hone := hfits.remaining_of_recorded hrecorded
            omega

/-- Every statement leaves its call fewer, and an abort leaves it none. -/
theorem storageStep_remaining {i : Nat} {s s' : Storage} {t t' : StorageSession} {b : Input}
    (h : storage.step i s t b = some (s', t')) : t'.remaining < t.remaining := by
  have hrunning : t.remaining ≠ 0 := by
    intro hzero
    have hdone := storageOutcome_isSome_iff.mpr hzero
    rw [storageOutcome_of_step h] at hdone
    contradiction
  cases t with
  | reserve call phase =>
      rcases reserveStep_cases h with ⟨-, rfl | ⟨error, rfl, -⟩⟩ | ⟨phase', rfl, hexec⟩
      · exact Nat.pos_of_ne_zero hrunning
      · exact Nat.pos_of_ne_zero hrunning
      · rcases executeReserve_ok hexec with ⟨hphase, -, ⟨-, -, hnext⟩ | ⟨-, -, -, hnext⟩⟩ |
          ⟨found, hphase, -, hnext⟩ <;> simp [StorageSession.remaining, hphase, hnext]
  | allocate session =>
      obtain ⟨⟨server, session'⟩, hstep, hnext⟩ := Option.map_eq_some_iff.mp h
      cases hnext
      rcases step_cases hstep with ⟨-, rfl | ⟨error, rfl, -⟩⟩ | ⟨phase', rfl, hexec⟩
      · exact Nat.pos_of_ne_zero hrunning
      · exact Nat.pos_of_ne_zero hrunning
      · exact execute_remaining hexec

/-- A call takes at most eight steps of its own, whatever the others do, and has
completed when it has taken them. -/
theorem stepsOf_le (hrun : storage.Runs (.initial .initial) labels c) {i : Nat} {t : StorageSession}
    (ht : c.threads[i]? = some t) :
    stepsOf i labels ≤ 8 ∧ (stepsOf i labels = 8 → (storageOutcome t).isSome = true) := by
  have hbound := (stepsOf_add_rank_le StorageSession.remaining
    (fun call => remaining_le call.session)
    (fun _ _ _ _ _ _ => storageStep_remaining) hrun).2 i t ht
  refine ⟨by omega, fun height => storageOutcome_isSome_iff.mpr ?_⟩
  omega

/-- **Progress**: whatever has been reached, with or without aborts, from there on
the calls that have started complete after at most eight statements each, in
whatever order they are scheduled.

* The statements that are executed, and those that are left, are no more than
  eight times the calls.
* Each call executes at most eight of its own from its start, the aborted ones
  included, and has completed by the eighth.
* None waits for ever: where no call can execute a statement, all have completed. -/
theorem storage_progress (hrun : storage.Runs (.initial .initial) labels c)
    (hsteps : storage.Runs c steps c') (hproceeds : Proceeds Input.proceed steps) :
    steps.length + (c'.threads.map StorageSession.remaining).sum ≤ 8 * c.threads.length ∧
      (∀ (i : Nat) t, c'.threads[i]? = some t → stepsOf i (labels ++ steps) ≤ 8 ∧
        (stepsOf i (labels ++ steps) = 8 → (storageOutcome t).isSome = true)) ∧
      ((∀ i, storage.next c' (.step i .proceed) = none) →
        ∀ t ∈ c'.threads, (storageOutcome t).isSome = true) := by
  refine ⟨?_, fun i t ht => stepsOf_le (hrun.append hsteps) ht, fun hstuck t ht => ?_⟩
  · have hlength := length_le_sum_rank StorageSession.remaining
      (fun i s t s' t' h => storageStep_remaining h) hsteps hproceeds
    have hbound := List.sum_le_card_nsmul (c.threads.map StorageSession.remaining) 8 (by
      intro n hn
      obtain ⟨t, -, rfl⟩ := List.mem_map.mp hn
      exact remaining_le t)
    rw [List.length_map, smul_eq_mul] at hbound
    omega
  · rw [storageOutcome_isSome_iff]
    by_contra hremaining
    obtain ⟨i, hi⟩ := List.getElem?_of_mem ht
    have hholds := storageHolds_run (hrun.append hsteps)
    obtain ⟨j, c'', hnext⟩ := exists_step_of_waits StorageSession.remaining
      (fun i t _ => storage_waits hholds) hi hremaining
    rw [hstuck j] at hnext
    contradiction

/-- Two calls for one new counter: the second waits for the counter row of the first,
then for its lock, and both complete. -/
theorem storage_progress_sample :
    let call : AllocateCall := ⟨[1, 159], "invoice".toList, "INV".toList, none, 6⟩
    let other : AllocateCall := { call with machineId := [1, 160] }
    let proceed (i : Nat) : Label StorageCall Input := .step i .proceed
    let labels := [.start (.allocate call), .start (.allocate other)] ++
      [0, 0, 1].map proceed
    let steps := [0, 0, 0, 0, 0, 0, 1, 1, 1, 1, 1, 1, 1].map proceed
    ∃ c c', storage.Runs (.initial .initial) labels c ∧ storage.Runs c steps c' ∧
      (storage.next c (proceed 1)).isNone = true ∧
      c'.threads = [.allocate ⟨call, .done (.returned 1)⟩, .allocate ⟨other, .done (.returned 2)⟩] ∧
      steps.length + (c'.threads.map StorageSession.remaining).sum ≤ 8 * c.threads.length ∧
      stepsOf 1 (labels ++ steps) ≤ 8 := by
  intro call other proceed labels steps
  have hlabels : (labels.foldlM storage.next (.initial .initial)).map
      (fun c => ((storage.next c (proceed 1)).isNone,
        (steps.foldlM storage.next c).map (·.threads))) =
      some (true, some [.allocate ⟨call, .done (.returned 1)⟩,
        .allocate ⟨other, .done (.returned 2)⟩]) := by decide
  obtain ⟨c, hc, hpair⟩ := Option.map_eq_some_iff.mp hlabels
  obtain ⟨hwaits, hsteps⟩ := Prod.mk.inj hpair
  obtain ⟨c', hc', hthreads⟩ := Option.map_eq_some_iff.mp hsteps
  have hproceeds : Proceeds Input.proceed steps := by
    intro label hlabel
    obtain ⟨i, -, rfl⟩ := List.mem_map.mp hlabel
    exact ⟨i, rfl⟩
  have hrun := Run.of_foldlM hc
  have hmore := Run.of_foldlM hc'
  obtain ⟨htotal, hown, -⟩ := storage_progress hrun hmore hproceeds
  have hother : c'.threads[1]? = some (.allocate ⟨other, .done (.returned 2)⟩) := by
    rw [hthreads]
    rfl
  exact ⟨c, c', hrun, hmore, hwaits, hthreads, htotal, (hown 1 _ hother).1⟩

end Runs

end Postgres

end Identifold
