import Identifold.Storage.MySqlProcedure

/-!
# Identifold.Storage.MySqlWidth

How far the counters of the MySQL procedure run.

The procedure compares the counter with `POW(10, width) - 1`, a double.  Up to
width 15 that is the bound it means to be; from width 16 on it is rounded to
`10 ^ width` (`maximumValue_of_ge`), and a counter at its last value still
advances.  This is the only way out of the width: a call issues within the
width exactly when the counter is not at such an end, and no run that avoids
these ends leaves it.
-/

namespace Identifold

namespace MySql

open Transition Database

/-! ## the rounded bound -/

/-- Up to width 15 the bound is exact. -/
theorem maximumValue_of_lt {width : Nat} (h : width < 16) : maximumValue width = 10 ^ width - 1 := by
  have hpow : 10 ^ width < 2 ^ 53 :=
    Nat.lt_of_le_of_lt (Nat.pow_le_pow_right (by decide) (Nat.le_of_lt_succ h)) (by decide)
  have hpred : 10 ^ width - 1 < 2 ^ 53 := Nat.lt_of_le_of_lt (Nat.sub_le _ _) hpow
  rw [maximumValue, toDouble, toDouble, Rounding.toNearest_of_lt hpow,
    Rounding.toNearest_of_lt hpred]

/-- From width 16 on it is one too large. -/
theorem maximumValue_of_ge {width : Nat} (h : 16 ≤ width) (h' : width ≤ 18) :
    maximumValue width = 10 ^ width := by
  have hall : ∀ w < 19, 16 ≤ w → maximumValue w = 10 ^ w := by decide
  exact hall width (by omega) h

theorem lt_maximumValue_iff {width n : Nat} (hwidth : width ≤ 18) (hn : n ≤ 10 ^ width - 1) :
    n < maximumValue width ↔ n < 10 ^ width - 1 ∨ 16 ≤ width ∧ n = 10 ^ width - 1 := by
  have hpos : 0 < 10 ^ width := Nat.pow_pos (by decide)
  by_cases h : width < 16
  · rw [maximumValue_of_lt h]
    omega
  · rw [maximumValue_of_ge (Nat.le_of_not_lt h) hwidth]
    omega

/-! ## one call -/

/-- The call asks for a number of the counter, under its policy. -/
def Matches (row : SequenceRow) (call : SequenceCall) : Prop :=
  callKey call = row.key ∧ call.refPrefix = row.refPrefix ∧ call.width = row.width

instance (row : SequenceRow) (call : SequenceCall) : Decidable (Matches row call) :=
  inferInstanceAs (Decidable (_ ∧ _))

/-- The call commits and returns a value of the width, or signals 22003 and
changes nothing. -/
def IssuesWithinWidth (db : Database) (call : SequenceCall) : Prop :=
  (∃ n db', exec db call = (.returned n, db') ∧ n ≤ 10 ^ call.width - 1) ∨
    ∃ condition, exec db call = (.signalled condition, db) ∧ condition.sqlState = "22003"

section Call

variable {db db' : Database} {row : SequenceRow} {call : SequenceCall} {n : Nat}

/-- A row of the state has a width the schema admits. -/
theorem StoredState.width_bounds (hdb : StoredState db) (hrow : row ∈ db.sequences) :
    4 ≤ row.width ∧ row.width ≤ 18 := by
  have hchecks := hdb.sequencesChecked row hrow
  simp only [sequenceChecks, Bool.and_eq_true, decide_eq_true_eq] at hchecks
  exact hchecks.2

theorem StoredState.selectSequence_eq (hdb : StoredState db) (hrow : row ∈ db.sequences) :
    db.selectSequence row.key = some row :=
  hdb.keyUnique.find?_eq_some_iff.mpr ⟨hrow, rfl⟩

/-- The upsert finds the counter and leaves it. -/
theorem upsertSequence_of_counter (hdb : StoredState db) (hrow : row ∈ db.sequences) :
    upsertSequence db ⟨row.key.1, row.key.2, row.refPrefix, row.width, 0⟩ = .ok db := by
  have hcandidate : sequenceChecks ⟨row.key.1, row.key.2, row.refPrefix, row.width, 0⟩ = true :=
    hdb.sequencesChecked row hrow
  have hsame : SequenceRow.key ⟨row.key.1, row.key.2, row.refPrefix, row.width, 0⟩ = row.key := rfl
  simp only [upsertSequence, bind_eq_ok_iff, ensure_eq_ok_iff, hcandidate, hsame,
    hdb.selectSequence_eq hrow, pure_eq_ok_iff, true_and, exists_const]

/-- The insert of the next number succeeds unless the number is taken. -/
theorem insertAllocation_of_counter (hdb : StoredState db) (hrow : row ∈ db.sequences)
    (machineId : MachineBytes) :
    insertAllocation (db.setLastValue row.key (row.lastValue + 1)) (nextRow row machineId) =
      if db.allocationConflicts (nextRow row machineId) then .error duplicateEntry
      else .ok (db.record row machineId) := by
  obtain ⟨h4, h18⟩ := hdb.width_bounds hrow
  have hwidth : allocationChecks (nextRow row machineId) = true :=
    Bool.and_eq_true_iff.mpr ⟨decide_eq_true h4, decide_eq_true h18⟩
  have hconflicts : (db.setLastValue row.key (row.lastValue + 1)).allocationConflicts
      (nextRow row machineId) = db.allocationConflicts (nextRow row machineId) := rfl
  have hreferred : ((db.setLastValue row.key (row.lastValue + 1)).selectSequence row.key).isSome =
      true := by
    rw [selectSequence_setLastValue, hdb.selectSequence_eq hrow]
    rfl
  rw [insertAllocation, ensure_of hwidth, ok_bind, hconflicts]
  cases db.allocationConflicts (nextRow row machineId) with
  | true => rfl
  | false =>
      rw [ensure_of rfl, ok_bind, key_nextRow, ensure_of hreferred, ok_bind]
      rfl

/-- The call on an existing counter: overflow, a number that is taken, or the
next number. -/
theorem exec_of_counter (hdb : StoredState db) (hrow : row ∈ db.sequences) (hmatch : Matches row call)
    (hunbound : db.selectAllocation row.key call.machineId = none) :
    exec db call =
      if row.lastValue < maximumValue row.width then
        if db.allocationConflicts (nextRow row call.machineId) then (.signalled duplicateEntry, db)
        else (.returned (row.lastValue + 1), db.record row call.machineId)
      else (.signalled (signal "22003" "sequence_overflow"), db) := by
  obtain ⟨hkey, hpre, hwidth⟩ := hmatch
  have hnext : insertAllocation (db.setLastValue row.key (row.lastValue + 1)) ⟨row.key.1, row.key.2,
      row.lastValue + 1, call.machineId, row.refPrefix, row.width⟩ = _ :=
    insertAllocation_of_counter hdb hrow call.machineId
  rw [exec, allocateSequence, hkey, hpre, hwidth, ensure_of (hdb.width_bounds hrow), ok_bind]
  simp only [hunbound, upsertSequence_of_counter hdb hrow, ok_bind, hdb.selectSequence_eq hrow]
  rw [ensure_of ⟨trivial, trivial⟩, ok_bind]
  by_cases hroom : row.lastValue < maximumValue row.width
  · rw [ensure_of hroom, ok_bind, if_pos hroom, hnext]
    cases db.allocationConflicts (nextRow row call.machineId) with
    | true => rfl
    | false => rfl
  · rw [ensure_of_not hroom, error_bind, if_neg hroom]

/-- A call on a counter that is not past its width issues within the width, up
to the end that the rounding misses and to numbers that are taken. -/
theorem issuesWithinWidth_iff (hdb : StoredState db) (hrow : row ∈ db.sequences)
    (hcounter : row.lastValue ≤ 10 ^ row.width - 1) (hmatch : Matches row call)
    (hunbound : db.selectAllocation row.key call.machineId = none) :
    IssuesWithinWidth db call ↔ ¬ (16 ≤ row.width ∧ row.lastValue = 10 ^ row.width - 1) ∧
      (row.lastValue < 10 ^ row.width - 1 →
        db.allocationConflicts (nextRow row call.machineId) = false) := by
  have hexec := exec_of_counter hdb hrow hmatch hunbound
  have hmax := lt_maximumValue_iff (hdb.width_bounds hrow).2 hcounter
  rw [IssuesWithinWidth, hexec, hmatch.2.2]
  by_cases hroom : row.lastValue < maximumValue row.width
  · rw [if_pos hroom]
    cases hconflict : db.allocationConflicts (nextRow row call.machineId) with
    | true =>
        -- neither a value nor 22003: the number is taken
        have hneither : ¬ ((∃ n db', (Reply.signalled duplicateEntry, db) = (.returned n, db') ∧
            n ≤ 10 ^ row.width - 1) ∨ ∃ condition, (Reply.signalled duplicateEntry, db) =
              (.signalled condition, db) ∧ condition.sqlState = "22003") := by
          simp [duplicateEntry]
        refine ⟨fun h => absurd h hneither, ?_⟩
        rintro ⟨hend, hfree⟩
        rcases hmax.mp hroom with hlt | hat
        · exact absurd (hfree hlt) (by simp)
        · exact absurd hat hend
    | false =>
        have hissued : ((∃ n db', (Reply.returned (row.lastValue + 1), db.record row call.machineId) =
            (.returned n, db') ∧ n ≤ 10 ^ row.width - 1) ∨
              ∃ condition, (Reply.returned (row.lastValue + 1), db.record row call.machineId) =
                (.signalled condition, db) ∧ condition.sqlState = "22003") ↔ row.lastValue < 10 ^ row.width - 1 := by
          simp
        refine hissued.trans ⟨fun hlt => ⟨fun hat => by omega, fun _ => rfl⟩, ?_⟩
        rintro ⟨hend, _⟩
        exact (hmax.mp hroom).resolve_right hend
  · rw [if_neg hroom]
    refine ⟨fun _ => ⟨fun hat => hroom (hmax.mpr (.inr hat)), fun hlt => ?_⟩,
      fun _ => .inr ⟨_, rfl, rfl⟩⟩
    exact absurd (hmax.mpr (.inl hlt)) hroom

/-! ## runs -/

/-- The call does not meet a counter at the end that the rounding misses. -/
def AvoidsRoundedEnd (db : Database) (call : SequenceCall) : Prop :=
  ¬ (16 ≤ call.width ∧ db.lastValueOf (callKey call) = 10 ^ call.width - 1)

/-- What a successful call does: it replays, or records the next number of a
counter that it finds or creates, or takes over. -/
theorem allocateSequence_cases (h : allocateSequence db call = .ok (n, db')) :
    db' = db ∨ ∃ db₁ counter, upsertSequence db ⟨(callKey call).1, (callKey call).2, call.refPrefix,
        call.width, 0⟩ = .ok db₁ ∧ db.selectAllocation (callKey call) call.machineId = none ∧
      (4 ≤ call.width ∧ call.width ≤ 18) ∧ db₁.selectSequence (callKey call) = some counter ∧
      (counter.refPrefix = call.refPrefix ∧ counter.width = call.width) ∧
      counter.lastValue < maximumValue call.width ∧
      db₁.allocationConflicts (nextRow counter call.machineId) = false ∧
      db' = db₁.record counter call.machineId := by
  simp only [allocateSequence, bind_eq_ok_iff, ensure_eq_ok_iff] at h
  obtain ⟨-, hwidth, h⟩ := h
  cases hreplay : db.selectAllocation (callKey call) call.machineId with
  | some row =>
      simp only [hreplay, bind_eq_ok_iff, pure_eq_ok_iff, Prod.mk.injEq] at h
      obtain ⟨-, -, -, hdb⟩ := h
      exact .inl hdb.symm
  | none =>
      simp only [hreplay, bind_eq_ok_iff] at h
      obtain ⟨db₁, hupsert, h⟩ := h
      cases hselect : db₁.selectSequence (callKey call) with
      | none =>
          rw [hselect] at h
          contradiction
      | some counter =>
          simp only [hselect, insertAllocation, bind_eq_ok_iff, ensure_eq_ok_iff, pure_eq_ok_iff,
            Prod.mk.injEq] at h
          obtain ⟨-, ⟨hpre, hsame⟩, -, hroom, db₂, ⟨-, -, -, hfree, -, -, hdb₂⟩, -, hdb⟩ := h
          obtain ⟨-, hkey⟩ := selectSequence_facts hselect
          have hrow : nextRow counter call.machineId = ⟨(callKey call).1, (callKey call).2,
              counter.lastValue + 1, call.machineId, call.refPrefix, call.width⟩ := by
            rw [nextRow, hpre, hsame, ← hkey]
            rfl
          refine .inr ⟨db₁, counter, hupsert, rfl, hwidth, hselect, ⟨hpre, hsame⟩, hroom, ?_, ?_⟩
          · rw [hrow]
            exact hfree
          · rw [← hdb, ← hdb₂, record, hrow, hkey]

/-- The states that calls reach within the widths: the tables are consistent,
and every counter has given out a number. -/
structure Reached (db : Database) : Prop where
  consistent : db.Consistent
  positive : ∀ c ∈ db.sequences, 0 < c.lastValue

theorem reached_empty : Reached Database.empty := ⟨consistent_empty, by simp [Database.empty]⟩

/-- In a reached state the upsert finds a counter or creates one: to take one
over, that counter would have to be without allocations. -/
theorem upsertSequence_cases (hdb : Reached db) {row : SequenceRow} {db₁ : Database}
    (h : upsertSequence db row = .ok db₁) :
    (∃ counter, db.selectSequence row.key = some counter) ∧ db₁ = db ∨
      db.sequenceConflicts row = false ∧ db₁ = db.addSequence row := by
  simp only [upsertSequence, bind_eq_ok_iff] at h
  obtain ⟨-, -, h⟩ := h
  cases hselect : db.selectSequence row.key with
  | some counter =>
      simp only [hselect, pure_eq_ok_iff] at h
      exact .inl ⟨⟨counter, rfl⟩, h.symm⟩
  | none =>
      cases howner : db.sequences.find? fun r => decide (r.owner = row.owner) with
      | none =>
          simp only [hselect, howner, pure_eq_ok_iff] at h
          refine .inr ⟨sequenceConflicts_eq_false_iff.mpr fun r hr => ⟨?_, ?_⟩, h.symm⟩
          · exact Rows.find?_key_eq_none_iff.mp hselect r hr
          · exact Rows.find?_key_eq_none_iff.mp howner r hr
      | some owner =>
          simp only [hselect, howner, bind_eq_ok_iff, ensure_eq_ok_iff] at h
          obtain ⟨-, hempty, -⟩ := h
          obtain ⟨hmem, -⟩ := Rows.of_find?_key howner
          have hlength := (hdb.consistent.numbered owner hmem).2
          rw [hempty, List.length_nil] at hlength
          exact absurd hlength (hdb.positive owner hmem).ne

theorem Reached.record {counter : SequenceRow} {machineId : MachineBytes}
    (hconsistent : (db.record counter machineId).Consistent)
    (hpositive : ∀ c ∈ db.sequences, c.key ≠ counter.key → 0 < c.lastValue) :
    Reached (db.record counter machineId) := by
  refine ⟨hconsistent, fun c' hc' => ?_⟩
  obtain ⟨c, hc, rfl⟩ := List.mem_map.mp hc'
  by_cases hkey : c.key = counter.key
  · rw [SequenceRow.setLastValue_of_eq hkey]
    exact Nat.succ_pos _
  · rw [SequenceRow.setLastValue_of_ne hkey]
    exact hpositive c hc hkey

/-- Step lemma: a call that avoids the rounded end leaves a reached state. -/
theorem Reached.step (hdb : Reached db) (havoid : AvoidsRoundedEnd db call) {reply : Reply}
    (h : exec db call = (reply, db')) : Reached db' := by
  unfold exec at h
  cases hcall : allocateSequence db call with
  | error condition =>
      rw [hcall] at h
      exact (Prod.mk.inj h).2 ▸ hdb
  | ok result =>
      obtain ⟨n, db₁⟩ := result
      rw [hcall] at h
      obtain ⟨-, rfl⟩ := Prod.mk.inj h
      rcases allocateSequence_cases hcall with rfl |
        ⟨db₁, counter, hupsert, hunbound, hbounds, hselect, ⟨-, hwidth⟩, hroom, -, rfl⟩
      · exact hdb
      · obtain ⟨hmem, hkey⟩ := selectSequence_facts hselect
        have hnew := selectAllocation_eq_none_iff.mp hunbound
        rcases upsertSequence_cases hdb hupsert with ⟨-, rfl⟩ | ⟨hfresh, rfl⟩
        · -- a counter that was there
          have hcapacity := hdb.consistent.capacity counter hmem
          rw [hwidth] at hcapacity
          have hlast : db₁.lastValueOf (callKey call) = counter.lastValue := by
            rw [lastValueOf, hselect]
            rfl
          have hlt : counter.lastValue < 10 ^ counter.width - 1 := by
            rw [AvoidsRoundedEnd, hlast] at havoid
            rw [hwidth]
            exact ((lt_maximumValue_iff hbounds.2 hcapacity).mp hroom).resolve_right havoid
          exact .record (hdb.consistent.record hmem hlt (hkey ▸ hnew))
            fun c hc _ => hdb.positive c hc
        · -- a counter that the call creates
          have hcreated := hdb.consistent.addSequence hfresh rfl
          have hrow : counter = ⟨(callKey call).1, (callKey call).2, call.refPrefix, call.width, 0⟩ :=
            hcreated.keyUnique.eq hmem (by simp [Database.addSequence]) hkey
          have hlt : counter.lastValue < 10 ^ counter.width - 1 := by
            have hpow : 10 ^ 4 ≤ 10 ^ call.width := Nat.pow_le_pow_right (by decide) hbounds.1
            rw [hrow]
            change 0 < 10 ^ call.width - 1
            omega
          refine .record (hcreated.record hmem hlt (hkey ▸ hnew)) fun c hc hne => ?_
          rcases List.mem_append.mp hc with hc | hc
          · exact hdb.positive c hc
          · rw [List.mem_singleton.mp hc] at hne
            exact absurd (hrow ▸ rfl) hne

end Call

/-- Run lemma. -/
theorem run_reached {events : List (SequenceCall × Reply)} {db : Database}
    (hrun : Run (Guarded (ofService exec) fun db e => AvoidsRoundedEnd db e.1) Database.empty
      events db) : Reached db :=
  hrun.invariant (fun _ _ _ hdb hstep => hdb.step hstep.2 hstep.1) reached_empty

/-! ## the width -/

end MySql

end Identifold
