import Identifold.Storage.Sqlite

/-!
# Identifold.Storage.SqliteLaw

The law of the SQLite storage over whole runs.  A successful call is
described once (`reserve_cases`, `allocate_cases`); from it follows that
every call keeps the tables consistent and enters its machine identifier into
the ledger of its counter, and that the tables are at every moment the record
of the calls that succeeded (`Recorded`).

* `reserve_cases`, `allocate_cases` — what a successful call does;
* `allocateTransaction_issue` — an allocation is an entry of its ledger;
* `Recorded.step` — the tables stay the record of the calls.
-/

namespace Identifold

namespace Sqlite

open Transition Ledger Database

/-! ## what a successful call does -/

section Cases

variable {db db' : Database} {n : Nat}

theorem reserve_cases {reservation : ReferenceReservation} {won : Bool}
    (h : reserve db reservation = .ok (won, db')) :
    ∃ machineId, machineIdToBytes reservation.machineId = .ok machineId ∧
      (won = false ∧ db' = db ∨
        won = true ∧ ∃ row : ReferenceRow,
          row = ⟨reservation.reference, reservation.namespaceName, machineId⟩ ∧
            row.sqliteChecks = true ∧ db.referenceConflicts row = false ∧
            db' = db.addReference row) := by
  simp only [reserve, insertReference, bind_eq_ok_iff, ensure_eq_ok_iff, pure_eq_ok_iff,
    Prod.exists, Prod.mk.injEq] at h
  obtain ⟨machineId, hbytes, changes, db₁, ⟨-, hchecks, hinsert⟩, hwon, hdb⟩ := h
  refine ⟨machineId, hbytes, ?_⟩
  cases hconflict : db.referenceConflicts
      ⟨reservation.reference, reservation.namespaceName, machineId⟩ with
  | true =>
      rw [hconflict] at hinsert
      obtain ⟨hchanges, hsame⟩ := Prod.mk.inj hinsert
      refine .inl ⟨?_, hdb.symm.trans hsame.symm⟩
      rw [← hwon, ← hchanges]
      rfl
  | false =>
      rw [hconflict] at hinsert
      obtain ⟨hchanges, hadded⟩ := Prod.mk.inj hinsert
      refine .inr ⟨?_, _, rfl, hchecks, hconflict, hdb.symm.trans hadded.symm⟩
      rw [← hwon, ← hchanges]
      rfl

/-- A successful allocation: the machine identifier is bound under the policy
that is asked for, or the counter records the next number for it. -/
theorem allocateTransaction_cases {request : SequenceAllocationRequest} {width : Nat}
    (h : allocateTransaction db request width = .ok (n, db')) :
    ∃ machineId, machineIdToBytes request.machineId = .ok machineId ∧
      ((∃ row, db.selectAllocation (counterKey request) machineId = some row ∧
          row.refPrefix = request.refPrefix ∧ row.width = width ∧ n = row.sequence ∧ db' = db) ∨
        (db.selectAllocation (counterKey request) machineId = none ∧
          ∃ row counter : SequenceRow, row = ⟨(counterKey request).1, (counterKey request).2,
              request.refPrefix, width, 0⟩ ∧ row.sqliteChecks = true ∧
            (db.ensureSequence row).selectSequence (counterKey request) = some counter ∧
            counter.refPrefix = request.refPrefix ∧ counter.width = width ∧
            counter.lastValue < 10 ^ width - 1 ∧ n = counter.lastValue + 1 ∧
            db' = (db.ensureSequence row).record counter machineId)) := by
  simp only [allocateTransaction, bind_eq_ok_iff] at h
  obtain ⟨machineId, hbytes, h⟩ := h
  refine ⟨machineId, hbytes, ?_⟩
  cases hreplay : db.selectAllocation (counterKey request) machineId with
  | some row =>
      simp only [hreplay, bind_eq_ok_iff, ensure_eq_ok_iff, pure_eq_ok_iff, Prod.mk.injEq] at h
      obtain ⟨-, ⟨hpre, hwidth⟩, hn, hdb⟩ := h
      exact .inl ⟨row, rfl, hpre, hwidth, hn.symm, hdb.symm⟩
  | none =>
      simp only [hreplay, insertSequence, bind_eq_ok_iff, ensure_eq_ok_iff, pure_eq_ok_iff] at h
      obtain ⟨db₁, ⟨-, hchecks, hdb₁⟩, h⟩ := h
      cases hselect : db₁.selectSequence (counterKey request) with
      | none =>
          rw [hselect] at h
          contradiction
      | some counter =>
          simp only [hselect, insertAllocation, bind_eq_ok_iff, ensure_eq_ok_iff, pure_eq_ok_iff,
            Prod.mk.injEq] at h
          obtain ⟨-, ⟨hpre, hwidth⟩, -, hroom, db₂, ⟨-, -, -, -, -, -, hdb₂⟩, hn, hdb⟩ := h
          refine .inr ⟨rfl, _, counter, rfl, hchecks, hdb₁ ▸ hselect, hpre, hwidth, hroom,
            hn.symm, ?_⟩
          obtain ⟨-, hkey⟩ := selectSequence_facts hselect
          rw [← hdb, ← hdb₂, hdb₁, record, nextRow, hpre, hwidth, ← hkey]
          rfl

theorem allocate_cases {request : SequenceAllocationRequest} (h : allocate db request = .ok (n, db')) :
    ∃ width, request.width = .integer (width : Nat) ∧ (4 ≤ width ∧ width ≤ 18) ∧
      allocateTransaction db request width = .ok (n, db') := by
  unfold allocate at h
  cases hwidth : request.width with
  | other => rw [hwidth] at h; contradiction
  | integer width =>
      rw [hwidth] at h
      simp only at h
      split at h
      · rename_i hbounds
        refine ⟨width.toNat, ?_, by omega, h⟩
        rw [Int.toNat_of_nonneg (by omega)]
      · contradiction

end Cases

/-! ## one call -/

/-- The event binds a machine identifier to a number of a counter. -/
def Binds (key : Text × Text) (machineId : MachineBytes) (n : Nat) (e : Call × Outcome) : Prop :=
  ∃ request, e = (.allocate request, .allocated n) ∧ counterKey request = key ∧
    machineIdToBytes request.machineId = .ok machineId

/-- The event is the reservation that was given a reference. -/
def Wins (row : ReferenceRow) (e : Call × Outcome) : Prop :=
  ∃ reservation, e = (.reserve reservation, .reserved true) ∧
    row.reference = reservation.reference ∧ row.namespaceName = reservation.namespaceName ∧
    machineIdToBytes reservation.machineId = .ok row.machineId

section Step

variable {db db' : Database} {e : Call × Outcome} {key key' : Text × Text}
  {machineId machineId' : MachineBytes} {n n' : Nat} {row row' : ReferenceRow}

theorem Binds.unique (h : Binds key machineId n e) (h' : Binds key' machineId' n' e) :
    key = key' ∧ machineId = machineId' ∧ n = n' := by
  obtain ⟨request, rfl, hkey, hbytes⟩ := h
  obtain ⟨request', heq, hkey', hbytes'⟩ := h'
  obtain ⟨hcall, hout⟩ := Prod.mk.inj heq
  have hrequest := Call.allocate.inj hcall
  subst hrequest
  exact ⟨hkey.symm.trans hkey', Except.ok.inj (hbytes.symm.trans hbytes'), Outcome.allocated.inj hout⟩

theorem Binds.machineIdToBytes_eq {request : SequenceAllocationRequest}
    (h : Binds key machineId n (.allocate request, .allocated n')) :
    machineIdToBytes request.machineId = .ok machineId := by
  obtain ⟨request', heq, -, hbytes⟩ := h
  rwa [Call.allocate.inj (Prod.mk.inj heq).1]

theorem Wins.unique (h : Wins row e) (h' : Wins row' e) : row = row' := by
  obtain ⟨reservation, rfl, href, hns, hbytes⟩ := h
  obtain ⟨reservation', heq, href', hns', hbytes'⟩ := h'
  have hreservation := Call.reserve.inj (Prod.mk.inj heq).1
  subst hreservation
  cases row
  cases row'
  simp only at href hns hbytes href' hns' hbytes'
  rw [href, hns, href', hns', Except.ok.inj (hbytes.symm.trans hbytes')]

/-- **Refinement**: a successful allocation enters the machine identifier into
the ledger of its counter, returns the number issued, and touches no other
ledger. -/
theorem allocateTransaction_issue {request : SequenceAllocationRequest} {width : Nat}
    (hdb : db.Consistent) (h : allocateTransaction db request width = .ok (n, db')) :
    ∃ machineId, machineIdToBytes request.machineId = .ok machineId ∧ db'.Consistent ∧
      issue (db.ledgerOf (counterKey request)) machineId = (n, db'.ledgerOf (counterKey request)) ∧
      (∀ key, key ≠ counterKey request → db'.ledgerOf key = db.ledgerOf key) ∧
      db'.references = db.references := by
  obtain ⟨machineId, hbytes, hcases⟩ := allocateTransaction_cases h
  refine ⟨machineId, hbytes, ?_⟩
  rcases hcases with ⟨row, hselect, -, -, hn, rfl⟩ |
    ⟨hselect, row, counter, hrow, -, hcounter, -, hwidth, hroom, hn, rfl⟩
  · -- replay
    obtain ⟨hmem, hid⟩ := selectAllocation_facts hselect
    have hin : machineId ∈ db'.ledgerOf (counterKey request) := hid ▸ List.mem_map_of_mem hmem
    refine ⟨hdb, ?_, fun _ _ => rfl, rfl⟩
    rw [issue_of_mem hin, hn, hdb.sequence_eq_number hmem, hid]
  · -- the next number
    have hnew := selectAllocation_eq_none_iff.mp hselect
    obtain ⟨hmem, hkey⟩ := selectSequence_facts hcounter
    have hcreated : (db.ensureSequence row).Consistent := hdb.ensureSequence (by rw [hrow])
    have hlength := hcreated.length_ledgerOf (counterKey request)
    rw [ensureSequence_ledgerOf, lastValueOf, hcounter] at hlength
    refine ⟨hcreated.record hmem (hwidth ▸ hroom) (by rwa [hkey, ensureSequence_ledgerOf]), ?_, ?_,
      by simp⟩
    · rw [issue_of_not_mem hnew, ← hkey, ledgerOf_record_self, hkey, ensureSequence_ledgerOf, hn,
        hlength]
      rfl
    · intro key hne
      rw [ledgerOf_record_other (hkey ▸ hne), ensureSequence_ledgerOf]

/-- What a reservation does to the tables. -/
theorem reserve_spec {reservation : ReferenceReservation} {won : Bool} (hdb : db.Consistent)
    (h : reserve db reservation = .ok (won, db')) :
    ∃ machineId, machineIdToBytes reservation.machineId = .ok machineId ∧ db'.Consistent ∧
      db'.allocations = db.allocations ∧ db.references ⊆ db'.references ∧
      (∀ row ∈ db'.references, row ∈ db.references ∨
        row = ⟨reservation.reference, reservation.namespaceName, machineId⟩) ∧
      (won = true →
        ⟨reservation.reference, reservation.namespaceName, machineId⟩ ∈ db'.references) := by
  obtain ⟨machineId, hbytes, ⟨rfl, rfl⟩ | ⟨-, row, rfl, -, hfresh, rfl⟩⟩ := reserve_cases h
  · exact ⟨machineId, hbytes, hdb, rfl, List.Subset.refl _, fun row hrow => .inl hrow, by simp⟩
  · exact ⟨machineId, hbytes, hdb.addReference hfresh, rfl, List.subset_append_left _ _,
      fun row hrow => by simpa [Database.addReference] using hrow,
      fun _ => by simp [Database.addReference]⟩

/-- What an allocation does to the tables: afterwards a row carries the value
that is returned, under the policy that is asked for. -/
theorem allocate_spec {request : SequenceAllocationRequest} (hdb : db.Consistent)
    (h : allocate db request = .ok (n, db')) :
    ∃ machineId, machineIdToBytes request.machineId = .ok machineId ∧ db'.Consistent ∧
      db'.references = db.references ∧ db.allocations ⊆ db'.allocations ∧
      ∃ row ∈ db'.allocations, row.key = counterKey request ∧ row.machineId = machineId ∧
        row.sequence = n ∧ row.refPrefix = request.refPrefix := by
  obtain ⟨width, -, -, htransaction⟩ := allocate_cases h
  obtain ⟨machineId, hbytes, hdb', -, -, href⟩ := allocateTransaction_issue hdb htransaction
  obtain ⟨machineId', hbytes', hcases⟩ := allocateTransaction_cases htransaction
  have hsame := Except.ok.inj (hbytes.symm.trans hbytes')
  subst hsame
  refine ⟨machineId, hbytes, hdb', href, ?_⟩
  rcases hcases with ⟨row, hselect, hpre, -, hn, rfl⟩ |
    ⟨-, row, counter, -, -, hcounter, hpre, -, -, hn, rfl⟩
  · obtain ⟨hmem, hid⟩ := selectAllocation_facts hselect
    obtain ⟨hmem, hkey⟩ := mem_rowsOf.mp hmem
    exact ⟨List.Subset.refl _, row, hmem, hkey, hid, hn.symm, hpre⟩
  · obtain ⟨-, hkey⟩ := selectSequence_facts hcounter
    rw [record_allocations, ensureSequence_allocations]
    exact ⟨List.subset_append_left _ _, nextRow counter machineId, by simp, hkey, rfl, hn.symm,
      hpre⟩

/-- What a call does: nothing, or it wins a reference, or it binds a machine
identifier. -/
theorem exec_cases (hdb : db.Consistent) (h : ofService exec db e db') :
    (db' = db ∧ (∀ row, ¬ Wins row e) ∧ ∀ key machineId n, ¬ Binds key machineId n e) ∨
    (∃ row, Wins row e ∧ db.referenceConflicts row = false ∧ db' = db.addReference row) ∨
    (∃ key machineId n, Binds key machineId n e ∧ db'.Consistent ∧
      issue (db.ledgerOf key) machineId = (n, db'.ledgerOf key) ∧
      (∀ key', key' ≠ key → db'.ledgerOf key' = db.ledgerOf key') ∧
      db'.references = db.references) := by
  obtain ⟨call, outcome⟩ := e
  simp only [ofService] at h
  cases call with
  | reserve reservation =>
      cases hcall : reserve db reservation with
      | error error =>
          simp only [exec, hcall, Prod.mk.injEq] at h
          obtain ⟨rfl, rfl⟩ := h
          exact .inl ⟨rfl, by simp [Wins], by simp [Binds]⟩
      | ok result =>
          obtain ⟨won, db₁⟩ := result
          simp only [exec, hcall, Prod.mk.injEq] at h
          obtain ⟨rfl, rfl⟩ := h
          obtain ⟨machineId, hbytes, ⟨rfl, rfl⟩ | ⟨rfl, row, rfl, -, hfresh, rfl⟩⟩ :=
            reserve_cases hcall
          · exact .inl ⟨rfl, by simp [Wins], by simp [Binds]⟩
          · exact .inr (.inl ⟨_, ⟨reservation, rfl, rfl, rfl, hbytes⟩, hfresh, rfl⟩)
  | allocate request =>
      cases hcall : allocate db request with
      | error error =>
          simp only [exec, hcall, Prod.mk.injEq] at h
          obtain ⟨rfl, rfl⟩ := h
          exact .inl ⟨rfl, by simp [Wins], by simp [Binds]⟩
      | ok result =>
          obtain ⟨value, db₁⟩ := result
          simp only [exec, hcall, Prod.mk.injEq] at h
          obtain ⟨rfl, rfl⟩ := h
          obtain ⟨width, -, -, htransaction⟩ := allocate_cases hcall
          obtain ⟨machineId, hbytes, hissue⟩ := allocateTransaction_issue hdb htransaction
          exact .inr (.inr ⟨_, machineId, value, ⟨request, rfl, rfl, hbytes⟩, hissue⟩)

/-- A reservation that returns `true` wins a row. -/
theorem Wins.of_exec {reservation : ReferenceReservation}
    (h : ofService exec db (.reserve reservation, .reserved true) db') :
    ∃ row, Wins row (.reserve reservation, .reserved true) := by
  cases hcall : reserve db reservation with
  | error error => simp [ofService, exec, hcall] at h
  | ok result =>
      obtain ⟨machineId, hbytes, -⟩ := reserve_cases hcall
      exact ⟨⟨reservation.reference, reservation.namespaceName, machineId⟩, reservation, rfl, rfl,
        rfl, hbytes⟩

/-- An allocation that returns a value binds a machine identifier to it. -/
theorem Binds.of_exec {request : SequenceAllocationRequest}
    (h : ofService exec db (.allocate request, .allocated n) db') :
    ∃ machineId, Binds (counterKey request) machineId n (.allocate request, .allocated n) := by
  cases hcall : allocate db request with
  | error error => simp [ofService, exec, hcall] at h
  | ok result =>
      obtain ⟨width, -, -, htransaction⟩ := allocate_cases hcall
      obtain ⟨machineId, hbytes, -⟩ := allocateTransaction_cases htransaction
      exact ⟨machineId, request, rfl, rfl, hbytes⟩

theorem exec_consistent (hdb : db.Consistent) (h : ofService exec db e db') : db'.Consistent := by
  rcases exec_cases hdb h with ⟨rfl, -⟩ | ⟨row, -, hfresh, rfl⟩ | ⟨_, _, _, -, hdb', -⟩
  · exact hdb
  · exact hdb.addReference hfresh
  · exact hdb'

end Step

/-- What a binding call does to the ledger of its counter. -/
theorem exec_issue (hdb : db.Consistent) (h : ofService exec db e db')
    (hbinds : Binds key machineId n e) :
    issue (db.ledgerOf key) machineId = (n, db'.ledgerOf key) := by
  rcases exec_cases hdb h with ⟨-, -, hnone⟩ | ⟨row, hwins, -⟩ | ⟨key₁, machineId₁, n₁, hbinds₁, -,
    hissue, -⟩
  · exact absurd hbinds (hnone key machineId n)
  · obtain ⟨request, rfl, -⟩ := hbinds
    obtain ⟨reservation, heq, -⟩ := hwins
    simp at heq
  · obtain ⟨rfl, rfl, rfl⟩ := hbinds.unique hbinds₁
    exact hissue

/-! ## runs -/

/-- The tables are the record of the calls: the ledgers hold what the
allocations bound, `identifold_references` what the reservations won. -/
structure Recorded (events : List (Call × Outcome)) (db : Database) : Prop where
  binds : ∀ key machineId n,
    (∃ e ∈ events, Binds key machineId n e) ↔ Assigns (db.ledgerOf key) machineId n
  wins : ∀ row, (∃ e ∈ events, Wins row e) ↔ row ∈ db.references

theorem recorded_empty : Recorded [] Database.empty where
  binds := by simp [Assigns, ledgerOf, rowsOf, Database.empty]
  wins := by simp [Database.empty]

section Runs

variable {events : List (Call × Outcome)} {db db' : Database} {e : Call × Outcome}

/-- Step lemma: a call extends the record by itself. -/
theorem Recorded.step (hrec : Recorded events db) (hdb : db.Consistent)
    (h : ofService exec db e db') : Recorded (events ++ [e]) db' := by
  have hlast : ∀ P : Call × Outcome → Prop,
      (∃ e' ∈ events ++ [e], P e') ↔ (∃ e' ∈ events, P e') ∨ P e := by
    intro P
    simp [or_and_right, exists_or]
  refine ⟨fun key machineId n => ?_, fun row => ?_⟩
  · rw [hlast, hrec.binds]
    rcases exec_cases hdb h with ⟨rfl, -, hnone⟩ | ⟨row, hwins, -, rfl⟩ |
      ⟨key₁, machineId₁, n₁, hbinds, -, hissue, hother, -⟩
    · simp [hnone]
    · have hnone : ¬ Binds key machineId n e := by
        rintro ⟨request, rfl, -⟩
        obtain ⟨reservation, heq, -⟩ := hwins
        simp at heq
      simp only [hnone, or_false]
      rfl
    · -- a number was issued: only its counter's ledger has changed
      by_cases hkey : key = key₁
      · subst hkey
        have hledger : db'.ledgerOf key = (issue (db.ledgerOf key) machineId₁).2 := by rw [hissue]
        rw [hledger, assigns_issue_iff, hissue]
        refine or_congr_right ⟨fun hb => ?_, ?_⟩
        · obtain ⟨-, hm, hn⟩ := hb.unique hbinds
          exact ⟨hm, hn⟩
        · rintro ⟨rfl, rfl⟩
          exact hbinds
      · rw [hother key hkey]
        refine ⟨?_, .inl⟩
        rintro (hold | hb)
        · exact hold
        · exact absurd (hb.unique hbinds).1 hkey
  · rw [hlast, hrec.wins]
    rcases exec_cases hdb h with ⟨rfl, hnone, -⟩ | ⟨row₁, hwins, -, rfl⟩ |
      ⟨key₁, machineId₁, n₁, hbinds, -, -, -, hsame⟩
    · simp [hnone]
    · rw [Database.addReference, List.mem_append, List.mem_singleton]
      refine or_congr_right ⟨fun hw => hw.unique hwins, ?_⟩
      rintro rfl
      exact hwins
    · have hnone : ¬ Wins row e := by
        rintro ⟨reservation, rfl, -⟩
        obtain ⟨request, heq, -⟩ := hbinds
        simp at heq
      simp [hnone, hsame]

/-- Run lemma: after every run the tables are consistent, and the record of
the run. -/
theorem run_recorded (hrun : Run (ofService exec) Database.empty events db) :
    db.Consistent ∧ Recorded events db := by
  induction hrun with
  | nil => exact ⟨consistent_empty, recorded_empty⟩
  | snoc _ hstep ih =>
      obtain ⟨hdb, hrec⟩ := ih
      exact ⟨exec_consistent hdb hstep, hrec.step hdb hstep⟩

/-- A reference is won once. -/
theorem run_wins_once (hrun : Run (ofService exec) Database.empty events db) :
    events.Pairwise fun e e' =>
      ∀ row row', Wins row e → Wins row' e' → row.reference ≠ row'.reference := by
  induction hrun with
  | nil => exact .nil
  | @snoc db _ before e hbefore hstep ih =>
      obtain ⟨hdb, hrec⟩ := run_recorded hbefore
      refine List.pairwise_append.mpr ⟨ih, List.pairwise_singleton _ _, ?_⟩
      intro e₁ he₁ e₂ he₂ row₁ row₂ hwins₁ hwins₂
      rw [List.mem_singleton.mp he₂] at hwins₂
      have hstored : row₁ ∈ db.references := (hrec.wins row₁).mp ⟨e₁, he₁, hwins₁⟩
      rcases exec_cases hdb hstep with ⟨-, hnone, -⟩ | ⟨row, hwins, hfresh, -⟩ |
        ⟨_, _, _, hbinds, -⟩
      · exact absurd hwins₂ (hnone row₂)
      · rw [hwins₂.unique hwins]
        exact referenceConflicts_eq_false_iff.mp hfresh row₁ hstored
      · obtain ⟨reservation, rfl, -⟩ := hwins₂
        obtain ⟨request, heq, -⟩ := hbinds
        simp at heq

/-- Rows of `identifold_references` are never lost. -/
theorem run_references (hdb : db.Consistent) (hrun : Run (ofService exec) db events db') :
    db'.Consistent ∧ db.references ⊆ db'.references := by
  induction hrun with
  | nil => exact ⟨hdb, List.Subset.refl _⟩
  | snoc _ hstep ih =>
      refine ⟨exec_consistent ih.1 hstep, List.Subset.trans ih.2 ?_⟩
      rcases exec_cases ih.1 hstep with ⟨rfl, -⟩ | ⟨row, -, -, rfl⟩ | ⟨_, _, _, -, -, -, -, hsame⟩
      · exact List.Subset.refl _
      · exact List.subset_append_left _ _
      · rw [hsame]
        exact List.Subset.refl _

end Runs

/-! ## the law -/

/-- The law of the storage, after the calls `events` have led to `db`. -/
structure StorageLaw (events : List (Call × Outcome)) (db : Database) : Prop where
  /-- A counter's rows carry the values from one to its last value. -/
  values : ∀ key, (db.rowsOf key).map (·.sequence) = List.range' 1 (db.lastValueOf key)
  /-- They bind different machine identifiers. -/
  machineIds : ∀ key, ((db.rowsOf key).map (·.machineId)).Nodup
  /-- A row has the prefix and the width of its counter. -/
  policies : ∀ r ∈ db.allocations, ∃ counter, db.selectSequence r.key = some counter ∧
    counter.refPrefix = r.refPrefix ∧ counter.width = r.width
  /-- A counter's last value fits its width. -/
  capacity : ∀ counter ∈ db.sequences, counter.lastValue ≤ 10 ^ counter.width - 1
  /-- In one scope, a prefix has one owner. -/
  owners : ∀ c ∈ db.sequences, ∀ c' ∈ db.sequences, c.refPrefix = c'.refPrefix →
    c.scope = c'.scope → c.namespaceName = c'.namespaceName
  /-- A successful allocation returns the value first given to its machine
  identifier, and where none was given, the one after the last value. -/
  allocations : ∀ before after request n,
    events = before ++ (.allocate request, .allocated n) :: after →
      ∃ machineId earlier, machineIdToBytes request.machineId = .ok machineId ∧
        Run (ofService exec) Database.empty before earlier ∧
        (∀ e ∈ before, ∀ n', Binds (counterKey request) machineId n' e → n = n') ∧
        ((∀ e ∈ before, ∀ n', ¬ Binds (counterKey request) machineId n' e) →
          machineId ∉ earlier.ledgerOf (counterKey request) ∧
            n = earlier.lastValueOf (counterKey request) + 1)
  /-- Among the reservations that returned `true` no two are for one reference. -/
  winners : events.Pairwise fun e e' =>
    ∀ row row', Wins row e → Wins row' e' → row.reference ≠ row'.reference
  /-- Each of them is stored. -/
  stored : ∀ reservation, (.reserve reservation, .reserved true) ∈ events →
    ∃ row ∈ db.references, Wins row (.reserve reservation, .reserved true)
  /-- A reference maps forever to what the reservation that won it asked for. -/
  references : ∀ row ∈ db.references, (∃ e ∈ events, Wins row e) ∧
    ∀ later db', Run (ofService exec) db later db' →
      row ∈ db'.references ∧ ∀ row' ∈ db'.references, row'.reference = row.reference → row' = row

/-- **The whole-run law**: from the empty database, every sequence of calls
leaves the tables and its own outcomes as the law says. -/
theorem storage_law {events : List (Call × Outcome)} {db : Database}
    (hrun : Run (ofService exec) Database.empty events db) : StorageLaw events db := by
  obtain ⟨hdb, hrec⟩ := run_recorded hrun
  refine ⟨fun key => ?_, fun key => ?_, fun r hr => ?_, hdb.capacity, ?_, ?_, run_wins_once hrun, ?_, ?_⟩
  · exact (hdb.map_sequence key).1
  · exact (hdb.map_sequence key).2
  · obtain ⟨counter, hc, hkey, hpolicy⟩ := hdb.policy r hr
    exact ⟨counter, hdb.selectSequence_eq hc hkey, hpolicy⟩
  · intro c hc c' hc' hpre hscope
    rw [hdb.ownerUnique.eq hc hc' (Prod.ext hpre hscope)]
  · intro before after request n hevents
    subst hevents
    obtain ⟨earlier, later, hbefore, hstep, -⟩ := hrun.of_split
    obtain ⟨hearlier, hrecorded⟩ := run_recorded hbefore
    obtain ⟨machineId, hbinds⟩ := Binds.of_exec hstep
    have hissue := exec_issue hearlier hstep hbinds
    refine ⟨machineId, earlier, hbinds.machineIdToBytes_eq, hbefore, fun e he n' hbinds' => ?_,
      fun hnone => ?_⟩
    · obtain ⟨hmem, hn'⟩ := (hrecorded.binds _ _ _).mp ⟨e, he, hbinds'⟩
      rw [issue_of_mem hmem, hn'] at hissue
      exact (congrArg Prod.fst hissue).symm
    · have hnew : machineId ∉ earlier.ledgerOf (counterKey request) := by
        intro hmem
        obtain ⟨e, he, hbinds'⟩ := (hrecorded.binds _ _ _).mpr ⟨hmem, rfl⟩
        exact hnone e he _ hbinds'
      rw [issue_of_not_mem hnew, hearlier.length_ledgerOf] at hissue
      exact ⟨hnew, (congrArg Prod.fst hissue).symm⟩
  · intro reservation hmem
    obtain ⟨before, after, rfl⟩ := List.append_of_mem hmem
    obtain ⟨earlier, _, -, hstep, -⟩ := hrun.of_split
    obtain ⟨row, hwins⟩ := Wins.of_exec hstep
    exact ⟨row, (hrec.wins row).mp ⟨_, hmem, hwins⟩, hwins⟩
  · intro row hrow
    refine ⟨(hrec.wins row).mpr hrow, fun later db' hlater => ?_⟩
    obtain ⟨hdb', hsubset⟩ := run_references hdb hlater
    exact ⟨hsubset hrow, fun row' hrow' heq => hdb'.referenceUnique.eq hrow' (hsubset hrow) heq⟩

/-- The law on a run with a repeated reservation, an allocation that is replayed
after another one, and a request for a prefix that has its owner. -/
theorem storage_law_sample :
    let mid := "019f0000-0000-7000-8000-000000000001".toList
    let reservation : ReferenceReservation := ⟨mid, "order".toList, "ORD-7K4M-2P8Q-3D-9".toList⟩
    let request : SequenceAllocationRequest :=
      ⟨mid, "invoice".toList, "INV".toList, some "2026".toList, .integer 8⟩
    let other := { request with machineId := "019f0000-0000-7000-8000-000000000002".toList }
    let foreign := { request with namespaceName := "order".toList }
    let run := play exec Database.empty [.reserve reservation, .reserve reservation,
      .allocate request, .allocate other, .allocate foreign, .allocate request]
    run.1.map Prod.snd = [.reserved true, .reserved false, .allocated 1, .allocated 2,
      .failed invalidAllocationPolicy, .allocated 1] ∧ StorageLaw run.1 run.2 :=
  ⟨by decide, storage_law (Run.of_play _ _ _)⟩

end Sqlite

end Identifold
