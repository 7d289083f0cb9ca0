import Identifold.Reference
import Identifold.Storage.Tables

/-!
# Identifold.Storage.PostgresFunction

The function `identifold_allocate_sequence` of
`integrations/postgres/migrations/003_idempotent_replay.up.sql`, over the tables
of `001_identifold.up.sql`, statement by statement.

`allocateSequence` runs the statements without interruption.  It is what a
call does when no other is in flight, and the meaning the concurrent calls of
`Identifold.Storage.PostgresSessions` are measured against.

* `replay_of_none`, `replay_of_some`, `lockSequence_of_none`,
  `lockSequence_of_some` — the branches, one by one;
* `allocateSequence_of_replay_error`, `allocateSequence_of_full`,
  `allocateSequence_of_room` — the whole function on each of them.
-/

namespace Identifold

namespace Postgres

/-- An error that the server reports. -/
structure PgError where
  errcode : String
  message : String
  deriving DecidableEq, Repr

/-- The arguments of the function; all but the scope are not null. -/
structure AllocateCall where
  machineId : MachineBytes
  namespaceName : Text
  refPrefix : Text
  scope : Option Text
  width : Int
  deriving DecidableEq, Repr

namespace AllocateCall

/-- The key of the counter: `scope_key` is `coalesce(requested_scope, '')`. -/
def key (call : AllocateCall) : Text × Text := (call.namespaceName, call.scope.getD [])

/-- The counter row of the call's policy. -/
def counter (call : AllocateCall) (lastValue : Nat) : SequenceRow :=
  ⟨call.namespaceName, call.scope.getD [], call.refPrefix, call.width.toNat, lastValue⟩

/-- The allocation row of the call. -/
def allocation (call : AllocateCall) (sequence : Nat) : AllocationRow :=
  ⟨call.namespaceName, call.scope.getD [], sequence, call.machineId, call.refPrefix,
    call.width.toNat⟩

/-- `requested_width < 4 OR requested_width > 18` is not raised. -/
def widthInRange (call : AllocateCall) : Prop := 4 ≤ call.width ∧ call.width ≤ 18

instance (call : AllocateCall) : Decidable call.widthInRange :=
  inferInstanceAs (Decidable (_ ∧ _))

/-- A stored policy is the requested one. -/
def hasPolicy (call : AllocateCall) (refPrefix : Text) (width : Nat) : Prop :=
  refPrefix = call.refPrefix ∧ (width : Int) = call.width

instance (call : AllocateCall) (refPrefix : Text) (width : Nat) :
    Decidable (call.hasPolicy refPrefix width) :=
  inferInstanceAs (Decidable (_ ∧ _))

@[simp] theorem key_counter (call : AllocateCall) (lastValue : Nat) :
    (call.counter lastValue).key = call.key := rfl

/-- The row of a call is the next row of its counter. -/
theorem allocation_succ (call : AllocateCall) (lastValue : Nat) :
    call.allocation (lastValue + 1) =
      Database.nextRow (call.counter lastValue) call.machineId := rfl

/-- The counter row of a call has its policy. -/
theorem hasPolicy_counter {call : AllocateCall} (h : call.widthInRange) (lastValue : Nat) :
    call.hasPolicy (call.counter lastValue).refPrefix (call.counter lastValue).width :=
  ⟨rfl, Int.toNat_of_nonneg (by have := h.1; omega)⟩

/-- A counter row under the call's key and policy is the call's counter row. -/
theorem eq_counter {call : AllocateCall} {row : SequenceRow} (hkey : row.key = call.key)
    (hpolicy : call.hasPolicy row.refPrefix row.width) : row = call.counter row.lastValue := by
  obtain ⟨hname, hscope⟩ := Prod.mk.inj hkey
  obtain ⟨hpre, hwidth⟩ := hpolicy
  cases row
  simp only at hname hscope hpre hwidth
  simp [counter, hname, hscope, hpre, ← hwidth]

end AllocateCall

/-! ## checks -/

/-- `CHECK (scope = '' OR scope ~ '^[0-9]{4}$')`. -/
def scopeCheck (scope : Text) : Bool := scope = [] || isFourDigits scope

/-- The `CHECK`s of `identifold_sequences`. -/
def sequenceChecks (r : SequenceRow) : Bool :=
  scopeCheck r.scope && isReferencePrefix r.refPrefix && (4 ≤ r.width && r.width ≤ 18) &&
    decide (r.lastValue < 10 ^ r.width)

/-- The `CHECK`s of `identifold_sequence_allocations`. -/
def allocationChecks (r : AllocationRow) : Bool :=
  scopeCheck r.scope && isReferencePrefix r.refPrefix && (4 ≤ r.width && r.width ≤ 18)

/-! ## errors -/

def invalidWidth : PgError := ⟨"22023", "invalid_sequence_width"⟩

def replayPolicyMismatch : PgError := ⟨"22023", "sequence_replay_policy_mismatch"⟩

def definitionMismatch : PgError := ⟨"22023", "sequence_definition_mismatch"⟩

def sequenceOverflow : PgError := ⟨"22003", "sequence_overflow"⟩

def checkViolation : PgError := ⟨"23514", "new row violates check constraint"⟩

def uniqueViolation : PgError := ⟨"23505", "duplicate key value violates unique constraint"⟩

/-! ## statements -/

/-- `(power(10::numeric, requested_width) - 1)::bigint`: powers of `numeric` are
exact. -/
def maximumValue (width : Int) : Nat := 10 ^ width.toNat - 1

/-- The test of the width and the first lookup: the sequence of a replay. -/
def replay (db : Database) (call : AllocateCall) : Except PgError (Option Nat) := do
  ensure call.widthInRange invalidWidth
  match db.selectAllocation call.key call.machineId with
  | some existing =>
      ensure (call.hasPolicy existing.refPrefix existing.width) replayPolicyMismatch
      return some existing.sequence
  | none => return none

/-- `INSERT INTO identifold_sequences ... ON CONFLICT DO NOTHING`: the `CHECK`s come
before the unique keys, and only the latter are passed over. -/
def insertSequence (db : Database) (row : SequenceRow) : Except PgError Database := do
  ensure (sequenceChecks row = true) checkViolation
  return db.ensureSequence row

/-- `SELECT ... FROM identifold_sequences ... FOR UPDATE` and the test of what it
found: `current_last_value`. -/
def lockSequence (db : Database) (call : AllocateCall) : Except PgError Nat :=
  match db.selectSequence call.key with
  | none => .error definitionMismatch
  | some state => do
      ensure (call.hasPolicy state.refPrefix state.width) definitionMismatch
      return state.lastValue

/-- `UPDATE identifold_sequences SET last_value = ...`, with its `CHECK`s. -/
def updateSequence (db : Database) (key : Text × Text) (value : Nat) : Except PgError Database := do
  ensure (∀ r ∈ db.selectSequence key, sequenceChecks { r with lastValue := value } = true)
    checkViolation
  return db.setLastValue key value

/-- `INSERT INTO identifold_sequence_allocations`. -/
def insertAllocation (db : Database) (row : AllocationRow) : Except PgError Database := do
  ensure (allocationChecks row = true) checkViolation
  ensure (db.allocationConflicts row = false) uniqueViolation
  return db.addAllocation row

/-- `identifold_allocate_sequence`: the sequence, and the tables after it. -/
def allocateSequence (db : Database) (call : AllocateCall) : Except PgError (Nat × Database) := do
  match ← replay db call with
  | some existing => return (existing, db)
  | none =>
      let db ← insertSequence db (call.counter 0)
      let lastValue ← lockSequence db call
      match db.selectAllocation call.key call.machineId with
      | some existing => return (existing.sequence, db)
      | none =>
          ensure (lastValue < maximumValue call.width) sequenceOverflow
          let allocated := lastValue + 1
          let db ← updateSequence db call.key allocated
          let db ← insertAllocation db (call.allocation allocated)
          return (allocated, db)

/-! ## results of the statements -/

section Statements

variable {db : Database} {call : AllocateCall} {lastValue : Nat}

/-- A machine identifier that is not found is not replayed. -/
theorem replay_of_none (hwidth : call.widthInRange)
    (h : db.selectAllocation call.key call.machineId = none) : replay db call = .ok none := by
  rw [replay, ensure_of hwidth, ok_bind, h]
  rfl

/-- One that is found is replayed under the same policy. -/
theorem replay_of_some (hwidth : call.widthInRange) {existing : AllocationRow}
    (h : db.selectAllocation call.key call.machineId = some existing) :
    replay db call = if call.hasPolicy existing.refPrefix existing.width then
      .ok (some existing.sequence) else .error replayPolicyMismatch := by
  rw [replay, ensure_of hwidth, ok_bind, h]
  simp only
  split
  · rename_i hpolicy
    rw [ensure_of hpolicy]
    rfl
  · rename_i hpolicy
    rw [ensure_of_not hpolicy]
    rfl

/-- A lookup fails for the width or the policy. -/
theorem replay_error {error : PgError} (h : replay db call = .error error) :
    error = invalidWidth ∨ error = replayPolicyMismatch := by
  by_cases hwidth : call.widthInRange
  · cases hselect : db.selectAllocation call.key call.machineId with
    | none => simp [replay_of_none hwidth hselect] at h
    | some existing =>
        rw [replay_of_some hwidth hselect] at h
        split at h
        · contradiction
        · exact .inr (Except.error.inj h).symm
  · rw [replay, ensure_of_not hwidth] at h
    exact .inl (Except.error.inj h).symm

/-- A row under the values of a counter row that passes the checks passes them. -/
theorem sequenceChecks_counter (h : sequenceChecks (call.counter 0) = true)
    (hlast : lastValue < 10 ^ call.width.toNat) : sequenceChecks (call.counter lastValue) = true := by
  simp only [sequenceChecks, AllocateCall.counter, Bool.and_eq_true] at h ⊢
  exact ⟨h.1, decide_eq_true hlast⟩

theorem allocationChecks_allocation (h : sequenceChecks (call.counter 0) = true) (sequence : Nat) :
    allocationChecks (call.allocation sequence) = true := by
  rw [sequenceChecks, Bool.and_eq_true] at h
  exact h.1

/-- A policy that is stored with an allocation passes the checks of a counter. -/
theorem sequenceChecks_of_allocation {r : AllocationRow} (hchecks : allocationChecks r = true)
    (hkey : r.key = call.key) (hpolicy : call.hasPolicy r.refPrefix r.width) :
    sequenceChecks (call.counter 0) = true := by
  obtain ⟨-, hscope⟩ := Prod.mk.inj hkey
  obtain ⟨hpre, hwidth⟩ := hpolicy
  have hnat : r.width = call.width.toNat := by omega
  rw [allocationChecks, hscope, hpre, hnat] at hchecks
  rw [sequenceChecks, Bool.and_eq_true]
  exact ⟨hchecks, decide_eq_true (Nat.pow_pos (by decide))⟩

/-- No counter row, no lock. -/
theorem lockSequence_of_none (h : db.selectSequence call.key = none) :
    lockSequence db call = .error definitionMismatch := by
  rw [lockSequence, h]

/-- A counter row is locked under the same policy. -/
theorem lockSequence_of_some {state : SequenceRow} (h : db.selectSequence call.key = some state) :
    lockSequence db call = if call.hasPolicy state.refPrefix state.width then .ok state.lastValue
      else .error definitionMismatch := by
  rw [lockSequence, h]
  simp only
  split
  · rename_i hpolicy
    rw [ensure_of hpolicy]
    rfl
  · rename_i hpolicy
    rw [ensure_of_not hpolicy]
    rfl

theorem lockSequence_error {error : PgError} (h : lockSequence db call = .error error) :
    error = definitionMismatch := by
  cases hstate : db.selectSequence call.key with
  | none => simpa [lockSequence, hstate] using h.symm
  | some state =>
      rw [lockSequence_of_some hstate] at h
      split at h
      · contradiction
      · exact (Except.error.inj h).symm

/-- What is locked is the counter row of the call. -/
theorem selectSequence_of_lockSequence (h : lockSequence db call = .ok lastValue) :
    db.selectSequence call.key = some (call.counter lastValue) := by
  cases hstate : db.selectSequence call.key with
  | none => simp [lockSequence, hstate] at h
  | some state =>
      rw [lockSequence_of_some hstate] at h
      split at h
      · rename_i hpolicy
        rw [AllocateCall.eq_counter (Database.selectSequence_facts hstate).2 hpolicy,
          Except.ok.inj h]
      · contradiction

/-- The counter row of the call is locked. -/
theorem lockSequence_counter (hwidth : call.widthInRange)
    (h : db.selectSequence call.key = some (call.counter lastValue)) :
    lockSequence db call = .ok lastValue := by
  rw [lockSequence_of_some h, if_pos (AllocateCall.hasPolicy_counter hwidth lastValue)]
  rfl

theorem insertSequence_of_checks {row : SequenceRow} (h : sequenceChecks row = true) :
    insertSequence db row = .ok (db.ensureSequence row) := by
  rw [insertSequence, ensure_of h]
  rfl

/-- The counter row of the call is updated within its width. -/
theorem updateSequence_counter (hchecks : sequenceChecks (call.counter 0) = true)
    (h : db.selectSequence call.key = some (call.counter lastValue)) {value : Nat}
    (hvalue : value < 10 ^ call.width.toNat) :
    updateSequence db call.key value = .ok (db.setLastValue call.key value) := by
  have hrow : ∀ r ∈ db.selectSequence call.key,
      sequenceChecks { r with lastValue := value } = true := by
    intro r hr
    rw [h] at hr
    rw [← Option.some.inj hr]
    exact sequenceChecks_counter hchecks hvalue
  rw [updateSequence, ensure_of hrow]
  rfl

/-- The next number of a counter is inserted for an unbound machine identifier. -/
theorem insertAllocation_next (hdb : db.Consistent)
    (hchecks : sequenceChecks (call.counter 0) = true)
    (hcounter : call.counter lastValue ∈ db.sequences)
    (hunbound : call.machineId ∉ db.ledgerOf call.key) (value : Nat) :
    insertAllocation (db.setLastValue call.key value) (call.allocation (lastValue + 1)) =
      .ok ((db.setLastValue call.key value).addAllocation (call.allocation (lastValue + 1))) := by
  have hfresh : (db.setLastValue call.key value).allocationConflicts
      (call.allocation (lastValue + 1)) = false := by
    rw [Database.allocationConflicts_eq_false_iff]
    intro r hr
    obtain ⟨hprimary, howner⟩ : r.primaryKey ≠ (call.allocation (lastValue + 1)).primaryKey ∧
        r.ownerKey ≠ (call.allocation (lastValue + 1)).ownerKey := hdb.nextRow_fresh hcounter hr
    refine ⟨hprimary, howner, fun hmachine => hunbound ?_⟩
    obtain ⟨hkey, hid⟩ := Prod.mk.inj hmachine
    exact List.mem_map.mpr ⟨r, Database.mem_rowsOf.mpr ⟨hr, hkey⟩, hid⟩
  rw [insertAllocation, ensure_of (allocationChecks_allocation hchecks _), ok_bind,
    ensure_of hfresh]
  rfl

theorem lt_of_lt_maximumValue {width : Int} (h : lastValue < maximumValue width) :
    lastValue + 1 < 10 ^ width.toNat := by
  rw [maximumValue] at h
  omega

end Statements

/-! ## results of the function -/

section Function

variable {db : Database} {call : AllocateCall} {lastValue : Nat}

/-- A replay returns what is stored. -/
theorem allocateSequence_of_replay {sequence : Nat} (h : replay db call = .ok (some sequence)) :
    allocateSequence db call = .ok (sequence, db) := by
  rw [allocateSequence, h]
  rfl

/-- A lookup that fails ends the function. -/
theorem allocateSequence_of_replay_error {error : PgError} (h : replay db call = .error error) :
    allocateSequence db call = .error error := by
  rw [allocateSequence, h]
  rfl

/-- A machine identifier that is bound under another policy. -/
theorem allocateSequence_of_mismatch (hwidth : call.widthInRange) {existing : AllocationRow}
    (h : db.selectAllocation call.key call.machineId = some existing)
    (hpolicy : ¬ call.hasPolicy existing.refPrefix existing.width) :
    allocateSequence db call = .error replayPolicyMismatch :=
  allocateSequence_of_replay_error (by rw [replay_of_some hwidth h, if_neg hpolicy])

/-- A policy that is not stored. -/
theorem allocateSequence_of_unchecked (hreplay : replay db call = .ok none)
    (h : ¬ sequenceChecks (call.counter 0) = true) :
    allocateSequence db call = .error checkViolation := by
  rw [allocateSequence, hreplay, ok_bind, insertSequence, ensure_of_not h]
  rfl

/-- A counter that is missing or has another policy. -/
theorem allocateSequence_of_definition (hreplay : replay db call = .ok none)
    (hchecks : sequenceChecks (call.counter 0) = true) {error : PgError}
    (h : lockSequence (db.ensureSequence (call.counter 0)) call = .error error) :
    allocateSequence db call = .error error := by
  rw [allocateSequence, hreplay, ok_bind]
  simp only [insertSequence_of_checks hchecks, ok_bind, h]
  rfl

section Counter

variable (hreplay : replay db call = .ok none) (hchecks : sequenceChecks (call.counter 0) = true)
  (hlock : lockSequence (db.ensureSequence (call.counter 0)) call = .ok lastValue)
  (hunbound : call.machineId ∉ db.ledgerOf call.key)

include hreplay hchecks hlock hunbound

/-- A counter without room. -/
theorem allocateSequence_of_full (hfull : ¬ lastValue < maximumValue call.width) :
    allocateSequence db call = .error sequenceOverflow := by
  have hnone : (db.ensureSequence (call.counter 0)).selectAllocation call.key call.machineId = none :=
    Database.selectAllocation_eq_none_iff.mpr (by rwa [Database.ensureSequence_ledgerOf])
  rw [allocateSequence, hreplay, ok_bind]
  simp only [insertSequence_of_checks hchecks, ok_bind, hlock, hnone, ensure_of_not hfull]
  rfl

/-- **Recording**: an unbound machine identifier gets the next number. -/
theorem allocateSequence_of_room (hdb : db.Consistent) (hroom : lastValue < maximumValue call.width) :
    allocateSequence db call = .ok (lastValue + 1,
      (db.ensureSequence (call.counter 0)).record (call.counter lastValue) call.machineId) := by
  have hnone : (db.ensureSequence (call.counter 0)).selectAllocation call.key call.machineId = none :=
    Database.selectAllocation_eq_none_iff.mpr (by rwa [Database.ensureSequence_ledgerOf])
  have hcounter := selectSequence_of_lockSequence hlock
  have hupdate := updateSequence_counter hchecks hcounter (lt_of_lt_maximumValue hroom)
  have hensured : (db.ensureSequence (call.counter 0)).Consistent := hdb.ensureSequence rfl
  have hinsert := insertAllocation_next hensured hchecks
    (Database.selectSequence_facts hcounter).1 (by rwa [Database.ensureSequence_ledgerOf])
    (lastValue + 1)
  rw [allocateSequence, hreplay, ok_bind]
  simp only [insertSequence_of_checks hchecks, ok_bind, hlock, hnone, ensure_of hroom, hupdate,
    hinsert]
  rfl

end Counter

end Function

end Postgres

end Identifold
