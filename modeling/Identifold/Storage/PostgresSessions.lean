import Identifold.Lib.Holding
import Identifold.Lib.Interleaving
import Identifold.Storage.PostgresFunction

/-!
# Identifold.Storage.PostgresSessions

Concurrent calls of `identifold_allocate_sequence`, each in a transaction of its
own under READ COMMITTED.

The server keeps what is committed, and for every transaction in flight the
rows it has inserted, the values it has set and the row locks it has taken.
A statement sees what is committed when it starts and what its own transaction
has written.  The threads are the calls, known by the number of their
transaction, and their steps the statements, up to the `COMMIT`:

* an `INSERT` that meets a row of another transaction in flight waits for that
  transaction, and goes by its outcome;
* a `SELECT ... FOR UPDATE` finds its row in its snapshot, waits for the row lock and
  reads the row as it is committed then.

A transaction may be aborted from outside at any time, while it waits too.
-/

namespace Identifold

namespace Postgres

open Interleaving Holding

/-! ## the server -/

/-- What a transaction in flight has locked and written. -/
structure Pending where
  created : List SequenceRow
  locked : List (Text × Text)
  updated : List ((Text × Text) × Nat)
  recorded : List AllocationRow
  deriving DecidableEq, Repr

/-- A transaction that has locked and written nothing. -/
def Pending.none : Pending := ⟨[], [], [], []⟩

/-- The tables with the writes of a transaction. -/
def Pending.applyTo (p : Pending) (db : Database) : Database :=
  let db := p.created.foldl Database.addSequence db
  let db := p.updated.foldl (fun db (key, value) => db.setLastValue key value) db
  p.recorded.foldl Database.addAllocation db

/-- The committed tables, and what the transactions in flight hold. -/
structure Server where
  committed : Database
  created : List (SequenceRow × Nat)
  locked : List ((Text × Text) × Nat)
  updated : List (((Text × Text) × Nat) × Nat)
  recorded : List (AllocationRow × Nat)
  deriving DecidableEq, Repr

namespace Server

/-- The server right after the migrations. -/
def initial : Server := ⟨.empty, [], [], [], []⟩

/-- What transaction `i` has locked and written. -/
def pending (s : Server) (i : Nat) : Pending :=
  ⟨heldBy s.created i, heldBy s.locked i, heldBy s.updated i, heldBy s.recorded i⟩

/-- The tables as a statement of transaction `i` sees them. -/
def viewOf (s : Server) (i : Nat) : Database := (s.pending i).applyTo s.committed

/-- The uncommitted rows of the other transactions. -/
def inFlight (s : Server) (i : Nat) : Database :=
  ⟨[], heldByOthers s.created i, heldByOthers s.recorded i⟩

/-- Transaction `i` inserts a counter row. -/
def create (s : Server) (i : Nat) (row : SequenceRow) : Server :=
  { s with created := take s.created i row }

/-- Transaction `i` locks a counter row. -/
def lock (s : Server) (i : Nat) (key : Text × Text) : Server :=
  { s with locked := take s.locked i key }

/-- Transaction `i` sets the last value of a counter row. -/
def update (s : Server) (i : Nat) (key : Text × Text) (value : Nat) : Server :=
  { s with updated := take s.updated i (key, value) }

/-- Transaction `i` inserts an allocation row. -/
def record (s : Server) (i : Nat) (row : AllocationRow) : Server :=
  { s with recorded := take s.recorded i row }

/-- `ROLLBACK`. -/
def rollback (s : Server) (i : Nat) : Server :=
  { s with
    created := release s.created i
    locked := release s.locked i
    updated := release s.updated i
    recorded := release s.recorded i }

/-- `COMMIT`. -/
def commit (s : Server) (i : Nat) : Server := { s.rollback i with committed := s.viewOf i }

end Server

/-! ## the calls -/

/-- What the client of a call sees. -/
inductive Result
  | returned (sequence : Nat)
  | failed (error : PgError)
  | aborted
  deriving DecidableEq, Repr

/-- The statement a call is at, with the variables that are read later. -/
inductive Phase
  /-- The first lookup. -/
  | replaying
  /-- The insert of the counter row. -/
  | creating
  /-- The `SELECT ... FOR UPDATE`, before its snapshot. -/
  | locking
  /-- The `SELECT ... FOR UPDATE`, once it has found the row. -/
  | waiting
  /-- The second lookup. -/
  | rechecking (lastValue : Nat)
  /-- The update of the counter row. -/
  | updating (lastValue : Nat)
  /-- The insert of the allocation row. -/
  | recording (allocated : Nat)
  /-- The `COMMIT`. -/
  | returning (sequence : Nat)
  | done (result : Result)
  deriving DecidableEq, Repr

/-- A call and how far it has come. -/
structure Session where
  call : AllocateCall
  phase : Phase
  deriving DecidableEq, Repr

/-- The next statement of a call; `none` while it waits. -/
def execute (i : Nat) (s : Server) (call : AllocateCall) :
    Phase → Option (Except PgError (Server × Phase))
  | .replaying => some do
      match ← replay (s.viewOf i) call with
      | some existing => return (s, .returning existing)
      | none => return (s, .creating)
  | .creating =>
      let row := call.counter 0
      if sequenceChecks row = false then some (.error checkViolation)
      else if (s.viewOf i).sequenceConflicts row then some (.ok (s, .locking))
      else if (s.inFlight i).sequenceConflicts row then none
      else some (.ok (s.create i row, .locking))
  | .locking =>
      match (s.viewOf i).selectSequence call.key with
      | none => some (.error definitionMismatch)
      | some _ => some (.ok (s, .waiting))
  | .waiting =>
      if call.key ∈ heldByOthers s.locked i then none
      else some do
        let lastValue ← lockSequence (s.viewOf i) call
        return (s.lock i call.key, .rechecking lastValue)
  | .rechecking lastValue =>
      match (s.viewOf i).selectAllocation call.key call.machineId with
      | some existing => some (.ok (s, .returning existing.sequence))
      | none => some (.ok (s, .updating lastValue))
  | .updating lastValue => some do
      -- the row is locked by the call itself, so the update does not wait
      ensure (lastValue < maximumValue call.width) sequenceOverflow
      let allocated := lastValue + 1
      let _ ← updateSequence (s.viewOf i) call.key allocated
      return (s.update i call.key allocated, .recording allocated)
  | .recording allocated =>
      let row := call.allocation allocated
      match insertAllocation (s.viewOf i) row with
      | .error error => some (.error error)
      | .ok _ =>
          if (s.inFlight i).allocationConflicts row then none
          else some (.ok (s.record i row, .returning allocated))
  | .returning sequence => some (.ok (s.commit i, .done (.returned sequence)))
  | .done _ => none

attribute [grind =] execute

/-- What may happen to a call. -/
inductive Input
  | proceed
  | abort
  deriving DecidableEq, Repr

/-- A call executes its next statement, or is aborted; an error is a rollback. -/
def step (i : Nat) (s : Server) (t : Session) : Input → Option (Server × Session)
  | .proceed => (execute i s t.call t.phase).map fun
      | .ok (s', phase) => (s', ⟨t.call, phase⟩)
      | .error error => (s.rollback i, ⟨t.call, .done (.failed error)⟩)
  | .abort =>
      match t.phase with
      | .done _ => none
      | _ => some (s.rollback i, ⟨t.call, .done .aborted⟩)

/-- The calls; each starts at the first lookup. -/
def sessions : Program Server Session AllocateCall Input where
  start call := ⟨call, .replaying⟩
  step := step

/-- The call and its result, once it has one. -/
def outcome (t : Session) : Option (AllocateCall × Result) :=
  match t.phase with
  | .done result => some (t.call, result)
  | _ => none

/-- A call of the serial function, by its result.  The concurrent call may test
the row or the counter before it learns that its machine identifier was bound
meanwhile under another policy, and then fails with the error of that test. -/
def Serial (db : Database) (event : Nat × AllocateCall × Result) (db' : Database) : Prop :=
  match event with
  | (_, call, .returned sequence) => allocateSequence db call = .ok (sequence, db')
  | (_, call, .failed error) => db' = db ∧ ∃ error', allocateSequence db call = .error error' ∧
      (error' = error ∨ error' = replayPolicyMismatch)
  | (_, _, .aborted) => db' = db

/-! ## what the transactions hold -/

namespace Server

variable {s : Server} {i j : Nat} {key : Text × Text} {value : Nat}

theorem pending_create_self (row : SequenceRow) : (s.create i row).pending i =
    { s.pending i with created := (s.pending i).created ++ [row] } := by
  simp [pending, create]

theorem pending_lock_self : (s.lock i key).pending i =
    { s.pending i with locked := (s.pending i).locked ++ [key] } := by
  simp [pending, lock]

theorem pending_update_self : (s.update i key value).pending i =
    { s.pending i with updated := (s.pending i).updated ++ [(key, value)] } := by
  simp [pending, update]

theorem pending_record_self (row : AllocationRow) : (s.record i row).pending i =
    { s.pending i with recorded := (s.pending i).recorded ++ [row] } := by
  simp [pending, record]

@[simp] theorem pending_rollback_self : (s.rollback i).pending i = .none := by
  simp [pending, rollback, Pending.none]

@[simp] theorem pending_commit_self : (s.commit i).pending i = .none := pending_rollback_self

theorem pending_create_ne (h : j ≠ i) (row : SequenceRow) :
    (s.create i row).pending j = s.pending j := by
  simp [pending, create, heldBy_take_ne h]

theorem pending_lock_ne (h : j ≠ i) : (s.lock i key).pending j = s.pending j := by
  simp [pending, lock, heldBy_take_ne h]

theorem pending_update_ne (h : j ≠ i) : (s.update i key value).pending j = s.pending j := by
  simp [pending, update, heldBy_take_ne h]

theorem pending_record_ne (h : j ≠ i) (row : AllocationRow) :
    (s.record i row).pending j = s.pending j := by
  simp [pending, record, heldBy_take_ne h]

theorem pending_rollback_ne (h : j ≠ i) : (s.rollback i).pending j = s.pending j := by
  simp [pending, rollback, heldBy_release_ne h]

theorem pending_commit_ne (h : j ≠ i) : (s.commit i).pending j = s.pending j :=
  pending_rollback_ne h

/-- An insert that need not wait meets no counter row in flight. -/
theorem of_inFlight_sequenceConflicts {row : SequenceRow}
    (h : (s.inFlight i).sequenceConflicts row = false) (hj : j ≠ i) :
    ∀ r ∈ (s.pending j).created, r.key ≠ row.key ∧ r.owner ≠ row.owner := fun r hr =>
  Database.sequenceConflicts_eq_false_iff.mp h r (mem_heldByOthers.mpr ⟨j, hj, hr⟩)

/-- A lock that need not be waited for is held by nobody. -/
theorem not_mem_locked (h : key ∉ heldByOthers s.locked i) (hj : j ≠ i) :
    key ∉ (s.pending j).locked := fun hkey => h (mem_heldByOthers.mpr ⟨j, hj, hkey⟩)

end Server

end Postgres

end Identifold
