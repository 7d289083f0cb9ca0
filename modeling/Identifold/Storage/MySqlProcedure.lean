import Identifold.Lib.Rounding
import Identifold.Lib.Run
import Identifold.Reference
import Identifold.Storage.Tables

/-!
# Identifold.Storage.MySqlProcedure

The procedure `identifold_allocate_sequence` of
`integrations/mysql/migrations/001_identifold.up.sql`.

The procedure locks what it reads, and its exit handler rolls back on every
error, so a call is one step from a committed database to the next.  Texts are
compared for equality; `MySqlCollation` proves that every collation does so on the
texts of registered policies, in the tables that calls with such texts write.
-/

namespace Identifold

/-- A condition that a statement raises or signals: the number of its error, its
SQLSTATE and its text. -/
structure SqlCondition where
  errno : Nat
  sqlState : String
  message : String
  deriving DecidableEq, Repr

/-- The arguments of the procedure. -/
structure SequenceCall where
  machineId : MachineBytes
  namespaceName : Text
  refPrefix : Text
  scope : Option Text
  width : Nat
  deriving DecidableEq, Repr

namespace MySql

/-! ## the tables -/

/-- The column types and `CHECK`s of `identifold_sequences`. -/
def sequenceChecks (r : SequenceRow) : Bool :=
  (decide (IsAscii r.namespaceName) && decide (r.namespaceName.length ≤ 63)) &&
    (r.scope = [] || isFourDigits r.scope) && isReferencePrefix r.refPrefix &&
    (4 ≤ r.width && r.width ≤ 18)

/-- The `CHECK` of `identifold_sequence_allocations`; its texts are those of the
counter row it refers to. -/
def allocationChecks (r : AllocationRow) : Bool := 4 ≤ r.width && r.width ≤ 18

/-- What the engine enforces of the stored rows. -/
structure StoredState (db : Database) : Prop where
  keyUnique : Rows.UniqueOn SequenceRow.key db.sequences
  ownerUnique : Rows.UniqueOn SequenceRow.owner db.sequences
  sequencesChecked : ∀ r ∈ db.sequences, sequenceChecks r = true
  primaryUnique : Rows.UniqueOn AllocationRow.primaryKey db.allocations
  ownerKeyUnique : Rows.UniqueOn AllocationRow.ownerKey db.allocations
  machineUnique : Rows.UniqueOn AllocationRow.machineKey db.allocations
  allocationsChecked : ∀ r ∈ db.allocations, allocationChecks r = true
  foreignKey : ∀ r ∈ db.allocations, ∃ c ∈ db.sequences, c.key = r.key

/-! ## statements -/

/-- `SIGNAL SQLSTATE ... SET MESSAGE_TEXT = ...`. -/
def signal (sqlState message : String) : SqlCondition := ⟨1644, sqlState, message⟩

def checkViolated : SqlCondition := ⟨3819, "HY000", "Check constraint is violated"⟩

def duplicateEntry : SqlCondition := ⟨1062, "23000", "Duplicate entry"⟩

/-- A parent row that is referred to cannot be changed. -/
def parentReferred : SqlCondition := ⟨1451, "23000", "Cannot delete or update a parent row"⟩

/-- A child row cannot be added without its parent. -/
def parentMissing : SqlCondition := ⟨1452, "23000", "Cannot add or update a child row"⟩

/-- `INSERT INTO identifold_sequences ... ON DUPLICATE KEY UPDATE namespace =
VALUES(namespace)`.  The primary key is tried first: the row it finds gets the
namespace it has.  A row found by `(reference_prefix, scope)` alone is given
the new namespace, unless allocations refer to it. -/
def upsertSequence (db : Database) (row : SequenceRow) : Except SqlCondition Database := do
  ensure (sequenceChecks row = true) checkViolated
  match db.selectSequence row.key with
  | some _ => return db
  | none =>
      match db.sequences.find? fun r => decide (r.owner = row.owner) with
      | none => return db.addSequence row
      | some owner => do
          ensure (db.rowsOf owner.key = []) parentReferred
          return { db with sequences := db.sequences.map fun r =>
            if r.key = owner.key then { r with namespaceName := row.namespaceName } else r }

/-- `INSERT INTO identifold_sequence_allocations`. -/
def insertAllocation (db : Database) (row : AllocationRow) : Except SqlCondition Database := do
  ensure (allocationChecks row = true) checkViolated
  ensure (db.allocationConflicts row = false) duplicateEntry
  ensure ((db.selectSequence row.key).isSome = true) parentMissing
  return db.addAllocation row

/-! ## the procedure -/

/-- An integer as a double. -/
def toDouble (n : Nat) : Nat := Rounding.toNearest 53 n

/-- `POW(10, requested_width) - 1`: the power and the difference are doubles;
the `decimal(20, 0)` variable takes the result as it is. -/
def maximumValue (width : Nat) : Nat := toDouble (toDouble (10 ^ width) - 1)

/-- The key of the counter: `COALESCE(requested_scope, '')` is its scope. -/
def callKey (call : SequenceCall) : Text × Text := (call.namespaceName, call.scope.getD [])

/-- `identifold_allocate_sequence`, from `START TRANSACTION` to `COMMIT`; a
condition is a `ROLLBACK` and is resignalled. -/
def allocateSequence (db : Database) (call : SequenceCall) :
    Except SqlCondition (Nat × Database) := do
  ensure (4 ≤ call.width ∧ call.width ≤ 18) (signal "22023" "invalid_sequence_width")
  let key := callKey call
  match db.selectAllocation key call.machineId with
  | some existing =>
      ensure (existing.refPrefix = call.refPrefix ∧ existing.width = call.width)
        (signal "22023" "sequence_replay_policy_mismatch")
      return (existing.sequence, db)
  | none =>
      let db ← upsertSequence db ⟨key.1, key.2, call.refPrefix, call.width, 0⟩
      match db.selectSequence key with
      | none => throw (signal "22023" "sequence_definition_mismatch")
      | some state =>
          ensure (state.refPrefix = call.refPrefix ∧ state.width = call.width)
            (signal "22023" "sequence_definition_mismatch")
          ensure (state.lastValue < maximumValue call.width) (signal "22003" "sequence_overflow")
          let allocated := state.lastValue + 1
          let db := db.setLastValue key allocated
          let db ← insertAllocation db
            ⟨key.1, key.2, allocated, call.machineId, call.refPrefix, call.width⟩
          return (allocated, db)

/-- What the client of a call sees. -/
inductive Reply
  | returned (sequence : Nat)
  | signalled (condition : SqlCondition)
  deriving DecidableEq, Repr

/-- A call with the database it leaves. -/
def exec (db : Database) (call : SequenceCall) : Reply × Database :=
  match allocateSequence db call with
  | .ok (sequence, db') => (.returned sequence, db')
  | .error condition => (.signalled condition, db)

end MySql

end Identifold
