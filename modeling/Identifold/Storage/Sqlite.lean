import Identifold.Lib.Run
import Identifold.Storage.SqlStorage
import Identifold.Storage.Tables

/-!
# Identifold.Storage.Sqlite

The SQLite adapters of `packages/typescript/src/sqlite.ts` over the tables of
`integrations/sqlite/migrations/001_identifold.up.sql`.

The calls of the adapters are synchronous once they have started, so a call
is one step from a committed database to the next: it commits, or rolls back
and leaves the database as it was.  SQLite tests the `CHECK`s of a row before
its unique keys, and `ON CONFLICT DO NOTHING` only passes over the latter.
-/

namespace Identifold

/-! ## checks -/

/-- What `length` and `GLOB` see of a text: SQLite reads it up to the first
NUL. -/
def cString (v : Text) : Text := v.takeWhile (· ≠ '\x00')

/-- The `CHECK`s of `identifold_references`. -/
def ReferenceRow.sqliteChecks (r : ReferenceRow) : Bool :=
  r.machineId.length = 16 && ((cString r.namespaceName).take 1).any Char.isLower &&
    1 ≤ (cString r.namespaceName).length && (cString r.namespaceName).length ≤ 63 &&
    4 ≤ utf8Length r.reference && utf8Length r.reference ≤ 100

/-- The `CHECK`s of `identifold_sequences`. -/
def SequenceRow.sqliteChecks (r : SequenceRow) : Bool :=
  (r.scope = [] || (cString r.scope).length = 4 && (cString r.scope).all Char.isDigit) &&
    (2 ≤ (cString r.refPrefix).length && (cString r.refPrefix).length ≤ 8 &&
      (cString r.refPrefix).all Char.isUpper) &&
    (4 ≤ r.width && r.width ≤ 18)

/-- The `CHECK`s of `identifold_sequence_allocations`. -/
def AllocationRow.sqliteChecks (r : AllocationRow) : Bool :=
  r.machineId.length = 16 && (4 ≤ r.width && r.width ≤ 18)

/-! ## errors -/

/-- `mapSqliteError` of an error that SQLite reports. -/
def databaseError : IdentifoldError :=
  ⟨.allocationConflict, "Database allocation could not be committed"⟩

/-- The error of a malformed or contradicting policy. -/
def invalidAllocationPolicy : IdentifoldError :=
  ⟨.invalidAllocationPolicy, "Sequential allocation policy is invalid"⟩

/-- The error of an exhausted counter. -/
def sequenceOverflow : IdentifoldError :=
  ⟨.sequenceOverflow, "Sequential reference capacity is exhausted"⟩

namespace Sqlite

/-! ## inserts -/

/-- `INSERT INTO identifold_references ... ON CONFLICT(reference) DO NOTHING`,
with the number of rows it changed. -/
def insertReference (db : Database) (row : ReferenceRow) : Except IdentifoldError (Nat × Database) := do
  ensure (row.sqliteChecks = true) databaseError
  return if db.referenceConflicts row then (0, db) else (1, db.addReference row)

/-- `INSERT INTO identifold_sequences ... ON CONFLICT DO NOTHING`. -/
def insertSequence (db : Database) (row : SequenceRow) : Except IdentifoldError Database := do
  ensure (row.sqliteChecks = true) databaseError
  return db.ensureSequence row

/-- `INSERT INTO identifold_sequence_allocations`, with its foreign key. -/
def insertAllocation (db : Database) (row : AllocationRow) : Except IdentifoldError Database := do
  ensure (row.sqliteChecks = true) databaseError
  ensure (db.allocationConflicts row = false) databaseError
  ensure ((db.selectSequence row.key).isSome = true) databaseError
  return db.addAllocation row

/-! ## the adapters -/

/-- `reserve` of `createSqliteReferenceStore`. -/
def reserve (db : Database) (reservation : ReferenceReservation) :
    Except IdentifoldError (Bool × Database) := do
  let machineId ← machineIdToBytes reservation.machineId
  let (changes, db') ← insertReference db
    ⟨reservation.reference, reservation.namespaceName, machineId⟩
  return (changes = 1, db')

/-- `request.scope ?? ""`, with the namespace: the key of the counter. -/
def counterKey (request : SequenceAllocationRequest) : Text × Text :=
  (request.namespaceName, request.scope.getD [])

/-- The transaction of `allocate`, from `BEGIN IMMEDIATE` to `COMMIT`; an
error is a `ROLLBACK`. -/
def allocateTransaction (db : Database) (request : SequenceAllocationRequest) (width : Nat) :
    Except IdentifoldError (Nat × Database) := do
  let key := counterKey request
  let machineId ← machineIdToBytes request.machineId
  match db.selectAllocation key machineId with
  | some existing =>
      ensure (existing.refPrefix = request.refPrefix ∧ existing.width = width) invalidAllocationPolicy
      return (existing.sequence, db)
  | none =>
      let db ← insertSequence db ⟨key.1, key.2, request.refPrefix, width, 0⟩
      match db.selectSequence key with
      | none => throw invalidAllocationPolicy
      | some state =>
          ensure (state.refPrefix = request.refPrefix ∧ state.width = width) invalidAllocationPolicy
          ensure (state.lastValue < 10 ^ width - 1) sequenceOverflow
          let allocated := state.lastValue + 1
          let db := db.setLastValue key allocated
          let db ← insertAllocation db
            ⟨key.1, key.2, allocated, machineId, request.refPrefix, width⟩
          return (allocated, db)

/-- `allocate` of `createSqliteSequenceAllocator`: the width test comes before
the transaction. -/
def allocate (db : Database) (request : SequenceAllocationRequest) :
    Except IdentifoldError (Nat × Database) :=
  match request.width with
  | .other => .error invalidAllocationPolicy
  | .integer width =>
      if 4 ≤ width ∧ width ≤ 18 then allocateTransaction db request width.toNat
      else .error invalidAllocationPolicy

/-- `createSqliteReferenceLookup`: the mapping of a random reference, and
where there is none, the row of the allocation the reference reads as. -/
def lookup (db : Database) (reference namespaceName : Text) :
    Except IdentifoldError (Option ReferenceLookupResult) :=
  match db.references.find? fun r =>
      decide (r.reference = reference) && decide (r.namespaceName = namespaceName) with
  | some random => do return some ⟨← bytesToMachineId random.machineId, random.namespaceName⟩
  | none =>
      match splitSequentialReference reference with
      | none => .ok none
      | some parts =>
          match db.allocations.find? fun r => decide (r.namespaceName = namespaceName) &&
              decide (r.ownerKey = ((parts.refPrefix, parts.scope), parts.sequence)) with
          | none => .ok none
          | some sequential => do
              return some ⟨← bytesToMachineId sequential.machineId, sequential.namespaceName⟩

/-! ## calls -/

/-- A call of the storage adapter that may write. -/
inductive Call
  | reserve (reservation : ReferenceReservation)
  | allocate (request : SequenceAllocationRequest)
  deriving DecidableEq, Repr

/-- What the caller sees. -/
inductive Outcome
  | reserved (won : Bool)
  | allocated (value : Nat)
  | failed (error : IdentifoldError)
  deriving DecidableEq, Repr

/-- A call with the database it leaves: a failing call has rolled back. -/
def exec (db : Database) : Call → Outcome × Database
  | .reserve reservation =>
      match reserve db reservation with
      | .ok (won, db') => (.reserved won, db')
      | .error e => (.failed e, db)
  | .allocate request =>
      match allocate db request with
      | .ok (value, db') => (.allocated value, db')
      | .error e => (.failed e, db)

end Sqlite

end Identifold
