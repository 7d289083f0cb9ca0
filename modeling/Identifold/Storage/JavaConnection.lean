import Identifold.Storage.SqliteConnection

/-!
# Identifold.Storage.JavaConnection

`allocateSynchronously` of
`packages/java/src/main/java/io/greyfoundry/identifold/storage/sqlite/SqliteStorageAdapter.java`
call by call, on a connection of a pool.

The driver may throw an `SQLException` at every call that is made to it: as a
statement is prepared, bound, executed, read or closed, and as the connection
is taken or closed.  The program itself throws exceptions of three more types,
and its two `catch` lists differ in which of them they name.
-/

namespace Identifold

namespace Sqlite

open Script

namespace Java

/-! ## requests, exceptions, calls -/

/-- `SequenceAllocationRequest`; a reference may be null. -/
structure SequenceAllocationRequest where
  machineId : Option Text
  namespaceName : Option Text
  refPrefix : Option Text
  scope : Option Text
  width : Int
  deriving DecidableEq, Repr

/-- What is thrown; a `CompletionException` carries an `IdentifoldException`. -/
inductive Exception
  | sql
  | completion (code : IdentifoldErrorCode)
  | illegalArgument
  | nullPointer
  deriving DecidableEq, Repr

/-- The calls to the driver. -/
inductive Call
  | getConnection
  | prepare (statement : Statement)
  | bind (statement : Statement)
  | execute (statement : Statement)
  | next (statement : Statement)
  | get (statement : Statement) (column : Nat)
  | closeResult (statement : Statement)
  | closeStatement (statement : Statement)
  | closeConnection
  deriving DecidableEq, Repr

/-- What a connection has been through. -/
inductive Event
  | began
  | commitIssued
  | rollbackIssued
  | closed
  deriving DecidableEq, Repr

/-- A connection and its events, the first one first. -/
structure Session where
  connection : Connection
  events : List Event
  deriving DecidableEq, Repr

/-- `failure`. -/
def failure (code : IdentifoldErrorCode) : Exception := .completion code

/-- `throw failure(code)` unless the condition holds. -/
def demand (condition : Prop) [Decidable condition] (code : IdentifoldErrorCode) :
    Script Session Exception Unit :=
  fromExcept (ensure condition (failure code))

/-! ## the driver -/

/-- A call without an effect on the tables. -/
def call (faults : Call → Bool) (point : Call) : Script Session Exception Unit :=
  fromExcept (ensure (faults point = false) .sql)

/-- Something happens to the connection. -/
def record (event : Event) : Script Session Exception Unit :=
  step fun s => (.ok (), { s with events := s.events ++ [event] })

/-- The effect of a statement. -/
def effectOf {α : Type} (effect : Connection → Except Thrown α × Connection) :
    Script Session Exception α :=
  step fun s => ((effect s.connection).1.mapError fun _ => .sql,
    { s with connection := (effect s.connection).2 })

/-- `try (var statement = ...) { ... }`. -/
def prepared {α : Type} (faults : Call → Bool) (statement : Statement)
    (body : Script Session Exception α) : Script Session Exception α := do
  call faults (.prepare statement)
  withClose (call faults (.closeStatement statement)) body

/-- A prepared statement that is bound and executed by `executeUpdate`. -/
def updated (faults : Call → Bool) (statement : Statement)
    (change : Database → Except IdentifoldError Database) : Script Session Exception Unit := do
  call faults (.bind statement)
  call faults (.execute statement)
  effectOf (·.update change)

/-- A prepared statement that is bound and executed by `executeQuery`, with
the row of its result that `next` moves to. -/
def queried {α β : Type} (faults : Call → Bool) (statement : Statement) (select : Database → Option α)
    (body : Option α → Script Session Exception β) : Script Session Exception β := do
  call faults (.bind statement)
  call faults (.execute statement)
  let row ← effectOf (·.query select)
  withClose (call faults (.closeResult statement)) do
    call faults (.next statement)
    body row

/-! ## the helpers -/

/-- `beginImmediate`. -/
def beginImmediate (faults : Call → Bool) : Script Session Exception Unit :=
  prepared faults .beginImmediate do
    call faults (.execute .beginImmediate)
    effectOf Connection.beginImmediate
    record .began

/-- `commit`. -/
def commit (faults : Call → Bool) : Script Session Exception Unit :=
  prepared faults .commit do
    record .commitIssued
    call faults (.execute .commit)
    effectOf Connection.commit

/-- `rollback`. -/
def rollback (faults : Call → Bool) : Script Session Exception Unit :=
  tryCatch
    (prepared faults .rollback do
      record .rollbackIssued
      call faults (.execute .rollback)
      effectOf Connection.rollback)
    fun
      | .sql => pure ()
      | exception => throw exception

/-- `machineIdBytes`; `uuid` is `UUID.fromString`, where `none` is its
`IllegalArgumentException`. -/
def machineIdBytes (uuid : Text → Option MachineBytes) : Option Text → Except Exception MachineBytes
  | none => .error .nullPointer
  | some value =>
      match uuid value with
      | some machineId => .ok machineId
      | none => .error .illegalArgument

/-- `request.referencePrefix().equals(column)`. -/
def equalsPrefix (refPrefix : Option Text) (column : Text) : Except Exception Bool :=
  match refPrefix with
  | some value => .ok (value = column)
  | none => .error .nullPointer

/-! ## statements -/

/-- `WHERE namespace = ? AND scope = ?`: null is equal to nothing. -/
def keyOf (request : SequenceAllocationRequest) : Option (Text × Text) :=
  request.namespaceName.map fun namespaceName => (namespaceName, request.scope.getD [])

/-- `INSERT INTO identifold_sequences`, whose columns are `NOT NULL`. -/
def insertSequence (request : SequenceAllocationRequest) (db : Database) :
    Except IdentifoldError Database :=
  match keyOf request, request.refPrefix with
  | some key, some refPrefix =>
      Sqlite.insertSequence db ⟨key.1, key.2, refPrefix, request.width.toNat, 0⟩
  | _, _ => .error databaseError

/-- `UPDATE identifold_sequences`. -/
def updateSequence (request : SequenceAllocationRequest) (allocated : Nat) (db : Database) : Database :=
  match keyOf request with
  | some key => db.setLastValue key allocated
  | none => db

/-- `INSERT INTO identifold_sequence_allocations`, whose columns are `NOT
NULL`. -/
def insertAllocation (request : SequenceAllocationRequest) (machineId : MachineBytes) (allocated : Nat)
    (db : Database) : Except IdentifoldError Database :=
  match keyOf request, request.refPrefix with
  | some key, some refPrefix =>
      Sqlite.insertAllocation db ⟨key.1, key.2, allocated, machineId, refPrefix, request.width.toNat⟩
  | _, _ => .error databaseError

/-! ## allocate -/

section Allocate

variable (faults : Call → Bool) (request : SequenceAllocationRequest)

/-- The row of a replay: its sequence, after a `COMMIT`. -/
def replay : Option AllocationRow → Script Session Exception (Option Nat)
  | none => pure none
  | some existing => do
      call faults (.get .selectAllocation 2)
      let same ← fromExcept (equalsPrefix request.refPrefix existing.refPrefix)
      demand (same = true) .invalidAllocationPolicy
      call faults (.get .selectAllocation 3)
      demand (request.width = existing.width) .invalidAllocationPolicy
      call faults (.get .selectAllocation 1)
      commit faults
      return some existing.sequence

/-- The row of the counter: its last value. -/
def readCurrent : Option SequenceRow → Script Session Exception Nat
  | none => throw (failure .invalidAllocationPolicy)
  | some state => do
      call faults (.get .selectSequence 1)
      let same ← fromExcept (equalsPrefix request.refPrefix state.refPrefix)
      demand (same = true) .invalidAllocationPolicy
      call faults (.get .selectSequence 2)
      demand (request.width = state.width) .invalidAllocationPolicy
      call faults (.get .selectSequence 3)
      return state.lastValue

/-- The number is recorded: both statements are prepared before either is
executed. -/
def recordNumber (machineId : MachineBytes) (allocated : Nat) : Script Session Exception Unit :=
  prepared faults .updateSequence do
    prepared faults .insertAllocation do
      updated faults .updateSequence fun db => .ok (updateSequence request allocated db)
      updated faults .insertAllocation (insertAllocation request machineId allocated)

/-- The inner `try` block, after the scope is read. -/
def transaction (machineId : Except Exception MachineBytes) : Script Session Exception Nat := do
  let machineId ← fromExcept machineId
  let replayed ← prepared faults .selectAllocation
    (queried faults .selectAllocation
      (fun db => (keyOf request).bind (db.selectAllocation · machineId)) (replay faults request))
  match replayed with
  | some sequence => return sequence
  | none => do
      prepared faults .insertSequence (updated faults .insertSequence (insertSequence request))
      let current ← prepared faults .selectSequence
        (queried faults .selectSequence (fun db => (keyOf request).bind db.selectSequence)
          (readCurrent faults request))
      -- a `long` holds `10 ^ 18`
      let maximum := 10 ^ request.width.toNat - 1
      demand (current < maximum) .sequenceOverflow
      let allocated := current + 1
      recordNumber faults request machineId allocated
      commit faults
      return allocated

/-- The `catch` blocks of the inner `try`. -/
def handleInner {α : Type} : Exception → Script Session Exception α
  | .sql => do
      rollback faults
      throw (failure .allocationConflict)
  | .completion code => do
      rollback faults
      throw (.completion code)
  | exception => throw exception

/-- The `catch` block of the outer `try`. -/
def handleOuter {α : Type} : Exception → Script Session Exception α
  | .sql => throw (failure .allocationConflict)
  | .illegalArgument => throw (failure .allocationConflict)
  | exception => throw exception

/-- `allocateSynchronously`. -/
def allocateSynchronously (uuid : Text → Option MachineBytes) : Script Session Exception Nat :=
  if request.width < 4 ∨ request.width > 18 then throw (failure .invalidAllocationPolicy)
  else
    tryCatch
      (do
        call faults .getConnection
        withClose (do record .closed; call faults .closeConnection) do
          beginImmediate faults
          tryCatch (transaction faults request (machineIdBytes uuid request.machineId))
            (handleInner faults))
      handleOuter

end Allocate

/-! ## the law -/

/-- A transaction that was begun on the connection was told to end before the
connection was closed. -/
def EndsTransaction (events : List Event) : Prop :=
  .began ∈ events → ∃ before, events = before ++ [.closed] ∧
    (.commitIssued ∈ before ∨ .rollbackIssued ∈ before)

/-- Every failure is an `IdentifoldException` in a `CompletionException`. -/
def FailsStably (outcome : Except Exception Nat) : Prop :=
  ∀ exception, outcome = .error exception → ∃ code, exception = .completion code

/-- The law for a call: its outcome, and the connection it leaves. -/
def ClosesTransaction (result : Except Exception Nat × Session) : Prop :=
  EndsTransaction result.2.events ∧ FailsStably result.1

/-- The driver throws at none of the calls. -/
def Faultless (faults : Call → Bool) (calls : List Call) : Prop := ∀ c ∈ calls, faults c = false

/-- `BEGIN IMMEDIATE` is run, and starts a transaction. -/
def Begins (faults : Call → Bool) (request : SequenceAllocationRequest) (c : Connection) : Prop :=
  (4 ≤ request.width ∧ request.width ≤ 18) ∧
    Faultless faults [.getConnection, .prepare .beginImmediate, .execute .beginImmediate] ∧
    c.transaction = none

section Reached

variable (faults : Call → Bool) (request : SequenceAllocationRequest) (machineId : MachineBytes)
  (db : Database)

/-- The row that a replay finds. -/
def boundRow : Option AllocationRow := (keyOf request).bind (db.selectAllocation · machineId)

/-- The calls up to the first row of a result. -/
def opening (statement : Statement) : List Call :=
  [.prepare statement, .bind statement, .execute statement, .next statement]

/-- The prefix of a replay is compared with null. -/
def ComparesNull : Prop :=
  request.refPrefix = none ∧ (boundRow request machineId db).isSome = true ∧
    Faultless faults (opening .selectAllocation ++ [.get .selectAllocation 2])

/-- A replay gets to its `COMMIT`. -/
def CommitsReplay : Prop :=
  ∃ existing, boundRow request machineId db = some existing ∧
    request.refPrefix = some existing.refPrefix ∧ request.width = existing.width ∧
    Faultless faults (opening .selectAllocation ++
      [.get .selectAllocation 2, .get .selectAllocation 3, .get .selectAllocation 1, .prepare .commit])

/-- A new number gets to its `COMMIT`. -/
def CommitsNumber : Prop :=
  boundRow request machineId db = none ∧ ∃ db' state db'',
    insertSequence request db = .ok db' ∧
    (keyOf request).bind db'.selectSequence = some state ∧
    request.refPrefix = some state.refPrefix ∧ request.width = state.width ∧
    state.lastValue < 10 ^ request.width.toNat - 1 ∧
    insertAllocation request machineId (state.lastValue + 1)
      (updateSequence request (state.lastValue + 1) db') = .ok db'' ∧
    Faultless faults
      (opening .selectAllocation ++ [.closeResult .selectAllocation, .closeStatement .selectAllocation] ++
        [.prepare .insertSequence, .bind .insertSequence, .execute .insertSequence,
          .closeStatement .insertSequence] ++
        (opening .selectSequence ++ [.get .selectSequence 1, .get .selectSequence 2,
          .get .selectSequence 3, .closeResult .selectSequence, .closeStatement .selectSequence]) ++
        [.prepare .updateSequence, .prepare .insertAllocation, .bind .updateSequence,
          .execute .updateSequence, .bind .insertAllocation, .execute .insertAllocation,
          .closeStatement .insertAllocation, .closeStatement .updateSequence] ++
        [.prepare .commit])

/-- The call gets to its `COMMIT`. -/
def Commits : Prop :=
  CommitsReplay faults request machineId db ∨ CommitsNumber faults request machineId db

end Reached

/-- The transaction that is begun is left to the connection: its `BEGIN`
cannot be closed, the identifier is not read, the prefix of a replay is
compared with null, or the call fails before its `COMMIT` and `ROLLBACK`
cannot be prepared. -/
def LeavesOpen (uuid : Text → Option MachineBytes) (faults : Call → Bool)
    (request : SequenceAllocationRequest) (db : Database) : Prop :=
  faults (.closeStatement .beginImmediate) = true ∨ request.machineId.bind uuid = none ∨
    ∃ machineId, request.machineId.bind uuid = some machineId ∧
      (ComparesNull faults request machineId db ∨
        faults (.prepare .rollback) = true ∧ ¬ Commits faults request machineId db)

end Java

end Sqlite

end Identifold
