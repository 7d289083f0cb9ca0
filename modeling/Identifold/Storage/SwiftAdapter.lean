import Identifold.HexBytes
import Identifold.Lib.Interleaving
import Identifold.Storage.MySqlProcedure
import Identifold.Storage.SqlStorage

/-!
# Identifold.Storage.SwiftAdapter

The MySQL adapter of
`packages/swift/Sources/IdentifoldMySQL/MySQLStorageAdapter.swift`.

All calls share one connection.  A call suspends at every statement, so the
threads are the calls and their steps the statements; what a call does with
the reply, up to its next statement, belongs to the step.  While a transaction
is open on the connection, every statement of every call belongs to it.

A statement may also fail from outside: with or without having been executed,
and with or without the server rolling the transaction back.
-/

namespace Identifold

namespace Swift

open Interleaving Separated

/-! ## errors -/

/-- The errors the adapter distinguishes: its own, those of the server, and
all others. -/
inductive SwiftError
  | identifold (code : IdentifoldErrorCode)
  | server (errorCode : Nat) (sqlState : String)
  | other
  deriving DecidableEq, Repr

/-- `mapped`. -/
def mapped : SwiftError → IdentifoldErrorCode
  | .identifold code => code
  | .server _ sqlState =>
      if sqlState = "22003" then .sequenceOverflow
      else if sqlState = "22023" then .invalidAllocationPolicy
      else .allocationConflict
  | .other => .allocationConflict

/-- `transient`. -/
def transient : SwiftError → Bool
  | .server errorCode sqlState => errorCode = 1205 || errorCode = 1213 || sqlState = "40001"
  | _ => false

/-! ## the connection -/

/-- The database, and the transaction that is open on the connection: the
tables as its statements see them. -/
structure Connection where
  committed : Database
  transaction : Option Database
  deriving DecidableEq

/-- A failure from outside. -/
structure Fault where
  error : SwiftError
  executed : Bool
  rolledBack : Bool
  deriving DecidableEq

/-- A statement: the reply, and the connection after it. -/
abbrev Statement (α : Type) := Connection → Except SwiftError α × Connection

namespace Connection

/-- The tables as a statement sees them. -/
def view (c : Connection) : Database := c.transaction.getD c.committed

/-- Write the tables: in the transaction, or at once where none is open. -/
def write (c : Connection) (db : Database) : Connection :=
  match c.transaction with
  | some _ => { c with transaction := some db }
  | none => { c with committed := db }

/-- `START TRANSACTION`; an open transaction is committed first. -/
def startTransaction (c : Connection) : Connection := ⟨c.view, some c.view⟩

/-- `COMMIT`. -/
def commit (c : Connection) : Connection := ⟨c.view, none⟩

/-- `ROLLBACK`. -/
def rollback (c : Connection) : Connection := ⟨c.committed, none⟩

end Connection

/-- A statement that reads or writes the tables. -/
def query {α : Type} (f : Database → Except SqlCondition (α × Database)) : Statement α := fun c =>
  match f c.view with
  | .ok (a, db) => (.ok a, c.write db)
  | .error condition => (.error (.server condition.errno condition.sqlState), c)

/-- Issue a statement: it runs, or fails from outside. -/
def issue {α : Type} (statement : Statement α) (fault : Option Fault) : Statement α := fun c =>
  match fault with
  | none => statement c
  | some fault =>
      let c' := if fault.executed then (statement c).2 else c
      (.error fault.error, if fault.rolledBack then c'.rollback else c')

/-! ## the gate -/

/-- `MySQLTransactionGate`; the continuations are known by their threads, and
`resumed` are those that have been resumed and have not run yet. -/
structure Gate where
  locked : Bool
  waiters : List Nat
  resumed : List Nat
  deriving DecidableEq

/-- `acquire`, with whether it returned without suspending. -/
def Gate.acquire (gate : Gate) (thread : Nat) : Bool × Gate :=
  if gate.locked then (false, { gate with waiters := gate.waiters ++ [thread] })
  else (true, { gate with locked := true })

/-- `release`. -/
def Gate.release (gate : Gate) : Gate :=
  match gate.waiters with
  | [] => { gate with locked := false }
  | first :: rest => { gate with waiters := rest, resumed := gate.resumed ++ [first] }

/-! ## arguments -/

/-- `SequenceAllocationRequest`. -/
structure SequenceAllocationRequest where
  machineId : Text
  namespaceName : Text
  refPrefix : Text
  scope : Option Text
  width : UInt8
  deriving DecidableEq

/-- A call of the adapter. -/
inductive Call
  | reserve (request : ReferenceReservation)
  | allocate (request : SequenceAllocationRequest)
  deriving DecidableEq

/-- `mysqlUUID`: the bytes of a UUID string. -/
def mysqlUuid (value : Text) : Option MachineBytes :=
  if machinePattern (asciiLower value) then hexDecode (strip '-' value) else none

/-- A text stored in an `ascii` column by `INSERT IGNORE`: what does not fit is
replaced or cut off. -/
def asciiColumn (size : Nat) (v : Text) : Text :=
  (v.map fun c => if c.toNat < 128 then c else '?').take size

/-- The row of a reservation. -/
def reservationRow (request : ReferenceReservation) (machineId : MachineBytes) : ReferenceRow :=
  ⟨asciiColumn 100 request.reference, asciiColumn 63 request.namespaceName, machineId⟩

/-- The `CHECK`s of `identifold_references`. -/
def referenceChecks (r : ReferenceRow) : Bool :=
  isPublicPrefix r.namespaceName && (4 ≤ r.reference.length && r.reference.length ≤ 100)

/-- `maximumValue`. -/
def maximumValue (width : UInt8) : Nat := 10 ^ width.toNat - 1

/-! ## reserve -/

/-- `INSERT IGNORE INTO identifold_references`, with its `affectedRows`: a row
that breaks a constraint is passed over. -/
def insertReference (row : ReferenceRow) : Statement Nat := query fun db =>
  if referenceChecks row && !db.referenceConflicts row then .ok (1, db.addReference row)
  else .ok (0, db)

/-! ## allocate -/

/-- The key of the counter: `request.scope ?? ""` is its scope. -/
def requestKey (request : SequenceAllocationRequest) : Text × Text :=
  (request.namespaceName, request.scope.getD [])

/-- The statement of `allocateTransaction` that is issued next. -/
inductive Point
  | startTransaction
  | selectReplay
  | insertSequence
  | selectPolicy
  | update (allocated : Nat)
  | insertAllocation (allocated : Nat)
  | commit (sequence : Nat)
  deriving DecidableEq

/-- After a statement the transaction goes on, or has returned a value. -/
inductive Progress
  | next (point : Point)
  | done (sequence : Nat)
  deriving DecidableEq

/-- What follows from the row that the replay query finds. -/
def checkReplay (request : SequenceAllocationRequest) :
    Option AllocationRow → Except SwiftError Progress
  | none => .ok (.next .insertSequence)
  | some replay =>
      if replay.refPrefix = request.refPrefix ∧ replay.width = request.width.toNat then
        .ok (.next (.commit replay.sequence))
      else .error (.identifold .invalidAllocationPolicy)

/-- What follows from the row that the policy query finds. -/
def checkPolicy (request : SequenceAllocationRequest) :
    Option SequenceRow → Except SwiftError Progress
  | none => .error (.identifold .invalidAllocationPolicy)
  | some policy =>
      if policy.refPrefix = request.refPrefix ∧ policy.width = request.width.toNat then
        if policy.lastValue < maximumValue request.width then
          .ok (.next (.update (policy.lastValue + 1)))
        else .error (.identifold .sequenceOverflow)
      else .error (.identifold .invalidAllocationPolicy)

/-- The statements of `allocateTransaction`. -/
def transactionStatement (request : SequenceAllocationRequest) (machineId : MachineBytes) :
    Point → Statement Progress
  | .startTransaction => fun c => (.ok (.next .selectReplay), c.startTransaction)
  | .selectReplay => fun c =>
      (checkReplay request (c.view.selectAllocation (requestKey request) machineId), c)
  | .insertSequence => query fun db => do
      let db ← MySql.upsertSequence db ⟨request.namespaceName, request.scope.getD [],
        request.refPrefix, request.width.toNat, 0⟩
      return (.next .selectPolicy, db)
  | .selectPolicy => fun c => (checkPolicy request (c.view.selectSequence (requestKey request)), c)
  | .update allocated => query fun db =>
      .ok (.next (.insertAllocation allocated), db.setLastValue (requestKey request) allocated)
  | .insertAllocation allocated => query fun db => do
      let db ← MySql.insertAllocation db ⟨request.namespaceName, request.scope.getD [], allocated,
        machineId, request.refPrefix, request.width.toNat⟩
      return (.next (.commit allocated), db)
  | .commit sequence => fun c => (.ok (.done sequence), c.commit)

/-! ## calls -/

/-- Where a call stands. -/
inductive Phase
  /-- `reserve` is about to issue its statement. -/
  | inserting (row : ReferenceRow)
  /-- The statement has replied; `reserve` has not returned. -/
  | inserted (affectedRows : Except SwiftError Nat)
  | reserved (result : Except IdentifoldErrorCode Bool)
  | acquiring (request : SequenceAllocationRequest)
  /-- Suspended in `acquire`. -/
  | waiting (request : SequenceAllocationRequest)
  | transacting (request : SequenceAllocationRequest) (machineId : MachineBytes) (attempt : Nat)
      (point : Point)
  | rollingBack (request : SequenceAllocationRequest) (attempt : Nat) (error : SwiftError)
  | sleeping (request : SequenceAllocationRequest) (attempt : Nat)
  | releasing (result : Except SwiftError Nat)
  | allocated (result : Except SwiftError Nat)
  deriving DecidableEq

/-- The call and where it stands. -/
structure Thread where
  call : Call
  phase : Phase
  deriving DecidableEq

/-- What all calls share. -/
structure Shared where
  connection : Connection
  gate : Gate
  deriving DecidableEq

/-- Calls up to their first suspension: the identifier of a reservation is
converted, the width of an allocation tested. -/
def startCall : Call → Phase
  | .reserve request =>
      match mysqlUuid request.machineId with
      | some machineId => .inserting (reservationRow request machineId)
      | none => .reserved (.error .allocationConflict)
  | .allocate request =>
      if 4 ≤ request.width.toNat ∧ request.width.toNat ≤ 18 then .acquiring request
      else .allocated (.error (.identifold .invalidAllocationPolicy))

/-- An attempt of `allocateSerially`, up to its first statement. -/
def startAttempt (request : SequenceAllocationRequest) (attempt : Nat) : Phase :=
  match mysqlUuid request.machineId with
  | some machineId => .transacting request machineId attempt .startTransaction
  | none => .rollingBack request attempt (.identifold .allocationConflict)

/-- After the `ROLLBACK` of an attempt: try again, or throw. -/
def afterRollback (request : SequenceAllocationRequest) (attempt : Nat) (error : SwiftError) : Phase :=
  if attempt < 4 ∧ transient error = true then .sleeping request attempt
  else .releasing (.error (.identifold (mapped error)))

/-- One statement, or one job between statements; `fault` is the failure of
the statement, or of the sleep. -/
def stepPhase (thread : Nat) (s : Shared) (fault : Option Fault) : Phase → Option (Shared × Phase)
  | .inserting row =>
      let (reply, connection) := issue (insertReference row) fault s.connection
      some ({ s with connection := connection }, .inserted reply)
  | .inserted (.ok affectedRows) => some (s, .reserved (.ok (affectedRows = 1)))
  | .inserted (.error error) => some (s, .reserved (.error (mapped error)))
  | .reserved _ => none
  | .acquiring request =>
      let (acquired, gate) := s.gate.acquire thread
      some ({ s with gate := gate }, if acquired then startAttempt request 0 else .waiting request)
  | .waiting request =>
      if thread ∈ s.gate.resumed then
        some ({ s with gate := { s.gate with resumed := s.gate.resumed.erase thread } },
          startAttempt request 0)
      else none
  | .transacting request machineId attempt point =>
      let (reply, connection) :=
        issue (transactionStatement request machineId point) fault s.connection
      some ({ s with connection := connection },
        match reply with
        | .ok (.next point) => .transacting request machineId attempt point
        | .ok (.done sequence) => .releasing (.ok sequence)
        | .error error => .rollingBack request attempt error)
  | .rollingBack request attempt error =>
      let (_, connection) := issue (fun c => (.ok (), c.rollback)) fault s.connection
      some ({ s with connection := connection }, afterRollback request attempt error)
  | .sleeping request attempt =>
      match fault with
      | none => some (s, startAttempt request (attempt + 1))
      | some fault => some (s, .releasing (.error fault.error))
  | .releasing result => some ({ s with gate := s.gate.release }, .allocated result)
  | .allocated _ => none

/-- Any number of concurrent calls on one adapter. -/
def program : Program Shared Thread Call (Option Fault) where
  start call := ⟨call, startCall call⟩
  step thread s t fault :=
    (stepPhase thread s fault t.phase).map fun (s', phase) => (s', { t with phase := phase })

/-- The adapter on an empty database. -/
def initial : Config Shared Thread := .initial ⟨⟨.empty, none⟩, ⟨false, [], []⟩⟩

/-! ## resolve -/

/-- The first query of `resolve` with its `mapping`, which decides the result
where it finds a row; the lookup of a sequential reference is only issued
where it finds none. -/
def resolveReference (db : Database) (reference namespaceName : Text) :
    Option ReferenceLookupResult :=
  (db.references.find? fun r =>
      decide (r.reference = reference) && decide (r.namespaceName = namespaceName)).map fun r =>
    ⟨formatUuid (hexEncode r.machineId), r.namespaceName⟩

end Swift

end Identifold
