import Identifold.Lib.Script
import Identifold.Storage.SqliteSchema

/-!
# Identifold.Storage.SqliteConnection

`allocate` statement by statement, as `packages/typescript/src/sqlite.ts` and
`packages/python/src/identifold/storage/sqlite.py` run it on a connection that
is their caller's: the caller may have a transaction open on it already.
SQLite rejects `BEGIN` inside a transaction, and `COMMIT` and `ROLLBACK`
outside of one.

A statement may throw at any point.  One that throws has had no effect.

* `preserves_allocate` — which transactions a call ends;
* `keepsWork_iff` — when it leaves the caller's alone;
* `transaction_refines` — the `try` block is the atomic transaction.
-/

namespace Identifold

namespace Sqlite

open Script

/-! ## connections -/

/-- Who has begun a transaction. -/
inductive Owner
  | caller
  | call
  deriving DecidableEq, Repr

/-- An open transaction: the tables with its uncommitted writes. -/
structure Transaction where
  owner : Owner
  work : Database
  deriving DecidableEq, Repr

/-- A connection: the committed tables, the transaction that is open, and who
had begun the transactions that were rolled back. -/
structure Connection where
  committed : Database
  transaction : Option Transaction
  rolledBack : List Owner
  deriving DecidableEq, Repr

/-- A connection as its caller hands it over, with the uncommitted writes of
the transaction that the caller has open, if any. -/
def Connection.handedOver (committed : Database) (work : Option Database) : Connection :=
  ⟨committed, work.map (Transaction.mk .caller), []⟩

namespace Connection

variable (c : Connection)

/-- The tables a statement sees. -/
def view : Database :=
  match c.transaction with
  | some transaction => transaction.work
  | none => c.committed

/-- The connection with other tables: in the transaction, or committed at
once. -/
def write (db : Database) : Connection :=
  match c.transaction with
  | some transaction => { c with transaction := some { transaction with work := db } }
  | none => { c with committed := db }

/-- `BEGIN IMMEDIATE`. -/
def beginImmediate : Except Thrown Unit × Connection :=
  match c.transaction with
  | some _ => (.error .foreign, c)
  | none => (.ok (), { c with transaction := some ⟨.call, c.committed⟩ })

/-- `COMMIT`. -/
def commit : Except Thrown Unit × Connection :=
  match c.transaction with
  | some transaction => (.ok (), { c with committed := transaction.work, transaction := none })
  | none => (.error .foreign, c)

/-- `ROLLBACK`. -/
def rollback : Except Thrown Unit × Connection :=
  match c.transaction with
  | some transaction =>
      (.ok (), { c with transaction := none, rolledBack := c.rolledBack ++ [transaction.owner] })
  | none => (.error .foreign, c)

/-- A `SELECT`. -/
def query {α : Type} (select : Database → α) : Except Thrown α × Connection := (.ok (select c.view), c)

/-- An `INSERT` or `UPDATE`, which SQLite may reject. -/
def update (statement : Database → Except IdentifoldError Database) : Except Thrown Unit × Connection :=
  match statement c.view with
  | .ok db => (.ok (), c.write db)
  | .error _ => (.error .foreign, c)

end Connection

/-! ## statements -/

/-- The statements of `allocate`. -/
inductive Statement
  | beginImmediate
  | selectAllocation
  | insertSequence
  | selectSequence
  | updateSequence
  | insertAllocation
  | commit
  | rollback
  deriving DecidableEq, Repr

/-- Where the driver may throw: as it prepares a statement, and as it runs it. -/
inductive Step
  | prepare (statement : Statement)
  | run (statement : Statement)
  deriving DecidableEq, Repr

/-- `database.prepare`. -/
def prepare (faults : Step → Bool) (statement : Statement) : Script Connection Thrown Unit :=
  fromExcept (ensure (faults (.prepare statement) = false) .foreign)

/-- `exec`, `run`, `get`, `execute`: run a statement. -/
def perform {α : Type} (faults : Step → Bool) (statement : Statement)
    (effect : Connection → Except Thrown α × Connection) : Script Connection Thrown α :=
  step fun c => if faults (.run statement) then (.error .foreign, c) else effect c

/-- `throw new IdentifoldError` unless the condition holds. -/
def check (condition : Prop) [Decidable condition] (error : IdentifoldError) :
    Script Connection Thrown Unit :=
  fromExcept (ensure condition (.identifold error))

/-- The `try` block of `allocate`.  The ports differ in whether statements are
prepared on their own, and in how a machine identifier is read. -/
def transaction (faults : Step → Bool) (prepare : Statement → Script Connection Thrown Unit)
    (machineIdBytes : Except Thrown MachineBytes) (key : Text × Text) (refPrefix : Text) (width : Nat) :
    Script Connection Thrown Nat := do
  perform faults .beginImmediate Connection.beginImmediate
  prepare .selectAllocation
  let machineId ← fromExcept machineIdBytes
  match ← perform faults .selectAllocation (·.query (·.selectAllocation key machineId)) with
  | some existing =>
      check (existing.refPrefix = refPrefix ∧ existing.width = width) invalidAllocationPolicy
      perform faults .commit Connection.commit
      return existing.sequence
  | none =>
      prepare .insertSequence
      perform faults .insertSequence
        (·.update (insertSequence · ⟨key.1, key.2, refPrefix, width, 0⟩))
      prepare .selectSequence
      match ← perform faults .selectSequence (·.query (·.selectSequence key)) with
      | none => throw (.identifold invalidAllocationPolicy)
      | some state =>
          check (state.refPrefix = refPrefix ∧ state.width = width) invalidAllocationPolicy
          check (state.lastValue < 10 ^ width - 1) sequenceOverflow
          let allocated := state.lastValue + 1
          prepare .updateSequence
          perform faults .updateSequence (·.update fun db => .ok (db.setLastValue key allocated))
          prepare .insertAllocation
          perform faults .insertAllocation
            (·.update (insertAllocation · ⟨key.1, key.2, allocated, machineId, refPrefix, width⟩))
          perform faults .commit Connection.commit
          return allocated

/-! ## the adapters -/

namespace TypeScript

/-- `mapSqliteError`. -/
def mapSqliteError : Thrown → IdentifoldError
  | .identifold error => error
  | .foreign => databaseError

/-- The `catch` block: whatever the `ROLLBACK` throws is dropped. -/
def rollback (faults : Step → Bool) : Script Connection Thrown Unit :=
  tryCatch (perform faults .rollback Connection.rollback) fun _ => pure ()

/-- `allocate` of `createSqliteSequenceAllocator`. -/
def allocate (faults : Step → Bool) (request : SequenceAllocationRequest) :
    Script Connection Thrown Nat :=
  match request.width with
  | .other => throw (.identifold invalidAllocationPolicy)
  | .integer width =>
      if 4 ≤ width ∧ width ≤ 18 then
        tryCatch
          (transaction faults (prepare faults)
            ((machineIdToBytes request.machineId).mapError .identifold) (counterKey request)
            request.refPrefix width.toNat)
          fun error => do
            rollback faults
            throw (.identifold (mapSqliteError error))
      else throw (.identifold invalidAllocationPolicy)

end TypeScript

namespace Python

/-- `SequenceAllocationRequest` of the Python package. -/
structure SequenceAllocationRequest where
  machineId : Text
  namespaceName : Text
  refPrefix : Text
  scope : Option Text
  width : Int
  deriving DecidableEq, Repr

/-- The error of everything that is not an `IdentifoldError`. -/
def operationError : IdentifoldError :=
  ⟨.allocationConflict, "Database operation could not be committed"⟩

/-- `_rollback`. -/
def rollback (faults : Step → Bool) : Script Connection Thrown Unit := do
  let inTransaction ← step fun c => (.ok c.transaction.isSome, c)
  if inTransaction then perform faults .rollback Connection.rollback
  else pure ()

/-- `SqliteStorageAdapter.allocate`; `uuid` is `uuid.UUID(_).bytes`, where
`none` is its `ValueError`. -/
def allocate (uuid : Text → Option MachineBytes) (faults : Step → Bool)
    (request : SequenceAllocationRequest) : Script Connection Thrown Nat :=
  if request.width < 4 ∨ request.width > 18 then throw (.identifold invalidAllocationPolicy)
  else
    tryCatch
      (transaction faults (fun _ => pure ())
        (match uuid request.machineId with
          | some machineId => .ok machineId
          | none => .error .foreign)
        (request.namespaceName, request.scope.getD []) request.refPrefix request.width.toNat)
      fun
        | .identifold error => do
            rollback faults
            throw (.identifold error)
        | .foreign => do
            rollback faults
            throw (.identifold operationError)

end Python

/-! ## what a call may end -/

/-- The transactions that are open or rolled back are the call's own. -/
def IsOwn (c : Connection) : Prop :=
  (∀ t ∈ c.transaction, t.owner = .call) ∧ ∀ owner ∈ c.rolledBack, owner = .call

namespace IsOwn

variable {c : Connection}

theorem write (h : IsOwn c) (db : Database) : IsOwn (c.write db) := by
  unfold Connection.write
  split
  · rename_i t ht
    refine ⟨fun t' ht' => ?_, h.2⟩
    rw [← Option.some.inj ht']
    exact h.1 t ht
  · exact h

/-- `BEGIN IMMEDIATE` keeps the open transaction the call's own. -/
theorem beginImmediate (h : IsOwn c) : IsOwn c.beginImmediate.2 := by
  unfold Connection.beginImmediate
  split
  · exact h
  · refine ⟨fun t ht => ?_, h.2⟩
    rw [← Option.some.inj ht]

/-- So does a `COMMIT`. -/
theorem commit (h : IsOwn c) : IsOwn c.commit.2 := by
  unfold Connection.commit
  split
  · exact ⟨nofun, h.2⟩
  · exact h

/-- So does a `ROLLBACK`, which is one of the call. -/
theorem rollback (h : IsOwn c) : IsOwn c.rollback.2 := by
  unfold Connection.rollback
  split
  · rename_i t ht
    refine ⟨nofun, fun owner howner => ?_⟩
    rcases List.mem_append.mp howner with hold | hnew
    · exact h.2 owner hold
    · rw [List.mem_singleton.mp hnew]
      exact h.1 t ht
  · exact h

theorem update (h : IsOwn c) (statement : Database → Except IdentifoldError Database) :
    IsOwn (c.update statement).2 := by
  unfold Connection.update
  split
  · exact h.write _
  · exact h

end IsOwn

section Preserved

variable {α : Type} {faults : Step → Bool}

/-- A statement that keeps the call to its own transaction does so with faults as
well. -/
theorem preserves_perform (statement : Statement) {effect : Connection → Except Thrown α × Connection}
    (h : ∀ c, IsOwn c → IsOwn (effect c).2) : Preserves IsOwn (perform faults statement effect) := by
  refine Preserves.step fun c hc => ?_
  split
  · exact hc
  · exact h c hc

theorem preserves_query (statement : Statement) (select : Database → α) :
    Preserves IsOwn (perform faults statement (·.query select)) :=
  preserves_perform statement fun _ => id

theorem preserves_update (statement : Statement)
    (change : Database → Except IdentifoldError Database) :
    Preserves IsOwn (perform faults statement (·.update change)) :=
  preserves_perform statement fun _ h => h.update change

/-- A call opens and closes transactions of its own only. -/
theorem preserves_transaction {prepare : Statement → Script Connection Thrown Unit}
    (hprepare : ∀ statement, Preserves IsOwn (prepare statement))
    (machineIdBytes : Except Thrown MachineBytes) (key : Text × Text) (refPrefix : Text)
    (width : Nat) :
    Preserves IsOwn (transaction faults prepare machineIdBytes key refPrefix width) := by
  have hcommit : Preserves IsOwn (perform faults .commit Connection.commit) :=
    preserves_perform .commit fun _ => IsOwn.commit
  refine (preserves_perform _ fun _ => IsOwn.beginImmediate).bind fun _ =>
    (hprepare _).bind fun _ => (Preserves.fromExcept _).bind fun machineId =>
      (preserves_query _ _).bind fun existing => ?_
  cases existing with
  | some existing => exact (Preserves.fromExcept _).bind fun _ => hcommit.bind fun _ => .pure _
  | none =>
      refine (hprepare _).bind fun _ => (preserves_update _ _).bind fun _ =>
        (hprepare _).bind fun _ => (preserves_query _ _).bind fun state => ?_
      cases state with
      | none => exact .throw _
      | some state =>
          exact (Preserves.fromExcept _).bind fun _ => (Preserves.fromExcept _).bind fun _ =>
            (hprepare _).bind fun _ => (preserves_update _ _).bind fun _ =>
              (hprepare _).bind fun _ => (preserves_update _ _).bind fun _ =>
                hcommit.bind fun _ => .pure _

end Preserved

/-! ## the work of the caller -/

/-- A failing call leaves the caller's transaction open with its writes, and
no call rolls back a transaction that it has not begun. -/
def KeepsWork (before : Connection) (result : Except Thrown Nat × Connection) : Prop :=
  (∀ t ∈ before.transaction, (∃ e, result.1 = .error e) →
    result.2.transaction = some t ∧ result.2.committed = before.committed) ∧
  ∀ owner ∈ result.2.rolledBack, owner = .call

/-- A transaction is open on the connection, and the call gets as far as
ending it. -/
def EndsWork (work : Option Database) (width : Int) (faults : Step → Bool) : Prop :=
  work.isSome = true ∧ (4 ≤ width ∧ width ≤ 18) ∧ faults (.run .rollback) = false

section Work

variable {committed : Database} {work : Option Database} {faults : Step → Bool}

/-- A connection without a transaction has none of the caller. -/
theorem isOwn_handedOver : IsOwn (.handedOver committed none) := ⟨nofun, nofun⟩

/-- On an idle connection there is no work of the caller to keep. -/
theorem keepsWork_of_idle {x : Script Connection Thrown Nat} (h : Preserves IsOwn x) :
    KeepsWork (.handedOver committed none) (x.run (.handedOver committed none)) :=
  ⟨nofun, (h _ isOwn_handedOver).2⟩

/-- A call that leaves the connection as it is keeps the work. -/
theorem keepsWork_of_unchanged {e : Thrown} :
    KeepsWork (.handedOver committed work) (.error e, .handedOver committed work) :=
  ⟨fun _ ht _ => ⟨ht, rfl⟩, nofun⟩

/-- In a transaction of the caller, the call stops at its `BEGIN`. -/
theorem run_transaction_of_open {db : Database} (prepare : Statement → Script Connection Thrown Unit)
    (machineIdBytes : Except Thrown MachineBytes) (key : Text × Text) (refPrefix : Text)
    (width : Nat) :
    (transaction faults prepare machineIdBytes key refPrefix width).run
      (.handedOver committed (some db)) = (.error .foreign, .handedOver committed (some db)) := by
  have hbegin : (perform faults .beginImmediate Connection.beginImmediate).run
      (.handedOver committed (some db)) = (.error .foreign, .handedOver committed (some db)) := by
    rw [perform, run_step]
    split <;> rfl
  rw [transaction, run_bind, hbegin]

/-- A `ROLLBACK` that is run in the caller's transaction ends it. -/
theorem run_rollback_of_open {db : Database} :
    (perform faults .rollback Connection.rollback).run (.handedOver committed (some db)) =
      if faults (.run .rollback) then (.error .foreign, .handedOver committed (some db))
      else (.ok (), ⟨committed, none, [.caller]⟩) := by
  rw [perform, run_step]
  rfl

/-- A transaction that the caller has begun and the call rolled back is lost work. -/
theorem not_keepsWork_of_rolledBack {db : Database} {outcome : Except Thrown Nat} :
    ¬ KeepsWork (.handedOver committed (some db)) (outcome, ⟨committed, none, [.caller]⟩) := by
  intro h
  have := h.2 .caller (by simp)
  contradiction

namespace TypeScript

/-- A failed call in the caller's transaction: what is left of it. -/
theorem run_allocate_of_open {db : Database} {request : SequenceAllocationRequest} {width : Int}
    (hwidth : request.width = .integer width) (hbounds : 4 ≤ width ∧ width ≤ 18) :
    (allocate faults request).run (.handedOver committed (some db)) =
      (.error (.identifold databaseError),
        if faults (.run .rollback) then .handedOver committed (some db)
        else ⟨committed, none, [.caller]⟩) := by
  rw [allocate, hwidth]
  simp only
  rw [if_pos hbounds, run_tryCatch, run_transaction_of_open]
  simp only [rollback, run_bind, run_tryCatch, run_rollback_of_open]
  cases faults (.run .rollback) <;> rfl

/-- Without a transaction of the caller the call ends its own only. -/
theorem preserves_allocate (request : SequenceAllocationRequest) :
    Preserves IsOwn (allocate faults request) := by
  unfold allocate
  split
  · exact .throw _
  · refine .ite (.tryCatch (preserves_transaction (fun _ => .fromExcept _) _ _ _ _) fun error => ?_)
      (.throw _)
    exact (Preserves.tryCatch (preserves_perform _ fun _ => IsOwn.rollback) fun _ => .pure _).bind
      fun _ => .throw _

/-- The work of the caller is kept exactly where the call does not get as far as
ending it. -/
theorem keepsWork_iff (request : SequenceAllocationRequest) :
    KeepsWork (.handedOver committed work)
        ((allocate faults request).run (.handedOver committed work)) ↔
      ¬ ∃ width, request.width = .integer width ∧ EndsWork work width faults := by
  cases work with
  | none =>
      refine ⟨?_, fun _ => keepsWork_of_idle (preserves_allocate request)⟩
      rintro - ⟨width, -, hsome, -⟩
      contradiction
  | some db =>
      cases hwidth : request.width with
      | other =>
          rw [allocate, hwidth]
          exact ⟨by simp, fun _ => keepsWork_of_unchanged⟩
      | integer width =>
          by_cases hbounds : 4 ≤ width ∧ width ≤ 18
          · rw [run_allocate_of_open hwidth hbounds]
            cases hfault : faults (.run .rollback) with
            | true => simpa [EndsWork, hfault] using keepsWork_of_unchanged
            | false => simpa [EndsWork, hfault, hbounds] using not_keepsWork_of_rolledBack
          · rw [allocate, hwidth]
            simp only
            rw [if_neg hbounds]
            refine ⟨?_, fun _ => keepsWork_of_unchanged⟩
            rintro - ⟨width', heq, -, hbounds', -⟩
            exact hbounds (JsNumber.integer.inj heq ▸ hbounds')

end TypeScript

namespace Python

/-- A failed call in the caller's transaction: what is left of it. -/
theorem run_allocate_of_open {uuid : Text → Option MachineBytes} {db : Database}
    {request : SequenceAllocationRequest} (hbounds : 4 ≤ request.width ∧ request.width ≤ 18) :
    (allocate uuid faults request).run (.handedOver committed (some db)) =
      if faults (.run .rollback) then (.error .foreign, .handedOver committed (some db))
      else (.error (.identifold operationError), ⟨committed, none, [.caller]⟩) := by
  rw [allocate, if_neg (by omega), run_tryCatch, run_transaction_of_open]
  have hin : (step fun c => (.ok c.transaction.isSome, c) : Script Connection Thrown Bool).run
      (.handedOver committed (some db)) = (.ok true, .handedOver committed (some db)) := rfl
  simp only [rollback, run_bind, hin, if_true, run_rollback_of_open]
  cases faults (.run .rollback) <;> rfl

theorem preserves_rollback : Preserves IsOwn (rollback faults) :=
  (Preserves.step fun _ => id).bind fun _ =>
    .ite (preserves_perform _ fun _ => IsOwn.rollback) (.pure _)

theorem preserves_allocate (uuid : Text → Option MachineBytes) (request : SequenceAllocationRequest) :
    Preserves IsOwn (allocate uuid faults request) := by
  refine .ite (.throw _) (.tryCatch (preserves_transaction (fun _ => .pure _) _ _ _ _) fun error => ?_)
  cases error with
  | identifold error => exact preserves_rollback.bind fun _ => .throw _
  | foreign => exact preserves_rollback.bind fun _ => .throw _

theorem keepsWork_iff (uuid : Text → Option MachineBytes) (request : SequenceAllocationRequest) :
    KeepsWork (.handedOver committed work)
        ((allocate uuid faults request).run (.handedOver committed work)) ↔
      ¬ EndsWork work request.width faults := by
  cases work with
  | none =>
      refine ⟨?_, fun _ => keepsWork_of_idle (preserves_allocate uuid request)⟩
      rintro - ⟨hsome, -⟩
      contradiction
  | some db =>
      by_cases hbounds : 4 ≤ request.width ∧ request.width ≤ 18
      · rw [run_allocate_of_open hbounds]
        cases hfault : faults (.run .rollback) with
        | true => simpa [EndsWork, hfault] using keepsWork_of_unchanged
        | false => simpa [EndsWork, hfault, hbounds] using not_keepsWork_of_rolledBack
      · rw [allocate, if_pos (by omega)]
        exact ⟨fun _ h => hbounds h.2.1, fun _ => keepsWork_of_unchanged⟩

end Python

end Work

/-- **The caller's work**: on every connection, under all failures of the
driver, `allocate` of the TypeScript and of the Python adapter keeps the work
of its caller unless a transaction is open on the connection, the width is
admitted, and the `ROLLBACK` succeeds. -/
theorem allocate_keepsWork_iff (committed : Database) (work : Option Database)
    (faults : Step → Bool) :
    (∀ request, KeepsWork (.handedOver committed work)
        ((TypeScript.allocate faults request).run (.handedOver committed work)) ↔
      ¬ ∃ width, request.width = .integer width ∧ EndsWork work width faults) ∧
    (∀ uuid request, KeepsWork (.handedOver committed work)
        ((Python.allocate uuid faults request).run (.handedOver committed work)) ↔
      ¬ EndsWork work request.width faults) :=
  ⟨TypeScript.keepsWork_iff, Python.keepsWork_iff⟩

/-- A reservation that returned `true` is undone by a call that never began a
transaction. -/
theorem allocate_loses_reservation :
    let mid := "019f0000-0000-7000-8000-000000000001".toList
    let reserved := exec Database.empty (.reserve ⟨mid, "order".toList, "ORD-7K4M-2P8Q-3D-9".toList⟩)
    let result := (TypeScript.allocate (fun _ => false)
      ⟨mid, "invoice".toList, "INV".toList, some "2026".toList, .integer 8⟩).run
        (.handedOver Database.empty (some reserved.2))
    reserved.1 = .reserved true ∧ result.2 = ⟨Database.empty, none, [.caller]⟩ ∧
      ¬ KeepsWork (.handedOver Database.empty (some reserved.2)) result := by
  refine ⟨by decide, rfl, ?_⟩
  exact not_keepsWork_of_rolledBack

/-! ## an idle connection -/

section Idle

variable {db : Database} {c : Connection}

/-- The only error of the inserts is SQLite's. -/
theorem insertSequence_error {row : SequenceRow} {e : IdentifoldError}
    (h : insertSequence db row = .error e) : e = databaseError := by
  simp only [insertSequence] at h
  by_cases hchecks : row.sqliteChecks = true
  · rw [ensure_of hchecks, ok_bind] at h
    contradiction
  · rw [ensure_of_not hchecks, error_bind] at h
    exact (Except.error.inj h).symm

/-- A refused row is a database error, whichever constraint refuses it. -/
theorem insertAllocation_error {row : AllocationRow} {e : IdentifoldError}
    (h : insertAllocation db row = .error e) : e = databaseError := by
  simp only [insertAllocation] at h
  by_cases hchecks : row.sqliteChecks = true
  · by_cases hfresh : db.allocationConflicts row = false
    · by_cases hcounter : (db.selectSequence row.key).isSome = true
      · rw [ensure_of hchecks, ensure_of hfresh, ensure_of hcounter, ok_bind, ok_bind, ok_bind] at h
        contradiction
      · rw [ensure_of hchecks, ensure_of hfresh, ensure_of_not hcounter, ok_bind, ok_bind,
          error_bind] at h
        exact (Except.error.inj h).symm
    · rw [ensure_of hchecks, ensure_of_not hfresh, ok_bind, error_bind] at h
      exact (Except.error.inj h).symm
  · rw [ensure_of_not hchecks, error_bind] at h
    exact (Except.error.inj h).symm

/-- The connection inside the transaction of a call. -/
def Connection.inCall (committed work : Database) : Connection := ⟨committed, some ⟨.call, work⟩, []⟩

/-- What a driver that never throws makes of the `try` block: the result of the
atomic transaction, or its error with the transaction still open. -/
def Refines (committed : Database) (result : Except Thrown Nat × Connection)
    (atomic : Except IdentifoldError (Nat × Database)) : Prop :=
  match atomic with
  | .ok (value, db) => result = (.ok value, .handedOver db none)
  | .error e => ∃ thrown work, result = (.error thrown, .inCall committed work) ∧
      TypeScript.mapSqliteError thrown = e

section Refine

variable {α : Type} {committed work : Database} {f : Unit → Script Connection Thrown Nat}

/-- An error thrown in the transaction is the error of the atomic function. -/
theorem refines_throw (e : IdentifoldError) :
    Refines committed ((throw (.identifold e) : Script Connection Thrown Nat).run (.inCall committed work))
      (.error e) :=
  ⟨_, _, rfl, rfl⟩

/-- A check of the adapter is the check of the atomic function. -/
theorem refines_check {condition : Prop} [Decidable condition] {error : IdentifoldError}
    {g : Unit → Except IdentifoldError (Nat × Database)}
    (h : condition → Refines committed ((f ()).run (.inCall committed work)) (g ())) :
    Refines committed ((check condition error >>= f).run (.inCall committed work))
      (ensure condition error >>= g) := by
  by_cases hc : condition
  · rw [check, ensure_of hc, ensure_of hc]
    exact h hc
  · rw [check, ensure_of_not hc, ensure_of_not hc]
    exact refines_throw error

/-- A query of a driver without faults reads the work of the call. -/
theorem run_query_bind (statement : Statement) (select : Database → α)
    (f : α → Script Connection Thrown Nat) :
    (perform (fun _ => false) statement (·.query select) >>= f).run (.inCall committed work) =
      (f (select work)).run (.inCall committed work) := rfl

theorem run_prepare_bind (statement : Statement) :
    (prepare (fun _ => false) statement >>= f).run c = (f ()).run c := rfl

theorem run_set_bind (statement : Statement) (change : Database → Database) :
    (perform (fun _ => false) statement (·.update fun db => .ok (change db)) >>= f).run
      (.inCall committed work) = (f ()).run (.inCall committed (change work)) := rfl

/-- A change that the tables refuse is the database error that the atomic function
ends with. -/
theorem refines_update (statement : Statement) {change : Database → Except IdentifoldError Database}
    {g : Database → Except IdentifoldError (Nat × Database)}
    (herror : ∀ e, change work = .error e → e = databaseError)
    (h : ∀ work', change work = .ok work' →
      Refines committed ((f ()).run (.inCall committed work')) (g work')) :
    Refines committed
      ((perform (fun _ => false) statement (·.update change) >>= f).run (.inCall committed work))
      (change work >>= g) := by
  have hrun : (perform (fun _ => false) statement (·.update change)).run (.inCall committed work) =
      match change work with
      | .ok work' => (.ok (), .inCall committed work')
      | .error _ => (.error .foreign, .inCall committed work) := rfl
  rw [run_bind, hrun]
  cases hchange : change work with
  | error e =>
      rw [herror e hchange]
      exact ⟨_, _, rfl, rfl⟩
  | ok work' => exact h work' hchange

/-- The `COMMIT` ends the transaction with its work. -/
theorem refines_commit (value : Nat) :
    Refines committed
      ((do
        perform (fun _ => false) .commit Connection.commit
        return value : Script Connection Thrown Nat).run (.inCall committed work))
      (.ok (value, work)) := rfl

end Refine

/-- **Refinement of the transaction**: statement by statement, the `try` block
is the atomic transaction. -/
theorem transaction_refines (db : Database) (request : SequenceAllocationRequest) (width : Nat) :
    Refines db
      ((transaction (fun _ => false) (prepare fun _ => false)
        ((machineIdToBytes request.machineId).mapError .identifold) (counterKey request)
        request.refPrefix width).run (.handedOver db none))
      (allocateTransaction db request width) := by
  have hbegin : (perform (fun _ => false) .beginImmediate Connection.beginImmediate).run
      (.handedOver db none) = (.ok (), .inCall db db) := rfl
  rw [transaction, run_bind, hbegin]
  simp only
  rw [run_prepare_bind, allocateTransaction, run_bind, run_fromExcept]
  cases machineIdToBytes request.machineId with
  | error e => exact ⟨_, _, rfl, rfl⟩
  | ok machineId =>
      simp only [Except.mapError, ok_bind]
      rw [run_query_bind]
      cases db.selectAllocation (counterKey request) machineId with
      | some existing => exact refines_check fun _ => refines_commit existing.sequence
      | none =>
          simp only
          rw [run_prepare_bind]
          refine refines_update .insertSequence (fun _ => insertSequence_error) fun work _ => ?_
          rw [run_prepare_bind, run_query_bind]
          cases work.selectSequence (counterKey request) with
          | none => exact refines_throw _
          | some state =>
              refine refines_check fun _ => refines_check fun _ => ?_
              rw [run_prepare_bind, run_set_bind, run_prepare_bind]
              exact refines_update .insertAllocation (fun _ => insertAllocation_error)
                fun _ _ => refines_commit (state.lastValue + 1)

/-- **Refinement**: on an idle connection and with a driver that never throws,
the call is the atomic `allocate`; a failing call leaves the committed tables
as they were, and no transaction open. -/
theorem allocate_refines (db : Database) (request : SequenceAllocationRequest) :
    let result := (TypeScript.allocate (fun _ => false) request).run (.handedOver db none)
    match allocate db request with
    | .ok (value, db') => result = (.ok value, .handedOver db' none)
    | .error e => result.1 = .error (.identifold e) ∧ result.2.committed = db ∧
        result.2.transaction = none := by
  rw [TypeScript.allocate, allocate]
  cases request.width with
  | other => exact ⟨rfl, rfl, rfl⟩
  | integer width =>
      by_cases hbounds : 4 ≤ width ∧ width ≤ 18
      · simp only
        rw [if_pos hbounds, if_pos hbounds, run_tryCatch]
        have h := transaction_refines db request width.toNat
        cases hatomic : allocateTransaction db request width.toNat with
        | ok result =>
            rw [hatomic] at h
            rw [h]
        | error e =>
            rw [hatomic] at h
            obtain ⟨thrown, work, hrun, rfl⟩ := h
            rw [hrun]
            exact ⟨rfl, rfl, rfl⟩
      · simp only
        rw [if_neg hbounds, if_neg hbounds]
        exact ⟨rfl, rfl, rfl⟩

end Idle

end Sqlite

end Identifold
