import Identifold.Lib.Interleaving
import Identifold.Storage.MySqlLaw
import Identifold.Storage.Sqlite

/-!
# Identifold.Storage.MySqlDelivery

`allocate` of `packages/typescript/src/mysql.ts`, over connections that may fail.

The server may refuse a query and have rolled back, or run it and lose its reply;
only otherwise the reply arrives.  The client sees an error in both cases, and
where it takes the error for transient it sends the query again, up to five
times.  Replays make this safe: `allocation_exactly_once` says that a machine
identifier takes one number of a counter at most, however often its query is run.
-/

namespace Identifold

namespace MySql

open Interleaving Transition Database Rows

/-! ## the driver -/

/-- An error of the driver, by the properties that the adapter looks at. -/
structure DriverError where
  code : Option String
  sqlState : Option String
  deriving DecidableEq, Repr

/-- What a query resolves to, as far as `firstRows` looks at it: an array, a row with its column
`sequence`, or anything else. -/
inductive QueryResult
  | array (items : List QueryResult)
  | row (sequence : Option SqlValue)
  | other

/-- What the adapter takes from outside: how the arguments of the procedure are converted to the
types of its parameters, and how the driver reads a `BIGINT UNSIGNED` and names an error. -/
structure MySqlDriver where
  bind : MachineBytes → SequenceAllocationRequest → Except SqlCondition SequenceCall
  /-- In strict mode an argument is passed as it is, or refused. -/
  bind_ok : ∀ machineId request call, bind machineId request = .ok call →
    call = ⟨machineId, request.namespaceName, request.refPrefix, request.scope, call.width⟩ ∧
      request.width = .integer call.width
  bigintOut : Nat → SqlValue
  /-- A double that is a safe integer is the number it was made of. -/
  bigintOut_read : ∀ n m, (bigintOut n).sequence? = some m → m = n
  errorName : Nat → String

/-- A condition of the server, as the query throws it. -/
def MySqlDriver.thrown (driver : MySqlDriver) (condition : SqlCondition) : DriverError :=
  ⟨some (driver.errorName condition.errno), some condition.sqlState⟩

/-- The reply of the procedure, as the query resolves or throws; the header of the last statement
comes after the rows. -/
def MySqlDriver.resolves (driver : MySqlDriver) : Reply → Except DriverError QueryResult
  | .returned sequence => .ok (.array [.array [.row (some (driver.bigintOut sequence))], .row none])
  | .signalled condition => .error (driver.thrown condition)

/-- `firstRows`. -/
def firstRows : QueryResult → List (Option SqlValue)
  | .array items =>
      let rows := match items with
        | .array rows :: _ => rows
        | _ => items
      rows.filterMap fun
        | .row sequence => some sequence
        | _ => none
  | _ => []

/-! ## errors -/

/-- What is thrown in an attempt. -/
inductive QueryFailure
  | identifold (error : IdentifoldError)
  | driver (error : DriverError)
  deriving DecidableEq, Repr

/-- `isTransientMySqlError`; no code of an `IdentifoldError` is among those it tests. -/
def isTransientMySqlError : QueryFailure → Bool
  | .identifold _ => false
  | .driver error => error.sqlState = some "40001" || error.code = some "ER_LOCK_DEADLOCK" ||
      error.code = some "ER_LOCK_WAIT_TIMEOUT"

/-- `mapMySqlError`. -/
def mapMySqlError : QueryFailure → IdentifoldError
  | .identifold error => error
  | .driver error =>
      if error.sqlState = some "22003" then sequenceOverflow
      else if error.sqlState = some "22023" then invalidAllocationPolicy
      else databaseError

/-- The number of an allocation, once the query has resolved. -/
def readAllocation (result : QueryResult) : Except QueryFailure Int :=
  match ((firstRows result).head?.bind id).bind SqlValue.sequence? with
  | some sequence => .ok sequence
  | none => .error (.identifold
      ⟨.allocationConflict, "Sequence allocation returned an invalid result"⟩)

/-! ## allocate -/

/-- What becomes of a query. -/
inductive Delivery
  /-- The procedure is run, and its reply arrives. -/
  | delivered
  /-- The procedure is run, and an error arrives in place of its reply. -/
  | lost (error : DriverError)
  /-- The procedure is not run, or is rolled back. -/
  | refused (error : DriverError)
  deriving DecidableEq, Repr

/-- Where a call of `allocate` stands. -/
inductive AllocationPhase
  | calling (attempt : Nat)
  | settled (result : Except IdentifoldError Int)
  deriving DecidableEq

/-- A request with the texts of a registered policy: the columns are `ascii_bin`, so they compare
as they are. -/
abbrev CanonicalRequest : Type :=
  { request : SequenceAllocationRequest // isPublicPrefix request.namespaceName = true ∧
    isReferencePrefix request.refPrefix = true ∧ ∀ year ∈ request.scope, isFourDigits year = true }

/-- A call of `allocate`. -/
structure AllocationCall where
  request : SequenceAllocationRequest
  phase : AllocationPhase
  deriving DecidableEq

section Allocate

variable (driver : MySqlDriver)

/-- `CALL identifold_allocate_sequence(?, ?, ?, ?, ?)`, on the server. -/
def MySqlDriver.perform (db : Database) (machineId : MachineBytes)
    (request : SequenceAllocationRequest) : Reply × Database :=
  match driver.bind machineId request with
  | .error condition => (.signalled condition, db)
  | .ok call => exec db call

/-- The `try` block of `allocate`, with the tables it leaves. -/
def MySqlDriver.attempt (db : Database) (request : SequenceAllocationRequest)
    (delivery : Delivery) :
    Except QueryFailure Int × Database :=
  match machineIdToBytes request.machineId with
  | .error error => (.error (.identifold error), db)
  | .ok machineId =>
      let (reply, db') := driver.perform db machineId request
      match delivery with
      | .delivered => ((driver.resolves reply).mapError .driver >>= readAllocation, db')
      | .lost error => (.error (.driver error), db')
      | .refused error => (.error (.driver error), db)

/-- The end of an attempt: the loop goes on after a transient error, but the last. -/
def AllocationPhase.after (attempt : Nat) : Except QueryFailure Int → AllocationPhase
  | .ok sequence => .settled (.ok sequence)
  | .error failure =>
      if attempt < 4 ∧ isTransientMySqlError failure = true then .calling (attempt + 1)
      else .settled (.error (mapMySqlError failure))

/-- The next attempt of a call. -/
def allocationStep (db : Database) (call : AllocationCall) (delivery : Delivery) :
    Option (Database × AllocationCall) :=
  match call.phase with
  | .settled _ => none
  | .calling attempt =>
      let (result, db') := driver.attempt db call.request delivery
      some (db', { call with phase := .after attempt result })

/-- Any number of concurrent calls of `allocate`. -/
def allocationProgram : Program Database AllocationCall CanonicalRequest Delivery where
  start request := ⟨request.val, .calling 0⟩
  step _ := allocationStep driver

end Allocate

/-! ## attempts -/

/-- The number is the request's, by a row of the tables. -/
def Allocated (db : Database) (request : SequenceAllocationRequest) (n : Int) : Prop :=
  ∃ machineId, machineIdToBytes request.machineId = .ok machineId ∧ ∃ r ∈ db.allocations,
    r.machineKey = (Sqlite.counterKey request, machineId) ∧ r.refPrefix = request.refPrefix ∧
      (r.sequence : Int) = n

/-- A row of the request. -/
def IsRowOf (r : AllocationRow) (request : SequenceAllocationRequest) : Prop :=
  Sqlite.counterKey request = r.key ∧ machineIdToBytes request.machineId = .ok r.machineId

/-- What holds of the tables between two attempts. -/
structure Tables (db : Database) : Prop where
  numbered : Numbered db
  used : AllUsed db

/-- What an attempt does to the tables: it keeps them in order and adds at most rows of its
request. -/
structure Attempts (db db' : Database) (request : SequenceAllocationRequest) : Prop where
  tables : Tables db'
  grows : db.allocations ⊆ db'.allocations
  rows : ∀ r ∈ db'.allocations, r ∈ db.allocations ∨ IsRowOf r request

section Attempts

variable {driver : MySqlDriver} {db db' : Database} {request : SequenceAllocationRequest}
  {machineId : MachineBytes}

theorem Attempts.refl (h : Tables db) : Attempts db db request :=
  ⟨h, List.Subset.refl _, fun _ hr => .inl hr⟩

theorem Allocated.mono {n : Int} (h : Allocated db request n)
    (hgrows : db.allocations ⊆ db'.allocations) : Allocated db' request n := by
  obtain ⟨machineId, hbytes, r, hr, hrow⟩ := h
  exact ⟨machineId, hbytes, r, hgrows hr, hrow⟩

/-- What the server does for a query. -/
theorem perform_spec (driver : MySqlDriver) (h : Tables db)
    (hbytes : machineIdToBytes request.machineId = .ok machineId) :
    Attempts db (driver.perform db machineId request).2 request ∧
      ∀ n, (driver.perform db machineId request).1 = .returned n →
        Allocated (driver.perform db machineId request).2 request n := by
  rw [MySqlDriver.perform]
  cases hbind : driver.bind machineId request with
  | error condition => exact ⟨.refl h, fun n hn => by contradiction⟩
  | ok call =>
      obtain ⟨hcall, -⟩ := driver.bind_ok _ _ _ hbind
      have hkey : callKey call = Sqlite.counterKey request := by
        rw [hcall]
        rfl
      have hid : call.machineId = machineId := by rw [hcall]
      have hpre : call.refPrefix = request.refPrefix := by rw [hcall]
      dsimp only [exec]
      cases hrun : allocateSequence db call with
      | error condition => exact ⟨.refl h, fun n hn => by contradiction⟩
      | ok result =>
          obtain ⟨n, db'⟩ := result
          obtain ⟨⟨hnumbered, hused⟩, ⟨r, hr, hmachine, ⟨hrpre, -⟩, hn⟩, hrows⟩ :=
            allocateSequence_spec h.numbered h.used hrun
          rw [hkey, hid] at hmachine
          rw [hpre] at hrpre
          refine ⟨⟨⟨hnumbered, hused⟩, ?_, fun r' hr' => ?_⟩, fun m hm => ?_⟩
          · rcases hrows with rfl | ⟨-, row, hadded, -⟩
            · exact List.Subset.refl _
            · rw [hadded]
              exact List.subset_append_left _ _
          · rcases hrows with rfl | ⟨-, row, hadded, hrow⟩
            · exact .inl hr'
            · rw [hadded] at hr'
              rcases List.mem_append.mp hr' with hr' | hr'
              · exact .inl hr'
              · rw [hkey, hid] at hrow
                rw [List.mem_singleton.mp hr']
                obtain ⟨hrowkey, hrowid⟩ := Prod.mk.inj hrow
                exact .inr ⟨hrowkey.symm, by rw [hbytes, ← hrowid]⟩
          · obtain rfl := Reply.returned.inj hm
            exact ⟨machineId, hbytes, r, hr, hmachine, hrpre, congrArg Nat.cast hn⟩

/-- The row that the procedure returns is read back, or not at all. -/
theorem readAllocation_of_resolves {reply : Reply} {n : Int}
    (h : (driver.resolves reply).mapError QueryFailure.driver >>= readAllocation = .ok n) :
    ∃ m : Nat, reply = .returned m ∧ n = m := by
  cases reply with
  | signalled condition => contradiction
  | returned m =>
      refine ⟨m, rfl, driver.bigintOut_read m n ?_⟩
      have hread : readAllocation (.array [.array [.row (some (driver.bigintOut m))], .row none]) =
          .ok n := h
      simp only [readAllocation, firstRows, List.filterMap_cons, List.head?_cons, Option.bind_some,
        id_eq] at hread
      split at hread
      · rename_i hsequence
        rw [hsequence, Except.ok.inj hread]
      · contradiction

/-- **An attempt**: whatever becomes of its query, the tables are kept, and a number that is
read is the request's. -/
theorem attempt_spec (driver : MySqlDriver) (request : SequenceAllocationRequest) (h : Tables db)
    (delivery : Delivery) :
    Attempts db (driver.attempt db request delivery).2 request ∧
      ∀ n, (driver.attempt db request delivery).1 = .ok n →
        Allocated (driver.attempt db request delivery).2 request n := by
  rw [MySqlDriver.attempt]
  cases hbytes : machineIdToBytes request.machineId with
  | error error => exact ⟨.refl h, fun n hn => by contradiction⟩
  | ok machineId =>
      obtain ⟨hattempts, hallocated⟩ := perform_spec driver h hbytes
      cases delivery with
      | delivered =>
          refine ⟨hattempts, fun n hn => ?_⟩
          obtain ⟨m, hreply, rfl⟩ := readAllocation_of_resolves hn
          exact hallocated m hreply
      | lost error => exact ⟨hattempts, fun n hn => by contradiction⟩
      | refused error => exact ⟨.refl h, fun n hn => by contradiction⟩

end Attempts

/-! ## runs -/

section Runs

variable {driver : MySqlDriver} {labels : List (Label CanonicalRequest Delivery)}
  {config config' : Config Database AllocationCall}

/-- A call that has returned a number has the row of it. -/
def HasRow (_ : Nat) (db : Database) (call : AllocationCall) : Prop :=
  ∀ n, call.phase = .settled (.ok n) → Allocated db call.request n

theorem phase_after_ok {attempt : Nat} {result : Except QueryFailure Int} {n : Int}
    (h : AllocationPhase.after attempt result = .settled (.ok n)) : result = .ok n := by
  cases result with
  | ok m =>
      obtain rfl := Except.ok.inj (AllocationPhase.settled.inj h)
      rfl
  | error failure =>
      rw [AllocationPhase.after] at h
      split at h
      · contradiction
      · exact absurd (AllocationPhase.settled.inj h) (by simp)

/-- A step of a call is an attempt. -/
theorem allocationStep_spec {db db' : Database} {call call' : AllocationCall} {delivery : Delivery}
    (h : Tables db) (hstep : allocationStep driver db call delivery = some (db', call')) (i : Nat) :
    call'.request = call.request ∧ Attempts db db' call.request ∧ HasRow i db' call' := by
  simp only [allocationStep] at hstep
  split at hstep
  · contradiction
  · obtain ⟨rfl, rfl⟩ := Prod.mk.inj (Option.some.inj hstep)
    obtain ⟨hattempts, hallocated⟩ := attempt_spec driver call.request h delivery
    exact ⟨rfl, hattempts, fun n hn => hallocated n (phase_after_ok hn)⟩

theorem tables_start (n : Nat) (db : Database) (request : CanonicalRequest)
    (h : Tables db) : Tables db ∧ HasRow n db ((allocationProgram driver).start request) :=
  ⟨h, fun m hm => by contradiction⟩

theorem tables_step (n i : Nat) (db : Database) (call : AllocationCall) (delivery : Delivery)
    (db' : Database) (call' : AllocationCall) (_ : i < n) (h : Tables db) (_ : HasRow i db call)
    (hstep : (allocationProgram driver).step i db call delivery = some (db', call')) :
    (Tables db' ∧ HasRow i db' call') ∧
      ∀ j other, j ≠ i → j < n → HasRow j db other → HasRow j db' other := by
  obtain ⟨-, hattempts, hrow⟩ := allocationStep_spec h hstep i
  exact ⟨⟨hattempts.tables, hrow⟩,
    fun j other _ _ hother m hm => (hother m hm).mono hattempts.grows⟩

theorem holds_tables (hrun : (allocationProgram driver).Runs (.initial .empty) labels config) :
    Holds (fun _ => Tables) HasRow config :=
  Holds.run tables_start tables_step hrun
    ⟨⟨numbered_empty, allUsed_empty⟩, by simp [Config.initial]⟩

/-- Two numbers of one prefix in one scope are the same exactly for one machine identifier in
one counter. -/
theorem Allocated.eq_iff {db : Database} {request request' : SequenceAllocationRequest} {n n' : Int}
    (h : Numbered db) (hrow : Allocated db request n) (hrow' : Allocated db request' n')
    (hpre : request.refPrefix = request'.refPrefix)
    (hscope : request.scope.getD [] = request'.scope.getD []) :
    n = n' ↔ Sqlite.counterKey request = Sqlite.counterKey request' ∧
      machineIdToBytes request.machineId = machineIdToBytes request'.machineId := by
  obtain ⟨id, hbytes, r, hr, hmachine, hrpre, rfl⟩ := hrow
  obtain ⟨id', hbytes', r', hr', hmachine', hrpre', rfl⟩ := hrow'
  obtain ⟨hkey, hid⟩ := Prod.mk.inj hmachine
  obtain ⟨hkey', hid'⟩ := Prod.mk.inj hmachine'
  constructor
  · intro hsequence
    have howner : r.ownerKey = r'.ownerKey := by
      refine Prod.ext (Prod.ext ?_ ?_) (Int.ofNat_inj.mp hsequence)
      · exact hrpre.trans (hpre.trans hrpre'.symm)
      · exact (congrArg Prod.snd hkey).trans (hscope.trans (congrArg Prod.snd hkey').symm)
    obtain rfl := h.eq_of_ownerKey hr hr' howner
    exact ⟨hkey.symm.trans hkey', by rw [hbytes, hbytes', ← hid, ← hid']⟩
  · rintro ⟨hcounter, hids⟩
    have hsame : id = id' := Except.ok.inj (hbytes.symm.trans (hids.trans hbytes'))
    have hrows : r = r' := by
      refine h.eq_of_machineKey hr hr' ?_
      rw [hmachine, hmachine', hcounter, hsame]
    rw [hrows]

/-- **Exactly once**: in every run of concurrent calls of `allocate`, whatever replies are lost,
whatever errors arrive in their place and however often the calls are repeated:

* the numbers of a counter are one, two, three, ..., each for another machine identifier, and
  each for one that a call has asked for;
* a number that a call has returned is its machine identifier's for good;
* two calls with one prefix and scope have returned the same number if and only if
  they have asked for the same machine identifier in the same counter. -/
theorem allocation_exactly_once
    (hrun : (allocationProgram driver).Runs (.initial .empty) labels config) :
    (∀ key, Ledger.IsNumbered AllocationRow.machineId AllocationRow.sequence
        (config.shared.rowsOf key)) ∧
    (∀ r ∈ config.shared.allocations, ∃ call ∈ config.threads, IsRowOf r call.request) ∧
    (∀ (i : Nat) call n, config.threads[i]? = some call → call.phase = .settled (.ok n) →
      ∀ later config', (allocationProgram driver).Runs config later config' →
        Allocated config'.shared call.request n) ∧
    ∀ (i j : Nat) call call' n n', config.threads[i]? = some call →
      config.threads[j]? = some call' → call.phase = .settled (.ok n) →
      call'.phase = .settled (.ok n') → call.request.refPrefix = call'.request.refPrefix →
      call.request.scope.getD [] = call'.request.scope.getD [] →
      (n = n' ↔ Sqlite.counterKey call.request = Sqlite.counterKey call'.request ∧
        machineIdToBytes call.request.machineId = machineIdToBytes call'.request.machineId) := by
  obtain ⟨htables, hcalls⟩ := holds_tables hrun
  refine ⟨htables.numbered.rowsOf_numbered, fun r hr => ?_, ?_, ?_⟩
  · have horigin := provenance (fun (db : Database) r => r ∈ db.allocations)
      (fun (call : AllocationCall) r => IsRowOf r call.request) tables_start tables_step
      (fun n i db call delivery db' call' _ htables _ hstep => by
        obtain ⟨hrequest, hattempts, -⟩ := allocationStep_spec htables hstep i
        rw [hrequest]
        exact ⟨hattempts.rows, fun _ hown => hown⟩) hrun
      ⟨⟨numbered_empty, allUsed_empty⟩, by simp [Config.initial]⟩ hr
    rcases horigin with hinitial | howned
    · contradiction
    · exact howned
  · intro i call n hi hsettled later config' hlater
    have hfinal : config'.threads[i]? = some call := by
      refine stays (fun db delivery => ?_) hlater hi
      simp only [allocationProgram, allocationStep, hsettled]
    have hholds : Holds (fun _ => Tables) HasRow config' :=
      Holds.run tables_start tables_step hlater ⟨htables, hcalls⟩
    exact hholds.2 i call hfinal n hsettled
  · intro i j call call' n n' hi hj hsettled hsettled' hpre hscope
    exact (hcalls i call hi n hsettled).eq_iff htables.numbered (hcalls j call' hj n' hsettled') hpre
      hscope

end Runs

/-- A driver in strict mode that reads a `BIGINT UNSIGNED` as a number. -/
def strictDriver : MySqlDriver where
  bind machineId request :=
    match request.width with
    | .integer (.ofNat width) =>
        if width < 256 then
          .ok ⟨machineId, request.namespaceName, request.refPrefix, request.scope, width⟩
        else .error ⟨1264, "22003", "Out of range value for column 'requested_width'"⟩
    | _ => .error ⟨1264, "22003", "Out of range value for column 'requested_width'"⟩
  bind_ok := by
    intro machineId request call h
    split at h
    · rename_i width hwidth
      split at h
      · rw [← Except.ok.inj h]
        exact ⟨rfl, hwidth⟩
      · contradiction
    · contradiction
  bigintOut n := .number (.integer n)
  bigintOut_read := by
    intro n m h
    simp only [SqlValue.sequence?] at h
    split at h
    · exact (Option.some.inj h).symm
    · contradiction
  errorName errno := if errno = 1213 then "ER_LOCK_DEADLOCK" else "ER_SIGNAL_EXCEPTION"

/-- A reply is lost after the procedure has run, and a deadlock is retried: asked again, the first
machine identifier has the number that the lost reply carried. -/
theorem allocation_exactly_once_sample :
    let first : SequenceAllocationRequest := ⟨"01890f3e-7b6a-7cc2-98c4-dc0c0c07398f".toList,
      "invoice".toList, "INV".toList, some "2026".toList, .integer 4⟩
    let second := { first with machineId := "01890f3e-7b6a-7cc2-98c4-dc0c0c073990".toList }
    let deadlock : DriverError := ⟨some "ER_LOCK_DEADLOCK", some "40001"⟩
    let connectionLost : DriverError := ⟨some "PROTOCOL_CONNECTION_LOST", none⟩
    let labels : List (Label CanonicalRequest Delivery) := [.start ⟨first, by decide⟩,
      .start ⟨second, by decide⟩, .step 0 (.lost connectionLost), .step 1 (.refused deadlock),
      .step 1 .delivered, .start ⟨first, by decide⟩, .step 2 .delivered]
    ∃ config : Config Database AllocationCall,
      (allocationProgram strictDriver).Runs (.initial .empty) labels config ∧
        config.threads = [⟨first, .settled (.error databaseError)⟩,
          ⟨second, .settled (.ok 2)⟩, ⟨first, .settled (.ok 1)⟩] ∧
        ∀ later config', (allocationProgram strictDriver).Runs config later config' →
          Allocated config'.shared first 1 := by
  intro first second deadlock connectionLost labels
  have hlabels : (labels.foldlM (allocationProgram strictDriver).next (.initial .empty)).map
      (·.threads) = some [⟨first, .settled (.error databaseError)⟩, ⟨second, .settled (.ok 2)⟩,
        ⟨first, .settled (.ok 1)⟩] := by decide
  obtain ⟨config, hconfig, hthreads⟩ := Option.map_eq_some_iff.mp hlabels
  have hrun := Run.of_foldlM hconfig
  refine ⟨config, hrun, hthreads, ?_⟩
  obtain ⟨-, -, hstays, -⟩ := allocation_exactly_once hrun
  exact hstays 2 ⟨first, .settled (.ok 1)⟩ 1 (by rw [hthreads]; rfl) rfl

end MySql

end Identifold
