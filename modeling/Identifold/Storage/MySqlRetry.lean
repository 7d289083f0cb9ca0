import Identifold.Lib.Dialogue
import Identifold.Storage.SqlitePorts

/-!
# Identifold.Storage.MySqlRetry

The retry loops of `allocate` in the Python and in the Rust MySQL adapter
(`packages/python/src/identifold/storage/mysql.py`,
`packages/rust/src/storage/mysql.rs`), as dialogues with the database: each
attempt puts `CALL identifold_allocate_sequence`, and is answered by its
outcome.

Both loops go on after a transient error.  The one of Python looks for it in
what `_query_one` raises, and `_query_one` has translated by then every error
but those of closing the cursor.
-/

namespace Identifold

namespace MySql

open Dialogue

/-! ## outcomes -/

/-- What a driver raises: an error of the server with its number and SQLSTATE,
or an error that has neither. -/
inductive DatabaseError
  | server (errno : Nat) (sqlState : String)
  | other
  deriving DecidableEq, Repr

namespace DatabaseError

/-- Lock wait timeout, deadlock, serialization failure. -/
def isTransient : DatabaseError → Bool
  | server errno sqlState => errno = 1205 || errno = 1213 || sqlState = "40001"
  | other => false

/-- The stable code of an error. -/
def mappedCode : DatabaseError → IdentifoldErrorCode
  | server _ sqlState =>
      if sqlState = "22003" then .sequenceOverflow
      else if sqlState = "22023" then .invalidAllocationPolicy
      else .allocationConflict
  | other => .allocationConflict

end DatabaseError

/-- What the procedure answers to one call: a `BIGINT UNSIGNED`, or an error. -/
inductive Outcome
  | value (sequence : UInt64)
  | failed (error : DatabaseError)
  deriving DecidableEq

/-- The arguments of the procedure, as an adapter binds them. -/
structure AllocateCall where
  machineId : MachineBytes
  namespaceName : Text
  refPrefix : Text
  scope : Option Text
  width : Int
  deriving DecidableEq, Repr

namespace Outcome

def isTransient : Outcome → Bool
  | value _ => false
  | failed error => error.isTransient

/-- The value of an outcome, or its mapped code. -/
def answer : Outcome → Except IdentifoldErrorCode Nat
  | value sequence => .ok sequence.toNat
  | failed error => .error error.mappedCode

/-- The answer of an outcome that is not to be retried. -/
def final (outcome : Outcome) : Option (Except IdentifoldErrorCode Nat) :=
  if outcome.isTransient then none else some outcome.answer

@[simp] theorem isTransient_failed (error : DatabaseError) :
    (failed error).isTransient = error.isTransient := rfl

theorem final_eq_none_iff {outcome : Outcome} :
    outcome.final = none ↔ outcome.isTransient = true := by
  simp [final]

theorem final_eq_some_iff {outcome : Outcome} {result : Except IdentifoldErrorCode Nat} :
    outcome.final = some result ↔ outcome.isTransient = false ∧ outcome.answer = result := by
  simp [final]

end Outcome

/-! ## the loop -/

section Attempts

variable {Q A R ε φ : Type}

/-- The loop of the adapters over the numbers of the attempts.  `once` is an
attempt; `handle` is the error that ends the loop, if the attempt's does. -/
def attempts (call : Q) (once : A → Except ε R) (handle : Nat → ε → Option φ) (exhausted : φ) :
    List Nat → Dialogue Q A (Except φ R)
  | [] => .done (.error exhausted)
  | attempt :: rest => .ask call fun answer =>
      match once answer with
      | .ok r => .done (.ok r)
      | .error error =>
          match handle attempt error with
          | some failure => .done (.error failure)
          | none => attempts call once handle exhausted rest

/-- The loop is a retry: it goes on after the answers that are not final, and
reports the last of them as the exhaustion. -/
theorem run_attempts {call : Q} {once : A → Except ε R} {handle : Nat → ε → Option φ} {exhausted : φ}
    {final : A → Option (Except φ R)} {before : List Nat} {last : Nat} {answers : List A}
    (hok : ∀ a ∈ answers, ∀ r, once a = .ok r → final a = some (.ok r))
    (hfinal : ∀ a ∈ answers, ∀ e, once a = .error e → ∀ result, final a = some result →
      ∀ n ∈ before ++ [last], ∃ failure, handle n e = some failure ∧ result = .error failure)
    (hwait : ∀ a ∈ answers, ∀ e, once a = .error e → final a = none →
      (∀ n ∈ before, handle n e = none) ∧ handle last e = some exhausted) :
    run (attempts call once handle exhausted (before ++ [last])) answers =
      run (retry call final (.error exhausted) (before.length + 1)) answers := by
  induction before generalizing answers with
  | nil =>
      cases answers with
      | nil => rfl
      | cons a answers =>
          simp only [List.nil_append, attempts, retry, List.length_nil, run_ask_cons]
          cases honce : once a with
          | ok r => simp [hok a (.head _) r honce]
          | error e =>
              cases ha : final a with
              | none => simp [(hwait a (.head _) e honce ha).2]
              | some result =>
                  obtain ⟨failure, hhandle, rfl⟩ := hfinal a (.head _) e honce result ha last (by simp)
                  simp [hhandle]
  | cons n before ih =>
      cases answers with
      | nil => rfl
      | cons a answers =>
          have hrest := @ih answers (fun b hb => hok b (.tail _ hb))
            (fun b hb e he result hr m hm => hfinal b (.tail _ hb) e he result hr m (.tail _ hm))
            (fun b hb e he hnone => (hwait b (.tail _ hb) e he hnone).imp_left
              fun h m hm => h m (.tail _ hm))
          rw [List.cons_append, attempts, List.length_cons, retry, run_ask_cons, run_ask_cons]
          cases honce : once a with
          | ok r => simp [hok a (.head _) r honce]
          | error e =>
              cases ha : final a with
              | none => simp [(hwait a (.head _) e honce ha).1 n (.head _), hrest]
              | some result =>
                  obtain ⟨failure, hhandle, rfl⟩ := hfinal a (.head _) e honce result ha n (.head _)
                  simp [hhandle]

/-- The loop over `range(5)`. -/
theorem run_attempts_range {call : Q} {once : A → Except ε R} {handle : Nat → ε → Option φ}
    {exhausted : φ} {final : A → Option (Except φ R)} {answers : List A}
    (hok : ∀ a ∈ answers, ∀ r, once a = .ok r → final a = some (.ok r))
    (hfinal : ∀ a ∈ answers, ∀ e, once a = .error e → ∀ result, final a = some result →
      ∀ n, ∃ failure, handle n e = some failure ∧ result = .error failure)
    (hwait : ∀ a ∈ answers, ∀ e, once a = .error e → final a = none →
      (∀ n < 4, handle n e = none) ∧ handle 4 e = some exhausted) :
    run (attempts call once handle exhausted (List.range 5)) answers =
      run (retry call final (.error exhausted) 5) answers := by
  rw [List.range_succ]
  refine run_attempts hok (fun a ha e he result hr n _ => hfinal a ha e he result hr n) ?_
  intro a ha e he hnone
  exact (hwait a ha e he hnone).imp_left fun h n hn => h n (List.mem_range.mp hn)

end Attempts

/-! ## the Python adapter -/

namespace Python

/-- A column of a row: an `int`, a `bool`, or another object. -/
inductive Column
  | integer (n : Int)
  | boolean (b : Bool)
  | object
  deriving DecidableEq, Repr

/-- What the connection does in one query: the cursor is not opened, or it
gives rows or an error, and is closed. -/
inductive Exchange
  | unopened (error : DatabaseError)
  | opened (reply : Except DatabaseError (List (List Column))) (closed : Except DatabaseError Unit)

/-- The exchange in which the procedure has the outcome. -/
def Exchange.ofOutcome : Outcome → Exchange
  | .value sequence => .opened (.ok [[.integer sequence.toNat]]) (.ok ())
  | .failed error => .opened (.error error) (.ok ())

/-- What is raised: an `IdentifoldError`, or an error of the driver. -/
inductive Raised
  | identifold (error : IdentifoldError)
  | database (error : DatabaseError)
  deriving DecidableEq, Repr

/-- `getattr(error, "errno", None)`. -/
def errno : DatabaseError → Option Nat
  | .server errno _ => some errno
  | .other => none

/-- `getattr(error, "sqlstate", None)`. -/
def sqlState : DatabaseError → Option String
  | .server _ sqlState => some sqlState
  | .other => none

/-- `_conflict`. -/
def conflict : IdentifoldError :=
  ⟨.allocationConflict, "Database operation could not be committed"⟩

/-- `_map_error`. -/
def mapError : Raised → IdentifoldError
  | .identifold error => error
  | .database error =>
      if sqlState error = some "22003" then
        ⟨.sequenceOverflow, "Sequential reference capacity is exhausted"⟩
      else if sqlState error = some "22023" then
        ⟨.invalidAllocationPolicy, "Sequential allocation policy is invalid"⟩
      else conflict

/-- `_is_transient`. -/
def isTransient (error : DatabaseError) : Bool :=
  errno error = some 1205 || errno error = some 1213 || sqlState error = some "40001"

/-- `_query_one`.  Closing the cursor is outside of the handlers, and its
error replaces what was to be returned or raised. -/
def queryOne : Exchange → Except Raised (Option (List Column))
  | .unopened error => .error (.identifold (mapError (.database error)))
  | .opened _ (.error error) => .error (.database error)
  | .opened (.error error) (.ok ()) => .error (.identifold (mapError (.database error)))
  | .opened (.ok rows) (.ok ()) =>
      if 1 < rows.length then .error (.identifold conflict) else .ok rows.head?

/-- The `try` block of `allocate`. -/
def allocateOnce (exchange : Exchange) : Except Raised Nat := do
  match ← queryOne exchange with
  | some [.integer n] => if n < 0 then throw (.identifold conflict) else return n.toNat
  | _ => throw (.identifold conflict)

/-- The `except` blocks of `allocate`. -/
def handle (attempt : Nat) : Raised → Option IdentifoldError
  | .identifold error => some error
  | .database error =>
      if attempt < 4 ∧ isTransient error = true then none else some (mapError (.database error))

/-- The call that is made for a request. -/
def callOf (request : Sqlite.Python.SequenceAllocationRequest) (machineId : MachineBytes) :
    AllocateCall :=
  ⟨machineId, request.namespaceName, request.refPrefix, request.scope, request.width⟩

/-- `MySQLStorageAdapter.allocate`; `uuid` is `uuid.UUID(_).bytes`, where
`none` is its `ValueError`. -/
def allocate (uuid : Text → Option MachineBytes) (request : Sqlite.Python.SequenceAllocationRequest) :
    Dialogue AllocateCall Exchange (Except IdentifoldError Nat) :=
  match uuid request.machineId with
  | none => .done (.error conflict)
  | some machineId =>
      attempts (callOf request machineId) allocateOnce handle conflict (List.range 5)

end Python

/-! ## the Rust adapter -/

namespace Rust

/-- `map_error`. -/
def mapError : DatabaseError → IdentifoldErrorCode
  | .server _ sqlState =>
      if sqlState = "22003" then .sequenceOverflow
      else if sqlState = "22023" then .invalidAllocationPolicy
      else .allocationConflict
  | .other => .allocationConflict

/-- `is_transient`. -/
def isTransient : DatabaseError → Bool
  | .server errno sqlState => errno = 1205 || errno = 1213 || sqlState = "40001"
  | .other => false

/-- The first row of an outcome. -/
def execFirst : Outcome → Except DatabaseError (Option UInt64)
  | .value sequence => .ok (some sequence)
  | .failed error => .error error

/-- `allocate_once`. -/
def allocateOnce (outcome : Outcome) : Except DatabaseError Nat := do
  match ← execFirst outcome with
  | some sequence => return sequence.toNat
  | none => throw .other

/-- The arms of the loop for an error. -/
def handle (attempt : Nat) (error : DatabaseError) : Option IdentifoldErrorCode :=
  if attempt < 4 ∧ isTransient error = true then none else some (mapError error)

/-- The call that is made for a request. -/
def callOf (request : Sqlite.PortRequest) (machineId : MachineBytes) : AllocateCall :=
  ⟨machineId, request.namespaceName, request.refPrefix, request.scope, request.width.toNat⟩

/-- `MySqlStorageAdapter::allocate`; `machine_id_bytes` is that of the SQLite
adapter. -/
def allocate (request : Sqlite.PortRequest) :
    Dialogue AllocateCall Outcome (Except IdentifoldErrorCode Nat) :=
  match Sqlite.Rust.machineIdBytes request.machineId with
  | none => .done (.error .allocationConflict)
  | some machineId =>
      attempts (callOf request machineId) allocateOnce handle .allocationConflict (List.range 5)

end Rust

/-! ## what the adapters see -/

theorem Python.isTransient_eq (error : DatabaseError) :
    Python.isTransient error = error.isTransient := by
  cases error <;> simp [Python.isTransient, Python.errno, Python.sqlState, DatabaseError.isTransient]

theorem Python.code_mapError (error : DatabaseError) :
    (Python.mapError (.database error)).code = error.mappedCode := by
  cases error with
  | other => rfl
  | server errno sqlState =>
      simp only [Python.mapError, Python.sqlState, Option.some.injEq, DatabaseError.mappedCode]
      split
      · rfl
      · split <;> rfl

theorem Rust.isTransient_eq (error : DatabaseError) :
    Rust.isTransient error = error.isTransient := by
  cases error <;> rfl

theorem Rust.mapError_eq (error : DatabaseError) : Rust.mapError error = error.mappedCode := by
  cases error <;> rfl

/-! ## the loop of Python -/

namespace Python

variable {uuid : Text → Option MachineBytes} {request : Sqlite.Python.SequenceAllocationRequest}
  {machineId : MachineBytes}

/-- An exchange that ends the loop. -/
def finalExchange (exchange : Exchange) : Option (Except IdentifoldError Nat) :=
  match allocateOnce exchange with
  | .ok n => some (.ok n)
  | .error (.identifold error) => some (.error error)
  | .error (.database error) =>
      if isTransient error then none else some (.error (mapError (.database error)))

/-- Only an error of closing the cursor reaches the loop as it is. -/
theorem allocateOnce_eq_database_iff {exchange : Exchange} {error : DatabaseError} :
    allocateOnce exchange = .error (.database error) ↔
      ∃ reply, exchange = .opened reply (.error error) := by
  cases exchange with
  | unopened error' => simp [allocateOnce, queryOne, error_bind]
  | opened reply closed =>
      cases closed with
      | error error' => simp [allocateOnce, queryOne, error_bind]
      | ok =>
          suffices h : allocateOnce (.opened reply (.ok ())) ≠ .error (.database error) by simpa using h
          cases reply with
          | error error' => simp [allocateOnce, queryOne, error_bind]
          | ok rows =>
              simp only [allocateOnce, queryOne]
              split
              · simp [error_bind]
              · rw [ok_bind]
                split
                · split <;> nofun
                · nofun

/-- **Python keeps the rule** on the exchanges as its loop sees them, where the
transient errors that reach it, those of closing a cursor, are mapped to the
conflict that ends it. -/
theorem allocate_retries (hid : uuid request.machineId = some machineId) {exchanges : List Exchange}
    (hclosed : ∀ reply error, .opened reply (.error error) ∈ exchanges → isTransient error = true →
      mapError (.database error) = conflict) :
    Retries (callOf request machineId) finalExchange (.error conflict) 5 exchanges
      (run (allocate uuid request) exchanges) := by
  rw [retries_iff, allocate, hid]
  refine run_attempts_range ?_ ?_ ?_
  · intro exchange _ n honce
    simp [finalExchange, honce]
  · intro exchange _ raised honce result hresult n
    cases raised with
    | identifold error =>
        simp only [finalExchange, honce, Option.some.injEq] at hresult
        exact ⟨error, rfl, hresult.symm⟩
    | database error =>
        cases htransient : isTransient error with
        | true => simp [finalExchange, honce, htransient] at hresult
        | false =>
            simp only [finalExchange, honce, htransient, Bool.false_eq_true, if_false,
              Option.some.injEq] at hresult
            exact ⟨_, by simp [handle, htransient], hresult.symm⟩
  · intro exchange hmem raised honce hnone
    cases raised with
    | identifold error => simp [finalExchange, honce] at hnone
    | database error =>
        obtain ⟨reply, rfl⟩ := allocateOnce_eq_database_iff.mp honce
        have htransient : isTransient error = true := by simpa [finalExchange, honce] using hnone
        simp [handle, htransient, hclosed reply error hmem htransient]

/-- The first outcome of the procedure ends the loop. -/
theorem run_allocate (hid : uuid request.machineId = some machineId) (outcome : Outcome)
    (rest : List Outcome) :
    (run (allocate uuid request) ((outcome :: rest).map .ofOutcome)).map
        (Except.mapError IdentifoldError.code) =
      ⟨[callOf request machineId], some outcome.answer⟩ := by
  rw [allocate, hid]
  cases outcome with
  | value sequence => rfl
  | failed error =>
      have hrange : List.range 5 = [0, 1, 2, 3, 4] := rfl
      simp [hrange, attempts, Exchange.ofOutcome, allocateOnce, queryOne, error_bind, handle,
        Transcript.map, Transcript.cons, Except.mapError, code_mapError, Outcome.answer]

end Python

/-! ## the loop of Rust -/

namespace Rust

variable {request : Sqlite.PortRequest} {machineId : MachineBytes}

theorem final_of_allocateOnce_ok {outcome : Outcome} {n : Nat} (h : allocateOnce outcome = .ok n) :
    outcome.final = some (.ok n) := by
  cases outcome with
  | value sequence =>
      cases h
      rfl
  | failed error => cases h

theorem eq_failed_of_allocateOnce_error {outcome : Outcome} {error : DatabaseError}
    (h : allocateOnce outcome = .error error) : outcome = .failed error := by
  cases outcome with
  | value sequence => cases h
  | failed error' =>
      cases h
      rfl

/-- An outcome that is not transient ends the loop. -/
theorem run_allocate (hid : Sqlite.Rust.machineIdBytes request.machineId = some machineId)
    {outcome : Outcome} (hfinal : outcome.isTransient = false) (rest : List Outcome) :
    run (allocate request) (outcome :: rest) = ⟨[callOf request machineId], some outcome.answer⟩ := by
  rw [allocate, hid]
  cases outcome with
  | value sequence => rfl
  | failed error =>
      have hrange : List.range 5 = [0, 1, 2, 3, 4] := rfl
      rw [Outcome.isTransient_failed] at hfinal
      simp [hrange, attempts, allocateOnce, execFirst, error_bind, handle, isTransient_eq,
        mapError_eq, hfinal, Transcript.cons, Outcome.answer]

/-- **Rust keeps the rule**, on servers whose transient errors have a SQLSTATE
of their own. -/
theorem allocate_retries (hid : Sqlite.Rust.machineIdBytes request.machineId = some machineId) {outcomes : List Outcome}
    (hmapped : ∀ error, .failed error ∈ outcomes → error.isTransient = true →
      error.mappedCode = .allocationConflict) :
    Retries (callOf request machineId) Outcome.final (.error .allocationConflict) 5 outcomes
      (run (allocate request) outcomes) := by
  rw [retries_iff, allocate, hid]
  refine run_attempts_range (fun outcome _ n => final_of_allocateOnce_ok) ?_ ?_
  · intro outcome _ error honce result hresult n
    obtain rfl := eq_failed_of_allocateOnce_error honce
    obtain ⟨hfinal, rfl⟩ := Outcome.final_eq_some_iff.mp hresult
    rw [Outcome.isTransient_failed] at hfinal
    exact ⟨error.mappedCode, by simp [handle, isTransient_eq, mapError_eq, hfinal], rfl⟩
  · intro outcome hmem error honce hnone
    obtain rfl := eq_failed_of_allocateOnce_error honce
    have htransient : error.isTransient = true := Outcome.final_eq_none_iff.mp hnone
    simp [handle, isTransient_eq, mapError_eq, htransient, hmapped error hmem htransient]

end Rust

/-! ## the rule -/

/-- The rule for the Python adapter: the calls of a request whose identifier
is read. -/
def MeetsRetryRule (uuid : Text → Option MachineBytes)
    (request : Sqlite.Python.SequenceAllocationRequest) (outcomes : List Outcome) : Prop :=
  ∀ machineId, uuid request.machineId = some machineId →
    Retries (Python.callOf request machineId) Outcome.final (.error .allocationConflict) 5 outcomes
      ((run (Python.allocate uuid request) (outcomes.map .ofOutcome)).map
        (Except.mapError IdentifoldError.code))

/-- The Rust adapter does the same for the same request, where it reads the
same identifier. -/
def AgreesWithRust (uuid : Text → Option MachineBytes)
    (request : Sqlite.Python.SequenceAllocationRequest) (outcomes : List Outcome) : Prop :=
  ∀ r : Sqlite.PortRequest,
    (⟨r.machineId, r.namespaceName, r.refPrefix, r.scope, r.width.toNat⟩ :
      Sqlite.Python.SequenceAllocationRequest) = request →
    Sqlite.Rust.machineIdBytes r.machineId = uuid r.machineId →
      run (Rust.allocate r) outcomes =
        (run (Python.allocate uuid request) (outcomes.map .ofOutcome)).map
          (Except.mapError IdentifoldError.code)

/-- **The bounded retry**: for every request and every sequence of outcomes,
the Python adapter keeps the rule and agrees with the Rust adapter unless the
first outcome is a transient error. -/
theorem allocate_retries_iff (uuid : Text → Option MachineBytes)
    (request : Sqlite.Python.SequenceAllocationRequest) (outcomes : List Outcome) :
    MeetsRetryRule uuid request outcomes ∧ AgreesWithRust uuid request outcomes ↔
      ¬ (uuid request.machineId ≠ none ∧ ∃ outcome ∈ outcomes.head?, outcome.isTransient = true) := by
  cases hid : uuid request.machineId with
  | none =>
      refine iff_of_true ⟨fun machineId hsome => ?_, ?_⟩ (by simp)
      · rw [hid] at hsome
        contradiction
      · rintro r rfl hreads
        rw [Rust.allocate, Python.allocate, hreads, hid]
        rfl
  | some machineId =>
      cases outcomes with
      | nil =>
          refine iff_of_true ⟨fun machineId hsome => ?_, ?_⟩ (by simp)
          · rw [retries_iff, Python.allocate, hsome]
            rfl
          · rintro r rfl hreads
            rw [Rust.allocate, Python.allocate, hreads, hid]
            rfl
      | cons outcome rest =>
          have hpython := Python.run_allocate hid outcome rest
          cases htransient : outcome.isTransient with
          | false =>
              refine iff_of_true ⟨?_, ?_⟩ (by simp [htransient])
              · intro machineId' hid'
                obtain rfl := Option.some.inj (hid.symm.trans hid')
                have hfinal := Outcome.final_eq_some_iff.mpr ⟨htransient, rfl⟩
                rw [hpython, retries_iff, retry, run_ask_cons, hfinal]
                rfl
              · rintro r rfl hreads
                rw [hpython, Rust.run_allocate (hreads.trans hid) htransient]
                rfl
          | true =>
              -- the rule asks again
              refine iff_of_false (fun h => ?_) (by simp [htransient])
              have hrule := retries_iff.mp (h.1 machineId hid)
              have hnone := Outcome.final_eq_none_iff.mpr htransient
              rw [hpython, retry, run_ask_cons, hnone, Transcript.cons] at hrule
              exact asked_run_retry_ne_nil (List.cons.inj (congrArg Transcript.asked hrule)).2.symm

/-- A deadlock is reported as a conflict at once; the Rust adapter gets the
value at its second call. -/
theorem allocate_drops_deadlock :
    let mid := "019f0000-0000-7000-8000-000000000001".toList
    let uuid := Sqlite.Rust.machineIdBytes
    let request : Sqlite.PortRequest := ⟨mid, "invoice".toList, "INV".toList, some "2026".toList, 8⟩
    let python : Sqlite.Python.SequenceAllocationRequest :=
      ⟨mid, "invoice".toList, "INV".toList, some "2026".toList, 8⟩
    let outcomes := [.failed (.server 1213 "40001"), .value 7]
    (run (Python.allocate uuid python) (outcomes.map .ofOutcome)).result =
        some (.error Python.conflict) ∧
      (run (Python.allocate uuid python) (outcomes.map .ofOutcome)).asked.length = 1 ∧
      (run (Rust.allocate request) outcomes).result = some (.ok 7) ∧
      (run (Rust.allocate request) outcomes).asked.length = 2 ∧
      ¬ (MeetsRetryRule uuid python outcomes ∧ AgreesWithRust uuid python outcomes) := by
  refine ⟨by decide, by decide, by decide, by decide, ?_⟩
  rintro ⟨-, hagrees⟩
  have hasked := congrArg Transcript.asked
    (hagrees ⟨"019f0000-0000-7000-8000-000000000001".toList, "invoice".toList, "INV".toList,
      some "2026".toList, 8⟩ rfl rfl)
  exact absurd (congrArg List.length hasked) (by decide)

end MySql

end Identifold
