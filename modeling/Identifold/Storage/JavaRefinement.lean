import Identifold.Storage.JavaTransactions

/-!
# Identifold.Storage.JavaRefinement

The Java adapter, call by call, against the atomic `allocate`: with a driver
that never throws, on an idle connection, they answer alike and leave the same
tables.  The two are one program in the codes of their errors too.
-/

namespace Identifold

namespace Sqlite

open Script

namespace Java

/-! ## a driver that never throws -/

section Refine

variable {α β : Type} {committed work : Database} {events : List Event} {s : Session}

theorem run_prepared (statement : Statement) (body : Script Session Exception α) :
    run (prepared (fun _ => false) statement body) s = run body s := by
  rw [prepared, call_bind_of_false rfl, run_withClose]
  cases run body s with
  | mk outcome t => cases outcome <;> rfl

theorem run_queried (statement : Statement) (select : Database → Option α)
    (body : Option α → Script Session Exception β) :
    run (queried (fun _ => false) statement select body) s = run (body (select s.connection.view)) s := by
  rw [queried, call_bind_of_false rfl, call_bind_of_false rfl, query_bind, run_withClose,
    call_bind_of_false rfl]
  cases run (body (select s.connection.view)) s with
  | mk outcome t => cases outcome <;> rfl

theorem run_updated (statement : Statement) (change : Database → Except IdentifoldError Database) :
    run (updated (fun _ => false) statement change) ⟨.inCall committed work, events⟩ =
      match change work with
      | .ok db => (.ok (), ⟨.inCall committed db, events⟩)
      | .error _ => (.error .sql, ⟨.inCall committed work, events⟩) := by
  rw [updated, call_bind_of_false rfl, call_bind_of_false rfl, effectOf, run_step, Connection.update]
  have hview : (Connection.inCall committed work).view = work := rfl
  rw [hview]
  cases change work <;> rfl

/-- What the inner `try` block comes to: the result of the atomic transaction,
or an exception that its handlers turn into the error. -/
def RefinesAtomic (committed : Database) (result : Except Exception Nat × Session)
    (atomic : Except IdentifoldError (Nat × Database)) : Prop :=
  match atomic with
  | .ok (value, db) => result.1 = .ok value ∧ result.2.connection = .handedOver db none
  | .error e => (∃ work, result.2.connection = .inCall committed work) ∧
      (result.1 = .error (.completion e.code) ∨
        result.1 = .error .sql ∧ e.code = .allocationConflict)

theorem demand_bind_of {condition : Prop} [Decidable condition] {code : IdentifoldErrorCode}
    (h : condition) (f : Unit → Script Session Exception α) :
    run (demand condition code >>= f) s = run (f ()) s := by
  rw [demand, ensure_of h, fromExcept_ok_bind]

theorem demand_bind_of_not {condition : Prop} [Decidable condition] {code : IdentifoldErrorCode}
    (h : ¬ condition) (f : Unit → Script Session Exception α) :
    run (demand condition code >>= f) s = (.error (failure code), s) := by
  rw [demand, ensure_of_not h]
  rfl

theorem run_commit :
    run (commit (fun _ => false)) ⟨.inCall committed work, events⟩ =
      (.ok (), ⟨.handedOver work none, events ++ [.commitIssued]⟩) := by
  rw [commit, run_prepared]
  rfl

/-- The request of an integral width, in the Java package. -/
def ofRequest (request : Identifold.SequenceAllocationRequest) (width : Nat) : SequenceAllocationRequest :=
  ⟨some request.machineId, some request.namespaceName, some request.refPrefix, request.scope, width⟩

variable {request : Identifold.SequenceAllocationRequest} {width : Nat}

/-- The two comparisons of a stored policy. -/
theorem run_policy (column : Text) (stored : Nat) (point : Call) (f : Unit → Script Session Exception α) :
    run (fromExcept (equalsPrefix (ofRequest request width).refPrefix column) >>= fun same =>
        demand (same = true) .invalidAllocationPolicy >>= fun _ =>
          call (fun _ => false) point >>= fun _ =>
            demand ((ofRequest request width).width = stored) .invalidAllocationPolicy >>= f) s =
      if column = request.refPrefix ∧ stored = width then run (f ()) s
      else (.error (failure .invalidAllocationPolicy), s) := by
  have hequals : equalsPrefix (ofRequest request width).refPrefix column =
      .ok (decide (request.refPrefix = column)) := rfl
  rw [hequals, fromExcept_ok_bind]
  by_cases hpolicy : column = request.refPrefix ∧ stored = width
  · have hwidth : (ofRequest request width).width = stored := congrArg Nat.cast hpolicy.2.symm
    rw [if_pos hpolicy, demand_bind_of (decide_eq_true hpolicy.1.symm), call_bind_of_false rfl,
      demand_bind_of hwidth]
  · rw [if_neg hpolicy]
    by_cases hpre : request.refPrefix = column
    · have hwidth : ¬ (ofRequest request width).width = stored := fun h =>
        hpolicy ⟨hpre.symm, (Int.ofNat_inj.mp h).symm⟩
      rw [demand_bind_of (decide_eq_true hpre), call_bind_of_false rfl, demand_bind_of_not hwidth]
    · rw [demand_bind_of_not (by simpa using hpre)]

theorem run_replay (existing : AllocationRow) :
    run (replay (fun _ => false) (ofRequest request width) (some existing))
        ⟨.inCall committed work, events⟩ =
      if existing.refPrefix = request.refPrefix ∧ existing.width = width then
        (.ok (some existing.sequence), ⟨.handedOver work none, events ++ [.commitIssued]⟩)
      else (.error (failure .invalidAllocationPolicy), ⟨.inCall committed work, events⟩) := by
  rw [replay, call_bind_of_false rfl, run_policy]
  split
  · rw [call_bind_of_false rfl, run_bind, run_commit]
    rfl
  · rfl

theorem run_readCurrent (state : SequenceRow) :
    run (readCurrent (fun _ => false) (ofRequest request width) (some state)) s =
      if state.refPrefix = request.refPrefix ∧ state.width = width then (.ok state.lastValue, s)
      else (.error (failure .invalidAllocationPolicy), s) := by
  rw [readCurrent, call_bind_of_false rfl, run_policy]
  split
  · rw [call_bind_of_false rfl]
    rfl
  · rfl

theorem run_recordNumber (machineId : MachineBytes) (allocated : Nat) :
    run (recordNumber (fun _ => false) (ofRequest request width) machineId allocated)
        ⟨.inCall committed work, events⟩ =
      match Sqlite.insertAllocation (work.setLastValue (counterKey request) allocated)
        ⟨(counterKey request).1, (counterKey request).2, allocated, machineId, request.refPrefix,
          width⟩ with
      | .ok db => (.ok (), ⟨.inCall committed db, events⟩)
      | .error _ => (.error .sql,
          ⟨.inCall committed (work.setLastValue (counterKey request) allocated), events⟩) := by
  rw [recordNumber, run_prepared, run_prepared, run_bind, run_updated]
  simp only
  rw [run_updated]
  rfl

/-- The end of the transaction, behind a counter that has the policy. -/
theorem refines_room {machineId : MachineBytes} (current : Nat) :
    RefinesAtomic committed
      (run (demand (current < 10 ^ (ofRequest request width).width.toNat - 1) .sequenceOverflow >>= fun _ =>
        recordNumber (fun _ => false) (ofRequest request width) machineId (current + 1) >>= fun _ =>
          commit (fun _ => false) >>= fun _ => pure (current + 1)) ⟨.inCall committed work, events⟩)
      (ensure (current < 10 ^ width - 1) sequenceOverflow >>= fun _ =>
        Sqlite.insertAllocation (work.setLastValue (counterKey request) (current + 1))
          ⟨(counterKey request).1, (counterKey request).2, current + 1, machineId, request.refPrefix,
            width⟩ >>= fun db => pure (current + 1, db)) := by
  have hmaximum : (ofRequest request width).width.toNat = width := rfl
  rw [hmaximum]
  by_cases hroom : current < 10 ^ width - 1
  · rw [ensure_of hroom, ok_bind, demand_bind_of hroom, run_bind, run_recordNumber]
    cases hinserted : Sqlite.insertAllocation (work.setLastValue (counterKey request) (current + 1))
        ⟨(counterKey request).1, (counterKey request).2, current + 1, machineId, request.refPrefix,
          width⟩ with
    | error e =>
        rw [insertAllocation_error hinserted]
        exact ⟨⟨_, rfl⟩, .inr ⟨rfl, rfl⟩⟩
    | ok db =>
        simp only
        rw [run_bind, run_commit]
        exact ⟨rfl, rfl⟩
  · rw [ensure_of_not hroom, error_bind, demand_bind_of_not hroom]
    exact ⟨⟨work, rfl⟩, .inl rfl⟩

/-- Call by call, the inner `try` block is the atomic transaction. -/
theorem transaction_refines {machineId : MachineBytes}
    (hbytes : machineIdToBytes request.machineId = .ok machineId) :
    RefinesAtomic committed
      (run (transaction (fun _ => false) (ofRequest request width) (.ok machineId))
        ⟨.inCall committed work, events⟩)
      (allocateTransaction work request width) := by
  rw [transaction, fromExcept_ok_bind, run_bind, Java.run_prepared, run_queried, allocateTransaction,
    hbytes, ok_bind]
  have hrow : (keyOf (ofRequest request width)).bind
      ((Connection.inCall committed work).view.selectAllocation · machineId) =
        work.selectAllocation (counterKey request) machineId := rfl
  rw [hrow]
  cases work.selectAllocation (counterKey request) machineId with
  | some existing =>
      -- a replay
      rw [run_replay]
      by_cases hpolicy : existing.refPrefix = request.refPrefix ∧ existing.width = width
      · rw [if_pos hpolicy]
        simp only [ensure_of hpolicy, ok_bind]
        exact ⟨rfl, rfl⟩
      · rw [if_neg hpolicy]
        simp only [ensure_of_not hpolicy, error_bind]
        exact ⟨⟨work, rfl⟩, .inl rfl⟩
  | none =>
      -- a new number, behind the insert of the counter row
      have hreplay : run (replay (fun _ => false) (ofRequest request width) none)
          ⟨.inCall committed work, events⟩ = (.ok none, ⟨.inCall committed work, events⟩) := rfl
      have hinsert : insertSequence (ofRequest request width) work = Sqlite.insertSequence work
          ⟨(counterKey request).1, (counterKey request).2, request.refPrefix, width, 0⟩ := rfl
      rw [hreplay]
      simp only
      rw [run_bind, Java.run_prepared, run_updated, hinsert]
      cases hinserted : Sqlite.insertSequence work
          ⟨(counterKey request).1, (counterKey request).2, request.refPrefix, width, 0⟩ with
      | error e =>
          rw [insertSequence_error hinserted]
          exact ⟨⟨work, rfl⟩, .inr ⟨rfl, rfl⟩⟩
      | ok db =>
          simp only [ok_bind]
          have hstate : (keyOf (ofRequest request width)).bind
              (Connection.inCall committed db).view.selectSequence =
                db.selectSequence (counterKey request) := rfl
          rw [run_bind, Java.run_prepared, run_queried, hstate]
          cases db.selectSequence (counterKey request) with
          | none => exact ⟨⟨db, rfl⟩, .inl rfl⟩
          | some state =>
              rw [run_readCurrent]
              by_cases hpolicy : state.refPrefix = request.refPrefix ∧ state.width = width
              · rw [if_pos hpolicy]
                simp only [ensure_of hpolicy, ok_bind]
                exact refines_room state.lastValue
              · rw [if_neg hpolicy]
                simp only [ensure_of_not hpolicy, error_bind]
                exact ⟨⟨db, rfl⟩, .inl rfl⟩

/-- What the handlers of the inner `try` leave of a failed transaction. -/
theorem run_handleInner {exception : Exception} {code : IdentifoldErrorCode}
    (h : exception = .completion code ∨ exception = .sql ∧ code = .allocationConflict) :
    run (handleInner (fun _ => false) exception : Script Session Exception Nat)
        ⟨.inCall committed work, events⟩ =
      (.error (.completion code), ⟨⟨committed, none, [.call]⟩, events ++ [.rollbackIssued]⟩) := by
  have hrollback : run (rollback (fun _ => false)) ⟨.inCall committed work, events⟩ =
      (.ok (), ⟨⟨committed, none, [.call]⟩, events ++ [.rollbackIssued]⟩) := by
    rw [rollback, run_tryCatch, run_prepared]
    rfl
  rcases h with rfl | ⟨rfl, rfl⟩
  · rw [handleInner, run_bind, hrollback]
    rfl
  · rw [handleInner, run_bind, hrollback]
    rfl

/-- **Refinement**: on an idle connection, with a driver that never throws, and
for a request without null, the Java adapter is the atomic `allocate`; a
failing call leaves the committed tables as they were, and no transaction
open. -/
theorem allocateSynchronously_refines (uuid : Text → Option MachineBytes) (db : Database)
    (request : Identifold.SequenceAllocationRequest) (width : Nat)
    (hwidth : request.width = .integer (width : Nat)) {machineId : MachineBytes}
    (hid : uuid request.machineId = some machineId)
    (hbytes : machineIdToBytes request.machineId = .ok machineId) :
    let result := run (allocateSynchronously (fun _ => false) (ofRequest request width) uuid)
      ⟨.handedOver db none, []⟩
    match Sqlite.allocate db request with
    | .ok (value, db') => result.1 = .ok value ∧ result.2.connection = .handedOver db' none
    | .error e => result.1 = .error (.completion e.code) ∧ result.2.connection.committed = db ∧
        result.2.connection.transaction = none := by
  have hconnection : (fun _ => false : Call → Bool) .getConnection = false := rfl
  have hbegin : run (beginImmediate fun _ => false) ⟨.handedOver db none, []⟩ =
      (.ok (), ⟨.inCall db db, [.began]⟩) :=
    run_beginImmediate (fun _ _ => rfl) rfl
  have hmachineId : machineIdBytes uuid (ofRequest request width).machineId = .ok machineId :=
    machineIdBytes_of_some hid
  have hinteger : (ofRequest request width).width = width := rfl
  simp only [allocateSynchronously, hinteger, hmachineId]
  by_cases hbounds : 4 ≤ width ∧ width ≤ 18
  · -- the transaction, behind its `BEGIN IMMEDIATE`
    have hatomic : Sqlite.allocate db request = allocateTransaction db request width := by
      rw [Sqlite.allocate, hwidth]
      simp only
      rw [if_pos (by omega), Int.toNat_natCast]
    rw [if_neg (by omega), hatomic, run_tryCatch, call_bind_of_false hconnection, run_withClose, run_bind,
      hbegin]
    simp only
    rw [run_tryCatch]
    have hrefines : RefinesAtomic db (run (transaction (fun _ => false) (ofRequest request width)
        (.ok machineId)) ⟨.inCall db db, [.began]⟩) (allocateTransaction db request width) :=
      transaction_refines hbytes
    cases hrun : run (transaction (fun _ => false) (ofRequest request width) (.ok machineId))
        ⟨.inCall db db, [.began]⟩ with
    | mk outcome t =>
        rw [hrun] at hrefines
        cases hcall : allocateTransaction db request width with
        | ok result =>
            rw [hcall] at hrefines
            obtain ⟨rfl, hconnection⟩ := hrefines
            exact ⟨rfl, hconnection⟩
        | error e =>
            -- the handler rolls back and keeps the code
            rw [hcall] at hrefines
            obtain ⟨⟨work, hwork⟩, houtcome⟩ := hrefines
            obtain ⟨connection, events⟩ := t
            subst hwork
            obtain ⟨exception, rfl, hexception⟩ : ∃ exception, outcome = .error exception ∧
                (exception = .completion e.code ∨
                  exception = .sql ∧ e.code = .allocationConflict) := by
              rcases houtcome with rfl | ⟨rfl, hcode⟩
              · exact ⟨_, rfl, .inl rfl⟩
              · exact ⟨_, rfl, .inr ⟨rfl, hcode⟩⟩
            simp only [run_handleInner hexception]
            exact ⟨rfl, rfl, rfl⟩
  · -- a width outside its bounds is refused before any statement
    have hatomic : Sqlite.allocate db request = .error invalidAllocationPolicy := by
      rw [Sqlite.allocate, hwidth]
      simp only
      rw [if_neg (by omega)]
    rw [if_pos (by omega), hatomic]
    exact ⟨rfl, rfl, rfl⟩

end Refine

end Java

end Sqlite

end Identifold
