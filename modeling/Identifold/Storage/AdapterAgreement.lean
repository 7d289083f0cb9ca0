import Identifold.Storage.PostgresAdapter
import Identifold.Storage.SqliteSchema

/-!
# Identifold.Storage.AdapterAgreement

The SQLite and the PostgreSQL adapters of the TypeScript package, call against
call on the same tables, where no other call is in flight.

The first allocates in a transaction of its own, the second in a function of the
server, under other `CHECK`s, after the casts of the query and with other error codes.
They return the same, number or error, and leave the same tables, except where a
value does not fit the type it is cast to: PostgreSQL reports an overflow for every
number outside `smallint`, and refuses texts with NUL.  So it is with their lookups.

* `allocateSequence_eq_sqlite` — the two transactions;
* `databaseAllocate_eq_sqlite`, `databaseReserve_eq_sqlite` — the calls around
  them.
-/

namespace Identifold

namespace Postgres

open Database

/-! ## serial calls -/

/-- `reserve` of `createDatabaseReferenceStore`. -/
def databaseReserve (driver : Driver) (db : Database) (reservation : ReferenceReservation) :
    Except IdentifoldError (Bool × Database) := do
  let answer : Except PgError (Bool × Database) := do
    let call ← reserveCall driver reservation
    reserveReference db call
  let (found, db') ← answer.mapError fun error => mapDatabaseError (.server error)
  let reserved ← readReserved (.ok [.boolean found])
  return (reserved, db')

/-- `allocate` of `createDatabaseSequenceAllocator`. -/
def databaseAllocate (driver : Driver) (db : Database) (request : SequenceAllocationRequest) :
    Except IdentifoldError (Nat × Database) := do
  let answer : Except PgError (Nat × Database) := do
    let call ← allocateCall driver request
    allocateSequence db call
  let (sequence, db') ← answer.mapError fun error => mapDatabaseError (.server error)
  let value ← readSequence (.ok [driver.int8 sequence])
  return (value.toNat, db')

section Serial

variable {driver : Driver} {db : Database}

/-- A reservation, by what the function of the server does. -/
theorem databaseReserve_eq {reservation : ReferenceReservation} {call : ReserveCall}
    (h : reserveCall driver reservation = .ok call) :
    databaseReserve driver db reservation =
      (reserveReference db call).mapError fun error => mapDatabaseError (.server error) := by
  simp only [databaseReserve, h, ok_bind]
  cases reserveReference db call <;> rfl

theorem databaseReserve_error {reservation : ReferenceReservation} {error : PgError}
    (h : reserveCall driver reservation = .error error) :
    databaseReserve driver db reservation = .error (mapDatabaseError (.server error)) := by
  simp only [databaseReserve, h, error_bind]
  rfl

/-- An allocation, by what the function of the server does. -/
theorem databaseAllocate_eq {request : SequenceAllocationRequest} {call : AllocateCall}
    (h : allocateCall driver request = .ok call) :
    databaseAllocate driver db request =
      (allocateSequence db call).mapError fun error => mapDatabaseError (.server error) := by
  simp only [databaseAllocate, h, ok_bind]
  cases allocateSequence db call with
  | error e => rfl
  | ok result =>
      simp only [Except.mapError, ok_bind, readSequence_int8, Int.toNat_natCast]
      rfl

theorem databaseAllocate_error {request : SequenceAllocationRequest} {error : PgError}
    (h : allocateCall driver request = .error error) :
    databaseAllocate driver db request = .error (mapDatabaseError (.server error)) := by
  simp only [databaseAllocate, h, error_bind]
  rfl

end Serial

/-! ## casts -/

/-- A request of a sequential policy, its width apart. -/
structure IsPolicyRequest (request : SequenceAllocationRequest) : Prop where
  machineId : IsMachineId request.machineId
  namespaceName : '\x00' ∉ request.namespaceName
  refPrefix : isReferencePrefix request.refPrefix = true
  scope : scopeCheck (request.scope.getD []) = true

/-- The call of the function for a request, with its stored machine identifier. -/
def requestCall (request : SequenceAllocationRequest) (machineId : MachineBytes) (width : Int) :
    AllocateCall :=
  ⟨machineId, request.namespaceName, request.refPrefix, request.scope, width⟩

section Casts

variable {request : SequenceAllocationRequest}

theorem nul_not_mem_of_digits {v : Text} (h : isFourDigits v = true) : '\x00' ∉ v := by
  intro hnul
  simp only [isFourDigits, Bool.and_eq_true, List.all_eq_true] at h
  have hdigit := h.2 _ hnul
  contradiction

theorem nul_not_mem_of_scopeCheck {v : Text} (h : scopeCheck v = true) : '\x00' ∉ v := by
  simp only [scopeCheck, Bool.or_eq_true, decide_eq_true_eq] at h
  rcases h with rfl | h
  · simp
  · exact nul_not_mem_of_digits h

theorem nul_not_mem_of_isReferencePrefix {v : Text} (h : isReferencePrefix v = true) :
    '\x00' ∉ v := by
  intro hnul
  simp only [isReferencePrefix, Bool.and_eq_true, List.all_eq_true] at h
  have hupper := h.2 _ hnul
  contradiction

/-- All arguments of such a request pass their casts, save the width. -/
theorem IsPolicyRequest.allocateCall (h : IsPolicyRequest request) (driver : Driver) :
    ∃ machineId, machineIdToBytes request.machineId = .ok machineId ∧
      allocateCall driver request =
        (castSmallint request.width).map (requestCall request machineId) := by
  obtain ⟨machineId, hbytes, hin⟩ := driver.uuidIn_of_isMachineId h.machineId
  refine ⟨machineId, hbytes, ?_⟩
  have huuid : castUuid driver request.machineId = .ok machineId := by
    rw [castUuid, hin]
  have hscope : request.scope.mapM castText = .ok request.scope := by
    have hcheck := h.scope
    cases hsome : request.scope with
    | none => rfl
    | some scope =>
        rw [hsome, Option.getD_some] at hcheck
        rw [Option.mapM_some, castText_of_not_mem (nul_not_mem_of_scopeCheck hcheck)]
        rfl
  rw [Postgres.allocateCall, huuid, ok_bind, castText_of_not_mem h.namespaceName, ok_bind,
    castText_of_not_mem (nul_not_mem_of_isReferencePrefix h.refPrefix), ok_bind, hscope, ok_bind]
  cases castSmallint request.width <;> rfl

end Casts

/-! ## allocations -/

section Allocate

variable {driver : Driver} {db : Database} {request : SequenceAllocationRequest}
  {machineId : MachineBytes} {width : Nat}

/-- The `CHECK`s of both engines pass the counter row of a policy. -/
theorem IsPolicyRequest.counter_checks (h : IsPolicyRequest request)
    (hwidth : 4 ≤ width ∧ width ≤ 18)
    (machineId : MachineBytes) :
    sequenceChecks ((requestCall request machineId width).counter 0) = true ∧
      ((requestCall request machineId width).counter 0).sqliteChecks = true := by
  have hscope := h.scope
  have hpre := h.refPrefix
  have hscope' := Sqlite.cString_eq_self (nul_not_mem_of_scopeCheck hscope)
  have hpre' := Sqlite.cString_eq_self (nul_not_mem_of_isReferencePrefix hpre)
  simp only [scopeCheck, isFourDigits, Bool.or_eq_true, Bool.and_eq_true, decide_eq_true_eq]
    at hscope
  simp only [isReferencePrefix, Bool.and_eq_true, decide_eq_true_eq] at hpre
  have hrow : (requestCall request machineId width).counter 0 =
      ⟨request.namespaceName, request.scope.getD [], request.refPrefix, width, 0⟩ := rfl
  rw [hrow]
  constructor
  · simp only [sequenceChecks, h.scope, h.refPrefix, Bool.true_and, Bool.and_eq_true,
      decide_eq_true_eq]
    exact ⟨hwidth, Nat.pow_pos (by decide)⟩
  · simp only [SequenceRow.sqliteChecks, hscope', hpre', Bool.and_eq_true, Bool.or_eq_true,
      decide_eq_true_eq]
    exact ⟨⟨hscope, hpre⟩, hwidth⟩

/-- A policy is the same to both. -/
theorem hasPolicy_requestCall_iff (refPrefix : Text) (stored : Nat) :
    (requestCall request machineId width).hasPolicy refPrefix stored ↔
      refPrefix = request.refPrefix ∧ stored = width := by
  rw [AllocateCall.hasPolicy]
  exact and_congr_right fun _ => Int.ofNat_inj

/-- The last statement, with the number it returns. -/
theorem insertAllocation_eq_sqlite {row : AllocationRow} (hid : row.machineId.length = 16)
    (hwidth : 4 ≤ row.width ∧ row.width ≤ 18) (hchecks : allocationChecks row = true)
    (hcounter : (db.selectSequence row.key).isSome = true) {n : Nat} :
    (insertAllocation db row >>= fun db => pure (n, db)).mapError
        (fun error => mapDatabaseError (.server error)) =
      (Sqlite.insertAllocation db row >>= fun db => pure (n, db)) := by
  have hsqlite : row.sqliteChecks = true := by
    simp only [AllocationRow.sqliteChecks, Bool.and_eq_true, decide_eq_true_eq]
    exact ⟨hid, hwidth⟩
  rw [insertAllocation, ensure_of hchecks, ok_bind, Sqlite.insertAllocation, ensure_of hsqlite,
    ok_bind]
  by_cases hfresh : db.allocationConflicts row = false
  · rw [ensure_of hfresh, ensure_of hfresh, ok_bind, ok_bind, ensure_of hcounter]
    rfl
  · rw [ensure_of_not hfresh, ensure_of_not hfresh]
    rfl

theorem widthInRange_requestCall (hwidth : 4 ≤ width ∧ width ≤ 18) :
    (requestCall request machineId width).widthInRange := by
  change (4 : Int) ≤ width ∧ (width : Int) ≤ 18
  omega

/-- The transactions agree where the machine identifier has a number. -/
theorem replay_eq_sqlite (hbytes : machineIdToBytes request.machineId = .ok machineId)
    (hwidth : 4 ≤ width ∧ width ≤ 18) {existing : AllocationRow}
    (hselect : db.selectAllocation (Sqlite.counterKey request) machineId = some existing) :
    (allocateSequence db (requestCall request machineId width)).mapError
        (fun error => mapDatabaseError (.server error)) =
      Sqlite.allocateTransaction db request width := by
  have hrange : (requestCall request machineId width).widthInRange :=
    widthInRange_requestCall hwidth
  simp only [Sqlite.allocateTransaction, hbytes, ok_bind, hselect]
  by_cases hpolicy : existing.refPrefix = request.refPrefix ∧ existing.width = width
  · have hreplay : replay db (requestCall request machineId width) =
        .ok (some existing.sequence) := by
      rw [replay_of_some hrange hselect, if_pos ((hasPolicy_requestCall_iff _ _).mpr hpolicy)]
    rw [ensure_of hpolicy, allocateSequence_of_replay hreplay]
    rfl
  · rw [ensure_of_not hpolicy, allocateSequence_of_mismatch hrange hselect
      (fun hsame => hpolicy ((hasPolicy_requestCall_iff _ _).mp hsame))]
    rfl

/-- The transactions agree on the next number, once the counter row of the call is there. -/
theorem nextNumber_eq_sqlite (h : IsPolicyRequest request)
    (hbytes : machineIdToBytes request.machineId = .ok machineId)
    (hwidth : 4 ≤ width ∧ width ≤ 18) {last : Nat}
    (hstate : db.selectSequence (Sqlite.counterKey request) =
      some ((requestCall request machineId width).counter last)) :
    (do
        ensure (last < maximumValue width) sequenceOverflow
        let db ← updateSequence db (Sqlite.counterKey request) (last + 1)
        let db ← insertAllocation db
          ((requestCall request machineId width).allocation (last + 1))
        return (last + 1, db) : Except PgError (Nat × Database)).mapError
        (fun error => mapDatabaseError (.server error)) =
      (do
        ensure (last < 10 ^ width - 1) Identifold.sequenceOverflow
        let db ← Sqlite.insertAllocation (db.setLastValue (Sqlite.counterKey request) (last + 1))
          ((requestCall request machineId width).allocation (last + 1))
        return (last + 1, db)) := by
  have hchecks := (h.counter_checks hwidth machineId).1
  have hmaximum : last < maximumValue width ↔ last < 10 ^ width - 1 := Iff.rfl
  by_cases hroom : last < 10 ^ width - 1
  · have hupdate : updateSequence db (Sqlite.counterKey request) (last + 1) =
        .ok (db.setLastValue (Sqlite.counterKey request) (last + 1)) :=
      updateSequence_counter hchecks hstate (lt_of_lt_maximumValue (hmaximum.mpr hroom))
    have hcounter : ((db.setLastValue (Sqlite.counterKey request)
        (last + 1)).selectSequence (Sqlite.counterKey request)).isSome = true := by
      rw [selectSequence_setLastValue, hstate]
      rfl
    rw [ensure_of hroom, ensure_of (hmaximum.mpr hroom), ok_bind, ok_bind, hupdate, ok_bind]
    exact insertAllocation_eq_sqlite (length_of_machineIdToBytes hbytes) hwidth
      (allocationChecks_allocation hchecks _) hcounter
  · rw [ensure_of_not hroom, ensure_of_not fun hlt => hroom (hmaximum.mp hlt)]
    rfl

/-- **The transactions agree**, on any tables: number or error, and what they leave. -/
theorem allocateSequence_eq_sqlite (h : IsPolicyRequest request)
    (hbytes : machineIdToBytes request.machineId = .ok machineId)
    (hwidth : 4 ≤ width ∧ width ≤ 18) :
    (allocateSequence db (requestCall request machineId width)).mapError
        (fun error => mapDatabaseError (.server error)) =
      Sqlite.allocateTransaction db request width := by
  obtain ⟨hchecks, hsqlite⟩ := h.counter_checks hwidth machineId
  have hrange : (requestCall request machineId width).widthInRange :=
    widthInRange_requestCall hwidth
  cases hselect : db.selectAllocation (Sqlite.counterKey request) machineId with
  | some existing => exact replay_eq_sqlite hbytes hwidth hselect
  | none =>
      -- both insert the counter row where there is none, and read it back
      have hreplay := replay_of_none hrange hselect
      have hinsert : Sqlite.insertSequence db
          ((requestCall request machineId width).counter 0) =
            .ok (db.ensureSequence ((requestCall request machineId width).counter 0)) := by
        rw [Sqlite.insertSequence, ensure_of hsqlite]
        rfl
      have hrow : (⟨(Sqlite.counterKey request).1, (Sqlite.counterKey request).2,
          request.refPrefix, width, 0⟩ : SequenceRow) =
            (requestCall request machineId width).counter 0 := rfl
      simp only [Sqlite.allocateTransaction, hbytes, hselect, hrow, hinsert, ok_bind]
      cases hstate : (db.ensureSequence
          ((requestCall request machineId width).counter 0)).selectSequence
            (Sqlite.counterKey request) with
      | none =>
          rw [allocateSequence_of_definition hreplay hchecks (lockSequence_of_none hstate)]
          rfl
      | some state =>
          dsimp only
          -- PostgreSQL compares the policy under its lock
          by_cases hpolicy : state.refPrefix = request.refPrefix ∧ state.width = width
          · have hown : state = (requestCall request machineId width).counter state.lastValue :=
              AllocateCall.eq_counter (selectSequence_facts hstate).2
                ((hasPolicy_requestCall_iff _ _).mpr hpolicy)
            have hcounter := hstate.trans (congrArg some hown)
            have hlock := lockSequence_counter hrange hcounter
            have hnone : (db.ensureSequence
                ((requestCall request machineId width).counter 0)).selectAllocation
                  (requestCall request machineId width).key
                  (requestCall request machineId width).machineId = none :=
              (selectAllocation_ensureSequence _ _ _).trans hselect
            rw [ensure_of hpolicy, ok_bind, allocateSequence, hreplay]
            simp only [ok_bind, insertSequence_of_checks hchecks, hlock, hnone]
            exact nextNumber_eq_sqlite h hbytes hwidth hcounter
          · have hlock : lockSequence (db.ensureSequence
                ((requestCall request machineId width).counter 0))
                (requestCall request machineId width) = .error definitionMismatch := by
              rw [lockSequence_of_some hstate,
                if_neg (fun hsame => hpolicy ((hasPolicy_requestCall_iff _ _).mp hsame))]
            rw [ensure_of_not hpolicy, allocateSequence_of_definition hreplay hchecks hlock]
            rfl

/-- A width in the range of a policy is a `smallint`. -/
theorem castSmallint_of_range {n : Int} (h : -32768 ≤ n ∧ n ≤ 32767) :
    castSmallint (.integer n) = .ok n := by
  have hsize : n.natAbs < 10 ^ 21 := by omega
  rw [castSmallint, if_pos hsize, ensure_of h]
  rfl

/-- The error of a width that is no `smallint`. -/
theorem castSmallint_error {n : Int} (h : ¬ (-32768 ≤ n ∧ n ≤ 32767)) :
    ∃ error, castSmallint (.integer n) = .error error ∧
      mapDatabaseError (.server error) ≠ invalidAllocationPolicy := by
  rw [castSmallint]
  split
  · rw [ensure_of_not h]
    exact ⟨_, rfl, by decide⟩
  · exact ⟨_, rfl, by decide⟩

/-- **Allocations** of the two adapters, where the width is a `smallint`. -/
theorem databaseAllocate_eq_sqlite (h : IsPolicyRequest request) {n : Int}
    (hwidth : request.width = .integer n) (hrange : -32768 ≤ n ∧ n ≤ 32767) :
    databaseAllocate driver db request = Sqlite.allocate db request := by
  obtain ⟨machineId, hbytes, hcall⟩ := h.allocateCall driver
  rw [hwidth, castSmallint_of_range hrange] at hcall
  rw [databaseAllocate_eq hcall, Sqlite.allocate, hwidth]
  dsimp only
  by_cases hbounds : 4 ≤ n ∧ n ≤ 18
  · obtain ⟨width, rfl⟩ := Int.eq_ofNat_of_zero_le (by omega : 0 ≤ n)
    rw [if_pos hbounds, allocateSequence_eq_sqlite h hbytes (by omega)]
    rfl
  · have hreplay : replay db (requestCall request machineId n) = .error invalidWidth := by
      have hrefused : ¬ (requestCall request machineId n).widthInRange := hbounds
      rw [replay, ensure_of_not hrefused]
      rfl
    rw [if_neg hbounds, allocateSequence_of_replay_error hreplay]
    rfl

/-- The two adapters allocate alike exactly where the width is a `smallint`. -/
theorem databaseAllocate_eq_sqlite_iff (h : IsPolicyRequest request) :
    databaseAllocate driver db request = Sqlite.allocate db request ↔
      ∃ n : Int, request.width = .integer n ∧ -32768 ≤ n ∧ n ≤ 32767 := by
  constructor
  · intro heq
    obtain ⟨machineId, -, hcall⟩ := h.allocateCall driver
    cases hwidth : request.width with
    | other =>
        rw [hwidth] at hcall
        rw [databaseAllocate_error hcall, Sqlite.allocate, hwidth] at heq
        exact absurd (Except.error.inj heq) (by decide)
    | integer n =>
        refine ⟨n, rfl, ?_⟩
        by_contra hrange
        obtain ⟨error, hcast, hne⟩ := castSmallint_error hrange
        rw [hwidth, hcast] at hcall
        have hbounds : ¬ (4 ≤ n ∧ n ≤ 18) := by omega
        rw [databaseAllocate_error hcall, Sqlite.allocate, hwidth] at heq
        dsimp only at heq
        rw [if_neg hbounds] at heq
        exact hne (Except.error.inj heq)
  · rintro ⟨n, hwidth, hrange⟩
    exact databaseAllocate_eq_sqlite h hwidth hrange

end Allocate

/-! ## reservations -/

section Reserve

variable {driver : Driver} {db : Database} {reservation : ReferenceReservation}

theorem nul_not_mem_of_isPublicPrefix {v : Text} (h : isPublicPrefix v = true) : '\x00' ∉ v := by
  intro hnul
  simp only [isPublicPrefix, isTypeIdPrefix, Bool.and_eq_true, List.all_eq_true] at h
  have hsymbol := h.2.2 _ hnul
  contradiction

/-- All arguments of such a reservation pass their casts, where the reference holds no NUL. -/
theorem reserveCall_of_no_nul (driver : Driver) (hmid : IsMachineId reservation.machineId)
    (hname : isPublicPrefix reservation.namespaceName = true)
    (hnul : '\x00' ∉ reservation.reference) :
    ∃ machineId, machineIdToBytes reservation.machineId = .ok machineId ∧
      reserveCall driver reservation =
        .ok ⟨machineId, reservation.namespaceName, reservation.reference⟩ := by
  obtain ⟨machineId, hbytes, hin⟩ := driver.uuidIn_of_isMachineId hmid
  refine ⟨machineId, hbytes, ?_⟩
  simp only [reserveCall, castUuid, hin, ok_bind,
    castText_of_not_mem (nul_not_mem_of_isPublicPrefix hname), castText_of_not_mem hnul]
  rfl

/-- For a registered namespace the `CHECK`s of both engines test the length of the reference. -/
theorem referenceChecks_eq_sqliteChecks (row : ReferenceRow)
    (hname : isPublicPrefix row.namespaceName = true) (hid : row.machineId.length = 16) :
    referenceChecks row = (decide (4 ≤ utf8Length row.reference) &&
        decide (utf8Length row.reference ≤ 100)) ∧
      row.sqliteChecks = referenceChecks row := by
  have hchecks : referenceChecks row = (decide (4 ≤ utf8Length row.reference) &&
      decide (utf8Length row.reference ≤ 100)) := by
    rw [referenceChecks, hname, Bool.true_and]
  refine ⟨hchecks, ?_⟩
  have hcstring := Sqlite.cString_eq_self (nul_not_mem_of_isPublicPrefix hname)
  rw [hchecks, ReferenceRow.sqliteChecks, hcstring, hid]
  cases hlist : row.namespaceName with
  | nil =>
      rw [hlist] at hname
      contradiction
  | cons c rest =>
      rw [hlist] at hname
      simp only [isPublicPrefix, isTypeIdPrefix, Bool.and_eq_true, decide_eq_true_eq,
        List.head?_cons, Option.all_some] at hname
      obtain ⟨-, ⟨⟨hlength, hlower⟩, -⟩, -⟩ := hname
      rw [List.length_cons] at hlength
      have hrest : rest.length < 63 := by omega
      simp [hlower, hrest]

theorem insertReference_of_checks {row : ReferenceRow} (h : row.sqliteChecks = true) :
    Sqlite.insertReference db row =
      .ok (if db.referenceConflicts row then (0, db) else (1, db.addReference row)) := by
  rw [Sqlite.insertReference, ensure_of h]
  rfl

theorem insertReference_of_unchecked {row : ReferenceRow} (h : row.sqliteChecks = false) :
    Sqlite.insertReference db row = .error databaseError := by
  rw [Sqlite.insertReference, ensure_of_not (by simp [h])]
  rfl

/-- A reservation of SQLite, by the insert of its row. -/
theorem sqliteReserve_eq {machineId : MachineBytes}
    (hbytes : machineIdToBytes reservation.machineId = .ok machineId) :
    Sqlite.reserve db reservation =
      (Sqlite.insertReference db ⟨reservation.reference, reservation.namespaceName, machineId⟩).map
        fun (changes, db') => (decide (changes = 1), db') := by
  simp only [Sqlite.reserve, hbytes, ok_bind]
  cases Sqlite.insertReference db ⟨reservation.reference, reservation.namespaceName, machineId⟩ <;>
    rfl

/-- **Reservations** of the two adapters, where the reference holds no NUL. -/
theorem databaseReserve_eq_sqlite (hmid : IsMachineId reservation.machineId)
    (hname : isPublicPrefix reservation.namespaceName = true)
    (hnul : '\x00' ∉ reservation.reference) :
    databaseReserve driver db reservation = Sqlite.reserve db reservation := by
  obtain ⟨machineId, hbytes, hcall⟩ := reserveCall_of_no_nul driver hmid hname hnul
  obtain ⟨-, hchecks⟩ := referenceChecks_eq_sqliteChecks
    (ReserveCall.row ⟨machineId, reservation.namespaceName, reservation.reference⟩) hname
    (length_of_machineIdToBytes hbytes)
  rw [databaseReserve_eq hcall, sqliteReserve_eq hbytes]
  have hrow : (⟨reservation.reference, reservation.namespaceName, machineId⟩ : ReferenceRow) =
      ReserveCall.row ⟨machineId, reservation.namespaceName, reservation.reference⟩ := rfl
  rw [hrow]
  cases hpass : referenceChecks
      (ReserveCall.row ⟨machineId, reservation.namespaceName, reservation.reference⟩) with
  | true =>
      rw [reserveReference_of_checks hpass, insertReference_of_checks (hchecks.trans hpass)]
      split <;> rfl
  | false =>
      rw [reserveReference_of_unchecked hpass, insertReference_of_unchecked (hchecks.trans hpass)]
      rfl

/-- The two adapters reserve alike exactly where the reference holds no NUL, or has a length that
neither stores. -/
theorem databaseReserve_eq_sqlite_iff (hmid : IsMachineId reservation.machineId)
    (hname : isPublicPrefix reservation.namespaceName = true) :
    databaseReserve driver db reservation = Sqlite.reserve db reservation ↔
      '\x00' ∉ reservation.reference ∨
        ¬ (4 ≤ utf8Length reservation.reference ∧ utf8Length reservation.reference ≤ 100) := by
  by_cases hnul : '\x00' ∉ reservation.reference
  · exact ⟨fun _ => .inl hnul, fun _ => databaseReserve_eq_sqlite hmid hname hnul⟩
  obtain ⟨machineId, hbytes, hin⟩ := driver.uuidIn_of_isMachineId hmid
  have hcall : reserveCall driver reservation =
      .error ⟨"22021", "invalid byte sequence for encoding \"UTF8\": 0x00"⟩ := by
    simp only [reserveCall, castUuid, hin, ok_bind,
      castText_of_not_mem (nul_not_mem_of_isPublicPrefix hname), castText_of_mem (not_not.mp hnul)]
    rfl
  obtain ⟨hlength, hchecks⟩ := referenceChecks_eq_sqliteChecks
    (ReserveCall.row ⟨machineId, reservation.namespaceName, reservation.reference⟩) hname
    (length_of_machineIdToBytes hbytes)
  rw [databaseReserve_error hcall, sqliteReserve_eq hbytes, or_iff_right hnul]
  by_cases hpass : 4 ≤ utf8Length reservation.reference ∧ utf8Length reservation.reference ≤ 100
  · have hstored : ReferenceRow.sqliteChecks
        ⟨reservation.reference, reservation.namespaceName, machineId⟩ = true := by
      refine hchecks.trans (hlength.trans ?_)
      rw [Bool.and_eq_true, decide_eq_true_eq, decide_eq_true_eq]
      exact hpass
    rw [insertReference_of_checks hstored]
    exact ⟨fun heq => by contradiction, fun hnot => absurd hpass hnot⟩
  · have hrefused : ReferenceRow.sqliteChecks
        ⟨reservation.reference, reservation.namespaceName, machineId⟩ = false := by
      refine hchecks.trans (hlength.trans ?_)
      rw [Bool.eq_false_iff, ne_eq, Bool.and_eq_true, decide_eq_true_eq, decide_eq_true_eq]
      exact hpass
    rw [insertReference_of_unchecked hrefused]
    exact ⟨fun _ => hpass, fun _ => rfl⟩

end Reserve

/-! ## lookups -/

section Lookup

variable {db : Database}

/-- Over machine identifiers of 16 bytes no lookup of SQLite fails. -/
theorem lookup_ne_error (hids : HoldsUuids db) (reference namespaceName : Text)
    (error : IdentifoldError) : Sqlite.lookup db reference namespaceName ≠ .error error := by
  unfold Sqlite.lookup
  split
  · rename_i random hrandom
    have hid := hids.references random (List.mem_of_find?_eq_some hrandom)
    rw [bytesToMachineId, if_pos hid]
    simp
  · split
    · simp
    · split
      · simp
      · rename_i sequential hrow
        have hid := hids.allocations sequential (List.mem_of_find?_eq_some hrow)
        rw [bytesToMachineId, if_pos hid]
        simp

/-- The two adapters look up alike exactly the texts without NUL. -/
theorem databaseLookup_eq_sqlite_iff (hdb : db.Consistent) (hids : HoldsUuids db)
    (reference namespaceName : Text) :
    databaseLookup db reference namespaceName = Sqlite.lookup db reference namespaceName ↔
      '\x00' ∉ reference ∧ '\x00' ∉ namespaceName := by
  rw [databaseLookup_eq hdb hids, ← not_or]
  by_cases hnul : '\x00' ∈ reference ∨ '\x00' ∈ namespaceName
  · rw [if_pos hnul]
    exact iff_of_false (lookup_ne_error hids reference namespaceName databaseError).symm
      (not_not.mpr hnul)
  · rw [if_neg hnul]
    exact iff_of_true rfl hnul

end Lookup

/-- **The adapters agree**: on the same tables, whatever they hold, PostgreSQL answers a
request of a sequential policy as SQLite does, and leaves what SQLite leaves, if and
only if its width is a `smallint`; and a reservation in a registered namespace, unless
its reference holds a NUL and would else be stored.  On consistent tables it looks up
the texts without NUL as SQLite does, and refuses the others. -/
theorem adapters_agree_iff (driver : Driver) (db : Database) :
    (∀ request, IsPolicyRequest request →
      (databaseAllocate driver db request = Sqlite.allocate db request ↔
        ∃ n : Int, request.width = .integer n ∧ -32768 ≤ n ∧ n ≤ 32767)) ∧
    (∀ reservation : ReferenceReservation, IsMachineId reservation.machineId →
      isPublicPrefix reservation.namespaceName = true →
      (databaseReserve driver db reservation = Sqlite.reserve db reservation ↔
        '\x00' ∉ reservation.reference ∨
          ¬ (4 ≤ utf8Length reservation.reference ∧ utf8Length reservation.reference ≤ 100))) ∧
    (db.Consistent → HoldsUuids db → ∀ reference namespaceName,
      (databaseLookup db reference namespaceName = Sqlite.lookup db reference namespaceName ↔
        '\x00' ∉ reference ∧ '\x00' ∉ namespaceName)) :=
  ⟨fun _ h => databaseAllocate_eq_sqlite_iff h,
    fun _ hmid hname => databaseReserve_eq_sqlite_iff hmid hname,
    fun hdb hids reference namespaceName =>
      databaseLookup_eq_sqlite_iff hdb hids reference namespaceName⟩

/-- A sequential policy with a width that both read, and with one that only PostgreSQL takes
for an overflow; a reference that was allocated, and one with a NUL. -/
theorem adapters_agree_iff_sample :
    let request : SequenceAllocationRequest := ⟨"019f0000-0000-7000-8000-000000000001".toList,
      "invoice".toList, "INV".toList, some "2026".toList, .integer 8⟩
    let wide := { request with width := .integer 40000 }
    let db := (Transition.play Sqlite.exec Database.empty [.allocate request]).2
    databaseAllocate textDriver db request = Sqlite.allocate db request ∧
      databaseAllocate textDriver db wide ≠ Sqlite.allocate db wide ∧
      databaseLookup db "INV-2026-00000001-X".toList "invoice".toList =
        .ok (some ⟨request.machineId, "invoice".toList⟩) ∧
      databaseLookup db ['\x00'] "invoice".toList ≠ .ok none := by
  intro request wide db
  have hmid : IsMachineId request.machineId :=
    (parseMachineId_ok_iff.mp (by decide : parseMachineId asciiCaseMapping rfc9562
      request.machineId = .ok request.machineId)).1
  have hrequest : IsPolicyRequest request := ⟨hmid, by decide, by decide, by decide⟩
  have hwide : IsPolicyRequest wide := ⟨hmid, by decide, by decide, by decide⟩
  have hdb : db.Consistent := (Sqlite.run_recorded (Transition.Run.of_play _ _ _)).1
  have hids : HoldsUuids db := ⟨by decide, by decide⟩
  obtain ⟨hallocate, -, hlookup⟩ := adapters_agree_iff textDriver db
  refine ⟨(hallocate request hrequest).mpr ⟨8, rfl, by decide⟩, fun heq => ?_, ?_, fun heq => ?_⟩
  · obtain ⟨n, hn, hrange⟩ := (hallocate wide hwide).mp heq
    obtain rfl : 40000 = n := JsNumber.integer.inj hn
    omega
  · rw [(hlookup hdb hids _ _).mpr (by decide)]
    decide
  · have hsame : databaseLookup db ['\x00'] "invoice".toList =
        Sqlite.lookup db ['\x00'] "invoice".toList := by
      rw [heq]
      decide
    exact absurd ((hlookup hdb hids _ _).mp hsame).1 (by decide)

end Postgres

end Identifold
