import Identifold.Storage.PostgresStorage
import Identifold.Storage.SequentialSplit
import Identifold.Storage.SqliteLaw

/-!
# Identifold.Storage.PostgresAdapter

The adapters of `packages/typescript/src/database.ts`: what they send to
PostgreSQL, and how they read what it answers.  A lookup is one call of
`identifold_resolve_reference`
(`integrations/postgres/migrations/004_reference_lookup.up.sql`), which sees the
committed tables as they are when it starts.

`databaseLookup_eq` compares that function with the lookup of the SQLite adapter:
on the tables of either the two find the same.
-/

namespace Identifold

namespace Postgres

open Database Rows

/-! ## the driver -/

/-- What the adapters take from outside: the input of the type `uuid`, and how the
driver reads an `int8`. -/
structure Driver where
  /-- `$1::uuid`. -/
  uuidIn : Text → Option MachineBytes
  /-- The standard form is one of the input forms. -/
  uuidIn_standard : ∀ bytes : MachineBytes, bytes.length = 16 →
    uuidIn (formatUuid (hexEncode bytes)) = some bytes
  /-- A `uuid` has 16 bytes. -/
  uuidIn_length : ∀ text bytes, uuidIn text = some bytes → bytes.length = 16
  int8 : Nat → SqlValue
  /-- An `int8` is read as its digits, or by a parser that makes it a `bigint`. -/
  int8_read : ∀ n, int8 n = .string (Nat.toDigits 10 n) ∨ int8 n = .bigint n

/-- What a query throws: an error of the server, or the loss of the connection. -/
inductive QueryError
  | server (error : PgError)
  | connection
  deriving DecidableEq, Repr

/-- `mapDatabaseError`, of an error that is no `IdentifoldError`. -/
def mapDatabaseError : QueryError → IdentifoldError
  | .connection => databaseError
  | .server error =>
      if error.errcode = "22003" then Identifold.sequenceOverflow
      else if error.errcode = "22023" then invalidAllocationPolicy
      else databaseError

/-! ## arguments -/

/-- `$2::text`: a `text` holds no NUL. -/
def castText (value : Text) : Except PgError Text := do
  ensure ('\x00' ∉ value) ⟨"22021", "invalid byte sequence for encoding \"UTF8\": 0x00"⟩
  return value

/-- `$1::uuid`. -/
def castUuid (driver : Driver) (value : Text) : Except PgError MachineBytes :=
  match driver.uuidIn value with
  | some bytes => .ok bytes
  | none => .error ⟨"22P02", "invalid input syntax for type uuid"⟩

/-- `$5::smallint`, of a number that the driver has written out; from `1e21` on it writes an
exponent. -/
def castSmallint : JsNumber → Except PgError Int
  | .integer n =>
      if n.natAbs < 10 ^ 21 then do
        ensure (-32768 ≤ n ∧ n ≤ 32767) ⟨"22003", "value is out of range for type smallint"⟩
        return n
      else .error ⟨"22P02", "invalid input syntax for type smallint"⟩
  | .other => .error ⟨"22P02", "invalid input syntax for type smallint"⟩

/-- The arguments of `RESERVE_REFERENCE_SQL`. -/
def reserveCall (driver : Driver) (reservation : ReferenceReservation) :
    Except PgError ReserveCall := do
  let machineId ← castUuid driver reservation.machineId
  let namespaceName ← castText reservation.namespaceName
  let reference ← castText reservation.reference
  return ⟨machineId, namespaceName, reference⟩

/-- The arguments of `ALLOCATE_SEQUENCE_SQL`; a scope of `null` is `NULL`. -/
def allocateCall (driver : Driver) (request : SequenceAllocationRequest) :
    Except PgError AllocateCall := do
  let machineId ← castUuid driver request.machineId
  let namespaceName ← castText request.namespaceName
  let refPrefix ← castText request.refPrefix
  let scope ← request.scope.mapM castText
  let width ← castSmallint request.width
  return ⟨machineId, namespaceName, refPrefix, scope, width⟩

/-! ## answers -/

/-- The error of a transaction that is aborted from outside. -/
def adminShutdown : PgError :=
  ⟨"57P01", "terminating connection due to administrator command"⟩

/-- The rows of a reservation: the column `reserved`. -/
def ReserveResult.answer : ReserveResult → Except QueryError (List SqlValue)
  | .returned found => .ok [.boolean found]
  | .failed error => .error (.server error)
  | .aborted => .error (.server adminShutdown)

/-- The rows of an allocation: the column `sequence`. -/
def Result.answer (driver : Driver) : Result → Except QueryError (List SqlValue)
  | .returned sequence => .ok [driver.int8 sequence]
  | .failed error => .error (.server error)
  | .aborted => .error (.server adminShutdown)

/-- `reserve` of `createDatabaseReferenceStore`, once the query is answered. -/
def readReserved (answer : Except QueryError (List SqlValue)) : Except IdentifoldError Bool := do
  let rows ← answer.mapError mapDatabaseError
  match rows.head? with
  | some (.boolean reserved) => return reserved
  | _ => throw ⟨.allocationConflict, "Reference reservation returned an invalid result"⟩

/-- `allocate` of `createDatabaseSequenceAllocator`, once the query is answered. -/
def readSequence (answer : Except QueryError (List SqlValue)) : Except IdentifoldError Int := do
  let rows ← answer.mapError mapDatabaseError
  match rows.head?.bind SqlValue.sequence? with
  | some value => return value
  | none => throw ⟨.allocationConflict, "Sequence allocation returned an invalid result"⟩

/-! ## lookups -/

/-- `identifold_resolve_reference`: the rows of its first query, and where it has none, of its
second. -/
def resolveReference (db : Database) (requestedReference requestedNamespace : Text) :
    Except PgError (List (MachineBytes × Text)) := do
  let stored := db.references.filter fun r =>
    decide (r.reference = requestedReference) && decide (r.namespaceName = requestedNamespace)
  if stored ≠ [] then
    return stored.map fun r => (r.machineId, r.namespaceName)
  else
    match ← requestedParts requestedReference with
    | none => return []
    | some parts =>
        let allocations := db.allocations.filter fun r =>
          decide (r.namespaceName = requestedNamespace) &&
            decide (r.ownerKey = ((parts.refPrefix, parts.scope), parts.sequence))
        return allocations.map fun r => (r.machineId, r.namespaceName)

/-- `createDatabaseReferenceLookup`; `resolved_machine_id::text` is the standard form. -/
def databaseLookup (db : Database) (reference namespaceName : Text) :
    Except IdentifoldError (Option ReferenceLookupResult) :=
  let answer := do
    let reference ← castText reference
    let namespaceName ← castText namespaceName
    resolveReference db reference namespaceName
  match answer with
  | .error error => .error (mapDatabaseError (.server error))
  | .ok [] => .ok none
  | .ok [(machineId, resolvedNamespace)] =>
      .ok (some ⟨formatUuid (hexEncode machineId), resolvedNamespace⟩)
  | .ok _ => .error ⟨.allocationConflict, "Reference lookup returned an invalid result"⟩

/-! ## reading a number -/

/-- An `int8` is read back, whichever way the driver returns it. -/
theorem readSequence_int8 (driver : Driver) (n : Nat) :
    readSequence (.ok [driver.int8 n]) = .ok (n : Nat) := by
  have hread : (driver.int8 n).sequence? = some (n : Int) := by
    rcases driver.int8_read n with h | h
    · rw [h, sequence?_toDigits]
    · rw [h]
      rfl
  simp only [readSequence, Except.mapError, ok_bind, List.head?_cons, Option.bind_some, hread]
  rfl

theorem castText_of_not_mem {value : Text} (h : '\x00' ∉ value) : castText value = .ok value := by
  rw [castText, ensure_of h]
  rfl

theorem castText_of_mem {value : Text} (h : '\x00' ∈ value) :
    castText value = .error ⟨"22021", "invalid byte sequence for encoding \"UTF8\": 0x00"⟩ := by
  rw [castText, ensure_of_not (not_not.mpr h)]
  rfl

/-! ## passed casts -/

section Casts

variable {driver : Driver}

/-- A canonical machine identifier is sent as it is stored. -/
theorem Driver.uuidIn_of_isMachineId (driver : Driver) {mid : Text} (h : IsMachineId mid) :
    ∃ bytes, machineIdToBytes mid = .ok bytes ∧ driver.uuidIn mid = some bytes := by
  obtain ⟨bytes, hbytes, hback⟩ := machineIdToBytes_of_isMachineId h
  refine ⟨bytes, hbytes, ?_⟩
  have hlength := length_of_machineIdToBytes hbytes
  rw [bytesToMachineId, if_pos hlength] at hback
  rw [← Except.ok.inj hback]
  exact driver.uuidIn_standard bytes hlength

theorem castUuid_ok {value : Text} {bytes : MachineBytes} (h : castUuid driver value = .ok bytes) :
    driver.uuidIn value = some bytes := by
  unfold castUuid at h
  split at h
  · rename_i hbytes
    rw [hbytes, Except.ok.inj h]
  · contradiction

theorem castText_ok {value value' : Text} (h : castText value = .ok value') : value' = value := by
  obtain ⟨_, -, h⟩ := bind_eq_ok_iff.mp h
  exact (pure_eq_ok_iff.mp h).symm

theorem reserveCall_ok {reservation : ReferenceReservation} {call : ReserveCall}
    (h : reserveCall driver reservation = .ok call) :
    driver.uuidIn reservation.machineId = some call.machineId ∧
      call.row = ⟨reservation.reference, reservation.namespaceName, call.machineId⟩ := by
  obtain ⟨machineId, hid, h⟩ := bind_eq_ok_iff.mp h
  obtain ⟨name, hname, h⟩ := bind_eq_ok_iff.mp h
  obtain ⟨reference, hreference, h⟩ := bind_eq_ok_iff.mp h
  obtain rfl := pure_eq_ok_iff.mp h
  rw [castText_ok hname, castText_ok hreference]
  exact ⟨castUuid_ok hid, rfl⟩

theorem allocateCall_ok {request : SequenceAllocationRequest} {call : AllocateCall}
    (h : allocateCall driver request = .ok call) :
    driver.uuidIn request.machineId = some call.machineId ∧ call.refPrefix = request.refPrefix ∧
      call.key = Sqlite.counterKey request ∧ request.width = .integer call.width := by
  obtain ⟨machineId, hid, h⟩ := bind_eq_ok_iff.mp h
  obtain ⟨name, hname, h⟩ := bind_eq_ok_iff.mp h
  obtain ⟨refPrefix, hpre, h⟩ := bind_eq_ok_iff.mp h
  obtain ⟨scope, hscope, h⟩ := bind_eq_ok_iff.mp h
  obtain ⟨width, hwidth, h⟩ := bind_eq_ok_iff.mp h
  obtain rfl := pure_eq_ok_iff.mp h
  refine ⟨castUuid_ok hid, castText_ok hpre, ?_, ?_⟩
  · have hsame : scope = request.scope := by
      cases hrequest : request.scope with
      | none =>
          rw [hrequest] at hscope
          exact (Except.ok.inj hscope).symm
      | some year =>
          rw [hrequest] at hscope
          obtain ⟨year', hyear, hscope⟩ := bind_eq_ok_iff.mp hscope
          rw [← pure_eq_ok_iff.mp hscope, castText_ok hyear]
    rw [AllocateCall.key, Sqlite.counterKey, castText_ok hname, hsame]
  · cases hrequest : request.width with
    | other =>
        rw [hrequest] at hwidth
        contradiction
    | integer n =>
        rw [hrequest, castSmallint] at hwidth
        split at hwidth
        · obtain ⟨_, -, hwidth⟩ := bind_eq_ok_iff.mp hwidth
          rw [pure_eq_ok_iff.mp hwidth]
        · contradiction

end Casts

/-- A driver that reads numbers as text. -/
def textDriver : Driver where
  uuidIn text := (machineIdToBytes text).toOption
  uuidIn_standard bytes h := by
    have hback : bytesToMachineId bytes = .ok (formatUuid (hexEncode bytes)) := by
      rw [bytesToMachineId, if_pos h]
    rw [machineIdToBytes_of_bytesToMachineId hback]
    rfl
  uuidIn_length text bytes h := by
    cases hbytes : machineIdToBytes text with
    | error e =>
        rw [hbytes] at h
        contradiction
    | ok bytes' =>
        rw [hbytes] at h
        exact Option.some.inj h ▸ length_of_machineIdToBytes hbytes
  int8 n := .string (Nat.toDigits 10 n)
  int8_read n := .inl rfl

/-! ## the two lookups -/

section Lookup

variable {db : Database}

/-- Every stored machine identifier has the 16 bytes of a `uuid`. -/
structure HoldsUuids (db : Database) : Prop where
  references : ∀ r ∈ db.references, r.machineId.length = 16
  allocations : ∀ r ∈ db.allocations, r.machineId.length = 16

/-- The rows of the first query: the one that SQLite finds. -/
theorem filter_references (hdb : db.Consistent) (reference namespaceName : Text) :
    (db.references.filter fun r =>
        decide (r.reference = reference) && decide (r.namespaceName = namespaceName)) =
      (db.references.find? fun r =>
        decide (r.reference = reference) && decide (r.namespaceName = namespaceName)).toList := by
  refine hdb.referenceUnique.filter_eq fun a _ b _ ha hb => ?_
  simp only [Bool.and_eq_true, decide_eq_true_eq] at ha hb
  exact ha.1.trans hb.1.symm

/-- The rows of the second query. -/
theorem filter_allocations (hdb : db.Consistent) (namespaceName refPrefix scope : Text)
    (sequence : Nat) :
    (db.allocations.filter fun r => decide (r.namespaceName = namespaceName) &&
        decide (r.ownerKey = ((refPrefix, scope), sequence))) =
      (db.allocations.find? fun r => decide (r.namespaceName = namespaceName) &&
        decide (r.ownerKey = ((refPrefix, scope), sequence))).toList := by
  -- the rows are numbered within a counter, so they differ in counter and number
  have hunique : UniqueOn (fun r : AllocationRow => (r.key, r.sequence)) db.allocations := by
    refine .of_groups fun key => ?_
    have hnumbers : (db.rowsOf key).map (·.sequence) = _ := (hdb.map_sequence key).1
    rw [UniqueOn, ← rowsOf, hnumbers]
    exact List.nodup_range'
  refine hunique.filter_eq fun a _ b _ ha hb => ?_
  simp only [Bool.and_eq_true, decide_eq_true_eq, AllocationRow.ownerKey, Prod.mk.injEq] at ha hb
  exact Prod.ext (Prod.ext (ha.1.trans hb.1.symm) (ha.2.1.2.trans hb.2.1.2.symm))
    (ha.2.2.trans hb.2.2.symm)

/-- What the function of the server returns, on texts without NUL. -/
theorem resolveReference_eq (hdb : db.Consistent) (reference namespaceName : Text) :
    resolveReference db reference namespaceName = .ok
      (match db.references.find? fun r =>
          decide (r.reference = reference) && decide (r.namespaceName = namespaceName) with
        | some random => [(random.machineId, random.namespaceName)]
        | none =>
            match splitSequentialReference reference with
            | none => []
            | some parts => ((db.allocations.find? fun r =>
                decide (r.namespaceName = namespaceName) &&
                  decide (r.ownerKey = ((parts.refPrefix, parts.scope), parts.sequence))).toList.map
                fun r => (r.machineId, r.namespaceName))) := by
  rw [resolveReference, filter_references hdb]
  cases hrandom : db.references.find? fun r =>
      decide (r.reference = reference) && decide (r.namespaceName = namespaceName) with
  | some random => rfl
  | none =>
      simp only [Option.toList_none, ne_eq, not_true_eq_false, if_false, requestedParts_eq,
        SqlStorage.parseSequentialReference_eq, ok_bind]
      cases hparts : splitSequentialReference reference with
      | none => rfl
      | some parts =>
          simp only [filter_allocations hdb]
          rfl

/-- **The lookups of the adapters** agree on consistent tables: PostgreSQL refuses a text
with NUL, and any other it looks up as SQLite does. -/
theorem databaseLookup_eq (hdb : db.Consistent) (hids : HoldsUuids db)
    (reference namespaceName : Text) :
    databaseLookup db reference namespaceName =
      if '\x00' ∈ reference ∨ '\x00' ∈ namespaceName then .error databaseError
      else Sqlite.lookup db reference namespaceName := by
  by_cases hreference : '\x00' ∈ reference
  · rw [if_pos (.inl hreference), databaseLookup, castText_of_mem hreference]
    rfl
  by_cases hnamespace : '\x00' ∈ namespaceName
  · rw [if_pos (.inr hnamespace), databaseLookup, castText_of_not_mem hreference,
      castText_of_mem hnamespace]
    rfl
  rw [if_neg (not_or.mpr ⟨hreference, hnamespace⟩), databaseLookup, castText_of_not_mem hreference,
    castText_of_not_mem hnamespace]
  simp only [ok_bind, resolveReference_eq hdb, Sqlite.lookup]
  cases hrandom : db.references.find? fun r =>
      decide (r.reference = reference) && decide (r.namespaceName = namespaceName) with
  | some random =>
      have hid := hids.references random (List.mem_of_find?_eq_some hrandom)
      simp only [bytesToMachineId, if_pos hid]
      rfl
  | none =>
      cases hparts : splitSequentialReference reference with
      | none => rfl
      | some parts =>
          dsimp only
          cases hrow : db.allocations.find? fun r => decide (r.namespaceName = namespaceName) &&
              decide (r.ownerKey = ((parts.refPrefix, parts.scope), parts.sequence)) with
          | none => rfl
          | some sequential =>
              have hid := hids.allocations sequential (List.mem_of_find?_eq_some hrow)
              simp only [bytesToMachineId, if_pos hid]
              rfl

end Lookup

end Postgres

end Identifold
