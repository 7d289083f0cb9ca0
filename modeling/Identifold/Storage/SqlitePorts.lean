import Identifold.Storage.SqliteClassification

/-!
# Identifold.Storage.SqlitePorts

`allocate` of the Rust and the Go adapters
(`packages/rust/src/storage/sqlite.rs`, `packages/go/storage/sqlite/sqlite.go`)
against the TypeScript one.  The ports read their rows into integers of fixed
width, compute the maximum on their own, and report errors by code alone.

They differ in two answers: a malformed machine identifier is a conflict for
them, and so is a counter that is missing after its insert, where another
namespace owns the prefix.
-/

namespace Identifold

namespace Sqlite

open Separated Rows Database

/-! ## the ports -/

/-- `SequenceAllocationRequest` of the Rust and the Go package. -/
structure PortRequest where
  machineId : Text
  namespaceName : Text
  refPrefix : Text
  scope : Option Text
  width : UInt8
  deriving DecidableEq

/-- The same request in the TypeScript package. -/
def PortRequest.toRequest (request : PortRequest) : SequenceAllocationRequest :=
  ⟨request.machineId, request.namespaceName, request.refPrefix, request.scope,
    .integer request.width.toNat⟩

/-- Columns read as `u8` and `i64`. -/
def decodeRow (width value : Nat) : Except IdentifoldErrorCode Unit :=
  ensure (width < 2 ^ 8 ∧ value < 2 ^ 63) .allocationConflict

/-- The transaction of the ports; whatever the driver reports is a conflict. -/
def portTransaction (maximum : Nat) (db : Database) (machineId : MachineBytes)
    (request : SequenceAllocationRequest) (width : Nat) :
    Except IdentifoldErrorCode (Nat × Database) := do
  let key := counterKey request
  match db.selectAllocation key machineId with
  | some existing =>
      decodeRow existing.width existing.sequence
      ensure (existing.refPrefix = request.refPrefix ∧ existing.width = width)
        .invalidAllocationPolicy
      return (existing.sequence, db)
  | none =>
      let db ← (insertSequence db (offeredCounter request width)).mapError fun _ => .allocationConflict
      match db.selectSequence key with
      | none => throw .allocationConflict
      | some state =>
          decodeRow state.width state.lastValue
          ensure (state.refPrefix = request.refPrefix ∧ state.width = width) .invalidAllocationPolicy
          ensure (state.lastValue < maximum) .sequenceOverflow
          let allocated := state.lastValue + 1
          let db ← (insertAllocation (db.setLastValue key allocated)
            (recordedRow request width machineId allocated)).mapError fun _ => .allocationConflict
          return (allocated, db)

/-- `allocate` of a port: how it reads a machine identifier, and the maximum
it computes for a width. -/
def portAllocate (machineIdBytes : Text → Option MachineBytes) (maximum : Nat → Nat) (db : Database)
    (request : PortRequest) : Except IdentifoldErrorCode (Nat × Database) :=
  if 4 ≤ request.width ∧ request.width ≤ 18 then
    match machineIdBytes request.machineId with
    | none => .error .allocationConflict
    | some machineId =>
        portTransaction (maximum request.width.toNat) db machineId request.toRequest
          request.width.toNat
  else .error .invalidAllocationPolicy

namespace Rust

/-- `machine_id_bytes`. -/
def machineIdBytes (value : Text) : Option MachineBytes :=
  let hex := strip '-' value
  if utf8Length hex = 32 ∧ ∀ c ∈ hex, isHexDigit c = true then hexDecode hex else none

/-- `SqliteStorageAdapter::allocate`. -/
def allocate : Database → PortRequest → Except IdentifoldErrorCode (Nat × Database) :=
  portAllocate machineIdBytes fun width => 10 ^ width - 1

end Rust

namespace Go

/-- `machineIDBytes`. -/
def machineIdBytes (value : Text) : Option MachineBytes :=
  match hexDecode (strip '-' value) with
  | some decoded => if decoded.length = 16 then some decoded else none
  | none => none

/-- `for range request.Width { maximum *= 10 }`. -/
def power : Nat → Nat → Nat
  | 0, maximum => maximum
  | n + 1, maximum => power n (maximum * 10)

/-- `Adapter.Allocate`. -/
def allocate : Database → PortRequest → Except IdentifoldErrorCode (Nat × Database) :=
  portAllocate machineIdBytes fun width => power width 1 - 1

theorem power_eq (n maximum : Nat) : power n maximum = maximum * 10 ^ n := by
  induction n generalizing maximum with
  | zero => simp [power]
  | succ n ih => rw [power, ih, Nat.pow_succ', Nat.mul_assoc]

end Go

/-! ## machine identifiers -/

theorem Rust.machineIdBytes_eq (v : Text) :
    Rust.machineIdBytes v = (machineIdToBytes v).toOption := by
  simp only [Rust.machineIdBytes, machineIdToBytes]
  by_cases hdigits : ∀ c ∈ strip '-' v, isHexDigit c = true
  · have hascii : utf8Length (strip '-' v) = (strip '-' v).length :=
      utf8Length_of_isAscii fun c hc => toNat_lt_of_isHexDigit (hdigits c hc)
    by_cases hlen : (strip '-' v).length = 32
    · obtain ⟨bytes, hdecode, -⟩ := hexDecode_of_isHexDigit hdigits (by rw [hlen])
      rw [if_pos ⟨hascii.trans hlen, hdigits⟩, if_pos ⟨hlen, hdigits⟩, hdecode]
      rfl
    · rw [if_neg fun h => hlen (hascii.symm.trans h.1), if_neg fun h => hlen h.1]
      rfl
  · rw [if_neg fun h => hdigits h.2, if_neg fun h => hdigits h.2]
    rfl

theorem Go.machineIdBytes_eq (v : Text) : Go.machineIdBytes v = (machineIdToBytes v).toOption := by
  simp only [Go.machineIdBytes, machineIdToBytes]
  by_cases hhex : (strip '-' v).length = 32 ∧ ∀ c ∈ strip '-' v, isHexDigit c = true
  · obtain ⟨bytes, hdecode, hlen⟩ := hexDecode_of_isHexDigit hhex.2 (by rw [hhex.1])
    rw [hdecode, if_pos hhex]
    simp only
    rw [if_pos (by omega)]
    rfl
  · rw [if_neg hhex]
    cases hdecode : hexDecode (strip '-' v) with
    | none => rfl
    | some bytes =>
        obtain ⟨hlen, hdigits⟩ := of_hexDecode hdecode
        simp only
        rw [if_neg fun h16 => hhex ⟨by omega, hdigits⟩]
        rfl

/-! ## what the transaction of the ports answers -/

section Answers

variable {db : Database} {request : SequenceAllocationRequest} {width : Nat} {machineId : MachineBytes}

/-- The columns of a stored row fit the integers of the ports. -/
theorem decodeRow_of_allocation (hdb : StoredState db) {row : AllocationRow}
    (hrow : row ∈ db.allocations) : decodeRow row.width row.sequence = .ok () := by
  have hchecks := hdb.allocationChecks row hrow
  simp only [AllocationRow.sqliteChecks, Bool.and_eq_true, decide_eq_true_eq] at hchecks
  exact ensure_of ⟨by omega, hdb.sequenceValues row hrow⟩ _

/-- So do those of the counter that is read back. -/
theorem decodeRow_of_counterAfter (hdb : StoredState db) (hwidth : width ≤ 18) {counter : SequenceRow}
    (h : counterAfter db (offeredCounter request width) = some counter) :
    decodeRow counter.width counter.lastValue = .ok () := by
  rw [counterAfter] at h
  rcases Option.or_eq_some_iff.mp h with hselect | ⟨-, hoffered⟩
  · obtain ⟨hmem, -⟩ := selectSequence_facts hselect
    have hbounds := width_of_sqliteChecks (hdb.sequenceChecks counter hmem)
    exact ensure_of ⟨by omega, hdb.lastValues counter hmem⟩ _
  · split at hoffered
    · contradiction
    · obtain rfl := Option.some.inj hoffered
      have hlt : (offeredCounter request width).width < 2 ^ 8 :=
        Nat.lt_of_le_of_lt hwidth (by decide)
      exact ensure_of ⟨hlt, Nat.two_pow_pos 63⟩ _

theorem portTransaction_of_bound (hdb : StoredState db) {maximum : Nat} {row : AllocationRow}
    (hbound : db.selectAllocation (counterKey request) machineId = some row) :
    portTransaction maximum db machineId request width = (do
      ensure (row.refPrefix = request.refPrefix ∧ row.width = width)
        IdentifoldErrorCode.invalidAllocationPolicy
      return (row.sequence, db)) := by
  obtain ⟨hmem, -⟩ := selectAllocation_facts hbound
  rw [portTransaction]
  simp only [hbound]
  rw [decodeRow_of_allocation hdb (mem_rowsOf.mp hmem).1, ok_bind]

theorem portTransaction_of_unbound (hdb : StoredState db) (hwidth : 4 ≤ width ∧ width ≤ 18)
    (hbytes : machineIdToBytes request.machineId = .ok machineId)
    (hunbound : Unbound db request machineId) :
    portTransaction (10 ^ width - 1) db machineId request width = (do
      ensure ((offeredCounter request width).sqliteChecks = true) .allocationConflict
      match counterAfter db (offeredCounter request width) with
      | none => throw .allocationConflict
      | some counter => do
          ensure (counter.refPrefix = request.refPrefix ∧ counter.width = width)
            .invalidAllocationPolicy
          ensure (counter.lastValue < 10 ^ width - 1) .sequenceOverflow
          ensure (db.allocationConflicts
            (recordedRow request width machineId (counter.lastValue + 1)) = false) .allocationConflict
          return (counter.lastValue + 1,
            ((db.ensureSequence (offeredCounter request width)).setLastValue (counterKey request)
              (counter.lastValue + 1)).addAllocation
                (recordedRow request width machineId (counter.lastValue + 1)))) := by
  have hnone : db.selectAllocation (counterKey request) machineId = none := hunbound
  rw [portTransaction]
  simp only [hnone, insertSequence, bind_mapError, ensure_mapError, pure_mapError, bind_assoc,
    pure_bind]
  congr 1
  funext _
  have hread : (db.ensureSequence (offeredCounter request width)).selectSequence
      (counterKey request) = counterAfter db (offeredCounter request width) :=
    selectSequence_ensureSequence db (offeredCounter request width)
  rw [hread]
  cases hcounter : counterAfter db (offeredCounter request width) with
  | none => rfl
  | some counter =>
      simp only
      rw [decodeRow_of_counterAfter hdb hwidth.2 hcounter, ok_bind]
      congr 1
      funext _
      congr 1
      funext _
      have hsome : ((db.ensureSequence (offeredCounter request width)).selectSequence
          (counterKey request)).isSome = true := congrArg Option.isSome (hread.trans hcounter)
      have hrecord := congrArg (Except.mapError fun _ => IdentifoldErrorCode.allocationConflict)
        (insertAllocation_recorded (counter.lastValue + 1) hwidth hbytes hsome)
      rw [allocationConflicts_ensureSequence] at hrecord
      simpa only [bind_mapError, ensure_mapError, pure_mapError] using hrecord

end Answers

/-! ## agreement -/

/-- The answer of a call and the database it leaves: a failing call has rolled
back. -/
def settle {ε : Type} (db : Database) : Except ε (Nat × Database) → Except ε Nat × Database
  | .ok (value, db') => (.ok value, db')
  | .error e => (.error e, db)

/-- Same value or same code, and same tables afterwards. -/
def Agrees (db : Database) (port : Except IdentifoldErrorCode (Nat × Database))
    (request : PortRequest) : Prop :=
  settle db port = settle db ((Sqlite.allocate db request.toRequest).mapError (·.code))

/-- The counter is missing after its insert: SQLite passes over the insert,
since another row owns the prefix. -/
def MissingCounter (db : Database) (request : SequenceAllocationRequest) : Prop :=
  OfferPassesChecks request ∧ db.selectSequence (counterKey request) = none ∧
    ∃ counter ∈ db.sequences, counter.owner = (request.refPrefix, (counterKey request).2)

/-- What the ports agree on. -/
def Agreeable (db : Database) (request : PortRequest) : Prop :=
  ¬ AdmitsWidth request.toRequest ∨
    ((∃ machineId, machineIdToBytes request.machineId = .ok machineId) ∧
      ¬ MissingCounter db request.toRequest)

section Agreement

variable {db : Database} {request : PortRequest}

theorem agrees_of_eq {port : Except IdentifoldErrorCode (Nat × Database)}
    (h : port = (Sqlite.allocate db request.toRequest).mapError (·.code)) :
    Agrees db port request := congrArg (settle db) h

theorem not_agrees_of_codes {code : IdentifoldErrorCode} {e : IdentifoldError}
    (h : Sqlite.allocate db request.toRequest = .error e) (hne : code ≠ e.code) :
    ¬ Agrees db (.error code) request := by
  intro hagrees
  rw [Agrees, h] at hagrees
  exact hne (Except.error.inj (congrArg Prod.fst hagrees))

theorem counterAfter_eq_none_iff {request : SequenceAllocationRequest} {width : Nat} :
    counterAfter db (offeredCounter request width) = none ↔
      db.selectSequence (counterKey request) = none ∧
        ∃ counter ∈ db.sequences, counter.owner = (request.refPrefix, (counterKey request).2) := by
  have hkey : (offeredCounter request width).key = counterKey request := rfl
  rw [counterAfter, hkey, Option.or_eq_none_iff]
  refine and_congr_right fun hnone => ?_
  have howner : db.sequenceConflicts (offeredCounter request width) = true ↔
      ∃ counter ∈ db.sequences, counter.owner = (request.refPrefix, (counterKey request).2) := by
    simp only [sequenceConflicts, List.any_eq_true, Bool.or_eq_true, decide_eq_true_eq]
    refine exists_congr fun counter => and_congr_right fun hmem => ?_
    exact ⟨fun h => h.resolve_left (find?_key_eq_none_iff.mp hnone counter hmem), .inr⟩
  rw [← howner]
  cases db.sequenceConflicts (offeredCounter request width) <;> simp

/-- A bound machine identifier is replayed alike, and has its counter. -/
theorem portTransaction_of_replay (hdb : StoredState db) {request : SequenceAllocationRequest}
    {width maximum : Nat} {machineId : MachineBytes} {row : AllocationRow}
    (hbytes : machineIdToBytes request.machineId = .ok machineId)
    (hbound : db.selectAllocation (counterKey request) machineId = some row) :
    portTransaction maximum db machineId request width =
        (allocateTransaction db request width).mapError (·.code) ∧
      ¬ MissingCounter db request := by
  refine ⟨?_, ?_⟩
  · rw [portTransaction_of_bound hdb hbound, allocateTransaction_of_bound hbytes hbound, bind_mapError,
      ensure_mapError]
    rfl
  · rintro ⟨-, hnone, -⟩
    obtain ⟨hmem, hkey⟩ := mem_rowsOf.mp (selectAllocation_facts hbound).1
    have hcounter := hdb.counters row hmem
    rw [hkey, hnone] at hcounter
    contradiction

/-- An unbound one is numbered alike where its counter is not missing. -/
theorem portTransaction_of_counter (hdb : StoredState db) {request : SequenceAllocationRequest}
    {width : Nat} {machineId : MachineBytes} (hwidth : request.width = .integer (width : Nat))
    (hbounds : 4 ≤ width ∧ width ≤ 18) (hbytes : machineIdToBytes request.machineId = .ok machineId)
    (hunbound : Unbound db request machineId) (hcounter : ¬ MissingCounter db request) :
    portTransaction (10 ^ width - 1) db machineId request width =
      (allocateTransaction db request width).mapError (·.code) := by
  rw [portTransaction_of_unbound hdb hbounds hbytes hunbound,
    allocateTransaction_of_unbound hbounds hbytes hunbound, bind_mapError, ensure_mapError]
  by_cases hchecks : (offeredCounter request width).sqliteChecks = true
  · rw [ensure_of hchecks, ensure_of hchecks, ok_bind, ok_bind]
    cases hafter : counterAfter db (offeredCounter request width) with
    | none =>
        exact absurd ⟨⟨width, hwidth, hchecks⟩, counterAfter_eq_none_iff.mp hafter⟩ hcounter
    | some counter =>
        simp only [bind_mapError, ensure_mapError, pure_mapError]
        rfl
  · rw [ensure_of_not hchecks, ensure_of_not hchecks, error_bind, error_bind]
    rfl

/-- A missing counter is a policy error for one, and a conflict for the others. -/
theorem transactions_of_missing (hdb : StoredState db) {request : SequenceAllocationRequest}
    {width : Nat} {machineId : MachineBytes} (hwidth : request.width = .integer (width : Nat))
    (hbounds : 4 ≤ width ∧ width ≤ 18) (hbytes : machineIdToBytes request.machineId = .ok machineId)
    (hunbound : Unbound db request machineId) (hmissing : MissingCounter db request) :
    portTransaction (10 ^ width - 1) db machineId request width = .error .allocationConflict ∧
      allocateTransaction db request width = .error invalidAllocationPolicy := by
  obtain ⟨⟨width', hwidth', hchecks⟩, hcounter⟩ := hmissing
  rw [(width_eq_iff hwidth _).mp hwidth'] at hchecks
  have hafter : counterAfter db (offeredCounter request width) = none :=
    counterAfter_eq_none_iff.mpr hcounter
  rw [portTransaction_of_unbound hdb hbounds hbytes hunbound,
    allocateTransaction_of_unbound hbounds hbytes hunbound, ensure_of hchecks, ensure_of hchecks,
    hafter]
  exact ⟨rfl, rfl⟩

/-- A text that is not read as a machine identifier fails as such. -/
theorem machineIdToBytes_error {v : Text} {e : IdentifoldError} (h : machineIdToBytes v = .error e) :
    e.code = .invalidMid := by
  simp only [machineIdToBytes] at h
  split at h
  · contradiction
  · rw [← Except.error.inj h]

/-- A text that the adapters do not read is reported under two codes. -/
theorem not_agrees_of_malformed {request : PortRequest}
    (hbounds : 4 ≤ request.width.toNat ∧ request.width.toNat ≤ 18) {e : IdentifoldError}
    (hmachineId : machineIdToBytes request.machineId = .error e) :
    ¬ Agrees db (.error .allocationConflict) request := by
  have hsame : machineIdToBytes request.toRequest.machineId = .error e := hmachineId
  have hfails : Sqlite.allocate db request.toRequest = .error e := by
    rw [allocate_of_width rfl hbounds, allocateTransaction, hsame, error_bind]
  refine not_agrees_of_codes hfails ?_
  rw [machineIdToBytes_error hmachineId]
  decide

/-- The transactions agree unless the counter is missing after its insert. -/
theorem portTransaction_agrees_iff (hdb : StoredState db) {request : PortRequest}
    (hbounds : 4 ≤ request.width.toNat ∧ request.width.toNat ≤ 18) {machineId : MachineBytes}
    (hmachineId : machineIdToBytes request.machineId = .ok machineId) :
    Agrees db (portTransaction (10 ^ request.width.toNat - 1) db machineId request.toRequest
        request.width.toNat) request ↔ ¬ MissingCounter db request.toRequest := by
  have hwidth : request.toRequest.width = .integer (request.width.toNat : Nat) := rfl
  have hts : Sqlite.allocate db request.toRequest =
      allocateTransaction db request.toRequest request.width.toNat :=
    allocate_of_width hwidth hbounds
  cases hbound : db.selectAllocation (counterKey request.toRequest) machineId with
  | some row =>
      obtain ⟨hsame, hcounter⟩ := portTransaction_of_replay hdb hmachineId hbound
      exact iff_of_true (agrees_of_eq (hsame.trans (congrArg _ hts.symm))) hcounter
  | none =>
      by_cases hmissing : MissingCounter db request.toRequest
      · obtain ⟨hport, hpolicy⟩ := transactions_of_missing hdb hwidth hbounds hmachineId hbound
          hmissing
        rw [hport]
        exact iff_of_false (not_agrees_of_codes (hts.trans hpolicy) (by decide)) fun h => h hmissing
      · have hsame := portTransaction_of_counter hdb hwidth hbounds hmachineId hbound hmissing
        exact iff_of_true (agrees_of_eq (hsame.trans (congrArg _ hts.symm))) hmissing

/-- A port that reads machine identifiers as the TypeScript adapter does. -/
theorem portAllocate_agrees_iff (hdb : StoredState db) {machineIdBytes : Text → Option MachineBytes}
    {maximum : Nat → Nat} (hbytes : ∀ v, machineIdBytes v = (machineIdToBytes v).toOption)
    (hmaximum : ∀ width, maximum width = 10 ^ width - 1) (request : PortRequest) :
    Agrees db (portAllocate machineIdBytes maximum db request) request ↔ Agreeable db request := by
  have hwidth : request.toRequest.width = .integer (request.width.toNat : Nat) := rfl
  have hport : (4 ≤ request.width ∧ request.width ≤ 18) ↔
      4 ≤ request.width.toNat ∧ request.width.toNat ≤ 18 := by
    rw [UInt8.le_iff_toNat_le, UInt8.le_iff_toNat_le]
    rfl
  by_cases hbounds : 4 ≤ request.width.toNat ∧ request.width.toNat ≤ 18
  · have hadmits : AdmitsWidth request.toRequest := ⟨_, hwidth, hbounds⟩
    rw [portAllocate, if_pos (hport.mpr hbounds), hbytes, hmaximum]
    cases hmachineId : machineIdToBytes request.machineId with
    | error e =>
        refine iff_of_false (not_agrees_of_malformed hbounds hmachineId) ?_
        rintro (hnotAdmits | ⟨⟨machineId, hok⟩, -⟩)
        · exact hnotAdmits hadmits
        · rw [hmachineId] at hok
          contradiction
    | ok machineId =>
        refine (portTransaction_agrees_iff hdb hbounds hmachineId).trans ?_
        refine ⟨fun hcounter => .inr ⟨⟨machineId, hmachineId⟩, hcounter⟩, ?_⟩
        rintro (hnotAdmits | ⟨-, hcounter⟩)
        · exact absurd hadmits hnotAdmits
        · exact hcounter
  · have hnotAdmits : ¬ AdmitsWidth request.toRequest := by
      rintro ⟨width, hsame, hwidthBounds⟩
      rw [(width_eq_iff hwidth _).mp hsame] at hwidthBounds
      exact hbounds hwidthBounds
    rw [portAllocate, if_neg fun h => hbounds (hport.mp h)]
    refine iff_of_true (agrees_of_eq ?_) (.inl hnotAdmits)
    rw [allocate_of_not_width hnotAdmits]
    rfl

/-- **Agreement of the adapters**: on every state of the schema, the Rust and
the Go adapter answer as the TypeScript adapter does and leave the same tables
exactly on the agreeable requests. -/
theorem ports_agree_iff (hdb : StoredState db) (request : PortRequest) :
    (Agrees db (Rust.allocate db request) request ∧ Agrees db (Go.allocate db request) request) ↔
      Agreeable db request := by
  have hrust : Agrees db (Rust.allocate db request) request ↔ Agreeable db request :=
    portAllocate_agrees_iff hdb Rust.machineIdBytes_eq (fun _ => rfl) request
  have hgo : Agrees db (Go.allocate db request) request ↔ Agreeable db request :=
    portAllocate_agrees_iff hdb Go.machineIdBytes_eq (fun width => by rw [Go.power_eq, Nat.one_mul])
      request
  rw [hrust, hgo, and_self]

end Agreement

/-- A request of a port, for the prefix of the invoices. -/
def portRequest (machineId namespaceName : Text) : PortRequest :=
  ⟨machineId, namespaceName, "INV".toList, some "2026".toList, 8⟩

theorem ports_agree_first :
    Agrees Database.empty (Rust.allocate Database.empty
        (portRequest "019f0000-0000-7000-8000-000000000001".toList "invoice".toList))
        (portRequest "019f0000-0000-7000-8000-000000000001".toList "invoice".toList) ∧
      Agrees Database.empty (Go.allocate Database.empty
        (portRequest "019f0000-0000-7000-8000-000000000001".toList "invoice".toList))
        (portRequest "019f0000-0000-7000-8000-000000000001".toList "invoice".toList) :=
  (ports_agree_iff storedState_empty _).mpr
    (.inr ⟨⟨invoiceBytes, by decide⟩, by simp [MissingCounter, Database.empty]⟩)

/-- After an allocation of the invoices, another namespace asks for their
prefix: a policy error in TypeScript, a conflict in Rust and in Go. -/
theorem ports_disagree_on_owned_prefix :
    let db := (exec Database.empty (.allocate (invoiceRequest "INV".toList))).2
    let request := portRequest "019f0000-0000-7000-8000-000000000002".toList "order".toList
    StoredState db ∧ Sqlite.allocate db request.toRequest = .error invalidAllocationPolicy ∧
      Rust.allocate db request = .error .allocationConflict ∧
      Go.allocate db request = .error .allocationConflict ∧
      ¬ (Agrees db (Rust.allocate db request) request ∧ Agrees db (Go.allocate db request) request) := by
  have hts : Sqlite.allocate (exec Database.empty (.allocate (invoiceRequest "INV".toList))).2
      (portRequest "019f0000-0000-7000-8000-000000000002".toList "order".toList).toRequest =
        .error invalidAllocationPolicy := by decide
  have hrust : Rust.allocate (exec Database.empty (.allocate (invoiceRequest "INV".toList))).2
      (portRequest "019f0000-0000-7000-8000-000000000002".toList "order".toList) =
        .error .allocationConflict := by decide
  refine ⟨storedState_empty.exec (e := (.allocate (invoiceRequest "INV".toList), .allocated 1))
    (Prod.ext (by decide) rfl), hts, hrust, by decide, fun h => ?_⟩
  rw [hrust] at h
  exact not_agrees_of_codes hts (by decide) h.1

end Sqlite

end Identifold
