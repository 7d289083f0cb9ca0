import Identifold.Storage.SqlitePackages

/-!
# Identifold.Storage.PackageAllocation

Every package allocates as the atomic adapter does.

A package that reads a machine identifier answers an `allocate` as TypeScript answers
it for the bytes that are read, statement by statement where its connection has a
state of its own; a package that does not read it fails and leaves the tables.

* `hexadecimalBytes_ok_iff`, `UuidParser.bytes_ok_iff` — how the packages read an
  identifier;
* `packageAllocate_answersAs`, `portAllocate_answersAs` — the packages of one
  shape;
* `allocate_answersAs`, `packageAllocate_failsOn` — a package that reads it, and
  one that does not.
-/

namespace Identifold

namespace Sqlite

open Transition Separated Rows Database Script

/-! ## successful answers -/

section Succeeded

variable {ε δ α β : Type}

/-- Forgetting the error commutes with going on. -/
theorem toOption_bind (x : Except ε α) (f : α → Except ε β) :
    (x >>= f).toOption = x.toOption.bind fun a => (f a).toOption := by
  cases x <;> rfl

/-- A value is what is left without the error. -/
theorem toOption_eq_some_iff {x : Except ε α} {a : α} : x.toOption = some a ↔ x = .ok a := by
  cases x <;> simp [Except.toOption]

theorem ok_mapError (f : ε → δ) (a : α) : (Except.ok a : Except ε α).mapError f = .ok a := rfl

/-- The name of an error does not matter once it is forgotten. -/
theorem toOption_mapError (f : ε → δ) (x : Except ε α) : (x.mapError f).toOption = x.toOption := by
  cases x <;> rfl

theorem toOption_ensure (condition : Prop) [Decidable condition] (error : ε) :
    (ensure condition error).toOption = if condition then some () else none := by
  by_cases h : condition
  · rw [ensure_of h, if_pos h]
    rfl
  · rw [ensure_of_not h, if_neg h]
    rfl

end Succeeded

/-- The prefixes of the tables, which Swift reads as C strings, are without NUL. -/
structure PrefixesNulFree (db : Database) : Prop where
  sequences : ∀ counter ∈ db.sequences, '\x00' ∉ counter.refPrefix
  allocations : ∀ row ∈ db.allocations, '\x00' ∉ row.refPrefix

/-- Empty tables have no prefix at all. -/
theorem prefixesNulFree_empty : PrefixesNulFree Database.empty := by
  constructor <;> simp [Database.empty]

/-- The texts of a call, other than the machine identifier, are without NUL. -/
def Call.NulFree : Call → Prop
  | .reserve reservation => '\x00' ∉ reservation.reference ∧ '\x00' ∉ reservation.namespaceName
  | .allocate request => '\x00' ∉ request.namespaceName ∧ '\x00' ∉ request.refPrefix ∧
      '\x00' ∉ request.scope.getD []

namespace PrefixesNulFree

variable {db db' : Database} {row : SequenceRow}

/-- A counter row without NUL keeps the prefixes so. -/
theorem ensureSequence (h : PrefixesNulFree db) (hrow : '\x00' ∉ row.refPrefix) :
    PrefixesNulFree (db.ensureSequence row) := by
  rcases ensureSequence_cases db row with ⟨heq, -⟩ | ⟨heq, -⟩ <;> rw [heq]
  · exact h
  · refine ⟨fun counter hcounter => ?_, h.allocations⟩
    rcases List.mem_append.mp hcounter with hcounter | hcounter
    · exact h.sequences counter hcounter
    · rw [List.mem_singleton.mp hcounter]
      exact hrow

/-- A counter is inserted under its request's prefix. -/
theorem insertSequence (h : PrefixesNulFree db) (hrow : '\x00' ∉ row.refPrefix)
    (hinsert : Sqlite.insertSequence db row = .ok db') : PrefixesNulFree db' := by
  simp only [Sqlite.insertSequence, bind_eq_ok_iff, ensure_eq_ok_iff, pure_eq_ok_iff] at hinsert
  obtain ⟨-, -, rfl⟩ := hinsert
  exact h.ensureSequence hrow

/-- A number is recorded under the prefix of its counter. -/
theorem record {counter : SequenceRow} (h : PrefixesNulFree db) (hcounter : counter ∈ db.sequences)
    (machineId : MachineBytes) : PrefixesNulFree (db.record counter machineId) := by
  constructor
  · intro r hr
    obtain ⟨c, hc, rfl⟩ := List.mem_map.mp hr
    rw [(c.setLastValue_frame _ _).2.2.1]
    exact h.sequences c hc
  · intro r hr
    rcases List.mem_append.mp hr with hr | hr
    · exact h.allocations r hr
    · rw [List.mem_singleton.mp hr]
      exact h.sequences counter hcounter

/-- Step lemma: a call without NUL keeps the prefixes without NUL. -/
theorem exec {e : Call × Outcome} (h : PrefixesNulFree db) (hnul : e.1.NulFree)
    (hstep : ofService Sqlite.exec db e db') : PrefixesNulFree db' := by
  obtain ⟨call, outcome⟩ := e
  simp only [ofService] at hstep
  cases call with
  | reserve reservation =>
      cases hcall : reserve db reservation with
      | error error =>
          simp only [Sqlite.exec, hcall, Prod.mk.injEq] at hstep
          exact hstep.2 ▸ h
      | ok result =>
          simp only [Sqlite.exec, hcall, Prod.mk.injEq] at hstep
          obtain ⟨-, -, ⟨-, hdb⟩ | ⟨-, row, -, -, -, hdb⟩⟩ := reserve_cases hcall
          · rw [← hstep.2, hdb]
            exact h
          · rw [← hstep.2, hdb]
            exact ⟨h.sequences, h.allocations⟩
  | allocate request =>
      cases hcall : allocate db request with
      | error error =>
          simp only [Sqlite.exec, hcall, Prod.mk.injEq] at hstep
          exact hstep.2 ▸ h
      | ok result =>
          simp only [Sqlite.exec, hcall, Prod.mk.injEq] at hstep
          obtain ⟨width, -, -, htransaction⟩ := allocate_cases hcall
          obtain ⟨machineId, -, ⟨-, -, -, -, -, hdb⟩ |
            ⟨-, row, counter, hrow, -, hselect, -, -, -, -, hdb⟩⟩ :=
              allocateTransaction_cases htransaction
          · rw [← hstep.2, hdb]
            exact h
          · have hprefix : '\x00' ∉ row.refPrefix := by
              rw [hrow]
              exact hnul.2.1
            rw [← hstep.2, hdb]
            exact (h.ensureSequence hprefix).record (selectSequence_facts hselect).1 machineId

end PrefixesNulFree

section Transactions

variable {text : Text → Text} {db : Database} {request : SequenceAllocationRequest} {width : Nat}
  {machineId : MachineBytes} {canonical : Text} {missing : IdentifoldErrorCode}

/-- The transaction of a package succeeds as the atomic one does. -/
theorem packageTransaction_toOption (htext : ∀ v, '\x00' ∉ v → text v = v)
    (hdb : PrefixesNulFree db)
    (hnul : (Call.allocate request).NulFree) (hbytes : machineIdToBytes canonical = .ok machineId) :
    (packageTransaction text missing (10 ^ width - 1) db machineId request width).toOption =
      (allocateTransaction db { request with machineId := canonical } width).toOption := by
  obtain ⟨hns, hpre, hscope⟩ := hnul
  rw [packageTransaction, allocateTransaction, hbytes, ok_bind]
  simp only [htext _ hns, htext _ hpre, htext _ hscope, counterKey]
  cases hselect : db.selectAllocation (request.namespaceName, request.scope.getD []) machineId with
  | some existing =>
      have hmem := (mem_rowsOf.mp (selectAllocation_facts hselect).1).1
      simp only [htext _ (hdb.allocations existing hmem), toOption_bind, toOption_ensure]
      rfl
  | none =>
      simp only
      cases hinsert : insertSequence db ⟨request.namespaceName, request.scope.getD [],
          request.refPrefix, width, 0⟩ with
      | error e => rfl
      | ok created =>
          have hprefixes := hdb.insertSequence hpre hinsert
          simp only [ok_mapError, ok_bind]
          cases hcounter : created.selectSequence (request.namespaceName, request.scope.getD []) with
          | none => rfl
          | some counter =>
              have hmem := (selectSequence_facts hcounter).1
              simp only [htext _ (hprefixes.sequences counter hmem), toOption_bind, toOption_ensure,
                toOption_mapError]
              rfl

/-- Only the bytes of a machine identifier matter. -/
theorem allocateTransaction_congr (hbytes : machineIdToBytes request.machineId = .ok machineId)
    (hcanonical : machineIdToBytes canonical = .ok machineId) :
    allocateTransaction db request width =
      allocateTransaction db { request with machineId := canonical } width := by
  rw [allocateTransaction, allocateTransaction, hbytes, hcanonical]
  rfl

/-- The transaction of the ports that read their rows into fixed integers, likewise. -/
theorem portTransaction_toOption (hdb : StoredState db)
    (hwidth : request.width = .integer (width : Nat))
    (hbounds : 4 ≤ width ∧ width ≤ 18)
    (hbytes : machineIdToBytes request.machineId = .ok machineId) :
    (portTransaction (10 ^ width - 1) db machineId request width).toOption =
      (allocateTransaction db request width).toOption := by
  cases hbound : db.selectAllocation (counterKey request) machineId with
  | some row => rw [(portTransaction_of_replay hdb hbytes hbound).1, toOption_mapError]
  | none =>
      by_cases hmissing : MissingCounter db request
      · obtain ⟨hport, hatomic⟩ := transactions_of_missing hdb hwidth hbounds hbytes hbound hmissing
        rw [hport, hatomic]
        rfl
      · rw [portTransaction_of_counter hdb hwidth hbounds hbytes hbound hmissing, toOption_mapError]

end Transactions

/-! ## maxima -/

/-- The loop that multiplies by ten computes the power. -/
theorem iterate_mul_ten (width : Nat) : (fun maximum => maximum * 10)^[width] 1 = 10 ^ width := by
  simp only [mul_right_iterate, Nat.one_mul]

/-- A text of nines is read as the largest number of its width. -/
theorem ofDigitChars_replicate_nine (width : Nat) :
    Nat.ofDigitChars 10 (List.replicate width '9') 0 = 10 ^ width - 1 := by
  induction width with
  | zero => rfl
  | succ width ih =>
      have hnine : '9'.toNat - '0'.toNat = 9 := rfl
      have hpos : 0 < 10 ^ width := Nat.pow_pos (by decide)
      rw [List.replicate_succ', Nat.ofDigitChars_append, ih, Nat.ofDigitChars_cons,
        Nat.ofDigitChars_nil, hnine, Nat.pow_succ]
      omega

/-! ## machine identifiers -/

/-- The canonical text of 16 bytes. -/
def canonicalMachineId (bytes : MachineBytes) : Text := formatUuid (hexEncode bytes)

/-- The canonical text of 16 bytes is read back. -/
theorem machineIdToBytes_canonicalMachineId {bytes : MachineBytes} (h : bytes.length = 16) :
    machineIdToBytes (canonicalMachineId bytes) = .ok bytes :=
  machineIdToBytes_of_bytesToMachineId (if_pos h)

/-- The packages that read 32 hexadecimal digits accept what TypeScript accepts. -/
theorem hexadecimalBytes_ok_iff {v : Text} {bytes : MachineBytes} :
    hexadecimalBytes v = .ok bytes ↔ machineIdToBytes v = .ok bytes := by
  simp only [hexadecimalBytes, machineIdToBytes]
  split <;> simp

/-- A UUID parser with an error for `null` returns what it parses. -/
theorem UuidParser.bytes_ok_iff {parser : UuidParser} {error : PackageError} {v : Text}
    {bytes : MachineBytes} : parser.bytes error v = .ok bytes ↔ parser.parse v = some bytes := by
  rw [UuidParser.bytes]
  cases parser.parse v <;> simp

theorem elim_ok_iff {o : Option MachineBytes} {error : PackageError} {bytes : MachineBytes} :
    o.elim (Except.error error) Except.ok = .ok bytes ↔ o = some bytes := by
  cases o <;> simp

/-- It fails where it parses nothing. -/
theorem UuidParser.bytes_error {parser : UuidParser} {error e : PackageError} {v : Text}
    (h : parser.bytes error v = .error e) : parser.parse v = none := by
  rw [UuidParser.bytes] at h
  cases hparse : parser.parse v with
  | none => rfl
  | some bytes =>
      rw [hparse] at h
      contradiction

theorem elim_error {o : Option MachineBytes} {error e : PackageError}
    (h : o.elim (Except.error error) Except.ok = .error e) : o = none := by
  cases o with
  | none => rfl
  | some bytes => contradiction

/-- What Swift reads: the bytes of a machine identifier in either case, with no line terminator
behind it. -/
theorem Swift.machineIDBytes_ok {languages : Languages} {v : Text} {bytes : MachineBytes}
    (h : Swift.machineIDBytes languages v = .ok bytes) : bytes.length = 16 := by
  rw [Swift.machineIDBytes] at h
  split at h
  · contradiction
  · contradiction
  · rename_i canonical hparse
    obtain ⟨rfl, hex, line, hhex, hline, hlower⟩ := Identifold.Swift.parseMachineID_ok_iff.mp hparse
    rw [hlower, Identifold.Swift.pairBytes_strip hhex.1 hline] at h
    by_cases hempty : line = []
    · rw [if_pos hempty] at h
      rw [← Except.ok.inj h, List.length_map, Radix.length_digits]
    · rw [if_neg hempty] at h
      contradiction

/-- The Swift package reads a machine identifier as TypeScript does, in any language.
-/
theorem Swift.machineIDBytes_of_machineId {languages : Languages} {v : Text} {bytes : MachineBytes}
    (hv : IsMachineId v) (hbytes : machineIdToBytes v = .ok bytes) :
    Swift.machineIDBytes languages v = .ok bytes := by
  obtain ⟨hex, hhex, rfl⟩ := hv
  have hlower := asciiLower_formatUuid hhex.1
  have hparse : Identifold.Swift.parseMachineID languages.strings (formatUuid hex) =
      .ok (formatUuid hex) :=
    Identifold.Swift.parseMachineID_ok_iff.mpr
      ⟨hlower.symm, hex, [], hhex, List.mem_cons_self, by rw [hlower, List.append_nil]⟩
  have hpairs : Identifold.Swift.pairBytes
      (languages.strings.characters (strip '-' (formatUuid hex ++ []))) = _ :=
    Identifold.Swift.pairBytes_strip hhex.1 List.mem_cons_self
  obtain ⟨decoded, hdecode, hmap⟩ := map_toNat_hexDecode hhex.1
  rw [List.append_nil, if_pos rfl, ← hmap] at hpairs
  have hsame : decoded = bytes := by
    rw [machineIdToBytes, strip_formatUuid hhex.1, hdecode] at hbytes
    split at hbytes
    · exact Except.ok.inj hbytes
    · contradiction
  have hround : decoded.map (UInt8.ofNat ∘ UInt8.toNat) = decoded.map id :=
    List.map_congr_left fun byte _ => UInt8.ofNat_toNat
  simp only [Swift.machineIDBytes, hparse, hpairs, List.map_map]
  rw [hround, List.map_id, hsame]

namespace Package

variable {languages : Languages} {package : Package} {v : Text} {bytes : MachineBytes}

/-- Every package reads 16 bytes. -/
theorem length_machineIdBytes (h : package.machineIdBytes languages v = .ok bytes) :
    bytes.length = 16 := by
  cases package with
  | typescript => exact length_of_machineIdToBytes (mapError_eq_ok_iff.mp h)
  | python => exact languages.pythonUuid.length_parse v bytes (UuidParser.bytes_ok_iff.mp h)
  | rust =>
      have hparse := elim_ok_iff.mp h
      rw [Rust.machineIdBytes_eq, toOption_eq_some_iff] at hparse
      exact length_of_machineIdToBytes hparse
  | go =>
      have hparse := elim_ok_iff.mp h
      rw [Go.machineIdBytes_eq, toOption_eq_some_iff] at hparse
      exact length_of_machineIdToBytes hparse
  | ruby | php => exact length_of_machineIdToBytes (hexadecimalBytes_ok_iff.mp h)
  | csharp => exact languages.guidParse.length_parse v bytes (UuidParser.bytes_ok_iff.mp h)
  | java | kotlin =>
      exact languages.uuidFromString.length_parse v bytes (UuidParser.bytes_ok_iff.mp h)
  | swift => exact Swift.machineIDBytes_ok h

/-- Every package reads the bytes of a canonical machine identifier. -/
theorem machineIdBytes_of_machineId (hv : IsMachineId v) (hbytes : machineIdToBytes v = .ok bytes) :
    package.machineIdBytes languages v = .ok bytes := by
  cases package with
  | typescript => exact mapError_eq_ok_iff.mpr hbytes
  | python =>
      exact UuidParser.bytes_ok_iff.mpr (languages.pythonUuid.parse_machineId v bytes hv hbytes)
  | rust =>
      refine elim_ok_iff.mpr ?_
      rw [Rust.machineIdBytes_eq, hbytes]
      rfl
  | go =>
      refine elim_ok_iff.mpr ?_
      rw [Go.machineIdBytes_eq, hbytes]
      rfl
  | ruby | php => exact hexadecimalBytes_ok_iff.mpr hbytes
  | csharp =>
      exact UuidParser.bytes_ok_iff.mpr (languages.guidParse.parse_machineId v bytes hv hbytes)
  | java | kotlin =>
      exact UuidParser.bytes_ok_iff.mpr (languages.uuidFromString.parse_machineId v bytes hv hbytes)
  | swift => exact Swift.machineIDBytes_of_machineId hv hbytes

end Package

/-! ## allocations -/

/-- A call returns what the atomic `allocate` returns and leaves its tables, or fails as it does and
leaves the tables as they were. -/
def AnswersAs (db : Database) (result : Except PackageError Nat × Database)
    (atomic : Except IdentifoldError (Nat × Database)) : Prop :=
  match atomic with
  | .ok (value, db') => result = (.ok value, db')
  | .error _ => (∃ error, result.1 = .error error) ∧ result.2 = db

/-- A call fails and leaves the tables as they were. -/
def FailsOn (db : Database) (result : Except PackageError Nat × Database) : Prop :=
  (∃ error, result.1 = .error error) ∧ result.2 = db

section Allocations

variable {languages : Languages} {db : Database} {request : Identifold.SequenceAllocationRequest}
  {machineId : MachineBytes} {width : Int}

/-- An answer that agrees with the atomic function's up to the error settles as it
does. -/
theorem answersAs_settle {answer : Except PackageError (Nat × Database)}
    {atomic : Except IdentifoldError (Nat × Database)} (h : answer.toOption = atomic.toOption) :
    AnswersAs db (settle db answer) atomic := by
  cases atomic with
  | ok result =>
      rw [toOption_eq_some_iff.mp h]
      rfl
  | error e =>
      cases answer with
      | ok result => contradiction
      | error error => exact ⟨⟨error, rfl⟩, rfl⟩

/-- A call that throws before its statements fails and leaves the tables. -/
theorem failsOn_settle (error : PackageError) : FailsOn db (settle db (.error error)) :=
  ⟨⟨error, rfl⟩, rfl⟩

/-- TypeScript refuses a width outside its bounds before any statement. -/
theorem allocate_of_integer (hwidth : request.width = .integer width) :
    Sqlite.allocate db request =
      if 4 ≤ width ∧ width ≤ 18 then allocateTransaction db request width.toNat
      else .error invalidAllocationPolicy := by
  rw [Sqlite.allocate, hwidth]

/-- The packages that differ in values only. -/
theorem packageAllocate_answersAs {text : Text → Text} {missing : IdentifoldErrorCode}
    {machineIdBytes : Text → Except PackageError MachineBytes} {maximum : Nat → Nat}
    (htext : ∀ v, '\x00' ∉ v → text v = v) (hmaximum : ∀ n, maximum n = 10 ^ n - 1)
    (hdb : PrefixesNulFree db) (hnul : (Call.allocate request).NulFree)
    (hwidth : request.width = .integer width)
    (hbytes : machineIdBytes request.machineId = .ok machineId)
    (hlength : machineId.length = 16) :
    AnswersAs db (settle db (packageAllocate text machineIdBytes missing maximum db request width))
      (Sqlite.allocate db { request with machineId := canonicalMachineId machineId }) := by
  have hatomic : Sqlite.allocate db
      { request with machineId := canonicalMachineId machineId } = _ :=
    allocate_of_integer hwidth
  rw [hatomic]
  refine answersAs_settle ?_
  rw [packageAllocate, hbytes, ok_bind, hmaximum]
  by_cases hbounds : 4 ≤ width ∧ width ≤ 18
  · rw [if_pos hbounds, if_pos hbounds]
    exact packageTransaction_toOption htext hdb hnul (machineIdToBytes_canonicalMachineId hlength)
  · rw [if_neg hbounds, if_neg hbounds]
    rfl

/-- A package that does not read the machine identifier fails. -/
theorem packageAllocate_failsOn {text : Text → Text} {missing : IdentifoldErrorCode}
    {machineIdBytes : Text → Except PackageError MachineBytes} {maximum : Nat → Nat}
    {error : PackageError}
    (hbytes : machineIdBytes request.machineId = .error error) :
    FailsOn db
      (settle db (packageAllocate text machineIdBytes missing maximum db request width)) := by
  rw [packageAllocate, hbytes]
  split <;> exact failsOn_settle _

/-- The packages that read their rows into fixed integers. -/
theorem portAllocate_answersAs {machineIdBytes : Text → Option MachineBytes} {maximum : Nat → Nat}
    (hparse : ∀ v, machineIdBytes v = (machineIdToBytes v).toOption)
    (hmaximum : ∀ n, maximum n = 10 ^ n - 1) (hdb : StoredState db) {port : PortRequest}
    (hbytes : machineIdToBytes port.machineId = .ok machineId) :
    AnswersAs db (settle db ((portAllocate machineIdBytes maximum db port).mapError .identifold))
      (Sqlite.allocate db { port.toRequest with machineId := canonicalMachineId machineId }) := by
  have hcanonical := machineIdToBytes_canonicalMachineId (length_of_machineIdToBytes hbytes)
  have hatomic : Sqlite.allocate db
      { port.toRequest with machineId := canonicalMachineId machineId } = _ :=
    allocate_of_integer rfl
  have hbounds : (4 ≤ port.width ∧ port.width ≤ 18) ↔
      4 ≤ (port.width.toNat : Int) ∧ (port.width.toNat : Int) ≤ 18 := by
    rw [UInt8.le_iff_toNat_le, UInt8.le_iff_toNat_le]
    norm_cast
  rw [hatomic]
  refine answersAs_settle ?_
  rw [toOption_mapError, portAllocate, hparse, hbytes, hmaximum]
  by_cases hwidth : 4 ≤ port.width ∧ port.width ≤ 18
  · rw [if_pos hwidth, if_pos (hbounds.mp hwidth), Int.toNat_natCast]
    have hwidths := hbounds.mp hwidth
    refine (portTransaction_toOption hdb rfl (by omega) hbytes).trans ?_
    rw [allocateTransaction_congr hbytes hcanonical]
  · rw [if_neg hwidth, if_neg fun h => hwidth (hbounds.mpr h)]
    rfl

/-- So do the ports with an optional parser. -/
theorem portAllocate_failsOn {machineIdBytes : Text → Option MachineBytes} {maximum : Nat → Nat}
    {port : PortRequest} (hparse : machineIdBytes port.machineId = none) :
    FailsOn db
      (settle db ((portAllocate machineIdBytes maximum db port).mapError .identifold)) := by
  rw [portAllocate, hparse]
  split <;> exact failsOn_settle _

/-- Python's, statement by statement. -/
theorem Python.allocateIdle_answersAs {request : Python.SequenceAllocationRequest}
    (hparse : languages.pythonUuid.parse request.machineId = some machineId) :
    AnswersAs db (Python.allocateIdle languages db request)
      (Sqlite.allocate db ⟨canonicalMachineId machineId, request.namespaceName, request.refPrefix,
        request.scope, .integer request.width⟩) := by
  have hbytes := machineIdToBytes_canonicalMachineId
    (languages.pythonUuid.length_parse _ _ hparse)
  rw [allocate_of_integer rfl, Python.allocateIdle, Python.allocate, hparse]
  by_cases hbounds : 4 ≤ request.width ∧ request.width ≤ 18
  · rw [if_pos hbounds, if_neg (by omega), run_tryCatch]
    have h := transaction_refines db ⟨canonicalMachineId machineId, request.namespaceName,
      request.refPrefix, request.scope, .integer request.width⟩ request.width.toNat
    simp only [hbytes, ok_mapError] at h
    have hrefines : Refines db ((transaction (fun _ => false) (fun _ => pure ()) (.ok machineId)
        (request.namespaceName, request.scope.getD []) request.refPrefix request.width.toNat).run
          (.handedOver db none)) _ := h
    dsimp only
    generalize (transaction (fun _ => false) (fun _ => pure ()) (Except.ok machineId)
      (request.namespaceName, request.scope.getD []) request.refPrefix request.width.toNat).run
        (.handedOver db none) = ran at hrefines ⊢
    cases hatomic : allocateTransaction db ⟨canonicalMachineId machineId, request.namespaceName,
        request.refPrefix, request.scope, .integer request.width⟩ request.width.toNat with
    | ok result =>
        rw [hatomic] at hrefines
        rw [show ran = _ from hrefines]
        rfl
    | error e =>
        rw [hatomic] at hrefines
        obtain ⟨thrown, work, rfl, -⟩ := hrefines
        cases thrown with
        | identifold error => exact ⟨⟨_, rfl⟩, rfl⟩
        | foreign => exact ⟨⟨_, rfl⟩, rfl⟩
  · rw [if_neg hbounds, if_pos (by omega)]
    exact ⟨⟨_, rfl⟩, rfl⟩

/-- So does Python, whose parser is the `uuid` module's. -/
theorem Python.allocateIdle_failsOn {request : Python.SequenceAllocationRequest}
    (hparse : languages.pythonUuid.parse request.machineId = none) :
    FailsOn db (Python.allocateIdle languages db request) := by
  rw [Python.allocateIdle, Python.allocate, hparse]
  by_cases hwidth : request.width < 4 ∨ request.width > 18
  · rw [if_pos hwidth]
    exact ⟨⟨_, rfl⟩, rfl⟩
  · rw [if_neg hwidth]
    exact ⟨⟨_, rfl⟩, rfl⟩

/-- Only the bytes of a machine identifier matter to Java. -/
theorem Java.allocateSynchronously_congr {namespaceName refPrefix scope : Option Text}
    {uuid : Text → Option MachineBytes} {value : Text} (hvalue : uuid value = some machineId)
    (canonical : Text) :
    Java.allocateSynchronously (fun _ => false)
        ⟨some value, namespaceName, refPrefix, scope, width⟩ uuid =
      Java.allocateSynchronously (fun _ => false)
        ⟨some canonical, namespaceName, refPrefix, scope, width⟩ fun _ => some machineId := by
  have hread : Java.machineIdBytes uuid (some value) = .ok machineId := by
    rw [Java.machineIdBytes, hvalue]
  have hcanonical : Java.machineIdBytes (fun _ => some machineId) (some canonical) =
      .ok machineId := rfl
  simp only [Java.allocateSynchronously, hread, hcanonical]
  rfl

/-- Java's, statement by statement. -/
theorem Java.allocateIdle_answersAs (request : Identifold.SequenceAllocationRequest)
    (hparse : languages.uuidFromString.parse request.machineId = some machineId) :
    AnswersAs db (Java.allocateIdle languages db ⟨some request.machineId, some request.namespaceName,
        some request.refPrefix, request.scope, width⟩)
      (Sqlite.allocate db ⟨canonicalMachineId machineId, request.namespaceName, request.refPrefix,
        request.scope, .integer width⟩) := by
  have hbytes := machineIdToBytes_canonicalMachineId
    (languages.uuidFromString.length_parse _ _ hparse)
  rw [Java.allocateIdle, Java.allocateSynchronously_congr hparse (canonicalMachineId machineId)]
  by_cases hbounds : 4 ≤ width ∧ width ≤ 18
  · obtain ⟨n, rfl⟩ := Int.eq_ofNat_of_zero_le (by omega : 0 ≤ width)
    have h := Java.allocateSynchronously_refines (fun _ => some machineId) db
      ⟨canonicalMachineId machineId, request.namespaceName, request.refPrefix, request.scope,
        .integer n⟩ n rfl rfl hbytes
    have hrequest : Java.ofRequest ⟨canonicalMachineId machineId, request.namespaceName,
        request.refPrefix, request.scope, .integer n⟩ n = ⟨some (canonicalMachineId machineId),
          some request.namespaceName, some request.refPrefix, request.scope, n⟩ := rfl
    rw [hrequest] at h
    dsimp only at h ⊢
    generalize run (Java.allocateSynchronously _ _ _) _ = ran at h ⊢
    cases hatomic : Sqlite.allocate db ⟨canonicalMachineId machineId, request.namespaceName,
        request.refPrefix, request.scope, .integer n⟩ with
    | ok result =>
        rw [hatomic] at h
        obtain ⟨hvalue, hconnection⟩ := h
        rw [hvalue, hconnection]
        rfl
    | error e =>
        rw [hatomic] at h
        obtain ⟨hvalue, hcommitted, -⟩ := h
        rw [hvalue]
        exact ⟨⟨_, rfl⟩, hcommitted⟩
  · rw [allocate_of_integer rfl, if_neg hbounds, Java.allocateSynchronously]
    dsimp only
    rw [if_pos (by omega)]
    exact ⟨⟨_, rfl⟩, rfl⟩

/-- So does Java, whose parser is `UUID.fromString`. -/
theorem Java.allocateIdle_failsOn (request : Identifold.SequenceAllocationRequest)
    (hparse : languages.uuidFromString.parse request.machineId = none) :
    FailsOn db (Java.allocateIdle languages db ⟨some request.machineId, some request.namespaceName,
        some request.refPrefix, request.scope, width⟩) := by
  have hbytes : Java.machineIdBytes languages.uuidFromString.parse (some request.machineId) =
      .error .illegalArgument := by
    rw [Java.machineIdBytes, hparse]
  rw [Java.allocateIdle, Java.allocateSynchronously]
  simp only [hbytes]
  by_cases hwidth : width < 4 ∨ width > 18
  · rw [if_pos hwidth]
    exact ⟨⟨_, rfl⟩, rfl⟩
  · rw [if_neg hwidth]
    exact ⟨⟨_, rfl⟩, rfl⟩

/-- A width that fits a byte is the integer of that byte. -/
theorem byteWidth_eq_some {jsWidth : JsNumber} {byte : UInt8} (h : byteWidth jsWidth = some byte) :
    jsWidth = .integer (byte.toNat : Nat) := by
  simp only [byteWidth] at h
  split at h
  · rename_i n
    split at h
    · rename_i hlt
      rw [← Option.some.inj h, UInt8.toNat_ofNat_of_lt' hlt]
      rfl
    · contradiction
  · contradiction

/-- A width that fits a signed integer is that integer. -/
theorem integerWidth_eq_some {jsWidth : JsNumber} {n : Int} (h : integerWidth jsWidth = some n) :
    jsWidth = .integer n := by
  cases jsWidth with
  | integer m =>
      obtain rfl := Option.some.inj h
      rfl
  | other => contradiction

namespace Package

variable {package : Package} {result : Except PackageError Nat × Database}

/-- **Allocations**: a package that reads the machine identifier of a request answers it as the
atomic `allocate` answers it for the bytes that are read. -/
theorem allocate_answersAs (hstored : StoredState db) (hdb : PrefixesNulFree db)
    (hnul : (Call.allocate request).NulFree)
    (hbytes : package.machineIdBytes languages request.machineId = .ok machineId)
    (h : package.allocate languages db request = some result) :
    AnswersAs db result
      (Sqlite.allocate db { request with machineId := canonicalMachineId machineId }) := by
  obtain ⟨mid, ns, pre, scope, jsWidth⟩ := request
  have hlength := length_machineIdBytes hbytes
  have hid : ∀ v : Text, '\x00' ∉ v → id v = v := fun _ _ => rfl
  have hpower : ∀ n, 10 ^ n - 1 = 10 ^ n - 1 := fun _ => rfl
  -- the packages differ in how they read the identifier and compute the maximum
  cases package with
  | typescript =>
      obtain rfl := Option.some.inj h
      have hcanonical := machineIdToBytes_canonicalMachineId hlength
      refine answersAs_settle ?_
      rw [toOption_mapError, Sqlite.allocate, Sqlite.allocate]
      cases jsWidth with
      | other => rfl
      | integer n =>
          simp only
          rw [allocateTransaction_congr (mapError_eq_ok_iff.mp hbytes) hcanonical]
  | python =>
      obtain ⟨n, hwidth, rfl⟩ := Option.map_eq_some_iff.mp h
      obtain rfl := integerWidth_eq_some hwidth
      exact Python.allocateIdle_answersAs (UuidParser.bytes_ok_iff.mp hbytes)
  | java =>
      obtain ⟨n, hwidth, rfl⟩ := Option.map_eq_some_iff.mp h
      obtain rfl := integerWidth_eq_some hwidth
      exact Java.allocateIdle_answersAs ⟨mid, ns, pre, scope, .other⟩
        (UuidParser.bytes_ok_iff.mp hbytes)
  | rust =>
      obtain ⟨byte, hwidth, rfl⟩ := Option.map_eq_some_iff.mp h
      obtain rfl := byteWidth_eq_some hwidth
      have hread := elim_ok_iff.mp hbytes
      rw [Rust.machineIdBytes_eq, toOption_eq_some_iff] at hread
      exact portAllocate_answersAs Rust.machineIdBytes_eq (fun _ => rfl) hstored hread
  | go =>
      obtain ⟨byte, hwidth, rfl⟩ := Option.map_eq_some_iff.mp h
      obtain rfl := byteWidth_eq_some hwidth
      have hread := elim_ok_iff.mp hbytes
      rw [Go.machineIdBytes_eq, toOption_eq_some_iff] at hread
      exact portAllocate_answersAs Go.machineIdBytes_eq (fun n => by rw [Go.power_eq, Nat.one_mul])
        hstored hread
  | ruby =>
      obtain ⟨n, hwidth, rfl⟩ := Option.map_eq_some_iff.mp h
      exact packageAllocate_answersAs hid hpower hdb hnul (integerWidth_eq_some hwidth) hbytes
        hlength
  | php =>
      obtain ⟨n, hwidth, rfl⟩ := Option.map_eq_some_iff.mp h
      exact packageAllocate_answersAs hid hpower hdb hnul (integerWidth_eq_some hwidth) hbytes
        hlength
  | csharp =>
      obtain ⟨byte, hwidth, rfl⟩ := Option.map_eq_some_iff.mp h
      exact packageAllocate_answersAs hid (fun n => by rw [iterate_mul_ten]) hdb hnul
        (byteWidth_eq_some hwidth) hbytes hlength
  | kotlin =>
      obtain ⟨n, hwidth, rfl⟩ := Option.map_eq_some_iff.mp h
      exact packageAllocate_answersAs hid ofDigitChars_replicate_nine hdb hnul
        (integerWidth_eq_some hwidth) hbytes hlength
  | swift =>
      obtain ⟨byte, hwidth, rfl⟩ := Option.map_eq_some_iff.mp h
      exact packageAllocate_answersAs (fun _ => cString_eq_self)
        (fun n => by rw [iterate_mul_ten]) hdb hnul (byteWidth_eq_some hwidth) hbytes hlength

/-- A package that does not read the machine identifier fails. -/
theorem allocate_failsOn {error : PackageError}
    (hbytes : package.machineIdBytes languages request.machineId = .error error)
    (h : package.allocate languages db request = some result) : FailsOn db result := by
  obtain ⟨mid, ns, pre, scope, jsWidth⟩ := request
  cases package with
  | typescript =>
      obtain rfl := Option.some.inj h
      have hread : ∃ e, machineIdToBytes mid = .error e := by
        cases hid : machineIdToBytes mid with
        | ok bytes =>
            rw [Package.machineIdBytes, hid] at hbytes
            contradiction
        | error e => exact ⟨e, rfl⟩
      obtain ⟨e, he⟩ := hread
      rw [Sqlite.allocate]
      cases jsWidth with
      | other => exact failsOn_settle _
      | integer n =>
          simp only [allocateTransaction, he, error_bind]
          split <;> exact failsOn_settle _
  | python =>
      obtain ⟨n, hwidth, rfl⟩ := Option.map_eq_some_iff.mp h
      exact Python.allocateIdle_failsOn (UuidParser.bytes_error hbytes)
  | java =>
      obtain ⟨n, hwidth, rfl⟩ := Option.map_eq_some_iff.mp h
      exact Java.allocateIdle_failsOn ⟨mid, ns, pre, scope, .other⟩ (UuidParser.bytes_error hbytes)
  | rust | go =>
      obtain ⟨byte, hwidth, rfl⟩ := Option.map_eq_some_iff.mp h
      exact portAllocate_failsOn (elim_error hbytes)
  | ruby | php | kotlin =>
      obtain ⟨n, hwidth, rfl⟩ := Option.map_eq_some_iff.mp h
      exact packageAllocate_failsOn hbytes
  | csharp | swift =>
      obtain ⟨byte, hwidth, rfl⟩ := Option.map_eq_some_iff.mp h
      exact packageAllocate_failsOn hbytes

end Package

end Allocations

end Sqlite

end Identifold
