import Identifold.Ports.SwiftCodec
import Identifold.Storage.JavaRefinement
import Identifold.Storage.SequentialSplit
import Identifold.Storage.SqliteLookup
import Identifold.Storage.SqlitePorts

/-!
# Identifold.Storage.SqlitePackages

The SQLite adapters of all packages, call by call.

The packages run the same statements over the same tables.  They differ in how
they read a machine identifier, in the type of a width, in what of a text reaches
SQLite, in the error for a counter that is missing after its insert, and in the
references that `resolve` takes apart.
-/

namespace Identifold

namespace Sqlite

open Separated Rows Database Script

/-! ## languages -/

/-- A reader of UUIDs of a standard library: it reads 16 bytes, and from a canonical machine
identifier the bytes it is written from. -/
structure UuidParser where
  parse : Text → Option MachineBytes
  length_parse : ∀ v bytes, parse v = some bytes → bytes.length = 16
  parse_machineId : ∀ v bytes, IsMachineId v → machineIdToBytes v = .ok bytes →
    parse v = some bytes

/-- What the adapters use of their languages: `uuid.UUID` of Python, `UUID.fromString` of Java and
Kotlin, `Guid.Parse` of .NET, the decimal digits of Python (`\d` and `int`), and the
strings of Swift. -/
structure Languages where
  pythonUuid : UuidParser
  uuidFromString : UuidParser
  guidParse : UuidParser
  decimal : Char → Option Nat
  decimal_ascii : ∀ c, c.toNat < 128 → decimal c = if c.isDigit then some (decimalValue c) else none
  strings : Swift.StringLibrary

/-- What an adapter throws: an error of its package, by the code, or one of its language. -/
inductive PackageError
  | identifold (code : IdentifoldErrorCode)
  | language
  deriving DecidableEq, Repr

/-- `allocation_conflict`, which the adapters map the errors of their drivers to. -/
def conflict : PackageError := .identifold .allocationConflict

/-! ## shared code -/

section Shared

variable (text : Text → Text)

/-- `reserve` of a package; `text` is what of a text reaches SQLite. -/
def packageReserve (machineId : Except PackageError MachineBytes) (db : Database)
    (reservation : ReferenceReservation) : Except PackageError (Bool × Database) := do
  let machineId ← machineId
  let (changes, db') ← (insertReference db
    ⟨text reservation.reference, text reservation.namespaceName, machineId⟩).mapError fun _ => conflict
  return (changes = 1, db')

/-- The transaction of a package; `missing` is thrown where the counter is not found after its
insert. -/
def packageTransaction (missing : IdentifoldErrorCode) (maximum : Nat) (db : Database)
    (machineId : MachineBytes) (request : SequenceAllocationRequest) (width : Nat) :
    Except PackageError (Nat × Database) := do
  let key := (text request.namespaceName, text (request.scope.getD []))
  match db.selectAllocation key machineId with
  | some existing =>
      ensure (text existing.refPrefix = request.refPrefix ∧ existing.width = width)
        (.identifold .invalidAllocationPolicy)
      return (existing.sequence, db)
  | none =>
      let db ← (insertSequence db ⟨key.1, key.2, text request.refPrefix, width, 0⟩).mapError
        fun _ => conflict
      match db.selectSequence key with
      | none => throw (.identifold missing)
      | some state =>
          ensure (text state.refPrefix = request.refPrefix ∧ state.width = width)
            (.identifold .invalidAllocationPolicy)
          ensure (state.lastValue < maximum) (.identifold .sequenceOverflow)
          let allocated := state.lastValue + 1
          let db ← (insertAllocation (db.setLastValue key allocated)
            ⟨key.1, key.2, allocated, machineId, text request.refPrefix, width⟩).mapError
              fun _ => conflict
          return (allocated, db)

/-- `allocate` of a package, for a width of its type. -/
def packageAllocate (machineIdBytes : Text → Except PackageError MachineBytes)
    (missing : IdentifoldErrorCode) (maximum : Nat → Nat) (db : Database)
    (request : SequenceAllocationRequest) (width : Int) : Except PackageError (Nat × Database) :=
  if 4 ≤ width ∧ width ≤ 18 then do
    let machineId ← machineIdBytes request.machineId
    packageTransaction text missing (maximum width.toNat) db machineId request width.toNat
  else .error (.identifold .invalidAllocationPolicy)

/-- `resolve` of a package, with the fields it looks a reference up by. -/
def packageResolve (split : Text → Option SequentialReferenceParts) (db : Database)
    (reference namespaceName : Text) : Except PackageError (Option ReferenceLookupResult) :=
  let mapping machineId namespaceName := do
    return some ⟨← (bytesToMachineId machineId).mapError fun _ => conflict, text namespaceName⟩
  match db.references.find? fun r => decide (r.reference = text reference) &&
      decide (r.namespaceName = text namespaceName) with
  | some random => mapping random.machineId random.namespaceName
  | none =>
      match split reference with
      | none => .ok none
      | some parts =>
          match db.allocations.find? fun r => decide (r.namespaceName = text namespaceName) &&
              decide (r.ownerKey = ((parts.refPrefix, parts.scope), parts.sequence)) with
          | none => .ok none
          | some sequential => mapping sequential.machineId sequential.namespaceName

end Shared

/-- A reader of UUIDs, as an adapter calls it. -/
def UuidParser.bytes (parser : UuidParser) (error : PackageError) (value : Text) :
    Except PackageError MachineBytes :=
  match parser.parse value with
  | some bytes => .ok bytes
  | none => .error error

/-- `/\A[0-9a-fA-F]{32}\z/` without the hyphens, and the bytes of the digits. -/
def hexadecimalBytes (value : Text) : Except PackageError MachineBytes :=
  let hex := strip '-' value
  if hex.length = 32 ∧ ∀ c ∈ hex, isHexDigit c = true then .ok ((hexDecode hex).getD [])
  else .error conflict

/-! ## the packages -/

namespace Ruby

/-- `machine_id_bytes`; its `ArgumentError` is rescued. -/
def machineIdBytes : Text → Except PackageError MachineBytes := hexadecimalBytes

/-- `SqliteAdapter#allocate`. -/
def allocate : Database → SequenceAllocationRequest → Int → Except PackageError (Nat × Database) :=
  packageAllocate id machineIdBytes .invalidAllocationPolicy fun width => 10 ^ width - 1

end Ruby

namespace Php

/-- `machineIdBytes`. -/
def machineIdBytes : Text → Except PackageError MachineBytes := hexadecimalBytes

/-- `SqliteStorageAdapter::allocate`. -/
def allocate : Database → SequenceAllocationRequest → Int → Except PackageError (Nat × Database) :=
  packageAllocate id machineIdBytes .invalidAllocationPolicy fun width => 10 ^ width - 1

end Php

namespace CSharp

/-- `MachineIdBytes`; no `catch` is for a `FormatException`. -/
def machineIdBytes (languages : Languages) : Text → Except PackageError MachineBytes :=
  languages.guidParse.bytes .language

/-- `AllocateAsync`; the maximum is multiplied up. -/
def allocate (languages : Languages) :
    Database → SequenceAllocationRequest → Int → Except PackageError (Nat × Database) :=
  packageAllocate id (machineIdBytes languages) .invalidAllocationPolicy
    fun width => (fun maximum => maximum * 10)^[width] 1 - 1

/-- `^...$`: `$` also matches before a last line feed. -/
def splitSequentialReference (reference : Text) : Option SequentialReferenceParts :=
  Identifold.splitSequentialReference
    (if reference.getLast? = some '\n' then reference.dropLast else reference)

end CSharp

namespace Kotlin

/-- `machineIdBytes`; its `IllegalArgumentException` is caught. -/
def machineIdBytes (languages : Languages) : Text → Except PackageError MachineBytes :=
  languages.uuidFromString.bytes conflict

/-- `allocate`; the maximum is `"9".repeat(request.width).toLong()`. -/
def allocate (languages : Languages) :
    Database → SequenceAllocationRequest → Int → Except PackageError (Nat × Database) :=
  packageAllocate id (machineIdBytes languages) .invalidAllocationPolicy
    fun width => Nat.ofDigitChars 10 (List.replicate width '9') 0

end Kotlin

namespace Swift

/-- `machineIDBytes`. -/
def machineIDBytes (languages : Languages) (value : Text) : Except PackageError MachineBytes :=
  match Identifold.Swift.parseMachineID languages.strings value with
  | .error (.error code) => .error (.identifold code)
  | .error .trapped => .error .language
  | .ok canonical =>
      match Identifold.Swift.pairBytes (languages.strings.characters (strip '-' canonical)) with
      | .ok bytes => .ok (bytes.map UInt8.ofNat)
      | .error .trapped => .error .language
      | .error (.error _) => .error conflict

/-- `allocate`; texts are bound and read as C strings, and a counter that is missing is a failure of
SQLite. -/
def allocate (languages : Languages) :
    Database → SequenceAllocationRequest → Int → Except PackageError (Nat × Database) :=
  packageAllocate cString (machineIDBytes languages) .allocationConflict
    fun width => (fun value => value * 10)^[width] 1 - 1

/-- The tests of the splitter, on the characters of the fields. -/
def acceptsFields (refPrefix scope sequence check : List Text) : Bool :=
  let upper c := c.length = 1 && c.all Char.isUpper
  let number c := c.length = 1 && c.all Char.isDigit
  (2 ≤ refPrefix.length && refPrefix.length ≤ 8) && refPrefix.all upper &&
    (scope.isEmpty || scope.length = 4 && scope.all number) &&
    (4 ≤ sequence.length && sequence.length ≤ 18) && sequence.all number && check.length = 1

/-- `parseSequentialReference`. -/
def parseSequentialReference (languages : Languages) (reference : Text) :
    Option SequentialReferenceParts :=
  let parts refPrefix scope sequence check :=
    if acceptsFields refPrefix scope sequence check then
      some ⟨refPrefix.flatten, scope.flatten, Nat.ofDigitChars 10 sequence.flatten 0⟩
    else none
  match (languages.strings.characters reference).splitOn ['-'] with
  | [refPrefix, sequence, check] => parts refPrefix [] sequence check
  | [refPrefix, scope, sequence, check] => parts refPrefix scope sequence check
  | _ => none

end Swift

namespace Python

/-- `_SEQUENTIAL_REFERENCE`: `\d` is a decimal digit of Unicode, and `int` reads them. -/
def splitSequentialReference (languages : Languages) (reference : Text) :
    Option SequentialReferenceParts :=
  let digits v := v.all fun c => (languages.decimal c).isSome
  let int v := v.foldl (fun n c => 10 * n + (languages.decimal c).getD 0) 0
  let parts refPrefix scope sequence check :=
    if isReferencePrefix refPrefix && (4 ≤ sequence.length && sequence.length ≤ 18 && digits sequence) &&
        isCheckCharacter check then some ⟨refPrefix, scope, int sequence⟩
    else none
  match reference.splitOn '-' with
  | [refPrefix, sequence, check] => parts refPrefix [] sequence check
  | [refPrefix, scope, sequence, check] =>
      if scope.length = 4 && digits scope then parts refPrefix scope sequence check else none
  | _ => none

/-- `allocate` on an idle connection, with the tables it leaves committed. -/
def allocateIdle (languages : Languages) (db : Database) (request : SequenceAllocationRequest) :
    Except PackageError Nat × Database :=
  let (outcome, connection) :=
    (allocate languages.pythonUuid.parse (fun _ => false) request).run (.handedOver db none)
  (outcome.mapError fun
    | .identifold error => .identifold error.code
    | .foreign => .language, connection.committed)

end Python

namespace Java

/-- `allocateSynchronously` on an idle connection, with the tables it leaves committed. -/
def allocateIdle (languages : Languages) (db : Database) (request : SequenceAllocationRequest) :
    Except PackageError Nat × Database :=
  let (outcome, session) :=
    run (allocateSynchronously (fun _ => false) request languages.uuidFromString.parse)
      ⟨.handedOver db none, []⟩
  (outcome.mapError fun
    | .completion code => .identifold code
    | _ => .language, session.connection.committed)

end Java

/-! ## calls of a package -/

/-- The packages with a SQLite adapter. -/
inductive Package
  | typescript
  | python
  | rust
  | go
  | ruby
  | php
  | csharp
  | java
  | kotlin
  | swift
  deriving DecidableEq, Repr

/-- What a call returns. -/
inductive Answer
  | reserved (won : Bool)
  | allocated (value : Nat)
  deriving DecidableEq, Repr

/-- A width of the type `byte`, `u8`, `uint8` or `UInt8`. -/
def byteWidth : JsNumber → Option UInt8
  | .integer (.ofNat width) => if width < 256 then some (UInt8.ofNat width) else none
  | _ => none

/-- A width of a type of integers. -/
def integerWidth : JsNumber → Option Int
  | .integer width => some width
  | .other => none

namespace Package

variable (languages : Languages)

/-- How a package reads a machine identifier. -/
def machineIdBytes : Package → Text → Except PackageError MachineBytes
  | .typescript, value => (machineIdToBytes value).mapError (.identifold ·.code)
  | .python, value => languages.pythonUuid.bytes conflict value
  | .rust, value => (Rust.machineIdBytes value).elim (.error conflict) .ok
  | .go, value => (Go.machineIdBytes value).elim (.error conflict) .ok
  | .ruby, value => Ruby.machineIdBytes value
  | .php, value => Php.machineIdBytes value
  | .csharp, value => CSharp.machineIdBytes languages value
  | .java, value => languages.uuidFromString.bytes conflict value
  | .kotlin, value => Kotlin.machineIdBytes languages value
  | .swift, value => Swift.machineIDBytes languages value

/-- What of a text a package passes to SQLite and reads from it. -/
def text : Package → Text → Text
  | .swift => cString
  | _ => id

/-- How a package takes a reference apart. -/
def split : Package → Text → Option SequentialReferenceParts
  | .python => Python.splitSequentialReference languages
  | .rust => fun reference => (Identifold.Rust.parseSequentialReference reference).map
      fun (refPrefix, scope, sequence) => ⟨refPrefix, scope, Nat.ofDigitChars 10 sequence 0⟩
  | .csharp => CSharp.splitSequentialReference
  | .swift => Swift.parseSequentialReference languages
  | _ => splitSequentialReference

/-- `reserve`. -/
def reserve (package : Package) (db : Database) (reservation : ReferenceReservation) :
    Except PackageError (Bool × Database) :=
  packageReserve package.text (package.machineIdBytes languages reservation.machineId) db reservation

/-- `resolve`. -/
def resolve (package : Package) : Database → Text → Text →
    Except PackageError (Option ReferenceLookupResult) :=
  packageResolve package.text (package.split languages)

/-- `allocate`, with the tables it leaves; there is no such call where the width is not of the type
of the package. -/
def allocate (db : Database) (request : SequenceAllocationRequest) :
    Package → Option (Except PackageError Nat × Database)
  | .typescript => some (settle db ((Sqlite.allocate db request).mapError (.identifold ·.code)))
  | .python => (integerWidth request.width).map fun width =>
      Python.allocateIdle languages db
        ⟨request.machineId, request.namespaceName, request.refPrefix, request.scope, width⟩
  | .rust => (byteWidth request.width).map fun width => settle db ((Rust.allocate db
      ⟨request.machineId, request.namespaceName, request.refPrefix, request.scope, width⟩).mapError
        .identifold)
  | .go => (byteWidth request.width).map fun width => settle db ((Go.allocate db
      ⟨request.machineId, request.namespaceName, request.refPrefix, request.scope, width⟩).mapError
        .identifold)
  | .ruby => (integerWidth request.width).map fun width => settle db (Ruby.allocate db request width)
  | .php => (integerWidth request.width).map fun width => settle db (Php.allocate db request width)
  | .csharp => (byteWidth request.width).map fun width =>
      settle db (CSharp.allocate languages db request width.toNat)
  | .java => (integerWidth request.width).map fun width => Java.allocateIdle languages db
      ⟨some request.machineId, some request.namespaceName, some request.refPrefix, request.scope, width⟩
  | .kotlin => (integerWidth request.width).map fun width =>
      settle db (Kotlin.allocate languages db request width)
  | .swift => (byteWidth request.width).map fun width =>
      settle db (Swift.allocate languages db request width.toNat)

/-- A call of a package, with the tables it leaves. -/
def exec (package : Package) (db : Database) :
    Call → Option (Except PackageError Answer × Database)
  | .reserve reservation =>
      match package.reserve languages db reservation with
      | .ok (won, db') => some (.ok (.reserved won), db')
      | .error error => some (.error error, db)
  | .allocate request =>
      (package.allocate languages db request).map fun (outcome, db') =>
        (outcome.map .allocated, db')

end Package

end Sqlite

end Identifold
