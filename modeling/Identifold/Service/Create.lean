import Identifold.Lib.Interleaving
import Identifold.PublicId
import Identifold.Storage.Sqlite

/-!
# Identifold.Service.Create

`create` of `packages/typescript/src/service.ts` and `resolve` of
`packages/typescript/src/resolver.ts`, over the SQLite adapters.

`create` is an asynchronous function.  It runs to its first `await` when it is
called; the statement of the adapter runs in a later job, as a whole; the
function continues in a third.  Between these jobs any other call may run, so
a call is a thread whose steps are its jobs.  What the injected sources
return is read from outside, anew at every use.
-/

namespace Identifold

open Interleaving

/-! ## the service -/

/-- `createIdentifold`'s options, as far as `create` uses them; the stores are
the SQLite adapters. -/
structure IdentifoldService where
  registry : NamespaceRegistry
  maxReferenceAttempts : Nat
  attempts_valid : 1 ≤ maxReferenceAttempts ∧ maxReferenceAttempts ≤ 100

theorem toNat_attempts {n : Int} (h : 1 ≤ n ∧ n ≤ 100) : 1 ≤ n.toNat ∧ n.toNat ≤ 100 := by
  omega

/-- `createIdentifold`. -/
def createIdentifold (registry : NamespaceRegistry) (maxReferenceAttempts : Option JsNumber) :
    Except IdentifoldError IdentifoldService :=
  match maxReferenceAttempts.getD (.integer 8) with
  | .integer n =>
      if h : 1 ≤ n ∧ n ≤ 100 then .ok ⟨registry, n.toNat, toNat_attempts h⟩
      else .error ⟨.invalidAllocationPolicy,
        "Maximum reference attempts must be an integer between 1 and 100"⟩
  | .other => .error ⟨.invalidAllocationPolicy,
      "Maximum reference attempts must be an integer between 1 and 100"⟩

/-- The services are what `createIdentifold` returns: one for each registry
and each bound between 1 and 100, and 8 is the bound that is not given. -/
theorem createIdentifold_ok_iff {registry : NamespaceRegistry} {attempts : Option JsNumber}
    {service : IdentifoldService} :
    createIdentifold registry attempts = .ok service ↔
      service.registry = registry ∧
        attempts.getD (.integer 8) = .integer service.maxReferenceAttempts := by
  obtain ⟨registry', m, hm⟩ := service
  unfold createIdentifold
  cases attempts.getD (.integer 8) with
  | other => simp
  | integer n =>
      simp only [JsNumber.integer.injEq]
      by_cases hn : 1 ≤ n ∧ n ≤ 100
      · rw [dif_pos hn, Except.ok.injEq, IdentifoldService.mk.injEq]
        refine and_congr eq_comm ?_
        omega
      · rw [dif_neg hn]
        simp only [reduceCtorEq, false_iff, not_and]
        omega

/-- `Identity`. -/
structure Identity where
  mid : Text
  pid : Text
  ref : Option Text
  deriving DecidableEq, Repr

/-- What the sources return, or throw, when they are asked: the machine
identifier source, the clock (the UTC year of its date, `none` for an invalid
date), and the byte source. -/
structure Sources where
  machineId : Except Thrown Text
  now : Except Thrown (Option Int)
  randomBytes : Except Thrown (Nat → List UInt8)

/-- `currentUtcYear`. -/
def currentUtcYear (now : Option Int) : Except IdentifoldError Text :=
  match now with
  | none => .error ⟨.invalidAllocationPolicy,
      "Clock returned a date outside the supported calendar-year range"⟩
  | some year =>
      if 0 ≤ year ∧ year ≤ 9999 then .ok (padStart 4 (Nat.toDigits 10 year.toNat))
      else .error ⟨.invalidAllocationPolicy,
        "Clock returned a date outside the supported calendar-year range"⟩

/-! ## create -/

/-- Where a call of `create` stands. -/
inductive CreatePhase
  /-- `reserve` has been called; its statement has not run. -/
  | reserving (attempt : Nat) (base : Identity) (reference : Text)
  /-- The statement has run; `create` has not continued. -/
  | reserved (attempt : Nat) (base : Identity) (reference : Text)
      (result : Except IdentifoldError Bool)
  /-- `allocate` has been called; its transaction has not run. -/
  | allocating (base : Identity) (request : SequenceAllocationRequest)
  /-- The transaction has run; `create` has not continued. -/
  | allocated (base : Identity) (scope : Option Text) (result : Except IdentifoldError Nat)
  /-- The promise is settled. -/
  | settled (result : Except Thrown Identity)
  deriving DecidableEq

/-- A call of `create`, with the namespace it was called for. -/
structure Creation where
  namespaceName : Text
  phase : CreatePhase
  deriving DecidableEq

/-- Run a storage call on the database: a call that fails has rolled back. -/
def commitOrRollback {α : Type} (db : Database) :
    Except IdentifoldError (α × Database) → Except IdentifoldError α × Database
  | .ok (a, db') => (.ok a, db')
  | .error e => (.error e, db)

section Create

variable (unicode : CaseMapping) (uuid : UuidLibrary) (typeid : TypeIdLibrary)

/-- `createBaseIdentity`. -/
def createBaseIdentity (namespaceName : Text) (sources : Sources) : Except Thrown Identity := do
  let value ← sources.machineId
  let mid ← parseMachineId unicode uuid value
  let pid ← publicIdFromMachineId unicode uuid typeid mid namespaceName
  return ⟨mid, pid, none⟩

/-- The scope of a request: the year of the clock, for a calendar-year policy. -/
def requestScope (reference : RegisteredSequentialReferenceDefinition) (sources : Sources) :
    Except Thrown (Option Text) :=
  match reference.scope with
  | .calendarYear => do
      let now ← sources.now
      let year ← (currentUtcYear now).mapError .identifold
      return some year
  | .none => .ok none

/-- The request of the sequential branch, with the identity it is for. -/
def requestSequence (reference : RegisteredSequentialReferenceDefinition) (namespaceName : Text)
    (sources : Sources) : Except Thrown (Identity × SequenceAllocationRequest) := do
  let base ← createBaseIdentity unicode uuid typeid namespaceName sources
  let scope ← requestScope reference sources
  return (base, ⟨base.mid, namespaceName, reference.refPrefix, scope, .integer reference.width⟩)

variable (service : IdentifoldService)

/-- The head of the loop of the random branch. -/
def nextCandidate (namespaceName : Text) (attempt : Nat) (base : Identity) (sources : Sources) :
    CreatePhase :=
  if attempt < service.maxReferenceAttempts then
    let candidate := do
      let randomBytes ← sources.randomBytes
      (createReferenceCandidate service.registry namespaceName randomBytes).mapError .identifold
    match candidate with
    | .ok reference => .reserving attempt base reference
    | .error e => .settled (.error e)
  else
    .settled (.error (.identifold
      ⟨.allocationExhausted, "Could not reserve a unique human reference"⟩))

/-- `create`, up to its first `await`. -/
def create (namespaceName : Text) (sources : Sources) : CreatePhase :=
  match service.registry.getByPublicPrefix namespaceName with
  | none => .settled (.error (.identifold
      ⟨.unknownNamespace, "Unknown public identifier namespace"⟩))
  | some definition =>
      match definition.reference with
      | none => .settled (createBaseIdentity unicode uuid typeid namespaceName sources)
      | some (.sequence reference) =>
          match requestSequence unicode uuid typeid reference namespaceName sources with
          | .ok (base, request) => .allocating base request
          | .error e => .settled (.error e)
      | some (.random _) =>
          match createBaseIdentity unicode uuid typeid namespaceName sources with
          | .ok base => nextCandidate service namespaceName 0 base sources
          | .error e => .settled (.error e)

/-- The next job of a call: the statement it waits for, or its continuation.
A settled call has none. -/
def createStep (db : Database) (namespaceName : Text) (phase : CreatePhase) (sources : Sources) :
    Option (Database × CreatePhase) :=
  match phase with
  | .reserving attempt base reference =>
      let (result, db') := commitOrRollback db
        (Sqlite.reserve db ⟨base.mid, namespaceName, reference⟩)
      some (db', .reserved attempt base reference result)
  | .reserved attempt base reference result =>
      match result with
      | .error e => some (db, .settled (.error (.identifold e)))
      | .ok true => some (db, .settled (.ok { base with ref := some reference }))
      | .ok false => some (db, nextCandidate service namespaceName (attempt + 1) base sources)
  | .allocating base request =>
      let (result, db') := commitOrRollback db (Sqlite.allocate db request)
      some (db', .allocated base request.scope result)
  | .allocated base scope result =>
      let ref := do
        let sequence ← result
        formatSequentialReference service.registry namespaceName sequence scope
      match ref with
      | .error e => some (db, .settled (.error (.identifold e)))
      | .ok reference => some (db, .settled (.ok { base with ref := some reference }))
  | .settled _ => none

attribute [grind =] createStep

/-- Any number of concurrent calls of `create` on one database. -/
def createProgram : Program Database Creation (Text × Sources) Sources where
  start argument :=
    ⟨argument.1, create unicode uuid typeid service argument.1 argument.2⟩
  step _ db creation sources :=
    (createStep service db creation.namespaceName creation.phase sources).map fun (db', phase) =>
      (db', { creation with phase := phase })

/-! ## resolve -/

/-- `ResolvedReference`. -/
structure ResolvedReference where
  machineId : Text
  namespaceName : Text
  reference : Text
  deriving DecidableEq, Repr

/-- `resolve` of `createReferenceResolver`; the lookup reads the database as a
whole. -/
def resolve (registry : NamespaceRegistry) (db : Database) (value : Text) :
    Except Thrown (Option ResolvedReference) := do
  let parsed ← (parseReference value registry).mapError .identifold
  let result ← (Sqlite.lookup db parsed.value parsed.namespaceName).mapError .identifold
  match result with
  | none => return none
  | some result => do
      ensure (result.namespaceName = parsed.namespaceName)
        (.identifold ⟨.allocationConflict, "Resolved reference namespace does not match"⟩)
      let machineId ← parseMachineId unicode uuid result.machineId
      return some ⟨machineId, parsed.namespaceName, parsed.value⟩

end Create

end Identifold
