import Identifold.Service.Resolution
import Identifold.Storage.PostgresAdapter
import Identifold.Storage.PostgresProgress

/-!
# Identifold.Service.PostgresCreate

`create` and `resolve` over the PostgreSQL adapters.

A call of `create` sends at most one query at a time, and a query is a call of a
function of the server that takes its statements there, in between those of every
other client.  So a call is a thread with two places: where `create` stands, and the
query that runs for it.  A transaction may be aborted, and a client may lose its
connection: it then fails, while its query goes on and may still be committed.

Of what `create` returns nothing is lost to this: `postgresCreate_resolve` is
`create_resolve` for PostgreSQL.

* `PhaseInvariant.answered` — an answer is in the tables;
* `postgresJob_keeps` — a job of the client keeps what is known of its call;
* `postgresCreateStep_keeps` — so does every step.
-/

namespace Identifold

open Interleaving Transition Postgres

/-! ## create -/

/-- A call of `create`, with the query that runs for it. -/
structure PostgresCreation where
  namespaceName : Text
  phase : CreatePhase
  query : Option StorageSession
  deriving DecidableEq

/-- What may happen to a call of `create`. -/
inductive PostgresInput
  /-- The client runs its next job. -/
  | job (sources : Sources)
  /-- The server takes a step of the query. -/
  | server (input : Postgres.Input)
  /-- The client loses its connection. -/
  | disconnect

/-- The query that `create` waits for, as it is sent. -/
def CreatePhase.sent (driver : Driver) (namespaceName : Text) :
    CreatePhase → Option (Except PgError StorageCall)
  | .reserving _ base reference =>
      some ((reserveCall driver ⟨base.mid, namespaceName, reference⟩).map .reserve)
  | .allocating _ request => some ((allocateCall driver request).map .allocate)
  | _ => none

/-- The phase after the adapter has read the answer to its query. -/
def CreatePhase.answered (answer : Except QueryError (List SqlValue)) : CreatePhase → CreatePhase
  | .reserving attempt base reference => .reserved attempt base reference (readReserved answer)
  | .allocating base request =>
      .allocated base request.scope ((readSequence answer).map Int.toNat)
  | phase => phase

/-- The answer of the server, once the query has completed. -/
def Postgres.StorageSession.answer (driver : Driver) :
    StorageSession → Option (Except QueryError (List SqlValue))
  | .reserve _ (.done result) => some result.answer
  | .allocate ⟨_, .done result⟩ => some (result.answer driver)
  | _ => none

section Create

variable (unicode : CaseMapping) (uuid : UuidLibrary) (typeid : TypeIdLibrary)
  (service : IdentifoldService) (driver : Driver)

/-- The next job of the client: to send the query, to read its answer, or to
continue `create`. -/
def postgresJob (s : Storage) (creation : PostgresCreation) (sources : Sources) :
    Option PostgresCreation :=
  match creation.phase.sent driver creation.namespaceName with
  | some call =>
      match creation.query with
      | none =>
          match call with
          | .ok call => some { creation with query := some call.session }
          | .error error =>
              some { creation with phase := creation.phase.answered (.error (.server error)) }
      | some session => (session.answer driver).map fun answer =>
          { creation with phase := creation.phase.answered answer, query := none }
  | none =>
      (createStep service s.committed creation.namespaceName creation.phase sources).map
        fun (_, phase) => { creation with phase := phase }

/-- The next step of a call of `create`, or of its query. -/
def postgresCreateStep (i : Nat) (s : Storage) (creation : PostgresCreation) :
    PostgresInput → Option (Storage × PostgresCreation)
  | .job sources => (postgresJob service driver s creation sources).map fun creation' =>
      (s, creation')
  | .server input =>
      match creation.query with
      | none => none
      | some session => (storageStep i s session input).map fun (s', session') =>
          (s', { creation with query := some session' })
  | .disconnect =>
      match creation.phase.sent driver creation.namespaceName, creation.query with
      | some _, some _ =>
          some (s, { creation with phase := creation.phase.answered (.error .connection) })
      | _, _ => none

/-- Any number of concurrent calls of `create` on one server. -/
def postgresCreateProgram : Program Storage PostgresCreation (Text × Sources) PostgresInput where
  start argument :=
    ⟨argument.1, create unicode uuid typeid service argument.1 argument.2, none⟩
  step := postgresCreateStep service driver

/-! ## resolve -/

/-- `resolve` of `createReferenceResolver`, over the lookup of an adapter. -/
def resolveBy (registry : NamespaceRegistry)
    (lookup : Text → Text → Except IdentifoldError (Option ReferenceLookupResult)) (value : Text) :
    Except Thrown (Option ResolvedReference) := do
  let parsed ← (parseReference value registry).mapError .identifold
  let result ← (lookup parsed.value parsed.namespaceName).mapError .identifold
  match result with
  | none => return none
  | some result => do
      ensure (result.namespaceName = parsed.namespaceName)
        (.identifold ⟨.allocationConflict, "Resolved reference namespace does not match"⟩)
      let machineId ← parseMachineId unicode uuid result.machineId
      return some ⟨machineId, parsed.namespaceName, parsed.value⟩

theorem resolveBy_sqlite (registry : NamespaceRegistry) (db : Database) (value : Text) :
    resolveBy unicode uuid registry (Sqlite.lookup db) value = resolve unicode uuid registry db value :=
  rfl

end Create

/-! ## texts of lookups -/

/-- What `resolve` looks up holds no NUL. -/
theorem parseReference_no_nul {registry : NamespaceRegistry} {value : Text}
    {parsed : ParsedReference}
    (h : parseReference value registry = .ok parsed) :
    '\x00' ∉ parsed.value ∧ '\x00' ∉ parsed.namespaceName := by
  obtain ⟨d, -, r, -, raw, hraw, -, rfl⟩ := parseReference_ok_iff.mp h
  have hpayload := IsSpelledPayload.normalize r hraw
  constructor
  · intro hnul
    have hsymbol := mem_written r (IsPayload.spelled r hpayload).1
      (.inr (.inr (canonical_eq r hpayload))) hnul
    rcases hsymbol with hsymbol | hsymbol
    · revert hsymbol
      decide
    · contradiction
  · intro hnul
    have hvalid := d.publicPrefix_valid
    simp only [isPublicPrefix, isTypeIdPrefix, Bool.and_eq_true, List.all_eq_true] at hvalid
    have hsymbol := hvalid.2.2 _ hnul
    contradiction

/-- Over the tables of `create`, both lookups resolve alike. -/
theorem resolveBy_databaseLookup (unicode : CaseMapping) (uuid : UuidLibrary)
    (registry : NamespaceRegistry) {db : Database} (hdb : db.Consistent) (hids : HoldsUuids db)
    (value : Text) :
    resolveBy unicode uuid registry (databaseLookup db) value =
      resolve unicode uuid registry db value := by
  rw [← resolveBy_sqlite, resolveBy, resolveBy]
  cases hparse : parseReference value registry with
  | error e => rfl
  | ok parsed =>
      obtain ⟨hvalue, hname⟩ := parseReference_no_nul hparse
      have hlookup := databaseLookup_eq hdb hids parsed.value parsed.namespaceName
      rw [if_neg (not_or.mpr ⟨hvalue, hname⟩)] at hlookup
      simp only [Except.mapError, ok_bind, hlookup]

/-! ## invariants -/

/-- What holds of the server between two steps of calls of `create`. -/
structure PostgresStore (registry : NamespaceRegistry) (n : Nat) (s : Storage) : Prop where
  sound : StorageSound n s
  candidates : ∀ row ∈ s.committed.references, IsCandidate registry row.namespaceName row.reference
  uuids : HoldsUuids s.committed

/-- The query fails, and `create` with it. -/
def CreatePhase.fails : CreatePhase → Prop
  | .reserved _ _ _ (.error _) | .allocated _ _ (.error _) | .settled (.error _) => True
  | _ => False

/-- What a query of `create` is for. -/
def Postgres.StorageCall.Serves (registry : NamespaceRegistry) : StorageCall → Prop
  | .reserve call => IsCandidate registry call.namespaceName call.reference ∧ call.machineId.length = 16
  | .allocate call => call.machineId.length = 16

/-- A query that runs is the one that `create` waits for, until it fails with the
connection. -/
structure Issued (registry : NamespaceRegistry) (driver : Driver) (namespaceName : Text)
    (phase : CreatePhase) (call : StorageCall) : Prop where
  sent : phase.sent driver namespaceName = some (.ok call) ∨ phase.fails
  serves : call.Serves registry

/-- What is known of a call of `create`. -/
def CreationKnows (registry : NamespaceRegistry) (driver : Driver) (i : Nat) (s : Storage)
    (creation : PostgresCreation) : Prop :=
  PhaseInvariant registry s.committed creation.namespaceName creation.phase ∧
    match creation.query with
    | none => Idle i s
    | some session => StorageKnows i s session ∧
        Issued registry driver creation.namespaceName creation.phase session.call

section Phases

variable {registry : NamespaceRegistry} {driver : Driver} {db : Database} {namespaceName : Text}
  {phase : CreatePhase}

theorem PostgresStore.storeInvariant {n : Nat} {s : Storage} (hs : PostgresStore registry n s) :
    StoreInvariant registry s.committed := ⟨hs.sound.server.consistent, hs.candidates⟩

/-- A call that fails waits for no query. -/
theorem CreatePhase.fails.sent_eq_none (h : phase.fails) :
    phase.sent driver namespaceName = none := by
  unfold CreatePhase.fails at h
  split at h
  · rfl
  · rfl
  · rfl
  · contradiction

/-- A query that is not answered fails. -/
theorem CreatePhase.answered_error {error : QueryError} {call : Except PgError StorageCall}
    (hsent : phase.sent driver namespaceName = some call) :
    (phase.answered (.error error)).fails := by
  cases phase with
  | reserving attempt base reference => trivial
  | allocating base request => trivial
  | reserved attempt base reference result => contradiction
  | allocated base scope result => contradiction
  | settled result => contradiction

/-- A phase that fails knows what it knew. -/
theorem PhaseInvariant.answered_error (h : PhaseInvariant registry db namespaceName phase)
    (error : QueryError) :
    PhaseInvariant registry db namespaceName (phase.answered (.error error)) := by
  cases phase with
  | reserving attempt base reference => exact ⟨h.1, fun hok => by contradiction⟩
  | allocating base request => exact ⟨h.1, fun n hok => by contradiction⟩
  | reserved attempt base reference result => exact h
  | allocated base scope result => exact h
  | settled result => exact h

/-- The query of a reservation, as it was sent. -/
theorem reserveCall_of_sent {attempt : Nat} {base : Identity} {reference : Text}
    {call : StorageCall}
    (h : (CreatePhase.reserving attempt base reference).sent driver namespaceName =
      some (.ok call)) :
    ∃ call', call = .reserve call' ∧
      reserveCall driver ⟨base.mid, namespaceName, reference⟩ = .ok call' := by
  have hmap := Option.some.inj h
  cases hcall : reserveCall driver ⟨base.mid, namespaceName, reference⟩ with
  | error e =>
      rw [hcall] at hmap
      contradiction
  | ok call' =>
      rw [hcall] at hmap
      exact ⟨call', (Except.ok.inj hmap).symm, rfl⟩

/-- The query of an allocation, as it was sent. -/
theorem allocateCall_of_sent {base : Identity} {request : SequenceAllocationRequest}
    {call : StorageCall}
    (h : (CreatePhase.allocating base request).sent driver namespaceName = some (.ok call)) :
    ∃ call', call = .allocate call' ∧ allocateCall driver request = .ok call' := by
  have hmap := Option.some.inj h
  cases hcall : allocateCall driver request with
  | error e =>
      rw [hcall] at hmap
      contradiction
  | ok call' =>
      rw [hcall] at hmap
      exact ⟨call', (Except.ok.inj hmap).symm, rfl⟩

/-- A query that is sent is for the namespace. -/
theorem PhaseInvariant.serves (h : PhaseInvariant registry db namespaceName phase)
    {call : StorageCall} (hsent : phase.sent driver namespaceName = some (.ok call)) :
    call.Serves registry := by
  cases phase with
  | reserving attempt base reference =>
      obtain ⟨call, rfl, hcall⟩ := reserveCall_of_sent hsent
      obtain ⟨hid, hrow⟩ := reserveCall_ok hcall
      obtain ⟨hreference, hname, -⟩ := ReferenceRow.mk.inj hrow
      rw [StorageCall.Serves, hreference, hname]
      exact ⟨h.2, driver.uuidIn_length _ _ hid⟩
  | allocating base request =>
      obtain ⟨call, rfl, hcall⟩ := allocateCall_of_sent hsent
      exact driver.uuidIn_length _ _ (allocateCall_ok hcall).1
  | reserved attempt base reference result => contradiction
  | allocated base scope result => contradiction
  | settled result => contradiction

/-- A reservation that was answered with true is in the tables. -/
theorem stored_of_answer {i : Nat} {s : Storage} {session : StorageSession} {call : ReserveCall}
    {rows : List SqlValue} (hcall : session.call = .reserve call)
    (hknows : StorageKnows i s session) (hanswer : session.answer driver = some (.ok rows))
    (hok : readReserved (.ok rows) = .ok true) : call.row ∈ s.committed.references := by
  cases session with
  | allocate session => contradiction
  | reserve call' phase =>
      obtain rfl := StorageCall.reserve.inj hcall
      obtain ⟨-, hknows⟩ := hknows
      cases hknows with
      | inserting | won | lost => contradiction
      | refused =>
          obtain rfl : [SqlValue.boolean false] = rows := Except.ok.inj (Option.some.inj hanswer)
          contradiction
      | failed | aborted =>
          have herror := Option.some.inj hanswer
          contradiction
      | reserved hheld hstored => exact hstored

/-- The number that an allocation was answered with is its row's. -/
theorem replays_of_answer {i n : Nat} {s : Storage} {session : StorageSession}
    {call : AllocateCall} {rows : List SqlValue} (hcall : session.call = .allocate call)
    (hknows : StorageKnows i s session) (hanswer : session.answer driver = some (.ok rows))
    (hok : (readSequence (.ok rows)).map Int.toNat = .ok n) :
    ∃ row ∈ s.committed.allocations, row.key = call.key ∧ row.machineId = call.machineId ∧
      row.refPrefix = call.refPrefix ∧ row.sequence = n := by
  cases session with
  | reserve call' phase => contradiction
  | allocate session =>
      obtain ⟨call', phase⟩ := session
      obtain rfl : call' = call := StorageCall.allocate.inj hcall
      obtain ⟨-, hknows⟩ := hknows
      cases hknows with
      | replaying | creating | locking | waiting | rechecking | updating | recording
      | recorded | replayed => contradiction
      | failed | aborted =>
          have herror := Option.some.inj hanswer
          contradiction
      | returned sequence _ hreplays =>
          obtain rfl : [driver.int8 sequence] = rows := Except.ok.inj (Option.some.inj hanswer)
          rw [readSequence_int8] at hok
          obtain rfl : sequence = n := Except.ok.inj hok
          obtain ⟨-, row, hrow, hmachine, hpolicy, hn⟩ := hreplays
          obtain ⟨hkey, hid⟩ := Prod.mk.inj hmachine
          exact ⟨row, hrow, hkey, hid, hpolicy.1, hn⟩

/-- **Answers**: what the server returns to a query of `create` is in its tables. -/
theorem PhaseInvariant.answered {i : Nat} {s : Storage} {session : StorageSession}
    {answer : Except QueryError (List SqlValue)}
    (h : PhaseInvariant registry s.committed namespaceName phase)
    (hsent : phase.sent driver namespaceName = some (.ok session.call))
    (hknows : StorageKnows i s session) (hanswer : session.answer driver = some answer) :
    PhaseInvariant registry s.committed namespaceName (phase.answered answer) := by
  cases answer with
  | error error => exact h.answered_error error
  | ok rows =>
  cases phase with
  | reserving attempt base reference =>
      obtain ⟨hmid, hcandidate⟩ := h
      obtain ⟨bytes, hbytes, hin⟩ := driver.uuidIn_of_isMachineId hmid
      obtain ⟨call, hcall, hsent⟩ := reserveCall_of_sent hsent
      obtain ⟨hid, hrow⟩ := reserveCall_ok hsent
      obtain rfl : bytes = call.machineId := Option.some.inj (hin.symm.trans hid)
      refine ⟨hmid, fun hok => ⟨_, hbytes, .inl ⟨hcandidate, ?_⟩⟩⟩
      exact hrow ▸ stored_of_answer hcall hknows hanswer hok
  | allocating base request =>
      obtain ⟨hmid, d, hd, hp, r, scope, hr, rfl⟩ := h
      obtain ⟨bytes, hbytes, hin⟩ := driver.uuidIn_of_isMachineId hmid
      obtain ⟨call, hcall, hsent⟩ := allocateCall_of_sent hsent
      obtain ⟨hid, hpre, hkey, -⟩ := allocateCall_ok hsent
      obtain rfl : bytes = call.machineId := Option.some.inj (hin.symm.trans hid)
      refine ⟨hmid, fun n hok => ⟨_, hbytes, d, hd, hp, r, hr, ?_⟩⟩
      obtain ⟨row, hrow, hrowkey, hrowid, hrowpre, hn⟩ :=
        replays_of_answer hcall hknows hanswer hok
      exact ⟨row, hrow, hrowkey.trans hkey, hrowpre.trans hpre, hn, hrowid⟩
  | reserved attempt base reference result => exact h
  | allocated base scope result => exact h
  | settled result => exact h

/-- A job of `create` that waits for no query leaves the tables alone, and a call
that fails goes on to fail. -/
theorem createStep_of_sent_eq_none {service : IdentifoldService} {sources : Sources}
    {db' : Database}
    {phase' : CreatePhase} (hsent : phase.sent driver namespaceName = none)
    (h : createStep service db namespaceName phase sources = some (db', phase')) :
    db' = db ∧ (phase.fails → phase'.fails) := by
  cases phase with
  | reserving attempt base reference => contradiction
  | allocating base request => contradiction
  | settled result => simp [createStep] at h
  | reserved attempt base reference result =>
      simp only [createStep] at h
      split at h <;> cases h
      · exact ⟨rfl, fun _ => trivial⟩
      · exact ⟨rfl, fun hfails => by contradiction⟩
      · exact ⟨rfl, fun hfails => by contradiction⟩
  | allocated base scope result =>
      simp only [createStep] at h
      split at h
      · cases h
        exact ⟨rfl, fun _ => trivial⟩
      · rename_i hformat
        cases h
        refine ⟨rfl, fun hfails => ?_⟩
        cases result with
        | ok n => contradiction
        | error e => contradiction

end Phases

/-! ## steps -/

section Steps

variable {service : IdentifoldService} {driver : Driver} {n i : Nat} {s s' : Storage}
  {creation creation' : PostgresCreation}

/-- A job of the client keeps what is known of its call. -/
theorem postgresJob_keeps {sources : Sources} (hs : PostgresStore service.registry n s)
    (hknows : CreationKnows service.registry driver i s creation)
    (h : postgresJob service driver s creation sources = some creation') :
    CreationKnows service.registry driver i s creation' := by
  obtain ⟨name, phase, query⟩ := creation
  obtain ⟨hphase, hquery⟩ := hknows
  simp only [postgresJob] at h
  split at h
  · rename_i call hsent
    cases query with
    | none =>
        cases call with
        | ok call =>
            -- the query is sent
            obtain rfl := Option.some.inj h
            have hcall : call.session.call = call := by cases call <;> rfl
            refine ⟨hphase, hquery.start call, ?_, ?_⟩
            · rw [hcall]
              exact .inl hsent
            · rw [hcall]
              exact hphase.serves hsent
        | error error =>
            obtain rfl := Option.some.inj h
            exact ⟨hphase.answered_error _, hquery⟩
    | some session =>
        -- the query has completed, and its answer is taken
        obtain ⟨answer, hanswer, rfl⟩ := Option.map_eq_some_iff.mp h
        obtain ⟨hsession, hissued⟩ := hquery
        have hcall : phase.sent driver name = some (.ok session.call) := by
          rcases hissued.sent with hcall | hfails
          · exact hcall
          · rw [hfails.sent_eq_none] at hsent
            contradiction
        have hdone : (storageOutcome session).isSome = true := by
          unfold StorageSession.answer at hanswer
          split at hanswer
          · rfl
          · rfl
          · contradiction
        exact ⟨hphase.answered hcall hsession hanswer, hsession.idle hdone⟩
  · rename_i hsent
    -- a step without a query touches no table
    obtain ⟨⟨db', phase'⟩, hstep, rfl⟩ := Option.map_eq_some_iff.mp h
    obtain ⟨hdb, hfails⟩ := createStep_of_sent_eq_none hsent hstep
    obtain ⟨-, -, hphase'⟩ := createStep_invariant hs.storeInvariant hphase hstep
    refine ⟨hdb ▸ hphase', ?_⟩
    cases query with
    | none => exact hquery
    | some session =>
        obtain ⟨hsession, hissued⟩ := hquery
        refine ⟨hsession, .inr ?_, hissued.serves⟩
        rcases hissued.sent with hcall | hfailing
        · rw [hsent] at hcall
          contradiction
        · exact hfails hfailing

/-- A step of a query adds rows of its call. -/
theorem Postgres.StorageEffect.store {session : StorageSession} {registry : NamespaceRegistry}
    (hs : PostgresStore registry n s) (heffect : StorageEffect n i s s' session)
    (hserves : session.call.Serves registry) :
    PostgresStore registry n s' ∧ Grows s.committed s'.committed := by
  obtain ⟨references, hreferences, hrows⟩ := heffect.references
  obtain ⟨allocations, hallocations, hids⟩ := heffect.allocations
  refine ⟨⟨heffect.sound, fun row hrow => ?_, fun row hrow => ?_, fun row hrow => ?_⟩, ?_, ?_⟩
  · rw [hreferences] at hrow
    rcases List.mem_append.mp hrow with hrow | hrow
    · exact hs.candidates row hrow
    · obtain ⟨call, hcall, rfl⟩ := hrows row hrow
      rw [hcall] at hserves
      exact hserves.1
  · rw [hreferences] at hrow
    rcases List.mem_append.mp hrow with hrow | hrow
    · exact hs.uuids.references row hrow
    · obtain ⟨call, hcall, rfl⟩ := hrows row hrow
      rw [hcall] at hserves
      exact hserves.2
  · rw [hallocations] at hrow
    rcases List.mem_append.mp hrow with hrow | hrow
    · exact hs.uuids.allocations row hrow
    · obtain ⟨call, hcall, hid⟩ := hids row hrow
      rw [hcall] at hserves
      exact hid ▸ hserves
  · rw [hreferences]
    exact List.subset_append_left _ _
  · rw [hallocations]
    exact List.subset_append_left _ _

/-- What is known of the other calls survives a step of a query. -/
theorem CreationKnows.frame {j : Nat} {session : StorageSession} {registry : NamespaceRegistry}
    (h : CreationKnows registry driver j s creation) (heffect : StorageEffect n i s s' session)
    (hgrows : Grows s.committed s'.committed) (hj : j ≠ i) :
    CreationKnows registry driver j s' creation := by
  obtain ⟨name, phase, query⟩ := creation
  obtain ⟨hphase, hquery⟩ := h
  refine ⟨hphase.mono hgrows, ?_⟩
  cases query with
  | none => exact hquery.frame heffect hj
  | some session => exact ⟨heffect.frame j _ hj hquery.1, hquery.2⟩

/-- **Steps**: every step keeps the tables and what is known of every call. -/
theorem postgresCreateStep_keeps {input : PostgresInput} (hi : i < n)
    (hs : PostgresStore service.registry n s)
    (hknows : CreationKnows service.registry driver i s creation)
    (h : postgresCreateStep service driver i s creation input = some (s', creation')) :
    (PostgresStore service.registry n s' ∧
        CreationKnows service.registry driver i s' creation') ∧
      (∀ j other, j ≠ i → CreationKnows service.registry driver j s other →
        CreationKnows service.registry driver j s' other) ∧ Grows s.committed s'.committed := by
  cases input with
  | job sources =>
      obtain ⟨_, hjob, hresult⟩ := Option.map_eq_some_iff.mp h
      obtain ⟨rfl, rfl⟩ := Prod.mk.inj hresult
      exact ⟨⟨hs, postgresJob_keeps hs hknows hjob⟩, fun _ _ _ hother => hother, .refl _⟩
  | server input =>
      obtain ⟨name, phase, query⟩ := creation
      obtain ⟨hphase, hquery⟩ := hknows
      cases query with
      | none => contradiction
      | some session =>
          obtain ⟨⟨_, session'⟩, hstep, hresult⟩ := Option.map_eq_some_iff.mp h
          obtain ⟨rfl, rfl⟩ := Prod.mk.inj hresult
          obtain ⟨hsession, hissued⟩ := hquery
          have heffect := storageStep_effect hs.sound hi hsession hstep
          have hcall := storageStep_call hstep
          obtain ⟨hstore, hgrows⟩ := heffect.store hs (hcall ▸ hissued.serves)
          refine ⟨⟨hstore, hphase.mono hgrows, heffect.knows, ?_⟩,
            fun j other hj hother => hother.frame heffect hgrows hj, hgrows⟩
          rw [hcall]
          exact hissued
  | disconnect =>
      obtain ⟨name, phase, query⟩ := creation
      obtain ⟨hphase, hquery⟩ := hknows
      simp only [postgresCreateStep] at h
      split at h
      · rename_i call session hsent
        obtain ⟨rfl, rfl⟩ := Prod.mk.inj (Option.some.inj h)
        obtain ⟨hsession, hissued⟩ := hquery
        exact ⟨⟨hs, hphase.answered_error _, hsession,
          .inr (CreatePhase.answered_error hsent), hissued.serves⟩, fun _ _ _ hother => hother,
          .refl _⟩
      · contradiction

/-! ## machine identifiers of calls -/

@[simp] theorem mid_answered (phase : CreatePhase) (answer : Except QueryError (List SqlValue)) :
    (phase.answered answer).mid? = phase.mid? := by
  cases phase <;> rfl

/-- A call works for one machine identifier. -/
theorem mid_postgresCreateStep {input : PostgresInput} {mid : Text}
    (h : postgresCreateStep service driver i s creation input = some (s', creation'))
    (hmid : creation'.phase.mid? = some mid) : creation.phase.mid? = some mid := by
  obtain ⟨name, phase, query⟩ := creation
  cases input with
  | job sources =>
      obtain ⟨_, hjob, hresult⟩ := Option.map_eq_some_iff.mp h
      obtain ⟨-, rfl⟩ := Prod.mk.inj hresult
      simp only [postgresJob] at hjob
      split at hjob
      · rename_i call hsent
        cases query with
        | none =>
            cases call with
            | ok call =>
                obtain rfl := Option.some.inj hjob
                exact hmid
            | error error =>
                obtain rfl := Option.some.inj hjob
                rwa [mid_answered] at hmid
        | some session =>
            obtain ⟨answer, -, rfl⟩ := Option.map_eq_some_iff.mp hjob
            rwa [mid_answered] at hmid
      · obtain ⟨⟨db', phase'⟩, hstep, rfl⟩ := Option.map_eq_some_iff.mp hjob
        exact mid_createStep hstep hmid
  | server input =>
      cases query with
      | none => contradiction
      | some session =>
          obtain ⟨_, -, hresult⟩ := Option.map_eq_some_iff.mp h
          obtain ⟨-, rfl⟩ := Prod.mk.inj hresult
          exact hmid
  | disconnect =>
      simp only [postgresCreateStep] at h
      split at h
      · obtain ⟨-, rfl⟩ := Prod.mk.inj (Option.some.inj h)
        rwa [mid_answered] at hmid
      · contradiction

end Steps

/-! ## runs -/

section Runs

variable {unicode : CaseMapping} {uuid : UuidLibrary} {typeid : TypeIdLibrary}
  {service : IdentifoldService} {driver : Driver}
  {labels : List (Label (Text × Sources) PostgresInput)}
  {config config' : Config Storage PostgresCreation}

/-- The invariant of a configuration: of its tables and of every call. -/
def PostgresInvariant (service : IdentifoldService) (driver : Driver) :
    Config Storage PostgresCreation → Prop :=
  Holds (PostgresStore service.registry) (CreationKnows service.registry driver)

theorem postgresInvariant_initial : PostgresInvariant service driver (.initial .initial) :=
  ⟨⟨storageSound_initial, by simp [Config.initial, Storage.initial, Storage.committed,
    Server.initial, Database.empty], ⟨by simp [Config.initial, Storage.initial, Storage.committed,
    Server.initial, Database.empty], by simp [Config.initial, Storage.initial, Storage.committed,
    Server.initial, Database.empty]⟩⟩, by simp [Config.initial]⟩

/-- Run lemma. -/
theorem run_postgresInvariant
    (hrun : (postgresCreateProgram unicode uuid typeid service driver).Runs config labels config')
    (h : PostgresInvariant service driver config) : PostgresInvariant service driver config' := by
  refine Holds.run ?_ ?_ hrun h
  · intro n s argument hs
    obtain ⟨hsound, -⟩ := storageKnows_start hs.sound (.reserve ⟨[], [], []⟩)
    exact ⟨⟨hsound, hs.candidates, hs.uuids⟩, create_invariant,
      hs.sound.server.unstarted n (Nat.le_refl n), hs.sound.unstarted n (Nat.le_refl n)⟩
  · intro n i s creation input s' creation' hi hs hknows hstep
    obtain ⟨hkeeps, hothers, -⟩ := postgresCreateStep_keeps hi hs hknows hstep
    exact ⟨hkeeps, fun j other hj _ hother => hothers j other hj hother⟩

/-- No query runs for a call that has returned an identity. -/
theorem query_eq_none {i : Nat} {creation : PostgresCreation} {identity : Identity}
    (h : PostgresInvariant service driver config) (hi : config.threads[i]? = some creation)
    (hsettled : creation.phase = .settled (.ok identity)) : creation.query = none := by
  obtain ⟨name, phase, query⟩ := creation
  obtain ⟨-, hquery⟩ := h.2 i _ hi
  cases query with
  | none => rfl
  | some session =>
      obtain ⟨-, hissued⟩ := hquery
      rcases hissued.sent with hsent | hfails
      · dsimp only at hsettled
        rw [hsettled] at hsent
        contradiction
      · dsimp only at hsettled
        rw [hsettled] at hfails
        contradiction

/-- A returned identity resolves. -/
theorem resolveBy_of_settled {i : Nat} {creation : PostgresCreation} {identity : Identity}
    {ref : Text}
    (h : PostgresInvariant service driver config) (hi : config.threads[i]? = some creation)
    (hsettled : creation.phase = .settled (.ok identity)) (href : identity.ref = some ref) :
    resolveBy unicode uuid service.registry (databaseLookup config.shared.committed) ref =
      .ok (some ⟨identity.mid, creation.namespaceName, ref⟩) := by
  obtain ⟨hs, hcalls⟩ := h
  obtain ⟨hphase, -⟩ := hcalls i _ hi
  rw [hsettled] at hphase
  obtain ⟨hmid, hbacked⟩ := hphase identity ref rfl href
  have hdb : config.shared.committed.Consistent := hs.sound.server.consistent
  rw [resolveBy_databaseLookup unicode uuid _ hdb hs.uuids]
  exact resolve_of_backed hs.storeInvariant hmid hbacked

/-- **End to end over PostgreSQL**: whatever the interleaving of the statements of all
calls, the transactions that are aborted and the connections that are lost, every
identity that `create` returns with a reference resolves to itself in every later
state; and where the machine identifiers drawn are pairwise distinct, no reference
is returned twice. -/
theorem postgresCreate_resolve
    (hrun : (postgresCreateProgram unicode uuid typeid service driver).Runs (.initial .initial)
      labels config) :
    (∀ (i : Nat) creation identity ref, config.threads[i]? = some creation →
      creation.phase = .settled (.ok identity) → identity.ref = some ref →
      ∀ later config', (postgresCreateProgram unicode uuid typeid service driver).Runs config later
          config' →
        resolveBy unicode uuid service.registry (databaseLookup config'.shared.committed) ref =
          .ok (some ⟨identity.mid, creation.namespaceName, ref⟩)) ∧
    (((starts labels).filterMap (drawnMachineId unicode uuid)).Nodup →
      ∀ (i j : Nat) creation creation' identity identity' ref, i ≠ j →
        config.threads[i]? = some creation → config.threads[j]? = some creation' →
        creation.phase = .settled (.ok identity) → creation'.phase = .settled (.ok identity') →
        identity.ref = some ref → identity'.ref ≠ some ref) := by
  have hinv := run_postgresInvariant hrun postgresInvariant_initial
  refine ⟨fun i creation identity ref hi hsettled href later config' hlater => ?_, ?_⟩
  · -- nothing happens to the call any more
    have hquery := query_eq_none hinv hi hsettled
    have hfinal : config'.threads[i]? = some creation := by
      refine stays (fun s input => ?_) hlater hi
      obtain ⟨name, phase, query⟩ := creation
      dsimp only at hsettled hquery
      rw [hsettled, hquery]
      cases input <;> rfl
    exact resolveBy_of_settled (run_postgresInvariant hlater hinv) hfinal hsettled href
  · intro hdistinct i j creation creation' identity identity' ref hne hi hj hsettled hsettled' href
      href'
    have horigin := origin (R := fun (argument : Text × Sources) (creation : PostgresCreation) =>
      ∀ mid, creation.phase.mid? = some mid → drawnMachineId unicode uuid argument = some mid)
      (fun argument mid hmid => mid_create hmid)
      (fun i s argument creation input s' creation' hR hstep mid hmid =>
        hR mid (mid_postgresCreateStep hstep hmid)) hrun
    -- both resolve the one reference, hence to the one machine identifier
    have hresolve : resolveBy unicode uuid service.registry
        (databaseLookup config.shared.committed) ref =
          .ok (some ⟨identity.mid, creation.namespaceName, ref⟩) :=
      resolveBy_of_settled hinv hi hsettled href
    rw [resolveBy_of_settled hinv hj hsettled' href'] at hresolve
    have hmid : identity'.mid = identity.mid := by
      simp only [Except.ok.injEq, Option.some.injEq, ResolvedReference.mk.injEq] at hresolve
      exact hresolve.1
    obtain ⟨a, ha, hR⟩ := horigin.2 i _ hi
    obtain ⟨b, hb, hR'⟩ := horigin.2 j _ hj
    have hdrawn := hR identity.mid (by rw [hsettled]; rfl)
    have hdrawn' := hR' identity'.mid (by rw [hsettled']; rfl)
    exact hne (Rows.index_eq_of_nodup hdistinct ha hb hdrawn (hmid ▸ hdrawn'))

/-- Three calls: the first loses its connection before its candidate is committed, so the
second, which has drawn the same, waits for it and has to draw again; the third is
sequential. -/
theorem postgresCreate_resolve_sample :
    let service : IdentifoldService := ⟨sampleRegistry, 8, by decide⟩
    let program := postgresCreateProgram asciiCaseMapping rfc9562 typeIdV03 service textDriver
    let mids := ["019f0000-0000-7000-8000-000000000001".toList,
      "019f0000-0000-7000-8000-000000000002".toList, "019f0000-0000-7000-8000-000000000003".toList]
    let sources : Nat → UInt8 → Sources := fun i byte =>
      ⟨.ok (mids.getD i []), .ok (some 2026), .ok fun n => List.replicate n byte⟩
    let job (i : Nat) : Label (Text × Sources) PostgresInput := .step i (.job (sources i 9))
    let server (i : Nat) : Label (Text × Sources) PostgresInput := .step i (.server .proceed)
    let labels := [.start ("order".toList, sources 0 7), .start ("order".toList, sources 1 7),
      .start ("invoice".toList, sources 2 0), job 0, job 1, job 2, server 0, server 2, server 2,
      .step 0 .disconnect, server 0, job 0, server 1, server 1, job 1, job 1, job 1, server 1,
      server 2, server 2, server 2, server 2, server 2, server 2, server 1, job 1, job 1, job 2,
      job 2]
    let ref := "ORD-9999-9999-99-C".toList
    let ref' := "INV-2026-000001-X".toList
    ∃ config, program.Runs (.initial .initial) labels config ∧
      (config.threads[0]?.map fun creation => decide (creation.phase =
        .settled (.error (.identifold databaseError)))) = some true ∧
      config.shared.committed.references.length = 2 ∧
      resolveBy asciiCaseMapping rfc9562 service.registry (databaseLookup config.shared.committed)
        ref = .ok (some ⟨mids.getD 1 [], "order".toList, ref⟩) ∧
      resolveBy asciiCaseMapping rfc9562 service.registry (databaseLookup config.shared.committed)
        ref' = .ok (some ⟨mids.getD 2 [], "invoice".toList, ref'⟩) ∧
      some ref' ≠ some ref := by
  intro service program mids sources job server labels ref ref'
  have hthreads : (labels.foldlM program.next (.initial .initial)).map
      (fun config => (config.threads[0]?.map fun creation => decide (creation.phase =
          .settled (.error (.identifold databaseError))), config.shared.committed.references.length,
        config.threads[1]?, config.threads[2]?)) =
        some (some true, 2, some ⟨"order".toList, .settled (.ok ⟨mids.getD 1 [],
            "order_01kw000000e008000000000002".toList, some ref⟩), none⟩,
          some ⟨"invoice".toList, .settled (.ok ⟨mids.getD 2 [],
            "invoice_01kw000000e008000000000003".toList, some ref'⟩), none⟩) := by decide
  obtain ⟨config, hconfig, hfacts⟩ := Option.map_eq_some_iff.mp hthreads
  obtain ⟨h₀, hfacts⟩ := Prod.mk.inj hfacts
  obtain ⟨hlength, hfacts⟩ := Prod.mk.inj hfacts
  obtain ⟨h₁, h₂⟩ := Prod.mk.inj hfacts
  have hrun := Run.of_foldlM hconfig
  obtain ⟨hresolve, hunique⟩ := postgresCreate_resolve hrun
  exact ⟨config, hrun, h₀, hlength, hresolve 1 _ _ _ h₁ rfl rfl [] config (.nil _),
    hresolve 2 _ _ _ h₂ rfl rfl [] config (.nil _),
    hunique (by decide) 1 2 _ _ _ _ ref (by decide) h₁ h₂ rfl rfl rfl⟩

end Runs

end Identifold
