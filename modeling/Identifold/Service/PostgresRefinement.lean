import Identifold.Service.PostgresCreate
import Identifold.Storage.AdapterAgreement

/-!
# Identifold.Service.PostgresRefinement

`create` over the PostgreSQL adapters refines `create` over the SQLite adapters.

Over SQLite the statement of a call runs as a whole, in a job of its own.  Over
PostgreSQL its transaction runs statement by statement, in between those of every
other client, and takes effect when it completes.  Where no transaction is aborted and no
connection is lost, a run of the second is therefore a run of the first: a call is
seen as one that has run its statement as soon as its query is answered.

* `execute_mapped` — a refused statement has the code of the serial call;
* `allocate_completes` — an allocation that completes is the serial one;
* `createStep_of_answer` — an answered query is one step over SQLite;
* `postgresJob_refines` — so is a job without a statement.
-/

namespace Identifold

open Interleaving Transition Postgres

/-! ## what is seen -/

/-- A call of `create` as one over SQLite: what is answered has been read. -/
def PostgresCreation.seen (driver : Driver) (creation : PostgresCreation) : Creation :=
  ⟨creation.namespaceName, match creation.query.bind (StorageSession.answer driver) with
    | none => creation.phase
    | some answer => creation.phase.answered answer⟩

/-- No transaction is aborted and no connection is lost. -/
def PostgresInput.faultless : PostgresInput → Bool
  | .job _ | .server .proceed => true
  | .server .abort | .disconnect => false

/-- What `create` allocates is a request of a sequential policy. -/
def CreatePhase.Requests : CreatePhase → Prop
  | .allocating _ request => IsPolicyRequest request ∧
      ∃ width : Nat, (4 ≤ width ∧ width ≤ 18) ∧ request.width = .integer width
  | _ => True

/-- What is known of a call of `create` whose connection has not been lost. -/
structure Connected (registry : NamespaceRegistry) (driver : Driver) (i : Nat) (s : Storage)
    (creation : PostgresCreation) : Prop where
  knows : CreationKnows registry driver i s creation
  requests : creation.phase.Requests
  sent : ∀ session ∈ creation.query,
    creation.phase.sent driver creation.namespaceName = some (.ok session.call)

/-! ## requests -/

section Requests

variable {unicode : CaseMapping} {uuid : UuidLibrary} {typeid : TypeIdLibrary}
  {service : IdentifoldService} {namespaceName : Text} {sources : Sources}

/-- A year of the clock has four digits. -/
theorem isFourDigits_currentUtcYear {now : Option Int} {year : Text}
    (h : currentUtcYear now = .ok year) : isFourDigits year = true := by
  cases now with
  | none => contradiction
  | some y =>
      simp only [currentUtcYear] at h
      split at h
      · rename_i hrange
        have hlength : (padStart 4 (Nat.toDigits 10 y.toNat)).length = 4 :=
          length_padStart (by decide) (by omega)
        rw [← Except.ok.inj h, isFourDigits, hlength, Bool.and_eq_true, List.all_eq_true]
        exact ⟨rfl, fun c hc => isDigit_of_mem_padStart hc⟩
      · contradiction

/-- The scope of a request passes the check of its column. -/
theorem scopeCheck_requestScope {reference : RegisteredSequentialReferenceDefinition}
    {scope : Option Text} (h : requestScope reference sources = .ok scope) :
    scopeCheck (scope.getD []) = true := by
  unfold requestScope at h
  split at h
  · obtain ⟨now, -, h⟩ := bind_eq_ok_iff.mp h
    obtain ⟨year, hyear, h⟩ := bind_eq_ok_iff.mp h
    obtain rfl := pure_eq_ok_iff.mp h
    have hdigits := isFourDigits_currentUtcYear (mapError_eq_ok_iff.mp hyear)
    simp [scopeCheck, hdigits]
  · obtain rfl := Except.ok.inj h
    rfl

theorem nextCandidate_requests {attempt : Nat} {base : Identity} :
    (nextCandidate service namespaceName attempt base sources).Requests := by
  unfold nextCandidate
  split
  · dsimp only
    split <;> trivial
  · trivial

theorem create_requests : (create unicode uuid typeid service namespaceName sources).Requests := by
  unfold create
  split
  · trivial
  · rename_i definition hdefinition
    obtain ⟨-, rfl⟩ := NamespaceRegistry.getByPublicPrefix_eq_some_iff.mp hdefinition
    split
    · trivial
    · rename_i reference hreference
      split
      · rename_i base request hrequest
        simp only [requestSequence, bind_eq_ok_iff, pure_eq_ok_iff, Prod.mk.injEq] at hrequest
        obtain ⟨base', hbase, scope, hscope, rfl, rfl⟩ := hrequest
        exact ⟨⟨(createBaseIdentity_ok hbase).2.1,
          nul_not_mem_of_isPublicPrefix definition.publicPrefix_valid, reference.refPrefix_valid,
          scopeCheck_requestScope hscope⟩, reference.width, reference.width_valid, rfl⟩
      · trivial
    · split
      · exact nextCandidate_requests
      · trivial

/-- No job of a call leads to a request. -/
theorem createStep_requests {db db' : Database} {phase phase' : CreatePhase}
    (h : createStep service db namespaceName phase sources = some (db', phase')) :
    phase'.Requests := by
  cases phase with
  | reserving attempt base reference =>
      simp only [createStep] at h
      cases h
      trivial
  | reserved attempt base reference result =>
      simp only [createStep] at h
      split at h <;> cases h
      · trivial
      · trivial
      · exact nextCandidate_requests
  | allocating base request =>
      simp only [createStep] at h
      cases h
      trivial
  | allocated base scope result =>
      simp only [createStep] at h
      split at h <;> cases h <;> trivial
  | settled result => simp [createStep] at h

/-- A candidate is in a registered namespace, and holds no NUL. -/
theorem IsCandidate.texts {registry : NamespaceRegistry} {reference : Text}
    (h : IsCandidate registry namespaceName reference) :
    isPublicPrefix namespaceName = true ∧ '\x00' ∉ reference := by
  obtain ⟨bytes, hformat⟩ := h
  obtain ⟨parsed, hparsed, rfl, -⟩ := parseReference_format hformat
  rw [ReferenceContent.format, createReferenceCandidate_ok_iff] at hformat
  obtain ⟨d, -, rfl, -⟩ := hformat
  exact ⟨d.publicPrefix_valid, (parseReference_no_nul hparsed).1⟩

end Requests

/-! ## queries -/

section Queries

variable {registry : NamespaceRegistry} {driver : Driver} {db : Database} {namespaceName : Text}
  {phase : CreatePhase} {n i : Nat}

/-- A query is sent: its arguments pass their casts. -/
theorem PhaseInvariant.sent_ok (h : PhaseInvariant registry db namespaceName phase)
    (hrequests : phase.Requests) {call : Except PgError StorageCall}
    (hsent : phase.sent driver namespaceName = some call) : ∃ call', call = .ok call' := by
  cases phase with
  | reserving attempt base reference =>
      obtain ⟨hmid, hcandidate⟩ := h
      obtain ⟨hname, hnul⟩ := hcandidate.texts
      have hreservation : IsMachineId (ReferenceReservation.mk base.mid namespaceName reference).machineId :=
        hmid
      obtain ⟨machineId, -, hcall⟩ := reserveCall_of_no_nul driver hreservation hname hnul
      obtain rfl := Option.some.inj hsent
      exact ⟨_, by rw [hcall]; rfl⟩
  | allocating base request =>
      obtain ⟨hrequest, width, hwidth, hvalue⟩ := hrequests
      obtain ⟨machineId, -, hcall⟩ := hrequest.allocateCall driver
      rw [hvalue, castSmallint_of_range (by omega)] at hcall
      obtain rfl := Option.some.inj hsent
      exact ⟨_, by rw [hcall]; rfl⟩
  | reserved attempt base reference result => contradiction
  | allocated base scope result => contradiction
  | settled result => contradiction

/-- A call that has found nothing under the lock of its counter is no replay. -/
theorem Postgres.Unbound.not_mismatch {p : Pending} {call : AllocateCall} {lastValue : Nat}
    (h : Unbound db p call lastValue) (hdb : db.Consistent) :
    allocateSequence db call ≠ .error replayPolicyMismatch := by
  have hreplay := selectAllocation_of_unbound h
  have hlock := lockSequence_counter h.width (h.selectSequence hdb)
  by_cases hroom : lastValue < maximumValue call.width
  · rw [allocateSequence_of_room hreplay h.checks hlock h.unbound hdb hroom]
    simp
  · rw [allocateSequence_of_full hreplay h.checks hlock h.unbound hroom]
    decide

/-- A request that passes the checks is refused with the code that it would be refused
with alone. -/
theorem execute_mapped {s : Server} {call : AllocateCall} {phase : Phase} (hs : Sound n s)
    (h : Fits s.committed (s.pending i) call phase)
    (hchecks : sequenceChecks (call.counter 0) = true)
    {error : PgError} (hexec : execute i s call phase = some (.error error)) :
    ∃ error', allocateSequence s.committed call = .error error' ∧
      mapDatabaseError (.server error') = mapDatabaseError (.server error) := by
  -- alone the call would be refused as a replay under another policy
  obtain ⟨-, halone | halone⟩ := execute_refused hs h hexec
  · exact ⟨error, halone, rfl⟩
  refine ⟨_, halone, ?_⟩
  cases h with
  | replaying hp =>
      simp only [execute, Server.viewOf, Pending.applyTo_eq hp, Option.some.injEq] at hexec
      cases hreplay : replay s.committed call with
      | ok found =>
          rw [hreplay, ok_bind] at hexec
          cases found <;> cases hexec
      | error e =>
          rw [hreplay, error_bind] at hexec
          cases hexec
          rcases replay_error hreplay with rfl | rfl <;> rfl
  | creating hp hwidth =>
      simp only [execute, hchecks, Bool.true_eq_false, if_false] at hexec
      split at hexec
      · cases hexec
      · split at hexec <;> cases hexec
  | locking h hl hu hr =>
      simp only [execute] at hexec
      split at hexec
      · cases hexec
        rfl
      · cases hexec
  | waiting h hl hu hr =>
      simp only [execute] at hexec
      split at hexec
      · cases hexec
      · cases hlock : lockSequence (s.viewOf i) call with
        | ok lastValue =>
            rw [hlock, ok_bind] at hexec
            cases hexec
        | error e =>
            rw [hlock, error_bind] at hexec
            cases hexec
            rw [lockSequence_error hlock]
            rfl
  | rechecking lastValue h hu hr =>
      simp only [execute] at hexec
      split at hexec <;> cases hexec
  | updating lastValue h hu hr =>
      exact absurd halone (h.not_mismatch hs.consistent)
  | recording lastValue h hroom hu hr => exact absurd halone (h.not_mismatch hs.consistent)
  | recorded | replayed | returned | failed | aborted => simp [execute] at hexec

end Queries

/-! ## completions -/

section Completions

variable {registry : NamespaceRegistry} {driver : Driver} {namespaceName : Text} {n i : Nat}
  {s s' : Storage} {session session' : StorageSession}

theorem storageOutcome_eq_none_iff :
    storageOutcome session = none ↔ session.answer driver = none := by
  cases session with
  | reserve call phase => cases phase <;> simp [storageOutcome, StorageSession.answer]
  | allocate session =>
      obtain ⟨call, phase⟩ := session
      cases phase <;> simp [storageOutcome, outcome, StorageSession.answer]

/-- A reservation that completes has reserved as the adapter of SQLite does. -/
theorem reserve_completes {reservation : ReferenceReservation} {call : ReserveCall}
    {phase : ReservePhase} {answer : Except QueryError (List SqlValue)}
    (hmid : IsMachineId reservation.machineId)
    (hname : isPublicPrefix reservation.namespaceName = true)
    (hnul : '\x00' ∉ reservation.reference)
    (hcall : reserveCall driver reservation = .ok call)
    (hstep : storageStep i s (.reserve call phase) .proceed = some (s', session'))
    (heffect : StorageEffect n i s s' session') (hanswer : session'.answer driver = some answer) :
    commitOrRollback s.committed (Sqlite.reserve s.committed reservation) =
      (readReserved answer, s'.committed) := by
  have hsqlite : databaseReserve driver s.committed reservation =
      Sqlite.reserve s.committed reservation := databaseReserve_eq_sqlite hmid hname hnul
  rw [← hsqlite, databaseReserve_eq hcall]
  have hserial := heffect.serial
  obtain ⟨result, hexec, hresult⟩ := Option.map_eq_some_iff.mp hstep
  cases result with
  | error error =>
      obtain ⟨rfl, rfl⟩ := Prod.mk.inj hresult
      obtain ⟨hsame, halone⟩ : (s.rollback i).committed = s.committed ∧
        reserveReference s.committed call = .error error := hserial
      obtain rfl : Except.error (.server error) = answer := Option.some.inj hanswer
      rw [halone, hsame]
      rfl
  | ok next =>
      obtain ⟨s'', phase'⟩ := next
      obtain ⟨rfl, rfl⟩ := Prod.mk.inj hresult
      rcases executeReserve_ok hexec with ⟨-, -, hinsert⟩ | ⟨found, -, -, rfl⟩
      · rcases hinsert with ⟨-, -, rfl⟩ | ⟨-, -, -, rfl⟩ <;> contradiction
      · have halone : reserveReference s.committed call = .ok (found, s''.committed) := hserial
        obtain rfl : Except.ok [.boolean found] = answer := Option.some.inj hanswer
        rw [halone]
        rfl

/-- An allocation that completes has allocated as the adapter of SQLite does. -/
theorem allocate_completes {request : SequenceAllocationRequest} {width : Nat} {call : AllocateCall}
    {phase : Phase} {answer : Except QueryError (List SqlValue)} (hs : StorageSound n s)
    (hrequest : IsPolicyRequest request) (hwidth : 4 ≤ width ∧ width ≤ 18)
    (hvalue : request.width = .integer width) (hcall : allocateCall driver request = .ok call)
    (hknows : Knows i s.server ⟨call, phase⟩)
    (hstep : storageStep i s (.allocate ⟨call, phase⟩) .proceed = some (s', session'))
    (heffect : StorageEffect n i s s' session') (hanswer : session'.answer driver = some answer) :
    commitOrRollback s.committed (Sqlite.allocate s.committed request) =
      ((readSequence answer).map Int.toNat, s'.committed) := by
  have hsqlite : databaseAllocate driver s.committed request =
      Sqlite.allocate s.committed request :=
    databaseAllocate_eq_sqlite hrequest hvalue (by omega)
  rw [← hsqlite, databaseAllocate_eq hcall]
  have hserial := heffect.serial
  obtain ⟨⟨server, next⟩, hnext, hresult⟩ := Option.map_eq_some_iff.mp hstep
  obtain ⟨rfl, rfl⟩ := Prod.mk.inj hresult
  obtain ⟨result, hexec, hresult⟩ := Option.map_eq_some_iff.mp hnext
  cases result with
  | error error =>
      -- the query has failed, with the code that the serial function fails with
      obtain ⟨rfl, rfl⟩ := Prod.mk.inj hresult
      obtain ⟨machineId, -, hcall'⟩ := hrequest.allocateCall driver
      have hchecks : sequenceChecks (call.counter 0) = true := by
        rw [hcall', hvalue, castSmallint_of_range (by omega)] at hcall
        obtain rfl := Except.ok.inj hcall
        exact (hrequest.counter_checks hwidth machineId).1
      obtain ⟨error', halone, hcode⟩ := execute_mapped hs.server hknows hchecks hexec
      obtain rfl : Except.error (.server error) = answer := Option.some.inj hanswer
      have halone' : allocateSequence s.committed call = .error error' := halone
      rw [halone', Except.mapError, hcode]
      rfl
  | ok next =>
      obtain ⟨server', phase'⟩ := next
      obtain ⟨rfl, rfl⟩ := Prod.mk.inj hresult
      rcases execute_ok hs.server hknows hexec with ⟨sequence, -, -, rfl⟩ | hadvances
      · -- the commit returns the number of the serial function
        have halone : allocateSequence s.committed call = .ok (sequence, server'.committed) := hserial
        obtain rfl : Except.ok [driver.int8 sequence] = answer := Option.some.inj hanswer
        rw [halone, readSequence_int8]
        rfl
      · -- any other statement leaves the query running, without an answer
        have hrunning : storageOutcome (.allocate ⟨call, phase'⟩) = none := by
          rw [storageOutcome, hadvances.running]
          rfl
        rw [storageOutcome_eq_none_iff.mp hrunning] at hanswer
        contradiction

/-- **Completion**: the step that answers a query is the statement of a call over SQLite. -/
theorem createStep_of_answer (service : IdentifoldService) {phase : CreatePhase}
    {answer : Except QueryError (List SqlValue)} (hs : StorageSound n s) (hi : i < n)
    (hphase : PhaseInvariant registry s.committed namespaceName phase)
    (hrequests : phase.Requests) (hsent : phase.sent driver namespaceName = some (.ok session.call))
    (hknows : StorageKnows i s session)
    (hstep : storageStep i s session .proceed = some (s', session'))
    (hanswer : session'.answer driver = some answer) (sources : Sources) :
    createStep service s.committed namespaceName phase sources =
      some (s'.committed, phase.answered answer) := by
  have heffect := storageStep_effect hs hi hknows hstep
  cases phase with
  | reserving attempt base reference =>
      obtain ⟨hmid, hcandidate⟩ := hphase
      obtain ⟨hname, hnul⟩ := hcandidate.texts
      obtain ⟨call, hcall, hsent⟩ := reserveCall_of_sent hsent
      cases session with
      | allocate session => contradiction
      | reserve call' phase =>
          obtain rfl := StorageCall.reserve.inj hcall
          have hdone := reserve_completes hmid hname hnul hsent hstep heffect hanswer
          simp only [createStep, hdone]
          rfl
  | allocating base request =>
      obtain ⟨hrequest, width, hwidth, hvalue⟩ := hrequests
      obtain ⟨call, hcall, hsent⟩ := allocateCall_of_sent hsent
      cases session with
      | reserve call' phase => contradiction
      | allocate session =>
          obtain ⟨call', phase⟩ := session
          obtain rfl : call' = call := StorageCall.allocate.inj hcall
          have hdone := allocate_completes hs hrequest hwidth hvalue hsent hknows.2 hstep heffect
            hanswer
          simp only [createStep, hdone]
          rfl
  | reserved attempt base reference result => contradiction
  | allocated base scope result => contradiction
  | settled result => contradiction

end Completions

/-! ## steps -/

section Steps

variable {driver : Driver} {service : IdentifoldService} {n i : Nat} {s s' : Storage}
  {creation creation' : PostgresCreation} {input : PostgresInput}

/-- A job of the client sends a query or reads its answer, which is not seen, or is a job
of the call that is seen. -/
theorem postgresJob_refines (hi : i < n) (hs : PostgresStore service.registry n s)
    (hknows : Connected service.registry driver i s creation) {sources : Sources}
    (h : postgresCreateStep service driver i s creation (.job sources) = some (s', creation')) :
    Connected service.registry driver i s' creation' ∧
      (s'.committed = s.committed ∧ creation'.seen driver = creation.seen driver ∨
        ∃ sources, createStep service s.committed (creation.seen driver).namespaceName
            (creation.seen driver).phase sources =
          some (s'.committed, (creation'.seen driver).phase) ∧
          (creation'.seen driver).namespaceName = (creation.seen driver).namespaceName) := by
  obtain ⟨hcreation, hrequests, hasked⟩ := hknows
  have hkeeps := (postgresCreateStep_keeps hi hs hcreation h).1.2
  obtain ⟨name, phase, query⟩ := creation
  obtain ⟨hphase, hquery⟩ := hcreation
  dsimp only at hphase hrequests hasked
  obtain ⟨next, hjob, hresult⟩ := Option.map_eq_some_iff.mp h
  obtain ⟨rfl, rfl⟩ := Prod.mk.inj hresult
  simp only [postgresJob] at hjob
  split at hjob
  · rename_i call hsent
    cases query with
    | none =>
        -- the query is sent
        obtain ⟨call, rfl⟩ := hphase.sent_ok hrequests hsent
        obtain rfl := Option.some.inj hjob
        have hcall : call.session.call = call := by cases call <;> rfl
        have hrunning : call.session.answer driver = none := by cases call <;> rfl
        refine ⟨⟨hkeeps, hrequests, fun session hsession => ?_⟩, .inl ⟨rfl, ?_⟩⟩
        · obtain rfl := Option.some.inj hsession
          rw [hcall]
          exact hsent
        · simp only [PostgresCreation.seen, Option.bind_some, Option.bind_none, hrunning]
    | some session =>
        -- its answer is read
        obtain ⟨answer, hanswer, rfl⟩ := Option.map_eq_some_iff.mp hjob
        refine ⟨⟨hkeeps, ?_, by simp⟩, .inl ⟨rfl, ?_⟩⟩
        · cases phase with
          | reserving | allocating => trivial
          | reserved | allocated | settled => exact hrequests
        · simp only [PostgresCreation.seen, Option.bind_some, Option.bind_none, hanswer]
  · rename_i hsent
    -- no statement is due, so the job is a step of the abstract call
    obtain ⟨⟨db', phase'⟩, hstep, rfl⟩ := Option.map_eq_some_iff.mp hjob
    obtain ⟨hdb, -⟩ := createStep_of_sent_eq_none hsent hstep
    obtain rfl : query = none := by
      by_contra hsome
      obtain ⟨session, rfl⟩ := Option.ne_none_iff_exists'.mp hsome
      rw [hasked session rfl] at hsent
      contradiction
    refine ⟨⟨hkeeps, createStep_requests hstep, by simp⟩, .inr ⟨sources, ?_, rfl⟩⟩
    rw [← hdb] at hstep ⊢
    exact hstep

/-- A statement of a query is not seen, but the last one, with which the statement of the
call takes effect. -/
theorem postgresQuery_refines (hi : i < n) (hs : PostgresStore service.registry n s)
    (hknows : Connected service.registry driver i s creation)
    (h : postgresCreateStep service driver i s creation (.server .proceed) =
      some (s', creation')) :
    Connected service.registry driver i s' creation' ∧
      (s'.committed = s.committed ∧ creation'.seen driver = creation.seen driver ∨
        ∃ sources, createStep service s.committed (creation.seen driver).namespaceName
            (creation.seen driver).phase sources =
          some (s'.committed, (creation'.seen driver).phase) ∧
          (creation'.seen driver).namespaceName = (creation.seen driver).namespaceName) := by
  obtain ⟨hcreation, hrequests, hasked⟩ := hknows
  have hkeeps := (postgresCreateStep_keeps hi hs hcreation h).1.2
  obtain ⟨name, phase, query⟩ := creation
  obtain ⟨hphase, hquery⟩ := hcreation
  dsimp only at hphase hrequests hasked
  cases query with
  | none => contradiction
  | some session =>
      obtain ⟨⟨_, session'⟩, hstep, hresult⟩ := Option.map_eq_some_iff.mp h
      obtain ⟨rfl, rfl⟩ := Prod.mk.inj hresult
      obtain ⟨hsession, -⟩ := hquery
      have hsent := hasked session rfl
      refine ⟨⟨hkeeps, hrequests, fun _ hsession' => ?_⟩, ?_⟩
      · obtain rfl := Option.some.inj hsession'
        rw [storageStep_call hstep]
        exact hsent
      have hbefore : session.answer driver = none :=
        storageOutcome_eq_none_iff.mp (storageOutcome_of_step hstep)
      have hserial := (storageStep_effect hs.sound hi hsession hstep).serial
      cases hanswer : session'.answer driver with
      | none =>
          rw [TakesEffect, storageOutcome_eq_none_iff.mpr hanswer] at hserial
          refine .inl ⟨hserial, ?_⟩
          simp only [PostgresCreation.seen, Option.bind_some, hbefore, hanswer]
      | some answer =>
          -- the statement of the call takes effect
          have hdone := createStep_of_answer service hs.sound hi hphase hrequests hsent
            hsession hstep hanswer ⟨.error .foreign, .error .foreign, .error .foreign⟩
          refine .inr ⟨⟨.error .foreign, .error .foreign, .error .foreign⟩, ?_, rfl⟩
          simp only [PostgresCreation.seen, Option.bind_some, hbefore, hanswer]
          exact hdone

/-- A step of a call that stays connected is a job of the call that is seen, or is not
seen. -/
theorem postgresCreateStep_refines (hi : i < n) (hs : PostgresStore service.registry n s)
    (hknows : Connected service.registry driver i s creation) (hfaultless : input.faultless = true)
    (h : postgresCreateStep service driver i s creation input = some (s', creation')) :
    Connected service.registry driver i s' creation' ∧
      (s'.committed = s.committed ∧ creation'.seen driver = creation.seen driver ∨
        ∃ sources, createStep service s.committed (creation.seen driver).namespaceName
            (creation.seen driver).phase sources =
          some (s'.committed, (creation'.seen driver).phase) ∧
          (creation'.seen driver).namespaceName = (creation.seen driver).namespaceName) := by
  cases input with
  | disconnect => contradiction
  | job sources => exact postgresJob_refines hi hs hknows h
  | server input =>
      cases input with
      | abort => contradiction
      | proceed => exact postgresQuery_refines hi hs hknows h

end Steps

/-! ## runs -/

section Runs

variable {unicode : CaseMapping} {uuid : UuidLibrary} {typeid : TypeIdLibrary}
  {service : IdentifoldService} {driver : Driver}
  {labels : List (Label (Text × Sources) PostgresInput)} {config : Config Storage PostgresCreation}

/-- **Refinement**: where no transaction is aborted and no connection is lost, every run of
concurrent calls of `create` over PostgreSQL, statement by statement, is a run of the
same calls over SQLite, where every statement runs as a whole: with the committed
tables, the numbers and the errors that it has there. -/
theorem postgresCreate_refines
    (hrun : (postgresCreateProgram unicode uuid typeid service driver).Runs (.initial .initial)
      labels config)
    (hfaultless : ∀ i input, .step i input ∈ labels → PostgresInput.faultless input = true) :
    ∃ labels', (createProgram unicode uuid typeid service).Runs (.initial Database.empty) labels'
        (config.map Storage.committed (PostgresCreation.seen driver)) ∧
      starts labels' = starts labels := by
  have hinitial : (Config.initial Storage.initial).map Storage.committed
      (PostgresCreation.seen driver) = .initial Database.empty := rfl
  have hinvariant : PostgresInvariant service driver (.initial .initial) :=
    postgresInvariant_initial
  rw [← hinitial]
  refine simulates (I := PostgresStore service.registry)
    (T := Connected service.registry driver) ?_ ?_ ?_ ?_ ⟨hinvariant.1, by simp [Config.initial]⟩
    (run_restrict hrun hfaultless)
  · intro n s argument hs
    obtain ⟨hsound, -⟩ := storageKnows_start hs.sound (.reserve ⟨[], [], []⟩)
    exact ⟨⟨hsound, hs.candidates, hs.uuids⟩, ⟨create_invariant,
      hs.sound.server.unstarted n (Nat.le_refl n), hs.sound.unstarted n (Nat.le_refl n)⟩,
      create_requests, by simp [Program.restrict, postgresCreateProgram]⟩
  · intro n i s creation input s' creation' hi hs hknows hstep
    obtain ⟨hallowed, hstep⟩ := restrict_step hstep
    obtain ⟨hkeeps, hothers, -⟩ := postgresCreateStep_keeps hi hs hknows.knows hstep
    obtain ⟨hconnected, -⟩ := postgresCreateStep_refines hi hs hknows hallowed hstep
    exact ⟨⟨hkeeps.1, hconnected⟩, fun j other hj _ hother =>
      ⟨hothers j other hj hother.knows, hother.requests, hother.sent⟩⟩
  · intro argument
    rfl
  · intro n i s creation input s' creation' hi hs hknows hstep
    obtain ⟨hallowed, hstep⟩ := restrict_step hstep
    obtain ⟨-, hsame | ⟨sources, hjob, hname⟩⟩ :=
      postgresCreateStep_refines hi hs hknows hallowed hstep
    · exact .inl hsame
    · refine .inr ⟨sources, Option.map_eq_some_iff.mpr ⟨_, hjob, ?_⟩⟩
      rw [← hname]

/-- Two calls that have drawn one candidate: the second can insert it only after the first has
committed, and has to draw again. -/
theorem postgresCreate_refines_sample :
    let service : IdentifoldService := ⟨sampleRegistry, 8, by decide⟩
    let program := postgresCreateProgram asciiCaseMapping rfc9562 typeIdV03 service textDriver
    let mids := ["019f0000-0000-7000-8000-000000000001".toList,
      "019f0000-0000-7000-8000-000000000002".toList]
    let sources : Nat → UInt8 → Sources := fun i byte =>
      ⟨.ok (mids.getD i []), .ok (some 2026), .ok fun n => List.replicate n byte⟩
    let job (i : Nat) : Nat × PostgresInput := (i, .job (sources i 9))
    let server (i : Nat) : Nat × PostgresInput := (i, .server .proceed)
    let inputs := [job 0, job 1, server 0, server 0, server 1, server 1, job 0, job 0, job 1, job 1,
      job 1, server 1, server 1]
    let calls := [("order".toList, sources 0 7), ("order".toList, sources 1 7)]
    let labels := calls.map .start ++ inputs.map fun input => .step input.1 input.2
    let seen : List Creation := [⟨"order".toList, .settled (.ok ⟨mids.getD 0 [],
        "order_01kw000000e008000000000001".toList, some "ORD-7777-7777-77-$".toList⟩)⟩,
      ⟨"order".toList, .reserved 1 ⟨mids.getD 1 [], "order_01kw000000e008000000000002".toList, none⟩
        "ORD-9999-9999-99-C".toList (.ok true)⟩]
    ∃ config, program.Runs (.initial .initial) labels config ∧
      (∃ labels', (createProgram asciiCaseMapping rfc9562 typeIdV03 service).Runs
        (.initial Database.empty) labels' ⟨config.shared.committed, seen⟩ ∧
        starts labels' = calls) ∧
      config.shared.committed.references.length = 2 := by
  intro service program mids sources job server inputs calls labels seen
  have hthreads : (labels.foldlM program.next (.initial .initial)).map
      (fun config => (config.threads.map (PostgresCreation.seen textDriver),
        config.shared.committed.references.length)) = some (seen, 2) := by decide
  obtain ⟨config, hconfig, hfacts⟩ := Option.map_eq_some_iff.mp hthreads
  obtain ⟨hseen, hlength⟩ := Prod.mk.inj hfacts
  have hfaultless : ∀ i input, .step i input ∈ labels → PostgresInput.faultless input = true := by
    intro i input hmem
    have hinput : (i, input) ∈ inputs := by simpa [labels] using hmem
    have hall : inputs.all (fun input => input.2.faultless) = true := rfl
    exact List.all_eq_true.mp hall _ hinput
  obtain ⟨labels', hrun, hstarts⟩ := postgresCreate_refines (Run.of_foldlM hconfig) hfaultless
  rw [Config.map, hseen] at hrun
  exact ⟨config, Run.of_foldlM hconfig, ⟨labels', hrun, hstarts⟩, hlength⟩

end Runs

end Identifold
