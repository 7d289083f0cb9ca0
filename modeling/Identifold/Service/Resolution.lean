import Identifold.Service.Create
import Identifold.Storage.SqliteLaw

/-!
# Identifold.Service.Resolution

What `create` returns, `resolve` finds.

A returned reference is backed by a row: a random one by the row it reserved,
a sequential one by the row of its allocation (`Backed`).  Rows are never
lost, so it stays backed; and a backed reference resolves to the machine
identifier of its row (`resolve_of_backed`), because only random namespaces
have rows that the lookup finds first.

* `reserving_keeps`, `allocating_keeps` — the statements of a call keep the
  tables;
* `createStep_invariant` — what is known of a call is kept by all of its steps;
* `resolve_of_backed` — what is backed resolves.
-/

namespace Identifold

open Interleaving Transition Database Rows

/-! ## backed references -/

/-- A text that `createReferenceCandidate` writes for the namespace. -/
def IsCandidate (registry : NamespaceRegistry) (namespaceName reference : Text) : Prop :=
  ∃ bytes, (ReferenceContent.candidate namespaceName bytes).format registry = .ok reference

/-- The row of an allocation that a sequential reference is formatted from. -/
def IsAllocated (registry : NamespaceRegistry) (db : Database) (namespaceName : Text)
    (scope : Option Text) (n : Nat) (machineId : MachineBytes) : Prop :=
  ∃ d ∈ registry.definitions, d.publicPrefix = namespaceName ∧
    ∃ r, d.reference = some (.sequence r) ∧ ∃ row ∈ db.allocations,
      row.key = (namespaceName, scope.getD []) ∧ row.refPrefix = r.refPrefix ∧ row.sequence = n ∧
        row.machineId = machineId

/-- The database holds what the reference was written for. -/
def Backed (registry : NamespaceRegistry) (db : Database) (namespaceName mid reference : Text) :
    Prop :=
  ∃ machineId, machineIdToBytes mid = .ok machineId ∧
    (IsCandidate registry namespaceName reference ∧
        ⟨reference, namespaceName, machineId⟩ ∈ db.references ∨
      ∃ scope n, formatSequentialReference registry namespaceName (n : Nat) scope = .ok reference ∧
        IsAllocated registry db namespaceName scope n machineId)

/-- The tables are consistent, and only candidates have been reserved. -/
def StoreInvariant (registry : NamespaceRegistry) (db : Database) : Prop :=
  db.Consistent ∧ ∀ row ∈ db.references, IsCandidate registry row.namespaceName row.reference

/-- The rows of one database are in the other. -/
def Grows (db db' : Database) : Prop :=
  db.references ⊆ db'.references ∧ db.allocations ⊆ db'.allocations

section Backed

variable {registry : NamespaceRegistry} {db db' : Database} {namespaceName mid reference : Text}
  {scope : Option Text} {n : Nat} {machineId : MachineBytes}

theorem Grows.refl (db : Database) : Grows db db := ⟨List.Subset.refl _, List.Subset.refl _⟩

/-- An allocation is not lost. -/
theorem IsAllocated.mono (h : IsAllocated registry db namespaceName scope n machineId)
    (hgrows : Grows db db') : IsAllocated registry db' namespaceName scope n machineId := by
  obtain ⟨d, hd, hp, r, hr, row, hrow, hfacts⟩ := h
  exact ⟨d, hd, hp, r, hr, row, hgrows.2 hrow, hfacts⟩

/-- What a reference was written for is not lost. -/
theorem Backed.mono (h : Backed registry db namespaceName mid reference) (hgrows : Grows db db') :
    Backed registry db' namespaceName mid reference := by
  obtain ⟨machineId, hbytes, ⟨hcandidate, hrow⟩ | ⟨scope, n, hformat, halloc⟩⟩ := h
  · exact ⟨machineId, hbytes, .inl ⟨hcandidate, hgrows.1 hrow⟩⟩
  · exact ⟨machineId, hbytes, .inr ⟨scope, n, hformat, halloc.mono hgrows⟩⟩

/-- What the generator returns is a candidate of its namespace. -/
theorem isCandidate_of_createReferenceCandidate {randomBytes : Nat → List UInt8}
    (h : createReferenceCandidate registry namespaceName randomBytes = .ok reference) :
    IsCandidate registry namespaceName reference := by
  obtain ⟨d, hd, hp, r, hr, hfacts⟩ := createReferenceCandidate_ok_iff.mp h
  refine ⟨randomBytes r.payloadLength, ?_⟩
  rw [ReferenceContent.format, createReferenceCandidate_ok_iff]
  exact ⟨d, hd, hp, r, hr, hfacts⟩

/-- A namespace with candidates has no sequences. -/
theorem IsCandidate.not_sequence (h : IsCandidate registry namespaceName reference)
    {d : RegisteredNamespaceDefinition} (hd : d ∈ registry.definitions)
    (hp : d.publicPrefix = namespaceName) (r : RegisteredSequentialReferenceDefinition) :
    d.reference ≠ some (.sequence r) := by
  intro hr
  obtain ⟨bytes, hformat⟩ := h
  rw [ReferenceContent.format, createReferenceCandidate_ok_iff] at hformat
  obtain ⟨d', hd', hp', r', hr', -⟩ := hformat
  rw [registry.eq_of_publicPrefix_eq hd hd' (hp.trans hp'.symm), hr'] at hr
  simp at hr

/-! ## lookup -/

/-- A reserved reference is looked up in `identifold_references`. -/
theorem lookup_of_reserved (hdb : db.Consistent)
    (hrow : ⟨reference, namespaceName, machineId⟩ ∈ db.references)
    (hmid : bytesToMachineId machineId = .ok mid) :
    Sqlite.lookup db reference namespaceName = .ok (some ⟨mid, namespaceName⟩) := by
  have hfind := Database.find?_reference hdb.referenceUnique hrow
  rw [Sqlite.lookup, hfind]
  simp only [hmid]
  rfl

/-- A formatted sequence is looked up in `identifold_sequence_allocations`:
its namespace has reserved nothing. -/
theorem lookup_of_allocated (h : StoreInvariant registry db)
    (hformat : formatSequentialReference registry namespaceName (n : Nat) scope = .ok reference)
    (halloc : IsAllocated registry db namespaceName scope n machineId)
    (hmid : bytesToMachineId machineId = .ok mid) :
    Sqlite.lookup db reference namespaceName = .ok (some ⟨mid, namespaceName⟩) := by
  obtain ⟨hdb, hcandidates⟩ := h
  obtain ⟨d, hd, hp, r, hr, row, hrow, hkey, hpre, hsequence, hid⟩ := halloc
  obtain ⟨d', hd', hp', r', hr', -, hsplit⟩ := splitSequentialReference_format hformat
  have hsame := registry.eq_of_publicPrefix_eq hd hd' (hp.trans hp'.symm)
  subst hsame
  rw [hr, Option.some.injEq, RegisteredReferenceDefinition.sequence.injEq] at hr'
  subst hr'
  have hrandom : db.references.find? (fun r => decide (r.reference = reference) &&
      decide (r.namespaceName = namespaceName)) = none := by
    rw [List.find?_eq_none]
    intro a ha htest
    simp only [Bool.and_eq_true, decide_eq_true_eq] at htest
    have hcandidate := hcandidates a ha
    rw [htest.2] at hcandidate
    exact hcandidate.not_sequence hd hp r hr
  have hns : row.namespaceName = namespaceName := (Prod.mk.inj hkey).1
  have hfind : db.allocations.find? (fun a => decide (a.namespaceName = namespaceName) &&
      decide (a.ownerKey = ((r.refPrefix, scope.getD []), n))) = some row := by
    have howner : row.ownerKey = ((r.refPrefix, scope.getD []), n) := by
      rw [AllocationRow.ownerKey, hpre, hsequence, ← (Prod.mk.inj hkey).2]
    rw [← hns, ← howner]
    exact hdb.find?_allocation hrow
  rw [Sqlite.lookup, hrandom]
  simp only [hsplit, Int.toNat_natCast, hfind, hid, hmid, hns]
  rfl

end Backed

section Resolve

variable {unicode : CaseMapping} {uuid : UuidLibrary} {registry : NamespaceRegistry}
  {db : Database} {namespaceName mid reference : Text}

/-- A reference that is looked up as it is parsed resolves to what is found. -/
theorem resolve_of_lookup {parsed : ParsedReference} (hmid : IsMachineId mid)
    (hparse : parseReference reference registry = .ok parsed) (hvalue : parsed.value = reference)
    (hlookup : Sqlite.lookup db reference parsed.namespaceName = .ok (some ⟨mid, parsed.namespaceName⟩)) :
    resolve unicode uuid registry db reference =
      .ok (some ⟨mid, parsed.namespaceName, reference⟩) := by
  have hcanonical : parseMachineId unicode uuid mid = .ok mid :=
    parseMachineId_ok_iff.mpr ⟨hmid, hmid.facts.2.2.1.symm⟩
  simp only [resolve, bind_eq_ok_iff, mapError_eq_ok_iff]
  refine ⟨parsed, hparse, some ⟨mid, parsed.namespaceName⟩, hvalue ▸ hlookup, ?_⟩
  simp only [bind_eq_ok_iff, ensure_eq_ok_iff]
  exact ⟨(), trivial, mid, hcanonical, by rw [hvalue]; rfl⟩

/-- **A backed reference resolves** to what it was written for. -/
theorem resolve_of_backed (h : StoreInvariant registry db) (hmid : IsMachineId mid)
    (hbacked : Backed registry db namespaceName mid reference) :
    resolve unicode uuid registry db reference = .ok (some ⟨mid, namespaceName, reference⟩) := by
  obtain ⟨machineId, hbytes, hcases⟩ := hbacked
  obtain ⟨machineId', hbytes', hback⟩ := machineIdToBytes_of_isMachineId hmid
  have hsame := Except.ok.inj (hbytes.symm.trans hbytes')
  subst hsame
  rcases hcases with ⟨⟨bytes, hformat⟩, hrow⟩ | ⟨scope, n, hformat, halloc⟩
  · obtain ⟨parsed, hparse, hvalue, hns, -⟩ := parseReference_format hformat
    have hlookup := lookup_of_reserved h.1 hrow hback
    rw [← hns] at hlookup ⊢
    exact resolve_of_lookup hmid hparse hvalue hlookup
  · have hcontent : (ReferenceContent.sequence namespaceName (n : Nat) scope).format registry =
        .ok reference := hformat
    obtain ⟨parsed, hparse, hvalue, hns, -⟩ := parseReference_format hcontent
    have hlookup := lookup_of_allocated h hformat halloc hback
    rw [← hns] at hlookup ⊢
    exact resolve_of_lookup hmid hparse hvalue hlookup

end Resolve

/-! ## calls of create -/

/-- What is known of a call: its candidate is one, its request is the one of
the namespace's policy, and what it has been answered is in the database. -/
def PhaseInvariant (registry : NamespaceRegistry) (db : Database) (namespaceName : Text) :
    CreatePhase → Prop
  | .reserving _ base reference =>
      IsMachineId base.mid ∧ IsCandidate registry namespaceName reference
  | .reserved _ base reference result =>
      IsMachineId base.mid ∧
        (result = .ok true → Backed registry db namespaceName base.mid reference)
  | .allocating base request =>
      IsMachineId base.mid ∧ ∃ d ∈ registry.definitions, d.publicPrefix = namespaceName ∧
        ∃ r scope, d.reference = some (.sequence r) ∧
          request = ⟨base.mid, namespaceName, r.refPrefix, scope, .integer r.width⟩
  | .allocated base scope result =>
      IsMachineId base.mid ∧ ∀ n, result = .ok n → ∃ machineId,
        machineIdToBytes base.mid = .ok machineId ∧
          IsAllocated registry db namespaceName scope n machineId
  | .settled result => ∀ identity ref, result = .ok identity → identity.ref = some ref →
      IsMachineId identity.mid ∧ Backed registry db namespaceName identity.mid ref

/-- What is known of a call stays known as the tables grow. -/
theorem PhaseInvariant.mono {registry : NamespaceRegistry} {db db' : Database} {namespaceName : Text}
    {phase : CreatePhase} (h : PhaseInvariant registry db namespaceName phase)
    (hgrows : Grows db db') : PhaseInvariant registry db' namespaceName phase := by
  cases phase with
  | reserving attempt base reference => exact h
  | reserved attempt base reference result => exact ⟨h.1, fun hr => (h.2 hr).mono hgrows⟩
  | allocating base request => exact h
  | allocated base scope result =>
      refine ⟨h.1, fun n hn => ?_⟩
      obtain ⟨machineId, hbytes, halloc⟩ := h.2 n hn
      exact ⟨machineId, hbytes, halloc.mono hgrows⟩
  | settled result =>
      intro identity ref hok href
      obtain ⟨hmid, hbacked⟩ := h identity ref hok href
      exact ⟨hmid, hbacked.mono hgrows⟩

section Calls

variable {unicode : CaseMapping} {uuid : UuidLibrary} {typeid : TypeIdLibrary}
  {service : IdentifoldService} {db db' : Database} {namespaceName : Text} {sources : Sources}
  {base : Identity} {phase phase' : CreatePhase}

/-- A base identity carries a parsed machine identifier, and no reference. -/
theorem createBaseIdentity_ok (h : createBaseIdentity unicode uuid typeid namespaceName sources = .ok base) :
    (∃ value, sources.machineId = .ok value ∧ parseMachineId unicode uuid value = .ok base.mid) ∧
      IsMachineId base.mid ∧ base.ref = none := by
  simp only [createBaseIdentity, bind_eq_ok_iff, pure_eq_ok_iff] at h
  obtain ⟨value, hvalue, mid, hmid, pid, -, rfl⟩ := h
  exact ⟨⟨value, hvalue, hmid⟩, (parseMachineId_ok_iff.mp hmid).1, rfl⟩

/-- A request carries the policy of its namespace and the identifier of the call. -/
theorem requestSequence_ok {reference : RegisteredSequentialReferenceDefinition}
    {request : SequenceAllocationRequest}
    (h : requestSequence unicode uuid typeid reference namespaceName sources = .ok (base, request)) :
    createBaseIdentity unicode uuid typeid namespaceName sources = .ok base ∧
      ∃ scope, request = ⟨base.mid, namespaceName, reference.refPrefix, scope,
        .integer reference.width⟩ := by
  simp only [requestSequence, bind_eq_ok_iff, pure_eq_ok_iff, Prod.mk.injEq] at h
  obtain ⟨base', hbase, scope, -, rfl, rfl⟩ := h
  exact ⟨hbase, scope, rfl⟩

/-- The next attempt reserves a candidate, or the call has ended without an identity.
-/
theorem nextCandidate_invariant {attempt : Nat} (hmid : IsMachineId base.mid) :
    PhaseInvariant service.registry db namespaceName
      (nextCandidate service namespaceName attempt base sources) := by
  unfold nextCandidate
  split
  · dsimp only
    split
    · next reference hcandidate =>
        simp only [bind_eq_ok_iff, mapError_eq_ok_iff] at hcandidate
        obtain ⟨randomBytes, -, hcreated⟩ := hcandidate
        exact ⟨hmid, isCandidate_of_createReferenceCandidate hcreated⟩
    · intro identity ref hok
      contradiction
  · intro identity ref hok
    contradiction

/-- A call starts as its invariant says. -/
theorem create_invariant : PhaseInvariant service.registry db namespaceName
    (create unicode uuid typeid service namespaceName sources) := by
  unfold create
  split
  · intro identity ref hok
    contradiction
  · next definition hdefinition =>
      obtain ⟨hd, hp⟩ := NamespaceRegistry.getByPublicPrefix_eq_some_iff.mp hdefinition
      split
      · intro identity ref hok href
        rw [(createBaseIdentity_ok hok).2.2] at href
        contradiction
      · next reference hreference =>
          split
          · next base request hrequest =>
              obtain ⟨hbase, scope, rfl⟩ := requestSequence_ok hrequest
              exact ⟨(createBaseIdentity_ok hbase).2.1, definition, hd, hp, reference, scope,
                hreference, rfl⟩
          · intro identity ref hok
            contradiction
      · split
        · next base hbase => exact nextCandidate_invariant (createBaseIdentity_ok hbase).2.1
        · intro identity ref hok
          contradiction

/-- The outcome of a job: the tables are kept in order, no row is lost, and the
call is left as its invariant says. -/
def JobKeeps (registry : NamespaceRegistry) (db db' : Database) (namespaceName : Text)
    (phase : CreatePhase) : Prop :=
  StoreInvariant registry db' ∧ Grows db db' ∧ PhaseInvariant registry db' namespaceName phase

/-- A job that leaves the tables alone. -/
theorem StoreInvariant.jobKeeps (hdb : StoreInvariant service.registry db)
    (hphase : PhaseInvariant service.registry db namespaceName phase) :
    JobKeeps service.registry db db namespaceName phase :=
  ⟨hdb, .refl db, hphase⟩

/-- The insert of a reservation. -/
theorem reserving_keeps {attempt : Nat} {reference : Text} (hdb : StoreInvariant service.registry db)
    (hphase : PhaseInvariant service.registry db namespaceName (.reserving attempt base reference))
    (h : createStep service db namespaceName (.reserving attempt base reference) sources =
      some (db', phase')) : JobKeeps service.registry db db' namespaceName phase' := by
  obtain ⟨hmid, hcandidate⟩ := hphase
  simp only [createStep] at h
  cases hcall : Sqlite.reserve db ⟨base.mid, namespaceName, reference⟩ with
  | error e =>
      simp only [hcall, commitOrRollback, Option.some.injEq, Prod.mk.injEq] at h
      obtain ⟨rfl, rfl⟩ := h
      exact hdb.jobKeeps ⟨hmid, by simp⟩
  | ok result =>
      obtain ⟨won, db₁⟩ := result
      simp only [hcall, commitOrRollback, Option.some.injEq, Prod.mk.injEq] at h
      obtain ⟨rfl, rfl⟩ := h
      obtain ⟨machineId, hbytes, hdb₁, halloc, hsubset, hnew, hwon⟩ :=
        Sqlite.reserve_spec hdb.1 hcall
      refine ⟨⟨hdb₁, fun row hrow => ?_⟩, ⟨hsubset, halloc ▸ List.Subset.refl _⟩, hmid, fun hr => ?_⟩
      · cases hnew row hrow with
        | inl hold => exact hdb.2 row hold
        | inr hsame =>
            rw [hsame]
            exact hcandidate
      · exact ⟨machineId, hbytes, .inl ⟨hcandidate, hwon (Except.ok.inj hr)⟩⟩

/-- The answer to a reservation: the identity, another attempt, or an error. -/
theorem reserved_keeps {attempt : Nat} {reference : Text} {result : Except IdentifoldError Bool}
    (hdb : StoreInvariant service.registry db)
    (hphase : PhaseInvariant service.registry db namespaceName
      (.reserved attempt base reference result))
    (h : createStep service db namespaceName (.reserved attempt base reference result) sources =
      some (db', phase')) : JobKeeps service.registry db db' namespaceName phase' := by
  obtain ⟨hmid, hbacked⟩ := hphase
  simp only [createStep] at h
  split at h
  · cases h
    exact hdb.jobKeeps (by simp [PhaseInvariant])
  · cases h
    refine hdb.jobKeeps fun identity ref hok href => ?_
    obtain rfl := Except.ok.inj hok
    obtain rfl := Option.some.inj href
    exact ⟨hmid, hbacked rfl⟩
  · cases h
    exact hdb.jobKeeps (nextCandidate_invariant hmid)

/-- The transaction of an allocation. -/
theorem allocating_keeps {request : SequenceAllocationRequest}
    (hdb : StoreInvariant service.registry db)
    (hphase : PhaseInvariant service.registry db namespaceName (.allocating base request))
    (h : createStep service db namespaceName (.allocating base request) sources =
      some (db', phase')) : JobKeeps service.registry db db' namespaceName phase' := by
  obtain ⟨hmid, d, hd, hp, r, scope, hr, rfl⟩ := hphase
  simp only [createStep] at h
  cases hcall : Sqlite.allocate db ⟨base.mid, namespaceName, r.refPrefix, scope, .integer r.width⟩ with
  | error e =>
      simp only [hcall, commitOrRollback, Option.some.injEq, Prod.mk.injEq] at h
      obtain ⟨rfl, rfl⟩ := h
      exact hdb.jobKeeps ⟨hmid, by simp⟩
  | ok result =>
      obtain ⟨n, db₁⟩ := result
      simp only [hcall, commitOrRollback, Option.some.injEq, Prod.mk.injEq] at h
      obtain ⟨rfl, rfl⟩ := h
      obtain ⟨machineId, hbytes, hdb₁, href, hsubset, row, hrow, hkey, hid, hn, hpre⟩ :=
        Sqlite.allocate_spec hdb.1 hcall
      refine ⟨⟨hdb₁, href ▸ hdb.2⟩, ⟨href ▸ List.Subset.refl _, hsubset⟩, hmid, fun n' hn' => ?_⟩
      obtain rfl := Except.ok.inj hn'
      exact ⟨machineId, hbytes, d, hd, hp, r, hr, row, hrow, hkey, hpre, hn, hid⟩

/-- The answer to an allocation: the formatted reference, or an error. -/
theorem allocated_keeps {scope : Option Text} {result : Except IdentifoldError Nat}
    (hdb : StoreInvariant service.registry db)
    (hphase : PhaseInvariant service.registry db namespaceName (.allocated base scope result))
    (h : createStep service db namespaceName (.allocated base scope result) sources =
      some (db', phase')) : JobKeeps service.registry db db' namespaceName phase' := by
  obtain ⟨hmid, halloc⟩ := hphase
  simp only [createStep] at h
  split at h
  · cases h
    exact hdb.jobKeeps (by simp [PhaseInvariant])
  · next reference hformat =>
      cases h
      simp only [bind_eq_ok_iff] at hformat
      obtain ⟨n, hn, hformat⟩ := hformat
      obtain ⟨machineId, hbytes, hrow⟩ := halloc n hn
      refine hdb.jobKeeps fun identity ref hok href => ?_
      obtain rfl := Except.ok.inj hok
      obtain rfl := Option.some.inj href
      exact ⟨hmid, machineId, hbytes, .inr ⟨scope, n, hformat, hrow⟩⟩

/-- Step lemma. -/
theorem createStep_invariant (hdb : StoreInvariant service.registry db)
    (hphase : PhaseInvariant service.registry db namespaceName phase)
    (h : createStep service db namespaceName phase sources = some (db', phase')) :
    JobKeeps service.registry db db' namespaceName phase' := by
  cases phase with
  | reserving attempt base reference => exact reserving_keeps hdb hphase h
  | reserved attempt base reference result => exact reserved_keeps hdb hphase h
  | allocating base request => exact allocating_keeps hdb hphase h
  | allocated base scope result => exact allocated_keeps hdb hphase h
  | settled result => simp [createStep] at h

end Calls

/-! ## machine identifiers of calls -/

/-- The machine identifier a call works for. -/
def CreatePhase.mid? : CreatePhase → Option Text
  | .reserving _ base _ => some base.mid
  | .reserved _ base _ _ => some base.mid
  | .allocating base _ => some base.mid
  | .allocated base _ _ => some base.mid
  | .settled (.ok identity) => some identity.mid
  | .settled (.error _) => none

/-- The machine identifier that the source yields for a call. -/
def drawnMachineId (unicode : CaseMapping) (uuid : UuidLibrary) (argument : Text × Sources) :
    Option Text :=
  (argument.2.machineId.bind (parseMachineId unicode uuid)).toOption

section Origin

variable {unicode : CaseMapping} {uuid : UuidLibrary} {typeid : TypeIdLibrary}
  {service : IdentifoldService} {db db' : Database} {namespaceName mid : Text} {sources : Sources}
  {base : Identity} {phase phase' : CreatePhase}

/-- The identifier of a call is the one drawn for it. -/
theorem drawnMachineId_of_base
    (h : createBaseIdentity unicode uuid typeid namespaceName sources = .ok base) :
    drawnMachineId unicode uuid (namespaceName, sources) = some base.mid := by
  obtain ⟨⟨value, hvalue, hmid⟩, -, -⟩ := createBaseIdentity_ok h
  simp only [drawnMachineId, hvalue, Except.bind, hmid, Except.toOption]

/-- An attempt keeps the identifier. -/
theorem mid_nextCandidate {attempt : Nat}
    (h : (nextCandidate service namespaceName attempt base sources).mid? = some mid) :
    base.mid = mid := by
  unfold nextCandidate at h
  split at h
  · dsimp only at h
    split at h
    · exact Option.some.inj h
    · contradiction
  · contradiction

/-- A call that has begun has the identifier that was drawn for it. -/
theorem mid_create
    (h : (create unicode uuid typeid service namespaceName sources).mid? = some mid) :
    drawnMachineId unicode uuid (namespaceName, sources) = some mid := by
  unfold create at h
  split at h
  · contradiction
  · split at h
    · cases hbase : createBaseIdentity unicode uuid typeid namespaceName sources with
      | error e =>
          rw [hbase] at h
          contradiction
      | ok base =>
          rw [hbase] at h
          rw [drawnMachineId_of_base hbase]
          exact h
    · split at h
      · next base request hrequest =>
          rw [drawnMachineId_of_base (requestSequence_ok hrequest).1]
          exact h
      · contradiction
    · split at h
      · next base hbase => rw [drawnMachineId_of_base hbase, mid_nextCandidate h]
      · contradiction

/-- A step keeps the identifier of its call. -/
theorem mid_createStep (h : createStep service db namespaceName phase sources = some (db', phase'))
    (hmid : phase'.mid? = some mid) : phase.mid? = some mid := by
  cases phase with
  | reserving attempt base reference =>
      simp only [createStep, Option.some.injEq, Prod.mk.injEq] at h
      obtain ⟨-, rfl⟩ := h
      exact hmid
  | reserved attempt base reference result =>
      simp only [createStep] at h
      split at h
      · obtain ⟨-, rfl⟩ := Prod.mk.inj (Option.some.inj h)
        contradiction
      · obtain ⟨-, rfl⟩ := Prod.mk.inj (Option.some.inj h)
        exact hmid
      · obtain ⟨-, rfl⟩ := Prod.mk.inj (Option.some.inj h)
        exact congrArg some (mid_nextCandidate hmid)
  | allocating base request =>
      simp only [createStep, Option.some.injEq, Prod.mk.injEq] at h
      obtain ⟨-, rfl⟩ := h
      exact hmid
  | allocated base scope result =>
      simp only [createStep] at h
      split at h
      · obtain ⟨-, rfl⟩ := Prod.mk.inj (Option.some.inj h)
        contradiction
      · obtain ⟨-, rfl⟩ := Prod.mk.inj (Option.some.inj h)
        exact hmid
  | settled result => simp [createStep] at h

end Origin

/-! ## runs -/

section Runs

variable {unicode : CaseMapping} {uuid : UuidLibrary} {typeid : TypeIdLibrary}
  {service : IdentifoldService} {labels : List (Label (Text × Sources) Sources)}
  {config config' : Config Database Creation}

/-- The invariant of a configuration: of its tables and of every call. -/
def CreateInvariant (service : IdentifoldService) : Config Database Creation → Prop :=
  Holds (fun _ => StoreInvariant service.registry)
    (fun _ db creation => PhaseInvariant service.registry db creation.namespaceName creation.phase)

/-- The empty database satisfies the invariant. -/
theorem createInvariant_initial : CreateInvariant service (.initial Database.empty) :=
  ⟨⟨consistent_empty, by simp [Config.initial, Database.empty]⟩, by simp [Config.initial]⟩

/-- A step of a call is a step of its job, in the same namespace. -/
theorem step_cases {db db' : Database} {creation creation' : Creation} {i : Nat} {sources : Sources}
    (h : (createProgram unicode uuid typeid service).step i db creation sources =
      some (db', creation')) :
    creation'.namespaceName = creation.namespaceName ∧
      createStep service db creation.namespaceName creation.phase sources =
        some (db', creation'.phase) := by
  simp only [createProgram, Option.map_eq_some_iff, Prod.exists, Prod.mk.injEq] at h
  obtain ⟨db₁, phase, hstep, rfl, rfl⟩ := h
  exact ⟨rfl, hstep⟩

/-- Run lemma. -/
theorem run_createInvariant (hrun : (createProgram unicode uuid typeid service).Runs config labels config')
    (h : CreateInvariant service config) : CreateInvariant service config' := by
  refine Holds.run ?_ ?_ hrun h
  · intro n db argument hdb
    exact ⟨hdb, create_invariant⟩
  · intro n i db creation sources db' creation' _ hdb hphase hstep
    obtain ⟨hns, hstep⟩ := step_cases hstep
    obtain ⟨hdb', hgrows, hphase'⟩ := createStep_invariant hdb hphase hstep
    exact ⟨⟨hdb', hns ▸ hphase'⟩, fun j other _ _ hother => hother.mono hgrows⟩

/-- A returned identity resolves. -/
theorem resolve_of_settled {i : Nat} {namespaceName ref : Text} {identity : Identity}
    (h : CreateInvariant service config)
    (hsettled : config.threads[i]? = some ⟨namespaceName, .settled (.ok identity)⟩)
    (href : identity.ref = some ref) :
    resolve unicode uuid service.registry config.shared ref =
      .ok (some ⟨identity.mid, namespaceName, ref⟩) := by
  obtain ⟨hdb, hcalls⟩ := h
  obtain ⟨hmid, hbacked⟩ := hcalls i _ hsettled identity ref rfl href
  exact resolve_of_backed hdb hmid hbacked

/-- A returned identity resolves in every later state. -/
theorem run_resolve {i : Nat} {namespaceName ref : Text} {identity : Identity}
    (h : CreateInvariant service config)
    (hsettled : config.threads[i]? = some ⟨namespaceName, .settled (.ok identity)⟩)
    (href : identity.ref = some ref)
    (hrun : (createProgram unicode uuid typeid service).Runs config labels config') :
    resolve unicode uuid service.registry config'.shared ref =
      .ok (some ⟨identity.mid, namespaceName, ref⟩) := by
  have hfinal := stays (fun _ _ => rfl) hrun hsettled
  exact resolve_of_settled (run_createInvariant hrun h) hfinal href

/-- The machine identifier of an identity is the one drawn for its call. -/
theorem run_mid (hrun : (createProgram unicode uuid typeid service).Runs (.initial Database.empty)
      labels config) {i : Nat} {namespaceName : Text} {identity : Identity}
    (hsettled : config.threads[i]? = some ⟨namespaceName, .settled (.ok identity)⟩) :
    ∃ argument, (starts labels)[i]? = some argument ∧
      drawnMachineId unicode uuid argument = some identity.mid := by
  have horigin := origin (R := fun (argument : Text × Sources) (creation : Creation) =>
    ∀ mid, creation.phase.mid? = some mid → drawnMachineId unicode uuid argument = some mid)
    (fun argument mid hmid => mid_create hmid)
    (fun i db argument creation sources db' creation' hR hstep mid hmid =>
      hR mid (mid_createStep (step_cases hstep).2 hmid)) hrun
  obtain ⟨argument, hargument, hR⟩ := horigin.2 i _ hsettled
  exact ⟨argument, hargument, hR identity.mid rfl⟩

/-- **End to end**: whatever the interleaving, the clock and the bytes, every
identity that `create` returns with a reference resolves to itself in every
later state; and where the machine identifiers drawn are pairwise distinct,
no reference is returned twice. -/
theorem create_resolve
    (hrun : (createProgram unicode uuid typeid service).Runs (.initial Database.empty) labels config)
    (hdistinct : ((starts labels).filterMap (drawnMachineId unicode uuid)).Nodup) :
    (∀ (i : Nat) namespaceName identity ref,
      config.threads[i]? = some ⟨namespaceName, .settled (.ok identity)⟩ → identity.ref = some ref →
      ∀ later config', (createProgram unicode uuid typeid service).Runs config later config' →
        resolve unicode uuid service.registry config'.shared ref =
          .ok (some ⟨identity.mid, namespaceName, ref⟩)) ∧
    ∀ (i j : Nat) namespaceName namespaceName' identity identity' ref, i ≠ j →
      config.threads[i]? = some ⟨namespaceName, .settled (.ok identity)⟩ →
      config.threads[j]? = some ⟨namespaceName', .settled (.ok identity')⟩ →
      identity.ref = some ref → identity'.ref ≠ some ref := by
  have hinv := run_createInvariant hrun createInvariant_initial
  refine ⟨fun i namespaceName identity ref hi href later config' hlater =>
    run_resolve hinv hi href hlater, ?_⟩
  intro i j namespaceName namespaceName' identity identity' ref hne hi hj href href'
  -- both resolve the one reference, hence to the one machine identifier
  have hresolve : resolve unicode uuid service.registry config.shared ref =
      .ok (some ⟨identity.mid, namespaceName, ref⟩) := resolve_of_settled hinv hi href
  rw [resolve_of_settled hinv hj href'] at hresolve
  have hmid : identity'.mid = identity.mid := by
    simp only [Except.ok.injEq, Option.some.injEq, ResolvedReference.mk.injEq] at hresolve
    exact hresolve.1
  obtain ⟨a, ha, hdrawn⟩ := run_mid hrun hi
  obtain ⟨b, hb, hdrawn'⟩ := run_mid hrun hj
  exact hne (index_eq_of_nodup hdistinct ha hb hdrawn (hmid ▸ hdrawn'))

/-- The law on a run of three calls: two draw the same candidate, so one has to
draw again after it has lost the reservation; the third is sequential. -/
theorem create_resolve_sample :
    let service : IdentifoldService := ⟨sampleRegistry, 8, by decide⟩
    let program := createProgram asciiCaseMapping rfc9562 typeIdV03 service
    let mids := ["019f0000-0000-7000-8000-000000000001".toList,
      "019f0000-0000-7000-8000-000000000002".toList, "019f0000-0000-7000-8000-000000000003".toList]
    let sources : Nat → UInt8 → Sources := fun i byte =>
      ⟨.ok (mids.getD i []), .ok (some 2026), .ok fun n => List.replicate n byte⟩
    let labels : List (Label (Text × Sources) Sources) :=
      [.start ("order".toList, sources 0 7), .start ("order".toList, sources 1 7),
        .start ("invoice".toList, sources 2 0), .step 0 (sources 0 0), .step 1 (sources 1 0),
        .step 1 (sources 1 9), .step 2 (sources 2 0), .step 0 (sources 0 0), .step 2 (sources 2 0),
        .step 1 (sources 1 0), .step 1 (sources 1 0)]
    let ref := "ORD-9999-9999-99-C".toList
    let ref' := "INV-2026-000001-X".toList
    ∃ config, program.Runs (.initial Database.empty) labels config ∧
      resolve asciiCaseMapping rfc9562 service.registry config.shared ref =
        .ok (some ⟨mids.getD 1 [], "order".toList, ref⟩) ∧
      resolve asciiCaseMapping rfc9562 service.registry config.shared ref' =
        .ok (some ⟨mids.getD 2 [], "invoice".toList, ref'⟩) := by
  intro service program mids sources labels ref ref'
  have hthreads : (labels.foldlM program.next (.initial Database.empty)).map
      (fun config => (config.threads[1]?, config.threads[2]?)) =
        some (some ⟨"order".toList, .settled (.ok ⟨mids.getD 1 [],
            "order_01kw000000e008000000000002".toList, some ref⟩)⟩,
          some ⟨"invoice".toList, .settled (.ok ⟨mids.getD 2 [],
            "invoice_01kw000000e008000000000003".toList, some ref'⟩)⟩) := by decide
  obtain ⟨config, hconfig, hpair⟩ := Option.map_eq_some_iff.mp hthreads
  obtain ⟨h₁, h₂⟩ := Prod.mk.inj hpair
  have hrun := Run.of_foldlM hconfig
  obtain ⟨hresolve, -⟩ := create_resolve hrun (by decide)
  exact ⟨config, hrun, hresolve 1 _ _ _ h₁ rfl [] config (.nil _),
    hresolve 2 _ _ _ h₂ rfl [] config (.nil _)⟩

end Runs

end Identifold
