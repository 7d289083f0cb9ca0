import Identifold.Storage.SwiftAdapter

/-!
# Identifold.Storage.SwiftDurability

When a reservation that the Swift MySQL adapter reports is durable.

`reserve` does not take the gate, so its statement may run while the
transaction of another call is open on the connection.  The row then belongs
to that transaction: `reserve` returns `true`, and a `ROLLBACK` takes the row
away (`reserve_lost`).  No other way leads there: in every run in which no
reservation adds its row inside a transaction, what is reported is committed
and stays resolvable; and wherever one does, the very next two steps report a
reservation that is not committed (`reserve_durable`).

* `stepPhase_keeps` — every statement keeps what is committed;
* `callInvariant_step` — a reservation that inserts outside a transaction is
  committed when it knows.
-/

namespace Identifold

namespace Swift

open Interleaving Transition Rows

/-! ## the connection -/

/-- What holds of the connection: references are unique, and an open
transaction has lost no committed one. -/
structure Sound (c : Connection) : Prop where
  committedUnique : UniqueOn (·.reference) c.committed.references
  viewUnique : UniqueOn (·.reference) c.view.references
  kept : c.committed.references ⊆ c.view.references

/-- A statement that keeps the connection sound, and every committed reference
committed. -/
def Keeps {α : Type} (statement : Statement α) : Prop :=
  ∀ c, Sound c → Sound (statement c).2 ∧
    c.committed.references ⊆ (statement c).2.committed.references

section Connection

variable {α : Type} {c : Connection}

/-- A rollback leaves the committed references. -/
theorem Sound.rollback (h : Sound c) : Sound c.rollback :=
  ⟨h.committedUnique, h.committedUnique, List.Subset.refl _⟩

/-- A commit publishes them with those of the transaction. -/
theorem Sound.commit (h : Sound c) : Sound c.commit :=
  ⟨h.viewUnique, h.viewUnique, List.Subset.refl _⟩

theorem Sound.startTransaction (h : Sound c) : Sound c.startTransaction :=
  ⟨h.viewUnique, h.viewUnique, List.Subset.refl _⟩

/-- Writing tables with more references. -/
theorem Sound.write (h : Sound c) {db : Database} (hunique : UniqueOn (·.reference) db.references)
    (hmore : c.view.references ⊆ db.references) :
    Sound (c.write db) ∧ c.committed.references ⊆ (c.write db).committed.references := by
  obtain ⟨committed, transaction⟩ := c
  cases transaction with
  | some working =>
      exact ⟨⟨h.committedUnique, hunique, List.Subset.trans h.kept hmore⟩, List.Subset.refl _⟩
  | none => exact ⟨⟨hunique, hunique, List.Subset.refl _⟩, hmore⟩

/-- A read leaves the connection as it is. -/
theorem keeps_read (reply : Connection → Except SwiftError α) : Keeps fun c => (reply c, c) :=
  fun _ h => ⟨h, List.Subset.refl _⟩

/-- A query keeps what its effect on the tables keeps. -/
theorem keeps_query {f : Database → Except SqlCondition (α × Database)}
    (hf : ∀ db a db', UniqueOn (·.reference) db.references → f db = .ok (a, db') →
      UniqueOn (·.reference) db'.references ∧ db.references ⊆ db'.references) : Keeps (query f) := by
  intro c h
  unfold query
  cases hreply : f c.view with
  | error condition => exact ⟨h, List.Subset.refl _⟩
  | ok result =>
      obtain ⟨a, db⟩ := result
      obtain ⟨hunique, hmore⟩ := hf _ a db h.viewUnique hreply
      exact h.write hunique hmore

/-- A query on the other tables. -/
theorem keeps_query_of_references_eq {f : Database → Except SqlCondition (α × Database)}
    (hf : ∀ db a db', f db = .ok (a, db') → db'.references = db.references) : Keeps (query f) :=
  keeps_query fun db a db' hunique hreply => by
    rw [hf db a db' hreply]
    exact ⟨hunique, List.Subset.refl _⟩

/-- A statement that may fail keeps what it keeps when it runs. -/
theorem keeps_issue {statement : Statement α} (h : Keeps statement) (fault : Option Fault) :
    Keeps (issue statement fault) := by
  intro c hc
  cases fault with
  | none => exact h c hc
  | some fault =>
      obtain ⟨error, executed, rolledBack⟩ := fault
      have hrun : Sound (if executed then (statement c).2 else c) ∧
          c.committed.references ⊆ (if executed then (statement c).2 else c).committed.references := by
        cases executed with
        | true => exact h c hc
        | false => exact ⟨hc, List.Subset.refl _⟩
      cases rolledBack with
      | true => exact ⟨hrun.1.rollback, hrun.2⟩
      | false => exact hrun

end Connection

/-! ## the statements -/

/-- The insert of a reference keeps the connection sound, inside a transaction and
outside. -/
theorem keeps_insertReference (row : ReferenceRow) : Keeps (insertReference row) := by
  refine keeps_query fun db n db' hunique hreply => ?_
  split at hreply
  · next hadds =>
      obtain ⟨-, rfl⟩ := Prod.mk.inj (Except.ok.inj hreply)
      simp only [Bool.and_eq_true, Bool.not_eq_true'] at hadds
      exact ⟨hunique.concat (Database.referenceConflicts_eq_false_iff.mp hadds.2),
        List.subset_append_left _ _⟩
  · obtain ⟨-, rfl⟩ := Prod.mk.inj (Except.ok.inj hreply)
    exact ⟨hunique, List.Subset.refl _⟩

/-- The upsert of a counter leaves the references. -/
theorem upsertSequence_references {db db' : Database} {row : SequenceRow}
    (h : MySql.upsertSequence db row = .ok db') : db'.references = db.references := by
  simp only [MySql.upsertSequence, bind_eq_ok_iff] at h
  obtain ⟨-, -, h⟩ := h
  split at h
  · rw [← pure_eq_ok_iff.mp h]
  · split at h
    · rw [← pure_eq_ok_iff.mp h]
      rfl
    · simp only [bind_eq_ok_iff, pure_eq_ok_iff] at h
      obtain ⟨-, -, rfl⟩ := h
      rfl

/-- The insert of an allocation leaves the references. -/
theorem insertAllocation_references {db db' : Database} {row : AllocationRow}
    (h : MySql.insertAllocation db row = .ok db') : db'.references = db.references := by
  simp only [MySql.insertAllocation, bind_eq_ok_iff, pure_eq_ok_iff] at h
  obtain ⟨-, -, -, -, -, -, rfl⟩ := h
  rfl

/-- So every statement of an allocation keeps them. -/
theorem keeps_transactionStatement (request : SequenceAllocationRequest) (machineId : MachineBytes)
    (point : Point) : Keeps (transactionStatement request machineId point) := by
  cases point with
  | startTransaction => exact fun c h => ⟨h.startTransaction, h.kept⟩
  | selectReplay => exact keeps_read _
  | insertSequence =>
      refine keeps_query_of_references_eq fun db a db' hreply => ?_
      simp only [bind_eq_ok_iff, pure_eq_ok_iff, Prod.mk.injEq] at hreply
      obtain ⟨db₁, hupsert, -, rfl⟩ := hreply
      exact upsertSequence_references hupsert
  | selectPolicy => exact keeps_read _
  | update allocated =>
      refine keeps_query_of_references_eq fun db a db' hreply => ?_
      obtain ⟨-, rfl⟩ := Prod.mk.inj (Except.ok.inj hreply)
      rfl
  | insertAllocation allocated =>
      refine keeps_query_of_references_eq fun db a db' hreply => ?_
      simp only [bind_eq_ok_iff, pure_eq_ok_iff, Prod.mk.injEq] at hreply
      obtain ⟨db₁, hinsert, -, rfl⟩ := hreply
      exact insertAllocation_references hinsert
  | commit sequence => exact fun c h => ⟨h.commit, h.kept⟩

/-- Every step of every call keeps the connection. -/
theorem stepPhase_keeps {thread : Nat} {s s' : Shared} {fault : Option Fault} {phase phase' : Phase}
    (hs : Sound s.connection) (h : stepPhase thread s fault phase = some (s', phase')) :
    Sound s'.connection ∧
      s.connection.committed.references ⊆ s'.connection.committed.references := by
  have hsame : ∀ {s' : Shared}, s'.connection = s.connection → Sound s'.connection ∧
      s.connection.committed.references ⊆ s'.connection.committed.references := by
    intro s' heq
    rw [heq]
    exact ⟨hs, List.Subset.refl _⟩
  cases phase with
  | inserting row =>
      -- the insert of a reservation issues a statement,
      obtain ⟨rfl, -⟩ := Prod.mk.inj (Option.some.inj h)
      exact keeps_issue (keeps_insertReference row) fault _ hs
  | inserted affectedRows =>
      cases affectedRows <;>
        · obtain ⟨rfl, -⟩ := Prod.mk.inj (Option.some.inj h)
          exact hsame rfl
  | reserved result => contradiction
  | acquiring request =>
      obtain ⟨rfl, -⟩ := Prod.mk.inj (Option.some.inj h)
      exact hsame rfl
  | waiting request =>
      simp only [stepPhase] at h
      split at h
      · obtain ⟨rfl, -⟩ := Prod.mk.inj (Option.some.inj h)
        exact hsame rfl
      · contradiction
  | transacting request machineId attempt point =>
      -- so does a transaction,
      obtain ⟨rfl, -⟩ := Prod.mk.inj (Option.some.inj h)
      exact keeps_issue (keeps_transactionStatement request machineId point) fault _ hs
  | rollingBack request attempt error =>
      -- and its rollback
      obtain ⟨rfl, -⟩ := Prod.mk.inj (Option.some.inj h)
      have hrollback : Keeps (fun c : Connection => ((.ok () : Except SwiftError Unit), c.rollback)) :=
        fun c hc => ⟨hc.rollback, List.Subset.refl _⟩
      exact keeps_issue hrollback fault _ hs
  | sleeping request attempt =>
      cases fault <;>
        · obtain ⟨rfl, -⟩ := Prod.mk.inj (Option.some.inj h)
          exact hsame rfl
  | releasing result =>
      obtain ⟨rfl, -⟩ := Prod.mk.inj (Option.some.inj h)
      exact hsame rfl
  | allocated result => contradiction

/-! ## the calls -/

/-- The row of a reservation is committed. -/
def Committed (s : Shared) (request : ReferenceReservation) : Prop :=
  ∃ machineId, mysqlUuid request.machineId = some machineId ∧
    reservationRow request machineId ∈ s.connection.committed.references

/-- What is known of a call of `reserve`: it inserts the row of its request,
and when it has been told that it did, the row is committed. -/
def CallInvariant (s : Shared) (t : Thread) : Prop :=
  match t.phase with
  | .inserting row => ∃ request machineId, t.call = .reserve request ∧
      mysqlUuid request.machineId = some machineId ∧ row = reservationRow request machineId
  | .inserted reply => reply = .ok 1 → ∃ request, t.call = .reserve request ∧ Committed s request
  | .reserved result => result = .ok true → ∃ request, t.call = .reserve request ∧
      Committed s request
  | _ => True

/-- The condition on a step: a reservation that adds its row does so while no
transaction is open. -/
def InsertsOutside (s : Shared) (t : Thread) : Prop :=
  ∀ row, t.phase = .inserting row → referenceChecks row = true →
    s.connection.view.referenceConflicts row = false → s.connection.transaction = none

section Calls

variable {s s' : Shared} {t t' : Thread} {thread : Nat} {fault : Option Fault}
  {c : Connection} {row : ReferenceRow}

/-- A committed row stays. -/
theorem Committed.mono {request : ReferenceReservation} (h : Committed s request)
    (hmore : s.connection.committed.references ⊆ s'.connection.committed.references) :
    Committed s' request := by
  obtain ⟨machineId, hbytes, hrow⟩ := h
  exact ⟨machineId, hbytes, hmore hrow⟩

/-- What is known of a call stays known. -/
theorem CallInvariant.mono (h : CallInvariant s t)
    (hmore : s.connection.committed.references ⊆ s'.connection.committed.references) :
    CallInvariant s' t := by
  unfold CallInvariant at h ⊢
  split
  · next hphase =>
      rw [hphase] at h
      exact h
  · next hphase =>
      rw [hphase] at h
      intro hreply
      obtain ⟨request, hcall, hcommitted⟩ := h hreply
      exact ⟨request, hcall, hcommitted.mono hmore⟩
  · next hphase =>
      rw [hphase] at h
      intro hresult
      obtain ⟨request, hcall, hcommitted⟩ := h hresult
      exact ⟨request, hcall, hcommitted.mono hmore⟩
  · trivial

/-- Outside a transaction, a row that is added is committed. -/
theorem insertReference_commits (hreply : (insertReference row c).1 = .ok 1)
    (houtside : referenceChecks row = true → c.view.referenceConflicts row = false →
      c.transaction = none) : row ∈ (insertReference row c).2.committed.references := by
  unfold insertReference query at hreply ⊢
  cases hadds : referenceChecks row && !c.view.referenceConflicts row with
  | true =>
      simp only [hadds, if_true]
      simp only [Bool.and_eq_true, Bool.not_eq_true'] at hadds
      rw [Connection.write, houtside hadds.1 hadds.2]
      simp [Database.addReference]
  | false => simp [hadds] at hreply

/-- A call that starts inserts the row of its request, if it is a reservation. -/
theorem callInvariant_start (call : Call) : CallInvariant s ⟨call, startCall call⟩ := by
  cases call with
  | reserve request =>
      simp only [startCall]
      cases hbytes : mysqlUuid request.machineId with
      | none => simp [CallInvariant]
      | some machineId => exact ⟨request, machineId, rfl, hbytes, rfl⟩
  | allocate request =>
      simp only [startCall]
      split <;> trivial

/-- An attempt of an allocation has no reservation to speak of. -/
theorem callInvariant_startAttempt (call : Call) (request : SequenceAllocationRequest)
    (attempt : Nat) : CallInvariant s ⟨call, startAttempt request attempt⟩ := by
  unfold startAttempt
  split <;> trivial

/-- Nor has what follows its rollback. -/
theorem callInvariant_afterRollback (call : Call) (request : SequenceAllocationRequest)
    (attempt : Nat) (error : SwiftError) :
    CallInvariant s ⟨call, afterRollback request attempt error⟩ := by
  unfold afterRollback
  split <;> trivial

/-- Step lemma for the call that takes the step. -/
theorem callInvariant_step {phase' : Phase} (ht : CallInvariant s t) (hpermit : InsertsOutside s t)
    (h : stepPhase thread s fault t.phase = some (s', phase')) :
    CallInvariant s' { t with phase := phase' } := by
  obtain ⟨call, phase⟩ := t
  cases phase with
  | inserting row =>
      -- the only step that the condition is about
      obtain ⟨request, machineId, hcall, hbytes, hrow⟩ := ht
      obtain ⟨rfl, rfl⟩ := Prod.mk.inj (Option.some.inj h)
      intro hreply
      cases fault with
      | some fault => contradiction
      | none =>
          have hcommits := insertReference_commits hreply (hpermit row rfl)
          exact ⟨request, hcall, machineId, hbytes, hrow ▸ hcommits⟩
  | inserted reply =>
      cases reply with
      | ok affectedRows =>
          obtain ⟨rfl, rfl⟩ := Prod.mk.inj (Option.some.inj h)
          intro hresult
          have hone : affectedRows = 1 := of_decide_eq_true (Except.ok.inj hresult)
          exact ht (by rw [hone])
      | error error =>
          obtain ⟨rfl, rfl⟩ := Prod.mk.inj (Option.some.inj h)
          intro hresult
          contradiction
  | reserved result => contradiction
  | acquiring request =>
      obtain ⟨rfl, rfl⟩ := Prod.mk.inj (Option.some.inj h)
      dsimp only
      split
      · exact callInvariant_startAttempt _ _ _
      · trivial
  | waiting request =>
      simp only [stepPhase] at h
      split at h
      · obtain ⟨rfl, rfl⟩ := Prod.mk.inj (Option.some.inj h)
        exact callInvariant_startAttempt _ _ _
      · contradiction
  | transacting request machineId attempt point =>
      simp only [stepPhase, Option.some.injEq, Prod.mk.injEq] at h
      obtain ⟨rfl, rfl⟩ := h
      rcases (issue (transactionStatement request machineId point) fault s.connection).1 with
        error | (point | sequence) <;> trivial
  | rollingBack request attempt error =>
      -- the error decides between another attempt and the end
      obtain ⟨rfl, rfl⟩ := Prod.mk.inj (Option.some.inj h)
      exact callInvariant_afterRollback _ _ _ _
  | sleeping request attempt =>
      cases fault with
      | none =>
          obtain ⟨rfl, rfl⟩ := Prod.mk.inj (Option.some.inj h)
          exact callInvariant_startAttempt _ _ _
      | some fault =>
          obtain ⟨rfl, rfl⟩ := Prod.mk.inj (Option.some.inj h)
          trivial
  | releasing result =>
      obtain ⟨rfl, rfl⟩ := Prod.mk.inj (Option.some.inj h)
      trivial
  | allocated result => contradiction

end Calls

/-! ## arguments -/

/-- The texts of a reservation are canonical: they fit their columns as they
are. -/
def IsCanonical (request : ReferenceReservation) : Prop :=
  (IsAscii request.reference ∧ request.reference.length ≤ 100) ∧
    IsAscii request.namespaceName ∧ request.namespaceName.length ≤ 63

instance (request : ReferenceReservation) : Decidable (IsCanonical request) :=
  inferInstanceAs (Decidable (_ ∧ _))

/-- A column stores an ASCII text that fits as it is. -/
theorem asciiColumn_eq_self {size : Nat} {v : Text} (hascii : IsAscii v) (hlen : v.length ≤ size) :
    asciiColumn size v = v := by
  have hmap : v.map (fun c => if c.toNat < 128 then c else '?') = v.map id :=
    List.map_congr_left fun c hc => if_pos (hascii c hc)
  rw [asciiColumn, hmap, List.map_id, List.take_of_length_le hlen]

/-- A canonical request is stored as it is. -/
theorem reservationRow_of_isCanonical {request : ReferenceReservation} (h : IsCanonical request)
    (machineId : MachineBytes) :
    reservationRow request machineId = ⟨request.reference, request.namespaceName, machineId⟩ := by
  rw [reservationRow, asciiColumn_eq_self h.1.1 h.1.2, asciiColumn_eq_self h.2.1 h.2.2]

/-- The bytes of a UUID string print its lower-case form. -/
theorem formatUuid_mysqlUuid {v : Text} {machineId : MachineBytes} (h : mysqlUuid v = some machineId) :
    formatUuid (hexEncode machineId) = asciiLower v := by
  unfold mysqlUuid at h
  split at h
  · next hpattern =>
      obtain ⟨hex, hhex, hv⟩ := machinePattern_iff.mp hpattern
      obtain ⟨bytes, hdecode, -, hencode⟩ := hexDecode_of_hex hhex.2 (by rw [hhex.1])
      have hstrip : asciiLower (Separated.strip '-' v) = hex := by
        rw [← strip_asciiLower, hv, strip_formatUuid hhex]
      rw [← hexDecode_asciiLower, hstrip, hdecode, Option.some.injEq] at h
      rw [← h, hencode, hv]
  · contradiction

/-- A stored reservation is resolved to its machine identifier. -/
theorem resolveReference_of_mem {db : Database} {reference namespaceName : Text}
    {machineId : MachineBytes} (hunique : UniqueOn (·.reference) db.references)
    (hrow : ⟨reference, namespaceName, machineId⟩ ∈ db.references) :
    resolveReference db reference namespaceName =
      some ⟨formatUuid (hexEncode machineId), namespaceName⟩ := by
  have hfind := Database.find?_reference hunique hrow
  rw [resolveReference, hfind]
  rfl

/-! ## runs -/

/-- The mapping of a reservation is committed, and resolved to its machine
identifier on the connection as on every other. -/
def Durable (s : Shared) (request : ReferenceReservation) : Prop :=
  (∃ machineId, mysqlUuid request.machineId = some machineId ∧
      ⟨request.reference, request.namespaceName, machineId⟩ ∈ s.connection.committed.references) ∧
    ∀ db, db = s.connection.committed ∨ db = s.connection.view →
      resolveReference db request.reference request.namespaceName =
        some ⟨asciiLower request.machineId, request.namespaceName⟩

section Runs

variable {labels : List (Label Call (Option Fault))} {config config' : Config Shared Thread}

/-- A canonical reservation that is committed resolves on every connection. -/
theorem Committed.durable {s : Shared} {request : ReferenceReservation} (h : Committed s request)
    (hs : Sound s.connection) (hcanonical : IsCanonical request) : Durable s request := by
  obtain ⟨machineId, hbytes, hrow⟩ := h
  rw [reservationRow_of_isCanonical hcanonical] at hrow
  refine ⟨⟨machineId, hbytes, hrow⟩, ?_⟩
  rintro db (rfl | rfl)
  · rw [resolveReference_of_mem hs.committedUnique hrow, formatUuid_mysqlUuid hbytes]
  · rw [resolveReference_of_mem hs.viewUnique (hs.kept hrow), formatUuid_mysqlUuid hbytes]

theorem sound_initial : Sound initial.shared.connection :=
  ⟨.nil _, .nil _, List.Subset.refl _⟩

/-- A step of a thread is a step of its phase. -/
theorem program_step_cases {i : Nat} {s s' : Shared} {t t' : Thread} {fault : Option Fault}
    (h : program.step i s t fault = some (s', t')) :
    stepPhase i s fault t.phase = some (s', t'.phase) ∧ t' = { t with phase := t'.phase } := by
  simp only [program, Option.map_eq_some_iff, Prod.exists, Prod.mk.injEq] at h
  obtain ⟨s₁, phase, hstep, rfl, rfl⟩ := h
  exact ⟨hstep, rfl⟩

/-- Run lemma: the connection stays sound on every run. -/
theorem run_sound (hrun : program.Runs initial labels config) : Sound config.shared.connection := by
  have hholds : Holds (fun _ s => Sound s.connection) (fun _ _ _ => True) config := by
    refine Holds.run (fun n s call hs => ⟨hs, trivial⟩) ?_ hrun ⟨sound_initial, fun _ _ _ => trivial⟩
    intro n i s t fault s' t' _ hs _ hstep
    exact ⟨⟨(stepPhase_keeps hs (program_step_cases hstep).1).1, trivial⟩, fun _ _ _ _ _ => trivial⟩
  exact hholds.1

/-- Run lemma: on the runs of permitted steps, the calls know what is
committed. -/
theorem run_callInvariant (hrun : PermittedRuns program InsertsOutside initial labels config) :
    Holds (fun _ s => Sound s.connection) (fun _ => CallInvariant) config := by
  refine Holds.permittedRun (fun n s call hs => ⟨hs, callInvariant_start call⟩) ?_ hrun
    ⟨sound_initial, by simp [initial, Config.initial]⟩
  intro n i s t fault s' t' _ hs ht hpermit hstep
  obtain ⟨hphase, heq⟩ := program_step_cases hstep
  obtain ⟨hs', hmore⟩ := stepPhase_keeps hs hphase
  refine ⟨⟨hs', ?_⟩, fun j u _ _ hu => hu.mono hmore⟩
  rw [heq]
  exact callInvariant_step ht hpermit hphase

/-- A reported reservation is durable, on runs of permitted steps. -/
theorem run_durable (hrun : PermittedRuns program InsertsOutside initial labels config) {i : Nat}
    {request : ReferenceReservation} (hcanonical : IsCanonical request)
    (hreported : config.threads[i]? = some ⟨.reserve request, .reserved (.ok true)⟩) :
    Durable config.shared request := by
  obtain ⟨hs, hcalls⟩ := run_callInvariant hrun
  obtain ⟨request', hcall, hcommitted⟩ := hcalls i _ hreported rfl
  obtain rfl := Call.reserve.inj hcall
  exact hcommitted.durable hs hcanonical

/-- A reservation that adds its row inside a transaction is reported by the
next two steps, and not committed. -/
theorem reported_uncommitted (hs : Sound config.shared.connection) {i : Nat}
    {request : ReferenceReservation} {machineId : MachineBytes}
    (hthread : config.threads[i]? =
      some ⟨.reserve request, .inserting (reservationRow request machineId)⟩)
    (hinside : ¬ InsertsOutside config.shared
      ⟨.reserve request, .inserting (reservationRow request machineId)⟩) :
    ∃ config', program.Runs config [.step i none, .step i none] config' ∧
      config'.threads[i]? = some ⟨.reserve request, .reserved (.ok true)⟩ ∧
      ¬ Committed config'.shared request := by
  obtain ⟨⟨⟨committed, transaction⟩, gate⟩, threads⟩ := config
  simp only [InsertsOutside, not_forall] at hinside
  obtain ⟨row, hrow, hchecks, hfresh, hopen⟩ := hinside
  obtain rfl := Phase.inserting.inj hrow
  cases transaction with
  | none => exact absurd rfl hopen
  | some working =>
      have hfresh' : working.referenceConflicts (reservationRow request machineId) = false := hfresh
      have hinsert : insertReference (reservationRow request machineId) ⟨committed, some working⟩ =
          (.ok 1, ⟨committed, some (working.addReference (reservationRow request machineId))⟩) := by
        simp [insertReference, query, Connection.view, Connection.write, hchecks, hfresh']
      have hfirst : program.step i ⟨⟨committed, some working⟩, gate⟩
          ⟨.reserve request, .inserting (reservationRow request machineId)⟩ none =
            some (⟨⟨committed, some (working.addReference (reservationRow request machineId))⟩, gate⟩,
              ⟨.reserve request, .inserted (.ok 1)⟩) := by
        simp only [program, stepPhase, issue, hinsert, Option.map_some]
      have hi := (List.getElem?_eq_some_iff.mp hthread).1
      refine ⟨_, ((Run.nil _).snoc (next_step hthread hfirst)).snoc
        (next_step (List.getElem?_set_self hi) rfl), List.getElem?_set_self (by simpa using hi), ?_⟩
      rintro ⟨machineId', -, hrow'⟩
      exact Database.referenceConflicts_eq_false_iff.mp hfresh' _ (hs.kept hrow') rfl

end Runs

/-- **Durability of reported reservations.**  In every run in which no
reservation adds its row inside a transaction, what `reserve` has reported is
durable in every later state; and in every run, a reservation that is about to
add its row inside a transaction can be reported by the next two steps while
its mapping is not committed. -/
theorem reserve_durable (labels : List (Label Call (Option Fault)))
    (config : Config Shared Thread) :
    (PermittedRuns program InsertsOutside initial labels config →
      ∀ (i : Nat) request, IsCanonical request →
        config.threads[i]? = some ⟨.reserve request, .reserved (.ok true)⟩ →
        ∀ later config', PermittedRuns program InsertsOutside config later config' →
          Durable config'.shared request) ∧
    (program.Runs initial labels config →
      ∀ (i : Nat) request machineId, config.threads[i]? =
          some ⟨.reserve request, .inserting (reservationRow request machineId)⟩ →
        ¬ InsertsOutside config.shared
          ⟨.reserve request, .inserting (reservationRow request machineId)⟩ →
        ∃ later config', program.Runs config later config' ∧
          config'.threads[i]? = some ⟨.reserve request, .reserved (.ok true)⟩ ∧
          ¬ Committed config'.shared request) := by
  refine ⟨fun hrun i request hcanonical hreported later config' hlater => ?_,
    fun hrun i request machineId hthread hinside => ?_⟩
  · have hstill := stays (fun _ _ => rfl) (run_of_permittedRun hlater) hreported
    exact run_durable (hrun.append hlater) hcanonical hstill
  · exact ⟨_, reported_uncommitted (run_sound hrun) hthread hinside⟩

/-- A reservation that is reported and lost: its statement runs in the
transaction of an allocation that fails on its policy. -/
theorem reserve_lost :
    let request : ReferenceReservation :=
      ⟨"019f0000-0000-7000-8000-000000000001".toList, "order".toList, "ORD-7K4M-2P8Q-3D-9".toList⟩
    let first : SequenceAllocationRequest :=
      ⟨"019f0000-0000-7000-8000-000000000002".toList, "invoice".toList, "INV".toList, none, 8⟩
    let second : SequenceAllocationRequest :=
      ⟨"019f0000-0000-7000-8000-000000000003".toList, "invoice".toList, "INV".toList, none, 9⟩
    -- the first allocation commits; the second opens its transaction, `reserve` inserts and
    -- returns, the second rolls back
    let labels : List (Label Call (Option Fault)) :=
      [.start (.allocate first), .start (.allocate second), .start (.reserve request)] ++
        List.replicate 9 (.step 0 none) ++ List.replicate 2 (.step 1 none) ++
        List.replicate 2 (.step 2 none) ++ List.replicate 5 (.step 1 none)
    IsCanonical request ∧ ∃ config, program.Runs initial labels config ∧
      config.threads[2]? = some ⟨.reserve request, .reserved (.ok true)⟩ ∧
      config.shared.connection.transaction = none ∧
      config.shared.connection.committed.references = [] ∧
      resolveReference config.shared.connection.committed request.reference
        request.namespaceName = none := by
  intro request first second labels
  have hlabels : (labels.foldlM program.next initial).map (fun config =>
      (config.threads[2]?, config.shared.connection.transaction,
        config.shared.connection.committed.references)) =
      some (some ⟨.reserve request, .reserved (.ok true)⟩, none, []) := by decide
  obtain ⟨config, hconfig, hfacts⟩ := Option.map_eq_some_iff.mp hlabels
  obtain ⟨hthread, hrest⟩ := Prod.mk.inj hfacts
  obtain ⟨htransaction, hreferences⟩ := Prod.mk.inj hrest
  refine ⟨by decide, config, Run.of_foldlM hconfig, hthread, htransaction, hreferences, ?_⟩
  rw [resolveReference, hreferences]
  rfl

end Swift

end Identifold
