import Identifold.Storage.MySqlDelivery
import Identifold.Storage.MySqlIsolation

/-!
# Identifold.Storage.MySqlCollation

How the MySQL server compares texts.

The columns are `ascii_bin`, but the parameters of the procedure have the collation
of their database, and where a statement compares a column with a parameter either
may be used.  `MySqlProcedure` compares for equality.  That is right for canonical
calls, those with the texts of a registered policy, in tables that only such calls
have written: a collation tells words apart that differ in more than case, and a
canonical column has one case.
-/

namespace Identifold

namespace MySql

open Interleaving Transition Database

/-! ## collations -/

/-- Letters, digits and underscores. -/
def IsWord (v : Text) : Prop := ∀ c ∈ v, c.isAlphanum = true ∨ c = '_'

/-- A collation of the server, as far as words are concerned: of two words that it
takes for the same, one may have capitals where the other has none. -/
structure Collation where
  same : Text → Text → Bool
  same_refl : ∀ v, same v v = true
  lower_eq : ∀ v w, IsWord v → IsWord w → same v w = true → asciiLower v = asciiLower w

section Words

theorem isAlphanum_of_isAlpha {c : Char} (h : c.isAlpha = true) : c.isAlphanum = true :=
  Bool.or_eq_true_iff.mpr (.inl h)

variable (collation : Collation) {v w : Text}

/-- Words that are equal in lower case only if they are equal are compared exactly. -/
theorem Collation.same_eq (hv : IsWord v) (hw : IsWord w)
    (hcase : asciiLower v = asciiLower w → v = w) : collation.same v w = decide (v = w) := by
  by_cases heq : v = w
  · rw [heq, collation.same_refl, decide_eq_true rfl]
  · rw [decide_eq_false heq, Bool.eq_false_iff]
    exact fun hsame => heq (hcase (collation.lower_eq v w hv hw hsame))

/-- Public prefixes are in lower case. -/
theorem Collation.same_publicPrefix (hv : isPublicPrefix v = true) (hw : isPublicPrefix w = true) :
    collation.same v w = decide (v = w) := by
  have hword : ∀ {p}, isPublicPrefix p = true → IsWord p := fun hp c hc =>
    (mem_publicPrefix hp hc).imp_left fun hlower =>
      isAlphanum_of_isAlpha (Bool.or_eq_true_iff.mpr (.inr hlower))
  have hlower : ∀ {p}, isPublicPrefix p = true → asciiLower p = p := fun hp =>
    asciiLower_eq_self fun c hc => (publicPrefix_facts hp c hc).2
  refine collation.same_eq (hword hv) (hword hw) fun heq => ?_
  rwa [hlower hv, hlower hw] at heq

/-- Reference prefixes are in upper case. -/
theorem Collation.same_refPrefix (hv : isReferencePrefix v = true) (hw : isReferencePrefix w = true) :
    collation.same v w = decide (v = w) := by
  have hword : ∀ {p}, isReferencePrefix p = true → IsWord p := fun hp c hc =>
    .inl (isAlphanum_of_isAlpha (Bool.or_eq_true_iff.mpr (.inl (isUpper_of_mem_refPrefix hp c hc))))
  have hupper : ∀ c : Char, c.isUpper = true → c.toLower.toUpper = c := fun c hc =>
    forall_ascii (P := fun c => c.isUpper = true → c.toLower.toUpper = c) (by decide) c
      (toNat_lt_of_isUpper hc) hc
  have hback : ∀ {p}, isReferencePrefix p = true → asciiUpper (asciiLower p) = p := by
    intro p hp
    rw [asciiUpper, asciiLower, List.map_map]
    refine (List.map_congr_left fun c hc => ?_).trans (List.map_id p)
    exact hupper c (isUpper_of_mem_refPrefix hp c hc)
  refine collation.same_eq (hword hv) (hword hw) fun heq => ?_
  rw [← hback hv, heq, hback hw]

/-- Scopes have no letters. -/
theorem Collation.same_scope (hv : v = [] ∨ isFourDigits v = true)
    (hw : w = [] ∨ isFourDigits w = true) : collation.same v w = decide (v = w) := by
  have hdigit : ∀ {s : Text}, (s = [] ∨ isFourDigits s = true) → ∀ c ∈ s, c.isDigit = true := by
    rintro s (rfl | hs) c hc
    · contradiction
    · simp only [isFourDigits, Bool.and_eq_true, List.all_eq_true] at hs
      exact hs.2 c hc
  have hword : ∀ {s : Text}, (s = [] ∨ isFourDigits s = true) → IsWord s := fun hs c hc =>
    .inl (Bool.or_eq_true_iff.mpr (.inr (hdigit hs c hc)))
  have hlower : ∀ {s : Text}, (s = [] ∨ isFourDigits s = true) → asciiLower s = s := fun hs =>
    asciiLower_eq_self fun c hc =>
      forall_ascii (P := fun c => c.isDigit = true → c.isUpper = false) (by decide) c
        (toNat_lt_of_isDigit (hdigit hs c hc)) (hdigit hs c hc)
  refine collation.same_eq (hword hv) (hword hw) fun heq => ?_
  rwa [hlower hv, hlower hw] at heq

end Words

/-! ## canonical texts -/

/-- The texts of a registered policy, as a row or a call has them. -/
structure IsCanonicalPolicy (namespaceName refPrefix scope : Text) : Prop where
  namespaceName : isPublicPrefix namespaceName = true
  refPrefix : isReferencePrefix refPrefix = true
  scope : scope = [] ∨ isFourDigits scope = true

/-- The texts of a call are those of a registered policy. -/
def IsCanonical (call : SequenceCall) : Prop :=
  IsCanonicalPolicy call.namespaceName call.refPrefix (call.scope.getD [])

/-- So are those of all rows. -/
structure CanonicalTables (db : Database) : Prop where
  sequences : ∀ r ∈ db.sequences, IsCanonicalPolicy r.namespaceName r.refPrefix r.scope
  allocations : ∀ r ∈ db.allocations, IsCanonicalPolicy r.namespaceName r.refPrefix r.scope

/-- The comparisons of the procedure, made by a collation, are those of the model. -/
structure ComparesExactly (collation : Collation) (db : Database) (call : SequenceCall) : Prop where
  /-- `WHERE namespace = requested_namespace AND scope = scope_key`, of counters. -/
  counters : ∀ r ∈ db.sequences, (collation.same r.namespaceName call.namespaceName &&
    collation.same r.scope (call.scope.getD [])) = decide (r.key = callKey call)
  /-- The same, of allocations. -/
  allocations : ∀ r ∈ db.allocations, (collation.same r.namespaceName call.namespaceName &&
    collation.same r.scope (call.scope.getD [])) = decide (r.key = callKey call)
  /-- `current_prefix <> requested_reference_prefix`, of a counter. -/
  counterPrefix : ∀ r ∈ db.sequences,
    collation.same r.refPrefix call.refPrefix = decide (r.refPrefix = call.refPrefix)
  /-- The same, of an allocation. -/
  allocationPrefix : ∀ r ∈ db.allocations,
    collation.same r.refPrefix call.refPrefix = decide (r.refPrefix = call.refPrefix)

section Canonical

variable {db db' : Database} {call : SequenceCall}

/-- **Collations**: every collation compares canonical texts for equality. -/
theorem CanonicalTables.comparesExactly (h : CanonicalTables db) (hcall : IsCanonical call)
    (collation : Collation) : ComparesExactly collation db call := by
  have hkey : ∀ {namespaceName refPrefix scope : Text},
      IsCanonicalPolicy namespaceName refPrefix scope →
        (collation.same namespaceName call.namespaceName &&
          collation.same scope (call.scope.getD [])) =
            decide ((namespaceName, scope) = callKey call) := by
    intro namespaceName refPrefix scope hpolicy
    rw [collation.same_publicPrefix hpolicy.namespaceName hcall.namespaceName,
      collation.same_scope hpolicy.scope hcall.scope, ← Bool.decide_and]
    simp only [callKey, Prod.mk.injEq]
  exact ⟨fun r hr => hkey (h.sequences r hr), fun r hr => hkey (h.allocations r hr),
    fun r hr => collation.same_refPrefix (h.sequences r hr).refPrefix hcall.refPrefix,
    fun r hr => collation.same_refPrefix (h.allocations r hr).refPrefix hcall.refPrefix⟩

theorem canonicalTables_empty : CanonicalTables .empty :=
  ⟨by simp [Database.empty], by simp [Database.empty]⟩

/-- The upsert of a canonical call keeps the tables canonical, also where it
renames a counter. -/
theorem CanonicalTables.upsert (h : CanonicalTables db) (hcall : IsCanonical call)
    (hupsert : upsertSequence db (offeredRow call) = .ok db') : CanonicalTables db' := by
  obtain ⟨-, rfl | rfl | ⟨-, owner, -, -, -, rfl⟩⟩ := upsertSequence_ok hupsert
  · exact h
  · refine ⟨fun r hr => ?_, h.allocations⟩
    rcases List.mem_append.mp hr with hr | hr
    · exact h.sequences r hr
    · rw [List.mem_singleton.mp hr]
      exact hcall
  · refine ⟨fun r hr => ?_, h.allocations⟩
    obtain ⟨r', hr', rfl⟩ := List.mem_map.mp hr
    have hold := h.sequences r' hr'
    split
    · exact ⟨hcall.namespaceName, hold.refPrefix, hold.scope⟩
    · exact hold

/-- Step lemma: so does the whole call. -/
theorem CanonicalTables.exec (h : CanonicalTables db) (hcall : IsCanonical call) :
    CanonicalTables (exec db call).2 := by
  rw [MySql.exec]
  cases hresult : allocateSequence db call with
  | error condition => exact h
  | ok result =>
      obtain ⟨n, db'⟩ := result
      rcases allocateSequence_cases hresult with rfl |
        ⟨db₁, counter, hupsert, -, -, hselect, ⟨hpre, -⟩, -, -, rfl⟩
      · exact h
      · have h₁ := h.upsert hcall hupsert
        have hcounter := h₁.sequences counter (selectSequence_facts hselect).1
        refine ⟨fun r hr => ?_, fun r hr => ?_⟩
        · obtain ⟨r', hr', rfl⟩ := List.mem_map.mp hr
          have hold := h₁.sequences r' hr'
          unfold SequenceRow.setLastValue
          split <;> exact hold
        · rw [record_allocations] at hr
          rcases List.mem_append.mp hr with hr | hr
          · exact h₁.allocations r hr
          · rw [List.mem_singleton.mp hr]
            exact hcounter

end Canonical

/-! ## runs of the adapter -/

section Runs

variable {driver : MySqlDriver} {labels : List (Label CanonicalRequest Delivery)}
  {config : Config Database AllocationCall}

/-- A request with the texts of a registered policy. -/
def IsCanonicalRequest (request : SequenceAllocationRequest) : Prop :=
  isPublicPrefix request.namespaceName = true ∧ isReferencePrefix request.refPrefix = true ∧
    ∀ year ∈ request.scope, isFourDigits year = true

/-- The driver passes the texts of a request as they are. -/
theorem isCanonical_of_bind {machineId : MachineBytes} {request : SequenceAllocationRequest}
    {call : SequenceCall} (hrequest : IsCanonicalRequest request)
    (hbind : driver.bind machineId request = .ok call) : IsCanonical call := by
  obtain ⟨hns, hpre, hscope⟩ := hrequest
  obtain ⟨hcall, -⟩ := driver.bind_ok _ _ _ hbind
  rw [hcall]
  refine ⟨hns, hpre, ?_⟩
  cases hyear : request.scope with
  | none => exact .inl rfl
  | some year => exact .inr (hscope year hyear)

/-- An attempt keeps the tables canonical, whatever becomes of its query. -/
theorem CanonicalTables.attempt {db : Database} (h : CanonicalTables db)
    {request : SequenceAllocationRequest} (hrequest : IsCanonicalRequest request)
    (delivery : Delivery) : CanonicalTables (driver.attempt db request delivery).2 := by
  have hperform : ∀ machineId, CanonicalTables (driver.perform db machineId request).2 := by
    intro machineId
    rw [MySqlDriver.perform]
    cases hbind : driver.bind machineId request with
    | error condition => exact h
    | ok call => exact h.exec (isCanonical_of_bind hrequest hbind)
  rw [MySqlDriver.attempt]
  cases machineIdToBytes request.machineId with
  | error error => exact h
  | ok machineId =>
      cases delivery with
      | delivered | lost => exact hperform machineId
      | refused => exact h

/-- **Every comparison of every run**: in each state that calls of `allocate` reach,
with whatever collations of the server and losses of the connection, the statements
of a canonical call select and compare as the procedure's model does, before its
upsert and after it. -/
theorem allocation_comparesExactly
    (hrun : (allocationProgram driver).Runs (.initial .empty) labels config)
    {call : SequenceCall} (hcall : IsCanonical call) (collation : Collation) :
    ComparesExactly collation config.shared call ∧
      ∀ db', upsertSequence config.shared (offeredRow call) = .ok db' →
        ComparesExactly collation db' call := by
  have hholds : Holds (fun _ => CanonicalTables)
      (fun _ _ (call : AllocationCall) => IsCanonicalRequest call.request) config := by
    refine Holds.run (fun n db request h => ⟨h, request.property⟩) ?_ hrun
      ⟨canonicalTables_empty, by simp [Config.initial]⟩
    intro n i db call delivery db' call' _ h hrequest hstep
    simp only [allocationProgram, allocationStep] at hstep
    split at hstep
    · contradiction
    · obtain ⟨rfl, rfl⟩ := Prod.mk.inj (Option.some.inj hstep)
      exact ⟨⟨h.attempt hrequest delivery, hrequest⟩, fun _ _ _ _ hother => hother⟩
  exact ⟨hholds.1.comparesExactly hcall collation,
    fun db' hupsert => (hholds.1.upsert hcall hupsert).comparesExactly hcall collation⟩

end Runs

end MySql

end Identifold
