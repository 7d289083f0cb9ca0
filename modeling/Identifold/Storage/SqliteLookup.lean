import Identifold.Storage.SqliteSchema

/-!
# Identifold.Storage.SqliteLookup

What `createSqliteReferenceLookup` returns after a run of `reserve` and
`allocate` calls, against what the calls handed out.  A reservation hands out
its text; an allocation hands out the reference that is formatted from its
row, with the digits padded to the width of the row and their check symbol.

The lookup splits the text with a pattern of its own and asks for the number
alone, so of an allocation it forgets the width and the check symbol.

* `readsAs_of_format` — a reference that was handed out reads as its row;
* `lookupMeets_of_not_reserved` — what a lookup finds where nothing was reserved.
-/

namespace Identifold

open Transition Rows

/-! ## handed-out references -/

namespace AllocationRow

/-- The scope a stored text stands for. -/
def scope? (r : AllocationRow) : Option Text := if r.scope = [] then none else some r.scope

/-- The number, padded to the width. -/
def sequenceDigits (r : AllocationRow) : Text := padStart r.width (Nat.toDigits 10 r.sequence)

/-- The reference that an allocation stands for, as `formatSequentialReference`
writes it. -/
def format (r : AllocationRow) : Except IdentifoldError Text := do
  let checkSymbol ← calculateSequentialCheckSymbol (r.scope ++ r.sequenceDigits)
  return formatSequentialParts r.refPrefix r.sequenceDigits checkSymbol r.scope?

end AllocationRow

/-- A canonical reference: its own normal form under some registry. -/
def IsCanonicalReference (reference : Text) : Prop :=
  ∃ registry result, parseReference reference registry = .ok result ∧ result.value = reference

namespace Sqlite

/-- The event is the allocation that `row` records. -/
def Stores (row : AllocationRow) (e : Call × Outcome) : Prop :=
  ∃ request, e = (.allocate request, .allocated row.sequence) ∧ counterKey request = row.key ∧
    machineIdToBytes request.machineId = .ok row.machineId ∧ request.refPrefix = row.refPrefix ∧
    request.width = .integer row.width

/-- Some `reserve` of the run returned `true` for the reference. -/
def ReservedAs (events : List (Call × Outcome)) (reference namespaceName machineId : Text) : Prop :=
  ∃ row : ReferenceRow, (∃ e ∈ events, Wins row e) ∧ row.reference = reference ∧
    row.namespaceName = namespaceName ∧ bytesToMachineId row.machineId = .ok machineId

/-- Some `allocate` of the run bound a number whose formatted reference this
is. -/
def BoundAs (events : List (Call × Outcome)) (reference namespaceName machineId : Text) : Prop :=
  ∃ row : AllocationRow, (∃ e ∈ events, Stores row e) ∧ row.format = .ok reference ∧
    row.namespaceName = namespaceName ∧ bytesToMachineId row.machineId = .ok machineId

/-- Soundness and completeness of a lookup after a run: it returns a machine
identifier if and only if the run gave it the reference, and otherwise
nothing. -/
def LookupMeets (events : List (Call × Outcome)) (db : Database) (reference namespaceName : Text) :
    Prop :=
  (∀ machineId, lookup db reference namespaceName = .ok (some ⟨machineId, namespaceName⟩) ↔
    ReservedAs events reference namespaceName machineId ∨
      BoundAs events reference namespaceName machineId) ∧
  ((∀ machineId, ¬ (ReservedAs events reference namespaceName machineId ∨
      BoundAs events reference namespaceName machineId)) →
    lookup db reference namespaceName = .ok none)

/-- The row is the reservation of the reference in the namespace. -/
def Reserves (reference namespaceName : Text) (row : ReferenceRow) : Prop :=
  row.reference = reference ∧ row.namespaceName = namespaceName

/-- An allocation of the namespace is stored under the columns that the
pattern reads in the reference. -/
def ReadsAs (reference namespaceName : Text) (row : AllocationRow) : Prop :=
  row.namespaceName = namespaceName ∧
    splitSequentialReference reference = some ⟨row.refPrefix, row.scope, row.sequence⟩

/-- Every allocation that the reference reads as is one that it was formatted
from; where the reference is reserved, one with the machine identifier of the
reservation. -/
def Unambiguous (db : Database) (reference namespaceName : Text) : Prop :=
  ∀ row ∈ db.allocations, ReadsAs reference namespaceName row →
    (∀ reserved ∈ db.references, Reserves reference namespaceName reserved →
      row.format = .ok reference → row.machineId = reserved.machineId) ∧
    ((∀ reserved ∈ db.references, ¬ Reserves reference namespaceName reserved) →
      row.format = .ok reference)

instance (reference namespaceName : Text) (row : ReferenceRow) :
    Decidable (Reserves reference namespaceName row) := inferInstanceAs (Decidable (_ ∧ _))

instance (reference namespaceName : Text) (row : AllocationRow) :
    Decidable (ReadsAs reference namespaceName row) := inferInstanceAs (Decidable (_ ∧ _))

instance (db : Database) (reference namespaceName : Text) :
    Decidable (Unambiguous db reference namespaceName) :=
  inferInstanceAs (Decidable (∀ row ∈ db.allocations, _ → _))

/-! ## the rows of a run -/

section Step

variable {db db' : Database} {e : Call × Outcome} {row : AllocationRow}

/-- A reservation stores no allocation row. -/
theorem allocations_reserve {reservation : ReferenceReservation} {outcome : Outcome}
    (h : exec db (.reserve reservation) = (outcome, db')) : db'.allocations = db.allocations := by
  cases hcall : reserve db reservation with
  | error error =>
      simp only [exec, hcall, Prod.mk.injEq] at h
      rw [h.2]
  | ok result =>
      simp only [exec, hcall, Prod.mk.injEq] at h
      obtain ⟨-, -, ⟨-, hdb⟩ | ⟨-, reserved, -, -, -, hdb⟩⟩ := reserve_cases hcall
      · rw [← h.2, hdb]
      · rw [← h.2, hdb]
        rfl

/-- The row a successful call stores is determined by its request and its
value. -/
theorem stores_allocated_iff {request : SequenceAllocationRequest} {machineId : MachineBytes}
    {width value : Nat} (hwidth : request.width = .integer (width : Nat))
    (hbytes : machineIdToBytes request.machineId = .ok machineId) :
    Stores row (.allocate request, .allocated value) ↔
      row = ⟨(counterKey request).1, (counterKey request).2, value, machineId, request.refPrefix,
        width⟩ := by
  constructor
  · rintro ⟨request', heq, hkey, hid, hpre, hrow⟩
    obtain ⟨hrequest, hvalue⟩ := Prod.mk.inj heq
    rw [← Call.allocate.inj hrequest] at hkey hid hpre hrow
    rw [hwidth] at hrow
    rw [hkey, hpre, Outcome.allocated.inj hvalue, Except.ok.inj (hbytes.symm.trans hid),
      Int.ofNat_inj.mp (JsNumber.integer.inj hrow)]
    rfl
  · rintro rfl
    exact ⟨request, rfl, rfl, hbytes, rfl, hwidth⟩

/-- Step lemma: the allocations grow by what the call stores. -/
theorem mem_allocations_exec (h : ofService exec db e db') :
    row ∈ db'.allocations ↔ row ∈ db.allocations ∨ Stores row e := by
  obtain ⟨call, outcome⟩ := e
  simp only [ofService] at h
  cases call with
  | reserve reservation =>
      have hnone : ¬ Stores row (.reserve reservation, outcome) := by
        rintro ⟨request, heq, -⟩
        simp at heq
      rw [allocations_reserve h]
      simp [hnone]
  | allocate request =>
      cases hcall : allocate db request with
      | error error =>
          simp only [exec, hcall, Prod.mk.injEq] at h
          obtain ⟨rfl, rfl⟩ := h
          simp [Stores]
      | ok result =>
          obtain ⟨value, db₁⟩ := result
          simp only [exec, hcall, Prod.mk.injEq] at h
          obtain ⟨rfl, rfl⟩ := h
          obtain ⟨width, hwidth, -, htransaction⟩ := allocate_cases hcall
          obtain ⟨machineId, hbytes, hcases⟩ := allocateTransaction_cases htransaction
          rw [stores_allocated_iff hwidth hbytes]
          rcases hcases with ⟨existing, hselect, hpre, hsame, hn, rfl⟩ |
            ⟨-, created, counter, -, -, hcounter, hpre, hsame, -, hn, rfl⟩
          · -- a replay: its row is there
            obtain ⟨hmem, hid⟩ := Database.selectAllocation_facts hselect
            obtain ⟨hmem, hkey⟩ := Database.mem_rowsOf.mp hmem
            rw [← hkey, ← hid, ← hpre, ← hsame, hn]
            refine ⟨.inl, ?_⟩
            rintro (hold | rfl)
            · exact hold
            · exact hmem
          · -- a new number: its row is put behind the others
            obtain ⟨-, hkey⟩ := Database.selectSequence_facts hcounter
            rw [Database.record_allocations, Database.ensureSequence_allocations, List.mem_append,
              List.mem_singleton, ← hkey, ← hpre, ← hsame, hn]
            rfl

end Step

section Runs

variable {events : List (Call × Outcome)} {db : Database} {reference namespaceName : Text}

/-- Run lemma: the allocations are those that the run stored. -/
theorem run_stores (hrun : Run (ofService exec) Database.empty events db) (row : AllocationRow) :
    (∃ e ∈ events, Stores row e) ↔ row ∈ db.allocations := by
  induction hrun with
  | nil => simp [Database.empty]
  | snoc _ hstep ih =>
      rw [mem_allocations_exec hstep, ← ih]
      simp [or_and_right, exists_or]

/-- What a counter of a run numbers: the policy of a row is the one of a
counter that passed its `CHECK`s, and the number fits the width. -/
theorem run_row_facts (hrun : Run (ofService exec) Database.empty events db) {row : AllocationRow}
    (hrow : row ∈ db.allocations) :
    ∃ counter : SequenceRow, counter.sqliteChecks = true ∧ counter.scope = row.scope ∧
      counter.refPrefix = row.refPrefix ∧ counter.width = row.width ∧
      row.sequence < 10 ^ row.width := by
  obtain ⟨hdb, -⟩ := run_recorded hrun
  obtain ⟨counter, hmem, hkey, hpre, hwidth⟩ := hdb.policy row hrow
  refine ⟨counter, (run_storedState hrun).sequenceChecks counter hmem, (Prod.mk.inj hkey).2, hpre,
    hwidth, ?_⟩
  have hle := hdb.sequence_le hmem (Database.mem_rowsOf.mpr ⟨hrow, hkey.symm⟩)
  have hcapacity := hdb.capacity counter hmem
  have hpos : 0 < 10 ^ counter.width := Nat.pow_pos (by decide)
  rw [hwidth] at hcapacity hpos
  omega

/-- A canonical reference has no symbol outside the alphabet of references. -/
theorem nul_not_mem_of_canonical (h : IsCanonicalReference reference) :
    '\x00' ∉ reference := by
  obtain ⟨registry, result, hparse, -⟩ := h
  simp only [parseReference, bind_eq_ok_iff, ensure_eq_ok_iff] at hparse
  obtain ⟨-, ⟨-, -, hsymbols⟩, -⟩ := hparse
  intro hmem
  exact absurd (hsymbols _ hmem) (by decide)

/-- A canonical reference that is formatted from an allocation reads as it. -/
theorem readsAs_of_format (hrun : Run (ofService exec) Database.empty events db)
    (hcanonical : IsCanonicalReference reference) {row : AllocationRow} (hrow : row ∈ db.allocations)
    (hns : row.namespaceName = namespaceName) (hformat : row.format = .ok reference) :
    ReadsAs reference namespaceName row := by
  obtain ⟨counter, hchecks, hscope, hpre, hwidth, hn⟩ := run_row_facts hrun hrow
  have hnul := nul_not_mem_of_canonical hcanonical
  simp only [AllocationRow.format, bind_eq_ok_iff, pure_eq_ok_iff] at hformat
  obtain ⟨checkSymbol, hcheck, rfl⟩ := hformat
  have hbounds := width_of_sqliteChecks hchecks
  rw [hwidth] at hbounds
  have hsequence : isSequenceDigits row.sequenceDigits = true := isSequenceDigits_padStart hbounds hn
  -- the text shows prefix and scope, so neither has a NUL that would hide symbols from the checks
  have hvalidPrefix : isReferencePrefix row.refPrefix = true := by
    rw [← hpre]
    refine refPrefix_of_sqliteChecks hchecks fun hmem => hnul ?_
    rw [hpre] at hmem
    unfold AllocationRow.scope?
    split <;> simp [formatSequentialParts, hmem]
  have hvalidScope : row.scope = [] ∨ isFourDigits row.scope = true := by
    rw [← hscope]
    refine scope_of_sqliteChecks hchecks fun hmem => hnul ?_
    rw [hscope] at hmem
    have hne : row.scope ≠ [] := List.ne_nil_of_mem hmem
    simp [AllocationRow.scope?, hne, formatSequentialParts, hmem]
  -- scope and number are digits, so the check symbol is calculated
  have hdigits : ∀ c ∈ row.scope ++ row.sequenceDigits, c.isDigit = true := by
    intro c hc
    rcases List.mem_append.mp hc with hc | hc
    · rcases hvalidScope with hnil | hfour
      · simp [hnil] at hc
      · simp only [isFourDigits, Bool.and_eq_true, List.all_eq_true] at hfour
        exact hfour.2 c hc
    · exact isDigit_of_mem_padStart hc
  have hne : row.scope ++ row.sequenceDigits ≠ [] := by
    intro hnil
    rw [(List.append_eq_nil_iff.mp hnil).2] at hsequence
    exact absurd hsequence (by decide)
  rw [calculateSequentialCheckSymbol_eq hne hdigits] at hcheck
  refine ⟨hns, ?_⟩
  rw [← Except.ok.inj hcheck, splitSequentialReference_formatSequentialParts hvalidPrefix ?_ hsequence
    (isCheckCharacter_sequentialCheckSymbol _), AllocationRow.sequenceDigits, ofDigitChars_padStart]
  · unfold AllocationRow.scope?
    split <;> simp [*]
  · intro year hmem
    unfold AllocationRow.scope? at hmem
    split at hmem
    · contradiction
    · rename_i hnonempty
      rw [← Option.some.inj hmem]
      exact hvalidScope.resolve_left hnonempty

end Runs

/-! ## what a lookup finds -/

section Lookup

variable {events : List (Call × Outcome)} {db : Database} {reference namespaceName machineId : Text}

/-- A reserved reference is looked up as its reservation. -/
theorem lookup_of_reserved (hdb : StoredState db) {row : ReferenceRow} (hrow : row ∈ db.references)
    (hreserves : Reserves reference namespaceName row) :
    lookup db reference namespaceName =
      (bytesToMachineId row.machineId).map fun machineId => some ⟨machineId, namespaceName⟩ := by
  have hfind : (db.references.find? fun r =>
      decide (r.reference = reference) && decide (r.namespaceName = namespaceName)) = some row := by
    rw [← hreserves.1, ← hreserves.2]
    exact Database.find?_reference hdb.referenceUnique hrow
  rw [lookup, hfind]
  simp only [hreserves.2]
  cases bytesToMachineId row.machineId <;> rfl

theorem find?_references_eq_none
    (h : ∀ row ∈ db.references, ¬ Reserves reference namespaceName row) :
    (db.references.find? fun r =>
      decide (r.reference = reference) && decide (r.namespaceName = namespaceName)) = none := by
  rw [List.find?_eq_none]
  intro row hrow htest
  simp only [Bool.and_eq_true, decide_eq_true_eq] at htest
  exact h row hrow htest

/-- Where the reference is not reserved, an allocation it reads as answers. -/
theorem lookup_of_readsAs (hdb : db.Consistent)
    (hnone : ∀ row ∈ db.references, ¬ Reserves reference namespaceName row) {row : AllocationRow}
    (hrow : row ∈ db.allocations) (hreads : ReadsAs reference namespaceName row) :
    lookup db reference namespaceName =
      (bytesToMachineId row.machineId).map fun machineId => some ⟨machineId, namespaceName⟩ := by
  obtain ⟨hns, hsplit⟩ := hreads
  have hfind : (db.allocations.find? fun r => decide (r.namespaceName = namespaceName) &&
      decide (r.ownerKey = ((row.refPrefix, row.scope), row.sequence))) = some row := by
    rw [← hns]
    exact hdb.find?_allocation hrow
  rw [lookup, find?_references_eq_none hnone]
  simp only [hsplit, hfind, hns]
  cases bytesToMachineId row.machineId <;> rfl

/-- Where nothing answers, the lookup returns nothing. -/
theorem lookup_of_none (hnone : ∀ row ∈ db.references, ¬ Reserves reference namespaceName row)
    (hreads : ∀ row ∈ db.allocations, ¬ ReadsAs reference namespaceName row) :
    lookup db reference namespaceName = .ok none := by
  rw [lookup, find?_references_eq_none hnone]
  cases hsplit : splitSequentialReference reference with
  | none => simp only
  | some parts =>
      have hfind : (db.allocations.find? fun r => decide (r.namespaceName = namespaceName) &&
          decide (r.ownerKey = ((parts.refPrefix, parts.scope), parts.sequence))) = none := by
        rw [List.find?_eq_none]
        intro row hrow htest
        simp only [Bool.and_eq_true, decide_eq_true_eq, AllocationRow.ownerKey,
          Prod.mk.injEq] at htest
        refine hreads row hrow ⟨htest.1, ?_⟩
        rw [hsplit, htest.2.1.1, htest.2.1.2, htest.2.2]
      simp only [hfind]

/-- Two allocations that a reference reads as are one. -/
theorem ReadsAs.unique (hdb : db.Consistent) {row row' : AllocationRow} (hrow : row ∈ db.allocations)
    (hrow' : row' ∈ db.allocations) (h : ReadsAs reference namespaceName row)
    (h' : ReadsAs reference namespaceName row') : row = row' := by
  have hparts := Option.some.inj (h.2.symm.trans h'.2)
  simp only [SequentialReferenceParts.mk.injEq] at hparts
  exact hdb.eq_of_sequence hrow hrow' (Prod.ext (h.1.trans h'.1.symm) hparts.2.1) hparts.2.2

end Lookup

/-! ## soundness and completeness -/

section Meets

variable {events : List (Call × Outcome)} {db : Database} {reference namespaceName : Text}

theorem reservedAs_iff (hrun : Run (ofService exec) Database.empty events db) {machineId : Text} :
    ReservedAs events reference namespaceName machineId ↔
      ∃ row ∈ db.references, Reserves reference namespaceName row ∧
        bytesToMachineId row.machineId = .ok machineId := by
  obtain ⟨-, hrec⟩ := run_recorded hrun
  simp only [ReservedAs, hrec.wins, Reserves, and_assoc]

theorem boundAs_iff (hrun : Run (ofService exec) Database.empty events db) {machineId : Text} :
    BoundAs events reference namespaceName machineId ↔
      ∃ row ∈ db.allocations, row.format = .ok reference ∧ row.namespaceName = namespaceName ∧
        bytesToMachineId row.machineId = .ok machineId := by
  simp only [BoundAs, run_stores hrun]

/-- Stored machine identifiers are read back, different ones as different
texts. -/
theorem bytesToMachineId_of_length {bytes : MachineBytes} (h : bytes.length = 16) :
    ∃ machineId, bytesToMachineId bytes = .ok machineId :=
  ⟨_, if_pos h⟩

theorem bytesToMachineId_injective {bytes bytes' : MachineBytes} {machineId : Text}
    (h : bytesToMachineId bytes = .ok machineId) (h' : bytesToMachineId bytes' = .ok machineId) :
    bytes = bytes' :=
  Except.ok.inj ((machineIdToBytes_of_bytesToMachineId h).symm.trans
    (machineIdToBytes_of_bytesToMachineId h'))

/-- A lookup that answers with one machine identifier. -/
theorem lookup_eq_some_iff {bytes : MachineBytes} {found : Text}
    (hfound : bytesToMachineId bytes = .ok found)
    (h : lookup db reference namespaceName =
      (bytesToMachineId bytes).map fun machineId => some ⟨machineId, namespaceName⟩)
    (machineId : Text) :
    lookup db reference namespaceName = .ok (some ⟨machineId, namespaceName⟩) ↔
      machineId = found := by
  rw [h, hfound]
  simp [Except.map, eq_comm]

/-- The meaning of the condition where the reference is reserved: a binding to
the same reference has the machine identifier of the reservation. -/
theorem lookupMeets_of_reserved (hrun : Run (ofService exec) Database.empty events db)
    (hcanonical : IsCanonicalReference reference) {reserved : ReferenceRow}
    (hmem : reserved ∈ db.references) (hreserves : Reserves reference namespaceName reserved) :
    LookupMeets events db reference namespaceName ↔ Unambiguous db reference namespaceName := by
  have hstored := run_storedState hrun
  have hchecks := hstored.referenceChecks reserved hmem
  simp only [ReferenceRow.sqliteChecks, Bool.and_eq_true, decide_eq_true_eq] at hchecks
  obtain ⟨found, hfound⟩ := bytesToMachineId_of_length hchecks.1.1.1.1.1
  have hlookup := lookup_eq_some_iff hfound (lookup_of_reserved hstored hmem hreserves)
  have hunique : ∀ row ∈ db.references, Reserves reference namespaceName row → row = reserved :=
    fun row hrow h => hstored.referenceUnique.eq hrow hmem (h.1.trans hreserves.1.symm)
  constructor
  · rintro ⟨hmeets, -⟩ row hrow hreads
    refine ⟨fun row' hrow' hreserves' hformat => ?_, fun hnone => absurd hreserves (hnone _ hmem)⟩
    rw [hunique row' hrow' hreserves']
    have hrowChecks := hstored.allocationChecks row hrow
    simp only [AllocationRow.sqliteChecks, Bool.and_eq_true, decide_eq_true_eq] at hrowChecks
    obtain ⟨bound, hbound⟩ := bytesToMachineId_of_length hrowChecks.1
    have hbinds := (boundAs_iff hrun).mpr ⟨row, hrow, hformat, hreads.1, hbound⟩
    rw [(hlookup bound).mp ((hmeets bound).mpr (.inr hbinds))] at hbound
    exact bytesToMachineId_injective hbound hfound
  · intro hunambiguous
    have hself := (reservedAs_iff hrun).mpr ⟨reserved, hmem, hreserves, hfound⟩
    refine ⟨fun machineId => (hlookup machineId).trans ⟨fun heq => .inl (heq ▸ hself), ?_⟩,
      fun hnone => absurd (.inl hself) (hnone found)⟩
    rintro (hreserved | hbound)
    · obtain ⟨row, hrow, hrowReserves, hid⟩ := (reservedAs_iff hrun).mp hreserved
      rw [hunique row hrow hrowReserves] at hid
      exact Except.ok.inj (hid.symm.trans hfound)
    · obtain ⟨row, hrow, hformat, hns, hid⟩ := (boundAs_iff hrun).mp hbound
      have hreads := readsAs_of_format hrun hcanonical hrow hns hformat
      rw [(hunambiguous row hrow hreads).1 reserved hmem hreserves hformat] at hid
      exact Except.ok.inj (hid.symm.trans hfound)

/-- Where it is not reserved: what it reads as has handed it out. -/
theorem lookupMeets_of_not_reserved (hrun : Run (ofService exec) Database.empty events db)
    (hcanonical : IsCanonicalReference reference)
    (hnone : ∀ row ∈ db.references, ¬ Reserves reference namespaceName row) :
    LookupMeets events db reference namespaceName ↔ Unambiguous db reference namespaceName := by
  have hstored := run_storedState hrun
  obtain ⟨hdb, -⟩ := run_recorded hrun
  have hnotReserved : ∀ machineId, ¬ ReservedAs events reference namespaceName machineId := by
    intro machineId hreserved
    obtain ⟨row, hrow, hreserves, -⟩ := (reservedAs_iff hrun).mp hreserved
    exact hnone row hrow hreserves
  -- the lookup splits the text, and finds a row that it reads as
  by_cases hread : ∃ row ∈ db.allocations, ReadsAs reference namespaceName row
  · obtain ⟨row, hrow, hreads⟩ := hread
    have hrowChecks := hstored.allocationChecks row hrow
    simp only [AllocationRow.sqliteChecks, Bool.and_eq_true, decide_eq_true_eq] at hrowChecks
    obtain ⟨found, hfound⟩ := bytesToMachineId_of_length hrowChecks.1
    have hlookup := lookup_eq_some_iff hfound (lookup_of_readsAs hdb hnone hrow hreads)
    -- only this row can have handed the reference out
    have honly : ∀ row' ∈ db.allocations, row'.format = .ok reference →
        row'.namespaceName = namespaceName → row' = row := fun row' hrow' hformat hns =>
      (readsAs_of_format hrun hcanonical hrow' hns hformat).unique hdb hrow' hrow hreads
    constructor
    · rintro ⟨hmeets, -⟩ row' hrow' hreads'
      refine ⟨fun reserved hmem hreserves => absurd hreserves (hnone reserved hmem), fun _ => ?_⟩
      rcases (hmeets found).mp ((hlookup found).mpr rfl) with hreserved | hbound
      · exact absurd hreserved (hnotReserved found)
      · obtain ⟨row₀, hrow₀, hformat, hns, -⟩ := (boundAs_iff hrun).mp hbound
        rwa [hreads'.unique hdb hrow' hrow hreads, ← honly row₀ hrow₀ hformat hns]
    · intro hunambiguous
      have hformat := (hunambiguous row hrow hreads).2 hnone
      have hself := (boundAs_iff hrun).mpr ⟨row, hrow, hformat, hreads.1, hfound⟩
      refine ⟨fun machineId => (hlookup machineId).trans ⟨fun heq => .inr (heq ▸ hself), ?_⟩,
        fun hnothing => absurd (.inr hself) (hnothing found)⟩
      rintro (hreserved | hbound)
      · exact absurd hreserved (hnotReserved machineId)
      · obtain ⟨row', hrow', hformat', hns, hid⟩ := (boundAs_iff hrun).mp hbound
        rw [honly row' hrow' hformat' hns] at hid
        exact Except.ok.inj (hid.symm.trans hfound)
  · -- no row reads as the text, so none was handed out for it
    have hunread : ∀ row ∈ db.allocations, ¬ ReadsAs reference namespaceName row :=
      fun row hrow hreads => hread ⟨row, hrow, hreads⟩
    have hlookup := lookup_of_none hnone hunread
    refine ⟨fun _ row hrow hreads => absurd hreads (hunread row hrow), fun _ => ⟨fun machineId => ?_,
      fun _ => hlookup⟩⟩
    rw [hlookup]
    refine ⟨fun h => by simp at h, ?_⟩
    rintro (hreserved | hbound)
    · exact absurd hreserved (hnotReserved machineId)
    · obtain ⟨row, hrow, hformat, hns, -⟩ := (boundAs_iff hrun).mp hbound
      exact absurd (readsAs_of_format hrun hcanonical hrow hns hformat) (hunread row hrow)

/-- **Soundness and completeness of lookups**: after every run, a lookup of a
canonical reference answers with what the run handed out exactly where the
allocation the reference reads as is the one it was formatted from. -/
theorem lookup_meets_iff (hrun : Run (ofService exec) Database.empty events db)
    (hcanonical : IsCanonicalReference reference) (namespaceName : Text) :
    LookupMeets events db reference namespaceName ↔ Unambiguous db reference namespaceName := by
  by_cases hreserved : ∃ row ∈ db.references, Reserves reference namespaceName row
  · obtain ⟨reserved, hmem, hreserves⟩ := hreserved
    exact lookupMeets_of_reserved hrun hcanonical hmem hreserves
  · exact lookupMeets_of_not_reserved hrun hcanonical fun row hrow hreserves =>
      hreserved ⟨row, hrow, hreserves⟩

end Meets

/-- An allocation of the invoices' counter under the given width. -/
def invoiceAllocation (width : Nat) : Call :=
  .allocate ⟨"019f0000-0000-7000-8000-000000000001".toList, "invoice".toList, "INV".toList,
    some "2026".toList, .integer width⟩

theorem isCanonicalReference_invoice : IsCanonicalReference "INV-2026-000001-X".toList := by
  have hformat : ReferenceContent.format sampleRegistry
      (.sequence "invoice".toList 1 (some "2026".toList)) = .ok "INV-2026-000001-X".toList := by decide
  obtain ⟨result, hparse, hvalue, -⟩ := parseReference_format hformat
  exact ⟨sampleRegistry, result, hparse, hvalue⟩

/-- A lookup of what was handed out. -/
theorem lookup_meets_invoice :
    let run := play exec Database.empty [invoiceAllocation 6]
    LookupMeets run.1 run.2 "INV-2026-000001-X".toList "invoice".toList :=
  (lookup_meets_iff (Run.of_play _ _ _) isCanonicalReference_invoice "invoice".toList).mpr
    (by decide)

/-- After an allocation of eight digits, the reference of six digits with the
same number, which no call handed out, is found. -/
theorem lookup_forgets_width :
    ∃ events db reference namespaceName, Run (ofService exec) Database.empty events db ∧
      IsCanonicalReference reference ∧ ¬ LookupMeets events db reference namespaceName := by
  refine ⟨_, _, "INV-2026-000001-X".toList, "invoice".toList,
    Run.of_play exec Database.empty [invoiceAllocation 8], isCanonicalReference_invoice,
    fun hmeets => ?_⟩
  have hunambiguous := (lookupMeets_of_not_reserved (Run.of_play _ _ _) isCanonicalReference_invoice
    (by decide)).mp hmeets
  exact absurd hunambiguous (by decide)

end Sqlite

end Identifold
