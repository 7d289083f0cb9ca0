import Identifold.Storage.SqliteConnection

/-!
# Identifold.Storage.SqliteClassification

With which error `allocate` of the TypeScript adapter fails, against the
kinds of requests that its errors are named for: a malformed policy or one
that contradicts what is stored, and an exhausted counter.

The adapter decides at five places: its width test, the row it replays, the
`CHECK`s of the counter it inserts, the counter it reads back, and the keys of
the row it records.  `allocateTransaction_of_bound` and
`allocateTransaction_of_unbound` say what it answers; SQLite itself answers
for the `CHECK`s and the keys, and its errors are all mapped to
`allocation_conflict`.
-/

namespace Identifold

namespace Sqlite

open Rows Database

/-! ## what the transaction answers -/

/-- The counter a request offers to create. -/
def offeredCounter (request : SequenceAllocationRequest) (width : Nat) : SequenceRow :=
  ⟨(counterKey request).1, (counterKey request).2, request.refPrefix, width, 0⟩

/-- The counter of a row's key after the row was offered. -/
def counterAfter (db : Database) (row : SequenceRow) : Option SequenceRow :=
  (db.selectSequence row.key).or (if db.sequenceConflicts row then none else some row)

/-- The row that records a number of the request's counter. -/
def recordedRow (request : SequenceAllocationRequest) (width : Nat) (machineId : MachineBytes)
    (value : Nat) : AllocationRow :=
  ⟨(counterKey request).1, (counterKey request).2, value, machineId, request.refPrefix, width⟩

section Answers

variable {db : Database} {request : SequenceAllocationRequest} {width : Nat} {machineId : MachineBytes}

theorem selectSequence_ensureSequence (db : Database) (row : SequenceRow) :
    (db.ensureSequence row).selectSequence row.key = counterAfter db row := by
  rw [counterAfter]
  rcases ensureSequence_cases db row with ⟨heq, hconflict⟩ | ⟨heq, hfresh⟩
  · rw [heq, hconflict, if_pos rfl, Option.or_none]
  · have hnone : db.selectSequence row.key = none :=
      find?_key_eq_none_iff.mpr fun c hc => (sequenceConflicts_eq_false_iff.mp hfresh c hc).1
    have hold : db.sequences.find? (fun r => decide (r.key = row.key)) = none := hnone
    rw [heq, hnone, hfresh, selectSequence, addSequence, List.find?_append, hold]
    simp

theorem allocationConflicts_ensureSequence (row : SequenceRow) (row' : AllocationRow) :
    (db.ensureSequence row).allocationConflicts row' = db.allocationConflicts row' := by
  rw [allocationConflicts, ensureSequence_allocations, allocationConflicts]

/-- A bound machine identifier is replayed under its policy. -/
theorem allocateTransaction_of_bound (hbytes : machineIdToBytes request.machineId = .ok machineId)
    {row : AllocationRow} (hbound : db.selectAllocation (counterKey request) machineId = some row) :
    allocateTransaction db request width = (do
      ensure (row.refPrefix = request.refPrefix ∧ row.width = width) invalidAllocationPolicy
      return (row.sequence, db)) := by
  rw [allocateTransaction, hbytes, ok_bind]
  simp only [hbound]

/-- The row is recorded where its keys are free: the machine identifier has its
16 bytes, and the counter is there. -/
theorem insertAllocation_recorded {work : Database} (value : Nat) (hwidth : 4 ≤ width ∧ width ≤ 18)
    (hbytes : machineIdToBytes request.machineId = .ok machineId)
    (hcounter : (work.selectSequence (counterKey request)).isSome = true) :
    (insertAllocation (work.setLastValue (counterKey request) value)
        (recordedRow request width machineId value) >>= fun db' => return (value, db')) = (do
      ensure (work.allocationConflicts (recordedRow request width machineId value) = false)
        databaseError
      return (value, (work.setLastValue (counterKey request) value).addAllocation
        (recordedRow request width machineId value))) := by
  have hchecks : (recordedRow request width machineId value).sqliteChecks = true := by
    simp [AllocationRow.sqliteChecks, recordedRow, length_of_machineIdToBytes hbytes, hwidth]
  have hkey : ((work.setLastValue (counterKey request) value).selectSequence
      (recordedRow request width machineId value).key).isSome = true := by
    have hsame : (recordedRow request width machineId value).key = counterKey request := rfl
    rw [hsame, selectSequence_setLastValue, Option.isSome_map]
    exact hcounter
  have hconflicts : (work.setLastValue (counterKey request) value).allocationConflicts
      (recordedRow request width machineId value) =
        work.allocationConflicts (recordedRow request width machineId value) := rfl
  rw [insertAllocation, ensure_of hchecks, ok_bind, hconflicts, ensure_of hkey]
  simp only [ok_bind, bind_assoc, pure_bind]

/-- For an unbound one the counter is created where nothing stands in its way,
read back, and advanced. -/
theorem allocateTransaction_of_unbound (hwidth : 4 ≤ width ∧ width ≤ 18)
    (hbytes : machineIdToBytes request.machineId = .ok machineId)
    (hunbound : db.selectAllocation (counterKey request) machineId = none) :
    allocateTransaction db request width = (do
      ensure ((offeredCounter request width).sqliteChecks = true) databaseError
      match counterAfter db (offeredCounter request width) with
      | none => throw invalidAllocationPolicy
      | some counter => do
          ensure (counter.refPrefix = request.refPrefix ∧ counter.width = width) invalidAllocationPolicy
          ensure (counter.lastValue < 10 ^ width - 1) sequenceOverflow
          ensure (db.allocationConflicts
            (recordedRow request width machineId (counter.lastValue + 1)) = false) databaseError
          return (counter.lastValue + 1,
            ((db.ensureSequence (offeredCounter request width)).setLastValue (counterKey request)
              (counter.lastValue + 1)).addAllocation
                (recordedRow request width machineId (counter.lastValue + 1)))) := by
  rw [allocateTransaction, hbytes, ok_bind]
  simp only [hunbound, insertSequence, bind_assoc, pure_bind]
  congr 1
  funext _
  have hread : (db.ensureSequence ⟨(counterKey request).1, (counterKey request).2, request.refPrefix,
      width, 0⟩).selectSequence (counterKey request) =
      counterAfter db (offeredCounter request width) :=
    selectSequence_ensureSequence db (offeredCounter request width)
  rw [hread]
  cases hcounter : counterAfter db (offeredCounter request width) with
  | none => rfl
  | some counter =>
      simp only
      congr 1
      funext _
      congr 1
      funext _
      have hsome : ((db.ensureSequence (offeredCounter request width)).selectSequence
          (counterKey request)).isSome = true := congrArg Option.isSome (hread.trans hcounter)
      have hrecord := insertAllocation_recorded (counter.lastValue + 1) hwidth hbytes hsome
      rw [allocationConflicts_ensureSequence] at hrecord
      exact hrecord

end Answers

/-! ## the kinds of requests -/

section Kinds

variable (db : Database) (request : SequenceAllocationRequest) (machineId : MachineBytes)

/-- The width is one of 4 to 18. -/
def AdmitsWidth : Prop := ∃ width : Nat, request.width = .integer width ∧ 4 ≤ width ∧ width ≤ 18

/-- Two to eight capitals, and a scope that is absent or four digits. -/
def WellFormedPolicy : Prop :=
  isReferencePrefix request.refPrefix = true ∧ ∀ scope ∈ request.scope, isFourDigits scope = true

/-- The machine identifier is bound under another policy. -/
def BindingDisagrees : Prop :=
  ∃ row, db.selectAllocation (counterKey request) machineId = some row ∧
    ¬ (row.refPrefix = request.refPrefix ∧ request.width = .integer row.width)

/-- The counter has another policy. -/
def CounterDisagrees : Prop :=
  ∃ counter, db.selectSequence (counterKey request) = some counter ∧
    ¬ (counter.refPrefix = request.refPrefix ∧ request.width = .integer counter.width)

/-- Another namespace owns the prefix in the scope. -/
def ForeignOwner : Prop :=
  ∃ counter ∈ db.sequences, counter.namespaceName ≠ request.namespaceName ∧
    counter.owner = (request.refPrefix, (counterKey request).2)

/-- Malformed or contradicting policies. -/
def PolicyFailure : Prop :=
  ¬ AdmitsWidth request ∨ ¬ WellFormedPolicy request ∨ BindingDisagrees db request machineId ∨
    CounterDisagrees db request ∨ ForeignOwner db request

/-- The machine identifier has no number yet. -/
def Unbound : Prop := db.selectAllocation (counterKey request) machineId = none

/-- The counter has given out all numbers of the width. -/
def Exhausted : Prop :=
  ∃ width : Nat, request.width = .integer width ∧ 10 ^ width - 1 ≤ db.lastValueOf (counterKey request)

/-- The policy matches, the machine identifier is new, and the counter is
exhausted. -/
def Overflow : Prop :=
  ¬ PolicyFailure db request machineId ∧ Unbound db request machineId ∧ Exhausted db request

end Kinds

/-- The call has failed with the code. -/
def FailsWith (code : IdentifoldErrorCode) (result : Except Thrown Nat × Connection) : Prop :=
  ∃ error, result.1 = .error (.identifold error) ∧ error.code = code

/-- **The classification of errors**: the policy error for a policy failure and
for nothing else, the overflow error for an exhausted counter and for nothing
else, success otherwise, and untouched tables after every failure. -/
def Classified (db : Database) (request : SequenceAllocationRequest) (machineId : MachineBytes)
    (result : Except Thrown Nat × Connection) : Prop :=
  (FailsWith .invalidAllocationPolicy result ↔ PolicyFailure db request machineId) ∧
  (FailsWith .sequenceOverflow result ↔ Overflow db request machineId) ∧
  (¬ PolicyFailure db request machineId → ¬ Overflow db request machineId →
    ∃ value, result.1 = .ok value) ∧
  (∀ e, result.1 = .error e → result.2.committed = db ∧ result.2.transaction = none)

/-! ## where the classification holds -/

section Exact

variable (db : Database) (request : SequenceAllocationRequest) (machineId : MachineBytes)

/-- Nothing in the request or the tables speaks against the policy, as long as
the machine identifier is not bound otherwise. -/
def PolicyFits : Prop :=
  WellFormedPolicy request ∧ ¬ CounterDisagrees db request ∧ ¬ ForeignOwner db request

/-- The row that the request offers to `identifold_sequences` passes its
`CHECK`s. -/
def OfferPassesChecks : Prop :=
  ∃ width : Nat, request.width = .integer width ∧ (offeredCounter request width).sqliteChecks = true

/-- No row has the keys of the counter's next number. -/
def NextIsFree : Prop :=
  ∀ row ∈ db.allocations,
    row.primaryKey ≠ (counterKey request, db.lastValueOf (counterKey request) + 1) ∧
      row.ownerKey ≠ ((request.refPrefix, (counterKey request).2),
        db.lastValueOf (counterKey request) + 1)

/-- The states and requests whose errors are classified. -/
def Classifiable : Prop :=
  ¬ AdmitsWidth request ∨ BindingDisagrees db request machineId ∨
  (PolicyFits db request ∧
    (¬ Unbound db request machineId ∨ Exhausted db request ∨ NextIsFree db request)) ∨
  (Unbound db request machineId ∧ OfferPassesChecks request ∧
    (CounterDisagrees db request ∨ ForeignOwner db request))

end Exact

section Classification

variable {db : Database} {request : SequenceAllocationRequest} {machineId : MachineBytes} {width : Nat}

/-- The classification, of the atomic call. -/
theorem classified_iff :
    Classified db request machineId
        ((TypeScript.allocate (fun _ => false) request).run (.handedOver db none)) ↔
      ((∃ e, allocate db request = .error e ∧ e.code = .invalidAllocationPolicy) ↔
        PolicyFailure db request machineId) ∧
      ((∃ e, allocate db request = .error e ∧ e.code = .sequenceOverflow) ↔
        Overflow db request machineId) ∧
      (¬ PolicyFailure db request machineId → ¬ Overflow db request machineId →
        ∃ result, allocate db request = .ok result) := by
  have hrefines := allocate_refines db request
  cases hatomic : allocate db request with
  | ok result =>
      obtain ⟨value, db'⟩ := result
      rw [hatomic] at hrefines
      have hrun : (TypeScript.allocate (fun _ => false) request).run (.handedOver db none) =
          (.ok value, .handedOver db' none) := hrefines
      simp [Classified, FailsWith, hrun]
  | error e =>
      rw [hatomic] at hrefines
      obtain ⟨houtcome, hcommitted, hidle⟩ := hrefines
      simp only [Classified, FailsWith, houtcome, hcommitted, hidle]
      simp

/-- A call that fails as for a policy is classified where it is one. -/
theorem classified_of_policy {e : IdentifoldError} (h : allocate db request = .error e)
    (hcode : e.code = .invalidAllocationPolicy) :
    Classified db request machineId
        ((TypeScript.allocate (fun _ => false) request).run (.handedOver db none)) ↔
      PolicyFailure db request machineId := by
  rw [classified_iff, h]
  simp only [Except.error.injEq, exists_eq_left', hcode, true_iff, reduceCtorEq, false_iff]
  constructor
  · exact fun h => h.1
  · exact fun hpolicy => ⟨hpolicy, fun hoverflow => hoverflow.1 hpolicy, fun h => absurd hpolicy h⟩

theorem classified_of_overflow {e : IdentifoldError} (h : allocate db request = .error e)
    (hcode : e.code = .sequenceOverflow) :
    Classified db request machineId
        ((TypeScript.allocate (fun _ => false) request).run (.handedOver db none)) ↔
      Overflow db request machineId := by
  rw [classified_iff, h]
  simp only [Except.error.injEq, exists_eq_left', hcode, true_iff, reduceCtorEq, false_iff]
  exact ⟨fun h => h.2.1, fun hoverflow => ⟨hoverflow.1, hoverflow, fun _ h => absurd hoverflow h⟩⟩

/-- A call that fails as for a conflict is not classified. -/
theorem not_classified_of_conflict {e : IdentifoldError} (h : allocate db request = .error e)
    (hcode : e.code = .allocationConflict) :
    ¬ Classified db request machineId
      ((TypeScript.allocate (fun _ => false) request).run (.handedOver db none)) := by
  rw [classified_iff, h]
  simp only [Except.error.injEq, exists_eq_left', hcode, reduceCtorEq, false_iff]
  rintro ⟨hpolicy, hoverflow, hok⟩
  obtain ⟨_, h⟩ := hok hpolicy hoverflow
  contradiction

theorem classified_of_ok {result : Nat × Database} (h : allocate db request = .ok result) :
    Classified db request machineId
        ((TypeScript.allocate (fun _ => false) request).run (.handedOver db none)) ↔
      ¬ PolicyFailure db request machineId ∧ ¬ Overflow db request machineId := by
  rw [classified_iff, h]
  simp only [reduceCtorEq, false_and, exists_false, false_iff, Except.ok.injEq, exists_eq',
    implies_true, and_true]

/-- A request whose width is admitted goes on to the transaction. -/
theorem allocate_of_width (hwidth : request.width = .integer (width : Nat))
    (hbounds : 4 ≤ width ∧ width ≤ 18) :
    allocate db request = allocateTransaction db request width := by
  rw [allocate, hwidth]
  simp only
  rw [if_pos (by omega), Int.toNat_natCast]

theorem allocate_of_not_width (h : ¬ AdmitsWidth request) :
    allocate db request = .error invalidAllocationPolicy := by
  unfold allocate
  split
  · rfl
  · rename_i width hwidth
    rw [if_neg]
    intro hbounds
    refine h ⟨width.toNat, ?_, by omega⟩
    rw [hwidth, Int.toNat_of_nonneg (by omega)]

/-- A well-formed policy passes the `CHECK`s. -/
theorem sqliteChecks_of_wellFormed (hbounds : 4 ≤ width ∧ width ≤ 18) (h : WellFormedPolicy request) :
    (offeredCounter request width).sqliteChecks = true := by
  obtain ⟨hpre, hscope⟩ := h
  have hnul : ∀ {v : Text} {test : Char → Bool}, test '\x00' = false → v.all test = true →
      cString v = v := by
    intro v test htest hall
    refine cString_eq_self fun hmem => ?_
    rw [List.all_eq_true.mp hall _ hmem] at htest
    contradiction
  have hcapitals := hpre
  simp only [isReferencePrefix, Bool.and_eq_true] at hcapitals
  have hscopeChecks : (offeredCounter request width).scope = [] ∨
      (cString (offeredCounter request width).scope).length = 4 ∧
        (cString (offeredCounter request width).scope).all Char.isDigit = true := by
    cases hs : request.scope with
    | none => exact .inl (by simp [offeredCounter, counterKey, hs])
    | some scope =>
        have hfour := hscope scope hs
        simp only [isFourDigits, Bool.and_eq_true, decide_eq_true_eq] at hfour
        have hsame : (offeredCounter request width).scope = scope := by
          simp [offeredCounter, counterKey, hs]
        rw [hsame, hnul (by decide) hfour.2]
        exact .inr hfour
  have hprefixChecks : cString (offeredCounter request width).refPrefix = request.refPrefix :=
    hnul (by decide) hcapitals.2
  simp only [SequenceRow.sqliteChecks, hprefixChecks, Bool.and_eq_true, Bool.or_eq_true,
    decide_eq_true_eq]
  exact ⟨⟨hscopeChecks, by simpa [isReferencePrefix] using hpre⟩, hbounds⟩

theorem width_eq_iff (hwidth : request.width = .integer (width : Nat)) (width' : Nat) :
    request.width = .integer (width' : Nat) ↔ width' = width := by
  rw [hwidth, JsNumber.integer.injEq, Int.ofNat_inj]
  exact eq_comm

/-- A counter that agrees with the policy has the last value of its key, and
nobody else owns the prefix. -/
theorem counterAfter_facts (hdb : StoredState db) (hwidth : request.width = .integer (width : Nat))
    {counter : SequenceRow} (hcounter : counterAfter db (offeredCounter request width) = some counter)
    (hagrees : counter.refPrefix = request.refPrefix ∧ counter.width = width) :
    ¬ CounterDisagrees db request ∧ ¬ ForeignOwner db request ∧
      counter.lastValue = db.lastValueOf (counterKey request) := by
  have hkey : (offeredCounter request width).key = counterKey request := rfl
  rw [counterAfter, hkey] at hcounter
  cases hselect : db.selectSequence (counterKey request) with
  | some existing =>
      rw [hselect, Option.some_or] at hcounter
      obtain rfl := Option.some.inj hcounter
      obtain ⟨hmem, hexisting⟩ := selectSequence_facts hselect
      refine ⟨?_, ?_, by rw [lastValueOf, hselect]; rfl⟩
      · rintro ⟨counter, hselected, hdisagrees⟩
        rw [hselect] at hselected
        obtain rfl := Option.some.inj hselected
        exact hdisagrees ⟨hagrees.1, (width_eq_iff hwidth _).mpr hagrees.2⟩
      · rintro ⟨other, hother, hforeign, howner⟩
        have hsame := hdb.ownerUnique.eq hother hmem (howner.trans
          (Prod.ext hagrees.1.symm (congrArg Prod.snd hexisting).symm))
        rw [hsame] at hforeign
        exact hforeign (congrArg Prod.fst hexisting)
  | none =>
      rw [hselect, Option.none_or] at hcounter
      split at hcounter
      · contradiction
      · rename_i hfresh
        obtain rfl := Option.some.inj hcounter
        refine ⟨?_, ?_, by rw [lastValueOf, hselect]; rfl⟩
        · rintro ⟨counter, hselected, -⟩
          rw [hselect] at hselected
          contradiction
        · rintro ⟨other, hother, -, howner⟩
          exact (sequenceConflicts_eq_false_iff.mp (Bool.eq_false_iff.mpr hfresh) other hother).2
            howner

/-- Without a counter that agrees, the counter disagrees or the prefix is
another's. -/
theorem disagrees_of_counterAfter (hwidth : request.width = .integer (width : Nat))
    (h : ∀ counter, counterAfter db (offeredCounter request width) = some counter →
      ¬ (counter.refPrefix = request.refPrefix ∧ counter.width = width)) :
    CounterDisagrees db request ∨ ForeignOwner db request := by
  have hkey : (offeredCounter request width).key = counterKey request := rfl
  simp only [counterAfter, hkey] at h
  cases hselect : db.selectSequence (counterKey request) with
  | some existing =>
      rw [hselect, Option.some_or] at h
      refine .inl ⟨existing, hselect, fun hagrees => h existing rfl ⟨hagrees.1, ?_⟩⟩
      exact (width_eq_iff hwidth _).mp hagrees.2
  | none =>
      rw [hselect, Option.none_or] at h
      cases hconflict : db.sequenceConflicts (offeredCounter request width) with
      | false => exact absurd ⟨rfl, rfl⟩ (h (offeredCounter request width) (by simp [hconflict]))
      | true =>
          simp only [sequenceConflicts, List.any_eq_true, Bool.or_eq_true, decide_eq_true_eq] at hconflict
          obtain ⟨other, hother, hsame⟩ := hconflict
          have hne : other.key ≠ counterKey request := find?_key_eq_none_iff.mp hselect other hother
          have howner := hsame.resolve_left hne
          have hscope : other.scope = (counterKey request).2 := congrArg Prod.snd howner
          exact .inr ⟨other, hother, fun hns => hne (Prod.ext hns hscope), howner⟩

/-- The keys of the next number are taken. -/
theorem nextIsFree_iff (hunbound : Unbound db request machineId) :
    NextIsFree db request ↔ db.allocationConflicts
      (recordedRow request width machineId (db.lastValueOf (counterKey request) + 1)) = false := by
  rw [allocationConflicts_eq_false_iff]
  refine forall₂_congr fun row hrow => ?_
  have hmachine : row.machineKey ≠ (recordedRow request width machineId
      (db.lastValueOf (counterKey request) + 1)).machineKey :=
    find?_key_eq_none_iff.mp hunbound row hrow
  exact ⟨fun h => ⟨h.1, h.2, hmachine⟩, fun h => ⟨h.1, h.2.1⟩⟩

/-- Calls for a bound machine identifier. -/
theorem classified_of_bound (hwidth : request.width = .integer (width : Nat))
    (hbounds : 4 ≤ width ∧ width ≤ 18) (hbytes : machineIdToBytes request.machineId = .ok machineId)
    {row : AllocationRow} (hbound : db.selectAllocation (counterKey request) machineId = some row) :
    Classified db request machineId
        ((TypeScript.allocate (fun _ => false) request).run (.handedOver db none)) ↔
      Classifiable db request machineId := by
  have hadmits : AdmitsWidth request := ⟨width, hwidth, hbounds⟩
  have hnotUnbound : ¬ Unbound db request machineId := by simp [Unbound, hbound]
  have hcall := (allocate_of_width hwidth hbounds).trans (allocateTransaction_of_bound hbytes hbound)
  by_cases hagrees : row.refPrefix = request.refPrefix ∧ row.width = width
  · rw [ensure_of hagrees, ok_bind] at hcall
    have hbinding : ¬ BindingDisagrees db request machineId := by
      rintro ⟨row', hrow', hdisagrees⟩
      rw [hbound] at hrow'
      obtain rfl := Option.some.inj hrow'
      exact hdisagrees ⟨hagrees.1, (width_eq_iff hwidth _).mpr hagrees.2⟩
    rw [classified_of_ok hcall]
    simp only [PolicyFailure, Classifiable, Overflow, PolicyFits, hadmits, hbinding, hnotUnbound]
    tauto
  · rw [ensure_of_not hagrees, error_bind] at hcall
    have hbinding : BindingDisagrees db request machineId :=
      ⟨row, hbound, fun h => hagrees ⟨h.1, (width_eq_iff hwidth _).mp h.2⟩⟩
    rw [classified_of_policy hcall rfl]
    exact ⟨fun _ => .inr (.inl hbinding), fun _ => .inr (.inr (.inl hbinding))⟩

theorem not_bindingDisagrees_of_unbound (hunbound : Unbound db request machineId) :
    ¬ BindingDisagrees db request machineId := by
  rintro ⟨row, hrow, -⟩
  rw [hunbound] at hrow
  contradiction

theorem offerPassesChecks_iff (hwidth : request.width = .integer (width : Nat)) :
    OfferPassesChecks request ↔ (offeredCounter request width).sqliteChecks = true := by
  constructor
  · rintro ⟨width', hwidth', hchecks⟩
    rwa [(width_eq_iff hwidth _).mp hwidth'] at hchecks
  · exact fun hchecks => ⟨width, hwidth, hchecks⟩

theorem exhausted_iff (hwidth : request.width = .integer (width : Nat)) :
    Exhausted db request ↔ 10 ^ width - 1 ≤ db.lastValueOf (counterKey request) := by
  constructor
  · rintro ⟨width', hwidth', hvalue⟩
    rwa [(width_eq_iff hwidth _).mp hwidth'] at hvalue
  · exact fun hvalue => ⟨width, hwidth, hvalue⟩

/-- A new MID, where the counter is there or is created, with the policy. -/
theorem classified_of_agreeing (hdb : StoredState db)
    (hwidth : request.width = .integer (width : Nat)) (hbounds : 4 ≤ width ∧ width ≤ 18)
    (hbytes : machineIdToBytes request.machineId = .ok machineId)
    (hunbound : Unbound db request machineId)
    (hchecks : (offeredCounter request width).sqliteChecks = true) {counter : SequenceRow}
    (hcounter : counterAfter db (offeredCounter request width) = some counter)
    (hpolicy : counter.refPrefix = request.refPrefix ∧ counter.width = width) :
    Classified db request machineId
        ((TypeScript.allocate (fun _ => false) request).run (.handedOver db none)) ↔
      Classifiable db request machineId := by
  have hadmits : AdmitsWidth request := ⟨width, hwidth, hbounds⟩
  have hbinding := not_bindingDisagrees_of_unbound hunbound
  have hexhausted : Exhausted db request ↔ _ := exhausted_iff hwidth
  have hcall := (allocate_of_width hwidth hbounds).trans
    (allocateTransaction_of_unbound hbounds hbytes hunbound)
  obtain ⟨hcounterAgrees, howner, hvalue⟩ := counterAfter_facts hdb hwidth hcounter hpolicy
  rw [ensure_of hchecks, ok_bind, hcounter] at hcall
  simp only [ensure_of hpolicy, ok_bind, hvalue] at hcall
  by_cases hroom : db.lastValueOf (counterKey request) < 10 ^ width - 1
  · have hnotExhausted : ¬ Exhausted db request := by rw [hexhausted]; omega
    rw [ensure_of hroom, ok_bind] at hcall
    by_cases hfree : NextIsFree db request
    · rw [ensure_of ((nextIsFree_iff hunbound).mp hfree), ok_bind] at hcall
      rw [classified_of_ok hcall]
      simp only [PolicyFailure, Classifiable, Overflow, PolicyFits, hadmits, hbinding,
        hcounterAgrees, howner, hnotExhausted, hfree]
      tauto
    · rw [ensure_of_not fun h => hfree ((nextIsFree_iff hunbound).mpr h), error_bind] at hcall
      refine iff_of_false (not_classified_of_conflict hcall rfl) ?_
      simp only [Classifiable, PolicyFits, hadmits, hbinding, hcounterAgrees, howner,
        hnotExhausted, hfree, hunbound]
      simp
  · rw [ensure_of_not hroom, error_bind] at hcall
    have hfull : Exhausted db request := by rw [hexhausted]; omega
    rw [classified_of_overflow hcall rfl]
    simp only [PolicyFailure, Classifiable, Overflow, PolicyFits, hadmits, hbinding,
      hcounterAgrees, howner, hfull, hunbound]
    tauto

/-- A new MID, where the policy contradicts the counter or the owner of the
prefix. -/
theorem classified_of_disagreeing (hwidth : request.width = .integer (width : Nat))
    (hbounds : 4 ≤ width ∧ width ≤ 18)
    (hbytes : machineIdToBytes request.machineId = .ok machineId)
    (hunbound : Unbound db request machineId)
    (hchecks : (offeredCounter request width).sqliteChecks = true)
    (hagrees : ¬ ∃ counter, counterAfter db (offeredCounter request width) = some counter ∧
      counter.refPrefix = request.refPrefix ∧ counter.width = width) :
    Classified db request machineId
        ((TypeScript.allocate (fun _ => false) request).run (.handedOver db none)) ↔
      Classifiable db request machineId := by
  have hpasses := (offerPassesChecks_iff hwidth).mpr hchecks
  have hdisagrees := disagrees_of_counterAfter hwidth fun counter hcounter hpolicy =>
    hagrees ⟨counter, hcounter, hpolicy⟩
  have hfails : allocate db request = .error invalidAllocationPolicy := by
    rw [allocate_of_width hwidth hbounds, allocateTransaction_of_unbound hbounds hbytes hunbound,
      ensure_of hchecks, ok_bind]
    cases hcounter : counterAfter db (offeredCounter request width) with
    | none => rfl
    | some counter =>
        simp only
        rw [ensure_of_not fun hpolicy => hagrees ⟨counter, hcounter, hpolicy⟩, error_bind]
  rw [classified_of_policy hfails rfl]
  exact ⟨fun _ => .inr (.inr (.inr ⟨hunbound, hpasses, hdisagrees⟩)),
    fun _ => .inr (.inr (.inr hdisagrees))⟩

/-- Calls for an unbound one. -/
theorem classified_of_unbound (hdb : StoredState db)
    (hwidth : request.width = .integer (width : Nat)) (hbounds : 4 ≤ width ∧ width ≤ 18)
    (hbytes : machineIdToBytes request.machineId = .ok machineId)
    (hunbound : Unbound db request machineId) :
    Classified db request machineId
        ((TypeScript.allocate (fun _ => false) request).run (.handedOver db none)) ↔
      Classifiable db request machineId := by
  by_cases hchecks : (offeredCounter request width).sqliteChecks = true
  · by_cases hagrees : ∃ counter, counterAfter db (offeredCounter request width) = some counter ∧
        counter.refPrefix = request.refPrefix ∧ counter.width = width
    · obtain ⟨counter, hcounter, hpolicy⟩ := hagrees
      exact classified_of_agreeing hdb hwidth hbounds hbytes hunbound hchecks hcounter hpolicy
    · exact classified_of_disagreeing hwidth hbounds hbytes hunbound hchecks hagrees
  · -- SQLite rejects the counter row
    have hfails := (allocate_of_width hwidth hbounds).trans
      (allocateTransaction_of_unbound hbounds hbytes hunbound)
    rw [ensure_of_not hchecks, error_bind] at hfails
    have hadmits : AdmitsWidth request := ⟨width, hwidth, hbounds⟩
    have hmalformed : ¬ WellFormedPolicy request := fun h =>
      hchecks (sqliteChecks_of_wellFormed hbounds h)
    refine iff_of_false (not_classified_of_conflict hfails rfl) ?_
    simp only [Classifiable, PolicyFits, hadmits, not_bindingDisagrees_of_unbound hunbound,
      hmalformed, offerPassesChecks_iff hwidth, hchecks]
    simp

/-- **The classification holds exactly on the classifiable calls.** -/
theorem allocate_classified_iff (hdb : StoredState db)
    (hbytes : machineIdToBytes request.machineId = .ok machineId) :
    Classified db request machineId
        ((TypeScript.allocate (fun _ => false) request).run (.handedOver db none)) ↔
      Classifiable db request machineId := by
  by_cases hadmits : AdmitsWidth request
  · obtain ⟨width, hwidth, hbounds⟩ := hadmits
    cases hbound : db.selectAllocation (counterKey request) machineId with
    | some row => exact classified_of_bound hwidth hbounds hbytes hbound
    | none => exact classified_of_unbound hdb hwidth hbounds hbytes hbound
  · rw [classified_of_policy (allocate_of_not_width hadmits) rfl]
    exact ⟨fun _ => .inl hadmits, fun _ => .inl hadmits⟩

end Classification

/-- A request for eight digits of the invoices of a year. -/
def invoiceRequest (refPrefix : Text) : SequenceAllocationRequest :=
  ⟨"019f0000-0000-7000-8000-000000000001".toList, "invoice".toList, refPrefix,
    some "2026".toList, .integer 8⟩

/-- The bytes of its machine identifier. -/
def invoiceBytes : MachineBytes := [1, 159, 0, 0, 0, 0, 112, 0, 128, 0, 0, 0, 0, 0, 0, 1]

theorem allocate_classified_first :
    Classified Database.empty (invoiceRequest "INV".toList) invoiceBytes
      ((TypeScript.allocate (fun _ => false) (invoiceRequest "INV".toList)).run
        (.handedOver Database.empty none)) :=
  (allocate_classified_iff storedState_empty (by decide)).mpr
    (.inr (.inr (.inl ⟨⟨⟨by decide, by
      intro scope hscope
      rw [← Option.some.inj hscope]
      decide⟩, by simp [CounterDisagrees, selectSequence, Database.empty],
      by simp [ForeignOwner, Database.empty]⟩, .inr (.inr (by simp [NextIsFree, Database.empty]))⟩)))

/-- A prefix of lower-case letters is a malformed policy, and is answered as a
conflict. -/
theorem allocate_misclassifies_prefix :
    StoredState Database.empty ∧
      machineIdToBytes (invoiceRequest "inv".toList).machineId = .ok invoiceBytes ∧
      ¬ Classified Database.empty (invoiceRequest "inv".toList) invoiceBytes
        ((TypeScript.allocate (fun _ => false) (invoiceRequest "inv".toList)).run
          (.handedOver Database.empty none)) := by
  have hconflict : allocate Database.empty (invoiceRequest "inv".toList) = .error databaseError := by
    decide
  exact ⟨storedState_empty, by decide, not_classified_of_conflict hconflict rfl⟩

end Sqlite

end Identifold
