import Identifold.Lib.Ledger
import Identifold.Lib.Rows
import Identifold.Text

/-!
# Identifold.Storage.Tables

The three tables of the SQL migrations, as the lists of their rows in the
order of insertion, and the statements every adapter issues against them.
What differs between the engines (which `CHECK`s a row has to pass, what a
conflicting `INSERT` does, when another transaction waits) is in the modules
of the engines.

`Consistent` is what the allocators keep between the tables: a counter row
`(namespace, scope)` and its allocation rows are one ledger.  The two writes
of an allocation, creating the counter row and recording the next number,
preserve it.
-/

namespace Identifold

open Rows Ledger

/-- The stored form of a machine identifier: 16 bytes. -/
abbrev MachineBytes := List UInt8

/-- A row of `identifold_references`. -/
structure ReferenceRow where
  reference : Text
  namespaceName : Text
  machineId : MachineBytes
  deriving DecidableEq, Repr

/-- A row of `identifold_sequences`; `lastValue` is the column `last_value`
(`counter_value` in MySQL). -/
structure SequenceRow where
  namespaceName : Text
  scope : Text
  refPrefix : Text
  width : Nat
  lastValue : Nat
  deriving DecidableEq, Repr

/-- A row of `identifold_sequence_allocations`. -/
structure AllocationRow where
  namespaceName : Text
  scope : Text
  sequence : Nat
  machineId : MachineBytes
  refPrefix : Text
  width : Nat
  deriving DecidableEq, Repr

/-- The committed contents of the three tables. -/
structure Database where
  references : List ReferenceRow
  sequences : List SequenceRow
  allocations : List AllocationRow
  deriving DecidableEq, Repr

/-! ## keys -/

/-- `PRIMARY KEY (namespace, scope)`. -/
def SequenceRow.key (r : SequenceRow) : Text × Text := (r.namespaceName, r.scope)

/-- `UNIQUE (reference_prefix, scope)`. -/
def SequenceRow.owner (r : SequenceRow) : Text × Text := (r.refPrefix, r.scope)

/-- What `UPDATE ... SET last_value = ? WHERE namespace = ? AND scope = ?`
makes of a row. -/
def SequenceRow.setLastValue (key : Text × Text) (value : Nat) (r : SequenceRow) : SequenceRow :=
  if r.key = key then { r with lastValue := value } else r

/-- `FOREIGN KEY (namespace, scope)`. -/
def AllocationRow.key (r : AllocationRow) : Text × Text := (r.namespaceName, r.scope)

/-- `PRIMARY KEY (namespace, scope, sequence)`. -/
def AllocationRow.primaryKey (r : AllocationRow) : (Text × Text) × Nat := (r.key, r.sequence)

/-- `UNIQUE (reference_prefix, scope, sequence)`. -/
def AllocationRow.ownerKey (r : AllocationRow) : (Text × Text) × Nat :=
  ((r.refPrefix, r.scope), r.sequence)

/-- `UNIQUE (namespace, scope, machine_id)`. -/
def AllocationRow.machineKey (r : AllocationRow) : (Text × Text) × MachineBytes :=
  (r.key, r.machineId)

namespace SequenceRow

variable {r : SequenceRow} {key : Text × Text} {value : Nat}

/-- The update sets the row of its key. -/
theorem setLastValue_of_eq (h : r.key = key) :
    r.setLastValue key value = { r with lastValue := value } := if_pos h

/-- It leaves the others. -/
theorem setLastValue_of_ne (h : r.key ≠ key) : r.setLastValue key value = r := if_neg h

/-- Setting the last value touches nothing else. -/
theorem setLastValue_frame (r : SequenceRow) (key : Text × Text) (value : Nat) :
    (r.setLastValue key value).key = r.key ∧ (r.setLastValue key value).owner = r.owner ∧
      (r.setLastValue key value).refPrefix = r.refPrefix ∧
      (r.setLastValue key value).width = r.width := by
  by_cases h : r.key = key
  · rw [setLastValue_of_eq h]
    exact ⟨rfl, rfl, rfl, rfl⟩
  · rw [setLastValue_of_ne h]
    exact ⟨rfl, rfl, rfl, rfl⟩

end SequenceRow

namespace Database

/-! ## statements -/

/-- The tables right after the migration. -/
def empty : Database := ⟨[], [], []⟩

/-- `SELECT ... FROM identifold_sequence_allocations WHERE namespace = ? AND
scope = ? AND machine_id = ?`. -/
def selectAllocation (db : Database) (key : Text × Text) (machineId : MachineBytes) :
    Option AllocationRow :=
  db.allocations.find? fun r => decide (r.machineKey = (key, machineId))

/-- `SELECT ... FROM identifold_sequences WHERE namespace = ? AND scope = ?`. -/
def selectSequence (db : Database) (key : Text × Text) : Option SequenceRow :=
  db.sequences.find? fun r => decide (r.key = key)

/-- A new counter row would break one of the two unique keys of
`identifold_sequences`. -/
def sequenceConflicts (db : Database) (row : SequenceRow) : Bool :=
  db.sequences.any fun r => decide (r.key = row.key) || decide (r.owner = row.owner)

/-- A new allocation row would break one of the three unique keys of
`identifold_sequence_allocations`. -/
def allocationConflicts (db : Database) (row : AllocationRow) : Bool :=
  db.allocations.any fun r => decide (r.primaryKey = row.primaryKey) ||
    decide (r.ownerKey = row.ownerKey) || decide (r.machineKey = row.machineKey)

/-- A new reference row would break the primary key of `identifold_references`. -/
def referenceConflicts (db : Database) (row : ReferenceRow) : Bool :=
  db.references.any fun r => decide (r.reference = row.reference)

/-- Append a row to `identifold_references`. -/
def addReference (db : Database) (row : ReferenceRow) : Database :=
  { db with references := db.references ++ [row] }

/-- Append a row to `identifold_sequences`. -/
def addSequence (db : Database) (row : SequenceRow) : Database :=
  { db with sequences := db.sequences ++ [row] }

/-- `INSERT INTO identifold_sequences ... ON CONFLICT DO NOTHING`, for a row that
passes the `CHECK`s. -/
def ensureSequence (db : Database) (row : SequenceRow) : Database :=
  if db.sequenceConflicts row then db else db.addSequence row

/-- Append a row to `identifold_sequence_allocations`. -/
def addAllocation (db : Database) (row : AllocationRow) : Database :=
  { db with allocations := db.allocations ++ [row] }

/-- `UPDATE identifold_sequences SET last_value = ? WHERE namespace = ? AND
scope = ?`. -/
def setLastValue (db : Database) (key : Text × Text) (value : Nat) : Database :=
  { db with sequences := db.sequences.map (SequenceRow.setLastValue key value) }

/-- The rows of one counter. -/
def rowsOf (db : Database) (key : Text × Text) : List AllocationRow :=
  db.allocations.filter fun r => decide (r.key = key)

/-- The `last_value` of a counter; zero while it has no row. -/
def lastValueOf (db : Database) (key : Text × Text) : Nat :=
  ((db.selectSequence key).map (·.lastValue)).getD 0

/-- The ledger of a counter: the machine identifiers bound in it, in order. -/
def ledgerOf (db : Database) (key : Text × Text) : List MachineBytes :=
  (db.rowsOf key).map (·.machineId)

/-- The allocation row that records the next number of a counter. -/
def nextRow (counter : SequenceRow) (machineId : MachineBytes) : AllocationRow :=
  ⟨counter.namespaceName, counter.scope, counter.lastValue + 1, machineId, counter.refPrefix,
    counter.width⟩

/-- The two writes that give a machine identifier the next number. -/
def record (db : Database) (counter : SequenceRow) (machineId : MachineBytes) : Database :=
  (db.setLastValue counter.key (counter.lastValue + 1)).addAllocation (nextRow counter machineId)

section Lemmas

variable {db : Database} {key : Text × Text} {machineId : MachineBytes} {counter : SequenceRow}

@[simp] theorem key_nextRow : (nextRow counter machineId).key = counter.key := rfl

@[simp] theorem machineId_nextRow : (nextRow counter machineId).machineId = machineId := rfl

@[simp] theorem sequence_nextRow :
    (nextRow counter machineId).sequence = counter.lastValue + 1 := rfl

@[simp] theorem addSequence_allocations (row : SequenceRow) :
    (db.addSequence row).allocations = db.allocations := rfl

@[simp] theorem addSequence_references (row : SequenceRow) :
    (db.addSequence row).references = db.references := rfl

/-- A counter row is added, or another stands in its way. -/
theorem ensureSequence_cases (db : Database) (row : SequenceRow) :
    db.ensureSequence row = db ∧ db.sequenceConflicts row = true ∨
      db.ensureSequence row = db.addSequence row ∧ db.sequenceConflicts row = false := by
  cases h : db.sequenceConflicts row <;> simp [ensureSequence, h]

/-- Only counters are added. -/
@[simp] theorem ensureSequence_references (row : SequenceRow) :
    (db.ensureSequence row).references = db.references := by
  rcases ensureSequence_cases db row with ⟨h, -⟩ | ⟨h, -⟩ <;> rw [h]
  exact addSequence_references row

@[simp] theorem ensureSequence_allocations (row : SequenceRow) :
    (db.ensureSequence row).allocations = db.allocations := by
  rcases ensureSequence_cases db row with ⟨h, -⟩ | ⟨h, -⟩ <;> rw [h]
  exact addSequence_allocations row

/-- No counter is lost. -/
theorem subset_ensureSequence (row : SequenceRow) :
    ∀ r ∈ db.sequences, r ∈ (db.ensureSequence row).sequences := by
  intro r hr
  rcases ensureSequence_cases db row with ⟨h, -⟩ | ⟨h, -⟩ <;> rw [h]
  · exact hr
  · exact List.mem_append_left _ hr

/-- A new counter has no ledger, and leaves the others. -/
@[simp] theorem ensureSequence_ledgerOf (row : SequenceRow) (key : Text × Text) :
    (db.ensureSequence row).ledgerOf key = db.ledgerOf key := by
  rw [ledgerOf, rowsOf, ensureSequence_allocations, ledgerOf, rowsOf]

@[simp] theorem record_allocations :
    (db.record counter machineId).allocations = db.allocations ++ [nextRow counter machineId] := rfl

@[simp] theorem record_references : (db.record counter machineId).references = db.references := rfl

/-- The rows of a key are the allocations that have it. -/
theorem mem_rowsOf {r : AllocationRow} : r ∈ db.rowsOf key ↔ r ∈ db.allocations ∧ r.key = key := by
  simp [rowsOf]

/-- A recorded number is the last row of its counter. -/
theorem rowsOf_record_self :
    (db.record counter machineId).rowsOf counter.key =
      db.rowsOf counter.key ++ [nextRow counter machineId] := by
  simp [rowsOf]

/-- The rows of the other counters stay. -/
theorem rowsOf_record_other (h : key ≠ counter.key) :
    (db.record counter machineId).rowsOf key = db.rowsOf key := by
  simp [rowsOf, h.symm]

/-- The machine identifier is the last one of the ledger. -/
theorem ledgerOf_record_self :
    (db.record counter machineId).ledgerOf counter.key =
      db.ledgerOf counter.key ++ [machineId] := by
  simp [ledgerOf, rowsOf_record_self]

/-- The ledgers of the other counters stay. -/
theorem ledgerOf_record_other (h : key ≠ counter.key) :
    (db.record counter machineId).ledgerOf key = db.ledgerOf key := by
  rw [ledgerOf, rowsOf_record_other h, ledgerOf]

/-- An unbound machine identifier is not in the ledger. -/
theorem selectAllocation_eq_none_iff :
    db.selectAllocation key machineId = none ↔ machineId ∉ db.ledgerOf key := by
  rw [selectAllocation, find?_key_eq_none_iff]
  constructor
  · intro h hmem
    obtain ⟨r, hr, hid⟩ := List.mem_map.mp hmem
    obtain ⟨hr', hkey⟩ := mem_rowsOf.mp hr
    exact h r hr' (Prod.ext hkey hid)
  · intro h r hr heq
    obtain ⟨hkey, hid⟩ := Prod.mk.inj heq
    exact h (List.mem_map.mpr ⟨r, mem_rowsOf.mpr ⟨hr, hkey⟩, hid⟩)

/-- The row found for a machine identifier. -/
theorem selectAllocation_facts {r : AllocationRow} (h : db.selectAllocation key machineId = some r) :
    r ∈ db.rowsOf key ∧ r.machineId = machineId := by
  obtain ⟨hr, hkey⟩ := of_find?_key h
  obtain ⟨hkey, hid⟩ := Prod.mk.inj hkey
  exact ⟨mem_rowsOf.mpr ⟨hr, hkey⟩, hid⟩

/-- The counter row found for a key. -/
theorem selectSequence_facts (h : db.selectSequence key = some counter) :
    counter ∈ db.sequences ∧ counter.key = key := of_find?_key h

/-- Setting a last value keeps every counter. -/
theorem selectSequence_setLastValue (key' : Text × Text) (value : Nat) :
    (db.setLastValue key' value).selectSequence key =
      (db.selectSequence key).map (SequenceRow.setLastValue key' value) := by
  have htest : (fun r : SequenceRow => decide (r.key = key)) ∘ SequenceRow.setLastValue key' value =
      fun r => decide (r.key = key) :=
    funext fun r => by simp [(r.setLastValue_frame key' value).1]
  rw [selectSequence, setLastValue, List.find?_map, htest, selectSequence]

/-- A counter row is free of conflicts when both of its unique keys are. -/
theorem sequenceConflicts_eq_false_iff {row : SequenceRow} :
    db.sequenceConflicts row = false ↔
      ∀ r ∈ db.sequences, r.key ≠ row.key ∧ r.owner ≠ row.owner := by
  simp [sequenceConflicts]

/-- Setting a last value moves no key. -/
theorem sequenceConflicts_setLastValue (value : Nat) (row : SequenceRow) :
    (db.setLastValue key value).sequenceConflicts row = db.sequenceConflicts row := by
  rw [sequenceConflicts, setLastValue, List.any_map, sequenceConflicts]
  congr 1
  funext r
  obtain ⟨hkey, howner, -⟩ := r.setLastValue_frame key value
  simp [hkey, howner]

/-- Recording a number changes no key of a counter. -/
theorem sequenceConflicts_record (row : SequenceRow) :
    (db.record counter machineId).sequenceConflicts row = db.sequenceConflicts row :=
  sequenceConflicts_setLastValue (counter.lastValue + 1) row

/-- After an insert a row must be free of conflicts with the new one too. -/
theorem sequenceConflicts_addSequence {row row' : SequenceRow} :
    (db.addSequence row).sequenceConflicts row' = false ↔
      db.sequenceConflicts row' = false ∧ row.key ≠ row'.key ∧ row.owner ≠ row'.owner := by
  simp [sequenceConflicts, addSequence]

/-- An allocation row is free of conflicts when all three of its unique keys are. -/
theorem allocationConflicts_eq_false_iff {row : AllocationRow} :
    db.allocationConflicts row = false ↔ ∀ r ∈ db.allocations,
      r.primaryKey ≠ row.primaryKey ∧ r.ownerKey ≠ row.ownerKey ∧
        r.machineKey ≠ row.machineKey := by
  simp [allocationConflicts, and_assoc]

/-- A reference is free when no row has it. -/
theorem referenceConflicts_eq_false_iff {row : ReferenceRow} :
    db.referenceConflicts row = false ↔ ∀ r ∈ db.references, r.reference ≠ row.reference := by
  simp [referenceConflicts]

/-- A row is what its reference and its namespace select. -/
theorem find?_reference (hunique : UniqueOn (·.reference) db.references) {row : ReferenceRow}
    (hrow : row ∈ db.references) :
    (db.references.find? fun r => decide (r.reference = row.reference) &&
      decide (r.namespaceName = row.namespaceName)) = some row := by
  rw [Rows.find?_eq_some_iff]
  · exact ⟨hrow, by simp⟩
  · intro a ha b hb htest htest'
    simp only [Bool.and_eq_true, decide_eq_true_eq] at htest htest'
    exact hunique.eq ha hb (htest.1.trans htest'.1.symm)

end Lemmas

/-! ## consistency -/

/-- What holds between the tables after every transaction. -/
structure Consistent (db : Database) : Prop where
  /-- A reference is mapped once. -/
  referenceUnique : UniqueOn (·.reference) db.references
  /-- A counter has one row. -/
  keyUnique : UniqueOn SequenceRow.key db.sequences
  /-- A prefix belongs, in one scope, to one counter. -/
  ownerUnique : UniqueOn SequenceRow.owner db.sequences
  /-- The rows of a counter are numbered from one to its last value, each for
  another machine identifier. -/
  numbered : ∀ counter ∈ db.sequences,
    IsNumbered AllocationRow.machineId AllocationRow.sequence (db.rowsOf counter.key) ∧
      (db.rowsOf counter.key).length = counter.lastValue
  /-- Every allocation has its counter, and the policy of it. -/
  policy : ∀ r ∈ db.allocations, ∃ counter ∈ db.sequences,
    counter.key = r.key ∧ counter.refPrefix = r.refPrefix ∧ counter.width = r.width
  /-- The values fit the width of their counter. -/
  capacity : ∀ counter ∈ db.sequences, counter.lastValue ≤ 10 ^ counter.width - 1

/-- The tables right after the migration are consistent. -/
theorem consistent_empty : empty.Consistent where
  referenceUnique := .nil _
  keyUnique := .nil _
  ownerUnique := .nil _
  numbered := by simp [empty]
  policy := by simp [empty]
  capacity := by simp [empty]

namespace Consistent

variable {db : Database} {key : Text × Text} {machineId : MachineBytes} {counter : SequenceRow}

/-- The counter row of a key is the one that is selected. -/
theorem selectSequence_eq (h : db.Consistent) (hc : counter ∈ db.sequences)
    (hkey : counter.key = key) : db.selectSequence key = some counter :=
  h.keyUnique.find?_eq_some_iff.mpr ⟨hc, hkey⟩

/-- A key without counter row has no allocations. -/
theorem rowsOf_eq_nil (h : db.Consistent) (hnone : ∀ c ∈ db.sequences, c.key ≠ key) :
    db.rowsOf key = [] := by
  refine List.filter_eq_nil_iff.mpr fun r hr => ?_
  obtain ⟨c, hc, hkey, -⟩ := h.policy r hr
  simpa using hkey ▸ hnone c hc

/-- The ledger of a key is as long as its last value. -/
theorem length_ledgerOf (h : db.Consistent) (key : Text × Text) :
    (db.ledgerOf key).length = db.lastValueOf key := by
  cases hc : db.selectSequence key with
  | none =>
      have hnil := h.rowsOf_eq_nil (find?_key_eq_none_iff.mp hc)
      simp [ledgerOf, hnil, lastValueOf, hc]
  | some counter =>
      obtain ⟨hmem, hkey⟩ := selectSequence_facts hc
      have hlength := (h.numbered counter hmem).2
      rw [hkey] at hlength
      simp [ledgerOf, hlength, lastValueOf, hc]

/-- The rows of a key carry the numbers from one to its last value. -/
theorem map_sequence (h : db.Consistent) (key : Text × Text) :
    (db.rowsOf key).map (·.sequence) = List.range' 1 (db.lastValueOf key) ∧
      (db.ledgerOf key).Nodup := by
  rw [← h.length_ledgerOf, ledgerOf, List.length_map]
  cases hc : db.selectSequence key with
  | none =>
      rw [h.rowsOf_eq_nil (find?_key_eq_none_iff.mp hc)]
      exact ⟨rfl, List.nodup_nil⟩
  | some counter =>
      obtain ⟨hmem, hkey⟩ := selectSequence_facts hc
      have hnumbered := (h.numbered counter hmem).1
      rw [hkey] at hnumbered
      exact ⟨hnumbered.2, hnumbered.1⟩

/-- A row carries the number of its machine identifier in the ledger. -/
theorem sequence_eq_number (h : db.Consistent) {r : AllocationRow} (hr : r ∈ db.rowsOf key) :
    r.sequence = number (db.ledgerOf key) r.machineId := by
  obtain ⟨hmem, hkey⟩ := mem_rowsOf.mp hr
  obtain ⟨c, hc, hckey, -⟩ := h.policy r hmem
  have hnumbered := (h.numbered c hc).1
  rw [hckey, hkey] at hnumbered
  exact hnumbered.sequence_eq hr

/-- The numbers given out are not above the last value. -/
theorem sequence_le (h : db.Consistent) (hc : counter ∈ db.sequences) {r : AllocationRow}
    (hr : r ∈ db.rowsOf counter.key) : r.sequence ≤ counter.lastValue := by
  rw [h.sequence_eq_number hr, ← (h.numbered counter hc).2, ← List.length_map AllocationRow.machineId]
  exact number_le (List.mem_map_of_mem hr)

/-- A counter gives a number once. -/
theorem eq_of_sequence (h : db.Consistent) {a b : AllocationRow} (ha : a ∈ db.allocations)
    (hb : b ∈ db.allocations) (hkey : a.key = b.key) (hsequence : a.sequence = b.sequence) :
    a = b := by
  have ha' := mem_rowsOf.mpr ⟨ha, hkey⟩
  have hb' := mem_rowsOf.mpr ⟨hb, rfl⟩
  rw [h.sequence_eq_number ha', h.sequence_eq_number hb'] at hsequence
  have hid := number_injective (List.mem_map_of_mem ha') hsequence
  exact List.inj_on_of_nodup_map (h.map_sequence b.key).2 ha' hb' hid

/-- A row is what its namespace, prefix, scope and number select. -/
theorem find?_allocation (h : db.Consistent) {row : AllocationRow} (hrow : row ∈ db.allocations) :
    (db.allocations.find? fun r => decide (r.namespaceName = row.namespaceName) &&
      decide (r.ownerKey = row.ownerKey)) = some row := by
  rw [Rows.find?_eq_some_iff]
  · exact ⟨hrow, by simp⟩
  · intro a ha b hb htest htest'
    simp only [Bool.and_eq_true, decide_eq_true_eq, AllocationRow.ownerKey, Prod.mk.injEq]
      at htest htest'
    exact h.eq_of_sequence ha hb
      (Prod.ext (htest.1.trans htest'.1.symm) (htest.2.1.2.trans htest'.2.1.2.symm))
      (htest.2.2.trans htest'.2.2.symm)

/-- A counter binds a machine identifier once. -/
theorem eq_of_machineKey (h : db.Consistent) {a b : AllocationRow} (ha : a ∈ db.allocations)
    (hb : b ∈ db.allocations) (hkey : a.machineKey = b.machineKey) : a = b := by
  obtain ⟨hk, hid⟩ := Prod.mk.inj hkey
  refine h.eq_of_sequence ha hb hk ?_
  rw [h.sequence_eq_number (mem_rowsOf.mpr ⟨ha, rfl⟩),
    h.sequence_eq_number (mem_rowsOf.mpr ⟨hb, rfl⟩), hk, hid]

/-! ## preservation -/

/-- A counter row under two fresh keys. -/
theorem addSequence (h : db.Consistent) {row : SequenceRow}
    (hfresh : db.sequenceConflicts row = false) (hzero : row.lastValue = 0) :
    (db.addSequence row).Consistent := by
  have hnew := sequenceConflicts_eq_false_iff.mp hfresh
  refine ⟨h.referenceUnique, h.keyUnique.concat fun r hr => (hnew r hr).1,
    h.ownerUnique.concat fun r hr => (hnew r hr).2, ?_, ?_, ?_⟩
  · intro c hc
    rcases List.mem_append.mp hc with hc | hc
    · exact h.numbered c hc
    · rw [List.mem_singleton.mp hc]
      have hnil : (db.addSequence row).rowsOf row.key = [] :=
        h.rowsOf_eq_nil fun r hr => (hnew r hr).1
      rw [hnil, hzero]
      exact ⟨isNumbered_nil, rfl⟩
  · intro r hr
    obtain ⟨c, hc, hpolicy⟩ := h.policy r hr
    exact ⟨c, List.mem_append_left _ hc, hpolicy⟩
  · intro c hc
    rcases List.mem_append.mp hc with hc | hc
    · exact h.capacity c hc
    · rw [List.mem_singleton.mp hc, hzero]
      exact Nat.zero_le _

/-- Creating a counter row where none stands in its way. -/
theorem ensureSequence (h : db.Consistent) {row : SequenceRow} (hzero : row.lastValue = 0) :
    (db.ensureSequence row).Consistent := by
  rcases ensureSequence_cases db row with ⟨heq, -⟩ | ⟨heq, hfresh⟩ <;> rw [heq]
  · exact h
  · exact h.addSequence hfresh hzero

/-- The next number of a counter is free under both keys that carry it. -/
theorem nextRow_fresh (h : db.Consistent) (hc : counter ∈ db.sequences) {r : AllocationRow}
    (hr : r ∈ db.allocations) :
    r.primaryKey ≠ (nextRow counter machineId).primaryKey ∧
      r.ownerKey ≠ (nextRow counter machineId).ownerKey := by
  have hbelow : r.key = counter.key → r.sequence ≠ counter.lastValue + 1 := by
    intro hkey
    have := h.sequence_le hc (mem_rowsOf.mpr ⟨hr, hkey⟩)
    omega
  refine ⟨fun heq => hbelow (congrArg Prod.fst heq) (congrArg Prod.snd heq), fun heq => ?_⟩
  obtain ⟨c, hcmem, hckey, hcpre, -⟩ := h.policy r hr
  -- the counter of `r` owns the same prefix, so it is the same counter
  have howner : c.owner = counter.owner := by
    have hfst := congrArg Prod.fst heq
    rw [SequenceRow.owner, hcpre, (Prod.mk.inj hckey).2]
    exact hfst
  have hsame := h.ownerUnique.eq hcmem hc howner
  exact hbelow (hsame ▸ hckey.symm) (congrArg Prod.snd heq)

/-- Recording the next number of a counter for an unbound machine identifier. -/
theorem record (h : db.Consistent) (hc : counter ∈ db.sequences)
    (hroom : counter.lastValue < 10 ^ counter.width - 1) (hnew : machineId ∉ db.ledgerOf counter.key) :
    (db.record counter machineId).Consistent := by
  have hframe := fun r : SequenceRow => r.setLastValue_frame counter.key (counter.lastValue + 1)
  refine ⟨h.referenceUnique, h.keyUnique.map fun r => (hframe r).1,
    h.ownerUnique.map fun r => (hframe r).2.1, ?_, ?_, ?_⟩
  · intro c' hc'
    obtain ⟨c, hcmem, rfl⟩ := List.mem_map.mp hc'
    obtain ⟨hnumbered, hlength⟩ := h.numbered c hcmem
    rw [(hframe c).1]
    by_cases hsame : c.key = counter.key
    · have hcc := h.keyUnique.eq hcmem hc hsame
      subst hcc
      rw [SequenceRow.setLastValue_of_eq rfl, rowsOf_record_self]
      refine ⟨hnumbered.concat hnew ?_, ?_⟩
      · rw [sequence_nextRow, hlength]
      · rw [List.length_append, hlength, List.length_singleton]
    · rw [SequenceRow.setLastValue_of_ne hsame, rowsOf_record_other hsame]
      exact ⟨hnumbered, hlength⟩
  · intro r hr
    rcases List.mem_append.mp hr with hr | hr
    · obtain ⟨c, hcmem, hckey, hcpre, hcwidth⟩ := h.policy r hr
      exact ⟨_, List.mem_map_of_mem hcmem, (hframe c).1.trans hckey,
        (hframe c).2.2.1.trans hcpre, (hframe c).2.2.2.trans hcwidth⟩
    · rw [List.mem_singleton.mp hr]
      exact ⟨_, List.mem_map_of_mem hc, (hframe counter).1, (hframe counter).2.2⟩
  · intro c' hc'
    obtain ⟨c, hcmem, rfl⟩ := List.mem_map.mp hc'
    rw [(hframe c).2.2.2]
    by_cases hsame : c.key = counter.key
    · have hcc := h.keyUnique.eq hcmem hc hsame
      subst hcc
      rw [SequenceRow.setLastValue_of_eq rfl]
      exact hroom
    · rw [SequenceRow.setLastValue_of_ne hsame]
      exact h.capacity c hcmem

/-- A reference row under a fresh key. -/
theorem addReference (h : db.Consistent) {row : ReferenceRow}
    (hfresh : db.referenceConflicts row = false) : (db.addReference row).Consistent :=
  ⟨h.referenceUnique.concat (referenceConflicts_eq_false_iff.mp hfresh), h.keyUnique, h.ownerUnique,
    h.numbered, h.policy, h.capacity⟩

end Consistent

end Database

end Identifold
