import Identifold.Storage.SqliteLaw

/-!
# Identifold.Storage.SqliteSchema

What the migration `001_identifold.up.sql` holds a SQLite database to: the
keys, the `CHECK`s of every row, the foreign key of the allocations, and the
range of an `INTEGER` column.  Each statement of the adapters keeps it, so
every run of calls does.

The schema is weaker than `Database.Consistent`: it says nothing of the
numbers of a counter, and lets a row of an allocation differ from its counter
in prefix and width.
-/

namespace Identifold

namespace Sqlite

open Rows Transition Database

/-- A state that the schema admits. -/
structure StoredState (db : Database) : Prop where
  referenceUnique : UniqueOn (·.reference) db.references
  keyUnique : UniqueOn SequenceRow.key db.sequences
  ownerUnique : UniqueOn SequenceRow.owner db.sequences
  primaryUnique : UniqueOn AllocationRow.primaryKey db.allocations
  allocationOwnerUnique : UniqueOn AllocationRow.ownerKey db.allocations
  machineUnique : UniqueOn AllocationRow.machineKey db.allocations
  referenceChecks : ∀ r ∈ db.references, r.sqliteChecks = true
  sequenceChecks : ∀ r ∈ db.sequences, r.sqliteChecks = true
  allocationChecks : ∀ r ∈ db.allocations, r.sqliteChecks = true
  /-- The foreign key of the allocations. -/
  counters : ∀ r ∈ db.allocations, (db.selectSequence r.key).isSome = true
  /-- The columns `last_value` and `sequence` are signed 64-bit integers. -/
  lastValues : ∀ r ∈ db.sequences, r.lastValue < 2 ^ 63
  sequenceValues : ∀ r ∈ db.allocations, r.sequence < 2 ^ 63

theorem storedState_empty : StoredState Database.empty := by
  constructor <;> simp [Database.empty, UniqueOn]

/-- A number of a counter is an `INTEGER`. -/
theorem pow_width_le {width : Nat} (h : width ≤ 18) : 10 ^ width < 2 ^ 63 :=
  Nat.lt_of_le_of_lt (Nat.pow_le_pow_right (by decide) h) (by norm_num)

section Checks

variable {row : SequenceRow}

/-- The width of a row that passes its `CHECK`s. -/
theorem width_of_sqliteChecks (h : row.sqliteChecks = true) : 4 ≤ row.width ∧ row.width ≤ 18 := by
  simp only [SequenceRow.sqliteChecks, Bool.and_eq_true, decide_eq_true_eq] at h
  exact h.2

/-- A text without NUL is read whole. -/
theorem cString_eq_self {v : Text} (h : '\x00' ∉ v) : cString v = v := by
  rw [cString, List.takeWhile_eq_self_iff]
  intro c hc
  exact decide_eq_true fun heq => h (heq ▸ hc)

/-- The `CHECK` of the prefix, on texts without NUL. -/
theorem refPrefix_of_sqliteChecks (h : row.sqliteChecks = true) (hnul : '\x00' ∉ row.refPrefix) :
    isReferencePrefix row.refPrefix = true := by
  simp only [SequenceRow.sqliteChecks, Bool.and_eq_true] at h
  have hpre := h.1.2
  rw [cString_eq_self hnul] at hpre
  simpa [isReferencePrefix] using hpre

/-- The `CHECK` of the scope, on texts without NUL. -/
theorem scope_of_sqliteChecks (h : row.sqliteChecks = true) (hnul : '\x00' ∉ row.scope) :
    row.scope = [] ∨ isFourDigits row.scope = true := by
  simp only [SequenceRow.sqliteChecks, Bool.and_eq_true] at h
  have hscope := h.1.1
  rw [cString_eq_self hnul] at hscope
  simpa [isFourDigits] using hscope

end Checks

/-! ## statements -/

namespace StoredState

variable {db db' : Database} {key : Text × Text}

theorem insertReference (h : StoredState db) {row : ReferenceRow} {changes : Nat}
    (hinsert : Sqlite.insertReference db row = .ok (changes, db')) : StoredState db' := by
  simp only [Sqlite.insertReference, bind_eq_ok_iff, ensure_eq_ok_iff, pure_eq_ok_iff] at hinsert
  obtain ⟨-, hchecks, hadded⟩ := hinsert
  split at hadded
  · obtain ⟨-, rfl⟩ := Prod.mk.inj hadded
    exact h
  · rename_i hfresh
    obtain ⟨-, rfl⟩ := Prod.mk.inj hadded
    refine { h with
      referenceUnique := h.referenceUnique.concat
        (referenceConflicts_eq_false_iff.mp (Bool.eq_false_iff.mpr hfresh)),
      referenceChecks := ?_ }
    intro r hr
    rcases List.mem_append.mp hr with hr | hr
    · exact h.referenceChecks r hr
    · rw [List.mem_singleton.mp hr]
      exact hchecks

theorem insertSequence (h : StoredState db) {row : SequenceRow} (hvalue : row.lastValue < 2 ^ 63)
    (hinsert : Sqlite.insertSequence db row = .ok db') : StoredState db' := by
  simp only [Sqlite.insertSequence, bind_eq_ok_iff, ensure_eq_ok_iff, pure_eq_ok_iff] at hinsert
  obtain ⟨-, hchecks, rfl⟩ := hinsert
  rcases ensureSequence_cases db row with ⟨heq, -⟩ | ⟨heq, hfresh⟩ <;> rw [heq]
  · exact h
  · have hnew := sequenceConflicts_eq_false_iff.mp hfresh
    refine { h with
      keyUnique := h.keyUnique.concat fun r hr => (hnew r hr).1,
      ownerUnique := h.ownerUnique.concat fun r hr => (hnew r hr).2,
      sequenceChecks := ?_, lastValues := ?_, counters := ?_ }
    · intro r hr
      rcases List.mem_append.mp hr with hr | hr
      · exact h.sequenceChecks r hr
      · rw [List.mem_singleton.mp hr]
        exact hchecks
    · intro r hr
      have hold := h.counters r hr
      rw [selectSequence, List.find?_isSome] at hold
      obtain ⟨c, hc, hkey⟩ := hold
      rw [selectSequence, List.find?_isSome]
      exact ⟨c, List.mem_append_left _ hc, hkey⟩
    · intro r hr
      rcases List.mem_append.mp hr with hr | hr
      · exact h.lastValues r hr
      · rw [List.mem_singleton.mp hr]
        exact hvalue

theorem setLastValue (h : StoredState db) {value : Nat} (hvalue : value < 2 ^ 63) :
    StoredState (db.setLastValue key value) := by
  have hframe := fun r : SequenceRow => r.setLastValue_frame key value
  have hrow : ∀ r : SequenceRow, r.setLastValue key value = { r with lastValue := value } ∨
      r.setLastValue key value = r := by
    intro r
    by_cases hkey : r.key = key
    · exact .inl (SequenceRow.setLastValue_of_eq hkey)
    · exact .inr (SequenceRow.setLastValue_of_ne hkey)
  refine { h with
    keyUnique := h.keyUnique.map fun r => (hframe r).1,
    ownerUnique := h.ownerUnique.map fun r => (hframe r).2.1,
    sequenceChecks := ?_, lastValues := ?_, counters := ?_ }
  · intro r hr
    obtain ⟨c, hc, rfl⟩ := List.mem_map.mp hr
    have hchecks := h.sequenceChecks c hc
    rcases hrow c with heq | heq <;> rw [heq]
    · exact hchecks
    · exact hchecks
  · intro r hr
    rw [selectSequence_setLastValue, Option.isSome_map]
    exact h.counters r hr
  · intro r hr
    obtain ⟨c, hc, rfl⟩ := List.mem_map.mp hr
    rcases hrow c with heq | heq <;> rw [heq]
    · exact hvalue
    · exact h.lastValues c hc

theorem insertAllocation (h : StoredState db) {row : AllocationRow} (hvalue : row.sequence < 2 ^ 63)
    (hinsert : Sqlite.insertAllocation db row = .ok db') : StoredState db' := by
  simp only [Sqlite.insertAllocation, bind_eq_ok_iff, ensure_eq_ok_iff, pure_eq_ok_iff] at hinsert
  obtain ⟨-, hchecks, -, hfresh, -, hcounter, rfl⟩ := hinsert
  have hnew := allocationConflicts_eq_false_iff.mp hfresh
  have hall : ∀ P : AllocationRow → Prop, (∀ r ∈ db.allocations, P r) → P row →
      ∀ r ∈ db.allocations ++ [row], P r := by
    intro P hold hrow r hr
    rcases List.mem_append.mp hr with hr | hr
    · exact hold r hr
    · rw [List.mem_singleton.mp hr]
      exact hrow
  exact { h with
    primaryUnique := h.primaryUnique.concat fun r hr => (hnew r hr).1,
    allocationOwnerUnique := h.allocationOwnerUnique.concat fun r hr => (hnew r hr).2.1,
    machineUnique := h.machineUnique.concat fun r hr => (hnew r hr).2.2,
    allocationChecks := hall (·.sqliteChecks = true) h.allocationChecks hchecks,
    counters := hall (fun r => (db.selectSequence r.key).isSome = true) h.counters hcounter,
    sequenceValues := hall (·.sequence < 2 ^ 63) h.sequenceValues hvalue }

/-! ## calls -/

theorem allocateTransaction (h : StoredState db) {request : SequenceAllocationRequest} {width n : Nat}
    (hwidth : width ≤ 18) (hcall : Sqlite.allocateTransaction db request width = .ok (n, db')) :
    StoredState db' := by
  simp only [Sqlite.allocateTransaction, bind_eq_ok_iff] at hcall
  obtain ⟨machineId, -, hcall⟩ := hcall
  cases hreplay : db.selectAllocation (counterKey request) machineId with
  | some row =>
      simp only [hreplay, bind_eq_ok_iff, pure_eq_ok_iff, Prod.mk.injEq] at hcall
      obtain ⟨-, -, -, rfl⟩ := hcall
      exact h
  | none =>
      simp only [hreplay, bind_eq_ok_iff] at hcall
      obtain ⟨db₁, hinsert, hcall⟩ := hcall
      have h₁ := h.insertSequence (Nat.two_pow_pos 63) hinsert
      cases hselect : db₁.selectSequence (counterKey request) with
      | none =>
          rw [hselect] at hcall
          contradiction
      | some counter =>
          simp only [hselect, bind_eq_ok_iff, ensure_eq_ok_iff, pure_eq_ok_iff,
            Prod.mk.injEq] at hcall
          obtain ⟨-, -, -, hroom, db₂, hrow, -, rfl⟩ := hcall
          have hvalue : counter.lastValue + 1 < 2 ^ 63 := by
            have := pow_width_le hwidth
            omega
          exact (h₁.setLastValue hvalue).insertAllocation hvalue hrow

/-- Step lemma: a call keeps the schema. -/
theorem exec (h : StoredState db) {e : Call × Outcome} (hstep : ofService Sqlite.exec db e db') :
    StoredState db' := by
  obtain ⟨call, outcome⟩ := e
  simp only [ofService] at hstep
  cases call with
  | reserve reservation =>
      cases hcall : reserve db reservation with
      | error error =>
          simp only [Sqlite.exec, hcall, Prod.mk.injEq] at hstep
          exact hstep.2 ▸ h
      | ok result =>
          simp only [Sqlite.exec, hcall, Prod.mk.injEq] at hstep
          simp only [reserve, bind_eq_ok_iff, pure_eq_ok_iff] at hcall
          obtain ⟨machineId, -, ⟨changes, db₁⟩, hinsert, rfl⟩ := hcall
          exact hstep.2 ▸ h.insertReference hinsert
  | allocate request =>
      cases hcall : allocate db request with
      | error error =>
          simp only [Sqlite.exec, hcall, Prod.mk.injEq] at hstep
          exact hstep.2 ▸ h
      | ok result =>
          obtain ⟨value, db₁⟩ := result
          simp only [Sqlite.exec, hcall, Prod.mk.injEq] at hstep
          obtain ⟨width, -, hbounds, htransaction⟩ := allocate_cases hcall
          exact hstep.2 ▸ h.allocateTransaction hbounds.2 htransaction

end StoredState

/-- Run lemma: after every run the tables are as the schema wants them. -/
theorem run_storedState {events : List (Call × Outcome)} {db : Database}
    (hrun : Run (ofService exec) Database.empty events db) : StoredState db :=
  hrun.invariant (fun _ _ _ h hstep => h.exec hstep) storedState_empty

end Sqlite

end Identifold
