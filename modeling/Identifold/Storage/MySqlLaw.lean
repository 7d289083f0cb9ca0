import Identifold.Storage.MySqlWidth

/-!
# Identifold.Storage.MySqlLaw

What holds of the MySQL tables after any calls of the procedure, from the migrated
ones on.

The counters may run past their width (`Identifold.Storage.MySqlWidth`), so the
tables are not always `Consistent`; all the rest of it they keep.  A counter that
calls have created has a number, so no call takes one over.
-/

namespace Identifold

namespace MySql

open Database Ledger Rows

/-- What holds between the tables after every call. -/
structure Numbered (db : Database) : Prop where
  keyUnique : UniqueOn SequenceRow.key db.sequences
  ownerUnique : UniqueOn SequenceRow.owner db.sequences
  /-- The rows of a counter are numbered from one to its last value, each for
  another machine identifier. -/
  numbered : ∀ counter ∈ db.sequences,
    IsNumbered AllocationRow.machineId AllocationRow.sequence (db.rowsOf counter.key) ∧
      (db.rowsOf counter.key).length = counter.lastValue
  policy : ∀ r ∈ db.allocations, ∃ counter ∈ db.sequences,
    counter.key = r.key ∧ counter.refPrefix = r.refPrefix ∧ counter.width = r.width

/-- Every counter has given out a number. -/
def AllUsed (db : Database) : Prop := ∀ counter ∈ db.sequences, counter.lastValue ≠ 0

/-- The row that a call is answered from. -/
def Bound (db : Database) (call : SequenceCall) (n : Nat) : Prop :=
  ∃ r ∈ db.allocations, r.machineKey = (callKey call, call.machineId) ∧
    (r.refPrefix = call.refPrefix ∧ r.width = call.width) ∧ r.sequence = n

theorem numbered_empty : Numbered .empty :=
  ⟨.nil _, .nil _, by simp [Database.empty], by simp [Database.empty]⟩

theorem allUsed_empty : AllUsed .empty := by simp [AllUsed, Database.empty]

namespace Numbered

variable {db : Database} {counter : SequenceRow} {machineId : MachineBytes}

theorem rowsOf_eq_nil (h : Numbered db) {key : Text × Text}
    (hnone : ∀ c ∈ db.sequences, c.key ≠ key) :
    db.rowsOf key = [] := by
  refine List.filter_eq_nil_iff.mpr fun r hr => ?_
  obtain ⟨c, hc, hkey, -⟩ := h.policy r hr
  simpa using hkey ▸ hnone c hc

/-- The rows of a key are numbered. -/
theorem rowsOf_numbered (h : Numbered db) (key : Text × Text) :
    IsNumbered AllocationRow.machineId AllocationRow.sequence (db.rowsOf key) := by
  cases hc : db.selectSequence key with
  | none =>
      rw [h.rowsOf_eq_nil (find?_key_eq_none_iff.mp hc)]
      exact isNumbered_nil
  | some counter =>
      obtain ⟨hmem, rfl⟩ := selectSequence_facts hc
      exact (h.numbered counter hmem).1

/-- A counter binds a machine identifier once. -/
theorem eq_of_machineKey (h : Numbered db) {a b : AllocationRow} (ha : a ∈ db.allocations)
    (hb : b ∈ db.allocations) (hkey : a.machineKey = b.machineKey) : a = b := by
  obtain ⟨hk, hid⟩ := Prod.mk.inj hkey
  exact List.inj_on_of_nodup_map (h.rowsOf_numbered b.key).1 (mem_rowsOf.mpr ⟨ha, hk⟩)
    (mem_rowsOf.mpr ⟨hb, rfl⟩) hid

/-- A prefix gives a number once in a scope. -/
theorem eq_of_ownerKey (h : Numbered db) {a b : AllocationRow} (ha : a ∈ db.allocations)
    (hb : b ∈ db.allocations) (hkey : a.ownerKey = b.ownerKey) : a = b := by
  obtain ⟨c, hc, hckey, hcpre, -⟩ := h.policy a ha
  obtain ⟨d, hd, hdkey, hdpre, -⟩ := h.policy b hb
  obtain ⟨howner, hsequence⟩ := Prod.mk.inj hkey
  obtain ⟨hpre, hscope⟩ := Prod.mk.inj howner
  -- the counters own one prefix in one scope, so they are one
  have hsame : c = d := by
    refine h.ownerUnique.eq hc hd (Prod.ext ?_ ?_)
    · exact hcpre.trans (hpre.trans hdpre.symm)
    · exact (Prod.mk.inj hckey).2.trans (hscope.trans (Prod.mk.inj hdkey).2.symm)
  have hk : a.key = b.key := hckey.symm.trans (hsame ▸ hdkey)
  have ha' := mem_rowsOf.mpr ⟨ha, hk⟩
  have hb' := mem_rowsOf.mpr ⟨hb, rfl⟩
  have hnumbered := h.rowsOf_numbered b.key
  rw [hnumbered.sequence_eq ha', hnumbered.sequence_eq hb'] at hsequence
  exact List.inj_on_of_nodup_map hnumbered.1 ha' hb'
    (number_injective (List.mem_map_of_mem ha') hsequence)

/-! ## preservation -/

/-- A counter row under two fresh keys. -/
theorem addSequence (h : Numbered db) {row : SequenceRow}
    (hfresh : db.sequenceConflicts row = false)
    (hzero : row.lastValue = 0) : Numbered (db.addSequence row) := by
  have hnew := sequenceConflicts_eq_false_iff.mp hfresh
  refine ⟨h.keyUnique.concat fun r hr => (hnew r hr).1,
    h.ownerUnique.concat fun r hr => (hnew r hr).2, fun c hc => ?_, fun r hr => ?_⟩
  · rcases List.mem_append.mp hc with hc | hc
    · exact h.numbered c hc
    · rw [List.mem_singleton.mp hc]
      have hnil : (db.addSequence row).rowsOf row.key = [] :=
        h.rowsOf_eq_nil fun r hr => (hnew r hr).1
      rw [hnil, hzero]
      exact ⟨isNumbered_nil, rfl⟩
  · obtain ⟨c, hc, hpolicy⟩ := h.policy r hr
    exact ⟨c, List.mem_append_left _ hc, hpolicy⟩

/-- Recording the next number of a counter for an unbound machine identifier. -/
theorem record (h : Numbered db) (hc : counter ∈ db.sequences)
    (hnew : machineId ∉ db.ledgerOf counter.key) : Numbered (db.record counter machineId) := by
  have hframe := fun r : SequenceRow => r.setLastValue_frame counter.key (counter.lastValue + 1)
  refine ⟨h.keyUnique.map fun r => (hframe r).1, h.ownerUnique.map fun r => (hframe r).2.1,
    fun c' hc' => ?_, fun r hr => ?_⟩
  · obtain ⟨c, hcmem, rfl⟩ := List.mem_map.mp hc'
    obtain ⟨hnumbered, hlength⟩ := h.numbered c hcmem
    rw [(hframe c).1]
    by_cases hsame : c.key = counter.key
    · obtain rfl := h.keyUnique.eq hcmem hc hsame
      rw [SequenceRow.setLastValue_of_eq rfl, rowsOf_record_self]
      refine ⟨hnumbered.concat hnew ?_, ?_⟩
      · rw [sequence_nextRow, hlength]
      · rw [List.length_append, hlength, List.length_singleton]
    · rw [SequenceRow.setLastValue_of_ne hsame, rowsOf_record_other hsame]
      exact ⟨hnumbered, hlength⟩
  · rcases List.mem_append.mp hr with hr | hr
    · obtain ⟨c, hcmem, hckey, hcpre, hcwidth⟩ := h.policy r hr
      exact ⟨_, List.mem_map_of_mem hcmem, (hframe c).1.trans hckey,
        (hframe c).2.2.1.trans hcpre, (hframe c).2.2.2.trans hcwidth⟩
    · rw [List.mem_singleton.mp hr]
      exact ⟨_, List.mem_map_of_mem hc, (hframe counter).1, (hframe counter).2.2⟩

end Numbered

/-! ## calls -/

section Calls

variable {db db₁ db' : Database} {call : SequenceCall} {n : Nat}

theorem AllUsed.record {counter : SequenceRow} {machineId : MachineBytes}
    (h : ∀ c ∈ db.sequences, c.key ≠ counter.key → c.lastValue ≠ 0) :
    AllUsed (db.record counter machineId) := by
  intro c' hc'
  obtain ⟨c, hc, rfl⟩ := List.mem_map.mp hc'
  by_cases hsame : c.key = counter.key
  · rw [SequenceRow.setLastValue_of_eq hsame]
    exact Nat.succ_ne_zero _
  · rw [SequenceRow.setLastValue_of_ne hsame]
    exact h c hc hsame

/-- The upsert adds the counter or finds it: where all counters are used, none is
taken over. -/
theorem upsertSequence_numbered (h : Numbered db) (hused : AllUsed db) {row : SequenceRow}
    (hzero : row.lastValue = 0) (hupsert : upsertSequence db row = .ok db₁) :
    Numbered db₁ ∧ db₁.allocations = db.allocations ∧
      ∀ c ∈ db₁.sequences, c.key ≠ row.key → c.lastValue ≠ 0 := by
  simp only [upsertSequence, bind_eq_ok_iff, ensure_eq_ok_iff] at hupsert
  obtain ⟨-, -, hupsert⟩ := hupsert
  cases hselect : db.selectSequence row.key with
  | some counter =>
      simp only [hselect, pure_eq_ok_iff] at hupsert
      obtain rfl := hupsert
      exact ⟨h, rfl, fun c hc _ => hused c hc⟩
  | none =>
      cases howner : db.sequences.find? fun r => decide (r.owner = row.owner) with
      | none =>
          simp only [hselect, howner, pure_eq_ok_iff] at hupsert
          obtain rfl := hupsert
          have hfresh : db.sequenceConflicts row = false :=
            sequenceConflicts_eq_false_iff.mpr fun c hc =>
              ⟨find?_key_eq_none_iff.mp hselect c hc, find?_key_eq_none_iff.mp howner c hc⟩
          refine ⟨h.addSequence hfresh hzero, rfl, fun c hc hne => ?_⟩
          rcases List.mem_append.mp hc with hc | hc
          · exact hused c hc
          · exact absurd (congrArg SequenceRow.key (List.mem_singleton.mp hc)) hne
      | some owner =>
          -- the owner has numbers, so its allocations refer to it
          simp only [hselect, howner, bind_eq_ok_iff, ensure_eq_ok_iff] at hupsert
          obtain ⟨-, hempty, -⟩ := hupsert
          obtain ⟨hmem, -⟩ := of_find?_key howner
          have hlength := (h.numbered owner hmem).2
          rw [hempty] at hlength
          exact absurd hlength.symm (hused owner hmem)

/-- A call is answered from a row that it leaves. -/
theorem bound_of_allocateSequence (hcall : allocateSequence db call = .ok (n, db')) :
    Bound db' call n := by
  simp only [allocateSequence, bind_eq_ok_iff, ensure_eq_ok_iff] at hcall
  obtain ⟨-, -, hcall⟩ := hcall
  cases hreplay : db.selectAllocation (callKey call) call.machineId with
  | some existing =>
      simp only [hreplay, bind_eq_ok_iff, ensure_eq_ok_iff, pure_eq_ok_iff, Prod.mk.injEq] at hcall
      obtain ⟨-, hpolicy, rfl, rfl⟩ := hcall
      obtain ⟨hmem, hkey⟩ := of_find?_key hreplay
      exact ⟨existing, hmem, hkey, hpolicy, rfl⟩
  | none =>
      simp only [hreplay, bind_eq_ok_iff] at hcall
      obtain ⟨db₁, -, hcall⟩ := hcall
      cases hselect : db₁.selectSequence (callKey call) with
      | none =>
          rw [hselect] at hcall
          contradiction
      | some counter =>
          simp only [hselect, insertAllocation, bind_eq_ok_iff, ensure_eq_ok_iff, pure_eq_ok_iff,
            Prod.mk.injEq] at hcall
          obtain ⟨-, -, -, -, db₂, ⟨-, -, -, -, -, -, rfl⟩, rfl, rfl⟩ := hcall
          exact ⟨_, List.mem_append_right _ (List.mem_singleton_self _), rfl, ⟨rfl, rfl⟩, rfl⟩

/-- **A call**: the tables stay numbered, it is answered from a row, and it adds no row
but the one it is answered from. -/
theorem allocateSequence_spec (h : Numbered db) (hused : AllUsed db)
    (hcall : allocateSequence db call = .ok (n, db')) :
    (Numbered db' ∧ AllUsed db') ∧ Bound db' call n ∧
      (db' = db ∨ (∀ m, ¬ Bound db call m) ∧ ∃ row, db'.allocations = db.allocations ++ [row] ∧
        row.machineKey = (callKey call, call.machineId)) := by
  have hbound := bound_of_allocateSequence hcall
  rcases allocateSequence_cases hcall with rfl |
    ⟨db₁, counter, hupsert, hunbound, -, hselect, -, -, -, rfl⟩
  · exact ⟨⟨h, hused⟩, hbound, .inl rfl⟩
  · obtain ⟨h₁, hallocations, hothers⟩ := upsertSequence_numbered h hused rfl hupsert
    obtain ⟨hc, hkey⟩ := selectSequence_facts hselect
    have hnew : call.machineId ∉ db₁.ledgerOf counter.key := by
      rw [ledgerOf, rowsOf, hallocations, hkey]
      exact selectAllocation_eq_none_iff.mp hunbound
    have hrow : (nextRow counter call.machineId).machineKey = (callKey call, call.machineId) :=
      Prod.ext hkey rfl
    refine ⟨⟨h₁.record hc hnew, .record fun c hc hne => hothers c hc (hkey ▸ hne)⟩, hbound,
      .inr ⟨?_, nextRow counter call.machineId, by rw [record_allocations, hallocations], hrow⟩⟩
    rintro m ⟨r, hr, hmachine, -⟩
    exact find?_key_eq_none_iff.mp hunbound r hr hmachine

end Calls

end MySql

end Identifold
