import Identifold.Storage.MySqlWidth

/-!
# Identifold.Storage.MySqlIsolation

What a call of the MySQL procedure does to the rows of other namespaces.

The `ON DUPLICATE KEY UPDATE namespace = VALUES(namespace)` of the procedure
is meant to change nothing.  It does so where the primary key finds the row;
where `(reference_prefix, scope)` finds it, the row of another namespace gets
the namespace of the call, and only the foreign key of its allocations stands
in the way.  A counter without allocations is taken over when the rest of the
procedure then succeeds (`TakesOver`), and this is the only way a call reaches
another namespace.
-/

namespace Identifold

namespace MySql

open Database

/-- The counter row the procedure offers to the upsert. -/
def offeredRow (call : SequenceCall) : SequenceRow :=
  ⟨(callKey call).1, (callKey call).2, call.refPrefix, call.width, 0⟩

/-- The rows of the other namespaces are the same after the call. -/
def Isolated (db : Database) (call : SequenceCall) : Prop :=
  let db' := (exec db call).2
  db'.sequences.filter (fun r => r.namespaceName ≠ call.namespaceName) =
      db.sequences.filter (fun r => r.namespaceName ≠ call.namespaceName) ∧
    db'.allocations.filter (fun r => r.namespaceName ≠ call.namespaceName) =
      db.allocations.filter (fun r => r.namespaceName ≠ call.namespaceName)

instance (db : Database) (call : SequenceCall) : Decidable (Isolated db call) :=
  inferInstanceAs (Decidable (_ ∧ _))

/-- The request is well formed and has no counter yet, while another counter
has its prefix and scope, has no allocations, has the requested width and room
for a value, and no allocation of another counter carries that value under the
prefix. -/
def TakesOver (db : Database) (call : SequenceCall) : Prop :=
  (4 ≤ call.width ∧ call.width ≤ 18) ∧ sequenceChecks (offeredRow call) = true ∧
    (∀ c ∈ db.sequences, c.key ≠ callKey call) ∧
    ∃ owner ∈ db.sequences, owner.owner = (call.refPrefix, call.scope.getD []) ∧
      db.rowsOf owner.key = [] ∧ owner.width = call.width ∧
      owner.lastValue < maximumValue call.width ∧
      db.allocationConflicts (nextRow { owner with namespaceName := call.namespaceName }
        call.machineId) = false

/-- The counter of another namespace under the namespace of the call. -/
def takenOver (db : Database) (owner : SequenceRow) (namespaceName : Text) : Database :=
  { db with sequences := db.sequences.map fun r =>
      if r.key = owner.key then { r with namespaceName := namespaceName } else r }

section Upsert

variable {db db₁ : Database} {row : SequenceRow}

/-- What the upsert does: it leaves the row of the primary key, adds the row, or
takes over the row of the other key. -/
theorem upsertSequence_ok (h : upsertSequence db row = .ok db₁) :
    sequenceChecks row = true ∧
      (db₁ = db ∨ db₁ = db.addSequence row ∨
        (∀ c ∈ db.sequences, c.key ≠ row.key) ∧ ∃ owner ∈ db.sequences,
          owner.owner = row.owner ∧ db.rowsOf owner.key = [] ∧
            db₁ = takenOver db owner row.namespaceName) := by
  simp only [upsertSequence, bind_eq_ok_iff, ensure_eq_ok_iff] at h
  obtain ⟨-, hchecks, h⟩ := h
  refine ⟨hchecks, ?_⟩
  cases hselect : db.selectSequence row.key with
  | some counter =>
      simp only [hselect, pure_eq_ok_iff] at h
      exact .inl h.symm
  | none =>
      cases howner : db.sequences.find? fun r => decide (r.owner = row.owner) with
      | none =>
          simp only [hselect, howner, pure_eq_ok_iff] at h
          exact .inr (.inl h.symm)
      | some owner =>
          simp only [hselect, howner, bind_eq_ok_iff, ensure_eq_ok_iff, pure_eq_ok_iff] at h
          obtain ⟨-, hempty, hdb⟩ := h
          obtain ⟨hmem, hkey⟩ := Rows.of_find?_key howner
          exact .inr (.inr ⟨Rows.find?_key_eq_none_iff.mp hselect, owner, hmem, hkey, hempty,
            hdb.symm⟩)

/-- The row of the other key is taken over where the primary key finds none. -/
theorem upsertSequence_of_owner (hdb : StoredState db) (hchecks : sequenceChecks row = true)
    (hnone : ∀ c ∈ db.sequences, c.key ≠ row.key) {owner : SequenceRow}
    (howner : owner ∈ db.sequences) (hkey : owner.owner = row.owner)
    (hempty : db.rowsOf owner.key = []) :
    upsertSequence db row = .ok (takenOver db owner row.namespaceName) := by
  have hselect : db.selectSequence row.key = none := Rows.find?_key_eq_none_iff.mpr hnone
  have hfind : (db.sequences.find? fun r => decide (r.owner = row.owner)) = some owner :=
    hdb.ownerUnique.find?_eq_some_iff.mpr ⟨howner, hkey⟩
  rw [upsertSequence, ensure_of hchecks, ok_bind, hselect, hfind]
  simp only
  rw [ensure_of hempty, ok_bind]
  rfl

end Upsert

section Isolation

variable {db db' : Database} {call : SequenceCall} {owner : SequenceRow} {n : Nat}

/-- The row that is taken over is the counter of the call. -/
theorem selectSequence_takenOver (hdb : StoredState db)
    (hnone : ∀ c ∈ db.sequences, c.key ≠ callKey call) (howner : owner ∈ db.sequences)
    (hscope : owner.scope = call.scope.getD []) :
    (takenOver db owner call.namespaceName).selectSequence (callKey call) =
      some { owner with namespaceName := call.namespaceName } := by
  rw [selectSequence, Rows.find?_eq_some_iff]
  · refine ⟨List.mem_map.mpr ⟨owner, howner, if_pos rfl⟩, ?_⟩
    simp [SequenceRow.key, callKey, hscope]
  · -- every row under the key of the call was the owner
    have hcame : ∀ a ∈ (takenOver db owner call.namespaceName).sequences,
        a.key = callKey call → a = { owner with namespaceName := call.namespaceName } := by
      intro a ha hkey
      obtain ⟨r, hr, rfl⟩ := List.mem_map.mp ha
      by_cases hsame : r.key = owner.key
      · rw [if_pos hsame, hdb.keyUnique.eq hr howner hsame]
      · rw [if_neg hsame] at hkey
        exact absurd hkey (hnone r hr)
    intro a ha b hb hka hkb
    rw [hcame a ha (of_decide_eq_true hka), hcame b hb (of_decide_eq_true hkb)]

/-- A call that takes over a counter commits on it. -/
theorem exec_of_takesOver (hdb : StoredState db) (hwidth : 4 ≤ call.width ∧ call.width ≤ 18)
    (hchecks : sequenceChecks (offeredRow call) = true)
    (hnone : ∀ c ∈ db.sequences, c.key ≠ callKey call) (howner : owner ∈ db.sequences)
    (hkey : owner.owner = (call.refPrefix, call.scope.getD [])) (hempty : db.rowsOf owner.key = [])
    (hsame : owner.width = call.width) (hroom : owner.lastValue < maximumValue call.width)
    (hfree : db.allocationConflicts (nextRow { owner with namespaceName := call.namespaceName }
      call.machineId) = false) :
    (exec db call).2 = (takenOver db owner call.namespaceName).record
      { owner with namespaceName := call.namespaceName } call.machineId := by
  obtain ⟨hpre, hscope⟩ := Prod.mk.inj hkey
  have hreplay : db.selectAllocation (callKey call) call.machineId = none := by
    refine Rows.find?_key_eq_none_iff.mpr fun r hr heq => ?_
    obtain ⟨c, hc, hreferred⟩ := hdb.foreignKey r hr
    exact hnone c hc (hreferred.trans (congrArg Prod.fst heq))
  have hupsert : upsertSequence db ⟨(callKey call).1, (callKey call).2, call.refPrefix, call.width,
      0⟩ = .ok (takenOver db owner call.namespaceName) :=
    upsertSequence_of_owner hdb hchecks hnone howner hkey hempty
  have hselect := selectSequence_takenOver hdb hnone howner hscope
  have hrow : nextRow { owner with namespaceName := call.namespaceName } call.machineId =
      ⟨(callKey call).1, (callKey call).2, owner.lastValue + 1, call.machineId, call.refPrefix,
        call.width⟩ := by
    rw [nextRow, hpre, hsame, hscope]
    rfl
  have hinsert : insertAllocation ((takenOver db owner call.namespaceName).setLastValue
      (callKey call) (owner.lastValue + 1)) ⟨(callKey call).1, (callKey call).2,
        owner.lastValue + 1, call.machineId, call.refPrefix, call.width⟩ =
      .ok ((takenOver db owner call.namespaceName).record
        { owner with namespaceName := call.namespaceName } call.machineId) := by
    have hallocation : allocationChecks (nextRow { owner with namespaceName := call.namespaceName }
        call.machineId) = true := by
      simp [allocationChecks, nextRow, hsame, hwidth]
    have hreferred : (((takenOver db owner call.namespaceName).setLastValue (callKey call)
        (owner.lastValue + 1)).selectSequence (callKey call)).isSome = true := by
      rw [selectSequence_setLastValue, hselect]
      rfl
    rw [← hrow, insertAllocation, ensure_of hallocation, ok_bind, ensure_of (by exact hfree), ok_bind,
      hrow, ensure_of (by exact hreferred), ok_bind, record, hrow]
    simp only [SequenceRow.key, callKey, hscope]
    rfl
  rw [exec, allocateSequence, ensure_of hwidth, ok_bind]
  simp only [hreplay, hupsert, ok_bind, hselect]
  rw [ensure_of ⟨hpre, hsame⟩, ok_bind, ensure_of hroom, ok_bind, hinsert]
  rfl

/-- A counter that is taken over is lost to its namespace. -/
theorem not_isolated_of_takesOver (hdb : StoredState db) (h : TakesOver db call) :
    ¬ Isolated db call := by
  obtain ⟨hwidth, hchecks, hnone, owner, howner, hkey, hempty, hsame, hroom, hfree⟩ := h
  have hscope : owner.scope = call.scope.getD [] := congrArg Prod.snd hkey
  have hforeign : owner.namespaceName ≠ call.namespaceName := fun heq =>
    hnone owner howner (by rw [SequenceRow.key, heq, hscope]; rfl)
  rintro ⟨hsequences, -⟩
  rw [exec_of_takesOver hdb hwidth hchecks hnone howner hkey hempty hsame hroom hfree] at hsequences
  have hmem : owner ∈ db.sequences.filter fun r => r.namespaceName ≠ call.namespaceName :=
    List.mem_filter.mpr ⟨howner, decide_eq_true hforeign⟩
  rw [← hsequences] at hmem
  obtain ⟨r', hr', hset⟩ := List.mem_map.mp (List.mem_filter.mp hmem).1
  obtain ⟨r, hr, rfl⟩ := List.mem_map.mp hr'
  have hkeys := (SequenceRow.setLastValue_frame _ _ _).1.symm.trans (congrArg SequenceRow.key hset)
  by_cases howned : r.key = owner.key
  · rw [if_pos howned] at hkeys
    exact hforeign (congrArg Prod.fst hkeys).symm
  · rw [if_neg howned] at hkeys
    exact howned hkeys

/-- Recording a number of the call's own counter reaches no other namespace. -/
theorem filter_record (db₁ : Database) {counter : SequenceRow} (hkey : counter.key = callKey call) :
    (db₁.record counter call.machineId).sequences.filter
        (fun r => r.namespaceName ≠ call.namespaceName) =
      db₁.sequences.filter (fun r => r.namespaceName ≠ call.namespaceName) ∧
    (db₁.record counter call.machineId).allocations.filter
        (fun r => r.namespaceName ≠ call.namespaceName) =
      db₁.allocations.filter (fun r => r.namespaceName ≠ call.namespaceName) := by
  have hown : counter.namespaceName = call.namespaceName := congrArg Prod.fst hkey
  constructor
  · have hsequences : ∀ rows : List SequenceRow,
        (rows.map (SequenceRow.setLastValue counter.key (counter.lastValue + 1))).filter
            (fun r => r.namespaceName ≠ call.namespaceName) =
          rows.filter fun r => r.namespaceName ≠ call.namespaceName := by
      intro rows
      induction rows with
      | nil => rfl
      | cons r rows ih =>
          by_cases hr : r.key = counter.key
          · have hns : r.namespaceName = call.namespaceName :=
              (congrArg Prod.fst hr).trans hown
            rw [List.map_cons, SequenceRow.setLastValue_of_eq hr, List.filter_cons_of_neg (by simp [hns]),
              List.filter_cons_of_neg (by simp [hns]), ih]
          · rw [List.map_cons, SequenceRow.setLastValue_of_ne hr, List.filter_cons, List.filter_cons, ih]
    exact hsequences db₁.sequences
  · rw [record_allocations, List.filter_append, List.filter_cons_of_neg (by simp [nextRow, hown]),
      List.filter_nil, List.append_nil]

end Isolation

/-- A counter of `order` without allocations. -/
def seededCounter : Database := ⟨[], [⟨"order".toList, [], "ORD".toList, 4, 0⟩], []⟩

/-- A call of a namespace for the prefix of that counter. -/
def seededCall (namespaceName : String) : SequenceCall :=
  ⟨List.replicate 16 7, namespaceName.toList, "ORD".toList, none, 4⟩

theorem storedState_seededCounter : StoredState seededCounter :=
  ⟨by decide, by decide, by decide, by decide, by decide, by decide, by decide, by decide⟩

end MySql

end Identifold
