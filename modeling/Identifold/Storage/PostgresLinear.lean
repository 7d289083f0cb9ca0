import Identifold.Storage.PostgresSessions

/-!
# Identifold.Storage.PostgresLinear

The concurrent calls of `identifold_allocate_sequence` are linearizable: a call
takes effect when it completes, and as if it had run alone.

`Fits` says of every phase what its call knows of the committed tables and of
its own writes.  Two facts carry it over the steps of the others: a row lock has
one holder (`Sound.exclusive`), so the counter a call has locked stands still, and
two counter rows in flight never clash (`Sound.apart`), so the row a call has
created stays free of conflicts until it commits.

* `Fits.keeps` — the frame rule;
* `replaying_advances` to `recording_advances` — the statements that leave the
  committed tables;
* `returning_commits` — the one that does not;
* `step_effect`, `holds_run` — steps and runs.
-/

namespace Identifold

namespace Postgres

open Interleaving Holding Database Transition

variable {db db' : Database} {p q : Pending} {call : AllocateCall} {phase phase' : Phase}
  {lastValue : Nat}

/-! ## what a call knows -/

/-- After the insert of the counter row: it is there, in the tables or among the
writes of the call, or another row stood in its way. -/
structure Ensured (db : Database) (p : Pending) (call : AllocateCall) : Prop where
  width : call.widthInRange
  checks : sequenceChecks (call.counter 0) = true
  created : p.created = [] ∧ db.sequenceConflicts (call.counter 0) = true ∨
    p.created = [call.counter 0] ∧ db.sequenceConflicts (call.counter 0) = false

/-- Once the counter row is locked. -/
structure Counting (db : Database) (p : Pending) (call : AllocateCall) (lastValue : Nat) : Prop
    extends Ensured db p call where
  locked : p.locked = [call.key]
  counter : call.counter lastValue ∈ (db.ensureSequence (call.counter 0)).sequences

/-- Once the second lookup has found nothing. -/
structure Unbound (db : Database) (p : Pending) (call : AllocateCall) (lastValue : Nat) : Prop
    extends Counting db p call lastValue where
  unbound : call.machineId ∉ db.ledgerOf call.key

/-- A lookup has found the machine identifier, under the policy of the call. -/
def Replays (db : Database) (call : AllocateCall) (sequence : Nat) : Prop :=
  call.widthInRange ∧ ∃ r ∈ db.allocations, r.machineKey = (call.key, call.machineId) ∧
    call.hasPolicy r.refPrefix r.width ∧ r.sequence = sequence

/-- The row that was found is the allocation row of the call. -/
theorem Replays.allocation_mem {sequence : Nat} (h : Replays db call sequence) :
    call.allocation sequence ∈ db.allocations := by
  obtain ⟨-, r, hr, hmachine, ⟨hrefPrefix, hwidth⟩, rfl⟩ := h
  have hrow : r = call.allocation r.sequence := by
    obtain ⟨hkey, hid⟩ := Prod.mk.inj hmachine
    obtain ⟨hns, hscope⟩ := Prod.mk.inj hkey
    have hnat : r.width = call.width.toNat := by omega
    cases r
    simp_all [AllocateCall.allocation]
  exact hrow ▸ hr

/-- What a call knows at its phase. -/
inductive Fits (db : Database) (p : Pending) (call : AllocateCall) : Phase → Prop
  | replaying : p = .none → Fits db p call .replaying
  | creating : p = .none → call.widthInRange → Fits db p call .creating
  | locking : Ensured db p call → p.locked = [] → p.updated = [] → p.recorded = [] →
      Fits db p call .locking
  | waiting : Ensured db p call → p.locked = [] → p.updated = [] → p.recorded = [] →
      Fits db p call .waiting
  | rechecking (lastValue : Nat) : Counting db p call lastValue → p.updated = [] →
      p.recorded = [] → Fits db p call (.rechecking lastValue)
  | updating (lastValue : Nat) : Unbound db p call lastValue → p.updated = [] → p.recorded = [] →
      Fits db p call (.updating lastValue)
  | recording (lastValue : Nat) : Unbound db p call lastValue →
      lastValue < maximumValue call.width → p.updated = [(call.key, lastValue + 1)] →
      p.recorded = [] → Fits db p call (.recording (lastValue + 1))
  | recorded (lastValue : Nat) : Unbound db p call lastValue →
      lastValue < maximumValue call.width → p.updated = [(call.key, lastValue + 1)] →
      p.recorded = [call.allocation (lastValue + 1)] → Fits db p call (.returning (lastValue + 1))
  | replayed (sequence : Nat) : Replays db call sequence → p.created = [] → p.updated = [] →
      p.recorded = [] → Fits db p call (.returning sequence)
  | returned (sequence : Nat) : p = .none → Replays db call sequence →
      Fits db p call (.done (.returned sequence))
  | failed (error : PgError) : p = .none → error.errcode ≠ uniqueViolation.errcode →
      Fits db p call (.done (.failed error))
  | aborted : p = .none → Fits db p call (.done .aborted)

/-- What holds of the server between two steps, with `n` calls started. -/
structure Sound (n : Nat) (s : Server) : Prop where
  consistent : s.committed.Consistent
  checked : ∀ r ∈ s.committed.allocations, allocationChecks r = true
  /-- Two counter rows in flight do not clash. -/
  apart : ∀ i j, i ≠ j → ∀ r ∈ (s.pending i).created, ∀ r' ∈ (s.pending j).created,
    r.key ≠ r'.key ∧ r.owner ≠ r'.owner
  /-- A row lock has one holder. -/
  exclusive : ∀ i j key, key ∈ (s.pending i).locked → key ∈ (s.pending j).locked → i = j
  unstarted : ∀ i, n ≤ i → s.pending i = .none

/-! ## what a call sees -/

namespace Ensured

/-- The counter row of a call, created or in its way, leaves the tables as
`ensureSequence` does. -/
theorem foldl_created (h : Ensured db p call) :
    p.created.foldl addSequence db = db.ensureSequence (call.counter 0) := by
  rcases h.created with ⟨hcreated, hconflicts⟩ | ⟨hcreated, hconflicts⟩
  · rw [hcreated, ensureSequence, if_pos hconflicts]
    rfl
  · rw [hcreated, ensureSequence, if_neg (by simp [hconflicts])]
    rfl

/-- The tables of a call that has set nothing yet. -/
theorem applyTo (h : Ensured db p call) (hupdated : p.updated = []) (hrecorded : p.recorded = []) :
    p.applyTo db = db.ensureSequence (call.counter 0) := by
  rw [Pending.applyTo, h.foldl_created, hupdated, hrecorded]
  rfl

/-- The tables of a call that has set the last value. -/
theorem applyTo_updated (h : Ensured db p call) {key : Text × Text} {value : Nat}
    (hupdated : p.updated = [(key, value)]) (hrecorded : p.recorded = []) :
    p.applyTo db = (db.ensureSequence (call.counter 0)).setLastValue key value := by
  rw [Pending.applyTo, h.foldl_created, hupdated, hrecorded]
  rfl

/-- The tables a call commits. -/
theorem applyTo_recorded (h : Ensured db p call)
    (hupdated : p.updated = [(call.key, lastValue + 1)])
    (hrecorded : p.recorded = [call.allocation (lastValue + 1)]) :
    p.applyTo db =
      (db.ensureSequence (call.counter 0)).record (call.counter lastValue) call.machineId := by
  rw [Pending.applyTo, h.foldl_created, hupdated, hrecorded]
  rfl

end Ensured

/-- A call that has written nothing sees the committed tables. -/
theorem applyTo_none (h : p.created = []) (hupdated : p.updated = []) (hrecorded : p.recorded = []) :
    p.applyTo db = db := by
  rw [Pending.applyTo, h, hupdated, hrecorded]
  rfl

/-- A call at its first or second statement sees what is committed. -/
theorem Pending.applyTo_eq (h : p = .none) : p.applyTo db = db := by
  subst h
  rfl

/-- The counter row of a call is the one it selects. -/
theorem Counting.selectSequence (h : Counting db p call lastValue) (hdb : db.Consistent) :
    (db.ensureSequence (call.counter 0)).selectSequence call.key = some (call.counter lastValue) :=
  (hdb.ensureSequence rfl).selectSequence_eq h.counter (AllocateCall.key_counter call lastValue)

/-- What is found for a machine identifier under a locked counter has the policy
of the counter. -/
theorem Counting.replays (h : Counting db p call lastValue) (hdb : db.Consistent)
    {r : AllocationRow} (hr : db.selectAllocation call.key call.machineId = some r) :
    Replays db call r.sequence := by
  obtain ⟨hrow, hid⟩ := selectAllocation_facts hr
  obtain ⟨hmem, hkey⟩ := mem_rowsOf.mp hrow
  refine ⟨h.width, r, hmem, Prod.ext hkey hid, ?_, rfl⟩
  have hdb' : (db.ensureSequence (call.counter 0)).Consistent := hdb.ensureSequence rfl
  obtain ⟨c, hc, hckey, hcpre, hcwidth⟩ := hdb'.policy r (by rwa [ensureSequence_allocations])
  have hsame := hdb'.keyUnique.eq hc h.counter (hckey.trans hkey)
  rw [← hcpre, ← hcwidth, hsame]
  exact AllocateCall.hasPolicy_counter h.width lastValue

/-- A replay is what the first lookup finds. -/
theorem Replays.replay {sequence : Nat} (h : Replays db call sequence) (hdb : db.Consistent) :
    replay db call = .ok (some sequence) := by
  obtain ⟨hwidth, r, hr, hkey, hpolicy, rfl⟩ := h
  cases hselect : db.selectAllocation call.key call.machineId with
  | none => exact absurd hkey (Rows.find?_key_eq_none_iff.mp hselect r hr)
  | some r' =>
      obtain ⟨hr', hkey'⟩ := Rows.of_find?_key hselect
      have hsame := hdb.eq_of_machineKey hr' hr (hkey'.trans hkey.symm)
      rw [replay_of_some hwidth hselect, hsame, if_pos hpolicy]

/-- What the first lookup finds is a replay. -/
theorem replays_of_replay {sequence : Nat} (h : replay db call = .ok (some sequence)) :
    Replays db call sequence := by
  by_cases hwidth : call.widthInRange
  · cases hselect : db.selectAllocation call.key call.machineId with
    | none => simp [replay_of_none hwidth hselect] at h
    | some r =>
        rw [replay_of_some hwidth hselect] at h
        split at h
        · rename_i hpolicy
          obtain ⟨hr, hkey⟩ := Rows.of_find?_key hselect
          exact ⟨hwidth, r, hr, hkey, hpolicy, Option.some.inj (Except.ok.inj h)⟩
        · contradiction
  · rw [replay, ensure_of_not hwidth] at h
    contradiction

/-- A lookup that answers has checked the width. -/
theorem widthInRange_of_replay {found : Option Nat} (h : replay db call = .ok found) :
    call.widthInRange := by
  obtain ⟨_, hwidth, -⟩ := bind_eq_ok_iff.mp h
  exact ensure_eq_ok_iff.mp hwidth

/-! ## steps of the others -/

/-- What another call leaves of the committed tables that a call with the writes
`p` relies on. -/
structure Keeps (db db' : Database) (p : Pending) : Prop where
  allocations : ∀ r ∈ db.allocations, r ∈ db'.allocations
  conflicts : ∀ row, db.sequenceConflicts row = true → db'.sequenceConflicts row = true
  created : ∀ row ∈ p.created, db.sequenceConflicts row = false →
    db'.sequenceConflicts row = false
  counter : ∀ key ∈ p.locked, ∀ c ∈ db.sequences, c.key = key → c ∈ db'.sequences
  ledger : ∀ key ∈ p.locked, db'.ledgerOf key = db.ledgerOf key

theorem Keeps.refl (db : Database) (p : Pending) : Keeps db db p :=
  ⟨fun _ h => h, fun _ h => h, fun _ _ h => h, fun _ _ _ h _ => h, fun _ _ => rfl⟩

/-- The counter row stays ensured. -/
theorem Ensured.keeps (h : Ensured db p call) (hkeeps : Keeps db db' p) : Ensured db' p call := by
  refine ⟨h.width, h.checks, ?_⟩
  rcases h.created with ⟨hcreated, hconflicts⟩ | ⟨hcreated, hconflicts⟩
  · exact .inl ⟨hcreated, hkeeps.conflicts _ hconflicts⟩
  · exact .inr ⟨hcreated, hkeeps.created _ (by simp [hcreated]) hconflicts⟩

/-- The row under the lock of a call stays as the call has read it. -/
theorem Counting.keeps (h : Counting db p call lastValue) (hkeeps : Keeps db db' p) :
    Counting db' p call lastValue := by
  refine ⟨h.toEnsured.keeps hkeeps, h.locked, ?_⟩
  have hlocked : call.key ∈ p.locked := by simp [h.locked]
  have hold := h.counter
  rw [← h.foldl_created] at hold
  rw [← (h.toEnsured.keeps hkeeps).foldl_created]
  rcases h.created with ⟨hcreated, -⟩ | ⟨hcreated, -⟩
  · rw [hcreated] at hold ⊢
    exact hkeeps.counter _ hlocked _ hold rfl
  · rw [hcreated] at hold ⊢
    rcases List.mem_append.mp hold with hmem | hmem
    · exact List.mem_append_left _ (hkeeps.counter _ hlocked _ hmem rfl)
    · exact List.mem_append_right _ hmem

/-- No other call binds its machine identifier under the lock. -/
theorem Unbound.keeps (h : Unbound db p call lastValue) (hkeeps : Keeps db db' p) :
    Unbound db' p call lastValue := by
  refine ⟨h.toCounting.keeps hkeeps, ?_⟩
  rw [hkeeps.ledger call.key (by simp [h.locked])]
  exact h.unbound

/-- What has been found stays. -/
theorem Replays.keeps {sequence : Nat} (h : Replays db call sequence) (hkeeps : Keeps db db' p) :
    Replays db' call sequence := by
  obtain ⟨hwidth, r, hr, hrest⟩ := h
  exact ⟨hwidth, r, hkeeps.allocations r hr, hrest⟩

/-- **Frame**: what a call knows survives the steps of the others. -/
theorem Fits.keeps (h : Fits db p call phase) (hkeeps : Keeps db db' p) :
    Fits db' p call phase := by
  cases h with
  | replaying hp => exact .replaying hp
  | creating hp hwidth => exact .creating hp hwidth
  | locking h hl hu hr => exact .locking (h.keeps hkeeps) hl hu hr
  | waiting h hl hu hr => exact .waiting (h.keeps hkeeps) hl hu hr
  | rechecking n h hu hr => exact .rechecking n (h.keeps hkeeps) hu hr
  | updating n h hu hr => exact .updating n (h.keeps hkeeps) hu hr
  | recording n h hroom hu hr => exact .recording n (h.keeps hkeeps) hroom hu hr
  | recorded n h hroom hu hr => exact .recorded n (h.keeps hkeeps) hroom hu hr
  | replayed n h hc hu hr => exact .replayed n (h.keeps hkeeps) hc hu hr
  | returned n hp h => exact .returned n hp (h.keeps hkeeps)
  | failed e hp he => exact .failed e hp he
  | aborted hp => exact .aborted hp

/-- **Commit**: recording a number under the lock of its counter keeps what the
calls with other locks and other counter rows rely on. -/
theorem keeps_record (hp : Ensured db p call) (hapart : ∀ r ∈ p.created, ∀ r' ∈ q.created,
      r.key ≠ r'.key ∧ r.owner ≠ r'.owner) (hlock : call.key ∉ q.locked) :
    Keeps db ((db.ensureSequence (call.counter 0)).record (call.counter lastValue) call.machineId)
      q := by
  have hne : ∀ key ∈ q.locked, key ≠ (call.counter lastValue).key := by
    intro key hkey h
    exact hlock (by rwa [h] at hkey)
  refine ⟨?_, ?_, ?_, ?_, ?_⟩
  · intro r hr
    rw [record_allocations, ensureSequence_allocations]
    exact List.mem_append_left _ hr
  · intro row hrow
    rw [sequenceConflicts_record]
    by_contra hfresh
    rw [Bool.not_eq_true, sequenceConflicts_eq_false_iff] at hfresh
    rw [sequenceConflicts_eq_false_iff.mpr fun r hr =>
      hfresh r (subset_ensureSequence _ r hr)] at hrow
    contradiction
  · intro row hrow hfresh
    rw [sequenceConflicts_record, ← hp.foldl_created]
    rcases hp.created with ⟨hcreated, -⟩ | ⟨hcreated, -⟩
    · rwa [hcreated]
    · rw [hcreated] at hapart ⊢
      exact sequenceConflicts_addSequence.mpr ⟨hfresh, hapart _ (List.mem_singleton_self _) row hrow⟩
  · intro key hkey c hc hckey
    refine List.mem_map.mpr ⟨c, subset_ensureSequence _ c hc, SequenceRow.setLastValue_of_ne ?_⟩
    exact hckey ▸ hne key hkey
  · intro key hkey
    rw [ledgerOf_record_other (hne key hkey), ensureSequence_ledgerOf]

/-! ## steps that keep the tables -/

section Steps

variable {n i : Nat} {s s' : Server}

/-- The counter row of a call whose machine identifier is bound was not created
by the call. -/
theorem Ensured.created_eq_nil (h : Ensured db p call) (hdb : db.Consistent) {sequence : Nat}
    (hreplays : Replays db call sequence) : p.created = [] := by
  rcases h.created with ⟨hcreated, -⟩ | ⟨-, hfresh⟩
  · exact hcreated
  · obtain ⟨-, r, hr, hkey, -⟩ := hreplays
    obtain ⟨c, hc, hckey, -⟩ := hdb.policy r hr
    exact absurd (hckey.trans (Prod.mk.inj hkey).1)
      (sequenceConflicts_eq_false_iff.mp hfresh c hc).1

/-- A new counter has no allocation to find. -/
theorem selectAllocation_ensureSequence (row : SequenceRow) (key : Text × Text)
    (machineId : MachineBytes) :
    (db.ensureSequence row).selectAllocation key machineId = db.selectAllocation key machineId := by
  rw [selectAllocation, ensureSequence_allocations, selectAllocation]

/-- Under the lock the second lookup finds nothing. -/
theorem selectAllocation_of_unbound (h : Unbound db p call lastValue) :
    replay db call = .ok none :=
  replay_of_none h.width (selectAllocation_eq_none_iff.mpr h.unbound)

/-- What one call has created and locked is apart from what the others have. -/
structure Apart (i : Nat) (s s' : Server) : Prop where
  others : ∀ j, j ≠ i → s'.pending j = s.pending j
  created : ∀ j, j ≠ i → ∀ r ∈ (s'.pending i).created, ∀ r' ∈ (s.pending j).created,
    r.key ≠ r'.key ∧ r.owner ≠ r'.owner
  locked : ∀ j, j ≠ i → ∀ key ∈ (s'.pending i).locked, key ∉ (s.pending j).locked

/-- A step that creates and locks nothing keeps what is apart. -/
theorem Sound.apart_of_same (hs : Sound n s) (hothers : ∀ j, j ≠ i → s'.pending j = s.pending j)
    (hcreated : (s'.pending i).created = (s.pending i).created)
    (hlocked : (s'.pending i).locked = (s.pending i).locked) : Apart i s s' where
  others := hothers
  created j hj r hr r' hr' := hs.apart i j (Ne.symm hj) r (hcreated ▸ hr) r' hr'
  locked j hj key hkey hkey' := hj (hs.exclusive i j key (hlocked ▸ hkey) hkey').symm

/-- A call that has given everything back is apart from the others. -/
theorem apart_of_none (hothers : ∀ j, j ≠ i → s'.pending j = s.pending j)
    (hnone : s'.pending i = .none) : Apart i s s' where
  others := hothers
  created j _ r hr := by simp [hnone, Pending.none] at hr
  locked j _ key hkey := by simp [hnone, Pending.none] at hkey

/-- A step keeps the server sound. -/
theorem Sound.step (hs : Sound n s) (hi : i < n) (h : Apart i s s')
    (hconsistent : s'.committed.Consistent)
    (hchecked : ∀ r ∈ s'.committed.allocations, allocationChecks r = true) : Sound n s' where
  consistent := hconsistent
  checked := hchecked
  apart a b hab r hr r' hr' := by
    by_cases ha : a = i
    · subst ha
      rw [h.others b (Ne.symm hab)] at hr'
      exact h.created b (Ne.symm hab) r hr r' hr'
    · rw [h.others a ha] at hr
      by_cases hb : b = i
      · subst hb
        obtain ⟨hkey, howner⟩ := h.created a ha r' hr' r hr
        exact ⟨Ne.symm hkey, Ne.symm howner⟩
      · rw [h.others b hb] at hr'
        exact hs.apart a b hab r hr r' hr'
  exclusive a b key ha hb := by
    by_cases hai : a = i
    · subst hai
      by_contra hab
      rw [h.others b (Ne.symm hab)] at hb
      exact h.locked b (Ne.symm hab) key ha hb
    · rw [h.others a hai] at ha
      by_cases hbi : b = i
      · subst hbi
        exact absurd ha (h.locked a hai key hb)
      · rw [h.others b hbi] at hb
        exact hs.exclusive a b key ha hb
  unstarted j hj := by
    rw [h.others j (by omega)]
    exact hs.unstarted j hj

/-- A statement that leaves the committed tables as they are, and its call with
what the next phase knows. -/
structure Advances (i : Nat) (s s' : Server) (call : AllocateCall) (phase : Phase) : Prop where
  running : outcome ⟨call, phase⟩ = none
  committed : s'.committed = s.committed
  apart : Apart i s s'
  fits : Fits s'.committed (s'.pending i) call phase

/-- A statement without effect leaves the server sound. -/
theorem Sound.advances (hs : Sound n s) (hrunning : outcome ⟨call, phase⟩ = none)
    (h : Fits s.committed (s.pending i) call phase) : Advances i s s call phase :=
  ⟨hrunning, rfl, hs.apart_of_same (fun _ _ => rfl) rfl rfl, h⟩

/-- The first lookup: it finds the row, or the counter row is inserted next. -/
theorem replaying_advances (hs : Sound n s) (hp : s.pending i = .none)
    (hexec : execute i s call .replaying = some (.ok (s', phase'))) :
    Advances i s s' call phase' := by
  simp only [execute, Server.viewOf, Pending.applyTo_eq hp, Option.some.injEq] at hexec
  obtain ⟨found, hreplay, hfound⟩ := bind_eq_ok_iff.mp hexec
  cases found with
  | none =>
      cases pure_eq_ok_iff.mp hfound
      exact hs.advances rfl (.creating hp (widthInRange_of_replay hreplay))
  | some sequence =>
      cases pure_eq_ok_iff.mp hfound
      refine hs.advances rfl (.replayed sequence (replays_of_replay hreplay) ?_ ?_ ?_) <;>
        simp [hp, Pending.none]

/-- The insert of the counter row, or the row that stands in its way. -/
theorem creating_advances (hs : Sound n s) (hp : s.pending i = .none) (hwidth : call.widthInRange)
    (hexec : execute i s call .creating = some (.ok (s', phase'))) :
    Advances i s s' call phase' := by
  simp only [execute, Server.viewOf, Pending.applyTo_eq hp] at hexec
  split at hexec
  · cases hexec
  rename_i hchecks
  rw [Bool.not_eq_false] at hchecks
  split at hexec
  · rename_i hconflicts
    cases hexec
    refine hs.advances rfl (.locking ⟨hwidth, hchecks, .inl ⟨?_, hconflicts⟩⟩ ?_ ?_ ?_) <;>
      simp [hp, Pending.none]
  rename_i hfresh
  rw [Bool.not_eq_true] at hfresh
  split at hexec
  · cases hexec
  rename_i hflight
  rw [Bool.not_eq_true] at hflight
  cases hexec
  have hself : (s.create i (call.counter 0)).pending i = ⟨[call.counter 0], [], [], []⟩ := by
    rw [Server.pending_create_self, hp]
    rfl
  refine ⟨rfl, rfl, ⟨fun j hj => Server.pending_create_ne hj _, ?_, ?_⟩, ?_⟩
  · intro j hj r hr r' hr'
    rw [hself] at hr
    obtain rfl := List.mem_singleton.mp hr
    obtain ⟨hkey, howner⟩ := Server.of_inFlight_sequenceConflicts hflight hj r' hr'
    exact ⟨Ne.symm hkey, Ne.symm howner⟩
  · intro j hj key hkey
    simp [hself] at hkey
  · rw [hself]
    exact .locking ⟨hwidth, hchecks, .inr ⟨rfl, hfresh⟩⟩ rfl rfl rfl

/-- The lock of the counter row, taken or waited for. -/
theorem locking_advances (hs : Sound n s) (h : Ensured s.committed (s.pending i) call)
    (hl : (s.pending i).locked = []) (hu : (s.pending i).updated = [])
    (hr : (s.pending i).recorded = [])
    (hexec : execute i s call .locking = some (.ok (s', phase'))) :
    Advances i s s' call phase' := by
  simp only [execute] at hexec
  split at hexec
  · cases hexec
  · cases hexec
    exact hs.advances rfl (.waiting h hl hu hr)

/-- A call that waits takes the lock once it is free. -/
theorem waiting_advances (hs : Sound n s) (h : Ensured s.committed (s.pending i) call)
    (hl : (s.pending i).locked = []) (hu : (s.pending i).updated = [])
    (hr : (s.pending i).recorded = [])
    (hexec : execute i s call .waiting = some (.ok (s', phase'))) :
    Advances i s s' call phase' := by
  simp only [execute, Server.viewOf, h.applyTo hu hr] at hexec
  split at hexec
  · cases hexec
  rename_i hfree
  obtain ⟨lastValue, hlock, hret⟩ := bind_eq_ok_iff.mp (Option.some.inj hexec)
  cases pure_eq_ok_iff.mp hret
  have hself : (s.lock i call.key).pending i = { s.pending i with locked := [call.key] } := by
    rw [Server.pending_lock_self, hl]
    rfl
  refine ⟨rfl, rfl, ⟨fun j hj => Server.pending_lock_ne hj, ?_, ?_⟩, ?_⟩
  · intro j hj r hmem r' hmem'
    rw [hself] at hmem
    exact hs.apart i j (Ne.symm hj) r hmem r' hmem'
  · intro j hj key hkey
    rw [hself] at hkey
    rw [List.mem_singleton.mp hkey]
    exact Server.not_mem_locked hfree hj
  · rw [hself]
    have hcounter := (selectSequence_facts (selectSequence_of_lockSequence hlock)).1
    exact .rechecking lastValue ⟨⟨h.width, h.checks, h.created⟩, rfl, hcounter⟩ hu hr

/-- The second lookup, under the lock. -/
theorem rechecking_advances (hs : Sound n s)
    (h : Counting s.committed (s.pending i) call lastValue) (hu : (s.pending i).updated = [])
    (hr : (s.pending i).recorded = [])
    (hexec : execute i s call (.rechecking lastValue) = some (.ok (s', phase'))) :
    Advances i s s' call phase' := by
  simp only [execute, Server.viewOf, h.applyTo hu hr, selectAllocation_ensureSequence] at hexec
  split at hexec
  · rename_i existing hselect
    cases hexec
    have hreplays := h.replays hs.consistent hselect
    exact hs.advances rfl (.replayed _ hreplays (h.created_eq_nil hs.consistent hreplays) hu hr)
  · rename_i hselect
    cases hexec
    exact hs.advances rfl (.updating lastValue ⟨h, selectAllocation_eq_none_iff.mp hselect⟩ hu hr)

/-- The update of the counter row, if the width has room. -/
theorem updating_advances (hs : Sound n s)
    (h : Unbound s.committed (s.pending i) call lastValue) (hu : (s.pending i).updated = [])
    (hr : (s.pending i).recorded = [])
    (hexec : execute i s call (.updating lastValue) = some (.ok (s', phase'))) :
    Advances i s s' call phase' := by
  simp only [execute, Option.some.injEq] at hexec
  obtain ⟨_, hroom, hexec⟩ := bind_eq_ok_iff.mp hexec
  obtain ⟨_, -, hret⟩ := bind_eq_ok_iff.mp hexec
  cases pure_eq_ok_iff.mp hret
  have hself : (s.update i call.key (lastValue + 1)).pending i =
      { s.pending i with updated := [(call.key, lastValue + 1)] } := by
    rw [Server.pending_update_self, hu]
    rfl
  refine ⟨rfl, rfl, hs.apart_of_same (fun j hj => Server.pending_update_ne hj) (by rw [hself])
    (by rw [hself]), ?_⟩
  rw [hself]
  exact .recording lastValue ⟨⟨⟨h.width, h.checks, h.created⟩, h.locked, h.counter⟩, h.unbound⟩
    (ensure_eq_ok_iff.mp hroom) rfl hr

/-- The insert of the allocation, which the serial law admits under the lock. -/
theorem recording_advances (hs : Sound n s)
    (h : Unbound s.committed (s.pending i) call lastValue)
    (hroom : lastValue < maximumValue call.width)
    (hu : (s.pending i).updated = [(call.key, lastValue + 1)]) (hr : (s.pending i).recorded = [])
    (hexec : execute i s call (.recording (lastValue + 1)) = some (.ok (s', phase'))) :
    Advances i s s' call phase' := by
  simp only [execute] at hexec
  split at hexec
  · cases hexec
  split at hexec
  · cases hexec
  cases hexec
  have hself : (s.record i (call.allocation (lastValue + 1))).pending i =
      { s.pending i with recorded := [call.allocation (lastValue + 1)] } := by
    rw [Server.pending_record_self, hr]
    rfl
  refine ⟨rfl, rfl, hs.apart_of_same (fun j hj => Server.pending_record_ne hj _) (by rw [hself])
    (by rw [hself]), ?_⟩
  rw [hself]
  exact .recorded lastValue ⟨⟨⟨h.width, h.checks, h.created⟩, h.locked, h.counter⟩, h.unbound⟩
    hroom hu rfl

/-! ## the commit -/

/-- **Commit**: the tables become what the call would have made of them had it
run alone, and the others keep what they know. -/
theorem returning_commits (hs : Sound n s) {sequence : Nat}
    (h : Fits s.committed (s.pending i) call (.returning sequence)) :
    allocateSequence s.committed call = .ok (sequence, (s.commit i).committed) ∧
      (s.commit i).committed.Consistent ∧
      (∀ r ∈ (s.commit i).committed.allocations, allocationChecks r = true) ∧
      Replays (s.commit i).committed call sequence ∧
      ∀ j, j ≠ i → Keeps s.committed (s.commit i).committed (s.pending j) := by
  cases h with
  | recorded lastValue h hroom hu hr =>
      have hcommitted : (s.commit i).committed =
          (s.committed.ensureSequence (call.counter 0)).record (call.counter lastValue)
            call.machineId := h.applyTo_recorded hu hr
      have hunbound : call.machineId ∉
          (s.committed.ensureSequence (call.counter 0)).ledgerOf (call.counter lastValue).key := by
        rw [ensureSequence_ledgerOf]
        exact h.unbound
      rw [hcommitted]
      refine ⟨?_, ?_, ?_, ?_, ?_⟩
      · exact allocateSequence_of_room (selectAllocation_of_unbound h) h.checks
          (lockSequence_counter h.width (h.selectSequence hs.consistent)) h.unbound hs.consistent
          hroom
      · exact (hs.consistent.ensureSequence rfl).record h.counter hroom hunbound
      · intro r hr
        rw [record_allocations, ensureSequence_allocations] at hr
        rcases List.mem_append.mp hr with hr | hr
        · exact hs.checked r hr
        · rw [List.mem_singleton.mp hr]
          exact allocationChecks_allocation h.checks (lastValue + 1)
      · exact ⟨h.width, call.allocation (lastValue + 1), by simp [AllocateCall.allocation_succ], rfl,
          AllocateCall.hasPolicy_counter h.width 0, rfl⟩
      · intro j hj
        refine keeps_record h.toEnsured (hs.apart i j (Ne.symm hj)) fun hlock => hj ?_
        exact (hs.exclusive i j call.key (by simp [h.locked]) hlock).symm
  | replayed _ h hc hu hr =>
      have hcommitted : (s.commit i).committed = s.committed := applyTo_none hc hu hr
      rw [hcommitted]
      exact ⟨allocateSequence_of_replay (h.replay hs.consistent), hs.consistent, hs.checked, h,
        fun j _ => .refl s.committed (s.pending j)⟩

/-! ## errors -/

/-- A call that is refused a counter would be refused it alone. -/
theorem lock_refused (hdb : db.Consistent) (h : Ensured db p call) {error : PgError}
    (hlock : lockSequence (db.ensureSequence (call.counter 0)) call = .error error) :
    allocateSequence db call = .error error ∨
      allocateSequence db call = .error replayPolicyMismatch := by
  cases hselect : db.selectAllocation call.key call.machineId with
  | none => exact .inl (allocateSequence_of_definition (replay_of_none h.width hselect) h.checks hlock)
  | some r =>
      refine .inr (allocateSequence_of_mismatch h.width hselect fun hpolicy => ?_)
      -- the counter of the row has the policy of the row
      obtain ⟨hrow, -⟩ := selectAllocation_facts hselect
      obtain ⟨hmem, hkey⟩ := mem_rowsOf.mp hrow
      obtain ⟨c, hc, hckey, hcpre, hcwidth⟩ := hdb.policy r hmem
      have hdb' : (db.ensureSequence (call.counter 0)).Consistent := hdb.ensureSequence rfl
      have hstate := hdb'.selectSequence_eq (subset_ensureSequence _ c hc) (hckey.trans hkey)
      rw [lockSequence_of_some hstate, hcpre, hcwidth, if_pos hpolicy] at hlock
      contradiction

/-- A policy that is refused would be refused to the call alone. -/
theorem check_refused (hchecked : ∀ r ∈ db.allocations, allocationChecks r = true)
    (hwidth : call.widthInRange) (hchecks : ¬ sequenceChecks (call.counter 0) = true) :
    allocateSequence db call = .error checkViolation ∨
      allocateSequence db call = .error replayPolicyMismatch := by
  cases hselect : db.selectAllocation call.key call.machineId with
  | none => exact .inl (allocateSequence_of_unchecked (replay_of_none hwidth hselect) hchecks)
  | some r =>
      refine .inr (allocateSequence_of_mismatch hwidth hselect fun hpolicy => hchecks ?_)
      obtain ⟨hrow, -⟩ := selectAllocation_facts hselect
      obtain ⟨hmem, hkey⟩ := mem_rowsOf.mp hrow
      exact sequenceChecks_of_allocation (hchecked r hmem) hkey hpolicy

/-- **Errors**: no call fails with a unique violation, and a call that fails would
fail alone. -/
theorem execute_refused (hs : Sound n s) (h : Fits s.committed (s.pending i) call phase)
    {error : PgError} (hexec : execute i s call phase = some (.error error)) :
    error.errcode ≠ uniqueViolation.errcode ∧ (allocateSequence s.committed call = .error error ∨
      allocateSequence s.committed call = .error replayPolicyMismatch) := by
  cases h with
  | replaying hp =>
      -- alone the function begins with the same lookup
      simp only [execute, Server.viewOf, Pending.applyTo_eq hp, Option.some.injEq] at hexec
      cases hreplay : replay s.committed call with
      | ok found =>
          rw [hreplay, ok_bind] at hexec
          cases found <;> cases hexec
      | error e =>
          rw [hreplay, error_bind] at hexec
          cases hexec
          refine ⟨?_, .inl (allocateSequence_of_replay_error hreplay)⟩
          rcases replay_error hreplay with rfl | rfl <;> decide
  | creating hp hwidth =>
      -- only the `CHECK`s of the counter row refuse; a row in the way is no error
      simp only [execute] at hexec
      split at hexec
      · rename_i hchecks
        cases hexec
        exact ⟨by decide, check_refused hs.checked hwidth (by simp [hchecks])⟩
      · split at hexec
        · cases hexec
        · split at hexec <;> cases hexec
  | locking h hl hu hr =>
      -- no row to lock: another namespace has the prefix
      simp only [execute, Server.viewOf, h.applyTo hu hr] at hexec
      split at hexec
      · rename_i hnone
        cases hexec
        exact ⟨by decide, lock_refused hs.consistent h (lockSequence_of_none hnone)⟩
      · cases hexec
  | waiting h hl hu hr =>
      -- the row under the lock has another policy
      simp only [execute, Server.viewOf, h.applyTo hu hr] at hexec
      split at hexec
      · cases hexec
      · cases hlock : lockSequence (s.committed.ensureSequence (call.counter 0)) call with
        | ok lastValue =>
            rw [hlock, ok_bind] at hexec
            cases hexec
        | error e =>
            rw [hlock, error_bind] at hexec
            cases hexec
            exact ⟨by rw [lockSequence_error hlock]; decide, lock_refused hs.consistent h hlock⟩
  | rechecking lastValue h hu hr =>
      -- the second lookup finds a row or goes on, and refuses nothing
      simp only [execute] at hexec
      split at hexec <;> cases hexec
  | updating lastValue h hu hr =>
      have hcounter := h.selectSequence hs.consistent
      by_cases hroom : lastValue < maximumValue call.width
      · -- the update passes the check of its row
        have hupdate := updateSequence_counter h.checks hcounter (lt_of_lt_maximumValue hroom)
        simp only [execute, Server.viewOf, h.applyTo hu hr, ensure_of hroom, ok_bind,
          hupdate] at hexec
        cases hexec
      · simp only [execute, ensure_of_not hroom, error_bind] at hexec
        cases hexec
        exact ⟨by decide, .inl (allocateSequence_of_full (selectAllocation_of_unbound h) h.checks
          (lockSequence_counter h.width hcounter) h.unbound hroom)⟩
  | recording lastValue h hroom hu hr =>
      -- the number is new, and so is the machine identifier
      have hinsert := insertAllocation_next (hs.consistent.ensureSequence rfl) h.checks h.counter
        (by rw [ensureSequence_ledgerOf]; exact h.unbound) (lastValue + 1)
      simp only [execute, Server.viewOf, h.applyTo_updated hu hr, hinsert] at hexec
      split at hexec <;> cases hexec
  | recorded => simp [execute] at hexec
  | replayed => simp [execute] at hexec
  | returned => simp [execute] at hexec
  | failed => simp [execute] at hexec
  | aborted => simp [execute] at hexec

/-! ## steps -/

/-- What is known of a call. -/
def Knows (i : Nat) (s : Server) (t : Session) : Prop :=
  Fits s.committed (s.pending i) t.call t.phase

/-- What a step of a call does to the others and to the committed tables. -/
structure Effect (n i : Nat) (s s' : Server) (t' : Session) : Prop where
  sound : Sound n s'
  knows : Knows i s' t'
  others : ∀ j, j ≠ i → s'.pending j = s.pending j
  keeps : ∀ j, j ≠ i → Keeps s.committed s'.committed (s.pending j)
  serial : TakesEffect outcome Server.committed Serial i s s' t'

/-- What one step does. -/
theorem step_cases {t t' : Session} {b : Input} (h : step i s t b = some (s', t')) :
    s' = s.rollback i ∧ (t' = ⟨t.call, .done .aborted⟩ ∨
        ∃ error, t' = ⟨t.call, .done (.failed error)⟩ ∧
          execute i s t.call t.phase = some (.error error)) ∨
      ∃ phase', t' = ⟨t.call, phase'⟩ ∧ execute i s t.call t.phase = some (.ok (s', phase')) := by
  cases b with
  | abort =>
      simp only [step] at h
      split at h
      · cases h
      · cases h
        exact .inl ⟨rfl, .inl rfl⟩
  | proceed =>
      obtain ⟨result, hexec, hresult⟩ := Option.map_eq_some_iff.mp h
      cases result with
      | error error =>
          cases hresult
          exact .inl ⟨rfl, .inr ⟨error, rfl, hexec⟩⟩
      | ok next =>
          cases hresult
          exact .inr ⟨_, rfl, hexec⟩

/-- A statement that succeeds is the `COMMIT`, or leaves the committed tables as they
are. -/
theorem execute_ok (hs : Sound n s) (h : Fits s.committed (s.pending i) call phase)
    (hexec : execute i s call phase = some (.ok (s', phase'))) :
    (∃ sequence, phase = .returning sequence ∧ s' = s.commit i ∧
        phase' = .done (.returned sequence)) ∨ Advances i s s' call phase' := by
  cases h with
  | replaying hp => exact .inr (replaying_advances hs hp hexec)
  | creating hp hwidth => exact .inr (creating_advances hs hp hwidth hexec)
  | locking h hl hu hr => exact .inr (locking_advances hs h hl hu hr hexec)
  | waiting h hl hu hr => exact .inr (waiting_advances hs h hl hu hr hexec)
  | rechecking lastValue h hu hr => exact .inr (rechecking_advances hs h hu hr hexec)
  | updating lastValue h hu hr => exact .inr (updating_advances hs h hu hr hexec)
  | recording lastValue h hroom hu hr => exact .inr (recording_advances hs h hroom hu hr hexec)
  | recorded lastValue =>
      cases hexec
      exact .inl ⟨_, rfl, rfl, rfl⟩
  | replayed sequence =>
      cases hexec
      exact .inl ⟨_, rfl, rfl, rfl⟩
  | returned => simp [execute] at hexec
  | failed => simp [execute] at hexec
  | aborted => simp [execute] at hexec

/-- A transaction that is rolled back leaves no trace. -/
theorem Sound.rollback (hs : Sound n s) (hi : i < n) : Sound n (s.rollback i) :=
  hs.step hi (apart_of_none (fun _ hj => Server.pending_rollback_ne hj) Server.pending_rollback_self)
    hs.consistent hs.checked

/-- **Steps**: every step of a call has its effect. -/
theorem step_effect (hs : Sound n s) (hi : i < n) {t t' : Session} {b : Input} (h : Knows i s t)
    (hstep : step i s t b = some (s', t')) : Effect n i s s' t' := by
  rcases step_cases hstep with ⟨rfl, hresult⟩ | ⟨phase', rfl, hexec⟩
  · have hothers : ∀ j, j ≠ i → (s.rollback i).pending j = s.pending j :=
      fun _ hj => Server.pending_rollback_ne hj
    have hkeeps : ∀ j, j ≠ i → Keeps s.committed (s.rollback i).committed (s.pending j) :=
      fun j _ => .refl s.committed (s.pending j)
    rcases hresult with rfl | ⟨error, rfl, hexec⟩
    · exact ⟨hs.rollback hi, .aborted Server.pending_rollback_self, hothers, hkeeps, rfl⟩
    · obtain ⟨hunique, hserial⟩ := execute_refused hs h hexec
      refine ⟨hs.rollback hi, .failed error Server.pending_rollback_self hunique, hothers, hkeeps,
        rfl, ?_⟩
      rcases hserial with hserial | hserial
      · exact ⟨error, hserial, .inl rfl⟩
      · exact ⟨replayPolicyMismatch, hserial, .inr rfl⟩
  · rcases execute_ok hs h hexec with ⟨sequence, hphase, rfl, rfl⟩ | hadvances
    · rw [Knows, hphase] at h
      obtain ⟨hserial, hconsistent, hchecked, hreplays, hkeeps⟩ := returning_commits hs h
      have hothers : ∀ j, j ≠ i → (s.commit i).pending j = s.pending j :=
        fun _ hj => Server.pending_commit_ne hj
      exact ⟨hs.step hi (apart_of_none hothers Server.pending_commit_self) hconsistent hchecked,
        .returned sequence Server.pending_commit_self hreplays, hothers, hkeeps, hserial⟩
    · refine ⟨hs.step hi hadvances.apart (hadvances.committed ▸ hs.consistent)
        (hadvances.committed ▸ hs.checked), hadvances.fits, hadvances.apart.others, ?_, ?_⟩
      · intro j _
        rw [hadvances.committed]
        exact .refl s.committed (s.pending j)
      · rw [TakesEffect, hadvances.running]
        exact hadvances.committed

/-- A new call knows nothing yet. -/
theorem knows_start (hs : Sound n s) (call : AllocateCall) :
    Sound (n + 1) s ∧ Knows n s (sessions.start call) :=
  ⟨{ hs with unstarted := fun i hi => hs.unstarted i (by omega) },
    .replaying (hs.unstarted n (Nat.le_refl n))⟩

theorem knows_step {t t' : Session} {b : Input} (hi : i < n) (hs : Sound n s) (h : Knows i s t)
    (hstep : sessions.step i s t b = some (s', t')) :
    (Sound n s' ∧ Knows i s' t') ∧ ∀ j u, j ≠ i → j < n → Knows j s u → Knows j s' u := by
  have heffect := step_effect hs hi h hstep
  refine ⟨⟨heffect.sound, heffect.knows⟩, fun j u hj _ hu => ?_⟩
  rw [Knows, heffect.others j hj]
  exact hu.keeps (heffect.keeps j hj)

end Steps

/-! ## runs -/

variable {labels : List (Label AllocateCall Input)} {c : Config Server Session}

/-- A server without calls is sound. -/
theorem sound_initial : Sound 0 .initial where
  consistent := consistent_empty
  checked := by simp [Server.initial, Database.empty]
  apart := by simp [Server.initial, Server.pending]
  exclusive := by simp [Server.initial, Server.pending]
  unstarted _ _ := rfl

/-- The invariants hold before the first call. -/
theorem holds_initial : Holds Sound Knows (.initial .initial) :=
  ⟨sound_initial, by simp [Config.initial]⟩

/-- **Runs**: the server stays sound, and every call knows what it should. -/
theorem holds_run (hrun : sessions.Runs (.initial .initial) labels c) : Holds Sound Knows c :=
  Holds.run (fun _ _ call hs => knows_start hs call) (fun _ _ _ _ _ _ _ => knows_step) hrun
    holds_initial

/-- **Linearizability** of `identifold_allocate_sequence`, for any number of calls in any
order of their statements, with aborts:

* the calls, in the order they complete, are calls of the serial function that
  lead to the committed tables;
* calls for one machine identifier in one counter return one value;
* no call fails with a unique violation;
* the committed values of a counter are `1, ..., last_value`, for distinct
  machine identifiers. -/
theorem allocateSequence_linearizable (hrun : sessions.Runs (.initial .initial) labels c) :
    Run Serial .empty (completions sessions outcome (.initial .initial) labels)
        c.shared.committed ∧
      Completes outcome c (completions sessions outcome (.initial .initial) labels) ∧
      (∀ (i j : Nat) call call' n m, c.threads[i]? = some ⟨call, .done (.returned n)⟩ →
        c.threads[j]? = some ⟨call', .done (.returned m)⟩ → call.key = call'.key →
        call.machineId = call'.machineId → n = m) ∧
      (∀ (i : Nat) call error, c.threads[i]? = some ⟨call, .done (.failed error)⟩ →
        error.errcode ≠ uniqueViolation.errcode) ∧
      ∀ key, (c.shared.committed.rowsOf key).map (·.sequence) =
          List.range' 1 (c.shared.committed.lastValueOf key) ∧
        (c.shared.committed.ledgerOf key).Nodup := by
  obtain ⟨hsound, hknows⟩ := holds_run hrun
  refine ⟨?_, ?_, ?_, ?_, hsound.consistent.map_sequence⟩
  · have hserial := serial (I := Sound) (T := Knows) (fun _ _ call hs => knows_start hs call)
      (fun _ _ _ _ _ _ _ => knows_step)
      (fun _ _ _ _ _ _ _ hi hs h hstep => (step_effect hs hi h hstep).serial) holds_initial hrun
    exact hserial
  · refine completes_completions (fun _ => rfl) (fun i s t b hdone => ?_) hrun
    cases ht : t.phase <;> simp [outcome, ht] at hdone
    cases b <;> simp [sessions, step, execute, ht]
  · intro i j call call' n m hi hj hkey hid
    cases hknows i _ hi with
    | returned _ _ h =>
        cases hknows j _ hj with
        | returned _ _ h' =>
            obtain ⟨-, r, hr, hrkey, -, rfl⟩ := h
            obtain ⟨-, r', hr', hrkey', -, rfl⟩ := h'
            rw [← hkey, ← hid] at hrkey'
            rw [hsound.consistent.eq_of_machineKey hr hr' (hrkey.trans hrkey'.symm)]
  · intro i call error hi
    cases hknows i _ hi with
    | failed _ _ hunique => exact hunique

/-- Four calls for one counter and one for its prefix in another namespace: the
call that creates the counter row is aborted while others wait for it, and the
last call finds the value of the second at its second lookup. -/
theorem allocateSequence_linearizable_sample :
    let call : AllocateCall :=
      ⟨[1, 159], "order".toList, "ORD".toList, some "2026".toList, 4⟩
    let rival : AllocateCall := { call with namespaceName := "orders".toList }
    let other : AllocateCall := { call with machineId := [1, 160] }
    let proceed (i : Nat) : Label AllocateCall Input := .step i .proceed
    let labels := [.start call, .start call, .start rival, .start other, .start call,
      proceed 0, proceed 1, proceed 2, proceed 4, proceed 0, .step 0 .abort, proceed 1, proceed 1,
      proceed 1, proceed 1, proceed 1, proceed 1, proceed 1, proceed 2, proceed 2, proceed 4,
      proceed 3, proceed 3, proceed 3, proceed 3, proceed 4, proceed 3, proceed 3, proceed 3,
      proceed 3, proceed 4, proceed 4, proceed 4]
    ∃ c, sessions.Runs (.initial .initial) labels c ∧
      c.threads = [⟨call, .done .aborted⟩, ⟨call, .done (.returned 1)⟩,
        ⟨rival, .done (.failed definitionMismatch)⟩, ⟨other, .done (.returned 2)⟩,
        ⟨call, .done (.returned 1)⟩] ∧
      Run Serial .empty (completions sessions outcome (.initial .initial) labels)
        c.shared.committed := by
  intro call rival other proceed labels
  have hlabels : (labels.foldlM sessions.next (.initial .initial)).map (·.threads) =
      some [⟨call, .done .aborted⟩, ⟨call, .done (.returned 1)⟩,
        ⟨rival, .done (.failed definitionMismatch)⟩, ⟨other, .done (.returned 2)⟩,
        ⟨call, .done (.returned 1)⟩] := by decide
  obtain ⟨c, hc, hthreads⟩ := Option.map_eq_some_iff.mp hlabels
  have hrun := Run.of_foldlM hc
  exact ⟨c, hrun, hthreads, (allocateSequence_linearizable hrun).1⟩

end Postgres

end Identifold
