import Identifold.Lib.Run
import Identifold.Storage.PostgresFunction

/-!
# Identifold.Storage.PostgresMigration

The two bodies of `identifold_allocate_sequence`: the one of
`001_identifold.up.sql`, which `003_idempotent_replay.down.sql` puts back, and
the one of `003_idempotent_replay.up.sql`.

The first folds the policy, the overflow test and the increment into one
conditional `UPDATE`; the second reads the counter row, branches and writes.
For a machine identifier that is not bound they answer alike and leave the same
tables, so in a run of such requests it is not seen when, and how often, the
function is replaced.

* `allocateSequence_cases` — the two bodies on an unbound machine identifier;
* `respond_eq`, `serve_eq_play` — one answer, and a whole run.
-/

namespace Identifold.Postgres

open Rows Transition

/-! ## the function of migration 001 -/

namespace Initial

def overflowOrMismatch : PgError := ⟨"22003", "sequence_overflow_or_definition_mismatch"⟩

/-- The `WHERE` of the `UPDATE`. -/
def IsOpen (call : AllocateCall) (r : SequenceRow) : Prop :=
  r.key = call.key ∧ call.hasPolicy r.refPrefix r.width ∧ r.lastValue < maximumValue call.width

instance decidableIsOpen (call : AllocateCall) : DecidablePred (IsOpen call) :=
  fun _ => inferInstanceAs (Decidable (_ ∧ _ ∧ _))

/-- `SET last_value = last_value + 1`. -/
def increment (r : SequenceRow) : SequenceRow := { r with lastValue := r.lastValue + 1 }

/-- `UPDATE identifold_sequences ... RETURNING last_value INTO allocated`: null
where no row is updated.  The primary key leaves one row at most. -/
def incrementSequence (db : Database) (call : AllocateCall) :
    Except PgError (Option Nat × Database) := do
  ensure (∀ r ∈ db.sequences, IsOpen call r → sequenceChecks (increment r) = true) checkViolation
  return ((db.sequences.find? (IsOpen call ·)).map fun r => (increment r).lastValue,
    { db with sequences := db.sequences.map fun r => if IsOpen call r then increment r else r })

/-- `identifold_allocate_sequence`. -/
def allocateSequence (db : Database) (call : AllocateCall) : Except PgError (Nat × Database) := do
  ensure call.widthInRange invalidWidth
  let db ← insertSequence db (call.counter 0)
  let (allocated, db) ← incrementSequence db call
  match allocated with
  | none => throw overflowOrMismatch
  | some allocated =>
      let db ← insertAllocation db (call.allocation allocated)
      return (allocated, db)

/-! ## the conditional update -/

section Update

variable {db : Database} {call : AllocateCall} {lastValue : Nat}

theorem incrementSequence_of_closed (h : ∀ r ∈ db.sequences, ¬ IsOpen call r) :
    incrementSequence db call = .ok (none, db) := by
  have hfind : db.sequences.find? (fun r => decide (IsOpen call r)) = none :=
    List.find?_eq_none.mpr fun r hr => by simpa using h r hr
  have hmap : (db.sequences.map fun r => if IsOpen call r then increment r else r) =
      db.sequences.map id := List.map_congr_left fun r hr => if_neg (h r hr)
  rw [incrementSequence, ensure_of fun r hr hopen => absurd hopen (h r hr), ok_bind, hfind, hmap,
    List.map_id]
  rfl

/-- On the counter row of the call, the update is the one of migration 003. -/
theorem incrementSequence_counter (hkeys : UniqueOn SequenceRow.key db.sequences)
    (hchecks : sequenceChecks (call.counter 0) = true) (hwidth : call.widthInRange)
    (h : db.selectSequence call.key = some (call.counter lastValue))
    (hroom : lastValue < maximumValue call.width) :
    incrementSequence db call =
      .ok (some (lastValue + 1), db.setLastValue call.key (lastValue + 1)) := by
  obtain ⟨hmem, -⟩ := Database.selectSequence_facts h
  have hopen : IsOpen call (call.counter lastValue) :=
    ⟨rfl, AllocateCall.hasPolicy_counter hwidth lastValue, hroom⟩
  -- the primary key leaves no other row
  have honly : ∀ r ∈ db.sequences, r.key = call.key → r = call.counter lastValue :=
    fun r hr hkey => hkeys.eq hr hmem hkey
  have hfind : db.sequences.find? (fun r => decide (IsOpen call r)) =
      some (call.counter lastValue) := by
    rw [Rows.find?_eq_some_iff]
    · exact ⟨hmem, decide_eq_true hopen⟩
    · intro a ha b hb htest htest'
      rw [honly a ha (of_decide_eq_true htest).1, honly b hb (of_decide_eq_true htest').1]
  have hmap : (db.sequences.map fun r => if IsOpen call r then increment r else r) =
      db.sequences.map (SequenceRow.setLastValue call.key (lastValue + 1)) := by
    refine List.map_congr_left fun r hr => ?_
    by_cases hkey : r.key = call.key
    · rw [honly r hr hkey, if_pos hopen,
        SequenceRow.setLastValue_of_eq (AllocateCall.key_counter call lastValue)]
      rfl
    · rw [if_neg fun hopen => hkey hopen.1, SequenceRow.setLastValue_of_ne hkey]
  have hcheck : ∀ r ∈ db.sequences, IsOpen call r → sequenceChecks (increment r) = true := by
    intro r hr hopen
    rw [honly r hr hopen.1]
    exact sequenceChecks_counter hchecks (lt_of_lt_maximumValue hroom)
  rw [incrementSequence, ensure_of hcheck, ok_bind, hfind, hmap]
  rfl

end Update

end Initial

/-! ## the same answers -/

section Agree

variable {db : Database} {call : AllocateCall}

/-- A counter that migration 003 does not lock is not updated by 001. -/
theorem closed_of_lockSequence (hkeys : UniqueOn SequenceRow.key db.sequences) {error : PgError}
    (h : lockSequence db call = .error error) : ∀ r ∈ db.sequences, ¬ Initial.IsOpen call r := by
  rintro r hr ⟨hkey, hpolicy, -⟩
  have hselect : db.selectSequence call.key = some r := hkeys.find?_eq_some_iff.mpr ⟨hr, hkey⟩
  rw [lockSequence_of_some hselect, if_pos hpolicy] at h
  contradiction

theorem closed_of_full (hkeys : UniqueOn SequenceRow.key db.sequences) {lastValue : Nat}
    (h : db.selectSequence call.key = some (call.counter lastValue))
    (hfull : ¬ lastValue < maximumValue call.width) :
    ∀ r ∈ db.sequences, ¬ Initial.IsOpen call r := by
  rintro r hr ⟨hkey, -, hroom⟩
  have hsame := hkeys.eq hr (Database.selectSequence_facts h).1 hkey
  rw [hsame] at hroom
  exact hfull hroom

/-- A counter row is created under fresh keys. -/
theorem uniqueOn_ensureSequence (hkeys : UniqueOn SequenceRow.key db.sequences) (row : SequenceRow) :
    UniqueOn SequenceRow.key (db.ensureSequence row).sequences := by
  rcases Database.ensureSequence_cases db row with ⟨heq, -⟩ | ⟨heq, hfresh⟩ <;> rw [heq]
  · exact hkeys
  · exact hkeys.concat fun r hr => (Database.sequenceConflicts_eq_false_iff.mp hfresh r hr).1

/-- The answer and the tables after a request: a function that raises leaves
them as they were. -/
def respond (allocate : Database → AllocateCall → Except PgError (Nat × Database)) (db : Database)
    (call : AllocateCall) : Option Nat × Database :=
  match allocate db call with
  | .ok (sequence, db) => (some sequence, db)
  | .error _ => (none, db)

theorem respond_of_error {allocate : Database → AllocateCall → Except PgError (Nat × Database)}
    {error : PgError} (h : allocate db call = .error error) :
    respond allocate db call = (none, db) := by
  rw [respond, h]

/-- What both functions do for an unbound machine identifier: they raise, or
they raise the counter and insert the same row. -/
theorem allocateSequence_cases (hkeys : UniqueOn SequenceRow.key db.sequences)
    (hunbound : db.selectAllocation call.key call.machineId = none) :
    ((∃ error, Initial.allocateSequence db call = .error error) ∧
        ∃ error, allocateSequence db call = .error error) ∨
      ∃ lastValue result, result = (do
          let db ← insertAllocation ((db.ensureSequence (call.counter 0)).setLastValue call.key
            (lastValue + 1)) (call.allocation (lastValue + 1))
          return (lastValue + 1, db)) ∧
        Initial.allocateSequence db call = result ∧ allocateSequence db call = result := by
  by_cases hwidth : call.widthInRange
  · have hreplay := replay_of_none hwidth hunbound
    by_cases hchecks : sequenceChecks (call.counter 0) = true
    · have hinsert : insertSequence db (call.counter 0) = .ok (db.ensureSequence (call.counter 0)) :=
        insertSequence_of_checks hchecks
      have hledger : call.machineId ∉ db.ledgerOf call.key :=
        Database.selectAllocation_eq_none_iff.mp hunbound
      have hensured := uniqueOn_ensureSequence hkeys (call.counter 0)
      have hnone : (db.ensureSequence (call.counter 0)).selectAllocation call.key call.machineId =
          none := Database.selectAllocation_eq_none_iff.mpr (by rwa [Database.ensureSequence_ledgerOf])
      -- the first version updates a row that is open, and fails where none is
      have hclosed : (∀ r ∈ (db.ensureSequence (call.counter 0)).sequences,
          ¬ Initial.IsOpen call r) →
          Initial.allocateSequence db call = .error Initial.overflowOrMismatch := by
        intro h
        rw [Initial.allocateSequence, ensure_of hwidth, ok_bind, hinsert, ok_bind,
          Initial.incrementSequence_of_closed h]
        rfl
      -- the second reads the row and its policy first
      cases hlock : lockSequence (db.ensureSequence (call.counter 0)) call with
      | error error =>
          exact .inl ⟨⟨_, hclosed (closed_of_lockSequence hensured hlock)⟩,
            _, allocateSequence_of_definition hreplay hchecks hlock⟩
      | ok lastValue =>
          have hcounter := selectSequence_of_lockSequence hlock
          by_cases hroom : lastValue < maximumValue call.width
          · refine .inr ⟨lastValue, _, rfl, ?_, ?_⟩
            · rw [Initial.allocateSequence, ensure_of hwidth, ok_bind, hinsert, ok_bind,
                Initial.incrementSequence_counter hensured hchecks hwidth hcounter hroom]
              rfl
            · rw [allocateSequence, hreplay, ok_bind]
              simp only [hinsert, ok_bind, hlock, hnone, ensure_of hroom,
                updateSequence_counter hchecks hcounter (lt_of_lt_maximumValue hroom)]
          · exact .inl ⟨⟨_, hclosed (closed_of_full hensured hcounter hroom)⟩,
              _, allocateSequence_of_full hreplay hchecks hlock hledger hroom⟩
    · refine .inl ⟨⟨checkViolation, ?_⟩, _, allocateSequence_of_unchecked hreplay hchecks⟩
      rw [Initial.allocateSequence, ensure_of hwidth, ok_bind, insertSequence, ensure_of_not hchecks]
      rfl
  · refine .inl ⟨⟨invalidWidth, ?_⟩, invalidWidth, ?_⟩
    · rw [Initial.allocateSequence, ensure_of_not hwidth, error_bind]
    · refine allocateSequence_of_replay_error ?_
      rw [replay, ensure_of_not hwidth, error_bind]

/-- **Both functions answer alike** for an unbound machine identifier, and leave
the same tables. -/
theorem respond_eq (hkeys : UniqueOn SequenceRow.key db.sequences)
    (hunbound : db.selectAllocation call.key call.machineId = none) :
    respond Initial.allocateSequence db call = respond allocateSequence db call := by
  rcases allocateSequence_cases hkeys hunbound with
    ⟨⟨_, hinitial⟩, _, hreplaying⟩ | ⟨_, result, -, hinitial, hreplaying⟩
  · rw [respond_of_error hinitial, respond_of_error hreplaying]
  · rw [respond, respond, hinitial, hreplaying]

/-- What a request leaves of the tables: the counters still have their key, and
no other machine identifier is bound. -/
theorem respond_preserves (hkeys : UniqueOn SequenceRow.key db.sequences)
    (hunbound : db.selectAllocation call.key call.machineId = none) :
    UniqueOn SequenceRow.key (respond allocateSequence db call).2.sequences ∧
      ∀ other : AllocateCall, (other.key, other.machineId) ≠ (call.key, call.machineId) →
        db.selectAllocation other.key other.machineId = none →
          (respond allocateSequence db call).2.selectAllocation other.key other.machineId = none := by
  rcases allocateSequence_cases hkeys hunbound with
    ⟨-, _, hreplaying⟩ | ⟨lastValue, result, hresult, -, hreplaying⟩
  · rw [respond_of_error hreplaying]
    exact ⟨hkeys, fun _ _ h => h⟩
  · cases result with
    | error error =>
        rw [respond_of_error hreplaying]
        exact ⟨hkeys, fun _ _ h => h⟩
    | ok result =>
        obtain ⟨sequence, db'⟩ := result
        obtain ⟨db'', hinsert, hreturn⟩ := bind_eq_ok_iff.mp hresult.symm
        obtain ⟨-, rfl⟩ := Prod.mk.inj (Except.ok.inj hreturn)
        simp only [insertAllocation, bind_eq_ok_iff, ensure_eq_ok_iff, pure_eq_ok_iff] at hinsert
        obtain ⟨_, -, _, -, rfl⟩ := hinsert
        rw [respond, hreplaying]
        refine ⟨(uniqueOn_ensureSequence hkeys (call.counter 0)).map fun r =>
          (r.setLastValue_frame call.key (lastValue + 1)).1, fun other hother h => ?_⟩
        have hrow : (call.allocation (lastValue + 1)).machineKey ≠ (other.key, other.machineId) :=
          fun heq => hother heq.symm
        change (((db.ensureSequence (call.counter 0)).setLastValue call.key
          (lastValue + 1)).allocations ++ [call.allocation (lastValue + 1)]).find? _ = none
        rw [List.find?_append, Option.or_eq_none_iff]
        refine ⟨?_, by simpa using hrow⟩
        change (db.ensureSequence (call.counter 0)).allocations.find? _ = none
        rw [Database.ensureSequence_allocations]
        exact h

end Agree

/-! ## runs with migrations -/

/-- The body of the function that is installed. -/
inductive Version
  | initial
  | idempotentReplay
  deriving DecidableEq, Repr

/-- What it does. -/
def Version.allocate : Version → Database → AllocateCall → Except PgError (Nat × Database)
  | .initial => Initial.allocateSequence
  | .idempotentReplay => allocateSequence

/-- An event of a deployment: migration 003 up, down, or a request. -/
inductive Event
  | up
  | down
  | request (call : AllocateCall)
  deriving DecidableEq, Repr

/-- The requests of a run. -/
def requests : List Event → List AllocateCall
  | [] => []
  | .up :: events => requests events
  | .down :: events => requests events
  | .request call :: events => call :: requests events

/-- The run of a deployment: its requests with their answers, and the tables
they leave.  A migration replaces the function and touches no table. -/
def serve : Version → Database → List Event → List (AllocateCall × Option Nat) × Database
  | _, db, [] => ([], db)
  | _, db, .up :: events => serve .idempotentReplay db events
  | _, db, .down :: events => serve .initial db events
  | version, db, .request call :: events =>
      let (answer, db) := respond version.allocate db call
      let (answers, db) := serve version db events
      ((call, answer) :: answers, db)

/-- A version answers as migration 003's does. -/
theorem respond_version (version : Version) {db : Database} {call : AllocateCall}
    (hkeys : UniqueOn SequenceRow.key db.sequences)
    (hunbound : db.selectAllocation call.key call.machineId = none) :
    respond version.allocate db call = respond allocateSequence db call := by
  cases version with
  | initial => exact respond_eq hkeys hunbound
  | idempotentReplay => rfl

/-- **A run is not changed by migrations**: with pairwise distinct machine
identifiers that are not bound before, it answers as one of migration 003's
function alone. -/
theorem serve_eq_play {events : List Event} {db : Database}
    (hkeys : UniqueOn SequenceRow.key db.sequences)
    (hdistinct : ((requests events).map fun call => (call.key, call.machineId)).Nodup)
    (hunbound : ∀ call ∈ requests events, db.selectAllocation call.key call.machineId = none)
    (version : Version) :
    serve version db events = play (respond allocateSequence) db (requests events) := by
  induction events generalizing db version with
  | nil => rfl
  | cons event events ih =>
      cases event with
      | up => exact ih hkeys hdistinct hunbound _
      | down => exact ih hkeys hdistinct hunbound _
      | request call =>
          rw [requests, List.map_cons, List.nodup_cons] at hdistinct
          have hcall := hunbound call List.mem_cons_self
          obtain ⟨hkeys', hothers⟩ := respond_preserves hkeys hcall
          have hrest : ∀ other ∈ requests events,
              (respond allocateSequence db call).2.selectAllocation other.key other.machineId =
                none := by
            intro other hother
            refine hothers other (fun heq => hdistinct.1 ?_)
              (hunbound other (List.mem_cons_of_mem _ hother))
            rw [← heq]
            exact List.mem_map_of_mem hother
          have htail := ih hkeys' hdistinct.2 hrest version
          rw [serve, requests, play, respond_version version hkeys hcall]
          cases hanswer : respond allocateSequence db call with
          | mk answer db' =>
              rw [hanswer] at htail
              simp only [htail]

/-- **Migration 003 preserves allocation** for new machine identifiers: each
request is answered as by migration 001, with the same tables after it, and in
a run of them it is not seen which version is installed first and where
migrations stand. -/
theorem migration_preserves_allocation {db : Database}
    (hkeys : UniqueOn SequenceRow.key db.sequences) :
    (∀ call : AllocateCall, db.selectAllocation call.key call.machineId = none →
        respond Initial.allocateSequence db call = respond allocateSequence db call) ∧
      ∀ events events' : List Event, requests events = requests events' →
        ((requests events).map fun call => (call.key, call.machineId)).Nodup →
        (∀ call ∈ requests events, db.selectAllocation call.key call.machineId = none) →
        ∀ version version' : Version, serve version db events = serve version' db events' := by
  refine ⟨fun call hunbound => respond_eq hkeys hunbound, ?_⟩
  intro events events' hsame hdistinct hunbound version version'
  rw [serve_eq_play hkeys hdistinct hunbound version, hsame,
    serve_eq_play hkeys (hsame ▸ hdistinct) (hsame ▸ hunbound) version']

/-- A request of the samples, with a machine identifier of its own. -/
def sampleCall (machineId : UInt8) : AllocateCall :=
  ⟨[machineId], "invoice".toList, "INV".toList, some "2026".toList, 6⟩

/-- Two requests on empty tables, with the migrations between them or not. -/
theorem migration_preserves_allocation_sample :
    respond Initial.allocateSequence .empty (sampleCall 1) =
        respond allocateSequence .empty (sampleCall 1) ∧
      serve .initial .empty [.request (sampleCall 1), .up, .request (sampleCall 2), .down] =
        serve .initial .empty [.request (sampleCall 1), .request (sampleCall 2)] :=
  have hkeys : UniqueOn SequenceRow.key Database.empty.sequences := .nil _
  ⟨(migration_preserves_allocation hkeys).1 (sampleCall 1) rfl,
    (migration_preserves_allocation hkeys).2 [.request (sampleCall 1), .up, .request (sampleCall 2),
      .down] [.request (sampleCall 1), .request (sampleCall 2)] rfl (by decide)
      (fun _ _ => rfl) .initial .initial⟩

end Identifold.Postgres
