import Identifold.Storage.PostgresLinear
import Identifold.Registry

/-!
# Identifold.Storage.PostgresStorage

Both functions of `integrations/postgres/migrations/001_identifold.up.sql` that
write, called by any number of clients on one server.

`identifold_reserve_reference` is one `INSERT ... ON CONFLICT (reference) DO NOTHING`
and the `COMMIT`.  It waits for an uncommitted row with the same reference, as the
`INSERT` of a counter row does.  The two functions share the committed tables and
touch different ones, so what the calls of one know survives the steps of the
other, and all of them together have one serial history.

* `allocate_effect`, `reserve_effect` — a step of a call of either function;
* `storageStep_effect`, `storageHolds_run` — steps and runs;
* `storage_history` — the calls that have completed are a serial history;
* `storage_stays` — what has been allocated stays.
-/

namespace Identifold

namespace Postgres

open Interleaving Holding Database Transition

/-! ## the function -/

/-- The arguments of `identifold_reserve_reference`. -/
structure ReserveCall where
  machineId : MachineBytes
  namespaceName : Text
  reference : Text
  deriving DecidableEq, Repr

/-- The row of a call. -/
def ReserveCall.row (call : ReserveCall) : ReferenceRow :=
  ⟨call.reference, call.namespaceName, call.machineId⟩

/-- The `CHECK`s of `identifold_references`. -/
def referenceChecks (r : ReferenceRow) : Bool :=
  isPublicPrefix r.namespaceName && (4 ≤ utf8Length r.reference && utf8Length r.reference ≤ 100)

/-- `identifold_reserve_reference`, where no other call is in flight. -/
def reserveReference (db : Database) (call : ReserveCall) : Except PgError (Bool × Database) := do
  ensure (referenceChecks call.row = true) checkViolation
  return if db.referenceConflicts call.row then (false, db) else (true, db.addReference call.row)

/-! ## the server -/

/-- The server, and the uncommitted rows of `identifold_references`. -/
structure Storage where
  server : Server
  inserted : List (ReferenceRow × Nat)
  deriving DecidableEq, Repr

namespace Storage

/-- The server right after the migrations. -/
def initial : Storage := ⟨.initial, []⟩

/-- The committed tables. -/
def committed (s : Storage) : Database := s.server.committed

/-- What transaction `i` has inserted. -/
def insertedBy (s : Storage) (i : Nat) : List ReferenceRow := heldBy s.inserted i

/-- The tables as a reservation sees them. -/
def viewOf (s : Storage) (i : Nat) : Database := (s.insertedBy i).foldl addReference s.committed

/-- The uncommitted rows of the other transactions. -/
def inFlight (s : Storage) (i : Nat) : Database := ⟨heldByOthers s.inserted i, [], []⟩

/-- Transaction `i` inserts a row. -/
def insert (s : Storage) (i : Nat) (row : ReferenceRow) : Storage :=
  { s with inserted := take s.inserted i row }

/-- `ROLLBACK` of a reservation. -/
def rollback (s : Storage) (i : Nat) : Storage := { s with inserted := release s.inserted i }

/-- `COMMIT` of a reservation. -/
def commit (s : Storage) (i : Nat) : Storage :=
  ⟨{ s.server with committed := s.viewOf i }, release s.inserted i⟩

end Storage

/-! ## the calls -/

/-- What the client of a reservation sees. -/
inductive ReserveResult
  | returned (found : Bool)
  | failed (error : PgError)
  | aborted
  deriving DecidableEq, Repr

/-- Where a reservation stands. -/
inductive ReservePhase
  /-- The insert. -/
  | inserting
  /-- The `COMMIT`, with the value of `FOUND`. -/
  | returning (found : Bool)
  | done (result : ReserveResult)
  deriving DecidableEq, Repr

/-- The next statement of a reservation; `none` while it waits. -/
def executeReserve (i : Nat) (s : Storage) (call : ReserveCall) :
    ReservePhase → Option (Except PgError (Storage × ReservePhase))
  | .inserting =>
      if referenceChecks call.row = false then some (.error checkViolation)
      else if (s.viewOf i).referenceConflicts call.row then some (.ok (s, .returning false))
      else if (s.inFlight i).referenceConflicts call.row then none
      else some (.ok (s.insert i call.row, .returning true))
  | .returning found => some (.ok (s.commit i, .done (.returned found)))
  | .done _ => none

/-- A call of one of the functions. -/
inductive StorageCall
  | reserve (call : ReserveCall)
  | allocate (call : AllocateCall)
  deriving DecidableEq, Repr

/-- A call and how far it has come. -/
inductive StorageSession
  | reserve (call : ReserveCall) (phase : ReservePhase)
  | allocate (session : Session)
  deriving DecidableEq, Repr

/-- A call executes its next statement, or is aborted. -/
def storageStep (i : Nat) (s : Storage) : StorageSession → Input → Option (Storage × StorageSession)
  | .allocate session, b => (step i s.server session b).map fun (server, session') =>
      ({ s with server := server }, .allocate session')
  | .reserve call phase, .proceed => (executeReserve i s call phase).map fun
      | .ok (s', phase') => (s', .reserve call phase')
      | .error error => (s.rollback i, .reserve call (.done (.failed error)))
  | .reserve call phase, .abort =>
      match phase with
      | .done _ => none
      | _ => some (s.rollback i, .reserve call (.done .aborted))

/-- A call starts at its first statement. -/
def StorageCall.session : StorageCall → StorageSession
  | .reserve call => .reserve call .inserting
  | .allocate call => .allocate ⟨call, .replaying⟩

/-- The calls of both functions. -/
def storage : Program Storage StorageSession StorageCall Input where
  start := StorageCall.session
  step := storageStep

/-- What a completed call returns. -/
inductive StorageResult
  | reserve (call : ReserveCall) (result : ReserveResult)
  | allocate (call : AllocateCall) (result : Result)
  deriving DecidableEq, Repr

/-- The call and its result, once it has one. -/
def storageOutcome : StorageSession → Option StorageResult
  | .reserve call (.done result) => some (.reserve call result)
  | .reserve _ _ => none
  | .allocate session => (outcome session).map fun (call, result) => .allocate call result

/-- A call of the serial functions, by its result. -/
def StorageSerial (db : Database) (event : Nat × StorageResult) (db' : Database) : Prop :=
  match event with
  | (_, .reserve call (.returned found)) => reserveReference db call = .ok (found, db')
  | (_, .reserve call (.failed error)) => db' = db ∧ reserveReference db call = .error error
  | (_, .reserve _ .aborted) => db' = db
  | (i, .allocate call result) => Serial db (i, call, result) db'

/-! ## the functions and the tables -/

section Functions

variable {db db' : Database} {p : Pending}

/-- A row that passes the `CHECK`s is refused only for its reference. -/
theorem reserveReference_of_checks {call : ReserveCall} (h : referenceChecks call.row = true) :
    reserveReference db call =
      .ok (if db.referenceConflicts call.row then (false, db) else (true, db.addReference call.row)) := by
  rw [reserveReference, ensure_of h]
  rfl

theorem reserveReference_of_unchecked {call : ReserveCall} (h : referenceChecks call.row = false) :
    reserveReference db call = .error checkViolation := by
  rw [reserveReference, ensure_of_not (by simp [h])]
  rfl

/-- An allocation leaves the references, and adds at most a row for its machine
identifier. -/
theorem allocateSequence_frame {call : AllocateCall} {sequence : Nat}
    (h : allocateSequence db call = .ok (sequence, db')) :
    db'.references = db.references ∧ ∃ rows, db'.allocations = db.allocations ++ rows ∧
      ∀ r ∈ rows, r.machineId = call.machineId := by
  rw [allocateSequence] at h
  obtain ⟨found, -, h⟩ := bind_eq_ok_iff.mp h
  cases found with
  | some existing =>
      obtain ⟨-, rfl⟩ := Prod.mk.inj (pure_eq_ok_iff.mp h)
      exact ⟨rfl, [], by simp, by simp⟩
  | none =>
      obtain ⟨db₁, hinsert, h⟩ := bind_eq_ok_iff.mp h
      obtain ⟨_, -, hinsert⟩ := bind_eq_ok_iff.mp hinsert
      obtain rfl := pure_eq_ok_iff.mp hinsert
      obtain ⟨lastValue, -, h⟩ := bind_eq_ok_iff.mp h
      cases hselect : (db.ensureSequence (call.counter 0)).selectAllocation call.key
          call.machineId with
      | some existing =>
          rw [hselect] at h
          obtain ⟨-, rfl⟩ := Prod.mk.inj (pure_eq_ok_iff.mp h)
          exact ⟨ensureSequence_references _, [], by simp, by simp⟩
      | none =>
          rw [hselect] at h
          obtain ⟨_, -, h⟩ := bind_eq_ok_iff.mp h
          obtain ⟨db₂, hupdate, h⟩ := bind_eq_ok_iff.mp h
          obtain ⟨_, -, hupdate⟩ := bind_eq_ok_iff.mp hupdate
          obtain rfl := pure_eq_ok_iff.mp hupdate
          obtain ⟨db₃, hrow, h⟩ := bind_eq_ok_iff.mp h
          obtain ⟨_, -, hrow⟩ := bind_eq_ok_iff.mp hrow
          obtain ⟨_, -, hrow⟩ := bind_eq_ok_iff.mp hrow
          obtain rfl := pure_eq_ok_iff.mp hrow
          obtain ⟨-, rfl⟩ := Prod.mk.inj (pure_eq_ok_iff.mp h)
          refine ⟨ensureSequence_references _, [call.allocation (lastValue + 1)], ?_, by
            simp [AllocateCall.allocation]⟩
          rw [addAllocation, setLastValue, ensureSequence_allocations]

/-- A serial call of the other function leaves the references, and adds allocations of
its own machine identifier only. -/
theorem Serial.frame {i : Nat} {call : AllocateCall} {result : Result}
    (h : Serial db (i, call, result) db') :
    db'.references = db.references ∧ ∃ rows, db'.allocations = db.allocations ++ rows ∧
      ∀ r ∈ rows, r.machineId = call.machineId := by
  cases result with
  | returned sequence => exact allocateSequence_frame h
  | failed error =>
      obtain ⟨rfl, -⟩ := h
      exact ⟨rfl, [], by simp, by simp⟩
  | aborted =>
      obtain rfl : db' = db := h
      exact ⟨rfl, [], by simp, by simp⟩

/-- What an allocation relies on does not depend on the references. -/
theorem keeps_addReference (row : ReferenceRow) : Keeps db (db.addReference row) p where
  allocations _ h := h
  conflicts _ h := h
  created _ _ h := h
  counter _ _ _ h _ := h
  ledger _ _ := rfl

end Functions

/-! ## what a call knows -/

/-- What a reservation knows of the committed tables, with the rows it has inserted. -/
inductive Reserves (db : Database) (held : List ReferenceRow) (call : ReserveCall) :
    ReservePhase → Prop
  | inserting : held = [] → Reserves db held call .inserting
  | won : held = [call.row] → referenceChecks call.row = true → Reserves db held call (.returning true)
  | lost : held = [] → referenceChecks call.row = true → db.referenceConflicts call.row = true →
      Reserves db held call (.returning false)
  | reserved : held = [] → call.row ∈ db.references → Reserves db held call (.done (.returned true))
  | refused : held = [] → db.referenceConflicts call.row = true →
      Reserves db held call (.done (.returned false))
  | failed : held = [] → referenceChecks call.row = false →
      Reserves db held call (.done (.failed checkViolation))
  | aborted : held = [] → Reserves db held call (.done .aborted)

/-- What is known of a call. -/
def StorageKnows (i : Nat) (s : Storage) : StorageSession → Prop
  | .reserve call phase =>
      s.server.pending i = .none ∧ Reserves s.committed (s.insertedBy i) call phase
  | .allocate session => s.insertedBy i = [] ∧ Knows i s.server session

/-- What holds of the server between two steps, with `n` calls started. -/
structure StorageSound (n : Nat) (s : Storage) : Prop where
  server : Sound n s.server
  /-- Two references in flight differ. -/
  apart : ∀ i j, i ≠ j → ∀ r ∈ s.insertedBy i, ∀ r' ∈ s.insertedBy j, r.reference ≠ r'.reference
  /-- A reference in flight has not been committed. -/
  fresh : ∀ i, ∀ r ∈ s.insertedBy i, s.committed.referenceConflicts r = false
  checked : ∀ r ∈ s.committed.references, referenceChecks r = true
  unstarted : ∀ i, n ≤ i → s.insertedBy i = []

section Frame

variable {db db' : Database} {held : List ReferenceRow} {call : ReserveCall} {phase : ReservePhase}

/-- More references, more conflicts. -/
theorem referenceConflicts_mono (h : db.references ⊆ db'.references) {row : ReferenceRow}
    (hconflicts : db.referenceConflicts row = true) : db'.referenceConflicts row = true := by
  simp only [referenceConflicts, List.any_eq_true] at hconflicts ⊢
  obtain ⟨r, hr, hreference⟩ := hconflicts
  exact ⟨r, h hr, hreference⟩

/-- A conflict depends on the references alone. -/
theorem referenceConflicts_congr (h : db'.references = db.references) (row : ReferenceRow) :
    db'.referenceConflicts row = db.referenceConflicts row := by
  rw [referenceConflicts, h, referenceConflicts]

/-- **Frame**: references are never lost, so what a reservation knows survives. -/
theorem Reserves.mono (h : Reserves db held call phase) (hsub : db.references ⊆ db'.references) :
    Reserves db' held call phase := by
  cases h with
  | inserting hheld => exact .inserting hheld
  | won hheld hchecks => exact .won hheld hchecks
  | lost hheld hchecks hconflicts =>
      exact .lost hheld hchecks (referenceConflicts_mono hsub hconflicts)
  | reserved hheld hrow => exact .reserved hheld (hsub hrow)
  | refused hheld hconflicts => exact .refused hheld (referenceConflicts_mono hsub hconflicts)
  | failed hheld hchecks => exact .failed hheld hchecks
  | aborted hheld => exact .aborted hheld

end Frame

/-! ## steps -/

section Steps

variable {n i j : Nat} {s s' : Storage}

namespace Storage

theorem insertedBy_insert_self (row : ReferenceRow) :
    (s.insert i row).insertedBy i = s.insertedBy i ++ [row] := heldBy_take_self

theorem insertedBy_insert_ne (h : j ≠ i) (row : ReferenceRow) :
    (s.insert i row).insertedBy j = s.insertedBy j := heldBy_take_ne h

@[simp] theorem insertedBy_rollback_self : (s.rollback i).insertedBy i = [] := heldBy_release_self

theorem insertedBy_rollback_ne (h : j ≠ i) : (s.rollback i).insertedBy j = s.insertedBy j :=
  heldBy_release_ne h

@[simp] theorem insertedBy_commit_self : (s.commit i).insertedBy i = [] := heldBy_release_self

theorem insertedBy_commit_ne (h : j ≠ i) : (s.commit i).insertedBy j = s.insertedBy j :=
  heldBy_release_ne h

/-- A reservation that has inserted nothing sees what is committed. -/
theorem viewOf_of_nil (h : s.insertedBy i = []) : s.viewOf i = s.committed := by
  rw [viewOf, h]
  rfl

/-- A reservation that has inserted its row sees it. -/
theorem viewOf_of_singleton {row : ReferenceRow} (h : s.insertedBy i = [row]) :
    s.viewOf i = s.committed.addReference row := by
  rw [viewOf, h]
  rfl

/-- A row that need not wait has a reference of its own. -/
theorem of_inFlight_referenceConflicts {row : ReferenceRow}
    (h : (s.inFlight i).referenceConflicts row = false) (hj : j ≠ i) :
    ∀ r ∈ s.insertedBy j, r.reference ≠ row.reference := fun r hr =>
  referenceConflicts_eq_false_iff.mp h r (mem_heldByOthers.mpr ⟨j, hj, hr⟩)

end Storage

/-- What a step does to the server, the others and the committed tables. -/
structure StorageEffect (n i : Nat) (s s' : Storage) (t' : StorageSession) : Prop where
  sound : StorageSound n s'
  knows : StorageKnows i s' t'
  frame : ∀ j u, j ≠ i → StorageKnows j s u → StorageKnows j s' u
  serial : TakesEffect storageOutcome Storage.committed StorageSerial i s s' t'

/-- A step of another call leaves what a call knows. -/
theorem StorageKnows.frame {u : StorageSession} (h : StorageKnows j s u)
    (hpending : s'.server.pending j = s.server.pending j)
    (hinserted : s'.insertedBy j = s.insertedBy j)
    (hsub : s.committed.references ⊆ s'.committed.references)
    (hkeeps : Keeps s.committed s'.committed (s.server.pending j)) : StorageKnows j s' u := by
  cases u with
  | reserve call phase =>
      obtain ⟨hnone, hknows⟩ := h
      exact ⟨hpending.trans hnone, hinserted ▸ hknows.mono hsub⟩
  | allocate session =>
      obtain ⟨hnone, hknows⟩ := h
      refine ⟨hinserted.trans hnone, ?_⟩
      rw [Knows, hpending]
      exact Fits.keeps hknows hkeeps

/-- What has to be shown of a step of one call for the server to stay sound. -/
theorem StorageSound.step (hs : StorageSound n s) (hi : i < n) (hserver : Sound n s'.server)
    (hothers : ∀ j, j ≠ i → s'.insertedBy j = s.insertedBy j)
    (hapart : ∀ j, j ≠ i → ∀ r ∈ s'.insertedBy i, ∀ r' ∈ s.insertedBy j, r.reference ≠ r'.reference)
    (hfresh : ∀ j, ∀ r ∈ s'.insertedBy j, s'.committed.referenceConflicts r = false)
    (hchecked : ∀ r ∈ s'.committed.references, referenceChecks r = true) : StorageSound n s' where
  server := hserver
  apart a b hab r hr r' hr' := by
    by_cases ha : a = i
    · subst ha
      rw [hothers b (Ne.symm hab)] at hr'
      exact hapart b (Ne.symm hab) r hr r' hr'
    · rw [hothers a ha] at hr
      by_cases hb : b = i
      · subst hb
        exact (hapart a ha r' hr' r hr).symm
      · rw [hothers b hb] at hr'
        exact hs.apart a b hab r hr r' hr'
  fresh := hfresh
  checked := hchecked
  unstarted j hj := by
    rw [hothers j (by omega)]
    exact hs.unstarted j hj

/-! ## steps of an allocation -/

/-- A step of an allocation has the effect that it has among allocations alone, and
leaves the references. -/
theorem allocate_effect (hs : StorageSound n s) (hi : i < n) {session session' : Session}
    {server : Server} {b : Input} (h : StorageKnows i s (.allocate session))
    (hstep : step i s.server session b = some (server, session')) :
    StorageEffect n i s { s with server := server } (.allocate session') := by
  obtain ⟨hheld, hknows⟩ := h
  have heffect := step_effect hs.server hi hknows hstep
  have hserial : TakesEffect storageOutcome Storage.committed StorageSerial i s
      { s with server := server } (.allocate session') := by
    have hserial := heffect.serial
    unfold TakesEffect at hserial ⊢
    rw [storageOutcome]
    cases houtcome : outcome session' with
    | none =>
        rw [houtcome] at hserial
        exact hserial
    | some result =>
        rw [houtcome] at hserial
        exact hserial
  -- whatever it does, the references stay
  have hreferences : server.committed.references = s.committed.references := by
    have hserial := heffect.serial
    rw [TakesEffect] at hserial
    cases houtcome : outcome session' with
    | none =>
        rw [houtcome] at hserial
        exact congrArg Database.references hserial
    | some result =>
        rw [houtcome] at hserial
        exact hserial.frame.1
  refine ⟨⟨heffect.sound, hs.apart, fun j r hr => ?_, ?_, hs.unstarted⟩, ⟨hheld, heffect.knows⟩, ?_,
    hserial⟩
  · rw [← hs.fresh j r hr]
    exact referenceConflicts_congr hreferences r
  · intro r hr
    exact hs.checked r (hreferences ▸ hr)
  · intro j u hj hu
    exact hu.frame (heffect.others j hj) rfl (by rw [← hreferences]; exact List.Subset.refl _)
      (heffect.keeps j hj)

/-! ## steps of a reservation -/

section Reservation

variable {call : ReserveCall} {phase phase' : ReservePhase}

/-- What one step of a reservation does. -/
theorem reserveStep_cases {t' : StorageSession} {b : Input}
    (h : storageStep i s (.reserve call phase) b = some (s', t')) :
    s' = s.rollback i ∧ (t' = .reserve call (.done .aborted) ∨
        ∃ error, t' = .reserve call (.done (.failed error)) ∧
          executeReserve i s call phase = some (.error error)) ∨
      ∃ phase', t' = .reserve call phase' ∧
        executeReserve i s call phase = some (.ok (s', phase')) := by
  cases b with
  | abort =>
      simp only [storageStep] at h
      split at h
      · cases h
      · cases h
        exact .inl ⟨rfl, .inl rfl⟩
  | proceed =>
      obtain ⟨result, hexec, hresult⟩ := Option.map_eq_some_iff.mp h
      cases result with
      | error error =>
          cases hresult
          exact .inl ⟨rfl, .inr ⟨error, rfl, hexec⟩⟩
      | ok next =>
          cases hresult
          exact .inr ⟨_, rfl, hexec⟩

/-- The one error of a reservation. -/
theorem executeReserve_error {error : PgError}
    (h : executeReserve i s call phase = some (.error error)) :
    error = checkViolation ∧ referenceChecks call.row = false := by
  cases phase with
  | inserting =>
      rw [executeReserve] at h
      split at h
      · rename_i hchecks
        cases h
        exact ⟨rfl, hchecks⟩
      · split at h
        · cases h
        · split at h <;> cases h
  | returning found => cases h
  | done result => cases h

/-- A statement of a reservation that succeeds. -/
theorem executeReserve_ok (h : executeReserve i s call phase = some (.ok (s', phase'))) :
    (phase = .inserting ∧ referenceChecks call.row = true ∧
      ((s.viewOf i).referenceConflicts call.row = true ∧ s' = s ∧ phase' = .returning false ∨
        (s.viewOf i).referenceConflicts call.row = false ∧
          (s.inFlight i).referenceConflicts call.row = false ∧ s' = s.insert i call.row ∧
          phase' = .returning true)) ∨
      ∃ found, phase = .returning found ∧ s' = s.commit i ∧ phase' = .done (.returned found) := by
  cases phase with
  | inserting =>
      rw [executeReserve] at h
      split at h
      · cases h
      rename_i hchecks
      rw [Bool.not_eq_false] at hchecks
      split at h
      · rename_i hconflicts
        cases h
        exact .inl ⟨rfl, hchecks, .inl ⟨hconflicts, rfl, rfl⟩⟩
      · rename_i hfresh
        split at h
        · cases h
        · rename_i hflight
          cases h
          exact .inl ⟨rfl, hchecks, .inr ⟨Bool.eq_false_iff.mpr hfresh, Bool.eq_false_iff.mpr hflight,
            rfl, rfl⟩⟩
  | returning found =>
      cases h
      exact .inr ⟨found, rfl, rfl, rfl⟩
  | done result => cases h

/-- A rollback releases the row of its call. -/
theorem StorageSound.rollback (hs : StorageSound n s) (hi : i < n) :
    StorageSound n (s.rollback i) := by
  refine hs.step hi hs.server (fun j hj => Storage.insertedBy_rollback_ne hj) ?_ ?_ hs.checked
  · intro j _ r hr
    simp at hr
  · intro j r hr
    by_cases hj : j = i
    · subst hj
      simp at hr
    · rw [Storage.insertedBy_rollback_ne hj] at hr
      exact hs.fresh j r hr

/-- An insert that need not wait keeps the rows in flight apart. -/
theorem StorageSound.insert (hs : StorageSound n s) (hi : i < n) (hheld : s.insertedBy i = [])
    {row : ReferenceRow} (hfresh : s.committed.referenceConflicts row = false)
    (hflight : (s.inFlight i).referenceConflicts row = false) :
    StorageSound n (s.insert i row) := by
  have hself : (s.insert i row).insertedBy i = [row] := by
    rw [Storage.insertedBy_insert_self, hheld, List.nil_append]
  refine hs.step hi hs.server (fun j hj => Storage.insertedBy_insert_ne hj row) ?_ ?_ hs.checked
  · intro j hj r hr r' hr'
    rw [hself] at hr
    obtain rfl := List.mem_singleton.mp hr
    exact (Storage.of_inFlight_referenceConflicts hflight hj r' hr').symm
  · intro j r hr
    by_cases hj : j = i
    · subst hj
      rw [hself] at hr
      obtain rfl := List.mem_singleton.mp hr
      exact hfresh
    · rw [Storage.insertedBy_insert_ne hj] at hr
      exact hs.fresh j r hr

/-- **Commit** of a reservation that has found a row in its way. -/
theorem StorageSound.commit_nil (hs : StorageSound n s) (hi : i < n) (hheld : s.insertedBy i = []) :
    StorageSound n (s.commit i) ∧ (s.commit i).committed = s.committed := by
  have hcommitted : (s.commit i).committed = s.committed := Storage.viewOf_of_nil hheld
  refine ⟨?_, hcommitted⟩
  have hserver : (s.commit i).server = s.server := by
    rw [Storage.commit, Storage.viewOf_of_nil hheld]
    rfl
  have hrollback := hs.rollback hi
  exact ⟨hserver ▸ hs.server, hrollback.apart, by rw [hcommitted]; exact hrollback.fresh,
    by rw [hcommitted]; exact hs.checked, hrollback.unstarted⟩

/-- **Commit** of a reservation that has inserted its row. -/
theorem StorageSound.commit_row (hs : StorageSound n s) (hi : i < n) {row : ReferenceRow}
    (hheld : s.insertedBy i = [row]) (hchecks : referenceChecks row = true) :
    StorageSound n (s.commit i) ∧ (s.commit i).committed = s.committed.addReference row := by
  have hcommitted : (s.commit i).committed = s.committed.addReference row :=
    Storage.viewOf_of_singleton hheld
  have hrow : row ∈ s.insertedBy i := by simp [hheld]
  refine ⟨?_, hcommitted⟩
  refine hs.step hi ?_ (fun j hj => Storage.insertedBy_commit_ne hj) ?_ ?_ ?_
  · have hconsistent : (s.commit i).committed.Consistent := by
      rw [hcommitted]
      exact hs.server.consistent.addReference (hs.fresh i row hrow)
    have hallocations : (s.commit i).committed.allocations = s.committed.allocations := by
      rw [hcommitted]
      rfl
    exact ⟨hconsistent, fun r hr => hs.server.checked r (hallocations ▸ hr), hs.server.apart,
      hs.server.exclusive, hs.server.unstarted⟩
  · intro j _ r hr
    simp at hr
  · intro j r hr
    by_cases hj : j = i
    · subst hj
      simp at hr
    · rw [Storage.insertedBy_commit_ne hj] at hr
      have hfresh := referenceConflicts_eq_false_iff.mp (hs.fresh j r hr)
      rw [hcommitted, referenceConflicts_eq_false_iff]
      intro r' hr'
      rcases List.mem_append.mp hr' with hr' | hr'
      · exact hfresh r' hr'
      · rw [List.mem_singleton.mp hr']
        exact hs.apart i j (Ne.symm hj) row hrow r hr
  · intro r hr
    rw [hcommitted] at hr
    rcases List.mem_append.mp hr with hr | hr
    · exact hs.checked r hr
    · rw [List.mem_singleton.mp hr]
      exact hchecks

/-- A reservation that is rolled back leaves no trace. -/
theorem rollback_effect (hs : StorageSound n s) (hi : i < n) {t' : StorageSession}
    (hknows : StorageKnows i (s.rollback i) t')
    (hserial : TakesEffect storageOutcome Storage.committed StorageSerial i s (s.rollback i) t') :
    StorageEffect n i s (s.rollback i) t' :=
  ⟨hs.rollback hi, hknows, fun _ _ hj hu => hu.frame rfl (Storage.insertedBy_rollback_ne hj)
    (List.Subset.refl _) (.refl _ _), hserial⟩

/-- A step of a reservation: it rolls back, inserts its row, finds another's, or
commits. -/
theorem reserve_effect (hs : StorageSound n s) (hi : i < n) {t' : StorageSession} {b : Input}
    (h : StorageKnows i s (.reserve call phase))
    (hstep : storageStep i s (.reserve call phase) b = some (s', t')) :
    StorageEffect n i s s' t' := by
  obtain ⟨hpending, hknows⟩ := h
  -- an error or an abort rolls back
  rcases reserveStep_cases hstep with ⟨rfl, hresult⟩ | ⟨phase', rfl, hexec⟩
  · have hheld : (s.rollback i).insertedBy i = [] := Storage.insertedBy_rollback_self
    rcases hresult with rfl | ⟨error, rfl, hexec⟩
    · exact rollback_effect hs hi ⟨hpending, .aborted hheld⟩ rfl
    · obtain ⟨rfl, hchecks⟩ := executeReserve_error hexec
      exact rollback_effect hs hi ⟨hpending, .failed hheld hchecks⟩
        ⟨rfl, reserveReference_of_unchecked hchecks⟩
  -- the insert finds a conflict or adds its row; the commit publishes it
  rcases executeReserve_ok hexec with ⟨rfl, hchecks, hinsert⟩ | ⟨found, rfl, rfl, rfl⟩
  · obtain hheld : s.insertedBy i = [] := by
      cases hknows with
      | inserting hheld => exact hheld
    rcases hinsert with ⟨hconflicts, rfl, rfl⟩ | ⟨hfresh, hflight, rfl, rfl⟩
    · rw [Storage.viewOf_of_nil hheld] at hconflicts
      exact ⟨hs, ⟨hpending, .lost hheld hchecks hconflicts⟩,
        fun j u _ hu => hu.frame rfl rfl (List.Subset.refl _) (.refl _ _), rfl⟩
    · rw [Storage.viewOf_of_nil hheld] at hfresh
      have hself : (s.insert i call.row).insertedBy i = [call.row] := by
        rw [Storage.insertedBy_insert_self, hheld, List.nil_append]
      exact ⟨hs.insert hi hheld hfresh hflight, ⟨hpending, .won hself hchecks⟩,
        fun j u hj hu => hu.frame rfl (Storage.insertedBy_insert_ne hj _) (List.Subset.refl _)
          (.refl _ _), rfl⟩
  · cases hknows with
    | won hheld hchecks =>
        -- no other row has taken the reference
        obtain ⟨hsound, hcommitted⟩ := hs.commit_row hi hheld hchecks
        have hrow : call.row ∈ (s.commit i).committed.references := by
          rw [hcommitted]
          exact List.mem_append_right _ (List.mem_singleton_self _)
        have hserial : reserveReference s.committed call = .ok (true, (s.commit i).committed) := by
          rw [reserveReference_of_checks hchecks, hs.fresh i call.row (by simp [hheld]), hcommitted]
          rfl
        refine ⟨hsound, ⟨hpending, .reserved Storage.insertedBy_commit_self hrow⟩,
          fun j u hj hu => ?_, hserial⟩
        refine hu.frame rfl (Storage.insertedBy_commit_ne hj) ?_ ?_ <;> rw [hcommitted]
        · exact List.subset_append_left _ _
        · exact keeps_addReference call.row
    | lost hheld hchecks hconflicts =>
        -- another row was in the way, and still is
        obtain ⟨hsound, hcommitted⟩ := hs.commit_nil hi hheld
        have hserial : reserveReference s.committed call = .ok (false, (s.commit i).committed) := by
          rw [reserveReference_of_checks hchecks, hconflicts, hcommitted]
          rfl
        refine ⟨hsound, ⟨hpending, .refused Storage.insertedBy_commit_self (hcommitted ▸ hconflicts)⟩,
          fun j u hj hu => ?_, hserial⟩
        refine hu.frame rfl (Storage.insertedBy_commit_ne hj) ?_ ?_ <;> rw [hcommitted]
        · exact List.Subset.refl _
        · exact .refl _ _

end Reservation

/-- **Steps**: every step of a call has its effect. -/
theorem storageStep_effect (hs : StorageSound n s) (hi : i < n) {t t' : StorageSession} {b : Input}
    (h : StorageKnows i s t) (hstep : storageStep i s t b = some (s', t')) :
    StorageEffect n i s s' t' := by
  cases t with
  | reserve call phase => exact reserve_effect hs hi h hstep
  | allocate session =>
      obtain ⟨⟨server, session'⟩, hallocate, hresult⟩ := Option.map_eq_some_iff.mp hstep
      cases hresult
      exact allocate_effect hs hi h hallocate

/-- A call that starts knows nothing of the tables. -/
theorem storageKnows_start (hs : StorageSound n s) (call : StorageCall) :
    StorageSound (n + 1) s ∧ StorageKnows n s (storage.start call) := by
  obtain ⟨hserver, -⟩ := knows_start hs.server ⟨[], [], [], none, 0⟩
  refine ⟨⟨hserver, hs.apart, hs.fresh, hs.checked, fun i hi => hs.unstarted i (by omega)⟩, ?_⟩
  have hheld := hs.unstarted n (Nat.le_refl n)
  have hpending := hs.server.unstarted n (Nat.le_refl n)
  cases call with
  | reserve call => exact ⟨hpending, .inserting hheld⟩
  | allocate call => exact ⟨hheld, .replaying hpending⟩

/-- Step lemma: a call keeps the server sound, learns what its next phase should know,
and disturbs no other. -/
theorem storageKnows_step {t t' : StorageSession} {b : Input} (hi : i < n) (hs : StorageSound n s)
    (h : StorageKnows i s t) (hstep : storage.step i s t b = some (s', t')) :
    (StorageSound n s' ∧ StorageKnows i s' t') ∧
      ∀ j u, j ≠ i → j < n → StorageKnows j s u → StorageKnows j s' u := by
  have heffect := storageStep_effect hs hi h hstep
  exact ⟨⟨heffect.sound, heffect.knows⟩, fun j u hj _ hu => heffect.frame j u hj hu⟩

end Steps

/-! ## serial histories -/

/-- The row that a reservation has won. -/
def wonRow : Nat × StorageResult → Option ReferenceRow
  | (_, .reserve call (.returned true)) => some call.row
  | _ => none

section Histories

variable {db db' : Database} {history : List (Nat × StorageResult)}

/-- What a serial reservation does: it finds a row with its reference, or adds its
own. -/
theorem reserveReference_cases {call : ReserveCall} {found : Bool}
    (h : reserveReference db call = .ok (found, db')) :
    found = false ∧ db' = db ∧ db.referenceConflicts call.row = true ∨
      found = true ∧ db' = db.addReference call.row := by
  obtain ⟨_, -, h⟩ := bind_eq_ok_iff.mp h
  have hresult := pure_eq_ok_iff.mp h
  split at hresult
  · rename_i hconflicts
    obtain ⟨rfl, rfl⟩ := Prod.mk.inj hresult
    exact .inl ⟨rfl, rfl, hconflicts⟩
  · obtain ⟨rfl, rfl⟩ := Prod.mk.inj hresult
    exact .inr ⟨rfl, rfl⟩

/-- Step lemma: a call adds the row it has won. -/
theorem StorageSerial.references {event : Nat × StorageResult} (h : StorageSerial db event db') :
    db'.references = db.references ++ (wonRow event).toList := by
  obtain ⟨i, result⟩ := event
  cases result with
  | reserve call result =>
      cases result with
      | returned found =>
          rcases reserveReference_cases h with ⟨rfl, rfl, -⟩ | ⟨rfl, rfl⟩
          · exact (List.append_nil _).symm
          · rfl
      | failed error =>
          obtain ⟨rfl, -⟩ := h
          exact (List.append_nil _).symm
      | aborted =>
          obtain rfl : db' = db := h
          exact (List.append_nil _).symm
  | allocate call result =>
      rw [(Serial.frame h).1]
      exact (List.append_nil _).symm

/-- Run lemma: `identifold_references` holds the rows that have been won, in order. -/
theorem run_wonRow (hrun : Run StorageSerial db history db') :
    db'.references = db.references ++ history.filterMap wonRow := by
  induction hrun with
  | nil => simp
  | @snoc _ _ history event _ hstep ih =>
      rw [hstep.references, ih, List.filterMap_append, List.append_assoc]
      cases hwon : wonRow event <;> simp [hwon]

end Histories

/-! ## what a step leaves -/

/-- The call of a session. -/
def StorageSession.call : StorageSession → StorageCall
  | .reserve call _ => .reserve call
  | .allocate session => .allocate session.call

/-- No query of the client is running. -/
def Idle (i : Nat) (s : Storage) : Prop := s.server.pending i = .none ∧ s.insertedBy i = []

section Left

variable {n i : Nat} {s s' : Storage} {t t' : StorageSession}

/-- A step does not change the call. -/
theorem storageStep_call {b : Input} (h : storageStep i s t b = some (s', t')) :
    t'.call = t.call := by
  cases t with
  | reserve call phase =>
      rcases reserveStep_cases h with ⟨-, rfl | ⟨error, rfl, -⟩⟩ | ⟨phase', rfl, -⟩ <;> rfl
  | allocate session =>
      obtain ⟨⟨server, session'⟩, hstep, hresult⟩ := Option.map_eq_some_iff.mp h
      cases hresult
      rcases step_cases hstep with ⟨-, rfl | ⟨error, rfl, -⟩⟩ | ⟨phase', rfl, -⟩ <;> rfl

/-- A call that takes a step has not completed. -/
theorem storageOutcome_of_step {b : Input} (h : storageStep i s t b = some (s', t')) :
    storageOutcome t = none := by
  cases t with
  | reserve call phase =>
      cases phase with
      | inserting => rfl
      | returning found => rfl
      | done result => cases b <;> contradiction
  | allocate session =>
      obtain ⟨call, phase⟩ := session
      cases phase with
      | done result => cases b <;> simp [storageStep, step, execute] at h
      | _ => rfl

/-- An idle client may start any call. -/
theorem Idle.start (h : Idle i s) (call : StorageCall) : StorageKnows i s call.session := by
  obtain ⟨hpending, hheld⟩ := h
  cases call with
  | reserve call => exact ⟨hpending, .inserting hheld⟩
  | allocate call => exact ⟨hheld, .replaying hpending⟩

/-- A client whose call has completed is idle. -/
theorem StorageKnows.idle (h : StorageKnows i s t) (hdone : (storageOutcome t).isSome = true) :
    Idle i s := by
  cases t with
  | reserve call phase =>
      obtain ⟨hpending, hknows⟩ := h
      cases hknows with
      | inserting | won | lost => contradiction
      | reserved hheld | refused hheld | failed hheld | aborted hheld => exact ⟨hpending, hheld⟩
  | allocate session =>
      obtain ⟨call, phase⟩ := session
      obtain ⟨hheld, hknows⟩ := h
      cases hknows with
      | replaying | creating | locking | waiting | rechecking | updating | recording | recorded
      | replayed => contradiction
      | returned _ hp | failed _ hp | aborted hp => exact ⟨hp, hheld⟩

/-- A step of one client leaves another idle. -/
theorem Idle.frame {j : Nat} (h : StorageEffect n i s s' t') (hj : j ≠ i) (hidle : Idle j s) :
    Idle j s' := by
  have hknows := h.frame j _ hj (hidle.start (.reserve ⟨[], [], []⟩))
  obtain ⟨hpending, hknows⟩ := hknows
  cases hknows with
  | inserting hheld => exact ⟨hpending, hheld⟩

/-- A step adds at most the row of its reservation. -/
theorem StorageEffect.references (h : StorageEffect n i s s' t') :
    ∃ rows, s'.committed.references = s.committed.references ++ rows ∧
      ∀ r ∈ rows, ∃ call, t'.call = .reserve call ∧ r = call.row := by
  have hserial := h.serial
  rw [TakesEffect] at hserial
  cases houtcome : storageOutcome t' with
  | none =>
      rw [houtcome] at hserial
      exact ⟨[], by rw [List.append_nil]; exact congrArg Database.references hserial, by simp⟩
  | some result =>
      rw [houtcome] at hserial
      refine ⟨_, StorageSerial.references hserial, fun r hr => ?_⟩
      cases t' with
      | reserve call phase =>
          cases phase with
          | inserting | returning => contradiction
          | done result' =>
              obtain rfl := Option.some.inj houtcome
              cases result' with
              | returned found =>
                  cases found with
                  | true => exact ⟨call, rfl, by simpa [wonRow] using hr⟩
                  | false => simp [wonRow] at hr
              | failed | aborted => simp [wonRow] at hr
      | allocate session =>
          obtain ⟨⟨call, result'⟩, -, rfl⟩ := Option.map_eq_some_iff.mp houtcome
          simp [wonRow] at hr

/-- A step adds at most an allocation for the machine identifier of its call. -/
theorem StorageEffect.allocations (h : StorageEffect n i s s' t') :
    ∃ rows, s'.committed.allocations = s.committed.allocations ++ rows ∧
      ∀ r ∈ rows, ∃ call, t'.call = .allocate call ∧ r.machineId = call.machineId := by
  have hserial := h.serial
  rw [TakesEffect] at hserial
  cases houtcome : storageOutcome t' with
  | none =>
      rw [houtcome] at hserial
      exact ⟨[], by rw [List.append_nil]; exact congrArg Database.allocations hserial, by simp⟩
  | some result =>
      rw [houtcome] at hserial
      cases t' with
      | reserve call phase =>
          cases phase with
          | inserting | returning => contradiction
          | done result' =>
              obtain rfl := Option.some.inj houtcome
              refine ⟨[], ?_, by simp⟩
              rw [List.append_nil]
              cases result' with
              | returned found =>
                  rcases reserveReference_cases hserial with ⟨-, hsame, -⟩ | ⟨-, hadded⟩
                  · rw [hsame]
                  · rw [hadded]
                    rfl
              | failed error => rw [hserial.1]
              | aborted => exact congrArg Database.allocations hserial
      | allocate session =>
          obtain ⟨⟨call, result'⟩, hresult, rfl⟩ := Option.map_eq_some_iff.mp houtcome
          obtain ⟨-, rows, hrows, hids⟩ := Serial.frame hserial
          refine ⟨rows, hrows, fun r hr => ⟨call, ?_, hids r hr⟩⟩
          unfold outcome at hresult
          split at hresult
          · obtain ⟨rfl, -⟩ := Prod.mk.inj (Option.some.inj hresult)
            rfl
          · contradiction

end Left

/-! ## runs -/

section Runs

variable {labels : List (Label StorageCall Input)} {c : Config Storage StorageSession}

theorem storageSound_initial : StorageSound 0 .initial where
  server := sound_initial
  apart := by simp [Storage.initial, Storage.insertedBy]
  fresh := by simp [Storage.initial, Storage.insertedBy]
  checked := by simp [Storage.initial, Storage.committed, Server.initial, Database.empty]
  unstarted _ _ := rfl

theorem storageHolds_initial : Holds StorageSound StorageKnows (.initial .initial) :=
  ⟨storageSound_initial, by simp [Config.initial]⟩

/-- **Runs**: the server stays sound, and every call knows what it should. -/
theorem storageHolds_run (hrun : storage.Runs (.initial .initial) labels c) :
    Holds StorageSound StorageKnows c :=
  Holds.run (fun _ _ call hs => storageKnows_start hs call)
    (fun _ _ _ _ _ _ _ => storageKnows_step) hrun storageHolds_initial

/-- The calls that have completed are a serial history of the tables. -/
theorem storage_history (hrun : storage.Runs (.initial .initial) labels c) :
    Run StorageSerial .empty (completions storage storageOutcome (.initial .initial) labels)
        c.shared.committed ∧
      Completes storageOutcome c (completions storage storageOutcome (.initial .initial) labels) := by
  refine ⟨?_, completes_completions (fun call => ?_) (fun i s t b hdone => ?_) hrun⟩
  · have hserial := serial (I := StorageSound) (T := StorageKnows)
      (fun _ _ call hs => storageKnows_start hs call) (fun _ _ _ _ _ _ _ => storageKnows_step)
      (fun _ _ _ _ _ _ _ hi hs h hstep => (storageStep_effect hs hi h hstep).serial)
      storageHolds_initial hrun
    exact hserial
  · cases call <;> rfl
  · by_contra hstep
    obtain ⟨⟨s', t'⟩, hstep⟩ := Option.ne_none_iff_exists'.mp hstep
    rw [storageOutcome_of_step hstep] at hdone
    contradiction

/-- A row has been won when its reservation returned `true`. -/
theorem wonRow_eq_some_iff {event : Nat × StorageResult} {row : ReferenceRow} :
    wonRow event = some row ↔
      ∃ call, event.2 = .reserve call (.returned true) ∧ call.row = row := by
  obtain ⟨j, result⟩ := event
  constructor
  · intro h
    unfold wonRow at h
    split at h
    · rename_i call heq
      exact ⟨call, (Prod.mk.inj heq).2, Option.some.inj h⟩
    · contradiction
  · rintro ⟨call, rfl, rfl⟩
    rfl

/-- A reservation has completed when its thread is done. -/
theorem storageOutcome_reserve {t : StorageSession} {call : ReserveCall} {result : ReserveResult}
    (h : storageOutcome t = some (.reserve call result)) : t = .reserve call (.done result) := by
  cases t with
  | reserve call' phase =>
      cases phase with
      | inserting => contradiction
      | returning found => contradiction
      | done result' =>
          obtain ⟨rfl, rfl⟩ := StorageResult.reserve.inj (Option.some.inj h)
          rfl
  | allocate session => simp [storageOutcome] at h

/-- The references are those of the reservations that have won. -/
theorem storage_references (hrun : storage.Runs (.initial .initial) labels c) :
    c.shared.committed.references =
      (completions storage storageOutcome (.initial .initial) labels).filterMap wonRow := by
  rw [run_wonRow (storage_history hrun).1]
  rfl

/-- Two reservations that have won are for two references. -/
theorem reference_ne_of_won (hrun : storage.Runs (.initial .initial) labels c) {i j : Nat}
    {call call' : ReserveCall} (hne : i ≠ j)
    (hi : c.threads[i]? = some (.reserve call (.done (.returned true))))
    (hj : c.threads[j]? = some (.reserve call' (.done (.returned true)))) :
    call.reference ≠ call'.reference := by
  intro hsame
  obtain ⟨-, hcompletes⟩ := storage_history hrun
  -- the references of the history differ, so both events stand at one place
  have hunique : (c.shared.committed.references.map (·.reference)).Nodup :=
    (storageHolds_run hrun).1.server.consistent.referenceUnique
  rw [storage_references hrun, List.map_filterMap] at hunique
  obtain ⟨a, ha⟩ := List.getElem?_of_mem ((hcompletes.2 i _).mpr ⟨_, hi, rfl⟩)
  obtain ⟨b, hb⟩ := List.getElem?_of_mem ((hcompletes.2 j _).mpr ⟨_, hj, rfl⟩)
  have hplace : a = b := Rows.index_eq_of_nodup hunique ha hb rfl (congrArg some hsame.symm)
  rw [hplace, hb] at ha
  exact hne (Prod.mk.inj (Option.some.inj ha)).1.symm

/-- A reservation that was refused is for the reference of one that has won. -/
theorem won_of_refused (hrun : storage.Runs (.initial .initial) labels c) {i : Nat}
    {call : ReserveCall} (hi : c.threads[i]? = some (.reserve call (.done (.returned false)))) :
    ∃ j call', j ≠ i ∧ c.threads[j]? = some (.reserve call' (.done (.returned true))) ∧
      call'.reference = call.reference := by
  obtain ⟨-, hcompletes⟩ := storage_history hrun
  obtain ⟨-, hknown⟩ := (storageHolds_run hrun).2 i _ hi
  cases hknown with
  | refused _ hconflicts =>
      simp only [referenceConflicts, List.any_eq_true, decide_eq_true_eq] at hconflicts
      obtain ⟨row, hrow, hreference⟩ := hconflicts
      rw [storage_references hrun, List.mem_filterMap] at hrow
      obtain ⟨⟨j, result⟩, hevent, hwon⟩ := hrow
      obtain ⟨call', rfl, rfl⟩ := wonRow_eq_some_iff.mp hwon
      obtain ⟨t, hj, houtcome⟩ := (hcompletes.2 j _).mp hevent
      obtain rfl := storageOutcome_reserve houtcome
      refine ⟨j, call', ?_, hj, hreference⟩
      rintro rfl
      rw [hi] at hj
      simp at hj

/-- The value of an allocation that has returned is its committed row: the only
one of its machine identifier, and the only one of its number, in its counter. -/
theorem allocation_of_returned (hrun : storage.Runs (.initial .initial) labels c) {i : Nat}
    {call : AllocateCall} {n : Nat}
    (hi : c.threads[i]? = some (.allocate ⟨call, .done (.returned n)⟩)) :
    call.allocation n ∈ c.shared.committed.allocations ∧
      ∀ r ∈ c.shared.committed.allocations, r.key = call.key →
        (r.machineId = call.machineId ↔ r.sequence = n) := by
  obtain ⟨hsound, hknows⟩ := storageHolds_run hrun
  have hdb : c.shared.committed.Consistent := hsound.server.consistent
  obtain ⟨-, hknown⟩ := hknows i _ hi
  cases hknown with
  | returned _ _ hreplays =>
      have hrow := hreplays.allocation_mem
      refine ⟨hrow, fun r hr hkey => ⟨fun hid => ?_, fun hsequence => ?_⟩⟩
      · rw [hdb.eq_of_machineKey hr hrow (Prod.ext hkey hid)]
        rfl
      · rw [hdb.eq_of_sequence hr hrow hkey hsequence]
        rfl

/-- A call that has completed stays as it is. -/
theorem storage_stays {i : Nat} {t : StorageSession} (hdone : (storageOutcome t).isSome = true)
    {later : List (Label StorageCall Input)} {c' : Config Storage StorageSession}
    (hlater : storage.Runs c later c') (hi : c.threads[i]? = some t) :
    c'.threads[i]? = some t := by
  refine stays (fun s b => ?_) hlater hi
  by_contra hstep
  obtain ⟨⟨s', t'⟩, hstep⟩ := Option.ne_none_iff_exists'.mp hstep
  rw [storageOutcome_of_step hstep] at hdone
  contradiction

/-- **Linearizability of the storage**, for any number of calls of both functions in
any order of their statements, with aborts:

* the calls, in the order they complete, are calls of the serial functions that
  lead to the committed tables, and these are consistent;
* `identifold_references` holds the rows of the reservations that returned `true`, in
  the order they completed, and of no others;
* no two of them are for one reference, and a reservation that returned `false`
  was for a reference that another has;
* the value that an allocation returned is, from then on, its row: the only one of its
  machine identifier and the only one of its number in its counter;
* no call fails with a unique violation. -/
theorem storage_linearizable (hrun : storage.Runs (.initial .initial) labels c) :
    let history := completions storage storageOutcome (.initial .initial) labels
    (Run StorageSerial .empty history c.shared.committed ∧ Completes storageOutcome c history ∧
        c.shared.committed.Consistent) ∧
      c.shared.committed.references = history.filterMap wonRow ∧
      (∀ (i j : Nat) call call', i ≠ j →
        c.threads[i]? = some (.reserve call (.done (.returned true))) →
        c.threads[j]? = some (.reserve call' (.done (.returned true))) →
        call.reference ≠ call'.reference) ∧
      (∀ (i : Nat) call, c.threads[i]? = some (.reserve call (.done (.returned false))) →
        ∃ j call', j ≠ i ∧ c.threads[j]? = some (.reserve call' (.done (.returned true))) ∧
          call'.reference = call.reference) ∧
      (∀ (i : Nat) call n, c.threads[i]? = some (.allocate ⟨call, .done (.returned n)⟩) →
        ∀ later c', storage.Runs c later c' →
          call.allocation n ∈ c'.shared.committed.allocations ∧
            ∀ r ∈ c'.shared.committed.allocations, r.key = call.key →
              (r.machineId = call.machineId ↔ r.sequence = n)) ∧
      ∀ (i : Nat) call error, (c.threads[i]? = some (.reserve call (.done (.failed error))) ∨
        ∃ call, c.threads[i]? = some (.allocate ⟨call, .done (.failed error)⟩)) →
        error.errcode ≠ uniqueViolation.errcode := by
  intro history
  obtain ⟨hserial, hcompletes⟩ := storage_history hrun
  obtain ⟨hsound, hknows⟩ := storageHolds_run hrun
  refine ⟨⟨hserial, hcompletes, hsound.server.consistent⟩, storage_references hrun,
    fun i j call call' hne hi hj => reference_ne_of_won hrun hne hi hj,
    fun i call hi => won_of_refused hrun hi, fun i call n hi later c' hlater =>
      allocation_of_returned (hrun.append hlater) (storage_stays rfl hlater hi), ?_⟩
  rintro i call error (hi | ⟨call, hi⟩)
  · obtain ⟨-, hknown⟩ := hknows i _ hi
    cases hknown with
    | failed => decide
  · obtain ⟨-, hknown⟩ := hknows i _ hi
    cases hknown with
    | failed _ _ hunique => exact hunique

/-- Three reservations of one reference and an allocation: the first is aborted after
its insert, the second wins, and the third finds its row. -/
theorem storage_linearizable_sample :
    let call : ReserveCall := ⟨[1, 159], "order".toList, "ORD-7K4M-2P8Q-3D-9".toList⟩
    let rival : ReserveCall := { call with machineId := [1, 160] }
    let allocation : AllocateCall := ⟨[1, 161], "invoice".toList, "INV".toList, none, 6⟩
    let proceed (i : Nat) : Label StorageCall Input := .step i .proceed
    let labels := [.start (.reserve call), .start (.reserve rival), .start (.allocate allocation),
      .start (.reserve call), proceed 0, proceed 2, .step 0 .abort, proceed 1, proceed 2, proceed 1,
      proceed 2, proceed 2, proceed 3, proceed 2, proceed 2, proceed 2, proceed 3, proceed 2]
    ∃ c, storage.Runs (.initial .initial) labels c ∧
      c.threads = [.reserve call (.done .aborted), .reserve rival (.done (.returned true)),
        .allocate ⟨allocation, .done (.returned 1)⟩, .reserve call (.done (.returned false))] ∧
      c.shared.committed.references =
        (completions storage storageOutcome (.initial .initial) labels).filterMap wonRow ∧
      allocation.allocation 1 ∈ c.shared.committed.allocations := by
  intro call rival allocation proceed labels
  have hlabels : (labels.foldlM storage.next (.initial .initial)).map (·.threads) =
      some [.reserve call (.done .aborted), .reserve rival (.done (.returned true)),
        .allocate ⟨allocation, .done (.returned 1)⟩, .reserve call (.done (.returned false))] := by
    decide
  obtain ⟨c, hc, hthreads⟩ := Option.map_eq_some_iff.mp hlabels
  have hrun := Run.of_foldlM hc
  have hreturned : c.threads[2]? = some (.allocate ⟨allocation, .done (.returned 1)⟩) := by
    rw [hthreads]
    rfl
  obtain ⟨-, hreferences, -, -, hallocated, -⟩ := storage_linearizable hrun
  exact ⟨c, hrun, hthreads, hreferences, (hallocated 2 _ 1 hreturned [] c (.nil c)).1⟩

end Runs

end Postgres

end Identifold
