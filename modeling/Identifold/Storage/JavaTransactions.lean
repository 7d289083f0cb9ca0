import Identifold.Storage.JavaConnection

/-!
# Identifold.Storage.JavaTransactions

Which transactions the Java adapter leaves to the connection.

A part of the transaction passes, throws or ends in its `COMMIT`, and there is
one rule for each construct of the program that says how the three go through
it.  From the parts, the transaction throws what the inner `catch` blocks name
unless it gets to its `COMMIT`, with two exceptions to this: an identifier that
is not read, and a null prefix that is compared.
-/

namespace Identifold

namespace Sqlite

open Script

namespace Java

/-! ## what is left of a script -/

namespace Session

/-- The session with other tables. -/
def write (s : Session) (db : Database) : Session := { s with connection := s.connection.write db }

/-- A session reads what it has written. -/
@[simp] theorem view_write (s : Session) (db : Database) : (s.write db).connection.view = db := by
  unfold write Connection.write
  split
  · rfl
  · rename_i h
    simp [Connection.view, h]

end Session

/-- An exception that the inner `catch` blocks name. -/
def Handled (exception : Exception) : Prop := exception = .sql ∨ ∃ code, exception = .completion code

section Faultless

variable {faults : Call → Bool} {calls calls' : List Call}

@[simp] theorem faultless_nil : Faultless faults [] := nofun

theorem faultless_cons {c : Call} :
    Faultless faults (c :: calls) ↔ faults c = false ∧ Faultless faults calls :=
  List.forall_mem_cons

/-- The calls of two blocks are without fault when those of each are. -/
theorem faultless_append :
    Faultless faults (calls ++ calls') ↔ Faultless faults calls ∧ Faultless faults calls' :=
  List.forall_mem_append

end Faultless

section Rules

variable {α β : Type} {faults : Call → Bool} {s t : Session}

/-- The script has thrown, with nothing issued. -/
def Throws (E : Exception → Prop) (s : Session) (r : Except Exception α × Session) : Prop :=
  r.2.events = s.events ∧ ∃ exception, r.1 = .error exception ∧ E exception

/-- The script has issued its `COMMIT`; what it throws is named by the inner
`catch` blocks. -/
def Issues (K : α → Prop) (s : Session) (r : Except Exception α × Session) : Prop :=
  r.2.events = s.events ++ [.commitIssued] ∧ match r.1 with
    | .ok a => K a
    | .error exception => Handled exception

/-- The script returns where `reach` holds, and throws where it does not. -/
def Passes (reach : Prop) (a : α) (t s : Session) (r : Except Exception α × Session) : Prop :=
  reach ∧ r = (.ok a, t) ∨ ¬ reach ∧ Throws Handled s r

/-- A call throws where the schedule has a fault, and touches nothing. -/
theorem run_call (point : Call) :
    run (call faults point) s = (if faults point = true then .error .sql else .ok (), s) := by
  rw [call, run_fromExcept]
  cases faults point <;> rfl

/-- Behind a call without fault the script goes on. -/
theorem call_bind_of_false {point : Call} (h : faults point = false)
    (f : Unit → Script Session Exception α) :
    run (call faults point >>= f) s = run (f ()) s := by
  rw [run_bind, run_call, h]
  rfl

theorem passes_call (point : Call) : Passes (faults point = false) () s s (run (call faults point) s) := by
  rw [run_call]
  cases h : faults point with
  | false => exact .inl ⟨rfl, rfl⟩
  | true => exact .inr ⟨nofun, rfl, .sql, rfl, .inl rfl⟩

/-- What is thrown is thrown by everything behind it. -/
theorem Throws.bind {E : Exception → Prop} {x : Script Session Exception α}
    (h : Throws E s (run x s)) (f : α → Script Session Exception β) :
    Throws E s (run (x >>= f) s) := by
  obtain ⟨hevents, exception, herror, hE⟩ := h
  rw [run_bind]
  cases hrun : run x s with
  | mk outcome t =>
      rw [hrun] at hevents herror
      subst herror
      exact ⟨hevents, exception, rfl, hE⟩

/-- A call with a fault throws an exception that the adapter handles. -/
theorem throws_call {point : Call} (h : faults point = true) (f : Unit → Script Session Exception α) :
    Throws Handled s (run (call faults point >>= f) s) := by
  rw [run_bind, run_call, h]
  exact ⟨rfl, .sql, rfl, .inl rfl⟩

/-- A call before a failure only adds a way to fail. -/
theorem Throws.call_bind {point : Call} {f : Unit → Script Session Exception α}
    (h : Throws Handled s (run (f ()) s)) : Throws Handled s (run (call faults point >>= f) s) := by
  cases hpoint : faults point with
  | false => rwa [call_bind_of_false hpoint]
  | true => exact throws_call hpoint f

/-- A `close` that throws in turn is suppressed: the exception of the body stays. -/
theorem Throws.withClose {E : Exception → Prop} {body : Script Session Exception α}
    (h : Throws E s (run body s)) (point : Call) :
    Throws E s (run (withClose (call faults point) body) s) := by
  obtain ⟨hevents, exception, herror, hE⟩ := h
  rw [run_withClose]
  cases hrun : run body s with
  | mk outcome t =>
      rw [hrun] at hevents herror
      subst herror
      exact ⟨hevents, exception, rfl, hE⟩

/-- Once the `COMMIT` is issued, a `close` may throw, and nothing else is done. -/
theorem Issues.withClose {K : α → Prop} {body : Script Session Exception α}
    (h : Issues K s (run body s)) (point : Call) :
    Issues K s (run (withClose (call faults point) body) s) := by
  rw [run_withClose]
  cases hrun : run body s with
  | mk outcome t =>
      rw [hrun] at h
      cases outcome with
      | error exception => exact ⟨h.1, h.2⟩
      | ok a =>
          simp only [run_call]
          cases faults point with
          | false => exact h
          | true => exact ⟨h.1, .inl rfl⟩

/-- Two blocks pass when both do, if the first has left no events. -/
theorem Passes.bind {P R : Prop} {a : α} {b : β} {u : Session} {x : Script Session Exception α}
    {f : α → Script Session Exception β} (hx : Passes P a t s (run x s))
    (ht : t.events = s.events) (hf : Passes R b u t (run (f a) t)) :
    Passes (P ∧ R) b u s (run (x >>= f) s) := by
  rcases hx with ⟨hP, hrun⟩ | ⟨hP, hthrows⟩
  · rw [run_bind, hrun]
    rcases hf with ⟨hR, hrun'⟩ | ⟨hR, hevents, hthrown⟩
    · exact .inl ⟨⟨hP, hR⟩, hrun'⟩
    · exact .inr ⟨fun h => hR h.2, hevents.trans ht, hthrown⟩
  · exact .inr ⟨fun h => hP h.1, hthrows.bind f⟩

/-- A block passes its resource when the `close` has no fault either. -/
theorem Passes.withClose {P : Prop} {a : α} {body : Script Session Exception α} {point : Call}
    (h : Passes P a t s (run body s)) (ht : t.events = s.events) :
    Passes (P ∧ faults point = false) a t s (run (withClose (call faults point) body) s) := by
  rcases h with ⟨hP, hrun⟩ | ⟨hP, hthrows⟩
  · rw [run_withClose, hrun]
    simp only [run_call]
    cases hpoint : faults point with
    | false => exact .inl ⟨⟨hP, rfl⟩, rfl⟩
    | true => exact .inr ⟨by simp, ht, .sql, rfl, .inl rfl⟩
  · exact .inr ⟨fun h => hP h.1, hthrows.withClose point⟩

/-- A check of the adapter passes where its condition holds. -/
theorem passes_demand (condition : Prop) [Decidable condition] (code : IdentifoldErrorCode) :
    Passes condition () s s (run (demand condition code) s) := by
  rw [demand, run_fromExcept]
  by_cases h : condition
  · rw [ensure_of h]
    exact .inl ⟨h, rfl⟩
  · rw [ensure_of_not h]
    exact .inr ⟨h, rfl, .completion code, rfl, .inr ⟨code, rfl⟩⟩

/-- A handled exception behind a block that passes: thrown by the block, or by what
follows. -/
theorem Passes.throws {P : Prop} {a : α} {x : Script Session Exception α}
    {f : α → Script Session Exception β} (hx : Passes P a t s (run x s)) (ht : t.events = s.events)
    (hf : Throws Handled t (run (f a) t)) : Throws Handled s (run (x >>= f) s) := by
  rcases hx with ⟨-, hrun⟩ | ⟨-, hthrows⟩
  · rw [run_bind, hrun]
    exact ⟨hf.1.trans ht, hf.2⟩
  · exact hthrows.bind f

/-- The script issues its `COMMIT` where `reach` holds, and throws where it
does not. -/
def Ends (reach : Prop) (K : α → Prop) (s : Session) (r : Except Exception α × Session) : Prop :=
  reach ∧ Issues K s r ∨ ¬ reach ∧ Throws Handled s r

/-- What ends a transaction ends it behind a block that passes. -/
theorem Passes.ends {P R : Prop} {K : β → Prop} {a : α} {x : Script Session Exception α}
    {f : α → Script Session Exception β} (hx : Passes P a t s (run x s)) (ht : t.events = s.events)
    (hf : Ends R K t (run (f a) t)) : Ends (P ∧ R) K s (run (x >>= f) s) := by
  rcases hx with ⟨hP, hrun⟩ | ⟨hP, hthrows⟩
  · rw [run_bind, hrun]
    rcases hf with ⟨hR, hevents, hK⟩ | ⟨hR, hthrown⟩
    · exact .inl ⟨⟨hP, hR⟩, ht ▸ hevents, hK⟩
    · exact .inr ⟨fun h => hR h.2, hthrown.1.trans ht, hthrown.2⟩
  · exact .inr ⟨fun h => hP h.1, hthrows.bind f⟩

theorem Ends.congr {P R : Prop} {K : α → Prop} {r : Except Exception α × Session}
    (h : Ends P K s r) (hPR : P ↔ R) : Ends R K s r := by
  rwa [← propext hPR]

/-- A handled exception ends the transaction, on no path by a `COMMIT`. -/
theorem Ends.of_throws {K : α → Prop} {r : Except Exception α × Session} (h : Throws Handled s r) :
    Ends False K s r :=
  .inr ⟨id, h⟩

theorem Ends.throws {P : Prop} {K : α → Prop} {r : Except Exception α × Session} (h : Ends P K s r)
    (hP : ¬ P) : Throws Handled s r :=
  (h.resolve_left fun h => hP h.1).2

/-- The `close` of a resource does not change how the body has ended. -/
theorem Ends.withClose {P : Prop} {K : α → Prop} {body : Script Session Exception α}
    (h : Ends P K s (run body s)) (point : Call) :
    Ends P K s (run (withClose (call faults point) body) s) :=
  h.imp (fun h => ⟨h.1, h.2.withClose point⟩) fun h => ⟨h.1, h.2.withClose point⟩

/-- What is computed from the row after the `COMMIT` touches nothing. -/
theorem Issues.bind {K : α → Prop} {L : β → Prop} {x : Script Session Exception α}
    {f : α → Script Session Exception β} (hx : Issues K s (run x s))
    (hf : ∀ a t, K a → ∃ b, run (f a) t = (.ok b, t) ∧ L b) : Issues L s (run (x >>= f) s) := by
  rw [run_bind]
  cases hrun : run x s with
  | mk outcome t =>
      rw [hrun] at hx
      cases outcome with
      | error exception => exact hx
      | ok a =>
          obtain ⟨b, hb, hL⟩ := hf a t hx.2
          simp only [hb]
          exact ⟨hx.1, hL⟩

/-- The same for a transaction that may end otherwise. -/
theorem Ends.bind {P : Prop} {K : α → Prop} {L : β → Prop} {x : Script Session Exception α}
    {f : α → Script Session Exception β} (hx : Ends P K s (run x s))
    (hf : ∀ a t, K a → ∃ b, run (f a) t = (.ok b, t) ∧ L b) : Ends P L s (run (x >>= f) s) :=
  hx.imp (fun h => ⟨h.1, h.2.bind hf⟩) fun h => ⟨h.1, h.2.bind f⟩

theorem Passes.congr {P R : Prop} {a : α} {r : Except Exception α × Session} (h : Passes P a t s r)
    (hPR : P ↔ R) : Passes R a t s r := by
  rwa [← propext hPR]

/-! ### statements -/

/-- A statement whose body throws a handled exception throws one, whether it could be
prepared or not. -/
theorem Throws.prepared_of_handled {statement : Statement} {body : Script Session Exception α}
    (h : Throws Handled s (run body s)) : Throws Handled s (run (prepared faults statement body) s) :=
  (h.withClose _).call_bind

/-- A statement that has been prepared throws what its body throws. -/
theorem Throws.prepared {E : Exception → Prop} {statement : Statement}
    {body : Script Session Exception α} (hprepare : faults (.prepare statement) = false)
    (h : Throws E s (run body s)) : Throws E s (run (prepared faults statement body) s) := by
  rw [Java.prepared, call_bind_of_false hprepare]
  exact h.withClose _

/-- It issues the `COMMIT` of its body. -/
theorem Issues.prepared {K : α → Prop} {statement : Statement} {body : Script Session Exception α}
    (hprepare : faults (.prepare statement) = false) (h : Issues K s (run body s)) :
    Issues K s (run (prepared faults statement body) s) := by
  rw [Java.prepared, call_bind_of_false hprepare]
  exact h.withClose _

/-- It passes where its preparation, its body and its `close` do. -/
theorem Passes.prepared {P : Prop} {a : α} {statement : Statement} {body : Script Session Exception α}
    (h : Passes P a t s (run body s)) (ht : t.events = s.events) :
    Passes (faults (.prepare statement) = false ∧ P ∧ faults (.closeStatement statement) = false) a t s
      (run (prepared faults statement body) s) :=
  (passes_call _).bind rfl (h.withClose ht)

/-- An update that the tables admit. -/
theorem passes_updated {statement : Statement} {change : Database → Except IdentifoldError Database}
    {db : Database} (h : change s.connection.view = .ok db) :
    Passes (faults (.bind statement) = false ∧ faults (.execute statement) = false) ()
      (s.write db) s
      (run (updated faults statement change) s) := by
  refine (((passes_call _).bind rfl ((passes_call _).bind (R := True) rfl (.inl ⟨trivial, ?_⟩)))).congr
    (by simp)
  rw [effectOf, run_step, Connection.update, h]
  rfl

/-- An update that the tables reject. -/
theorem throws_updated {statement : Statement} {change : Database → Except IdentifoldError Database}
    {error : IdentifoldError} (h : change s.connection.view = .error error) :
    Throws Handled s (run (updated faults statement change) s) := by
  refine Throws.call_bind (Throws.call_bind ⟨?_, .sql, ?_, .inl rfl⟩) <;>
    simp only [effectOf, run_step, Connection.update, h]
  rfl

/-- A query reads the view of the connection. -/
theorem query_bind (select : Database → α) (f : α → Script Session Exception β) :
    run (effectOf (·.query select) >>= f) s = run (f (select s.connection.view)) s := rfl

/-- A query with its row passes where no call around it has a fault. -/
theorem Passes.queried {statement : Statement} {select : Database → Option α} {row : Option α}
    {body : Option α → Script Session Exception β} {b : β} {P : Prop}
    (hrow : select s.connection.view = row) (h : Passes P b s s (run (body row) s)) :
    Passes (Faultless faults (opening statement) ∧ P ∧
        Faultless faults [.closeResult statement, .closeStatement statement]) b s s
      (run (Java.prepared faults statement (queried faults statement select body)) s) := by
  have hquery : Passes True row s s (run (effectOf (·.query select)) s) := by
    subst hrow
    exact .inl ⟨trivial, rfl⟩
  refine (Passes.prepared ((passes_call _).bind rfl ((passes_call _).bind rfl (hquery.bind rfl
    (((passes_call _).bind rfl h).withClose rfl)))) rfl).congr ?_
  simp [opening, faultless_cons]
  tauto

/-- A query ends as what is made of its row ends, where it could be opened. -/
theorem Ends.queried {statement : Statement} {select : Database → Option α} {row : Option α}
    {body : Option α → Script Session Exception β} {K : β → Prop} {P : Prop}
    (hrow : select s.connection.view = row) (h : Ends P K s (run (body row) s)) :
    Ends (Faultless faults (opening statement) ∧ P) K s
      (run (prepared faults statement (queried faults statement select body)) s) := by
  have hquery : Passes True row s s (run (effectOf (·.query select)) s) := by
    subst hrow
    exact .inl ⟨trivial, rfl⟩
  refine ((passes_call _).ends rfl (Ends.withClose ((passes_call _).ends rfl ((passes_call _).ends rfl
    (hquery.ends rfl (((passes_call _).ends rfl h).withClose _)))) _)).congr ?_
  simp [opening, faultless_cons]
  tauto

/-- It throws a handled exception where what is made of its row does. -/
theorem Throws.queried {statement : Statement} {select : Database → Option α} {row : Option α}
    {body : Option α → Script Session Exception β} (hrow : select s.connection.view = row)
    (h : Throws Handled s (run (body row) s)) :
    Throws Handled s (run (Java.prepared faults statement (Java.queried faults statement select body)) s) :=
  (Ends.queried (K := fun _ => True) hrow (.of_throws h)).throws nofun

/-- The driver does not get to the row. -/
theorem throws_of_not_faultless {statement : Statement} {select : Database → Option α}
    {body : Option α → Script Session Exception β} (hfaults : ¬ Faultless faults (opening statement)) :
    Throws Handled s (run (prepared faults statement (queried faults statement select body)) s) := by
  rw [prepared]
  cases hprepare : faults (.prepare statement) with
  | true => exact throws_call hprepare _
  | false =>
      rw [call_bind_of_false hprepare, queried]
      refine Throws.withClose ?_ _
      cases hbind : faults (.bind statement) with
      | true => exact throws_call hbind _
      | false =>
          rw [call_bind_of_false hbind]
          cases hexecute : faults (.execute statement) with
          | true => exact throws_call hexecute _
          | false =>
              rw [call_bind_of_false hexecute, query_bind]
              refine Throws.withClose (throws_call ?_ _) _
              simpa [opening, faultless_cons, hprepare, hbind, hexecute] using hfaults

/-- What a row throws, where the driver gets to it. -/
theorem Throws.queried_of_faultless {E : Exception → Prop} {statement : Statement}
    {select : Database → Option α} {row : Option α} {body : Option α → Script Session Exception β}
    (hfaults : Faultless faults (opening statement)) (hrow : select s.connection.view = row)
    (h : Throws E s (run (body row) s)) :
    Throws E s (run (Java.prepared faults statement (Java.queried faults statement select body)) s) := by
  subst hrow
  refine Throws.prepared (hfaults _ (by simp [opening])) ?_
  rw [Java.queried, call_bind_of_false (hfaults _ (by simp [opening])),
    call_bind_of_false (hfaults _ (by simp [opening])), query_bind]
  refine Throws.withClose ?_ _
  rw [call_bind_of_false (hfaults _ (by simp [opening]))]
  exact h

/-- A `COMMIT` or `ROLLBACK` that is issued, whatever comes of it. -/
theorem run_issued (event : Event) (statement : Statement)
    (effect : Connection → Except Thrown Unit × Connection) :
    ∃ outcome t, run (record event >>= fun _ => call faults (.execute statement) >>= fun _ =>
        effectOf effect) s = (outcome, t) ∧
      t.events = s.events ++ [event] ∧ (outcome = .ok () ∨ outcome = .error .sql) := by
  rw [record, run_bind, run_step]
  simp only
  rw [run_bind, run_call]
  cases faults (.execute statement) with
  | true => exact ⟨_, _, rfl, rfl, .inr rfl⟩
  | false =>
      refine ⟨_, _, rfl, rfl, ?_⟩
      cases (effect s.connection).1 with
      | ok => exact .inl rfl
      | error error => exact .inr rfl

/-- The `COMMIT` ends the transaction where its statement can be prepared. -/
theorem ends_commit {K : β → Prop} {b : β} (hb : K b) :
    Ends (faults (.prepare .commit) = false) K s
      (run (commit faults >>= fun _ => pure b) s) := by
  cases hprepare : faults (.prepare .commit) with
  | true => exact .inr ⟨nofun, (throws_call hprepare _).bind _⟩
  | false =>
      have hissues : Issues (fun _ => True) s (run (commit faults) s) := by
        obtain ⟨outcome, t, hrun, hevents, houtcome⟩ := run_issued .commitIssued .commit Connection.commit
        refine Issues.prepared hprepare ?_
        rw [hrun]
        rcases houtcome with rfl | rfl
        · exact ⟨hevents, trivial⟩
        · exact ⟨hevents, .inl rfl⟩
      exact .inl ⟨rfl, hissues.bind fun _ t _ => ⟨b, rfl, hb⟩⟩

end Rules

/-! ## the parts of the transaction -/

section Parts

variable {faults : Call → Bool} {request : SequenceAllocationRequest} {machineId : MachineBytes}
  {s : Session}

/-- The comparison of a stored prefix with the requested one does not throw. -/
theorem passes_equalsPrefix {value column : Text} :
    Passes True (decide (value = column)) s s
      (run (fromExcept (equalsPrefix (some value) column)) s) :=
  .inl ⟨trivial, rfl⟩

/-- The row of a replay, for a prefix that is not null. -/
theorem ends_replay {existing : AllocationRow} {value : Text} (hpre : request.refPrefix = some value) :
    Ends (value = existing.refPrefix ∧ request.width = existing.width ∧
        Faultless faults [.get .selectAllocation 2, .get .selectAllocation 3,
          .get .selectAllocation 1, .prepare .commit]) (· = some existing.sequence) s
      (run (replay faults request (some existing)) s) := by
  rw [replay, hpre]
  exact ((passes_call _).ends rfl (passes_equalsPrefix.ends rfl ((passes_demand _ _).ends rfl
    ((passes_call _).ends rfl ((passes_demand _ _).ends rfl ((passes_call _).ends rfl
      (ends_commit (by rfl)))))))).congr (by simp [faultless_cons]; tauto)

/-- The row of a replay is compared with null. -/
theorem throws_replay {existing : AllocationRow} (hpre : request.refPrefix = none)
    (hget : faults (.get .selectAllocation 2) = false) :
    Throws (· = .nullPointer) s (run (replay faults request (some existing)) s) := by
  rw [replay, hpre, call_bind_of_false hget]
  exact ⟨rfl, .nullPointer, rfl, rfl⟩

/-- The row of the counter. -/
theorem passes_readCurrent {state : SequenceRow} {value : Text}
    (hpre : request.refPrefix = some value) :
    Passes (value = state.refPrefix ∧ request.width = state.width ∧
        Faultless faults [.get .selectSequence 1, .get .selectSequence 2, .get .selectSequence 3])
      state.lastValue s s (run (readCurrent faults request (some state)) s) := by
  rw [readCurrent, hpre]
  exact ((passes_call _).bind rfl (passes_equalsPrefix.bind rfl ((passes_demand _ _).bind rfl
    ((passes_call _).bind rfl ((passes_demand _ _).bind rfl ((passes_call _).bind (R := True) rfl
      (.inl ⟨trivial, rfl⟩))))))).congr (by simp [faultless_cons]; tauto)

/-- A counter that is not found is an exception that the adapter handles. -/
theorem throws_readCurrent : Throws Handled s (run (readCurrent faults request none) s) :=
  ⟨rfl, _, rfl, .inr ⟨_, rfl⟩⟩

/-- The number is recorded where the tables admit its row. -/
theorem passes_recordNumber {allocated : Nat} {db : Database}
    (hrecord : insertAllocation request machineId allocated
      (updateSequence request allocated s.connection.view) = .ok db) :
    Passes (Faultless faults [.prepare .updateSequence, .prepare .insertAllocation,
        .bind .updateSequence, .execute .updateSequence, .bind .insertAllocation,
        .execute .insertAllocation, .closeStatement .insertAllocation,
        .closeStatement .updateSequence]) ()
      ((s.write (updateSequence request allocated s.connection.view)).write db) s
      (run (recordNumber faults request machineId allocated) s) := by
  have hupdate : Passes (faults (.bind .updateSequence) = false ∧
      faults (.execute .updateSequence) = false) ()
      (s.write (updateSequence request allocated s.connection.view)) s
      (run (updated faults .updateSequence fun db => .ok (updateSequence request allocated db)) s) :=
    passes_updated rfl
  rw [← Session.view_write s (updateSequence request allocated s.connection.view)] at hrecord
  refine Passes.congr (Passes.prepared (Passes.prepared (hupdate.bind rfl
    (passes_updated hrecord)) ?_) ?_) ?_
  · rfl
  · rfl
  · simp [faultless_cons]
    tauto

/-- A number that the tables refuse is a handled exception. -/
theorem throws_recordNumber {allocated : Nat} {error : IdentifoldError}
    (hrecord : insertAllocation request machineId allocated
      (updateSequence request allocated s.connection.view) = .error error) :
    Throws Handled s (run (recordNumber faults request machineId allocated) s) := by
  have hupdate : Passes (faults (.bind .updateSequence) = false ∧
      faults (.execute .updateSequence) = false) ()
      (s.write (updateSequence request allocated s.connection.view)) s
      (run (updated faults .updateSequence fun db => .ok (updateSequence request allocated db)) s) :=
    passes_updated rfl
  rw [← Session.view_write s (updateSequence request allocated s.connection.view)] at hrecord
  exact (hupdate.throws rfl (throws_updated hrecord)).prepared_of_handled.prepared_of_handled

/-- A counter row that was inserted has a prefix. -/
theorem isSome_refPrefix_of_insertSequence {db db' : Database}
    (h : insertSequence request db = .ok db') : ∃ value, request.refPrefix = some value := by
  unfold insertSequence at h
  split at h
  · rename_i hpre
    exact ⟨_, hpre⟩
  · contradiction

theorem fromExcept_ok_bind {α β : Type} (a : α) (f : α → Script Session Exception β) :
    run (fromExcept (.ok a) >>= f) s = run (f a) s := rfl

/-- A replay. -/
theorem ends_transaction_of_bound {existing : AllocationRow}
    (hrow : boundRow request machineId s.connection.view = some existing)
    (hnull : ¬ ComparesNull faults request machineId s.connection.view) :
    Ends (CommitsReplay faults request machineId s.connection.view) (fun _ => True) s
      (run (transaction faults request (.ok machineId)) s) := by
  rw [transaction, fromExcept_ok_bind]
  cases hpre : request.refPrefix with
  | none =>
      have hthrows : Throws Handled s (run (prepared faults .selectAllocation
          (queried faults .selectAllocation
            (fun db => (keyOf request).bind (db.selectAllocation · machineId))
            (replay faults request))) s) := by
        by_cases hopening : Faultless faults (opening .selectAllocation)
        · refine Throws.queried hrow ?_
          have hget : faults (.get .selectAllocation 2) = true := by
            simpa [ComparesNull, hpre, hrow, faultless_append, hopening, faultless_cons] using hnull
          exact throws_call hget _
        · exact throws_of_not_faultless hopening
      exact (Ends.of_throws (hthrows.bind _)).congr (by simp [CommitsReplay, hpre])
  | some value =>
      refine (Ends.bind (Ends.queried hrow (ends_replay hpre)) ?_).congr ?_
      · rintro replayed t rfl
        exact ⟨existing.sequence, rfl, trivial⟩
      · simp [CommitsReplay, hrow, hpre, faultless_append, faultless_cons]
        tauto

/-- A new number. -/
theorem ends_transaction_of_unbound (hrow : boundRow request machineId s.connection.view = none) :
    Ends (CommitsNumber faults request machineId s.connection.view) (fun _ => True) s
      (run (transaction faults request (.ok machineId)) s) := by
  have hlookup : Passes True none s s (run (replay faults request none) s) := .inl ⟨trivial, rfl⟩
  rw [transaction, fromExcept_ok_bind]
  -- every block passes until a row is refused or missing
  cases hinsert : insertSequence request s.connection.view with
  | error error =>
      refine (Ends.of_throws ((Passes.queried hrow hlookup).throws rfl ?_)).congr ?_
      · exact (throws_updated hinsert).prepared_of_handled.bind _
      · simp [CommitsNumber, hinsert]
  | ok db' =>
      obtain ⟨value, hpre⟩ := isSome_refPrefix_of_insertSequence hinsert
      have hview : (s.write db').connection.view = db' := s.view_write db'
      cases hstate : (keyOf request).bind db'.selectSequence with
      | none =>
          -- the row of the counter is not found: another namespace has its prefix
          refine (Ends.of_throws ((Passes.queried hrow hlookup).throws rfl
            (Passes.throws (Passes.prepared (passes_updated hinsert) rfl) rfl ?_))).congr ?_
          · exact (Throws.queried (by rw [hview]; exact hstate) throws_readCurrent).bind _
          · simp [CommitsNumber, hinsert, hstate]
      | some state =>
          have hcurrent : (keyOf request).bind (s.write db').connection.view.selectSequence =
              some state := by
            rw [hview]
            exact hstate
          cases hrecord : insertAllocation request machineId (state.lastValue + 1)
              (updateSequence request (state.lastValue + 1) (s.write db').connection.view) with
          | error error =>
              refine (Ends.of_throws ((Passes.queried hrow hlookup).throws rfl
                (Passes.throws (Passes.prepared (passes_updated hinsert) rfl) rfl
                  (Passes.throws (Passes.queried hcurrent (passes_readCurrent hpre)) rfl
                    ((passes_demand _ _).throws rfl ?_))))).congr ?_
              · exact (throws_recordNumber hrecord).bind _
              · rw [hview] at hrecord
                simp [CommitsNumber, hinsert, hstate, hrecord]
          | ok db'' =>
              refine (Passes.ends (Passes.queried hrow hlookup) rfl
                (Passes.ends (Passes.prepared (passes_updated hinsert) rfl) rfl
                  (Passes.ends (Passes.queried hcurrent (passes_readCurrent hpre)) rfl
                    ((passes_demand _ _).ends rfl
                      ((passes_recordNumber hrecord).ends rfl (ends_commit trivial)))))).congr ?_
              rw [hview] at hrecord
              simp [CommitsNumber, hrow, hinsert, hstate, hrecord, hpre, faultless_append,
                faultless_cons]
              tauto

/-- A replay for a null prefix. -/
theorem throws_transaction (hnull : ComparesNull faults request machineId s.connection.view) :
    Throws (· = .nullPointer) s (run (transaction faults request (.ok machineId)) s) := by
  obtain ⟨hpre, hsome, hfaults⟩ := hnull
  obtain ⟨existing, hrow⟩ := Option.isSome_iff_exists.mp hsome
  obtain ⟨hopening, hget⟩ := faultless_append.mp hfaults
  rw [transaction, fromExcept_ok_bind]
  exact (Throws.queried_of_faultless hopening hrow
    (throws_replay hpre (hget _ (by simp)))).bind _

/-- The transaction, unless it compares null: it issues its `COMMIT` where it
gets to it, and throws what is handled where it does not. -/
theorem ends_transaction (hnull : ¬ ComparesNull faults request machineId s.connection.view) :
    Ends (Commits faults request machineId s.connection.view) (fun _ => True) s
      (run (transaction faults request (.ok machineId)) s) := by
  cases hrow : boundRow request machineId s.connection.view with
  | none =>
      refine (ends_transaction_of_unbound hrow).congr ?_
      simp [Commits, CommitsReplay, hrow]
  | some existing =>
      refine (ends_transaction_of_bound hrow hnull).congr ?_
      simp [Commits, CommitsNumber, hrow]

end Parts

/-! ## the handlers -/

section Handlers

variable {faults : Call → Bool} {s : Session}

/-- `rollback` returns, and issues its statement where that can be prepared. -/
theorem run_rollback (faults : Call → Bool) (s : Session) :
    ∃ t, run (rollback faults) s = (.ok (), t) ∧
      t.events = s.events ++ if faults (.prepare .rollback) = true then [] else [.rollbackIssued] := by
  rw [rollback, run_tryCatch, prepared, run_bind, run_call]
  cases faults (.prepare .rollback) with
  | true => exact ⟨s, rfl, by simp⟩
  | false =>
      obtain ⟨outcome, t, hrun, hevents, houtcome⟩ := run_issued .rollbackIssued .rollback Connection.rollback
      refine ⟨t, ?_, by simpa using hevents⟩
      simp only [Bool.false_eq_true, if_false]
      rw [run_withClose, hrun]
      rcases houtcome with rfl | rfl
      · simp only [run_call]
        cases faults (.closeStatement .rollback) <;> rfl
      · simp only [run_call]
        rfl

/-- A named exception is answered by a `ROLLBACK`. -/
theorem run_handleInner_of_handled (faults : Call → Bool) {exception : Exception}
    (h : Handled exception) :
    ∃ code t, run (handleInner faults exception : Script Session Exception Nat) s =
        (.error (.completion code), t) ∧
      t.events = s.events ++ if faults (.prepare .rollback) = true then [] else [.rollbackIssued] := by
  obtain ⟨t, hrun, hevents⟩ := run_rollback faults s
  rcases h with rfl | ⟨code, rfl⟩
  · refine ⟨.allocationConflict, t, ?_, hevents⟩
    rw [handleInner, run_bind, hrun]
    rfl
  · refine ⟨code, t, ?_, hevents⟩
    rw [handleInner, run_bind, hrun]
    rfl

/-- The connection with the transaction that `BEGIN IMMEDIATE` starts. -/
def Session.begun (c : Connection) : Session :=
  ⟨{ c with transaction := some ⟨.call, c.committed⟩ }, [.began]⟩

/-- What `BEGIN IMMEDIATE` does on an idle connection whose statement is executed. -/
theorem run_beginImmediate {c : Connection}
    (hbegins : Faultless faults [.prepare .beginImmediate, .execute .beginImmediate])
    (hidle : c.transaction = none) :
    run (beginImmediate faults) ⟨c, []⟩ =
      (if faults (.closeStatement .beginImmediate) = true then .error .sql else .ok (), .begun c) := by
  have hbegin : run (effectOf Connection.beginImmediate) ⟨c, []⟩ =
      (.ok (), ⟨(Session.begun c).connection, []⟩) := by
    rw [effectOf, run_step, Connection.beginImmediate, hidle]
    rfl
  rw [beginImmediate, prepared, call_bind_of_false (hbegins _ (by simp)), run_withClose,
    call_bind_of_false (hbegins _ (by simp)), run_bind, hbegin]
  simp only [record, run_step, run_call]
  cases faults (.closeStatement .beginImmediate) <;> rfl

/-- Otherwise it throws, and the connection is as it was. -/
theorem throws_beginImmediate {c : Connection}
    (h : ¬ (Faultless faults [.prepare .beginImmediate, .execute .beginImmediate] ∧
      c.transaction = none)) :
    Throws Handled ⟨c, []⟩ (run (beginImmediate faults) ⟨c, []⟩) := by
  rw [beginImmediate, prepared]
  cases hprepare : faults (.prepare .beginImmediate) with
  | true => exact throws_call hprepare _
  | false =>
      rw [call_bind_of_false hprepare]
      refine Throws.withClose ?_ _
      cases hexecute : faults (.execute .beginImmediate) with
      | true => exact throws_call hexecute _
      | false =>
          rw [call_bind_of_false hexecute]
          refine Throws.bind ?_ _
          obtain ⟨transaction, htransaction⟩ : ∃ transaction, c.transaction = some transaction :=
            Option.ne_none_iff_exists'.mp fun hidle => h ⟨by simp [faultless_cons, hprepare, hexecute], hidle⟩
          rw [effectOf, run_step, Connection.beginImmediate, htransaction]
          exact ⟨rfl, .sql, rfl, .inl rfl⟩

/-- The end of a call: the connection is closed. -/
theorem run_close (t : Session) :
    run (do record .closed; call faults .closeConnection) t =
      (if faults .closeConnection = true then .error .sql else .ok (),
        { t with events := t.events ++ [.closed] }) := by
  rw [run_bind, record, run_step]
  simp only [run_call]

/-- The `close` of the connection does not matter to the order of the events before
it. -/
theorem endsTransaction_iff {events : List Event} :
    EndsTransaction (events ++ [.closed]) ↔
      (.began ∈ events → .commitIssued ∈ events ∨ .rollbackIssued ∈ events) := by
  have hbegan : Event.began ∈ events ++ [.closed] ↔ .began ∈ events := by simp
  rw [EndsTransaction, hbegan]
  refine imp_congr_right fun _ => ⟨?_, fun h => ⟨events, rfl, h⟩⟩
  rintro ⟨before, heq, h⟩
  obtain rfl := List.append_cancel_right heq
  exact h

/-- A completion error carries a stable code. -/
theorem failsStably_completion (code : IdentifoldErrorCode) :
    FailsStably (.error (.completion code)) := by
  intro exception h
  cases h
  exact ⟨code, rfl⟩

/-- The transaction is told to end, and what is thrown can be named. -/
def Settles (r : Except Exception Nat × Session) : Prop :=
  (.began ∈ r.2.events → .commitIssued ∈ r.2.events ∨ .rollbackIssued ∈ r.2.events) ∧
    r.1 ≠ .error .nullPointer

/-- The outer `try` around a script: what is left of the law. -/
theorem closesTransaction_iff (hconnection : faults .getConnection = false)
    (body : Script Session Exception Nat) :
    ClosesTransaction (run (tryCatch
        (do
          call faults .getConnection
          withClose (do record .closed; call faults .closeConnection) body)
        handleOuter) s) ↔
      Settles (run body s) := by
  rw [run_tryCatch, call_bind_of_false hconnection, run_withClose, Settles]
  cases hrun : run body s with
  | mk outcome t =>
      cases outcome with
      | ok a =>
          simp only [run_close]
          have hstable : (.ok a : Except Exception Nat) ≠ .error .nullPointer := nofun
          rw [and_iff_left hstable, ← endsTransaction_iff]
          cases faults .closeConnection with
          | true => exact and_iff_left (failsStably_completion _)
          | false => exact and_iff_left nofun
      | error exception =>
          simp only [run_close]
          rw [← endsTransaction_iff]
          cases exception with
          | nullPointer =>
              refine and_congr_right fun _ => iff_of_false (fun h => ?_) (by simp)
              obtain ⟨code, hcode⟩ := h .nullPointer rfl
              contradiction
          | sql => exact and_congr_right fun _ => iff_of_true (failsStably_completion _) (by simp)
          | illegalArgument =>
              exact and_congr_right fun _ => iff_of_true (failsStably_completion _) (by simp)
          | completion code =>
              exact and_congr_right fun _ => iff_of_true (failsStably_completion _) (by simp)

end Handlers

/-! ## the law of a call -/

section Law

variable {faults : Call → Bool} {request : SequenceAllocationRequest} {c : Connection}
  {uuid : Text → Option MachineBytes}

theorem machineIdBytes_of_some {machineId : MachineBytes}
    (h : request.machineId.bind uuid = some machineId) :
    machineIdBytes uuid request.machineId = .ok machineId := by
  cases hmid : request.machineId with
  | none => simp [hmid] at h
  | some value =>
      rw [hmid, Option.bind_some] at h
      rw [machineIdBytes, h]

/-- An identifier that the UUID parser refuses is thrown past the adapter's handlers.
-/
theorem machineIdBytes_of_none (h : request.machineId.bind uuid = none) :
    ∃ exception, machineIdBytes uuid request.machineId = .error exception ∧ ¬ Handled exception := by
  cases hmid : request.machineId with
  | none => exact ⟨.nullPointer, rfl, by simp [Handled]⟩
  | some value =>
      rw [hmid, Option.bind_some] at h
      exact ⟨.illegalArgument, by rw [machineIdBytes, h], by simp [Handled]⟩

/-- The inner handler lets other exceptions pass. -/
theorem run_handleInner_of_not_handled {exception : Exception} (h : ¬ Handled exception) (s : Session) :
    run (handleInner faults exception : Script Session Exception Nat) s = (.error exception, s) := by
  cases exception with
  | sql => exact absurd (.inl rfl) h
  | completion code => exact absurd (.inr ⟨code, rfl⟩) h
  | illegalArgument => rfl
  | nullPointer => rfl

/-- A call that has begun and done nothing more has left its transaction open. -/
theorem not_settles {outcome : Except Exception Nat} {s : Session} (h : s.events = [.began]) :
    ¬ Settles (outcome, s) := by
  simp [Settles, h]

/-- A script that has issued its `COMMIT` is settled, whatever it throws then. -/
theorem settles_of_issues {x : Script Session Exception Nat}
    (h : Issues (fun _ => True) (.begun c) (run x (.begun c))) :
    Settles (run (tryCatch x (handleInner faults)) (.begun c)) := by
  rw [run_tryCatch]
  cases hrun : run x (.begun c) with
  | mk outcome t =>
      rw [hrun] at h
      have hissued : .commitIssued ∈ t.events := by
        rw [show t.events = _ from h.1]
        simp
      cases outcome with
      | ok n => exact ⟨fun _ => .inl hissued, nofun⟩
      | error exception =>
          obtain ⟨code, u, hhandler, hafter⟩ := run_handleInner_of_handled (s := t) faults h.2
          simp only [hhandler]
          exact ⟨fun _ => .inl (by simp [hafter, hissued]), by simp⟩

/-- What is handled is settled by a `ROLLBACK` that can be prepared. -/
theorem settles_iff_of_throws {x : Script Session Exception Nat}
    (h : Throws Handled (.begun c) (run x (.begun c))) :
    Settles (run (tryCatch x (handleInner faults)) (.begun c)) ↔
      faults (.prepare .rollback) = false := by
  rw [run_tryCatch]
  cases hrun : run x (.begun c) with
  | mk outcome t =>
      rw [hrun] at h
      obtain ⟨hevents, exception, rfl, hhandled⟩ := h
      obtain ⟨code, u, hhandler, hafter⟩ := run_handleInner_of_handled (s := t) faults hhandled
      simp only [hhandler]
      cases hprepare : faults (.prepare .rollback) with
      | false => simp [Settles, hafter, hprepare]
      | true =>
          simp only [hprepare, if_true, List.append_nil] at hafter
          exact iff_of_false (not_settles (hafter.trans hevents)) (by simp)

/-- What is not handled leaves the transaction open. -/
theorem not_settles_of_throws {E : Exception → Prop} (hE : ∀ exception, E exception → ¬ Handled exception)
    {x : Script Session Exception Nat} (h : Throws E (.begun c) (run x (.begun c))) :
    ¬ Settles (run (tryCatch x (handleInner faults)) (.begun c)) := by
  rw [run_tryCatch]
  cases hrun : run x (.begun c) with
  | mk outcome t =>
      rw [hrun] at h
      obtain ⟨hevents, exception, rfl, hexception⟩ := h
      simp only [run_handleInner_of_not_handled (hE exception hexception)]
      exact not_settles hevents

/-- The inner `try` after its transaction is begun. -/
theorem settles_inner_iff :
    Settles (run (tryCatch (transaction faults request (machineIdBytes uuid request.machineId))
        (handleInner faults)) (.begun c)) ↔
      ∃ machineId, request.machineId.bind uuid = some machineId ∧
        ¬ ComparesNull faults request machineId c.committed ∧
        (faults (.prepare .rollback) = true → Commits faults request machineId c.committed) := by
  cases hmid : request.machineId.bind uuid with
  | none =>
      obtain ⟨exception, hbytes, hhandled⟩ := machineIdBytes_of_none hmid
      rw [hbytes]
      refine iff_of_false (not_settles_of_throws (E := (· = exception)) ?_ ⟨rfl, exception, rfl, rfl⟩)
        (by simp)
      rintro exception' rfl
      exact hhandled
  | some machineId =>
      rw [machineIdBytes_of_some hmid]
      by_cases hnull : ComparesNull faults request machineId c.committed
      · -- a `NullPointerException` is in neither list
        refine iff_of_false (not_settles_of_throws ?_ (throws_transaction hnull)) (by simp [hnull])
        rintro exception rfl
        simp [Handled]
      · rcases ends_transaction (s := .begun c) hnull with ⟨hcommits, hissues⟩ | ⟨hcommits, hthrows⟩
        · exact iff_of_true (settles_of_issues hissues) ⟨machineId, rfl, hnull, fun _ => hcommits⟩
        · rw [settles_iff_of_throws hthrows]
          have hnot : ¬ Commits faults request machineId c.committed := hcommits
          simp [hnull, hnot]

/-- The block of the connection: what is seen after a `BEGIN` that is run. -/
theorem settles_iff_of_begins
    (hbegins : Faultless faults [.prepare .beginImmediate, .execute .beginImmediate])
    (hidle : c.transaction = none) :
    Settles (run (do
        beginImmediate faults
        tryCatch (transaction faults request (machineIdBytes uuid request.machineId))
          (handleInner faults)) ⟨c, []⟩) ↔
      ¬ LeavesOpen uuid faults request c.committed := by
  rw [run_bind, run_beginImmediate hbegins hidle, LeavesOpen]
  cases hclose : faults (.closeStatement .beginImmediate) with
  | true => exact iff_of_false (not_settles rfl) (by simp)
  | false =>
      refine settles_inner_iff.trans ?_
      cases request.machineId.bind uuid with
      | none => simp
      | some machineId => simp

/-- **The transactions of the Java adapter**: for every request, every
connection and every set of calls at which the driver throws, a transaction
that is begun is told to end before the connection is closed and every failure
is an `IdentifoldException`, unless the transaction is left to the connection. -/
theorem allocateSynchronously_closes_iff (uuid : Text → Option MachineBytes) (faults : Call → Bool)
    (request : SequenceAllocationRequest) (c : Connection) :
    ClosesTransaction (run (allocateSynchronously faults request uuid) ⟨c, []⟩) ↔
      ¬ (Begins faults request c ∧ LeavesOpen uuid faults request c.committed) := by
  rw [allocateSynchronously]
  by_cases hwidth : 4 ≤ request.width ∧ request.width ≤ 18
  · rw [if_neg (by omega)]
    cases hconnection : faults .getConnection with
    | true =>
        rw [run_tryCatch, run_bind, run_call, hconnection]
        refine iff_of_true ⟨nofun, failsStably_completion _⟩ fun h => ?_
        simp [Begins, faultless_cons, hconnection] at h
    | false =>
        refine (closesTransaction_iff hconnection _).trans ?_
        by_cases hbegins : Faultless faults [.prepare .beginImmediate, .execute .beginImmediate] ∧
            c.transaction = none
        · rw [settles_iff_of_begins hbegins.1 hbegins.2, not_iff_not]
          refine (and_iff_right ⟨hwidth, ?_, hbegins.2⟩).symm
          exact faultless_cons.mpr ⟨hconnection, hbegins.1⟩
        · refine iff_of_true ?_ fun h => hbegins ⟨(faultless_cons.mp h.1.2.1).2, h.1.2.2⟩
          obtain ⟨hevents, exception, herror, hhandled⟩ := (throws_beginImmediate hbegins).bind fun _ =>
            tryCatch (transaction faults request (machineIdBytes uuid request.machineId))
              (handleInner faults)
          refine ⟨by simp [hevents], ?_⟩
          rw [herror]
          rcases hhandled with rfl | ⟨code, rfl⟩ <;> simp
  · rw [if_pos (by omega)]
    exact iff_of_true ⟨nofun, failsStably_completion _⟩ fun h => hwidth h.1.1

/-- On an empty database and a driver that never throws: a malformed
identifier leaves the transaction open, and a null one leaves it open under a
`NullPointerException`. -/
theorem allocateSynchronously_leaves_open :
    let request (machineId : Option Text) : SequenceAllocationRequest :=
      ⟨machineId, some "invoice".toList, some "INV".toList, some "2026".toList, 8⟩
    let result (machineId : Option Text) :=
      run (allocateSynchronously (fun _ => false) (request machineId) fun value =>
        (machineIdToBytes value).toOption) ⟨.handedOver Database.empty none, []⟩
    (result (some "not-a-uuid".toList)).1 = .error (.completion .allocationConflict) ∧
      (result (some "not-a-uuid".toList)).2.events = [.began, .closed] ∧
      ¬ ClosesTransaction (result (some "not-a-uuid".toList)) ∧
      (result none).1 = .error .nullPointer ∧ (result none).2.events = [.began, .closed] ∧
      ¬ ClosesTransaction (result none) := by
  have hopen {outcome : Except Exception Nat} {s : Session} (h : s.events = [.began] ++ [.closed]) :
      ¬ ClosesTransaction (outcome, s) := by
    rintro ⟨hends, -⟩
    rw [h] at hends
    simpa using endsTransaction_iff.mp hends (by simp)
  exact ⟨rfl, rfl, hopen rfl, rfl, rfl, hopen rfl⟩

end Law

end Java

end Sqlite

end Identifold
