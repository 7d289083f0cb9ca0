import Identifold.Lib.Dialogue
import Identifold.Service.Create

/-!
# Identifold.Service.Reservation

`create` of `packages/typescript/src/service.ts` over injected functions that
may do anything: the machine identifier source, the clock, the byte source,
the reservation store and the sequence allocator return what they like, or
throw.

A call of `create` is a dialogue with these functions: it awaits every answer
before it goes on.  `Reserves` lists the ways the loop of the random branch
can go, and `reserveLoop_reserves` is that it goes no other.  What the loop
promises is read off these ways by induction (`ReservationLaw`): what it must
ask and when, what it may ask, and which settlements there are.

* `reserveLoop_reserves` — the ways the loop can go;
* `Reserves.fresh`, `Reserves.drawn` — every reservation is drawn for, every
  candidate reserved;
* `Reserves.goes_on`, `Reserves.exhausted_of_refused` — what follows a refusal,
  and the last one;
* `Reserves.threw`, `Reserves.rejected` — the errors that end it;
* `Reserves.law` — all of it as the promise of the loop.
-/

namespace Identifold.Injected

/-! ## the service -/

/-- What an injected function is called with. -/
inductive Call
  | machineIdSource
  | now
  | randomBytes (size : Nat)
  | reserve (request : ReferenceReservation)
  | allocate (request : SequenceAllocationRequest)
  deriving DecidableEq

/-- What the injected functions would do at some moment: return a value, or
throw one.  A byte source can return something that is no `Uint8Array`, an
allocator something that is no `bigint`; a store's answer counts as true or
false. -/
structure Replies (E : Type) where
  machineIdSource : Except E Text
  now : Except E (Option Int)
  randomBytes : Except E (Option (List UInt8))
  reserve : Except E Bool
  allocate : Except E (Option Int)

/-- What the promise of `create` is rejected with: an error of the code, or
what an injected function threw. -/
inductive Rejection (E : Type)
  | thrown (error : Thrown)
  | rethrown (value : E)
  deriving DecidableEq, Repr

/-- `createIdentifold`'s options, as far as `create` uses them: which of the
two stores there are. -/
structure IdentifoldOptions extends IdentifoldService where
  referenceStore : Bool
  sequenceAllocator : Bool

variable {E : Type}

/-- A call of `create`: what it asks, and how its promise is settled. -/
abbrev Creation (E : Type) := Dialogue Call (Replies E) (Except (Rejection E) Identity)

/-- The promise is rejected. -/
def reject (error : IdentifoldError) : Creation E := .done (.error (.thrown (.identifold error)))

/-- Call an injected function, and go on with what it returns. -/
def call {α : Type} (q : Call) (reply : Replies E → Except E α) (next : α → Creation E) :
    Creation E :=
  .ask q fun replies =>
    match reply replies with
    | .ok a => next a
    | .error e => .done (.error (.rethrown e))

/-- Go on with the result of a function of the package. -/
def attempt {α : Type} (x : Except Thrown α) (next : α → Creation E) : Creation E :=
  match x with
  | .ok a => next a
  | .error e => .done (.error (.thrown e))

/-- The part of `createReferenceCandidate` behind the byte source. -/
def candidateOf (registry : NamespaceRegistry) (namespaceName : Text) (bytes : Option (List UInt8)) :
    Except IdentifoldError Text :=
  match bytes with
  | some bytes => createReferenceCandidate registry namespaceName fun _ => bytes
  | none => .error ⟨.invalidRandomSource, "Random byte source returned an invalid byte array"⟩

/-- `createReferenceCandidate`. -/
def drawCandidate (registry : NamespaceRegistry) (namespaceName : Text) (next : Text → Creation E) :
    Creation E :=
  attempt ((requireRandomNamespace registry namespaceName).mapError .identifold) fun reference =>
    call (.randomBytes reference.payloadLength) (·.randomBytes) fun bytes =>
      attempt ((candidateOf registry namespaceName bytes).mapError .identifold) next

section Create

variable (unicode : CaseMapping) (uuid : UuidLibrary) (typeid : TypeIdLibrary)

/-- The identifiers a machine identifier source leads to. -/
def baseIdentityOf (namespaceName value : Text) : Except Thrown Identity := do
  let mid ← parseMachineId unicode uuid value
  let pid ← publicIdFromMachineId unicode uuid typeid mid namespaceName
  return ⟨mid, pid, none⟩

/-- `createBaseIdentity`. -/
def createBaseIdentity (namespaceName : Text) (next : Identity → Creation E) : Creation E :=
  call .machineIdSource (·.machineIdSource) fun value =>
    attempt (baseIdentityOf unicode uuid typeid namespaceName value) next

variable (options : IdentifoldOptions)

/-- The loop of the random branch, with the attempts that are left. -/
def reserveLoop (namespaceName : Text) (base : Identity) : Nat → Creation E
  | 0 => reject ⟨.allocationExhausted, "Could not reserve a unique human reference"⟩
  | attempts + 1 =>
      drawCandidate options.registry namespaceName fun reference =>
        call (.reserve ⟨base.mid, namespaceName, reference⟩) (·.reserve) fun reserved =>
          if reserved then .done (.ok { base with ref := some reference })
          else reserveLoop namespaceName base attempts

/-- The sequential branch, from the scope on. -/
def allocateSequence (namespaceName : Text) (reference : RegisteredSequentialReferenceDefinition)
    (base : Identity) (scope : Option Text) : Creation E :=
  call (.allocate ⟨base.mid, namespaceName, reference.refPrefix, scope, .integer reference.width⟩)
      (·.allocate) fun sequence =>
    let ref := match sequence with
      | some n => formatSequentialReference options.registry namespaceName n scope
      | none => .error ⟨.invalidRef,
          "Sequential reference values must be non-negative integers"⟩
    attempt (ref.mapError .identifold) fun ref => .done (.ok { base with ref := some ref })

/-- `create`. -/
def create (namespaceName : Text) : Creation E :=
  match options.registry.getByPublicPrefix namespaceName with
  | none => reject ⟨.unknownNamespace, "Unknown public identifier namespace"⟩
  | some definition =>
      match definition.reference with
      | none => createBaseIdentity unicode uuid typeid namespaceName fun base => .done (.ok base)
      | some (.sequence reference) =>
          if options.sequenceAllocator then
            createBaseIdentity unicode uuid typeid namespaceName fun base =>
              match reference.scope with
              | .calendarYear =>
                  call .now (·.now) fun now =>
                    attempt ((currentUtcYear now).mapError .identifold) fun year =>
                      allocateSequence options namespaceName reference base (some year)
              | .none => allocateSequence options namespaceName reference base none
          else
            reject ⟨.allocationRequired, "Sequential references require an external allocator"⟩
      | some (.random _) =>
          if options.referenceStore then
            createBaseIdentity unicode uuid typeid namespaceName fun base =>
              reserveLoop options namespaceName base options.maxReferenceAttempts
          else
            reject ⟨.allocationRequired, "Human references require an atomic reservation store"⟩

end Create

/-! ## the ways of the loop -/

/-- A question with its answer, if it has got one. -/
abbrev Event (E : Type) := Call × Option (Replies E)

/-- How a call of `create` is settled, if it is. -/
abbrev Outcome (E : Type) := Option (Except (Rejection E) Identity)

/-- The rejection of a loop that has used up its attempts. -/
def exhaustedRejection : Rejection E :=
  .thrown (.identifold ⟨.allocationExhausted, "Could not reserve a unique human reference"⟩)

section Loop

variable (registry : NamespaceRegistry) (namespaceName : Text) (base : Identity)

/-- The byte source returns bytes that make a candidate of the namespace. -/
def Draws (replies : Replies E) (candidate : Text) : Prop :=
  ∃ bytes, replies.randomBytes = .ok (some bytes) ∧
    createReferenceCandidate registry namespaceName (fun _ => bytes) = .ok candidate

/-- The reservation of a candidate. -/
def reservation (candidate : Text) : Call := .reserve ⟨base.mid, namespaceName, candidate⟩

/-- The ways the loop can go with a number of attempts: what it asks and is
answered, and how it ends. -/
inductive Reserves (size : Nat) : Nat → List (Event E) → Outcome E → Prop
  | exhausted : Reserves size 0 [] (some (.error exhaustedRejection))
  | drawing {m : Nat} : Reserves size (m + 1) [(.randomBytes size, none)] none
  | drawThrew {m : Nat} {a : Replies E} {e : E} (ha : a.randomBytes = .error e) :
      Reserves size (m + 1) [(.randomBytes size, some a)] (some (.error (.rethrown e)))
  | invalid {m : Nat} {a : Replies E} {bytes : Option (List UInt8)} {error : IdentifoldError}
      (ha : a.randomBytes = .ok bytes) (hbytes : candidateOf registry namespaceName bytes = .error error) :
      Reserves size (m + 1) [(.randomBytes size, some a)] (some (.error (.thrown (.identifold error))))
  | reserving {m : Nat} {a : Replies E} {c : Text} (ha : Draws registry namespaceName a c) :
      Reserves size (m + 1) [(.randomBytes size, some a), (reservation namespaceName base c, none)] none
  | reserveThrew {m : Nat} {a b : Replies E} {c : Text} {e : E} (ha : Draws registry namespaceName a c)
      (hb : b.reserve = .error e) :
      Reserves size (m + 1) [(.randomBytes size, some a), (reservation namespaceName base c, some b)]
        (some (.error (.rethrown e)))
  | granted {m : Nat} {a b : Replies E} {c : Text} (ha : Draws registry namespaceName a c)
      (hb : b.reserve = .ok true) :
      Reserves size (m + 1) [(.randomBytes size, some a), (reservation namespaceName base c, some b)]
        (some (.ok { base with ref := some c }))
  | refused {m : Nat} {a b : Replies E} {c : Text} {events : List (Event E)} {outcome : Outcome E}
      (ha : Draws registry namespaceName a c) (hb : b.reserve = .ok false)
      (hrest : Reserves size m events outcome) :
      Reserves size (m + 1)
        ((.randomBytes size, some a) :: (reservation namespaceName base c, some b) :: events) outcome

variable {registry namespaceName base}

/-- A candidate is drawn from bytes that the generator makes one of. -/
theorem draws_iff {a : Replies E} {c : Text} : Draws registry namespaceName a c ↔
    ∃ bytes, a.randomBytes = .ok bytes ∧ candidateOf registry namespaceName bytes = .ok c := by
  constructor
  · rintro ⟨bytes, ha, hc⟩
    exact ⟨some bytes, ha, hc⟩
  · rintro ⟨bytes, ha, hc⟩
    cases bytes with
    | none => contradiction
    | some bytes => exact ⟨bytes, ha, hc⟩

/-- **The loop goes one of these ways**, whatever it is answered. -/
theorem reserveLoop_reserves {options : IdentifoldOptions}
    {r : RegisteredRandomReferenceDefinition}
    (hr : requireRandomNamespace options.registry namespaceName = .ok r) (m : Nat)
    (as : List (Replies E)) :
    Reserves options.registry namespaceName base r.payloadLength m
      ((reserveLoop options namespaceName base m).events as)
      ((reserveLoop options namespaceName base m).run as).result := by
  induction m generalizing as with
  | zero =>
      simp only [reserveLoop, reject, Dialogue.events_done, Dialogue.run_done]
      exact .exhausted
  | succ m ih =>
      -- the replies are taken one by one: bytes, candidate, reservation
      simp only [reserveLoop, drawCandidate, hr, Except.mapError, attempt, call]
      cases as with
      | nil => exact .drawing
      | cons a as =>
          simp only [Dialogue.events_ask_cons, Dialogue.run_ask_cons, Dialogue.result_cons]
          cases ha : a.randomBytes with
          | error e =>
              simp only [Dialogue.events_done, Dialogue.run_done]
              exact .drawThrew ha
          | ok bytes =>
              cases hc : candidateOf options.registry namespaceName bytes with
              | error error =>
                  simp only [hc, Dialogue.events_done, Dialogue.run_done]
                  exact .invalid ha hc
              | ok c =>
                  have hdraws := draws_iff.mpr ⟨bytes, ha, hc⟩
                  simp only [hc]
                  cases as with
                  | nil => exact .reserving hdraws
                  | cons b as =>
                      simp only [Dialogue.events_ask_cons, Dialogue.run_ask_cons,
                        Dialogue.result_cons]
                      cases hb : b.reserve with
                      | error e =>
                          simp only [Dialogue.events_done, Dialogue.run_done]
                          exact .reserveThrew hdraws hb
                      | ok reserved =>
                          cases reserved with
                          | true =>
                              simp only [if_true, Dialogue.events_done, Dialogue.run_done]
                              exact .granted hdraws hb
                          | false =>
                              simp only [Bool.false_eq_true, if_false]
                              exact .refused hdraws hb (ih as)

end Loop

/-! ## what the loop promises -/

/-- A reservation was asked for. -/
def IsReserve (event : Event E) : Bool :=
  match event.1 with
  | .reserve _ => true
  | _ => false

/-- The store answers true. -/
def Replies.grants (replies : Replies E) : Bool :=
  match replies.reserve with
  | .ok granted => granted
  | .error _ => false

/-- The store answers false. -/
def Replies.refuses (replies : Replies E) : Bool :=
  match replies.reserve with
  | .ok granted => !granted
  | .error _ => false

/-- A reservation was asked for, and granted. -/
def IsGranted (event : Event E) : Bool := IsReserve event && event.2.any Replies.grants

/-- A reservation was asked for, and refused. -/
def IsRefused (event : Event E) : Bool := IsReserve event && event.2.any Replies.refuses

/-- The function that was called threw. -/
def Threw (q : Call) (replies : Replies E) (e : E) : Prop :=
  match q with
  | .machineIdSource => replies.machineIdSource = .error e
  | .now => replies.now = .error e
  | .randomBytes _ => replies.randomBytes = .error e
  | .reserve _ => replies.reserve = .error e
  | .allocate _ => replies.allocate = .error e

/-- What the loop promises about its questions, in their order, and its
outcome, for `m` attempts with candidates of `size` bytes. -/
structure ReservationLaw (registry : NamespaceRegistry) (namespaceName : Text) (base : Identity)
    (size m : Nat) (events : List (Event E)) (outcome : Outcome E) : Prop where
  /-- It begins with a draw. -/
  begins : 0 < m → ∃ o rest, events = (Call.randomBytes size, o) :: rest
  /-- Each candidate that is drawn is reserved next. -/
  drawn : ∀ before q replies candidate after,
    events = before ++ (Call.randomBytes q, some replies) :: after →
    Draws registry namespaceName replies candidate →
      ∃ o rest, after = (reservation namespaceName base candidate, o) :: rest
  /-- All reservations are for one machine identifier and one namespace. -/
  request : ∀ request o, (Call.reserve request, o) ∈ events →
    request.machineId = base.mid ∧ request.namespaceName = namespaceName
  /-- Each is for a candidate from bytes drawn for it. -/
  fresh : ∀ before request o after, events = before ++ (Call.reserve request, o) :: after →
    ∃ init replies, before = init ++ [(Call.randomBytes size, some replies)] ∧
      Draws registry namespaceName replies request.reference
  /-- A granted one is the last, and its candidate is returned. -/
  granted : ∀ before request replies after,
    events = before ++ (Call.reserve request, some replies) :: after → replies.reserve = .ok true →
      after = [] ∧ outcome = some (.ok { base with ref := some request.reference })
  /-- Nothing else is returned. -/
  returned : ∀ identity, outcome = some (.ok identity) → ∃ before request replies,
    events = before ++ [(Call.reserve request, some replies)] ∧ replies.reserve = .ok true ∧
      identity = { base with ref := some request.reference }
  /-- No more than one is granted. -/
  once : events.countP IsGranted ≤ 1
  /-- There are no more than `m` of them. -/
  attempts : events.countP IsReserve ≤ m
  /-- When `m` have been refused, it gives up. -/
  exhausted : events.countP IsRefused = m →
    events.countP IsReserve = m ∧ outcome = some (.error exhaustedRejection)
  /-- The loop goes on after a refusal, unless it was the last attempt. -/
  refused : ∀ before request replies after,
    events = before ++ (Call.reserve request, some replies) :: after → replies.reserve = .ok false →
      if before.countP IsReserve + 1 = m then after = [] ∧ outcome = some (.error exhaustedRejection)
      else ∃ o rest, after = (Call.randomBytes size, o) :: rest
  /-- What an injected function throws is thrown, and nothing more is asked. -/
  threw : ∀ before q replies after e, events = before ++ (q, some replies) :: after →
    Threw q replies e → after = [] ∧ outcome = some (.error (.rethrown e))
  /-- It is rejected for one of three reasons only: `m` refusals, an injected
  function that threw, or bytes that make no candidate. -/
  rejected : ∀ rejection, outcome = some (.error rejection) →
    (events.countP IsRefused = m ∧ rejection = exhaustedRejection) ∨
    (∃ before q replies e, events = before ++ [(q, some replies)] ∧ Threw q replies e ∧
      rejection = .rethrown e) ∨
    ∃ before replies bytes error, events = before ++ [(Call.randomBytes size, some replies)] ∧
      replies.randomBytes = .ok bytes ∧ candidateOf registry namespaceName bytes = .error error ∧
      rejection = .thrown (.identifold error)
  /-- Until then its last question is without an answer. -/
  pending : outcome = none → ∃ before q, events = before ++ [(q, none)]

/-- Where an event stands in a list that begins with two given ones. -/
theorem cons_cons_eq_append_cons_iff {α : Type} {x y e : α} {xs before after : List α} :
    x :: y :: xs = before ++ e :: after ↔
      (before = [] ∧ x = e ∧ after = y :: xs) ∨ (before = [x] ∧ y = e ∧ after = xs) ∨
        ∃ rest, before = x :: y :: rest ∧ xs = rest ++ e :: after := by
  constructor
  · intro h
    rcases before with _ | ⟨b, _ | ⟨b', before⟩⟩ <;>
      simp only [List.nil_append, List.cons_append, List.cons.injEq] at h
    · exact .inl ⟨rfl, h.1, h.2.symm⟩
    · exact .inr (.inl ⟨by rw [h.1], h.2.1, h.2.2.symm⟩)
    · exact .inr (.inr ⟨before, by rw [h.1, h.2.1], h.2.2⟩)
  · rintro (⟨rfl, rfl, rfl⟩ | ⟨rfl, rfl, rfl⟩ | ⟨rest, rfl, rfl⟩)
    · rfl
    · rfl
    · rfl

theorem singleton_eq_append_cons_iff {α : Type} {x e : α} {before after : List α} :
    [x] = before ++ e :: after ↔ before = [] ∧ x = e ∧ after = [] := by
  constructor
  · intro h
    cases before with
    | nil => simpa [eq_comm] using h
    | cons b before => simp at h
  · rintro ⟨rfl, rfl, rfl⟩
    rfl

section Law

variable {registry : NamespaceRegistry} {namespaceName : Text} {base : Identity} {size m : Nat}
  {events before after : List (Event E)} {outcome : Outcome E}

/-- Where a reservation stands among the events of a round and those behind it. -/
theorem round_eq_append_cons_iff {a : Replies E} {c : Text} {o o' : Option (Replies E)}
    {request : ReferenceReservation} :
    (.randomBytes size, some a) :: (reservation namespaceName base c, o) :: events =
        before ++ (.reserve request, o') :: after ↔
      (before = [(.randomBytes size, some a)] ∧ request = ⟨base.mid, namespaceName, c⟩ ∧ o' = o ∧
        after = events) ∨
      ∃ rest, before = (.randomBytes size, some a) :: (reservation namespaceName base c, o) :: rest ∧
        events = rest ++ (.reserve request, o') :: after := by
  rw [cons_cons_eq_append_cons_iff]
  simp only [reservation, Prod.mk.injEq, reduceCtorEq, false_and, and_false, false_or,
    Call.reserve.injEq]
  refine or_congr_left ⟨?_, ?_⟩
  · rintro ⟨h1, ⟨rfl, rfl⟩, h2⟩
    exact ⟨h1, rfl, rfl, h2⟩
  · rintro ⟨h1, rfl, rfl, h2⟩
    exact ⟨h1, ⟨rfl, rfl⟩, h2⟩

/-- Every reservation is one for the identity of the call. -/
theorem Reserves.request (h : Reserves registry namespaceName base size m events outcome) :
    ∀ request o, (Call.reserve request, o) ∈ events →
      request.machineId = base.mid ∧ request.namespaceName = namespaceName := by
  induction h with
  | refused ha hb hrest ih =>
      intro request o hmem
      simp only [reservation, List.mem_cons, Prod.mk.injEq, reduceCtorEq, false_and, false_or,
        Call.reserve.injEq] at hmem
      rcases hmem with ⟨rfl, -⟩ | hmem
      · exact ⟨rfl, rfl⟩
      · exact ih request o hmem
  | _ => simp [reservation]

/-- Every reservation follows the draw of its own candidate. -/
theorem Reserves.fresh (h : Reserves registry namespaceName base size m events outcome) :
    ∀ before request o after, events = before ++ (Call.reserve request, o) :: after →
      ∃ init replies, before = init ++ [(Call.randomBytes size, some replies)] ∧
        Draws registry namespaceName replies request.reference := by
  induction h with
  | reserving ha | reserveThrew ha hb | granted ha hb =>
      intro before request o after h
      rcases round_eq_append_cons_iff.mp h with ⟨rfl, rfl, -, -⟩ | ⟨rest, -, he⟩
      · exact ⟨[], _, rfl, ha⟩
      · simp at he
  | refused ha hb hrest ih =>
      intro before request o after h
      rcases round_eq_append_cons_iff.mp h with ⟨rfl, rfl, -, -⟩ | ⟨rest, rfl, he⟩
      · exact ⟨[], _, rfl, ha⟩
      · obtain ⟨init, replies, rfl, hdraws⟩ := ih _ _ _ _ he
        exact ⟨_ :: _ :: init, replies, rfl, hdraws⟩
  | _ => simp [singleton_eq_append_cons_iff]

/-- The reservation that is granted is the last call, and the identity carries its
reference. -/
theorem Reserves.granted_last (h : Reserves registry namespaceName base size m events outcome) :
    ∀ before request replies after,
      events = before ++ (Call.reserve request, some replies) :: after → replies.reserve = .ok true →
        after = [] ∧ outcome = some (.ok { base with ref := some request.reference }) := by
  induction h with
  | reserving ha =>
      intro before request replies after h htrue
      rcases round_eq_append_cons_iff.mp h with ⟨-, -, ho, -⟩ | ⟨rest, -, he⟩
      · contradiction
      · simp at he
  | @reserveThrew m a b c e ha hb =>
      intro before request replies after h htrue
      rcases round_eq_append_cons_iff.mp h with ⟨-, -, ho, -⟩ | ⟨rest, -, he⟩
      · obtain rfl := Option.some.inj ho
        rw [hb] at htrue
        contradiction
      · simp at he
  | granted ha hb =>
      intro before request replies after h htrue
      rcases round_eq_append_cons_iff.mp h with ⟨-, rfl, -, hafter⟩ | ⟨rest, -, he⟩
      · exact ⟨hafter, rfl⟩
      · simp at he
  | @refused m a b c events outcome ha hb hrest ih =>
      intro before request replies after h htrue
      rcases round_eq_append_cons_iff.mp h with ⟨-, -, ho, -⟩ | ⟨rest, -, he⟩
      · obtain rfl := Option.some.inj ho
        rw [hb] at htrue
        simp at htrue
      · exact ih _ _ _ _ he htrue
  | _ => simp [singleton_eq_append_cons_iff]

/-- An identity is returned behind a granted reservation only. -/
theorem Reserves.returned (h : Reserves registry namespaceName base size m events outcome) :
    ∀ identity, outcome = some (.ok identity) → ∃ before request replies,
      events = before ++ [(Call.reserve request, some replies)] ∧ replies.reserve = .ok true ∧
        identity = { base with ref := some request.reference } := by
  induction h with
  | @granted m a b c ha hb =>
      intro identity heq
      exact ⟨[(.randomBytes size, some a)], ⟨base.mid, namespaceName, c⟩, b, rfl, hb, by simpa using heq.symm⟩
  | refused ha hb hrest ih =>
      intro identity heq
      obtain ⟨before, request, replies, rfl, hlast⟩ := ih identity heq
      exact ⟨_ :: _ :: before, request, replies, rfl, hlast⟩
  | _ => simp

/-- There are at most `m` reservations. -/
theorem Reserves.attempts (h : Reserves registry namespaceName base size m events outcome) :
    events.countP IsReserve ≤ m := by
  induction h with
  | refused ha hb hrest ih => simpa [IsReserve, reservation, List.countP_cons] using ih
  | _ => simp [IsReserve, reservation, List.countP_cons]

/-- At most one reservation is granted. -/
theorem Reserves.once (h : Reserves registry namespaceName base size m events outcome) :
    events.countP IsGranted ≤ 1 := by
  induction h with
  | refused ha hb hrest ih =>
      simpa [List.countP_cons, IsGranted, IsReserve, reservation, Replies.grants, hb] using ih
  | granted ha hb | reserveThrew ha hb =>
      simp [IsGranted, IsReserve, reservation, Replies.grants, hb]
  | _ => simp [IsGranted, IsReserve]

/-- After `m` refusals the creation is exhausted. -/
theorem Reserves.exhausted_of_refused
    (h : Reserves registry namespaceName base size m events outcome) :
    events.countP IsRefused = m →
      events.countP IsReserve = m ∧ outcome = some (.error exhaustedRejection) := by
  induction h with
  | exhausted => simp
  | refused ha hb hrest ih =>
      simpa [List.countP_cons, IsRefused, IsReserve, reservation, Replies.refuses, hb] using ih
  | reserveThrew ha hb | granted ha hb =>
      simp [IsRefused, IsReserve, reservation, Replies.refuses, hb]
  | _ => simp [IsRefused, IsReserve, reservation]

/-- How the loop begins. -/
theorem Reserves.begins (h : Reserves registry namespaceName base size m events outcome) :
    if m = 0 then events = [] ∧ outcome = some (.error exhaustedRejection)
    else ∃ o rest, events = (.randomBytes size, o) :: rest := by
  cases h <;> simp

/-- After a refusal another candidate is drawn, as long as attempts are left. -/
theorem Reserves.goes_on (h : Reserves registry namespaceName base size m events outcome) :
    ∀ before request replies after,
      events = before ++ (Call.reserve request, some replies) :: after →
        replies.reserve = .ok false →
          if before.countP IsReserve + 1 = m then
            after = [] ∧ outcome = some (.error exhaustedRejection)
          else ∃ o rest, after = (Call.randomBytes size, o) :: rest := by
  induction h with
  | reserving ha =>
      intro before request replies after h hfalse
      rcases round_eq_append_cons_iff.mp h with ⟨-, -, ho, -⟩ | ⟨rest, -, he⟩
      · contradiction
      · simp at he
  | @reserveThrew m a b c e ha hb =>
      intro before request replies after h hfalse
      rcases round_eq_append_cons_iff.mp h with ⟨-, -, ho, -⟩ | ⟨rest, -, he⟩
      · obtain rfl := Option.some.inj ho
        rw [hb] at hfalse
        contradiction
      · simp at he
  | @granted m a b c ha hb =>
      intro before request replies after h hfalse
      rcases round_eq_append_cons_iff.mp h with ⟨-, -, ho, -⟩ | ⟨rest, -, he⟩
      · obtain rfl := Option.some.inj ho
        rw [hb] at hfalse
        simp at hfalse
      · simp at he
  | @refused m a b c events outcome ha hb hrest ih =>
      intro before request replies after h hfalse
      rcases round_eq_append_cons_iff.mp h with ⟨rfl, -, -, rfl⟩ | ⟨rest, rfl, he⟩
      · simpa [IsReserve, eq_comm] using hrest.begins
      · have hnext := ih _ _ _ _ he hfalse
        simpa [List.countP_cons, IsReserve, reservation] using hnext
  | _ => simp [singleton_eq_append_cons_iff]

/-- A candidate that is drawn was not thrown on. -/
theorem Draws.not_threw {a : Replies E} {c : Text} {e : E} (ha : Draws registry namespaceName a c) :
    ¬ Threw (.randomBytes size) a e := by
  obtain ⟨bytes, hbytes, -⟩ := ha
  simp [Threw, hbytes]

/-- What is thrown in a round. -/
theorem round_threw {a b : Replies E} {c : Text} {q : Call} {replies : Replies E} {e : E}
    (ha : Draws registry namespaceName a c)
    (h : (.randomBytes size, some a) :: (reservation namespaceName base c, some b) :: events =
      before ++ (q, some replies) :: after) (hthrew : Threw q replies e) :
    (b.reserve = .error e ∧ after = events) ∨
      ∃ rest, events = rest ++ (q, some replies) :: after := by
  rcases cons_cons_eq_append_cons_iff.mp h with ⟨-, he, -⟩ | ⟨-, he, rfl⟩ | ⟨rest, -, he⟩
  · simp only [Prod.mk.injEq, Option.some.injEq] at he
    obtain ⟨rfl, rfl⟩ := he
    exact absurd hthrew ha.not_threw
  · simp only [reservation, Prod.mk.injEq, Option.some.injEq] at he
    obtain ⟨rfl, rfl⟩ := he
    exact .inl ⟨hthrew, rfl⟩
  · exact .inr ⟨rest, he⟩

/-- A round of one call has no other reply. -/
theorem reply_of_singleton {q q' : Call} {a replies : Replies E}
    (h : [(q, some a)] = before ++ (q', some replies) :: after) :
    q = q' ∧ a = replies ∧ after = [] := by
  obtain ⟨-, he, hafter⟩ := singleton_eq_append_cons_iff.mp h
  simp only [Prod.mk.injEq, Option.some.injEq] at he
  exact ⟨he.1, he.2, hafter⟩

/-- What a dependency throws ends the loop and is thrown again. -/
theorem Reserves.threw (h : Reserves registry namespaceName base size m events outcome) :
    ∀ before q replies after e, events = before ++ (q, some replies) :: after →
      Threw q replies e → after = [] ∧ outcome = some (.error (.rethrown e)) := by
  induction h with
  | exhausted | drawing => simp [singleton_eq_append_cons_iff]
  | @drawThrew m a e ha =>
      intro before q replies after e' h hthrew
      obtain ⟨rfl, rfl, rfl⟩ := reply_of_singleton h
      obtain rfl : e = e' := by simpa [Threw, ha] using hthrew
      exact ⟨rfl, rfl⟩
  | invalid ha hbytes =>
      intro before q replies after e h hthrew
      obtain ⟨rfl, rfl, -⟩ := reply_of_singleton h
      simp [Threw, ha] at hthrew
  | reserving ha =>
      intro before q replies after e h hthrew
      rcases cons_cons_eq_append_cons_iff.mp h with ⟨-, he, -⟩ | ⟨-, he, -⟩ | ⟨rest, -, he⟩
      · simp only [Prod.mk.injEq, Option.some.injEq] at he
        obtain ⟨rfl, rfl⟩ := he
        exact absurd hthrew ha.not_threw
      · simp at he
      · simp at he
  | @reserveThrew m a b c e ha hb =>
      intro before q replies after e' h hthrew
      rcases round_threw ha h hthrew with ⟨he, hafter⟩ | ⟨rest, he⟩
      · obtain rfl : e = e' := by simpa [hb] using he
        exact ⟨hafter, rfl⟩
      · simp at he
  | granted ha hb =>
      intro before q replies after e h hthrew
      rcases round_threw ha h hthrew with ⟨he, -⟩ | ⟨rest, he⟩
      · simp [hb] at he
      · simp at he
  | refused ha hb hrest ih =>
      intro before q replies after e h hthrew
      rcases round_threw ha h hthrew with ⟨he, -⟩ | ⟨rest, he⟩
      · simp [hb] at he
      · exact ih _ _ _ _ _ he hthrew

/-- Two candidates from one answer are the same. -/
theorem Draws.unique {a : Replies E} {c c' : Text} (h : Draws registry namespaceName a c)
    (h' : Draws registry namespaceName a c') : c = c' := by
  obtain ⟨bytes, ha, hc⟩ := h
  obtain ⟨bytes', ha', hc'⟩ := h'
  rw [ha, Except.ok.injEq, Option.some.injEq] at ha'
  subst ha'
  rw [hc] at hc'
  exact Except.ok.inj hc'

/-- What is drawn in a round: the candidate of its reservation, or one of a
later round. -/
theorem round_drawn {a replies : Replies E} {c candidate : Text} {o : Option (Replies E)} {q : Nat}
    (ha : Draws registry namespaceName a c)
    (h : (.randomBytes size, some a) :: (reservation namespaceName base c, o) :: events =
      before ++ (.randomBytes q, some replies) :: after)
    (hdraws : Draws registry namespaceName replies candidate) :
    (∃ o rest, after = (reservation namespaceName base candidate, o) :: rest) ∨
      ∃ rest, events = rest ++ (.randomBytes q, some replies) :: after := by
  rcases cons_cons_eq_append_cons_iff.mp h with ⟨-, he, rfl⟩ | ⟨-, he, -⟩ | ⟨rest, -, he⟩
  · simp only [Prod.mk.injEq, Option.some.injEq] at he
    obtain ⟨-, rfl⟩ := he
    exact .inl ⟨o, events, by rw [ha.unique hdraws]⟩
  · simp [reservation] at he
  · exact .inr ⟨rest, he⟩

/-- Every candidate that is drawn is reserved next. -/
theorem Reserves.drawn (h : Reserves registry namespaceName base size m events outcome) :
    ∀ before q replies candidate after,
      events = before ++ (Call.randomBytes q, some replies) :: after →
        Draws registry namespaceName replies candidate →
          ∃ o rest, after = (reservation namespaceName base candidate, o) :: rest := by
  induction h with
  | exhausted | drawing => simp [singleton_eq_append_cons_iff]
  | drawThrew ha =>
      intro before q replies candidate after h hdraws
      obtain ⟨-, rfl, -⟩ := reply_of_singleton h
      obtain ⟨bytes, hbytes, -⟩ := hdraws
      rw [ha] at hbytes
      contradiction
  | invalid ha hbytes =>
      intro before q replies candidate after h hdraws
      obtain ⟨-, rfl, -⟩ := reply_of_singleton h
      obtain ⟨bytes', ha', hc⟩ := draws_iff.mp hdraws
      rw [ha, Except.ok.injEq] at ha'
      rw [← ha', hbytes] at hc
      contradiction
  | reserving ha | reserveThrew ha hb | granted ha hb =>
      intro before q replies candidate after h hdraws
      rcases round_drawn ha h hdraws with hnext | ⟨rest, he⟩
      · exact hnext
      · simp at he
  | refused ha hb hrest ih =>
      intro before q replies candidate after h hdraws
      rcases round_drawn ha h hdraws with hnext | ⟨rest, he⟩
      · exact hnext
      · exact ih _ _ _ _ _ he hdraws

/-- The loop ends in an error for three reasons only: its attempts, a dependency, or
the generator. -/
theorem Reserves.rejected (h : Reserves registry namespaceName base size m events outcome) :
    ∀ rejection, outcome = some (.error rejection) →
      (events.countP IsRefused = m ∧ rejection = exhaustedRejection) ∨
      (∃ before q replies e, events = before ++ [(q, some replies)] ∧ Threw q replies e ∧
        rejection = .rethrown e) ∨
      ∃ before replies bytes error, events = before ++ [(Call.randomBytes size, some replies)] ∧
        replies.randomBytes = .ok bytes ∧ candidateOf registry namespaceName bytes = .error error ∧
        rejection = .thrown (.identifold error) := by
  induction h with
  | exhausted =>
      intro rejection heq
      exact .inl ⟨rfl, by simpa using heq.symm⟩
  | drawing | reserving ha | granted ha hb => simp
  | @drawThrew m a e ha =>
      intro rejection heq
      exact .inr (.inl ⟨[], _, a, e, rfl, ha, by simpa using heq.symm⟩)
  | @invalid m a bytes error ha hbytes =>
      intro rejection heq
      exact .inr (.inr ⟨[], a, bytes, error, rfl, ha, hbytes, by simpa using heq.symm⟩)
  | @reserveThrew m a b c e ha hb =>
      intro rejection heq
      exact .inr (.inl ⟨[(.randomBytes size, some a)], reservation namespaceName base c, b, e, rfl,
        hb, by simpa using heq.symm⟩)
  | refused ha hb hrest ih =>
      intro rejection heq
      rcases ih rejection heq with ⟨hcount, rfl⟩ | ⟨before, q, replies, e, rfl, hlast⟩ |
        ⟨before, replies, bytes, error, rfl, hlast⟩
      · exact .inl ⟨by simpa [List.countP_cons, IsRefused, IsReserve, reservation,
          Replies.refuses, hb] using hcount, rfl⟩
      · exact .inr (.inl ⟨_ :: _ :: before, q, replies, e, rfl, hlast⟩)
      · exact .inr (.inr ⟨_ :: _ :: before, replies, bytes, error, rfl, hlast⟩)

/-- A loop that has not ended waits for a reply. -/
theorem Reserves.pending (h : Reserves registry namespaceName base size m events outcome) :
    outcome = none → ∃ before q, events = before ++ [(q, none)] := by
  induction h with
  | drawing => exact fun _ => ⟨[], _, rfl⟩
  | reserving ha => exact fun _ => ⟨[_], _, rfl⟩
  | refused ha hb hrest ih =>
      intro heq
      obtain ⟨before, q, rfl⟩ := ih heq
      exact ⟨_ :: _ :: before, q, rfl⟩
  | _ => simp

/-- **The loop keeps its promises**, whichever way it goes. -/
theorem Reserves.law (h : Reserves registry namespaceName base size m events outcome) :
    ReservationLaw registry namespaceName base size m events outcome where
  begins hm := by simpa [Nat.ne_of_gt hm] using h.begins
  drawn := h.drawn
  rejected := h.rejected
  pending := h.pending
  request := h.request
  fresh := h.fresh
  granted := h.granted_last
  returned := h.returned
  once := h.once
  attempts := h.attempts
  exhausted := h.exhausted_of_refused
  refused := h.goes_on
  threw := h.threw

end Law

/-! ## create -/

section Creation

variable {unicode : CaseMapping} {uuid : UuidLibrary} {typeid : TypeIdLibrary}

variable (unicode uuid typeid) in
/-- The ways a call of `create` for a random namespace can go: it asks for a
machine identifier, and then its loop goes one of the ways of `Reserves`, by
its law. -/
inductive CreatesRandom (registry : NamespaceRegistry) (namespaceName : Text) (size m : Nat) :
    List (Event E) → Outcome E → Prop
  | waiting : CreatesRandom registry namespaceName size m [(.machineIdSource, none)] none
  | sourceThrew {a : Replies E} {e : E} (ha : a.machineIdSource = .error e) :
      CreatesRandom registry namespaceName size m [(.machineIdSource, some a)]
        (some (.error (.rethrown e)))
  | noIdentity {a : Replies E} {value : Text} {error : Thrown} (ha : a.machineIdSource = .ok value)
      (hbase : baseIdentityOf unicode uuid typeid namespaceName value = .error error) :
      CreatesRandom registry namespaceName size m [(.machineIdSource, some a)]
        (some (.error (.thrown error)))
  | reserves {a : Replies E} {value mid pid : Text} {events : List (Event E)} {outcome : Outcome E}
      (ha : a.machineIdSource = .ok value) (hmid : parseMachineId unicode uuid value = .ok mid)
      (hpid : publicIdFromMachineId unicode uuid typeid mid namespaceName = .ok pid)
      (hways : Reserves registry namespaceName ⟨mid, pid, none⟩ size m events outcome)
      (hlaw : ReservationLaw registry namespaceName ⟨mid, pid, none⟩ size m events outcome) :
      CreatesRandom registry namespaceName size m ((.machineIdSource, some a) :: events) outcome

/-- The base identity is the machine identifier with its public form. -/
theorem baseIdentityOf_ok_iff {namespaceName value : Text} {base : Identity} :
    baseIdentityOf unicode uuid typeid namespaceName value = .ok base ↔
      ∃ mid pid, parseMachineId unicode uuid value = .ok mid ∧
        publicIdFromMachineId unicode uuid typeid mid namespaceName = .ok pid ∧
        base = ⟨mid, pid, none⟩ := by
  unfold baseIdentityOf
  cases hmid : parseMachineId unicode uuid value with
  | error e => simp [bind, Except.bind]
  | ok mid =>
      cases hpid : publicIdFromMachineId unicode uuid typeid mid namespaceName with
      | error e => simp [bind, Except.bind, hpid]
      | ok pid => simp [bind, Except.bind, hpid, pure, Except.pure, eq_comm]

/-- A namespace with a random reference is one to create in. -/
theorem requireRandomNamespace_of_random {registry : NamespaceRegistry} {namespaceName : Text}
    {definition : RegisteredNamespaceDefinition} {r : RegisteredRandomReferenceDefinition}
    (hdefinition : registry.getByPublicPrefix namespaceName = some definition)
    (hr : definition.reference = some (.random r)) :
    requireRandomNamespace registry namespaceName = .ok r := by
  simp [requireRandomNamespace, hdefinition, hr]

/-- A call of `create` for a random namespace goes one of these ways. -/
theorem create_createsRandom {options : IdentifoldOptions} {namespaceName : Text}
    {definition : RegisteredNamespaceDefinition} {r : RegisteredRandomReferenceDefinition}
    (hdefinition : options.registry.getByPublicPrefix namespaceName = some definition)
    (hr : definition.reference = some (.random r)) (hstore : options.referenceStore = true)
    (as : List (Replies E)) :
    CreatesRandom unicode uuid typeid options.registry namespaceName r.payloadLength
      options.maxReferenceAttempts
      ((create unicode uuid typeid options namespaceName).events as)
      ((create unicode uuid typeid options namespaceName).run as).result := by
  simp only [create, hdefinition, hr, hstore, if_true, createBaseIdentity, call]
  cases as with
  | nil => exact .waiting
  | cons a as =>
      simp only [Dialogue.events_ask_cons, Dialogue.run_ask_cons, Dialogue.result_cons]
      cases ha : a.machineIdSource with
      | error e =>
          simp only [Dialogue.events_done, Dialogue.run_done]
          exact .sourceThrew ha
      | ok value =>
          cases hbase : baseIdentityOf unicode uuid typeid namespaceName value with
          | error error =>
              simp only [attempt, hbase, Dialogue.events_done, Dialogue.run_done]
              exact .noIdentity ha hbase
          | ok base =>
              obtain ⟨mid, pid, hmid, hpid, rfl⟩ := baseIdentityOf_ok_iff.mp hbase
              have hrandom := requireRandomNamespace_of_random hdefinition hr
              simp only [attempt, hbase]
              refine .reserves ha hmid hpid ?_ ?_
              · exact reserveLoop_reserves hrandom _ as
              · exact (reserveLoop_reserves hrandom _ as).law

/-- **Random allocation** over injected functions that may do anything: with
`m` attempts from 1 to 100 `createIdentifold` accepts the options, and `create`
of what it returns asks one question at a time and goes one of the ways of
`CreatesRandom`. -/
theorem create_random {registry : NamespaceRegistry} {m : Nat} (hm : 1 ≤ m ∧ m ≤ 100)
    (sequenceAllocator : Bool) {namespaceName : Text}
    {definition : RegisteredNamespaceDefinition} {r : RegisteredRandomReferenceDefinition}
    (hdefinition : registry.getByPublicPrefix namespaceName = some definition)
    (hr : definition.reference = some (.random r)) (as : List (Replies E)) :
    ∃ service, createIdentifold registry (some (.integer m)) = .ok service ∧
      let creation := create unicode uuid typeid ⟨service, true, sequenceAllocator⟩ namespaceName
      (∀ before q after, creation.events as = before ++ (q, none) :: after →
        after = [] ∧ (creation.run as).result = none) ∧
      CreatesRandom unicode uuid typeid registry namespaceName r.payloadLength m
        (creation.events as) (creation.run as).result := by
  let options : IdentifoldOptions := ⟨⟨registry, m, hm⟩, true, sequenceAllocator⟩
  let creation : Creation E := create unicode uuid typeid options namespaceName
  have hways : CreatesRandom unicode uuid typeid options.registry namespaceName r.payloadLength
      options.maxReferenceAttempts (creation.events as) (creation.run as).result :=
    create_createsRandom hdefinition hr rfl as
  exact ⟨options.toIdentifoldService, createIdentifold_ok_iff.mpr ⟨rfl, rfl⟩,
    Dialogue.of_unanswered _ as, hways⟩

/-- The law on a call whose first candidate is taken: both candidates are
drawn, and the second is returned. -/
theorem create_random_sample :
    ∃ service, createIdentifold sampleRegistry (some (.integer 2)) = .ok service ∧
      let mid := "019f0000-0000-7000-8000-000000000001".toList
      let identity : Identity :=
        ⟨mid, "order_01kw000000e008000000000001".toList, some "ORD-9999-9999-99-C".toList⟩
      let creation := create asciiCaseMapping rfc9562 typeIdV03 ⟨service, true, false⟩ "order".toList
      let replies : UInt8 → Bool → Replies Unit := fun byte reserved =>
        ⟨.ok mid, .ok none, .ok (some (List.replicate 10 byte)), .ok reserved, .ok none⟩
      let as := [replies 0 true, replies 7 true, replies 0 false, replies 9 true, replies 0 true]
      (creation.run as).result = some (.ok identity) ∧
        CreatesRandom asciiCaseMapping rfc9562 typeIdV03 sampleRegistry "order".toList 10 2
          (creation.events as) (creation.run as).result := by
  have hdefinition : sampleRegistry.getByPublicPrefix "order".toList = some orderDefinition := rfl
  obtain ⟨service, hservice, -, hways⟩ := create_random (m := 2) (by decide) false hdefinition rfl _
  have hmade : createIdentifold sampleRegistry (some (.integer 2)) =
      .ok ⟨sampleRegistry, 2, by decide⟩ := createIdentifold_ok_iff.mpr ⟨rfl, rfl⟩
  obtain rfl := Except.ok.inj (hmade.symm.trans hservice)
  exact ⟨_, hservice, by decide, hways⟩

end Creation

end Identifold.Injected
