import Identifold.JsonText
import Identifold.Service.Reservation

/-!
# Identifold.Service.IdentityJson

`serializeIdentity` and `deserializeIdentity` of
`packages/typescript/src/json.ts`.

`ConsistentIdentity` is what a serialized identity has to be: a canonical
machine identifier, its public identifier in a registered namespace, and a
canonical reference of the same namespace.  `create` returns nothing else,
`deserializeIdentity` accepts nothing else, and what is so is read back.

* `deserializeMembers_ok_iff` — the two identifiers;
* `deserializeIdentity_ok` — what is accepted is consistent;
* `create_consistent` — what is created is.
-/

namespace Identifold

/-! ## the code -/

/-- `serializeIdentity`. -/
def serializeIdentity (identity : Identity) : JsonValue :=
  match identity.ref with
  | none => .object [("mid".toList, .string identity.mid), ("pid".toList, .string identity.pid)]
  | some ref => .object [("mid".toList, .string identity.mid), ("pid".toList, .string identity.pid),
      ("ref".toList, .string ref)]

section Deserialize

variable (unicode : CaseMapping) (uuid : UuidLibrary) (typeid : TypeIdLibrary)

/-- The part of `deserializeIdentity` behind the test of the two strings. -/
def deserializeMembers (registry : NamespaceRegistry) (mid pid : Text) (ref : JsValue) :
    Except Thrown Identity := do
  let mid ← parseMachineId unicode uuid mid
  let parsedPid ← parsePublicId unicode uuid typeid pid
  ensure (registry.getByPublicPrefix parsedPid.namespaceName ≠ none ∧ parsedPid.machineId = mid)
    (.identifold ⟨.invalidPid, "Public identifier does not match the identity MID"⟩)
  match ref with
  | none => return ⟨mid, parsedPid.value, none⟩
  | some (.string ref) => do
      let parsedRef ← (parseReference ref registry).mapError .identifold
      ensure (parsedRef.namespaceName = parsedPid.namespaceName)
        (.identifold ⟨.invalidRef, "Human reference namespace does not match the PID"⟩)
      return ⟨mid, parsedPid.value, some parsedRef.value⟩
  | some _ => throw (.identifold ⟨.invalidRef, "Identity reference must be a string"⟩)

/-- `deserializeIdentity`, on a JSON value. -/
def deserializeIdentity (registry : NamespaceRegistry) (value : JsonValue) :
    Except Thrown Identity :=
  match value with
  | .object members =>
      match members.lookup "mid".toList, members.lookup "pid".toList with
      | some (.string mid), some (.string pid) =>
          deserializeMembers unicode uuid typeid registry mid pid (members.lookup "ref".toList)
      | _, _ => .error (.identifold
          ⟨.invalidKind, "Identity JSON must contain string MID and PID values"⟩)
  | _ => .error (.identifold
      ⟨.invalidKind, "Identity JSON must contain string MID and PID values"⟩)

end Deserialize

/-! ## consistent identities -/

/-- An identity of a namespace and the hexadecimal digits of a machine
identifier, all of its members in canonical form. -/
structure ConsistentIdentity (registry : NamespaceRegistry) (namespaceName hex : Text)
    (identity : Identity) : Prop where
  registered : registry.getByPublicPrefix namespaceName ≠ none
  hex_valid : IsMachineHex hex
  mid_eq : identity.mid = formatUuid hex
  pid_eq : identity.pid = publicIdText namespaceName hex
  ref_parses : ∀ ref ∈ identity.ref, ∃ result, parseReference ref registry = .ok result ∧
    result.value = ref ∧ result.namespaceName = namespaceName

section Consistent

variable {unicode : CaseMapping} {uuid : UuidLibrary} {typeid : TypeIdLibrary}
  {registry : NamespaceRegistry} {namespaceName hex : Text} {identity : Identity}

theorem isPublicPrefix_of_registered (h : registry.getByPublicPrefix namespaceName ≠ none) :
    isPublicPrefix namespaceName = true := by
  obtain ⟨d, hd⟩ := Option.ne_none_iff_exists'.mp h
  obtain ⟨-, rfl⟩ := NamespaceRegistry.getByPublicPrefix_eq_some_iff.mp hd
  exact d.publicPrefix_valid

/-- **What is accepted**: two strings that are one machine identifier, the
second within a registered namespace, and a reference of that namespace. -/
theorem deserializeMembers_ok_iff {mid pid : Text} {ref : JsValue} :
    deserializeMembers unicode uuid typeid registry mid pid ref = .ok identity ↔
      ∃ namespaceName hex, registry.getByPublicPrefix namespaceName ≠ none ∧ IsMachineHex hex ∧
        asciiLower mid = formatUuid hex ∧ pid = publicIdText namespaceName hex ∧
        identity.mid = formatUuid hex ∧ identity.pid = publicIdText namespaceName hex ∧
        ((ref = none ∧ identity.ref = none) ∨
          ∃ written result, ref = some (.string written) ∧
            parseReference written registry = .ok result ∧ result.namespaceName = namespaceName ∧
            identity.ref = some result.value) := by
  obtain ⟨imid, ipid, iref⟩ := identity
  simp only [deserializeMembers, bind_eq_ok_iff, ensure_eq_ok_iff, parseMachineId_ok_iff,
    parsePublicId_ok_iff]
  constructor
  · rintro ⟨_, ⟨hmachine, rfl⟩, _, ⟨ns, hex, hns, hhex, rfl, rfl⟩, _, ⟨hregistered, hmatch⟩, h⟩
    refine ⟨ns, hex, hregistered, hhex, hmatch.symm, rfl, ?_⟩
    cases ref with
    | none =>
        obtain ⟨rfl, rfl, rfl⟩ := Identity.mk.inj (pure_eq_ok_iff.mp h)
        exact ⟨hmatch.symm, rfl, .inl ⟨rfl, rfl⟩⟩
    | some ref =>
        cases ref with
        | string written =>
            simp only [bind_eq_ok_iff, ensure_eq_ok_iff, mapError_eq_ok_iff, pure_eq_ok_iff] at h
            obtain ⟨result, hparse, _, hnamespace, hidentity⟩ := h
            obtain ⟨rfl, rfl, rfl⟩ := Identity.mk.inj hidentity
            exact ⟨hmatch.symm, rfl, .inr ⟨written, result, rfl, hparse, hnamespace, rfl⟩⟩
        | null => contradiction
        | boolean b => contradiction
        | number n => contradiction
        | array elements => contradiction
        | object members => contradiction
  · rintro ⟨ns, hex, hregistered, hhex, hlower, rfl, rfl, rfl, href⟩
    refine ⟨_, ⟨⟨hex, hhex, hlower⟩, rfl⟩, _,
      ⟨ns, hex, isPublicPrefix_of_registered hregistered, hhex, rfl, rfl⟩, (), ⟨hregistered, hlower.symm⟩, ?_⟩
    rcases href with ⟨rfl, rfl⟩ | ⟨written, result, rfl, hparse, hnamespace, rfl⟩
    · rw [hlower]
      rfl
    · simp only [bind_eq_ok_iff, ensure_eq_ok_iff, mapError_eq_ok_iff, pure_eq_ok_iff]
      exact ⟨result, hparse, (), hnamespace, by rw [hlower]⟩

theorem deserializeIdentity_serializeIdentity (identity : Identity) :
    deserializeIdentity unicode uuid typeid registry (serializeIdentity identity) =
      deserializeMembers unicode uuid typeid registry identity.mid identity.pid
        (identity.ref.map .string) := by
  unfold serializeIdentity
  cases identity.ref <;> rfl

/-- A consistent identity is read back from its JSON value. -/
theorem ConsistentIdentity.deserialize (h : ConsistentIdentity registry namespaceName hex identity) :
    deserializeIdentity unicode uuid typeid registry (serializeIdentity identity) = .ok identity := by
  obtain ⟨imid, ipid, iref⟩ := identity
  obtain ⟨hregistered, hhex, rfl, rfl, href⟩ := h
  have hlower : asciiLower (formatUuid hex) = formatUuid hex := asciiLower_formatUuid hhex.1
  rw [deserializeIdentity_serializeIdentity, deserializeMembers_ok_iff]
  refine ⟨namespaceName, hex, hregistered, hhex, hlower, rfl, rfl, rfl, ?_⟩
  cases iref with
  | none => exact .inl ⟨rfl, rfl⟩
  | some ref =>
      obtain ⟨result, hparse, hvalue, hnamespace⟩ := href ref rfl
      exact .inr ⟨ref, result, rfl, hparse, hnamespace, by rw [hvalue]⟩

/-- And through its text. -/
theorem parse_stringify_identity (identity : Identity) :
    ∃ text, JsonText.stringify (serializeIdentity identity) = some text ∧
      JsonText.parse text = some (serializeIdentity identity) := by
  obtain ⟨mid, pid, ref⟩ := identity
  cases ref with
  | none =>
      exact ⟨_, rfl, JsonText.parse_stringify rfl
        (by simp [serializeIdentity, JsonText.DistinctNames, JsonText.MembersDistinct])⟩
  | some ref =>
      exact ⟨_, rfl, JsonText.parse_stringify rfl
        (by simp [serializeIdentity, JsonText.DistinctNames, JsonText.MembersDistinct])⟩

/-- An identity is consistent with one namespace and one machine identifier. -/
theorem ConsistentIdentity.parts_eq (h : ConsistentIdentity registry namespaceName hex identity) :
    IsMachineId identity.mid ∧
      parsePublicId unicode uuid typeid identity.pid =
        .ok ⟨identity.pid, namespaceName, identity.mid⟩ := by
  obtain ⟨hregistered, hhex, hmid, hpid, -⟩ := h
  refine ⟨⟨hex, hhex, hmid⟩, parsePublicId_ok_iff.mpr ?_⟩
  exact ⟨namespaceName, hex, isPublicPrefix_of_registered hregistered, hhex, hpid, by rw [hmid]⟩

/-- **Soundness**: an accepted value has the members of a consistent identity. -/
theorem deserializeIdentity_ok {value : JsonValue}
    (h : deserializeIdentity unicode uuid typeid registry value = .ok identity) :
    ∃ namespaceName hex, ConsistentIdentity registry namespaceName hex identity ∧
      ∃ members, value = .object members ∧
        ((members.lookup "ref".toList = none ∧ identity.ref = none) ∨
          ∃ written result, members.lookup "ref".toList = some (.string written) ∧
            parseReference written registry = .ok result ∧ result.namespaceName = namespaceName ∧
            identity.ref = some result.value) := by
  unfold deserializeIdentity at h
  split at h
  · next members =>
      split at h
      · next mid pid hmid hpid =>
          obtain ⟨ns, hex, hregistered, hhex, -, -, hmid, hpid, href⟩ := deserializeMembers_ok_iff.mp h
          refine ⟨ns, hex, ⟨hregistered, hhex, hmid, hpid, ?_⟩, members, rfl, href⟩
          intro ref hmem
          rcases href with ⟨-, hnone⟩ | ⟨written, result, -, hparse, hnamespace, hsome⟩
          · rw [hnone] at hmem
            contradiction
          · rw [hsome] at hmem
            obtain rfl := Option.some.inj hmem
            exact ⟨result, parseReference_value hparse, rfl, hnamespace⟩
      · contradiction
  · contradiction

/-- A formatted reference completes a base identity. -/
theorem ConsistentIdentity.withRef {base : Identity} {ref : Text}
    (h : ConsistentIdentity registry namespaceName hex base) {content : ReferenceContent}
    (hformat : content.format registry = .ok ref)
    (hnamespace : ∀ result, content.IsReadFrom result → result.namespaceName = namespaceName) :
    ConsistentIdentity registry namespaceName hex { base with ref := some ref } := by
  obtain ⟨result, hparse, hvalue, hread⟩ := parseReference_format hformat
  refine { h with ref_parses := ?_ }
  intro ref' href
  obtain rfl := Option.some.inj href
  exact ⟨result, hparse, hvalue, hnamespace result hread⟩

end Consistent

/-! ## created identities -/

namespace Injected

variable {E : Type} {unicode : CaseMapping} {uuid : UuidLibrary} {typeid : TypeIdLibrary}
  {namespaceName : Text}

section Rules

variable {α : Type} {P : Except (Rejection E) Identity → Prop}

/-- A call of an injected function ensures what its continuation does. -/
theorem ensures_call {q : Call} {reply : Replies E → Except E α} {next : α → Creation E}
    (herror : ∀ e, P (.error e)) (hnext : ∀ a, (next a).Ensures P) :
    (call q reply next).Ensures P := by
  simp only [call, Dialogue.Ensures]
  intro replies
  cases reply replies with
  | error e => exact herror _
  | ok a => exact hnext a

/-- So does a function of the package, on what it returns. -/
theorem ensures_attempt {x : Except Thrown α} {next : α → Creation E}
    (herror : ∀ e, P (.error e)) (hnext : ∀ a, x = .ok a → (next a).Ensures P) :
    (attempt x next).Ensures P := by
  cases x with
  | error e => exact herror _
  | ok a => exact hnext a rfl

end Rules

/-- The promise is settled with a consistent identity, or rejected. -/
def SettlesConsistent (registry : NamespaceRegistry) (namespaceName : Text)
    (outcome : Except (Rejection E) Identity) : Prop :=
  ∀ identity, outcome = .ok identity → ∃ hex, ConsistentIdentity registry namespaceName hex identity

theorem settlesConsistent_error {registry : NamespaceRegistry} (e : Rejection E) :
    SettlesConsistent registry namespaceName (.error e) := by
  intro identity h
  contradiction

variable {options : IdentifoldOptions} {hex : Text} {base : Identity}

theorem ensures_createBaseIdentity {P : Except (Rejection E) Identity → Prop}
    (hregistered : options.registry.getByPublicPrefix namespaceName ≠ none)
    {next : Identity → Creation E} (herror : ∀ e, P (.error e))
    (hnext : ∀ hex base, ConsistentIdentity options.registry namespaceName hex base →
      base.ref = none → (next base).Ensures P) :
    (createBaseIdentity unicode uuid typeid namespaceName next).Ensures P := by
  refine ensures_call herror fun value => ensures_attempt herror fun base hbase => ?_
  obtain ⟨mid, pid, hmid, hpid, rfl⟩ := baseIdentityOf_ok_iff.mp hbase
  obtain ⟨hmachine, -⟩ := parseMachineId_ok_iff.mp hmid
  obtain ⟨-, hex, hhex, hlower, rfl⟩ := publicIdFromMachineId_ok_iff.mp hpid
  rw [hmachine.facts.2.2.1] at hlower
  exact hnext hex _ ⟨hregistered, hhex, hlower, rfl, by simp⟩ rfl

theorem ensures_reserveLoop (h : ConsistentIdentity options.registry namespaceName hex base)
    (attempts : Nat) :
    (reserveLoop options namespaceName base attempts : Creation E).Ensures
      (SettlesConsistent options.registry namespaceName) := by
  induction attempts with
  | zero => exact settlesConsistent_error _
  | succ attempts ih =>
      refine ensures_attempt settlesConsistent_error fun r _ =>
        ensures_call settlesConsistent_error fun bytes =>
          ensures_attempt settlesConsistent_error fun ref href =>
            ensures_call settlesConsistent_error fun reserved => ?_
      cases reserved with
      | false => exact ih
      | true =>
          intro identity heq
          rw [← Except.ok.inj heq]
          cases bytes with
          | none => contradiction
          | some bytes =>
              have hformat : (ReferenceContent.candidate namespaceName bytes).format options.registry =
                  .ok ref := mapError_eq_ok_iff.mp href
              exact ⟨hex, h.withRef hformat fun result hread => hread.1⟩

theorem ensures_allocateSequence (h : ConsistentIdentity options.registry namespaceName hex base)
    (reference : RegisteredSequentialReferenceDefinition) (scope : Option Text) :
    (allocateSequence options namespaceName reference base scope : Creation E).Ensures
      (SettlesConsistent options.registry namespaceName) := by
  refine ensures_call settlesConsistent_error fun sequence =>
    ensures_attempt settlesConsistent_error fun ref href => ?_
  intro identity heq
  rw [← Except.ok.inj heq]
  cases sequence with
  | none => contradiction
  | some n =>
      have hformat : (ReferenceContent.sequence namespaceName n scope).format options.registry =
          .ok ref := mapError_eq_ok_iff.mp href
      exact ⟨hex, h.withRef hformat fun result hread => hread.1⟩

/-- **`create` returns consistent identities only**, whatever the injected
functions do. -/
theorem create_consistent (unicode : CaseMapping) (uuid : UuidLibrary) (typeid : TypeIdLibrary)
    (options : IdentifoldOptions) (namespaceName : Text) :
    (create unicode uuid typeid options namespaceName : Creation E).Ensures
      (SettlesConsistent options.registry namespaceName) := by
  unfold create
  cases hdefinition : options.registry.getByPublicPrefix namespaceName with
  | none => exact settlesConsistent_error _
  | some definition =>
      have hregistered : options.registry.getByPublicPrefix namespaceName ≠ none := by
        simp [hdefinition]
      simp only
      cases definition.reference with
      | none =>
          refine ensures_createBaseIdentity hregistered settlesConsistent_error fun hex base h _ => ?_
          intro identity heq
          rw [← Except.ok.inj heq]
          exact ⟨hex, h⟩
      | some reference =>
          cases reference with
          | sequence reference =>
              simp only
              split
              · refine ensures_createBaseIdentity hregistered settlesConsistent_error
                  fun hex base h _ => ?_
                cases reference.scope with
                | none => exact ensures_allocateSequence h reference none
                | calendarYear =>
                    exact ensures_call settlesConsistent_error fun now =>
                      ensures_attempt settlesConsistent_error fun year _ =>
                        ensures_allocateSequence h reference (some year)
              · exact settlesConsistent_error _
          | random r =>
              simp only
              split
              · exact ensures_createBaseIdentity hregistered settlesConsistent_error
                  fun hex base h _ => ensures_reserveLoop h _
              · exact settlesConsistent_error _

end Injected

/-- **Identity JSON** is faithful and validated: what `create` returns is read
back, also through its text, and what is accepted is consistent and read back
as well. -/
theorem identity_json_faithful (unicode : CaseMapping) (uuid : UuidLibrary) (typeid : TypeIdLibrary) :
    (∀ (E : Type) (options : Injected.IdentifoldOptions) (namespaceName : Text)
        (as : List (Injected.Replies E)) (identity : Identity),
      ((Injected.create unicode uuid typeid options namespaceName).run as).result =
          some (.ok identity) →
        deserializeIdentity unicode uuid typeid options.registry (serializeIdentity identity) =
          .ok identity) ∧
    (∀ identity : Identity, ∃ text, JsonText.stringify (serializeIdentity identity) = some text ∧
      JsonText.parse text = some (serializeIdentity identity)) ∧
    ∀ (registry : NamespaceRegistry) (value : JsonValue) (identity : Identity),
      deserializeIdentity unicode uuid typeid registry value = .ok identity →
        ∃ namespaceName members, value = .object members ∧
          IsMachineId identity.mid ∧
          registry.getByPublicPrefix namespaceName ≠ none ∧
          parsePublicId unicode uuid typeid identity.pid =
            .ok ⟨identity.pid, namespaceName, identity.mid⟩ ∧
          (members.lookup "ref".toList = none → identity.ref = none) ∧
          (∀ ref, identity.ref = some ref → ∃ written result,
            members.lookup "ref".toList = some (.string written) ∧
              parseReference written registry = .ok result ∧ result.value = ref ∧
              result.namespaceName = namespaceName ∧
              parseReference ref registry = .ok result) ∧
          deserializeIdentity unicode uuid typeid registry (serializeIdentity identity) =
            .ok identity := by
  refine ⟨?_, parse_stringify_identity, ?_⟩
  · -- what `create` returns is consistent, so it is read back
    intro E options namespaceName as identity hrun
    have hconsistent := (Injected.create_consistent unicode uuid typeid options namespaceName).result hrun
    obtain ⟨hex, h⟩ := hconsistent identity rfl
    exact h.deserialize
  · intro registry value identity h
    obtain ⟨ns, hex, hconsistent, members, hvalue, href⟩ := deserializeIdentity_ok h
    obtain ⟨hmid, hpid⟩ := hconsistent.parts_eq
    refine ⟨ns, members, hvalue, hmid, hconsistent.registered, hpid, ?_, ?_, hconsistent.deserialize⟩
    · intro hnone
      rcases href with ⟨-, hidentity⟩ | ⟨written, result, hsome, -⟩
      · exact hidentity
      · rw [hnone] at hsome
        contradiction
    · intro ref hidentity
      rcases href with ⟨-, hnone⟩ | ⟨written, result, hwritten, hparse, hnamespace, hsome⟩
      · rw [hnone] at hidentity
        contradiction
      · rw [hsome] at hidentity
        obtain rfl := Option.some.inj hidentity
        exact ⟨written, result, hwritten, hparse, rfl, hnamespace, parseReference_value hparse⟩

end Identifold
