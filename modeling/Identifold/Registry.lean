import Identifold.Lib.Rows
import Identifold.Checksum

/-!
# Identifold.Registry

Namespace definitions and `createNamespaceRegistry`
(`packages/typescript/src/registry.ts`).

A registered definition carries the validity of its prefixes and width, and a
`NamespaceRegistry` the two uniqueness facts its construction checks: public
prefixes are distinct, and reference prefixes are prefix-free.  The loop
itself (`registerAll`) runs on plain lists; `registerAll_wellFormed` is what
lets `createNamespaceRegistry` package its result.

* `registerNamespace_ok_iff` — one definition behind others;
* `createNamespaceRegistry_ok_iff` — the lists that are accepted;
* `getByPublicPrefix_eq_some_iff`, `getByReferencePrefix_eq_some_iff` — the two
  lookups;
* `eq_of_refPrefix` — at most one reference prefix begins a text.
-/

namespace Identifold

/-! ## definitions, as written by the application -/

/-- A JavaScript number: an integer, or anything else (a fraction, `NaN`, an
infinity). -/
inductive JsNumber
  | integer (n : Int)
  | other
  deriving DecidableEq, Repr

/-- `RandomReferenceProfile`. -/
inductive RandomReferenceProfile
  | compact
  | high
  | standard
  deriving DecidableEq, Repr

/-- `PROFILE_LENGTHS`. -/
def RandomReferenceProfile.payloadLength : RandomReferenceProfile → Nat
  | .compact => 8
  | .high => 12
  | .standard => 10

/-- The `scope` of a sequential definition: `"calendar-year"` or `"none"`. -/
inductive SequenceScope
  | calendarYear
  | none
  deriving DecidableEq, Repr

/-- `ReferenceDefinition`. -/
inductive ReferenceDefinition
  | random (refPrefix : Text) (profile : Option RandomReferenceProfile)
  | sequence (refPrefix : Text) (scope : Option SequenceScope) (width : JsNumber)
  deriving DecidableEq, Repr

/-- `NamespaceDefinition`. -/
structure NamespaceDefinition where
  publicPrefix : Text
  reference : Option ReferenceDefinition
  deriving DecidableEq, Repr

/-! ## prefix grammars -/

/-- `TYPE_ID_PREFIX`: `^([a-z]([a-z_]{0,61}[a-z])?)?$`. -/
def isTypeIdPrefix (v : Text) : Bool :=
  v.length ≤ 63 && v.head?.all Char.isLower && v.getLast?.all Char.isLower &&
    v.all fun c => c.isLower || c == '_'

/-- `REFERENCE_PREFIX`: `^[A-Z]{2,8}$`. -/
def isReferencePrefix (v : Text) : Bool :=
  2 ≤ v.length && v.length ≤ 8 && v.all Char.isUpper

/-- A public prefix: a non-empty TypeID prefix. -/
def isPublicPrefix (v : Text) : Bool := v.length ≠ 0 && isTypeIdPrefix v

/-! ## registered definitions -/

/-- `RegisteredRandomReferenceDefinition`. -/
structure RegisteredRandomReferenceDefinition where
  refPrefix : Text
  profile : RandomReferenceProfile
  refPrefix_valid : isReferencePrefix refPrefix = true
  deriving DecidableEq

/-- The payload length the profile fixes. -/
def RegisteredRandomReferenceDefinition.payloadLength
    (r : RegisteredRandomReferenceDefinition) : Nat :=
  r.profile.payloadLength

/-- `RegisteredSequentialReferenceDefinition`. -/
structure RegisteredSequentialReferenceDefinition where
  refPrefix : Text
  scope : SequenceScope
  width : Nat
  refPrefix_valid : isReferencePrefix refPrefix = true
  width_valid : 4 ≤ width ∧ width ≤ 18
  deriving DecidableEq

/-- `RegisteredReferenceDefinition`. -/
inductive RegisteredReferenceDefinition
  | random (r : RegisteredRandomReferenceDefinition)
  | sequence (r : RegisteredSequentialReferenceDefinition)
  deriving DecidableEq

/-- The reference prefix of either strategy. -/
def RegisteredReferenceDefinition.refPrefix : RegisteredReferenceDefinition → Text
  | .random r => r.refPrefix
  | .sequence r => r.refPrefix

/-- `RegisteredNamespaceDefinition`. -/
structure RegisteredNamespaceDefinition where
  publicPrefix : Text
  reference : Option RegisteredReferenceDefinition
  publicPrefix_valid : isPublicPrefix publicPrefix = true
  deriving DecidableEq

namespace RegisteredNamespaceDefinition

/-- `definition.reference?.prefix`. -/
def refPrefix? (d : RegisteredNamespaceDefinition) : Option Text :=
  d.reference.map RegisteredReferenceDefinition.refPrefix

/-- The key a definition is filed under in `byReferencePrefix`. -/
def referenceKey? (d : RegisteredNamespaceDefinition) : Option Text :=
  d.refPrefix?.map asciiUpper

end RegisteredNamespaceDefinition

/-- Neither text begins with the other. -/
def PrefixFree (p q : Text) : Prop := ¬ p <+: q ∧ ¬ q <+: p

/-- The prefix-freeness of two definitions, where both have references. -/
def RefPrefixFree (a b : RegisteredNamespaceDefinition) : Prop :=
  ∀ p ∈ a.refPrefix?, ∀ q ∈ b.refPrefix?, PrefixFree p q

/-- `NamespaceRegistry`: the frozen definitions with what their joint
validation established. -/
structure NamespaceRegistry where
  definitions : List RegisteredNamespaceDefinition
  publicPrefixes_nodup : (definitions.map (·.publicPrefix)).Nodup
  refPrefixes_free : definitions.Pairwise RefPrefixFree

namespace NamespaceRegistry

/-- `getByPublicPrefix`: public prefixes are distinct, so the `Map` holds the
one definition under that prefix. -/
def getByPublicPrefix (registry : NamespaceRegistry) (publicPrefix : Text) :
    Option RegisteredNamespaceDefinition :=
  registry.definitions.find? (·.publicPrefix = publicPrefix)

/-- `getByReferencePrefix`. -/
def getByReferencePrefix (registry : NamespaceRegistry) (referencePrefix : Text) :
    Option RegisteredNamespaceDefinition :=
  registry.definitions.find? (·.referenceKey? = some (asciiUpper referencePrefix))

end NamespaceRegistry

/-! ## registration -/

/-- `validatePublicPrefix`, returning the validity it establishes. -/
def validatePublicPrefix (publicPrefix : Text) :
    Except IdentifoldError (PLift (isPublicPrefix publicPrefix = true)) :=
  if h : isPublicPrefix publicPrefix = true then .ok ⟨h⟩
  else .error ⟨.invalidPublicPrefix, "Invalid public identifier prefix"⟩

/-- `registerReference` on a definition with a reference. -/
def registerReference : ReferenceDefinition → Except IdentifoldError RegisteredReferenceDefinition
  | .random refPrefix profile =>
      if hp : isReferencePrefix refPrefix = true then
        .ok (.random ⟨refPrefix, profile.getD .standard, hp⟩)
      else
        .error ⟨.invalidRefPrefix,
          "Human reference prefixes must contain 2 to 8 uppercase ASCII letters"⟩
  | .sequence refPrefix scope width =>
      if hp : isReferencePrefix refPrefix = true then
        match width with
        | .integer n =>
            if hw : 4 ≤ n ∧ n ≤ 18 then
              .ok (.sequence ⟨refPrefix, scope.getD .none, n.toNat, hp, by omega⟩)
            else
              .error ⟨.invalidRefLength,
                "Sequential reference width must be between 4 and 18 digits"⟩
        | .other =>
            .error ⟨.invalidRefLength,
              "Sequential reference width must be between 4 and 18 digits"⟩
      else
        .error ⟨.invalidRefPrefix,
          "Human reference prefixes must contain 2 to 8 uppercase ASCII letters"⟩

/-- The two checks of a new reference prefix against the registered ones:
first for equality, then both ways for being the beginning of the other. -/
def checkReferencePrefix (keys : List Text) (referencePrefix : Text) :
    Except IdentifoldError Unit := do
  ensure (referencePrefix ∉ keys)
    ⟨.duplicateRefPrefix, "Human reference prefixes must be unique"⟩
  ensure (∀ key ∈ keys, ¬ referencePrefix <+: key ∧ ¬ key <+: referencePrefix)
    ⟨.ambiguousRefPrefix, "Human reference prefixes must be prefix-free"⟩

/-- The loop body of `createNamespaceRegistry`: validate one definition
against the ones registered before it. -/
def registerNamespace (registered : List RegisteredNamespaceDefinition)
    (definition : NamespaceDefinition) : Except IdentifoldError RegisteredNamespaceDefinition := do
  let valid ← validatePublicPrefix definition.publicPrefix
  ensure (definition.publicPrefix ∉ registered.map (·.publicPrefix))
    ⟨.duplicatePublicPrefix, "Public identifier prefixes must be unique"⟩
  match definition.reference with
  | none => return ⟨definition.publicPrefix, none, valid.down⟩
  | some reference =>
      let reference ← registerReference reference
      checkReferencePrefix (registered.filterMap (·.referenceKey?)) (asciiUpper reference.refPrefix)
      return ⟨definition.publicPrefix, some reference, valid.down⟩

/-- The loop of `createNamespaceRegistry`. -/
def registerAll (registered : List RegisteredNamespaceDefinition) :
    List NamespaceDefinition → Except IdentifoldError (List RegisteredNamespaceDefinition)
  | [] => .ok registered
  | definition :: definitions => do
      let registration ← registerNamespace registered definition
      registerAll (registered ++ [registration]) definitions

/-- What the loop maintains about the registered definitions. -/
def WellFormedDefinitions (registered : List RegisteredNamespaceDefinition) : Prop :=
  (registered.map (·.publicPrefix)).Nodup ∧ registered.Pairwise RefPrefixFree

/-! ## prefixes are upper-case -/

theorem isUpper_of_mem_refPrefix {p : Text} (h : isReferencePrefix p = true) :
    ∀ c ∈ p, c.isUpper = true := by
  simp only [isReferencePrefix, Bool.and_eq_true, List.all_eq_true] at h
  exact h.2

theorem RegisteredReferenceDefinition.refPrefix_valid (r : RegisteredReferenceDefinition) :
    isReferencePrefix r.refPrefix = true := by
  cases r with
  | random r => exact r.refPrefix_valid
  | sequence r => exact r.refPrefix_valid

/-- A reference prefix has two to eight letters. -/
theorem length_of_isReferencePrefix {p : Text} (h : isReferencePrefix p = true) :
    2 ≤ p.length ∧ p.length ≤ 8 := by
  simp only [isReferencePrefix, Bool.and_eq_true, decide_eq_true_eq] at h
  exact h.1

/-- A reference prefix is in capitals. -/
theorem asciiUpper_refPrefix {p : Text} (h : isReferencePrefix p = true) : asciiUpper p = p :=
  asciiUpper_eq_self fun c hc =>
    (IsReferenceSymbol.facts (.inl (isUpper_of_mem_refPrefix h c hc))).1

theorem hyphen_not_mem_refPrefix {p : Text} (h : isReferencePrefix p = true) : '-' ∉ p :=
  fun hmem => (IsReferenceSymbol.facts (.inl (isUpper_of_mem_refPrefix h _ hmem))).2.1 rfl

/-- The filing key of a definition is its reference prefix. -/
theorem referenceKey?_eq_refPrefix? (d : RegisteredNamespaceDefinition) :
    d.referenceKey? = d.refPrefix? := by
  unfold RegisteredNamespaceDefinition.referenceKey? RegisteredNamespaceDefinition.refPrefix?
  cases d.reference with
  | none => rfl
  | some r => simp [asciiUpper_refPrefix r.refPrefix_valid]

/-! ## the loop keeps the definitions well formed -/

/-- A reference prefix that passes the checks is prefix-free against every
registered one. -/
theorem checkReferencePrefix_ok {keys : List Text} {p : Text} {u : Unit}
    (h : checkReferencePrefix keys p = .ok u) : ∀ key ∈ keys, PrefixFree key p := by
  simp only [checkReferencePrefix, bind_eq_ok_iff, ensure_eq_ok_iff] at h
  obtain ⟨-, -, hfree⟩ := h
  exact fun key hkey => (hfree key hkey).symm

/-- **Registration step**: what a successful loop body established. -/
theorem registerNamespace_ok {registered : List RegisteredNamespaceDefinition}
    {definition : NamespaceDefinition} {d : RegisteredNamespaceDefinition}
    (h : registerNamespace registered definition = .ok d) :
    d.publicPrefix = definition.publicPrefix ∧
      d.publicPrefix ∉ registered.map (·.publicPrefix) ∧
      ∀ a ∈ registered, RefPrefixFree a d := by
  simp only [registerNamespace, bind_eq_ok_iff, ensure_eq_ok_iff] at h
  obtain ⟨valid, -, -, hnew, h⟩ := h
  cases href : definition.reference with
  | none =>
      simp only [href, pure_eq_ok_iff] at h
      subst h
      refine ⟨rfl, hnew, ?_⟩
      intro a _ p _ q hq
      simp [RegisteredNamespaceDefinition.refPrefix?] at hq
  | some reference =>
      simp only [href, bind_eq_ok_iff, pure_eq_ok_iff] at h
      obtain ⟨r, -, _, hcheck, rfl⟩ := h
      refine ⟨rfl, hnew, ?_⟩
      intro a ha p hp q hq
      have hq' : q = r.refPrefix := by
        simpa [RegisteredNamespaceDefinition.refPrefix?, eq_comm] using hq
      have hkey : p ∈ registered.filterMap (·.referenceKey?) := by
        refine List.mem_filterMap.mpr ⟨a, ha, ?_⟩
        rw [referenceKey?_eq_refPrefix?]
        exact hp
      have hfree := checkReferencePrefix_ok hcheck p hkey
      rwa [asciiUpper_refPrefix r.refPrefix_valid, ← hq'] at hfree

/-- A definition that is new and free of the others can be added. -/
theorem WellFormedDefinitions.concat {registered : List RegisteredNamespaceDefinition}
    {d : RegisteredNamespaceDefinition} (h : WellFormedDefinitions registered)
    (hnew : d.publicPrefix ∉ registered.map (·.publicPrefix))
    (hfree : ∀ a ∈ registered, RefPrefixFree a d) : WellFormedDefinitions (registered ++ [d]) := by
  refine ⟨?_, ?_⟩
  · rw [List.map_append, List.map_singleton, List.nodup_append]
    refine ⟨h.1, List.nodup_singleton _, ?_⟩
    intro p hp q hq
    rw [List.mem_singleton] at hq
    rintro rfl
    exact hnew (hq ▸ hp)
  · rw [List.pairwise_append]
    refine ⟨h.2, List.pairwise_singleton _ _, ?_⟩
    intro a ha b hb
    rw [List.mem_singleton] at hb
    subst hb
    exact hfree a ha

/-- The loop ends in well-formed definitions when it starts from them. -/
theorem registerAll_wellFormed {definitions : List NamespaceDefinition}
    {registered result : List RegisteredNamespaceDefinition}
    (hwf : WellFormedDefinitions registered) (h : registerAll registered definitions = .ok result) :
    WellFormedDefinitions result := by
  induction definitions generalizing registered with
  | nil =>
      simp only [registerAll, Except.ok.injEq] at h
      rwa [← h]
  | cons definition definitions ih =>
      simp only [registerAll, bind_eq_ok_iff] at h
      obtain ⟨d, hreg, h⟩ := h
      obtain ⟨-, hnew, hfree⟩ := registerNamespace_ok hreg
      exact ih (hwf.concat hnew hfree) h

/-- `createNamespaceRegistry`. -/
def createNamespaceRegistry (definitions : List NamespaceDefinition) :
    Except IdentifoldError NamespaceRegistry :=
  match h : registerAll [] definitions with
  | .error e => .error e
  | .ok registered =>
      have hwf : WellFormedDefinitions registered :=
        registerAll_wellFormed ⟨by simp, List.Pairwise.nil⟩ h
      .ok ⟨registered, hwf.1, hwf.2⟩

/-! ## what is registered -/

/-- A registered definition is the written one, its reference validated and
completed with its defaults. -/
def Registers (definition : NamespaceDefinition) (d : RegisteredNamespaceDefinition) : Prop :=
  d.publicPrefix = definition.publicPrefix ∧
    match definition.reference with
    | none => d.reference = none
    | some reference => ∃ r, d.reference = some r ∧ registerReference reference = .ok r

/-- What is registered is the definition with its defaults. -/
theorem registers_of_registerNamespace {registered : List RegisteredNamespaceDefinition}
    {definition : NamespaceDefinition} {d : RegisteredNamespaceDefinition}
    (h : registerNamespace registered definition = .ok d) : Registers definition d := by
  simp only [registerNamespace, bind_eq_ok_iff, ensure_eq_ok_iff] at h
  obtain ⟨valid, -, -, -, h⟩ := h
  cases href : definition.reference with
  | none =>
      simp only [href, pure_eq_ok_iff] at h
      subst h
      simp [Registers, href]
  | some reference =>
      simp only [href, bind_eq_ok_iff, pure_eq_ok_iff] at h
      obtain ⟨r, hr, _, -, rfl⟩ := h
      simp [Registers, href, hr]

/-- The loop registers the definitions in their order. -/
theorem registerAll_registers {definitions : List NamespaceDefinition}
    {registered result : List RegisteredNamespaceDefinition}
    (h : registerAll registered definitions = .ok result) :
    ∃ added, result = registered ++ added ∧ List.Forall₂ Registers definitions added := by
  induction definitions generalizing registered with
  | nil =>
      simp only [registerAll, Except.ok.injEq] at h
      exact ⟨[], by simp [h], .nil⟩
  | cons definition definitions ih =>
      simp only [registerAll, bind_eq_ok_iff] at h
      obtain ⟨d, hreg, h⟩ := h
      obtain ⟨added, rfl, hadded⟩ := ih h
      exact ⟨d :: added, by simp, .cons (registers_of_registerNamespace hreg) hadded⟩

/-- A registry has its definitions in order, with their defaults. -/
theorem createNamespaceRegistry_registers {definitions : List NamespaceDefinition}
    {registry : NamespaceRegistry} (h : createNamespaceRegistry definitions = .ok registry) :
    List.Forall₂ Registers definitions registry.definitions := by
  unfold createNamespaceRegistry at h
  split at h
  · contradiction
  · next registered hall =>
      obtain ⟨added, hadded, hforall⟩ := registerAll_registers hall
      rw [← Except.ok.inj h]
      simpa [hadded] using hforall

/-- Freedom of prefixes is symmetric. -/
theorem refPrefixFree_symm {a b : RegisteredNamespaceDefinition} (h : RefPrefixFree a b) :
    RefPrefixFree b a := fun p hp q hq => (h q hq p hp).symm

/-- A registered definition is determined by the written one. -/
theorem Registers.eq {definition : NamespaceDefinition} {d e : RegisteredNamespaceDefinition}
    (hd : Registers definition d) (he : Registers definition e) : d = e := by
  obtain ⟨hdp, hdr⟩ := hd
  obtain ⟨hep, her⟩ := he
  have href : d.reference = e.reference := by
    cases href : definition.reference with
    | none =>
        rw [href] at hdr her
        exact hdr.trans her.symm
    | some reference =>
        rw [href] at hdr her
        obtain ⟨r, hr, hregister⟩ := hdr
        obtain ⟨r', hr', hregister'⟩ := her
        rw [hr, hr', Except.ok.inj (hregister.symm.trans hregister')]
  have hpublic : d.publicPrefix = e.publicPrefix := hdp.trans hep.symm
  clear hdp hdr hep her
  obtain ⟨dp, dr, hdv⟩ := d
  obtain ⟨ep, er, hev⟩ := e
  simp only at hpublic href
  subst hpublic href
  rfl

/-- A reference prefix that no registered one begins or is begun by passes the
checks. -/
theorem checkReferencePrefix_of_free {keys : List Text} {p : Text}
    (h : ∀ key ∈ keys, PrefixFree key p) : checkReferencePrefix keys p = .ok () := by
  have hnew : p ∉ keys := fun hmem => (h p hmem).1 List.prefix_rfl
  have hfree : ∀ key ∈ keys, ¬ p <+: key ∧ ¬ key <+: p := fun key hkey => (h key hkey).symm
  rw [checkReferencePrefix, ensure_of hnew, ok_bind, ensure_of hfree]

/-- **Registration**: a definition is registered behind others exactly when it
is valid by itself and its prefixes are free of theirs. -/
theorem registerNamespace_ok_iff {registered : List RegisteredNamespaceDefinition}
    {definition : NamespaceDefinition} {d : RegisteredNamespaceDefinition} :
    registerNamespace registered definition = .ok d ↔ Registers definition d ∧
      d.publicPrefix ∉ registered.map (·.publicPrefix) ∧ ∀ a ∈ registered, RefPrefixFree a d := by
  constructor
  · intro h
    exact ⟨registers_of_registerNamespace h, (registerNamespace_ok h).2⟩
  · rintro ⟨hd, hnew, hfree⟩
    obtain ⟨hpublic, href⟩ := hd
    have hvalid : isPublicPrefix definition.publicPrefix = true := hpublic ▸ d.publicPrefix_valid
    have hchecked : validatePublicPrefix definition.publicPrefix = .ok ⟨hvalid⟩ := dif_pos hvalid
    rw [hpublic] at hnew
    -- what is returned registers the same definition
    suffices h : ∃ e, registerNamespace registered definition = .ok e by
      obtain ⟨e, he⟩ := h
      rw [he, (registers_of_registerNamespace he).eq ⟨hpublic, href⟩]
    rw [registerNamespace, hchecked, ok_bind, ensure_of hnew, ok_bind]
    cases hreference : definition.reference with
    | none => exact ⟨_, rfl⟩
    | some reference =>
        rw [hreference] at href
        obtain ⟨r, hr, hregister⟩ := href
        have hkeys : ∀ key ∈ registered.filterMap (·.referenceKey?),
            PrefixFree key (asciiUpper r.refPrefix) := by
          intro key hkey
          obtain ⟨a, ha, hka⟩ := List.mem_filterMap.mp hkey
          rw [referenceKey?_eq_refPrefix?] at hka
          rw [asciiUpper_refPrefix r.refPrefix_valid]
          exact hfree a ha key hka r.refPrefix (by simp [RegisteredNamespaceDefinition.refPrefix?, hr])
        simp only [hregister, ok_bind, checkReferencePrefix_of_free hkeys]
        exact ⟨_, rfl⟩

/-- The loop accepts definitions that are valid one by one and well formed
together. -/
theorem registerAll_of_registers {definitions : List NamespaceDefinition}
    {registered added : List RegisteredNamespaceDefinition}
    (h : List.Forall₂ Registers definitions added) (hwf : WellFormedDefinitions (registered ++ added)) :
    registerAll registered definitions = .ok (registered ++ added) := by
  induction h generalizing registered with
  | nil => rw [registerAll, List.append_nil]
  | @cons definition d definitions added hd _ ih =>
      have hsplit : registered ++ d :: added = (registered ++ [d]) ++ added := by simp
      obtain ⟨hnodup, hfree⟩ := hwf
      have hnew : d.publicPrefix ∉ registered.map (·.publicPrefix) := by
        rw [List.map_append, List.nodup_append, List.map_cons] at hnodup
        exact fun hmem => hnodup.2.2 _ hmem _ (by simp) rfl
      have hbefore : ∀ a ∈ registered, RefPrefixFree a d := fun a ha =>
        (List.pairwise_append.mp hfree).2.2 a ha d (by simp)
      rw [registerAll, registerNamespace_ok_iff.mpr ⟨hd, hnew, hbefore⟩, ok_bind, hsplit]
      exact ih ⟨hsplit ▸ hnodup, hsplit ▸ hfree⟩

/-- **Acceptance**: the registry of a list of definitions is the one list of
registered definitions that they denote, where that list is well formed. -/
theorem createNamespaceRegistry_ok_iff {definitions : List NamespaceDefinition}
    {registry : NamespaceRegistry} : createNamespaceRegistry definitions = .ok registry ↔
      List.Forall₂ Registers definitions registry.definitions := by
  refine ⟨createNamespaceRegistry_registers, fun h => ?_⟩
  have hall : registerAll [] definitions = .ok registry.definitions :=
    registerAll_of_registers h ⟨registry.publicPrefixes_nodup, registry.refPrefixes_free⟩
  unfold createNamespaceRegistry
  split
  · next e he =>
      rw [hall] at he
      contradiction
  · next registered hregistered =>
      obtain rfl := Except.ok.inj (hall.symm.trans hregistered)
      rfl

/-! ## lookups -/

namespace NamespaceRegistry

variable {registry : NamespaceRegistry} {d e : RegisteredNamespaceDefinition} {v p q : Text}

theorem eq_of_publicPrefix_eq (hd : d ∈ registry.definitions) (he : e ∈ registry.definitions)
    (h : d.publicPrefix = e.publicPrefix) : d = e :=
  List.inj_on_of_nodup_map registry.publicPrefixes_nodup hd he h

/-- **Prefix-freeness**: reference prefixes of two registered definitions that
begin the same text belong to one definition. -/
theorem eq_of_refPrefix (hd : d ∈ registry.definitions) (he : e ∈ registry.definitions)
    (hp : d.refPrefix? = some p) (hq : e.refPrefix? = some q) (h : p <+: q ∨ q <+: p) : d = e := by
  by_contra hne
  have hsymm : Std.Symm RefPrefixFree :=
    ⟨fun a b hab p hp q hq => (hab q hq p hp).symm⟩
  have hfree : RefPrefixFree d e := registry.refPrefixes_free.forall hd he hne
  have hpq := hfree p hp q hq
  rcases h with h | h
  · exact hpq.1 h
  · exact hpq.2 h

/-- The lookup by public prefix finds the definition that has it. -/
theorem getByPublicPrefix_eq_some_iff :
    registry.getByPublicPrefix p = some d ↔ d ∈ registry.definitions ∧ d.publicPrefix = p :=
  Rows.UniqueOn.find?_eq_some_iff registry.publicPrefixes_nodup

/-- The lookup by reference prefix finds it in any case. -/
theorem getByReferencePrefix_eq_some_iff :
    registry.getByReferencePrefix p = some d ↔
      d ∈ registry.definitions ∧ d.refPrefix? = some (asciiUpper p) := by
  rw [getByReferencePrefix, Rows.find?_eq_some_iff]
  · simp [referenceKey?_eq_refPrefix?]
  · intro a ha b hb hka hkb
    simp only [referenceKey?_eq_refPrefix?, decide_eq_true_eq] at hka hkb
    exact eq_of_refPrefix ha hb hka hkb (.inl List.prefix_rfl)

end NamespaceRegistry

/-! ## a registry -/

instance : DecidableRel RefPrefixFree := fun a b =>
  inferInstanceAs (Decidable (∀ p ∈ a.refPrefix?, ∀ q ∈ b.refPrefix?, ¬ p <+: q ∧ ¬ q <+: p))

/-- The random reference of the package's tests. -/
def orderReference : RegisteredRandomReferenceDefinition :=
  ⟨"ORD".toList, .standard, by decide⟩

/-- The scoped sequence of the package's tests. -/
def invoiceReference : RegisteredSequentialReferenceDefinition :=
  ⟨"INV".toList, .calendarYear, 6, by decide, by decide⟩

def orderDefinition : RegisteredNamespaceDefinition :=
  ⟨"order".toList, some (.random orderReference), by decide⟩

def invoiceDefinition : RegisteredNamespaceDefinition :=
  ⟨"invoice".toList, some (.sequence invoiceReference), by decide⟩

/-- A registry with one namespace of each strategy. -/
def sampleRegistry : NamespaceRegistry :=
  ⟨[orderDefinition, invoiceDefinition], by decide, by decide⟩

/-- The definitions it is created from. -/
def sampleDefinitions : List NamespaceDefinition :=
  [⟨"order".toList, some (.random "ORD".toList none)⟩,
    ⟨"invoice".toList, some (.sequence "INV".toList (some .calendarYear) (.integer 6))⟩]

example : createNamespaceRegistry sampleDefinitions = .ok sampleRegistry := by rfl

end Identifold
