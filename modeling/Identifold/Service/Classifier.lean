import Identifold.PublicId
import Identifold.Reference.Spelling

/-!
# Identifold.Service.Classifier

`normalize`, `parse` and `validate` of `packages/typescript/src/service.ts`:
one entry point for the three representations.  The kind is detected from the
shape of the text alone, before any registry is consulted, and the parser of
that kind then decides.

The three parsers accept disjoint texts, so the entry point should accept
their union.  The detector expects a digit or a hyphen within the first nine
symbols of a reference; the texts it turns away are the hyphenless random
references that begin with nine letters.  And on a TypeID whose bits are no
UUID of RFC 9562 the parser of public identifiers throws no `IdentifoldError`
but the library's error, which `parse`, `normalize` and `validate` let pass.

* `isReferenceStart_hyphenless` — what the detector sees of a reference;
* `IsReading.unique` — the three parsers accept disjoint texts;
* `parse_throws_iff` — when the error is not the library's.
-/

namespace Identifold

open Separated RegisteredReferenceDefinition

/-! ## the entry point -/

/-- `IdentifierKind`. -/
inductive IdentifierKind
  | mid
  | pid
  | ref
  deriving DecidableEq, Repr

/-- `ParsedIdentifier`: the kind with what its parser returned. -/
inductive ParsedIdentifier
  | mid (machineId : Text)
  | pid (parsed : ParsedPublicId)
  | ref (parsed : ParsedReference)
  deriving DecidableEq, Repr

namespace ParsedIdentifier

/-- The `kind` of a parsed identifier. -/
def kind : ParsedIdentifier → IdentifierKind
  | .mid _ => .mid
  | .pid _ => .pid
  | .ref _ => .ref

/-- The `value` of a parsed identifier. -/
def value : ParsedIdentifier → Text
  | .mid machineId => machineId
  | .pid parsed => parsed.value
  | .ref parsed => parsed.value

end ParsedIdentifier

/-- `/^[a-z]{2,8}(?:-|[0-9])/i`. -/
def isReferenceStart (v : Text) : Bool :=
  [2, 3, 4, 5, 6, 7, 8].any fun k =>
    (v.take k).all Char.isAlpha && v[k]?.any fun c => c = '-' || c.isDigit

/-- `detectIdentifierKind`. -/
def detectIdentifierKind (value : Text) : Option IdentifierKind :=
  if '_' ∈ value then some .pid
  else if machinePattern (asciiLower value) then some .mid
  else if isReferenceStart value then some .ref
  else none

/-- `classifyIdentifier`. -/
def classifyIdentifier (value : Text) : Except Thrown IdentifierKind :=
  match detectIdentifierKind value with
  | some kind => .ok kind
  | none => .error (.identifold ⟨.invalidKind,
      "Identifier representation could not be determined"⟩)

section Parse

variable (unicode : CaseMapping) (uuid : UuidLibrary) (typeid : TypeIdLibrary)
  (registry : NamespaceRegistry)

/-- `parseIdentifier`. -/
def parseIdentifier (value : Text) : IdentifierKind → Except Thrown ParsedIdentifier
  | .mid => do
      let machineId ← parseMachineId unicode uuid value
      return .mid machineId
  | .pid => do
      let parsed ← parsePublicId unicode uuid typeid value
      ensure (registry.getByPublicPrefix parsed.namespaceName ≠ none)
        (.identifold ⟨.unknownNamespace, "Unknown public identifier namespace"⟩)
      return .pid parsed
  | .ref => do
      let parsed ← (parseReference value registry).mapError .identifold
      return .ref parsed

/-- `Identifold.parse`. -/
def parse (value : Text) : Except Thrown ParsedIdentifier := do
  let kind ← classifyIdentifier value
  parseIdentifier unicode uuid typeid registry value kind

/-- `Identifold.normalize`. -/
def normalize (value : Text) : Except Thrown Text := do
  let parsed ← parse unicode uuid typeid registry value
  return parsed.value

/-- `Identifold.validate`. -/
def validate (value : Text) : Except Thrown Bool :=
  match parse unicode uuid typeid registry value with
  | .ok _ => .ok true
  | .error (.identifold _) => .ok false
  | .error .foreign => .error .foreign

/-- One of the three parsers reads the text, with this result. -/
def IsReading (value : Text) : ParsedIdentifier → Prop
  | .mid machineId => parseMachineId unicode uuid value = .ok machineId
  | .pid parsed => parsePublicId unicode uuid typeid value = .ok parsed ∧
      registry.getByPublicPrefix parsed.namespaceName ≠ none
  | .ref parsed => parseReference value registry = .ok parsed

end Parse

/-! ## the detector -/

theorem isAlpha_toUpper (c : Char) :
    c.toUpper.isAlpha = c.isAlpha ∧ c.toUpper.isDigit = c.isDigit ∧
      decide (c.toUpper = '-') = decide (c = '-') := by
  cases hl : c.isLower with
  | false => simp [toUpper_of_not_isLower hl]
  | true =>
      exact forall_ascii (P := fun c => c.toUpper.isAlpha = c.isAlpha ∧
        c.toUpper.isDigit = c.isDigit ∧ decide (c.toUpper = '-') = decide (c = '-')) (by decide) c
        (toNat_lt_of_isLower hl)

/-- The detector does not look at the case of its text. -/
theorem isReferenceStart_asciiUpper (v : Text) :
    isReferenceStart (asciiUpper v) = isReferenceStart v := by
  have halpha : (Char.isAlpha ∘ Char.toUpper) = Char.isAlpha :=
    funext fun c => (isAlpha_toUpper c).1
  have hnext : ∀ o : Option Char,
      ((o.map Char.toUpper).any fun c => decide (c = '-') || c.isDigit) =
        o.any fun c => decide (c = '-') || c.isDigit := by
    intro o
    cases o with
    | none => rfl
    | some c =>
        obtain ⟨-, hdigit, hhyphen⟩ := isAlpha_toUpper c
        simp only [Option.map_some, Option.any_some, hdigit, hhyphen]
  simp only [isReferenceStart, asciiUpper, ← List.map_take, List.all_map, List.getElem?_map,
    halpha, hnext]

theorem isReferenceStart_iff {v : Text} :
    isReferenceStart v = true ↔ ∃ k, 2 ≤ k ∧ k ≤ 8 ∧ (∀ c ∈ v.take k, c.isAlpha = true) ∧
      ∃ c, v[k]? = some c ∧ (c = '-' ∨ c.isDigit = true) := by
  have hrange : ∀ k, k ∈ [2, 3, 4, 5, 6, 7, 8] ↔ 2 ≤ k ∧ k ≤ 8 := by
    intro k
    simp only [List.mem_cons, List.not_mem_nil, or_false]
    omega
  simp only [isReferenceStart, List.any_eq_true, hrange, Bool.and_eq_true, List.all_eq_true,
    Option.any_eq_true, Bool.or_eq_true, decide_eq_true_eq, and_assoc]

/-- The symbols a payload is spelled with are letters and digits. -/
theorem isAlpha_or_isDigit_of_isPayloadSymbol (r : RegisteredReferenceDefinition) {c : Char}
    (h : r.IsPayloadSymbol c) : c.isAlpha = true ∨ c.isDigit = true := by
  cases r with
  | random r =>
      rcases h with h | h
      · have hall : ∀ c ∈ dataAlphabet, c.isAlpha = true ∨ c.isDigit = true := by decide
        exact hall c h
      · have hall : ∀ c ∈ ['O', 'I', 'L'], c.isAlpha = true ∨ c.isDigit = true := by decide
        exact hall c h
  | sequence r => exact .inr h

theorem isAlpha_ne_of_isDigit {c : Char} (h : c.isDigit = true) : c.isAlpha = false :=
  forall_ascii (P := fun c => c.isDigit = true → c.isAlpha = false) (by decide) c
    (toNat_lt_of_isDigit h) h

theorem isAlpha_of_mem_refPrefix (r : RegisteredReferenceDefinition) :
    ∀ c ∈ r.refPrefix, c.isAlpha = true := by
  intro c hc
  exact Bool.or_eq_true_iff.mpr (.inl (isUpper_of_mem_refPrefix r.refPrefix_valid c hc))

section Detector

variable (r : RegisteredReferenceDefinition) {raw : Text}

/-- A hyphen after the prefix is found by the detector. -/
theorem isReferenceStart_of_hyphen (body : Text) :
    isReferenceStart (r.refPrefix ++ '-' :: body) = true := by
  obtain ⟨h2, h8⟩ := length_of_isReferencePrefix r.refPrefix_valid
  refine isReferenceStart_iff.mpr ⟨r.refPrefix.length, h2, h8, ?_, '-', by simp, .inl rfl⟩
  rw [List.take_left]
  exact isAlpha_of_mem_refPrefix r

/-- A sequence begins with a digit right after its prefix. -/
theorem getElem?_of_sequence {s : RegisteredSequentialReferenceDefinition}
    (hraw : (sequence s).IsSpelledPayload raw) (check : Text) :
    ∃ d, d.isDigit = true ∧
      ((sequence s).refPrefix ++ (raw ++ check))[(sequence s).refPrefix.length]? = some d := by
  have hpos := payloadLength_pos (sequence s)
  cases raw with
  | nil =>
      have hlen := hraw.1
      simp only [List.length_nil] at hlen
      omega
  | cons d raw => exact ⟨d, hraw.2 d (by simp), by simp⟩

theorem not_forall_isAlpha_of_sequence {s : RegisteredSequentialReferenceDefinition}
    (hraw : (sequence s).IsSpelledPayload raw) (check : Text) {n : Nat}
    (hn : (sequence s).refPrefix.length < n) :
    ¬ ∀ c ∈ ((sequence s).refPrefix ++ (raw ++ check)).take n, c.isAlpha = true := by
  obtain ⟨d, hdigit, hd⟩ := getElem?_of_sequence hraw check
  intro hall
  have hmem : d ∈ ((sequence s).refPrefix ++ (raw ++ check)).take n := by
    apply List.mem_of_getElem? (i := (sequence s).refPrefix.length)
    rwa [List.getElem?_take_of_lt hn]
  have halpha := hall d hmem
  rw [isAlpha_ne_of_isDigit hdigit] at halpha
  contradiction

/-- A random payload reaches beyond the ninth symbol. -/
theorem eight_le_length_of_random {s : RegisteredRandomReferenceDefinition}
    (hraw : (random s).IsSpelledPayload raw) : 8 ≤ raw.length := by
  rw [hraw.1]
  change 8 ≤ s.profile.payloadLength
  cases s.profile <;> decide

/-- **What the detector sees of a hyphenless reference**: a digit within its
first nine symbols. -/
theorem isReferenceStart_hyphenless (hraw : r.IsSpelledPayload raw) :
    isReferenceStart (r.refPrefix ++ r.hyphenlessBody raw) = true ↔
      ¬ ∀ c ∈ (r.refPrefix ++ r.hyphenlessBody raw).take 9, c.isAlpha = true := by
  obtain ⟨h2, h8⟩ := length_of_isReferencePrefix r.refPrefix_valid
  rw [hyphenlessBody, isReferenceStart_iff]
  constructor
  · -- the symbol behind the letters is no letter
    rintro ⟨k, hk2, hk8, _, c, hc, hnext⟩ hall
    have hmem : c ∈ (r.refPrefix ++ (raw ++ r.checkSymbol (r.normalize raw))).take 9 := by
      apply List.mem_of_getElem? (i := k)
      rwa [List.getElem?_take_of_lt (by omega)]
    have halpha := hall c hmem
    cases hnext with
    | inl hhyphen =>
        subst hhyphen
        contradiction
    | inr hdigit =>
        rw [isAlpha_ne_of_isDigit hdigit] at halpha
        contradiction
  · intro hnot
    obtain ⟨k, hlt, hbefore, c, hc, hnotalpha⟩ := exists_first_of_not_forall_take hnot
    -- the first symbol that is no letter lies behind the prefix
    have hpre : r.refPrefix.length ≤ k := by
      by_contra hsmall
      rw [List.getElem?_append_left (by omega)] at hc
      rw [isAlpha_of_mem_refPrefix r c (List.mem_of_getElem? hc)] at hnotalpha
      contradiction
    -- it lies within the payload: a random payload reaches the ninth symbol,
    -- and a sequential one begins with it
    have hpayload : k < r.refPrefix.length + raw.length := by
      cases r with
      | random s =>
          have hs := eight_le_length_of_random hraw
          omega
      | sequence s =>
          by_contra hge
          have hpos := payloadLength_pos (sequence s)
          rw [← hraw.1] at hpos
          exact not_forall_isAlpha_of_sequence hraw _ (by omega) hbefore
    have hmem : c ∈ raw := by
      rw [List.getElem?_append_right hpre, List.getElem?_append_left (by omega)] at hc
      exact List.mem_of_getElem? hc
    refine ⟨k, by omega, by omega, hbefore, c, hc, .inr ?_⟩
    cases isAlpha_or_isDigit_of_isPayloadSymbol r (hraw.2 c hmem) with
    | inl h =>
        rw [h] at hnotalpha
        contradiction
    | inr h => exact h

end Detector

/-! ## readings -/

theorem isAlpha_take_asciiUpper_iff (v : Text) :
    (∀ c ∈ (asciiUpper v).take 9, c.isAlpha = true) ↔ ∀ c ∈ v.take 9, c.isAlpha = true := by
  rw [asciiUpper, ← List.map_take]
  simp only [List.forall_mem_map, (isAlpha_toUpper _).1]

/-- A hyphenless random reference whose first nine symbols are letters. -/
def IsUndetectedReference (registry : NamespaceRegistry) (v : Text) : Prop :=
  ∃ d ∈ registry.definitions, ∃ r, d.reference = some (.random r) ∧ ∃ raw,
    (random r).IsSpelledPayload raw ∧
      asciiUpper v = (random r).refPrefix ++ (random r).hyphenlessBody raw ∧
      ∀ c ∈ v.take 9, c.isAlpha = true

section Readings

variable {unicode : CaseMapping} {uuid : UuidLibrary} {typeid : TypeIdLibrary}
  {registry : NamespaceRegistry} {v : Text}

/-- The detector's branches on a text without underscores. -/
theorem detectIdentifierKind_eq (hscore : '_' ∉ v) :
    detectIdentifierKind v =
      if machinePattern (asciiLower v) then some .mid
      else if isReferenceStart v then some .ref else none := by
  rw [detectIdentifierKind, if_neg hscore]

theorem detectIdentifierKind_of_mid {m : Text} (h : parseMachineId unicode uuid v = .ok m) :
    detectIdentifierKind v = some .mid := by
  obtain ⟨hmachine, rfl⟩ := parseMachineId_ok_iff.mp h
  have hscore : '_' ∉ v := by
    intro hmem
    exact hmachine.facts.2.2.2 (List.mem_map.mpr ⟨'_', hmem, by decide⟩)
  rw [detectIdentifierKind_eq hscore, if_pos (isMachineId_iff.mp hmachine).1]

theorem detectIdentifierKind_of_pid {p : ParsedPublicId}
    (h : parsePublicId unicode uuid typeid v = .ok p) : detectIdentifierKind v = some .pid := by
  obtain ⟨ns, hex, -, -, rfl, -⟩ := parsePublicId_ok_iff.mp h
  rw [detectIdentifierKind, if_pos (by simp [publicIdText])]

/-- Of the accepted references, the detector misses the ones described by
`IsUndetectedReference`. -/
theorem detectIdentifierKind_of_ref {result : ParsedReference}
    (h : parseReference v registry = .ok result) :
    detectIdentifierKind v = if isReferenceStart v then some .ref else none := by
  obtain ⟨d, hd, r, hr, raw, hraw, hwritten, rfl⟩ := parseReference_ok_iff.mp h
  have hscore : '_' ∉ v := by
    intro hmem
    have hupper : '_' ∈ asciiUpper v := List.mem_map.mpr ⟨'_', hmem, by decide⟩
    rcases mem_written r hraw hwritten hupper with hs | hs
    · exact hs.facts.2.2 rfl
    · exact absurd hs (by decide)
  have hpattern : ¬ machinePattern (asciiLower v) = true := by
    intro hp
    obtain ⟨hex, hhex, hv⟩ := machinePattern_iff.mp hp
    have h36 := congrArg List.length hv
    have h34 := (length_written_le r hraw hwritten).1
    rw [length_formatUuid hhex.1, length_asciiLower] at h36
    rw [length_asciiUpper] at h34
    omega
  rw [detectIdentifierKind_eq hscore, if_neg hpattern]

theorem isReferenceStart_iff_not_undetected {result : ParsedReference}
    (h : parseReference v registry = .ok result) :
    isReferenceStart v = true ↔ ¬ IsUndetectedReference registry v := by
  rw [← isReferenceStart_asciiUpper]
  constructor
  · rintro hstart ⟨d, hd, r, hr, raw, hraw, hv, hall⟩
    rw [hv, isReferenceStart_hyphenless (random r) hraw, ← hv, isAlpha_take_asciiUpper_iff] at hstart
    exact hstart hall
  · intro hnot
    obtain ⟨d, hd, r, hr, raw, hraw, hv | hv | hv, rfl⟩ := parseReference_ok_iff.mp h
    · rw [hv, isReferenceStart_hyphenless r hraw]
      intro hall
      cases r with
      | random r =>
          rw [← hv, isAlpha_take_asciiUpper_iff] at hall
          exact hnot ⟨d, hd, r, hr, raw, hraw, hv, hall⟩
      | sequence r =>
          have h8 := (length_of_isReferencePrefix (sequence r).refPrefix_valid).2
          exact not_forall_isAlpha_of_sequence hraw _ (by omega) hall
    · rw [hv]; exact isReferenceStart_of_hyphen r _
    · rw [hv]; exact isReferenceStart_of_hyphen r _

/-- The parser of a kind returns a reading of that kind. -/
theorem parseIdentifier_ok_iff {kind : IdentifierKind} {x : ParsedIdentifier} :
    parseIdentifier unicode uuid typeid registry v kind = .ok x ↔
      IsReading unicode uuid typeid registry v x ∧ kind = x.kind := by
  cases kind <;>
    simp only [parseIdentifier, bind_eq_ok_iff, ensure_eq_ok_iff, mapError_eq_ok_iff,
      pure_eq_ok_iff] <;>
    cases x <;> simp [IsReading, ParsedIdentifier.kind]

/-- The entry point returns a reading of the text, of the kind it detected. -/
theorem parse_ok_iff {x : ParsedIdentifier} :
    parse unicode uuid typeid registry v = .ok x ↔
      IsReading unicode uuid typeid registry v x ∧ detectIdentifierKind v = some x.kind := by
  simp only [parse, classifyIdentifier, bind_eq_ok_iff, parseIdentifier_ok_iff]
  cases hkind : detectIdentifierKind v with
  | none => simp
  | some kind => simp [and_comm]

/-- The readings of a text have the kind that the shape of the text shows. -/
theorem kind_of_isReading {x : ParsedIdentifier} (h : IsReading unicode uuid typeid registry v x) :
    detectIdentifierKind v = some x.kind ∨
      (x.kind = .ref ∧ detectIdentifierKind v = none ∧ IsUndetectedReference registry v) := by
  cases x with
  | mid m => exact .inl (detectIdentifierKind_of_mid h)
  | pid p => exact .inl (detectIdentifierKind_of_pid h.1)
  | ref result =>
      rw [detectIdentifierKind_of_ref h]
      by_cases hstart : isReferenceStart v = true
      · exact .inl (if_pos hstart)
      · refine .inr ⟨rfl, if_neg hstart, ?_⟩
        by_contra hnot
        exact hstart ((isReferenceStart_iff_not_undetected h).mpr hnot)

/-- **Disjointness**: at most one parser reads a text, with one result. -/
theorem IsReading.unique {x y : ParsedIdentifier}
    (hx : IsReading unicode uuid typeid registry v x)
    (hy : IsReading unicode uuid typeid registry v y) : x = y := by
  have hkind : x.kind = y.kind := by
    rcases kind_of_isReading hx with h | ⟨h, hnone, -⟩ <;>
      rcases kind_of_isReading hy with h' | ⟨h', hnone', -⟩
    · exact Option.some.inj (h.symm.trans h')
    · rw [h] at hnone'; contradiction
    · rw [h'] at hnone; contradiction
    · rw [h, h']
  cases x with
  | mid m =>
      cases y with
      | mid m' => rw [Except.ok.inj (Eq.trans hx.symm hy)]
      | pid p => contradiction
      | ref r => contradiction
  | pid p =>
      cases y with
      | mid m => contradiction
      | pid p' => rw [Except.ok.inj (hx.1.symm.trans hy.1)]
      | ref r => contradiction
  | ref r =>
      cases y with
      | mid m => contradiction
      | pid p => contradiction
      | ref r' => rw [Except.ok.inj (Eq.trans hx.symm hy)]

/-- What the parser of a kind throws is an `IdentifoldError`, unless it reads
a public identifier from a foreign TypeID. -/
theorem parseIdentifier_throws {kind : IdentifierKind}
    (h : kind = .pid → ¬ IsForeignTypeId v) :
    ThrowsIdentifold (parseIdentifier unicode uuid typeid registry v kind) := by
  cases kind with
  | mid => exact .bind (parseMachineId_throws _ _ _) fun _ _ => .ok _
  | pid =>
      exact .bind (parsePublicId_throws_iff.mpr (h rfl)) fun _ _ =>
        .bind (.check _ _) fun _ _ => .ok _
  | ref => exact .bind (.mapError _ id) fun _ _ => .ok _

/-- A foreign TypeID is sent to the parser of public identifiers, and the
library's error passes through it. -/
theorem IsForeignTypeId.parseIdentifier_eq (h : IsForeignTypeId v) :
    detectIdentifierKind v = some .pid ∧
      parseIdentifier unicode uuid typeid registry v .pid = .error .foreign := by
  obtain ⟨hscore, hforeign⟩ := (h.facts : _ ∧ parsePublicId unicode uuid typeid v = _)
  exact ⟨if_pos hscore, by simp [parseIdentifier, hforeign, bind, Except.bind]⟩

/-- So it does through the entry point. -/
theorem IsForeignTypeId.parse_eq (h : IsForeignTypeId v) :
    parse unicode uuid typeid registry v = .error .foreign ∧
      normalize unicode uuid typeid registry v = .error .foreign ∧
      validate unicode uuid typeid registry v = .error .foreign := by
  have hparse : parse unicode uuid typeid registry v = .error .foreign := by
    obtain ⟨hkind, hforeign⟩ :=
      (h.parseIdentifier_eq : _ ∧ parseIdentifier unicode uuid typeid registry v .pid = _)
    simp [parse, classifyIdentifier, hkind, hforeign, bind, Except.bind]
  exact ⟨hparse, by simp [normalize, hparse, bind, Except.bind], by simp [validate, hparse]⟩

/-- **What `parse` throws**: an `IdentifoldError`, unless the text is a foreign
TypeID. -/
theorem parse_throws_iff :
    ThrowsIdentifold (parse unicode uuid typeid registry v) ↔ ¬ IsForeignTypeId v := by
  constructor
  · intro h hforeign
    obtain ⟨error, he⟩ := h .foreign hforeign.parse_eq.1
    contradiction
  · intro hnot
    refine .bind ?_ fun kind _ => parseIdentifier_throws fun _ => hnot
    unfold classifyIdentifier
    split
    · exact .ok _
    · exact .error _

/-- A TypeID of variant 3 in the registered namespace `order`. -/
example : parse asciiCaseMapping rfc9562 typeIdV03 sampleRegistry
    "order_01kw000000e00c000000000001".toList = .error .foreign := by
  decide

/-- What the entry point should do with a text: at most one parser reads it,
a reading is returned by `parse`, `normalize` and `validate`, and a text
without a reading is refused with an `IdentifoldError`. -/
def ClassifiesAsUnion (unicode : CaseMapping) (uuid : UuidLibrary) (typeid : TypeIdLibrary)
    (registry : NamespaceRegistry) (v : Text) : Prop :=
  (∀ x y, IsReading unicode uuid typeid registry v x → IsReading unicode uuid typeid registry v y →
    x = y) ∧
  (∀ x, IsReading unicode uuid typeid registry v x →
    parse unicode uuid typeid registry v = .ok x ∧
      normalize unicode uuid typeid registry v = .ok x.value ∧
      validate unicode uuid typeid registry v = .ok true) ∧
  ((∀ x, ¬ IsReading unicode uuid typeid registry v x) →
    ∃ error, parse unicode uuid typeid registry v = .error (.identifold error))

end Readings

/-- **The classifier is the union of the parsers** on exactly the texts that
are neither undetected references nor foreign TypeIDs. -/
theorem parse_classifies_as_union_iff (unicode : CaseMapping) (uuid : UuidLibrary)
    (typeid : TypeIdLibrary) (registry : NamespaceRegistry) (v : Text) :
    ClassifiesAsUnion unicode uuid typeid registry v ↔
      ¬ IsUndetectedReference registry v ∧ ¬ IsForeignTypeId v := by
  constructor
  · rintro ⟨-, hread, hrefused⟩
    refine ⟨fun hmissed => ?_, fun hforeign => ?_⟩
    · obtain ⟨d, hd, r, hr, raw, hraw, hv, -⟩ := id hmissed
      have hparse := parseReference_ok_iff.mpr ⟨d, hd, _, hr, raw, hraw, .inl hv, rfl⟩
      have hkind := (parse_ok_iff.mp (hread (.ref _) hparse).1).2
      rw [detectIdentifierKind_of_ref hparse] at hkind
      split at hkind
      · next hstart => exact (isReferenceStart_iff_not_undetected hparse).mp hstart hmissed
      · contradiction
    · -- with a reading `parse` returns it, without one it throws an `IdentifoldError`
      have hparse : parse unicode uuid typeid registry v = .error .foreign := hforeign.parse_eq.1
      by_cases hsome : ∃ x, IsReading unicode uuid typeid registry v x
      · obtain ⟨x, hx⟩ := hsome
        have hok := (hread x hx).1
        rw [hparse] at hok
        contradiction
      · obtain ⟨error, he⟩ := hrefused fun x hx => hsome ⟨x, hx⟩
        rw [hparse] at he
        simp at he
  · rintro ⟨hdetected, hnative⟩
    refine ⟨fun x y => IsReading.unique, fun x hx => ?_, fun hnone => ?_⟩
    · have hparse : parse unicode uuid typeid registry v = .ok x := by
        rcases kind_of_isReading hx with h | ⟨-, -, h⟩
        · exact parse_ok_iff.mpr ⟨hx, h⟩
        · exact absurd h hdetected
      refine ⟨hparse, ?_, ?_⟩
      · simp [normalize, hparse]
      · simp [validate, hparse]
    · cases hparse : parse unicode uuid typeid registry v with
      | ok x => exact absurd (parse_ok_iff.mp hparse).1 (hnone x)
      | error e =>
          obtain ⟨error, rfl⟩ := parse_throws_iff.mpr hnative e hparse
          exact ⟨error, rfl⟩

/-- `ORDABCDEFGHJKQ` reads as a reference but is refused as `invalid_kind`. -/
theorem parse_misses_hyphenless_reference :
    ¬ ClassifiesAsUnion asciiCaseMapping rfc9562 typeIdV03 sampleRegistry
      "ORDABCDEFGHJKQ".toList := by
  rintro ⟨-, hread, -⟩
  have hparse : parseReference "ORDABCDEFGHJKQ".toList sampleRegistry =
      .ok ((random orderReference).parsed "order".toList "ABCDEFGHJK".toList) := by decide
  have h := (hread (.ref _) hparse).1
  have hrefused : parse asciiCaseMapping rfc9562 typeIdV03 sampleRegistry
      "ORDABCDEFGHJKQ".toList = .error (.identifold ⟨.invalidKind,
        "Identifier representation could not be determined"⟩) := by
    rfl
  rw [hrefused] at h
  contradiction

end Identifold
