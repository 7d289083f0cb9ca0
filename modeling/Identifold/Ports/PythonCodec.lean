import Identifold.Ports.ErrorCodes
import Identifold.Service.Classifier

/-!
# Identifold.Ports.PythonCodec

The parsers of the Python port, `packages/python/src/identifold/__init__.py`,
behind its entry point `Identifold.parse`: `parse_public_id` and
`parse_reference` (`parse_machine_id` is in `Identifold.Ports.ErrorCodes`).
Of an `IdentifoldError` the code is kept.

The port repeats the tests of the TypeScript parser in their order, so
`parse_reference` returns what `parseReference` returns, and refuses with the
same codes (`parseReference_eq`).
-/

namespace Identifold.Python

open Separated

/-- The `typeid` package, as the port calls it: `from_string` with the prefix
and the printed UUID of what it returns; `none` is a `TypeIDException`. -/
structure TypeIdPackage where
  fromString : Text → Option (Text × Text)
  fromString_eq_some_iff : ∀ v p m, fromString v = some (p, m) ↔
    ∃ s, IsTypeId p s v ∧ m = formatUuid (hexOfSuffix s)

/-- A package that reads the grammar. -/
def plainTypeId : TypeIdPackage where
  fromString v :=
    if IsTypeId (splitTypeId v).1 (splitTypeId v).2 v then
      some ((splitTypeId v).1, formatUuid (hexOfSuffix (splitTypeId v).2))
    else none
  fromString_eq_some_iff v p m := by
    constructor
    · intro h
      split at h
      · next htype =>
          obtain ⟨hp, hm⟩ := Prod.mk.inj (Option.some.inj h)
          exact ⟨_, hp ▸ htype, hm.symm⟩
      · contradiction
    · rintro ⟨s, htype, hm⟩
      have hsplit := splitTypeId_eq htype
      rw [hsplit, if_pos htype, hm]

/-- `parse_public_id`, without an expected namespace. -/
def parsePublicId (runtime : Runtime) (typeid : TypeIdPackage) (value : Text) :
    Except IdentifoldErrorCode ParsedPublicId := do
  ensure (value = runtime.unicode.toLower value) .invalidPid
  match typeid.fromString value with
  | none => throw .invalidPid
  | some (namespaceName, uuid) =>
      ensure (namespaceName ≠ []) .invalidPublicPrefix
      let machineId ← parseMachineId runtime uuid
      return { value := value, namespaceName := namespaceName, machineId := machineId }

/-! ## references -/

/-- `calculate_reference_check_symbol`. -/
def calculateReferenceCheckSymbol (payload : Text) : Except IdentifoldErrorCode Text :=
  if payload = [] then throw .invalidRefLength
  else do
    let remainder ← checkRemainder 32 (· ∈ dataAlphabet) dataAlphabet.idxOf
      IdentifoldErrorCode.invalidRefSymbol 0 payload
    return charAt checkAlphabet remainder

/-- `calculate_sequential_check_symbol`. -/
def calculateSequentialCheckSymbol (payload : Text) : Except IdentifoldErrorCode Text :=
  if payload = [] then throw .invalidRefLength
  else do
    let remainder ← checkRemainder 10 Char.isDigit decimalValue
      IdentifoldErrorCode.invalidRefSymbol 0 payload
    return charAt checkAlphabet remainder

/-- `_locate_reference`. -/
def locateReference (value : Text) (registry : NamespaceRegistry) :
    Except IdentifoldErrorCode (RegisteredNamespaceDefinition × Text) :=
  if '-' ∈ value then
    match registry.getByReferencePrefix (value.takeWhile (· ≠ '-')) with
    | some definition => .ok (definition, (value.dropWhile (· ≠ '-')).drop 1)
    | none => throw .unknownNamespace
  else
    match registry.definitions.find? fun d => d.refPrefix?.any (·.isPrefixOf value) with
    | some definition => .ok (definition, value.drop (definition.refPrefix?.getD []).length)
    | none => throw .unknownNamespace

/-- `_normalize_payload`. -/
def normalizePayload (payload : Text) : Except IdentifoldErrorCode Text := do
  ensure (∀ c ∈ payload, normalizeSymbol c ∈ dataAlphabet) .invalidRefSymbol
  return payload.map normalizeSymbol

/-- `_validate_random_hyphenation`, and the test that `_parse_sequence` makes. -/
def validateHyphenation (body : Text) (expected : List Nat) : Except IdentifoldErrorCode Unit :=
  ensure ('-' ∉ body ∨ (body.splitOn '-').map List.length = expected) .invalidRef

/-- `parse_reference`, from the located body of a random reference on. -/
def parseRandom (body publicPrefix : Text) (reference : RegisteredRandomReferenceDefinition) :
    Except IdentifoldErrorCode ParsedReference := do
  let compact := strip '-' body
  ensure (compact.length = reference.payloadLength + 1) .invalidRefLength
  validateHyphenation body (chunkLengths 4 reference.payloadLength ++ [1])
  let check := compact.drop (compact.length - 1)
  let payload ← normalizePayload compact.dropLast
  ensure (check <:+: checkAlphabet) .invalidRefSymbol
  let expected ← calculateReferenceCheckSymbol payload
  ensure (expected = check) .invalidChecksum
  return {
    value := formatReference reference.refPrefix payload check
    namespaceName := publicPrefix
    payload := payload
    scope := none
    sequence := none
    checkSymbol := check
    strategy := .random }

/-- `_parse_sequence`. -/
def parseSequence (body publicPrefix : Text) (reference : RegisteredSequentialReferenceDefinition) :
    Except IdentifoldErrorCode ParsedReference := do
  let hasScope := reference.hasScope
  let payloadLength := reference.width + if hasScope then 4 else 0
  let compact := strip '-' body
  ensure (compact.length = payloadLength + 1) .invalidRefLength
  validateHyphenation body (if hasScope then [4, reference.width, 1] else [reference.width, 1])
  let payload := compact.dropLast
  let check := compact.drop (compact.length - 1)
  ensure ((payload ≠ [] ∧ ∀ c ∈ payload, c.isDigit = true) ∧ check <:+: checkAlphabet)
    .invalidRefSymbol
  let expected ← calculateSequentialCheckSymbol payload
  ensure (expected = check) .invalidChecksum
  let scope := if hasScope then some (payload.take 4) else none
  let sequence := if hasScope then payload.drop 4 else payload
  return {
    -- an empty scope is false, too
    value := formatSequentialParts reference.refPrefix sequence check (scope.filter (· ≠ []))
    namespaceName := publicPrefix
    payload := payload
    scope := scope
    sequence := some sequence
    checkSymbol := check
    strategy := .sequence }

/-- `parse_reference`.  `len` counts code points.  Located definitions have a
reference. -/
def parseReference (value : Text) (registry : NamespaceRegistry) :
    Except IdentifoldErrorCode ParsedReference := do
  ensure (value ≠ [] ∧ value.length ≤ 100 ∧ ∀ c ∈ value, isReferenceCharacter c = true) .invalidRef
  let (definition, body) ← locateReference (asciiUpper value) registry
  match definition.reference with
  | some (.sequence reference) => parseSequence body definition.publicPrefix reference
  | some (.random reference) => parseRandom body definition.publicPrefix reference
  | none => throw .invalidNamespaceDefinition

/-! ## the entry point -/

/-- `_detect`: the three tests of `detectIdentifierKind`, in its order. -/
def detect (value : Text) : Option IdentifierKind := detectIdentifierKind value

/-- `_classify`. -/
def classify (value : Text) : Except IdentifoldErrorCode IdentifierKind :=
  match detect value with
  | some kind => .ok kind
  | none => throw .invalidKind

/-- `Identifold.parse`. -/
def parse (runtime : Runtime) (typeid : TypeIdPackage) (registry : NamespaceRegistry)
    (value : Text) : Except IdentifoldErrorCode ParsedIdentifier := do
  match ← classify value with
  | .mid =>
      let machineId ← parseMachineId runtime value
      return .mid machineId
  | .pid =>
      let parsed ← parsePublicId runtime typeid value
      ensure (registry.getByPublicPrefix parsed.namespaceName ≠ none) .unknownNamespace
      return .pid parsed
  | .ref =>
      let parsed ← parseReference value registry
      return .ref parsed

/-! ## agreement with the TypeScript parser -/

theorem calculateReferenceCheckSymbol_eq (payload : Text) :
    calculateReferenceCheckSymbol payload =
      (Identifold.calculateReferenceCheckSymbol payload).mapError IdentifoldError.code := by
  rw [calculateReferenceCheckSymbol, Identifold.calculateReferenceCheckSymbol]
  simp only [List.length_eq_zero_iff]
  split
  · rfl
  · rw [bind_mapError, checkRemainder_mapError]
    rfl

theorem calculateSequentialCheckSymbol_eq (payload : Text) :
    calculateSequentialCheckSymbol payload =
      (Identifold.calculateSequentialCheckSymbol payload).mapError IdentifoldError.code := by
  rw [calculateSequentialCheckSymbol, Identifold.calculateSequentialCheckSymbol]
  simp only [List.length_eq_zero_iff]
  split
  · rfl
  · rw [bind_mapError, checkRemainder_mapError]
    rfl

/-- Both location steps find the same, in another order of the parts. -/
theorem locateReference_eq (value : Text) (registry : NamespaceRegistry) :
    locateReference value registry =
      ((locateNamespace value registry).mapError IdentifoldError.code).map Prod.swap := by
  unfold locateReference locateNamespace
  split
  · cases registry.getByReferencePrefix (value.takeWhile (· ≠ '-')) <;> rfl
  · cases registry.definitions.find? fun d => d.refPrefix?.any (·.isPrefixOf value) <;> rfl

theorem parseRandom_eq (body publicPrefix : Text) (reference : RegisteredRandomReferenceDefinition) :
    parseRandom body publicPrefix reference =
      (parseRandomReference body publicPrefix reference).mapError IdentifoldError.code := by
  simp only [parseRandom, parseRandomReference, validateHyphenation, Identifold.validateHyphenation,
    validateGroupLengths, normalizePayload, Identifold.normalizePayload, bind_mapError,
    ensure_mapError, pure_mapError, calculateReferenceCheckSymbol_eq]

theorem parseSequence_eq (body publicPrefix : Text)
    (reference : RegisteredSequentialReferenceDefinition) :
    parseSequence body publicPrefix reference =
      (parseSequentialReference body publicPrefix reference).mapError IdentifoldError.code := by
  simp only [parseSequence, parseSequentialReference, validateHyphenation,
    validateSequentialHyphenation, validateGroupLengths, bind_mapError,
    ensure_mapError, pure_mapError, calculateSequentialCheckSymbol_eq]
  refine ensure_bind_congr fun _ => ensure_bind_congr fun _ => ensure_bind_congr fun hpayload => ?_
  -- the year of a payload with symbols is not empty
  have hyear : (strip '-' body).dropLast.take 4 ≠ [] := by
    simpa using hpayload.1.1
  have hscope : (if reference.hasScope then some ((strip '-' body).dropLast.take 4)
      else none).filter (· ≠ []) =
      if reference.hasScope then some ((strip '-' body).dropLast.take 4) else none := by
    split
    · rw [Option.filter_some, if_pos (decide_eq_true hyear)]
    · rfl
  simp only [hscope]

theorem toNat_lt_of_isReferenceCharacter {c : Char} (h : isReferenceCharacter c = true) :
    c.toNat < 128 := by
  simp only [isReferenceCharacter, isAlphanumeric, Bool.or_eq_true, decide_eq_true_eq] at h
  rcases h with ((h | h) | h) | h
  · exact toNat_lt_of_isUpper h
  · exact toNat_lt_of_isLower h
  · exact toNat_lt_of_isDigit h
  · have hall : ∀ c ∈ "*~$=_-".toList, c.toNat < 128 := by decide
    exact hall c h

/-- **Both parsers** return the same results and refuse with the same codes. -/
theorem parseReference_eq (value : Text) (registry : NamespaceRegistry) :
    parseReference value registry =
      (Identifold.parseReference value registry).mapError IdentifoldError.code := by
  have htext : (value ≠ [] ∧ value.length ≤ 100 ∧ ∀ c ∈ value, isReferenceCharacter c = true) ↔
      value.length ≠ 0 ∧ utf16Length value ≤ 100 ∧ ∀ c ∈ value, isReferenceCharacter c = true := by
    have hascii : (∀ c ∈ value, isReferenceCharacter c = true) → IsAscii value := fun h c hc =>
      toNat_lt_of_isReferenceCharacter (h c hc)
    rw [Ne, Ne, List.length_eq_zero_iff, and_congr_right_iff]
    refine fun _ => and_congr_left fun hsymbols => ?_
    rw [utf16Length_of_isAscii (hascii hsymbols)]
  rw [parseReference, Identifold.parseReference, bind_mapError, ensure_mapError, ensure_congr htext]
  congr 1
  funext _
  rw [locateReference_eq, bind_mapError]
  cases (locateNamespace (asciiUpper value) registry).mapError IdentifoldError.code with
  | error code => rfl
  | ok located =>
      obtain ⟨body, definition⟩ := located
      change (match definition.reference with
        | some (.sequence reference) => parseSequence body definition.publicPrefix reference
        | some (.random reference) => parseRandom body definition.publicPrefix reference
        | none => .error .invalidNamespaceDefinition : Except IdentifoldErrorCode ParsedReference) = _
      cases hreference : definition.reference with
      | none => simp only [ok_bind, hreference]; rfl
      | some reference =>
          cases reference with
          | random reference =>
              simp only [ok_bind, hreference]
              exact parseRandom_eq body definition.publicPrefix reference
          | sequence reference =>
              simp only [ok_bind, hreference]
              exact parseSequence_eq body definition.publicPrefix reference

end Identifold.Python
