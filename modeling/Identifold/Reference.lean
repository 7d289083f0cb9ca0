import Mathlib.Data.List.Infix
import Identifold.Registry

/-!
# Identifold.Reference

Human references as `packages/typescript/src/reference.ts` writes and reads
them: the two formatters (`createReferenceCandidate`,
`formatSequentialReference`) and the parser (`parseReference`) with its
prefix location, hyphenation, alias and checksum tests.

Both parsers slice the hyphen-stripped body into payload and check symbol and
test the hyphenation of the unstripped body against the expected group
lengths; what the parser accepts is characterised in
`Identifold.Reference.Spelling`.
-/

namespace Identifold

open Separated

/-- The `strategy` of a reference. -/
inductive ReferenceStrategy
  | random
  | sequence
  deriving DecidableEq, Repr

/-- `ParsedReference`; `namespaceName` is its `namespace`. -/
structure ParsedReference where
  value : Text
  namespaceName : Text
  payload : Text
  scope : Option Text
  sequence : Option Text
  checkSymbol : Text
  strategy : ReferenceStrategy
  deriving DecidableEq, Repr

/-! ## formatting -/

/-- `formatReference`: the payload in groups of four from the left. -/
def formatReference (refPrefix payload checkSymbol : Text) : Text :=
  refPrefix ++ '-' :: (join '-' (chunks 4 payload) ++ '-' :: checkSymbol)

/-- `formatSequentialParts`. -/
def formatSequentialParts (refPrefix sequence checkSymbol : Text) : Option Text → Text
  | none => refPrefix ++ '-' :: (sequence ++ '-' :: checkSymbol)
  | some scope => refPrefix ++ '-' :: (scope ++ '-' :: (sequence ++ '-' :: checkSymbol))

/-- `requireRandomNamespace`. -/
def requireRandomNamespace (registry : NamespaceRegistry) (namespaceName : Text) :
    Except IdentifoldError RegisteredRandomReferenceDefinition :=
  match registry.getByPublicPrefix namespaceName with
  | none => .error ⟨.unknownNamespace, "Unknown public identifier namespace"⟩
  | some definition =>
      match definition.reference with
      | some (.random reference) => .ok reference
      | _ => .error ⟨.invalidNamespaceDefinition,
          "Namespace does not use random human references"⟩

/-- `requireSequentialNamespace`. -/
def requireSequentialNamespace (registry : NamespaceRegistry) (namespaceName : Text) :
    Except IdentifoldError RegisteredSequentialReferenceDefinition :=
  match registry.getByPublicPrefix namespaceName with
  | none => .error ⟨.unknownNamespace, "Unknown public identifier namespace"⟩
  | some definition =>
      match definition.reference with
      | some (.sequence reference) => .ok reference
      | _ => .error ⟨.invalidNamespaceDefinition,
          "Namespace does not use sequential human references"⟩

/-- `createReferenceCandidate`; `randomBytes` is the byte source. -/
def createReferenceCandidate (registry : NamespaceRegistry) (namespaceName : Text)
    (randomBytes : Nat → List UInt8) : Except IdentifoldError Text := do
  let reference ← requireRandomNamespace registry namespaceName
  let bytes := randomBytes reference.payloadLength
  ensure (bytes.length = reference.payloadLength)
    ⟨.invalidRandomSource, "Random byte source returned an invalid byte array"⟩
  let payload := bytes.flatMap fun byte => charAt dataAlphabet (byte &&& 31).toNat
  let checkSymbol ← calculateReferenceCheckSymbol payload
  return formatReference reference.refPrefix payload checkSymbol

/-- `^\d{4}$`. -/
def isFourDigits (v : Text) : Bool := v.length = 4 && v.all Char.isDigit

/-- The payload a sequence is checked under: the year, where the policy has
one, followed by the padded digits. -/
def sequentialPayload (reference : RegisteredSequentialReferenceDefinition)
    (paddedSequence : Text) (scope : Option Text) : Except IdentifoldError Text :=
  match reference.scope, scope with
  | .calendarYear, some year =>
      if isFourDigits year then .ok (year ++ paddedSequence)
      else .error ⟨.invalidRef,
        "Calendar-year sequential references require a four-digit scope"⟩
  | .calendarYear, none =>
      .error ⟨.invalidRef, "Calendar-year sequential references require a four-digit scope"⟩
  | .none, some _ =>
      .error ⟨.invalidRef, "Unscoped sequential references do not accept a scope"⟩
  | .none, none => .ok paddedSequence

/-- `formatSequentialReference`. -/
def formatSequentialReference (registry : NamespaceRegistry) (namespaceName : Text)
    (sequence : Int) (scope : Option Text) : Except IdentifoldError Text := do
  let reference ← requireSequentialNamespace registry namespaceName
  ensure (0 ≤ sequence)
    ⟨.invalidRef, "Sequential reference values must be non-negative integers"⟩
  let sequenceDigits := Nat.toDigits 10 sequence.toNat
  ensure (sequenceDigits.length ≤ reference.width)
    ⟨.sequenceOverflow, "Sequential reference value exceeds the configured width"⟩
  let paddedSequence := padStart reference.width sequenceDigits
  let payload ← sequentialPayload reference paddedSequence scope
  let checkSymbol ← calculateSequentialCheckSymbol payload
  return formatSequentialParts reference.refPrefix paddedSequence checkSymbol scope

/-! ## parsing -/

/-- `[A-Za-z0-9*~$=_-]`. -/
def isReferenceCharacter (c : Char) : Bool := isAlphanumeric c || c ∈ "*~$=_-".toList

/-- `locateNamespace`: the text before the first hyphen is looked up as a
prefix; without a hyphen the definitions are scanned for one that begins the
text. -/
def locateNamespace (value : Text) (registry : NamespaceRegistry) :
    Except IdentifoldError (Text × RegisteredNamespaceDefinition) :=
  if '-' ∈ value then
    match registry.getByReferencePrefix (value.takeWhile (· ≠ '-')) with
    | some definition => .ok ((value.dropWhile (· ≠ '-')).drop 1, definition)
    | none => .error ⟨.unknownNamespace, "Unknown human reference namespace"⟩
  else
    match registry.definitions.find? fun d => d.refPrefix?.any (·.isPrefixOf value) with
    | some definition =>
        .ok (value.drop (definition.refPrefix?.getD []).length, definition)
    | none => .error ⟨.unknownNamespace, "Unknown human reference namespace"⟩

/-- The test shared by both hyphenation checks: a body without a hyphen
passes, otherwise its groups must have the expected lengths. -/
def validateGroupLengths (expectedGroupLengths : List Nat) (message : String) (body : Text) :
    Except IdentifoldError Unit :=
  ensure ('-' ∉ body ∨ (body.splitOn '-').map List.length = expectedGroupLengths)
    ⟨.invalidRef, message⟩

/-- `validateHyphenation`: groups of four from the left, then the check. -/
def validateHyphenation (body : Text) (payloadLength : Nat) : Except IdentifoldError Unit :=
  validateGroupLengths (chunkLengths 4 payloadLength ++ [1])
    "Human reference hyphenation is not canonical" body

/-- `validateSequentialHyphenation`. -/
def validateSequentialHyphenation (body : Text) (sequenceWidth : Nat) (hasScope : Bool) :
    Except IdentifoldError Unit :=
  validateGroupLengths (if hasScope then [4, sequenceWidth, 1] else [sequenceWidth, 1])
    "Sequential reference hyphenation is not canonical" body

/-- The Crockford aliases of one payload symbol. -/
def normalizeSymbol (c : Char) : Char :=
  if c = 'O' then '0' else if c = 'I' ∨ c = 'L' then '1' else c

/-- `normalizePayload`. -/
def normalizePayload (payload : Text) : Except IdentifoldError Text := do
  ensure (∀ c ∈ payload, normalizeSymbol c ∈ dataAlphabet)
    ⟨.invalidRefSymbol, "Human reference payload contains an invalid symbol"⟩
  return payload.map normalizeSymbol

/-- The random branch of `parseReference`, from the located body on. -/
def parseRandomReference (bodyWithHyphens publicPrefix : Text)
    (reference : RegisteredRandomReferenceDefinition) : Except IdentifoldError ParsedReference := do
  let body := strip '-' bodyWithHyphens
  ensure (body.length = reference.payloadLength + 1)
    ⟨.invalidRefLength, "Human reference payload has the wrong length"⟩
  validateHyphenation bodyWithHyphens reference.payloadLength
  let checkSymbol := body.drop (body.length - 1)
  let payload ← normalizePayload body.dropLast
  ensure (checkSymbol <:+: checkAlphabet)
    ⟨.invalidRefSymbol, "Human reference check symbol is invalid"⟩
  let expected ← calculateReferenceCheckSymbol payload
  ensure (expected = checkSymbol)
    ⟨.invalidChecksum, "Human reference check symbol does not match its payload"⟩
  return {
    value := formatReference reference.refPrefix payload checkSymbol
    namespaceName := publicPrefix
    payload := payload
    scope := none
    sequence := none
    checkSymbol := checkSymbol
    strategy := .random }

/-- Whether the policy puts a year before the sequence. -/
def RegisteredSequentialReferenceDefinition.hasScope
    (reference : RegisteredSequentialReferenceDefinition) : Bool :=
  reference.scope == .calendarYear

theorem hasScope_iff {reference : RegisteredSequentialReferenceDefinition} :
    reference.hasScope = true ↔ reference.scope = .calendarYear := by
  simp [RegisteredSequentialReferenceDefinition.hasScope]

/-- `parseSequentialReference`. -/
def parseSequentialReference (bodyWithHyphens publicPrefix : Text)
    (reference : RegisteredSequentialReferenceDefinition) :
    Except IdentifoldError ParsedReference := do
  let payloadLength := reference.width + if reference.hasScope then 4 else 0
  let body := strip '-' bodyWithHyphens
  ensure (body.length = payloadLength + 1)
    ⟨.invalidRefLength, "Sequential reference payload has the wrong length"⟩
  validateSequentialHyphenation bodyWithHyphens reference.width reference.hasScope
  let payload := body.dropLast
  let checkSymbol := body.drop (body.length - 1)
  ensure ((payload ≠ [] ∧ ∀ c ∈ payload, c.isDigit = true) ∧ checkSymbol <:+: checkAlphabet)
    ⟨.invalidRefSymbol, "Sequential reference contains an invalid symbol"⟩
  let expected ← calculateSequentialCheckSymbol payload
  ensure (expected = checkSymbol)
    ⟨.invalidChecksum, "Sequential reference check symbol does not match its payload"⟩
  let scope := if reference.hasScope then some (payload.take 4) else none
  let sequence := if reference.hasScope then payload.drop 4 else payload
  return {
    value := formatSequentialParts reference.refPrefix sequence checkSymbol scope
    namespaceName := publicPrefix
    payload := payload
    scope := scope
    sequence := some sequence
    checkSymbol := checkSymbol
    strategy := .sequence }

/-- `parseReference`.  The pattern has left ASCII text only, so `toUpperCase`
is the ASCII map. -/
def parseReference (value : Text) (registry : NamespaceRegistry) :
    Except IdentifoldError ParsedReference := do
  ensure (value.length ≠ 0 ∧ utf16Length value ≤ 100 ∧ ∀ c ∈ value, isReferenceCharacter c = true)
    ⟨.invalidRef, "Invalid human reference"⟩
  let (body, definition) ← locateNamespace (asciiUpper value) registry
  match definition.reference with
  | some (.sequence reference) => parseSequentialReference body definition.publicPrefix reference
  | some (.random reference) => parseRandomReference body definition.publicPrefix reference
  | none =>
      throw ⟨.invalidNamespaceDefinition, "Namespace does not define a human reference"⟩

end Identifold
