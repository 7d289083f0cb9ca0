import Identifold.Ports.GoCodec
import Identifold.Ports.RustCodec
import Identifold.Reference.Spelling

/-!
# Identifold.Ports.Normalize

`normalize` of the Rust port and `Normalize` of the Go port.

Both ports drop every hyphen of the upper-cased text and slice what is left
(`normalizeCompact`, which is parametrised by what the ports do differently:
their error values, their cut inside a symbol, and their sequential
formatter).  They take their definitions from the same JSON as the TypeScript
package; `Describes` relates the two readings of a definition.
-/

namespace Identifold

open Separated RegisteredReferenceDefinition

/-! ## definitions, as the ports read them -/

/-- `ReferenceDefinition` of the ports; fields absent from the JSON have the
zero value. -/
structure PortReferenceDefinition where
  refPrefix : Text
  profile : String
  strategy : String
  scope : String
  width : Nat
  deriving DecidableEq, Repr

/-- `NamespaceDefinition` of the ports. -/
structure PortNamespaceDefinition where
  publicPrefix : Text
  reference : Option PortReferenceDefinition
  deriving DecidableEq, Repr

/-- The JSON text of a profile. -/
def RandomReferenceProfile.json : RandomReferenceProfile → String
  | .compact => "compact"
  | .high => "high"
  | .standard => "standard"

/-- The JSON text of a scope. -/
def SequenceScope.json : SequenceScope → String
  | .calendarYear => "calendar-year"
  | .none => "none"

/-- A reference definition read by a port. -/
def ReferenceDefinition.toPort : ReferenceDefinition → PortReferenceDefinition
  | .random refPrefix profile =>
      ⟨refPrefix, (profile.map RandomReferenceProfile.json).getD "", "random", "", 0⟩
  | .sequence refPrefix scope width =>
      ⟨refPrefix, "", "sequence", (scope.map SequenceScope.json).getD "",
        match width with
        | .integer n => n.toNat
        | .other => 0⟩

/-- A namespace definition read by a port. -/
def NamespaceDefinition.toPort (definition : NamespaceDefinition) : PortNamespaceDefinition :=
  ⟨definition.publicPrefix, definition.reference.map ReferenceDefinition.toPort⟩

/-- `profile_length`/`profileLength`. -/
def profileLength (profile : String) : Nat :=
  if profile = "compact" then 8 else if profile = "high" then 12 else 10

/-! ## shared code -/

/-- `namespace`/`findNamespace`. -/
def findNamespace (registry : List PortNamespaceDefinition) (name : Text) :
    Option PortNamespaceDefinition :=
  registry.find? (·.publicPrefix = name)

/-- The decimal digits, in order. -/
def decimalAlphabet : Text := "0123456789".toList

/-- `check_symbol`/`CheckSymbol`: nothing where the payload has a symbol
outside the alphabet. -/
def checkSymbolOf (payload : Text) (sequential : Bool) : Option Char :=
  let alphabet := if sequential then decimalAlphabet else dataAlphabet
  match checkRemainder (if sequential then 10 else 32) (· ∈ alphabet) alphabet.idxOf () 0 payload with
  | .ok remainder => checkAlphabet[remainder]?
  | .error () => none

section Shared

variable {ε : Type} (error : IdentifoldErrorCode → ε) (cut missing : ε)

/-- The check symbol a formatter writes: for a payload that has none, Rust
refuses to, and Go writes the empty text. -/
def writtenCheckSymbol (digitsOnly : Bool) (payload : Text) : Except ε Text :=
  match checkSymbolOf payload true with
  | some check => .ok [check]
  | none => if digitsOnly = true then .error (error .invalidRefSymbol) else .ok []

/-- A sequence with zeros before it, up to a width in bytes. -/
def padBytes (width : Nat) (sequence : Text) : Text :=
  List.replicate (width - utf8Length sequence) '0' ++ sequence

/-- The sequential formatter of both ports, which count bytes.  Rust also tests
that the sequence consists of digits. -/
def formatSequential (digitsOnly : Bool) (registry : List PortNamespaceDefinition)
    (name sequence scope : Text) : Except ε Text :=
  match findNamespace registry name with
  | some { reference := some reference, .. } =>
      if reference.strategy = "sequence" then do
        ensure (utf8Length sequence ≤ reference.width ∧
          (digitsOnly = true → ∀ c ∈ sequence, c.isDigit = true)) (error .sequenceOverflow)
        let sequence := padBytes reference.width sequence
        let check ← writtenCheckSymbol error digitsOnly (scope ++ sequence)
        if scope = [] then return join '-' [reference.refPrefix, sequence, check]
        else return join '-' [reference.refPrefix, scope, sequence, check]
      else throw (error .unknownNamespace)
  | _ => throw (error .unknownNamespace)

/-- The body of a sequential reference. -/
def normalizeSequence (digitsOnly : Bool) (registry : List PortNamespaceDefinition) (name : Text)
    (reference : PortReferenceDefinition) (body : Text) : Except ε Text := do
  let scopeLength := if reference.scope = "calendar-year" then 4 else 0
  ensure (utf8Length body = scopeLength + reference.width + 1) (error .invalidRefLength)
  match splitAtByte (utf8Length body - 1) body with
  | none => throw cut
  | some (payload, supplied) =>
      match checkSymbolOf payload true with
      | none => throw (error .invalidRefSymbol)
      | some expected =>
          ensure (supplied = [expected]) (error .invalidChecksum)
          formatSequential error digitsOnly registry name (payload.drop scopeLength)
            (payload.take scopeLength)

/-- The body of a random reference. -/
def normalizeRandom (reference : PortReferenceDefinition) (body : Text) : Except ε Text := do
  let length := profileLength reference.profile
  ensure (utf8Length body = length + 1) (error .invalidRefLength)
  match splitAtByte length body with
  | none => throw cut
  | some (payload, supplied) =>
      let normalized := payload.map normalizeSymbol
      match checkSymbolOf normalized false with
      | none => throw (error .invalidRefSymbol)
      | some expected =>
          ensure (supplied = [expected]) (error .invalidChecksum)
          return join '-' [reference.refPrefix, join '-' (chunks 4 normalized), supplied]

/-- The reference branch of `normalize`, from the compact text on: `missing`
is thrown where no definition's prefix begins it. -/
def normalizeCompact (digitsOnly : Bool) (registry : List PortNamespaceDefinition) (compact : Text) :
    Except ε Text :=
  match registry.find? fun item => item.reference.any (·.refPrefix.isPrefixOf compact) with
  | some { publicPrefix := name, reference := some reference } => do
      let body := compact.drop reference.refPrefix.length
      ensure ('?' ∉ body ∧ '_' ∉ body) (error .invalidRef)
      if reference.strategy = "sequence" then
        normalizeSequence error cut digitsOnly registry name reference body
      else normalizeRandom error cut reference body
  | _ => throw missing

end Shared

/-! ## the ports -/

namespace Rust

/-- `format_sequential_reference`. -/
def formatSequentialReference (registry : List PortNamespaceDefinition)
    (name sequence scope : Text) : Except Failure Text :=
  formatSequential .error true registry name sequence scope

/-- `normalize`.  A body cut inside a symbol makes `split_at` panic. -/
def normalize (value : Text) (registry : List PortNamespaceDefinition) : Except Failure Text :=
  if '_' ∈ value then do
    let parsed ← parsePublicId value
    ensure (findNamespace registry parsed.namespaceName ≠ none) (.error .unknownNamespace)
    return parsed.value
  else if utf8Length value = 36 then parseMachineId value
  else
    normalizeCompact .error .panicked
      (.error (if 2 ≤ (value.takeWhile Char.isAlpha).length then .unknownNamespace
        else .invalidKind)) true registry (strip '-' (asciiUpper value))

end Rust

namespace Go

/-- `FormatSequentialReference`. -/
def formatSequentialReference (registry : List PortNamespaceDefinition)
    (name sequence scope : Text) : Except Failure Text :=
  formatSequential .error false registry name sequence scope

/-- `Normalize`.  A body cut inside a symbol leaves bytes in the payload that
are no symbol of the alphabet. -/
def normalize (unicode : CaseMapping) (value : Text) (registry : List PortNamespaceDefinition) :
    Except Failure Text :=
  if '_' ∈ value then do
    let parsed ← parsePublicId unicode value
    ensure (findNamespace registry parsed.namespaceName ≠ none) (.error .unknownNamespace)
    return parsed.value
  else if machinePattern (unicode.toLower value) then parseMachineId unicode value
  else
    normalizeCompact .error (.error .invalidRefSymbol)
      (.error (if 2 ≤ (value.takeWhile Char.isAlpha).length then .unknownNamespace
        else .invalidKind)) false registry (strip '-' (unicode.toUpper value))

end Go

/-! ## the two readings of a definition -/

/-- A port's reference definition and the registered one agree. -/
def DescribesReference (p : PortReferenceDefinition) (r : RegisteredReferenceDefinition) : Prop :=
  p.refPrefix = r.refPrefix ∧
    match r with
    | .random r => p.strategy ≠ "sequence" ∧ profileLength p.profile = r.payloadLength
    | .sequence r => p.strategy = "sequence" ∧ p.width = r.width ∧
        (p.scope = "calendar-year" ↔ r.hasScope = true)

/-- A port's definition and the registered one agree. -/
def Describes (item : PortNamespaceDefinition) (d : RegisteredNamespaceDefinition) : Prop :=
  item.publicPrefix = d.publicPrefix ∧
    match d.reference with
    | none => item.reference = none
    | some r => ∃ p, item.reference = some p ∧ DescribesReference p r

theorem describes_toPort {definition : NamespaceDefinition} {d : RegisteredNamespaceDefinition}
    (h : Registers definition d) : Describes definition.toPort d := by
  obtain ⟨hp, href⟩ := h
  refine ⟨hp.symm, ?_⟩
  cases hdef : definition.reference with
  | none =>
      simp only [hdef] at href
      simp [href, NamespaceDefinition.toPort, hdef]
  | some reference =>
      simp only [hdef] at href
      obtain ⟨r, hr, hreg⟩ := href
      simp only [hr, NamespaceDefinition.toPort, hdef, Option.map_some, Option.some.injEq,
        exists_eq_left']
      cases reference with
      | random refPrefix profile =>
          simp only [registerReference] at hreg
          split at hreg
          · rw [← Except.ok.inj hreg]
            refine ⟨rfl, by simp [ReferenceDefinition.toPort], ?_⟩
            cases profile with
            | none => rfl
            | some profile => cases profile <;> rfl
          · contradiction
      | sequence refPrefix scope width =>
          simp only [registerReference] at hreg
          split at hreg
          · split at hreg
            · split at hreg
              · rw [← Except.ok.inj hreg]
                refine ⟨rfl, rfl, rfl, ?_⟩
                cases scope with
                | none => simp [ReferenceDefinition.toPort, hasScope_iff]
                | some scope =>
                    cases scope <;>
                      simp [ReferenceDefinition.toPort, SequenceScope.json, hasScope_iff]
              · contradiction
            · contradiction
          · contradiction

/-- The ports' definitions describe the registry created from the same
definitions. -/
theorem describes_of_create {definitions : List NamespaceDefinition} {registry : NamespaceRegistry}
    (h : createNamespaceRegistry definitions = .ok registry) :
    List.Forall₂ Describes (definitions.map NamespaceDefinition.toPort) registry.definitions := by
  have hregisters := createNamespaceRegistry_registers h
  rw [List.forall₂_map_left_iff]
  exact hregisters.imp fun _ _ hd => describes_toPort hd

end Identifold
