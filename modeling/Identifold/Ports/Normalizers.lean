import Identifold.Ports.CSharpCodec
import Identifold.Ports.Normalize
import Identifold.Ports.PhpCodec
import Identifold.Ports.SwiftCodec

/-!
# Identifold.Ports.Normalizers

`normalize` of the PHP, the Ruby, the Java, the Kotlin, the C# and the Swift port.

All of them drop the hyphens of the upper-cased text and slice what is left.  They
count a text in units of their own (bytes, symbols, UTF-16 units, characters) and ask
their standard library for case, prefixes and digits.  The first five are one
definition in a `PortCodec`; the Swift port works on characters throughout.
-/

namespace Identifold

open Separated

/-! ## shared code -/

/-- What a port does in its own way: the units it counts, its library, and its parsers of the other
identifiers. -/
structure PortCodec (ε : Type) where
  error : IdentifoldErrorCode → ε
  length : Text → Nat
  toUpper : Text → Text
  startsWith : Text → Text → Bool
  isSequence : Text → Bool
  startsWithLetters : Text → Bool
  parseMachineId : Text → Except ε Text
  parsePublicId : Text → Except ε ParsedPublicId

namespace PortCodec

variable {ε : Type} (port : PortCodec ε)

/-- `formatSequentialReference`. -/
def formatSequentialReference (registry : List PortNamespaceDefinition)
    (name sequence scope : Text) : Except ε Text :=
  match findNamespace registry name with
  | some { reference := some reference, .. } =>
      if reference.strategy = "sequence" then do
        ensure (port.isSequence sequence = true ∧ port.length sequence ≤ reference.width)
          (port.error .sequenceOverflow)
        let padded := List.replicate (reference.width - port.length sequence) '0' ++ sequence
        match checkSymbolOf (scope ++ padded) true with
        | none => throw (port.error .invalidRefSymbol)
        | some check =>
            if scope = [] then return join '-' [reference.refPrefix, padded, [check]]
            else return join '-' [reference.refPrefix, scope, padded, [check]]
      else throw (port.error .unknownNamespace)
  | _ => throw (port.error .unknownNamespace)

/-- A body without its last unit, and that unit; a symbol of several units is cut. -/
def cutLast (body : Text) : Option (Text × Char) :=
  match body.getLast? with
  | some symbol => if port.length [symbol] = 1 then some (body.dropLast, symbol) else none
  | none => none

/-- The payload of a body, with the check symbol behind it.  A unit that is part of a symbol is not
in the alphabet. -/
def readBody (sequential : Bool) (length : Nat) (body : Text) : Except ε (Text × Char) := do
  ensure (port.length body = length + 1) (port.error .invalidRefLength)
  match port.cutLast body with
  | none => throw (port.error .invalidRefSymbol)
  | some (raw, supplied) =>
      let payload := if sequential then raw else raw.map normalizeSymbol
      match checkSymbolOf payload sequential with
      | none => throw (port.error .invalidRefSymbol)
      | some expected => do
          ensure (expected = supplied) (port.error .invalidChecksum)
          return (payload, supplied)

/-- The reference branch of `normalize`, from the compact text on. -/
def normalizeReference (registry : List PortNamespaceDefinition) (value compact : Text) :
    Except ε Text :=
  match registry.find? fun item => item.reference.any (port.startsWith compact ·.refPrefix) with
  | some { publicPrefix := name, reference := some reference } => do
      let body := compact.drop reference.refPrefix.length
      ensure ('?' ∉ body ∧ '_' ∉ body) (port.error .invalidRef)
      if reference.strategy = "sequence" then do
        let scopeLength := if reference.scope = "calendar-year" then 4 else 0
        let (payload, _) ← port.readBody true (scopeLength + reference.width) body
        port.formatSequentialReference registry name (payload.drop scopeLength)
          (payload.take scopeLength)
      else do
        let (payload, supplied) ← port.readBody false (profileLength reference.profile) body
        return join '-' [reference.refPrefix, join '-' (chunks 4 payload), [supplied]]
  | _ =>
      throw (port.error (if port.startsWithLetters value = true then .unknownNamespace
        else .invalidKind))

/-- `normalize`. -/
def normalize (value : Text) (registry : List PortNamespaceDefinition) : Except ε Text :=
  if '_' ∈ value then do
    let parsed ← port.parsePublicId value
    ensure (findNamespace registry parsed.namespaceName ≠ none) (port.error .unknownNamespace)
    return parsed.value
  else if port.length value = 36 then port.parseMachineId value
  else port.normalizeReference registry value (strip '-' (port.toUpper value))

end PortCodec

/-- `^[A-Za-z]{2,8}`. -/
def startsWithLetters (value : Text) : Bool := 2 ≤ (value.takeWhile Char.isAlpha).length

/-- `parseMachineId` of the ports that match the whole text. -/
def parseLowerMachineId (unicode : CaseMapping) (input : Text) :
    Except IdentifoldErrorCode Text := do
  let value := unicode.toLower input
  ensure (machinePattern value = true) .invalidMid
  ensure (value[14]? = some '7') .invalidUuidVersion
  ensure (∃ c ∈ "89ab".toList, value[19]? = some c) .invalidMid
  return value

/-- `parsePublicId` of the ports that print the number of a suffix. -/
def parseLowerPublicId (unicode : CaseMapping) (length : Text → Nat) (value : Text) :
    Except IdentifoldErrorCode ParsedPublicId := do
  ensure (value = unicode.toLower value) .invalidPid
  match rsplitOnce '_' value with
  | none => throw .invalidPublicPrefix
  | some (namespaceName, suffix) =>
      ensure (isPublicPrefix namespaceName = true) .invalidPublicPrefix
      ensure (length suffix = 26 ∧ ∀ c ∈ suffix.head?, c ≤ '7') .invalidPid
      let number ← readSuffix .invalidPid 0 suffix
      match parseLowerMachineId unicode (formatUuid (padStart 32 (Nat.toDigits 16 number))) with
      | .ok machineId =>
          return { value := value, namespaceName := namespaceName, machineId := machineId }
      | .error _ => throw .invalidPid

/-! ## the ports -/

namespace Php

/-- The PHP port: bytes, ASCII case, `ctype_digit`. -/
def codec : PortCodec IdentifoldErrorCode where
  error := id
  length := List.length
  toUpper := asciiUpper
  startsWith value start := start.isPrefixOf value
  isSequence sequence := !sequence.isEmpty && sequence.all Char.isDigit
  startsWithLetters := Identifold.startsWithLetters
  parseMachineId := parseMachineId
  parsePublicId := parsePublicId

/-- `Identifold::normalize`. -/
def normalize : Text → List PortNamespaceDefinition → Except IdentifoldErrorCode Text :=
  codec.normalize

end Php

namespace Ruby

/-- `parse_machine_id`. -/
def parseMachineId (unicode : CaseMapping) : Text → Except IdentifoldErrorCode Text :=
  parseLowerMachineId unicode

/-- `parse_public_id`; `rjust` fills the digits of the number up. -/
def parsePublicId (unicode : CaseMapping) : Text → Except IdentifoldErrorCode ParsedPublicId :=
  parseLowerPublicId unicode List.length

/-- The Ruby port: symbols, the case of Unicode, `\d+`. -/
def codec (unicode : CaseMapping) : PortCodec IdentifoldErrorCode where
  error := id
  length := List.length
  toUpper := unicode.toUpper
  startsWith value start := start.isPrefixOf value
  isSequence sequence := !sequence.isEmpty && sequence.all Char.isDigit
  startsWithLetters := Identifold.startsWithLetters
  parseMachineId := parseMachineId unicode
  parsePublicId := parsePublicId unicode

/-- `Identifold.normalize`. -/
def normalize (unicode : CaseMapping) :
    Text → List PortNamespaceDefinition → Except IdentifoldErrorCode Text :=
  (codec unicode).normalize

end Ruby

namespace Java

/-- What the Java port uses of its runtime: the case of `Locale.ROOT`, and `Character.isDigit`. -/
structure Runtime where
  unicode : CaseMapping
  isDigit : Char → Bool
  isDigit_ascii : ∀ c, c.toNat < 128 → isDigit c = c.isDigit

/-- `parseMachineId`. -/
def parseMachineId (runtime : Runtime) : Text → Except IdentifoldErrorCode Text :=
  parseLowerMachineId runtime.unicode

/-- `parsePublicId`; `%032x` fills the digits of the number up. -/
def parsePublicId (runtime : Runtime) : Text → Except IdentifoldErrorCode ParsedPublicId :=
  parseLowerPublicId runtime.unicode utf16Length

/-- The Java port: UTF-16 units; the `.*` behind the letters stops at a line terminator. -/
def codec (runtime : Runtime) : PortCodec IdentifoldErrorCode where
  error := id
  length := utf16Length
  toUpper := runtime.unicode.toUpper
  startsWith value start := start.isPrefixOf value
  isSequence sequence := sequence.all runtime.isDigit
  startsWithLetters value := Identifold.startsWithLetters value &&
    value.all fun c => c.toNat ∉ [0x0a, 0x0d, 0x85, 0x2028, 0x2029]
  parseMachineId := parseMachineId runtime
  parsePublicId := parsePublicId runtime

/-- `Identifold.normalize`. -/
def normalize (runtime : Runtime) :
    Text → List PortNamespaceDefinition → Except IdentifoldErrorCode Text :=
  (codec runtime).normalize

end Java

namespace Kotlin

/-- `KotlinIdentifold.normalize`. -/
def normalize (runtime : Java.Runtime) :
    Text → List PortNamespaceDefinition → Except IdentifoldErrorCode Text :=
  Java.normalize runtime

end Kotlin

namespace CSharp

/-- What the C# port uses of its runtime: the invariant case, and `StartsWith` of its culture, which
is the plain one on printable texts of the invariant culture. -/
structure Runtime where
  invariant : CaseMapping
  startsWith : Text → Text → Bool
  startsWith_printable : ∀ v w, Swift.IsPrintable v → Swift.IsPrintable w →
    startsWith v w = w.isPrefixOf v

/-- The C# port: UTF-16 units. -/
def codec (runtime : Runtime) : PortCodec Failure where
  error := .error
  length := utf16Length
  toUpper := runtime.invariant.toUpper
  startsWith := runtime.startsWith
  isSequence sequence := sequence.all Char.isDigit
  startsWithLetters := Identifold.startsWithLetters
  parseMachineId := parseMachineId runtime.invariant
  parsePublicId := parsePublicId runtime.invariant

/-- `Normalize`. -/
def normalize (runtime : Runtime) : Text → List PortNamespaceDefinition → Except Failure Text :=
  (codec runtime).normalize

end CSharp

namespace Swift

/-- What `normalize` uses of Swift's strings besides: upper case, search, and the kinds of
characters. -/
structure TextLibrary extends StringLibrary where
  uppercased : Text → Text
  contains : Text → Text → Bool
  hasPrefix : Text → Text → Bool
  isLetter : Text → Bool
  isNumber : Text → Bool
  uppercased_printable : ∀ v, IsPrintable v → uppercased v = asciiUpper v
  contains_printable : ∀ v c, IsPrintable v → IsPrintable [c] → (contains v [c] = true ↔ c ∈ v)
  hasPrefix_printable : ∀ v w, IsPrintable v → IsPrintable w → hasPrefix v w = w.isPrefixOf v
  isLetter_printable : ∀ c, IsPrintable [c] → isLetter [c] = c.isAlpha
  isNumber_printable : ∀ c, IsPrintable [c] → isNumber [c] = c.isDigit

section Normalize

variable (strings : TextLibrary)

/-- `findNamespace`. -/
def findNamespace (registry : List PortNamespaceDefinition) (name : Text) :
    Option PortNamespaceDefinition :=
  registry.find? fun item => strings.equal item.publicPrefix name

/-- A step of the loop of `checkSymbol`. -/
def addSymbol (base : Nat) (alphabet : Text) (remainder : Nat) (symbol : Text) :
    Except Failure Nat :=
  match alphabet.findIdx? fun c => strings.equal [c] symbol with
  | some position => .ok ((remainder * base + position) % 37)
  | none => .error (.error .invalidRefSymbol)

/-- `checkSymbol`. -/
def checkSymbol (payload : Text) (sequential : Bool) : Except Failure Char := do
  let alphabet := if sequential then decimalAlphabet else dataAlphabet
  let base := if sequential then 10 else 32
  let remainder ← (strings.characters payload).foldlM (addSymbol strings base alphabet) 0
  elementAt checkAlphabet remainder

/-- `$0 == "O" ? "0" : ($0 == "I" || $0 == "L" ? "1" : $0)`. -/
def normalizeCharacter (symbol : Text) : Text :=
  if strings.equal symbol ['O'] = true then ['0']
  else if strings.equal symbol ['I'] = true ∨ strings.equal symbol ['L'] = true then ['1']
  else symbol

/-- `group`. -/
def group (value : Text) : Text :=
  join '-' ((chunks 4 (strings.characters value)).map List.flatten)

/-- `formatSequentialReference`. -/
def formatSequentialReference (registry : List PortNamespaceDefinition)
    (name sequence scope : Text) : Except Failure Text :=
  match findNamespace strings registry name with
  | some { reference := some reference, .. } =>
      if reference.strategy = "sequence" then do
        let symbols := strings.characters sequence
        ensure (sequence ≠ [] ∧ (∀ symbol ∈ symbols, strings.isNumber symbol = true) ∧
          symbols.length ≤ reference.width) (.error .sequenceOverflow)
        let padded := List.replicate (reference.width - symbols.length) '0' ++ sequence
        let check ← checkSymbol strings (scope ++ padded) true
        if scope = [] then return join '-' [reference.refPrefix, padded, [check]]
        else return join '-' [reference.refPrefix, scope, padded, [check]]
      else throw (.error .unknownNamespace)
  | _ => throw (.error .unknownNamespace)

/-- The payload of a body, which ends in its check symbol: `read` makes it of the symbols in
front. -/
def readBody (sequential : Bool) (length : Nat) (read : Text → Text) (body : Text) :
    Except Failure (Text × Text) := do
  let symbols := strings.characters body
  ensure (symbols.length = length + 1) (.error .invalidRefLength)
  let payload := read symbols.dropLast.flatten
  let check ← checkSymbol strings payload sequential
  match symbols.getLast? with
  | none => throw .trapped
  | some last => do
      ensure (strings.equal [check] last = true) (.error .invalidChecksum)
      return (payload, last)

/-- The reference branch of `normalize`, from the compact text on. -/
def normalizeReference (registry : List PortNamespaceDefinition) (value compact : Text) :
    Except Failure Text :=
  match registry.find? fun item => item.reference.any (strings.hasPrefix compact ·.refPrefix) with
  | some { publicPrefix := name, reference := some reference } => do
      let body := ((strings.characters compact).drop
        (strings.characters reference.refPrefix).length).flatten
      ensure (strings.contains body ['?'] = false ∧ strings.contains body ['_'] = false)
        (.error .invalidRef)
      if reference.strategy = "sequence" then do
        let scopeLength := if reference.scope = "calendar-year" then 4 else 0
        let (payload, _) ← readBody strings true (scopeLength + reference.width) id body
        let symbols := strings.characters payload
        formatSequentialReference strings registry name (symbols.drop scopeLength).flatten
          (symbols.take scopeLength).flatten
      else do
        let (payload, last) ← readBody strings false (profileLength reference.profile)
          (fun raw => ((strings.characters raw).map (normalizeCharacter strings)).flatten) body
        return join '-' [reference.refPrefix, group strings payload, last]
  | _ =>
      let letters := ((strings.characters value).takeWhile strings.isLetter).length
      throw (.error (if 2 ≤ letters then .unknownNamespace else .invalidKind))

/-- `normalize`. -/
def normalize (value : Text) (registry : List PortNamespaceDefinition) : Except Failure Text :=
  if strings.contains value ['_'] = true then do
    let parsed ← parsePublicID strings.toStringLibrary value
    ensure (findNamespace strings registry parsed.namespaceName ≠ none) (.error .unknownNamespace)
    return parsed.value
  else if (strings.characters value).length = 36 then parseMachineID strings.toStringLibrary value
  else normalizeReference strings registry value (strip '-' (strings.uppercased value))

end Normalize

end Swift

end Identifold
