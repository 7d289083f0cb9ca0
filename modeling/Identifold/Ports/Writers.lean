import Identifold.Ports.OneNormalizer
import Identifold.Ports.PythonCodec

/-!
# Identifold.Ports.Writers

What any package draws, every package reads back.

`createReferenceCandidate` draws the payload of a reference from random values.  Over a
registry that TypeScript accepts the ports draw the candidates of the TypeScript package
from the same bytes, and the `normalize` of every package returns them unchanged, as it
does all canonical references (`readsBack_of_registered`).

* `readsBack_of_registered` — canonical references are returned unchanged;
* `plainCandidate_ok_iff` — the candidates of the plain port;
* `createAlike_plain` — every port creates them.
-/

namespace Identifold

open Separated RegisteredReferenceDefinition

/-! ## the packages -/

/-- `\d` of Python's `re`, which knows the digits of all scripts. -/
structure Python.DecimalDigits where
  isDecimal : Char → Bool
  isDecimal_ascii : ∀ c, c.toNat < 128 → isDecimal c = c.isDigit

/-- What the packages use of their runtimes and libraries. -/
structure Runtimes where
  javascript : CaseMapping
  uuid : UuidLibrary
  typeid : TypeIdLibrary
  python : Python.Runtime
  pythonTypeid : Python.TypeIdPackage
  pythonDecimal : Python.DecimalDigits
  go : CaseMapping
  ruby : CaseMapping
  java : Java.Runtime
  csharp : CSharp.Runtime
  swift : Swift.TextLibrary

namespace Python

/-- `Identifold.normalize`. -/
def normalize (runtime : Runtime) (typeid : TypeIdPackage) (registry : NamespaceRegistry)
    (value : Text) : Except IdentifoldErrorCode Text := do
  let parsed ← parse runtime typeid registry value
  return parsed.value

end Python

/-- Every package returns `w` unchanged. -/
structure ReadsBack (runtimes : Runtimes) (registry : NamespaceRegistry)
    (ports : List PortNamespaceDefinition) (w : Text) : Prop where
  typescript : normalize runtimes.javascript runtimes.uuid runtimes.typeid registry w = .ok w
  python : Python.normalize runtimes.python runtimes.pythonTypeid registry w = .ok w
  go : Go.normalize runtimes.go w ports = .ok w
  rust : Rust.normalize w ports = .ok w
  php : Php.normalize w ports = .ok w
  ruby : Ruby.normalize runtimes.ruby w ports = .ok w
  java : Java.normalize runtimes.java w ports = .ok w
  kotlin : Kotlin.normalize runtimes.java w ports = .ok w
  csharp : CSharp.normalize runtimes.csharp w ports = .ok w
  swift : Swift.normalize runtimes.swift w ports = .ok w

section Reading

variable {registry : NamespaceRegistry} {ports : List PortNamespaceDefinition} {w : Text}

/-- A canonical reference is parsed to itself, and is detected. -/
theorem IsRegisteredText.parsed (h : IsRegisteredText registry w) :
    ∃ result, parseReference w registry = .ok result ∧ result.value = w ∧
      detectIdentifierKind w = some .ref := by
  obtain ⟨-, -, -, hupper, -⟩ := h.facts
  obtain ⟨d, hd, r, hr, payload, hpayload, rfl⟩ := h
  have hparse := parseReference_canonical hd hr hpayload
  have hstart : isReferenceStart (r.canonical payload) = true := by
    rw [canonical_eq r hpayload]
    exact isReferenceStart_of_hyphen r _
  exact ⟨_, hparse, rfl, (detectIdentifierKind_of_ref hparse).trans (if_pos hstart)⟩

/-- **Every package** returns a canonical reference unchanged. -/
theorem readsBack_of_registered (runtimes : Runtimes)
    (hports : List.Forall₂ Describes ports registry.definitions) (h : IsRegisteredText registry w) :
    ReadsBack runtimes registry ports w := by
  obtain ⟨hscore, hascii, hlength, hupper, hreading⟩ := h.facts
  obtain ⟨result, hparse, hvalue, hkind⟩ := h.parsed
  have haccepted := accepted_of_describes hports
  have hstart : ¬ IsUpperHalfPublicId w := by
    rintro ⟨ns, hex, -, -, rfl, -⟩
    exact hscore (mem_publicIdText ns hex)
  have hself : IsPortReading registry w w := by
    rw [utf8Length_of_isAscii hascii] at hlength
    exact .inr (.inr ⟨hscore, hlength, hreading⟩)
  have hprintable := h.isPrintable
  have hplain := (plain_normalize_ok_iff hports hprintable).mpr hself
  obtain ⟨hrust, hphp, hruby, hjava, hkotlin, hswift⟩ :=
    allNormalize_plain runtimes.ruby runtimes.java runtimes.swift haccepted hprintable
  have hcsharp := (CSharp.normalize_eq_iff runtimes.csharp haccepted hprintable).mpr hstart
  rw [hplain] at hrust hphp hruby hjava hkotlin hswift hcsharp
  exact {
    typescript := by
      rw [normalize, parse, classifyIdentifier, hkind]
      change (do
        let parsed ← (do
          let parsed ← (parseReference w registry).mapError .identifold
          return .ref parsed : Except Thrown ParsedIdentifier)
        return parsed.value) = _
      rw [hparse]
      exact congrArg Except.ok hvalue
    python := by
      rw [Python.normalize, Python.parse, Python.classify, Python.detect, hkind]
      change (do
        let parsed ← (do
          let parsed ← Python.parseReference w registry
          return .ref parsed : Except IdentifoldErrorCode ParsedIdentifier)
        return parsed.value) = _
      rw [Python.parseReference_eq, hparse]
      exact congrArg Except.ok hvalue
    go := by
      rw [← runtimes.go.toUpper_ascii w hascii] at hreading
      exact (Go.normalize_ok_iff runtimes.go hports hscore).mpr
        (.inr ⟨fun hmachine => not_compact_of_machinePattern hmachine hreading, hreading⟩)
    rust := hrust
    php := hphp
    ruby := hruby
    java := hjava
    kotlin := hkotlin
    csharp := hcsharp
    swift := hswift }

end Reading

/-! ## candidates -/

/-- The symbols that random values select. -/
def payloadOfValues (values : List Int) : Text :=
  values.flatMap fun value => charAt dataAlphabet (value % 32).toNat

/-- `createReferenceCandidate`; `checkText` is the check symbol that is appended to a payload. -/
def createCandidate {ε : Type} (error : IdentifoldErrorCode → ε) (checkText : Text → Except ε Text)
    (registry : List PortNamespaceDefinition) (name : Text) (randomBytes : List Int) :
    Except ε Text :=
  match findNamespace registry name with
  | some { reference := some reference, .. } =>
      if reference.strategy = "random" then do
        let length := profileLength reference.profile
        ensure (length ≤ randomBytes.length) (error .invalidRandomSource)
        ensure (∀ value ∈ randomBytes.take length, 0 ≤ value ∧ value ≤ 255)
          (error .invalidRandomSource)
        let payload := payloadOfValues (randomBytes.take length)
        let check ← checkText payload
        return join '-' [reference.refPrefix, join '-' (chunks 4 payload), check]
      else throw (error .unknownNamespace)
  | _ => throw (error .unknownNamespace)

/-- The check symbol of a port that throws where there is none. -/
def checkTextOf {ε : Type} (error : ε) (payload : Text) : Except ε Text :=
  match checkSymbolOf payload false with
  | some check => .ok [check]
  | none => .error error

/-- `createReferenceCandidate` of the ports that share `PortCodec`. -/
def PortCodec.createReferenceCandidate {ε : Type} (port : PortCodec ε) :
    List PortNamespaceDefinition → Text → List Int → Except ε Text :=
  createCandidate port.error (checkTextOf (port.error .invalidRefSymbol))

namespace Python

/-- `_require_reference` for a random namespace. -/
def requireRandom (registry : NamespaceRegistry) (namespaceName : Text) :
    Except IdentifoldErrorCode RegisteredRandomReferenceDefinition :=
  match registry.getByPublicPrefix namespaceName with
  | none => throw .unknownNamespace
  | some definition =>
      match definition.reference with
      | some (.random reference) => .ok reference
      | _ => throw .invalidNamespaceDefinition

/-- `create_reference_candidate`; `randomBytes` is the byte source. -/
def createReferenceCandidate (registry : NamespaceRegistry) (namespaceName : Text)
    (randomBytes : Nat → List UInt8) : Except IdentifoldErrorCode Text := do
  let reference ← requireRandom registry namespaceName
  let raw := randomBytes reference.payloadLength
  ensure (raw.length = reference.payloadLength) .invalidRandomSource
  let payload := payloadOfBytes raw
  let check ← calculateReferenceCheckSymbol payload
  return formatReference reference.refPrefix payload check

end Python

namespace Rust

/-- `create_reference_candidate`: a byte is in range, and a payload without check symbol makes
`expect` panic. -/
def createReferenceCandidate (registry : List PortNamespaceDefinition) (name : Text)
    (bytes : List UInt8) : Except Failure Text :=
  createCandidate .error (checkTextOf .panicked) registry name
    (bytes.map fun byte => (byte.toNat : Int))

end Rust

namespace Go

/-- `CreateReferenceCandidate`: `CheckSymbol` is the empty text where there is none. -/
def createReferenceCandidate (registry : List PortNamespaceDefinition) (name : Text)
    (randomBytes : List Int) : Except Failure Text :=
  createCandidate .error (fun payload => .ok (checkSymbolOf payload false).toList) registry name
    randomBytes

end Go

namespace Php

/-- `Identifold::createReferenceCandidate`. -/
def createReferenceCandidate : List PortNamespaceDefinition → Text → List Int →
    Except IdentifoldErrorCode Text :=
  codec.createReferenceCandidate

end Php

namespace Ruby

/-- `Identifold.create_reference_candidate`. -/
def createReferenceCandidate (unicode : CaseMapping) : List PortNamespaceDefinition → Text →
    List Int → Except IdentifoldErrorCode Text :=
  (codec unicode).createReferenceCandidate

end Ruby

namespace Java

/-- `Identifold.createReferenceCandidate`. -/
def createReferenceCandidate (runtime : Runtime) : List PortNamespaceDefinition → Text →
    List Int → Except IdentifoldErrorCode Text :=
  (codec runtime).createReferenceCandidate

end Java

namespace Kotlin

/-- `KotlinIdentifold.createReferenceCandidate`. -/
def createReferenceCandidate (runtime : Java.Runtime) : List PortNamespaceDefinition → Text →
    List Int → Except IdentifoldErrorCode Text :=
  Java.createReferenceCandidate runtime

end Kotlin

namespace CSharp

/-- `CreateReferenceCandidate`. -/
def createReferenceCandidate (runtime : Runtime) : List PortNamespaceDefinition → Text →
    List Int → Except Failure Text :=
  (codec runtime).createReferenceCandidate

end CSharp

namespace Swift

/-- `createReferenceCandidate`. -/
def createReferenceCandidate (strings : TextLibrary) (registry : List PortNamespaceDefinition)
    (name : Text) (randomBytes : List Int) : Except Failure Text :=
  match findNamespace strings registry name with
  | some { reference := some reference, .. } =>
      if reference.strategy = "random" then do
        let length := profileLength reference.profile
        ensure (length ≤ randomBytes.length) (.error .invalidRandomSource)
        ensure (∀ value ∈ randomBytes.take length, 0 ≤ value ∧ value ≤ 255)
          (.error .invalidRandomSource)
        let payload := payloadOfValues (randomBytes.take length)
        let check ← checkSymbol strings payload false
        return join '-' [reference.refPrefix, group strings payload, [check]]
      else throw (.error .unknownNamespace)
  | _ => throw (.error .unknownNamespace)

end Swift

section Candidates

variable {registry : NamespaceRegistry} {ports : List PortNamespaceDefinition} {name : Text}

/-- The candidate of the plain port. -/
def plainCandidate : List PortNamespaceDefinition → Text → List Int →
    Except IdentifoldErrorCode Text :=
  createCandidate id (checkTextOf .invalidRefSymbol)

/-- A payload has symbols of the alphabet only, whatever values it is made of. -/
theorem mem_payloadOfValues {values : List Int} {c : Char} (h : c ∈ payloadOfValues values) :
    c ∈ dataAlphabet := by
  obtain ⟨value, -, hc⟩ := List.mem_flatMap.mp h
  exact List.mem_of_getElem? (Option.mem_toList.mp hc)

/-- A payload of data symbols has a check symbol. -/
theorem checkSymbolOf_of_mem {payload : Text} (h : ∀ c ∈ payload, c ∈ dataAlphabet) :
    ∃ check ∈ checkAlphabet, checkSymbolOf payload false = some check ∧
      referenceCheckSymbol payload = [check] := by
  obtain ⟨check, hmem, hcheck⟩ :=
    charAt_checkAlphabet (Radix.value 32 (payload.map dataAlphabet.idxOf))
  exact ⟨check, hmem, checkSymbolOf_random_iff.mpr ⟨h, hcheck⟩, hcheck⟩

/-- The ports differ in what they do where there is no check symbol, which does not happen. -/
theorem createCandidate_eq {ε : Type} {error : IdentifoldErrorCode → ε}
    {checkText : Text → Except ε Text}
    (hcheck : ∀ payload check, checkSymbolOf payload false = some check →
      checkText payload = .ok [check]) (values : List Int) :
    createCandidate error checkText ports name values =
      (plainCandidate ports name values).mapError error := by
  rw [plainCandidate, createCandidate, createCandidate]
  cases findNamespace ports name with
  | none => rfl
  | some item =>
      obtain ⟨publicPrefix, _ | reference⟩ := item
      · rfl
      dsimp only
      split
      · rw [bind_mapError, ensure_mapError]
        refine congrArg _ (funext fun _ => ?_)
        rw [bind_mapError, ensure_mapError]
        refine congrArg _ (funext fun _ => ?_)
        obtain ⟨check, -, hsymbol, -⟩ := checkSymbolOf_of_mem fun c hc =>
          @mem_payloadOfValues (values.take (profileLength reference.profile)) c hc
        rw [hcheck _ _ hsymbol, checkTextOf, hsymbol]
        rfl
      · rfl

/-- The Swift generator writes the plain candidate, for any values. -/
theorem Swift.createReferenceCandidate_eq (strings : Swift.TextLibrary)
    (haccepted : PortCodec.Accepted ports) (hname : IsAscii name) (values : List Int) :
    Swift.createReferenceCandidate strings ports name values =
      (plainCandidate ports name values).mapError .error := by
  rw [Swift.createReferenceCandidate, plainCandidate, createCandidate,
    Swift.findNamespace_eq haccepted.name hname]
  cases Identifold.findNamespace ports name with
  | none => rfl
  | some item =>
      obtain ⟨publicPrefix, _ | reference⟩ := item
      · rfl
      dsimp only
      split
      · rw [bind_mapError, ensure_mapError]
        refine congrArg _ (funext fun _ => ?_)
        rw [bind_mapError, ensure_mapError]
        refine congrArg _ (funext fun _ => ?_)
        have hmem : ∀ c ∈ payloadOfValues (values.take (profileLength reference.profile)),
            c ∈ dataAlphabet := fun c hc => mem_payloadOfValues hc
        have hpayload := isPrintable_of_isReferenceSymbol fun c hc =>
          .inl (isReferenceSymbol_of_mem_dataAlphabet c (hmem c hc))
        obtain ⟨check, -, hsymbol, -⟩ := checkSymbolOf_of_mem hmem
        rw [Swift.checkSymbol_eq hpayload, hsymbol, checkTextOf, hsymbol, Option.elim_some, ok_bind,
          Swift.group_eq hpayload]
        rfl
      · rfl

/-- The definitions of the ports name their strategy. -/
theorem strategy_toPort {definitions : List NamespaceDefinition} :
    ∀ item ∈ definitions.map NamespaceDefinition.toPort, ∀ p, item.reference = some p →
      p.strategy = "random" ∨ p.strategy = "sequence" := by
  intro item hitem p hp
  obtain ⟨definition, -, rfl⟩ := List.mem_map.mp hitem
  obtain ⟨reference, -, rfl⟩ := Option.map_eq_some_iff.mp hp
  cases reference with
  | random refPrefix profile => exact .inl rfl
  | sequence refPrefix scope width => exact .inr rfl

/-- On bytes the payload is the one of the bytes. -/
theorem payloadOfValues_map_toNat (bytes : List UInt8) :
    payloadOfValues (bytes.map fun byte => (byte.toNat : Int)) = payloadOfBytes bytes := by
  rw [payloadOfValues, payloadOfBytes, List.flatMap_map]
  refine List.flatMap_congr fun byte _ => ?_
  rw [toNat_and_31]
  rfl

/-- The values of bytes are those from 0 to 255. -/
theorem exists_bytes_iff {values : List Int} :
    (∃ bytes : List UInt8, bytes.map (fun byte => (byte.toNat : Int)) = values) ↔
      ∀ value ∈ values, 0 ≤ value ∧ value ≤ 255 := by
  constructor
  · rintro ⟨bytes, rfl⟩ value hvalue
    obtain ⟨byte, -, rfl⟩ := List.mem_map.mp hvalue
    have hlt := byte.toNat_lt
    omega
  · intro h
    refine ⟨values.map fun value => UInt8.ofNat value.toNat, ?_⟩
    rw [List.map_map]
    refine (List.map_congr_left fun value hvalue => ?_).trans (List.map_id _)
    obtain ⟨hge, hle⟩ := h value hvalue
    have hsmall : value.toNat < UInt8.size := by
      simp only [UInt8.size]
      omega
    rw [Function.comp_apply, UInt8.toNat_ofNat_of_lt' hsmall]
    exact Int.toNat_of_nonneg hge

/-- The text of a candidate is canonical. -/
theorem candidate_eq_canonical {r : RegisteredRandomReferenceDefinition} {payload : Text}
    {check : Char}
    (hpayload : (random r).IsPayload payload) (hcheck : referenceCheckSymbol payload = [check]) :
    join '-' [r.refPrefix, join '-' (chunks 4 payload), [check]] =
      (random r).canonical payload := by
  rw [← formatReference_eq_canonical r hpayload, hcheck, formatReference]
  simp [join]

/-- In a random namespace a candidate is drawn from the bytes in front. -/
theorem plainCandidate_random_iff (hports : List.Forall₂ Describes ports registry.definitions)
    (hstrategy : ∀ item ∈ ports, ∀ p, item.reference = some p →
      p.strategy = "random" ∨ p.strategy = "sequence")
    {d : RegisteredNamespaceDefinition} {r : RegisteredRandomReferenceDefinition}
    (hget : registry.getByPublicPrefix name = some d) (hr : d.reference = some (.random r))
    {values : List Int} {w : Text} :
    plainCandidate ports name values = .ok w ↔
      ∃ bytes : List UInt8, bytes.map (fun byte => (byte.toNat : Int)) <+: values ∧
        bytes.length = r.payloadLength ∧ w = (random r).canonical (payloadOfBytes bytes) := by
  obtain ⟨item, hitem, -, href⟩ := (findNamespace_describes hports).1 d hget
  simp only [hr] at href
  obtain ⟨p, hp, hpre, hnot, hlength⟩ := href
  have hrandom : p.strategy = "random" :=
    (hstrategy item (List.mem_of_find?_eq_some hitem) p hp).resolve_right hnot
  obtain ⟨publicPrefix, reference⟩ := item
  cases hp
  have hpayload : ∀ bytes : List UInt8, bytes.length = r.payloadLength →
      (random r).IsPayload (payloadOfBytes bytes) := fun bytes hlen =>
    ⟨by rw [length_payloadOfBytes, hlen], fun c hc => mem_payloadOfBytes hc⟩
  -- the text of a payload is the canonical one
  have hwritten : ∀ bytes : List UInt8, bytes.length = r.payloadLength →
      (do
        let check ← checkTextOf IdentifoldErrorCode.invalidRefSymbol (payloadOfBytes bytes)
        return join '-' [p.refPrefix, join '-' (chunks 4 (payloadOfBytes bytes)), check]) =
        .ok ((random r).canonical (payloadOfBytes bytes)) := by
    intro bytes hlen
    obtain ⟨check, -, hsymbol, hcheck⟩ := checkSymbolOf_of_mem (hpayload bytes hlen).2
    rw [checkTextOf, hsymbol, hpre, ← candidate_eq_canonical (hpayload bytes hlen) hcheck]
    rfl
  rw [plainCandidate, createCandidate, hitem]
  simp only [hrandom, if_true, hlength, bind_eq_ok_iff, ensure_eq_ok_iff, ← exists_bytes_iff]
  constructor
  · -- the first values are bytes, as many as the profile asks for
    rintro ⟨-, hle, -, ⟨bytes, hbytes⟩, h⟩
    have hlen : bytes.length = r.payloadLength := by
      have hmap := congrArg List.length hbytes
      rw [List.length_map, List.length_take, Nat.min_eq_left hle] at hmap
      exact hmap
    rw [← hbytes, payloadOfValues_map_toNat, ← bind_eq_ok_iff, hwritten bytes hlen] at h
    exact ⟨bytes, hbytes ▸ List.take_prefix _ values, hlen, (Except.ok.inj h).symm⟩
  · rintro ⟨bytes, ⟨rest, rfl⟩, hlen, rfl⟩
    have hmap : (bytes.map fun byte => (byte.toNat : Int)).length = r.payloadLength := by
      rw [List.length_map, hlen]
    have htake : (bytes.map (fun byte => (byte.toNat : Int)) ++ rest).take r.payloadLength =
        bytes.map fun byte => (byte.toNat : Int) := List.take_left' hmap
    rw [htake, payloadOfValues_map_toNat, ← bind_eq_ok_iff, hwritten bytes hlen]
    refine ⟨(), ?_, (), ⟨bytes, rfl⟩, rfl⟩
    rw [List.length_append, hmap]
    exact Nat.le_add_right _ _

/-- A candidate is drawn in random namespaces only. -/
theorem random_of_plainCandidate (hports : List.Forall₂ Describes ports registry.definitions)
    {values : List Int} {w : Text} (h : plainCandidate ports name values = .ok w) :
    ∃ d r, registry.getByPublicPrefix name = some d ∧ d.reference = some (.random r) := by
  rw [plainCandidate, createCandidate] at h
  cases hget : registry.getByPublicPrefix name with
  | none =>
      rw [(findNamespace_describes hports).2 hget] at h
      contradiction
  | some d =>
      obtain ⟨item, hitem, -, href⟩ := (findNamespace_describes hports).1 d hget
      obtain ⟨publicPrefix, reference⟩ := item
      rw [hitem] at h
      cases hd : d.reference with
      | none =>
          simp only [hd] at href
          rw [href] at h
          contradiction
      | some reference' =>
          simp only [hd] at href
          obtain ⟨p, rfl, -, hstrategy⟩ := href
          cases reference' with
          | random r => exact ⟨d, r, rfl, hd⟩
          | sequence r =>
              have hnot : ¬ p.strategy = "random" := by
                rw [hstrategy.1]
                decide
              simp only [if_neg hnot] at h
              contradiction

/-- **The candidates** of the ports are those of TypeScript, from the bytes in front. -/
theorem plainCandidate_ok_iff (hports : List.Forall₂ Describes ports registry.definitions)
    (hstrategy : ∀ item ∈ ports, ∀ p, item.reference = some p →
      p.strategy = "random" ∨ p.strategy = "sequence") {values : List Int} {w : Text} :
    plainCandidate ports name values = .ok w ↔
      ∃ bytes : List UInt8, bytes.map (fun byte => (byte.toNat : Int)) <+: values ∧
        createReferenceCandidate registry name (fun _ => bytes) = .ok w := by
  simp only [createReferenceCandidate_ok_iff]
  constructor
  · intro h
    obtain ⟨d, r, hget, hr⟩ := random_of_plainCandidate hports h
    obtain ⟨bytes, hstart, hlen, rfl⟩ := (plainCandidate_random_iff hports hstrategy hget hr).mp h
    obtain ⟨hd, hp⟩ := NamespaceRegistry.getByPublicPrefix_eq_some_iff.mp hget
    exact ⟨bytes, hstart, d, hd, hp, r, hr, hlen, rfl⟩
  · rintro ⟨bytes, hstart, d, hd, hp, r, hr, hlen, rfl⟩
    exact (plainCandidate_random_iff hports hstrategy
      (NamespaceRegistry.getByPublicPrefix_eq_some_iff.mpr ⟨hd, hp⟩) hr).mpr
        ⟨bytes, hstart, hlen, rfl⟩

/-- A candidate is a canonical reference. -/
theorem isRegisteredText_of_candidate {randomBytes : Nat → List UInt8} {w : Text}
    (h : createReferenceCandidate registry name randomBytes = .ok w) :
    IsRegisteredText registry w := by
  obtain ⟨d, hd, -, r, hr, hlen, rfl⟩ := createReferenceCandidate_ok_iff.mp h
  exact ⟨d, hd, _, hr, _,
    ⟨by rw [length_payloadOfBytes, hlen], fun c hc => mem_payloadOfBytes hc⟩, rfl⟩

/-- The Python package creates the candidates of the TypeScript package, and refuses with its
codes. -/
theorem Python.createReferenceCandidate_eq (randomBytes : Nat → List UInt8) :
    Python.createReferenceCandidate registry name randomBytes =
      (Identifold.createReferenceCandidate registry name randomBytes).mapError
        IdentifoldError.code := by
  have hrequire : Python.requireRandom registry name =
      (requireRandomNamespace registry name).mapError IdentifoldError.code := by
    rw [Python.requireRandom, requireRandomNamespace]
    cases registry.getByPublicPrefix name with
    | none => rfl
    | some d =>
        obtain ⟨publicPrefix, reference, hvalid⟩ := d
        rcases reference with _ | (r | r) <;> rfl
  simp only [Python.createReferenceCandidate, Identifold.createReferenceCandidate, hrequire,
    bind_mapError, ensure_mapError, pure_mapError, Python.calculateReferenceCheckSymbol_eq,
    payloadOfBytes]

/-- The ports create one candidate, or throw one error code. -/
structure CreateAlike (runtimes : Runtimes) (ports : List PortNamespaceDefinition) (name : Text)
    (values : List Int) (outcome : Except IdentifoldErrorCode Text) : Prop where
  go : Go.createReferenceCandidate ports name values = outcome.mapError .error
  rust : ∀ bytes : List UInt8, bytes.map (fun byte => (byte.toNat : Int)) = values →
    Rust.createReferenceCandidate ports name bytes = outcome.mapError .error
  php : Php.createReferenceCandidate ports name values = outcome
  ruby : Ruby.createReferenceCandidate runtimes.ruby ports name values = outcome
  java : Java.createReferenceCandidate runtimes.java ports name values = outcome
  kotlin : Kotlin.createReferenceCandidate runtimes.java ports name values = outcome
  csharp : CSharp.createReferenceCandidate runtimes.csharp ports name values =
    outcome.mapError .error
  swift : Swift.createReferenceCandidate runtimes.swift ports name values = outcome.mapError .error

/-- A port of the shared shape writes the plain candidate with its own errors. -/
theorem PortCodec.createReferenceCandidate_eq {ε : Type} (port : PortCodec ε) (values : List Int) :
    port.createReferenceCandidate ports name values =
      (plainCandidate ports name values).mapError port.error := by
  refine createCandidate_eq (fun payload check hcheck => ?_) values
  rw [checkTextOf, hcheck]

/-- All ports write the plain candidate. -/
theorem createAlike_plain (runtimes : Runtimes) (haccepted : PortCodec.Accepted ports)
    (hname : IsAscii name) (values : List Int) :
    CreateAlike runtimes ports name values (plainCandidate ports name values) where
  go := by
    refine createCandidate_eq (fun payload check hcheck => ?_) values
    rw [hcheck]
    rfl
  rust bytes hbytes := by
    rw [Rust.createReferenceCandidate, hbytes]
    refine createCandidate_eq (fun payload check hcheck => ?_) values
    rw [checkTextOf, hcheck]
  php := (Php.codec.createReferenceCandidate_eq values).trans (mapError_id _)
  ruby := ((Ruby.codec runtimes.ruby).createReferenceCandidate_eq values).trans (mapError_id _)
  java := ((Java.codec runtimes.java).createReferenceCandidate_eq values).trans (mapError_id _)
  kotlin := ((Java.codec runtimes.java).createReferenceCandidate_eq values).trans (mapError_id _)
  csharp := (CSharp.codec runtimes.csharp).createReferenceCandidate_eq values
  swift := Swift.createReferenceCandidate_eq runtimes.swift haccepted hname values

end Candidates

/-- Python's digits of a runtime that knows ASCII. -/
def Python.asciiDigits : Python.DecimalDigits where
  isDecimal := Char.isDigit
  isDecimal_ascii := Java.asciiRuntime.isDigit_ascii

/-- Runtimes that know ASCII. -/
def asciiRuntimes : Runtimes where
  javascript := asciiCaseMapping
  uuid := rfc9562
  typeid := typeIdV03
  python := Python.plainRuntime
  pythonTypeid := Python.plainTypeId
  pythonDecimal := Python.asciiDigits
  go := asciiCaseMapping
  ruby := asciiCaseMapping
  java := Java.asciiRuntime
  csharp := CSharp.asciiRuntime
  swift := Swift.asciiTexts

end Identifold
