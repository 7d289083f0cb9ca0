import Identifold.Ports.SequentialFormat
import Identifold.Ports.SwiftNormalizer

/-!
# Identifold.Ports.OneNormalizer

One `normalize` in seven ports.

The ports count their texts in different units and bring libraries of their own.  On
printable texts these libraries agree, so the Rust, the PHP, the Ruby, the Java, the
Kotlin and the Swift port give one answer, the error code included; the C# port gives
it on all texts but the public identifiers whose number fills the upper half of 128
bits.  The texts that are read are described by `IsPortReading`.

* `plain_normalize_ok_iff` — the texts that the plain port accepts;
* `allNormalize_plain` — the six ports are the plain one;
* `CSharp.normalize_eq_iff` — where C# is.
-/

namespace Identifold

open Separated RegisteredReferenceDefinition

/-! ## registries -/

section Registries

variable {definitions : List NamespaceDefinition} {registry : NamespaceRegistry}
  {ports : List PortNamespaceDefinition}

/-- A text of reference symbols and hyphens is printable. -/
theorem isPrintable_of_isReferenceSymbol {v : Text} (h : ∀ c ∈ v, IsReferenceSymbol c ∨ c = '-') :
    Swift.IsPrintable v := by
  intro c hc
  rcases h c hc with hsymbol | rfl
  · exact forall_ascii (P := fun d => IsReferenceSymbol d → ' ' ≤ d ∧ d ≤ '~') (by decide) c
      hsymbol.toNat_lt hsymbol
  · decide

/-- A registry that TypeScript accepts is accepted in the ports. -/
theorem accepted_of_describes (hports : List.Forall₂ Describes ports registry.definitions) :
    PortCodec.Accepted ports := by
  have hitems : ∀ item ∈ ports, ∃ d, Describes item d := by
    intro item hitem
    generalize registry.definitions = registered at hports
    induction hports with
    | nil => contradiction
    | cons hd _ ih =>
        rcases List.mem_cons.mp hitem with rfl | hitem
        · exact ⟨_, hd⟩
        · exact ih hitem
  have hreferences : ∀ item ∈ ports, ∀ p, item.reference = some p →
      ∃ r, DescribesReference p r := by
    intro item hitem p hp
    obtain ⟨d, -, hd⟩ := hitems item hitem
    split at hd
    · rw [hp] at hd
      contradiction
    · rename_i r _
      obtain ⟨p', hp', hdescribes⟩ := hd
      rw [hp] at hp'
      exact ⟨r, Option.some.inj hp' ▸ hdescribes⟩
  refine ⟨fun item hitem => ?_, fun item hitem p hp => ?_, fun item hitem p hp hstrategy => ?_⟩
  · obtain ⟨d, hname, -⟩ := hitems item hitem
    rw [hname]
    exact fun c hc => (publicPrefix_facts d.publicPrefix_valid c hc).1
  · obtain ⟨r, hstart, -⟩ := hreferences item hitem p hp
    rw [hstart]
    exact isPrintable_of_isReferenceSymbol fun c hc =>
      .inl (.inl (isUpper_of_mem_refPrefix r.refPrefix_valid c hc))
  · obtain ⟨r, -, hr⟩ := hreferences item hitem p hp
    cases r with
    | random r => exact absurd hstrategy hr.1
    | sequence r =>
        rw [hr.2.1]
        exact Nat.lt_of_lt_of_le (by decide) r.width_valid.1

/-- The ports find the registered names. -/
theorem findNamespace_ne_none_iff (hports : List.Forall₂ Describes ports registry.definitions)
    (name : Text) :
    findNamespace ports name ≠ none ↔ ∃ d ∈ registry.definitions, d.publicPrefix = name := by
  obtain ⟨hfound, hmissing⟩ := @findNamespace_describes registry ports name hports
  simp only [← NamespaceRegistry.getByPublicPrefix_eq_some_iff]
  cases hget : registry.getByPublicPrefix name with
  | none =>
      rw [hmissing hget]
      refine iff_of_false (fun h => h rfl) fun h => ?_
      obtain ⟨d, hd⟩ := h
      contradiction
  | some d =>
      obtain ⟨item, hitem, -⟩ := hfound d hget
      rw [hitem]
      exact iff_of_true (Option.some_ne_none item) ⟨d, rfl⟩

end Registries

/-! ## what the ports read -/

section Readings

variable {registry : NamespaceRegistry} {ports : List PortNamespaceDefinition} {v w : Text}

/-- What the ports read in `v`, and what they return for it: a public identifier of a registered
namespace, a machine identifier in either case, or a reference with hyphens anywhere that has not
the length of a machine identifier. -/
def IsPortReading (registry : NamespaceRegistry) (v w : Text) : Prop :=
  (w = v ∧ ∃ d ∈ registry.definitions, ∃ hex, IsMachineHex hex ∧
      v = publicIdText d.publicPrefix hex) ∨
    (IsMachineId w ∧ w = asciiLower v) ∨
      ('_' ∉ v ∧ v.length ≠ 36 ∧ IsCompactReading registry (strip '-' (asciiUpper v)) w)

/-- A public identifier has its underscore. -/
theorem mem_publicIdText (ns hex : Text) : '_' ∈ publicIdText ns hex := by
  simp [publicIdText]

/-- A machine identifier has no underscore in either case. -/
theorem not_mem_of_isMachineId (h : IsMachineId (asciiLower v)) : '_' ∉ v := by
  intro hmem
  have hlower : Char.toLower '_' ∈ asciiLower v := List.mem_map_of_mem hmem
  exact h.facts.2.2.2 hlower

/-- **The grammar** of the plain port. -/
theorem plain_normalize_ok_iff (hports : List.Forall₂ Describes ports registry.definitions)
    (hv : Swift.IsPrintable v) :
    plainCodec.normalize v ports = .ok w ↔ IsPortReading registry v w := by
  have hrust := @Rust.normalize_eq v ports hv
  have hok : plainCodec.normalize v ports = .ok w ↔ Rust.normalize v ports = .ok w := by
    rw [hrust, mapError_eq_ok_iff]
  have hbytes := utf8Length_of_isAscii (Swift.isAscii_of_isPrintable hv)
  rw [hok]
  by_cases hscore : '_' ∈ v
  · rw [Rust.normalize, if_pos hscore]
    simp only [bind_eq_ok_iff, ensure_eq_ok_iff, pure_eq_ok_iff, Rust.parsePublicId_ok_iff,
      findNamespace_ne_none_iff hports]
    constructor
    · rintro ⟨parsed, ⟨ns, hex, hns, hhex, hparts, rfl⟩, -, ⟨d, hd, hname⟩, rfl⟩
      exact .inl ⟨rfl, d, hd, hex, hhex, hname ▸ hparts⟩
    · rintro (⟨rfl, d, hd, hex, hhex, hparts⟩ | ⟨hmachine, rfl⟩ | ⟨hnot, -⟩)
      · exact ⟨_, ⟨d.publicPrefix, hex, d.publicPrefix_valid, hhex, hparts, rfl⟩, (),
          ⟨d, hd, rfl⟩, rfl⟩
      · exact absurd hscore (not_mem_of_isMachineId hmachine)
      · exact absurd hscore hnot
  · rw [Rust.normalize_ok_iff hports hscore, hbytes, IsPortReading, and_iff_right hscore]
    refine (or_iff_right ?_).symm
    rintro ⟨-, d, -, hex, -, rfl⟩
    exact hscore (mem_publicIdText _ _)

/-- A registered text is printable. -/
theorem IsRegisteredText.isPrintable (h : IsRegisteredText registry w) : Swift.IsPrintable w := by
  obtain ⟨d, -, r, -, payload, hpayload, rfl⟩ := h
  obtain ⟨hspelled, -⟩ := IsPayload.spelled r hpayload
  exact isPrintable_of_isReferenceSymbol fun c hc =>
    mem_written r hspelled (.inr (.inr (canonical_eq r hpayload))) hc

/-- A text that the ports return is printable, and is returned unchanged. -/
theorem IsPortReading.canonical (hv : Swift.IsPrintable v) (h : IsPortReading registry v w) :
    Swift.IsPrintable w ∧ IsPortReading registry w w := by
  rcases h with ⟨rfl, hpublic⟩ | ⟨hmachine, rfl⟩ | ⟨-, -, hreading⟩
  · exact ⟨hv, .inl ⟨rfl, hpublic⟩⟩
  · exact ⟨PortCodec.isPrintable_asciiLower hv,
      .inr (.inl ⟨hmachine, (asciiLower_asciiLower v).symm⟩)⟩
  · obtain ⟨hscore, hascii, hlength, -, hself⟩ := hreading.canonical.facts
    rw [utf8Length_of_isAscii hascii] at hlength
    exact ⟨hreading.canonical.isPrintable, .inr (.inr ⟨hscore, hlength, hself⟩)⟩

end Readings

/-! ## seven ports -/

section Agreement

/-- The ports that read every printable text alike: they return the text, or throw the error code,
of `outcome`. -/
def AllNormalize (unicode : CaseMapping) (java : Java.Runtime) (swift : Swift.TextLibrary)
    (registry : List PortNamespaceDefinition) (v : Text)
    (outcome : Except IdentifoldErrorCode Text) : Prop :=
  Rust.normalize v registry = outcome.mapError .error ∧
    Php.normalize v registry = outcome ∧
    Ruby.normalize unicode v registry = outcome ∧
    Java.normalize java v registry = outcome ∧
    Kotlin.normalize java v registry = outcome ∧
    Swift.normalize swift v registry = outcome.mapError .error

variable {ports : List PortNamespaceDefinition} {v : Text}

/-- A parser that prints the number of a suffix, on a printable text. -/
theorem parseLowerPublicId_of_isPrintable {length : Text → Nat}
    (hlength : ∀ s, IsAscii s → length s = s.length) (unicode : CaseMapping)
    (hv : Swift.IsPrintable v) :
    parseLowerPublicId unicode length v = (readPublicId asciiLower .invalidPid v).mapError id := by
  rw [parseLowerPublicId_eq hlength, readPublicId, readPublicId,
    unicode.toLower_ascii v (Swift.isAscii_of_isPrintable hv), mapError_id]

/-- On printable ASCII all six ports normalize as the plain one does. -/
theorem allNormalize_plain (unicode : CaseMapping) (java : Java.Runtime) (swift : Swift.TextLibrary)
    (hports : PortCodec.Accepted ports) (hv : Swift.IsPrintable v) :
    AllNormalize unicode java swift ports v (plainCodec.normalize v ports) := by
  have hphp := PortCodec.normalize_eq Php.codec_plain hports hv
    ((Php.parsePublicId_eq v).trans (mapError_id _).symm)
  have hruby := PortCodec.normalize_eq (Ruby.codec_plain unicode) hports hv
    (parseLowerPublicId_of_isPrintable (fun _ _ => rfl) unicode hv)
  have hjava := PortCodec.normalize_eq (Java.codec_plain java) hports hv
    (parseLowerPublicId_of_isPrintable (fun _ => utf16Length_of_isAscii) java.unicode hv)
  exact ⟨Rust.normalize_eq hv, hphp.trans (mapError_id _), hruby.trans (mapError_id _),
    hjava.trans (mapError_id _), hjava.trans (mapError_id _), Swift.normalize_eq hports hv⟩

/-- The plain port reads a public identifier, whatever its namespace. -/
theorem plain_normalize_of_publicId (hpublic : IsUpperHalfPublicId v) :
    plainCodec.normalize v ports ≠ .error .invalidPid := by
  obtain ⟨ns, hex, hns, hhex, rfl, -⟩ := hpublic
  have hrust : Rust.parsePublicId (publicIdText ns hex) =
      .ok ⟨publicIdText ns hex, ns, formatUuid hex⟩ :=
    Rust.parsePublicId_ok_iff.mpr ⟨ns, hex, hns, hhex, rfl, rfl⟩
  rw [Rust.parsePublicId_eq, mapError_eq_ok_iff] at hrust
  have hparse : plainCodec.parsePublicId (publicIdText ns hex) =
      .ok ⟨publicIdText ns hex, ns, formatUuid hex⟩ := hrust
  rw [PortCodec.normalize, if_pos (mem_publicIdText ns hex), hparse, ok_bind]
  by_cases hname : findNamespace ports ns ≠ none
  · rw [ensure_of hname]
    intro h
    contradiction
  · rw [ensure_of_not hname, error_bind]
    intro h
    exact absurd (Except.error.inj h) (by decide)

/-- **C#** gives the answer of the plain port but on the public identifiers it cannot read. -/
theorem CSharp.normalize_eq_iff (csharp : CSharp.Runtime) (hports : PortCodec.Accepted ports)
    (hv : Swift.IsPrintable v) :
    CSharp.normalize csharp v ports = (plainCodec.normalize v ports).mapError .error ↔
      ¬ IsUpperHalfPublicId v := by
  constructor
  · intro heq hpublic
    have hnormalize : CSharp.normalize csharp v ports = .error (.error .invalidPid) := by
      have hparse : (CSharp.codec csharp).parsePublicId v = .error (.error .invalidPid) :=
        CSharp.parsePublicId_of_upperHalf csharp.invariant hpublic
      obtain ⟨ns, hex, -, -, rfl, -⟩ := hpublic
      rw [CSharp.normalize, PortCodec.normalize, if_pos (mem_publicIdText ns hex), hparse]
      rfl
    rw [hnormalize] at heq
    cases hplain : plainCodec.normalize v ports with
    | ok w =>
        rw [hplain] at heq
        contradiction
    | error e =>
        rw [hplain] at heq
        obtain rfl := CSharp.Failure.error.inj (Except.error.inj heq)
        exact plain_normalize_of_publicId hpublic hplain
  · intro hpublic
    exact PortCodec.normalize_eq (CSharp.codec_plain csharp) hports hv
      (CSharp.parsePublicId_eq csharp.invariant hv hpublic)

def Java.asciiRuntime : Java.Runtime where
  unicode := asciiCaseMapping
  isDigit := Char.isDigit
  isDigit_ascii _ _ := rfl

def CSharp.asciiRuntime : CSharp.Runtime where
  invariant := asciiCaseMapping
  startsWith v w := w.isPrefixOf v
  startsWith_printable := Swift.asciiTexts.hasPrefix_printable

theorem isPrintable_sample : Swift.IsPrintable "ord-7k4m2p8q-3d9".toList := by
  have hall : ∀ c ∈ "ord-7k4m2p8q-3d9".toList, ' ' ≤ c ∧ c ≤ '~' := by decide
  exact hall

end Agreement

end Identifold
