import Identifold.Ports.GoCodec
import Identifold.Ports.PhpCodec
import Identifold.Ports.RustCodec
import Identifold.Ports.SwiftCodec

/-!
# Identifold.Ports.PublicIdCodec

The public identifier codecs of the ports, next to each other: those of the
Rust and the Go port are bijections that preserve the order, and those of the
Swift and the PHP port are the Rust one.

Both ports write and read `publicIdText`: the Rust codec in 128-bit words,
the Go codec in big integers and byte slices.  That writing and reading are
inverse follows from this description alone (`codecInverse_of_spec`); that
the 130 bits of a suffix fit the 128 of an identifier is the guard on its
first symbol.  The Swift and the PHP codec write and read it too, in lists of
bits (`bit_codecs_eq`).
-/

namespace Identifold

/-- The codec of a port is inverse: an accepted machine identifier is encoded
under every valid prefix and decoded to its lower-case form, and a decoded
public identifier is encoded back to itself. -/
def CodecInverse {ε : Type} (parseMachineId : Text → Except ε Text) (validPrefix : Text → Bool)
    (encode : Text → Text → Except ε Text) (decode : Text → Except ε ParsedPublicId) : Prop :=
  (∀ m ns, (∃ canonical, parseMachineId m = .ok canonical) → validPrefix ns = true →
    ∃ p, encode m ns = .ok p ∧ decode p = .ok ⟨p, ns, asciiLower m⟩) ∧
  ∀ p parsed, decode p = .ok parsed → encode parsed.machineId parsed.namespaceName = .ok p

/-- Codecs that write and read `publicIdText` are inverse. -/
theorem codecInverse_of_spec {ε : Type} {parseMachineId : Text → Except ε Text}
    {validPrefix : Text → Bool} {encode : Text → Text → Except ε Text}
    {decode : Text → Except ε ParsedPublicId}
    (hmachine : ∀ v w, parseMachineId v = .ok w ↔ IsMachineId w ∧ w = asciiLower v)
    (hpre : ∀ ns, validPrefix ns = isPublicPrefix ns)
    (hencode : ∀ m ns p, encode m ns = .ok p ↔ isPublicPrefix ns = true ∧ ∃ hex, IsMachineHex hex ∧
      asciiLower m = formatUuid hex ∧ p = publicIdText ns hex)
    (hdecode : ∀ p parsed, decode p = .ok parsed ↔ ∃ ns hex, isPublicPrefix ns = true ∧
      IsMachineHex hex ∧ p = publicIdText ns hex ∧ parsed = ⟨p, ns, formatUuid hex⟩) :
    CodecInverse parseMachineId validPrefix encode decode := by
  constructor
  · rintro m ns ⟨canonical, hm⟩ hns
    rw [hpre] at hns
    obtain ⟨⟨hex, hhex, hcanonical⟩, hlower⟩ := (hmachine m canonical).mp hm
    rw [hlower] at hcanonical
    refine ⟨publicIdText ns hex, (hencode m ns _).mpr ⟨hns, hex, hhex, hcanonical, rfl⟩, ?_⟩
    exact (hdecode _ _).mpr ⟨ns, hex, hns, hhex, rfl, by rw [hcanonical]⟩
  · intro p parsed hp
    obtain ⟨ns, hex, hns, hhex, rfl, rfl⟩ := (hdecode p parsed).mp hp
    exact (hencode _ _ _).mpr ⟨hns, hex, hhex, asciiLower_formatUuid hhex.1, rfl⟩

/-- **The public identifier codecs of both ports are bijections**, and a
suffix that passes the guard on its first symbol is decoded without loss. -/
theorem publicId_codecs_bijective (unicode : CaseMapping) :
    CodecInverse Rust.parseMachineId Rust.prefixValid Rust.publicIdFromMachineId
        Rust.parsePublicId ∧
      CodecInverse (Go.parseMachineId unicode) isPublicPrefix (Go.publicIdFromMachineId unicode)
        (Go.parsePublicId unicode) ∧
      ∀ s : Text, s.length = 26 → (∀ c ∈ s, c ∈ typeIdAlphabet) → (∀ c ∈ s.head?, c ≤ '7') →
        (∃ number, Rust.decodeSuffix s = .ok number ∧
          number.toNat = Radix.read typeIdAlphabet s ∧ Rust.encodeSuffix number = s) ∧
        ∃ bytes, Go.decodeTypeIdSuffix s = .ok bytes ∧ bytes.length = 16 ∧
          bytesValue bytes = Radix.read typeIdAlphabet s ∧ Go.encodeTypeIdSuffix bytes = s := by
  refine ⟨codecInverse_of_spec (fun _ _ => Rust.parseMachineId_ok_iff) (fun _ => Rust.prefixValid_eq)
      (fun _ _ _ => Rust.publicIdFromMachineId_ok_iff) fun _ _ => Rust.parsePublicId_ok_iff,
    codecInverse_of_spec (fun _ _ => Go.parseMachineId_ok_iff) (fun _ => rfl)
      (fun _ _ _ => Go.publicIdFromMachineId_ok_iff) fun _ _ => Go.parsePublicId_ok_iff, ?_⟩
  intro s hlen hs hguard
  have hsuffix : IsTypeIdSuffix s := ⟨hlen, hs, (head_le_seven_iff hlen hs).mp hguard⟩
  have hwrite : Radix.write typeIdAlphabet 26 (Radix.read typeIdAlphabet s) = s := by
    rw [← hlen, Radix.write_read (by decide) hs]
  constructor
  · have hnumber : (BitVec.ofNat 128 (Radix.read typeIdAlphabet s)).toNat =
        Radix.read typeIdAlphabet s := by
      rw [BitVec.toNat_ofNat, Nat.mod_eq_of_lt hsuffix.read_lt]
    exact ⟨_, Rust.decodeSuffix_ok_iff.mpr ⟨hsuffix, hnumber⟩, hnumber, by
      rw [Rust.encodeSuffix, Rust.encodeLoop_eq, hnumber, hwrite]⟩
  · have hvalue := bytesValue_digits (n := Radix.read typeIdAlphabet s) hsuffix.read_lt
    exact ⟨_, Go.decodeTypeIdSuffix_ok_iff.mpr ⟨hsuffix, rfl⟩, by simp, hvalue, by
      rw [Go.encodeTypeIdSuffix, Go.encodeLoop_eq, hvalue, hwrite]⟩

/-! ## order -/

/-- Under a valid namespace the machine identifiers have public identifiers,
and wherever they have, these are in the order of the machine identifiers. -/
def OrderPreserved {ε : Type} (encode : Text → Text → Except ε Text) (ns a b : Text) : Prop :=
  (isPublicPrefix ns = true → ∃ pa pb, encode a ns = .ok pa ∧ encode b ns = .ok pb) ∧
    ∀ pa pb, encode a ns = .ok pa → encode b ns = .ok pb → (a < b ↔ pa < pb)

/-- Codecs that write `publicIdText` preserve the order. -/
theorem orderPreserved_of_spec {ε : Type} {encode : Text → Text → Except ε Text}
    (hencode : ∀ m ns p, encode m ns = .ok p ↔ isPublicPrefix ns = true ∧ ∃ hex, IsMachineHex hex ∧
      asciiLower m = formatUuid hex ∧ p = publicIdText ns hex) {a b : Text} (ha : IsMachineId a)
    (hb : IsMachineId b) (ns : Text) : OrderPreserved encode ns a b := by
  obtain ⟨x, hx, rfl⟩ := ha
  obtain ⟨y, hy, rfl⟩ := hb
  refine ⟨fun hns => ⟨publicIdText ns x, publicIdText ns y,
    (hencode _ _ _).mpr ⟨hns, x, hx, asciiLower_formatUuid hx.1, rfl⟩,
    (hencode _ _ _).mpr ⟨hns, y, hy, asciiLower_formatUuid hy.1, rfl⟩⟩, ?_⟩
  intro pa pb hpa hpb
  obtain ⟨-, x', hx', hlowerx, rfl⟩ := (hencode _ _ _).mp hpa
  obtain ⟨-, y', hy', hlowery, rfl⟩ := (hencode _ _ _).mp hpb
  rw [asciiLower_formatUuid hx.1] at hlowerx
  rw [asciiLower_formatUuid hy.1] at hlowery
  rw [publicIdText_lt_publicIdText_iff ns hx'.1 hy'.1, hlowerx, hlowery]

/-- **Public identifiers preserve the order of machine identifiers**, in the
Rust and in the Go port. -/
theorem publicId_order (unicode : CaseMapping) {a b : Text} (ha : IsMachineId a)
    (hb : IsMachineId b) (ns : Text) :
    OrderPreserved Rust.publicIdFromMachineId ns a b ∧
      OrderPreserved (Go.publicIdFromMachineId unicode) ns a b :=
  ⟨orderPreserved_of_spec (fun _ _ _ => Rust.publicIdFromMachineId_ok_iff) ha hb ns,
    orderPreserved_of_spec (fun _ _ _ => Go.publicIdFromMachineId_ok_iff) ha hb ns⟩

/-- Two identifiers of one millisecond. -/
theorem publicId_order_sample :
    OrderPreserved Rust.publicIdFromMachineId "order".toList
        "019f0000-0000-7000-8000-000000000001".toList "019f0000-0000-7000-8000-00000000000a".toList ∧
      OrderPreserved (Go.publicIdFromMachineId asciiCaseMapping) "order".toList
        "019f0000-0000-7000-8000-000000000001".toList
        "019f0000-0000-7000-8000-00000000000a".toList :=
  publicId_order asciiCaseMapping
    ⟨"019f0000000070008000000000000001".toList, by simp only [IsMachineHex, IsHex32]; decide, by decide⟩
    ⟨"019f000000007000800000000000000a".toList, by simp only [IsMachineHex, IsHex32]; decide, by decide⟩
    "order".toList

/-! ## lists of bits -/

/-- **The bit codecs of the Swift and the PHP port are the arithmetic codec of
the Rust port**: they write the same suffix for every machine identifier and
every namespace, and read the same texts, among the printable ones, into the
same identifiers. -/
theorem bit_codecs_eq (strings : Swift.StringLibrary) :
    (∀ m ns, (∃ canonical, Rust.parseMachineId m = .ok canonical) → isPublicPrefix ns = true →
      ∃ number, Rust.machineNumber m = .ok number ∧ (Rust.encodeSuffix number).length = 26 ∧
        Swift.publicID strings m ns = .ok (ns ++ '_' :: Rust.encodeSuffix number) ∧
        Php.publicIdFromMachineId m ns = .ok (ns ++ '_' :: Rust.encodeSuffix number)) ∧
    ∀ p, Swift.IsPrintable p → ∀ parsed,
      (Swift.parsePublicID strings p = .ok parsed ↔ Rust.parsePublicId p = .ok parsed) ∧
        (Php.parsePublicId p = .ok parsed ↔ Rust.parsePublicId p = .ok parsed) := by
  constructor
  · rintro m ns ⟨canonical, hm⟩ hns
    obtain ⟨⟨hex, hhex, rfl⟩, hlower⟩ := Rust.parseMachineId_ok_iff.mp hm
    have hnumber : (BitVec.ofNat 128 (Radix.read hexAlphabet hex)).toNat =
        Radix.read hexAlphabet hex := by
      rw [BitVec.toNat_ofNat, Nat.mod_eq_of_lt hhex.1.read_lt]
    have hsuffix : Rust.encodeSuffix (BitVec.ofNat 128 (Radix.read hexAlphabet hex)) =
        suffixOfHex hex := by
      rw [Rust.encodeSuffix, Rust.encodeLoop_eq, hnumber, suffixOfHex]
    have hanchored : Swift.anchored isPublicPrefix ns = true :=
      Swift.anchored_iff.mpr ⟨ns, [], hns, by simp, by simp⟩
    refine ⟨_, Rust.machineNumber_ok_iff.mpr ⟨hex, hhex, hlower.symm, hnumber⟩, ?_⟩
    rw [hsuffix]
    refine ⟨(isTypeIdSuffix_suffixOfHex hhex.1).1, ?_,
      Php.publicIdFromMachineId_of_hex hns hhex hlower.symm⟩
    rw [@Swift.publicID_of_accepted strings m ns hex [] hanchored hhex (by simp) (by simp [hlower]), if_pos rfl]
    rfl
  · intro p hp parsed
    rw [Swift.parsePublicID_ok_iff hp, Php.parsePublicId_ok_iff, Rust.parsePublicId_ok_iff]
    exact ⟨.rfl, .rfl⟩

end Identifold
