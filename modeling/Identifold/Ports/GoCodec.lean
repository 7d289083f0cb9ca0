import Identifold.HexBytes

/-!
# Identifold.Ports.GoCodec

The machine and public identifiers of the Go port (`packages/go/identifold.go`).

The codec works on `big.Int` values and byte slices: the suffix decoder takes
the number's bytes without leading zeros and copies them to the end of a
16-byte slice (`decodeTypeIdSuffix_ok_iff`), and the encoder divides the
number of 16 decoded bytes by 32, 26 times.
-/

namespace Identifold.Go

open Separated

/-- The errors of the port: its own with their code, or those of a library. -/
inductive Failure
  | error (code : IdentifoldErrorCode)
  | foreign
  deriving DecidableEq, Repr

/-- `big.Int.Bytes`: big-endian, without leading zeros. -/
def bigBytes (number : Nat) : List UInt8 := (Nat.digits 256 number).reverse.map UInt8.ofNat

/-! ## the codec -/

/-- `ParseMachineID`. -/
def parseMachineId (unicode : CaseMapping) (value : Text) : Except Failure Text := do
  let canonical := unicode.toLower value
  ensure (machinePattern canonical = true) (.error .invalidMid)
  ensure (canonical[14]? = some '7') (.error .invalidUuidVersion)
  ensure (∃ c ∈ "89ab".toList, canonical[19]? = some c) (.error .invalidMid)
  return canonical

/-- `uuidBytes`. -/
def uuidBytes (unicode : CaseMapping) (value : Text) : Except Failure (List UInt8) := do
  let canonical ← parseMachineId unicode value
  match hexDecode (strip '-' canonical) with
  | some bytes => return bytes
  | none => throw .foreign

/-- The loop of `encodeTypeIDSuffix`, from the last symbol to the first. -/
def encodeLoop : Nat → Nat → Text
  | 0, _ => []
  | n + 1, value => encodeLoop n (value / 32) ++ charAt typeIdAlphabet (value % 32)

/-- `encodeTypeIDSuffix`. -/
def encodeTypeIdSuffix (bytes : List UInt8) : Text := encodeLoop 26 (bytesValue bytes)

/-- The loop of `decodeTypeIDSuffix`. -/
def decodeLoop (number : Nat) : Text → Except Failure Nat
  | [] => .ok number
  | symbol :: value =>
      if symbol ∈ typeIdAlphabet then
        decodeLoop (number <<< 5 ||| typeIdAlphabet.idxOf symbol) value
      else .error (.error .invalidPid)

/-- `decodeTypeIDSuffix`. -/
def decodeTypeIdSuffix (value : Text) : Except Failure (List UInt8) := do
  ensure (utf8Length value = 26 ∧ ∀ c ∈ value.head?, c ≤ '7') (.error .invalidPid)
  let number ← decodeLoop 0 value
  let bytes := bigBytes number
  ensure (bytes.length ≤ 16) (.error .invalidPid)
  return List.replicate (16 - bytes.length) 0 ++ bytes

/-- `bytesToMachineID`. -/
def bytesToMachineId (bytes : List UInt8) : Text := formatUuid (hexEncode bytes)

/-- `PublicIDFromMachineID`. -/
def publicIdFromMachineId (unicode : CaseMapping) (machineId namespaceName : Text) :
    Except Failure Text := do
  ensure (isPublicPrefix namespaceName = true) (.error .invalidPublicPrefix)
  let bytes ← uuidBytes unicode machineId
  return namespaceName ++ '_' :: encodeTypeIdSuffix bytes

/-- `ParsePublicID`. -/
def parsePublicId (unicode : CaseMapping) (value : Text) : Except Failure ParsedPublicId := do
  ensure (value = unicode.toLower value) (.error .invalidPid)
  match rsplitOnce '_' value with
  | none => throw (.error .invalidPublicPrefix)
  | some (namespaceName, suffix) =>
      ensure (isPublicPrefix namespaceName = true) (.error .invalidPublicPrefix)
      let bytes ← decodeTypeIdSuffix suffix
      let machineId ← (parseMachineId unicode (bytesToMachineId bytes)).mapError fun e =>
        if e = .error .invalidUuidVersion then .error .invalidPid else e
      return { value := value, namespaceName := namespaceName, machineId := machineId }

/-! ## machine identifiers are accepted -/

section MachineId

variable {unicode : CaseMapping} {v w : Text}

/-- **`ParseMachineID` accepts machine identifiers.** -/
theorem parseMachineId_ok_iff :
    parseMachineId unicode v = .ok w ↔ IsMachineId w ∧ w = asciiLower v := by
  simp only [parseMachineId, bind_eq_ok_iff, ensure_eq_ok_iff, pure_eq_ok_iff]
  constructor
  · rintro ⟨_, hpattern, _, hversion, _, hvariant, rfl⟩
    obtain ⟨hex, hhex, heq⟩ := machinePattern_iff.mp hpattern
    have hlower := unicode.toLower_of_hex (v := v) fun c hc => by
      rcases mem_formatUuid hhex (heq ▸ hc) with hd | rfl
      · exact .inl (by rwa [toLower_of_mem_hexAlphabet hd])
      · exact .inr rfl
    exact ⟨isMachineId_iff.mpr ⟨hpattern, hversion, hvariant⟩, hlower.2⟩
  · rintro ⟨hmachine, rfl⟩
    have hascii := hmachine.facts.2.1
    rw [unicode.toLower_ascii v ((isAscii_asciiLower_iff v).mp hascii)]
    obtain ⟨hpattern, hversion, hvariant⟩ := isMachineId_iff.mp hmachine
    exact ⟨(), hpattern, (), hversion, (), hvariant, rfl⟩

end MachineId

/-! ## numbers -/

theorem encodeLoop_eq (n value : Nat) : encodeLoop n value = Radix.write typeIdAlphabet n value := by
  induction n generalizing value with
  | zero => rfl
  | succ n ih =>
      rw [encodeLoop, ih, Radix.write_succ]
      rfl

theorem decodeLoop_eq (number : Nat) (value : Text) :
    decodeLoop number value = readSuffix (.error .invalidPid) number value := by
  induction value generalizing number with
  | nil => rfl
  | cons c value ih => rw [decodeLoop, readSuffix, ih]

/-- The decoder reads the number its symbols denote. -/
theorem decodeLoop_ok_iff {value : Text} {number result : Nat} :
    decodeLoop number value = .ok result ↔ (∀ c ∈ value, c ∈ typeIdAlphabet) ∧
      result = number * 32 ^ value.length + Radix.read typeIdAlphabet value := by
  rw [decodeLoop_eq]
  by_cases h : ∀ c ∈ value, c ∈ typeIdAlphabet
  · rw [readSuffix_of_mem _ h, Except.ok.injEq, eq_comm]
    exact (and_iff_right h).symm
  · rw [readSuffix_of_not_mem _ h]
    simp [h]

/-- **Sixteen bytes suffice**: a suffix that passes the guard on its first
symbol is decoded to the 16 bytes of the number it denotes. -/
theorem decodeTypeIdSuffix_ok_iff {s : Text} {bytes : List UInt8} :
    decodeTypeIdSuffix s = .ok bytes ↔ IsTypeIdSuffix s ∧
      bytes = (Radix.digits 256 16 (Radix.read typeIdAlphabet s)).map UInt8.ofNat := by
  have hpadded : ∀ n < 2 ^ 128, (bigBytes n).length ≤ 16 ∧
      List.replicate (16 - (bigBytes n).length) 0 ++ bigBytes n =
        (Radix.digits 256 16 n).map UInt8.ofNat := by
    intro n hn
    have hlt : n < 256 ^ 16 := Nat.lt_of_lt_of_eq hn (by norm_num)
    have hlen : (bigBytes n).length = (Nat.digits 256 n).length := by simp [bigBytes]
    refine ⟨by rw [hlen]; exact (Nat.digits_length_le_iff (by decide) n).mpr hlt, ?_⟩
    rw [← Radix.replicate_append_digits (by decide) hlt, List.map_append, List.map_replicate, hlen]
    rfl
  simp only [decodeTypeIdSuffix, bind_eq_ok_iff, ensure_eq_ok_iff, pure_eq_ok_iff,
    decodeLoop_ok_iff, Nat.zero_mul, Nat.zero_add]
  constructor
  · rintro ⟨_, hguard, number, ⟨hs, hnumber⟩, _, -, hbytes⟩
    have hsuffix := (suffix_guard_iff hs).mp hguard
    rw [hnumber, (hpadded _ hsuffix.read_lt).2] at hbytes
    exact ⟨hsuffix, hbytes.symm⟩
  · rintro ⟨hsuffix, hresult⟩
    obtain ⟨hfit, hbytes⟩ := hpadded _ hsuffix.read_lt
    exact ⟨(), (suffix_guard_iff hsuffix.2.1).mpr hsuffix, _, ⟨hsuffix.2.1, rfl⟩, (), hfit,
      hbytes.trans hresult.symm⟩

/-- Any other suffix is an `invalid_pid`. -/
theorem decodeTypeIdSuffix_error {s : Text} (h : ¬ IsTypeIdSuffix s) :
    decodeTypeIdSuffix s = .error (.error .invalidPid) := by
  cases hdecode : decodeTypeIdSuffix s with
  | ok bytes => exact absurd (decodeTypeIdSuffix_ok_iff.mp hdecode).1 h
  | error e =>
      rw [decodeTypeIdSuffix, decodeLoop_eq] at hdecode
      by_cases hguard : utf8Length s = 26 ∧ ∀ c ∈ s.head?, c ≤ '7'
      · rw [ensure_of hguard, ok_bind] at hdecode
        by_cases hsymbols : ∀ c ∈ s, c ∈ typeIdAlphabet
        · exact absurd ((suffix_guard_iff hsymbols).mp hguard) h
        · rw [readSuffix_of_not_mem _ hsymbols, error_bind] at hdecode
          exact hdecode.symm
      · rw [ensure_of_not hguard, error_bind] at hdecode
        exact hdecode.symm

/-! ## public identifiers -/

section PublicId

variable {unicode : CaseMapping}

/-- `uuidBytes` reads the 128 bits of an accepted identifier. -/
theorem uuidBytes_ok {v : Text} {bytes : List UInt8} (h : uuidBytes unicode v = .ok bytes) :
    ∃ hex, IsMachineHex hex ∧ asciiLower v = formatUuid hex ∧
      bytesValue bytes = Radix.read hexAlphabet hex := by
  simp only [uuidBytes, bind_eq_ok_iff, parseMachineId_ok_iff] at h
  obtain ⟨_, ⟨⟨hex, hhex, hlower⟩, rfl⟩, h⟩ := h
  obtain ⟨decoded, hdecode, hvalue, -⟩ := hexDecode_of_hex hhex.1.2 (by rw [hhex.1.1])
  rw [hlower, strip_formatUuid hhex.1, hdecode] at h
  rw [← pure_eq_ok_iff.mp h]
  exact ⟨hex, hhex, hlower, hvalue⟩

theorem uuidBytes_of_machineHex {v hex : Text} (hhex : IsMachineHex hex)
    (hlower : asciiLower v = formatUuid hex) : ∃ bytes, uuidBytes unicode v = .ok bytes ∧
      bytesValue bytes = Radix.read hexAlphabet hex := by
  obtain ⟨decoded, hdecode, hvalue, -⟩ := hexDecode_of_hex hhex.1.2 (by rw [hhex.1.1])
  refine ⟨decoded, ?_, hvalue⟩
  simp only [uuidBytes, bind_eq_ok_iff, parseMachineId_ok_iff]
  refine ⟨_, ⟨⟨hex, hhex, hlower⟩, rfl⟩, ?_⟩
  rw [hlower, strip_formatUuid hhex.1, hdecode]
  rfl

/-- **`PublicIDFromMachineID` writes public identifiers.** -/
theorem publicIdFromMachineId_ok_iff {machineId namespaceName p : Text} :
    publicIdFromMachineId unicode machineId namespaceName = .ok p ↔
      isPublicPrefix namespaceName = true ∧ ∃ hex, IsMachineHex hex ∧
        asciiLower machineId = formatUuid hex ∧ p = publicIdText namespaceName hex := by
  simp only [publicIdFromMachineId, bind_eq_ok_iff, ensure_eq_ok_iff, pure_eq_ok_iff,
    encodeTypeIdSuffix, encodeLoop_eq]
  constructor
  · rintro ⟨_, hns, bytes, hbytes, rfl⟩
    obtain ⟨hex, hhex, hlower, hvalue⟩ := uuidBytes_ok hbytes
    exact ⟨hns, hex, hhex, hlower, by rw [hvalue]; rfl⟩
  · rintro ⟨hns, hex, hhex, hlower, rfl⟩
    obtain ⟨bytes, hbytes, hvalue⟩ : ∃ bytes, uuidBytes unicode machineId = .ok bytes ∧
        bytesValue bytes = Radix.read hexAlphabet hex := uuidBytes_of_machineHex hhex hlower
    exact ⟨(), hns, bytes, hbytes, by rw [hvalue]; rfl⟩

/-- **`ParsePublicID` reads public identifiers.** -/
theorem parsePublicId_ok_iff {v : Text} {result : ParsedPublicId} :
    parsePublicId unicode v = .ok result ↔
      ∃ ns hex, isPublicPrefix ns = true ∧ IsMachineHex hex ∧ v = publicIdText ns hex ∧
        result = ⟨v, ns, formatUuid hex⟩ := by
  have hmachine : ∀ s, bytesToMachineId
      ((Radix.digits 256 16 (Radix.read typeIdAlphabet s)).map UInt8.ofNat) =
        formatUuid (hexOfSuffix s) := fun s => by
    rw [bytesToMachineId, hexEncode_digits]
    rfl
  simp only [parsePublicId, bind_eq_ok_iff, ensure_eq_ok_iff]
  constructor
  · rintro ⟨_, -, h⟩
    split at h
    · contradiction
    · next ns s hsplit =>
        simp only [bind_eq_ok_iff, ensure_eq_ok_iff, pure_eq_ok_iff, decodeTypeIdSuffix_ok_iff,
          mapError_eq_ok_iff, parseMachineId_ok_iff] at h
        obtain ⟨_, hns, bytes, ⟨hsuffix, hbytes⟩, w, ⟨hid, hw⟩, hresult⟩ := h
        obtain ⟨hhex, hv⟩ := exists_publicIdText_iff.mp ⟨s, hsplit, hsuffix, rfl⟩
        rw [hbytes, hmachine, asciiLower_formatUuid hhex] at hw
        rw [hw] at hid hresult
        exact ⟨ns, hexOfSuffix s, hns, isMachineHex_of_formatUuid hhex hid, hv, hresult.symm⟩
  · rintro ⟨ns, hex, hns, hhex, rfl, rfl⟩
    obtain ⟨s, hsplit, hsuffix, hhexs⟩ := exists_publicIdText_iff.mpr
      ⟨hhex.1, (rfl : publicIdText ns hex = publicIdText ns hex)⟩
    obtain ⟨hascii, hlower⟩ := publicIdText_facts hns hhex.1
    refine ⟨(), by rw [unicode.toLower_ascii _ hascii, hlower], ?_⟩
    rw [hsplit]
    simp only [bind_eq_ok_iff, ensure_eq_ok_iff, pure_eq_ok_iff, decodeTypeIdSuffix_ok_iff,
      mapError_eq_ok_iff, parseMachineId_ok_iff]
    refine ⟨(), hns, _, ⟨hsuffix, rfl⟩, formatUuid hex, ⟨⟨hex, hhex, rfl⟩, ?_⟩, rfl⟩
    rw [hmachine, hhexs, asciiLower_formatUuid hhex.1]

end PublicId

end Identifold.Go
