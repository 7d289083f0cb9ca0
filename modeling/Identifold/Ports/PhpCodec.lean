import Identifold.HexBytes

/-!
# Identifold.Ports.PhpCodec

The machine and public identifiers of the PHP port
(`packages/php/src/Identifold.php`).

The codec prints the bytes in binary, cuts the text of 130 zeros and ones into
groups of five, and back into groups of eight.  A PHP string is a string of
bytes; here its bytes are the symbols of a `Text`.

* `readSuffixSymbols_ok_iff` — the bits of a suffix;
* `publicIdFromMachineId_of_hex`, `parsePublicId_ok_iff` — what is written, and
  what is read.
-/

namespace Identifold.Php

open Separated

/-! ## the codec -/

/-- `hexdec`: other symbols than hexadecimal digits are passed over. -/
def hexdec (v : Text) : Nat := Radix.read hexAlphabet ((asciiLower v).filter (· ∈ hexAlphabet))

/-- `bindec`: other symbols than `0` and `1` are passed over. -/
def bindec (v : Text) : Nat := Radix.read "01".toList (v.filter (· ∈ "01".toList))

/-- `parseMachineId`. -/
def parseMachineId (input : Text) : Except IdentifoldErrorCode Text := do
  let value := asciiLower input
  ensure (machinePattern value = true) .invalidMid
  ensure (value[14]? = some '7') .invalidUuidVersion
  ensure (∃ c ∈ "89ab".toList, value[19]? = some c) .invalidMid
  return value

/-- `publicIdFromMachineId`. -/
def publicIdFromMachineId (machineId namespaceName : Text) : Except IdentifoldErrorCode Text := do
  ensure (isPublicPrefix namespaceName = true) .invalidPublicPrefix
  let canonical ← parseMachineId machineId
  let hex := strip '-' canonical
  let bits := ['0', '0'] ++
    (chunks 2 hex).flatMap fun byte => padStart 8 (Nat.toDigits 2 (hexdec byte))
  let suffix := (chunks 5 bits).flatMap fun chunk => charAt typeIdAlphabet (bindec chunk)
  return namespaceName ++ '_' :: suffix

/-- The bits of a symbol of a suffix. -/
def positionBits (symbol : Char) : Except IdentifoldErrorCode Text :=
  if symbol ∈ typeIdAlphabet then
    .ok (padStart 5 (Nat.toDigits 2 (typeIdAlphabet.idxOf symbol)))
  else .error .invalidPid

/-- The part of `parsePublicId` from the suffix to the digits of the machine
identifier. -/
def readSuffixSymbols (suffix : Text) : Except IdentifoldErrorCode Text := do
  let positions ← suffix.mapM positionBits
  let bits := positions.flatten
  ensure (bits.take 2 = "00".toList) .invalidPid
  return (chunks 8 (bits.drop 2)).flatMap fun byte => padStart 2 (Nat.toDigits 16 (bindec byte))

/-- `parsePublicId`. -/
def parsePublicId (value : Text) : Except IdentifoldErrorCode ParsedPublicId := do
  ensure (value = asciiLower value) .invalidPid
  match rsplitOnce '_' value with
  | none => throw .invalidPublicPrefix
  | some (namespaceName, suffix) =>
      ensure (isPublicPrefix namespaceName = true) .invalidPublicPrefix
      ensure (suffix.length = 26 ∧ ∀ c ∈ suffix.head?, c ≤ '7') .invalidPid
      let hex ← readSuffixSymbols suffix
      match parseMachineId (formatUuid hex) with
      | .ok machineId =>
          return { value := value, namespaceName := namespaceName, machineId := machineId }
      | .error _ => throw .invalidPid

/-! ## machine identifiers -/

section MachineId

variable {m v w ns hex : Text}

/-- **`parseMachineId` accepts machine identifiers.** -/
theorem parseMachineId_ok_iff : parseMachineId v = .ok w ↔ IsMachineId w ∧ w = asciiLower v := by
  simp only [parseMachineId, bind_eq_ok_iff, ensure_eq_ok_iff, pure_eq_ok_iff]
  constructor
  · rintro ⟨_, hpattern, _, hversion, _, hvariant, rfl⟩
    exact ⟨isMachineId_iff.mpr ⟨hpattern, hversion, hvariant⟩, rfl⟩
  · rintro ⟨hmachine, rfl⟩
    obtain ⟨hpattern, hversion, hvariant⟩ := isMachineId_iff.mp hmachine
    exact ⟨(), hpattern, (), hversion, (), hvariant, rfl⟩

/-! ## numerals -/

theorem hexdec_of_hex (h : ∀ c ∈ hex, c ∈ hexAlphabet) : hexdec hex = Radix.read hexAlphabet hex := by
  have hlower : asciiLower hex = hex := asciiLower_eq_self fun c hc => (hexAlphabet_facts c (h c hc)).2.1
  rw [hexdec, hlower, List.filter_eq_self.mpr (by simpa using h)]

/-- The bytes of 32 hexadecimal digits. -/
theorem map_hexdec_chunks (h : IsHex32 hex) :
    (chunks 2 hex).map hexdec = Radix.digits 256 16 (Radix.read hexAlphabet hex) := by
  have hdigits := Radix.digits_value (b := 16) (by decide) (Radix.idxOf_lt_of_forall_mem h.2)
  rw [List.length_map, h.1] at hdigits
  have hbytes := Radix.map_value_chunks_digits (b := 16) (k := 2) (by decide) (by decide) 16
    (Radix.read hexAlphabet hex)
  have hbyte : ∀ byte ∈ chunks 2 hex, hexdec byte = Radix.value 16 (byte.map hexAlphabet.idxOf) := by
    intro byte hmem
    refine hexdec_of_hex fun c hc => h.2 c ?_
    rw [← flatten_chunks (by decide : 0 < 2) hex]
    exact List.mem_flatten.mpr ⟨byte, hmem, hc⟩
  calc (chunks 2 hex).map hexdec
      = ((chunks 2 hex).map (List.map hexAlphabet.idxOf)).map (Radix.value 16) := by
        rw [List.map_map]
        exact List.map_congr_left hbyte
    _ = (chunks 2 (Radix.digits 16 (16 * 2) (Radix.read hexAlphabet hex))).map (Radix.value 16) := by
        rw [← chunks_map]
        exact congrArg (fun ds => (chunks 2 ds).map (Radix.value 16)) hdigits.symm
    _ = Radix.digits 256 16 (Radix.read hexAlphabet hex) := hbytes

/-- Bits are printed as the symbols `0` and `1`. -/
theorem bindec_map_digitChar {bits : List Nat} (h : ∀ bit ∈ bits, bit < 2) :
    bindec (bits.map Nat.digitChar) = Radix.value 2 bits := by
  have hbit : ∀ bit < 2, Nat.digitChar bit ∈ "01".toList ∧
      "01".toList.idxOf (Nat.digitChar bit) = bit := by decide
  have hfilter : (bits.map Nat.digitChar).filter (· ∈ "01".toList) = bits.map Nat.digitChar := by
    rw [List.filter_eq_self]
    intro c hc
    obtain ⟨bit, hmem, rfl⟩ := List.mem_map.mp hc
    exact decide_eq_true (hbit bit (h bit hmem)).1
  have hidx : (bits.map Nat.digitChar).map "01".toList.idxOf = bits := by
    rw [List.map_map]
    exact (List.map_congr_left fun bit hmem => (hbit bit (h bit hmem)).2).trans (List.map_id _)
  rw [bindec, hfilter, Radix.read, hidx]
  rfl

/-- The groups of a printed list of bits are read in binary. -/
theorem map_bindec_chunks {size w : Nat} (hsize : 0 < size) (n : Nat) :
    (chunks size ((Radix.digits 2 (w * size) n).map Nat.digitChar)).map bindec =
      Radix.digits (2 ^ size) w n := by
  rw [← Radix.map_value_chunks_digits (by decide) hsize w n, chunks_map, List.map_map]
  refine List.map_congr_left fun chunk hmem => bindec_map_digitChar fun bit hbit => ?_
  apply Radix.digits_lt (by decide) (w * size) n
  rw [← flatten_chunks hsize (Radix.digits 2 (w * size) n)]
  exact List.mem_flatten.mpr ⟨chunk, hmem, hbit⟩

/-- Digits printed in binary on a width they fit. -/
theorem flatMap_padStart_bits {width : Nat} (hwidth : 0 < width) {ds : List Nat}
    (h : ∀ d ∈ ds, d < 2 ^ width) :
    ds.flatMap (fun d => padStart width (Nat.toDigits 2 d)) =
      (ds.flatMap (Radix.digits 2 width)).map Nat.digitChar := by
  rw [List.map_flatMap]
  exact List.flatMap_congr fun d hd => padStart_toDigits (by decide) hwidth (h d hd)

end MachineId

/-! ## public identifiers -/

section PublicId

variable {m ns hex : Text}

/-- The groups of five bits are the positions of a suffix's symbols. -/
theorem flatMap_bindec_chunks (n : Nat) :
    (chunks 5 ((Radix.digits 2 130 n).map Nat.digitChar)).flatMap
      (fun chunk => charAt typeIdAlphabet (bindec chunk)) = Radix.write typeIdAlphabet 26 n := by
  have hpositions : (chunks 5 ((Radix.digits 2 130 n).map Nat.digitChar)).map bindec =
      Radix.digits 32 26 n := @map_bindec_chunks 5 26 (by decide) n
  have hsymbol : ∀ d ∈ Radix.digits 32 26 n, charAt typeIdAlphabet d = [typeIdAlphabet.getD d '0'] := by
    intro d hd
    have hlt : d < typeIdAlphabet.length := Radix.digits_lt (by decide) 26 n d hd
    simp [charAt, hlt]
  rw [← List.flatMap_map bindec (charAt typeIdAlphabet), hpositions, List.flatMap_congr hsymbol,
    ← map_typeIdAlphabet, List.map_eq_flatMap]

/-- **`publicIdFromMachineId` writes public identifiers.** -/
theorem publicIdFromMachineId_of_hex (hns : isPublicPrefix ns = true) (hhex : IsMachineHex hex)
    (hlower : asciiLower m = formatUuid hex) :
    publicIdFromMachineId m ns = .ok (publicIdText ns hex) := by
  have hparse : parseMachineId m = .ok (formatUuid hex) :=
    parseMachineId_ok_iff.mpr ⟨⟨hex, hhex, rfl⟩, hlower.symm⟩
  have hlt : ∀ byte ∈ Radix.digits 256 16 (Radix.read hexAlphabet hex), byte < 2 ^ 8 :=
    Radix.digits_lt (by decide) 16 _
  have hbits : ['0', '0'] ++ (chunks 2 hex).flatMap
      (fun byte => padStart 8 (Nat.toDigits 2 (hexdec byte))) =
        (Radix.digits 2 130 (Radix.read hexAlphabet hex)).map Nat.digitChar := by
    rw [← List.flatMap_map hexdec fun byte => padStart 8 (Nat.toDigits 2 byte),
      map_hexdec_chunks hhex.1, flatMap_padStart_bits (by decide) hlt, ← bits_of_bytes hhex.1.read_lt,
      List.map_append]
    rfl
  rw [publicIdFromMachineId, ensure_of hns, ok_bind, hparse, ok_bind, strip_formatUuid hhex.1]
  simp only [hbits, flatMap_bindec_chunks]
  rfl

/-- **The bits of a suffix** that passes the guard on its first symbol are read
into its digits; another symbol is an error. -/
theorem readSuffixSymbols_ok_iff {s : Text} (hlen : s.length = 26) (hhead : ∀ c ∈ s.head?, c ≤ '7') :
    readSuffixSymbols s = .ok hex ↔ (∀ c ∈ s, c ∈ typeIdAlphabet) ∧ hex = hexOfSuffix s := by
  by_cases hs : ∀ c ∈ s, c ∈ typeIdAlphabet
  · have hlt := (read_lt_iff hlen hs).mpr ((head_le_seven_iff hlen hs).mp hhead)
    have hposition : ∀ c ∈ s,
        positionBits c = .ok (padStart 5 (Nat.toDigits 2 (typeIdAlphabet.idxOf c))) := by
      intro c hc
      rw [positionBits, if_pos (hs c hc)]
    have hdigit : ∀ d ∈ s.map typeIdAlphabet.idxOf, d < 2 ^ 5 := Radix.idxOf_lt_of_forall_mem hs
    have hbits : (s.map fun c => padStart 5 (Nat.toDigits 2 (typeIdAlphabet.idxOf c))).flatten =
        '0' :: '0' :: (Radix.digits 2 128 (Radix.read typeIdAlphabet s)).map Nat.digitChar := by
      rw [← List.flatMap_def, ← List.flatMap_map typeIdAlphabet.idxOf
        fun d => padStart 5 (Nat.toDigits 2 d), flatMap_padStart_bits (by decide) hdigit,
        map_idxOf_suffix hlen hs, bits_of_positions, bits_eq_cons hlt, List.map_append]
      rfl
    have hbytes : (chunks 8 ((Radix.digits 2 128 (Radix.read typeIdAlphabet s)).map
        Nat.digitChar)).map bindec = Radix.digits 256 16 (Radix.read typeIdAlphabet s) :=
      @map_bindec_chunks 8 16 (by decide) _
    have hhex : (chunks 8 ((Radix.digits 2 128 (Radix.read typeIdAlphabet s)).map
        Nat.digitChar)).flatMap (fun byte => padStart 2 (Nat.toDigits 16 (bindec byte))) =
          hexOfSuffix s := by
      rw [← List.flatMap_map bindec fun byte => padStart 2 (Nat.toDigits 16 byte), hbytes]
      exact flatMap_padStart_bytes _
    rw [readSuffixSymbols, mapM_eq_ok hposition, ok_bind]
    simp only [hbits, List.drop_succ_cons, List.drop_zero, hhex, bind_eq_ok_iff, ensure_eq_ok_iff,
      pure_eq_ok_iff]
    constructor
    · rintro ⟨_, -, h⟩
      exact ⟨hs, h.symm⟩
    · rintro ⟨-, h⟩
      exact ⟨(), rfl, h.symm⟩
  · refine iff_of_false (fun h => hs fun c hc => ?_) fun h => hs h.1
    rw [readSuffixSymbols, bind_eq_ok_iff] at h
    obtain ⟨positions, hpositions, -⟩ := h
    obtain ⟨bits, hbits⟩ := exists_ok_of_mapM hpositions c hc
    by_contra hnot
    simp [positionBits, hnot] at hbits

/-- **`parsePublicId` reads public identifiers.** -/
theorem parsePublicId_ok_iff {v : Text} {result : ParsedPublicId} :
    parsePublicId v = .ok result ↔
      ∃ ns hex, isPublicPrefix ns = true ∧ IsMachineHex hex ∧ v = publicIdText ns hex ∧
        result = ⟨v, ns, formatUuid hex⟩ := by
  constructor
  · intro h
    cases hsplit : rsplitOnce '_' v with
    | none =>
        simp only [parsePublicId, hsplit, bind_eq_ok_iff] at h
        obtain ⟨_, -, h⟩ := h
        contradiction
    | some p =>
        obtain ⟨ns, s⟩ := p
        simp only [parsePublicId, hsplit, bind_eq_ok_iff, ensure_eq_ok_iff] at h
        obtain ⟨_, -, _, hns, _, ⟨hlen, hhead⟩, hex, hread, h⟩ := h
        obtain ⟨hs, hdigits⟩ := (readSuffixSymbols_ok_iff hlen hhead).mp hread
        have hsuffix : IsTypeIdSuffix s := ⟨hlen, hs, (head_le_seven_iff hlen hs).mp hhead⟩
        obtain ⟨hhex, htext⟩ := exists_publicIdText_iff.mp ⟨s, hsplit, hsuffix, hdigits.symm⟩
        split at h
        · next w hparse =>
            obtain ⟨hmachine, rfl⟩ := parseMachineId_ok_iff.mp hparse
            rw [asciiLower_formatUuid hhex] at hmachine h
            exact ⟨ns, hex, hns, isMachineHex_of_formatUuid hhex hmachine, htext,
              (pure_eq_ok_iff.mp h).symm⟩
        · contradiction
  · rintro ⟨ns, hex, hns, hhex, rfl, rfl⟩
    obtain ⟨s, hsplit, hsuffix, hdigits⟩ := exists_publicIdText_iff.mpr
      ⟨hhex.1, (rfl : publicIdText ns hex = publicIdText ns hex)⟩
    have hhead := (head_le_seven_iff hsuffix.1 hsuffix.2.1).mpr hsuffix.2.2
    have hread := (readSuffixSymbols_ok_iff hsuffix.1 hhead).mpr ⟨hsuffix.2.1, hdigits.symm⟩
    have hparse : parseMachineId (formatUuid hex) = .ok (formatUuid hex) :=
      parseMachineId_ok_iff.mpr ⟨⟨hex, hhex, rfl⟩, (asciiLower_formatUuid hhex.1).symm⟩
    rw [parsePublicId, ensure_of (publicIdText_facts hns hhex.1).2.symm, ok_bind, hsplit]
    simp only
    rw [ensure_of hns, ok_bind, ensure_of ⟨hsuffix.1, hhead⟩, ok_bind, hread, ok_bind, hparse]
    rfl

end PublicId

end Identifold.Php
