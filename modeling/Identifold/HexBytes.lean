import Identifold.Checksum
import Identifold.PublicId

/-!
# Identifold.HexBytes

Bytes written as pairs of hexadecimal digits: the byte form of a UUID that
the Go codec and the SQL adapters work on.  Decoding and encoding regroup the
digits of one number, from base 16 to base 256 and back.

* `hexDecode_hexEncode` — bytes are read back;
* `hexDecode_of_hex` — digits in lower case are written back.
-/

namespace Identifold

open Separated

/-- `hex.DecodeString`, and the `parseInt` loop over digit pairs. -/
def hexDecode : Text → Option (List UInt8)
  | [] => some []
  | [_] => none
  | high :: low :: rest =>
      if high.toLower ∈ hexAlphabet ∧ low.toLower ∈ hexAlphabet then
        (hexDecode rest).map fun bytes => UInt8.ofNat
          (hexAlphabet.idxOf high.toLower * 16 + hexAlphabet.idxOf low.toLower) :: bytes
      else none

/-- `hex.EncodeToString`, and the `toString(16).padStart(2, "0")` loop. -/
def hexEncode (bytes : List UInt8) : Text :=
  bytes.flatMap fun b => charAt hexAlphabet (b.toNat / 16) ++ charAt hexAlphabet (b.toNat % 16)

/-- The number a byte string denotes (`big.Int.SetBytes`). -/
def bytesValue (bytes : List UInt8) : Nat := Radix.value 256 (bytes.map UInt8.toNat)

/-- Decoding pairs the digits up. -/
theorem hexDecode_pairs {hex : Text} (h : ∀ c ∈ hex, c ∈ hexAlphabet)
    (hlen : hex.length % 2 = 0) : ∃ bytes, hexDecode hex = some bytes ∧
      (bytes.map UInt8.toNat).flatMap (Radix.digits 16 2) = hex.map hexAlphabet.idxOf := by
  induction hex using hexDecode.induct with
  | case1 => exact ⟨[], rfl, rfl⟩
  | case2 c => exact absurd hlen (by simp)
  | case3 high low rest hvalid ih =>
      have hhigh := h high (by simp)
      have hlow := h low (by simp)
      obtain ⟨bytes, hdecode, hdigits⟩ := ih (fun c hc => h c (by simp [hc]))
        (by simp only [List.length_cons] at hlen; omega)
      have h1 : hexAlphabet.idxOf high < 16 := List.idxOf_lt_length_of_mem hhigh
      have h2 : hexAlphabet.idxOf low < 16 := List.idxOf_lt_length_of_mem hlow
      have hbyte : (UInt8.ofNat (hexAlphabet.idxOf high * 16 + hexAlphabet.idxOf low)).toNat =
          hexAlphabet.idxOf high * 16 + hexAlphabet.idxOf low :=
        UInt8.toNat_ofNat_of_lt' (by simp only [UInt8.size]; omega)
      have hdiv : (hexAlphabet.idxOf high * 16 + hexAlphabet.idxOf low) / 16 % 16 =
          hexAlphabet.idxOf high := by omega
      have hmod : (hexAlphabet.idxOf high * 16 + hexAlphabet.idxOf low) % 16 =
          hexAlphabet.idxOf low := by omega
      refine ⟨UInt8.ofNat (hexAlphabet.idxOf high * 16 + hexAlphabet.idxOf low) :: bytes, ?_, ?_⟩
      · rw [hexDecode, if_pos hvalid, hdecode, toLower_of_mem_hexAlphabet hhigh,
          toLower_of_mem_hexAlphabet hlow]
        rfl
      · rw [List.map_cons, List.flatMap_cons, hdigits, hbyte, List.map_cons, List.map_cons]
        simp only [Radix.digits, hdiv, hmod, List.nil_append, List.cons_append]
  | case4 high low rest hinvalid =>
      exfalso
      apply hinvalid
      rw [toLower_of_mem_hexAlphabet (h high (by simp)), toLower_of_mem_hexAlphabet (h low (by simp))]
      exact ⟨h high (by simp), h low (by simp)⟩

/-- Encoding prints every byte's two digits. -/
theorem hexEncode_eq (bytes : List UInt8) : hexEncode bytes =
    ((bytes.map UInt8.toNat).flatMap (Radix.digits 16 2)).filterMap (hexAlphabet[·]?) := by
  have hbyte : ∀ b : UInt8, charAt hexAlphabet (b.toNat / 16) ++ charAt hexAlphabet (b.toNat % 16) =
      (Radix.digits 16 2 b.toNat).filterMap (hexAlphabet[·]?) := by
    intro b
    have hb := b.toNat_lt
    have hmod : b.toNat / 16 % 16 = b.toNat / 16 := Nat.mod_eq_of_lt (by omega)
    have hlt : b.toNat / 16 < hexAlphabet.length := by
      change b.toNat / 16 < 16
      omega
    have hlt' : b.toNat % 16 < hexAlphabet.length := Nat.mod_lt _ (by decide)
    simp [charAt, Radix.digits, hmod, hlt, hlt']
  rw [hexEncode, List.flatMap_map, List.filterMap_flatMap]
  exact List.flatMap_congr fun b _ => hbyte b

theorem length_hexEncode (bytes : List UInt8) : (hexEncode bytes).length = bytes.length * 2 := by
  have hbyte : ∀ b : UInt8,
      (charAt hexAlphabet (b.toNat / 16) ++ charAt hexAlphabet (b.toNat % 16)).length = 2 := by
    intro b
    have hb := b.toNat_lt
    have hlt : b.toNat / 16 < hexAlphabet.length := by
      change b.toNat / 16 < 16
      omega
    have hlt' : b.toNat % 16 < hexAlphabet.length := Nat.mod_lt _ (by decide)
    simp [charAt, hlt, hlt']
  induction bytes with
  | nil => rfl
  | cons b bytes ih =>
      rw [hexEncode, List.flatMap_cons, List.length_append, hbyte, ← hexEncode, ih,
        List.length_cons]
      omega

/-- **Round trip** on bytes: what is encoded is read back. -/
theorem hexDecode_hexEncode (bytes : List UInt8) : hexDecode (hexEncode bytes) = some bytes := by
  have hdigit : ∀ n < 16, ∃ c ∈ hexAlphabet, charAt hexAlphabet n = [c] ∧ hexAlphabet.idxOf c = n := by
    decide
  induction bytes with
  | nil => rfl
  | cons b bytes ih =>
      have hb := b.toNat_lt
      obtain ⟨high, hhigh, hcharHigh, hidxHigh⟩ := hdigit (b.toNat / 16) (by omega)
      obtain ⟨low, hlow, hcharLow, hidxLow⟩ := hdigit (b.toNat % 16) (by omega)
      have hencode : hexEncode (b :: bytes) = high :: low :: hexEncode bytes := by
        rw [hexEncode, List.flatMap_cons, hcharHigh, hcharLow, ← hexEncode]
        rfl
      have hbyte : UInt8.ofNat (b.toNat / 16 * 16 + b.toNat % 16) = b := by
        rw [Nat.div_add_mod', UInt8.ofNat_toNat]
      rw [hencode, hexDecode, toLower_of_mem_hexAlphabet hhigh, toLower_of_mem_hexAlphabet hlow,
        if_pos ⟨hhigh, hlow⟩, ih, hidxHigh, hidxLow, Option.map_some, hbyte]

theorem mem_hexEncode {bytes : List UInt8} {c : Char} (h : c ∈ hexEncode bytes) : c ∈ hexAlphabet := by
  obtain ⟨b, -, hc⟩ := List.mem_flatMap.mp h
  simp only [charAt, List.mem_append, Option.mem_toList] at hc
  exact hc.elim List.mem_of_getElem? List.mem_of_getElem?

theorem isHex32_hexEncode {bytes : List UInt8} (h : bytes.length = 16) : IsHex32 (hexEncode bytes) :=
  ⟨by rw [length_hexEncode, h], fun _ hc => mem_hexEncode hc⟩

/-- **Round trip** on lower-case digits: the decoded bytes denote the number
the digits denote, and are encoded to the same digits. -/
theorem hexDecode_of_hex {hex : Text} (h : ∀ c ∈ hex, c ∈ hexAlphabet)
    (hlen : hex.length % 2 = 0) : ∃ bytes, hexDecode hex = some bytes ∧
      bytesValue bytes = Radix.read hexAlphabet hex ∧ hexEncode bytes = hex := by
  obtain ⟨bytes, hdecode, hdigits⟩ := hexDecode_pairs h hlen
  have hlt : ∀ d ∈ bytes.map UInt8.toNat, d < 16 ^ 2 := by
    intro d hd
    obtain ⟨b, -, rfl⟩ := List.mem_map.mp hd
    exact b.toNat_lt
  have hvalue := Radix.value_flatMap_digits hlt
  rw [hdigits] at hvalue
  exact ⟨bytes, hdecode, hvalue.symm, by rw [hexEncode_eq, hdigits, Radix.filterMap_map_idxOf h]⟩

/-- Decoding ignores the case of the digits. -/
theorem hexDecode_asciiLower (hex : Text) : hexDecode (asciiLower hex) = hexDecode hex := by
  have hlower : ∀ c : Char, c.toLower.toLower = c.toLower := by
    intro c
    exact List.singleton_inj.mp (asciiLower_asciiLower [c])
  induction hex using hexDecode.induct with
  | case1 => rfl
  | case2 c => rfl
  | case3 high low rest hvalid ih =>
      simp only [asciiLower, List.map_cons] at ih ⊢
      rw [hexDecode, hexDecode, hlower, hlower, ih]
  | case4 high low rest hinvalid =>
      simp only [asciiLower, List.map_cons]
      rw [hexDecode, hexDecode, hlower, hlower, if_neg hinvalid, if_neg hinvalid]

/-- Pairs of hexadecimal digits of either case are decoded. -/
theorem hexDecode_of_isHexDigit {hex : Text} (h : ∀ c ∈ hex, isHexDigit c = true)
    (hlen : hex.length % 2 = 0) :
    ∃ bytes, hexDecode hex = some bytes ∧ bytes.length * 2 = hex.length := by
  have hlower : ∀ c ∈ asciiLower hex, c ∈ hexAlphabet := by
    intro c hc
    obtain ⟨d, hd, rfl⟩ := List.mem_map.mp hc
    exact toLower_mem_hexAlphabet (h d hd)
  obtain ⟨bytes, hdecode, -, hencode⟩ := hexDecode_of_hex hlower (by rw [length_asciiLower, hlen])
  refine ⟨bytes, by rw [← hexDecode_asciiLower, hdecode], ?_⟩
  rw [← length_hexEncode, hencode, length_asciiLower]

/-- Nothing else is. -/
theorem of_hexDecode {hex : Text} {bytes : List UInt8} (h : hexDecode hex = some bytes) :
    bytes.length * 2 = hex.length ∧ ∀ c ∈ hex, isHexDigit c = true := by
  induction hex using hexDecode.induct generalizing bytes with
  | case1 =>
      obtain rfl := Option.some.inj h
      exact ⟨rfl, by simp⟩
  | case2 c => contradiction
  | case3 high low rest hvalid ih =>
      rw [hexDecode, if_pos hvalid] at h
      obtain ⟨bytes', hdecode, rfl⟩ := Option.map_eq_some_iff.mp h
      obtain ⟨hlen, hdigits⟩ := ih hdecode
      refine ⟨by simp only [List.length_cons]; omega, fun c hc => ?_⟩
      rcases List.mem_cons.mp hc with rfl | hc
      · exact isHexDigit_of_toLower_mem hvalid.1
      · rcases List.mem_cons.mp hc with rfl | hc
        · exact isHexDigit_of_toLower_mem hvalid.2
        · exact hdigits c hc
  | case4 high low rest hinvalid =>
      rw [hexDecode, if_neg hinvalid] at h
      contradiction

/-! ## sixteen bytes -/

theorem map_toNat_ofNat_digits (n : Nat) :
    ((Radix.digits 256 16 n).map UInt8.ofNat).map UInt8.toNat = Radix.digits 256 16 n := by
  have hbytes : ∀ d ∈ Radix.digits 256 16 n, (UInt8.ofNat d).toNat = d := fun d hd =>
    UInt8.toNat_ofNat_of_lt' (Radix.digits_lt (by decide) 16 n d hd)
  rw [List.map_map]
  exact (List.map_congr_left hbytes).trans (List.map_id _)

/-- The 16 bytes of a number below `2 ^ 128` denote it. -/
theorem bytesValue_digits {n : Nat} (h : n < 2 ^ 128) :
    bytesValue ((Radix.digits 256 16 n).map UInt8.ofNat) = n := by
  rw [bytesValue, map_toNat_ofNat_digits,
    Radix.value_digits_of_lt (Nat.lt_of_lt_of_eq h (by norm_num))]

/-- The bytes of a number on 16 places print its 32 hexadecimal digits. -/
theorem hexEncode_digits (n : Nat) :
    hexEncode ((Radix.digits 256 16 n).map UInt8.ofNat) = Radix.write hexAlphabet 32 n := by
  have hregroup := Radix.flatMap_digits_digits (b := 16) (k := 2) (by decide) (by decide) 16 n
  rw [hexEncode_eq, map_toNat_ofNat_digits]
  exact congrArg (List.filterMap (hexAlphabet[·]?)) hregroup

/-! ## a suffix as bits -/

section Bits

variable {n : Nat}

/-- Two zeros and the bits of 16 bytes are the bits of 26 symbols. -/
theorem bits_of_bytes (h : n < 2 ^ 128) :
    [0, 0] ++ (Radix.digits 256 16 n).flatMap (Radix.digits 2 8) = Radix.digits 2 130 n := by
  have hbytes := Radix.flatMap_digits_digits (b := 2) (k := 8) (by decide) (by decide) 16 n
  have hzeros := Radix.replicate_zero_append_digits (by decide) h 2
  exact (congrArg ([0, 0] ++ ·) hbytes).trans hzeros

/-- The bits of 26 symbols of a number below `2 ^ 128` begin with two zeros. -/
theorem bits_eq_cons (h : n < 2 ^ 128) :
    Radix.digits 2 130 n = [0, 0] ++ Radix.digits 2 128 n := by
  rw [← Radix.replicate_zero_append_digits (by decide) h 2]
  rfl

theorem bits_of_positions (n : Nat) :
    (Radix.digits 32 26 n).flatMap (Radix.digits 2 5) = Radix.digits 2 130 n :=
  Radix.flatMap_digits_digits (b := 2) (k := 5) (by decide) (by decide) 26 n

theorem positions_of_bits (n : Nat) :
    (chunks 5 (Radix.digits 2 130 n)).map (Radix.value 2) = Radix.digits 32 26 n :=
  Radix.map_value_chunks_digits (by decide) (by decide) 26 n

theorem bytes_of_bits (n : Nat) :
    (chunks 8 (Radix.digits 2 128 n)).map (Radix.value 2) = Radix.digits 256 16 n :=
  Radix.map_value_chunks_digits (by decide) (by decide) 16 n

/-- The bytes of a number, printed on two places each, are its digits. -/
theorem flatMap_padStart_bytes (n : Nat) :
    (Radix.digits 256 16 n).flatMap (fun byte => padStart 2 (Nat.toDigits 16 byte)) =
      Radix.write hexAlphabet 32 n := by
  have hbyte : ∀ byte ∈ Radix.digits 256 16 n,
      padStart 2 (Nat.toDigits 16 byte) = (Radix.digits 16 2 byte).map Nat.digitChar := fun byte hmem =>
    padStart_toDigits (by decide) (by decide) (Radix.digits_lt (by decide) 16 n byte hmem)
  have hregroup := Radix.flatMap_digits_digits (b := 16) (k := 2) (by decide) (by decide) 16 n
  rw [List.flatMap_congr hbyte, ← map_digitChar_eq_write, ← List.map_flatMap]
  exact congrArg (List.map Nat.digitChar) hregroup

/-- The symbols of a suffix, by position. -/
theorem map_typeIdAlphabet (n : Nat) :
    (Radix.digits 32 26 n).map (typeIdAlphabet.getD · '0') = Radix.write typeIdAlphabet 26 n := by
  rw [Radix.write, Radix.filterMap_getElem?_eq_map (g := (typeIdAlphabet.getD · '0'))]
  · rfl
  · intro d hd
    have hlt : d < typeIdAlphabet.length := Radix.digits_lt (by decide) 26 n d hd
    rw [List.getElem?_eq_getElem hlt, List.getD_eq_getElem?_getD, List.getElem?_eq_getElem hlt]
    rfl

/-- The positions of a suffix's symbols are the digits of its number. -/
theorem map_idxOf_suffix {s : Text} (hlen : s.length = 26) (hs : ∀ c ∈ s, c ∈ typeIdAlphabet) :
    s.map typeIdAlphabet.idxOf = Radix.digits 32 26 (Radix.read typeIdAlphabet s) := by
  have hdigits := Radix.digits_value (b := 32) (by decide) (Radix.idxOf_lt_of_forall_mem hs)
  rw [List.length_map, hlen] at hdigits
  exact hdigits.symm

/-- The bytes of 32 hexadecimal digits. -/
theorem map_toNat_hexDecode {hex : Text} (h : IsHex32 hex) :
    ∃ bytes, hexDecode hex = some bytes ∧
      bytes.map UInt8.toNat = Radix.digits 256 16 (Radix.read hexAlphabet hex) := by
  obtain ⟨bytes, hdecode, hvalue, hencode⟩ := hexDecode_of_hex h.2 (by rw [h.1])
  have hlen : (bytes.map UInt8.toNat).length = 16 := by
    have htwice := length_hexEncode bytes
    rw [hencode, h.1] at htwice
    rw [List.length_map]
    omega
  have hlt : ∀ d ∈ bytes.map UInt8.toNat, d < 256 := by
    intro d hd
    obtain ⟨b, -, rfl⟩ := List.mem_map.mp hd
    exact b.toNat_lt
  have hdigits := Radix.digits_value (by decide) hlt
  rw [hlen] at hdigits
  exact ⟨bytes, hdecode, by rw [← hvalue, bytesValue, hdigits]⟩

end Bits

end Identifold
