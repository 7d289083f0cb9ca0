import Identifold.HexBytes

/-!
# Identifold.Ports.SwiftCodec

The machine and public identifiers of the Swift port
(`packages/swift/Sources/Identifold/Identifiers.swift`).

A Swift string is counted and indexed in `Character`s, while the regular
expressions of Foundation see its Unicode scalars and let `$` match before a
line terminator that ends the text.  So a machine identifier with a line
terminator behind it passes the pattern as a text of 37 characters, and the
loop of `publicID` over pairs of characters traps on the last one.

The codec turns the bytes into a list of 128 bits, and cuts it, with two zeros
in front, into groups of five.

* `anchored_machinePattern_iff` — what the pattern lets pass;
* `publicID_of_accepted` — the encoder on what has passed;
* `readSuffixSymbols_ok_iff`, `parsePublicID_ok_iff` — the decoder, and the parser
  on printable texts.
-/

namespace Identifold.Swift

open Separated

/-- What a call ends in instead of a result: an `IdentifoldError` with its
code, or a run-time trap. -/
inductive Failure
  | error (code : IdentifoldErrorCode)
  | trapped
  deriving DecidableEq, Repr

/-! ## strings -/

/-- The line terminators of a regular expression. -/
def lineTerminators : List Text :=
  [0x0a, 0x0b, 0x0c, 0x0d, 0x85, 0x2028, 0x2029].map (fun n => [Char.ofNat n]) ++ [['\r', '\n']]

/-- A pattern between `^` and `$`, none of whose texts ends in a line
terminator: `$` also matches before one that ends the text. -/
def anchored (pattern : Text → Bool) (v : Text) : Bool :=
  pattern v ||
    lineTerminators.any fun t => t.isSuffixOf v && pattern (v.take (v.length - t.length))

/-- The symbols from the space to the tilde. -/
def IsPrintable (v : Text) : Prop := ∀ c ∈ v, ' ' ≤ c ∧ c ≤ '~'

/-- What the code uses of Swift's strings, whose tables are those of Unicode:
the lower-case mapping of a scalar, the characters (grapheme clusters) of a
string, equality and order.  Outside ASCII a line terminator has no case, and
the lower-case form of any other scalar shows a `k` (that of the Kelvin sign)
or a scalar of the same kind. -/
structure StringLibrary where
  lowercaseMapping : Char → Text
  characters : Text → List Text
  equal : Text → Text → Bool
  le : Text → Text → Bool
  lowercaseMapping_ascii : ∀ c, c.toNat < 128 → lowercaseMapping c = [c.toLower]
  lowercaseMapping_terminator : ∀ t ∈ lineTerminators, ∀ c ∈ t, lowercaseMapping c = [c]
  lowercaseMapping_nonAscii : ∀ c, 128 ≤ c.toNat → (∀ t ∈ lineTerminators, c ∉ t) →
    ∃ d ∈ lowercaseMapping c, d = 'k' ∨ 128 ≤ d.toNat ∧ ∀ t ∈ lineTerminators, d ∉ t
  characters_printable : ∀ v, IsPrintable v → characters v = v.map ([·])
  characters_terminator : ∀ v, IsPrintable v → ∀ t ∈ lineTerminators,
    characters (v ++ t) = v.map ([·]) ++ [t]
  equal_ascii : ∀ v w, IsAscii v → IsAscii w → (equal v w = true ↔ v = w)
  le_printable : ∀ c d, IsPrintable [c, d] → (le [c] [d] = true ↔ c ≤ d)

/-! ## the codec -/

/-- An element of an array; any other index traps. -/
def elementAt {α : Type} (xs : List α) (index : Nat) : Except Failure α :=
  match xs[index]? with
  | some x => .ok x
  | none => .error .trapped

/-- `(byte >> shift) & 1` for the shifts from `width - 1` down to 0. -/
def bitsOf (width n : Nat) : List Nat :=
  (List.range width).reverse.map fun shift => (n >>> shift) &&& 1

/-- `bits[index..<(index + size)].reduce(0) { ($0 << 1) | $1 }`; a slice beyond
the end traps. -/
def reduceBits (size : Nat) (slice : List Nat) : Except Failure Nat :=
  if slice.length = size then .ok (slice.foldl (fun acc bit => acc <<< 1 ||| bit) 0)
  else .error .trapped

/-- `UInt8(_, radix: 16)`: hexadecimal digits behind an optional sign. -/
def uint8FromHex (text : Text) : Option Nat :=
  let digits := if text.head? = some '+' ∨ text.head? = some '-' then text.drop 1 else text
  let value := Radix.read hexAlphabet (asciiLower digits)
  if digits ≠ [] ∧ (∀ c ∈ digits, isHexDigit c = true) ∧ value < 256 ∧
      (text.head? = some '-' → value = 0) then some value
  else none

/-- The loop over the pairs of characters; a pair beyond the end traps. -/
def pairBytes : List Text → Except Failure (List Nat)
  | [] => .ok []
  | [_] => .error .trapped
  | a :: b :: hex =>
      match uint8FromHex (a ++ b) with
      | none => .error (.error .invalidMid)
      | some byte => do
          let bytes ← pairBytes hex
          return byte :: bytes

/-- The bits of a symbol of a suffix. -/
def positionBits (symbol : Text) : Except Failure (List Nat) :=
  match symbol with
  | [c] =>
      if c ∈ typeIdAlphabet then .ok (bitsOf 5 (typeIdAlphabet.idxOf c))
      else .error (.error .invalidPid)
  | _ => .error (.error .invalidPid)

/-- The part of `parsePublicID` from the symbols of the suffix to the digits of
the machine identifier. -/
def readSuffixSymbols (suffixSymbols : List Text) : Except Failure Text := do
  let positions ← suffixSymbols.mapM positionBits
  let bits := positions.flatten
  let first ← elementAt bits 0
  let second ← elementAt bits 1
  ensure (first = 0 ∧ second = 0) (.error .invalidPid)
  let bytes ← (chunks 8 (bits.drop 2)).mapM (reduceBits 8)
  return bytes.flatMap fun byte => padStart 2 (Nat.toDigits 16 byte)

section Codec

variable (strings : StringLibrary)

/-- `lowercased()`. -/
def lowercased (v : Text) : Text := v.flatMap strings.lowercaseMapping

/-- `parseMachineID`. -/
def parseMachineID (input : Text) : Except Failure Text := do
  let value := lowercased strings input
  ensure (anchored machinePattern value = true) (.error .invalidMid)
  let symbols := strings.characters value
  let version ← elementAt symbols 14
  ensure (version = ['7']) (.error .invalidUuidVersion)
  let variant ← elementAt symbols 19
  ensure (∃ c ∈ "89ab".toList, variant = [c]) (.error .invalidMid)
  return value

/-- `publicID(from:namespace:)`. -/
def publicID (machineID namespaceName : Text) : Except Failure Text := do
  ensure (anchored isPublicPrefix namespaceName = true) (.error .invalidPublicPrefix)
  let canonical ← parseMachineID strings machineID
  let bytes ← pairBytes (strings.characters (strip '-' canonical))
  let suffix ← (chunks 5 ([0, 0] ++ bytes.flatMap (bitsOf 8))).mapM fun slice => do
    let value ← reduceBits 5 slice
    elementAt typeIdAlphabet value
  return namespaceName ++ '_' :: suffix

/-- `parsePublicID`. -/
def parsePublicID (value : Text) : Except Failure ParsedPublicId := do
  ensure (strings.equal value (lowercased strings value) = true) (.error .invalidPid)
  match rsplitOnce ['_'] (strings.characters value) with
  | none => throw (.error .invalidPublicPrefix)
  | some (before, after) =>
      let namespaceName := before.flatten
      ensure (anchored isPublicPrefix namespaceName = true) (.error .invalidPublicPrefix)
      let suffixSymbols := strings.characters after.flatten
      ensure (suffixSymbols.length = 26 ∧ ∀ symbol ∈ suffixSymbols[0]?, strings.le symbol ['7'] = true)
        (.error .invalidPid)
      let hex ← readSuffixSymbols suffixSymbols
      match parseMachineID strings (formatUuid hex) with
      | .ok machineID =>
          return { value := value, namespaceName := namespaceName, machineId := machineID }
      | .error (.error _) => throw (.error .invalidPid)
      | .error .trapped => throw .trapped

end Codec

/-! ## machine identifiers -/

section MachineId

variable {strings : StringLibrary} {v w m ns hex line : Text}

/-- A line end has nothing that a UUID has, and no case. -/
theorem lineTerminators_facts : ∀ t ∈ lineTerminators, ∀ c ∈ t,
    c ∉ hexAlphabet ∧ c ≠ '-' ∧ c ≠ '_' ∧ c.isUpper = false ∧ c.isLower = false := by
  decide

theorem isPrintable_formatUuid (h : IsHex32 hex) : IsPrintable (formatUuid hex) := by
  have hdigits : ∀ c ∈ hexAlphabet, ' ' ≤ c ∧ c ≤ '~' := by decide
  intro c hc
  rcases mem_formatUuid h hc with hd | rfl
  · exact hdigits c hd
  · decide

/-- The anchored pattern accepts a match, and one that a line end follows. -/
theorem anchored_iff {pattern : Text → Bool} : anchored pattern v = true ↔
    ∃ u line, pattern u = true ∧ line ∈ [] :: lineTerminators ∧ v = u ++ line := by
  simp only [anchored, Bool.or_eq_true, List.any_eq_true, Bool.and_eq_true, List.isSuffixOf_iff_suffix]
  constructor
  · rintro (h | ⟨t, ht, ⟨u, rfl⟩, h⟩)
    · exact ⟨v, [], h, by simp, by simp⟩
    · exact ⟨u, t, by simpa using h, by simp [ht], rfl⟩
  · rintro ⟨u, line, h, hline, rfl⟩
    rcases List.mem_cons.mp hline with rfl | hline
    · exact .inl (by simpa using h)
    · exact .inr ⟨line, hline, ⟨u, rfl⟩, by simpa using h⟩

/-- So the machine pattern accepts a UUID before a line end. -/
theorem anchored_machinePattern_iff : anchored machinePattern v = true ↔
    ∃ hex line, IsHex32 hex ∧ line ∈ [] :: lineTerminators ∧ v = formatUuid hex ++ line := by
  rw [anchored_iff]
  simp only [machinePattern_iff]
  constructor
  · rintro ⟨_, line, ⟨hex, hhex, rfl⟩, hline, rfl⟩
    exact ⟨hex, line, hhex, hline, rfl⟩
  · rintro ⟨hex, line, hhex, hline, rfl⟩
    exact ⟨_, line, ⟨hex, hhex, rfl⟩, hline, rfl⟩

/-- Where each symbol is mapped to its small letter, so is the text. -/
theorem lowercased_eq_asciiLower (h : ∀ c ∈ v, strings.lowercaseMapping c = [c.toLower]) :
    lowercased strings v = asciiLower v := by
  rw [lowercased, List.flatMap_congr h, asciiLower, List.map_eq_flatMap]

theorem lowercased_of_isAscii (h : IsAscii v) : lowercased strings v = asciiLower v :=
  lowercased_eq_asciiLower fun c hc => strings.lowercaseMapping_ascii c (h c hc)

theorem toLower_of_nonAscii {c : Char} (h : ¬ c.toNat < 128) : c.toLower = c := by
  apply toLower_of_not_isUpper
  by_contra hupper
  exact h (toNat_lt_of_isUpper (by simpa using hupper))

/-- Line ends have no case. -/
theorem lowercaseMapping_of_terminator {t : Text} (ht : t ∈ lineTerminators) {c : Char} (hc : c ∈ t) :
    strings.lowercaseMapping c = [c.toLower] := by
  rw [strings.lowercaseMapping_terminator t ht c hc,
    toLower_of_not_isUpper (lineTerminators_facts t ht c hc).2.2.2.1]

/-- A lower-case form of ASCII symbols other than `k` and of line terminators
is the ASCII one. -/
theorem lowercased_of_plain (h : ∀ d ∈ lowercased strings v,
    (d.toNat < 128 ∧ d ≠ 'k') ∨ ∃ t ∈ lineTerminators, d ∈ t) :
    lowercased strings v = asciiLower v := by
  apply lowercased_eq_asciiLower
  intro c hc
  by_cases hascii : c.toNat < 128
  · exact strings.lowercaseMapping_ascii c hascii
  · by_cases hline : ∃ t ∈ lineTerminators, c ∈ t
    · obtain ⟨t, ht, hct⟩ := hline
      exact lowercaseMapping_of_terminator ht hct
    · obtain ⟨d, hd, hshow⟩ := strings.lowercaseMapping_nonAscii c (Nat.not_lt.mp hascii)
        fun t ht hct => hline ⟨t, ht, hct⟩
      have hplain := h d (List.mem_flatMap.mpr ⟨c, hc, hd⟩)
      exfalso
      rcases hshow with rfl | ⟨hge, hnot⟩
      · have hk : ∀ t ∈ lineTerminators, 'k' ∉ t := by decide
        rcases hplain with ⟨-, hne⟩ | ⟨t, ht, hdt⟩
        · exact hne rfl
        · exact hk t ht hdt
      · rcases hplain with ⟨hlt, -⟩ | ⟨t, ht, hdt⟩
        · omega
        · exact hnot t ht hdt

/-- Both ways of lower-casing find the same machine identifiers. -/
theorem lowercased_eq_iff (hhex : IsHex32 hex) (hline : line ∈ [] :: lineTerminators) :
    lowercased strings m = formatUuid hex ++ line ↔ asciiLower m = formatUuid hex ++ line := by
  constructor
  · intro h
    rw [← h, eq_comm]
    apply lowercased_of_plain
    intro d hd
    rw [h, List.mem_append] at hd
    rcases hd with hd | hd
    · rcases mem_formatUuid hhex hd with hd | rfl
      · obtain ⟨hascii, -, -, -, -, hk⟩ := hexAlphabet_facts d hd
        exact .inl ⟨hascii, hk⟩
      · exact .inl (by decide)
    · rcases List.mem_cons.mp hline with rfl | ht
      · contradiction
      · exact .inr ⟨line, ht, hd⟩
  · intro h
    rw [← h]
    apply lowercased_eq_asciiLower
    intro c hc
    by_cases hascii : c.toNat < 128
    · exact strings.lowercaseMapping_ascii c hascii
    · -- a symbol outside ASCII stands in the line terminator
      have hmem : c ∈ formatUuid hex ++ line := by
        rw [← h, ← toLower_of_nonAscii hascii]
        exact List.mem_map_of_mem hc
      rcases List.mem_append.mp hmem with hd | hd
      · exact absurd (isAscii_of_asciiLower_eq_formatUuid hhex (asciiLower_formatUuid hhex) c hd) hascii
      · rcases List.mem_cons.mp hline with rfl | ht
        · contradiction
        · exact lowercaseMapping_of_terminator ht hd

/-- The characters of a printable text and a line terminator. -/
theorem characters_append (hv : IsPrintable v) (hline : line ∈ [] :: lineTerminators) :
    ∃ tail, strings.characters (v ++ line) = v.map ([·]) ++ tail ∧
      (line ∈ lineTerminators → tail = [line]) ∧ (line = [] → tail = []) := by
  rcases List.mem_cons.mp hline with rfl | ht
  · refine ⟨[], by simp [strings.characters_printable v hv], fun ht => ?_, fun _ => rfl⟩
    exact absurd ht (by decide)
  · refine ⟨[line], strings.characters_terminator v hv line ht, fun _ => rfl, ?_⟩
    rintro rfl
    exact absurd ht (by decide)

theorem elementAt_ok_iff {α : Type} {xs : List α} {index : Nat} {x : α} :
    elementAt xs index = .ok x ↔ xs[index]? = some x := by
  unfold elementAt
  cases xs[index]? <;> simp

/-- What `parseMachineID` accepts: a machine identifier in either case, with or
without a line terminator. -/
theorem parseMachineID_ok_iff : parseMachineID strings m = .ok w ↔
    w = asciiLower m ∧ ∃ hex line, IsMachineHex hex ∧ line ∈ [] :: lineTerminators ∧
      asciiLower m = formatUuid hex ++ line := by
  have hdigits : ∀ {hex line : Text}, IsHex32 hex → line ∈ [] :: lineTerminators → ∀ x,
      (elementAt (strings.characters (formatUuid hex ++ line)) 14 = .ok x ↔
        hex[12]?.map ([·]) = some x) ∧
      (elementAt (strings.characters (formatUuid hex ++ line)) 19 = .ok x ↔
        hex[16]?.map ([·]) = some x) := by
    intro hex line hhex hline x
    obtain ⟨tail, htail, -⟩ :=
      @characters_append strings _ _ (isPrintable_formatUuid hhex) hline
    have hlen := length_formatUuid hhex.1
    obtain ⟨h14, h19⟩ := getElem?_formatUuid hhex.1
    rw [elementAt_ok_iff, elementAt_ok_iff, htail, List.getElem?_append_left (by simp [hlen]),
      List.getElem?_append_left (by simp [hlen]), List.getElem?_map, List.getElem?_map, h14, h19]
    exact ⟨.rfl, .rfl⟩
  simp only [parseMachineID, bind_eq_ok_iff, ensure_eq_ok_iff, pure_eq_ok_iff,
    anchored_machinePattern_iff]
  constructor
  · rintro ⟨_, ⟨hex, line, hhex, hline, heq⟩, version, h14, _, hversion, variant, h19, _, hvariant, rfl⟩
    rw [heq, (hdigits hhex hline _).1] at h14
    rw [heq, (hdigits hhex hline _).2] at h19
    have hlower := (lowercased_eq_iff hhex hline).mp heq
    refine ⟨by rw [heq, hlower], hex, line, ⟨hhex, ?_, ?_⟩, hline, hlower⟩
    · simpa [hversion] using h14
    · obtain ⟨c, hc, rfl⟩ := hvariant
      exact ⟨c, hc, by simpa using h19⟩
  · rintro ⟨rfl, hex, line, ⟨hhex, hversion, c, hc, hvariant⟩, hline, heq⟩
    rw [(lowercased_eq_iff hhex hline).mpr heq, heq]
    refine ⟨(), ⟨hex, line, hhex, hline, rfl⟩, ['7'], ?_, (), rfl, [c], ?_, (), ⟨c, hc, rfl⟩, rfl⟩
    · rw [(hdigits hhex hline _).1, hversion]
      rfl
    · rw [(hdigits hhex hline _).2, hvariant]
      rfl

/-- It throws errors of the port only: what the pattern has matched has 36
characters. -/
theorem parseMachineID_error {e : Failure} (h : parseMachineID strings m = .error e) :
    ∃ code, e = .error code := by
  have helement : ∀ value, anchored machinePattern value = true → ∀ index < 36,
      elementAt (strings.characters value) index ≠ .error e := by
    intro value hvalue index hindex helement
    obtain ⟨hex, line, hhex, hline, rfl⟩ := anchored_machinePattern_iff.mp hvalue
    obtain ⟨tail, htail, -⟩ := @characters_append strings _ _ (isPrintable_formatUuid hhex) hline
    have hlt : index < (strings.characters (formatUuid hex ++ line)).length := by
      simp only [htail, List.length_append, List.length_map, length_formatUuid hhex.1]
      omega
    rw [elementAt, List.getElem?_eq_getElem hlt] at helement
    contradiction
  simp only [parseMachineID, bind_eq_error_iff, ensure_eq_error_iff, ensure_eq_ok_iff] at h
  rcases h with ⟨-, rfl⟩ | ⟨_, hvalue, h | ⟨_, -, ⟨-, rfl⟩ | ⟨_, -, h | ⟨_, -, ⟨-, rfl⟩ | ⟨_, -, h⟩⟩⟩⟩⟩
  · exact ⟨_, rfl⟩
  · exact absurd h (helement _ hvalue 14 (by decide))
  · exact ⟨_, rfl⟩
  · exact absurd h (helement _ hvalue 19 (by decide))
  · exact ⟨_, rfl⟩
  · contradiction

end MachineId

/-! ## bits -/

section Bits

variable {hex : Text} {n : Nat}

/-- The bits of a number are its binary digits. -/
theorem bitsOf_eq (width n : Nat) : bitsOf width n = Radix.digits 2 width n := by
  rw [bitsOf, Radix.digits_eq_map_range]
  simp [Nat.shiftRight_eq_div_pow, Nat.and_one_is_mod]

/-- Bits are shifted into the number they denote. -/
theorem foldl_shiftLeft_or {slice : List Nat} (h : ∀ bit ∈ slice, bit < 2) :
    slice.foldl (fun acc bit => acc <<< 1 ||| bit) 0 = Radix.value 2 slice := by
  apply List.foldl_ext
  intro acc bit hbit
  have hlt : bit < 2 ^ 1 := h bit hbit
  rw [← Nat.shiftLeft_add_eq_or_of_lt hlt, Nat.shiftLeft_eq]

/-- A slice of a list of bits of its size. -/
theorem reduceBits_ok {size w : Nat} (hsize : 0 < size) {slice : List Nat}
    (h : slice ∈ chunks size (Radix.digits 2 (w * size) n)) :
    reduceBits size slice = .ok (Radix.value 2 slice) := by
  have hlen := (chunks_of_length_eq hsize (Radix.length_digits 2 (w * size) n)).2 slice h
  have hbits : ∀ bit ∈ slice, bit < 2 := by
    intro bit hbit
    apply Radix.digits_lt (by decide) (w * size) n
    rw [← flatten_chunks hsize (Radix.digits 2 (w * size) n)]
    exact List.mem_flatten.mpr ⟨slice, h, hbit⟩
  rw [reduceBits, if_pos hlen, foldl_shiftLeft_or hbits]

/-- Two hexadecimal digits are a byte. -/
theorem uint8FromHex_of_hex {a b : Char} (ha : a ∈ hexAlphabet) (hb : b ∈ hexAlphabet) :
    uint8FromHex [a, b] = some (hexAlphabet.idxOf a * 16 + hexAlphabet.idxOf b) := by
  have hall : ∀ a ∈ hexAlphabet, ∀ b ∈ hexAlphabet,
      uint8FromHex [a, b] = some (hexAlphabet.idxOf a * 16 + hexAlphabet.idxOf b) := by decide +kernel
  exact hall a ha b hb

/-- The loop reads the bytes of the digits in front, and goes on behind them. -/
theorem pairBytes_append {bytes : List UInt8} (h : ∀ c ∈ hex, c ∈ hexAlphabet)
    (hdecode : hexDecode hex = some bytes) (tail : List Text) :
    pairBytes (hex.map ([·]) ++ tail) = (pairBytes tail).map (bytes.map UInt8.toNat ++ ·) := by
  induction hex using hexDecode.induct generalizing bytes with
  | case1 =>
      obtain rfl := Option.some.inj hdecode
      cases htail : pairBytes tail <;> simp [htail, Except.map]
  | case2 c => contradiction
  | case3 high low rest hvalid ih =>
      rw [hexDecode, if_pos hvalid] at hdecode
      obtain ⟨bytes', hrest, rfl⟩ := Option.map_eq_some_iff.mp hdecode
      have hhigh := h high (by simp)
      have hlow := h low (by simp)
      have h1 : hexAlphabet.idxOf high < 16 := List.idxOf_lt_length_of_mem hhigh
      have h2 : hexAlphabet.idxOf low < 16 := List.idxOf_lt_length_of_mem hlow
      have hbyte : (UInt8.ofNat (hexAlphabet.idxOf high * 16 + hexAlphabet.idxOf low)).toNat =
          hexAlphabet.idxOf high * 16 + hexAlphabet.idxOf low :=
        UInt8.toNat_ofNat_of_lt' (by simp only [UInt8.size]; omega)
      have hbytes := ih (fun c hc => h c (by simp [hc])) hrest
      simp only [List.map_cons, List.cons_append, pairBytes, List.nil_append, uint8FromHex_of_hex hhigh hlow, hbytes,
        toLower_of_mem_hexAlphabet hhigh, toLower_of_mem_hexAlphabet hlow, hbyte]
      cases pairBytes tail <;> rfl
  | case4 high low rest hinvalid =>
      rw [hexDecode, if_neg hinvalid] at hdecode
      contradiction

end Bits

/-! ## public identifiers -/

section PublicId

variable {strings : StringLibrary} {m ns hex line : Text}

theorem isPrintable_of_hex (h : IsHex32 hex) : IsPrintable hex := by
  have hdigits : ∀ c ∈ hexAlphabet, ' ' ≤ c ∧ c ≤ '~' := by decide
  exact fun c hc => hdigits c (h.2 c hc)

/-- The bytes of a text that `parseMachineID` has accepted: those of its digits,
and a trap on a line terminator behind them. -/
theorem pairBytes_strip (hhex : IsHex32 hex) (hline : line ∈ [] :: lineTerminators) :
    pairBytes (strings.characters (strip '-' (formatUuid hex ++ line))) =
      if line = [] then .ok (Radix.digits 256 16 (Radix.read hexAlphabet hex))
      else .error .trapped := by
  obtain ⟨bytes, hdecode, hbytes⟩ := map_toNat_hexDecode hhex
  obtain ⟨tail, htail, hterminator, hnil⟩ :=
    @characters_append strings _ _ (isPrintable_of_hex hhex) hline
  have hstrip : strip '-' line = line := strip_eq_self fun hmem => by
    rcases List.mem_cons.mp hline with rfl | ht
    · contradiction
    · exact (lineTerminators_facts line ht _ hmem).2.1 rfl
  rw [strip_append, strip_formatUuid hhex, hstrip, htail, pairBytes_append hhex.2 hdecode, hbytes]
  rcases List.mem_cons.mp hline with rfl | ht
  · rw [hnil rfl, if_pos rfl]
    simp [pairBytes, Except.map]
  · have hne : line ≠ [] := by
      rintro rfl
      exact absurd ht (by decide)
    rw [hterminator ht, if_neg hne]
    rfl

/-- The loop over the slices writes the suffix. -/
theorem mapM_slices (hhex : IsHex32 hex) :
    ((chunks 5 ([0, 0] ++ (Radix.digits 256 16 (Radix.read hexAlphabet hex)).flatMap (bitsOf 8))).mapM
      fun slice => do
        let value ← reduceBits 5 slice
        elementAt typeIdAlphabet value) = .ok (suffixOfHex hex) := by
  have hbits : [0, 0] ++ (Radix.digits 256 16 (Radix.read hexAlphabet hex)).flatMap (bitsOf 8) =
      Radix.digits 2 (26 * 5) (Radix.read hexAlphabet hex) := by
    rw [List.flatMap_congr fun byte _ => bitsOf_eq 8 byte, bits_of_bytes hhex.read_lt]
  have hslice : ∀ slice ∈ chunks 5 (Radix.digits 2 (26 * 5) (Radix.read hexAlphabet hex)),
      (do
        let value ← reduceBits 5 slice
        elementAt typeIdAlphabet value) = .ok (typeIdAlphabet.getD (Radix.value 2 slice) '0') := by
    intro slice hmem
    have hlt : Radix.value 2 slice < typeIdAlphabet.length := by
      have hdigit : Radix.value 2 slice ∈ Radix.digits 32 26 (Radix.read hexAlphabet hex) := by
        rw [← positions_of_bits]
        exact List.mem_map_of_mem hmem
      exact Radix.digits_lt (by decide) _ _ _ hdigit
    rw [reduceBits_ok (by decide) hmem, ok_bind, elementAt_ok_iff, List.getD_eq_getElem?_getD,
      List.getElem?_eq_getElem hlt]
    rfl
  rw [hbits, mapM_eq_ok hslice, suffixOfHex, ← map_typeIdAlphabet, ← positions_of_bits, List.map_map]
  rfl

/-- **What the encoder makes of an accepted text**: the public identifier of its
machine identifier, and a trap where a line terminator stands behind it. -/
theorem publicID_of_accepted (hns : anchored isPublicPrefix ns = true) (hhex : IsMachineHex hex)
    (hline : line ∈ [] :: lineTerminators) (hlower : asciiLower m = formatUuid hex ++ line) :
    publicID strings m ns = if line = [] then .ok (publicIdText ns hex) else .error .trapped := by
  have hparse := (@parseMachineID_ok_iff strings _ _).mpr
    ⟨(rfl : asciiLower m = asciiLower m), hex, line, hhex, hline, hlower⟩
  rw [publicID, ensure_of hns, ok_bind, hparse, ok_bind, hlower, pairBytes_strip hhex.1 hline]
  split
  · rw [ok_bind, mapM_slices hhex.1, ok_bind]
    rfl
  · rfl

/-- **The bits of a suffix** that passes the guard on its first symbol are read
into its digits; another symbol is an error. -/
theorem readSuffixSymbols_ok_iff {s : Text} (hlen : s.length = 26)
    (hhead : ∀ c ∈ s.head?, c ≤ '7') :
    readSuffixSymbols (s.map ([·])) = .ok hex ↔
      (∀ c ∈ s, c ∈ typeIdAlphabet) ∧ hex = hexOfSuffix s := by
  by_cases hs : ∀ c ∈ s, c ∈ typeIdAlphabet
  · have hlt := (read_lt_iff hlen hs).mpr ((head_le_seven_iff hlen hs).mp hhead)
    have hposition : ∀ c ∈ s,
        (positionBits ∘ ([·])) c = .ok (Radix.digits 2 5 (typeIdAlphabet.idxOf c)) := by
      intro c hc
      simp [positionBits, hs c hc, bitsOf_eq]
    have hbits : (s.map fun c => Radix.digits 2 5 (typeIdAlphabet.idxOf c)).flatten =
        [0, 0] ++ Radix.digits 2 (16 * 8) (Radix.read typeIdAlphabet s) := by
      rw [← bits_eq_cons hlt, ← bits_of_positions, ← map_idxOf_suffix hlen hs, List.flatMap_map,
        List.flatMap_def]
    have hbytes := mapM_eq_ok fun slice hmem =>
      @reduceBits_ok (Radix.read typeIdAlphabet s) 8 16 (by decide) slice hmem
    have hdigits : (Radix.digits 256 16 (Radix.read typeIdAlphabet s)).flatMap
        (fun byte => padStart 2 (Nat.toDigits 16 byte)) = hexOfSuffix s := flatMap_padStart_bytes _
    have hdrop : (chunks 8 (Radix.digits 2 (16 * 8) (Radix.read typeIdAlphabet s))).map
        (Radix.value 2) = Radix.digits 256 16 (Radix.read typeIdAlphabet s) := bytes_of_bits _
    rw [readSuffixSymbols, List.mapM_map, mapM_eq_ok hposition, ok_bind, hbits]
    simp only [elementAt, List.cons_append, List.getElem?_cons_zero, List.getElem?_cons_succ, ok_bind,
      and_self, ensure_of, List.drop_succ_cons, List.drop_zero, List.nil_append, hbytes, hdrop,
      hdigits, pure_eq_ok_iff]
    exact ⟨fun h => ⟨hs, h.symm⟩, fun h => h.2.symm⟩
  · refine iff_of_false (fun h => hs fun c hc => ?_) fun h => hs h.1
    rw [readSuffixSymbols, bind_eq_ok_iff] at h
    obtain ⟨positions, hpositions, -⟩ := h
    obtain ⟨bits, hbits⟩ := exists_ok_of_mapM hpositions [c] (List.mem_map_of_mem hc)
    by_contra hnot
    simp [positionBits, hnot] at hbits

theorem isAscii_of_isPrintable {v : Text} (h : IsPrintable v) : IsAscii v := by
  intro c hc
  have hle : c.toNat ≤ 126 := (h c hc).2
  omega

/-- No line terminator is printable. -/
theorem anchored_of_isPrintable {pattern : Text → Bool} {v : Text} (hv : IsPrintable v) :
    anchored pattern v = true ↔ pattern v = true := by
  have hnot : ∀ t ∈ lineTerminators, t ≠ [] ∧ ∀ c ∈ t, ¬ (' ' ≤ c ∧ c ≤ '~') := by decide
  rw [anchored_iff]
  constructor
  · rintro ⟨u, line, hpattern, hline, rfl⟩
    rcases List.mem_cons.mp hline with rfl | ht
    · rwa [List.append_nil]
    · obtain ⟨c, hc⟩ := List.exists_mem_of_ne_nil line (hnot line ht).1
      exact absurd (hv c (by simp [hc])) ((hnot line ht).2 c hc)
  · intro hpattern
    exact ⟨v, [], hpattern, by simp, by simp⟩

/-- A canonical UUID is read if it is a machine identifier, and as it is. -/
theorem parseMachineID_formatUuid_ok_iff {w : Text} (hhex : IsHex32 hex) :
    parseMachineID strings (formatUuid hex) = .ok w ↔ IsMachineHex hex ∧ w = formatUuid hex := by
  rw [parseMachineID_ok_iff, asciiLower_formatUuid hhex]
  constructor
  · rintro ⟨rfl, hex', line, hhex', hline, heq⟩
    have hprintable := isPrintable_formatUuid hhex
    rw [heq] at hprintable
    have hmachine : anchored (fun v => v = formatUuid hex') (formatUuid hex' ++ line) = true :=
      anchored_iff.mpr ⟨_, line, by simp, hline, rfl⟩
    rw [anchored_of_isPrintable hprintable, decide_eq_true_eq] at hmachine
    rw [hmachine] at heq
    exact ⟨isMachineHex_of_formatUuid hhex (heq ▸ ⟨hex', hhex', rfl⟩), rfl⟩
  · rintro ⟨hmachine, rfl⟩
    exact ⟨rfl, hex, [], hmachine, by simp, by simp⟩

/-- The parser on a printable text, behind its split. -/
theorem parsePublicID_of_split {v s : Text} (hv : IsPrintable v)
    (hsplit : rsplitOnce '_' v = some (ns, s)) {result : ParsedPublicId} :
    parsePublicID strings v = .ok result ↔
      v = asciiLower v ∧ isPublicPrefix ns = true ∧ (s.length = 26 ∧ ∀ c ∈ s.head?, c ≤ '7') ∧
        ∃ hex, readSuffixSymbols (s.map ([·])) = .ok hex ∧
          ∃ w, parseMachineID strings (formatUuid hex) = .ok w ∧ result = ⟨v, ns, w⟩ := by
  have hascii := isAscii_of_isPrintable hv
  obtain ⟨hparts, -⟩ := rsplitOnce_eq_some_iff.mp hsplit
  have hns : IsPrintable ns := fun c hc => hv c (by simp [hparts, hc])
  have hs : IsPrintable s := fun c hc => hv c (by simp [hparts, hc])
  have hequal : strings.equal v (lowercased strings v) = true ↔ v = asciiLower v := by
    rw [lowercased_of_isAscii hascii]
    exact strings.equal_ascii v _ hascii ((isAscii_asciiLower_iff v).mpr hascii)
  have hflatten : ∀ u : Text, (u.map ([·])).flatten = u := fun u => by simp [← List.flatMap_def]
  have hhead : (∀ symbol ∈ (s.map ([·]))[0]?, strings.le symbol ['7'] = true) ↔
      ∀ c ∈ s.head?, c ≤ '7' := by
    cases s with
    | nil => simp
    | cons c s =>
        have hle := strings.le_printable c '7' fun d hd => by
          rcases List.mem_cons.mp hd with rfl | hd
          · exact hs d (by simp)
          · rw [List.mem_singleton.mp hd]
            decide
        simpa using hle
  simp only [parsePublicID, strings.characters_printable v hv, rsplitOnce_map_singleton, hsplit,
    Option.map_some, hflatten, bind_eq_ok_iff, ensure_eq_ok_iff, hequal, anchored_of_isPrintable hns,
    strings.characters_printable s hs, List.length_map, hhead]
  constructor
  · rintro ⟨_, hlower, _, hprefix, _, hguard, hex, hhex, h⟩
    refine ⟨hlower, hprefix, hguard, hex, hhex, ?_⟩
    split at h
    · next w hw => exact ⟨w, hw, (pure_eq_ok_iff.mp h).symm⟩
    · contradiction
    · contradiction
  · rintro ⟨hlower, hprefix, hguard, hex, hhex, w, hw, rfl⟩
    refine ⟨(), hlower, (), hprefix, (), hguard, hex, hhex, ?_⟩
    rw [hw]
    rfl

/-- **`parsePublicID` reads public identifiers**, among the printable texts. -/
theorem parsePublicID_ok_iff {v : Text} (hv : IsPrintable v) {result : ParsedPublicId} :
    parsePublicID strings v = .ok result ↔
      ∃ ns hex, isPublicPrefix ns = true ∧ IsMachineHex hex ∧ v = publicIdText ns hex ∧
        result = ⟨v, ns, formatUuid hex⟩ := by
  constructor
  · intro h
    cases hsplit : rsplitOnce '_' v with
    | none =>
        simp only [parsePublicID, strings.characters_printable v hv, rsplitOnce_map_singleton, hsplit,
          Option.map_none, bind_eq_ok_iff] at h
        obtain ⟨_, -, h⟩ := h
        contradiction
    | some p =>
        obtain ⟨ns, s⟩ := p
        obtain ⟨-, hns, ⟨hlen, hhead⟩, hex, hread, w, hparse, rfl⟩ :=
          (parsePublicID_of_split hv hsplit).mp h
        obtain ⟨hs, hdigits⟩ := (readSuffixSymbols_ok_iff hlen hhead).mp hread
        have hsuffix : IsTypeIdSuffix s := ⟨hlen, hs, (head_le_seven_iff hlen hs).mp hhead⟩
        obtain ⟨hhex, htext⟩ := exists_publicIdText_iff.mp ⟨s, hsplit, hsuffix, hdigits.symm⟩
        obtain ⟨hmachine, rfl⟩ := (parseMachineID_formatUuid_ok_iff hhex).mp hparse
        exact ⟨ns, hex, hns, hmachine, htext, rfl⟩
  · rintro ⟨ns, hex, hns, hhex, rfl, rfl⟩
    obtain ⟨s, hsplit, hsuffix, hdigits⟩ := exists_publicIdText_iff.mpr
      ⟨hhex.1, (rfl : publicIdText ns hex = publicIdText ns hex)⟩
    have hhead := (head_le_seven_iff hsuffix.1 hsuffix.2.1).mpr hsuffix.2.2
    exact (parsePublicID_of_split hv hsplit).mpr ⟨(publicIdText_facts hns hhex.1).2.symm, hns,
      ⟨hsuffix.1, hhead⟩, hex,
      (readSuffixSymbols_ok_iff hsuffix.1 hhead).mpr ⟨hsuffix.2.1, hdigits.symm⟩, _,
      (parseMachineID_formatUuid_ok_iff hhex.1).mpr ⟨hhex, rfl⟩, rfl⟩

end PublicId

/-! ## a library -/

/-- The characters of a text in which nothing is joined but line ends. -/
def splitCharacters : Text → List Text
  | [] => []
  | c :: v =>
      if c = '\r' ∧ v.head? = some '\n' then ['\r', '\n'] :: splitCharacters (v.drop 1)
      else [c] :: splitCharacters v
termination_by v => v.length
decreasing_by all_goals simp; try omega

/-- Printable characters stand for themselves. -/
theorem splitCharacters_append {v : Text} (hv : IsPrintable v) (line : Text) :
    splitCharacters (v ++ line) = v.map ([·]) ++ splitCharacters line := by
  induction v with
  | nil => rfl
  | cons c v ih =>
      have hne : c ≠ '\r' := by
        rintro rfl
        exact absurd (hv '\r' (by simp)) (by decide)
      rw [List.cons_append, splitCharacters, if_neg (fun h => hne h.1),
        ih fun d hd => hv d (by simp [hd])]
      rfl

/-- The strings of a runtime that only knows ASCII. -/
def asciiStrings : StringLibrary where
  lowercaseMapping c := [c.toLower]
  characters := splitCharacters
  equal v w := v = w
  le v w := v ≤ w
  lowercaseMapping_ascii _ _ := rfl
  lowercaseMapping_terminator t ht c hc := by
    rw [toLower_of_not_isUpper (lineTerminators_facts t ht c hc).2.2.2.1]
  lowercaseMapping_nonAscii c hc hnot := by
    refine ⟨c, ?_, .inr ⟨hc, hnot⟩⟩
    rw [toLower_of_nonAscii (by omega)]
    exact List.mem_singleton_self c
  characters_printable v hv := by
    have h := splitCharacters_append hv []
    rwa [List.append_nil, splitCharacters, List.append_nil] at h
  characters_terminator v hv t ht := by
    have hall : ∀ t ∈ lineTerminators, splitCharacters t = [t] := by
      simp [lineTerminators, splitCharacters]
    rw [splitCharacters_append hv, hall t ht]
  equal_ascii v w _ _ := decide_eq_true_iff
  le_printable c d _ := by
    rw [decide_eq_true_iff, ← not_lt, List.cons_lt_cons_iff]
    simp

end Identifold.Swift
