import Mathlib.Data.Nat.Bitwise
import Identifold.Ports.GoCodec
import Identifold.Ports.RustCodec

/-!
# Identifold.Ports.ErrorCodes

The error codes of the identifier parsers: `parse_machine_id` of the Rust, the
Go and the Python port (`packages/python/src/identifold/__init__.py`), and
`parse_public_id` of the Rust and the Go port.

The machine parsers test the shape, the version and the variant.  They differ
in one kind of input, a UUID of version 7 whose variant is not the RFC's: the
Rust and the Go port test the version digit first and reject the variant as
`invalid_mid`, the Python port asks `uuid.UUID` for the version, which the
module reports for the RFC variant only.  `readMachineId` and `readPublicId`
are the parsers with the code of this case as a parameter.

* `Rust.parseMachineId_eq`, `Go.parseMachineId_eq` — the machine parsers of the
  ports;
* `Rust.parsePublicId_eq`, `Go.parsePublicId_eq` — their parsers of public
  identifiers;
* `uuidVersion_read_iff` — what Python's `uuid` reports;
* `readMachineId_eq_iff`, `readPublicId_eq_iff` — where two codes differ.
-/

namespace Identifold

open Separated

/-- A UUID with the version digit 7 and a variant digit that is not the RFC's. -/
def HasForeignVariant (v : Text) : Prop :=
  machinePattern v = true ∧ v[14]? = some '7' ∧ ¬ ∃ c ∈ "89ab".toList, v[19]? = some c

instance (v : Text) : Decidable (HasForeignVariant v) := inferInstanceAs (Decidable (_ ∧ _))

/-- The machine parsers of the ports, up to the code for a foreign variant. -/
def readMachineId (foreignVariant : IdentifoldErrorCode) (v : Text) :
    Except IdentifoldErrorCode Text := do
  ensure (machinePattern (asciiLower v) = true) .invalidMid
  ensure ((asciiLower v)[14]? = some '7') .invalidUuidVersion
  ensure (∃ c ∈ "89ab".toList, (asciiLower v)[19]? = some c) foreignVariant
  return asciiLower v

/-- The public identifier parsers of the ports, up to the lower-case form they
compare the text with and the code for a foreign variant. -/
def readPublicId (lower : Text → Text) (foreignVariant : IdentifoldErrorCode) (v : Text) :
    Except IdentifoldErrorCode ParsedPublicId := do
  ensure (v = lower v) .invalidPid
  match rsplitOnce '_' v with
  | none => throw .invalidPublicPrefix
  | some (namespaceName, suffix) =>
      ensure (isPublicPrefix namespaceName = true) .invalidPublicPrefix
      ensure (IsTypeIdSuffix suffix) .invalidPid
      let machineId := formatUuid (hexOfSuffix suffix)
      ensure (machineId[14]? = some '7') .invalidPid
      ensure (∃ c ∈ "89ab".toList, machineId[19]? = some c) foreignVariant
      return { value := v, namespaceName := namespaceName, machineId := machineId }

/-- The text a suffix is decoded to has the shape of a UUID. -/
theorem machinePattern_hexOfSuffix (s : Text) : machinePattern (formatUuid (hexOfSuffix s)) = true :=
  machinePattern_iff.mpr ⟨_, isHex32_write _, rfl⟩

/-- What a suffix decodes to is small. -/
theorem asciiLower_hexOfSuffix (s : Text) :
    asciiLower (formatUuid (hexOfSuffix s)) = formatUuid (hexOfSuffix s) :=
  asciiLower_formatUuid (isHex32_write _)

/-! ## Rust -/

/-- The Rust parser reads the grammar's machine identifiers. -/
theorem Rust.parseMachineId_eq (v : Text) :
    Rust.parseMachineId v = (readMachineId .invalidMid v).mapError Rust.Failure.error := by
  have hlower := isUpper_of_asciiLower_eq_self (asciiLower_asciiLower v)
  simp only [Rust.parseMachineId, readMachineId, Rust.valid_eq_machinePattern hlower,
    bind_mapError, ensure_mapError]
  by_cases hpattern : machinePattern (asciiLower v) = true
  · simp only [Rust.charAtByte_of_machinePattern hpattern (by decide : 14 ≤ 36),
      Rust.charAtByte_of_machinePattern hpattern (by decide : 19 ≤ 36)]
    rfl
  · rw [ensure_of_not hpattern, error_bind, error_bind]

/-- A suffix is decoded to the UUID it encodes. -/
theorem Rust.decodeSuffix_of_suffix {s : Text} (h : IsTypeIdSuffix s) :
    ∃ number, Rust.decodeSuffix s = .ok number ∧
      Rust.formatMachine number = formatUuid (hexOfSuffix s) := by
  have hnumber : (BitVec.ofNat 128 (Radix.read typeIdAlphabet s)).toNat =
      Radix.read typeIdAlphabet s := by
    rw [BitVec.toNat_ofNat, Nat.mod_eq_of_lt h.read_lt]
  refine ⟨_, Rust.decodeSuffix_ok_iff.mpr ⟨h, hnumber⟩, ?_⟩
  rw [Rust.formatMachine_eq, hnumber]
  rfl

/-- The decoded text parses when its two digits are right. -/
theorem Rust.isOk_parseMachineId_iff (s : Text) :
    (Rust.parseMachineId (formatUuid (hexOfSuffix s))).isOk = true ↔
      (formatUuid (hexOfSuffix s))[14]? = some '7' ∧
        ∃ c ∈ "89ab".toList, (formatUuid (hexOfSuffix s))[19]? = some c := by
  have hok : (Rust.parseMachineId (formatUuid (hexOfSuffix s))).isOk = true ↔
      ∃ w, Rust.parseMachineId (formatUuid (hexOfSuffix s)) = .ok w := by
    cases Rust.parseMachineId (formatUuid (hexOfSuffix s)) <;> simp [Except.isOk, Except.toBool]
  simp only [hok, Rust.parseMachineId_ok_iff, asciiLower_hexOfSuffix, isMachineId_iff,
    exists_eq_right, machinePattern_hexOfSuffix, true_and]

/-- The Rust parser reads the grammar's public identifiers. -/
theorem Rust.parsePublicId_eq (v : Text) :
    Rust.parsePublicId v = (readPublicId asciiLower .invalidPid v).mapError Rust.Failure.error := by
  simp only [Rust.parsePublicId, readPublicId, bind_mapError, ensure_mapError]
  congr 1
  funext _
  cases hsplit : rsplitOnce '_' v with
  | none => rfl
  | some parts =>
      obtain ⟨ns, suffix⟩ := parts
      simp only [bind_mapError, ensure_mapError, Rust.prefixValid_eq]
      congr 1
      funext _
      by_cases hsuffix : IsTypeIdSuffix suffix
      · obtain ⟨number, hdecode, hformat⟩ := Rust.decodeSuffix_of_suffix hsuffix
        rw [hdecode, ensure_of hsuffix, ok_bind, ok_bind]
        simp only [hformat]
        by_cases hversion : (formatUuid (hexOfSuffix suffix))[14]? = some '7'
        · by_cases hvariant : ∃ c ∈ "89ab".toList, (formatUuid (hexOfSuffix suffix))[19]? = some c
          · rw [ensure_of ((Rust.isOk_parseMachineId_iff suffix).mpr ⟨hversion, hvariant⟩),
              ensure_of hversion, ensure_of hvariant]
            simp only [ok_bind, pure_mapError]
          · rw [ensure_of_not fun h => hvariant ((Rust.isOk_parseMachineId_iff suffix).mp h).2,
              ensure_of hversion, ensure_of_not hvariant]
            simp only [ok_bind, error_bind]
        · rw [ensure_of_not fun h => hversion ((Rust.isOk_parseMachineId_iff suffix).mp h).1,
            ensure_of_not hversion]
          simp only [error_bind]
      · rw [Rust.decodeSuffix_error hsuffix, ensure_of_not hsuffix, error_bind, error_bind]

/-! ## Go -/

/-- The Go parser reads the grammar's machine identifiers. -/
theorem Go.parseMachineId_eq (unicode : CaseMapping) (v : Text) :
    Go.parseMachineId unicode v = (readMachineId .invalidMid v).mapError Go.Failure.error := by
  simp only [Go.parseMachineId, readMachineId, bind_mapError, ensure_mapError]
  by_cases hpattern : machinePattern (asciiLower v) = true
  · obtain ⟨hex, hhex, heq⟩ := machinePattern_iff.mp hpattern
    rw [unicode.toLower_ascii v (isAscii_of_asciiLower_eq_formatUuid hhex heq)]
    rfl
  · have hunicode : ¬ machinePattern (unicode.toLower v) = true := fun h =>
      hpattern ((machinePattern_toLower_iff unicode).mp h)
    rw [ensure_of_not hpattern, ensure_of_not hunicode, error_bind, error_bind]

/-- A suffix is decoded to the UUID it encodes. -/
theorem Go.decodeTypeIdSuffix_of_suffix {s : Text} (h : IsTypeIdSuffix s) :
    ∃ bytes, Go.decodeTypeIdSuffix s = .ok bytes ∧
      Go.bytesToMachineId bytes = formatUuid (hexOfSuffix s) := by
  refine ⟨_, Go.decodeTypeIdSuffix_ok_iff.mpr ⟨h, rfl⟩, ?_⟩
  rw [Go.bytesToMachineId, hexEncode_digits]
  rfl

/-- The Go parser reads the grammar's public identifiers, with its own code for a
foreign variant. -/
theorem Go.parsePublicId_eq (unicode : CaseMapping) (v : Text) :
    Go.parsePublicId unicode v =
      (readPublicId unicode.toLower .invalidMid v).mapError Go.Failure.error := by
  simp only [Go.parsePublicId, readPublicId, bind_mapError, ensure_mapError]
  congr 1
  funext _
  cases hsplit : rsplitOnce '_' v with
  | none => rfl
  | some parts =>
      obtain ⟨ns, suffix⟩ := parts
      simp only [bind_mapError, ensure_mapError]
      congr 1
      funext _
      by_cases hsuffix : IsTypeIdSuffix suffix
      · obtain ⟨bytes, hdecode, hformat⟩ := Go.decodeTypeIdSuffix_of_suffix hsuffix
        rw [hdecode, ensure_of hsuffix, ok_bind, ok_bind]
        simp only [hformat, Go.parseMachineId_eq, readMachineId, asciiLower_hexOfSuffix,
          ensure_of (machinePattern_hexOfSuffix suffix), ok_bind, bind_mapError, ensure_mapError,
          pure_mapError, if_true, Go.Failure.error.injEq, reduceCtorEq, if_false, bind_assoc,
          pure_bind]
      · rw [Go.decodeTypeIdSuffix_error hsuffix, ensure_of_not hsuffix, error_bind, error_bind]

/-! ## Python -/

namespace Python

/-- What the port uses of its runtime: `str.lower`, and `int(_, 16)`, which
raises `ValueError` on a text it does not read. -/
structure Runtime where
  unicode : CaseMapping
  intOfHex : Text → Option Int
  intOfHex_of_hex : ∀ hex, IsHex32 hex → intOfHex hex = some (Radix.read hexAlphabet hex : Int)

/-- `str.replace(needle, "")`, with `skip` symbols left of an occurrence. -/
def removeFrom (needle : Text) : Nat → Text → Text
  | _, [] => []
  | skip + 1, _ :: v => removeFrom needle skip v
  | 0, c :: v =>
      if needle <+: c :: v then removeFrom needle (needle.length - 1) v
      else c :: removeFrom needle 0 v

/-- `str.strip("\x7b\x7d")`. -/
def stripBraces (v : Text) : Text :=
  let isBrace := fun c => c ∈ ['\x7b', '\x7d']
  ((v.dropWhile isBrace).reverse.dropWhile isBrace).reverse

/-- `uuid.UUID(hex)`, its number; `none` is a `ValueError`. -/
def uuidOfHex (runtime : Runtime) (hex : Text) : Option Nat :=
  let bare := removeFrom "uuid:".toList 0 (removeFrom "urn:".toList 0 hex)
  let digits := strip '-' (stripBraces bare)
  if digits.length = 32 then
    match runtime.intOfHex digits with
    | some number => if 0 ≤ number ∧ number < 2 ^ 128 then some number.toNat else none
    | none => none
  else none

/-- `UUID.__str__`. -/
def uuidText (number : Nat) : Text := formatUuid (padStart 32 (Nat.toDigits 16 number))

/-- The values of `UUID.variant`. -/
inductive UuidVariant
  | reservedNcs
  | rfc4122
  | reservedMicrosoft
  | reservedFuture
  deriving DecidableEq, Repr

/-- `UUID.variant`. -/
def uuidVariant (number : Nat) : UuidVariant :=
  if number &&& 0x8000 <<< 48 = 0 then .reservedNcs
  else if number &&& 0x4000 <<< 48 = 0 then .rfc4122
  else if number &&& 0x2000 <<< 48 = 0 then .reservedMicrosoft
  else .reservedFuture

/-- `UUID.version`. -/
def uuidVersion (number : Nat) : Option Nat :=
  if uuidVariant number = .rfc4122 then some (number >>> 76 &&& 0xf) else none

/-- `parse_machine_id`. -/
def parseMachineId (runtime : Runtime) (value : Text) : Except IdentifoldErrorCode Text :=
  let canonical := runtime.unicode.toLower value
  match uuidOfHex runtime canonical with
  | none => throw .invalidMid
  | some parsed => do
      ensure (canonical.length = 36 ∧ uuidText parsed = canonical) .invalidMid
      ensure (uuidVersion parsed = some 7) .invalidUuidVersion
      return canonical

/-- Nothing is removed where the needle cannot begin. -/
theorem removeFrom_of_not_mem {d : Char} {needle v : Text} (h : d ∉ v) :
    removeFrom (d :: needle) 0 v = v := by
  induction v with
  | nil => rfl
  | cons c v ih =>
      have hne : ¬ d :: needle <+: c :: v := by
        intro hpre
        rw [List.cons_prefix_cons] at hpre
        exact h (by simp [hpre.1])
      rw [removeFrom, if_neg hne, ih fun hmem => h (List.mem_cons_of_mem c hmem)]

/-- A text without braces stays. -/
theorem stripBraces_of_not_mem {v : Text} (h : ∀ c ∈ v, c ≠ '\x7b' ∧ c ≠ '\x7d') :
    stripBraces v = v := by
  have hkeep : ∀ w : Text, (∀ c ∈ w, c ∈ v) →
      w.dropWhile (fun c => decide (c ∈ ['\x7b', '\x7d'])) = w := by
    intro w hw
    cases w with
    | nil => rfl
    | cons c w =>
        obtain ⟨hopen, hclose⟩ := h c (hw c (by simp))
        rw [List.dropWhile_cons_of_neg]
        simp [hopen, hclose]
  simp only [stripBraces]
  rw [hkeep v fun c hc => hc, hkeep v.reverse fun c hc => List.mem_reverse.mp hc,
    List.reverse_reverse]

section Uuid

variable {runtime : Runtime} {hex : Text}

/-- `uuid.UUID` reads a printed UUID. -/
theorem uuidOfHex_formatUuid (hhex : IsHex32 hex) :
    uuidOfHex runtime (formatUuid hex) = some (Radix.read hexAlphabet hex) := by
  have hplain : ∀ c ∈ formatUuid hex, c ≠ 'u' ∧ c ≠ '\x7b' ∧ c ≠ '\x7d' := by
    intro c hc
    rcases mem_formatUuid hhex hc with hd | rfl
    · have hall : ∀ c ∈ hexAlphabet, c ≠ 'u' ∧ c ≠ '\x7b' ∧ c ≠ '\x7d' := by decide
      exact hall c hd
    · decide
  have hu : 'u' ∉ formatUuid hex := fun h => (hplain _ h).1 rfl
  have hurn : removeFrom "urn:".toList 0 (formatUuid hex) = formatUuid hex :=
    removeFrom_of_not_mem hu
  have huuid : removeFrom "uuid:".toList 0 (formatUuid hex) = formatUuid hex :=
    removeFrom_of_not_mem hu
  have hlt := hhex.read_lt
  simp only [uuidOfHex, hurn, huuid, stripBraces_of_not_mem fun c hc => (hplain c hc).2,
    strip_formatUuid hhex, hhex.1, runtime.intOfHex_of_hex hex hhex, if_true]
  rw [if_pos (by omega), Int.toNat_natCast]

/-- A UUID has 128 bits. -/
theorem uuidOfHex_lt {v : Text} {number : Nat} (h : uuidOfHex runtime v = some number) :
    number < 2 ^ 128 := by
  simp only [uuidOfHex] at h
  split at h
  · split at h
    · split at h
      · cases h
        omega
      · contradiction
    · contradiction
  · contradiction

/-- The text of a UUID is the canonical one. -/
theorem uuidText_eq {number : Nat} (h : number < 2 ^ 128) :
    uuidText number = formatUuid (Radix.write hexAlphabet 32 number) := by
  have hlt : number < 16 ^ 32 := Nat.lt_of_lt_of_eq h (by norm_num)
  rw [uuidText, padStart_toDigits (by decide) (by decide) hlt, map_digitChar_eq_write]

theorem and_two_pow_eq_zero_iff (number i : Nat) :
    number &&& 2 ^ i = 0 ↔ number.testBit i = false := by
  rw [Nat.and_two_pow]
  cases number.testBit i <;> simp

/-- The bits of the variant are the upper bits of a digit. -/
theorem uuidVariant_eq_rfc4122_iff (number : Nat) :
    uuidVariant number = .rfc4122 ↔
      (number / 16 ^ 15 % 16).testBit 3 = true ∧ (number / 16 ^ 15 % 16).testBit 2 = false := by
  have hbit : ∀ i < 4, (number / 16 ^ 15 % 16).testBit i = number.testBit (60 + i) := by
    intro i hi
    have hdigit : number / 16 ^ 15 % 16 = number / 2 ^ 60 % 2 ^ 4 := by norm_num
    rw [hdigit, Nat.testBit_mod_two_pow, Nat.testBit_div_two_pow, Nat.add_comm i]
    simp [hi]
  have h63 : 0x8000 <<< 48 = 2 ^ 63 := by decide
  have h62 : 0x4000 <<< 48 = 2 ^ 62 := by decide
  rw [hbit 3 (by decide), hbit 2 (by decide), uuidVariant, h63, h62]
  simp only [and_two_pow_eq_zero_iff]
  cases number.testBit 63 <;> cases number.testBit 62 <;> simp
  split <;> simp

/-- Version 7 is reported for the variant of RFC 4122 only. -/
theorem uuidVersion_eq_seven_iff (number : Nat) :
    uuidVersion number = some 7 ↔ uuidVariant number = .rfc4122 ∧ number / 16 ^ 19 % 16 = 7 := by
  have hdigit : number >>> 76 &&& 0xf = number / 16 ^ 19 % 16 := by
    rw [Nat.shiftRight_eq_div_pow]
    exact (Nat.and_two_pow_sub_one_eq_mod _ 4).trans (by norm_num)
  rw [uuidVersion, hdigit]
  split
  · next h => simp [h]
  · next h => simp [h]

/-- **The version that `uuid` reports** is 7 for the RFC variant only. -/
theorem uuidVersion_read_iff (hhex : IsHex32 hex) :
    uuidVersion (Radix.read hexAlphabet hex) = some 7 ↔
      hex[12]? = some '7' ∧ ∃ c ∈ "89ab".toList, hex[16]? = some c := by
  have hdigits : ∀ c ∈ hexAlphabet, (hexAlphabet.idxOf c = 7 ↔ c = '7') ∧
      ((hexAlphabet.idxOf c).testBit 3 = true ∧ (hexAlphabet.idxOf c).testBit 2 = false ↔
        c ∈ "89ab".toList) := by
    decide
  have hlen := hhex.1
  obtain ⟨c, h12⟩ : ∃ c, hex[12]? = some c := ⟨_, List.getElem?_eq_getElem (by omega)⟩
  obtain ⟨d, h16⟩ : ∃ d, hex[16]? = some d := ⟨_, List.getElem?_eq_getElem (by omega)⟩
  have hversion := Radix.read_div_mod (by decide) hhex.2 h12
  have hvariant := Radix.read_div_mod (by decide) hhex.2 h16
  rw [hlen] at hversion hvariant
  have hbase : hexAlphabet.length = 16 := rfl
  rw [hbase] at hversion hvariant
  rw [uuidVersion_eq_seven_iff, uuidVariant_eq_rfc4122_iff, hversion, hvariant,
    (hdigits c (hhex.2 c (List.mem_of_getElem? h12))).1,
    (hdigits d (hhex.2 d (List.mem_of_getElem? h16))).2, h12, h16]
  simp only [Option.some.injEq, exists_eq_right']
  exact and_comm

/-- The Python parser rejects the foreign variant with the version. -/
theorem parseMachineId_eq (runtime : Runtime) (v : Text) :
    parseMachineId runtime v = readMachineId .invalidUuidVersion v := by
  by_cases hpattern : machinePattern (asciiLower v) = true
  · obtain ⟨hex, hhex, heq⟩ := machinePattern_iff.mp hpattern
    have hlower := runtime.unicode.toLower_ascii v (isAscii_of_asciiLower_eq_formatUuid hhex heq)
    have hdigits := getElem?_formatUuid hhex.1
    have hwrite : uuidText (Radix.read hexAlphabet hex) = formatUuid hex := by
      rw [uuidText_eq hhex.read_lt, ← hhex.1, Radix.write_read (by decide) hhex.2]
    rw [readMachineId, ensure_of hpattern, ok_bind, heq, hdigits.1, hdigits.2]
    simp only [parseMachineId, hlower, heq, uuidOfHex_formatUuid hhex]
    rw [ensure_of ⟨length_formatUuid hhex.1, hwrite⟩, ok_bind]
    by_cases hversion : hex[12]? = some '7'
    · by_cases hvariant : ∃ c ∈ "89ab".toList, hex[16]? = some c
      · rw [ensure_of ((uuidVersion_read_iff hhex).mpr ⟨hversion, hvariant⟩), ensure_of hversion,
          ensure_of hvariant, ok_bind, ok_bind]
      · rw [ensure_of_not fun h => hvariant ((uuidVersion_read_iff hhex).mp h).2,
          ensure_of hversion, ensure_of_not hvariant, ok_bind, error_bind]
    · rw [ensure_of_not fun h => hversion ((uuidVersion_read_iff hhex).mp h).1,
        ensure_of_not hversion, error_bind, error_bind]
  · rw [readMachineId, ensure_of_not hpattern, error_bind, parseMachineId]
    cases hparsed : uuidOfHex runtime (runtime.unicode.toLower v) with
    | none => rfl
    | some number =>
        -- a text that is printed like a UUID has the pattern
        simp only
        rw [ensure_of_not, error_bind]
        rintro ⟨-, htext⟩
        rw [uuidText_eq (uuidOfHex_lt hparsed)] at htext
        exact hpattern ((machinePattern_toLower_iff runtime.unicode).mp
          (machinePattern_iff.mpr ⟨_, isHex32_write number, htext.symm⟩))

end Uuid

end Python

/-! ## agreement -/

/-- Go's `strings.ToLower` and `strings.ToUpper` work symbol by symbol; outside
ASCII only U+0130 and U+212A have an ASCII lower-case form. -/
structure RuneMapping where
  toLower : Char → Char
  toUpper : Char → Char
  toLower_ascii : ∀ c, c.toNat < 128 → toLower c = c.toLower
  toUpper_ascii : ∀ c, c.toNat < 128 → toUpper c = c.toUpper
  toLower_nonAscii : ∀ c, 128 ≤ c.toNat → 128 ≤ (toLower c).toNat ∨ toLower c = 'i' ∨ toLower c = 'k'

namespace RuneMapping

/-- The case map of texts. -/
def caseMapping (rune : RuneMapping) : CaseMapping where
  toLower v := v.map rune.toLower
  toUpper v := v.map rune.toUpper
  toLower_ascii _ h := List.map_congr_left fun c hc => rune.toLower_ascii c (h c hc)
  toUpper_ascii _ h := List.map_congr_left fun c hc => rune.toUpper_ascii c (h c hc)
  toLower_nonAscii v h := by
    obtain ⟨c, hc, hge⟩ : ∃ c ∈ v, 128 ≤ c.toNat := by simpa [IsAscii] using h
    exact ⟨rune.toLower c, List.mem_map_of_mem hc, rune.toLower_nonAscii c hge⟩

/-- A text that Go's lower-casing leaves alone has no ASCII capitals. -/
theorem asciiLower_of_toLower {rune : RuneMapping} {v : Text}
    (h : v = rune.caseMapping.toLower v) : v = asciiLower v := by
  have hfixed : ∀ c ∈ v, rune.toLower c = c := by
    have hmap : v.map rune.toLower = v.map id := by
      rw [List.map_id]
      exact h.symm
    exact List.map_inj_left.mp hmap
  refine (asciiLower_eq_self fun c hc => ?_).symm
  cases hupper : c.isUpper with
  | false => rfl
  | true =>
      have hascii := toNat_lt_of_isUpper hupper
      have hself := (rune.toLower_ascii c hascii).symm.trans (hfixed c hc)
      exact absurd hself (forall_ascii (P := fun c => c.isUpper = true → c.toLower ≠ c)
        (by decide) c hascii hupper)

end RuneMapping

/-- The three ports return the same machine identifier or fail with the same
code. -/
def MachineParsersAgree (go : RuneMapping) (python : Python.Runtime) (v : Text) : Prop :=
  ∃ outcome : Except IdentifoldErrorCode Text,
    Rust.parseMachineId v = outcome.mapError Rust.Failure.error ∧
    Go.parseMachineId go.caseMapping v = outcome.mapError Go.Failure.error ∧
    Python.parseMachineId python v = outcome

/-- The two ports return the same parts or fail with the same code. -/
def PublicParsersAgree (go : RuneMapping) (v : Text) : Prop :=
  ∃ outcome : Except IdentifoldErrorCode ParsedPublicId,
    Rust.parsePublicId v = outcome.mapError Rust.Failure.error ∧
    Go.parsePublicId go.caseMapping v = outcome.mapError Go.Failure.error

/-- The public identifier of a UUID with a foreign variant. -/
def IsForeignPublicId (v : Text) : Prop :=
  ∃ ns hex, isPublicPrefix ns = true ∧ IsHex32 hex ∧ v = publicIdText ns hex ∧
    HasForeignVariant (formatUuid hex)

/-- A text without ASCII capitals that Go's lower-casing changes, and that has
no valid prefix. -/
def HasHiddenCapital (go : RuneMapping) (v : Text) : Prop :=
  v = asciiLower v ∧ v ≠ go.caseMapping.toLower v ∧
    ∀ ns suffix, rsplitOnce '_' v = some (ns, suffix) → isPublicPrefix ns = false

section Agreement

variable {v : Text} {e e' : IdentifoldErrorCode}

/-- Two codes differ on a machine identifier exactly where the variant is foreign. -/
theorem readMachineId_eq_iff (hne : e ≠ e') :
    readMachineId e v = readMachineId e' v ↔ ¬ HasForeignVariant (asciiLower v) := by
  rw [readMachineId, readMachineId]
  by_cases hpattern : machinePattern (asciiLower v) = true
  · by_cases hversion : (asciiLower v)[14]? = some '7'
    · by_cases hvariant : ∃ c ∈ "89ab".toList, (asciiLower v)[19]? = some c
      · rw [ensure_of hvariant, ensure_of hvariant]
        exact iff_of_true rfl fun h => h.2.2 hvariant
      · rw [ensure_of hpattern, ensure_of hversion, ensure_of_not hvariant, ensure_of_not hvariant]
        exact iff_of_false (fun h => hne (Except.error.inj h)) fun h =>
          h ⟨hpattern, hversion, hvariant⟩
    · rw [ensure_of_not hversion]
      exact iff_of_true rfl fun h => hversion h.2.1
  · rw [ensure_of_not hpattern]
    exact iff_of_true rfl fun h => hpattern h.1

/-- Foreign public identifiers, by their parts. -/
theorem isForeignPublicId_iff : IsForeignPublicId v ↔ ∃ ns suffix,
    rsplitOnce '_' v = some (ns, suffix) ∧ isPublicPrefix ns = true ∧ IsTypeIdSuffix suffix ∧
      HasForeignVariant (formatUuid (hexOfSuffix suffix)) := by
  constructor
  · rintro ⟨ns, hex, hns, hhex, hv, hforeign⟩
    obtain ⟨suffix, hsplit, hsuffix, rfl⟩ := exists_publicIdText_iff.mpr ⟨hhex, hv⟩
    exact ⟨ns, suffix, hsplit, hns, hsuffix, hforeign⟩
  · rintro ⟨ns, suffix, hsplit, hns, hsuffix, hforeign⟩
    obtain ⟨hhex, hv⟩ := exists_publicIdText_iff.mp ⟨suffix, hsplit, hsuffix, rfl⟩
    exact ⟨ns, _, hns, hhex, hv, hforeign⟩

/-- The same for public identifiers. -/
theorem readPublicId_eq_iff (hne : e ≠ e') {lower : Text → Text} (hlower : v = lower v) :
    readPublicId lower e v = readPublicId lower e' v ↔ ¬ IsForeignPublicId v := by
  rw [readPublicId, readPublicId, ensure_of hlower, ok_bind, ok_bind, isForeignPublicId_iff]
  cases hsplit : rsplitOnce '_' v with
  | none => simp
  | some parts =>
      obtain ⟨ns, suffix⟩ := parts
      simp only [Option.some.injEq, Prod.mk.injEq, exists_and_left, and_assoc, exists_eq_left']
      by_cases hns : isPublicPrefix ns = true
      · by_cases hsuffix : IsTypeIdSuffix suffix
        · by_cases hversion : (formatUuid (hexOfSuffix suffix))[14]? = some '7'
          · by_cases hvariant : ∃ c ∈ "89ab".toList,
                (formatUuid (hexOfSuffix suffix))[19]? = some c
            · rw [ensure_of hvariant, ensure_of hvariant]
              exact iff_of_true rfl fun h => h.2.2.2.2 hvariant
            · rw [ensure_of hns, ensure_of hsuffix, ensure_of hversion, ensure_of_not hvariant,
                ensure_of_not hvariant]
              exact iff_of_false (fun h => hne (Except.error.inj h)) fun h =>
                h ⟨hns, hsuffix, machinePattern_hexOfSuffix suffix, hversion, hvariant⟩
          · rw [ensure_of_not hversion, error_bind, error_bind]
            exact iff_of_true rfl fun h => hversion h.2.2.2.1
        · rw [ensure_of_not hsuffix, error_bind, error_bind]
          exact iff_of_true rfl fun h => hsuffix h.2.1
      · rw [ensure_of_not hns, error_bind, error_bind]
        exact iff_of_true rfl fun h => hns h.1

/-- A text that Go's lower-casing changes and ASCII lower-casing does not: the
rest of the Rust parser fails with `invalid_pid` where the prefix is valid. -/
theorem readPublicId_asciiLower_iff {go : RuneMapping} (hchanged : v ≠ go.caseMapping.toLower v) :
    readPublicId asciiLower e v = .error .invalidPid ↔ ¬ HasHiddenCapital go v := by
  by_cases hlower : v = asciiLower v
  · rw [readPublicId, ensure_of hlower, ok_bind]
    cases hsplit : rsplitOnce '_' v with
    | none =>
        refine iff_of_false (fun h => by cases h) fun h => h ⟨hlower, hchanged, ?_⟩
        intro ns suffix hparts
        rw [hsplit] at hparts
        contradiction
    | some parts =>
        obtain ⟨ns, suffix⟩ := parts
        simp only
        by_cases hns : isPublicPrefix ns = true
        · have hsuffix : ¬ IsTypeIdSuffix suffix := by
            -- a public identifier is an ASCII text
            intro hsuffix
            obtain ⟨hhex, hv⟩ := exists_publicIdText_iff.mp ⟨suffix, hsplit, hsuffix, rfl⟩
            have hascii := (publicIdText_facts hns hhex).1
            rw [← hv] at hascii
            exact hchanged (hlower.trans (go.caseMapping.toLower_ascii v hascii).symm)
          rw [ensure_of hns, ok_bind, ensure_of_not hsuffix, error_bind]
          refine iff_of_true rfl fun h => ?_
          rw [h.2.2 ns suffix hsplit] at hns
          contradiction
        · rw [ensure_of_not hns, error_bind]
          refine iff_of_false (fun h => by cases h) fun h => h ⟨hlower, hchanged, ?_⟩
          intro ns' suffix' hparts
          rw [hsplit] at hparts
          cases hparts
          exact Bool.eq_false_iff.mpr hns
  · rw [readPublicId, ensure_of_not hlower, error_bind]
    exact iff_of_true rfl fun h => hlower h.1

/-- Public identifiers are what Go's lower-casing leaves alone. -/
theorem IsForeignPublicId.toLower (unicode : CaseMapping) (h : IsForeignPublicId v) :
    v = unicode.toLower v := by
  obtain ⟨ns, hex, hns, hhex, rfl, -⟩ := h
  obtain ⟨hascii, hlower⟩ := publicIdText_facts hns hhex
  rw [unicode.toLower_ascii _ hascii, hlower]

/-- The parsers of public identifiers agree outside two kinds of texts. -/
theorem publicParsersAgree_iff (go : RuneMapping) :
    PublicParsersAgree go v ↔ ¬ IsForeignPublicId v ∧ ¬ HasHiddenCapital go v := by
  have hagree : PublicParsersAgree go v ↔
      readPublicId asciiLower .invalidPid v = readPublicId go.caseMapping.toLower .invalidMid v := by
    rw [PublicParsersAgree, Rust.parsePublicId_eq, Go.parsePublicId_eq]
    constructor
    · rintro ⟨outcome, hrust, hgo⟩
      rw [mapError_injective (fun _ _ => Rust.Failure.error.inj) hrust,
        mapError_injective (fun _ _ => Go.Failure.error.inj) hgo]
    · intro h
      exact ⟨_, rfl, by rw [h]⟩
  rw [hagree]
  by_cases hlower : v = go.caseMapping.toLower v
  · have hascii := RuneMapping.asciiLower_of_toLower hlower
    have hsame : readPublicId go.caseMapping.toLower .invalidMid v =
        readPublicId asciiLower .invalidMid v := by
      rw [readPublicId, readPublicId, ensure_of hlower, ensure_of hascii]
    rw [hsame, readPublicId_eq_iff (by decide) hascii]
    exact (and_iff_left fun h => h.2.1 hlower).symm
  · have hgo : readPublicId go.caseMapping.toLower .invalidMid v = .error .invalidPid := by
      rw [readPublicId, ensure_of_not hlower, error_bind]
    rw [hgo, readPublicId_asciiLower_iff hlower]
    exact (and_iff_right fun h => hlower (h.toLower _)).symm

/-- The parsers of machine identifiers agree outside one. -/
theorem machineParsersAgree_iff (go : RuneMapping) (python : Python.Runtime) :
    MachineParsersAgree go python v ↔ ¬ HasForeignVariant (asciiLower v) := by
  rw [← readMachineId_eq_iff (show IdentifoldErrorCode.invalidMid ≠ .invalidUuidVersion by decide),
    MachineParsersAgree, Rust.parseMachineId_eq, Go.parseMachineId_eq, Python.parseMachineId_eq]
  constructor
  · rintro ⟨outcome, hrust, -, hpython⟩
    rw [mapError_injective (fun _ _ => Rust.Failure.error.inj) hrust, hpython]
  · intro h
    exact ⟨_, rfl, rfl, h.symm⟩

end Agreement

/-- **Where the ports classify identifiers alike**: the machine parsers on all
texts but UUIDs of version 7 with a foreign variant, the public identifier
parsers on all texts but the identifiers of such UUIDs and the texts of
`HasHiddenCapital`. -/
theorem parsers_agree_iff (go : RuneMapping) (python : Python.Runtime) (v : Text) :
    (MachineParsersAgree go python v ↔ ¬ HasForeignVariant (asciiLower v)) ∧
      (PublicParsersAgree go v ↔ ¬ IsForeignPublicId v ∧ ¬ HasHiddenCapital go v) :=
  ⟨machineParsersAgree_iff go python, publicParsersAgree_iff go⟩

/-- The case map of a runtime that only knows ASCII, by symbols. -/
def asciiRuneMapping : RuneMapping where
  toLower := Char.toLower
  toUpper := Char.toUpper
  toLower_ascii _ _ := rfl
  toUpper_ascii _ _ := rfl
  toLower_nonAscii c h := by
    have hlt := toNat_toLower_lt_iff c
    omega

/-- A runtime whose `int` reads hexadecimal digits only. -/
def Python.plainRuntime : Python.Runtime where
  unicode := asciiCaseMapping
  intOfHex v := if ∀ c ∈ v, c ∈ hexAlphabet then some (Radix.read hexAlphabet v : Int) else none
  intOfHex_of_hex _ h := if_pos h.2

/-- A UUID of version 7 with a variant of its own, and its public identifier:
the ports reject both, with different codes. -/
theorem parsers_disagree_on_foreign_variant :
    ¬ MachineParsersAgree asciiRuneMapping Python.plainRuntime
        "019f0000-0000-7000-c000-000000000001".toList ∧
      ¬ PublicParsersAgree asciiRuneMapping "order_01kw000000e00c000000000001".toList := by
  rw [machineParsersAgree_iff, publicParsersAgree_iff, not_not]
  refine ⟨by decide, fun h => h.1 ?_⟩
  refine ⟨"order".toList, "019f000000007000c000000000000001".toList, by decide, ?_, rfl, by decide⟩
  simp only [IsHex32]
  decide

end Identifold
