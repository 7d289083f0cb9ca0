import Identifold.PublicId

/-!
# Identifold.Ports.CSharpCodec

The machine and public identifiers of the C# port
(`packages/csharp/src/Identifold/Identifiers.cs`).

The encoder reads the digits of a machine identifier with a `0` in front, so
that `BigInteger.Parse` finds no sign; the decoder prints its number with
`ToString("x32")`, which puts such a `0` in front wherever the first digit is
`8` or more, and cuts the text as if it had 32 digits.  So a public identifier
reads back exactly when the first digit of its machine identifier is below
`8`; and a machine identifier with a line feed behind it, which the `$` of
.NET lets pass, is not even written.

* `toStringX32_eq` — where the printed number has 33 digits;
* `parsePublicId_publicIdText` — what becomes of a public identifier.
-/

namespace Identifold.CSharp

open Separated

/-- What a call ends in instead of a result: an `IdentifoldException` with its
code, or an exception of the framework. -/
inductive Failure
  | error (code : IdentifoldErrorCode)
  | foreign
  deriving DecidableEq, Repr

/-- A pattern between `^` and `$`: .NET's `$` also matches before a line feed
that ends the text. -/
def anchored (pattern : Text → Bool) (v : Text) : Bool :=
  pattern v || (v.getLast? = some '\n' && pattern v.dropLast)

/-! ## the codec -/

/-- `ParseMachineId`; `invariant` is `ToLowerInvariant`. -/
def parseMachineId (invariant : CaseMapping) (input : Text) : Except Failure Text := do
  let value := invariant.toLower input
  ensure (anchored machinePattern value = true) (.error .invalidMid)
  ensure (value[14]? = some '7') (.error .invalidUuidVersion)
  ensure (∃ c ∈ "89ab".toList, value[19]? = some c) (.error .invalidMid)
  return value

/-- `BigInteger.Parse(_, NumberStyles.AllowHexSpecifier)`: hexadecimal digits
only, read in two's complement. -/
def parseHexSpecifier (v : Text) : Except Failure Int := do
  ensure (v ≠ [] ∧ ∀ c ∈ v, isHexDigit c = true) .foreign
  let number := Radix.read hexAlphabet (asciiLower v)
  if ∀ c ∈ (asciiLower v).head?, hexAlphabet.idxOf c < 8 then return number
  else return number - 16 ^ v.length

/-- The loop of `PublicIdFromMachineId`, from the last symbol to the first.  A
negative remainder is no index. -/
def encodeLoop : Nat → Int → Except Failure Text
  | 0, _ => .ok []
  | n + 1, number => do
      ensure (0 ≤ number.tmod 32) .foreign
      let rest ← encodeLoop n (number.tdiv 32)
      return rest ++ charAt typeIdAlphabet (number.tmod 32).toNat

/-- `PublicIdFromMachineId`. -/
def publicIdFromMachineId (invariant : CaseMapping) (machineId namespaceName : Text) :
    Except Failure Text := do
  ensure (anchored isPublicPrefix namespaceName = true) (.error .invalidPublicPrefix)
  let canonical ← parseMachineId invariant machineId
  let number ← parseHexSpecifier ('0' :: strip '-' canonical)
  let suffix ← encodeLoop 26 number
  return namespaceName ++ '_' :: suffix

/-- `BigInteger.ToString("x32")` of a number that is not negative: its digits
in two's complement, so that a first digit from `8` on has a `0` in front,
filled up to 32 digits. -/
def toStringX32 (number : Nat) : Text :=
  let digits := Nat.toDigits 16 number
  padStart 32 (if ∀ c ∈ digits.head?, hexAlphabet.idxOf c < 8 then digits else '0' :: digits)

/-- `ParsePublicId`. -/
def parsePublicId (invariant : CaseMapping) (value : Text) : Except Failure ParsedPublicId := do
  ensure (value = invariant.toLower value) (.error .invalidPid)
  match rsplitOnce '_' value with
  | none => throw (.error .invalidPublicPrefix)
  | some (namespaceName, suffix) =>
      ensure (anchored isPublicPrefix namespaceName = true) (.error .invalidPublicPrefix)
      ensure (utf16Length suffix = 26 ∧ ∀ c ∈ suffix.head?, c ≤ '7') (.error .invalidPid)
      let number ← readSuffix (.error .invalidPid) 0 suffix
      match parseMachineId invariant (formatUuid (toStringX32 number)) with
      | .ok machineId =>
          return { value := value, namespaceName := namespaceName, machineId := machineId }
      | .error _ => throw (.error .invalidPid)

/-! ## machine identifiers -/

section MachineId

variable {invariant : CaseMapping} {v w m ns hex : Text}

theorem anchored_iff {pattern : Text → Bool} :
    anchored pattern v = true ↔ pattern v = true ∨ ∃ u, pattern u = true ∧ v = u ++ ['\n'] := by
  simp only [anchored, Bool.or_eq_true, Bool.and_eq_true, decide_eq_true_eq]
  refine or_congr_right ⟨?_, ?_⟩
  · rintro ⟨hlast, hpattern⟩
    obtain ⟨u, rfl⟩ := List.getLast?_eq_some_iff.mp hlast
    rw [List.dropLast_concat] at hpattern
    exact ⟨u, hpattern, rfl⟩
  · rintro ⟨u, hpattern, rfl⟩
    rw [List.getLast?_concat, List.dropLast_concat]
    exact ⟨rfl, hpattern⟩

/-- The machine pattern of .NET: a printed UUID, with or without a line feed. -/
theorem anchored_machinePattern_iff : anchored machinePattern v = true ↔
    ∃ hex line, IsHex32 hex ∧ (line = [] ∨ line = ['\n']) ∧ v = formatUuid hex ++ line := by
  rw [anchored_iff]
  simp only [machinePattern_iff]
  constructor
  · rintro (⟨hex, hhex, rfl⟩ | ⟨_, ⟨hex, hhex, rfl⟩, rfl⟩)
    · exact ⟨hex, [], hhex, .inl rfl, by simp⟩
    · exact ⟨hex, _, hhex, .inr rfl, rfl⟩
  · rintro ⟨hex, line, hhex, rfl | rfl, rfl⟩
    · exact .inl ⟨hex, hhex, by simp⟩
    · exact .inr ⟨_, ⟨hex, hhex, rfl⟩, rfl⟩

/-- What `ParseMachineId` accepts: a machine identifier in either case, with or
without a line feed. -/
theorem parseMachineId_ok_iff : parseMachineId invariant m = .ok w ↔
    w = asciiLower m ∧ ∃ hex line, IsMachineHex hex ∧ (line = [] ∨ line = ['\n']) ∧
      asciiLower m = formatUuid hex ++ line := by
  have hdigits : ∀ {hex : Text} (line : Text), IsHex32 hex →
      (formatUuid hex ++ line)[14]? = hex[12]? ∧ (formatUuid hex ++ line)[19]? = hex[16]? := by
    intro hex line hhex
    have hlen := length_formatUuid hhex.1
    rw [List.getElem?_append_left (by omega), List.getElem?_append_left (by omega)]
    exact getElem?_formatUuid hhex.1
  simp only [parseMachineId, bind_eq_ok_iff, ensure_eq_ok_iff, pure_eq_ok_iff,
    anchored_machinePattern_iff]
  constructor
  · rintro ⟨_, ⟨hex, line, hhex, hline, heq⟩, _, hversion, _, hvariant, rfl⟩
    have hlower := invariant.toLower_of_plain (v := m) fun c hc => by
      rw [heq, List.mem_append] at hc
      rcases hc with hc | hc
      · rcases mem_formatUuid hhex hc with hd | rfl
        · obtain ⟨hascii, -, -, -, hi, hk⟩ := hexAlphabet_facts c hd
          exact ⟨hascii, hi, hk⟩
        · decide
      · rcases hline with rfl | rfl
        · contradiction
        · rw [List.mem_singleton.mp hc]
          decide
    rw [heq, (hdigits line hhex).1] at hversion
    rw [heq, (hdigits line hhex).2] at hvariant
    exact ⟨hlower.2, hex, line, ⟨hhex, hversion, hvariant⟩, hline, hlower.2 ▸ heq⟩
  · rintro ⟨rfl, hex, line, ⟨hhex, hversion, hvariant⟩, hline, heq⟩
    have hascii : IsAscii m := by
      rw [← isAscii_asciiLower_iff, heq]
      intro c hc
      rcases List.mem_append.mp hc with hc | hc
      · rcases mem_formatUuid hhex hc with hd | rfl
        · exact (hexAlphabet_facts c hd).1
        · decide
      · rcases hline with rfl | rfl
        · contradiction
        · rw [List.mem_singleton.mp hc]
          decide
    rw [invariant.toLower_ascii m hascii, heq]
    refine ⟨(), ⟨hex, line, hhex, hline, rfl⟩, (), ?_, (), ?_, rfl⟩
    · rw [(hdigits line hhex).1, hversion]
    · rwa [(hdigits line hhex).2]

/-- It throws errors of the port only. -/
theorem parseMachineId_error {e : Failure} (h : parseMachineId invariant m = .error e) :
    ∃ code, e = .error code := by
  simp only [parseMachineId, bind_eq_error_iff, ensure_eq_error_iff] at h
  rcases h with ⟨-, rfl⟩ | ⟨_, -, ⟨-, rfl⟩ | ⟨_, -, ⟨-, rfl⟩ | ⟨_, -, h⟩⟩⟩
  · exact ⟨_, rfl⟩
  · exact ⟨_, rfl⟩
  · exact ⟨_, rfl⟩
  · contradiction

/-! ## numbers -/

theorem encodeLoop_ofNat (n number : Nat) :
    encodeLoop n number = .ok (Radix.write typeIdAlphabet n number) := by
  induction n generalizing number with
  | zero => rfl
  | succ n ih =>
      have hmod : (number : Int).tmod 32 = ((number % 32 : Nat) : Int) := by simp [Int.tmod]
      have hdiv : (number : Int).tdiv 32 = ((number / 32 : Nat) : Int) := by simp [Int.tdiv]
      rw [encodeLoop, hmod, hdiv, ensure_of (Int.natCast_nonneg _), ok_bind, ih, ok_bind,
        Int.toNat_natCast, Radix.write_succ]
      rfl

/-- The `0` in front keeps the sign away. -/
theorem parseHexSpecifier_of_hex (h : IsHex32 hex) :
    parseHexSpecifier ('0' :: hex) = .ok (Radix.read hexAlphabet hex) := by
  have hdigits : ∀ c ∈ '0' :: hex, isHexDigit c = true := by
    intro c hc
    rcases List.mem_cons.mp hc with rfl | hc
    · decide
    · exact isHexDigit_of_mem_hexAlphabet (h.2 c hc)
  have hlower : asciiLower ('0' :: hex) = '0' :: hex := by
    apply asciiLower_eq_self
    intro c hc
    rcases List.mem_cons.mp hc with rfl | hc
    · decide
    · exact (hexAlphabet_facts c (h.2 c hc)).2.1
  have hread : Radix.read hexAlphabet ('0' :: hex) = Radix.read hexAlphabet hex := by
    have hzero : hexAlphabet.idxOf '0' = 0 := by decide
    rw [Radix.read_cons, hzero, Nat.zero_mul, Nat.zero_add]
  rw [parseHexSpecifier, ensure_of ⟨List.cons_ne_nil _ _, hdigits⟩, ok_bind, hlower, hread, if_pos]
  · rfl
  · simp only [List.head?_cons, Option.mem_def, Option.some.injEq, forall_eq']
    decide

/-- A line feed is no digit. -/
theorem parseHexSpecifier_of_lineFeed (v : Text) :
    parseHexSpecifier (v ++ ['\n']) = .error .foreign := by
  rw [parseHexSpecifier, ensure_of_not]
  · rfl
  · intro h
    exact absurd (h.2 '\n' (by simp)) (by decide)

/-- 32 digits denote a number below `2 ^ 127` exactly when the first is below
`8`. -/
theorem read_lt_half_iff (h : IsHex32 hex) :
    Radix.read hexAlphabet hex < 2 ^ 127 ↔ ∀ c ∈ hex.head?, hexAlphabet.idxOf c < 8 := by
  obtain ⟨hlen, hhex⟩ := h
  cases hex with
  | nil => simp at hlen
  | cons c rest =>
      have hrest : rest.length = 31 := by simpa using hlen
      have hbound : (2 : Nat) ^ 127 = 8 * hexAlphabet.length ^ rest.length := by
        rw [hrest]
        decide
      rw [hbound, Radix.read_cons_lt_iff (by decide) fun d hd => hhex d (by simp [hd])]
      simp

theorem toDigits_eq_write {number : Nat} (hlow : 16 ^ 31 ≤ number) (hhigh : number < 2 ^ 128) :
    Nat.toDigits 16 number = Radix.write hexAlphabet 32 number := by
  have hlt : number < 16 ^ 32 := Nat.lt_of_lt_of_eq hhigh (by norm_num)
  have hlen : (Nat.toDigits 16 number).length = 32 := by
    have hle := (Nat.length_toDigits_le_iff (by decide : 1 < 16) (by decide : 0 < 32)).mpr hlt
    have hge : ¬ (Nat.toDigits 16 number).length ≤ 31 := fun h =>
      absurd ((Nat.length_toDigits_le_iff (by decide : 1 < 16) (by decide : 0 < 31)).mp h)
        (by omega)
    omega
  have hpad := padStart_toDigits (by decide : 1 < 16) (by decide : 0 < 32) hlt
  rwa [map_digitChar_eq_write, padStart_of_le hlen.ge] at hpad

/-- **`ToString("x32")`**: the 32 digits of a number below `2 ^ 127`, and one
more from there on. -/
theorem toStringX32_eq {number : Nat} (h : number < 2 ^ 128) :
    toStringX32 number = if number < 2 ^ 127 then Radix.write hexAlphabet 32 number
      else '0' :: Radix.write hexAlphabet 32 number := by
  have hlt : number < 16 ^ 32 := Nat.lt_of_lt_of_eq h (by norm_num)
  have hwidth : hexAlphabet.length ^ 32 = 16 ^ 32 := by decide
  have hread : Radix.read hexAlphabet (Radix.write hexAlphabet 32 number) = number := by
    rw [Radix.read_write hexAlphabet_nodup (by decide), hwidth, Nat.mod_eq_of_lt hlt]
  have hhalf := read_lt_half_iff (isHex32_write number)
  rw [hread] at hhalf
  have hpad := padStart_toDigits (by decide : 1 < 16) (by decide : 0 < 32) hlt
  rw [map_digitChar_eq_write] at hpad
  have hpow : (16 : Nat) ^ 31 < 2 ^ 127 := by norm_num
  by_cases hlow : 16 ^ 31 ≤ number
  · -- all 32 places are taken
    have hdigits := toDigits_eq_write hlow h
    rw [toStringX32, hdigits]
    by_cases hsmall : number < 2 ^ 127
    · rw [if_pos hsmall, if_pos (hhalf.mp hsmall), padStart_of_le (isHex32_write number).1.ge]
    · have hlen : 32 ≤ ('0' :: Radix.write hexAlphabet 32 number).length := by
        rw [List.length_cons, (isHex32_write number).1]
        decide
      rw [if_neg hsmall, if_neg fun hhead => hsmall (hhalf.mpr hhead), padStart_of_le hlen]
  · -- a `0` in front is one of those that fill the text up
    have hlen := (Nat.length_toDigits_le_iff (by decide : 1 < 16) (by decide : 0 < 31)).mpr
      (Nat.not_le.mp hlow)
    rw [toStringX32, if_pos (show number < 2 ^ 127 by omega), ← hpad]
    split
    · rfl
    · have hfill : 32 - (Nat.toDigits 16 number).length =
          32 - ('0' :: Nat.toDigits 16 number).length + 1 := by
        rw [List.length_cons]
        omega
      rw [padStart, padStart, hfill, List.replicate_succ', List.append_assoc]
      rfl

end MachineId

/-! ## public identifiers -/

section PublicId

variable {invariant : CaseMapping} {m ns hex : Text}

/-- The encoder writes the public identifier of a machine identifier. -/
theorem publicIdFromMachineId_of_hex (hns : anchored isPublicPrefix ns = true)
    (hhex : IsMachineHex hex) (hlower : asciiLower m = formatUuid hex) :
    publicIdFromMachineId invariant m ns = .ok (publicIdText ns hex) := by
  have hparse : parseMachineId invariant m = .ok (formatUuid hex) :=
    parseMachineId_ok_iff.mpr ⟨hlower.symm, hex, [], hhex, .inl rfl, by simp [hlower]⟩
  rw [publicIdFromMachineId, ensure_of hns, ok_bind, hparse, ok_bind, strip_formatUuid hhex.1,
    parseHexSpecifier_of_hex hhex.1, ok_bind, encodeLoop_ofNat, ok_bind]
  rfl

/-- It throws on the line feed that the pattern lets pass. -/
theorem publicIdFromMachineId_of_lineFeed (hns : anchored isPublicPrefix ns = true)
    (hhex : IsMachineHex hex) (hlower : asciiLower m = formatUuid hex ++ ['\n']) :
    publicIdFromMachineId invariant m ns = .error .foreign := by
  have hparse : parseMachineId invariant m = .ok (formatUuid hex ++ ['\n']) :=
    parseMachineId_ok_iff.mpr ⟨hlower.symm, hex, ['\n'], hhex, .inr rfl, hlower⟩
  have hstrip : '0' :: strip '-' (formatUuid hex ++ ['\n']) = '0' :: hex ++ ['\n'] := by
    rw [strip_append, strip_formatUuid hhex.1]
    rfl
  rw [publicIdFromMachineId, ensure_of hns, ok_bind, hparse, ok_bind, hstrip,
    parseHexSpecifier_of_lineFeed, error_bind]

theorem namespace_facts (h : anchored isPublicPrefix ns = true) :
    ∀ c ∈ ns, c.toNat < 128 ∧ c.isUpper = false := by
  rcases anchored_iff.mp h with hplain | ⟨u, hu, rfl⟩
  · exact publicPrefix_facts hplain
  · intro c hc
    rcases List.mem_append.mp hc with hmem | hfeed
    · exact publicPrefix_facts hu c hmem
    · rw [List.mem_singleton.mp hfeed]
      decide

/-- 33 digits are cut into no machine identifier. -/
theorem parseMachineId_of_long (hhex : IsHex32 hex) (w : Text) :
    parseMachineId invariant (formatUuid ('0' :: hex)) ≠ .ok w := by
  intro h
  have hmem : ∀ c ∈ '0' :: hex, c ∈ hexAlphabet := by
    intro c hc
    rcases List.mem_cons.mp hc with rfl | hc
    · decide
    · exact hhex.2 c hc
  have hhyphen : '-' ∉ '0' :: hex := fun hc => (hexAlphabet_facts _ (hmem _ hc)).2.2.1 rfl
  obtain ⟨-, hex', line, hhex', hline, heq⟩ := parseMachineId_ok_iff.mp h
  have hlower : asciiLower (formatUuid ('0' :: hex)) = formatUuid ('0' :: hex) := by
    apply asciiLower_eq_self
    intro c hc
    rcases mem_of_mem_formatUuid hc with hd | rfl
    · exact (hexAlphabet_facts c (hmem c hd)).2.1
    · decide
  have hstrip := congrArg (strip '-') (hlower.symm.trans heq)
  rw [strip_formatUuid_of_not_mem hhyphen, strip_append, strip_formatUuid hhex'.1] at hstrip
  rcases hline with rfl | rfl
  · -- without the line feed there is a digit too many
    have hlen := congrArg List.length hstrip
    simp [hhex.1, hhex'.1.1] at hlen
  · have hfeed : '\n' ∈ '0' :: hex := by
      rw [hstrip]
      simp [strip]
    exact absurd (hmem _ hfeed) (by decide)

/-- **What the decoder makes of a public identifier**: it reads the machine
identifier where the first digit is below `8`, and rejects the rest. -/
theorem parsePublicId_publicIdText (hns : anchored isPublicPrefix ns = true)
    (hhex : IsMachineHex hex) : parsePublicId invariant (publicIdText ns hex) =
      if ∀ c ∈ hex.head?, hexAlphabet.idxOf c < 8 then
        .ok ⟨publicIdText ns hex, ns, formatUuid hex⟩
      else .error (.error .invalidPid) := by
  obtain ⟨hascii, hlower⟩ := publicIdText_lower (namespace_facts hns) hhex.1
  have hsuffix := isTypeIdSuffix_suffixOfHex hhex.1
  have hsplit : rsplitOnce '_' (publicIdText ns hex) = some (ns, suffixOfHex hex) :=
    rsplitOnce_eq_some_iff.mpr ⟨rfl, underscore_not_mem_suffix hsuffix⟩
  have hsymbols : IsAscii (suffixOfHex hex) := fun c hc =>
    (typeIdAlphabet_facts c (hsuffix.2.1 c hc)).1
  have hnumber : Radix.read typeIdAlphabet (suffixOfHex hex) = Radix.read hexAlphabet hex := by
    rw [suffixOfHex, Radix.read_write typeIdAlphabet_nodup (by decide), Nat.mod_eq_of_lt]
    exact Nat.lt_of_lt_of_le hhex.1.read_lt (by decide)
  have hread : readSuffix (Failure.error .invalidPid) 0 (suffixOfHex hex) =
      .ok (Radix.read hexAlphabet hex) := by
    rw [readSuffix_of_mem _ hsuffix.2.1, Nat.zero_mul, Nat.zero_add, hnumber]
  have hwrite : Radix.write hexAlphabet 32 (Radix.read hexAlphabet hex) = hex := by
    rw [← hhex.1.1, Radix.write_read (by decide) hhex.1.2]
  rw [parsePublicId, invariant.toLower_ascii _ hascii, ensure_of hlower.symm, ok_bind, hsplit]
  simp only
  rw [ensure_of hns, ok_bind, ensure_of ⟨by rw [utf16Length_of_isAscii hsymbols, hsuffix.1],
      (head_le_seven_iff hsuffix.1 hsuffix.2.1).mpr hsuffix.2.2⟩, ok_bind, hread, ok_bind,
    toStringX32_eq hhex.1.read_lt, hwrite]
  by_cases hhalf : Radix.read hexAlphabet hex < 2 ^ 127
  · have hparse : parseMachineId invariant (formatUuid hex) = .ok (formatUuid hex) := by
      have hself := asciiLower_formatUuid hhex.1
      exact parseMachineId_ok_iff.mpr ⟨hself.symm, hex, [], hhex, .inl rfl, by simp [hself]⟩
    rw [if_pos hhalf, if_pos ((read_lt_half_iff hhex.1).mp hhalf), hparse]
    rfl
  · rw [if_neg hhalf, if_neg fun hhead => hhalf ((read_lt_half_iff hhex.1).mpr hhead)]
    cases hparse : parseMachineId invariant (formatUuid ('0' :: hex)) with
    | ok w => exact absurd hparse (parseMachineId_of_long hhex.1 w)
    | error e => rfl

end PublicId

/-! ## the round trip -/

/-- The public identifier of a machine identifier is written, and read back as
its namespace and its lower-case form. -/
def PidRoundTrip (invariant : CaseMapping) (m ns : Text) : Prop :=
  ∃ p, publicIdFromMachineId invariant m ns = .ok p ∧
    parsePublicId invariant p = .ok ⟨p, ns, asciiLower m⟩

/-- The first digit of a machine identifier, read off the text. -/
theorem head_lt_eight_iff {m hex : Text} (hhex : IsHex32 hex)
    (hlower : asciiLower m = formatUuid hex) :
    (∀ c ∈ m.head?, c < '8') ↔ ∀ c ∈ hex.head?, hexAlphabet.idxOf c < 8 := by
  have hdigit : ∀ c : Char, c.toLower ∈ hexAlphabet →
      (c < '8' ↔ hexAlphabet.idxOf c.toLower < 8) := by
    intro c hc
    have hascii := (toNat_toLower_lt_iff c).mp (hexAlphabet_facts _ hc).1
    exact forall_ascii (P := fun c => c.toLower ∈ hexAlphabet →
      (c < '8' ↔ hexAlphabet.idxOf c.toLower < 8)) (by decide +kernel) c hascii hc
  have hhead : (asciiLower m).head? = hex.head? := by
    rw [hlower]
    cases hex with
    | nil => exact absurd hhex.1 (by decide)
    | cons d rest => rfl
  cases m with
  | nil => simp [← hhead, asciiLower]
  | cons c rest =>
      have hc : c.toLower ∈ hexAlphabet := hhex.2 _ (List.mem_of_head? hhead.symm)
      simp [← hhead, asciiLower, hdigit c hc]

/-- A line feed has no other case. -/
theorem getLast?_of_asciiLower {m v : Text} (h : asciiLower m = v ++ ['\n']) :
    m.getLast? = some '\n' := by
  have hlast : (asciiLower m).getLast? = some '\n' := by
    rw [h, List.getLast?_concat]
  rw [asciiLower, List.getLast?_map, Option.map_eq_some_iff] at hlast
  obtain ⟨c, hc, heq⟩ := hlast
  rwa [(toLower_eq_iff (by decide)).mp heq] at hc

/-- **The round trip of the C# port**: for every accepted machine identifier and
every valid namespace, the public identifier reads back exactly when the
machine identifier begins with a digit below `8` and has no line feed behind
it. -/
theorem pidRoundTrip_iff (invariant : CaseMapping) {m ns canonical : Text}
    (hm : parseMachineId invariant m = .ok canonical) (hns : anchored isPublicPrefix ns = true) :
    PidRoundTrip invariant m ns ↔ (∀ c ∈ m.head?, c < '8') ∧ m.getLast? ≠ some '\n' := by
  obtain ⟨-, hex, line, hhex, hline, hlower⟩ := parseMachineId_ok_iff.mp hm
  rcases hline with rfl | rfl
  · rw [List.append_nil] at hlower
    have hlast : m.getLast? ≠ some '\n' := by
      intro h
      obtain ⟨u, rfl⟩ := List.getLast?_eq_some_iff.mp h
      have hfeed : '\n' ∈ formatUuid hex := by
        rw [← hlower]
        simp [asciiLower]
      rcases mem_formatUuid hhex.1 hfeed with h | h
      · exact absurd h (by decide)
      · exact absurd h (by decide)
    rw [PidRoundTrip, publicIdFromMachineId_of_hex hns hhex hlower]
    simp only [Except.ok.injEq, exists_eq_left', parsePublicId_publicIdText hns hhex,
      head_lt_eight_iff hhex.1 hlower, hlower]
    split
    · next h => exact ⟨fun _ => ⟨h, hlast⟩, fun _ => rfl⟩
    · next h => exact ⟨fun heq => by contradiction, fun hcond => absurd hcond.1 h⟩
  · have hlast : m.getLast? = some '\n' := getLast?_of_asciiLower hlower
    rw [PidRoundTrip, publicIdFromMachineId_of_lineFeed hns hhex hlower]
    constructor
    · rintro ⟨p, heq, -⟩
      contradiction
    · intro hcond
      exact absurd hlast hcond.2

/-- A present-day machine identifier reads back. -/
theorem pidRoundTrip_presentDay :
    PidRoundTrip asciiCaseMapping "019f0000-0000-7000-8000-00000000ABCD".toList "order".toList := by
  have hm : parseMachineId asciiCaseMapping "019f0000-0000-7000-8000-00000000ABCD".toList =
      .ok "019f0000-0000-7000-8000-00000000abcd".toList := by decide
  exact (pidRoundTrip_iff asciiCaseMapping hm (by decide)).mpr (by decide)

/-- A machine identifier of a later age is written, and not read back. -/
theorem pidRoundTrip_fails_from_eight :
    ∃ m ns : Text, parseMachineId asciiCaseMapping m = .ok m ∧ isPublicPrefix ns = true ∧
      ¬ PidRoundTrip asciiCaseMapping m ns := by
  refine ⟨"819f0000-0000-7000-8000-000000000001".toList, "order".toList, by decide, by decide, ?_⟩
  have hhex : IsMachineHex "819f0000000070008000000000000001".toList := by
    simp only [IsMachineHex, IsHex32]
    decide
  rintro ⟨p, hwritten, hread⟩
  rw [publicIdFromMachineId_of_hex (by decide) hhex (by decide)] at hwritten
  cases hwritten
  rw [parsePublicId_publicIdText (by decide) hhex, if_neg (by decide)] at hread
  contradiction

end Identifold.CSharp
