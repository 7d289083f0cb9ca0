import Identifold.Errors
import Identifold.Text

/-!
# Identifold.MachineId

Machine identifiers: UUIDv7 strings in canonical lower-case form.

All three implementations print a UUID by cutting its 32 hexadecimal digits
into five groups (`formatUuid`), and accept a machine identifier by a pattern
for that layout and two digit tests, for the version and the variant.  What
they accept is `IsMachineId`; this file proves it for `parseMachineId` of
`packages/typescript/src/machine.ts`, over the `uuid` package.

* `strip_formatUuid`, `asciiLower_formatUuid` — the canonical form, without
  hyphens and in lower case;
* `machinePattern_toLower_iff` — the pattern does not depend on the case mapping;
* `parseMachineId_ok_iff` — what the parser accepts.
-/

namespace Identifold

open Separated

/-! ## the layout -/

/-- The lower-case hexadecimal digits. -/
def hexAlphabet : Text := "0123456789abcdef".toList

/-- The five groups of a UUID's digits. -/
def uuidGroups (hex : Text) : List Text :=
  [hex.take 8, (hex.drop 8).take 4, (hex.drop 12).take 4, (hex.drop 16).take 4, hex.drop 20]

/-- `{8}-{4}-{4}-{4}-{12}`. -/
def formatUuid (hex : Text) : Text := join '-' (uuidGroups hex)

/-- `^[0-9a-f]{8}-[0-9a-f]{4}-[0-9a-f]{4}-[0-9a-f]{4}-[0-9a-f]{12}$`. -/
def machinePattern (v : Text) : Bool :=
  (v.splitOn '-').map List.length = [8, 4, 4, 4, 12] && v.all fun c => c ∈ hexAlphabet || c = '-'

/-- 32 hexadecimal digits. -/
def IsHex32 (hex : Text) : Prop := hex.length = 32 ∧ ∀ c ∈ hex, c ∈ hexAlphabet

/-- The digits of a UUID of version 7 and of the RFC variant. -/
def IsMachineHex (hex : Text) : Prop :=
  IsHex32 hex ∧ hex[12]? = some '7' ∧ ∃ c ∈ "89ab".toList, hex[16]? = some c

/-- The canonical texts of machine identifiers. -/
def IsMachineId (v : Text) : Prop := ∃ hex, IsMachineHex hex ∧ v = formatUuid hex

/-! ## digits -/

/-- Hexadecimal digits are small ASCII symbols, and none of them is a separator or a
letter that a symbol beyond ASCII is lowered to. -/
theorem hexAlphabet_facts : ∀ c ∈ hexAlphabet,
    c.toNat < 128 ∧ c.isUpper = false ∧ c ≠ '-' ∧ c ≠ '_' ∧ c ≠ 'i' ∧ c ≠ 'k' := by
  decide

theorem isHexDigit_of_mem_hexAlphabet {c : Char} (h : c ∈ hexAlphabet) : isHexDigit c = true := by
  have hall : ∀ c ∈ hexAlphabet, isHexDigit c = true := by decide
  exact hall c h

theorem isHexDigit_of_toLower_mem {c : Char} (h : c.toLower ∈ hexAlphabet) : isHexDigit c = true :=
  forall_ascii (P := fun c => c.toLower ∈ hexAlphabet → isHexDigit c = true) (by decide) c
    ((toNat_toLower_lt_iff c).mp (hexAlphabet_facts _ h).1) h

theorem toLower_mem_hexAlphabet {c : Char} (h : isHexDigit c = true) : c.toLower ∈ hexAlphabet :=
  forall_ascii (P := fun c => isHexDigit c = true → c.toLower ∈ hexAlphabet) (by decide) c
    (toNat_lt_of_isHexDigit h) h

section Layout

variable {hex v : Text}

/-- The groups of a UUID are its digits. -/
theorem flatten_uuidGroups (hex : Text) : (uuidGroups hex).flatten = hex := by
  simp only [uuidGroups, List.flatten_cons, List.flatten_nil, List.append_nil]
  have h16 : (hex.drop 16).take 4 ++ hex.drop 20 = hex.drop 16 := by
    rw [← List.drop_drop (i := 4) (j := 16), List.take_append_drop]
  have h12 : (hex.drop 12).take 4 ++ hex.drop 16 = hex.drop 12 := by
    rw [← List.drop_drop (i := 4) (j := 12), List.take_append_drop]
  have h8 : (hex.drop 8).take 4 ++ hex.drop 12 = hex.drop 8 := by
    rw [← List.drop_drop (i := 4) (j := 8), List.take_append_drop]
  rw [h16, h12, h8, List.take_append_drop]

theorem hyphen_not_mem_uuidGroups (h : '-' ∉ hex) : ∀ g ∈ uuidGroups hex, '-' ∉ g := by
  intro g hg hmem
  have hhex : '-' ∈ (uuidGroups hex).flatten := List.mem_flatten.mpr ⟨g, hg, hmem⟩
  rw [flatten_uuidGroups] at hhex
  exact h hhex

theorem IsHex32.hyphen_not_mem (h : IsHex32 hex) : '-' ∉ hex := fun hmem =>
  (hexAlphabet_facts _ (h.2 _ hmem)).2.2.1 rfl

/-- Their lengths are those of the canonical form. -/
theorem map_length_uuidGroups (h : hex.length = 32) :
    (uuidGroups hex).map List.length = [8, 4, 4, 4, 12] := by
  simp [uuidGroups, h]

theorem strip_formatUuid_of_not_mem (h : '-' ∉ hex) : strip '-' (formatUuid hex) = hex := by
  rw [formatUuid, strip_join (hyphen_not_mem_uuidGroups h) (by simp [uuidGroups]),
    flatten_uuidGroups]

/-- The canonical form without its hyphens is the digits. -/
theorem strip_formatUuid (h : IsHex32 hex) : strip '-' (formatUuid hex) = hex :=
  strip_formatUuid_of_not_mem h.hyphen_not_mem

theorem length_formatUuid (h : hex.length = 32) : (formatUuid hex).length = 36 := by
  have hlen := length_join '-' (uuidGroups hex) (by simp [uuidGroups])
  rw [flatten_uuidGroups, h] at hlen
  simp only [uuidGroups, List.length_cons, List.length_nil] at hlen
  rw [formatUuid, uuidGroups]
  omega

/-- It has nothing but digits and hyphens. -/
theorem mem_of_mem_formatUuid {c : Char} (hc : c ∈ formatUuid hex) : c ∈ hex ∨ c = '-' := by
  rcases mem_join hc with hsep | ⟨g, hg, hcg⟩
  · exact .inr hsep
  · have hhex : c ∈ (uuidGroups hex).flatten := List.mem_flatten.mpr ⟨g, hg, hcg⟩
    rw [flatten_uuidGroups] at hhex
    exact .inl hhex

theorem mem_formatUuid {c : Char} (h : IsHex32 hex) (hc : c ∈ formatUuid hex) :
    c ∈ hexAlphabet ∨ c = '-' :=
  (mem_of_mem_formatUuid hc).imp_left (h.2 c)

/-- The version digit stands at position 14 of the text, the variant digit at
position 19. -/
theorem getElem?_formatUuid (h : hex.length = 32) :
    (formatUuid hex)[14]? = hex[12]? ∧ (formatUuid hex)[19]? = hex[16]? := by
  constructor <;>
    simp [formatUuid, uuidGroups, join, h]

/-- The pattern describes the printed form of 32 digits. -/
theorem machinePattern_iff : machinePattern v = true ↔ ∃ hex, IsHex32 hex ∧ v = formatUuid hex := by
  simp only [machinePattern, Bool.and_eq_true, decide_eq_true_eq, List.all_eq_true,
    Bool.or_eq_true]
  constructor
  · rintro ⟨hlen, hsymbols⟩
    have hdigits : ∀ c ∈ strip '-' v, c ∈ hexAlphabet := by
      intro c hc
      rcases hsymbols c (mem_of_mem_strip hc) with h | rfl
      · exact h
      · exact absurd hc (not_mem_strip '-' v)
    have hsum : (strip '-' v).length = 32 := by
      rw [← flatten_splitOn, List.length_flatten, hlen]
      rfl
    refine ⟨strip '-' v, ⟨hsum, hdigits⟩, ?_⟩
    rw [formatUuid, eq_join_iff _ (hyphen_not_mem_uuidGroups (not_mem_strip '-' v)) (by simp [uuidGroups])]
    exact ⟨by rw [hlen, map_length_uuidGroups hsum], (flatten_uuidGroups _).symm⟩
  · rintro ⟨hex, hhex, rfl⟩
    refine ⟨?_, fun c hc => mem_formatUuid hhex hc⟩
    rw [formatUuid, splitOn_join (hyphen_not_mem_uuidGroups hhex.hyphen_not_mem) (by simp [uuidGroups]),
      map_length_uuidGroups hhex.1]

/-- A machine identifier is a text of the pattern with the two digits. -/
theorem isMachineId_iff :
    IsMachineId v ↔
      machinePattern v = true ∧ v[14]? = some '7' ∧ ∃ c ∈ "89ab".toList, v[19]? = some c := by
  rw [machinePattern_iff]
  constructor
  · rintro ⟨hex, ⟨hhex, hversion, hvariant⟩, rfl⟩
    obtain ⟨h14, h19⟩ := getElem?_formatUuid hhex.1
    exact ⟨⟨hex, hhex, rfl⟩, by rw [h14, hversion], by rwa [h19]⟩
  · rintro ⟨⟨hex, hhex, rfl⟩, hversion, hvariant⟩
    obtain ⟨h14, h19⟩ := getElem?_formatUuid hhex.1
    exact ⟨hex, ⟨hhex, by rwa [h14] at hversion, by rwa [h19] at hvariant⟩, rfl⟩

/-- The digits of a machine identifier are determined by its text. -/
theorem isMachineHex_of_formatUuid (hhex : IsHex32 hex) (h : IsMachineId (formatUuid hex)) :
    IsMachineHex hex := by
  obtain ⟨hex', hmachine, heq⟩ := h
  have hstrip := congrArg (strip '-') heq
  rw [strip_formatUuid hhex, strip_formatUuid hmachine.1] at hstrip
  rwa [hstrip]

/-- The canonical form is small. -/
theorem asciiLower_formatUuid (h : IsHex32 hex) : asciiLower (formatUuid hex) = formatUuid hex := by
  apply asciiLower_eq_self
  intro c hc
  rcases mem_formatUuid h hc with hd | rfl
  · exact (hexAlphabet_facts c hd).2.1
  · decide

/-- Machine identifiers are ASCII texts of 36 symbols in lower case, without
underscores. -/
theorem IsMachineId.facts (h : IsMachineId v) :
    v.length = 36 ∧ IsAscii v ∧ asciiLower v = v ∧ '_' ∉ v := by
  obtain ⟨hex, ⟨hhex, -, -⟩, rfl⟩ := h
  have hsymbol : ∀ c ∈ formatUuid hex, c.toNat < 128 ∧ c.isUpper = false ∧ c ≠ '_' := by
    intro c hc
    rcases mem_formatUuid hhex hc with hd | rfl
    · obtain ⟨hascii, hupper, -, hne, -⟩ := hexAlphabet_facts c hd
      exact ⟨hascii, hupper, hne⟩
    · decide
  exact ⟨length_formatUuid hhex.1, fun c hc => (hsymbol c hc).1,
    asciiLower_eq_self fun c hc => (hsymbol c hc).2.1, fun h => (hsymbol _ h).2.2 rfl⟩

end Layout

/-! ## lower-casing with a Unicode case map -/

theorem toLower_of_mem_hexAlphabet {c : Char} (h : c ∈ hexAlphabet) : c.toLower = c :=
  toLower_of_not_isUpper (hexAlphabet_facts c h).2.1

/-- A Unicode lower-case form of ASCII symbols without `i` and `k` is the ASCII
lower-case form of an ASCII text. -/
theorem CaseMapping.toLower_of_plain (unicode : CaseMapping) {v : Text}
    (h : ∀ c ∈ unicode.toLower v, c.toNat < 128 ∧ c ≠ 'i' ∧ c ≠ 'k') :
    IsAscii v ∧ unicode.toLower v = asciiLower v := by
  by_cases hv : IsAscii v
  · exact ⟨hv, unicode.toLower_ascii v hv⟩
  · obtain ⟨c, hc, hshow⟩ := unicode.toLower_nonAscii v hv
    obtain ⟨hascii, hi, hk⟩ := h c hc
    rcases hshow with hshow | rfl | rfl
    · omega
    · contradiction
    · contradiction

/-- A Unicode lower-case form that consists of hexadecimal digits and hyphens
is the ASCII lower-case form of an ASCII text. -/
theorem CaseMapping.toLower_of_hex (unicode : CaseMapping) {v : Text}
    (h : ∀ c ∈ unicode.toLower v, c.toLower ∈ hexAlphabet ∨ c.toLower = '-') :
    IsAscii v ∧ unicode.toLower v = asciiLower v := by
  apply unicode.toLower_of_plain
  intro c hc
  have hascii : c.toNat < 128 := by
    rw [← toNat_toLower_lt_iff]
    rcases h c hc with hd | hd
    · exact (hexAlphabet_facts _ hd).1
    · rw [hd]; decide
  refine ⟨hascii, ?_, ?_⟩
  · rintro rfl
    exact absurd (h 'i' hc) (by decide)
  · rintro rfl
    exact absurd (h 'k' hc) (by decide)

/-- A text of any case with a canonical form is ASCII. -/
theorem isAscii_of_asciiLower_eq_formatUuid {v hex : Text} (hhex : IsHex32 hex)
    (h : asciiLower v = formatUuid hex) : IsAscii v := by
  rw [← isAscii_asciiLower_iff, h]
  intro c hc
  rcases mem_formatUuid hhex hc with hd | rfl
  · exact (hexAlphabet_facts c hd).1
  · decide

/-- The pattern does not depend on the case mapping beyond ASCII. -/
theorem machinePattern_toLower_iff (unicode : CaseMapping) {v : Text} :
    machinePattern (unicode.toLower v) = true ↔ machinePattern (asciiLower v) = true := by
  constructor
  · intro h
    obtain ⟨hex, hhex, hv⟩ := machinePattern_iff.mp h
    have hlower := unicode.toLower_of_hex fun c hc => by
      rcases mem_formatUuid hhex (hv ▸ hc) with hd | rfl
      · exact .inl (by rwa [toLower_of_mem_hexAlphabet hd])
      · exact .inr rfl
    rwa [hlower.2] at h
  · intro h
    obtain ⟨hex, hhex, hv⟩ := machinePattern_iff.mp h
    rwa [unicode.toLower_ascii v (isAscii_of_asciiLower_eq_formatUuid hhex hv)]

/-! ## the TypeScript parser -/

/-- The UUIDs of RFC 9562, in lower case: versions 1 to 8 of the RFC variant,
the nil and the max UUID. -/
def IsRfc9562 (v : Text) : Prop :=
  ∃ hex, IsHex32 hex ∧ v = formatUuid hex ∧
    (((∃ c ∈ "12345678".toList, hex[12]? = some c) ∧ ∃ c ∈ "89ab".toList, hex[16]? = some c) ∨
      hex = List.replicate 32 '0' ∨ hex = List.replicate 32 'f')

/-- The functions of the `uuid` package that the code calls.  `validate`
accepts the UUIDs of RFC 9562 in either case; `version` reads the version
digit of an accepted text and throws on any other. -/
structure UuidLibrary where
  validate : Text → Bool
  version : Text → Except Thrown Nat
  validate_iff : ∀ v, validate v = true ↔ IsRfc9562 (asciiLower v)
  version_of_valid : ∀ v, validate v = true →
    ∃ c, v[14]? = some c ∧ version v = .ok (hexAlphabet.idxOf c.toLower)

/-- `parseMachineId`. -/
def parseMachineId (unicode : CaseMapping) (uuid : UuidLibrary) (value : Text) :
    Except Thrown Text := do
  let canonical := unicode.toLower value
  ensure (utf16Length canonical = 36 ∧ uuid.validate canonical = true)
    (.identifold ⟨.invalidMid, "Invalid machine identifier"⟩)
  let version ← uuid.version canonical
  ensure (version = 7)
    (.identifold ⟨.invalidUuidVersion, "Machine identifiers must use UUIDv7"⟩)
  return canonical

/-- The canonical form of an accepted text, and what the library says of it. -/
theorem validate_toLower_iff {unicode : CaseMapping} (uuid : UuidLibrary) {v : Text} :
    uuid.validate (unicode.toLower v) = true ↔
      unicode.toLower v = asciiLower v ∧ IsRfc9562 (asciiLower v) := by
  rw [uuid.validate_iff]
  constructor
  · intro h
    obtain ⟨hex, hhex, heq, hrest⟩ := h
    have hlower := unicode.toLower_of_hex (v := v) fun c hc => by
      have hmem : c.toLower ∈ formatUuid hex := heq ▸ List.mem_map_of_mem hc
      exact mem_formatUuid hhex hmem
    rw [hlower.2, asciiLower_asciiLower] at heq
    exact ⟨hlower.2, hex, hhex, heq, hrest⟩
  · rintro ⟨heq, hrfc⟩
    rwa [heq, asciiLower_asciiLower]

/-- The RFC strings whose version digit is 7 are the machine identifiers. -/
theorem isMachineId_of_isRfc9562 {v : Text} (h : IsRfc9562 v) (hversion : v[14]? = some '7') :
    IsMachineId v := by
  obtain ⟨hex, hhex, rfl, hdigits⟩ := h
  rw [(getElem?_formatUuid hhex.1).1] at hversion
  refine ⟨hex, ⟨hhex, hversion, ?_⟩, rfl⟩
  rcases hdigits with ⟨-, hvariant⟩ | rfl | rfl
  · exact hvariant
  · exact absurd hversion (by decide)
  · exact absurd hversion (by decide)

/-- Version 7 of the RFC variant is one of the RFC's. -/
theorem IsMachineHex.isRfc9562 {hex : Text} (h : IsMachineHex hex) :
    IsRfc9562 (formatUuid hex) := by
  obtain ⟨hhex, hversion, hvariant⟩ := h
  exact ⟨hex, hhex, rfl, .inl ⟨⟨'7', by decide, hversion⟩, hvariant⟩⟩

/-- A machine identifier is a UUID of RFC 9562, of version 7. -/
theorem IsMachineId.isRfc9562 {v : Text} (h : IsMachineId v) : IsRfc9562 v := by
  obtain ⟨hex, hhex, rfl⟩ := h
  exact hhex.isRfc9562

/-- The library's version of an accepted lower-case text is its digit. -/
theorem version_eq_seven_iff (uuid : UuidLibrary) {v : Text} (hrfc : IsRfc9562 v)
    (hvalid : uuid.validate v = true) :
    uuid.version v = .ok 7 ↔ v[14]? = some '7' := by
  obtain ⟨c, hc, hversion⟩ := uuid.version_of_valid v hvalid
  obtain ⟨hex, hhex, rfl, -⟩ := hrfc
  have hmem : c ∈ hexAlphabet := by
    rw [(getElem?_formatUuid hhex.1).1] at hc
    exact hhex.2 c (List.mem_of_getElem? hc)
  rw [hversion, hc, toLower_of_mem_hexAlphabet hmem, Except.ok.injEq, Option.some.injEq]
  constructor
  · intro hidx
    have hget := List.getElem?_idxOf hmem
    rw [hidx] at hget
    exact (Option.some.inj hget).symm
  · rintro rfl
    decide

/-- **`parseMachineId` accepts machine identifiers** in either case, and
returns them in lower case. -/
theorem parseMachineId_ok_iff {unicode : CaseMapping} {uuid : UuidLibrary} {v w : Text} :
    parseMachineId unicode uuid v = .ok w ↔ IsMachineId w ∧ w = asciiLower v := by
  simp only [parseMachineId, bind_eq_ok_iff, ensure_eq_ok_iff, pure_eq_ok_iff]
  constructor
  · rintro ⟨_, ⟨-, hvalid⟩, version, hversion, _, rfl, rfl⟩
    obtain ⟨heq, hrfc⟩ := (validate_toLower_iff uuid).mp hvalid
    rw [heq] at hvalid hversion ⊢
    exact ⟨isMachineId_of_isRfc9562 hrfc ((version_eq_seven_iff uuid hrfc hvalid).mp hversion), rfl⟩
  · rintro ⟨hmachine, rfl⟩
    obtain ⟨hlen, hascii, -, -⟩ := hmachine.facts
    have hlower : unicode.toLower v = asciiLower v :=
      unicode.toLower_ascii v ((isAscii_asciiLower_iff v).mp hascii)
    have hvalid := (validate_toLower_iff uuid).mpr ⟨hlower, hmachine.isRfc9562⟩
    have hdigit := (isMachineId_iff.mp hmachine).2.1
    rw [hlower] at hvalid ⊢
    exact ⟨(), ⟨by rw [utf16Length_of_isAscii hascii, hlen], hvalid⟩, 7,
      (version_eq_seven_iff uuid hmachine.isRfc9562 hvalid).mpr hdigit, (), rfl, rfl⟩

/-- The library's `version` does not throw on a validated text. -/
theorem parseMachineId_throws (unicode : CaseMapping) (uuid : UuidLibrary) (v : Text) :
    ThrowsIdentifold (parseMachineId unicode uuid v) := by
  refine .bind (.check _ _) fun _ hvalid => ?_
  obtain ⟨c, -, hversion⟩ := uuid.version_of_valid _ (ensure_eq_ok_iff.mp hvalid).2
  refine .bind ?_ fun version _ => .bind (.check _ _) fun _ _ => .ok _
  rw [hversion]
  exact .ok _

/-! ## the `uuid` package -/

/-- The package's two functions, as RFC 9562 describes its strings. -/
def rfc9562 : UuidLibrary where
  validate v :=
    let hex := strip '-' (asciiLower v)
    machinePattern (asciiLower v) &&
      ((hex[12]?.any (· ∈ "12345678".toList) && hex[16]?.any (· ∈ "89ab".toList)) ||
        hex = List.replicate 32 '0' || hex = List.replicate 32 'f')
  version v :=
    match v[14]? with
    | some c => .ok (hexAlphabet.idxOf c.toLower)
    | none => .error .foreign
  validate_iff v := by
    simp only [Bool.and_eq_true, Bool.or_eq_true, machinePattern_iff, Option.any_eq_true,
      decide_eq_true_eq, IsRfc9562, or_assoc]
    constructor
    · rintro ⟨⟨hex, hhex, heq⟩, hdigits⟩
      rw [heq, strip_formatUuid hhex] at hdigits
      refine ⟨hex, hhex, heq, ?_⟩
      simpa only [and_comm] using hdigits
    · rintro ⟨hex, hhex, heq, hdigits⟩
      rw [heq, strip_formatUuid hhex]
      refine ⟨⟨hex, hhex, rfl⟩, ?_⟩
      simpa only [and_comm] using hdigits
  version_of_valid v h := by
    simp only [Bool.and_eq_true, machinePattern_iff] at h
    obtain ⟨⟨hex, hhex, heq⟩, -⟩ := h
    have hlen : v.length = 36 := by
      rw [← length_asciiLower, heq, length_formatUuid hhex.1]
    have hget : v[14]? = some v[14] := List.getElem?_eq_getElem (by omega)
    exact ⟨v[14], hget, by rw [hget]⟩

end Identifold
