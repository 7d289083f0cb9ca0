import Mathlib.Data.Char
import Identifold.MachineId
import Identifold.Registry

/-!
# Identifold.PublicId

Public identifiers: a TypeID prefix, an underscore, and a UUID's 128 bits
printed as 26 base-32 symbols.

26 symbols carry 130 bits; the two spare ones are the leading bits of the
first symbol, which the grammar keeps at zero by its bound `7`.
`isTypeIdSuffix_iff` states that this bound is exact: suffixes and numbers
below `2 ^ 128` correspond.  `publicIdText` is the text the codecs of all
three packages write and read; this file proves it for `parsePublicId` of
`packages/typescript/src/public.ts`, over the `typeid-js` package.

* `read_lt_iff` — the bound on the first symbol;
* `publicIdText_lt_publicIdText_iff` — public identifiers keep the order;
* `publicIdFromMachineId_ok_iff`, `parsePublicId_ok_iff` — what is written, and
  what is read;
* `parsePublicId_throws_iff` — which errors are not the library's.
-/

namespace Identifold

open Separated

/-! ## suffixes -/

/-- `TYPEID`/`typeIDAlphabet`: lower-case Crockford base 32. -/
def typeIdAlphabet : Text := "0123456789abcdefghjkmnpqrstvwxyz".toList

/-- 26 symbols of the alphabet, the first at most `7`. -/
def IsTypeIdSuffix (s : Text) : Prop :=
  s.length = 26 ∧ (∀ c ∈ s, c ∈ typeIdAlphabet) ∧ ∃ c ∈ "01234567".toList, s[0]? = some c

/-- The suffix of a UUID's hexadecimal digits. -/
def suffixOfHex (hex : Text) : Text := Radix.write typeIdAlphabet 26 (Radix.read hexAlphabet hex)

/-- The hexadecimal digits of a suffix. -/
def hexOfSuffix (s : Text) : Text := Radix.write hexAlphabet 32 (Radix.read typeIdAlphabet s)

/-- The public identifier of a namespace and a UUID. -/
def publicIdText (namespaceName hex : Text) : Text := namespaceName ++ '_' :: suffixOfHex hex

/-- The symbols of a suffix are small ASCII symbols, and the first eight are the
digits up to `7`. -/
theorem typeIdAlphabet_facts : ∀ c ∈ typeIdAlphabet,
    c.toNat < 128 ∧ c.isUpper = false ∧ c ≠ '_' ∧ (c ≤ '7' ↔ c ∈ "01234567".toList) ∧
      (typeIdAlphabet.idxOf c < 8 ↔ c ∈ "01234567".toList) := by
  decide

theorem typeIdAlphabet_nodup : typeIdAlphabet.Nodup := by decide

theorem hexAlphabet_nodup : hexAlphabet.Nodup := by decide

/-- **The first-symbol bound is exact**: 26 symbols of the alphabet denote a
number below `2 ^ 128` exactly when the first is at most `7`. -/
theorem read_lt_iff {s : Text} (hlen : s.length = 26) (hs : ∀ c ∈ s, c ∈ typeIdAlphabet) :
    Radix.read typeIdAlphabet s < 2 ^ 128 ↔ ∃ c ∈ "01234567".toList, s[0]? = some c := by
  cases s with
  | nil => simp at hlen
  | cons c rest =>
      have hrest : rest.length = 25 := by simpa using hlen
      have hfirst := (typeIdAlphabet_facts c (hs c (by simp))).2.2.2.2
      have hone : 1 < typeIdAlphabet.length := by decide
      have hbound : (2 : Nat) ^ 128 = 8 * typeIdAlphabet.length ^ rest.length := by
        rw [hrest]
        decide
      rw [hbound, Radix.read_cons_lt_iff hone fun d hd => hs d (List.mem_cons_of_mem c hd)]
      simp only [List.getElem?_cons_zero, Option.some.injEq, exists_eq_right']
      exact hfirst

/-- The ports compare the first symbol with `7`. -/
theorem head_le_seven_iff {s : Text} (hlen : s.length = 26) (hs : ∀ c ∈ s, c ∈ typeIdAlphabet) :
    (∀ c ∈ s.head?, c ≤ '7') ↔ ∃ c ∈ "01234567".toList, s[0]? = some c := by
  cases s with
  | nil => simp at hlen
  | cons c s =>
      have hc := (typeIdAlphabet_facts c (hs c (by simp))).2.2.2.1
      simpa using hc

/-- The guard of the byte-oriented ports, over symbols of the alphabet. -/
theorem suffix_guard_iff {s : Text} (hs : ∀ c ∈ s, c ∈ typeIdAlphabet) :
    (utf8Length s = 26 ∧ ∀ c ∈ s.head?, c ≤ '7') ↔ IsTypeIdSuffix s := by
  have hascii : IsAscii s := fun c hc => (typeIdAlphabet_facts c (hs c hc)).1
  rw [utf8Length_of_isAscii hascii]
  constructor
  · rintro ⟨hlen, hguard⟩
    exact ⟨hlen, hs, (head_le_seven_iff hlen hs).mp hguard⟩
  · rintro ⟨hlen, _, hfirst⟩
    exact ⟨hlen, (head_le_seven_iff hlen hs).mpr hfirst⟩

/-- The number of a suffix has 128 bits. -/
theorem IsTypeIdSuffix.read_lt {s : Text} (h : IsTypeIdSuffix s) :
    Radix.read typeIdAlphabet s < 2 ^ 128 :=
  (read_lt_iff h.1 h.2.1).mpr h.2.2

/-- Every number below `2 ^ 128` is written as a suffix. -/
theorem isTypeIdSuffix_write {n : Nat} (h : n < 2 ^ 128) :
    IsTypeIdSuffix (Radix.write typeIdAlphabet 26 n) := by
  have hlen := Radix.length_write typeIdAlphabet_nodup (by decide) 26 n
  have hmem : ∀ c ∈ Radix.write typeIdAlphabet 26 n, c ∈ typeIdAlphabet := fun c hc =>
    Radix.mem_of_mem_write hc
  refine ⟨hlen, hmem, (read_lt_iff hlen hmem).mp ?_⟩
  rw [Radix.read_write typeIdAlphabet_nodup (by decide)]
  exact Nat.lt_of_le_of_lt (Nat.mod_le _ _) h

/-- Hexadecimal digits print a number over the alphabet. -/
theorem map_digitChar_eq_write (w n : Nat) :
    (Radix.digits 16 w n).map Nat.digitChar = Radix.write hexAlphabet w n := by
  have hdigit : ∀ d < 16, hexAlphabet[d]? = some (Nat.digitChar d) := by decide
  have hall : ∀ ds : List Nat, (∀ d ∈ ds, d < 16) →
      ds.map Nat.digitChar = ds.filterMap (hexAlphabet[·]?) := by
    intro ds h
    induction ds with
    | nil => rfl
    | cons d ds ih =>
        rw [List.map_cons, List.filterMap_cons_some (hdigit d (h d (by simp))),
          ih fun e he => h e (by simp [he])]
  exact hall _ (Radix.digits_lt (by decide) w n)

/-- A number is written with 32 digits. -/
theorem isHex32_write (n : Nat) : IsHex32 (Radix.write hexAlphabet 32 n) :=
  ⟨Radix.length_write hexAlphabet_nodup (by decide) 32 n, fun _ hc => Radix.mem_of_mem_write hc⟩

theorem IsHex32.read_lt {hex : Text} (h : IsHex32 hex) : Radix.read hexAlphabet hex < 2 ^ 128 := by
  have hone : 1 < hexAlphabet.length := by decide
  have hlt := Radix.read_lt hone h.2
  have hbound : hexAlphabet.length ^ hex.length = 2 ^ 128 := by rw [h.1]; decide
  rwa [hbound] at hlt

/-- Suffix and digits determine each other. -/
theorem hexOfSuffix_suffixOfHex {hex : Text} (h : IsHex32 hex) :
    hexOfSuffix (suffixOfHex hex) = hex := by
  have hlt := h.read_lt
  have hwide : Radix.read hexAlphabet hex < typeIdAlphabet.length ^ 26 :=
    Nat.lt_of_lt_of_le hlt (by decide)
  rw [hexOfSuffix, suffixOfHex, Radix.read_write typeIdAlphabet_nodup (by decide),
    Nat.mod_eq_of_lt hwide, ← h.1, Radix.write_read (by decide) h.2]

/-- A suffix is encoded back. -/
theorem suffixOfHex_hexOfSuffix {s : Text} (h : IsTypeIdSuffix s) :
    suffixOfHex (hexOfSuffix s) = s := by
  have hlt : Radix.read typeIdAlphabet s < hexAlphabet.length ^ 32 :=
    Nat.lt_of_lt_of_le h.read_lt (by decide)
  rw [hexOfSuffix, suffixOfHex, Radix.read_write hexAlphabet_nodup (by decide),
    Nat.mod_eq_of_lt hlt, ← h.1, Radix.write_read (by decide) h.2.1]

/-- What 32 digits encode to is a suffix. -/
theorem isTypeIdSuffix_suffixOfHex {hex : Text} (h : IsHex32 hex) :
    IsTypeIdSuffix (suffixOfHex hex) :=
  isTypeIdSuffix_write h.read_lt

/-- The loop of the ports that read a suffix into a big integer: five bits for
every symbol, and an error for a symbol outside the alphabet. -/
def readSuffix {ε : Type} (invalid : ε) (number : Nat) : Text → Except ε Nat
  | [] => .ok number
  | symbol :: value =>
      if symbol ∈ typeIdAlphabet then
        readSuffix invalid (number <<< 5 ||| typeIdAlphabet.idxOf symbol) value
      else .error invalid

/-- The loop reads the number its symbols denote. -/
theorem readSuffix_of_mem {ε : Type} (invalid : ε) {value : Text}
    (h : ∀ c ∈ value, c ∈ typeIdAlphabet) (number : Nat) :
    readSuffix invalid number value =
      .ok (number * 32 ^ value.length + Radix.read typeIdAlphabet value) := by
  induction value generalizing number with
  | nil => simp [readSuffix, Radix.read]
  | cons c value ih =>
      have hc := h c (by simp)
      have hdigit : typeIdAlphabet.idxOf c < 2 ^ 5 := List.idxOf_lt_length_of_mem hc
      have hread : Radix.read typeIdAlphabet (c :: value) =
          typeIdAlphabet.idxOf c * 32 ^ value.length + Radix.read typeIdAlphabet value := by
        rw [Radix.read_cons]
        rfl
      have hsum : (number <<< 5 ||| typeIdAlphabet.idxOf c) * 32 ^ value.length +
            Radix.read typeIdAlphabet value =
          number * 32 ^ (c :: value).length + Radix.read typeIdAlphabet (c :: value) := by
        rw [← Nat.shiftLeft_add_eq_or_of_lt hdigit, Nat.shiftLeft_eq, hread, List.length_cons]
        ring
      rw [readSuffix, if_pos hc, ih fun d hd => h d (by simp [hd]), hsum]

/-- A symbol outside the alphabet is refused. -/
theorem readSuffix_of_not_mem {ε : Type} (invalid : ε) {value : Text}
    (h : ¬ ∀ c ∈ value, c ∈ typeIdAlphabet) (number : Nat) :
    readSuffix invalid number value = .error invalid := by
  induction value generalizing number with
  | nil => simp at h
  | cons c value ih =>
      rw [readSuffix]
      by_cases hc : c ∈ typeIdAlphabet
      · rw [if_pos hc, ih]
        intro hall
        apply h
        simpa [hc] using hall
      · rw [if_neg hc]

/-! ## texts -/

theorem underscore_not_mem_suffix {s : Text} (h : IsTypeIdSuffix s) : '_' ∉ s := fun hmem =>
  (typeIdAlphabet_facts _ (h.2.1 _ hmem)).2.2.1 rfl

/-- A public prefix has lower-case letters and underscores only. -/
theorem mem_publicPrefix {p : Text} (h : isPublicPrefix p = true) {c : Char} (hc : c ∈ p) :
    c.isLower = true ∨ c = '_' := by
  simp only [isPublicPrefix, isTypeIdPrefix, Bool.and_eq_true, List.all_eq_true,
    Bool.or_eq_true, beq_iff_eq] at h
  exact h.2.2 c hc

/-- The symbols of a public prefix are ASCII and no capitals. -/
theorem publicPrefix_facts {p : Text} (h : isPublicPrefix p = true) :
    ∀ c ∈ p, c.toNat < 128 ∧ c.isUpper = false := by
  intro c hc
  rcases mem_publicPrefix h hc with h | rfl
  · have hascii := toNat_lt_of_isLower h
    exact ⟨hascii, forall_ascii (P := fun c => c.isLower = true → c.isUpper = false)
      (by decide) c hascii h⟩
  · decide

/-- A public identifier is an ASCII text in lower case when its namespace is. -/
theorem publicIdText_lower {namespaceName hex : Text}
    (hns : ∀ c ∈ namespaceName, c.toNat < 128 ∧ c.isUpper = false) (hhex : IsHex32 hex) :
    IsAscii (publicIdText namespaceName hex) ∧
      asciiLower (publicIdText namespaceName hex) = publicIdText namespaceName hex := by
  have hsymbol : ∀ c ∈ publicIdText namespaceName hex, c.toNat < 128 ∧ c.isUpper = false := by
    intro c hc
    rcases List.mem_append.mp hc with h | h
    · exact hns c h
    · rcases List.mem_cons.mp h with rfl | h
      · decide
      · have hfacts := typeIdAlphabet_facts c ((isTypeIdSuffix_suffixOfHex hhex).2.1 c h)
        exact ⟨hfacts.1, hfacts.2.1⟩
  exact ⟨fun c hc => (hsymbol c hc).1, asciiLower_eq_self fun c hc => (hsymbol c hc).2⟩

/-- Public identifiers are ASCII texts in lower case. -/
theorem publicIdText_facts {namespaceName hex : Text} (hns : isPublicPrefix namespaceName = true)
    (hhex : IsHex32 hex) :
    IsAscii (publicIdText namespaceName hex) ∧
      asciiLower (publicIdText namespaceName hex) = publicIdText namespaceName hex :=
  publicIdText_lower (publicPrefix_facts hns) hhex

/-- A prefix and a suffix whose digits are a machine identifier's make a
public identifier, and every public identifier is read apart that way. -/
theorem exists_publicIdText_iff {v namespaceName hex : Text} :
    (∃ s, rsplitOnce '_' v = some (namespaceName, s) ∧ IsTypeIdSuffix s ∧ hexOfSuffix s = hex) ↔
      IsHex32 hex ∧ v = publicIdText namespaceName hex := by
  constructor
  · rintro ⟨s, hsplit, hsuffix, rfl⟩
    obtain ⟨rfl, -⟩ := rsplitOnce_eq_some_iff.mp hsplit
    exact ⟨isHex32_write _, by rw [publicIdText, suffixOfHex_hexOfSuffix hsuffix]⟩
  · rintro ⟨hhex, rfl⟩
    have hsuffix := isTypeIdSuffix_suffixOfHex hhex
    exact ⟨_, rsplitOnce_eq_some_iff.mpr ⟨rfl, underscore_not_mem_suffix hsuffix⟩, hsuffix,
      hexOfSuffix_suffixOfHex hhex⟩

/-! ## order -/

theorem hexAlphabet_sorted : hexAlphabet.Pairwise (· < ·) := by decide

theorem typeIdAlphabet_sorted : typeIdAlphabet.Pairwise (· < ·) := by decide

section Order

variable {a b : Text}

/-- Printed UUIDs are ordered as the numbers of their digits. -/
theorem formatUuid_lt_formatUuid_iff (ha : IsHex32 a) (hb : IsHex32 b) :
    formatUuid a < formatUuid b ↔ Radix.read hexAlphabet a < Radix.read hexAlphabet b := by
  have hgroups : (uuidGroups a).map List.length = (uuidGroups b).map List.length := by
    rw [map_length_uuidGroups ha.1, map_length_uuidGroups hb.1]
  rw [formatUuid, formatUuid, join_lt_join_iff '-' hgroups, flatten_uuidGroups, flatten_uuidGroups,
    Radix.read_lt_read_iff (by decide) hexAlphabet_sorted (by rw [ha.1, hb.1]) ha.2 hb.2]

/-- So are suffixes. -/
theorem suffixOfHex_lt_suffixOfHex_iff (ha : IsHex32 a) (hb : IsHex32 b) :
    suffixOfHex a < suffixOfHex b ↔ Radix.read hexAlphabet a < Radix.read hexAlphabet b := by
  have hread : ∀ {hex : Text}, IsHex32 hex →
      Radix.read typeIdAlphabet (suffixOfHex hex) = Radix.read hexAlphabet hex := by
    intro hex hhex
    rw [suffixOfHex, Radix.read_write typeIdAlphabet_nodup (by decide)]
    exact Nat.mod_eq_of_lt (Nat.lt_of_lt_of_le hhex.read_lt (by decide))
  have hsa := isTypeIdSuffix_suffixOfHex ha
  have hsb := isTypeIdSuffix_suffixOfHex hb
  rw [← Radix.read_lt_read_iff (by decide) typeIdAlphabet_sorted (by rw [hsa.1, hsb.1]) hsa.2.1
    hsb.2.1, hread ha, hread hb]

/-- **Order**: public identifiers of one namespace are ordered as the printed
UUIDs they are written for. -/
theorem publicIdText_lt_publicIdText_iff (namespaceName : Text) (ha : IsHex32 a) (hb : IsHex32 b) :
    publicIdText namespaceName a < publicIdText namespaceName b ↔ formatUuid a < formatUuid b := by
  rw [publicIdText, publicIdText, append_lt_append_iff rfl, List.cons_lt_cons_iff,
    suffixOfHex_lt_suffixOfHex_iff ha hb, formatUuid_lt_formatUuid_iff ha hb]
  simp

end Order

/-! ## the TypeScript codec -/

/-- The TypeID v0.3 grammar: an optional prefix with its underscore, and a
suffix. -/
def IsTypeId (typePrefix suffix v : Text) : Prop :=
  isTypeIdPrefix typePrefix = true ∧ IsTypeIdSuffix suffix ∧
    v = if typePrefix = [] then suffix else typePrefix ++ '_' :: suffix

/-- The functions of the `typeid-js` package that the code calls; a TypeID is
the string it was read from.  `fromString` accepts exactly the grammar and
throws on any other text.

The grammar lets a suffix be any 128 bits, but the package prints and reads
UUIDs with the `uuid` package, which knows those of RFC 9562 only: elsewhere
`toUUID` throws the `TypeError` of its `stringify`. -/
structure TypeIdLibrary where
  fromString : Text → Except Thrown Text
  getType : Text → Text
  toUUID : Text → Except Thrown Text
  fromUUID : Text → Text → Except Thrown Text
  fromString_ok_iff : ∀ v t, fromString v = .ok t ↔ t = v ∧ ∃ p s, IsTypeId p s v
  getType_eq : ∀ p s v, IsTypeId p s v → getType v = p
  toUUID_eq : ∀ p s v, IsTypeId p s v → IsRfc9562 (formatUuid (hexOfSuffix s)) →
    toUUID v = .ok (formatUuid (hexOfSuffix s))
  toUUID_foreign : ∀ p s v, IsTypeId p s v → ¬ IsRfc9562 (formatUuid (hexOfSuffix s)) →
    toUUID v = .error .foreign
  fromUUID_eq : ∀ hex p, IsHex32 hex → IsRfc9562 (formatUuid hex) → isPublicPrefix p = true →
    fromUUID (formatUuid hex) p = .ok (publicIdText p hex)

/-- A TypeID with a namespace, for 128 bits that are no UUID of RFC 9562. -/
def IsForeignTypeId (v : Text) : Prop :=
  ∃ p s, IsTypeId p s v ∧ p ≠ [] ∧ ¬ IsRfc9562 (formatUuid (hexOfSuffix s))

/-- `ParsedPublicId`. -/
structure ParsedPublicId where
  value : Text
  namespaceName : Text
  machineId : Text
  deriving DecidableEq, Repr

section Codec

variable (unicode : CaseMapping) (uuid : UuidLibrary) (typeid : TypeIdLibrary)

/-- `publicIdFromMachineId`. -/
def publicIdFromMachineId (machineId namespaceName : Text) : Except Thrown Text := do
  let canonicalMachineId ← parseMachineId unicode uuid machineId
  ensure (isPublicPrefix namespaceName = true)
    (.identifold ⟨.invalidPublicPrefix, "Invalid public identifier prefix"⟩)
  typeid.fromUUID canonicalMachineId namespaceName

/-- `parsePublicId`, without an expected namespace. -/
def parsePublicId (value : Text) : Except Thrown ParsedPublicId := do
  ensure (value = unicode.toLower value)
    (.identifold ⟨.invalidPid, "Invalid public identifier"⟩)
  let parsed ← (typeid.fromString value).mapError fun _ =>
    .identifold ⟨.invalidPid, "Invalid public identifier"⟩
  let namespaceName := typeid.getType parsed
  ensure (namespaceName.length ≠ 0)
    (.identifold ⟨.invalidPublicPrefix, "Public identifiers require a namespace"⟩)
  let uuidText ← typeid.toUUID parsed
  let machineId ← parseMachineId unicode uuid uuidText
  return { value := value, namespaceName := namespaceName, machineId := machineId }

variable {unicode uuid typeid}

/-- **`publicIdFromMachineId` writes public identifiers.** -/
theorem publicIdFromMachineId_ok_iff {machineId namespaceName p : Text} :
    publicIdFromMachineId unicode uuid typeid machineId namespaceName = .ok p ↔
      isPublicPrefix namespaceName = true ∧ ∃ hex, IsMachineHex hex ∧
        asciiLower machineId = formatUuid hex ∧ p = publicIdText namespaceName hex := by
  have hfrom : ∀ {hex}, IsMachineHex hex → isPublicPrefix namespaceName = true →
      typeid.fromUUID (formatUuid hex) namespaceName = .ok (publicIdText namespaceName hex) :=
    fun hhex hns => typeid.fromUUID_eq _ _ hhex.1 hhex.isRfc9562 hns
  simp only [publicIdFromMachineId, bind_eq_ok_iff, ensure_eq_ok_iff, parseMachineId_ok_iff]
  constructor
  · rintro ⟨_, ⟨⟨hex, hhex, hlower⟩, rfl⟩, _, hns, hp⟩
    rw [hlower, hfrom hhex hns] at hp
    exact ⟨hns, hex, hhex, hlower, (Except.ok.inj hp).symm⟩
  · rintro ⟨hns, hex, hhex, hlower, rfl⟩
    exact ⟨_, ⟨⟨hex, hhex, hlower⟩, rfl⟩, (), hns, by rw [hlower, hfrom hhex hns]⟩

/-- Where the library tells the UUID of a TypeID, it is that of its suffix. -/
theorem toUUID_ok_iff {p s v w : Text} (h : IsTypeId p s v) :
    typeid.toUUID v = .ok w ↔
      IsRfc9562 (formatUuid (hexOfSuffix s)) ∧ formatUuid (hexOfSuffix s) = w := by
  by_cases hrfc : IsRfc9562 (formatUuid (hexOfSuffix s))
  · rw [typeid.toUUID_eq p s v h hrfc, Except.ok.injEq, and_iff_right hrfc]
  · rw [typeid.toUUID_foreign p s v h hrfc]
    simp [hrfc]

/-- **`parsePublicId` reads public identifiers.** -/
theorem parsePublicId_ok_iff {v : Text} {result : ParsedPublicId} :
    parsePublicId unicode uuid typeid v = .ok result ↔
      ∃ ns hex, isPublicPrefix ns = true ∧ IsMachineHex hex ∧ v = publicIdText ns hex ∧
        result = ⟨v, ns, formatUuid hex⟩ := by
  simp only [parsePublicId, bind_eq_ok_iff, ensure_eq_ok_iff, mapError_eq_ok_iff, pure_eq_ok_iff,
    parseMachineId_ok_iff]
  constructor
  · rintro ⟨_, -, t, hparsed, _, hne, uuidText, huuid, w, ⟨hmachine, rfl⟩, rfl⟩
    obtain ⟨rfl, p, s, htype⟩ := (typeid.fromString_ok_iff v t).mp hparsed
    obtain ⟨-, rfl⟩ := (toUUID_ok_iff htype).mp huuid
    rw [typeid.getType_eq p s t htype] at hne ⊢
    obtain ⟨hp, hs, hv⟩ := htype
    rw [if_neg (by simpa using hne)] at hv
    have hhex : IsHex32 (hexOfSuffix s) := isHex32_write _
    rw [asciiLower_formatUuid hhex] at hmachine ⊢
    refine ⟨p, hexOfSuffix s, ?_, ?_, ?_, rfl⟩
    · rw [isPublicPrefix, hp, Bool.and_true]
      exact decide_eq_true hne
    · exact isMachineHex_of_formatUuid hhex hmachine
    · rw [publicIdText, suffixOfHex_hexOfSuffix hs, hv]
  · rintro ⟨p, hex, hp, hhex, rfl, rfl⟩
    obtain ⟨hascii, hlower⟩ := publicIdText_facts hp hhex.1
    have hne : p ≠ [] := by rintro rfl; simp [isPublicPrefix] at hp
    have htypePrefix : isTypeIdPrefix p = true := by
      rw [isPublicPrefix, Bool.and_eq_true] at hp
      exact hp.2
    have htype : IsTypeId p (suffixOfHex hex) (publicIdText p hex) :=
      ⟨htypePrefix, isTypeIdSuffix_suffixOfHex hhex.1, by rw [if_neg hne]; rfl⟩
    have hmachine : IsMachineId (formatUuid hex) := ⟨hex, hhex, rfl⟩
    have huuid : typeid.toUUID (publicIdText p hex) = .ok (formatUuid hex) := by
      rw [toUUID_ok_iff htype, hexOfSuffix_suffixOfHex hhex.1]
      exact ⟨hhex.isRfc9562, rfl⟩
    refine ⟨(), by rw [unicode.toLower_ascii _ hascii, hlower], _,
      (typeid.fromString_ok_iff _ _).mpr ⟨rfl, p, _, htype⟩, (), ?_, _, huuid, _, ⟨?_, rfl⟩, ?_⟩
    · rw [typeid.getType_eq _ _ _ htype]
      simpa using hne
    · rwa [hmachine.facts.2.2.1]
    · rw [typeid.getType_eq _ _ _ htype, hmachine.facts.2.2.1]

/-- TypeIDs are ASCII texts in lower case. -/
theorem IsTypeId.facts {p s v : Text} (h : IsTypeId p s v) : IsAscii v ∧ asciiLower v = v := by
  obtain ⟨hp, hs, rfl⟩ := h
  have hsuffix : ∀ c ∈ s, c.toNat < 128 ∧ c.isUpper = false := fun c hc =>
    ⟨(typeIdAlphabet_facts c (hs.2.1 c hc)).1, (typeIdAlphabet_facts c (hs.2.1 c hc)).2.1⟩
  have hsymbol : ∀ c ∈ if p = [] then s else p ++ '_' :: s, c.toNat < 128 ∧ c.isUpper = false := by
    intro c hc
    split at hc
    · exact hsuffix c hc
    · next hne =>
      have hpublic : isPublicPrefix p = true := by
        rw [isPublicPrefix, hp, Bool.and_true]
        simpa using hne
      rcases List.mem_append.mp hc with hc | hc
      · exact publicPrefix_facts hpublic c hc
      · rcases List.mem_cons.mp hc with rfl | hc
        · decide
        · exact hsuffix c hc
  exact ⟨fun c hc => (hsymbol c hc).1, asciiLower_eq_self fun c hc => (hsymbol c hc).2⟩

/-- A foreign TypeID has an underscore, and is no public identifier. -/
theorem IsForeignTypeId.facts {v : Text} (h : IsForeignTypeId v) :
    '_' ∈ v ∧ parsePublicId unicode uuid typeid v = .error .foreign := by
  obtain ⟨p, s, htype, hne, hforeign⟩ := h
  obtain ⟨hascii, hlower⟩ := htype.facts
  refine ⟨by rw [htype.2.2, if_neg hne]; simp, ?_⟩
  have hread : typeid.fromString v = .ok v :=
    (typeid.fromString_ok_iff v v).mpr ⟨rfl, p, s, htype⟩
  have hlength : p.length ≠ 0 := by simpa using hne
  simp [parsePublicId, ensure, unicode.toLower_ascii v hascii, hlower, hread, Except.mapError,
    typeid.getType_eq p s v htype, hlength, typeid.toUUID_foreign p s v htype hforeign, bind,
    Except.bind]

/-- **What `parsePublicId` throws**: an `IdentifoldError`, but on a foreign
TypeID the error of the library, whose `toUUID` is called outside the `try`. -/
theorem parsePublicId_throws_iff {v : Text} :
    ThrowsIdentifold (parsePublicId unicode uuid typeid v) ↔ ¬ IsForeignTypeId v := by
  constructor
  · intro h hforeign
    obtain ⟨error, he⟩ := h .foreign hforeign.facts.2
    contradiction
  · intro hnot
    refine .bind (.check _ _) fun _ _ => .bind (.mapError _ fun _ => _) fun t hparsed =>
      .bind (.check _ _) fun _ hne => .bind ?_ fun _ _ =>
        .bind (parseMachineId_throws _ _ _) fun _ _ => .ok _
    obtain ⟨rfl, p, s, htype⟩ := (typeid.fromString_ok_iff v t).mp (mapError_eq_ok_iff.mp hparsed)
    rw [ensure_eq_ok_iff, typeid.getType_eq p s t htype] at hne
    have hrfc : IsRfc9562 (formatUuid (hexOfSuffix s)) := by
      by_contra hforeign
      exact hnot ⟨p, s, htype, by simpa using hne, hforeign⟩
    rw [typeid.toUUID_eq p s t htype hrfc]
    exact .ok _

end Codec

/-! ## the `typeid-js` package -/

/-- `IsTypeId`, as a function that takes the text apart at its last
underscore. -/
def splitTypeId (v : Text) : Text × Text := (rsplitOnce '_' v).getD ([], v)

instance (s : Text) : Decidable (IsTypeIdSuffix s) :=
  inferInstanceAs (Decidable (s.length = 26 ∧ (∀ c ∈ s, c ∈ typeIdAlphabet) ∧
    ∃ c ∈ "01234567".toList, s[0]? = some c))

instance (p s v : Text) : Decidable (IsTypeId p s v) :=
  inferInstanceAs (Decidable (isTypeIdPrefix p = true ∧ IsTypeIdSuffix s ∧
    v = if p = [] then s else p ++ '_' :: s))

/-- A TypeID is split at its last underscore. -/
theorem splitTypeId_eq {p s v : Text} (h : IsTypeId p s v) : splitTypeId v = (p, s) := by
  obtain ⟨-, hs, rfl⟩ := h
  have hnot := underscore_not_mem_suffix hs
  unfold splitTypeId
  split
  · next hp => rw [rsplitOnce, if_neg hnot, hp, Option.getD_none]
  · rw [rsplitOnce_eq_some_iff.mpr ⟨rfl, hnot⟩, Option.getD_some]

/-- The `uuid` package on a printed UUID. -/
theorem validate_formatUuid_iff {hex : Text} (hhex : IsHex32 hex) :
    rfc9562.validate (formatUuid hex) = true ↔ IsRfc9562 (formatUuid hex) := by
  rw [rfc9562.validate_iff, asciiLower_formatUuid hhex]

/-- The package's functions, as the TypeID v0.3 specification describes them,
over the `uuid` package. -/
def typeIdV03 : TypeIdLibrary where
  fromString v :=
    if IsTypeId (splitTypeId v).1 (splitTypeId v).2 v then .ok v else .error .foreign
  getType v := (splitTypeId v).1
  toUUID v :=
    let text := formatUuid (hexOfSuffix (splitTypeId v).2)
    if rfc9562.validate text = true then .ok text else .error .foreign
  fromUUID v p :=
    if rfc9562.validate v = true then .ok (publicIdText p (strip '-' v)) else .error .foreign
  fromString_ok_iff v t := by
    constructor
    · intro h
      split at h
      · next htype => exact ⟨(Except.ok.inj h).symm, _, _, htype⟩
      · contradiction
    · rintro ⟨rfl, p, s, htype⟩
      rw [if_pos (by rwa [splitTypeId_eq htype])]
  getType_eq p s v h := by rw [splitTypeId_eq h]
  toUUID_eq p s v h hrfc := by
    simp only [splitTypeId_eq h]
    exact if_pos ((validate_formatUuid_iff (isHex32_write _)).mpr hrfc)
  toUUID_foreign p s v h hforeign := by
    simp only [splitTypeId_eq h]
    exact if_neg (mt (validate_formatUuid_iff (isHex32_write _)).mp hforeign)
  fromUUID_eq hex p hhex hrfc _ := by
    rw [if_pos ((validate_formatUuid_iff hhex).mpr hrfc), strip_formatUuid hhex]

end Identifold
