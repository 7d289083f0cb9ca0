import Mathlib.Data.List.Find
import Identifold.Ports.Agreement
import Identifold.Ports.ErrorCodes
import Identifold.Ports.MidGrammar
import Identifold.Ports.Normalizers

/-!
# Identifold.Ports.NormalizerAgreement

The plain `normalize`, and the ports that share it on printable texts.

A port whose library is the plain one on printable texts (`PortCodec.Plain`) normalizes
them as `plainCodec` does, up to its parser of public identifiers; the parsers of PHP,
Ruby, Java, Kotlin and C# and the `normalize` of Rust are compared with the plain ones.

* `readBody_eq` — the body of a reference;
* `formatSequentialReference_eq` — its sequence, written anew;
* `parseLowerPublicId_eq`, `CSharp.parsePublicId_eq` — the parsers of public
  identifiers;
* `normalize_eq`, `Rust.normalize_eq` — the ports are the plain one on printable
  texts.
-/

namespace Identifold

open Separated

/-! ## the plain port -/

/-- The port that counts symbols, knows the case of ASCII, and reads identifiers as the Rust
port. -/
def plainCodec : PortCodec IdentifoldErrorCode where
  error := id
  length := List.length
  toUpper := asciiUpper
  startsWith value start := start.isPrefixOf value
  isSequence sequence := sequence.all Char.isDigit
  startsWithLetters := startsWithLetters
  parseMachineId := readMachineId .invalidMid
  parsePublicId := readPublicId asciiLower .invalidPid

namespace PortCodec

variable {ε : Type} {port : PortCodec ε} {registry : List PortNamespaceDefinition} {v : Text}

/-- On printable texts the port has the plain library. -/
structure Plain (port : PortCodec ε) : Prop where
  length : ∀ v, Swift.IsPrintable v → port.length v = v.length
  toUpper : ∀ v, Swift.IsPrintable v → port.toUpper v = asciiUpper v
  startsWith : ∀ v w, Swift.IsPrintable v → Swift.IsPrintable w →
    port.startsWith v w = w.isPrefixOf v
  isSequence : ∀ v, v ≠ [] → Swift.IsPrintable v → port.isSequence v = v.all Char.isDigit
  startsWithLetters : ∀ v, Swift.IsPrintable v →
    port.startsWithLetters v = Identifold.startsWithLetters v
  parseMachineId : ∀ v, Swift.IsPrintable v →
    port.parseMachineId v = (readMachineId .invalidMid v).mapError port.error

/-- The registries that TypeScript accepts have ASCII names, printable prefixes, and sequences of
some width. -/
structure Accepted (registry : List PortNamespaceDefinition) : Prop where
  name : ∀ item ∈ registry, IsAscii item.publicPrefix
  printable : ∀ item ∈ registry, ∀ p, item.reference = some p → Swift.IsPrintable p.refPrefix
  width : ∀ item ∈ registry, ∀ p, item.reference = some p → p.strategy = "sequence" → 0 < p.width

/-- On printable ASCII a plain port cuts off the last symbol as the plain one does. -/
theorem cutLast_eq (h : port.Plain) (hv : Swift.IsPrintable v) :
    port.cutLast v = plainCodec.cutLast v := by
  rw [cutLast, cutLast]
  cases hlast : v.getLast? with
  | none => rfl
  | some symbol =>
      have hsymbol : Swift.IsPrintable [symbol] := by
        intro c hc
        rw [List.mem_singleton.mp hc]
        exact hv symbol (List.mem_of_getLast? hlast)
      dsimp only
      rw [h.length _ hsymbol]
      rfl

/-- It reads the body of a reference alike, but for the wrapping of its errors. -/
theorem readBody_eq (h : port.Plain) (hv : Swift.IsPrintable v) (sequential : Bool) (length : Nat) :
    port.readBody sequential length v =
      (plainCodec.readBody sequential length v).mapError port.error := by
  rw [readBody, readBody, bind_mapError, ensure_mapError, cutLast_eq h hv, h.length v hv]
  refine congrArg _ (funext fun _ => ?_)
  cases plainCodec.cutLast v with
  | none => rfl
  | some parts =>
      obtain ⟨raw, supplied⟩ := parts
      dsimp only
      cases checkSymbolOf (if sequential = true then raw else raw.map normalizeSymbol) sequential with
      | none => rfl
      | some expected =>
          dsimp only
          rw [bind_mapError, ensure_mapError]
          rfl

/-- It writes a sequence alike, where there is one. -/
theorem formatSequentialReference_eq (h : port.Plain) {name sequence scope : Text}
    (hne : sequence ≠ []) (hsequence : Swift.IsPrintable sequence) :
    port.formatSequentialReference registry name sequence scope =
      (plainCodec.formatSequentialReference registry name sequence scope).mapError port.error := by
  have hdigits : port.isSequence sequence = plainCodec.isSequence sequence :=
    h.isSequence sequence hne hsequence
  have hlength : port.length sequence = plainCodec.length sequence := h.length sequence hsequence
  rw [formatSequentialReference, formatSequentialReference]
  split
  · rename_i reference hfind
    split
    · rw [bind_mapError, ensure_mapError, hdigits, hlength]
      refine congrArg _ (funext fun _ => ?_)
      dsimp only
      split
      · rfl
      · split <;> rfl
    · rfl
  · rfl

/-- A sequential body is read into digits. -/
theorem digits_of_readBody {n : Nat} {payload : Text} {supplied : Char}
    (h : plainCodec.readBody true n v = .ok (payload, supplied)) :
    payload.length = n ∧ ∀ c ∈ payload, c.isDigit = true := by
  simp only [readBody, bind_eq_ok_iff, ensure_eq_ok_iff] at h
  obtain ⟨-, hlength, h⟩ := h
  split at h
  · contradiction
  · rename_i raw symbol hcut
    rw [cutLast] at hcut
    split at hcut
    · rename_i last hlast
      obtain ⟨-, hparts⟩ := Option.ite_none_right_eq_some.mp hcut
      obtain ⟨rfl, rfl⟩ := Prod.mk.inj (Option.some.inj hparts)
      split at h
      · contradiction
      · rename_i expected hcheck
        simp only [bind_eq_ok_iff, ensure_eq_ok_iff, pure_eq_ok_iff] at h
        obtain ⟨-, -, hresult⟩ := h
        obtain ⟨rfl, -⟩ := Prod.mk.inj hresult
        have hsize : v.length = n + 1 := hlength
        refine ⟨?_, (checkSymbolOf_sequence_iff.mp hcheck).1⟩
        rw [if_pos True.intro, List.length_dropLast, hsize, Nat.add_sub_cancel]
    · contradiction

/-- Case mapping keeps printable ASCII. -/
theorem isPrintable_asciiUpper (hv : Swift.IsPrintable v) : Swift.IsPrintable (asciiUpper v) := by
  intro c hc
  obtain ⟨d, hd, rfl⟩ := List.mem_map.mp hc
  exact forall_ascii (P := fun d => ' ' ≤ d ∧ d ≤ '~' → ' ' ≤ d.toUpper ∧ d.toUpper ≤ '~')
    (by decide) d (Swift.isAscii_of_isPrintable hv d hd) (hv d hd)

theorem isPrintable_asciiLower (hv : Swift.IsPrintable v) : Swift.IsPrintable (asciiLower v) := by
  intro c hc
  obtain ⟨d, hd, rfl⟩ := List.mem_map.mp hc
  exact forall_ascii (P := fun d => ' ' ≤ d ∧ d ≤ '~' → ' ' ≤ d.toLower ∧ d.toLower ≤ '~')
    (by decide) d (Swift.isAscii_of_isPrintable hv d hd) (hv d hd)

/-- Digits are printable. -/
theorem isPrintable_of_isDigit {payload : Text} (h : ∀ c ∈ payload, c.isDigit = true) :
    Swift.IsPrintable payload := by
  intro c hc
  obtain ⟨hge, hle⟩ := Bool.and_eq_true_iff.mp (h c hc)
  exact ⟨UInt32.le_trans (by decide) (of_decide_eq_true hge),
    UInt32.le_trans (of_decide_eq_true hle) (by decide)⟩

/-- The definition that a printable text is located in, by any library that searches printable
prefixes plainly. -/
theorem Accepted.find?_startsWith (hregistry : Accepted registry)
    {startsWith : Text → Text → Bool} {compact : Text}
    (h : ∀ w, Swift.IsPrintable w → startsWith compact w = w.isPrefixOf compact) :
    (registry.find? fun item => item.reference.any (startsWith compact ·.refPrefix)) =
      registry.find? fun item =>
        item.reference.any (plainCodec.startsWith compact ·.refPrefix) := by
  refine List.find?_congr fun item hitem => ?_
  cases hreference : item.reference with
  | none => rfl
  | some p => exact h _ (hregistry.printable item hitem p hreference)

/-- Behind the scope of a payload there is a sequence. -/
theorem drop_ne_nil {payload : Text} {scopeLength width : Nat}
    (hlength : payload.length = scopeLength + width) (hwidth : 0 < width) :
    payload.drop scopeLength ≠ [] := by
  intro hnil
  have hdrop := congrArg List.length hnil
  rw [List.length_drop, hlength, List.length_nil] at hdrop
  omega

/-- The reference branch of a port is the plain one. -/
theorem normalizeReference_eq (h : port.Plain) (hregistry : Accepted registry) {compact : Text}
    (hv : Swift.IsPrintable v) (hcompact : Swift.IsPrintable compact) :
    port.normalizeReference registry v compact =
      (plainCodec.normalizeReference registry v compact).mapError port.error := by
  have hfind := hregistry.find?_startsWith fun w hw => h.startsWith compact w hcompact hw
  rw [normalizeReference, normalizeReference, hfind]
  cases hitem : registry.find? fun item =>
      item.reference.any (plainCodec.startsWith compact ·.refPrefix) with
  | none =>
      dsimp only
      rw [h.startsWithLetters v hv]
      rfl
  | some item =>
      obtain ⟨name, reference⟩ := item
      cases reference with
      | none =>
          dsimp only
          rw [h.startsWithLetters v hv]
          rfl
      | some p =>
          have hbody : Swift.IsPrintable (compact.drop p.refPrefix.length) := fun c hc =>
            hcompact c (List.mem_of_mem_drop hc)
          dsimp only
          rw [bind_mapError, ensure_mapError]
          refine congrArg _ (funext fun _ => ?_)
          split
          · rename_i hstrategy
            rw [bind_mapError, readBody_eq h hbody]
            cases hread : plainCodec.readBody true
                ((if p.scope = "calendar-year" then 4 else 0) + p.width)
                (compact.drop p.refPrefix.length) with
            | error e => rfl
            | ok parts =>
                obtain ⟨payload, supplied⟩ := parts
                obtain ⟨hlength, hdigits⟩ := digits_of_readBody hread
                have hwidth := hregistry.width _ (List.mem_of_find?_eq_some hitem) p rfl hstrategy
                refine formatSequentialReference_eq h (drop_ne_nil hlength hwidth) ?_
                exact isPrintable_of_isDigit fun c hc => hdigits c (List.mem_of_mem_drop hc)
          · rw [bind_mapError, readBody_eq h hbody]
            cases plainCodec.readBody false (profileLength p.profile)
                (compact.drop p.refPrefix.length) with
            | error e => rfl
            | ok parts => rfl

/-- **A plain port** normalizes as the plain port does, where it reads public identifiers alike. -/
theorem normalize_eq (h : port.Plain) (hregistry : Accepted registry) (hv : Swift.IsPrintable v)
    (hpublic : port.parsePublicId v = (readPublicId asciiLower .invalidPid v).mapError port.error) :
    port.normalize v registry = (plainCodec.normalize v registry).mapError port.error := by
  have hlength : plainCodec.length v = v.length := rfl
  rw [normalize, normalize, h.length v hv, hlength]
  split
  · rw [hpublic, bind_mapError]
    refine congrArg _ (funext fun parsed => ?_)
    rw [bind_mapError, ensure_mapError]
    rfl
  · split
    · exact h.parseMachineId v hv
    · have hcompact : Swift.IsPrintable (strip '-' (asciiUpper v)) := fun c hc =>
        isPrintable_asciiUpper hv c (mem_of_mem_strip hc)
      rw [h.toUpper v hv]
      exact normalizeReference_eq h hregistry hv hcompact

end PortCodec

/-! ## identifiers -/

section Identifiers

variable {unicode : CaseMapping} {v : Text}

theorem mapError_id {ε α : Type} (x : Except ε α) : x.mapError id = x := by
  cases x <;> rfl

/-- A list that is refused has an element that is refused so. -/
theorem exists_error_of_mapM {ε α β : Type} {f : α → Except ε β} {xs : List α} {e : ε}
    (h : xs.mapM f = .error e) : ∃ x ∈ xs, f x = .error e := by
  induction xs with
  | nil => contradiction
  | cons x xs ih =>
      rw [List.mapM_cons] at h
      cases hx : f x with
      | error e' =>
          rw [hx, error_bind] at h
          obtain rfl := Except.error.inj h
          exact ⟨x, List.mem_cons_self, hx⟩
      | ok y =>
          rw [hx, ok_bind] at h
          cases hrest : xs.mapM f with
          | error e' =>
              rw [hrest, error_bind] at h
              obtain rfl := Except.error.inj h
              obtain ⟨x', hx', hf⟩ := ih hrest
              exact ⟨x', List.mem_cons_of_mem x hx', hf⟩
          | ok ys =>
              rw [hrest] at h
              contradiction

/-- The ports that lower the whole text first read machine identifiers as the grammar
has them. -/
theorem parseLowerMachineId_eq (unicode : CaseMapping) (v : Text) :
    parseLowerMachineId unicode v = readMachineId .invalidMid v := by
  rw [parseLowerMachineId, readMachineId]
  by_cases hpattern : machinePattern (asciiLower v) = true
  · obtain ⟨hex, hhex, heq⟩ := machinePattern_iff.mp hpattern
    rw [unicode.toLower_ascii v (isAscii_of_asciiLower_eq_formatUuid hhex heq)]
  · have hunicode : ¬ machinePattern (unicode.toLower v) = true := fun h =>
      hpattern ((machinePattern_toLower_iff unicode).mp h)
    rw [ensure_of_not hpattern, ensure_of_not hunicode, error_bind, error_bind]

/-- Of a suffix, the guards and the alphabet leave the suffixes of 128 bits. -/
theorem isTypeIdSuffix_iff {length : Text → Nat} (hlength : ∀ s, IsAscii s → length s = s.length)
    {s : Text} : IsTypeIdSuffix s ↔
      (length s = 26 ∧ ∀ c ∈ s.head?, c ≤ '7') ∧ ∀ c ∈ s, c ∈ typeIdAlphabet := by
  constructor
  · intro h
    have hascii : IsAscii s := fun c hc => (typeIdAlphabet_facts c (h.2.1 c hc)).1
    exact ⟨⟨(hlength s hascii).trans h.1, (head_le_seven_iff h.1 h.2.1).mpr h.2.2⟩, h.2.1⟩
  · rintro ⟨⟨hlen, hhead⟩, hs⟩
    have hascii : IsAscii s := fun c hc => (typeIdAlphabet_facts c (hs c hc)).1
    rw [hlength s hascii] at hlen
    exact ⟨hlen, hs, (head_le_seven_iff hlen hs).mp hhead⟩

/-- The number of a suffix is printed as its digits. -/
theorem formatUuid_toDigits_of_suffix {s : Text} (h : IsTypeIdSuffix s) :
    formatUuid (padStart 32 (Nat.toDigits 16 (Radix.read typeIdAlphabet s))) =
      formatUuid (hexOfSuffix s) := by
  have hlt : Radix.read typeIdAlphabet s < 16 ^ 32 := Nat.lt_of_lt_of_eq h.read_lt (by norm_num)
  rw [padStart_toDigits (by decide) (by decide) hlt, map_digitChar_eq_write]
  rfl

/-- A decoded text is a machine identifier by its two digits. -/
theorem isMachineId_hexOfSuffix_iff (s : Text) :
    IsMachineId (formatUuid (hexOfSuffix s)) ↔ (formatUuid (hexOfSuffix s))[14]? = some '7' ∧
      ∃ c ∈ "89ab".toList, (formatUuid (hexOfSuffix s))[19]? = some c := by
  rw [isMachineId_iff, and_iff_right (machinePattern_hexOfSuffix s)]

/-- The digits of a suffix are read back where they are a machine identifier's. -/
theorem readMachineId_of_machineId {s : Text} (h : IsMachineId (formatUuid (hexOfSuffix s))) :
    readMachineId .invalidMid (formatUuid (hexOfSuffix s)) = .ok (formatUuid (hexOfSuffix s)) := by
  obtain ⟨hversion, hvariant⟩ := (isMachineId_hexOfSuffix_iff s).mp h
  rw [readMachineId, asciiLower_hexOfSuffix, ensure_of (machinePattern_hexOfSuffix s),
    ensure_of hversion, ensure_of hvariant]
  rfl

/-- Otherwise they are refused. -/
theorem readMachineId_of_not_machineId {s : Text} (h : ¬ IsMachineId (formatUuid (hexOfSuffix s))) :
    ∃ e, readMachineId .invalidMid (formatUuid (hexOfSuffix s)) = .error e := by
  rw [isMachineId_hexOfSuffix_iff] at h
  rw [readMachineId, asciiLower_hexOfSuffix, ensure_of (machinePattern_hexOfSuffix s)]
  by_cases hversion : (formatUuid (hexOfSuffix s))[14]? = some '7'
  · rw [ensure_of hversion, ensure_of_not fun hvariant => h ⟨hversion, hvariant⟩]
    exact ⟨_, rfl⟩
  · rw [ensure_of_not hversion]
    exact ⟨_, rfl⟩

/-- The last tests of `readPublicId`. -/
theorem ensure_digits_of_machineId {s : Text} (h : IsMachineId (formatUuid (hexOfSuffix s)))
    (result : ParsedPublicId) : (do
      ensure ((formatUuid (hexOfSuffix s))[14]? = some '7') .invalidPid
      ensure (∃ c ∈ "89ab".toList, (formatUuid (hexOfSuffix s))[19]? = some c) .invalidPid
      return result : Except IdentifoldErrorCode ParsedPublicId) = .ok result := by
  obtain ⟨hversion, hvariant⟩ := (isMachineId_hexOfSuffix_iff s).mp h
  rw [ensure_of hversion, ensure_of hvariant]
  rfl

/-- So they are by the ports that test the two digits themselves. -/
theorem ensure_digits_of_not_machineId {s : Text} (h : ¬ IsMachineId (formatUuid (hexOfSuffix s)))
    (result : ParsedPublicId) : (do
      ensure ((formatUuid (hexOfSuffix s))[14]? = some '7') .invalidPid
      ensure (∃ c ∈ "89ab".toList, (formatUuid (hexOfSuffix s))[19]? = some c) .invalidPid
      return result : Except IdentifoldErrorCode ParsedPublicId) = .error .invalidPid := by
  rw [isMachineId_hexOfSuffix_iff] at h
  by_cases hversion : (formatUuid (hexOfSuffix s))[14]? = some '7'
  · rw [ensure_of hversion, ensure_of_not fun hvariant => h ⟨hversion, hvariant⟩]
    rfl
  · rw [ensure_of_not hversion]
    rfl

/-- The ports that lower the whole text first read public identifiers as the grammar
has them, whatever their case mapping does to other texts. -/
theorem parseLowerPublicId_eq {length : Text → Nat} (hlength : ∀ s, IsAscii s → length s = s.length)
    (unicode : CaseMapping) (v : Text) :
    parseLowerPublicId unicode length v = readPublicId unicode.toLower .invalidPid v := by
  rw [parseLowerPublicId, readPublicId]
  refine congrArg _ (funext fun _ => ?_)
  cases rsplitOnce '_' v with
  | none => rfl
  | some parts =>
      obtain ⟨ns, s⟩ := parts
      dsimp only
      refine congrArg _ (funext fun _ => ?_)
      by_cases hsuffix : IsTypeIdSuffix s
      · obtain ⟨hguard, hs⟩ := (isTypeIdSuffix_iff hlength).mp hsuffix
        rw [ensure_of hguard, ensure_of hsuffix, ok_bind, ok_bind, readSuffix_of_mem _ hs, ok_bind,
          Nat.zero_mul, Nat.zero_add, formatUuid_toDigits_of_suffix hsuffix, parseLowerMachineId_eq]
        by_cases hmachine : IsMachineId (formatUuid (hexOfSuffix s))
        · rw [readMachineId_of_machineId hmachine, ensure_digits_of_machineId hmachine]
          rfl
        · obtain ⟨e, he⟩ := readMachineId_of_not_machineId hmachine
          rw [he, ensure_digits_of_not_machineId hmachine]
          rfl
      · rw [ensure_of_not hsuffix, error_bind]
        by_cases hguard : length s = 26 ∧ ∀ c ∈ s.head?, c ≤ '7'
        · have hs : ¬ ∀ c ∈ s, c ∈ typeIdAlphabet := fun h =>
            hsuffix ((isTypeIdSuffix_iff hlength).mpr ⟨hguard, h⟩)
          rw [ensure_of hguard, ok_bind, readSuffix_of_not_mem _ hs, error_bind]
        · rw [ensure_of_not hguard, error_bind]

/-! ### PHP -/

theorem Php.parseMachineId_eq (v : Text) : Php.parseMachineId v = readMachineId .invalidMid v := rfl

/-- The PHP port has one error for a suffix. -/
theorem Php.readSuffixSymbols_error {s : Text} {e : IdentifoldErrorCode}
    (h : Php.readSuffixSymbols s = .error e) : e = .invalidPid := by
  rw [Php.readSuffixSymbols] at h
  cases hpositions : s.mapM Php.positionBits with
  | error e' =>
      rw [hpositions, error_bind] at h
      obtain ⟨c, -, hc⟩ := exists_error_of_mapM hpositions
      rw [Php.positionBits] at hc
      rw [← Except.error.inj h]
      split at hc
      · contradiction
      · exact (Except.error.inj hc).symm
  | ok positions =>
      rw [hpositions, ok_bind] at h
      dsimp only at h
      by_cases hbits : positions.flatten.take 2 = "00".toList
      · rw [ensure_of hbits] at h
        contradiction
      · rw [ensure_of_not hbits] at h
        exact (Except.error.inj h).symm

/-- The PHP port reads public identifiers as the grammar has them. -/
theorem Php.parsePublicId_eq (v : Text) :
    Php.parsePublicId v = readPublicId asciiLower .invalidPid v := by
  rw [Php.parsePublicId, readPublicId]
  refine congrArg _ (funext fun _ => ?_)
  cases rsplitOnce '_' v with
  | none => rfl
  | some parts =>
      obtain ⟨ns, s⟩ := parts
      dsimp only
      refine congrArg _ (funext fun _ => ?_)
      have hlength : ∀ s : Text, IsAscii s → s.length = s.length := fun _ _ => rfl
      by_cases hsuffix : IsTypeIdSuffix s
      · obtain ⟨hguard, hs⟩ := (isTypeIdSuffix_iff hlength).mp hsuffix
        have hread := (Php.readSuffixSymbols_ok_iff hguard.1 hguard.2).mpr ⟨hs, rfl⟩
        rw [ensure_of hguard, ensure_of hsuffix, ok_bind, ok_bind, hread, ok_bind,
          Php.parseMachineId_eq]
        by_cases hmachine : IsMachineId (formatUuid (hexOfSuffix s))
        · rw [readMachineId_of_machineId hmachine, ensure_digits_of_machineId hmachine]
          rfl
        · obtain ⟨e, he⟩ := readMachineId_of_not_machineId hmachine
          rw [he, ensure_digits_of_not_machineId hmachine]
          rfl
      · rw [ensure_of_not hsuffix, error_bind]
        by_cases hguard : s.length = 26 ∧ ∀ c ∈ s.head?, c ≤ '7'
        · rw [ensure_of hguard, ok_bind]
          cases hread : Php.readSuffixSymbols s with
          | error e => rw [Php.readSuffixSymbols_error hread, error_bind]
          | ok hex =>
              have hs := ((Php.readSuffixSymbols_ok_iff hguard.1 hguard.2).mp hread).1
              exact absurd ((isTypeIdSuffix_iff hlength).mpr ⟨hguard, hs⟩) hsuffix
        · rw [ensure_of_not hguard, error_bind]

/-! ### C# -/

/-- Printable text does not end in a line end, so `$` is the end of the text. -/
theorem CSharp.anchored_of_isPrintable {pattern : Text → Bool} (hv : Swift.IsPrintable v) :
    CSharp.anchored pattern v = true ↔ pattern v = true := by
  rw [CSharp.anchored_iff, or_iff_left]
  rintro ⟨u, -, rfl⟩
  exact absurd (hv '\n' (by simp)) (by decide)

/-- The C# port reads machine identifiers of printable text as the grammar has them.
-/
theorem CSharp.parseMachineId_eq (invariant : CaseMapping) (hv : Swift.IsPrintable v) :
    CSharp.parseMachineId invariant v =
      (readMachineId .invalidMid v).mapError CSharp.Failure.error := by
  have hlower : Swift.IsPrintable (asciiLower v) := PortCodec.isPrintable_asciiLower hv
  rw [CSharp.parseMachineId, readMachineId,
    invariant.toLower_ascii v (Swift.isAscii_of_isPrintable hv)]
  simp only [bind_mapError, ensure_mapError, CSharp.anchored_of_isPrintable hlower]
  rfl

/-- The public identifiers of the machine identifiers whose first digit is 8 or more. -/
def IsUpperHalfPublicId (v : Text) : Prop :=
  ∃ ns hex, isPublicPrefix ns = true ∧ IsMachineHex hex ∧ v = publicIdText ns hex ∧
    ∃ c ∈ hex.head?, 8 ≤ hexAlphabet.idxOf c

/-- A suffix of 2 ^ 127 and more is one that the C# port throws on. -/
theorem isUpperHalfPublicId_of_read {ns s : Text} (hns : isPublicPrefix ns = true)
    (hsplit : rsplitOnce '_' v = some (ns, s)) (hsuffix : IsTypeIdSuffix s)
    (hmachine : IsMachineId (formatUuid (hexOfSuffix s)))
    (hupper : ¬ Radix.read typeIdAlphabet s < 2 ^ 127) : IsUpperHalfPublicId v := by
  have hhex : IsHex32 (hexOfSuffix s) := isHex32_write _
  obtain ⟨-, htext⟩ := exists_publicIdText_iff.mp ⟨s, hsplit, hsuffix, rfl⟩
  have hread : Radix.read hexAlphabet (hexOfSuffix s) = Radix.read typeIdAlphabet s := by
    rw [hexOfSuffix, Radix.read_write hexAlphabet_nodup (by decide), Nat.mod_eq_of_lt]
    exact Nat.lt_of_lt_of_le hsuffix.read_lt (by decide)
  rw [← hread, CSharp.read_lt_half_iff hhex] at hupper
  obtain ⟨c, hc⟩ := not_forall.mp hupper
  obtain ⟨hhead, hge⟩ := Classical.not_imp.mp hc
  exact ⟨ns, hexOfSuffix s, hns, isMachineHex_of_formatUuid hhex hmachine, htext, c, hhead,
    Nat.not_lt.mp hge⟩

/-- Of those, C# reads none. -/
theorem CSharp.parsePublicId_of_upperHalf (invariant : CaseMapping) (h : IsUpperHalfPublicId v) :
    CSharp.parsePublicId invariant v = .error (.error .invalidPid) := by
  obtain ⟨ns, hex, hns, hhex, rfl, c, hc, hge⟩ := h
  rw [CSharp.parsePublicId_publicIdText (CSharp.anchored_iff.mpr (.inl hns)) hhex, if_neg]
  intro hhead
  exact absurd (hhead c hc) (Nat.not_lt.mpr hge)

/-- What C# makes of the number of a suffix: below the upper half, what the other ports make of
it. -/
theorem CSharp.parse_toStringX32 (invariant : CaseMapping) {s : Text} (hsuffix : IsTypeIdSuffix s)
    (hhalf : IsMachineId (formatUuid (hexOfSuffix s)) → Radix.read typeIdAlphabet s < 2 ^ 127) :
    (∃ e, CSharp.parseMachineId invariant
          (formatUuid (CSharp.toStringX32 (Radix.read typeIdAlphabet s))) = .error e ∧
        ¬ IsMachineId (formatUuid (hexOfSuffix s))) ∨
      CSharp.parseMachineId invariant
          (formatUuid (CSharp.toStringX32 (Radix.read typeIdAlphabet s))) =
        .ok (formatUuid (hexOfSuffix s)) ∧ IsMachineId (formatUuid (hexOfSuffix s)) := by
  have hhex : IsHex32 (hexOfSuffix s) := isHex32_write _
  have hwrite : Radix.write hexAlphabet 32 (Radix.read typeIdAlphabet s) = hexOfSuffix s := rfl
  have hparse := CSharp.parseMachineId_eq invariant (Swift.isPrintable_formatUuid hhex)
  rw [CSharp.toStringX32_eq hsuffix.read_lt, hwrite]
  by_cases hmachine : IsMachineId (formatUuid (hexOfSuffix s))
  · rw [if_pos (hhalf hmachine), hparse, readMachineId_of_machineId hmachine]
    exact .inr ⟨rfl, hmachine⟩
  · obtain ⟨e, he⟩ := readMachineId_of_not_machineId hmachine
    refine .inl ?_
    split
    · rw [hparse, he]
      exact ⟨_, rfl, hmachine⟩
    · cases hlong : CSharp.parseMachineId invariant (formatUuid ('0' :: hexOfSuffix s)) with
      | ok w => exact absurd hlong (CSharp.parseMachineId_of_long hhex w)
      | error e' => exact ⟨e', rfl, hmachine⟩

/-- The others it reads as the other ports. -/
theorem CSharp.parsePublicId_eq (invariant : CaseMapping) (hv : Swift.IsPrintable v)
    (h : ¬ IsUpperHalfPublicId v) : CSharp.parsePublicId invariant v =
      (readPublicId asciiLower .invalidPid v).mapError CSharp.Failure.error := by
  rw [CSharp.parsePublicId, readPublicId,
    invariant.toLower_ascii v (Swift.isAscii_of_isPrintable hv),
    bind_mapError, ensure_mapError]
  refine congrArg _ (funext fun _ => ?_)
  cases hsplit : rsplitOnce '_' v with
  | none => rfl
  | some parts =>
      obtain ⟨ns, s⟩ := parts
      obtain ⟨hparts, -⟩ := rsplitOnce_eq_some_iff.mp hsplit
      have hns : Swift.IsPrintable ns := fun c hc => hv c (by simp [hparts, hc])
      have hguarded := @isTypeIdSuffix_iff utf16Length (fun _ => utf16Length_of_isAscii) s
      dsimp only
      rw [bind_mapError, ensure_mapError]
      simp only [CSharp.anchored_of_isPrintable hns]
      by_cases hstart : isPublicPrefix ns = true
      · rw [ensure_of hstart, ok_bind, ok_bind]
        by_cases hsuffix : IsTypeIdSuffix s
        · have hhalf : IsMachineId (formatUuid (hexOfSuffix s)) →
              Radix.read typeIdAlphabet s < 2 ^ 127 := by
            intro hmachine
            by_contra hnot
            exact h (isUpperHalfPublicId_of_read hstart hsplit hsuffix hmachine hnot)
          obtain ⟨hguard, hs⟩ := hguarded.mp hsuffix
          rw [ensure_of hguard, ensure_of hsuffix, ok_bind, ok_bind, readSuffix_of_mem _ hs,
            ok_bind, Nat.zero_mul, Nat.zero_add]
          rcases CSharp.parse_toStringX32 invariant hsuffix hhalf with
            ⟨e, he, hmachine⟩ | ⟨hok, hmachine⟩
          · rw [he, ensure_digits_of_not_machineId hmachine]
            rfl
          · rw [hok, ensure_digits_of_machineId hmachine]
            rfl
        · rw [ensure_of_not hsuffix, error_bind]
          by_cases hguard : utf16Length s = 26 ∧ ∀ c ∈ s.head?, c ≤ '7'
          · have hs : ¬ ∀ c ∈ s, c ∈ typeIdAlphabet := fun hall =>
              hsuffix (hguarded.mpr ⟨hguard, hall⟩)
            rw [ensure_of hguard, ok_bind, readSuffix_of_not_mem _ hs]
            rfl
          · rw [ensure_of_not hguard]
            rfl
      · rw [ensure_of_not hstart]
        rfl

end Identifiers

/-! ## the ports -/

section Ports

variable {v : Text} {registry : List PortNamespaceDefinition}

theorem isSequence_of_ne_nil (hne : v ≠ []) :
    (!v.isEmpty && v.all Char.isDigit) = v.all Char.isDigit := by
  rw [List.isEmpty_eq_false_iff.mpr hne]
  rfl

/-- The PHP port is plain on every text. -/
theorem Php.codec_plain : Php.codec.Plain where
  length _ _ := rfl
  toUpper _ _ := rfl
  startsWith _ _ _ _ := rfl
  isSequence _ hne _ := isSequence_of_ne_nil hne
  startsWithLetters _ _ := rfl
  parseMachineId _ _ := (mapError_id _).symm

/-- The Ruby port is plain, whatever its case mapping. -/
theorem Ruby.codec_plain (unicode : CaseMapping) : (Ruby.codec unicode).Plain where
  length _ _ := rfl
  toUpper v hv := unicode.toUpper_ascii v (Swift.isAscii_of_isPrintable hv)
  startsWith _ _ _ _ := rfl
  isSequence _ hne _ := isSequence_of_ne_nil hne
  startsWithLetters _ _ := rfl
  parseMachineId v _ := (parseLowerMachineId_eq unicode v).trans (mapError_id _).symm

/-- The Java port is plain, whatever its runtime says of other symbols. -/
theorem Java.codec_plain (runtime : Java.Runtime) : (Java.codec runtime).Plain where
  length v hv := utf16Length_of_isAscii (Swift.isAscii_of_isPrintable hv)
  toUpper v hv := runtime.unicode.toUpper_ascii v (Swift.isAscii_of_isPrintable hv)
  startsWith _ _ _ _ := rfl
  isSequence _ _ hv := by
    have hdigit := fun c hc =>
      runtime.isDigit_ascii c (Swift.isAscii_of_isPrintable hv c hc)
    change List.all _ runtime.isDigit = _
    rw [Bool.eq_iff_iff, List.all_eq_true, List.all_eq_true]
    exact forall₂_congr fun c hc => by rw [hdigit c hc]
  startsWithLetters v hv := by
    have hlines : ∀ c : Char, ' ' ≤ c ∧ c ≤ '~' → c.toNat ∉ [0x0a, 0x0d, 0x85, 0x2028, 0x2029] := by
      rintro c ⟨hge, hle⟩
      have hlow : 32 ≤ c.toNat := hge
      have hhigh : c.toNat ≤ 126 := hle
      simp only [List.mem_cons, List.not_mem_nil, or_false]
      omega
    have hall : v.all (fun c => c.toNat ∉ [0x0a, 0x0d, 0x85, 0x2028, 0x2029]) = true :=
      List.all_eq_true.mpr fun c hc => decide_eq_true (hlines c (hv c hc))
    change (startsWithLetters v && v.all _) = startsWithLetters v
    rw [hall, Bool.and_true]
  parseMachineId v _ := (parseLowerMachineId_eq runtime.unicode v).trans (mapError_id _).symm

/-- The C# port is plain but for its wrapped errors. -/
theorem CSharp.codec_plain (runtime : CSharp.Runtime) : (CSharp.codec runtime).Plain where
  length _ hv := utf16Length_of_isAscii (Swift.isAscii_of_isPrintable hv)
  toUpper v hv := runtime.invariant.toUpper_ascii v (Swift.isAscii_of_isPrintable hv)
  startsWith := runtime.startsWith_printable
  isSequence _ _ _ := rfl
  startsWithLetters _ _ := rfl
  parseMachineId _ hv := CSharp.parseMachineId_eq runtime.invariant hv

/-! ### Rust -/

section Rust

variable {ε : Type} {error : IdentifoldErrorCode → ε} {cut : ε}

/-- The formatter of the Rust and Go ports is the plain one on ASCII. -/
theorem formatSequential_eq {name sequence scope : Text} (hsequence : IsAscii sequence) :
    formatSequential error true registry name sequence scope =
      (plainCodec.formatSequentialReference registry name sequence scope).mapError error := by
  have hbytes : utf8Length sequence = plainCodec.length sequence := utf8Length_of_isAscii hsequence
  rw [formatSequential, PortCodec.formatSequentialReference]
  cases findNamespace registry name with
  | none => rfl
  | some item =>
      obtain ⟨publicPrefix, _ | reference⟩ := item
      · rfl
      dsimp only
      split
      · by_cases hguard : plainCodec.isSequence sequence = true ∧
            plainCodec.length sequence ≤ reference.width
        · have hdigits : ∀ c ∈ sequence, c.isDigit = true := List.all_eq_true.mp hguard.1
          rw [hbytes, ensure_of ⟨hguard.2, fun _ => hdigits⟩, ensure_of hguard, ok_bind, ok_bind,
            padBytes, hbytes, writtenCheckSymbol]
          cases checkSymbolOf (scope ++ (List.replicate
              (reference.width - plainCodec.length sequence) '0' ++ sequence)) true with
          | none => rfl
          | some check =>
              dsimp only
              rw [ok_bind]
              split <;> rfl
        · rw [hbytes, ensure_of_not fun h => hguard ⟨List.all_eq_true.mpr (h.2 rfl), h.1⟩,
            ensure_of_not hguard]
          rfl
      · rfl

/-- A printable body is cut before its last symbol. -/
theorem splitAtByte_of_isAscii {body : Text} (hbody : IsAscii body) {n : Nat}
    (hn : body.length = n + 1) :
    ∃ raw symbol, plainCodec.cutLast body = some (raw, symbol) ∧
      splitAtByte n body = some (raw, [symbol]) ∧ raw.length = n := by
  have hne : body ≠ [] := by
    rintro rfl
    contradiction
  have hdrop : body.dropLast ++ [body.getLast hne] = body := List.dropLast_append_getLast hne
  have hlength : body.dropLast.length = n := by
    rw [List.length_dropLast, hn, Nat.add_sub_cancel]
  refine ⟨body.dropLast, body.getLast hne, ?_, ?_, hlength⟩
  · rw [PortCodec.cutLast, List.getLast?_eq_some_getLast hne]
    rfl
  · rw [splitAtByte_eq_some_iff]
    refine ⟨hdrop.symm, ?_⟩
    rw [utf8Length_of_isAscii fun c hc => hbody c (List.mem_of_mem_dropLast hc), hlength]

/-- A sequential body, read by Rust. -/
theorem normalizeSequence_eq {name body : Text} {p : PortReferenceDefinition}
    (hbody : IsAscii body) :
    normalizeSequence error cut true registry name p body =
      (do
        let scopeLength := if p.scope = "calendar-year" then 4 else 0
        let (payload, _) ← plainCodec.readBody true (scopeLength + p.width) body
        plainCodec.formatSequentialReference registry name (payload.drop scopeLength)
          (payload.take scopeLength)).mapError error := by
  rw [normalizeSequence]
  dsimp only
  rw [bind_mapError, PortCodec.readBody, bind_mapError, ensure_mapError,
    utf8Length_of_isAscii hbody]
  have hlength : plainCodec.length body = body.length := rfl
  rw [hlength]
  by_cases hn : body.length = (if p.scope = "calendar-year" then 4 else 0) + p.width + 1
  · obtain ⟨raw, symbol, hcut, hsplit, -⟩ := splitAtByte_of_isAscii hbody hn
    rw [ensure_of hn, ensure_of hn, ok_bind, ok_bind, hn, Nat.add_sub_cancel, hcut, hsplit]
    dsimp only
    rw [if_pos rfl]
    cases hcheck : checkSymbolOf raw true with
    | none => rfl
    | some expected =>
        have hdigits := (checkSymbolOf_sequence_iff.mp hcheck).1
        have hdrop : IsAscii (raw.drop (if p.scope = "calendar-year" then 4 else 0)) := fun c hc =>
          toNat_lt_of_isDigit (hdigits c (List.mem_of_mem_drop hc))
        dsimp only
        by_cases hsymbol : expected = symbol
        · rw [ensure_of (congrArg ([·]) hsymbol.symm), ensure_of hsymbol, ok_bind, ok_bind]
          exact formatSequential_eq hdrop
        · rw [ensure_of_not fun h => hsymbol (List.singleton_inj.mp h).symm, ensure_of_not hsymbol]
          rfl
  · rw [ensure_of_not hn, ensure_of_not hn]
    rfl

/-- A random body, read by Rust. -/
theorem normalizeRandom_eq {body : Text} {p : PortReferenceDefinition} (hbody : IsAscii body) :
    normalizeRandom error cut p body =
      (do
        let (payload, supplied) ← plainCodec.readBody false (profileLength p.profile) body
        return join '-' [p.refPrefix, join '-' (chunks 4 payload), [supplied]] :
          Except IdentifoldErrorCode Text).mapError error := by
  rw [normalizeRandom]
  dsimp only
  rw [bind_mapError, PortCodec.readBody, bind_mapError, ensure_mapError,
    utf8Length_of_isAscii hbody]
  have hlength : plainCodec.length body = body.length := rfl
  rw [hlength]
  by_cases hn : body.length = profileLength p.profile + 1
  · obtain ⟨raw, symbol, hcut, hsplit, -⟩ := splitAtByte_of_isAscii hbody hn
    rw [ensure_of hn, ensure_of hn, ok_bind, ok_bind, hcut, hsplit]
    dsimp only
    rw [if_neg Bool.false_ne_true]
    cases checkSymbolOf (raw.map normalizeSymbol) false with
    | none => rfl
    | some expected =>
        dsimp only
        by_cases hsymbol : expected = symbol
        · rw [ensure_of (congrArg ([·]) hsymbol.symm), ensure_of hsymbol, ok_bind, ok_bind]
          rfl
        · rw [ensure_of_not fun h => hsymbol (List.singleton_inj.mp h).symm, ensure_of_not hsymbol]
          rfl
  · rw [ensure_of_not hn, ensure_of_not hn]
    rfl

/-- The reference branch of Rust. -/
theorem normalizeCompact_eq {compact : Text} (hcompact : IsAscii compact) :
    normalizeCompact error cut
        (error (if 2 ≤ (v.takeWhile Char.isAlpha).length then .unknownNamespace else .invalidKind))
        true registry compact =
      (plainCodec.normalizeReference registry v compact).mapError error := by
  have hfind : (registry.find? fun item => item.reference.any (·.refPrefix.isPrefixOf compact)) =
      registry.find? fun item => item.reference.any (plainCodec.startsWith compact ·.refPrefix) := rfl
  have hmissing : error (if 2 ≤ (v.takeWhile Char.isAlpha).length then .unknownNamespace
      else .invalidKind) = error (if plainCodec.startsWithLetters v = true then .unknownNamespace
      else .invalidKind) :=
    congrArg error (if_congr decide_eq_true_iff.symm rfl rfl)
  rw [normalizeCompact, PortCodec.normalizeReference, hfind]
  cases registry.find? fun item => item.reference.any (plainCodec.startsWith compact ·.refPrefix) with
  | none => exact congrArg Except.error hmissing
  | some item =>
      obtain ⟨name, _ | p⟩ := item
      · exact congrArg Except.error hmissing
      · have hbody : IsAscii (compact.drop p.refPrefix.length) := fun c hc =>
          hcompact c (List.mem_of_mem_drop hc)
        dsimp only
        rw [bind_mapError, ensure_mapError]
        refine congrArg _ (funext fun _ => ?_)
        split
        · exact normalizeSequence_eq hbody
        · exact normalizeRandom_eq hbody

/-- **Rust** normalizes a printable text as the plain port does. -/
theorem Rust.normalize_eq (hv : Swift.IsPrintable v) :
    Rust.normalize v registry = (plainCodec.normalize v registry).mapError Rust.Failure.error := by
  have hascii := Swift.isAscii_of_isPrintable hv
  have hlength : plainCodec.length v = v.length := rfl
  rw [Rust.normalize, PortCodec.normalize, utf8Length_of_isAscii hascii, hlength]
  split
  · rw [Rust.parsePublicId_eq, bind_mapError]
    refine congrArg _ (funext fun parsed => ?_)
    rw [bind_mapError, ensure_mapError]
    rfl
  · split
    · exact Rust.parseMachineId_eq v
    · have hcompact : IsAscii (strip '-' (asciiUpper v)) := fun c hc =>
        Swift.isAscii_of_isPrintable (PortCodec.isPrintable_asciiUpper hv) c (mem_of_mem_strip hc)
      exact normalizeCompact_eq hcompact

end Rust

end Ports

end Identifold
