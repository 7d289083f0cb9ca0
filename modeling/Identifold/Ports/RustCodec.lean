import Identifold.PublicId

/-!
# Identifold.Ports.RustCodec

The machine and public identifiers of the Rust port (`packages/rust/src/lib.rs`).

The codec works on a `u128` with shifts.  `checked_shl` checks the shift
amount only, so the suffix decoder computes its number modulo `2 ^ 128`
(`decodeLoop_toNat`); the guard on the first symbol is what keeps the number
below that modulus.

* `decodeLoop_ok_iff` — the decoder computes modulo `2 ^ 128`;
* `decodeSuffix_ok_iff` — behind its guard no bit is lost;
* `publicIdFromMachineId_ok_iff`, `parsePublicId_ok_iff` — what is written, and
  what is read.
-/

namespace Identifold.Rust

open Separated

/-- What a call of the port ends in instead of a result: an `Error` with its
code, or a panic. -/
inductive Failure
  | error (code : IdentifoldErrorCode)
  | panicked
  deriving DecidableEq, Repr

/-! ## machine identifiers -/

/-- `value.as_bytes()[index]`, where it is an ASCII byte: the symbol that
begins at this offset.  (In UTF-8 a byte below 128 is a symbol of its own.) -/
def charAtByte (index : Nat) (value : Text) : Option Char :=
  (splitAtByte index value).bind fun p => p.2.head?

/-- `parse_machine_id`. -/
def parseMachineId (value : Text) : Except Failure Text := do
  let value := asciiLower value
  let valid := utf8Length value = 36 &&
    ([8, 13, 18, 23].all fun index => charAtByte index value = some '-') &&
    value.zipIdx.all fun p => p.2 ∈ [8, 13, 18, 23] || isHexDigit p.1
  ensure (valid = true) (.error .invalidMid)
  ensure (charAtByte 14 value = some '7') (.error .invalidUuidVersion)
  ensure (∃ c ∈ "89ab".toList, charAtByte 19 value = some c) (.error .invalidMid)
  return value

/-- `prefix_valid`. -/
def prefixValid (value : Text) : Bool :=
  1 ≤ utf8Length value && utf8Length value ≤ 63 && value.head?.any Char.isLower &&
    value.getLast?.any Char.isLower && value.all fun c => c.isLower || c == '_'

/-! ## the codec -/

/-- The sign `from_str_radix` allows in front of the digits. -/
def stripPlus : Text → Text
  | '+' :: rest => rest
  | src => src

/-- `u128::from_str_radix(src, 16)`: at least one digit, failing on an invalid
digit and on overflow. -/
def u128FromHex (src : Text) : Option (BitVec 128) :=
  let digits := stripPlus src
  if digits = [] then none
  else
    (digits.foldlM (fun (acc : Nat) c =>
      if c.toLower ∈ hexAlphabet ∧ acc * 16 + hexAlphabet.idxOf c.toLower < 2 ^ 128 then
        some (acc * 16 + hexAlphabet.idxOf c.toLower)
      else none) 0).map (BitVec.ofNat 128)

/-- `machine_number`. -/
def machineNumber (value : Text) : Except Failure (BitVec 128) := do
  let canonical ← parseMachineId value
  match u128FromHex (strip '-' canonical) with
  | some number => return number
  | none => throw (.error .invalidMid)

/-- `format_machine`: `{value:032x}`, cut into groups. -/
def formatMachine (value : BitVec 128) : Text :=
  formatUuid (padStart 32 (Nat.toDigits 16 value.toNat))

/-- The loop of `encode_suffix`, from the last symbol to the first. -/
def encodeLoop : Nat → BitVec 128 → Text
  | 0, _ => []
  | n + 1, value => encodeLoop n (value >>> 5) ++ charAt typeIdAlphabet (value &&& 31).toNat

/-- `encode_suffix`. -/
def encodeSuffix (value : BitVec 128) : Text := encodeLoop 26 value

/-- `u128::checked_shl`: the amount is checked, lost bits are not. -/
def checkedShl (value : BitVec 128) (amount : Nat) : Option (BitVec 128) :=
  if amount < 128 then some (value <<< amount) else none

/-- The loop of `decode_suffix`. -/
def decodeLoop (result : BitVec 128) : Text → Except Failure (BitVec 128)
  | [] => .ok result
  | symbol :: value =>
      if symbol ∈ typeIdAlphabet then
        match checkedShl result 5 with
        | some shifted =>
            decodeLoop (shifted ||| BitVec.ofNat 128 (typeIdAlphabet.idxOf symbol)) value
        | none => .error (.error .invalidPid)
      else .error (.error .invalidPid)

/-- `decode_suffix`. -/
def decodeSuffix (value : Text) : Except Failure (BitVec 128) := do
  ensure (utf8Length value = 26 ∧ ∀ c ∈ value.head?, c ≤ '7') (.error .invalidPid)
  decodeLoop 0 value

/-- `public_id_from_machine_id`. -/
def publicIdFromMachineId (machineId namespaceName : Text) : Except Failure Text := do
  ensure (prefixValid namespaceName = true) (.error .invalidPublicPrefix)
  let number ← machineNumber machineId
  return namespaceName ++ '_' :: encodeSuffix number

/-- `parse_public_id`. -/
def parsePublicId (value : Text) : Except Failure ParsedPublicId := do
  ensure (value = asciiLower value) (.error .invalidPid)
  match rsplitOnce '_' value with
  | none => throw (.error .invalidPublicPrefix)
  | some (namespaceName, suffix) =>
      ensure (prefixValid namespaceName = true) (.error .invalidPublicPrefix)
      let number ← decodeSuffix suffix
      let machineId := formatMachine number
      ensure ((parseMachineId machineId).isOk) (.error .invalidPid)
      return { value := value, namespaceName := namespaceName, machineId := machineId }

/-! ## machine identifiers are accepted -/

theorem charAtByte_append {xs : Text} (h : IsAscii xs) (ys : Text) :
    charAtByte xs.length (xs ++ ys) = ys.head? := by
  rw [charAtByte, splitAtByte_append h]
  rfl

theorem charAtByte_of_isAscii {v : Text} (h : IsAscii v) {index : Nat} (hindex : index ≤ v.length) :
    charAtByte index v = v[index]? := by
  have htake : IsAscii (v.take index) := fun c hc => h c (List.mem_of_mem_take hc)
  have hsplit := charAtByte_append htake (v.drop index)
  rwa [List.length_take_of_le hindex, List.take_append_drop, List.head?_drop] at hsplit

/-- The symbols before a byte offset with a hyphen, or a hexadecimal digit,
are ASCII symbols: no symbol of several bytes passes the two tests. -/
theorem isAscii_of_valid {v : Text} {positions : List Nat}
    (hhyphens : ∀ index ∈ positions, charAtByte index v = some '-')
    (hdigits : ∀ i c, v[i]? = some c → i ∈ positions ∨ isHexDigit c = true) : IsAscii v := by
  have hpre : ∀ n, IsAscii (v.take n) := by
    intro n
    induction n with
    | zero => simp [IsAscii]
    | succ n ih =>
        intro c hc
        rw [List.take_add_one, List.mem_append] at hc
        rcases hc with hc | hc
        · exact ih c hc
        · have hget : v[n]? = some c := by simpa using hc
          have hlt : n < v.length := (List.getElem?_eq_some_iff.mp hget).1
          rcases hdigits n c hget with hn | hhex
          · have hat := charAtByte_append ih (v.drop n)
            rw [List.length_take_of_le hlt.le, List.take_append_drop, List.head?_drop, hget,
              hhyphens n hn] at hat
            rw [← Option.some.inj hat]
            decide
          · exact toNat_lt_of_isHexDigit hhex
  have hall := hpre v.length
  rwa [List.take_length] at hall

theorem mem_hexAlphabet_iff {c : Char} (hc : c.toNat < 128) (hlower : c.isUpper = false) :
    isHexDigit c = true ↔ c ∈ hexAlphabet :=
  forall_ascii (P := fun c => c.isUpper = false → (isHexDigit c = true ↔ c ∈ hexAlphabet))
    (by decide) c hc hlower

theorem eq_take_append_of_getElem? {α : Type} {xs : List α} {n : Nat} {x : α}
    (h : xs[n]? = some x) : xs = xs.take n ++ x :: xs.drop (n + 1) := by
  obtain ⟨hlt, rfl⟩ := List.getElem?_eq_some_iff.mp h
  rw [← List.drop_eq_getElem_cons hlt, List.take_append_drop]

/-- The rest of a text up to and after a symbol. -/
theorem drop_eq_take_append {v : Text} (start size : Nat) {x : Char}
    (h : v[start + size]? = some x) :
    v.drop start = (v.drop start).take size ++ x :: v.drop (start + (size + 1)) := by
  have hx : (v.drop start)[size]? = some x := by rwa [List.getElem?_drop]
  have hcut := eq_take_append_of_getElem? hx
  rwa [List.drop_drop] at hcut

/-- A slice that avoids the positions of the hyphens has digits only. -/
theorem mem_hexAlphabet_of_slice {v : Text} {positions : List Nat}
    (hdigits : ∀ i c, v[i]? = some c → i ∈ positions ∨ c ∈ hexAlphabet) (start size : Nat)
    (havoid : ∀ j < size, start + j ∉ positions) : ∀ c ∈ (v.drop start).take size, c ∈ hexAlphabet := by
  intro c hc
  obtain ⟨j, hj⟩ := List.mem_iff_getElem?.mp hc
  have hlt : j < size := by
    by_contra hge
    rw [List.getElem?_take_eq_none (by omega)] at hj
    contradiction
  rw [List.getElem?_take_of_lt hlt, List.getElem?_drop] at hj
  exact (hdigits _ c hj).resolve_left (havoid j hlt)

/-- The groups of a text with hyphens at the four positions. -/
def slicedGroups (v : Text) : List Text :=
  [(v.drop 0).take 8, (v.drop 9).take 4, (v.drop 14).take 4, (v.drop 19).take 4,
    (v.drop 24).take 12]

theorem join_slicedGroups {v : Text} (hlen : v.length = 36)
    (hhyphens : ∀ index ∈ [8, 13, 18, 23], v[index]? = some '-') :
    join '-' (slicedGroups v) = v := by
  have h9 := drop_eq_take_append 0 8 (hhyphens 8 (by decide))
  have h14 := drop_eq_take_append 9 4 (hhyphens 13 (by decide))
  have h19 := drop_eq_take_append 14 4 (hhyphens 18 (by decide))
  have h24 := drop_eq_take_append 19 4 (hhyphens 23 (by decide))
  have hlast : join '-' [(v.drop 24).take 12] = v.drop 24 := by
    rw [List.take_of_length_le (by simp [hlen])]
    simp [join]
  simp only [slicedGroups, join_cons (List.cons_ne_nil _ _), hlast]
  rw [← h24, ← h19, ← h14, ← h9, List.drop_zero]

/-- Hyphens at the four positions cut a text of 36 symbols into the groups of
the pattern. -/
theorem machinePattern_of_positions {v : Text} (hlen : v.length = 36)
    (hhyphens : ∀ index ∈ [8, 13, 18, 23], v[index]? = some '-')
    (hdigits : ∀ i c, v[i]? = some c → i ∈ [8, 13, 18, 23] ∨ c ∈ hexAlphabet) :
    machinePattern v = true := by
  have hgroups : ∀ g ∈ slicedGroups v, ∀ c ∈ g, c ∈ hexAlphabet := by
    simp only [slicedGroups, List.forall_mem_cons]
    exact ⟨mem_hexAlphabet_of_slice hdigits 0 8 (by decide),
      mem_hexAlphabet_of_slice hdigits 9 4 (by decide),
      mem_hexAlphabet_of_slice hdigits 14 4 (by decide),
      mem_hexAlphabet_of_slice hdigits 19 4 (by decide),
      mem_hexAlphabet_of_slice hdigits 24 12 (by decide), by simp⟩
  have hnohyphen : ∀ g ∈ slicedGroups v, '-' ∉ g := fun g hg hmem =>
    (hexAlphabet_facts _ (hgroups g hg _ hmem)).2.2.1 rfl
  have hjoin := join_slicedGroups hlen hhyphens
  simp only [machinePattern, Bool.and_eq_true, decide_eq_true_eq, List.all_eq_true,
    Bool.or_eq_true]
  constructor
  · rw [← hjoin, splitOn_join hnohyphen (by simp [slicedGroups])]
    simp [slicedGroups, hlen]
  · intro c hc
    rw [← hjoin] at hc
    cases mem_join hc with
    | inl h => exact .inr h
    | inr h =>
        obtain ⟨g, hg, hcg⟩ := h
        exact .inl (hgroups g hg c hcg)

/-- Where the hyphens of a text can be that begins with a group of digits. -/
theorem mem_positions_cons {g rest : Text} {positions : List Nat}
    (hg : ∀ c ∈ g, c ∈ hexAlphabet)
    (hrest : ∀ i c, rest[i]? = some c → i ∈ positions ∨ c ∈ hexAlphabet) :
    ∀ i c, (g ++ '-' :: rest)[i]? = some c →
      i ∈ g.length :: positions.map (g.length + 1 + ·) ∨ c ∈ hexAlphabet := by
  intro i c hi
  by_cases hlt : i < g.length
  · rw [List.getElem?_append_left hlt] at hi
    exact .inr (hg c (List.mem_of_getElem? hi))
  · rw [List.getElem?_append_right (by omega)] at hi
    by_cases heq : i = g.length
    · exact .inl (by simp [heq])
    · obtain ⟨j, rfl⟩ : ∃ j, i = g.length + 1 + j := ⟨i - (g.length + 1), by omega⟩
      rw [show g.length + 1 + j - g.length = j + 1 by omega, List.getElem?_cons_succ] at hi
      rcases hrest j c hi with h | h
      · exact .inl (List.mem_cons_of_mem _ (List.mem_map_of_mem h))
      · exact .inr h

theorem positions_of_formatUuid {hex : Text} (h : IsHex32 hex) :
    (∀ index ∈ [8, 13, 18, 23], (formatUuid hex)[index]? = some '-') ∧
      ∀ i c, (formatUuid hex)[i]? = some c → i ∈ [8, 13, 18, 23] ∨ c ∈ hexAlphabet := by
  constructor
  · intro index hindex
    simp only [List.mem_cons, List.not_mem_nil, or_false] at hindex
    rcases hindex with rfl | rfl | rfl | rfl <;>
      simp [formatUuid, uuidGroups, join, h.1]
  · have htake : ∀ start size, ∀ c ∈ (hex.drop start).take size, c ∈ hexAlphabet :=
      fun start size c hc => h.2 c (List.mem_of_mem_drop (List.mem_of_mem_take hc))
    have hlast : ∀ i c, (hex.drop 20)[i]? = some c → i ∈ ([] : List Nat) ∨ c ∈ hexAlphabet :=
      fun i c hc => .inr (h.2 c (List.mem_of_mem_drop (List.mem_of_getElem? hc)))
    have hall := mem_positions_cons (htake 0 8) (mem_positions_cons (htake 8 4)
      (mem_positions_cons (htake 12 4) (mem_positions_cons (htake 16 4) hlast)))
    simpa [formatUuid, uuidGroups, join, h.1] using hall

/-- The loops over the bytes and the symbols test the pattern. -/
theorem valid_eq_machinePattern {w : Text} (hlower : ∀ c ∈ w, c.isUpper = false) :
    (utf8Length w = 36 && ([8, 13, 18, 23].all fun index => charAtByte index w = some '-') &&
      w.zipIdx.all fun p => p.2 ∈ [8, 13, 18, 23] || isHexDigit p.1) = machinePattern w := by
  have hle : ∀ index ∈ [8, 13, 18, 23], index ≤ 36 := by decide
  rw [Bool.eq_iff_iff]
  simp only [Bool.and_eq_true, decide_eq_true_eq, List.all_eq_true, Bool.or_eq_true]
  constructor
  · rintro ⟨⟨hlen, hhyphens⟩, hdigits⟩
    have hindexed : ∀ i c, w[i]? = some c → i ∈ [8, 13, 18, 23] ∨ isHexDigit c = true :=
      fun i c hc => hdigits (c, i) (List.mem_zipIdx_iff_getElem?.mpr hc)
    have hascii := isAscii_of_valid hhyphens hindexed
    rw [utf8Length_of_isAscii hascii] at hlen
    refine machinePattern_of_positions hlen ?_ ?_
    · intro index hindex
      have hindex36 := hle index hindex
      rw [← charAtByte_of_isAscii hascii (by omega)]
      exact hhyphens index hindex
    · intro i c hc
      have hmem := List.mem_of_getElem? hc
      rcases hindexed i c hc with h | h
      · exact .inl h
      · exact .inr ((mem_hexAlphabet_iff (hascii c hmem) (hlower c hmem)).mp h)
  · intro hpattern
    obtain ⟨hex, hhex, rfl⟩ := machinePattern_iff.mp hpattern
    have hascii : IsAscii (formatUuid hex) :=
      isAscii_of_asciiLower_eq_formatUuid hhex (asciiLower_formatUuid hhex)
    have hlen := length_formatUuid hhex.1
    have hpositions := positions_of_formatUuid hhex
    refine ⟨⟨by rw [utf8Length_of_isAscii hascii, hlen], ?_⟩, ?_⟩
    · intro index hindex
      have hindex36 := hle index hindex
      rw [charAtByte_of_isAscii hascii (by omega)]
      exact hpositions.1 index hindex
    · rintro ⟨c, i⟩ hci
      have hget := List.mem_zipIdx_iff_getElem?.mp hci
      rcases hpositions.2 i c hget with h | h
      · exact .inl h
      · obtain ⟨hc, hu, -⟩ := hexAlphabet_facts c h
        exact .inr ((mem_hexAlphabet_iff hc hu).mpr h)

/-- In a text of the pattern, bytes are symbols. -/
theorem charAtByte_of_machinePattern {w : Text} (h : machinePattern w = true) {index : Nat}
    (hindex : index ≤ 36) : charAtByte index w = w[index]? := by
  obtain ⟨hex, hhex, rfl⟩ := machinePattern_iff.mp h
  have hlen := length_formatUuid hhex.1
  exact charAtByte_of_isAscii
    (isAscii_of_asciiLower_eq_formatUuid hhex (asciiLower_formatUuid hhex)) (by omega)

/-- **`parse_machine_id` accepts machine identifiers.** -/
theorem parseMachineId_ok_iff {v w : Text} :
    parseMachineId v = .ok w ↔ IsMachineId w ∧ w = asciiLower v := by
  have hlower := isUpper_of_asciiLower_eq_self (asciiLower_asciiLower v)
  simp only [parseMachineId, bind_eq_ok_iff, ensure_eq_ok_iff, pure_eq_ok_iff,
    valid_eq_machinePattern hlower]
  constructor
  · rintro ⟨_, hpattern, _, hversion, _, hvariant, rfl⟩
    rw [charAtByte_of_machinePattern hpattern (by decide)] at hversion hvariant
    exact ⟨isMachineId_iff.mpr ⟨hpattern, hversion, hvariant⟩, rfl⟩
  · rintro ⟨hmachine, rfl⟩
    obtain ⟨hpattern, hversion, hvariant⟩ := isMachineId_iff.mp hmachine
    rw [charAtByte_of_machinePattern hpattern (by decide),
      charAtByte_of_machinePattern hpattern (by decide)]
    exact ⟨(), hpattern, (), hversion, (), hvariant, rfl⟩

/-! ## the codec -/

theorem prefixValid_eq {v : Text} : prefixValid v = isPublicPrefix v := by
  by_cases hsymbols : ∀ c ∈ v, c.isLower = true ∨ c = '_'
  · have hascii : IsAscii v := by
      intro c hc
      rcases hsymbols c hc with h | rfl
      · exact toNat_lt_of_isLower h
      · decide
    cases v with
    | nil => rfl
    | cons c v =>
        cases hlast : (c :: v).getLast? with
        | none => simp at hlast
        | some d =>
            simp [prefixValid, isPublicPrefix, isTypeIdPrefix, utf8Length_of_isAscii hascii, hlast]
  · have hnot : (v.all fun c => c.isLower || c == '_') = false := by
      rw [← Bool.not_eq_true]
      simpa using hsymbols
    simp [prefixValid, isPublicPrefix, isTypeIdPrefix, hnot]

/-- Reading hexadecimal digits never overflows on the way when the number
they denote does not. -/
theorem foldlM_hex {xs : Text} (h : ∀ c ∈ xs, c ∈ hexAlphabet) (acc : Nat)
    (hlt : acc * 16 ^ xs.length + Radix.read hexAlphabet xs < 2 ^ 128) :
    (xs.foldlM (fun (acc : Nat) c =>
      if c.toLower ∈ hexAlphabet ∧ acc * 16 + hexAlphabet.idxOf c.toLower < 2 ^ 128 then
        some (acc * 16 + hexAlphabet.idxOf c.toLower)
      else none) acc) = some (acc * 16 ^ xs.length + Radix.read hexAlphabet xs) := by
  induction xs generalizing acc with
  | nil => simp [Radix.read]
  | cons c xs ih =>
      have hc := h c (by simp)
      have hread : Radix.read hexAlphabet (c :: xs) =
          hexAlphabet.idxOf c * 16 ^ xs.length + Radix.read hexAlphabet xs := by
        rw [Radix.read_cons]
        rfl
      have hsum : acc * 16 ^ (c :: xs).length + Radix.read hexAlphabet (c :: xs) =
          (acc * 16 + hexAlphabet.idxOf c) * 16 ^ xs.length + Radix.read hexAlphabet xs := by
        rw [hread, List.length_cons]
        ring
      have hstep : acc * 16 + hexAlphabet.idxOf c < 2 ^ 128 := by
        rw [hsum] at hlt
        have hpow : 1 ≤ 16 ^ xs.length := Nat.one_le_pow _ _ (by decide)
        have hle : acc * 16 + hexAlphabet.idxOf c ≤
            (acc * 16 + hexAlphabet.idxOf c) * 16 ^ xs.length := Nat.le_mul_of_pos_right _ hpow
        omega
      rw [hsum] at hlt ⊢
      rw [List.foldlM_cons, toLower_of_mem_hexAlphabet hc, if_pos ⟨hc, hstep⟩]
      exact ih (fun d hd => h d (by simp [hd])) _ hlt

theorem u128FromHex_of_hex {hex : Text} (h : IsHex32 hex) :
    u128FromHex hex = some (BitVec.ofNat 128 (Radix.read hexAlphabet hex)) := by
  have hfold := foldlM_hex h.2 0 (by simpa using h.read_lt)
  have hdigits : stripPlus hex = hex := by
    unfold stripPlus
    split
    · exact absurd (h.2 '+' (by simp)) (by decide)
    · rfl
  have hne : hex ≠ [] := by
    rintro rfl
    exact absurd h.1 (by decide)
  simp only [u128FromHex, hdigits, if_neg hne, hfold]
  simp

/-- `machine_number` reads the 128 bits of an accepted identifier. -/
theorem machineNumber_ok_iff {v : Text} {number : BitVec 128} :
    machineNumber v = .ok number ↔ ∃ hex, IsMachineHex hex ∧ asciiLower v = formatUuid hex ∧
      number.toNat = Radix.read hexAlphabet hex := by
  simp only [machineNumber, bind_eq_ok_iff, parseMachineId_ok_iff]
  constructor
  · rintro ⟨_, ⟨⟨hex, hhex, hlower⟩, rfl⟩, h⟩
    rw [hlower, strip_formatUuid hhex.1, u128FromHex_of_hex hhex.1] at h
    refine ⟨hex, hhex, hlower, ?_⟩
    rw [← pure_eq_ok_iff.mp h, BitVec.toNat_ofNat, Nat.mod_eq_of_lt hhex.1.read_lt]
  · rintro ⟨hex, hhex, hlower, hnumber⟩
    refine ⟨_, ⟨⟨hex, hhex, hlower⟩, rfl⟩, ?_⟩
    rw [hlower, strip_formatUuid hhex.1, u128FromHex_of_hex hhex.1, ← hnumber]
    simp [pure, Except.pure]

theorem formatMachine_eq (value : BitVec 128) :
    formatMachine value = formatUuid (Radix.write hexAlphabet 32 value.toNat) := by
  have hlt : value.toNat < 16 ^ 32 := Nat.lt_of_lt_of_eq value.isLt (by norm_num)
  rw [formatMachine, padStart_toDigits (by decide) (by decide) hlt, map_digitChar_eq_write]

/-- Masking and shifting write the base-32 digits of the number. -/
theorem encodeLoop_eq (n : Nat) (value : BitVec 128) :
    encodeLoop n value = Radix.write typeIdAlphabet n value.toNat := by
  induction n generalizing value with
  | zero => rfl
  | succ n ih =>
      have hdiv : (value >>> 5).toNat = value.toNat / 32 := by
        rw [BitVec.toNat_ushiftRight, Nat.shiftRight_eq_div_pow]
      have hmod : (value &&& 31).toNat = value.toNat % 32 := by
        rw [BitVec.toNat_and]
        exact Nat.and_two_pow_sub_one_eq_mod value.toNat 5
      rw [encodeLoop, ih, hdiv, hmod, Radix.write_succ]
      rfl

/-- One step of the decoder: shift, and set the five low bits. -/
theorem shiftLeft_or_toNat (result : BitVec 128) {d : Nat} (hd : d < 32) :
    (result <<< 5 ||| BitVec.ofNat 128 d).toNat = (result.toNat * 32 + d) % 2 ^ 128 := by
  have hmod : result.toNat <<< 5 % 2 ^ 128 = (result.toNat % 2 ^ 123) <<< 5 := by
    rw [Nat.shiftLeft_eq, Nat.shiftLeft_eq]
    omega
  rw [BitVec.toNat_or, BitVec.toNat_shiftLeft, BitVec.toNat_ofNat,
    Nat.mod_eq_of_lt (show d < 2 ^ 128 by omega), hmod,
    ← Nat.shiftLeft_add_eq_or_of_lt (show d < 2 ^ 5 by omega), Nat.shiftLeft_eq]
  omega

/-- **The decoder computes modulo `2 ^ 128`.** -/
theorem decodeLoop_ok_iff {value : Text} {result number : BitVec 128} :
    decodeLoop result value = .ok number ↔ (∀ c ∈ value, c ∈ typeIdAlphabet) ∧
      number.toNat =
        (result.toNat * 32 ^ value.length + Radix.read typeIdAlphabet value) % 2 ^ 128 := by
  induction value generalizing result with
  | nil =>
      simp only [decodeLoop, Except.ok.injEq, List.not_mem_nil, false_implies, implies_true,
        true_and, Radix.read, List.map_nil, Radix.value_nil, List.length_nil, pow_zero, mul_one,
        Nat.add_zero, Nat.mod_eq_of_lt result.isLt]
      rw [← BitVec.toNat_inj, eq_comm]
  | cons c value ih =>
      rw [decodeLoop]
      by_cases hc : c ∈ typeIdAlphabet
      · have hdigit : typeIdAlphabet.idxOf c < 32 := List.idxOf_lt_length_of_mem hc
        have hshift : checkedShl result 5 = some (result <<< 5) := rfl
        have hread : Radix.read typeIdAlphabet (c :: value) =
            typeIdAlphabet.idxOf c * 32 ^ value.length + Radix.read typeIdAlphabet value := by
          rw [Radix.read, List.map_cons, Radix.value_cons, List.length_map]
          rfl
        have hvalue : (result.toNat * 32 + typeIdAlphabet.idxOf c) % 2 ^ 128 * 32 ^ value.length +
              Radix.read typeIdAlphabet value ≡
            result.toNat * 32 ^ (c :: value).length + Radix.read typeIdAlphabet (c :: value)
              [MOD 2 ^ 128] := by
          have hsum : result.toNat * 32 ^ (c :: value).length +
                Radix.read typeIdAlphabet (c :: value) =
              (result.toNat * 32 + typeIdAlphabet.idxOf c) * 32 ^ value.length +
                Radix.read typeIdAlphabet value := by
            rw [hread, List.length_cons]
            ring
          rw [hsum]
          exact ((Nat.mod_modEq _ _).mul_right _).add_right _
        rw [if_pos hc, hshift]
        simp only [ih, shiftLeft_or_toNat result hdigit, List.forall_mem_cons, hc, true_and]
        rw [hvalue]
      · rw [if_neg hc]
        simp [hc]

/-- **No bit is lost**: a suffix that passes the guard on its first symbol is
decoded to the number it denotes. -/
theorem decodeSuffix_ok_iff {s : Text} {number : BitVec 128} :
    decodeSuffix s = .ok number ↔
      IsTypeIdSuffix s ∧ number.toNat = Radix.read typeIdAlphabet s := by
  simp only [decodeSuffix, bind_eq_ok_iff, ensure_eq_ok_iff, decodeLoop_ok_iff]
  have hzero : (0 : BitVec 128).toNat = 0 := rfl
  rw [hzero, Nat.zero_mul, Nat.zero_add]
  constructor
  · rintro ⟨_, hguard, hs, hnumber⟩
    have hsuffix := (suffix_guard_iff hs).mp hguard
    rw [Nat.mod_eq_of_lt hsuffix.read_lt] at hnumber
    exact ⟨hsuffix, hnumber⟩
  · rintro ⟨hsuffix, hnumber⟩
    rw [Nat.mod_eq_of_lt hsuffix.read_lt]
    exact ⟨(), (suffix_guard_iff hsuffix.2.1).mpr hsuffix, hsuffix.2.1, hnumber⟩

/-- Any other suffix is an `invalid_pid`. -/
theorem decodeSuffix_error {s : Text} (h : ¬ IsTypeIdSuffix s) :
    decodeSuffix s = .error (.error .invalidPid) := by
  have hloop : ∀ (value : Text) (result : BitVec 128) (e : Failure),
      decodeLoop result value = .error e → e = .error .invalidPid := by
    intro value
    induction value with
    | nil => intro _ _ h; contradiction
    | cons c value ih =>
        intro result e h
        have hshift : checkedShl result 5 = some (result <<< 5) := rfl
        rw [decodeLoop, hshift] at h
        split at h
        · exact ih _ _ h
        · exact (Except.error.inj h).symm
  cases hdecode : decodeSuffix s with
  | ok number => exact absurd (decodeSuffix_ok_iff.mp hdecode).1 h
  | error e =>
      rw [decodeSuffix] at hdecode
      by_cases hguard : utf8Length s = 26 ∧ ∀ c ∈ s.head?, c ≤ '7'
      · rw [ensure_of hguard, ok_bind] at hdecode
        rw [hloop s 0 e hdecode]
      · rw [ensure_of_not hguard, error_bind] at hdecode
        exact hdecode.symm

/-- **`public_id_from_machine_id` writes public identifiers.** -/
theorem publicIdFromMachineId_ok_iff {machineId namespaceName p : Text} :
    publicIdFromMachineId machineId namespaceName = .ok p ↔
      isPublicPrefix namespaceName = true ∧ ∃ hex, IsMachineHex hex ∧
        asciiLower machineId = formatUuid hex ∧ p = publicIdText namespaceName hex := by
  simp only [publicIdFromMachineId, bind_eq_ok_iff, ensure_eq_ok_iff, machineNumber_ok_iff,
    pure_eq_ok_iff, prefixValid_eq, encodeSuffix, encodeLoop_eq]
  constructor
  · rintro ⟨_, hns, number, ⟨hex, hhex, hlower, hnumber⟩, rfl⟩
    exact ⟨hns, hex, hhex, hlower, by rw [hnumber]; rfl⟩
  · rintro ⟨hns, hex, hhex, hlower, rfl⟩
    have hnumber : (BitVec.ofNat 128 (Radix.read hexAlphabet hex)).toNat =
        Radix.read hexAlphabet hex := by
      rw [BitVec.toNat_ofNat, Nat.mod_eq_of_lt hhex.1.read_lt]
    exact ⟨(), hns, _, ⟨hex, hhex, hlower, hnumber⟩, by rw [hnumber]; rfl⟩

/-- **`parse_public_id` reads public identifiers.** -/
theorem parsePublicId_ok_iff {v : Text} {result : ParsedPublicId} :
    parsePublicId v = .ok result ↔
      ∃ ns hex, isPublicPrefix ns = true ∧ IsMachineHex hex ∧ v = publicIdText ns hex ∧
        result = ⟨v, ns, formatUuid hex⟩ := by
  have hok : ∀ w, (parseMachineId w).isOk = true ↔ ∃ x, parseMachineId w = .ok x := by
    intro w
    cases parseMachineId w <;> simp [Except.isOk, Except.toBool]
  simp only [parsePublicId, bind_eq_ok_iff, ensure_eq_ok_iff]
  constructor
  · rintro ⟨_, hlower, h⟩
    split at h
    · contradiction
    · next ns s hsplit =>
        simp only [bind_eq_ok_iff, ensure_eq_ok_iff, pure_eq_ok_iff, decodeSuffix_ok_iff,
          prefixValid_eq, hok, parseMachineId_ok_iff] at h
        obtain ⟨_, hns, number, ⟨hsuffix, hnumber⟩, _, ⟨_, hmachine, rfl⟩, rfl⟩ := h
        have hformat : formatMachine number = formatUuid (hexOfSuffix s) := by
          rw [formatMachine_eq, hnumber]
          rfl
        obtain ⟨hhex, hv⟩ := exists_publicIdText_iff.mp ⟨s, hsplit, hsuffix, rfl⟩
        rw [hformat, asciiLower_formatUuid hhex] at hmachine
        exact ⟨ns, hexOfSuffix s, hns, isMachineHex_of_formatUuid hhex hmachine, hv, by rw [hformat]⟩
  · rintro ⟨ns, hex, hns, hhex, rfl, rfl⟩
    obtain ⟨s, hsplit, hsuffix, hhexs⟩ := exists_publicIdText_iff.mpr
      ⟨hhex.1, (rfl : publicIdText ns hex = publicIdText ns hex)⟩
    have hnumber : (BitVec.ofNat 128 (Radix.read typeIdAlphabet s)).toNat =
        Radix.read typeIdAlphabet s := by
      rw [BitVec.toNat_ofNat, Nat.mod_eq_of_lt hsuffix.read_lt]
    have hformat : formatMachine (BitVec.ofNat 128 (Radix.read typeIdAlphabet s)) =
        formatUuid hex := by
      rw [formatMachine_eq, hnumber, ← hhexs]
      rfl
    refine ⟨(), (publicIdText_facts hns hhex.1).2.symm, ?_⟩
    rw [hsplit]
    simp only [bind_eq_ok_iff, ensure_eq_ok_iff, pure_eq_ok_iff, decodeSuffix_ok_iff,
      prefixValid_eq, hok, parseMachineId_ok_iff]
    refine ⟨(), hns, _, ⟨hsuffix, hnumber⟩, (), ⟨_, ?_, rfl⟩, by rw [hformat]⟩
    rw [hformat, asciiLower_formatUuid hhex.1]
    exact ⟨hex, hhex, rfl⟩

end Identifold.Rust
