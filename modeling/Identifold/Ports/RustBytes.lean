import Identifold.Ports.RustPanics
import Identifold.Utf8

/-!
# Identifold.Ports.RustBytes

`parse_machine_id` of the Rust port on the bytes it indexes.

The port's model reads symbols at byte offsets (`charAtByte`); here the bytes
themselves are indexed, out of range being a panic, while the hexadecimal test
still runs over the symbols with their own numbers.  An ASCII byte is found at
an offset exactly when its symbol begins there (`getElem?_utf8Bytes_iff`), so
the two agree, and what they accept is stated without any parser: five groups
of hexadecimal digits (`IsMachineIdLayout`).
-/

namespace Identifold

namespace Rust

open Separated

namespace Indexed

/-- `bytes[index]`. -/
def byteAtIndex (bytes : List UInt8) (index : Nat) : Except Failure UInt8 :=
  match bytes[index]? with
  | some byte => .ok byte
  | none => .error .panicked

/-- `indices.iter().all(|index| bytes[*index] == symbol)`. -/
def allAreByte (bytes : List UInt8) (symbol : Char) : List Nat → Except Failure Bool
  | [] => .ok true
  | index :: indices => do
      let byte ← byteAtIndex bytes index
      if byte = symbol.toUInt8 then allAreByte bytes symbol indices else return false

/-- `parse_machine_id`. -/
def parseMachineId (value : Text) : Except Failure Text := do
  let value := asciiLower value
  let bytes := utf8Bytes value
  let hyphens ← if bytes.length = 36 then allAreByte bytes '-' [8, 13, 18, 23] else .ok false
  let valid := hyphens && value.zipIdx.all fun p => [8, 13, 18, 23].contains p.2 || isHexDigit p.1
  ensure (valid = true) (.error .invalidMid)
  let version ← byteAtIndex bytes 14
  ensure (version = '7'.toUInt8) (.error .invalidUuidVersion)
  let variant ← byteAtIndex bytes 19
  ensure (∃ c ∈ "89ab".toList, variant = c.toUInt8) (.error .invalidMid)
  return value

/-! ## bytes and symbols -/

/-- An ASCII byte is found at an offset exactly when its symbol begins there:
the bytes of other symbols are no ASCII bytes. -/
theorem getElem?_utf8Bytes_iff {k : Char} (hk : k.toNat < 128) (v : Text) (index : Nat) :
    (utf8Bytes v)[index]? = some k.toUInt8 ↔ charAtByte index v = some k := by
  induction v generalizing index with
  | nil => cases index <;> simp [charAtByte, splitAtByte]
  | cons c v ih =>
      have hmem := toUInt8_mem_utf8EncodeChar_iff (c := c) hk
      have hlen := String.length_utf8EncodeChar c
      cases index with
      | zero =>
          have hchar : charAtByte 0 (c :: v) = some c := by simp [charAtByte, splitAtByte]
          obtain ⟨b, bs, hcode⟩ := List.exists_cons_of_ne_nil (String.utf8EncodeChar_ne_nil (c := c))
          rw [utf8Bytes_cons, hcode, List.cons_append, List.getElem?_cons_zero, hchar,
            Option.some.injEq, Option.some.injEq, ← hmem, hcode]
          constructor
          · rintro rfl
            exact List.mem_cons_self
          · intro hk'
            rw [← hcode, hmem] at hk'
            rw [hk', utf8EncodeChar_of_ascii hk] at hcode
            exact (List.cons.inj hcode).1.symm
      | succ n =>
          by_cases hle : c.utf8Size ≤ n + 1
          · have hchar : charAtByte (n + 1) (c :: v) = charAtByte (n + 1 - c.utf8Size) v := by
              rw [charAtByte, splitAtByte, if_pos hle, charAtByte]
              cases splitAtByte (n + 1 - c.utf8Size) v <;> rfl
            rw [utf8Bytes_cons, List.getElem?_append_right (by omega), hlen, ih, hchar]
          · -- the offset lies within a symbol of several bytes
            have hchar : charAtByte (n + 1) (c :: v) = none := by
              rw [charAtByte, splitAtByte, if_neg hle]
              rfl
            rw [utf8Bytes_cons, List.getElem?_append_left (by omega), hchar]
            refine iff_of_false (fun hget => ?_) (by simp)
            have hc := hmem.mp (List.mem_of_getElem? hget)
            rw [hc, utf8Size_of_ascii hk] at hle
            omega

/-- Within the bytes an index finds one, and the ASCII symbols to compare it
with can be looked for among the symbols. -/
theorem byteAtIndex_of_lt {v : Text} {index : Nat} (h : index < (utf8Bytes v).length) :
    ∃ byte, byteAtIndex (utf8Bytes v) index = .ok byte ∧
      ∀ k : Char, k.toNat < 128 → (byte = k.toUInt8 ↔ charAtByte index v = some k) := by
  have hget := List.getElem?_eq_getElem h
  refine ⟨(utf8Bytes v)[index], by simp [byteAtIndex, hget], fun k hk => ?_⟩
  rw [← getElem?_utf8Bytes_iff hk, hget, Option.some.injEq]

/-- Within the bytes the test of some indices looks for the symbol there. -/
theorem allAreByte_of_lt {k : Char} (hk : k.toNat < 128) {v : Text} {indices : List Nat}
    (h : ∀ index ∈ indices, index < (utf8Bytes v).length) :
    allAreByte (utf8Bytes v) k indices =
      .ok (indices.all fun index => charAtByte index v = some k) := by
  induction indices with
  | nil => rfl
  | cons index indices ih =>
      obtain ⟨byte, hbyte, hsymbol⟩ := byteAtIndex_of_lt (h index (by simp))
      have hiff := hsymbol k hk
      rw [allAreByte, hbyte, ok_bind, List.all_cons, ih fun i hi => h i (by simp [hi])]
      by_cases hb : byte = k.toUInt8
      · rw [if_pos hb, decide_eq_true (hiff.mp hb), Bool.true_and]
      · rw [if_neg hb, decide_eq_false fun hc => hb (hiff.mpr hc), Bool.false_and]
        rfl

/-- **The bytes and the symbols agree**, and no index is out of range. -/
theorem parseMachineId_eq (v : Text) : Indexed.parseMachineId v = Rust.parseMachineId v := by
  have hsymbols : ((asciiLower v).zipIdx.all fun p =>
      [8, 13, 18, 23].contains p.2 || isHexDigit p.1) =
      (asciiLower v).zipIdx.all fun p => p.2 ∈ [8, 13, 18, 23] || isHexDigit p.1 := by
    simp only [List.contains_eq_mem]
  rw [Indexed.parseMachineId, Rust.parseMachineId]
  simp only [hsymbols]
  by_cases hlen : (utf8Bytes (asciiLower v)).length = 36
  · have hindices : ∀ index ∈ [8, 13, 18, 23], index < (utf8Bytes (asciiLower v)).length := by
      rw [hlen]
      decide
    have h14 : 14 < (utf8Bytes (asciiLower v)).length := by omega
    have h19 : 19 < (utf8Bytes (asciiLower v)).length := by omega
    obtain ⟨version, hversion, hversions⟩ := byteAtIndex_of_lt h14
    obtain ⟨variant, hvariant, hvariants⟩ := byteAtIndex_of_lt h19
    have hascii : ∀ c ∈ "89ab".toList, c.toNat < 128 := by decide
    have hvariantIff : (∃ c ∈ "89ab".toList, variant = c.toUInt8) ↔
        ∃ c ∈ "89ab".toList, charAtByte 19 (asciiLower v) = some c :=
      exists_congr fun c => and_congr_right fun hc => hvariants c (hascii c hc)
    have hlength : utf8Length (asciiLower v) = 36 := by rwa [← length_utf8Bytes]
    rw [if_pos hlen, allAreByte_of_lt (by decide) hindices, ok_bind, hversion, hvariant, hlength,
      decide_eq_true rfl, Bool.true_and, ok_bind, ensure_congr (hversions '7' (by decide)), ok_bind,
      ensure_congr hvariantIff]
  · have hlength : ¬ utf8Length (asciiLower v) = 36 := by rwa [← length_utf8Bytes]
    simp only [hlen, hlength, if_false, ok_bind, decide_false, Bool.false_and, Bool.false_eq_true]
    rw [ensure_of_not (by decide), error_bind, error_bind]

/-! ## the layout -/

/-- 36 ASCII bytes in five groups of hexadecimal digits, of either case, with
version 7 and the variant 8, 9, a or b. -/
structure IsMachineIdLayout (s : Text) : Prop where
  ascii : IsAscii s
  bytes : (utf8Bytes s).length = 36
  groups : ∃ groups : List Text, groups.map List.length = [8, 4, 4, 4, 12] ∧
    (∀ g ∈ groups, ∀ c ∈ g, isHexDigit c = true) ∧ s = join '-' groups
  version : s[14]? = some '7'
  variant : ∃ c ∈ "89abAB".toList, s[19]? = some c

/-- Lower case does not move the hyphens. -/
theorem map_length_splitOn_asciiLower (s : Text) :
    ((asciiLower s).splitOn '-').map List.length = (s.splitOn '-').map List.length := by
  apply map_length_splitOn_congr
  rw [asciiLower, List.map_map]
  refine List.map_congr_left fun c _ => ?_
  have hc := toLower_eq_iff (c := c) (d := '-') (by decide)
  rw [Function.comp_apply, Bool.eq_iff_iff, beq_iff_eq, beq_iff_eq, hc]

/-- The symbols of the variant, in either case. -/
theorem toLower_mem_variants_iff {c : Char} (hc : c.toNat < 128) :
    c.toLower ∈ "89ab".toList ↔ c ∈ "89abAB".toList :=
  forall_ascii (P := fun c => c.toLower ∈ "89ab".toList ↔ c ∈ "89abAB".toList) (by decide) c hc

theorem IsMachineIdLayout.isMachineId {s : Text} (h : IsMachineIdLayout s) :
    IsMachineId (asciiLower s) := by
  obtain ⟨hascii, -, ⟨groups, hgroups, hdigits, rfl⟩, hversion, c, hc, hvariant⟩ := h
  have hnot : ∀ g ∈ groups, '-' ∉ g := fun g hg hmem =>
    absurd (hdigits g hg '-' hmem) (by decide)
  have hne : groups ≠ [] := fun hnil => absurd (hnil ▸ hgroups) (List.cons_ne_nil _ _).symm
  have hlengths := map_length_splitOn_asciiLower (join '-' groups)
  rw [splitOn_join hnot hne, hgroups] at hlengths
  rw [isMachineId_iff]
  refine ⟨?_, ?_, c.toLower, ?_, ?_⟩
  · simp only [machinePattern, Bool.and_eq_true, decide_eq_true_eq, List.all_eq_true,
      Bool.or_eq_true]
    refine ⟨hlengths, fun d hd => ?_⟩
    obtain ⟨e, he, rfl⟩ := List.mem_map.mp hd
    rcases mem_join he with rfl | ⟨g, hg, heg⟩
    · exact .inr rfl
    · exact .inl (toLower_mem_hexAlphabet (hdigits g hg e heg))
  · rw [asciiLower, List.getElem?_map, hversion]
    rfl
  · exact (toLower_mem_variants_iff (hascii c (List.mem_of_getElem? hvariant))).mpr hc
  · rw [asciiLower, List.getElem?_map, hvariant]
    rfl

theorem isMachineIdLayout_of_isMachineId {s : Text} (h : IsMachineId (asciiLower s)) :
    IsMachineIdLayout s := by
  obtain ⟨hpattern, hversion, c, hc, hvariant⟩ := isMachineId_iff.mp h
  obtain ⟨hex, hhex, hlower⟩ := machinePattern_iff.mp hpattern
  have hascii := isAscii_of_asciiLower_eq_formatUuid hhex hlower
  have hlength : s.length = 36 := by
    have h36 := length_formatUuid hhex.1
    rwa [← hlower, asciiLower, List.length_map] at h36
  simp only [machinePattern, Bool.and_eq_true, decide_eq_true_eq, List.all_eq_true,
    Bool.or_eq_true] at hpattern
  rw [asciiLower, List.getElem?_map, Option.map_eq_some_iff] at hversion hvariant
  obtain ⟨d, hd, hdlower⟩ := hversion
  obtain ⟨e, he, rfl⟩ := hvariant
  refine ⟨hascii, by rw [length_utf8Bytes, utf8Length_of_isAscii hascii, hlength],
    ⟨s.splitOn '-', map_length_splitOn_asciiLower s ▸ hpattern.1, fun g hg k hk => ?_,
      (List.intercalate_splitOn '-').symm⟩, ?_, e, ?_, he⟩
  · have hstrip : k ∈ strip '-' s := by
      rw [← flatten_splitOn]
      exact List.mem_flatten.mpr ⟨g, hg, hk⟩
    have hmem : k ∈ s := mem_of_mem_strip hstrip
    have hhyphen : k ≠ '-' := fun h => not_mem_of_mem_splitOn hg (h ▸ hk)
    rcases hpattern.2 _ (List.mem_map_of_mem hmem) with hdigit | hsep
    · exact isHexDigit_of_toLower_mem hdigit
    · exact absurd ((toLower_eq_iff (by decide)).mp hsep) hhyphen
  · rw [hd, (toLower_eq_iff (by decide)).mp hdlower]
  · exact (toLower_mem_variants_iff (hascii e (List.mem_of_getElem? he))).mp hc

/-- The layout is that of a machine identifier in either case. -/
theorem isMachineIdLayout_iff (s : Text) : IsMachineIdLayout s ↔ IsMachineId (asciiLower s) :=
  ⟨IsMachineIdLayout.isMachineId, isMachineIdLayout_of_isMachineId⟩

end Indexed

/-- **`parse_machine_id`** takes the layout of a machine identifier and nothing
else, returns it in lower case, and indexes no byte that is not there. -/
theorem parseMachineId_layout (s : Text) :
    (∀ r, Indexed.parseMachineId s = .ok r ↔ Indexed.IsMachineIdLayout s ∧ r = asciiLower s) ∧
      Indexed.parseMachineId s ≠ .error .panicked := by
  refine ⟨fun r => ?_, ?_⟩
  · rw [Indexed.parseMachineId_eq, parseMachineId_ok_iff, Indexed.isMachineIdLayout_iff]
    constructor
    · rintro ⟨hid, rfl⟩
      exact ⟨hid, rfl⟩
    · rintro ⟨hid, rfl⟩
      exact ⟨hid, rfl⟩
  · rw [Indexed.parseMachineId_eq]
    exact Checked.parseMachineId_ne_panicked s

end Rust

end Identifold
