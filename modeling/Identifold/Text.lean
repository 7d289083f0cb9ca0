import Mathlib.Data.List.Basic
import Identifold.Lib.Radix
import Identifold.Lib.Separated

/-!
# Identifold.Text

Strings as lists of Unicode scalar values, and the string operations the
ports rely on.

Every pattern of the sources is an ASCII pattern, so the core character
classes (`Char.isUpper`, `Char.isLower`, `Char.isDigit`, which are ASCII-only)
and the ASCII case maps (`Char.toUpper`, `Char.toLower`) are used for them.
The Unicode case maps of JavaScript and Go depend on the Unicode tables; they
enter as a `CaseMapping`, of which only three documented facts are used.
-/

namespace Identifold

open Separated

/-- A string, as the list of its Unicode scalar values. -/
abbrev Text := List Char

/-- What is said of the symbols of a string is decided along the string. -/
instance (priority := high) decidableForallMem (v : Text) (P : Char → Prop) [DecidablePred P] :
    Decidable (∀ c ∈ v, P c) :=
  List.decidableBAll P v

instance (priority := high) decidableExistsMem (v : Text) (P : Char → Prop) [DecidablePred P] :
    Decidable (∃ c ∈ v, P c) :=
  List.decidableBEx P v

instance (priority := high) decidableForallMemOption (o : Option Char) (P : Char → Prop)
    [DecidablePred P] : Decidable (∀ c ∈ o, P c) :=
  match o with
  | none => isTrue nofun
  | some c => decidable_of_iff (P c) (by simp)

/-! ## ASCII -/

/-- ASCII upper-casing (`to_ascii_uppercase`). -/
def asciiUpper (v : Text) : Text := v.map Char.toUpper

/-- ASCII lower-casing (`to_ascii_lowercase`). -/
def asciiLower (v : Text) : Text := v.map Char.toLower

/-- Every symbol is an ASCII symbol. -/
def IsAscii (v : Text) : Prop := ∀ c ∈ v, c.toNat < 128

instance (v : Text) : Decidable (IsAscii v) := inferInstanceAs (Decidable (∀ c ∈ v, c.toNat < 128))

/-- `[0-9a-f]`, in either case. -/
def isHexDigit (c : Char) : Bool :=
  c.isDigit || ('a' ≤ c && c ≤ 'f') || ('A' ≤ c && c ≤ 'F')

/-- The letters and digits of both cases. -/
def isAlphanumeric (c : Char) : Bool := c.isUpper || c.isLower || c.isDigit

/-! ## lengths -/

/-- JavaScript's `length`: the number of UTF-16 code units. -/
def utf16Length (v : Text) : Nat := (v.map fun c => if c.toNat < 0x10000 then 1 else 2).sum

/-- The length in bytes of the UTF-8 form (Rust's and Go's `len`). -/
def utf8Length (v : Text) : Nat := (v.map Char.utf8Size).sum

/-- Split at a byte offset; `none` where the offset is out of range or falls
inside a symbol (where Rust's `split_at` and range slices panic). -/
def splitAtByte : Nat → Text → Option (Text × Text)
  | 0, v => some ([], v)
  | _ + 1, [] => none
  | n + 1, c :: v =>
      if c.utf8Size ≤ n + 1 then
        (splitAtByte (n + 1 - c.utf8Size) v).map fun p => (c :: p.1, p.2)
      else none

/-- `padStart(width, "0")`. -/
def padStart (width : Nat) (digits : Text) : Text :=
  List.replicate (width - digits.length) '0' ++ digits

/-! ## Unicode case maps -/

/-- A Unicode case map of a runtime: `toLowerCase`/`toUpperCase` of JavaScript,
`strings.ToLower`/`strings.ToUpper` of Go.  On ASCII text it is the ASCII
map, and the image of a text with a symbol outside ASCII keeps a symbol
outside ASCII, or shows an `i` (from U+0130) or a `k` (from U+212A). -/
structure CaseMapping where
  toLower : Text → Text
  toUpper : Text → Text
  toLower_ascii : ∀ v, IsAscii v → toLower v = asciiLower v
  toUpper_ascii : ∀ v, IsAscii v → toUpper v = asciiUpper v
  toLower_nonAscii : ∀ v, ¬ IsAscii v → ∃ c ∈ toLower v, 128 ≤ c.toNat ∨ c = 'i' ∨ c = 'k'

theorem isUpper_iff {c : Char} : c.isUpper = true ↔ 'A'.val ≤ c.val ∧ c.val ≤ 'Z'.val :=
  decide_eq_true_iff

theorem isLower_iff {c : Char} : c.isLower = true ↔ 'a'.val ≤ c.val ∧ c.val ≤ 'z'.val :=
  Bool.and_eq_true_iff.trans (and_congr decide_eq_true_iff decide_eq_true_iff)

/-- Capitals are ASCII. -/
theorem toNat_lt_of_isUpper {c : Char} (h : c.isUpper = true) : c.toNat < 128 := by
  have h2 : c.toNat ≤ 90 := (isUpper_iff.mp h).2
  omega

/-- Small letters are ASCII. -/
theorem toNat_lt_of_isLower {c : Char} (h : c.isLower = true) : c.toNat < 128 := by
  have h2 : c.toNat ≤ 122 := (isLower_iff.mp h).2
  omega

/-- Upper-casing moves ASCII lower-case letters only. -/
theorem toUpper_of_not_isLower {c : Char} (h : c.isLower = false) : c.toUpper = c :=
  dif_neg fun hrange => by simp [isLower_iff.mpr hrange] at h

/-- Lower-casing moves ASCII upper-case letters only. -/
theorem toLower_of_not_isUpper {c : Char} (h : c.isUpper = false) : c.toLower = c :=
  dif_neg fun hrange => by simp [isUpper_iff.mpr hrange] at h

/-- A symbol outside the ASCII range survives the lower-casing of its text. -/
theorem mem_asciiLower_of_not_isAscii {v : Text} (h : ¬ IsAscii v) :
    ∃ c ∈ asciiLower v, 128 ≤ c.toNat := by
  have hmem : ∃ c ∈ v, 128 ≤ c.toNat := by simpa [IsAscii] using h
  obtain ⟨c, hc, hge⟩ := hmem
  refine ⟨c, List.mem_map.mpr ⟨c, hc, toLower_of_not_isUpper ?_⟩, hge⟩
  by_contra hupper
  have hlt := toNat_lt_of_isUpper (Bool.not_eq_false _ ▸ hupper)
  omega

/-- The case map of a runtime that only knows ASCII. -/
def asciiCaseMapping : CaseMapping where
  toLower := asciiLower
  toUpper := asciiUpper
  toLower_ascii _ _ := rfl
  toUpper_ascii _ _ := rfl
  toLower_nonAscii _ h :=
    (mem_asciiLower_of_not_isAscii h).imp fun _ hc => ⟨hc.1, .inl hc.2⟩

/-- The first symbol of a text that fails a test. -/
theorem exists_first_of_not_forall_take {p : Char → Bool} {v : Text} {n : Nat}
    (h : ¬ ∀ c ∈ v.take n, p c = true) :
    ∃ k, k < n ∧ (∀ c ∈ v.take k, p c = true) ∧ ∃ c, v[k]? = some c ∧ p c = false := by
  induction v generalizing n with
  | nil => simp at h
  | cons c v ih =>
      cases n with
      | zero => simp at h
      | succ n =>
          cases hc : p c with
          | false => exact ⟨0, by omega, by simp, c, rfl, hc⟩
          | true =>
              have hrest : ¬ ∀ d ∈ v.take n, p d = true := by
                intro hall
                apply h
                simpa [hc] using hall
              obtain ⟨k, hlt, hbefore, hfirst⟩ := ih hrest
              exact ⟨k + 1, by omega, by simpa [hc] using hbefore, by simpa using hfirst⟩

/-! ## ASCII classes and case -/

/-- A decidable property of the 128 ASCII symbols, checked on their codes. -/
theorem forall_ascii {P : Char → Prop} (h : ∀ n < 128, P (Char.ofNat n)) (c : Char)
    (hc : c.toNat < 128) : P c := by
  have hn := h c.toNat hc
  rwa [Char.ofNat_toNat] at hn

/-- An ASCII text has one code unit for each symbol. -/
theorem utf16Length_of_isAscii {v : Text} (h : IsAscii v) : utf16Length v = v.length := by
  induction v with
  | nil => rfl
  | cons c v ih =>
      have hc : c.toNat < 0x10000 := by have := h c (by simp); omega
      have hrest := ih fun d hd => h d (by simp [hd])
      rw [utf16Length] at hrest ⊢
      simp [hc, hrest]
      omega

theorem utf8Size_of_ascii {c : Char} (h : c.toNat < 128) : c.utf8Size = 1 := by
  rw [Char.utf8Size_eq_one_iff]
  have hval : c.val.toNat ≤ 127 := by
    change c.toNat ≤ 127
    omega
  exact hval

/-- An ASCII text has one byte for each symbol. -/
theorem utf8Length_of_isAscii {v : Text} (h : IsAscii v) : utf8Length v = v.length := by
  induction v with
  | nil => rfl
  | cons c v ih =>
      have hrest := ih fun d hd => h d (by simp [hd])
      rw [utf8Length] at hrest ⊢
      simp [utf8Size_of_ascii (h c (by simp)), hrest]
      omega

theorem utf8Length_nil : utf8Length [] = 0 := rfl

theorem utf8Length_cons (c : Char) (v : Text) : utf8Length (c :: v) = c.utf8Size + utf8Length v := by
  simp [utf8Length]

@[simp] theorem utf8Length_append (v w : Text) : utf8Length (v ++ w) = utf8Length v + utf8Length w := by
  simp [utf8Length]

/-- A text splits at the length of a part it begins with. -/
theorem splitAtByte_utf8Length (xs ys : Text) :
    splitAtByte (utf8Length xs) (xs ++ ys) = some (xs, ys) := by
  induction xs with
  | nil => simp [utf8Length_nil, splitAtByte]
  | cons c xs ih =>
      obtain ⟨size, hsize⟩ := Nat.exists_eq_succ_of_ne_zero (Char.utf8Size_pos c).ne'
      have hle : c.utf8Size ≤ size + utf8Length xs + 1 := by omega
      have hrest : size + utf8Length xs + 1 - c.utf8Size = utf8Length xs := by omega
      rw [utf8Length_cons, hsize, Nat.succ_add, List.cons_append, splitAtByte, if_pos hle, hrest, ih]
      rfl

/-- The parts of a split. -/
theorem of_splitAtByte {n : Nat} {v xs ys : Text} (h : splitAtByte n v = some (xs, ys)) :
    v = xs ++ ys ∧ utf8Length xs = n := by
  induction v generalizing n xs with
  | nil =>
      cases n with
      | zero =>
          cases h
          exact ⟨rfl, rfl⟩
      | succ n => contradiction
  | cons c v ih =>
      cases n with
      | zero =>
          cases h
          exact ⟨rfl, rfl⟩
      | succ n =>
          rw [splitAtByte] at h
          split at h
          · obtain ⟨⟨as, bs⟩, hsplit, heq⟩ := Option.map_eq_some_iff.mp h
            cases heq
            obtain ⟨hv, hlen⟩ := ih hsplit
            refine ⟨by rw [hv, List.cons_append], ?_⟩
            rw [utf8Length_cons, hlen]
            omega
          · contradiction

/-- A split at a byte offset. -/
theorem splitAtByte_eq_some_iff {n : Nat} {v xs ys : Text} :
    splitAtByte n v = some (xs, ys) ↔ v = xs ++ ys ∧ utf8Length xs = n := by
  constructor
  · exact of_splitAtByte
  · rintro ⟨hv, hlen⟩
    rw [hv, ← hlen]
    exact splitAtByte_utf8Length xs ys

/-- After ASCII symbols, byte offsets are symbol positions. -/
theorem splitAtByte_append {xs : Text} (h : IsAscii xs) (ys : Text) :
    splitAtByte xs.length (xs ++ ys) = some (xs, ys) := by
  rw [← utf8Length_of_isAscii h]
  exact splitAtByte_utf8Length xs ys

/-- Digits are ASCII. -/
theorem toNat_lt_of_isDigit {c : Char} (h : c.isDigit = true) : c.toNat < 128 := by
  simp only [Char.isDigit, Bool.and_eq_true, decide_eq_true_eq, ge_iff_le] at h
  have h2 : c.toNat ≤ 57 := h.2
  omega

theorem toNat_lt_of_isHexDigit {c : Char} (h : isHexDigit c = true) : c.toNat < 128 := by
  simp only [isHexDigit, Bool.or_eq_true, Bool.and_eq_true, decide_eq_true_eq] at h
  rcases h with (h | h) | h
  · exact toNat_lt_of_isDigit h
  · have hf : c.toNat ≤ 102 := h.2
    omega
  · have hf : c.toNat ≤ 70 := h.2
    omega

/-- Upper-casing neither enters nor leaves the ASCII range. -/
theorem toNat_toUpper_lt_iff (c : Char) : c.toUpper.toNat < 128 ↔ c.toNat < 128 := by
  cases hl : c.isLower with
  | false => rw [toUpper_of_not_isLower hl]
  | true =>
      have hc := toNat_lt_of_isLower hl
      have hup : c.toUpper.toNat < 128 :=
        forall_ascii (P := fun c => c.toUpper.toNat < 128) (by decide) c hc
      exact ⟨fun _ => hc, fun _ => hup⟩

/-- An upper-cased symbol that is not a letter was that symbol. -/
theorem toUpper_eq_iff {c d : Char} (hd : d.isAlpha = false) : c.toUpper = d ↔ c = d := by
  cases hl : c.isLower with
  | false => rw [toUpper_of_not_isLower hl]
  | true =>
      have hc := toNat_lt_of_isLower hl
      have halpha : c.isLower = true → c.toUpper.isAlpha = true ∧ c.isAlpha = true :=
        forall_ascii (P := fun c => c.isLower = true → c.toUpper.isAlpha = true ∧ c.isAlpha = true)
          (by decide) c hc
      obtain ⟨hu, hself⟩ := halpha hl
      constructor
      · intro h; rw [h, hd] at hu; contradiction
      · intro h; rw [h, hd] at hself; contradiction

@[simp] theorem asciiUpper_append (v w : Text) :
    asciiUpper (v ++ w) = asciiUpper v ++ asciiUpper w := by
  simp [asciiUpper]

@[simp] theorem length_asciiUpper (v : Text) : (asciiUpper v).length = v.length := by
  simp [asciiUpper]

/-- ASCII case mapping maps a text to ASCII only if it is. -/
theorem isAscii_asciiUpper_iff (v : Text) : IsAscii (asciiUpper v) ↔ IsAscii v := by
  simp [IsAscii, asciiUpper, toNat_toUpper_lt_iff]

/-- A text without lower-case letters is its own upper-case form. -/
theorem asciiUpper_eq_self {v : Text} (h : ∀ c ∈ v, c.isLower = false) : asciiUpper v = v := by
  have hmap : v.map Char.toUpper = v.map id :=
    List.map_congr_left fun c hc => toUpper_of_not_isLower (h c hc)
  rw [asciiUpper, hmap, List.map_id]

/-- Capitals stay. -/
theorem asciiUpper_asciiUpper (v : Text) : asciiUpper (asciiUpper v) = asciiUpper v := by
  apply asciiUpper_eq_self
  intro c hc
  obtain ⟨d, -, rfl⟩ := List.mem_map.mp hc
  cases hl : d.isLower with
  | false => rw [toUpper_of_not_isLower hl, hl]
  | true =>
      exact forall_ascii (P := fun c => c.isLower = true → c.toUpper.isLower = false) (by decide) d
        (toNat_lt_of_isLower hl) hl

/-- The beginning of an upper-cased text is upper-cased. -/
theorem asciiUpper_eq_self_of_isPrefix {v w : Text} (h : asciiUpper v = v) (hw : w <+: v) :
    asciiUpper w = w := by
  obtain ⟨t, rfl⟩ := hw
  rw [asciiUpper_append] at h
  exact (List.append_inj h (length_asciiUpper w)).1

/-- Upper-casing leaves the hyphens of a text where they are. -/
theorem strip_asciiUpper (v : Text) : strip '-' (asciiUpper v) = asciiUpper (strip '-' v) :=
  strip_map (fun _ => toUpper_eq_iff (by decide)) v

/-! ## lower case -/

@[simp] theorem length_asciiLower (v : Text) : (asciiLower v).length = v.length := by
  simp [asciiLower]

/-- Lower-casing neither enters nor leaves the ASCII range. -/
theorem toNat_toLower_lt_iff (c : Char) : c.toLower.toNat < 128 ↔ c.toNat < 128 := by
  cases hu : c.isUpper with
  | false => rw [toLower_of_not_isUpper hu]
  | true =>
      have hc := toNat_lt_of_isUpper hu
      have hlow : c.toLower.toNat < 128 :=
        forall_ascii (P := fun c => c.toLower.toNat < 128) (by decide) c hc
      exact ⟨fun _ => hc, fun _ => hlow⟩

/-- A lower-cased symbol that is not a letter was that symbol. -/
theorem toLower_eq_iff {c d : Char} (hd : d.isAlpha = false) : c.toLower = d ↔ c = d := by
  cases hu : c.isUpper with
  | false => rw [toLower_of_not_isUpper hu]
  | true =>
      have hc := toNat_lt_of_isUpper hu
      have halpha : c.isUpper = true → c.toLower.isAlpha = true ∧ c.isAlpha = true :=
        forall_ascii (P := fun c => c.isUpper = true → c.toLower.isAlpha = true ∧ c.isAlpha = true)
          (by decide) c hc
      obtain ⟨hl, hself⟩ := halpha hu
      constructor
      · intro h; rw [h, hd] at hl; contradiction
      · intro h; rw [h, hd] at hself; contradiction

/-- Hyphens have no case. -/
theorem strip_asciiLower (v : Text) : strip '-' (asciiLower v) = asciiLower (strip '-' v) :=
  strip_map (fun _ => toLower_eq_iff (by decide)) v

theorem isAscii_asciiLower_iff (v : Text) : IsAscii (asciiLower v) ↔ IsAscii v := by
  simp [IsAscii, asciiLower, toNat_toLower_lt_iff]

/-- A text without capitals stays. -/
theorem asciiLower_eq_self {v : Text} (h : ∀ c ∈ v, c.isUpper = false) : asciiLower v = v := by
  have hmap : v.map Char.toLower = v.map id :=
    List.map_congr_left fun c hc => toLower_of_not_isUpper (h c hc)
  rw [asciiLower, hmap, List.map_id]

theorem asciiLower_asciiLower (v : Text) : asciiLower (asciiLower v) = asciiLower v := by
  apply asciiLower_eq_self
  intro c hc
  obtain ⟨d, -, rfl⟩ := List.mem_map.mp hc
  cases hu : d.isUpper with
  | false => rw [toLower_of_not_isUpper hu, hu]
  | true =>
      exact forall_ascii (P := fun c => c.isUpper = true → c.toLower.isUpper = false) (by decide) d
        (toNat_lt_of_isUpper hu) hu

/-- A text that is its own lower-case form has no upper-case letters. -/
theorem isUpper_of_asciiLower_eq_self {v : Text} (h : asciiLower v = v) :
    ∀ c ∈ v, c.isUpper = false := by
  have hfixed : ∀ c ∈ v, c.toLower = c := by
    have hmap : v.map Char.toLower = v.map id := by rw [List.map_id]; exact h
    exact List.map_inj_left.mp hmap
  intro c hc
  cases hu : c.isUpper with
  | false => rfl
  | true =>
      have hmoves : c.isUpper = true → c.toLower ≠ c :=
        forall_ascii (P := fun c => c.isUpper = true → c.toLower ≠ c) (by decide) c
          (toNat_lt_of_isUpper hu)
      exact absurd (hfixed c hc) (hmoves hu)

/-! ## fixed-width numerals -/

section Numerals

variable {width n : Nat}

/-- Padding writes a number on the width it fits. -/
theorem padStart_toDigits {b : Nat} (hb : 1 < b) (hw : 0 < width) (hn : n < b ^ width) :
    padStart width (Nat.toDigits b n) = (Radix.digits b width n).map Nat.digitChar := by
  induction width generalizing n with
  | zero => omega
  | succ w ih =>
      rw [Radix.digits, List.map_append, List.map_singleton, Nat.toDigits_eq_if hb]
      by_cases hlt : n < b
      · have hzero : ∀ w, (Radix.digits b w 0).map Nat.digitChar = List.replicate w '0' := by
          intro w
          induction w with
          | zero => rfl
          | succ w ihw =>
              rw [Radix.digits, List.map_append, Nat.zero_div, ihw, List.replicate_succ']
              simp [Nat.digitChar]
        rw [if_pos hlt, Nat.div_eq_of_lt hlt, hzero, Nat.mod_eq_of_lt hlt]
        rfl
      · have hdiv : n / b < b ^ w := by
          apply Nat.div_lt_of_lt_mul
          rwa [Nat.pow_succ, Nat.mul_comm] at hn
        have hw' : 0 < w := by
          by_contra h0
          have : w = 0 := by omega
          subst this
          simp at hn
          omega
        rw [if_neg hlt, ← ih hw' hdiv, padStart, padStart, List.length_append,
          List.length_singleton, Nat.add_sub_add_right, List.append_assoc]

/-- A text of the width is not padded. -/
theorem padStart_of_le {v : Text} (h : width ≤ v.length) : padStart width v = v := by
  rw [padStart, Nat.sub_eq_zero_of_le h, List.replicate_zero, List.nil_append]

/-- A number below `10 ^ width` fits its width, and padding reaches it. -/
theorem length_padStart (hw : 0 < width) (hn : n < 10 ^ width) :
    (padStart width (Nat.toDigits 10 n)).length = width := by
  have hlen := (Nat.length_toDigits_le_iff (by decide : 1 < 10) hw).mpr hn
  rw [padStart, List.length_append, List.length_replicate]
  omega

/-- A padded number has nothing but digits. -/
theorem isDigit_of_mem_padStart {c : Char} (hc : c ∈ padStart width (Nat.toDigits 10 n)) :
    c.isDigit = true := by
  rcases List.mem_append.mp hc with h | h
  · rw [(List.mem_replicate.mp h).2]; decide
  · exact Nat.isDigit_of_mem_toDigits (by decide) (by decide) h

/-- Reading padded digits gives the number back. -/
theorem ofDigitChars_padStart : Nat.ofDigitChars 10 (padStart width (Nat.toDigits 10 n)) 0 = n := by
  rw [padStart, Nat.ofDigitChars_append, Nat.ofDigitChars_replicate_zero, Nat.mul_zero,
    Nat.ofDigitChars_ten_toDigits]

end Numerals

end Identifold
