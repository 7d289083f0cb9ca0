import Identifold.Text

/-!
# Identifold.Utf8

The bytes of a string: what Go strings are, and what Rust measures and indexes.

The rule the rest rests on is that the two halves of the bytes do not mix:
an ASCII symbol is the one byte of its number (`utf8EncodeChar_of_ascii`), and
the bytes of every other symbol are 128 or more (`le_of_mem_utf8EncodeChar`).
So ASCII tests, and splits at an ASCII symbol, may be made on either level.
-/

namespace Identifold

open Separated

/-- The UTF-8 form of a string (`as_bytes`). -/
def utf8Bytes (v : Text) : List UInt8 := v.flatMap String.utf8EncodeChar

@[simp] theorem utf8Bytes_nil : utf8Bytes [] = [] := rfl

@[simp] theorem utf8Bytes_cons (c : Char) (v : Text) :
    utf8Bytes (c :: v) = String.utf8EncodeChar c ++ utf8Bytes v := rfl

theorem length_utf8Bytes (v : Text) : (utf8Bytes v).length = utf8Length v := by
  induction v with
  | nil => rfl
  | cons c v ih => rw [utf8Bytes_cons, List.length_append, String.length_utf8EncodeChar, ih, utf8Length_cons]

theorem utf8Bytes_eq_nil_iff (v : Text) : utf8Bytes v = [] ↔ v = [] := by
  cases v <;> simp

/-! ## one symbol -/

theorem utf8EncodeChar_of_ascii {c : Char} (h : c.toNat < 128) :
    String.utf8EncodeChar c = [c.toUInt8] :=
  String.utf8EncodeChar_eq_singleton (utf8Size_of_ascii h)

/-- The bytes of a symbol outside ASCII are outside ASCII. -/
theorem le_of_mem_utf8EncodeChar {c : Char} (h : 128 ≤ c.toNat) {b : UInt8}
    (hb : b ∈ String.utf8EncodeChar c) : 128 ≤ b.toNat := by
  have hval : ¬ c.val.toNat ≤ 127 := by
    change ¬ c.toNat ≤ 127
    omega
  simp only [String.utf8EncodeChar, if_neg hval] at hb
  split at hb
  · simp only [List.mem_cons, List.not_mem_nil, or_false] at hb
    rcases hb with rfl | rfl <;> simp only [UInt8.toNat_ofNat'] <;> omega
  · split at hb
    · simp only [List.mem_cons, List.not_mem_nil, or_false] at hb
      rcases hb with rfl | rfl | rfl <;> simp only [UInt8.toNat_ofNat'] <;> omega
    · simp only [List.mem_cons, List.not_mem_nil, or_false] at hb
      rcases hb with rfl | rfl | rfl | rfl <;> simp only [UInt8.toNat_ofNat'] <;> omega

theorem toNat_toUInt8 {c : Char} (h : c.toNat < 128) : c.toUInt8.toNat = c.toNat := by
  rw [← Char.toUInt8_val, UInt32.toNat_toUInt8]
  change c.toNat % 256 = c.toNat
  omega

/-- A symbol is ASCII when one of its bytes is. -/
theorem lt_of_mem_utf8EncodeChar {c : Char} {b : UInt8} (hb : b ∈ String.utf8EncodeChar c)
    (hlt : b.toNat < 128) : c.toNat < 128 := by
  by_contra hc
  have hle := le_of_mem_utf8EncodeChar (by omega) hb
  omega

/-- The byte of an ASCII symbol stands for no other symbol. -/
theorem toUInt8_mem_utf8EncodeChar_iff {c k : Char} (hk : k.toNat < 128) :
    k.toUInt8 ∈ String.utf8EncodeChar c ↔ c = k := by
  constructor
  · intro h
    have hc := lt_of_mem_utf8EncodeChar h (by rw [toNat_toUInt8 hk]; exact hk)
    rw [utf8EncodeChar_of_ascii hc, List.mem_singleton] at h
    have hnat := congrArg UInt8.toNat h
    rw [toNat_toUInt8 hk, toNat_toUInt8 hc] at hnat
    exact (Char.toNat_inj.mp hnat).symm
  · rintro rfl
    rw [utf8EncodeChar_of_ascii hk, List.mem_singleton]

/-! ## strings -/

/-- A test of the bytes that none outside ASCII passes is a test of the
symbols. -/
theorem all_utf8Bytes {bytes : UInt8 → Bool} {symbols : Char → Bool}
    (hascii : ∀ c : Char, c.toNat < 128 → bytes c.toUInt8 = symbols c)
    (hbytes : ∀ b, bytes b = true → b.toNat < 128)
    (hsymbols : ∀ c, symbols c = true → c.toNat < 128) (v : Text) :
    (utf8Bytes v).all bytes = v.all symbols := by
  induction v with
  | nil => rfl
  | cons c v ih =>
      rw [utf8Bytes_cons, List.all_append, ih, List.all_cons]
      congr 1
      by_cases hc : c.toNat < 128
      · rw [utf8EncodeChar_of_ascii hc, List.all_cons, List.all_nil, Bool.and_true, hascii c hc]
      · obtain ⟨b, bs, hcode⟩ := List.exists_cons_of_ne_nil (String.utf8EncodeChar_ne_nil (c := c))
        have hb : 128 ≤ b.toNat :=
          le_of_mem_utf8EncodeChar (Nat.le_of_not_lt hc) (hcode ▸ List.mem_cons_self)
        have hfalse : bytes b = false := by
          by_contra h
          have hlt := hbytes b (by simpa using h)
          omega
        have hfalse' : symbols c = false := by
          by_contra h
          exact hc (hsymbols c (by simpa using h))
        rw [hcode, List.all_cons, hfalse, hfalse', Bool.false_and]

/-- The bytes split at an ASCII symbol where the symbols do. -/
theorem splitOn_utf8Bytes {sep : Char} (hsep : sep.toNat < 128) (v : Text) :
    (utf8Bytes v).splitOn sep.toUInt8 = (v.splitOn sep).map utf8Bytes := by
  induction v with
  | nil => rfl
  | cons c v ih =>
      rw [utf8Bytes_cons, List.splitOn_cons_eq_if_modifyHead]
      by_cases hc : c = sep
      · subst hc
        rw [utf8EncodeChar_of_ascii hsep, List.singleton_append,
          List.splitOn_cons_eq_if_modifyHead, if_pos (beq_self_eq_true _),
          if_pos (beq_self_eq_true _), ih]
        rfl
      · have hnot : sep.toUInt8 ∉ String.utf8EncodeChar c := fun hmem =>
          hc ((toUInt8_mem_utf8EncodeChar_iff hsep).mp hmem)
        rw [splitOn_append_of_not_mem hnot, ih, if_neg (by simpa using hc)]
        cases v.splitOn sep <;> rfl

end Identifold
