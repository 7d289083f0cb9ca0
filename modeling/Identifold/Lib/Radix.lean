import Identifold.Lib.Separated
import Mathlib.Data.Nat.Digits.Lemmas

/-!
# Identifold.Lib.Radix

Fixed-width positional numerals over an arbitrary base, most significant
digit first.  `value` is the Horner reading of a digit list, `digits` writes
a number on a given number of places; the two are inverse on numerals whose
digits are below the base.  The incremental remainder of a digit list is the
remainder of its value, and grouping digits changes the base to a power of it.

`write` and `read` print and read the digits over an alphabet without
repetitions; they are inverse where the words fit their width.
-/

namespace Radix

open Separated

/-- The number a digit list denotes, most significant digit first. -/
def value (b : Nat) (ds : List Nat) : Nat := ds.foldl (fun acc d => acc * b + d) 0

/-- The `w` low-order digits of `n`, most significant digit first. -/
def digits (b : Nat) : Nat → Nat → List Nat
  | 0, _ => []
  | w + 1, n => digits b w (n / b) ++ [n % b]

/-! ## reading -/

@[simp] theorem value_nil (b : Nat) : value b [] = 0 := rfl

@[simp] theorem value_concat (b : Nat) (ds : List Nat) (d : Nat) :
    value b (ds ++ [d]) = value b ds * b + d := by
  simp [value, List.foldl_append]

/-- The Horner reading is the little-endian reading of the reversed list. -/
theorem value_eq_ofDigits (b : Nat) (ds : List Nat) : value b ds = Nat.ofDigits b ds.reverse := by
  induction ds using List.reverseRecOn with
  | nil => rfl
  | append_singleton ds d ih =>
      rw [value_concat, ih, List.reverse_append]
      simp only [List.reverse_singleton, List.singleton_append, Nat.ofDigits_cons]
      ring

/-- The value of the front is shifted by the length of the back. -/
theorem value_append (b : Nat) (xs ys : List Nat) :
    value b (xs ++ ys) = value b xs * b ^ ys.length + value b ys := by
  rw [value_eq_ofDigits, value_eq_ofDigits, value_eq_ofDigits, List.reverse_append,
    Nat.ofDigits_append, List.length_reverse]
  ring

theorem value_cons (b d : Nat) (ds : List Nat) :
    value b (d :: ds) = d * b ^ ds.length + value b ds := by
  have h := value_append b [d] ds
  simpa [value] using h

/-- A numeral of `w` digits denotes a number below `b ^ w`. -/
theorem value_lt {b : Nat} (hb : 1 < b) {ds : List Nat} (h : ∀ d ∈ ds, d < b) :
    value b ds < b ^ ds.length := by
  rw [value_eq_ofDigits, ← List.length_reverse]
  exact Nat.ofDigits_lt_base_pow_length hb fun d hd => h d (List.mem_reverse.mp hd)

/-- Numerals of one width are determined by the number they denote. -/
theorem value_injective {b : Nat} (hb : 1 < b) {xs ys : List Nat} (hlen : xs.length = ys.length)
    (hx : ∀ d ∈ xs, d < b) (hy : ∀ d ∈ ys, d < b) (h : value b xs = value b ys) : xs = ys := by
  rw [value_eq_ofDigits, value_eq_ofDigits] at h
  have hrev := Nat.ofDigits_inj_of_len_eq hb (by simpa using hlen)
    (fun d hd => hx d (List.mem_reverse.mp hd)) (fun d hd => hy d (List.mem_reverse.mp hd)) h
  simpa using congrArg List.reverse hrev

/-- **Incremental remainder**: reducing at every digit gives the remainder of
the whole value. -/
theorem foldl_mod_eq_value_mod (b m : Nat) (ds : List Nat) :
    ds.foldl (fun r d => (r * b + d) % m) 0 = value b ds % m := by
  induction ds using List.reverseRecOn with
  | nil => simp
  | append_singleton ds d ih =>
      rw [List.foldl_append, List.foldl_cons, List.foldl_nil, ih, value_concat]
      simp [Nat.add_mod, Nat.mul_mod]

/-- One digit of a numeral, cut out of its value. -/
theorem value_append_cons_div_mod {b : Nat} (hb : 1 < b) (xs : List Nat) {d : Nat} {ys : List Nat}
    (hd : d < b) (hy : ∀ e ∈ ys, e < b) :
    value b (xs ++ d :: ys) / b ^ ys.length % b = d := by
  have hlow := value_lt hb hy
  have hsplit : value b (xs ++ d :: ys) =
      value b ys + b ^ ys.length * (d + b * value b xs) := by
    rw [value_append, value_cons, List.length_cons]
    ring
  rw [hsplit, Nat.add_mul_div_left _ _ (Nat.pow_pos (by omega)), Nat.div_eq_of_lt hlow,
    Nat.zero_add, Nat.add_mul_mod_self_left, Nat.mod_eq_of_lt hd]

/-! ## writing -/

@[simp] theorem length_digits (b w n : Nat) : (digits b w n).length = w := by
  induction w generalizing n with
  | zero => rfl
  | succ w ih => simp [digits, ih]

/-- Digits are below the base. -/
theorem digits_lt {b : Nat} (hb : 0 < b) (w n : Nat) : ∀ d ∈ digits b w n, d < b := by
  induction w generalizing n with
  | zero => simp [digits]
  | succ w ih =>
      intro d hd
      rw [digits, List.mem_append, List.mem_singleton] at hd
      cases hd with
      | inl h => exact ih _ d h
      | inr h => rw [h]; exact Nat.mod_lt _ hb

/-- Reading back the written digits gives the number modulo the width. -/
theorem value_digits (b w n : Nat) : value b (digits b w n) = n % b ^ w := by
  induction w generalizing n with
  | zero => simp [digits, Nat.mod_one]
  | succ w ih =>
      rw [digits, value_concat, ih, Nat.pow_succ, Nat.mul_comm (b ^ w) b, Nat.mod_mul]
      ring

/-- A number that fits is the value of its digits. -/
theorem value_digits_of_lt {b w n : Nat} (h : n < b ^ w) : value b (digits b w n) = n := by
  rw [value_digits, Nat.mod_eq_of_lt h]

/-- Writing back a numeral's value gives the numeral. -/
theorem digits_value {b : Nat} (hb : 1 < b) {ds : List Nat} (h : ∀ d ∈ ds, d < b) :
    digits b ds.length (value b ds) = ds := by
  apply value_injective hb (length_digits _ _ _) (digits_lt (by omega) _ _) h
  exact value_digits_of_lt (value_lt hb h)

/-- Leading zeros do not count. -/
theorem value_replicate_zero (b k : Nat) : value b (List.replicate k 0) = 0 := by
  induction k with
  | zero => rfl
  | succ k ih => rw [List.replicate_succ', value_concat, ih, Nat.zero_mul]

/-- The digits without leading zeros, padded to the width. -/
theorem replicate_append_digits {b w n : Nat} (hb : 1 < b) (h : n < b ^ w) :
    List.replicate (w - (Nat.digits b n).length) 0 ++ (Nat.digits b n).reverse = digits b w n := by
  have hlen : (Nat.digits b n).length ≤ w := (Nat.digits_length_le_iff hb n).mpr h
  apply value_injective hb
  · rw [List.length_append, List.length_replicate, List.length_reverse, length_digits]
    omega
  · intro d hd
    rcases List.mem_append.mp hd with hd | hd
    · rw [(List.mem_replicate.mp hd).2]; omega
    · exact Nat.digits_lt_base hb (List.mem_reverse.mp hd)
  · exact digits_lt (by omega) w n
  · rw [value_append, value_replicate_zero, Nat.zero_mul, Nat.zero_add, value_eq_ofDigits,
      List.reverse_reverse, Nat.ofDigits_digits, value_digits_of_lt h]

/-! ## regrouping -/

/-- Writing every digit of a numeral in base `b ^ k` on `k` places of base `b`
does not change its value. -/
theorem value_flatMap_digits {b k : Nat} {ds : List Nat} (h : ∀ d ∈ ds, d < b ^ k) :
    value b (ds.flatMap (digits b k)) = value (b ^ k) ds := by
  induction ds using List.reverseRecOn with
  | nil => rfl
  | append_singleton ds d ih =>
      have hd : d < b ^ k := h d (by simp)
      have hds := ih fun e he => h e (by simp [he])
      rw [List.flatMap_append, List.flatMap_singleton, value_append, value_concat, hds,
        length_digits, value_digits_of_lt hd]

theorem length_flatMap_digits (b k : Nat) (ds : List Nat) :
    (ds.flatMap (digits b k)).length = ds.length * k := by
  induction ds with
  | nil => simp
  | cons d ds ih =>
      rw [List.flatMap_cons, List.length_append, ih, length_digits, List.length_cons]
      ring

/-- The digits of a number in base `b ^ k`, each on `k` places, are its digits
in base `b`. -/
theorem flatMap_digits_digits {b k : Nat} (hb : 1 < b) (hk : 0 < k) (w n : Nat) :
    (digits (b ^ k) w n).flatMap (digits b k) = digits b (w * k) n := by
  have hbk : 1 < b ^ k := Nat.one_lt_pow (by omega) hb
  apply value_injective hb
  · rw [length_flatMap_digits, length_digits, length_digits]
  · intro d hd
    obtain ⟨e, -, hde⟩ := List.mem_flatMap.mp hd
    exact digits_lt (by omega) _ _ d hde
  · exact digits_lt (by omega) _ _
  · rw [value_flatMap_digits (digits_lt (by omega) _ _), value_digits, value_digits, ← pow_mul,
      Nat.mul_comm k w]

/-- Reading the digits in groups of `k`, each as one digit of base `b ^ k`,
does not change the value. -/
theorem value_map_value {b k : Nat} {groups : List (List Nat)} (h : ∀ g ∈ groups, g.length = k) :
    value (b ^ k) (groups.map (value b)) = value b groups.flatten := by
  induction groups using List.reverseRecOn with
  | nil => rfl
  | append_singleton groups g ih =>
      have hg : g.length = k := h g (by simp)
      have hgroups := ih fun g' hg' => h g' (by simp [hg'])
      rw [List.map_append, List.map_singleton, value_concat, hgroups, List.flatten_append,
        List.flatten_singleton, value_append, hg]

/-- The digits of a number in groups of `k`, each read as one digit of base
`b ^ k`. -/
theorem map_value_chunks_digits {b k : Nat} (hb : 1 < b) (hk : 0 < k) (w n : Nat) :
    (chunks k (digits b (w * k) n)).map (value b) = digits (b ^ k) w n := by
  have hbk : 1 < b ^ k := Nat.one_lt_pow (by omega) hb
  obtain ⟨hcount, hlen⟩ := chunks_of_length_eq hk (length_digits b (w * k) n)
  have hlt : ∀ d ∈ (chunks k (digits b (w * k) n)).map (value b), d < b ^ k := by
    intro d hd
    obtain ⟨g, hg, rfl⟩ := List.mem_map.mp hd
    have hdigits : ∀ e ∈ g, e < b := by
      intro e he
      apply digits_lt (by omega) (w * k) n
      rw [← flatten_chunks hk (digits b (w * k) n)]
      exact List.mem_flatten.mpr ⟨g, hg, he⟩
    have hvalue := value_lt hb hdigits
    rwa [hlen g hg] at hvalue
  apply value_injective hbk
  · rw [List.length_map, hcount, length_digits]
  · exact hlt
  · exact digits_lt (by omega) w n
  · rw [value_map_value hlen, flatten_chunks hk, value_digits, value_digits, ← pow_mul,
      Nat.mul_comm k w]

/-- A number that fits the width has zeros in front of it. -/
theorem replicate_zero_append_digits {b w n : Nat} (hb : 1 < b) (h : n < b ^ w) (k : Nat) :
    List.replicate k 0 ++ digits b w n = digits b (k + w) n := by
  have hwide : n < b ^ (k + w) :=
    Nat.lt_of_lt_of_le h (Nat.pow_le_pow_right (by omega) (by omega))
  apply value_injective hb
  · simp
  · intro d hd
    rcases List.mem_append.mp hd with hd | hd
    · rw [(List.mem_replicate.mp hd).2]
      omega
    · exact digits_lt (by omega) w n d hd
  · exact digits_lt (by omega) _ n
  · rw [value_append, value_replicate_zero, Nat.zero_mul, Nat.zero_add, value_digits_of_lt h,
      value_digits_of_lt hwide]

/-- The digits by position: shift, and take the last one. -/
theorem digits_eq_map_range (b w n : Nat) :
    digits b w n = (List.range w).reverse.map fun i => n / b ^ i % b := by
  induction w generalizing n with
  | zero => rfl
  | succ w ih =>
      have hshift : ∀ i, n / b / b ^ i = n / b ^ (i + 1) := fun i => by
        rw [Nat.div_div_eq_div_mul, Nat.pow_succ, Nat.mul_comm]
      rw [digits, ih, List.range_succ_eq_map, List.reverse_cons, List.map_append, ← List.map_reverse,
        List.map_map]
      simp [hshift]

/-! ## order -/

/-- Numerals of one width are ordered as the numbers they denote. -/
theorem value_lt_value_iff {b : Nat} (hb : 1 < b) {xs ys : List Nat} (hlen : xs.length = ys.length)
    (hx : ∀ d ∈ xs, d < b) (hy : ∀ d ∈ ys, d < b) : value b xs < value b ys ↔ xs < ys := by
  induction xs generalizing ys with
  | nil =>
      obtain rfl := List.length_eq_zero_iff.mp hlen.symm
      simp
  | cons x xs ih =>
      cases ys with
      | nil => contradiction
      | cons y ys =>
          have hrest : xs.length = ys.length := by simpa using hlen
          have hxs := value_lt hb fun d hd => hx d (List.mem_cons_of_mem x hd)
          have hys := value_lt hb fun d hd => hy d (List.mem_cons_of_mem y hd)
          have hih := ih hrest (fun d hd => hx d (List.mem_cons_of_mem x hd))
            fun d hd => hy d (List.mem_cons_of_mem y hd)
          rw [value_cons, value_cons, hrest, List.cons_lt_cons_iff, ← hih]
          rw [hrest] at hxs
          rcases Nat.lt_trichotomy x y with hlt | rfl | hgt
          · -- the first digits decide
            have hnext : (x + 1) * b ^ ys.length ≤ y * b ^ ys.length := Nat.mul_le_mul_right _ hlt
            rw [Nat.add_mul] at hnext
            exact iff_of_true (by omega) (.inl hlt)
          · simp
          · have hnext : (y + 1) * b ^ ys.length ≤ x * b ^ ys.length := Nat.mul_le_mul_right _ hgt
            rw [Nat.add_mul] at hnext
            exact iff_of_false (by omega) (by omega)

/-! ## alphabets -/

section Alphabet

variable {α : Type*} [DecidableEq α] {alphabet : List α} {xs : List α}

/-- The number a word over the alphabet denotes. -/
def read (alphabet xs : List α) : Nat := value alphabet.length (xs.map alphabet.idxOf)

/-- The last `w` places of `n`, written over the alphabet. -/
def write (alphabet : List α) (w n : Nat) : List α :=
  (digits alphabet.length w n).filterMap (alphabet[·]?)

omit [DecidableEq α] in
theorem write_succ (w n : Nat) :
    write alphabet (w + 1) n =
      write alphabet w (n / alphabet.length) ++ alphabet[n % alphabet.length]?.toList := by
  rw [write, digits, List.filterMap_append, ← write]
  cases h : alphabet[n % alphabet.length]? <;> simp [h]

theorem idxOf_lt_of_forall_mem (h : ∀ x ∈ xs, x ∈ alphabet) :
    ∀ d ∈ xs.map alphabet.idxOf, d < alphabet.length := by
  intro d hd
  obtain ⟨x, hx, rfl⟩ := List.mem_map.mp hd
  exact List.idxOf_lt_length_of_mem (h x hx)

omit [DecidableEq α] in
theorem mem_of_mem_write {w n : Nat} {x : α} (h : x ∈ write alphabet w n) : x ∈ alphabet := by
  obtain ⟨d, -, hd⟩ := List.mem_filterMap.mp h
  exact List.mem_of_getElem? hd

/-- The word of a digit list prints one symbol a digit. -/
theorem map_idxOf_filterMap (hnodup : alphabet.Nodup) {ds : List Nat}
    (h : ∀ d ∈ ds, d < alphabet.length) :
    (ds.filterMap (alphabet[·]?)).map alphabet.idxOf = ds := by
  induction ds with
  | nil => rfl
  | cons d ds ih =>
      have hd : d < alphabet.length := h d (by simp)
      have hds := ih fun e he => h e (by simp [he])
      rw [List.filterMap_cons_some (List.getElem?_eq_getElem hd), List.map_cons, hds,
        hnodup.idxOf_getElem]

/-- Symbols are found again at their indices. -/
theorem filterMap_map_idxOf (h : ∀ x ∈ xs, x ∈ alphabet) :
    (xs.map alphabet.idxOf).filterMap (alphabet[·]?) = xs := by
  induction xs with
  | nil => rfl
  | cons x xs ih =>
      have hx := List.getElem?_idxOf (h x (by simp))
      rw [List.map_cons, List.filterMap_cons_some hx, ih fun y hy => h y (by simp [hy])]

omit [DecidableEq α] in
/-- A digit list is printed symbol by symbol. -/
theorem filterMap_getElem?_eq_map {g : Nat → α} {ds : List Nat}
    (h : ∀ d ∈ ds, alphabet[d]? = some (g d)) : ds.filterMap (alphabet[·]?) = ds.map g := by
  rw [List.filterMap_congr h, List.filterMap_eq_map']

/-- A number is written with as many symbols as asked for. -/
theorem length_write (hnodup : alphabet.Nodup) (hpos : 0 < alphabet.length) (w n : Nat) :
    (write alphabet w n).length = w := by
  have hlength : ((write alphabet w n).map alphabet.idxOf).length = w := by
    rw [write, map_idxOf_filterMap hnodup (digits_lt hpos w n), length_digits]
  rwa [List.length_map] at hlength

/-- A written number reads back, up to the width. -/
theorem read_write (hnodup : alphabet.Nodup) (hpos : 0 < alphabet.length) (w n : Nat) :
    read alphabet (write alphabet w n) = n % alphabet.length ^ w := by
  rw [read, write, map_idxOf_filterMap hnodup (digits_lt hpos w n), value_digits]

/-- A word is written back from the number it denotes. -/
theorem write_read (hone : 1 < alphabet.length) (h : ∀ x ∈ xs, x ∈ alphabet) :
    write alphabet xs.length (read alphabet xs) = xs := by
  have hdigits := digits_value hone (idxOf_lt_of_forall_mem h)
  rw [List.length_map] at hdigits
  rw [write, read, hdigits, filterMap_map_idxOf h]

theorem read_cons (x : α) (xs : List α) :
    read alphabet (x :: xs) = alphabet.idxOf x * alphabet.length ^ xs.length + read alphabet xs := by
  rw [read, List.map_cons, value_cons, List.length_map, read]

/-- A text of `w` symbols is a number of `w` digits. -/
theorem read_lt (hone : 1 < alphabet.length) (h : ∀ x ∈ xs, x ∈ alphabet) :
    read alphabet xs < alphabet.length ^ xs.length := by
  have hlt := value_lt hone (idxOf_lt_of_forall_mem h)
  rwa [List.length_map] at hlt

/-- The digit at a position, cut out of the number. -/
theorem read_div_mod (hone : 1 < alphabet.length) (h : ∀ x ∈ xs, x ∈ alphabet) {i : Nat} {x : α}
    (hx : xs[i]? = some x) :
    read alphabet xs / alphabet.length ^ (xs.length - (i + 1)) % alphabet.length =
      alphabet.idxOf x := by
  obtain ⟨hlt, rfl⟩ := List.getElem?_eq_some_iff.mp hx
  have hcut : xs = xs.take i ++ xs[i] :: xs.drop (i + 1) := by
    rw [← List.drop_eq_getElem_cons hlt, List.take_append_drop]
  have hdigits := idxOf_lt_of_forall_mem h
  have hdrop : ∀ d ∈ (xs.drop (i + 1)).map alphabet.idxOf, d < alphabet.length := by
    intro d hd
    obtain ⟨y, hy, rfl⟩ := List.mem_map.mp hd
    exact hdigits _ (List.mem_map_of_mem (List.mem_of_mem_drop hy))
  have hdigit := value_append_cons_div_mod hone ((xs.take i).map alphabet.idxOf)
    (hdigits _ (List.mem_map_of_mem (List.getElem_mem hlt))) hdrop
  have hmap := congrArg (List.map alphabet.idxOf) hcut
  rw [List.map_append, List.map_cons] at hmap
  rwa [← hmap, List.length_map, List.length_drop] at hdigit

/-- A bound on the first digit is a bound on the number. -/
theorem read_cons_lt_iff (hone : 1 < alphabet.length) (h : ∀ x ∈ xs, x ∈ alphabet) {x : α}
    {m : Nat} : read alphabet (x :: xs) < m * alphabet.length ^ xs.length ↔ alphabet.idxOf x < m := by
  have hrest := read_lt hone h
  rw [read_cons]
  constructor
  · intro hlt
    by_contra hge
    have : m * alphabet.length ^ xs.length ≤ alphabet.idxOf x * alphabet.length ^ xs.length :=
      Nat.mul_le_mul_right _ (by omega)
    omega
  · intro hlt
    have hnext : (alphabet.idxOf x + 1) * alphabet.length ^ xs.length ≤
        m * alphabet.length ^ xs.length := Nat.mul_le_mul_right _ hlt
    rw [Nat.add_mul] at hnext
    omega

/-- The digits of a sorted alphabet are ordered as its symbols. -/
theorem idxOf_lt_idxOf_iff [LinearOrder α] (hsorted : alphabet.Pairwise (· < ·)) {x y : α}
    (hx : x ∈ alphabet) (hy : y ∈ alphabet) : alphabet.idxOf x < alphabet.idxOf y ↔ x < y := by
  have hmono : ∀ {x y}, x ∈ alphabet → y ∈ alphabet → alphabet.idxOf x < alphabet.idxOf y → x < y := by
    intro x y hx hy hlt
    have hpair := List.pairwise_iff_getElem.mp hsorted _ _ (List.idxOf_lt_length_of_mem hx)
      (List.idxOf_lt_length_of_mem hy) hlt
    rwa [List.getElem_idxOf, List.getElem_idxOf] at hpair
  refine ⟨hmono hx hy, fun hlt => ?_⟩
  rcases Nat.lt_trichotomy (alphabet.idxOf x) (alphabet.idxOf y) with h | h | h
  · exact h
  · exact absurd (List.idxOf_inj hx |>.mp h) hlt.ne
  · exact absurd (hmono hy hx h) hlt.asymm

/-- **Order**: words of one width over a sorted alphabet are ordered as the
numbers they denote. -/
theorem read_lt_read_iff [LinearOrder α] (hone : 1 < alphabet.length)
    (hsorted : alphabet.Pairwise (· < ·)) {ys : List α} (hlen : xs.length = ys.length)
    (hx : ∀ x ∈ xs, x ∈ alphabet) (hy : ∀ y ∈ ys, y ∈ alphabet) :
    read alphabet xs < read alphabet ys ↔ xs < ys := by
  rw [read, read, value_lt_value_iff hone (by simpa using hlen) (idxOf_lt_of_forall_mem hx)
    (idxOf_lt_of_forall_mem hy)]
  induction xs generalizing ys with
  | nil =>
      obtain rfl := List.length_eq_zero_iff.mp hlen.symm
      simp
  | cons x xs ih =>
      cases ys with
      | nil => contradiction
      | cons y ys =>
          have hxm := hx x (by simp)
          have hym := hy y (by simp)
          have hih := ih (by simpa using hlen) (fun z hz => hx z (by simp [hz]))
            fun z hz => hy z (by simp [hz])
          rw [List.map_cons, List.map_cons, List.cons_lt_cons_iff, List.cons_lt_cons_iff, hih,
            idxOf_lt_idxOf_iff hsorted hxm hym, List.idxOf_inj hxm]

end Alphabet

end Radix
