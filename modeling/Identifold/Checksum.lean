import Mathlib.Tactic.NormNum.Prime
import Identifold.Lib.CheckDigit
import Identifold.Errors
import Identifold.Text

/-!
# Identifold.Checksum

The Crockford alphabets and the modulo-37 check symbols of human references:
the incremental loops of `packages/typescript/src/reference.ts`, and the
check symbol they compute, read off the payload's value as
`spec/checksums.md` defines it.

* `checkRemainder_of_valid`, `checkRemainder_of_not_valid` — the loop returns a
  remainder exactly on valid symbols;
* `symbol_ne_of_substitution`, `symbol_ne_of_transposition` — the errors that a
  check symbol detects, for either radix.
-/

namespace Identifold

/-! ## alphabets -/

/-- `DATA_ALPHABET`: the payload symbols of random references. -/
def dataAlphabet : Text := "0123456789ABCDEFGHJKMNPQRSTVWXYZ".toList

/-- `CHECK_ALPHABET`. -/
def checkAlphabet : Text := dataAlphabet ++ "*~$=U".toList

/-- `charAt`: the one-symbol string at an index, the empty one out of range. -/
def charAt (alphabet : Text) (index : Nat) : Text := alphabet[index]?.toList

/-- The value of an ASCII decimal digit (`Number(symbol)`). -/
def decimalValue (c : Char) : Nat := c.toNat - '0'.toNat

/-! ## the loops -/

/-- The remainder loop shared by both strategies: fail at the first symbol
outside the alphabet, otherwise fold its value into the remainder. -/
def checkRemainder {ε : Type} (radix : Nat) (valid : Char → Bool) (digit : Char → Nat)
    (invalid : ε) : Nat → Text → Except ε Nat
  | remainder, [] => .ok remainder
  | remainder, symbol :: payload =>
      if valid symbol then
        checkRemainder radix valid digit invalid ((remainder * radix + digit symbol) % 37) payload
      else .error invalid

/-- `calculateReferenceCheckSymbol`. -/
def calculateReferenceCheckSymbol (payload : Text) : Except IdentifoldError Text :=
  if payload.length = 0 then
    .error ⟨.invalidRefLength, "Human reference payloads cannot be empty"⟩
  else do
    let remainder ← checkRemainder 32 (· ∈ dataAlphabet) dataAlphabet.idxOf
      ⟨.invalidRefSymbol, "Human reference payload contains an invalid symbol"⟩ 0 payload
    return charAt checkAlphabet remainder

/-- `calculateSequentialCheckSymbol`. -/
def calculateSequentialCheckSymbol (payload : Text) : Except IdentifoldError Text :=
  if payload.length = 0 then
    .error ⟨.invalidRefLength, "Sequential reference payloads cannot be empty"⟩
  else do
    let remainder ← checkRemainder 10 Char.isDigit decimalValue
      ⟨.invalidRefSymbol, "Sequential reference payload contains a non-decimal symbol"⟩ 0 payload
    return charAt checkAlphabet remainder

/-! ## the specified check symbols -/

/-- The check symbol of a random payload: its base-32 value modulo 37. -/
def referenceCheckSymbol (payload : Text) : Text :=
  charAt checkAlphabet (Radix.value 32 (payload.map dataAlphabet.idxOf) % 37)

/-- The check symbol of a sequential payload: its decimal value modulo 37. -/
def sequentialCheckSymbol (payload : Text) : Text :=
  charAt checkAlphabet (Radix.value 10 (payload.map decimalValue) % 37)

section Loop

variable {ε : Type} (radix : Nat) (valid : Char → Bool) (digit : Char → Nat) (invalid : ε)

/-- Over valid symbols the remainder is a fold. -/
theorem checkRemainder_of_valid {payload : Text} (h : ∀ c ∈ payload, valid c = true) (r : Nat) :
    checkRemainder radix valid digit invalid r payload =
      .ok (payload.foldl (fun r c => (r * radix + digit c) % 37) r) := by
  induction payload generalizing r with
  | nil => rfl
  | cons c payload ih =>
      rw [checkRemainder, if_pos (h c (by simp)), List.foldl_cons]
      exact ih (fun d hd => h d (by simp [hd])) _

/-- Any other symbol is refused. -/
theorem checkRemainder_of_not_valid {payload : Text} (h : ¬ ∀ c ∈ payload, valid c = true)
    (r : Nat) : checkRemainder radix valid digit invalid r payload = .error invalid := by
  induction payload generalizing r with
  | nil => simp at h
  | cons c payload ih =>
      rw [checkRemainder]
      by_cases hc : valid c = true
      · rw [if_pos hc]
        refine ih (fun hall => h ?_) _
        intro d hd
        rcases List.mem_cons.mp hd with rfl | hd
        · exact hc
        · exact hall d hd
      · rw [if_neg hc]

/-- **The loop computes the payload's value modulo 37.** -/
theorem checkRemainder_eq_value {payload : Text} (h : ∀ c ∈ payload, valid c = true) :
    checkRemainder radix valid digit invalid 0 payload =
      .ok (Radix.value radix (payload.map digit) % 37) := by
  rw [checkRemainder_of_valid radix valid digit invalid h, ← Radix.foldl_mod_eq_value_mod,
    List.foldl_map]

/-- There is one error. -/
theorem checkRemainder_error {e : ε} {payload : Text} {r : Nat}
    (h : checkRemainder radix valid digit invalid r payload = .error e) : e = invalid := by
  by_cases hvalid : ∀ c ∈ payload, valid c = true
  · rw [checkRemainder_of_valid radix valid digit invalid hvalid] at h
    contradiction
  · rw [checkRemainder_of_not_valid radix valid digit invalid hvalid] at h
    exact (Except.error.inj h).symm

/-- The loop does not look at its error. -/
theorem checkRemainder_mapError {ε' : Type} (g : ε → ε') (r : Nat) (payload : Text) :
    (checkRemainder radix valid digit invalid r payload).mapError g =
      checkRemainder radix valid digit (g invalid) r payload := by
  induction payload generalizing r with
  | nil => rfl
  | cons c payload ih =>
      rw [checkRemainder, checkRemainder]
      split
      · exact ih _
      · rfl

end Loop

/-- A payload of the alphabet has its check symbol. -/
theorem calculateReferenceCheckSymbol_eq {payload : Text} (hne : payload ≠ [])
    (h : ∀ c ∈ payload, c ∈ dataAlphabet) :
    calculateReferenceCheckSymbol payload = .ok (referenceCheckSymbol payload) := by
  rw [calculateReferenceCheckSymbol, if_neg (by simpa using hne),
    checkRemainder_eq_value _ _ _ _ (by simpa using h)]
  rfl

/-- The digits of a sequence have their check symbol. -/
theorem calculateSequentialCheckSymbol_eq {payload : Text} (hne : payload ≠ [])
    (h : ∀ c ∈ payload, c.isDigit = true) :
    calculateSequentialCheckSymbol payload = .ok (sequentialCheckSymbol payload) := by
  rw [calculateSequentialCheckSymbol, if_neg (by simpa using hne),
    checkRemainder_eq_value _ _ _ _ h]
  rfl

/-! ## facts about the alphabets -/

/-- The upper-case symbols references are made of, hyphens apart. -/
def IsReferenceSymbol (c : Char) : Prop :=
  c.isUpper = true ∨ c.isDigit = true ∨ c ∈ "*~$=".toList

instance : DecidablePred IsReferenceSymbol := fun c =>
  inferInstanceAs (Decidable (c.isUpper = true ∨ c.isDigit = true ∨ c ∈ "*~$=".toList))

theorem isReferenceSymbol_of_mem_checkAlphabet : ∀ c ∈ checkAlphabet, IsReferenceSymbol c := by
  decide

theorem isReferenceSymbol_of_mem_dataAlphabet : ∀ c ∈ dataAlphabet, IsReferenceSymbol c := by
  decide

/-- No data symbol is one of the Crockford aliases. -/
theorem ne_alias_of_mem_dataAlphabet : ∀ c ∈ dataAlphabet, c ≠ 'O' ∧ c ≠ 'I' ∧ c ≠ 'L' := by
  decide

theorem IsReferenceSymbol.toNat_lt {c : Char} (h : IsReferenceSymbol c) : c.toNat < 128 := by
  rcases h with h | h | h
  · exact toNat_lt_of_isUpper h
  · exact toNat_lt_of_isDigit h
  · have hall : ∀ c ∈ "*~$=".toList, c.toNat < 128 := by decide
    exact hall c h

/-- Reference symbols are no lower-case letters and no separators. -/
theorem IsReferenceSymbol.facts {c : Char} (h : IsReferenceSymbol c) :
    c.isLower = false ∧ c ≠ '-' ∧ c ≠ '_' :=
  forall_ascii (P := fun c => IsReferenceSymbol c → c.isLower = false ∧ c ≠ '-' ∧ c ≠ '_')
    (by decide) c h.toNat_lt h

/-- A remainder modulo 37 selects exactly one check symbol. -/
theorem charAt_checkAlphabet (n : Nat) : ∃ c ∈ checkAlphabet, charAt checkAlphabet (n % 37) = [c] := by
  have hlen : n % 37 < checkAlphabet.length := Nat.mod_lt _ (by decide)
  exact ⟨checkAlphabet[n % 37], List.getElem_mem hlen, by simp [charAt, hlen]⟩

/-! ## errors that change the symbol -/

/-- Check symbols tell remainders apart. -/
theorem charAt_checkAlphabet_inj {m n : Nat} :
    charAt checkAlphabet (m % 37) = charAt checkAlphabet (n % 37) ↔ m % 37 = n % 37 := by
  have hnodup : checkAlphabet.Nodup := by decide
  have hm : m % 37 < checkAlphabet.length := Nat.mod_lt _ (by decide)
  have hn : n % 37 < checkAlphabet.length := Nat.mod_lt _ (by decide)
  simp only [charAt, List.getElem?_eq_getElem hm, List.getElem?_eq_getElem hn, Option.toList_some,
    List.cons.injEq, and_true]
  exact hnodup.getElem_inj_iff

instance prime_thirtySeven : Fact (Nat.Prime 37) := ⟨by norm_num⟩

/-- The two radices and their digits, as the check symbols use them. -/
structure CheckedRadix where
  radix : Nat
  IsDigit : Char → Prop
  digit : Char → Nat
  digit_lt : ∀ c, IsDigit c → digit c < 37
  digit_injective : ∀ c d, IsDigit c → IsDigit d → digit c = digit d → c = d
  invertible : radix % 37 ≠ 0
  neighbours : radix % 37 ≠ 1

namespace CheckedRadix

variable (k : CheckedRadix) {xs ys zs : Text} {x y : Char}

/-- The symbol of a payload: its value modulo 37. -/
def symbol (payload : Text) : Text :=
  charAt checkAlphabet (Radix.value k.radix (payload.map k.digit) % 37)

/-- Different symbols have different digits. -/
theorem digit_ne (hx : k.IsDigit x) (hy : k.IsDigit y) (hne : x ≠ y) : k.digit x ≠ k.digit y :=
  fun h => hne (k.digit_injective x y hx hy h)

/-- A single substitution is detected. -/
theorem symbol_ne_of_substitution (hx : k.IsDigit x) (hy : k.IsDigit y) (hne : x ≠ y) :
    k.symbol (xs ++ x :: ys) ≠ k.symbol (xs ++ y :: ys) := by
  rw [symbol, symbol, Ne, charAt_checkAlphabet_inj, List.map_append, List.map_append, List.map_cons,
    List.map_cons]
  exact Radix.value_mod_ne_of_substitution k.invertible _ _ (k.digit_lt x hx) (k.digit_lt y hy)
    (k.digit_ne hx hy hne)

/-- A transposition is detected where the power of the radix is not 1. -/
theorem symbol_ne_of_transposition (hx : k.IsDigit x) (hy : k.IsDigit y) (hne : x ≠ y)
    (hpower : k.radix ^ (ys.length + 1) % 37 ≠ 1) :
    k.symbol (xs ++ x :: (ys ++ y :: zs)) ≠ k.symbol (xs ++ y :: (ys ++ x :: zs)) := by
  rw [symbol, symbol, Ne, charAt_checkAlphabet_inj]
  simp only [List.map_append, List.map_cons]
  exact Radix.value_mod_ne_of_transposition k.invertible _ _ _ (k.digit_lt x hx) (k.digit_lt y hy)
    (k.digit_ne hx hy hne) (by rwa [List.length_map])

/-- A transposition of neighbours is detected. -/
theorem symbol_ne_of_neighbours (hx : k.IsDigit x) (hy : k.IsDigit y) (hne : x ≠ y) :
    k.symbol (xs ++ x :: y :: zs) ≠ k.symbol (xs ++ y :: x :: zs) := by
  have hpower : k.radix ^ (([] : Text).length + 1) % 37 ≠ 1 := by simpa using k.neighbours
  exact k.symbol_ne_of_transposition hx hy hne hpower

end CheckedRadix

/-- Base 32 over the data alphabet. -/
def referenceRadix : CheckedRadix where
  radix := 32
  IsDigit c := c ∈ dataAlphabet
  digit := dataAlphabet.idxOf
  digit_lt _ hc := Nat.lt_trans (List.idxOf_lt_length_of_mem hc) (by decide)
  digit_injective _ _ hc _ h := (List.idxOf_inj hc).mp h
  invertible := by decide
  neighbours := by decide

/-- Base 10 over the decimal digits. -/
def sequentialRadix : CheckedRadix where
  radix := 10
  IsDigit c := c.isDigit = true
  digit := decimalValue
  digit_lt c hc := forall_ascii (P := fun c => c.isDigit = true → decimalValue c < 37) (by decide) c
    (toNat_lt_of_isDigit hc) hc
  digit_injective c d hc hd h := by
    have hchar : ∀ c : Char, c.isDigit = true → Char.ofNat ('0'.toNat + decimalValue c) = c := by
      intro c hc
      exact forall_ascii (P := fun c => c.isDigit = true → Char.ofNat ('0'.toNat + decimalValue c) = c)
        (by decide) c (toNat_lt_of_isDigit hc) hc
    rw [← hchar c hc, ← hchar d hd, h]
  invertible := by decide
  neighbours := by decide

/-- The order of 32 modulo 37 is 36: no two places of a payload are that far
apart. -/
theorem pow_thirtyTwo_ne_one {n : Nat} (hn : n < 35) : 32 ^ (n + 1) % 37 ≠ 1 := by
  have hall : ∀ n < 35, 32 ^ (n + 1) % 37 ≠ 1 := by decide
  exact hall n hn

end Identifold
