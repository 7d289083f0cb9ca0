import Identifold.Json
import Identifold.Lib.Rounding
import Identifold.MachineId

/-!
# Identifold.JsonText

`JSON.stringify` and `JSON.parse`: JSON values as text.

The writer knows the digits of safe integers only, and writes no other number.
The reader takes any JSON text; a number becomes the integer that the double
nearest to it is, if it is one.  A `Text` has no lone surrogates, so a text
that escapes one is not read.

`parse_stringify` is the round trip.  What follows a number must not continue
it (`StopsNumber`); in a JSON text a comma or a bracket follows.
-/

namespace Identifold.JsonText

open Separated

/-! ## writing -/

/-- The two-character escapes, by what they stand for. -/
def escapes : List (Char × Char) :=
  [(Char.ofNat 8, 'b'), (Char.ofNat 9, 't'), (Char.ofNat 10, 'n'), (Char.ofNat 12, 'f'),
    (Char.ofNat 13, 'r'), ('"', '"'), ('\\', '\\')]

/-- One character of `QuoteJSONString`. -/
def quoteChar (c : Char) : Text :=
  match escapes.lookup c with
  | some e => ['\\', e]
  | none => if c.toNat < 32 then '\\' :: 'u' :: Radix.write hexAlphabet 4 c.toNat else [c]

/-- `QuoteJSONString`. -/
def quote (v : Text) : Text := '"' :: (v.flatMap quoteChar ++ ['"'])

/-- The digits of a number, where the model knows them. -/
def numberText : JsNumber → Option Text
  | .integer n => if n.natAbs < 2 ^ 53 then some (decimalNumbers.toText (.integer n)) else none
  | .other => none

mutual

/-- `JSON.stringify`. -/
def stringify : JsonValue → Option Text
  | .null => some "null".toList
  | .boolean true => some "true".toList
  | .boolean false => some "false".toList
  | .number n => numberText n
  | .string v => some (quote v)
  | .array elements => (stringifyElements elements).map fun texts =>
      '[' :: (join ',' texts ++ [']'])
  | .object members => (stringifyMembers members).map fun texts =>
      '{' :: (join ',' texts ++ ['}'])

/-- The texts of an array's elements. -/
def stringifyElements : List JsonValue → Option (List Text)
  | [] => some []
  | element :: elements => do
      let text ← stringify element
      let texts ← stringifyElements elements
      return text :: texts

/-- The texts of an object's members. -/
def stringifyMembers : List (Text × JsonValue) → Option (List Text)
  | [] => some []
  | (name, value) :: members => do
      let text ← stringify value
      let texts ← stringifyMembers members
      return (quote name ++ ':' :: text) :: texts

end

/-! ## reading tokens -/

/-- Skip `JSONWhiteSpace`. -/
def skipWhitespace (v : Text) : Text := v.dropWhile fun c => " \t\n\r".toList.contains c

/-- A literal that `v` begins with, and the rest. -/
def readWord (word v : Text) : Option Text :=
  if word.isPrefixOf v then some (v.drop word.length) else none

/-- Four hexadecimal digits. -/
def readHex4 (v : Text) : Option (Nat × Text) :=
  if (v.take 4).length = 4 && (v.take 4).all isHexDigit then
    some (Radix.read hexAlphabet (asciiLower (v.take 4)), v.drop 4)
  else none

/-- `\uXXXX`, from the digits on: one character, or the first half of a
surrogate pair with the second. -/
def readUnicode (v : Text) : Option (Char × Text) := do
  let (unit, rest) ← readHex4 v
  if 0xD800 ≤ unit ∧ unit < 0xDC00 then
    let rest ← readWord "\\u".toList rest
    let (low, rest) ← readHex4 rest
    if 0xDC00 ≤ low ∧ low < 0xE000 then
      return (Char.ofNat (0x10000 + (unit - 0xD800) * 0x400 + (low - 0xDC00)), rest)
    else none
  else if 0xDC00 ≤ unit ∧ unit < 0xE000 then none
  else return (Char.ofNat unit, rest)

/-- What a two-character escape stands for. -/
def unescape (e : Char) : Option Char := (('/', '/') :: escapes.map Prod.swap).lookup e

/-- One character of a string. -/
def readChar : Text → Option (Char × Text)
  | [] => none
  | c :: rest =>
      if c = '\\' then
        match rest with
        | [] => none
        | e :: rest => if e = 'u' then readUnicode rest else (unescape e).map fun d => (d, rest)
      else if c.toNat < 32 then none
      else some (c, rest)

/-- The rest of a string, from behind its first quotation mark on; `fuel`
bounds its characters. -/
def readString : Nat → Text → Option (Text × Text)
  | 0, _ => none
  | fuel + 1, v =>
      if v.head? = some '"' then some ([], v.tail)
      else do
        let (c, rest) ← readChar v
        let (text, rest) ← readString fuel rest
        return (c :: text, rest)

/-- One or more decimal digits. -/
def readDigits (v : Text) : Option (Text × Text) :=
  if v.takeWhile Char.isDigit = [] then none
  else some (v.takeWhile Char.isDigit, v.dropWhile Char.isDigit)

/-- The digits of a fraction, if there is one. -/
def readFraction (v : Text) : Option (Text × Text) :=
  if v.head? = some '.' then readDigits v.tail else some ([], v)

/-- An exponent, if there is one. -/
def readExponent (v : Text) : Option (Int × Text) :=
  if v.head? = some 'e' ∨ v.head? = some 'E' then do
    let signed := v.tail
    let (digits, rest) ← readDigits
      (if signed.head? = some '+' ∨ signed.head? = some '-' then signed.tail else signed)
    let magnitude : Int := Nat.ofDigitChars 10 digits 0
    return (if signed.head? = some '-' then -magnitude else magnitude, rest)
  else some (0, v)

/-- The number nearest to `± mantissa * 10 ^ exponent`. -/
def numberValue (negative : Bool) (mantissa : Nat) (exponent : Int) : JsNumber :=
  match Rounding.binary64.integer? (mantissa * 10 ^ exponent.toNat) (10 ^ (-exponent).toNat) with
  | some n => .integer (if negative then -n else n)
  | none => .other

/-- A number. -/
def readNumber (v : Text) : Option (JsNumber × Text) := do
  let negative := v.head? = some '-'
  let (digits, rest) ← readDigits (if negative then v.tail else v)
  if digits.head? = some '0' ∧ digits.length ≠ 1 then none
  else
    let (fraction, rest) ← readFraction rest
    let (exponent, rest) ← readExponent rest
    return (numberValue negative (Nat.ofDigitChars 10 (digits ++ fraction) 0)
      (exponent - fraction.length), rest)

/-! ## reading values -/

/-- Define a member; one of the same name is overwritten. -/
def setMember (members : List (Text × JsonValue)) (member : Text × JsonValue) :
    List (Text × JsonValue) :=
  if members.any (·.1 = member.1) then
    members.map fun m => if m.1 = member.1 then member else m
  else members ++ [member]

mutual

/-- A value; `fuel` bounds the depth and the number of elements. -/
def readValue : Nat → Text → Option (JsonValue × Text)
  | 0, _ => none
  | fuel + 1, v =>
      match skipWhitespace v with
      | [] => none
      | c :: rest =>
          if c = '"' then (readString (rest.length + 1) rest).map fun (text, rest) => (.string text, rest)
          else if c = '[' then
            if (skipWhitespace rest).head? = some ']' then
              some (.array [], (skipWhitespace rest).tail)
            else (readElements fuel rest).map fun (elements, rest) => (.array elements, rest)
          else if c = '{' then
            if (skipWhitespace rest).head? = some '}' then
              some (.object [], (skipWhitespace rest).tail)
            else (readMembers fuel rest).map fun (members, rest) =>
              (.object (members.foldl setMember []), rest)
          else if c = 'n' then (readWord "ull".toList rest).map fun rest => (.null, rest)
          else if c = 't' then (readWord "rue".toList rest).map fun rest => (.boolean true, rest)
          else if c = 'f' then (readWord "alse".toList rest).map fun rest => (.boolean false, rest)
          else (readNumber (c :: rest)).map fun (n, rest) => (.number n, rest)

/-- The elements of an array up to its closing bracket, one at least. -/
def readElements : Nat → Text → Option (List JsonValue × Text)
  | 0, _ => none
  | fuel + 1, v => do
      let (element, rest) ← readValue fuel v
      let rest := skipWhitespace rest
      if rest.head? = some ']' then return ([element], rest.tail)
      else if rest.head? = some ',' then
        let (elements, rest) ← readElements fuel rest.tail
        return (element :: elements, rest)
      else none

/-- A member of an object. -/
def readMember : Nat → Text → Option ((Text × JsonValue) × Text)
  | 0, _ => none
  | fuel + 1, v => do
      let rest ← readWord ['"'] (skipWhitespace v)
      let (name, rest) ← readString (rest.length + 1) rest
      let rest ← readWord [':'] (skipWhitespace rest)
      let (value, rest) ← readValue fuel rest
      return ((name, value), rest)

/-- The members of an object up to its closing bracket, one at least. -/
def readMembers : Nat → Text → Option (List (Text × JsonValue) × Text)
  | 0, _ => none
  | fuel + 1, v => do
      let (member, rest) ← readMember fuel v
      let rest := skipWhitespace rest
      if rest.head? = some '}' then return ([member], rest.tail)
      else if rest.head? = some ',' then
        let (members, rest) ← readMembers fuel rest.tail
        return (member :: members, rest)
      else none

end

/-- `JSON.parse`. -/
def parse (v : Text) : Option JsonValue := do
  let (value, rest) ← readValue (v.length + 1) v
  if skipWhitespace rest = [] then return value else none

/-! ## strings -/

section Strings

variable {c e : Char} {v rest : Text}

/-- Each short escape is undone, and none of them is `\u`. -/
theorem escapes_facts : ∀ p ∈ escapes, unescape p.2 = some p.1 ∧ p.2 ≠ 'u' := by decide

/-- An escape that is looked up is in the table. -/
theorem mem_of_lookup (h : escapes.lookup c = some e) : (c, e) ∈ escapes := by
  obtain ⟨before, after, hescapes, -⟩ := List.lookup_eq_some_iff.mp h
  simp [hescapes]

/-- Quotation marks and backslashes are always escaped. -/
theorem ne_of_lookup (h : escapes.lookup c = none) : c ≠ '"' ∧ c ≠ '\\' := by
  refine ⟨?_, ?_⟩
  · rintro rfl
    contradiction
  · rintro rfl
    contradiction

/-- Four digits denote the number they were written for. -/
theorem readHex4_write {n : Nat} (h : n < 16 ^ 4) (rest : Text) :
    readHex4 (Radix.write hexAlphabet 4 n ++ rest) = some (n, rest) := by
  have hlen : (Radix.write hexAlphabet 4 n).length = 4 :=
    Radix.length_write (by decide) (by decide) 4 n
  have hmem : ∀ c ∈ Radix.write hexAlphabet 4 n, c ∈ hexAlphabet := fun c hc =>
    Radix.mem_of_mem_write hc
  have hlower : asciiLower (Radix.write hexAlphabet 4 n) = Radix.write hexAlphabet 4 n :=
    asciiLower_eq_self fun c hc => (hexAlphabet_facts c (hmem c hc)).2.1
  have hall : (Radix.write hexAlphabet 4 n).all isHexDigit = true :=
    List.all_eq_true.mpr fun c hc => isHexDigit_of_mem_hexAlphabet (hmem c hc)
  have hread : Radix.read hexAlphabet (Radix.write hexAlphabet 4 n) = n := by
    rw [Radix.read_write (by decide) (by decide)]
    exact Nat.mod_eq_of_lt h
  rw [readHex4, List.take_left' hlen, List.drop_left' hlen, hlen, hall, hlower, hread]
  rfl

/-- **One character** is read as it was quoted. -/
theorem readChar_quoteChar (c : Char) (rest : Text) :
    readChar (quoteChar c ++ rest) = some (c, rest) := by
  unfold quoteChar
  cases hescape : escapes.lookup c with
  | some e =>
      obtain ⟨hunescape, hne⟩ := escapes_facts _ (mem_of_lookup hescape)
      simp only at hunescape hne
      simp [readChar, hunescape, hne]
  | none =>
      obtain ⟨-, hne⟩ := ne_of_lookup hescape
      simp only
      split
      · rename_i hcontrol
        have hhex := readHex4_write (n := c.toNat) (by omega) rest
        have hhigh : ¬ (0xD800 ≤ c.toNat ∧ c.toNat < 0xDC00) := by omega
        have hlow : ¬ (0xDC00 ≤ c.toNat ∧ c.toNat < 0xE000) := by omega
        simp [readChar, readUnicode, hhex, hhigh, hlow]
      · rename_i hcontrol
        simp [readChar, hne, hcontrol]

/-- No symbol is written as the closing quotation mark. -/
theorem head?_quoteChar_append (c : Char) (rest : Text) :
    (quoteChar c ++ rest).head? ≠ some '"' := by
  unfold quoteChar
  cases hescape : escapes.lookup c with
  | some e => simp
  | none =>
      have hne := (ne_of_lookup hescape).1
      simp only
      split <;> simp [hne]

/-- Quoting does not shorten a text, which bounds the fuel. -/
theorem length_le_flatMap_quoteChar (v : Text) : v.length ≤ (v.flatMap quoteChar).length := by
  induction v with
  | nil => simp
  | cons c v ih =>
      have hpos : 0 < (quoteChar c).length := by
        unfold quoteChar
        cases escapes.lookup c with
        | some e => simp
        | none =>
            simp only
            split <;> simp
      simp only [List.flatMap_cons, List.length_append, List.length_cons]
      omega

/-- **Strings** are read as they were quoted. -/
theorem readString_quoted {fuel : Nat} (v rest : Text) (h : v.length < fuel) :
    readString fuel (v.flatMap quoteChar ++ '"' :: rest) = some (v, rest) := by
  induction v generalizing fuel with
  | nil =>
      obtain ⟨fuel, rfl⟩ : ∃ n, fuel = n + 1 := ⟨fuel - 1, by simp at h; omega⟩
      simp [readString]
  | cons c v ih =>
      obtain ⟨fuel, rfl⟩ : ∃ n, fuel = n + 1 := ⟨fuel - 1, by simp at h; omega⟩
      rw [List.flatMap_cons, List.append_assoc, readString, if_neg (head?_quoteChar_append c _),
        readChar_quoteChar]
      simp [ih (by simpa using h)]

/-- The reader gives a string as many characters as there are left. -/
theorem readString_quote (v rest : Text) :
    readString ((v.flatMap quoteChar ++ '"' :: rest).length + 1) (v.flatMap quoteChar ++ '"' :: rest) =
      some (v, rest) := by
  refine readString_quoted v rest ?_
  have := length_le_flatMap_quoteChar v
  simp only [List.length_append, List.length_cons]
  omega

end Strings

/-! ## numbers -/

/-- What follows a number does not continue it. -/
def StopsNumber (rest : Text) : Prop :=
  ∀ c ∈ rest.head?, c.isDigit = false ∧ c ≠ '.' ∧ c ≠ 'e' ∧ c ≠ 'E'

section Numbers

variable {rest : Text}

/-- Decimal digits have no leading zero. -/
theorem length_toDigits_of_head? (n : Nat) (h : (Nat.toDigits 10 n).head? = some '0') :
    (Nat.toDigits 10 n).length = 1 := by
  induction n using Nat.strong_induction_on with
  | _ n ih =>
      by_cases hn : n < 10
      · rw [Nat.toDigits_of_lt_base hn]
        rfl
      · rw [Nat.toDigits_of_base_le (by decide) (by omega),
          List.head?_append_of_ne_nil _ Nat.toDigits_ne_nil] at h
        have hlen := ih (n / 10) (by omega) h
        have hlt : n / 10 < 10 ^ 1 :=
          (Nat.length_toDigits_le_iff (by decide) (by decide)).mp (Nat.le_of_eq hlen)
        have hdigits : ∀ d < 10, (Nat.toDigits 10 d).head? = some '0' → d = 0 := by decide
        have := hdigits (n / 10) (by omega) h
        omega

/-- The digits of a number are read up to its end. -/
theorem readDigits_toDigits (n : Nat) (hrest : StopsNumber rest) :
    readDigits (Nat.toDigits 10 n ++ rest) = some (Nat.toDigits 10 n, rest) := by
  have hall : ∀ c ∈ Nat.toDigits 10 n, c.isDigit = true := fun c hc =>
    Nat.isDigit_of_mem_toDigits (by decide) (by decide) hc
  have htake : rest.takeWhile Char.isDigit = [] := by
    cases rest with
    | nil => rfl
    | cons c rest => simp [(hrest c rfl).1]
  have hdrop : rest.dropWhile Char.isDigit = rest := by
    cases rest with
    | nil => rfl
    | cons c rest => simp [(hrest c rfl).1]
  rw [readDigits, List.takeWhile_append_of_pos hall, List.dropWhile_append_of_pos hall, htake, hdrop,
    List.append_nil, if_neg Nat.toDigits_ne_nil]

theorem readFraction_of_stops (hrest : StopsNumber rest) : readFraction rest = some ([], rest) :=
  if_neg fun h => (hrest '.' h).2.1 rfl

theorem readExponent_of_stops (hrest : StopsNumber rest) : readExponent rest = some (0, rest) := by
  refine if_neg ?_
  rintro (h | h)
  · exact (hrest 'e' h).2.2.1 rfl
  · exact (hrest 'E' h).2.2.2 rfl

/-- An integer below 2 ^ 53 is read exactly. -/
theorem numberValue_integer {n : Nat} (h : n < 2 ^ 53) (negative : Bool) :
    numberValue negative n 0 = .integer (if negative then -n else n) := by
  have hvalue := Rounding.integer?_of_lt h
  simp [numberValue, hvalue]

/-- The digits of a safe number, behind its sign. -/
theorem readNumber_toDigits {n : Nat} (h : n < 2 ^ 53) (hrest : StopsNumber rest) (negative : Bool) :
    readNumber ((if negative then ['-'] else []) ++ (Nat.toDigits 10 n ++ rest)) =
      some (.integer (if negative then -n else n), rest) := by
  have hsign : ((if negative then ['-'] else []) ++ (Nat.toDigits 10 n ++ rest)).head? = some '-' ↔
      negative = true := by
    cases negative with
    | true => simp
    | false =>
        simp only [Bool.false_eq_true, if_false, List.nil_append, iff_false]
        intro hhead
        rw [List.head?_append_of_ne_nil _ Nat.toDigits_ne_nil] at hhead
        have := Nat.isDigit_of_mem_toDigits (by decide) (by decide) (List.mem_of_mem_head? hhead)
        contradiction
  have hdigits : (if negative then ((if negative then ['-'] else []) ++ (Nat.toDigits 10 n ++ rest)).tail
      else (if negative then ['-'] else []) ++ (Nat.toDigits 10 n ++ rest)) =
      Nat.toDigits 10 n ++ rest := by
    cases negative <;> rfl
  have hzero : ¬ ((Nat.toDigits 10 n).head? = some '0' ∧ (Nat.toDigits 10 n).length ≠ 1) := fun hz =>
    hz.2 (length_toDigits_of_head? n hz.1)
  rw [readNumber]
  simp only [hsign, Bool.decide_eq_true, hdigits, readDigits_toDigits n hrest, Option.bind_eq_bind,
    Option.bind_some, if_neg hzero, readFraction_of_stops hrest, readExponent_of_stops hrest,
    List.append_nil, Nat.ofDigitChars_ten_toDigits, List.length_nil, Nat.cast_zero, sub_zero]
  rw [numberValue_integer h]
  rfl

/-- **Numbers** are read as they were written. -/
theorem readNumber_numberText {n : JsNumber} {text : Text} (h : numberText n = some text)
    (hrest : StopsNumber rest) : readNumber (text ++ rest) = some (n, rest) := by
  cases n with
  | other => contradiction
  | integer n =>
      simp only [numberText] at h
      split at h
      · rename_i hsafe
        rw [← Option.some.inj h]
        have hread := readNumber_toDigits hsafe hrest
        by_cases hneg : n < 0
        · have := hread true
          simp only [decimalNumbers, if_pos hneg]
          simpa [Int.ofNat_natAbs_of_nonpos (Int.le_of_lt hneg)] using this
        · have := hread false
          simp only [decimalNumbers, if_neg hneg]
          simpa [Int.natAbs_of_nonneg (Int.not_lt.mp hneg)] using this
      · contradiction

end Numbers

/-! ## values -/

mutual

/-- The members of every object have distinct names. -/
def DistinctNames : JsonValue → Prop
  | .array elements => ElementsDistinct elements
  | .object members => (members.map Prod.fst).Nodup ∧ MembersDistinct members
  | _ => True

/-- So it is within the elements of an array. -/
def ElementsDistinct : List JsonValue → Prop
  | [] => True
  | element :: elements => DistinctNames element ∧ ElementsDistinct elements

/-- So it is within the members of an object. -/
def MembersDistinct : List (Text × JsonValue) → Prop
  | [] => True
  | (_, value) :: members => DistinctNames value ∧ MembersDistinct members

end

/-- The names of an array are distinct when those of its elements are. -/
theorem elementsDistinct_iff {elements : List JsonValue} :
    ElementsDistinct elements ↔ ∀ element ∈ elements, DistinctNames element := by
  induction elements with
  | nil => simp [ElementsDistinct]
  | cons element elements ih => simp [ElementsDistinct, ih]

/-- An array is written where its elements are. -/
theorem exists_stringify_array {elements : List JsonValue}
    (h : ∀ element ∈ elements, ∃ text, stringify element = some text) :
    ∃ text, stringify (.array elements) = some text := by
  suffices htexts : ∃ texts, stringifyElements elements = some texts by
    obtain ⟨texts, htexts⟩ := htexts
    exact ⟨_, by rw [stringify, htexts]; rfl⟩
  induction elements with
  | nil => exact ⟨[], rfl⟩
  | cons element elements ih =>
      obtain ⟨text, htext⟩ := h element (by simp)
      obtain ⟨texts, htexts⟩ := ih fun e he => h e (by simp [he])
      exact ⟨text :: texts, by rw [stringifyElements, htext, htexts]; rfl⟩

/-- An object is written where its values are. -/
theorem exists_stringify_object {members : List (Text × JsonValue)}
    (h : ∀ member ∈ members, ∃ text, stringify member.2 = some text) :
    ∃ text, stringify (.object members) = some text := by
  suffices htexts : ∃ texts, stringifyMembers members = some texts by
    obtain ⟨texts, htexts⟩ := htexts
    exact ⟨_, by rw [stringify, htexts]; rfl⟩
  induction members with
  | nil => exact ⟨[], rfl⟩
  | cons member members ih =>
      obtain ⟨text, htext⟩ := h member (by simp)
      obtain ⟨texts, htexts⟩ := ih fun m hm => h m (by simp [hm])
      obtain ⟨name, value⟩ := member
      exact ⟨(quote name ++ ':' :: text) :: texts, by
        rw [stringifyMembers, htext, htexts]
        rfl⟩

/-- The first character of a value. -/
def startsValue (c : Char) : Bool := ['"', '[', '{', 'n', 't', 'f', '-'].contains c || c.isDigit

/-- A value starts with no white space and no closing bracket. -/
theorem startsValue_facts {c : Char} (h : startsValue c = true) :
    " \t\n\r".toList.contains c = false ∧ c ≠ ']' ∧ c ≠ '}' := by
  have hascii : c.toNat < 128 := by
    have hlist : ∀ c ∈ ['"', '[', '{', 'n', 't', 'f', '-'], c.toNat < 128 := by decide
    rw [startsValue, Bool.or_eq_true] at h
    rcases h with h | h
    · exact hlist c (List.contains_iff_mem.mp h)
    · exact toNat_lt_of_isDigit h
  exact forall_ascii (P := fun c => startsValue c = true →
    " \t\n\r".toList.contains c = false ∧ c ≠ ']' ∧ c ≠ '}') (by decide) c hascii h

theorem skipWhitespace_cons {c : Char} (h : " \t\n\r".toList.contains c = false) (v : Text) :
    skipWhitespace (c :: v) = c :: v := by
  rw [skipWhitespace, List.dropWhile_cons_of_neg]
  rw [h]
  decide

theorem readWord_singleton (c : Char) (v : Text) : readWord [c] (c :: v) = some v := by
  simp [readWord]

section Values

variable {fuel : Nat} {text rest : Text}

/-- A written value begins as one. -/
theorem stringify_eq_cons {v : JsonValue} (h : stringify v = some text) :
    ∃ c tail, text = c :: tail ∧ startsValue c = true := by
  cases v with
  | null => exact ⟨_, _, (Option.some.inj h).symm, by decide⟩
  | boolean b => cases b <;> exact ⟨_, _, (Option.some.inj h).symm, by decide⟩
  | string v => exact ⟨_, _, (Option.some.inj h).symm, by decide⟩
  | array elements =>
      obtain ⟨texts, -, rfl⟩ := Option.map_eq_some_iff.mp h
      exact ⟨_, _, rfl, by decide⟩
  | object members =>
      obtain ⟨texts, -, rfl⟩ := Option.map_eq_some_iff.mp h
      exact ⟨_, _, rfl, by decide⟩
  | number n =>
      cases n with
      | other => contradiction
      | integer n =>
          simp only [stringify, numberText, decimalNumbers] at h
          split at h
          · rw [← Option.some.inj h]
            split
            · exact ⟨_, _, rfl, by decide⟩
            · obtain ⟨c, tail, hdigits⟩ := List.exists_cons_of_ne_nil
                (Nat.toDigits_ne_nil (b := 10) (n := n.natAbs))
              have hc : c.isDigit = true := Nat.isDigit_of_mem_toDigits (by decide) (by decide)
                (hdigits ▸ List.mem_cons_self : c ∈ Nat.toDigits 10 n.natAbs)
              exact ⟨c, tail, hdigits, by rw [startsValue, hc, Bool.or_true]⟩
          · contradiction

/-- Members with new names are appended in order. -/
theorem foldl_setMember (before members : List (Text × JsonValue))
    (h : ((before ++ members).map Prod.fst).Nodup) :
    members.foldl setMember before = before ++ members := by
  induction members generalizing before with
  | nil => simp
  | cons m members ih =>
      have hnew : before.any (·.1 = m.1) = false := by
        rw [List.map_append, List.map_cons, List.nodup_append] at h
        rw [List.any_eq_false]
        intro a ha heq
        exact h.2.2 a.1 (List.mem_map_of_mem ha) m.1 (by simp) (by simpa using heq)
      rw [List.foldl_cons, setMember, hnew, if_neg (by decide), ih _ (by simpa using h),
        List.append_assoc, List.singleton_append]

/-- Values are read as they were written, as far as the fuel goes. -/
def ReadsValues (fuel : Nat) : Prop :=
  ∀ v text rest, stringify v = some text → DistinctNames v → text.length ≤ fuel →
    StopsNumber rest → readValue fuel (text ++ rest) = some (v, rest)

/-- So are the elements of an array. -/
def ReadsElements (fuel : Nat) : Prop :=
  ∀ elements texts rest, elements ≠ [] → stringifyElements elements = some texts →
    ElementsDistinct elements → (join ',' texts).length + 1 ≤ fuel →
      readElements fuel (join ',' texts ++ ']' :: rest) = some (elements, rest)

/-- So is a member of an object. -/
def ReadsMember (fuel : Nat) : Prop :=
  ∀ name value text rest, stringify value = some text → DistinctNames value →
    (quote name ++ ':' :: text).length ≤ fuel → StopsNumber rest →
      readMember fuel (quote name ++ ':' :: text ++ rest) = some ((name, value), rest)

/-- So are all of them. -/
def ReadsMembers (fuel : Nat) : Prop :=
  ∀ members texts rest, members ≠ [] → stringifyMembers members = some texts →
    MembersDistinct members → (join ',' texts).length + 1 ≤ fuel →
      readMembers fuel (join ',' texts ++ '}' :: rest) = some (members, rest)

theorem stopsNumber_cons {c : Char} (h : [',', ']', '}'].contains c = true) (rest : Text) :
    StopsNumber (c :: rest) := by
  have hall : ∀ c ∈ [',', ']', '}'], c.isDigit = false ∧ c ≠ '.' ∧ c ≠ 'e' ∧ c ≠ 'E' := by decide
  intro d hd
  rw [← Option.some.inj hd]
  exact hall c (List.contains_iff_mem.mp h)

/-- Elements are read with one more step than their values. -/
theorem readsElements_succ (hvalues : ReadsValues fuel) (helements : ReadsElements fuel) :
    ReadsElements (fuel + 1) := by
  intro elements texts rest hne htexts hdistinct hlen
  cases elements with
  | nil => contradiction
  | cons element elements =>
      obtain ⟨text, htext, texts', htexts', heq⟩ : ∃ text, stringify element = some text ∧
          ∃ texts', stringifyElements elements = some texts' ∧ text :: texts' = texts := by
        simpa [stringifyElements, Option.bind_eq_some_iff] using htexts
      subst heq
      rw [ElementsDistinct] at hdistinct
      cases elements with
      | nil =>
          obtain rfl : texts' = [] := (Option.some.inj htexts').symm
          have hread := hvalues element text (']' :: rest) htext hdistinct.1
            (by simp [join] at hlen; omega) (stopsNumber_cons (by decide) rest)
          simp only [join, List.intercalate_singleton]
          rw [readElements, hread]
          rfl
      | cons e elements =>
          have hne' : texts' ≠ [] := by
            rintro rfl
            simp [stringifyElements, Option.bind_eq_some_iff] at htexts'
          rw [join_cons hne', List.length_append, List.length_cons] at hlen
          have hread := hvalues element text (',' :: (join ',' texts' ++ ']' :: rest)) htext
            hdistinct.1 (by omega) (stopsNumber_cons (by decide) _)
          have hrest := helements _ texts' rest (by simp) htexts' hdistinct.2 (by omega)
          rw [join_cons hne', List.append_assoc, List.cons_append, readElements, hread]
          simp [skipWhitespace, hrest]

/-- A member is read with one more step than its value. -/
theorem readsMember_succ (hvalues : ReadsValues fuel) : ReadsMember (fuel + 1) := by
  intro name value text rest htext hdistinct hlen hstop
  have hquote : quote name ++ ':' :: text ++ rest =
      '"' :: (name.flatMap quoteChar ++ '"' :: ':' :: (text ++ rest)) := by
    simp [quote]
  have hread := hvalues value text rest htext hdistinct
    (by simp [quote] at hlen; omega) hstop
  rw [hquote, readMember, skipWhitespace_cons (by decide), readWord_singleton]
  simp only [Option.bind_eq_bind, Option.bind_some]
  rw [readString_quote]
  simp only [Option.bind_some]
  rw [skipWhitespace_cons (by decide), readWord_singleton]
  simp only [Option.bind_some, hread]
  rfl

/-- The members of an object are read with one more step than each of them. -/
theorem readsMembers_succ (hmember : ReadsMember fuel) (hmembers : ReadsMembers fuel) :
    ReadsMembers (fuel + 1) := by
  intro members texts rest hne htexts hdistinct hlen
  cases members with
  | nil => contradiction
  | cons m members =>
      obtain ⟨name, value⟩ := m
      obtain ⟨text, htext, texts', htexts', heq⟩ : ∃ text, stringify value = some text ∧
          ∃ texts', stringifyMembers members = some texts' ∧
            (quote name ++ ':' :: text) :: texts' = texts := by
        simpa [stringifyMembers, Option.bind_eq_some_iff] using htexts
      subst heq
      rw [MembersDistinct] at hdistinct
      cases members with
      | nil =>
          obtain rfl : texts' = [] := (Option.some.inj htexts').symm
          have hread := hmember name value text ('}' :: rest) htext hdistinct.1
            (by simp [join] at hlen ⊢; omega) (stopsNumber_cons (by decide) rest)
          simp only [join, List.intercalate_singleton]
          rw [readMembers, hread]
          rfl
      | cons m members =>
          have hne' : texts' ≠ [] := by
            rintro rfl
            simp [stringifyMembers, Option.bind_eq_some_iff] at htexts'
          rw [join_cons hne', List.length_append, List.length_cons] at hlen
          have hread := hmember name value text (',' :: (join ',' texts' ++ '}' :: rest)) htext
            hdistinct.1 (by omega) (stopsNumber_cons (by decide) _)
          have hrest := hmembers _ texts' rest (by simp) htexts' hdistinct.2 (by omega)
          rw [join_cons hne', List.append_assoc (quote name ++ ':' :: text), List.cons_append (a := ','),
            readMembers, hread]
          simp [skipWhitespace, hrest]

/-- What is joined behind an opening bracket begins with a value. -/
theorem join_eq_cons {c : Char} {tail : Text} {texts : List Text} (h : texts.head? = some (c :: tail)) :
    ∃ more, join ',' texts = c :: more := by
  cases texts with
  | nil => contradiction
  | cons text texts =>
      obtain rfl := Option.some.inj h
      cases texts with
      | nil => exact ⟨tail, by simp [join]⟩
      | cons text texts => exact ⟨_, by rw [join_cons (by simp), List.cons_append]⟩

/-- An array is read with one more step than its elements. -/
theorem readValue_array (helements : ReadsElements fuel) {elements : List JsonValue} {texts : List Text}
    (htexts : stringifyElements elements = some texts) (hdistinct : ElementsDistinct elements)
    (hlen : (join ',' texts).length + 1 ≤ fuel) (rest : Text) :
    readValue (fuel + 1) ('[' :: (join ',' texts ++ ']' :: rest)) = some (.array elements, rest) := by
  rw [readValue, skipWhitespace_cons (by decide)]
  dsimp only
  cases elements with
  | nil =>
      obtain rfl : texts = [] := (Option.some.inj htexts).symm
      rfl
  | cons e elements =>
      obtain ⟨first, hfirst, others, -, hcons⟩ : ∃ first, stringify e = some first ∧
          ∃ others, stringifyElements elements = some others ∧ first :: others = texts := by
        simpa [stringifyElements, Option.bind_eq_some_iff] using htexts
      obtain ⟨d, tail, rfl, hd⟩ := stringify_eq_cons hfirst
      obtain ⟨more, hmore⟩ : ∃ more, join ',' texts = d :: more :=
        join_eq_cons (by rw [← hcons]; rfl)
      have hread := helements _ texts rest (by simp) htexts hdistinct hlen
      rw [hmore, List.cons_append] at hread ⊢
      rw [skipWhitespace_cons (startsValue_facts hd).1]
      simp [hread, (startsValue_facts hd).2.1]

/-- An object is read with one more step than its members. -/
theorem readValue_object (hmembers : ReadsMembers fuel) {members : List (Text × JsonValue)}
    {texts : List Text} (htexts : stringifyMembers members = some texts)
    (hnames : (members.map Prod.fst).Nodup) (hdistinct : MembersDistinct members)
    (hlen : (join ',' texts).length + 1 ≤ fuel) (rest : Text) :
    readValue (fuel + 1) ('{' :: (join ',' texts ++ '}' :: rest)) = some (.object members, rest) := by
  rw [readValue, skipWhitespace_cons (by decide)]
  dsimp only
  cases members with
  | nil =>
      obtain rfl : texts = [] := (Option.some.inj htexts).symm
      rfl
  | cons m members =>
      obtain ⟨name, value⟩ := m
      obtain ⟨first, -, others, -, hcons⟩ : ∃ first, stringify value = some first ∧
          ∃ others, stringifyMembers members = some others ∧
            (quote name ++ ':' :: first) :: others = texts := by
        simpa [stringifyMembers, Option.bind_eq_some_iff] using htexts
      obtain ⟨more, hmore⟩ : ∃ more, join ',' texts = '"' :: more :=
        join_eq_cons (by rw [← hcons]; rfl)
      have hread := hmembers _ texts rest (by simp) htexts hdistinct hlen
      have hset := foldl_setMember [] ((name, value) :: members) hnames
      rw [hmore, List.cons_append] at hread ⊢
      rw [skipWhitespace_cons (by decide)]
      simp [hread, hset]

/-- A number is read up to its end. -/
theorem readValue_number {n : JsNumber} (htext : numberText n = some text) {rest : Text}
    (hstop : StopsNumber rest) : readValue (fuel + 1) (text ++ rest) = some (.number n, rest) := by
  obtain ⟨c, tail, heq, hstart⟩ := stringify_eq_cons (v := .number n) htext
  have hread := readNumber_numberText htext hstop
  rw [heq] at hread ⊢
  have hne : c ≠ '"' ∧ c ≠ '[' ∧ c ≠ '{' ∧ c ≠ 'n' ∧ c ≠ 't' ∧ c ≠ 'f' := by
    refine ⟨?_, ?_, ?_, ?_, ?_, ?_⟩ <;>
    · rintro rfl
      simp [readNumber, readDigits] at hread
  rw [List.cons_append] at hread ⊢
  rw [readValue, skipWhitespace_cons (startsValue_facts hstart).1]
  simp only [hne, if_false, hread]
  rfl

/-- A value of each kind is read with one more step than its parts. -/
theorem readsValues_succ (helements : ReadsElements fuel) (hmembers : ReadsMembers fuel) :
    ReadsValues (fuel + 1) := by
  intro v text rest htext hdistinct hlen hstop
  cases v with
  | null =>
      rw [← Option.some.inj htext]
      rfl
  | boolean b =>
      cases b with
      | true =>
          rw [← Option.some.inj htext]
          rfl
      | false =>
          rw [← Option.some.inj htext]
          rfl
  | string v =>
      have hquote : text ++ rest = '"' :: (v.flatMap quoteChar ++ '"' :: rest) := by
        rw [← Option.some.inj htext, quote]
        simp
      rw [hquote, readValue, skipWhitespace_cons (by decide)]
      simp only [if_true, readString_quote]
      rfl
  | number n => exact readValue_number htext hstop
  | array elements =>
      rw [DistinctNames] at hdistinct
      obtain ⟨texts, htexts, rfl⟩ := Option.map_eq_some_iff.mp htext
      simp only [List.length_cons, List.length_append, List.length_nil] at hlen
      simp only [List.cons_append, List.append_assoc, List.nil_append]
      exact readValue_array helements htexts hdistinct (by omega) rest
  | object members =>
      rw [DistinctNames] at hdistinct
      obtain ⟨texts, htexts, rfl⟩ := Option.map_eq_some_iff.mp htext
      simp only [List.length_cons, List.length_append, List.length_nil] at hlen
      simp only [List.cons_append, List.append_assoc, List.nil_append]
      exact readValue_object hmembers htexts hdistinct.1 hdistinct.2 (by omega) rest

/-- With as much fuel as there are characters, all are read. -/
theorem reads_all (fuel : Nat) :
    ReadsValues fuel ∧ ReadsElements fuel ∧ ReadsMember fuel ∧ ReadsMembers fuel := by
  induction fuel with
  | zero =>
      refine ⟨?_, ?_, ?_, ?_⟩
      · intro v text rest htext _ hlen _
        obtain ⟨c, tail, rfl, -⟩ := stringify_eq_cons htext
        simp at hlen
      · intro elements texts rest _ _ _ hlen
        omega
      · intro name value text rest _ _ hlen
        simp at hlen
      · intro members texts rest _ _ _ hlen
        omega
  | succ fuel ih =>
      obtain ⟨hvalues, helements, hmember, hmembers⟩ := ih
      exact ⟨readsValues_succ helements hmembers, readsElements_succ hvalues helements,
        readsMember_succ hvalues, readsMembers_succ hmember hmembers⟩

/-- **Round trip**: a written value is read back. -/
theorem parse_stringify {v : JsonValue} (h : stringify v = some text) (hdistinct : DistinctNames v) :
    parse text = some v := by
  have hread := (reads_all (text.length + 1)).1 v text [] h hdistinct (Nat.le_succ _) (by simp [StopsNumber])
  rw [List.append_nil] at hread
  rw [parse, hread]
  rfl

end Values

end Identifold.JsonText
