import Identifold.Registry

/-!
# Identifold.Json

JSON values, and what JavaScript makes of them where the code expects a value
of another type: reading a property, converting to a string, comparing.

A JSON value has its own properties only, and no name that the code reads is
inherited from a prototype but `length`, of strings and arrays.  No function is
among the properties, so an object with a property `toString` has no string
form.
-/

namespace Identifold

open Separated

/-- A JSON value. -/
inductive JsonValue
  | null
  | boolean (value : Bool)
  | number (value : JsNumber)
  | string (value : Text)
  | array (elements : List JsonValue)
  | object (members : List (Text × JsonValue))

/-- A JSON value, or `undefined`. -/
abbrev JsValue := Option JsonValue

/-- The string form of numbers. -/
structure NumberLibrary where
  toText : JsNumber → Text
  toText_spelled : ∀ n, toText n = "NaN".toList ∨ toText n = "Infinity".toList ∨
    ∃ c rest, toText n = c :: rest ∧ (c.isDigit = true ∨ c = '-')

/-! ## conversions -/

section Conversions

variable (numbers : NumberLibrary)

mutual

/-- `ToString`; `none` where it throws a `TypeError`. -/
def JsonValue.text? : JsonValue → Option Text
  | .null => some "null".toList
  | .boolean value => some (if value then "true".toList else "false".toList)
  | .number value => some (numbers.toText value)
  | .string value => some value
  | .array elements => (elementTexts? elements).map (join ',')
  | .object members =>
      if (members.lookup "toString".toList).isSome then none else some "[object Object]".toList

/-- The string forms of an array's elements, as `join` takes them. -/
def elementTexts? : List JsonValue → Option (List Text)
  | [] => some []
  | .null :: elements => (elementTexts? elements).map ([] :: ·)
  | element :: elements =>
      element.text?.bind fun text => (elementTexts? elements).map (text :: ·)

end

/-- `ToString` of a value that may be undefined. -/
def JsValue.text? : JsValue → Option Text
  | none => some "undefined".toList
  | some value => value.text? numbers

/-- `String(value)`, where it is called implicitly. -/
def toText (value : JsValue) : Except Thrown Text :=
  match value.text? numbers with
  | some text => .ok text
  | none => .error .foreign

end Conversions

/-- `value[name]`. -/
def getMember (value : JsValue) (name : Text) : Except Thrown JsValue :=
  match value with
  | none => .error .foreign
  | some .null => .error .foreign
  | some (.string v) =>
      .ok (if name = "length".toList then some (.number (.integer (utf16Length v))) else none)
  | some (.array elements) =>
      .ok (if name = "length".toList then some (.number (.integer elements.length)) else none)
  | some (.object members) => .ok (members.lookup name)
  | some _ => .ok none

/-- `value === text`. -/
def isText (value : JsValue) (text : Text) : Bool :=
  match value with
  | some (.string v) => v = text
  | _ => false

/-- `value === n`. -/
def isInteger (value : JsValue) (n : Int) : Bool :=
  match value with
  | some (.number (.integer m)) => m = n
  | _ => false

/-- `value ?? default`. -/
def coalesce (value : JsValue) (default : JsonValue) : JsonValue :=
  match value with
  | none => default
  | some .null => default
  | some v => v

/-- Whether two values at different places are the same key of a `Map`: two
objects are not. -/
def sameKey (a b : JsValue) : Bool :=
  match a, b with
  | some .null, some .null => true
  | some (.boolean x), some (.boolean y) => x = y
  | some (.number x), some (.number y) => x = y
  | some (.string x), some (.string y) => x = y
  | _, _ => false

/-! ## numbers -/

/-- Decimal numerals. -/
def decimalNumbers : NumberLibrary where
  toText n :=
    match n with
    | .integer n => if n < 0 then '-' :: Nat.toDigits 10 n.natAbs else Nat.toDigits 10 n.natAbs
    | .other => "NaN".toList
  toText_spelled n := by
    cases n with
    | other => exact .inl rfl
    | integer n =>
        refine .inr (.inr ?_)
        simp only
        split
        · exact ⟨'-', _, rfl, .inr rfl⟩
        · cases hdigits : Nat.toDigits 10 n.natAbs with
          | nil => exact absurd hdigits Nat.toDigits_ne_nil
          | cons c rest =>
              have hc : c ∈ Nat.toDigits 10 n.natAbs := by simp [hdigits]
              exact ⟨c, rest, rfl, .inl (Nat.isDigit_of_mem_toDigits (by decide) (by decide) hc)⟩

end Identifold
