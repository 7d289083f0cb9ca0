import Identifold.Json

/-!
# Identifold.Exchange

`importRegistry` of `packages/typescript/src/exchange.ts`: the validation of
`packages/typescript/src/registry.ts` on data of any JSON shape.

The declared types are not checked.  A value of another type is converted
where the code tests it, and kept as it is: a boolean can be a public prefix,
a method of every object a profile, any value a scope.  Reading a property of
`null`, and converting an object that has no string form, throws a `TypeError`.

* `registerRandom_iff`, `registerSequence_iff`, `registerReference_iff` — a
  reference definition, by its outcomes;
* `registerNamespace_iff` — a namespace definition behind the earlier ones;
* `registerAll_sound_iff` — the loop over the definitions of an exchange.
-/

namespace Identifold.Exchange

/-! ## registered definitions of any shape -/

/-- A registered reference definition.  The payload length of a profile that
is found among the methods of every object is no number. -/
inductive LooseReference
  | random (payloadLength : Option Nat) (refPrefix : JsValue) (profile : JsonValue)
  | sequence (refPrefix : JsValue) (scope : JsonValue) (width : Int)

/-- `reference.prefix`. -/
def LooseReference.refPrefix : LooseReference → JsValue
  | .random _ refPrefix _ => refPrefix
  | .sequence refPrefix _ _ => refPrefix

/-- A registered namespace definition. -/
structure LooseDefinition where
  publicPrefix : JsValue
  reference : Option LooseReference

/-- `value.toUpperCase()`, of a string of capitals. -/
def toUpperCase (value : JsValue) : Except Thrown Text :=
  match value with
  | some (.string v) => .ok (asciiUpper v)
  | _ => .error .foreign

/-- The key a definition is filed under in `byReferencePrefix`. -/
def LooseDefinition.referenceKey? (d : LooseDefinition) : Option Text :=
  d.reference.bind fun reference => (toUpperCase reference.refPrefix).toOption

/-- `PROFILE_LENGTHS`. -/
def profileLengths : List (Text × Nat) :=
  [("compact".toList, 8), ("high".toList, 12), ("standard".toList, 10)]

/-- What every object inherits from `Object.prototype`. -/
def objectPrototype : List Text :=
  ["constructor", "__defineGetter__", "__defineSetter__", "hasOwnProperty", "__lookupGetter__",
    "__lookupSetter__", "isPrototypeOf", "propertyIsEnumerable", "toString", "valueOf", "__proto__",
    "toLocaleString"].map String.toList

/-- `key in PROFILE_LENGTHS`. -/
def isProfileKey (key : Text) : Bool :=
  (profileLengths.map Prod.fst).contains key || objectPrototype.contains key

/-! ## registration -/

section Registration

variable (numbers : NumberLibrary)

/-- `validatePublicPrefix`. -/
def validatePublicPrefix (publicPrefix : JsValue) : Except Thrown Unit := do
  let length ← getMember publicPrefix "length".toList
  ensure (isInteger length 0 = false)
    (.identifold ⟨.invalidPublicPrefix, "Invalid public identifier prefix"⟩)
  let text ← toText numbers publicPrefix
  ensure (isTypeIdPrefix text = true)
    (.identifold ⟨.invalidPublicPrefix, "Invalid public identifier prefix"⟩)

/-- The random branch of `registerReference`. -/
def registerRandom (reference : JsonValue) (refPrefix : JsValue) : Except Thrown LooseReference := do
  let profile ← getMember (some reference) "profile".toList
  let profile := coalesce profile (.string "standard".toList)
  let key ← toText numbers (some profile)
  ensure (isProfileKey key = true)
    (.identifold ⟨.invalidNamespaceDefinition, "Unknown random reference profile"⟩)
  return .random (profileLengths.lookup key) refPrefix profile

/-- The sequential branch of `registerReference`. -/
def registerSequence (reference : JsonValue) (refPrefix : JsValue) : Except Thrown LooseReference := do
  let width ← getMember (some reference) "width".toList
  match width with
  | some (.number (.integer n)) => do
      ensure (4 ≤ n ∧ n ≤ 18) (.identifold ⟨.invalidRefLength,
        "Sequential reference width must be between 4 and 18 digits"⟩)
      let scope ← getMember (some reference) "scope".toList
      return .sequence refPrefix (coalesce scope (.string "none".toList)) n
  | _ => throw (.identifold ⟨.invalidRefLength,
      "Sequential reference width must be between 4 and 18 digits"⟩)

/-- `registerReference`, on a reference that is not `undefined`. -/
def registerReference (reference : JsonValue) : Except Thrown LooseReference := do
  let refPrefix ← getMember (some reference) "prefix".toList
  let text ← toText numbers refPrefix
  ensure (isReferencePrefix text = true) (.identifold ⟨.invalidRefPrefix,
    "Human reference prefixes must contain 2 to 8 uppercase ASCII letters"⟩)
  let strategy ← getMember (some reference) "strategy".toList
  if isText strategy "random".toList then registerRandom numbers reference refPrefix
  else if isText strategy "sequence".toList then registerSequence reference refPrefix
  else throw (.identifold ⟨.invalidNamespaceDefinition, "Unknown human reference strategy"⟩)

/-- The loop body of `createNamespaceRegistry`. -/
def registerNamespace (registered : List LooseDefinition) (definition : JsonValue) :
    Except Thrown LooseDefinition := do
  let publicPrefix ← getMember (some definition) "publicPrefix".toList
  validatePublicPrefix numbers publicPrefix
  ensure (∀ d ∈ registered, sameKey d.publicPrefix publicPrefix = false) (.identifold
    ⟨.duplicatePublicPrefix, "Public identifier prefixes must be unique"⟩)
  let reference ← getMember (some definition) "reference".toList
  match reference with
  | none => return ⟨publicPrefix, none⟩
  | some reference => do
      let reference ← registerReference numbers reference
      let referencePrefix ← toUpperCase reference.refPrefix
      (checkReferencePrefix (registered.filterMap (·.referenceKey?)) referencePrefix).mapError .identifold
      return ⟨publicPrefix, some reference⟩

/-- The loop of `createNamespaceRegistry`. -/
def registerAll (registered : List LooseDefinition) :
    List JsonValue → Except Thrown (List LooseDefinition)
  | [] => .ok registered
  | definition :: definitions => do
      let registration ← registerNamespace numbers registered definition
      registerAll (registered ++ [registration]) definitions

/-- `importRegistry`: the definitions of the registry it returns. -/
def importRegistry (exchange : JsonValue) : Except Thrown (List LooseDefinition) :=
  match exchange with
  | .object members =>
      if isInteger (members.lookup "version".toList) 1 then
        match members.lookup "namespaces".toList with
        | some (.array definitions) => registerAll numbers [] definitions
        | _ => .error (.identifold ⟨.invalidNamespaceDefinition, "Unsupported registry exchange format"⟩)
      else .error (.identifold ⟨.invalidNamespaceDefinition, "Unsupported registry exchange format"⟩)
  | _ => .error (.identifold ⟨.invalidNamespaceDefinition, "Unsupported registry exchange format"⟩)

end Registration

/-! ## what a definition is -/

/-- The value of a property, `undefined` where reading it throws. -/
def member (value : JsonValue) (name : String) : JsValue :=
  (getMember (some value) name.toList).toOption.getD none

/-- `undefined` or `null`. -/
def IsNullish (value : JsValue) : Prop := value = none ∨ value = some .null

/-- A value whose `length` is zero: an empty string or array, or an object with
such a property. -/
def IsEmpty (value : JsValue) : Prop :=
  ∃ v, value = some v ∧ isInteger (member v "length") 0 = true

section Definitions

variable (numbers : NumberLibrary)

/-- A value that is tested as a public prefix without complaint. -/
def PublicPrefixValid (value : JsValue) : Prop :=
  ¬ IsNullish value ∧ ¬ IsEmpty value ∧
    ∃ text, value.text? numbers = some text ∧ isTypeIdPrefix text = true

/-- A value that cannot be tested as one. -/
def PublicPrefixMalformed (value : JsValue) : Prop :=
  IsNullish value ∨ ¬ IsEmpty value ∧ value.text? numbers = none

/-- The value that is tested as a profile. -/
def profileOf (reference : JsonValue) : JsonValue :=
  coalesce (member reference "profile") (.string "standard".toList)

/-- The value that is kept as a scope. -/
def scopeOf (reference : JsonValue) : JsonValue :=
  coalesce (member reference "scope") (.string "none".toList)

/-- A reference whose prefix has the form of one. -/
def HasPrefixText (reference : JsonValue) : Prop :=
  ∃ text, (member reference "prefix").text? numbers = some text ∧ isReferencePrefix text = true

/-- A random reference with a profile that is found. -/
def RandomValid (reference : JsonValue) : Prop :=
  isText (member reference "strategy") "random".toList = true ∧
    ∃ key, (profileOf reference).text? numbers = some key ∧ isProfileKey key = true

/-- A sequential reference with a width in range. -/
def SequenceValid (reference : JsonValue) : Prop :=
  isText (member reference "strategy") "sequence".toList = true ∧
    ∃ n, member reference "width" = some (.number (.integer n)) ∧ 4 ≤ n ∧ n ≤ 18

/-- A reference that is accepted, and with a string for a prefix. -/
def ReferenceValid (reference : JsonValue) : Prop :=
  (∃ text, member reference "prefix" = some (.string text) ∧ isReferencePrefix text = true) ∧
    (RandomValid numbers reference ∨ SequenceValid reference)

/-- A reference that is `null`, has a prefix or a profile without a string form,
or is accepted with a prefix that is no string. -/
def ReferenceMalformed (reference : JsonValue) : Prop :=
  reference = .null ∨ (member reference "prefix").text? numbers = none ∨
    HasPrefixText numbers reference ∧
      (isText (member reference "strategy") "random".toList = true ∧
          (profileOf reference).text? numbers = none ∨
        (RandomValid numbers reference ∨ SequenceValid reference) ∧
          ∀ text, member reference "prefix" ≠ some (.string text))

/-- A definition whose public prefix is none of an earlier one. -/
def PublicPrefixNew (earlier : List JsonValue) (definition : JsonValue) : Prop :=
  ∀ d ∈ earlier, sameKey (member d "publicPrefix") (member definition "publicPrefix") = false

/-- The reference prefix of a definition, where it is a string. -/
def refPrefixOf (definition : JsonValue) : Option Text :=
  (member definition "reference").bind fun reference =>
    match member reference "prefix" with
    | some (.string text) => some (asciiUpper text)
    | _ => none

/-- A definition whose reference prefix is prefix-free against the earlier
ones. -/
def ReferencePrefixNew (earlier : List JsonValue) (definition : JsonValue) : Prop :=
  ∀ p ∈ refPrefixOf definition, ∀ d ∈ earlier, ∀ q ∈ refPrefixOf d, PrefixFree q p

/-- **A definition the code accepts** behind the earlier ones. -/
structure Acceptable (earlier : List JsonValue) (definition : JsonValue) : Prop where
  publicPrefix : PublicPrefixValid numbers (member definition "publicPrefix")
  publicPrefix_new : PublicPrefixNew earlier definition
  reference : ∀ reference ∈ member definition "reference", ReferenceValid numbers reference
  reference_new : ReferencePrefixNew earlier definition

/-- **A definition the code stumbles over**: a public prefix that cannot be
tested, or behind a new and valid one such a reference. -/
def Malformed (earlier : List JsonValue) (definition : JsonValue) : Prop :=
  PublicPrefixMalformed numbers (member definition "publicPrefix") ∨
    PublicPrefixValid numbers (member definition "publicPrefix") ∧
      PublicPrefixNew earlier definition ∧
        ∃ reference ∈ member definition "reference", ReferenceMalformed numbers reference

/-- Every definition of the list is acceptable behind those before it. -/
def AllAcceptable (definitions : List JsonValue) : Prop :=
  ∀ earlier d rest, definitions = earlier ++ d :: rest → Acceptable numbers earlier d

/-- An accepted reference of the declared types. -/
def ReferenceDeclared (reference : JsonValue) : Prop :=
  (isText (member reference "strategy") "random".toList = true →
    ∃ profile ∈ profileLengths.map Prod.fst, profileOf reference = .string profile) ∧
  (isText (member reference "strategy") "sequence".toList = true →
    ∃ scope ∈ ["none".toList, "calendar-year".toList], scopeOf reference = .string scope)

/-- An accepted definition of the declared types. -/
def Declared (definition : JsonValue) : Prop :=
  (∃ text, member definition "publicPrefix" = some (.string text)) ∧
    ∀ reference ∈ member definition "reference", ReferenceDeclared reference

/-- Definitions that are safe to import: nothing malformed is met behind
acceptable ones, and if all are acceptable, all are of the declared types. -/
structure SafeDefinitions (definitions : List JsonValue) : Prop where
  wellFormed : ∀ earlier d rest, definitions = earlier ++ d :: rest → AllAcceptable numbers earlier →
    ¬ Malformed numbers earlier d
  declared : AllAcceptable numbers definitions → ∀ d ∈ definitions, Declared d

end Definitions

/-! ## what the code makes of it -/

section Outcome

variable (numbers : NumberLibrary)

/-- The registered form of an accepted reference. -/
def registeredReferenceOf (reference : JsonValue) : LooseReference :=
  if isText (member reference "strategy") "random".toList then
    .random (((profileOf reference).text? numbers).bind fun key => profileLengths.lookup key)
      (member reference "prefix") (profileOf reference)
  else
    .sequence (member reference "prefix") (scopeOf reference)
      (match member reference "width" with
        | some (.number (.integer n)) => n
        | _ => 0)

/-- The registered form of an accepted definition. -/
def registeredOf (definition : JsonValue) : LooseDefinition :=
  ⟨member definition "publicPrefix",
    (member definition "reference").map (registeredReferenceOf numbers)⟩

variable {numbers} {value : JsonValue} {name : String}

/-- Every value but `null` has a member of each name, `undefined` where there is none.
-/
theorem getMember_ok_iff {m : JsValue} :
    getMember (some value) name.toList = .ok m ↔ value ≠ .null ∧ m = member value name := by
  unfold member
  cases value <;> simp [getMember, Except.toOption, eq_comm]

/-- A member of `null` is a `TypeError`. -/
theorem getMember_error_iff {e : Thrown} :
    getMember (some value) name.toList = .error e ↔ value = .null ∧ e = .foreign := by
  cases value <;> simp [getMember, eq_comm]

/-- The conversion is the text of the value. -/
theorem toText_ok_iff {v : JsValue} {text : Text} :
    toText numbers v = .ok text ↔ v.text? numbers = some text := by
  unfold toText
  cases v.text? numbers <;> simp

/-- It fails where the value has no text. -/
theorem toText_error_iff {v : JsValue} {e : Thrown} :
    toText numbers v = .error e ↔ v.text? numbers = none ∧ e = .foreign := by
  unfold toText
  cases v.text? numbers <;> simp [eq_comm]

/-- A check of the code does not stumble. -/
theorem ensure_ne_foreign {condition : Prop} [Decidable condition] {error : IdentifoldError} :
    ensure condition (Thrown.identifold error) ≠ .error .foreign := by
  intro h
  obtain ⟨-, h⟩ := ensure_eq_error_iff.mp h
  contradiction

theorem isNullish_some_iff : IsNullish (some value) ↔ value = .null := by
  simp [IsNullish]

theorem not_isEmpty_some_iff : ¬ IsEmpty (some value) ↔ isInteger (member value "length") 0 = false := by
  simp [IsEmpty]

/-- `validatePublicPrefix` by its two outcomes. -/
theorem validatePublicPrefix_iff {v : JsValue} :
    (∀ u, validatePublicPrefix numbers v = .ok u ↔ PublicPrefixValid numbers v) ∧
      (validatePublicPrefix numbers v = .error .foreign ↔ PublicPrefixMalformed numbers v) := by
  cases v with
  | none =>
      have hthrows : validatePublicPrefix numbers none = .error .foreign := rfl
      rw [hthrows]
      simp [PublicPrefixValid, PublicPrefixMalformed, IsNullish]
  | some v =>
      simp only [PublicPrefixValid, PublicPrefixMalformed, isNullish_some_iff, not_isEmpty_some_iff,
        validatePublicPrefix, bind_eq_ok_iff, bind_eq_error_iff, ensure_eq_ok_iff, getMember_ok_iff,
        getMember_error_iff, toText_ok_iff, toText_error_iff, ensure_ne_foreign]
      constructor
      · intro u
        constructor
        · rintro ⟨_, ⟨hv, rfl⟩, _, hlength, text, htext, hvalid⟩
          exact ⟨hv, hlength, text, htext, hvalid⟩
        · rintro ⟨hv, hlength, text, htext, hvalid⟩
          exact ⟨_, ⟨hv, rfl⟩, (), hlength, text, htext, hvalid⟩
      · constructor
        · rintro (⟨hv, -⟩ | ⟨_, ⟨-, rfl⟩, h | ⟨_, hlength, ⟨htext, -⟩ | ⟨_, -, h⟩⟩⟩)
          · exact .inl hv
          · contradiction
          · exact .inr ⟨hlength, htext⟩
          · contradiction
        · rintro (hv | ⟨hlength, htext⟩)
          · exact .inl ⟨hv, trivial⟩
          · by_cases hv : v = .null
            · exact .inl ⟨hv, trivial⟩
            · exact .inr ⟨_, ⟨hv, rfl⟩, .inr ⟨(), hlength, .inl ⟨htext, trivial⟩⟩⟩

/-- What a random reference is registered as, and when it is a `TypeError`. -/
theorem registerRandom_iff {reference : JsonValue} {refPrefix : JsValue} (hnull : reference ≠ .null)
    (hstrategy : isText (member reference "strategy") "random".toList = true) :
    (∀ l, registerRandom numbers reference refPrefix = .ok l ↔ RandomValid numbers reference ∧
      l = .random (((profileOf reference).text? numbers).bind fun key => profileLengths.lookup key)
        refPrefix (profileOf reference)) ∧
    (registerRandom numbers reference refPrefix = .error .foreign ↔
      (profileOf reference).text? numbers = none) := by
  have hprofile : getMember (some reference) "profile".toList = .ok (member reference "profile") :=
    getMember_ok_iff.mpr ⟨hnull, rfl⟩
  have hdefault : coalesce (member reference "profile") (.string "standard".toList) =
      profileOf reference := rfl
  simp only [registerRandom, hprofile, ok_bind, hdefault, RandomValid, hstrategy, true_and, toText,
    JsValue.text?]
  cases hkey : (profileOf reference).text? numbers with
  | none => simp [error_bind]
  | some key =>
      simp only [ok_bind, Option.some.injEq, exists_eq_left', Option.bind_some, reduceCtorEq]
      by_cases hvalid : isProfileKey key = true
      · simp only [ensure_of hvalid, ok_bind, pure_eq_ok_iff]
        refine ⟨fun l => ?_, by simp [pure, Except.pure]⟩
        simp only [hvalid, true_and, eq_comm]
      · simp only [ensure_of_not hvalid, error_bind]
        simp [hvalid]

/-- What a sequential reference is registered as; it is never a `TypeError`. -/
theorem registerSequence_iff {reference : JsonValue} {refPrefix : JsValue} (hnull : reference ≠ .null)
    (hstrategy : isText (member reference "strategy") "sequence".toList = true) :
    (∀ l, registerSequence reference refPrefix = .ok l ↔ SequenceValid reference ∧
      l = .sequence refPrefix (scopeOf reference)
        (match member reference "width" with
          | some (.number (.integer n)) => n
          | _ => 0)) ∧
    registerSequence reference refPrefix ≠ .error .foreign := by
  have hmember : ∀ name : String, getMember (some reference) name.toList = .ok (member reference name) :=
    fun name => getMember_ok_iff.mpr ⟨hnull, rfl⟩
  have hdefault : coalesce (member reference "scope") (.string "none".toList) = scopeOf reference := rfl
  simp only [registerSequence, hmember, ok_bind, hdefault, SequenceValid, hstrategy, true_and]
  split
  · next n hwidth =>
      by_cases hvalid : 4 ≤ n ∧ n ≤ 18
      · simp only [ensure_of hvalid, ok_bind, pure_eq_ok_iff]
        refine ⟨fun l => ?_, by simp [pure, Except.pure]⟩
        simp [hwidth, hvalid, eq_comm]
      · simp only [ensure_of_not hvalid, error_bind]
        refine ⟨fun l => iff_of_false (by simp) ?_, by simp⟩
        rintro ⟨⟨m, hm, hrange⟩, -⟩
        obtain rfl : n = m := by simpa [hwidth] using hm
        exact hvalid hrange
  · next hwidth =>
      refine ⟨fun l => iff_of_false (by simp [throw, throwThe, MonadExceptOf.throw]) ?_,
        by simp [throw, throwThe, MonadExceptOf.throw]⟩
      rintro ⟨⟨n, hn, -⟩, -⟩
      exact hwidth n hn

/-- A value is at most one text. -/
theorem not_isText_of_isText {v : JsValue} {a b : Text} (h : isText v a = true) (hne : a ≠ b) :
    isText v b = false := by
  unfold isText at h ⊢
  split
  · next w =>
      obtain rfl : w = a := by simpa using h
      simpa using hne
  · rfl

/-- A registered reference keeps the prefix as it was given. -/
theorem registeredReferenceOf_refPrefix (reference : JsonValue) :
    (registeredReferenceOf numbers reference).refPrefix = member reference "prefix" := by
  unfold registeredReferenceOf
  split <;> rfl

/-- `null` has no prefix. -/
theorem not_hasPrefixText_null : ¬ HasPrefixText numbers .null := by
  rintro ⟨text, htext, hvalid⟩
  obtain rfl := Option.some.inj htext
  exact absurd hvalid (by decide)

/-- `registerReference` by its two outcomes. -/
theorem registerReference_iff {reference : JsonValue} :
    (∀ l, registerReference numbers reference = .ok l ↔ HasPrefixText numbers reference ∧
      (RandomValid numbers reference ∨ SequenceValid reference) ∧
        l = registeredReferenceOf numbers reference) ∧
    (registerReference numbers reference = .error .foreign ↔ reference = .null ∨
      (member reference "prefix").text? numbers = none ∨ HasPrefixText numbers reference ∧
        isText (member reference "strategy") "random".toList = true ∧
          (profileOf reference).text? numbers = none) := by
  -- the members of `null` cannot be read
  by_cases hnull : reference = .null
  · subst hnull
    have hthrows : registerReference numbers .null = .error .foreign := rfl
    rw [hthrows]
    simp [not_hasPrefixText_null]
  · have hmember : ∀ name : String,
        getMember (some reference) name.toList = .ok (member reference name) :=
      fun name => getMember_ok_iff.mpr ⟨hnull, rfl⟩
    rw [registerReference, hmember "prefix", ok_bind]
    -- nor a prefix that has no text
    cases htext : (member reference "prefix").text? numbers with
    | none =>
        rw [toText_error_iff.mpr ⟨htext, rfl⟩, error_bind]
        refine ⟨fun l => iff_of_false (fun h => by contradiction) ?_, iff_of_true rfl (.inr (.inl rfl))⟩
        rintro ⟨⟨text, h, -⟩, -⟩
        rw [htext] at h
        contradiction
    | some text =>
        rw [toText_ok_iff.mpr htext, ok_bind]
        -- the prefix is tested before the strategy
        by_cases hvalid : isReferencePrefix text = true
        · have hbegins : HasPrefixText numbers reference := ⟨text, htext, hvalid⟩
          rw [ensure_of hvalid, ok_bind, hmember "strategy", ok_bind]
          by_cases hrandom : isText (member reference "strategy") "random".toList = true
          · obtain ⟨hok, hforeign⟩ := @registerRandom_iff numbers _ (member reference "prefix") hnull hrandom
            have hsequence : ¬ SequenceValid reference := fun h =>
              absurd h.1 (Bool.eq_false_iff.mp (not_isText_of_isText hrandom (by decide)))
            rw [if_pos hrandom, registeredReferenceOf, if_pos hrandom, hforeign]
            simp only [hok, hbegins, hsequence, hnull, hrandom, true_and, or_false, false_or, reduceCtorEq]
            exact ⟨fun _ => trivial, trivial⟩
          · by_cases hsequence : isText (member reference "strategy") "sequence".toList = true
            · obtain ⟨hok, hforeign⟩ := @registerSequence_iff reference (member reference "prefix") hnull hsequence
              have hnot : ¬ RandomValid numbers reference := fun h => hrandom h.1
              rw [if_neg hrandom, if_pos hsequence, registeredReferenceOf, if_neg hrandom]
              simp only [hok, hforeign, hbegins, hnot, hnull, hrandom, true_and, false_or, reduceCtorEq]
              simp
            · have hnot : ¬ RandomValid numbers reference := fun h => hrandom h.1
              have hnot' : ¬ SequenceValid reference := fun h => hsequence h.1
              rw [if_neg hrandom, if_neg hsequence]
              simp only [hbegins, hnot, hnot', hnull, hrandom, true_and, false_or, reduceCtorEq]
              simp [throw, throwThe, MonadExceptOf.throw]
        · have hbegins : ¬ HasPrefixText numbers reference := by
            rintro ⟨text', htext', hvalid'⟩
            rw [htext] at htext'
            exact hvalid (Option.some.inj htext' ▸ hvalid')
          rw [ensure_of_not hvalid, error_bind]
          refine ⟨fun l => iff_of_false (fun h => by contradiction) fun h => hbegins h.1,
            iff_of_false (fun h => by simp at h) ?_⟩
          rintro (h | h | h)
          · exact hnull h
          · contradiction
          · exact hbegins h.1

/-- Only strings have `toUpperCase`. -/
theorem toUpperCase_ok_iff {v : JsValue} {text : Text} :
    toUpperCase v = .ok text ↔ ∃ w, v = some (.string w) ∧ text = asciiUpper w := by
  unfold toUpperCase
  split
  · simp [eq_comm]
  · next hv =>
      refine iff_of_false (fun h => by contradiction) ?_
      rintro ⟨w, rfl, -⟩
      exact hv w rfl

/-- Every other prefix is a `TypeError`. -/
theorem toUpperCase_foreign_iff {v : JsValue} :
    toUpperCase v = .error .foreign ↔ ∀ w, v ≠ some (.string w) := by
  unfold toUpperCase
  split
  · simp
  · next hv => exact iff_of_true rfl hv

/-- A prefix is accepted that is free of each earlier one. -/
theorem checkReferencePrefix_ok_iff {keys : List Text} {p : Text} {u : Unit} :
    checkReferencePrefix keys p = .ok u ↔ ∀ key ∈ keys, PrefixFree key p :=
  ⟨checkReferencePrefix_ok, checkReferencePrefix_of_free⟩

theorem mapError_identifold_ne_foreign {α : Type} (x : Except IdentifoldError α) :
    x.mapError Thrown.identifold ≠ .error .foreign := by
  cases x <;> simp [Except.mapError]

/-- A reference is valid when it is accepted and its prefix is a string. -/
theorem referenceValid_iff {reference : JsonValue} : ReferenceValid numbers reference ↔
    HasPrefixText numbers reference ∧ (RandomValid numbers reference ∨ SequenceValid reference) ∧
      ∃ text, member reference "prefix" = some (.string text) := by
  constructor
  · rintro ⟨⟨text, htext, hvalid⟩, hpolicy⟩
    exact ⟨⟨text, by rw [htext]; simp [JsValue.text?, JsonValue.text?], hvalid⟩, hpolicy, text, htext⟩
  · rintro ⟨⟨text, htext, hvalid⟩, hpolicy, w, hw⟩
    rw [hw] at htext
    simp only [JsValue.text?, JsonValue.text?, Option.some.injEq] at htext
    exact ⟨⟨w, hw, by rwa [htext]⟩, hpolicy⟩

/-- The keys of the registered forms. -/
theorem referenceKey?_registeredOf (definition : JsonValue) :
    (registeredOf numbers definition).referenceKey? = refPrefixOf definition := by
  unfold LooseDefinition.referenceKey? registeredOf refPrefixOf
  cases member definition "reference" with
  | none => rfl
  | some reference =>
      simp only [Option.map_some, Option.bind_some, registeredReferenceOf_refPrefix, toUpperCase]
      split <;> simp_all [Except.toOption]

/-- The reference prefix of a definition with a reference of a string prefix. -/
theorem refPrefixOf_eq {definition reference : JsonValue} {text : Text}
    (href : member definition "reference" = some reference)
    (htext : member reference "prefix" = some (.string text)) :
    refPrefixOf definition = some (asciiUpper text) := by
  simp [refPrefixOf, href, htext]

/-- The reference of a definition: it is registered when it is valid and new, and
stumbled over when it is malformed. -/
theorem registerReference_of_definition (numbers : NumberLibrary) (earlier : List JsonValue)
    {definition reference : JsonValue} (href : member definition "reference" = some reference)
    {result : Except Thrown LooseDefinition} (hresult : result = do
      let reference ← registerReference numbers reference
      let referencePrefix ← toUpperCase reference.refPrefix
      (checkReferencePrefix (earlier.filterMap refPrefixOf) referencePrefix).mapError .identifold
      return ⟨member definition "publicPrefix", some reference⟩) :
    (∀ l, result = .ok l ↔ (ReferenceValid numbers reference ∧ ReferencePrefixNew earlier definition) ∧
      l = registeredOf numbers definition) ∧
    (result = .error .foreign ↔ ReferenceMalformed numbers reference) := by
  subst hresult
  simp only [bind_eq_ok_iff, bind_eq_error_iff, registerReference_iff.1, registerReference_iff.2,
    toUpperCase_ok_iff, toUpperCase_foreign_iff, mapError_eq_ok_iff, checkReferencePrefix_ok_iff,
    mapError_identifold_ne_foreign, pure_eq_ok_iff, false_or]
  have hregistered : ⟨member definition "publicPrefix", some (registeredReferenceOf numbers reference)⟩ =
      registeredOf numbers definition := by
    rw [registeredOf, href]
    rfl
  constructor
  · intro l
    constructor
    · rintro ⟨_, ⟨hbegins, hpolicy, rfl⟩, _, ⟨text, htext, rfl⟩, _, hfree, rfl⟩
      rw [registeredReferenceOf_refPrefix] at htext
      refine ⟨⟨referenceValid_iff.mpr ⟨hbegins, hpolicy, text, htext⟩, fun p hp d hd q hq => ?_⟩,
        hregistered⟩
      rw [refPrefixOf_eq href htext] at hp
      obtain rfl := Option.some.inj hp
      exact hfree q (List.mem_filterMap.mpr ⟨d, hd, hq⟩)
    · rintro ⟨⟨hvalid, hnew⟩, rfl⟩
      obtain ⟨hbegins, hpolicy, text, htext⟩ := referenceValid_iff.mp hvalid
      refine ⟨_, ⟨hbegins, hpolicy, rfl⟩, _, ⟨text, by rw [registeredReferenceOf_refPrefix, htext], rfl⟩,
        (), fun key hkey => ?_, hregistered⟩
      obtain ⟨d, hd, hq⟩ := List.mem_filterMap.mp hkey
      exact hnew _ (refPrefixOf_eq href htext) d hd key hq
  · constructor
    · rintro ((h | h | ⟨hbegins, hprofile⟩) | ⟨_, ⟨hbegins, hpolicy, rfl⟩, h | ⟨_, -, _, -, h⟩⟩)
      · exact .inl h
      · exact .inr (.inl h)
      · exact .inr (.inr ⟨hbegins, .inl hprofile⟩)
      · rw [registeredReferenceOf_refPrefix] at h
        exact .inr (.inr ⟨hbegins, .inr ⟨hpolicy, h⟩⟩)
      · contradiction
    · rintro (h | h | ⟨hbegins, hprofile | ⟨hpolicy, h⟩⟩)
      · exact .inl (.inl h)
      · exact .inl (.inr (.inl h))
      · exact .inl (.inr (.inr ⟨hbegins, hprofile⟩))
      · exact .inr ⟨_, ⟨hbegins, hpolicy, rfl⟩, .inl (by rwa [registeredReferenceOf_refPrefix])⟩

/-- **One definition**: it is registered when it is acceptable, and stumbled over
when it is malformed. -/
theorem registerNamespace_iff {earlier : List JsonValue} {definition : JsonValue} :
    (∀ l, registerNamespace numbers (earlier.map (registeredOf numbers)) definition = .ok l ↔
      Acceptable numbers earlier definition ∧ l = registeredOf numbers definition) ∧
    (registerNamespace numbers (earlier.map (registeredOf numbers)) definition = .error .foreign ↔
      Malformed numbers earlier definition) := by
  -- the members of `null` cannot be read
  by_cases hnull : definition = .null
  · subst hnull
    have hthrows : registerNamespace numbers (earlier.map (registeredOf numbers)) .null =
        .error .foreign := rfl
    rw [hthrows]
    refine ⟨fun l => iff_of_false (fun h => by contradiction) ?_, iff_of_true rfl (.inl (.inl (.inl rfl)))⟩
    rintro ⟨h, -⟩
    exact h.publicPrefix.1 (.inl rfl)
  · have hmember : ∀ name : String,
        getMember (some definition) name.toList = .ok (member definition name) :=
      fun name => getMember_ok_iff.mpr ⟨hnull, rfl⟩
    have hnew : (∀ d ∈ earlier.map (registeredOf numbers),
        sameKey d.publicPrefix (member definition "publicPrefix") = false) ↔
          PublicPrefixNew earlier definition := List.forall_mem_map
    have hkeys : (earlier.map (registeredOf numbers)).filterMap (·.referenceKey?) =
        earlier.filterMap refPrefixOf := by
      rw [List.filterMap_map]
      exact List.filterMap_congr fun d _ => referenceKey?_registeredOf d
    rw [registerNamespace, hmember "publicPrefix", ok_bind]
    simp only [hmember "reference", ok_bind, hkeys, bind_eq_ok_iff, bind_eq_error_iff,
      validatePublicPrefix_iff.1, validatePublicPrefix_iff.2, ensure_eq_ok_iff, ensure_ne_foreign, hnew,
      false_or]
    -- without a reference only the public prefix is tested
    cases href : member definition "reference" with
    | none =>
        have hrefPrefix : refPrefixOf definition = none := by simp [refPrefixOf, href]
        simp only [pure_eq_ok_iff]
        constructor
        · intro l
          constructor
          · rintro ⟨_, hvalid, _, hnew, rfl⟩
            exact ⟨⟨hvalid, hnew, by simp [href], by simp [ReferencePrefixNew, hrefPrefix]⟩,
              by simp [registeredOf, href]⟩
          · rintro ⟨h, rfl⟩
            exact ⟨(), h.publicPrefix, (), h.publicPrefix_new, by simp [registeredOf, href]⟩
        · simp [Malformed, href, pure, Except.pure]
    | some reference =>
        obtain ⟨hok, hforeign⟩ :=
          registerReference_of_definition numbers earlier href rfl
        simp only [hok, hforeign]
        constructor
        · intro l
          constructor
          · rintro ⟨_, hvalid, _, hnew, ⟨hreference, hfree⟩, rfl⟩
            refine ⟨⟨hvalid, hnew, fun r hr => ?_, hfree⟩, rfl⟩
            obtain rfl := Option.some.inj (href.symm.trans hr)
            exact hreference
          · rintro ⟨h, rfl⟩
            exact ⟨(), h.publicPrefix, (), h.publicPrefix_new,
              ⟨h.reference reference href, h.reference_new⟩, rfl⟩
        · simp [Malformed, href]

/-- The loop, in two parts. -/
theorem registerAll_append (registered : List LooseDefinition) (xs ys : List JsonValue) :
    registerAll numbers registered (xs ++ ys) =
      registerAll numbers registered xs >>= fun registered => registerAll numbers registered ys := by
  induction xs generalizing registered with
  | nil => rfl
  | cons x xs ih =>
      rw [List.cons_append, registerAll, registerAll]
      cases registerNamespace numbers registered x with
      | error e => rfl
      | ok l => exact ih _

/-- Acceptable definitions are registered one by one. -/
theorem registerAll_of_acceptable {definitions : List JsonValue} (h : AllAcceptable numbers definitions) :
    registerAll numbers [] definitions = .ok (definitions.map (registeredOf numbers)) := by
  induction definitions using List.reverseRecOn with
  | nil => rfl
  | append_singleton definitions d ih =>
      have hinit : AllAcceptable numbers definitions := by
        intro earlier e rest heq
        exact h earlier e (rest ++ [d]) (by rw [heq]; simp)
      have hlast : Acceptable numbers definitions d := h definitions d [] rfl
      rw [registerAll_append, ih hinit, ok_bind, registerAll,
        (registerNamespace_iff.1 _).mpr ⟨hlast, rfl⟩, ok_bind, List.map_append]
      rfl

/-- Some definition is the first that is not acceptable, or all are. -/
theorem allAcceptable_or (definitions : List JsonValue) : AllAcceptable numbers definitions ∨
    ∃ earlier d rest, definitions = earlier ++ d :: rest ∧ AllAcceptable numbers earlier ∧
      ¬ Acceptable numbers earlier d := by
  induction definitions using List.reverseRecOn with
  | nil => exact .inl (by simp [AllAcceptable])
  | append_singleton definitions d ih =>
      rcases ih with hall | ⟨earlier, e, rest, rfl, hall, he⟩
      · by_cases hd : Acceptable numbers definitions d
        · refine .inl fun earlier e rest heq => ?_
          rcases List.eq_nil_or_concat rest with rfl | ⟨rest', e', rfl⟩
          · obtain ⟨rfl, he⟩ := List.append_inj' heq rfl
            obtain rfl : d = e := by simpa using he
            exact hd
          · rw [List.concat_eq_append, ← List.cons_append, ← List.append_assoc] at heq
            exact hall earlier e rest' (List.append_inj' heq rfl).1
        · exact .inr ⟨definitions, d, [], rfl, hall, hd⟩
      · exact .inr ⟨earlier, e, rest ++ [d], by simp, hall, he⟩

/-- A first definition that is not acceptable ends the loop. -/
theorem registerAll_of_not_acceptable {earlier rest : List JsonValue} {d : JsonValue}
    (hall : AllAcceptable numbers earlier) (hd : ¬ Acceptable numbers earlier d) :
    ∃ e, registerAll numbers [] (earlier ++ d :: rest) = .error e ∧
      (e = .foreign ↔ Malformed numbers earlier d) := by
  rw [registerAll_append, registerAll_of_acceptable hall, ok_bind, registerAll]
  cases h : registerNamespace numbers (earlier.map (registeredOf numbers)) d with
  | ok l => exact absurd ((registerNamespace_iff.1 l).mp h).1 hd
  | error e =>
      refine ⟨e, rfl, ?_⟩
      rw [← registerNamespace_iff.2, h, Except.error.injEq]

end Outcome

/-! ## soundness -/

/-- A registered reference definition of the declared types. -/
inductive LooseReference.Sound : LooseReference → Prop
  | random {profile : Text} {payloadLength : Nat} {text : Text}
      (hprofile : (profile, payloadLength) ∈ profileLengths) (hbegins : isReferencePrefix text = true) :
      Sound (.random (some payloadLength) (some (.string text)) (.string profile))
  | sequence {scope : Text} {width : Int} {text : Text}
      (hscope : scope ∈ ["none".toList, "calendar-year".toList]) (hwidth : 4 ≤ width ∧ width ≤ 18)
      (hbegins : isReferencePrefix text = true) :
      Sound (.sequence (some (.string text)) (.string scope) width)

/-- A registered namespace definition of the declared types. -/
def LooseDefinition.Sound (d : LooseDefinition) : Prop :=
  (∃ text, d.publicPrefix = some (.string text) ∧ isPublicPrefix text = true) ∧
    ∀ reference ∈ d.reference, reference.Sound

/-- An import that throws an `IdentifoldError`, or returns definitions of the
declared types. -/
def SoundImport (result : Except Thrown (List LooseDefinition)) : Prop :=
  (∃ error, result = .error (.identifold error)) ∨
    ∃ definitions, result = .ok definitions ∧ ∀ d ∈ definitions, d.Sound

/-- An exchange of the supported format. -/
def IsExchange (exchange : JsonValue) (definitions : List JsonValue) : Prop :=
  ∃ members, exchange = .object members ∧
    isInteger (members.lookup "version".toList) 1 = true ∧
      members.lookup "namespaces".toList = some (.array definitions)

section Soundness

variable {numbers : NumberLibrary}

/-- A random definition is sound with a known profile, its length, and a textual
prefix. -/
theorem sound_random_iff {payloadLength : Option Nat} {refPrefix : JsValue} {profile : JsonValue} :
    (LooseReference.random payloadLength refPrefix profile).Sound ↔
      (∃ name n, (name, n) ∈ profileLengths ∧ profile = .string name ∧ payloadLength = some n) ∧
        ∃ text, refPrefix = some (.string text) ∧ isReferencePrefix text = true := by
  constructor
  · intro h
    cases h with
    | random hprofile hbegins => exact ⟨⟨_, _, hprofile, rfl, rfl⟩, _, rfl, hbegins⟩
  · rintro ⟨⟨name, n, hprofile, rfl, rfl⟩, text, rfl, hbegins⟩
    exact .random hprofile hbegins

/-- A sequential definition is sound with a known scope, a width within bounds, and a
textual prefix. -/
theorem sound_sequence_iff {refPrefix : JsValue} {scope : JsonValue} {width : Int} :
    (LooseReference.sequence refPrefix scope width).Sound ↔
      (∃ name ∈ ["none".toList, "calendar-year".toList], scope = .string name) ∧
        (4 ≤ width ∧ width ≤ 18) ∧
          ∃ text, refPrefix = some (.string text) ∧ isReferencePrefix text = true := by
  constructor
  · intro h
    cases h with
    | sequence hscope hwidth hbegins => exact ⟨⟨_, hscope, rfl⟩, hwidth, _, rfl, hbegins⟩
  · rintro ⟨⟨name, hscope, rfl⟩, hwidth, text, rfl, hbegins⟩
    exact .sequence hscope hwidth hbegins

/-- The payload length of a profile is that of the table. -/
theorem lookup_profileLengths_iff {name : Text} {n : Nat} :
    profileLengths.lookup name = some n ↔ (name, n) ∈ profileLengths := by
  constructor
  · intro h
    obtain ⟨before, after, heq, -⟩ := List.lookup_eq_some_iff.mp h
    rw [heq]
    simp
  · have hall : ∀ p ∈ profileLengths, profileLengths.lookup p.1 = some p.2 := by decide
    exact hall (name, n)

/-- An accepted reference is sound when it is of the declared types. -/
theorem registeredReferenceOf_sound_iff {reference : JsonValue} (h : ReferenceValid numbers reference) :
    (registeredReferenceOf numbers reference).Sound ↔ ReferenceDeclared reference := by
  obtain ⟨hbegins, ⟨hrandom, hprofile⟩ | ⟨hsequence, n, hwidth, hrange⟩⟩ := h
  · have hnot := not_isText_of_isText (b := "sequence".toList) hrandom (by decide)
    rw [registeredReferenceOf, if_pos hrandom, sound_random_iff]
    simp only [ReferenceDeclared, hrandom, hnot, true_implies]
    constructor
    · rintro ⟨⟨name, n, hmem, hname, -⟩, -⟩
      exact ⟨⟨name, List.mem_map_of_mem hmem, hname⟩, by simp⟩
    · rintro ⟨⟨name, hmem, hname⟩, -⟩
      obtain ⟨⟨name', n⟩, hpair, rfl⟩ := List.mem_map.mp hmem
      refine ⟨⟨name', n, hpair, hname, ?_⟩, hbegins⟩
      rw [hname, JsonValue.text?, Option.bind_some, lookup_profileLengths_iff]
      exact hpair
  · have hnot := not_isText_of_isText (b := "random".toList) hsequence (by decide)
    rw [registeredReferenceOf, if_neg (by rw [hnot]; decide), sound_sequence_iff]
    simp only [ReferenceDeclared, hsequence, hnot, true_implies, hwidth, hrange, hbegins]
    simp

/-- An accepted definition is sound when it is of the declared types. -/
theorem registeredOf_sound_iff {earlier : List JsonValue} {d : JsonValue}
    (h : Acceptable numbers earlier d) : (registeredOf numbers d).Sound ↔ Declared d := by
  have hpublic : (∃ text, member d "publicPrefix" = some (.string text) ∧ isPublicPrefix text = true) ↔
      ∃ text, member d "publicPrefix" = some (.string text) := by
    constructor
    · rintro ⟨text, htext, -⟩
      exact ⟨text, htext⟩
    · rintro ⟨text, htext⟩
      obtain ⟨-, hempty, text', htext', hvalid⟩ := h.publicPrefix
      rw [htext] at htext' hempty
      obtain rfl : text = text' := by simpa [JsValue.text?, JsonValue.text?] using htext'
      refine ⟨text, htext, ?_⟩
      simp only [isPublicPrefix, hvalid, Bool.and_true]
      by_contra hlength
      obtain rfl : text = [] := by simpa using hlength
      exact hempty ⟨_, rfl, rfl⟩
  have hreference : (∀ reference ∈ (registeredOf numbers d).reference, reference.Sound) ↔
      ∀ reference ∈ member d "reference", ReferenceDeclared reference := by
    rw [registeredOf]
    cases href : member d "reference" with
    | none => simp
    | some reference =>
        have hvalid := h.reference reference href
        simpa using registeredReferenceOf_sound_iff hvalid
  exact and_congr hpublic hreference

/-- The definitions of a supported exchange are registered in order. -/
theorem importRegistry_of_isExchange {exchange : JsonValue} {definitions : List JsonValue}
    (h : IsExchange exchange definitions) :
    importRegistry numbers exchange = registerAll numbers [] definitions := by
  obtain ⟨members, rfl, hversion, hnamespaces⟩ := h
  rw [importRegistry, if_pos hversion, hnamespaces]

/-- Anything else is refused. -/
theorem importRegistry_of_not_isExchange {exchange : JsonValue}
    (h : ∀ definitions, ¬ IsExchange exchange definitions) :
    ∃ error, importRegistry numbers exchange = .error (.identifold error) := by
  unfold importRegistry
  split
  · next members =>
      split
      · next hversion =>
          split
          · next definitions hnamespaces =>
              exact absurd ⟨members, rfl, hversion, hnamespaces⟩ (h definitions)
          · exact ⟨_, rfl⟩
      · exact ⟨_, rfl⟩
  · exact ⟨_, rfl⟩

/-- An exchange has one list of definitions. -/
theorem eq_of_isExchange {exchange : JsonValue} {definitions definitions' : List JsonValue}
    (h : IsExchange exchange definitions) (h' : IsExchange exchange definitions') :
    definitions = definitions' := by
  obtain ⟨members, rfl, -, hnamespaces⟩ := h
  obtain ⟨_, ⟨⟩, -, hnamespaces'⟩ := h'
  exact JsonValue.array.inj (Option.some.inj (hnamespaces.symm.trans hnamespaces'))

/-- A definition is not accepted and stumbled over at once. -/
theorem Acceptable.not_malformed {earlier : List JsonValue} {d : JsonValue}
    (h : Acceptable numbers earlier d) : ¬ Malformed numbers earlier d := by
  intro hmalformed
  have hok := (registerNamespace_iff.1 _).mpr ⟨h, rfl⟩
  rw [registerNamespace_iff.2.mpr hmalformed] at hok
  contradiction

/-- There is one first definition that is not acceptable. -/
theorem eq_of_first_not_acceptable {earlier earlier' rest rest' : List JsonValue} {d d' : JsonValue}
    (heq : earlier ++ d :: rest = earlier' ++ d' :: rest') (hall : AllAcceptable numbers earlier)
    (hall' : AllAcceptable numbers earlier') (hd : ¬ Acceptable numbers earlier d)
    (hd' : ¬ Acceptable numbers earlier' d') : earlier = earlier' ∧ d = d' := by
  rcases List.append_eq_append_iff.mp heq with ⟨between, rfl, hrest⟩ | ⟨between, rfl, hrest⟩
  · cases between with
    | nil => exact ⟨by simp, by simpa using (List.cons.inj hrest).1⟩
    | cons e between =>
        obtain ⟨rfl, -⟩ := List.cons.inj hrest
        exact absurd (hall' earlier d between rfl) hd
  · cases between with
    | nil => exact ⟨by simp, by simpa using (List.cons.inj hrest).1.symm⟩
    | cons e between =>
        obtain ⟨rfl, -⟩ := List.cons.inj hrest
        exact absurd (hall earlier' d' between rfl) hd'

/-- The definitions of an exchange are imported soundly when each of them is safe
behind its predecessors. -/
theorem registerAll_sound_iff {definitions : List JsonValue} :
    SoundImport (registerAll numbers [] definitions) ↔ SafeDefinitions numbers definitions := by
  rcases @allAcceptable_or numbers definitions with hall | ⟨earlier, d, rest, rfl, hall, hd⟩
  · -- all are registered
    have hsound : ∀ d ∈ definitions, (registeredOf numbers d).Sound ↔ Declared d := by
      intro d hd
      obtain ⟨earlier, rest, heq⟩ := List.append_of_mem hd
      exact registeredOf_sound_iff (hall earlier d rest heq)
    rw [registerAll_of_acceptable hall]
    constructor
    · rintro (⟨error, h⟩ | ⟨_, ⟨⟩, h⟩)
      · contradiction
      · exact ⟨fun earlier d rest heq _ => (hall earlier d rest heq).not_malformed,
          fun _ d hd => (hsound d hd).mp (h _ (List.mem_map_of_mem hd))⟩
    · intro h
      refine .inr ⟨_, rfl, List.forall_mem_map.mpr fun d hd => ?_⟩
      exact (hsound d hd).mpr (h.declared hall d hd)
  · -- the loop ends at `d`
    obtain ⟨e, he, hforeign⟩ := @registerAll_of_not_acceptable numbers earlier rest d hall hd
    rw [he]
    constructor
    · rintro (⟨error, h⟩ | ⟨_, h, -⟩)
      · have hwell : ¬ Malformed numbers earlier d := by
          rw [← hforeign, Except.error.inj h]
          simp
        refine ⟨fun earlier' d' rest' heq hall' => ?_, fun hall' => absurd (hall' earlier d rest rfl) hd⟩
        by_cases hd' : Acceptable numbers earlier' d'
        · exact hd'.not_malformed
        · obtain ⟨rfl, rfl⟩ := eq_of_first_not_acceptable heq hall hall' hd hd'
          exact hwell
      · contradiction
    · intro h
      have hwell := h.wellFormed earlier d rest rfl hall
      cases e with
      | foreign => exact absurd (hforeign.mp rfl) hwell
      | identifold error => exact .inl ⟨error, rfl⟩

/-- **`importRegistry` is sound** exactly on exchanges of safe definitions, and
on what is no exchange. -/
theorem importRegistry_sound_iff (numbers : NumberLibrary) (exchange : JsonValue) :
    SoundImport (importRegistry numbers exchange) ↔
      ∀ definitions, IsExchange exchange definitions → SafeDefinitions numbers definitions := by
  by_cases hexchange : ∃ definitions, IsExchange exchange definitions
  · obtain ⟨definitions, h⟩ := hexchange
    rw [importRegistry_of_isExchange h, registerAll_sound_iff]
    constructor
    · intro hsafe definitions' h'
      rwa [← eq_of_isExchange h h']
    · intro hsafe
      exact hsafe definitions h
  · have hnone : ∀ definitions, ¬ IsExchange exchange definitions := fun definitions h =>
      hexchange ⟨definitions, h⟩
    exact iff_of_true (.inl (importRegistry_of_not_isExchange hnone)) fun definitions h =>
      absurd h (hnone definitions)

end Soundness

/-- An exchange of one definition. -/
def exchangeOf (definition : JsonValue) : JsonValue :=
  .object [("version".toList, .number (.integer 1)), ("namespaces".toList, .array [definition])]

/-- A sequential definition with a scope that is none of the two is imported,
and a definition `null` is stumbled over. -/
theorem importRegistry_unsound :
    let definition : JsonValue := .object [("publicPrefix".toList, .string "order".toList),
      ("reference".toList, .object [("prefix".toList, .string "ORD".toList),
        ("strategy".toList, .string "sequence".toList), ("scope".toList, .string "monthly".toList),
        ("width".toList, .number (.integer 6))])]
    ¬ SoundImport (importRegistry decimalNumbers (exchangeOf definition)) ∧
      ¬ SoundImport (importRegistry decimalNumbers (exchangeOf .null)) := by
  intro definition
  have himport : importRegistry decimalNumbers (exchangeOf definition) =
      .ok [⟨some (.string "order".toList), some (.sequence (some (.string "ORD".toList))
        (.string "monthly".toList) 6)⟩] := rfl
  have hnull : importRegistry decimalNumbers (exchangeOf .null) = .error .foreign := rfl
  rw [himport, hnull]
  constructor
  · rintro (⟨error, h⟩ | ⟨_, ⟨⟩, h⟩)
    · contradiction
    · have hsound := (h _ (List.mem_singleton_self _)).2 _ rfl
      obtain ⟨⟨name, hname, heq⟩, -⟩ := sound_sequence_iff.mp hsound
      obtain rfl := JsonValue.string.inj heq
      exact absurd hname (by decide)
  · rintro (⟨error, h⟩ | ⟨_, h, -⟩)
    · simp at h
    · contradiction

end Identifold.Exchange
