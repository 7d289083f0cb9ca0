import Identifold.Exchange
import Identifold.JsonText
import Identifold.PublicId
import Identifold.Reference

/-!
# Identifold.Exchange.Roundtrip

`exportRegistry` of `packages/typescript/src/exchange.ts`, and what
`importRegistry` makes of it.

The export writes the validated definitions with their defaults spelled out,
and leaves out what is derived.  The import validates everything anew, on data
of any shape (`Identifold.Exchange`); on an export it registers the values of
the definitions that were exported, so that every lookup finds the same.

* `allAcceptable_export` — an export passes the validation anew;
* `importRegistry_export` — it is registered as it was exported;
* `parse_stringify_export` — its text is read back.
-/

namespace Identifold.Exchange

/-! ## exports -/

/-- `RandomReferenceProfile`, as it is written. -/
def profileName : RandomReferenceProfile → Text
  | .compact => "compact".toList
  | .high => "high".toList
  | .standard => "standard".toList

/-- The `scope` of a sequential definition, as it is written. -/
def scopeName : SequenceScope → Text
  | .calendarYear => "calendar-year".toList
  | .none => "none".toList

/-- The `reference` of an exported definition. -/
def exportReference : RegisteredReferenceDefinition → JsonValue
  | .random reference => .object [
      ("prefix".toList, .string reference.refPrefix),
      ("profile".toList, .string (profileName reference.profile)),
      ("strategy".toList, .string "random".toList)]
  | .sequence reference => .object [
      ("prefix".toList, .string reference.refPrefix),
      ("scope".toList, .string (scopeName reference.scope)),
      ("strategy".toList, .string "sequence".toList),
      ("width".toList, .number (.integer reference.width))]

/-- An exported definition. -/
def exportDefinition (definition : RegisteredNamespaceDefinition) : JsonValue :=
  match definition.reference with
  | none => .object [("publicPrefix".toList, .string definition.publicPrefix)]
  | some reference => .object [
      ("publicPrefix".toList, .string definition.publicPrefix),
      ("reference".toList, exportReference reference)]

/-- `exportRegistry`. -/
def exportRegistry (registry : NamespaceRegistry) : JsonValue :=
  .object [
    ("version".toList, .number (.integer 1)),
    ("namespaces".toList, .array (registry.definitions.map exportDefinition))]

/-! ## imported registries -/

/-- `getByPublicPrefix` of an imported registry. -/
def getByPublicPrefix (definitions : List LooseDefinition) (publicPrefix : Text) :
    Option LooseDefinition :=
  definitions.find? fun d => sameKey d.publicPrefix (some (.string publicPrefix))

/-- `getByReferencePrefix` of an imported registry, on the upper-case form of
its argument. -/
def getByReferencePrefix (definitions : List LooseDefinition) (upperCase : Text) :
    Option LooseDefinition :=
  definitions.find? fun d => d.referenceKey? = some upperCase

/-- The values of a registered reference definition. -/
def valuesOfReference : RegisteredReferenceDefinition → LooseReference
  | .random reference => .random (some reference.payloadLength) (some (.string reference.refPrefix))
      (.string (profileName reference.profile))
  | .sequence reference => .sequence (some (.string reference.refPrefix))
      (.string (scopeName reference.scope)) reference.width

/-- The values of a registered definition. -/
def valuesOf (definition : RegisteredNamespaceDefinition) : LooseDefinition :=
  ⟨some (.string definition.publicPrefix), definition.reference.map valuesOfReference⟩

/-- An imported registry has the values of a typed one, in its order. -/
def HasValues (definitions : List LooseDefinition) (registry : NamespaceRegistry) : Prop :=
  definitions = registry.definitions.map valuesOf

theorem profileName_injective {a b : RandomReferenceProfile} (h : profileName a = profileName b) :
    a = b := by
  revert h
  cases a <;> cases b <;> decide

theorem scopeName_injective {a b : SequenceScope} (h : scopeName a = scopeName b) : a = b := by
  revert h
  cases a <;> cases b <;> decide

theorem valuesOfReference_injective {r s : RegisteredReferenceDefinition}
    (h : valuesOfReference r = valuesOfReference s) : r = s := by
  cases r with
  | random r =>
      cases s with
      | sequence s => contradiction
      | random s =>
          obtain ⟨rp, rprofile, hr⟩ := r
          obtain ⟨sp, sprofile, hs⟩ := s
          simp only [valuesOfReference, LooseReference.random.injEq, Option.some.injEq,
            JsonValue.string.injEq] at h
          obtain ⟨-, rfl, hprofile⟩ := h
          obtain rfl := profileName_injective hprofile
          rfl
  | sequence r =>
      cases s with
      | random s => contradiction
      | sequence s =>
          obtain ⟨rp, rscope, rwidth, hr, hrw⟩ := r
          obtain ⟨sp, sscope, swidth, hs, hsw⟩ := s
          simp only [valuesOfReference, LooseReference.sequence.injEq, Option.some.injEq,
            JsonValue.string.injEq, Nat.cast_inj] at h
          obtain ⟨rfl, hscope, rfl⟩ := h
          obtain rfl := scopeName_injective hscope
          rfl

/-- The values determine the definition. -/
theorem valuesOf_injective : Function.Injective valuesOf := by
  intro d e h
  obtain ⟨dp, dr, hd⟩ := d
  obtain ⟨ep, er, he⟩ := e
  simp only [valuesOf, LooseDefinition.mk.injEq, Option.some.injEq, JsonValue.string.injEq] at h
  obtain ⟨rfl, href⟩ := h
  obtain rfl := Option.map_injective (fun _ _ => valuesOfReference_injective) href
  rfl

/-- A registry is determined by its values. -/
theorem HasValues.eq {definitions : List LooseDefinition} {a b : NamespaceRegistry}
    (ha : HasValues definitions a) (hb : HasValues definitions b) : a = b := by
  have h : a.definitions = b.definitions :=
    List.map_injective_iff.mpr valuesOf_injective (ha.symm.trans hb)
  obtain ⟨da, ha₁, ha₂⟩ := a
  obtain ⟨db, hb₁, hb₂⟩ := b
  simp only at h
  subst h
  rfl

/-! ## exports are acceptable -/

section Acceptable

variable {numbers : NumberLibrary} {d : RegisteredNamespaceDefinition}

theorem member_publicPrefix (d : RegisteredNamespaceDefinition) :
    member (exportDefinition d) "publicPrefix" = some (.string d.publicPrefix) := by
  unfold exportDefinition
  cases d.reference <;> rfl

theorem member_reference (d : RegisteredNamespaceDefinition) :
    member (exportDefinition d) "reference" = d.reference.map exportReference := by
  unfold exportDefinition
  cases d.reference <;> rfl

theorem member_prefix (r : RegisteredReferenceDefinition) :
    member (exportReference r) "prefix" = some (.string r.refPrefix) := by
  cases r <;> rfl

/-- An exported reference prefix is the one it is filed under. -/
theorem refPrefixOf_exportDefinition (d : RegisteredNamespaceDefinition) :
    refPrefixOf (exportDefinition d) = d.refPrefix? := by
  rw [refPrefixOf, member_reference, RegisteredNamespaceDefinition.refPrefix?]
  cases d.reference with
  | none => rfl
  | some r =>
      simp only [Option.map_some, Option.bind_some, member_prefix,
        asciiUpper_refPrefix r.refPrefix_valid]

/-- An exported reference is valid. -/
theorem referenceValid_exportReference (r : RegisteredReferenceDefinition) :
    ReferenceValid numbers (exportReference r) := by
  refine ⟨⟨r.refPrefix, member_prefix r, r.refPrefix_valid⟩, ?_⟩
  cases r with
  | random r =>
      refine .inl ⟨rfl, profileName r.profile, rfl, ?_⟩
      cases r.profile <;> rfl
  | sequence r =>
      have hwidth := r.width_valid
      exact .inr ⟨rfl, r.width, rfl, by omega, by omega⟩

/-- An exported public prefix is valid. -/
theorem publicPrefixValid_exportDefinition (d : RegisteredNamespaceDefinition) :
    PublicPrefixValid numbers (member (exportDefinition d) "publicPrefix") := by
  have hvalid := d.publicPrefix_valid
  have hascii : IsAscii d.publicPrefix := fun c hc => (publicPrefix_facts hvalid c hc).1
  simp only [isPublicPrefix, Bool.and_eq_true, decide_eq_true_eq] at hvalid
  obtain ⟨hne, htype⟩ := hvalid
  have hlength : member (.string d.publicPrefix) "length" =
      some (.number (.integer d.publicPrefix.length)) := by
    rw [← utf16Length_of_isAscii hascii]
    rfl
  rw [member_publicPrefix]
  refine ⟨by simp [IsNullish], ?_, d.publicPrefix, rfl, htype⟩
  rw [not_isEmpty_some_iff, hlength, isInteger]
  simpa using hne

/-- **The definitions of a registry are acceptable**, one behind the others. -/
theorem allAcceptable_export (registry : NamespaceRegistry) :
    AllAcceptable numbers (registry.definitions.map exportDefinition) := by
  intro earlier exported rest hsplit
  obtain ⟨before, after, hdefinitions, rfl, hafter⟩ := List.map_eq_append_iff.mp hsplit
  obtain ⟨d, after', rfl, rfl, -⟩ := List.map_eq_cons_iff.mp hafter
  have hnodup := registry.publicPrefixes_nodup
  have hfree := registry.refPrefixes_free
  rw [hdefinitions] at hnodup hfree
  rw [List.map_append, List.map_cons, List.nodup_append] at hnodup
  refine ⟨publicPrefixValid_exportDefinition d, ?_, ?_, ?_⟩
  · intro e he
    obtain ⟨a, ha, rfl⟩ := List.mem_map.mp he
    rw [member_publicPrefix, member_publicPrefix, sameKey]
    have hne := hnodup.2.2 _ (List.mem_map_of_mem ha) d.publicPrefix (by simp)
    simpa using hne
  · intro reference hreference
    rw [member_reference] at hreference
    obtain ⟨r, -, rfl⟩ := Option.map_eq_some_iff.mp hreference
    exact referenceValid_exportReference r
  · intro p hp e he q hq
    obtain ⟨a, ha, rfl⟩ := List.mem_map.mp he
    rw [refPrefixOf_exportDefinition] at hp hq
    exact (List.pairwise_append.mp hfree).2.2 a ha d (by simp) q hq p hp

/-- The values of an exported definition are registered. -/
theorem registeredOf_exportDefinition (d : RegisteredNamespaceDefinition) :
    registeredOf numbers (exportDefinition d) = valuesOf d := by
  rw [registeredOf, member_publicPrefix, member_reference, valuesOf, Option.map_map]
  congr 1
  refine Option.map_congr fun r _ => ?_
  cases r with
  | random r =>
      obtain ⟨p, profile, hp⟩ := r
      cases profile <;> rfl
  | sequence r =>
      obtain ⟨p, scope, width, hp, hw⟩ := r
      cases scope <;> rfl

end Acceptable

/-- **The import of an export** registers the exported values. -/
theorem importRegistry_export (numbers : NumberLibrary) (registry : NamespaceRegistry) :
    importRegistry numbers (exportRegistry registry) = .ok (registry.definitions.map valuesOf) := by
  have hexchange : IsExchange (exportRegistry registry)
      (registry.definitions.map exportDefinition) := ⟨_, rfl, rfl, rfl⟩
  rw [importRegistry_of_isExchange hexchange, registerAll_of_acceptable (allAcceptable_export registry),
    List.map_map]
  congr 1
  exact List.map_congr_left fun d _ => registeredOf_exportDefinition d

/-! ## lookups -/

section Lookups

variable {definitions : List LooseDefinition} {registry : NamespaceRegistry}

theorem getByPublicPrefix_of_hasValues (h : HasValues definitions registry) (p : Text) :
    getByPublicPrefix definitions p = (registry.getByPublicPrefix p).map valuesOf := by
  have hkey : (fun d : LooseDefinition => sameKey d.publicPrefix (some (.string p))) ∘ valuesOf =
      fun d => decide (d.publicPrefix = p) := by
    funext d
    rfl
  rw [h, getByPublicPrefix, List.find?_map, hkey]
  rfl

/-- A definition and its values are filed under one key. -/
theorem referenceKey?_valuesOf (d : RegisteredNamespaceDefinition) :
    (valuesOf d).referenceKey? = d.referenceKey? := by
  unfold LooseDefinition.referenceKey? RegisteredNamespaceDefinition.referenceKey?
    RegisteredNamespaceDefinition.refPrefix? valuesOf
  cases d.reference with
  | none => rfl
  | some r => cases r <;> rfl

theorem getByReferencePrefix_of_hasValues (h : HasValues definitions registry) (upperCase : Text) :
    getByReferencePrefix definitions upperCase =
      (registry.definitions.find? (·.referenceKey? = some upperCase)).map valuesOf := by
  have hkey : (fun d : LooseDefinition => decide (d.referenceKey? = some upperCase)) ∘ valuesOf =
      fun d => decide (d.referenceKey? = some upperCase) := by
    funext d
    simp only [Function.comp_apply, referenceKey?_valuesOf]
  rw [h, getByReferencePrefix, List.find?_map, hkey]

end Lookups

/-! ## the text of an export -/

/-- Strings are written. -/
theorem exists_stringify_string (v : Text) : ∃ text, JsonText.stringify (.string v) = some text :=
  ⟨_, rfl⟩

/-- So are small numbers. -/
theorem exists_stringify_natural {n : Nat} (h : n < 2 ^ 53) :
    ∃ text, JsonText.stringify (.number (.integer n)) = some text :=
  ⟨_, by rw [JsonText.stringify, JsonText.numberText, Int.natAbs_natCast, if_pos h]⟩

/-- An exported reference is written, and its names are distinct. -/
theorem exportReference_text (r : RegisteredReferenceDefinition) :
    (∃ text, JsonText.stringify (exportReference r) = some text) ∧
      JsonText.DistinctNames (exportReference r) := by
  cases r with
  | random r =>
      refine ⟨JsonText.exists_stringify_object ?_, by simp [exportReference, JsonText.DistinctNames,
        JsonText.MembersDistinct]⟩
      simp [exists_stringify_string]
  | sequence r =>
      have hwidth : r.width < 2 ^ 53 := by have := r.width_valid.2; omega
      refine ⟨JsonText.exists_stringify_object ?_, by simp [exportReference, JsonText.DistinctNames,
        JsonText.MembersDistinct]⟩
      simp [exists_stringify_string, exists_stringify_natural hwidth]

/-- So is an exported definition. -/
theorem exportDefinition_text (d : RegisteredNamespaceDefinition) :
    (∃ text, JsonText.stringify (exportDefinition d) = some text) ∧
      JsonText.DistinctNames (exportDefinition d) := by
  unfold exportDefinition
  cases d.reference with
  | none =>
      exact ⟨JsonText.exists_stringify_object (by simp [exists_stringify_string]),
        by simp [JsonText.DistinctNames, JsonText.MembersDistinct]⟩
  | some r =>
      obtain ⟨htext, hdistinct⟩ := exportReference_text r
      exact ⟨JsonText.exists_stringify_object (by simp [exists_stringify_string, htext]),
        by simp [JsonText.DistinctNames, JsonText.MembersDistinct, hdistinct]⟩

/-- **An export survives its text**: it is written, and read back. -/
theorem parse_stringify_export (registry : NamespaceRegistry) :
    ∃ text, JsonText.stringify (exportRegistry registry) = some text ∧
      JsonText.parse text = some (exportRegistry registry) := by
  have helements : ∀ e ∈ registry.definitions.map exportDefinition,
      (∃ text, JsonText.stringify e = some text) ∧ JsonText.DistinctNames e := by
    intro e he
    obtain ⟨d, -, rfl⟩ := List.mem_map.mp he
    exact exportDefinition_text d
  have harray := JsonText.exists_stringify_array fun e he => (helements e he).1
  have hdistinct : JsonText.DistinctNames (exportRegistry registry) := by
    have := JsonText.elementsDistinct_iff.mpr fun e he => (helements e he).2
    simp [exportRegistry, JsonText.DistinctNames, JsonText.MembersDistinct, this]
  obtain ⟨text, htext⟩ : ∃ text, JsonText.stringify (exportRegistry registry) = some text := by
    refine JsonText.exists_stringify_object ?_
    have hone := exists_stringify_natural (n := 1) (by decide)
    simpa [harray] using hone
  exact ⟨text, htext, JsonText.parse_stringify htext hdistinct⟩

/-- **Registry exchange**: the import of an export, also through its text, has
the exported definitions in their order.  Every lookup finds the same, whatever
text a reference prefix is converted to, and a registry of the imported values
is the one that was exported, so that references are parsed alike. -/
theorem importRegistry_exportRegistry (numbers : NumberLibrary) {definitions : List NamespaceDefinition}
    {registry : NamespaceRegistry} (h : createNamespaceRegistry definitions = .ok registry) :
    (∃ text, JsonText.stringify (exportRegistry registry) = some text ∧
      JsonText.parse text = some (exportRegistry registry)) ∧
    ∃ imported, importRegistry numbers (exportRegistry registry) = .ok imported ∧
      HasValues imported registry ∧
      (∀ p, getByPublicPrefix imported p = (registry.getByPublicPrefix p).map valuesOf) ∧
      (∀ upperCase, getByReferencePrefix imported upperCase =
        (registry.definitions.find? (·.referenceKey? = some upperCase)).map valuesOf) ∧
      ∀ typed, HasValues imported typed → createNamespaceRegistry definitions = .ok typed ∧
        typed.definitions = registry.definitions ∧
        ∀ v, parseReference v typed = parseReference v registry := by
  have hvalues : HasValues (registry.definitions.map valuesOf) registry := rfl
  refine ⟨parse_stringify_export registry, _, importRegistry_export numbers registry, hvalues,
    getByPublicPrefix_of_hasValues hvalues, getByReferencePrefix_of_hasValues hvalues, ?_⟩
  intro typed htyped
  rw [htyped.eq hvalues]
  exact ⟨h, rfl, fun v => rfl⟩

/-- The registry of the package's tests survives the exchange. -/
theorem importRegistry_exportRegistry_sample :
    createNamespaceRegistry sampleDefinitions = .ok sampleRegistry ∧
      ∃ imported, importRegistry decimalNumbers (exportRegistry sampleRegistry) = .ok imported ∧
        HasValues imported sampleRegistry := by
  have h : createNamespaceRegistry sampleDefinitions = .ok sampleRegistry := rfl
  obtain ⟨-, imported, himport, hvalues, -⟩ := importRegistry_exportRegistry decimalNumbers h
  exact ⟨h, imported, himport, hvalues⟩

end Identifold.Exchange
