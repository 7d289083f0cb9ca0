import Identifold.Reference.Spelling

/-!
# Identifold.Reference.Permutation

The order of the definitions does not matter.

`createNamespaceRegistry` compares every new definition with the ones before
it, in both directions; the lists it accepts are therefore those whose
definitions are valid one by one and free of each other two by two
(`createNamespaceRegistry_ok_iff`), in any order.  The parser locates a
namespace by a scan for the first definition that fits, and by a lookup; both
find the only definition that fits, so they do not see the order either.
-/

namespace Identifold

/-! ## written definitions -/

/-- `reference.prefix`. -/
def ReferenceDefinition.refPrefix : ReferenceDefinition → Text
  | .random refPrefix _ => refPrefix
  | .sequence refPrefix _ _ => refPrefix

/-- `definition.reference?.prefix`. -/
def NamespaceDefinition.refPrefix? (definition : NamespaceDefinition) : Option Text :=
  definition.reference.map ReferenceDefinition.refPrefix

theorem refPrefix_of_registerReference {reference : ReferenceDefinition}
    {r : RegisteredReferenceDefinition} (h : registerReference reference = .ok r) :
    r.refPrefix = reference.refPrefix := by
  cases reference with
  | random refPrefix profile =>
      rw [registerReference] at h
      split at h
      · rw [← Except.ok.inj h]
        rfl
      · contradiction
  | sequence refPrefix scope width =>
      rw [registerReference] at h
      split at h
      · cases width with
        | other => contradiction
        | integer n =>
            simp only at h
            split at h
            · rw [← Except.ok.inj h]
              rfl
            · contradiction
      · contradiction

/-- Registering keeps both prefixes. -/
theorem Registers.prefixes {definition : NamespaceDefinition} {d : RegisteredNamespaceDefinition}
    (h : Registers definition d) :
    definition.publicPrefix = d.publicPrefix ∧ definition.refPrefix? = d.refPrefix? := by
  obtain ⟨hpublic, href⟩ := h
  refine ⟨hpublic.symm, ?_⟩
  rw [NamespaceDefinition.refPrefix?, RegisteredNamespaceDefinition.refPrefix?]
  cases hreference : definition.reference with
  | none =>
      rw [hreference] at href
      rw [href]
      rfl
  | some reference =>
      rw [hreference] at href
      obtain ⟨r, hr, hregister⟩ := href
      rw [hr, Option.map_some, Option.map_some, refPrefix_of_registerReference hregister]

/-- The prefixes of accepted definitions are those of the registry. -/
theorem map_prefixes_of_registers {definitions : List NamespaceDefinition}
    {registered : List RegisteredNamespaceDefinition}
    (h : List.Forall₂ Registers definitions registered) :
    definitions.map (·.publicPrefix) = registered.map (·.publicPrefix) ∧
      definitions.map (·.refPrefix?) = registered.map (·.refPrefix?) := by
  induction h with
  | nil => exact ⟨rfl, rfl⟩
  | cons hd _ ih =>
      obtain ⟨hpublic, href⟩ := hd.prefixes
      simp [hpublic, href, ih]

/-! ## permuted registries -/

section Permuted

variable {registry registry' : NamespaceRegistry}
  (hperm : registry.definitions.Perm registry'.definitions)

include hperm

theorem getByReferencePrefix_of_perm (p : Text) :
    registry.getByReferencePrefix p = registry'.getByReferencePrefix p := by
  refine Rows.find?_eq_of_perm ?_ hperm
  intro a ha b hb hka hkb
  simp only [referenceKey?_eq_refPrefix?, decide_eq_true_eq] at hka hkb
  exact NamespaceRegistry.eq_of_refPrefix ha hb hka hkb (.inl List.prefix_rfl)

/-- Both branches of the location find the same definition. -/
theorem locateNamespace_of_perm (value : Text) :
    locateNamespace value registry = locateNamespace value registry' := by
  have hscan : (registry.definitions.find? fun d => d.refPrefix?.any (·.isPrefixOf value)) =
      registry'.definitions.find? fun d => d.refPrefix?.any (·.isPrefixOf value) := by
    ext d
    rw [find?_refPrefix_eq_some_iff, find?_refPrefix_eq_some_iff, hperm.mem_iff]
  rw [locateNamespace, locateNamespace, getByReferencePrefix_of_perm hperm, hscan]

/-- **Parsing does not see the order of the definitions.** -/
theorem parseReference_of_perm (v : Text) :
    parseReference v registry = parseReference v registry' := by
  rw [parseReference, parseReference, locateNamespace_of_perm hperm]

end Permuted

/-- Permuted definitions are registered as a permutation. -/
theorem createNamespaceRegistry_of_perm {definitions definitions' : List NamespaceDefinition}
    {registry : NamespaceRegistry} (hcreate : createNamespaceRegistry definitions = .ok registry)
    (hperm : definitions.Perm definitions') : ∃ registry',
      createNamespaceRegistry definitions' = .ok registry' ∧
        registry.definitions.Perm registry'.definitions := by
  have hregisters := createNamespaceRegistry_ok_iff.mp hcreate
  obtain ⟨registered', hregisters', hperm'⟩ := List.perm_comp_forall₂ hperm.symm hregisters
  refine ⟨⟨registered', ?_, ?_⟩, createNamespaceRegistry_ok_iff.mpr hregisters', hperm'.symm⟩
  · exact (hperm'.map (·.publicPrefix)).nodup_iff.mpr registry.publicPrefixes_nodup
  · exact (hperm'.pairwise_iff refPrefixFree_symm).mpr registry.refPrefixes_free

/-- A definition fits a text in the scan of the parser. -/
def FitsHyphenless (d : RegisteredNamespaceDefinition) (v : Text) : Prop :=
  ∃ p ∈ d.refPrefix?, p <+: asciiUpper v

/-- **Order-independence**: accepted definitions have distinct public prefixes
and prefix-free reference prefixes; every permutation of them is accepted, and
parses every text with the same outcome; and no two definitions fit one text
without hyphens. -/
theorem registry_order_independent {definitions definitions' : List NamespaceDefinition}
    {registry : NamespaceRegistry} (hcreate : createNamespaceRegistry definitions = .ok registry)
    (hperm : definitions.Perm definitions') :
    (definitions.map (·.publicPrefix)).Nodup ∧
      (definitions.Pairwise fun a b => ∀ p ∈ a.refPrefix?, ∀ q ∈ b.refPrefix?, PrefixFree p q) ∧
      (∃ registry', createNamespaceRegistry definitions' = .ok registry' ∧
        ∀ v, parseReference v registry = parseReference v registry') ∧
      ∀ v, '-' ∉ v → ∀ d ∈ registry.definitions, ∀ e ∈ registry.definitions,
        FitsHyphenless d v → FitsHyphenless e v → d = e := by
  obtain ⟨hpublic, href⟩ := map_prefixes_of_registers (createNamespaceRegistry_ok_iff.mp hcreate)
  refine ⟨hpublic ▸ registry.publicPrefixes_nodup, ?_, ?_, ?_⟩
  · have hfree : (registry.definitions.map (·.refPrefix?)).Pairwise fun a b =>
        ∀ p ∈ a, ∀ q ∈ b, PrefixFree p q := List.pairwise_map.mpr registry.refPrefixes_free
    rw [← href] at hfree
    exact List.pairwise_map.mp hfree
  · obtain ⟨registry', hcreate', hperm'⟩ := createNamespaceRegistry_of_perm hcreate hperm
    exact ⟨registry', hcreate', parseReference_of_perm hperm'⟩
  · rintro v - d hd e he ⟨p, hp, hpv⟩ ⟨q, hq, hqv⟩
    exact NamespaceRegistry.eq_of_refPrefix hd he hp hq (List.prefix_or_prefix_of_prefix hpv hqv)

/-- The definitions of the tests, the other way round. -/
theorem registry_order_independent_sample :
    ((sampleDefinitions.map (·.publicPrefix)).Nodup ∧
      (sampleDefinitions.Pairwise fun a b => ∀ p ∈ a.refPrefix?, ∀ q ∈ b.refPrefix?,
        PrefixFree p q) ∧
      (∃ registry', createNamespaceRegistry sampleDefinitions.reverse = .ok registry' ∧
        ∀ v, parseReference v sampleRegistry = parseReference v registry') ∧
      ∀ v, '-' ∉ v → ∀ d ∈ sampleRegistry.definitions, ∀ e ∈ sampleRegistry.definitions,
        FitsHyphenless d v → FitsHyphenless e v → d = e) :=
  @registry_order_independent _ _ sampleRegistry rfl (List.reverse_perm _).symm

end Identifold
