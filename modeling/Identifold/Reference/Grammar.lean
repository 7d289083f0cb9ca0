import Identifold.Reference.Spelling

/-!
# Identifold.Reference.Grammar

The grammar of human references as `spec/human-reference.md` states it, and
how far `parseReference` implements it.

A reference is written fully hyphenated or without any hyphen; partially
hyphenated input is invalid.  The parser skips its hyphenation test when the
*located body* has no hyphen, so one partial form slips through: a hyphen
after the prefix and none in the body.  On every other text, parser and
grammar agree.
-/

namespace Identifold

open Separated RegisteredReferenceDefinition

/-- The specified texts of a registry: up to ASCII case, a registered prefix
followed by the hyphenated form, or by the same symbols without hyphens. -/
def MatchesReferenceGrammar (registry : NamespaceRegistry) (v : Text) : Prop :=
  ∃ d ∈ registry.definitions, ∃ r, d.reference = some r ∧ ∃ raw, r.IsSpelledPayload raw ∧
    (asciiUpper v = r.refPrefix ++ '-' :: r.hyphenatedBody raw ∨
      asciiUpper v = r.refPrefix ++ r.hyphenlessBody raw)

/-- The partial form: one hyphen, after the prefix. -/
def IsHyphenatedAfterPrefixOnly (registry : NamespaceRegistry) (v : Text) : Prop :=
  ∃ d ∈ registry.definitions, ∃ r, d.reference = some r ∧ ∃ raw, r.IsSpelledPayload raw ∧
    asciiUpper v = r.refPrefix ++ '-' :: r.hyphenlessBody raw

/-- The parser accepts the grammar and the one partial form. -/
theorem parseReference_isOk_iff {registry : NamespaceRegistry} {v : Text} :
    (∃ result, parseReference v registry = .ok result) ↔
      MatchesReferenceGrammar registry v ∨ IsHyphenatedAfterPrefixOnly registry v := by
  simp only [parseReference_ok_iff]
  constructor
  · rintro ⟨_, d, hd, r, hr, raw, hraw, h | h | h, rfl⟩
    · exact .inl ⟨d, hd, r, hr, raw, hraw, .inr h⟩
    · exact .inr ⟨d, hd, r, hr, raw, hraw, h⟩
    · exact .inl ⟨d, hd, r, hr, raw, hraw, .inl h⟩
  · rintro (⟨d, hd, r, hr, raw, hraw, h | h⟩ | ⟨d, hd, r, hr, raw, hraw, h⟩)
    · exact ⟨_, d, hd, r, hr, raw, hraw, .inr (.inr h), rfl⟩
    · exact ⟨_, d, hd, r, hr, raw, hraw, .inl h, rfl⟩
    · exact ⟨_, d, hd, r, hr, raw, hraw, .inr (.inl h), rfl⟩

/-- The partial form is outside the grammar: its hyphen rules out the
hyphenless form, and what follows that hyphen has none of the hyphens of the
hyphenated one. -/
theorem not_matchesReferenceGrammar_of_partial {registry : NamespaceRegistry} {v : Text}
    (h : IsHyphenatedAfterPrefixOnly registry v) : ¬ MatchesReferenceGrammar registry v := by
  obtain ⟨d, hd, r, hr, raw, hraw, hv⟩ := h
  rintro ⟨e, he, r', hr', raw', hraw', hv' | hv'⟩
  · have hbody : r.hyphenlessBody raw = r'.hyphenatedBody raw' := by
      have hcut := (takeWhile_of_not_mem (hyphen_not_mem_refPrefix r.refPrefix_valid)
        (r.hyphenlessBody raw)).2
      rw [← hv, hv', (takeWhile_of_not_mem (hyphen_not_mem_refPrefix r'.refPrefix_valid) _).2] at hcut
      exact hcut.symm
    exact hyphen_not_mem_hyphenlessBody r hraw (hbody ▸ hyphen_mem_hyphenatedBody r' hraw')
  · have hmem : '-' ∈ r'.refPrefix ++ r'.hyphenlessBody raw' := by
      rw [← hv', hv]; simp
    rcases List.mem_append.mp hmem with h | h
    · exact hyphen_not_mem_refPrefix r'.refPrefix_valid h
    · exact hyphen_not_mem_hyphenlessBody r' hraw' h

/-- **Acceptance**: parser and grammar agree on exactly the texts that are not
written with a hyphen after the prefix only. -/
theorem parseReference_accepts_grammar_iff (registry : NamespaceRegistry) (v : Text) :
    ((∃ result, parseReference v registry = .ok result) ↔ MatchesReferenceGrammar registry v) ↔
      ¬ IsHyphenatedAfterPrefixOnly registry v := by
  rw [parseReference_isOk_iff]
  constructor
  · intro h hpartial
    exact not_matchesReferenceGrammar_of_partial hpartial (h.mp (.inr hpartial))
  · intro hpartial
    exact ⟨fun h => h.resolve_right hpartial, .inl⟩

/-- `ORD-7K4M2P8Q3D9` is accepted although it is partially hyphenated. -/
theorem parseReference_accepts_partial_hyphenation :
    ¬ ((∃ result, parseReference "ORD-7K4M2P8Q3D9".toList sampleRegistry = .ok result) ↔
      MatchesReferenceGrammar sampleRegistry "ORD-7K4M2P8Q3D9".toList) := by
  have hpartial : IsHyphenatedAfterPrefixOnly sampleRegistry "ORD-7K4M2P8Q3D9".toList := by
    refine ⟨orderDefinition, by decide, .random orderReference, rfl, "7K4M2P8Q3D".toList, ?_, ?_⟩
    · have hdata : ∀ c ∈ "7K4M2P8Q3D".toList, c ∈ dataAlphabet := by decide
      exact ⟨by decide, fun c hc => .inl (hdata c hc)⟩
    · decide
  intro h
  exact not_matchesReferenceGrammar_of_partial hpartial
    (h.mp (parseReference_isOk_iff.mpr (.inr hpartial)))

end Identifold
