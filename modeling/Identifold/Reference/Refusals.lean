import Identifold.Reference.Grammar

/-!
# Identifold.Reference.Refusals

The codes with which `parseReference` refuses a text.

Up to the location step the parser throws `invalid_ref` and
`unknown_namespace`.  Behind it, the length, symbol and checksum tests have
codes of their own; the hyphenation test throws `invalid_ref` once more.
-/

namespace Identifold

open Separated RegisteredReferenceDefinition

/-- The characters and the length of a reference, as the parser tests them
before it looks for a namespace. -/
def IsReferenceText (v : Text) : Prop :=
  v.length ≠ 0 ∧ utf16Length v ≤ 100 ∧ ∀ c ∈ v, isReferenceCharacter c = true

/-- The prefix of a text is that of a registered reference. -/
def LocatesNamespace (registry : NamespaceRegistry) (v : Text) : Prop :=
  ∃ body d, locateNamespace (asciiUpper v) registry = .ok (body, d)

/-- A body with the right number of symbols and hyphens in other places than
the canonical ones. -/
def IsMishyphenated (r : RegisteredReferenceDefinition) (body : Text) : Prop :=
  (strip '-' body).length = r.payloadLength + 1 ∧ '-' ∈ body ∧
    (body.splitOn '-').map List.length ≠ r.groupLengths ++ [1]

/-- No code of a test up to the location step. -/
def IsLateCode (code : IdentifoldErrorCode) : Prop := code ≠ .invalidRef ∧ code ≠ .unknownNamespace

section Bodies

variable {body publicPrefix : Text} {e : IdentifoldError}

theorem calculateReferenceCheckSymbol_error {payload : Text}
    (h : calculateReferenceCheckSymbol payload = .error e) : IsLateCode e.code := by
  unfold calculateReferenceCheckSymbol at h
  split at h
  · rw [← Except.error.inj h]
    exact ⟨by decide, by decide⟩
  · rcases bind_eq_error_iff.mp h with h | ⟨remainder, -, h⟩
    · rw [checkRemainder_error _ _ _ _ h]
      exact ⟨by decide, by decide⟩
    · contradiction

theorem calculateSequentialCheckSymbol_error {payload : Text}
    (h : calculateSequentialCheckSymbol payload = .error e) : IsLateCode e.code := by
  unfold calculateSequentialCheckSymbol at h
  split at h
  · rw [← Except.error.inj h]
    exact ⟨by decide, by decide⟩
  · rcases bind_eq_error_iff.mp h with h | ⟨remainder, -, h⟩
    · rw [checkRemainder_error _ _ _ _ h]
      exact ⟨by decide, by decide⟩
    · contradiction

/-- The two tests shared by both strategies. -/
theorem parseBody_error {α : Type} {r : RegisteredReferenceDefinition} {length hyphenation : String}
    {rest : Except IdentifoldError α}
    (hrest : ∀ e, rest = .error e → IsLateCode e.code)
    (h : (ensure ((strip '-' body).length = r.payloadLength + 1)
        (⟨.invalidRefLength, length⟩ : IdentifoldError) >>= fun _ =>
      validateGroupLengths (r.groupLengths ++ [1]) hyphenation body >>= fun _ => rest) = .error e) :
    (e.code = .invalidRef ↔ IsMishyphenated r body) ∧ e.code ≠ .unknownNamespace := by
  simp only [validateGroupLengths, bind_eq_error_iff, ensure_eq_error_iff, ensure_eq_ok_iff] at h
  rcases h with ⟨hlength, rfl⟩ | ⟨_, hlength, ⟨hform, rfl⟩ | ⟨_, hform, h⟩⟩
  · exact ⟨iff_of_false (by simp) fun h => hlength h.1, by simp⟩
  · rw [not_or, not_not] at hform
    exact ⟨iff_of_true rfl ⟨hlength, hform⟩, by simp⟩
  · have hlate := hrest e h
    refine ⟨iff_of_false hlate.1 ?_, hlate.2⟩
    rintro ⟨-, hhyphen, hgroups⟩
    exact hform.elim (fun hno => hno hhyphen) hgroups

theorem parseRandomReference_error {r : RegisteredRandomReferenceDefinition}
    (h : parseRandomReference body publicPrefix r = .error e) :
    (e.code = .invalidRef ↔ IsMishyphenated (random r) body) ∧ e.code ≠ .unknownNamespace := by
  refine parseBody_error (r := random r) (fun e he => ?_) h
  simp only [normalizePayload, bind_eq_error_iff, ensure_eq_error_iff] at he
  rcases he with (⟨-, rfl⟩ | ⟨_, -, he⟩) | ⟨_, -, ⟨-, rfl⟩ | ⟨_, -, he | ⟨_, -, ⟨-, rfl⟩ | ⟨_, -, he⟩⟩⟩⟩
  · exact ⟨by simp, by simp⟩
  · contradiction
  · exact ⟨by simp, by simp⟩
  · exact calculateReferenceCheckSymbol_error he
  · exact ⟨by simp, by simp⟩
  · contradiction

theorem parseSequentialReference_error {r : RegisteredSequentialReferenceDefinition}
    (h : parseSequentialReference body publicPrefix r = .error e) :
    (e.code = .invalidRef ↔ IsMishyphenated (sequence r) body) ∧ e.code ≠ .unknownNamespace := by
  have hexpected : (if r.hasScope then [4, r.width, 1] else [r.width, 1]) =
      (sequence r).groupLengths ++ [1] := by
    simp only [groupLengths]
    split <;> rfl
  rw [parseSequentialReference, validateSequentialHyphenation, hexpected] at h
  refine parseBody_error (r := sequence r) (fun e he => ?_) h
  simp only [bind_eq_error_iff, ensure_eq_error_iff] at he
  rcases he with ⟨-, rfl⟩ | ⟨_, -, he | ⟨_, -, ⟨-, rfl⟩ | ⟨_, -, he⟩⟩⟩
  · exact ⟨by simp, by simp⟩
  · exact calculateSequentialCheckSymbol_error he
  · exact ⟨by simp, by simp⟩
  · contradiction

end Bodies

section Parser

variable {registry : NamespaceRegistry} {v : Text} {e : IdentifoldError}

/-- A located definition has a reference. -/
theorem reference_of_locateNamespace {body : Text} {d : RegisteredNamespaceDefinition}
    (h : locateNamespace (asciiUpper v) registry = .ok (body, d)) :
    ∃ r, d.reference = some r := by
  obtain ⟨-, r, hr, -⟩ := (locateNamespace_ok_iff (asciiUpper_asciiUpper v)).mp h
  exact ⟨r, hr⟩

theorem locateNamespace_error (h : locateNamespace v registry = .error e) :
    e.code = .unknownNamespace := by
  unfold locateNamespace at h
  split at h
  · split at h
    · contradiction
    · rw [← Except.error.inj h]
  · split at h
    · contradiction
    · rw [← Except.error.inj h]

/-- **The codes of `parseReference`**: `unknown_namespace` where the location
step fails, and `invalid_ref` on both sides of it. -/
theorem parseReference_error (h : parseReference v registry = .error e) :
    (e.code = .invalidRef ↔ ¬ IsReferenceText v ∨ ∃ body d r,
      locateNamespace (asciiUpper v) registry = .ok (body, d) ∧ d.reference = some r ∧
        IsMishyphenated r body) ∧
      (e.code = .unknownNamespace ↔ IsReferenceText v ∧ ¬ LocatesNamespace registry v) := by
  simp only [parseReference, bind_eq_error_iff, ensure_eq_error_iff, ensure_eq_ok_iff,
    Prod.exists] at h
  rcases h with ⟨htext, rfl⟩ | ⟨_, htext, h | ⟨body, d, hlocate, h⟩⟩
  · exact ⟨iff_of_true rfl (.inl htext), iff_of_false (by simp) fun h => htext h.1⟩
  · have hcode := locateNamespace_error h
    have hnone : ¬ LocatesNamespace registry v := by
      rintro ⟨body, d, hlocate⟩
      rw [h] at hlocate
      contradiction
    rw [hcode]
    refine ⟨iff_of_false (by decide) ?_, iff_of_true rfl ⟨htext, hnone⟩⟩
    rintro (hrefused | ⟨body, d, r, hlocate, -⟩)
    · exact hrefused htext
    · exact hnone ⟨body, d, hlocate⟩
  · -- the located body decides
    obtain ⟨r, hr⟩ := reference_of_locateNamespace hlocate
    have hbody : (e.code = .invalidRef ↔ IsMishyphenated r body) ∧ e.code ≠ .unknownNamespace := by
      rw [hr] at h
      cases r with
      | random r => exact parseRandomReference_error h
      | sequence r => exact parseSequentialReference_error h
    refine ⟨hbody.1.trans ⟨fun h => .inr ⟨body, d, r, hlocate, hr, h⟩, ?_⟩,
      iff_of_false hbody.2 fun h => h.2 ⟨body, d, hlocate⟩⟩
    rintro (hrefused | ⟨body', d', r', hlocate', hr', h⟩)
    · exact absurd htext hrefused
    · obtain ⟨rfl, rfl⟩ := Prod.mk.inj (Except.ok.inj (hlocate.symm.trans hlocate'))
      rwa [Option.some.inj (hr.symm.trans hr')]

/-- A text that is read has the characters of a reference, and a body in the
right places behind a registered prefix. -/
theorem located_of_parseReference {result : ParsedReference}
    (h : parseReference v registry = .ok result) : IsReferenceText v ∧ ∃ body d r,
      locateNamespace (asciiUpper v) registry = .ok (body, d) ∧ d.reference = some r ∧
        ¬ IsMishyphenated r body := by
  simp only [parseReference, bind_eq_ok_iff, ensure_eq_ok_iff, Prod.exists] at h
  obtain ⟨_, htext, body, d, hlocate, h⟩ := h
  obtain ⟨r, hr⟩ := reference_of_locateNamespace hlocate
  have hbody : ∃ raw, r.IsSpelledPayload raw ∧
      (body = r.hyphenlessBody raw ∨ body = r.hyphenatedBody raw) := by
    rw [hr] at h
    cases r with
    | random r =>
        obtain ⟨raw, hraw, hform, -⟩ := (parseRandomReference_ok_iff r).mp h
        exact ⟨raw, hraw, hform⟩
    | sequence r =>
        obtain ⟨raw, hraw, hform, -⟩ := (parseSequentialReference_ok_iff r).mp h
        exact ⟨raw, hraw, hform⟩
  obtain ⟨raw, hraw, hform⟩ := hbody
  refine ⟨htext, body, d, r, hlocate, hr, ?_⟩
  rintro ⟨-, hhyphen, hgroups⟩
  cases ((body_forms_iff r hraw).mpr hform).2 with
  | inl hno => exact hno hhyphen
  | inr hsame => exact hgroups hsame

end Parser

end Identifold
