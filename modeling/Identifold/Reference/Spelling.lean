import Identifold.Reference

/-!
# Identifold.Reference.Spelling

What `parseReference` accepts, and what it returns.

A reference is a registered definition together with a payload.  The payload
is *spelled* by symbols of the strategy's alphabet (a random payload may use
the Crockford aliases), and the spelled payload with its check symbol is
written as a body in one of two forms, hyphenless or hyphenated.  The parser
accepts exactly the texts that are, up to ASCII case, a registered prefix
followed by a body, or by a hyphen and a body (`parseReference_ok_iff`), and
what it returns depends on the normalized payload alone.
-/

namespace Identifold

open Separated

/-! ## the parts of a reference -/

namespace RegisteredReferenceDefinition

/-- The number of payload symbols, the year of a scoped sequence included. -/
def payloadLength : RegisteredReferenceDefinition → Nat
  | .random r => r.payloadLength
  | .sequence r => r.width + if r.hasScope then 4 else 0

/-- The upper-case symbols a payload may be spelled with. -/
def IsPayloadSymbol : RegisteredReferenceDefinition → Char → Prop
  | .random _, c => c ∈ dataAlphabet ∨ c ∈ ['O', 'I', 'L']
  | .sequence _, c => c.isDigit = true

/-- A spelled payload: the right number of the right symbols. -/
def IsSpelledPayload (r : RegisteredReferenceDefinition) (raw : Text) : Prop :=
  raw.length = r.payloadLength ∧ ∀ c ∈ raw, r.IsPayloadSymbol c

/-- A canonical payload: one spelled without aliases. -/
def IsPayload : RegisteredReferenceDefinition → Text → Prop
  | .random r, payload => payload.length = r.payloadLength ∧ ∀ c ∈ payload, c ∈ dataAlphabet
  | .sequence r, payload =>
      payload.length = (sequence r).payloadLength ∧ ∀ c ∈ payload, c.isDigit = true

/-- The payload a spelling denotes. -/
def normalize : RegisteredReferenceDefinition → Text → Text
  | .random _, raw => raw.map normalizeSymbol
  | .sequence _, raw => raw

/-- The modulo-37 symbol of a payload, in the strategy's radix. -/
def checkSymbol : RegisteredReferenceDefinition → Text → Text
  | .random _, payload => referenceCheckSymbol payload
  | .sequence _, payload => sequentialCheckSymbol payload

/-- The groups a payload is hyphenated in. -/
def groups : RegisteredReferenceDefinition → Text → List Text
  | .random _, payload => chunks 4 payload
  | .sequence r, payload =>
      if r.hasScope then [payload.take 4, payload.drop 4] else [payload]

/-- The lengths of these groups. -/
def groupLengths : RegisteredReferenceDefinition → List Nat
  | .random r => chunkLengths 4 r.payloadLength
  | .sequence r => if r.hasScope then [4, r.width] else [r.width]

/-- The body without hyphens of a spelled payload. -/
def hyphenlessBody (r : RegisteredReferenceDefinition) (raw : Text) : Text :=
  raw ++ r.checkSymbol (r.normalize raw)

/-- The hyphenated body of a spelled payload. -/
def hyphenatedBody (r : RegisteredReferenceDefinition) (raw : Text) : Text :=
  join '-' (r.groups raw ++ [r.checkSymbol (r.normalize raw)])

/-- The canonical text of a payload. -/
def canonical (r : RegisteredReferenceDefinition) (payload : Text) : Text :=
  join '-' (r.refPrefix :: (r.groups payload ++ [r.checkSymbol payload]))

/-- The year of a payload, for scoped sequences. -/
def scopeOf : RegisteredReferenceDefinition → Text → Option Text
  | .random _, _ => none
  | .sequence r, payload => if r.hasScope then some (payload.take 4) else none

/-- The sequence digits of a payload, for sequences. -/
def sequenceOf : RegisteredReferenceDefinition → Text → Option Text
  | .random _, _ => none
  | .sequence r, payload => some (if r.hasScope then payload.drop 4 else payload)

/-- The strategy of a definition. -/
def strategy : RegisteredReferenceDefinition → ReferenceStrategy
  | .random _ => .random
  | .sequence _ => .sequence

/-- The parse result a payload stands for. -/
def parsed (r : RegisteredReferenceDefinition) (publicPrefix payload : Text) : ParsedReference where
  value := r.canonical payload
  namespaceName := publicPrefix
  payload := payload
  scope := r.scopeOf payload
  sequence := r.sequenceOf payload
  checkSymbol := r.checkSymbol payload
  strategy := r.strategy

end RegisteredReferenceDefinition

open RegisteredReferenceDefinition

/-! ## symbols -/

/-- A symbol normalizes into the data alphabet exactly when it is a data
symbol or an alias of one. -/
theorem normalizeSymbol_mem_iff (c : Char) :
    normalizeSymbol c ∈ dataAlphabet ↔ c ∈ dataAlphabet ∨ c ∈ ['O', 'I', 'L'] := by
  unfold normalizeSymbol
  by_cases hO : c = 'O'
  · subst hO; decide
  · by_cases hI : c = 'I' ∨ c = 'L'
    · rcases hI with rfl | rfl <;> decide
    · rw [if_neg hO, if_neg hI]
      simp only [List.mem_cons, List.not_mem_nil, or_false]
      tauto

/-- The symbols of the alphabet stay. -/
theorem normalizeSymbol_of_mem {c : Char} (h : c ∈ dataAlphabet) : normalizeSymbol c = c := by
  obtain ⟨hO, hI, hL⟩ := ne_alias_of_mem_dataAlphabet c h
  rw [normalizeSymbol, if_neg hO, if_neg (by simp [hI, hL])]

theorem map_normalizeSymbol_of_mem {payload : Text} (h : ∀ c ∈ payload, c ∈ dataAlphabet) :
    payload.map normalizeSymbol = payload := by
  have hmap : payload.map normalizeSymbol = payload.map id :=
    List.map_congr_left fun c hc => normalizeSymbol_of_mem (h c hc)
  rw [hmap, List.map_id]

section Parts

variable (r : RegisteredReferenceDefinition) {raw payload : Text}

theorem isReferenceSymbol_of_isPayloadSymbol {c : Char} (h : r.IsPayloadSymbol c) :
    IsReferenceSymbol c := by
  cases r with
  | random r =>
      rcases h with h | h
      · exact isReferenceSymbol_of_mem_dataAlphabet c h
      · have hall : ∀ c ∈ ['O', 'I', 'L'], IsReferenceSymbol c := by decide
        exact hall c h
  | sequence r => exact .inr (.inl h)

/-- The check symbol is one symbol of its alphabet. -/
theorem checkSymbol_eq (payload : Text) : ∃ c ∈ checkAlphabet, r.checkSymbol payload = [c] := by
  cases r with
  | random r => exact charAt_checkAlphabet _
  | sequence r => exact charAt_checkAlphabet _

@[simp] theorem length_checkSymbol (payload : Text) : (r.checkSymbol payload).length = 1 := by
  obtain ⟨c, -, hc⟩ := checkSymbol_eq r payload
  rw [hc, List.length_singleton]

theorem checkSymbol_infix (payload : Text) : r.checkSymbol payload <:+: checkAlphabet := by
  obtain ⟨c, hmem, hc⟩ := checkSymbol_eq r payload
  rw [hc, List.singleton_infix_iff]
  exact hmem

theorem isReferenceSymbol_of_mem_checkSymbol {payload : Text} {c : Char}
    (h : c ∈ r.checkSymbol payload) : IsReferenceSymbol c := by
  obtain ⟨d, hd, heq⟩ := checkSymbol_eq r payload
  rw [heq, List.mem_singleton] at h
  subst h
  exact isReferenceSymbol_of_mem_checkAlphabet c hd

theorem payloadLength_pos : 4 ≤ r.payloadLength := by
  cases r with
  | random r =>
      have hlen : r.payloadLength = r.profile.payloadLength := rfl
      change 4 ≤ r.payloadLength
      rw [hlen]
      cases r.profile <;> decide
  | sequence r => exact Nat.le_add_right_of_le r.width_valid.1

/-- The groups of a payload are the payload. -/
theorem flatten_groups (raw : Text) : (r.groups raw).flatten = raw := by
  cases r with
  | random r => exact flatten_chunks (by decide) raw
  | sequence r =>
      simp only [groups]
      split <;> simp

/-- Their lengths are those of the definition. -/
theorem map_length_groups (h : raw.length = r.payloadLength) :
    (r.groups raw).map List.length = r.groupLengths := by
  cases r with
  | random r =>
      simp only [groups, groupLengths, map_length_chunks]
      rw [h]; rfl
  | sequence r =>
      simp only [payloadLength] at h
      simp only [groups, groupLengths]
      split
      · next hs =>
          rw [if_pos hs] at h
          simp [h]
      · next hs =>
          rw [if_neg hs] at h
          simp [h]

theorem mem_of_mem_groups {g : Text} {c : Char} (hg : g ∈ r.groups raw) (hc : c ∈ g) : c ∈ raw := by
  have h : c ∈ (r.groups raw).flatten := List.mem_flatten.mpr ⟨g, hg, hc⟩
  rwa [flatten_groups] at h

theorem groups_ne_nil (h : raw.length = r.payloadLength) : r.groups raw ≠ [] := by
  intro hnil
  have hflat := flatten_groups r raw
  rw [hnil, List.flatten_nil] at hflat
  have hpos := payloadLength_pos r
  rw [← h, ← hflat, List.length_nil] at hpos
  omega

/-! ## normalization -/

/-- Normalizing a spelled payload gives a payload. -/
theorem IsSpelledPayload.normalize (h : r.IsSpelledPayload raw) :
    r.IsPayload (r.normalize raw) := by
  cases r with
  | random r =>
      refine ⟨(List.length_map _).trans h.1, ?_⟩
      intro c hc
      obtain ⟨d, hd, rfl⟩ := List.mem_map.mp hc
      exact (normalizeSymbol_mem_iff d).mpr (h.2 d hd)
  | sequence r => exact h

/-- A payload spells itself. -/
theorem IsPayload.spelled (h : r.IsPayload payload) :
    r.IsSpelledPayload payload ∧ r.normalize payload = payload := by
  cases r with
  | random r => exact ⟨⟨h.1, fun c hc => .inl (h.2 c hc)⟩, map_normalizeSymbol_of_mem h.2⟩
  | sequence r => exact ⟨h, rfl⟩

/-! ## canonical texts -/

/-- The canonical text is the prefix, a hyphen and the hyphenated body. -/
theorem canonical_eq (h : r.IsPayload payload) :
    r.canonical payload = r.refPrefix ++ '-' :: r.hyphenatedBody payload := by
  have hnorm := (IsPayload.spelled r h).2
  rw [canonical, hyphenatedBody, hnorm, join_cons (by simp)]

end Parts

/-- `formatReference` writes the canonical text of a random payload. -/
theorem formatReference_eq_canonical (r : RegisteredRandomReferenceDefinition) {payload : Text}
    (h : (random r).IsPayload payload) :
    formatReference r.refPrefix payload (referenceCheckSymbol payload) =
      (random r).canonical payload := by
  have hne : chunks 4 payload ≠ [] := groups_ne_nil (random r) h.1
  rw [canonical_eq _ h, hyphenatedBody, (IsPayload.spelled _ h).2, join_concat]
  · rfl
  · exact hne

/-- `formatSequentialParts` writes the canonical text of a sequential payload. -/
theorem formatSequentialParts_eq_canonical (r : RegisteredSequentialReferenceDefinition)
    {payload sequence : Text} (h : (RegisteredReferenceDefinition.sequence r).IsPayload payload)
    (hseq : (RegisteredReferenceDefinition.sequence r).sequenceOf payload = some sequence) :
    formatSequentialParts r.refPrefix sequence (sequentialCheckSymbol payload)
        ((RegisteredReferenceDefinition.sequence r).scopeOf payload) =
      (RegisteredReferenceDefinition.sequence r).canonical payload := by
  rw [canonical_eq _ h, hyphenatedBody, (IsPayload.spelled _ h).2]
  simp only [sequenceOf, Option.some.injEq] at hseq
  subst hseq
  simp only [scopeOf, groups]
  split <;> simp [formatSequentialParts, join, RegisteredReferenceDefinition.refPrefix, checkSymbol]

/-! ## bodies -/

section Bodies

variable (r : RegisteredReferenceDefinition) {body raw : Text}

/-- No separator occurs in a spelled payload or its check symbol. -/
theorem hyphen_not_mem_hyphenlessBody (hraw : r.IsSpelledPayload raw) :
    '-' ∉ r.hyphenlessBody raw := by
  intro hmem
  rcases List.mem_append.mp hmem with h | h
  · exact (isReferenceSymbol_of_isPayloadSymbol r (hraw.2 _ h)).facts.2.1 rfl
  · exact (isReferenceSymbol_of_mem_checkSymbol r h).facts.2.1 rfl

theorem hyphen_not_mem_groups (hraw : r.IsSpelledPayload raw) :
    ∀ g ∈ r.groups raw ++ [r.checkSymbol (r.normalize raw)], '-' ∉ g := by
  intro g hg hmem
  rcases List.mem_append.mp hg with h | h
  · exact (isReferenceSymbol_of_isPayloadSymbol r
      (hraw.2 _ (mem_of_mem_groups r h hmem))).facts.2.1 rfl
  · rw [List.mem_singleton] at h
    subst h
    exact (isReferenceSymbol_of_mem_checkSymbol r hmem).facts.2.1 rfl

/-- **Body forms**: the tests on a body, its hyphen-stripped symbols and the
lengths between its hyphens, leave the hyphenless and the hyphenated body. -/
theorem body_forms_iff (hraw : r.IsSpelledPayload raw) :
    (strip '-' body = r.hyphenlessBody raw ∧
        ('-' ∉ body ∨ (body.splitOn '-').map List.length = r.groupLengths ++ [1])) ↔
      body = r.hyphenlessBody raw ∨ body = r.hyphenatedBody raw := by
  have hgroups := hyphen_not_mem_groups r hraw
  have hlengths : (r.groups raw ++ [r.checkSymbol (r.normalize raw)]).map List.length =
      r.groupLengths ++ [1] := by
    rw [List.map_append, map_length_groups r hraw.1, List.map_singleton, length_checkSymbol]
  have hflat : (r.groups raw ++ [r.checkSymbol (r.normalize raw)]).flatten =
      r.hyphenlessBody raw := by
    rw [List.flatten_append, flatten_groups, List.flatten_singleton, hyphenlessBody]
  have hjoin := eq_join_iff body hgroups (by simp)
  rw [hlengths, hflat] at hjoin
  constructor
  · rintro ⟨hstrip, hform⟩
    rcases hform with hno | hlen
    · exact .inl (by rw [← hstrip, strip_eq_self hno])
    · exact .inr (hjoin.mpr ⟨hlen, hstrip⟩)
  · intro hform
    rcases hform with rfl | hbody
    · have hno := hyphen_not_mem_hyphenlessBody r hraw
      exact ⟨strip_eq_self hno, .inl hno⟩
    · obtain ⟨hlen, hstrip⟩ := hjoin.mp hbody
      exact ⟨hstrip, .inr hlen⟩

/-- A hyphenated body has a hyphen. -/
theorem hyphen_mem_hyphenatedBody (hraw : r.IsSpelledPayload raw) : '-' ∈ r.hyphenatedBody raw := by
  obtain ⟨g, gs, hg⟩ := List.exists_cons_of_ne_nil (groups_ne_nil r hraw.1)
  obtain ⟨g', gs', hg'⟩ := List.exists_cons_of_ne_nil
    (show gs ++ [r.checkSymbol (r.normalize raw)] ≠ [] by simp)
  rw [hyphenatedBody, hg, List.cons_append, hg']
  exact mem_join_self

end Bodies

/-- A body of `n + 1` symbols is its first `n` followed by the last one. -/
theorem dropLast_append_last {body : Text} {n : Nat} (h : body.length = n + 1) :
    body.dropLast.length = n ∧ body = body.dropLast ++ body.drop (body.length - 1) := by
  refine ⟨by simp [h], ?_⟩
  rw [List.dropLast_eq_take, List.take_append_drop]

/-- The slices the parsers take of a stripped body: `slice(0, -1)` is the
spelled payload and `slice(-1)` its check symbol. -/
theorem hyphenlessBody_slices (r : RegisteredReferenceDefinition) {raw : Text}
    (hraw : r.IsSpelledPayload raw) :
    (r.hyphenlessBody raw).length = r.payloadLength + 1 ∧ (r.hyphenlessBody raw).dropLast = raw ∧
      (r.hyphenlessBody raw).drop ((r.hyphenlessBody raw).length - 1) =
        r.checkSymbol (r.normalize raw) := by
  have hlen : (r.hyphenlessBody raw).length = r.payloadLength + 1 := by
    rw [hyphenlessBody, List.length_append, length_checkSymbol, hraw.1]
  refine ⟨hlen, ?_, ?_⟩
  · rw [List.dropLast_eq_take, hlen, hyphenlessBody, Nat.add_sub_cancel, List.take_left' hraw.1]
  · rw [hlen, hyphenlessBody, Nat.add_sub_cancel, List.drop_left' hraw.1]

theorem payload_ne_nil (r : RegisteredReferenceDefinition) {payload : Text}
    (h : payload.length = r.payloadLength) : payload ≠ [] := by
  intro hnil
  have hpos := payloadLength_pos r
  rw [← h, hnil, List.length_nil] at hpos
  omega

/-! ## the parsers on a body -/

/-- `parseRandomReference` accepts the two body forms of every spelling, and
returns what the payload stands for. -/
theorem parseRandomReference_ok_iff (r : RegisteredRandomReferenceDefinition)
    {body publicPrefix : Text} {result : ParsedReference} :
    parseRandomReference body publicPrefix r = .ok result ↔
      ∃ raw, (random r).IsSpelledPayload raw ∧
        (body = (random r).hyphenlessBody raw ∨ body = (random r).hyphenatedBody raw) ∧
        result = (random r).parsed publicPrefix ((random r).normalize raw) := by
  simp only [parseRandomReference, normalizePayload, validateHyphenation, validateGroupLengths,
    bind_eq_ok_iff, ensure_eq_ok_iff, pure_eq_ok_iff]
  constructor
  · rintro ⟨_, hlen, _, hform, payload, ⟨_, hsymbols, rfl⟩, _, -, check, hcheck, _, heq, rfl⟩
    obtain ⟨hinit, hsplit⟩ := dropLast_append_last hlen
    have hraw : (random r).IsSpelledPayload (strip '-' body).dropLast :=
      ⟨hinit, fun c hc => (normalizeSymbol_mem_iff c).mp (hsymbols c hc)⟩
    have hpayload := IsSpelledPayload.normalize (random r) hraw
    have hvalue := formatReference_eq_canonical r hpayload
    change calculateReferenceCheckSymbol ((random r).normalize (strip '-' body).dropLast) = _
      at hcheck
    rw [calculateReferenceCheckSymbol_eq (payload_ne_nil (random r) hpayload.1) hpayload.2,
      Except.ok.injEq] at hcheck
    rw [← heq, ← hcheck] at hsplit ⊢
    exact ⟨_, hraw, (body_forms_iff (random r) hraw).mp ⟨hsplit, hform⟩, by
      simp only [parsed, ← hvalue]; rfl⟩
  · rintro ⟨raw, hraw, hbody, rfl⟩
    obtain ⟨hstrip, hform⟩ := (body_forms_iff (random r) hraw).mpr hbody
    obtain ⟨hlen, hinit, hlast⟩ := hyphenlessBody_slices (random r) hraw
    have hpayload := IsSpelledPayload.normalize (random r) hraw
    have hvalue := formatReference_eq_canonical r hpayload
    rw [hstrip, hinit, hlast]
    refine ⟨(), hlen, (), hform, _, ⟨(), fun c hc => (normalizeSymbol_mem_iff c).mpr (hraw.2 c hc),
      rfl⟩, (), checkSymbol_infix _ _, _, calculateReferenceCheckSymbol_eq
        (payload_ne_nil (random r) hpayload.1) hpayload.2, (), rfl, ?_⟩
    simp only [parsed, ← hvalue]
    rfl

/-- `parseSequentialReference` accepts the two body forms of every spelling. -/
theorem parseSequentialReference_ok_iff (r : RegisteredSequentialReferenceDefinition)
    {body publicPrefix : Text} {result : ParsedReference} :
    parseSequentialReference body publicPrefix r = .ok result ↔
      ∃ raw, (RegisteredReferenceDefinition.sequence r).IsSpelledPayload raw ∧
        (body = (RegisteredReferenceDefinition.sequence r).hyphenlessBody raw ∨
          body = (RegisteredReferenceDefinition.sequence r).hyphenatedBody raw) ∧
        result = (RegisteredReferenceDefinition.sequence r).parsed publicPrefix raw := by
  have hexpected : (if r.hasScope then [4, r.width, 1] else [r.width, 1]) =
      (RegisteredReferenceDefinition.sequence r).groupLengths ++ [1] := by
    simp only [groupLengths]
    split <;> rfl
  simp only [parseSequentialReference, validateSequentialHyphenation, validateGroupLengths,
    bind_eq_ok_iff, ensure_eq_ok_iff, pure_eq_ok_iff, hexpected]
  constructor
  · rintro ⟨_, hlen, _, hform, _, ⟨⟨hne, hdigits⟩, -⟩, check, hcheck, _, heq, rfl⟩
    obtain ⟨hinit, hsplit⟩ := dropLast_append_last hlen
    have hraw : (RegisteredReferenceDefinition.sequence r).IsSpelledPayload
        (strip '-' body).dropLast := ⟨hinit, hdigits⟩
    have hvalue := formatSequentialParts_eq_canonical r hraw rfl
    rw [calculateSequentialCheckSymbol_eq hne hdigits, Except.ok.injEq] at hcheck
    rw [← heq, ← hcheck] at hsplit ⊢
    exact ⟨_, hraw, (body_forms_iff _ hraw).mp ⟨hsplit, hform⟩, by
      simp only [parsed, ← hvalue]; rfl⟩
  · rintro ⟨raw, hraw, hbody, rfl⟩
    obtain ⟨hstrip, hform⟩ := (body_forms_iff _ hraw).mpr hbody
    obtain ⟨hlen, hinit, hlast⟩ := hyphenlessBody_slices _ hraw
    have hne := payload_ne_nil _ hraw.1
    have hvalue := formatSequentialParts_eq_canonical r hraw rfl
    rw [hstrip, hinit, hlast]
    refine ⟨(), hlen, (), hform, (), ⟨⟨hne, hraw.2⟩, checkSymbol_infix _ _⟩, _,
      calculateSequentialCheckSymbol_eq hne hraw.2, (), rfl, ?_⟩
    simp only [parsed, ← hvalue]
    rfl

/-! ## locating the namespace -/

/-- A definition's reference prefix, through its reference. -/
theorem refPrefix?_eq_some_iff {d : RegisteredNamespaceDefinition} {p : Text} :
    d.refPrefix? = some p ↔ ∃ r, d.reference = some r ∧ r.refPrefix = p := by
  simp [RegisteredNamespaceDefinition.refPrefix?]

/-- Two registered references whose prefixes begin one text are the same. -/
theorem eq_of_refPrefix_of_text {registry : NamespaceRegistry}
    {d e : RegisteredNamespaceDefinition} {r r' : RegisteredReferenceDefinition} {v : Text}
    (hd : d ∈ registry.definitions) (he : e ∈ registry.definitions)
    (hr : d.reference = some r) (hr' : e.reference = some r')
    (hv : r.refPrefix <+: v) (hv' : r'.refPrefix <+: v) : d = e :=
  NamespaceRegistry.eq_of_refPrefix hd he (refPrefix?_eq_some_iff.mpr ⟨r, hr, rfl⟩)
    (refPrefix?_eq_some_iff.mpr ⟨r', hr', rfl⟩) (List.prefix_or_prefix_of_prefix hv hv')

/-- The scan over the definitions: prefix-freeness makes the first definition
whose prefix begins the text the only one. -/
theorem find?_refPrefix_eq_some_iff {registry : NamespaceRegistry} {text : Text}
    {d : RegisteredNamespaceDefinition} :
    (registry.definitions.find? fun d => d.refPrefix?.any (·.isPrefixOf text)) = some d ↔
      d ∈ registry.definitions ∧ ∃ r, d.reference = some r ∧ r.refPrefix <+: text := by
  have htest : ∀ e : RegisteredNamespaceDefinition,
      e.refPrefix?.any (·.isPrefixOf text) = true ↔
        ∃ r, e.reference = some r ∧ r.refPrefix <+: text := by
    intro e
    cases he : e.reference <;> simp [RegisteredNamespaceDefinition.refPrefix?, he]
  rw [Rows.find?_eq_some_iff, htest]
  intro a ha b hb hta htb
  obtain ⟨r, hr, hpre⟩ := (htest a).mp hta
  obtain ⟨r', hr', hpre'⟩ := (htest b).mp htb
  exact eq_of_refPrefix_of_text ha hb hr hr' hpre hpre'

/-- `locateNamespace` on an upper-cased text: the definition whose prefix
stands before the first hyphen, or begins a text without hyphens. -/
theorem locateNamespace_ok_iff {registry : NamespaceRegistry} {upper body : Text}
    {d : RegisteredNamespaceDefinition} (hupper : asciiUpper upper = upper) :
    locateNamespace upper registry = .ok (body, d) ↔
      d ∈ registry.definitions ∧ ∃ r, d.reference = some r ∧
        (upper = r.refPrefix ++ '-' :: body ∨ ('-' ∉ upper ∧ upper = r.refPrefix ++ body)) := by
  unfold locateNamespace
  split
  · next hhyphen =>
      -- the exact lookup: both directions cut the text at its first hyphen
      have hfixed : asciiUpper (upper.takeWhile (· ≠ '-')) = upper.takeWhile (· ≠ '-') :=
        asciiUpper_eq_self_of_isPrefix hupper (List.takeWhile_prefix _)
      constructor
      · intro h
        split at h
        · next definition hget =>
            simp only [Except.ok.injEq, Prod.mk.injEq] at h
            obtain ⟨rfl, rfl⟩ := h
            obtain ⟨hmem, hpre⟩ := NamespaceRegistry.getByReferencePrefix_eq_some_iff.mp hget
            rw [hfixed] at hpre
            obtain ⟨r, hr, hrp⟩ := refPrefix?_eq_some_iff.mp hpre
            exact ⟨hmem, r, hr, .inl (by rw [hrp]; exact takeWhile_append_drop hhyphen)⟩
        · contradiction
      · rintro ⟨hmem, r, hr, hform | ⟨hno, -⟩⟩
        · obtain ⟨htake, hdrop⟩ :=
            takeWhile_of_not_mem (hyphen_not_mem_refPrefix r.refPrefix_valid) body
          -- a reference prefix has no hyphen, so the cut is behind it
          have hget : registry.getByReferencePrefix r.refPrefix = some d :=
            NamespaceRegistry.getByReferencePrefix_eq_some_iff.mpr ⟨hmem, by
              rw [asciiUpper_refPrefix r.refPrefix_valid]
              exact refPrefix?_eq_some_iff.mpr ⟨r, hr, rfl⟩⟩
          rw [hform, htake, hget]
          simp only [hdrop]
        · exact absurd hhyphen hno
  · -- no hyphen: the definition whose prefix the text begins with
    next hhyphen =>
      constructor
      · intro h
        split at h
        · next definition hfind =>
            simp only [Except.ok.injEq, Prod.mk.injEq] at h
            obtain ⟨rfl, rfl⟩ := h
            obtain ⟨hmem, r, hr, t, hpre⟩ := find?_refPrefix_eq_some_iff.mp hfind
            refine ⟨hmem, r, hr, .inr ⟨hhyphen, ?_⟩⟩
            simp [RegisteredNamespaceDefinition.refPrefix?, hr, ← hpre]
        · contradiction
      · rintro ⟨hmem, r, hr, hform | ⟨-, hform⟩⟩
        · exact absurd (by simp [hform]) hhyphen
        · rw [find?_refPrefix_eq_some_iff.mpr ⟨hmem, r, hr, body, hform.symm⟩]
          simp [RegisteredNamespaceDefinition.refPrefix?, hr, hform]

/-! ## the whole parser -/

/-- The three ways the parser reads a spelled payload under its prefix. -/
def RegisteredReferenceDefinition.IsWritten (r : RegisteredReferenceDefinition) (raw text : Text) :
    Prop :=
  text = r.refPrefix ++ r.hyphenlessBody raw ∨
    text = r.refPrefix ++ '-' :: r.hyphenlessBody raw ∨
    text = r.refPrefix ++ '-' :: r.hyphenatedBody raw

section Written

variable (r : RegisteredReferenceDefinition) {raw text : Text}

/-- Written references consist of reference symbols and hyphens. -/
theorem mem_written (hraw : r.IsSpelledPayload raw) (h : r.IsWritten raw text) {c : Char}
    (hc : c ∈ text) : IsReferenceSymbol c ∨ c = '-' := by
  have hpre : ∀ c ∈ r.refPrefix, IsReferenceSymbol c := fun c hc =>
    .inl (isUpper_of_mem_refPrefix r.refPrefix_valid c hc)
  have hless : ∀ c ∈ r.hyphenlessBody raw, IsReferenceSymbol c := by
    intro c hc
    rcases List.mem_append.mp hc with h | h
    · exact isReferenceSymbol_of_isPayloadSymbol r (hraw.2 c h)
    · exact isReferenceSymbol_of_mem_checkSymbol r h
  have hyphenated : ∀ c ∈ r.hyphenatedBody raw, IsReferenceSymbol c ∨ c = '-' := by
    intro c hc
    rcases mem_join hc with h | ⟨g, hg, hcg⟩
    · exact .inr h
    · rcases List.mem_append.mp hg with h | h
      · exact .inl (isReferenceSymbol_of_isPayloadSymbol r (hraw.2 c (mem_of_mem_groups r h hcg)))
      · rw [List.mem_singleton] at h
        subst h
        exact .inl (isReferenceSymbol_of_mem_checkSymbol r hcg)
  rcases h with rfl | rfl | rfl
  · rcases List.mem_append.mp hc with h | h
    · exact .inl (hpre c h)
    · exact .inl (hless c h)
  · rcases List.mem_append.mp hc with h | h
    · exact .inl (hpre c h)
    · rcases List.mem_cons.mp h with h | h
      · exact .inr h
      · exact .inl (hless c h)
  · rcases List.mem_append.mp hc with h | h
    · exact .inl (hpre c h)
    · rcases List.mem_cons.mp h with h | h
      · exact .inr h
      · exact hyphenated c h

/-- The longest reference has 34 symbols: eight letters, a year, eighteen
digits, a check symbol and three hyphens. -/
theorem length_written_le (hraw : r.IsSpelledPayload raw) (h : r.IsWritten raw text) :
    text.length ≤ 34 ∧ text ≠ [] := by
  have hpre := length_of_isReferencePrefix r.refPrefix_valid
  have hless : (r.hyphenlessBody raw).length = r.payloadLength + 1 :=
    (hyphenlessBody_slices r hraw).1
  have hbody : (r.hyphenatedBody raw).length = r.payloadLength + 1 + r.groupLengths.length := by
    have hj := length_join '-' (r.groups raw ++ [r.checkSymbol (r.normalize raw)]) (by simp)
    rw [List.flatten_append, flatten_groups, List.flatten_singleton] at hj
    simp only [List.length_append, List.length_singleton, length_checkSymbol] at hj
    rw [hraw.1, ← List.length_map (f := List.length), map_length_groups r hraw.1] at hj
    rw [hyphenatedBody]
    omega
  have hsize : r.payloadLength + r.groupLengths.length ≤ 24 := by
    cases r with
    | random r =>
        have hprofile : r.payloadLength = r.profile.payloadLength := rfl
        simp only [payloadLength, groupLengths, hprofile]
        cases r.profile <;> decide
    | sequence r =>
        have hw := r.width_valid
        simp only [payloadLength, groupLengths]
        split <;> simp <;> omega
  have hne : text.length ≠ 0 → text ≠ [] := fun h h0 => h (by simp [h0])
  rcases h with rfl | rfl | rfl
  · refine ⟨?_, hne ?_⟩ <;> simp only [List.length_append] <;> omega
  · refine ⟨?_, hne ?_⟩ <;> simp only [List.length_append, List.length_cons] <;> omega
  · refine ⟨?_, hne ?_⟩ <;> simp only [List.length_append, List.length_cons] <;> omega

end Written

/-- A text whose upper-case form is a written reference passes the character
and length tests of the parser. -/
theorem accepted_of_written (r : RegisteredReferenceDefinition) {raw v : Text}
    (hraw : r.IsSpelledPayload raw) (h : r.IsWritten raw (asciiUpper v)) :
    v.length ≠ 0 ∧ utf16Length v ≤ 100 ∧ ∀ c ∈ v, isReferenceCharacter c = true := by
  obtain ⟨hlen, hne⟩ := length_written_le r hraw h
  rw [length_asciiUpper] at hlen
  have hsymbols : ∀ c ∈ v, IsReferenceSymbol c.toUpper ∨ c.toUpper = '-' := fun c hc =>
    mem_written r hraw h (List.mem_map_of_mem hc)
  have hascii : IsAscii v := by
    intro c hc
    rw [← toNat_toUpper_lt_iff]
    rcases hsymbols c hc with hs | hs
    · exact hs.toNat_lt
    · rw [hs]; decide
  refine ⟨by simpa [asciiUpper] using hne, by rw [utf16Length_of_isAscii hascii]; omega, ?_⟩
  intro c hc
  exact forall_ascii (P := fun c => IsReferenceSymbol c.toUpper ∨ c.toUpper = '-' →
    isReferenceCharacter c = true) (by decide) c (hascii c hc) (hsymbols c hc)

/-- **The accepted texts**: `parseReference` succeeds exactly on the texts
that are, up to ASCII case, a registered reference written in one of the
three forms, and returns what the normalized payload stands for. -/
theorem parseReference_ok_iff {registry : NamespaceRegistry} {v : Text} {result : ParsedReference} :
    parseReference v registry = .ok result ↔
      ∃ d ∈ registry.definitions, ∃ r, d.reference = some r ∧ ∃ raw, r.IsSpelledPayload raw ∧
        r.IsWritten raw (asciiUpper v) ∧ result = r.parsed d.publicPrefix (r.normalize raw) := by
  simp only [parseReference, bind_eq_ok_iff, ensure_eq_ok_iff, Prod.exists,
    locateNamespace_ok_iff (asciiUpper_asciiUpper v)]
  constructor
  · -- the text without or with its prefix hyphen, the body with or without its own
    rintro ⟨_, haccepted, body, d, ⟨hmem, r, hr, hform⟩, h⟩
    rw [hr] at h
    have hbody : ∃ raw, r.IsSpelledPayload raw ∧
        (body = r.hyphenlessBody raw ∨ body = r.hyphenatedBody raw) ∧
        result = r.parsed d.publicPrefix (r.normalize raw) := by
      cases r with
      | random r => exact (parseRandomReference_ok_iff r).mp h
      | sequence r => exact (parseSequentialReference_ok_iff r).mp h
    obtain ⟨raw, hraw, hb, hresult⟩ := hbody
    refine ⟨d, hmem, r, hr, raw, hraw, ?_, hresult⟩
    rcases hform with hform | ⟨hno, hform⟩
    · rcases hb with rfl | rfl
      · exact .inr (.inl hform)
      · exact .inr (.inr hform)
    · rcases hb with rfl | rfl
      · exact .inl hform
      · -- a hyphenated body has a hyphen
        exfalso
        apply hno
        rw [hform]
        exact List.mem_append_right _ (hyphen_mem_hyphenatedBody r hraw)
  · rintro ⟨d, hmem, r, hr, raw, hraw, hwritten, rfl⟩
    have hbody : ∃ body, (body = r.hyphenlessBody raw ∨ body = r.hyphenatedBody raw) ∧
        (asciiUpper v = r.refPrefix ++ '-' :: body ∨
          ('-' ∉ asciiUpper v ∧ asciiUpper v = r.refPrefix ++ body)) := by
      rcases hwritten with h | h | h
      · refine ⟨_, .inl rfl, .inr ⟨?_, h⟩⟩
        rw [h, List.mem_append, not_or]
        exact ⟨hyphen_not_mem_refPrefix r.refPrefix_valid, hyphen_not_mem_hyphenlessBody r hraw⟩
      · exact ⟨_, .inl rfl, .inl h⟩
      · exact ⟨_, .inr rfl, .inl h⟩
    obtain ⟨body, hb, hform⟩ := hbody
    refine ⟨(), accepted_of_written r hraw hwritten, body, d, ⟨hmem, r, hr, hform⟩, ?_⟩
    rw [hr]
    cases r with
    | random r => exact (parseRandomReference_ok_iff r).mpr ⟨raw, hraw, hb, rfl⟩
    | sequence r => exact (parseSequentialReference_ok_iff r).mpr ⟨raw, hraw, hb, rfl⟩

end Identifold
