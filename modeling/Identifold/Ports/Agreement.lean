import Identifold.Ports.Normalize
import Identifold.Service.Classifier

/-!
# Identifold.Ports.Agreement

Where the three implementations of `normalize` agree.

On machine identifiers they always do.  On references, the ports accept every
text whose upper-case form spells a registered reference once all hyphens are
dropped (`IsCompactReading`); the TypeScript package accepts of these the
three hyphenations of its parser that its detector sees.  The Rust port
upper-cases ASCII letters only, the Go port all of Unicode, so the accepted
texts of the three form a chain, with equal results along it.
-/

namespace Identifold

open Separated RegisteredReferenceDefinition

/-- The compact text spells a registered reference, whose canonical text is
`w`. -/
def IsCompactReading (registry : NamespaceRegistry) (compact w : Text) : Prop :=
  ∃ d ∈ registry.definitions, ∃ r, d.reference = some r ∧ ∃ raw, r.IsSpelledPayload raw ∧
    compact = r.refPrefix ++ r.hyphenlessBody raw ∧ w = r.canonical (r.normalize raw)

/-! ## check symbols -/

theorem charAt_checkAlphabet_eq_iff {n : Nat} {c : Char} :
    charAt checkAlphabet n = [c] ↔ checkAlphabet[n]? = some c := by
  cases h : checkAlphabet[n]? <;> simp [charAt, h]

theorem checkSymbolOf_random_iff {payload : Text} {c : Char} :
    checkSymbolOf payload false = some c ↔
      (∀ d ∈ payload, d ∈ dataAlphabet) ∧ referenceCheckSymbol payload = [c] := by
  by_cases hvalid : ∀ d ∈ payload, d ∈ dataAlphabet
  · have hall : ∀ d ∈ payload, decide (d ∈ dataAlphabet) = true := by simpa using hvalid
    have hloop := checkRemainder_eq_value 32 (· ∈ dataAlphabet) dataAlphabet.idxOf () hall
    simp only [checkSymbolOf, Bool.false_eq_true, if_false, hloop, referenceCheckSymbol,
      charAt_checkAlphabet_eq_iff]
    exact (and_iff_right hvalid).symm
  · have hall : ¬ ∀ d ∈ payload, decide (d ∈ dataAlphabet) = true := by simpa using hvalid
    have hloop := checkRemainder_of_not_valid 32 (· ∈ dataAlphabet) dataAlphabet.idxOf () hall 0
    simp only [checkSymbolOf, Bool.false_eq_true, if_false, hloop, reduceCtorEq, false_iff]
    exact fun h => hvalid h.1

theorem mem_decimalAlphabet_iff {d : Char} : d ∈ decimalAlphabet ↔ d.isDigit = true := by
  constructor
  · have hall : ∀ d ∈ decimalAlphabet, d.isDigit = true := by decide
    exact hall d
  · intro hd
    exact forall_ascii (P := fun d => d.isDigit = true → d ∈ decimalAlphabet) (by decide) d
      (toNat_lt_of_isDigit hd) hd

theorem idxOf_decimalAlphabet {d : Char} (hd : d.isDigit = true) :
    decimalAlphabet.idxOf d = decimalValue d :=
  forall_ascii (P := fun d => d.isDigit = true → decimalAlphabet.idxOf d = decimalValue d)
    (by decide) d (toNat_lt_of_isDigit hd) hd

theorem checkSymbolOf_sequence_iff {payload : Text} {c : Char} :
    checkSymbolOf payload true = some c ↔
      (∀ d ∈ payload, d.isDigit = true) ∧ sequentialCheckSymbol payload = [c] := by
  by_cases hvalid : ∀ d ∈ payload, d.isDigit = true
  · have hall : ∀ d ∈ payload, decide (d ∈ decimalAlphabet) = true := by
      simpa [mem_decimalAlphabet_iff] using hvalid
    have hloop := checkRemainder_eq_value 10 (· ∈ decimalAlphabet) decimalAlphabet.idxOf () hall
    have hmap : payload.map decimalAlphabet.idxOf = payload.map decimalValue :=
      List.map_congr_left fun d hd => idxOf_decimalAlphabet (hvalid d hd)
    simp only [checkSymbolOf, if_true, hloop, sequentialCheckSymbol, charAt_checkAlphabet_eq_iff,
      hmap]
    exact (and_iff_right hvalid).symm
  · have hall : ¬ ∀ d ∈ payload, decide (d ∈ decimalAlphabet) = true := by
      simpa [mem_decimalAlphabet_iff] using hvalid
    have hloop :=
      checkRemainder_of_not_valid 10 (· ∈ decimalAlphabet) decimalAlphabet.idxOf () hall 0
    simp only [checkSymbolOf, if_true, hloop, reduceCtorEq, false_iff]
    exact fun h => hvalid h.1

theorem isAscii_of_isDigit {digits : Text} (h : ∀ c ∈ digits, c.isDigit = true) : IsAscii digits :=
  fun c hc => toNat_lt_of_isDigit (h c hc)

/-! ## bodies -/

section Bodies

variable {ε : Type} {error : IdentifoldErrorCode → ε} {cut missing : ε} {digitsOnly : Bool}

theorem isAscii_of_isPayloadSymbol (r : RegisteredReferenceDefinition) {raw : Text}
    (h : ∀ c ∈ raw, r.IsPayloadSymbol c) : IsAscii raw := fun c hc =>
  (isReferenceSymbol_of_isPayloadSymbol r (h c hc)).toNat_lt

theorem isAscii_hyphenlessBody (r : RegisteredReferenceDefinition) {raw : Text}
    (h : r.IsSpelledPayload raw) : IsAscii (r.hyphenlessBody raw) := by
  intro c hc
  rcases List.mem_append.mp hc with hc | hc
  · exact isAscii_of_isPayloadSymbol r h.2 c hc
  · exact (isReferenceSymbol_of_mem_checkSymbol r hc).toNat_lt

/-- Cutting off the check symbol of a body. -/
theorem splitAtByte_hyphenlessBody (r : RegisteredReferenceDefinition) {raw : Text}
    (h : r.IsSpelledPayload raw) :
    utf8Length (r.hyphenlessBody raw) = r.payloadLength + 1 ∧
      splitAtByte r.payloadLength (r.hyphenlessBody raw) =
        some (raw, r.checkSymbol (r.normalize raw)) := by
  refine ⟨?_, splitAtByte_eq_some_iff.mpr ⟨rfl, ?_⟩⟩
  · rw [utf8Length_of_isAscii (isAscii_hyphenlessBody r h), (hyphenlessBody_slices r h).1]
  · rw [utf8Length_of_isAscii (isAscii_of_isPayloadSymbol r h.2), h.1]

/-- **A random body** is accepted when it spells a payload. -/
theorem normalizeRandom_ok_iff {p : PortReferenceDefinition} {r : RegisteredRandomReferenceDefinition}
    (hp : DescribesReference p (.random r)) {body w : Text} :
    normalizeRandom error cut p body = .ok w ↔ ∃ raw, (random r).IsSpelledPayload raw ∧
      body = (random r).hyphenlessBody raw ∧ w = (random r).canonical ((random r).normalize raw) := by
  obtain ⟨hpre, -, hlength⟩ := hp
  have hwritten : ∀ payload, (random r).IsPayload payload →
      join '-' [p.refPrefix, join '-' (chunks 4 payload), referenceCheckSymbol payload] =
        (random r).canonical payload := by
    intro payload hpayload
    rw [← formatReference_eq_canonical r hpayload, hpre]
    simp [join, formatReference, RegisteredReferenceDefinition.refPrefix]
  simp only [normalizeRandom, bind_eq_ok_iff, ensure_eq_ok_iff, hlength]
  constructor
  · -- the byte before the check symbol cuts where the symbol does, since the payload is ASCII
    rintro ⟨_, -, h⟩
    split at h
    · contradiction
    · next payload supplied hsplit =>
        split at h
        · contradiction
        · next expected hcheck =>
            simp only [bind_eq_ok_iff, ensure_eq_ok_iff, pure_eq_ok_iff] at h
            obtain ⟨_, rfl, rfl⟩ := h
            obtain ⟨hvalid, hsymbol⟩ := checkSymbolOf_random_iff.mp hcheck
            obtain ⟨rfl, hlen⟩ := splitAtByte_eq_some_iff.mp hsplit
            have hsymbols : ∀ c ∈ payload, (random r).IsPayloadSymbol c := fun c hc =>
              (normalizeSymbol_mem_iff c).mp (hvalid _ (List.mem_map_of_mem hc))
            rw [utf8Length_of_isAscii (isAscii_of_isPayloadSymbol _ hsymbols)] at hlen
            have hraw : (random r).IsSpelledPayload payload := ⟨hlen, hsymbols⟩
            have hbody := hwritten _ (IsSpelledPayload.normalize _ hraw)
            refine ⟨payload, hraw, ?_, ?_⟩
            · rw [hyphenlessBody, ← hsymbol]
              rfl
            · rw [← hbody, ← hsymbol]
              rfl
  · rintro ⟨raw, hraw, rfl, rfl⟩
    obtain ⟨hlen, hsplit⟩ := splitAtByte_hyphenlessBody (random r) hraw
    refine ⟨(), hlen, ?_⟩
    have hpayload := IsSpelledPayload.normalize (random r) hraw
    obtain ⟨c, -, hc⟩ := checkSymbol_eq (random r) ((random r).normalize raw)
    have hcheck : checkSymbolOf (raw.map normalizeSymbol) false = some c :=
      checkSymbolOf_random_iff.mpr ⟨hpayload.2, hc⟩
    change splitAtByte r.payloadLength _ = _ at hsplit
    rw [hsplit]
    simp only [hcheck, bind_eq_ok_iff, ensure_eq_ok_iff, pure_eq_ok_iff]
    exact ⟨(), hc, hwritten _ hpayload⟩

/-- The formatter writes a payload that it is handed in two slices. -/
theorem formatSequential_slices {ports : List PortNamespaceDefinition} {name payload : Text}
    {item : PortNamespaceDefinition} {p : PortReferenceDefinition}
    {r : RegisteredSequentialReferenceDefinition} (hp : DescribesReference p (.sequence r))
    (hfind : findNamespace ports name = some item) (hitem : item.reference = some p)
    (hpayload : (sequence r).IsPayload payload) :
    formatSequential error digitsOnly ports name
        (payload.drop (if r.hasScope then 4 else 0)) (payload.take (if r.hasScope then 4 else 0)) =
      .ok ((sequence r).canonical payload) := by
  obtain ⟨hpre, hstrategy, hwidth, -⟩ := hp
  obtain ⟨name', reference⟩ := item
  subst hitem
  have hlen : payload.length = r.width + if r.hasScope then 4 else 0 := hpayload.1
  obtain ⟨c, -, hc⟩ := checkSymbol_eq (sequence r) payload
  have hcheck : checkSymbolOf payload true = some c := checkSymbolOf_sequence_iff.mpr ⟨hpayload.2, hc⟩
  have hdigits : ∀ c ∈ payload.drop (if r.hasScope then 4 else 0), c.isDigit = true := fun c hc =>
    hpayload.2 c (List.mem_of_mem_drop hc)
  have hsequence : utf8Length (payload.drop (if r.hasScope then 4 else 0)) = r.width := by
    rw [utf8Length_of_isAscii (isAscii_of_isDigit hdigits), List.length_drop, hlen]
    omega
  have hcanon := formatSequentialParts_eq_canonical r hpayload rfl
  change sequentialCheckSymbol payload = [c] at hc
  rw [hc] at hcanon
  simp only [formatSequential, padBytes, writtenCheckSymbol, hfind, hstrategy, if_true, hwidth,
    hsequence, Nat.sub_self, List.replicate_zero, List.nil_append, List.take_append_drop, hcheck,
    bind_eq_ok_iff, ensure_eq_ok_iff]
  refine ⟨(), ⟨le_rfl, fun _ => hdigits⟩, [c], rfl, ?_⟩
  rw [← hcanon]
  by_cases hscope : r.hasScope = true
  · have hne : payload.take 4 ≠ [] := by
      intro hnil
      have h0 := congrArg List.length hnil
      rw [List.length_take, hlen, if_pos hscope, List.length_nil] at h0
      omega
    simp [hscope, hne, hpre, scopeOf, formatSequentialParts, join, pure, Except.pure,
      RegisteredReferenceDefinition.refPrefix]
  · simp [hscope, hpre, scopeOf, formatSequentialParts, join, pure, Except.pure,
      RegisteredReferenceDefinition.refPrefix]

/-- **A sequential body** is accepted when it spells a payload. -/
theorem normalizeSequence_ok_iff {ports : List PortNamespaceDefinition} {name : Text}
    {item : PortNamespaceDefinition} {p p' : PortReferenceDefinition}
    {r : RegisteredSequentialReferenceDefinition} (hp : DescribesReference p (.sequence r))
    (hfind : findNamespace ports name = some item) (hitem : item.reference = some p')
    (hp' : DescribesReference p' (.sequence r)) {body w : Text} :
    normalizeSequence error cut digitsOnly ports name p body = .ok w ↔
      ∃ raw, (sequence r).IsSpelledPayload raw ∧ body = (sequence r).hyphenlessBody raw ∧
        w = (sequence r).canonical ((sequence r).normalize raw) := by
  obtain ⟨-, -, hwidth, hscope⟩ := id hp
  have hcond : (if p.scope = "calendar-year" then 4 else 0) = if r.hasScope then 4 else 0 := by
    simp only [hscope]
  have hlength : (if r.hasScope then 4 else 0) + r.width = (sequence r).payloadLength := by
    rw [Nat.add_comm]
    rfl
  simp only [normalizeSequence, bind_eq_ok_iff, ensure_eq_ok_iff, hcond, hwidth, hlength]
  constructor
  · rintro ⟨_, hbody, h⟩
    rw [hbody, Nat.add_sub_cancel] at h
    split at h
    · contradiction
    · next payload supplied hsplit =>
        split at h
        · contradiction
        · next expected hcheck =>
            simp only [bind_eq_ok_iff, ensure_eq_ok_iff] at h
            obtain ⟨_, rfl, h⟩ := h
            obtain ⟨hvalid, hsymbol⟩ := checkSymbolOf_sequence_iff.mp hcheck
            obtain ⟨rfl, hlen⟩ := splitAtByte_eq_some_iff.mp hsplit
            rw [utf8Length_of_isAscii (isAscii_of_isPayloadSymbol (sequence r) hvalid)] at hlen
            have hraw : (sequence r).IsSpelledPayload payload := ⟨hlen, hvalid⟩
            rw [formatSequential_slices hp' hfind hitem hraw] at h
            refine ⟨payload, hraw, ?_, (Except.ok.inj h).symm⟩
            rw [hyphenlessBody, ← hsymbol]
            rfl
  · rintro ⟨raw, hraw, rfl, rfl⟩
    obtain ⟨hlen, hsplit⟩ := splitAtByte_hyphenlessBody (sequence r) hraw
    refine ⟨(), hlen, ?_⟩
    obtain ⟨c, -, hc⟩ := checkSymbol_eq (sequence r) raw
    have hcheck : checkSymbolOf raw true = some c := checkSymbolOf_sequence_iff.mpr ⟨hraw.2, hc⟩
    rw [hlen, Nat.add_sub_cancel, hsplit]
    simp only [hcheck, bind_eq_ok_iff, ensure_eq_ok_iff]
    exact ⟨(), hc, formatSequential_slices hp' hfind hitem hraw⟩

end Bodies

/-! ## compact texts -/

section Compact

variable {registry : NamespaceRegistry} {compact w : Text}

/-- What a compact text spells is determined by it. -/
theorem compact_unique {d d' : RegisteredNamespaceDefinition} {r r' : RegisteredReferenceDefinition}
    {raw raw' : Text} (hd : d ∈ registry.definitions) (hd' : d' ∈ registry.definitions)
    (hr : d.reference = some r) (hr' : d'.reference = some r') (hraw : r.IsSpelledPayload raw)
    (hraw' : r'.IsSpelledPayload raw') (h : compact = r.refPrefix ++ r.hyphenlessBody raw)
    (h' : compact = r'.refPrefix ++ r'.hyphenlessBody raw') : r = r' ∧ raw = raw' := by
  have hdd := eq_of_refPrefix_of_text (v := compact) hd hd' hr hr'
    ⟨_, h.symm⟩ ⟨_, h'.symm⟩
  subst hdd
  have hrr : r = r' := Option.some.inj (hr.symm.trans hr')
  subst hrr
  have hbody := List.append_cancel_left (h.symm.trans h')
  exact ⟨rfl, (List.append_inj hbody (hraw.1.trans hraw'.1.symm)).1⟩

/-- Compact readings are short ASCII texts. -/
theorem IsCompactReading.facts (h : IsCompactReading registry compact w) :
    IsAscii compact ∧ compact.length ≤ 31 := by
  obtain ⟨d, -, r, -, raw, hraw, rfl, -⟩ := h
  constructor
  · intro c hc
    rcases List.mem_append.mp hc with hc | hc
    · exact toNat_lt_of_isUpper (isUpper_of_mem_refPrefix r.refPrefix_valid c hc)
    · exact isAscii_hyphenlessBody r hraw c hc
  · -- with a hyphen after the prefix, a text of at most 34 symbols that has
    -- the same symbols
    have hpre := (length_of_isReferencePrefix r.refPrefix_valid).2
    have hbody := (hyphenlessBody_slices r hraw).1
    have hsize : r.payloadLength ≤ 22 := by
      cases r with
      | random r =>
          change r.profile.payloadLength ≤ 22
          cases r.profile <;> decide
      | sequence r =>
          have hw := r.width_valid.2
          simp only [payloadLength]
          split <;> omega
    rw [List.length_append]
    omega

variable {ε : Type} {error : IdentifoldErrorCode → ε} {cut missing : ε} {digitsOnly : Bool}
  {ports : List PortNamespaceDefinition}

/-- The item of a namespace begins a text where the namespace's prefix does. -/
theorem isPrefixOf_of_describes {item : PortNamespaceDefinition} {d : RegisteredNamespaceDefinition}
    (h : Describes item d) (compact : Text) :
    (item.reference.any (·.refPrefix.isPrefixOf compact)) =
      d.refPrefix?.any (·.isPrefixOf compact) := by
  obtain ⟨-, href⟩ := h
  cases hd : d.reference with
  | none =>
      simp only [hd] at href
      simp [href, RegisteredNamespaceDefinition.refPrefix?, hd]
  | some r =>
      simp only [hd] at href
      obtain ⟨p, hp, hpre, -⟩ := href
      simp [hp, RegisteredNamespaceDefinition.refPrefix?, hd, hpre]

/-- The symbols of a hyphenless body are no separators of other identifiers. -/
theorem not_mem_hyphenlessBody {r : RegisteredReferenceDefinition} {raw : Text}
    (hraw : r.IsSpelledPayload raw) : '?' ∉ r.hyphenlessBody raw ∧ '_' ∉ r.hyphenlessBody raw := by
  have hsymbol : ∀ c ∈ r.hyphenlessBody raw, IsReferenceSymbol c := by
    intro c hc
    cases List.mem_append.mp hc with
    | inl hc => exact isReferenceSymbol_of_isPayloadSymbol r (hraw.2 c hc)
    | inr hc => exact isReferenceSymbol_of_mem_checkSymbol r hc
  refine ⟨fun h => ?_, fun h => (hsymbol _ h).facts.2.2 rfl⟩
  have hquestion : ¬ IsReferenceSymbol '?' := by decide
  exact hquestion (hsymbol _ h)

/-- The body after the prefix of a namespace is read by the strategy of its
reference; a sequence looks its namespace up once more, by name. -/
theorem normalizeBody_ok_iff (hports : List.Forall₂ Describes ports registry.definitions)
    {d : RegisteredNamespaceDefinition} (hd : d ∈ registry.definitions)
    {r : RegisteredReferenceDefinition} (hr : d.reference = some r)
    {p : PortReferenceDefinition} (hdescribes : DescribesReference p r) {body : Text} :
    (if p.strategy = "sequence" then
        normalizeSequence error cut digitsOnly ports d.publicPrefix p body
      else normalizeRandom error cut p body) = .ok w ↔
      ∃ raw, r.IsSpelledPayload raw ∧ body = r.hyphenlessBody raw ∧
        w = r.canonical (r.normalize raw) := by
  obtain ⟨hagain, -⟩ := Rows.find?_forall₂ (·.publicPrefix = d.publicPrefix)
    (·.publicPrefix = d.publicPrefix) hports fun a b hab => by rw [hab.1]
  obtain ⟨item, hitem, -, href⟩ :=
    hagain d (NamespaceRegistry.getByPublicPrefix_eq_some_iff.mpr ⟨hd, rfl⟩)
  simp only [hr] at href
  obtain ⟨p', hp', hdescribes'⟩ := href
  cases r with
  | random r =>
      rw [if_neg hdescribes.2.1]
      exact normalizeRandom_ok_iff hdescribes
  | sequence r =>
      rw [if_pos hdescribes.2.1]
      exact normalizeSequence_ok_iff hdescribes hitem hp' hdescribes'

/-- **The ports accept compact readings.** -/
theorem normalizeCompact_ok_iff (hports : List.Forall₂ Describes ports registry.definitions) :
    normalizeCompact error cut missing digitsOnly ports compact = .ok w ↔
      IsCompactReading registry compact w := by
  obtain ⟨hfound, hmissing⟩ := Rows.find?_forall₂ _ _ hports fun _ _ h =>
    isPrefixOf_of_describes h compact
  unfold normalizeCompact
  cases hdef : registry.definitions.find? fun d => d.refPrefix?.any (·.isPrefixOf compact) with
  | none =>
      rw [hmissing hdef]
      simp only [throw, throwThe, MonadExceptOf.throw, reduceCtorEq, false_iff]
      rintro ⟨d, hd, r, hr, raw, _, hcompact, _⟩
      have hsome := find?_refPrefix_eq_some_iff.mpr ⟨hd, r, hr, _, hcompact.symm⟩
      rw [hdef] at hsome
      contradiction
  | some d =>
      obtain ⟨hd, r, hr, body, rfl⟩ := find?_refPrefix_eq_some_iff.mp hdef
      obtain ⟨item, hitem, hname, href⟩ := hfound d hdef
      simp only [hr] at href
      obtain ⟨p, hp, hdescribes⟩ := href
      rw [hitem]
      obtain ⟨name, reference⟩ := item
      simp only at hp hname
      subst hp hname
      have hdrop : (r.refPrefix ++ body).drop p.refPrefix.length = body := by
        rw [hdescribes.1, List.drop_left]
      simp only [bind_eq_ok_iff, ensure_eq_ok_iff, hdrop, normalizeBody_ok_iff hports hd hr hdescribes]
      constructor
      · rintro ⟨_, _, raw, hraw, hbody, hw⟩
        exact ⟨d, hd, r, hr, raw, hraw, by rw [hbody], hw⟩
      · rintro ⟨d', hd', r', hr', raw, hraw, hcompact, hw⟩
        have hdd := eq_of_refPrefix_of_text hd hd' hr hr' ⟨body, rfl⟩ ⟨_, hcompact.symm⟩
        subst hdd
        have hrr : r' = r := Option.some.inj (hr'.symm.trans hr)
        subst hrr
        have hbody := List.append_cancel_left hcompact
        subst hbody
        exact ⟨(), not_mem_hyphenlessBody hraw, raw, hraw, rfl, hw⟩

end Compact

/-! ## the three implementations -/

section Implementations

variable {js go : CaseMapping} {uuid : UuidLibrary} {typeid : TypeIdLibrary}
  {registry : NamespaceRegistry} {ports : List PortNamespaceDefinition} {v w : Text}

/-- The forms of a written reference differ in their hyphens only. -/
theorem strip_of_written (r : RegisteredReferenceDefinition) {raw text : Text}
    (hraw : r.IsSpelledPayload raw) (h : r.IsWritten raw text) :
    strip '-' text = r.refPrefix ++ r.hyphenlessBody raw := by
  have hpre := strip_eq_self (hyphen_not_mem_refPrefix r.refPrefix_valid)
  have hless := strip_eq_self (hyphen_not_mem_hyphenlessBody r hraw)
  have hbody : strip '-' (r.hyphenatedBody raw) = r.hyphenlessBody raw :=
    ((body_forms_iff r hraw).mpr (.inr rfl)).1
  rcases h with rfl | rfl | rfl
  · rw [strip_append, hpre, hless]
  · rw [strip_append, strip_cons_self, hpre, hless]
  · rw [strip_append, strip_cons_self, hpre, hbody]

/-- Of the written references, the detector misses the hyphenless ones that
begin with nine letters. -/
theorem isReferenceStart_of_written (r : RegisteredReferenceDefinition) {raw : Text}
    (hraw : r.IsSpelledPayload raw) (h : r.IsWritten raw (asciiUpper v)) :
    isReferenceStart v = true ↔ ¬ (asciiUpper v = r.refPrefix ++ r.hyphenlessBody raw ∧
      ∀ c ∈ v.take 9, c.isAlpha = true) := by
  have hless : ∀ body, asciiUpper v = r.refPrefix ++ '-' :: body →
      asciiUpper v ≠ r.refPrefix ++ r.hyphenlessBody raw := by
    intro body hv heq
    have hmem : '-' ∈ r.refPrefix ++ r.hyphenlessBody raw := by
      rw [← heq, hv]; simp
    rcases List.mem_append.mp hmem with h | h
    · exact hyphen_not_mem_refPrefix r.refPrefix_valid h
    · exact hyphen_not_mem_hyphenlessBody r hraw h
  rw [← isReferenceStart_asciiUpper]
  rcases h with hv | hv | hv
  · rw [← isAlpha_take_asciiUpper_iff, hv, isReferenceStart_hyphenless r hraw]
    simp
  · have hne := hless _ hv
    rw [hv, isReferenceStart_of_hyphen, ← hv]
    simp [hne]
  · have hne := hless _ hv
    rw [hv, isReferenceStart_of_hyphen, ← hv]
    simp [hne]

/-- What the TypeScript package accepts of texts without underscores. -/
theorem normalize_ok_iff (js : CaseMapping) (uuid : UuidLibrary) (typeid : TypeIdLibrary)
    (registry : NamespaceRegistry) (hscore : '_' ∉ v) :
    normalize js uuid typeid registry v = .ok w ↔
      (IsMachineId w ∧ w = asciiLower v) ∨
        ∃ d ∈ registry.definitions, ∃ r, d.reference = some r ∧ ∃ raw, r.IsSpelledPayload raw ∧
          r.IsWritten raw (asciiUpper v) ∧ isReferenceStart v = true ∧
          w = r.canonical (r.normalize raw) := by
  simp only [normalize, bind_eq_ok_iff, pure_eq_ok_iff, parse_ok_iff]
  constructor
  · rintro ⟨x, ⟨hreading, hkind⟩, rfl⟩
    cases x with
    | mid m => exact .inl (parseMachineId_ok_iff.mp hreading)
    | pid p =>
        rw [detectIdentifierKind_eq hscore] at hkind
        split at hkind
        · simp [ParsedIdentifier.kind] at hkind
        · split at hkind <;> simp [ParsedIdentifier.kind] at hkind
    | ref result =>
        rw [detectIdentifierKind_of_ref hreading] at hkind
        split at hkind
        · next hstart =>
            obtain ⟨d, hd, r, hr, raw, hraw, hwritten, rfl⟩ := parseReference_ok_iff.mp hreading
            exact .inr ⟨d, hd, r, hr, raw, hraw, hwritten, hstart, rfl⟩
        · contradiction
  · rintro (hmid | ⟨d, hd, r, hr, raw, hraw, hwritten, hstart, rfl⟩)
    · have hparse : parseMachineId js uuid v = .ok w := parseMachineId_ok_iff.mpr hmid
      exact ⟨.mid w, ⟨hparse, detectIdentifierKind_of_mid hparse⟩, rfl⟩
    · have hparse := parseReference_ok_iff.mpr ⟨d, hd, r, hr, raw, hraw, hwritten, rfl⟩
      exact ⟨.ref _, ⟨hparse, (detectIdentifierKind_of_ref hparse).trans (if_pos hstart)⟩, rfl⟩

/-- What the Rust port accepts of them. -/
theorem Rust.normalize_ok_iff (hports : List.Forall₂ Describes ports registry.definitions)
    (hscore : '_' ∉ v) :
    Rust.normalize v ports = .ok w ↔ (IsMachineId w ∧ w = asciiLower v) ∨
      (utf8Length v ≠ 36 ∧ IsCompactReading registry (strip '-' (asciiUpper v)) w) := by
  rw [Rust.normalize, if_neg hscore]
  split
  · next hlen => simp [Rust.parseMachineId_ok_iff, hlen]
  · next hlen =>
      rw [normalizeCompact_ok_iff hports]
      constructor
      · intro h
        exact .inr ⟨hlen, h⟩
      · rintro (⟨hmachine, rfl⟩ | h)
        · obtain ⟨h36, hascii, -, -⟩ := hmachine.facts
          rw [isAscii_asciiLower_iff] at hascii
          rw [length_asciiLower, ← utf8Length_of_isAscii hascii] at h36
          exact absurd h36 hlen
        · exact h.2

/-- What the Go port accepts of them. -/
theorem Go.normalize_ok_iff (go : CaseMapping) (hports : List.Forall₂ Describes ports registry.definitions)
    (hscore : '_' ∉ v) :
    Go.normalize go v ports = .ok w ↔ (IsMachineId w ∧ w = asciiLower v) ∨
      (¬ machinePattern (asciiLower v) = true ∧
        IsCompactReading registry (strip '-' (go.toUpper v)) w) := by
  have hpattern := machinePattern_toLower_iff go (v := v)
  rw [Go.normalize, if_neg hscore]
  split
  · next hmachine => simp [Go.parseMachineId_ok_iff, hpattern.mp hmachine]
  · next hmachine =>
      rw [hpattern] at hmachine
      rw [normalizeCompact_ok_iff hports]
      constructor
      · intro h
        exact .inr ⟨hmachine, h⟩
      · rintro (⟨hid, rfl⟩ | h)
        · exact absurd (isMachineId_iff.mp hid).1 hmachine
        · exact h.2

/-- A text of the machine identifier pattern spells no reference: without its
hyphens it still has 32 symbols. -/
theorem not_compact_of_machinePattern (h : machinePattern (asciiLower v) = true) :
    ¬ IsCompactReading registry (strip '-' (go.toUpper v)) w := by
  obtain ⟨hex, hhex, hv⟩ := machinePattern_iff.mp h
  intro hreading
  have hascii := isAscii_of_asciiLower_eq_formatUuid hhex hv
  have hlen := hreading.facts.2
  rw [go.toUpper_ascii v hascii, strip_asciiUpper, length_asciiUpper, ← length_asciiLower,
    ← strip_asciiLower, hv, strip_formatUuid hhex, hhex.1] at hlen
  omega

/-- A text that is ASCII once upper-cased and stripped is ASCII. -/
theorem isAscii_of_compact (h : IsCompactReading registry (strip '-' (asciiUpper v)) w) :
    IsAscii v := by
  have hcompact := h.facts.1
  rw [← isAscii_asciiUpper_iff]
  intro c hc
  by_cases hne : c = '-'
  · rw [hne]; decide
  · exact hcompact c (mem_strip_of_mem hc hne)

end Implementations

/-- All three results are the same success, or all three are failures. -/
def Agree {ε₁ ε₂ ε₃ : Type} (x : Except ε₁ Text) (y : Except ε₂ Text) (z : Except ε₃ Text) : Prop :=
  (∃ w, x = .ok w ∧ y = .ok w ∧ z = .ok w) ∨
    ((∀ w, x ≠ .ok w) ∧ (∀ w, y ≠ .ok w) ∧ ∀ w, z ≠ .ok w)

/-- Where the text spells a registered reference for the Go port, it is
hyphenated as the TypeScript parser reads it, and does not begin with nine
letters when it has no hyphen. -/
def IsCommonSpelling (go : CaseMapping) (registry : NamespaceRegistry) (v : Text) : Prop :=
  ∀ d ∈ registry.definitions, ∀ r, d.reference = some r → ∀ raw, r.IsSpelledPayload raw →
    strip '-' (go.toUpper v) = r.refPrefix ++ r.hyphenlessBody raw →
      r.IsWritten raw (asciiUpper v) ∧
        ¬ (asciiUpper v = r.refPrefix ++ r.hyphenlessBody raw ∧ ∀ c ∈ v.take 9, c.isAlpha = true)

section Agreement

variable {js go : CaseMapping} {uuid : UuidLibrary} {typeid : TypeIdLibrary}
  {definitions : List NamespaceDefinition} {registry : NamespaceRegistry} {v w : Text}

/-- What the Rust port reads, the Go port reads alike. -/
theorem IsCompactReading.toUpper (h : IsCompactReading registry (strip '-' (asciiUpper v)) w) :
    IsCompactReading registry (strip '-' (go.toUpper v)) w := by
  rw [go.toUpper_ascii v (isAscii_of_compact h)]
  exact h

/-- A written reference is read without its hyphens. -/
theorem isCompactReading_of_written {d : RegisteredNamespaceDefinition} {r : RegisteredReferenceDefinition}
    {raw : Text}
    (hd : d ∈ registry.definitions) (hr : d.reference = some r) (hraw : r.IsSpelledPayload raw)
    (hwritten : r.IsWritten raw (asciiUpper v)) :
    IsCompactReading registry (strip '-' (asciiUpper v)) (r.canonical (r.normalize raw)) :=
  ⟨d, hd, r, hr, raw, hraw, strip_of_written r hraw hwritten, rfl⟩

/-- A written reference has not the length of a machine identifier. -/
theorem utf8Length_of_written {r : RegisteredReferenceDefinition} {raw : Text} (hraw : r.IsSpelledPayload raw)
    (hwritten : r.IsWritten raw (asciiUpper v)) (hascii : IsAscii v) : utf8Length v ≠ 36 := by
  have h34 := (length_written_le r hraw hwritten).1
  rw [length_asciiUpper] at h34
  rw [utf8Length_of_isAscii hascii]
  omega

/-- Implementations that agree read common spellings only: where the Go port
reads a reference, the TypeScript package must. -/
theorem isCommonSpelling_of_agree (hcreate : createNamespaceRegistry definitions = .ok registry)
    (hscore : '_' ∉ v)
    (hagree : Agree (Rust.normalize v (definitions.map NamespaceDefinition.toPort))
      (Go.normalize go v (definitions.map NamespaceDefinition.toPort))
      (normalize js uuid typeid registry v)) :
    IsCommonSpelling go registry v := by
  intro d hd r hr raw hraw hcompact
  have hreading : IsCompactReading registry (strip '-' (go.toUpper v))
      (r.canonical (r.normalize raw)) := ⟨d, hd, r, hr, raw, hraw, hcompact, rfl⟩
  have hpattern : ¬ machinePattern (asciiLower v) = true := fun h =>
    not_compact_of_machinePattern h hreading
  have hok := (Go.normalize_ok_iff go (describes_of_create hcreate) hscore).mpr
    (.inr ⟨hpattern, hreading⟩)
  -- the Go port succeeds, so the TypeScript package does
  obtain ⟨w, hw⟩ : ∃ w, normalize js uuid typeid registry v = .ok w := by
    rcases hagree with ⟨w, -, -, hw⟩ | ⟨-, hnone, -⟩
    · exact ⟨w, hw⟩
    · exact absurd hok (hnone _)
  rcases (normalize_ok_iff js uuid typeid registry hscore).mp hw with
    ⟨hmachine, rfl⟩ | ⟨d', hd', r', hr', raw', hraw', hwritten, hstart, -⟩
  · exact absurd (isMachineId_iff.mp hmachine).1 hpattern
  · have hstrip := strip_of_written r' hraw' hwritten
    have hascii := isAscii_of_compact (isCompactReading_of_written hd' hr' hraw' hwritten)
    -- both read the same payload in the same namespace
    rw [go.toUpper_ascii v hascii] at hcompact
    obtain ⟨rfl, rfl⟩ := compact_unique hd hd' hr hr' hraw hraw' hcompact hstrip
    exact ⟨hwritten, (isReferenceStart_of_written r hraw hwritten).mp hstart⟩

/-- A common spelling that the Go port reads is read alike by all three. -/
theorem agree_of_common_reading (hcreate : createNamespaceRegistry definitions = .ok registry)
    (hscore : '_' ∉ v) (hcommon : IsCommonSpelling go registry v)
    (hreading : IsCompactReading registry (strip '-' (go.toUpper v)) w) :
    Agree (Rust.normalize v (definitions.map NamespaceDefinition.toPort))
      (Go.normalize go v (definitions.map NamespaceDefinition.toPort))
      (normalize js uuid typeid registry v) := by
  have hports := describes_of_create hcreate
  have hpattern : ¬ machinePattern (asciiLower v) = true := fun h =>
    not_compact_of_machinePattern h hreading
  have hgo := (Go.normalize_ok_iff go hports hscore).mpr (.inr ⟨hpattern, hreading⟩)
  obtain ⟨d, hd, r, hr, raw, hraw, hcompact, rfl⟩ := hreading
  obtain ⟨hwritten, hdetected⟩ := hcommon d hd r hr raw hraw hcompact
  have hrust := isCompactReading_of_written hd hr hraw hwritten
  have hlen := utf8Length_of_written hraw hwritten (isAscii_of_compact hrust)
  have hstart := (isReferenceStart_of_written r hraw hwritten).mpr hdetected
  exact .inl ⟨_, (Rust.normalize_ok_iff hports hscore).mpr (.inr ⟨hlen, hrust⟩), hgo,
    (normalize_ok_iff js uuid typeid registry hscore).mpr
      (.inr ⟨d, hd, r, hr, raw, hraw, hwritten, hstart, rfl⟩)⟩

/-- A text that is no machine identifier and that the Go port does not read as
a reference is read by none. -/
theorem agree_of_no_reading (hcreate : createNamespaceRegistry definitions = .ok registry)
    (hscore : '_' ∉ v) (hmachine : ¬ IsMachineId (asciiLower v))
    (hnone : ∀ w, ¬ IsCompactReading registry (strip '-' (go.toUpper v)) w) :
    Agree (Rust.normalize v (definitions.map NamespaceDefinition.toPort))
      (Go.normalize go v (definitions.map NamespaceDefinition.toPort))
      (normalize js uuid typeid registry v) := by
  have hports := describes_of_create hcreate
  refine .inr ⟨fun w h => ?_, fun w h => ?_, fun w h => ?_⟩
  · rcases (Rust.normalize_ok_iff hports hscore).mp h with ⟨hid, rfl⟩ | ⟨-, h⟩
    · exact hmachine hid
    · exact hnone w h.toUpper
  · rcases (Go.normalize_ok_iff go hports hscore).mp h with ⟨hid, rfl⟩ | ⟨-, h⟩
    · exact hmachine hid
    · exact hnone w h
  · rcases (normalize_ok_iff js uuid typeid registry hscore).mp h with
      ⟨hid, rfl⟩ | ⟨d, hd, r, hr, raw, hraw, hwritten, -, rfl⟩
    · exact hmachine hid
    · exact hnone _ (isCompactReading_of_written hd hr hraw hwritten).toUpper

end Agreement

/-- **Agreement**: on texts without underscores, the three implementations
agree exactly on the common spellings. -/
theorem normalize_agree_iff (js go : CaseMapping) (uuid : UuidLibrary) (typeid : TypeIdLibrary)
    {definitions : List NamespaceDefinition} {registry : NamespaceRegistry}
    (hcreate : createNamespaceRegistry definitions = .ok registry) {v : Text} (hscore : '_' ∉ v) :
    Agree (Rust.normalize v (definitions.map NamespaceDefinition.toPort))
        (Go.normalize go v (definitions.map NamespaceDefinition.toPort))
        (normalize js uuid typeid registry v) ↔
      IsCommonSpelling go registry v := by
  constructor
  · exact isCommonSpelling_of_agree hcreate hscore
  · intro hcommon
    have hports := describes_of_create hcreate
    by_cases hmachine : IsMachineId (asciiLower v)
    · exact .inl ⟨_, (Rust.normalize_ok_iff hports hscore).mpr (.inl ⟨hmachine, rfl⟩),
        (Go.normalize_ok_iff go hports hscore).mpr (.inl ⟨hmachine, rfl⟩),
        (normalize_ok_iff js uuid typeid registry hscore).mpr (.inl ⟨hmachine, rfl⟩)⟩
    by_cases hreading : ∃ w, IsCompactReading registry (strip '-' (go.toUpper v)) w
    · obtain ⟨w, hreading⟩ := hreading
      exact agree_of_common_reading hcreate hscore hcommon hreading
    · exact agree_of_no_reading hcreate hscore hmachine (fun w h => hreading ⟨w, h⟩)

/-- On `ORD-7K4M-2P8Q-3D-9` the three agree: it is hyphenated as all of them
read it. -/
theorem normalize_agree_canonical :
    Agree (Rust.normalize "ORD-7K4M-2P8Q-3D-9".toList
        (sampleDefinitions.map NamespaceDefinition.toPort))
      (Go.normalize asciiCaseMapping "ORD-7K4M-2P8Q-3D-9".toList
        (sampleDefinitions.map NamespaceDefinition.toPort))
      (normalize asciiCaseMapping rfc9562 typeIdV03 sampleRegistry "ORD-7K4M-2P8Q-3D-9".toList) := by
  refine (normalize_agree_iff asciiCaseMapping asciiCaseMapping rfc9562 typeIdV03
    (rfl : createNamespaceRegistry sampleDefinitions = .ok sampleRegistry) (by decide)).mpr ?_
  intro d hd r hr raw hraw hcompact
  have hstrip : strip '-' (asciiCaseMapping.toUpper "ORD-7K4M-2P8Q-3D-9".toList) =
      "ORD7K4M2P8Q3D9".toList := by decide
  rw [hstrip] at hcompact
  refine ⟨?_, fun hletters => absurd hletters.2 (by decide)⟩
  rcases List.mem_pair.mp (hd : d ∈ [orderDefinition, invoiceDefinition]) with rfl | rfl
  · obtain rfl : random orderReference = r := Option.some.inj hr
    -- the payload is what stands between the prefix and the check symbol
    obtain rfl : "7K4M2P8Q3D".toList = raw := by
      have hpayload := congrArg (fun text => (text.drop 3).take 10) hcompact
      have hlen : raw.length = 10 := hraw.1
      simpa [hyphenlessBody, refPrefix, orderReference, hlen] using hpayload
    exact .inr (.inr (by decide))
  · obtain rfl : sequence invoiceReference = r := Option.some.inj hr
    have hpre := congrArg (List.take 3) hcompact
    simp [refPrefix, invoiceReference] at hpre

/-- On the partially hyphenated `ORD7K4M-2P8Q3D9` they do not. -/
theorem normalize_disagree_partial_hyphenation :
    ¬ Agree (Rust.normalize "ORD7K4M-2P8Q3D9".toList
        (sampleDefinitions.map NamespaceDefinition.toPort))
      (Go.normalize asciiCaseMapping "ORD7K4M-2P8Q3D9".toList
        (sampleDefinitions.map NamespaceDefinition.toPort))
      (normalize asciiCaseMapping rfc9562 typeIdV03 sampleRegistry "ORD7K4M-2P8Q3D9".toList) := by
  have hrust : Rust.normalize "ORD7K4M-2P8Q3D9".toList
      (sampleDefinitions.map NamespaceDefinition.toPort) = .ok "ORD-7K4M-2P8Q-3D-9".toList := by
    decide
  have hts : normalize asciiCaseMapping rfc9562 typeIdV03 sampleRegistry
      "ORD7K4M-2P8Q3D9".toList = .error (.identifold ⟨.unknownNamespace,
        "Unknown human reference namespace"⟩) := by
    rfl
  rintro (⟨w, -, -, h⟩ | ⟨h, -, -⟩)
  · rw [hts] at h
    contradiction
  · exact h _ hrust

end Identifold
