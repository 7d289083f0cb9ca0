import Identifold.Reference.Spelling

/-!
# Identifold.Reference.Roundtrip

Formatting and parsing are inverse.  Both formatters write the canonical text
of a payload, and the canonical text of a payload of a registered definition
parses to that definition and payload (`parseReference_canonical`).  The
round trips, the injectivity of formatting over a whole registry and the
idempotence of normalization all follow from this one fact.
-/

namespace Identifold

open Separated RegisteredReferenceDefinition

section Canonical

variable {registry : NamespaceRegistry} {d : RegisteredNamespaceDefinition}
  {r : RegisteredReferenceDefinition} {payload : Text}

/-- Canonical texts are upper-case. -/
theorem asciiUpper_canonical (h : r.IsPayload payload) :
    asciiUpper (r.canonical payload) = r.canonical payload := by
  obtain ⟨hspelled, -⟩ := IsPayload.spelled r h
  apply asciiUpper_eq_self
  intro c hc
  rcases mem_written r hspelled (.inr (.inr (canonical_eq r h))) hc with hs | rfl
  · exact hs.facts.1
  · decide

/-- **Canonical texts parse to their payload.** -/
theorem parseReference_canonical (hd : d ∈ registry.definitions) (hr : d.reference = some r)
    (h : r.IsPayload payload) :
    parseReference (r.canonical payload) registry = .ok (r.parsed d.publicPrefix payload) := by
  obtain ⟨hspelled, hnorm⟩ := IsPayload.spelled r h
  rw [parseReference_ok_iff, asciiUpper_canonical h]
  exact ⟨d, hd, r, hr, payload, hspelled, .inr (.inr (canonical_eq r h)), by rw [hnorm]⟩

/-- What a successful parse returns, as a payload of a registered definition. -/
theorem parseReference_eq_parsed {v : Text} {result : ParsedReference}
    (h : parseReference v registry = .ok result) :
    ∃ d ∈ registry.definitions, ∃ r, d.reference = some r ∧ ∃ payload, r.IsPayload payload ∧
      result = r.parsed d.publicPrefix payload := by
  obtain ⟨d, hd, r, hr, raw, hraw, -, rfl⟩ := parseReference_ok_iff.mp h
  exact ⟨d, hd, r, hr, _, IsSpelledPayload.normalize r hraw, rfl⟩

end Canonical

/-- **Idempotence**: a parsed value parses to the same result. -/
theorem parseReference_value {registry : NamespaceRegistry} {v : Text} {result : ParsedReference}
    (h : parseReference v registry = .ok result) :
    parseReference result.value registry = .ok result := by
  obtain ⟨d, hd, r, hr, payload, hpayload, rfl⟩ := parseReference_eq_parsed h
  exact parseReference_canonical hd hr hpayload

/-! ## the random formatter -/

/-- The payload a byte string selects: the low five bits of every byte. -/
def payloadOfBytes (bytes : List UInt8) : Text :=
  bytes.flatMap fun byte => charAt dataAlphabet (byte &&& 31).toNat

theorem toNat_and_31 (byte : UInt8) : (byte &&& 31).toNat = byte.toNat % 32 := by
  rw [UInt8.toNat_and]
  exact Nat.and_two_pow_sub_one_eq_mod byte.toNat 5

/-- Every byte selects one data symbol, the one of its value modulo 32. -/
theorem charAt_byte (byte : UInt8) : ∃ c ∈ dataAlphabet,
    charAt dataAlphabet (byte &&& 31).toNat = [c] ∧ dataAlphabet[byte.toNat % 32]? = some c := by
  have hlt : byte.toNat % 32 < dataAlphabet.length := Nat.mod_lt _ (by decide)
  refine ⟨dataAlphabet[byte.toNat % 32], List.getElem_mem hlt, ?_, by simp [hlt]⟩
  rw [charAt, toNat_and_31]
  simp [hlt]

theorem payloadOfBytes_cons (byte : UInt8) (bytes : List UInt8) :
    payloadOfBytes (byte :: bytes) =
      charAt dataAlphabet (byte &&& 31).toNat ++ payloadOfBytes bytes :=
  List.flatMap_cons

theorem length_payloadOfBytes (bytes : List UInt8) :
    (payloadOfBytes bytes).length = bytes.length := by
  induction bytes with
  | nil => rfl
  | cons byte bytes ih =>
      obtain ⟨c, -, hc, -⟩ := charAt_byte byte
      rw [payloadOfBytes_cons, hc, List.length_append, ih]
      simp [Nat.add_comm]

theorem mem_payloadOfBytes {bytes : List UInt8} {c : Char} (h : c ∈ payloadOfBytes bytes) :
    c ∈ dataAlphabet := by
  obtain ⟨byte, -, hc⟩ := List.mem_flatMap.mp h
  obtain ⟨d, hd, heq, -⟩ := charAt_byte byte
  rw [heq, List.mem_singleton] at hc
  rwa [hc]

/-- The `i`-th symbol is the data symbol of the `i`-th byte modulo 32. -/
theorem getElem?_payloadOfBytes (bytes : List UInt8) (i : Nat) :
    (payloadOfBytes bytes)[i]? = bytes[i]?.bind fun byte => dataAlphabet[byte.toNat % 32]? := by
  induction bytes generalizing i with
  | nil => simp [payloadOfBytes]
  | cons byte bytes ih =>
      obtain ⟨c, -, hc, hget⟩ := charAt_byte byte
      rw [payloadOfBytes_cons, hc, List.singleton_append]
      cases i with
      | zero => simp [hget]
      | succ i => simpa using ih i

/-- Equal payloads come from bytes that agree modulo 32. -/
theorem payloadOfBytes_injective {xs ys : List UInt8} (h : payloadOfBytes xs = payloadOfBytes ys) :
    xs.map (·.toNat % 32) = ys.map (·.toNat % 32) := by
  have hnodup : dataAlphabet.Nodup := by decide
  induction xs generalizing ys with
  | nil =>
      have hlen := congrArg List.length h
      rw [length_payloadOfBytes, length_payloadOfBytes, List.length_nil] at hlen
      rw [List.length_eq_zero_iff.mp hlen.symm]
  | cons x xs ih =>
      cases ys with
      | nil =>
          have hlen := congrArg List.length h
          rw [length_payloadOfBytes, length_payloadOfBytes] at hlen
          simp at hlen
      | cons y ys =>
          obtain ⟨c, -, hc, hgetc⟩ := charAt_byte x
          obtain ⟨e, -, he, hgete⟩ := charAt_byte y
          rw [payloadOfBytes_cons, payloadOfBytes_cons, hc, he] at h
          simp only [List.singleton_append, List.cons.injEq] at h
          obtain ⟨rfl, hrest⟩ := h
          have hlt : x.toNat % 32 < dataAlphabet.length := Nat.mod_lt _ (by decide)
          have hhead : x.toNat % 32 = y.toNat % 32 :=
            (List.getElem?_inj hlt hnodup).mp (hgetc.trans hgete.symm)
          rw [List.map_cons, List.map_cons, hhead, ih hrest]

/-- A random namespace is a registered definition with a random reference. -/
theorem requireRandomNamespace_ok_iff {registry : NamespaceRegistry} {namespaceName : Text}
    {r : RegisteredRandomReferenceDefinition} :
    requireRandomNamespace registry namespaceName = .ok r ↔
      ∃ d ∈ registry.definitions, d.publicPrefix = namespaceName ∧
        d.reference = some (.random r) := by
  unfold requireRandomNamespace
  constructor
  · intro h
    split at h
    · contradiction
    · next d hget =>
        obtain ⟨hd, hp⟩ := NamespaceRegistry.getByPublicPrefix_eq_some_iff.mp hget
        split at h
        · next reference hr =>
            exact ⟨d, hd, hp, by rw [hr, Except.ok.inj h]⟩
        · contradiction
  · rintro ⟨d, hd, hp, hr⟩
    rw [NamespaceRegistry.getByPublicPrefix_eq_some_iff.mpr ⟨hd, hp⟩]
    simp only [hr]

/-- A candidate is the canonical text of the payload its bytes select. -/
theorem createReferenceCandidate_ok_iff {registry : NamespaceRegistry} {namespaceName s : Text}
    {randomBytes : Nat → List UInt8} :
    createReferenceCandidate registry namespaceName randomBytes = .ok s ↔
      ∃ d ∈ registry.definitions, d.publicPrefix = namespaceName ∧
        ∃ r, d.reference = some (.random r) ∧
          (randomBytes r.payloadLength).length = r.payloadLength ∧
          s = (random r).canonical (payloadOfBytes (randomBytes r.payloadLength)) := by
  have hpayload : ∀ r : RegisteredRandomReferenceDefinition,
      (randomBytes r.payloadLength).length = r.payloadLength →
      (random r).IsPayload (payloadOfBytes (randomBytes r.payloadLength)) := fun r hlen =>
    ⟨by rw [length_payloadOfBytes, hlen], fun c hc => mem_payloadOfBytes hc⟩
  have hcheck : ∀ r : RegisteredRandomReferenceDefinition,
      (randomBytes r.payloadLength).length = r.payloadLength →
      calculateReferenceCheckSymbol (payloadOfBytes (randomBytes r.payloadLength)) =
        .ok (referenceCheckSymbol (payloadOfBytes (randomBytes r.payloadLength))) := fun r hlen =>
    calculateReferenceCheckSymbol_eq (payload_ne_nil (random r) (hpayload r hlen).1)
      (hpayload r hlen).2
  simp only [createReferenceCandidate, bind_eq_ok_iff, ensure_eq_ok_iff, pure_eq_ok_iff,
    requireRandomNamespace_ok_iff]
  constructor
  · rintro ⟨r, ⟨d, hd, hp, hr⟩, _, hlen, check, hc, rfl⟩
    refine ⟨d, hd, hp, r, hr, hlen, ?_⟩
    have heq := (hcheck r hlen).symm.trans hc
    rw [← Except.ok.inj heq]
    exact formatReference_eq_canonical r (hpayload r hlen)
  · rintro ⟨d, hd, hp, r, hr, hlen, rfl⟩
    exact ⟨r, ⟨d, hd, hp, hr⟩, (), hlen, _, hcheck r hlen,
      formatReference_eq_canonical r (hpayload r hlen)⟩

/-! ## the sequential formatter -/

/-- The scopes a policy admits: a four-digit year where it has one, nothing
otherwise. -/
def RegisteredSequentialReferenceDefinition.AdmitsScope
    (r : RegisteredSequentialReferenceDefinition) : Option Text → Prop
  | some year => r.hasScope = true ∧ isFourDigits year = true
  | none => r.hasScope = false

/-- The digits of `n`, padded to the policy's width. -/
def RegisteredSequentialReferenceDefinition.sequenceDigits
    (r : RegisteredSequentialReferenceDefinition) (n : Nat) : Text :=
  padStart r.width (Nat.toDigits 10 n)

section Sequential

variable (r : RegisteredSequentialReferenceDefinition) {n : Nat} {scope : Option Text}

/-- A scope and a number below the capacity make a payload, from which both
are read back. -/
theorem sequentialPayload_facts (hscope : r.AdmitsScope scope) (hn : n < 10 ^ r.width) :
    (sequence r).IsPayload (scope.getD [] ++ r.sequenceDigits n) ∧
      (sequence r).scopeOf (scope.getD [] ++ r.sequenceDigits n) = scope ∧
      (sequence r).sequenceOf (scope.getD [] ++ r.sequenceDigits n) =
        some (r.sequenceDigits n) := by
  have hlen : (r.sequenceDigits n).length = r.width :=
    length_padStart (by have := r.width_valid.1; omega) hn
  have hdigits : ∀ c ∈ r.sequenceDigits n, c.isDigit = true := fun c hc =>
    isDigit_of_mem_padStart hc
  cases scope with
  | none =>
      have hs : r.hasScope = false := hscope
      refine ⟨⟨?_, by simpa using hdigits⟩, ?_, ?_⟩
      · simp [payloadLength, hs, hlen]
      · simp [scopeOf, hs]
      · simp [sequenceOf, hs]
  | some year =>
      obtain ⟨hs, hyear⟩ := hscope
      simp only [isFourDigits, Bool.and_eq_true, decide_eq_true_eq, List.all_eq_true] at hyear
      obtain ⟨hfour, hall⟩ := hyear
      refine ⟨⟨?_, ?_⟩, ?_, ?_⟩
      · simp [payloadLength, hs, hlen, hfour, Nat.add_comm]
      · intro c hc
        rcases List.mem_append.mp hc with h | h
        · exact hall c h
        · exact hdigits c h
      · simp only [scopeOf, hs, if_true, Option.getD_some]
        rw [List.take_left' hfour]
      · simp only [sequenceOf, hs, if_true, Option.getD_some]
        rw [List.drop_left' hfour]

/-- The formatter's scope test is the policy's. -/
theorem sequentialPayload_ok_iff {padded payload : Text} :
    sequentialPayload r padded scope = .ok payload ↔
      r.AdmitsScope scope ∧ payload = scope.getD [] ++ padded := by
  unfold sequentialPayload RegisteredSequentialReferenceDefinition.AdmitsScope
    RegisteredSequentialReferenceDefinition.hasScope
  cases hs : r.scope with
  | calendarYear =>
      cases scope with
      | none => simp
      | some year =>
          by_cases hyear : isFourDigits year = true
          · simp only [hyear, if_true, Except.ok.injEq, Option.getD_some]
            exact ⟨fun h => ⟨⟨rfl, trivial⟩, h.symm⟩, fun h => h.2.symm⟩
          · simp [hyear]
  | none =>
      cases scope with
      | none =>
          simp only [Except.ok.injEq, Option.getD_none, List.nil_append]
          exact ⟨fun h => ⟨rfl, h.symm⟩, fun h => h.2.symm⟩
      | some year => simp

end Sequential

theorem requireSequentialNamespace_ok_iff {registry : NamespaceRegistry} {namespaceName : Text}
    {r : RegisteredSequentialReferenceDefinition} :
    requireSequentialNamespace registry namespaceName = .ok r ↔
      ∃ d ∈ registry.definitions, d.publicPrefix = namespaceName ∧
        d.reference = some (.sequence r) := by
  unfold requireSequentialNamespace
  constructor
  · intro h
    split at h
    · contradiction
    · next d hget =>
        obtain ⟨hd, hp⟩ := NamespaceRegistry.getByPublicPrefix_eq_some_iff.mp hget
        split at h
        · next reference hr =>
            exact ⟨d, hd, hp, by rw [hr, Except.ok.inj h]⟩
        · contradiction
  · rintro ⟨d, hd, hp, hr⟩
    rw [NamespaceRegistry.getByPublicPrefix_eq_some_iff.mpr ⟨hd, hp⟩]
    simp only [hr]

/-- A formatted sequence is the canonical text of its scope and digits. -/
theorem formatSequentialReference_ok_iff {registry : NamespaceRegistry} {namespaceName s : Text}
    {n : Int} {scope : Option Text} :
    formatSequentialReference registry namespaceName n scope = .ok s ↔
      ∃ d ∈ registry.definitions, d.publicPrefix = namespaceName ∧
        ∃ r, d.reference = some (.sequence r) ∧ 0 ≤ n ∧ n.toNat < 10 ^ r.width ∧
          r.AdmitsScope scope ∧
          s = (sequence r).canonical (scope.getD [] ++ r.sequenceDigits n.toNat) := by
  have hformat : ∀ r : RegisteredSequentialReferenceDefinition, r.AdmitsScope scope →
      n.toNat < 10 ^ r.width →
      calculateSequentialCheckSymbol (scope.getD [] ++ r.sequenceDigits n.toNat) =
          .ok (sequentialCheckSymbol (scope.getD [] ++ r.sequenceDigits n.toNat)) ∧
        formatSequentialParts r.refPrefix (r.sequenceDigits n.toNat)
            (sequentialCheckSymbol (scope.getD [] ++ r.sequenceDigits n.toNat)) scope =
          (sequence r).canonical (scope.getD [] ++ r.sequenceDigits n.toNat) := by
    intro r hscope hn
    obtain ⟨hpayload, hsc, hseq⟩ := sequentialPayload_facts r hscope hn
    refine ⟨calculateSequentialCheckSymbol_eq (payload_ne_nil _ hpayload.1) hpayload.2, ?_⟩
    have h := formatSequentialParts_eq_canonical r hpayload hseq
    rwa [hsc] at h
  simp only [formatSequentialReference, bind_eq_ok_iff, ensure_eq_ok_iff, pure_eq_ok_iff,
    requireSequentialNamespace_ok_iff, sequentialPayload_ok_iff]
  constructor
  · rintro ⟨r, ⟨d, hd, hp, hr⟩, _, hpos, _, hlen, _, ⟨hscope, rfl⟩, check, hc, rfl⟩
    have hw : 0 < r.width := by have := r.width_valid.1; omega
    have hn := (Nat.length_toDigits_le_iff (by decide : 1 < 10) hw).mp hlen
    obtain ⟨hcheck, hcanon⟩ := hformat r hscope hn
    refine ⟨d, hd, hp, r, hr, hpos, hn, hscope, ?_⟩
    rw [← hcanon, ← Except.ok.inj (hcheck.symm.trans hc)]
    rfl
  · rintro ⟨d, hd, hp, r, hr, hpos, hn, hscope, rfl⟩
    have hw : 0 < r.width := by have := r.width_valid.1; omega
    obtain ⟨hcheck, hcanon⟩ := hformat r hscope hn
    exact ⟨r, ⟨d, hd, hp, hr⟩, (), hpos, (),
      (Nat.length_toDigits_le_iff (by decide : 1 < 10) hw).mpr hn, _, ⟨hscope, rfl⟩, _, hcheck,
      hcanon⟩

/-! ## the round trips -/

/-- What a formatter is asked to write: a random candidate over the bytes its
source returns, or a sequence number. -/
inductive ReferenceContent
  | candidate (namespaceName : Text) (bytes : List UInt8)
  | sequence (namespaceName : Text) (n : Int) (scope : Option Text)

namespace ReferenceContent

/-- The formatter of a content. -/
def format (registry : NamespaceRegistry) : ReferenceContent → Except IdentifoldError Text
  | .candidate namespaceName bytes =>
      createReferenceCandidate registry namespaceName fun _ => bytes
  | .sequence namespaceName n scope => formatSequentialReference registry namespaceName n scope

/-- The parse result shows the content: its namespace, and the payload from
which bytes, scope or number are read back. -/
def IsReadFrom (content : ReferenceContent) (result : ParsedReference) : Prop :=
  match content with
  | .candidate namespaceName bytes =>
      result.namespaceName = namespaceName ∧ result.strategy = .random ∧
        result.payload = payloadOfBytes bytes
  | .sequence namespaceName n scope =>
      result.namespaceName = namespaceName ∧ result.strategy = .sequence ∧
        result.scope = scope ∧ 0 ≤ n ∧
        ∃ width, result.sequence = some (padStart width (Nat.toDigits 10 n.toNat))

/-- The content up to the three bits of every byte that a candidate ignores. -/
def significant : ReferenceContent → Text × (List Nat ⊕ (Int × Option Text))
  | .candidate namespaceName bytes => (namespaceName, .inl (bytes.map (·.toNat % 32)))
  | .sequence namespaceName n scope => (namespaceName, .inr (n, scope))

end ReferenceContent

section Registry

variable {registry : NamespaceRegistry}

/-- A formatted content parses to a result that shows it. -/
theorem parseReference_format {content : ReferenceContent} {s : Text}
    (h : content.format registry = .ok s) :
    ∃ result, parseReference s registry = .ok result ∧ result.value = s ∧
      content.IsReadFrom result := by
  cases content with
  | candidate namespaceName bytes =>
      rw [ReferenceContent.format, createReferenceCandidate_ok_iff] at h
      obtain ⟨d, hd, hp, r, hr, hlen, rfl⟩ := h
      have hpayload : (random r).IsPayload (payloadOfBytes bytes) :=
        ⟨by rw [length_payloadOfBytes, hlen], fun c hc => mem_payloadOfBytes hc⟩
      exact ⟨_, parseReference_canonical hd hr hpayload, rfl, hp, rfl, rfl⟩
  | sequence namespaceName n scope =>
      rw [ReferenceContent.format, formatSequentialReference_ok_iff] at h
      obtain ⟨d, hd, hp, r, hr, hpos, hn, hscope, rfl⟩ := h
      obtain ⟨hpayload, hsc, hseq⟩ := sequentialPayload_facts r hscope hn
      exact ⟨_, parseReference_canonical hd hr hpayload, rfl, hp, rfl, hsc, hpos, r.width, hseq⟩

/-- **Injectivity**: over all namespaces, strategies, scopes and values of one
registry, a formatted text determines the significant content. -/
theorem format_injective {a b : ReferenceContent} {s : Text} (ha : a.format registry = .ok s)
    (hb : b.format registry = .ok s) : a.significant = b.significant := by
  obtain ⟨result, hparse, -, hfa⟩ := parseReference_format ha
  obtain ⟨result', hparse', -, hfb⟩ := parseReference_format hb
  have heq : result = result' := Except.ok.inj (hparse.symm.trans hparse')
  subst heq
  cases a with
  | candidate ns bytes =>
      cases b with
      | candidate ns' bytes' =>
          obtain ⟨hns, -, hpayload⟩ := hfa
          obtain ⟨hns', -, hpayload'⟩ := hfb
          rw [ReferenceContent.significant, ReferenceContent.significant, ← hns, ← hns',
            payloadOfBytes_injective (hpayload.symm.trans hpayload')]
      | sequence ns' n scope =>
          have h := hfa.2.1.symm.trans hfb.2.1
          contradiction
  | sequence ns n scope =>
      cases b with
      | candidate ns' bytes' =>
          have h := hfa.2.1.symm.trans hfb.2.1
          contradiction
      | sequence ns' n' scope' =>
          obtain ⟨hns, -, hscope, hpos, w, hseq⟩ := hfa
          obtain ⟨hns', -, hscope', hpos', w', hseq'⟩ := hfb
          have hdigits := congrArg (Nat.ofDigitChars 10 · 0)
            (Option.some.inj (hseq.symm.trans hseq'))
          simp only [ofDigitChars_padStart] at hdigits
          have hn : n = n' := by omega
          rw [ReferenceContent.significant, ReferenceContent.significant, ← hns, ← hns', ← hscope,
            ← hscope', hn]

/-- **Encode and decode are inverse**: candidates and sequential references
parse back to what they were written from, formatting is injective, and
parsing is idempotent on its canonical value. -/
theorem reference_codec_inverse (registry : NamespaceRegistry) :
    (∀ d ∈ registry.definitions, ∀ r, d.reference = some (.random r) →
      ∀ bytes : List UInt8, bytes.length = r.payloadLength →
        ∃ s result, createReferenceCandidate registry d.publicPrefix (fun _ => bytes) = .ok s ∧
          parseReference s registry = .ok result ∧ result.value = s ∧
          result.namespaceName = d.publicPrefix ∧ result.payload.length = bytes.length ∧
          ∀ i : Nat, result.payload[i]? = bytes[i]?.bind fun b => dataAlphabet[b.toNat % 32]?) ∧
    (∀ d ∈ registry.definitions, ∀ r, d.reference = some (.sequence r) →
      ∀ n : Nat, n < 10 ^ r.width → ∀ scope, r.AdmitsScope scope →
        ∃ s result, formatSequentialReference registry d.publicPrefix n scope = .ok s ∧
          parseReference s registry = .ok result ∧ result.value = s ∧
          result.namespaceName = d.publicPrefix ∧ result.scope = scope ∧
          result.sequence = some (padStart r.width (Nat.toDigits 10 n))) ∧
    (∀ a b : ReferenceContent, ∀ s, a.format registry = .ok s → b.format registry = .ok s →
      a.significant = b.significant) ∧
    (∀ v result, parseReference v registry = .ok result →
      parseReference result.value registry = .ok result) := by
  refine ⟨?_, ?_, fun a b s => format_injective, fun v result => parseReference_value⟩
  · intro d hd r hr bytes hlen
    have hpayload : (random r).IsPayload (payloadOfBytes bytes) :=
      ⟨by rw [length_payloadOfBytes, hlen], fun c hc => mem_payloadOfBytes hc⟩
    exact ⟨_, _, createReferenceCandidate_ok_iff.mpr ⟨d, hd, rfl, r, hr, hlen, rfl⟩,
      parseReference_canonical hd hr hpayload, rfl, rfl, length_payloadOfBytes bytes,
      getElem?_payloadOfBytes bytes⟩
  · intro d hd r hr n hn scope hscope
    obtain ⟨hpayload, hsc, hseq⟩ := sequentialPayload_facts r hscope hn
    exact ⟨_, _, formatSequentialReference_ok_iff.mpr
        ⟨d, hd, rfl, r, hr, Int.natCast_nonneg n, hn, hscope, rfl⟩,
      parseReference_canonical hd hr hpayload, rfl, rfl, hsc, hseq⟩

end Registry

end Identifold
