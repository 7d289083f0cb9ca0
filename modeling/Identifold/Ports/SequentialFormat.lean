import Identifold.Ports.Agreement
import Identifold.Reference.Roundtrip

/-!
# Identifold.Ports.SequentialFormat

What the ports' sequential formatters write, and whether `normalize` of the
same port returns it.

`normalize` returns a text with a capital unchanged exactly when it is the
canonical text of a registered reference (`normalize_self_iff` of each port).
The formatters take the scope as any text, the Go one the sequence too, and
test neither against the policy, so they also write texts that are not
canonical.

* `Rust.normalize_self_iff`, `Go.normalize_self_iff` — what a port returns
  unchanged;
* `formatSequential_sequence_iff` — what a formatter writes under a policy;
* `formatSequential_canonical_iff` — when it writes canonical texts only.
-/

namespace Identifold

open Separated RegisteredReferenceDefinition

/-- The number of digits that a policy has in front of the sequence. -/
def RegisteredSequentialReferenceDefinition.scopeLength
    (r : RegisteredSequentialReferenceDefinition) : Nat :=
  if r.hasScope then 4 else 0

/-- A text is the canonical text of a registered reference. -/
def IsRegisteredText (registry : NamespaceRegistry) (v : Text) : Prop :=
  ∃ d ∈ registry.definitions, ∃ r, d.reference = some r ∧ ∃ payload, r.IsPayload payload ∧
    v = r.canonical payload

/-! ## texts that `normalize` returns unchanged -/

section Unchanged

variable {registry : NamespaceRegistry} {ports : List PortNamespaceDefinition} {v : Text}

/-- Public identifiers and machine identifiers have no capitals. -/
theorem ne_of_isUpper {w : Text} (hlower : asciiLower w = w) {c : Char} (hc : c ∈ v)
    (hupper : c.isUpper = true) : v ≠ w := by
  rintro rfl
  have hnone := isUpper_of_asciiLower_eq_self hlower c hc
  rw [hupper] at hnone
  contradiction

/-- What canonical texts are, to the parts of `normalize`. -/
theorem IsRegisteredText.facts (h : IsRegisteredText registry v) :
    '_' ∉ v ∧ IsAscii v ∧ utf8Length v ≠ 36 ∧ asciiUpper v = v ∧
      IsCompactReading registry (strip '-' (asciiUpper v)) v := by
  obtain ⟨d, hd, r, hr, payload, hpayload, rfl⟩ := h
  obtain ⟨hspelled, hnorm⟩ := IsPayload.spelled r hpayload
  have hupper := asciiUpper_canonical hpayload
  have hwritten : r.IsWritten payload (asciiUpper (r.canonical payload)) := by
    rw [hupper]
    exact .inr (.inr (canonical_eq r hpayload))
  have hreading := isCompactReading_of_written hd hr hspelled hwritten
  rw [hnorm] at hreading
  have hascii := isAscii_of_compact hreading
  refine ⟨?_, hascii, utf8Length_of_written hspelled hwritten hascii, hupper, hreading⟩
  intro hmem
  rw [← hupper] at hmem
  cases mem_written r hspelled hwritten hmem with
  | inl hsymbol => exact hsymbol.facts.2.2 rfl
  | inr hhyphen => exact absurd hhyphen (by decide)

/-- A compact reading is canonical. -/
theorem IsCompactReading.canonical {compact : Text} (h : IsCompactReading registry compact v) :
    IsRegisteredText registry v := by
  obtain ⟨d, hd, r, hr, raw, hraw, -, rfl⟩ := h
  exact ⟨d, hd, r, hr, _, IsSpelledPayload.normalize r hraw, rfl⟩

/-- **Rust** returns the canonical texts unchanged, and no others with a
capital. -/
theorem Rust.normalize_self_iff (hports : List.Forall₂ Describes ports registry.definitions)
    {c : Char} (hc : c ∈ v) (hupper : c.isUpper = true) :
    Rust.normalize v ports = .ok v ↔ IsRegisteredText registry v := by
  constructor
  · intro h
    by_cases hscore : '_' ∈ v
    · rw [Rust.normalize, if_pos hscore] at h
      simp only [bind_eq_ok_iff, pure_eq_ok_iff] at h
      obtain ⟨result, hparse, _, -, -⟩ := h
      obtain ⟨ns, hex, hns, hhex, hv, -⟩ := Rust.parsePublicId_ok_iff.mp hparse
      exact absurd hv (ne_of_isUpper (publicIdText_facts hns hhex.1).2 hc hupper)
    · rcases (Rust.normalize_ok_iff hports hscore).mp h with ⟨-, hlower⟩ | ⟨-, hreading⟩
      · exact absurd rfl (ne_of_isUpper hlower.symm hc hupper)
      · exact hreading.canonical
  · intro h
    obtain ⟨hscore, -, hlen, -, hreading⟩ := h.facts
    exact (Rust.normalize_ok_iff hports hscore).mpr (.inr ⟨hlen, hreading⟩)

/-- **Go** returns the canonical texts unchanged, and no others with a
capital. -/
theorem Go.normalize_self_iff (go : CaseMapping)
    (hports : List.Forall₂ Describes ports registry.definitions) {c : Char} (hc : c ∈ v)
    (hupper : c.isUpper = true) :
    Go.normalize go v ports = .ok v ↔ IsRegisteredText registry v := by
  constructor
  · intro h
    by_cases hscore : '_' ∈ v
    · rw [Go.normalize, if_pos hscore] at h
      simp only [bind_eq_ok_iff, pure_eq_ok_iff] at h
      obtain ⟨result, hparse, _, -, -⟩ := h
      obtain ⟨ns, hex, hns, hhex, hv, -⟩ := Go.parsePublicId_ok_iff.mp hparse
      exact absurd hv (ne_of_isUpper (publicIdText_facts hns hhex.1).2 hc hupper)
    · rcases (Go.normalize_ok_iff go hports hscore).mp h with ⟨-, hlower⟩ | ⟨-, hreading⟩
      · exact absurd rfl (ne_of_isUpper hlower.symm hc hupper)
      · exact hreading.canonical
  · intro h
    obtain ⟨hscore, hascii, -, -, hreading⟩ := h.facts
    have hgo := hreading
    rw [← go.toUpper_ascii v hascii] at hgo
    have hpattern : ¬ machinePattern (asciiLower v) = true := fun hmachine =>
      not_compact_of_machinePattern hmachine hgo
    exact (Go.normalize_ok_iff go hports hscore).mpr (.inr ⟨hpattern, hgo⟩)

end Unchanged

/-! ## what the formatters write -/

section Written

variable {registry : NamespaceRegistry} {r : RegisteredSequentialReferenceDefinition}
  {sequence scope : Text}

theorem forall_isDigit_padBytes_iff {width : Nat} :
    (∀ c ∈ padBytes width sequence, c.isDigit = true) ↔ ∀ c ∈ sequence, c.isDigit = true := by
  have hzero : Char.isDigit '0' = true := by decide
  rw [padBytes, List.forall_mem_append, and_iff_right]
  intro c hc
  rwa [(List.mem_replicate.mp hc).2]

theorem length_padBytes {width : Nat} (hdigits : ∀ c ∈ sequence, c.isDigit = true)
    (hle : utf8Length sequence ≤ width) : (padBytes width sequence).length = width := by
  rw [utf8Length_of_isAscii (isAscii_of_isDigit hdigits)] at hle
  rw [padBytes, List.length_append, List.length_replicate,
    utf8Length_of_isAscii (isAscii_of_isDigit hdigits)]
  omega

/-- The scope of a formatter's argument: the empty text stands for none. -/
def givenScope (scope : Text) : Option Text := if scope = [] then none else some scope

/-- What the formatters write of a sequential policy. -/
def RegisteredSequentialReferenceDefinition.written (r : RegisteredSequentialReferenceDefinition)
    (sequence scope check : Text) : Text :=
  formatSequentialParts r.refPrefix (padBytes r.width sequence) check (givenScope scope)

section Format

variable {ε : Type} {error : IdentifoldErrorCode → ε} {digitsOnly : Bool}
  {ports : List PortNamespaceDefinition} {name v : Text}

/-- The definition a port finds under a name. -/
theorem findNamespace_describes (hports : List.Forall₂ Describes ports registry.definitions) :
    (∀ d, registry.getByPublicPrefix name = some d →
        ∃ item, findNamespace ports name = some item ∧ Describes item d) ∧
      (registry.getByPublicPrefix name = none → findNamespace ports name = none) :=
  Rows.find?_forall₂ (fun item : PortNamespaceDefinition => decide (item.publicPrefix = name))
    (fun d : RegisteredNamespaceDefinition => decide (d.publicPrefix = name)) hports
    fun _ _ hitem => by rw [hitem.1]

/-- In a sequential namespace a formatter succeeds on the sequences it does not
test away, where the payload has a check symbol or none is asked for. -/
theorem formatSequential_sequence_iff (hports : List.Forall₂ Describes ports registry.definitions)
    {d : RegisteredNamespaceDefinition} (hget : registry.getByPublicPrefix name = some d)
    (hr : d.reference = some (.sequence r)) :
    formatSequential error digitsOnly ports name sequence scope = .ok v ↔
      (utf8Length sequence ≤ r.width ∧
          (digitsOnly = true → ∀ c ∈ sequence, c.isDigit = true)) ∧
        ∃ check, writtenCheckSymbol error digitsOnly (scope ++ padBytes r.width sequence) =
          .ok check ∧ v = r.written sequence scope check := by
  obtain ⟨item, hitem, -, href⟩ := (findNamespace_describes hports).1 d hget
  simp only [hr] at href
  obtain ⟨p, hp, hpre, hstrategy, hwidth, -⟩ := href
  obtain ⟨publicPrefix, reference⟩ := item
  cases hp
  have hwritten : ∀ check, (if scope = [] then
        (pure (join '-' [p.refPrefix, padBytes r.width sequence, check]) : Except ε Text)
      else pure (join '-' [p.refPrefix, scope, padBytes r.width sequence, check])) =
        .ok (r.written sequence scope check) := by
    intro check
    rw [hpre, RegisteredSequentialReferenceDefinition.written, givenScope]
    split <;> simp [join, formatSequentialParts, RegisteredReferenceDefinition.refPrefix] <;> rfl
  rw [formatSequential, hitem]
  simp only [hstrategy, if_true, hwidth, hwritten, bind_eq_ok_iff, ensure_eq_ok_iff,
    Except.ok.injEq]
  constructor
  · rintro ⟨_, htest, check, hcheck, rfl⟩
    exact ⟨htest, check, hcheck, rfl⟩
  · rintro ⟨htest, check, hcheck, rfl⟩
    exact ⟨(), htest, check, hcheck, rfl⟩

/-- It succeeds in sequential namespaces only. -/
theorem sequence_of_formatSequential (hports : List.Forall₂ Describes ports registry.definitions)
    (h : formatSequential error digitsOnly ports name sequence scope = .ok v) :
    ∃ d r, registry.getByPublicPrefix name = some d ∧ d.reference = some (.sequence r) := by
  cases hget : registry.getByPublicPrefix name with
  | none =>
      rw [formatSequential, (findNamespace_describes hports).2 hget] at h
      contradiction
  | some d =>
      obtain ⟨item, hitem, -, href⟩ := (findNamespace_describes hports).1 d hget
      obtain ⟨publicPrefix, reference⟩ := item
      rw [formatSequential, hitem] at h
      cases hd : d.reference with
      | none =>
          simp only [hd] at href
          rw [href] at h
          contradiction
      | some reference' =>
          simp only [hd] at href
          obtain ⟨p, rfl, -, hstrategy⟩ := href
          cases reference' with
          | random r =>
              simp only [if_neg hstrategy.1] at h
              contradiction
          | sequence r => exact ⟨d, r, rfl, hd⟩

end Format

/-! ## canonical or not -/

section Canonical

variable {d : RegisteredNamespaceDefinition}

theorem length_formatSequentialParts (refPrefix sequence check : Text) (scope : Option Text) :
    (formatSequentialParts refPrefix sequence check scope).length =
      refPrefix.length + 1 + scope.elim 0 (·.length + 1) + sequence.length + 1 + check.length := by
  cases scope with
  | none =>
      simp only [formatSequentialParts, List.length_append, List.length_cons, Option.elim_none]
      omega
  | some scope =>
      simp only [formatSequentialParts, List.length_append, List.length_cons, Option.elim_some]
      omega

/-- The prefix comes first and the check symbol last. -/
theorem written_eq (r : RegisteredSequentialReferenceDefinition) (sequence scope check : Text) :
    ∃ middle, r.written sequence scope check = r.refPrefix ++ (middle ++ '-' :: check) := by
  unfold RegisteredSequentialReferenceDefinition.written
  cases givenScope scope with
  | none => exact ⟨'-' :: padBytes r.width sequence, rfl⟩
  | some scope =>
      exact ⟨'-' :: (scope ++ '-' :: padBytes r.width sequence), by simp [formatSequentialParts]⟩

/-- The prefix has a capital. -/
theorem exists_isUpper_written (r : RegisteredSequentialReferenceDefinition)
    (sequence scope check : Text) : ∃ c ∈ r.written sequence scope check, c.isUpper = true := by
  obtain ⟨middle, hwritten⟩ := written_eq r sequence scope check
  have hne : r.refPrefix ≠ [] := by
    intro hnil
    have hlen := (length_of_isReferencePrefix r.refPrefix_valid).1
    rw [hnil] at hlen
    contradiction
  obtain ⟨c, hc⟩ := List.exists_mem_of_ne_nil _ hne
  refine ⟨c, ?_, isUpper_of_mem_refPrefix r.refPrefix_valid c hc⟩
  rw [hwritten]
  exact List.mem_append_left _ hc

/-- Canonical texts end in a check symbol. -/
theorem canonical_concat (r : RegisteredReferenceDefinition) (payload : Text) :
    ∃ front, ∃ c ∈ checkAlphabet, r.canonical payload = front ++ [c] := by
  obtain ⟨c, hc, hcheck⟩ := checkSymbol_eq r payload
  refine ⟨join '-' (r.refPrefix :: r.groups payload) ++ ['-'], c, hc, ?_⟩
  rw [canonical, ← List.cons_append, join_concat (by simp), hcheck, List.append_assoc]
  rfl

/-- What has no check symbol is not canonical: it ends in a hyphen. -/
theorem not_canonical_of_no_check :
    ¬ IsRegisteredText registry (r.written sequence scope []) := by
  rintro ⟨d, -, r', -, payload, -, h⟩
  obtain ⟨front, c, hc, hcanonical⟩ := canonical_concat r' payload
  obtain ⟨middle, hwritten⟩ := written_eq r sequence scope []
  have hlast : (r.written sequence scope []).getLast? = some '-' := by
    rw [hwritten, ← List.append_assoc, List.getLast?_concat]
  rw [h, hcanonical, List.getLast?_concat, Option.some.injEq] at hlast
  subst hlast
  exact absurd hc (by decide)

/-- A scope of the policy's length is the one the policy reads. -/
theorem givenScope_eq_scopeOf (hscope : scope.length = r.scopeLength) (padded : Text) :
    givenScope scope = (RegisteredReferenceDefinition.sequence r).scopeOf (scope ++ padded) ∧
      (RegisteredReferenceDefinition.sequence r).sequenceOf (scope ++ padded) = some padded := by
  simp only [RegisteredSequentialReferenceDefinition.scopeLength] at hscope
  simp only [scopeOf, sequenceOf, givenScope]
  split at hscope
  · next hyear =>
      have hne : scope ≠ [] := fun hnil => by
        rw [hnil] at hscope
        contradiction
      rw [if_neg hne, if_pos hyear, if_pos hyear, ← hscope, List.take_left, List.drop_left]
      exact ⟨rfl, rfl⟩
  · next hnone =>
      have hnil := List.eq_nil_of_length_eq_zero hscope
      rw [if_pos hnil, if_neg hnone, if_neg hnone, hnil]
      exact ⟨rfl, rfl⟩

/-- The lengths of a written and a canonical text tell the scope's. -/
theorem length_scope_of_length_written {payload check : Text}
    (hlen : (padBytes r.width sequence).length = r.width) (hcheck : check.length = 1)
    (hpayload : (RegisteredReferenceDefinition.sequence r).IsPayload payload)
    (h : (r.written sequence scope check).length =
      ((RegisteredReferenceDefinition.sequence r).canonical payload).length) :
    scope.length = r.scopeLength := by
  have hsymbol : (sequentialCheckSymbol payload).length = 1 :=
    length_checkSymbol (.sequence r) payload
  have hpayloadLength : payload.length = r.width + if r.hasScope then 4 else 0 := hpayload.1
  have hgiven : (givenScope scope).elim 0 (·.length + 1) =
      if scope.length = 0 then 0 else scope.length + 1 := by
    cases scope <;> simp [givenScope]
  rw [← formatSequentialParts_eq_canonical r hpayload rfl,
    RegisteredSequentialReferenceDefinition.written, length_formatSequentialParts,
    length_formatSequentialParts, hlen, hcheck, hsymbol, hgiven] at h
  rw [RegisteredSequentialReferenceDefinition.scopeLength]
  simp only [scopeOf] at h
  cases hyear : r.hasScope with
  | true =>
      simp only [hyear, if_true, Option.elim_some, List.length_take, List.length_drop,
        hpayloadLength] at h ⊢
      split at h <;> omega
  | false =>
      simp only [hyear, Bool.false_eq_true, if_false, Option.elim_none, hpayloadLength] at h ⊢
      split at h <;> omega

/-- What has one is, when the scope has the policy's length. -/
theorem written_canonical_iff (hd : d ∈ registry.definitions) (hr : d.reference = some (.sequence r))
    (hdigits : ∀ c ∈ scope ++ padBytes r.width sequence, c.isDigit = true)
    (hlen : (padBytes r.width sequence).length = r.width) :
    IsRegisteredText registry
        (r.written sequence scope (sequentialCheckSymbol (scope ++ padBytes r.width sequence))) ↔
      scope.length = r.scopeLength := by
  constructor
  · rintro ⟨d', hd', r', hr', payload, hpayload, h⟩
    -- the prefixes determine the policy, and the lengths then the scope's
    obtain ⟨middle, hwritten⟩ := written_eq r sequence scope
      (sequentialCheckSymbol (scope ++ padBytes r.width sequence))
    have hsame := eq_of_refPrefix_of_text hd hd' hr hr' ⟨_, hwritten.symm⟩
      ⟨_, (h.trans (canonical_eq r' hpayload)).symm⟩
    subst hsame
    have hpolicy : RegisteredReferenceDefinition.sequence r = r' :=
      Option.some.inj (hr.symm.trans hr')
    subst hpolicy
    exact length_scope_of_length_written hlen (length_checkSymbol (.sequence r) _) hpayload
      (congrArg List.length h)
  · intro hscope
    have hpayload : (RegisteredReferenceDefinition.sequence r).IsPayload
        (scope ++ padBytes r.width sequence) := by
      refine ⟨?_, hdigits⟩
      rw [List.length_append, hlen, hscope, Nat.add_comm]
      rfl
    obtain ⟨hgiven, hseq⟩ := givenScope_eq_scopeOf hscope (padBytes r.width sequence)
    refine ⟨d, hd, _, hr, _, hpayload, ?_⟩
    rw [← formatSequentialParts_eq_canonical r hpayload hseq, ← hgiven]
    rfl

end Canonical

end Written

/-! ## the formatters against `normalize` -/

/-- A namespace is sequential, with the given policy. -/
def IsSequentialPolicy (registry : NamespaceRegistry) (name : Text)
    (r : RegisteredSequentialReferenceDefinition) : Prop :=
  ∃ d, registry.getByPublicPrefix name = some d ∧ d.reference = some (.sequence r)

/-- Where the Rust formatter's sequence fits its namespace and both arguments
consist of digits, the scope has the policy's length. -/
def Rust.ArgumentsFit (registry : NamespaceRegistry) (name sequence scope : Text) : Prop :=
  ∀ r, IsSequentialPolicy registry name r → utf8Length sequence ≤ r.width →
    (∀ c ∈ scope ++ sequence, c.isDigit = true) → scope.length = r.scopeLength

/-- Where the Go formatter's sequence fits its namespace, both arguments
consist of digits and the scope has the policy's length. -/
def Go.ArgumentsFit (registry : NamespaceRegistry) (name sequence scope : Text) : Prop :=
  ∀ r, IsSequentialPolicy registry name r → utf8Length sequence ≤ r.width →
    (∀ c ∈ scope ++ sequence, c.isDigit = true) ∧ scope.length = r.scopeLength

section Formatters

variable {registry : NamespaceRegistry} {ports : List PortNamespaceDefinition}
  {name sequence scope : Text} {ε : Type} {error : IdentifoldErrorCode → ε} {digitsOnly : Bool}

/-- The check symbol that is written: of digits theirs, of other texts the
empty one if any. -/
theorem writtenCheckSymbol_ok_iff {payload check : Text} :
    writtenCheckSymbol error digitsOnly payload = .ok check ↔
      ((∀ c ∈ payload, c.isDigit = true) ∧ check = sequentialCheckSymbol payload) ∨
        ((¬ ∀ c ∈ payload, c.isDigit = true) ∧ digitsOnly = false ∧ check = []) := by
  obtain ⟨c, -, hc⟩ : ∃ c ∈ checkAlphabet, sequentialCheckSymbol payload = [c] :=
    charAt_checkAlphabet _
  by_cases hdigits : ∀ c ∈ payload, c.isDigit = true
  · rw [writtenCheckSymbol, checkSymbolOf_sequence_iff.mpr ⟨hdigits, hc⟩, hc, and_iff_right hdigits,
      or_iff_left fun h => h.1 hdigits, Except.ok.injEq, eq_comm]
  · have hnone : checkSymbolOf payload true = none := by
      cases hcheck : checkSymbolOf payload true with
      | none => rfl
      | some c => exact absurd (checkSymbolOf_sequence_iff.mp hcheck).1 hdigits
    rw [writtenCheckSymbol, hnone, or_iff_right fun h => hdigits h.1, and_iff_right hdigits]
    cases digitsOnly with
    | true => simp
    | false => simp [eq_comm]

/-- A formatter writes canonical texts only, where its arguments fit. -/
theorem formatSequential_canonical_iff (hports : List.Forall₂ Describes ports registry.definitions) :
    (∀ v, formatSequential error digitsOnly ports name sequence scope = .ok v →
        IsRegisteredText registry v) ↔
      ∀ r, IsSequentialPolicy registry name r → utf8Length sequence ≤ r.width →
        (digitsOnly = true → ∀ c ∈ scope ++ sequence, c.isDigit = true) →
        (∀ c ∈ scope ++ sequence, c.isDigit = true) ∧ scope.length = r.scopeLength := by
  have hpadded : ∀ r : RegisteredSequentialReferenceDefinition,
      (∀ c ∈ scope ++ padBytes r.width sequence, c.isDigit = true) ↔
        ∀ c ∈ scope ++ sequence, c.isDigit = true := fun r => by
    rw [List.forall_mem_append, List.forall_mem_append, forall_isDigit_padBytes_iff]
  constructor
  · rintro hall r ⟨d, hget, hr⟩ hle hstrict
    have hd := (NamespaceRegistry.getByPublicPrefix_eq_some_iff.mp hget).1
    by_cases hdigits : ∀ c ∈ scope ++ sequence, c.isDigit = true
    · have hsequence := (List.forall_mem_append.mp hdigits).2
      have hcheck : writtenCheckSymbol error digitsOnly (scope ++ padBytes r.width sequence) = .ok _ :=
        writtenCheckSymbol_ok_iff.mpr (.inl ⟨(hpadded r).mpr hdigits, rfl⟩)
      have hv := hall _ ((formatSequential_sequence_iff hports hget hr).mpr
        ⟨⟨hle, fun _ => hsequence⟩, _, hcheck, rfl⟩)
      exact ⟨hdigits, (written_canonical_iff hd hr ((hpadded r).mpr hdigits)
        (length_padBytes hsequence hle)).mp hv⟩
    · -- only the Go formatter gets this far, and writes no check symbol
      have hlax : digitsOnly = false := by
        cases digitsOnly with
        | true => exact absurd (hstrict rfl) hdigits
        | false => rfl
      have hcheck : writtenCheckSymbol error digitsOnly (scope ++ padBytes r.width sequence) = .ok [] :=
        writtenCheckSymbol_ok_iff.mpr (.inr ⟨fun h => hdigits ((hpadded r).mp h), hlax, rfl⟩)
      have hv := hall _ ((formatSequential_sequence_iff hports hget hr).mpr
        ⟨⟨hle, fun h => absurd (h.symm.trans hlax) (by decide)⟩, _, hcheck, rfl⟩)
      exact absurd hv not_canonical_of_no_check
  · -- a text was written, so its lengths and digits passed the checks
    intro hfit v hv
    obtain ⟨d, r, hget, hr⟩ := sequence_of_formatSequential hports hv
    have hd := (NamespaceRegistry.getByPublicPrefix_eq_some_iff.mp hget).1
    obtain ⟨⟨hle, htest⟩, check, hcheck, rfl⟩ :=
      (formatSequential_sequence_iff hports hget hr).mp hv
    have hstrict : digitsOnly = true → ∀ c ∈ scope ++ sequence, c.isDigit = true := by
      intro hstrict
      rcases writtenCheckSymbol_ok_iff.mp hcheck with ⟨hdigits, -⟩ | ⟨-, hlax, -⟩
      · exact (hpadded r).mp hdigits
      · exact absurd (hstrict.symm.trans hlax) (by decide)
    obtain ⟨hdigits, hscope⟩ := hfit r ⟨d, hget, hr⟩ hle hstrict
    rcases writtenCheckSymbol_ok_iff.mp hcheck with ⟨-, rfl⟩ | ⟨hnone, -⟩
    · exact (written_canonical_iff hd hr ((hpadded r).mpr hdigits)
        (length_padBytes (List.forall_mem_append.mp hdigits).2 hle)).mpr hscope
    · exact absurd ((hpadded r).mpr hdigits) hnone

/-- Written texts have a capital. -/
theorem exists_isUpper_of_formatSequential
    (hports : List.Forall₂ Describes ports registry.definitions) {v : Text}
    (h : formatSequential error digitsOnly ports name sequence scope = .ok v) :
    ∃ c ∈ v, c.isUpper = true := by
  obtain ⟨d, r, hget, hr⟩ := sequence_of_formatSequential hports h
  obtain ⟨-, check, -, rfl⟩ := (formatSequential_sequence_iff hports hget hr).mp h
  exact exists_isUpper_written r sequence scope check

end Formatters

/-- **Formatters and `normalize`.**  The Rust port's `normalize` returns what
its formatter returned exactly where the scope has the policy's length, if all
arguments are digits; the Go port's also needs them to be digits. -/
theorem formatSequentialReference_normalizes_iff (go : CaseMapping)
    {definitions : List NamespaceDefinition} {registry : NamespaceRegistry}
    (hcreate : createNamespaceRegistry definitions = .ok registry) (name sequence scope : Text) :
    ((∀ v, Rust.formatSequentialReference (definitions.map NamespaceDefinition.toPort) name
          sequence scope = .ok v →
        Rust.normalize v (definitions.map NamespaceDefinition.toPort) = .ok v) ↔
      Rust.ArgumentsFit registry name sequence scope) ∧
    ((∀ v, Go.formatSequentialReference (definitions.map NamespaceDefinition.toPort) name
          sequence scope = .ok v →
        Go.normalize go v (definitions.map NamespaceDefinition.toPort) = .ok v) ↔
      Go.ArgumentsFit registry name sequence scope) := by
  have hports := describes_of_create hcreate
  constructor
  · refine (forall₂_congr fun v hv => ?_).trans ((formatSequential_canonical_iff hports).trans ?_)
    · obtain ⟨c, hc, hupper⟩ := exists_isUpper_of_formatSequential hports hv
      exact Rust.normalize_self_iff hports hc hupper
    · refine forall₃_congr fun r hpolicy hle => ?_
      exact ⟨fun h hdigits => (h fun _ => hdigits).2,
        fun h hdigits => ⟨hdigits rfl, h (hdigits rfl)⟩⟩
  · refine (forall₂_congr fun v hv => ?_).trans ((formatSequential_canonical_iff hports).trans ?_)
    · obtain ⟨c, hc, hupper⟩ := exists_isUpper_of_formatSequential hports hv
      exact Go.normalize_self_iff go hports hc hupper
    · refine forall₃_congr fun r hpolicy hle => ?_
      exact ⟨fun h => h fun hstrict => absurd hstrict (by decide), fun h _ => h⟩

/-- With the year, whatever the ports write for `invoice` they read back:
`invoice` is a calendar-year sequence. -/
theorem formatSequentialReference_normalizes_sample :
    (∀ v, Rust.formatSequentialReference (sampleDefinitions.map NamespaceDefinition.toPort)
          "invoice".toList "42".toList "2026".toList = .ok v →
        Rust.normalize v (sampleDefinitions.map NamespaceDefinition.toPort) = .ok v) ∧
    ∀ v, Go.formatSequentialReference (sampleDefinitions.map NamespaceDefinition.toPort)
          "invoice".toList "42".toList "2026".toList = .ok v →
        Go.normalize asciiCaseMapping v (sampleDefinitions.map NamespaceDefinition.toPort) = .ok v := by
  have hpolicy : ∀ r, IsSequentialPolicy sampleRegistry "invoice".toList r → invoiceReference = r := by
    rintro r ⟨d, hget, hr⟩
    obtain rfl : invoiceDefinition = d := Option.some.inj hget
    exact RegisteredReferenceDefinition.sequence.inj (Option.some.inj hr)
  obtain ⟨hrust, hgo⟩ := formatSequentialReference_normalizes_iff asciiCaseMapping
    (rfl : createNamespaceRegistry sampleDefinitions = .ok sampleRegistry)
    "invoice".toList "42".toList "2026".toList
  refine ⟨hrust.mpr fun r hr _ _ => ?_, hgo.mpr fun r hr _ => ?_⟩
  · rw [← hpolicy r hr]
    rfl
  · rw [← hpolicy r hr]
    exact ⟨by decide, rfl⟩

/-- Without the year, both ports write `INV-000042-5`, whose length their own
`normalize` refuses; of letters, the Go port writes a reference without a check
symbol. -/
theorem formatSequentialReference_writes_refused :
    createNamespaceRegistry sampleDefinitions = .ok sampleRegistry ∧
      (Rust.formatSequentialReference (sampleDefinitions.map NamespaceDefinition.toPort)
          "invoice".toList "42".toList [] = .ok "INV-000042-5".toList ∧
        Rust.normalize "INV-000042-5".toList (sampleDefinitions.map NamespaceDefinition.toPort) =
          .error (.error .invalidRefLength)) ∧
      (Go.formatSequentialReference (sampleDefinitions.map NamespaceDefinition.toPort)
          "invoice".toList "42".toList [] = .ok "INV-000042-5".toList ∧
        Go.normalize asciiCaseMapping "INV-000042-5".toList
            (sampleDefinitions.map NamespaceDefinition.toPort) =
          .error (.error .invalidRefLength)) ∧
      Go.formatSequentialReference (sampleDefinitions.map NamespaceDefinition.toPort)
          "invoice".toList "abc".toList "2026".toList = .ok "INV-2026-000abc-".toList ∧
        Go.normalize asciiCaseMapping "INV-2026-000abc-".toList
            (sampleDefinitions.map NamespaceDefinition.toPort) =
          .error (.error .invalidRefLength) := by
  refine ⟨rfl, ⟨by decide, by decide⟩, ⟨by decide, by decide⟩, by decide, by decide⟩

end Identifold
