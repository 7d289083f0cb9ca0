import Identifold.Ports.Writers

/-!
# Identifold.Ports.SequenceWriters

What any package prints, every package reads back.

`formatSequentialReference` prints a number under a scope.  The ports take both as texts
and print what they are given; the TypeScript and the Python package test the scope
against the policy first.  So these two print exactly those references of the ports that
are canonical, and every package returns them unchanged.
-/

namespace Identifold

open Separated RegisteredReferenceDefinition

/-! ## formatters -/

namespace Python

/-- `_require_reference` for a sequential namespace. -/
def requireSequence (registry : NamespaceRegistry) (namespaceName : Text) :
    Except IdentifoldErrorCode RegisteredSequentialReferenceDefinition :=
  match registry.getByPublicPrefix namespaceName with
  | none => throw .unknownNamespace
  | some definition =>
      match definition.reference with
      | some (.sequence reference) => .ok reference
      | _ => throw .invalidNamespaceDefinition

/-- The scope test of `format_sequential_reference`. -/
def scopedPayload (digits : DecimalDigits) (reference : RegisteredSequentialReferenceDefinition)
    (padded : Text) (scope : Option Text) : Except IdentifoldErrorCode Text :=
  if reference.hasScope = true then
    match scope with
    | some year =>
        if year.length = 4 ∧ ∀ c ∈ year, digits.isDecimal c = true then .ok (year ++ padded)
        else throw .invalidRef
    | none => throw .invalidRef
  else
    match scope with
    | some _ => throw .invalidRef
    | none => .ok padded

/-- `format_sequential_reference`. -/
def formatSequentialReference (digits : DecimalDigits) (registry : NamespaceRegistry)
    (namespaceName : Text) (sequence : Int) (scope : Option Text) :
    Except IdentifoldErrorCode Text := do
  let reference ← requireSequence registry namespaceName
  ensure (0 ≤ sequence) .invalidRef
  let sequenceDigits := Nat.toDigits 10 sequence.toNat
  ensure (sequenceDigits.length ≤ reference.width) .sequenceOverflow
  let padded := padStart reference.width sequenceDigits
  let payload ← scopedPayload digits reference padded scope
  let check ← calculateSequentialCheckSymbol payload
  return formatSequentialParts reference.refPrefix padded check scope

end Python

namespace Php

/-- `Identifold::formatSequentialReference`. -/
def formatSequentialReference : List PortNamespaceDefinition → Text → Text → Text →
    Except IdentifoldErrorCode Text :=
  codec.formatSequentialReference

end Php

namespace Ruby

/-- `Identifold.format_sequential_reference`. -/
def formatSequentialReference (unicode : CaseMapping) : List PortNamespaceDefinition → Text →
    Text → Text → Except IdentifoldErrorCode Text :=
  (codec unicode).formatSequentialReference

end Ruby

namespace Java

/-- `Identifold.formatSequentialReference`. -/
def formatSequentialReference (runtime : Runtime) : List PortNamespaceDefinition → Text → Text →
    Text → Except IdentifoldErrorCode Text :=
  (codec runtime).formatSequentialReference

end Java

namespace Kotlin

/-- `KotlinIdentifold.formatSequentialReference`. -/
def formatSequentialReference (runtime : Java.Runtime) : List PortNamespaceDefinition → Text →
    Text → Text → Except IdentifoldErrorCode Text :=
  Java.formatSequentialReference runtime

end Kotlin

namespace CSharp

/-- `FormatSequentialReference`. -/
def formatSequentialReference (runtime : Runtime) : List PortNamespaceDefinition → Text → Text →
    Text → Except Failure Text :=
  (codec runtime).formatSequentialReference

end CSharp

section Formatters

variable {registry : NamespaceRegistry} {ports : List PortNamespaceDefinition} {name : Text}
  {n : Nat}
  {scope : Option Text} {w : Text}

/-- A payload with a check symbol consists of digits. -/
theorem isDigit_of_calculateSequentialCheckSymbol {payload check : Text}
    (h : calculateSequentialCheckSymbol payload = .ok check) : ∀ c ∈ payload, c.isDigit = true := by
  by_contra hnot
  rw [calculateSequentialCheckSymbol] at h
  split at h
  · contradiction
  · rw [checkRemainder_of_not_valid 10 Char.isDigit decimalValue _ hnot] at h
    contradiction

/-- Python's scope test lets the digits of other scripts pass, which have no check symbol. -/
theorem Python.scopedPayload_ok_iff (digits : Python.DecimalDigits)
    {r : RegisteredSequentialReferenceDefinition} {padded payload : Text}
    (hdigits : ∀ c ∈ payload, c.isDigit = true) :
    Python.scopedPayload digits r padded scope = .ok payload ↔
      sequentialPayload r padded scope = .ok payload := by
  rw [sequentialPayload_ok_iff]
  unfold Python.scopedPayload
  cases scope with
  | none =>
      cases hscope : r.hasScope with
      | true =>
          refine iff_of_false (fun h => ?_) fun h => ?_
          · contradiction
          · have hnone : r.hasScope = false := h.1
            rw [hscope] at hnone
            contradiction
      | false =>
          rw [if_neg Bool.false_ne_true, Except.ok.injEq, eq_comm]
          exact (and_iff_right hscope).symm
  | some year =>
      cases hscope : r.hasScope with
      | false =>
          refine iff_of_false (fun h => ?_) fun h => ?_
          · contradiction
          · have hsome : r.hasScope = true := h.1.1
            rw [hscope] at hsome
            contradiction
      | true =>
          rw [if_pos rfl]
          dsimp only
          constructor
          · intro h
            split at h
            · rename_i hyear
              obtain rfl := Except.ok.inj h
              refine ⟨⟨hscope, ?_⟩, rfl⟩
              rw [isFourDigits, decide_eq_true hyear.1, Bool.true_and, List.all_eq_true]
              exact fun c hc => hdigits c (List.mem_append_left _ hc)
            · contradiction
          · rintro ⟨⟨-, hyear⟩, rfl⟩
            obtain ⟨hfour, hall⟩ := Bool.and_eq_true_iff.mp hyear
            have hdecimal : ∀ c ∈ year, digits.isDecimal c = true := by
              intro c hc
              have hdigit := List.all_eq_true.mp hall c hc
              rw [digits.isDecimal_ascii c (toNat_lt_of_isDigit hdigit), hdigit]
            exact if_pos ⟨of_decide_eq_true hfour, hdecimal⟩

/-- **The Python package** formats the sequences of the TypeScript package. -/
theorem Python.formatSequentialReference_ok_iff (digits : Python.DecimalDigits) {sequence : Int} :
    Python.formatSequentialReference digits registry name sequence scope = .ok w ↔
      Identifold.formatSequentialReference registry name sequence scope = .ok w := by
  have hrequire : Python.requireSequence registry name =
      (requireSequentialNamespace registry name).mapError IdentifoldError.code := by
    rw [Python.requireSequence, requireSequentialNamespace]
    cases registry.getByPublicPrefix name with
    | none => rfl
    | some d =>
        obtain ⟨publicPrefix, reference, hvalid⟩ := d
        rcases reference with _ | (r | r) <;> rfl
  simp only [Python.formatSequentialReference, Identifold.formatSequentialReference, hrequire,
    bind_eq_ok_iff, ensure_eq_ok_iff, pure_eq_ok_iff, mapError_eq_ok_iff,
    Python.calculateSequentialCheckSymbol_eq]
  refine exists_congr fun r => and_congr_right fun _ =>
    exists_congr fun _ => and_congr_right fun _ =>
    exists_congr fun _ => and_congr_right fun _ => exists_congr fun payload => ?_
  constructor
  · rintro ⟨hpayload, check, hcheck, hw⟩
    have hdigits := isDigit_of_calculateSequentialCheckSymbol hcheck
    exact ⟨(Python.scopedPayload_ok_iff digits hdigits).mp hpayload, check, hcheck, hw⟩
  · rintro ⟨hpayload, check, hcheck, hw⟩
    have hdigits := isDigit_of_calculateSequentialCheckSymbol hcheck
    exact ⟨(Python.scopedPayload_ok_iff digits hdigits).mpr hpayload, check, hcheck, hw⟩

/-- A scope of digits is the policy's by its length. -/
theorem admitsScope_of_length {r : RegisteredSequentialReferenceDefinition}
    (hscope : scope ≠ some [])
    (hdigits : ∀ c ∈ scope.getD [], c.isDigit = true)
    (hlength : (scope.getD []).length = r.scopeLength) : r.AdmitsScope scope := by
  rw [RegisteredSequentialReferenceDefinition.scopeLength] at hlength
  cases scope with
  | none =>
      cases hr : r.hasScope with
      | false => exact hr
      | true =>
          rw [hr] at hlength
          contradiction
  | some year =>
      cases hr : r.hasScope with
      | true =>
          rw [hr] at hlength
          exact ⟨hr, Bool.and_eq_true_iff.mpr
            ⟨decide_eq_true hlength, List.all_eq_true.mpr hdigits⟩⟩
      | false =>
          rw [hr] at hlength
          exact absurd (congrArg some (List.eq_nil_of_length_eq_zero hlength)) hscope

/-- What the ports write of a number is what TypeScript writes, where it is canonical. -/
theorem plain_formatSequentialReference_iff
    (hports : List.Forall₂ Describes ports registry.definitions)
    (hscope : scope ≠ some []) :
    formatSequentialReference registry name n scope = .ok w ↔
      plainCodec.formatSequentialReference ports name (Nat.toDigits 10 n) (scope.getD []) = .ok w ∧
        IsRegisteredText registry w := by
  have hdigits : ∀ c ∈ Nat.toDigits 10 n, c.isDigit = true := fun c hc =>
    Nat.isDigit_of_mem_toDigits (by decide) (by decide) hc
  have hascii := isAscii_of_isDigit hdigits
  have hrust : plainCodec.formatSequentialReference ports name (Nat.toDigits 10 n) (scope.getD []) =
      .ok w ↔ formatSequential id true ports name (Nat.toDigits 10 n) (scope.getD []) = .ok w := by
    rw [formatSequential_eq hascii, mapError_id]
  have hpad (width : Nat) : padBytes width (Nat.toDigits 10 n) =
      padStart width (Nat.toDigits 10 n) := by
    rw [padBytes, utf8Length_of_isAscii hascii, padStart]
  have hgiven : givenScope (scope.getD []) = scope := by
    cases scope with
    | none => rfl
    | some year => exact if_neg fun h => hscope (congrArg some h)
  rw [hrust, formatSequentialReference_ok_iff]
  constructor
  · -- TypeScript writes the canonical text, and the ports pad and check alike
    rintro ⟨d, hd, hp, r, hr, -, hn, hadmits, rfl⟩
    have hget := NamespaceRegistry.getByPublicPrefix_eq_some_iff.mpr ⟨hd, hp⟩
    obtain ⟨hpayload, hsc, hseq⟩ := sequentialPayload_facts r hadmits hn
    refine ⟨(formatSequential_sequence_iff hports hget hr).mpr ⟨⟨?_, fun _ => hdigits⟩, _,
      writtenCheckSymbol_ok_iff.mpr (.inl ⟨?_, rfl⟩), ?_⟩, d, hd, _, hr, _, hpayload, rfl⟩
    · rw [utf8Length_of_isAscii hascii]
      exact (Nat.length_toDigits_le_iff (by decide) (by have := r.width_valid.1; omega)).mpr hn
    · rw [hpad]
      exact hpayload.2
    · rw [RegisteredSequentialReferenceDefinition.written, hgiven, hpad,
        ← formatSequentialParts_eq_canonical r hpayload hseq, hsc]
      rfl
  · -- a registered text shows that its scope is one that TypeScript admits
    rintro ⟨hformat, hregistered⟩
    obtain ⟨d, r, hget, hr⟩ := sequence_of_formatSequential hports hformat
    obtain ⟨hd, hp⟩ := NamespaceRegistry.getByPublicPrefix_eq_some_iff.mp hget
    obtain ⟨⟨hle, -⟩, check, hcheck, rfl⟩ :=
      (formatSequential_sequence_iff hports hget hr).mp hformat
    rcases writtenCheckSymbol_ok_iff.mp hcheck with ⟨hall, rfl⟩ | ⟨-, hlax, -⟩
    · have hadmits := admitsScope_of_length hscope (List.forall_mem_append.mp hall).1
        ((written_canonical_iff hd hr hall (length_padBytes hdigits hle)).mp hregistered)
      rw [utf8Length_of_isAscii hascii] at hle
      have hn := (Nat.length_toDigits_le_iff (by decide) (by have := r.width_valid.1; omega)).mp hle
      obtain ⟨hpayload, hsc, hseq⟩ := sequentialPayload_facts r hadmits hn
      refine ⟨d, hd, hp, r, hr, Int.natCast_nonneg n, hn, hadmits, ?_⟩
      rw [RegisteredSequentialReferenceDefinition.written, hgiven, hpad]
      have hparts := formatSequentialParts_eq_canonical r hpayload hseq
      rwa [hsc] at hparts
    · contradiction

/-- The ports write one reference, or throw one error code; Go does not look at the scope. -/
structure FormatAlike (runtimes : Runtimes) (ports : List PortNamespaceDefinition)
    (name sequence scope : Text) (outcome : Except IdentifoldErrorCode Text) : Prop where
  go : (∀ c ∈ scope, c.isDigit = true) →
    Go.formatSequentialReference ports name sequence scope = outcome.mapError .error
  rust : Rust.formatSequentialReference ports name sequence scope = outcome.mapError .error
  php : Php.formatSequentialReference ports name sequence scope = outcome
  ruby : Ruby.formatSequentialReference runtimes.ruby ports name sequence scope = outcome
  java : Java.formatSequentialReference runtimes.java ports name sequence scope = outcome
  kotlin : Kotlin.formatSequentialReference runtimes.java ports name sequence scope = outcome
  csharp : CSharp.formatSequentialReference runtimes.csharp ports name sequence scope =
    outcome.mapError .error
  swift : Swift.formatSequentialReference runtimes.swift ports name sequence scope =
    outcome.mapError .error

/-- Of digits, a lax formatter writes what a strict one writes. -/
theorem formatSequential_of_isDigit {ε : Type} {error : IdentifoldErrorCode → ε}
    {sequence scope : Text}
    (hsequence : ∀ c ∈ sequence, c.isDigit = true) (hscope : ∀ c ∈ scope, c.isDigit = true) :
    formatSequential error false ports name sequence scope =
      formatSequential error true ports name sequence scope := by
  rw [formatSequential, formatSequential]
  cases findNamespace ports name with
  | none => rfl
  | some item =>
      obtain ⟨publicPrefix, _ | reference⟩ := item
      · rfl
      dsimp only
      have hguard : (utf8Length sequence ≤ reference.width ∧
          (false = true → ∀ c ∈ sequence, c.isDigit = true)) ↔
          utf8Length sequence ≤ reference.width ∧
            (true = true → ∀ c ∈ sequence, c.isDigit = true) :=
        and_congr_right fun _ => iff_of_true (fun h => absurd h Bool.false_ne_true) fun _ => hsequence
      have hall : ∀ c ∈ scope ++ padBytes reference.width sequence, c.isDigit = true :=
        List.forall_mem_append.mpr ⟨hscope, forall_isDigit_padBytes_iff.mpr hsequence⟩
      have hcheck (digitsOnly : Bool) : writtenCheckSymbol error digitsOnly
          (scope ++ padBytes reference.width sequence) =
            .ok (sequentialCheckSymbol (scope ++ padBytes reference.width sequence)) :=
        writtenCheckSymbol_ok_iff.mpr (.inl ⟨hall, rfl⟩)
      rw [ensure_congr hguard, hcheck, hcheck]

theorem formatAlike_plain (runtimes : Runtimes) (haccepted : PortCodec.Accepted ports)
    (hname : IsAscii name) {sequence scope : Text} (hne : sequence ≠ [])
    (hdigits : ∀ c ∈ sequence, c.isDigit = true) (hscope : Swift.IsPrintable scope) :
    FormatAlike runtimes ports name sequence scope
      (plainCodec.formatSequentialReference ports name sequence scope) := by
  have hsequence := PortCodec.isPrintable_of_isDigit hdigits
  have hrust := @formatSequential_eq ports Rust.Failure Rust.Failure.error name sequence scope
    (isAscii_of_isDigit hdigits)
  have hgo := @formatSequential_eq ports Go.Failure Go.Failure.error name sequence scope
    (isAscii_of_isDigit hdigits)
  have hphp := @PortCodec.formatSequentialReference_eq _ Php.codec ports Php.codec_plain name
    sequence scope hne hsequence
  have hruby := @PortCodec.formatSequentialReference_eq _ (Ruby.codec runtimes.ruby) ports
    (Ruby.codec_plain _) name sequence scope hne hsequence
  have hjava := @PortCodec.formatSequentialReference_eq _ (Java.codec runtimes.java) ports
    (Java.codec_plain _) name sequence scope hne hsequence
  exact {
    go := fun hall => (formatSequential_of_isDigit hdigits hall).trans hgo
    rust := hrust
    php := hphp.trans (mapError_id _)
    ruby := hruby.trans (mapError_id _)
    java := hjava.trans (mapError_id _)
    kotlin := hjava.trans (mapError_id _)
    csharp := PortCodec.formatSequentialReference_eq (CSharp.codec_plain runtimes.csharp) hne
      hsequence
    swift := Swift.formatSequentialReference_eq haccepted hname hne hsequence hscope }

end Formatters

theorem isPrintable_year : Swift.IsPrintable ((some "2024".toList).getD []) := by
  have hall : ∀ c ∈ "2024".toList, ' ' ≤ c ∧ c ≤ '~' := by decide
  exact hall

end Identifold
