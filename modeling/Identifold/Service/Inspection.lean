import Identifold.Ports.PythonCodec
import Identifold.Reference.Refusals

/-!
# Identifold.Service.Inspection

`inspect` of the TypeScript and the Python package, and how far its report on
a reference is true.

Neither asks the registry: the TypeScript package concludes from the error code
whether a namespace was found, and `invalid_ref` is thrown on both sides of the
location step; the Python port reports no namespace for any text that it
refuses.
-/

namespace Identifold

open Separated RegisteredReferenceDefinition

/-- The one `resolution` that is reported. -/
inductive Resolution
  | notRequested
  deriving DecidableEq, Repr

/-- `IdentityInspection`; the `kind` of an unknown text is `none`. -/
structure IdentityInspection where
  kind : Option IdentifierKind
  valid : Bool
  normalized : Option Text
  namespaceName : Option Text
  machineId : Option Text
  registryRecognized : Bool
  uuidVersion : Option Nat
  checksumValid : Option Bool
  resolution : Option Resolution
  errorCode : Option IdentifoldErrorCode
  deriving DecidableEq, Repr

/-- The report on a parsed identifier, the same in both packages. -/
def inspectParsed : ParsedIdentifier → IdentityInspection
  | .mid machineId => {
      kind := some .mid
      valid := true
      normalized := some machineId
      namespaceName := none
      machineId := some machineId
      registryRecognized := false
      uuidVersion := some 7
      checksumValid := none
      resolution := none
      errorCode := none }
  | .pid parsed => {
      kind := some .pid
      valid := true
      normalized := some parsed.value
      namespaceName := some parsed.namespaceName
      machineId := some parsed.machineId
      registryRecognized := true
      uuidVersion := some 7
      checksumValid := none
      resolution := none
      errorCode := none }
  | .ref parsed => {
      kind := some .ref
      valid := true
      normalized := some parsed.value
      namespaceName := some parsed.namespaceName
      machineId := none
      registryRecognized := true
      uuidVersion := none
      checksumValid := some true
      resolution := some .notRequested
      errorCode := none }

/-- The report on a refused text, in both packages. -/
def inspectRefused (kind : Option IdentifierKind) (code : IdentifoldErrorCode)
    (registryRecognized : Bool) : IdentityInspection where
  kind := kind
  valid := false
  normalized := none
  namespaceName := none
  machineId := none
  registryRecognized := registryRecognized
  uuidVersion := none
  checksumValid := none
  resolution := none
  errorCode := some code

/-- `Identifold.inspect`. -/
def inspect (unicode : CaseMapping) (uuid : UuidLibrary) (typeid : TypeIdLibrary)
    (registry : NamespaceRegistry) (value : Text) : Except Thrown IdentityInspection :=
  match detectIdentifierKind value with
  | none => .ok (inspectRefused none .invalidKind false)
  | some kind =>
      match parseIdentifier unicode uuid typeid registry value kind with
      | .ok parsed => .ok (inspectParsed parsed)
      | .error .foreign => .error .foreign
      | .error (.identifold error) =>
          let common := inspectRefused (some kind) error.code
            (kind = .ref && error.code ≠ .invalidRef && error.code ≠ .unknownNamespace)
          if kind = .ref then
            if error.code = .invalidChecksum then
              .ok { common with checksumValid := some false, resolution := some .notRequested }
            else .ok { common with resolution := some .notRequested }
          else .ok common

/-- `Identifold.inspect` of the Python port. -/
def Python.inspect (runtime : Python.Runtime) (typeid : Python.TypeIdPackage)
    (registry : NamespaceRegistry) (value : Text) : IdentityInspection :=
  match Python.parse runtime typeid registry value with
  | .error code => inspectRefused (Python.detect value) code false
  | .ok parsed => inspectParsed parsed

/-- **What `inspect` throws**: it reports every refusal, and throws, with the
library's error, on foreign TypeIDs only. -/
theorem inspect_throws_iff {unicode : CaseMapping} {uuid : UuidLibrary} {typeid : TypeIdLibrary}
    {registry : NamespaceRegistry} {v : Text} :
    (∃ e, inspect unicode uuid typeid registry v = .error e) ↔ IsForeignTypeId v := by
  constructor
  · rintro ⟨e, he⟩
    by_contra hnative
    unfold inspect at he
    split at he
    · contradiction
    · next kind hkind =>
      split at he
      · contradiction
      · next hthrown =>
        obtain ⟨error, herror⟩ := parseIdentifier_throws (fun _ => hnative) .foreign hthrown
        contradiction
      · split_ifs at he
  · intro hforeign
    obtain ⟨hkind, hthrown⟩ :=
      (hforeign.parseIdentifier_eq : _ ∧ parseIdentifier unicode uuid typeid registry v .pid = _)
    exact ⟨.foreign, by simp only [inspect, hkind, hthrown]⟩

/-! ## true reports -/

/-- The report on a reference is true of the parser, which `returns` a result
or `throws` a code, and of the location step. -/
structure ReportsTruth (registry : NamespaceRegistry) (value : Text)
    (returns : ParsedIdentifier → Prop) (throws : IdentifoldErrorCode → Prop)
    (report : IdentityInspection) : Prop where
  valid_iff : report.valid = true ↔ ∃ x, returns x
  normalized : ∀ x, returns x → report.normalized = some x.value
  errorCode : ∀ code, throws code → report.errorCode = some code
  registryRecognized_iff : report.registryRecognized = true ↔ LocatesNamespace registry value
  checksumValid_false_iff : report.checksumValid = some false ↔ throws .invalidChecksum
  checksumValid_true_iff : report.checksumValid = some true ↔ ∃ x, returns x

/-- Where the prefix locates a namespace, the text has the characters of a
reference and a body that is not hyphenated in the wrong places. -/
def IsToldFromCode (registry : NamespaceRegistry) (v : Text) : Prop :=
  ∀ body d r, locateNamespace (asciiUpper v) registry = .ok (body, d) → d.reference = some r →
    IsReferenceText v ∧ ¬ IsMishyphenated r body

/-- Where the prefix locates a namespace, the text is a written reference. -/
def IsToldFromSuccess (registry : NamespaceRegistry) (v : Text) : Prop :=
  LocatesNamespace registry v →
    MatchesReferenceGrammar registry v ∨ IsHyphenatedAfterPrefixOnly registry v

section Reports

variable {registry : NamespaceRegistry} {v : Text} {returns : ParsedIdentifier → Prop}
  {throws : IdentifoldErrorCode → Prop}

/-- The report on a parsed reference is true. -/
theorem reportsTruth_of_parsed {result : ParsedReference}
    (hreturns : ∀ x, returns x ↔ x = .ref result) (hthrows : ∀ code, ¬ throws code)
    (hparse : parseReference v registry = .ok result) :
    ReportsTruth registry v returns throws (inspectParsed (.ref result)) := by
  obtain ⟨-, body, d, -, hlocate, -⟩ := located_of_parseReference hparse
  have hsome : ∃ x, returns x := ⟨_, (hreturns _).mpr rfl⟩
  exact {
    valid_iff := iff_of_true rfl hsome
    normalized := fun x hx => by rw [(hreturns x).mp hx]; rfl
    errorCode := fun code h => absurd h (hthrows code)
    registryRecognized_iff := iff_of_true rfl ⟨body, d, hlocate⟩
    checksumValid_false_iff := iff_of_false (by simp [inspectParsed]) (hthrows _)
    checksumValid_true_iff := iff_of_true rfl hsome }

/-- The report on a refused one is true when it tells whether a namespace was
located, and a wrong check symbol. -/
theorem reportsTruth_of_refused_iff {code : IdentifoldErrorCode} {report : IdentityInspection}
    (hreturns : ∀ x, ¬ returns x) (hthrows : ∀ code', throws code' ↔ code' = code)
    (hvalid : report.valid = false) (hcode : report.errorCode = some code)
    (hchecksum : report.checksumValid ≠ some true) :
    ReportsTruth registry v returns throws report ↔
      (report.registryRecognized = true ↔ LocatesNamespace registry v) ∧
        (report.checksumValid = some false ↔ code = .invalidChecksum) := by
  have hnone : ¬ ∃ x, returns x := by
    rintro ⟨x, hx⟩
    exact hreturns x hx
  constructor
  · intro h
    refine ⟨h.registryRecognized_iff, h.checksumValid_false_iff.trans ?_⟩
    rw [hthrows, eq_comm]
  · rintro ⟨hlocates, hfalse⟩
    exact {
      valid_iff := iff_of_false (by simp [hvalid]) hnone
      normalized := fun x hx => absurd hx (hreturns x)
      errorCode := fun code' h => by rw [hcode, (hthrows code').mp h]
      registryRecognized_iff := hlocates
      checksumValid_false_iff := hfalse.trans (by rw [hthrows, eq_comm])
      checksumValid_true_iff := iff_of_false hchecksum hnone }

end Reports

section TypeScript

variable (unicode : CaseMapping) (uuid : UuidLibrary) (typeid : TypeIdLibrary)
  {registry : NamespaceRegistry} {v : Text}

/-- `inspect` of the TypeScript package returns a true report on the text. -/
def InspectsTruly (registry : NamespaceRegistry) (v : Text) : Prop :=
  ∃ report, inspect unicode uuid typeid registry v = .ok report ∧
    ReportsTruth registry v (fun x => parse unicode uuid typeid registry v = .ok x)
      (fun code => ∃ message,
        parse unicode uuid typeid registry v = .error (.identifold ⟨code, message⟩)) report

/-- `parse` and `inspect` where the reference parser succeeds. -/
theorem parse_ref_ok (hkind : detectIdentifierKind v = some .ref) {result : ParsedReference}
    (h : parseReference v registry = .ok result) :
    parse unicode uuid typeid registry v = .ok (.ref result) ∧
      inspect unicode uuid typeid registry v = .ok (inspectParsed (.ref result)) := by
  have hparse : parseIdentifier unicode uuid typeid registry v .ref = .ok (.ref result) := by
    rw [parseIdentifier, h]
    rfl
  refine ⟨?_, ?_⟩
  · rw [parse, classifyIdentifier, hkind]
    exact hparse
  · rw [inspect, hkind]
    simp only [hparse]

/-- And where it fails. -/
theorem parse_ref_error (hkind : detectIdentifierKind v = some .ref) {e : IdentifoldError}
    (h : parseReference v registry = .error e) :
    parse unicode uuid typeid registry v = .error (.identifold e) ∧
      ∃ report, inspect unicode uuid typeid registry v = .ok report ∧ report.valid = false ∧
        report.errorCode = some e.code ∧
        (report.registryRecognized = true ↔ IsLateCode e.code) ∧
        report.checksumValid = if e.code = .invalidChecksum then some false else none := by
  have hparse : parseIdentifier unicode uuid typeid registry v .ref = .error (.identifold e) := by
    rw [parseIdentifier, h]
    rfl
  refine ⟨?_, ?_⟩
  · rw [parse, classifyIdentifier, hkind]
    exact hparse
  · rw [inspect, hkind]
    simp only [hparse, if_true]
    split
    · exact ⟨_, rfl, rfl, rfl, by simp [inspectRefused, IsLateCode], rfl⟩
    · exact ⟨_, rfl, rfl, rfl, by simp [inspectRefused, IsLateCode], rfl⟩

/-- The report on a text that is read is told from the code. -/
theorem isToldFromCode_of_ok {result : ParsedReference}
    (h : parseReference v registry = .ok result) : IsToldFromCode registry v := by
  obtain ⟨htext, body, d, r, hlocate, hr, hbody⟩ := located_of_parseReference h
  intro body' d' r' hlocate' hr'
  obtain ⟨rfl, rfl⟩ := Prod.mk.inj (Except.ok.inj (hlocate.symm.trans hlocate'))
  rw [← Option.some.inj (hr.symm.trans hr')]
  exact ⟨htext, hbody⟩

/-- The code of a refusal tells whether a namespace was located, unless it is
the `invalid_ref` of a located text. -/
theorem isLateCode_iff {e : IdentifoldError} (h : parseReference v registry = .error e) :
    (IsLateCode e.code ↔ LocatesNamespace registry v) ↔ IsToldFromCode registry v := by
  obtain ⟨hinvalid, hunknown⟩ := parseReference_error h
  constructor
  · intro hlate body d r hlocate hr
    have hnot := (hlate.mpr ⟨body, d, hlocate⟩).1
    rw [Ne, hinvalid, not_or, not_not] at hnot
    exact ⟨hnot.1, fun hbody => hnot.2 ⟨body, d, r, hlocate, hr, hbody⟩⟩
  · intro htold
    constructor
    · rintro ⟨hnot, hknown⟩
      rw [Ne, hinvalid, not_or, not_not] at hnot
      by_contra hmissing
      exact hknown (hunknown.mpr ⟨hnot.1, hmissing⟩)
    · rintro ⟨body, d, hlocate⟩
      obtain ⟨r, hr⟩ := reference_of_locateNamespace hlocate
      refine ⟨fun hcode => ?_, fun hcode => (hunknown.mp hcode).2 ⟨body, d, hlocate⟩⟩
      rcases hinvalid.mp hcode with htext | ⟨body', d', r', hlocate', hr', hbody⟩
      · exact htext (htold body d r hlocate hr).1
      · exact (htold body' d' r' hlocate' hr').2 hbody

/-- **TypeScript**: the report is true where the code tells the location. -/
theorem inspectsTruly_iff (hkind : detectIdentifierKind v = some .ref) :
    InspectsTruly unicode uuid typeid registry v ↔ IsToldFromCode registry v := by
  cases hresult : parseReference v registry with
  | ok result =>
      obtain ⟨hparse, hinspect⟩ := parse_ref_ok unicode uuid typeid hkind hresult
      refine iff_of_true ⟨_, hinspect, reportsTruth_of_parsed (fun x => ?_) (fun code => ?_) hresult⟩
        (isToldFromCode_of_ok hresult)
      · rw [hparse, Except.ok.injEq, eq_comm]
      · rintro ⟨message, h⟩
        rw [hparse] at h
        contradiction
  | error e =>
      obtain ⟨hparse, report, hinspect, hvalid, hcode, hrecognized, hchecksum⟩ :=
        parse_ref_error unicode uuid typeid hkind hresult
      have htruth : ReportsTruth registry v (fun x => parse unicode uuid typeid registry v = .ok x)
          (fun code => ∃ message,
            parse unicode uuid typeid registry v = .error (.identifold ⟨code, message⟩)) report ↔
          IsToldFromCode registry v := by
        refine (reportsTruth_of_refused_iff (fun x h => ?_) (fun code => ?_) hvalid hcode ?_).trans ?_
        · rw [hparse] at h
          contradiction
        · rw [hparse]
          obtain ⟨_, text⟩ := e
          simp [eq_comm]
        · rw [hchecksum]
          split <;> simp
        · rw [hrecognized, hchecksum, isLateCode_iff hresult]
          simp
      constructor
      · rintro ⟨report', hinspect', h⟩
        rw [Except.ok.inj (hinspect'.symm.trans hinspect)] at h
        exact htruth.mp h
      · intro h
        exact ⟨report, hinspect, htruth.mpr h⟩

end TypeScript

section Port

variable {runtime : Python.Runtime} {package : Python.TypeIdPackage} {registry : NamespaceRegistry}
  {v : Text}

/-- `parse` of the Python port on a reference. -/
theorem Python.parse_ref (hkind : detectIdentifierKind v = some .ref) :
    Python.parse runtime package registry v =
      ((Identifold.parseReference v registry).mapError IdentifoldError.code).map .ref := by
  have hclass : Python.classify v = .ok .ref := by
    rw [Python.classify, Python.detect, hkind]
  rw [Python.parse, hclass, ok_bind]
  simp only [Python.parseReference_eq]
  cases Identifold.parseReference v registry <;> rfl

/-- **Python**: the report is true where the reference is read, or no namespace
is located. -/
theorem Python.inspect_true_iff (hkind : detectIdentifierKind v = some .ref) :
    ReportsTruth registry v (fun x => Python.parse runtime package registry v = .ok x)
        (fun code => Python.parse runtime package registry v = .error code)
        (Python.inspect runtime package registry v) ↔ IsToldFromSuccess registry v := by
  have hparse : Python.parse runtime package registry v =
      ((Identifold.parseReference v registry).mapError IdentifoldError.code).map .ref :=
    Python.parse_ref hkind
  rw [IsToldFromSuccess, ← parseReference_isOk_iff, Python.inspect]
  cases hresult : Identifold.parseReference v registry with
  | ok result =>
      -- a parsed reference is reported as it is
      have hok : Python.parse runtime package registry v = .ok (.ref result) := by
        rw [hparse, hresult]
        rfl
      rw [hok]
      refine iff_of_true (reportsTruth_of_parsed (fun x => ?_) (fun code => nofun) hresult)
        fun _ => ⟨result, rfl⟩
      rw [Except.ok.injEq, eq_comm]
  | error e =>
      have herror : Python.parse runtime package registry v = .error e.code := by
        rw [hparse, hresult]
        rfl
      -- a code that is thrown where no namespace is located is no checksum error
      have hearly : ¬ LocatesNamespace registry v → e.code ≠ .invalidChecksum := by
        intro hmissing
        obtain ⟨hinvalid, hunknown⟩ := parseReference_error hresult
        by_cases htext : IsReferenceText v
        · rw [hunknown.mpr ⟨htext, hmissing⟩]
          decide
        · rw [hinvalid.mpr (.inl htext)]
          decide
      rw [herror]
      refine (reportsTruth_of_refused_iff (fun x h => by contradiction) (fun code => ?_) rfl rfl
        (by simp [inspectRefused])).trans ?_
      · rw [Except.error.injEq, eq_comm]
      · constructor
        · rintro ⟨hrecognized, -⟩ hlocated
          exact absurd (hrecognized.mpr hlocated) (by simp [inspectRefused])
        · intro htold
          have hmissing : ¬ LocatesNamespace registry v := by
            intro hlocated
            obtain ⟨result, hok⟩ := htold hlocated
            contradiction
          exact ⟨iff_of_false (by simp [inspectRefused]) hmissing,
            iff_of_false (by simp [inspectRefused]) (hearly hmissing)⟩

end Port

/-- **Reports on references**: the TypeScript package's is true where the error
code tells whether a namespace was located, the Python port's where the text is
read or no namespace is located. -/
theorem inspect_truth_iff (unicode : CaseMapping) (uuid : UuidLibrary) (typeid : TypeIdLibrary)
    (runtime : Python.Runtime) (package : Python.TypeIdPackage) (registry : NamespaceRegistry)
    {v : Text} (hkind : detectIdentifierKind v = some .ref) :
    (InspectsTruly unicode uuid typeid registry v ↔ IsToldFromCode registry v) ∧
      (ReportsTruth registry v (fun x => Python.parse runtime package registry v = .ok x)
        (fun code => Python.parse runtime package registry v = .error code)
        (Python.inspect runtime package registry v) ↔ IsToldFromSuccess registry v) :=
  ⟨inspectsTruly_iff unicode uuid typeid hkind, Python.inspect_true_iff hkind⟩

/-- Both reports on `ORD-7K4M-2P8Q-3D-9`. -/
theorem inspect_truth_sample :
    (InspectsTruly asciiCaseMapping rfc9562 typeIdV03 sampleRegistry "ORD-7K4M-2P8Q-3D-9".toList ↔
        IsToldFromCode sampleRegistry "ORD-7K4M-2P8Q-3D-9".toList) ∧
      (ReportsTruth sampleRegistry "ORD-7K4M-2P8Q-3D-9".toList
        (fun x => Python.parse Python.plainRuntime Python.plainTypeId sampleRegistry
          "ORD-7K4M-2P8Q-3D-9".toList = .ok x)
        (fun code => Python.parse Python.plainRuntime Python.plainTypeId sampleRegistry
          "ORD-7K4M-2P8Q-3D-9".toList = .error code)
        (Python.inspect Python.plainRuntime Python.plainTypeId sampleRegistry
          "ORD-7K4M-2P8Q-3D-9".toList) ↔
        IsToldFromSuccess sampleRegistry "ORD-7K4M-2P8Q-3D-9".toList) :=
  inspect_truth_iff asciiCaseMapping rfc9562 typeIdV03 Python.plainRuntime Python.plainTypeId
    sampleRegistry (by decide)

/-- `ORD-7K4M2P8Q3D-9` has a registered prefix and hyphens in the wrong places.
Both packages report that no namespace is recognized.  On a wrong check symbol,
the Python port's report says nothing of it. -/
theorem inspect_misreports :
    detectIdentifierKind "ORD-7K4M2P8Q3D-9".toList = some .ref ∧
      LocatesNamespace sampleRegistry "ORD-7K4M2P8Q3D-9".toList ∧
      (∃ report, inspect asciiCaseMapping rfc9562 typeIdV03 sampleRegistry
          "ORD-7K4M2P8Q3D-9".toList = .ok report ∧ report.errorCode = some .invalidRef ∧
        report.registryRecognized = false) ∧
      (Python.inspect Python.plainRuntime Python.plainTypeId sampleRegistry
        "ORD-7K4M2P8Q3D-9".toList).registryRecognized = false ∧
      Python.parse Python.plainRuntime Python.plainTypeId sampleRegistry
        "ORD-7K4M-2P8Q-3D-K".toList = .error .invalidChecksum ∧
      (Python.inspect Python.plainRuntime Python.plainTypeId sampleRegistry
        "ORD-7K4M-2P8Q-3D-K".toList).checksumValid = none := by
  refine ⟨by decide, ⟨"7K4M2P8Q3D-9".toList, orderDefinition, rfl⟩, ⟨_, rfl, ?_, ?_⟩, ?_, ?_⟩
  · decide
  · decide
  · decide
  · decide

end Identifold
