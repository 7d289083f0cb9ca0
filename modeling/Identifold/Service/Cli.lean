import Identifold.JsonText
import Identifold.Service.Inspection

/-!
# Identifold.Service.Cli

The command line of `packages/typescript/src/cli.ts`: `new`, `inspect`,
`validate`, `normalize` and `conformance`.

Without `--registry`, the commands that read an identifier make up a registry
with one namespace, the text before the first underscore.  The parser of public
identifiers takes the text before the last one.

* `inferDefinitions_publicIdText` — the registry that is made up for a public
  identifier.
-/

namespace Identifold.Cli

open Separated

/-! ## options -/

/-- `Options`. -/
structure Options where
  adapter : Option Text
  json : Bool
  registry : Option Text
  positional : List Text
  deriving DecidableEq, Repr

/-- The loop of `parseOptions`. -/
def parseLoop (options : Options) : List Text → Options
  | [] => options
  | [argument] =>
      if argument = "--json".toList then { options with json := true }
      else if argument = "--adapter".toList then { options with adapter := none }
      else if argument = "--registry".toList then { options with registry := none }
      else { options with positional := options.positional ++ [argument] }
  | argument :: next :: arguments =>
      if argument = "--json".toList then parseLoop { options with json := true } (next :: arguments)
      else if argument = "--adapter".toList then
        parseLoop { options with adapter := some next } arguments
      else if argument = "--registry".toList then
        parseLoop { options with registry := some next } arguments
      else parseLoop { options with positional := options.positional ++ [argument] }
        (next :: arguments)

/-- `parseOptions`. -/
def parseOptions (arguments : List Text) : Options := parseLoop ⟨none, false, none, []⟩ arguments

/-! ## output -/

/-- What a command writes, and the exit code it leaves. -/
structure Result where
  value : JsonValue
  json : Bool
  exitCode : Nat

/-- `write`. -/
def Result.stdout (result : Result) : Option Text :=
  match result.value, result.json with
  | .string v, false => some (v ++ ['\n'])
  | v, _ => (JsonText.stringify v).map (· ++ ['\n'])

/-- What a command throws. -/
inductive Failure
  | configuration
  | thrown (error : Thrown)
  deriving DecidableEq, Repr

/-- `IDENTIFOLD_ERROR_CODES`, as they are written. -/
def codeName : IdentifoldErrorCode → Text
  | .allocationConflict => "allocation_conflict".toList
  | .allocationExhausted => "allocation_exhausted".toList
  | .allocationRequired => "allocation_required".toList
  | .ambiguousRefPrefix => "ambiguous_ref_prefix".toList
  | .duplicatePublicPrefix => "duplicate_public_prefix".toList
  | .duplicateRefPrefix => "duplicate_ref_prefix".toList
  | .invalidAllocationPolicy => "invalid_allocation_policy".toList
  | .invalidChecksum => "invalid_checksum".toList
  | .invalidKind => "invalid_kind".toList
  | .invalidMid => "invalid_mid".toList
  | .invalidNamespaceDefinition => "invalid_namespace_definition".toList
  | .invalidPid => "invalid_pid".toList
  | .invalidPublicPrefix => "invalid_public_prefix".toList
  | .invalidRandomSource => "invalid_random_source".toList
  | .invalidRef => "invalid_ref".toList
  | .invalidRefLength => "invalid_ref_length".toList
  | .invalidRefPrefix => "invalid_ref_prefix".toList
  | .invalidRefSymbol => "invalid_ref_symbol".toList
  | .invalidUuidVersion => "invalid_uuid_version".toList
  | .sequenceOverflow => "sequence_overflow".toList
  | .unknownNamespace => "unknown_namespace".toList

/-- `{ error }`. -/
def errorValue (name : Text) : JsonValue := .object [("error".toList, .string name)]

/-- `handleError`. -/
def handleError (json : Bool) : Failure → Result
  | .configuration => ⟨errorValue "configuration_error".toList, json, 3⟩
  | .thrown (.identifold error) => ⟨errorValue (codeName error.code), json, 2⟩
  | .thrown .foreign => ⟨errorValue "runtime_error".toList, json, 3⟩

/-- `IdentifierKind`, as it is written. -/
def kindName : Option IdentifierKind → Text
  | some .mid => "mid".toList
  | some .pid => "pid".toList
  | some .ref => "ref".toList
  | none => "unknown".toList

/-- A property that is there where it has a value. -/
def property (name : String) (value : JsValue) : List (Text × JsonValue) :=
  value.toList.map fun v => (name.toList, v)

/-- The properties of an inspection, in the order they are written. -/
def inspectionMembers (inspection : IdentityInspection) : List (Text × JsonValue) :=
  property "kind" (some (.string (kindName inspection.kind))) ++
  property "valid" (some (.boolean inspection.valid)) ++
  property "normalized" (inspection.normalized.map .string) ++
  property "namespace" (inspection.namespaceName.map .string) ++
  property "machineId" (inspection.machineId.map .string) ++
  property "registryRecognized" (some (.boolean inspection.registryRecognized)) ++
  property "uuidVersion" (inspection.uuidVersion.map fun version => .number (.integer version)) ++
  property "errorCode" (inspection.errorCode.map fun code => .string (codeName code)) ++
  property "checksumValid" (inspection.checksumValid.map .boolean) ++
  property "resolution" (inspection.resolution.map fun _ => .string "not-requested".toList)

/-! ## commands -/

/-- The conformance runner's exit status, if it ended by itself, and output. -/
structure ConformanceRun where
  status : Option Int
  stdout : Text

/-- What the commands get from outside: the UUIDv7 that `createMachineId`
draws, what a registry file is loaded as, and the conformance runner. -/
structure Environment where
  machineId : Text
  machineId_valid : IsMachineId machineId
  readRegistry : Text → Except Failure NamespaceRegistry
  runConformance : Text → ConformanceRun

/-- The three commands that read an identifier. -/
inductive Command
  | inspect
  | normalize
  | validate
  deriving DecidableEq, Repr

/-- The definitions made up for a value without a registry file. -/
def inferDefinitions (value : Text) : List NamespaceDefinition :=
  match value.idxOf? '_' with
  | some separator => if 0 < separator then [⟨value.take separator, none⟩] else []
  | none => []

section Commands

variable (unicode : CaseMapping) (uuid : UuidLibrary) (typeid : TypeIdLibrary)
  (environment : Environment)

/-- `loadRegistry`. -/
def loadRegistry (path : Option Text) (value : Text) : Except Failure NamespaceRegistry :=
  match path with
  | some path => environment.readRegistry path
  | none => (createNamespaceRegistry (inferDefinitions value)).mapError fun e =>
      .thrown (.identifold e)

/-- `createNew`. -/
def createNew (options : Options) : Result :=
  match options.positional with
  | [namespaceName] =>
      let mid := environment.machineId
      match publicIdFromMachineId unicode uuid typeid mid namespaceName with
      | .ok pid => ⟨.object [("mid".toList, .string mid), ("pid".toList, .string pid)],
          options.json, 0⟩
      | .error e => handleError options.json (.thrown e)
  | _ => ⟨errorValue "invalid_input".toList, options.json, 2⟩

/-- The three commands on a value and a registry. -/
def runCommand (command : Command) (registry : NamespaceRegistry) (value : Text) (json : Bool) :
    Except Failure Result :=
  match command with
  | .inspect => do
      let inspection ← (inspect unicode uuid typeid registry value).mapError .thrown
      return ⟨.object (inspectionMembers inspection), json, if inspection.valid then 0 else 2⟩
  | .validate => do
      let valid ← (validate unicode uuid typeid registry value).mapError .thrown
      return ⟨.object [("valid".toList, .boolean valid)], json, if valid then 0 else 2⟩
  | .normalize => do
      let normalized ← (normalize unicode uuid typeid registry value).mapError .thrown
      return ⟨.object [("normalized".toList, .string normalized)], json, 0⟩

/-- `processIdentifier`. -/
def processIdentifier (command : Command) (options : Options) : Result :=
  match options.positional with
  | [value] =>
      let result := do
        let registry ← loadRegistry environment options.registry value
        runCommand unicode uuid typeid command registry value options.json
      match result with
      | .ok result => result
      | .error e => handleError options.json e
  | _ => ⟨errorValue "invalid_input".toList, options.json, 2⟩

/-- `runConformance`; an output that is no JSON is an error nobody catches. -/
def runConformance (options : Options) : Option Result :=
  let run := environment.runConformance
    (options.adapter.getD "conformance/typescript-adapter.mjs".toList)
  if run.status = some 0 then
    (JsonText.parse run.stdout).map fun report => ⟨report, options.json, 0⟩
  else if run.status = some 1 then
    some ⟨errorValue "conformance_failed".toList, options.json, 3⟩
  else some ⟨errorValue "configuration_error".toList, options.json, 3⟩

/-- `main`. -/
def main (arguments : List Text) : Option Result :=
  let command := arguments.headD []
  let options := parseOptions arguments.tail
  if command = "conformance".toList then runConformance environment options
  else if command = "new".toList then some (createNew unicode uuid typeid environment options)
  else if command = "inspect".toList then
    some (processIdentifier unicode uuid typeid environment .inspect options)
  else if command = "validate".toList then
    some (processIdentifier unicode uuid typeid environment .validate options)
  else if command = "normalize".toList then
    some (processIdentifier unicode uuid typeid environment .normalize options)
  else some ⟨errorValue "invalid_command".toList, options.json, 2⟩

end Commands

/-! ## what is inferred -/

section Inference

variable {namespaceName hex : Text}

/-- The text before the first underscore. -/
def firstPart (v : Text) : Text := v.takeWhile (· ≠ '_')

theorem firstPart_eq_iff : firstPart namespaceName = namespaceName ↔ '_' ∉ namespaceName := by
  rw [firstPart, List.takeWhile_eq_self_iff]
  simp only [decide_eq_true_eq]
  exact ⟨fun h hmem => h _ hmem rfl, fun h c hc heq => h (heq ▸ hc)⟩

/-- The part of a public prefix before an underscore is a public prefix. -/
theorem isPublicPrefix_firstPart (h : isPublicPrefix namespaceName = true) :
    isPublicPrefix (firstPart namespaceName) = true := by
  have hlower : ∀ c ∈ firstPart namespaceName, c.isLower = true := by
    intro c hc
    have hne : c ≠ '_' := by simpa using List.mem_takeWhile_imp hc
    exact (mem_publicPrefix h (List.takeWhile_subset _ hc)).resolve_right hne
  simp only [isPublicPrefix, isTypeIdPrefix, Bool.and_eq_true, decide_eq_true_eq,
    List.all_eq_true] at h ⊢
  obtain ⟨hne, ⟨⟨hlen, hhead⟩, -⟩, -⟩ := h
  refine ⟨?_, ⟨⟨?_, ?_⟩, ?_⟩, ?_⟩
  · cases namespaceName with
    | nil => contradiction
    | cons c v =>
        have hc : c ≠ '_' := by
          rintro rfl
          contradiction
        simp [firstPart, hc]
  · exact Nat.le_trans (List.takeWhile_sublist _).length_le hlen
  · rw [Option.all_eq_true]
    exact fun c hc => hlower c (List.mem_of_mem_head? hc)
  · rw [Option.all_eq_true]
    exact fun c hc => hlower c (List.mem_of_mem_getLast? hc)
  · intro c hc
    rw [hlower c hc]
    rfl

theorem idxOf?_append_cons {v rest : Text} (h : '_' ∉ v) :
    (v ++ '_' :: rest).idxOf? '_' = some v.length := by
  rw [List.idxOf?_eq_some_iff]
  refine ⟨by simp, by simp, fun i hi heq => h ?_⟩
  rw [List.getElem_append_left hi] at heq
  exact heq ▸ List.getElem_mem hi

/-- **What is inferred** from a public identifier: the part of its namespace
before an underscore. -/
theorem inferDefinitions_publicIdText (h : isPublicPrefix namespaceName = true) :
    inferDefinitions (publicIdText namespaceName hex) = [⟨firstPart namespaceName, none⟩] := by
  have hpart := isPublicPrefix_firstPart h
  have hpos : 0 < (firstPart namespaceName).length := by
    rw [isPublicPrefix, Bool.and_eq_true, decide_eq_true_eq] at hpart
    omega
  have hnot : '_' ∉ firstPart namespaceName := by
    intro hmem
    simpa using List.mem_takeWhile_imp hmem
  obtain ⟨rest, hsplit⟩ : ∃ rest, publicIdText namespaceName hex =
      firstPart namespaceName ++ '_' :: rest := by
    by_cases hmem : '_' ∈ namespaceName
    · refine ⟨(namespaceName.dropWhile (· ≠ '_')).drop 1 ++ '_' :: suffixOfHex hex, ?_⟩
      rw [publicIdText, ← List.cons_append, ← List.append_assoc, firstPart,
        ← takeWhile_append_drop hmem]
    · exact ⟨suffixOfHex hex, by rw [firstPart_eq_iff.mpr hmem]; rfl⟩
  rw [inferDefinitions, hsplit, idxOf?_append_cons hnot]
  simp only [if_pos hpos, List.take_left']

/-- A registry of one namespace without references. -/
theorem createNamespaceRegistry_single {p : Text} (hp : isPublicPrefix p = true) :
    ∃ registry, createNamespaceRegistry [⟨p, none⟩] = .ok registry ∧
      registry.definitions = [⟨p, none, hp⟩] :=
  ⟨⟨[⟨p, none, hp⟩], by simp, by simp⟩,
    createNamespaceRegistry_ok_iff.mpr (.cons ⟨rfl, rfl⟩ .nil), rfl⟩

end Inference

/-! ## the commands on a public identifier -/

section Commands

variable {unicode : CaseMapping} {uuid : UuidLibrary} {typeid : TypeIdLibrary}
  {registry : NamespaceRegistry} {parsed : ParsedPublicId}

theorem detectIdentifierKind_publicIdText (namespaceName hex : Text) :
    detectIdentifierKind (publicIdText namespaceName hex) = some .pid :=
  if_pos (by simp [publicIdText])

/-- A public identifier of a registered namespace. -/
theorem parse_registered {v : Text} (hkind : detectIdentifierKind v = some .pid)
    (hparse : parsePublicId unicode uuid typeid v = .ok parsed)
    (hregistered : registry.getByPublicPrefix parsed.namespaceName ≠ none) :
    parse unicode uuid typeid registry v = .ok (.pid parsed) ∧
      inspect unicode uuid typeid registry v = .ok (inspectParsed (.pid parsed)) := by
  have hidentifier : parseIdentifier unicode uuid typeid registry v .pid = .ok (.pid parsed) := by
    rw [parseIdentifier, hparse, ok_bind, ensure_of hregistered]
    rfl
  refine ⟨?_, ?_⟩
  · rw [parse, classifyIdentifier, hkind]
    exact hidentifier
  · rw [inspect, hkind]
    simp only [hidentifier]

/-- One of another namespace. -/
theorem parse_unregistered {v : Text} (hkind : detectIdentifierKind v = some .pid)
    (hparse : parsePublicId unicode uuid typeid v = .ok parsed)
    (hregistered : registry.getByPublicPrefix parsed.namespaceName = none) :
    parse unicode uuid typeid registry v = .error (.identifold
        ⟨.unknownNamespace, "Unknown public identifier namespace"⟩) ∧
      inspect unicode uuid typeid registry v =
        .ok (inspectRefused (some .pid) .unknownNamespace false) := by
  have hidentifier : parseIdentifier unicode uuid typeid registry v .pid = .error (.identifold
      ⟨.unknownNamespace, "Unknown public identifier namespace"⟩) := by
    rw [parseIdentifier, hparse, ok_bind, ensure_of_not (not_not_intro hregistered)]
    rfl
  refine ⟨?_, ?_⟩
  · rw [parse, classifyIdentifier, hkind]
    exact hidentifier
  · rw [inspect, hkind]
    simp only [hidentifier]
    rfl

variable {environment : Environment} {arguments : List Text} {value : Text}

/-- Arguments that give one identifier, and no registry file. -/
def IsBare (arguments : List Text) (value : Text) : Prop :=
  (parseOptions arguments).positional = [value] ∧ (parseOptions arguments).registry = none

/-- The command as it is typed. -/
def commandName : Command → Text
  | .inspect => "inspect".toList
  | .normalize => "normalize".toList
  | .validate => "validate".toList

/-- A command on bare arguments runs on the registry that is inferred. -/
theorem main_bare (hbare : IsBare arguments value)
    (hload : createNamespaceRegistry (inferDefinitions value) = .ok registry) (command : Command) :
    main unicode uuid typeid environment (commandName command :: arguments) =
      some (match runCommand unicode uuid typeid command registry value
          (parseOptions arguments).json with
        | .ok result => result
        | .error e => handleError (parseOptions arguments).json e) := by
  have hmain : main unicode uuid typeid environment (commandName command :: arguments) =
      some (processIdentifier unicode uuid typeid environment command (parseOptions arguments)) := by
    cases command <;> rfl
  rw [hmain, processIdentifier]
  simp only [hbare.1, hbare.2, loadRegistry, hload]
  rfl

/-- The identifier alone is bare. -/
theorem isBare_publicIdText {namespaceName hex : Text} (h : isPublicPrefix namespaceName = true) :
    IsBare [publicIdText namespaceName hex] (publicIdText namespaceName hex) := by
  have hflag : ∀ rest, publicIdText namespaceName hex ≠ '-' :: rest := by
    intro rest heq
    cases namespaceName with
    | nil => contradiction
    | cons c v =>
        obtain rfl := (List.cons.inj heq).1
        have := mem_publicPrefix h (List.mem_cons_self (a := '-'))
        revert this
        decide
  have hjson : publicIdText namespaceName hex ≠ "--json".toList := hflag "-json".toList
  have hadapter : publicIdText namespaceName hex ≠ "--adapter".toList := hflag "-adapter".toList
  have hregistry : publicIdText namespaceName hex ≠ "--registry".toList := hflag "-registry".toList
  rw [IsBare, parseOptions, parseLoop, if_neg hjson, if_neg hadapter, if_neg hregistry]
  exact ⟨rfl, rfl⟩

end Commands

/-! ## self-consistency -/

section SelfConsistency

variable (unicode : CaseMapping) (uuid : UuidLibrary) (typeid : TypeIdLibrary)

/-- Without a registry file, an identifier is valid, normal, and reported with
its namespace and machine identifier. -/
structure SelfConsistent (environment : Environment) (namespaceName mid pid : Text) : Prop where
  validates : ∀ arguments, IsBare arguments pid →
    main unicode uuid typeid environment (commandName .validate :: arguments) =
      some ⟨.object [("valid".toList, .boolean true)], (parseOptions arguments).json, 0⟩
  normalizes : ∀ arguments, IsBare arguments pid →
    main unicode uuid typeid environment (commandName .normalize :: arguments) =
      some ⟨.object [("normalized".toList, .string pid)], (parseOptions arguments).json, 0⟩
  inspects : ∀ arguments, IsBare arguments pid → ∃ members,
    main unicode uuid typeid environment (commandName .inspect :: arguments) =
        some ⟨.object members, (parseOptions arguments).json, 0⟩ ∧
      members.lookup "valid".toList = some (.boolean true) ∧
      members.lookup "namespace".toList = some (.string namespaceName) ∧
      members.lookup "machineId".toList = some (.string mid)

variable {unicode uuid typeid} {environment : Environment} {arguments : List Text}
  {namespaceName mid pid : Text} {json : Bool}

/-- What `new` prints. -/
theorem createNew_printed (hname : (parseOptions arguments).positional = [namespaceName])
    (hnew : main unicode uuid typeid environment ("new".toList :: arguments) =
      some ⟨.object [("mid".toList, .string mid), ("pid".toList, .string pid)], json, 0⟩) :
    isPublicPrefix namespaceName = true ∧ ∃ hex, IsMachineHex hex ∧ mid = formatUuid hex ∧
      pid = publicIdText namespaceName hex := by
  have hmain : main unicode uuid typeid environment ("new".toList :: arguments) =
      some (createNew unicode uuid typeid environment (parseOptions arguments)) := rfl
  rw [hmain, Option.some.injEq, createNew, hname] at hnew
  simp only at hnew
  split at hnew
  · next printed hprinted =>
      obtain ⟨hns, hex, hhex, hlower, rfl⟩ := publicIdFromMachineId_ok_iff.mp hprinted
      rw [environment.machineId_valid.facts.2.2.1] at hlower
      simp only [Result.mk.injEq, JsonValue.object.injEq, List.cons.injEq, Prod.mk.injEq,
        JsonValue.string.injEq, true_and, and_true] at hnew
      exact ⟨hns, hex, hhex, hnew.1.1 ▸ hlower, hnew.1.2.symm⟩
  · next e he =>
      have hcode := congrArg Result.exitCode hnew
      revert hcode
      cases e <;> simp [handleError]

/-- **Self-consistency** without a registry file holds of the public identifiers
whose namespace has no underscore, and fails of all others. -/
theorem self_consistent_iff (hname : (parseOptions arguments).positional = [namespaceName])
    (hnew : main unicode uuid typeid environment ("new".toList :: arguments) =
      some ⟨.object [("mid".toList, .string mid), ("pid".toList, .string pid)], json, 0⟩) :
    SelfConsistent unicode uuid typeid environment namespaceName mid pid ↔ '_' ∉ namespaceName := by
  obtain ⟨hns, hex, hhex, rfl, rfl⟩ := createNew_printed hname hnew
  obtain ⟨registry, hcreate, hdefinitions⟩ :=
    createNamespaceRegistry_single (isPublicPrefix_firstPart hns)
  have hinfer : inferDefinitions (publicIdText namespaceName hex) = [⟨firstPart namespaceName, none⟩] :=
    inferDefinitions_publicIdText hns
  rw [← hinfer] at hcreate
  have hkind := detectIdentifierKind_publicIdText namespaceName hex
  have hparse : parsePublicId unicode uuid typeid (publicIdText namespaceName hex) =
      .ok ⟨publicIdText namespaceName hex, namespaceName, formatUuid hex⟩ :=
    parsePublicId_ok_iff.mpr ⟨namespaceName, hex, hns, hhex, rfl, rfl⟩
  have hregistered : registry.getByPublicPrefix namespaceName ≠ none ↔ '_' ∉ namespaceName := by
    rw [NamespaceRegistry.getByPublicPrefix, hdefinitions, ← firstPart_eq_iff]
    simp
  rw [← hregistered]
  constructor
  · intro h hnone
    obtain ⟨hunknown, -⟩ := parse_unregistered hkind hparse hnone
    have hvalidate := h.validates _ (isBare_publicIdText hns)
    rw [main_bare (isBare_publicIdText hns) hcreate, runCommand] at hvalidate
    simp only [validate, hunknown] at hvalidate
    simp [Except.mapError, bind, Except.bind, pure, Except.pure] at hvalidate
  · intro hknown
    obtain ⟨hread, hinspect⟩ := parse_registered hkind hparse hknown
    refine ⟨?_, ?_, ?_⟩
    · intro arguments hbare
      rw [main_bare hbare hcreate, runCommand]
      simp only [validate, hread]
      rfl
    · intro arguments hbare
      rw [main_bare hbare hcreate, runCommand]
      simp only [normalize, hread]
      rfl
    · intro arguments hbare
      refine ⟨inspectionMembers (inspectParsed (.pid
        ⟨publicIdText namespaceName hex, namespaceName, formatUuid hex⟩)), ?_, rfl, rfl, rfl⟩
      rw [main_bare hbare hcreate, runCommand]
      simp only [hinspect]
      rfl

end SelfConsistency

/-! ## two namespaces -/

/-- An environment that draws one machine identifier. -/
def sampleEnvironment : Environment where
  machineId := "019f0000-0000-7000-8000-000000000001".toList
  machineId_valid := isMachineId_iff.mpr (by decide)
  readRegistry _ := .error .configuration
  runConformance _ := ⟨some 1, []⟩

/-- The identifier that `new` prints for a namespace with an underscore is
refused by all three commands. -/
theorem user_profile_inconsistent :
    let run := main asciiCaseMapping rfc9562 typeIdV03 sampleEnvironment
    let pid := "user_profile_01kw000000e008000000000001".toList
    run ["new".toList, "user_profile".toList] = some ⟨.object [
        ("mid".toList, .string "019f0000-0000-7000-8000-000000000001".toList),
        ("pid".toList, .string pid)], false, 0⟩ ∧
      run ["validate".toList, pid] = some ⟨.object [("valid".toList, .boolean false)], false, 2⟩ ∧
      run ["normalize".toList, pid] = some ⟨errorValue "unknown_namespace".toList, false, 2⟩ ∧
      run ["inspect".toList, pid] = some ⟨.object [("kind".toList, .string "pid".toList),
        ("valid".toList, .boolean false), ("registryRecognized".toList, .boolean false),
        ("errorCode".toList, .string "unknown_namespace".toList)], false, 2⟩ := by
  refine ⟨rfl, rfl, rfl, rfl⟩

/-- The identifier printed for a namespace without one is accepted. -/
theorem self_consistent_user :
    SelfConsistent asciiCaseMapping rfc9562 typeIdV03 sampleEnvironment "user".toList
      "019f0000-0000-7000-8000-000000000001".toList "user_01kw000000e008000000000001".toList := by
  have hnew : main asciiCaseMapping rfc9562 typeIdV03 sampleEnvironment
      ["new".toList, "user".toList, "--json".toList] = some ⟨.object [
        ("mid".toList, .string "019f0000-0000-7000-8000-000000000001".toList),
        ("pid".toList, .string "user_01kw000000e008000000000001".toList)], true, 0⟩ := rfl
  have hname : (parseOptions ["user".toList, "--json".toList]).positional = ["user".toList] := rfl
  exact (self_consistent_iff hname hnew).mpr (by decide)

end Identifold.Cli
