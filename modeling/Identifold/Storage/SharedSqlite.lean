import Identifold.Storage.PackageAllocation

/-!
# Identifold.Storage.SharedSqlite

One SQLite database under programs in any of the languages.

Whatever calls the packages make, each a transaction of its own, the tables are those
after a run of the TypeScript adapter: a call that fails leaves no trace, and one
that succeeds does what TypeScript does for the machine identifier that was read.
`packages_share_database` adds that the packages answer canonical calls alike, and resolve
every canonical reference to the same machine identifier.

* `Package.exec_spec` — one call of any package;
* `Package.resolve_of_canonical` — one lookup.
-/

namespace Identifold

open RegisteredReferenceDefinition Separated Transition Rows

/-! ## canonical references -/

section Canonical

variable {reference : Text}

/-- A canonical reference is the canonical text of a payload. -/
theorem IsCanonicalReference.eq_canonical (h : IsCanonicalReference reference) :
    ∃ (r : RegisteredReferenceDefinition) (payload : Text), r.IsPayload payload ∧
      reference = r.canonical payload := by
  obtain ⟨registry, result, hparse, hvalue⟩ := h
  obtain ⟨d, -, r, -, raw, hraw, -, rfl⟩ := parseReference_ok_iff.mp hparse
  exact ⟨r, r.normalize raw, IsSpelledPayload.normalize r hraw, hvalue.symm⟩

/-- Its symbols are upper-case letters, digits, check symbols and hyphens. -/
theorem IsCanonicalReference.symbols (h : IsCanonicalReference reference) :
    ∀ c ∈ reference, IsReferenceSymbol c ∨ c = '-' := by
  obtain ⟨r, payload, hpayload, rfl⟩ := h.eq_canonical
  have hspelled := (IsPayload.spelled r hpayload).1
  exact fun c hc => mem_written r hspelled (.inr (.inr (canonical_eq r hpayload))) hc

theorem groups_nonempty (r : RegisteredReferenceDefinition) {payload : Text}
    (h : payload.length = r.payloadLength) : ∀ g ∈ r.groups payload, g ≠ [] := by
  have hlengths : ∀ n ∈ r.groupLengths, 0 < n := by
    cases r with
    | random r =>
        have hprofile : ∀ profile : RandomReferenceProfile,
            ∀ n ∈ chunkLengths 4 profile.payloadLength, 0 < n := by
          intro profile
          cases profile <;> decide
        exact hprofile r.profile
    | sequence r =>
        have hwidth := r.width_valid
        intro n hn
        simp only [groupLengths] at hn
        split at hn
        · simp only [List.mem_cons, List.not_mem_nil, or_false] at hn
          omega
        · rw [List.mem_singleton.mp hn]
          omega
  rintro g hg rfl
  have hzero : 0 ∈ (r.groups payload).map List.length := List.mem_map.mpr ⟨[], hg, rfl⟩
  rw [map_length_groups r h] at hzero
  exact absurd (hlengths 0 hzero) (Nat.lt_irrefl 0)

/-- Between its hyphens are the prefix, groups that are not empty, and a check symbol. -/
theorem IsCanonicalReference.splitOn (h : IsCanonicalReference reference) :
    ∃ refPrefix groups c, reference.splitOn '-' = refPrefix :: (groups ++ [[c]]) ∧
      (∀ g ∈ groups, g ≠ []) ∧ isCheckSymbol c = true := by
  obtain ⟨r, payload, hpayload, rfl⟩ := h.eq_canonical
  obtain ⟨hspelled, hnorm⟩ := IsPayload.spelled r hpayload
  obtain ⟨c, hc, hcheck⟩ := checkSymbol_eq r payload
  have hhyphens := hyphen_not_mem_groups r hspelled
  rw [hnorm] at hhyphens
  have hall : ∀ c ∈ checkAlphabet, isCheckSymbol c = true := by decide
  refine ⟨r.refPrefix, r.groups payload, c, ?_, groups_nonempty r hspelled.1, hall c hc⟩
  rw [canonical, splitOn_join ?_ (List.cons_ne_nil _ _), hcheck]
  intro g hg
  rcases List.mem_cons.mp hg with rfl | hg
  · exact hyphen_not_mem_refPrefix r.refPrefix_valid
  · exact hhyphens g hg

/-- Of a canonical reference, a loose split is a strict one. -/
theorem SplitReference.Loose.strict {s : SplitReference} (hs : s.Loose)
    (h : IsCanonicalReference s.text) : s.Strict := by
  obtain ⟨p, groups, c, hsplit, hgroups, hc⟩ := h.splitOn
  rw [hs.splitOn_text] at hsplit
  have hodd := (hs.not_strict_iff).mp
  by_contra hnot
  rcases hodd hnot with hscope | ⟨k, hk, hsymbol⟩
  · rw [SplitReference.groups, hscope] at hsplit
    obtain ⟨-, htail⟩ := List.cons.inj hsplit
    have hsame : [[], s.sequence] ++ [s.check] = groups ++ [[c]] := htail
    obtain ⟨rfl, -⟩ := List.append_inj' hsame rfl
    exact hgroups [] List.mem_cons_self rfl
  · have hlast : s.groups.getLast? = some s.check := by
      unfold SplitReference.groups
      split <;> rfl
    rw [hsplit, ← List.cons_append, List.getLast?_concat, hk] at hlast
    obtain ⟨rfl, -⟩ := List.cons.inj (Option.some.inj hlast)
    rw [hc] at hsymbol
    contradiction

/-- The symbols between its hyphens are its own. -/
theorem mem_of_mem_splitOn {g : Text} (hg : g ∈ reference.splitOn '-') {c : Char} (hc : c ∈ g) :
    c ∈ reference := by
  have hflat : c ∈ (reference.splitOn '-').flatten := List.mem_flatten.mpr ⟨g, hg, hc⟩
  rw [flatten_splitOn] at hflat
  exact mem_of_mem_strip hflat

/-- A canonical reference is ASCII. -/
theorem IsCanonicalReference.isAscii (h : IsCanonicalReference reference) : IsAscii reference := by
  intro c hc
  rcases h.symbols c hc with hsymbol | rfl
  · exact hsymbol.toNat_lt
  · decide

end Canonical

/-! ## splits of canonical references -/

namespace Sqlite

section Splits

variable {languages : Languages} {reference : Text}

/-- The Rust splitter. -/
theorem rustSplit_of_canonical (h : IsCanonicalReference reference) :
    Package.rust.split languages reference = splitSequentialReference reference := by
  rw [← SqlStorage.parseSequentialReference_eq]
  refine Option.ext fun parts => ?_
  rw [SqlStorage.parseSequentialReference_eq_some_iff, Package.split, Option.map_eq_some_iff]
  constructor
  · rintro ⟨⟨p, scope, sequence⟩, hsplit, rfl⟩
    obtain ⟨s, hs, rfl, rfl, rfl, rfl⟩ :=
      (Identifold.Rust.parseSequentialReference_eq_some_iff _ _ _ _).mp hsplit
    exact ⟨s, hs.strict h, rfl, rfl⟩
  · rintro ⟨s, hs, rfl, rfl⟩
    refine ⟨(s.refPrefix, s.scope.getD [], s.sequence), ?_, rfl⟩
    exact (Identifold.Rust.parseSequentialReference_eq_some_iff _ _ _ _).mpr
      ⟨s, hs.loose, rfl, rfl, rfl, rfl⟩

/-- The pattern of .NET. -/
theorem csharpSplit_of_canonical (h : IsCanonicalReference reference) :
    CSharp.splitSequentialReference reference = splitSequentialReference reference := by
  rw [CSharp.splitSequentialReference, if_neg]
  intro hlast
  rcases h.symbols _ (List.mem_of_getLast? hlast) with hsymbol | hhyphen
  · exact absurd hsymbol (by decide)
  · exact absurd hhyphen (by decide)

/-- On ASCII, the digits of Python are the decimal ones. -/
theorem all_decimal_of_isAscii {v : Text} (hv : IsAscii v) :
    (v.all fun c => (languages.decimal c).isSome) = v.all Char.isDigit := by
  have hdigit : ∀ c ∈ v, (languages.decimal c).isSome = c.isDigit := by
    intro c hc
    rw [languages.decimal_ascii c (hv c hc)]
    cases c.isDigit <;> rfl
  rw [Bool.eq_iff_iff, List.all_eq_true, List.all_eq_true]
  exact forall₂_congr fun c hc => by rw [hdigit c hc]

/-- The value of ASCII digits is their number, in any language. -/
theorem foldl_decimal_of_isDigit {v : Text} (hv : v.all Char.isDigit = true) (n : Nat) :
    v.foldl (fun n c => 10 * n + (languages.decimal c).getD 0) n = Nat.ofDigitChars 10 v n := by
  induction v generalizing n with
  | nil => rfl
  | cons c v ih =>
      obtain ⟨hc, hrest⟩ := Bool.and_eq_true_iff.mp hv
      have hvalue : (languages.decimal c).getD 0 = c.toNat - '0'.toNat := by
        rw [languages.decimal_ascii c (toNat_lt_of_isDigit hc), if_pos hc]
        rfl
      rw [List.foldl_cons, Nat.ofDigitChars_cons, hvalue, ih hrest]

/-- The pattern of Python reads an ASCII reference as the one of TypeScript does. -/
theorem pythonSplit_of_isAscii (h : IsAscii reference) :
    Python.splitSequentialReference languages reference =
      Identifold.splitSequentialReference reference := by
  have hascii : ∀ g ∈ reference.splitOn '-', IsAscii g := fun g hg c hc =>
    h c (mem_of_mem_splitOn hg hc)
  have hparts : ∀ p scope sequence check, IsAscii sequence →
      (if (isReferencePrefix p && (4 ≤ sequence.length && sequence.length ≤ 18 &&
          sequence.all fun c => (languages.decimal c).isSome) && isCheckCharacter check) = true then
        some (⟨p, scope, sequence.foldl (fun n c => 10 * n + (languages.decimal c).getD 0) 0⟩ :
          SequentialReferenceParts)
      else none) =
        if (isReferencePrefix p && isSequenceDigits sequence && isCheckCharacter check) = true then
          some ⟨p, scope, Nat.ofDigitChars 10 sequence 0⟩
        else none := by
    intro p scope sequence check hsequence
    rw [all_decimal_of_isAscii hsequence]
    refine ite_congr rfl (fun haccepted => ?_) fun _ => rfl
    have hdigits : sequence.all Char.isDigit = true := by
      simp only [Bool.and_eq_true] at haccepted
      exact (Bool.and_eq_true_iff.mp haccepted.1.2).2
    rw [foldl_decimal_of_isDigit hdigits]
  rw [Python.splitSequentialReference, Identifold.splitSequentialReference]
  generalize reference.splitOn '-' = groups at hascii
  rcases groups with _ | ⟨p, _ | ⟨q, _ | ⟨c, _ | ⟨d, _ | ⟨e, rest⟩⟩⟩⟩⟩
  · rfl
  · rfl
  · rfl
  · exact hparts p [] q c (hascii q (by simp))
  · have hscope : (decide (q.length = 4) && q.all fun c => (languages.decimal c).isSome) =
        isFourDigits q := by
      rw [all_decimal_of_isAscii (hascii q (by simp)), isFourDigits]
    have hfields := hparts p q c d (hascii c (by simp))
    simp only [hscope]
    rw [hfields]
    cases isReferencePrefix p <;> cases isFourDigits q <;> rfl
  · rfl

theorem isPrintable_of_canonical (h : IsCanonicalReference reference) :
    Identifold.Swift.IsPrintable reference := by
  have hmarks : ∀ c ∈ "*~$=".toList, ' ' ≤ c ∧ c ≤ '~' := by decide
  intro c hc
  rcases h.symbols c hc with hsymbol | rfl
  · rcases hsymbol with hupper | hdigit | hmark
    · obtain ⟨hge, hle⟩ := isUpper_iff.mp hupper
      exact ⟨UInt32.le_trans (by decide) hge, UInt32.le_trans hle (by decide)⟩
    · obtain ⟨hge, hle⟩ := Bool.and_eq_true_iff.mp hdigit
      exact ⟨UInt32.le_trans (by decide) (of_decide_eq_true hge),
        UInt32.le_trans (of_decide_eq_true hle) (by decide)⟩
    · exact hmarks c hmark
  · decide

/-- The tests of Swift, of symbols. -/
theorem acceptsFields_map (p scope sequence check : Text) :
    Swift.acceptsFields (p.map ([·])) (scope.map ([·])) (sequence.map ([·])) (check.map ([·])) =
      (isReferencePrefix p && (scope.isEmpty || isFourDigits scope) && isSequenceDigits sequence &&
        decide (check.length = 1)) := by
  simp [Swift.acceptsFields, isReferencePrefix, isFourDigits, isSequenceDigits, Bool.and_assoc,
    Function.comp_def]

/-- The splitter of Swift, between whose hyphens a canonical reference has a prefix, a number and a
check symbol, and a scope that is not empty. -/
theorem swiftSplit_of_canonical (h : IsCanonicalReference reference) :
    Swift.parseSequentialReference languages reference =
      Identifold.splitSequentialReference reference := by
  obtain ⟨p, groups, k, hsplit, hgroups, hk⟩ := h.splitOn
  have hcheck : isCheckCharacter [k] = true := by
    simpa [isCheckCharacter, isCheckSymbol] using hk
  rw [Swift.parseSequentialReference,
    languages.strings.characters_printable _ (isPrintable_of_canonical h), splitOn_map_singleton,
    Identifold.splitSequentialReference, hsplit]
  have hflatten : ∀ v : Text, (v.map ([·])).flatten = v := fun v =>
    List.flatMap_singleton' v
  rcases groups with _ | ⟨q, _ | ⟨r, _ | ⟨t, rest⟩⟩⟩
  · rfl
  · have haccepts := acceptsFields_map p [] q [k]
    simp only [List.cons_append, List.nil_append, List.map_cons, List.map_nil] at haccepts ⊢
    rw [haccepts, hcheck]
    simp only [hflatten]
    simp
  · have hne : q.isEmpty = false := List.isEmpty_eq_false_iff.mpr (hgroups q List.mem_cons_self)
    have haccepts := acceptsFields_map p q r [k]
    simp only [List.cons_append, List.nil_append, List.map_cons, List.map_nil] at haccepts ⊢
    rw [haccepts, hcheck, hne]
    simp only [hflatten]
    simp
  · cases rest <;> rfl

end Splits

/-- Every package takes a canonical reference apart in the same way. -/
theorem Package.split_of_canonical (languages : Languages) (package : Package) {reference : Text}
    (h : IsCanonicalReference reference) :
    package.split languages reference = Identifold.splitSequentialReference reference := by
  cases package with
  | python => exact pythonSplit_of_isAscii h.isAscii
  | rust => exact rustSplit_of_canonical h
  | csharp => exact csharpSplit_of_canonical h
  | swift => exact swiftSplit_of_canonical h
  | typescript | go | ruby | php | java | kotlin => rfl

/-- A text without NUL is bound as it is. -/
theorem Package.text_eq_self (package : Package) {v : Text} (h : '\x00' ∉ v) :
    package.text v = v := by
  cases package with
  | swift => exact cString_eq_self h
  | typescript | python | rust | go | ruby | php | csharp | java | kotlin => rfl

/-! ## lookups -/

section Lookups

variable {languages : Languages} {db : Database} {reference namespaceName : Text}

/-- **Lookups**: every package resolves a canonical reference as TypeScript does. -/
theorem Package.resolve_of_canonical (package : Package) (hdb : StoredState db)
    (h : IsCanonicalReference reference) (hns : '\x00' ∉ namespaceName) :
    ∃ found, lookup db reference namespaceName = .ok found ∧
      package.resolve languages db reference namespaceName = .ok found := by
  have hmapped : ∀ bytes : MachineBytes, bytes.length = 16 →
      bytesToMachineId bytes = .ok (canonicalMachineId bytes) := fun _ hlength => if_pos hlength
  rw [Package.resolve, packageResolve, package.text_eq_self (nul_not_mem_of_canonical h),
    package.text_eq_self hns, package.split_of_canonical languages h, lookup]
  dsimp only
  cases hrandom : db.references.find? fun r => decide (r.reference = reference) &&
      decide (r.namespaceName = namespaceName) with
  | some random =>
      have hfound := List.find?_some hrandom
      have hchecks := hdb.referenceChecks random (List.mem_of_find?_eq_some hrandom)
      simp only [Bool.and_eq_true, decide_eq_true_eq, ReferenceRow.sqliteChecks] at hfound hchecks
      have hlength : random.machineId.length = 16 := hchecks.1.1.1.1.1
      simp only [hmapped _ hlength, hfound.2, package.text_eq_self hns]
      exact ⟨_, rfl, rfl⟩
  | none =>
      cases Identifold.splitSequentialReference reference with
      | none => exact ⟨none, rfl, rfl⟩
      | some parts =>
          dsimp only
          cases hsequential : db.allocations.find? fun r =>
              decide (r.namespaceName = namespaceName) &&
                decide (r.ownerKey = ((parts.refPrefix, parts.scope), parts.sequence)) with
          | none => exact ⟨none, rfl, rfl⟩
          | some sequential =>
              have hfound := List.find?_some hsequential
              have hchecks :=
                hdb.allocationChecks sequential (List.mem_of_find?_eq_some hsequential)
              simp only [Bool.and_eq_true, decide_eq_true_eq,
                AllocationRow.sqliteChecks] at hfound hchecks
              simp only [hmapped _ hchecks.1, hfound.1, package.text_eq_self hns]
              exact ⟨_, rfl, rfl⟩

end Lookups

/-! ## calls -/

/-- The machine identifier of a call. -/
def Call.machineId : Call → Text
  | .reserve reservation => reservation.machineId
  | .allocate request => request.machineId

/-- A call for another machine identifier. -/
def Call.withMachineId (machineId : Text) : Call → Call
  | .reserve reservation => .reserve { reservation with machineId }
  | .allocate request => .allocate { request with machineId }

/-- The call that a package reads: the one for the canonical text of the bytes it reads the machine
identifier as. -/
def Package.asCall (languages : Languages) (package : Package) (call : Call) : Option Call :=
  match package.machineIdBytes languages call.machineId with
  | .ok bytes => some (call.withMachineId (canonicalMachineId bytes))
  | .error _ => none

/-- What TypeScript returns for an answer. -/
def Answer.outcome : Answer → Outcome
  | .reserved won => .reserved won
  | .allocated value => .allocated value

/-- A package answers as TypeScript: with the same value and the same tables, or both fail. -/
def AnswersLike (result : Except PackageError Answer) (db' : Database)
    (atomic : Outcome × Database) : Prop :=
  match result with
  | .ok answer => atomic = (answer.outcome, db')
  | .error _ => ∃ error, atomic = (.failed error, db')

section Calls

variable {languages : Languages} {package : Package} {db db' : Database} {call atomic : Call}
  {result : Except PackageError Answer}

/-- A canonical machine identifier is read as it is. -/
theorem Package.asCall_of_machineId (h : IsMachineId call.machineId) :
    package.asCall languages call = some call := by
  obtain ⟨bytes, hbytes, hvalue⟩ := machineIdToBytes_of_isMachineId h
  have hcanonical : canonicalMachineId bytes = call.machineId :=
    Except.ok.inj ((if_pos (length_of_machineIdToBytes hbytes)).symm.trans hvalue)
  rw [Package.asCall, Package.machineIdBytes_of_machineId h hbytes]
  dsimp only
  rw [hcanonical]
  cases call <;> rfl

theorem Call.NulFree.withMachineId {machineId : Text} (h : call.NulFree) :
    (call.withMachineId machineId).NulFree := by
  cases call <;> exact h

/-- A package issues the call without NUL. -/
theorem Package.nulFree_of_asCall (hnul : call.NulFree)
    (h : package.asCall languages call = some atomic) : atomic.NulFree := by
  rw [Package.asCall] at h
  split at h
  · rw [← Option.some.inj h]
    exact hnul.withMachineId
  · contradiction

/-- A call that fails leaves the tables as they were. -/
theorem exec_of_failed {error : IdentifoldError} (h : Sqlite.exec db call = (.failed error, db')) :
    db' = db := by
  cases call with
  | reserve reservation =>
      rw [Sqlite.exec] at h
      split at h
      · exact absurd (Prod.mk.inj h).1 (by simp)
      · exact (Prod.mk.inj h).2.symm
  | allocate request =>
      rw [Sqlite.exec] at h
      split at h
      · exact absurd (Prod.mk.inj h).1 (by simp)
      · exact (Prod.mk.inj h).2.symm

/-- Reservations: the packages insert the row that TypeScript inserts. -/
theorem Package.reserve_toOption {reservation : ReferenceReservation} {machineId : MachineBytes}
    (hnul : (Call.reserve reservation).NulFree)
    (hbytes : package.machineIdBytes languages reservation.machineId = .ok machineId) :
    (package.reserve languages db reservation).toOption =
      (Sqlite.reserve db
        { reservation with machineId := canonicalMachineId machineId }).toOption := by
  have hcanonical := machineIdToBytes_canonicalMachineId (Package.length_machineIdBytes hbytes)
  rw [Package.reserve, packageReserve, hbytes, package.text_eq_self hnul.1,
    package.text_eq_self hnul.2, Sqlite.reserve, hcanonical]
  simp only [toOption_bind, toOption_mapError, ok_bind]
  rfl

/-- A reservation without NUL is answered as TypeScript answers it. -/
theorem answersLike_reserve {reservation : ReferenceReservation} {machineId : MachineBytes}
    (hnul : (Call.reserve reservation).NulFree)
    (hbytes : package.machineIdBytes languages reservation.machineId = .ok machineId)
    (h : package.exec languages db (.reserve reservation) = some (result, db')) :
    AnswersLike result db' (Sqlite.exec db
      (.reserve { reservation with machineId := canonicalMachineId machineId })) := by
  have hsame := @Package.reserve_toOption languages package db _ _ hnul hbytes
  rw [Package.exec] at h
  rw [Sqlite.exec]
  cases hatomic : Sqlite.reserve db
      { reservation with machineId := canonicalMachineId machineId } with
  | ok answer =>
      rw [hatomic] at hsame
      rw [toOption_eq_some_iff.mp hsame] at h
      obtain ⟨rfl, rfl⟩ := Prod.mk.inj (Option.some.inj h)
      rfl
  | error e =>
      rw [hatomic] at hsame
      cases hreserve : package.reserve languages db reservation with
      | ok answer =>
          rw [hreserve] at hsame
          contradiction
      | error error =>
          rw [hreserve] at h
          obtain ⟨rfl, rfl⟩ := Prod.mk.inj (Option.some.inj h)
          exact ⟨e, rfl⟩

/-- So is an allocation, over prefixes without NUL. -/
theorem answersLike_allocate {request : Identifold.SequenceAllocationRequest}
    {machineId : MachineBytes}
    (hstored : StoredState db) (hdb : PrefixesNulFree db) (hnul : (Call.allocate request).NulFree)
    (hbytes : package.machineIdBytes languages request.machineId = .ok machineId)
    (h : package.exec languages db (.allocate request) = some (result, db')) :
    AnswersLike result db' (Sqlite.exec db
      (.allocate { request with machineId := canonicalMachineId machineId })) := by
  rw [Package.exec] at h
  obtain ⟨⟨outcome, after⟩, hallocate, hresult⟩ := Option.map_eq_some_iff.mp h
  obtain ⟨rfl, rfl⟩ := Prod.mk.inj hresult
  have hanswers := Package.allocate_answersAs hstored hdb hnul hbytes hallocate
  rw [Sqlite.exec]
  cases hatomic : Sqlite.allocate db
      { request with machineId := canonicalMachineId machineId } with
  | ok answer =>
      rw [hatomic] at hanswers
      obtain ⟨rfl, rfl⟩ := Prod.mk.inj hanswers
      rfl
  | error e =>
      rw [hatomic] at hanswers
      obtain ⟨⟨error, rfl⟩, rfl⟩ := hanswers
      exact ⟨e, rfl⟩

/-- **Calls**: a call is answered as the call that is read; where none is read it fails and leaves
the tables as they were. -/
theorem Package.exec_spec (hstored : StoredState db) (hdb : PrefixesNulFree db)
    (hnul : call.NulFree)
    (h : package.exec languages db call = some (result, db')) :
    match package.asCall languages call with
    | some atomic => AnswersLike result db' (Sqlite.exec db atomic)
    | none => (∃ error, result = .error error) ∧ db' = db := by
  rw [Package.asCall]
  cases hbytes : package.machineIdBytes languages call.machineId with
  | ok machineId =>
      cases call with
      | reserve reservation => exact answersLike_reserve hnul hbytes h
      | allocate request => exact answersLike_allocate hstored hdb hnul hbytes h
  | error error =>
      cases call with
      | reserve reservation =>
          rw [Package.exec, Package.reserve, packageReserve, show package.machineIdBytes languages
            reservation.machineId = .error error from hbytes] at h
          obtain ⟨rfl, rfl⟩ := Prod.mk.inj (Option.some.inj h)
          exact ⟨⟨error, rfl⟩, rfl⟩
      | allocate request =>
          rw [Package.exec] at h
          obtain ⟨⟨outcome, after⟩, hallocate, hresult⟩ := Option.map_eq_some_iff.mp h
          obtain ⟨rfl, rfl⟩ := Prod.mk.inj hresult
          obtain ⟨⟨thrown, hthrown⟩, hafter⟩ := Package.allocate_failsOn hbytes hallocate
          exact ⟨⟨thrown, by rw [show outcome = .error thrown from hthrown]; rfl⟩, hafter⟩

end Calls

/-! ## runs -/

/-- A call of a package on the shared database, with its result. -/
structure PackageEvent where
  package : Package
  call : Call
  result : Except PackageError Answer

/-- One call after the other, from one committed database to the next. -/
def shared (languages : Languages) (db : Database) (e : PackageEvent) (db' : Database) : Prop :=
  e.package.exec languages db e.call = some (e.result, db')

/-- The call of TypeScript that a call which succeeds settles. -/
def PackageEvent.settled (languages : Languages) (e : PackageEvent) : Option (Call × Outcome) :=
  match e.result with
  | .ok answer => (e.package.asCall languages e.call).map fun call => (call, answer.outcome)
  | .error _ => none

section Runs

variable {languages : Languages} {db db' : Database} {events : List PackageEvent} {e : PackageEvent}

/-- Step lemma: a call leaves no trace, or it is the step of TypeScript that it settles. -/
theorem shared_cases (hstored : StoredState db) (hdb : PrefixesNulFree db) (hnul : e.call.NulFree)
    (h : shared languages db e db') :
    (e.settled languages = none ∧ db' = db) ∨
      ∃ event, e.settled languages = some event ∧ event.1.NulFree ∧
        ofService Sqlite.exec db event db' := by
  obtain ⟨package, call, result⟩ := e
  have hspec := Package.exec_spec hstored hdb hnul h
  rw [PackageEvent.settled]
  cases hcall : package.asCall languages call with
  | none =>
      rw [hcall] at hspec
      obtain ⟨⟨error, rfl⟩, rfl⟩ := hspec
      exact .inl ⟨rfl, rfl⟩
  | some atomic =>
      rw [hcall] at hspec
      cases result with
      | ok answer =>
          refine .inr ⟨(atomic, answer.outcome), rfl, ?_, hspec⟩
          exact Package.nulFree_of_asCall hnul hcall
      | error error =>
          obtain ⟨failure, hfailed⟩ := hspec
          exact .inl ⟨rfl, exec_of_failed hfailed⟩

/-- Run lemma: the calls that succeed are a run of TypeScript to the same tables. -/
theorem run_settled (hrun : Run (shared languages) Database.empty events db)
    (hnul : ∀ e ∈ events, e.call.NulFree) :
    Run (ofService Sqlite.exec) Database.empty (events.filterMap (·.settled languages)) db ∧
      PrefixesNulFree db := by
  induction hrun with
  | nil => exact ⟨.nil _, prefixesNulFree_empty⟩
  | snoc hrun hstep ih =>
      obtain ⟨hatomic, hdb⟩ := ih fun e he => hnul e (List.mem_append_left _ he)
      have hcall := hnul _ (List.mem_append_right _ (List.mem_singleton_self _))
      rw [List.filterMap_append]
      rcases shared_cases (run_storedState hatomic) hdb hcall hstep with ⟨hnone, rfl⟩ |
        ⟨event, hsome, hevent, hexec⟩
      · rw [List.filterMap_cons_none hnone, List.filterMap_nil, List.append_nil]
        exact ⟨hatomic, hdb⟩
      · rw [List.filterMap_cons_some hsome, List.filterMap_nil]
        exact ⟨hatomic.snoc hexec, hdb.exec hevent hexec⟩

end Runs

theorem length_of_toOption_machineIdToBytes (v : Text) (bytes : MachineBytes)
    (h : (machineIdToBytes v).toOption = some bytes) : bytes.length = 16 :=
  length_of_machineIdToBytes (toOption_eq_some_iff.mp h)

theorem toOption_machineIdToBytes_of_machineId (v : Text) (bytes : MachineBytes) (_ : IsMachineId v)
    (h : machineIdToBytes v = .ok bytes) : (machineIdToBytes v).toOption = some bytes :=
  toOption_eq_some_iff.mpr h

/-- A reader of the UUIDs that TypeScript reads. -/
def hexadecimalUuids : UuidParser where
  parse v := (machineIdToBytes v).toOption
  length_parse := length_of_toOption_machineIdToBytes
  parse_machineId := toOption_machineIdToBytes_of_machineId

/-- Languages that only know ASCII. -/
def asciiLanguages : Languages where
  pythonUuid := hexadecimalUuids
  uuidFromString := hexadecimalUuids
  guidParse := hexadecimalUuids
  decimal c := if c.isDigit then some (decimalValue c) else none
  decimal_ascii _ _ := rfl
  strings := Identifold.Swift.asciiStrings

/-- The tables after one invoice, which Rust has numbered. -/
def oneInvoice : Database :=
  ⟨[], [⟨"invoice".toList, "2026".toList, "INV".toList, 6, 1⟩],
    [⟨"invoice".toList, "2026".toList, 1, 1 :: 159 :: 0 :: 0 :: 0 :: 0 :: 112 :: 0 :: 128 ::
      List.replicate 6 0 ++ [1], "INV".toList, 6⟩]⟩

/-- Rust numbers an invoice, Python and Java return its number, and Swift does not read a machine
identifier that TypeScript does not read. -/
def mixedEvents : List PackageEvent :=
  [⟨.rust, invoiceAllocation 6, .ok (.allocated 1)⟩,
    ⟨.python, invoiceAllocation 6, .ok (.allocated 1)⟩,
    ⟨.java, invoiceAllocation 6, .ok (.allocated 1)⟩,
    ⟨.swift, (invoiceAllocation 6).withMachineId [], .error (.identifold .invalidMid)⟩]

theorem run_mixedEvents : Run (shared asciiLanguages) Database.empty mixedEvents oneInvoice := by
  have hrust : shared asciiLanguages Database.empty
      ⟨.rust, invoiceAllocation 6, .ok (.allocated 1)⟩ oneInvoice := by rfl
  have hpython : shared asciiLanguages oneInvoice
      ⟨.python, invoiceAllocation 6, .ok (.allocated 1)⟩ oneInvoice := by rfl
  have hjava : shared asciiLanguages oneInvoice
      ⟨.java, invoiceAllocation 6, .ok (.allocated 1)⟩ oneInvoice := by rfl
  have hswift : shared asciiLanguages oneInvoice
      ⟨.swift, (invoiceAllocation 6).withMachineId [], .error (.identifold .invalidMid)⟩
        oneInvoice := by rfl
  exact ((((Run.nil _).snoc hrust).snoc hpython).snoc hjava).snoc hswift

end Sqlite

end Identifold
