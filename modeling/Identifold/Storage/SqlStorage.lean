import Identifold.HexBytes
import Identifold.Reference.Roundtrip

/-!
# Identifold.Storage.SqlStorage

What the SQL adapters share: the requests they are given
(`packages/typescript/src/service.ts`), the byte form of machine identifiers,
and the pattern that splits a sequential reference into the columns it is
stored under (`packages/typescript/src/sql-storage.ts`).
-/

namespace Identifold

open Separated

/-! ## requests -/

/-- `ReferenceReservation`. -/
structure ReferenceReservation where
  machineId : Text
  namespaceName : Text
  reference : Text
  deriving DecidableEq, Repr

/-- `SequenceAllocationRequest`. -/
structure SequenceAllocationRequest where
  machineId : Text
  namespaceName : Text
  refPrefix : Text
  scope : Option Text
  width : JsNumber
  deriving DecidableEq, Repr

/-- `ReferenceLookupResult`. -/
structure ReferenceLookupResult where
  machineId : Text
  namespaceName : Text
  deriving DecidableEq, Repr

/-! ## columns -/

/-- What a driver reads a column of a row as. -/
inductive SqlValue
  | boolean (value : Bool)
  | bigint (value : Int)
  | number (value : JsNumber)
  | string (value : Text)
  | other
  deriving DecidableEq, Repr

/-- The three readings of a number that the adapters take: a `bigint`, a safe integer, and a text
of digits. -/
def SqlValue.sequence? : SqlValue → Option Int
  | .bigint value => some value
  | .number (.integer value) => if value.natAbs ≤ 2 ^ 53 - 1 then some value else none
  | .string value =>
      if value ≠ [] ∧ value.all Char.isDigit = true then some (Nat.ofDigitChars 10 value 0 : Nat)
      else none
  | _ => none

/-- The digits of a number are read back. -/
theorem sequence?_toDigits (n : Nat) : (SqlValue.string (Nat.toDigits 10 n)).sequence? = some (n : Int) := by
  have hdigits : Nat.toDigits 10 n ≠ [] ∧ (Nat.toDigits 10 n).all Char.isDigit = true := by
    refine ⟨Nat.toDigits_ne_nil, List.all_eq_true.mpr fun c hc => ?_⟩
    exact Nat.isDigit_of_mem_toDigits (by decide) (by decide) hc
  rw [SqlValue.sequence?, if_pos hdigits, Nat.ofDigitChars_ten_toDigits]

/-! ## conversions -/

/-- `machineIdToBytes`. -/
def machineIdToBytes (machineId : Text) : Except IdentifoldError (List UInt8) :=
  let hex := strip '-' machineId
  if hex.length = 32 ∧ ∀ c ∈ hex, isHexDigit c = true then .ok ((hexDecode hex).getD [])
  else .error ⟨.invalidMid, "Machine identifier is invalid"⟩

/-- `bytesToMachineId`. -/
def bytesToMachineId (bytes : List UInt8) : Except IdentifoldError Text :=
  if bytes.length = 16 then .ok (formatUuid (hexEncode bytes))
  else .error ⟨.allocationConflict, "Stored machine identifier is invalid"⟩

/-- `SequentialReferenceParts`. -/
structure SequentialReferenceParts where
  refPrefix : Text
  scope : Text
  sequence : Nat
  deriving DecidableEq, Repr

/-- `\d{4,18}`. -/
def isSequenceDigits (v : Text) : Bool := 4 ≤ v.length && v.length ≤ 18 && v.all Char.isDigit

/-- `[0-9A-Z*~$=U]`. -/
def isCheckCharacter (v : Text) : Bool :=
  v.length = 1 && v.all fun c => c.isDigit || c.isUpper || c ∈ "*~$=".toList

/-- `parseSequentialReference` of the SQL adapters:
`/^([A-Z]{2,8})-(?:(\d{4})-)?(\d{4,18})-[0-9A-Z*~$=U]$/`.  No class of the
pattern contains the hyphen, so the pattern reads the text between hyphens. -/
def splitSequentialReference (reference : Text) : Option SequentialReferenceParts :=
  match reference.splitOn '-' with
  | [refPrefix, sequence, check] =>
      if isReferencePrefix refPrefix && isSequenceDigits sequence && isCheckCharacter check then
        some ⟨refPrefix, [], Nat.ofDigitChars 10 sequence 0⟩
      else none
  | [refPrefix, scope, sequence, check] =>
      if isReferencePrefix refPrefix && isFourDigits scope && isSequenceDigits sequence &&
          isCheckCharacter check then
        some ⟨refPrefix, scope, Nat.ofDigitChars 10 sequence 0⟩
      else none
  | _ => none

/-! ## byte forms -/

/-- Canonical machine identifiers are stored as 16 bytes, and read back. -/
theorem machineIdToBytes_of_isMachineId {v : Text} (h : IsMachineId v) :
    ∃ bytes, machineIdToBytes v = .ok bytes ∧ bytesToMachineId bytes = .ok v := by
  obtain ⟨hex, ⟨hhex, -, -⟩, rfl⟩ := h
  obtain ⟨bytes, hdecode, -, hencode⟩ := hexDecode_of_hex hhex.2 (by rw [hhex.1])
  have hdigits : ∀ c ∈ hex, isHexDigit c = true := fun c hc =>
    isHexDigit_of_mem_hexAlphabet (hhex.2 c hc)
  have hlen : bytes.length = 16 := by
    have h32 := congrArg List.length hencode
    rw [length_hexEncode, hhex.1] at h32
    omega
  refine ⟨bytes, ?_, ?_⟩
  · rw [machineIdToBytes, strip_formatUuid hhex, if_pos ⟨hhex.1, hdigits⟩, hdecode]
    rfl
  · rw [bytesToMachineId, if_pos hlen, hencode]

/-- Bytes that are read as a machine identifier are the ones it is stored as. -/
theorem machineIdToBytes_of_bytesToMachineId {bytes : List UInt8} {v : Text}
    (h : bytesToMachineId bytes = .ok v) : machineIdToBytes v = .ok bytes := by
  unfold bytesToMachineId at h
  split at h
  · rename_i hlen
    have hhex := isHex32_hexEncode hlen
    rw [← Except.ok.inj h, machineIdToBytes, strip_formatUuid hhex,
      if_pos ⟨hhex.1, fun c hc => isHexDigit_of_mem_hexAlphabet (hhex.2 c hc)⟩, hexDecode_hexEncode]
    rfl
  · contradiction

/-- A machine identifier is stored as 16 bytes. -/
theorem length_of_machineIdToBytes {v : Text} {bytes : List UInt8}
    (h : machineIdToBytes v = .ok bytes) : bytes.length = 16 := by
  simp only [machineIdToBytes] at h
  split at h
  · rename_i hhex
    obtain ⟨bytes', hdecode, hlength⟩ := hexDecode_of_isHexDigit hhex.2 (by rw [hhex.1])
    rw [← Except.ok.inj h, hdecode, Option.getD_some]
    omega
  · contradiction

/-! ## stored sequential references -/

/-- The check symbol of a sequential payload passes the pattern. -/
theorem isCheckCharacter_sequentialCheckSymbol (payload : Text) :
    isCheckCharacter (sequentialCheckSymbol payload) = true ∧ '-' ∉ sequentialCheckSymbol payload := by
  obtain ⟨c, hmem, hc⟩ := charAt_checkAlphabet (Radix.value 10 (payload.map decimalValue))
  have hall : ∀ c ∈ checkAlphabet, isCheckCharacter [c] = true ∧ '-' ∉ [c] := by decide
  rw [sequentialCheckSymbol, hc]
  exact hall c hmem

/-- The storage pattern splits what `formatSequentialParts` writes into its
parts. -/
theorem splitSequentialReference_formatSequentialParts {refPrefix sequence checkSymbol : Text}
    {scope : Option Text} (hpre : isReferencePrefix refPrefix = true)
    (hscope : ∀ year ∈ scope, isFourDigits year = true) (hsequence : isSequenceDigits sequence = true)
    (hcheck : isCheckCharacter checkSymbol = true ∧ '-' ∉ checkSymbol) :
    splitSequentialReference (formatSequentialParts refPrefix sequence checkSymbol scope) =
      some ⟨refPrefix, scope.getD [], Nat.ofDigitChars 10 sequence 0⟩ := by
  have hhyphen : ∀ {v : Text}, (∀ c ∈ v, c.isDigit = true) → '-' ∉ v := fun h hmem =>
    absurd (h '-' hmem) (by decide)
  have hdigits : '-' ∉ sequence := by
    simp only [isSequenceDigits, Bool.and_eq_true, List.all_eq_true] at hsequence
    exact hhyphen hsequence.2
  cases scope with
  | none =>
      have hgroups : (formatSequentialParts refPrefix sequence checkSymbol none).splitOn '-' =
          [refPrefix, sequence, checkSymbol] := by
        have hjoin : formatSequentialParts refPrefix sequence checkSymbol none =
            join '-' [refPrefix, sequence, checkSymbol] := by simp [formatSequentialParts, join]
        rw [hjoin]
        refine splitOn_join ?_ (by simp)
        simpa [hdigits, hcheck.2] using hyphen_not_mem_refPrefix hpre
      simp only [splitSequentialReference, Option.getD_none, hgroups, hpre, hsequence, hcheck.1,
        Bool.and_self, if_true]
  | some year =>
      have hyear : isFourDigits year = true := hscope year rfl
      have hfour : '-' ∉ year := by
        simp only [isFourDigits, Bool.and_eq_true, List.all_eq_true] at hyear
        exact hhyphen hyear.2
      have hgroups : (formatSequentialParts refPrefix sequence checkSymbol (some year)).splitOn '-' =
          [refPrefix, year, sequence, checkSymbol] := by
        have hjoin : formatSequentialParts refPrefix sequence checkSymbol (some year) =
            join '-' [refPrefix, year, sequence, checkSymbol] := by simp [formatSequentialParts, join]
        rw [hjoin]
        refine splitOn_join ?_ (by simp)
        simpa [hfour, hdigits, hcheck.2] using hyphen_not_mem_refPrefix hpre
      simp only [splitSequentialReference, Option.getD_some, hgroups, hpre, hyear, hsequence,
        hcheck.1, Bool.and_self, if_true]

/-- Digits padded to a width that the pattern admits. -/
theorem isSequenceDigits_padStart {width n : Nat} (hwidth : 4 ≤ width ∧ width ≤ 18)
    (hn : n < 10 ^ width) : isSequenceDigits (padStart width (Nat.toDigits 10 n)) = true := by
  have hlen : (padStart width (Nat.toDigits 10 n)).length = width :=
    length_padStart (by omega) hn
  simp only [isSequenceDigits, hlen, Bool.and_eq_true, decide_eq_true_eq, List.all_eq_true]
  exact ⟨hwidth, fun c hc => isDigit_of_mem_padStart hc⟩

/-- The storage pattern splits a formatted sequence into its prefix, its scope
and its number. -/
theorem splitSequentialReference_format {registry : NamespaceRegistry} {namespaceName s : Text}
    {n : Int} {scope : Option Text}
    (h : formatSequentialReference registry namespaceName n scope = .ok s) :
    ∃ d ∈ registry.definitions, d.publicPrefix = namespaceName ∧
      ∃ r, d.reference = some (.sequence r) ∧ r.AdmitsScope scope ∧
        splitSequentialReference s = some ⟨r.refPrefix, scope.getD [], n.toNat⟩ := by
  obtain ⟨d, hd, hp, r, hr, -, hn, hscope, rfl⟩ := formatSequentialReference_ok_iff.mp h
  refine ⟨d, hd, hp, r, hr, hscope, ?_⟩
  obtain ⟨hpayload, hsc, hseq⟩ := sequentialPayload_facts r hscope hn
  have hyear : ∀ year ∈ scope, isFourDigits year = true := by
    intro year hmem
    rw [Option.mem_def.mp hmem] at hscope
    exact hscope.2
  rw [← formatSequentialParts_eq_canonical r hpayload hseq, hsc,
    RegisteredSequentialReferenceDefinition.sequenceDigits,
    splitSequentialReference_formatSequentialParts r.refPrefix_valid hyear
      (isSequenceDigits_padStart r.width_valid hn) (isCheckCharacter_sequentialCheckSymbol _),
    ofDigitChars_padStart]

end Identifold
