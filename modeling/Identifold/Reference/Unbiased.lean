import Identifold.Lib.Fibres
import Identifold.Reference.Roundtrip

/-!
# Identifold.Reference.Unbiased

`createReferenceCandidate` draws its references without bias: every payload of
a random namespace comes from as many byte strings, and every payload has its
own reference.

A byte selects the symbol of its low five bits, so every symbol is selected by
eight bytes; the count of the strings is that of their positions
(`Identifold.Lib.Fibres`).
-/

namespace Identifold

open RegisteredReferenceDefinition

/-! ## one byte -/

/-- The symbol that a byte selects. -/
def byteSymbol (byte : UInt8) : Char := (dataAlphabet[byte.toNat % 32]?).getD '0'

theorem payloadOfBytes_eq_map (bytes : List UInt8) : payloadOfBytes bytes = bytes.map byteSymbol := by
  induction bytes with
  | nil => rfl
  | cons byte bytes ih =>
      obtain ⟨c, -, hc, hget⟩ := charAt_byte byte
      rw [payloadOfBytes_cons, hc, ih, List.map_cons, byteSymbol, hget]
      rfl

theorem byteSymbol_eq_iff {byte : UInt8} {c : Char} (hc : c ∈ dataAlphabet) :
    byteSymbol byte = c ↔ byte.toNat % 32 = dataAlphabet.idxOf c := by
  have hlt : byte.toNat % 32 < dataAlphabet.length := Nat.mod_lt _ (by decide)
  have hnodup : dataAlphabet.Nodup := by decide
  rw [byteSymbol, List.getElem?_eq_getElem hlt, Option.getD_some]
  constructor
  · rintro rfl
    exact (hnodup.idxOf_getElem _ hlt).symm
  · intro h
    simp only [h]
    exact List.getElem_idxOf (h ▸ hlt)

/-- **Eight bytes** select each symbol. -/
theorem ncard_byteSymbol {c : Char} (hc : c ∈ dataAlphabet) : {byte | byteSymbol byte = c}.ncard = 8 := by
  have hidx : dataAlphabet.idxOf c < 32 := List.idxOf_lt_length_of_mem hc
  -- the bytes above the symbol's index, in steps of 32
  have heq : {byte | byteSymbol byte = c} =
      (fun k : Nat => UInt8.ofNat (32 * k + dataAlphabet.idxOf c)) '' {k | k < 8} := by
    ext byte
    have hbyte := byte.toNat_lt
    simp only [Set.mem_ofPred_eq, byteSymbol_eq_iff hc, Set.mem_image]
    constructor
    · intro h
      refine ⟨byte.toNat / 32, by omega, ?_⟩
      rw [← h, Nat.div_add_mod, UInt8.ofNat_toNat]
    · rintro ⟨k, hk, rfl⟩
      rw [UInt8.toNat_ofNat']
      omega
  have hinj : Set.InjOn (fun k : Nat => UInt8.ofNat (32 * k + dataAlphabet.idxOf c)) {k | k < 8} := by
    intro j hj k hk h
    have hnat := congrArg UInt8.toNat h
    simp only [UInt8.toNat_ofNat', Set.mem_ofPred_eq] at hnat hj hk
    omega
  rw [heq, hinj.ncard_image]
  exact Set.ncard_eq_of_bijective (fun i _ => i) (fun k hk => ⟨k, hk, rfl⟩) (fun i hi => hi)
    fun i j _ _ h => h

/-! ## byte strings -/

/-- The byte strings of length `n`. -/
def byteStrings (n : Nat) : Set (List UInt8) := {bytes | bytes.length = n}

/-- The payloads of `n` symbols. -/
def payloads (n : Nat) : Set Text := {payload | payload.length = n ∧ ∀ c ∈ payload, c ∈ dataAlphabet}

theorem ncard_byteStrings (n : Nat) : (byteStrings n).ncard = 256 ^ n := by
  have hbytes : (Set.univ : Set UInt8).ncard = 256 :=
    Set.ncard_eq_of_bijective (fun i _ => UInt8.ofNat i)
      (fun byte _ => ⟨byte.toNat, byte.toNat_lt, UInt8.ofNat_toNat⟩) (fun _ _ => trivial)
      fun i j hi hj h => by
        have hnat := congrArg UInt8.toNat h
        simp only [UInt8.toNat_ofNat'] at hnat
        omega
  have hcount := Fibres.ncard_lists (Set.univ : Set UInt8) n
  simpa [byteStrings, hbytes] using hcount

theorem ncard_payloads (n : Nat) : (payloads n).ncard = 32 ^ n := by
  have hsymbols : {c | c ∈ dataAlphabet}.ncard = 32 := by
    have hfinset : {c | c ∈ dataAlphabet} = (dataAlphabet.toFinset : Set Char) := by
      ext c
      simp
    rw [hfinset, Set.ncard_coe_finset, List.toFinset_card_of_nodup (by decide)]
    rfl
  rw [← hsymbols]
  exact Fibres.ncard_lists {c | c ∈ dataAlphabet} n

/-- Each payload comes from `8 ^ n` byte strings. -/
theorem ncard_payloadOfBytes {n : Nat} {payload : Text} (h : payload ∈ payloads n) :
    {bytes ∈ byteStrings n | payloadOfBytes bytes = payload}.ncard = 8 ^ n := by
  have heq : {bytes ∈ byteStrings n | payloadOfBytes bytes = payload} =
      {bytes | bytes.map byteSymbol = payload} := by
    ext bytes
    rw [Set.mem_ofPred_eq, Set.mem_ofPred_eq, payloadOfBytes_eq_map, and_iff_right_iff_imp]
    rintro rfl
    exact (List.length_map byteSymbol).symm.trans h.1
  rw [heq, Fibres.ncard_map_fibre fun c hc => ncard_byteSymbol (h.2 c hc), h.1]

/-- Every payload is selected by some bytes. -/
theorem exists_payloadOfBytes {n : Nat} {payload : Text} (h : payload ∈ payloads n) :
    ∃ bytes ∈ byteStrings n, payloadOfBytes bytes = payload := by
  have hcard := ncard_payloadOfBytes h
  have hpos : 0 < {bytes ∈ byteStrings n | payloadOfBytes bytes = payload}.ncard :=
    hcard ▸ Nat.pow_pos (by decide)
  obtain ⟨bytes, hbytes, hpayload⟩ := Set.nonempty_of_ncard_ne_zero hpos.ne'
  exact ⟨bytes, hbytes, hpayload⟩

/-! ## references -/

section References

variable {registry : NamespaceRegistry} {d : RegisteredNamespaceDefinition}
  {r : RegisteredRandomReferenceDefinition}

/-- The reference of a payload. -/
def referenceOf (r : RegisteredRandomReferenceDefinition) (payload : Text) : Text :=
  formatReference r.refPrefix payload (referenceCheckSymbol payload)

/-- The candidates that `createReferenceCandidate` can return for a namespace. -/
def candidates (registry : NamespaceRegistry) (namespaceName : Text) (n : Nat) : Set Text :=
  {s | ∃ bytes ∈ byteStrings n, createReferenceCandidate registry namespaceName (fun _ => bytes) = .ok s}

/-- **Candidates** are the references of the payloads that the bytes select. -/
theorem createReferenceCandidate_referenceOf (hd : d ∈ registry.definitions)
    (hr : d.reference = some (.random r)) {bytes : List UInt8} (hlen : bytes.length = r.payloadLength) :
    createReferenceCandidate registry d.publicPrefix (fun _ => bytes) =
      .ok (referenceOf r (payloadOfBytes bytes)) := by
  have hpayload : (random r).IsPayload (payloadOfBytes bytes) :=
    ⟨by rw [length_payloadOfBytes, hlen], fun c hc => mem_payloadOfBytes hc⟩
  rw [referenceOf, formatReference_eq_canonical r hpayload]
  exact createReferenceCandidate_ok_iff.mpr ⟨d, hd, rfl, r, hr, hlen, rfl⟩

/-- Different payloads have different references. -/
theorem referenceOf_injOn (hd : d ∈ registry.definitions) (hr : d.reference = some (.random r)) :
    Set.InjOn (referenceOf r) (payloads r.payloadLength) := by
  intro p hp q hq h
  rw [referenceOf, referenceOf, formatReference_eq_canonical r hp, formatReference_eq_canonical r hq] at h
  have hparse : parseReference ((random r).canonical p) registry =
      .ok ((random r).parsed d.publicPrefix p) := parseReference_canonical hd hr hp
  have hparse' : parseReference ((random r).canonical q) registry =
      .ok ((random r).parsed d.publicPrefix q) := parseReference_canonical hd hr hq
  rw [h, hparse'] at hparse
  exact (congrArg ParsedReference.payload (Except.ok.inj hparse)).symm

theorem candidates_eq_image (hd : d ∈ registry.definitions) (hr : d.reference = some (.random r)) :
    candidates registry d.publicPrefix r.payloadLength = referenceOf r '' payloads r.payloadLength := by
  ext s
  constructor
  · rintro ⟨bytes, hlen, hs⟩
    rw [createReferenceCandidate_referenceOf hd hr hlen, Except.ok.injEq] at hs
    exact ⟨payloadOfBytes bytes, ⟨by rw [length_payloadOfBytes, hlen],
      fun c hc => mem_payloadOfBytes hc⟩, hs⟩
  · rintro ⟨payload, hpayload, rfl⟩
    obtain ⟨bytes, hlen, rfl⟩ := exists_payloadOfBytes hpayload
    exact ⟨bytes, hlen, createReferenceCandidate_referenceOf hd hr hlen⟩

/-- **No bias**: of the `256 ^ n` byte strings, `8 ^ n` select each of the
`32 ^ n` payloads, different payloads have different references, and so each of
the `32 ^ n` candidates is returned for `8 ^ n` byte strings. -/
theorem candidates_unbiased (hd : d ∈ registry.definitions) (hr : d.reference = some (.random r)) :
    (byteStrings r.payloadLength).ncard = 256 ^ r.payloadLength ∧
    (payloads r.payloadLength).ncard = 32 ^ r.payloadLength ∧
    (∀ payload ∈ payloads r.payloadLength,
      {bytes ∈ byteStrings r.payloadLength | payloadOfBytes bytes = payload}.ncard =
        8 ^ r.payloadLength) ∧
    (∀ bytes ∈ byteStrings r.payloadLength, payloadOfBytes bytes ∈ payloads r.payloadLength ∧
      createReferenceCandidate registry d.publicPrefix (fun _ => bytes) =
        .ok (referenceOf r (payloadOfBytes bytes))) ∧
    Set.InjOn (referenceOf r) (payloads r.payloadLength) ∧
    (candidates registry d.publicPrefix r.payloadLength).ncard = 32 ^ r.payloadLength ∧
    ∀ s ∈ candidates registry d.publicPrefix r.payloadLength,
      {bytes ∈ byteStrings r.payloadLength |
        createReferenceCandidate registry d.publicPrefix (fun _ => bytes) = .ok s}.ncard =
          8 ^ r.payloadLength := by
  have hinj := referenceOf_injOn hd hr
  have hselects : ∀ bytes ∈ byteStrings r.payloadLength,
      payloadOfBytes bytes ∈ payloads r.payloadLength := fun bytes hlen =>
    ⟨by rw [length_payloadOfBytes, hlen], fun c hc => mem_payloadOfBytes hc⟩
  refine ⟨ncard_byteStrings _, ncard_payloads _, fun payload => ncard_payloadOfBytes,
    fun bytes hlen => ⟨hselects bytes hlen, createReferenceCandidate_referenceOf hd hr hlen⟩, hinj, ?_, ?_⟩
  · rw [candidates_eq_image hd hr, hinj.ncard_image, ncard_payloads]
  · intro s hs
    rw [candidates_eq_image hd hr] at hs
    obtain ⟨payload, hpayload, rfl⟩ := hs
    rw [← ncard_payloadOfBytes hpayload]
    congr 1
    ext bytes
    rw [Set.mem_ofPred_eq, Set.mem_ofPred_eq, and_congr_right_iff]
    intro hlen
    rw [createReferenceCandidate_referenceOf hd hr hlen, Except.ok.injEq]
    exact ⟨fun h => hinj (hselects bytes hlen) hpayload h, fun h => by rw [h]⟩

end References

/-- The orders of the package's tests have `32 ^ 10` references, each from
`8 ^ 10` byte strings. -/
theorem candidates_unbiased_order :
    (candidates sampleRegistry "order".toList 10).ncard = 32 ^ 10 ∧
      ∀ s ∈ candidates sampleRegistry "order".toList 10,
        {bytes ∈ byteStrings 10 |
          createReferenceCandidate sampleRegistry "order".toList (fun _ => bytes) = .ok s}.ncard =
            8 ^ 10 := by
  have hd : orderDefinition ∈ sampleRegistry.definitions := List.mem_cons_self
  have h := candidates_unbiased (r := orderReference) hd rfl
  exact h.2.2.2.2.2

end Identifold
