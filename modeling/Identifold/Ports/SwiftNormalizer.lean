import Identifold.Ports.NormalizerAgreement

/-!
# Identifold.Ports.SwiftNormalizer

`normalize` of the Swift port on printable texts, whose characters are their symbols:
it is the plain one.

* `contains_eq_false_iff`, `length_takeWhile_isLetter`, `flatten_drop_characters`
  — characters of printable text;
* `readBody_eq`, `formatSequentialReference_eq` — the parts of a reference;
* `parseMachineID_eq`, `parsePublicID_eq` — the identifier parsers.
-/

namespace Identifold.Swift

open Separated

variable {strings : TextLibrary} {registry : List PortNamespaceDefinition} {v : Text}

/-! ## characters -/

/-- The symbols of a text, each a text of its own. -/
theorem flatten_map_singleton (v : Text) : (v.map ([·])).flatten = v := by
  rw [← List.flatMap_def, ← List.map_eq_flatMap, List.map_id']

/-- ASCII symbols are equal as texts when they are the same. -/
theorem equal_singleton_iff {c d : Char} (hc : c.toNat < 128) (hd : d.toNat < 128) :
    strings.equal [c] [d] = true ↔ c = d := by
  have hcs : IsAscii [c] := fun x hx => List.mem_singleton.mp hx ▸ hc
  have hds : IsAscii [d] := fun x hx => List.mem_singleton.mp hx ▸ hd
  rw [strings.equal_ascii _ _ hcs hds, List.singleton_inj]

/-- A symbol of a printable text is printable. -/
theorem isPrintable_singleton {c : Char} (hv : IsPrintable v) (hc : c ∈ v) : IsPrintable [c] :=
  fun _ hd => List.mem_singleton.mp hd ▸ hv c hc

theorem isPrintable_of_char {c : Char} (h : ' ' ≤ c ∧ c ≤ '~') : IsPrintable [c] :=
  fun _ hd => List.mem_singleton.mp hd ▸ h

/-- A printable text contains a symbol as Swift sees it when it has that symbol. -/
theorem contains_eq_false_iff {c : Char} (hv : IsPrintable v) (hc : IsPrintable [c]) :
    strings.contains v [c] = false ↔ c ∉ v := by
  rw [← Bool.not_eq_true, strings.contains_printable v c hv hc]

/-- The lookup by the equality of Swift, among ASCII names. -/
theorem findNamespace_eq (hregistry : ∀ item ∈ registry, IsAscii item.publicPrefix) {name : Text}
    (hname : IsAscii name) :
    findNamespace strings registry name = Identifold.findNamespace registry name := by
  refine List.find?_congr fun item hitem => ?_
  rw [Bool.eq_iff_iff, decide_eq_true_iff]
  exact strings.equal_ascii _ _ (hregistry item hitem) hname

/-- Swift's letters of a printable text are the ASCII ones. -/
theorem length_takeWhile_isLetter (hv : IsPrintable v) :
    ((strings.characters v).takeWhile strings.isLetter).length =
    (v.takeWhile Char.isAlpha).length := by
  have hletter : ∀ c ∈ v, (strings.isLetter ∘ ([·])) c = c.isAlpha := fun c hc =>
    strings.isLetter_printable c (isPrintable_singleton hv hc)
  rw [strings.characters_printable v hv, List.takeWhile_map, List.length_map]
  congr 1
  clear hv
  induction v with
  | nil => rfl
  | cons c v ih =>
      rw [List.takeWhile_cons, List.takeWhile_cons, hletter c List.mem_cons_self,
        ih fun d hd => hletter d (List.mem_cons_of_mem c hd)]

/-! ## check symbols -/

/-- The position of a symbol in an alphabet. -/
theorem findIdx?_equal {alphabet : Text} (halphabet : IsAscii alphabet) {d : Char}
    (hd : d.toNat < 128) : (alphabet.findIdx? fun c => strings.equal [c] [d]) =
      if d ∈ alphabet then some (alphabet.idxOf d) else none := by
  induction alphabet with
  | nil => rfl
  | cons c alphabet ih =>
      have hc := halphabet c List.mem_cons_self
      rw [List.findIdx?_cons, ih fun x hx => halphabet x (List.mem_cons_of_mem c hx)]
      by_cases heq : c = d
      · rw [if_pos ((equal_singleton_iff hc hd).mpr heq), if_pos (heq ▸ List.mem_cons_self), heq,
          List.idxOf_cons_self]
      · have hmem : d ∈ c :: alphabet ↔ d ∈ alphabet := by
          rw [List.mem_cons, or_iff_right fun h => heq h.symm]
        rw [if_neg fun h => heq ((equal_singleton_iff hc hd).mp h)]
        split
        · rename_i h
          rw [if_pos (hmem.mpr h), List.idxOf_cons_ne _ heq]
          rfl
        · rename_i h
          rw [if_neg fun h' => h (hmem.mp h')]
          rfl

/-- The loop of `checkSymbol` on a printable payload. -/
theorem foldlM_addSymbol (base : Nat) {alphabet : Text} (halphabet : IsAscii alphabet)
    (hv : IsPrintable v) (remainder : Nat) :
    (v.map ([·])).foldlM (addSymbol strings base alphabet) remainder =
      checkRemainder base (· ∈ alphabet) alphabet.idxOf (.error .invalidRefSymbol) remainder v := by
  induction v generalizing remainder with
  | nil => rfl
  | cons c v ih =>
      have hc := isAscii_of_isPrintable hv c List.mem_cons_self
      rw [List.map_cons, List.foldlM_cons, checkRemainder, addSymbol, findIdx?_equal halphabet hc]
      by_cases hmem : c ∈ alphabet
      · rw [if_pos hmem, if_pos (decide_eq_true hmem)]
        exact ih (fun d hd => hv d (List.mem_cons_of_mem c hd)) _
      · rw [if_neg hmem, if_neg fun h => hmem (of_decide_eq_true h)]
        rfl

theorem isAscii_decimalAlphabet : IsAscii decimalAlphabet := by
  decide

theorem isAscii_dataAlphabet : IsAscii dataAlphabet := by
  decide

/-- `checkSymbol` of a printable payload. -/
theorem checkSymbol_eq (hv : IsPrintable v) (sequential : Bool) :
    checkSymbol strings v sequential =
      (checkSymbolOf v sequential).elim (.error (.error .invalidRefSymbol)) .ok := by
  have halphabet : IsAscii (if sequential = true then decimalAlphabet else dataAlphabet) := by
    split
    · exact isAscii_decimalAlphabet
    · exact isAscii_dataAlphabet
  rw [checkSymbol, checkSymbolOf]
  rw [strings.characters_printable v hv, foldlM_addSymbol _ halphabet hv,
    ← checkRemainder_mapError (if sequential = true then 10 else 32) _ _ ()
      (fun _ => Failure.error .invalidRefSymbol)]
  generalize halph : (if sequential = true then decimalAlphabet else dataAlphabet) = alphabet
  by_cases hvalid : ∀ c ∈ v, decide (c ∈ alphabet) = true
  · rw [checkRemainder_eq_value _ _ _ _ hvalid]
    have hlt : Radix.value (if sequential = true then 10 else 32) (v.map alphabet.idxOf) % 37 <
        checkAlphabet.length := Nat.mod_lt _ (by decide)
    change elementAt checkAlphabet _ = Option.elim checkAlphabet[_]? _ _
    rw [elementAt, List.getElem?_eq_getElem hlt]
    rfl
  · rw [checkRemainder_of_not_valid _ _ _ _ hvalid]
    rfl

/-- A check symbol is ASCII. -/
theorem toNat_checkSymbolOf_lt {sequential : Bool} {expected : Char}
    (h : checkSymbolOf v sequential = some expected) : expected.toNat < 128 := by
  have hmem : expected ∈ checkAlphabet := by
    simp only [checkSymbolOf] at h
    split at h
    · exact List.mem_of_getElem? h
    · contradiction
  exact (isReferenceSymbol_of_mem_checkAlphabet expected hmem).toNat_lt

/-! ## references -/

/-- An ASCII character is normalized as the symbol it is. -/
theorem normalizeCharacter_eq {c : Char} (hc : c.toNat < 128) :
    normalizeCharacter strings [c] = [normalizeSymbol c] := by
  simp only [normalizeCharacter, normalizeSymbol,
    equal_singleton_iff hc (by decide : 'O'.toNat < 128),
    equal_singleton_iff hc (by decide : 'I'.toNat < 128),
    equal_singleton_iff hc (by decide : 'L'.toNat < 128)]
  split
  · rfl
  · split <;> rfl

/-- Normalized symbols stay printable. -/
theorem isPrintable_map_normalizeSymbol (hv : IsPrintable v) :
    IsPrintable (v.map normalizeSymbol) := by
  intro c hc
  obtain ⟨d, hd, rfl⟩ := List.mem_map.mp hc
  rw [normalizeSymbol]
  split
  · decide
  · split
    · decide
    · exact hv d hd

/-- Reading the characters of a random payload maps its symbols. -/
theorem flatten_map_normalizeCharacter (hv : IsPrintable v) :
    ((strings.characters v).map (normalizeCharacter strings)).flatten = v.map normalizeSymbol := by
  have hmap : (v.map ([·])).map (normalizeCharacter strings) =
      (v.map normalizeSymbol).map ([·]) := by
    rw [List.map_map, List.map_map]
    exact List.map_congr_left fun c hc => normalizeCharacter_eq (isAscii_of_isPrintable hv c hc)
  rw [strings.characters_printable v hv, hmap, flatten_map_singleton]

/-- Printable text is grouped by its symbols. -/
theorem group_eq (hv : IsPrintable v) : group strings v = join '-' (chunks 4 v) := by
  rw [group, strings.characters_printable v hv, chunks_map, List.map_map]
  congr 1
  exact (List.map_congr_left fun g _ => flatten_map_singleton g).trans (List.map_id _)

/-- On printable ASCII the Swift formatter is the plain one. -/
theorem formatSequentialReference_eq (hregistry : PortCodec.Accepted registry)
    {name sequence scope : Text} (hname : IsAscii name) (hne : sequence ≠ [])
    (hsequence : IsPrintable sequence) (hscope : IsPrintable scope) :
    formatSequentialReference strings registry name sequence scope =
      (plainCodec.formatSequentialReference registry name sequence scope).mapError .error := by
  have hlength : plainCodec.length sequence = sequence.length := rfl
  have hguard (width : Nat) : (sequence ≠ [] ∧
      (∀ symbol ∈ sequence.map ([·]), strings.isNumber symbol = true) ∧
        (sequence.map ([·])).length ≤ width) ↔
      plainCodec.isSequence sequence = true ∧ plainCodec.length sequence ≤ width := by
    rw [and_iff_right hne, List.length_map, hlength, List.forall_mem_map]
    refine and_congr_left fun _ => Iff.trans (forall₂_congr fun c hc => ?_) List.all_eq_true.symm
    rw [strings.isNumber_printable c (isPrintable_singleton hsequence hc)]
  rw [formatSequentialReference, PortCodec.formatSequentialReference,
    findNamespace_eq hregistry.name hname, strings.characters_printable _ hsequence]
  cases Identifold.findNamespace registry name with
  | none => rfl
  | some item =>
      obtain ⟨publicPrefix, _ | reference⟩ := item
      · rfl
      dsimp only
      have hpadded : IsPrintable (scope ++ (List.replicate (reference.width - sequence.length) '0' ++
          sequence)) := by
        intro c hc
        rw [List.mem_append, List.mem_append] at hc
        rcases hc with hc | hc | hc
        · exact hscope c hc
        · rw [List.eq_of_mem_replicate hc]
          decide
        · exact hsequence c hc
      split
      · rw [bind_mapError, ensure_mapError, ensure_congr (hguard reference.width), List.length_map,
          hlength]
        refine congrArg _ (funext fun _ => ?_)
        rw [checkSymbol_eq hpadded]
        cases checkSymbolOf (scope ++ (List.replicate (reference.width - sequence.length) '0' ++
            sequence)) true with
        | none => rfl
        | some check =>
            rw [Option.elim_some, ok_bind]
            dsimp only
            split <;> rfl
      · rfl

/-- A body is read as the plain port reads it. -/
theorem readBody_eq (hv : IsPrintable v) (sequential : Bool) (length : Nat) {read : Text → Text}
    (hread : ∀ raw, IsPrintable raw →
      read raw = if sequential = true then raw else raw.map normalizeSymbol) :
    readBody strings sequential length read v =
      ((plainCodec.readBody sequential length v).mapError Failure.error).map
        fun parts => (parts.1, [parts.2]) := by
  rw [readBody, PortCodec.readBody, strings.characters_printable v hv]
  have hlength : plainCodec.length v = v.length := rfl
  -- the last character is the check symbol
  by_cases hn : v.length = length + 1
  · have hne : v ≠ [] := by
      rintro rfl
      contradiction
    have hmap : (v.map ([·])).getLast? = some [v.getLast hne] := by
      rw [List.getLast?_map, List.getLast?_eq_some_getLast hne]
      rfl
    have hcut : plainCodec.cutLast v = some (v.dropLast, v.getLast hne) := by
      rw [PortCodec.cutLast, List.getLast?_eq_some_getLast hne]
      rfl
    have hraw : IsPrintable v.dropLast := fun c hc => hv c (List.mem_of_mem_dropLast hc)
    have hpayload : IsPrintable (if sequential = true then v.dropLast else
        v.dropLast.map normalizeSymbol) := by
      split
      · exact hraw
      · exact isPrintable_map_normalizeSymbol hraw
    rw [List.length_map, hlength, ensure_of hn, ensure_of hn, ok_bind, ok_bind, ← List.map_dropLast,
      flatten_map_singleton, hread _ hraw, hmap, hcut]
    dsimp only
    rw [checkSymbol_eq hpayload]
    cases hcheck : checkSymbolOf (if sequential = true then v.dropLast else
        v.dropLast.map normalizeSymbol) sequential with
    | none => rfl
    | some expected =>
        have hequal : strings.equal [expected] [v.getLast hne] = true ↔ expected = v.getLast hne :=
          equal_singleton_iff (toNat_checkSymbolOf_lt hcheck)
            (isAscii_of_isPrintable hv _ (List.getLast_mem hne))
        rw [Option.elim_some, ok_bind]
        dsimp only
        by_cases hsame : expected = v.getLast hne
        · rw [ensure_of (hequal.mpr hsame), ensure_of hsame]
          rfl
        · rw [ensure_of_not fun h => hsame (hequal.mp h), ensure_of_not hsame]
          rfl
  · rw [List.length_map, hlength, ensure_of_not hn, ensure_of_not hn]
    rfl

/-- What the plain port reads of a printable body is printable. -/
theorem isPrintable_of_readBody {sequential : Bool} {length : Nat} {payload : Text}
    {supplied : Char}
    (hv : IsPrintable v) (h : plainCodec.readBody sequential length v = .ok (payload, supplied)) :
    IsPrintable payload := by
  rw [PortCodec.readBody, bind_eq_ok_iff] at h
  obtain ⟨-, -, h⟩ := h
  split at h
  · contradiction
  · rename_i raw symbol hcut
    have hraw : raw = v.dropLast := by
      rw [PortCodec.cutLast] at hcut
      split at hcut
      · obtain ⟨-, hparts⟩ := Option.ite_none_right_eq_some.mp hcut
        exact (Prod.mk.inj (Option.some.inj hparts)).1.symm
      · contradiction
    have hprintable : IsPrintable raw := fun c hc => hv c (List.mem_of_mem_dropLast (hraw ▸ hc))
    dsimp only at h
    split at h
    · contradiction
    · simp only [bind_eq_ok_iff, ensure_eq_ok_iff, pure_eq_ok_iff] at h
      obtain ⟨-, -, hresult⟩ := h
      rw [← (Prod.mk.inj hresult).1]
      split
      · exact hprintable
      · exact isPrintable_map_normalizeSymbol hprintable

/-! ## identifiers -/

/-- Indexing the characters of a text that is long enough. -/
theorem elementAt_map_singleton {n : Nat} (hn : n < v.length) :
    elementAt (v.map ([·])) n = .ok [v[n]] := by
  rw [elementAt_ok_iff, List.getElem?_map, List.getElem?_eq_getElem hn]
  rfl

/-- Swift reads the machine identifiers of printable text as the grammar has them. -/
theorem parseMachineID_eq (hv : IsPrintable v) : parseMachineID strings.toStringLibrary v =
    (readMachineId .invalidMid v).mapError Failure.error := by
  have hlower : IsPrintable (asciiLower v) := PortCodec.isPrintable_asciiLower hv
  rw [parseMachineID, readMachineId, lowercased_of_isAscii (isAscii_of_isPrintable hv)]
  by_cases hpattern : machinePattern (asciiLower v) = true
  · have hlength : (asciiLower v).length = 36 := by
      obtain ⟨hex, hhex, heq⟩ := machinePattern_iff.mp hpattern
      rw [heq, length_formatUuid hhex.1]
    generalize asciiLower v = w at hlower hpattern hlength
    have hversion : ([w[14]] : Text) = ['7'] ↔ w[14]? = some '7' := by
      rw [List.getElem?_eq_getElem (by omega), List.singleton_inj, Option.some_inj]
    have hvariant : (∃ c ∈ "89ab".toList, ([w[19]] : Text) = [c]) ↔
        ∃ c ∈ "89ab".toList, w[19]? = some c := by
      simp only [List.getElem?_eq_getElem (show 19 < w.length by omega), List.singleton_inj,
        Option.some_inj]
    have h14 := elementAt_map_singleton (show 14 < w.length by omega)
    have h19 := elementAt_map_singleton (show 19 < w.length by omega)
    rw [ensure_of ((anchored_of_isPrintable hlower).mpr hpattern), ensure_of hpattern,
      strings.characters_printable w hlower]
    simp only [h14, h19, ok_bind, bind_mapError, ensure_mapError, ensure_congr hversion,
      ensure_congr hvariant]
    rfl
  · rw [ensure_of_not fun h => hpattern ((anchored_of_isPrintable hlower).mp h),
      ensure_of_not hpattern]
    rfl

/-- A suffix with a symbol outside the alphabet. -/
theorem readSuffixSymbols_of_not_mem {s : Text} (hs : ¬ ∀ c ∈ s, c ∈ typeIdAlphabet) :
    readSuffixSymbols (s.map ([·])) = .error (.error .invalidPid) := by
  rw [readSuffixSymbols]
  cases hpositions : (s.map ([·])).mapM positionBits with
  | error e =>
      obtain ⟨symbol, hmem, he⟩ := exists_error_of_mapM hpositions
      obtain ⟨c, -, rfl⟩ := List.mem_map.mp hmem
      rw [positionBits] at he
      split at he
      · contradiction
      · rw [← Except.error.inj he]
        rfl
  | ok positions =>
      refine absurd (fun c hc => ?_) hs
      obtain ⟨bits, hbits⟩ := exists_ok_of_mapM hpositions [c] (List.mem_map_of_mem hc)
      by_contra hnot
      rw [positionBits, if_neg hnot] at hbits
      contradiction

/-- The order of one-character texts is that of their symbols. -/
theorem head_le_seven_iff_le {s : Text} (hs : IsPrintable s) :
    (∀ symbol ∈ (s.map ([·]))[0]?, strings.le symbol ['7'] = true) ↔ ∀ c ∈ s.head?, c ≤ '7' := by
  cases s with
  | nil =>
      have hnone : ∀ {α : Type} {p : α → Prop}, ∀ x ∈ (none : Option α), p x := by
        intro α p x hx
        contradiction
      exact iff_of_true hnone hnone
  | cons c s =>
      have hle := strings.le_printable c '7' fun d hd => by
        rcases List.mem_cons.mp hd with rfl | hd
        · exact hs d List.mem_cons_self
        · rw [List.mem_singleton.mp hd]
          decide
      have hfirst : ((c :: s).map ([·]))[0]? = some [c] := rfl
      rw [hfirst, List.head?_cons]
      constructor
      · intro h d hd
        rw [← Option.mem_some_iff.mp hd]
        exact hle.mp (h [c] rfl)
      · intro h symbol hsymbol
        rw [← Option.mem_some_iff.mp hsymbol]
        exact hle.mpr (h c rfl)

/-- Swift reads the public identifiers of printable text as the grammar has them. -/
theorem parsePublicID_eq (hv : IsPrintable v) : parsePublicID strings.toStringLibrary v =
    (readPublicId asciiLower .invalidPid v).mapError Failure.error := by
  have hascii := isAscii_of_isPrintable hv
  have hlower : strings.equal v (lowercased strings.toStringLibrary v) = true ↔
      v = asciiLower v := by
    rw [lowercased_of_isAscii hascii]
    exact strings.equal_ascii v _ hascii ((isAscii_asciiLower_iff v).mpr hascii)
  rw [parsePublicID, readPublicId, bind_mapError, ensure_mapError, ensure_congr hlower,
    strings.characters_printable v hv, rsplitOnce_map_singleton]
  refine congrArg _ (funext fun _ => ?_)
  cases hsplit : rsplitOnce '_' v with
  | none => rfl
  | some parts =>
      obtain ⟨ns, s⟩ := parts
      obtain ⟨hparts, -⟩ := rsplitOnce_eq_some_iff.mp hsplit
      have hns : IsPrintable ns := fun c hc => hv c (by simp [hparts, hc])
      have hs : IsPrintable s := fun c hc => hv c (by simp [hparts, hc])
      have hguarded := @isTypeIdSuffix_iff List.length (fun _ _ => rfl) s
      rw [Option.map_some]
      dsimp only
      rw [flatten_map_singleton, flatten_map_singleton, bind_mapError, ensure_mapError,
        ensure_congr (anchored_of_isPrintable hns), strings.characters_printable s hs,
        ensure_congr (and_congr (by rw [List.length_map]) (head_le_seven_iff_le hs))]
      refine congrArg _ (funext fun _ => ?_)
      by_cases hsuffix : IsTypeIdSuffix s
      · obtain ⟨hguard, hmem⟩ := hguarded.mp hsuffix
        have hread := (readSuffixSymbols_ok_iff hguard.1 hguard.2).mpr ⟨hmem, rfl⟩
        have hdigits : IsPrintable (formatUuid (hexOfSuffix s)) :=
          isPrintable_formatUuid (isHex32_write _)
        rw [ensure_of hguard, ensure_of hsuffix, ok_bind, ok_bind, hread, ok_bind,
          parseMachineID_eq hdigits]
        by_cases hmachine : IsMachineId (formatUuid (hexOfSuffix s))
        · rw [readMachineId_of_machineId hmachine, ensure_digits_of_machineId hmachine]
          rfl
        · obtain ⟨e, he⟩ := readMachineId_of_not_machineId hmachine
          rw [he, ensure_digits_of_not_machineId hmachine]
          rfl
      · rw [ensure_of_not hsuffix, error_bind]
        by_cases hguard : s.length = 26 ∧ ∀ c ∈ s.head?, c ≤ '7'
        · have hmem : ¬ ∀ c ∈ s, c ∈ typeIdAlphabet := fun hall =>
            hsuffix (hguarded.mpr ⟨hguard, hall⟩)
          rw [ensure_of hguard, ok_bind, readSuffixSymbols_of_not_mem hmem]
          rfl
        · rw [ensure_of_not hguard]
          rfl

/-! ## normalize -/

/-- The namespace of a printable public identifier is a part of it. -/
theorem isAscii_namespaceName (hv : IsPrintable v) {parsed : ParsedPublicId}
    (h : readPublicId asciiLower .invalidPid v = .ok parsed) : IsAscii parsed.namespaceName := by
  rw [readPublicId, bind_eq_ok_iff] at h
  obtain ⟨-, -, h⟩ := h
  split at h
  · contradiction
  · rename_i ns s hsplit
    simp only [bind_eq_ok_iff, ensure_eq_ok_iff, pure_eq_ok_iff] at h
    obtain ⟨-, -, -, -, -, -, -, -, rfl⟩ := h
    obtain ⟨hparts, -⟩ := rsplitOnce_eq_some_iff.mp hsplit
    exact fun c hc => isAscii_of_isPrintable hv c (by simp [hparts, hc])

/-- Characters of printable text are dropped as symbols are. -/
theorem flatten_drop_characters (hv : IsPrintable v) (n : Nat) :
    ((strings.characters v).drop n).flatten = v.drop n := by
  rw [strings.characters_printable v hv, ← List.map_drop, flatten_map_singleton]

/-- Characters of printable text are taken as symbols are. -/
theorem flatten_take_characters (hv : IsPrintable v) (n : Nat) :
    ((strings.characters v).take n).flatten = v.take n := by
  rw [strings.characters_printable v hv, ← List.map_take, flatten_map_singleton]

/-- The payload of a sequence, formatted by its characters. -/
theorem formatPayload_eq (hregistry : PortCodec.Accepted registry) {name payload : Text} {n : Nat}
    (hname : IsAscii name) (hpayload : IsPrintable payload) (hne : payload.drop n ≠ []) :
    formatSequentialReference strings registry name ((strings.characters payload).drop n).flatten
        ((strings.characters payload).take n).flatten =
      (plainCodec.formatSequentialReference registry name (payload.drop n)
        (payload.take n)).mapError .error := by
  rw [flatten_drop_characters hpayload, flatten_take_characters hpayload]
  exact formatSequentialReference_eq hregistry hname hne
    (fun c hc => hpayload c (List.mem_of_mem_drop hc))
    fun c hc => hpayload c (List.mem_of_mem_take hc)

/-- The reference branch. -/
theorem normalizeReference_eq (hregistry : PortCodec.Accepted registry) (hv : IsPrintable v)
    {compact : Text} (hcompact : IsPrintable compact) :
    normalizeReference strings registry v compact =
      (plainCodec.normalizeReference registry v compact).mapError .error := by
  have hfind := hregistry.find?_startsWith fun w hw =>
    strings.hasPrefix_printable compact w hcompact hw
  -- the letters that Swift counts are the ASCII ones
  have hmissing : (if 2 ≤ ((strings.characters v).takeWhile strings.isLetter).length
      then IdentifoldErrorCode.unknownNamespace else .invalidKind) =
      if plainCodec.startsWithLetters v = true then .unknownNamespace else .invalidKind := by
    rw [length_takeWhile_isLetter hv]
    exact if_congr decide_eq_true_iff.symm rfl rfl
  rw [normalizeReference, PortCodec.normalizeReference, hfind]
  cases hitem : registry.find? fun item =>
      item.reference.any (plainCodec.startsWith compact ·.refPrefix) with
  | none => exact congrArg (fun code => Except.error (Failure.error code)) hmissing
  | some item =>
      obtain ⟨name, _ | p⟩ := item
      · exact congrArg (fun code => Except.error (Failure.error code)) hmissing
      have hmem := List.mem_of_find?_eq_some hitem
      have hstart : IsPrintable p.refPrefix := hregistry.printable _ hmem p rfl
      have hbody : IsPrintable (compact.drop p.refPrefix.length) := fun c hc =>
        hcompact c (List.mem_of_mem_drop hc)
      have hcharacters : ((strings.characters compact).drop
          (strings.characters p.refPrefix).length).flatten = compact.drop p.refPrefix.length := by
        rw [strings.characters_printable _ hstart, List.length_map,
          flatten_drop_characters hcompact]
      -- the two symbols are searched as characters
      have hsearch := and_congr
        (@contains_eq_false_iff strings _ '?' hbody (isPrintable_of_char (by decide)))
        (@contains_eq_false_iff strings _ '_' hbody (isPrintable_of_char (by decide)))
      dsimp only
      rw [hcharacters, bind_mapError, ensure_mapError, ensure_congr hsearch]
      refine congrArg _ (funext fun _ => ?_)
      split
      · -- a sequence is formatted anew
        rename_i hstrategy
        have hraw : ∀ raw, IsPrintable raw →
            id raw = if true = true then raw else raw.map normalizeSymbol :=
          fun _ _ => (if_pos rfl).symm
        rw [bind_mapError, readBody_eq hbody true _ hraw]
        cases hread : plainCodec.readBody true
            ((if p.scope = "calendar-year" then 4 else 0) + p.width)
            (compact.drop p.refPrefix.length) with
        | error e => rfl
        | ok parts =>
            obtain ⟨payload, supplied⟩ := parts
            obtain ⟨hlength, hdigits⟩ := PortCodec.digits_of_readBody hread
            have hwidth := hregistry.width _ hmem p rfl hstrategy
            have hpayload := PortCodec.isPrintable_of_isDigit hdigits
            exact formatPayload_eq hregistry (hregistry.name _ hmem) hpayload
              (PortCodec.drop_ne_nil hlength hwidth)
      · -- a random payload is grouped
        rw [bind_mapError, readBody_eq hbody false _ fun raw hraw =>
          flatten_map_normalizeCharacter hraw]
        cases hread : plainCodec.readBody false (profileLength p.profile)
            (compact.drop p.refPrefix.length) with
        | error e => rfl
        | ok parts =>
            obtain ⟨payload, supplied⟩ := parts
            have hpayload : IsPrintable payload := isPrintable_of_readBody hbody hread
            change Except.ok (join '-' [p.refPrefix, group strings payload, [supplied]]) = _
            rw [group_eq hpayload]
            rfl

/-- **The Swift port** normalizes a printable text as the plain port does. -/
theorem normalize_eq (hregistry : PortCodec.Accepted registry) (hv : IsPrintable v) :
    normalize strings v registry = (plainCodec.normalize v registry).mapError .error := by
  have hlength : plainCodec.length v = v.length := rfl
  have hseparator : strings.contains v ['_'] = true ↔ '_' ∈ v :=
    strings.contains_printable v '_' hv (isPrintable_of_char (by decide))
  rw [normalize, PortCodec.normalize, if_congr hseparator rfl rfl,
    strings.characters_printable v hv, List.length_map, hlength,
    strings.uppercased_printable v hv]
  split
  · rw [parsePublicID_eq hv, bind_mapError]
    cases hparse : readPublicId asciiLower .invalidPid v with
    | error e =>
        have hplain : plainCodec.parsePublicId v = .error e := hparse
        rw [hplain]
        rfl
    | ok parsed =>
        have hplain : plainCodec.parsePublicId v = .ok parsed := hparse
        have hname := @findNamespace_eq strings _ hregistry.name _ (isAscii_namespaceName hv hparse)
        rw [hplain]
        change (do
            ensure (findNamespace strings registry parsed.namespaceName ≠ none)
              (Failure.error .unknownNamespace)
            return parsed.value : Except Failure Text) = Except.mapError _ (do
              ensure (Identifold.findNamespace registry parsed.namespaceName ≠ none)
                IdentifoldErrorCode.unknownNamespace
              return parsed.value)
        rw [bind_mapError, ensure_mapError, hname]
        rfl
  · split
    · exact parseMachineID_eq hv
    · have hcompact : IsPrintable (strip '-' (asciiUpper v)) := fun c hc =>
        PortCodec.isPrintable_asciiUpper hv c (mem_of_mem_strip hc)
      exact normalizeReference_eq hregistry hv hcompact

/-! ## a library -/

/-- The sample library finds a character by its symbol. -/
theorem asciiTexts_contains (v : Text) (c : Char) : v.any (fun d => [d] = [c]) = true ↔ c ∈ v := by
  rw [List.any_eq_true]
  constructor
  · rintro ⟨d, hd, heq⟩
    rw [← List.singleton_inj.mp (of_decide_eq_true heq)]
    exact hd
  · intro hc
    exact ⟨c, hc, decide_eq_true rfl⟩

/-- The texts of a runtime that only knows ASCII. -/
def asciiTexts : TextLibrary where
  toStringLibrary := asciiStrings
  uppercased := asciiUpper
  contains v symbol := v.any fun d => [d] = symbol
  hasPrefix v w := w.isPrefixOf v
  isLetter symbol := symbol.all Char.isAlpha
  isNumber symbol := symbol.all Char.isDigit
  uppercased_printable _ _ := rfl
  contains_printable v c _ _ := asciiTexts_contains v c
  hasPrefix_printable _ _ _ _ := rfl
  isLetter_printable _ _ := Bool.and_true _
  isNumber_printable _ _ := Bool.and_true _

end Identifold.Swift
