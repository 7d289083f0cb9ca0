import Identifold.Ports.Agreement
import Identifold.Ports.ErrorCodes

/-!
# Identifold.Ports.RustPanics

Where `normalize` of the Rust port panics.

The functions of `packages/rust/src/lib.rs` under `normalize` are written out
here with every operation that can panic: indices and slices by byte offset,
`split_at`, `expect`, the sums of `usize` and the width of `format!`.  What
the last two do depends on the build (`Build`).  `Checked.normalize_eq`
connects them with the port's model: they agree where no sum overflows and no
width is refused.

`normalize` compares lengths in bytes before it looks at the symbols, so a
body of the right number of bytes whose last symbol takes more than one of
them is cut inside that symbol.  Apart from the widths, this is the only panic.

* `parseMachineId_eq`, `parsePublicId_eq` — the identifier parsers do not panic;
* `normalizeRandom_panics_iff`, `normalizeSequence_panics_iff` — the two reference
  branches;
* `normalize_panics_iff` — the whole function.
-/

namespace Identifold

namespace Rust

open Separated

/-- What the build decides: the bits of a `usize`, whether sums that overflow
panic (or wrap), and the largest width that `format!` takes, if it has one. -/
structure Build where
  pointerBits : Nat
  overflowChecks : Bool
  formatWidthLimit : Option Nat
  pointerBits_ge : 16 ≤ pointerBits

namespace Build

variable (build : Build)

/-- `a + b` of `usize`. -/
def add (a b : Nat) : Except Failure Nat :=
  if a + b < 2 ^ build.pointerBits then .ok (a + b)
  else if build.overflowChecks then .error .panicked
  else .ok ((a + b) % 2 ^ build.pointerBits)

/-- `a - b` of `usize`. -/
def sub (a b : Nat) : Except Failure Nat :=
  if b ≤ a then .ok (a - b)
  else if build.overflowChecks then .error .panicked
  else .ok (2 ^ build.pointerBits + a - b)

/-- `format!("{value:0>width$}")`. -/
def padLeft (width : Nat) (value : Text) : Except Failure Text :=
  if ∀ limit ∈ build.formatWidthLimit, width ≤ limit then .ok (padStart width value)
  else .error .panicked

end Build

namespace Checked

/-! ## slices -/

/-- `v.split_at(mid)`. -/
def splitAt (v : Text) (mid : Nat) : Except Failure (Text × Text) :=
  match splitAtByte mid v with
  | some parts => .ok parts
  | none => .error .panicked

/-- `&v[start..]`. -/
def sliceFrom (v : Text) (start : Nat) : Except Failure Text := do
  let (_, rest) ← splitAt v start
  return rest

/-- `&v[..stop]`. -/
def sliceTo (v : Text) (stop : Nat) : Except Failure Text := do
  let (part, _) ← splitAt v stop
  return part

/-- `&v[start..stop]`. -/
def slice (v : Text) (start stop : Nat) : Except Failure Text := do
  ensure (start ≤ stop) .panicked
  let rest ← sliceFrom v start
  sliceTo rest (stop - start)

/-- `v.as_bytes()[index]`, as the symbol that begins there. -/
def byteAt (v : Text) (index : Nat) : Except Failure (Option Char) := do
  ensure (index < utf8Length v) .panicked
  return charAtByte index v

/-- `indices.iter().all(|index| v.as_bytes()[*index] == symbol)`. -/
def allBytesAre (v : Text) (symbol : Char) : List Nat → Except Failure Bool
  | [] => .ok true
  | index :: indices => do
      let byte ← byteAt v index
      if byte = some symbol then allBytesAre v symbol indices else return false

/-- The chunks of four bytes of `grouped`, each read with `from_utf8(..).expect`;
`fuel` bounds their number. -/
def groupedLoop : Nat → Text → Except Failure (List Text)
  | 0, _ => .ok []
  | fuel + 1, v =>
      if v = [] then .ok []
      else do
        let (chunk, rest) ← splitAt v (min 4 (utf8Length v))
        let chunks ← groupedLoop fuel rest
        return chunk :: chunks

/-- `grouped`. -/
def grouped (v : Text) : Except Failure Text := do
  let chunks ← groupedLoop v.length v
  return join '-' chunks

/-! ## identifiers -/

/-- `parse_machine_id`. -/
def parseMachineId (value : Text) : Except Failure Text := do
  let value := asciiLower value
  let hyphens ← if utf8Length value = 36 then allBytesAre value '-' [8, 13, 18, 23] else .ok false
  let valid := hyphens && value.zipIdx.all fun p => p.2 ∈ [8, 13, 18, 23] || isHexDigit p.1
  ensure (valid = true) (.error .invalidMid)
  let version ← byteAt value 14
  ensure (version = some '7') (.error .invalidUuidVersion)
  let variant ← byteAt value 19
  ensure (∃ c ∈ "89ab".toList, variant = some c) (.error .invalidMid)
  return value

/-- `decode_suffix`. -/
def decodeSuffix (value : Text) : Except Failure (BitVec 128) := do
  ensure (utf8Length value = 26) (.error .invalidPid)
  let first ← byteAt value 0
  ensure (∀ c ∈ first, c ≤ '7') (.error .invalidPid)
  decodeLoop 0 value

/-- `format_machine`. -/
def formatMachine (value : BitVec 128) : Except Failure Text := do
  let text := padStart 32 (Nat.toDigits 16 value.toNat)
  let first ← sliceTo text 8
  let second ← slice text 8 12
  let third ← slice text 12 16
  let fourth ← slice text 16 20
  let last ← sliceFrom text 20
  return join '-' [first, second, third, fourth, last]

/-- `parse_public_id`. -/
def parsePublicId (value : Text) : Except Failure ParsedPublicId := do
  ensure (value = asciiLower value) (.error .invalidPid)
  match rsplitOnce '_' value with
  | none => throw (.error .invalidPublicPrefix)
  | some (namespaceName, suffix) =>
      ensure (prefixValid namespaceName = true) (.error .invalidPublicPrefix)
      let number ← decodeSuffix suffix
      let machineId ← formatMachine number
      match parseMachineId machineId with
      | .error .panicked => throw .panicked
      | .error (.error _) => throw (.error .invalidPid)
      | .ok _ => return { value := value, namespaceName := namespaceName, machineId := machineId }

/-! ## references -/

/-- `format_sequential_reference`. -/
def formatSequentialReference (build : Build) (registry : List PortNamespaceDefinition)
    (name sequence scope : Text) : Except Failure Text :=
  match findNamespace registry name with
  | some { reference := some reference, .. } =>
      if reference.strategy = "sequence" then do
        ensure (utf8Length sequence ≤ reference.width ∧ ∀ c ∈ sequence, c.isDigit = true)
          (.error .sequenceOverflow)
        let sequence ← build.padLeft reference.width sequence
        match checkSymbolOf (scope ++ sequence) true with
        | none => throw (.error .invalidRefSymbol)
        | some check =>
            if scope = [] then return join '-' [reference.refPrefix, sequence, [check]]
            else return join '-' [reference.refPrefix, scope, sequence, [check]]
      else throw (.error .unknownNamespace)
  | _ => throw (.error .unknownNamespace)

/-- `usize::from(reference.scope == "calendar-year") * 4`. -/
def scopeLength (reference : PortReferenceDefinition) : Nat :=
  if reference.scope = "calendar-year" then 4 else 0

/-- The end of a sequential body: the last symbol is cut off at `last` and
checked, before `format` gets the payload. -/
def checkSequence (body : Text) (last : Nat) (format : Text → Except Failure Text) :
    Except Failure Text := do
  let (payload, supplied) ← splitAt body last
  match checkSymbolOf payload true with
  | none => throw (.error .invalidRefSymbol)
  | some expected =>
      ensure (supplied = [expected]) (.error .invalidChecksum)
      format payload

/-- The parts of a payload, formatted. -/
def formatPayload (build : Build) (registry : List PortNamespaceDefinition) (name : Text)
    (reference : PortReferenceDefinition) (payload : Text) : Except Failure Text := do
  let sequence ← sliceFrom payload (scopeLength reference)
  let scope ← sliceTo payload (scopeLength reference)
  formatSequentialReference build registry name sequence scope

/-- The branch of `normalize` for a sequential reference. -/
def normalizeSequence (build : Build) (registry : List PortNamespaceDefinition) (name : Text)
    (reference : PortReferenceDefinition) (body : Text) : Except Failure Text := do
  let payloadLength ← build.add (scopeLength reference) reference.width
  let length ← build.add payloadLength 1
  ensure (utf8Length body = length) (.error .invalidRefLength)
  let last ← build.sub (utf8Length body) 1
  checkSequence body last (formatPayload build registry name reference)

/-- The branch of `normalize` for a random reference. -/
def normalizeRandom (reference : PortReferenceDefinition) (body : Text) : Except Failure Text := do
  let length := profileLength reference.profile
  ensure (utf8Length body = length + 1) (.error .invalidRefLength)
  let (payload, supplied) ← splitAt body length
  let normalized := payload.map normalizeSymbol
  match checkSymbolOf normalized false with
  | none => throw (.error .invalidRefSymbol)
  | some expected =>
      ensure (supplied = [expected]) (.error .invalidChecksum)
      let groups ← grouped normalized
      return join '-' [reference.refPrefix, groups, supplied]

/-- The reference branch of `normalize`, from the compact text on. -/
def normalizeCompact (build : Build) (registry : List PortNamespaceDefinition) (missing : Failure)
    (compact : Text) : Except Failure Text :=
  match registry.find? fun item => item.reference.any (·.refPrefix.isPrefixOf compact) with
  | none => throw missing
  | some { publicPrefix := name, reference := reference } =>
      match reference with
      -- `expect("matched reference")`
      | none => throw .panicked
      | some reference => do
          let body ← sliceFrom compact (utf8Length reference.refPrefix)
          ensure ('?' ∉ body ∧ '_' ∉ body) (.error .invalidRef)
          if reference.strategy = "sequence" then
            normalizeSequence build registry name reference body
          else normalizeRandom reference body

/-- `normalize`. -/
def normalize (build : Build) (value : Text) (registry : List PortNamespaceDefinition) :
    Except Failure Text :=
  if '_' ∈ value then do
    let parsed ← parsePublicId value
    ensure (findNamespace registry parsed.namespaceName ≠ none) (.error .unknownNamespace)
    return parsed.value
  else if utf8Length value = 36 then parseMachineId value
  else
    normalizeCompact build registry
      (.error (if 2 ≤ (value.takeWhile Char.isAlpha).length then .unknownNamespace
        else .invalidKind)) (strip '-' (asciiUpper value))

/-! ## what cannot panic -/

/-- An error of the crate is no panic. -/
theorem throw_ne_panicked {α : Type} {code : IdentifoldErrorCode} :
    (throw (.error code) : Except Failure α) ≠ .error .panicked :=
  nofun

/-- A value is no panic. -/
theorem pure_ne_panicked {α : Type} {a : α} : (pure a : Except Failure α) ≠ .error .panicked :=
  nofun

/-- A check that fails with an error code does not panic. -/
theorem ensure_bind_panicked_iff {α : Type} {condition : Prop} [Decidable condition]
    {code : IdentifoldErrorCode} {f : Unit → Except Failure α} :
    (ensure condition (.error code) >>= f) = .error .panicked ↔
      condition ∧ f () = .error .panicked := by
  by_cases h : condition
  · rw [ensure_of h, ok_bind]
    exact (and_iff_right h).symm
  · rw [ensure_of_not h, error_bind]
    exact iff_of_false throw_ne_panicked fun hand => h hand.1

section Slices

variable {v xs ys : Text}

/-- A text is split at the end of a part of it. -/
theorem splitAt_append (xs ys : Text) : splitAt (xs ++ ys) (utf8Length xs) = .ok (xs, ys) := by
  rw [splitAt, splitAtByte_utf8Length]

/-- In an ASCII text, slices are cut by symbols. -/
theorem splitAt_of_isAscii (h : IsAscii v) {mid : Nat} (hmid : mid ≤ v.length) :
    splitAt v mid = .ok (v.take mid, v.drop mid) := by
  have htake : IsAscii (v.take mid) := fun c hc => h c (List.mem_of_mem_take hc)
  have hsplit := splitAt_append (v.take mid) (v.drop mid)
  rwa [List.take_append_drop, utf8Length_of_isAscii htake, List.length_take_of_le hmid] at hsplit

/-- A split behind the last byte panics. -/
theorem splitAt_of_gt {mid : Nat} (hmid : utf8Length v < mid) :
    splitAt v mid = .error .panicked := by
  cases hsplit : splitAtByte mid v with
  | none => rw [splitAt, hsplit]
  | some parts =>
      obtain ⟨xs, ys⟩ := parts
      obtain ⟨rfl, hlen⟩ := of_splitAtByte hsplit
      rw [utf8Length_append] at hmid
      omega

/-- A slice of an ASCII text from an index is that of its symbols. -/
theorem sliceFrom_of_isAscii (h : IsAscii v) {start : Nat} (hstart : start ≤ v.length) :
    sliceFrom v start = .ok (v.drop start) := by
  rw [sliceFrom, splitAt_of_isAscii h hstart]
  rfl

/-- A slice of an ASCII text up to an index is that of its symbols. -/
theorem sliceTo_of_isAscii (h : IsAscii v) {stop : Nat} (hstop : stop ≤ v.length) :
    sliceTo v stop = .ok (v.take stop) := by
  rw [sliceTo, splitAt_of_isAscii h hstop]
  rfl

/-- A slice of an ASCII text between two indices is that of its symbols. -/
theorem slice_of_isAscii (h : IsAscii v) {start stop : Nat} (hle : start ≤ stop)
    (hstop : stop ≤ v.length) : slice v start stop = .ok ((v.drop start).take (stop - start)) := by
  have hdrop : IsAscii (v.drop start) := fun c hc => h c (List.mem_of_mem_drop hc)
  rw [slice, ensure_of hle, ok_bind, sliceFrom_of_isAscii h (by omega), ok_bind,
    sliceTo_of_isAscii hdrop (by rw [List.length_drop]; omega)]

/-- A byte within bounds is read without a panic. -/
theorem byteAt_of_lt {index : Nat} (h : index < utf8Length v) :
    byteAt v index = .ok (charAtByte index v) := by
  rw [byteAt, ensure_of h]
  rfl

/-- So are several. -/
theorem allBytesAre_of_lt {symbol : Char} {indices : List Nat}
    (h : ∀ index ∈ indices, index < utf8Length v) :
    allBytesAre v symbol indices =
      .ok (indices.all fun index => charAtByte index v = some symbol) := by
  induction indices with
  | nil => rfl
  | cons index indices ih =>
      have hrest := ih fun i hi => h i (List.mem_cons_of_mem index hi)
      rw [allBytesAre, byteAt_of_lt (h index (by simp)), ok_bind, List.all_cons, hrest]
      by_cases hsymbol : charAtByte index v = some symbol
      · rw [if_pos hsymbol, decide_eq_true hsymbol, Bool.true_and]
      · rw [if_neg hsymbol, decide_eq_false hsymbol, Bool.false_and]
        rfl

/-- The body behind a prefix. -/
theorem sliceFrom_append (xs ys : Text) : sliceFrom (xs ++ ys) (utf8Length xs) = .ok ys := by
  rw [sliceFrom, splitAt_append]
  rfl

/-- The chunks of an ASCII text. -/
theorem groupedLoop_of_isAscii {fuel : Nat} (h : IsAscii v) (hfuel : v.length ≤ fuel) :
    groupedLoop fuel v = .ok (chunks 4 v) := by
  induction fuel generalizing v with
  | zero =>
      have hnil : v = [] := List.eq_nil_of_length_eq_zero (by omega)
      rw [hnil, chunks_nil (by decide)]
      rfl
  | succ fuel ih =>
      rw [groupedLoop]
      split
      · next hnil => rw [hnil, chunks_nil (by decide)]
      · next hne =>
          have hpos := List.length_pos_iff.mpr hne
          have hdrop : IsAscii (v.drop 4) := fun c hc => h c (List.mem_of_mem_drop hc)
          have hcut : splitAt v (min 4 (utf8Length v)) = .ok (v.take 4, v.drop 4) := by
            rw [utf8Length_of_isAscii h, splitAt_of_isAscii h (by omega)]
            by_cases hlong : 4 ≤ v.length
            · rw [Nat.min_eq_left hlong]
            · rw [Nat.min_eq_right (by omega), List.take_length, List.drop_length,
                List.take_of_length_le (by omega), List.drop_of_length_le (by omega)]
          rw [hcut, ok_bind, chunks_eq_cons (by decide) hne]
          simp only
          rw [ih hdrop (by rw [List.length_drop]; omega)]
          rfl

end Slices

section Identifiers

variable {v : Text}

/-- **No index of `parse_machine_id` is out of range.** -/
theorem parseMachineId_eq (v : Text) : parseMachineId v = Rust.parseMachineId v := by
  rw [parseMachineId, Rust.parseMachineId]
  by_cases hlen : utf8Length (asciiLower v) = 36
  · have hindices : ∀ index ∈ [8, 13, 18, 23], index < utf8Length (asciiLower v) := by
      rw [hlen]
      decide
    have hversion : byteAt (asciiLower v) 14 = .ok (charAtByte 14 (asciiLower v)) :=
      byteAt_of_lt (by omega)
    have hvariant : byteAt (asciiLower v) 19 = .ok (charAtByte 19 (asciiLower v)) :=
      byteAt_of_lt (by omega)
    simp only [hlen, if_true, allBytesAre_of_lt hindices, ok_bind, hversion, hvariant, decide_true,
      Bool.true_and]
  · simp only [hlen, if_false, ok_bind, decide_false, Bool.false_and, Bool.false_eq_true]
    rw [ensure_of_not (by decide), error_bind, error_bind]

/-- The decoder reads the first byte of a suffix of 26 only, and does not panic. -/
theorem decodeSuffix_eq (s : Text) : decodeSuffix s = Rust.decodeSuffix s := by
  rw [decodeSuffix, Rust.decodeSuffix]
  by_cases hlen : utf8Length s = 26
  · have hfirst : byteAt s 0 = .ok s.head? := by
      rw [byteAt_of_lt (by omega), charAtByte, splitAtByte]
      rfl
    rw [ensure_of hlen, ok_bind, hfirst, ok_bind]
    by_cases hguard : ∀ c ∈ s.head?, c ≤ '7'
    · rw [ensure_of hguard, ensure_of ⟨hlen, hguard⟩]
    · rw [ensure_of_not hguard, ensure_of_not fun h => hguard h.2]
  · rw [ensure_of_not hlen, ensure_of_not fun h => hlen h.1]
    rfl

/-- **The slices of `format_machine` are those of the groups.** -/
theorem formatMachine_eq (value : BitVec 128) :
    formatMachine value = .ok (Rust.formatMachine value) := by
  have hlt : value.toNat < 16 ^ 32 := Nat.lt_of_lt_of_eq value.isLt (by norm_num)
  have htext : padStart 32 (Nat.toDigits 16 value.toNat) =
      Radix.write hexAlphabet 32 value.toNat := by
    rw [padStart_toDigits (by decide) (by decide) hlt, map_digitChar_eq_write]
  have hhex := isHex32_write value.toNat
  have hascii : IsAscii (Radix.write hexAlphabet 32 value.toNat) := fun c hc =>
    (hexAlphabet_facts c (hhex.2 c hc)).1
  have hlen := hhex.1
  simp only [formatMachine, htext]
  rw [sliceTo_of_isAscii hascii (by omega), ok_bind, slice_of_isAscii hascii (by decide) (by omega),
    ok_bind, slice_of_isAscii hascii (by decide) (by omega), ok_bind,
    slice_of_isAscii hascii (by decide) (by omega), ok_bind,
    sliceFrom_of_isAscii hascii (by omega), ok_bind, Rust.formatMachine, htext]
  rfl

/-- The parser of machine identifiers does not panic on any text. -/
theorem parseMachineId_ne_panicked (v : Text) : Rust.parseMachineId v ≠ .error .panicked := by
  rw [Rust.parseMachineId_eq]
  cases readMachineId .invalidMid v with
  | ok w => nofun
  | error code => nofun

/-- Nor does the one of public identifiers. -/
theorem parsePublicId_ne_panicked (v : Text) : Rust.parsePublicId v ≠ .error .panicked := by
  rw [Rust.parsePublicId_eq]
  cases readPublicId asciiLower .invalidPid v with
  | ok parsed => nofun
  | error code => nofun

/-- The slices of the parser are those of the model without panics. -/
theorem parsePublicId_eq (v : Text) : parsePublicId v = Rust.parsePublicId v := by
  rw [parsePublicId, Rust.parsePublicId]
  congr 1
  funext _
  cases hsplit : rsplitOnce '_' v with
  | none => rfl
  | some parts =>
      obtain ⟨ns, suffix⟩ := parts
      simp only [decodeSuffix_eq, formatMachine_eq, parseMachineId_eq, ok_bind]
      congr 1
      funext _
      congr 1
      funext number
      cases hparse : Rust.parseMachineId (Rust.formatMachine number) with
      | ok w => rfl
      | error failure =>
          cases failure with
          | error code => rfl
          | panicked => exact absurd hparse (parseMachineId_ne_panicked _)

end Identifiers

/-! ## the last symbol -/

/-- The text ends in a symbol of several bytes. -/
def EndsInLongSymbol (body : Text) : Prop := ∃ c ∈ body.getLast?, 128 ≤ c.toNat

instance (body : Text) : Decidable (EndsInLongSymbol body) :=
  decidable_of_iff (∃ c ∈ body.getLast?.toList, 128 ≤ c.toNat) (by simp [EndsInLongSymbol])

section LastSymbol

variable {body : Text} {n : Nat}

/-- Symbols of more than one byte are those beyond ASCII. -/
theorem one_lt_utf8Size_iff {c : Char} : 1 < c.utf8Size ↔ 128 ≤ c.toNat := by
  have hpos := c.utf8Size_pos
  constructor
  · intro h
    by_contra hlt
    rw [utf8Size_of_ascii (by omega)] at h
    omega
  · intro h
    by_contra hle
    have hval := Char.utf8Size_eq_one_iff.mp (show c.utf8Size = 1 by omega)
    have hsmall : c.toNat ≤ 127 := hval
    omega

/-- **A cut before the last byte falls inside a last symbol of several bytes.** -/
theorem splitAtByte_of_endsInLongSymbol (hlen : utf8Length body = n + 1)
    (h : EndsInLongSymbol body) : splitAtByte n body = none := by
  obtain ⟨c, hlast, hlong⟩ := h
  cases hsplit : splitAtByte n body with
  | none => rfl
  | some parts =>
      obtain ⟨xs, ys⟩ := parts
      obtain ⟨rfl, hxs⟩ := of_splitAtByte hsplit
      have hys : utf8Length ys = 1 := by
        rw [utf8Length_append] at hlen
        omega
      -- the cut leaves the last symbol, in one byte
      have hmem : c ∈ ys := by
        cases ys with
        | nil => contradiction
        | cons d ys =>
            rw [Option.mem_def, List.getLast?_append_of_ne_nil xs (List.cons_ne_nil d ys)] at hlast
            exact List.mem_of_getLast? hlast
      obtain ⟨as, bs, rfl⟩ := List.append_of_mem hmem
      rw [utf8Length_append, utf8Length_cons] at hys
      have hsize := one_lt_utf8Size_iff.mpr hlong
      omega

/-- Elsewhere it cuts the last symbol off. -/
theorem splitAtByte_of_not_endsInLongSymbol (hlen : utf8Length body = n + 1)
    (h : ¬ EndsInLongSymbol body) :
    ∃ payload c, body = payload ++ [c] ∧ splitAtByte n body = some (payload, [c]) := by
  have hne : body ≠ [] := by
    rintro rfl
    rw [utf8Length_nil] at hlen
    omega
  obtain ⟨payload, c, rfl⟩ : ∃ payload c, body = payload ++ [c] :=
    ⟨_, _, (List.dropLast_append_getLast hne).symm⟩
  have hshort : c.toNat < 128 := by
    by_contra hlong
    exact h ⟨c, by simp, by omega⟩
  have hpayload : utf8Length payload = n := by
    rw [utf8Length_append, utf8Length_cons, utf8Size_of_ascii hshort, utf8Length_nil] at hlen
    omega
  exact ⟨payload, c, rfl, splitAtByte_eq_some_iff.mpr ⟨rfl, hpayload⟩⟩

end LastSymbol

/-! ## random references -/

/-- The groups of an ASCII text are sliced at symbol boundaries. -/
theorem grouped_of_isAscii {v : Text} (h : IsAscii v) : grouped v = .ok (join '-' (chunks 4 v)) := by
  rw [grouped, groupedLoop_of_isAscii h le_rfl]
  rfl

/-- **The chunks are cut between symbols**: the random branch is the model's. -/
theorem normalizeRandom_eq (reference : PortReferenceDefinition) (body : Text) :
    normalizeRandom reference body =
      Identifold.normalizeRandom Failure.error .panicked reference body := by
  rw [normalizeRandom, Identifold.normalizeRandom]
  congr 1
  funext _
  rw [splitAt]
  cases hsplit : splitAtByte (profileLength reference.profile) body with
  | none => rfl
  | some parts =>
      obtain ⟨payload, supplied⟩ := parts
      rw [ok_bind]
      simp only
      cases hcheck : checkSymbolOf (payload.map normalizeSymbol) false with
      | none => rfl
      | some expected =>
          have hsymbols := (checkSymbolOf_random_iff.mp hcheck).1
          have hascii : IsAscii (payload.map normalizeSymbol) := fun c hc =>
            (isReferenceSymbol_of_mem_dataAlphabet c (hsymbols c hc)).toNat_lt
          simp only [grouped_of_isAscii hascii, ok_bind]

/-- **The random branch panics** on a body of the expected bytes that ends in a
symbol of several. -/
theorem normalizeRandom_panics_iff {reference : PortReferenceDefinition} {body : Text} :
    normalizeRandom reference body = .error .panicked ↔
      utf8Length body = profileLength reference.profile + 1 ∧ EndsInLongSymbol body := by
  rw [normalizeRandom_eq, Identifold.normalizeRandom, ensure_bind_panicked_iff]
  refine and_congr_right fun hlen => ?_
  by_cases hlong : EndsInLongSymbol body
  · rw [splitAtByte_of_endsInLongSymbol hlen hlong]
    exact iff_of_true rfl hlong
  · obtain ⟨payload, c, -, hsplit⟩ := splitAtByte_of_not_endsInLongSymbol hlen hlong
    rw [hsplit]
    refine iff_of_false ?_ hlong
    simp only
    split
    · exact throw_ne_panicked
    · rw [ensure_bind_panicked_iff]
      exact fun h => pure_ne_panicked h.2

/-! ## sequential references -/

/-- The bytes of a sequential body, without overflow. -/
def bodyLength (reference : PortReferenceDefinition) : Nat :=
  scopeLength reference + reference.width + 1

/-- Digits with their check symbol. -/
def SpellsSequence (body : Text) : Prop :=
  ∃ payload c, body = payload ++ [c] ∧ checkSymbolOf payload true = some c

/-- The first namespace of the name pads sequences to a width that `format!`
refuses. -/
def WidthRefused (build : Build) (registry : List PortNamespaceDefinition) (name : Text)
    (width : Nat) : Prop :=
  ∃ item r limit, findNamespace registry name = some item ∧ item.reference = some r ∧
    r.strategy = "sequence" ∧ width ≤ r.width ∧ build.formatWidthLimit = some limit ∧
    limit < r.width

/-- Where the sequential branch panics: the last symbol of a body of the
expected bytes has several of them, or the width is refused; and where the
length overflows, at once or, when sums wrap, on a body of the wrapped length. -/
def SequencePanics (build : Build) (registry : List PortNamespaceDefinition) (name : Text)
    (reference : PortReferenceDefinition) (body : Text) : Prop :=
  if bodyLength reference < 2 ^ build.pointerBits then
    utf8Length body = bodyLength reference ∧
      (EndsInLongSymbol body ∨
        SpellsSequence body ∧ WidthRefused build registry name reference.width)
  else
    build.overflowChecks = true ∨
      utf8Length body + 2 ^ build.pointerBits = bodyLength reference ∧
        (body = [] ∨ EndsInLongSymbol body ∨ SpellsSequence body)

section Sequence

variable {build : Build} {registry : List PortNamespaceDefinition} {name body : Text}
  {reference : PortReferenceDefinition}

/-- A scope has at most four symbols. -/
theorem scopeLength_le (reference : PortReferenceDefinition) : scopeLength reference ≤ 4 := by
  unfold scopeLength
  split <;> decide

/-- The two sums of the length, in one. -/
theorem add_add_one (hwidth : reference.width < 2 ^ build.pointerBits) :
    (build.add (scopeLength reference) reference.width >>= fun n => build.add n 1) =
      if bodyLength reference < 2 ^ build.pointerBits then .ok (bodyLength reference)
      else if build.overflowChecks then .error .panicked
      else .ok (bodyLength reference - 2 ^ build.pointerBits) := by
  have hscope := scopeLength_le reference
  have hsize : 2 ^ 16 ≤ 2 ^ build.pointerBits :=
    Nat.pow_le_pow_right (by decide) build.pointerBits_ge
  unfold Build.add bodyLength
  by_cases hfirst : scopeLength reference + reference.width < 2 ^ build.pointerBits
  · rw [if_pos hfirst, ok_bind]
    by_cases hsecond : scopeLength reference + reference.width + 1 < 2 ^ build.pointerBits
    · rw [if_pos hsecond, if_pos hsecond]
    · have hexact : scopeLength reference + reference.width + 1 = 2 ^ build.pointerBits := by omega
      rw [if_neg hsecond, if_neg hsecond, hexact, Nat.mod_self, Nat.sub_self]
  · have hover : ¬ scopeLength reference + reference.width + 1 < 2 ^ build.pointerBits := by omega
    rw [if_neg hfirst, if_neg hover]
    cases build.overflowChecks with
    | true => rfl
    | false =>
        have hwrapped : (scopeLength reference + reference.width) % 2 ^ build.pointerBits =
            scopeLength reference + reference.width - 2 ^ build.pointerBits := by
          rw [Nat.mod_eq_sub_mod (by omega), Nat.mod_eq_of_lt (by omega)]
        have hsmall : scopeLength reference + reference.width - 2 ^ build.pointerBits + 1 <
            2 ^ build.pointerBits := by
          omega
        rw [if_neg Bool.false_ne_true, ok_bind, hwrapped, if_pos hsmall, if_neg Bool.false_ne_true]
        congr 1
        omega

/-- A payload that has a check symbol consists of digits. -/
theorem isAscii_of_checkSymbolOf {payload : Text} {c : Char}
    (h : checkSymbolOf payload true = some c) : IsAscii payload := fun d hd =>
  toNat_lt_of_isDigit ((checkSymbolOf_sequence_iff.mp h).1 d hd)

/-- The cut panics, or what follows it on a body with the right symbol. -/
theorem checkSequence_panics_iff {n : Nat} (hlen : utf8Length body = n + 1)
    (format : Text → Except Failure Text) :
    checkSequence body n format = .error .panicked ↔
      EndsInLongSymbol body ∨ ∃ payload c, body = payload ++ [c] ∧
        checkSymbolOf payload true = some c ∧ format payload = .error .panicked := by
  rw [checkSequence, splitAt]
  by_cases hlong : EndsInLongSymbol body
  · rw [splitAtByte_of_endsInLongSymbol hlen hlong]
    exact iff_of_true rfl (.inl hlong)
  · obtain ⟨payload, c, rfl, hsplit⟩ := splitAtByte_of_not_endsInLongSymbol hlen hlong
    rw [hsplit, ok_bind]
    simp only [hlong, false_or]
    cases hcheck : checkSymbolOf payload true with
    | none =>
        refine iff_of_false throw_ne_panicked ?_
        rintro ⟨payload', c', heq, hsome, -⟩
        rw [← (List.append_inj' heq rfl).1, hcheck] at hsome
        contradiction
    | some expected =>
        simp only
        rw [ensure_bind_panicked_iff]
        constructor
        · rintro ⟨heq, hf⟩
          rw [List.singleton_inj.mp heq]
          exact ⟨payload, expected, rfl, hcheck, hf⟩
        · rintro ⟨payload', c', heq, hsome, hf⟩
          obtain ⟨rfl, hc⟩ := List.append_inj' heq rfl
          rw [hcheck] at hsome
          rw [hc, Option.some.inj hsome]
          exact ⟨rfl, hf⟩

/-- What `format!` refuses. -/
theorem padLeft_cases (build : Build) (width : Nat) (v : Text) :
    (build.padLeft width v = .ok (padStart width v) ∧
        ¬ ∃ limit, build.formatWidthLimit = some limit ∧ limit < width) ∨
      build.padLeft width v = .error .panicked ∧
        ∃ limit, build.formatWidthLimit = some limit ∧ limit < width := by
  unfold Build.padLeft
  split
  · next h => exact .inl ⟨rfl, by simpa using h⟩
  · next h => exact .inr ⟨rfl, by simpa using h⟩

/-- On digits the formatter panics exactly where the width is refused. -/
theorem formatSequentialReference_panics_iff {sequence scope : Text}
    (hdigits : ∀ c ∈ sequence, c.isDigit = true) :
    formatSequentialReference build registry name sequence scope = .error .panicked ↔
      WidthRefused build registry name sequence.length := by
  have hascii : IsAscii sequence := fun c hc => toNat_lt_of_isDigit (hdigits c hc)
  unfold formatSequentialReference
  cases hfound : findNamespace registry name with
  | none =>
      refine iff_of_false throw_ne_panicked ?_
      rintro ⟨item, r, limit, hitem, -⟩
      rw [hfound] at hitem
      contradiction
  | some item =>
      obtain ⟨publicPrefix, reference⟩ := item
      cases reference with
      | none =>
          refine iff_of_false throw_ne_panicked ?_
          rintro ⟨item, r, limit, hitem, hr, -⟩
          rw [hfound] at hitem
          cases hitem
          contradiction
      | some r =>
          have hrefused : WidthRefused build registry name sequence.length ↔
              r.strategy = "sequence" ∧ sequence.length ≤ r.width ∧
                ∃ limit, build.formatWidthLimit = some limit ∧ limit < r.width := by
            simp only [WidthRefused, hfound, Option.some.injEq, exists_and_left, exists_eq_left']
          rw [hrefused, utf8Length_of_isAscii hascii]
          simp only
          split
          · next hstrategy =>
              rw [ensure_bind_panicked_iff, and_iff_left hdigits, and_iff_right hstrategy]
              refine and_congr_right fun _ => ?_
              rcases padLeft_cases build r.width sequence with ⟨hpad, hfits⟩ | ⟨hpad, hlimit⟩
              · refine iff_of_false ?_ hfits
                rw [hpad, ok_bind]
                split
                · exact throw_ne_panicked
                · split
                  · exact pure_ne_panicked
                  · exact pure_ne_panicked
              · rw [hpad]
                exact iff_of_true rfl hlimit
          · next hstrategy => exact iff_of_false throw_ne_panicked fun h => hstrategy h.1

/-- The slices of a payload that is long enough. -/
theorem formatPayload_panics_iff {payload : Text} {c : Char}
    (hcheck : checkSymbolOf payload true = some c) (hlen : scopeLength reference ≤ payload.length) :
    formatPayload build registry name reference payload = .error .panicked ↔
      WidthRefused build registry name (payload.length - scopeLength reference) := by
  have hdigits : ∀ d ∈ payload.drop (scopeLength reference), d.isDigit = true := fun d hd =>
    (checkSymbolOf_sequence_iff.mp hcheck).1 d (List.mem_of_mem_drop hd)
  have hascii := isAscii_of_checkSymbolOf hcheck
  rw [formatPayload, sliceFrom_of_isAscii hascii hlen, ok_bind, sliceTo_of_isAscii hascii hlen,
    ok_bind, formatSequentialReference_panics_iff hdigits, List.length_drop]

/-- A payload shorter than its scope is sliced out of bounds. -/
theorem formatPayload_of_lt {payload : Text} {c : Char}
    (hcheck : checkSymbolOf payload true = some c) (hlen : payload.length < scopeLength reference) :
    formatPayload build registry name reference payload = .error .panicked := by
  rw [← utf8Length_of_isAscii (isAscii_of_checkSymbolOf hcheck)] at hlen
  rw [formatPayload, sliceFrom, splitAt_of_gt hlen]
  rfl

/-- The bytes of a body that spells a sequence. -/
theorem utf8Length_of_checkSymbolOf {payload : Text} {c : Char}
    (hcheck : checkSymbolOf payload true = some c) :
    utf8Length (payload ++ [c]) = payload.length + 1 := by
  have hmem : c ∈ checkAlphabet := by
    simp only [checkSymbolOf] at hcheck
    split at hcheck
    · exact List.mem_of_getElem? hcheck
    · contradiction
  have hc := (isReferenceSymbol_of_mem_checkAlphabet c hmem).toNat_lt
  rw [utf8Length_append, utf8Length_of_isAscii (isAscii_of_checkSymbolOf hcheck), utf8Length_cons,
    utf8Size_of_ascii hc, utf8Length_nil]

/-- The cut of a body of the expected bytes. -/
theorem checkSequence_panics_of_fits (hlen : utf8Length body = bodyLength reference) :
    checkSequence body (scopeLength reference + reference.width)
        (formatPayload build registry name reference) = .error .panicked ↔
      EndsInLongSymbol body ∨
        SpellsSequence body ∧ WidthRefused build registry name reference.width := by
  rw [checkSequence_panics_iff hlen]
  refine or_congr_right ?_
  constructor
  · rintro ⟨payload, c, rfl, hcheck, hformat⟩
    rw [utf8Length_of_checkSymbolOf hcheck, bodyLength] at hlen
    have hrest : payload.length - scopeLength reference = reference.width := by omega
    rw [formatPayload_panics_iff hcheck (by omega), hrest] at hformat
    exact ⟨⟨payload, c, rfl, hcheck⟩, hformat⟩
  · rintro ⟨⟨payload, c, rfl, hcheck⟩, hrefused⟩
    rw [utf8Length_of_checkSymbolOf hcheck, bodyLength] at hlen
    have hrest : payload.length - scopeLength reference = reference.width := by omega
    refine ⟨payload, c, rfl, hcheck, ?_⟩
    rwa [formatPayload_panics_iff hcheck (by omega), hrest]

/-- The cut of a body of the wrapped length, which leaves no room for the
scope. -/
theorem checkSequence_panics_of_wrapped (hwidth : reference.width < 2 ^ build.pointerBits) {n : Nat}
    (hn : utf8Length body = n + 1)
    (hlen : utf8Length body + 2 ^ build.pointerBits = bodyLength reference) :
    checkSequence body n (formatPayload build registry name reference) = .error .panicked ↔
      EndsInLongSymbol body ∨ SpellsSequence body := by
  rw [checkSequence_panics_iff hn]
  refine or_congr_right ?_
  constructor
  · rintro ⟨payload, c, heq, hcheck, -⟩
    exact ⟨payload, c, heq, hcheck⟩
  · rintro ⟨payload, c, heq, hcheck⟩
    have hscope := scopeLength_le reference
    rw [heq, utf8Length_of_checkSymbolOf hcheck, bodyLength] at hlen
    exact ⟨payload, c, heq, hcheck, formatPayload_of_lt hcheck (by omega)⟩

/-- **Where the sequential branch panics.** -/
theorem normalizeSequence_panics_iff (hwidth : reference.width < 2 ^ build.pointerBits) :
    normalizeSequence build registry name reference body = .error .panicked ↔
      SequencePanics build registry name reference body := by
  -- the two sums come first, and overflow before the body is looked at
  have hsums : normalizeSequence build registry name reference body =
      (build.add (scopeLength reference) reference.width >>= fun n => build.add n 1) >>=
        fun length => ensure (utf8Length body = length) (.error .invalidRefLength) >>= fun _ =>
          build.sub (utf8Length body) 1 >>= fun last =>
            checkSequence body last (formatPayload build registry name reference) := by
    rw [normalizeSequence, bind_assoc]
  rw [hsums, add_add_one hwidth, SequencePanics]
  split
  · rw [ok_bind, ensure_bind_panicked_iff]
    refine and_congr_right fun hlen => ?_
    have hlast : build.sub (utf8Length body) 1 = .ok (scopeLength reference + reference.width) := by
      rw [Build.sub, hlen, bodyLength, if_pos (by omega), Nat.add_sub_cancel]
    rw [hlast, ok_bind, checkSequence_panics_of_fits hlen]
  · next hover =>
      cases hchecks : build.overflowChecks with
      | true => exact iff_of_true rfl (.inl rfl)
      | false =>
          have hwrapped : utf8Length body = bodyLength reference - 2 ^ build.pointerBits ↔
              utf8Length body + 2 ^ build.pointerBits = bodyLength reference := by
            omega
          rw [if_neg Bool.false_ne_true, ok_bind, ensure_bind_panicked_iff, hwrapped]
          simp only [Bool.false_eq_true, false_or]
          refine and_congr_right fun hlen => ?_
          cases body with
          | nil =>
              -- the empty body has no last byte: the difference wraps, and the split panics
              have hlast : build.sub (utf8Length []) 1 = .ok (2 ^ build.pointerBits - 1) := by
                rw [Build.sub, utf8Length_nil, if_neg (by decide), hchecks]
                rfl
              rw [hlast, ok_bind, checkSequence, splitAt_of_gt]
              · exact iff_of_true rfl (.inl rfl)
              · have hsize : 2 ^ 16 ≤ 2 ^ build.pointerBits :=
                  Nat.pow_le_pow_right (by decide) build.pointerBits_ge
                rw [utf8Length_nil]
                omega
          | cons d rest =>
              obtain ⟨n, hn⟩ : ∃ n, utf8Length (d :: rest) = n + 1 := by
                have hpos := d.utf8Size_pos
                exact ⟨utf8Length (d :: rest) - 1, by rw [utf8Length_cons]; omega⟩
              have hlast : build.sub (utf8Length (d :: rest)) 1 = .ok n := by
                rw [Build.sub, hn, if_pos (by omega), Nat.add_sub_cancel]
              rw [hlast, ok_bind, checkSequence_panics_of_wrapped hwidth hn hlen]
              simp only [reduceCtorEq, false_or]

end Sequence

/-! ## `normalize` -/

/-- The value is taken for a reference of the definition `name`, with `body`
behind its prefix. -/
def ReadsReference (value : Text) (registry : List PortNamespaceDefinition) (name : Text)
    (reference : PortReferenceDefinition) (body : Text) : Prop :=
  '_' ∉ value ∧ utf8Length value ≠ 36 ∧
    (registry.find? fun item =>
      item.reference.any (·.refPrefix.isPrefixOf (strip '-' (asciiUpper value)))) =
        some ⟨name, some reference⟩ ∧
    strip '-' (asciiUpper value) = reference.refPrefix ++ body ∧ '?' ∉ body

/-- Where `normalize` panics. -/
def NormalizePanics (build : Build) (value : Text) (registry : List PortNamespaceDefinition) : Prop :=
  ∃ name reference body, ReadsReference value registry name reference body ∧
    if reference.strategy = "sequence" then SequencePanics build registry name reference body
    else utf8Length body = profileLength reference.profile + 1 ∧ EndsInLongSymbol body

/-- The call returns `Ok` or `Err`. -/
def Returns {α : Type} (x : Except Failure α) : Prop :=
  ∃ outcome : Except IdentifoldErrorCode α, x = outcome.mapError Failure.error

section Normalize

variable {build : Build} {registry : List PortNamespaceDefinition} {value : Text}

/-- A function returns when it does not panic. -/
theorem returns_iff {α : Type} {x : Except Failure α} : Returns x ↔ x ≠ .error .panicked := by
  constructor
  · rintro ⟨outcome, rfl⟩
    cases outcome with
    | ok a => nofun
    | error code => nofun
  · intro h
    cases x with
    | ok a => exact ⟨.ok a, rfl⟩
    | error failure =>
        cases failure with
        | error code => exact ⟨.error code, rfl⟩
        | panicked => contradiction

/-- The body behind a prefix that was found. -/
theorem normalizeCompact_eq {missing : Failure} {name compact body : Text}
    {reference : PortReferenceDefinition}
    (hfound : (registry.find? fun item => item.reference.any (·.refPrefix.isPrefixOf compact)) =
      some ⟨name, some reference⟩) (hbody : compact = reference.refPrefix ++ body) :
    normalizeCompact build registry missing compact =
      ensure ('?' ∉ body ∧ '_' ∉ body) (.error .invalidRef) >>= fun _ =>
        if reference.strategy = "sequence" then normalizeSequence build registry name reference body
        else normalizeRandom reference body := by
  rw [normalizeCompact, hfound]
  simp only
  rw [hbody, sliceFrom_append, ok_bind]

/-- A definition that is found has a prefix that begins the text. -/
theorem exists_reference_of_find {compact : Text} {item : PortNamespaceDefinition}
    (hfound : (registry.find? fun item => item.reference.any (·.refPrefix.isPrefixOf compact)) =
      some item) :
    ∃ reference body, item.reference = some reference ∧ compact = reference.refPrefix ++ body := by
  have hany := List.find?_some hfound
  obtain ⟨reference, href, hpre⟩ := (Option.any_eq_true _ _).mp hany
  obtain ⟨body, hbody⟩ := List.isPrefixOf_iff_prefix.mp hpre
  exact ⟨reference, body, href, hbody.symm⟩

/-- A body has no underscore if the text has none. -/
theorem underscore_not_mem_body {body : Text} {reference : PortReferenceDefinition}
    (hvalue : '_' ∉ value) (hbody : strip '-' (asciiUpper value) = reference.refPrefix ++ body) :
    '_' ∉ body := by
  intro hmem
  have hcompact : '_' ∈ strip '-' (asciiUpper value) := by
    rw [hbody]
    exact List.mem_append_right _ hmem
  obtain ⟨c, hc, heq⟩ := List.mem_map.mp (mem_of_mem_strip hcompact)
  rw [(toUpper_eq_iff (by decide)).mp heq] at hc
  exact hvalue hc

/-- **Where `normalize` panics.** -/
theorem normalize_panics_iff
    (hwidths : ∀ item ∈ registry, ∀ r ∈ item.reference, r.width < 2 ^ build.pointerBits) :
    normalize build value registry = .error .panicked ↔ NormalizePanics build value registry := by
  unfold normalize NormalizePanics ReadsReference
  by_cases hunderscore : '_' ∈ value
  · -- a public identifier
    rw [if_pos hunderscore, parsePublicId_eq]
    refine iff_of_false (fun hpanic => ?_) (by rintro ⟨_, _, _, h, _⟩; exact h.1 hunderscore)
    cases hparsed : Rust.parsePublicId value with
    | error failure =>
        rw [hparsed, error_bind, Except.error.injEq] at hpanic
        exact parsePublicId_ne_panicked value (hpanic ▸ hparsed)
    | ok parsed =>
        rw [hparsed, ok_bind, ensure_bind_panicked_iff] at hpanic
        exact nomatch hpanic.2
  · rw [if_neg hunderscore]
    by_cases hlen : utf8Length value = 36
    · -- a machine identifier
      rw [if_pos hlen, parseMachineId_eq]
      refine iff_of_false (parseMachineId_ne_panicked value) ?_
      rintro ⟨_, _, _, h, _⟩
      exact h.2.1 hlen
    · rw [if_neg hlen]
      -- a reference: the first namespace whose prefix it begins with
      cases hfound : registry.find? fun item =>
          item.reference.any (·.refPrefix.isPrefixOf (strip '-' (asciiUpper value))) with
      | none =>
          rw [normalizeCompact, hfound]
          refine iff_of_false nofun ?_
          rintro ⟨_, _, _, ⟨-, -, hsome, -⟩, -⟩
          contradiction
      | some item =>
          obtain ⟨reference, body, href, hbody⟩ := exists_reference_of_find hfound
          obtain ⟨name, reference⟩ := item
          cases href
          have hbranch : (if reference.strategy = "sequence" then
                normalizeSequence build registry name reference body
              else normalizeRandom reference body) = .error .panicked ↔
              if reference.strategy = "sequence" then
                SequencePanics build registry name reference body
              else utf8Length body = profileLength reference.profile + 1 ∧ EndsInLongSymbol body := by
            split
            · exact normalizeSequence_panics_iff
                (hwidths _ (List.mem_of_find?_eq_some hfound) reference rfl)
            · exact normalizeRandom_panics_iff
          rw [normalizeCompact_eq hfound hbody, ensure_bind_panicked_iff, hbranch]
          constructor
          · rintro ⟨⟨hquestion, -⟩, hpanics⟩
            exact ⟨name, reference, body, ⟨hunderscore, hlen, rfl, hbody, hquestion⟩, hpanics⟩
          · rintro ⟨_, _, body', ⟨-, -, hsame, hbody', hquestion⟩, hpanics⟩
            cases hsame
            have hrest : body' = body := List.append_cancel_left (hbody'.symm.trans hbody)
            subst hrest
            exact ⟨⟨hquestion, underscore_not_mem_body hunderscore hbody'⟩, hpanics⟩

/-- **Where `normalize` returns**: exactly outside `NormalizePanics`. -/
theorem normalize_returns_iff
    (hwidths : ∀ item ∈ registry, ∀ r ∈ item.reference, r.width < 2 ^ build.pointerBits) :
    Returns (normalize build value registry) ↔ ¬ NormalizePanics build value registry := by
  rw [returns_iff, Ne, normalize_panics_iff hwidths]

end Normalize

/-! ## the port's model -/

/-- No length overflows and no width is refused. -/
def WidthsFit (build : Build) (registry : List PortNamespaceDefinition) : Prop :=
  ∀ item ∈ registry, ∀ r ∈ item.reference,
    bodyLength r < 2 ^ build.pointerBits ∧ ∀ limit ∈ build.formatWidthLimit, r.width ≤ limit

section Model

variable {build : Build} {registry : List PortNamespaceDefinition}

/-- Where the widths fit, the formatter is the one without panics. -/
theorem formatSequentialReference_eq (hfits : WidthsFit build registry)
    (name sequence scope : Text) :
    formatSequentialReference build registry name sequence scope =
      Rust.formatSequentialReference registry name sequence scope := by
  rw [formatSequentialReference, Rust.formatSequentialReference, formatSequential]
  cases hfound : findNamespace registry name with
  | none => rfl
  | some item =>
      obtain ⟨publicPrefix, reference⟩ := item
      cases reference with
      | none => rfl
      | some r =>
          have hlimit := (hfits _ (List.mem_of_find?_eq_some hfound) r rfl).2
          dsimp only
          split
          · by_cases hvalid : utf8Length sequence ≤ r.width ∧ ∀ c ∈ sequence, c.isDigit = true
            · have hbytes := utf8Length_of_isAscii (isAscii_of_isDigit hvalid.2)
              have hpad : padBytes r.width sequence = padStart r.width sequence := by
                rw [padBytes, hbytes, padStart]
              rw [ensure_of hvalid, ensure_of ⟨hvalid.1, fun _ => hvalid.2⟩, ok_bind, ok_bind,
                Build.padLeft, if_pos hlimit, ok_bind, hpad, writtenCheckSymbol]
              cases checkSymbolOf (scope ++ padStart r.width sequence) true <;> rfl
            · rw [ensure_of_not hvalid, ensure_of_not fun h => hvalid ⟨h.1, h.2 rfl⟩, error_bind,
                error_bind]
          · rfl

/-- Where the body fits as well, so is the normalizer of sequences. -/
theorem normalizeSequence_eq (hfits : WidthsFit build registry) (name : Text)
    {reference : PortReferenceDefinition} (hlength : bodyLength reference < 2 ^ build.pointerBits)
    (body : Text) : normalizeSequence build registry name reference body =
      Identifold.normalizeSequence Failure.error .panicked true registry name reference body := by
  have hpayload : build.add (scopeLength reference) reference.width =
      .ok (scopeLength reference + reference.width) := by
    rw [bodyLength] at hlength
    rw [Build.add, if_pos (by omega)]
  have hbody : build.add (scopeLength reference + reference.width) 1 = .ok (bodyLength reference) :=
    if_pos hlength
  rw [normalizeSequence, Identifold.normalizeSequence, hpayload, ok_bind, hbody, ok_bind]
  by_cases hlen : utf8Length body = bodyLength reference
  · have hmodel : utf8Length body =
        (if reference.scope = "calendar-year" then 4 else 0) + reference.width + 1 := hlen
    have hlast : build.sub (utf8Length body) 1 = .ok (utf8Length body - 1) := by
      rw [Build.sub, hlen, bodyLength, if_pos (by omega)]
    rw [ensure_of hlen, ensure_of hmodel, ok_bind, ok_bind, hlast, ok_bind, checkSequence, splitAt]
    cases hsplit : splitAtByte (utf8Length body - 1) body with
    | none => rfl
    | some parts =>
        obtain ⟨payload, supplied⟩ := parts
        rw [ok_bind]
        simp only
        cases hcheck : checkSymbolOf payload true with
        | none => rfl
        | some expected =>
            simp only
            by_cases hsupplied : supplied = [expected]
            · obtain ⟨rfl, -⟩ := splitAtByte_eq_some_iff.mp hsplit
              have hascii := isAscii_of_checkSymbolOf hcheck
              rw [hsupplied, utf8Length_of_checkSymbolOf hcheck, bodyLength] at hlen
              have hscope : scopeLength reference ≤ payload.length := by omega
              rw [ensure_of hsupplied, ok_bind, ok_bind, formatPayload,
                sliceFrom_of_isAscii hascii hscope, ok_bind, sliceTo_of_isAscii hascii hscope,
                ok_bind, formatSequentialReference_eq hfits]
              rfl
            · rw [ensure_of_not hsupplied, error_bind, error_bind]
  · have hmodel : ¬ utf8Length body =
        (if reference.scope = "calendar-year" then 4 else 0) + reference.width + 1 := hlen
    rw [ensure_of_not hlen, ensure_of_not hmodel, error_bind, error_bind]

/-- **The model of the port**: where the widths fit, `normalize` with all its
panics is the port's `normalize`. -/
theorem normalize_eq (hfits : WidthsFit build registry) (value : Text) :
    normalize build value registry = Rust.normalize value registry := by
  rw [normalize, Rust.normalize, parsePublicId_eq, parseMachineId_eq]
  split
  · rfl
  · split
    · rfl
    · cases hfound : registry.find? fun item =>
          item.reference.any (·.refPrefix.isPrefixOf (strip '-' (asciiUpper value))) with
      | none => rw [normalizeCompact, Identifold.normalizeCompact, hfound]
      | some item =>
          obtain ⟨reference, body, href, hbody⟩ := exists_reference_of_find hfound
          obtain ⟨name, reference⟩ := item
          cases href
          have hlength := (hfits _ (List.mem_of_find?_eq_some hfound) reference rfl).1
          have hdrop : (strip '-' (asciiUpper value)).drop reference.refPrefix.length = body := by
            rw [hbody, List.drop_left]
          rw [normalizeCompact_eq hfound hbody, Identifold.normalizeCompact, hfound]
          simp only [hdrop, normalizeSequence_eq hfits name hlength, normalizeRandom_eq]

end Model

/-! ## two registries -/

/-- A release build for 64 bits. -/
def releaseBuild : Build := ⟨64, false, some 65535, by decide⟩

/-- A registry with one random reference. -/
def invoiceRegistry : List PortNamespaceDefinition :=
  [⟨"invoice".toList, some ⟨"INV".toList, "compact", "random", "", 0⟩⟩]

/-- On a reference that the registry reads the call returns: its body is ASCII. -/
theorem normalize_returns_reference :
    Returns (normalize releaseBuild "inv-0000-0000-0".toList invoiceRegistry) := by
  refine (normalize_returns_iff (by simp [invoiceRegistry, releaseBuild])).mpr ?_
  rintro ⟨name, reference, body, ⟨-, -, hfound, hbody, -⟩, hpanics⟩
  obtain rfl : ⟨"INV".toList, "compact", "random", "", 0⟩ = reference := by
    have hitem : some (PortNamespaceDefinition.mk "invoice".toList
        (some ⟨"INV".toList, "compact", "random", "", 0⟩)) = some ⟨name, some reference⟩ := hfound
    exact Option.some.inj (PortNamespaceDefinition.mk.inj (Option.some.inj hitem)).2
  obtain rfl : "000000000".toList = body := congrArg (List.drop 3) hbody
  rw [if_neg (by decide)] at hpanics
  exact absurd hpanics.2 (by decide)

/-- A body of nine bytes that ends in a symbol of two. -/
theorem normalize_panics_on_long_symbol :
    (∀ item ∈ invoiceRegistry, ∀ r ∈ item.reference, IsAscii r.refPrefix) ∧
      ¬ Returns (normalize releaseBuild "INV0000000é".toList invoiceRegistry) := by
  refine ⟨by simp [invoiceRegistry, IsAscii], ?_⟩
  rw [returns_iff, not_not, normalize_panics_iff (by simp [invoiceRegistry, releaseBuild])]
  refine ⟨"invoice".toList, ⟨"INV".toList, "compact", "random", "", 0⟩, "0000000é".toList,
    ⟨by decide, by decide, by decide, by decide, by decide⟩, ?_⟩
  rw [if_neg (by decide)]
  decide

end Checked

end Rust

end Identifold
