import Identifold.Lib.Pattern
import Identifold.Storage.PostgresFunction
import Identifold.Storage.SqlStorage
import Identifold.Utf8

/-!
# Identifold.Storage.SequentialSplit

How `resolve` takes a sequential reference apart, in four places: the pattern
of the TypeScript adapters (`packages/typescript/src/sql-storage.ts`), the two
patterns of the PostgreSQL function
(`integrations/postgres/migrations/004_reference_lookup.up.sql`) and the
splitters of the Rust and Go adapters (`packages/rust/src/storage/sqlite.rs`,
`packages/go/storage/mysql/mysql.go`).

All of them read fields between hyphens, a `SplitReference`.  The patterns
spell the `Strict` ones and the splitters take the `Loose` ones, and a text is
that of one loose split at most.  Hence the four agree on a text unless it
splits loosely and not strictly: with a scope field that is empty, or a check
symbol outside the check alphabet.
-/

namespace Identifold

open Separated

/-! ## the patterns -/

/-- `[0-9A-Z*~$=U]`. -/
def isCheckSymbol (c : Char) : Bool := c.isDigit || c.isUpper || "*~$=".toList.contains c

/-- `-`. -/
def hyphenPattern : Pattern Char := .symbol (· == '-')

/-- `([A-Z]{2,8})-`. -/
def prefixPattern (rest : Pattern Char) : Pattern Char :=
  .seq (.capture 1 (.many Char.isUpper 2 8)) (.seq hyphenPattern rest)

/-- `([0-9]{4,18})-[0-9A-Z*~$=U]`, with the number of its group. -/
def numberPattern (index : ℕ) : Pattern Char :=
  .seq (.capture index (.many Char.isDigit 4 18)) (.seq hyphenPattern (.symbol isCheckSymbol))

/-- `([0-9]{4})-`. -/
def scopePattern : Pattern Char := .seq (.capture 2 (.many Char.isDigit 4 4)) hyphenPattern

namespace SqlStorage

/-- `/^([A-Z]{2,8})-(?:(\d{4})-)?(\d{4,18})-[0-9A-Z*~$=U]$/`. -/
def sequentialPattern : Pattern Char :=
  prefixPattern (.seq (.optional scopePattern) (numberPattern 3))

/-- `parseSequentialReference`. -/
def parseSequentialReference (reference : Text) : Option SequentialReferenceParts :=
  (sequentialPattern.exec reference).map fun groups =>
    { refPrefix := (groups.lookup 1).getD []
      scope := (groups.lookup 2).getD []
      sequence := Nat.ofDigitChars 10 ((groups.lookup 3).getD []) 0 }

end SqlStorage

namespace Postgres

/-- `'^([A-Z]{2,8})-([0-9]{4,18})-[0-9A-Z*~$=U]$'`. -/
def unscopedPattern : Pattern Char := prefixPattern (numberPattern 2)

/-- `'^([A-Z]{2,8})-([0-9]{4})-([0-9]{4,18})-[0-9A-Z*~$=U]$'`. -/
def scopedPattern : Pattern Char := prefixPattern (.seq scopePattern (numberPattern 3))

/-- `digits::bigint`. -/
def bigint (digits : Text) : Except PgError Nat := do
  ensure (Nat.ofDigitChars 10 digits 0 < 2 ^ 63) ⟨"22003", "value out of range for type bigint"⟩
  return Nat.ofDigitChars 10 digits 0

/-- `identifold_resolve_reference`, between its two queries: the prefix, scope and
sequence it looks up, if the reference matches. -/
def requestedParts (reference : Text) : Except PgError (Option SequentialReferenceParts) :=
  match unscopedPattern.exec reference with
  | some groups => do
      let sequence ← bigint ((groups.lookup 2).getD [])
      return some ⟨(groups.lookup 1).getD [], [], sequence⟩
  | none =>
      match scopedPattern.exec reference with
      | some groups => do
          let sequence ← bigint ((groups.lookup 3).getD [])
          return some ⟨(groups.lookup 1).getD [], (groups.lookup 2).getD [], sequence⟩
      | none => return none

end Postgres

/-! ## the splitters -/

/-- `asciiRange`. -/
def asciiRange (value : List UInt8) (minimum maximum : Char) : Bool :=
  value.all fun b => minimum.toUInt8 ≤ b && b ≤ maximum.toUInt8

/-- The tests of the splitters, on the bytes of the fields. -/
def fieldsAccepted (refPrefix scope sequence check : List UInt8) : Bool :=
  (2 ≤ refPrefix.length && refPrefix.length ≤ 8) && asciiRange refPrefix 'A' 'Z' &&
    (scope.isEmpty || scope.length = 4 && asciiRange scope '0' '9') &&
    (4 ≤ sequence.length && sequence.length ≤ 18) && asciiRange sequence '0' '9' &&
    check.length = 1

/-- `parse_sequential_reference`. -/
def Rust.parseSequentialReference (reference : Text) : Option (Text × Text × Text) :=
  let accepted refPrefix scope sequence check :=
    fieldsAccepted (utf8Bytes refPrefix) (utf8Bytes scope) (utf8Bytes sequence) (utf8Bytes check)
  match reference.splitOn '-' with
  | [refPrefix, sequence, check] =>
      if accepted refPrefix [] sequence check then some (refPrefix, [], sequence) else none
  | [refPrefix, scope, sequence, check] =>
      if accepted refPrefix scope sequence check then some (refPrefix, scope, sequence) else none
  | _ => none

/-- `parseSequentialReference`: strings are bytes. -/
def Go.parseSequentialReference (reference : List UInt8) :
    Option (List UInt8 × List UInt8 × List UInt8) :=
  match reference.splitOn '-'.toUInt8 with
  | [refPrefix, sequence, check] =>
      if fieldsAccepted refPrefix [] sequence check then some (refPrefix, [], sequence) else none
  | [refPrefix, scope, sequence, check] =>
      if fieldsAccepted refPrefix scope sequence check then some (refPrefix, scope, sequence)
      else none
  | _ => none

/-! ## classes -/

theorem toNat_lt_of_isCheckSymbol {c : Char} (h : isCheckSymbol c = true) : c.toNat < 128 := by
  simp only [isCheckSymbol, Bool.or_eq_true] at h
  rcases h with (hdigit | hupper) | hmark
  · exact toNat_lt_of_isDigit hdigit
  · exact toNat_lt_of_isUpper hupper
  · have hall : ∀ c ∈ "*~$=".toList, c.toNat < 128 := by decide
    exact hall c (by simpa using hmark)

theorem ne_hyphen_of_isCheckSymbol {c : Char} (h : isCheckSymbol c = true) : c ≠ '-' := by
  rintro rfl
  exact absurd h (by decide)

theorem hyphen_not_mem_digits {v : Text} (h : v.all Char.isDigit = true) : '-' ∉ v := fun hmem =>
  absurd (List.all_eq_true.mp h '-' hmem) (by decide)

theorem hyphen_not_mem_sequence {v : Text} (h : isSequenceDigits v = true) : '-' ∉ v :=
  hyphen_not_mem_digits (Bool.and_eq_true_iff.mp h).2

theorem hyphen_not_mem_fourDigits {v : Text} (h : isFourDigits v = true) : '-' ∉ v :=
  hyphen_not_mem_digits (Bool.and_eq_true_iff.mp h).2

/-! ## splits -/

/-- The fields of a reference, between its hyphens. -/
structure SplitReference where
  refPrefix : Text
  scope : Option Text
  sequence : Text
  check : Text

namespace SplitReference

/-- The fields in their order. -/
def groups (s : SplitReference) : List Text :=
  match s.scope with
  | none => [s.refPrefix, s.sequence, s.check]
  | some scope => [s.refPrefix, scope, s.sequence, s.check]

/-- The reference the fields are those of. -/
def text (s : SplitReference) : Text := join '-' s.groups

/-- What is looked up under the fields. -/
def parts (s : SplitReference) : SequentialReferenceParts :=
  ⟨s.refPrefix, s.scope.getD [], Nat.ofDigitChars 10 s.sequence 0⟩

/-- Fields of the sequential form, up to what a scope and a check symbol may be. -/
structure Fits (scopes : Text → Prop) (symbols : Char → Prop) (s : SplitReference) : Prop where
  refPrefix : isReferencePrefix s.refPrefix = true
  scope : ∀ scope ∈ s.scope, scopes scope
  sequence : isSequenceDigits s.sequence = true
  check : ∃ c, symbols c ∧ s.check = [c]

/-- The scope has four digits and the check symbol is in the check alphabet. -/
abbrev Strict : SplitReference → Prop :=
  Fits (fun scope => isFourDigits scope = true) (fun c => isCheckSymbol c = true)

/-- The scope has four digits or none, and the check symbol is one byte. -/
abbrev Loose : SplitReference → Prop :=
  Fits (fun scope => scope = [] ∨ isFourDigits scope = true) (fun c => c.toNat < 128 ∧ c ≠ '-')

/-- A reference without a scope has three groups. -/
@[simp] theorem text_unscoped (refPrefix sequence check : Text) :
    text ⟨refPrefix, none, sequence, check⟩ = refPrefix ++ '-' :: (sequence ++ '-' :: check) := by
  simp [text, groups, join]

/-- A reference with a scope has four. -/
@[simp] theorem text_scoped (refPrefix scope sequence check : Text) :
    text ⟨refPrefix, some scope, sequence, check⟩ =
      refPrefix ++ '-' :: (scope ++ '-' :: (sequence ++ '-' :: check)) := by
  simp [text, groups, join]

variable {s t : SplitReference}

/-- What a strict split asks for, a loose one does. -/
theorem Strict.loose (h : Strict s) : Loose s where
  refPrefix := h.refPrefix
  scope scope hscope := .inr (h.scope scope hscope)
  sequence := h.sequence
  check := by
    obtain ⟨c, hc, hcheck⟩ := h.check
    exact ⟨c, ⟨toNat_lt_of_isCheckSymbol hc, ne_hyphen_of_isCheckSymbol hc⟩, hcheck⟩

theorem Loose.not_mem_groups (h : Loose s) : ∀ g ∈ s.groups, '-' ∉ g := by
  have hpre : '-' ∉ s.refPrefix := hyphen_not_mem_refPrefix h.refPrefix
  have hsequence : '-' ∉ s.sequence := hyphen_not_mem_sequence h.sequence
  have hcheck : '-' ∉ s.check := by
    obtain ⟨c, ⟨-, hne⟩, hc⟩ := h.check
    rw [hc, List.mem_singleton]
    exact Ne.symm hne
  have hscope : ∀ scope ∈ s.scope, '-' ∉ scope := by
    intro scope hmem
    rcases h.scope scope hmem with rfl | hdigits
    · exact List.not_mem_nil
    · exact hyphen_not_mem_fourDigits hdigits
  unfold groups
  cases hs : s.scope with
  | none => simp [hpre, hsequence, hcheck]
  | some scope => simp [hpre, hscope scope hs, hsequence, hcheck]

/-- A reference is split into its groups. -/
theorem Loose.splitOn_text (h : Loose s) : s.text.splitOn '-' = s.groups := by
  have hne : s.groups ≠ [] := by
    unfold groups
    split <;> exact List.cons_ne_nil _ _
  exact splitOn_join h.not_mem_groups hne

/-- The groups determine the reference. -/
theorem groups_injective (h : s.groups = t.groups) : s = t := by
  obtain ⟨refPrefix, scope, sequence, check⟩ := s
  obtain ⟨refPrefix', scope', sequence', check'⟩ := t
  cases scope <;> cases scope' <;> simp_all [groups]

/-- A text splits in one way. -/
theorem Loose.text_inj (hs : Loose s) (ht : Loose t) (h : s.text = t.text) : s = t :=
  groups_injective (by rw [← hs.splitOn_text, ← ht.splitOn_text, h])

/-- Where the loose reading of a text is not a strict one. -/
theorem Loose.not_strict_iff (h : Loose s) :
    ¬ Strict s ↔ s.scope = some [] ∨ ∃ c, s.check = [c] ∧ isCheckSymbol c = false := by
  obtain ⟨k, -, hk⟩ := h.check
  constructor
  · intro hnot
    by_contra hother
    obtain ⟨hscope, hcheck⟩ := not_or.mp hother
    refine hnot ⟨h.refPrefix, fun scope hmem => ?_, h.sequence, k, ?_, hk⟩
    · exact (h.scope scope hmem).resolve_left fun hnil => hscope (hnil ▸ hmem)
    · by_contra hsymbol
      exact hcheck ⟨k, hk, by simpa using hsymbol⟩
  · rintro (hscope | ⟨c, hc, hsymbol⟩) hstrict
    · exact absurd (hstrict.scope [] hscope) (by decide)
    · obtain ⟨d, hd, hcheck⟩ := hstrict.check
      obtain rfl : c = d := by simpa [hc] using hcheck
      rw [hsymbol] at hd
      exact absurd hd (by decide)

end SplitReference

/-! ## what the patterns spell -/

/-- The first part of the pattern captures the prefix. -/
theorem prefixPattern_matches_iff (rest : Pattern Char) (r : Text) (captures : Pattern.Captures Char) :
    (prefixPattern rest).Matches r captures ↔
      ∃ p tail c, isReferencePrefix p = true ∧ rest.Matches tail c ∧ r = p ++ '-' :: tail ∧
        captures = (1, p) :: c := by
  simp only [prefixPattern, hyphenPattern, Pattern.Matches, isReferencePrefix, Bool.and_eq_true,
    decide_eq_true_eq, List.all_eq_true]
  constructor
  · rintro ⟨p, zs, _, _, ⟨_, ⟨⟨h2, h8, hall⟩, rfl⟩, rfl⟩, ⟨_, tail, _, c, ⟨⟨k, hk, rfl⟩, rfl⟩, htail,
      rfl, rfl⟩, rfl, rfl⟩
    obtain rfl : k = '-' := by simpa using hk
    exact ⟨p, tail, _, ⟨⟨h2, h8⟩, hall⟩, htail, rfl, rfl⟩
  · rintro ⟨p, tail, c, ⟨⟨h2, h8⟩, hall⟩, htail, rfl, rfl⟩
    exact ⟨p, _, _, c, ⟨[], ⟨⟨h2, h8, hall⟩, rfl⟩, rfl⟩,
      ⟨['-'], tail, [], c, ⟨⟨'-', rfl, rfl⟩, rfl⟩, htail, rfl, rfl⟩, rfl, rfl⟩

/-- The scope is captured when there is one. -/
theorem scopePattern_matches_iff (r : Text) (captures : Pattern.Captures Char) :
    scopePattern.Matches r captures ↔
      ∃ scope, isFourDigits scope = true ∧ r = scope ++ ['-'] ∧ captures = [(2, scope)] := by
  simp only [scopePattern, hyphenPattern, Pattern.Matches, isFourDigits, Bool.and_eq_true,
    decide_eq_true_eq, List.all_eq_true]
  constructor
  · rintro ⟨scope, _, _, _, ⟨_, ⟨⟨hge, hle, hall⟩, rfl⟩, rfl⟩, ⟨⟨k, hk, rfl⟩, rfl⟩, rfl, rfl⟩
    obtain rfl : k = '-' := by simpa using hk
    exact ⟨scope, ⟨by omega, hall⟩, rfl, rfl⟩
  · rintro ⟨scope, ⟨hlen, hall⟩, rfl, rfl⟩
    exact ⟨scope, ['-'], _, [], ⟨[], ⟨⟨by omega, by omega, hall⟩, rfl⟩, rfl⟩,
      ⟨⟨'-', rfl, rfl⟩, rfl⟩, rfl, rfl⟩

/-- The last part captures the sequence before its check symbol. -/
theorem numberPattern_matches_iff (index : ℕ) (r : Text) (captures : Pattern.Captures Char) :
    (numberPattern index).Matches r captures ↔
      ∃ sequence c, isSequenceDigits sequence = true ∧ isCheckSymbol c = true ∧
        r = sequence ++ ['-', c] ∧ captures = [(index, sequence)] := by
  simp only [numberPattern, hyphenPattern, Pattern.Matches, isSequenceDigits, Bool.and_eq_true,
    decide_eq_true_eq, List.all_eq_true]
  constructor
  · rintro ⟨sequence, _, _, _, ⟨_, ⟨⟨h4, h18, hall⟩, rfl⟩, rfl⟩, ⟨_, _, _, _, ⟨⟨k, hk, rfl⟩, rfl⟩,
      ⟨⟨c, hc, rfl⟩, rfl⟩, rfl, rfl⟩, rfl, rfl⟩
    obtain rfl : k = '-' := by simpa using hk
    exact ⟨sequence, c, ⟨⟨h4, h18⟩, hall⟩, hc, rfl, rfl⟩
  · rintro ⟨sequence, c, ⟨⟨h4, h18⟩, hall⟩, hc, rfl, rfl⟩
    exact ⟨sequence, _, _, [], ⟨[], ⟨⟨h4, h18, hall⟩, rfl⟩, rfl⟩,
      ⟨['-'], [c], [], [], ⟨⟨'-', rfl, rfl⟩, rfl⟩, ⟨⟨c, hc, rfl⟩, rfl⟩, rfl, rfl⟩, rfl, rfl⟩

/-- A pattern spells the texts of some splits, each captured in its way. -/
def Spells (pattern : Pattern Char) (splits : SplitReference → Prop)
    (captured : SplitReference → Pattern.Captures Char) : Prop :=
  ∀ r captures, pattern.Matches r captures ↔ ∃ s, splits s ∧ r = s.text ∧ captures = captured s

/-- The pattern of the SQL adapters spells the strict splits. -/
theorem SqlStorage.sequentialPattern_spells :
    Spells sequentialPattern SplitReference.Strict fun s =>
      (1, s.refPrefix) :: s.scope.toList.map (2, ·) ++ [(3, s.sequence)] := by
  intro r captures
  rw [sequentialPattern, prefixPattern_matches_iff]
  constructor
  · rintro ⟨p, _, _, hp, ⟨_, _, _, _, hscope, hnumber, rfl, rfl⟩, rfl, rfl⟩
    obtain ⟨sequence, c, hsequence, hc, rfl, rfl⟩ := (numberPattern_matches_iff 3 _ _).mp hnumber
    rcases hscope with hscope | ⟨rfl, rfl⟩
    · obtain ⟨scope, hdigits, rfl, rfl⟩ := (scopePattern_matches_iff _ _).mp hscope
      exact ⟨⟨p, some scope, sequence, [c]⟩, ⟨hp, by simpa using hdigits, hsequence, c, hc, rfl⟩,
        by simp, rfl⟩
    · exact ⟨⟨p, none, sequence, [c]⟩, ⟨hp, by simp, hsequence, c, hc, rfl⟩,
        by simp, rfl⟩
  · rintro ⟨⟨p, scope, sequence, check⟩, ⟨hp, hscope, hsequence, c, hc, rfl⟩, rfl, rfl⟩
    have hnumber := (numberPattern_matches_iff 3 _ _).mpr ⟨sequence, c, hsequence, hc, rfl, rfl⟩
    cases scope with
    | none =>
        exact ⟨p, _, _, hp, ⟨[], _, [], _, .inr ⟨rfl, rfl⟩, hnumber, rfl, rfl⟩,
          by simp, rfl⟩
    | some scope =>
        have hgroup := (scopePattern_matches_iff _ _).mpr ⟨scope, hscope scope rfl, rfl, rfl⟩
        exact ⟨p, _, _, hp, ⟨_, _, _, _, .inl hgroup, hnumber, rfl, rfl⟩,
          by simp, rfl⟩

/-- The first pattern of the PostgreSQL function spells those without a scope. -/
theorem Postgres.unscopedPattern_spells :
    Spells unscopedPattern (fun s => s.Strict ∧ s.scope = none) fun s =>
      [(1, s.refPrefix), (2, s.sequence)] := by
  intro r captures
  rw [unscopedPattern, prefixPattern_matches_iff]
  constructor
  · rintro ⟨p, _, _, hp, hnumber, rfl, rfl⟩
    obtain ⟨sequence, c, hsequence, hc, rfl, rfl⟩ := (numberPattern_matches_iff 2 _ _).mp hnumber
    exact ⟨⟨p, none, sequence, [c]⟩, ⟨⟨hp, by simp, hsequence, c, hc, rfl⟩, rfl⟩,
      by simp, rfl⟩
  · rintro ⟨⟨p, scope, sequence, check⟩, ⟨⟨hp, -, hsequence, c, hc, rfl⟩, rfl⟩, rfl, rfl⟩
    exact ⟨p, _, _, hp, (numberPattern_matches_iff 2 _ _).mpr ⟨sequence, c, hsequence, hc, rfl, rfl⟩,
      by simp, rfl⟩

/-- The second one spells those with a scope. -/
theorem Postgres.scopedPattern_spells :
    Spells scopedPattern (fun s => s.Strict ∧ s.scope ≠ none) fun s =>
      [(1, s.refPrefix), (2, s.scope.getD []), (3, s.sequence)] := by
  intro r captures
  rw [scopedPattern, prefixPattern_matches_iff]
  constructor
  · rintro ⟨p, _, _, hp, ⟨_, _, _, _, hscope, hnumber, rfl, rfl⟩, rfl, rfl⟩
    obtain ⟨sequence, c, hsequence, hc, rfl, rfl⟩ := (numberPattern_matches_iff 3 _ _).mp hnumber
    obtain ⟨scope, hdigits, rfl, rfl⟩ := (scopePattern_matches_iff _ _).mp hscope
    exact ⟨⟨p, some scope, sequence, [c]⟩,
      ⟨⟨hp, by simpa using hdigits, hsequence, c, hc, rfl⟩, Option.some_ne_none scope⟩,
      by simp, rfl⟩
  · rintro ⟨⟨p, _, sequence, check⟩, ⟨⟨hp, hscope, hsequence, c, hc, rfl⟩, hsome⟩, rfl, rfl⟩
    obtain ⟨scope, rfl⟩ := Option.ne_none_iff_exists'.mp hsome
    exact ⟨p, _, _, hp,
      ⟨_, _, _, _, (scopePattern_matches_iff _ _).mpr ⟨scope, hscope scope rfl, rfl, rfl⟩,
        (numberPattern_matches_iff 3 _ _).mpr ⟨sequence, c, hsequence, hc, rfl, rfl⟩, rfl, rfl⟩,
      by simp, rfl⟩

/-! ## what the patterns read -/

/-- A text splits in one way, so what the matcher finds first is all there is. -/
theorem Spells.exec_eq_some_iff {pattern : Pattern Char} {splits : SplitReference → Prop}
    {captured : SplitReference → Pattern.Captures Char} (h : Spells pattern splits captured)
    (hloose : ∀ s, splits s → s.Loose) (r : Text) (captures : Pattern.Captures Char) :
    pattern.exec r = some captures ↔ ∃ s, splits s ∧ r = s.text ∧ captures = captured s := by
  have hunique : ∀ c d, pattern.Matches r c → pattern.Matches r d → c = d := by
    intro c d hc hd
    obtain ⟨s, hs, rfl, rfl⟩ := (h r c).mp hc
    obtain ⟨t, ht, htext, rfl⟩ := (h _ d).mp hd
    rw [(hloose s hs).text_inj (hloose t ht) htext]
  rw [Pattern.exec_eq_some_iff hunique, h]

/-- A text that is not that of such a split is refused. -/
theorem Spells.exec_eq_none {pattern : Pattern Char} {splits : SplitReference → Prop}
    {captured : SplitReference → Pattern.Captures Char} (h : Spells pattern splits captured) {r : Text}
    (hr : ∀ s, splits s → r ≠ s.text) : pattern.exec r = none := by
  refine Pattern.exec_eq_none_iff.mpr fun captures hmatch => ?_
  obtain ⟨s, hs, htext, -⟩ := (h r captures).mp hmatch
  exact hr s hs htext

/-- The pattern of the SQL adapters reads the strict splits. -/
theorem SqlStorage.parseSequentialReference_eq_some_iff (r : Text)
    (parts : SequentialReferenceParts) :
    parseSequentialReference r = some parts ↔
      ∃ s : SplitReference, s.Strict ∧ r = s.text ∧ parts = s.parts := by
  have hread : ∀ s : SplitReference,
      (fun groups : Pattern.Captures Char =>
        (⟨(groups.lookup 1).getD [], (groups.lookup 2).getD [],
          Nat.ofDigitChars 10 ((groups.lookup 3).getD []) 0⟩ : SequentialReferenceParts))
        ((1, s.refPrefix) :: s.scope.toList.map (2, ·) ++ [(3, s.sequence)]) = s.parts := by
    rintro ⟨p, scope, sequence, check⟩
    cases scope <;> rfl
  rw [parseSequentialReference, Option.map_eq_some_iff]
  simp only [sequentialPattern_spells.exec_eq_some_iff fun _ hs => hs.loose]
  constructor
  · rintro ⟨_, ⟨s, hs, htext, rfl⟩, rfl⟩
    exact ⟨s, hs, htext, hread s⟩
  · rintro ⟨s, hs, htext, rfl⟩
    exact ⟨_, ⟨s, hs, htext, rfl⟩, hread s⟩

/-- One check character is one check symbol. -/
theorem isCheckCharacter_iff (v : Text) :
    isCheckCharacter v = true ↔ ∃ c, isCheckSymbol c = true ∧ v = [c] := by
  have hsymbol : ∀ c, (c.isDigit || c.isUpper || decide (c ∈ "*~$=".toList)) = isCheckSymbol c := by
    intro c
    rw [isCheckSymbol, List.contains_eq_mem]
  simp only [isCheckCharacter, hsymbol, Bool.and_eq_true, decide_eq_true_eq, List.length_eq_one_iff]
  constructor
  · rintro ⟨⟨c, rfl⟩, hall⟩
    exact ⟨c, by simpa using hall, rfl⟩
  · rintro ⟨c, hc, rfl⟩
    exact ⟨⟨c, rfl⟩, by simpa using hc⟩

/-- The pattern reads what its reading between the hyphens does. -/
theorem SqlStorage.parseSequentialReference_eq (r : Text) :
    SqlStorage.parseSequentialReference r = splitSequentialReference r := by
  apply Option.ext
  intro parts
  rw [SqlStorage.parseSequentialReference_eq_some_iff]
  constructor
  · rintro ⟨s, hs, rfl, rfl⟩
    have hcheck := (isCheckCharacter_iff s.check).mpr hs.check
    rw [splitSequentialReference, hs.loose.splitOn_text, SplitReference.groups, SplitReference.parts]
    cases hscope : s.scope with
    | none => simp [hs.refPrefix, hs.sequence, hcheck]
    | some scope => simp [hs.refPrefix, hs.scope scope hscope, hs.sequence, hcheck]
  · intro h
    have htext : r = join '-' (r.splitOn '-') := (List.intercalate_splitOn '-').symm
    unfold splitSequentialReference at h
    split at h
    · rename_i p sequence check hgroups
      obtain ⟨hfields, hparts⟩ := Option.ite_none_right_eq_some.mp h
      simp only [Bool.and_eq_true] at hfields
      rw [hgroups] at htext
      exact ⟨⟨p, none, sequence, check⟩, ⟨hfields.1.1, by simp, hfields.1.2,
        (isCheckCharacter_iff check).mp hfields.2⟩, htext, (Option.some.inj hparts).symm⟩
    · rename_i p scope sequence check hgroups
      obtain ⟨hfields, hparts⟩ := Option.ite_none_right_eq_some.mp h
      simp only [Bool.and_eq_true] at hfields
      rw [hgroups] at htext
      exact ⟨⟨p, some scope, sequence, check⟩, ⟨hfields.1.1.1, by simpa using hfields.1.1.2,
        hfields.1.2, (isCheckCharacter_iff check).mp hfields.2⟩, htext, (Option.some.inj hparts).symm⟩
    · contradiction

/-- The digits of a number bound it. -/
theorem ofDigitChars_lt {v : Text} (h : v.all Char.isDigit = true) :
    Nat.ofDigitChars 10 v 0 < 10 ^ v.length := by
  induction v with
  | nil => simp
  | cons c v ih =>
      rw [List.all_cons, Bool.and_eq_true] at h
      have hrest := ih h.2
      have hdigit : c.toNat - '0'.toNat ≤ 9 := by
        have hle : c.toNat ≤ 57 := by
          have hc := h.1
          simp only [Char.isDigit, Bool.and_eq_true, decide_eq_true_eq] at hc
          exact hc.2
        change c.toNat - 48 ≤ 9
        omega
      rw [Nat.ofDigitChars_cons, Nat.ofDigitChars_eq_ofDigitChars_zero, Nat.mul_zero, Nat.zero_add,
        List.length_cons, Nat.pow_succ]
      have hmul := Nat.mul_le_mul_left (10 ^ v.length) hdigit
      omega

/-- Eighteen digits are a `bigint`. -/
theorem Postgres.bigint_eq {v : Text} (h : isSequenceDigits v = true) :
    bigint v = .ok (Nat.ofDigitChars 10 v 0) := by
  simp only [isSequenceDigits, Bool.and_eq_true, decide_eq_true_eq] at h
  have hlt : Nat.ofDigitChars 10 v 0 < 2 ^ 63 :=
    Nat.lt_of_lt_of_le (ofDigitChars_lt h.2)
      ((Nat.pow_le_pow_right (by decide) h.1.2).trans (by norm_num))
  rw [bigint, ensure_of hlt]
  rfl

/-- A reference that splits strictly is requested under its parts. -/
theorem Postgres.requestedParts_of_strict {s : SplitReference} (h : s.Strict) :
    requestedParts s.text = .ok (some s.parts) := by
  have hbigint := bigint_eq h.sequence
  cases hscope : s.scope with
  | none =>
      have hexec : unscopedPattern.exec s.text = some [(1, s.refPrefix), (2, s.sequence)] :=
        (unscopedPattern_spells.exec_eq_some_iff (fun _ hs => hs.1.loose) _ _).mpr
          ⟨s, ⟨h, hscope⟩, rfl, rfl⟩
      have hsequence : ([(1, s.refPrefix), (2, s.sequence)].lookup 2).getD [] = s.sequence := rfl
      simp only [requestedParts, hexec, hsequence, hbigint, SplitReference.parts, hscope]
      rfl
  | some scope =>
      have hunscoped : unscopedPattern.exec s.text = none := by
        refine unscopedPattern_spells.exec_eq_none fun t ht htext => ?_
        rw [h.loose.text_inj ht.1.loose htext, ht.2] at hscope
        contradiction
      have hexec : scopedPattern.exec s.text =
          some [(1, s.refPrefix), (2, s.scope.getD []), (3, s.sequence)] :=
        (scopedPattern_spells.exec_eq_some_iff (fun _ hs => hs.1.loose) _ _).mpr
          ⟨s, ⟨h, by simp [hscope]⟩, rfl, rfl⟩
      have hsequence : ([(1, s.refPrefix), (2, s.scope.getD []), (3, s.sequence)].lookup 3).getD [] =
          s.sequence := rfl
      simp only [requestedParts, hunscoped, hexec, hsequence, hbigint, SplitReference.parts]
      rfl

/-- The PostgreSQL function reads what the pattern of the SQL adapters does. -/
theorem Postgres.requestedParts_eq (r : Text) :
    requestedParts r = .ok (SqlStorage.parseSequentialReference r) := by
  cases hparse : SqlStorage.parseSequentialReference r with
  | some parts =>
      obtain ⟨s, hs, rfl, rfl⟩ := (SqlStorage.parseSequentialReference_eq_some_iff r parts).mp hparse
      exact requestedParts_of_strict hs
  | none =>
      have hnone : ∀ s : SplitReference, s.Strict → r ≠ s.text := by
        intro s hs htext
        have hsome := (SqlStorage.parseSequentialReference_eq_some_iff r s.parts).mpr
          ⟨s, hs, htext, rfl⟩
        rw [hparse] at hsome
        contradiction
      have hunscoped := unscopedPattern_spells.exec_eq_none fun s hs => hnone s hs.1
      have hscoped := scopedPattern_spells.exec_eq_none fun s hs => hnone s hs.1
      simp only [requestedParts, hunscoped, hscoped]
      rfl

/-! ## what the splitters read -/

/-- A range of ASCII bytes is a range of ASCII symbols. -/
theorem asciiRange_utf8Bytes {minimum maximum : Char} {symbols : Char → Bool}
    (hmaximum : maximum.toUInt8.toNat < 128)
    (hascii : ∀ c : Char, c.toNat < 128 →
      (decide (minimum.toUInt8 ≤ c.toUInt8) && decide (c.toUInt8 ≤ maximum.toUInt8)) = symbols c)
    (hsymbols : ∀ c, symbols c = true → c.toNat < 128) (v : Text) :
    asciiRange (utf8Bytes v) minimum maximum = v.all symbols := by
  refine all_utf8Bytes hascii (fun b hb => ?_) hsymbols v
  simp only [Bool.and_eq_true, decide_eq_true_eq] at hb
  exact Nat.lt_of_le_of_lt (UInt8.le_iff_toNat_le.mp hb.2) hmaximum

theorem asciiRange_upper (v : Text) : asciiRange (utf8Bytes v) 'A' 'Z' = v.all Char.isUpper :=
  asciiRange_utf8Bytes (by decide)
    (forall_ascii (P := fun c => (decide ('A'.toUInt8 ≤ c.toUInt8) &&
      decide (c.toUInt8 ≤ 'Z'.toUInt8)) = c.isUpper) (by decide))
    (fun _ => toNat_lt_of_isUpper) v

theorem asciiRange_digit (v : Text) : asciiRange (utf8Bytes v) '0' '9' = v.all Char.isDigit :=
  asciiRange_utf8Bytes (by decide)
    (forall_ascii (P := fun c => (decide ('0'.toUInt8 ≤ c.toUInt8) &&
      decide (c.toUInt8 ≤ '9'.toUInt8)) = c.isDigit) (by decide))
    (fun _ => toNat_lt_of_isDigit) v

/-- One byte is one ASCII symbol. -/
theorem length_utf8Bytes_eq_one_iff (v : Text) :
    (utf8Bytes v).length = 1 ↔ ∃ c : Char, c.toNat < 128 ∧ v = [c] := by
  constructor
  · intro h
    cases v with
    | nil => contradiction
    | cons c v =>
        have hpos := Char.utf8Size_pos c
        rw [length_utf8Bytes, utf8Length_cons] at h
        have hrest : v = [] := by
          rw [← utf8Bytes_eq_nil_iff, ← List.length_eq_zero_iff, length_utf8Bytes]
          omega
        have hc : c.toNat ≤ 127 := Char.utf8Size_eq_one_iff.mp (by omega)
        exact ⟨c, by omega, by rw [hrest]⟩
  · rintro ⟨c, hc, rfl⟩
    rw [utf8Bytes_cons, utf8EncodeChar_of_ascii hc]
    rfl

/-- Bytes of one ASCII class, some number of them, are symbols of that class. -/
theorem length_utf8Bytes_of_all {symbols : Char → Bool}
    (hsymbols : ∀ c, symbols c = true → c.toNat < 128) {v : Text} (h : v.all symbols = true) :
    (utf8Bytes v).length = v.length := by
  rw [length_utf8Bytes, utf8Length_of_isAscii fun c hc => hsymbols c (List.all_eq_true.mp h c hc)]

/-- The tests of the bytes are tests of the symbols. -/
theorem fieldsAccepted_utf8Bytes (s : SplitReference) (hcheck : '-' ∉ s.check) :
    fieldsAccepted (utf8Bytes s.refPrefix) (utf8Bytes (s.scope.getD [])) (utf8Bytes s.sequence)
      (utf8Bytes s.check) = true ↔ s.Loose := by
  have hupper := fun v => length_utf8Bytes_of_all (v := v) fun _ => toNat_lt_of_isUpper
  have hdigit := fun v => length_utf8Bytes_of_all (v := v) fun _ => toNat_lt_of_isDigit
  have hscope : ((utf8Bytes (s.scope.getD [])).isEmpty = true ∨
      (utf8Bytes (s.scope.getD [])).length = 4 ∧ (s.scope.getD []).all Char.isDigit = true) ↔
      ∀ scope ∈ s.scope, scope = [] ∨ isFourDigits scope = true := by
    cases s.scope with
    | none => simp
    | some scope =>
        simp only [Option.getD_some, List.isEmpty_iff, utf8Bytes_eq_nil_iff, Option.mem_def,
          Option.some.injEq, forall_eq', isFourDigits, Bool.and_eq_true, decide_eq_true_eq]
        exact or_congr_right (and_congr_left fun hall => by rw [hdigit scope hall])
  simp only [fieldsAccepted, asciiRange_upper, asciiRange_digit, Bool.and_eq_true, Bool.or_eq_true,
    decide_eq_true_eq, hscope, length_utf8Bytes_eq_one_iff]
  constructor
  · rintro ⟨⟨⟨⟨⟨⟨h2, h8⟩, hletters⟩, hs⟩, h4, h18⟩, hdigits⟩, c, hc, hcheck'⟩
    rw [hupper _ hletters] at h2 h8
    rw [hdigit _ hdigits] at h4 h18
    refine ⟨?_, hs, ?_, c, ⟨hc, ?_⟩, hcheck'⟩
    · simp [isReferencePrefix, h2, h8, hletters]
    · simp [isSequenceDigits, h4, h18, hdigits]
    · rintro rfl
      exact hcheck (hcheck' ▸ List.mem_singleton_self _)
  · rintro ⟨hp, hs, hsequence, c, ⟨hc, -⟩, hcheck'⟩
    simp only [isReferencePrefix, isSequenceDigits, Bool.and_eq_true, decide_eq_true_eq] at hp hsequence
    rw [hupper _ hp.2, hdigit _ hsequence.2]
    exact ⟨⟨⟨⟨hp, hs⟩, hsequence.1⟩, hsequence.2⟩, c, hc, hcheck'⟩

/-- The Rust splitter takes the loose splits. -/
theorem Rust.parseSequentialReference_eq_some_iff (r p scope sequence : Text) :
    Rust.parseSequentialReference r = some (p, scope, sequence) ↔
      ∃ s : SplitReference, s.Loose ∧ r = s.text ∧ p = s.refPrefix ∧ scope = s.scope.getD [] ∧
        sequence = s.sequence := by
  constructor
  · intro h
    have htext : r = join '-' (r.splitOn '-') := (List.intercalate_splitOn '-').symm
    have hcheck : ∀ g ∈ r.splitOn '-', '-' ∉ g := fun _ => not_mem_of_mem_splitOn
    unfold Rust.parseSequentialReference at h
    split at h
    · rename_i p' sequence' check hgroups
      obtain ⟨haccepted, hfields⟩ := Option.ite_none_right_eq_some.mp h
      rw [hgroups] at htext hcheck
      simp only [Option.some.injEq, Prod.mk.injEq] at hfields
      obtain ⟨rfl, rfl, rfl⟩ := hfields
      exact ⟨⟨p', none, sequence', check⟩,
        (fieldsAccepted_utf8Bytes ⟨p', none, sequence', check⟩ (hcheck check (by simp))).mp haccepted,
        htext, rfl, rfl, rfl⟩
    · rename_i p' scope' sequence' check hgroups
      obtain ⟨haccepted, hfields⟩ := Option.ite_none_right_eq_some.mp h
      rw [hgroups] at htext hcheck
      simp only [Option.some.injEq, Prod.mk.injEq] at hfields
      obtain ⟨rfl, rfl, rfl⟩ := hfields
      exact ⟨⟨p', some scope', sequence', check⟩,
        (fieldsAccepted_utf8Bytes ⟨p', some scope', sequence', check⟩
          (hcheck check (by simp))).mp haccepted, htext, rfl, rfl, rfl⟩
    · contradiction
  · rintro ⟨s, hs, rfl, rfl, rfl, rfl⟩
    have hcheck : '-' ∉ s.check := hs.not_mem_groups _ (by unfold SplitReference.groups; split <;> simp)
    have haccepted := (fieldsAccepted_utf8Bytes s hcheck).mpr hs
    rw [Rust.parseSequentialReference, hs.splitOn_text, SplitReference.groups]
    cases hscope : s.scope with
    | none =>
        rw [hscope] at haccepted
        exact if_pos haccepted
    | some scope =>
        rw [hscope] at haccepted
        exact if_pos haccepted

/-- The Go splitter reads the bytes of what the Rust splitter reads. -/
theorem Go.parseSequentialReference_utf8Bytes (r : Text) :
    Go.parseSequentialReference (utf8Bytes r) =
      (Rust.parseSequentialReference r).map fun fields =>
        (utf8Bytes fields.1, utf8Bytes fields.2.1, utf8Bytes fields.2.2) := by
  rw [Go.parseSequentialReference, Rust.parseSequentialReference, splitOn_utf8Bytes (by decide)]
  rcases r.splitOn '-' with _ | ⟨p, _ | ⟨q, _ | ⟨c, _ | ⟨d, _ | ⟨e, rest⟩⟩⟩⟩⟩
  · rfl
  · rfl
  · rfl
  · by_cases h : fieldsAccepted (utf8Bytes p) [] (utf8Bytes q) (utf8Bytes c) = true <;> simp [h]
  · by_cases h : fieldsAccepted (utf8Bytes p) (utf8Bytes q) (utf8Bytes c) (utf8Bytes d) = true <;>
      simp [h]
  · rfl

/-! ## agreement -/

/-- The four recognisers read a text alike: they accept it or not, and find the
same prefix, the same scope and the same number in it. -/
structure RecognisersAgree (r : Text) : Prop where
  postgres : Postgres.requestedParts r = .ok (SqlStorage.parseSequentialReference r)
  rust : (Rust.parseSequentialReference r).map (fun fields =>
      ⟨fields.1, fields.2.1, Nat.ofDigitChars 10 fields.2.2 0⟩) =
    SqlStorage.parseSequentialReference r
  go : Go.parseSequentialReference (utf8Bytes r) =
    (Rust.parseSequentialReference r).map fun fields =>
      (utf8Bytes fields.1, utf8Bytes fields.2.1, utf8Bytes fields.2.2)

/-- An empty scope field: the splitters read `INV-0001-X` there, with any check
symbol, and the patterns nothing. -/
theorem recognisers_disagree :
    Rust.parseSequentialReference "INV--0001-X".toList = some ("INV".toList, [], "0001".toList) ∧
      SqlStorage.parseSequentialReference "INV--0001-X".toList = none ∧
      Postgres.requestedParts "INV--0001-X".toList = .ok none ∧
      ¬ RecognisersAgree "INV--0001-X".toList := by
  refine ⟨by decide, by decide, by decide, fun h => ?_⟩
  have hrust := h.rust
  revert hrust
  decide

/-- **Recognisers**: the four agree on a text unless it splits into a prefix,
a scope or none, four to eighteen digits and one ASCII symbol such that the
scope is empty or the symbol is not a check symbol. -/
theorem recognisersAgree_iff (r : Text) :
    RecognisersAgree r ↔
      ¬ ∃ s : SplitReference, s.Loose ∧ r = s.text ∧
        (s.scope = some [] ∨ ∃ c, s.check = [c] ∧ isCheckSymbol c = false) := by
  constructor
  · rintro ⟨-, hrust, -⟩ ⟨s, hs, rfl, hodd⟩
    have hread := (Rust.parseSequentialReference_eq_some_iff s.text s.refPrefix (s.scope.getD [])
      s.sequence).mpr ⟨s, hs, rfl, rfl, rfl, rfl⟩
    rw [hread] at hrust
    obtain ⟨t, ht, htext, -⟩ :=
      (SqlStorage.parseSequentialReference_eq_some_iff _ _).mp hrust.symm
    rw [hs.text_inj ht.loose htext] at hodd
    exact ht.loose.not_strict_iff.mpr hodd ht
  · intro hnot
    have hstrict : ∀ s : SplitReference, s.Loose → r = s.text → s.Strict := by
      intro s hs htext
      by_contra hodd
      exact hnot ⟨s, hs, htext, hs.not_strict_iff.mp hodd⟩
    refine ⟨Postgres.requestedParts_eq r, ?_, Go.parseSequentialReference_utf8Bytes r⟩
    apply Option.ext
    intro parts
    rw [SqlStorage.parseSequentialReference_eq_some_iff, Option.map_eq_some_iff]
    constructor
    · rintro ⟨⟨p, scope, sequence⟩, hread, rfl⟩
      obtain ⟨s, hs, htext, rfl, rfl, rfl⟩ :=
        (Rust.parseSequentialReference_eq_some_iff r p scope sequence).mp hread
      exact ⟨s, hstrict s hs htext, htext, rfl⟩
    · rintro ⟨s, hs, htext, rfl⟩
      exact ⟨(s.refPrefix, s.scope.getD [], s.sequence),
        (Rust.parseSequentialReference_eq_some_iff _ _ _ _).mpr
          ⟨s, hs.loose, htext, rfl, rfl, rfl⟩, rfl⟩

end Identifold
