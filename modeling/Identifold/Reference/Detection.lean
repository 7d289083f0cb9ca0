import Identifold.Reference.Roundtrip

/-!
# Identifold.Reference.Detection

The errors that the check symbol of a reference detects.

An error (`Corrupts`) changes the text of a reference in one of four ways: a
payload symbol is replaced, two neighbouring payload symbols change places,
two payload symbols of a random reference change places at any distance, or
the check symbol is replaced.  The hyphens stay where they are, so the
corrupted text is still cut into a payload and a check symbol
(`Corrupts.stem`), and it is the comparison of the two that fails.

* `stem_of_substitution`, `stem_of_exchange` — one change of the payload, with the
  hyphens in place;
* `Corrupts.stem` — any of the four;
* `parseReference_of_wrong_symbol` — what the parser makes of it.
-/

namespace Identifold

open Separated RegisteredReferenceDefinition

/-! ## check symbols -/

namespace RegisteredReferenceDefinition

/-- The radix of a strategy's check symbol. -/
def checkedRadix : RegisteredReferenceDefinition → CheckedRadix
  | .random _ => referenceRadix
  | .sequence _ => sequentialRadix

/-- The canonical text up to its check symbol. -/
def stem (r : RegisteredReferenceDefinition) (payload : Text) : Text :=
  r.refPrefix ++ '-' :: (join '-' (r.groups payload) ++ ['-'])

variable (r : RegisteredReferenceDefinition) {payload : Text}

theorem checkSymbol_eq_symbol (payload : Text) :
    r.checkSymbol payload = r.checkedRadix.symbol payload := by
  cases r <;> rfl

theorem isPayload_iff : r.IsPayload payload ↔
    payload.length = r.payloadLength ∧ ∀ c ∈ payload, r.checkedRadix.IsDigit c := by
  cases r <;> rfl

theorem canonical_eq_stem (h : r.IsPayload payload) :
    r.canonical payload = r.stem payload ++ r.checkSymbol payload := by
  have hne : r.groups payload ≠ [] := groups_ne_nil r ((isPayload_iff r).mp h).1
  rw [canonical, stem, join_cons (by simp), join_concat hne]
  simp

/-- No data symbol is a hyphen. -/
theorem ne_hyphen_of_isDigit {c : Char} (hc : r.checkedRadix.IsDigit c) : c ≠ '-' := by
  cases r with
  | random r => exact (isReferenceSymbol_of_mem_dataAlphabet c hc).facts.2.1
  | sequence r => exact (IsReferenceSymbol.facts (.inr (.inl hc))).2.1

/-- The longest payload of a random reference has 12 symbols. -/
theorem payloadLength_random_le (r : RegisteredRandomReferenceDefinition) :
    (random r).payloadLength ≤ 12 := by
  change r.profile.payloadLength ≤ 12
  cases r.profile <;> decide

/-- The texts that are cut into a payload and a last symbol: the prefix, and
behind it a body with the hyphens of the canonical text. -/
theorem eq_stem_iff (h : r.IsPayload payload) {init : Text} {k : Char} (hk : k ≠ '-') :
    r.refPrefix ++ '-' :: (init ++ [k]) = r.stem payload ++ [k] ↔
      ((init ++ [k]).splitOn '-').map List.length = r.groupLengths ++ [1] ∧
        strip '-' init = payload := by
  obtain ⟨hlen, hdigits⟩ := (isPayload_iff r).mp h
  have hne : r.groups payload ≠ [] := groups_ne_nil r hlen
  have hstem : r.stem payload ++ [k] = r.refPrefix ++ '-' :: join '-' (r.groups payload ++ [[k]]) := by
    rw [stem, join_concat hne]
    simp
  have hgroups : ∀ g ∈ r.groups payload ++ [[k]], '-' ∉ g := by
    intro g hg hmem
    rcases List.mem_append.mp hg with hg | hg
    · exact ne_hyphen_of_isDigit r (hdigits _ (mem_of_mem_groups r hg hmem)) rfl
    · rw [List.mem_singleton.mp hg, List.mem_singleton] at hmem
      exact hk hmem.symm
  have hstrip : strip '-' (init ++ [k]) = strip '-' init ++ [k] := by
    rw [strip_append, strip_eq_self (show '-' ∉ [k] by simpa using hk.symm)]
  rw [hstem, List.append_cancel_left_eq, List.cons.injEq, eq_self, true_and,
    eq_join_iff _ hgroups (by simp), List.map_append, map_length_groups r hlen, List.flatten_append,
    flatten_groups, hstrip]
  simp

end RegisteredReferenceDefinition

/-! ## the parser on a wrong check symbol -/

section Rejection

variable {registry : NamespaceRegistry} {d : RegisteredNamespaceDefinition}
  {r : RegisteredReferenceDefinition} {payload : Text} {k : Char}

/-- A stem with any check symbol passes the tests of the whole text. -/
theorem accepted_of_stem (h : r.IsPayload payload) (hk : k ∈ checkAlphabet) :
    ((r.stem payload ++ [k]).length ≠ 0 ∧ utf16Length (r.stem payload ++ [k]) ≤ 100 ∧
      ∀ c ∈ r.stem payload ++ [k], isReferenceCharacter c = true) ∧
      asciiUpper (r.stem payload ++ [k]) = r.stem payload ++ [k] := by
  obtain ⟨hspelled, hnorm⟩ := IsPayload.spelled r h
  have hwritten : r.IsWritten payload (r.canonical payload) := .inr (.inr (canonical_eq r h))
  have hlen := (length_written_le r hspelled hwritten).1
  have hsymbol : ∀ c ∈ r.stem payload ++ [k], IsReferenceSymbol c ∨ c = '-' := by
    intro c hc
    rcases List.mem_append.mp hc with hc | hc
    · refine mem_written r hspelled hwritten ?_
      rw [canonical_eq_stem r h]
      exact List.mem_append_left _ hc
    · rw [List.mem_singleton.mp hc]
      exact .inl (isReferenceSymbol_of_mem_checkAlphabet k hk)
  have hascii : IsAscii (r.stem payload ++ [k]) := by
    intro c hc
    rcases hsymbol c hc with hs | rfl
    · exact hs.toNat_lt
    · decide
  rw [canonical_eq_stem r h, List.length_append, length_checkSymbol] at hlen
  refine ⟨⟨by simp, ?_, ?_⟩, ?_⟩
  · rw [utf16Length_of_isAscii hascii, List.length_append, List.length_singleton]
    omega
  · intro c hc
    exact forall_ascii (P := fun c => IsReferenceSymbol c ∨ c = '-' → isReferenceCharacter c = true)
      (by decide) c (hascii c hc) (hsymbol c hc)
  · apply asciiUpper_eq_self
    intro c hc
    rcases hsymbol c hc with hs | rfl
    · exact hs.facts.1
    · decide

/-- The slices of a body that is cut into a payload and a check symbol. -/
theorem slices_of_strip {init : Text} (hstrip : strip '-' init = payload) (hk : k ≠ '-') :
    (strip '-' (init ++ [k])).dropLast = payload ∧
      (strip '-' (init ++ [k])).drop ((strip '-' (init ++ [k])).length - 1) = [k] ∧
      (strip '-' (init ++ [k])).length = payload.length + 1 := by
  have hbody : strip '-' (init ++ [k]) = payload ++ [k] := by
    rw [strip_append, hstrip, strip_eq_self (show '-' ∉ [k] by simpa using hk.symm)]
  rw [hbody]
  simp

/-- The comparison of the random parser is reached, and fails. -/
theorem parseRandomReference_of_wrong_symbol (r : RegisteredRandomReferenceDefinition)
    {init publicPrefix : Text} (h : (random r).IsPayload payload) (hk : k ∈ checkAlphabet)
    (hform : ((init ++ [k]).splitOn '-').map List.length = (random r).groupLengths ++ [1])
    (hstrip : strip '-' init = payload) (hwrong : (random r).checkSymbol payload ≠ [k]) :
    parseRandomReference (init ++ [k]) publicPrefix r = .error ⟨.invalidChecksum,
      "Human reference check symbol does not match its payload"⟩ := by
  have hhyphen : k ≠ '-' := (isReferenceSymbol_of_mem_checkAlphabet k hk).facts.2.1
  obtain ⟨hinit, hlast, hlen⟩ := slices_of_strip hstrip hhyphen
  have hsymbols : ∀ c ∈ payload, normalizeSymbol c ∈ dataAlphabet := fun c hc =>
    (normalizeSymbol_mem_iff c).mpr (.inl (h.2 c hc))
  have hdiffers : ¬ referenceCheckSymbol payload = [k] := hwrong
  rw [parseRandomReference, ensure_of (hlen.trans (congrArg (· + 1) h.1)), ok_bind, validateHyphenation,
    validateGroupLengths, ensure_of (.inr hform), ok_bind, hinit, hlast, normalizePayload,
    ensure_of hsymbols, ok_bind, map_normalizeSymbol_of_mem h.2]
  change (ensure ([k] <:+: checkAlphabet) _ >>= _) = _
  rw [ensure_of ((List.singleton_infix_iff _ _).mpr hk), ok_bind,
    calculateReferenceCheckSymbol_eq (payload_ne_nil (random r) h.1) h.2, ok_bind,
    ensure_of_not hdiffers, error_bind]

/-- So does the comparison of the sequential one. -/
theorem parseSequentialReference_of_wrong_symbol (r : RegisteredSequentialReferenceDefinition)
    {init publicPrefix : Text} (h : (RegisteredReferenceDefinition.sequence r).IsPayload payload)
    (hk : k ∈ checkAlphabet)
    (hform : ((init ++ [k]).splitOn '-').map List.length =
      (RegisteredReferenceDefinition.sequence r).groupLengths ++ [1])
    (hstrip : strip '-' init = payload)
    (hwrong : (RegisteredReferenceDefinition.sequence r).checkSymbol payload ≠ [k]) :
    parseSequentialReference (init ++ [k]) publicPrefix r = .error ⟨.invalidChecksum,
      "Sequential reference check symbol does not match its payload"⟩ := by
  have hhyphen : k ≠ '-' := (isReferenceSymbol_of_mem_checkAlphabet k hk).facts.2.1
  obtain ⟨hinit, hlast, hlen⟩ := slices_of_strip hstrip hhyphen
  have hne := payload_ne_nil (RegisteredReferenceDefinition.sequence r) h.1
  have hexpected : (if r.hasScope then [4, r.width, 1] else [r.width, 1]) =
      (RegisteredReferenceDefinition.sequence r).groupLengths ++ [1] := by
    simp only [groupLengths]
    split <;> rfl
  have hdiffers : ¬ sequentialCheckSymbol payload = [k] := hwrong
  have hlength : (strip '-' (init ++ [k])).length = r.width + (if r.hasScope then 4 else 0) + 1 :=
    hlen.trans (congrArg (· + 1) h.1)
  rw [parseSequentialReference, ensure_of hlength, ok_bind,
    validateSequentialHyphenation, validateGroupLengths, hexpected, ensure_of (.inr hform), ok_bind,
    hinit, hlast]
  change (ensure ((payload ≠ [] ∧ ∀ c ∈ payload, c.isDigit = true) ∧ [k] <:+: checkAlphabet) _ >>=
    _) = _
  rw [ensure_of ⟨⟨hne, h.2⟩, (List.singleton_infix_iff _ _).mpr hk⟩, ok_bind,
    calculateSequentialCheckSymbol_eq hne h.2, ok_bind, ensure_of_not hdiffers, error_bind]

/-- **A wrong check symbol** under a registered prefix is an
`invalid_checksum`. -/
theorem parseReference_of_wrong_symbol (hd : d ∈ registry.definitions) (hr : d.reference = some r)
    (h : r.IsPayload payload) (hk : k ∈ checkAlphabet) (hwrong : r.checkSymbol payload ≠ [k]) :
    ∃ message, parseReference (r.stem payload ++ [k]) registry =
      .error ⟨.invalidChecksum, message⟩ := by
  have hhyphen : k ≠ '-' := (isReferenceSymbol_of_mem_checkAlphabet k hk).facts.2.1
  have hshape : r.stem payload ++ [k] =
      r.refPrefix ++ '-' :: ((join '-' (r.groups payload) ++ ['-']) ++ [k]) := by
    rw [stem, List.append_assoc, List.cons_append]
  obtain ⟨hform, hstrip⟩ := (eq_stem_iff r h hhyphen).mp hshape.symm
  obtain ⟨haccepted, hupper⟩ := accepted_of_stem h hk
  have hlocate : locateNamespace (r.stem payload ++ [k]) registry =
      .ok ((join '-' (r.groups payload) ++ ['-']) ++ [k], d) :=
    (locateNamespace_ok_iff hupper).mpr ⟨hd, r, hr, .inl hshape⟩
  rw [parseReference, ensure_of haccepted, ok_bind, hupper, hlocate, ok_bind]
  simp only [hr]
  cases r with
  | random r => exact ⟨_, parseRandomReference_of_wrong_symbol r h hk hform hstrip hwrong⟩
  | sequence r => exact ⟨_, parseSequentialReference_of_wrong_symbol r h hk hform hstrip hwrong⟩

end Rejection

/-! ## errors -/

/-- The symbols a payload of a strategy is made of. -/
def ReferenceStrategy.IsDataSymbol : ReferenceStrategy → Char → Prop
  | .random, c => c ∈ dataAlphabet
  | .sequence, c => c.isDigit = true

/-- An error in the text of a canonical reference.  The payload symbols are
those behind the first hyphen that are no hyphens and not the last symbol. -/
inductive Corrupts (strategy : ReferenceStrategy) : Text → Text → Prop
  | substitution {before after : Text} {x y k : Char} (hbefore : '-' ∈ before) (hx : x ≠ '-')
      (hy : strategy.IsDataSymbol y) (hne : x ≠ y) :
      Corrupts strategy (before ++ x :: (after ++ [k])) (before ++ y :: (after ++ [k]))
  | neighbours {before between after : Text} {x y k : Char} (hbefore : '-' ∈ before) (hx : x ≠ '-')
      (hy : y ≠ '-') (hne : x ≠ y) (hbetween : between = [] ∨ between = ['-']) :
      Corrupts strategy (before ++ x :: (between ++ y :: (after ++ [k])))
        (before ++ y :: (between ++ x :: (after ++ [k])))
  | exchange {before between after : Text} {x y k : Char} (hrandom : strategy = .random)
      (hbefore : '-' ∈ before) (hx : x ≠ '-') (hy : y ≠ '-') (hne : x ≠ y) :
      Corrupts strategy (before ++ x :: (between ++ y :: (after ++ [k])))
        (before ++ y :: (between ++ x :: (after ++ [k])))
  | checkSymbol {before : Text} {k k' : Char} (hk : k' ∈ checkAlphabet) (hne : k ≠ k') :
      Corrupts strategy (before ++ [k]) (before ++ [k'])

section Errors

variable {r : RegisteredReferenceDefinition} {payload before v v' : Text} {k : Char}

theorem isDigit_iff_isDataSymbol {c : Char} :
    r.checkedRadix.IsDigit c ↔ r.strategy.IsDataSymbol c := by
  cases r <;> rfl

/-- Behind the first hyphen, symbols can be replaced by others as long as the
hyphens stay: the text is then the stem of the changed payload. -/
theorem exists_replace (h : r.IsPayload payload) (hk : k ≠ '-') (hbefore : '-' ∈ before)
    {rest : Text} (heq : before ++ (rest ++ [k]) = r.stem payload ++ [k]) :
    ∃ init, payload = init ++ strip '-' rest ∧ ∀ rest' : Text,
      rest'.map (· == '-') = rest.map (· == '-') → r.IsPayload (init ++ strip '-' rest') →
        before ++ (rest' ++ [k]) = r.stem (init ++ strip '-' rest') ++ [k] := by
  -- the first hyphen is the one behind the prefix
  have hcut := takeWhile_append_drop hbefore
  have hno : '-' ∉ before.takeWhile (· ≠ '-') := fun hmem => by
    simpa using List.mem_takeWhile_imp hmem
  have htext : r.stem payload ++ [k] =
      r.refPrefix ++ '-' :: ((join '-' (r.groups payload) ++ ['-']) ++ [k]) := by
    rw [stem, List.append_assoc, List.cons_append]
  rw [htext] at heq
  have hpre : before.takeWhile (· ≠ '-') = r.refPrefix := by
    have hfirst := congrArg (List.takeWhile (· ≠ '-')) heq
    rwa [(takeWhile_of_not_mem (hyphen_not_mem_refPrefix r.refPrefix_valid) _).1, hcut,
      List.append_assoc, List.cons_append, (takeWhile_of_not_mem hno _).1] at hfirst
  rw [hpre] at hcut
  generalize (before.dropWhile (· ≠ '-')).drop 1 = init at hcut
  have hshape : ∀ tail : Text,
      before ++ (tail ++ [k]) = r.refPrefix ++ '-' :: ((init ++ tail) ++ [k]) := by
    intro tail
    rw [hcut]
    simp
  rw [← htext, hshape, eq_stem_iff r h hk] at heq
  obtain ⟨hform, hstrip⟩ := heq
  rw [strip_append] at hstrip
  refine ⟨strip '-' init, hstrip.symm, ?_⟩
  intro rest' hpattern hpayload
  rw [hshape, eq_stem_iff r hpayload hk, strip_append]
  refine ⟨?_, rfl⟩
  rw [← hform]
  apply map_length_splitOn_congr
  simp [hpattern]

theorem strip_cons_of_ne {x : Char} (hx : x ≠ '-') (rest : Text) :
    strip '-' (x :: rest) = x :: strip '-' rest := by
  simp [strip, hx]

/-- Two payload symbols that change places leave a payload. -/
theorem isPayload_exchange {xs ys zs : Text} {x y : Char}
    (h : r.IsPayload (xs ++ x :: (ys ++ y :: zs))) : r.IsPayload (xs ++ y :: (ys ++ x :: zs)) := by
  obtain ⟨hlen, hdigits⟩ := (isPayload_iff r).mp h
  refine (isPayload_iff r).mpr ⟨?_, ?_⟩
  · rw [← hlen]
    simp
  · intro c hc
    apply hdigits
    simp only [List.mem_append, List.mem_cons] at hc ⊢
    tauto

/-- An exchange of payload symbols that the check symbol notices. -/
theorem stem_of_exchange (h : r.IsPayload payload) (hk : k ≠ '-') (hcheck : r.checkSymbol payload = [k])
    (hbefore : '-' ∈ before) {between after : Text} {x y : Char} (hx : x ≠ '-') (hy : y ≠ '-')
    (heq : before ++ x :: (between ++ y :: (after ++ [k])) = r.stem payload ++ [k])
    (hnotice : ∀ xs zs, payload = xs ++ x :: (strip '-' between ++ y :: zs) →
      r.checkSymbol (xs ++ y :: (strip '-' between ++ x :: zs)) ≠ r.checkSymbol payload) :
    ∃ payload', before ++ y :: (between ++ x :: (after ++ [k])) = r.stem payload' ++ [k] ∧
      r.IsPayload payload' ∧ r.checkSymbol payload' ≠ [k] := by
  have hrest : ∀ a b : Char, before ++ a :: (between ++ b :: (after ++ [k])) =
      before ++ (a :: (between ++ b :: after) ++ [k]) := by simp
  have hstrip : ∀ a b : Char, a ≠ '-' → b ≠ '-' → strip '-' (a :: (between ++ b :: after)) =
      a :: (strip '-' between ++ b :: strip '-' after) := by
    intro a b ha hb
    rw [strip_cons_of_ne ha, strip_append, strip_cons_of_ne hb]
  rw [hrest] at heq ⊢
  obtain ⟨init, hpayload, hreplace⟩ := exists_replace h hk hbefore heq
  rw [hstrip x y hx hy] at hpayload
  have hchanged := hreplace (y :: (between ++ x :: after)) (by simp [hx, hy])
  rw [hstrip y x hy hx] at hchanged
  have hnew : r.IsPayload (init ++ y :: (strip '-' between ++ x :: strip '-' after)) :=
    isPayload_exchange (hpayload ▸ h)
  exact ⟨_, hchanged hnew, hnew, fun hsame => hnotice init _ hpayload (hsame.trans hcheck.symm)⟩

/-- A payload symbol that another one takes the place of leaves a payload. -/
theorem isPayload_substitution {xs ys : Text} {x y : Char} (h : r.IsPayload (xs ++ x :: ys))
    (hy : r.checkedRadix.IsDigit y) : r.IsPayload (xs ++ y :: ys) := by
  obtain ⟨hlen, hdigits⟩ := (isPayload_iff r).mp h
  refine (isPayload_iff r).mpr ⟨?_, ?_⟩
  · rw [← hlen]
    simp
  · intro c hc
    rcases List.mem_append.mp hc with hc | hc
    · exact hdigits c (by simp [hc])
    · rcases List.mem_cons.mp hc with rfl | hc
      · exact hy
      · exact hdigits c (by simp [hc])

/-- A substitution of a payload symbol that the check symbol notices. -/
theorem stem_of_substitution (h : r.IsPayload payload) (hk : k ≠ '-')
    (hcheck : r.checkSymbol payload = [k]) (hbefore : '-' ∈ before) {after : Text} {x y : Char}
    (hx : x ≠ '-') (hy : r.checkedRadix.IsDigit y)
    (heq : before ++ x :: (after ++ [k]) = r.stem payload ++ [k])
    (hnotice : ∀ xs zs, payload = xs ++ x :: zs →
      r.checkSymbol (xs ++ y :: zs) ≠ r.checkSymbol payload) :
    ∃ payload', before ++ y :: (after ++ [k]) = r.stem payload' ++ [k] ∧
      r.IsPayload payload' ∧ r.checkSymbol payload' ≠ [k] := by
  have hrest : ∀ a : Char, before ++ a :: (after ++ [k]) = before ++ ((a :: after) ++ [k]) := by
    simp
  rw [hrest] at heq ⊢
  obtain ⟨init, hpayload, hreplace⟩ := exists_replace h hk hbefore heq
  rw [strip_cons_of_ne hx] at hpayload
  have hyhyphen := ne_hyphen_of_isDigit r hy
  have hchanged := hreplace (y :: after) (by simp [hx, hyhyphen])
  rw [strip_cons_of_ne hyhyphen] at hchanged
  have hnew : r.IsPayload (init ++ y :: strip '-' after) := isPayload_substitution (hpayload ▸ h) hy
  exact ⟨_, hchanged hnew, hnew, fun hsame => hnotice init _ hpayload (hsame.trans hcheck.symm)⟩

/-- **The error step**: a corrupted canonical text is the stem of a payload with
a check symbol that is not its own. -/
theorem Corrupts.stem (h : r.IsPayload payload) (hcorrupts : Corrupts r.strategy v v')
    (hv : v = r.canonical payload) : ∃ payload' k, v' = r.stem payload' ++ [k] ∧
      r.IsPayload payload' ∧ k ∈ checkAlphabet ∧ r.checkSymbol payload' ≠ [k] := by
  obtain ⟨k₀, hk₀, hcheck⟩ := checkSymbol_eq r payload
  have hhyphen : k₀ ≠ '-' := (isReferenceSymbol_of_mem_checkAlphabet k₀ hk₀).facts.2.1
  obtain ⟨hlen, hdigits⟩ := (isPayload_iff r).mp h
  rw [canonical_eq_stem r h, hcheck] at hv
  -- the symbol behind the change is the check symbol
  have hlast : ∀ {text : Text} {k : Char}, text ++ [k] = r.stem payload ++ [k₀] → k = k₀ := by
    intro text k htext
    simpa using (List.append_inj' htext rfl).2
  cases hcorrupts with
  | @substitution before after x y k hbefore hx hy hne =>
      -- one digit is another: the radix is invertible modulo 37
      obtain rfl := @hlast (before ++ x :: after) _ (by simpa using hv)
      have hdigit := isDigit_iff_isDataSymbol.mpr hy
      obtain ⟨payload', htext, hnew, hwrong⟩ := stem_of_substitution h hhyphen hcheck hbefore hx hdigit hv (by
        intro xs zs hpayload hsame
        rw [checkSymbol_eq_symbol, checkSymbol_eq_symbol, hpayload] at hsame
        exact r.checkedRadix.symbol_ne_of_substitution (hdigits x (by rw [hpayload]; simp)) hdigit hne
          hsame.symm)
      exact ⟨payload', k, htext, hnew, hk₀, hwrong⟩
  | @neighbours before between after x y k hbefore hx hy hne hbetween =>
      -- neighbours are exchanged, perhaps across a hyphen
      obtain rfl := @hlast (before ++ x :: (between ++ y :: after)) _ (by simpa using hv)
      have hstrip : strip '-' between = [] := by
        rcases hbetween with rfl | rfl
        · rfl
        · decide
      obtain ⟨payload', htext, hnew, hwrong⟩ := stem_of_exchange h hhyphen hcheck hbefore hx hy hv (by
        intro xs zs hpayload hsame
        rw [hstrip, List.nil_append] at hpayload hsame
        rw [checkSymbol_eq_symbol, checkSymbol_eq_symbol, hpayload] at hsame
        exact r.checkedRadix.symbol_ne_of_neighbours (hdigits x (by rw [hpayload]; simp))
          (hdigits y (by rw [hpayload]; simp)) hne hsame.symm)
      exact ⟨payload', k, htext, hnew, hk₀, hwrong⟩
  | @exchange before between after x y k hrandom hbefore hx hy hne =>
      -- a random payload is shorter than the order of 32 modulo 37
      obtain rfl := @hlast (before ++ x :: (between ++ y :: after)) _ (by simpa using hv)
      obtain ⟨payload', htext, hnew, hwrong⟩ := stem_of_exchange h hhyphen hcheck hbefore hx hy hv (by
        intro xs zs hpayload hsame
        rw [checkSymbol_eq_symbol, checkSymbol_eq_symbol, hpayload] at hsame
        cases r with
        | sequence r => contradiction
        | random r =>
            have hshort := payloadLength_random_le r
            rw [← hlen, hpayload] at hshort
            simp only [List.length_append, List.length_cons] at hshort
            exact referenceRadix.symbol_ne_of_transposition (hdigits x (by rw [hpayload]; simp))
              (hdigits y (by rw [hpayload]; simp)) hne (pow_thirtyTwo_ne_one (by omega)) hsame.symm)
      exact ⟨payload', k, htext, hnew, hk₀, hwrong⟩
  | @checkSymbol before k k' hk hne =>
      -- only the check symbol has changed
      obtain rfl := hlast hv
      refine ⟨payload, k', ?_, h, hk, ?_⟩
      · rw [(List.append_inj' hv rfl).1]
      · rw [hcheck]
        simpa using hne

end Errors

/-- **Error detection at the parser**: every such error in a canonical reference
is an `invalid_checksum`. -/
theorem parseReference_of_corrupts {registry : NamespaceRegistry} {v v' : Text}
    {result : ParsedReference} (h : parseReference v registry = .ok result) (hv : result.value = v)
    (hcorrupts : Corrupts result.strategy v v') :
    ∃ message, parseReference v' registry = .error ⟨.invalidChecksum, message⟩ := by
  obtain ⟨d, hd, r, hr, payload, hpayload, rfl⟩ := parseReference_eq_parsed h
  obtain ⟨payload', k, rfl, hpayload', hk, hwrong⟩ := Corrupts.stem hpayload hcorrupts hv.symm
  exact parseReference_of_wrong_symbol hd hr hpayload' hk hwrong

/-! ## both levels -/

/-- A symbol calculation separates two payloads: both have a symbol, and not
the same. -/
def Separates (calculate : Text → Except IdentifoldError Text) (v w : Text) : Prop :=
  ∃ a b, calculate v = .ok a ∧ calculate w = .ok b ∧ a ≠ b

/-- A symbol calculation over a class of symbols detects a single substitution
and a transposition of neighbours, in payloads of every length. -/
def DetectsErrors (calculate : Text → Except IdentifoldError Text) (IsSymbol : Char → Prop) : Prop :=
  ∀ (xs ys : Text) (x y : Char), (∀ c ∈ xs ++ x :: y :: ys, IsSymbol c) → x ≠ y →
    Separates calculate (xs ++ x :: ys) (xs ++ y :: ys) ∧
      Separates calculate (xs ++ x :: y :: ys) (xs ++ y :: x :: ys)

theorem detectsErrors_of_symbol {calculate : Text → Except IdentifoldError Text} (k : CheckedRadix)
    (h : ∀ payload : Text, payload ≠ [] → (∀ c ∈ payload, k.IsDigit c) →
      calculate payload = .ok (k.symbol payload)) : DetectsErrors calculate k.IsDigit := by
  intro xs ys x y hsymbols hne
  have hx := hsymbols x (by simp)
  have hy := hsymbols y (by simp)
  have hok : ∀ payload : Text, payload ≠ [] → (∀ c ∈ payload, c ∈ xs ++ x :: y :: ys) →
      calculate payload = .ok (k.symbol payload) := fun payload hnil hmem =>
    h payload hnil fun c hc => hsymbols c (hmem c hc)
  constructor
  · exact ⟨_, _, hok _ (by simp) (by simp; tauto), hok _ (by simp) (by simp; tauto),
      k.symbol_ne_of_substitution hx hy hne⟩
  · exact ⟨_, _, hok _ (by simp) (by simp), hok _ (by simp) (by simp; tauto),
      k.symbol_ne_of_neighbours hx hy hne⟩

/-- The errors of a canonical reference are reported by the parser. -/
def ParserDetectsErrors (registry : NamespaceRegistry) : Prop :=
  ∀ v v' result, parseReference v registry = .ok result → result.value = v →
    Corrupts result.strategy v v' →
      ∃ message, parseReference v' registry = .error ⟨.invalidChecksum, message⟩

/-- **Error detection**, at the parser and in both radices. -/
theorem check_symbol_detects (registry : NamespaceRegistry) :
    ParserDetectsErrors registry ∧
      DetectsErrors calculateReferenceCheckSymbol (· ∈ dataAlphabet) ∧
      DetectsErrors calculateSequentialCheckSymbol (·.isDigit = true) :=
  ⟨fun _ _ _ => parseReference_of_corrupts,
    detectsErrors_of_symbol referenceRadix fun _ => calculateReferenceCheckSymbol_eq,
    detectsErrors_of_symbol sequentialRadix fun _ => calculateSequentialCheckSymbol_eq⟩

end Identifold
