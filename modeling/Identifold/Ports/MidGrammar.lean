import Identifold.Ports.CSharpCodec
import Identifold.Ports.SwiftCodec

/-!
# Identifold.Ports.MidGrammar

What the C# and the Swift port accept as a machine identifier, and what becomes
of it in their encoders.

Both anchor their patterns with `$`, which lets a line end pass behind the last
symbol; the two engines differ only in what a line end is.  `LooseGrammar` is
what the two codecs have in common, and `LooseGrammar.sound_iff` is that they
keep to the grammar exactly where no line end is let pass.
-/

namespace Identifold

/-- A public identifier. -/
def IsPublicId (p : Text) : Prop :=
  ∃ ns hex, isPublicPrefix ns = true ∧ IsMachineHex hex ∧ p = publicIdText ns hex

/-- A text of the grammar with a line end behind it. -/
def HasLineEnd (lineEnds : List Text) (grammar : Text → Prop) (v : Text) : Prop :=
  ∃ u line, grammar u ∧ line ∈ lineEnds ∧ v = u ++ line

section Grammar

variable {ε : Type} {own : ε → Prop} {parse : Text → Except ε Text}
  {encode : Text → Text → Except ε Text} {lineEnds : List Text} {m ns : Text}

/-- What a port promises of a text and a namespace: the text is accepted when it
is a machine identifier in either case, which is returned in lower case; and
the encoder returns a public identifier or fails with an error of its own. -/
structure MidGrammarSound (own : ε → Prop) (parse : Text → Except ε Text)
    (encode : Text → Text → Except ε Text) (m ns : Text) : Prop where
  accepts : ∀ w, parse m = .ok w ↔ IsMachineId w ∧ w = asciiLower m
  encodes : (∃ p, encode m ns = .ok p ∧ IsPublicId p) ∨ ∃ e, encode m ns = .error e ∧ own e

/-- No line end stands behind the machine identifier, nor behind the namespace of
one. -/
def NoLineEnd (lineEnds : List Text) (m ns : Text) : Prop :=
  ¬ HasLineEnd lineEnds (fun u => IsMachineId (asciiLower u)) m ∧
    ¬ (IsMachineId (asciiLower m) ∧ HasLineEnd lineEnds (isPublicPrefix · = true) ns)

/-- A codec whose patterns let a line end pass: it is kept in the machine
identifier, where the encoder fails with an error that is not its own, and in
the namespace, where it does not. -/
structure LooseGrammar (own : ε → Prop) (parse : Text → Except ε Text)
    (encode : Text → Text → Except ε Text) (lineEnds : List Text) : Prop where
  plain : ∀ line ∈ lineEnds, line ≠ [] ∧ ∀ c ∈ line,
    c.isAlpha = false ∧ c ∉ hexAlphabet ∧ c ≠ '-' ∧ c ≠ '_' ∧ c ∉ typeIdAlphabet
  parse_ok_iff : ∀ m w, parse m = .ok w ↔ w = asciiLower m ∧ ∃ hex line, IsMachineHex hex ∧
    line ∈ [] :: lineEnds ∧ asciiLower m = formatUuid hex ++ line
  encode_accepted : ∀ m ns hex line, HasLineEnd ([] :: lineEnds) (isPublicPrefix · = true) ns →
    IsMachineHex hex → line ∈ [] :: lineEnds → asciiLower m = formatUuid hex ++ line →
      if line = [] then encode m ns = .ok (publicIdText ns hex)
      else ∃ e, encode m ns = .error e ∧ ¬ own e
  encode_rejected : ∀ m ns, (¬ HasLineEnd ([] :: lineEnds) (isPublicPrefix · = true) ns ∨
    ∀ w, parse m ≠ .ok w) → ∃ e, encode m ns = .error e ∧ own e

theorem hasLineEnd_cons_nil_iff {grammar : Text → Prop} {v : Text} :
    HasLineEnd ([] :: lineEnds) grammar v ↔ grammar v ∨ HasLineEnd lineEnds grammar v := by
  constructor
  · rintro ⟨u, line, hu, hline, rfl⟩
    rcases List.mem_cons.mp hline with rfl | hline
    · exact .inl (by rwa [List.append_nil])
    · exact .inr ⟨u, line, hu, hline, rfl⟩
  · rintro (hv | ⟨u, line, hu, hline, rfl⟩)
    · exact ⟨v, [], hv, by simp, by simp⟩
    · exact ⟨u, line, hu, by simp [hline], rfl⟩

namespace LooseGrammar

variable (port : LooseGrammar own parse encode lineEnds)
include port

/-- A line end has no other case. -/
theorem asciiLower_eq_append_iff {v line : Text} (hline : line ∈ lineEnds) :
    asciiLower m = v ++ line ↔ ∃ u, asciiLower u = v ∧ m = u ++ line := by
  constructor
  · intro h
    obtain ⟨u, rest, rfl, hu, hrest⟩ := List.map_eq_append_iff.mp h
    have hself : ∀ xs ys : Text, xs.map Char.toLower = ys → (∀ c ∈ ys, c.isAlpha = false) → xs = ys := by
      intro xs
      induction xs with
      | nil => rintro _ rfl -; rfl
      | cons c xs ih =>
          rintro _ rfl halpha
          have hc := (toLower_eq_iff (halpha _ (List.mem_cons_self ..))).mp rfl
          rw [List.map_cons, ← ih _ rfl fun d hd => halpha d (List.mem_cons_of_mem _ hd), ← hc]
    rw [hself rest line hrest fun c hc => ((port.plain line hline).2 c hc).1]
    exact ⟨u, hu, rfl⟩
  · rintro ⟨u, rfl, rfl⟩
    have hself : asciiLower line = line := by
      conv_rhs => rw [← List.map_id line]
      refine List.map_congr_left fun c hc => ?_
      exact (toLower_eq_iff ((port.plain line hline).2 c hc).1).mpr rfl
    rw [asciiLower, List.map_append, ← asciiLower, ← asciiLower, hself]

theorem not_isMachineId_append {v line : Text} (hline : line ∈ lineEnds) :
    ¬ IsMachineId (v ++ line) := by
  rintro ⟨hex, hhex, heq⟩
  obtain ⟨c, hc⟩ := List.exists_mem_of_ne_nil line (port.plain line hline).1
  obtain ⟨-, hdigit, hhyphen, -, -⟩ := (port.plain line hline).2 c hc
  have hmem : c ∈ formatUuid hex := by
    rw [← heq]
    simp [hc]
  rcases mem_formatUuid hhex.1 hmem with h | h
  · exact hdigit h
  · exact hhyphen h

/-- A namespace with a line end makes no public identifier. -/
theorem not_isPublicId {u line hex : Text} (hline : line ∈ lineEnds) :
    ¬ IsPublicId (publicIdText (u ++ line) hex) := by
  rintro ⟨ns, hex', hns, hhex', heq⟩
  obtain ⟨c, hc⟩ := List.exists_mem_of_ne_nil line (port.plain line hline).1
  obtain ⟨halpha, -, -, hunderscore, hsymbol⟩ := (port.plain line hline).2 c hc
  have hmem : c ∈ publicIdText ns hex' := by
    rw [← heq]
    simp [publicIdText, hc]
  rcases List.mem_append.mp hmem with h | h
  · rcases mem_publicPrefix hns h with hlower | rfl
    · change (c.isUpper || c.isLower) = false at halpha
      rw [hlower, Bool.or_true] at halpha
      contradiction
    · exact hunderscore rfl
  · rcases List.mem_cons.mp h with h | h
    · exact hunderscore h
    · exact hsymbol ((isTypeIdSuffix_suffixOfHex hhex'.1).2.1 c h)

/-- **The grammar is kept** exactly where no line end is let pass. -/
theorem sound_iff : MidGrammarSound own parse encode m ns ↔ NoLineEnd lineEnds m ns := by
  by_cases hend : HasLineEnd lineEnds (fun u => IsMachineId (asciiLower u)) m
  · -- the line end is returned
    obtain ⟨u, line, ⟨hex, hhex, hlower⟩, hline, rfl⟩ := id hend
    have heq := (port.asciiLower_eq_append_iff hline).mpr ⟨u, hlower, rfl⟩
    have hparse := (port.parse_ok_iff (u ++ line) _).mpr ⟨rfl, hex, line, hhex, by simp [hline], heq⟩
    refine iff_of_false (fun h => ?_) fun h => h.1 hend
    exact port.not_isMachineId_append hline (heq ▸ ((h.accepts _).mp hparse).1)
  · have haccepts : ∀ w, parse m = .ok w ↔ IsMachineId w ∧ w = asciiLower m := by
      intro w
      rw [port.parse_ok_iff]
      constructor
      · rintro ⟨rfl, hex, line, hhex, hline, heq⟩
        rcases List.mem_cons.mp hline with rfl | hline
        · exact ⟨⟨hex, hhex, by rw [heq, List.append_nil]⟩, rfl⟩
        · obtain ⟨u, hlower, rfl⟩ := (port.asciiLower_eq_append_iff hline).mp heq
          exact absurd ⟨u, line, ⟨hex, hhex, hlower⟩, hline, rfl⟩ hend
      · rintro ⟨⟨hex, hhex, heq⟩, rfl⟩
        exact ⟨rfl, hex, [], hhex, by simp, by rw [heq, List.append_nil]⟩
    by_cases hmachine : IsMachineId (asciiLower m)
    · obtain ⟨hex, hhex, heq⟩ := id hmachine
      have hencode : HasLineEnd ([] :: lineEnds) (isPublicPrefix · = true) ns →
          encode m ns = .ok (publicIdText ns hex) := fun hns => by
        simpa using port.encode_accepted m ns hex [] hns hhex (by simp) (by simpa using heq)
      by_cases hnsEnd : HasLineEnd lineEnds (isPublicPrefix · = true) ns
      · -- the public identifier holds the line end
        refine iff_of_false (fun h => ?_) fun h => h.2 ⟨hmachine, hnsEnd⟩
        have hok := hencode (hasLineEnd_cons_nil_iff.mpr (.inr hnsEnd))
        obtain ⟨u, line, -, hline, rfl⟩ := hnsEnd
        rcases h.encodes with ⟨p, hp, hpid⟩ | ⟨e, he, -⟩
        · rw [hok] at hp
          exact port.not_isPublicId hline (Except.ok.inj hp ▸ hpid)
        · rw [hok] at he
          contradiction
      · refine iff_of_true ⟨haccepts, ?_⟩ ⟨hend, fun h => hnsEnd h.2⟩
        by_cases hns : isPublicPrefix ns = true
        · exact .inl ⟨_, hencode (hasLineEnd_cons_nil_iff.mpr (.inl hns)), ns, hex, hns, hhex, rfl⟩
        · refine .inr (port.encode_rejected m ns (.inl fun h => ?_))
          exact (hasLineEnd_cons_nil_iff.mp h).elim hns hnsEnd
    · refine iff_of_true ⟨haccepts, .inr (port.encode_rejected m ns (.inr fun w hw => ?_))⟩
        ⟨hend, fun h => hmachine h.1⟩
      obtain ⟨hw, rfl⟩ := (haccepts w).mp hw
      exact hmachine hw

end LooseGrammar

end Grammar

/-! ## the ports -/

theorem csharp_anchored_iff {pattern : Text → Bool} {v : Text} :
    CSharp.anchored pattern v = true ↔ HasLineEnd ([] :: [['\n']]) (pattern · = true) v := by
  rw [CSharp.anchored_iff, hasLineEnd_cons_nil_iff]
  simp [HasLineEnd]

/-- The C# port: a line feed is let pass, and thrown by the number parser. -/
theorem csharp_looseGrammar (invariant : CaseMapping) :
    LooseGrammar (∃ code, · = CSharp.Failure.error code) (CSharp.parseMachineId invariant)
      (CSharp.publicIdFromMachineId invariant) [['\n']] where
  plain := by decide
  parse_ok_iff m w := by
    rw [CSharp.parseMachineId_ok_iff]
    simp
  encode_accepted m ns hex line hns hhex hline hlower := by
    have hanchored := csharp_anchored_iff.mpr hns
    rcases List.mem_cons.mp hline with rfl | hline
    · rw [List.append_nil] at hlower
      exact CSharp.publicIdFromMachineId_of_hex hanchored hhex hlower
    · obtain rfl := List.mem_singleton.mp hline
      exact ⟨_, CSharp.publicIdFromMachineId_of_lineFeed hanchored hhex hlower, by simp⟩
  encode_rejected m ns h := by
    rw [CSharp.publicIdFromMachineId]
    by_cases hanchored : CSharp.anchored isPublicPrefix ns = true
    · rw [ensure_of hanchored, ok_bind]
      cases hparse : CSharp.parseMachineId invariant m with
      | ok w => exact absurd hparse (h.resolve_left (fun h => h (csharp_anchored_iff.mp hanchored)) w)
      | error e => exact ⟨e, rfl, CSharp.parseMachineId_error hparse⟩
    · exact ⟨_, by rw [ensure_of_not hanchored, error_bind], _, rfl⟩

/-- The Swift port: any line terminator is let pass, and traps. -/
theorem swift_looseGrammar (strings : Swift.StringLibrary) :
    LooseGrammar (∃ code, · = Swift.Failure.error code) (Swift.parseMachineID strings)
      (Swift.publicID strings) Swift.lineTerminators where
  plain := by decide
  parse_ok_iff m w := Swift.parseMachineID_ok_iff
  encode_accepted m ns hex line hns hhex hline hlower := by
    rw [Swift.publicID_of_accepted (Swift.anchored_iff.mpr hns) hhex hline hlower]
    split
    · rfl
    · exact ⟨_, rfl, by simp⟩
  encode_rejected m ns h := by
    rw [Swift.publicID]
    by_cases hanchored : Swift.anchored isPublicPrefix ns = true
    · rw [ensure_of hanchored, ok_bind]
      cases hparse : Swift.parseMachineID strings m with
      | ok w => exact absurd hparse (h.resolve_left (fun h => h (Swift.anchored_iff.mp hanchored)) w)
      | error e => exact ⟨e, rfl, Swift.parseMachineID_error hparse⟩
    · exact ⟨_, by rw [ensure_of_not hanchored, error_bind], _, rfl⟩

/-- **The machine identifiers of the C# and the Swift port**: for every text and
every namespace, the grammar is kept exactly where no line end stands behind
them, a line feed for .NET and any line terminator for Foundation. -/
theorem midGrammarSound_iff (invariant : CaseMapping) (strings : Swift.StringLibrary) (m ns : Text) :
    (MidGrammarSound (∃ code, · = CSharp.Failure.error code) (CSharp.parseMachineId invariant)
        (CSharp.publicIdFromMachineId invariant) m ns ↔ NoLineEnd [['\n']] m ns) ∧
      (MidGrammarSound (∃ code, · = Swift.Failure.error code) (Swift.parseMachineID strings)
        (Swift.publicID strings) m ns ↔ NoLineEnd Swift.lineTerminators m ns) :=
  ⟨(csharp_looseGrammar invariant).sound_iff, (swift_looseGrammar strings).sound_iff⟩

/-- A machine identifier with a line feed behind it is accepted by both ports. -/
theorem midGrammarSound_fails_on_line_feed :
    ∃ m ns : Text, m = "019f0000-0000-7000-8000-000000000001\n".toList ∧ isPublicPrefix ns = true ∧
      ¬ MidGrammarSound (∃ code, · = CSharp.Failure.error code)
        (CSharp.parseMachineId asciiCaseMapping) (CSharp.publicIdFromMachineId asciiCaseMapping) m ns ∧
      ¬ MidGrammarSound (∃ code, · = Swift.Failure.error code)
        (Swift.parseMachineID Swift.asciiStrings) (Swift.publicID Swift.asciiStrings) m ns := by
  have hmachine : IsMachineId (asciiLower "019f0000-0000-7000-8000-000000000001".toList) :=
    isMachineId_iff.mpr (by decide)
  have hend : ∀ lineEnds : List Text, ['\n'] ∈ lineEnds →
      ¬ NoLineEnd lineEnds "019f0000-0000-7000-8000-000000000001\n".toList "order".toList :=
    fun lineEnds hline h => h.1 ⟨_, _, hmachine, hline, rfl⟩
  refine ⟨_, "order".toList, rfl, by decide, ?_, ?_⟩
  · rw [(csharp_looseGrammar asciiCaseMapping).sound_iff]
    exact hend _ (by decide)
  · rw [(swift_looseGrammar Swift.asciiStrings).sound_iff]
    exact hend _ (by decide)

end Identifold
