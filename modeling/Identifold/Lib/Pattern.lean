import Mathlib.Data.List.Basic
import Mathlib.Data.List.TakeWhile
import Mathlib.Tactic.TypeStar

/-!
# Identifold.Lib.Pattern

Anchored patterns with bounded repetitions, optional groups and captures.

`run` is the backtracking matcher: every way to match a beginning of the text,
in the order the matcher tries them.  `exec` takes the first of them that ends
where the text does, as `^..$` asks.  `Matches` is the declarative reading: the
texts a pattern spells, with what it captures.

The rule the rest rests on is `mem_run_iff`: the matcher tries exactly what the
pattern spells.  Where a text is spelled with one capture only, the order of
the attempts does not count, and `exec` is `Matches` (`exec_eq_some_iff`).
-/

/-- Patterns over an alphabet: a class of symbols, a greedy repetition of a
class, two patterns in a row, a numbered group and a greedy optional part. -/
inductive Pattern (α : Type*) where
  | symbol (accepts : α → Bool)
  | many (accepts : α → Bool) (least most : ℕ)
  | seq (first second : Pattern α)
  | capture (index : ℕ) (body : Pattern α)
  | optional (body : Pattern α)

namespace Pattern

variable {α : Type*}

/-- What the numbered groups have captured. -/
abbrev Captures (α : Type*) := List (ℕ × List α)

/-- Every way to match a beginning of the text: how much of it is read, and
what is captured, the preferred way first. -/
def run : Pattern α → List α → List (ℕ × Captures α)
  | .symbol accepts, xs => if xs.head?.any accepts then [(1, [])] else []
  | .many accepts least most, xs =>
      ((List.range (min most (xs.takeWhile accepts).length + 1)).filter (least ≤ ·)).reverse.map
        fun n => (n, [])
  | .seq first second, xs =>
      (run first xs).flatMap fun i =>
        (run second (xs.drop i.1)).map fun j => (i.1 + j.1, i.2 ++ j.2)
  | .capture index body, xs => (run body xs).map fun i => (i.1, (index, xs.take i.1) :: i.2)
  | .optional body, xs => run body xs ++ [(0, [])]

/-- `^..$`: the captures of the first match of the whole text. -/
def exec (p : Pattern α) (xs : List α) : Option (Captures α) :=
  ((p.run xs).find? fun i => i.1 = xs.length).map Prod.snd

/-- The texts a pattern spells, with the captures. -/
def Matches : Pattern α → List α → Captures α → Prop
  | .symbol accepts, xs, captures => (∃ x, accepts x = true ∧ xs = [x]) ∧ captures = []
  | .many accepts least most, xs, captures =>
      (least ≤ xs.length ∧ xs.length ≤ most ∧ ∀ x ∈ xs, accepts x = true) ∧ captures = []
  | .seq first second, xs, captures =>
      ∃ ys zs c d, Matches first ys c ∧ Matches second zs d ∧ xs = ys ++ zs ∧ captures = c ++ d
  | .capture index body, xs, captures => ∃ c, Matches body xs c ∧ captures = (index, xs) :: c
  | .optional body, xs, captures => Matches body xs captures ∨ xs = [] ∧ captures = []

/-! ## the matcher tries what the pattern spells -/

/-- A beginning lies within the longest one of a class when all of it does. -/
theorem le_length_takeWhile_iff (accepts : α → Bool) (xs : List α) (n : ℕ) :
    n ≤ (xs.takeWhile accepts).length ↔ n ≤ xs.length ∧ ∀ x ∈ xs.take n, accepts x = true := by
  induction xs generalizing n with
  | nil => simp
  | cons x xs ih =>
      cases n with
      | zero => simp
      | succ n =>
          by_cases hx : accepts x = true
          · simp [hx, ih]
          · simp [hx]

theorem mem_run_iff (p : Pattern α) (xs : List α) (n : ℕ) (captures : Captures α) :
    (n, captures) ∈ p.run xs ↔ n ≤ xs.length ∧ p.Matches (xs.take n) captures := by
  induction p generalizing xs n captures with
  | symbol accepts =>
      cases xs with
      | nil => simp [run, Matches]
      | cons x xs =>
          cases n with
          | zero => by_cases hx : accepts x = true <;> simp [run, Matches, hx]
          | succ n =>
              by_cases hx : accepts x = true
              · cases n <;> cases xs <;> simp [run, Matches, hx]
              · cases n <;> cases xs <;> simp [run, Matches, hx]
  | many accepts least most =>
      -- the lengths of a run are those of its accepted beginning
      have hmem : (n, captures) ∈ run (.many accepts least most) xs ↔
          n ≤ most ∧ n ≤ (xs.takeWhile accepts).length ∧ least ≤ n ∧ captures = [] := by
        simp only [run, List.mem_map, List.mem_reverse, List.mem_filter, List.mem_range,
          Prod.mk.injEq, decide_eq_true_eq]
        constructor
        · rintro ⟨k, ⟨hlt, hleast⟩, rfl, rfl⟩
          exact ⟨by omega, by omega, hleast, rfl⟩
        · rintro ⟨hmost, hlength, hleast, rfl⟩
          exact ⟨n, ⟨by omega, hleast⟩, rfl, rfl⟩
      rw [hmem, le_length_takeWhile_iff, Matches, List.length_take]
      constructor
      · rintro ⟨hmost, ⟨hle, hall⟩, hleast, hcaptures⟩
        exact ⟨hle, ⟨by omega, by omega, hall⟩, hcaptures⟩
      · rintro ⟨hle, ⟨hleast, hmost, hall⟩, hcaptures⟩
        exact ⟨by omega, ⟨hle, hall⟩, by omega, hcaptures⟩
  | seq first second hfirst hsecond =>
      -- the text is cut where the first part ends
      simp only [run, List.mem_flatMap, List.mem_map, Prod.exists, Prod.mk.injEq, hfirst, hsecond,
        Matches]
      constructor
      · rintro ⟨i, c, ⟨hi, hc⟩, j, d, ⟨hj, hd⟩, rfl, rfl⟩
        rw [List.length_drop] at hj
        exact ⟨by omega, _, _, c, d, hc, hd, List.take_add, rfl⟩
      · rintro ⟨hn, ys, zs, c, d, hc, hd, htake, rfl⟩
        have hlen : ys.length + zs.length = n := by
          rw [← List.length_append, ← htake, List.length_take, Nat.min_eq_left hn]
        have hxs : xs = ys ++ (zs ++ xs.drop n) := by
          rw [← List.append_assoc, ← htake, List.take_append_drop]
        refine ⟨ys.length, c, ⟨by omega, ?_⟩, zs.length, d, ⟨?_, ?_⟩, hlen, rfl⟩
        · rwa [hxs, List.take_left]
        · rw [List.length_drop]
          omega
        · rwa [hxs, List.drop_left, List.take_left]
  | capture index body ih =>
      simp only [run, List.mem_map, Prod.exists, Prod.mk.injEq, ih, Matches]
      constructor
      · rintro ⟨k, c, ⟨hk, hc⟩, rfl, rfl⟩
        exact ⟨hk, c, hc, rfl⟩
      · rintro ⟨hn, c, hc, rfl⟩
        exact ⟨n, c, ⟨hn, hc⟩, rfl, rfl⟩
  | optional body ih =>
      -- the empty match comes last
      simp only [run, List.mem_append, ih, List.mem_singleton, Prod.mk.injEq, Matches,
        List.take_eq_nil_iff]
      constructor
      · rintro (⟨hn, hc⟩ | ⟨rfl, rfl⟩)
        · exact ⟨hn, .inl hc⟩
        · exact ⟨Nat.zero_le _, .inr ⟨.inl rfl, rfl⟩⟩
      · rintro ⟨hn, hc | ⟨rfl | rfl, rfl⟩⟩
        · exact .inl ⟨hn, hc⟩
        · exact .inr ⟨rfl, rfl⟩
        · exact .inr ⟨by simpa using hn, rfl⟩

/-! ## the first match of the whole text -/

/-- What `exec` captures, the pattern spells. -/
theorem matches_of_exec {p : Pattern α} {xs : List α} {captures : Captures α}
    (h : p.exec xs = some captures) : p.Matches xs captures := by
  obtain ⟨⟨n, c⟩, hfind, rfl⟩ := Option.map_eq_some_iff.mp h
  have hn : n = xs.length := by simpa using List.find?_some hfind
  have hmatch := ((mem_run_iff p xs n c).mp (List.mem_of_find?_eq_some hfind)).2
  rwa [hn, List.take_length] at hmatch

/-- A text the pattern spells is matched. -/
theorem exec_ne_none_of_matches {p : Pattern α} {xs : List α} {captures : Captures α}
    (h : p.Matches xs captures) : p.exec xs ≠ none := by
  intro hnone
  have hmem : (xs.length, captures) ∈ p.run xs :=
    (mem_run_iff p xs _ _).mpr ⟨le_rfl, by rwa [List.take_length]⟩
  have hnot := List.find?_eq_none.mp (Option.map_eq_none_iff.mp hnone) _ hmem
  simp at hnot

/-- Where a text is spelled with one capture only, `exec` finds it. -/
theorem exec_eq_some_iff {p : Pattern α} {xs : List α}
    (hunique : ∀ c d, p.Matches xs c → p.Matches xs d → c = d) (captures : Captures α) :
    p.exec xs = some captures ↔ p.Matches xs captures := by
  refine ⟨matches_of_exec, fun h => ?_⟩
  obtain ⟨d, hd⟩ := Option.ne_none_iff_exists'.mp (exec_ne_none_of_matches h)
  rw [hd, hunique d captures (matches_of_exec hd) h]

/-- A text is refused when the pattern does not spell it. -/
theorem exec_eq_none_iff {p : Pattern α} {xs : List α} :
    p.exec xs = none ↔ ∀ captures, ¬ p.Matches xs captures := by
  constructor
  · intro hnone captures h
    exact exec_ne_none_of_matches h hnone
  · intro h
    cases hexec : p.exec xs with
    | none => rfl
    | some captures => exact absurd (matches_of_exec hexec) (h captures)

end Pattern
