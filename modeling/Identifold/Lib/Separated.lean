import Mathlib.Data.List.Basic
import Mathlib.Data.List.TakeWhile
import Mathlib.Tactic.TypeStar

/-!
# Identifold.Lib.Separated

Lists written in groups around a separator: splitting at it, joining around
it, dropping it, and cutting a list into chunks of a fixed size.

The rule the rest rests on is `eq_join_iff`: a list *is* the joined
form of given separator-free groups exactly when it splits into groups of the
same lengths and spells the same symbols once the separators are dropped.

* `strip_join` — without its separators a joined list is its groups;
* `rsplitOnce_eq_some_iff` — the cut at the last separator;
* `flatten_chunks`, `map_length_chunks` — chunks lose nothing, and their lengths
  are known.
-/

namespace Separated

variable {α : Type*}

/-- `xs` without its separators. -/
def strip [DecidableEq α] (sep : α) (xs : List α) : List α := xs.filter (· ≠ sep)

/-- `groups` written one after the other with a separator between them. -/
def join (sep : α) (groups : List (List α)) : List α := [sep].intercalate groups

/-! ## dropping separators -/

section Strip

variable [DecidableEq α]

@[simp] theorem strip_nil (sep : α) : strip sep [] = [] := rfl

@[simp] theorem strip_append (sep : α) (xs ys : List α) :
    strip sep (xs ++ ys) = strip sep xs ++ strip sep ys := by
  simp [strip]

@[simp] theorem strip_cons_self (sep : α) (xs : List α) : strip sep (sep :: xs) = strip sep xs := by
  simp [strip]

/-- A text without separators stays. -/
theorem strip_eq_self {sep : α} {xs : List α} (h : sep ∉ xs) : strip sep xs = xs := by
  apply List.filter_eq_self.mpr
  intro x hx
  have hne : x ≠ sep := fun he => h (he ▸ hx)
  simpa using hne

theorem mem_of_mem_strip {sep x : α} {xs : List α} (h : x ∈ strip sep xs) : x ∈ xs :=
  (List.mem_filter.mp h).1

theorem mem_strip_of_mem {sep x : α} {xs : List α} (h : x ∈ xs) (hne : x ≠ sep) :
    x ∈ strip sep xs :=
  List.mem_filter.mpr ⟨h, by simpa using hne⟩

/-- No separator is left. -/
theorem not_mem_strip (sep : α) (xs : List α) : sep ∉ strip sep xs := by
  simp [strip]

/-- A map that neither moves nor makes separators leaves them where they are. -/
theorem strip_map {β : Type*} [DecidableEq β] {sep : α} {sep' : β} {f : α → β}
    (h : ∀ x, f x = sep' ↔ x = sep) (xs : List α) :
    strip sep' (xs.map f) = (strip sep xs).map f := by
  have htest : ((fun y => decide (y ≠ sep')) ∘ f) = fun x => decide (x ≠ sep) :=
    funext fun x => by simp [h]
  rw [strip, List.filter_map, htest, strip]

/-- Dropping the separators of a list joins the groups it splits into. -/
theorem flatten_splitOn (sep : α) (xs : List α) : (xs.splitOn sep).flatten = strip sep xs := by
  induction xs with
  | nil => simp [List.splitOn_nil]
  | cons x xs ih =>
      rw [List.splitOn_cons_eq_if_modifyHead]
      obtain ⟨g, gs, hg⟩ := List.exists_cons_of_ne_nil (List.splitOn_ne_nil sep xs)
      rw [hg] at ih ⊢
      by_cases hx : x = sep
      · subst hx
        simpa using ih
      · have hs : strip sep (x :: xs) = x :: strip sep xs := by simp [strip, hx]
        rw [hs, ← ih]
        simp [hx]

/-- A list of singletons splits as the list of their elements. -/
theorem splitOn_map_singleton (sep : α) (xs : List α) :
    (xs.map ([·])).splitOn [sep] = (xs.splitOn sep).map (List.map ([·])) := by
  induction xs with
  | nil => rfl
  | cons x xs ih =>
      rw [List.map_cons, List.splitOn_cons_eq_if_modifyHead, List.splitOn_cons_eq_if_modifyHead, ih]
      obtain ⟨g, gs, hg⟩ := List.exists_cons_of_ne_nil (List.splitOn_ne_nil sep xs)
      rw [hg]
      by_cases hx : x = sep
      · rw [if_pos (beq_iff_eq.mpr hx), if_pos (beq_iff_eq.mpr (congrArg ([·]) hx))]
        rfl
      · have hsingle : [x] ≠ [sep] := fun h => hx (List.singleton_inj.mp h)
        rw [if_neg fun h => hsingle (beq_iff_eq.mp h), if_neg fun h => hx (beq_iff_eq.mp h)]
        rfl

/-- What comes before the first separator is written in front of the first
group. -/
theorem splitOn_append_of_not_mem {sep : α} {xs : List α} (h : sep ∉ xs) (ys : List α) :
    (xs ++ ys).splitOn sep = (ys.splitOn sep).modifyHead (xs ++ ·) := by
  induction xs with
  | nil => exact (congrFun List.modifyHead_id _).symm
  | cons x xs ih =>
      have hx : (x == sep) = false := beq_false_of_ne fun he => h (he ▸ List.mem_cons_self)
      rw [List.cons_append, List.splitOn_cons_eq_if_modifyHead, hx, if_neg Bool.false_ne_true,
        ih fun hmem => h (List.mem_cons_of_mem _ hmem), List.modifyHead_modifyHead]
      rfl

/-- No group holds the separator. -/
theorem not_mem_of_mem_splitOn {sep : α} {xs g : List α} (h : g ∈ xs.splitOn sep) : sep ∉ g := by
  induction xs generalizing g with
  | nil =>
      rw [List.splitOn_nil, List.mem_singleton] at h
      rw [h]
      exact List.not_mem_nil
  | cons x xs ih =>
      rw [List.splitOn_cons_eq_if_modifyHead] at h
      obtain ⟨g', gs, hg⟩ := List.exists_cons_of_ne_nil (List.splitOn_ne_nil sep xs)
      rw [hg] at h ih
      by_cases hx : x = sep
      · rw [if_pos (beq_iff_eq.mpr hx)] at h
        rcases List.mem_cons.mp h with rfl | hrest
        · exact List.not_mem_nil
        · exact ih hrest
      · rw [if_neg (by simpa using hx), List.modifyHead_cons] at h
        rcases List.mem_cons.mp h with rfl | hrest
        · exact List.not_mem_cons_of_ne_of_not_mem (Ne.symm hx) (ih List.mem_cons_self)
        · exact ih (List.mem_cons_of_mem _ hrest)

/-- The lengths between the separators depend on their places alone. -/
theorem map_length_splitOn_congr {sep : α} {xs ys : List α}
    (h : xs.map (· == sep) = ys.map (· == sep)) :
    (xs.splitOn sep).map List.length = (ys.splitOn sep).map List.length := by
  induction xs generalizing ys with
  | nil =>
      obtain rfl := List.map_eq_nil_iff.mp h.symm
      rfl
  | cons x xs ih =>
      cases ys with
      | nil => contradiction
      | cons y ys =>
          rw [List.map_cons, List.map_cons, List.cons.injEq] at h
          have hrest := ih h.2
          obtain ⟨g, gs, hg⟩ := List.exists_cons_of_ne_nil (List.splitOn_ne_nil sep xs)
          obtain ⟨g', gs', hg'⟩ := List.exists_cons_of_ne_nil (List.splitOn_ne_nil sep ys)
          rw [hg, hg', List.map_cons, List.map_cons, List.cons.injEq] at hrest
          rw [List.splitOn_cons_eq_if_modifyHead, List.splitOn_cons_eq_if_modifyHead, h.1, hg, hg']
          split
          · simp [hrest]
          · simp [hrest]

/-- The groups are what is left when their separators are stripped. -/
theorem strip_join {sep : α} {groups : List (List α)} (h : ∀ g ∈ groups, sep ∉ g)
    (hne : groups ≠ []) : strip sep (join sep groups) = groups.flatten := by
  rw [← flatten_splitOn, join, List.splitOn_intercalate sep h hne]

/-- Joined separator-free groups split back into themselves. -/
theorem splitOn_join {sep : α} {groups : List (List α)} (h : ∀ g ∈ groups, sep ∉ g)
    (hne : groups ≠ []) : (join sep groups).splitOn sep = groups :=
  List.splitOn_intercalate sep h hne

/-- **Joined form**: the lengths between the separators and the symbols apart
from them determine the list. -/
theorem eq_join_iff {sep : α} (xs : List α) {groups : List (List α)}
    (h : ∀ g ∈ groups, sep ∉ g) (hne : groups ≠ []) :
    xs = join sep groups ↔
      (xs.splitOn sep).map List.length = groups.map List.length ∧
        strip sep xs = groups.flatten := by
  constructor
  · intro hx
    subst hx
    exact ⟨by rw [splitOn_join h hne], strip_join h hne⟩
  · rintro ⟨hlen, hflat⟩
    have hgroups : xs.splitOn sep = groups :=
      List.eq_iff_flatten_eq.mpr ⟨by rw [flatten_splitOn, hflat], hlen⟩
    rw [join, ← hgroups, List.intercalate_splitOn]

end Strip

/-! ## the first separator -/

section First

variable [DecidableEq α] {sep : α}

/-- A list with a separator is what precedes the first one, the separator,
and what follows it. -/
theorem takeWhile_append_drop {xs : List α} (h : sep ∈ xs) :
    xs = xs.takeWhile (· ≠ sep) ++ sep :: (xs.dropWhile (· ≠ sep)).drop 1 := by
  induction xs with
  | nil => contradiction
  | cons x xs ih =>
      by_cases hx : x = sep
      · subst hx; simp
      · have hmem : sep ∈ xs := (List.mem_cons.mp h).resolve_left (Ne.symm hx)
        have hrest := ih hmem
        simp only [ne_eq, hx, not_false_eq_true, decide_true, List.takeWhile_cons_of_pos,
          List.dropWhile_cons_of_pos, List.cons_append] at hrest ⊢
        rw [← hrest]

/-- The first separator cuts behind a part that has none. -/
theorem takeWhile_of_not_mem {xs : List α} (h : sep ∉ xs) (ys : List α) :
    (xs ++ sep :: ys).takeWhile (· ≠ sep) = xs ∧
      ((xs ++ sep :: ys).dropWhile (· ≠ sep)).drop 1 = ys := by
  have hall : ∀ x ∈ xs, decide (x ≠ sep) = true := by
    intro x hx
    have hne : x ≠ sep := fun he => h (he ▸ hx)
    simpa using hne
  rw [List.takeWhile_append_of_pos hall, List.dropWhile_append_of_pos hall]
  simp

/-- Split at the last separator. -/
def rsplitOnce (sep : α) (xs : List α) : Option (List α × List α) :=
  if sep ∈ xs then
    some (((xs.reverse.dropWhile (· ≠ sep)).drop 1).reverse,
      (xs.reverse.takeWhile (· ≠ sep)).reverse)
  else none

/-- A list is cut at its last separator. -/
theorem rsplitOnce_eq_some_iff {xs ys zs : List α} :
    rsplitOnce sep xs = some (ys, zs) ↔ xs = ys ++ sep :: zs ∧ sep ∉ zs := by
  unfold rsplitOnce
  constructor
  · intro h
    split at h
    · next hmem =>
        simp only [Option.some.injEq, Prod.mk.injEq] at h
        obtain ⟨rfl, rfl⟩ := h
        refine ⟨?_, ?_⟩
        · have hcut := congrArg List.reverse
            (takeWhile_append_drop (List.mem_reverse.mpr hmem))
          simpa using hcut
        · intro hin
          have hne := List.mem_takeWhile_imp (List.mem_reverse.mp hin)
          simp at hne
    · contradiction
  · rintro ⟨rfl, hnot⟩
    have hreversed : sep ∉ zs.reverse := by simpa using hnot
    have hcut := takeWhile_of_not_mem hreversed ys.reverse
    have hreverse : (ys ++ sep :: zs).reverse = zs.reverse ++ sep :: ys.reverse := by simp
    rw [if_pos (by simp), hreverse, hcut.1, hcut.2]
    simp

/-- A list of singletons is split as the list of their elements. -/
theorem rsplitOnce_map_singleton (sep : α) (xs : List α) :
    rsplitOnce [sep] (xs.map ([·])) =
      (rsplitOnce sep xs).map fun p => (p.1.map ([·]), p.2.map ([·])) := by
  cases h : rsplitOnce sep xs with
  | none =>
      have hsep : sep ∉ xs := fun hmem => by simp [rsplitOnce, hmem] at h
      simp [rsplitOnce, hsep]
  | some p =>
      obtain ⟨hxs, hsep⟩ := rsplitOnce_eq_some_iff.mp h
      rw [hxs, Option.map_some, rsplitOnce_eq_some_iff]
      simp [hsep]

end First

/-! ## joining -/

/-- Two groups have a separator between them. -/
theorem mem_join_self {sep : α} {g₁ g₂ : List α} {groups : List (List α)} :
    sep ∈ join sep (g₁ :: g₂ :: groups) := by
  simp [join]

/-- The first group of several is followed by a separator. -/
theorem join_cons {sep : α} {g : List α} {groups : List (List α)} (hne : groups ≠ []) :
    join sep (g :: groups) = g ++ sep :: join sep groups := by
  rw [join, List.intercalate_cons_of_ne_nil hne]
  simp [join]

/-- The last group of several is preceded by one. -/
theorem join_concat {sep : α} {g : List α} {groups : List (List α)} (hne : groups ≠ []) :
    join sep (groups ++ [g]) = join sep groups ++ sep :: g := by
  induction groups with
  | nil => contradiction
  | cons g' groups ih =>
      by_cases hnil : groups = []
      · subst hnil; simp [join]
      · rw [List.cons_append, join_cons (by simp), ih hnil, join_cons hnil]
        simp

/-- There is one separator less than there are groups. -/
theorem length_join (sep : α) (groups : List (List α)) (hne : groups ≠ []) :
    (join sep groups).length + 1 = groups.flatten.length + groups.length := by
  induction groups with
  | nil => contradiction
  | cons g groups ih =>
      by_cases hnil : groups = []
      · subst hnil; simp [join]
      · rw [join_cons hnil, List.flatten_cons, List.length_append, List.length_append,
          List.length_cons, List.length_cons]
        have h := ih hnil
        omega

/-- A joined list has its separators and the members of its groups. -/
theorem mem_join {sep x : α} {groups : List (List α)} (h : x ∈ join sep groups) :
    x = sep ∨ ∃ g ∈ groups, x ∈ g := by
  induction groups with
  | nil => simp [join] at h
  | cons g groups ih =>
      by_cases hne : groups = []
      · subst hne
        exact .inr ⟨g, by simp, by simpa [join] using h⟩
      · rw [join_cons hne, List.mem_append, List.mem_cons] at h
        rcases h with hg | hsep | hrest
        · exact .inr ⟨g, by simp, hg⟩
        · exact .inl hsep
        · rcases ih hrest with hx | ⟨g', hg', hx⟩
          · exact .inl hx
          · exact .inr ⟨g', by simp [hg'], hx⟩

/-! ## order -/

section Order

variable [Preorder α]

/-- Lists that begin with parts of one length are ordered by these first. -/
theorem append_lt_append_iff {xs xs' ys ys' : List α} (hlen : xs.length = xs'.length) :
    xs ++ ys < xs' ++ ys' ↔ xs < xs' ∨ xs = xs' ∧ ys < ys' := by
  induction xs generalizing xs' with
  | nil =>
      obtain rfl := List.length_eq_zero_iff.mp hlen.symm
      simp
  | cons x xs ih =>
      cases xs' with
      | nil => contradiction
      | cons x' xs' =>
          rw [List.cons_append, List.cons_append, List.cons_lt_cons_iff, List.cons_lt_cons_iff,
            ih (by simpa using hlen), List.cons.injEq]
          tauto

/-- Between groups of the same lengths the separators do not count. -/
theorem join_lt_join_iff (sep : α) {gs hs : List (List α)}
    (hlen : gs.map List.length = hs.map List.length) :
    join sep gs < join sep hs ↔ gs.flatten < hs.flatten := by
  induction gs generalizing hs with
  | nil =>
      obtain rfl := List.map_eq_nil_iff.mp hlen.symm
      exact Iff.rfl
  | cons g gs ih =>
      cases hs with
      | nil => contradiction
      | cons h hs =>
          rw [List.map_cons, List.map_cons, List.cons.injEq] at hlen
          by_cases hnil : gs = []
          · obtain rfl : hs = [] := List.map_eq_nil_iff.mp (by rw [← hlen.2, hnil, List.map_nil])
            simp [hnil, join]
          · have hne : hs ≠ [] := fun he => hnil (List.map_eq_nil_iff.mp (by rw [hlen.2, he, List.map_nil]))
            rw [join_cons hnil, join_cons hne, append_lt_append_iff hlen.1, List.flatten_cons,
              List.flatten_cons, append_lt_append_iff hlen.1, List.cons_lt_cons_iff, ih hlen.2]
            simp

end Order

/-! ## chunks -/

/-- The consecutive slices of `xs` of length `k`; the last may be shorter. -/
def chunks (k : Nat) (xs : List α) : List (List α) :=
  (List.range ((xs.length + (k - 1)) / k)).map fun i => (xs.drop (k * i)).take k

/-- The lengths of the chunks of a list of length `n`. -/
def chunkLengths (k n : Nat) : List Nat :=
  (List.range ((n + (k - 1)) / k)).map fun i => min k (n - k * i)

/-- The lengths of the chunks depend on the length of the list alone. -/
theorem map_length_chunks (k : Nat) (xs : List α) :
    (chunks k xs).map List.length = chunkLengths k xs.length := by
  simp [chunks, chunkLengths]

/-- The first `m` slices of length `k` are the first `k * m` elements. -/
private theorem flatten_slices (k m : Nat) (xs : List α) :
    ((List.range m).map fun i => (xs.drop (k * i)).take k).flatten = xs.take (k * m) := by
  induction m with
  | zero => simp
  | succ m ih =>
      rw [List.range_succ, List.map_append, List.flatten_append, ih, Nat.mul_succ, List.take_add]
      simp

/-- The chunks of a list put it back together. -/
theorem chunks_nil {k : Nat} (hk : 0 < k) : chunks k ([] : List α) = [] := by
  rw [chunks, List.length_nil, Nat.zero_add, Nat.div_eq_of_lt (by omega), List.range_zero,
    List.map_nil]

/-- The first chunk, and those of the rest. -/
theorem chunks_eq_cons {k : Nat} (hk : 0 < k) {xs : List α} (h : xs ≠ []) :
    chunks k xs = xs.take k :: chunks k (xs.drop k) := by
  have hpos := List.length_pos_iff.mpr h
  have hcount : (xs.length + (k - 1)) / k = (xs.length - k + (k - 1)) / k + 1 := by
    by_cases hlong : k ≤ xs.length
    · rw [← Nat.add_div_right _ hk]
      congr 1
      omega
    · have hzero : (xs.length - k + (k - 1)) / k = 0 := Nat.div_eq_of_lt (by omega)
      have hone : (xs.length + (k - 1)) / k = 1 := Nat.div_eq_of_lt_le (by omega) (by omega)
      rw [hzero, hone]
  rw [chunks, hcount, List.range_succ_eq_map, List.map_cons, List.map_map, chunks, List.length_drop,
    Nat.mul_zero, List.drop_zero]
  congr 1
  refine List.map_congr_left fun i _ => ?_
  rw [Function.comp_apply, List.drop_drop, Nat.mul_succ, Nat.add_comm]

/-- Chunks are taken by position. -/
theorem chunks_map {β : Type*} (k : Nat) (f : α → β) (xs : List α) :
    chunks k (xs.map f) = (chunks k xs).map (List.map f) := by
  simp [chunks, List.map_take, List.map_drop]

/-- The chunks of a list whose length is a multiple of `k`. -/
theorem chunks_of_length_eq {k w : Nat} (hk : 0 < k) {xs : List α} (h : xs.length = w * k) :
    (chunks k xs).length = w ∧ ∀ g ∈ chunks k xs, g.length = k := by
  have hcount : (w * k + (k - 1)) / k = w := by
    rw [Nat.mul_comm, Nat.mul_add_div hk, Nat.div_eq_of_lt (by omega), Nat.add_zero]
  refine ⟨by rw [chunks, List.length_map, List.length_range, h, hcount], fun g hg => ?_⟩
  rw [chunks, h, hcount] at hg
  obtain ⟨i, hi, rfl⟩ := List.mem_map.mp hg
  have hlast : (i + 1) * k ≤ w * k := Nat.mul_le_mul_right k (List.mem_range.mp hi)
  rw [Nat.add_mul, Nat.mul_comm i k] at hlast
  rw [List.length_take, List.length_drop]
  omega

/-- Nothing is lost between the chunks. -/
theorem flatten_chunks {k : Nat} (hk : 0 < k) (xs : List α) : (chunks k xs).flatten = xs := by
  rw [chunks, flatten_slices]
  apply List.take_of_length_le
  have h := Nat.lt_mul_div_succ (xs.length + (k - 1)) hk
  rw [Nat.mul_succ] at h
  omega

end Separated
