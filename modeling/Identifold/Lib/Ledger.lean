import Mathlib.Data.List.Basic
import Mathlib.Data.List.Infix
import Mathlib.Data.List.Nodup
import Mathlib.Tactic.TypeStar

/-!
# Identifold.Lib.Ledger

A ledger numbers the items entered into it: an item is entered once, at the
end, and its number is its position from then on, however the ledger grows.

This is the abstract meaning of a sequence allocator.  A table implements a
ledger when its rows carry the numbers in order (`IsNumbered`); looking an
item's row up then finds the item's number.
-/

namespace Ledger

variable {μ : Type*} [DecidableEq μ] {items items' : List μ} {m m' : μ}

/-- The number of an item: its position, counted from one. -/
def number (items : List μ) (m : μ) : Nat := items.idxOf m + 1

/-- Enter an item, unless it is there, and give its number. -/
def issue (items : List μ) (m : μ) : Nat × List μ :=
  if m ∈ items then (number items m, items) else (items.length + 1, items ++ [m])

/-! ## numbers -/

theorem number_of_isPrefix (h : items <+: items') (hm : m ∈ items) :
    number items' m = number items m := by
  obtain ⟨rest, rfl⟩ := h
  rw [number, number, List.idxOf_append_of_mem hm]

theorem number_le (hm : m ∈ items) : number items m ≤ items.length :=
  List.idxOf_lt_length_of_mem hm

/-- Different items have different numbers. -/
theorem number_injective (hm : m ∈ items) (h : number items m = number items m') : m = m' := by
  have hidx : items.idxOf m = items.idxOf m' := Nat.succ.inj h
  exact (List.idxOf_inj hm).mp hidx

/-! ## entering -/

theorem issue_of_mem (h : m ∈ items) : issue items m = (number items m, items) := if_pos h

theorem issue_of_not_mem (h : m ∉ items) : issue items m = (items.length + 1, items ++ [m]) :=
  if_neg h

/-- What is issued is the item's number in the ledger that results. -/
theorem issue_eq_number (items : List μ) (m : μ) :
    (issue items m).1 = number (issue items m).2 m ∧ m ∈ (issue items m).2 := by
  by_cases h : m ∈ items
  · rw [issue_of_mem h]
    exact ⟨rfl, h⟩
  · rw [issue_of_not_mem h]
    refine ⟨?_, by simp⟩
    rw [number, List.idxOf_append_of_notMem h]
    simp

theorem issue_nodup (h : items.Nodup) : (issue items m).2.Nodup := by
  by_cases hm : m ∈ items
  · rwa [issue_of_mem hm]
  · rw [issue_of_not_mem hm]
    exact List.nodup_append.mpr ⟨h, List.nodup_singleton m, by
      rintro a ha b hb rfl
      exact hm (List.mem_singleton.mp hb ▸ ha)⟩

theorem prefix_issue (items : List μ) (m : μ) : items <+: (issue items m).2 := by
  by_cases h : m ∈ items
  · rw [issue_of_mem h]
  · rw [issue_of_not_mem h]
    exact List.prefix_append items [m]

/-- `m` is entered under the number `n`. -/
def Assigns (items : List μ) (m : μ) (n : Nat) : Prop := m ∈ items ∧ number items m = n

theorem Assigns.mono {n : Nat} (h : Assigns items m n) (hpre : items <+: items') :
    Assigns items' m n :=
  ⟨hpre.subset h.1, (number_of_isPrefix hpre h.1).trans h.2⟩

/-- **Entering**: a ledger assigns what it assigned before, and to the item
just entered the number issued for it. -/
theorem assigns_issue_iff {n : Nat} :
    Assigns (issue items m).2 m' n ↔ Assigns items m' n ∨ m' = m ∧ n = (issue items m).1 := by
  obtain ⟨hnumber, hmem⟩ := issue_eq_number items m
  constructor
  · intro h
    by_cases hsame : m' = m
    · rw [hsame] at h
      exact .inr ⟨hsame, h.2.symm.trans hnumber.symm⟩
    · refine .inl ?_
      have hold : m' ∈ items := by
        by_cases hm : m ∈ items
        · rw [issue_of_mem hm] at h
          exact h.1
        · rw [issue_of_not_mem hm] at h
          simpa [hsame] using h.1
      exact ⟨hold, (number_of_isPrefix (prefix_issue items m) hold).symm.trans h.2⟩
  · rintro (h | ⟨hsame, hn⟩)
    · exact h.mono (prefix_issue items m)
    · rw [hsame, hn]
      exact ⟨hmem, hnumber.symm⟩

/-! ## tables -/

section Tables

variable {ρ : Type*} {rows : List ρ} {item : ρ → μ} {sequence : ρ → Nat} {r : ρ}

/-- The rows carry the numbers one, two, three, ... in their order, each for
another item. -/
def IsNumbered (item : ρ → μ) (sequence : ρ → Nat) (rows : List ρ) : Prop :=
  (rows.map item).Nodup ∧ rows.map sequence = List.range' 1 rows.length

omit [DecidableEq μ] in
theorem isNumbered_nil : IsNumbered item sequence [] := ⟨List.nodup_nil, rfl⟩

/-- A row carries the number of its item. -/
theorem IsNumbered.sequence_eq (h : IsNumbered item sequence rows) (hr : r ∈ rows) :
    sequence r = number (rows.map item) (item r) := by
  obtain ⟨i, hi, rfl⟩ := List.getElem_of_mem hr
  have hitem : i < (rows.map item).length := by simpa using hi
  have hidx : (rows.map item).idxOf (item rows[i]) = i := by
    rw [← List.getElem_map item (h := hitem)]
    exact h.1.idxOf_getElem i hitem
  have hget : (rows.map sequence)[i]? = some (1 + i) := by
    rw [h.2, List.getElem?_range' hi, Nat.one_mul]
  rw [List.getElem?_map, List.getElem?_eq_getElem hi, Option.map_some, Option.some.injEq] at hget
  rw [hget, number, hidx, Nat.add_comm]

/-- The row of a new item carries the next number. -/
theorem IsNumbered.concat (h : IsNumbered item sequence rows) (hnew : item r ∉ rows.map item)
    (hsequence : sequence r = rows.length + 1) : IsNumbered item sequence (rows ++ [r]) := by
  refine ⟨?_, ?_⟩
  · rw [List.map_append, List.map_singleton]
    have hissued := issue_nodup (m := item r) h.1
    rwa [issue_of_not_mem hnew] at hissued
  · rw [List.map_append, List.map_singleton, h.2, hsequence, List.length_append,
      List.length_singleton, List.range'_concat, Nat.one_mul, Nat.add_comm]

end Tables

end Ledger
