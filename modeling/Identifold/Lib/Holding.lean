import Mathlib.Data.List.Basic
import Mathlib.Tactic.TypeStar

/-!
# Identifold.Lib.Holding

What the transactions in flight hold, row locks or uncommitted rows, as a
list of items, each with the number of its holder.  A holder takes items one
at a time and releases all of them at once, and neither touches what the
others hold.
-/

namespace Holding

variable {α : Type*} {held : List (α × Nat)} {a : α} {i j : Nat}

/-- The items of one holder, in the order it took them. -/
def heldBy (held : List (α × Nat)) (i : Nat) : List α := (held.filter (·.2 = i)).map (·.1)

/-- The items of all other holders. -/
def heldByOthers (held : List (α × Nat)) (i : Nat) : List α := (held.filter (·.2 ≠ i)).map (·.1)

/-- Take an item. -/
def take (held : List (α × Nat)) (i : Nat) (a : α) : List (α × Nat) := held ++ [(a, i)]

/-- Release the items of a holder. -/
def release (held : List (α × Nat)) (i : Nat) : List (α × Nat) := held.filter (·.2 ≠ i)

theorem mem_heldBy : a ∈ heldBy held i ↔ (a, i) ∈ held := by
  simp [heldBy]

/-- What the others hold is held by one of them. -/
theorem mem_heldByOthers : a ∈ heldByOthers held i ↔ ∃ j, j ≠ i ∧ a ∈ heldBy held j := by
  simp only [heldByOthers, mem_heldBy, List.mem_map, List.mem_filter, decide_eq_true_eq, ne_eq]
  constructor
  · rintro ⟨⟨b, j⟩, ⟨hmem, hne⟩, rfl⟩
    exact ⟨j, hne, hmem⟩
  · rintro ⟨j, hne, hmem⟩
    exact ⟨(a, j), ⟨hmem, hne⟩, rfl⟩

@[simp] theorem heldBy_nil : heldBy ([] : List (α × Nat)) i = [] := rfl

@[simp] theorem heldBy_take_self : heldBy (take held i a) i = heldBy held i ++ [a] := by
  simp [heldBy, take]

theorem heldBy_take_ne (h : j ≠ i) : heldBy (take held i a) j = heldBy held j := by
  simp [heldBy, take, Ne.symm h]

@[simp] theorem heldBy_release_self : heldBy (release held i) i = [] := by
  simp [heldBy, release]

theorem heldBy_release_ne (h : j ≠ i) : heldBy (release held i) j = heldBy held j := by
  rw [heldBy, release, List.filter_filter, heldBy]
  congr 1
  refine List.filter_congr fun p _ => ?_
  by_cases hp : p.2 = j <;> simp [hp, h]

end Holding
