import Mathlib.Data.Set.Card

/-!
# Identifold.Lib.Fibres

Counting lists position by position: the lists whose elements are taken from
given sets, one set for each position, are as many as the product of the sets'
sizes.  The lists over one set and the lists that a map sends to a given one
are of this kind.
-/

namespace Fibres

variable {α β : Type*}

/-- The lists with an element of each set, in their order. -/
def choices (sets : List (Set α)) : Set (List α) := {xs | List.Forall₂ (· ∈ ·) xs sets}

theorem choices_cons (s : Set α) (sets : List (Set α)) :
    choices (s :: sets) = (fun p : α × List α => p.1 :: p.2) '' (s ×ˢ choices sets) := by
  ext xs
  constructor
  · intro h
    obtain ⟨x, xs, hx, hxs, rfl⟩ := List.forall₂_cons_right_iff.mp h
    exact ⟨(x, xs), ⟨hx, hxs⟩, rfl⟩
  · rintro ⟨⟨x, xs⟩, ⟨hx, hxs⟩, rfl⟩
    exact .cons hx hxs

/-- **Product rule.** -/
theorem ncard_choices (sets : List (Set α)) :
    (choices sets).ncard = (sets.map Set.ncard).prod := by
  induction sets with
  | nil =>
      have hnil : choices ([] : List (Set α)) = {[]} := by
        ext xs
        simp [choices]
      rw [hnil, Set.ncard_singleton]
      rfl
  | cons s sets ih =>
      have hinj : Function.Injective fun p : α × List α => p.1 :: p.2 := by
        rintro ⟨x, xs⟩ ⟨y, ys⟩ h
        simpa using h
      rw [choices_cons, Set.ncard_image_of_injective _ hinj, Set.ncard_prod, ih, List.map_cons,
        List.prod_cons]

/-- The lists of length `n` over a set. -/
theorem ncard_lists (s : Set α) (n : Nat) :
    {xs : List α | xs.length = n ∧ ∀ x ∈ xs, x ∈ s}.ncard = s.ncard ^ n := by
  have heq : {xs : List α | xs.length = n ∧ ∀ x ∈ xs, x ∈ s} = choices (List.replicate n s) := by
    ext xs
    simp only [choices, Set.mem_ofPred_eq]
    induction xs generalizing n with
    | nil => cases n <;> simp [List.replicate_succ]
    | cons x xs ih =>
        cases n with
        | zero => simp
        | succ n =>
            rw [List.replicate_succ, List.forall₂_cons, ← ih n]
            simp only [List.length_cons, Nat.add_right_cancel_iff, List.forall_mem_cons]
            tauto
  rw [heq, ncard_choices, List.map_replicate, List.prod_replicate]

/-- **Fibres**: where each value a map takes has `k` preimages, a list of `n`
values has `k ^ n`. -/
theorem ncard_map_fibre {f : α → β} {k : Nat} {ys : List β}
    (h : ∀ y ∈ ys, {x | f x = y}.ncard = k) : {xs : List α | xs.map f = ys}.ncard = k ^ ys.length := by
  have heq : {xs : List α | xs.map f = ys} = choices (ys.map fun y => {x | f x = y}) := by
    ext xs
    simp only [choices, Set.mem_ofPred_eq, List.forall₂_map_right_iff]
    rw [← List.forall₂_eq_eq_eq, List.forall₂_map_left_iff]
  rw [heq, ncard_choices, List.map_map, List.prod_eq_pow_card _ k, List.length_map]
  intro n hn
  obtain ⟨y, hy, rfl⟩ := List.mem_map.mp hn
  exact h y hy

end Fibres
