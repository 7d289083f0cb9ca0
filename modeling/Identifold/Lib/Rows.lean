import Mathlib.Data.List.Forall2
import Mathlib.Data.List.Nodup
import Mathlib.Data.List.Pairwise
import Mathlib.Tactic.TypeStar

/-!
# Identifold.Lib.Rows

Tables as lists of rows with unique keys.  `UniqueOn key rows` is the meaning
of a primary key or a unique index; lookups through it find *the* row, and
the two writes the proofs need, appending a row under a fresh key and
rewriting a row in place, keep it.
-/

namespace Rows

variable {ρ κ : Type*} {rows : List ρ}

/-- A lookup that at most one row can answer finds exactly that row. -/
theorem find?_eq_some_iff {test : ρ → Bool}
    (hunique : ∀ a ∈ rows, ∀ b ∈ rows, test a = true → test b = true → a = b) {r : ρ} :
    rows.find? test = some r ↔ r ∈ rows ∧ test r = true := by
  constructor
  · intro h
    exact ⟨List.mem_of_find?_eq_some h, List.find?_some h⟩
  · rintro ⟨hr, ht⟩
    cases h : rows.find? test with
    | none => exact absurd ht (List.find?_eq_none.mp h r hr)
    | some s => rw [hunique s (List.mem_of_find?_eq_some h) r hr (List.find?_some h) ht]

/-- Such a lookup does not depend on the order of the rows. -/
theorem find?_eq_of_perm {test : ρ → Bool} {others : List ρ}
    (hunique : ∀ a ∈ rows, ∀ b ∈ rows, test a = true → test b = true → a = b)
    (hperm : rows.Perm others) : rows.find? test = others.find? test := by
  have hothers : ∀ a ∈ others, ∀ b ∈ others, test a = true → test b = true → a = b :=
    fun a ha b hb => hunique a (hperm.mem_iff.mpr ha) b (hperm.mem_iff.mpr hb)
  ext r
  rw [find?_eq_some_iff hunique, find?_eq_some_iff hothers, hperm.mem_iff]

/-- Lookups in corresponding tables, by corresponding tests, correspond. -/
theorem find?_forall₂ {σ : Type*} {R : ρ → σ → Prop} {others : List σ} (test : ρ → Bool)
    (test' : σ → Bool) (h : List.Forall₂ R rows others) (htest : ∀ a b, R a b → test a = test' b) :
    (∀ b, others.find? test' = some b → ∃ a, rows.find? test = some a ∧ R a b) ∧
      (others.find? test' = none → rows.find? test = none) := by
  induction h with
  | nil => simp
  | @cons a b rows others hab _ ih =>
      have hsame := htest a b hab
      cases ht : test' b with
      | true =>
          rw [ht] at hsame
          simp only [List.find?_cons, hsame, ht]
          refine ⟨fun b' hb => ?_, fun h => by contradiction⟩
          rw [← Option.some.inj hb]
          exact ⟨a, rfl, hab⟩
      | false =>
          rw [ht] at hsame
          simp only [List.find?_cons, hsame, ht]
          exact ih

/-! ## unique keys -/

/-- No two rows share a key. -/
def UniqueOn (key : ρ → κ) (rows : List ρ) : Prop := (rows.map key).Nodup

instance [DecidableEq κ] (key : ρ → κ) (rows : List ρ) : Decidable (UniqueOn key rows) :=
  inferInstanceAs (Decidable (rows.map key).Nodup)

theorem UniqueOn.nil (key : ρ → κ) : UniqueOn key [] := List.nodup_nil

theorem UniqueOn.eq {key : ρ → κ} (h : UniqueOn key rows) {a b : ρ} (ha : a ∈ rows) (hb : b ∈ rows)
    (hk : key a = key b) : a = b :=
  List.inj_on_of_nodup_map h ha hb hk

/-- Appending a row under a fresh key. -/
theorem UniqueOn.concat {key : ρ → κ} (h : UniqueOn key rows) {r : ρ}
    (hnew : ∀ a ∈ rows, key a ≠ key r) : UniqueOn key (rows ++ [r]) := by
  unfold UniqueOn
  rw [List.map_append, List.map_singleton, List.nodup_append]
  refine ⟨h, List.nodup_singleton _, ?_⟩
  intro k hk k' hk'
  obtain ⟨a, ha, rfl⟩ := List.mem_map.mp hk
  rw [List.mem_singleton.mp hk']
  exact hnew a ha

/-- Rewriting rows without touching their keys. -/
theorem UniqueOn.map {key : ρ → κ} (h : UniqueOn key rows) {f : ρ → ρ}
    (hf : ∀ a, key (f a) = key a) : UniqueOn key (rows.map f) := by
  have hkeys : (rows.map f).map key = rows.map key := by
    rw [List.map_map]
    exact List.map_congr_left fun a _ => hf a
  rw [UniqueOn, hkeys]
  exact h

/-- The lookup by a unique key. -/
theorem UniqueOn.find?_eq_some_iff [DecidableEq κ] {key : ρ → κ} (h : UniqueOn key rows) {k : κ}
    {r : ρ} : rows.find? (fun a => decide (key a = k)) = some r ↔ r ∈ rows ∧ key r = k := by
  rw [Rows.find?_eq_some_iff]
  · simp
  · intro a ha b hb hak hbk
    exact h.eq ha hb ((of_decide_eq_true hak).trans (of_decide_eq_true hbk).symm)

/-- What a lookup finds is a row with the key. -/
theorem of_find?_key [DecidableEq κ] {key : ρ → κ} {k : κ} {r : ρ}
    (h : rows.find? (fun a => decide (key a = k)) = some r) : r ∈ rows ∧ key r = k :=
  ⟨List.mem_of_find?_eq_some h, by simpa using List.find?_some h⟩

/-- A failing lookup: no row has the key. -/
theorem find?_key_eq_none_iff [DecidableEq κ] {key : ρ → κ} {k : κ} :
    rows.find? (fun a => decide (key a = k)) = none ↔ ∀ a ∈ rows, key a ≠ k := by
  simp [List.find?_eq_none]

/-- Keys in two parts are unique when the second part is among the rows of each
first part. -/
theorem UniqueOn.of_groups {κ' : Type*} [DecidableEq κ] {group : ρ → κ} {key : ρ → κ'}
    (h : ∀ k, UniqueOn key (rows.filter fun r => decide (group r = k))) :
    UniqueOn (fun r => (group r, key r)) rows := by
  induction rows with
  | nil => exact .nil _
  | cons a rows ih =>
      rw [UniqueOn, List.map_cons, List.nodup_cons]
      refine ⟨fun hmem => ?_, ih fun k => ?_⟩
      · obtain ⟨b, hb, hsame⟩ := List.mem_map.mp hmem
        obtain ⟨hgroup, hkey⟩ := Prod.mk.inj hsame
        have hself := h (group a)
        simp only [UniqueOn, decide_true, List.filter_cons_of_pos, List.map_cons,
          List.nodup_cons] at hself
        refine hself.1 (List.mem_map.mpr ⟨b, ?_, hkey⟩)
        exact List.mem_filter.mpr ⟨hb, decide_eq_true hgroup⟩
      · refine (h k).sublist (List.Sublist.map key ?_)
        exact (List.sublist_cons_self a rows).filter _

/-- A query that at most one row can answer returns what the lookup finds. -/
theorem UniqueOn.filter_eq {key : ρ → κ} (h : UniqueOn key rows) {test : ρ → Bool}
    (htest : ∀ a ∈ rows, ∀ b ∈ rows, test a = true → test b = true → key a = key b) :
    rows.filter test = (rows.find? test).toList := by
  induction rows with
  | nil => rfl
  | cons a rows ih =>
      rw [UniqueOn, List.map_cons, List.nodup_cons] at h
      have hrest := ih h.2 fun b hb c hc =>
        htest b (List.mem_cons_of_mem _ hb) c (List.mem_cons_of_mem _ hc)
      cases ha : test a with
      | false => simp [ha, hrest]
      | true =>
          have hnil : rows.filter test = [] := by
            refine List.filter_eq_nil_iff.mpr fun b hb htb => h.1 ?_
            rw [htest a List.mem_cons_self b (List.mem_cons_of_mem _ hb) ha htb]
            exact List.mem_map_of_mem hb
          simp [ha, hnil]

/-- Values that are given to two rows are given to one, when a partial key
takes no value twice. -/
theorem index_eq_of_nodup {key : ρ → Option κ} (h : (rows.filterMap key).Nodup) {i j : Nat}
    {a b : ρ} {k : κ} (ha : rows[i]? = some a) (hb : rows[j]? = some b) (hka : key a = some k)
    (hkb : key b = some k) : i = j := by
  have hpairs := List.pairwise_filterMap.mp h
  rw [List.pairwise_iff_getElem] at hpairs
  obtain ⟨hi, rfl⟩ := List.getElem?_eq_some_iff.mp ha
  obtain ⟨hj, rfl⟩ := List.getElem?_eq_some_iff.mp hb
  by_contra hne
  rcases Nat.lt_or_gt_of_ne hne with hlt | hgt
  · exact hpairs i j hi hj hlt k hka k hkb rfl
  · exact hpairs j i hj hi hgt k hkb k hka rfl

end Rows
