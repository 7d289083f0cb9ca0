/-!
# Identifold.Errors

The stable error codes of the specification, and the error value of the
TypeScript package: a code with its message.  The Rust and Go ports carry the
code alone.

`ensure` is the shape of every check of the sources, and `bind_eq_ok_iff` and
`ensure_eq_ok_iff` take a successful run of such checks apart.
-/

namespace Identifold

/-- `IDENTIFOLD_ERROR_CODES`. -/
inductive IdentifoldErrorCode
  | allocationConflict
  | allocationExhausted
  | allocationRequired
  | ambiguousRefPrefix
  | duplicatePublicPrefix
  | duplicateRefPrefix
  | invalidAllocationPolicy
  | invalidChecksum
  | invalidKind
  | invalidMid
  | invalidNamespaceDefinition
  | invalidPid
  | invalidPublicPrefix
  | invalidRandomSource
  | invalidRef
  | invalidRefLength
  | invalidRefPrefix
  | invalidRefSymbol
  | invalidUuidVersion
  | sequenceOverflow
  | unknownNamespace
  deriving DecidableEq, Repr

/-- `IdentifoldError`: the stable code and the message it is thrown with. -/
structure IdentifoldError where
  code : IdentifoldErrorCode
  message : String
  deriving DecidableEq, Repr

/-- What a TypeScript function throws: an `IdentifoldError`, or an error of a
library it calls. -/
inductive Thrown
  | identifold (error : IdentifoldError)
  | foreign
  deriving DecidableEq, Repr

/-! ## checks -/

section Checks

variable {ε α β : Type}

/-- `if (!condition) throw error`. -/
def ensure (condition : Prop) [Decidable condition] (error : ε) : Except ε Unit :=
  if condition then .ok () else .error error

theorem ensure_eq_ok_iff {condition : Prop} [Decidable condition] {error : ε} {u : Unit} :
    ensure condition error = .ok u ↔ condition := by
  unfold ensure
  split <;> simp [*]

theorem ensure_of {condition : Prop} [Decidable condition] (h : condition) (error : ε) :
    ensure condition error = .ok () := if_pos h

theorem ensure_of_not {condition : Prop} [Decidable condition] (h : ¬ condition) (error : ε) :
    ensure condition error = .error error := if_neg h

theorem ok_bind (a : α) (f : α → Except ε β) : (Except.ok a >>= f) = f a := rfl

theorem error_bind (e : ε) (f : α → Except ε β) : (Except.error e >>= f) = .error e := rfl

theorem ensure_congr {p q : Prop} [Decidable p] [Decidable q] (h : p ↔ q) (error : ε) :
    ensure p error = ensure q error := by
  unfold ensure
  simp only [h]

/-- What follows a test may rely on it. -/
theorem ensure_bind_congr {p : Prop} [Decidable p] {error : ε} {x y : Except ε α}
    (h : p → x = y) : (ensure p error >>= fun _ => x) = ensure p error >>= fun _ => y := by
  by_cases hp : p
  · rw [ensure_of hp, ok_bind, ok_bind, h hp]
  · rw [ensure_of_not hp, error_bind, error_bind]

/-- A sequence of two computations succeeds when both do. -/
theorem bind_eq_ok_iff {x : Except ε α} {f : α → Except ε β} {b : β} :
    x >>= f = .ok b ↔ ∃ a, x = .ok a ∧ f a = .ok b := by
  cases x with
  | error e => simp [bind, Except.bind]
  | ok a => simp [bind, Except.bind]

/-- It fails when the first does, or the second behind it. -/
theorem bind_eq_error_iff {x : Except ε α} {f : α → Except ε β} {e : ε} :
    x >>= f = .error e ↔ x = .error e ∨ ∃ a, x = .ok a ∧ f a = .error e := by
  cases x with
  | error e' => simp [bind, Except.bind]
  | ok a => simp [bind, Except.bind]

theorem ensure_eq_error_iff {condition : Prop} [Decidable condition] {error e : ε} :
    ensure condition error = .error e ↔ ¬ condition ∧ error = e := by
  unfold ensure
  split <;> simp [*]

theorem mapError_eq_ok_iff {ε' : Type} {g : ε → ε'} {x : Except ε α} {a : α} :
    x.mapError g = .ok a ↔ x = .ok a := by
  cases x with
  | error e => exact ⟨nofun, nofun⟩
  | ok b => exact ⟨fun h => congrArg Except.ok (Except.ok.inj h),
      fun h => congrArg Except.ok (Except.ok.inj h)⟩

/-- A check with another error is the check with its image. -/
theorem ensure_mapError {ε' : Type} (condition : Prop) [Decidable condition] (error : ε)
    (g : ε → ε') : (ensure condition error).mapError g = ensure condition (g error) := by
  unfold ensure
  split
  · rfl
  · rfl

theorem pure_mapError {ε' : Type} (a : α) (g : ε → ε') :
    (pure a : Except ε α).mapError g = pure a := rfl

/-- Errors are renamed along a sequence of computations. -/
theorem bind_mapError {ε' : Type} (x : Except ε α) (f : α → Except ε β) (g : ε → ε') :
    (x >>= f).mapError g = x.mapError g >>= fun a => (f a).mapError g := by
  cases x with
  | error e => rfl
  | ok a => rfl

/-- Results are equal when they are so with other names for the errors. -/
theorem mapError_injective {ε' : Type} {g : ε → ε'} (hg : Function.Injective g) :
    Function.Injective (Except.mapError g : Except ε α → Except ε' α) := by
  intro x y h
  cases x with
  | error e =>
      cases y with
      | error e' => exact congrArg Except.error (hg (Except.error.inj h))
      | ok b => contradiction
  | ok a =>
      cases y with
      | error e' => contradiction
      | ok b => exact congrArg Except.ok (Except.ok.inj h)

/-- A loop succeeds when every step does. -/
theorem mapM_eq_ok {f : α → Except ε β} {g : α → β} {xs : List α} (h : ∀ x ∈ xs, f x = .ok (g x)) :
    xs.mapM f = .ok (xs.map g) := by
  induction xs with
  | nil => rfl
  | cons x xs ih =>
      rw [List.mapM_cons, h x (by simp), ok_bind, ih fun y hy => h y (by simp [hy])]
      rfl

/-- Every element of a list that is accepted is accepted. -/
theorem exists_ok_of_mapM {f : α → Except ε β} {xs : List α} {ys : List β} (h : xs.mapM f = .ok ys) :
    ∀ x ∈ xs, ∃ y, f x = .ok y := by
  induction xs generalizing ys with
  | nil => simp
  | cons x xs ih =>
      rw [List.mapM_cons, bind_eq_ok_iff] at h
      obtain ⟨y, hy, h⟩ := h
      obtain ⟨zs, hzs, -⟩ := bind_eq_ok_iff.mp h
      intro x' hx'
      rcases List.mem_cons.mp hx' with rfl | hx'
      · exact ⟨y, hy⟩
      · exact ih hzs x' hx'

theorem pure_eq_ok_iff {a b : α} : (pure a : Except ε α) = .ok b ↔ a = b := by
  simp [pure, Except.pure]

end Checks

/-! ## thrown errors -/

/-- A computation that throws nothing but `IdentifoldError`s. -/
def ThrowsIdentifold {α : Type} (x : Except Thrown α) : Prop :=
  ∀ e, x = .error e → ∃ error, e = .identifold error

namespace ThrowsIdentifold

variable {α β : Type}

theorem ok (a : α) : ThrowsIdentifold (.ok a) := by
  intro e h
  contradiction

theorem error (error : IdentifoldError) : ThrowsIdentifold (.error (.identifold error) : Except Thrown α) := by
  intro e h
  exact ⟨error, (Except.error.inj h).symm⟩

/-- A result whose errors are wrapped throws the library's errors only. -/
theorem mapError {ε : Type} (x : Except ε α) (g : ε → IdentifoldError) :
    ThrowsIdentifold (x.mapError fun e => .identifold (g e)) := by
  cases x with
  | error e => exact error (g e)
  | ok a => exact ok a

/-- A check of the library throws the library's error only. -/
theorem check (condition : Prop) [Decidable condition] (e : IdentifoldError) :
    ThrowsIdentifold (ensure condition (.identifold e)) := by
  unfold ensure
  split
  · exact ok ()
  · exact error e

/-- In a sequence, the second computation matters where the first succeeds. -/
theorem bind {x : Except Thrown α} {f : α → Except Thrown β} (hx : ThrowsIdentifold x)
    (hf : ∀ a, x = .ok a → ThrowsIdentifold (f a)) : ThrowsIdentifold (x >>= f) := by
  cases x with
  | error e =>
      intro e' h
      exact hx e' (by simpa [Bind.bind, Except.bind] using h)
  | ok a => exact hf a rfl

end ThrowsIdentifold

end Identifold
