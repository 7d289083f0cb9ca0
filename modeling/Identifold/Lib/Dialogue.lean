import Mathlib.Data.List.Basic
import Mathlib.Tactic.TypeStar

/-!
# Identifold.Lib.Dialogue

Dialogues: programs that put questions to an environment and go on with its
answers.  The environment is a list of answers, given in order; a program that
asks once more than there are answers is left waiting.

`retry` is the bounded retry of one question, and `Retries` says what is seen
of it without running it: it asks until the first answer that is final, a
given number of times at most.  `retries_iff` is that the two are the same.
-/

/-- A program that asks questions `Q`, is answered by `A`, and returns an `R`. -/
inductive Dialogue (Q A R : Type) : Type
  | done (r : R)
  | ask (q : Q) (next : A → Dialogue Q A R)

namespace Dialogue

variable {Q A R S : Type}

/-! ## transcripts -/

/-- What is seen of a dialogue: the questions it has asked, and its result
unless it still waits for an answer. -/
structure Transcript (Q R : Type) where
  asked : List Q
  result : Option R
  deriving DecidableEq, Repr

/-- A transcript with a question before it. -/
def Transcript.cons (q : Q) (t : Transcript Q R) : Transcript Q R := ⟨q :: t.asked, t.result⟩

/-- A transcript with its result read otherwise. -/
def Transcript.map (g : R → S) (t : Transcript Q R) : Transcript Q S := ⟨t.asked, t.result.map g⟩

/-- Answer the questions in order. -/
def run : Dialogue Q A R → List A → Transcript Q R
  | done r, _ => ⟨[], some r⟩
  | ask q _, [] => ⟨[q], none⟩
  | ask q next, a :: as => .cons q (run (next a) as)

@[simp] theorem run_done (r : R) (as : List A) : run (done r : Dialogue Q A R) as = ⟨[], some r⟩ := by
  cases as <;> rfl

@[simp] theorem run_ask_nil (q : Q) (next : A → Dialogue Q A R) : run (ask q next) [] = ⟨[q], none⟩ :=
  rfl

@[simp] theorem run_ask_cons (q : Q) (next : A → Dialogue Q A R) (a : A) (as : List A) :
    run (ask q next) (a :: as) = .cons q (run (next a) as) := rfl

/-! ## events -/

/-- The questions of a dialogue with the answers they got; the last one is
without an answer where the dialogue waits for it. -/
def events : Dialogue Q A R → List A → List (Q × Option A)
  | done _, _ => []
  | ask q _, [] => [(q, none)]
  | ask q next, a :: as => (q, some a) :: events (next a) as

@[simp] theorem events_done (r : R) (as : List A) : events (done r : Dialogue Q A R) as = [] := by
  cases as <;> rfl

@[simp] theorem events_ask_nil (q : Q) (next : A → Dialogue Q A R) :
    events (ask q next) [] = [(q, none)] := rfl

@[simp] theorem events_ask_cons (q : Q) (next : A → Dialogue Q A R) (a : A) (as : List A) :
    events (ask q next) (a :: as) = (q, some a) :: events (next a) as := rfl

@[simp] theorem result_cons (q : Q) (t : Transcript Q R) : (t.cons q).result = t.result := rfl

/-- **One question at a time**: behind a question without an answer there is
none, and no result. -/
theorem of_unanswered (p : Dialogue Q A R) (as : List A) :
    ∀ before q after, events p as = before ++ (q, none) :: after →
      after = [] ∧ (run p as).result = none := by
  induction p generalizing as with
  | done r => simp
  | ask q next ih =>
      intro before q' after h
      cases as with
      | nil =>
          cases before with
          | nil => exact ⟨(List.cons.inj h).2.symm, rfl⟩
          | cons e before => simp at h
      | cons a as =>
          cases before with
          | nil => simp at h
          | cons e before => exact ih a as before q' after (List.cons.inj h).2

/-! ## results -/

/-- Whatever the answers, the result satisfies `P`. -/
def Ensures (P : R → Prop) : Dialogue Q A R → Prop
  | done r => P r
  | ask _ next => ∀ a, Ensures P (next a)

/-- **Result rule**: the result of a run is what is ensured of it. -/
theorem Ensures.result {P : R → Prop} {p : Dialogue Q A R} (h : p.Ensures P) {as : List A} {r : R}
    (hr : (p.run as).result = some r) : P r := by
  induction p generalizing as with
  | done r' =>
      rw [run_done] at hr
      exact Option.some.inj hr ▸ h
  | ask q next ih =>
      cases as with
      | nil => contradiction
      | cons a as => exact ih a (h a) hr

/-! ## retries -/

/-- Ask at most `limit` times for a final answer. -/
def retry (q : Q) (final : A → Option R) (exhausted : R) : Nat → Dialogue Q A R
  | 0 => done exhausted
  | limit + 1 => ask q fun a =>
      match final a with
      | some r => done r
      | none => retry q final exhausted limit

/-- The rule of a bounded retry: the first final answer ends it; without one
it asks as often as it may, or waits. -/
structure Retries (q : Q) (final : A → Option R) (exhausted : R) (limit : Nat) (as : List A)
    (t : Transcript Q R) : Prop where
  answered : ∀ before a after r, as = before ++ a :: after → before.length < limit →
    (∀ b ∈ before, final b = none) → final a = some r →
      t = ⟨List.replicate (before.length + 1) q, some r⟩
  exhausted : limit ≤ as.length → (∀ b ∈ as.take limit, final b = none) →
    t = ⟨List.replicate limit q, some exhausted⟩
  waiting : as.length < limit → (∀ b ∈ as, final b = none) →
    t = ⟨List.replicate (as.length + 1) q, none⟩

section Retry

variable {q : Q} {final : A → Option R} {exhausted : R} {limit : Nat} {as : List A}

/-- A retry ends with the first final answer. -/
theorem run_retry_answered {before after : List A} {a : A} {r : R} (hlen : before.length < limit)
    (hbefore : ∀ b ∈ before, final b = none) (ha : final a = some r) :
    run (retry q final exhausted limit) (before ++ a :: after) =
      ⟨List.replicate (before.length + 1) q, some r⟩ := by
  induction before generalizing limit with
  | nil =>
      obtain ⟨limit, rfl⟩ : ∃ n, limit = n + 1 := ⟨limit - 1, by grind⟩
      simp [retry, ha, Transcript.cons]
  | cons b before ih =>
      obtain ⟨limit, rfl⟩ : ∃ n, limit = n + 1 := ⟨limit - 1, by grind⟩
      have hrest := @ih limit (by grind) fun c hc => hbefore c (.tail _ hc)
      simp [retry, hbefore b (.head _), hrest, Transcript.cons, List.replicate_succ]

/-- A retry whose answers are not final asks until its limit. -/
theorem run_retry_exhausted (hlen : limit ≤ as.length) (has : ∀ b ∈ as.take limit, final b = none) :
    run (retry q final exhausted limit) as = ⟨List.replicate limit q, some exhausted⟩ := by
  induction limit generalizing as with
  | zero => simp [retry]
  | succ limit ih =>
      cases as with
      | nil => contradiction
      | cons a as =>
          have hrest := @ih as (by grind) fun b hb => has b (by simp [hb])
          simp [retry, has a (by simp), hrest, Transcript.cons, List.replicate_succ]

/-- A retry with fewer answers waits for the next. -/
theorem run_retry_waiting (hlen : as.length < limit) (has : ∀ b ∈ as, final b = none) :
    run (retry q final exhausted limit) as = ⟨List.replicate (as.length + 1) q, none⟩ := by
  induction limit generalizing as with
  | zero => contradiction
  | succ limit ih =>
      cases as with
      | nil => simp [retry]
      | cons a as =>
          have hrest := @ih as (by grind) fun b hb => has b (.tail _ hb)
          simp [retry, has a (.head _), hrest, Transcript.cons, List.replicate_succ]

/-- A retry asks at once. -/
theorem asked_run_retry_ne_nil : (run (retry q final exhausted (limit + 1)) as).asked ≠ [] := by
  cases as <;> simp [retry, Transcript.cons]

/-- The answers are waited for, or one of the first of them is final. -/
theorem exists_final_or (final : A → Option R) (limit : Nat) (as : List A) :
    (∃ before a after r, as = before ++ a :: after ∧ before.length < limit ∧
      (∀ b ∈ before, final b = none) ∧ final a = some r) ∨
    ∀ b ∈ as.take limit, final b = none := by
  induction as generalizing limit with
  | nil => exact .inr (by simp)
  | cons a as ih =>
      cases limit with
      | zero => exact .inr (by simp)
      | succ limit =>
          cases ha : final a with
          | some r => exact .inl ⟨[], a, as, r, rfl, by simp, by simp, ha⟩
          | none =>
              rcases ih limit with ⟨before, b, after, r, rfl, hlen, hbefore, hb⟩ | hnone
              · exact .inl ⟨a :: before, b, after, r, rfl, by simpa using hlen,
                  by simpa [ha] using hbefore, hb⟩
              · exact .inr (by simpa [ha] using hnone)

/-- **The rule determines the transcript**: it is that of `retry`. -/
theorem retries_iff {t : Transcript Q R} :
    Retries q final exhausted limit as t ↔ t = run (retry q final exhausted limit) as := by
  constructor
  · intro h
    rcases exists_final_or final limit as with ⟨before, a, after, r, heq, hlen, hbefore, ha⟩ | hnone
    · rw [h.answered before a after r heq hlen hbefore ha, heq, run_retry_answered hlen hbefore ha]
    · by_cases hlen : limit ≤ as.length
      · rw [h.exhausted hlen hnone, run_retry_exhausted hlen hnone]
      · rw [List.take_of_length_le (by omega)] at hnone
        rw [h.waiting (by omega) hnone, run_retry_waiting (by omega) hnone]
  · rintro rfl
    refine ⟨?_, run_retry_exhausted, run_retry_waiting⟩
    rintro before a after r rfl hlen hbefore ha
    exact run_retry_answered hlen hbefore ha

end Retry

end Dialogue
