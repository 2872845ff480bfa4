/-
Runs of a deterministic system and the invariant rule.

A system is a step function: `step s a` is the state after operation `a`, or
`none` when the operation is not allowed in `s` or does not return. A guard
`ok` on a state and an operation singles out the runs all of whose steps meet
it, which is how a result about *every run that avoids something* is stated.

Where every operation is allowed the run is a fold over the operations, and
`EveryStep` says of one list of them that each is taken in a state where a
condition holds. Two conditions that agree wherever an invariant holds, which
one of them keeps, agree along the run (`EveryStep.iff_of_invariant`).
-/
import Mathlib.Tactic

set_option autoImplicit false

/-- `Reaches step ok s₀ s`: some run from `s₀`, each of whose steps satisfies
the guard `ok` in the state it is taken from, ends in `s`. -/
inductive Reaches {σ α : Type*} (step : σ → α → Option σ) (ok : σ → α → Prop) (s₀ : σ) :
    σ → Prop
  | start : Reaches step ok s₀ s₀
  | next {s s' : σ} {a : α} :
      Reaches step ok s₀ s → ok s a → step s a = some s' → Reaches step ok s₀ s'

/-- Execute a list of operations, giving up when one of them fails the guard. -/
def runOps {σ α : Type*} (step : σ → α → Option σ) (ok : σ → α → Prop)
    [∀ s a, Decidable (ok s a)] (s : σ) (ops : List α) : Option σ :=
  ops.foldlM (fun s a => if ok s a then step s a else none) s

namespace Reaches

variable {σ α : Type*} {step : σ → α → Option σ} {ok : σ → α → Prop} {s₀ s s' : σ}

/-- The invariant rule: what holds at the start and is kept by every guarded
step holds in every state reached. -/
theorem invariant {P : σ → Prop} (h₀ : P s₀)
    (hstep : ∀ s a s', P s → ok s a → step s a = some s' → P s') (h : Reaches step ok s₀ s) :
    P s := by
  induction h with
  | start => exact h₀
  | next _ hok hs ih => exact hstep _ _ _ ih hok hs

/-- Runs compose. -/
theorem trans (h : Reaches step ok s₀ s) (h' : Reaches step ok s s') : Reaches step ok s₀ s' := by
  induction h' with
  | start => exact h
  | next _ ha hs ih => exact .next ih ha hs

/-- An executed list of operations is a run. -/
theorem of_runOps [∀ s a, Decidable (ok s a)] (ops : List α)
    (h : runOps step ok s₀ ops = some s) : Reaches step ok s₀ s := by
  induction ops generalizing s₀ with
  | nil =>
      cases h
      exact .start
  | cons a ops ih =>
      rw [runOps, List.foldlM_cons] at h
      obtain ⟨s₁, h₁, h₂⟩ := Option.bind_eq_some_iff.mp h
      by_cases ha : ok s₀ a
      · rw [if_pos ha] at h₁
        exact (Reaches.next .start ha h₁).trans (ih h₂)
      · rw [if_neg ha] at h₁
        cases h₁

end Reaches

/-! ## Runs that cannot fail -/

section Total

variable {σ α : Type*} {step : σ → α → σ} {P Q : σ → α → Prop} {I : σ → Prop} {s : σ}

/-- Each operation of the list is taken in a state in which the condition holds. -/
def EveryStep (step : σ → α → σ) (P : σ → α → Prop) : σ → List α → Prop
  | _, [] => True
  | s, a :: as => P s a ∧ EveryStep step P (step s a) as

instance decidableEveryStep [∀ s a, Decidable (P s a)] :
    ∀ s as, Decidable (EveryStep step P s as)
  | _, [] => inferInstanceAs (Decidable True)
  | s, a :: as =>
      have := decidableEveryStep (step s a) as
      inferInstanceAs (Decidable (P s a ∧ EveryStep step P (step s a) as))

/-- A run in step with a guarded one keeps the relation that each step keeps. -/
theorem EveryStep.simulates {τ : Type*} {step' : τ → α → τ} {R : σ → τ → Prop} {t : τ} (h₀ : R s t)
    (hstep : ∀ s t a, R s t → Q s a → R (step s a) (step' t a)) {as : List α}
    (h : EveryStep step Q s as) : R (as.foldl step s) (as.foldl step' t) := by
  induction as generalizing s t with
  | nil => exact h₀
  | cons a as ih => exact ih (hstep s t a h₀ h.1) h.2

/-- Two conditions that agree where an invariant holds, which the second keeps, for the
operations of a kind. -/
theorem EveryStep.iff_of_invariant_on {A : α → Prop} (h₀ : I s)
    (hiff : ∀ s a, A a → I s → (P s a ↔ Q s a))
    (hstep : ∀ s a, A a → I s → Q s a → I (step s a)) {as : List α} (hall : ∀ a ∈ as, A a) :
    EveryStep step P s as ↔ EveryStep step Q s as := by
  induction as generalizing s with
  | nil => exact Iff.rfl
  | cons a as ih =>
      have ha := hall a List.mem_cons_self
      have hrest : ∀ a' ∈ as, A a' := fun a' hmem => hall a' (List.mem_cons_of_mem a hmem)
      constructor
      · rintro ⟨hp, has⟩
        have hq := (hiff s a ha h₀).mp hp
        exact ⟨hq, (ih (hstep s a ha h₀ hq) hrest).mp has⟩
      · rintro ⟨hq, has⟩
        exact ⟨(hiff s a ha h₀).mpr hq, (ih (hstep s a ha h₀ hq) hrest).mpr has⟩

/-- Two conditions that agree where an invariant holds, which the second keeps. -/
theorem EveryStep.iff_of_invariant (h₀ : I s) (hiff : ∀ s a, I s → (P s a ↔ Q s a))
    (hstep : ∀ s a, I s → Q s a → I (step s a)) (as : List α) :
    EveryStep step P s as ↔ EveryStep step Q s as :=
  EveryStep.iff_of_invariant_on (A := fun _ => True) h₀ (fun s a _ => hiff s a)
    (fun s a _ => hstep s a) fun _ _ => trivial

/-- A condition that follows from another one wherever an invariant holds, which the other
keeps, follows from it along the run. -/
theorem EveryStep.imp_of_invariant (h₀ : I s) (himp : ∀ s a, I s → Q s a → P s a)
    (hstep : ∀ s a, I s → Q s a → I (step s a)) {as : List α} (h : EveryStep step Q s as) :
    EveryStep step P s as := by
  induction as generalizing s with
  | nil => exact trivial
  | cons a as ih => exact ⟨himp s a h₀ h.1, ih (hstep s a h₀ h.1) h.2⟩

end Total
