/-
Runs of a program that watches something change.

At each of its steps the program sees an input, which changes without it. `run` is the
run of the program under a sequence of inputs. What holds of it is proved with three
rules: an invariant, which may depend on the number of steps (`invariant`); a measure
that every step lowers which does not end or block the program (`settles`); and that a
program blocked for good is in the same state for good (`blocked`). Two sequences that
agree up to a step give the same run up to there (`run_congr`).
-/
import Mathlib.Tactic

set_option autoImplicit false

namespace FedRun

variable {σ ι : Type*}

/-- The state after `n` steps. -/
def run (step : ι → σ → σ) (s : σ) (input : ℕ → ι) : ℕ → σ
  | 0 => s
  | n + 1 => step (input n) (run step s input n)

variable {step : ι → σ → σ} {s : σ} {input input' : ℕ → ι} {n : ℕ}

/-- The invariant rule. -/
theorem invariant {P : ℕ → σ → Prop} (h₀ : P 0 s)
    (hstep : ∀ t s, P t s → P (t + 1) (step (input t) s)) (n : ℕ) : P n (run step s input n) := by
  induction n with
  | zero => exact h₀
  | succ n ih => exact hstep n _ ih

theorem run_congr (h : ∀ t, t < n → input t = input' t) :
    run step s input n = run step s input' n := by
  induction n with
  | zero => rfl
  | succ n ih =>
    have hrun := ih fun t ht => h t (by omega)
    simp only [run, hrun, h n (by omega)]

/-- The rule for a program that blocks: it stays where it is. -/
theorem blocked (step : ι → σ → σ) (s : σ) (input : ℕ → ι)
    (h : ∀ t, n ≤ t → step (input t) (run step s input n) = run step s input n)
    {m : ℕ} (hm : n ≤ m) : run step s input m = run step s input n := by
  induction m, hm using Nat.le_induction with
  | base => rfl
  | succ m hm ih => rw [run, ih, h m hm]

/-- The rule for a program that goes on: when each step from `n` on ends it (`Settled`)
or lowers the measure, it ends. -/
theorem settles {P : ℕ → σ → Prop} (Settled : ℕ → σ → Prop) (measure : σ → ℕ)
    (hinv : ∀ t, n ≤ t → P t (run step s input t))
    (hstep : ∀ t s, n ≤ t → P t s → ¬ Settled t s → measure (step (input t) s) < measure s) :
    ∃ m, n ≤ m ∧ Settled m (run step s input m) := by
  -- the induction is on the measure of the state after some step from `n` on
  suffices h : ∀ v t, n ≤ t → measure (run step s input t) = v →
      ∃ m, n ≤ m ∧ Settled m (run step s input m) from h _ n le_rfl rfl
  intro v
  induction v using Nat.strong_induction_on with
  | _ v ih =>
    intro t ht hv
    by_cases hset : Settled t (run step s input t)
    · exact ⟨t, ht, hset⟩
    · have hlt := hstep t _ ht (hinv t ht) hset
      exact ih _ (hv ▸ hlt) (t + 1) (by omega) rfl

end FedRun
