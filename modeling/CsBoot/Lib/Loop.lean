/-
Loops that need not terminate.

A loop is its body: a function that, given the state, either goes on with a new
state or leaves the loop with a result. `Loop.run` makes at most `n` passes;
`Loop.Returns` says that some number of passes suffices. A loop whose body is
known along a sequence of states is settled by that sequence: it returns what it
returns from any of them (`returns_walk`), and never if the body leaves in none
(`not_returns_of_walk`).

`Ends` is total correctness: the loop returns, what it returns is as asked, and
every state on the way is. It is known from one pass (`ends_again`, `ends_done`),
and what is to be shown of the states from which a loop ends is shown by induction
on the passes (`Ends.induct`).
-/
import Mathlib.Tactic

set_option autoImplicit false

namespace Loop

variable {σ ρ : Type*}

/-- At most `n` passes of the body. -/
def run (body : σ → σ ⊕ ρ) : ℕ → σ → σ ⊕ ρ
  | 0, s => .inl s
  | n + 1, s =>
    match body s with
    | .inl s' => run body n s'
    | .inr r => .inr r

/-- The loop entered in `s` is left with `r`. -/
def Returns (body : σ → σ ⊕ ρ) (s : σ) (r : ρ) : Prop := ∃ n, run body n s = .inr r

variable {body : σ → σ ⊕ ρ} {s s' : σ} {r r' : ρ} {n : ℕ}

theorem run_again (h : body s = .inl s') (n : ℕ) : run body (n + 1) s = run body n s' := by
  rw [run, h]

theorem run_done (h : body s = .inr r) (n : ℕ) : run body (n + 1) s = .inr r := by
  rw [run, h]

theorem returns_again (h : body s = .inl s') : Returns body s r ↔ Returns body s' r := by
  constructor
  · rintro ⟨n, hn⟩
    cases n with
    | zero => cases hn
    | succ n => exact ⟨n, by rwa [run_again h] at hn⟩
  · rintro ⟨n, hn⟩
    exact ⟨n + 1, by rwa [run_again h]⟩

theorem returns_done (h : body s = .inr r') : Returns body s r ↔ r = r' := by
  constructor
  · rintro ⟨n, hn⟩
    cases n with
    | zero => cases hn
    | succ n =>
        rw [run_done h] at hn
        exact (Sum.inr.inj hn).symm
  · rintro rfl
    exact ⟨1, run_done h 0⟩

/-- The loop is left with one result. -/
theorem Returns.unique (h : Returns body s r) (h' : Returns body s r') : r = r' := by
  obtain ⟨n, hn⟩ := h
  induction n generalizing s with
  | zero => cases hn
  | succ n ih =>
      cases hb : body s with
      | inr r'' =>
          rw [run_done hb] at hn
          rw [(returns_done hb).mp h']
          exact (Sum.inr.inj hn).symm
      | inl s' =>
          rw [run_again hb] at hn
          exact ih ((returns_again hb).mp h') hn

/-- What every pass keeps, and leaving makes of it. -/
theorem Returns.induct {I : σ → Prop} {R : ρ → Prop} (h : Returns body s r) (hs : I s)
    (hagain : ∀ s s', body s = .inl s' → I s → I s') (hdone : ∀ s r, body s = .inr r → I s → R r) :
    R r := by
  obtain ⟨n, hn⟩ := h
  induction n generalizing s with
  | zero => cases hn
  | succ n ih =>
      cases hb : body s with
      | inr r' =>
          rw [run_done hb] at hn
          exact Sum.inr.inj hn ▸ hdone s r' hb hs
      | inl s' =>
          rw [run_again hb] at hn
          exact ih (hagain s s' hb hs) hn

/-! ## Walks -/

variable {w : ℕ → σ}

theorem run_walk (h : ∀ k, k < n → body (w k) = .inl (w (k + 1))) :
    run body n (w 0) = .inl (w n) := by
  induction n generalizing w with
  | zero => rfl
  | succ n ih =>
      rw [run_again (h 0 (by omega))]
      exact ih (w := fun k => w (k + 1)) fun k hk => h (k + 1) (by omega)

/-- Along a walk, the loop returns what it returns from any of its states. -/
theorem returns_walk {e : ℕ} (h : ∀ k, k < e → body (w k) = .inl (w (k + 1))) :
    Returns body (w 0) r ↔ Returns body (w e) r := by
  induction e with
  | zero => exact Iff.rfl
  | succ e ih =>
      rw [ih fun k hk => h k (by omega)]
      exact returns_again (h e (by omega))

/-- A walk that never leaves. -/
theorem not_returns_of_walk (h : ∀ k, body (w k) = .inl (w (k + 1))) : ¬ Returns body (w 0) r := by
  rintro ⟨n, hn⟩
  rw [run_walk fun k _ => h k] at hn
  cases hn

/-- The states of a run that ends after `e` passes are those of the walk. -/
theorem run_of_walk {e : ℕ} (h : ∀ k, k < e → body (w k) = .inl (w (k + 1)))
    (he : body (w e) = .inr r) (n : ℕ) :
    (∃ k, k ≤ e ∧ run body n (w 0) = .inl (w k)) ∨ run body n (w 0) = .inr r := by
  by_cases hn : n ≤ e
  · exact .inl ⟨n, hn, run_walk fun k hk => h k (by omega)⟩
  · apply Or.inr
    obtain ⟨m, rfl⟩ : ∃ m, n = e + (m + 1) := ⟨n - e - 1, by omega⟩
    clear hn
    induction e generalizing w with
    | zero => rw [Nat.zero_add, run_done he]
    | succ e ih =>
        rw [show e + 1 + (m + 1) = e + (m + 1) + 1 by omega, run_again (h 0 (by omega))]
        exact ih (w := fun k => w (k + 1)) (fun k hk => h (k + 1) (by omega)) he

/-! ## Total correctness -/

/-- The loop returns with `R`, and `I` holds of every state it comes through. -/
def Ends (body : σ → σ ⊕ ρ) (I : σ → Prop) (R : ρ → Prop) (s : σ) : Prop :=
  (∃ r, Returns body s r ∧ R r) ∧ ∀ n s', run body n s = .inl s' → I s'

variable {I : σ → Prop} {R : ρ → Prop}

theorem ends_done (h : body s = .inr r) : Ends body I R s ↔ I s ∧ R r := by
  constructor
  · rintro ⟨⟨r', hr', hR⟩, hI⟩
    rw [(returns_done h).mp hr'] at hR
    exact ⟨hI 0 s rfl, hR⟩
  · rintro ⟨hI, hR⟩
    refine ⟨⟨r, (returns_done h).mpr rfl, hR⟩, fun n s' hn => ?_⟩
    cases n with
    | zero => exact Sum.inl.inj hn ▸ hI
    | succ n =>
        rw [run_done h] at hn
        cases hn

theorem ends_again (h : body s = .inl s') : Ends body I R s ↔ I s ∧ Ends body I R s' := by
  constructor
  · rintro ⟨⟨r, hr, hR⟩, hI⟩
    refine ⟨hI 0 s rfl, ⟨r, (returns_again h).mp hr, hR⟩, fun n t hn => hI (n + 1) t ?_⟩
    rwa [run_again h]
  · rintro ⟨hs, ⟨r, hr, hR⟩, hI⟩
    refine ⟨⟨r, (returns_again h).mpr hr, hR⟩, fun n t hn => ?_⟩
    cases n with
    | zero => exact Sum.inl.inj hn ▸ hs
    | succ n =>
        rw [run_again h] at hn
        exact hI n t hn

/-- Induction on the passes of a loop that ends. -/
theorem Ends.induct {P : σ → Prop} (hdone : ∀ s r, body s = .inr r → I s → P s)
    (hagain : ∀ s s', body s = .inl s' → I s → P s' → P s) (h : Ends body I R s) : P s := by
  obtain ⟨⟨r, ⟨n, hn⟩, -⟩, hI⟩ := h
  induction n generalizing s with
  | zero => cases hn
  | succ n ih =>
      cases hb : body s with
      | inr r' => exact hdone s r' hb (hI 0 s rfl)
      | inl s' =>
          rw [run_again hb] at hn
          refine hagain s s' hb (hI 0 s rfl) (ih (fun k t hk => hI (k + 1) t ?_) hn)
          rwa [run_again hb]

end Loop
