/-
A window of an endless sequence in a ring.

The places of a ring of `n` places are used again and again; the `k`-th use is that of the
place `k % n`. A reader at `lo` and a writer at `hi` see `lo % n` and `hi % n` only. As long
as fewer than `n` uses lie between them, the two places are the same exactly when nothing
lies between them, and no use in the window shares its place with another one.
-/
import Mathlib.Tactic

set_option autoImplicit false

namespace RingWindow

variable {α : Type*} {n lo hi i j k : ℕ}

/-- The place behind `p`. -/
def next (n p : ℕ) : ℕ := if p = n - 1 then 0 else p + 1

theorem next_mod (hn : 0 < n) (k : ℕ) : next n (k % n) = (k + 1) % n := by
  unfold next
  have hlt := Nat.mod_lt k hn
  split_ifs with h
  · rw [← Nat.mod_add_mod, h, Nat.sub_add_cancel hn, Nat.mod_self]
  · rw [← Nat.mod_add_mod, Nat.mod_eq_of_lt (show k % n + 1 < n by omega)]

/-- Two uses less than a round apart are of different places. -/
theorem mod_ne (hij : i < j) (h : j < i + n) : i % n ≠ j % n := by
  intro heq
  have hdvd : n ∣ j - i := (Nat.modEq_iff_dvd' hij.le).mp heq
  have hle := Nat.le_of_dvd (by omega) hdvd
  omega

/-- The writer is at most a round ahead of the reader, less one place. -/
def Between (n lo hi : ℕ) : Prop := lo ≤ hi ∧ hi < lo + n

namespace Between

theorem pos (h : Between n lo hi) : 0 < n := by
  have := h.1
  have := h.2
  omega

theorem eq_iff (h : Between n lo hi) : lo % n = hi % n ↔ lo = hi := by
  refine ⟨fun heq => ?_, fun heq => heq ▸ rfl⟩
  by_contra hne
  exact mod_ne (lt_of_le_of_ne h.1 hne) h.2 heq

/-- The places that are free, as the two pointers give them. -/
theorem room (h : Between n lo hi) :
    (if lo % n ≤ hi % n then n - hi % n - 1 + lo % n else lo % n - hi % n - 1) =
      n - 1 - (hi - lo) := by
  obtain ⟨hle, hlt⟩ := h
  have hn : 0 < n := by omega
  have hlo := Nat.mod_add_div lo n
  have hhi := Nat.mod_add_div hi n
  have h₁ := Nat.mod_lt lo hn
  have h₂ := Nat.mod_lt hi hn
  -- the writer is in the round of the reader, or in the next one
  obtain hround | hround : hi / n = lo / n ∨ hi / n = lo / n + 1 := by
    have hge : lo / n ≤ hi / n := Nat.div_le_div_right hle
    have hup : hi / n ≤ lo / n + 1 := by
      rw [← Nat.add_div_right lo hn]
      exact Nat.div_le_div_right hlt.le
    omega
  · rw [hround] at hhi
    split_ifs
    · omega
    · omega
  · rw [hround, Nat.mul_succ] at hhi
    split_ifs
    · omega
    · omega

end Between

/-! ## What the places hold -/

/-- Each use in the window has what belongs to it in its place. -/
def Holds (P : ℕ → α → Prop) (n lo hi : ℕ) (slot : ℕ → α) : Prop :=
  ∀ k, lo ≤ k → k < hi → P k (slot (k % n))

namespace Holds

variable {P Q : ℕ → α → Prop} {slot : ℕ → α} {x : α}

theorem empty : Holds P n lo lo slot := fun _ h h' => absurd h' (Nat.not_lt.mpr h)

/-- The writer fills its place. -/
theorem put (h : Holds P n lo hi slot) (hb : Between n lo hi) (hx : P hi x) :
    Holds P n lo (hi + 1) (Function.update slot (hi % n) x) := by
  intro k hk hk'
  obtain rfl | hlt := Nat.eq_or_lt_of_le (Nat.le_of_lt_succ hk')
  · rwa [Function.update_self]
  · have hb' := hb.2
    rw [Function.update_of_ne (mod_ne hlt (by omega))]
    exact h k hk hlt

/-- The reader goes on. -/
theorem take (h : Holds P n lo hi slot) : Holds P n (lo + 1) hi slot :=
  fun k hk hk' => h k (Nat.le_of_succ_le hk) hk'

/-- The place of the writer may change before it is filled. -/
theorem put_ahead (h : Holds P n lo hi slot) (hb : Between n lo hi) :
    Holds P n lo hi (Function.update slot (hi % n) x) := by
  intro k hk hk'
  have hb' := hb.2
  rw [Function.update_of_ne (mod_ne hk' (by omega))]
  exact h k hk hk'

theorem imp (h : Holds P n lo hi slot) (hPQ : ∀ k x, lo ≤ k → k < hi → P k x → Q k x) :
    Holds Q n lo hi slot := fun k hk hk' => hPQ k _ hk hk' (h k hk hk')

end Holds

end RingWindow
