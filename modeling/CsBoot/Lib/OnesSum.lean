/-
One's complement sums.

A word of one's complement arithmetic is a number up to `n`, where `n` is the word of all
ones; it stands for its residue modulo `n`, and zero has two words. Addition carries the
overflow around to the other end. A sum of words that are not all zero is never the word
zero, so that a sum is determined by its residue and by whether it is zero
(`onesSum_unique`).
-/
import Mathlib.Tactic

set_option autoImplicit false

/-- Addition with the end-around carry. -/
def onesAdd (n a b : ℕ) : ℕ := if n < a + b then a + b - n else a + b

/-- The sum of a list of words. -/
def onesSum (n : ℕ) (l : List ℕ) : ℕ := l.foldl (onesAdd n) 0

section Sum

variable {n a b s : ℕ} {l : List ℕ}

theorem onesAdd_le (ha : a ≤ n) (hb : b ≤ n) : onesAdd n a b ≤ n := by
  unfold onesAdd
  split_ifs <;> omega

theorem onesAdd_modEq : onesAdd n a b ≡ a + b [MOD n] := by
  unfold onesAdd
  split_ifs with h
  · exact (Nat.mod_eq_sub_mod h.le).symm
  · rfl

theorem onesAdd_eq_zero (ha : a ≤ n) : onesAdd n a b = 0 ↔ a + b = 0 := by
  unfold onesAdd
  split_ifs <;> omega

/-- What a sum is, from a word on. -/
theorem foldl_onesAdd (hl : ∀ x ∈ l, x ≤ n) (hs : s ≤ n) :
    l.foldl (onesAdd n) s ≤ n ∧ l.foldl (onesAdd n) s ≡ s + l.sum [MOD n] ∧
      (l.foldl (onesAdd n) s = 0 ↔ s + l.sum = 0) := by
  induction l generalizing s with
  | nil => exact ⟨hs, Nat.ModEq.refl _, Iff.rfl⟩
  | cons x l ih =>
      obtain ⟨hle, hmod, hzero⟩ := ih (fun y hy => hl y (List.mem_cons_of_mem _ hy))
        (onesAdd_le hs (hl x List.mem_cons_self))
      rw [List.foldl_cons, List.sum_cons, ← Nat.add_assoc]
      refine ⟨hle, hmod.trans (onesAdd_modEq.add_right _), hzero.trans ?_⟩
      have := @onesAdd_eq_zero n s x hs
      omega

theorem onesSum_spec (hl : ∀ x ∈ l, x ≤ n) :
    onesSum n l ≤ n ∧ onesSum n l ≡ l.sum [MOD n] ∧ (onesSum n l = 0 ↔ l.sum = 0) := by
  have h := foldl_onesAdd hl (Nat.zero_le n)
  rwa [Nat.zero_add] at h

/-- A word is determined by its residue and by whether it is zero. -/
theorem onesSum_unique (ha : a ≤ n) (hb : b ≤ n) (h : a ≡ b [MOD n]) (hzero : a = 0 ↔ b = 0) :
    a = b := by
  obtain hlt | rfl := lt_or_eq_of_le ha
  · obtain hlt' | rfl := lt_or_eq_of_le hb
    · exact h.eq_of_lt_of_lt hlt hlt'
    · have h₀ : a = 0 := Nat.eq_zero_of_dvd_of_lt ((Nat.modEq_zero_iff_dvd.mp
        (h.trans (Nat.modEq_zero_iff_dvd.mpr dvd_rfl)))) hlt
      omega
  · obtain hlt' | rfl := lt_or_eq_of_le hb
    · have h₀ : b = 0 := Nat.eq_zero_of_dvd_of_lt ((Nat.modEq_zero_iff_dvd.mp
        (h.symm.trans (Nat.modEq_zero_iff_dvd.mpr dvd_rfl)))) hlt'
      omega
    · rfl

end Sum
