/-
Tables of slots with keys.

A table gives the key of each slot that is in use. When no two slots have one key, the
table is a partial map from keys to slots; it stays one when a key is put into the slot
that has it, or into any slot when none has it, and when a slot is cleared.
-/
import Mathlib.Tactic

set_option autoImplicit false

namespace Slots

variable {κ : Type*} {t : ℕ → Option κ} {i j : ℕ} {k k' : κ}

/-- No two slots have one key. -/
def Unique (t : ℕ → Option κ) : Prop := ∀ ⦃i j k⦄, t i = some k → t j = some k → i = j

/-- Slot `j` gets the key `k`. -/
def put (t : ℕ → Option κ) (j : ℕ) (k : κ) : ℕ → Option κ := Function.update t j (some k)

/-- Slot `j` is cleared. -/
def clear (t : ℕ → Option κ) (j : ℕ) : ℕ → Option κ := Function.update t j none

theorem put_self : put t j k j = some k := Function.update_self ..

theorem put_of_ne (h : i ≠ j) : put t j k i = t i := Function.update_of_ne h ..

theorem clear_self : clear t j j = none := Function.update_self ..

theorem clear_of_ne (h : i ≠ j) : clear t j i = t i := Function.update_of_ne h ..

/-- A key that is in no other slot may be put, -/
theorem Unique.put (h : Unique t) (hfree : ∀ i, t i = some k → i = j) : Unique (put t j k) := by
  intro a b c ha hb
  by_cases haj : a = j <;> by_cases hbj : b = j
  · rw [haj, hbj]
  · rw [haj, put_self] at ha
    rw [put_of_ne hbj] at hb
    exact absurd (hfree b (hb.trans ha.symm)) hbj
  · rw [hbj, put_self] at hb
    rw [put_of_ne haj] at ha
    exact absurd (hfree a (ha.trans hb.symm)) haj
  · rw [put_of_ne haj] at ha
    rw [put_of_ne hbj] at hb
    exact h ha hb

/-- and a slot may always be cleared. -/
theorem Unique.clear (h : Unique t) : Unique (clear t j) := by
  intro a b c ha hb
  by_cases haj : a = j
  · rw [haj, clear_self] at ha
    cases ha
  · by_cases hbj : b = j
    · rw [hbj, clear_self] at hb
      cases hb
    · rw [clear_of_ne haj] at ha
      rw [clear_of_ne hbj] at hb
      exact h ha hb

/-- Other keys stay where they are, unless they were in the slot. -/
theorem put_other (hk : k' ≠ k) (hj : t j ≠ some k') : put t j k i = some k' ↔ t i = some k' := by
  by_cases hij : i = j
  · subst hij
    rw [put_self]
    exact iff_of_false (fun h => hk (Option.some.inj h).symm) hj
  · rw [put_of_ne hij]

/-- The key of the slot is gone. -/
theorem not_key_of_clear (h : Unique t) (hj : t j = some k) : clear t j i ≠ some k := by
  intro hi
  by_cases hij : i = j
  · rw [hij, clear_self] at hi
    cases hi
  · rw [clear_of_ne hij] at hi
    exact hij (h hi hj)

end Slots
