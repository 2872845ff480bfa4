/-
Cyclic redundancy checks with the highest bit first.

A step moves the register up by one bit and adds the polynomial when a one falls out
at the top. It is linear in exclusive or, so that what eight steps do is known from what
they do to the eight bits at the top, which a table of 256 words holds, and to the rest,
which only moves up (`feed_table`).
-/
import Mathlib.Tactic

set_option autoImplicit false

namespace Crc

variable {n : ℕ} {poly c d : BitVec (n + 8)}

/-- One bit. -/
def step (poly c : BitVec (n + 8)) : BitVec (n + 8) :=
  if c.msb then c <<< 1 ^^^ poly else c <<< 1

/-- `k` bits. -/
def steps (poly : BitVec (n + 8)) (k : ℕ) (c : BitVec (n + 8)) : BitVec (n + 8) := (step poly)^[k] c

/-- A byte as the top of a register. -/
def top (b : BitVec 8) : BitVec (n + 8) := b.setWidth (n + 8) <<< n

/-- A byte is taken into the register. -/
def feed (poly c : BitVec (n + 8)) (b : BitVec 8) : BitVec (n + 8) := steps poly 8 (c ^^^ top b)

theorem step_xor (poly c d : BitVec (n + 8)) :
    step poly (c ^^^ d) = step poly c ^^^ step poly d := by
  simp only [step, BitVec.msb_xor, BitVec.shiftLeft_xor_distrib]
  cases c.msb <;> cases d.msb
  · rfl
  · simp only [Bool.false_xor, if_true, Bool.false_eq_true, if_false, BitVec.xor_assoc]
  · simp only [Bool.xor_false, if_true, Bool.false_eq_true, if_false, BitVec.xor_assoc,
      BitVec.xor_comm poly]
  · simp only [Bool.xor_self, Bool.false_eq_true, if_false, if_true]
    rw [BitVec.xor_assoc, ← BitVec.xor_assoc poly, BitVec.xor_comm poly, BitVec.xor_assoc,
      BitVec.xor_self, BitVec.xor_zero]

theorem steps_xor (poly : BitVec (n + 8)) (k : ℕ) (c d : BitVec (n + 8)) :
    steps poly k (c ^^^ d) = steps poly k c ^^^ steps poly k d := by
  induction k generalizing c d with
  | zero => rfl
  | succ k ih =>
    simp only [steps, Function.iterate_succ_apply, step_xor] at ih ⊢
    exact ih _ _

/-- As long as the top of the register is zero, it moves up. -/
theorem steps_low (poly : BitVec (n + 8)) {k : ℕ} (hc : ∀ i, n + 8 - k ≤ i → c.getLsbD i = false) :
    steps poly k c = c <<< k := by
  induction k generalizing c with
  | zero => exact (BitVec.shiftLeft_zero c).symm
  | succ k ih =>
    have hmsb : c.msb = false := by
      rw [BitVec.msb_eq_getLsbD_last]
      exact hc _ (by omega)
    have hstep : step poly c = c <<< 1 := by rw [step, hmsb, if_neg Bool.false_ne_true]
    simp only [steps, Function.iterate_succ_apply, hstep] at ih ⊢
    rw [ih, ← BitVec.shiftLeft_add, Nat.add_comm 1 k]
    intro i hi
    rw [BitVec.getLsbD_shiftLeft]
    cases i with
    | zero => simp
    | succ i => simp [hc i (by omega)]

/-- The register is its top byte and what is below. -/
theorem split_top (c : BitVec (n + 8)) :
    c = top ((c >>> n).setWidth 8) ^^^ (c.setWidth n).setWidth (n + 8) := by
  apply BitVec.eq_of_getLsbD_eq
  intro i hi
  simp only [top, BitVec.getLsbD_xor, BitVec.getLsbD_shiftLeft, BitVec.getLsbD_setWidth,
    BitVec.getLsbD_ushiftRight]
  by_cases hn : i < n
  · simp [hn, hi]
  · have hadd : n + (i - n) = i := by omega
    simp [hn, hi, hadd, show i - n < 8 by omega, show i - n < n + 8 by omega]

theorem top_xor (a b : BitVec 8) : (top (a ^^^ b) : BitVec (n + 8)) = top a ^^^ top b := by
  simp only [top, BitVec.setWidth_xor, BitVec.shiftLeft_xor_distrib]

theorem low_shift (c : BitVec (n + 8)) : (c.setWidth n).setWidth (n + 8) <<< 8 = c <<< 8 := by
  apply BitVec.eq_of_getLsbD_eq
  intro i hi
  simp only [BitVec.getLsbD_shiftLeft, BitVec.getLsbD_setWidth]
  by_cases h8 : i < 8
  · simp [h8]
  · simp [h8, hi, show i - 8 < n + 8 by omega, show i - 8 < n by omega]

/-- **A byte by the table**: the entry for the top byte, and the rest moved up. -/
theorem feed_table (poly c : BitVec (n + 8)) (b : BitVec 8) :
    feed poly c b = steps poly 8 (top ((c >>> n).setWidth 8 ^^^ b)) ^^^ c <<< 8 := by
  have hlow : steps poly 8 ((c.setWidth n).setWidth (n + 8)) = c <<< 8 := by
    rw [steps_low poly fun i hi => ?_, low_shift]
    rw [BitVec.getLsbD_setWidth, BitVec.getLsbD_setWidth]
    simp [show ¬ i < n by omega]
  rw [feed]
  nth_rewrite 1 [split_top c]
  rw [BitVec.xor_assoc, BitVec.xor_comm _ (top b), ← BitVec.xor_assoc, ← top_xor, steps_xor, hlow]

end Crc
