/-
Cyclic redundancy checks with the lowest bit first.

A step moves the register down by one bit and adds the polynomial when a one falls out at
the bottom. As with the highest bit first, a step is linear in exclusive or, and what eight
of them do is known from a table of 256 words and from the bits that only move down
(`feed_table`).

When the highest bit of the polynomial is set, the bit that fell out can be read off what
a step makes, and no two registers become the same one (`steps_injective`). Then two bytes
are told apart by the register that they leave, whenever it has room for both
(`feed_pair_injective`).
-/
import Mathlib.Tactic

set_option autoImplicit false

namespace CrcReflected

variable {w : ℕ} {poly c d : BitVec w}

/-- One bit. -/
def step (poly c : BitVec w) : BitVec w :=
  if c.getLsbD 0 then c >>> 1 ^^^ poly else c >>> 1

/-- `k` bits. -/
def steps (poly : BitVec w) (k : ℕ) (c : BitVec w) : BitVec w := (step poly)^[k] c

/-- A byte is taken into the register. -/
def feed (poly c : BitVec w) (b : BitVec 8) : BitVec w := steps poly 8 (c ^^^ b.setWidth w)

theorem steps_add (poly : BitVec w) (m n : ℕ) (c : BitVec w) :
    steps poly (m + n) c = steps poly m (steps poly n c) :=
  Function.iterate_add_apply _ _ _ _

theorem step_xor (poly c d : BitVec w) :
    step poly (c ^^^ d) = step poly c ^^^ step poly d := by
  simp only [step, BitVec.getLsbD_xor, BitVec.ushiftRight_xor_distrib]
  cases c.getLsbD 0 <;> cases d.getLsbD 0
  · rfl
  · simp only [Bool.false_xor, if_true, Bool.false_eq_true, if_false, BitVec.xor_assoc]
  · simp only [Bool.xor_false, if_true, Bool.false_eq_true, if_false, BitVec.xor_assoc,
      BitVec.xor_comm poly]
  · simp only [Bool.xor_self, Bool.false_eq_true, if_false, if_true]
    rw [BitVec.xor_assoc, ← BitVec.xor_assoc poly, BitVec.xor_comm poly, BitVec.xor_assoc,
      BitVec.xor_self, BitVec.xor_zero]

theorem steps_xor (poly : BitVec w) (k : ℕ) (c d : BitVec w) :
    steps poly k (c ^^^ d) = steps poly k c ^^^ steps poly k d := by
  induction k generalizing c d with
  | zero => rfl
  | succ k ih =>
    simp only [steps, Function.iterate_succ_apply, step_xor] at ih ⊢
    exact ih _ _

/-- As long as the bottom of the register is zero, it moves down. -/
theorem steps_high (poly : BitVec w) {k : ℕ} (hc : ∀ i, i < k → c.getLsbD i = false) :
    steps poly k c = c >>> k := by
  induction k generalizing c with
  | zero => exact (BitVec.ushiftRight_zero c).symm
  | succ k ih =>
    have hstep : step poly c = c >>> 1 := by
      rw [step, hc 0 (by omega), if_neg Bool.false_ne_true]
    simp only [steps, Function.iterate_succ_apply, hstep] at ih ⊢
    rw [ih, ← BitVec.shiftRight_add, Nat.add_comm 1 k]
    intro i hi
    rw [BitVec.getLsbD_ushiftRight]
    exact hc _ (by omega)

/-- The register is its lowest byte and what is above. -/
theorem split_low (c : BitVec w) : c = (c.setWidth 8).setWidth w ^^^ c >>> 8 <<< 8 := by
  apply BitVec.eq_of_getLsbD_eq
  intro i hi
  simp only [BitVec.getLsbD_xor, BitVec.getLsbD_shiftLeft, BitVec.getLsbD_setWidth,
    BitVec.getLsbD_ushiftRight]
  by_cases h8 : i < 8
  · simp [h8, hi]
  · have hadd : 8 + (i - 8) = i := by omega
    simp [h8, hi, hadd]

/-- What is above the lowest byte moves down. -/
theorem steps_above (poly c : BitVec w) : steps poly 8 (c >>> 8 <<< 8) = c >>> 8 := by
  rw [steps_high poly fun i hi => ?_]
  · apply BitVec.eq_of_getLsbD_eq
    intro i hi
    simp only [BitVec.getLsbD_ushiftRight, BitVec.getLsbD_shiftLeft]
    by_cases hlt : 8 + i < w
    · simp [hlt]
    · simp [hlt, BitVec.getLsbD_of_ge c (8 + i) (by omega)]
  · rw [BitVec.getLsbD_shiftLeft]
    simp [hi]

/-- **A byte by the table**: the entry for the lowest byte, and the rest moved down. -/
theorem feed_table (poly c : BitVec w) (b : BitVec 8) :
    feed poly c b = c >>> 8 ^^^ steps poly 8 ((c.setWidth 8 ^^^ b).setWidth w) := by
  rw [feed]
  nth_rewrite 1 [split_low c]
  rw [BitVec.xor_assoc, BitVec.xor_comm _ (b.setWidth w), ← BitVec.xor_assoc, ← BitVec.setWidth_xor,
    steps_xor, steps_above, BitVec.xor_comm]

/-! ## Nothing is lost -/

/-- The bit that fell out is at the top. -/
theorem getLsbD_step_top (hpoly : poly.getLsbD (w - 1) = true) (c : BitVec w) :
    (step poly c).getLsbD (w - 1) = c.getLsbD 0 := by
  have hw : 0 < w := by
    by_contra hw
    rw [BitVec.getLsbD_of_ge poly _ (by omega)] at hpoly
    cases hpoly
  have htop : (c >>> 1).getLsbD (w - 1) = false := by
    rw [BitVec.getLsbD_ushiftRight]
    exact BitVec.getLsbD_of_ge _ _ (by omega)
  rw [step]
  cases h : c.getLsbD 0
  · simpa using htop
  · simpa [htop] using hpoly

theorem step_injective (hpoly : poly.getLsbD (w - 1) = true) :
    Function.Injective (step poly) := by
  intro c d h
  have hlow : c.getLsbD 0 = d.getLsbD 0 := by
    rw [← getLsbD_step_top hpoly c, h, getLsbD_step_top hpoly d]
  have hshift : c >>> 1 = d >>> 1 := by
    simp only [step, hlow] at h
    split at h
    · exact (BitVec.xor_left_inj _).mp h
    · exact h
  apply BitVec.eq_of_getLsbD_eq
  intro i hi
  cases i with
  | zero => exact hlow
  | succ i =>
    have hbit := congrArg (BitVec.getLsbD · i) hshift
    simpa only [BitVec.getLsbD_ushiftRight, Nat.add_comm 1 i] using hbit

theorem steps_injective (hpoly : poly.getLsbD (w - 1) = true) (k : ℕ) :
    Function.Injective (steps poly k) :=
  (step_injective hpoly).iterate k

/-- Of two registers that take in the same byte, the difference stays. -/
theorem feed_injective (hpoly : poly.getLsbD (w - 1) = true) (b : BitVec 8) :
    Function.Injective (feed poly · b) := by
  intro c d h
  exact (BitVec.xor_left_inj _).mp (steps_injective hpoly 8 h)

/-- A byte that comes second is one that is eight bits higher and comes first. -/
theorem steps_shiftLeft (poly : BitVec w) (hw : 16 ≤ w) (b : BitVec 8) :
    steps poly 8 (b.setWidth w <<< 8) = b.setWidth w := by
  have hb : (b.setWidth w <<< 8) >>> 8 = b.setWidth w := by
    apply BitVec.eq_of_getLsbD_eq
    intro i hi
    simp only [BitVec.getLsbD_ushiftRight, BitVec.getLsbD_shiftLeft, BitVec.getLsbD_setWidth]
    by_cases hlt : 8 + i < w
    · simp [hlt]
    · simp [hlt, BitVec.getLsbD_of_ge b i (by omega)]
  have habove := steps_above poly (b.setWidth w <<< 8)
  rwa [hb] at habove

theorem feed_feed (poly c : BitVec w) (hw : 16 ≤ w) (a b : BitVec 8) :
    feed poly (feed poly c a) b =
      steps poly 16 (c ^^^ (a.setWidth w ^^^ b.setWidth w <<< 8)) := by
  have hsum : steps poly 8 (c ^^^ a.setWidth w) ^^^ b.setWidth w =
      steps poly 8 (c ^^^ (a.setWidth w ^^^ b.setWidth w <<< 8)) := by
    rw [← BitVec.xor_assoc, steps_xor poly 8 (c ^^^ a.setWidth w), steps_shiftLeft poly hw]
  rw [feed, feed, hsum, ← steps_add]

/-- The lowest two bytes of a word. -/
theorem pair_injective (hw : 16 ≤ w) {a b a' b' : BitVec 8}
    (h : a.setWidth w ^^^ b.setWidth w <<< 8 = a'.setWidth w ^^^ b'.setWidth w <<< 8) :
    a = a' ∧ b = b' := by
  have hbit : ∀ i, (a.setWidth w ^^^ b.setWidth w <<< 8).getLsbD i =
      (a'.setWidth w ^^^ b'.setWidth w <<< 8).getLsbD i := fun i => by rw [h]
  simp only [BitVec.getLsbD_xor, BitVec.getLsbD_shiftLeft, BitVec.getLsbD_setWidth] at hbit
  constructor
  · apply BitVec.eq_of_getLsbD_eq
    intro i hi
    have hi' := hbit i
    simpa [show i < w by omega, hi] using hi'
  · apply BitVec.eq_of_getLsbD_eq
    intro i hi
    have hi' := hbit (8 + i)
    simpa [show 8 + i < w by omega, show i < w by omega, BitVec.getLsbD_of_ge a (8 + i) (by omega),
      BitVec.getLsbD_of_ge a' (8 + i) (by omega)] using hi'

/-- **Two bytes** are told apart by the register that they leave. -/
theorem feed_pair_injective (hpoly : poly.getLsbD (w - 1) = true) (hw : 16 ≤ w) (c : BitVec w)
    {a b a' b' : BitVec 8}
    (h : feed poly (feed poly c a) b = feed poly (feed poly c a') b') : a = a' ∧ b = b' := by
  rw [feed_feed poly c hw, feed_feed poly c hw] at h
  have hword := steps_injective hpoly 16 h
  exact pair_injective hw ((BitVec.xor_right_inj _).mp hword)

end CrcReflected
