/-
The bits of a number, the highest first, as a serial line carries them.

`msb n v` are the low `n` bits of `v`. A receiver that puts each bit behind those it has
(`ofMsb`) and one that adds each bit with its weight (`weigh`) both get the number back.
-/
import Mathlib.Tactic

set_option autoImplicit false

namespace MsbBits

/-- The low `n` bits, the highest first. -/
def msb (n v : ℕ) : List Bool := (List.range n).map fun i => v.testBit (n - 1 - i)

/-- The number that the bits make. -/
def ofMsb (bs : List Bool) : ℕ := bs.foldl (fun v b => 2 * v + b.toNat) 0

/-- The bits added up, each with its weight. -/
def weigh (n : ℕ) (bit : ℕ → Bool) : ℕ :=
  (List.range n).foldl (fun v i => v + (bit i).toNat <<< (n - 1 - i)) 0

variable {n v : ℕ} {b : Bool} {bs : List Bool} {bit : ℕ → Bool}

@[simp] theorem length_msb : (msb n v).length = n := by simp [msb]

theorem msb_succ : msb (n + 1) v = v.testBit n :: msb n v := by
  unfold msb
  rw [List.range_succ_eq_map, List.map_cons, List.map_map]
  congr 1
  refine List.map_congr_left fun i _ => ?_
  exact congrArg v.testBit (by omega)

/-- Bits received behind a number that is there already. -/
theorem foldl_eq (a : ℕ) :
    bs.foldl (fun v b => 2 * v + b.toNat) a = 2 ^ bs.length * a + ofMsb bs := by
  unfold ofMsb
  induction bs generalizing a with
  | nil => simp
  | cons b bs ih =>
    rw [List.foldl_cons, List.foldl_cons, ih, ih (2 * 0 + b.toNat), List.length_cons, pow_succ]
    ring

theorem ofMsb_cons : ofMsb (b :: bs) = 2 ^ bs.length * b.toNat + ofMsb bs := by
  rw [ofMsb, List.foldl_cons, foldl_eq, Nat.mul_zero, Nat.zero_add]

/-- **What was sent is received.** -/
theorem ofMsb_msb : ofMsb (msb n v) = v % 2 ^ n := by
  induction n with
  | zero => simp [msb, ofMsb, Nat.mod_one]
  | succ n ih =>
    rw [msb_succ, ofMsb_cons, ih, length_msb, Nat.mod_pow_succ, Nat.toNat_testBit]
    ring

/-- The two receivers agree. -/
theorem weigh_eq : weigh n bit = ofMsb ((List.range n).map bit) := by
  induction n generalizing bit with
  | zero => rfl
  | succ n ih =>
    have hshift : ∀ a, (List.range n).foldl
        (fun v i => v + (bit (i + 1)).toNat <<< (n - 1 - i)) a =
          a + weigh n fun i => bit (i + 1) := by
      unfold weigh
      generalize List.range n = is
      induction is with
      | nil => exact fun a => (Nat.add_zero a).symm
      | cons i is ihs =>
        intro a
        rw [List.foldl_cons, List.foldl_cons, ihs, ihs (0 + _), Nat.zero_add, Nat.add_assoc]
    have hindex : ∀ i, n + 1 - 1 - (i + 1) = n - 1 - i := fun i => by omega
    rw [weigh, List.range_succ_eq_map, List.foldl_cons, List.foldl_map, List.map_cons,
      List.map_map, ofMsb_cons, List.length_map, List.length_range]
    simp only [Nat.succ_eq_add_one, hindex]
    rw [hshift, ih, Nat.shiftLeft_eq]
    simp only [Function.comp_def, Nat.add_sub_cancel, Nat.sub_zero]
    ring

end MsbBits
