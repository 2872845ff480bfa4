/-
The loops with which a C program copies a range of memory.

`copy_bytes` moves byte by byte and `copy_words` word by word, both from the front and both
through one memory, in which the two ranges may lie anywhere. Where they lie apart and neither
goes beyond the last address, the loops are one `splice` of the source into the destination
(`copy_bytes_eq`, `copy_words_eq`). Several of them one after the other leave what was written
last, which `RangeStore.lastWritten` says.
-/
import CsBoot.Lib.ByteMem
import CsBoot.Lib.RangeStore

set_option autoImplicit false

namespace ByteMem

open RangeStore

/-- `while (n--) *dest++ = *srce++;` with pointers to bytes. -/
def copy_bytes (m : ByteMem) (dest srce : ℕ) : ℕ → ByteMem
  | 0 => m
  | n + 1 => copy_bytes (store8 m dest (m (srce % W))) (dest + 1) (srce + 1) n

/-- The same with pointers to words. -/
def copy_words (m : ByteMem) (dest srce : ℕ) : ℕ → ByteMem
  | 0 => m
  | n + 1 => copy_words (store32 m dest (load32 m srce)) (dest + 4) (srce + 4) n

/-- Two ranges have no address in common. -/
def Apart (a m b n : ℕ) : Prop := a + m ≤ b ∨ b + n ≤ a

variable {m : ByteMem} {dest srce n a b k : ℕ}

theorem Apart.symm (h : Apart a k b n) : Apart b n a k := Or.symm h

/-- An address of the one is none of the other. -/
theorem Apart.outside (h : Apart a k b n) {i : ℕ} (hi : i < n) : b + i < a ∨ a + k ≤ b + i := by
  unfold Apart at h
  omega

theorem splice_zero (m buf : ByteMem) (a : ℕ) : splice m a 0 buf = m := by
  funext x
  exact splice_outside (by omega)

/-- One byte. -/
theorem store8_splice (hd : dest < W) (v : UInt8) :
    store8 m dest v = splice m dest 1 fun _ => v := by
  funext x
  by_cases hx : x = dest
  · rw [hx, splice_inside le_rfl (Nat.lt_succ_self dest), store8, Nat.mod_eq_of_lt hd, if_pos rfl]
  · rw [store8_frame hd hx, splice_outside (by omega)]

/-- One word, which need not be apart from where it comes from. -/
theorem store32_splice (hd : dest + 4 ≤ W) (hs : srce + 4 ≤ W) :
    store32 m dest (load32 m srce) = splice m dest 4 fun i => m (srce + i) := by
  have hword : load32 (store32 m dest (load32 m srce)) dest =
      load32 (splice m dest 4 fun i => m (srce + i)) dest := by
    rw [load32_store32_same hd, Nat.mod_eq_of_lt (load32_lt m srce)]
    exact (load32_shift hd hs fun i hi => splice_add hi).symm
  funext x
  by_cases hx : dest ≤ x ∧ x < dest + 4
  · obtain ⟨i, rfl⟩ := Nat.exists_eq_add_of_le hx.1
    exact load32_inj hd hword (by omega)
  · rw [store32_frame hd (by omega), splice_outside (by omega)]

/-- **A loop over bytes** puts the source into the destination. -/
theorem copy_bytes_eq (hd : dest + n ≤ W) (hs : srce + n ≤ W) (h : Apart dest n srce n) :
    copy_bytes m dest srce n = splice m dest n fun i => m (srce + i) := by
  induction n generalizing m dest srce with
  | zero => exact (splice_zero _ _ _).symm
  | succ n ih =>
    unfold Apart at h
    rw [copy_bytes, Nat.mod_eq_of_lt (by omega), ih (by omega) (by omega) (by unfold Apart; omega),
      Nat.add_comm n 1, ← splice_splice]
    funext x
    apply splice_congr
    · rw [store8_splice (by omega)]
      exact splice_congr rfl fun i hi => by
        obtain rfl : i = 0 := by omega
        rfl
    · intro i hi
      rw [store8_frame (by omega) (by omega), Nat.add_assoc]

/-- **A loop over words** does so, too. -/
theorem copy_words_eq (hd : dest + 4 * n ≤ W) (hs : srce + 4 * n ≤ W)
    (h : Apart dest (4 * n) srce (4 * n)) :
    copy_words m dest srce n = splice m dest (4 * n) fun i => m (srce + i) := by
  induction n generalizing m dest srce with
  | zero => exact (splice_zero _ _ _).symm
  | succ n ih =>
    unfold Apart at h
    rw [copy_words, ih (by omega) (by omega) (by unfold Apart; omega), Nat.mul_succ,
      Nat.add_comm (4 * n) 4, ← splice_splice]
    funext x
    apply splice_congr
    · rw [store32_splice (by omega) (by omega)]
    · intro i hi
      rw [store32_frame (by omega) (by omega), Nat.add_assoc]

end ByteMem
