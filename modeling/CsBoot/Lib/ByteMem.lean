/-
Byte-addressed memory of a 32-bit little-endian machine.

A memory is a total function from addresses to bytes, and an address is a
natural number read modulo `2^32`. What a program with pointers into its own
memory needs from it is small: a word that was stored is loaded back
(`load32_store32_same`), a store leaves the bytes outside its four addresses
alone (`store32_frame`), and a load looks at its four addresses only
(`load32_congr`). Everything else about a linked structure laid out in memory
follows from these three.
-/
import Mathlib.Tactic

set_option autoImplicit false

/-- The memory of a 32-bit machine, one byte for each address. -/
abbrev ByteMem : Type := ℕ → UInt8

namespace ByteMem

/-- The number of addresses, and of values of a machine word. -/
def W : ℕ := 4294967296

/-- Unsigned subtraction of 32-bit words, wrapping below zero. -/
def sub32 (a b : ℕ) : ℕ := (a % W + (W - b % W)) % W

/-- The little-endian word whose first byte is at `a`. -/
def load32 (m : ByteMem) (a : ℕ) : ℕ :=
  (m (a % W)).toNat + 256 * (m ((a + 1) % W)).toNat
    + 65536 * (m ((a + 2) % W)).toNat + 16777216 * (m ((a + 3) % W)).toNat

/-- Store the low 32 bits of `v` at `a`, lowest byte first. -/
def store32 (m : ByteMem) (a v : ℕ) : ByteMem := fun x =>
  if x = a % W then UInt8.ofNat v
  else if x = (a + 1) % W then UInt8.ofNat (v / 256)
  else if x = (a + 2) % W then UInt8.ofNat (v / 65536)
  else if x = (a + 3) % W then UInt8.ofNat (v / 16777216)
  else m x

/-- Store one byte. -/
def store8 (m : ByteMem) (a : ℕ) (v : UInt8) : ByteMem := fun x =>
  if x = a % W then v else m x

/-! ## Words that do not wrap -/

theorem sub32_of_le {a b : ℕ} (ha : a < W) (hb : b ≤ a) : sub32 a b = a - b := by
  unfold sub32 W at *
  omega

/-- The first byte is the lowest one. -/
theorem load32_mod (m : ByteMem) (a : ℕ) : load32 m a % 256 = (m (a % W)).toNat := by
  have h0 := (m (a % W)).toNat_lt
  unfold load32
  omega

theorem load32_lt (m : ByteMem) (a : ℕ) : load32 m a < W := by
  have h0 := (m (a % W)).toNat_lt
  have h1 := (m ((a + 1) % W)).toNat_lt
  have h2 := (m ((a + 2) % W)).toNat_lt
  have h3 := (m ((a + 3) % W)).toNat_lt
  unfold load32 W at *
  omega

/-! ## Loads and stores

Stated for a word that lies below `2^32` as a whole, so that its four
addresses are `a`, `a + 1`, `a + 2` and `a + 3`. -/

variable {m m' : ByteMem} {a b v : ℕ}

/-- A store changes nothing outside its four bytes. -/
theorem store32_frame (ha : a + 4 ≤ W) {x : ℕ} (hx : x < a ∨ a + 4 ≤ x) :
    store32 m a v x = m x := by
  unfold store32
  rw [if_neg, if_neg, if_neg, if_neg] <;> unfold W at * <;> omega

theorem store8_frame (ha : a < W) {x : ℕ} {w : UInt8} (hx : x ≠ a) :
    store8 m a w x = m x := by
  unfold store8
  rw [if_neg]
  rwa [Nat.mod_eq_of_lt ha]

/-- The same four bytes make the same word, wherever they are. -/
theorem load32_shift (ha : a + 4 ≤ W) (hb : b + 4 ≤ W) (h : ∀ i, i < 4 → m' (a + i) = m (b + i)) :
    load32 m' a = load32 m b := by
  have e : ∀ c, c + 4 ≤ W → ∀ i, i < 4 → (c + i) % W = c + i := fun c hc i hi =>
    Nat.mod_eq_of_lt (by omega)
  have e0 : ∀ c, c + 4 ≤ W → c % W = c + 0 := fun c hc => e c hc 0 (by omega)
  unfold load32
  rw [e0 a ha, e a ha 1 (by omega), e a ha 2 (by omega), e a ha 3 (by omega),
    e0 b hb, e b hb 1 (by omega), e b hb 2 (by omega), e b hb 3 (by omega),
    h 0 (by omega), h 1 (by omega), h 2 (by omega), h 3 (by omega)]

/-- A load depends on its four bytes only. -/
theorem load32_congr (ha : a + 4 ≤ W) (h : ∀ i, i < 4 → m' (a + i) = m (a + i)) :
    load32 m' a = load32 m a :=
  load32_shift ha ha h

/-- The word says what its bytes are. -/
theorem load32_inj (ha : a + 4 ≤ W) (h : load32 m' a = load32 m a) {i : ℕ} (hi : i < 4) :
    m' (a + i) = m (a + i) := by
  have e : ∀ i, i < 4 → (a + i) % W = a + i := fun i hi => Nat.mod_eq_of_lt (by omega)
  have hlt : ∀ x : UInt8, x.toNat < 256 := fun x => x.toNat_lt
  have h0 := hlt (m' a)
  have h1 := hlt (m' (a + 1))
  have h2 := hlt (m' (a + 2))
  have k0 := hlt (m a)
  have k1 := hlt (m (a + 1))
  have k2 := hlt (m (a + 2))
  simp only [load32, show a % W = a from e 0 (by omega), e 1 (by omega), e 2 (by omega),
    e 3 (by omega)] at h
  apply UInt8.toNat_inj.mp
  interval_cases i
  · rw [Nat.add_zero]
    omega
  · omega
  · omega
  · omega

/-- A word is loaded back as its low 32 bits. -/
theorem load32_store32_same (ha : a + 4 ≤ W) : load32 (store32 m a v) a = v % W := by
  have e : ∀ i, i < 4 → (a + i) % W = a + i := fun i hi => Nat.mod_eq_of_lt (by omega)
  have e0 : a % W = a := e 0 (by omega)
  unfold load32 store32
  rw [e0, e 1 (by omega), e 2 (by omega), e 3 (by omega)]
  simp only [if_true, Nat.add_eq_left, Nat.add_left_cancel_iff, Nat.succ_ne_zero, if_false,
    Nat.reduceEqDiff, UInt8.toNat_ofNat']
  unfold W
  omega

/-- A store is invisible to a load of four other bytes. -/
theorem load32_store32_of_disjoint (ha : a + 4 ≤ W) (hb : b + 4 ≤ W)
    (hab : a + 4 ≤ b ∨ b + 4 ≤ a) : load32 (store32 m a v) b = load32 m b :=
  load32_congr hb fun i hi => store32_frame ha (by omega)

end ByteMem
