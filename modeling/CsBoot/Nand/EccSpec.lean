/-
The software ECC corrects one error and detects two.

The code is linear: flipping one bit changes it by a fixed pattern, the
syndrome of that position, whatever the data is (`defect_flip`). So the
comparison in `nand_correct_data` sees the sum of the syndromes of the flipped
positions, and the whole claim is about these 2048 + 22 patterns. Two facts
about them carry it. The syndrome of a data bit has exactly one bit set in
every pair `(2i, 2i + 1)`, and the bits set there spell the position. And every
syndrome has an odd number of bits set, so that two of them together have an
even number.
-/
import CsBoot.Nand.Ecc

set_option autoImplicit false

namespace CsBoot.Nand

/-! ## Bytes -/

/-- A property of bytes is checked on the 256 of them. -/
theorem forall_byte {P : UInt8 → Prop} (h : ∀ n, n < 256 → P (UInt8.ofNat n)) (x : UInt8) :
    P x := by
  have := h x.toNat x.toNat_lt
  rwa [UInt8.ofNat_toNat] at this

/-- The byte with bit `k` set. -/
def bit (k : ℕ) : UInt8 := 1 <<< UInt8.ofNat k

/-- `b` if `c`, as a mask. -/
def pick (c : Bool) (b : UInt8) : UInt8 := if c then b else 0

/-- Whether `x` has one of the bits `a`. -/
def test (x a : UInt8) : Bool := x &&& a ≠ 0

theorem pick_xor (c d : Bool) (b : UInt8) : pick (c ^^ d) b = pick c b ^^^ pick d b := by
  cases c <;> cases d <;> simp [pick]

theorem pick_not (c : Bool) (b : UInt8) : pick (!c) b = pick c b ^^^ b := by
  cases c <;> simp [pick]

theorem and_xor_byte (x y a : UInt8) : (x ^^^ y) &&& a = (x &&& a) ^^^ (y &&& a) := by
  rw [← UInt8.toNat_inj]
  simp [Nat.and_xor_distrib_right]

theorem test_xor {k : ℕ} (hk : k < 8) (x y : UInt8) :
    test (x ^^^ y) (bit k) = (test x (bit k) ^^ test y (bit k)) := by
  have hne : bit k ≠ 0 := by
    revert k
    decide
  have hmask : ∀ x : UInt8, x &&& bit k = 0 ∨ x &&& bit k = bit k :=
    forall_byte (by revert k; decide +kernel)
  unfold test
  rw [and_xor_byte]
  rcases hmask x with hx | hx <;> rcases hmask y with hy | hy <;> simp [hx, hy, hne]

/-- Counting bits modulo two turns `^^^` into a sum. -/
theorem nand_count_loop_xor (n : ℕ) (x y : UInt8) :
    nand_count_loop n (x ^^^ y) % 2 = (nand_count_loop n x + nand_count_loop n y) % 2 := by
  induction n generalizing x y with
  | zero => rfl
  | succ n ih =>
      have hzero : ∀ n, nand_count_loop n 0 = 0 := fun n => by cases n <;> rfl
      have hstep : ∀ d, nand_count_loop (n + 1) d =
          (if test d (bit 0) then 1 else 0) + nand_count_loop n (d >>> 1) := by
        intro d
        rw [nand_count_loop]
        by_cases hd : d = 0
        · subst hd
          simp [test, hzero]
        · rw [if_neg hd]
          simp [test, bit]
      rw [hstep, hstep, hstep, UInt8.shiftRight_xor, test_xor (by decide)]
      have := ih (x >>> 1) (y >>> 1)
      cases test x (bit 0) <;> cases test y (bit 0) <;> simp <;> omega

/-! ## The code is linear -/

namespace EccCode

instance : XorOp EccCode :=
  ⟨fun e f => ⟨e.ecc0 ^^^ f.ecc0, e.ecc1 ^^^ f.ecc1, e.ecc2 ^^^ f.ecc2⟩⟩

@[simp] theorem xor_ecc0 (e f : EccCode) : (e ^^^ f).ecc0 = e.ecc0 ^^^ f.ecc0 := rfl
@[simp] theorem xor_ecc1 (e f : EccCode) : (e ^^^ f).ecc1 = e.ecc1 ^^^ f.ecc1 := rfl
@[simp] theorem xor_ecc2 (e f : EccCode) : (e ^^^ f).ecc2 = e.ecc2 ^^^ f.ecc2 := rfl

/-- The code word without a bit set. -/
def zero : EccCode := ⟨0, 0, 0⟩

theorem xor_comm (e f : EccCode) : e ^^^ f = f ^^^ e := by
  ext1 <;> exact UInt8.xor_comm _ _

theorem xor_assoc (e f g : EccCode) : e ^^^ f ^^^ g = e ^^^ (f ^^^ g) := by
  ext1 <;> exact UInt8.xor_assoc _ _ _

theorem xor_self (e : EccCode) : e ^^^ e = zero := by
  ext1 <;> exact UInt8.xor_self

theorem xor_zero (e : EccCode) : e ^^^ zero = e := by
  ext1 <;> exact UInt8.xor_zero

theorem zero_xor (e : EccCode) : zero ^^^ e = e := by rw [xor_comm, xor_zero]

theorem xor_eq_zero {e f : EccCode} : e ^^^ f = zero ↔ e = f := by
  constructor
  · intro h
    rw [← xor_zero e, ← xor_self f, ← xor_assoc, h, zero_xor]
  · rintro rfl
    exact xor_self e

end EccCode

/-- What one loop of `_nand_trans_result` collects, bit by bit. -/
def trans_byte (r2 r3 a3 a2 a1 a0 : UInt8) : UInt8 :=
  pick (test r3 a3) 0x80 ^^^ pick (test r2 a3) 0x40 ^^^
  pick (test r3 a2) 0x20 ^^^ pick (test r2 a2) 0x10 ^^^
  pick (test r3 a1) 0x08 ^^^ pick (test r2 a1) 0x04 ^^^
  pick (test r3 a0) 0x02 ^^^ pick (test r2 a0) 0x01

theorem nand_trans_loop_eq (r2 r3 : UInt8) {a3 a2 a1 a0 : UInt8} (h2 : a3 >>> 1 = a2)
    (h1 : a2 >>> 1 = a1) (h0 : a1 >>> 1 = a0) :
    nand_trans_loop r2 r3 4 a3 0x80 0 = (a0 >>> 1, trans_byte r2 r3 a3 a2 a1 a0) := by
  have h : ∀ c3 d3 c2 d2 c1 d1 c0 d0 : Bool,
      (let t := if c3 then (0 : UInt8) ||| 0x80 else 0
       let t := if d3 then t ||| 0x40 else t
       let t := if c2 then t ||| 0x20 else t
       let t := if d2 then t ||| 0x10 else t
       let t := if c1 then t ||| 0x08 else t
       let t := if d1 then t ||| 0x04 else t
       let t := if c0 then t ||| 0x02 else t
       if d0 then t ||| 0x01 else t) =
      pick c3 0x80 ^^^ pick d3 0x40 ^^^ pick c2 0x20 ^^^ pick d2 0x10 ^^^
      pick c1 0x08 ^^^ pick d1 0x04 ^^^ pick c0 0x02 ^^^ pick d0 0x01 := by
    decide +kernel
  rw [trans_byte, ← h]
  subst h2 h1 h0
  simp only [test, decide_eq_true_eq]
  rfl

theorem nand_trans_result_eq (r2 r3 : UInt8) : nand_trans_result r2 r3 =
    (trans_byte r2 r3 (bit 7) (bit 6) (bit 5) (bit 4),
      trans_byte r2 r3 (bit 3) (bit 2) (bit 1) (bit 0)) := by
  have h₁ : nand_trans_loop r2 r3 4 0x80 0x80 0 =
      (bit 3, trans_byte r2 r3 (bit 7) (bit 6) (bit 5) (bit 4)) :=
    nand_trans_loop_eq r2 r3 rfl rfl rfl
  have h₂ := nand_trans_loop_eq r2 r3 (show bit 3 >>> 1 = bit 2 from rfl)
    (show bit 2 >>> 1 = bit 1 from rfl) (show bit 1 >>> 1 = bit 0 from rfl)
  rw [nand_trans_result, h₁]
  dsimp only
  rw [h₂]

theorem nand_trans_result_xor (r2 r3 s2 s3 : UInt8) :
    nand_trans_result (r2 ^^^ s2) (r3 ^^^ s3) =
      ((nand_trans_result r2 r3).1 ^^^ (nand_trans_result s2 s3).1,
        (nand_trans_result r2 r3).2 ^^^ (nand_trans_result s2 s3).2) := by
  rw [nand_trans_result_eq, nand_trans_result_eq, nand_trans_result_eq]
  apply Prod.ext
  all_goals
    unfold trans_byte
    dsimp only
    simp (disch := decide) only [test_xor, pick_xor]
    ac_rfl

/-- The last code byte, whose two low bits are always set. -/
theorem col_byte_xor (r s : UInt8) :
    (~~~(r ^^^ s) <<< 2 ||| (3 : UInt8)) = (~~~r <<< 2 ||| (3 : UInt8)) ^^^ (s <<< 2) := by
  rw [← UInt8.toBitVec_inj]
  ext i hi
  simp only [UInt8.toBitVec_or, UInt8.toBitVec_xor, UInt8.toBitVec_shiftLeft, UInt8.toBitVec_not,
    BitVec.getElem_or, BitVec.getElem_xor]
  interval_cases i <;> simp

/-! ## Syndromes -/

/-- What flipping bit `k` of byte `j` adds to the code. -/
def data_synd (j k : ℕ) : EccCode :=
  let t := nand_trans_result (~~~UInt8.ofNat j) (UInt8.ofNat j)
  ⟨t.1, t.2, (precalc (bit k) &&& 0x3f) <<< 2⟩

/-- `data` with bit `k` of byte `j` flipped. -/
def flip_data (data : ℕ → UInt8) (j k : ℕ) : ℕ → UInt8 :=
  Function.update data j (data j ^^^ bit k)

/-- The table holds the sum of the entries of the bits set. -/
theorem precalc_eq : ∀ x : UInt8, precalc x =
    pick (test x (bit 0)) 0x55 ^^^ pick (test x (bit 1)) 0x56 ^^^
    pick (test x (bit 2)) 0x59 ^^^ pick (test x (bit 3)) 0x5a ^^^
    pick (test x (bit 4)) 0x65 ^^^ pick (test x (bit 5)) 0x66 ^^^
    pick (test x (bit 6)) 0x69 ^^^ pick (test x (bit 7)) 0x6a :=
  forall_byte (by decide +kernel)

theorem precalc_xor (x y : UInt8) : precalc (x ^^^ y) = precalc x ^^^ precalc y := by
  rw [precalc_eq (x ^^^ y), precalc_eq x, precalc_eq y]
  simp (disch := decide) only [test_xor, pick_xor]
  ac_rfl

/-- A flipped bit changes the overall parity. -/
theorem precalc_parity {k : ℕ} (hk : k < 8) (x : UInt8) :
    test (precalc (x ^^^ bit k)) (bit 6) = !test (precalc x) (bit 6) := by
  have hbit : test (precalc (bit k)) (bit 6) = true := by
    revert k
    decide
  rw [precalc_xor, test_xor (by decide), hbit, Bool.xor_true]

theorem nand_page_regs_succ (data : ℕ → UInt8) (n : ℕ) : nand_page_regs data (n + 1) =
    let r := nand_page_regs data n
    let c := test (precalc (data n)) (bit 6)
    ⟨r.reg1 ^^^ (precalc (data n) &&& 0x3f), r.reg2 ^^^ pick c (~~~UInt8.ofNat n),
      r.reg3 ^^^ pick c (UInt8.ofNat n)⟩ := by
  rw [nand_page_regs]
  have h6 : bit 6 = 0x40 := rfl
  unfold test
  by_cases h : precalc (data n) &&& 0x40 ≠ 0 <;> simp [h, h6, pick]

/-- The parity registers after a flip: changed from byte `j` on. -/
theorem nand_page_regs_flip (data : ℕ → UInt8) {j k : ℕ} (hk : k < 8) (n : ℕ) :
    nand_page_regs (flip_data data j k) n =
      if j < n then
        ⟨(nand_page_regs data n).reg1 ^^^ (precalc (bit k) &&& 0x3f),
          (nand_page_regs data n).reg2 ^^^ ~~~UInt8.ofNat j,
          (nand_page_regs data n).reg3 ^^^ UInt8.ofNat j⟩
      else nand_page_regs data n := by
  induction n with
  | zero => rfl
  | succ n ih =>
      rw [nand_page_regs_succ, nand_page_regs_succ, ih]
      dsimp only
      rcases lt_trichotomy j n with hj | rfl | hj
      · have hn : flip_data data j k n = data n := Function.update_of_ne hj.ne' _ _
        rw [if_pos hj, if_pos (by omega), hn]
        ext1 <;> dsimp only <;> ac_rfl
      · have hn : flip_data data j k j = data j ^^^ bit k := Function.update_self _ _ _
        rw [if_neg (lt_irrefl j), if_pos (by omega), hn, precalc_parity hk, pick_not, pick_not,
          precalc_xor, and_xor_byte]
        ext1 <;> dsimp only <;> ac_rfl
      · have hn : flip_data data j k n = data n := Function.update_of_ne hj.ne _ _
        rw [if_neg (by omega), if_neg (by omega), hn]

theorem nand_page_ECC_flip (data : ℕ → UInt8) {j k : ℕ} (hj : j < 256) (hk : k < 8) :
    nand_page_ECC (flip_data data j k) = nand_page_ECC data ^^^ data_synd j k := by
  rw [nand_page_ECC, nand_page_regs_flip data hk, if_pos hj, nand_page_ECC, nand_page_code,
    nand_page_code, data_synd]
  dsimp only
  rw [nand_trans_result_xor]
  ext1
  · exact UInt8.not_xor.symm
  · exact UInt8.not_xor.symm
  · exact col_byte_xor _ _

/-! ## Positions

A stored block is its data with its code. An error is one flipped bit of it,
and the defect of a block is what `nand_correct_data` computes first: the
difference between the code of the data and the stored code. -/

/-- A bit of the data, or one of the 22 bits of the code that are in use: all
of `ecc0` and `ecc1`, and bits 2 to 7 of `ecc2`. -/
inductive ErrPos
  | data (j : Fin 256) (k : Fin 8)
  | code (i : Fin 22)
deriving DecidableEq

/-- The code word with bit `i` of the 22 set. -/
def code_bit (i : ℕ) : EccCode :=
  if i < 8 then ⟨bit i, 0, 0⟩
  else if i < 16 then ⟨0, bit (i - 8), 0⟩
  else ⟨0, 0, bit (i - 16 + 2)⟩

/-- Flip the bit at a position. -/
def ErrPos.flip : ErrPos → (ℕ → UInt8) × EccCode → (ℕ → UInt8) × EccCode
  | .data j k, b => (flip_data b.1 j k, b.2)
  | .code i, b => (b.1, b.2 ^^^ code_bit i)

/-- What flipping the bit adds to the defect. -/
def ErrPos.synd : ErrPos → EccCode
  | .data j k => data_synd j k
  | .code i => code_bit i

def defect (b : (ℕ → UInt8) × EccCode) : EccCode := nand_page_ECC b.1 ^^^ b.2

theorem defect_flip (p : ErrPos) (b : (ℕ → UInt8) × EccCode) :
    defect (p.flip b) = defect b ^^^ p.synd := by
  cases p with
  | data j k =>
      unfold defect ErrPos.flip ErrPos.synd
      dsimp only
      rw [nand_page_ECC_flip _ j.isLt k.isLt, EccCode.xor_assoc, EccCode.xor_comm (data_synd j k),
        EccCode.xor_assoc]
  | code i => exact (EccCode.xor_assoc _ _ _).symm

/-- Freshly written data has no defect. -/
theorem defect_written (data : ℕ → UInt8) : defect (data, nand_page_ECC data) = EccCode.zero :=
  EccCode.xor_self _

namespace EccCode

/-- Which of the eleven pairs of bits have exactly one bit set. -/
def pairs (e : EccCode) : EccCode :=
  ⟨(e.ecc0 ^^^ e.ecc0 >>> 1) &&& 0x55, (e.ecc1 ^^^ e.ecc1 >>> 1) &&& 0x55,
    (e.ecc2 ^^^ e.ecc2 >>> 1) &&& 0x54⟩

/-- Every pair. -/
def full : EccCode := ⟨0x55, 0x55, 0x54⟩

/-- The number of bits set. -/
def count (e : EccCode) : ℕ := nand_error_count e.ecc0 e.ecc1 e.ecc2

theorem pairs_xor (e f : EccCode) : (e ^^^ f).pairs = e.pairs ^^^ f.pairs := by
  have h : ∀ x y a : UInt8, (x ^^^ y ^^^ (x ^^^ y) >>> 1) &&& a =
      ((x ^^^ x >>> 1) &&& a) ^^^ ((y ^^^ y >>> 1) &&& a) := by
    intro x y a
    rw [UInt8.shiftRight_xor, ← and_xor_byte]
    congr 1
    ac_rfl
  ext1
  · exact h _ _ _
  · exact h _ _ _
  · exact h _ _ _

theorem count_xor (e f : EccCode) : (e ^^^ f).count % 2 = (e.count + f.count) % 2 := by
  have h0 := nand_count_loop_xor 8 e.ecc0 f.ecc0
  have h1 := nand_count_loop_xor 8 e.ecc1 f.ecc1
  have h2 := nand_count_loop_xor 8 e.ecc2 f.ecc2
  unfold count nand_error_count
  rw [xor_ecc0, xor_ecc1, xor_ecc2]
  omega

end EccCode

/-! ## What the syndromes look like -/

/-- The bits set in the syndrome of a data bit are one from each pair, and they
spell the position. -/
theorem data_synd_spec {j k : ℕ} (hj : j < 256) (hk : k < 8) :
    (data_synd j k).pairs = EccCode.full ∧
      (nand_error_add (data_synd j k).ecc0 (data_synd j k).ecc1).toNat = j ∧
      nand_error_bit (data_synd j k).ecc2 = UInt8.ofNat k ∧ (data_synd j k).count % 2 = 1 := by
  -- the line bytes depend on `j` only, and the column byte on `k` only
  have hline : ∀ j, j < 256 →
      (let t := nand_trans_result (~~~UInt8.ofNat j) (UInt8.ofNat j)
       (t.1 ^^^ t.1 >>> 1) &&& 0x55 = 0x55 ∧ (t.2 ^^^ t.2 >>> 1) &&& 0x55 = 0x55 ∧
        (nand_error_add t.1 t.2).toNat = j ∧
        (nand_count_loop 8 t.1 + nand_count_loop 8 t.2) % 2 = 0) := by
    decide +kernel
  have hcol : ∀ k, k < 8 →
      (let c := (precalc (bit k) &&& 0x3f) <<< 2
       (c ^^^ c >>> 1) &&& 0x54 = 0x54 ∧ nand_error_bit c = UInt8.ofNat k ∧
        nand_count_loop 8 c % 2 = 1) := by
    decide +kernel
  obtain ⟨h₁, h₂, h₃, h₄⟩ := hline j hj
  obtain ⟨h₅, h₆, h₇⟩ := hcol k hk
  refine ⟨EccCode.ext h₁ h₂ h₅, h₃, h₆, ?_⟩
  unfold EccCode.count nand_error_count data_synd
  dsimp only at *
  omega

/-- The syndrome of a code bit has a single bit set. -/
theorem code_bit_spec : ∀ i, i < 22 → (code_bit i).count = 1 ∧
    (code_bit i).pairs ≠ EccCode.zero ∧ (code_bit i).pairs ≠ EccCode.full := by
  decide +kernel

/-- Two code bits leave most pairs alone, and are told apart by their place. -/
theorem code_bit_pair : ∀ i, i < 22 → ∀ i', i' < 22 →
    (code_bit i ^^^ code_bit i').pairs ≠ EccCode.full ∧ (code_bit i = code_bit i' → i = i') := by
  decide +kernel

theorem synd_odd (p : ErrPos) : p.synd.count % 2 = 1 := by
  cases p with
  | data j k => exact (data_synd_spec j.isLt k.isLt).2.2.2
  | code i => exact congrArg (· % 2) (code_bit_spec i i.isLt).1

/-- Different positions have different syndromes. -/
theorem synd_injective {p q : ErrPos} (h : p.synd = q.synd) : p = q := by
  cases p with
  | data j k =>
      obtain ⟨hp, hadd, hbit, -⟩ := data_synd_spec j.isLt k.isLt
      cases q with
      | data j' k' =>
          obtain ⟨-, hadd', hbit', -⟩ := data_synd_spec j'.isLt k'.isLt
          have h' : data_synd j k = data_synd j' k' := h
          rw [h', hadd'] at hadd
          rw [h', hbit'] at hbit
          have hk : ∀ k k' : Fin 8, UInt8.ofNat k' = UInt8.ofNat k → k = k' := by decide
          rw [Fin.ext hadd.symm, hk k k' hbit]
      | code i =>
          have h' : data_synd j k = code_bit i := h
          exact absurd (h'.symm ▸ hp) (code_bit_spec i i.isLt).2.2
  | code i =>
      cases q with
      | data j k =>
          have h' : code_bit i = data_synd j k := h
          exact absurd (h' ▸ (data_synd_spec j.isLt k.isLt).1) (code_bit_spec i i.isLt).2.2
      | code i' => rw [Fin.ext ((code_bit_pair i i.isLt i' i'.isLt).2 h)]

/-- Two errors never look like a single data error. -/
theorem synd_pair_ne_full (p q : ErrPos) : (p.synd ^^^ q.synd).pairs ≠ EccCode.full := by
  -- with a data bit in it, the pairs are those of the other position, complemented
  have hdata : ∀ (j : Fin 256) (k : Fin 8) (e : EccCode), e.pairs ≠ EccCode.zero →
      (data_synd j k ^^^ e).pairs ≠ EccCode.full := by
    intro j k e he h
    rw [EccCode.pairs_xor, (data_synd_spec j.isLt k.isLt).1] at h
    apply he
    rw [← EccCode.zero_xor e.pairs, ← EccCode.xor_self EccCode.full, EccCode.xor_assoc, h]
  have hfull : EccCode.full ≠ EccCode.zero := by decide
  cases p with
  | data j k =>
      cases q with
      | data j' k' => exact hdata j k _ ((data_synd_spec j'.isLt k'.isLt).1 ▸ hfull)
      | code i => exact hdata j k _ (code_bit_spec i i.isLt).2.1
  | code i =>
      cases q with
      | data j k =>
          rw [EccCode.xor_comm]
          exact hdata j k _ (code_bit_spec i i.isLt).2.1
      | code i' => exact (code_bit_pair i i.isLt i' i'.isLt).1

/-! ## `nand_correct_data`, by the defect it sees -/

variable {dat : ℕ → UInt8} {e : EccCode}

theorem or_eq_zero_iff (e : EccCode) : e.ecc0 ||| e.ecc1 ||| e.ecc2 = 0 ↔ e = EccCode.zero := by
  rw [UInt8.or_eq_zero_iff, UInt8.or_eq_zero_iff, EccCode.ext_iff, and_assoc]
  rfl

theorem nand_correct_data_eq (dat : ℕ → UInt8) (e : EccCode) :
    nand_correct_data dat e (nand_page_ECC dat) =
      if defect (dat, e) = EccCode.zero then ((0 : ℤ), dat, e)
      else if (defect (dat, e)).pairs = EccCode.full then
        let add := (nand_error_add (defect (dat, e)).ecc0 (defect (dat, e)).ecc1).toNat
        let bit := nand_error_bit (defect (dat, e)).ecc2
        (1, Function.update dat add (dat add ^^^ 0x01 <<< bit), e)
      else if (defect (dat, e)).count = 1 then (2, dat, nand_page_ECC dat)
      else (-1, dat, e) := by
  have hfull : ∀ f : EccCode, f.pairs = EccCode.full ↔ (f.ecc0 ^^^ f.ecc0 >>> 1) &&& 0x55 = 0x55 ∧
      (f.ecc1 ^^^ f.ecc1 >>> 1) &&& 0x55 = 0x55 ∧ (f.ecc2 ^^^ f.ecc2 >>> 1) &&& 0x54 = 0x54 :=
    fun f => EccCode.ext_iff
  simp only [← or_eq_zero_iff, hfull]
  rfl

/-- **(a)** One flipped data bit is corrected. -/
theorem correct_data_error (dat : ℕ → UInt8) {j k : ℕ} (hj : j < 256) (hk : k < 8) :
    nand_correct_data (flip_data dat j k) (nand_page_ECC dat) (nand_page_ECC (flip_data dat j k)) =
      (1, dat, nand_page_ECC dat) := by
  obtain ⟨hpairs, hadd, hbit, -⟩ := data_synd_spec hj hk
  have hd : defect (flip_data dat j k, nand_page_ECC dat) = data_synd j k := by
    rw [defect, nand_page_ECC_flip dat hj hk, EccCode.xor_comm, ← EccCode.xor_assoc,
      EccCode.xor_self, EccCode.zero_xor]
  have hne : data_synd j k ≠ EccCode.zero := by
    intro h
    rw [h] at hpairs
    exact absurd hpairs (by decide)
  rw [nand_correct_data_eq, hd, if_neg hne, if_pos hpairs]
  dsimp only
  rw [hadd, hbit]
  -- flipping twice gives the bit back
  have hback : flip_data dat j k j ^^^ bit k = dat j := by
    rw [flip_data, Function.update_self, UInt8.xor_assoc, UInt8.xor_self, UInt8.xor_zero]
  refine Prod.ext rfl (Prod.ext ?_ rfl)
  dsimp only
  rw [← bit, hback, flip_data, Function.update_idem, Function.update_eq_self]

/-- **(b)** One flipped code bit leaves the data alone. -/
theorem correct_code_error (dat : ℕ → UInt8) {i : ℕ} (hi : i < 22) :
    nand_correct_data dat (nand_page_ECC dat ^^^ code_bit i) (nand_page_ECC dat) =
      (2, dat, nand_page_ECC dat) := by
  obtain ⟨hcount, hzero, hfull⟩ := code_bit_spec i hi
  have hd : defect (dat, nand_page_ECC dat ^^^ code_bit i) = code_bit i := by
    rw [defect, ← EccCode.xor_assoc, EccCode.xor_self, EccCode.zero_xor]
  have hne : code_bit i ≠ EccCode.zero := by
    rintro h
    rw [h] at hzero
    exact hzero (by decide)
  rw [nand_correct_data_eq, hd, if_neg hne, if_neg hfull, if_pos hcount]

/-- **(c)** Two flipped bits are reported as not correctable. -/
theorem correct_two_errors (dat : ℕ → UInt8) {p q : ErrPos} (hpq : p ≠ q)
    {b : (ℕ → UInt8) × EccCode}
    (hb : b = p.flip (q.flip (dat, nand_page_ECC dat))) :
    nand_correct_data b.1 b.2 (nand_page_ECC b.1) = (-1, b.1, b.2) := by
  have hd : defect (b.1, b.2) = q.synd ^^^ p.synd := by
    rw [hb, Prod.mk.eta, defect_flip, defect_flip, defect_written, EccCode.zero_xor]
  have hne : q.synd ^^^ p.synd ≠ EccCode.zero := by
    rw [Ne, EccCode.xor_eq_zero]
    exact fun h => hpq (synd_injective h).symm
  have heven : (q.synd ^^^ p.synd).count ≠ 1 := by
    have h := EccCode.count_xor q.synd p.synd
    have hp := synd_odd p
    have hq := synd_odd q
    omega
  rw [nand_correct_data_eq, hd, if_neg hne, if_neg (synd_pair_ne_full q p), if_neg heven]

/-- **The software ECC corrects one error and detects two**, in the 256 data
bytes and the 22 code bits in use. -/
theorem ecc_sec_ded (d : ℕ → UInt8) :
    (∀ j k, j < 256 → k < 8 →
      nand_correct_data (flip_data d j k) (nand_page_ECC d) (nand_page_ECC (flip_data d j k)) =
        (1, d, nand_page_ECC d)) ∧
    (∀ i, i < 22 → ∃ r e, nand_correct_data d (nand_page_ECC d ^^^ code_bit i) (nand_page_ECC d) =
      (r, d, e) ∧ r ≠ -1) ∧
    (∀ p q : ErrPos, p ≠ q → ∀ b, b = p.flip (q.flip (d, nand_page_ECC d)) → ∀ r d' e,
      nand_correct_data b.1 b.2 (nand_page_ECC b.1) = (r, d', e) → r = 0 ∨ r = 1 → d' = d) := by
  refine ⟨fun j k hj hk => correct_data_error d hj hk, ?_, fun p q hpq b hb r d' e h hr =>
    ?_⟩
  · intro i hi
    exact ⟨2, _, correct_code_error d hi, by decide⟩
  · rw [correct_two_errors d hpq hb] at h
    cases h
    exact absurd hr (by decide)

/-- A block of zeros, with bit 5 of byte 3 and bit 2 of `ecc2` flipped. -/
theorem ecc_sec_ded_zeros :
    let b := (ErrPos.data 3 5).flip ((ErrPos.code 16).flip (fun _ => 0, nand_page_ECC fun _ => 0))
    ∀ r d' e, nand_correct_data b.1 b.2 (nand_page_ECC b.1) = (r, d', e) → r = 0 ∨ r = 1 →
      d' = fun _ => 0 :=
  (ecc_sec_ded fun _ => 0).2.2 (.data 3 5) (.code 16) (by decide) _ rfl

end CsBoot.Nand
