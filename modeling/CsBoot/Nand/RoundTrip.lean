/-
A page through `pagewrite` and `pageread`, with bits that flip in between.

Writer and reader compute the code of each step of 256 bytes on their own and
place it by the tables `nand_oob_16` and `nand_oob_64`. `Decayed` says what may
happen to a page between the two: in each step one bit flips, in its data or in
the 22 bits of its code that are in use, and nothing else changes.

The reader corrects step after step in place. The invariant of its loop is that
the steps behind are as they were written and the steps ahead as they are on
the chip (`pageread_ecc_decayed`).
-/
import CsBoot.Nand.EccSpec
import CsBoot.Nand.Faultless

set_option autoImplicit false

namespace CsBoot.Nand

open Status

variable {g : FlashInfo} {raw raw' : RawPage} {data : ℕ → UInt8} {n : ℕ}

/-- Step `n` of a page: 256 bytes of data and the code stored for them. -/
def ecc_step (g : FlashInfo) (raw : RawPage) (n : ℕ) : (ℕ → UInt8) × EccCode :=
  let oob := fun j => raw (g.page_size + j)
  let sel := g.oobsel (3 * n)
  (fun i => raw (256 * n + i), ⟨oob sel, oob (sel + 1), oob (sel + 2)⟩)

/-- Flip one bit of a step, or none. -/
def flip_one (e : Option ErrPos) (s : (ℕ → UInt8) × EccCode) : (ℕ → UInt8) × EccCode :=
  e.elim s fun p => p.flip s

/-- `raw'` is `raw` after at most one bit has flipped in each step. -/
structure Decayed (g : FlashInfo) (raw raw' : RawPage) : Prop where
  step : ∀ n, n < g.page_size / 256 → ∃ e : Option ErrPos,
    (∀ i, i < 256 → (ecc_step g raw' n).1 i = (flip_one e (ecc_step g raw n)).1 i) ∧
    (ecc_step g raw' n).2 = (flip_one e (ecc_step g raw n)).2
  rest : ∀ j, (∀ i, i < 3 * (g.page_size / 256) → j ≠ g.oobsel i) →
    raw' (g.page_size + j) = raw (g.page_size + j)

/-- A flip sees the 256 bytes of the step and its code. -/
theorem flip_one_congr (e : Option ErrPos) {s t : (ℕ → UInt8) × EccCode}
    (h : ∀ i, i < 256 → s.1 i = t.1 i) (h' : s.2 = t.2) :
    (∀ i, i < 256 → (flip_one e s).1 i = (flip_one e t).1 i) ∧
      (flip_one e s).2 = (flip_one e t).2 := by
  rcases e with - | ⟨j, k⟩ | k
  · exact ⟨h, h'⟩
  · refine ⟨?_, h'⟩
    intro i hi
    simp only [flip_one, Option.elim_some, ErrPos.flip, flip_data]
    rw [h j j.isLt]
    by_cases hij : i = j
    · rw [hij, Function.update_self, Function.update_self]
    · rw [Function.update_of_ne hij, Function.update_of_ne hij, h i hi]
  · exact ⟨h, congrArg (· ^^^ code_bit k) h'⟩

/-- The steps of a page as `pagewrite` sends it. -/
theorem ecc_step_pagewrite (data : ℕ → UInt8) (hn : n < g.page_size / 256) :
    (∀ i, i < 256 → (ecc_step g (pagewrite_raw g data) n).1 i = data (256 * n + i)) ∧
      (ecc_step g (pagewrite_raw g data) n).2 = nand_page_ECC fun i => data (256 * n + i) := by
  have hoob : ∀ j, pagewrite_raw g data (g.page_size + j) =
      pagewrite_oob g data (g.page_size / 256) j := by
    intro j
    rw [pagewrite_raw, if_neg (by omega), Nat.add_sub_cancel_left]
  constructor
  · intro i hi
    exact if_pos (by omega)
  · rw [← pagewrite_oob_code data hn le_rfl]
    unfold ecc_step
    dsimp only
    rw [hoob, hoob, hoob]

/-! ## One step -/

/-- `nand_correct_data` on data that agrees with `dat` on the 256 bytes of a
step, except for the bit that flipped. -/
theorem correct_flip_one {dat f : ℕ → UInt8} {c : EccCode} (e : Option ErrPos)
    (hdata : ∀ i, i < 256 → f i = (flip_one e (dat, nand_page_ECC dat)).1 i)
    (hcode : c = (flip_one e (dat, nand_page_ECC dat)).2) :
    (nand_correct_data f c (nand_page_ECC f)).1 ≠ -1 ∧
      (∀ i, i < 256 → (nand_correct_data f c (nand_page_ECC f)).2.1 i = dat i) ∧
      ∀ i, 256 ≤ i → (nand_correct_data f c (nand_page_ECC f)).2.1 i = f i := by
  -- beyond the step the two need not agree, so `dat` is continued by `f`
  set h : ℕ → UInt8 := fun i => if i < 256 then dat i else f i with hh
  have hcongr : nand_page_ECC h = nand_page_ECC dat := by
    apply nand_page_ECC_congr
    intro i hi
    exact if_pos hi
  have hlow : ∀ i, i < 256 → h i = dat i := fun i hi => if_pos hi
  have hhigh : ∀ i, 256 ≤ i → h i = f i := fun i hi => if_neg hi.not_gt
  rcases e with - | ⟨j, k⟩ | i
  · -- nothing flipped
    have hf : f = h := by
      funext i
      by_cases hi : i < 256
      · rw [hlow i hi]
        exact hdata i hi
      · exact (hhigh i (not_lt.mp hi)).symm
    rw [show c = nand_page_ECC h from hcode.trans hcongr.symm, hf, nand_correct_data_eq, defect,
      EccCode.xor_self, if_pos rfl]
    exact ⟨show (0 : ℤ) ≠ -1 by decide, hlow, fun _ _ => rfl⟩
  · -- a bit of the data
    have hf : f = flip_data h j k := by
      funext i
      unfold flip_data
      by_cases hi : i < 256
      · rw [hdata i hi, hlow j j.isLt]
        by_cases hij : i = j
        · rw [hij, Function.update_self]
          exact Function.update_self _ _ _
        · rw [Function.update_of_ne hij, hlow i hi]
          exact Function.update_of_ne hij _ _
      · rw [Function.update_of_ne (by omega), hhigh i (not_lt.mp hi)]
    rw [show c = nand_page_ECC h from hcode.trans hcongr.symm]
    have hfix := correct_data_error h j.isLt k.isLt
    rw [← hf] at hfix
    rw [hfix]
    exact ⟨show (1 : ℤ) ≠ -1 by decide, hlow, hhigh⟩
  · -- a bit of the code
    have hf : f = h := by
      funext x
      by_cases hx : x < 256
      · rw [hlow x hx]
        exact hdata x hx
      · exact (hhigh x (not_lt.mp hx)).symm
    have hc : c = nand_page_ECC h ^^^ code_bit i := by
      rw [hcongr]
      exact hcode
    rw [hc, hf, correct_code_error h i.isLt]
    exact ⟨show (2 : ℤ) ≠ -1 by decide, hlow, fun _ _ => rfl⟩

/-! ## The loop of `pageread` -/

/-- After `n` steps of the loop the data in front is as it was written, and the
rest as it was read. -/
theorem pageread_ecc_decayed (h : Decayed g (pagewrite_raw g data) raw') :
    ∀ n, n ≤ g.page_size / 256 → (pageread_ecc g raw' n).1 = PASS ∧
      (∀ i, i < 256 * n → (pageread_ecc g raw' n).2 i = data i) ∧
      ∀ i, 256 * n ≤ i → (pageread_ecc g raw' n).2 i = raw' i := by
  intro n
  induction n with
  | zero => exact fun _ => ⟨rfl, fun i hi => absurd hi (by omega), fun _ _ => rfl⟩
  | succ n ih =>
      intro hn
      obtain ⟨hpass, hdone, hahead⟩ := ih (by omega)
      obtain ⟨e, hdata, hcode⟩ := h.step n (by omega)
      obtain ⟨hsent, hsent'⟩ := ecc_step_pagewrite (g := g) data (n := n) (by omega)
      -- the step as sent, by its data and the code computed from it
      obtain ⟨hstep, hstep'⟩ := flip_one_congr e
        (t := (fun i => data (256 * n + i), nand_page_ECC fun i => data (256 * n + i))) hsent hsent'
      -- what the loop hands to `nand_correct_data`
      have hcode' : (⟨raw' (g.page_size + g.oobsel (3 * n)),
          raw' (g.page_size + (g.oobsel (3 * n) + 1)),
          raw' (g.page_size + (g.oobsel (3 * n) + 2))⟩ : EccCode) = (ecc_step g raw' n).2 := rfl
      have hread : (fun i => (pageread_ecc g raw' n).2 (256 * n + i)) = (ecc_step g raw' n).1 := by
        funext i
        exact hahead _ (by omega)
      obtain ⟨hne, hfixed, hrest⟩ := correct_flip_one (c := (ecc_step g raw' n).2) e
        (fun i hi => (hdata i hi).trans (hstep i hi)) (hcode.trans hstep')
      rw [pageread_ecc, if_neg (by rw [hpass]; decide)]
      dsimp only
      rw [hread, hcode', if_neg hne]
      dsimp only
      refine ⟨rfl, ?_, ?_⟩
      · intro i hi
        by_cases hi' : i < 256 * n
        · rw [if_pos hi']
          exact hdone i hi'
        · rw [if_neg hi']
          have := hfixed (i - 256 * n) (by omega)
          rwa [Nat.add_sub_cancel' (by omega)] at this
      · intro i hi
        rw [if_neg (by omega)]
        have := hrest (i - 256 * n) (by omega)
        rw [ecc_step] at this
        dsimp only at this
        rwa [Nat.add_sub_cancel' (by omega)] at this

/-! ## The round trip -/

variable {d : NandDev} {addr : ℕ}

/-- All that `pagewrite` does to the chip is the write. -/
theorem pagewrite_dev (d : NandDev) (addr : ℕ) (data : ℕ → UInt8) :
    (pagewrite g d addr data).1 = d.program g (addr / g.page_size) (pagewrite_raw g data) := by
  rw [pagewrite]
  split
  · rfl
  · split <;> rfl

/-- What `VeffBad` looks at. -/
theorem VeffBad_pass {a : ℕ} : VeffBad g d a = PASS ↔
    marker g d (a / g.page_size) = 0xff ∧ marker g d ((a + g.page_size) / g.page_size) = 0xff := by
  unfold VeffBad marker
  dsimp only
  split
  · rename_i h
    exact iff_of_false (by decide) fun h' => h h'.1
  · rename_i h
    split
    · rename_i h'
      exact iff_of_false (by decide) fun h'' => h' h''.2
    · rename_i h'
      exact iff_of_true rfl ⟨not_not.mp h, not_not.mp h'⟩

/-- The marker byte carries no code, so it does not decay. -/
theorem Decayed.marker (h : Decayed g raw raw') :
    raw' (g.page_size + g.markp) = raw (g.page_size + g.markp) :=
  h.rest _ fun _ hi => (oobsel_ne_markp hi).symm

/-- **A page written and read back.** When, after `pagewrite`, the page differs
from what was sent by at most one bit in each step, `pageread` returns the data.
The page sent is the page on the chip when the page was erased, and it never
makes a block look bad. -/
theorem page_round_trip (g : FlashInfo) (d : NandDev) (addr : ℕ) (data : ℕ → UInt8) :
    ((∀ i, d.pages (addr / g.page_size) i = 0xff) →
      d.faults.prog_left (addr / g.page_size) = none →
      (pagewrite g d addr data).1.pages (addr / g.page_size) = pagewrite_raw g data) ∧
    pagewrite_raw g data (g.page_size + g.markp) = 0xff ∧
    (∀ a, VeffBad g d a = PASS → VeffBad g (pagewrite g d addr data).1 a = PASS) ∧
    ∀ raw', Decayed g (pagewrite_raw g data) raw' → ∀ d' : NandDev,
      d'.pages = Function.update (pagewrite g d addr data).1.pages (addr / g.page_size) raw' →
      (pageread g d' addr).1 = PASS ∧
      (∀ i, i < g.page_size → (pageread g d' addr).2 i = data i) ∧
      ∀ a, VeffBad g d a = PASS → VeffBad g d' a = PASS := by
  have hmark : pagewrite_raw g data (g.page_size + g.markp) = 0xff := by
    rw [pagewrite_raw, if_neg (by omega), Nat.add_sub_cancel_left,
      pagewrite_oob_markp data le_rfl]
  refine ⟨?_, hmark, ?_, ?_⟩
  · intro he hf
    rw [pagewrite_dev]
    exact program_erased hf he _
  · intro a ha
    obtain ⟨h₀, h₁⟩ := VeffBad_pass.mp ha
    rw [pagewrite_dev]
    exact VeffBad_pass.mpr ⟨program_marker _ data h₀, program_marker _ data h₁⟩
  · intro raw' h d' hd'
    have hpage : d'.pages (addr / g.page_size) = raw' := by rw [hd', Function.update_self]
    have hsize : 256 * (g.page_size / 256) = g.page_size := by
      have := g.geometry
      omega
    obtain ⟨hpass, hdata, -⟩ := pageread_ecc_decayed h _ le_rfl
    rw [pageread, hpage]
    refine ⟨hpass, ?_, ?_⟩
    · intro i hi
      exact hdata i (by omega)
    · intro a ha
      obtain ⟨h₀, h₁⟩ := VeffBad_pass.mp ha
      -- the marker is outside what the ECC covers, and is not among the flipped bits
      have hkeep : ∀ q, marker g d q = 0xff → marker g d' q = 0xff := by
        intro q hq
        unfold marker
        by_cases hqp : q = addr / g.page_size
        · rw [hqp, hpage, h.marker, hmark]
        · rw [hd', Function.update_of_ne hqp, pagewrite_dev]
          exact program_marker q data hq
      exact VeffBad_pass.mpr ⟨hkeep _ h₀, hkeep _ h₁⟩

/-- An erased chip with small pages. -/
def page_dev : NandDev :=
  ⟨fun _ _ => 0xff, ⟨fun _ => false, fun _ _ => 0, fun _ => false, fun _ => none⟩, []⟩

/-- A page of zeros is written, then bit 5 of its byte 3 flips. -/
def page_decayed : NandDev :=
  { (pagewrite zeros_g page_dev 0x400 fun _ => 0).1 with
    pages := Function.update (pagewrite zeros_g page_dev 0x400 fun _ => 0).1.pages
      (0x400 / zeros_g.page_size)
      (Function.update (pagewrite_raw zeros_g fun _ => 0) 3 (0 ^^^ bit 5)) }

theorem page_round_trip_zeros : (pageread zeros_g page_decayed 0x400).1 = PASS ∧
    ∀ i, i < zeros_g.page_size → (pageread zeros_g page_decayed 0x400).2 i = 0 := by
  have hsize : zeros_g.page_size = 512 := rfl
  have hdec : Decayed zeros_g (pagewrite_raw zeros_g fun _ => 0)
      (Function.update (pagewrite_raw zeros_g fun _ => 0) 3 (0 ^^^ bit 5)) := by
    refine ⟨?_, fun j _ => Function.update_of_ne (by omega) _ _⟩
    intro n hn
    rcases Nat.eq_zero_or_pos n with rfl | hpos
    · -- the step with the error
      refine ⟨some (.data 3 5), ?_, rfl⟩
      intro i _
      unfold flip_one ErrPos.flip flip_data ecc_step
      simp only [Nat.mul_zero, Nat.zero_add]
      rfl
    · refine ⟨none, ?_, ?_⟩
      · intro i _
        exact Function.update_of_ne (by omega) _ _
      · unfold flip_one ecc_step
        simp only [Option.elim_none]
        rw [Function.update_of_ne (by omega), Function.update_of_ne (by omega),
          Function.update_of_ne (by omega)]
  obtain ⟨hpass, hdata, -⟩ :=
    (page_round_trip zeros_g page_dev 0x400 fun _ => 0).2.2.2 _ hdec page_decayed rfl
  exact ⟨hpass, hdata⟩

end CsBoot.Nand
