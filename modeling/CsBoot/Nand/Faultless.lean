/-
A chip that does not fail.

Such a chip may have blocks marked bad, and that is all: every other block takes
its chunk, and afterwards the bytes are in the pages as they were given, which
is what a reader without ECC sees.
-/
import CsBoot.Nand.Program
import CsBoot.Nand.ReadBuf

set_option autoImplicit false

namespace CsBoot.Nand

open Status FlashErr SkipBlocks

/-- No erase and no write fails. -/
structure Faultless (d : NandDev) : Prop where
  erase_fails : ∀ b, d.faults.erase_fails b = false
  prog_fails : ∀ p, d.faults.prog_fails p = false
  prog_left : ∀ p, d.faults.prog_left p = none

variable {g : FlashInfo} {d : NandDev} {p b len N n : ℕ} {data : ℕ → UInt8}

/-- An erased page holds what is written, if the write does not go wrong. -/
theorem program_erased (hf : d.faults.prog_left p = none) (he : ∀ i, d.pages p i = 0xff)
    (raw : RawPage) : (d.program g p raw).pages p = raw := by
  funext i
  unfold NandDev.program
  dsimp only
  have hones : ∀ x : UInt8, 0xff &&& x = x := fun x => by
    rw [show (0xff : UInt8) = -1 by rfl, UInt8.neg_one_and]
  rw [Function.update_self, hf, Option.getD_none, he, hones, ite_self]

theorem Faultless.program (hf : Faultless d) (he : ∀ i, d.pages p i = 0xff) (raw : RawPage) :
    (d.program g p raw).pages p = raw :=
  program_erased (hf.prog_left p) he raw

theorem Faultless.pagewrite (hf : Faultless d) (he : ∀ i, d.pages p i = 0xff) (data : ℕ → UInt8) :
    (pagewrite g d (p * g.page_size) data).2 = PASS := by
  have hp : p * g.page_size / g.page_size = p := Nat.mul_div_cancel _ g.page_pos
  have hpage := hf.program (g := g) he (pagewrite_raw g data)
  have hread := pageread_error_free (g := g) (d := d.program g p (pagewrite_raw g data))
    (a := p * g.page_size) (by rw [hp]; exact error_free_of_pagewrite hpage)
  rw [hp, hpage] at hread
  rw [CsBoot.Nand.pagewrite, hp, hf.prog_fails, hread]
  dsimp only
  rw [if_neg Bool.false_ne_true, if_pos fun i hi => by rw [pagewrite_raw, if_pos hi]]

/-- `flash_program_buf` on erased pages of block `b`. -/
theorem Faultless.flash_program_buf (n : ℕ) : ∀ (d : NandDev) (p : ℕ) (data : ℕ → UInt8) (len : ℕ),
    len ≤ n * g.page_size → (∀ q, p ≤ q → q < p + n → q / g.ppb = b) → Faultless d →
    (∀ q, p ≤ q → q < p + n → ∀ i, d.pages q i = 0xff) →
    (flash_program_buf g d (p * g.page_size) data len).2 = FLASH_ERR_OK ∧ ∀ i, i < len →
      data_byte g (flash_program_buf g d (p * g.page_size) data len).1 (p * g.page_size + i) =
        data i := by
  induction n with
  | zero =>
      intro d p data len hlen _ _ _
      obtain rfl : len = 0 := by omega
      rw [flash_program_buf_zero]
      exact ⟨rfl, fun i hi => absurd hi (Nat.not_lt_zero i)⟩
  | succ n ih =>
      intro d p data len hlen hblk hf he
      by_cases h0 : len = 0
      · subst h0
        rw [flash_program_buf_zero]
        exact ⟨rfl, fun i hi => absurd hi (Nat.not_lt_zero i)⟩
      have hp := he p le_rfl (by omega)
      rw [flash_program_buf_succ d p data h0, hf.pagewrite hp, if_neg (not_not.mpr rfl)]
      have hpage := hf.program (g := g) hp (pagewrite_raw g (program_page g data len))
      generalize hd₁ : d.program g p (pagewrite_raw g (program_page g data len)) = d₁ at hpage ⊢
      have hkeep : ∀ q, p + 1 ≤ q → d₁.pages q = d.pages q := by
        intro q hq
        rw [← hd₁]
        exact Function.update_of_ne (by omega) _ _
      have hf₁ : Faultless d₁ := by
        rw [← hd₁]
        exact ⟨hf.erase_fails, hf.prog_fails, hf.prog_left⟩
      have hlen' : len - g.page_size ≤ n * g.page_size := by
        rw [Nat.succ_mul] at hlen
        omega
      have hblk' : ∀ q, p + 1 ≤ q → q < p + 1 + n → q / g.ppb = b := fun q hq hq' =>
        hblk q (by omega) (by omega)
      obtain ⟨ih₁, ih₂⟩ := ih d₁ (p + 1) (fun i => data (g.page_size + i)) (len - g.page_size)
        hlen' hblk' hf₁ fun q hq hq' => by
          rw [hkeep q hq]
          exact he q (by omega) (by omega)
      refine ⟨ih₁, ?_⟩
      intro i hi
      by_cases hip : i < g.page_size
      · -- a byte of this page, which the later passes leave alone
        obtain ⟨-, hlow, -⟩ := flash_program_buf_spec n d₁ (p + 1)
          (fun i => data (g.page_size + i)) (len - g.page_size) hlen' hblk'
        rw [data_byte, page_add_div p hip, Nat.mul_add_mod_of_lt hip, hlow p (Nat.lt_succ_self p),
          hpage, pagewrite_raw, if_pos hip, program_page]
        split
        · exact if_pos hi
        · rfl
      · have hbyte := ih₂ (i - g.page_size) (by omega)
        rwa [Nat.add_sub_cancel' (by omega),
          show (p + 1) * g.page_size + (i - g.page_size) = p * g.page_size + i by
            rw [Nat.succ_mul]; omega] at hbyte

/-- A block that is tried takes its chunk. -/
theorem Faultless.try_block (hf : Faultless d) (b : ℕ) (data : ℕ → UInt8) {size : ℕ}
    (hsize : size ≤ g.block_size) :
    block_takes g d b data size = true ∧ ∀ i, i < size →
      data_byte g (try_block g d b data size).1 (b * g.block_size + i) = data i := by
  have hfe := hf.erase_fails b
  obtain ⟨hok, hbytes⟩ := Faultless.flash_program_buf (g := g) (b := b) g.ppb (d.erase g b)
    (b * g.ppb) data size (g.block_eq ▸ hsize) (fun q => pages_of_block)
    ⟨hf.erase_fails, hf.prog_fails, hf.prog_left⟩ fun q hq hq' i => by
      rw [NandDev.erase]
      dsimp only
      rw [if_pos (pages_of_block hq hq'), hfe, if_neg Bool.false_ne_true]
  rw [block_takes, try_block_of_erased hfe]
  dsimp only
  rw [if_neg (not_not.mpr hok)]
  refine ⟨decide_eq_true hok, ?_⟩
  rwa [g.block_eq, ← Nat.mul_assoc]

/-- What is stored in the first `n` blocks is what the good ones hold. -/
theorem Faultless.stored (hf : Faultless d) (b : ℕ) (data : ℕ → UInt8) (len n : ℕ) :
    stored g d b data len n = min len (good_data g d b n).length := by
  induction n with
  | zero => exact (Nat.min_zero len).symm
  | succ n ih =>
      have htakes : takes g d b data len n (CsBoot.Nand.stored g d b data len n) = true :=
        (hf.try_block (b + n) _ (min_le_left _ _)).1
      rw [good_data, goodBytes, ← good_data, List.length_append]
      cases hb : marked g d b n with
      | true =>
          have hb' : blk_bad g d (b + n) = true := hb
          rw [hb', if_pos rfl, List.length_nil]
          exact (placed_succ_of_bad hb).trans ih
      | false =>
          have hb' : blk_bad g d (b + n) = false := hb
          have hsucc : CsBoot.Nand.stored g d b data len (n + 1) =
              CsBoot.Nand.stored g d b data len n +
                min g.block_size (len - CsBoot.Nand.stored g d b data len n) :=
            placed_succ_of_accept hb htakes
          rw [hb', if_neg Bool.false_ne_true, block_data, length_firstBytes, hsucc, ih]
          omega

/-- **A call on a chip that does not fail**, with room for the data: it succeeds,
leaves the marked blocks alone and fills the others one after the other. -/
theorem Faultless.flash_nand_program (hf : Faultless d) (hinit : g.init = true)
    (data : ℕ → UInt8) (hfit : len ≤ (good_data g d b N).length) :
    ∃ r, (∀ r', ProgramReturns g d (b * g.block_size) data len (N * g.block_size) r' ↔ r' = r) ∧
      r.stat = FLASH_ERR_OK ∧
      (∀ k, marked g d b k = true → ∀ q, q / g.ppb = b + k → r.dev.pages q = d.pages q) ∧
      ∀ k, marked g d b k = false →
        let off := CsBoot.Nand.stored g d b data len k
        ∀ i, i < min g.block_size (len - off) →
          data_byte g r.dev ((b + k) * g.block_size + i) = data (off + i) := by
  have hN : CsBoot.Nand.stored g d b data len N = len := by
    rw [hf.stored]
    exact min_eq_left hfit
  -- the loop leaves, since all of the data is placed in front of block `N`
  rcases flash_nand_program_outcome hinit d b data len N with
    ⟨e, s, r, hfirst, hleave, hinv, hdev, hstat, hret, -⟩ | ⟨hnever, -⟩
  · have hfull : CsBoot.Nand.stored g d b data len e = len := by
      rcases hleave with h | ⟨-, hNe⟩
      · exact h
      · exact placed_eq_len hN hNe
    refine ⟨r, hret, ?_, ?_, ?_⟩
    · rw [hstat, hinv.stat_eq]
      exact tried_ok_of_stored hfirst hfull
    · intro k hk q hq
      rw [hdev]
      by_cases hke : k < e
      · rw [hinv.behind k hke q hq, outcome, if_pos (.inl hk)]
      · apply hinv.ahead.pages_eq q
        rw [← Nat.le_div_iff_mul_le (by have := g.two_le_ppb; omega), hq]
        omega
    · intro k hk off i hi
      have hlt : CsBoot.Nand.stored g d b data len k < len := by omega
      have hke : k < e := by
        by_contra hke
        exact hlt.ne (placed_eq_len hfull (not_lt.mp hke))
      have hi' : i < g.block_size := by omega
      rw [hdev, data_byte, hinv.tried hke hk hlt _ (block_of_addr hi'), ← data_byte]
      exact (hf.try_block (b + k) _ (min_le_left _ _)).2 i hi
  · exact absurd (.inl hN) (hnever N)

end CsBoot.Nand
