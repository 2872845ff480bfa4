/-
`flash_read_buf` of `src/src/bsp/flash/flash_nand.c`.

The function reads page by page and passes over the blocks marked bad. The label
`NEXT_BLOCK` stands at the top of the body, and `len` is not touched on the way
to it, so that jumping there is another pass of the loop.

At the end of a pass `len` is reduced first, and `addr` and `pbuff` then move by
a size computed from the new `len`. As long as a whole page is left to read this
is the same; a shorter rest is where it shows.
-/
import CsBoot.Lib.Loop
import CsBoot.Lib.SkipBlocks
import CsBoot.Nand.DeviceSpec

set_option autoImplicit false

namespace CsBoot.Nand

open Status FlashErr SkipBlocks

/-! ## The function -/

/-- `memcpy`: `n` bytes of `src` to the offset `off` of `buf`. -/
def memcpy (buf : ℕ → UInt8) (off : ℕ) (src : ℕ → UInt8) (n : ℕ) : ℕ → UInt8 := fun i =>
  if off ≤ i ∧ i < off + n then src (i - off) else buf i

/-- The variables of `flash_read_buf`. `pbuff` moves along the buffer as `off`;
`checks` counts the calls of `StatusCheck`. -/
structure ReadState where
  addr : ℕ
  len : ℕ
  off : ℕ
  buf : ℕ → UInt8
  res : FlashErr
  checks : ℕ

/-- `(len > page_size) ? page_size : len` -/
def read_size (g : FlashInfo) (len : ℕ) : ℕ := if g.page_size < len then g.page_size else len

/-- One pass of the loop. `StatusCheck k` is what the `k`-th call returns; after
a bad one the page is tried again. -/
def flash_read_buf_pass (g : FlashInfo) (d : NandDev) (StatusCheck : ℕ → Status)
    (s : ReadState) : ReadState ⊕ ReadState :=
  if s.len = 0 then .inr s
  else if s.addr &&& (g.block_size - 1) = 0 ∧ VeffBad g d s.addr = FAIL then
    .inl { s with addr := s.addr + g.block_size }
  else if StatusCheck s.checks = FAIL then .inl { s with checks := s.checks + 1 }
  else
    let r := pageread g d s.addr
    if r.1 ≠ PASS then .inr { s with res := FLASH_ERR_HWR, checks := s.checks + 1 }
    else
      let buf := memcpy s.buf s.off r.2 (read_size g s.len)
      let len := s.len - read_size g s.len
      .inl { s with
        buf := buf
        len := len
        addr := s.addr + read_size g len
        off := s.off + read_size g len
        checks := s.checks + 1 }

/-- The state in which the loop is entered. -/
def flash_read_buf_start (addr : ℕ) (buf : ℕ → UInt8) (len : ℕ) : ReadState :=
  { addr := addr, len := len, off := 0, buf := buf, res := FLASH_ERR_OK, checks := 0 }

/-- `flash_read_buf` returns, with the state `r`. -/
def FlashReadBuf (g : FlashInfo) (d : NandDev) (StatusCheck : ℕ → Status) (addr : ℕ)
    (buf : ℕ → UInt8) (len : ℕ) (r : ReadState) : Prop :=
  Loop.Returns (flash_read_buf_pass g d StatusCheck) (flash_read_buf_start addr buf len) r

/-! ## Pages without errors -/

/-- The codes stored with page `p` are those of its data. -/
def error_free (g : FlashInfo) (d : NandDev) (p : ℕ) : Prop :=
  ∀ n, n < g.page_size / 256 →
    let oob := fun j => d.pages p (g.page_size + j)
    let sel := g.oobsel (3 * n)
    EccCode.mk (oob sel) (oob (sel + 1)) (oob (sel + 2)) =
      nand_page_ECC fun i => d.pages p (256 * n + i)

variable {g : FlashInfo} {d : NandDev} {StatusCheck : ℕ → Status} {s : ReadState} {p b n : ℕ}

/-- Data that agrees with its code is left alone. -/
theorem nand_correct_data_self (dat : ℕ → UInt8) (e : EccCode) :
    nand_correct_data dat e e = (0, dat, e) := by
  rw [nand_correct_data, if_pos (by simp)]

theorem pageread_ecc_error_free (h : error_free g d p) (hn : n ≤ g.page_size / 256) :
    pageread_ecc g (d.pages p) n = (PASS, d.pages p) := by
  induction n with
  | zero => rfl
  | succ n ih =>
      have hcode := h n hn
      dsimp only at hcode
      rw [pageread_ecc, ih (by omega)]
      dsimp only
      rw [if_neg (by decide), hcode, nand_correct_data_self]
      dsimp only
      rw [if_neg (by decide)]
      congr 1
      funext i
      split
      · rfl
      · rw [Nat.add_sub_cancel' (by omega)]

/-- Such a page is read as it is, from any address in it. -/
theorem pageread_error_free {a : ℕ} (h : error_free g d (a / g.page_size)) :
    pageread g d a = (PASS, d.pages (a / g.page_size)) :=
  pageread_ecc_error_free h le_rfl

/-! ## Pages as written -/

/-- Where the code bytes are: three in a row, and no two at one place. -/
theorem oobsel_spec {i j : ℕ} (hi : i < 3 * (g.page_size / 256))
    (hj : j < 3 * (g.page_size / 256)) :
    (g.oobsel i = g.oobsel j → i = j) ∧ g.oobsel i = g.oobsel (3 * (i / 3)) + i % 3 := by
  have h512 : ∀ i, i < 6 → ∀ j, j < 6 →
      ([8, 9, 10, 13, 14, 15].getD i 0 = [8, 9, 10, 13, 14, 15].getD j 0 → i = j) ∧
      [8, 9, 10, 13, 14, 15].getD i 0 = [8, 9, 10, 13, 14, 15].getD (3 * (i / 3)) 0 + i % 3 := by
    decide
  have h2k : ∀ i, i < 24 → [40, 41, 42, 43, 44, 45, 46, 47, 48, 49, 50, 51,
      52, 53, 54, 55, 56, 57, 58, 59, 60, 61, 62, 63].getD i 0 = 40 + i := by decide
  have hpage : g.page_size = 0x200 ∨ g.page_size = 0x800 := by
    have h := g.geometry
    omega
  unfold FlashInfo.oobsel FlashInfo.oobsize
  rcases hpage with h | h
  · rw [h] at hi hj ⊢
    exact h512 i hi j hj
  · rw [h] at hi hj ⊢
    simp only [show PAGE512_OOB_SIZE < PAGE512_OOB_SIZE * 0x800 / PAGE512_SIZE by decide, if_true]
    rw [h2k i hi, h2k j hj, h2k (3 * (i / 3)) (by omega)]
    omega

theorem oobsel_ne {i j : ℕ} (hi : i < 3 * (g.page_size / 256)) (hj : j < 3 * (g.page_size / 256))
    (hij : i ≠ j) : g.oobsel i ≠ g.oobsel j := mt (oobsel_spec hi hj).1 hij

/-- The codes of the pieces before are kept. -/
theorem pagewrite_oob_keep (data : ℕ → UInt8) {m i : ℕ} (hm : m < g.page_size / 256)
    (hi : i < 3 * m) :
    pagewrite_oob g data (m + 1) (g.oobsel i) = pagewrite_oob g data m (g.oobsel i) := by
  rw [pagewrite_oob, Function.update_of_ne (oobsel_ne (by omega) (by omega) (by omega)),
    Function.update_of_ne (oobsel_ne (by omega) (by omega) (by omega)),
    Function.update_of_ne (oobsel_ne (by omega) (by omega) (by omega))]

/-- The code of piece `n` in the OOB that `pagewrite` prepares. -/
theorem pagewrite_oob_code (data : ℕ → UInt8) {n m : ℕ} (hn : n < m)
    (hm : m ≤ g.page_size / 256) :
    let oob := pagewrite_oob g data m
    let sel := g.oobsel (3 * n)
    EccCode.mk (oob sel) (oob (sel + 1)) (oob (sel + 2)) =
      nand_page_ECC fun i => data (256 * n + i) := by
  have hsel : ∀ j, j < 3 → g.oobsel (3 * n) + j = g.oobsel (3 * n + j) := by
    intro j hj
    rw [(oobsel_spec (i := 3 * n + j) (j := 0) (by omega) (by omega)).2]
    congr 3 <;> omega
  dsimp only
  rw [hsel 1 (by decide), hsel 2 (by decide)]
  clear hsel
  induction m with
  | zero => omega
  | succ m ih =>
      rcases Nat.lt_succ_iff_lt_or_eq.mp hn with hlt | rfl
      · rw [pagewrite_oob_keep data hm (by omega), pagewrite_oob_keep data hm (by omega),
          pagewrite_oob_keep data hm (by omega)]
        exact ih hlt (by omega)
      · rw [pagewrite_oob]
        generalize (nand_page_ECC fun i => data (256 * n + i)) = e
        have h0 : g.oobsel (3 * n) ≠ g.oobsel (3 * n + 1) :=
          oobsel_ne (by omega) (by omega) (by omega)
        have h1 : g.oobsel (3 * n) ≠ g.oobsel (3 * n + 2) :=
          oobsel_ne (by omega) (by omega) (by omega)
        have h2 : g.oobsel (3 * n + 1) ≠ g.oobsel (3 * n + 2) :=
          oobsel_ne (by omega) (by omega) (by omega)
        rw [Function.update_of_ne h1, Function.update_of_ne h0, Function.update_self,
          Function.update_of_ne h2, Function.update_self, Function.update_self]

theorem nand_page_ECC_congr {f h : ℕ → UInt8} (hfh : ∀ i, i < 256 → f i = h i) :
    nand_page_ECC f = nand_page_ECC h := by
  have hregs : ∀ n, n ≤ 256 → nand_page_regs f n = nand_page_regs h n := by
    intro n hn
    induction n with
    | zero => rfl
    | succ n ih => rw [nand_page_regs, nand_page_regs, ih (by omega), hfh n hn]
  rw [nand_page_ECC, nand_page_ECC, hregs 256 le_rfl]

/-- A page as `pagewrite` sends it is free of errors. -/
theorem error_free_of_pagewrite {data : ℕ → UInt8} (h : d.pages p = pagewrite_raw g data) :
    error_free g d p := by
  intro n hn
  have hcode := pagewrite_oob_code (g := g) data hn le_rfl
  have hoob : ∀ j, pagewrite_raw g data (g.page_size + j) =
      pagewrite_oob g data (g.page_size / 256) j := by
    intro j
    rw [pagewrite_raw, if_neg (by omega), Nat.add_sub_cancel_left]
  dsimp only at hcode ⊢
  rw [h, hoob, hoob, hoob, hcode]
  apply nand_page_ECC_congr
  intro i hi
  rw [pagewrite_raw, if_pos (by omega)]

/-! ## The bytes of the good blocks -/

/-- The data byte at an address, as it is stored. -/
def data_byte (g : FlashInfo) (d : NandDev) (a : ℕ) : UInt8 :=
  d.pages (a / g.page_size) (a % g.page_size)

/-- The data of block `b`. -/
def block_data (g : FlashInfo) (d : NandDev) (b : ℕ) : List UInt8 :=
  firstBytes (fun i => data_byte g d (b * g.block_size + i)) g.block_size

/-- The data of the blocks from `b` on that are not marked bad, in order, among
`N`. -/
def good_data (g : FlashInfo) (d : NandDev) (b N : ℕ) : List UInt8 :=
  goodBytes (fun k => blk_bad g d (b + k)) (fun k => block_data g d (b + k)) N

/-- The same for the `n` pages from `p` on. -/
def good_pages (g : FlashInfo) (d : NandDev) (p n : ℕ) : List UInt8 :=
  goodBytes (fun k => blk_bad g d ((p + k) / g.ppb))
    (fun k => firstBytes (d.pages (p + k)) g.page_size) n

theorem good_pages_add (p m n : ℕ) :
    good_pages g d p (m + n) = good_pages g d p m ++ good_pages g d (p + m) n := by
  unfold good_pages
  rw [goodBytes_add]
  simp only [Nat.add_assoc]

theorem good_pages_succ (hp : blk_bad g d (p / g.ppb) = false) (n : ℕ) :
    good_pages g d p (n + 1) =
      firstBytes (d.pages p) g.page_size ++ good_pages g d (p + 1) n := by
  rw [Nat.add_comm, good_pages_add]
  congr 1
  simp [good_pages, goodBytes, hp]

/-- The pages of one block. -/
theorem good_pages_block (b : ℕ) {n : ℕ} (hn : n ≤ g.ppb) :
    good_pages g d (b * g.ppb) n =
      if blk_bad g d b then []
      else firstBytes (fun i => data_byte g d (b * g.block_size + i)) (n * g.page_size) := by
  induction n with
  | zero => simp [good_pages, goodBytes, firstBytes]
  | succ n ih =>
      rw [good_pages_add, ih (by omega)]
      simp only [good_pages, goodBytes, Nat.add_zero, List.nil_append, block_of_page hn]
      cases blk_bad g d b with
      | true => rfl
      | false =>
          rw [if_neg Bool.false_ne_true, if_neg Bool.false_ne_true, if_neg Bool.false_ne_true,
            Nat.succ_mul, firstBytes_add]
          congr 1
          apply firstBytes_congr
          intro i hi
          have haddr : b * g.block_size + (n * g.page_size + i) =
              (b * g.ppb + n) * g.page_size + i := by
            rw [g.block_eq, Nat.add_mul, Nat.mul_assoc, Nat.add_assoc]
          rw [data_byte, haddr, page_add_div _ hi, Nat.mul_add_mod_of_lt hi]

theorem good_data_eq_pages (b N : ℕ) :
    good_data g d b N = good_pages g d (b * g.ppb) (N * g.ppb) := by
  induction N with
  | zero => simp [good_data, good_pages, goodBytes]
  | succ N ih =>
      rw [Nat.succ_mul, good_pages_add, ← ih, ← Nat.add_mul, good_pages_block _ le_rfl, good_data,
        goodBytes]
      rw [block_data, g.block_eq]
      rfl

/-! ## Single passes -/

/-- A pass over a block marked bad. -/
theorem read_pass_skip (hlen : s.len ≠ 0) (haddr : s.addr = b * g.block_size)
    (hbad : blk_bad g d b = true) :
    flash_read_buf_pass g d StatusCheck s = .inl { s with addr := s.addr + g.block_size } := by
  have htest : s.addr &&& (g.block_size - 1) = 0 ∧ VeffBad g d s.addr = FAIL := by
    rw [haddr, g.block_mask, Nat.mul_mod_left]
    rw [blk_bad, decide_eq_true_eq] at hbad
    exact ⟨rfl, hbad⟩
  rw [flash_read_buf_pass, if_neg hlen, if_pos htest]

/-- A pass that reads a page. -/
theorem read_pass_page (hready : ∀ k, StatusCheck k = PASS) (hlen : s.len ≠ 0)
    (hpage : s.addr / g.page_size = p)
    (hgood : s.addr % g.block_size = 0 → VeffBad g d s.addr = PASS) (hfree : error_free g d p) :
    flash_read_buf_pass g d StatusCheck s =
      let len := s.len - read_size g s.len
      .inl { s with
        buf := memcpy s.buf s.off (d.pages p) (read_size g s.len)
        len := len
        addr := s.addr + read_size g len
        off := s.off + read_size g len
        checks := s.checks + 1 } := by
  have htest : ¬ (s.addr &&& (g.block_size - 1) = 0 ∧ VeffBad g d s.addr = FAIL) := by
    rw [g.block_mask]
    rintro ⟨h₁, h₂⟩
    rw [hgood h₁] at h₂
    cases h₂
  subst hpage
  rw [flash_read_buf_pass, if_neg hlen, if_neg htest, if_neg (by rw [hready]; decide),
    pageread_error_free hfree]
  rfl

/-- On a page of a good block the test does not fire. -/
theorem read_test {a : ℕ} (haddr : a = p * g.page_size) (hb : blk_bad g d (p / g.ppb) = false) :
    a % g.block_size = 0 → VeffBad g d a = PASS := by
  intro hmod
  obtain ⟨c, rfl⟩ := Nat.dvd_of_mod_eq_zero hmod
  have hc : p = c * g.ppb := by
    have h := page_of_block (g := g) c
    rwa [Nat.mul_comm c, haddr, Nat.mul_div_cancel _ g.page_pos] at h
  have hppb : 0 < g.ppb := by have := g.two_le_ppb; omega
  rw [hc, Nat.mul_div_cancel _ hppb, blk_bad, decide_eq_false_iff_not, Nat.mul_comm] at hb
  cases hv : VeffBad g d (g.block_size * c) with
  | PASS => rfl
  | FAIL => exact absurd hv hb

/-! ## The run over whole pages -/

/-- Where the read of `L` bytes stands when the `n` pages from `p` on are ahead.
`l` are the bytes to be read, `buf` is the buffer before the call. -/
structure ReadInv (g : FlashInfo) (d : NandDev) (l : List UInt8) (buf : ℕ → UInt8) (L p n : ℕ)
    (s : ReadState) : Prop where
  addr_eq : s.addr = p * g.page_size
  len_eq : s.off + s.len = L
  ahead : l.drop s.off = good_pages g d p n
  copied : firstBytes s.buf s.off <+: l
  beyond : ∀ i, s.off ≤ i → s.buf i = buf i
  res_eq : s.res = FLASH_ERR_OK
  /-- The pages ahead end with a block. -/
  whole : g.ppb ∣ p + n
  inside : p % g.ppb ≠ 0 → blk_bad g d (p / g.ppb) = false
  free : ∀ k, k < n → blk_bad g d ((p + k) / g.ppb) = false → error_free g d (p + k)
  /-- Only whole pages have been read, and a whole one is left. -/
  pages : g.page_size ∣ s.off
  rest : s.off = 0 ∨ g.page_size ≤ s.len

section Tail

variable {l : List UInt8} {buf : ℕ → UInt8} {L : ℕ}

/-- **A bad block** is passed over, and the pages ahead are those behind it. -/
theorem ReadInv.skip (StatusCheck : ℕ → Status) (h : ReadInv g d l buf L p (n + 1) s)
    (hlen : s.len ≠ 0)
    (hb : blk_bad g d (p / g.ppb) = true) :
    ∃ k s', k ≤ n ∧ flash_read_buf_pass g d StatusCheck s = .inl s' ∧
      ReadInv g d l buf L (p + g.ppb) k s' := by
  have hppb : 0 < g.ppb := by have := g.two_le_ppb; omega
  -- a bad block is only met at its first page: inside a block it was good
  have hmod : p % g.ppb = 0 := by
    by_contra hmod
    simp [h.inside hmod] at hb
  obtain ⟨c, rfl⟩ := Nat.dvd_of_mod_eq_zero hmod
  rw [Nat.mul_div_cancel_left _ hppb] at hb
  have hdvd : g.ppb ∣ n + 1 := (Nat.dvd_add_right (Nat.dvd_mul_right g.ppb c)).mp h.whole
  obtain ⟨k, hk⟩ : ∃ k, n + 1 = g.ppb + k :=
    Nat.exists_eq_add_of_le (Nat.le_of_dvd (Nat.succ_pos n) hdvd)
  have haddr : s.addr = c * g.block_size := by
    rw [h.addr_eq, g.block_eq, Nat.mul_comm g.ppb, Nat.mul_assoc]
  refine ⟨k, _, by omega, read_pass_skip hlen haddr hb, ?_⟩
  refine ⟨?_, h.len_eq, ?_, h.copied, h.beyond, h.res_eq, ?_, ?_,
    ?_, h.pages, h.rest⟩
  · dsimp only
    rw [h.addr_eq, g.block_eq, Nat.add_mul]
  · dsimp only
    rw [h.ahead, hk, good_pages_add, Nat.mul_comm, good_pages_block c le_rfl, if_pos hb,
      List.nil_append]
  · rw [Nat.add_assoc, ← hk]
    exact h.whole
  · intro hne
    exact absurd (by simp) hne
  · intro j hj hgood
    have := h.free (g.ppb + j) (by omega)
    rw [← Nat.add_assoc] at this
    exact this hgood

/-- What the buffer holds in front of a copy and in it. -/
theorem firstBytes_memcpy (buf : ℕ → UInt8) (off : ℕ) (src : ℕ → UInt8) (n : ℕ) :
    firstBytes (memcpy buf off src n) (off + n) = firstBytes buf off ++ firstBytes src n := by
  rw [firstBytes_add]
  congr 1
  · exact firstBytes_congr fun i hi => if_neg (by omega)
  · apply firstBytes_congr
    intro i hi
    rw [memcpy, if_pos (by omega), Nat.add_sub_cancel_left]

theorem memcpy_of_ge {off : ℕ} {src : ℕ → UInt8} {i : ℕ} (hi : off + n ≤ i) :
    memcpy buf off src n i = buf i := if_neg (by omega)

/-- The bytes copied by a read of `n` bytes from page `p`. -/
theorem ReadInv.copied_page (h : ReadInv g d l buf L p (n + 1) s)
    (hb : blk_bad g d (p / g.ppb) = false) {k : ℕ} (hk : k ≤ g.page_size) :
    firstBytes (memcpy s.buf s.off (d.pages p) k) (s.off + k) <+: l := by
  obtain ⟨t, ht⟩ := h.copied
  have hahead := h.ahead
  rw [← ht, List.drop_left' (length_firstBytes _ _), good_pages_succ hb] at hahead
  rw [firstBytes_memcpy, ← ht, hahead, List.prefix_append_right_inj]
  exact (firstBytes_initial hk fun _ _ => rfl).trans (List.prefix_append _ _)

/-- **A good page** is read, and the next one is ahead, when a whole page is left
behind it. -/
theorem ReadInv.page (hready : ∀ k, StatusCheck k = PASS) (h : ReadInv g d l buf L p (n + 1) s)
    (hlen : 2 * g.page_size ≤ s.len) (hb : blk_bad g d (p / g.ppb) = false) :
    ∃ s', flash_read_buf_pass g d StatusCheck s = .inl s' ∧
      ReadInv g d l buf L (p + 1) n s' := by
  have hps := g.page_pos
  have hpage : s.addr / g.page_size = p := by rw [h.addr_eq, Nat.mul_div_cancel _ hps]
  have hstep := read_pass_page hready (by omega) hpage
    (read_test h.addr_eq hb) (h.free 0 (Nat.succ_pos n) hb)
  have hsize : read_size g s.len = g.page_size := if_pos (by omega)
  have hsize' : read_size g (s.len - g.page_size) = g.page_size := by
    unfold read_size
    split <;> omega
  dsimp only at hstep
  rw [hsize, hsize'] at hstep
  obtain ⟨t, ht⟩ := h.pages
  refine ⟨_, hstep, ?_, ?_, ?_, h.copied_page hb le_rfl, ?_, h.res_eq, ?_,
    ?_, ?_, ?_, .inr ?_⟩
  · dsimp only
    rw [h.addr_eq, Nat.succ_mul]
  · have := h.len_eq
    dsimp only
    omega
  · dsimp only
    rw [← List.drop_drop, h.ahead, good_pages_succ hb, List.drop_left' (length_firstBytes _ _)]
  · intro i hi
    dsimp only at hi ⊢
    rw [memcpy_of_ge hi]
    exact h.beyond i (by omega)
  · rw [Nat.add_assoc, Nat.add_comm 1]
    exact h.whole
  · intro hne
    -- still in the block
    rwa [Nat.succ_div_of_not_dvd (fun hd => hne (Nat.mod_eq_zero_of_dvd hd))]
  · intro k hk hgood
    have := h.free (k + 1) (by omega)
    rw [Nat.add_comm k, ← Nat.add_assoc] at this
    exact this hgood
  · exact ⟨t + 1, by dsimp only; rw [ht, Nat.mul_succ]⟩
  · dsimp only
    omega

/-- **The run over whole pages.** The loop comes to a good page with less than
two pages to read. -/
theorem ReadInv.tail (hready : ∀ k, StatusCheck k = PASS) (hL : L ≤ l.length) (n : ℕ) :
    ∀ p s, ReadInv g d l buf L p n s → ∃ p' n' s',
      (∀ r, Loop.Returns (flash_read_buf_pass g d StatusCheck) s r ↔
        Loop.Returns (flash_read_buf_pass g d StatusCheck) s' r) ∧
      ReadInv g d l buf L p' n' s' ∧ s'.len < 2 * g.page_size ∧
      (s'.len ≠ 0 → n' ≠ 0 ∧ blk_bad g d (p' / g.ppb) = false) := by
  induction n using Nat.strong_induction_on with
  | _ n ih =>
      intro p s h
      by_cases hlen : s.len = 0
      · have := g.page_pos
        exact ⟨p, n, s, fun _ => Iff.rfl, h, by omega, fun h => absurd hlen h⟩
      have hn : n ≠ 0 := by
        -- there are bytes ahead
        rintro rfl
        have hnil : l.drop s.off = [] := h.ahead
        have := h.len_eq
        exact absurd (List.drop_eq_nil_iff.mp hnil) (by omega)
      obtain ⟨m, rfl⟩ := Nat.exists_eq_succ_of_ne_zero hn
      -- one pass, and then the rest of the run
      have hnext : ∀ q k s₁, k ≤ m → flash_read_buf_pass g d StatusCheck s = .inl s₁ →
          ReadInv g d l buf L q k s₁ → ∃ p' n' s',
          (∀ r, Loop.Returns (flash_read_buf_pass g d StatusCheck) s r ↔
            Loop.Returns (flash_read_buf_pass g d StatusCheck) s' r) ∧
          ReadInv g d l buf L p' n' s' ∧ s'.len < 2 * g.page_size ∧
          (s'.len ≠ 0 → n' ≠ 0 ∧ blk_bad g d (p' / g.ppb) = false) := by
        intro q k s₁ hk hpass h₁
        obtain ⟨p', n', s', hret, h'⟩ := ih k (Nat.lt_succ_of_le hk) q s₁ h₁
        exact ⟨p', n', s', fun r => (Loop.returns_again hpass).trans (hret r), h'⟩
      cases hb : blk_bad g d (p / g.ppb) with
      | true =>
          obtain ⟨k, s₁, hk, hpass, h₁⟩ := h.skip StatusCheck hlen hb
          exact hnext _ k s₁ hk hpass h₁
      | false =>
          by_cases hlast : s.len < 2 * g.page_size
          · exact ⟨p, m + 1, s, fun _ => Iff.rfl, h, hlast, fun _ => ⟨Nat.succ_ne_zero m, hb⟩⟩
          · obtain ⟨s₁, hpass, h₁⟩ := h.page hready (by omega) hb
            exact hnext _ m s₁ le_rfl hpass h₁

/-- The loop is left when nothing remains. -/
theorem read_returns_done (hlen : s.len = 0) (r : ReadState) :
    Loop.Returns (flash_read_buf_pass g d StatusCheck) s r ↔ r = s :=
  Loop.returns_done (by rw [flash_read_buf_pass, if_pos hlen])

/-- The last page, when what remains is not more than a page. -/
theorem ReadInv.last (hready : ∀ k, StatusCheck k = PASS) (h : ReadInv g d l buf L p (n + 1) s)
    (hlen : s.len ≠ 0) (hle : s.len ≤ g.page_size) (hb : blk_bad g d (p / g.ppb) = false) :
    ∃ r, (∀ r', Loop.Returns (flash_read_buf_pass g d StatusCheck) s r' ↔ r' = r) ∧
      r.res = FLASH_ERR_OK ∧ firstBytes r.buf L <+: l ∧ ∀ i, L ≤ i → r.buf i = buf i := by
  have hpage : s.addr / g.page_size = p := by rw [h.addr_eq, Nat.mul_div_cancel _ g.page_pos]
  have hstep := read_pass_page hready hlen hpage
    (read_test h.addr_eq hb) (h.free 0 (Nat.succ_pos n) hb)
  have hsize : read_size g s.len = s.len := if_neg (by omega)
  have hL := h.len_eq
  dsimp only at hstep
  rw [hsize, Nat.sub_self] at hstep
  refine ⟨_, fun r' => (Loop.returns_again hstep).trans (read_returns_done rfl r'), h.res_eq, ?_,
    ?_⟩
  · rw [← hL]
    exact h.copied_page hb hle
  · intro i hi
    dsimp only
    rw [memcpy_of_ge (by omega)]
    exact h.beyond i (by omega)

/-- A rest shorter than a page: after the page before it, `addr` and `pbuff` have
moved by the rest only, so that the same page is read again, and nothing comes
to the last byte. -/
theorem ReadInv.short (hready : ∀ k, StatusCheck k = PASS) (h : ReadInv g d l buf L p (n + 1) s)
    (hlt : g.page_size < s.len) (hlt' : s.len < 2 * g.page_size)
    (hb : blk_bad g d (p / g.ppb) = false) :
    ∃ r, (∀ r', Loop.Returns (flash_read_buf_pass g d StatusCheck) s r' ↔ r' = r) ∧
      r.buf (L - 1) = buf (L - 1) := by
  obtain ⟨k, hk⟩ := Nat.exists_eq_add_of_lt hlt
  have hL := h.len_eq
  have hpage : s.addr / g.page_size = p := by rw [h.addr_eq, Nat.mul_div_cancel _ g.page_pos]
  have hfree : error_free g d p := h.free 0 (Nat.succ_pos n) hb
  have hfirst : ∃ s', flash_read_buf_pass g d StatusCheck s = .inl s' ∧
      s'.addr = p * g.page_size + (k + 1) ∧ s'.len = k + 1 ∧ s'.off = s.off + (k + 1) ∧
      s'.buf (L - 1) = buf (L - 1) := by
    have hstep := read_pass_page hready (by omega) hpage
      (read_test h.addr_eq hb) hfree
    have hsize : read_size g s.len = g.page_size := if_pos hlt
    have hsize' : read_size g (s.len - g.page_size) = k + 1 := by
      unfold read_size
      split <;> omega
    dsimp only at hstep
    rw [hsize, hsize'] at hstep
    refine ⟨_, hstep, by rw [← h.addr_eq], by dsimp only; omega, rfl, ?_⟩
    dsimp only
    rw [memcpy_of_ge (by omega)]
    exact h.beyond _ (by omega)
  obtain ⟨s', hpass, haddr, hlen, hoff, hbuf⟩ := hfirst
  have htest : s'.addr % g.block_size = 0 → VeffBad g d s'.addr = PASS := by
    -- the address is inside the page
    intro hmod
    have hdvd : g.page_size ∣ s'.addr :=
      (g.block_eq ▸ Nat.dvd_mul_left _ _).trans (Nat.dvd_of_mod_eq_zero hmod)
    rw [haddr, Nat.dvd_add_right (Nat.dvd_mul_left _ _)] at hdvd
    exact absurd (Nat.le_of_dvd (Nat.succ_pos k) hdvd) (by omega)
  have hstep := read_pass_page hready (by omega)
    (by rw [haddr, page_add_div p (by omega)]) htest hfree
  have hsize : read_size g s'.len = s'.len := if_neg (by omega)
  dsimp only at hstep
  rw [hsize, Nat.sub_self] at hstep
  refine ⟨_, fun r' => (Loop.returns_again hpass).trans <|
    (Loop.returns_again hstep).trans (read_returns_done rfl r'), ?_⟩
  dsimp only
  rw [memcpy_of_ge (by omega), hbuf]

end Tail

/-! ## Whole calls -/

/-- `flash_read_buf` of `len` bytes delivers what the good blocks among the `N`
from `b` on hold, whatever was in the buffer, and writes nothing else. -/
def ReadsBack (g : FlashInfo) (d : NandDev) (StatusCheck : ℕ → Status) (b len N : ℕ) : Prop :=
  ∀ buf, ∃ r, FlashReadBuf g d StatusCheck (b * g.block_size) buf len r ∧
    r.res = FLASH_ERR_OK ∧ firstBytes r.buf len <+: good_data g d b N ∧
    ∀ i, len ≤ i → r.buf i = buf i

/-- What the read is given: a chip that is ready, good blocks enough, and no
errors in their pages. -/
structure Readable (g : FlashInfo) (d : NandDev) (StatusCheck : ℕ → Status) (b len N : ℕ) :
    Prop where
  ready : ∀ k, StatusCheck k = PASS
  enough : len ≤ (good_data g d b N).length
  free : ∀ p, b ≤ p / g.ppb → p / g.ppb < b + N → blk_bad g d (p / g.ppb) = false →
    error_free g d p

section Calls

variable {len N : ℕ}

/-- The whole read but for its tail. -/
theorem Readable.run (h : Readable g d StatusCheck b len N) (buf : ℕ → UInt8) :
    ∃ p n s, (∀ r, FlashReadBuf g d StatusCheck (b * g.block_size) buf len r ↔
        Loop.Returns (flash_read_buf_pass g d StatusCheck) s r) ∧
      ReadInv g d (good_data g d b N) buf len p n s ∧ s.len < 2 * g.page_size ∧
      (s.len ≠ 0 → n ≠ 0 ∧ blk_bad g d (p / g.ppb) = false) := by
  have hppb : 0 < g.ppb := by have := g.two_le_ppb; omega
  apply ReadInv.tail h.ready h.enough (N * g.ppb) (b * g.ppb) _
  refine ⟨?_, Nat.zero_add len, ?_, List.nil_prefix, fun _ _ => rfl, rfl, ?_, ?_,
    ?_, Nat.dvd_zero _, .inl rfl⟩
  · rw [flash_read_buf_start, g.block_eq, Nat.mul_assoc]
  · exact good_data_eq_pages b N
  · rw [← Nat.add_mul]
    exact Nat.dvd_mul_left _ _
  · intro hne
    exact absurd (Nat.mul_mod_left b g.ppb) hne
  · intro k hk hb
    refine h.free _ ((Nat.le_div_iff_mul_le hppb).mpr (Nat.le_add_right _ _)) ?_ hb
    rw [Nat.div_lt_iff_lt_mul hppb, Nat.add_mul]
    omega

/-- What remains at the tail is more than a page when `len` is, and is not made
of pages. -/
theorem ReadInv.rest_le_iff {l : List UInt8} {buf : ℕ → UInt8}
    (h : ReadInv g d l buf len p n s) (hlt : s.len < 2 * g.page_size) :
    s.len ≤ g.page_size ↔ len ≤ g.page_size ∨ g.page_size ∣ len := by
  have hlen := h.len_eq
  constructor
  · intro hle
    rcases h.rest with h₀ | hge
    · exact .inl (by omega)
    · refine .inr (hlen ▸ (Nat.dvd_add_right h.pages).mpr ?_)
      rw [le_antisymm hle hge]
  · rintro (hle | hdvd)
    · omega
    · rw [← hlen, Nat.dvd_add_right h.pages] at hdvd
      obtain ⟨c, hc⟩ := hdvd
      rw [hc] at hlt ⊢
      have hc2 : c < 2 := Nat.lt_of_mul_lt_mul_left (Nat.mul_comm 2 _ ▸ hlt)
      calc g.page_size * c ≤ g.page_size * 1 := Nat.mul_le_mul_left _ (by omega)
        _ = g.page_size := Nat.mul_one _

theorem Readable.readsBack (h : Readable g d StatusCheck b len N)
    (hlen : len ≤ g.page_size ∨ g.page_size ∣ len) : ReadsBack g d StatusCheck b len N := by
  intro buf
  obtain ⟨p, n, s, hret, hinv, hlt, hnext⟩ := h.run buf
  rw [← hinv.rest_le_iff hlt] at hlen
  by_cases h₀ : s.len = 0
  · have hoff : s.off = len := by
      have := hinv.len_eq
      omega
    exact ⟨s, (hret s).mpr ((read_returns_done h₀ s).mpr rfl), hinv.res_eq, hoff ▸ hinv.copied,
      hoff ▸ hinv.beyond⟩
  · obtain ⟨hn, hb⟩ := hnext h₀
    obtain ⟨m, rfl⟩ := Nat.exists_eq_succ_of_ne_zero hn
    obtain ⟨r, hr, hrest⟩ := hinv.last h.ready h₀ hlen hb
    exact ⟨r, (hret r).mpr ((hr r).mpr rfl), hrest⟩

theorem Readable.not_readsBack (h : Readable g d StatusCheck b len N)
    (hlen : ¬ (len ≤ g.page_size ∨ g.page_size ∣ len)) : ¬ ReadsBack g d StatusCheck b len N := by
  intro hread
  have hpos : len - 1 < (good_data g d b N).length := by
    have := h.enough
    omega
  -- a buffer whose last byte is wrong
  obtain ⟨x, hx⟩ : ∃ x, x = (good_data g d b N)[len - 1] + 1 := ⟨_, rfl⟩
  obtain ⟨p, n, s, hret, hinv, hlt, hnext⟩ := h.run fun _ => x
  rw [← hinv.rest_le_iff hlt] at hlen
  obtain ⟨hn, hb⟩ := hnext (by omega)
  obtain ⟨m, rfl⟩ := Nat.exists_eq_succ_of_ne_zero hn
  obtain ⟨r, hr, hbuf⟩ := hinv.short h.ready (by omega) hlt hb
  obtain ⟨r', hr', -, hpre, -⟩ := hread fun _ => x
  obtain rfl := (hr r').mp ((hret r').mp hr')
  have hle := hpre.length_le
  rw [length_firstBytes] at hle
  have hlast := hpre.getElem (i := len - 1) (by
    have := hinv.len_eq
    rw [length_firstBytes]
    omega)
  simp only [firstBytes, List.getElem_map, List.getElem_range] at hlast
  exact absurd ((hlast.symm.trans hbuf).trans hx) (by simp)

end Calls

/-- **When `flash_read_buf` inverts the writer**: when one page is enough or
whole pages are read. A rest shorter than a page behind whole pages is taken
from the front of the last whole page again, and put right behind the first
bytes of that page's copy, so that the last byte of the buffer is never
written. -/
theorem flash_read_buf_inverse_iff (g : FlashInfo) (d : NandDev) (StatusCheck : ℕ → Status)
    (b len N : ℕ) (h : Readable g d StatusCheck b len N) :
    ReadsBack g d StatusCheck b len N ↔ len ≤ g.page_size ∨ g.page_size ∣ len :=
  ⟨fun hread => by_contra fun hlen => h.not_readsBack hlen hread, h.readsBack⟩

/-- A block whose pages were written is good. -/
theorem blk_bad_of_pagewrite {data : ℕ → ℕ → UInt8}
    (h : ∀ p, p / g.ppb = b → d.pages p = pagewrite_raw g (data p)) : blk_bad g d b = false := by
  have hppb := g.two_le_ppb
  have hmarker : ∀ p, p / g.ppb = b → marker g d p = 0xff := by
    intro p hp
    rw [marker, h p hp, pagewrite_raw, if_neg (by omega), Nat.add_sub_cancel_left]
    exact pagewrite_oob_markp _ le_rfl
  exact blk_bad_eq_false.mpr ⟨hmarker _ (block_of_page (j := 0) (by omega)),
    hmarker _ (block_of_page (by omega))⟩

/-- A chip with small pages, all written with zeros. -/
def zeros_g : FlashInfo := ⟨0x200, 0x2000, true, by decide⟩

def zeros_dev : NandDev :=
  ⟨fun _ => pagewrite_raw zeros_g fun _ => 0,
    ⟨fun _ => false, fun _ _ => 0, fun _ => false, fun _ => none⟩, []⟩

theorem zeros_readable {len : ℕ} (hlen : len ≤ 0x2000) :
    Readable zeros_g zeros_dev (fun _ => PASS) 0 len 1 := by
  have hgood : blk_bad zeros_g zeros_dev 0 = false := blk_bad_of_pagewrite fun _ _ => rfl
  refine ⟨fun _ => rfl, ?_, fun p _ _ _ => error_free_of_pagewrite rfl⟩
  rw [good_data, goodBytes, goodBytes, Nat.add_zero, hgood, if_neg Bool.false_ne_true,
    List.nil_append, block_data, length_firstBytes]
  exact hlen

/-- The second block is bad, and every page of the others is filled with its number. -/
def numbers_dev : NandDev :=
  { zeros_dev with
    pages := fun p =>
      if p / zeros_g.ppb = 1 then fun _ => 0 else pagewrite_raw zeros_g fun _ => UInt8.ofNat p }

theorem numbers_pages {p : ℕ} (h : p / zeros_g.ppb ≠ 1) :
    numbers_dev.pages p = pagewrite_raw zeros_g fun _ => UInt8.ofNat p :=
  if_neg h

theorem numbers_bad (b : ℕ) : blk_bad zeros_g numbers_dev b = decide (b = 1) := by
  by_cases h : b = 1
  · rw [h, decide_eq_true rfl, ← Bool.not_eq_false, blk_bad_eq_false]
    rintro ⟨hmarker, -⟩
    exact absurd hmarker (show (0 : UInt8) ≠ 0xff by decide)
  · rw [decide_eq_false h]
    exact blk_bad_of_pagewrite fun p hp => numbers_pages (by omega)

/-- The data that follow the bad block follow those before it. -/
theorem numbers_good_data : good_data zeros_g numbers_dev 0 3 =
    block_data zeros_g numbers_dev 0 ++ block_data zeros_g numbers_dev 2 := by
  simp only [good_data, goodBytes, Nat.zero_add, numbers_bad]
  simp

theorem numbers_readable : Readable zeros_g numbers_dev (fun _ => PASS) 0 0x2400 3 where
  ready _ := rfl
  enough := by
    rw [numbers_good_data, List.length_append, block_data, block_data, length_firstBytes,
      length_firstBytes]
    decide
  free p _ _ hgood := by
    rw [numbers_bad, decide_eq_false_iff_not] at hgood
    exact error_free_of_pagewrite (numbers_pages hgood)

/-- The first byte behind the sixteen pages is that of the page with the number 32. -/
theorem numbers_good_data_next : (good_data zeros_g numbers_dev 0 3)[0x2000]? = some 32 := by
  have hlen : (block_data zeros_g numbers_dev 0).length = 0x2000 := length_firstBytes ..
  have hbyte : data_byte zeros_g numbers_dev (2 * zeros_g.block_size + 0) = 32 := by
    have hpage : numbers_dev.pages 32 = pagewrite_raw zeros_g fun _ => 32 :=
      numbers_pages (show 32 / zeros_g.ppb ≠ 1 by decide)
    have hread : data_byte zeros_g numbers_dev (2 * zeros_g.block_size + 0) =
        numbers_dev.pages 32 0 := rfl
    rw [hread, hpage, pagewrite_raw, if_pos zeros_g.page_pos]
  rw [numbers_good_data, List.getElem?_append_right hlen.le, hlen, block_data, firstBytes,
    List.getElem?_map, List.getElem?_range (by decide), Option.map_some, hbyte]

/-- Eighteen pages are read back, over the bad block behind the first sixteen. -/
theorem flash_read_buf_inverse_pages :
    (good_data zeros_g numbers_dev 0 3)[0x2000]? = some 32 ∧
      ReadsBack zeros_g numbers_dev (fun _ => PASS) 0 0x2400 3 :=
  ⟨numbers_good_data_next,
    (flash_read_buf_inverse_iff _ _ _ _ _ _ numbers_readable).mpr (.inr (by decide))⟩

/-- One page and one byte are not. -/
theorem flash_read_buf_not_inverse : Readable zeros_g zeros_dev (fun _ => PASS) 0 0x201 1 ∧
    ¬ ReadsBack zeros_g zeros_dev (fun _ => PASS) 0 0x201 1 :=
  ⟨zeros_readable (by decide), (zeros_readable (by decide)).not_readsBack (by decide)⟩

end CsBoot.Nand
