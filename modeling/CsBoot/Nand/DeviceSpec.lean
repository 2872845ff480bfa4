/-
What the page and block functions do to the chip.

Each of them changes one block (`Within`), and what it reports depends on the
pages of that block only (`SameFrom` for all pages from some page on, which is
what a loop over ascending blocks needs). A block that takes a chunk holds it
afterwards, as `pageread` delivers it, and has its markers clear; a block that
does not can be marked.
-/
import CsBoot.Nand.Device

set_option autoImplicit false

namespace CsBoot.Nand

open Status FlashErr

variable {g : FlashInfo} {d d' d'' e : NandDev} {b p : ℕ}

/-! ## Changes to one block -/

/-- From `d` to `d'` only block `b` was changed, and only requests for it were
made. -/
structure Within (g : FlashInfo) (b : ℕ) (d d' : NandDev) : Prop where
  faults_eq : d'.faults = d.faults
  pages_eq : ∀ q, q / g.ppb ≠ b → d'.pages q = d.pages q
  log_eq : ∃ l, d'.log = d.log ++ l ∧ ∀ op ∈ l, op.blk g = b

theorem Within.refl : Within g b d d := ⟨rfl, fun _ _ => rfl, [], by simp, by simp⟩

theorem Within.trans (h : Within g b d d') (h' : Within g b d' d'') : Within g b d d'' := by
  obtain ⟨l, hl, hb⟩ := h.log_eq
  obtain ⟨l', hl', hb'⟩ := h'.log_eq
  refine ⟨h'.faults_eq.trans h.faults_eq, fun q hq => (h'.pages_eq q hq).trans (h.pages_eq q hq),
    l ++ l', by rw [hl', hl, List.append_assoc], ?_⟩
  intro op hop
  rcases List.mem_append.mp hop with hop | hop
  · exact hb op hop
  · exact hb' op hop

theorem within_erase : Within g b d (d.erase g b) :=
  ⟨rfl, fun _ hq => if_neg hq, [.erase b], rfl, by simp [NandOp.blk]⟩

theorem within_program {raw : RawPage} (hp : p / g.ppb = b) : Within g b d (d.program g p raw) := by
  refine ⟨rfl, fun q hq => Function.update_of_ne ?_ _ _, [.program p], rfl, by simpa [NandOp.blk]⟩
  rintro rfl
  exact hq hp

theorem within_mark {raw : RawPage} (hp : p / g.ppb = b) : Within g b d (d.mark p raw) := by
  refine ⟨rfl, fun q hq => Function.update_of_ne ?_ _ _, [.program p], rfl, by simpa [NandOp.blk]⟩
  rintro rfl
  exact hq hp

/-! ## Addresses -/

theorem page_of_block (b : ℕ) : b * g.block_size / g.page_size = b * g.ppb := by
  rw [g.block_eq, ← Nat.mul_assoc, Nat.mul_div_cancel _ g.page_pos]

theorem block_of_page {j : ℕ} (hj : j < g.ppb) : (b * g.ppb + j) / g.ppb = b := by
  rw [Nat.mul_comm, Nat.mul_add_div (by omega), Nat.div_eq_of_lt hj, Nat.add_zero]

theorem page_add_div (p : ℕ) {i : ℕ} (hi : i < g.page_size) :
    (p * g.page_size + i) / g.page_size = p := by
  rw [Nat.mul_comm, Nat.mul_add_div g.page_pos, Nat.div_eq_of_lt hi, Nat.add_zero]

theorem block_of_addr {i : ℕ} (hi : i < g.block_size) :
    (b * g.block_size + i) / g.page_size / g.ppb = b := by
  rw [Nat.div_div_eq_div_mul, Nat.mul_comm g.page_size, ← g.block_eq, Nat.mul_comm b,
    Nat.mul_add_div g.block_pos, Nat.div_eq_of_lt hi, Nat.add_zero]

theorem read_byte_page (d : NandDev) (p : ℕ) {i : ℕ} (hi : i < g.page_size) :
    read_byte g d (p * g.page_size + i) =
      (pageread_ecc g (d.pages p) (g.page_size / 256)).2 i := by
  rw [read_byte, pageread, page_add_div p hi, Nat.mul_add_mod_of_lt hi]

/-- Reading a byte looks at its page only. -/
theorem read_byte_congr {a : ℕ} (h : d.pages (a / g.page_size) = e.pages (a / g.page_size)) :
    read_byte g d a = read_byte g e a := by
  rw [read_byte, read_byte, pageread, pageread, h]

/-! ## `pagewrite` and `flash_program_buf` -/

/-- Equal from page `p` on, failures included. -/
structure SameFrom (p : ℕ) (d e : NandDev) : Prop where
  faults_eq : d.faults = e.faults
  pages_eq : ∀ q, p ≤ q → d.pages q = e.pages q

theorem SameFrom.mono {p' : ℕ} (h : SameFrom p d e) (hp : p ≤ p') : SameFrom p' d e :=
  ⟨h.faults_eq, fun q hq => h.pages_eq q (hp.trans hq)⟩

theorem SameFrom.refl : SameFrom p d d := ⟨rfl, fun _ _ => rfl⟩

theorem SameFrom.erase (h : SameFrom p d e) (b : ℕ) : SameFrom p (d.erase g b) (e.erase g b) := by
  refine ⟨h.faults_eq, ?_⟩
  intro q hq
  unfold NandDev.erase
  dsimp only
  rw [h.faults_eq, h.pages_eq q hq]

theorem SameFrom.program (h : SameFrom p d e) (hp : p ≤ b) (raw : RawPage) :
    SameFrom p (d.program g b raw) (e.program g b raw) := by
  refine ⟨h.faults_eq, ?_⟩
  intro q hq
  unfold NandDev.program
  dsimp only
  rw [h.faults_eq, h.pages_eq b hp]
  by_cases hqb : q = b
  · subst hqb
    rw [Function.update_self, Function.update_self]
  · rw [Function.update_of_ne hqb, Function.update_of_ne hqb, h.pages_eq q hq]

theorem SameFrom.mark (h : SameFrom p d e) (hp : p ≤ b) (raw : RawPage) :
    SameFrom p (d.mark b raw) (e.mark b raw) := by
  refine ⟨h.faults_eq, ?_⟩
  intro q hq
  unfold NandDev.mark
  dsimp only
  rw [h.pages_eq b hp]
  by_cases hqb : q = b
  · subst hqb
    rw [Function.update_self, Function.update_self]
  · rw [Function.update_of_ne hqb, Function.update_of_ne hqb, h.pages_eq q hq]

/-- `pagewrite` of page `p` always writes it; a `PASS` means that the page reads
back. -/
theorem pagewrite_spec (d : NandDev) (p : ℕ) (data : ℕ → UInt8) :
    (pagewrite g d (p * g.page_size) data).1 = d.program g p (pagewrite_raw g data) ∧
    ((pagewrite g d (p * g.page_size) data).2 = PASS →
      ∀ i, i < g.page_size → read_byte g (d.program g p (pagewrite_raw g data))
        (p * g.page_size + i) = data i) := by
  have hp : p * g.page_size / g.page_size = p := Nat.mul_div_cancel _ g.page_pos
  rw [pagewrite, hp]
  split
  · exact ⟨rfl, fun h => by cases h⟩
  · split
    · rename_i h
      refine ⟨rfl, ?_⟩
      intro _ i hi
      rw [read_byte_page _ p hi, h i hi, pageread, hp]
    · exact ⟨rfl, fun h => by cases h⟩

/-- What `pagewrite` reports depends on the page and its failures. -/
theorem pagewrite_congr (h : SameFrom p d e) (data : ℕ → UInt8) :
    (pagewrite g d (p * g.page_size) data).2 = (pagewrite g e (p * g.page_size) data).2 := by
  have hp : p * g.page_size / g.page_size = p := Nat.mul_div_cancel _ g.page_pos
  have hpage : (d.program g p (pagewrite_raw g data)).pages p =
      (e.program g p (pagewrite_raw g data)).pages p := (h.program le_rfl _).pages_eq p le_rfl
  rw [pagewrite, pagewrite, hp, pageread, pageread, hp, hpage, h.faults_eq]
  split
  · rfl
  · split <;> rfl

/-- The equation of the loop of `flash_program_buf`. -/
theorem flash_program_buf_zero (d : NandDev) (addr : ℕ) (data : ℕ → UInt8) :
    flash_program_buf g d addr data 0 = (d, FLASH_ERR_OK) := by
  rw [flash_program_buf, dif_pos rfl]

/-- The page that a pass of `flash_program_buf` writes. -/
def program_page (g : FlashInfo) (data : ℕ → UInt8) (len : ℕ) : ℕ → UInt8 :=
  if len < g.page_size then fun i => if i < len then data i else 0xff else data

theorem flash_program_buf_succ (d : NandDev) (p : ℕ) (data : ℕ → UInt8) {len : ℕ} (hlen : len ≠ 0) :
    flash_program_buf g d (p * g.page_size) data len =
      if (pagewrite g d (p * g.page_size) (program_page g data len)).2 ≠ PASS then
        (d.program g p (pagewrite_raw g (program_page g data len)), FLASH_ERR_PROGRAM)
      else flash_program_buf g (d.program g p (pagewrite_raw g (program_page g data len)))
        ((p + 1) * g.page_size) (fun i => data (g.page_size + i)) (len - g.page_size) := by
  rw [flash_program_buf, dif_neg hlen, ← (pagewrite_spec d p (program_page g data len)).1]
  dsimp only
  rw [← program_page]
  by_cases hlt : len < g.page_size
  · -- the last page: nothing is left, wherever the next one would be
    rw [if_pos hlt, Nat.sub_self, Nat.sub_eq_zero_of_le hlt.le, flash_program_buf_zero,
      flash_program_buf_zero]
  · rw [if_neg hlt, Nat.succ_mul]

/-- `flash_program_buf` inside block `b`: it changes the block only, and pages
from `p` on; when it reports success the bytes are there. -/
theorem flash_program_buf_spec (n : ℕ) : ∀ (d : NandDev) (p : ℕ) (data : ℕ → UInt8) (len : ℕ),
    len ≤ n * g.page_size → (∀ q, p ≤ q → q < p + n → q / g.ppb = b) →
    Within g b d (flash_program_buf g d (p * g.page_size) data len).1 ∧
    (∀ q, q < p → (flash_program_buf g d (p * g.page_size) data len).1.pages q = d.pages q) ∧
    ((flash_program_buf g d (p * g.page_size) data len).2 = FLASH_ERR_OK → ∀ i, i < len →
      read_byte g (flash_program_buf g d (p * g.page_size) data len).1 (p * g.page_size + i) =
        data i) := by
  induction n with
  | zero =>
      intro d p data len hlen _
      obtain rfl : len = 0 := by omega
      rw [flash_program_buf_zero]
      exact ⟨Within.refl, fun _ _ => rfl, fun _ i hi => by omega⟩
  | succ n ih =>
      intro d p data len hlen hblk
      by_cases h0 : len = 0
      · subst h0
        rw [flash_program_buf_zero]
        exact ⟨Within.refl, fun _ _ => rfl, fun _ i hi => by omega⟩
      rw [flash_program_buf_succ d p data h0]
      set d₁ := d.program g p (pagewrite_raw g (program_page g data len)) with hd₁
      have hw : Within g b d d₁ := within_program (hblk p le_rfl (by omega))
      have hlow : ∀ q, q < p → d₁.pages q = d.pages q := fun q hq =>
        Function.update_of_ne hq.ne _ _
      split
      · exact ⟨hw, hlow, fun h => by cases h⟩
      · rename_i hpass
        obtain ⟨ih₁, ih₂, ih₃⟩ := ih d₁ (p + 1) (fun i => data (g.page_size + i))
          (len - g.page_size) (by rw [Nat.succ_mul] at hlen; omega)
          (fun q hq hq' => hblk q (by omega) (by omega))
        refine ⟨hw.trans ih₁, fun q hq => (ih₂ q (by omega)).trans (hlow q hq), ?_⟩
        intro hok i hi
        by_cases hip : i < g.page_size
        · -- a byte of this page, which the later passes leave alone
          have hread := (pagewrite_spec d p (program_page g data len)).2 (not_not.mp hpass) i hip
          rw [← hd₁] at hread
          rw [read_byte_congr (ih₂ _ (by rw [page_add_div p hip]; omega)), hread, program_page]
          split
          · exact if_pos hi
          · rfl
        · have hread := ih₃ hok (i - g.page_size) (by omega)
          rwa [Nat.add_sub_cancel' (by omega),
            show (p + 1) * g.page_size + (i - g.page_size) = p * g.page_size + i by
              rw [Nat.succ_mul]; omega] at hread

theorem flash_program_buf_congr (n : ℕ) : ∀ (d e : NandDev) (q : ℕ) (data : ℕ → UInt8) (len : ℕ),
    len ≤ n * g.page_size → p ≤ q → SameFrom p d e →
    (flash_program_buf g d (q * g.page_size) data len).2 =
      (flash_program_buf g e (q * g.page_size) data len).2 ∧
    SameFrom p (flash_program_buf g d (q * g.page_size) data len).1
      (flash_program_buf g e (q * g.page_size) data len).1 := by
  induction n with
  | zero =>
      intro d e q data len hlen _ h
      obtain rfl : len = 0 := by omega
      rw [flash_program_buf_zero, flash_program_buf_zero]
      exact ⟨rfl, h⟩
  | succ n ih =>
      intro d e q data len hlen hq h
      by_cases h0 : len = 0
      · rw [h0, flash_program_buf_zero, flash_program_buf_zero]
        exact ⟨rfl, h⟩
      rw [flash_program_buf_succ d q data h0, flash_program_buf_succ e q data h0,
        pagewrite_congr (h.mono hq)]
      split
      · exact ⟨rfl, h.program hq _⟩
      · exact ih _ _ (q + 1) _ _ (by rw [Nat.succ_mul] at hlen; omega) (hq.trans (Nat.le_succ q))
          (h.program hq _)

/-! ## Markers -/

/-- Whether block `b` is marked bad. -/
def blk_bad (g : FlashInfo) (d : NandDev) (b : ℕ) : Bool := VeffBad g d (b * g.block_size) = FAIL

/-- The marker byte of a page. -/
def marker (g : FlashInfo) (d : NandDev) (p : ℕ) : UInt8 := d.pages p (g.page_size + g.markp)

theorem blk_bad_eq_false : blk_bad g d b = false ↔
    marker g d (b * g.ppb) = 0xff ∧ marker g d (b * g.ppb + 1) = 0xff := by
  have h₁ : (b * g.block_size + g.page_size) / g.page_size = b * g.ppb + 1 := by
    rw [Nat.add_div_right _ g.page_pos, page_of_block]
  unfold blk_bad VeffBad marker
  simp only [page_of_block, h₁]
  by_cases h : d.pages (b * g.ppb) (g.page_size + g.markp) = 0xff <;>
    by_cases h' : d.pages (b * g.ppb + 1) (g.page_size + g.markp) = 0xff <;> simp [h, h']

/-- The markers of a block are in two pages of it. -/
theorem blk_bad_congr (h : ∀ q, q / g.ppb = b → d.pages q = e.pages q) :
    blk_bad g d b = blk_bad g e b := by
  have hppb := g.two_le_ppb
  have h₀ : d.pages (b * g.ppb) = e.pages (b * g.ppb) :=
    h _ (block_of_page (j := 0) (by omega))
  have h₁ : d.pages (b * g.ppb + 1) = e.pages (b * g.ppb + 1) := h _ (block_of_page (by omega))
  rw [Bool.eq_iff_iff, ← not_iff_not, Bool.not_eq_true, Bool.not_eq_true, blk_bad_eq_false,
    blk_bad_eq_false]
  unfold marker
  rw [h₀, h₁]

/-- The code bytes are kept away from the marker. -/
theorem oobsel_ne_markp {i : ℕ} (hi : i < 3 * (g.page_size / 256)) : g.oobsel i ≠ g.markp := by
  have h512 : ∀ i, i < 6 → [8, 9, 10, 13, 14, 15].getD i 0 ≠ 5 := by decide
  have h2k : ∀ i, i < 24 → [40, 41, 42, 43, 44, 45, 46, 47, 48, 49, 50, 51,
      52, 53, 54, 55, 56, 57, 58, 59, 60, 61, 62, 63].getD i 0 ≠ 0 := by decide
  have hpage : g.page_size = 0x200 ∨ g.page_size = 0x800 := by
    have h := g.geometry
    omega
  unfold FlashInfo.oobsel FlashInfo.markp FlashInfo.oobsize
  rcases hpage with h | h
  · rw [h] at hi ⊢
    exact h512 i hi
  · rw [h] at hi ⊢
    exact h2k i hi

theorem pagewrite_oob_markp (data : ℕ → UInt8) {n : ℕ} (hn : n ≤ g.page_size / 256) :
    pagewrite_oob g data n g.markp = 0xff := by
  induction n with
  | zero => rfl
  | succ n ih =>
      rw [pagewrite_oob, Function.update_of_ne (oobsel_ne_markp (by omega)).symm,
        Function.update_of_ne (oobsel_ne_markp (by omega)).symm,
        Function.update_of_ne (oobsel_ne_markp (by omega)).symm, ih (by omega)]

/-- Writing pages leaves clear markers clear. -/
theorem program_marker (q : ℕ) (data : ℕ → UInt8) (h : marker g d q = 0xff) :
    marker g (d.program g p (pagewrite_raw g data)) q = 0xff := by
  unfold marker at *
  by_cases hq : q = p
  · subst hq
    unfold NandDev.program
    dsimp only
    have hlt : ¬ g.page_size + g.markp < g.page_size := by omega
    rw [Function.update_self, if_neg hlt, h, pagewrite_raw, if_neg hlt, Nat.add_sub_cancel_left,
      pagewrite_oob_markp data le_rfl]
    decide
  · rw [← h]
    exact congrFun (Function.update_of_ne hq _ _) _

theorem flash_program_buf_marker (n q : ℕ) : ∀ (d : NandDev) (p : ℕ) (data : ℕ → UInt8) (len : ℕ),
    len ≤ n * g.page_size → marker g d q = 0xff →
    marker g (flash_program_buf g d (p * g.page_size) data len).1 q = 0xff := by
  induction n with
  | zero =>
      intro d p data len hlen h
      obtain rfl : len = 0 := by omega
      rwa [flash_program_buf_zero]
  | succ n ih =>
      intro d p data len hlen h
      by_cases h0 : len = 0
      · rwa [h0, flash_program_buf_zero]
      rw [flash_program_buf_succ d p data h0]
      split
      · exact program_marker q _ h
      · exact ih _ (p + 1) _ _ (by rw [Nat.succ_mul] at hlen; omega) (program_marker q _ h)

theorem nand_block_markbad_eq (d : NandDev) (b : ℕ) : ∃ raw : RawPage,
    raw (g.page_size + g.markp) = 0 ∧ nand_block_markbad g d (b * g.block_size) =
      (d.mark (b * g.ppb) raw).mark (b * g.ppb + 1) raw := by
  refine ⟨fun i => if i = g.page_size + g.markp then 0 else 0xff, if_pos rfl, ?_⟩
  rw [nand_block_markbad, Nat.add_div_right _ g.page_pos, page_of_block]

theorem SameFrom.nand_block_markbad (h : SameFrom (b * g.ppb) d e) : SameFrom (b * g.ppb)
    (nand_block_markbad g d (b * g.block_size)) (nand_block_markbad g e (b * g.block_size)) := by
  unfold CsBoot.Nand.nand_block_markbad
  dsimp only
  rw [Nat.add_div_right _ g.page_pos, page_of_block]
  exact (h.mark le_rfl _).mark (Nat.le_succ _) _

/-- A block that is marked bad is bad. -/
theorem nand_block_markbad_spec (d : NandDev) (b : ℕ) :
    Within g b d (nand_block_markbad g d (b * g.block_size)) ∧
      blk_bad g (nand_block_markbad g d (b * g.block_size)) b = true := by
  have hppb := g.two_le_ppb
  obtain ⟨raw, hraw, hd⟩ := nand_block_markbad_eq (g := g) d b
  rw [hd]
  constructor
  · exact (within_mark (block_of_page (j := 0) (by omega))).trans
      (within_mark (block_of_page (by omega)))
  · rw [← Bool.not_eq_false, blk_bad_eq_false]
    rintro ⟨h, -⟩
    unfold marker NandDev.mark at h
    dsimp only at h
    rw [Function.update_of_ne (by omega), Function.update_self, hraw, UInt8.and_zero] at h
    exact absurd h (by decide)

/-! ## Trying a block

What `flash_nand_program` does to a block that is not marked bad. -/

/-- Erase the block and write a chunk; mark the block bad when either fails. -/
def try_block (g : FlashInfo) (d : NandDev) (b : ℕ) (data : ℕ → UInt8) (size : ℕ) :
    NandDev × FlashErr :=
  let r := flash_erase_block g d (b * g.block_size)
  if r.2 ≠ FLASH_ERR_OK then (nand_block_markbad g r.1 (b * g.block_size), r.2)
  else
    let w := flash_program_buf g r.1 (b * g.block_size) data size
    if w.2 ≠ FLASH_ERR_OK then (nand_block_markbad g w.1 (b * g.block_size), w.2) else w

/-- Block `b` takes the chunk. -/
def block_takes (g : FlashInfo) (d : NandDev) (b : ℕ) (data : ℕ → UInt8) (size : ℕ) : Bool :=
  (try_block g d b data size).2 = FLASH_ERR_OK

theorem flash_erase_block_eq (d : NandDev) (b : ℕ) : flash_erase_block g d (b * g.block_size) =
    (d.erase g b, if d.faults.erase_fails b then FLASH_ERR_ERASE else FLASH_ERR_OK) := by
  have hb : b * g.block_size / g.page_size / g.ppb = b := by
    rw [page_of_block]
    exact block_of_page (j := 0) (by have := g.two_le_ppb; omega)
  rw [flash_erase_block, hb]

theorem try_block_of_erase_fails (hf : d.faults.erase_fails b = true) (data : ℕ → UInt8)
    (size : ℕ) : try_block g d b data size =
      (nand_block_markbad g (d.erase g b) (b * g.block_size), FLASH_ERR_ERASE) := by
  rw [try_block, flash_erase_block_eq, if_pos hf]
  rfl

theorem try_block_of_erased (hf : d.faults.erase_fails b = false) (data : ℕ → UInt8)
    (size : ℕ) : try_block g d b data size =
      let w := flash_program_buf g (d.erase g b) (b * g.ppb * g.page_size) data size
      if w.2 ≠ FLASH_ERR_OK then (nand_block_markbad g w.1 (b * g.block_size), w.2) else w := by
  have hstart : b * g.block_size = b * g.ppb * g.page_size := by
    rw [g.block_eq, Nat.mul_assoc]
  rw [← hstart]
  unfold try_block
  simp only [flash_erase_block_eq, hf, Bool.false_eq_true, if_false, ne_eq, not_true_eq_false]

/-- The pages of block `b`. -/
theorem pages_of_block {q : ℕ} (hq : b * g.ppb ≤ q) (hq' : q < b * g.ppb + g.ppb) :
    q / g.ppb = b := by
  obtain ⟨j, rfl⟩ := Nat.exists_eq_add_of_le hq
  exact block_of_page (by omega)

/-- **Trying a block.** Only the block changes, and it is erased first. If it
takes the chunk, the chunk is there and the block is not marked; if not, the
block is marked. -/
theorem try_block_spec (d : NandDev) (b : ℕ) (data : ℕ → UInt8) {size : ℕ}
    (hsize : size ≤ g.block_size) :
    Within g b (d.erase g b) (try_block g d b data size).1 ∧
    (block_takes g d b data size = true → blk_bad g (try_block g d b data size).1 b = false ∧
      ∀ i, i < size → read_byte g (try_block g d b data size).1 (b * g.block_size + i) = data i) ∧
    (block_takes g d b data size = false → blk_bad g (try_block g d b data size).1 b = true) := by
  have hppb := g.two_le_ppb
  unfold block_takes
  cases hf : d.faults.erase_fails b with
  | true =>
      obtain ⟨h₁, h₂⟩ := nand_block_markbad_spec (g := g) (d.erase g b) b
      rw [try_block_of_erase_fails hf]
      exact ⟨h₁, fun h => by simp at h, fun _ => h₂⟩
  | false =>
      have hn : size ≤ g.ppb * g.page_size := g.block_eq ▸ hsize
      obtain ⟨h₁, -, h₃⟩ := flash_program_buf_spec g.ppb (d.erase g b) (b * g.ppb) data size hn
        fun q => pages_of_block
      rw [try_block_of_erased hf]
      dsimp only
      by_cases hw : (flash_program_buf g (d.erase g b) (b * g.ppb * g.page_size) data size).2 =
          FLASH_ERR_OK
      · rw [if_neg (not_not.mpr hw)]
        refine ⟨h₁, fun _ => ⟨?_, ?_⟩, fun h => absurd hw (by simpa using h)⟩
        · -- the erase left the markers clear, and the pages written keep them so
          have hclear : ∀ j, j < g.ppb → marker g (flash_program_buf g (d.erase g b)
              (b * g.ppb * g.page_size) data size).1 (b * g.ppb + j) = 0xff := by
            intro j hj
            apply flash_program_buf_marker g.ppb _ _ _ _ _ hn
            unfold marker NandDev.erase
            dsimp only
            rw [if_pos (block_of_page hj), if_neg (by rw [hf]; exact Bool.false_ne_true)]
          exact blk_bad_eq_false.mpr ⟨hclear 0 (by omega), hclear 1 (by omega)⟩
        · rw [g.block_eq, ← Nat.mul_assoc]
          exact h₃ hw
      · rw [if_pos hw]
        obtain ⟨h₄, h₅⟩ := nand_block_markbad_spec (g := g)
          (flash_program_buf g (d.erase g b) (b * g.ppb * g.page_size) data size).1 b
        exact ⟨h₁.trans h₄, fun h => absurd (by simpa using h) hw, fun _ => h₅⟩

/-- What becomes of a block that is tried is decided by its own failures. -/
theorem try_block_congr (h : SameFrom (b * g.ppb) d e) (data : ℕ → UInt8) {size : ℕ}
    (hsize : size ≤ g.block_size) :
    (try_block g d b data size).2 = (try_block g e b data size).2 ∧
      SameFrom (b * g.ppb) (try_block g d b data size).1 (try_block g e b data size).1 := by
  obtain ⟨hstat, hsame⟩ := flash_program_buf_congr g.ppb (d.erase g b) (e.erase g b) (b * g.ppb)
    data size (g.block_eq ▸ hsize) le_rfl (h.erase b)
  have hfaults := h.faults_eq
  cases hf : d.faults.erase_fails b with
  | true =>
      rw [try_block_of_erase_fails hf, try_block_of_erase_fails (hfaults ▸ hf)]
      exact ⟨rfl, (h.erase b).nand_block_markbad⟩
  | false =>
      rw [try_block_of_erased hf, try_block_of_erased (hfaults ▸ hf)]
      dsimp only
      rw [hstat]
      split
      · exact ⟨rfl, hsame.nand_block_markbad⟩
      · exact ⟨hstat, hsame⟩

end CsBoot.Nand
