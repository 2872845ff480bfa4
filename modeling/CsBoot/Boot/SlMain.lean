/-
The stage-1 loader, `sl_main` of `src/src/boot/boot_main.c`, on NAND flash, with
the sizes of `board/lepus_linux/inc/board_config.h`.

The loader goes over the first stage in flash and then copies the second stage
to DRAM page by page. It works with the addresses at which the flash is mapped:
`srce` begins at `0x30000000`. The loop that is to pass over bad blocks runs
while the address is below `BOARD_FLASH_BOOT_SIZE`, which is the size of the
boot partition, `0x100000`; a mapped address never is, so `chk_block` is never
asked, and what is copied is the flash from `BOARD_FLASH_BOOT1_SIZE` on without
a gap.
-/
import CsBoot.Board
import CsBoot.Nand.Faultless

set_option autoImplicit false

namespace CsBoot.Boot

open CsBoot.Nand Status FlashErr SkipBlocks

/-! ## The loader -/

section Loader

variable (g : FlashInfo) (d : NandDev)

/-- Byte `i` of a read in direct mode that begins at the page address `a`: the
data of the page and then its OOB, without ECC. -/
def direct_read (a i : ℕ) : UInt8 := d.pages ((a - BOARD_FLASH_BASE_ADDR) / g.page_size) i

variable (junk : ℕ → UInt8)

/-- `chk_block`. Its pointer `oobp` is not initialised; `junk srce` stands for
the byte that the first round finds where the marker would be. -/
def chk_block (srce : ℕ) : ℕ :=
  -- `isbad[0]`, read through the pointer that is not set yet
  if junk srce ≠ 0xff then 1
  -- `isbad[1]`, from the second page
  else if direct_read g d (srce + g.page_size) (g.page_size + g.markp) ≠ 0xff then 1
  else 0

/-- `while (data < BOARD_FLASH_BOOT_SIZE)`: the loop over bad blocks. -/
def skip_blocks (srce : ℕ) : ℕ :=
  if srce < BOARD_FLASH_BOOT_SIZE then
    if chk_block g d junk srce = 0 then srce else skip_blocks (srce + g.block_size)
  else srce
termination_by BOARD_FLASH_BOOT_SIZE - srce
decreasing_by
  have := g.block_pos
  omega

/-- The part of both loops in front of the read. -/
def next_block (srce : ℕ) : ℕ :=
  if srce &&& (g.block_size - 1) = 0 then skip_blocks g d junk srce else srce

/-- The first loop: over `size` bytes of the first stage. -/
def find_boot2 (srce size : ℕ) : ℕ :=
  if size = 0 then srce
  else
    let srce := next_block g d junk srce
    if g.block_size < size then find_boot2 (srce + g.block_size) (size - g.block_size)
    -- `srce` is a pointer to words and advances by `size / 4` of them
    else srce + size / 4 * 4
termination_by size
decreasing_by
  have := g.block_pos
  omega

/-- The variables of the second loop. `dram` is the memory from
`BOARD_DRAM_BOOT2_ADDR` on, in which `adst` moves. -/
structure CopyState where
  srce : ℕ
  size : ℕ
  adst : ℕ
  dram : ℕ → UInt8

/-- One pass of the second loop. `size` is an unsigned 32-bit number. -/
def sl_main_pass (s : CopyState) : CopyState ⊕ CopyState :=
  if s.size = 0 then .inr s
  else
    let srce := next_block g d junk s.srce
    let n := if g.page_size < s.size then g.page_size else s.size
    .inl
      { srce := srce + g.page_size
        -- a whole page is subtracted, also from a last piece that is shorter
        size := (s.size + 2 ^ 32 - g.page_size) % 2 ^ 32
        adst := s.adst + n
        dram := memcpy s.dram s.adst (direct_read g d srce) n }

/-- The state in which the second loop is entered. -/
def sl_main_start (dram : ℕ → UInt8) : CopyState :=
  { srce := find_boot2 g d junk BOARD_FLASH_BOOT1_ADDR BOARD_FLASH_BOOT1_SIZE
    size := BOARD_FLASH_BOOT2_SIZE
    adst := 0
    dram := dram }

/-- `sl_main` comes to the second stage, with the DRAM as in `s`. -/
def SlMain (dram : ℕ → UInt8) (s : CopyState) : Prop :=
  Loop.Returns (sl_main_pass g d junk) (sl_main_start g d junk dram) s

end Loader

variable {g : FlashInfo} {d : NandDev} {junk : ℕ → UInt8}

/-! ## What is copied -/

/-- At a mapped address no block is skipped. -/
theorem next_block_mapped {srce : ℕ} (h : BOARD_FLASH_BASE_ADDR ≤ srce) :
    next_block g d junk srce = srce := by
  -- the bound is a size, the address a mapped one
  have hbound : ¬ srce < BOARD_FLASH_BOOT_SIZE := by
    unfold BOARD_FLASH_BASE_ADDR at h
    unfold BOARD_FLASH_BOOT_SIZE
    omega
  rw [next_block, skip_blocks, if_neg hbound, ite_self]

/-- The second stage is taken to begin right behind the first. -/
theorem find_boot2_eq : find_boot2 g d junk BOARD_FLASH_BOOT1_ADDR BOARD_FLASH_BOOT1_SIZE =
    BOARD_FLASH_BASE_ADDR + BOARD_FLASH_BOOT1_SIZE := by
  -- the first stage is smaller than a block, so the loop makes one pass
  have hsize : ¬ g.block_size < BOARD_FLASH_BOOT1_SIZE := by
    unfold BOARD_FLASH_BOOT1_SIZE
    have := g.geometry
    omega
  rw [find_boot2, if_neg (by decide)]
  dsimp only
  rw [if_neg hsize, @next_block_mapped g d junk BOARD_FLASH_BOOT1_ADDR le_rfl]
  rfl

/-- A pass of the second loop, with whole pages left. -/
theorem sl_main_pass_page (d : NandDev) (junk : ℕ → UInt8) {s : CopyState} {p e : ℕ}
    (hsrce : s.srce = BOARD_FLASH_BASE_ADDR + p * g.page_size)
    (hsize : s.size = (e + 1) * g.page_size) (hlt : s.size < 2 ^ 32) :
    sl_main_pass g d junk s = .inl
      { srce := BOARD_FLASH_BASE_ADDR + (p + 1) * g.page_size
        size := e * g.page_size
        adst := s.adst + g.page_size
        dram := memcpy s.dram s.adst (d.pages p) g.page_size } := by
  have hps := g.page_pos
  have hsucc : (e + 1) * g.page_size = e * g.page_size + g.page_size := Nat.succ_mul _ _
  have hn : (if g.page_size < s.size then g.page_size else s.size) = g.page_size := by
    split <;> omega
  -- no wrap around while a whole page is left
  have hwrap : (s.size + 2 ^ 32 - g.page_size) % 2 ^ 32 = e * g.page_size := by omega
  have hread : direct_read g d s.srce = d.pages p := by
    funext i
    rw [direct_read, hsrce, Nat.add_sub_cancel_left, Nat.mul_div_cancel _ hps]
  rw [sl_main_pass, if_neg (by omega)]
  dsimp only
  rw [next_block_mapped (by omega), hn, hwrap, hread, hsrce, Nat.succ_mul, Nat.add_assoc]

/-- The second loop copies `e` pages from page `p` on. -/
theorem sl_main_loop (g : FlashInfo) (d : NandDev) (junk : ℕ → UInt8) (e : ℕ) :
    ∀ (s : CopyState) (p : ℕ),
    s.srce = BOARD_FLASH_BASE_ADDR + p * g.page_size → s.size = e * g.page_size →
    s.size < 2 ^ 32 →
    ∃ r, (∀ r', Loop.Returns (sl_main_pass g d junk) s r' ↔ r' = r) ∧
      (∀ i, i < s.adst → r.dram i = s.dram i) ∧
      ∀ i, i < e * g.page_size → r.dram (s.adst + i) = data_byte g d (p * g.page_size + i) := by
  induction e with
  | zero =>
      intro s p _ hsize _
      rw [Nat.zero_mul] at hsize
      refine ⟨s, fun r' => Loop.returns_done (by rw [sl_main_pass, if_pos hsize]),
        fun _ _ => rfl, ?_⟩
      intro i hi
      rw [Nat.zero_mul] at hi
      exact absurd hi (Nat.not_lt_zero i)
  | succ e ih =>
      intro s p hsrce hsize hlt
      have hpass := sl_main_pass_page d junk hsrce hsize hlt
      have hsucc : (e + 1) * g.page_size = e * g.page_size + g.page_size := Nat.succ_mul _ _
      -- the state behind the pass, by what the induction hypothesis asks of it
      obtain ⟨s', hs', hsrce', hsize', hadst, hdram⟩ : ∃ s',
          sl_main_pass g d junk s = .inl s' ∧
          s'.srce = BOARD_FLASH_BASE_ADDR + (p + 1) * g.page_size ∧ s'.size = e * g.page_size ∧
          s'.adst = s.adst + g.page_size ∧
          s'.dram = memcpy s.dram s.adst (d.pages p) g.page_size := ⟨_, hpass, rfl, rfl, rfl, rfl⟩
      obtain ⟨r, hr, hlow, hcopy⟩ := ih s' (p + 1) hsrce' hsize' (by omega)
      rw [hadst, hdram] at hlow
      rw [hadst] at hcopy
      refine ⟨r, fun r' => (Loop.returns_again hs').trans (hr r'), ?_, ?_⟩
      · intro i hi
        -- an earlier byte: this pass and the rest write behind it
        rw [hlow i (by omega), memcpy, if_neg (by omega)]
      · intro i hi
        by_cases hip : i < g.page_size
        · -- a byte of this page
          rw [hlow _ (by omega), memcpy, if_pos (by omega), Nat.add_sub_cancel_left, data_byte,
            page_add_div p hip, Nat.mul_add_mod_of_lt hip]
        · -- a byte of the pages still to come
          have := hcopy (i - g.page_size) (by omega)
          rwa [show s.adst + g.page_size + (i - g.page_size) = s.adst + i by omega,
            show (p + 1) * g.page_size + (i - g.page_size) = p * g.page_size + i by
              rw [Nat.succ_mul]; omega] at this

/-- **What the loader copies**: the flash behind the first stage, as it is. -/
theorem sl_main_copies (g : FlashInfo) (d : NandDev) (junk dram : ℕ → UInt8) :
    ∃ s, (∀ s', SlMain g d junk dram s' ↔ s' = s) ∧ ∀ i, i < BOARD_FLASH_BOOT2_SIZE →
      s.dram i = data_byte g d (BOARD_FLASH_BOOT1_SIZE + i) := by
  -- both sizes are made of pages
  obtain ⟨p, hp⟩ : g.page_size ∣ BOARD_FLASH_BOOT1_SIZE := by
    rcases g.geometry with ⟨h, -⟩ | ⟨h, -⟩ | ⟨h, -⟩ | ⟨h, -⟩ <;> rw [h] <;> decide
  obtain ⟨e, he⟩ : g.page_size ∣ BOARD_FLASH_BOOT2_SIZE := by
    rcases g.geometry with ⟨h, -⟩ | ⟨h, -⟩ | ⟨h, -⟩ | ⟨h, -⟩ <;> rw [h] <;> decide
  obtain ⟨s, hs, -, hcopy⟩ := sl_main_loop g d junk e
    (sl_main_start g d junk dram) p
    (by rw [Nat.mul_comm, ← hp]; exact find_boot2_eq)
    (by rw [Nat.mul_comm, ← he]; rfl) (show BOARD_FLASH_BOOT2_SIZE < 2 ^ 32 by decide)
  refine ⟨s, hs, ?_⟩
  intro i hi
  have := hcopy i (by rwa [Nat.mul_comm, ← he])
  rw [Nat.mul_comm, ← hp] at this
  rwa [show (sl_main_start g d junk dram).adst = 0 by rfl, Nat.zero_add] at this

/-! ## Loader and writer -/

/-- Whatever image is stored in the `N` blocks of the boot partition, the loader
finds its second stage. -/
def LoaderAgrees (g : FlashInfo) (d : NandDev) (junk : ℕ → UInt8) (len N : ℕ) : Prop :=
  ∀ image r, ProgramReturns g d 0 image len (N * g.block_size) r → r.stat = FLASH_ERR_OK →
    ∀ dram, ∃ s, SlMain g r.dev junk dram s ∧ ∀ i, i < BOARD_FLASH_BOOT2_SIZE →
      BOARD_FLASH_BOOT1_SIZE + i < len → s.dram i = image (BOARD_FLASH_BOOT1_SIZE + i)

/-- The blocks in which the loader looks for the image. -/
def BootBlocksGood (g : FlashInfo) (d : NandDev) (len : ℕ) : Prop :=
  ∀ k, k * g.block_size < min len BOARD_FLASH_BOOTIMG_SIZE → blk_bad g d k = false

section Agree

variable {len N : ℕ}

theorem length_block_data (g : FlashInfo) (d : NandDev) (k : ℕ) :
    (block_data g d k).length = g.block_size := by
  rw [block_data, length_firstBytes]

/-- What is stored in front of block `k` when no block so far is marked. -/
theorem stored_of_good (len : ℕ) (hf : Faultless d) {k : ℕ}
    (hgood : ∀ j, j < k → blk_bad g d j = false) (image : ℕ → UInt8) :
    stored g d 0 image len k = min len (k * g.block_size) := by
  have hlength : ∀ n, n ≤ k → (good_data g d 0 n).length = n * g.block_size := by
    intro n hn
    induction n with
    | zero => simp [good_data, goodBytes]
    | succ n ih =>
        rw [good_data, goodBytes, ← good_data, List.length_append, ih (by omega), Nat.zero_add,
          hgood n hn, if_neg Bool.false_ne_true, length_block_data, Nat.succ_mul]
  rw [hf.stored, hlength k le_rfl]

theorem loaderAgrees_of_good (hf : Faultless d) (hinit : g.init = true)
    (hfit : len ≤ (good_data g d 0 N).length) (hgood : BootBlocksGood g d len) :
    LoaderAgrees g d junk len N := by
  intro image r hr _ dram
  obtain ⟨r', hret, -, -, hbytes⟩ := hf.flash_nand_program (b := 0) hinit image hfit
  rw [Nat.zero_mul] at hret
  obtain rfl := (hret r).mp hr
  obtain ⟨s, hs, hcopy⟩ := sl_main_copies g r.dev junk dram
  refine ⟨s, (hs s).mpr rfl, ?_⟩
  intro i hi hlen
  rw [hcopy i hi]
  generalize ha : BOARD_FLASH_BOOT1_SIZE + i = a at hlen
  -- the block of the byte, and no marked one up to it
  have hbs := g.block_pos
  have hdiv := Nat.div_add_mod a g.block_size
  have hmod := Nat.mod_lt a hbs
  rw [Nat.mul_comm] at hdiv
  have himg : a < BOARD_FLASH_BOOTIMG_SIZE := by
    unfold BOARD_FLASH_BOOT2_SIZE BOARD_FLASH_BOOT1_SIZE BOARD_FLASH_BOOTIMG_SIZE at *
    omega
  -- the loader reads at the address the writer used only if no block was skipped before it
  have hk : ∀ j, j ≤ a / g.block_size → blk_bad g d j = false := by
    intro j hj
    have := Nat.mul_le_mul_right g.block_size hj
    exact hgood j (by omega)
  have hstored := stored_of_good len hf (fun j hj => hk j hj.le) image
  rw [min_eq_right (by omega)] at hstored
  -- what the writer left in that block
  have hbyte := hbytes (a / g.block_size)
    (by rw [marked, Nat.zero_add]; exact hk _ le_rfl) (a % g.block_size)
  rw [hstored, Nat.zero_add, hdiv] at hbyte
  exact hbyte (by omega)

theorem not_loaderAgrees_of_bad (hf : Faultless d) (hinit : g.init = true)
    (hfit : len ≤ (good_data g d 0 N).length) (hlen : BOARD_FLASH_BOOT1_SIZE < len) {k : ℕ}
    (hk : k * g.block_size < min len BOARD_FLASH_BOOTIMG_SIZE) (hbad : blk_bad g d k = true) :
    ¬ LoaderAgrees g d junk len N := by
  intro hagree
  -- a byte of the second stage that would come from the marked block
  obtain ⟨i, hi, hlt, j, hj, ha⟩ : ∃ i, i < BOARD_FLASH_BOOT2_SIZE ∧
      BOARD_FLASH_BOOT1_SIZE + i < len ∧ ∃ j, j < g.block_size ∧
      BOARD_FLASH_BOOT1_SIZE + i = k * g.block_size + j := by
    have hbs := g.geometry
    cases k with
    | zero =>
        rw [Nat.zero_mul]
        -- block 0 holds the end of the first stage, so the byte right behind it will do
        refine ⟨0, by decide, hlen, BOARD_FLASH_BOOT1_SIZE, ?_, by omega⟩
        unfold BOARD_FLASH_BOOT1_SIZE
        omega
    | succ k =>
        rw [Nat.succ_mul] at hk ⊢
        unfold BOARD_FLASH_BOOT2_SIZE BOARD_FLASH_BOOT1_SIZE BOARD_FLASH_BOOTIMG_SIZE at *
        -- a later block is read from its first byte on
        exact ⟨k * g.block_size + g.block_size - 4 * 1024, by omega, by omega, 0, by omega,
          by omega⟩
  -- an image with no byte equal to the one in the marked block
  let image : ℕ → UInt8 := fun _ => data_byte g d (k * g.block_size + j) + 1
  obtain ⟨r, hret, hok, hkeep, -⟩ := hf.flash_nand_program (b := 0) hinit image hfit
  rw [Nat.zero_mul] at hret
  obtain ⟨s, hs, hcopy⟩ := sl_main_copies g r.dev junk fun _ => 0
  obtain ⟨s', hs', hsame⟩ := hagree image r ((hret r).mpr rfl) hok fun _ => 0
  obtain rfl := (hs s').mp hs'
  -- the writer left the marked block alone, and the loader read it
  have h₁ := hsame i hi hlt
  rw [hcopy i hi, ha, data_byte,
    hkeep k (by rw [marked, Nat.zero_add]; exact hbad) _ (by rw [block_of_addr hj, Nat.zero_add]),
    ← data_byte] at h₁
  exact absurd h₁ (by simp [image])

end Agree

/-- **When the loader agrees with the writer**: on a chip that does not fail and
has room for the image, exactly when none of the blocks in which the loader
looks for the image is marked bad (or there is no second stage). -/
theorem sl_main_agrees_iff (g : FlashInfo) (d : NandDev) (junk : ℕ → UInt8) (len N : ℕ)
    (hf : Faultless d) (hinit : g.init = true) (hfit : len ≤ (good_data g d 0 N).length) :
    LoaderAgrees g d junk len N ↔ len ≤ BOARD_FLASH_BOOT1_SIZE ∨ BootBlocksGood g d len := by
  constructor
  · intro hagree
    by_contra hnot
    obtain ⟨hlen, hgood⟩ := not_or.mp hnot
    apply hgood
    intro k hk
    by_contra hbad
    exact not_loaderAgrees_of_bad hf hinit hfit (not_le.mp hlen) hk
      (Bool.not_eq_false _ ▸ hbad) hagree
  · rintro (hlen | hgood)
    · -- nothing is compared
      intro image r _ _ dram
      obtain ⟨s, hs, -⟩ := sl_main_copies g r.dev junk dram
      exact ⟨s, (hs s).mpr rfl, fun i _ hlt => absurd hlt (by omega)⟩
    · exact loaderAgrees_of_good hf hinit hfit hgood

/-- A chip with large pages, erased, of which block 1 is marked bad. -/
def boot_g : FlashInfo := ⟨0x800, 0x20000, true, by decide⟩

def boot_dev : NandDev :=
  ⟨fun p _ => if p / 64 = 1 then 0 else 0xff,
    ⟨fun _ => false, fun _ _ => 0, fun _ => false, fun _ => none⟩, []⟩

theorem boot_dev_faultless : Faultless boot_dev := ⟨fun _ => rfl, fun _ => rfl, fun _ => rfl⟩

theorem boot_dev_bad (k : ℕ) : blk_bad boot_g boot_dev k = decide (k = 1) := by
  have hmarker : ∀ j, j < 64 → (marker boot_g boot_dev (k * boot_g.ppb + j) = 0xff ↔ k ≠ 1) := by
    intro j hj
    have hdiv : (k * boot_g.ppb + j) / 64 = k := by
      rw [show boot_g.ppb = 64 by decide]
      omega
    rw [marker, boot_dev]
    dsimp only
    rw [hdiv]
    by_cases hk : k = 1 <;> simp [hk]
  rw [Bool.eq_iff_iff, ← not_iff_not, Bool.not_eq_true, blk_bad_eq_false, hmarker 1 (by decide),
    ← Nat.add_zero (k * boot_g.ppb), hmarker 0 (by decide)]
  simp

theorem boot_dev_room_add (n : ℕ) :
    (good_data boot_g boot_dev 0 (n + 2)).length = (n + 1) * boot_g.block_size := by
  have hgood : ∀ k, k ≠ 1 → (if blk_bad boot_g boot_dev (0 + k) = true then []
      else block_data boot_g boot_dev (0 + k)).length = boot_g.block_size := by
    intro k hk
    rw [boot_dev_bad, if_neg (by simpa using hk), length_block_data]
  induction n with
  | zero =>
    have hbad : blk_bad boot_g boot_dev (0 + 1) = true := by rw [boot_dev_bad]; rfl
    rw [good_data, goodBytes, goodBytes, goodBytes, hbad, if_pos rfl, List.append_nil,
      List.nil_append, hgood 0 (by omega), Nat.zero_add, Nat.one_mul]
  | succ n ih =>
    rw [Nat.add_right_comm, good_data, goodBytes, ← good_data, List.length_append, ih,
      hgood _ (by omega), Nat.succ_mul (n + 1)]

/-- Seven of the eight blocks of the partition are good. -/
theorem boot_dev_room : (good_data boot_g boot_dev 0 8).length = 7 * 0x20000 := by
  have hbs : boot_g.block_size = 0x20000 := rfl
  rw [boot_dev_room_add 6, hbs]

/-- An image of one block is found. -/
theorem sl_main_agrees_block : LoaderAgrees boot_g boot_dev (fun _ => 0xff) 0x20000 8 := by
  refine (sl_main_agrees_iff _ _ _ _ _ boot_dev_faultless rfl ?_).mpr (.inr ?_)
  · rw [boot_dev_room]
    decide
  · intro k hk
    rw [boot_dev_bad, decide_eq_false_iff_not]
    rintro rfl
    exact absurd hk (by decide)

/-- The whole image is not: its second half is stored in block 2 and looked for
in block 1. -/
theorem sl_main_disagrees : Faultless boot_dev ∧
    BOARD_FLASH_BOOTIMG_SIZE ≤ (good_data boot_g boot_dev 0 8).length ∧
    ¬ LoaderAgrees boot_g boot_dev (fun _ => 0xff) BOARD_FLASH_BOOTIMG_SIZE 8 := by
  have hroom : BOARD_FLASH_BOOTIMG_SIZE ≤ (good_data boot_g boot_dev 0 8).length := by
    rw [boot_dev_room]
    decide
  exact ⟨boot_dev_faultless, hroom, not_loaderAgrees_of_bad boot_dev_faultless rfl hroom
    (by decide) (k := 1) (by decide) (boot_dev_bad 1)⟩

end CsBoot.Boot
