/-
The NAND chip and the page functions of `src/src/bsp/flash/flash_nand.c`, for
the build with `BOARD_SUPPORT_NAND_INDIRECT` and `BOARD_SUPPORT_SOFTECC`.

The chip is a row of pages, each with its data bytes followed by its spare
(OOB) bytes. What the driver does to it goes through a handful of register
writes that ask for one page or one block; the model keeps the requests and
drops the registers. Addresses are relative to the start of the flash, as in
this build, where every function divides them by the page size.

How the chip fails is data (`Faults`): which blocks report a failed erase, which
pages report a failed write, and what a failure leaves behind, including data
that goes wrong in a write reported as good. The OOB bytes of a write, and the
write that marks a block bad, are taken to arrive.

`NandDev.log` is a record of the requests, for the theorems only.
-/
import CsBoot.Nand.Ecc

set_option autoImplicit false

namespace CsBoot.Nand

/-! ## Geometry -/

def PAGE512_SIZE : ℕ := 0x200
def PAGE512_OOB_SIZE : ℕ := 0x10

/-- The pairs `(page_size, block_size)` of the table `supported_devices`. -/
def supported_devices : List (ℕ × ℕ) :=
  [(0x200, 0x2000), (0x200, 0x4000), (0x800, 0x20000), (0x800, 0x40000)]

/-- What the driver knows of the chip: the entry `flash_dev_info` of the device
table, and `flash_info.init`. -/
structure FlashInfo where
  page_size : ℕ
  block_size : ℕ
  init : Bool
  supported : (page_size, block_size) ∈ supported_devices

namespace FlashInfo

variable (g : FlashInfo)

def oobsize : ℕ := PAGE512_OOB_SIZE * g.page_size / PAGE512_SIZE

/-- `nand_oob_16` and `nand_oob_64`: where the code bytes are in the OOB. -/
def oobsel (i : ℕ) : ℕ :=
  if PAGE512_OOB_SIZE < g.oobsize then
    -- `nand_oob_64`, for the chips with large pages
    [40, 41, 42, 43, 44, 45, 46, 47, 48, 49, 50, 51,
      52, 53, 54, 55, 56, 57, 58, 59, 60, 61, 62, 63].getD i 0
  -- `nand_oob_16`
  else [8, 9, 10, 13, 14, 15].getD i 0

/-- Where the bad block marker is in the OOB. -/
def markp : ℕ := if PAGE512_OOB_SIZE < g.oobsize then 0 else 5

/-- Pages in a block. -/
def ppb : ℕ := g.block_size / g.page_size

theorem geometry : (g.page_size = 0x200 ∧ g.block_size = 0x2000) ∨
    (g.page_size = 0x200 ∧ g.block_size = 0x4000) ∨
    (g.page_size = 0x800 ∧ g.block_size = 0x20000) ∨
    (g.page_size = 0x800 ∧ g.block_size = 0x40000) := by
  have h := g.supported
  simpa only [supported_devices, List.mem_cons, Prod.mk.injEq, List.not_mem_nil, or_false] using h

theorem page_pos : 0 < g.page_size := by
  have h := g.geometry
  omega

theorem two_le_ppb : 2 ≤ g.ppb := by
  unfold ppb
  rcases g.geometry with ⟨h₁, h₂⟩ | ⟨h₁, h₂⟩ | ⟨h₁, h₂⟩ | ⟨h₁, h₂⟩ <;> rw [h₁, h₂] <;> decide

theorem block_eq : g.block_size = g.ppb * g.page_size := by
  unfold ppb
  rcases g.geometry with ⟨h₁, h₂⟩ | ⟨h₁, h₂⟩ | ⟨h₁, h₂⟩ | ⟨h₁, h₂⟩ <;> rw [h₁, h₂]

theorem block_pos : 0 < g.block_size := by
  have h := g.geometry
  omega

/-- The block size is a power of two, which is what the mask tests rely on. -/
theorem block_mask (a : ℕ) : a &&& (g.block_size - 1) = a % g.block_size := by
  rcases g.geometry with ⟨-, h⟩ | ⟨-, h⟩ | ⟨-, h⟩ | ⟨-, h⟩
  · rw [h]; exact Nat.and_two_pow_sub_one_eq_mod a 13
  · rw [h]; exact Nat.and_two_pow_sub_one_eq_mod a 14
  · rw [h]; exact Nat.and_two_pow_sub_one_eq_mod a 17
  · rw [h]; exact Nat.and_two_pow_sub_one_eq_mod a 18

end FlashInfo

/-! ## The chip -/

/-- The bytes of a page: `page_size` of data, then the OOB. -/
abbrev RawPage : Type := ℕ → UInt8

/-- A request to the chip. -/
inductive NandOp
  | erase (blk : ℕ)
  | program (page : ℕ)

/-- The block a request changes. -/
def NandOp.blk (g : FlashInfo) : NandOp → ℕ
  | .erase b => b
  | .program p => p / g.ppb

/-- How the chip fails, by block and by page. -/
structure Faults where
  /-- `StatusCheck` fails after the erase of a block. -/
  erase_fails : ℕ → Bool
  /-- What a failed erase leaves in a page. -/
  erase_left : ℕ → RawPage
  /-- `StatusCheck` fails after a write of a page. -/
  prog_fails : ℕ → Bool
  /-- What a write leaves as the data of a page where it goes wrong. -/
  prog_left : ℕ → Option RawPage

structure NandDev where
  pages : ℕ → RawPage
  faults : Faults
  log : List NandOp

/-- `PASS` and `FAIL`. -/
inductive Status
  | PASS
  | FAIL
deriving DecidableEq

/-- The codes of `flash_err_msg` that the NAND functions return. -/
inductive FlashErr
  | FLASH_ERR_OK
  | FLASH_ERR_ERASE
  | FLASH_ERR_PROGRAM
  | FLASH_ERR_NOT_INIT
  | FLASH_ERR_HWR
deriving DecidableEq

open Status FlashErr

namespace NandDev

/-- Erase a block. -/
def erase (g : FlashInfo) (d : NandDev) (b : ℕ) : NandDev :=
  { d with
    pages := fun p =>
      if p / g.ppb = b then
        -- a block whose erase fails is left as the chip leaves it
        if d.faults.erase_fails b then d.faults.erase_left p else fun _ => 0xff
      else d.pages p
    log := d.log ++ [.erase b] }

/-- Write a page. Writing clears bits and sets none. -/
def program (g : FlashInfo) (d : NandDev) (p : ℕ) (raw : RawPage) : NandDev :=
  { d with
    pages := Function.update d.pages p fun i =>
      -- a fault touches the data bytes only
      if i < g.page_size then (d.faults.prog_left p).getD (fun i => d.pages p i &&& raw i) i
      else d.pages p i &&& raw i
    log := d.log ++ [.program p] }

/-- The write that marks a block bad. -/
def mark (d : NandDev) (p : ℕ) (raw : RawPage) : NandDev :=
  { d with
    pages := Function.update d.pages p fun i => d.pages p i &&& raw i
    log := d.log ++ [.program p] }

end NandDev

/-! ## `flash_erase_block` -/

/-- `flash_erase_block`. The chip erases the block of the page addressed. -/
def flash_erase_block (g : FlashInfo) (d : NandDev) (addr : ℕ) : NandDev × FlashErr :=
  let b := addr / g.page_size / g.ppb
  (d.erase g b, if d.faults.erase_fails b then FLASH_ERR_ERASE else FLASH_ERR_OK)

/-! ## `pageread` -/

/-- The first `n` steps of the ECC loop of `pageread`, on the page as read. -/
def pageread_ecc (g : FlashInfo) (raw : RawPage) : ℕ → Status × (ℕ → UInt8)
  | 0 => (PASS, raw)
  | n + 1 =>
    let r := pageread_ecc g raw n
    -- the loop of the source is left at the first piece it cannot correct
    if r.1 = FAIL then r
    else
      let oob := fun j => raw (g.page_size + j)
      let sel := g.oobsel (3 * n)
      let dat := fun i => r.2 (256 * n + i)
      -- the stored code against the code of the piece as it is read
      let c := nand_correct_data dat ⟨oob sel, oob (sel + 1), oob (sel + 2)⟩ (nand_page_ECC dat)
      if c.1 = -1 then (FAIL, r.2)
      else (PASS, fun i => if i < 256 * n then r.2 i else c.2.1 (i - 256 * n))

/-- `pageread`: the page at an address, corrected. -/
def pageread (g : FlashInfo) (d : NandDev) (page_add : ℕ) : Status × (ℕ → UInt8) :=
  pageread_ecc g (d.pages (page_add / g.page_size)) (g.page_size / 256)

/-- The data byte at an address, as `pageread` delivers it. -/
def read_byte (g : FlashInfo) (d : NandDev) (a : ℕ) : UInt8 :=
  (pageread g d a).2 (a % g.page_size)

/-! ## `pagewrite` -/

/-- The OOB that `pagewrite` prepares: all ones, and the codes of the first `n`
pieces of 256 bytes. -/
def pagewrite_oob (g : FlashInfo) (data : ℕ → UInt8) : ℕ → ℕ → UInt8
  | 0 => fun _ => 0xff
  | n + 1 =>
    let e := nand_page_ECC fun i => data (256 * n + i)
    let oob := Function.update (pagewrite_oob g data n) (g.oobsel (3 * n)) e.ecc0
    let oob := Function.update oob (g.oobsel (3 * n + 1)) e.ecc1
    Function.update oob (g.oobsel (3 * n + 2)) e.ecc2

/-- The page that `pagewrite` sends. -/
def pagewrite_raw (g : FlashInfo) (data : ℕ → UInt8) : RawPage := fun i =>
  if i < g.page_size then data i
  else pagewrite_oob g data (g.page_size / 256) (i - g.page_size)

/-- `pagewrite`: write a page and read it back. What `pageread` returns is not
looked at, only the bytes it delivers. -/
def pagewrite (g : FlashInfo) (d : NandDev) (addr : ℕ) (data : ℕ → UInt8) : NandDev × Status :=
  let p := addr / g.page_size
  let d' := d.program g p (pagewrite_raw g data)
  let tmp_buf := (pageread g d' (p * g.page_size)).2
  -- `StatusCheck` comes before the comparison
  if d.faults.prog_fails p then (d', FAIL)
  else if ∀ i, i < g.page_size → data i = tmp_buf i then (d', PASS)
  else (d', FAIL)

/-! ## `flash_program_buf` -/

/-- `flash_program_buf`. A last piece shorter than a page is padded in
`wt_buff`. -/
def flash_program_buf (g : FlashInfo) (d : NandDev) (addr : ℕ) (data : ℕ → UInt8) (len : ℕ) :
    NandDev × FlashErr :=
  if _h : len = 0 then (d, FLASH_ERR_OK)
  else
    -- the tail of the data goes out as a full page, padded with `0xff`
    let size := if len < g.page_size then len else g.page_size
    let buf := if len < g.page_size then fun i => if i < len then data i else 0xff else data
    let r := pagewrite g d addr buf
    if r.2 ≠ PASS then (r.1, FLASH_ERR_PROGRAM)
    else flash_program_buf g r.1 (addr + size) (fun i => data (size + i)) (len - size)
termination_by len
decreasing_by
  have := g.page_pos
  split <;> omega

/-! ## The bad block marker -/

/-- `VeffBad`: the markers of the first and the second page of a block. -/
def VeffBad (g : FlashInfo) (d : NandDev) (page_add : ℕ) : Status :=
  let marker := fun a => d.pages (a / g.page_size) (g.page_size + g.markp)
  if marker page_add ≠ 0xff then FAIL
  else if marker (page_add + g.page_size) ≠ 0xff then FAIL
  else PASS

/-- `nand_block_markbad`: a zero marker into the first and the second page, by
`pagewritefs` without verification. -/
def nand_block_markbad (g : FlashInfo) (d : NandDev) (page_add : ℕ) : NandDev :=
  let wt_buff : RawPage := fun i => if i = g.page_size + g.markp then 0 else 0xff
  let d := d.mark (page_add / g.page_size) wt_buff
  d.mark ((page_add + g.page_size) / g.page_size) wt_buff

end CsBoot.Nand
