/-
Booting from the FIS directory: `fis_load_images` of `src/src/sys/sys_fis.c`, which
`sys_load_kernel` calls.

The directory and what is loaded are in one memory, in which the entries are read again in
every pass, so that an image that is loaded over the directory changes what the rest of the
loop does. An image comes from a flash that is mapped into that memory, word by word or byte
by byte, or from NAND flash through `nand_read` of `src/src/sys/sys_string.c`, whose loop need
not end; so the passes are relations between the state before and after.

The caches, the interrupts, `hal_flash_enable`, printing and the registers of the LPC and PCI
controllers are left out.
-/
import CsBoot.Lib.Copy
import CsBoot.Nand.ReadBuf
import CsBoot.Fis.Map

set_option autoImplicit false

namespace CsBoot.Fis

open ByteMem Nand Ui.Build

/-! ## The board -/

def SL2312_FLASH_BASE : ℕ := 0x30000000

/-- What `fis_load_images` finds on the board. -/
structure LoadBoard extends FisBuild where
  BOARD_SUPPORT_NAND_INDIRECT : Bool
  BOARD_DRAM_CPU2_ADDR : ℕ
  CPU2_BOOT_OFFSET : ℕ
  exception_handlers : ℕ
  exception_handlers_end : ℕ
  /-- `REG32(SL2312_FLASH_CTRL_BASE + 0x0c)` -/
  flash_type : ℕ
  nand_present : Bool
  flash_dev_info : FlashInfo
  chip : NandDev
  /-- What `StatusCheck` returns while entry `j` is loaded. -/
  StatusCheck : ℕ → ℕ → Status
  fis_datap : ℕ

section Fields

variable (fis : ByteMem) (img : ℕ)

/-- `img->file.mem_base` -/
def mem_base : ℕ := load32 fis (img + 20)

/-- `img->file.entry_point` -/
def entry_point : ℕ := load32 fis (img + 28)

/-- The entry is in use, and has somewhere to be loaded from and to. -/
def has_image : Prop :=
  fis img ≠ 0xff ∧ fis img ≠ 0 ∧ desc_cksum fis img = fis_desc_chksum fis img ∧
    flash_base fis img ≠ 0 ∧ mem_base fis img ≠ 0

/-- `continue` -/
def passed_over : Prop :=
  strncasecmp BOARD_FIS_BOOT_NAME fis img = 0 ∨ strncasecmp BOARD_FIS_DIRECTORY_NAME fis img = 0 ∨
    entry_point fis img = 0

/-- The entry is loaded. -/
def loadable : Prop := has_image fis img ∧ ¬ passed_over fis img

/-- `((img->file.size + 3) & ~3) / 4` -/
def image_words : ℕ := ((size fis img + 3) % W &&& 0xfffffffc) / 4

instance : Decidable (has_image fis img) := inferInstanceAs (Decidable (_ ∧ _))
instance : Decidable (passed_over fis img) := inferInstanceAs (Decidable (_ ∨ _))
instance : Decidable (loadable fis img) := inferInstanceAs (Decidable (_ ∧ _))

end Fields

/-! ## The copy -/

section Load

variable (B : LoadBoard)

/-- `(value & 0x1000) == 0x1000`, of the bits `0x1f00` of the register. -/
def nand_type : Prop := (B.flash_type &&& 0x1f00) &&& 0x1000 = 0x1000

instance : Decidable (nand_type B) := inferInstanceAs (Decidable (_ = _))

/-- The address that `nand_read` gives to `flash_read_buf`. -/
def nand_addr (src : ℕ) : ℕ :=
  if B.BOARD_SUPPORT_NAND_INDIRECT then src - SL2312_FLASH_BASE else src

/-- `nand_read`, while entry `j` is loaded. Its body is empty without `BOARD_NAND_BOOT`. -/
def NandRead (j : ℕ) (m : ByteMem) (dst src count : ℕ) (m' : ByteMem) : Prop :=
  if B.BOARD_NAND_BOOT then
    ∃ r, FlashReadBuf B.flash_dev_info B.chip (B.StatusCheck j) (nand_addr B src)
        (fun i => m (dst + i)) (Ui.int32 count).toNat r ∧
      m' = fun x => if dst ≤ x then r.buf (x - dst) else m x
  else m' = m

/-- The two conditions of `sys_memcpy` under which the source is not in the memory. -/
def from_nand (srce : ℕ) : Prop :=
  nand_type B ∧ BOARD_FLASH_BASE_ADDR ≤ srce ∧ srce < 0x40000000 ∧ B.nand_present

instance (srce : ℕ) : Decidable (from_nand B srce) := inferInstanceAs (Decidable (_ ∧ _))

/-- `sys_memcpy`, while entry `j` is loaded. -/
def SysMemcpy (j : ℕ) (m : ByteMem) (dest srce size : ℕ) (m' : ByteMem) : Prop :=
  if from_nand B srce then NandRead B j m dest srce size m'
  else m' = copy_bytes m dest srce size

/-! ## The loop -/

/-- The variables of the loop, and the memory. -/
structure LoadState where
  mem : ByteMem
  apps_routine : ℕ
  cpu2_base : ℕ

/-- The directory, where `fis_datap` points. -/
def directory (m : ByteMem) : ByteMem := fun i => m (B.fis_datap + i)

/-- The pass for entry `j`. -/
def LoadsEntry (s : LoadState) (j : ℕ) (s' : LoadState) : Prop :=
  let fis := directory B s.mem
  let img := entry j
  if loadable fis img then
    s'.apps_routine = (if s.apps_routine = 0 then entry_point fis img else s.apps_routine) ∧
    s'.cpu2_base =
      (if B.BOARD_SUPPORT_TWO_CPU ∧ strncasecmp Nor.BOARD_FIS_CPU2_NAME fis img = 0 then
        sub32 (entry_point fis img) B.CPU2_BOOT_OFFSET
      else s.cpu2_base) ∧
    if nand_type B then
      SysMemcpy B j s.mem (mem_base fis img) (flash_base fis img) (data_length fis img) s'.mem
    else s'.mem = copy_words s.mem (mem_base fis img) (flash_base fis img) (image_words fis img)
  else s' = s

/-- The first `n` passes. -/
def LoadLoop (s : LoadState) : ℕ → LoadState → Prop
  | 0, s' => s' = s
  | n + 1, s' => ∃ s₁, LoadLoop s n s₁ ∧ LoadsEntry B s₁ n s'

def load_start (m : ByteMem) : LoadState := ⟨m, 0, B.BOARD_DRAM_CPU2_ADDR⟩

/-! ## Behind the loop -/

/-- What the processors go on with: the memory, the address at which the second one starts
(`REG32(0x66000040)`), and the routine that `sys_run_apps` calls. -/
structure Booted where
  mem : ByteMem
  cpu2_start : Option ℕ
  apps_routine : Option ℕ

/-- `_exception_handlers_end - _exception_handlers` -/
def vectors_size : ℕ := sub32 B.exception_handlers_end B.exception_handlers

/-- The second processor has vectors of its own. -/
def has_vectors : Prop := B.BOARD_SUPPORT_TWO_CPU ∧ B.CPU2_BOOT_OFFSET ≠ 0

instance : Decidable (has_vectors B) := inferInstanceAs (Decidable (_ ∧ _))

/-- The vectors are copied to the front of its memory. -/
def install_vectors (m : ByteMem) (cpu2_base : ℕ) : ByteMem :=
  if has_vectors B then
    copy_bytes m cpu2_base B.exception_handlers (vectors_size B)
  else m

/-- Where the second processor starts. -/
def cpu2_start (cpu2_base : ℕ) : ℕ :=
  if cpu2_base = 0xE000000 then (cpu2_base + 32) % W
  else if cpu2_base = 0x6000000 then (cpu2_base + 32) % W
  else (cpu2_base + 64) % W

def boot_of (s : LoadState) : Booted where
  mem := install_vectors B s.mem s.cpu2_base
  cpu2_start := if B.BOARD_SUPPORT_TWO_CPU then some (cpu2_start s.cpu2_base) else none
  apps_routine := if s.apps_routine ≠ 0 then some s.apps_routine else none

/-- `fis_load_images` comes to its end, with this. -/
def FisLoadImages (m : ByteMem) (r : Booted) : Prop :=
  ∃ s, LoadLoop B (load_start B m) FIS_MAX_ENTRY s ∧ r = boot_of B s

end Load

/-! ## An entry as it was -/

section Entry

variable {fis fis' : ByteMem} {img i j : ℕ} {filename : List UInt8}

theorem entry_add_lt (hj : j < FIS_MAX_ENTRY) (hi : i < FIS_ENTRY_SIZE) :
    entry j + i < FIS_TOTAL_SIZE := by
  unfold entry FIS_TOTAL_SIZE FIS_MAX_ENTRY FIS_ENTRY_SIZE at *
  omega

/-- The same directory has the same entries. -/
theorem sameEntry_of_total (h : ∀ i, i < FIS_TOTAL_SIZE → fis i = fis' i) (hj : j < FIS_MAX_ENTRY) :
    SameEntry (entry j) fis fis' :=
  fun _ hi => h _ (entry_add_lt hj hi)

theorem SameEntry.strncasecmp_eq (h : SameEntry img fis fis') (hlen : filename.length < 256) :
    strncasecmp filename fis img = strncasecmp filename fis' img :=
  strncasecmp_congr fun i hi => h i (by unfold FIS_ENTRY_SIZE; omega)

/-- Whether an entry is loaded depends on the entry. -/
theorem SameEntry.loadable_iff (h : SameEntry img fis fis') (himg : img + FIS_ENTRY_SIZE ≤ W) :
    loadable fis img ↔ loadable fis' img := by
  have hword : ∀ o, o + 4 ≤ FIS_ENTRY_SIZE → load32 fis (img + o) = load32 fis' (img + o) :=
    fun o ho => h.load32_eq himg ho
  have hfirst : fis img = fis' img := h 0 (by decide)
  unfold loadable has_image passed_over desc_cksum flash_base mem_base entry_point
  rw [hfirst, hword 248 (by decide), hword 16 (by decide), hword 20 (by decide),
    hword 28 (by decide), h.chksum_eq, h.strncasecmp_eq (by decide), h.strncasecmp_eq (by decide)]

end Entry

end CsBoot.Fis
