/-
Upgrading an image, `src/src/ui/ui_upgrade.c`, in the builds without NAND flash.

There are two ways: from the console (`ui_upgrade`, `ui_download`) and through
the web (`web_upgrade`, `web_program`). Both choose the place and the size of
the image by its type, erase and program the flash, and record the result in
the FIS directory. They are written out one after the other, as in the source.

The flash is a device: an erase and a program operation on a state, each with a
status that is not zero when it failed. Numbers of type `int` are integers, and
`int32` is the conversion from an unsigned word. What the console asks of the
user (whether to go on with an image that has no header, and the ^C while it
waits) is input; the download itself and the printing are left out.
-/
import CsBoot.Board
import CsBoot.Fis.Directory

set_option autoImplicit false

namespace CsBoot.Ui

open ByteMem Fis Nor

/-! ## `sys_crc16` -/

/-- `crc16_tbl` -/
def crc16_tbl : List UInt16 :=
  [0x0000, 0x1189, 0x2312, 0x329b, 0x4624, 0x57ad, 0x6536, 0x74bf,
    0x8c48, 0x9dc1, 0xaf5a, 0xbed3, 0xca6c, 0xdbe5, 0xe97e, 0xf8f7,
    0x1081, 0x0108, 0x3393, 0x221a, 0x56a5, 0x472c, 0x75b7, 0x643e,
    0x9cc9, 0x8d40, 0xbfdb, 0xae52, 0xdaed, 0xcb64, 0xf9ff, 0xe876,
    0x2102, 0x308b, 0x0210, 0x1399, 0x6726, 0x76af, 0x4434, 0x55bd,
    0xad4a, 0xbcc3, 0x8e58, 0x9fd1, 0xeb6e, 0xfae7, 0xc87c, 0xd9f5,
    0x3183, 0x200a, 0x1291, 0x0318, 0x77a7, 0x662e, 0x54b5, 0x453c,
    0xbdcb, 0xac42, 0x9ed9, 0x8f50, 0xfbef, 0xea66, 0xd8fd, 0xc974,
    0x4204, 0x538d, 0x6116, 0x709f, 0x0420, 0x15a9, 0x2732, 0x36bb,
    0xce4c, 0xdfc5, 0xed5e, 0xfcd7, 0x8868, 0x99e1, 0xab7a, 0xbaf3,
    0x5285, 0x430c, 0x7197, 0x601e, 0x14a1, 0x0528, 0x37b3, 0x263a,
    0xdecd, 0xcf44, 0xfddf, 0xec56, 0x98e9, 0x8960, 0xbbfb, 0xaa72,
    0x6306, 0x728f, 0x4014, 0x519d, 0x2522, 0x34ab, 0x0630, 0x17b9,
    0xef4e, 0xfec7, 0xcc5c, 0xddd5, 0xa96a, 0xb8e3, 0x8a78, 0x9bf1,
    0x7387, 0x620e, 0x5095, 0x411c, 0x35a3, 0x242a, 0x16b1, 0x0738,
    0xffcf, 0xee46, 0xdcdd, 0xcd54, 0xb9eb, 0xa862, 0x9af9, 0x8b70,
    0x8408, 0x9581, 0xa71a, 0xb693, 0xc22c, 0xd3a5, 0xe13e, 0xf0b7,
    0x0840, 0x19c9, 0x2b52, 0x3adb, 0x4e64, 0x5fed, 0x6d76, 0x7cff,
    0x9489, 0x8500, 0xb79b, 0xa612, 0xd2ad, 0xc324, 0xf1bf, 0xe036,
    0x18c1, 0x0948, 0x3bd3, 0x2a5a, 0x5ee5, 0x4f6c, 0x7df7, 0x6c7e,
    0xa50a, 0xb483, 0x8618, 0x9791, 0xe32e, 0xf2a7, 0xc03c, 0xd1b5,
    0x2942, 0x38cb, 0x0a50, 0x1bd9, 0x6f66, 0x7eef, 0x4c74, 0x5dfd,
    0xb58b, 0xa402, 0x9699, 0x8710, 0xf3af, 0xe226, 0xd0bd, 0xc134,
    0x39c3, 0x284a, 0x1ad1, 0x0b58, 0x7fe7, 0x6e6e, 0x5cf5, 0x4d7c,
    0xc60c, 0xd785, 0xe51e, 0xf497, 0x8028, 0x91a1, 0xa33a, 0xb2b3,
    0x4a44, 0x5bcd, 0x6956, 0x78df, 0x0c60, 0x1de9, 0x2f72, 0x3efb,
    0xd68d, 0xc704, 0xf59f, 0xe416, 0x90a9, 0x8120, 0xb3bb, 0xa232,
    0x5ac5, 0x4b4c, 0x79d7, 0x685e, 0x1ce1, 0x0d68, 0x3ff3, 0x2e7a,
    0xe70e, 0xf687, 0xc41c, 0xd595, 0xa12a, 0xb0a3, 0x8238, 0x93b1,
    0x6b46, 0x7acf, 0x4854, 0x59dd, 0x2d62, 0x3ceb, 0x0e70, 0x1ff9,
    0xf78f, 0xe606, 0xd49d, 0xc514, 0xb1ab, 0xa022, 0x92b9, 0x8330,
    0x7bc7, 0x6a4e, 0x58d5, 0x495c, 0x3de3, 0x2c6a, 0x1ef1, 0x0f78]

/-- `sys_crc16`: the checksum after `len` bytes. -/
def sys_crc16 (crc : UInt16) (datap : ℕ → UInt8) : ℕ → UInt16
  | 0 => crc
  | len + 1 =>
    let crc := sys_crc16 crc datap len
    crc >>> 8 ^^^ crc16_tbl.getD ((crc ^^^ (datap len).toUInt16) &&& 0xff).toNat 0

/-! ## `verify_image_file` -/

def IMGHDR_SIZE : ℕ := 32

/-- `IMGHDR_NAME`, with its final zero. -/
def IMGHDR_NAME : List UInt8 := ascii ['C', 'S', '-', 'B', 'O', 'O', 'T', '-', '0', '0', '1'] ++ [0]

/-- `strcmp` of the name in front of a file with `IMGHDR_NAME`. -/
def has_header (datap : ByteMem) : Bool :=
  (List.range IMGHDR_NAME.length).map datap = IMGHDR_NAME

/-- `img->checksum` -/
def hdr_checksum (datap : ByteMem) : UInt16 := (datap 30).toUInt16 ||| (datap 31).toUInt16 <<< 8

/-- `verify_image_file`: 0 with a header and its checksum, 1 without a header,
-1 when the checksum is wrong. The length of the data is taken from the header. -/
def verify_image_file (datap : ByteMem) : ℤ :=
  if !has_header datap then 1
  else
    let crc16 := sys_crc16 0xffff (fun i => datap (IMGHDR_SIZE + i)) (load32 datap 16)
    if hdr_checksum datap = crc16 ^^^ 0xffff then 0 else -1

/-! ## The flash -/

/-- A flash device with its two operations, on an address and a length. -/
structure FlashDev (σ : Type) where
  flash_erase : σ → ℕ → ℤ → σ × ℤ
  flash_program : σ → ℕ → ByteMem → ℤ → σ × ℤ

/-- The ideal device: a memory, in which an erase sets all bits of its range and
a program puts the bytes there. -/
def ideal : FlashDev ByteMem where
  flash_erase := fun m addr len =>
    (fun a => if addr ≤ a ∧ (a : ℤ) < addr + len then 0xff else m a, 0)
  flash_program := fun m addr data len =>
    (fun a => if addr ≤ a ∧ (a : ℤ) < addr + len then data (a - addr) else m a, 0)

def UPGRADE_RETRY_TIME : ℕ := 3

section Device

variable {σ : Type} (dev : FlashDev σ)

/-- The loop with `n` tries left, with the flash and `stat`. -/
def program_retry (destp : ℕ) (erase_size : ℤ) (filep : ByteMem) (got_size : ℤ) :
    ℕ → σ × ℤ → σ × ℤ
  | 0, r => r
  | n + 1, r =>
    if r.2 = 0 then r
    else
      let e := dev.flash_erase r.1 destp erase_size
      if e.2 ≠ 0 then program_retry destp erase_size filep got_size n e
      else program_retry destp erase_size filep got_size n
        (dev.flash_program e.1 destp filep got_size)

/-- `fis_write_flash` -/
def fis_write_flash (B : Board) (flash : σ) (fis : ByteMem) : σ :=
  let e := dev.flash_erase flash B.BOARD_FLASH_FIS_ADDR BOARD_FLASH_FIS_SIZE
  if e.2 ≠ 0 then e.1
  else (dev.flash_program e.1 B.BOARD_FLASH_FIS_ADDR fis BOARD_FLASH_FIS_SIZE).1

end Device

/-! ## The two ways of upgrading -/

/-- A received file. What is behind its `got_size` bytes is whatever the buffer
held. -/
structure Upload where
  filep : ByteMem
  got_size : ℤ
  nonneg : 0 ≤ got_size
  int : got_size < 2 ^ 31

/-- What the user answers. -/
structure Console where
  /-- `ui_get_confirm_key` -/
  confirm : Bool
  /-- `BOOT_BREAK_KEY` is pressed while the console waits. -/
  brk : Bool

/-- The flash and the directory in RAM. -/
structure UpgradeState (σ : Type) where
  flash : σ
  fis : ByteMem

inductive Outcome
  | no_image
  | too_large
  | checksum_error
  | aborted
  | failed
  | successful (got_size : ℤ)
deriving DecidableEq

/-- An unsigned word as an `int`. -/
def int32 (n : ℕ) : ℤ := if n < 2 ^ 31 then n else n - 2 ^ 32

/-- An `int` as an unsigned word. -/
def u32 (z : ℤ) : ℕ := (z % 2 ^ 32).toNat

section Ways

variable {σ : Type} (dev : FlashDev σ) (B : Board)

/-- `ui_download`, from the received file on. -/
def ui_download (st : UpgradeState σ) (destp : ℕ) (erase_size max_size : ℤ) (u : Upload)
    (c : Console) : UpgradeState σ × Outcome :=
  if max_size ≠ 0 ∧ u.got_size > max_size then (st, .too_large)
  else
    let rc := if destp = BOARD_FLASH_BOOT_ADDR then verify_image_file u.filep else 2
    if rc < 0 then (st, .checksum_error)
    else if rc = 1 ∧ !c.confirm then (st, .aborted)
    else if c.brk then (st, .aborted)
    else
      let filep := if rc = 0 then fun i => u.filep (i + IMGHDR_SIZE) else u.filep
      let got_size := if rc = 0 then u.got_size - IMGHDR_SIZE else u.got_size
      let erase_size := if erase_size = 0 then got_size else erase_size
      let r := program_retry dev destp erase_size filep got_size UPGRADE_RETRY_TIME (st.flash, 1)
      let st :=
        if (got_size > 0 ∧ got_size ≠ B.BOARD_FLASH_SIZE) ∧ destp ≠ B.BOARD_FLASH_FIS_ADDR then
          let fis := fis_record st.fis destp (u32 got_size) (u32 max_size) FIS_MAX_ENTRY
          ⟨fis_write_flash dev B r.1 fis, fis⟩
        else ⟨r.1, st.fis⟩
      (st, if r.2 ≠ 0 then .failed else .successful got_size)

/-- `web_program`. It moves a pointer of its own over the header, and programs
from `filep`. -/
def web_program (st : UpgradeState σ) (destp : ℕ) (erase_size max_size : ℤ) (u : Upload) :
    UpgradeState σ × Outcome :=
  let rc := if destp = BOARD_FLASH_BOOT_ADDR then verify_image_file u.filep else 2
  if rc < 0 then (st, .checksum_error)
  else
    let got_size := if rc = 0 then u.got_size - IMGHDR_SIZE else u.got_size
    if max_size ≠ 0 ∧ got_size > max_size then (st, .too_large)
    else
      let erase_size := if erase_size = 0 then got_size else erase_size
      let r := program_retry dev destp erase_size u.filep got_size UPGRADE_RETRY_TIME (st.flash, 1)
      let st :=
        if got_size > 0 ∧ got_size ≠ B.BOARD_FLASH_SIZE then
          let fis := fis_record st.fis destp (u32 max_size) (u32 got_size) FIS_MAX_ENTRY
          ⟨fis_write_flash dev B r.1 fis, fis⟩
        else ⟨r.1, st.fis⟩
      (st, if r.2 ≠ 0 then .failed else .successful got_size)

/-- The entry that is looked up for a type. -/
def named_image (fis : ByteMem) (type : ℕ) : Option ℕ :=
  match type with
  | 1 => fis_find_image fis BOARD_FIS_KERNEL_NAME
  | 3 => fis_find_image fis BOARD_FIS_RAM_DISK_NAME
  | 4 => fis_find_image fis BOARD_FIS_APPS_NAME
  | 5 => if B.BOARD_SUPPORT_TWO_CPU then fis_find_image fis BOARD_FIS_CPU2_NAME else none
  | 6 => if B.BOARD_SUPPORT_TWO_CPU then fis_find_image fis BOARD_FIS_RAM_DISK2_NAME else none
  | _ => none

/-- The choice of `destp` and `max_size` by the type, which is the same in
`ui_upgrade` and `web_upgrade`. `erase_size` is `max_size`. -/
def upgrade_target (fis : ByteMem) (type : ℕ) : Option (ℕ × ℤ) :=
  match type with
  | 0 => some (BOARD_FLASH_BOOT_ADDR, BOARD_FLASH_BOOT_SIZE)
  | 2 => some (BOARD_FLASH_BASE_ADDR, B.BOARD_FLASH_SIZE)
  | _ => (named_image B fis type).map fun img => (flash_base fis img, int32 (size fis img))

/-- `ui_upgrade` -/
def ui_upgrade (st : UpgradeState σ) (type : ℕ) (u : Upload) (c : Console) :
    UpgradeState σ × Outcome :=
  match upgrade_target B st.fis type with
  | none => (st, .no_image)
  | some (destp, max_size) => ui_download dev B st destp max_size max_size u c

/-- `web_upgrade` -/
def web_upgrade (st : UpgradeState σ) (type : ℕ) (u : Upload) : UpgradeState σ × Outcome :=
  match upgrade_target B st.fis type with
  | none => (st, .no_image)
  | some (destp, max_size) => web_program dev B st destp max_size max_size u

end Ways

/-! ## What a call comes to

Both ways refuse some files, and otherwise program `image_size` bytes and record
them. -/

/-- The image has a header that is taken off. -/
def Stripped (destp : ℕ) (u : Upload) : Prop :=
  destp = BOARD_FLASH_BOOT_ADDR ∧ verify_image_file u.filep = 0

instance (destp : ℕ) (u : Upload) : Decidable (Stripped destp u) :=
  inferInstanceAs (Decidable (_ ∧ _))

/-- `got_size` without the header. -/
def image_size (destp : ℕ) (u : Upload) : ℤ :=
  if Stripped destp u then u.got_size - IMGHDR_SIZE else u.got_size

/-- What the console programs. -/
def image_bytes (destp : ℕ) (u : Upload) : ByteMem :=
  if Stripped destp u then fun i => u.filep (i + IMGHDR_SIZE) else u.filep

/-- The console does not refuse the file. -/
structure ConsoleAccepts (destp : ℕ) (max_size : ℤ) (u : Upload) (c : Console) : Prop where
  fits : max_size ≠ 0 → u.got_size ≤ max_size
  header : destp = BOARD_FLASH_BOOT_ADDR → 0 ≤ verify_image_file u.filep
  confirmed : destp = BOARD_FLASH_BOOT_ADDR → verify_image_file u.filep = 1 → c.confirm = true
  waited : c.brk = false

/-- Nor does the web. -/
structure WebAccepts (destp : ℕ) (max_size : ℤ) (u : Upload) : Prop where
  header : destp = BOARD_FLASH_BOOT_ADDR → 0 ≤ verify_image_file u.filep
  fits : max_size ≠ 0 → image_size destp u ≤ max_size

section Calls

variable {σ : Type} {dev : FlashDev σ} {B : Board} {st : UpgradeState σ} {destp : ℕ}
  {erase_size max_size : ℤ} {u : Upload} {c : Console}

/-- `rc`, with 2 when there is no header to look for. -/
theorem rc_eq (destp : ℕ) (u : Upload) {rc : ℤ}
    (hrc : rc = if destp = BOARD_FLASH_BOOT_ADDR then verify_image_file u.filep else 2) :
    (rc = 0 ↔ Stripped destp u) ∧
    (rc < 0 ↔ ¬ (destp = BOARD_FLASH_BOOT_ADDR → 0 ≤ verify_image_file u.filep)) ∧
    (rc = 1 ↔ destp = BOARD_FLASH_BOOT_ADDR ∧ verify_image_file u.filep = 1) := by
  unfold Stripped
  by_cases h : destp = BOARD_FLASH_BOOT_ADDR
  · rw [if_pos h] at hrc
    subst hrc
    simp [h]
  · rw [if_neg h] at hrc
    subst hrc
    simp [h]

/-- A call of `ui_download` that is not refused. -/
theorem ui_download_of_accepts (h : ConsoleAccepts destp max_size u c) :
    ui_download dev B st destp erase_size max_size u c =
      let n := image_size destp u
      let r := program_retry dev destp (if erase_size = 0 then n else erase_size)
        (image_bytes destp u) n UPGRADE_RETRY_TIME (st.flash, 1)
      (if (n > 0 ∧ n ≠ B.BOARD_FLASH_SIZE) ∧ destp ≠ B.BOARD_FLASH_FIS_ADDR then
          let fis := fis_record st.fis destp (u32 n) (u32 max_size) FIS_MAX_ENTRY
          ⟨fis_write_flash dev B r.1 fis, fis⟩
        else ⟨r.1, st.fis⟩,
        if r.2 ≠ 0 then .failed else .successful n) := by
  unfold ui_download
  generalize hrc : (if destp = BOARD_FLASH_BOOT_ADDR then verify_image_file u.filep else 2) = rc
  obtain ⟨h₀, hneg, h₁⟩ := rc_eq destp u hrc.symm
  have hsize : ¬ (max_size ≠ 0 ∧ u.got_size > max_size) := fun hl =>
    absurd (h.fits hl.1) (not_le.mpr hl.2)
  have hconfirm : ¬ (rc = 1 ∧ (!c.confirm) = true) := fun hl => by
    simp [h.confirmed (h₁.mp hl.1).1 (h₁.mp hl.1).2] at hl
  dsimp only
  rw [if_neg hsize, if_neg (fun hl => hneg.mp hl h.header), if_neg hconfirm,
    if_neg (by rw [h.waited]; exact Bool.false_ne_true), image_size, image_bytes]
  simp only [h₀]

/-- A refused call of `ui_download` changes nothing. -/
theorem ui_download_of_not_accepts (h : ¬ ConsoleAccepts destp max_size u c) :
    (ui_download dev B st destp erase_size max_size u c).1 = st ∧
    (∀ n, (ui_download dev B st destp erase_size max_size u c).2 ≠ .successful n) ∧
    ((ui_download dev B st destp erase_size max_size u c).2 = .too_large →
      max_size < u.got_size) := by
  unfold ui_download
  generalize hrc : (if destp = BOARD_FLASH_BOOT_ADDR then verify_image_file u.filep else 2) = rc
  obtain ⟨h₀, hneg, h₁⟩ := rc_eq destp u hrc.symm
  dsimp only
  by_cases hsize : max_size ≠ 0 ∧ u.got_size > max_size
  · rw [if_pos hsize]
    exact ⟨rfl, nofun, fun _ => hsize.2⟩
  rw [if_neg hsize]
  by_cases hheader : rc < 0
  · rw [if_pos hheader]
    exact ⟨rfl, nofun, nofun⟩
  rw [if_neg hheader]
  by_cases hconfirm : rc = 1 ∧ (!c.confirm) = true
  · rw [if_pos hconfirm]
    exact ⟨rfl, nofun, nofun⟩
  rw [if_neg hconfirm]
  by_cases hbrk : c.brk = true
  · rw [if_pos hbrk]
    exact ⟨rfl, nofun, nofun⟩
  -- no reason is left
  refine absurd ⟨?_, not_not.mp fun hh => hheader (hneg.mpr hh), ?_, ?_⟩ h
  · intro hm
    exact not_lt.mp fun hg => hsize ⟨hm, hg⟩
  · intro hd hv
    by_contra hc
    exact hconfirm ⟨h₁.mpr ⟨hd, hv⟩, by simpa using hc⟩
  · simpa using hbrk

/-- A call of `web_program` that is not refused. -/
theorem web_program_of_accepts (h : WebAccepts destp max_size u) :
    web_program dev B st destp erase_size max_size u =
      let n := image_size destp u
      let r := program_retry dev destp (if erase_size = 0 then n else erase_size) u.filep n
        UPGRADE_RETRY_TIME (st.flash, 1)
      (if n > 0 ∧ n ≠ B.BOARD_FLASH_SIZE then
          let fis := fis_record st.fis destp (u32 max_size) (u32 n) FIS_MAX_ENTRY
          ⟨fis_write_flash dev B r.1 fis, fis⟩
        else ⟨r.1, st.fis⟩,
        if r.2 ≠ 0 then .failed else .successful n) := by
  unfold web_program
  generalize hrc : (if destp = BOARD_FLASH_BOOT_ADDR then verify_image_file u.filep else 2) = rc
  obtain ⟨h₀, hneg, -⟩ := rc_eq destp u hrc.symm
  have hn : (if rc = 0 then u.got_size - IMGHDR_SIZE else u.got_size) = image_size destp u := by
    rw [image_size]
    simp only [h₀]
  dsimp only
  rw [if_neg (fun hl => hneg.mp hl h.header), hn,
    if_neg fun hl => absurd (h.fits hl.1) (not_le.mpr hl.2)]

/-- A refused call of `web_program` changes nothing. -/
theorem web_program_of_not_accepts (h : ¬ WebAccepts destp max_size u) :
    (web_program dev B st destp erase_size max_size u).1 = st ∧
    (∀ n, (web_program dev B st destp erase_size max_size u).2 ≠ .successful n) ∧
    ((web_program dev B st destp erase_size max_size u).2 = .too_large →
      max_size < image_size destp u) := by
  unfold web_program
  generalize hrc : (if destp = BOARD_FLASH_BOOT_ADDR then verify_image_file u.filep else 2) = rc
  obtain ⟨h₀, hneg, -⟩ := rc_eq destp u hrc.symm
  have hn : (if rc = 0 then u.got_size - IMGHDR_SIZE else u.got_size) = image_size destp u := by
    rw [image_size]
    simp only [h₀]
  dsimp only
  rw [hn]
  by_cases hheader : rc < 0
  · rw [if_pos hheader]
    exact ⟨rfl, nofun, nofun⟩
  rw [if_neg hheader]
  by_cases hsize : max_size ≠ 0 ∧ image_size destp u > max_size
  · rw [if_pos hsize]
    exact ⟨rfl, nofun, fun _ => hsize.2⟩
  refine absurd ⟨not_not.mp fun hh => hheader (hneg.mpr hh), ?_⟩ h
  intro hm
  exact not_lt.mp fun hg => hsize ⟨hm, hg⟩

/-- What is not refused is not too large. -/
theorem outcome_ne_too_large (stat n : ℤ) :
    (if stat ≠ 0 then Outcome.failed else Outcome.successful n) ≠ .too_large := by
  split <;> exact nofun

end Calls

end CsBoot.Ui
