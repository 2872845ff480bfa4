/-
The four routines of `src/src/ide/ide.c` that transfer sectors: reading and
writing through the data register (`ide_disk_read_sectors`,
`ide_disk_write_sectors`) and by DMA (`ide_disk_read_dma`, `ide_disk_write_dma`).

Each of them programs the registers of the drive by itself, with the same bytes in
the same order (`task28`, `task48`), but for `ide_disk_write_dma` on a disk with
48-bit addresses, which has its own. What the controller answers (that the drive is
ready, that it wants data, the interrupt and the status at the end) is a parameter.

`USB_SPEED_UP` is set, as in both board configurations: a DMA read of
`SW_PIPE_SIZE` bytes or more is not waited for. The bus-master registers are left
out but for the length of the buffer in the descriptor table.
-/
import CsBoot.Ide.TaskFile

set_option autoImplicit false

namespace CsBoot.Ide

def IDE_SECTOR_SIZE : ℕ := 512
def SW_PIPE_SIZE : ℕ := 8192
def IDE_STAT_ERR : ℕ := 0x01

def WIN_READDMA : ℕ := 0xC8
def WIN_WRITEDMA : ℕ := 0xCA
def WIN_READDMA_EXT : ℕ := 0x25
def WIN_WRITEDMA_EXT : ℕ := 0x35

/-- The fields of `IDE_DISK_T` that the routines read. -/
structure IDE_DISK_T where
  drive_id : ℕ
  lba_48 : Bool

/-- What the controller answers during a call. -/
structure Answers where
  /-- `ide_wait_busy`: the drive is ready for a command. -/
  ready : Bool
  /-- `ide_wait_drq` for each sector in turn. -/
  drq : ℕ → Bool
  /-- `ide_wait_interrupt` sees the interrupt. -/
  irq : Bool
  /-- `IDE_REG_STATUS` at the end. -/
  status : ℕ
  async_io : Bool

/-! ## The register writes -/

/-- The registers of a command with a 28-bit address. -/
def task28 (disk : IDE_DISK_T) (start count code : ℕ) : List (Reg × ℕ) :=
  [(.COUNT, count),
    (.LBALOW, start &&& 0xff),
    (.LBAMID, start >>> 8 &&& 0xff),
    (.LBAHI, start >>> 16 &&& 0xff),
    (.DEVICE, (start >>> 24 &&& 0xf) ||| disk.drive_id <<< 4 ||| 0x40),
    (.COMMAND, code)]

/-- The registers of a command with a 48-bit address, high-order bytes first. -/
def task48 (disk : IDE_DISK_T) (start count code : ℕ) : List (Reg × ℕ) :=
  [(.COUNT, count >>> 8 &&& 0xff),
    (.COUNT, count &&& 0xff),
    (.LBALOW, start >>> 24 &&& 0xff),
    (.LBAMID, start >>> 32 &&& 0xff),
    (.LBAHI, start >>> 40 &&& 0xff),
    (.LBALOW, start &&& 0xff),
    (.LBAMID, start >>> 8 &&& 0xff),
    (.LBAHI, start >>> 16 &&& 0xff),
    (.DEVICE, disk.drive_id <<< 4 ||| 0x40),
    (.COMMAND, code)]

/-- The same in `ide_disk_write_dma`, where two of the bytes are constants. -/
def task48_write_dma (disk : IDE_DISK_T) (start count code : ℕ) : List (Reg × ℕ) :=
  [(.COUNT, count >>> 8 &&& 0xff),
    (.COUNT, count &&& 0xff),
    (.LBALOW, start >>> 24 &&& 0xff),
    (.LBAMID, 0),
    (.LBAHI, 0),
    (.LBALOW, start &&& 0xff),
    (.LBAMID, start >>> 8 &&& 0xff),
    (.LBAHI, start >>> 16 &&& 0xff),
    (.DEVICE, disk.drive_id <<< 4 ||| 0x40),
    (.COMMAND, code)]

/-! ## Through the data register -/

/-- A call that moves its data through the data register: what it returns, what it
writes to the registers, and how many sectors it moves. -/
structure Pio where
  rc : ℕ
  regs : List (Reg × ℕ)
  sectors : ℕ

/-- `ide_disk_read_sectors` -/
def ide_disk_read_sectors (a : Answers) (disk : IDE_DISK_T) (start count : ℕ) : Pio :=
  if !a.ready then ⟨0, [], 0⟩
  else
    let regs :=
      if !disk.lba_48 then task28 disk start count 0x20 else task48 disk start count 0x24
    let sectors := ((List.range count).takeWhile a.drq).length
    ⟨if sectors = count then 1 else 0, regs, sectors⟩

/-- `ide_disk_write_sectors`: one sector, whatever the number of bytes. -/
def ide_disk_write_sectors (a : Answers) (disk : IDE_DISK_T) (start : ℕ) : Pio :=
  if !a.ready then ⟨0, [], 0⟩
  else
    let regs := if !disk.lba_48 then task28 disk start 1 0x30 else task48 disk start 1 0x34
    if !a.drq 0 then ⟨0, regs, 0⟩ else ⟨1, regs, 1⟩

/-- The data of `ide_disk_write_sectors`: the words of the buffer that begin before
`bytes`, and zeros. -/
def write_sectors_data (bytes : ℕ) (buf : ℕ → UInt8) : ℕ → UInt8 := fun b =>
  if b / 4 * 4 < bytes then buf b else 0

/-! ## By DMA -/

/-- A call that moves its data by DMA, with the number of bytes in the descriptor
table once that is set up. -/
structure Dma where
  rc : ℕ
  regs : List (Reg × ℕ)
  prd : Option ℕ

/-- `if(n_byte&0x1ff) n_byte = (n_byte+512)&(~0x1ff)` -/
def round_sectors (n_byte : ℕ) : ℕ :=
  if n_byte &&& 0x1ff ≠ 0 then (n_byte + 512) % 2 ^ 32 / 512 * 512 else n_byte

/-- The `UINT16 count` of a rounded length. -/
def dma_count (n_byte : ℕ) : ℕ := n_byte >>> 9 % 2 ^ 16

/-- The end of a DMA command that is waited for. -/
def dma_status (a : Answers) : ℕ :=
  if !a.irq then 0 else if a.status &&& IDE_STAT_ERR ≠ 0 then 0 else 1

/-- `ide_disk_read_dma` -/
def ide_disk_read_dma (a : Answers) (disk : IDE_DISK_T) (start n_byte : ℕ) : Dma :=
  let n_byte := round_sectors n_byte
  if !a.ready then ⟨0, [], none⟩
  else
    let count := dma_count n_byte
    let regs :=
      if !disk.lba_48 then task28 disk start count WIN_READDMA
      else task48 disk start count WIN_READDMA_EXT
    ⟨if a.async_io then 1 else if n_byte ≥ SW_PIPE_SIZE then 1 else dma_status a, regs,
      some n_byte⟩

/-- `ide_disk_write_dma` -/
def ide_disk_write_dma (a : Answers) (disk : IDE_DISK_T) (start n_byte : ℕ) : Dma :=
  let n_byte := round_sectors n_byte
  if !a.ready then ⟨0, [], none⟩
  else
    let count := dma_count n_byte
    let regs :=
      if !disk.lba_48 then task28 disk start count WIN_WRITEDMA
      else task48_write_dma disk start count WIN_WRITEDMA_EXT
    ⟨if a.async_io then 1 else dma_status a, regs, some n_byte⟩

/-! ## What the drive makes of the registers -/

theorem and_ff (n : ℕ) : n &&& 0xff = n % 2 ^ 8 := Nat.and_two_pow_sub_one_eq_mod n 8

theorem and_f (n : ℕ) : n &&& 0xf = n % 2 ^ 4 := Nat.and_two_pow_sub_one_eq_mod n 4

theorem and_1ff (n : ℕ) : n &&& 0x1ff = n % 2 ^ 9 := Nat.and_two_pow_sub_one_eq_mod n 9

/-- The device register has the LBA bit, whatever else is put into it. -/
theorem device_lba (x : ℕ) : ((x ||| 0x40) % 2 ^ 8).testBit 6 = true := by
  rw [Nat.testBit_mod_two_pow, Nat.testBit_or, show Nat.testBit 0x40 6 = true from rfl]
  simp

/-- Its low four bits are the top bits of the address, whatever the drive is. -/
theorem device_low (x d : ℕ) :
    ((x &&& 0xf) ||| d <<< 4 ||| 0x40) % 2 ^ 8 % 2 ^ 4 = x % 2 ^ 4 := by
  apply Nat.eq_of_testBit_eq
  intro i
  simp only [and_f, Nat.testBit_mod_two_pow, Nat.testBit_or, Nat.testBit_shiftLeft]
  by_cases hi : i < 4
  · have h40 : Nat.testBit 0x40 i = false := by
      interval_cases i <;> rfl
    simp [hi, h40, show i < 8 by omega, show ¬ 4 ≤ i by omega]
  · simp [hi]

variable (t : TaskFile) (disk : IDE_DISK_T) (start count : ℕ)

/-- The 28-bit registers name the low 28 bits of the address and the low eight bits
of the count. -/
theorem commands_task28 {code : ℕ} {w : Bool} (hcode : code_of (code % 2 ^ 8) = some ⟨w, false⟩) :
    t.commands (task28 disk start count code) =
      [⟨w, start % 2 ^ 28, count_of (count % 2 ^ 8) (2 ^ 8)⟩] := by
  have hlow := device_low (start >>> 24) disk.drive_id
  have hlba := device_lba ((start >>> 24 &&& 0xf) ||| disk.drive_id <<< 4)
  simp only [task28, TaskFile.commands, TaskFile.command, TaskFile.write, TwoDeep.push, hcode,
    hlba, hlow, and_ff]
  simp only [Nat.shiftRight_eq_div_pow, Bool.not_true, Bool.false_eq_true, if_false,
    Option.toList_some, List.append_nil, List.cons.injEq, Command.mk.injEq, and_true, true_and]
  omega

/-- The 48-bit registers name the low 48 bits of the address and the low sixteen
bits of the count. -/
theorem commands_task48 {code : ℕ} {w : Bool} (hcode : code_of (code % 2 ^ 8) = some ⟨w, true⟩) :
    t.commands (task48 disk start count code) =
      [⟨w, start % 2 ^ 48, count_of (count % 2 ^ 16) (2 ^ 16)⟩] := by
  have hlba := device_lba (disk.drive_id <<< 4)
  have hcount : count % 2 ^ 8 + 2 ^ 8 * (count / 2 ^ 8 % 2 ^ 8) = count % 2 ^ 16 := by omega
  simp only [task48, TaskFile.commands, TaskFile.command, TaskFile.write, TwoDeep.push, hcode,
    hlba, and_ff]
  simp only [Nat.shiftRight_eq_div_pow, Bool.not_true, Bool.false_eq_true, if_false, if_true,
    Option.toList_some, List.append_nil, List.cons.injEq, Command.mk.injEq, and_true, true_and,
    Nat.mod_mod, hcount]
  omega

/-- In `ide_disk_write_dma` they name the low 32 bits of the address. -/
theorem commands_task48_write_dma {code : ℕ} {w : Bool}
    (hcode : code_of (code % 2 ^ 8) = some ⟨w, true⟩) :
    t.commands (task48_write_dma disk start count code) =
      [⟨w, start % 2 ^ 32, count_of (count % 2 ^ 16) (2 ^ 16)⟩] := by
  have hlba := device_lba (disk.drive_id <<< 4)
  have hcount : count % 2 ^ 8 + 2 ^ 8 * (count / 2 ^ 8 % 2 ^ 8) = count % 2 ^ 16 := by omega
  simp only [task48_write_dma, TaskFile.commands, TaskFile.command, TaskFile.write, TwoDeep.push,
    hcode, hlba, and_ff]
  simp only [Nat.shiftRight_eq_div_pow, Bool.not_true, Bool.false_eq_true, if_false, if_true,
    Option.toList_some, List.append_nil, List.cons.injEq, Command.mk.injEq, and_true, true_and,
    Nat.mod_mod, hcount]
  omega

/-! ## The four routines

`lba_limit` and `max_count` are what the addresses and the counts of a disk can
hold. -/

/-- The sectors that the addresses of a disk can name. -/
def lba_limit : ℕ := if disk.lba_48 then 2 ^ 48 else 2 ^ 28

/-- The most sectors of one command. -/
def max_count : ℕ := if disk.lba_48 then 2 ^ 16 else 2 ^ 8

/-- The sectors that the addresses of `ide_disk_write_dma` can name. -/
def write_dma_limit : ℕ := if disk.lba_48 then 2 ^ 32 else 2 ^ 28

/-- What the count registers make of a number of sectors. -/
def named_count (n : ℕ) : ℕ := count_of (n % max_count disk) (max_count disk)

variable {a : Answers}

theorem commands_read_sectors (ha : a.ready = true) :
    t.commands (ide_disk_read_sectors a disk start count).regs =
      [⟨false, start % lba_limit disk, named_count disk count⟩] := by
  unfold ide_disk_read_sectors lba_limit named_count max_count
  by_cases h48 : disk.lba_48
  · simp only [ha, h48, Bool.not_true, Bool.false_eq_true, if_false, if_true]
    exact commands_task48 t disk start count rfl
  · simp only [ha, h48, Bool.not_true, Bool.not_false, Bool.false_eq_true, if_false, if_true]
    exact commands_task28 t disk start count rfl

theorem commands_write_sectors (ha : a.ready = true) :
    t.commands (ide_disk_write_sectors a disk start).regs =
      [⟨true, start % lba_limit disk, 1⟩] := by
  have hregs : (ide_disk_write_sectors a disk start).regs =
      if !disk.lba_48 then task28 disk start 1 0x30 else task48 disk start 1 0x34 := by
    simp only [ide_disk_write_sectors, ha, Bool.not_true, Bool.false_eq_true, if_false]
    split <;> rfl
  rw [hregs]
  unfold lba_limit
  by_cases h48 : disk.lba_48
  · simp only [h48, Bool.not_true, Bool.false_eq_true, if_false, if_true]
    exact commands_task48 t disk start 1 rfl
  · simp only [h48, Bool.not_false, Bool.false_eq_true, if_false, if_true]
    exact commands_task28 t disk start 1 rfl

theorem named_count_dma (n : ℕ) :
    count_of (dma_count n % max_count disk) (max_count disk) = named_count disk (n / 2 ^ 9) := by
  unfold named_count dma_count
  rw [Nat.shiftRight_eq_div_pow, Nat.mod_mod_of_dvd]
  unfold max_count
  split <;> decide

theorem commands_read_dma (ha : a.ready = true) (n_byte : ℕ) :
    t.commands (ide_disk_read_dma a disk start n_byte).regs =
      [⟨false, start % lba_limit disk, named_count disk (round_sectors n_byte / 2 ^ 9)⟩] := by
  rw [← named_count_dma]
  unfold ide_disk_read_dma lba_limit max_count
  by_cases h48 : disk.lba_48
  · simp only [ha, h48, Bool.not_true, Bool.false_eq_true, if_false, if_true]
    exact commands_task48 t disk start _ rfl
  · simp only [ha, h48, Bool.not_true, Bool.not_false, Bool.false_eq_true, if_false, if_true]
    exact commands_task28 t disk start _ rfl

theorem commands_write_dma (ha : a.ready = true) (n_byte : ℕ) :
    t.commands (ide_disk_write_dma a disk start n_byte).regs =
      [⟨true, start % write_dma_limit disk,
        named_count disk (round_sectors n_byte / 2 ^ 9)⟩] := by
  rw [← named_count_dma]
  unfold ide_disk_write_dma write_dma_limit max_count
  by_cases h48 : disk.lba_48
  · simp only [ha, h48, Bool.not_true, Bool.false_eq_true, if_false, if_true]
    exact commands_task48_write_dma t disk start _ rfl
  · simp only [ha, h48, Bool.not_true, Bool.not_false, Bool.false_eq_true, if_false, if_true]
    exact commands_task28 t disk start _ rfl

/-- A length that is not near the end of 32 bits is rounded up to whole sectors. -/
theorem round_sectors_div {n_byte : ℕ} (h : n_byte + 512 < 2 ^ 32) :
    round_sectors n_byte / 2 ^ 9 = (n_byte + 511) / 512 := by
  unfold round_sectors
  rw [and_1ff]
  split <;> omega

theorem named_count_of_le {n : ℕ} (h₀ : 0 < n) (h : n ≤ max_count disk) :
    named_count disk n = n := by
  unfold named_count count_of
  rcases Nat.lt_or_eq_of_le h with hlt | heq
  · rw [Nat.mod_eq_of_lt hlt, if_neg (Nat.ne_of_gt h₀)]
  · rw [heq, Nat.mod_self, if_pos rfl]

/-! ## The same sectors on every path -/

/-- The registers of all four routines name the sectors that the routine is called
for: `count` sectors from `start` on, and one in `ide_disk_write_sectors`. -/
structure SameSectors (t : TaskFile) (a : Answers) (disk : IDE_DISK_T) (start count n_byte : ℕ) :
    Prop where
  read_sectors :
    t.commands (ide_disk_read_sectors a disk start count).regs = [⟨false, start, count⟩]
  write_sectors :
    t.commands (ide_disk_write_sectors a disk start).regs = [⟨true, start, 1⟩]
  read_dma :
    t.commands (ide_disk_read_dma a disk start n_byte).regs = [⟨false, start, count⟩]
  write_dma :
    t.commands (ide_disk_write_dma a disk start n_byte).regs = [⟨true, start, count⟩]

/-- **The four paths address the same sectors exactly when the disk has 28-bit
addresses or the request starts below the sector `2^32`.** -/
theorem same_sectors_iff (n_byte : ℕ) (ha : a.ready = true) (hstart : start < lba_limit disk)
    (hpos : 0 < count) (hmax : count ≤ max_count disk) (hbytes : (n_byte + 511) / 512 = count) :
    SameSectors t a disk start count n_byte ↔ disk.lba_48 = false ∨ start < 2 ^ 32 := by
  have hmod : start % lba_limit disk = start := Nat.mod_eq_of_lt hstart
  have hcount : named_count disk count = count := named_count_of_le disk hpos hmax
  have hround : round_sectors n_byte / 2 ^ 9 = count := by
    have hle : max_count disk ≤ 2 ^ 16 := by
      unfold max_count
      split <;> omega
    rw [round_sectors_div (by omega), hbytes]
  have hwrite : start % write_dma_limit disk = start ↔ disk.lba_48 = false ∨ start < 2 ^ 32 := by
    unfold write_dma_limit lba_limit at *
    by_cases h48 : disk.lba_48
    · simp only [h48, if_true, Bool.true_eq_false, false_or] at *
      omega
    · simp only [h48, if_false, Bool.false_eq_true, true_or, iff_true] at *
      exact hmod
  rw [← hwrite]
  constructor
  · intro h
    have hw := h.write_dma
    rw [commands_write_dma t disk start ha, hround, hcount] at hw
    simpa using hw
  · intro hw
    refine ⟨?_, ?_, ?_, ?_⟩
    · rw [commands_read_sectors t disk start count ha, hmod, hcount]
    · rw [commands_write_sectors t disk start ha, hmod]
    · rw [commands_read_dma t disk start ha, hmod, hround, hcount]
    · rw [commands_write_dma t disk start ha, hw, hround, hcount]

/-- Registers that hold zeros. -/
def cleared : TaskFile := ⟨⟨0, 0⟩, ⟨0, 0⟩, ⟨0, 0⟩, ⟨0, 0⟩, 0⟩

/-- A drive that does all it is asked for. -/
def answering : Answers := ⟨true, fun _ => true, true, 0, false⟩

theorem same_sectors_iff_below :
    SameSectors cleared answering ⟨0, true⟩ 0xffffffff 16 8192 ↔
      (⟨0, true⟩ : IDE_DISK_T).lba_48 = false ∨ 0xffffffff < 2 ^ 32 :=
  same_sectors_iff cleared ⟨0, true⟩ 0xffffffff 16 8192 rfl (by decide) (by decide) (by decide)
    (by decide)

/-- The sector `2^32` of a disk with 48-bit addresses: a DMA write of one sector
goes to the sector 0. -/
theorem write_dma_misses_sector :
    ¬ SameSectors cleared answering ⟨0, true⟩ (2 ^ 32) 1 512 ∧
      cleared.commands (ide_disk_write_dma answering ⟨0, true⟩ (2 ^ 32) 512).regs =
        [⟨true, 0, 1⟩] := by
  have hw : cleared.commands (ide_disk_write_dma answering ⟨0, true⟩ (2 ^ 32) 512).regs =
      [⟨true, 0, 1⟩] := by decide
  refine ⟨fun h => ?_, hw⟩
  have hs := h.write_dma
  rw [hw] at hs
  simp at hs

end CsBoot.Ide
