/-
`ata_scsi_rw_xlat` of `src/src/ide/libata-scsi.c`: what it makes of a SCSI command, and
how it writes the data of one to the disk.

`USB_SPEED_UP` is set, as in both board configurations. The data of a write is still
coming in over USB when the function is called. It goes to the disk in pieces of
`SW_PIPE_SIZE`, and the last word of a piece tells whether the piece is there:
it holds `CHECK_PATTERN1` until then. The code that puts the pattern there and receives
the data is not part of the repository: `WriteJob` has what the buffer holds before the
data comes, and each step sees how many words of the data have come.
-/
import CsBoot.Ide.Disk

set_option autoImplicit false

namespace CsBoot.Ide

def READ_6 : ℕ := 0x08
def WRITE_6 : ℕ := 0x0a
def READ_10 : ℕ := 0x28
def WRITE_10 : ℕ := 0x2a
def READ_16 : ℕ := 0x88
def WRITE_16 : ℕ := 0x8a

def ILLEGAL_REQUEST : ℕ := 0x05
def CHECK_PATTERN1 : UInt32 := 0x91A2C3D4

/-! ## The command -/

/-- `scsi_10_lba_len`: the address and the length. -/
def scsi_10_lba_len (scsicmd : ℕ → UInt8) : ℕ × ℕ :=
  ((scsicmd 2).toNat <<< 24 ||| (scsicmd 3).toNat <<< 16 ||| (scsicmd 4).toNat <<< 8 |||
      (scsicmd 5).toNat,
    (scsicmd 7).toNat <<< 8 ||| (scsicmd 8).toNat)

/-- `scsi_16_lba_len` -/
def scsi_16_lba_len (scsicmd : ℕ → UInt8) : ℕ × ℕ :=
  ((scsicmd 2).toNat <<< 56 ||| (scsicmd 3).toNat <<< 48 ||| (scsicmd 4).toNat <<< 40 |||
      (scsicmd 5).toNat <<< 32 ||| (scsicmd 6).toNat <<< 24 ||| (scsicmd 7).toNat <<< 16 |||
      (scsicmd 8).toNat <<< 8 ||| (scsicmd 9).toNat,
    (scsicmd 10).toNat <<< 24 ||| (scsicmd 11).toNat <<< 16 ||| (scsicmd 12).toNat <<< 8 |||
      (scsicmd 13).toNat)

/-- `scsi_6_lba_len` -/
def scsi_6_lba_len (scsicmd : ℕ → UInt8) : ℕ × ℕ :=
  ((scsicmd 2).toNat <<< 8 ||| (scsicmd 3).toNat, (scsicmd 4).toNat)

/-- How `ata_scsi_rw_xlat` ends, or what it calls the disk for: `read_dma` into the
buffer, or the writes of the pipeline. -/
inductive Xlat
  /-- Sense data with the key and the additional code. -/
  | sense (sk asc ascq : ℕ)
  | nothing_to_do
  | read (block n_byte : ℕ)
  | write (block n_byte : ℕ)
  deriving DecidableEq

/-- The return value. -/
def Xlat.rc : Xlat → ℕ
  | .sense _ _ _ => 1
  | .nothing_to_do => 1
  | .read _ _ => 0
  | .write _ _ => 0

/-- The address and the length of a command, or `none` for one without. -/
def lba_len (scsicmd : ℕ → UInt8) : Option (ℕ × ℕ) :=
  let op := (scsicmd 0).toNat
  if op = READ_10 ∨ op = WRITE_10 then some (scsi_10_lba_len scsicmd)
  else if op = READ_6 ∨ op = WRITE_6 then
    let (block, n_block) := scsi_6_lba_len scsicmd
    some (block, if n_block = 0 then 256 else n_block)
  else if op = READ_16 ∨ op = WRITE_16 then some (scsi_16_lba_len scsicmd)
  else none

/-- `ata_scsi_rw_xlat`, up to the calls of the disk. -/
def ata_scsi_rw_xlat (scsicmd : ℕ → UInt8) : Xlat :=
  let op := (scsicmd 0).toNat
  match lba_len scsicmd with
  | none => .sense ILLEGAL_REQUEST 0x24 0
  | some (block, n_block) =>
    if n_block = 0 then .nothing_to_do
    else
      let n_byte := n_block * 512 % 2 ^ 32
      if block >>> 48 ≠ 0 ∨ 65536 < n_block then .sense ILLEGAL_REQUEST 0x21 0
      else if op = READ_10 ∨ op = READ_6 ∨ op = READ_16 then .read block n_byte
      else .write block n_byte

/-- A write has at least one block and at most 65536. -/
theorem write_n_byte {scsicmd : ℕ → UInt8} {block n_byte : ℕ}
    (h : ata_scsi_rw_xlat scsicmd = .write block n_byte) :
    ∃ n_block, 0 < n_block ∧ n_block ≤ 65536 ∧ n_byte = 512 * n_block := by
  unfold ata_scsi_rw_xlat at h
  cases hlen : lba_len scsicmd with
  | none => simp [hlen] at h
  | some p =>
    obtain ⟨b, n_block⟩ := p
    simp only [hlen] at h
    split at h
    · simp at h
    · split at h
      · simp at h
      · split at h
        · simp at h
        · simp only [Xlat.write.injEq] at h
          exact ⟨n_block, by omega, by omega, by omega⟩

/-! ## The write -/

/-- The data of a write: the words that come in, and what the buffer holds before. -/
structure WriteJob where
  block : ℕ
  n_byte : ℕ
  payload : ℕ → UInt32
  stale : ℕ → UInt32

/-- Where the function is: at the head of its loop, counting the pieces that are
there, before a call of `write_dma`, or waiting for what is left behind the last piece. -/
inductive Pc
  | direct
  | loop (i : ℕ)
  | count (i j bulk_no : ℕ)
  | write (i bulk_no : ℕ)
  | rest (i : ℕ)
  | write_rest (i : ℕ)
  | done

/-- A call of `write_dma`, and how many words of the data had come by then. -/
structure DmaWrite where
  start : ℕ
  n_byte : ℕ
  buf : ℕ
  arrived : ℕ

structure Pipe where
  pc : Pc
  writes : List DmaWrite

namespace WriteJob

variable (x : WriteJob)

/-- The word `w` of the buffer once `arrived` words have come. -/
def pbuf (arrived w : ℕ) : UInt32 := if w < arrived then x.payload w else x.stale w

/-- `n_byte/SW_PIPE_SIZE` -/
def pipes : ℕ := x.n_byte / SW_PIPE_SIZE

/-- `n_byte&(SW_PIPE_SIZE-1)` -/
def remainder : ℕ := x.n_byte &&& (SW_PIPE_SIZE - 1)

/-- The last word of piece `i`. -/
def last_word (i : ℕ) : ℕ := (i * SW_PIPE_SIZE + SW_PIPE_SIZE) / 4 - 1

/-- The last word of what is left behind piece `i`. -/
def last_word_rest (i : ℕ) : ℕ := (i * SW_PIPE_SIZE + x.remainder) / 4 - 1

def start : Pipe :=
  if SW_PIPE_SIZE ≤ x.n_byte then ⟨.loop 0, []⟩ else ⟨.direct, []⟩

/-- One step of the function. Waiting is a step that changes nothing. -/
def step (arrived : ℕ) (s : Pipe) : Pipe :=
  match s.pc with
  | .direct => ⟨.done, s.writes ++ [⟨x.block, x.n_byte, 0, arrived⟩]⟩
  | .loop i =>
    if i < x.pipes then
      if x.pbuf arrived (last_word i) = CHECK_PATTERN1 then s
      else ⟨.count i (i + 1) 1, s.writes⟩
    else if x.remainder ≠ 0 then ⟨.rest (if x.pipes < i then x.pipes else i), s.writes⟩
    else ⟨.done, s.writes⟩
  | .count i j bulk_no =>
    if j < x.pipes then
      ⟨.count i (j + 1)
        (if x.pbuf arrived (last_word j) ≠ CHECK_PATTERN1 then bulk_no + 1 else bulk_no), s.writes⟩
    else ⟨.write i bulk_no, s.writes⟩
  | .write i bulk_no =>
    ⟨.loop ((if 1 < bulk_no then i + (bulk_no - 1) else i) + 1),
      s.writes ++ [⟨x.block + i * (SW_PIPE_SIZE / IDE_SECTOR_SIZE), bulk_no * SW_PIPE_SIZE,
        i * SW_PIPE_SIZE, arrived⟩]⟩
  | .rest i =>
    if x.pbuf arrived (x.last_word_rest i) = CHECK_PATTERN1 then s
    else ⟨.write_rest i, s.writes⟩
  | .write_rest i =>
    ⟨.done, s.writes ++ [⟨x.block + i * (SW_PIPE_SIZE / IDE_SECTOR_SIZE), x.remainder,
      i * SW_PIPE_SIZE, arrived⟩]⟩
  | .done => s

end WriteJob

end CsBoot.Ide
