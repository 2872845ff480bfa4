/-
Which sectors a SCSI READ or WRITE names, by the format of its command block, and which
ones `ata_scsi_rw_xlat` goes to.

The 6-byte form has 21 bits of address, five of them in the second byte, which
`scsi_6_lba_len` does not look at. Of the ends of the disk only `ata_scsi_verify_xlat`
knows; `ata_scsi_rw_xlat` refuses addresses of more than 48 bits and more than 65536
blocks.
-/
import CsBoot.Ide.RwXlat

set_option autoImplicit false

namespace CsBoot.Ide

def VERIFY : ℕ := 0x2f
def VERIFY_16 : ℕ := 0x8f

/-! ## `ata_scsi_verify_xlat` -/

/-- `ata_scsi_verify_xlat`: the sense data, if there is any. A 64-bit sum is compared. -/
def ata_scsi_verify_xlat (dev_sectors : ℕ) (scsicmd : ℕ → UInt8) : Option (ℕ × ℕ × ℕ) :=
  let op := (scsicmd 0).toNat
  let lba_len : Option (ℕ × ℕ) :=
    if op = VERIFY then some (scsi_10_lba_len scsicmd)
    else if op = VERIFY_16 then some (scsi_16_lba_len scsicmd)
    else none
  match lba_len with
  | none => some (ILLEGAL_REQUEST, 0x24, 0)
  | some (block, n_block) =>
    if n_block = 0 then none
    else if dev_sectors ≤ block then some (ILLEGAL_REQUEST, 0x21, 0)
    else if dev_sectors < (block + n_block) % 2 ^ 64 then some (ILLEGAL_REQUEST, 0x21, 0)
    else if 64 * 1024 < n_block then some (ILLEGAL_REQUEST, 0x24, 0)
    else none

/-! ## The SCSI format -/

/-- A number of `n` bytes from byte `i` of the command block on, the highest first. -/
def scsi_field (scsicmd : ℕ → UInt8) (i : ℕ) : ℕ → ℕ
  | 0 => 0
  | n + 1 => 256 * scsi_field scsicmd i n + (scsicmd (i + n)).toNat

/-- The commands that read or write. -/
inductive RwForm
  | six
  | ten
  | sixteen
  deriving DecidableEq

/-- The form of a READ or WRITE. -/
def rw_form (op : ℕ) : Option RwForm :=
  if op = READ_6 ∨ op = WRITE_6 then some .six
  else if op = READ_10 ∨ op = WRITE_10 then some .ten
  else if op = READ_16 ∨ op = WRITE_16 then some .sixteen
  else none

/-- The logical block address. -/
def RwForm.block (form : RwForm) (scsicmd : ℕ → UInt8) : ℕ :=
  match form with
  | .six => scsi_field scsicmd 1 3 % 2 ^ 21
  | .ten => scsi_field scsicmd 2 4
  | .sixteen => scsi_field scsicmd 2 8

/-- The transfer length; none in the 6-byte form means 256. -/
def RwForm.n_block (form : RwForm) (scsicmd : ℕ → UInt8) : ℕ :=
  match form with
  | .six => if scsi_field scsicmd 4 1 = 0 then 256 else scsi_field scsicmd 4 1
  | .ten => scsi_field scsicmd 7 2
  | .sixteen => scsi_field scsicmd 10 4

/-- Whether it is a WRITE. -/
def rw_writes (op : ℕ) : Bool := op = WRITE_6 ∨ op = WRITE_10 ∨ op = WRITE_16

/-- What is asked of a READ or WRITE: DMA is started only for the sectors that the
command names, all of which the disk has; a request that goes past the last sector ends
with sense data; and nothing is transferred for a length of zero. -/
structure RwRight (dev_sectors : ℕ) (form : RwForm) (scsicmd : ℕ → UInt8) : Prop where
  read : ∀ block n_byte, ata_scsi_rw_xlat scsicmd = .read block n_byte →
    rw_writes (scsicmd 0).toNat = false ∧ block = form.block scsicmd ∧
      n_byte = form.n_block scsicmd * 512 ∧ block + form.n_block scsicmd ≤ dev_sectors
  write : ∀ block n_byte, ata_scsi_rw_xlat scsicmd = .write block n_byte →
    rw_writes (scsicmd 0).toNat = true ∧ block = form.block scsicmd ∧
      n_byte = form.n_block scsicmd * 512 ∧ block + form.n_block scsicmd ≤ dev_sectors
  refused : form.n_block scsicmd ≠ 0 → dev_sectors < form.block scsicmd + form.n_block scsicmd →
    ∃ sk asc ascq, ata_scsi_rw_xlat scsicmd = .sense sk asc ascq
  nothing : form.n_block scsicmd = 0 → ata_scsi_rw_xlat scsicmd = .nothing_to_do

/-! ## The decoders -/

section Decoders

variable (scsicmd : ℕ → UInt8)

/-- One more byte, as the decoders put it in. -/
theorem scsi_field_succ (i n : ℕ) :
    scsi_field scsicmd i (n + 1) = scsi_field scsicmd i n <<< 8 ||| (scsicmd (i + n)).toNat := by
  rw [scsi_field, ← Nat.shiftLeft_add_eq_or_of_lt (scsicmd (i + n)).toNat_lt, Nat.shiftLeft_eq,
    Nat.mul_comm]

theorem scsi_field_zero (i : ℕ) : scsi_field scsicmd i 0 = 0 := rfl

theorem scsi_10_lba_len_eq :
    scsi_10_lba_len scsicmd = (scsi_field scsicmd 2 4, scsi_field scsicmd 7 2) := by
  simp only [scsi_10_lba_len, scsi_field_succ, scsi_field_zero, Nat.shiftLeft_or_distrib,
    ← Nat.shiftLeft_add, Nat.zero_shiftLeft, Nat.zero_or, Nat.reduceAdd, Nat.add_zero]

theorem scsi_16_lba_len_eq :
    scsi_16_lba_len scsicmd = (scsi_field scsicmd 2 8, scsi_field scsicmd 10 4) := by
  simp only [scsi_16_lba_len, scsi_field_succ, scsi_field_zero, Nat.shiftLeft_or_distrib,
    ← Nat.shiftLeft_add, Nat.zero_shiftLeft, Nat.zero_or, Nat.reduceAdd, Nat.add_zero]

/-- The address of the 6-byte form is taken from two bytes. -/
theorem scsi_6_lba_len_eq :
    scsi_6_lba_len scsicmd = (scsi_field scsicmd 2 2, scsi_field scsicmd 4 1) := by
  simp only [scsi_6_lba_len, scsi_field_succ, scsi_field_zero, Nat.zero_shiftLeft, Nat.zero_or,
    Nat.reduceAdd, Nat.add_zero]

theorem scsi_field_lt (i n : ℕ) : scsi_field scsicmd i n < 256 ^ n := by
  induction n with
  | zero => exact Nat.one_pos
  | succ n ih =>
      have hb := (scsicmd (i + n)).toNat_lt
      rw [scsi_field, pow_succ]
      omega

/-- The five bits of the second byte. -/
theorem six_block_eq :
    RwForm.six.block scsicmd = 2 ^ 16 * ((scsicmd 1).toNat % 32) + scsi_field scsicmd 2 2 := by
  have h₂ := (scsicmd 2).toNat_lt
  have h₃ := (scsicmd 3).toNat_lt
  simp only [RwForm.block, scsi_field, Nat.add_zero, Nat.reduceAdd]
  omega

end Decoders

/-! ## The range -/

section Range

variable {scsicmd : ℕ → UInt8} {form : RwForm} {dev_sectors : ℕ}

/-- The address as it is decoded. -/
def RwForm.decoded (form : RwForm) (scsicmd : ℕ → UInt8) : ℕ :=
  if form = .six then scsi_field scsicmd 2 2 else form.block scsicmd

theorem lba_len_eq (h : rw_form (scsicmd 0).toNat = some form) :
    lba_len scsicmd = some (form.decoded scsicmd, form.n_block scsicmd) := by
  unfold rw_form at h
  unfold lba_len
  dsimp only
  rw [scsi_6_lba_len_eq, scsi_10_lba_len_eq, scsi_16_lba_len_eq]
  generalize (scsicmd 0).toNat = op at *
  split_ifs at h with h6 h10 h16
  · obtain rfl := Option.some.inj h
    have hnot : ¬(op = READ_10 ∨ op = WRITE_10) := by
      unfold READ_6 WRITE_6 at h6
      unfold READ_10 WRITE_10
      omega
    rw [if_neg hnot, if_pos h6]
    rfl
  · obtain rfl := Option.some.inj h
    rw [if_pos h10]
    rfl
  · obtain rfl := Option.some.inj h
    rw [if_neg h10, if_neg h6, if_pos h16]
    rfl

/-- What becomes of a READ or WRITE. -/
theorem rw_xlat_eq (h : rw_form (scsicmd 0).toNat = some form) :
    ata_scsi_rw_xlat scsicmd =
      if form.n_block scsicmd = 0 then .nothing_to_do
      else if 2 ^ 48 ≤ form.decoded scsicmd ∨ 65536 < form.n_block scsicmd then
        .sense ILLEGAL_REQUEST 0x21 0
      else if rw_writes (scsicmd 0).toNat then
        .write (form.decoded scsicmd) (form.n_block scsicmd * 512)
      else .read (form.decoded scsicmd) (form.n_block scsicmd * 512) := by
  have hops : (scsicmd 0).toNat = READ_10 ∨ (scsicmd 0).toNat = READ_6 ∨
      (scsicmd 0).toNat = READ_16 ↔ rw_writes (scsicmd 0).toNat ≠ true := by
    unfold rw_form at h
    unfold rw_writes
    rw [Ne, decide_eq_true_iff]
    unfold READ_6 READ_10 READ_16 WRITE_6 WRITE_10 WRITE_16 at *
    generalize (scsicmd 0).toNat = op at *
    split_ifs at h <;> omega
  have hlarge : form.decoded scsicmd >>> 48 ≠ 0 ↔ 2 ^ 48 ≤ form.decoded scsicmd := by
    rw [Nat.shiftRight_eq_div_pow]
    omega
  unfold ata_scsi_rw_xlat
  rw [lba_len_eq h]
  dsimp only
  simp only [hops, hlarge]
  split_ifs <;> first | rfl | (congr 1; omega) | contradiction

/-- What makes a request right: in the 6-byte form no bits of the address in the second
byte; and the request is for no blocks, or it is one that is refused as too large, or
the disk has the sectors. -/
def RwInRange (dev_sectors : ℕ) (form : RwForm) (scsicmd : ℕ → UInt8) : Prop :=
  (form = .six → (scsicmd 1).toNat % 32 = 0) ∧
    (form.n_block scsicmd = 0 ∨ 2 ^ 48 ≤ form.block scsicmd ∨ 65536 < form.n_block scsicmd ∨
      form.block scsicmd + form.n_block scsicmd ≤ dev_sectors)

variable (scsicmd) in
/-- The 6-byte form always has blocks to transfer, and is never too large. -/
theorem six_bounds : RwForm.six.n_block scsicmd ≠ 0 ∧ RwForm.six.n_block scsicmd ≤ 256 ∧
    scsi_field scsicmd 2 2 < 65536 := by
  have hlen := scsi_field_lt scsicmd 4 1
  refine ⟨?_, ?_, scsi_field_lt scsicmd 2 2⟩
  · unfold RwForm.n_block
    dsimp only
    split_ifs <;> omega
  · unfold RwForm.n_block
    dsimp only
    split_ifs <;> omega

/-- The address is decoded as it is meant when no bits of it are in the second byte. -/
theorem decoded_eq_iff :
    form.decoded scsicmd = form.block scsicmd ↔
      (form = .six → (scsicmd 1).toNat % 32 = 0) := by
  unfold RwForm.decoded
  by_cases hsix : form = .six
  · subst hsix
    rw [if_pos rfl, six_block_eq]
    constructor
    · intro h _
      omega
    · intro h
      rw [h rfl]
      omega
  · rw [if_neg hsix]
    exact iff_of_true rfl fun h => absurd h hsix

/-- DMA is started for the decoded address. -/
theorem rw_xlat_dma (h : rw_form (scsicmd 0).toNat = some form) (hn : form.n_block scsicmd ≠ 0)
    (hsmall : ¬(2 ^ 48 ≤ form.decoded scsicmd ∨ 65536 < form.n_block scsicmd)) :
    (rw_writes (scsicmd 0).toNat = true ∧ ata_scsi_rw_xlat scsicmd =
        .write (form.decoded scsicmd) (form.n_block scsicmd * 512)) ∨
      (rw_writes (scsicmd 0).toNat = false ∧ ata_scsi_rw_xlat scsicmd =
        .read (form.decoded scsicmd) (form.n_block scsicmd * 512)) := by
  rw [rw_xlat_eq h, if_neg hn, if_neg hsmall]
  cases rw_writes (scsicmd 0).toNat with
  | true => exact .inl ⟨rfl, rfl⟩
  | false => exact .inr ⟨rfl, rfl⟩

theorem RwRight.inRange (h : rw_form (scsicmd 0).toNat = some form)
    (hright : RwRight dev_sectors form scsicmd) : RwInRange dev_sectors form scsicmd := by
  by_cases hdma : form.n_block scsicmd = 0 ∨
      (2 ^ 48 ≤ form.decoded scsicmd ∨ 65536 < form.n_block scsicmd)
  · -- no DMA: this is not the 6-byte form, and the address is decoded as it is meant
    have hsix : form ≠ .six := by
      rintro rfl
      obtain ⟨hn, hle, hlt⟩ := six_bounds scsicmd
      have hdec : RwForm.six.decoded scsicmd = scsi_field scsicmd 2 2 := if_pos rfl
      omega
    have hdec : form.decoded scsicmd = form.block scsicmd :=
      decoded_eq_iff.mpr fun heq => absurd heq hsix
    rw [hdec] at hdma
    refine ⟨fun heq => absurd heq hsix, ?_⟩
    rcases hdma with hn | hblock | hlarge
    · exact .inl hn
    · exact .inr (.inl hblock)
    · exact .inr (.inr (.inl hlarge))
  · obtain ⟨hn, hsmall⟩ := not_or.mp hdma
    have hfits : form.decoded scsicmd = form.block scsicmd ∧
        form.decoded scsicmd + form.n_block scsicmd ≤ dev_sectors := by
      rcases rw_xlat_dma h hn hsmall with ⟨-, hrun⟩ | ⟨-, hrun⟩
      · obtain ⟨-, hblock, -, hle⟩ := hright.write _ _ hrun
        exact ⟨hblock, hle⟩
      · obtain ⟨-, hblock, -, hle⟩ := hright.read _ _ hrun
        exact ⟨hblock, hle⟩
    refine ⟨decoded_eq_iff.mp hfits.1, .inr (.inr (.inr ?_))⟩
    rw [← hfits.1]
    exact hfits.2

theorem RwInRange.right (h : rw_form (scsicmd 0).toNat = some form)
    (hin : RwInRange dev_sectors form scsicmd) : RwRight dev_sectors form scsicmd := by
  obtain ⟨hsix, hrange⟩ := hin
  have hdec := decoded_eq_iff.mpr hsix
  have hrun := rw_xlat_eq h
  rw [hdec] at hrun
  -- nothing to do, then what the 48-bit commands cannot say, then the command itself
  by_cases hn : form.n_block scsicmd = 0
  · rw [if_pos hn] at hrun
    exact {
      read := fun _ _ heq => nomatch hrun.symm.trans heq
      write := fun _ _ heq => nomatch hrun.symm.trans heq
      refused := fun hne => absurd hn hne
      nothing := fun _ => hrun }
  rw [if_neg hn] at hrun
  by_cases hlarge : 2 ^ 48 ≤ form.block scsicmd ∨ 65536 < form.n_block scsicmd
  · rw [if_pos hlarge] at hrun
    exact {
      read := fun _ _ heq => nomatch hrun.symm.trans heq
      write := fun _ _ heq => nomatch hrun.symm.trans heq
      refused := fun _ _ => ⟨_, _, _, hrun⟩
      nothing := fun hzero => absurd hzero hn }
  rw [if_neg hlarge] at hrun
  have hle : form.block scsicmd + form.n_block scsicmd ≤ dev_sectors := by omega
  cases hw : rw_writes (scsicmd 0).toNat with
  | true =>
      rw [hw, if_pos rfl] at hrun
      refine ⟨fun _ _ heq => (nomatch hrun.symm.trans heq), fun block n_byte heq => ?_,
        fun _ hlt => absurd hle (not_le.mpr hlt), fun hzero => absurd hzero hn⟩
      obtain ⟨rfl, rfl⟩ := Xlat.write.inj (hrun.symm.trans heq)
      exact ⟨hw, rfl, rfl, hle⟩
  | false =>
      rw [hw, if_neg Bool.false_ne_true] at hrun
      refine ⟨fun block n_byte heq => ?_, fun _ _ heq => (nomatch hrun.symm.trans heq),
        fun _ hlt => absurd hle (not_le.mpr hlt), fun hzero => absurd hzero hn⟩
      obtain ⟨rfl, rfl⟩ := Xlat.read.inj (hrun.symm.trans heq)
      exact ⟨hw, rfl, rfl, hle⟩

/-- VERIFY, in the 10- and in the 16-byte form, refuses the requests with blocks that go
past the end. -/
theorem verify_refuses {form : RwForm} (hdev : dev_sectors ≤ 2 ^ 63)
    (hop : (scsicmd 0).toNat = VERIFY ∧ form = .ten ∨ (scsicmd 0).toNat = VERIFY_16 ∧
      form = .sixteen)
    (hn : form.n_block scsicmd ≠ 0)
    (hlt : dev_sectors < form.block scsicmd + form.n_block scsicmd) :
    ata_scsi_verify_xlat dev_sectors scsicmd = some (ILLEGAL_REQUEST, 0x21, 0) := by
  have hlen := scsi_field_lt scsicmd 10 4
  have hlen' := scsi_field_lt scsicmd 7 2
  unfold ata_scsi_verify_xlat
  dsimp only
  rw [scsi_10_lba_len_eq, scsi_16_lba_len_eq]
  rcases hop with ⟨hop, rfl⟩ | ⟨hop, rfl⟩
  · simp only [RwForm.n_block, RwForm.block] at hn hlt
    rw [if_pos hop]
    dsimp only
    rw [if_neg hn]
    split_ifs <;> first | rfl | omega
  · simp only [RwForm.n_block, RwForm.block] at hn hlt
    have hne : ¬VERIFY_16 = VERIFY := by decide
    rw [hop, if_neg hne, if_pos rfl]
    dsimp only
    rw [if_neg hn]
    split_ifs <;> first | rfl | omega

end Range

/-- **Which commands are right**, on a disk of any size. -/
theorem rw_right_iff (dev_sectors : ℕ) {form : RwForm} {scsicmd : ℕ → UInt8}
    (h : rw_form (scsicmd 0).toNat = some form) :
    RwRight dev_sectors form scsicmd ↔ RwInRange dev_sectors form scsicmd :=
  ⟨fun hright => hright.inRange h, fun hin => hin.right h⟩

/-- A `READ_10` of one block. -/
def read_one : ℕ → UInt8 := fun i => [0x28, 0, 0, 0, 0, 0, 0, 0, 1].getD i 0

theorem rw_right_iff_read_one : RwRight 100 .ten read_one :=
  (rw_right_iff 100 (by decide)).mpr
    ⟨fun h => (nomatch h), .inr (.inr (.inr (by decide)))⟩

/-- A `READ_10` of the block behind the last one of a disk of 100 sectors, which the same
`VERIFY` refuses, and a `READ_6` of block 65536, which is decoded as block 0. -/
theorem read_past_end :
    (¬ RwRight 100 .ten fun i => [0x28, 0, 0, 0, 0, 100, 0, 0, 1].getD i 0) ∧
      ata_scsi_verify_xlat 100 (fun i => [0x2f, 0, 0, 0, 0, 100, 0, 0, 1].getD i 0) =
        some (ILLEGAL_REQUEST, 0x21, 0) ∧
      ¬ RwRight 100000 .six fun i => [0x08, 1, 0, 0, 1].getD i 0 := by
  refine ⟨fun h => ?_, ?_, fun h => ?_⟩
  · obtain ⟨-, -, -, hle⟩ := h.read 100 512 (by decide)
    exact absurd hle (by decide)
  · exact verify_refuses (by decide) (.inl ⟨by decide, rfl⟩) (by decide) (by decide)
  · obtain ⟨-, hblock, -, -⟩ := h.read 0 512 (by decide)
    exact absurd hblock (by decide)

end CsBoot.Ide
