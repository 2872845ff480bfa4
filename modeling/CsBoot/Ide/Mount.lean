/-
Mounting a file system, and the descriptor that comes of it: `ext2fs_mount` of
`src/src/ide/ext2fs.c` with all that it takes from the super block.

In `Ext2.lean` the file system has been mounted and every read succeeds. Here the super
block holds anything, and a read of the partition may fail. What is taken from the super
block is neither limited nor compared with zero before it becomes a shift count, a divisor
or the size of the blocks.
-/
import CsBoot.Ide.Ext2

set_option autoImplicit false

namespace CsBoot.Ide.Ext2

open ByteMem

/-! ## The partition -/

/-- Which reads succeed, and what the others leave in the buffer: the DMA transfer may have been
to it when the driver finds that something went wrong. A read is named by its first sector. -/
structure Reads where
  ok : ℕ → Bool
  left : ℕ → ByteMem → ByteMem

/-- A disk without failures. -/
def Reads.sound : Reads := ⟨fun _ => true, fun _ buf => buf⟩

theorem Reads.sound_ok (sec_nr : ℕ) : Reads.sound.ok sec_nr = true := rfl

/-- `PARTITION_READ`, with what is in the buffer when it succeeds. -/
def PARTITION_READ (part : ℕ → UInt8) (reads : Reads) (sec_nr : ℕ) : Option ByteMem :=
  if reads.ok sec_nr then some fun i => part (IDE_SECTOR_SIZE * sec_nr + i) else none

theorem PARTITION_READ_of_true {part : ℕ → UInt8} {reads : Reads} {sec_nr : ℕ}
    (h : reads.ok sec_nr = true) :
    PARTITION_READ part reads sec_nr = some fun i => part (IDE_SECTOR_SIZE * sec_nr + i) :=
  if_pos h

theorem PARTITION_READ_of_false {part : ℕ → UInt8} {reads : Reads} {sec_nr : ℕ}
    (h : reads.ok sec_nr = false) : PARTITION_READ part reads sec_nr = none :=
  if_neg (Bool.eq_false_iff.mp h)

theorem of_PARTITION_READ {part : ℕ → UInt8} {reads : Reads} {sec_nr : ℕ} {buf : ByteMem}
    (h : PARTITION_READ part reads sec_nr = some buf) :
    buf = fun i => part (IDE_SECTOR_SIZE * sec_nr + i) := by
  rw [PARTITION_READ] at h
  split_ifs at h
  exact (Option.some.inj h).symm

/-! ## The fields of `EXT2_SB_T` -/

def sb_inodes_count (sb : ByteMem) : ℕ := load32 sb 0
def sb_blocks_count (sb : ByteMem) : ℕ := load32 sb 4
def sb_first_data_block (sb : ByteMem) : ℕ := load32 sb 20
def sb_log_block_size (sb : ByteMem) : ℕ := load32 sb 24
def sb_blocks_per_group (sb : ByteMem) : ℕ := load32 sb 32
def sb_inodes_per_group (sb : ByteMem) : ℕ := load32 sb 40
def sb_magic (sb : ByteMem) : ℕ := load16 sb 56

/-! ## The descriptor -/

/-- `EXT2_DESC_T`, but for the pointer to the partition. -/
structure EXT2_DESC_T where
  blocksize : ℕ
  ngroups : ℕ
  blocks_per_group : ℕ
  inodes_per_group : ℕ
  gdesc_block : ℕ
  gdesc_first : ℕ
  gdesc_cache : ByteMem
  nr_ind_blocks : ℕ
  nr_dind_blocks : ℕ
  nr_tind_blocks : ℕ

/-- `EXT2_BLOCK_SIZE`; the shift leaves 32 bits. -/
def EXT2_BLOCK_SIZE (sb : ByteMem) : ℕ := EXT2_MIN_BLOCK_SIZE * 2 ^ sb_log_block_size sb % W

/-- `EXT2_BLOCK_TO_SECTOR` -/
def EXT2_BLOCK_TO_SECTOR (blocksize b : ℕ) : ℕ := b * (blocksize / IDE_SECTOR_SIZE) % W

/-- The block with the group descriptors. -/
def gdesc_block_of (blocksize : ℕ) : ℕ := EXT2_MIN_BLOCK_SIZE / blocksize + 1

/-- Its first sector. -/
def gdesc_sector (blocksize : ℕ) : ℕ := EXT2_BLOCK_TO_SECTOR blocksize (gdesc_block_of blocksize)

/-- What is filled in from the super block and the first group descriptors. -/
def desc_of (sb gdesc_cache : ByteMem) : EXT2_DESC_T where
  blocksize := EXT2_BLOCK_SIZE sb
  ngroups := (sb_blocks_count sb + sb_blocks_per_group sb - 1) % W / sb_blocks_per_group sb
  blocks_per_group := sb_blocks_per_group sb
  inodes_per_group := sb_inodes_per_group sb
  gdesc_block := gdesc_block_of (EXT2_BLOCK_SIZE sb)
  gdesc_first := 0
  gdesc_cache := gdesc_cache
  nr_ind_blocks := EXT2_BLOCK_SIZE sb / 4
  nr_dind_blocks := EXT2_BLOCK_SIZE sb / 4 * (EXT2_BLOCK_SIZE sb / 4) % W
  nr_tind_blocks :=
    EXT2_BLOCK_SIZE sb / 4 * (EXT2_BLOCK_SIZE sb / 4) % W * (EXT2_BLOCK_SIZE sb / 4) % W

@[simp] theorem desc_of_blocksize (sb gdesc_cache : ByteMem) :
    (desc_of sb gdesc_cache).blocksize = EXT2_BLOCK_SIZE sb := rfl

/-- How a mount ends. -/
inductive Mounted
  | refused
  /-- It shifts an `int` by its width or more, or divides by zero. -/
  | undefined
  | mounted (desc : EXT2_DESC_T)

/-- `ext2fs_mount` -/
def ext2fs_mount (part : ℕ → UInt8) (reads : Reads) : Mounted :=
  match PARTITION_READ part reads 2 with
  | none => .refused
  | some sb =>
    if sb_magic sb ≠ EXT2_SUPER_MAGIC then .refused
    else if 32 ≤ sb_log_block_size sb ∨ sb_blocks_per_group sb = 0 ∨ EXT2_BLOCK_SIZE sb = 0 then
      .undefined
    else
      match PARTITION_READ part reads (gdesc_sector (EXT2_BLOCK_SIZE sb)) with
      | none => .refused
      | some gdesc_cache => .mounted (desc_of sb gdesc_cache)

/-! ## What it does -/

variable {part : ℕ → UInt8} {reads : Reads}

/-- The super block is the two sectors from sector 2 on. -/
theorem super_block_read (h : reads.ok 2 = true) :
    PARTITION_READ part reads 2 = some (super part) :=
  PARTITION_READ_of_true h

/-- The magic number and the first read decide whether the fields are looked at. -/
theorem ext2fs_mount_refused (h : reads.ok 2 = true → sb_magic (super part) ≠ EXT2_SUPER_MAGIC) :
    ext2fs_mount part reads = .refused := by
  rw [ext2fs_mount]
  cases hread : reads.ok 2 with
  | false => rw [PARTITION_READ_of_false hread]
  | true =>
      rw [super_block_read hread]
      dsimp only
      rw [if_pos (h hread)]

theorem ext2fs_mount_eq (hread : reads.ok 2 = true)
    (hmagic : sb_magic (super part) = EXT2_SUPER_MAGIC) :
    ext2fs_mount part reads =
      if 32 ≤ sb_log_block_size (super part) ∨ sb_blocks_per_group (super part) = 0 ∨
          EXT2_BLOCK_SIZE (super part) = 0 then .undefined
      else
        match PARTITION_READ part reads (gdesc_sector (EXT2_BLOCK_SIZE (super part))) with
        | none => .refused
        | some gdesc_cache => .mounted (desc_of (super part) gdesc_cache) := by
  rw [ext2fs_mount, super_block_read hread]
  dsimp only
  rw [if_neg (not_not.mpr hmagic)]

/-- When a mount goes through, and what the descriptor is then. -/
theorem ext2fs_mount_mounted {desc : EXT2_DESC_T} (h : ext2fs_mount part reads = .mounted desc) :
    sb_magic (super part) = EXT2_SUPER_MAGIC ∧
      desc = desc_of (super part) fun i =>
        part (IDE_SECTOR_SIZE * gdesc_sector (EXT2_BLOCK_SIZE (super part)) + i) := by
  by_cases hbegin : reads.ok 2 = true ∧ sb_magic (super part) = EXT2_SUPER_MAGIC
  · obtain ⟨hread, hmagic⟩ := hbegin
    refine ⟨hmagic, ?_⟩
    rw [ext2fs_mount_eq hread hmagic] at h
    split_ifs at h
    cases hcache : PARTITION_READ part reads (gdesc_sector (EXT2_BLOCK_SIZE (super part))) with
    | none =>
        rw [hcache] at h
        cases h
    | some gdesc_cache =>
        rw [hcache] at h
        rw [← Mounted.mounted.inj h, of_PARTITION_READ hcache]
  · rw [ext2fs_mount_refused fun hread hmagic => hbegin ⟨hread, hmagic⟩] at h
    cases h

/-! ## The sizes of the blocks -/

theorem block_size_of_lt {sb : ByteMem} (h : sb_log_block_size sb < 22) :
    EXT2_BLOCK_SIZE sb = EXT2_MIN_BLOCK_SIZE * 2 ^ sb_log_block_size sb := by
  have hpow : 2 ^ sb_log_block_size sb ≤ 2 ^ 21 := Nat.pow_le_pow_right Nat.two_pos (by omega)
  refine Nat.mod_eq_of_lt ?_
  unfold EXT2_MIN_BLOCK_SIZE W
  omega

/-- The shift leaves no bit of the `int` from 22 on. -/
theorem block_size_eq_zero {sb : ByteMem} (h : 22 ≤ sb_log_block_size sb) :
    EXT2_BLOCK_SIZE sb = 0 := by
  obtain ⟨k, hk⟩ := Nat.exists_eq_add_of_le h
  have hw : EXT2_MIN_BLOCK_SIZE * 2 ^ 22 = W := by decide
  rw [EXT2_BLOCK_SIZE, hk, pow_add, ← Nat.mul_assoc, hw, Nat.mul_mod_right]

theorem block_size_le_iff {sb : ByteMem} (h : sb_log_block_size sb < 22) :
    EXT2_BLOCK_SIZE sb ≤ EXT2_MAX_BLOCK_SIZE ↔ sb_log_block_size sb ≤ 2 := by
  have hmax : EXT2_MAX_BLOCK_SIZE = EXT2_MIN_BLOCK_SIZE * 2 ^ 2 := by decide
  rw [block_size_of_lt h, hmax, Nat.mul_le_mul_left_iff (by decide),
    Nat.pow_le_pow_iff_right Nat.one_lt_two]

theorem block_size_pos {sb : ByteMem} (h : sb_log_block_size sb < 22) : 0 < EXT2_BLOCK_SIZE sb := by
  rw [block_size_of_lt h]
  exact Nat.mul_pos (by decide) (Nat.two_pow_pos _)

/-- The sizes that the buffer has room for. -/
theorem block_size_cases {sb : ByteMem} (h : sb_log_block_size sb ≤ 2) :
    EXT2_BLOCK_SIZE sb = 1024 ∨ EXT2_BLOCK_SIZE sb = 2048 ∨ EXT2_BLOCK_SIZE sb = 4096 := by
  rw [block_size_of_lt (by omega)]
  interval_cases sb_log_block_size sb
  · exact .inl rfl
  · exact .inr (.inl rfl)
  · exact .inr (.inr rfl)

/-- The computation is defined as long as the shift leaves something. -/
theorem undefined_iff (sb : ByteMem) :
    32 ≤ sb_log_block_size sb ∨ sb_blocks_per_group sb = 0 ∨ EXT2_BLOCK_SIZE sb = 0 ↔
      22 ≤ sb_log_block_size sb ∨ sb_blocks_per_group sb = 0 := by
  constructor
  · rintro (h | h | h)
    · exact .inl (by omega)
    · exact .inr h
    · by_contra hnot
      exact Nat.ne_of_gt (block_size_pos (by omega)) h
  · rintro (h | h)
    · exact .inr (.inr (block_size_eq_zero h))
    · exact .inr (.inl h)

end CsBoot.Ide.Ext2
