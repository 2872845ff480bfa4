/-
The block map of `ext2fs_inode_block`, and what the format says of it.

A pointer that is zero is a hole: all the blocks below it are. The code does not look for
zeros on the way. It reads block 0 of the partition in place of the block of pointers that
is not there, and takes what it finds for pointers. What it returns is right when these
lead to a zero in the end.
-/
import CsBoot.Ide.Mount

set_option autoImplicit false

namespace CsBoot.Ide.Ext2

open ByteMem SkipBlocks

/-! ## The code's walk -/

section Walk

variable (img : Image)

/-- The number of the block that is leaf `k` of a tree of pointers. -/
def leaf : ℕ → ℕ → ℕ → ℕ
  | 0, root, _ => root
  | d + 1, root, k =>
    let n := nr_ind_blocks img ^ d
    leaf d (block_ptr (block img root) (k / n)) (k % n)

/-- The number of block `k` of the file. -/
def block_nr (inode : ByteMem) (k : ℕ) : ℕ :=
  let n := nr_ind_blocks img
  if k < EXT2_NR_DIR_BLOCKS then inode_ptr inode k
  else if k < EXT2_NR_DIR_BLOCKS + n then
    leaf img 1 (inode_ptr inode EXT2_IND_BLOCK) (k - EXT2_NR_DIR_BLOCKS)
  else if k < EXT2_NR_DIR_BLOCKS + n + n ^ 2 then
    leaf img 2 (inode_ptr inode EXT2_DIND_BLOCK) (k - EXT2_NR_DIR_BLOCKS - n)
  else leaf img 3 (inode_ptr inode EXT2_TIND_BLOCK) (k - EXT2_NR_DIR_BLOCKS - n - n ^ 2)

/-- The bytes of the block with this number; a hole has zeros. -/
def content (b : ℕ) : ByteMem := if b ≠ 0 then block img b else zero_block img

/-- Byte `i` of the file, where the code looks for it. -/
def found_byte (inode : ByteMem) (i : ℕ) : UInt8 :=
  content img (block_nr img inode (i / blocksize img)) (i % blocksize img)

end Walk

section Finding

variable {img : Image}

theorem blocksize_pos : 0 < blocksize img :=
  Nat.mul_pos (by decide) (Nat.two_pow_pos _)

theorem nr_ind_blocks_pos : 0 < nr_ind_blocks img := by
  have h : EXT2_MIN_BLOCK_SIZE ≤ blocksize img := Nat.le_mul_of_pos_right _ (Nat.two_pow_pos _)
  exact Nat.div_pos (le_trans (by decide) h) (by decide)

theorem nr_dind_blocks_eq : nr_dind_blocks img = nr_ind_blocks img ^ 2 := (sq _).symm

theorem read_block_apply (n : ℕ) (s : Scratch) :
    read_block img n s = (some (block img n), { s with blockbuf := block img n }) := rfl

theorem clear_block_apply (s : Scratch) :
    clear_block img s = (some (zero_block img), { s with blockbuf := zero_block img }) := rfl

theorem read_block_bind {α : Type} (n : ℕ) (f : ByteMem → Ext2M α) (s : Scratch) :
    (read_block img n >>= f) s = f (block img n) { s with blockbuf := block img n } := rfl

theorem read_block_or_hole_apply (n : ℕ) (s : Scratch) :
    read_block_or_hole img n s = (some (content img n), { s with blockbuf := content img n }) := by
  unfold read_block_or_hole content
  by_cases h : n ≠ 0
  · rw [if_pos h, if_pos h, read_block_apply]
  · rw [if_neg h, if_neg h, clear_block_apply]

/-- `ext2fs_inode_block` finds the block, and leaves something in the buffer. -/
theorem ext2fs_inode_block_apply (img : Image) (inode : ByteMem) (k : ℕ) (s : Scratch) :
    ∃ buf, ext2fs_inode_block img inode k s =
      (some (block_nr img inode k), { s with blockbuf := buf }) := by
  unfold ext2fs_inode_block block_nr
  simp only [nr_dind_blocks_eq]
  by_cases h₀ : k < EXT2_NR_DIR_BLOCKS
  · rw [if_pos h₀, if_pos h₀]
    exact ⟨s.blockbuf, rfl⟩
  rw [if_neg h₀, if_neg h₀]
  by_cases h₁ : k < EXT2_NR_DIR_BLOCKS + nr_ind_blocks img
  · rw [if_pos (by omega), if_pos h₁, read_block_bind, ScratchM.pure_apply]
    refine ⟨_, Prod.ext ?_ rfl⟩
    simp only [leaf, pow_zero, Nat.div_one]
  have h₁' : ¬k - EXT2_NR_DIR_BLOCKS < nr_ind_blocks img := by omega
  rw [if_neg h₁', if_neg h₁]
  by_cases h₂ : k < EXT2_NR_DIR_BLOCKS + nr_ind_blocks img + nr_ind_blocks img ^ 2
  · rw [if_pos (by omega), if_pos h₂, read_block_bind, read_block_bind, ScratchM.pure_apply]
    refine ⟨_, Prod.ext ?_ rfl⟩
    simp only [leaf, pow_zero, pow_one, Nat.div_one]
  · have h₂' : ¬k - EXT2_NR_DIR_BLOCKS - nr_ind_blocks img < nr_ind_blocks img ^ 2 := by omega
    rw [if_neg h₂', if_neg h₂, read_block_bind, read_block_bind, read_block_bind,
      ScratchM.pure_apply]
    refine ⟨_, Prod.ext ?_ rfl⟩
    simp only [leaf, pow_zero, pow_one, Nat.div_one]

/-- Finding a block and reading it. -/
theorem find_block_apply (inode : ByteMem) (k : ℕ) (s : Scratch) :
    (ext2fs_inode_block img inode k >>= read_block_or_hole img) s =
      (some (content img (block_nr img inode k)),
        { s with blockbuf := content img (block_nr img inode k) }) := by
  obtain ⟨buf, h⟩ := ext2fs_inode_block_apply img inode k s
  rw [ScratchM.bind_apply h, read_block_or_hole_apply]

end Finding

/-! ## The format -/

/-- A way to a block: how many blocks of pointers there are on it, the pointer that it
begins with, and the place of the block below that. -/
structure BlockPath where
  depth : ℕ
  root : ℕ
  index : ℕ
  deriving DecidableEq

section Format

variable (img : Image)

/-- The way to block `k` of a file. -/
def block_path (inode : ByteMem) (k : ℕ) : BlockPath :=
  let n := nr_ind_blocks img
  if k < EXT2_NR_DIR_BLOCKS then ⟨0, inode_ptr inode k, 0⟩
  else if k < EXT2_NR_DIR_BLOCKS + n then
    ⟨1, inode_ptr inode EXT2_IND_BLOCK, k - EXT2_NR_DIR_BLOCKS⟩
  else if k < EXT2_NR_DIR_BLOCKS + n + n ^ 2 then
    ⟨2, inode_ptr inode EXT2_DIND_BLOCK, k - EXT2_NR_DIR_BLOCKS - n⟩
  else ⟨3, inode_ptr inode EXT2_TIND_BLOCK, k - EXT2_NR_DIR_BLOCKS - n - n ^ 2⟩

/-- The blocks of a file that has all of its blocks of pointers. -/
def max_blocks : ℕ :=
  EXT2_NR_DIR_BLOCKS + nr_ind_blocks img + nr_ind_blocks img ^ 2 + nr_ind_blocks img ^ 3

/-- Pointer `i` of block `b` of the partition. -/
def ptr_on_disk (b i : ℕ) : ℕ := load32 (fun j => img.part (b * blocksize img + j)) (4 * i)

/-- The block that a tree of pointers has at a place, and zero for a hole. -/
def mapped : ℕ → ℕ → ℕ → ℕ
  | 0, root, _ => root
  | depth + 1, root, k =>
    if root = 0 then 0
    else
      mapped depth (ptr_on_disk img root (k / nr_ind_blocks img ^ depth))
        (k % nr_ind_blocks img ^ depth)

/-- The blocks of pointers on the way lie on the partition, the number of whose sectors has
32 bits. -/
def OnPartition : ℕ → ℕ → ℕ → Prop
  | 0, _, _ => True
  | depth + 1, root, k =>
    root ≠ 0 →
      (root + 1) * blocksize img ≤ IDE_SECTOR_SIZE * W ∧
        OnPartition depth (ptr_on_disk img root (k / nr_ind_blocks img ^ depth))
          (k % nr_ind_blocks img ^ depth)

/-- Where the way comes to a hole, the words of block 0, taken for the pointers that are not
there, lead to a zero. -/
def ZerosBehindHole : ℕ → ℕ → ℕ → Prop
  | 0, _, _ => True
  | depth + 1, root, k =>
    if root = 0 then leaf img (depth + 1) 0 k = 0
    else
      ZerosBehindHole depth (ptr_on_disk img root (k / nr_ind_blocks img ^ depth))
        (k % nr_ind_blocks img ^ depth)

/-- Where the way comes to a hole, byte `i` of the block that the words of block 0 lead to is
zero. -/
def ZeroBehindHole (i : ℕ) : ℕ → ℕ → ℕ → Prop
  | 0, _, _ => True
  | depth + 1, root, k =>
    if root = 0 then content img (leaf img (depth + 1) 0 k) i = 0
    else
      ZeroBehindHole i depth (ptr_on_disk img root (k / nr_ind_blocks img ^ depth))
        (k % nr_ind_blocks img ^ depth)

/-- The bytes of block `b` of the partition; a hole has zeros. -/
def ext2_content (b : ℕ) : ByteMem := fun i => if b = 0 then 0 else img.part (b * blocksize img + i)

variable (inode : ByteMem) (k : ℕ)

/-- The block that a file has at index `k`. -/
def ext2_block : ℕ :=
  mapped img (block_path img inode k).depth (block_path img inode k).root
    (block_path img inode k).index

/-- A block of a file that the format has room for, with its pointers on the partition. -/
structure FitsFormat : Prop where
  lt_max : k < max_blocks img
  on_partition : OnPartition img (block_path img inode k).depth (block_path img inode k).root
    (block_path img inode k).index

/-- No hole on the way to the block, or one behind which the code finds a zero. -/
def HoleHarmless : Prop :=
  ZerosBehindHole img (block_path img inode k).depth (block_path img inode k).root
    (block_path img inode k).index

/-- Byte `i` of a file. -/
def ext2_byte (i : ℕ) : UInt8 :=
  ext2_content img (ext2_block img inode (i / blocksize img)) (i % blocksize img)

/-- A block of a file that lies on the partition, with its pointers. -/
structure BlockFits : Prop extends FitsFormat img inode k where
  data : ext2_block img inode k ≠ 0 →
    (ext2_block img inode k + 1) * blocksize img ≤ IDE_SECTOR_SIZE * W

/-- No hole on the way to the block, or one behind which the code finds a zero for byte `i`. -/
def HoleReadsZero (i : ℕ) : Prop :=
  ZeroBehindHole img i (block_path img inode k).depth (block_path img inode k).root
    (block_path img inode k).index

/-- A file all of whose blocks fit. -/
def FileFits (img : Image) (inode : ByteMem) : Prop :=
  ∀ k, k * blocksize img < inode_size inode → BlockFits img inode k

end Format

variable {img : Image}

/-! ## The code -/

theorem Image.log_block_size_le (img : Image) : sb_log_block_size (super img.part) ≤ 2 := by
  have hmax : EXT2_MAX_BLOCK_SIZE = EXT2_MIN_BLOCK_SIZE * 2 ^ 2 := by decide
  have hle := img.block_size_le
  rw [hmax, Nat.mul_le_mul_left_iff (by decide), Nat.pow_le_pow_iff_right Nat.one_lt_two] at hle
  exact hle

theorem Image.block_size_eq (img : Image) : EXT2_BLOCK_SIZE (super img.part) = blocksize img :=
  block_size_of_lt (lt_of_le_of_lt img.log_block_size_le (by decide))

theorem Image.blocksize_cases (img : Image) :
    blocksize img = 1024 ∨ blocksize img = 2048 ∨ blocksize img = 4096 := by
  rw [← img.block_size_eq]
  exact block_size_cases img.log_block_size_le

/-- A block on the partition is read from its place. -/
theorem block_eq {b i : ℕ} (h : (b + 1) * blocksize img ≤ IDE_SECTOR_SIZE * W)
    (hi : i < blocksize img) : block img b i = img.part (b * blocksize img + i) := by
  have hsectors : IDE_SECTOR_SIZE * (blocksize img / IDE_SECTOR_SIZE) = blocksize img := by
    rcases img.blocksize_cases with hb | hb | hb <;> rw [hb] <;> decide
  have hbytes : IDE_SECTOR_SIZE * block_to_sector img b = b * blocksize img := by
    rw [block_to_sector, Nat.mul_left_comm, hsectors]
  have hlt : block_to_sector img b < W := by
    have hpos : 0 < blocksize img := blocksize_pos
    rw [Nat.succ_mul, ← hbytes] at h
    exact Nat.lt_of_mul_lt_mul_left (a := IDE_SECTOR_SIZE) (by omega)
  rw [block, if_pos hi, sector, Nat.mod_eq_of_lt hlt, hbytes]

theorem block_ptr_eq {b : ℕ} (h : (b + 1) * blocksize img ≤ IDE_SECTOR_SIZE * W) {i : ℕ}
    (hi : i < nr_ind_blocks img) : block_ptr (block img b) i = ptr_on_disk img b i := by
  have hin : 4 * i + 4 ≤ blocksize img := by
    unfold nr_ind_blocks at hi
    omega
  have hsize : blocksize img ≤ 4096 := by
    rcases img.blocksize_cases with hb | hb | hb <;> omega
  refine load32_congr (le_trans hin (le_trans hsize (by decide))) fun j hj => ?_
  exact block_eq h (by omega)

/-- The code's walk is the format's, unless it comes to a hole. -/
theorem leaf_eq_mapped_iff {depth root k : ℕ} (hk : k < nr_ind_blocks img ^ depth)
    (h : OnPartition img depth root k) :
    leaf img depth root k = mapped img depth root k ↔ ZerosBehindHole img depth root k := by
  induction depth generalizing root k with
  | zero => exact iff_of_true rfl trivial
  | succ depth ih =>
      rw [mapped, ZerosBehindHole]
      by_cases hroot : root = 0
      · rw [if_pos hroot, if_pos hroot, hroot]
      · rw [if_neg hroot, if_neg hroot]
        obtain ⟨hblock, hrest⟩ := h hroot
        have hpos : 0 < nr_ind_blocks img ^ depth := Nat.pow_pos nr_ind_blocks_pos
        have hdiv : k / nr_ind_blocks img ^ depth < nr_ind_blocks img := by
          rw [Nat.div_lt_iff_lt_mul hpos, ← Nat.pow_succ']
          exact hk
        rw [leaf, block_ptr_eq hblock hdiv]
        exact ih (Nat.mod_lt _ hpos) hrest

/-- The ranges of the code are those of the format. -/
theorem block_nr_eq (img : Image) (inode : ByteMem) (k : ℕ) :
    block_nr img inode k =
      leaf img (block_path img inode k).depth (block_path img inode k).root
        (block_path img inode k).index := by
  unfold block_nr block_path
  dsimp only
  split_ifs
  · rfl
  · rfl
  · rfl
  · rfl

theorem index_lt {inode : ByteMem} {k : ℕ} (h : k < max_blocks img) :
    (block_path img inode k).index < nr_ind_blocks img ^ (block_path img inode k).depth := by
  unfold max_blocks at h
  unfold block_path
  dsimp only
  split_ifs
  · exact Nat.one_pos
  · rw [pow_one]
    dsimp only
    omega
  · dsimp only
    omega
  · dsimp only
    omega

/-- `ext2fs_inode_block` returns the number of the block that the format defines if and only
if there is no hole on the way to it, or one behind which block 0 leads to a zero. -/
theorem block_map_iff (img : Image) {inode : ByteMem} {k : ℕ} (h : FitsFormat img inode k)
    (s : Scratch) :
    (ext2fs_inode_block img inode k).value s = some (ext2_block img inode k) ↔
      HoleHarmless img inode k := by
  obtain ⟨buf, hrun⟩ := ext2fs_inode_block_apply img inode k s
  rw [ScratchM.value_eq hrun, Option.some.injEq, block_nr_eq]
  exact leaf_eq_mapped_iff (index_lt h.lt_max) h.on_partition

/-- A block that fits is read from its place, or is a hole. -/
theorem content_eq {b i : ℕ} (h : b ≠ 0 → (b + 1) * blocksize img ≤ IDE_SECTOR_SIZE * W)
    (hi : i < blocksize img) : content img b i = ext2_content img b i := by
  unfold content ext2_content
  by_cases hb : b = 0
  · rw [if_pos hb, if_neg (not_not.mpr hb), zero_block, if_pos hi]
  · rw [if_neg hb, if_pos hb, block_eq (h hb) hi]

theorem leaf_content_iff {depth root k i : ℕ} (hk : k < nr_ind_blocks img ^ depth)
    (h : OnPartition img depth root k) (hi : i < blocksize img)
    (hdata : mapped img depth root k ≠ 0 →
      (mapped img depth root k + 1) * blocksize img ≤ IDE_SECTOR_SIZE * W) :
    content img (leaf img depth root k) i = ext2_content img (mapped img depth root k) i ↔
      ZeroBehindHole img i depth root k := by
  induction depth generalizing root k with
  | zero => exact iff_of_true (content_eq hdata hi) trivial
  | succ depth ih =>
      rw [mapped] at hdata ⊢
      rw [ZeroBehindHole]
      by_cases hroot : root = 0
      · rw [if_pos hroot, if_pos hroot, hroot, ext2_content, if_pos rfl]
      · rw [if_neg hroot] at hdata ⊢
        rw [if_neg hroot]
        obtain ⟨hblock, hrest⟩ := h hroot
        have hpos : 0 < nr_ind_blocks img ^ depth := Nat.pow_pos nr_ind_blocks_pos
        have hdiv : k / nr_ind_blocks img ^ depth < nr_ind_blocks img := by
          rw [Nat.div_lt_iff_lt_mul hpos, ← Nat.pow_succ']
          exact hk
        rw [leaf, block_ptr_eq hblock hdiv]
        exact ih (Nat.mod_lt _ hpos) hrest hdata

/-- The code finds a byte of the file unless it takes it from behind a hole where there is
another one than zero. -/
theorem found_byte_iff {inode : ByteMem} {i : ℕ} (h : BlockFits img inode (i / blocksize img)) :
    found_byte img inode i = ext2_byte img inode i ↔
      HoleReadsZero img inode (i / blocksize img) (i % blocksize img) := by
  rw [found_byte, ext2_byte, block_nr_eq]
  exact leaf_content_iff (index_lt h.lt_max) h.on_partition (Nat.mod_lt _ blocksize_pos) h.data

/-- There is no hole on the way to one of the first blocks. -/
theorem holeHarmless_direct {inode : ByteMem} {k : ℕ} (h : k < EXT2_NR_DIR_BLOCKS) :
    HoleHarmless img inode k := by
  have hpath : block_path img inode k = ⟨0, inode_ptr inode k, 0⟩ := if_pos h
  rw [HoleHarmless, hpath]
  exact trivial

theorem holeReadsZero_direct {inode : ByteMem} {k i : ℕ} (h : k < EXT2_NR_DIR_BLOCKS) :
    HoleReadsZero img inode k i := by
  have hpath : block_path img inode k = ⟨0, inode_ptr inode k, 0⟩ := if_pos h
  rw [HoleReadsZero, hpath]
  exact trivial

/-- A file of one block. -/
theorem one_block_fits {inode : ByteMem} (hsize : inode_size inode ≤ blocksize img)
    (hblock : (inode_ptr inode 0 + 1) * blocksize img ≤ IDE_SECTOR_SIZE * W) :
    FileFits img inode := by
  intro k hk
  obtain rfl : k = 0 := by
    by_contra hne
    have hle : 1 * blocksize img ≤ k * blocksize img :=
      Nat.mul_le_mul_right _ (Nat.one_le_iff_ne_zero.mpr hne)
    omega
  have hpath : block_path img inode 0 = ⟨0, inode_ptr inode 0, 0⟩ := by
    rw [block_path]
    exact if_pos (by decide)
  have hmax : 0 < max_blocks img := by
    rw [max_blocks]
    exact Nat.lt_of_lt_of_le (by decide : 0 < EXT2_NR_DIR_BLOCKS) (by omega)
  refine ⟨⟨hmax, ?_⟩, fun _ => ?_⟩
  · rw [hpath]
    exact trivial
  · rw [ext2_block, hpath]
    exact hblock

/-- A hole that does no harm to the number of the block does none to its bytes. -/
theorem HoleHarmless.block_nr_eq {inode : ByteMem} {k : ℕ} (h : FitsFormat img inode k)
    (hhole : HoleHarmless img inode k) : block_nr img inode k = ext2_block img inode k := by
  rw [Ext2.block_nr_eq]
  exact (leaf_eq_mapped_iff (index_lt h.lt_max) h.on_partition).mpr hhole

/-! ## Two partitions -/

section OneFile

/-- Blocks of 1024 bytes, with the file `/f` of two ones in block 5. -/
def one_file_part : ℕ → UInt8
  -- the super block: 8 inodes and 8 blocks, in one group, and the magic number
  | 1024 => 8
  | 1028 => 8
  | 1044 => 1
  | 1056 => 8
  | 1064 => 8
  | 1080 => 0x53
  | 1081 => 0xef
  -- the inodes of the group begin in block 3
  | 2056 => 3
  -- the root directory: 1024 bytes in block 4
  | 3205 => 4
  | 3240 => 4
  -- the file: 2 bytes in block 5
  | 3332 => 2
  | 3368 => 5
  -- its entry: inode 3, a record of 1024 bytes, one character
  | 4096 => 3
  | 4101 => 4
  | 4102 => 1
  | 4103 => 1
  | 4104 => 0x66
  | 5120 => 1
  | 5121 => 1
  | _ => 0

theorem one_file_magic : load16 (super one_file_part) 56 = EXT2_SUPER_MAGIC := by decide

theorem one_file_block_size :
    EXT2_MIN_BLOCK_SIZE * 2 ^ load32 (super one_file_part) 24 ≤ EXT2_MAX_BLOCK_SIZE := by decide

theorem one_file_blocks : load32 (super one_file_part) 32 ≠ 0 := by decide

theorem one_file_inodes : 0 < load32 (super one_file_part) 40 := by decide

def one_file : Image :=
  ⟨one_file_part, one_file_magic, one_file_block_size, one_file_blocks, one_file_inodes,
    fun _ => 0, fun _ => 0⟩

theorem one_file_blocksize : blocksize one_file = 1024 := rfl

/-- A file with its one block in the file system. -/
theorem one_file_fits {inode : ByteMem} (hsize : inode_size inode ≤ 1024)
    (hblock : inode_ptr inode 0 < 8) : FileFits one_file inode := by
  refine one_block_fits (by rwa [one_file_blocksize]) ?_
  rw [one_file_blocksize]
  unfold IDE_SECTOR_SIZE W
  omega

end OneFile

/-! A partition with a boot block, and a file whose block 12 is a hole. -/

section BootBlock

def boot_block_part : ℕ → UInt8
  | 0 => 1
  | n + 1 => one_file_part (n + 1)

/-- The super block is behind the boot block. -/
theorem boot_block_super : super boot_block_part = super one_file_part := by
  funext i
  have hpos : 1024 + i ≠ 0 := by omega
  obtain ⟨n, hn⟩ := Nat.exists_eq_succ_of_ne_zero hpos
  rw [super, super, hn]
  rfl

theorem boot_block_magic : load16 (super boot_block_part) 56 = EXT2_SUPER_MAGIC :=
  boot_block_super ▸ one_file_magic

theorem boot_block_size :
    EXT2_MIN_BLOCK_SIZE * 2 ^ load32 (super boot_block_part) 24 ≤ EXT2_MAX_BLOCK_SIZE :=
  boot_block_super ▸ one_file_block_size

theorem boot_block_blocks : load32 (super boot_block_part) 32 ≠ 0 :=
  boot_block_super ▸ one_file_blocks

theorem boot_block_inodes : 0 < load32 (super boot_block_part) 40 :=
  boot_block_super ▸ one_file_inodes

def boot_block : Image :=
  ⟨boot_block_part, boot_block_magic, boot_block_size, boot_block_blocks, boot_block_inodes,
    fun _ => 0, fun _ => 0⟩

/-- The inode of a file that has holes only. -/
def holes : ByteMem := fun _ => 0

theorem boot_block_path : block_path boot_block holes 12 = ⟨1, 0, 0⟩ := rfl

theorem boot_block_fits : FitsFormat boot_block holes 12 where
  lt_max := by decide +kernel
  on_partition := by
    rw [boot_block_path]
    exact fun h => absurd rfl h

/-- The format has a hole at index 12; the code returns the first word of the boot block. -/
theorem hole_not_found :
    FitsFormat boot_block holes 12 ∧
      (ext2fs_inode_block boot_block holes 12).value (mounted boot_block) = some 1 ∧
        ext2_block boot_block holes 12 = 0 ∧
          (ext2fs_inode_block boot_block holes 12).value (mounted boot_block) ≠
            some (ext2_block boot_block holes 12) :=
  ⟨boot_block_fits, by decide +kernel, by decide +kernel, by decide +kernel⟩

theorem block_map_boot_block :
    FitsFormat boot_block holes 12 ∧
      ((ext2fs_inode_block boot_block holes 12).value (mounted boot_block) =
          some (ext2_block boot_block holes 12) ↔
        HoleHarmless boot_block holes 12) :=
  ⟨boot_block_fits, block_map_iff boot_block boot_block_fits _⟩

end BootBlock

end CsBoot.Ide.Ext2
