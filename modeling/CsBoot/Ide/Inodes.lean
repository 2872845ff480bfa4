/-
Looking up inodes: `ext2fs_get_gdesc` and `ext2fs_get_inode` of `src/src/ide/ext2fs.c`, from
the descriptor that `ext2fs_mount` gives, with reads that may fail.

The format puts the descriptors of the groups behind the super block, 32 bytes each, and
the inodes of a group into a table of their own, 128 bytes each. The code keeps one sector
of descriptors and the number of the first. That the two agree is the invariant.

A miss reads over the sector that is kept and sets the number when the read has succeeded.
So a read that fails after its transfer leaves the descriptors of other groups under the old
number, and a later lookup goes to another group's table (`cache_gone_stale`).
-/
import CsBoot.Lib.Run
import CsBoot.Lib.SkipBlocks
import CsBoot.Ide.Mount
import CsBoot.Ide.OpenFiles

set_option autoImplicit false

namespace CsBoot.Ide.Ext2

open ByteMem SkipBlocks

/-! ## The format -/

section Format

variable (part : ℕ → UInt8)

def block_size : ℕ := EXT2_MIN_BLOCK_SIZE * 2 ^ sb_log_block_size (super part)

/-- Where the descriptors of the groups begin, in the block behind the super block. -/
def descriptors : ℕ := (sb_first_data_block (super part) + 1) * block_size part

/-- The end of the file system. -/
def fs_end : ℕ := sb_blocks_count (super part) * block_size part

def descriptor (group : ℕ) : ByteMem := fun i => part (descriptors part + 32 * group + i)

/-- Where the inodes of a group begin. -/
def inode_table (group : ℕ) : ℕ := load32 (descriptor part group) 8 * block_size part

/-- The group of an inode, and its place there. -/
def group_of (ino : ℕ) : ℕ := (ino - 1) / sb_inodes_per_group (super part)
def index_in_group (ino : ℕ) : ℕ := (ino - 1) % sb_inodes_per_group (super part)

/-- The 128 bytes of an inode. -/
def inode_on_disk (ino : ℕ) : List UInt8 :=
  firstBytes
    (fun i => part (inode_table part (group_of part ino) + 128 * index_in_group part ino + i))
    128

/-- The sector that they are in. -/
def inode_sector (ino : ℕ) : ℕ :=
  (inode_table part (group_of part ino) + 128 * index_in_group part ino) / IDE_SECTOR_SIZE

/-- The numbers of the inodes. -/
structure IsInode (ino : ℕ) : Prop where
  one_le : 1 ≤ ino
  le_count : ino ≤ sb_inodes_count (super part)

/-- A file system with inodes of 128 bytes. The number of the sectors of a partition has 32
bits. -/
structure WellFormed : Prop where
  magic : sb_magic (super part) = EXT2_SUPER_MAGIC
  log_block_size : sb_log_block_size (super part) ≤ 2
  first_data_block :
    sb_first_data_block (super part) = if sb_log_block_size (super part) = 0 then 1 else 0
  blocks_per_group : sb_blocks_per_group (super part) ≠ 0
  inodes_per_group : sb_inodes_per_group (super part) ≠ 0
  /-- The bitmap of the inodes of a group is one block. -/
  inode_bitmap : sb_inodes_per_group (super part) ≤ 8 * block_size part
  on_partition : fs_end part ≤ IDE_SECTOR_SIZE * W
  /-- The descriptors and the tables lie in the file system, and no table in block 0. -/
  descriptor_le : ∀ ino, IsInode part ino →
    descriptors part + 32 * (group_of part ino + 1) ≤ fs_end part
  table_ne_zero : ∀ ino, IsInode part ino → inode_table part (group_of part ino) ≠ 0
  table_le : ∀ ino, IsInode part ino →
    inode_table part (group_of part ino) + 128 * sb_inodes_per_group (super part) ≤ fs_end part

end Format

/-! ## The code -/

namespace EXT2_DESC_T

variable (part : ℕ → UInt8) (reads : Reads) (desc : EXT2_DESC_T)

/-- `&gdesc_cache[group_nr - gdesc_first]` -/
def cached (group_nr : ℕ) : ByteMem := fun i =>
  desc.gdesc_cache (32 * (group_nr - desc.gdesc_first) + i)

/-- The sector with the descriptor of this group. -/
def gdesc_sec_nr (group_nr : ℕ) : ℕ :=
  (EXT2_BLOCK_TO_SECTOR desc.blocksize desc.gdesc_block + group_nr / EXT2_GDESC_CACHE_SIZE) % W

/-- The descriptor of this group is not in the cache. -/
def Miss (group_nr : ℕ) : Prop :=
  group_nr < desc.gdesc_first ∨ (desc.gdesc_first + EXT2_GDESC_CACHE_SIZE) % W ≤ group_nr

instance (group_nr : ℕ) : Decidable (desc.Miss group_nr) := inferInstanceAs (Decidable (_ ∨ _))

/-- `ext2fs_get_gdesc`: the descriptor of the group, and the cache that it leaves. -/
def ext2fs_get_gdesc (group_nr : ℕ) : Option ByteMem × EXT2_DESC_T :=
  if desc.Miss group_nr then
    match PARTITION_READ part reads (desc.gdesc_sec_nr group_nr) with
    | none =>
      (none, { desc with
        gdesc_cache := reads.left (desc.gdesc_sec_nr group_nr) desc.gdesc_cache })
    | some gdesc_cache =>
      let desc' := { desc with
        gdesc_cache := gdesc_cache
        gdesc_first := group_nr / EXT2_GDESC_CACHE_SIZE * EXT2_GDESC_CACHE_SIZE }
      (some (desc'.cached group_nr), desc')
  else (some (desc.cached group_nr), desc)

/-- The rest of `ext2fs_get_inode`, with the descriptor of the group: the inode whose number
is one more than `n`. -/
def inode_of_table (n : ℕ) (gdesc : ByteMem) : Option (List UInt8) :=
  if load32 gdesc 8 = 0 then none
  else
    -- byte offset within group inode table
    let offset := n % desc.inodes_per_group * 128 % W
    let sec_nr :=
      (EXT2_BLOCK_TO_SECTOR desc.blocksize (load32 gdesc 8) + offset / IDE_SECTOR_SIZE) % W
    (PARTITION_READ part reads sec_nr).map fun buf =>
      firstBytes (fun i => buf (offset % IDE_SECTOR_SIZE + i)) 128

/-- `ext2fs_get_inode`: the 128 bytes of the inode, and the cache that it leaves. -/
def ext2fs_get_inode (ino : ℕ) : Option (List UInt8) × EXT2_DESC_T :=
  let n := (ino + W - 1) % W
  let r := desc.ext2fs_get_gdesc part reads (n / desc.inodes_per_group)
  (r.1.bind (r.2.inode_of_table part reads n), r.2)

/-- The read of a sector of descriptors fails, which is only read on a miss. -/
def DescriptorLost (group_nr : ℕ) : Prop :=
  desc.Miss group_nr ∧ reads.ok (desc.gdesc_sec_nr group_nr) = false

/-- What is in the cache, and that it begins with the same group. -/
structure SameCache (desc' : EXT2_DESC_T) : Prop where
  first : desc'.gdesc_first = desc.gdesc_first
  cache : ∀ i, i < IDE_SECTOR_SIZE → desc'.gdesc_cache i = desc.gdesc_cache i

/-- What is kept while inodes are looked up: the numbers of the file system, and in the
cache the descriptors from `gdesc_first` on. -/
structure CacheOf : Prop where
  blocksize : desc.blocksize = block_size part
  inodes_per_group : desc.inodes_per_group = sb_inodes_per_group (super part)
  gdesc_block : desc.gdesc_block = sb_first_data_block (super part) + 1
  cache : ∀ i, i < IDE_SECTOR_SIZE →
    desc.gdesc_cache i = part (descriptors part + 32 * desc.gdesc_first + i)

end EXT2_DESC_T

/-! ## Sectors -/

section Sectors

variable {part : ℕ → UInt8} (h : WellFormed part)

include h

theorem WellFormed.block_size_eq : EXT2_BLOCK_SIZE (super part) = block_size part :=
  block_size_of_lt (lt_of_le_of_lt h.log_block_size (by decide))

/-- A block is a number of sectors. -/
theorem WellFormed.sectors :
    IDE_SECTOR_SIZE * (block_size part / IDE_SECTOR_SIZE) = block_size part := by
  rw [← h.block_size_eq]
  rcases block_size_cases h.log_block_size with hb | hb | hb <;> rw [hb] <;> decide

/-- The first sector of a block, and some sectors further, when this is in the range of the
numbers. -/
theorem WellFormed.sector_of_block {b k : ℕ}
    (hlt : b * block_size part + IDE_SECTOR_SIZE * k < IDE_SECTOR_SIZE * W) :
    IDE_SECTOR_SIZE * ((EXT2_BLOCK_TO_SECTOR (block_size part) b + k) % W) =
      b * block_size part + IDE_SECTOR_SIZE * k := by
  have hbytes : IDE_SECTOR_SIZE * (b * (block_size part / IDE_SECTOR_SIZE) + k) =
      b * block_size part + IDE_SECTOR_SIZE * k := by
    rw [Nat.mul_add, Nat.mul_left_comm, h.sectors]
  have hrange : b * (block_size part / IDE_SECTOR_SIZE) + k < W := by
    rw [← hbytes] at hlt
    exact Nat.lt_of_mul_lt_mul_left hlt
  rw [EXT2_BLOCK_TO_SECTOR, Nat.mod_add_mod, Nat.mod_eq_of_lt hrange, hbytes]

theorem WellFormed.descriptors_lt : descriptors part < IDE_SECTOR_SIZE * W := by
  have hfirst : sb_first_data_block (super part) ≤ 1 := by
    rw [h.first_data_block]
    split_ifs
    · exact le_rfl
    · exact Nat.zero_le 1
  have hsize : block_size part ≤ EXT2_MAX_BLOCK_SIZE := by
    rw [← h.block_size_eq]
    rcases block_size_cases h.log_block_size with hb | hb | hb <;> rw [hb] <;> decide
  have hle : descriptors part ≤ 2 * EXT2_MAX_BLOCK_SIZE :=
    Nat.mul_le_mul (Nat.succ_le_succ hfirst) hsize
  exact lt_of_le_of_lt hle (by decide)

theorem WellFormed.gdesc_block_eq :
    gdesc_block_of (block_size part) = sb_first_data_block (super part) + 1 := by
  rw [gdesc_block_of, h.first_data_block, block_size]
  have hlog := h.log_block_size
  interval_cases sb_log_block_size (super part)
  · decide
  · decide
  · decide

end Sectors

/-- A file system that can be read is mounted. -/
theorem WellFormed.mounted {part : ℕ → UInt8} (h : WellFormed part) {reads : Reads}
    (hreads : ∀ sec_nr, reads.ok sec_nr = true) :
    ∃ desc, ext2fs_mount part reads = .mounted desc := by
  have hdef : ¬(22 ≤ sb_log_block_size (super part) ∨ sb_blocks_per_group (super part) = 0) := by
    have hlog := h.log_block_size
    exact not_or.mpr ⟨by omega, h.blocks_per_group⟩
  rw [ext2fs_mount_eq (hreads 2) h.magic, if_neg fun hundef => hdef ((undefined_iff _).mp hundef),
    PARTITION_READ_of_true (hreads _)]
  exact ⟨_, rfl⟩

/-! ## One lookup -/

namespace EXT2_DESC_T

variable {part : ℕ → UInt8} {reads : Reads} {desc : EXT2_DESC_T}

/-- A mount reads the first descriptors. -/
theorem cacheOf_mount (h : WellFormed part) (hmount : ext2fs_mount part reads = .mounted desc) :
    CacheOf part desc := by
  obtain ⟨-, rfl⟩ := ext2fs_mount_mounted hmount
  have hsector : IDE_SECTOR_SIZE * gdesc_sector (block_size part) = descriptors part := by
    have hbytes := h.sector_of_block (b := sb_first_data_block (super part) + 1) (k := 0)
      h.descriptors_lt
    rw [Nat.add_zero, Nat.mul_zero, Nat.add_zero, EXT2_BLOCK_TO_SECTOR, Nat.mod_mod] at hbytes
    rw [gdesc_sector, EXT2_BLOCK_TO_SECTOR, h.gdesc_block_eq]
    exact hbytes
  refine ⟨h.block_size_eq, rfl, ?_, fun i _ => ?_⟩
  · rw [desc_of, h.block_size_eq]
    exact h.gdesc_block_eq
  · rw [desc_of, h.block_size_eq, hsector, Nat.mul_zero, Nat.add_zero]

/-- A group that is looked up in the cache when it is there. -/
theorem cached_eq (hc : CacheOf part desc) {group : ℕ} (hle : desc.gdesc_first ≤ group)
    (hlt : group < desc.gdesc_first + EXT2_GDESC_CACHE_SIZE) {i : ℕ} (hi : i < 32) :
    desc.cached group i = descriptor part group i := by
  have hin : 32 * (group - desc.gdesc_first) + i < IDE_SECTOR_SIZE := by
    unfold EXT2_GDESC_CACHE_SIZE IDE_SECTOR_SIZE at *
    omega
  rw [cached, hc.cache _ hin, descriptor]
  congr 1
  omega

/-- The sector that a miss reads holds the descriptors from the new `gdesc_first` on. -/
theorem gdesc_sec_nr_eq (h : WellFormed part) (hc : CacheOf part desc) {ino : ℕ}
    (hino : IsInode part ino) :
    IDE_SECTOR_SIZE * desc.gdesc_sec_nr (group_of part ino) =
      descriptors part +
        32 * (group_of part ino / EXT2_GDESC_CACHE_SIZE * EXT2_GDESC_CACHE_SIZE) := by
  have hle := h.descriptor_le ino hino
  have hend := h.on_partition
  have hdiv := Nat.div_mul_le_self (group_of part ino) EXT2_GDESC_CACHE_SIZE
  have hsize : 32 * (group_of part ino / EXT2_GDESC_CACHE_SIZE * EXT2_GDESC_CACHE_SIZE) =
      IDE_SECTOR_SIZE * (group_of part ino / EXT2_GDESC_CACHE_SIZE) := by
    unfold EXT2_GDESC_CACHE_SIZE IDE_SECTOR_SIZE
    omega
  rw [gdesc_sec_nr, hc.blocksize, hc.gdesc_block, hsize]
  refine h.sector_of_block ?_
  rw [← hsize]
  unfold descriptors at hle
  omega

/-- A failing read of descriptors that leaves the cache as it was keeps the invariant. -/
theorem CacheOf.left (hc : CacheOf part desc) {sec_nr : ℕ}
    (hleft : ∀ i, i < IDE_SECTOR_SIZE →
      reads.left sec_nr desc.gdesc_cache i = desc.gdesc_cache i) :
    CacheOf part { desc with gdesc_cache := reads.left sec_nr desc.gdesc_cache } where
  blocksize := hc.blocksize
  inodes_per_group := hc.inodes_per_group
  gdesc_block := hc.gdesc_block
  cache i hi := (hleft i hi).trans (hc.cache i hi)

theorem ext2fs_get_gdesc_lost {group_nr : ℕ} (h : desc.DescriptorLost reads group_nr) :
    desc.ext2fs_get_gdesc part reads group_nr =
      (none, { desc with
        gdesc_cache := reads.left (desc.gdesc_sec_nr group_nr) desc.gdesc_cache }) := by
  rw [ext2fs_get_gdesc, if_pos h.1, PARTITION_READ_of_false h.2]

/-- Without a failure the descriptor is the one on disk, and the cache is right afterwards. -/
theorem ext2fs_get_gdesc_right (h : WellFormed part) (hc : CacheOf part desc) {ino : ℕ}
    (hino : IsInode part ino) (hread : ¬desc.DescriptorLost reads (group_of part ino)) :
    ∃ gdesc desc', desc.ext2fs_get_gdesc part reads (group_of part ino) = (some gdesc, desc') ∧
      (∀ i, i < 32 → gdesc i = descriptor part (group_of part ino) i) ∧ CacheOf part desc' := by
  rw [ext2fs_get_gdesc]
  by_cases hmiss : desc.Miss (group_of part ino)
  · rw [if_pos hmiss]
    have hok : reads.ok (desc.gdesc_sec_nr (group_of part ino)) = true := by
      rw [← Bool.not_eq_false]
      exact fun hfail => hread ⟨hmiss, hfail⟩
    rw [PARTITION_READ_of_true hok]
    have hc' : CacheOf part { desc with
        gdesc_cache := fun i =>
          part (IDE_SECTOR_SIZE * desc.gdesc_sec_nr (group_of part ino) + i)
        gdesc_first :=
          group_of part ino / EXT2_GDESC_CACHE_SIZE * EXT2_GDESC_CACHE_SIZE } := by
      refine ⟨hc.blocksize, hc.inodes_per_group, hc.gdesc_block, fun i _ => ?_⟩
      rw [gdesc_sec_nr_eq h hc hino]
    have hfirst := Nat.div_mul_le_self (group_of part ino) EXT2_GDESC_CACHE_SIZE
    have hlast := Nat.lt_div_mul_add (a := group_of part ino) (b := EXT2_GDESC_CACHE_SIZE)
      (by decide)
    exact ⟨_, _, rfl, fun i hi => cached_eq hc' hfirst hlast hi, hc'⟩
  · rw [if_neg hmiss]
    obtain ⟨hfirst, hlast⟩ := not_or.mp hmiss
    have hmod := Nat.mod_le (desc.gdesc_first + EXT2_GDESC_CACHE_SIZE) W
    exact ⟨_, _, rfl, fun i hi => cached_eq hc (by omega) (by omega) hi, hc⟩

theorem index_in_group_lt (h : WellFormed part) (ino : ℕ) :
    index_in_group part ino < sb_inodes_per_group (super part) :=
  Nat.mod_lt _ (Nat.pos_of_ne_zero h.inodes_per_group)

/-- The offset of an inode in its group's table does not wrap. -/
theorem index_mod_W (h : WellFormed part) (ino : ℕ) :
    index_in_group part ino * 128 % W = 128 * index_in_group part ino := by
  have hlt := index_in_group_lt h ino
  have hsize : block_size part ≤ EXT2_MAX_BLOCK_SIZE := by
    rw [← h.block_size_eq]
    rcases block_size_cases h.log_block_size with hb | hb | hb <;> rw [hb] <;> decide
  have hmap := h.inode_bitmap
  rw [Nat.mul_comm]
  refine Nat.mod_eq_of_lt ?_
  unfold EXT2_MAX_BLOCK_SIZE at hsize
  unfold W
  omega

/-- The first byte of the sector of an inode: a table begins with a sector. -/
theorem inode_sector_byte (h : WellFormed part) (ino : ℕ) :
    IDE_SECTOR_SIZE * inode_sector part ino =
      inode_table part (group_of part ino) +
        IDE_SECTOR_SIZE * (128 * index_in_group part ino / IDE_SECTOR_SIZE) := by
  have htable : inode_table part (group_of part ino) = IDE_SECTOR_SIZE *
      (load32 (descriptor part (group_of part ino)) 8 *
        (block_size part / IDE_SECTOR_SIZE)) := by
    rw [inode_table, Nat.mul_left_comm, h.sectors]
  rw [inode_sector, htable, Nat.mul_add_div (by decide), Nat.mul_add]

/-- The sector that the code computes from the descriptor is the sector of the inode. -/
theorem inode_sector_of_descriptor (h : WellFormed part) (hc : CacheOf part desc) {ino : ℕ}
    (hino : IsInode part ino) :
    (EXT2_BLOCK_TO_SECTOR desc.blocksize (load32 (descriptor part (group_of part ino)) 8) +
        128 * index_in_group part ino / IDE_SECTOR_SIZE) % W = inode_sector part ino := by
  have hle := h.table_le ino hino
  have hend := h.on_partition
  have hlt := index_in_group_lt h ino
  have hmul := Nat.mul_div_le (128 * index_in_group part ino) IDE_SECTOR_SIZE
  have hbytes := inode_sector_byte h ino
  unfold inode_table at hle hbytes
  rw [hc.blocksize]
  have hpos : 0 < IDE_SECTOR_SIZE := by decide
  refine Nat.eq_of_mul_eq_mul_left hpos ?_
  rw [h.sector_of_block (by omega), hbytes]

/-- With the right descriptor, the inode is read from its place in the table. -/
theorem inode_of_table_right (h : WellFormed part) (hc : CacheOf part desc) (reads : Reads)
    {ino : ℕ} (hino : IsInode part ino) {gdesc : ByteMem}
    (hgdesc : ∀ i, i < 32 → gdesc i = descriptor part (group_of part ino) i) :
    desc.inode_of_table part reads (ino - 1) gdesc =
      if reads.ok (inode_sector part ino) then some (inode_on_disk part ino) else none := by
  have htable : load32 gdesc 8 = load32 (descriptor part (group_of part ino)) 8 :=
    load32_congr (by decide) fun i hi => hgdesc _ (by omega)
  have hne : load32 gdesc 8 ≠ 0 := by
    intro hzero
    rw [htable] at hzero
    exact h.table_ne_zero ino hino (by rw [inode_table, hzero, Nat.zero_mul])
  have hindex : (ino - 1) % desc.inodes_per_group = index_in_group part ino := by
    rw [hc.inodes_per_group, index_in_group]
  rw [inode_of_table, if_neg hne]
  dsimp only
  rw [hindex, index_mod_W h, htable, inode_sector_of_descriptor h hc hino]
  cases hread : reads.ok (inode_sector part ino) with
  | false =>
      rw [PARTITION_READ_of_false hread]
      rfl
  | true =>
      rw [PARTITION_READ_of_true hread, Option.map_some, if_pos rfl, inode_on_disk]
      refine congrArg some (firstBytes_congr fun i _ => congrArg part ?_)
      rw [inode_sector_byte h]
      have hdiv := Nat.div_add_mod (128 * index_in_group part ino) IDE_SECTOR_SIZE
      omega

/-- The two halves of `ext2fs_get_inode`. -/
theorem ext2fs_get_inode_eq {ino n : ℕ} {gdesc : Option ByteMem} {desc' : EXT2_DESC_T}
    (hn : (ino + W - 1) % W = n)
    (hrun : desc.ext2fs_get_gdesc part reads (n / desc.inodes_per_group) = (gdesc, desc')) :
    desc.ext2fs_get_inode part reads ino =
      (gdesc.bind (desc'.inode_of_table part reads n), desc') := by
  have heq : desc.ext2fs_get_inode part reads ino =
      ((desc.ext2fs_get_gdesc part reads ((ino + W - 1) % W / desc.inodes_per_group)).1.bind
          ((desc.ext2fs_get_gdesc part reads
              ((ino + W - 1) % W / desc.inodes_per_group)).2.inode_of_table
            part reads ((ino + W - 1) % W)),
        (desc.ext2fs_get_gdesc part reads ((ino + W - 1) % W / desc.inodes_per_group)).2) := rfl
  rw [heq, hn, hrun]

section Lookup

variable {ino : ℕ}

/-- The numbers that `ext2fs_get_inode` goes on with. -/
theorem inode_number (hc : CacheOf part desc) (hino : IsInode part ino) :
    (ino + W - 1) % W = ino - 1 ∧ (ino - 1) / desc.inodes_per_group = group_of part ino := by
  have hcount : ino < W := lt_of_le_of_lt hino.le_count (load32_lt _ _)
  have hone := hino.one_le
  refine ⟨?_, ?_⟩
  · rw [Nat.add_comm, Nat.add_sub_assoc hone, Nat.add_mod_left]
    exact Nat.mod_eq_of_lt (by omega)
  · rw [hc.inodes_per_group, group_of]

/-- Where the descriptor is lost nothing is returned, and the cache is what the read left. -/
theorem ext2fs_get_inode_lost (hc : CacheOf part desc) (hino : IsInode part ino)
    (hlost : desc.DescriptorLost reads (group_of part ino)) :
    desc.ext2fs_get_inode part reads ino = (none, { desc with
      gdesc_cache := reads.left (desc.gdesc_sec_nr (group_of part ino)) desc.gdesc_cache }) := by
  obtain ⟨hn, hgroup⟩ := inode_number hc hino
  have hrun := @ext2fs_get_gdesc_lost part _ _ _ hlost
  rw [← hgroup] at hrun
  rw [ext2fs_get_inode_eq hn hrun, hgroup]
  rfl

/-- Otherwise the inode is returned when its sector can be read. -/
theorem ext2fs_get_inode_right (h : WellFormed part) (hc : CacheOf part desc)
    (hino : IsInode part ino) (hread : ¬desc.DescriptorLost reads (group_of part ino)) :
    ∃ desc', desc.ext2fs_get_inode part reads ino =
        (if reads.ok (inode_sector part ino) then some (inode_on_disk part ino) else none, desc') ∧
      CacheOf part desc' := by
  obtain ⟨hn, hgroup⟩ := inode_number hc hino
  obtain ⟨gdesc, desc', hrun, hgdesc, hc'⟩ := ext2fs_get_gdesc_right h hc hino hread
  rw [← hgroup] at hrun
  refine ⟨desc', ?_, hc'⟩
  rw [ext2fs_get_inode_eq hn hrun, Option.bind_some, inode_of_table_right h hc' reads hino hgdesc]

end Lookup

end EXT2_DESC_T

/-! ## Runs of lookups -/

/-- A call of `ext2fs_get_inode` for an inode of the file system, and what the reads do while
it lasts. -/
structure InodeLookup (part : ℕ → UInt8) where
  ino : ℕ
  isInode : IsInode part ino
  reads : Reads

section Lookups

variable {part : ℕ → UInt8}

/-- The call. -/
def InodeLookup.run (c : InodeLookup part) : ScratchM EXT2_DESC_T (List UInt8) := fun desc =>
  desc.ext2fs_get_inode part c.reads c.ino

/-- The cache after it. -/
def lookupStep (desc : EXT2_DESC_T) (c : InodeLookup part) : EXT2_DESC_T := c.run.after desc

/-- The call returns the inode, or nothing when it needs a sector that cannot be read: its own
or, on a miss, the one with the descriptor. The second leaves the cache as it was. -/
structure LookupRight (desc : EXT2_DESC_T) (c : InodeLookup part) : Prop where
  value : c.run.value desc = some (inode_on_disk part c.ino) ∨
    c.run.value desc = none ∧ (desc.DescriptorLost c.reads (group_of part c.ino) ∨
      c.reads.ok (inode_sector part c.ino) = false)
  kept : desc.DescriptorLost c.reads (group_of part c.ino) → desc.SameCache (lookupStep desc c)

/-- When the read of a sector of descriptors fails, it has not come to the cache. -/
def LeavesCache (desc : EXT2_DESC_T) (c : InodeLookup part) : Prop :=
  desc.DescriptorLost c.reads (group_of part c.ino) → ∀ i, i < IDE_SECTOR_SIZE →
    c.reads.left (desc.gdesc_sec_nr (group_of part c.ino)) desc.gdesc_cache i = desc.gdesc_cache i

/-- A lookup in a right cache is right as long as the cache is left alone. -/
theorem lookupRight_iff (h : WellFormed part) {desc : EXT2_DESC_T} (c : InodeLookup part)
    (hc : EXT2_DESC_T.CacheOf part desc) : LookupRight desc c ↔ LeavesCache desc c := by
  by_cases hlost : desc.DescriptorLost c.reads (group_of part c.ino)
  · have hrun : c.run desc = _ := EXT2_DESC_T.ext2fs_get_inode_lost hc c.isInode hlost
    constructor
    · intro hright _ i hi
      have hkept := (hright.kept hlost).cache i hi
      rwa [lookupStep, ScratchM.after_eq hrun] at hkept
    · intro hleft
      refine ⟨.inr ⟨ScratchM.value_eq hrun, .inl hlost⟩, fun _ => ?_⟩
      rw [lookupStep, ScratchM.after_eq hrun]
      exact ⟨rfl, hleft hlost⟩
  · obtain ⟨desc', hrun, -⟩ := EXT2_DESC_T.ext2fs_get_inode_right h hc c.isInode hlost
    have hrun : c.run desc = _ := hrun
    refine iff_of_true ⟨?_, fun hl => absurd hl hlost⟩ fun hl => absurd hl hlost
    rw [ScratchM.value_eq hrun]
    cases hread : c.reads.ok (inode_sector part c.ino) with
    | true => exact .inl rfl
    | false => exact .inr ⟨rfl, .inr rfl⟩

/-- A lookup that leaves the cache alone, or reads a new one, keeps the invariant. -/
theorem cacheOf_lookupStep (h : WellFormed part) {desc : EXT2_DESC_T} (c : InodeLookup part)
    (hc : EXT2_DESC_T.CacheOf part desc) (hleft : LeavesCache desc c) :
    EXT2_DESC_T.CacheOf part (lookupStep desc c) := by
  by_cases hlost : desc.DescriptorLost c.reads (group_of part c.ino)
  · have hrun : c.run desc = _ := EXT2_DESC_T.ext2fs_get_inode_lost hc c.isInode hlost
    rw [lookupStep, ScratchM.after_eq hrun]
    exact hc.left (hleft hlost)
  · obtain ⟨desc', hrun, hc'⟩ := EXT2_DESC_T.ext2fs_get_inode_right h hc c.isInode hlost
    have hrun : c.run desc = _ := hrun
    rwa [lookupStep, ScratchM.after_eq hrun]

/-- **In a run of lookups after a mount, each is right exactly when** no failing read of
descriptors comes to the cache: the bytes are those of the inode, whatever was looked up before. -/
theorem inode_lookups_right_iff (h : WellFormed part) {reads : Reads} {desc : EXT2_DESC_T}
    (hmount : ext2fs_mount part reads = .mounted desc) (calls : List (InodeLookup part)) :
    EveryStep lookupStep LookupRight desc calls ↔ EveryStep lookupStep LeavesCache desc calls :=
  EveryStep.iff_of_invariant (I := EXT2_DESC_T.CacheOf part) (EXT2_DESC_T.cacheOf_mount h hmount)
    (fun _ c hc => lookupRight_iff h c hc) (fun _ c hc => cacheOf_lookupStep h c hc) calls

end Lookups

/-! ## Where every read succeeds -/

section NoFailure

variable {img : Image}

/-- The descriptor of a mounted image. -/
theorem mounted_desc {desc : EXT2_DESC_T}
    (h : ext2fs_mount img.part Reads.sound = .mounted desc) :
    desc.blocksize = blocksize img ∧ desc.inodes_per_group = inodes_per_group img ∧
      desc.gdesc_block = gdesc_block img ∧ desc.gdesc_first = 0 ∧
        desc.gdesc_cache = (mounted img).gdesc_cache := by
  obtain ⟨-, rfl⟩ := ext2fs_mount_mounted h
  have hblock : gdesc_block_of (EXT2_BLOCK_SIZE (super img.part)) = gdesc_block img := by
    rw [img.block_size_eq, gdesc_block_of, gdesc_block]
  refine ⟨img.block_size_eq, rfl, hblock, rfl, funext fun i => ?_⟩
  have hcache : (mounted img).gdesc_cache i =
      img.part (IDE_SECTOR_SIZE * (block_to_sector img (gdesc_block img) % W) + i) := rfl
  rw [hcache, desc_of, gdesc_sector, hblock, EXT2_BLOCK_TO_SECTOR, img.block_size_eq,
    block_to_sector]

/-- Both models find the same descriptor. -/
theorem get_gdesc_mounted {desc : EXT2_DESC_T}
    (h : ext2fs_mount img.part Reads.sound = .mounted desc) (group_nr : ℕ) :
    ∃ gdesc s' desc', ext2fs_get_gdesc img group_nr (mounted img) = (some gdesc, s') ∧
      desc.ext2fs_get_gdesc img.part Reads.sound group_nr = (some gdesc, desc') ∧
        desc'.blocksize = blocksize img ∧ desc'.inodes_per_group = inodes_per_group img := by
  obtain ⟨hsize, hinodes, hblock, hfirst, hcache⟩ := mounted_desc h
  have hzero : (mounted img).gdesc_first = 0 := rfl
  have hmod : EXT2_GDESC_CACHE_SIZE % W = EXT2_GDESC_CACHE_SIZE := by decide
  have hcond : desc.Miss group_nr ↔ group_nr < 0 ∨ EXT2_GDESC_CACHE_SIZE ≤ group_nr := by
    rw [EXT2_DESC_T.Miss, hfirst, Nat.zero_add, hmod]
  rw [ext2fs_get_gdesc, EXT2_DESC_T.ext2fs_get_gdesc, hzero, Nat.zero_add]
  by_cases hmiss : group_nr < 0 ∨ EXT2_GDESC_CACHE_SIZE ≤ group_nr
  · rw [if_pos hmiss, if_pos (hcond.mpr hmiss), PARTITION_READ_of_true rfl]
    refine ⟨_, _, _, rfl, Prod.ext (congrArg some (funext fun i => ?_)) rfl, hsize, hinodes⟩
    have hsec : desc.gdesc_sec_nr group_nr =
        (block_to_sector img (gdesc_block img) + group_nr / EXT2_GDESC_CACHE_SIZE) % W := by
      rw [EXT2_DESC_T.gdesc_sec_nr, hsize, hblock, EXT2_BLOCK_TO_SECTOR, Nat.mod_add_mod,
        block_to_sector]
    rw [EXT2_DESC_T.cached, hsec]
    rfl
  · rw [if_neg hmiss, if_neg fun hm => hmiss (hcond.mp hm)]
    refine ⟨_, _, _, rfl, Prod.ext (congrArg some (funext fun i => ?_)) rfl, hsize, hinodes⟩
    rw [EXT2_DESC_T.cached, hcache, hfirst, hzero]

/-- The inode in a table, when the sector with it is read. -/
theorem inode_of_table_image {desc : EXT2_DESC_T} (hsize : desc.blocksize = blocksize img)
    (hinodes : desc.inodes_per_group = inodes_per_group img) (n : ℕ) {gdesc : ByteMem}
    (h : load32 gdesc 8 ≠ 0) :
    desc.inode_of_table img.part Reads.sound n gdesc =
      some (firstBytes (fun i => sector img (block_to_sector img (load32 gdesc 8) +
        n % inodes_per_group img * 128 % W / IDE_SECTOR_SIZE)
          (n % inodes_per_group img * 128 % W % IDE_SECTOR_SIZE + i)) 128) := by
  rw [EXT2_DESC_T.inode_of_table, if_neg h, hinodes, hsize]
  dsimp only
  rw [PARTITION_READ_of_true rfl, Option.map_some, EXT2_BLOCK_TO_SECTOR, Nat.mod_add_mod]
  rfl

/-- The two halves of the other `ext2fs_get_inode`. -/
theorem ext2fs_get_inode_bind (img : Image) (ino : ℕ) :
    ext2fs_get_inode img ino =
      (ext2fs_get_gdesc img ((ino + W - 1) % W / inodes_per_group img) >>= fun gdesc =>
        if load32 gdesc 8 = 0 then .fail
        else pure fun i =>
          if i < 128 then
            sector img (block_to_sector img (load32 gdesc 8) +
              (ino + W - 1) % W % inodes_per_group img * 128 % W / IDE_SECTOR_SIZE)
                ((ino + W - 1) % W % inodes_per_group img * 128 % W % IDE_SECTOR_SIZE + i)
          else img.stack i) := rfl

/-- Where every read succeeds, a lookup finds the inode that directories and files are looked
up with. -/
theorem ext2fs_get_inode_value {desc : EXT2_DESC_T}
    (h : ext2fs_mount img.part Reads.sound = .mounted desc) {s : Scratch} (hs : Valid img s)
    (ino : ℕ) :
    ∃ inode desc', desc.ext2fs_get_inode img.part Reads.sound ino = (inode, desc') ∧
      ((ext2fs_get_inode img ino).value s).map (fun inode => firstBytes inode 128) = inode := by
  obtain ⟨-, hinodes, -⟩ := mounted_desc h
  obtain ⟨gdesc, s', desc', hrun, hrun', hsize', hinodes'⟩ :=
    get_gdesc_mounted h ((ino + W - 1) % W / inodes_per_group img)
  rw [← hinodes] at hrun'
  refine ⟨_, desc', EXT2_DESC_T.ext2fs_get_inode_eq rfl hrun', ?_⟩
  have hsame :
      (ext2fs_get_inode img ino).value s = (ext2fs_get_inode img ino).value (mounted img) :=
    (ext2fs_get_inode_indep ino).same_value hs valid_mounted
  rw [hsame, ext2fs_get_inode_bind, ScratchM.value_bind hrun, Option.bind_some]
  by_cases hzero : load32 gdesc 8 = 0
  · rw [if_pos hzero, EXT2_DESC_T.inode_of_table, if_pos hzero]
    rfl
  · rw [if_neg hzero, inode_of_table_image hsize' hinodes' _ hzero, ScratchM.value,
      ScratchM.pure_apply, Option.map_some]
    refine congrArg some (firstBytes_congr fun i hi => ?_)
    rw [if_pos hi]

end NoFailure

/-! 17 groups of 8 inodes, one more than there are descriptors in a sector. -/

section Groups

/-- 136 blocks of 1024 bytes. The inodes of group `g` are in block `4 + g`, and the root
directory has a mode. -/
def groups_part (i : ℕ) : UInt8 :=
  if 2048 ≤ i ∧ i < 2048 + 32 * 17 ∧ i % 32 = 8 then UInt8.ofNat (4 + (i - 2048) / 32)
  else
    match i with
    | 1024 => 136
    | 1028 => 136
    | 1044 => 1
    | 1056 => 8
    | 1064 => 8
    | 1080 => 0x53
    | 1081 => 0xef
    | 4225 => 0x41
    | _ => 0

theorem groups_group_lt {ino : ℕ} (h : IsInode groups_part ino) :
    group_of groups_part ino < 17 := by
  have hcount : sb_inodes_count (super groups_part) = 136 := rfl
  have hgroup : sb_inodes_per_group (super groups_part) = 8 := rfl
  have hone := h.one_le
  have hle := h.le_count
  rw [group_of, hgroup]
  omega

theorem groups_wellFormed : WellFormed groups_part where
  magic := rfl
  log_block_size := by decide
  first_data_block := by decide
  blocks_per_group := by decide
  inodes_per_group := by decide
  inode_bitmap := by decide
  on_partition := by decide
  descriptor_le ino h := by
    have hall : ∀ g < 17, descriptors groups_part + 32 * (g + 1) ≤ fs_end groups_part := by
      decide +kernel
    exact hall _ (groups_group_lt h)
  table_ne_zero ino h := by
    have hall : ∀ g < 17, inode_table groups_part g ≠ 0 := by decide +kernel
    exact hall _ (groups_group_lt h)
  table_le ino h := by
    have hall : ∀ g < 17, inode_table groups_part g +
        128 * sb_inodes_per_group (super groups_part) ≤ fs_end groups_part := by decide +kernel
    exact hall _ (groups_group_lt h)

/-- The sector with the descriptor of group 16 is not read; `left` is what the buffer holds. -/
def sector_five_fails (left : ℕ → ByteMem → ByteMem) : Reads := ⟨fun sec_nr => sec_nr ≠ 5, left⟩

/-- The root directory is looked up, -/
def root_lookup : InodeLookup groups_part where
  ino := EXT2_ROOT_INO
  isInode := ⟨by decide, by decide⟩
  reads := Reads.sound

/-- and the first inode of group 16. -/
def last_group_lookup (reads : Reads) : InodeLookup groups_part where
  ino := 129
  isInode := ⟨by decide, by decide⟩
  reads := reads

/-- A read that fails before the transfer, one that succeeds, and lookups of the root directory
behind both. -/
theorem inode_lookups_right_iff_groups :
    ∃ desc, ext2fs_mount groups_part Reads.sound = .mounted desc ∧
      EveryStep lookupStep LookupRight desc
        [last_group_lookup (sector_five_fails fun _ buf => buf), root_lookup,
          last_group_lookup Reads.sound, root_lookup] := by
  obtain ⟨desc, hmount⟩ := groups_wellFormed.mounted Reads.sound_ok
  refine ⟨desc, hmount, (inode_lookups_right_iff groups_wellFormed hmount _).mpr ?_⟩
  exact ⟨fun _ _ _ => rfl, fun _ _ _ => rfl, fun _ _ _ => rfl, fun _ _ _ => rfl, trivial⟩

/-- A read that fails behind the transfer leaves the descriptor of group 16 where that of group
0 is looked for, so that the root directory has the wrong inode. -/
theorem cache_gone_stale :
    ∃ desc, ext2fs_mount groups_part Reads.sound = .mounted desc ∧
      ¬EveryStep lookupStep LookupRight desc
        [last_group_lookup (sector_five_fails fun sec_nr _ i =>
          groups_part (IDE_SECTOR_SIZE * sec_nr + i)), root_lookup] := by
  obtain ⟨desc, hmount⟩ := groups_wellFormed.mounted Reads.sound_ok
  refine ⟨desc, hmount, ?_⟩
  obtain ⟨-, rfl⟩ := ext2fs_mount_mounted hmount
  rintro ⟨-, hroot, -⟩
  obtain hvalue | ⟨hvalue, -⟩ := hroot.value
  · revert hvalue
    decide +kernel
  · revert hvalue
    decide +kernel

end Groups

end CsBoot.Ide.Ext2
