/-
The file system reader of `src/src/ide/ext2fs.c`: mounting, looking up a path,
finding the blocks of a file, opening and reading.

The partition is its bytes, and every read of it succeeds. All block reads go to one
buffer, `blockbuf`, which the file system shares between its files, its directories
and its indirect blocks; the descriptors of 16 groups are cached. These two are the
scratch state of the functions here; `ext2fs_read` alone looks into the buffer for
what an earlier call has left there.

Where a function reads a block and then looks into the buffer, nothing comes between
the two, and the model has one operation for both (`read_block`). Listing a directory
(`type` other than zero) and the printing are left out.
-/
import CsBoot.Lib.ByteMem
import CsBoot.Lib.Scratch
import CsBoot.Lib.SkipBlocks

set_option autoImplicit false

namespace CsBoot.Ide.Ext2

open ByteMem SkipBlocks

/-! ## The image -/

def IDE_SECTOR_SIZE : ℕ := 512
def EXT2_SUPER_MAGIC : ℕ := 0xEF53
def EXT2_MIN_BLOCK_SIZE : ℕ := 1024
def EXT2_MAX_BLOCK_SIZE : ℕ := 4096
def EXT2_NR_DIR_BLOCKS : ℕ := 12
def EXT2_IND_BLOCK : ℕ := EXT2_NR_DIR_BLOCKS
def EXT2_DIND_BLOCK : ℕ := EXT2_IND_BLOCK + 1
def EXT2_TIND_BLOCK : ℕ := EXT2_DIND_BLOCK + 1
def EXT2_ROOT_INO : ℕ := 2
def EXT2_FTYPE_REG_FILE : UInt8 := 1
def EXT2_FTYPE_DIR : UInt8 := 2
def EXT2_FTYPE_SYMLINK : UInt8 := 7
def EXT2_GDESC_CACHE_SIZE : ℕ := 16
def MAX_SYMLINK_NAME : ℕ := 255

def load16 (m : ByteMem) (a : ℕ) : ℕ := (m a).toNat + 256 * (m (a + 1)).toNat

/-- The super block begins 1024 bytes behind the start of the partition. -/
def super (part : ℕ → UInt8) : ByteMem := fun i => part (1024 + i)

/-- A partition that `ext2fs_mount` accepts, with blocks no larger than the buffer; and
what lies in memory behind the block buffer and behind an inode on the stack, which
only an image that is not well formed makes the functions read. -/
structure Image where
  part : ℕ → UInt8
  magic : load16 (super part) 56 = EXT2_SUPER_MAGIC
  block_size_le : EXT2_MIN_BLOCK_SIZE * 2 ^ load32 (super part) 24 ≤ EXT2_MAX_BLOCK_SIZE
  blocks_per_group : load32 (super part) 32 ≠ 0
  inodes : 0 < load32 (super part) 40
  behind : ℕ → UInt8
  stack : ℕ → UInt8

section Mount

variable (img : Image)

/-- `EXT2_BLOCK_SIZE` -/
def blocksize : ℕ := EXT2_MIN_BLOCK_SIZE * 2 ^ load32 (super img.part) 24

def nr_ind_blocks : ℕ := blocksize img / 4
def nr_dind_blocks : ℕ := nr_ind_blocks img * (blocksize img / 4)
def inodes_per_group : ℕ := load32 (super img.part) 40
def gdesc_block : ℕ := EXT2_MIN_BLOCK_SIZE / blocksize img + 1

/-- `EXT2_BLOCK_TO_SECTOR` -/
def block_to_sector (b : ℕ) : ℕ := b * (blocksize img / IDE_SECTOR_SIZE)

/-- A sector of the partition. -/
def sector (sec_nr : ℕ) : ByteMem := fun i => img.part (IDE_SECTOR_SIZE * (sec_nr % W) + i)

/-- What the buffer holds when block `b` has been read into it. -/
def block (b : ℕ) : ByteMem := fun i =>
  if i < blocksize img then sector img (block_to_sector img b) i else img.behind i

/-- What it holds when it has been filled with zeros. -/
def zero_block : ByteMem := fun i => if i < blocksize img then 0 else img.behind i

end Mount

/-- `blockbuf`, and the cache of group descriptors. -/
structure Scratch where
  blockbuf : ByteMem
  gdesc_first : ℕ
  gdesc_cache : ByteMem

abbrev Ext2M (α : Type) : Type := ScratchM Scratch α

section Functions

variable (img : Image)

/-- The end of `ext2fs_mount`, with the first descriptors in the cache. -/
def mounted : Scratch where
  blockbuf := zero_block img
  gdesc_first := 0
  gdesc_cache := sector img (block_to_sector img (gdesc_block img))

/-- `__READ_BLOCK(n)`, and what is in the buffer then. -/
def read_block (n : ℕ) : Ext2M ByteMem := fun s =>
  (some (block img n), { s with blockbuf := block img n })

/-- `memset(blockbuf, 0, ext2fs->blocksize)`, and what is in the buffer then. -/
def clear_block : Ext2M ByteMem := fun s =>
  (some (zero_block img), { s with blockbuf := zero_block img })

/-- The block that is read, or zeros for a hole. -/
def read_block_or_hole (block_nr : ℕ) : Ext2M ByteMem :=
  if block_nr ≠ 0 then read_block img block_nr else clear_block img

/-! ## Inodes -/

/-- `ext2fs_get_gdesc`, as the address of the descriptor in the cache. -/
def ext2fs_get_gdesc (group_nr : ℕ) : Ext2M ByteMem := fun s =>
  let s :=
    if group_nr < s.gdesc_first ∨ s.gdesc_first + EXT2_GDESC_CACHE_SIZE ≤ group_nr then
      -- cache miss
      { s with
        gdesc_cache := sector img
          (block_to_sector img (gdesc_block img) + group_nr / EXT2_GDESC_CACHE_SIZE)
        gdesc_first := group_nr / EXT2_GDESC_CACHE_SIZE * EXT2_GDESC_CACHE_SIZE }
    else s
  (some fun i => s.gdesc_cache (32 * (group_nr - s.gdesc_first) + i), s)

/-- `ext2fs_get_inode`: the 128 bytes of the inode. -/
def ext2fs_get_inode (ino : ℕ) : Ext2M ByteMem := do
  let n := (ino + W - 1) % W
  let gdesc ← ext2fs_get_gdesc img (n / inodes_per_group img)
  let inode_table := load32 gdesc 8
  if inode_table = 0 then .fail
  else
    let offset := n % inodes_per_group img * 128 % W
    let sec_nr := block_to_sector img inode_table + offset / IDE_SECTOR_SIZE
    pure fun i => if i < 128 then sector img sec_nr (offset % IDE_SECTOR_SIZE + i) else img.stack i

/-! The fields of `EXT2_INODE_T` -/

def inode_size (inode : ByteMem) : ℕ := load32 inode 4
def inode_blocks (inode : ByteMem) : ℕ := load32 inode 28
def inode_ptr (inode : ByteMem) (i : ℕ) : ℕ := load32 inode (40 + 4 * i)

/-- The `i`-th pointer in a block. -/
def block_ptr (b : ByteMem) (i : ℕ) : ℕ := load32 b (4 * i)

/-- `ext2fs_inode_block` -/
def ext2fs_inode_block (inode : ByteMem) (bindex : ℕ) : Ext2M ℕ :=
  if bindex < EXT2_NR_DIR_BLOCKS then pure (inode_ptr inode bindex)
  else
    let bindex := bindex - EXT2_NR_DIR_BLOCKS
    if bindex < nr_ind_blocks img then do
      let b ← read_block img (inode_ptr inode EXT2_IND_BLOCK)
      pure (block_ptr b bindex)
    else
      let bindex := bindex - nr_ind_blocks img
      if bindex < nr_dind_blocks img then do
        let b ← read_block img (inode_ptr inode EXT2_DIND_BLOCK)
        let b ← read_block img (block_ptr b (bindex / nr_ind_blocks img))
        pure (block_ptr b (bindex % nr_ind_blocks img))
      else do
        let bindex := bindex - nr_dind_blocks img
        let b ← read_block img (inode_ptr inode EXT2_TIND_BLOCK)
        let b ← read_block img (block_ptr b (bindex / nr_dind_blocks img))
        let bindex := bindex % nr_dind_blocks img
        let b ← read_block img (block_ptr b (bindex / nr_ind_blocks img))
        pure (block_ptr b (bindex % nr_ind_blocks img))

/-! ## Directories -/

/-- What is looked at of an `EXT2_DIR_T`. -/
structure DirEntry where
  inode : ℕ
  filetype : UInt8

/-- The loop of `search_dir_block`, with at most `n` entries. Each has at least 8 bytes. -/
def search_dir_block (blkbuf : ByteMem) (name : List UInt8) : ℕ → ℕ → Option DirEntry
  | 0, _ => none
  | n + 1, dir =>
    if dir < blocksize img then
      let reclen := load16 blkbuf (dir + 4)
      let len := (blkbuf (dir + 6)).toNat
      -- terminate on anything which doesn't make sense
      if reclen < 8 ∨ reclen < len + 8 ∨ blocksize img + 1 < dir + reclen then none
      else if load32 blkbuf dir ≠ 0 ∧ len = name.length ∧
          firstBytes (fun i => blkbuf (dir + 8 + i)) len = name then
        some ⟨load32 blkbuf dir, blkbuf (dir + 7)⟩
      else search_dir_block blkbuf name n (dir + reclen)
    else none

/-- The loop of `ext2fs_dir_lookup`, with `n` blocks left from block `i` on. -/
def dir_blocks (inode : ByteMem) (name : List UInt8) : ℕ → ℕ → Ext2M DirEntry
  | 0, _ => .fail
  | n + 1, i => do
    let block_nr ← ext2fs_inode_block img inode i
    let blkbuf ← read_block_or_hole img block_nr
    match search_dir_block img blkbuf name (blocksize img) 0 with
    | some dir => pure dir
    | none => dir_blocks inode name n (i + 1)

/-- `ext2fs_dir_lookup` -/
def ext2fs_dir_lookup (dir_ino : ℕ) (name : List UInt8) : Ext2M DirEntry := do
  let inode ← ext2fs_get_inode img dir_ino
  dir_blocks img inode name ((inode_size inode + blocksize img - 1) % W / blocksize img) 0

structure INODE_INFO_T where
  ino : ℕ
  parent_ino : ℕ
  filetype : UInt8

/-- The bytes in front of the final zero. -/
def c_string (l : List UInt8) : List UInt8 := l.takeWhile (· ≠ 0)

/-- `'/'` -/
def SLASH : UInt8 := 0x2f

/-- One name of the path in `ext2fs_inode_lookup`. `follow` is `ext2fs_follow_symlink`, and
has no result where that does not return; `next` looks up what is behind the name. -/
def lookup_name (follow : ℕ → ℕ → Ext2M (Option INODE_INFO_T))
    (next : ℕ → List UInt8 → Ext2M (Option INODE_INFO_T)) (dir_ino : ℕ) (pathname : List UInt8) :
    Ext2M (Option INODE_INFO_T) := do
  let name := pathname.takeWhile (· ≠ SLASH)
  -- what is behind the delimiter
  let rest := (pathname.dropWhile (· ≠ SLASH)).tail
  let dir ← ext2fs_dir_lookup img dir_ino name
  if dir.filetype = EXT2_FTYPE_SYMLINK then do
    match ← follow dir_ino dir.inode with
    | none => pure none
    | some info =>
      if rest = [] then pure (some info)
      else if info.filetype ≠ EXT2_FTYPE_DIR then .fail
      else next info.ino rest
  else if dir.filetype = EXT2_FTYPE_DIR then
    if rest ≠ [] then next dir.inode rest
    else pure (some ⟨dir.inode, dir_ino, dir.filetype⟩)
  else if dir.filetype = EXT2_FTYPE_REG_FILE then
    if rest ≠ [] then .fail
    else pure (some ⟨dir.inode, dir_ino, dir.filetype⟩)
  else .fail

/-- The loop of `ext2fs_inode_lookup`, with at most `n` names in the path. -/
def lookup_names (follow : ℕ → ℕ → Ext2M (Option INODE_INFO_T)) :
    ℕ → ℕ → List UInt8 → Ext2M (Option INODE_INFO_T)
  | 0, _, _ => .fail
  | n + 1, dir_ino, pathname => lookup_name img follow (lookup_names follow n) dir_ino pathname

/-- `ext2fs_follow_symlink`, with what the lookup of a path is. The length is an `int`: one
that is negative is not too long, and the copy runs over the stack, so that there is no
result. -/
def ext2fs_follow_symlink (lookup : ℕ → List UInt8 → Ext2M (Option INODE_INFO_T))
    (dir_ino sym_ino : ℕ) : Ext2M (Option INODE_INFO_T) := do
  let inode ← ext2fs_get_inode img sym_ino
  let pathlen := inode_size inode
  let copied := fun path : ByteMem =>
    if pathlen ≤ MAX_SYMLINK_NAME then lookup dir_ino (firstBytes path pathlen) else pure none
  if MAX_SYMLINK_NAME < pathlen ∧ pathlen < W / 2 then .fail
  else if inode_blocks inode ≠ 0 then do
    let block_nr ← ext2fs_inode_block img inode 0
    if block_nr = 0 then .fail
    else do
      let b ← read_block img block_nr
      copied b
  else
    -- small enough path to fit in inode struct
    copied fun i => inode (40 + i)

/-- `ext2fs_inode_lookup`, with at most `n` symbolic links one inside the other. There is
no result when there are more. -/
def ext2fs_inode_lookup : ℕ → ℕ → List UInt8 → Ext2M (Option INODE_INFO_T)
  | 0, _, _ => pure none
  | n + 1, dir_ino, pathname =>
    let pathname := c_string pathname
    let follow := ext2fs_follow_symlink img (ext2fs_inode_lookup n)
    match pathname with
    | [] => .fail
    | c :: rest =>
      if c = SLASH then
        if rest = [] then pure (some ⟨EXT2_ROOT_INO, EXT2_ROOT_INO, EXT2_FTYPE_DIR⟩)
        else lookup_names img follow rest.length EXT2_ROOT_INO rest
      else lookup_names img follow pathname.length dir_ino pathname

/-! ## Files -/

def MAX_FILES : ℕ := 2

/-- `FILE_T`; `ext2fs_desc` says whether the pointer to the file system is set. -/
structure FILE_T where
  opened : Bool
  ext2fs_desc : Bool
  inode : ByteMem
  file_size : ℕ
  file_pos : ℕ

/-- What `memset` leaves of a handle. -/
def file_cleared : FILE_T := ⟨false, false, fun _ => 0, 0, 0⟩

/-- `ext2fs_open` when the lookup has found `info`: what goes into the handle. -/
def open_inode : Option INODE_INFO_T → Ext2M (Option FILE_T)
  | none => pure none
  | some info => do
    let inode ← ext2fs_get_inode img info.ino
    pure (some ⟨true, true, inode, inode_size inode, 0⟩)

/-- `ext2fs_open` with a handle. -/
def open_file (n : ℕ) (filepath : List UInt8) : Ext2M (Option FILE_T) := do
  let info ← ext2fs_inode_lookup img n EXT2_ROOT_INO filepath
  open_inode img info

/-- The files, and the scratch. -/
structure Ext2State where
  file_info : Fin MAX_FILES → FILE_T
  scratch : Scratch

/-- `ext2fs_open`, if it returns, with the handle. A handle that is taken stays taken
when the file is not found. -/
def ext2fs_open (n : ℕ) (filepath : List UInt8) (s : Ext2State) :
    Option (Option (Fin MAX_FILES) × Ext2State) :=
  match (List.finRange MAX_FILES).find? fun i => !(s.file_info i).opened with
  | none => some (none, s)
  | some i =>
    match open_file img n filepath s.scratch with
    | (some none, _) => none
    | (some (some file), scratch) => some (some i, ⟨Function.update s.file_info i file, scratch⟩)
    | (none, scratch) =>
      some (none, ⟨Function.update s.file_info i { file_cleared with opened := true }, scratch⟩)

/-- The loop of `ext2fs_read`: the bytes copied, when `left` are asked for from block
`bindex` on. -/
def read_blocks (inode : ByteMem) (bindex left : ℕ) (s : Scratch) : List UInt8 × Scratch :=
  if _h : left = 0 then ([], s)
  else
    match (ext2fs_inode_block img inode bindex >>= read_block_or_hole img) s with
    | (none, s) => ([], s)
    | (some b, s) =>
      let to_read := if blocksize img < left then blocksize img else left
      let r := read_blocks inode (bindex + 1) (left - to_read) s
      (firstBytes b to_read ++ r.1, r.2)
termination_by left
decreasing_by
  have hpos : 0 < blocksize img := Nat.mul_pos (by decide) (Nat.two_pow_pos _)
  split <;> omega

/-- `ext2fs_read`: the bytes that come into the caller's buffer. Their number is what it
returns. -/
def ext2fs_read (info : FILE_T) (nbytes : ℕ) (s : Scratch) : List UInt8 × FILE_T × Scratch :=
  let nbytes :=
    if (info.file_pos + nbytes) % W > info.file_size then (info.file_size + W - info.file_pos) % W
    else nbytes
  -- see if we need to copy leftover data from last read call
  let rem := blocksize img - info.file_pos % blocksize img
  let rem := if rem ≠ blocksize img then (if rem > nbytes then nbytes else rem) else 0
  let left := firstBytes (fun i => s.blockbuf (info.file_pos % blocksize img + i)) rem
  let bindex := (info.file_pos + rem) % W / blocksize img
  let r := read_blocks img info.inode bindex (nbytes - rem) s
  (left ++ r.1, { info with file_pos := (info.file_pos + nbytes) % W }, r.2)

end Functions

end CsBoot.Ide.Ext2
