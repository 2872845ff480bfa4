/-
What the files of `Ext2.lean` are to their readers, and when `ext2fs_read` serves them.

A file is its bytes, its size and how far it has been read: `File`. Its bytes are those that
the format gives it (`ext2_byte`), with zeros for holes. Looking a file up does not depend on what
the block buffer holds, since every function but `ext2fs_read` looks at what it has just read
itself; the cache of the group descriptors holds descriptors of the partition whatever was
looked up before.

`ext2fs_read` copies the rest of the block in which the last read ended from the buffer.
The handles share the buffer, so that it holds the block of the last call, on whichever
handle that was, or a directory or a block of pointers. A read is served when what the
buffer has there are the file's bytes; this is so right after a read of the same
handle, and nothing is copied when the last read ended with a block. The other bytes come
from the blocks that `ext2fs_inode_block` finds, which behind some holes are foreign ones.
-/
import CsBoot.Lib.Run
import CsBoot.Ide.BlockMap

set_option autoImplicit false

namespace CsBoot.Ide.Ext2

open ByteMem SkipBlocks

/-! ## What a file is -/

/-- A file to its reader. -/
@[ext] structure File where
  size : ℕ
  byte : ℕ → UInt8
  pos : ℕ

/-- The next bytes of the file, at most `n`. -/
def File.next (f : File) (n : ℕ) : List UInt8 :=
  firstBytes (fun i => f.byte (f.pos + i)) (min n (f.size - f.pos))

/-- Reading them. -/
def File.read (f : File) (n : ℕ) : File := { f with pos := f.pos + min n (f.size - f.pos) }

/-- The file that is open on a handle. -/
def FILE_T.file (img : Image) (f : FILE_T) : File :=
  ⟨f.file_size, ext2_byte img f.inode, f.file_pos⟩

variable {img : Image}

/-! ## The loop -/

theorem found_byte_block (inode : ByteMem) (k : ℕ) {i : ℕ} (hi : i < blocksize img) :
    found_byte img inode (k * blocksize img + i) = content img (block_nr img inode k) i := by
  unfold found_byte
  rw [Nat.add_comm, Nat.add_mul_div_right _ _ blocksize_pos, Nat.div_eq_of_lt hi, Nat.zero_add,
    Nat.add_mul_mod_self_right, Nat.mod_eq_of_lt hi]

/-- From block `k` on the loop copies the bytes that it finds, and leaves the last block it
has read in the buffer. -/
theorem read_blocks_apply (inode : ByteMem) (k left : ℕ) (s : Scratch) :
    read_blocks img inode k left s =
      (firstBytes (fun i => found_byte img inode (k * blocksize img + i)) left,
        if left = 0 then s
        else { s with
          blockbuf := content img (block_nr img inode (k + (left - 1) / blocksize img)) }) := by
  have hpos : 0 < blocksize img := blocksize_pos
  induction left using Nat.strong_induction_on generalizing k s with
  | _ left ih =>
    rw [read_blocks]
    by_cases h₀ : left = 0
    · subst h₀
      rfl
    rw [dif_neg h₀, if_neg h₀, find_block_apply]
    by_cases hlt : blocksize img < left
    · simp only [if_pos hlt]
      obtain ⟨m, rfl⟩ := Nat.exists_eq_add_of_lt hlt
      have hrest : blocksize img + m + 1 - blocksize img = m + 1 := by omega
      have hlast : k + 1 + (m + 1 - 1) / blocksize img =
          k + (blocksize img + m + 1 - 1) / blocksize img := by
        rw [Nat.add_sub_cancel, Nat.add_sub_cancel, Nat.add_comm (blocksize img),
          Nat.add_div_right _ hpos]
        omega
      have hfirst : ∀ i, i < blocksize img →
          content img (block_nr img inode k) i = found_byte img inode (k * blocksize img + i) :=
        fun i hi => (found_byte_block inode k hi).symm
      have hsplit : firstBytes (fun i => found_byte img inode (k * blocksize img + i))
          (blocksize img + m + 1) =
          firstBytes (fun i => found_byte img inode (k * blocksize img + i)) (blocksize img) ++
            firstBytes (fun i => found_byte img inode ((k + 1) * blocksize img + i)) (m + 1) := by
        rw [Nat.add_assoc, firstBytes_add]
        simp only [Nat.add_mul, Nat.one_mul, Nat.add_assoc]
      rw [hrest, ih (m + 1) (by omega), if_neg (Nat.succ_ne_zero m), hlast, hsplit,
        firstBytes_congr hfirst]
    · simp only [if_neg hlt, Nat.sub_self]
      rw [ih 0 (by omega), if_pos rfl, Nat.div_eq_of_lt (by omega), Nat.add_zero]
      have hfirst : ∀ i, i < left →
          content img (block_nr img inode k) i = found_byte img inode (k * blocksize img + i) :=
        fun i hi => (found_byte_block inode k (by omega)).symm
      rw [firstBytes_congr hfirst]
      exact Prod.ext (List.append_nil _) rfl

/-! ## One read -/

/-- The `i`-th byte of a read is taken from the rest of the block that the last one ended in. -/
def FromBuffer (img : Image) (f : FILE_T) (i : ℕ) : Prop :=
  f.file_pos % blocksize img ≠ 0 ∧ f.file_pos % blocksize img + i < blocksize img

/-- What a read of `n` bytes needs: the sum of the position and `n` is in range, or is
past the end of the file also when cut to 32 bits; the bytes in the buffer that it takes for
the rest of the block are the file's; and what it takes from behind a hole is zero. -/
structure Readable (img : Image) (f : FILE_T) (n : ℕ) (s : Scratch) : Prop where
  in_range : f.file_pos + n < W ∨ f.file_size < (f.file_pos + n) % W
  left_over : ∀ i, i < min n (f.file_size - f.file_pos) → FromBuffer img f i →
    s.blockbuf (f.file_pos % blocksize img + i) = ext2_byte img f.inode (f.file_pos + i)
  holes : ∀ i, i < min n (f.file_size - f.file_pos) → ¬FromBuffer img f i →
    HoleReadsZero img f.inode ((f.file_pos + i) / blocksize img) ((f.file_pos + i) % blocksize img)

section Read

variable {f : FILE_T} {n : ℕ} {s : Scratch} (hpos : f.file_pos ≤ f.file_size)
  (hsize : f.file_size < W) (hn : n < W)

/-- How many bytes `ext2fs_read` goes for. -/
def count (f : FILE_T) (n : ℕ) : ℕ :=
  if (f.file_pos + n) % W > f.file_size then (f.file_size + W - f.file_pos) % W else n

/-- How many of them it takes from the buffer. -/
def rest_of_block (img : Image) (f : FILE_T) (n : ℕ) : ℕ :=
  if f.file_pos % blocksize img = 0 then 0 else min (blocksize img - f.file_pos % blocksize img) n

include hpos hsize hn in
theorem count_eq_iff :
    count f n = min n (f.file_size - f.file_pos) ↔
      (f.file_pos + n < W ∨ f.file_size < (f.file_pos + n) % W) := by
  unfold count W at *
  split_ifs with h <;> omega

theorem ext2fs_read_apply (f : FILE_T) (n : ℕ) (s : Scratch) :
    ext2fs_read img f n s =
      (firstBytes (fun i => s.blockbuf (f.file_pos % blocksize img + i))
          (rest_of_block img f (count f n)) ++
        (read_blocks img f.inode
          ((f.file_pos + rest_of_block img f (count f n)) % W / blocksize img)
          (count f n - rest_of_block img f (count f n)) s).1,
        { f with file_pos := (f.file_pos + count f n) % W },
        (read_blocks img f.inode
          ((f.file_pos + rest_of_block img f (count f n)) % W / blocksize img)
          (count f n - rest_of_block img f (count f n)) s).2) := by
  have hlt : f.file_pos % blocksize img < blocksize img := Nat.mod_lt _ blocksize_pos
  have hrest : (if blocksize img - f.file_pos % blocksize img ≠ blocksize img then
      if blocksize img - f.file_pos % blocksize img > count f n then count f n
      else blocksize img - f.file_pos % blocksize img
      else 0) = rest_of_block img f (count f n) := by
    unfold rest_of_block
    split_ifs <;> omega
  unfold ext2fs_read
  rw [← count]
  simp only [hrest]

theorem rest_of_block_le (img : Image) (f : FILE_T) (n : ℕ) : rest_of_block img f n ≤ n := by
  unfold rest_of_block
  split_ifs <;> omega

/-- Behind the rest of the block a block begins. -/
theorem rest_of_block_ends (h : rest_of_block img f n < n) :
    (f.file_pos + rest_of_block img f n) / blocksize img * blocksize img =
      f.file_pos + rest_of_block img f n := by
  apply Nat.div_mul_cancel
  have hdiv := Nat.div_add_mod f.file_pos (blocksize img)
  have hlt : f.file_pos % blocksize img < blocksize img := Nat.mod_lt _ blocksize_pos
  unfold rest_of_block at *
  split_ifs at * with h₀
  · rw [Nat.add_zero]
    exact Nat.dvd_of_mod_eq_zero h₀
  · refine ⟨f.file_pos / blocksize img + 1, ?_⟩
    rw [Nat.mul_add, Nat.mul_one]
    omega

/-- Behind the rest of the block the loop copies the bytes that it finds. -/
theorem read_behind (hle : f.file_pos + n < W) (s : Scratch) :
    (read_blocks img f.inode ((f.file_pos + rest_of_block img f n) % W / blocksize img)
        (n - rest_of_block img f n) s).1 =
      firstBytes (fun i => found_byte img f.inode (f.file_pos + (rest_of_block img f n + i)))
        (n - rest_of_block img f n) := by
  have hrest := rest_of_block_le img f n
  rw [read_blocks_apply, Nat.mod_eq_of_lt (by omega)]
  by_cases hlt : rest_of_block img f n < n
  · rw [rest_of_block_ends hlt]
    simp only [Nat.add_assoc]
  · rw [Nat.sub_eq_zero_of_le (by omega)]
    rfl

theorem lt_rest_of_block_iff {i : ℕ} :
    i < rest_of_block img f n ↔ i < n ∧ FromBuffer img f i := by
  have hlt : f.file_pos % blocksize img < blocksize img := Nat.mod_lt _ blocksize_pos
  unfold rest_of_block FromBuffer
  split_ifs <;> omega

/-- The bytes in front of `n` are in the rest of the block, or behind it. -/
theorem forall_behind_iff {P : ℕ → Prop} :
    (∀ i, i < n - rest_of_block img f n → P (rest_of_block img f n + i)) ↔
      ∀ i, i < n → ¬FromBuffer img f i → P i := by
  constructor
  · intro h i hi hbuf
    have hle : rest_of_block img f n ≤ i := by
      by_contra hlt
      exact hbuf (lt_rest_of_block_iff.mp (not_le.mp hlt)).2
    have hp := h (i - rest_of_block img f n) (by omega)
    rwa [Nat.add_sub_of_le hle] at hp
  · intro h i hi
    refine h _ (by omega) fun hbuf => ?_
    have hlt := (lt_rest_of_block_iff (n := n)).mpr ⟨by omega, hbuf⟩
    omega

include hpos hsize hn in
/-- `ext2fs_read` returns the next bytes of the file when the read is `Readable`, and only
then. -/
theorem read_bytes_iff (hfits : FileFits img f.inode) (hinode : f.file_size = inode_size f.inode) :
    (ext2fs_read img f n s).1 = (f.file img).next n ↔ Readable img f n s := by
  rw [ext2fs_read_apply]
  unfold File.next FILE_T.file
  by_cases hrange : f.file_pos + n < W ∨ f.file_size < (f.file_pos + n) % W
  · rw [(count_eq_iff hpos hsize hn).mpr hrange]
    have hle : f.file_pos + min n (f.file_size - f.file_pos) < W := by omega
    have hsplit : min n (f.file_size - f.file_pos) =
        rest_of_block img f (min n (f.file_size - f.file_pos)) +
          (min n (f.file_size - f.file_pos) -
            rest_of_block img f (min n (f.file_size - f.file_pos))) :=
      (Nat.add_sub_of_le (rest_of_block_le img f _)).symm
    conv_lhs => rhs; rw [hsplit, firstBytes_add]
    rw [read_behind hle]
    have hlen : (firstBytes (fun i => s.blockbuf (f.file_pos % blocksize img + i))
        (rest_of_block img f (min n (f.file_size - f.file_pos)))).length =
          (firstBytes (fun i => ext2_byte img f.inode (f.file_pos + i))
            (rest_of_block img f (min n (f.file_size - f.file_pos)))).length := by
      rw [length_firstBytes, length_firstBytes]
    have hbehind := @forall_behind_iff img f (min n (f.file_size - f.file_pos)) fun i =>
      found_byte img f.inode (f.file_pos + i) = ext2_byte img f.inode (f.file_pos + i)
    have hfound : ∀ i, i < min n (f.file_size - f.file_pos) →
        (found_byte img f.inode (f.file_pos + i) = ext2_byte img f.inode (f.file_pos + i) ↔
          HoleReadsZero img f.inode ((f.file_pos + i) / blocksize img)
            ((f.file_pos + i) % blocksize img)) := by
      intro i hi
      refine found_byte_iff (hfits _ (lt_of_le_of_lt (Nat.div_mul_le_self _ _) ?_))
      rw [← hinode]
      omega
    constructor
    · intro h
      obtain ⟨hfirst, hlast⟩ := List.append_inj h hlen
      rw [firstBytes_inj] at hfirst hlast
      refine ⟨hrange, fun i hi hbuf => ?_, fun i hi hbuf => ?_⟩
      · exact hfirst i (lt_rest_of_block_iff.mpr ⟨hi, hbuf⟩)
      · exact (hfound i hi).mp (hbehind.mp hlast i hi hbuf)
    · rintro ⟨-, hleft, hholes⟩
      refine congrArg₂ (· ++ ·) (firstBytes_inj.mpr fun i hi => ?_) (firstBytes_inj.mpr ?_)
      · obtain ⟨hi, hbuf⟩ := lt_rest_of_block_iff.mp hi
        exact hleft i hi hbuf
      · exact hbehind.mpr fun i hi hbuf => (hfound i hi).mpr (hholes i hi hbuf)
  · refine iff_of_false (fun h => hrange ((count_eq_iff hpos hsize hn).mp ?_))
      fun h => hrange h.in_range
    -- the number of bytes is wrong
    have hlen := congrArg List.length h
    rw [List.length_append, read_blocks_apply, length_firstBytes, length_firstBytes,
      length_firstBytes, Nat.add_sub_of_le (rest_of_block_le img f _)] at hlen
    exact hlen

include hpos hsize hn in
theorem read_file (h : Readable img f n s) :
    ((ext2fs_read img f n s).2.1).file img = (f.file img).read n := by
  have hcount := (count_eq_iff hpos hsize hn).mpr h.in_range
  have hmod : (f.file_pos + min n (f.file_size - f.file_pos)) % W =
      f.file_pos + min n (f.file_size - f.file_pos) := Nat.mod_eq_of_lt (by omega)
  rw [ext2fs_read_apply, hcount]
  simp only [File.read, FILE_T.file, hmod]

end Read

/-! ## Looking up -/

/-- The cache holds the descriptors of the partition. -/
def Valid (img : Image) (s : Scratch) : Prop :=
  EXT2_GDESC_CACHE_SIZE ∣ s.gdesc_first ∧
    s.gdesc_cache =
      sector img (block_to_sector img (gdesc_block img) + s.gdesc_first / EXT2_GDESC_CACHE_SIZE)

theorem valid_mounted : Valid img (mounted img) := by
  refine ⟨dvd_zero _, ?_⟩
  unfold mounted
  rw [Nat.zero_div, Nat.add_zero]

open ScratchM (Indep)

theorem read_block_indep (n : ℕ) : Indep (Valid img) (read_block img n) :=
  ⟨some (block img n), fun _ h => ⟨rfl, h⟩⟩

theorem read_block_or_hole_indep (n : ℕ) : Indep (Valid img) (read_block_or_hole img n) := by
  refine ⟨some (content img n), fun s h => ?_⟩
  rw [read_block_or_hole_apply]
  exact ⟨rfl, h⟩

theorem ext2fs_inode_block_indep (inode : ByteMem) (k : ℕ) :
    Indep (Valid img) (ext2fs_inode_block img inode k) := by
  refine ⟨some (block_nr img inode k), fun s h => ?_⟩
  obtain ⟨buf, hrun⟩ := ext2fs_inode_block_apply img inode k s
  rw [hrun]
  exact ⟨rfl, h⟩

/-- The descriptor is the partition's, whether it was in the cache or not. -/
theorem ext2fs_get_gdesc_indep (g : ℕ) : Indep (Valid img) (ext2fs_get_gdesc img g) := by
  refine ⟨some fun i => sector img
    (block_to_sector img (gdesc_block img) + g / EXT2_GDESC_CACHE_SIZE)
      (32 * (g - g / EXT2_GDESC_CACHE_SIZE * EXT2_GDESC_CACHE_SIZE) + i), fun s hs => ?_⟩
  obtain ⟨⟨m, hm⟩, hcache⟩ := hs
  unfold ext2fs_get_gdesc
  by_cases hmiss : g < s.gdesc_first ∨ s.gdesc_first + EXT2_GDESC_CACHE_SIZE ≤ g
  · rw [if_pos hmiss]
    refine ⟨rfl, Nat.dvd_mul_left _ _, ?_⟩
    rw [Nat.mul_div_cancel _ (by decide)]
  · rw [if_neg hmiss]
    have hfirst : s.gdesc_first = g / EXT2_GDESC_CACHE_SIZE * EXT2_GDESC_CACHE_SIZE := by
      unfold EXT2_GDESC_CACHE_SIZE at *
      omega
    have hdiv : s.gdesc_first / EXT2_GDESC_CACHE_SIZE = g / EXT2_GDESC_CACHE_SIZE := by
      rw [hfirst, Nat.mul_div_cancel _ (by decide)]
    refine ⟨congrArg some (funext fun i => ?_), ⟨m, hm⟩, hcache⟩
    rw [hcache, hdiv, ← hfirst]

theorem ext2fs_get_inode_indep (ino : ℕ) : Indep (Valid img) (ext2fs_get_inode img ino) := by
  refine (ext2fs_get_gdesc_indep _).bind fun gdesc => ?_
  exact .ite .fail (.pure _)

theorem dir_blocks_indep (inode : ByteMem) (name : List UInt8) (n i : ℕ) :
    Indep (Valid img) (dir_blocks img inode name n i) := by
  induction n generalizing i with
  | zero => exact .fail
  | succ n ih =>
      rw [dir_blocks]
      refine (ext2fs_inode_block_indep _ _).bind fun b => ?_
      refine (read_block_or_hole_indep _).bind fun blkbuf => ?_
      cases search_dir_block img blkbuf name (blocksize img) 0 with
      | some dir => exact .pure _
      | none => exact ih (i + 1)

theorem ext2fs_dir_lookup_indep (dir_ino : ℕ) (name : List UInt8) :
    Indep (Valid img) (ext2fs_dir_lookup img dir_ino name) := by
  unfold ext2fs_dir_lookup
  exact (ext2fs_get_inode_indep _).bind fun _ => dir_blocks_indep _ _ _ _

section Links

variable {follow : ℕ → ℕ → Ext2M (Option INODE_INFO_T)}
  {lookup next : ℕ → List UInt8 → Ext2M (Option INODE_INFO_T)}

theorem lookup_name_indep (hfollow : ∀ d i, Indep (Valid img) (follow d i))
    (hnext : ∀ d p, Indep (Valid img) (next d p)) (dir_ino : ℕ) (pathname : List UInt8) :
    Indep (Valid img) (lookup_name img follow next dir_ino pathname) := by
  unfold lookup_name
  refine (ext2fs_dir_lookup_indep _ _).bind fun dir => ?_
  apply Indep.ite
  · refine (hfollow _ _).bind fun info => ?_
    cases info with
    | none => exact .pure _
    | some info => exact .ite (.pure _) (.ite .fail (hnext _ _))
  · apply Indep.ite
    · exact .ite (hnext _ _) (.pure _)
    · exact .ite (.ite .fail (.pure _)) .fail

theorem lookup_names_indep (hfollow : ∀ d i, Indep (Valid img) (follow d i)) (n dir_ino : ℕ)
    (pathname : List UInt8) : Indep (Valid img) (lookup_names img follow n dir_ino pathname) := by
  induction n generalizing dir_ino pathname with
  | zero => exact .fail
  | succ n ih => exact lookup_name_indep hfollow ih dir_ino pathname

theorem ext2fs_follow_symlink_indep (hlookup : ∀ d p, Indep (Valid img) (lookup d p))
    (dir_ino sym_ino : ℕ) :
    Indep (Valid img) (ext2fs_follow_symlink img lookup dir_ino sym_ino) := by
  unfold ext2fs_follow_symlink
  refine (ext2fs_get_inode_indep _).bind fun inode => .ite .fail (.ite ?_ ?_)
  · refine (ext2fs_inode_block_indep _ _).bind fun b => .ite .fail ?_
    exact (read_block_indep _).bind fun _ => .ite (hlookup _ _) (.pure _)
  · exact .ite (hlookup _ _) (.pure _)

end Links

theorem ext2fs_inode_lookup_indep (n dir_ino : ℕ) (pathname : List UInt8) :
    Indep (Valid img) (ext2fs_inode_lookup img n dir_ino pathname) := by
  induction n generalizing dir_ino pathname with
  | zero => exact .pure _
  | succ n ih =>
      have hfollow := ext2fs_follow_symlink_indep ih
      rw [ext2fs_inode_lookup]
      cases c_string pathname with
      | nil => exact .fail
      | cons c rest =>
          exact .ite (.ite (.pure _) (lookup_names_indep hfollow _ _ _))
            (lookup_names_indep hfollow _ _ _)

/-- What a path leads to does not depend on what was looked up or read before. -/
theorem open_file_indep (img : Image) (n : ℕ) (filepath : List UInt8) :
    Indep (Valid img) (open_file img n filepath) := by
  unfold open_file
  refine (ext2fs_inode_lookup_indep _ _ _).bind fun info => ?_
  cases info with
  | none => exact .pure _
  | some info => exact (ext2fs_get_inode_indep _).bind fun _ => .pure _

/-! ## Runs -/

abbrev Handle : Type := Fin MAX_FILES

/-- A call of `ext2fs_open` that follows at most `n` symbolic links one inside the other,
or of `ext2fs_read` on a handle that an open has returned. -/
inductive Op
  | open (n : ℕ) (filepath : List UInt8)
  | read (h : Handle) (nbytes : UInt32)

/-- After `ext2fs_init`, with no file open. -/
def booted (img : Image) : Ext2State := ⟨fun _ => file_cleared, mounted img⟩

/-- A read with a handle that no open has returned does not happen, and an open that does
not return has no successor. -/
def step (img : Image) (s : Ext2State) : Op → Ext2State
  | .open n filepath =>
    match ext2fs_open img n filepath s with
    | some (_, s) => s
    | none => s
  | .read h nbytes =>
    if (s.file_info h).ext2fs_desc then
      let r := ext2fs_read img (s.file_info h) nbytes.toNat s.scratch
      ⟨Function.update s.file_info h r.2.1, r.2.2⟩
    else s

/-- The files that are open on the handles. -/
def files (img : Image) (s : Ext2State) (h : Handle) : Option File :=
  if (s.file_info h).ext2fs_desc then some ((s.file_info h).file img) else none

/-- What an open does when the path leads to `found`, with the handle `free`. -/
def opened (img : Image) (found : Option (Option FILE_T)) (free : Option Handle)
    (fs : Handle → Option File) : Option (Option Handle × (Handle → Option File)) :=
  match free, found with
  | none, _ => some (none, fs)
  | some _, some none => none
  | some h, some (some file) => some (some h, Function.update fs h (some (file.file img)))
  | some h, none => some (none, Function.update fs h none)

/-- The handle that an open takes. -/
def free_handle (s : Ext2State) : Option Handle :=
  (List.finRange MAX_FILES).find? fun i => !(s.file_info i).opened

/-- An open finds what it would find right after booting, and a read returns the next
bytes of its file; the file on the other handle stays as it is. -/
def Served (img : Image) (s : Ext2State) : Op → Prop
  | .open n filepath =>
    (ext2fs_open img n filepath s).map (fun r => (r.1, files img r.2)) =
      opened img (open_file img n filepath (mounted img)).1 (free_handle s) (files img s)
  | .read h nbytes =>
    ∀ f, files img s h = some f →
      (ext2fs_read img (s.file_info h) nbytes.toNat s.scratch).1 = f.next nbytes.toNat ∧
      files img (step img s (.read h nbytes)) =
        Function.update (files img s) h (some (f.read nbytes.toNat))

/-- The file that an open finds fits on the partition, as every file of the format does. -/
def Op.Fits (img : Image) : Op → Prop
  | .open n filepath =>
    ∀ f, (open_file img n filepath).value (mounted img) = some (some f) → FileFits img f.inode
  | .read _ _ => True

/-- A read is `Readable`. -/
def Meets (img : Image) (s : Ext2State) : Op → Prop
  | .open _ _ => True
  | .read h nbytes =>
    (s.file_info h).ext2fs_desc = true → Readable img (s.file_info h) nbytes.toNat s.scratch

/-- A handle with a file that fits and is not read past its end. -/
structure FILE_T.Sound (img : Image) (f : FILE_T) : Prop where
  pos_le : f.file_pos ≤ f.file_size
  size_eq : f.file_size = inode_size f.inode
  fits : FileFits img f.inode

theorem FILE_T.Sound.size_lt {f : FILE_T} (h : f.Sound img) : f.file_size < W := by
  rw [h.size_eq]
  exact load32_lt f.inode 4

/-- The cache is the partition's, and so are the open files. -/
structure Inv (img : Image) (s : Ext2State) : Prop where
  valid : Valid img s.scratch
  sound : ∀ h, (s.file_info h).ext2fs_desc = true → (s.file_info h).Sound img

theorem inv_booted : Inv img (booted img) where
  valid := valid_mounted
  sound _ h := absurd h Bool.false_ne_true

theorem files_update (s : Ext2State) (h : Handle) (f : FILE_T) (scratch : Scratch) :
    files img ⟨Function.update s.file_info h f, scratch⟩ =
      Function.update (files img s) h (if f.ext2fs_desc then some (f.file img) else none) := by
  funext h'
  unfold files
  by_cases hh : h' = h
  · subst hh
    simp only [Function.update_self]
  · simp only [Function.update_of_ne hh]

theorem open_inode_some {info : Option INODE_INFO_T} {s s' : Scratch} {f : FILE_T}
    (h : open_inode img info s = (some (some f), s')) :
    ∃ inode, f = ⟨true, true, inode, inode_size inode, 0⟩ := by
  cases info with
  | none =>
      rw [open_inode, ScratchM.pure_apply] at h
      cases (Prod.mk.inj h).1
  | some info =>
      rw [open_inode] at h
      obtain ⟨inode, s₂, -, h⟩ := ScratchM.of_bind h
      rw [ScratchM.pure_apply] at h
      obtain ⟨h, -⟩ := Prod.mk.inj h
      exact ⟨inode, (Option.some.inj (Option.some.inj h)).symm⟩

/-- What goes into a handle that is opened. -/
theorem open_file_some {n : ℕ} {filepath : List UInt8} {s s' : Scratch} {f : FILE_T}
    (h : open_file img n filepath s = (some (some f), s')) :
    ∃ inode, f = ⟨true, true, inode, inode_size inode, 0⟩ := by
  rw [open_file] at h
  obtain ⟨info, s₁, -, h⟩ := ScratchM.of_bind h
  exact open_inode_some h

/-- An open is served whatever the handles and the buffer hold. -/
theorem open_served {s : Ext2State} (hs : Valid img s.scratch) (n : ℕ) (filepath : List UInt8) :
    Served img s (.open n filepath) := by
  have hsame := (open_file_indep img n filepath).same hs valid_mounted
  change ((ext2fs_open img n filepath s).map fun r => (r.1, files img r.2)) =
    opened img (open_file img n filepath (mounted img)).1 (free_handle s) (files img s)
  rw [← hsame, ext2fs_open, ← free_handle]
  cases hfree : free_handle s with
  | none => rfl
  | some h =>
      cases hopen : open_file img n filepath s.scratch with
      | mk found scratch =>
          cases found with
          | none =>
              simp only [opened, Option.map_some, files_update]
              rfl
          | some found =>
              cases found with
              | none => rfl
              | some f =>
                  obtain ⟨inode, rfl⟩ := open_file_some hopen
                  simp only [opened, Option.map_some, files_update, if_pos]

theorem Inv.update {s : Ext2State} (hs : Inv img s) (h : Handle) {f : FILE_T} {scratch : Scratch}
    (hvalid : Valid img scratch) (hsound : f.ext2fs_desc = true → f.Sound img) :
    Inv img ⟨Function.update s.file_info h f, scratch⟩ := by
  refine ⟨hvalid, fun h' => ?_⟩
  by_cases hh : h' = h
  · subst hh
    simp only [Function.update_self]
    exact hsound
  · simp only [Function.update_of_ne hh]
    exact hs.sound h'

theorem inv_open {s : Ext2State} (hs : Inv img s) {n : ℕ} {filepath : List UInt8}
    (hfits : (Op.open n filepath).Fits img) : Inv img (step img s (.open n filepath)) := by
  have hkeep := (open_file_indep img n filepath).keeps hs.valid
  rw [step, ext2fs_open, ← free_handle]
  cases hfree : free_handle s with
  | none => exact hs
  | some h =>
      cases hopen : open_file img n filepath s.scratch with
      | mk found scratch =>
          rw [hopen] at hkeep
          cases found with
          | none => exact hs.update h hkeep fun hd => absurd hd Bool.false_ne_true
          | some found =>
              cases found with
              | none => exact hs
              | some f =>
                  have hsame := (open_file_indep img n filepath).same_value valid_mounted hs.valid
                  have hfound := hsame.trans (ScratchM.value_eq hopen)
                  obtain ⟨inode, rfl⟩ := open_file_some hopen
                  exact hs.update h hkeep fun _ => ⟨Nat.zero_le _, rfl, hfits _ hfound⟩

theorem valid_read {f : FILE_T} {n : ℕ} {s : Scratch} (hs : Valid img s) :
    Valid img (ext2fs_read img f n s).2.2 := by
  rw [ext2fs_read_apply, read_blocks_apply]
  dsimp only
  split_ifs
  · exact hs
  · exact hs

theorem inv_read {s : Ext2State} (hs : Inv img s) {h : Handle} {nbytes : UInt32}
    (hmeets : Meets img s (.read h nbytes)) : Inv img (step img s (.read h nbytes)) := by
  rw [step]
  by_cases hd : (s.file_info h).ext2fs_desc = true
  · rw [if_pos hd]
    have hsound := hs.sound h hd
    have hfile := read_file hsound.pos_le hsound.size_lt nbytes.toNat_lt (hmeets hd)
    have hpos : (ext2fs_read img (s.file_info h) nbytes.toNat s.scratch).2.1.file_pos =
        (s.file_info h).file_pos +
          min nbytes.toNat ((s.file_info h).file_size - (s.file_info h).file_pos) :=
      congrArg File.pos hfile
    have hle := hsound.pos_le
    refine hs.update h (valid_read hs.valid) fun _ => ⟨?_, hsound.size_eq, hsound.fits⟩
    rw [hpos]
    change _ ≤ (s.file_info h).file_size
    omega
  · rw [if_neg hd]
    exact hs

theorem read_served_iff {s : Ext2State} (hs : Inv img s) (h : Handle) (nbytes : UInt32) :
    Served img s (.read h nbytes) ↔ Meets img s (.read h nbytes) := by
  by_cases hd : (s.file_info h).ext2fs_desc = true
  · have hiff : (ext2fs_read img (s.file_info h) nbytes.toNat s.scratch).1 =
        ((s.file_info h).file img).next nbytes.toNat ↔
          Readable img (s.file_info h) nbytes.toNat s.scratch :=
      read_bytes_iff (hs.sound h hd).pos_le (hs.sound h hd).size_lt nbytes.toNat_lt
        (hs.sound h hd).fits (hs.sound h hd).size_eq
    have hfiles : files img s h = some ((s.file_info h).file img) := if_pos hd
    constructor
    · intro hserved _
      exact hiff.mp (hserved _ hfiles).1
    · intro hmeets f hf
      rw [hfiles] at hf
      obtain rfl := Option.some.inj hf
      refine ⟨hiff.mpr (hmeets hd), ?_⟩
      have hkept :
          (ext2fs_read img (s.file_info h) nbytes.toNat s.scratch).2.1.ext2fs_desc = true := by
        rw [ext2fs_read_apply]
        exact hd
      rw [step, if_pos hd, files_update, if_pos hkept,
        read_file (hs.sound h hd).pos_le (hs.sound h hd).size_lt nbytes.toNat_lt (hmeets hd)]
  · have hfiles : files img s h = none := if_neg hd
    refine iff_of_true (fun f hf => ?_) fun hd' => absurd hd' hd
    rw [hfiles] at hf
    cases hf

theorem served_iff_meets {s : Ext2State} (hs : Inv img s) (op : Op) :
    Served img s op ↔ Meets img s op := by
  cases op with
  | «open» n filepath => exact iff_of_true (open_served hs.valid n filepath) trivial
  | read h nbytes => exact read_served_iff hs h nbytes

theorem inv_step {s : Ext2State} (hs : Inv img s) {op : Op} (hfits : op.Fits img)
    (hmeets : Meets img s op) : Inv img (step img s op) := by
  cases op with
  | «open» n filepath => exact inv_open hs hfits
  | read h nbytes => exact inv_read hs hmeets

/-- In every run of opens and reads, each open finds its file and each read returns the next
bytes of its file, with the other file as it was, if and only if each read meets a buffer
that still holds the rest of the block, asks for no more than the sum has room for, and finds
zeros behind the holes. -/
theorem open_files_independent_iff (img : Image) {ops : List Op} (hfits : ∀ op ∈ ops, op.Fits img) :
    EveryStep (step img) (Served img) (booted img) ops ↔
      EveryStep (step img) (Meets img) (booted img) ops :=
  EveryStep.iff_of_invariant_on (A := Op.Fits img) inv_booted
    (fun _ op _ hs => served_iff_meets hs op)
    (fun _ _ hop hs hmeets => inv_step hs hop hmeets) hfits

theorem step_read {s : Ext2State} {h : Handle} {nbytes : UInt32}
    (hd : (s.file_info h).ext2fs_desc = true) :
    step img s (.read h nbytes) =
      let f := s.file_info h
      let n := count f nbytes.toNat
      let rest := rest_of_block img f n
      let k := (f.file_pos + rest) % W / blocksize img
      ⟨Function.update s.file_info h { f with file_pos := (f.file_pos + n) % W },
        if n - rest = 0 then s.scratch
        else { s.scratch with
          blockbuf :=
            content img (block_nr img f.inode (k + (n - rest - 1) / blocksize img)) }⟩ := by
  rw [step, if_pos hd, ext2fs_read_apply, read_blocks_apply]

/-! Opening a second file puts its directory into the buffer. -/

section OneFile

/-- `"/f"` -/
def one_file_path : List UInt8 := [SLASH, 0x66]

def first_handle : Handle := ⟨0, Nat.zero_lt_two⟩

def first_open : Ext2State := step one_file (booted one_file) (.open 1 one_file_path)

def second_open : Ext2State :=
  step one_file (step one_file first_open (.read first_handle 1)) (.open 1 one_file_path)

theorem first_open_file :
    (first_open.file_info first_handle).ext2fs_desc = true ∧
      (first_open.file_info first_handle).file_pos = 0 ∧
      (first_open.file_info first_handle).file_size = 2 := by
  decide +kernel

/-- The inode of the file. -/
theorem one_file_open {f : FILE_T}
    (h : (open_file one_file 1 one_file_path).value (mounted one_file) = some (some f)) :
    inode_size f.inode = 2 ∧ inode_ptr f.inode 0 = 5 := by
  have hinode : ((open_file one_file 1 one_file_path).value (mounted one_file)).map (fun found =>
      found.map fun f => (inode_size f.inode, inode_ptr f.inode 0)) = some (some (2, 5)) := by
    decide +kernel
  rw [h] at hinode
  exact Prod.mk.inj (Option.some.inj (Option.some.inj hinode))

theorem one_file_op_fits (op : Op) (h : op = .open 1 one_file_path ∨ ∃ i n, op = .read i n) :
    op.Fits one_file := by
  obtain rfl | ⟨i, n, rfl⟩ := h
  · intro f hf
    obtain ⟨hsize, hptr⟩ := one_file_open hf
    exact one_file_fits (by omega) (by omega)
  · exact trivial

/-- The first byte is read. -/
def first_read : Ext2State := step one_file first_open (.read first_handle 1)

theorem first_read_state :
    (first_read.file_info first_handle).file_pos = 1 ∧
      (first_read.file_info first_handle).file_size = 2 ∧
      first_read.scratch.blockbuf 1 = 1 ∧
      ext2_byte one_file (first_read.file_info first_handle).inode 1 = 1 := by
  rw [first_read, step_read first_open_file.1]
  decide +kernel

/-- Both bytes of the file are read, one by one. -/
theorem open_files_independent_iff_two_reads :
    EveryStep (step one_file) (Served one_file) (booted one_file)
      [.open 1 one_file_path, .read first_handle 1, .read first_handle 1] := by
  have hone : 1 % blocksize one_file = 1 := by rw [one_file_blocksize]
  refine (open_files_independent_iff one_file fun op hop => one_file_op_fits op ?_).mpr ?_
  · simp only [List.mem_cons, List.not_mem_nil, or_false] at hop
    obtain rfl | rfl | rfl := hop
    · exact .inl rfl
    · exact .inr ⟨_, _, rfl⟩
    · exact .inr ⟨_, _, rfl⟩
  · obtain ⟨-, hpos, hsize⟩ := first_open_file
    obtain ⟨hpos', hsize', hbuf, hbyte⟩ := first_read_state
    refine ⟨trivial, fun _ => ?_, fun _ => ?_, trivial⟩
    · change Readable one_file (first_open.file_info first_handle) 1 first_open.scratch
      refine ⟨.inl (by rw [hpos]; decide), fun i _ hb => ?_, fun i hi _ => ?_⟩
      · rw [FromBuffer, hpos, Nat.zero_mod] at hb
        exact absurd rfl hb.1
      · rw [hpos, hsize] at hi
        obtain rfl : i = 0 := by omega
        rw [hpos]
        rw [one_file_blocksize]
        exact holeReadsZero_direct (by decide)
    · change Readable one_file (first_read.file_info first_handle) 1 first_read.scratch
      refine ⟨.inl (by rw [hpos']; decide), fun i hi _ => ?_, fun i hi hb => ?_⟩
      · rw [hpos', hsize'] at hi
        obtain rfl : i = 0 := by omega
        rw [hpos', hone]
        exact hbuf.trans hbyte.symm
      · rw [hpos', hsize'] at hi
        obtain rfl : i = 0 := by omega
        rw [FromBuffer, hpos', hone] at hb
        exact absurd ⟨by decide, by rw [one_file_blocksize]; decide⟩ hb

/-- The second byte of the file is 1, and the second byte of the directory is 0. -/
theorem second_open_state :
    (second_open.file_info first_handle).ext2fs_desc = true ∧
      (second_open.file_info first_handle).file_pos = 1 ∧
      (second_open.file_info first_handle).file_size = 2 ∧
      ext2_byte one_file (second_open.file_info first_handle).inode 1 = 1 ∧
      second_open.scratch.blockbuf 1 = 0 ∧
      inode_size (second_open.file_info first_handle).inode = 2 ∧
      inode_ptr (second_open.file_info first_handle).inode 0 = 5 := by
  rw [second_open, step_read first_open_file.1]
  decide +kernel

/-- A file is opened, its first byte is read, it is opened again, and its second byte is
read with the first handle: this byte is one of the directory. -/
theorem second_open_disturbs :
    ¬ EveryStep (step one_file) (Served one_file) (booted one_file)
      [.open 1 one_file_path, .read first_handle 1, .open 1 one_file_path,
        .read first_handle 1] := by
  rintro ⟨-, -, -, hserved, -⟩
  change Served one_file second_open (.read first_handle 1) at hserved
  obtain ⟨hdesc, hpos, hsize, hfile, hbuf, hinode, hptr⟩ := second_open_state
  obtain ⟨hbytes, -⟩ := hserved _ (if_pos hdesc)
  have hle : (second_open.file_info first_handle).file_pos ≤
      (second_open.file_info first_handle).file_size := by
    rw [hpos, hsize]
    decide
  have hlt : (second_open.file_info first_handle).file_size < W := by
    rw [hsize]
    decide
  have hfits := one_file_fits (le_of_eq_of_le hinode (by decide)) (hptr ▸ by decide)
  have hread := (read_bytes_iff hle hlt (by decide) hfits (hsize.trans hinode.symm)).mp hbytes
  have hone : 1 % blocksize one_file = 1 := by rw [one_file_blocksize]
  have hbs : 1 < blocksize one_file := by
    rw [one_file_blocksize]
    decide
  have hrest : FromBuffer one_file (second_open.file_info first_handle) 0 := by
    rw [FromBuffer, hpos, hone]
    exact ⟨by decide, hbs⟩
  have hsame := hread.left_over 0 (by rw [hpos, hsize]; decide) hrest
  rw [hpos, hone] at hsame
  exact absurd (hbuf.symm.trans (hsame.trans hfile)) (by decide)

end OneFile

end CsBoot.Ide.Ext2
