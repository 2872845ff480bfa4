/-
What a path denotes in an ext2 file system, and that `ext2fs_inode_lookup` finds it.

The format has an inode at its place in the table of its group, the entries of a directory in
the records of its blocks, and the text of a link in the first block or in the inode. Here the
blocks of a directory are those of `ext2_block`, so that a hole has no entries. The code may
read another block in place of a hole, and it finds what the format has unless this one has an
entry with the name that is looked for (`NoForeign`).
-/
import CsBoot.Ide.Inodes
import CsBoot.Ide.PathLookup

set_option autoImplicit false

namespace CsBoot.Ide.Ext2

open ByteMem SkipBlocks

/-! ## Directories and links on disk -/

/-- A record of a directory. -/
structure DirRecord where
  inode : ℕ
  reclen : ℕ
  filetype : UInt8
  name : List UInt8

/-- The record at an offset of a block. -/
def dir_record (m : ByteMem) (off : ℕ) : DirRecord where
  inode := load32 m off
  reclen := load16 m (off + 4)
  filetype := m (off + 7)
  name := firstBytes (fun i => m (off + 8 + i)) (m (off + 6)).toNat

/-- The records of a block of this size from `off` on, at most `n`. -/
def dir_records (m : ByteMem) (size : ℕ) : ℕ → ℕ → List DirRecord
  | 0, _ => []
  | n + 1, off =>
    if off < size then
      dir_record m off :: dir_records m size n (off + (dir_record m off).reclen)
    else []

/-- The records from `off` on fill the block, each with room for its name. -/
inductive Filled (m : ByteMem) (size : ℕ) : ℕ → Prop
  | last : Filled m size size
  | record {off : ℕ} :
      8 ≤ (dir_record m off).reclen →
        (dir_record m off).name.length + 8 ≤ (dir_record m off).reclen →
          Filled m size (off + (dir_record m off).reclen) → Filled m size off

/-- The entry with this name. A record without an inode is not used. -/
def entry_named (name : List UInt8) (records : List DirRecord) : Option DirEntry :=
  (records.find? fun r => r.inode ≠ 0 ∧ r.name = name).map fun r => ⟨r.inode, r.filetype⟩

/-- The bytes of an inode. -/
def inode_bytes (part : ℕ → UInt8) (ino : ℕ) : ByteMem := fun i =>
  part (inode_table part (group_of part ino) + 128 * index_in_group part ino + i)

section Format

variable (img : Image)

/-- The entry with this name in block `k` of a directory. -/
def block_entry (inode : ByteMem) (name : List UInt8) (k : ℕ) : Option DirEntry :=
  if ext2_block img inode k = 0 then none
  else
    entry_named name
      (dir_records (ext2_content img (ext2_block img inode k)) (blocksize img) (blocksize img) 0)

/-- How many blocks a directory has. -/
def dir_size (dir_ino : ℕ) : ℕ := inode_size (inode_bytes img.part dir_ino) / blocksize img

/-- The entry with this name in a directory. -/
def dir_entry (dir_ino : ℕ) (name : List UInt8) : Option DirEntry :=
  (List.range (dir_size img dir_ino)).findSome?
    (block_entry img (inode_bytes img.part dir_ino) name)

/-- What a symbolic link says; a text of more than 255 characters is not followed. -/
def link_on_disk (sym_ino : ℕ) : LinkText :=
  symlink_text (inode_bytes img.part sym_ino) (ext2_block img (inode_bytes img.part sym_ino) 0)
    (ext2_content img (ext2_block img (inode_bytes img.part sym_ino) 0))

def on_disk : (q : Query) → Answer q
  | .entry dir_ino name => dir_entry img dir_ino name
  | .link sym_ino => link_on_disk img sym_ino

/-- A lookup with what is on disk. -/
def meant_calls (at_ : Place) : PathCalls := (lookup_asks at_).answered (on_disk img)

/-- What a path or a link denotes, if anything. -/
def PathCall.Denotes (c : PathCall) (info : Option INODE_INFO_T) : Prop :=
  Calls.Returns (meant_calls img) (c.asks.answered (on_disk img)) info

/-- A directory: a number of blocks, filled with records, or holes. -/
structure DirFits (dir_ino : ℕ) : Prop where
  isInode : IsInode img.part dir_ino
  size : blocksize img ∣ inode_size (inode_bytes img.part dir_ino)
  blocks : FileFits img (inode_bytes img.part dir_ino)
  filled : ∀ k, k < dir_size img dir_ino → ext2_block img (inode_bytes img.part dir_ino) k ≠ 0 →
    Filled (ext2_content img (ext2_block img (inode_bytes img.part dir_ino) k)) (blocksize img) 0

/-- A symbolic link: the text is in a block, or has at most 60 bytes. -/
structure LinkFits (sym_ino : ℕ) : Prop where
  isInode : IsInode img.part sym_ino
  block : inode_blocks (inode_bytes img.part sym_ino) ≠ 0 →
    BlockFits img (inode_bytes img.part sym_ino) 0
  short : inode_blocks (inode_bytes img.part sym_ino) = 0 →
    inode_size (inode_bytes img.part sym_ino) ≤ 60

/-- The directories of the tree. -/
inductive IsDirectory : ℕ → Prop
  | root : IsDirectory EXT2_ROOT_INO
  | entry {dir_ino : ℕ} {name : List UInt8} {e : DirEntry} :
      IsDirectory dir_ino → dir_entry img dir_ino name = some e → e.filetype = EXT2_FTYPE_DIR →
        IsDirectory e.inode

/-- An ext2 file system with its directories and links in order. -/
structure Ext2Tree : Prop where
  wellFormed : WellFormed img.part
  dir : ∀ d, IsDirectory img d → DirFits img d
  link : ∀ d name e, IsDirectory img d → dir_entry img d name = some e →
    e.filetype = EXT2_FTYPE_SYMLINK → LinkFits img e.inode

/-- What the code finds in the block that it reads for block `k` of a directory. -/
def searched (inode : ByteMem) (name : List UInt8) (k : ℕ) : Option DirEntry :=
  search_dir_block img (content img (block_nr img inode k)) name (blocksize img) 0

/-- Up to the block with the entry, no block of the directory is behind a hole where the code
reads another one that has an entry with this name. -/
def NoForeign : Query → Prop
  | .entry dir_ino name =>
    ∀ k, k < dir_size img dir_ino →
      (∀ j, j < k → block_entry img (inode_bytes img.part dir_ino) name j = none) →
        HoleHarmless img (inode_bytes img.part dir_ino) k ∨
          ext2_block img (inode_bytes img.part dir_ino) k = 0 ∧
            searched img (inode_bytes img.part dir_ino) name k = none
  | .link _ => True

/-- The call is made in a tree, and the holes of the directories that it looks into do not
mislead it. -/
structure PathCall.Sound (c : PathCall) : Prop where
  tree : Ext2Tree img
  dir : IsDirectory img c.dir_ino
  link : ∀ d i, c = .follow d i → LinkFits img i.toNat
  holes : ∀ q, Asks.AskedBy (on_disk img) lookup_asks c.asks q → NoForeign img q

end Format

variable {img : Image}

/-! ## Inodes -/

section SameInode

variable {inode inode' : ByteMem} (h : ∀ i, i < 128 → inode' i = inode i)

include h

theorem inode_size_congr : inode_size inode' = inode_size inode :=
  load32_congr (by decide) fun i hi => h _ (by omega)

theorem inode_blocks_congr : inode_blocks inode' = inode_blocks inode :=
  load32_congr (by decide) fun i hi => h _ (by omega)

theorem inode_ptr_congr {i : ℕ} (hi : i ≤ EXT2_TIND_BLOCK) :
    inode_ptr inode' i = inode_ptr inode i := by
  have hle : i ≤ 14 := hi
  refine load32_congr ?_ fun j hj => h _ (by omega)
  unfold W
  omega

theorem block_path_congr (img : Image) (k : ℕ) :
    block_path img inode' k = block_path img inode k := by
  have hind : EXT2_IND_BLOCK ≤ EXT2_TIND_BLOCK := by decide
  have hdind : EXT2_DIND_BLOCK ≤ EXT2_TIND_BLOCK := by decide
  unfold block_path
  rw [inode_ptr_congr h hind, inode_ptr_congr h hdind, inode_ptr_congr h le_rfl]
  by_cases hk : k < EXT2_NR_DIR_BLOCKS
  · have hdir : k ≤ EXT2_TIND_BLOCK := hk.le.trans (by decide)
    rw [if_pos hk, if_pos hk, inode_ptr_congr h hdir]
  · rw [if_neg hk, if_neg hk]

theorem block_nr_congr (img : Image) (k : ℕ) : block_nr img inode' k = block_nr img inode k := by
  rw [block_nr_eq, block_nr_eq, block_path_congr h]

end SameInode

/-- The code finds the inodes of the file system. -/
theorem inode_found (hwf : WellFormed img.part) {ino : ℕ} (hino : IsInode img.part ino) :
    ∃ inode, inode_at img ino = some inode ∧
      ∀ i, i < 128 → inode i = inode_bytes img.part ino i := by
  obtain ⟨desc, hmount⟩ := hwf.mounted Reads.sound_ok
  have hcache := EXT2_DESC_T.cacheOf_mount hwf hmount
  have hsound : ¬desc.DescriptorLost Reads.sound (group_of img.part ino) :=
    fun hlost => Bool.false_ne_true hlost.2.symm
  obtain ⟨desc', hright, -⟩ := EXT2_DESC_T.ext2fs_get_inode_right hwf hcache hino hsound
  obtain ⟨inode, desc'', hrun, hvalue⟩ := ext2fs_get_inode_value hmount valid_mounted ino
  obtain ⟨rfl, -⟩ := Prod.mk.inj (hright.symm.trans hrun)
  obtain ⟨inode, hfound, hbytes⟩ := Option.map_eq_some_iff.mp hvalue
  exact ⟨inode, hfound, firstBytes_inj.mp hbytes⟩

/-! ## Entries -/

/-- In a block that is filled, the search is the one for a record. -/
theorem search_dir_block_filled {m m' : ByteMem} {name : List UInt8} {n off : ℕ}
    (hsame : ∀ i, i < blocksize img → m' i = m i) (hfill : Filled m (blocksize img) off) :
    off ≤ blocksize img ∧ search_dir_block img m' name n off =
      entry_named name (dir_records m (blocksize img) n off) := by
  have hsize : blocksize img ≤ 4096 := by
    rcases img.blocksize_cases with hb | hb | hb <;> omega
  induction hfill generalizing n with
  | last =>
      refine ⟨le_rfl, ?_⟩
      cases n with
      | zero => rfl
      | succ n =>
          rw [search_dir_block, dir_records, if_neg (lt_irrefl _), if_neg (lt_irrefl _)]
          rfl
  | @record off height hname _ ih =>
      have hend := (ih (n := 0)).1
      have hlen : (dir_record m off).name.length = (m (off + 6)).toNat := length_firstBytes _ _
      refine ⟨by omega, ?_⟩
      cases n with
      | zero => rfl
      | succ n =>
          have hlt : off < blocksize img := by omega
          have hino : load32 m' off = load32 m off :=
            load32_congr (by unfold W; omega) fun i hi => hsame _ (by omega)
          have hreclen : load16 m' (off + 4) = (dir_record m off).reclen := by
            rw [load16, hsame _ (by omega), hsame _ (by omega)]
            rfl
          have hnamelen : m' (off + 6) = m (off + 6) := hsame _ (by omega)
          have hbytes : firstBytes (fun i => m' (off + 8 + i)) (m' (off + 6)).toNat =
              (dir_record m off).name := by
            rw [hnamelen]
            exact firstBytes_congr fun i hi => hsame _ (by omega)
          -- a record of a filled block is never the one that ends the search
          have hsense : ¬((dir_record m off).reclen < 8 ∨
              (dir_record m off).reclen < (m' (off + 6)).toNat + 8 ∨
                blocksize img + 1 < off + (dir_record m off).reclen) := by
            rw [hnamelen, ← hlen]
            omega
          rw [search_dir_block, if_pos hlt]
          dsimp only
          rw [hreclen, hbytes, hino, if_neg hsense, dir_records, if_pos hlt, entry_named,
            List.find?_cons]
          by_cases hmatch : load32 m off ≠ 0 ∧ (dir_record m off).name = name
          · have hlong : (m' (off + 6)).toNat = name.length := by
              rw [hnamelen, ← hlen, hmatch.2]
            rw [if_pos ⟨hmatch.1, hlong, hmatch.2⟩]
            have hfound : decide ((dir_record m off).inode ≠ 0 ∧
                (dir_record m off).name = name) = true := decide_eq_true hmatch
            rw [hfound, hsame _ (by omega)]
            rfl
          · rw [if_neg fun hm => hmatch ⟨hm.1, hm.2.2⟩]
            have hnot : decide ((dir_record m off).inode ≠ 0 ∧
                (dir_record m off).name = name) = false := decide_eq_false hmatch
            rw [hnot]
            exact (ih (n := n)).2

/-- The loop of `ext2fs_dir_lookup` is a search for the first block with the entry. -/
theorem dir_blocks_value (inode : ByteMem) (name : List UInt8) (n i : ℕ) (s : Scratch) :
    (dir_blocks img inode name n i).value s =
      (List.range' i n).findSome? (searched img inode name) := by
  induction n generalizing i s with
  | zero => rfl
  | succ n ih =>
      obtain ⟨buf, hrun⟩ := ext2fs_inode_block_apply img inode i s
      rw [dir_blocks, ScratchM.value_bind hrun,
        ScratchM.value_bind (read_block_or_hole_apply _ _), List.range'_succ, List.findSome?_cons,
        searched]
      cases search_dir_block img (content img (block_nr img inode i)) name (blocksize img) 0 with
      | some dir => rfl
      | none => exact ih _ _

/-- Two searches that agree up to the first place where something is found. -/
theorem findSome?_range_congr {α : Type*} {f g : ℕ → Option α} {n : ℕ}
    (h : ∀ k, k < n → (∀ j, j < k → f j = none) → g k = f k) :
    (List.range n).findSome? g = (List.range n).findSome? f := by
  induction n with
  | zero => rfl
  | succ n ih =>
      rw [List.range_succ, List.findSome?_append, List.findSome?_append,
        ih fun k hk => h k (by omega)]
      cases hfirst : (List.range n).findSome? f with
      | some a => rfl
      | none =>
          rw [List.findSome?_eq_none_iff] at hfirst
          rw [List.findSome?_singleton, List.findSome?_singleton,
            h n (Nat.lt_succ_self n) fun j hj => hfirst j (List.mem_range.mpr hj)]

/-- Nothing is found in zeros. -/
theorem search_dir_block_zero (img : Image) (name : List UInt8) (n : ℕ) :
    search_dir_block img (content img 0) name n 0 = none := by
  have hsize : 1024 ≤ blocksize img := by
    rcases img.blocksize_cases with hb | hb | hb <;> omega
  cases n with
  | zero => rfl
  | succ n =>
      have hzero : ∀ i, i < 1024 → content img 0 i = 0 := fun i hi =>
        (content_eq (fun h => absurd rfl h) (hi.trans_le hsize)).trans (if_pos rfl)
      have hreclen : load16 (content img 0) (0 + 4) = 0 := by
        rw [load16, hzero _ (by omega), hzero _ (by omega)]
        rfl
      rw [search_dir_block, if_pos (by omega)]
      dsimp only
      rw [hreclen, if_pos (.inl (by decide))]

section Entry

variable {dir_ino : ℕ} (hdir : DirFits img dir_ino) {k : ℕ} (hk : k < dir_size img dir_ino)

include hdir hk

theorem DirFits.block : BlockFits img (inode_bytes img.part dir_ino) k := by
  refine hdir.blocks k ?_
  rw [Nat.mul_comm]
  exact (Nat.lt_div_iff_mul_lt' hdir.size k).mp hk

/-- In a block of the directory the code finds the entry, if this block is the one it reads. -/
theorem searched_harmless (hhole : HoleHarmless img (inode_bytes img.part dir_ino) k)
    (name : List UInt8) :
    searched img (inode_bytes img.part dir_ino) name k =
      block_entry img (inode_bytes img.part dir_ino) name k := by
  have hfits := hdir.block hk
  rw [searched, hhole.block_nr_eq hfits.toFitsFormat, block_entry]
  by_cases hzero : ext2_block img (inode_bytes img.part dir_ino) k = 0
  · rw [if_pos hzero, hzero]
    exact search_dir_block_zero img name _
  · rw [if_neg hzero]
    exact (search_dir_block_filled (fun i hi => content_eq hfits.data hi)
      (hdir.filled k hk hzero)).2

end Entry

/-- The code finds the entries of a directory. -/
theorem entry_eq (hwf : WellFormed img.part) {dir_ino : ℕ} (hdir : DirFits img dir_ino)
    {name : List UInt8} (hholes : NoForeign img (.entry dir_ino name)) :
    entry img dir_ino name = dir_entry img dir_ino name := by
  obtain ⟨inode, hino, hbytes⟩ := inode_found hwf hdir.isInode
  obtain ⟨s, hrun⟩ := ScratchM.of_value hino
  have hblocks : (inode_size inode + blocksize img - 1) % W / blocksize img =
      dir_size img dir_ino := by
    have hlt : inode_size inode < W := load32_lt _ _
    rw [inode_size_congr hbytes] at hlt ⊢
    have hdvd := hdir.size
    rw [dir_size]
    unfold W at *
    rcases img.blocksize_cases with hb | hb | hb <;> rw [hb] at hdvd ⊢ <;> omega
  have hsearched : searched img inode name =
      searched img (inode_bytes img.part dir_ino) name := by
    funext k
    rw [searched, block_nr_congr hbytes, searched]
  rw [entry, ext2fs_dir_lookup, ScratchM.value_bind hrun, dir_blocks_value, hblocks, hsearched,
    ← List.range_eq_range', dir_entry]
  refine findSome?_range_congr fun k hk hbefore => ?_
  obtain hhole | ⟨hzero, hnone⟩ := hholes k hk hbefore
  · exact searched_harmless hdir hk hhole name
  · rw [hnone, block_entry, if_pos hzero]

/-! ## Links -/

theorem copied_text_congr {m m' : ByteMem} {len : ℕ}
    (h : ∀ i, i < len → len ≤ MAX_SYMLINK_NAME → m' i = m i) :
    copied_text m' len = copied_text m len := by
  rw [copied_text, copied_text]
  by_cases hlen : len ≤ MAX_SYMLINK_NAME
  · rw [if_pos hlen, if_pos hlen, firstBytes_congr fun i hi => h i hi hlen]
  · rw [if_neg hlen, if_neg hlen]

/-- The code finds the text of a link. -/
theorem link_text_eq (hwf : WellFormed img.part) {sym_ino : ℕ} (hlink : LinkFits img sym_ino) :
    link_text img sym_ino = link_on_disk img sym_ino := by
  obtain ⟨inode, hino, hbytes⟩ := inode_found hwf hlink.isInode
  have hsize : 1024 ≤ blocksize img := by
    rcases img.blocksize_cases with hb | hb | hb <;> omega
  have hpath : ∀ inode, block_path img inode 0 = ⟨0, inode_ptr inode 0, 0⟩ := by
    intro inode
    rw [block_path]
    exact if_pos (by decide)
  have hblock : block_nr img inode 0 = ext2_block img (inode_bytes img.part sym_ino) 0 := by
    rw [block_nr_congr hbytes, block_nr_eq, ext2_block, hpath]
    rfl
  rw [link_text, hino, Option.elim_some, link_on_disk, hblock, symlink_text, symlink_text,
    inode_size_congr hbytes, inode_blocks_congr hbytes]
  by_cases hblocks : inode_blocks (inode_bytes img.part sym_ino) ≠ 0
  · rw [if_pos hblocks, if_pos hblocks]
    by_cases hzero : ext2_block img (inode_bytes img.part sym_ino) 0 = 0
    · rw [if_pos hzero, if_pos hzero]
    · rw [if_neg hzero, if_neg hzero, copied_text_congr fun i hi hle => ?_]
      have hin : i < blocksize img := by
        unfold MAX_SYMLINK_NAME at hle
        omega
      rw [block_eq ((hlink.block hblocks).data hzero) hin, ext2_content, if_neg hzero]
  · rw [if_neg hblocks, if_neg hblocks]
    have hshort := hlink.short (not_not.mp hblocks)
    rw [copied_text_congr fun i hi _ => hbytes _ (by omega)]

/-! ## Paths -/

/-- What is on disk keeps to the tree. -/
theorem Ext2Tree.closed (htree : Ext2Tree img) {len : ℕ} (hlen : MAX_SYMLINK_NAME ≤ len) :
    Closed (IsDirectory img) (LinkFits img) len (on_disk img) where
  root := .root
  dir _ _ _ hd he htype := .entry hd he htype
  link d name e hd he htype := htree.link d name e hd he htype
  text _ _ _ ht := (symlink_text_length ht).trans hlen

/-- A call in the tree asks about its directories and links only. -/
theorem Ext2Tree.asked (htree : Ext2Tree img) {c : PathCall} (hdir : IsDirectory img c.dir_ino)
    (hlink : ∀ d i, c = .follow d i → LinkFits img i.toNat) {q : Query}
    (hq : Asks.AskedBy (on_disk img) lookup_asks c.asks q) :
    QueryIn (IsDirectory img) (LinkFits img) q := by
  have hclosed := htree.closed c.path_max_le
  exact Asks.Keeps.askedBy (fun _ hk => lookup_asks_keeps hclosed hk.1)
    (PathCall.asks_keeps hclosed hdir hlink) hq

/-- The answers that the code finds in a sound call are those on disk. -/
theorem PathCall.Sound.found_eq {c : PathCall} (h : c.Sound img) (q : Query)
    (hq : Asks.AskedBy (on_disk img) lookup_asks c.asks q) : found img q = on_disk img q := by
  have hin := h.tree.asked h.dir h.link hq
  have hholes := h.holes q hq
  cases q with
  | entry dir_ino name => exact entry_eq h.tree.wellFormed (h.tree.dir _ hin) hholes
  | link sym_ino => exact link_text_eq h.tree.wellFormed hin

/-- Directories without blocks of pointers mislead no call. -/
theorem PathCall.sound_of_direct (htree : Ext2Tree img)
    (hdirect : ∀ d, IsDirectory img d → dir_size img d ≤ EXT2_NR_DIR_BLOCKS) {c : PathCall}
    (hdir : IsDirectory img c.dir_ino) (hlink : ∀ d i, c = .follow d i → LinkFits img i.toNat) :
    c.Sound img := by
  refine ⟨htree, hdir, hlink, fun q hq => ?_⟩
  have hin := htree.asked hdir hlink hq
  cases q with
  | entry dir_ino name =>
      exact fun k hk _ => .inl (holeHarmless_direct (hk.trans_le (hdirect dir_ino hin)))
  | link sym_ino => exact trivial

/-- What a sound call returns is what the path denotes. -/
theorem PathCall.denotes_of_gets {c : PathCall} (h : c.Sound img) {s : Scratch}
    (hs : Valid img s) {room : ℕ} {info : Option INODE_INFO_T} (hgets : c.Gets img room s info) :
    c.Denotes img info := by
  have hrun := (PathCall.gets_iff hs info).mp hgets
  have hsame := Asks.runWith_congr_of_askedBy (n := room) h.found_eq
  exact Calls.returns_of_runWith (fun _ _ => Calls.returns_of_run) (hsame.symm.trans hrun)

/-- **`ext2fs_inode_lookup` and `ext2fs_follow_symlink` return exactly when** the lookups that they
make nest no deeper than there is room for, and no link with a negative length comes up; and with
some room exactly when no path is looked up inside its own lookup. What is returned is what the
path denotes, as far as the holes of the directories do not mislead the code. -/
theorem path_lookup_returns_iff {s : Scratch} (hs : Valid img s) (c : PathCall) :
    (∀ room, (∃ info, c.Gets img room s info) ↔ c.NestsIn img room ∧ c.Unbroken img) ∧
    ((∃ room info, c.Gets img room s info) ↔ c.Acyclic img ∧ c.Unbroken img) ∧
    (c.Sound img → ∀ room, (∃ info, c.Denotes img info ∧ c.Gets img room s info) ↔
      c.NestsIn img room ∧ c.Unbroken img) := by
  refine ⟨fun room => PathCall.gets_some_iff hs, PathCall.ends_iff hs, fun hsound room => ?_⟩
  rw [← PathCall.gets_some_iff hs]
  constructor
  · rintro ⟨info, -, hgets⟩
    exact ⟨info, hgets⟩
  · rintro ⟨info, hgets⟩
    exact ⟨info, PathCall.denotes_of_gets hsound hs hgets, hgets⟩

/-! A file `/f`, and a link `/l` that leads to it or to itself. -/

section Link

/-- 8 blocks of 1024 bytes. -/
def link_part (target : UInt8) : ℕ → UInt8
  -- the super block: 8 inodes and 8 blocks, in one group, and the magic number
  | 1024 => 8
  | 1028 => 8
  | 1044 => 1
  | 1056 => 8
  | 1064 => 8
  | 1080 => 0x53
  | 1081 => 0xef
  -- the inodes of the group begin in block 3
  | 2056 => 3
  -- the root directory: 1024 bytes in block 4
  | 3205 => 4
  | 3240 => 4
  -- the file: 2 bytes in block 5
  | 3332 => 2
  | 3368 => 5
  -- the link: one character, in the inode
  | 3460 => 1
  | 3496 => target
  -- the entry of the file: inode 3, a record of 16 bytes, one character
  | 4096 => 3
  | 4100 => 16
  | 4102 => 1
  | 4103 => 1
  | 4104 => 0x66
  -- the entry of the link: inode 4, a record of 1008 bytes, one character
  | 4112 => 4
  | 4116 => 0xf0
  | 4117 => 3
  | 4118 => 1
  | 4119 => 7
  | 4120 => 0x6c
  | _ => 0

variable (target : UInt8)

theorem link_magic : load16 (super (link_part target)) 56 = EXT2_SUPER_MAGIC := by
  have hlow : super (link_part target) 56 = 0x53 := rfl
  have hhigh : super (link_part target) (56 + 1) = 0xef := rfl
  rw [load16, hlow, hhigh]
  decide

/-- The fields of the super block. -/
theorem link_super :
    sb_inodes_count (super (link_part target)) = 8 ∧
    sb_blocks_count (super (link_part target)) = 8 ∧
      sb_first_data_block (super (link_part target)) = 1 ∧
      sb_log_block_size (super (link_part target)) = 0 ∧
      sb_blocks_per_group (super (link_part target)) = 8 ∧
      sb_inodes_per_group (super (link_part target)) = 8 :=
  ⟨rfl, rfl, rfl, rfl, rfl, rfl⟩

theorem link_block_size : block_size (link_part target) = 1024 := by
  obtain ⟨-, -, -, hlog, -⟩ := link_super target
  rw [block_size, hlog]
  rfl

theorem link_descriptors : descriptors (link_part target) = 2048 := by
  obtain ⟨-, -, hfirst, -⟩ := link_super target
  rw [descriptors, hfirst, link_block_size]

theorem link_table : inode_table (link_part target) 0 = 3072 := by
  have hblock : load32 (fun i => link_part target (2048 + i)) 8 = 3 := rfl
  have hbytes : descriptor (link_part target) 0 = fun i => link_part target (2048 + i) := by
    funext i
    rw [descriptor, link_descriptors]
  rw [inode_table, hbytes, hblock, link_block_size]

theorem link_group {ino : ℕ} (h : IsInode (link_part target) ino) :
    group_of (link_part target) ino = 0 := by
  obtain ⟨hcount, -, -, -, -, hgroup⟩ := link_super target
  have hle := h.le_count
  rw [group_of, hgroup]
  omega

def link_image : Image where
  part := link_part target
  magic := link_magic target
  block_size_le := by
    have hsize := link_block_size target
    rw [block_size] at hsize
    exact hsize.le.trans (by decide)
  blocks_per_group := by
    have hblocks := (link_super target).2.2.2.2.1
    exact ne_of_eq_of_ne hblocks (by decide)
  inodes := by
    have hinodes := (link_super target).2.2.2.2.2
    exact lt_of_lt_of_eq (by decide) hinodes.symm
  behind := fun _ => 0
  stack := fun _ => 0

theorem link_wellFormed : WellFormed (link_part target) := by
  obtain ⟨hcount, hblocks, hfirst, hlog, hper, hgroup⟩ := link_super target
  have hsize := link_block_size target
  have hend : fs_end (link_part target) = 8192 := by rw [fs_end, hblocks, hsize]
  exact
    { magic := link_magic target
      log_block_size := by omega
      first_data_block := by rw [hfirst, hlog, if_pos rfl]
      blocks_per_group := by omega
      inodes_per_group := by omega
      inode_bitmap := by omega
      on_partition := by
        rw [hend]
        decide
      descriptor_le := fun ino h => by
        rw [link_group target h, link_descriptors, hend]
        decide
      table_ne_zero := fun ino h => by
        rw [link_group target h, link_table]
        decide
      table_le := fun ino h => by
        rw [link_group target h, link_table, hgroup, hend]
        decide }

theorem link_inode {ino : ℕ} (hle : ino ≤ 8) (hone : 1 ≤ ino) :
    IsInode (link_part target) ino ∧
      inode_bytes (link_part target) ino =
        fun i => link_part target (3072 + 128 * (ino - 1) + i) := by
  obtain ⟨hcount, -, -, -, -, hgroup⟩ := link_super target
  have hino : IsInode (link_part target) ino := ⟨hone, by omega⟩
  refine ⟨hino, funext fun i => ?_⟩
  rw [inode_bytes, link_group target hino, link_table, index_in_group, hgroup,
    Nat.mod_eq_of_lt (by omega)]

/-- The root directory has one block with two records. -/
theorem link_root :
    inode_size (inode_bytes (link_part target) EXT2_ROOT_INO) = 1024 ∧
      inode_ptr (inode_bytes (link_part target) EXT2_ROOT_INO) 0 = 4 := by
  have hroot : EXT2_ROOT_INO ≤ 8 := by decide
  rw [(link_inode target hroot (by decide)).2]
  exact ⟨rfl, rfl⟩

theorem link_image_blocksize : blocksize (link_image target) = 1024 := link_block_size target

def file_record : DirRecord := ⟨3, 16, EXT2_FTYPE_REG_FILE, [0x66]⟩
def link_record : DirRecord := ⟨4, 1008, EXT2_FTYPE_SYMLINK, [0x6c]⟩

theorem link_root_block :
    ext2_block (link_image target) (inode_bytes (link_part target) EXT2_ROOT_INO) 0 = 4 := by
  have hpath : ∀ inode, block_path (link_image target) inode 0 = ⟨0, inode_ptr inode 0, 0⟩ := by
    intro inode
    rw [block_path]
    exact if_pos (by decide)
  rw [ext2_block, hpath]
  exact (link_root target).2

theorem link_root_content :
    ext2_content (link_image target) 4 = fun i => link_part target (4096 + i) := by
  funext i
  rw [ext2_content, if_neg (by decide), link_image_blocksize]
  rfl

theorem link_records :
    dir_record (ext2_content (link_image target) 4) 0 = file_record ∧
      dir_record (ext2_content (link_image target) 4) 16 = link_record := by
  rw [link_root_content]
  exact ⟨rfl, rfl⟩

theorem link_root_filled : Filled (ext2_content (link_image target) 4) 1024 0 := by
  obtain ⟨hfile, hlink⟩ := link_records target
  refine .record ?_ ?_ ?_
  · rw [hfile]
    decide
  · rw [hfile]
    decide
  · rw [hfile]
    change Filled _ 1024 16
    refine .record ?_ ?_ ?_
    · rw [hlink]
      decide
    · rw [hlink]
      decide
    · rw [hlink]
      exact .last

theorem link_root_size : dir_size (link_image target) EXT2_ROOT_INO = 1 := by
  rw [dir_size, link_image_blocksize]
  exact congrArg (· / 1024) (link_root target).1

theorem link_dir_entry (name : List UInt8) :
    dir_entry (link_image target) EXT2_ROOT_INO name =
      entry_named name [file_record, link_record] := by
  obtain ⟨hfile, hlink⟩ := link_records target
  have hrecords : ∀ n, dir_records (ext2_content (link_image target) 4) 1024 (n + 3) 0 =
      [file_record, link_record] := by
    intro n
    have hnext : 0 + file_record.reclen = 16 := rfl
    have hend : 16 + link_record.reclen = 1024 := rfl
    rw [dir_records, if_pos (by decide), hfile, hnext, dir_records, if_pos (by decide), hlink, hend,
      dir_records, if_neg (lt_irrefl _)]
  have hblock : block_entry (link_image target) (inode_bytes (link_part target) EXT2_ROOT_INO)
      name 0 = entry_named name [file_record, link_record] := by
    rw [block_entry, link_root_block, if_neg (by decide), link_image_blocksize, hrecords 1021]
  rw [dir_entry, link_root_size]
  change (List.range 1).findSome? _ = _
  rw [List.range_one, List.findSome?_singleton]
  exact hblock

/-- The two entries are a file and a link. -/
theorem link_entries {name : List UInt8} {e : DirEntry}
    (h : dir_entry (link_image target) EXT2_ROOT_INO name = some e) :
    e = ⟨3, EXT2_FTYPE_REG_FILE⟩ ∨ e = ⟨4, EXT2_FTYPE_SYMLINK⟩ := by
  rw [link_dir_entry, entry_named] at h
  obtain ⟨r, hfind, rfl⟩ := Option.map_eq_some_iff.mp h
  have hmem := List.mem_of_find?_eq_some hfind
  simp only [List.mem_cons, List.not_mem_nil, or_false] at hmem
  obtain rfl | rfl := hmem
  · exact .inl rfl
  · exact .inr rfl

theorem link_directory {d : ℕ} (h : IsDirectory (link_image target) d) : d = EXT2_ROOT_INO := by
  induction h with
  | root => rfl
  | entry _ he htype ih =>
      subst ih
      obtain rfl | rfl := link_entries target he
      · exact absurd htype (by decide)
      · exact absurd htype (by decide)

theorem link_tree : Ext2Tree (link_image target) where
  wellFormed := link_wellFormed target
  dir d hd := by
    obtain rfl := link_directory target hd
    obtain ⟨hsize, hptr⟩ := link_root target
    refine ⟨(link_inode target (by decide) (by decide)).1, ?_, ?_, fun k hk _ => ?_⟩
    · rw [link_image_blocksize]
      exact dvd_of_eq hsize.symm
    · refine one_block_fits ?_ ?_
      · rw [link_image_blocksize]
        exact hsize.le
      · rw [link_image_blocksize]
        exact le_trans (Nat.mul_le_mul_right 1024 (Nat.succ_le_succ hptr.le)) (by decide)
    · rw [link_root_size] at hk
      obtain rfl : k = 0 := by omega
      rw [link_image_blocksize]
      have hblock := link_root_block target
      change Filled (ext2_content _ (ext2_block _ (inode_bytes (link_part target) _) 0)) 1024 0
      rw [hblock]
      exact link_root_filled target
  link d name e hd he htype := by
    obtain rfl := link_directory target hd
    obtain rfl | rfl := link_entries target he
    · exact absurd htype (by decide)
    · have hfour : 4 ≤ 8 := by decide
      obtain ⟨hino, hbytes⟩ := link_inode target hfour (by decide)
      refine ⟨hino, fun hblocks => absurd ?_ hblocks, fun _ => ?_⟩
      · change inode_blocks (inode_bytes (link_part target) 4) = 0
        rw [hbytes]
        rfl
      · change inode_size (inode_bytes (link_part target) 4) ≤ 60
        rw [hbytes]
        exact Nat.le_of_ble_eq_true rfl

theorem link_sound (pathname : List UInt8) :
    (PathCall.lookup 2 pathname).Sound (link_image target) := by
  refine PathCall.sound_of_direct (link_tree target) (fun d hd => ?_) .root
    fun _ _ h => PathCall.noConfusion h
  obtain rfl := link_directory target hd
  rw [link_root_size]
  decide

/-- `"l"` -/
def link_path : List UInt8 := [0x6c]

/-- A link to the file needs room for two lookups, and gives the inode of the file. -/
theorem path_lookup_returns_iff_link :
    Valid (link_image 0x66) (mounted (link_image 0x66)) ∧
      (∃ info, (PathCall.lookup 2 link_path).Denotes (link_image 0x66) info ∧
        (PathCall.lookup 2 link_path).Gets (link_image 0x66) 2 (mounted (link_image 0x66)) info) ∧
      ¬∃ info, (PathCall.lookup 2 link_path).Gets (link_image 0x66) 1
        (mounted (link_image 0x66)) info := by
  have hvalid : Valid (link_image 0x66) (mounted (link_image 0x66)) := valid_mounted
  have hreturns := path_lookup_returns_iff hvalid (.lookup 2 link_path)
  have htwo : (returned (((PathCall.lookup 2 link_path).run (link_image 0x66) 2).value
      (mounted (link_image 0x66)))).isSome = true := by decide +kernel
  have hone : (returned (((PathCall.lookup 2 link_path).run (link_image 0x66) 1).value
      (mounted (link_image 0x66)))).isSome = false := by decide +kernel
  have hgets := Option.isSome_iff_exists.mp htwo
  refine ⟨hvalid, ?_, fun hnot => ?_⟩
  · exact (hreturns.2.2 (link_sound 0x66 link_path) 2).mpr ((hreturns.1 2).mp hgets)
  · exact Bool.false_ne_true (hone.symm.trans (Option.isSome_iff_exists.mpr hnot))

/-! The link that leads to itself. -/

theorem self_link_calls :
    lookup_calls (link_image 0x6c) (EXT2_ROOT_INO, link_path) =
      .call (EXT2_ROOT_INO, link_path) fun info =>
        (behind_link (names_asks 0) [] info).answered (found (link_image 0x6c)) := by
  have hentry : (entry (link_image 0x6c) EXT2_ROOT_INO link_path).map
      (fun dir => (dir.inode, dir.filetype)) = some (4, EXT2_FTYPE_SYMLINK) := by decide +kernel
  have htext : link_text (link_image 0x6c) 4 = .text link_path := by decide +kernel
  have hname : link_path.takeWhile (· ≠ SLASH) = link_path := by decide
  have hrest : (link_path.dropWhile (· ≠ SLASH)).tail = [] := by decide
  obtain ⟨dir, hdir, he⟩ := Option.map_eq_some_iff.mp hentry
  obtain ⟨hino, htype⟩ := Prod.mk.inj he
  have hasks : lookup_asks (EXT2_ROOT_INO, link_path) = names_asks 1 EXT2_ROOT_INO link_path := by
    have hpath : c_string link_path = 0x6c :: [] := by decide
    rw [lookup_asks, hpath]
    exact if_neg (by decide)
  rw [lookup_calls, hasks, names_asks_answered, hname, hrest, found, hdir, entry_asks, if_pos htype,
    link_answered, hino, found, htext]
  rfl

theorem self_link_cyclic :
    Calls.Cyclic (lookup_calls (link_image 0x6c)) (EXT2_ROOT_INO, link_path) := by
  refine ⟨_, .refl, .single ?_⟩
  rw [Calls.Inside, self_link_calls]
  exact .here _ _

/-- In a file system that is in order, looking `l` up does not return, with whatever room. -/
theorem self_link_not_found :
    (PathCall.lookup 2 link_path).Sound (link_image 0x6c) ∧
      ¬∃ room info, (PathCall.lookup 2 link_path).Gets (link_image 0x6c) room
        (mounted (link_image 0x6c)) info := by
  refine ⟨link_sound 0x6c link_path, fun h => ?_⟩
  have hacyclic := ((PathCall.ends_iff valid_mounted).mp h).1
  exact hacyclic (EXT2_ROOT_INO, link_path) (.here _ _) self_link_cyclic

end Link

end CsBoot.Ide.Ext2
