/-
What a damaged file system does to the loader: when `ext2fs_mount` gives a descriptor that
can be worked with, and when `search_dir_block` keeps to its block.

The lengths of the records of a directory lead from one to the next. A record is looked at
before anything is known of it, and it may end one byte past the block, which is where the
bound is checked. So the header of a record can lie past the end of the block, and the last
byte of a name can. Each record has at least 8 bytes, so that the walk always ends. A listing
prints the names with `printf(filename)`, so that a name is taken for a format.
-/
import CsBoot.Ide.Mount
import CsBoot.Sys.Printf

set_option autoImplicit false

namespace CsBoot.Ide.Ext2

open ByteMem SkipBlocks

/-! ## A block in memory -/

/-- The block that is searched; its bytes are those below `size`. -/
structure DirBlock where
  size : ℕ
  data : ByteMem

/-- How a search ends: with the offset of an entry, without one, with a byte that is not in
the block, with a name that `printf` finds conversions in, or not within a number of records. -/
inductive Search
  | found (dir : ℕ)
  | absent
  | outside
  | stray
  | unfinished
  deriving DecidableEq

namespace DirBlock

section Functions

variable (b : DirBlock)

def reclen (dir : ℕ) : ℕ := load16 b.data (dir + 4)
def namelen (dir : ℕ) : ℕ := (b.data (dir + 6)).toNat
def inode (dir : ℕ) : ℕ := load32 b.data dir

/-- `!strncmp(p, name, len)` with `p` at offset `i` and all of `name`, which has no zero. It
looks no further than the first byte that differs. -/
def same_name : ℕ → List UInt8 → Option Bool
  | _, [] => some true
  | i, c :: name =>
    if i < b.size then if b.data i = c then same_name (i + 1) name else some false
    else none

variable (name : List UInt8) (listing : Bool)

/-- The bytes of a record that makes sense are looked at: to see whether it is the entry with
this name, or with `type` other than zero to copy its name into `filename`. -/
def visit (dir : ℕ) : Option Bool :=
  if listing then
    if dir + 8 + min (b.namelen dir) 60 ≤ b.size then some false else none
  else if b.inode dir ≠ 0 ∧ b.namelen dir = name.length then b.same_name (dir + 8) name
  else some false

/-- `filename`, up to its final zero. -/
def filename (dir : ℕ) : List UInt8 :=
  c_string (firstBytes (fun i => b.data (dir + 8 + i)) (min (b.namelen dir) 60))

/-- The loop of `search_dir_block` with at most `n` records. -/
def search_from : ℕ → ℕ → Search
  | 0, _ => .unfinished
  | n + 1, dir =>
    if dir < b.size then
      if dir + 7 ≤ b.size then
        -- terminate on anything which doesn't make sense
        if b.reclen dir < 8 ∨ b.reclen dir < b.namelen dir + 8 ∨
            b.size + 1 < dir + b.reclen dir then .absent
        else
          match b.visit name listing dir with
          | none => .outside
          | some true => .found dir
          | some false =>
            -- printf(filename)
            if listing ∧ Printf.stands_alone (b.filename dir) = false then .stray
            else search_from n (dir + b.reclen dir)
      else .outside
    else .absent

/-- `search_dir_block` -/
def search_dir_block : Search := b.search_from name listing (b.size + 1) 0

/-! ## The records -/

/-- A record that is not the end of the search. -/
structure Sensible (dir : ℕ) : Prop where
  eight_le : 8 ≤ b.reclen dir
  name_le : b.namelen dir + 8 ≤ b.reclen dir
  end_le : dir + b.reclen dir ≤ b.size + 1

/-- The entry with this name. -/
structure Matches (dir : ℕ) : Prop where
  lookup : listing = false
  inode : b.inode dir ≠ 0
  namelen : b.namelen dir = name.length
  name : firstBytes (fun i => b.data (dir + 8 + i)) name.length = name

/-- The records that the search comes to from `start` on. -/
inductive Visits : ℕ → ℕ → Prop
  | here (dir : ℕ) : Visits dir dir
  | next {start dir : ℕ} :
      start < b.size → b.Sensible start → ¬b.Matches name listing start →
        Visits (start + b.reclen start) dir → Visits start dir

/-- The name fills the record, and all of it is looked at: in a lookup it is the name that
is looked for but for the last character, in a listing it is short enough to be printed. -/
def ReadToEnd (dir : ℕ) : Prop :=
  b.reclen dir = b.namelen dir + 8 ∧
    if listing then b.namelen dir ≤ 60
    else b.inode dir ≠ 0 ∧ b.namelen dir = name.length ∧ name ≠ [] ∧
      firstBytes (fun i => b.data (dir + 8 + i)) (name.length - 1) = name.dropLast

/-- The header is in the block; where the record ends one byte past the block, this byte is
not looked at; and a name that is listed can be given to `printf`. -/
structure Inside (dir : ℕ) : Prop where
  header : dir + 7 ≤ b.size
  last : b.Sensible dir → dir + b.reclen dir = b.size + 1 → ¬b.ReadToEnd name listing dir
  printed : b.Sensible dir → listing = true → Printf.stands_alone (b.filename dir) = true

/-- Only bytes of the block have been read, and `printf` had no conversions. -/
structure Kept (s : Search) : Prop where
  outside : s ≠ .outside
  stray : s ≠ .stray

end Functions

variable {b : DirBlock} {name : List UInt8} {listing : Bool}

/-! ## A name -/

/-- The bytes of a string behind its first. -/
theorem data_behind (b : DirBlock) (i : ℕ) :
    (fun j => b.data (i + (j + 1))) = fun j => b.data (i + 1 + j) := by
  funext j
  rw [Nat.add_assoc, Nat.add_comm 1 j]

theorem same_name_ne_none {i : ℕ} (h : i + name.length ≤ b.size) : b.same_name i name ≠ none := by
  induction name generalizing i with
  | nil => exact Option.some_ne_none _
  | cons c name ih =>
      rw [List.length_cons] at h
      rw [same_name, if_pos (by omega)]
      split_ifs
      · exact ih (by omega)
      · exact Option.some_ne_none _

theorem same_name_some {i : ℕ} {found : Bool} (h : b.same_name i name = some found) :
    found = true ↔ firstBytes (fun j => b.data (i + j)) name.length = name := by
  induction name generalizing i with
  | nil =>
      obtain rfl := Option.some.inj h
      exact iff_of_true rfl rfl
  | cons c name ih =>
      rw [List.length_cons, firstBytes_cons, data_behind, List.cons.injEq, Nat.add_zero]
      rw [same_name] at h
      split_ifs at h with hin hc
      · rw [ih h]
        exact (and_iff_right hc).symm
      · obtain rfl := Option.some.inj h
        exact iff_of_false Bool.false_ne_true fun hm => hc hm.1

/-- A name that ends one byte past the block is read to its end when its other bytes are
the right ones. -/
theorem same_name_past {i : ℕ} (h : i + name.length = b.size + 1) :
    b.same_name i name = none ↔
      name ≠ [] ∧ firstBytes (fun j => b.data (i + j)) (name.length - 1) = name.dropLast := by
  induction name generalizing i with
  | nil => exact iff_of_false (Option.some_ne_none _) fun h => h.1 rfl
  | cons c name ih =>
      rw [List.length_cons] at h
      rw [same_name, List.length_cons, Nat.add_sub_cancel]
      cases name with
      | nil =>
          -- the one byte that is left is the one past the block
          rw [List.length_nil] at h
          rw [if_neg (by omega)]
          exact iff_of_true rfl ⟨List.cons_ne_nil _ _, rfl⟩
      | cons d name =>
          rw [List.length_cons] at h
          rw [if_pos (by omega), List.length_cons, firstBytes_cons, data_behind,
            List.dropLast_cons_of_ne_nil (List.cons_ne_nil d name)]
          by_cases hc : b.data i = c
          · rw [if_pos hc, ih (by rw [List.length_cons]; omega), List.length_cons,
              Nat.add_sub_cancel]
            simp only [ne_eq, reduceCtorEq, not_false_eq_true, true_and, Nat.add_zero, hc,
              List.cons.injEq]
          · rw [if_neg hc]
            simp only [reduceCtorEq, ne_eq, not_false_eq_true, true_and, Nat.add_zero,
              List.cons.injEq, hc, false_and]

/-! ## A record -/

theorem not_sensible_iff {dir : ℕ} :
    (b.reclen dir < 8 ∨ b.reclen dir < b.namelen dir + 8 ∨ b.size + 1 < dir + b.reclen dir) ↔
      ¬b.Sensible dir := by
  constructor
  · rintro h ⟨h₁, h₂, h₃⟩
    omega
  · intro h
    by_contra hnot
    exact h ⟨by omega, by omega, by omega⟩

/-- A record that makes sense is looked at beyond the end of the block when it ends there
and is read to its end. -/
theorem visit_eq_none_iff {dir : ℕ} (h : b.Sensible dir) :
    b.visit name listing dir = none ↔
      dir + b.reclen dir = b.size + 1 ∧ b.ReadToEnd name listing dir := by
  obtain ⟨h₁, h₂, h₃⟩ := h
  rw [visit, ReadToEnd]
  -- a listing reads the name to print it, a lookup to compare it
  cases listing with
  | true =>
      simp only [if_true]
      split_ifs with hin
      · refine iff_of_false not_false ?_
        rintro ⟨hend, hlen, hname⟩
        omega
      · exact iff_of_true rfl ⟨by omega, by omega, by omega⟩
  | false =>
      simp only [Bool.false_eq_true, if_false]
      by_cases hentry : b.inode dir ≠ 0 ∧ b.namelen dir = name.length
      · rw [if_pos hentry]
        obtain ⟨hino, hlen⟩ := hentry
        by_cases hend : dir + 8 + name.length ≤ b.size
        · refine iff_of_false (same_name_ne_none hend) ?_
          rintro ⟨hrec, hfull, -⟩
          omega
        · rw [same_name_past (by omega)]
          constructor
          · rintro ⟨hne, hname⟩
            exact ⟨by omega, by omega, hino, hlen, hne, hname⟩
          · rintro ⟨-, -, -, -, hne, hname⟩
            exact ⟨hne, hname⟩
      · rw [if_neg hentry]
        refine iff_of_false (Option.some_ne_none _) ?_
        rintro ⟨-, -, hino, hlen, -⟩
        exact hentry ⟨hino, hlen⟩

theorem visit_matches {dir : ℕ} {found : Bool} (h : b.visit name listing dir = some found) :
    found = true ↔ b.Matches name listing dir := by
  rw [visit] at h
  cases listing with
  | true =>
      simp only [if_true] at h
      split_ifs at h
      obtain rfl := Option.some.inj h
      exact iff_of_false Bool.false_ne_true fun hm => Bool.false_ne_true hm.lookup.symm
  | false =>
      simp only [Bool.false_eq_true, if_false] at h
      split_ifs at h with hentry
      · rw [same_name_some h]
        constructor
        · intro hname
          exact ⟨rfl, hentry.1, hentry.2, hname⟩
        · intro hm
          exact hm.name
      · obtain rfl := Option.some.inj h
        exact iff_of_false Bool.false_ne_true fun hm => hentry ⟨hm.inode, hm.namelen⟩

/-! ## The walk -/

/-- Enough records for the rest of the block, each of 8 bytes or more. -/
structure Enough (b : DirBlock) (n dir : ℕ) : Prop where
  dir_le : dir ≤ b.size + 1
  records : b.size + 8 ≤ dir + 8 * n

theorem Enough.next {n dir : ℕ} (h : b.Enough (n + 1) dir) (hs : b.Sensible dir) :
    b.Enough n (dir + b.reclen dir) where
  dir_le := hs.end_le
  records := by
    have h₁ := h.records
    have h₂ := hs.eight_le
    omega

theorem enough_all (b : DirBlock) : b.Enough (b.size + 1) 0 := ⟨by omega, by omega⟩

theorem Visits.cases {start dir : ℕ} (h : b.Visits name listing start dir) :
    dir = start ∨ start < b.size ∧ b.Sensible start ∧ ¬b.Matches name listing start ∧
      b.Visits name listing (start + b.reclen start) dir := by
  cases h with
  | here => exact .inl rfl
  | next hlt hs hm hv => exact .inr ⟨hlt, hs, hm, hv⟩

/-- A record that ends the search is the only one that is still visited. -/
theorem forall_visits_of_last {dir : ℕ}
    (hlast : dir < b.size → b.Sensible dir → b.Matches name listing dir) :
    (∀ dir', b.Visits name listing dir dir' → dir' < b.size → b.Inside name listing dir') ↔
      (dir < b.size → b.Inside name listing dir) := by
  constructor
  · intro h
    exact h dir (.here dir)
  · intro h dir' hv hlt
    obtain rfl | ⟨hdir, hs, hm, -⟩ := hv.cases
    · exact h hlt
    · exact absurd (hlast hdir hs) hm

/-- One that does not is followed by the others. -/
theorem forall_visits_of_next {dir : ℕ} (hdir : dir < b.size) (hs : b.Sensible dir)
    (hm : ¬b.Matches name listing dir) (hin : b.Inside name listing dir) :
    (∀ dir', b.Visits name listing dir dir' → dir' < b.size → b.Inside name listing dir') ↔
      ∀ dir', b.Visits name listing (dir + b.reclen dir) dir' → dir' < b.size →
        b.Inside name listing dir' := by
  constructor
  · intro h dir' hv
    exact h dir' (.next hdir hs hm hv)
  · intro h dir' hv hlt
    obtain rfl | ⟨-, -, -, hv⟩ := hv.cases
    · exact hin
    · exact h dir' hv hlt

/-- What comes of a record that makes sense. -/
theorem inside_iff {dir : ℕ} (hheader : dir + 7 ≤ b.size) (hs : b.Sensible dir) :
    b.Inside name listing dir ↔ b.visit name listing dir ≠ none ∧
      ¬(listing = true ∧ Printf.stands_alone (b.filename dir) = false) := by
  rw [Ne, visit_eq_none_iff hs]
  constructor
  · rintro ⟨-, hlast, hprinted⟩
    refine ⟨fun ⟨hend, hread⟩ => hlast hs hend hread, fun ⟨hlist, hstray⟩ => ?_⟩
    exact Bool.false_ne_true (hstray.symm.trans (hprinted hs hlist))
  · rintro ⟨hin, hprint⟩
    refine ⟨hheader, fun _ hend hread => hin ⟨hend, hread⟩, fun _ hlist => ?_⟩
    rw [← Bool.not_eq_false]
    exact fun hstray => hprint ⟨hlist, hstray⟩

/-- The loop ends, and it keeps to the block when the records that it comes to are inside. -/
theorem search_from_spec {n dir : ℕ} (h : b.Enough n dir) :
    b.search_from name listing n dir ≠ .unfinished ∧
      (Kept (b.search_from name listing n dir) ↔
        ∀ dir', b.Visits name listing dir dir' → dir' < b.size →
          b.Inside name listing dir') := by
  induction n generalizing dir with
  | zero =>
      have h₁ := h.dir_le
      have h₂ := h.records
      omega
  | succ n ih =>
      have hout : ¬Kept .outside := fun hk => hk.outside rfl
      have hstray : ¬Kept .stray := fun hk => hk.stray rfl
      have habsent : Kept .absent := ⟨Search.noConfusion, Search.noConfusion⟩
      have hfound : Kept (.found dir) := ⟨Search.noConfusion, Search.noConfusion⟩
      rw [search_from]
      -- the tests in the order of the loop; each way out is the last record that is looked at
      by_cases hdir : dir < b.size
      · rw [if_pos hdir]
        by_cases hheader : dir + 7 ≤ b.size
        · rw [if_pos hheader]
          by_cases hs : b.Sensible dir
          · rw [if_neg fun hnot => not_sensible_iff.mp hnot hs]
            have hiff : b.Inside name listing dir ↔ b.visit name listing dir ≠ none ∧
                ¬(listing = true ∧ Printf.stands_alone (b.filename dir) = false) :=
              inside_iff hheader hs
            cases hv : b.visit name listing dir with
            | none =>
                refine ⟨Search.noConfusion, iff_of_false hout fun hall => ?_⟩
                exact (hiff.mp (hall dir (.here dir) hdir)).1 hv
            | some found =>
                have hmatch := visit_matches hv
                cases found with
                | true =>
                    have hm := hmatch.mp rfl
                    have hin : b.Inside name listing dir := by
                      refine hiff.mpr ⟨by rw [hv]; exact Option.some_ne_none _, fun hl => ?_⟩
                      exact Bool.false_ne_true (hm.lookup.symm.trans hl.1)
                    refine ⟨Search.noConfusion, iff_of_true hfound ?_⟩
                    exact (forall_visits_of_last fun _ _ => hm).mpr fun _ => hin
                | false =>
                    dsimp only
                    by_cases hprint : listing = true ∧
                        Printf.stands_alone (b.filename dir) = false
                    · rw [if_pos hprint]
                      refine ⟨Search.noConfusion, iff_of_false hstray fun hall => ?_⟩
                      exact (hiff.mp (hall dir (.here dir) hdir)).2 hprint
                    · rw [if_neg hprint]
                      have hin : b.Inside name listing dir :=
                        hiff.mpr ⟨by rw [hv]; exact Option.some_ne_none _, hprint⟩
                      have hm : ¬b.Matches name listing dir := fun hm =>
                        Bool.false_ne_true (hmatch.mpr hm)
                      rw [forall_visits_of_next hdir hs hm hin]
                      -- the walk goes on at the next record
                      exact ih (h.next hs)
          · rw [if_pos (not_sensible_iff.mpr hs)]
            refine ⟨Search.noConfusion, iff_of_true habsent ?_⟩
            rw [forall_visits_of_last fun _ hs' => absurd hs' hs]
            exact fun _ => ⟨hheader, fun hs' => absurd hs' hs, fun hs' => absurd hs' hs⟩
        · rw [if_neg hheader]
          refine ⟨Search.noConfusion, iff_of_false hout fun hall => ?_⟩
          exact hheader (hall dir (.here dir) hdir).header
      · rw [if_neg hdir]
        refine ⟨Search.noConfusion, iff_of_true habsent ?_⟩
        rw [forall_visits_of_last fun hlt _ => absurd hlt hdir]
        exact fun hlt => absurd hlt hdir

theorem search_dir_block_ends (b : DirBlock) (name : List UInt8) (listing : Bool) :
    b.search_dir_block name listing ≠ .unfinished :=
  (search_from_spec (enough_all b)).1

theorem search_dir_block_inside_iff (b : DirBlock) (name : List UInt8) (listing : Bool) :
    Kept (b.search_dir_block name listing) ↔
      ∀ dir, b.Visits name listing 0 dir → dir < b.size → b.Inside name listing dir :=
  (search_from_spec (enough_all b)).2

end DirBlock

/-! ## A damaged file system -/

/-- The numbers that are divided by are not zero. -/
structure EXT2_DESC_T.Divides (desc : EXT2_DESC_T) : Prop where
  blocksize : desc.blocksize ≠ 0
  blocks_per_group : desc.blocks_per_group ≠ 0
  inodes_per_group : desc.inodes_per_group ≠ 0
  nr_ind_blocks : desc.nr_ind_blocks ≠ 0
  nr_dind_blocks : desc.nr_dind_blocks ≠ 0

/-- The mount is refused, or gives a descriptor with blocks that fit into the buffer and
with divisors; and the search of a block with these contents ends, keeps to it and gives
`printf` no conversions. -/
def Survives (part : ℕ → UInt8) (reads : Reads) (contents : ByteMem) (name : List UInt8)
    (listing : Bool) : Prop :=
  match ext2fs_mount part reads with
  | .refused => True
  | .undefined => False
  | .mounted desc =>
    desc.blocksize ≤ EXT2_MAX_BLOCK_SIZE ∧ desc.Divides ∧
      (⟨desc.blocksize, contents⟩ : DirBlock).search_dir_block name listing ≠ .unfinished ∧
      DirBlock.Kept ((⟨desc.blocksize, contents⟩ : DirBlock).search_dir_block name listing)

/-- The super block is refused at once. -/
def NotExt2 (part : ℕ → UInt8) (reads : Reads) : Prop :=
  reads.ok 2 = true → sb_magic (super part) ≠ EXT2_SUPER_MAGIC

/-- The descriptors cannot be read, and what is computed up to that point is defined. -/
def NoDescriptors (part : ℕ → UInt8) (reads : Reads) : Prop :=
  sb_log_block_size (super part) < 22 ∧ sb_blocks_per_group (super part) ≠ 0 ∧
    reads.ok (gdesc_sector (EXT2_BLOCK_SIZE (super part))) = false

/-- The sizes in the super block are those of a file system, and the records of the
directory lie in the block. -/
structure Orderly (part : ℕ → UInt8) (contents : ByteMem) (name : List UInt8)
    (listing : Bool) : Prop where
  log_block_size : sb_log_block_size (super part) ≤ 2
  blocks_per_group : sb_blocks_per_group (super part) ≠ 0
  inodes_per_group : sb_inodes_per_group (super part) ≠ 0
  records : ∀ dir,
    DirBlock.Visits ⟨EXT2_BLOCK_SIZE (super part), contents⟩ name listing 0 dir →
      dir < EXT2_BLOCK_SIZE (super part) →
        DirBlock.Inside ⟨EXT2_BLOCK_SIZE (super part), contents⟩ name listing dir

section Damaged

variable {part : ℕ → UInt8} {reads : Reads}

theorem desc_of_divides {sb gdesc_cache : ByteMem} (hlog : sb_log_block_size sb ≤ 2)
    (hblocks : sb_blocks_per_group sb ≠ 0) (hinodes : sb_inodes_per_group sb ≠ 0) :
    (desc_of sb gdesc_cache).Divides := by
  have hind : EXT2_BLOCK_SIZE sb / 4 ≠ 0 := by
    rcases block_size_cases hlog with h | h | h <;> rw [h] <;> decide
  have hdind : EXT2_BLOCK_SIZE sb / 4 * (EXT2_BLOCK_SIZE sb / 4) % W ≠ 0 := by
    rcases block_size_cases hlog with h | h | h <;> rw [h] <;> decide
  exact ⟨Nat.ne_of_gt (block_size_pos (by omega)), hblocks, hinodes, hind, hdind⟩

/-- A descriptor is one that can be worked with when the fields that it comes from are. -/
theorem desc_of_usable_iff {sb gdesc_cache : ByteMem} (hlog : sb_log_block_size sb < 22)
    (hblocks : sb_blocks_per_group sb ≠ 0) :
    (desc_of sb gdesc_cache).blocksize ≤ EXT2_MAX_BLOCK_SIZE ∧ (desc_of sb gdesc_cache).Divides ↔
      sb_log_block_size sb ≤ 2 ∧ sb_inodes_per_group sb ≠ 0 := by
  constructor
  · rintro ⟨hsize, hdiv⟩
    exact ⟨(block_size_le_iff hlog).mp hsize, hdiv.inodes_per_group⟩
  · rintro ⟨hlog₂, hinodes⟩
    exact ⟨(block_size_le_iff hlog).mpr hlog₂, desc_of_divides hlog₂ hblocks hinodes⟩

/-- The super block of a file system with 8 blocks and 8 inodes in a group. -/
def super_block_part (log_block_size : UInt8) : ℕ → UInt8
  | 1048 => log_block_size
  | 1056 => 8
  | 1064 => 8
  | 1080 => 0x53
  | 1081 => 0xef
  | _ => 0

/-- One record of 1022 bytes. -/
def short_block : ByteMem
  | 4 => 0xfe
  | 5 => 3
  | _ => 0

/-- One record of 1024 bytes, with the name `%s`. -/
def percent_block : ByteMem
  | 5 => 4
  | 6 => 2
  | 8 => 0x25
  | 9 => 0x73
  | _ => 0

theorem super_block_part_mounted (log_block_size : UInt8)
    (hdef : ¬(32 ≤ sb_log_block_size (super (super_block_part log_block_size)) ∨
      sb_blocks_per_group (super (super_block_part log_block_size)) = 0 ∨
        EXT2_BLOCK_SIZE (super (super_block_part log_block_size)) = 0)) :
    ∃ gdesc_cache, ext2fs_mount (super_block_part log_block_size) Reads.sound =
      .mounted (desc_of (super (super_block_part log_block_size)) gdesc_cache) := by
  have hlow : super (super_block_part log_block_size) 56 = 0x53 := rfl
  have hhigh : super (super_block_part log_block_size) 57 = 0xef := rfl
  have hmagic : sb_magic (super (super_block_part log_block_size)) = EXT2_SUPER_MAGIC := by
    rw [sb_magic, load16, hlow, hhigh]
    decide
  rw [ext2fs_mount_eq rfl hmagic, if_neg hdef, PARTITION_READ_of_true rfl]
  exact ⟨_, rfl⟩

end Damaged

end CsBoot.Ide.Ext2
