/-
When `ext2fs_inode_lookup` returns.

A link is a path to be looked up in the directory that holds the link, and so a lookup
calls itself. On its way it asks for the entries of directories and the texts of links
(`lookup_asks`); the answers that the code finds do not depend on the buffer or the cache, since
each step looks at what it has just read. Nothing is kept of the links that are being followed,
and their number is not bounded. A lookup returns something unless some path is looked up in
a directory while it is already being looked up there. Then it does not return.

That the answers are the file system's is for `PathFormat.lean`.
-/
import Mathlib.Data.Set.Finite.List
import CsBoot.Lib.Calls
import CsBoot.Ide.OpenFiles

set_option autoImplicit false

namespace CsBoot.Ide.Ext2

open ByteMem SkipBlocks
open ScratchM (Indep)

/-! ## What a lookup asks -/

/-- A directory, and a path that is looked up in it. -/
abbrev Place : Type := ℕ × List UInt8

/-- What a symbolic link says. It cannot be read, or its length is negative as an `int`, or
it is a path. -/
inductive LinkText
  | unreadable
  | negative
  | text (path : List UInt8)
  deriving DecidableEq

/-- The entry of a directory with this name, or what a symbolic link says. -/
inductive Query
  | entry (dir_ino : ℕ) (name : List UInt8)
  | link (sym_ino : ℕ)

def Answer : Query → Type
  | .entry _ _ => Option DirEntry
  | .link _ => LinkText

abbrev PathCalls : Type := Calls Place (Option INODE_INFO_T)

abbrev PathAsks : Type := Asks Place (Option INODE_INFO_T) Query Answer

/-- A link that says `text` is what this denotes in the directory that has the link. The
copy of one with a negative length runs over the stack. -/
def text_asks (dir_ino : ℕ) (next : Option INODE_INFO_T → PathAsks) : LinkText → PathAsks
  | .unreadable => next none
  | .negative => .crash
  | .text path => .call (dir_ino, path) next

/-- What is behind a link, when the link denotes `info`. Only a directory has names
behind it. -/
def behind_link (next : ℕ → List UInt8 → PathAsks) (rest : List UInt8) :
    Option INODE_INFO_T → PathAsks
  | none => .done none
  | some info =>
    if rest = [] then .done (some info)
    else if info.filetype ≠ EXT2_FTYPE_DIR then .done none
    else next info.ino rest

/-- What is behind an entry; only a file or a directory is an answer. -/
def entry_asks (next : ℕ → List UInt8 → PathAsks) (dir_ino : ℕ) (rest : List UInt8) :
    Option DirEntry → PathAsks
  | none => .done none
  | some dir =>
    if dir.filetype = EXT2_FTYPE_SYMLINK then
      .ask (.link dir.inode) (text_asks dir_ino (behind_link next rest))
    else if dir.filetype = EXT2_FTYPE_DIR then
      if rest ≠ [] then next dir.inode rest
      else .done (some ⟨dir.inode, dir_ino, dir.filetype⟩)
    else if dir.filetype = EXT2_FTYPE_REG_FILE then
      if rest ≠ [] then .done none
      else .done (some ⟨dir.inode, dir_ino, dir.filetype⟩)
    else .done none

/-- The names of a path, at most `n` of them. -/
def names_asks : ℕ → ℕ → List UInt8 → PathAsks
  | 0, _, _ => .done none
  | n + 1, dir_ino, pathname =>
    .ask (.entry dir_ino (pathname.takeWhile (· ≠ SLASH)))
      (entry_asks (names_asks n) dir_ino (pathname.dropWhile (· ≠ SLASH)).tail)

theorem names_asks_answered (o : (q : Query) → Answer q) (n dir_ino : ℕ) (pathname : List UInt8) :
    (names_asks (n + 1) dir_ino pathname).answered o =
      (entry_asks (names_asks n) dir_ino (pathname.dropWhile (· ≠ SLASH)).tail
        (o (.entry dir_ino (pathname.takeWhile (· ≠ SLASH))))).answered o := rfl

theorem link_answered (o : (q : Query) → Answer q) (sym_ino dir_ino : ℕ)
    (next : Option INODE_INFO_T → PathAsks) :
    (Asks.ask (A := Answer) (.link sym_ino) (text_asks dir_ino next)).answered o =
      (text_asks dir_ino next (o (.link sym_ino))).answered o := rfl

/-- A path in a directory; one that begins with a slash is in the root directory. -/
def lookup_asks (at_ : Place) : PathAsks :=
  match c_string at_.2 with
  | [] => .done none
  | c :: rest =>
    if c = SLASH then
      if rest = [] then .done (some ⟨EXT2_ROOT_INO, EXT2_ROOT_INO, EXT2_FTYPE_DIR⟩)
      else names_asks rest.length EXT2_ROOT_INO rest
    else names_asks (c :: rest).length at_.1 (c :: rest)

/-! ## What the code finds -/

section Paths

variable (img : Image)

/-- The entry that is found. -/
def entry (dir_ino : ℕ) (name : List UInt8) : Option DirEntry :=
  (ext2fs_dir_lookup img dir_ino name).value (mounted img)

/-- The inode that is found. -/
def inode_at (ino : ℕ) : Option ByteMem :=
  (ext2fs_get_inode img ino).value (mounted img)

/-- The path of this length in these bytes. -/
def copied_text (path : ByteMem) (pathlen : ℕ) : LinkText :=
  if pathlen ≤ MAX_SYMLINK_NAME then .text (firstBytes path pathlen) else .negative

/-- The path that the inode of a symbolic link holds: in its first block, with this number and
these bytes, or where the numbers of the blocks would be. -/
def symlink_text (inode : ByteMem) (block_nr : ℕ) (data : ByteMem) : LinkText :=
  if MAX_SYMLINK_NAME < inode_size inode ∧ inode_size inode < W / 2 then .unreadable
  else if inode_blocks inode ≠ 0 then
    if block_nr = 0 then .unreadable
    else copied_text data (inode_size inode)
  else copied_text (fun i => inode (40 + i)) (inode_size inode)

/-- The text of a link that is found. -/
def link_text (sym_ino : ℕ) : LinkText :=
  (inode_at img sym_ino).elim .unreadable fun inode =>
    symlink_text inode (block_nr img inode 0) (block img (block_nr img inode 0))

def found : (q : Query) → Answer q
  | .entry dir_ino name => entry img dir_ino name
  | .link sym_ino => link_text img sym_ino

/-- A lookup with what the code finds. -/
def lookup_calls (at_ : Place) : PathCalls := (lookup_asks at_).answered (found img)

/-- What the code finds for a path, if it comes to an end. -/
def Finds (at_ : Place) (info : Option INODE_INFO_T) : Prop :=
  Calls.Returns (lookup_calls img) (lookup_calls img at_) info

end Paths

/-- What a lookup has returned: 0, or 1 with an inode. There is nothing where the links
that it may follow one inside the other are used up. -/
def returned : Option (Option INODE_INFO_T) → Option (Option INODE_INFO_T)
  | none => some none
  | some none => none
  | some (some info) => some (some info)

variable {img : Image}

/-! ## The code's lookup -/

/-- What a lookup returns, from any scratch. -/
def Gives (img : Image) (p : Ext2M (Option INODE_INFO_T)) (r : Option (Option INODE_INFO_T)) :
    Prop :=
  ∀ s, Valid img s → returned (p.value s) = r

theorem Gives.fail : Gives img .fail (some none) := fun _ _ => rfl

theorem Gives.some (info : INODE_INFO_T) : Gives img (pure (some info)) (some (some info)) :=
  fun _ _ => rfl

theorem Gives.bind {α : Type} {p : Ext2M α} {f : α → Ext2M (Option INODE_INFO_T)}
    {r : Option (Option INODE_INFO_T)} (hp : Indep (Valid img) p)
    (hnone : p.value (mounted img) = none → r = Option.some none)
    (hsome : ∀ a, p.value (mounted img) = Option.some a → Gives img (f a) r) :
    Gives img (p >>= f) r := by
  intro s hs
  cases hv : p.value (mounted img) with
  | none =>
      obtain ⟨s', hrun, -⟩ := hp.of_value hs valid_mounted hv
      rw [ScratchM.value, ScratchM.bind_fail hrun, hnone hv, returned]
  | some a =>
      obtain ⟨s', hrun, hs'⟩ := hp.of_value hs valid_mounted hv
      rw [ScratchM.value, ScratchM.bind_apply hrun]
      exact hsome a hv s' hs'

/-- A lookup inside a lookup. -/
theorem Gives.bind_lookup {p : Ext2M (Option INODE_INFO_T)}
    {f : Option INODE_INFO_T → Ext2M (Option INODE_INFO_T)}
    {r : Option (Option INODE_INFO_T)} {g : Option INODE_INFO_T → Option (Option INODE_INFO_T)}
    (hp : Indep (Valid img) p) (hr : Gives img p r) (hfail : g none = Option.some none)
    (hnone : f none = pure none) (hsome : ∀ info, Gives img (f (Option.some info)) (g info)) :
    Gives img (p >>= f) (r.bind g) := by
  have hr₀ : returned (p.value (mounted img)) = r := hr _ valid_mounted
  refine .bind hp (fun hv => ?_) fun info hv => ?_
  · rw [← hr₀, hv]
    exact hfail
  · cases info with
    | none =>
        rw [← hr₀, hv, hnone]
        exact fun _ _ => rfl
    | some info =>
        rw [← hr₀, hv]
        exact hsome info

/-- A block of a file is found. -/
theorem Gives.bind_inode_block {f : ℕ → Ext2M (Option INODE_INFO_T)}
    {r : Option (Option INODE_INFO_T)} (inode : ByteMem) (k : ℕ)
    (h : Gives img (f (block_nr img inode k)) r) :
    Gives img (ext2fs_inode_block img inode k >>= f) r := by
  intro s hs
  obtain ⟨buf, hrun⟩ := ext2fs_inode_block_apply img inode k s
  rw [ScratchM.value, ScratchM.bind_apply hrun]
  exact h _ hs

theorem Gives.bind_read_block {f : ByteMem → Ext2M (Option INODE_INFO_T)}
    {r : Option (Option INODE_INFO_T)} (n : ℕ) (h : Gives img (f (block img n)) r) :
    Gives img (read_block img n >>= f) r := by
  intro s hs
  rw [ScratchM.value, read_block_bind]
  exact h _ hs

section Follow

variable {follow : ℕ → ℕ → Ext2M (Option INODE_INFO_T)}
  {lookup : ℕ → List UInt8 → Ext2M (Option INODE_INFO_T)}
  {result : Place → Option (Option INODE_INFO_T)}

/-- What following a link returns, when looking up paths returns `result`. -/
def text_result (result : Place → Option (Option INODE_INFO_T)) (dir_ino : ℕ) :
    LinkText → Option (Option INODE_INFO_T)
  | .unreadable => some none
  | .negative => none
  | .text path => result (dir_ino, path)

theorem text_asks_runWith (o : (q : Query) → Answer q) (dir_ino : ℕ)
    (next : Option INODE_INFO_T → PathAsks) (text : LinkText) :
    ((text_asks dir_ino next text).answered o).runWith result =
      (text_result result dir_ino text).bind fun info =>
        ((next info).answered o).runWith result := by
  cases text with
  | unreadable => rfl
  | negative => rfl
  | text path => rfl

theorem copied_text_gives (hlookup : ∀ d p, Gives img (lookup d p) (result (d, p)))
    (dir_ino pathlen : ℕ) (path : ByteMem) :
    Gives img
      (if pathlen ≤ MAX_SYMLINK_NAME then lookup dir_ino (firstBytes path pathlen) else pure none)
      (text_result result dir_ino (copied_text path pathlen)) := by
  rw [copied_text]
  by_cases hlen : pathlen ≤ MAX_SYMLINK_NAME
  · rw [if_pos hlen, if_pos hlen]
    exact hlookup _ _
  · rw [if_neg hlen, if_neg hlen]
    exact fun _ _ => rfl

/-- `ext2fs_follow_symlink` looks up the text of the link. -/
theorem follow_symlink_gives (hlookup : ∀ d p, Gives img (lookup d p) (result (d, p)))
    (dir_ino sym_ino : ℕ) :
    Gives img (ext2fs_follow_symlink img lookup dir_ino sym_ino)
      (text_result result dir_ino (link_text img sym_ino)) := by
  unfold ext2fs_follow_symlink link_text inode_at
  refine .bind (ext2fs_get_inode_indep _) (fun hv => ?_) fun inode hv => ?_
  · rw [hv, Option.elim_none, text_result]
  rw [hv, Option.elim_some, symlink_text]
  by_cases hlen : MAX_SYMLINK_NAME < inode_size inode ∧ inode_size inode < W / 2
  · rw [if_pos hlen, if_pos hlen]
    exact .fail
  rw [if_neg hlen, if_neg hlen]
  by_cases hblocks : inode_blocks inode ≠ 0
  · rw [if_pos hblocks, if_pos hblocks]
    refine .bind_inode_block inode 0 ?_
    by_cases hzero : block_nr img inode 0 = 0
    · rw [if_pos hzero, if_pos hzero]
      exact .fail
    · rw [if_neg hzero, if_neg hzero]
      exact .bind_read_block _ (copied_text_gives hlookup _ _ _)
  · rw [if_neg hblocks, if_neg hblocks]
    exact copied_text_gives hlookup _ _ _

/-- The loop over the names makes the calls of `names_asks`. -/
theorem lookup_names_gives (hindep : ∀ d i, Indep (Valid img) (follow d i))
    (hfollow : ∀ d i, Gives img (follow d i) (text_result result d (link_text img i)))
    (n dir_ino : ℕ) (pathname : List UInt8) :
    Gives img (lookup_names img follow n dir_ino pathname)
      (((names_asks n dir_ino pathname).answered (found img)).runWith result) := by
  induction n generalizing dir_ino pathname with
  | zero => exact .fail
  | succ n ih =>
      rw [lookup_names, lookup_name, names_asks_answered, found, entry]
      refine .bind (ext2fs_dir_lookup_indep _ _) (fun hv => ?_) fun dir hv => ?_
      · rw [hv, entry_asks, Asks.answered, Calls.runWith]
      rw [hv, entry_asks]
      by_cases hlink : dir.filetype = EXT2_FTYPE_SYMLINK
      · rw [if_pos hlink, if_pos hlink, link_answered, found, text_asks_runWith]
        refine .bind_lookup (hindep _ _) (hfollow _ _) rfl rfl fun info => ?_
        dsimp only [behind_link]
        split_ifs
        · exact .some info
        · exact .fail
        · exact ih _ _
      · rw [if_neg hlink, if_neg hlink]
        split_ifs
        · exact ih _ _
        · exact .some _
        · exact .fail
        · exact .some _
        · exact .fail

end Follow

/-- With at most `n` links one inside the other the lookup returns what `run` does. -/
theorem inode_lookup_gives (img : Image) (n dir_ino : ℕ) (pathname : List UInt8) :
    Gives img (ext2fs_inode_lookup img n dir_ino pathname)
      (Calls.run (lookup_calls img) n (dir_ino, pathname)) := by
  induction n generalizing dir_ino pathname with
  | zero => exact fun _ _ => rfl
  | succ n ih =>
      have hindep : ∀ d i,
          Indep (Valid img) (ext2fs_follow_symlink img (ext2fs_inode_lookup img n) d i) :=
        ext2fs_follow_symlink_indep (ext2fs_inode_lookup_indep n)
      have hfollow : ∀ d i, Gives img (ext2fs_follow_symlink img (ext2fs_inode_lookup img n) d i)
          (text_result (Calls.run (lookup_calls img) n) d (link_text img i)) :=
        follow_symlink_gives ih
      rw [ext2fs_inode_lookup, Calls.run, lookup_calls, lookup_asks]
      cases c_string pathname with
      | nil => exact .fail
      | cons c rest =>
          dsimp only
          split_ifs
          · exact .some _
          · exact lookup_names_gives hindep hfollow _ _ _
          · exact lookup_names_gives hindep hfollow _ _ _

/-! ## Where the paths that come up are -/

section Keeps

variable (D S : ℕ → Prop) (len : ℕ)

/-- The directory is one of these, and the path is not too long. -/
def InFormat (at_ : Place) : Prop := D at_.1 ∧ at_.2.length ≤ len

/-- A result that is a directory is one of these. -/
def DirResult (info : Option INODE_INFO_T) : Prop :=
  ∀ i, info = some i → i.filetype = EXT2_FTYPE_DIR → D i.ino

/-- The directories and the links that are asked about are among these. -/
def QueryIn : Query → Prop
  | .entry dir_ino _ => D dir_ino
  | .link sym_ino => S sym_ino

/-- The root directory is one of these, and with a directory the entries in it; and no link has
a long text. -/
structure Closed (o : (q : Query) → Answer q) : Prop where
  root : D EXT2_ROOT_INO
  dir : ∀ d name e, D d → o (.entry d name) = some e → e.filetype = EXT2_FTYPE_DIR → D e.inode
  link : ∀ d name e, D d → o (.entry d name) = some e → e.filetype = EXT2_FTYPE_SYMLINK → S e.inode
  text : ∀ i path, S i → o (.link i) = .text path → path.length ≤ len

variable {D S len} {o : (q : Query) → Answer q} (ho : Closed D S len o)

theorem dirResult_none : DirResult D none := fun _ h => absurd h.symm (Option.some_ne_none _)

theorem dirResult_some {info : INODE_INFO_T} (h : info.filetype = EXT2_FTYPE_DIR → D info.ino) :
    DirResult D (some info) := by
  rintro i hi
  obtain rfl := Option.some.inj hi
  exact h

theorem text_asks_keeps {dir_ino : ℕ} {next : Option INODE_INFO_T → PathAsks} {text : LinkText}
    (hdir : D dir_ino) (htext : ∀ t, text = .text t → t.length ≤ len)
    (hnext : ∀ info, DirResult D info →
      (next info).Keeps o (InFormat D len) (DirResult D) (QueryIn D S)) :
    (text_asks dir_ino next text).Keeps o (InFormat D len) (DirResult D) (QueryIn D S) := by
  cases text with
  | unreadable => exact hnext none dirResult_none
  | negative => exact trivial
  | text path => exact ⟨⟨hdir, htext path rfl⟩, hnext⟩

include ho

theorem entry_asks_keeps {next : ℕ → List UInt8 → PathAsks} {dir_ino : ℕ} (hdir : D dir_ino)
    (hnext : ∀ d p, D d → (next d p).Keeps o (InFormat D len) (DirResult D) (QueryIn D S))
    (rest name : List UInt8) :
    (entry_asks next dir_ino rest (o (.entry dir_ino name))).Keeps o (InFormat D len) (DirResult D)
      (QueryIn D S) := by
  cases he : o (.entry dir_ino name) with
  | none => exact .done dirResult_none
  | some dir =>
      rw [entry_asks]
      split_ifs with hlink htype
      · have hS := ho.link _ _ _ hdir he hlink
        refine ⟨hS, text_asks_keeps hdir (fun t => ho.text _ _ hS) fun info hinfo => ?_⟩
        cases info with
        | none => exact .done dirResult_none
        | some info =>
            rw [behind_link]
            split_ifs with hrest hfile
            · exact .done hinfo
            · exact .done dirResult_none
            · exact hnext _ _ (hinfo info rfl (not_not.mp hfile))
      · exact hnext _ _ (ho.dir _ _ _ hdir he htype)
      · exact .done (dirResult_some fun _ => ho.dir _ _ _ hdir he htype)
      · exact .done dirResult_none
      · exact .done (dirResult_some fun hd => absurd hd htype)
      · exact .done dirResult_none

theorem names_asks_keeps (n : ℕ) {dir_ino : ℕ} (hdir : D dir_ino) (pathname : List UInt8) :
    (names_asks n dir_ino pathname).Keeps o (InFormat D len) (DirResult D) (QueryIn D S) := by
  induction n generalizing dir_ino pathname with
  | zero => exact .done dirResult_none
  | succ n ih => exact ⟨hdir, entry_asks_keeps ho hdir (fun d p hd => ih hd p) _ _⟩

/-- A lookup in one of the directories keeps to them. -/
theorem lookup_asks_keeps {at_ : Place} (h : D at_.1) :
    (lookup_asks at_).Keeps o (InFormat D len) (DirResult D) (QueryIn D S) := by
  rw [lookup_asks]
  cases c_string at_.2 with
  | nil => exact .done dirResult_none
  | cons c rest =>
      dsimp only
      split_ifs
      · exact .done (dirResult_some fun _ => ho.root)
      · exact names_asks_keeps ho _ ho.root _
      · exact names_asks_keeps ho _ h _

end Keeps

theorem finite_bytes : Finite UInt8 :=
  .of_injective UInt8.toFin fun _ _ => UInt8.toFin_inj.mp

theorem finite_inFormat (len : ℕ) : {at_ : Place | InFormat (· < W) len at_}.Finite := by
  have := finite_bytes
  have h := (Set.finite_lt_nat W).prod (List.finite_length_le UInt8 len)
  exact h.subset fun at_ h => Set.mem_prod.mpr ⟨h.1, h.2⟩

theorem search_dir_block_inode_lt {blkbuf : ByteMem} {name : List UInt8} {n dir : ℕ} {e : DirEntry}
    (h : search_dir_block img blkbuf name n dir = some e) : e.inode < W := by
  induction n generalizing dir with
  | zero => cases h
  | succ n ih =>
      rw [search_dir_block] at h
      dsimp only at h
      split_ifs at h
      · obtain rfl := Option.some.inj h
        exact load32_lt _ _
      · exact ih h

theorem dir_blocks_inode_lt {inode : ByteMem} {name : List UInt8} {n i : ℕ} {s s' : Scratch}
    {e : DirEntry} (h : dir_blocks img inode name n i s = (some e, s')) : e.inode < W := by
  induction n generalizing i s with
  | zero => cases h
  | succ n ih =>
      rw [dir_blocks] at h
      obtain ⟨b, s₁, -, h⟩ := ScratchM.of_bind h
      obtain ⟨blkbuf, s₂, -, h⟩ := ScratchM.of_bind h
      cases hsearch : search_dir_block img blkbuf name (blocksize img) 0 with
      | none =>
          rw [hsearch] at h
          exact ih h
      | some dir =>
          rw [hsearch] at h
          obtain rfl : dir = e := Option.some.inj (Prod.mk.inj h).1
          exact search_dir_block_inode_lt hsearch

theorem entry_inode_lt {dir_ino : ℕ} {name : List UInt8} {e : DirEntry}
    (h : entry img dir_ino name = some e) : e.inode < W := by
  rw [entry, ext2fs_dir_lookup] at h
  obtain ⟨s', h⟩ := ScratchM.of_value h
  obtain ⟨inode, s', -, h⟩ := ScratchM.of_bind h
  exact dir_blocks_inode_lt h

theorem copied_text_length {m : ByteMem} {pathlen : ℕ} {path : List UInt8}
    (h : copied_text m pathlen = .text path) : path.length ≤ MAX_SYMLINK_NAME := by
  rw [copied_text] at h
  split_ifs at h with hlen
  obtain rfl := LinkText.text.inj h
  rw [length_firstBytes]
  exact hlen

theorem symlink_text_length {inode data : ByteMem} {b : ℕ} {path : List UInt8}
    (h : symlink_text inode b data = .text path) : path.length ≤ MAX_SYMLINK_NAME := by
  rw [symlink_text] at h
  split_ifs at h
  · exact copied_text_length h
  · exact copied_text_length h

theorem link_text_length {sym_ino : ℕ} {path : List UInt8}
    (h : link_text img sym_ino = .text path) :
    path.length ≤ MAX_SYMLINK_NAME := by
  rw [link_text] at h
  cases hino : inode_at img sym_ino with
  | none =>
      rw [hino] at h
      cases h
  | some inode =>
      rw [hino] at h
      exact symlink_text_length h

/-- Whatever the image is, the code finds numbers of 32 bits and short texts. -/
theorem found_closed (img : Image) {len : ℕ} (hlen : MAX_SYMLINK_NAME ≤ len) :
    Closed (· < W) (fun _ => True) len (found img) where
  root := by decide
  dir _ _ _ _ he _ := entry_inode_lt he
  link _ _ _ _ _ _ := trivial
  text _ _ _ ht := (link_text_length ht).trans hlen

/-! ## When it returns -/

/-- A call of `ext2fs_inode_lookup`, or of `ext2fs_follow_symlink`. -/
inductive PathCall
  | lookup (dir_ino : UInt32) (pathname : List UInt8)
  | follow (dir_ino sym_ino : UInt32)

namespace PathCall

/-- The directory that it begins in. -/
def dir_ino : PathCall → ℕ
  | .lookup dir_ino _ => dir_ino.toNat
  | .follow dir_ino _ => dir_ino.toNat

def asks : PathCall → PathAsks
  | .lookup dir_ino pathname => .call (dir_ino.toNat, pathname) .done
  | .follow dir_ino sym_ino => .ask (.link sym_ino.toNat) (text_asks dir_ino.toNat .done)

/-- The path of a lookup, and the texts of links, are not longer. -/
def path_max : PathCall → ℕ
  | .lookup _ pathname => max MAX_SYMLINK_NAME pathname.length
  | .follow _ _ => MAX_SYMLINK_NAME

/-- The call, with room on the stack for `room` lookups one inside the other. -/
def run (img : Image) (room : ℕ) : PathCall → Ext2M (Option INODE_INFO_T)
  | .lookup dir_ino pathname => ext2fs_inode_lookup img room dir_ino.toNat pathname
  | .follow dir_ino sym_ino =>
    ext2fs_follow_symlink img (ext2fs_inode_lookup img room) dir_ino.toNat sym_ino.toNat

variable (c : PathCall) (img : Image) (room : ℕ) (s : Scratch)

/-- It has returned 0, or 1 with an inode. -/
def Gets (info : Option INODE_INFO_T) : Prop := returned ((c.run img room).value s) = some info

/-- The lookups that it makes are at most `room` deep. -/
def NestsIn : Prop :=
  ∀ at_, Calls.Comes (lookup_calls img) (c.asks.answered (found img)) at_ →
    Calls.NestsIn (lookup_calls img) room at_

/-- No path comes up again while it is being looked up in the same directory. -/
def Acyclic : Prop :=
  ∀ at_, Calls.Comes (lookup_calls img) (c.asks.answered (found img)) at_ →
    ¬Calls.Cyclic (lookup_calls img) at_

/-- No link with a negative length comes up. -/
structure Unbroken : Prop where
  first : ¬Calls.Crashes (lookup_calls img) (c.asks.answered (found img))
  inner : ∀ at_, Calls.Comes (lookup_calls img) (c.asks.answered (found img)) at_ →
    ¬Calls.Broken (lookup_calls img) at_

variable {c img room s}

theorem path_max_le (c : PathCall) : MAX_SYMLINK_NAME ≤ c.path_max := by
  cases c with
  | lookup _ _ => exact Nat.le_max_left _ _
  | follow _ _ => exact le_rfl

/-- What the call returns is what its questions lead to. -/
theorem gets_iff (hs : Valid img s) (info : Option INODE_INFO_T) :
    c.Gets img room s info ↔
      (c.asks.answered (found img)).runWith (Calls.run (lookup_calls img) room) = some info := by
  have hgives : ∀ d p, Gives img (ext2fs_inode_lookup img room d p)
      (Calls.run (lookup_calls img) room (d, p)) := inode_lookup_gives img room
  have hdone : ∀ found : Option (Option INODE_INFO_T), (found.bind fun info =>
      ((Asks.done info : PathAsks).answered (Ext2.found img)).runWith
        (Calls.run (lookup_calls img) room)) = found := Option.bind_fun_some
  cases c with
  | lookup dir_ino pathname =>
      rw [Gets, run, hgives _ _ s hs, asks, Asks.answered, Calls.runWith, hdone]
  | follow dir_ino sym_ino =>
      rw [Gets, run, follow_symlink_gives hgives _ _ s hs, asks, link_answered, found,
        text_asks_runWith, hdone]

/-- A call has returned with this room exactly when it needs no more and no link breaks it. -/
theorem gets_some_iff (hs : Valid img s) :
    (∃ info, c.Gets img room s info) ↔ c.NestsIn img room ∧ c.Unbroken img := by
  simp only [gets_iff hs, Calls.runWith_isSome_iff, Calls.run_isSome_iff]
  constructor
  · rintro ⟨hcomes, hcrash⟩
    exact ⟨fun at_ h => (hcomes at_ h).1, hcrash, fun at_ h => (hcomes at_ h).2⟩
  · rintro ⟨hnests, hcrash, hbroken⟩
    exact ⟨fun at_ h => ⟨hnests at_ h, hbroken at_ h⟩, hcrash⟩

theorem asks_keeps {D S : ℕ → Prop} {o : (q : Query) → Answer q} (ho : Closed D S c.path_max o)
    (hdir : D c.dir_ino) (hlink : ∀ d i, c = .follow d i → S i.toNat) :
    c.asks.Keeps o (InFormat D c.path_max) (DirResult D) (QueryIn D S) := by
  cases c with
  | lookup dir_ino pathname => exact ⟨⟨hdir, Nat.le_max_right _ _⟩, fun _ h => h⟩
  | follow dir_ino sym_ino =>
      have hS := hlink _ _ rfl
      exact ⟨hS, text_asks_keeps hdir (fun t => ho.text _ _ hS) fun _ h => h⟩

/-- With any room, it returns exactly when it does not go in circles and no link breaks it. -/
theorem ends_iff (hs : Valid img s) :
    (∃ room info, c.Gets img room s info) ↔ c.Acyclic img ∧ c.Unbroken img := by
  have hclosed : Closed (· < W) (fun _ => True) c.path_max (found img) :=
    found_closed img c.path_max_le
  have hdir : c.dir_ino < W := by
    cases c with
    | lookup dir_ino _ => exact dir_ino.toNat_lt
    | follow dir_ino _ => exact dir_ino.toNat_lt
  have hbody : ∀ at_, InFormat (· < W) c.path_max at_ →
      (lookup_calls img at_).Keeps (InFormat (· < W) c.path_max) (DirResult (· < W)) :=
    fun at_ h => (lookup_asks_keeps hclosed h.1).calls
  have hkeeps := (asks_keeps hclosed hdir fun _ _ _ => trivial).calls
  have hcall : ∀ at_, Calls.Comes (lookup_calls img) (c.asks.answered (found img)) at_ →
      ((∃ info, Calls.Returns (lookup_calls img) (lookup_calls img at_) info) ↔
        ¬Calls.Cyclic (lookup_calls img) at_ ∧ ¬Calls.Broken (lookup_calls img) at_) :=
    fun at_ h => Calls.Keeps.returns_iff hbody (finite_inFormat _)
      (hbody at_ (Calls.Keeps.of_comes hbody h hkeeps))
  simp only [gets_iff hs]
  constructor
  · rintro ⟨room, info, hrun⟩
    have hret := Calls.returns_of_runWith (fun _ _ => Calls.returns_of_run) hrun
    refine ⟨fun at_ h => ?_, hret.not_crashes, fun at_ h => ?_⟩
    · exact ((hcall at_ h).mp (hret.of_comes h)).1
    · exact ((hcall at_ h).mp (hret.of_comes h)).2
  · rintro ⟨hacyclic, hcrash, hbroken⟩
    obtain ⟨info, hret⟩ := Calls.returns_of_comes
      (fun at_ h => (hcall at_ h).mpr ⟨hacyclic at_ h, hbroken at_ h⟩) hcrash
    obtain ⟨room, hrun⟩ := Calls.runWith_of_returns hret
    exact ⟨room, info, hrun room le_rfl⟩

end PathCall

end CsBoot.Ide.Ext2
