/-
What a failed `ext2fs_open` leaves behind.

The handle is marked as opened before the path is looked up, and nothing takes the mark
back when the lookup or the reading of the inode fails. The caller gets `NULL` and has
nothing to close. So the handles that are taken stay the same over a failed open exactly
when none was free, and a path that leads nowhere costs a handle each time.
-/
import CsBoot.Ide.PathLookup

set_option autoImplicit false

namespace CsBoot.Ide.Ext2

open ByteMem
open ScratchM (Indep)

/-! ## The handles -/

/-- The set of opened handles. -/
def taken (s : Ext2State) : Set Handle := {h | (s.file_info h).opened = true}

/-- `ext2fs_close` -/
def ext2fs_close (h : Handle) (s : Ext2State) : Ext2State :=
  { s with file_info := Function.update s.file_info h { s.file_info h with opened := false } }

/-- An open that follows at most `n` links one inside the other, or a close. -/
inductive FileOp
  | open (n : ℕ) (filepath : List UInt8)
  | close (h : Handle)

/-- What `FileOp.open` does is what `step` says of it. -/
def fileStep (img : Image) (s : Ext2State) : FileOp → Ext2State
  | .open n filepath => step img s (.open n filepath)
  | .close h => ext2fs_close h s

section Traces

variable (img : Image)

/-- An open of this path that returns `NULL` leaves the set of opened handles as it was. -/
def Traceless (filepath : List UInt8) (s : Ext2State) : Prop :=
  ∀ n s', ext2fs_open img n filepath s = some (none, s') → taken s' = taken s

/-- The operation is an open that returns `NULL`. -/
def FailedOpen (s : Ext2State) : FileOp → Prop
  | .open n filepath => ∃ s', ext2fs_open img n filepath s = some (none, s')
  | .close _ => False

/-- The path leads to an inode, and this can be read. -/
def Leads (filepath : List UInt8) : Prop :=
  ∃ info inode, Finds img (EXT2_ROOT_INO, filepath) (some info) ∧
    inode_at img info.ino = some inode

/-- The path leads to nothing, or to the number of an inode that cannot be read. -/
def Missing (filepath : List UInt8) : Prop :=
  Finds img (EXT2_ROOT_INO, filepath) none ∨
    ∃ info, Finds img (EXT2_ROOT_INO, filepath) (some info) ∧ inode_at img info.ino = none

/-- An open of a file that is there has a handle, with enough links to follow. -/
def Opens (filepath : List UInt8) (s : Ext2State) : Prop :=
  ∃ n, ∀ m, n ≤ m → ∃ h s', ext2fs_open img m filepath s = some (some h, s')

end Traces

variable {img : Image}

/-! ## What an open finds -/

/-- The handle that is filled with an inode. -/
def file_of_inode (inode : ByteMem) : FILE_T := ⟨true, true, inode, inode_size inode, 0⟩

theorem open_inode_value {s : Scratch} (hs : Valid img s) (info : INODE_INFO_T) :
    (open_inode img (some info)).value s =
      (inode_at img info.ino).map fun inode => some (file_of_inode inode) := by
  cases hino : inode_at img info.ino with
  | none =>
      obtain ⟨s', hrun, -⟩ := (ext2fs_get_inode_indep _).of_value hs valid_mounted hino
      rw [open_inode, ScratchM.value_bind_fail hrun, Option.map_none]
  | some inode =>
      obtain ⟨s', hrun, -⟩ := (ext2fs_get_inode_indep _).of_value hs valid_mounted hino
      rw [open_inode, ScratchM.value_bind hrun, Option.map_some, file_of_inode, ScratchM.value,
        ScratchM.pure_apply]

/-- What an open makes of the result of the lookup. -/
def found_file (img : Image) : Option (Option INODE_INFO_T) → Option (Option FILE_T)
  | none => some none
  | some none => none
  | some (some info) => (inode_at img info.ino).map fun inode => some (file_of_inode inode)

theorem open_file_value {s : Scratch} (hs : Valid img s) (n : ℕ) (filepath : List UInt8) :
    (open_file img n filepath).value s =
      found_file img (Calls.run (lookup_calls img) n (EXT2_ROOT_INO, filepath)) := by
  have hindep : Indep (Valid img) (ext2fs_inode_lookup img n EXT2_ROOT_INO filepath) :=
    ext2fs_inode_lookup_indep _ _ _
  have hgives := inode_lookup_gives img n EXT2_ROOT_INO filepath s hs
  rw [← hgives, open_file]
  cases hv : (ext2fs_inode_lookup img n EXT2_ROOT_INO filepath).value s with
  | none =>
      obtain ⟨s', hrun⟩ := ScratchM.of_value hv
      rw [ScratchM.value_bind_fail hrun, returned, found_file]
  | some info =>
      obtain ⟨s', hrun, hs'⟩ := hindep.of_value hs hs hv
      rw [ScratchM.value_bind hrun]
      cases info with
      | none => rw [returned, found_file, open_inode, ScratchM.value, ScratchM.pure_apply]
      | some info =>
          rw [returned, found_file]
          exact open_inode_value hs' info

/-- A path that leads nowhere is not opened by any number of links. -/
theorem open_file_none_iff {s : Scratch} (hs : Valid img s) (filepath : List UInt8) :
    (∃ n, (open_file img n filepath).value s = none) ↔ Missing img filepath := by
  constructor
  · rintro ⟨n, h⟩
    rw [open_file_value hs] at h
    cases hrun : Calls.run (lookup_calls img) n (EXT2_ROOT_INO, filepath) with
    | none =>
        rw [hrun, found_file] at h
        cases h
    | some found =>
        cases found with
        | none => exact .inl (Calls.returns_of_run hrun)
        | some info =>
            rw [hrun, found_file] at h
            exact .inr ⟨info, Calls.returns_of_run hrun, Option.map_eq_none_iff.mp h⟩
  · rintro (hden | ⟨info, hden, hino⟩)
    · obtain ⟨n, hrun⟩ := Calls.run_of_returns hden
      refine ⟨n, ?_⟩
      rw [open_file_value hs, hrun n le_rfl, found_file]
    · obtain ⟨n, hrun⟩ := Calls.run_of_returns hden
      refine ⟨n, ?_⟩
      rw [open_file_value hs, hrun n le_rfl, found_file]
      exact Option.map_eq_none_iff.mpr hino

theorem open_file_leads {s : Scratch} (hs : Valid img s) {filepath : List UInt8}
    (h : Leads img filepath) :
    ∃ n inode, ∀ m, n ≤ m →
      (open_file img m filepath).value s = some (some (file_of_inode inode)) := by
  obtain ⟨info, inode, hden, hino⟩ := h
  obtain ⟨n, hrun⟩ := Calls.run_of_returns hden
  refine ⟨n, inode, fun m hm => ?_⟩
  rw [open_file_value hs, hrun m hm, found_file, hino, Option.map_some]

/-! ## One open -/

theorem free_handle_not_taken {s : Ext2State} {h : Handle} (hfree : free_handle s = some h) :
    h ∉ taken s := by
  have hopen := List.find?_some hfree
  intro (htaken : (s.file_info h).opened = true)
  rw [htaken] at hopen
  cases hopen

theorem free_handle_none_iff {s : Ext2State} : free_handle s = none ↔ taken s = Set.univ := by
  rw [free_handle, List.find?_eq_none, Set.eq_univ_iff_forall]
  constructor
  · intro h i
    have hi := h i (List.mem_finRange i)
    rw [Bool.not_eq_true, Bool.not_eq_false'] at hi
    exact hi
  · intro h i _ hi
    have htaken : (s.file_info i).opened = true := h i
    rw [htaken] at hi
    cases hi

/-- With a handle that is free, an open that fails has taken it. -/
theorem ext2fs_open_failed {s : Ext2State} {h : Handle} (hfree : free_handle s = some h) {n : ℕ}
    {filepath : List UInt8} (hnone : (open_file img n filepath).value s.scratch = none) :
    ∃ s', ext2fs_open img n filepath s = some (none, s') ∧ h ∈ taken s' := by
  obtain ⟨scratch, hrun⟩ := ScratchM.of_value hnone
  refine ⟨⟨Function.update s.file_info h { file_cleared with opened := true }, scratch⟩, ?_, ?_⟩
  · rw [ext2fs_open, ← free_handle, hfree]
    dsimp only
    rw [hrun]
  · change (Function.update s.file_info h _ h).opened = true
    rw [Function.update_self]

/-- An open fails because no handle is free, or because the path leads nowhere. -/
theorem of_ext2fs_open_none {s s' : Ext2State} {n : ℕ} {filepath : List UInt8}
    (h : ext2fs_open img n filepath s = some (none, s')) :
    free_handle s = none ∧ s' = s ∨ (open_file img n filepath).value s.scratch = none := by
  rw [ext2fs_open, ← free_handle] at h
  cases hfree : free_handle s with
  | none =>
      rw [hfree] at h
      exact .inl ⟨rfl, (Prod.mk.inj (Option.some.inj h)).2.symm⟩
  | some i =>
      rw [hfree] at h
      dsimp only at h
      cases hrun : open_file img n filepath s.scratch with
      | mk found scratch =>
          rw [hrun] at h
          cases found with
          | none => exact .inr (by rw [ScratchM.value, hrun])
          | some file =>
              cases file with
              | none => cases h
              | some file => cases h

/-- A failed open leaves no trace exactly when no handle is free, or when it is not for the
path that it fails. -/
theorem traceless_iff {s : Ext2State} (hs : Valid img s.scratch) (filepath : List UInt8) :
    Traceless img filepath s ↔ free_handle s = none ∨ ¬Missing img filepath := by
  constructor
  · intro h
    by_contra hnot
    obtain ⟨hfree, hmissing⟩ := not_or.mp hnot
    obtain ⟨i, hi⟩ := Option.ne_none_iff_exists'.mp hfree
    obtain ⟨n, hn⟩ := (open_file_none_iff hs filepath).mpr (not_not.mp hmissing)
    obtain ⟨s', hopen, htaken⟩ := ext2fs_open_failed hi hn
    rw [h n s' hopen] at htaken
    exact free_handle_not_taken hi htaken
  · rintro h n s' hopen
    obtain ⟨-, rfl⟩ | hnone := of_ext2fs_open_none hopen
    · rfl
    · obtain hfree | hmissing := h
      · -- then the open does not get as far as the path
        rw [ext2fs_open, ← free_handle, hfree] at hopen
        rw [(Prod.mk.inj (Option.some.inj hopen)).2]
      · exact absurd ((open_file_none_iff hs filepath).mp ⟨n, hnone⟩) hmissing

theorem opens_of_leads {s : Ext2State} (hs : Valid img s.scratch) {filepath : List UInt8}
    (hfree : free_handle s ≠ none) (h : Leads img filepath) : Opens img filepath s := by
  obtain ⟨i, hi⟩ := Option.ne_none_iff_exists'.mp hfree
  obtain ⟨n, inode, hn⟩ := open_file_leads hs h
  refine ⟨n, fun m hm => ?_⟩
  obtain ⟨scratch, hrun⟩ := ScratchM.of_value (hn m hm)
  refine ⟨i, ⟨Function.update s.file_info i (file_of_inode inode), scratch⟩, ?_⟩
  rw [ext2fs_open, ← free_handle, hi]
  dsimp only
  rw [hrun]

/-! ## Runs -/

/-- The open leaves no trace. A close always has its effect. -/
def TracelessOp (img : Image) (s : Ext2State) : FileOp → Prop
  | .open _ filepath => Traceless img filepath s
  | .close _ => True

/-- No handle is free, or the path does not lead nowhere. -/
def NotMissing (img : Image) (s : Ext2State) : FileOp → Prop
  | .open _ filepath => free_handle s = none ∨ ¬Missing img filepath
  | .close _ => True

/-- Every failed open of the run leaves no trace, and if all of its operations are failed
opens, then a file that is there is opened after it if a handle was free before it. -/
def Untraced (img : Image) (s : Ext2State) (ops : List FileOp) : Prop :=
  EveryStep (fileStep img) (TracelessOp img) s ops ∧
    (EveryStep (fileStep img) (FailedOpen img) s ops → free_handle s ≠ none →
      ∀ filepath, Leads img filepath → Opens img filepath (ops.foldl (fileStep img) s))

theorem valid_fileStep {s : Ext2State} (hs : Valid img s.scratch) (op : FileOp) :
    Valid img (fileStep img s op).scratch := by
  cases op with
  | close h => exact hs
  | «open» n filepath =>
      have hkeep := (open_file_indep img n filepath).keeps hs
      rw [fileStep, step, ext2fs_open, ← free_handle]
      cases hfree : free_handle s with
      | none => exact hs
      | some i =>
          dsimp only
          cases hrun : open_file img n filepath s.scratch with
          | mk found scratch =>
              rw [hrun] at hkeep
              cases found with
              | none => exact hkeep
              | some file =>
                  cases file with
                  | none => exact hs
                  | some file => exact hkeep

/-- Failed opens that leave no trace leave the opened handles as they are. -/
theorem taken_after_failed {s : Ext2State} {ops : List FileOp}
    (h : EveryStep (fileStep img) (TracelessOp img) s ops)
    (hfail : EveryStep (fileStep img) (FailedOpen img) s ops) :
    taken (ops.foldl (fileStep img) s) = taken s := by
  induction ops generalizing s with
  | nil => rfl
  | cons op ops ih =>
      rw [List.foldl_cons, ih h.2 hfail.2]
      cases op with
      | close h => exact absurd hfail.1 id
      | «open» n filepath =>
          obtain ⟨s', hopen⟩ := hfail.1
          have hsame : taken s' = taken s := h.1 n s' hopen
          rw [← hsame, fileStep, step, hopen]

theorem valid_run {s : Ext2State} (hs : Valid img s.scratch) (ops : List FileOp) :
    Valid img (ops.foldl (fileStep img) s).scratch := by
  induction ops generalizing s with
  | nil => exact hs
  | cons op ops ih => exact ih (valid_fileStep hs op)

/-- From any table of files, the failed opens of a run leave no trace if and only if each
open of a path that leads nowhere comes when no handle is free. -/
theorem failed_opens_untraced_iff {s : Ext2State} (hs : Valid img s.scratch) (ops : List FileOp) :
    Untraced img s ops ↔ EveryStep (fileStep img) (NotMissing img) s ops := by
  have hiff : EveryStep (fileStep img) (TracelessOp img) s ops ↔
      EveryStep (fileStep img) (NotMissing img) s ops := by
    refine EveryStep.iff_of_invariant (I := fun s => Valid img s.scratch) hs
      (fun s op hs => ?_) (fun s op hs _ => valid_fileStep hs op) ops
    cases op with
    | «open» n filepath => exact traceless_iff hs filepath
    | close h => exact Iff.rfl
  constructor
  · rintro ⟨h, -⟩
    exact hiff.mp h
  · intro h
    have htraceless := hiff.mpr h
    refine ⟨htraceless, fun hfail hfree filepath hleads => ?_⟩
    refine opens_of_leads (valid_run hs ops) (fun hnone => hfree ?_) hleads
    rw [free_handle_none_iff] at hnone ⊢
    rw [← taken_after_failed htraceless hfail, hnone]

theorem failed_opens_untraced_one_file :
    Valid one_file (booted one_file).scratch ∧
      (Untraced one_file (booted one_file) [.open 1 one_file_path] ↔
        EveryStep (fileStep one_file) (NotMissing one_file) (booted one_file)
          [.open 1 one_file_path]) :=
  ⟨valid_mounted, failed_opens_untraced_iff valid_mounted _⟩

/-! Two opens of a file that is not there, and no file can be opened any more. -/

section Leak

/-- `"/g"` -/
def no_file_path : List UInt8 := [SLASH, 0x67]

def two_misses : List FileOp := [.open 1 no_file_path, .open 1 no_file_path]

/-- What `ext2fs_open` returns, with the handles that are opened then. -/
def openResult (n : ℕ) (filepath : List UInt8) (s : Ext2State) :
    Option (Option Handle × List Handle) :=
  (ext2fs_open one_file n filepath s).map fun r =>
    (r.1, (List.finRange MAX_FILES).filter fun h => (r.2.file_info h).opened)

theorem two_misses_results :
    openResult 1 one_file_path (booted one_file) = some (some first_handle, [first_handle]) ∧
      openResult 1 no_file_path (booted one_file) = some (none, [first_handle]) ∧
      openResult 1 one_file_path (two_misses.foldl (fileStep one_file) (booted one_file)) =
        some (none, List.finRange MAX_FILES) := by
  decide +kernel

/-- The first of the two opens already takes a handle. -/
theorem missing_file_traced :
    ¬Untraced one_file (booted one_file) two_misses := by
  rintro ⟨⟨htraceless, -⟩, -⟩
  obtain ⟨⟨r, s'⟩, hopen, hresult⟩ := Option.map_eq_some_iff.mp two_misses_results.2.1
  obtain ⟨rfl, htaken⟩ := Prod.mk.inj hresult
  have hsame : taken s' = taken (booted one_file) := htraceless 1 s' hopen
  have hmem : first_handle ∈ (List.finRange MAX_FILES).filter fun h => (s'.file_info h).opened := by
    rw [htaken]
    exact List.mem_singleton_self _
  have hfirst : first_handle ∈ taken s' := (List.mem_filter.mp hmem).2
  rw [hsame] at hfirst
  exact Bool.false_ne_true hfirst

end Leak

end CsBoot.Ide.Ext2
