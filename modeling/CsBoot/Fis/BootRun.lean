/-
A session of the console, and a boot: `src/src/sys/sys_fis.c` with the upgrade of
`src/src/ui/ui_upgrade.c`.

The commands keep the directory a table of names, so that a boot behind any run of them loads
what their lookup finds (`boot_loads_found`). The last step of such a run may be a create; then
what the boot puts into memory is the file that was sent for it (`created_image_loaded`), on
any flash on which a try that succeeds has written what it was given.
-/
import CsBoot.Fis.BootSpec
import CsBoot.Ui.Gets

set_option autoImplicit false

namespace CsBoot.Fis

open ByteMem Nand RangeStore SkipBlocks Ui.Build

/-! ## Runs of the console, and a boot -/

section Runs

variable {σ : Type} {b : FisBuild} {dev : ChipDev σ} {st : ProgramState σ}

/-- The directory holds a table in every state of a run. -/
theorem holds_after {cs : List FisCommand} (h₀ : ∃ t used, Holds st.fis t used)
    (h : EveryStep (fis_step b dev) (Clear b dev) st cs) :
    ∃ t used, Holds (cs.foldl (fis_step b dev) st).fis t used := by
  induction cs generalizing st with
  | nil => exact h₀
  | cons c cs ih =>
      obtain ⟨t, used, hs⟩ := h₀
      exact ih (hs.step h.1).1 h.2

/-- The same bytes hold the same table. -/
theorem Holds.congr {fis fis' : ByteMem} {t : ℕ → Option (List UInt8)} {used : ℕ}
    (h : Holds fis t used) (hsame : ∀ i, i < FIS_TOTAL_SIZE → fis' i = fis i) :
    Holds fis' t used :=
  h.of_kept fun _ hj => .inl (sameEntry_of_total hsame hj)

end Runs

section Default

variable {b : FisBuild} {ipaddr netmask gateway j : ℕ} {fis : ByteMem} {f : Image} {img : ℕ}

/-- The words of an entry that a boot goes by, whatever the length of the name. -/
theorem fis_create_entry_words (himg : img + FIS_ENTRY_SIZE ≤ W) :
    mem_base (fis_create_entry fis img f) img = f.mem_base % W ∧
      size (fis_create_entry fis img f) img = f.size % W ∧
      entry_point (fis_create_entry fis img f) img = f.entry_point % W := by
  have hsize : img + 256 ≤ W := himg
  -- the words are in front of the data and of the checksum
  have hword : ∀ {m : ByteMem} {o v : ℕ}, o + 4 ≤ 36 →
      load32 (store32 (store_bytes m (img + 36) f.data) (img + 248) v) (img + o) =
        load32 m (img + o) := fun ho => by
    rw [load32_store32_of_disjoint (by omega) (by omega) (by omega)]
    exact load32_congr (by omega) fun i hi => store_bytes_frame (by omega)
  refine ⟨?_, ?_, ?_⟩
  · unfold mem_base fis_create_entry
    rw [hword (by omega), load32_store32_of_disjoint (by omega) (by omega) (by omega),
      load32_store32_of_disjoint (by omega) (by omega) (by omega),
      load32_store32_of_disjoint (by omega) (by omega) (by omega), load32_store32_same (by omega)]
  · unfold size fis_create_entry
    rw [hword (by omega), load32_store32_of_disjoint (by omega) (by omega) (by omega),
      load32_store32_of_disjoint (by omega) (by omega) (by omega), load32_store32_same (by omega)]
  · unfold entry_point fis_create_entry
    rw [hword (by omega), load32_store32_of_disjoint (by omega) (by omega) (by omega),
      load32_store32_same (by omega)]

/-- What is loaded from the default directory is an image that has a place in memory. -/
theorem loadable_default (hj : j < FIS_MAX_ENTRY)
    (hload : loadable (build_default b ipaddr netmask gateway fis) (entry j)) :
    ∃ f, (build_images b ipaddr netmask gateway)[j]? = some f ∧ f.mem_base % W ≠ 0 ∧
      flash_base (build_default b ipaddr netmask gateway fis) (entry j) = f.flash_base % W ∧
      mem_base (build_default b ipaddr netmask gateway fis) (entry j) = f.mem_base % W ∧
      size (build_default b ipaddr netmask gateway fis) (entry j) = f.size % W := by
  have hlen : (build_images b ipaddr netmask gateway).length ≤ FIS_MAX_ENTRY := length_build_images
  obtain ⟨hstay, hmade⟩ := @fis_create_entries_spec
    (store_bytes fis 0 (List.replicate (FIS_MAX_ENTRY * FIS_ENTRY_SIZE) 0xff)) 0 _
    (fun f hf => (build_images_fit f hf).1) ((Nat.zero_add _).trans_le hlen)
  rw [← build_default] at hstay hmade
  have himg := entry_lt hj
  by_cases hused : j < (build_images b ipaddr netmask gateway).length
  · have hsame := hmade j hused
    rw [Nat.zero_add] at hsame
    have hbase : flash_base (build_default b ipaddr netmask gateway fis) (entry j) = _ :=
      (hsame.load32_eq himg (by decide)).trans (fis_create_entry_base himg)
    obtain ⟨hmem, hsize, -⟩ := @fis_create_entry_words
      (store_bytes fis 0 (List.replicate (FIS_MAX_ENTRY * FIS_ENTRY_SIZE) 0xff)) _ _ himg
    have hmem' : mem_base (build_default b ipaddr netmask gateway fis) (entry j) = _ :=
      (hsame.load32_eq himg (by decide)).trans hmem
    refine ⟨_, List.getElem?_eq_getElem hused, ?_, hbase, hmem', ?_⟩
    · rw [← hmem']
      exact hload.1.2.2.2.2
    · exact (hsame.load32_eq himg (by decide)).trans hsize
  · -- the rest is erased
    have hfirst := hstay j hj (.inr (by omega)) 0 (by decide)
    have hlt : entry j + 0 < FIS_MAX_ENTRY * FIS_ENTRY_SIZE := entry_add_lt hj (by decide)
    refine absurd ?_ hload.1.1
    rw [store_bytes, List.length_replicate, if_pos ⟨Nat.zero_le _, by omega⟩] at hfirst
    exact hfirst.trans (List.getD_replicate _ (by omega))

end Default

/-! ## From the file that is sent to the memory -/

/-- A flash on which a try that succeeds has written what it was given, and on which writing the
directory changes nothing else. `view` is what is read from it. -/
structure Written {σ : Type} (b : UpgradeBuild) (dev : ChipDev σ) (view : σ → ByteMem) : Prop where
  programmed : ∀ s addr data e n, (dev.flash_erase s addr e).2 = 0 →
    (dev.flash_program (dev.flash_erase s addr e).1 addr data n).2 = 0 → n ≤ e →
      ∀ i : ℕ, (i : ℤ) < n →
        view (dev.flash_program (dev.flash_erase s addr e).1 addr data n).1 (addr + i) = data i
  fis_erased : ∀ s x, x < b.BOARD_FLASH_FIS_ADDR ∨
    b.BOARD_FLASH_FIS_ADDR + b.BOARD_FLASH_FIS_SIZE ≤ x →
      view (dev.flash_erase s b.BOARD_FLASH_FIS_ADDR b.BOARD_FLASH_FIS_SIZE).1 x = view s x
  fis_programmed : ∀ s data x, x < b.BOARD_FLASH_FIS_ADDR ∨
    b.BOARD_FLASH_FIS_ADDR + b.BOARD_FLASH_FIS_SIZE ≤ x →
      view (dev.flash_program s b.BOARD_FLASH_FIS_ADDR data b.BOARD_FLASH_FIS_SIZE).1 x = view s x

section Created

variable {σ : Type} {b : UpgradeBuild} {dev : ChipDev σ} {view : σ → ByteMem} {destp x : ℕ}
  {e n max_size : ℤ} {filep : ByteMem} {st : ProgramState σ} {u : Ui.Upload} {c : Ui.Console}

theorem Written.fis_write_flash (h : Written b dev view) (hnor : b.BOARD_NAND_BOOT = false) (s : σ)
    (fis : ByteMem) (hx : x < b.BOARD_FLASH_FIS_ADDR ∨
      b.BOARD_FLASH_FIS_ADDR + b.BOARD_FLASH_FIS_SIZE ≤ x) :
    view (fis_write_flash b dev s fis) x = view s x := by
  unfold Ui.Build.fis_write_flash
  rw [if_neg (by rw [hnor]; exact Bool.false_ne_true)]
  dsimp only
  split_ifs
  · exact h.fis_erased s x hx
  · rw [h.fis_programmed _ _ _ hx, h.fis_erased s x hx]

/-- The tries end with one that succeeds, if the last status is zero. -/
theorem Written.retry (h : Written b dev view) (hnor : b.BOARD_NAND_BOOT = false) (hle : n ≤ e)
    (k : ℕ) {r : σ × ℤ} (hr : r.2 ≠ 0)
    (hend : (upgrade_retry b dev destp e filep n max_size k r).2 = 0) {i : ℕ} (hi : (i : ℤ) < n) :
    view (upgrade_retry b dev destp e filep n max_size k r).1 (destp + i) = filep i := by
  have hnand : ¬ b.BOARD_NAND_BOOT = true := by
    rw [hnor]
    exact Bool.false_ne_true
  induction k generalizing r with
  | zero => exact absurd hend hr
  | succ k ih =>
      rw [upgrade_retry, if_neg hr, if_neg fun hl => hnand hl.1] at hend ⊢
      by_cases hstat : (upgrade_try b dev destp e filep n max_size r.1).2 = 0
      · -- the rest of the loop does nothing
        have hstop : ∀ k (r : σ × ℤ), r.2 = 0 →
            upgrade_retry b dev destp e filep n max_size k r = r := by
          intro k r hr
          cases k with
          | zero => rfl
          | succ k => rw [upgrade_retry, if_pos hr]
        rw [hstop k _ hstat]
        unfold upgrade_try at hstat ⊢
        rw [if_neg hnand] at hstat ⊢
        dsimp only at hstat ⊢
        by_cases herase : (dev.flash_erase r.1 destp e).2 = 0
        · rw [if_neg (not_not.mpr herase)] at hstat ⊢
          exact h.programmed _ _ _ _ _ herase hstat hle i hi
        · rw [if_pos herase] at hstat
          exact absurd hstat herase
      · exact ih hstat hend

/-- A call that returns a size was not refused. -/
theorem accepts_of_size_pos (h : total_size (ui_download b dev st destp e max_size u c).2 > 0) :
    Ui.ConsoleAccepts destp max_size u c := by
  unfold ui_download at h
  generalize hrc : (if destp = BOARD_FLASH_BOOT_ADDR then Ui.verify_image_file u.filep else 2) = rc
    at h
  obtain ⟨-, hneg, h₁⟩ := Ui.rc_eq destp u hrc.symm
  dsimp only at h
  by_cases hsize : max_size ≠ 0 ∧ u.got_size > max_size
  · rw [if_pos hsize] at h
    exact absurd h (lt_irrefl 0)
  rw [if_neg hsize] at h
  by_cases hheader : rc < 0
  · rw [if_pos hheader] at h
    exact absurd h (lt_irrefl 0)
  rw [if_neg hheader] at h
  by_cases hconfirm : rc = 1 ∧ (!c.confirm) = true
  · rw [if_pos hconfirm] at h
    exact absurd h (lt_irrefl 0)
  rw [if_neg hconfirm] at h
  by_cases hbrk : c.brk = true
  · rw [if_pos hbrk] at h
    exact absurd h (lt_irrefl 0)
  refine ⟨fun hne => not_lt.mp fun hlt => hsize ⟨hne, hlt⟩, fun hboot => ?_, fun hboot hone => ?_,
    Bool.eq_false_iff.mpr hbrk⟩
  · exact not_not.mp fun hno => hheader (hneg.mpr fun hall => hno (hall hboot))
  · by_contra hno
    exact hconfirm ⟨h₁.mpr ⟨hboot, hone⟩, by rw [Bool.eq_false_iff.mpr hno]; rfl⟩

/-- **An upgrade that returns a size** has written as many bytes of the file. -/
theorem Written.download (h : Written b dev view) (hnor : b.BOARD_NAND_BOOT = false)
    (hpos : total_size (ui_download b dev st destp 0 max_size u c).2 > 0)
    (hx : ∀ i : ℕ, (i : ℤ) < Ui.image_size destp u → destp + i < b.BOARD_FLASH_FIS_ADDR ∨
      b.BOARD_FLASH_FIS_ADDR + b.BOARD_FLASH_FIS_SIZE ≤ destp + i) {i : ℕ}
    (hi : (i : ℤ) < Ui.image_size destp u) :
    view (ui_download b dev st destp 0 max_size u c).1.flash (destp + i) =
      Ui.image_bytes destp u i := by
  have haccepts := accepts_of_size_pos hpos
  rw [ui_download_of_accepts haccepts] at hpos ⊢
  dsimp only at hpos ⊢
  have herased : erased 0 (Ui.image_size destp u) = Ui.image_size destp u := if_pos rfl
  rw [herased] at hpos ⊢
  generalize hr : upgrade_retry b dev destp (Ui.image_size destp u) (Ui.image_bytes destp u)
    (Ui.image_size destp u) max_size Ui.UPGRADE_RETRY_TIME (st.flash, 1) = r at hpos ⊢
  have hstat : r.2 = 0 := by
    by_contra hne
    rw [if_pos hne] at hpos
    exact absurd hpos (lt_irrefl 0)
  have hbytes : view r.1 (destp + i) = Ui.image_bytes destp u i := by
    subst hr
    exact h.retry hnor le_rfl _ one_ne_zero hstat hi
  -- the directory is written behind it
  by_cases hrec : UiRecords b destp (Ui.image_size destp u)
  · rw [if_pos hrec]
    exact (h.fis_write_flash hnor _ _ (hx i hi)).trans hbytes
  · rw [if_neg hrec]
    exact hbytes

end Created

/-- A place that is accepted is an address. -/
theorem numbers_place {b : FisBuild} {a : Answers} {n : Numbers} (h : ask_numbers b a = some n) :
    n.flash_addr % W = n.flash_addr := by
  have hlt := (ask_numbers_place h).2
  exact Nat.mod_eq_of_lt (by unfold W; omega)

/-- The boot loader and the directory cannot be deleted. -/
theorem delete_refused {σ : Type} {b : FisBuild} {dev : ChipDev σ} {st : ProgramState σ}
    {name : FisName}
    (h : is_name name BOARD_FIS_BOOT_NAME ∨ is_name name BOARD_FIS_DIRECTORY_NAME) :
    fis_step b dev st (.delete (some name)) = st := by
  unfold fis_step fis_ui_delete_image
  dsimp only
  cases fis_find_image st.fis name.chars with
  | none => rfl
  | some img =>
      dsimp only
      rw [if_pos h]

section Runs

variable {σ : Type} {B : LoadBoard} {dev : ChipDev σ} {view : σ → ByteMem} {st : ProgramState σ}
  {a : Answers} {name : FisName} {n : Numbers}

/-- A create that is not for the directory writes an entry behind the upgrade. -/
theorem create_step (hcreates : Creates B.toFisBuild dev st a name n)
    (hfis : ¬ is_name name BOARD_FIS_DIRECTORY_NAME) :
    ∃ img, ((fis_find_image st.fis name.chars).orElse fun _ => fis_get_free_image st.fis) =
        some img ∧
      fis_step B.toFisBuild dev st (.create a) = write_image B.toFisBuild dev img name n n.max_size
        (ui_download B.toUpgradeBuild dev st n.flash_addr 0 0 a.upload a.console).1 := by
  obtain ⟨name', n', img, hcreates', hslot, hend⟩ | ⟨hno, -⟩ :=
    @create_cases σ B.toFisBuild dev a st
  · cases hcreates.name_eq.symm.trans hcreates'.name_eq
    cases hcreates.numbers.symm.trans hcreates'.numbers
    obtain ⟨hload, -⟩ | ⟨-, heq⟩ := hend
    · exact absurd hload.1 hfis
    · exact ⟨img, hslot, by rw [fis_step, heq]⟩
  · exact absurd hcreates (hno name n)

/-- The directory goes to the flash as the last thing, -/
theorem create_flash (hcreates : Creates B.toFisBuild dev st a name n)
    (hfis : ¬ is_name name BOARD_FIS_DIRECTORY_NAME) :
    ∃ fis, (fis_step B.toFisBuild dev st (.create a)).flash =
      fis_write_flash B.toUpgradeBuild dev
        (ui_download B.toUpgradeBuild dev st n.flash_addr 0 0 a.upload a.console).1.flash fis := by
  obtain ⟨img, -, hstep⟩ := create_step hcreates hfis
  rw [hstep]
  exact ⟨_, rfl⟩

/-- the entry is the one with the name, and those with other places are as they were, -/
theorem create_entry {t : ℕ → Option (List UInt8)} {used i : ℕ} (h : Holds st.fis t used)
    (hcreates : Creates B.toFisBuild dev st a name n)
    (hfis : ¬ is_name name BOARD_FIS_DIRECTORY_NAME) (hi : i < FIS_MAX_ENTRY)
    (hfound : fis_find_image st.fis name.chars = some (entry i)) :
    ∃ fis, (fis_step B.toFisBuild dev st (.create a)).fis =
        fis_create_entry fis (entry i) (typed_image name n n.max_size) ∧
      ∀ j, j < FIS_MAX_ENTRY → j ≠ i → flash_base st.fis (entry j) ≠ n.flash_addr →
        SameEntry (entry j) (fis_step B.toFisBuild dev st (.create a)).fis st.fis := by
  obtain ⟨img, hslot, hstep⟩ := create_step hcreates hfis
  rw [hfound] at hslot
  cases hslot
  obtain ⟨hpos, hlt⟩ := ask_numbers_place hcreates.numbers
  have hdown := (@Holds.download σ B.toFisBuild dev st t used n.flash_addr h hpos hlt 0 0
    a.upload a.console).2
  rw [hstep]
  refine ⟨_, rfl, fun j hj hne hplace => SameEntry.trans ?_ (hdown j hj hplace)⟩
  have hdata : (typed_image name n n.max_size).data.length ≤ 212 := Nat.zero_le 212
  refine sameEntry_of_frame (fun x hx => ?_) hne
  exact fis_create_entry_frame_le name.length_le hdata (entry_lt hi) hx

/-- and is one of the commands that keep the directory a table. -/
theorem create_clear (hcreates : Creates B.toFisBuild dev st a name n)
    (hfis : ¬ is_name name BOARD_FIS_DIRECTORY_NAME) (hends : Ends name n) :
    Clear B.toFisBuild dev st (.create a) := by
  intro name' n' hcreates'
  cases hcreates.name_eq.symm.trans hcreates'.name_eq
  cases hcreates.numbers.symm.trans hcreates'.numbers
  exact ⟨fun hload => hfis hload.1, hends⟩

/-- What is read behind a create is the file that was sent for it. -/
theorem Written.create (hw : Written B.toUpgradeBuild dev view) (hnor : B.BOARD_NAND_BOOT = false)
    (hcreates : Creates B.toFisBuild dev st a name n)
    (hfis : ¬ is_name name BOARD_FIS_DIRECTORY_NAME)
    (hoff : ∀ i : ℕ, (i : ℤ) < Ui.image_size n.flash_addr a.upload →
      n.flash_addr + i < B.BOARD_FLASH_FIS_ADDR ∨
        B.BOARD_FLASH_FIS_ADDR + B.BOARD_FLASH_FIS_SIZE ≤ n.flash_addr + i) {i : ℕ}
    (hi : (i : ℤ) < Ui.image_size n.flash_addr a.upload) :
    view (fis_step B.toFisBuild dev st (.create a)).flash (n.flash_addr + i) =
      Ui.image_bytes n.flash_addr a.upload i := by
  obtain ⟨fis, hflash⟩ := create_flash hcreates hfis
  rw [hflash, hw.fis_write_flash hnor _ _ (hoff i hi)]
  exact hw.download hnor hcreates.size_pos hoff hi

/-- The words of an entry that has just been written. -/
theorem SameEntry.words {fis fis' : ByteMem} {img data_length : ℕ}
    (h : SameEntry img fis' (fis_create_entry fis img (typed_image name n data_length)))
    (himg : img + FIS_ENTRY_SIZE ≤ W) :
    flash_base fis' img = n.flash_addr % W ∧ mem_base fis' img = n.ram_addr % W ∧
      size fis' img = n.max_size % W ∧ entry_point fis' img = n.entry_point % W := by
  obtain ⟨hmem, hsize, hentry⟩ :=
    @fis_create_entry_words fis (typed_image name n data_length) img himg
  refine ⟨?_, ?_, ?_, ?_⟩
  · exact (h.load32_eq himg (by decide)).trans (fis_create_entry_base himg)
  · exact (h.load32_eq himg (by decide)).trans hmem
  · exact (h.load32_eq himg (by decide)).trans hsize
  · exact (h.load32_eq himg (by decide)).trans hentry

/-- An entry that is written with its words is loaded, in whatever memory the directory is. -/
theorem Recorded.found_loaded {fis fis' dir : ByteMem} {t : ℕ → Option (List UInt8)}
    {img used data_length : ℕ} (h : Recorded fis fis' img name (typed_image name n data_length))
    (hholds : Holds fis' t used) (hdir : ∀ i, i < FIS_TOTAL_SIZE → dir i = fis' i)
    (hflash : n.flash_addr % W ≠ 0) (hram : n.ram_addr % W ≠ 0) (hentry : n.entry_point % W ≠ 0)
    (hboot : ¬ is_name name BOARD_FIS_BOOT_NAME)
    (hfis : ¬ is_name name BOARD_FIS_DIRECTORY_NAME) :
    Found dir name.chars img ∧ flash_base dir img = n.flash_addr % W ∧
      mem_base dir img = n.ram_addr % W ∧ size dir img = n.max_size % W := by
  obtain ⟨j, hj, rfl⟩ := fis_find_image_entry h.found
  have hsame : SameEntry (entry j) dir fis' := sameEntry_of_total hdir hj
  obtain ⟨hflash', hram', hsize', hentry'⟩ := (hsame.trans h.written).words (entry_lt hj)
  have hfind : fis_find_image dir name.chars = some (entry j) := by
    have hholds' : Holds dir t used := hholds.congr hdir
    exact (hholds'.find name.ne_nil).mpr ((hholds.find name.ne_nil).mp h.found)
  refine ⟨⟨name.ne_nil, hfind, ?_, ?_, ?_, hboot, hfis⟩, hflash', hram', hsize'⟩
  · rwa [hflash']
  · rwa [hram']
  · rwa [hentry']

end Runs

/-- The answers with the name that these keys type into `name`, of which the first byte is zero. -/
def Answers.named (a : Answers) (buf : Ui.TextBuf) (hbuf : buf.strlen = 0) (keys : List UInt8) :
    Answers :=
  { a with name := Ui.typed_name buf hbuf keys }

/-- **What is sent is what is loaded.** When the last command of a run creates an image, on a
board with its flash in the memory, a boot puts the file that was sent for it to the address that
was typed, as far as the size that was typed goes. -/
theorem created_image_loaded {σ : Type} (B : LoadBoard) (dev : ChipDev σ) (view : σ → ByteMem)
    (st st' : ProgramState σ) (ipaddr netmask gateway : ℕ) (fis₀ : ByteMem) (cs : List FisCommand)
    (buf : Ui.TextBuf) (hbuf : buf.strlen = 0) (keys : List UInt8) (a : Answers) (name : FisName)
    (n : Numbers) (N : ℕ) (m : ByteMem)
    (hw : Written B.toUpgradeBuild dev view) (hnor : B.BOARD_NAND_BOOT = false)
    (htype : ¬ nand_type B)
    (hst : st.fis = build_default B.toFisBuild ipaddr netmask gateway fis₀)
    (hcs : EveryStep (fis_step B.toFisBuild dev) (Clear B.toFisBuild dev) st cs)
    (hst' : st' = cs.foldl (fis_step B.toFisBuild dev) st)
    (hcreates : Creates B.toFisBuild dev st' (a.named buf hbuf keys) name n)
    (hshort : name.chars.length < FIS_NAME_SIZE)
    (hboot : ¬ is_name name BOARD_FIS_BOOT_NAME) (hfis : ¬ is_name name BOARD_FIS_DIRECTORY_NAME)
    (hram : n.ram_addr % W ≠ 0) (hentry : n.entry_point % W ≠ 0)
    (hoff : ∀ i : ℕ, (i : ℤ) < Ui.image_size n.flash_addr a.upload →
      n.flash_addr + i < B.BOARD_FLASH_FIS_ADDR ∨
        B.BOARD_FLASH_FIS_ADDR + B.BOARD_FLASH_FIS_SIZE ≤ n.flash_addr + i)
    (hdir : ∀ i, i < FIS_TOTAL_SIZE →
      directory B m i =
        (fis_step B.toFisBuild dev st' (.create (a.named buf hbuf keys))).fis i)
    (hmapped : ∀ i : ℕ, (i : ℤ) < Ui.image_size n.flash_addr a.upload → m (n.flash_addr + i) =
      view (fis_step B.toFisBuild dev st' (.create (a.named buf hbuf keys))).flash
        (n.flash_addr + i))
    (hb : Bootable B N m) :
    ∃ r, (∀ r', FisLoadImages B m r' ↔ r' = r) ∧
      ∀ i : ℕ, (i : ℤ) < Ui.image_size n.flash_addr a.upload →
        i < 4 * (((n.max_size % W + 3) % W &&& 0xfffffffc) / 4) →
          r.mem (n.ram_addr % W + i) = Ui.image_bytes n.flash_addr a.upload i := by
  have h₀ := @holds_default B.toFisBuild ipaddr netmask gateway fis₀
  rw [← hst] at h₀
  obtain ⟨t, used, h⟩ := holds_after ⟨_, _, h₀⟩ hcs
  rw [← hst'] at h
  have hends : Ends name n := fun hlen => absurd hlen hshort.ne
  -- the create keeps the table, and has written the entry
  obtain ⟨⟨t', used', h'⟩, hcreated⟩ := h.create (create_clear hcreates hfis hends)
  obtain ⟨img, hrec⟩ := hcreated name n hcreates
  have hplace := numbers_place hcreates.numbers
  have hne : n.flash_addr % W ≠ 0 := by
    rw [hplace]
    exact (ask_numbers_place hcreates.numbers).1.ne'
  obtain ⟨hfound, hflash, hmem, hsize⟩ := hrec.found_loaded h' hdir hne hram hentry hboot hfis
  have hloads := hb.loadsFound (h'.congr hdir)
  refine ⟨_, fun r' => hb.fisLoadImages_iff, fun i hi hlt => ?_⟩
  have hlen : image_length B (directory B m) img =
      4 * (((n.max_size % W + 3) % W &&& 0xfffffffc) / 4) := by
    rw [image_length, if_neg htype, image_words, hsize]
  have hbyte := hloads.placed name.chars img hfound i (hlen ▸ hlt)
  rw [hmem, hflash, hplace, image_byte, if_neg fun hnand => htype hnand.1, hmapped i hi] at hbyte
  exact hbyte.trans (hw.create hnor hcreates hfis hoff hi)

/-! ## On a board with 16 MiB -/

section Board16

/-- The board, with the flash in its memory. -/
def load16 : LoadBoard where
  toFisBuild := fis_nor Nor.board16
  BOARD_SUPPORT_NAND_INDIRECT := false
  BOARD_DRAM_CPU2_ADDR := 0
  CPU2_BOOT_OFFSET := 0x1600000
  exception_handlers := 0
  exception_handlers_end := 0
  flash_type := 0
  nand_present := false
  flash_dev_info := zeros_g
  chip := zeros_dev
  StatusCheck := fun _ _ => .PASS
  fis_datap := 0x2000000

/-- The default directory in memory, and flash that is not erased. -/
def memory16 : ByteMem :=
  splice (fun x => if BOARD_FLASH_BASE_ADDR ≤ x then 0xe1 else 0) 0x2000000 FIS_TOTAL_SIZE
    default16.fis

def boot_name : FisName :=
  ⟨BOARD_FIS_BOOT_NAME, by decide, by decide, List.all_iff_forall_prop.mp rfl⟩

theorem directory16 {i : ℕ} (hi : i < FIS_TOTAL_SIZE) :
    directory load16 memory16 i = default16.fis i := by
  unfold directory memory16
  rw [show load16.fis_datap = 0x2000000 from rfl, splice_add hi]

/-- The places and sizes of the default directory. -/
def places16 : List (ℕ × ℕ × ℕ) :=
  (build_images (fis_nor Nor.board16) 0 0 0).map fun f => (f.flash_base, f.mem_base, f.size)

theorem places16_loaded {j : ℕ} {p : ℕ × ℕ × ℕ} (hp : places16[j]? = some p)
    (hne : p.2.1 % W ≠ 0) :
    j = 2 ∧ p = (0x30040000, 0x1C00000, 0x2C0000) ∨
      j = 4 ∧ p = (0x30320000, 0x800000, 0x600000) := by
  have hlist : places16 =
      [(0x30000000, 0, 0x40000), (0x30FE0000, 0, 0x20000), (0x30040000, 0x1C00000, 0x2C0000),
        (0x30F40000, 0, 0xA0000), (0x30320000, 0x800000, 0x600000), (0x30920000, 0, 0x600000),
        (0x30F20000, 0, 0x20000)] := rfl
  rw [hlist] at hp
  obtain ⟨hj, hp⟩ := List.getElem?_eq_some_iff.mp hp
  simp only [List.length_cons, List.length_nil] at hj
  interval_cases j
  all_goals subst hp
  · exact absurd rfl hne
  · exact absurd rfl hne
  · exact .inl ⟨rfl, rfl⟩
  · exact absurd rfl hne
  · exact .inr ⟨rfl, rfl⟩
  · exact absurd rfl hne
  · exact absurd rfl hne

theorem default16_fis :
    default16.fis = build_default (fis_nor Nor.board16) 0 0 0 erased16.fis := rfl

/-- Entry `j` is that of the kernel or of the RAM disk, with the places that the board has for
them. -/
def KernelOrDisk (m : ByteMem) (j : ℕ) : Prop :=
  (j = 2 ∧ flash_base (directory load16 m) (entry j) = 0x30040000 ∧
      (image_write load16 0 m j).pos = 0x1C00000 ∧ (image_write load16 0 m j).len = 0x2C0000) ∨
    (j = 4 ∧ flash_base (directory load16 m) (entry j) = 0x30320000 ∧
      (image_write load16 0 m j).pos = 0x800000 ∧ (image_write load16 0 m j).len = 0x600000)

/-- They have room in the memory. -/
theorem bootable_of_kernel_or_disk {m : ByteMem} (h : ∀ j, j < FIS_MAX_ENTRY →
    loadable (directory load16 m) (entry j) → KernelOrDisk m j) : Bootable load16 0 m where
  directory_le := by decide
  -- neither image is read from NAND flash
  readable := by
    intro j hj hload
    have hflash : ¬ from_nand load16 (flash_base (directory load16 m) (entry j)) :=
      fun hnand => absurd hnand.1 (by decide)
    have hin := h j hj hload
    unfold KernelOrDisk at hin
    dsimp only [image_write] at hin
    rw [Readable_image, if_neg hflash]
    obtain ⟨-, hsrce, hpos, hlen⟩ | ⟨-, hsrce, hpos, hlen⟩ := hin
    · rw [hsrce, hpos, hlen]
      exact ⟨by decide, .inr ⟨by decide, by decide⟩⟩
    · rw [hsrce, hpos, hlen]
      exact ⟨by decide, .inr ⟨by decide, by decide⟩⟩
  inside := by
    intro j hj hload
    obtain ⟨-, -, hpos, hlen⟩ | ⟨-, -, hpos, hlen⟩ := h j hj hload
    · rw [hpos, hlen]
      decide
    · rw [hpos, hlen]
      decide
  off_directory := by
    intro j hj hload
    obtain ⟨-, -, hpos, hlen⟩ | ⟨-, -, hpos, hlen⟩ := h j hj hload
    · rw [hpos, hlen]
      exact .inl (by decide)
    · rw [hpos, hlen]
      exact .inl (by decide)
  off_flash := by
    intro i j hi hj hload hload' _
    obtain ⟨-, -, hpos, hlen⟩ | ⟨-, -, hpos, hlen⟩ := h i hi hload
    all_goals
      obtain ⟨-, hflash, -, -⟩ | ⟨-, hflash, -, -⟩ := h j hj hload'
      all_goals
        rw [hpos, hlen, hflash]
        exact .inl (by decide)
  -- two entries are the two images, in either order
  apart := by
    intro i j hi hj hij hload hload'
    obtain ⟨rfl, -, hpos, hlen⟩ | ⟨rfl, -, hpos, hlen⟩ := h i hi hload
    all_goals
      obtain ⟨rfl, -, hpos', hlen'⟩ | ⟨rfl, -, hpos', hlen'⟩ := h j hj hload'
    · exact absurd rfl hij
    · rw [hpos, hlen, hpos', hlen']
      exact .inr (by decide)
    · rw [hpos, hlen, hpos', hlen']
      exact .inl (by decide)
    · exact absurd rfl hij
  vectors := fun hv => absurd hv.1 (by decide)

/-- An entry of the default directory that is loaded is one of them. -/
theorem kernel_or_disk_of_same {m : ByteMem} {j : ℕ} (hj : j < FIS_MAX_ENTRY)
    (hsame : SameEntry (entry j) (directory load16 m) default16.fis)
    (hload : loadable (directory load16 m) (entry j)) : KernelOrDisk m j := by
  have himg := entry_lt hj
  have hload := (hsame.loadable_iff himg).mp hload
  rw [default16_fis] at hsame hload
  obtain ⟨f, hf, hne, hflash, hmem, hsize⟩ := loadable_default hj hload
  have hpos : mem_base (directory load16 m) (entry j) = f.mem_base % W :=
    (hsame.load32_eq himg (by decide)).trans hmem
  have hplace : flash_base (directory load16 m) (entry j) = f.flash_base % W :=
    (hsame.load32_eq himg (by decide)).trans hflash
  have hsz : size (directory load16 m) (entry j) = f.size % W :=
    (hsame.load32_eq himg (by decide)).trans hsize
  have hget : places16[j]? = some (f.flash_base, f.mem_base, f.size) := by
    rw [places16, List.getElem?_map, hf, Option.map_some]
  have hlen : image_length load16 (directory load16 m) (entry j) =
      4 * (((f.size % W + 3) % W &&& 0xfffffffc) / 4) := by
    rw [image_length, if_neg (by decide), image_words, hsz]
  unfold KernelOrDisk
  dsimp only [image_write]
  rw [hplace, hpos, hlen]
  obtain ⟨rfl, hp⟩ | ⟨rfl, hp⟩ := places16_loaded hget hne
  · simp only [Prod.mk.injEq] at hp
    obtain ⟨h₁, h₂, h₃⟩ := hp
    rw [h₁, h₂, h₃]
    exact .inl ⟨rfl, by decide, by decide, by decide⟩
  · simp only [Prod.mk.injEq] at hp
    obtain ⟨h₁, h₂, h₃⟩ := hp
    rw [h₁, h₂, h₃]
    exact .inr ⟨rfl, by decide, by decide, by decide⟩

/-- The kernel and the RAM disk are loaded. -/
theorem loadable16 {j : ℕ} (hj : j < FIS_MAX_ENTRY)
    (hload : loadable (directory load16 memory16) (entry j)) : KernelOrDisk memory16 j := by
  have hsame := sameEntry_of_total (fun _ => directory16) hj
  exact kernel_or_disk_of_same hj hsame hload

def kernel_name : FisName :=
  ⟨Nor.BOARD_FIS_KERNEL_NAME, by decide, by decide, List.all_iff_forall_prop.mp rfl⟩

def kernel_answers : Answers :=
  { answers16 kernel_name 0x30040000 with
    ram_addr := some 0x1C00000
    entry_point := some 0x1C00000
    max_size := some 0x2C0000 }

def kernel_numbers : Numbers := ⟨0x30040000, 0x1C00000, 0x1C00000, 0x2C0000⟩

theorem kernel_asked : ask_numbers (fis_nor Nor.board16) kernel_answers = some kernel_numbers := rfl

theorem kernel_found : fis_find_image default16.fis kernel_name.chars = some (entry 2) := by
  have h₀ := @holds_default (fis_nor Nor.board16) 0 0 0 erased16.fis
  rw [← default16_fis] at h₀
  exact (h₀.find kernel_name.ne_nil).mpr ⟨2, rfl, rfl⟩

theorem kernel_creates :
    Creates load16.toFisBuild ideal_chip default16 kernel_answers kernel_name kernel_numbers := by
  refine ⟨rfl, kernel_asked, ?_, ?_⟩
  · rw [kernel_found]
    rfl
  · have hdown := (@download16 kernel_name 0x30040000 (by decide)).1
    change total_size (ui_download (nor Nor.board16) ideal_chip default16 0x30040000 0 0
      (answers16 kernel_name 0x30040000).upload (answers16 kernel_name 0x30040000).console).2 > 0
    rw [hdown]
    decide

/-- The session behind the create. -/
def created16 : ProgramState ByteMem :=
  fis_step (fis_nor Nor.board16) ideal_chip default16 (.create kernel_answers)

theorem kernel_place {j : ℕ} (hj : j < FIS_MAX_ENTRY) (hne : j ≠ 2) :
    flash_base default16.fis (entry j) ≠ 0x30040000 := by
  have hplaces : ∀ j, j < FIS_MAX_ENTRY → j ≠ 2 →
      (default_place Nor.board16 j).1 ≠ 0x30040000 := by
    decide +kernel
  have hdefault := (@fis_create_default_spec Nor.board16 0 0 0 erased16.fis j hj).1
  rw [← build_default_nor, ← default16_fis] at hdefault
  rw [hdefault]
  exact hplaces j hj hne

/-- The entry of the kernel is written, and the others stay. -/
theorem created16_fis : ∃ fis, created16.fis = fis_create_entry fis (entry 2)
      (typed_image kernel_name kernel_numbers 0x2C0000) ∧
    ∀ j, j < FIS_MAX_ENTRY → j ≠ 2 → SameEntry (entry j) created16.fis default16.fis := by
  have h₀ := @holds_default (fis_nor Nor.board16) 0 0 0 erased16.fis
  rw [← default16_fis] at h₀
  have hfis : ¬ is_name kernel_name BOARD_FIS_DIRECTORY_NAME := by decide
  obtain ⟨fis, hkernel, hothers⟩ :=
    create_entry h₀ kernel_creates hfis (by decide) kernel_found
  have hbuild : fis_nor Nor.board16 = load16.toFisBuild := rfl
  rw [created16, hbuild]
  exact ⟨fis, hkernel, fun j hj hne => hothers j hj hne (kernel_place hj hne)⟩

/-- The flash behind the create, with the directory in memory. -/
def memory_created16 : ByteMem := splice created16.flash 0x2000000 FIS_TOTAL_SIZE created16.fis

theorem directory_created16 {i : ℕ} (hi : i < FIS_TOTAL_SIZE) :
    directory load16 memory_created16 i = created16.fis i := by
  unfold directory memory_created16
  rw [show load16.fis_datap = 0x2000000 from rfl, splice_add hi]

theorem loadable_created16 {j : ℕ} (hj : j < FIS_MAX_ENTRY)
    (hload : loadable (directory load16 memory_created16) (entry j)) :
    KernelOrDisk memory_created16 j := by
  have hsame := sameEntry_of_total (fun _ => directory_created16) hj
  obtain ⟨fis, hkernel, hothers⟩ := created16_fis
  by_cases hj2 : j = 2
  · subst hj2
    rw [hkernel] at hsame
    obtain ⟨hflash, hmem, hsize, -⟩ := hsame.words (entry_lt hj)
    have hlen : image_length load16 (directory load16 memory_created16) (entry 2) =
        4 * (((kernel_numbers.max_size % W + 3) % W &&& 0xfffffffc) / 4) := by
      rw [image_length, if_neg (by decide), image_words, hsize]
    unfold KernelOrDisk
    dsimp only [image_write]
    rw [hflash, hmem, hlen]
    exact .inl ⟨rfl, by decide, by decide, by decide⟩
  · exact kernel_or_disk_of_same hj (hsame.trans (hothers j hj hj2)) hload

/-- The ideal flash writes what it is given. -/
theorem ideal_written : Written load16.toUpgradeBuild ideal_chip fun flash => flash where
  programmed := by
    intro s addr data e n _ _ _ i hi
    exact if_pos ⟨by omega, by omega⟩ |>.trans (by rw [Nat.add_sub_cancel_left])
  fis_erased := by
    intro s x hx
    exact if_neg (by omega)
  fis_programmed := by
    intro s data x hx
    exact if_neg (by omega)

/-- The name of the kernel and return. -/
def kernel_keys : List UInt8 := kernel_name.chars ++ [0x0d]

theorem kernel_named : kernel_answers.named Ui.empty_buf rfl kernel_keys = kernel_answers := by
  have hname := Ui.typed_name_type Ui.empty_buf rfl kernel_name
  exact congrArg (fun name => { kernel_answers with name := name }) hname

/-- The kernel that was sent is loaded. -/
theorem created_image_loaded_kernel :
    ∃ r, (∀ r', FisLoadImages load16 memory_created16 r' ↔ r' = r) ∧
      ∀ i : ℕ, (i : ℤ) < Ui.image_size 0x30040000 kernel_answers.upload →
        i < 4 * (((0x2C0000 % W + 3) % W &&& 0xfffffffc) / 4) →
          r.mem (0x1C00000 % W + i) = Ui.image_bytes 0x30040000 kernel_answers.upload i := by
  have hsize : Ui.image_size 0x30040000 kernel_answers.upload = 100 := if_neg (by decide)
  have hstep : fis_step load16.toFisBuild ideal_chip default16
      (.create (kernel_answers.named Ui.empty_buf rfl kernel_keys)) = created16 := by
    rw [kernel_named]
    rfl
  refine created_image_loaded load16 ideal_chip (fun flash => flash) default16 default16 0 0 0
    erased16.fis [] Ui.empty_buf rfl kernel_keys kernel_answers kernel_name kernel_numbers 0
    memory_created16 ideal_written rfl (by decide) default16_fis trivial rfl ?_
    (by decide) (by decide) (by decide) (by decide) (by decide) ?_ ?_ ?_
    (bootable_of_kernel_or_disk fun _ => loadable_created16)
  · rw [kernel_named]
    exact kernel_creates
  · intro i hi
    change (i : ℤ) < Ui.image_size 0x30040000 kernel_answers.upload at hi
    change 0x30040000 + i < 0x30FE0000 ∨ _
    omega
  · intro i hi
    rw [hstep]
    exact directory_created16 hi
  · intro i hi
    have hplace : kernel_numbers.flash_addr = 0x30040000 := rfl
    have htotal : FIS_TOTAL_SIZE = 6144 := rfl
    rw [hstep]
    dsimp only [memory_created16]
    exact splice_outside (.inr (by omega))

end Board16

end CsBoot.Fis
