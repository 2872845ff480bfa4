/-
Upgrades that fail, `src/src/ui/ui_upgrade.c` and `src/src/sys/sys_fis.c`, in every
build.

`Upgrade.lean` has the upgrade in the builds without NAND flash. Here what depends on
`BOARD_NAND_BOOT` and `LOAD_FROM_IDE` is written out, and the MAC is part of the state:
`ui_disable_mac` before anything is programmed, and `ui_enable_mac` on most of the ways
out. In a build without NAND flash the two functions do to flash and directory what
they do there (`ui_download_nor`, `web_program_nor`).

How the flash fails is left open: a pattern of failures is a device with operations of
any outcome, each of which leaves the directory alone unless it comes to the blocks that
the directory is in. Both functions write the directory after the last try, whether or
not it succeeded, and `web_program` has ways out on which the MAC stays off.
-/
import CsBoot.Ui.Agree

set_option autoImplicit false

namespace CsBoot.Ui.Build

open ByteMem Fis

/-- What the preprocessor knows. -/
structure UpgradeBuild where
  BOARD_NAND_BOOT : Bool
  LOAD_FROM_IDE : Bool
  BOARD_FLASH_SIZE : ℕ
  BOARD_FLASH_FIS_ADDR : ℕ
  BOARD_FLASH_FIS_SIZE : ℕ
  fis_size_pos : 0 < BOARD_FLASH_FIS_SIZE

def FIS_TOTAL_SIZE : ℕ := FIS_MAX_ENTRY * FIS_ENTRY_SIZE

/-! ## The flash -/

/-- A flash, with the operation of the NAND builds (an address, the data, its length and
the bound), and the directory that it holds. -/
structure ChipDev (σ : Type) extends FlashDev σ where
  flash_nand_program : σ → ℕ → ByteMem → ℤ → ℤ → σ × ℤ
  directory : σ → ByteMem

/-- Which operations, by address and length, come to the blocks of the directory. One
at its own address does. -/
structure FisArea (b : UpgradeBuild) where
  reach : ℕ → ℤ → Bool
  fis : ∀ len, 0 < len → reach b.BOARD_FLASH_FIS_ADDR len = true

/-- The operations that do not come to the directory leave it alone. -/
structure Within {σ : Type} {b : UpgradeBuild} (dev : ChipDev σ) (area : FisArea b) : Prop where
  erase : ∀ s addr len, area.reach addr len = false →
    dev.directory (dev.flash_erase s addr len).1 = dev.directory s
  program : ∀ s addr data len, area.reach addr len = false →
    dev.directory (dev.flash_program s addr data len).1 = dev.directory s
  nand : ∀ s addr data len bound, area.reach addr len = false →
    dev.directory (dev.flash_nand_program s addr data len bound).1 = dev.directory s

/-! ## The functions -/

/-- Flash, directory in RAM, and whether `ui_disable_mac` has switched the MAC off and
`ui_enable_mac` has not switched it on again. -/
structure ProgramState (σ : Type) extends UpgradeState σ where
  mac_off : Bool

section Functions

variable {σ : Type} (b : UpgradeBuild) (dev : ChipDev σ)

def ui_disable_mac (st : ProgramState σ) : ProgramState σ := { st with mac_off := true }
def ui_enable_mac (st : ProgramState σ) : ProgramState σ := { st with mac_off := false }

/-- One try, with the status. -/
def upgrade_try (destp : ℕ) (erase_size : ℤ) (filep : ByteMem) (got_size max_size : ℤ) (s : σ) :
    σ × ℤ :=
  if b.BOARD_NAND_BOOT then dev.flash_nand_program s destp filep erase_size max_size
  else
    let e := dev.flash_erase s destp erase_size
    if e.2 ≠ 0 then e else dev.flash_program e.1 destp filep got_size

/-- The loop with `n` tries left. In a NAND build a file that is too large for the image
is not tried, and `stat` stays what it is. -/
def upgrade_retry (destp : ℕ) (erase_size : ℤ) (filep : ByteMem) (got_size max_size : ℤ) :
    ℕ → σ × ℤ → σ × ℤ
  | 0, r => r
  | n + 1, r =>
    if r.2 = 0 then r
    else if b.BOARD_NAND_BOOT ∧ erase_size < got_size then
      upgrade_retry destp erase_size filep got_size max_size n r
    else
      upgrade_retry destp erase_size filep got_size max_size n
        (upgrade_try b dev destp erase_size filep got_size max_size r.1)

/-- The loop of `fis_write_flash` in a NAND build: the entry of the directory itself, or
what is behind the last one. `n` entries are left. -/
def fis_own_entry (fis : ByteMem) : ℕ → ℕ → ℕ
  | 0, img => img
  | n + 1, img =>
    if fis img ≠ 0xff ∧ fis img ≠ 0 ∧ desc_cksum fis img = fis_desc_chksum fis img ∧
        flash_base fis img = b.BOARD_FLASH_FIS_ADDR then img
    else fis_own_entry fis n (img + FIS_ENTRY_SIZE)

/-- `fis_write_flash` -/
def fis_write_flash (flash : σ) (fis : ByteMem) : σ :=
  if b.BOARD_NAND_BOOT then
    (dev.flash_nand_program flash b.BOARD_FLASH_FIS_ADDR fis FIS_TOTAL_SIZE
      (size fis (fis_own_entry b fis FIS_MAX_ENTRY (entry 0)))).1
  else
    let e := dev.flash_erase flash b.BOARD_FLASH_FIS_ADDR b.BOARD_FLASH_FIS_SIZE
    if e.2 ≠ 0 then e.1
    else (dev.flash_program e.1 b.BOARD_FLASH_FIS_ADDR fis b.BOARD_FLASH_FIS_SIZE).1

/-- The bookkeeping behind the retry loop: the lengths go into the entry, and the
directory into the flash. -/
def upgrade_record (flash : σ) (fis : ByteMem) (destp : ℕ) (data_length size : ℤ) :
    UpgradeState σ :=
  let fis := fis_record fis destp (u32 data_length) (u32 size) FIS_MAX_ENTRY
  ⟨fis_write_flash b dev flash fis, fis⟩

/-- `ui_download`, from the received file on. -/
def ui_download (st : ProgramState σ) (destp : ℕ) (erase_size max_size : ℤ) (u : Upload)
    (c : Console) : ProgramState σ × Outcome :=
  if max_size ≠ 0 ∧ u.got_size > max_size then (st, .too_large)
  else
    let st := ui_disable_mac st
    let rc := if destp = BOARD_FLASH_BOOT_ADDR then verify_image_file u.filep else 2
    if rc < 0 then (ui_enable_mac st, .checksum_error)
    else if rc = 1 ∧ !c.confirm then (ui_enable_mac st, .aborted)
    else if c.brk then (ui_enable_mac st, .aborted)
    else
      let filep := if rc = 0 then fun i => u.filep (i + IMGHDR_SIZE) else u.filep
      let got_size := if rc = 0 then u.got_size - IMGHDR_SIZE else u.got_size
      let erase_size := if erase_size = 0 then got_size else erase_size
      let r := upgrade_retry b dev destp erase_size filep got_size max_size UPGRADE_RETRY_TIME
        (st.flash, 1)
      let up : UpgradeState σ :=
        if !b.LOAD_FROM_IDE ∧ (got_size > 0 ∧ got_size ≠ b.BOARD_FLASH_SIZE) ∧
            destp ≠ b.BOARD_FLASH_FIS_ADDR then
          upgrade_record b dev r.1 st.fis destp
            (if b.BOARD_NAND_BOOT then erase_size else got_size) max_size
        else ⟨r.1, st.fis⟩
      (ui_enable_mac ⟨up, st.mac_off⟩, if r.2 ≠ 0 then .failed else .successful got_size)

/-- `web_program`. In a NAND build each pass of its loop returns, and returns no value. -/
def web_program (st : ProgramState σ) (destp : ℕ) (erase_size max_size : ℤ) (u : Upload) :
    ProgramState σ × Option Outcome :=
  let st := ui_disable_mac st
  let rc := if destp = BOARD_FLASH_BOOT_ADDR then verify_image_file u.filep else 2
  if rc < 0 then (ui_enable_mac st, some .checksum_error)
  else
    let got_size := if rc = 0 then u.got_size - IMGHDR_SIZE else u.got_size
    if max_size ≠ 0 ∧ got_size > max_size then (st, some .too_large)
    else
      let erase_size := if erase_size = 0 then got_size else erase_size
      if b.BOARD_NAND_BOOT then
        if erase_size < got_size then (st, none)
        else
          let r := upgrade_try b dev destp erase_size u.filep got_size max_size st.flash
          ({ st with flash := r.1 }, none)
      else
        let r := upgrade_retry b dev destp erase_size u.filep got_size max_size UPGRADE_RETRY_TIME
          (st.flash, 1)
        let up : UpgradeState σ :=
          if !b.LOAD_FROM_IDE ∧ got_size > 0 ∧ got_size ≠ b.BOARD_FLASH_SIZE then
            upgrade_record b dev r.1 st.fis destp max_size got_size
          else ⟨r.1, st.fis⟩
        (ui_enable_mac ⟨up, st.mac_off⟩, some (if r.2 ≠ 0 then .failed else .successful got_size))

end Functions

/-! ## Builds without NAND flash -/

/-- The build of a board without NAND flash. -/
def nor (B : Nor.Board) : UpgradeBuild where
  BOARD_NAND_BOOT := false
  LOAD_FROM_IDE := false
  BOARD_FLASH_SIZE := B.BOARD_FLASH_SIZE
  BOARD_FLASH_FIS_ADDR := B.BOARD_FLASH_FIS_ADDR
  BOARD_FLASH_FIS_SIZE := Nor.BOARD_FLASH_FIS_SIZE
  fis_size_pos := by norm_num [Nor.BOARD_FLASH_FIS_SIZE]

section Nor

variable {σ : Type} {dev : ChipDev σ} {B : Nor.Board} {st : ProgramState σ} {destp : ℕ}
  {erase_size max_size got_size : ℤ} {filep : ByteMem} {u : Upload} {c : Console}

theorem upgrade_retry_nor (n : ℕ) (r : σ × ℤ) :
    upgrade_retry (nor B) dev destp erase_size filep got_size max_size n r =
      program_retry dev.toFlashDev destp erase_size filep got_size n r := by
  induction n generalizing r with
  | zero => rfl
  | succ n ih =>
      have hnand : ¬ (nor B).BOARD_NAND_BOOT = true := Bool.false_ne_true
      rw [upgrade_retry, program_retry, if_neg (not_and_of_not_left _ hnand),
        upgrade_try, if_neg hnand, ih]
      dsimp only
      split_ifs <;> rfl

theorem upgrade_record_nor (flash : σ) (fis : ByteMem) (data_length size : ℤ) :
    upgrade_record (nor B) dev flash fis destp data_length size =
      let fis := fis_record fis destp (u32 data_length) (u32 size) FIS_MAX_ENTRY
      ⟨Ui.fis_write_flash dev.toFlashDev B flash fis, fis⟩ := rfl

/-- **Without NAND flash** `ui_download` is that of `Upgrade.lean`, -/
theorem ui_download_nor :
    let r := ui_download (nor B) dev st destp erase_size max_size u c
    (r.1.toUpgradeState, r.2) =
      Ui.ui_download dev.toFlashDev B st.toUpgradeState destp erase_size max_size u c := by
  unfold ui_download Ui.ui_download
  simp only [upgrade_retry_nor, upgrade_record_nor]
  simp only [nor, Bool.not_false, true_and, Bool.false_eq_true, if_false, ui_disable_mac]
  split_ifs <;> rfl

/-- and `web_program` is, too. -/
theorem web_program_nor :
    let r := web_program (nor B) dev st destp erase_size max_size u
    (r.1.toUpgradeState, r.2) =
      ((Ui.web_program dev.toFlashDev B st.toUpgradeState destp erase_size max_size u).1,
        some (Ui.web_program dev.toFlashDev B st.toUpgradeState destp erase_size
          max_size u).2) := by
  unfold web_program Ui.web_program
  simp only [upgrade_retry_nor, upgrade_record_nor]
  simp only [nor, Bool.not_false, true_and, Bool.false_eq_true, if_false, ui_disable_mac]
  split_ifs <;> rfl

end Nor

/-- A kernel as long as its partition, on flash that works. -/
theorem upgrades_agree_kernel :
    let dev : ChipDev ByteMem := ⟨ideal, fun flash _ _ _ _ => (flash, 0), fun flash => flash⟩
    let st : ProgramState ByteMem := ⟨⟨fun _ => 0xff, kernel_dir⟩, false⟩
    let u := zero_file 0x2C0000 (by decide)
    let destp := BOARD_FLASH_BASE_ADDR + 0x40000
    Agree destp (erased_size destp 0x2C0000 u) 0
      (ui_download (nor Nor.board16) dev st destp 0x2C0000 0x2C0000 u
        ⟨true, false⟩).1.toUpgradeState
      (web_program (nor Nor.board16) dev st destp 0x2C0000 0x2C0000 u).1.toUpgradeState := by
  intro dev st u destp
  obtain ⟨hc, hw⟩ := zero_file_accepted 0x2C0000 (by decide) (by decide)
  have hui := congrArg Prod.fst (@ui_download_nor ByteMem dev Nor.board16 st destp 0x2C0000
    0x2C0000 u ⟨true, false⟩)
  have hweb := congrArg Prod.fst (@web_program_nor ByteMem dev Nor.board16 st destp 0x2C0000
    0x2C0000 u)
  dsimp only at hui hweb
  rw [hui, hweb]
  exact (upgrades_agree_iff Nor.board16 _ (by decide) kernel_dir_base (by decide) _ _
    ⟨_, ui_download_ideal_successful hc⟩ ⟨_, web_program_ideal_successful hw⟩).mpr
    (.inr (.inr (.inl ⟨by decide, rfl⟩)))

/-! ## What a call comes to -/

/-- `erase_size`, where the caller leaves it open. -/
def erased (erase_size n : ℤ) : ℤ := if erase_size = 0 then n else erase_size

/-- The console records the `n` bytes that it has tried to program, -/
def UiRecords (b : UpgradeBuild) (destp : ℕ) (n : ℤ) : Prop :=
  !b.LOAD_FROM_IDE ∧ (n > 0 ∧ n ≠ b.BOARD_FLASH_SIZE) ∧ destp ≠ b.BOARD_FLASH_FIS_ADDR

/-- and so does the web. -/
def WebRecords (b : UpgradeBuild) (n : ℤ) : Prop :=
  !b.LOAD_FROM_IDE ∧ n > 0 ∧ n ≠ b.BOARD_FLASH_SIZE

instance (b : UpgradeBuild) (destp : ℕ) (n : ℤ) : Decidable (UiRecords b destp n) :=
  inferInstanceAs (Decidable (_ ∧ _))

instance (b : UpgradeBuild) (n : ℤ) : Decidable (WebRecords b n) :=
  inferInstanceAs (Decidable (_ ∧ _))

/-- A try with these sizes comes to the blocks of the directory. -/
def Touches {b : UpgradeBuild} (area : FisArea b) (destp : ℕ) (erase_size got_size : ℤ) : Prop :=
  if b.BOARD_NAND_BOOT then ¬ erase_size < got_size ∧ area.reach destp erase_size = true
  else area.reach destp erase_size = true ∨ area.reach destp got_size = true

section Calls

variable {σ : Type} {b : UpgradeBuild} {dev : ChipDev σ} {st : ProgramState σ} {destp : ℕ}
  {erase_size max_size : ℤ} {u : Upload} {c : Console}

/-- A call of `ui_download` that is not refused. -/
theorem ui_download_of_accepts (h : ConsoleAccepts destp max_size u c) :
    ui_download b dev st destp erase_size max_size u c =
      let n := image_size destp u
      let r := upgrade_retry b dev destp (erased erase_size n) (image_bytes destp u) n max_size
        UPGRADE_RETRY_TIME (st.flash, 1)
      (⟨if UiRecords b destp n then
            upgrade_record b dev r.1 st.fis destp
              (if b.BOARD_NAND_BOOT then erased erase_size n else n) max_size
          else ⟨r.1, st.fis⟩, false⟩,
        if r.2 ≠ 0 then .failed else .successful n) := by
  unfold ui_download
  generalize hrc : (if destp = BOARD_FLASH_BOOT_ADDR then verify_image_file u.filep else 2) = rc
  obtain ⟨h₀, hneg, h₁⟩ := rc_eq destp u hrc.symm
  have hsize : ¬ (max_size ≠ 0 ∧ u.got_size > max_size) := fun hl =>
    absurd (h.fits hl.1) (not_le.mpr hl.2)
  have hconfirm : ¬ (rc = 1 ∧ (!c.confirm) = true) := fun hl => by
    simp [h.confirmed (h₁.mp hl.1).1 (h₁.mp hl.1).2] at hl
  dsimp only
  rw [if_neg hsize, if_neg (fun hl => hneg.mp hl h.header), if_neg hconfirm,
    if_neg (by rw [h.waited]; exact Bool.false_ne_true), image_size, image_bytes]
  simp only [h₀]
  rfl

/-- A refused call of `ui_download` switches the MAC off and on, if it does anything. -/
theorem ui_download_refused (h : ¬ ConsoleAccepts destp max_size u c) :
    (ui_download b dev st destp erase_size max_size u c).1 = st ∨
      (ui_download b dev st destp erase_size max_size u c).1 =
        ui_enable_mac (ui_disable_mac st) := by
  unfold ui_download
  generalize hrc : (if destp = BOARD_FLASH_BOOT_ADDR then verify_image_file u.filep else 2) = rc
  obtain ⟨h₀, hneg, h₁⟩ := rc_eq destp u hrc.symm
  dsimp only
  by_cases hsize : max_size ≠ 0 ∧ u.got_size > max_size
  · rw [if_pos hsize]
    exact .inl rfl
  rw [if_neg hsize]
  by_cases hheader : rc < 0
  · rw [if_pos hheader]
    exact .inr rfl
  rw [if_neg hheader]
  by_cases hconfirm : rc = 1 ∧ (!c.confirm) = true
  · rw [if_pos hconfirm]
    exact .inr rfl
  rw [if_neg hconfirm]
  by_cases hbrk : c.brk = true
  · rw [if_pos hbrk]
    exact .inr rfl
  -- no reason is left
  refine absurd ⟨?_, not_not.mp fun hh => hheader (hneg.mpr hh), ?_, ?_⟩ h
  · intro hm
    exact not_lt.mp fun hg => hsize ⟨hm, hg⟩
  · intro hd hv
    by_contra hc
    exact hconfirm ⟨h₁.mpr ⟨hd, hv⟩, by simpa using hc⟩
  · simpa using hbrk

/-- It leaves everything as it is, and the MAC on. -/
theorem ui_download_of_not_accepts (h : ¬ ConsoleAccepts destp max_size u c)
    (hmac : st.mac_off = false) :
    (ui_download b dev st destp erase_size max_size u c).1 = st := by
  obtain heq | heq := @ui_download_refused σ b dev st destp erase_size max_size u c h
  · exact heq
  · rw [heq, ui_enable_mac, ui_disable_mac]
    rcases st with ⟨up, mac⟩
    cases hmac
    rfl

/-- The header of the file is wrong, for the boot loader. -/
def HeaderWrong (destp : ℕ) (u : Upload) : Prop :=
  destp = BOARD_FLASH_BOOT_ADDR ∧ verify_image_file u.filep < 0

/-- What `web_program` comes to, after the test of the header. -/
theorem web_program_eq (h : ¬ HeaderWrong destp u) :
    web_program b dev st destp erase_size max_size u =
      let n := image_size destp u
      let st := ui_disable_mac st
      if max_size ≠ 0 ∧ n > max_size then (st, some .too_large)
      else if b.BOARD_NAND_BOOT then
        if erased erase_size n < n then (st, none)
        else
          let r := upgrade_try b dev destp (erased erase_size n) u.filep n max_size st.flash
          ({ st with flash := r.1 }, none)
      else
        let r := upgrade_retry b dev destp (erased erase_size n) u.filep n max_size
          UPGRADE_RETRY_TIME (st.flash, 1)
        (⟨if WebRecords b n then upgrade_record b dev r.1 st.fis destp max_size n
            else ⟨r.1, st.fis⟩, false⟩,
          some (if r.2 ≠ 0 then .failed else .successful n)) := by
  unfold web_program
  generalize hrc : (if destp = BOARD_FLASH_BOOT_ADDR then verify_image_file u.filep else 2) = rc
  obtain ⟨h₀, hneg, -⟩ := rc_eq destp u hrc.symm
  have hheader : ¬ rc < 0 := fun hl => hneg.mp hl fun hd => not_lt.mp fun hlt => h ⟨hd, hlt⟩
  have hn : (if rc = 0 then u.got_size - IMGHDR_SIZE else u.got_size) = image_size destp u := by
    rw [image_size]
    simp only [h₀]
  dsimp only
  rw [if_neg hheader, hn]
  rfl

theorem web_program_header (h : HeaderWrong destp u) (hmac : st.mac_off = false) :
    (web_program b dev st destp erase_size max_size u).1 = st := by
  rcases st with ⟨up, mac⟩
  cases hmac
  unfold web_program
  rw [if_pos h.1]
  dsimp only
  rw [if_pos h.2]
  rfl

end Calls

/-! ## What is asked -/

section Keeps

variable (b : UpgradeBuild) (area : FisArea b) (fis : ByteMem) (destp : ℕ)
  (erase_size max_size : ℤ) (u : Upload) (c : Console)

/-- However the flash fails: when `ui_download` does not report success, the directory is
what it was, in RAM and in the flash; and whenever it returns, the MAC is on. -/
def UiKeeps : Prop :=
  ∀ (σ : Type) (dev : ChipDev σ), Within dev area → ∀ flash,
    let r := ui_download b dev ⟨⟨flash, fis⟩, false⟩ destp erase_size max_size u c
    ((∀ n, r.2 ≠ .successful n) →
        r.1.fis = fis ∧ dev.directory r.1.flash = dev.directory flash) ∧
      r.1.mac_off = false

/-- The same of `web_program`. -/
def WebKeeps : Prop :=
  ∀ (σ : Type) (dev : ChipDev σ), Within dev area → ∀ flash,
    let r := web_program b dev ⟨⟨flash, fis⟩, false⟩ destp erase_size max_size u
    ((∀ n, r.2 ≠ some (.successful n)) →
        r.1.fis = fis ∧ dev.directory r.1.flash = dev.directory flash) ∧
      r.1.mac_off = false

/-- `ui_download` refuses the file; or nothing is recorded of it, and the tries do not
come to the directory. -/
def UiSpares : Prop :=
  ¬ ConsoleAccepts destp max_size u c ∨
    ¬ UiRecords b destp (image_size destp u) ∧
      ¬ Touches area destp (erased erase_size (image_size destp u)) (image_size destp u)

/-- The header is wrong; or, without NAND flash, the file is not too large, nothing is
recorded of it, and the tries do not come to the directory. -/
def WebSpares : Prop :=
  HeaderWrong destp u ∨
    b.BOARD_NAND_BOOT = false ∧ WebAccepts destp max_size u ∧
      ¬ WebRecords b (image_size destp u) ∧
      ¬ Touches area destp (erased erase_size (image_size destp u)) (image_size destp u)

end Keeps

section Tries

variable {σ : Type} {b : UpgradeBuild} {area : FisArea b} {dev : ChipDev σ} {destp : ℕ}
  {erase_size max_size got_size : ℤ} {filep : ByteMem}

theorem try_spares (hw : Within dev area) (ht : ¬ Touches area destp erase_size got_size)
    (hn : ¬ (b.BOARD_NAND_BOOT ∧ erase_size < got_size)) (s : σ) :
    dev.directory (upgrade_try b dev destp erase_size filep got_size max_size s).1 =
      dev.directory s := by
  unfold upgrade_try
  unfold Touches at ht
  by_cases hb : b.BOARD_NAND_BOOT = true
  · rw [if_pos hb] at ht ⊢
    refine hw.nand _ _ _ _ _ ?_
    rw [← Bool.not_eq_true]
    exact fun hr => ht ⟨fun hlt => hn ⟨hb, hlt⟩, hr⟩
  · rw [if_neg hb, not_or, Bool.not_eq_true, Bool.not_eq_true] at ht
    rw [if_neg hb]
    dsimp only
    have herase := hw.erase s destp erase_size ht.1
    split_ifs
    · exact herase
    · exact (hw.program _ _ _ _ ht.2).trans herase

/-- Tries that do not come to the directory leave it alone, however they end. -/
theorem retry_spares (hw : Within dev area) (ht : ¬ Touches area destp erase_size got_size)
    (n : ℕ) (r : σ × ℤ) :
    dev.directory (upgrade_retry b dev destp erase_size filep got_size max_size n r).1 =
      dev.directory r.1 := by
  induction n generalizing r with
  | zero => rfl
  | succ n ih =>
      rw [upgrade_retry]
      split_ifs with hstat hskip
      · rfl
      · exact ih r
      · exact (ih _).trans (try_spares hw ht hskip r.1)

end Tries

/-! ## A flash that fails -/

/-- A flash that loses the directory whenever an operation comes to it, and on which no
program operation succeeds. -/
def wrecked {b : UpgradeBuild} (area : FisArea b) : ChipDev ByteMem where
  flash_erase := fun s addr len => (if area.reach addr len then fun _ => 0 else s, 0)
  flash_program := fun s addr _ len => (if area.reach addr len then fun _ => 0 else s, 1)
  flash_nand_program := fun s addr _ len _ => (if area.reach addr len then fun _ => 0 else s, 1)
  directory := id

section Wrecked

variable {b : UpgradeBuild} {area : FisArea b} {destp : ℕ} {erase_size max_size got_size : ℤ}
  {filep fis s : ByteMem}

theorem within_wrecked : Within (wrecked area) area := by
  constructor
  · intro s addr len h
    exact if_neg (Bool.not_eq_true _ ▸ h)
  · intro s addr data len h
    exact if_neg (Bool.not_eq_true _ ▸ h)
  · intro s addr data len bound h
    exact if_neg (Bool.not_eq_true _ ▸ h)

/-- Nothing is left of a directory that is lost. -/
theorem wrecked_lost (addr : ℕ) (len : ℤ) :
    (if area.reach addr len then fun _ => 0 else fun _ => 0 : ByteMem) = fun _ => 0 := by
  split_ifs <;> rfl

variable (area destp erase_size max_size got_size filep s) in
theorem try_wrecked :
    (upgrade_try b (wrecked area) destp erase_size filep got_size max_size s).2 = 1 ∧
      (Touches area destp erase_size got_size →
        (upgrade_try b (wrecked area) destp erase_size filep got_size max_size s).1 = fun _ => 0) ∧
      (s = (fun _ => 0) →
        (upgrade_try b (wrecked area) destp erase_size filep got_size max_size s).1 =
          fun _ => 0) := by
  unfold upgrade_try Touches
  by_cases hb : b.BOARD_NAND_BOOT = true
  · simp only [if_pos hb, wrecked]
    refine ⟨trivial, fun ht => if_pos ht.2, ?_⟩
    rintro rfl
    exact wrecked_lost _ _
  · simp only [if_neg hb, wrecked, ne_eq, not_true_eq_false, if_false]
    refine ⟨trivial, ?_, ?_⟩
    · rintro (he | hp)
      · rw [if_pos he]
        exact wrecked_lost _ _
      · exact if_pos hp
    · rintro rfl
      rw [wrecked_lost]
      exact wrecked_lost _ _

variable (area destp erase_size max_size got_size filep) in
/-- The tries fail, and lose the directory if they come to it. -/
theorem retry_wrecked (n : ℕ) {r : ByteMem × ℤ} (hr : r.2 = 1) :
    (upgrade_retry b (wrecked area) destp erase_size filep got_size max_size n r).2 = 1 ∧
      ((Touches area destp erase_size got_size ∧ n ≠ 0) ∨ r.1 = (fun _ => 0) →
        (upgrade_retry b (wrecked area) destp erase_size filep got_size max_size n r).1 =
          fun _ => 0) := by
  induction n generalizing r with
  | zero => exact ⟨hr, fun h => h.resolve_left fun hl => hl.2 rfl⟩
  | succ n ih =>
      have hne : ¬ r.2 = 0 := by
        rw [hr]
        decide
      rw [upgrade_retry, if_neg hne]
      split_ifs with hskip
      · -- a file that is not tried does not touch anything
        refine ⟨(ih hr).1, fun h => (ih hr).2 (.inr (h.resolve_left ?_))⟩
        rintro ⟨ht, -⟩
        rw [Touches, if_pos hskip.1] at ht
        exact ht.1 hskip.2
      · obtain ⟨hstat, htouch, hlost⟩ :=
          try_wrecked area destp erase_size max_size got_size filep r.1
        refine ⟨(ih hstat).1, ?_⟩
        rintro (⟨ht, -⟩ | h₀)
        · exact (ih hstat).2 (.inr (htouch ht))
        · exact (ih hstat).2 (.inr (hlost h₀))

/-- Writing the directory loses it. -/
theorem record_wrecked (data_length size : ℤ) :
    (upgrade_record b (wrecked area) s fis destp data_length size).flash = fun _ => 0 := by
  have htotal : area.reach b.BOARD_FLASH_FIS_ADDR FIS_TOTAL_SIZE = true :=
    area.fis _ (by norm_num [FIS_TOTAL_SIZE, FIS_MAX_ENTRY, FIS_ENTRY_SIZE])
  have hsize : area.reach b.BOARD_FLASH_FIS_ADDR b.BOARD_FLASH_FIS_SIZE = true :=
    area.fis _ (by exact_mod_cast b.fis_size_pos)
  simp only [upgrade_record, fis_write_flash, wrecked]
  split_ifs <;> simp_all

end Wrecked

section Iff

variable {b : UpgradeBuild} {area : FisArea b} {fis : ByteMem} {destp : ℕ}
  {erase_size max_size : ℤ} {u : Upload} {c : Console}

/-- A directory of ones is not lost. -/
theorem ones_ne_lost : (fun _ => 0 : ByteMem) ≠ fun _ => 1 := fun h =>
  absurd (congrFun h 0) (by decide)

/-- **The console**: when a failure cannot harm the directory. -/
theorem ui_keeps_iff :
    UiKeeps b area fis destp erase_size max_size u c ↔
      UiSpares b area destp erase_size max_size u c := by
  constructor
  · intro h
    by_contra hnot
    obtain ⟨haccepts, hharm⟩ := not_or.mp hnot
    rw [not_not] at haccepts
    -- a chip that fails and loses everything it comes near tells the condition
    obtain ⟨hkeeps, -⟩ := h ByteMem (wrecked area) within_wrecked fun _ => 1
    rw [ui_download_of_accepts haccepts] at hkeeps
    dsimp only at hkeeps
    obtain ⟨hstat, hlost⟩ := retry_wrecked area destp (erased erase_size (image_size destp u))
      max_size (image_size destp u) (image_bytes destp u) UPGRADE_RETRY_TIME (r := (fun _ => 1, 1))
      rfl
    have hfail := hstat.trans_ne (one_ne_zero : (1 : ℤ) ≠ 0)
    have hdir := (hkeeps (by rw [if_pos hfail]; exact nofun)).2
    by_cases hrec : UiRecords b destp (image_size destp u)
    · rw [if_pos hrec] at hdir
      exact ones_ne_lost ((record_wrecked _ _).symm.trans hdir)
    · rw [if_neg hrec] at hdir
      have ht := not_not.mp fun ht => hharm ⟨hrec, ht⟩
      exact ones_ne_lost ((hlost (.inl ⟨ht, by decide⟩)).symm.trans hdir)
  · rintro (hrefused | ⟨hrec, ht⟩) σ dev hw flash
    · dsimp only
      rw [ui_download_of_not_accepts hrefused]
      swap
      · rfl
      exact ⟨fun _ => ⟨rfl, rfl⟩, rfl⟩
    · by_cases haccepts : ConsoleAccepts destp max_size u c
      · rw [ui_download_of_accepts haccepts]
        dsimp only
        rw [if_neg hrec]
        exact ⟨fun _ => ⟨rfl, retry_spares hw ht _ _⟩, rfl⟩
      · dsimp only
        rw [ui_download_of_not_accepts haccepts]
        swap
        · rfl
        exact ⟨fun _ => ⟨rfl, rfl⟩, rfl⟩

/-- **The web**: when a failure cannot harm the directory, nor leave the MAC off. -/
theorem web_keeps_iff :
    WebKeeps b area fis destp erase_size max_size u ↔
      WebSpares b area destp erase_size max_size u := by
  constructor
  · intro h
    by_cases hheader : HeaderWrong destp u
    · exact .inl hheader
    obtain ⟨hkeeps, hmac⟩ := h ByteMem (wrecked area) within_wrecked fun _ => 1
    rw [web_program_eq hheader] at hkeeps hmac
    dsimp only at hkeeps hmac
    by_cases hsize : max_size ≠ 0 ∧ image_size destp u > max_size
    · rw [if_pos hsize] at hmac
      exact nomatch (show true = false from hmac)
    rw [if_neg hsize] at hkeeps hmac
    have haccepts : WebAccepts destp max_size u :=
      ⟨fun hd => not_lt.mp fun hlt => hheader ⟨hd, hlt⟩,
        fun hm => not_lt.mp fun hlt => hsize ⟨hm, hlt⟩⟩
    by_cases hb : b.BOARD_NAND_BOOT = true
    · -- each pass of the loop returns with the MAC off
      rw [if_pos hb] at hmac
      split_ifs at hmac <;> exact nomatch (show true = false from hmac)
    rw [if_neg hb] at hkeeps
    refine .inr ⟨Bool.not_eq_true _ ▸ hb, haccepts, ?_⟩
    obtain ⟨hstat, hlost⟩ := retry_wrecked area destp (erased erase_size (image_size destp u))
      max_size (image_size destp u) u.filep UPGRADE_RETRY_TIME (r := (fun _ => 1, 1)) rfl
    have hfail := hstat.trans_ne (one_ne_zero : (1 : ℤ) ≠ 0)
    have hdir := (hkeeps fun n hn => nomatch (if_pos hfail).symm.trans (Option.some.inj hn)).2
    have hrec : ¬ WebRecords b (image_size destp u) := fun hrec => by
      rw [if_pos hrec] at hdir
      exact ones_ne_lost ((record_wrecked _ _).symm.trans hdir)
    refine ⟨hrec, fun ht => ?_⟩
    rw [if_neg hrec] at hdir
    exact ones_ne_lost ((hlost (.inl ⟨ht, by decide⟩)).symm.trans hdir)
  · rintro (hheader | ⟨hb, haccepts, hrec, ht⟩) σ dev hw flash
    · dsimp only
      rw [web_program_header hheader]
      swap
      · rfl
      exact ⟨fun _ => ⟨rfl, rfl⟩, rfl⟩
    · have hheader : ¬ HeaderWrong destp u := fun h =>
        absurd (haccepts.header h.1) (not_le.mpr h.2)
      have hsize : ¬ (max_size ≠ 0 ∧ image_size destp u > max_size) := fun h =>
        absurd (haccepts.fits h.1) (not_le.mpr h.2)
      rw [web_program_eq hheader]
      dsimp only
      rw [if_neg hsize, hb, if_neg Bool.false_ne_true, if_neg hrec]
      exact ⟨fun _ => ⟨rfl, retry_spares hw ht _ _⟩, rfl⟩

end Iff

/-- **When a failed upgrade leaves the directory alone and the MAC on**, in every build and
for every file, and whatever the directory holds: through the console, when the file is
refused, or nothing is recorded of it and the tries do not come to the directory; through
the web, when the header is wrong, or the file is not too large, the build has no NAND
flash, nothing is recorded and the tries do not come to the directory. -/
theorem failed_upgrade_keeps_directory_iff (b : UpgradeBuild) (area : FisArea b) (fis : ByteMem)
    (destp : ℕ) (erase_size max_size : ℤ) (u : Upload) (c : Console) :
    (UiKeeps b area fis destp erase_size max_size u c ↔
        UiSpares b area destp erase_size max_size u c) ∧
      (WebKeeps b area fis destp erase_size max_size u ↔
        WebSpares b area destp erase_size max_size u) :=
  ⟨ui_keeps_iff, web_keeps_iff⟩

/-- The blocks of a board without NAND flash, `unit` bytes each: an operation comes to
every block that its range meets. -/
def nor_area (B : Nor.Board) (unit : ℕ) : FisArea (nor B) where
  reach := fun addr len => 0 < len ∧
    addr / unit ≤ (B.BOARD_FLASH_FIS_ADDR + Nor.BOARD_FLASH_FIS_SIZE - 1) / unit ∧
    B.BOARD_FLASH_FIS_ADDR / unit ≤ (addr + len.toNat - 1) / unit
  fis := by
    intro len hlen
    rw [decide_eq_true_eq]
    refine ⟨hlen, ?_, ?_⟩
    · exact Nat.div_le_div_right (by unfold nor Nor.BOARD_FLASH_FIS_SIZE; dsimp only; omega)
    · exact Nat.div_le_div_right (by unfold nor; dsimp only; omega)

/-- **A failed upgrade that loses the directory**: a kernel of 100 bytes through the
console, and a flash on which nothing can be programmed. -/
theorem failed_upgrade_loses_directory :
    ¬ UiKeeps (nor Nor.board16) (nor_area Nor.board16 0x20000) (fun _ => 0)
      (BOARD_FLASH_BASE_ADDR + 0x40000) 0x2C0000 0x2C0000 (zero_file 100 (by decide))
      ⟨true, false⟩ := by
  rw [ui_keeps_iff]
  rintro (hrefused | ⟨hrec, -⟩)
  · exact hrefused (zero_file_accepted 100 (by decide) (by decide)).1
  · refine hrec ?_
    rw [zero_file_size]
    decide

end CsBoot.Ui.Build
