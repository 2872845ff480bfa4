/-
The two ways of upgrading compared, on an ideal flash.

Both paths erase the same range and program the same number of bytes, but the
web path programs from the front of the received file where the console takes
the header off, and it records the two lengths the other way round. So they
agree when there is nothing to record, or when the two lengths are the same.
-/
import CsBoot.Ui.Upgrade

set_option autoImplicit false

namespace CsBoot.Ui

open ByteMem Fis Nor

variable {B : Board} {st : UpgradeState ByteMem} {destp j : ℕ} {max_size : ℤ} {u : Upload}
  {c : Console}

/-- The ideal flash after an erase and a program. -/
def placed (m : ByteMem) (destp : ℕ) (erase_size : ℤ) (filep : ByteMem) (n : ℤ) : ByteMem :=
  fun a =>
  if destp ≤ a ∧ (a : ℤ) < destp + n then filep (a - destp)
  else if destp ≤ a ∧ (a : ℤ) < destp + erase_size then 0xff
  else m a

theorem placed_at (m : ByteMem) (destp : ℕ) (e : ℤ) (filep : ByteMem) (n : ℤ) (i : ℕ) :
    placed m destp e filep n (destp + i) =
      if (i : ℤ) < n then filep i else if (i : ℤ) < e then 0xff else m (destp + i) := by
  have hin : ∀ k : ℤ, (destp ≤ destp + i ∧ ((destp + i : ℕ) : ℤ) < destp + k) ↔ (i : ℤ) < k := by
    intro k
    omega
  unfold placed
  simp only [hin, Nat.add_sub_cancel_left]

/-- On the ideal device the first try succeeds. -/
theorem program_retry_ideal (m : ByteMem) (destp : ℕ) (erase_size : ℤ) (filep : ByteMem) (n : ℤ) :
    program_retry ideal destp erase_size filep n UPGRADE_RETRY_TIME (m, 1) =
      (placed m destp erase_size filep n, 0) := by
  unfold UPGRADE_RETRY_TIME
  rw [program_retry, if_neg one_ne_zero]
  dsimp only [ideal]
  rw [if_neg (not_not.mpr rfl), program_retry, if_pos rfl]
  rfl

theorem fis_write_flash_ideal (m fis : ByteMem) : fis_write_flash ideal B m fis =
    placed m B.BOARD_FLASH_FIS_ADDR BOARD_FLASH_FIS_SIZE fis BOARD_FLASH_FIS_SIZE := by
  unfold fis_write_flash
  dsimp only [ideal]
  rw [if_neg (by decide)]
  rfl

/-- The length of the range that is erased. -/
def erased_size (destp : ℕ) (max_size : ℤ) (u : Upload) : ℤ :=
  if max_size = 0 then image_size destp u else max_size

/-- The console, when it succeeds. -/
theorem ui_download_ideal (h : ConsoleAccepts destp max_size u c) :
    (ui_download ideal B st destp max_size max_size u c).1 =
      let n := image_size destp u
      let flash := placed st.flash destp (erased_size destp max_size u) (image_bytes destp u) n
      if (n > 0 ∧ n ≠ B.BOARD_FLASH_SIZE) ∧ destp ≠ B.BOARD_FLASH_FIS_ADDR then
        let fis := fis_record st.fis destp (u32 n) (u32 max_size) FIS_MAX_ENTRY
        ⟨fis_write_flash ideal B flash fis, fis⟩
      else ⟨flash, st.fis⟩ := by
  rw [ui_download_of_accepts h]
  dsimp only
  rw [program_retry_ideal]
  rfl

/-- The web, when it succeeds. -/
theorem web_program_ideal (h : WebAccepts destp max_size u) :
    (web_program ideal B st destp max_size max_size u).1 =
      let n := image_size destp u
      let flash := placed st.flash destp (erased_size destp max_size u) u.filep n
      if n > 0 ∧ n ≠ B.BOARD_FLASH_SIZE then
        let fis := fis_record st.fis destp (u32 max_size) (u32 n) FIS_MAX_ENTRY
        ⟨fis_write_flash ideal B flash fis, fis⟩
      else ⟨flash, st.fis⟩ := by
  rw [web_program_of_accepts h]
  dsimp only
  rw [program_retry_ideal]
  rfl

/-- The same bytes in the `len` bytes of flash from `destp` on, and the same
entry `j`. -/
structure Agree (destp : ℕ) (len : ℤ) (j : ℕ) (sc sw : UpgradeState ByteMem) : Prop where
  flash : ∀ i : ℕ, (i : ℤ) < len → sc.flash (destp + i) = sw.flash (destp + i)
  data_length : data_length sc.fis (entry j) = data_length sw.fis (entry j)
  desc_cksum : desc_cksum sc.fis (entry j) = desc_cksum sw.fis (entry j)
  size : size sc.fis (entry j) = size sw.fis (entry j)

/-- In the entry of the directory itself: the file is the directory, as the web
path writes it back, and the entry holds already what that path records. -/
def IsDirectory (B : Board) (st : UpgradeState ByteMem) (destp j : ℕ) (max_size : ℤ) (u : Upload) :
    Prop :=
  let dir := fis_record st.fis destp (u32 max_size) (u32 u.got_size) FIS_MAX_ENTRY
  destp = B.BOARD_FLASH_FIS_ADDR ∧
  (∀ i : ℕ, i < BOARD_FLASH_FIS_SIZE → (i : ℤ) < erased_size destp max_size u →
    (if (i : ℤ) < u.got_size then u.filep i else 0xff) = dir i) ∧
  data_length st.fis (entry j) = data_length dir (entry j) ∧
  desc_cksum st.fis (entry j) = desc_cksum dir (entry j) ∧
  size st.fis (entry j) = size dir (entry j)

theorem image_size_le (u : Upload) (destp : ℕ) : image_size destp u ≤ u.got_size := by
  unfold image_size IMGHDR_SIZE
  split <;> omega

theorem u32_of_nonneg {z : ℤ} (h : 0 ≤ z) (h' : z < 2 ^ 31) : u32 z % W = z.toNat := by
  unfold u32 W
  omega

theorem image_size_le_erased (h : WebAccepts destp max_size u) :
    image_size destp u ≤ erased_size destp max_size u := by
  unfold erased_size
  by_cases h₀ : max_size = 0
  · rw [if_pos h₀]
  · rw [if_neg h₀]
    exact h.fits h₀

/-- An image as long as the limit came without a header, for the console wants
the file to fit with it. -/
theorem image_bytes_of_full (h : ConsoleAccepts destp max_size u c) (hpos : 0 < image_size destp u)
    (hfull : image_size destp u = max_size) : image_bytes destp u = u.filep := by
  unfold image_size at hpos hfull
  unfold image_bytes
  by_cases hs : Stripped destp u
  · rw [if_pos hs] at hpos hfull
    have := h.fits (by omega)
    unfold IMGHDR_SIZE at hfull
    omega
  · rw [if_neg hs]

section Cases

/-- Nothing is recorded: the bytes decide. -/
theorem agree_unrecorded (hc : ConsoleAccepts destp max_size u c) (hw : WebAccepts destp max_size u)
    (hn : image_size destp u ≤ 0 ∨ image_size destp u = B.BOARD_FLASH_SIZE) :
    Agree destp (erased_size destp max_size u) j
      (ui_download ideal B st destp max_size max_size u c).1
      (web_program ideal B st destp max_size max_size u).1 ↔
      ∀ i : ℕ, (i : ℤ) < image_size destp u → image_bytes destp u i = u.filep i := by
  have hnot : ¬ (image_size destp u > 0 ∧ image_size destp u ≠ B.BOARD_FLASH_SIZE) := by omega
  rw [ui_download_ideal hc, web_program_ideal hw]
  dsimp only
  rw [if_neg fun h => hnot h.1, if_neg hnot]
  have hle := image_size_le_erased hw
  constructor
  · intro h i hi
    have hi' := h.flash i (by omega)
    dsimp only at hi'
    rwa [placed_at, placed_at, if_pos hi, if_pos hi] at hi'
  · intro h
    refine ⟨?_, rfl, rfl, rfl⟩
    intro i _
    dsimp only
    rw [placed_at, placed_at]
    by_cases hi : (i : ℤ) < image_size destp u
    · rw [if_pos hi, if_pos hi, h i hi]
    · rw [if_neg hi, if_neg hi]

/-- Both record, and they record the same only when the lengths are the same. -/
theorem agree_recorded (hj : j < FIS_MAX_ENTRY) (hbase : flash_base st.fis (entry j) = destp)
    (hmax : max_size < 2 ^ 31) (hc : ConsoleAccepts destp max_size u c)
    (hw : WebAccepts destp max_size u) (hpos : 0 < image_size destp u)
    (hfull : image_size destp u ≠ B.BOARD_FLASH_SIZE) (hfis : destp ≠ B.BOARD_FLASH_FIS_ADDR) :
    Agree destp (erased_size destp max_size u) j
      (ui_download ideal B st destp max_size max_size u c).1
      (web_program ideal B st destp max_size max_size u).1 ↔ image_size destp u = max_size := by
  have hle := image_size_le u destp
  have hint := u.int
  have hmax' : 0 ≤ max_size := by
    by_cases h₀ : max_size = 0
    · exact h₀.ge
    · have := hw.fits h₀
      omega
  rw [ui_download_ideal hc, web_program_ideal hw]
  dsimp only
  rw [if_pos ⟨⟨hpos, hfull⟩, hfis⟩, if_pos ⟨hpos, hfull⟩]
  constructor
  · intro h
    have hlen := h.data_length
    dsimp only at hlen
    rw [((fis_record_spec hj).2.1 hbase).1, ((fis_record_spec hj).2.1 hbase).1,
      u32_of_nonneg hpos.le (by omega), u32_of_nonneg hmax' hmax] at hlen
    omega
  · intro h
    rw [h, image_bytes_of_full hc hpos h]
    exact ⟨fun _ _ => rfl, rfl, rfl, rfl⟩

/-- In the entry of the directory only the web path records. -/
theorem agree_directory (hc : ConsoleAccepts destp max_size u c) (hw : WebAccepts destp max_size u)
    (hpos : 0 < image_size destp u) (hfull : image_size destp u ≠ B.BOARD_FLASH_SIZE)
    (hfis : destp = B.BOARD_FLASH_FIS_ADDR) :
    Agree destp (erased_size destp max_size u) j
      (ui_download ideal B st destp max_size max_size u c).1
      (web_program ideal B st destp max_size max_size u).1 ↔
      IsDirectory B st destp j max_size u := by
  have hs : ¬ Stripped destp u := fun h => B.fis_ne_boot (h.1.symm.trans hfis)
  have hsize : image_size destp u = u.got_size := if_neg hs
  have hbytes : image_bytes destp u = u.filep := if_neg hs
  rw [ui_download_ideal hc, web_program_ideal hw]
  dsimp only
  rw [if_neg fun h => h.2 hfis, if_pos ⟨hpos, hfull⟩, hbytes, hsize, fis_write_flash_ideal]
  unfold IsDirectory
  generalize fis_record st.fis destp (u32 max_size) (u32 u.got_size) FIS_MAX_ENTRY = dir
  rw [← hfis]
  -- one byte of the range
  have hbyte : ∀ i : ℕ, (i : ℤ) < erased_size destp max_size u →
      (placed st.flash destp (erased_size destp max_size u) u.filep u.got_size (destp + i) =
        placed (placed st.flash destp (erased_size destp max_size u) u.filep u.got_size) destp
          BOARD_FLASH_FIS_SIZE dir BOARD_FLASH_FIS_SIZE (destp + i) ↔
        (i < BOARD_FLASH_FIS_SIZE →
          (if (i : ℤ) < u.got_size then u.filep i else 0xff) = dir i)) := by
    intro i hi
    simp only [placed_at, if_pos hi, Nat.cast_lt]
    by_cases hd : i < BOARD_FLASH_FIS_SIZE
    · simp only [hd, if_true, forall_const]
    · simp only [hd, if_false, false_implies]
  constructor
  · rintro ⟨h₁, h₂, h₃, h₄⟩
    exact ⟨rfl, fun i hi hi' => (hbyte i hi').mp (h₁ i hi') hi, h₂, h₃, h₄⟩
  · rintro ⟨-, h₁, h₂, h₃, h₄⟩
    exact ⟨fun i hi => (hbyte i hi).mpr fun hd => h₁ i hd hi, h₂, h₃, h₄⟩

end Cases

/-- **When the two ways of upgrading agree** on an entry, for a file that both
accept: when there is nothing to program, when the file has the size of the
flash (and, if a header comes off, repeats it), when the image has the size that
limits it; or when the entry is that of the directory and the file the directory
itself. -/
theorem upgrades_agree_iff (B : Board) (st : UpgradeState ByteMem) {destp j : ℕ}
    (hj : j < FIS_MAX_ENTRY) (hbase : flash_base st.fis (entry j) = destp) {max_size : ℤ}
    (hmax : max_size < 2 ^ 31) (u : Upload) (c : Console)
    (hc : ∃ n, (ui_download ideal B st destp max_size max_size u c).2 = .successful n)
    (hw : ∃ n, (web_program ideal B st destp max_size max_size u).2 = .successful n) :
    Agree destp (erased_size destp max_size u) j
      (ui_download ideal B st destp max_size max_size u c).1
      (web_program ideal B st destp max_size max_size u).1 ↔
      image_size destp u ≤ 0 ∨
      (image_size destp u = B.BOARD_FLASH_SIZE ∧
        ∀ i : ℕ, (i : ℤ) < image_size destp u → image_bytes destp u i = u.filep i) ∨
      (destp ≠ B.BOARD_FLASH_FIS_ADDR ∧ image_size destp u = max_size) ∨
      (image_size destp u ≠ B.BOARD_FLASH_SIZE ∧ IsDirectory B st destp j max_size u) := by
  have hc : ConsoleAccepts destp max_size u c := by
    obtain ⟨n, hn⟩ := hc
    by_contra h
    exact (ui_download_of_not_accepts h).2.1 n hn
  have hw : WebAccepts destp max_size u := by
    obtain ⟨n, hn⟩ := hw
    by_contra h
    exact (web_program_of_not_accepts h).2.1 n hn
  -- the cases are those of the bookkeeping: none, the whole flash, the directory, an entry
  by_cases hpos : image_size destp u ≤ 0
  · rw [agree_unrecorded hc hw (.inl hpos)]
    exact iff_of_true (fun i hi => absurd hi (by omega)) (.inl hpos)
  rw [or_iff_right hpos]
  by_cases hfull : image_size destp u = B.BOARD_FLASH_SIZE
  · rw [agree_unrecorded hc hw (.inr hfull)]
    constructor
    · exact fun h => .inl ⟨hfull, h⟩
    · rintro (h | ⟨-, h⟩ | ⟨h, -⟩)
      · exact h.2
      · rw [image_bytes_of_full hc (by omega) h]
        exact fun _ _ => rfl
      · exact absurd hfull h
  · by_cases hfis : destp = B.BOARD_FLASH_FIS_ADDR
    · rw [agree_directory hc hw (by omega) hfull hfis]
      constructor
      · exact fun h => .inr (.inr ⟨hfull, h⟩)
      · rintro (h | h | h)
        · exact absurd h.1 hfull
        · exact absurd hfis h.1
        · exact h.2
    · rw [agree_recorded hj hbase hmax hc hw (by omega) hfull hfis]
      constructor
      · exact fun h => .inr (.inl ⟨hfis, h⟩)
      · rintro (h | h | h)
        · exact absurd h.1 hfull
        · exact h.2
        · exact absurd h.2.1 hfis

/-- A directory with one entry, for the kernel. -/
def kernel_dir : ByteMem :=
  let fis : ByteMem := fun a => if a < FIS_ENTRY_SIZE then BOARD_FIS_KERNEL_NAME.getD a 0 else 0xff
  fis_set (store32 fis (entry 0 + 16) (BOARD_FLASH_BASE_ADDR + 0x40000)) (entry 0) 0x2C0000 0x2C0000

/-- A file of zeros. -/
def zero_file (got_size : ℕ) (h : got_size < 2 ^ 31) : Upload where
  filep := fun _ => 0
  got_size := got_size
  nonneg := by omega
  int := by exact_mod_cast h

theorem kernel_dir_base : flash_base kernel_dir (entry 0) = BOARD_FLASH_BASE_ADDR + 0x40000 := by
  unfold kernel_dir
  rw [(fis_set_spec (by decide)).1, flash_base, load32_store32_same (by decide)]
  decide

theorem zero_file_size {got_size : ℕ} (h : got_size < 2 ^ 31) :
    image_size (BOARD_FLASH_BASE_ADDR + 0x40000) (zero_file got_size h) = got_size :=
  if_neg fun hs => absurd hs.1 (by decide)

/-- Both ways take a kernel that fits. -/
theorem zero_file_accepted (got_size : ℕ) (h : got_size < 2 ^ 31) (hle : got_size ≤ 0x2C0000) :
    ConsoleAccepts (BOARD_FLASH_BASE_ADDR + 0x40000) 0x2C0000 (zero_file got_size h) ⟨true, false⟩ ∧
      WebAccepts (BOARD_FLASH_BASE_ADDR + 0x40000) 0x2C0000 (zero_file got_size h) := by
  have hboot : BOARD_FLASH_BASE_ADDR + 0x40000 ≠ BOARD_FLASH_BOOT_ADDR := by decide
  have hle : (got_size : ℤ) ≤ 0x2C0000 := by exact_mod_cast hle
  exact ⟨⟨fun _ => hle, fun hb => absurd hb hboot, fun hb => absurd hb hboot, rfl⟩,
    ⟨fun hb => absurd hb hboot, fun _ => (zero_file_size h).trans_le hle⟩⟩

theorem ui_download_ideal_successful (h : ConsoleAccepts destp max_size u c) :
    (ui_download ideal B st destp max_size max_size u c).2 = .successful (image_size destp u) := by
  rw [ui_download_of_accepts h]
  dsimp only
  rw [program_retry_ideal]
  rfl

theorem web_program_ideal_successful (h : WebAccepts destp max_size u) :
    (web_program ideal B st destp max_size max_size u).2 = .successful (image_size destp u) := by
  rw [web_program_of_accepts h]
  dsimp only
  rw [program_retry_ideal]
  rfl

/-- A kernel of 100 bytes: the two entries hold the two lengths the other way
round. -/
theorem upgrades_disagree :
    let st : UpgradeState ByteMem := ⟨fun _ => 0xff, kernel_dir⟩
    let u := zero_file 100 (by decide)
    let destp := BOARD_FLASH_BASE_ADDR + 0x40000
    (ui_download ideal board16 st destp 0x2C0000 0x2C0000 u ⟨true, false⟩).2 = .successful 100 ∧
    (web_program ideal board16 st destp 0x2C0000 0x2C0000 u).2 = .successful 100 ∧
    ¬ Agree destp (erased_size destp 0x2C0000 u) 0
      (ui_download ideal board16 st destp 0x2C0000 0x2C0000 u ⟨true, false⟩).1
      (web_program ideal board16 st destp 0x2C0000 0x2C0000 u).1 := by
  obtain ⟨hc, hw⟩ := zero_file_accepted 100 (by decide) (by decide)
  refine ⟨ui_download_ideal_successful hc, web_program_ideal_successful hw, ?_⟩
  rw [agree_recorded (by decide) kernel_dir_base (by decide) hc hw (by decide) (by decide)
    (by decide)]
  decide

end CsBoot.Ui
