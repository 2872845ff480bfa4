/-
The capacity of the partitions over runs of upgrades.

An upgrade writes the entry of its partition back, and the next one takes the
limit of its image from it. So the question is which upgrades leave the sizes in
the directory as they are. For one upgrade this has an exact answer
(`upgrade_keeps_iff`), which does not depend on the flash: the console keeps them
except with a full image, the web only when the image fills its partition. A run
of such upgrades never refuses an image that fits (`upgrades_keep_capacity`).
-/
import CsBoot.Fis.Create
import CsBoot.Lib.Run
import CsBoot.Ui.Agree

set_option autoImplicit false

namespace CsBoot.Ui

open ByteMem Fis Nor

/-- One upgrade. -/
inductive UpgradeOp
  | console (type : ℕ) (u : Upload) (c : Console)
  | web (type : ℕ) (u : Upload)

def UpgradeOp.type : UpgradeOp → ℕ
  | console type _ _ => type
  | web type _ => type

def UpgradeOp.upload : UpgradeOp → Upload
  | console _ u _ => u
  | web _ u => u

section Upgrade

variable {σ : Type} (dev : FlashDev σ) (B : Board)

def upgrade (st : UpgradeState σ) : UpgradeOp → UpgradeState σ × Outcome
  | .console type u c => ui_upgrade dev B st type u c
  | .web type u => web_upgrade dev B st type u

end Upgrade

/-- The sizes of a directory as partitions are created: one place has one size,
and the boot loader has its own. -/
structure Created (fis : ByteMem) : Prop where
  same : ∀ i j, i < FIS_MAX_ENTRY → j < FIS_MAX_ENTRY →
    flash_base fis (entry i) = flash_base fis (entry j) → size fis (entry i) = size fis (entry j)
  boot : ∀ j, j < FIS_MAX_ENTRY → flash_base fis (entry j) = BOARD_FLASH_BOOT_ADDR →
    size fis (entry j) = BOARD_FLASH_BOOT_SIZE

/-- The default directory is as partitions are created. -/
theorem fis_create_default_created (B : Board) (ipaddr netmask gateway : ℕ) (fis : ByteMem) :
    Created (fis_create_default B ipaddr netmask gateway fis) where
  same i j hi hj h := by
    rw [(fis_create_default_spec hi).1, (fis_create_default_spec hj).1] at h
    rw [(fis_create_default_spec hi).2.1, (fis_create_default_spec hj).2.1]
    exact (default_place_apart B).1 i hi j hj h
  boot j hj h := by
    rw [(fis_create_default_spec hj).1] at h
    rw [(fis_create_default_spec hj).2.1]
    exact (default_place_apart B).2 j hj h

/-- The capacity of the partition an image goes to. A full image starts in the
partition of the boot loader. -/
def capacity (type : ℕ) (max_size : ℤ) : ℤ := if type = 2 then BOARD_FLASH_BOOT_SIZE else max_size

/-- The upgrade does not touch the size of a partition: it is refused, or
nothing is recorded, or what is recorded is the capacity. -/
def Keeps (B : Board) (fis : ByteMem) (op : UpgradeOp) : Prop :=
  ∀ destp max_size, upgrade_target B fis op.type = some (destp, max_size) →
    (∃ j, j < FIS_MAX_ENTRY ∧ flash_base fis (entry j) = destp) →
    match op with
    | .console type u c => ConsoleAccepts destp max_size u c →
        image_size destp u ≤ 0 ∨ image_size destp u = B.BOARD_FLASH_SIZE ∨ type ≠ 2
    | .web type u => WebAccepts destp max_size u →
        image_size destp u ≤ 0 ∨ image_size destp u = B.BOARD_FLASH_SIZE ∨
          image_size destp u = capacity type max_size

/-! ## Words and integers -/

theorem int32_range {s : ℕ} (hs : s < W) : -2 ^ 31 ≤ int32 s ∧ int32 s < 2 ^ 31 := by
  unfold int32 W at *
  split <;> omega

/-- An `int` that is stored in a word is read back. -/
theorem u32_eq_iff {z : ℤ} {s : ℕ} (hz : -2 ^ 31 ≤ z ∧ z < 2 ^ 31) (hs : s < W) :
    u32 z % W = s ↔ int32 s = z := by
  unfold u32 int32 W at *
  split <;> omega

/-! ## The target of an upgrade -/

section Target

variable {B : Board} {fis fis' : ByteMem} {type destp j : ℕ} {max_size : ℤ}

theorem flash_size_le (B : Board) : (BOARD_FLASH_BOOT_SIZE : ℤ) < B.BOARD_FLASH_SIZE ∧
    (B.BOARD_FLASH_SIZE : ℤ) < 2 ^ 31 := by
  obtain rfl | rfl | rfl := B.cases
  · decide
  · decide
  · decide

/-- The three kinds of target. -/
theorem upgrade_target_cases (ht : upgrade_target B fis type = some (destp, max_size)) :
    (type = 0 ∧ destp = BOARD_FLASH_BOOT_ADDR ∧ max_size = BOARD_FLASH_BOOT_SIZE) ∨
    (type = 2 ∧ destp = BOARD_FLASH_BOOT_ADDR ∧ max_size = B.BOARD_FLASH_SIZE) ∨
    (type ≠ 2 ∧ ∃ j, j < FIS_MAX_ENTRY ∧ destp = flash_base fis (entry j) ∧
      max_size = int32 (size fis (entry j))) := by
  unfold upgrade_target at ht
  split at ht
  · cases ht
    exact .inl ⟨rfl, rfl, rfl⟩
  · cases ht
    exact .inr (.inl ⟨rfl, rfl, rfl⟩)
  · rename_i _ htype
    obtain ⟨img, himg, h⟩ := Option.map_eq_some_iff.mp ht
    cases h
    refine .inr (.inr ⟨htype, ?_⟩)
    -- every named image is looked up in the directory
    have hfind : ∃ name, fis_find_image fis name = some img := by
      unfold named_image at himg
      split at himg
      · exact ⟨_, himg⟩
      · exact ⟨_, himg⟩
      · exact ⟨_, himg⟩
      · split at himg
        · exact ⟨_, himg⟩
        · cases himg
      · split at himg
        · exact ⟨_, himg⟩
        · cases himg
      · cases himg
    obtain ⟨name, hname⟩ := hfind
    obtain ⟨j, hj, rfl⟩ := fis_find_image_entry hname
    exact ⟨j, hj, rfl, rfl⟩

theorem upgrade_target_range (ht : upgrade_target B fis type = some (destp, max_size)) :
    -2 ^ 31 ≤ max_size ∧ max_size < 2 ^ 31 := by
  have hB := flash_size_le B
  obtain ⟨-, -, rfl⟩ | ⟨-, -, rfl⟩ | ⟨-, j, -, -, rfl⟩ := upgrade_target_cases ht
  · decide
  · omega
  · exact int32_range (size_lt _ _)

/-- The limit of an image is at least the capacity. -/
theorem capacity_le (ht : upgrade_target B fis type = some (destp, max_size)) :
    capacity type max_size ≤ max_size := by
  unfold capacity
  split
  · have hB := flash_size_le B
    obtain ⟨htype, -, -⟩ | ⟨-, -, rfl⟩ | ⟨htype, -⟩ := upgrade_target_cases ht
    · omega
    · omega
    · omega
  · exact le_rfl

/-- In a directory as created, the capacity stands in the entries. -/
theorem Created.capacity_eq (hc : Created fis)
    (ht : upgrade_target B fis type = some (destp, max_size)) (hj : j < FIS_MAX_ENTRY)
    (hbase : flash_base fis (entry j) = destp) :
    int32 (size fis (entry j)) = capacity type max_size := by
  unfold capacity
  obtain ⟨rfl, rfl, rfl⟩ | ⟨rfl, rfl, rfl⟩ | ⟨htype, i, hi, rfl, rfl⟩ := upgrade_target_cases ht
  · rw [hc.boot j hj hbase]
    rfl
  · rw [hc.boot j hj hbase]
    rfl
  · rw [if_neg htype, hc.same j i hj hi hbase]

/-- Only the places and the sizes matter. -/
theorem Created.congr (hc : Created fis)
    (hbase : ∀ j, j < FIS_MAX_ENTRY → flash_base fis' (entry j) = flash_base fis (entry j))
    (hsize : ∀ j, j < FIS_MAX_ENTRY → size fis' (entry j) = size fis (entry j)) :
    Created fis' where
  same i j hi hj h := by
    rw [hsize i hi, hsize j hj]
    exact hc.same i j hi hj (by rwa [hbase i hi, hbase j hj] at h)
  boot j hj h := by
    rw [hsize j hj]
    exact hc.boot j hj (by rwa [hbase j hj] at h)

/-- What is recorded keeps the sizes when it is the capacity. -/
theorem Created.record_keeps_iff (hc : Created fis)
    (ht : upgrade_target B fis type = some (destp, max_size)) {z : ℤ}
    (hz : -2 ^ 31 ≤ z ∧ z < 2 ^ 31) (len : ℕ) :
    (∀ j, j < FIS_MAX_ENTRY →
      size (fis_record fis destp len (u32 z) FIS_MAX_ENTRY) (entry j) = size fis (entry j)) ↔
    ((∃ j, j < FIS_MAX_ENTRY ∧ flash_base fis (entry j) = destp) → capacity type max_size = z) := by
  constructor
  · rintro h ⟨j, hj, hbase⟩
    have hj' := h j hj
    rw [((fis_record_spec hj).2.1 hbase).2.1, u32_eq_iff hz (size_lt _ _)] at hj'
    rw [← hc.capacity_eq ht hj hbase, hj']
  · intro h j hj
    by_cases hbase : flash_base fis (entry j) = destp
    · rw [((fis_record_spec hj).2.1 hbase).2.1, u32_eq_iff hz (size_lt _ _),
        hc.capacity_eq ht hj hbase]
      exact h ⟨j, hj, hbase⟩
    · exact ((fis_record_spec hj).2.2 hbase).load32_eq (entry_lt hj) (by decide)

end Target

/-! ## One upgrade -/

section Step

variable {σ : Type} {dev : FlashDev σ} {B : Board} {st : UpgradeState σ} {type destp j : ℕ}
  {max_size : ℤ} {u : Upload} {c : Console} {op : UpgradeOp}

/-- The upgrade writes the directory back. -/
def Records (B : Board) (destp : ℕ) (max_size : ℤ) : UpgradeOp → Prop
  | .console _ u c => ConsoleAccepts destp max_size u c ∧
      (image_size destp u > 0 ∧ image_size destp u ≠ B.BOARD_FLASH_SIZE) ∧
      destp ≠ B.BOARD_FLASH_FIS_ADDR
  | .web _ u => WebAccepts destp max_size u ∧
      image_size destp u > 0 ∧ image_size destp u ≠ B.BOARD_FLASH_SIZE

/-- The size it records: the console the limit, the web the length. -/
def recorded_size (destp : ℕ) (max_size : ℤ) : UpgradeOp → ℤ
  | .console _ _ _ => max_size
  | .web _ u => image_size destp u

/-- What an upgrade does to the directory. -/
theorem upgrade_fis (dev : FlashDev σ)
    (ht : upgrade_target B st.fis op.type = some (destp, max_size)) :
    (Records B destp max_size op → ∃ len, (upgrade dev B st op).1.fis =
      fis_record st.fis destp len (u32 (recorded_size destp max_size op)) FIS_MAX_ENTRY) ∧
    (¬ Records B destp max_size op → (upgrade dev B st op).1.fis = st.fis) := by
  cases op with
  | console type u c =>
      have hstep : upgrade dev B st (.console type u c) =
          ui_download dev B st destp max_size max_size u c := by
        rw [upgrade, ui_upgrade, show upgrade_target B st.fis type = _ from ht]
      rw [hstep]
      by_cases ha : ConsoleAccepts destp max_size u c
      · rw [ui_download_of_accepts ha]
        dsimp only
        constructor
        · rintro ⟨-, h⟩
          exact ⟨u32 (image_size destp u), by rw [if_pos h, recorded_size]⟩
        · intro h
          rw [if_neg fun h' => h ⟨ha, h'⟩]
      · rw [(ui_download_of_not_accepts ha).1]
        exact ⟨fun h => absurd h.1 ha, fun _ => rfl⟩
  | web type u =>
      have hstep : upgrade dev B st (.web type u) =
          web_program dev B st destp max_size max_size u := by
        rw [upgrade, web_upgrade, show upgrade_target B st.fis type = _ from ht]
      rw [hstep]
      by_cases ha : WebAccepts destp max_size u
      · rw [web_program_of_accepts ha]
        dsimp only
        constructor
        · rintro ⟨-, h⟩
          exact ⟨u32 max_size, by rw [if_pos h, recorded_size]⟩
        · intro h
          rw [if_neg fun h' => h ⟨ha, h'⟩]
      · rw [(web_program_of_not_accepts ha).1]
        exact ⟨fun h => absurd h.1 ha, fun _ => rfl⟩

/-- Without a target nothing happens. -/
theorem upgrade_of_no_target (ht : upgrade_target B st.fis op.type = none) :
    upgrade dev B st op = (st, .no_image) := by
  cases op with
  | console type u c =>
      rw [upgrade, ui_upgrade, show upgrade_target B st.fis type = none from ht]
  | web type u =>
      rw [upgrade, web_upgrade, show upgrade_target B st.fis type = none from ht]

/-- The places of the images stay. -/
theorem upgrade_flash_base (hj : j < FIS_MAX_ENTRY) :
    flash_base (upgrade dev B st op).1.fis (entry j) = flash_base st.fis (entry j) := by
  rcases ht : upgrade_target B st.fis op.type with _ | ⟨destp, max_size⟩
  · rw [upgrade_of_no_target ht]
  · obtain ⟨h₁, h₂⟩ := upgrade_fis dev ht
    by_cases h : Records B destp max_size op
    · obtain ⟨len, hfis⟩ := h₁ h
      rw [hfis, (fis_record_spec hj).1]
    · rw [h₂ h]

/-- What is recorded is an `int`. -/
theorem recorded_size_range (ht : upgrade_target B st.fis op.type = some (destp, max_size))
    (h : Records B destp max_size op) :
    -2 ^ 31 ≤ recorded_size destp max_size op ∧ recorded_size destp max_size op < 2 ^ 31 := by
  cases op with
  | console type u c => exact upgrade_target_range ht
  | web type u =>
      obtain ⟨-, hpos, -⟩ := h
      have hle := image_size_le u destp
      have hint := u.int
      rw [recorded_size]
      omega

/-- The limit is the capacity, except of a full image. -/
theorem capacity_eq_iff (ht : upgrade_target B st.fis type = some (destp, max_size)) :
    capacity type max_size = max_size ↔ type ≠ 2 := by
  have hB := flash_size_le B
  unfold capacity
  obtain ⟨rfl, -, rfl⟩ | ⟨rfl, -, rfl⟩ | ⟨htype, -⟩ := upgrade_target_cases ht
  · decide
  · rw [if_pos rfl]
    omega
  · exact iff_of_true (if_neg htype) htype

/-- The guard, once the target is known. -/
theorem keeps_iff (ht : upgrade_target B st.fis op.type = some (destp, max_size)) :
    Keeps B st.fis op ↔ ((∃ j, j < FIS_MAX_ENTRY ∧ flash_base st.fis (entry j) = destp) →
      Records B destp max_size op →
        capacity op.type max_size = recorded_size destp max_size op) := by
  have htarget : ∀ {P : ℕ → ℤ → Prop},
      (∀ d m, upgrade_target B st.fis op.type = some (d, m) → P d m) ↔ P destp max_size := by
    intro P
    rw [ht]
    exact ⟨fun h => h _ _ rfl, by rintro h d m ⟨⟩; exact h⟩
  unfold Keeps
  rw [htarget]
  apply imp_congr_right
  intro _
  cases op with
  | console type u c =>
      rw [recorded_size,
        show capacity (UpgradeOp.console type u c).type max_size = max_size ↔ _ from
        capacity_eq_iff ht]
      constructor
      · rintro hk ⟨ha, ⟨hpos, hfull⟩, -⟩
        exact ((hk ha).resolve_left (by omega)).resolve_left hfull
      · intro hk ha
        by_contra hn
        rw [not_or, not_or, not_le] at hn
        obtain ⟨hpos, hfull, htype⟩ := hn
        have htype : type = 2 := not_not.mp htype
        refine hk ⟨ha, ⟨hpos, hfull⟩, ?_⟩ htype
        intro hfis
        -- a full image does not start at the directory
        obtain ⟨-, hboot, -⟩ | ⟨-, hboot, -⟩ | ⟨h₂, -⟩ := upgrade_target_cases ht
        · exact B.fis_ne_boot (hboot.symm.trans hfis)
        · exact B.fis_ne_boot (hboot.symm.trans hfis)
        · exact h₂ htype
  | web type u =>
      constructor
      · rintro hk ⟨ha, hpos, hfull⟩
        exact (((hk ha).resolve_left (by omega)).resolve_left hfull).symm
      · intro hk ha
        by_contra hn
        rw [not_or, not_or, not_le] at hn
        exact hn.2.2 (hk ⟨ha, hn.1, hn.2.1⟩).symm

/-- **Which upgrades keep the sizes.** -/
theorem upgrade_keeps_iff (hc : Created st.fis) :
    (∀ j, j < FIS_MAX_ENTRY →
      size (upgrade dev B st op).1.fis (entry j) = size st.fis (entry j)) ↔ Keeps B st.fis op := by
  rcases ht : upgrade_target B st.fis op.type with _ | ⟨destp, max_size⟩
  · rw [upgrade_of_no_target ht]
    apply iff_of_true (fun _ _ => rfl)
    intro destp max_size h
    rw [ht] at h
    cases h
  · obtain ⟨h₁, h₂⟩ := upgrade_fis dev ht
    rw [keeps_iff ht]
    by_cases h : Records B destp max_size op
    · obtain ⟨len, hfis⟩ := h₁ h
      rw [hfis, hc.record_keeps_iff ht (recorded_size_range ht h)]
      exact imp_congr_right fun _ => ⟨fun hk _ => hk, fun hk => hk h⟩
    · rw [h₂ h]
      exact iff_of_true (fun _ _ => rfl) fun _ hr => absurd hr h

/-- An image is too large for the limit only. -/
theorem upgrade_too_large (ht : upgrade_target B st.fis op.type = some (destp, max_size))
    (h : (upgrade dev B st op).2 = .too_large) : max_size < op.upload.got_size := by
  cases op with
  | console type u c =>
      rw [upgrade, ui_upgrade,
        show upgrade_target B st.fis type = some (destp, max_size) from ht] at h
      by_cases ha : ConsoleAccepts destp max_size u c
      · dsimp only at h
        rw [ui_download_of_accepts ha] at h
        exact absurd h (outcome_ne_too_large _ _)
      · exact (ui_download_of_not_accepts ha).2.2 h
  | web type u =>
      rw [upgrade, web_upgrade,
        show upgrade_target B st.fis type = some (destp, max_size) from ht] at h
      by_cases ha : WebAccepts destp max_size u
      · dsimp only at h
        rw [web_program_of_accepts ha] at h
        exact absurd h (outcome_ne_too_large _ _)
      · exact ((web_program_of_not_accepts ha).2.2 h).trans_le (image_size_le u destp)

end Step

/-! ## Runs -/

/-- **A run of upgrades that keep the sizes**: the sizes are those the
partitions were created with, and then no image that fits is refused as too
large. -/
theorem upgrades_keep_capacity {σ : Type} (dev : FlashDev σ) (B : Board) {st₀ st : UpgradeState σ}
    (hc : Created st₀.fis)
    (hrun : Reaches (fun st op => some (upgrade dev B st op).1) (fun st op => Keeps B st.fis op)
      st₀ st) :
    (∀ j, j < FIS_MAX_ENTRY → size st.fis (entry j) = size st₀.fis (entry j)) ∧
    ∀ (op : UpgradeOp) (destp : ℕ) (max_size : ℤ) (j : ℕ),
      upgrade_target B st.fis op.type = some (destp, max_size) → j < FIS_MAX_ENTRY →
      flash_base st₀.fis (entry j) = destp →
      size st₀.fis (entry j) < 2 ^ 31 → op.upload.got_size ≤ size st₀.fis (entry j) →
      (upgrade dev B st op).2 ≠ .too_large := by
  have hinv : ∀ j, j < FIS_MAX_ENTRY → flash_base st.fis (entry j) = flash_base st₀.fis (entry j) ∧
      size st.fis (entry j) = size st₀.fis (entry j) := by
    -- each upgrade keeps the places, and under the condition the sizes
    refine Reaches.invariant (P := fun st : UpgradeState σ => ∀ j, j < FIS_MAX_ENTRY →
      flash_base st.fis (entry j) = flash_base st₀.fis (entry j) ∧
      size st.fis (entry j) = size st₀.fis (entry j)) (fun _ _ => ⟨rfl, rfl⟩) ?_ hrun
    intro st op st' hst hk hstep j hj
    cases hstep
    have hc' := hc.congr (fun j hj => (hst j hj).1) fun j hj => (hst j hj).2
    rw [upgrade_flash_base hj, (upgrade_keeps_iff hc').mpr hk j hj]
    exact hst j hj
  refine ⟨fun j hj => (hinv j hj).2, ?_⟩
  intro op destp max_size j ht hj hbase hint hfits hlarge
  have hcap := (hc.congr (fun j hj => (hinv j hj).1) fun j hj => (hinv j hj).2).capacity_eq ht hj
    ((hinv j hj).1.trans hbase)
  rw [(hinv j hj).2] at hcap
  have hlt := upgrade_too_large ht hlarge
  have hle := capacity_le ht
  unfold int32 at hcap
  rw [if_pos hint] at hcap
  omega

/-! ## A kernel that is upgraded twice -/

section Kernel

/-- The board with the kernel alone in its directory. -/
def kernel_board : UpgradeState ByteMem := ⟨fun _ => 0xff, kernel_dir⟩

theorem kernel_dir_size : size kernel_dir (entry 0) = 0x2C0000 := by
  have h : size kernel_dir (entry 0) = 0x2C0000 % W := by
    unfold kernel_dir
    exact (fis_set_spec (by decide)).2.2.1
  exact h.trans (Nat.mod_eq_of_lt (by decide))

theorem kernel_dir_free : ∀ j, j < FIS_MAX_ENTRY → j ≠ 0 →
    flash_base kernel_dir (entry j) = 0xffffffff ∧ size kernel_dir (entry j) = 0xffffffff := by
  intro j hj hj₀
  have hfree : SameEntry (entry j) kernel_dir fun _ => 0xff := by
    intro i hi
    unfold entry FIS_MAX_ENTRY FIS_ENTRY_SIZE at *
    unfold kernel_dir
    dsimp only
    rw [fis_set_frame (by decide) (.inr (by unfold entry FIS_ENTRY_SIZE; omega)),
      store32_frame (by decide) (.inr (by unfold entry FIS_ENTRY_SIZE; omega)),
      if_neg (by unfold FIS_ENTRY_SIZE; omega)]
  exact hfree.erased (entry_lt hj)

theorem kernel_dir_created : Created kernel_dir where
  same i j hi hj h := by
    by_cases hi₀ : i = 0
    · by_cases hj₀ : j = 0
      · rw [hi₀, hj₀]
      · rw [hi₀, kernel_dir_base, (kernel_dir_free j hj hj₀).1] at h
        exact absurd h (by decide)
    · by_cases hj₀ : j = 0
      · rw [hj₀, kernel_dir_base, (kernel_dir_free i hi hi₀).1] at h
        exact absurd h (by decide)
      · rw [(kernel_dir_free i hi hi₀).2, (kernel_dir_free j hj hj₀).2]
  boot j hj h := by
    by_cases hj₀ : j = 0
    · rw [hj₀, kernel_dir_base] at h
      exact absurd h (by decide)
    · rw [(kernel_dir_free j hj hj₀).1] at h
      exact absurd h (by decide)

/-- The kernel is found when its name and its checksum are as they should be. -/
theorem kernel_find {fis : ByteMem}
    (hname : ∀ i, i < 16 → fis (entry 0 + i) = kernel_dir (entry 0 + i))
    (hsum : desc_cksum fis (entry 0) = fis_desc_chksum fis (entry 0)) :
    fis_find_image fis BOARD_FIS_KERNEL_NAME = some (entry 0) := by
  have hbyte : ∀ i, i ≤ BOARD_FIS_KERNEL_NAME.length →
      fis (entry 0 + i) = BOARD_FIS_KERNEL_NAME.getD i 0 := by
    intro i hi
    have hi : i ≤ 6 := hi
    rw [hname i (by omega)]
    unfold kernel_dir
    rw [fis_set_name (by decide) (by omega), store32_frame (by decide) (.inl (by omega)),
      show entry 0 + i = i from Nat.zero_add i, if_pos (by unfold FIS_ENTRY_SIZE; omega)]
  refine fis_find_image_first ?_ ?_ hsum
  · rw [← Nat.add_zero (entry 0), hbyte 0 (Nat.zero_le _)]
    decide
  · have hcongr : strncasecmp BOARD_FIS_KERNEL_NAME fis (entry 0) =
        strncasecmp BOARD_FIS_KERNEL_NAME (fun a => BOARD_FIS_KERNEL_NAME.getD (a - entry 0) 0)
          (entry 0) :=
      strncasecmp_congr fun i hi => by rw [hbyte i hi, Nat.add_sub_cancel_left]
    rw [hcongr]
    decide

/-- The target of a kernel. -/
theorem kernel_target {fis : ByteMem}
    (hname : ∀ i, i < 16 → fis (entry 0 + i) = kernel_dir (entry 0 + i))
    (hsum : desc_cksum fis (entry 0) = fis_desc_chksum fis (entry 0)) :
    upgrade_target board16 fis 1 =
      some (flash_base fis (entry 0), int32 (size fis (entry 0))) := by
  unfold upgrade_target named_image
  rw [kernel_find hname hsum]
  rfl

theorem kernel_dir_target :
    upgrade_target board16 kernel_dir 1 = some (BOARD_FLASH_BASE_ADDR + 0x40000, 0x2C0000) := by
  rw [kernel_target (fun _ _ => rfl) ((fis_set_spec (by decide)).2.2.2), kernel_dir_base,
    kernel_dir_size]
  rfl

/-- After an upgrade of the kernel by the web, its size is that of the image. -/
theorem kernel_web (got_size : ℕ) (h : got_size < 2 ^ 31) (hpos : 0 < got_size)
    (hle : got_size ≤ 0x2C0000) :
    upgrade_target board16
        (upgrade ideal board16 kernel_board (.web 1 (zero_file got_size h))).1.fis 1
      = some (BOARD_FLASH_BASE_ADDR + 0x40000, (got_size : ℤ)) ∧
    size (upgrade ideal board16 kernel_board (.web 1 (zero_file got_size h))).1.fis (entry 0) =
      got_size := by
  have hw := (zero_file_accepted got_size h hle).2
  have hrec : Records board16 (BOARD_FLASH_BASE_ADDR + 0x40000) 0x2C0000
      (.web 1 (zero_file got_size h)) := by
    refine ⟨hw, ?_⟩
    rw [zero_file_size, show board16.BOARD_FLASH_SIZE = 0x1000000 from rfl]
    omega
  have ht : upgrade_target board16 kernel_board.fis
      (UpgradeOp.web 1 (zero_file got_size h)).type = _ := kernel_dir_target
  obtain ⟨len, hfis⟩ := (upgrade_fis ideal ht).1 hrec
  rw [hfis, recorded_size, zero_file_size]
  have hu : u32 (got_size : ℤ) % W = got_size := by
    unfold u32 W
    omega
  obtain ⟨hbase, hset, -⟩ := @fis_record_spec kernel_dir 0 (BOARD_FLASH_BASE_ADDR + 0x40000) len
    (u32 got_size) (by decide)
  obtain ⟨-, hsz, hsum⟩ := hset kernel_dir_base
  have hentry : SameEntry (entry 0) (fis_record kernel_dir (BOARD_FLASH_BASE_ADDR + 0x40000) len
      (u32 got_size) FIS_MAX_ENTRY) _ := fis_record_entry le_rfl (by decide)
  rw [if_pos ⟨by decide, kernel_dir_base⟩] at hentry
  rw [hu] at hsz
  refine ⟨?_, hsz⟩
  rw [show kernel_board.fis = kernel_dir from rfl, kernel_target (fun i hi => ?_) hsum, hbase,
    kernel_dir_base, hsz, int32, if_pos h]
  rw [hentry i (by unfold FIS_ENTRY_SIZE; omega), fis_set_name (by decide) (by omega)]

/-- A kernel of 100 bytes through the web leaves 100 bytes for the next one. -/
theorem web_upgrade_shrinks :
    let st := (upgrade ideal board16 kernel_board (.web 1 (zero_file 100 (by decide)))).1
    Created kernel_board.fis ∧ size kernel_board.fis (entry 0) = 0x2C0000 ∧
    size st.fis (entry 0) = 100 ∧
    (upgrade ideal board16 st (.console 1 (zero_file 101 (by decide)) ⟨true, false⟩)).2 =
      .too_large := by
  obtain ⟨ht, hsize⟩ := kernel_web 100 (by decide) (by decide) (by decide)
  refine ⟨kernel_dir_created, kernel_dir_size, hsize, ?_⟩
  rw [upgrade, ui_upgrade, ht]
  rfl

/-- The board with the default directory. -/
def default_board : UpgradeState ByteMem :=
  ⟨fun _ => 0xff, fis_create_default board16 0 0 0 fun _ => 0xff⟩

/-- A kernel that fills its partition may be followed by any that fits, and a boot loader that
fills its partition changes no size of the default directory. -/
theorem upgrades_keep_capacity_kernel :
    (let st := (upgrade ideal board16 kernel_board (.web 1 (zero_file 0x2C0000 (by decide)))).1
     size st.fis (entry 0) = 0x2C0000 ∧
     (upgrade ideal board16 st (.console 1 (zero_file 101 (by decide)) ⟨true, false⟩)).2 ≠
       .too_large) ∧
    let st := (upgrade ideal board16 default_board
      (.web 0 (zero_file BOARD_FLASH_BOOT_SIZE (by decide)))).1
    ∀ j, j < FIS_MAX_ENTRY → size st.fis (entry j) = size default_board.fis (entry j) := by
  constructor
  · have ht := (kernel_web 0x2C0000 (by decide) (by norm_num) le_rfl).1
    have htarget : upgrade_target board16 kernel_board.fis
        (UpgradeOp.web 1 (zero_file 0x2C0000 (by decide))).type = _ := kernel_dir_target
    have hkeeps := (keeps_iff htarget).mpr fun _ _ => by
      rw [recorded_size, zero_file_size]
      rfl
    have hcreated : Created kernel_board.fis := kernel_dir_created
    obtain ⟨hsize, hfits⟩ := upgrades_keep_capacity ideal board16 hcreated
      (.next .start hkeeps rfl)
    refine ⟨(hsize 0 (by decide)).trans kernel_dir_size, ?_⟩
    refine hfits _ _ _ 0 ht (by decide) kernel_dir_base ?_ ?_
    · rw [show kernel_board.fis = kernel_dir from rfl, kernel_dir_size]
      decide
    · rw [show kernel_board.fis = kernel_dir from rfl, kernel_dir_size]
      decide
  · have hcreated : Created default_board.fis := fis_create_default_created board16 0 0 0 _
    have htarget : upgrade_target board16 default_board.fis
        (UpgradeOp.web 0 (zero_file BOARD_FLASH_BOOT_SIZE (by decide))).type = _ := rfl
    have hkeeps := (keeps_iff htarget).mpr fun _ _ =>
      (if_neg fun hs => absurd hs.2 (by decide) :
        image_size BOARD_FLASH_BOOT_ADDR (zero_file BOARD_FLASH_BOOT_SIZE (by decide)) =
          BOARD_FLASH_BOOT_SIZE).symm
    exact (upgrades_keep_capacity ideal board16 hcreated (.next .start hkeeps rfl)).1

end Kernel

end CsBoot.Ui
