/-
The default directory, `fis_create_default` of `src/src/sys/sys_fis.c`, in the
builds without NAND flash (and without `NETBSD`).

The source writes one entry after the other with the same lines; here they are
one function, `fis_create_entry`, and the list of what it is called with. An
entry is created with its checksum, and at a place of its own.
-/
import Mathlib.Data.List.GetD
import CsBoot.Board
import CsBoot.Fis.Directory

set_option autoImplicit false

namespace CsBoot.Fis

open ByteMem Nor

/-! ## The flash maps -/

/-- The places and sizes that depend on the flash map. -/
structure Partitions where
  BOARD_FLASH_KERNEL_ADDR : ℕ
  BOARD_KERNEL_SIZE : ℕ
  BOARD_FLASH_RAM_DISK_ADDR : ℕ
  BOARD_RAM_DISK_SIZE : ℕ
  BOARD_FLASH_APPS_ADDR : ℕ
  BOARD_APPS_SIZE : ℕ
  BOARD_FLASH_VCTL_ADDR : ℕ
  BOARD_FLASH_VCTL_SIZE : ℕ
  BOARD_FLASH_CONFIG_ADDR : ℕ
  BOARD_FLASH_CONFIG_SIZE : ℕ

/-- 8 MiB. -/
def partitions8 : Partitions where
  BOARD_FLASH_KERNEL_ADDR := BOARD_FLASH_BASE_ADDR + 0x40000
  BOARD_KERNEL_SIZE := 0x001c0000
  BOARD_FLASH_RAM_DISK_ADDR := BOARD_FLASH_BASE_ADDR + 0x220000
  BOARD_RAM_DISK_SIZE := 0x00280000
  BOARD_FLASH_APPS_ADDR := BOARD_FLASH_BASE_ADDR + 0x4A0000
  BOARD_APPS_SIZE := 0x00300000
  BOARD_FLASH_VCTL_ADDR := BOARD_FLASH_BASE_ADDR + 0x7A0000
  BOARD_FLASH_VCTL_SIZE := 2 * 64 * 1024
  BOARD_FLASH_CONFIG_ADDR := BOARD_FLASH_BASE_ADDR + 0x7C0000
  BOARD_FLASH_CONFIG_SIZE := 2 * 64 * 1024

/-- 16 MiB. -/
def partitions16 : Partitions where
  BOARD_FLASH_KERNEL_ADDR := BOARD_FLASH_BASE_ADDR + 0x40000
  BOARD_KERNEL_SIZE := 0x002C0000
  BOARD_FLASH_RAM_DISK_ADDR := BOARD_FLASH_BASE_ADDR + 0x320000
  BOARD_RAM_DISK_SIZE := 0x00600000
  BOARD_FLASH_APPS_ADDR := BOARD_FLASH_BASE_ADDR + 0x920000
  BOARD_APPS_SIZE := 0x00600000
  BOARD_FLASH_VCTL_ADDR := BOARD_FLASH_BASE_ADDR + 0xF20000
  BOARD_FLASH_VCTL_SIZE := 2 * 64 * 1024
  BOARD_FLASH_CONFIG_ADDR := BOARD_FLASH_BASE_ADDR + 0xF40000
  BOARD_FLASH_CONFIG_SIZE := 10 * 64 * 1024

/-- 16 MiB with a second CPU, and without a place for the configuration. -/
def partitions16_two_cpu : Partitions where
  BOARD_FLASH_KERNEL_ADDR := BOARD_FLASH_BASE_ADDR + 0x40000
  BOARD_KERNEL_SIZE := 0x00200000
  BOARD_FLASH_RAM_DISK_ADDR := BOARD_FLASH_BASE_ADDR + 0x240000
  BOARD_RAM_DISK_SIZE := 0x00500000
  BOARD_FLASH_APPS_ADDR := BOARD_FLASH_BASE_ADDR + 0x740000
  BOARD_APPS_SIZE := 0x00400000
  BOARD_FLASH_VCTL_ADDR := BOARD_FLASH_BASE_ADDR + 0xFC0000
  BOARD_FLASH_VCTL_SIZE := 2 * 64 * 1024
  BOARD_FLASH_CONFIG_ADDR := 0
  BOARD_FLASH_CONFIG_SIZE := 0

def partitions (B : Board) : Partitions :=
  if B.BOARD_SUPPORT_TWO_CPU then partitions16_two_cpu
  else if B.BOARD_FLASH_SIZE = 8 * 1024 * 1024 then partitions8
  else partitions16

def BOARD_FLASH_CPU2_ADDR : ℕ := BOARD_FLASH_BASE_ADDR + 0xB40000
def BOARD_CPU2_SIZE : ℕ := 0x180000
def BOARD_FLASH_CPU2_RD_ADDR : ℕ := BOARD_FLASH_BASE_ADDR + 0xCC0000
def BOARD_CPU2_RD_SIZE : ℕ := 0x300000

def BOARD_DRAM_KERNEL_ADDR : ℕ := 0x01C00000
def BOARD_DRAM_RAM_DISK_ADDR : ℕ := 0x00800000
def CPU2_RAM_BASE : ℕ := 96 <<< 20
def BOARD_DRAM_KERNEL2_ADDR : ℕ := CPU2_RAM_BASE + 0x1600000
def BOARD_DRAM_RAM_DISK2_ADDR : ℕ := CPU2_RAM_BASE + BOARD_DRAM_RAM_DISK_ADDR

def BOARD_FIS_BOOT_NAME : List UInt8 := ascii ['B', 'O', 'O', 'T']
def BOARD_FIS_DIRECTORY_NAME : List UInt8 :=
  ascii ['F', 'I', 'S', ' ', 'd', 'i', 'r', 'e', 'c', 't', 'o', 'r', 'y']
def BOARD_FIS_CONFIG_NAME : List UInt8 := ascii ['C', 'u', 'r', 'C', 'o', 'n', 'f']
def BOARD_FIS_VCTL_NAME : List UInt8 := ascii ['V', 'C', 'T', 'L']

/-! ## `fis_create_default` -/

/-- What an entry is created with. -/
structure Image where
  name : List UInt8
  flash_base : ℕ
  mem_base : ℕ
  size : ℕ
  entry_point : ℕ
  data_length : ℕ
  data : List UInt8

/-- The bytes of a list, one after the other. -/
def store_bytes (m : ByteMem) (a : ℕ) (l : List UInt8) : ByteMem := fun x =>
  if a ≤ x ∧ x < a + l.length then l.getD (x - a) 0 else m x

/-- `memset` to zero and the assignments that follow. -/
def fis_create_entry (fis : ByteMem) (img : ℕ) (f : Image) : ByteMem :=
  let fis := store_bytes fis img (List.replicate FIS_ENTRY_SIZE 0)
  let fis := store_bytes fis img (f.name ++ [0])
  let fis := store32 fis (img + 16) f.flash_base
  let fis := store32 fis (img + 20) f.mem_base
  let fis := store32 fis (img + 24) f.size
  let fis := store32 fis (img + 28) f.entry_point
  let fis := store32 fis (img + 32) f.data_length
  let fis := store_bytes fis (img + 36) f.data
  store32 fis (img + 248) (fis_desc_chksum fis img)

/-- The entries from `k` on. -/
def fis_create_entries (fis : ByteMem) (k : ℕ) : List Image → ByteMem
  | [] => fis
  | f :: fs => fis_create_entries (fis_create_entry fis (entry k) f) (k + 1) fs

/-- `sprintf (datap, "%d.%d.%d.%d", IP1(ip), IP2(ip), IP3(ip), IP4(ip))`, with
the final zero. -/
def sprintf_ip (ip : ℕ) : List UInt8 :=
  let byte := fun n : ℕ => (Nat.toDigits 10 ((ip >>> n) % 256)).map fun c => UInt8.ofNat c.toNat
  byte 24 ++ 0x2e :: byte 16 ++ 0x2e :: byte 8 ++ 0x2e :: byte 0 ++ [0]

section Default

variable (B : Board) (ipaddr netmask gateway : ℕ)

/-- The entries of `fis_create_default`, in their order. -/
def default_images : List Image :=
  let p := partitions B
  [⟨BOARD_FIS_BOOT_NAME, BOARD_FLASH_BOOT_ADDR, 0, BOARD_FLASH_BOOT_SIZE, 0, BOARD_FLASH_BOOT_SIZE,
      sprintf_ip ipaddr ++ sprintf_ip netmask ++ sprintf_ip gateway⟩,
    ⟨BOARD_FIS_DIRECTORY_NAME, B.BOARD_FLASH_FIS_ADDR, 0, BOARD_FLASH_FIS_SIZE, 0,
      BOARD_FLASH_FIS_SIZE, []⟩,
    ⟨BOARD_FIS_KERNEL_NAME, p.BOARD_FLASH_KERNEL_ADDR, BOARD_DRAM_KERNEL_ADDR, p.BOARD_KERNEL_SIZE,
      BOARD_DRAM_KERNEL_ADDR, p.BOARD_KERNEL_SIZE, []⟩] ++
  (if B.BOARD_SUPPORT_TWO_CPU then [] else
    [⟨BOARD_FIS_CONFIG_NAME, p.BOARD_FLASH_CONFIG_ADDR, 0, p.BOARD_FLASH_CONFIG_SIZE, 0,
      p.BOARD_FLASH_CONFIG_SIZE, []⟩]) ++
  [⟨BOARD_FIS_RAM_DISK_NAME, p.BOARD_FLASH_RAM_DISK_ADDR, BOARD_DRAM_RAM_DISK_ADDR,
      p.BOARD_RAM_DISK_SIZE, BOARD_DRAM_RAM_DISK_ADDR, p.BOARD_RAM_DISK_SIZE, []⟩,
    ⟨BOARD_FIS_APPS_NAME, p.BOARD_FLASH_APPS_ADDR, 0, p.BOARD_APPS_SIZE, 0, p.BOARD_APPS_SIZE,
      []⟩] ++
  (if B.BOARD_SUPPORT_TWO_CPU then
    [⟨BOARD_FIS_CPU2_NAME, BOARD_FLASH_CPU2_ADDR, BOARD_DRAM_KERNEL2_ADDR, BOARD_CPU2_SIZE,
      BOARD_DRAM_KERNEL2_ADDR, BOARD_CPU2_SIZE, []⟩,
    ⟨BOARD_FIS_RAM_DISK2_NAME, BOARD_FLASH_CPU2_RD_ADDR, BOARD_DRAM_RAM_DISK2_ADDR,
      BOARD_CPU2_RD_SIZE, BOARD_DRAM_RAM_DISK2_ADDR, BOARD_CPU2_RD_SIZE, []⟩] else []) ++
  [⟨BOARD_FIS_VCTL_NAME, p.BOARD_FLASH_VCTL_ADDR, 0, p.BOARD_FLASH_VCTL_SIZE, 0,
    p.BOARD_FLASH_VCTL_SIZE, []⟩]

/-- `fis_create_default`, the directory in RAM. -/
def fis_create_default (fis : ByteMem) : ByteMem :=
  fis_create_entries (store_bytes fis 0 (List.replicate (FIS_MAX_ENTRY * FIS_ENTRY_SIZE) 0xff)) 0
    (default_images B ipaddr netmask gateway)

end Default

/-! ## What an entry is after it has been created -/

section Entry

variable {fis fis' m m' : ByteMem} {img a j k : ℕ} {f : Image} {fs : List Image} {l : List UInt8}

/-- The name and the data have room in the entry. -/
def Image.Fits (f : Image) : Prop := f.name.length < 16 ∧ f.data.length ≤ 212

theorem store_bytes_frame {x : ℕ} (hx : x < a ∨ a + l.length ≤ x) : store_bytes m a l x = m x := by
  unfold store_bytes
  rw [if_neg (by omega)]

theorem SameEntry.store_bytes (h : SameEntry img m m') (a : ℕ) (l : List UInt8) :
    SameEntry img (store_bytes m a l) (store_bytes m' a l) := by
  intro i hi
  unfold CsBoot.Fis.store_bytes
  rw [h i hi]

/-- An entry that is created does not depend on what was there. -/
theorem fis_create_entry_congr (fis fis' : ByteMem) (img : ℕ) (f : Image) :
    SameEntry img (fis_create_entry fis img f) (fis_create_entry fis' img f) := by
  have hclear : SameEntry img (store_bytes fis img (List.replicate FIS_ENTRY_SIZE 0))
      (store_bytes fis' img (List.replicate FIS_ENTRY_SIZE 0)) := by
    intro i hi
    have hin : img ≤ img + i ∧
        img + i < img + (List.replicate FIS_ENTRY_SIZE (0 : UInt8)).length := by
      rw [List.length_replicate]
      omega
    unfold store_bytes
    rw [if_pos hin, if_pos hin]
  have hfields := ((((((hclear.store_bytes img (f.name ++ [0])).store32
    (img + 16) f.flash_base).store32 (img + 20) f.mem_base).store32
    (img + 24) f.size).store32 (img + 28) f.entry_point).store32
    (img + 32) f.data_length).store_bytes (img + 36) f.data
  unfold fis_create_entry
  dsimp only
  rw [hfields.chksum_eq]
  exact hfields.store32 _ _

/-- Nothing is changed outside the entry. -/
theorem fis_create_entry_frame_le (hname : f.name.length ≤ 16) (hdata : f.data.length ≤ 212)
    (himg : img + FIS_ENTRY_SIZE ≤ W) {x : ℕ} (hx : x < img ∨ img + FIS_ENTRY_SIZE ≤ x) :
    fis_create_entry fis img f x = fis x := by
  have hlen : (f.name ++ [0]).length ≤ 17 := by
    rw [List.length_append]
    exact Nat.succ_le_succ hname
  unfold FIS_ENTRY_SIZE at *
  unfold fis_create_entry
  rw [store32_frame (by omega) (by omega), store_bytes_frame (by omega),
    store32_frame (by omega) (by omega), store32_frame (by omega) (by omega),
    store32_frame (by omega) (by omega), store32_frame (by omega) (by omega),
    store32_frame (by omega) (by omega), store_bytes_frame (by omega),
    store_bytes_frame (by rw [List.length_replicate]; exact hx)]

theorem fis_create_entry_frame (hf : f.Fits) (himg : img + FIS_ENTRY_SIZE ≤ W) {x : ℕ}
    (hx : x < img ∨ img + FIS_ENTRY_SIZE ≤ x) : fis_create_entry fis img f x = fis x :=
  fis_create_entry_frame_le hf.1.le hf.2 himg hx

/-- The place, also behind a name that fills its field. -/
theorem fis_create_entry_base (himg : img + FIS_ENTRY_SIZE ≤ W) :
    Fis.flash_base (fis_create_entry fis img f) img = f.flash_base % W := by
  have hsize : img + 256 ≤ W := himg
  have hdata_frame : ∀ m : ByteMem,
      load32 (store_bytes m (img + 36) f.data) (img + 16) = load32 m (img + 16) :=
    fun m => load32_congr (by omega) fun i hi => store_bytes_frame (by omega)
  unfold flash_base fis_create_entry
  rw [load32_store32_of_disjoint (by omega) (by omega) (by omega), hdata_frame,
    load32_store32_of_disjoint (by omega) (by omega) (by omega),
    load32_store32_of_disjoint (by omega) (by omega) (by omega),
    load32_store32_of_disjoint (by omega) (by omega) (by omega),
    load32_store32_of_disjoint (by omega) (by omega) (by omega), load32_store32_same (by omega)]

/-- **What an entry is created with**: the place, the lengths and a checksum
that is right. -/
theorem fis_create_entry_spec (hf : f.Fits) (himg : img + FIS_ENTRY_SIZE ≤ W) :
    Fis.flash_base (fis_create_entry fis img f) img = f.flash_base % W ∧
    Fis.size (fis_create_entry fis img f) img = f.size % W ∧
    Fis.data_length (fis_create_entry fis img f) img = f.data_length % W ∧
    desc_cksum (fis_create_entry fis img f) img =
      fis_desc_chksum (fis_create_entry fis img f) img := by
  have hdata := hf.2
  have hsize : img + 256 ≤ W := himg
  -- the fields are in front of the data and of the checksum
  have hword : ∀ {m : ByteMem} {o v : ℕ}, o + 4 ≤ 36 →
      load32 (store32 (store_bytes m (img + 36) f.data) (img + 248) v) (img + o) =
        load32 m (img + o) := fun ho => by
    rw [load32_store32_of_disjoint (by omega) (by omega) (by omega)]
    exact load32_congr (by omega) fun i hi => store_bytes_frame (by omega)
  refine ⟨fis_create_entry_base himg, ?_, ?_, desc_cksum_store himg⟩
  · unfold size fis_create_entry
    rw [hword (by omega), load32_store32_of_disjoint (by omega) (by omega) (by omega),
      load32_store32_of_disjoint (by omega) (by omega) (by omega), load32_store32_same (by omega)]
  · unfold data_length fis_create_entry
    rw [hword (by omega), load32_store32_same (by omega)]

/-- Entry by entry: those that are created, and the others, which stay. -/
theorem fis_create_entries_spec (hfs : ∀ f ∈ fs, f.Fits) (hk : k + fs.length ≤ FIS_MAX_ENTRY) :
    (∀ j, j < FIS_MAX_ENTRY → j < k ∨ k + fs.length ≤ j →
      SameEntry (entry j) (fis_create_entries fis k fs) fis) ∧
    ∀ i (hi : i < fs.length), SameEntry (entry (k + i)) (fis_create_entries fis k fs)
      (fis_create_entry fis (entry (k + i)) fs[i]) := by
  induction fs generalizing fis k with
  | nil => exact ⟨fun _ _ _ _ _ => rfl, fun i hi => absurd hi (Nat.not_lt_zero i)⟩
  | cons f fs ih =>
      rw [List.length_cons] at hk
      obtain ⟨hstay, hmade⟩ := @ih (fis_create_entry fis (entry k) f) (k + 1)
        (fun f hf => hfs f (List.mem_cons_of_mem _ hf)) (by omega)
      rw [fis_create_entries]
      constructor
      · intro j hj hout
        rw [List.length_cons] at hout
        apply (hstay j hj (by omega)).trans
        intro i hi
        apply fis_create_entry_frame (hfs f List.mem_cons_self) (entry_lt (by omega))
        unfold entry FIS_ENTRY_SIZE at *
        omega
      · intro i hi
        rw [List.length_cons] at hi
        cases i with
        | zero => exact hstay k (by omega) (.inl (Nat.lt_succ_self k))
        | succ i =>
            have hi' := hmade i (Nat.lt_of_succ_lt_succ hi)
            rw [Nat.add_assoc, Nat.add_comm 1 i] at hi'
            exact hi'.trans (fis_create_entry_congr _ _ _ _)

end Entry

/-! ## The default directory -/

section Default

variable {B : Board} {ipaddr netmask gateway : ℕ} {fis : ByteMem}

/-- An address has at most three digits four times. -/
theorem length_sprintf_ip (ip : ℕ) : (sprintf_ip ip).length ≤ 16 := by
  have hdigits : ∀ n : ℕ, n < 256 → (Nat.toDigits 10 n).length ≤ 3 := by
    decide +kernel
  have h : ∀ n : ℕ, (Nat.toDigits 10 ((ip >>> n) % 256)).length ≤ 3 := fun n =>
    hdigits _ (Nat.mod_lt _ (by decide))
  have h₃ := h 24
  have h₂ := h 16
  have h₁ := h 8
  have h₀ := h 0
  simp only [sprintf_ip, List.length_append, List.length_map, List.length_cons, List.length_nil]
  omega

theorem default_images_fit : ∀ f ∈ default_images B ipaddr netmask gateway, f.Fits := by
  have hdata : (sprintf_ip ipaddr ++ sprintf_ip netmask ++ sprintf_ip gateway).length ≤ 212 := by
    have := length_sprintf_ip ipaddr
    have := length_sprintf_ip netmask
    have := length_sprintf_ip gateway
    simp only [List.length_append]
    omega
  unfold default_images Image.Fits
  cases B.BOARD_SUPPORT_TWO_CPU
  all_goals
    simp only [Bool.false_eq_true, if_true, if_false, List.forall_mem_append, List.forall_mem_cons]
    and_intros
    all_goals first | decide | exact hdata

/-- The place and the size that the default directory has in entry `j`. -/
def default_place (B : Board) (j : ℕ) : ℕ × ℕ :=
  ((default_images B 0 0 0).map fun f => (f.flash_base % W, f.size % W)).getD j
    (0xffffffff, 0xffffffff)

/-- The data of the boot entry does not matter for it. -/
theorem default_place_eq (B : Board) (ipaddr netmask gateway j : ℕ) : default_place B j =
    ((default_images B ipaddr netmask gateway).map fun f => (f.flash_base % W, f.size % W)).getD j
      (0xffffffff, 0xffffffff) := by
  obtain rfl | rfl | rfl := B.cases
  · rfl
  · rfl
  · rfl

/-- One place has one size, and the boot loader has its own. -/
theorem default_place_apart (B : Board) :
    (∀ i, i < FIS_MAX_ENTRY → ∀ j, j < FIS_MAX_ENTRY →
      (default_place B i).1 = (default_place B j).1 →
        (default_place B i).2 = (default_place B j).2) ∧
    ∀ j, j < FIS_MAX_ENTRY → (default_place B j).1 = BOARD_FLASH_BOOT_ADDR →
      (default_place B j).2 = BOARD_FLASH_BOOT_SIZE := by
  obtain rfl | rfl | rfl := B.cases
  · decide +kernel
  · decide +kernel
  · decide +kernel

theorem length_default_images :
    (default_images B ipaddr netmask gateway).length ≤ FIS_MAX_ENTRY := by
  obtain rfl | rfl | rfl := B.cases
  · exact (by decide : 7 ≤ 24)
  · exact (by decide : 7 ≤ 24)
  · exact (by decide : 8 ≤ 24)

/-- **The default directory**: the images, and behind them what is erased. -/
theorem fis_create_default_spec {j : ℕ} (hj : j < FIS_MAX_ENTRY) :
    let fis' := fis_create_default B ipaddr netmask gateway fis
    Fis.flash_base fis' (entry j) = (default_place B j).1 ∧
    Fis.size fis' (entry j) = (default_place B j).2 ∧
    (j < (default_images B ipaddr netmask gateway).length →
      desc_cksum fis' (entry j) = fis_desc_chksum fis' (entry j)) := by
  dsimp only
  rw [default_place_eq B ipaddr netmask gateway]
  have hfit : ∀ f ∈ default_images B ipaddr netmask gateway, f.Fits := default_images_fit
  have hroom : 0 + (default_images B ipaddr netmask gateway).length ≤ FIS_MAX_ENTRY := by
    rw [Nat.zero_add]
    exact length_default_images
  obtain ⟨hstay, hmade⟩ := @fis_create_entries_spec
    (store_bytes fis 0 (List.replicate (FIS_MAX_ENTRY * FIS_ENTRY_SIZE) 0xff)) 0 _ hfit hroom
  rw [← fis_create_default] at hstay hmade
  have himg := entry_lt hj
  by_cases hlt : j < (default_images B ipaddr netmask gateway).length
  · have h := hmade j hlt
    rw [Nat.zero_add] at h
    obtain ⟨h₁, h₂, -, h₄⟩ := @fis_create_entry_spec
      (store_bytes fis 0 (List.replicate (FIS_MAX_ENTRY * FIS_ENTRY_SIZE) 0xff)) _ _
      (hfit _ (List.getElem_mem hlt)) himg
    rw [List.getD_eq_getElem _ _ (by rwa [List.length_map]), List.getElem_map]
    refine ⟨(h.load32_eq himg (by decide)).trans h₁, (h.load32_eq himg (by decide)).trans h₂,
      ?_⟩
    intro _
    rw [h.chksum_eq, ← h₄]
    exact h.load32_eq himg (by decide)
  · rw [List.getD_eq_default _ _ (by rw [List.length_map]; omega)]
    have herased : SameEntry (entry j) (fis_create_default B ipaddr netmask gateway fis)
        fun _ => 0xff := by
      apply (hstay j hj (.inr (by omega))).trans
      intro i hi
      unfold store_bytes
      rw [List.length_replicate, if_pos (by unfold entry FIS_ENTRY_SIZE FIS_MAX_ENTRY at *; omega)]
      exact List.getD_replicate _ (by unfold entry FIS_ENTRY_SIZE FIS_MAX_ENTRY at *; omega)
    exact ⟨(herased.erased himg).1, (herased.erased himg).2, fun h => absurd h hlt⟩

end Default

end CsBoot.Fis
