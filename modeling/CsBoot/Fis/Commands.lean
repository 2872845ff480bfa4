/-
The commands of the console on the FIS directory, `src/src/sys/sys_fis.c`, in every build.

What is typed comes from `ui_gets` of `src/src/ui/ui_lib.c`: a name is up to 16
characters, as many as there are in the field of an entry, and the final zero is one
more. In an entry it goes to the first byte of `flash_base`, which is then written.

An image that is created or overwritten is programmed by `ui_download`, which records it
in the directory before the entry itself is written. Under the name of the directory an
image that fits is not given an entry: the directory is read back from the flash.

The numbers that are typed are taken as they come out of `str2hex`. Printing is left out.
-/
import CsBoot.Fis.Create
import CsBoot.Ui.FailedUpgrade

set_option autoImplicit false

namespace CsBoot.Fis

open ByteMem Ui.Build

/-! ## `ui_gets` -/

def ARROW_L : UInt8 := 0xf3
def KEY_ESC : UInt8 := 0x1b

/-- The loop of `ui_gets` on an empty buffer of `size` bytes, with what has been typed so
far. It returns nothing when it is left with 0, and has not returned when there are no
more keys. -/
def ui_gets (size : ℕ) : List UInt8 → List UInt8 → Option (List UInt8)
  | _, [] => none
  | buf, key :: keys =>
    if key = 0x0d ∨ key = 0x0a then if buf = [] then none else some buf
    else if key = 0x03 ∨ key = KEY_ESC then none
    else if key = 0x08 ∨ key = ARROW_L then ui_gets size buf.dropLast keys
    else if 0x20 ≤ key ∧ key ≤ 0x7f then
      ui_gets size (if buf.length < size then buf ++ [key] else buf) keys
    else ui_gets size buf keys

def FIS_NAME_SIZE : ℕ := 16

/-- A name that can be typed. -/
structure FisName where
  chars : List UInt8
  ne_nil : chars ≠ []
  length_le : chars.length ≤ FIS_NAME_SIZE
  printable : ∀ c ∈ chars, 0x20 ≤ c ∧ c ≤ 0x7f

section Typed

variable {size : ℕ} {buf name keys : List UInt8}

/-- A printable key has no other meaning. -/
theorem printable_key {key : UInt8} (h : 0x20 ≤ key ∧ key ≤ 0x7f) :
    ¬ (key = 0x0d ∨ key = 0x0a) ∧ ¬ (key = 0x03 ∨ key = KEY_ESC) ∧
      ¬ (key = 0x08 ∨ key = ARROW_L) := by
  obtain ⟨hlo, hhi⟩ := h
  refine ⟨?_, ?_, ?_⟩
  · rintro (rfl | rfl)
    · exact absurd hlo (by decide)
    · exact absurd hlo (by decide)
  · rintro (rfl | rfl)
    · exact absurd hlo (by decide)
    · exact absurd hlo (by decide)
  · rintro (rfl | rfl)
    · exact absurd hlo (by decide)
    · exact absurd hhi (by decide)

/-- What `ui_gets` returns has room in the buffer and is printable, -/
theorem ui_gets_typed (hlen : buf.length ≤ size) (hbuf : ∀ c ∈ buf, 0x20 ≤ c ∧ c ≤ 0x7f)
    (h : ui_gets size buf keys = some name) :
    name ≠ [] ∧ name.length ≤ size ∧ ∀ c ∈ name, 0x20 ≤ c ∧ c ≤ 0x7f := by
  induction keys generalizing buf with
  | nil => cases h
  | cons key keys ih =>
      rw [ui_gets] at h
      split_ifs at h with hend hempty hesc hback hkey hroom
      · cases h
        exact ⟨hempty, hlen, hbuf⟩
      · refine ih ?_ (fun c hc => hbuf c (List.mem_of_mem_dropLast hc)) h
        rw [List.length_dropLast]
        omega
      · refine ih ?_ ?_ h
        · rw [List.length_append]
          exact hroom
        · intro c hc
          obtain hc | hc := List.mem_append.mp hc
          · exact hbuf c hc
          · rw [List.mem_singleton.mp hc]
            exact hkey
      · exact ih hlen hbuf h
      · exact ih hlen hbuf h

/-- and every such text is returned when it is typed. -/
theorem ui_gets_type (hlen : buf.length + name.length ≤ size)
    (hname : ∀ c ∈ name, 0x20 ≤ c ∧ c ≤ 0x7f) (hne : buf ++ name ≠ []) :
    ui_gets size buf (name ++ [0x0d]) = some (buf ++ name) := by
  induction name generalizing buf with
  | nil =>
      rw [List.append_nil] at hne ⊢
      rw [List.nil_append, ui_gets, if_pos (.inl rfl), if_neg hne]
  | cons c cs ih =>
      obtain ⟨hend, hesc, hback⟩ := printable_key (hname c List.mem_cons_self)
      rw [List.length_cons] at hlen
      rw [List.cons_append, ui_gets, if_neg hend, if_neg hesc, if_neg hback,
        if_pos (hname c List.mem_cons_self), if_pos (by omega), ih]
      · rw [List.append_assoc, List.singleton_append]
      · rw [List.length_append, List.length_singleton]
        omega
      · exact fun d hd => hname d (List.mem_cons_of_mem _ hd)
      · rw [List.append_assoc]
        exact List.append_ne_nil_of_right_ne_nil _ (List.cons_ne_nil _ _)

end Typed

/-! ## The build -/

/-- What the preprocessor knows of the images, and the size of the NAND flash in MiB. -/
structure FisBuild extends UpgradeBuild where
  BOARD_SUPPORT_TWO_CPU : Bool
  NETBSD : Bool
  info_flash_1 : ℕ
  BOARD_FLASH_BOOT_SIZE : ℕ
  BOARD_FLASH_BOOTIMG_SIZE : ℕ
  BOARD_FLASH_FISIMG_SIZE : ℕ
  BOARD_FLASH_KERNEL_ADDR : ℕ
  BOARD_KERNEL_SIZE : ℕ
  BOARD_KERNELIMG_SIZE : ℕ
  BOARD_DRAM_KERNEL_ADDR : ℕ
  BOARD_FLASH_CONFIG_ADDR : ℕ
  BOARD_FLASH_CONFIG_SIZE : ℕ
  BOARD_FLASH_CONFIGIMG_SIZE : ℕ
  BOARD_FLASH_RAM_DISK_ADDR : ℕ
  BOARD_RAM_DISK_SIZE : ℕ
  BOARD_RAM_DISKIMG_SIZE : ℕ
  BOARD_DRAM_RAM_DISK_ADDR : ℕ
  BOARD_FLASH_APPS_ADDR : ℕ
  BOARD_APPS_SIZE : ℕ
  BOARD_APPSIMG_SIZE : ℕ
  BOARD_FLASH_CPU2_ADDR : ℕ
  BOARD_CPU2_SIZE : ℕ
  BOARD_CPU2IMG_SIZE : ℕ
  BOARD_DRAM_KERNEL2_ADDR : ℕ
  BOARD_FLASH_CPU2_RD_ADDR : ℕ
  BOARD_CPU2_RD_SIZE : ℕ
  BOARD_CPU2_RDIMG_SIZE : ℕ
  BOARD_DRAM_RAM_DISK2_ADDR : ℕ
  BOARD_ECOS_ADDR : ℕ
  BOARD_ECOSIMG_SIZE : ℕ
  BOARD_FLASH_VCTL_ADDR : ℕ
  BOARD_FLASH_VCTL_SIZE : ℕ
  BOARD_FLASH_VCTLIMG_SIZE : ℕ
  BOARD_RESV_ADDR : ℕ
  BOARD_RESV_SIZE : ℕ
  BOARD_RESVIMG_SIZE : ℕ
  BOARD_DRAM_END : ℕ
  /-- The flash is in front of the last address. -/
  flash_lt : BOARD_FLASH_BASE_ADDR +
    (if BOARD_NAND_BOOT then info_flash_1 <<< 20 else BOARD_FLASH_SIZE) < 0xffffffff

section Default

variable (b : FisBuild) (ipaddr netmask gateway : ℕ)

/-- `BOARD_FIS_CONFIG_NAME` -/
def config_name (nand : Bool) : List UInt8 :=
  if nand then Nor.ascii ['C', 'o', 'n', 'f', 'i', 'g', 'u', 'r', 'e']
  else Nor.ascii ['C', 'u', 'r', 'C', 'o', 'n', 'f']

/-- The entries of `fis_create_default`, in their order. -/
def build_images : List Image :=
  let data_length := fun img size => if b.BOARD_NAND_BOOT then img else size
  [⟨BOARD_FIS_BOOT_NAME, BOARD_FLASH_BOOT_ADDR, 0, b.BOARD_FLASH_BOOT_SIZE, 0,
      data_length b.BOARD_FLASH_BOOTIMG_SIZE b.BOARD_FLASH_BOOT_SIZE,
      sprintf_ip ipaddr ++ sprintf_ip netmask ++ sprintf_ip gateway⟩,
    ⟨BOARD_FIS_DIRECTORY_NAME, b.BOARD_FLASH_FIS_ADDR, 0, b.BOARD_FLASH_FIS_SIZE, 0,
      data_length b.BOARD_FLASH_FISIMG_SIZE b.BOARD_FLASH_FIS_SIZE, []⟩,
    ⟨Nor.BOARD_FIS_KERNEL_NAME, b.BOARD_FLASH_KERNEL_ADDR, b.BOARD_DRAM_KERNEL_ADDR,
      b.BOARD_KERNEL_SIZE, b.BOARD_DRAM_KERNEL_ADDR,
      data_length b.BOARD_KERNELIMG_SIZE b.BOARD_KERNEL_SIZE, []⟩] ++
  (if b.BOARD_SUPPORT_TWO_CPU then [] else
    [⟨config_name b.BOARD_NAND_BOOT, b.BOARD_FLASH_CONFIG_ADDR, 0, b.BOARD_FLASH_CONFIG_SIZE, 0,
      data_length b.BOARD_FLASH_CONFIGIMG_SIZE b.BOARD_FLASH_CONFIG_SIZE, []⟩]) ++
  (if b.NETBSD then [] else
    [⟨Nor.BOARD_FIS_RAM_DISK_NAME, b.BOARD_FLASH_RAM_DISK_ADDR, b.BOARD_DRAM_RAM_DISK_ADDR,
        b.BOARD_RAM_DISK_SIZE, b.BOARD_DRAM_RAM_DISK_ADDR,
        data_length b.BOARD_RAM_DISKIMG_SIZE b.BOARD_RAM_DISK_SIZE, []⟩,
      ⟨Nor.BOARD_FIS_APPS_NAME, b.BOARD_FLASH_APPS_ADDR, 0, b.BOARD_APPS_SIZE, 0,
        data_length b.BOARD_APPSIMG_SIZE b.BOARD_APPS_SIZE, []⟩] ++
    if b.BOARD_SUPPORT_TWO_CPU then
      [⟨Nor.BOARD_FIS_CPU2_NAME, b.BOARD_FLASH_CPU2_ADDR, b.BOARD_DRAM_KERNEL2_ADDR,
          b.BOARD_CPU2_SIZE, b.BOARD_DRAM_KERNEL2_ADDR,
          data_length b.BOARD_CPU2IMG_SIZE b.BOARD_CPU2_SIZE, []⟩,
        ⟨Nor.BOARD_FIS_RAM_DISK2_NAME, b.BOARD_FLASH_CPU2_RD_ADDR, b.BOARD_DRAM_RAM_DISK2_ADDR,
          b.BOARD_CPU2_RD_SIZE, b.BOARD_DRAM_RAM_DISK2_ADDR,
          data_length b.BOARD_CPU2_RDIMG_SIZE b.BOARD_CPU2_RD_SIZE, []⟩] ++
      if b.BOARD_NAND_BOOT then
        [⟨config_name true, b.BOARD_FLASH_CONFIG_ADDR, 0, b.BOARD_FLASH_CONFIG_SIZE, 0,
            b.BOARD_FLASH_CONFIGIMG_SIZE, []⟩,
          ⟨Nor.ascii ['e', 'C', 'o', 's'], b.BOARD_ECOS_ADDR, 0, b.BOARD_FLASH_CONFIG_SIZE, 0,
            b.BOARD_ECOSIMG_SIZE, []⟩]
      else []
    else []) ++
  [⟨BOARD_FIS_VCTL_NAME, b.BOARD_FLASH_VCTL_ADDR, 0, b.BOARD_FLASH_VCTL_SIZE, 0,
    data_length b.BOARD_FLASH_VCTLIMG_SIZE b.BOARD_FLASH_VCTL_SIZE, []⟩] ++
  (if b.BOARD_NAND_BOOT then
    [⟨Nor.ascii ['R', 'e', 's', 'e', 'r', 'v', 'e', 'd'], b.BOARD_RESV_ADDR, 0, b.BOARD_RESV_SIZE,
      0, b.BOARD_RESVIMG_SIZE, []⟩] else [])

/-- `fis_create_default`, the directory in RAM. -/
def build_default (fis : ByteMem) : ByteMem :=
  fis_create_entries (store_bytes fis 0 (List.replicate (FIS_MAX_ENTRY * FIS_ENTRY_SIZE) 0xff)) 0
    (build_images b ipaddr netmask gateway)

end Default

/-- A board without NAND flash, with 128 MiB of memory. -/
def fis_nor (B : Nor.Board) : FisBuild where
  toUpgradeBuild := nor B
  BOARD_SUPPORT_TWO_CPU := B.BOARD_SUPPORT_TWO_CPU
  NETBSD := false
  info_flash_1 := 0
  BOARD_FLASH_BOOT_SIZE := Nor.BOARD_FLASH_BOOT_SIZE
  BOARD_FLASH_BOOTIMG_SIZE := 0
  BOARD_FLASH_FISIMG_SIZE := 0
  BOARD_FLASH_KERNEL_ADDR := (partitions B).BOARD_FLASH_KERNEL_ADDR
  BOARD_KERNEL_SIZE := (partitions B).BOARD_KERNEL_SIZE
  BOARD_KERNELIMG_SIZE := 0
  BOARD_DRAM_KERNEL_ADDR := Fis.BOARD_DRAM_KERNEL_ADDR
  BOARD_FLASH_CONFIG_ADDR := (partitions B).BOARD_FLASH_CONFIG_ADDR
  BOARD_FLASH_CONFIG_SIZE := (partitions B).BOARD_FLASH_CONFIG_SIZE
  BOARD_FLASH_CONFIGIMG_SIZE := 0
  BOARD_FLASH_RAM_DISK_ADDR := (partitions B).BOARD_FLASH_RAM_DISK_ADDR
  BOARD_RAM_DISK_SIZE := (partitions B).BOARD_RAM_DISK_SIZE
  BOARD_RAM_DISKIMG_SIZE := 0
  BOARD_DRAM_RAM_DISK_ADDR := Fis.BOARD_DRAM_RAM_DISK_ADDR
  BOARD_FLASH_APPS_ADDR := (partitions B).BOARD_FLASH_APPS_ADDR
  BOARD_APPS_SIZE := (partitions B).BOARD_APPS_SIZE
  BOARD_APPSIMG_SIZE := 0
  BOARD_FLASH_CPU2_ADDR := Fis.BOARD_FLASH_CPU2_ADDR
  BOARD_CPU2_SIZE := Fis.BOARD_CPU2_SIZE
  BOARD_CPU2IMG_SIZE := 0
  BOARD_DRAM_KERNEL2_ADDR := Fis.BOARD_DRAM_KERNEL2_ADDR
  BOARD_FLASH_CPU2_RD_ADDR := Fis.BOARD_FLASH_CPU2_RD_ADDR
  BOARD_CPU2_RD_SIZE := Fis.BOARD_CPU2_RD_SIZE
  BOARD_CPU2_RDIMG_SIZE := 0
  BOARD_DRAM_RAM_DISK2_ADDR := Fis.BOARD_DRAM_RAM_DISK2_ADDR
  BOARD_ECOS_ADDR := 0
  BOARD_ECOSIMG_SIZE := 0
  BOARD_FLASH_VCTL_ADDR := (partitions B).BOARD_FLASH_VCTL_ADDR
  BOARD_FLASH_VCTL_SIZE := (partitions B).BOARD_FLASH_VCTL_SIZE
  BOARD_FLASH_VCTLIMG_SIZE := 0
  BOARD_RESV_ADDR := 0
  BOARD_RESV_SIZE := 0
  BOARD_RESVIMG_SIZE := 0
  BOARD_DRAM_END := 128 * 1024 * 1024
  flash_lt := by
    obtain rfl | rfl | rfl := B.cases
    · decide
    · decide
    · decide

/-- Without NAND flash the default directory is that of `Create.lean`. -/
theorem build_default_nor (B : Nor.Board) (ipaddr netmask gateway : ℕ) (fis : ByteMem) :
    build_default (fis_nor B) ipaddr netmask gateway fis =
      fis_create_default B ipaddr netmask gateway fis := by
  obtain rfl | rfl | rfl := B.cases
  · rfl
  · rfl
  · rfl

/-! ## The commands -/

/-- The loop of `fis_get_free_image`, with `n` entries left. -/
def free_loop (fis : ByteMem) : ℕ → ℕ → Option ℕ
  | 0, _ => none
  | n + 1, img =>
    if fis img = 0xff ∨ fis img = 0 ∨ desc_cksum fis img ≠ fis_desc_chksum fis img then some img
    else free_loop fis n (img + FIS_ENTRY_SIZE)

/-- `fis_get_free_image` -/
def fis_get_free_image (fis : ByteMem) : Option ℕ := free_loop fis FIS_MAX_ENTRY (entry 0)

/-- What is typed for an image, and sent. Nothing stands for an input that is given up. -/
structure Answers where
  name : Option FisName
  flash_addr : Option ℕ
  ram_addr : Option ℕ
  entry_point : Option ℕ
  max_size : Option ℕ
  img_size : Option ℕ
  upload : Ui.Upload
  console : Ui.Console

/-- The numbers that are typed, when all of them are accepted. -/
structure Numbers where
  flash_addr : ℕ
  ram_addr : ℕ
  entry_point : ℕ
  max_size : ℕ

/-- The value that `ui_download` returns. -/
def total_size : Ui.Outcome → ℤ
  | .successful got_size => got_size
  | _ => 0

section Commands

variable {σ : Type} (b : FisBuild) (dev : ChipDev σ)

/-- The last address in the flash that is accepted. -/
def flash_end : ℕ :=
  BOARD_FLASH_BASE_ADDR + if b.BOARD_NAND_BOOT then b.info_flash_1 <<< 20 else b.BOARD_FLASH_SIZE

/-- "Size is too large!" -/
def too_large (size : ℕ) : Prop :=
  Ui.int32 size > b.BOARD_FLASH_SIZE -
    (if b.BOARD_NAND_BOOT then b.BOARD_FLASH_BOOTIMG_SIZE else b.BOARD_FLASH_BOOT_SIZE : ℕ)

instance (size : ℕ) : Decidable (too_large b size) := inferInstanceAs (Decidable (_ > _))

/-- "Input Flash Address: " to "Input Max Size: " -/
def ask_numbers (a : Answers) : Option Numbers := do
  let flash_addr ← a.flash_addr
  if flash_addr < BOARD_FLASH_BASE_ADDR ∨ flash_addr > flash_end b then none
  else
    let ram_addr ← a.ram_addr
    if ram_addr > b.BOARD_DRAM_END then none
    else
      let entry_point ← a.entry_point
      if entry_point > b.BOARD_DRAM_END then none
      else
        let max_size ← a.max_size
        if too_large b max_size then none
        else some ⟨flash_addr, ram_addr, entry_point, max_size⟩

/-- What is assigned to an entry. -/
def typed_image (name : FisName) (n : Numbers) (data_length : ℕ) : Image :=
  ⟨name.chars, n.flash_addr, n.ram_addr, n.max_size, n.entry_point, data_length, []⟩

/-- The assignments to an entry, and `fis_write_flash`. -/
def write_image (img : ℕ) (name : FisName) (n : Numbers) (data_length : ℕ) (st : ProgramState σ) :
    ProgramState σ :=
  let fis := fis_create_entry st.fis img (typed_image name n data_length)
  { st with fis := fis, flash := fis_write_flash b.toUpgradeBuild dev st.flash fis }

/-- `strncasecmp(name, ..) == 0` with the name of an image. -/
def is_name (name : FisName) (image : List UInt8) : Prop :=
  name.chars.map toupper = image.map toupper

instance (name : FisName) (image : List UInt8) : Decidable (is_name name image) :=
  inferInstanceAs (Decidable (_ = _))

/-- The directory is read back instead. -/
def loads_directory (name : FisName) (total : ℤ) : Prop :=
  is_name name BOARD_FIS_DIRECTORY_NAME ∧
    (if b.BOARD_NAND_BOOT then b.BOARD_FLASH_FISIMG_SIZE else b.BOARD_FLASH_FIS_SIZE : ℕ) ≥ total

instance (name : FisName) (total : ℤ) : Decidable (loads_directory b name total) :=
  inferInstanceAs (Decidable (_ ∧ _))

/-- `fis_ui_create_image`, with the entry when one is written. -/
def fis_ui_create_image (a : Answers) (st : ProgramState σ) : ProgramState σ × Option ℕ :=
  match a.name with
  | none => (st, none)
  | some name =>
    match (fis_find_image st.fis name.chars).orElse fun _ => fis_get_free_image st.fis with
    | none => (st, none)
    | some img =>
      match ask_numbers b a with
      | none => (st, none)
      | some n =>
        let r := ui_download b.toUpgradeBuild dev st n.flash_addr 0 0 a.upload a.console
        if total_size r.2 > 0 then
          if loads_directory b name (total_size r.2) then
            ({ r.1 with fis := dev.directory r.1.flash }, none)
          else (write_image b dev img name n n.max_size r.1, some img)
        else (r.1, none)

/-- `fis_ui_over_write_image`, with the entry when one is written. -/
def fis_ui_over_write_image (a : Answers) (st : ProgramState σ) : ProgramState σ × Option ℕ :=
  match a.name with
  | none => (st, none)
  | some name =>
    match fis_find_image st.fis name.chars with
    | none => (st, none)
    | some img =>
      match ask_numbers b a with
      | none => (st, none)
      | some n =>
        -- the size of the image is asked for in a NAND build only
        match if b.BOARD_NAND_BOOT then a.img_size else some 0 with
        | none => (st, none)
        | some img_size =>
          if b.BOARD_NAND_BOOT ∧ too_large b img_size then (st, none)
          else
            let r := if b.BOARD_NAND_BOOT then
                ui_download b.toUpgradeBuild dev st n.flash_addr (Ui.int32 img_size)
                  (Ui.int32 n.max_size) a.upload a.console
              else ui_download b.toUpgradeBuild dev st n.flash_addr 0 0 a.upload a.console
            if total_size r.2 > 0 then
              (write_image b dev img name n
                (if b.BOARD_NAND_BOOT then img_size else n.max_size) r.1,
                some img)
            else (r.1, none)

/-- `fis_ui_delete_image`, with the entry when one is cleared. -/
def fis_ui_delete_image (name : Option FisName) (st : ProgramState σ) :
    ProgramState σ × Option ℕ :=
  match name with
  | none => (st, none)
  | some name =>
    match fis_find_image st.fis name.chars with
    | none => (st, none)
    | some img =>
      if is_name name BOARD_FIS_BOOT_NAME ∨ is_name name BOARD_FIS_DIRECTORY_NAME then (st, none)
      else
        let fis := store_bytes st.fis img (List.replicate FIS_ENTRY_SIZE 0)
        ({ st with
            fis := fis
            flash := fis_write_flash b.toUpgradeBuild dev st.flash fis }, some img)

/-- `fis_set_ip_addr` -/
def fis_set_ip_addr (ipaddr netmask gateway : ℕ) (st : ProgramState σ) : ProgramState σ :=
  let fis :=
    match fis_find_image st.fis BOARD_FIS_BOOT_NAME with
    | none => build_default b ipaddr netmask gateway st.fis
    | some img =>
      let fis := store_bytes st.fis (img + 36)
        (sprintf_ip ipaddr ++ sprintf_ip netmask ++ sprintf_ip gateway)
      store32 fis (img + 248) (fis_desc_chksum fis img)
  { st with fis := fis, flash := fis_write_flash b.toUpgradeBuild dev st.flash fis }

/-- A command of the console. -/
inductive FisCommand
  | create (a : Answers)
  | over_write (a : Answers)
  | delete (name : Option FisName)
  | set_ip (ipaddr netmask gateway : ℕ)

def fis_step (st : ProgramState σ) : FisCommand → ProgramState σ
  | .create a => (fis_ui_create_image b dev a st).1
  | .over_write a => (fis_ui_over_write_image b dev a st).1
  | .delete name => (fis_ui_delete_image b dev name st).1
  | .set_ip ipaddr netmask gateway => fis_set_ip_addr b dev ipaddr netmask gateway st

end Commands

end CsBoot.Fis
