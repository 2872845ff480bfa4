/-
What a boot from the FIS directory loads, `src/src/sys/sys_fis.c`.

`Bootable` is what the loop needs of a directory: the images can be read, and lie apart from
each other, from the directory and from the flash. Then the loop is one list of writes into
the memory, one for each entry that is loaded (`loadLoop_iff`). The boot goes by the entries
and the console by their names; in a directory that holds a table of names the two agree
(`Holds.loadable_iff`): what is loaded is what the lookup finds.
-/
import CsBoot.Fis.Boot

set_option autoImplicit false

namespace CsBoot.Fis

open ByteMem Nand RangeStore SkipBlocks Ui.Build

/-! ## The images -/

section Images

variable (B : LoadBoard) (N : ℕ)

/-- How many bytes are loaded. -/
def image_length (fis : ByteMem) (img : ℕ) : ℕ :=
  if nand_type B then data_length fis img else 4 * image_words fis img

/-- The block in which an image begins. -/
def image_block (srce : ℕ) : ℕ := nand_addr B srce / B.flash_dev_info.block_size

/-- Byte `i` of an image, in the memory into which the flash is mapped or in the good blocks of
the NAND flash, which has `N` blocks. -/
def image_byte (m : ByteMem) (srce i : ℕ) : UInt8 :=
  if from_nand B srce then
    (good_data B.flash_dev_info B.chip (image_block B srce) (N - image_block B srce)).getD i 0
  else m (srce + i)

/-- What is written for entry `j`. -/
def image_write (m : ByteMem) (j : ℕ) : Write UInt8 where
  pos := mem_base (directory B m) (entry j)
  len := image_length B (directory B m) (entry j)
  data := image_byte B N m (flash_base (directory B m) (entry j))

/-- The writes of the first `n` passes, the last one first. -/
def image_writes (m : ByteMem) : ℕ → List (Write UInt8)
  | 0 => []
  | n + 1 =>
    if loadable (directory B m) (entry n) then image_write B N m n :: image_writes m n
    else image_writes m n

/-- The entry can be read. From NAND flash it is a whole number of pages, or not more than one
page, from the front of a block on; and words lie at addresses of words. -/
def Readable_image (fis : ByteMem) (j : ℕ) : Prop :=
  let srce := flash_base fis (entry j)
  let len := image_length B fis (entry j)
  if from_nand B srce then
    B.BOARD_NAND_BOOT = true ∧ B.flash_dev_info.block_size ∣ nand_addr B srce ∧ len < 2 ^ 31 ∧
      (len ≤ B.flash_dev_info.page_size ∨ B.flash_dev_info.page_size ∣ len) ∧
      Readable B.flash_dev_info B.chip (B.StatusCheck j) (image_block B srce) len
        (N - image_block B srce)
  else srce + len ≤ W ∧ (nand_type B ∨ 4 ∣ srce ∧ 4 ∣ mem_base fis (entry j))

/-- Where the code of the second processor begins, by the lookup. -/
def cpu2_base_found (fis : ByteMem) : ℕ :=
  match fis_find_image fis Nor.BOARD_FIS_CPU2_NAME with
  | none => B.BOARD_DRAM_CPU2_ADDR
  | some img =>
    if loadable fis img then sub32 (entry_point fis img) B.CPU2_BOOT_OFFSET
    else B.BOARD_DRAM_CPU2_ADDR

/-- The vectors, in the directory's terms, lie apart from themselves and from a range. -/
structure VectorsApart (fis : ByteMem) : Prop where
  source_le : B.exception_handlers + vectors_size B ≤ W
  dest_le : cpu2_base_found B fis + vectors_size B ≤ W
  self : Apart (cpu2_base_found B fis) (vectors_size B) B.exception_handlers (vectors_size B)
  source : ∀ j, j < FIS_MAX_ENTRY → loadable fis (entry j) → Apart (mem_base fis (entry j))
    (image_length B fis (entry j)) B.exception_handlers (vectors_size B)
  dest : ∀ j, j < FIS_MAX_ENTRY → loadable fis (entry j) → Apart (mem_base fis (entry j))
    (image_length B fis (entry j)) (cpu2_base_found B fis) (vectors_size B)

/-- What is loaded can be read, and has places of its own. -/
structure Bootable (m : ByteMem) : Prop where
  directory_le : B.fis_datap + FIS_TOTAL_SIZE ≤ W
  readable : ∀ j, j < FIS_MAX_ENTRY → loadable (directory B m) (entry j) →
    Readable_image B N (directory B m) j
  inside : ∀ j, j < FIS_MAX_ENTRY → loadable (directory B m) (entry j) →
    (image_write B N m j).pos + (image_write B N m j).len ≤ W
  off_directory : ∀ j, j < FIS_MAX_ENTRY → loadable (directory B m) (entry j) →
    Apart (image_write B N m j).pos (image_write B N m j).len B.fis_datap FIS_TOTAL_SIZE
  off_flash : ∀ i j, i < FIS_MAX_ENTRY → j < FIS_MAX_ENTRY →
    loadable (directory B m) (entry i) → loadable (directory B m) (entry j) →
      ¬ from_nand B (flash_base (directory B m) (entry j)) →
        Apart (image_write B N m i).pos (image_write B N m i).len
          (flash_base (directory B m) (entry j)) (image_write B N m j).len
  apart : ∀ i j, i < FIS_MAX_ENTRY → j < FIS_MAX_ENTRY → i ≠ j →
    loadable (directory B m) (entry i) → loadable (directory B m) (entry j) →
      Apart (image_write B N m i).pos (image_write B N m i).len
        (image_write B N m j).pos (image_write B N m j).len
  vectors : has_vectors B → VectorsApart B (directory B m)

end Images

/-! ## The copy -/

section Copy

variable {B : LoadBoard} {N j dst src n : ℕ} {m m' : ByteMem}

theorem int32_toNat (h : n < 2 ^ 31) : (Ui.int32 n).toNat = n := by
  rw [Ui.int32, if_pos h, Int.toNat_natCast]

/-- Data that is read back is what is in front of the good data. -/
theorem getD_of_prefix {buf : ℕ → UInt8} {l : List UInt8} (h : firstBytes buf n <+: l) {i : ℕ}
    (hi : i < n) : buf i = l.getD i 0 := by
  have hlen := h.length_le
  rw [length_firstBytes] at hlen
  have hget := h.getElem (i := i) (by rwa [length_firstBytes])
  rw [List.getD_eq_getElem _ _ (by omega), ← hget]
  simp only [firstBytes, List.getElem_map, List.getElem_range]

/-- **An image in NAND flash** is read by `nand_read`, to the last byte and no further. -/
theorem nandRead_iff (hnand : B.BOARD_NAND_BOOT = true)
    (hblock : B.flash_dev_info.block_size ∣ nand_addr B src) (hn : n < 2 ^ 31)
    (hlen : n ≤ B.flash_dev_info.page_size ∨ B.flash_dev_info.page_size ∣ n)
    (h : Readable B.flash_dev_info B.chip (B.StatusCheck j) (image_block B src) n
      (N - image_block B src)) :
    NandRead B j m dst src n m' ↔ m' = splice m dst n fun i =>
      (good_data B.flash_dev_info B.chip (image_block B src) (N - image_block B src)).getD i 0 := by
  obtain ⟨r, hr, -, hpre, hrest⟩ := h.readsBack hlen fun i => m (dst + i)
  have haddr : image_block B src * B.flash_dev_info.block_size = nand_addr B src :=
    Nat.div_mul_cancel hblock
  rw [haddr] at hr
  -- the buffer is the memory from `dst` on
  have hmem : (fun x => if dst ≤ x then r.buf (x - dst) else m x) = splice m dst n fun i =>
      (good_data B.flash_dev_info B.chip (image_block B src) (N - image_block B src)).getD i 0 := by
    funext x
    by_cases hx : dst ≤ x
    · rw [if_pos hx]
      by_cases hin : x < dst + n
      · rw [splice_inside hx hin]
        exact getD_of_prefix hpre (by omega)
      · rw [splice_outside (.inr (by omega)), hrest _ (by omega), Nat.add_sub_cancel' hx]
    · rw [if_neg hx, splice_outside (.inl (by omega))]
  rw [NandRead, if_pos hnand, int32_toNat hn, ← hmem]
  constructor
  · rintro ⟨r', hr', rfl⟩
    rw [hr'.unique hr]
  · rintro rfl
    exact ⟨r, hr, rfl⟩

end Copy

/-! ## The loop -/

section Loop

variable (B : LoadBoard) (N : ℕ) (m : ByteMem)

/-- The state after the first `n` passes, by what the directory was before the first one. -/
def loaded : ℕ → LoadState
  | 0 => load_start B m
  | n + 1 =>
    let s := loaded n
    let fis := directory B m
    let img := entry n
    if loadable fis img then
      { mem := lastWritten m (image_write B N m n :: image_writes B N m n)
        apps_routine := if s.apps_routine = 0 then entry_point fis img else s.apps_routine
        cpu2_base :=
          if B.BOARD_SUPPORT_TWO_CPU ∧ strncasecmp Nor.BOARD_FIS_CPU2_NAME fis img = 0 then
            sub32 (entry_point fis img) B.CPU2_BOOT_OFFSET
          else s.cpu2_base }
    else s

variable {B N m} {j n x : ℕ} {s' : LoadState}

theorem mem_image_writes {w : Write UInt8} : w ∈ image_writes B N m n ↔
    ∃ j, j < n ∧ loadable (directory B m) (entry j) ∧ w = image_write B N m j := by
  induction n with
  | zero => exact iff_of_false List.not_mem_nil fun ⟨_, hj, _⟩ => absurd hj (Nat.not_lt_zero _)
  | succ n ih =>
      rw [image_writes]
      constructor
      · intro hw
        split_ifs at hw with hload
        · obtain rfl | hw := List.mem_cons.mp hw
          · exact ⟨n, Nat.lt_succ_self n, hload, rfl⟩
          · obtain ⟨j, hj, hrest⟩ := ih.mp hw
            exact ⟨j, by omega, hrest⟩
        · obtain ⟨j, hj, hrest⟩ := ih.mp hw
          exact ⟨j, by omega, hrest⟩
      · rintro ⟨j, hj, hload, rfl⟩
        by_cases hjn : j = n
        · subst hjn
          rw [if_pos hload]
          exact List.mem_cons_self
        · have hmem := ih.mpr ⟨j, by omega, hload, rfl⟩
          split_ifs
          · exact List.mem_cons_of_mem _ hmem
          · exact hmem

theorem loaded_mem : (loaded B N m n).mem = lastWritten m (image_writes B N m n) := by
  induction n with
  | zero => rfl
  | succ n ih =>
      by_cases hload : loadable (directory B m) (entry n)
      · rw [loaded, image_writes, if_pos hload, if_pos hload]
      · rw [loaded, image_writes, if_neg hload, if_neg hload]
        exact ih

/-- The images are not loaded over the directory, -/
theorem Bootable.directory_kept (h : Bootable B N m) (hn : n ≤ FIS_MAX_ENTRY)
    (hj : j < FIS_MAX_ENTRY) : SameEntry (entry j)
      (directory B (lastWritten m (image_writes B N m n))) (directory B m) := by
  intro i hi
  unfold directory
  refine lastWritten_outside fun w hw => ?_
  obtain ⟨k, hk, hload, rfl⟩ := mem_image_writes.mp hw
  exact (h.off_directory k (by omega) hload).outside (entry_add_lt hj hi)

/-- nor over an image that is still to be loaded. -/
theorem Bootable.source_kept (h : Bootable B N m) (hn : n ≤ FIS_MAX_ENTRY) (hj : j < FIS_MAX_ENTRY)
    (hload : loadable (directory B m) (entry j))
    (hmapped : ¬ from_nand B (flash_base (directory B m) (entry j))) {i : ℕ}
    (hi : i < (image_write B N m j).len) :
    lastWritten m (image_writes B N m n) (flash_base (directory B m) (entry j) + i) =
      m (flash_base (directory B m) (entry j) + i) := by
  refine lastWritten_outside fun w hw => ?_
  obtain ⟨k, hk, hload', rfl⟩ := mem_image_writes.mp hw
  exact (h.off_flash k j (by omega) hj hload' hload hmapped).outside hi

/-- **One image** is put where it belongs, as it was in the flash before the loop. -/
theorem Bootable.copy_iff (h : Bootable B N m) (hn : n < FIS_MAX_ENTRY)
    (hload : loadable (directory B m) (entry n)) (m' : ByteMem) :
    let fis := directory B m
    let img := entry n
    let m₁ := lastWritten m (image_writes B N m n)
    (if nand_type B then
        SysMemcpy B n m₁ (mem_base fis img) (flash_base fis img) (data_length fis img) m'
      else m' = copy_words m₁ (mem_base fis img) (flash_base fis img) (image_words fis img)) ↔
      m' = lastWritten m (image_write B N m n :: image_writes B N m n) := by
  have hread := h.readable n hn hload
  have hinside := h.inside n hn hload
  have hapart := h.off_flash n n hn hn hload hload
  have hkept := @Bootable.source_kept B N m n n h hn.le hn hload
  rw [lastWritten_cons]
  dsimp only [Readable_image, image_write] at hread hinside hapart hkept ⊢
  by_cases hnand : from_nand B (flash_base (directory B m) (entry n))
  · -- through `nand_read`
    rw [if_pos hnand, image_length, if_pos hnand.1] at hread
    obtain ⟨hboot, hblock, hlt, hpages, hgood⟩ := hread
    have hbyte : ∀ i, image_byte B N m (flash_base (directory B m) (entry n)) i = _ :=
      fun i => if_pos hnand
    rw [if_pos hnand.1, SysMemcpy, if_pos hnand, nandRead_iff hboot hblock hlt hpages hgood,
      image_length, if_pos hnand.1, funext hbyte]
  · -- out of the memory
    rw [if_neg hnand] at hread
    have hbytes : ∀ d : ByteMem, splice d (mem_base (directory B m) (entry n))
        (image_length B (directory B m) (entry n))
        (image_byte B N m (flash_base (directory B m) (entry n))) =
        splice d (mem_base (directory B m) (entry n)) (image_length B (directory B m) (entry n))
          fun i => lastWritten m (image_writes B N m n)
            (flash_base (directory B m) (entry n) + i) := by
      intro d
      funext x
      refine splice_congr rfl fun i hi => ?_
      rw [hkept hnand hi, image_byte, if_neg hnand]
    rw [hbytes]
    unfold image_length at hread hinside hapart ⊢
    by_cases htype : nand_type B
    · rw [if_pos htype] at hread hinside hapart ⊢
      rw [if_pos htype, SysMemcpy, if_neg hnand, copy_bytes_eq hinside hread.1 (hapart hnand)]
    · rw [if_neg htype] at hread hinside hapart ⊢
      rw [if_neg htype, copy_words_eq hinside hread.1 (hapart hnand)]

/-- **The loop** makes the writes of its entries, and nothing else. -/
theorem Bootable.loadLoop_iff (h : Bootable B N m) (hn : n ≤ FIS_MAX_ENTRY) :
    LoadLoop B (load_start B m) n s' ↔ s' = loaded B N m n := by
  induction n generalizing s' with
  | zero => exact Iff.rfl
  | succ n ih =>
      -- what was loaded before is off the directory, so the entry is read as it was
      have hsame := h.directory_kept (n := n) (by omega) (j := n) (by omega)
      have himg : entry n + FIS_ENTRY_SIZE ≤ W := entry_lt (by omega)
      have hword : ∀ o, o + 4 ≤ FIS_ENTRY_SIZE →
          load32 (directory B (loaded B N m n).mem) (entry n + o) =
            load32 (directory B m) (entry n + o) := by
        intro o ho
        rw [loaded_mem]
        exact hsame.load32_eq himg ho
      rw [LoadLoop]
      simp only [ih (Nat.le_of_succ_le hn), exists_eq_left, LoadsEntry, loaded]
      have hiff : loadable (directory B (loaded B N m n).mem) (entry n) ↔
          loadable (directory B m) (entry n) := by
        rw [loaded_mem]
        exact hsame.loadable_iff himg
      rw [if_congr hiff rfl rfl]
      by_cases hload : loadable (directory B m) (entry n)
      · have hname : strncasecmp Nor.BOARD_FIS_CPU2_NAME
            (directory B (loaded B N m n).mem) (entry n) =
            strncasecmp Nor.BOARD_FIS_CPU2_NAME (directory B m) (entry n) := by
          rw [loaded_mem]
          exact hsame.strncasecmp_eq (by decide)
        have hcopy := h.copy_iff (by omega) hload s'.mem
        rw [if_pos hload, if_pos hload]
        simp only [mem_base, entry_point, flash_base, data_length, image_words, size] at hcopy ⊢
        rw [hname, hword 20 (by decide), hword 28 (by decide), hword 16 (by decide),
          hword 32 (by decide), hword 24 (by decide), loaded_mem, hcopy]
        constructor
        · rintro ⟨hroutine, hbase, hmem⟩
          cases s'
          dsimp only at hroutine hbase hmem
          rw [hroutine, hbase, hmem]
        · rintro rfl
          exact ⟨rfl, rfl, rfl⟩
      · rw [if_neg hload, if_neg hload]

/-- **What a boot leaves**, and that it comes to its end. -/
theorem Bootable.fisLoadImages_iff (h : Bootable B N m) {r : Booted} :
    FisLoadImages B m r ↔ r = boot_of B (loaded B N m FIS_MAX_ENTRY) := by
  unfold FisLoadImages
  simp only [h.loadLoop_iff le_rfl, exists_eq_left]

theorem loaded_succ_routine : (loaded B N m (n + 1)).apps_routine =
    if loadable (directory B m) (entry n) ∧ (loaded B N m n).apps_routine = 0 then
      entry_point (directory B m) (entry n)
    else (loaded B N m n).apps_routine := by
  rw [loaded]
  by_cases hload : loadable (directory B m) (entry n)
  · rw [if_pos hload, if_congr (and_iff_right hload) rfl rfl]
  · rw [if_neg hload, if_neg fun h => hload h.1]

theorem loaded_succ_cpu2 (htwo : B.BOARD_SUPPORT_TWO_CPU = true) :
    (loaded B N m (n + 1)).cpu2_base =
      if loadable (directory B m) (entry n) ∧
          strncasecmp Nor.BOARD_FIS_CPU2_NAME (directory B m) (entry n) = 0 then
        sub32 (entry_point (directory B m) (entry n)) B.CPU2_BOOT_OFFSET
      else (loaded B N m n).cpu2_base := by
  rw [loaded]
  by_cases hload : loadable (directory B m) (entry n)
  · rw [if_pos hload, if_congr (and_iff_right hload) rfl rfl,
      if_congr (and_iff_right htwo) rfl rfl]
  · rw [if_neg hload, if_neg fun h => hload h.1]

/-- The routine is the first entry point, -/
theorem loaded_routine :
    (∀ j, j < n → ¬ loadable (directory B m) (entry j)) ∧ (loaded B N m n).apps_routine = 0 ∨
      ∃ j, j < n ∧ loadable (directory B m) (entry j) ∧
        (∀ i, i < j → ¬ loadable (directory B m) (entry i)) ∧
        (loaded B N m n).apps_routine = entry_point (directory B m) (entry j) := by
  induction n with
  | zero => exact .inl ⟨fun _ hj => absurd hj (Nat.not_lt_zero _), rfl⟩
  | succ n ih =>
      rw [loaded_succ_routine]
      obtain ⟨hnone, hzero⟩ | ⟨j, hj, hload, hfirst, hroutine⟩ := ih
      · by_cases hload : loadable (directory B m) (entry n)
        · rw [if_pos ⟨hload, hzero⟩]
          exact .inr ⟨n, Nat.lt_succ_self n, hload, hnone, rfl⟩
        · rw [if_neg fun h => hload h.1]
          refine .inl ⟨fun j hj => ?_, hzero⟩
          obtain rfl | hlt := Nat.eq_or_lt_of_le (Nat.le_of_lt_succ hj)
          · exact hload
          · exact hnone j hlt
      · -- there is one already, and no entry point is zero
        have hne : (loaded B N m n).apps_routine ≠ 0 := by
          rw [hroutine]
          exact fun hzero => hload.2 (.inr (.inr hzero))
        rw [if_neg fun h => hne h.2]
        exact .inr ⟨j, by omega, hload, hfirst, hroutine⟩

/-- and the code of the second processor goes by an entry with its name. -/
theorem loaded_cpu2 (htwo : B.BOARD_SUPPORT_TWO_CPU = true) :
    (∀ j, j < n → loadable (directory B m) (entry j) →
        strncasecmp Nor.BOARD_FIS_CPU2_NAME (directory B m) (entry j) ≠ 0) ∧
        (loaded B N m n).cpu2_base = B.BOARD_DRAM_CPU2_ADDR ∨
      ∃ j, j < n ∧ loadable (directory B m) (entry j) ∧
        strncasecmp Nor.BOARD_FIS_CPU2_NAME (directory B m) (entry j) = 0 ∧
        (loaded B N m n).cpu2_base =
          sub32 (entry_point (directory B m) (entry j)) B.CPU2_BOOT_OFFSET := by
  induction n with
  | zero => exact .inl ⟨fun _ hj => absurd hj (Nat.not_lt_zero _), rfl⟩
  | succ n ih =>
      rw [loaded_succ_cpu2 htwo]
      by_cases hhere : loadable (directory B m) (entry n) ∧
          strncasecmp Nor.BOARD_FIS_CPU2_NAME (directory B m) (entry n) = 0
      · rw [if_pos hhere]
        exact .inr ⟨n, Nat.lt_succ_self n, hhere.1, hhere.2, rfl⟩
      · rw [if_neg hhere]
        obtain ⟨hnone, heq⟩ | ⟨j, hj, hrest⟩ := ih
        · refine .inl ⟨fun j hj hload hname => ?_, heq⟩
          obtain rfl | hlt := Nat.eq_or_lt_of_le (Nat.le_of_lt_succ hj)
          · exact hhere ⟨hload, hname⟩
          · exact hnone j hlt hload hname
        · exact .inr ⟨j, by omega, hrest⟩

end Loop

/-! ## What is found and what is loaded -/

/-- The lookup finds an image under the name, and it can be loaded: it has places and an entry
point, and is neither the boot loader nor the directory. -/
structure Found (fis : ByteMem) (name : List UInt8) (img : ℕ) : Prop where
  ne_nil : name ≠ []
  found : fis_find_image fis name = some img
  flash_base : flash_base fis img ≠ 0
  mem_base : mem_base fis img ≠ 0
  entry_point : entry_point fis img ≠ 0
  not_boot : fold name ≠ fold BOARD_FIS_BOOT_NAME
  not_directory : fold name ≠ fold BOARD_FIS_DIRECTORY_NAME

section Names

variable {fis : ByteMem} {t : ℕ → Option (List UInt8)} {used i j img : ℕ} {name : List UInt8}

theorem entry_inj : entry i = entry j ↔ i = j := by
  unfold entry FIS_ENTRY_SIZE
  omega

/-- An image that is in use has a name. -/
theorem Holds.name_of_image (h : Holds fis t used) (hj : j < FIS_MAX_ENTRY)
    (himage : has_image fis (entry j)) :
    ∃ name, t j = some (fold name) ∧ Named fis (entry j) name := by
  cases htj : t j with
  | some k =>
      obtain ⟨name, rfl, hnamed⟩ := h.named j k htj
      exact ⟨name, rfl, hnamed⟩
  | none =>
      obtain ⟨hff, hzero, -⟩ := himage
      by_cases hused : j < used
      · have hcleared : fis (entry j + 0) = 0 := h.cleared j hused htj 0 (by decide)
        exact absurd hcleared hzero
      · have herased : fis (entry j + 0) = 0xff := h.erased j (not_lt.mp hused) hj 0 (by decide)
        exact absurd herased hff

/-- **What is loaded is what the lookup finds**, in a directory that holds a table. -/
theorem Holds.loadable_iff (h : Holds fis t used) (hj : j < FIS_MAX_ENTRY) :
    loadable fis (entry j) ↔ ∃ name, Found fis name (entry j) := by
  constructor
  · rintro ⟨himage, hover⟩
    obtain ⟨name, htj, hnamed⟩ := h.name_of_image hj himage
    obtain ⟨-, -, -, hflash, hmem⟩ := himage
    refine ⟨name, hnamed.isName.ne_nil, (h.find hnamed.isName.ne_nil).mpr ⟨j, htj, rfl⟩, hflash,
      hmem, fun hentry => hover (.inr (.inr hentry)), fun hboot => hover (.inl ?_),
      fun hdir => hover (.inr (.inl ?_))⟩
    · exact hnamed.strncasecmp_iff.mpr hboot.symm
    · exact hnamed.strncasecmp_iff.mpr hdir.symm
  · rintro ⟨name, hfound⟩
    obtain ⟨i, hti, heq⟩ := (h.find hfound.ne_nil).mp hfound.found
    obtain rfl := entry_inj.mp heq
    obtain ⟨name', hfold, hnamed⟩ := h.named _ _ hti
    refine ⟨⟨hnamed.first.2, hnamed.first.1, hnamed.chksum, hfound.flash_base, hfound.mem_base⟩, ?_⟩
    rintro (hboot | hdir | hentry)
    · exact hfound.not_boot (hfold.trans (hnamed.strncasecmp_iff.mp hboot).symm)
    · exact hfound.not_directory (hfold.trans (hnamed.strncasecmp_iff.mp hdir).symm)
    · exact hfound.entry_point hentry

/-- What the lookup finds is an entry. -/
theorem Found.entry (h : Found fis name img) : ∃ j, j < FIS_MAX_ENTRY ∧ img = entry j :=
  fis_find_image_entry h.found

end Names

/-- What a boot does, by the names that the lookup finds in the directory: it loads their images
and, for the second processor, the vectors, changes nothing else, and goes on with the entry
point of the first of them. -/
structure LoadsFound (B : LoadBoard) (N : ℕ) (m : ByteMem) (r : Booted) : Prop where
  placed : ∀ name img, Found (directory B m) name img →
    ∀ i, i < image_length B (directory B m) img →
      r.mem (mem_base (directory B m) img + i) =
        image_byte B N m (flash_base (directory B m) img) i
  vectors : has_vectors B → ∀ i, i < vectors_size B →
    r.mem (cpu2_base_found B (directory B m) + i) = m (B.exception_handlers + i)
  kept : ∀ x,
    (∀ name img, Found (directory B m) name img → x < mem_base (directory B m) img ∨
      mem_base (directory B m) img + image_length B (directory B m) img ≤ x) →
    (has_vectors B → x < cpu2_base_found B (directory B m) ∨
      cpu2_base_found B (directory B m) + vectors_size B ≤ x) → r.mem x = m x
  routine : ∀ a, r.apps_routine = some a ↔ ∃ name img, Found (directory B m) name img ∧
    entry_point (directory B m) img = a ∧
      ∀ name' img', Found (directory B m) name' img' → img ≤ img'
  cpu2 : r.cpu2_start =
    if B.BOARD_SUPPORT_TWO_CPU then some (cpu2_start (cpu2_base_found B (directory B m)))
    else none

section Boot

variable {B : LoadBoard} {N : ℕ} {m : ByteMem} {t : ℕ → Option (List UInt8)} {used j x : ℕ}
  {name : List UInt8}

theorem cpu2_name_ne_nil : Nor.BOARD_FIS_CPU2_NAME ≠ [] := by decide

/-- The loop and the lookup find the same entry for the second processor. -/
theorem Holds.cpu2_base_eq (h : Holds (directory B m) t used)
    (htwo : B.BOARD_SUPPORT_TWO_CPU = true) :
    (loaded B N m FIS_MAX_ENTRY).cpu2_base = cpu2_base_found B (directory B m) := by
  -- an entry that is loaded under the name is the one that has it
  have hfinds : ∀ j, j < FIS_MAX_ENTRY → loadable (directory B m) (entry j) →
      strncasecmp Nor.BOARD_FIS_CPU2_NAME (directory B m) (entry j) = 0 →
        fis_find_image (directory B m) Nor.BOARD_FIS_CPU2_NAME = some (entry j) := by
    intro j hj hload hname
    have hmatch := (h.matches_iff cpu2_name_ne_nil hj).mp ⟨hname, hload.1.2.2.1⟩
    exact (h.find cpu2_name_ne_nil).mpr ⟨j, hmatch, rfl⟩
  unfold cpu2_base_found
  obtain ⟨hnone, heq⟩ | ⟨j, hj, hload, hname, heq⟩ := @loaded_cpu2 B N m FIS_MAX_ENTRY htwo
  · rw [heq]
    cases hfind : fis_find_image (directory B m) Nor.BOARD_FIS_CPU2_NAME with
    | none => rfl
    | some img =>
        obtain ⟨i, hi, rfl⟩ := fis_find_image_entry hfind
        dsimp only
        rw [if_neg fun hload => hnone i hi hload (strncasecmp_of_find hfind)]
  · rw [heq, hfinds j hj hload hname]
    dsimp only
    rw [if_pos hload]

/-- The memory behind the loop, where no image was loaded, -/
theorem loaded_mem_outside
    (hx : ∀ j, j < FIS_MAX_ENTRY → loadable (directory B m) (entry j) →
      x < (image_write B N m j).pos ∨ (image_write B N m j).pos + (image_write B N m j).len ≤ x) :
    (loaded B N m FIS_MAX_ENTRY).mem x = m x := by
  rw [loaded_mem]
  refine lastWritten_outside fun w hw => ?_
  obtain ⟨j, hj, hload, rfl⟩ := mem_image_writes.mp hw
  exact hx j hj hload

/-- and where one was. -/
theorem Bootable.loaded_mem_inside (hb : Bootable B N m) (hj : j < FIS_MAX_ENTRY)
    (hload : loadable (directory B m) (entry j)) {i : ℕ} (hi : i < (image_write B N m j).len) :
    (loaded B N m FIS_MAX_ENTRY).mem ((image_write B N m j).pos + i) =
      (image_write B N m j).data i := by
  rw [loaded_mem]
  refine lastWritten_of_only (mem_image_writes.mpr ⟨j, hj, hload, rfl⟩) hi fun w hw hne => ?_
  obtain ⟨k, hk, hload', rfl⟩ := mem_image_writes.mp hw
  have hkj : k ≠ j := by
    rintro rfl
    exact hne rfl
  exact (hb.apart k j hk hj hkj hload' hload).outside hi

/-- The vectors are copied behind the loop. -/
theorem Bootable.boot_mem (hb : Bootable B N m) (h : Holds (directory B m) t used) :
    (boot_of B (loaded B N m FIS_MAX_ENTRY)).mem =
      if has_vectors B then
        splice (loaded B N m FIS_MAX_ENTRY).mem (cpu2_base_found B (directory B m))
          (vectors_size B) fun i => m (B.exception_handlers + i)
      else (loaded B N m FIS_MAX_ENTRY).mem := by
  dsimp only [boot_of, install_vectors]
  by_cases hv : has_vectors B
  · have hapart := hb.vectors hv
    rw [if_pos hv, if_pos hv, h.cpu2_base_eq hv.1,
      copy_bytes_eq hapart.dest_le hapart.source_le hapart.self]
    funext x
    refine splice_congr rfl fun i hi => loaded_mem_outside fun j hj hload => ?_
    exact (hapart.source j hj hload).outside hi
  · exact (if_neg hv).trans (if_neg hv).symm

/-- **A boot loads what is found**, from a directory that holds a table of names. -/
theorem Bootable.loadsFound (hb : Bootable B N m) (h : Holds (directory B m) t used) :
    LoadsFound B N m (boot_of B (loaded B N m FIS_MAX_ENTRY)) := by
  have hmem := hb.boot_mem h
  constructor
  · intro name img hfound i hi
    obtain ⟨j, hj, rfl⟩ := hfound.entry
    have hload := (h.loadable_iff hj).mpr ⟨name, hfound⟩
    have hinside := hb.loaded_mem_inside hj hload hi
    rw [hmem]
    by_cases hv : has_vectors B
    · rw [if_pos hv, splice_outside]
      · exact hinside
      · exact ((hb.vectors hv).dest j hj hload).symm.outside hi
    · rw [if_neg hv]
      exact hinside
  · intro hv i hi
    rw [hmem, if_pos hv, splice_add hi]
  · intro x hx hxv
    have hout : (loaded B N m FIS_MAX_ENTRY).mem x = m x := loaded_mem_outside fun j hj hload => by
      obtain ⟨name, hfound⟩ := (h.loadable_iff hj).mp hload
      exact hx name _ hfound
    rw [hmem]
    by_cases hv : has_vectors B
    · rw [if_pos hv, splice_outside (hxv hv), hout]
    · rw [if_neg hv, hout]
  · intro a
    dsimp only [boot_of]
    obtain ⟨hnone, hzero⟩ | ⟨j, hj, hload, hfirst, heq⟩ := @loaded_routine B N m FIS_MAX_ENTRY
    · rw [hzero, if_neg (not_not.mpr rfl)]
      refine iff_of_false (Option.some_ne_none a).symm ?_
      rintro ⟨name, img, hfound, -⟩
      obtain ⟨j, hj, rfl⟩ := hfound.entry
      exact hnone j hj ((h.loadable_iff hj).mpr ⟨name, hfound⟩)
    · have hne : (loaded B N m FIS_MAX_ENTRY).apps_routine ≠ 0 := by
        rw [heq]
        exact fun hzero => hload.2 (.inr (.inr hzero))
      rw [if_pos hne, Option.some.injEq, heq]
      -- no entry in front of the first one can be found
      have hleast : ∀ name' img', Found (directory B m) name' img' → entry j ≤ img' := by
        intro name' img' hfound
        obtain ⟨k, hk, rfl⟩ := hfound.entry
        have hkj : ¬ k < j := fun hlt =>
          hfirst k hlt ((h.loadable_iff hk).mpr ⟨name', hfound⟩)
        unfold entry FIS_ENTRY_SIZE
        omega
      obtain ⟨name, hfound⟩ := (h.loadable_iff hj).mp hload
      constructor
      · rintro rfl
        exact ⟨name, entry j, hfound, rfl, hleast⟩
      · rintro ⟨name', img', hfound', rfl, hleast'⟩
        rw [le_antisymm (hleast name' img' hfound') (hleast' name _ hfound)]
  · dsimp only [boot_of]
    by_cases htwo : B.BOARD_SUPPORT_TWO_CPU = true
    · rw [if_pos htwo, if_pos htwo, h.cpu2_base_eq htwo]
    · rw [if_neg htwo, if_neg htwo]

end Boot

end CsBoot.Fis
