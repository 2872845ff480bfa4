/-
RAID superblocks and what is made of one or two of them, `src/src/raid/md_p.h` and
`md_import_device` of `src/src/raid/raid.c`.

A superblock is the 4096 bytes that a member keeps near its end, read as 32-bit
words. The first 32 words are the same on all members of an array, except for the
count of its disks. Each member counts the updates of its superblock in 64 bits, and
has a number of its own in the array.

A partition is referred to by its place in `ide_partitions`, and `md->disk[]` holds
such references.
-/
import CsBoot.Ide.Partition

set_option autoImplicit false

namespace CsBoot.Raid

open Ide

/-! ## The superblock -/

/-- The page of a superblock, by words. -/
abbrev mdp_super_t : Type := ℕ → UInt32

namespace mdp_super_t

variable (sb : mdp_super_t)

def md_magic : UInt32 := sb 0
def set_uuid0 : UInt32 := sb 5
def level : UInt32 := sb 7
def size : UInt32 := sb 8
def raid_disks : UInt32 := sb 10
def set_uuid1 : UInt32 := sb 13
def set_uuid2 : UInt32 := sb 14
def set_uuid3 : UInt32 := sb 15
def events_lo : UInt32 := sb 39
def events_hi : UInt32 := sb 40
def rdev_size : UInt32 := sb 44
/-- `this_disk.number` -/
def this_number : UInt32 := sb 992
/-- `this_disk.state` -/
def this_state : UInt32 := sb 996

end mdp_super_t

def MD_SB_MAGIC : UInt32 := 0xa92b4efc
def MD_SB_BYTES : ℕ := 4096
def MD_RESERVED_SECTORS : ℕ := 128
def MD_SB_GENERIC_CONSTANT_WORDS : ℕ := 32
def MD_DISK_FAULTY : ℕ := 0
def MD_DISK_REMOVED : ℕ := 3

/-- The word of `nr_disks`. -/
def NR_DISKS : ℕ := 9

/-- `md_event` -/
def md_event (sb : mdp_super_t) : ℕ := 2 ^ 32 * sb.events_hi.toNat + sb.events_lo.toNat

/-- `uuid_equal` -/
def uuid_equal (sb1 sb2 : mdp_super_t) : Bool :=
  sb1.set_uuid0 = sb2.set_uuid0 ∧ sb1.set_uuid1 = sb2.set_uuid1 ∧
    sb1.set_uuid2 = sb2.set_uuid2 ∧ sb1.set_uuid3 = sb2.set_uuid3

/-- `sb_equal`: the constant words agree, with `nr_disks` set to 0 in both. -/
def sb_equal (sb1 sb2 : mdp_super_t) : Bool :=
  (List.range MD_SB_GENERIC_CONSTANT_WORDS).all fun i =>
    Function.update sb1 NR_DISKS 0 i = Function.update sb2 NR_DISKS 0 i

/-! ## Levels -/

def LEVEL_FAULTY : UInt32 := -5
def LEVEL_MULTIPATH : UInt32 := -4
def LEVEL_LINEAR : UInt32 := -1

def MD_RESERVED : ℕ := 0
def LINEAR : ℕ := 1
def RAID0 : ℕ := 2
def RAID1 : ℕ := 3
def RAID5 : ℕ := 4
def TRANSLUCENT : ℕ := 5
def HSM : ℕ := 6
def MULTIPATH : ℕ := 7
def RAID6 : ℕ := 8
def RAID10 : ℕ := 9
def FAULTY : ℕ := 10

/-- `level_to_pers` -/
def level_to_pers (level : UInt32) : ℕ :=
  if level = LEVEL_FAULTY then FAULTY
  else if level = LEVEL_MULTIPATH then MULTIPATH
  else if level = -3 then HSM
  else if level = -2 then TRANSLUCENT
  else if level = LEVEL_LINEAR then LINEAR
  else if level = 0 then RAID0
  else if level = 1 then RAID1
  else if level = 4 ∨ level = 5 then RAID5
  else if level = 6 then RAID6
  else if level = 10 then RAID10
  else MD_RESERVED

/-! ## Devices -/

/-- A partition with its fields for RAID. -/
structure RaidPart extends IDE_PART_T where
  status : ℕ
  sb_offset : ℕ
  sb_page : mdp_super_t

def MD_DEV_WORKABLE : ℕ := 0x01
def MD_DEV_FAIL : ℕ := 0x02
def MAX_MD_DEV : ℕ := 4

/-- The fields of `md_dev_info_t` that are set when it is put together. -/
structure md_dev_info_t where
  flag : ℕ
  status : ℕ
  disk : ℕ → Option ℕ
  disk_no : ℕ
  level : ℕ
  array_size : ℕ

/-- The partitions that a device is made of. -/
def md_dev_info_t.members (md : md_dev_info_t) : List ℕ :=
  (List.range md.disk_no).filterMap md.disk

/-- `md->status`, the end of `md_import_device`. -/
def import_status (md : md_dev_info_t) : md_dev_info_t :=
  { md with
    status :=
      if md.disk_no ≥ 2 ∧ md.level = LINEAR then MD_DEV_WORKABLE
      else if md.disk_no ≥ 1 ∧ md.level = RAID1 then MD_DEV_WORKABLE
      else MD_DEV_FAIL }

@[simp] theorem import_status_disk (md : md_dev_info_t) : (import_status md).disk = md.disk := rfl

/-- A partition that becomes a member. -/
def RaidPart.import (part : RaidPart) : RaidPart :=
  { part with rdev_size := part.sb_page.rdev_size.toNat, status := 1 }

/-- The devices in the order of their numbers. -/
def place (md : md_dev_info_t) (sb refsb : mdp_super_t) (dev1 dev2 : ℕ) : ℕ → Option ℕ :=
  if sb.this_number < refsb.this_number then
    Function.update (Function.update md.disk 0 (some dev1)) 1 (some dev2)
  else Function.update (Function.update md.disk 0 (some dev2)) 1 (some dev1)

/-- "find freshest": the older of two devices is dropped. -/
def drop_stale (md : md_dev_info_t) (sb refsb : mdp_super_t) (dev2 : ℕ) : md_dev_info_t :=
  if md_event sb > md_event refsb then
    { md with disk_no := md.disk_no - 1, disk := Function.update md.disk 1 none }
  else if md_event sb < md_event refsb then
    { md with
      disk_no := md.disk_no - 1
      disk := Function.update (Function.update md.disk 0 (some dev2)) 1 none }
  else md

/-- `md_import_device`, on the table of partitions and the device. -/
def md_import_device (parts : ℕ → RaidPart) (md : md_dev_info_t) (dev1 : ℕ) :
    Option ℕ → (ℕ → RaidPart) × md_dev_info_t
  | none =>
    let sb := (parts dev1).sb_page
    let md := { md with
      flag := 0
      disk := Function.update md.disk 0 (some dev1)
      array_size := (sb.size.toNat + 1) % 2 ^ 32
      disk_no := 1
      level := level_to_pers sb.level }
    (Function.update parts dev1 (parts dev1).import, import_status md)
  | some dev2 =>
    let sb := (parts dev1).sb_page
    let refsb := (parts dev2).sb_page
    let md := { md with
      flag := 0
      disk := place md sb refsb dev1 dev2
      array_size := sb.size.toNat
      disk_no := 2
      level := level_to_pers sb.level }
    (Function.update (Function.update parts dev1 (parts dev1).import) dev2 (parts dev2).import,
      import_status (drop_stale md sb refsb dev2))

/-! ## Equal superblocks -/

/-- Superblocks that are equal agree in every constant word but one. -/
theorem sb_equal_word {sb1 sb2 : mdp_super_t} (h : sb_equal sb1 sb2 = true) {i : ℕ}
    (hi : i < MD_SB_GENERIC_CONSTANT_WORDS) (hne : i ≠ NR_DISKS) : sb1 i = sb2 i := by
  have hall := List.all_eq_true.mp h i (List.mem_range.mpr hi)
  simpa [Function.update_of_ne hne] using hall

/-- The identifier is among these words. -/
theorem uuid_equal_of_sb_equal {sb1 sb2 : mdp_super_t} (h : sb_equal sb1 sb2 = true) :
    uuid_equal sb1 sb2 = true := by
  have hw : ∀ i, i < 32 → i ≠ 9 → sb1 i = sb2 i := fun i => sb_equal_word h
  simp [uuid_equal, mdp_super_t.set_uuid0, mdp_super_t.set_uuid1, mdp_super_t.set_uuid2,
    mdp_super_t.set_uuid3, hw]

theorem sb_equal_refl (sb : mdp_super_t) : sb_equal sb sb = true := by
  simp [sb_equal]

theorem sb_equal_symm {sb1 sb2 : mdp_super_t} (h : sb_equal sb1 sb2 = true) :
    sb_equal sb2 sb1 = true := by
  apply List.all_eq_true.mpr
  intro i hi
  have hall := List.all_eq_true.mp h i hi
  simp only [decide_eq_true_eq] at hall ⊢
  exact hall.symm

theorem sb_equal_trans {sb1 sb2 sb3 : mdp_super_t} (h : sb_equal sb1 sb2 = true)
    (h' : sb_equal sb2 sb3 = true) : sb_equal sb1 sb3 = true := by
  apply List.all_eq_true.mpr
  intro i hi
  have h12 := List.all_eq_true.mp h i hi
  have h23 := List.all_eq_true.mp h' i hi
  simp only [decide_eq_true_eq] at h12 h23 ⊢
  exact h12.trans h23

/-! ## Two devices -/

section Pair

variable (parts : ℕ → RaidPart) (md : md_dev_info_t) (dev1 dev2 : ℕ)

/-- The device that two partitions make. -/
def pair : md_dev_info_t := (md_import_device parts md dev1 (some dev2)).2

/-- With equal counts both partitions are members. -/
theorem pair_equal (h : md_event (parts dev1).sb_page = md_event (parts dev2).sb_page) :
    (pair parts md dev1 dev2).disk_no = 2 ∧
      (pair parts md dev1 dev2).disk =
        place md (parts dev1).sb_page (parts dev2).sb_page dev1 dev2 := by
  simp [pair, md_import_device, import_status, drop_stale, h]

/-- With a newer first partition the one with the smaller number is left. -/
theorem pair_newer (h : md_event (parts dev2).sb_page < md_event (parts dev1).sb_page) :
    (pair parts md dev1 dev2).disk_no = 1 ∧
      (pair parts md dev1 dev2).disk =
        Function.update (Function.update md.disk 0
          (some (if (parts dev1).sb_page.this_number < (parts dev2).sb_page.this_number then dev1
            else dev2))) 1 none := by
  refine ⟨?_, ?_⟩
  · simp [pair, md_import_device, import_status, drop_stale, h]
  · simp only [pair, md_import_device, import_status, drop_stale, gt_iff_lt, h, if_true, place]
    split <;> simp

/-- With an older first partition the second one is left. -/
theorem pair_older (h : md_event (parts dev1).sb_page < md_event (parts dev2).sb_page) :
    (pair parts md dev1 dev2).disk_no = 1 ∧
      (pair parts md dev1 dev2).disk =
        Function.update (Function.update md.disk 0 (some dev2)) 1 none := by
  have hlt : ¬ md_event (parts dev1).sb_page > md_event (parts dev2).sb_page := by omega
  refine ⟨?_, ?_⟩
  · simp [pair, md_import_device, import_status, drop_stale, h, hlt]
  · simp only [pair, md_import_device, import_status, drop_stale, if_neg hlt, if_pos h, place]
    split <;> funext x <;> by_cases h0 : x = 0 <;> by_cases h1 : x = 1 <;>
      simp [Function.update, h0, h1]

/-- A device with one member has it in its first slot. -/
theorem members_one {d : md_dev_info_t} {p : ℕ} (hno : d.disk_no = 1) (hp : d.disk 0 = some p) :
    d.members = [p] := by
  unfold md_dev_info_t.members
  rw [hno]
  simp [hp]

/-! ## The freshest mirror -/

/-- The partition whose superblock has the larger event count. -/
def fresher : ℕ :=
  if md_event (parts dev2).sb_page < md_event (parts dev1).sb_page then dev1 else dev2

/-- The other one. -/
def staler : ℕ :=
  if md_event (parts dev2).sb_page < md_event (parts dev1).sb_page then dev2 else dev1

/-- The device is made of the newer partition alone, whichever of the two comes first,
and the whole result does not depend on that when the superblocks belong together. -/
structure FreshestSurvives (parts : ℕ → RaidPart) (md : md_dev_info_t) (dev1 dev2 : ℕ) : Prop where
  first : (pair parts md dev1 dev2).disk 0 = some (fresher parts dev1 dev2)
  stale_out : staler parts dev1 dev2 ∉ (pair parts md dev1 dev2).members
  order : (pair parts md dev1 dev2).members = (pair parts md dev2 dev1).members
  whole : sb_equal (parts dev1).sb_page (parts dev2).sb_page = true →
    md_import_device parts md dev1 (some dev2) = md_import_device parts md dev2 (some dev1)

/-- What is left of a pair: the second partition unless the first is newer and has the
smaller number. -/
def kept : ℕ :=
  if md_event (parts dev2).sb_page < md_event (parts dev1).sb_page ∧
      (parts dev1).sb_page.this_number < (parts dev2).sb_page.this_number
  then dev1 else dev2

/-- A newer first partition is kept by its number. -/
theorem kept_newer_iff (hdev : dev1 ≠ dev2)
    (h : md_event (parts dev2).sb_page < md_event (parts dev1).sb_page) :
    kept parts dev1 dev2 = dev1 ↔
      (parts dev1).sb_page.this_number < (parts dev2).sb_page.this_number := by
  unfold kept
  by_cases hnum : (parts dev1).sb_page.this_number < (parts dev2).sb_page.this_number
  · simp [h, hnum]
  · simp [hnum, hdev.symm]

/-- With unequal counts one of two devices is dropped, and nothing else changes. -/
theorem drop_stale_unequal {sb refsb : mdp_super_t} (d : md_dev_info_t) (dev : ℕ)
    (hne : md_event sb ≠ md_event refsb) :
    drop_stale d sb refsb dev =
      { d with disk_no := d.disk_no - 1, disk := (drop_stale d sb refsb dev).disk } := by
  unfold drop_stale
  rcases Nat.lt_or_gt_of_ne hne with h | h
  · rw [if_neg (Nat.lt_asymm h), if_pos h]
  · rw [if_pos h]

theorem pair_unequal (hne : md_event (parts dev1).sb_page ≠ md_event (parts dev2).sb_page) :
    (pair parts md dev1 dev2).disk_no = 1 ∧
      (pair parts md dev1 dev2).disk =
        Function.update (Function.update md.disk 0 (some (kept parts dev1 dev2))) 1 none := by
  unfold kept
  rcases Nat.lt_or_gt_of_ne hne with h | h
  · rw [if_neg (by omega)]
    exact pair_older parts md dev1 dev2 h
  · have hp := pair_newer parts md dev1 dev2 h
    simpa [h] using hp

theorem pair_members_unequal
    (hne : md_event (parts dev1).sb_page ≠ md_event (parts dev2).sb_page) :
    (pair parts md dev1 dev2).members = [kept parts dev1 dev2] := by
  obtain ⟨hno, hdisk⟩ := pair_unequal parts md dev1 dev2 hne
  apply members_one hno
  simp [hdisk]

/-- The device of one partition that an import with two of them leaves. -/
theorem pair_eq_unequal (hne : md_event (parts dev1).sb_page ≠ md_event (parts dev2).sb_page) :
    pair parts md dev1 dev2 = import_status
      { flag := 0
        status := md.status
        disk := Function.update (Function.update md.disk 0 (some (kept parts dev1 dev2))) 1 none
        disk_no := 1
        level := level_to_pers (parts dev1).sb_page.level
        array_size := (parts dev1).sb_page.size.toNat } := by
  have hdisk := (pair_unequal parts md dev1 dev2 hne).2
  simp only [pair, md_import_device, import_status_disk] at hdisk ⊢
  rw [drop_stale_unequal _ _ hne, hdisk]
  rfl

/-- Two imports of a pair agree when they keep the same partition and the superblocks
are equal. -/
theorem import_swap (hne : md_event (parts dev1).sb_page ≠ md_event (parts dev2).sb_page)
    (hkept : kept parts dev1 dev2 = kept parts dev2 dev1)
    (heq : sb_equal (parts dev1).sb_page (parts dev2).sb_page = true) :
    md_import_device parts md dev1 (some dev2) = md_import_device parts md dev2 (some dev1) := by
  have hdev : dev1 ≠ dev2 := by
    intro h
    rw [h] at hne
    exact hne rfl
  have hsize : (parts dev1).sb_page.size = (parts dev2).sb_page.size :=
    sb_equal_word heq (by decide) (by decide)
  have hlevel : (parts dev1).sb_page.level = (parts dev2).sb_page.level :=
    sb_equal_word heq (by decide) (by decide)
  have hpair : pair parts md dev1 dev2 = pair parts md dev2 dev1 := by
    rw [pair_eq_unequal parts md dev1 dev2 hne, pair_eq_unequal parts md dev2 dev1 hne.symm,
      hkept, hsize, hlevel]
  refine Prod.ext ?_ hpair
  simp only [md_import_device]
  exact Function.update_comm hdev _ _ _

/-- The freshest mirror survives when it is kept in both orders. -/
theorem survives_iff_kept
    (hne : md_event (parts dev1).sb_page ≠ md_event (parts dev2).sb_page) :
    FreshestSurvives parts md dev1 dev2 ↔
      kept parts dev1 dev2 = fresher parts dev1 dev2 ∧
        kept parts dev2 dev1 = fresher parts dev1 dev2 := by
  have hmem := pair_members_unequal parts md dev1 dev2 hne
  have hmem' := pair_members_unequal parts md dev2 dev1 hne.symm
  have hfirst : (pair parts md dev1 dev2).disk 0 = some (kept parts dev1 dev2) := by
    rw [(pair_unequal parts md dev1 dev2 hne).2]
    simp
  have hstale : staler parts dev1 dev2 ≠ fresher parts dev1 dev2 := by
    have hdev : dev1 ≠ dev2 := by
      intro h
      rw [h] at hne
      exact hne rfl
    unfold staler fresher
    split
    · exact hdev.symm
    · exact hdev
  constructor
  · intro h
    have hk : kept parts dev1 dev2 = fresher parts dev1 dev2 :=
      Option.some.inj (hfirst.symm.trans h.first)
    have horder := h.order
    rw [hmem, hmem', hk, List.cons.injEq] at horder
    exact ⟨hk, horder.1.symm⟩
  · rintro ⟨hk, hk'⟩
    refine ⟨?_, ?_, ?_, fun heq => import_swap parts md dev1 dev2 hne (hk.trans hk'.symm) heq⟩
    · rw [hfirst, hk]
    · rw [hmem, hk, List.mem_singleton]
      exact hstale
    · rw [hmem, hmem', hk, hk']

/-- The second of two partitions is kept when it is the newer one. -/
theorem kept_older (h : ¬ md_event (parts dev2).sb_page < md_event (parts dev1).sb_page) :
    kept parts dev1 dev2 = dev2 := by
  unfold kept
  rw [if_neg fun hc => h hc.1]

/-- **The freshest mirror survives exactly when it has the smaller number of the
two.** -/
theorem freshest_survives_iff
    (hne : md_event (parts dev1).sb_page ≠ md_event (parts dev2).sb_page) :
    FreshestSurvives parts md dev1 dev2 ↔
      (parts (fresher parts dev1 dev2)).sb_page.this_number <
        (parts (staler parts dev1 dev2)).sb_page.this_number := by
  have hdev : dev1 ≠ dev2 := by
    intro h
    rw [h] at hne
    exact hne rfl
  rw [survives_iff_kept parts md dev1 dev2 hne]
  unfold fresher staler
  -- in one order the newer partition is the second and is kept; the other one decides
  rcases Nat.lt_or_gt_of_ne hne with h | h
  · have hlt : ¬ md_event (parts dev2).sb_page < md_event (parts dev1).sb_page := Nat.lt_asymm h
    rw [if_neg hlt, if_neg hlt, ← kept_newer_iff parts dev2 dev1 hdev.symm h]
    exact and_iff_right (kept_older parts dev1 dev2 hlt)
  · rw [if_pos h, if_pos h, ← kept_newer_iff parts dev1 dev2 hdev h]
    exact and_iff_left (kept_older parts dev2 dev1 (Nat.lt_asymm h))

end Pair

/-! ## Two halves of a mirror -/

/-- A superblock of a mirror of 4 GB, with a count of updates and a number. -/
def mirror_sb (events number : UInt32) : mdp_super_t := fun i =>
  if i = 0 then MD_SB_MAGIC
  else if i = 7 then 1
  else if i = 8 ∨ i = 44 then 0x400000
  else if i = 10 then 2
  else if i = 39 then events
  else if i = 992 then number
  else 0

theorem mirror_start_lt : 63 < 2 ^ 32 := by decide

theorem mirror_sector_lt : 0x800100 < 2 ^ 64 := by decide

/-- A partition of the mirror, with its superblock in RAM. -/
def mirror_part (events number : UInt32) : RaidPart where
  disk := ⟨0, true⟩
  start_sector := 63
  sector_num := 0x800100
  os := 0xFD
  rdev_size := 0
  start_lt := mirror_start_lt
  sector_lt := mirror_sector_lt
  status := 0
  sb_offset := 0
  sb_page := mirror_sb events number

/-- Two partitions, the second one with the number that the first does not have. -/
def mirror_parts (events₀ events₁ number₀ : UInt32) : ℕ → RaidPart := fun p =>
  if p = 0 then mirror_part events₀ number₀ else mirror_part events₁ (1 - number₀)

/-- A device that has not been put together. -/
def md_free : md_dev_info_t := ⟨0, 0, fun _ => none, 0, 0, 0⟩

theorem freshest_survives_iff_mirror :
    FreshestSurvives (mirror_parts 7 4 0) md_free 0 1 ↔
      (mirror_parts 7 4 0 (fresher (mirror_parts 7 4 0) 0 1)).sb_page.this_number <
        (mirror_parts 7 4 0 (staler (mirror_parts 7 4 0) 0 1)).sb_page.this_number :=
  freshest_survives_iff (mirror_parts 7 4 0) md_free 0 1 (by decide)

/-- The newer half has the number 1: imported first, it is dropped, and the stale half
becomes the mirror. -/
theorem freshest_dropped :
    ¬ FreshestSurvives (mirror_parts 7 4 1) md_free 0 1 ∧
      md_event (mirror_parts 7 4 1 1).sb_page < md_event (mirror_parts 7 4 1 0).sb_page ∧
      (pair (mirror_parts 7 4 1) md_free 0 1).members = [1] ∧
      (pair (mirror_parts 7 4 1) md_free 0 1).status = MD_DEV_WORKABLE := by
  have hmem : (pair (mirror_parts 7 4 1) md_free 0 1).members = [1] := by decide
  refine ⟨fun h => ?_, by decide, hmem, by decide⟩
  have hout := h.stale_out
  rw [hmem] at hout
  exact hout (by decide)

end CsBoot.Raid
