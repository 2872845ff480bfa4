/-
Putting the arrays together, `raid_init` of `src/src/raid/raid.c`.

Every RAID partition that is still free is compared with all free ones behind it.
With each one that belongs to the same array the two are imported, and the scan of
the partitions behind goes on. A mirror that found no partner is imported alone.

What the scan does is described by the list of the imports it makes. The first valid
partition of an array, its *leader*, is imported with every other valid partition of
the array in turn (`assembled`), and `raid_scan_represents` says that the table `md[]`
is made from that list.

Reading a superblock is a parameter: `ondisk p` is the page of the partition `p`.
-/
import CsBoot.Raid.Superblock

set_option autoImplicit false

namespace CsBoot.Raid

open Ide

def IDE_PART_LINUX_RAID : ℕ := 0xFD
def IDE_CONTROLLERS : ℕ := 2
def IDE_MAX_PARTS_PER_DISK : ℕ := 4
def IDE_MAX_PARTITIONS : ℕ := IDE_MAX_PARTS_PER_DISK * IDE_CONTROLLERS

def SYSTEM_DEV : ℕ := 0x1
def DATA_DEV : ℕ := 0x2

/-! ## `raid_init` -/

/-- The tables, and the number of devices, an `unsigned char`. -/
structure RaidState where
  parts : ℕ → RaidPart
  md : ℕ → md_dev_info_t
  raid_dev_no : ℕ

/-- `MD_NEW_SIZE_SECTORS` -/
def MD_NEW_SIZE_SECTORS (x : ℕ) : ℕ :=
  (x / MD_RESERVED_SECTORS * MD_RESERVED_SECTORS + (2 ^ 64 - MD_RESERVED_SECTORS)) % 2 ^ 64

section Scan

variable (ondisk : ℕ → mdp_super_t)

/-- `sb_90_load` -/
def sb_90_load (st : RaidState) (p : ℕ) : RaidState :=
  { st with
    parts := Function.update st.parts p
      { st.parts p with
        sb_offset := MD_NEW_SIZE_SECTORS (st.parts p).sector_num
        sb_page := ondisk p } }

/-- `md_import_device(&md[raid_dev_no], ..); raid_dev_no++` -/
def add (st : RaidState) (dev1 : ℕ) (dev2 : Option ℕ) : RaidState :=
  let r := md_import_device st.parts (st.md st.raid_dev_no) dev1 dev2
  { parts := r.1
    md := Function.update st.md st.raid_dev_no r.2
    raid_dev_no := (st.raid_dev_no + 1) % 2 ^ 8 }

/-- The tests of a superblock on its own. -/
def sb_valid (sb : mdp_super_t) : Bool :=
  sb.md_magic = MD_SB_MAGIC ∧ ¬ sb.raid_disks ≤ 0 ∧
    sb.this_state &&& (1 <<< MD_DISK_REMOVED.toUInt32 ||| 1 <<< MD_DISK_FAULTY.toUInt32) = 0

/-- The inner loop for one `j`. -/
def scan_partner (i : ℕ) (st : RaidState) (j : ℕ) : RaidState :=
  if (st.parts j).os ≠ IDE_PART_LINUX_RAID then st
  else if (st.parts j).status ≠ 0 then st
  else
    let st := sb_90_load ondisk st j
    let sb := (st.parts i).sb_page
    let refsb := (st.parts j).sb_page
    if !sb_valid refsb then st
    else if !uuid_equal sb refsb then st
    else if !sb_equal sb refsb then st
    else add st i (some j)

/-- The end of the outer loop for `i`: without a partner. -/
def scan_alone (st : RaidState) (i : ℕ) : RaidState :=
  if (st.parts i).status = 0 ∧ (st.parts i).sector_num > 0x200000 then
    if level_to_pers (st.parts i).sb_page.level = RAID1 then add st i none else st
  else st

/-- The outer loop for one `i`, with `n` partitions. -/
def scan_partition (n : ℕ) (st : RaidState) (i : ℕ) : RaidState :=
  if (st.parts i).os ≠ IDE_PART_LINUX_RAID then st
  else if (st.parts i).status ≠ 0 then st
  else
    let st := sb_90_load ondisk st i
    if !sb_valid (st.parts i).sb_page then st
    else scan_alone ((List.range' (i + 1) (n - (i + 1))).foldl (scan_partner ondisk i) st) i

/-- The scan of `raid_init`. -/
def raid_scan (n : ℕ) (st : RaidState) : RaidState :=
  (List.range n).foldl (scan_partition ondisk n) st

/-- "decide system or data volume", with the device that the disk stands for in the
end. -/
def decide_volumes (st : RaidState) : RaidState × Option ℕ :=
  let data := fun i => ¬ (st.md i).array_size < 0x100000
  ({ st with
      md := fun i =>
        if i < st.raid_dev_no then
          { st.md i with flag := if data i then DATA_DEV else SYSTEM_DEV }
        else st.md i },
    ((List.range st.raid_dev_no).filter fun i => data i).getLast?)

/-- `raid_init`, with `n` partitions. It returns `raid_dev_no`. -/
def raid_init (n : ℕ) (st : RaidState) : RaidState × Option ℕ :=
  decide_volumes (raid_scan ondisk n st)

/-! ## Leaders and followers -/

/-- The partition is RAID and has a superblock that passes the tests. -/
def valid (parts : ℕ → RaidPart) (p : ℕ) : Bool :=
  (parts p).os = IDE_PART_LINUX_RAID ∧ sb_valid (ondisk p)

/-- Two partitions with the same generic superblock. -/
def same (p q : ℕ) : Bool := sb_equal (ondisk p) (ondisk q)

/-- No valid partition of the same array comes before. -/
def leader (parts : ℕ → RaidPart) (i : ℕ) : Bool :=
  valid ondisk parts i ∧ ∀ q < i, ¬ (valid ondisk parts q ∧ same ondisk q i)

/-- The valid partitions of the same array from `a` on, `m` partitions. -/
def followers (parts : ℕ → RaidPart) (i a m : ℕ) : List ℕ :=
  (List.range' a m).filter fun j => valid ondisk parts j ∧ same ondisk i j

/-- A mirror that is not small runs alone. -/
def runs_alone (parts : ℕ → RaidPart) (i : ℕ) : Bool :=
  (parts i).sector_num > 0x200000 ∧ level_to_pers (ondisk i).level = RAID1

/-- The imports of the outer loop for `i`. -/
def devices (parts : ℕ → RaidPart) (n i : ℕ) : List (ℕ × Option ℕ) :=
  if leader ondisk parts i then
    if followers ondisk parts i (i + 1) (n - (i + 1)) = [] then
      if runs_alone ondisk parts i then [(i, none)] else []
    else (followers ondisk parts i (i + 1) (n - (i + 1))).map fun j => (i, some j)
  else []

/-- The imports of the outer loop up to `m`. -/
def assembled (parts : ℕ → RaidPart) (n m : ℕ) : List (ℕ × Option ℕ) :=
  (List.range m).flatMap (devices ondisk parts n)

/-- The members of a device that was imported. -/
def device_members : ℕ × Option ℕ → List ℕ
  | (i, none) => [i]
  | (i, some j) =>
    if md_event (ondisk i) = md_event (ondisk j) then
      if (ondisk i).this_number < (ondisk j).this_number then [i, j] else [j, i]
    else if md_event (ondisk j) < md_event (ondisk i) ∧
        (ondisk i).this_number < (ondisk j).this_number then [i]
    else [j]

end Scan

/-! ## The state and the list of imports -/

/-- The partition takes part in one of the imports. -/
def Taken (L : List (ℕ × Option ℕ)) (p : ℕ) : Prop := ∃ d ∈ L, p = d.1 ∨ d.2 = some p

/-- The tables are those that the imports `L` leave, from partitions `parts` that were
all free. -/
structure Represents (ondisk : ℕ → mdp_super_t) (parts : ℕ → RaidPart) (st : RaidState)
    (L : List (ℕ × Option ℕ)) : Prop where
  count : st.raid_dev_no = L.length
  os : ∀ p, (st.parts p).os = (parts p).os
  sectors : ∀ p, (st.parts p).sector_num = (parts p).sector_num
  taken : ∀ p, (st.parts p).status ≠ 0 ↔ Taken L p
  members : ∀ k d, L[k]? = some d → (st.md k).members = device_members ondisk d

theorem taken_append {L L' : List (ℕ × Option ℕ)} {p : ℕ} :
    Taken (L ++ L') p ↔ Taken L p ∨ Taken L' p := by
  simp only [Taken, List.mem_append, or_and_right, exists_or]

theorem taken_singleton {i : ℕ} {o : Option ℕ} {p : ℕ} :
    Taken [(i, o)] p ↔ p = i ∨ o = some p := by
  simp [Taken]

section Steps

variable {ondisk : ℕ → mdp_super_t} {parts : ℕ → RaidPart} {st : RaidState}
  {L : List (ℕ × Option ℕ)}

/-- A field that loading a superblock leaves alone. -/
theorem load_field {β : Type} (f : RaidPart → β) (q p : ℕ)
    (hf : ∀ (x : RaidPart) a b, f { x with sb_offset := a, sb_page := b } = f x) :
    f ((sb_90_load ondisk st q).parts p) = f (st.parts p) := by
  simp only [sb_90_load]
  by_cases hp : p = q
  · rw [hp, Function.update_self, hf]
  · rw [Function.update_of_ne hp]

theorem Represents.load (h : Represents ondisk parts st L) (q : ℕ) :
    Represents ondisk parts (sb_90_load ondisk st q) L where
  count := h.count
  os p := (load_field (fun x => x.os) q p fun _ _ _ => rfl).trans (h.os p)
  sectors p := (load_field (fun x => x.sector_num) q p fun _ _ _ => rfl).trans (h.sectors p)
  taken p := by
    rw [load_field (fun x => x.status) q p fun _ _ _ => rfl]
    exact h.taken p
  members := h.members

theorem load_page (q : ℕ) : ((sb_90_load ondisk st q).parts q).sb_page = ondisk q := by
  simp [sb_90_load]

theorem load_page_other {p q : ℕ} (hp : p ≠ q) :
    ((sb_90_load ondisk st q).parts p).sb_page = (st.parts p).sb_page := by
  simp [sb_90_load, Function.update_of_ne hp]

/-- The members of an imported device depend on the superblocks alone. -/
theorem import_members (tbl : ℕ → RaidPart) (md : md_dev_info_t) {i : ℕ} {o : Option ℕ}
    (hi : (tbl i).sb_page = ondisk i) (ho : ∀ j, o = some j → (tbl j).sb_page = ondisk j) :
    (md_import_device tbl md i o).2.members = device_members ondisk (i, o) := by
  cases o with
  | none =>
    apply members_one
    · rfl
    · simp [md_import_device]
  | some j =>
    have hj := ho j rfl
    simp only [device_members]
    rw [← hi, ← hj]
    by_cases hev : md_event (tbl i).sb_page = md_event (tbl j).sb_page
    · obtain ⟨hno, hdisk⟩ := pair_equal tbl md i j hev
      unfold pair at hno hdisk
      unfold md_dev_info_t.members
      rw [hno, hdisk, if_pos hev]
      unfold place
      split <;> simp [List.range_succ]
    · have hm := pair_members_unequal tbl md i j hev
      unfold pair kept at hm
      rw [hm, if_neg hev]
      split <;> rfl

/-- An import changes of a partition what `RaidPart.import` does, if it is one of the
two. -/
theorem add_parts (i : ℕ) (o : Option ℕ) (p : ℕ) :
    (add st i o).parts p =
      if p = i ∨ o = some p then (st.parts p).import else st.parts p := by
  cases o with
  | none =>
    by_cases hp : p = i
    · simp [add, md_import_device, hp]
    · simp [add, md_import_device, hp]
  | some j =>
    by_cases hj : p = j
    · simp [add, md_import_device, hj]
    by_cases hp : p = i
    · subst hp
      simp [add, md_import_device, hj]
    · simp [add, md_import_device, hp, hj, Ne.symm hj]

theorem add_page (i : ℕ) (o : Option ℕ) (p : ℕ) :
    ((add st i o).parts p).sb_page = (st.parts p).sb_page := by
  rw [add_parts]
  split <;> rfl

/-- One more import. -/
theorem Represents.add (h : Represents ondisk parts st L) {i : ℕ} {o : Option ℕ}
    (hlen : L.length < 255) (hi : (st.parts i).sb_page = ondisk i)
    (ho : ∀ j, o = some j → (st.parts j).sb_page = ondisk j) :
    Represents ondisk parts (add st i o) (L ++ [(i, o)]) where
  count := by
    have hcount := h.count
    simp only [Raid.add, List.length_append, List.length_singleton]
    omega
  os p := by
    rw [add_parts]
    split <;> exact h.os p
  sectors p := by
    rw [add_parts]
    split <;> exact h.sectors p
  taken p := by
    rw [add_parts, taken_append, taken_singleton, ← h.taken p]
    split
    · simp_all [RaidPart.import]
    · simp_all
  members k d hk := by
    have hcount := h.count
    -- the arrays there were, the new one, and none behind it
    rcases Nat.lt_trichotomy k L.length with hlt | heq | hgt
    · rw [List.getElem?_append_left hlt] at hk
      have hne : k ≠ st.raid_dev_no := by omega
      simp only [Raid.add, Function.update_of_ne hne]
      exact h.members k d hk
    · rw [heq, List.getElem?_append_right (le_refl _)] at hk
      simp only [Nat.sub_self, List.getElem?_cons_zero, Option.some.injEq] at hk
      rw [heq, ← hcount, ← hk]
      simp only [Raid.add, Function.update_self]
      exact import_members st.parts _ hi ho
    · rw [List.getElem?_eq_none (by simp; omega)] at hk
      cases hk

/-! ## The scan -/

/-- The inner loop for one partition behind. -/
theorem Represents.partner (h : Represents ondisk parts st L) {i j : ℕ} (hij : i ≠ j)
    (hlen : valid ondisk parts j = true → same ondisk i j = true → L.length < 255)
    (hi : (st.parts i).sb_page = ondisk i)
    (hfree : valid ondisk parts j = true → same ondisk i j = true → ¬ Taken L j) :
    Represents ondisk parts (scan_partner ondisk i st j)
        (L ++ if valid ondisk parts j ∧ same ondisk i j then [(i, some j)] else []) ∧
      ((scan_partner ondisk i st j).parts i).sb_page = ondisk i := by
  have hload := h.load j
  have hi' : ((sb_90_load ondisk st j).parts i).sb_page = ondisk i := by
    rw [load_page_other hij, hi]
  have hj' : ((sb_90_load ondisk st j).parts j).sb_page = ondisk j := load_page j
  unfold scan_partner
  -- the tests in the order of the loop: only a valid, free and equal one is imported
  by_cases hos : (st.parts j).os ≠ IDE_PART_LINUX_RAID
  · have hv : valid ondisk parts j = false := by
      rw [h.os] at hos
      simp [valid, hos]
    simp only [if_pos hos, hv, Bool.false_eq_true, false_and, if_false, List.append_nil]
    exact ⟨h, hi⟩
  by_cases hstatus : (st.parts j).status ≠ 0
  · have hno : ¬ (valid ondisk parts j = true ∧ same ondisk i j = true) := by
      rintro ⟨hv, hs⟩
      exact hfree hv hs ((h.taken j).mp hstatus)
    simp only [if_neg hos, if_pos hstatus, if_neg hno, List.append_nil]
    exact ⟨h, hi⟩
  have hvalid : valid ondisk parts j = sb_valid (ondisk j) := by
    rw [h.os, not_not] at hos
    simp [valid, hos]
  simp only [if_neg hos, if_neg hstatus, hi', hj', hvalid, same]
  by_cases hv : sb_valid (ondisk j) = true
  · by_cases hs : sb_equal (ondisk i) (ondisk j) = true
    · simp only [hv, hs, uuid_equal_of_sb_equal hs, Bool.not_true, Bool.false_eq_true, if_false,
        and_self, if_true]
      refine ⟨hload.add (hlen (hvalid.trans hv) hs) hi' ?_, ?_⟩
      · rintro j₁ ⟨⟩
        exact hj'
      · rw [add_page, hi']
    · simp only [hv, hs, Bool.not_true, Bool.not_false, Bool.false_eq_true, if_false, if_true,
        and_false, List.append_nil, ite_self]
      exact ⟨hload, hi'⟩
  · simp only [hv, Bool.not_false, if_true, Bool.false_eq_true, false_and, if_false,
      List.append_nil]
    exact ⟨hload, hi'⟩

theorem followers_succ (i a m : ℕ) :
    followers ondisk parts i a (m + 1) =
      (if valid ondisk parts a ∧ same ondisk i a then [a] else []) ++
        followers ondisk parts i (a + 1) m := by
  unfold followers
  rw [List.range'_succ, List.filter_cons]
  by_cases ha : valid ondisk parts a = true ∧ same ondisk i a = true
  · simp [ha]
  · rw [if_neg (by simpa using ha), if_neg ha, List.nil_append]

/-- The inner loop over `m` partitions from `a` on: the free ones of the same array are
imported in turn. The induction is on `m`, and what it needs of the partitions that are
left is that those of the array are free. -/
theorem Represents.partners (m : ℕ) {a i : ℕ} {st : RaidState} {L : List (ℕ × Option ℕ)}
    (h : Represents ondisk parts st L) (hia : i < a) (hi : (st.parts i).sb_page = ondisk i)
    (hlen : (L ++ (followers ondisk parts i a m).map fun j => (i, some j)).length ≤ 255)
    (hfree : ∀ j, a ≤ j → valid ondisk parts j = true → same ondisk i j = true → ¬ Taken L j) :
    Represents ondisk parts ((List.range' a m).foldl (scan_partner ondisk i) st)
        (L ++ (followers ondisk parts i a m).map fun j => (i, some j)) ∧
      (((List.range' a m).foldl (scan_partner ondisk i) st).parts i).sb_page = ondisk i := by
  induction m generalizing a st L with
  | zero => simpa [followers] using ⟨h, hi⟩
  | succ m ih =>
    rw [followers_succ, List.map_append, ← List.append_assoc] at hlen ⊢
    rw [List.range'_succ, List.foldl_cons]
    have hstep := fun hl => h.partner (j := a) (Nat.ne_of_lt hia) hl hi (hfree a (le_refl a))
    by_cases ha : valid ondisk parts a = true ∧ same ondisk i a = true
    · rw [if_pos ha, List.map_singleton] at hlen ⊢
      rw [if_pos ha] at hstep
      have hl : L.length < 255 := by
        simp only [List.length_append, List.length_singleton] at hlen
        omega
      obtain ⟨hrep, hpage⟩ := hstep fun _ _ => hl
      apply ih hrep (by omega) hpage hlen
      intro j haj hv hs ht
      rw [taken_append, taken_singleton] at ht
      rcases ht with ht | ht | ht
      · exact hfree j (by omega) hv hs ht
      · omega
      · injection ht with ht
        omega
    · rw [if_neg ha, List.map_nil, List.append_nil] at hlen ⊢
      rw [if_neg ha, List.append_nil] at hstep
      obtain ⟨hrep, hpage⟩ := hstep fun hv hs => absurd ⟨hv, hs⟩ ha
      exact ih hrep (by omega) hpage hlen fun j haj => hfree j (by omega)

end Steps

/-! ## Leaders -/

section Leaders

variable (ondisk : ℕ → mdp_super_t) (parts : ℕ → RaidPart)

theorem same_trans {p q r : ℕ} (h : same ondisk p q = true) (h' : same ondisk q r = true) :
    same ondisk p r = true := sb_equal_trans h h'

theorem same_symm {p q : ℕ} (h : same ondisk p q = true) : same ondisk q p = true :=
  sb_equal_symm h

theorem leader_iff (i : ℕ) :
    leader ondisk parts i = true ↔
      valid ondisk parts i = true ∧
        ∀ q < i, valid ondisk parts q = true → ¬ same ondisk q i = true := by
  simp [leader]

/-- Every valid partition has a leader: itself or one before. -/
theorem exists_leader {p : ℕ} (hp : valid ondisk parts p = true) :
    ∃ l, l ≤ p ∧ leader ondisk parts l = true ∧ same ondisk l p = true := by
  induction p using Nat.strong_induction_on with
  | _ p ih =>
    by_cases hl : leader ondisk parts p = true
    · exact ⟨p, le_refl p, hl, sb_equal_refl _⟩
    · have hq : ∃ q < p, valid ondisk parts q = true ∧ same ondisk q p = true := by
        by_contra hno
        push Not at hno
        exact hl ((leader_iff ondisk parts p).mpr ⟨hp, fun q hq hv => by simpa using hno q hq hv⟩)
      obtain ⟨q, hqp, hv, hs⟩ := hq
      obtain ⟨l, hlq, hlead, hsame⟩ := ih q hqp hv
      exact ⟨l, by omega, hlead, same_trans ondisk hsame hs⟩

/-- Two leaders of one array are the same partition. -/
theorem leader_unique {l l' p : ℕ} (hl : leader ondisk parts l = true)
    (hl' : leader ondisk parts l' = true) (hs : same ondisk l p = true)
    (hs' : same ondisk l' p = true) : l = l' := by
  rw [leader_iff] at hl hl'
  have hll : same ondisk l l' = true := same_trans ondisk hs (same_symm ondisk hs')
  rcases Nat.lt_trichotomy l l' with h | h | h
  · exact absurd hll (hl'.2 l h hl.1)
  · exact h
  · exact absurd (same_symm ondisk hll) (hl.2 l' h hl'.1)

theorem mem_followers {i a m j : ℕ} :
    j ∈ followers ondisk parts i a m ↔
      (a ≤ j ∧ j < a + m) ∧ valid ondisk parts j = true ∧ same ondisk i j = true := by
  simp [followers, List.mem_filter, List.mem_range'_1]

theorem mem_devices {n k i : ℕ} {o : Option ℕ} :
    (i, o) ∈ devices ondisk parts n k ↔
      k = i ∧ leader ondisk parts i = true ∧
        ((∃ j, o = some j ∧ j ∈ followers ondisk parts i (i + 1) (n - (i + 1))) ∨
          (o = none ∧ followers ondisk parts i (i + 1) (n - (i + 1)) = [] ∧
            runs_alone ondisk parts i = true)) := by
  unfold devices
  constructor
  · intro h
    split at h
    case isFalse => simp at h
    case isTrue hl =>
      split at h
      case isFalse hf =>
        obtain ⟨j, hj, heq⟩ := List.mem_map.mp h
        obtain ⟨rfl, rfl⟩ := Prod.mk.inj heq
        exact ⟨rfl, hl, .inl ⟨j, rfl, hj⟩⟩
      case isTrue hf =>
        split at h
        case isFalse => simp at h
        case isTrue ha =>
          obtain ⟨rfl, rfl⟩ := Prod.mk.inj (List.mem_singleton.mp h)
          exact ⟨rfl, hl, .inr ⟨rfl, hf, ha⟩⟩
  · rintro ⟨rfl, hl, ⟨j, rfl, hj⟩ | ⟨rfl, hf, ha⟩⟩
    · rw [if_pos hl, if_neg (List.ne_nil_of_mem hj)]
      exact List.mem_map.mpr ⟨j, hj, rfl⟩
    · rw [if_pos hl, if_pos hf, if_pos ha]
      exact List.mem_singleton_self _

/-- Which imports there are. -/
theorem mem_assembled {n m i : ℕ} {o : Option ℕ} :
    (i, o) ∈ assembled ondisk parts n m ↔
      i < m ∧ leader ondisk parts i = true ∧
        ((∃ j, o = some j ∧ j ∈ followers ondisk parts i (i + 1) (n - (i + 1))) ∨
          (o = none ∧ followers ondisk parts i (i + 1) (n - (i + 1)) = [] ∧
            runs_alone ondisk parts i = true)) := by
  unfold assembled
  rw [List.mem_flatMap]
  constructor
  · rintro ⟨k, hk, hmem⟩
    obtain ⟨rfl, hl, h⟩ := (mem_devices ondisk parts).mp hmem
    exact ⟨List.mem_range.mp hk, hl, h⟩
  · rintro ⟨him, hl, h⟩
    exact ⟨i, List.mem_range.mpr him, (mem_devices ondisk parts).mpr ⟨rfl, hl, h⟩⟩

theorem assembled_succ (n m : ℕ) :
    assembled ondisk parts n (m + 1) =
      assembled ondisk parts n m ++ devices ondisk parts n m := by
  simp [assembled, List.range_succ]

/-- When the outer loop comes to a valid partition, it is free exactly if it is a
leader. -/
theorem taken_self_iff {n m : ℕ} (hmn : m < n) (hv : valid ondisk parts m = true) :
    Taken (assembled ondisk parts n m) m ↔ ¬ leader ondisk parts m = true := by
  constructor
  · rintro ⟨⟨i, o⟩, hd, hm⟩ hlead
    obtain ⟨him, hl, hd⟩ := (mem_assembled ondisk parts).mp hd
    rcases hm with hm | hm
    · exact absurd hm (by simpa using (Nat.ne_of_lt him).symm)
    · rcases hd with ⟨j, rfl, hj⟩ | ⟨rfl, _⟩
      · simp only [Option.some.injEq] at hm
        rw [hm, mem_followers] at hj
        have := leader_unique ondisk parts hl hlead hj.2.2 (sb_equal_refl _)
        omega
      · simp at hm
  · intro hlead
    obtain ⟨l, hlm, hl, hs⟩ := exists_leader ondisk parts hv
    have hne : l ≠ m := by
      rintro rfl
      exact hlead hl
    refine ⟨(l, some m), ?_, .inr rfl⟩
    refine (mem_assembled ondisk parts).mpr ⟨by omega, hl, .inl ⟨m, rfl, ?_⟩⟩
    exact (mem_followers ondisk parts).mpr ⟨⟨by omega, by omega⟩, hv, hs⟩

/-- The partitions of a leader's array that are behind it are free then as well. -/
theorem not_taken_follower {n m j : ℕ} (hlead : leader ondisk parts m = true) (hmj : m < j)
    (hs : same ondisk m j = true) : ¬ Taken (assembled ondisk parts n m) j := by
  rintro ⟨⟨i, o⟩, hd, hj⟩
  obtain ⟨him, hl, hd⟩ := (mem_assembled ondisk parts).mp hd
  rcases hj with hj | hj
  · simp only at hj
    omega
  · rcases hd with ⟨j', rfl, hj'⟩ | ⟨rfl, _⟩
    · simp only [Option.some.injEq] at hj
      rw [hj, mem_followers] at hj'
      have := leader_unique ondisk parts hl hlead hj'.2.2 hs
      omega
    · simp at hj

/-! ## The number of imports -/

/-- The partition that an import is counted by: the second one, or the only one. -/
def import_key (d : ℕ × Option ℕ) : ℕ := d.2.getD d.1

/-- The partitions that are imported with a leader, or alone. -/
def counted (n p : ℕ) : Bool :=
  valid ondisk parts p ∧
    (¬ leader ondisk parts p ∨
      (followers ondisk parts p (p + 1) (n - (p + 1)) = [] ∧ runs_alone ondisk parts p))

/-- An import is determined by its key. -/
theorem import_key_inj {n m : ℕ} {d d' : ℕ × Option ℕ} (hd : d ∈ assembled ondisk parts n m)
    (hd' : d' ∈ assembled ondisk parts n m) (h : import_key d = import_key d') : d = d' := by
  obtain ⟨i, o⟩ := d
  obtain ⟨i', o'⟩ := d'
  obtain ⟨-, hl, ho⟩ := (mem_assembled ondisk parts).mp hd
  obtain ⟨-, hl', ho'⟩ := (mem_assembled ondisk parts).mp hd'
  have huniq : ∀ {l j : ℕ}, leader ondisk parts l = true → leader ondisk parts j = true →
      j ∈ followers ondisk parts l (l + 1) (n - (l + 1)) → False := by
    intro l j hl hj hmem
    obtain ⟨⟨hlj, -⟩, -, hs⟩ := (mem_followers ondisk parts).mp hmem
    have := leader_unique ondisk parts hl hj hs (sb_equal_refl _)
    omega
  rcases ho with ⟨j, rfl, hj⟩ | ⟨rfl, -, -⟩ <;> rcases ho' with ⟨j', rfl, hj'⟩ | ⟨rfl, -, -⟩ <;>
    simp only [import_key, Option.getD_some, Option.getD_none] at h
  · subst h
    rw [leader_unique ondisk parts hl hl' ((mem_followers ondisk parts).mp hj).2.2
      ((mem_followers ondisk parts).mp hj').2.2]
  · exact (huniq hl (h ▸ hl') hj).elim
  · exact (huniq hl' (h ▸ hl) hj').elim
  · rw [h]

theorem assembled_nodup (n m : ℕ) : (assembled ondisk parts n m).Nodup := by
  unfold assembled
  rw [List.nodup_flatMap]
  constructor
  · intro i _
    unfold devices
    split
    · split
      · split <;> simp
      · exact ((List.nodup_range' 1).filter _).map fun a b h => by simpa using h
    · exact List.nodup_nil
  · refine List.nodup_range.imp ?_
    intro a b hab
    rw [Function.onFun, List.disjoint_left]
    rintro ⟨i, o⟩ ha hb
    exact hab (((mem_devices ondisk parts).mp ha).1.trans ((mem_devices ondisk parts).mp hb).1.symm)

theorem import_keys_nodup (n m : ℕ) : ((assembled ondisk parts n m).map import_key).Nodup :=
  List.Nodup.map_on (fun _ hd _ hd' h => import_key_inj ondisk parts hd hd' h)
    (assembled_nodup ondisk parts n m)

/-- The keys are the partitions that are counted. -/
theorem mem_import_keys {n p : ℕ} :
    p ∈ (assembled ondisk parts n n).map import_key ↔ p < n ∧ counted ondisk parts n p = true := by
  have hcounted : counted ondisk parts n p = true ↔ valid ondisk parts p = true ∧
      (¬ leader ondisk parts p = true ∨
        (followers ondisk parts p (p + 1) (n - (p + 1)) = [] ∧ runs_alone ondisk parts p = true)) :=
    by simp [counted]
  rw [List.mem_map, hcounted]
  constructor
  · rintro ⟨⟨i, o⟩, hd, rfl⟩
    obtain ⟨hin, hl, ⟨j, rfl, hj⟩ | ⟨rfl, hf, ha⟩⟩ := (mem_assembled ondisk parts).mp hd
    · obtain ⟨⟨hij, hjn⟩, hv, hs⟩ := (mem_followers ondisk parts).mp hj
      refine ⟨by simp only [import_key, Option.getD_some]; omega, hv, .inl fun hlead => ?_⟩
      have := leader_unique ondisk parts hl hlead hs (sb_equal_refl _)
      simp only [import_key, Option.getD_some] at this
      omega
    · exact ⟨hin, ((leader_iff ondisk parts i).mp hl).1, .inr ⟨hf, ha⟩⟩
  · rintro ⟨hpn, hv, hcase⟩
    by_cases hl : leader ondisk parts p = true
    · rcases hcase with hno | hlone
      · exact absurd hl hno
      · exact ⟨(p, none), (mem_assembled ondisk parts).mpr ⟨hpn, hl, .inr ⟨rfl, hlone⟩⟩, rfl⟩
    · obtain ⟨l, hlp, hlead, hs⟩ := exists_leader ondisk parts hv
      have hne : l ≠ p := by
        rintro rfl
        exact hl hlead
      refine ⟨(l, some p), (mem_assembled ondisk parts).mpr
        ⟨by omega, hlead, .inl ⟨p, rfl, ?_⟩⟩, rfl⟩
      exact (mem_followers ondisk parts).mpr ⟨⟨by omega, by omega⟩, hv, hs⟩

/-- There are as many imports as partitions that are counted. -/
theorem assembled_length (n : ℕ) :
    (assembled ondisk parts n n).length =
      ((List.range n).filter (counted ondisk parts n)).length := by
  rw [← List.length_map import_key]
  apply List.Perm.length_eq
  rw [List.perm_ext_iff_of_nodup (import_keys_nodup ondisk parts n n) (List.nodup_range.filter _)]
  intro p
  rw [mem_import_keys, List.mem_filter, List.mem_range]

theorem assembled_length_le {n m : ℕ} (hmn : m ≤ n) : (assembled ondisk parts n m).length ≤ n := by
  have hsub : assembled ondisk parts n m <+: assembled ondisk parts n n := by
    obtain ⟨k, rfl⟩ := Nat.exists_eq_add_of_le hmn
    unfold assembled
    rw [List.range_add, List.flatMap_append]
    exact List.prefix_append _ _
  refine le_trans hsub.length_le ?_
  rw [assembled_length]
  exact le_trans (List.length_filter_le _ _) (le_of_eq (List.length_range))

end Leaders

/-! ## The whole scan -/

section Scan

variable {ondisk : ℕ → mdp_super_t} {parts : ℕ → RaidPart}

/-- The end of the outer loop for a leader `i` whose followers are imported. -/
theorem Represents.alone {st : RaidState} {L F : List (ℕ × Option ℕ)} {i : ℕ}
    (h : Represents ondisk parts st (L ++ F)) (hi : (st.parts i).sb_page = ondisk i)
    (hfree : ¬ Taken L i) (hF : Taken F i ↔ F ≠ []) (hlen : L.length < 255) :
    Represents ondisk parts (scan_alone st i)
      (L ++ if F = [] then if runs_alone ondisk parts i then [(i, none)] else [] else F) := by
  -- the leader's own status tells whether a follower was found
  have hstatus : (st.parts i).status = 0 ↔ F = [] := by
    have ht := h.taken i
    rw [taken_append, hF] at ht
    constructor
    · intro h0
      by_contra hF'
      exact ht.mpr (.inr hF') h0
    · intro hF'
      by_contra h0
      rcases ht.mp h0 with h1 | h1
      · exact hfree h1
      · exact h1 hF'
  unfold scan_alone
  rw [h.sectors, hi]
  by_cases hnil : F = []
  · have h0 := hstatus.mpr hnil
    rw [hnil, List.append_nil] at h
    by_cases ha : runs_alone ondisk parts i = true
    · have hboth : (parts i).sector_num > 0x200000 ∧ level_to_pers (ondisk i).level = RAID1 := by
        simpa [runs_alone] using ha
      rw [if_pos ⟨h0, hboth.1⟩, if_pos hboth.2, if_pos hnil, if_pos ha]
      exact h.add hlen hi fun j hj => by cases hj
    · have hboth : (parts i).sector_num > 0x200000 → ¬ level_to_pers (ondisk i).level = RAID1 := by
        simpa [runs_alone] using ha
      rw [if_pos hnil, if_neg ha, List.append_nil]
      by_cases hbig : (parts i).sector_num > 0x200000
      · rw [if_pos ⟨h0, hbig⟩, if_neg (hboth hbig)]
        exact h
      · rw [if_neg (fun hc => hbig hc.2)]
        exact h
  · rw [if_neg (fun hc => hnil (hstatus.mp hc.1)), if_neg hnil]
    exact h

/-- The imports of a leader with its followers. -/
def led (ondisk : ℕ → mdp_super_t) (parts : ℕ → RaidPart) (n m : ℕ) : List (ℕ × Option ℕ) :=
  (followers ondisk parts m (m + 1) (n - (m + 1))).map fun j => (m, some j)

theorem devices_leader {n m : ℕ} (h : leader ondisk parts m = true) :
    devices ondisk parts n m =
      if led ondisk parts n m = [] then if runs_alone ondisk parts m then [(m, none)] else []
      else led ondisk parts n m := by
  unfold devices led
  simp only [if_pos h, List.map_eq_nil_iff]

theorem taken_led (n m : ℕ) : Taken (led ondisk parts n m) m ↔ led ondisk parts n m ≠ [] := by
  constructor
  · rintro ⟨d, hd, -⟩ hnil
    rw [hnil] at hd
    simp at hd
  · intro hne
    obtain ⟨d, hd⟩ := List.exists_mem_of_ne_nil _ hne
    obtain ⟨j, -, rfl⟩ := List.mem_map.mp hd
    exact ⟨(m, some j), hd, .inl rfl⟩

/-- The imports of a leader that is not yet in a device. -/
theorem Represents.leads {st : RaidState} {n m : ℕ}
    (h : Represents ondisk parts st (assembled ondisk parts n m)) (hmn : m < n) (hn : n < 255)
    (hlen : (assembled ondisk parts n m ++ devices ondisk parts n m).length ≤ n)
    (hlead : leader ondisk parts m = true) (hpage : (st.parts m).sb_page = ondisk m)
    (hfree : ¬ Taken (assembled ondisk parts n m) m) :
    Represents ondisk parts
      (scan_alone ((List.range' (m + 1) (n - (m + 1))).foldl (scan_partner ondisk m) st) m)
      (assembled ondisk parts n m ++ devices ondisk parts n m) := by
  have hshort : (assembled ondisk parts n m).length < 255 :=
    lt_of_le_of_lt (assembled_length_le ondisk parts (Nat.le_of_lt hmn)) hn
  have hbound : (assembled ondisk parts n m ++ led ondisk parts n m).length ≤ 255 := by
    rw [devices_leader hlead] at hlen
    by_cases hnil : led ondisk parts n m = []
    · rw [hnil, List.append_nil]
      omega
    · rw [if_neg hnil] at hlen
      omega
  obtain ⟨hrep, hpage'⟩ := h.partners (n - (m + 1)) (Nat.lt_succ_self m) hpage hbound
    fun j hj _ hs => not_taken_follower ondisk parts hlead hj hs
  rw [devices_leader hlead]
  exact hrep.alone hpage' hfree (taken_led n m) hshort

/-- The outer loop for one partition. -/
theorem Represents.partition {st : RaidState} {n m : ℕ}
    (h : Represents ondisk parts st (assembled ondisk parts n m)) (hmn : m < n) (hn : n < 255) :
    Represents ondisk parts (scan_partition ondisk n st m) (assembled ondisk parts n (m + 1)) := by
  have hlen : (assembled ondisk parts n (m + 1)).length ≤ n :=
    assembled_length_le ondisk parts hmn
  rw [assembled_succ] at hlen ⊢
  have hskip : ¬ leader ondisk parts m = true → devices ondisk parts n m = [] := fun hl => if_neg hl
  have hinvalid : valid ondisk parts m = false → devices ondisk parts n m = [] := by
    intro hv
    apply hskip
    rw [leader_iff, hv]
    simp
  unfold scan_partition
  -- the tests in the order of the loop: the type, the status, the superblock
  by_cases hos : (st.parts m).os ≠ IDE_PART_LINUX_RAID
  · have hv : valid ondisk parts m = false := by
      rw [h.os] at hos
      simp [valid, hos]
    rw [if_pos hos, hinvalid hv, List.append_nil]
    exact h
  have hvalid : valid ondisk parts m = sb_valid (ondisk m) := by
    rw [h.os, not_not] at hos
    simp [valid, hos]
  by_cases hstatus : (st.parts m).status ≠ 0
  · rw [if_neg hos, if_pos hstatus]
    have hnone : devices ondisk parts n m = [] := by
      by_cases hv : valid ondisk parts m = true
      · exact hskip ((taken_self_iff ondisk parts hmn hv).mp ((h.taken m).mp hstatus))
      · exact hinvalid (by simpa using hv)
    rw [hnone, List.append_nil]
    exact h
  have hload := h.load m
  have hpage : ((sb_90_load ondisk st m).parts m).sb_page = ondisk m := load_page m
  simp only [if_neg hos, if_neg hstatus, hpage]
  by_cases hv : sb_valid (ondisk m) = true
  · have hfree : ¬ Taken (assembled ondisk parts n m) m := fun ht => hstatus ((h.taken m).mpr ht)
    -- a partition that is valid and free leads: else the one before it would have taken it
    have hlead : leader ondisk parts m = true := by
      by_contra hl
      exact hfree ((taken_self_iff ondisk parts hmn (hvalid.trans hv)).mpr hl)
    simp only [hv, Bool.not_true, Bool.false_eq_true, if_false]
    exact hload.leads hmn hn hlen hlead hpage hfree
  · have hnone := hinvalid (hvalid.trans (by simpa using hv))
    simp only [hv, Bool.not_false, if_true, hnone, List.append_nil]
    exact hload

/-- The tables before `raid_init`: all partitions are free, and there is no device. -/
structure Fresh (st : RaidState) : Prop where
  none_yet : st.raid_dev_no = 0
  free : ∀ p, (st.parts p).status = 0

/-- **The scan makes the table `md[]` from the imports of `assembled`.** -/
theorem raid_scan_represents {st : RaidState} (hst : Fresh st) {n : ℕ} (hn : n < 255) :
    Represents ondisk st.parts (raid_scan ondisk n st) (assembled ondisk st.parts n n) := by
  have hrun : ∀ m, m ≤ n → Represents ondisk st.parts
      ((List.range m).foldl (scan_partition ondisk n) st) (assembled ondisk st.parts n m) := by
    intro m
    induction m with
    | zero =>
      intro _
      refine ⟨by simpa [assembled] using hst.none_yet, fun _ => rfl, fun _ => rfl, fun p => ?_,
        fun k d hk => ?_⟩
      · simp [hst.free, Taken, assembled]
      · simp [assembled] at hk
    | succ m ih =>
      intro hmn
      rw [List.range_succ, List.foldl_append]
      exact (ih (by omega)).partition hmn hn
  exact hrun n (le_refl n)

end Scan

end CsBoot.Raid
