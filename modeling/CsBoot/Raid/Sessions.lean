/-
A mirror over any number of starts of the board, `src/src/raid/raid.c`: each time the
partitions that are there are put together by `raid_init`, and then written to by `md_write`.

A partition may be missing at a start. Then the other one runs alone, and what is written to it
is not on the missing one. It is told by the count of updates, which the first write to a lone
partition raises, and which `md_import_device` compares. A partition that has been left behind
is *stale*, and the one with the larger count has what was written last.

The count does not help in two cases: a stale partition that is there alone, and a newer
partition of number 1 that is scanned first (`freshest_survives_iff`). In every run without
them, whatever is read from the mirror is what was written last (`mirror_reads_last`).

There are two partitions, called by their numbers in the array, and they are the only ones that
`raid_init` finds. What it puts into the virtual MBR is a parameter.
-/
import Mathlib.Data.List.GetD
import CsBoot.Lib.Run
import CsBoot.Raid.Assemble
import CsBoot.Raid.MarkFirst

set_option autoImplicit false

namespace CsBoot.Raid

open RangeStore

/-! ## Superblocks on the disk -/

/-- The words of the superblock in these bytes. -/
def sb_words (d : ℕ → UInt8) : mdp_super_t := fun i =>
  if i < MD_SB_BYTES / 4 then
    UInt32.ofNat ((d (4 * i)).toNat + 256 * (d (4 * i + 1)).toNat + 65536 * (d (4 * i + 2)).toNat
      + 16777216 * (d (4 * i + 3)).toNat)
  else 0

/-- A superblock that was stored is loaded again. -/
theorem sb_words_bytes {d : ℕ → UInt8} {sb : mdp_super_t}
    (hsb : ∀ i, MD_SB_BYTES / 4 ≤ i → sb i = 0) (hd : ∀ k, k < MD_SB_BYTES → d k = sb_bytes sb k) :
    sb_words d = sb := by
  funext i
  unfold sb_words
  split_ifs with hi
  · have hbyte : ∀ j, j < 4 → (d (4 * i + j)).toNat = (sb i).toNat / 2 ^ (8 * j) % 256 := by
      intro j hj
      rw [hd _ (by unfold MD_SB_BYTES at *; omega), sb_bytes, UInt8.toNat_ofNat',
        show (4 * i + j) / 4 = i by omega, show (4 * i + j) % 4 = j by omega,
        Nat.shiftRight_eq_div_pow]
    have h₀ := hbyte 0 (by omega)
    have h₁ := hbyte 1 (by omega)
    have h₂ := hbyte 2 (by omega)
    have h₃ := hbyte 3 (by omega)
    have hlt := (sb i).toNat_lt
    rw [Nat.add_zero] at h₀
    rw [h₀, h₁, h₂, h₃, ← UInt32.toNat_inj, UInt32.toNat_ofNat']
    omega
  · exact (hsb i (Nat.not_lt.mp hi)).symm

/-- The words depend on the bytes of the superblock only. -/
theorem sb_words_congr {d d' : ℕ → UInt8} (h : ∀ k, k < MD_SB_BYTES → d k = d' k) :
    sb_words d = sb_words d' := by
  funext i
  unfold sb_words
  split_ifs with hi
  · unfold MD_SB_BYTES at *
    rw [h _ (by omega), h _ (by omega), h _ (by omega), h _ (by omega)]
  · rfl

/-! ## Starts and writes -/

/-- The content of the partitions, the partitions that the array is made of in the order of
`disk[]`, what its functions work on, and what was last written to each of its bytes. -/
structure Mirror where
  disk : Members
  up : List ℕ
  md : MdState
  content : ℕ → UInt8

section Mirror

variable ( csum_partial : mdp_super_t → UInt32) (part : ℕ → RaidPart)

/-- `part->sb_offset`, as `sb_90_load` sets it. -/
def sb_place (p : ℕ) : ℕ := MD_NEW_SIZE_SECTORS (part p).sector_num

/-- The superblock of a partition, as it is on the disk. -/
def sb_page (disk : Members) (p : ℕ) : mdp_super_t :=
  sb_words fun k => disk p (512 * sb_place part p + k)

/-- The entry of `present` that stands at `k` in `ide_partitions`. -/
def listed (present : List ℕ) (k : ℕ) : ℕ := present.getD k 0

/-- The partitions that the array is made of after `raid_init`. -/
def mirror_members (disk : Members) (present : List ℕ) : List ℕ :=
  let st := raid_scan (fun k => sb_page part disk (listed present k)) present.length
    ⟨fun k => part (listed present k), fun _ => md_free, 0⟩
  if st.raid_dev_no = 0 then [] else (st.md 0).members.map (listed present)

/-- The board is started with these partitions. -/
def Mirror.boot (s : Mirror) (present : List ℕ) (md_mbr : ℕ → UInt8) : Mirror :=
  let up := mirror_members part s.disk present
  { disk := s.disk
    up := up
    md :=
      { md_mbr := md_mbr
        mbr_wc := 0
        members := fun i => s.disk (listed up i)
        sb := sb_page part s.disk (listed up 0)
        sb_update := false }
    content := s.content }

/-- The array as `md_read` and `md_write` see it. -/
def mirror_array (up : List ℕ) (h : 0 < up.length) : MdArray :=
  ⟨.raid1, up.length, sb_place part (listed up 0), h⟩

/-- `md_write`, with what it leaves on the partitions. -/
def Mirror.write (s : Mirror) (h : 0 < s.up.length) (start n_byte : ℕ) (buf : ℕ → UInt8) :
    Mirror :=
  let md := (md_write csum_partial (mirror_array part s.up h) s.md start n_byte buf).1
  { disk := fun p => if p ∈ s.up then md.members (s.up.idxOf p) else s.disk p
    up := s.up
    md := md
    content :=
      if start = 0 then s.content
      else splice s.content (512 * (start - SECTOR_OFFSET)) n_byte buf }

inductive MirrorOp
  | boot (present : List ℕ) (md_mbr : ℕ → UInt8)
  | write (start n_byte : ℕ) (buf : ℕ → UInt8)

def mirror_step (s : Mirror) : MirrorOp → Option Mirror
  | .boot present md_mbr => some (s.boot part present md_mbr)
  | .write start n_byte buf =>
    if h : 0 < s.up.length then some (s.write csum_partial part h start n_byte buf) else none

/-! ## The conditions -/

/-- The count of updates of a partition. -/
def updates (disk : Members) (p : ℕ) : ℕ := md_event (sb_page part disk p)

/-- The bytes of a request are those of the virtual MBR, or in the first `limit` sectors of
the array. -/
def InArea (limit start n_byte : ℕ) : Prop :=
  start = 0 ∨ 512 * (start - SECTOR_OFFSET) + n_byte ≤ 512 * limit

/-- A partition that is there alone is not stale, and number 1 is not newer when it comes
first. -/
def BootOk (disk : Members) : List ℕ → Prop
  | [] => True
  | [p] => p < 2 ∧ updates part disk (1 - p) ≤ updates part disk p
  | [p, q] => p < 2 ∧ q < 2 ∧ p ≠ q ∧ (p = 1 → updates part disk p ≤ updates part disk q)
  | _ => False

/-- Requests stay in the area, and a count does not start over. -/
def MirrorOk (limit : ℕ) (s : Mirror) : MirrorOp → Prop
  | .boot present _ => BootOk part s.disk present
  | .write start n_byte _ =>
    InArea limit start n_byte ∧
      (s.up.length = 1 → s.md.sb_update = false → s.md.sb.events_lo.toNat < 2 ^ 32 - 2)

/-- The two partitions as `ide_partitions` lists them, and an area of sectors in front of
both superblocks. -/
structure Halves (limit : ℕ) : Prop where
  raid : ∀ p, (part p).os = IDE_PART_LINUX_RAID
  free : ∀ p, (part p).status = 0
  area : ∀ p, limit ≤ sb_place part p

/-- The superblock of the half with number `p` of a mirror. -/
structure HalfSb (p : ℕ) (sb : mdp_super_t) : Prop where
  valid : sb_valid sb = true
  level : level_to_pers sb.level = RAID1
  number : sb.this_number.toNat = p
  rest : ∀ i, MD_SB_BYTES / 4 ≤ i → sb i = 0

/-- The halves belong together, and one that is not stale has what was written last. -/
structure Together (limit : ℕ) (disk : Members) (content : ℕ → UInt8) : Prop where
  half : ∀ p, p < 2 → HalfSb p (sb_page part disk p)
  same : sb_equal (sb_page part disk 0) (sb_page part disk 1) = true
  current : ∀ p, p < 2 → updates part disk (1 - p) ≤ updates part disk p →
    ∀ y, y < 512 * limit → disk p y = content y

/-- The partitions of the array are not stale. One that runs alone and has been written to has
the larger count. -/
inductive Running (disk : Members) (updated : Bool) : List ℕ → Prop
  | none : Running disk updated []
  | alone {p : ℕ} : p < 2 → updates part disk (1 - p) ≤ updates part disk p →
      (updated = true → updates part disk (1 - p) < updates part disk p) →
      Running disk updated [p]
  | both : updates part disk 0 = updates part disk 1 → Running disk updated [0, 1]

/-- What a run keeps. -/
structure MirrorInv (limit : ℕ) (s : Mirror) : Prop where
  together : Together part limit s.disk s.content
  running : Running part s.disk s.md.sb_update s.up
  members : ∀ i, i < s.up.length → s.md.members i = s.disk (listed s.up i)
  sb : 0 < s.up.length → s.md.sb = sb_page part s.disk (listed s.up 0)

end Mirror

/-! ## What is assembled -/

section Boot

variable {ondisk : ℕ → mdp_super_t} {parts : ℕ → RaidPart}

/-- A partition without a partner. -/
theorem assembled_one (hv : valid ondisk parts 0 = true) :
    assembled ondisk parts 1 1 = if runs_alone ondisk parts 0 then [(0, none)] else [] := by
  have hlead : leader ondisk parts 0 = true := by
    unfold leader
    simp [hv]
  simp [assembled, devices, hlead, followers]

/-- Two partitions of the same array. -/
theorem assembled_two (hv₀ : valid ondisk parts 0 = true) (hv₁ : valid ondisk parts 1 = true)
    (hs : same ondisk 0 1 = true) : assembled ondisk parts 2 2 = [(0, some 1)] := by
  have hlead₀ : leader ondisk parts 0 = true := by
    unfold leader
    simp [hv₀]
  have hlead₁ : leader ondisk parts 1 = false := by
    unfold leader
    simp [hv₀, hs]
  simp [assembled, devices, hlead₀, hlead₁, followers, hv₁, hs, List.range_succ]

end Boot

section Steps

variable { csum_partial : mdp_super_t → UInt32} {part : ℕ → RaidPart} {limit : ℕ}
  {disk : Members} {content : ℕ → UInt8} {p q : ℕ} {s : Mirror}

/-- The device that `raid_init` makes of the partitions that are there. -/
theorem mirror_members_eq (h : Halves part limit) {present : List ℕ}
    (hlen : present.length < 255) :
    mirror_members part disk present =
      match assembled (fun k => sb_page part disk (listed present k))
        (fun k => part (listed present k)) present.length present.length with
      | [] => []
      | d :: _ => (device_members (fun k => sb_page part disk (listed present k)) d).map
          (listed present) := by
  have hfresh : Fresh ⟨fun k => part (listed present k), fun _ => md_free, 0⟩ :=
    ⟨rfl, fun k => h.free _⟩
  have hrep := @raid_scan_represents (fun k => sb_page part disk (listed present k)) _ hfresh _ hlen
  unfold mirror_members
  generalize assembled _ _ _ _ = L at hrep ⊢
  have hcount := hrep.count
  cases L with
  | nil => simp only [hcount, List.length_nil, if_true]
  | cons d L =>
    simp only [hcount, List.length_cons, Nat.add_eq_zero_iff, Nat.one_ne_zero, and_false, if_false]
    rw [hrep.members 0 d rfl]

theorem Together.valid (h : Together part limit disk content) (hh : Halves part limit)
    {present : List ℕ} {k : ℕ} (hp : listed present k < 2) :
    Raid.valid (fun k => sb_page part disk (listed present k))
      (fun k => part (listed present k)) k = true := by
  simp [Raid.valid, hh.raid, (h.half _ hp).valid]

/-- **A start under the condition** makes the array of partitions that are not stale. -/
theorem Together.boot (h : Together part limit disk content) (hh : Halves part limit)
    {present : List ℕ} (hok : BootOk part disk present) :
    Running part disk false (mirror_members part disk present) := by
  match present, hok with
  | [], _ =>
    rw [mirror_members_eq hh (by decide)]
    exact .none
  | [p], hok =>
    obtain ⟨hp, hle⟩ := hok
    have hv : Raid.valid (fun k => sb_page part disk (listed [p] k))
        (fun k => part (listed [p] k)) 0 = true := h.valid hh hp
    rw [mirror_members_eq hh (by simp), List.length_singleton, assembled_one hv]
    split_ifs
    · exact .alone hp hle (fun hno => nomatch hno)
    · exact .none
  | [p, q], hok =>
    obtain ⟨hp, hq, hne, hfirst⟩ := hok
    have hsame : Raid.same (fun k => sb_page part disk (listed [p, q] k)) 0 1 = true := by
      have hpq : p = 0 ∧ q = 1 ∨ p = 1 ∧ q = 0 := by omega
      obtain ⟨rfl, rfl⟩ | ⟨rfl, rfl⟩ := hpq
      · exact h.same
      · exact sb_equal_symm h.same
    have hv₀ : Raid.valid (fun k => sb_page part disk (listed [p, q] k))
        (fun k => part (listed [p, q] k)) 0 = true := h.valid hh hp
    have hv₁ : Raid.valid (fun k => sb_page part disk (listed [p, q] k))
        (fun k => part (listed [p, q] k)) 1 = true := h.valid hh hq
    rw [mirror_members_eq hh (by simp), show [p, q].length = 2 from rfl,
      assembled_two hv₀ hv₁ hsame]
    -- the numbers in the superblocks are those of the partitions
    have hnum : (sb_page part disk p).this_number < (sb_page part disk q).this_number ↔ p < q := by
      rw [UInt32.lt_iff_toNat_lt, (h.half p hp).number, (h.half q hq).number]
    change Running part disk false ((if updates part disk p = updates part disk q then
        if (sb_page part disk p).this_number < (sb_page part disk q).this_number then [0, 1]
        else [1, 0]
      else if updates part disk q < updates part disk p ∧
        (sb_page part disk p).this_number < (sb_page part disk q).this_number then [0]
      else [1]).map (listed [p, q]))
    simp only [hnum]
    have hpq : p = 0 ∧ q = 1 ∨ p = 1 ∧ q = 0 := by omega
    obtain ⟨rfl, rfl⟩ | ⟨rfl, rfl⟩ := hpq
    · split_ifs with heq hlt hnewer
      · exact .both heq
      · exact absurd Nat.one_pos hlt
      · exact .alone (p := 0) (by omega) hnewer.1.le (fun hno => nomatch hno)
      · have hle : updates part disk 0 ≤ updates part disk 1 := by omega
        exact .alone (p := 1) (by omega) hle (fun hno => nomatch hno)
    · -- the list begins with number 1, which is not the newer by the condition
      have hle := hfirst rfl
      split_ifs with heq hlt hnewer
      · exact absurd hlt (by omega)
      · exact .both heq.symm
      · exact absurd hnewer.2 (by omega)
      · exact .alone (p := 0) (by omega) hle (fun hno => nomatch hno)

/-! ## One write -/

theorem sb_page_set_other {d : ℕ → UInt8} (h : q ≠ p) :
    sb_page part (Function.update disk p d) q = sb_page part disk q := by
  rw [sb_page, sb_page, Function.update_of_ne h]

theorem sb_page_set_self {d : ℕ → UInt8} :
    sb_page part (Function.update disk p d) p =
      sb_words fun k => d (512 * sb_place part p + k) := by
  rw [sb_page, Function.update_self]

/-- The mark of a lone partition is a superblock of the same half. -/
theorem HalfSb.ahead {sb : mdp_super_t} (h : HalfSb p sb) :
    HalfSb p (sb_ahead csum_partial sb) := by
  have hother : ∀ i, i ≠ 38 → i ≠ 39 → i ≠ 41 → sb_ahead csum_partial sb i = sb i := by
    intro i h₁ h₂ h₃
    unfold sb_ahead
    rw [Function.update_of_ne h₁, Function.update_of_ne h₁, Function.update_of_ne h₃,
      Function.update_of_ne h₂]
  refine ⟨?_, ?_, ?_, fun i hi => ?_⟩
  · rw [← h.valid]
    unfold sb_valid mdp_super_t.md_magic mdp_super_t.raid_disks mdp_super_t.this_state
    rw [hother 0 (by decide) (by decide) (by decide), hother 10 (by decide) (by decide) (by decide),
      hother 996 (by decide) (by decide) (by decide)]
  · rw [← h.level]
    unfold mdp_super_t.level
    rw [hother 7 (by decide) (by decide) (by decide)]
  · rw [← h.number]
    unfold mdp_super_t.this_number
    rw [hother 992 (by decide) (by decide) (by decide)]
  · unfold MD_SB_BYTES at hi
    rw [hother i (by omega) (by omega) (by omega)]
    exact h.rest i hi

theorem sb_equal_ahead {sb : mdp_super_t} : sb_equal sb (sb_ahead csum_partial sb) = true := by
  unfold sb_equal
  rw [List.all_eq_true]
  intro i hi
  rw [List.mem_range, MD_SB_GENERIC_CONSTANT_WORDS] at hi
  rw [decide_eq_true_iff]
  by_cases h9 : i = NR_DISKS
  · rw [h9, Function.update_self, Function.update_self]
  · rw [Function.update_of_ne h9, Function.update_of_ne h9, sb_ahead,
      Function.update_of_ne (by omega), Function.update_of_ne (by omega),
      Function.update_of_ne (by omega), Function.update_of_ne (by omega)]

/-- A lone partition with the larger count has the new content. -/
theorem Together.set (h : Together part limit disk content) (hp : p < 2) {d : ℕ → UInt8}
    {content' : ℕ → UInt8}
    (hhalf : HalfSb p (sb_page part (Function.update disk p d) p))
    (hsame : sb_equal (sb_page part disk p) (sb_page part (Function.update disk p d) p) = true)
    (hnewer : updates part disk (1 - p) < updates part (Function.update disk p d) p)
    (hcontent : ∀ y, y < 512 * limit → d y = content' y) :
    Together part limit (Function.update disk p d) content' := by
  have hother : sb_page part (Function.update disk p d) (1 - p) = sb_page part disk (1 - p) :=
    sb_page_set_other (by omega)
  refine ⟨fun q hq => ?_, ?_, fun q hq hle y hy => ?_⟩
  · by_cases hqp : q = p
    · rw [hqp]
      exact hhalf
    · rw [sb_page_set_other hqp]
      exact h.half q hq
  · have hpp : p = 0 ∨ p = 1 := by omega
    obtain rfl | rfl := hpp
    · rw [hother]
      exact sb_equal_trans (sb_equal_symm hsame) h.same
    · rw [sb_page_set_other (by omega)]
      exact sb_equal_trans h.same hsame
  · by_cases hqp : q = p
    · rw [hqp, Function.update_self]
      exact hcontent y hy
    · -- the other one is stale
      have hq' : 1 - q = p := by omega
      have hq'' : q = 1 - p := by omega
      rw [hq', updates, updates, hq'', hother] at hle
      exact absurd hle (Nat.not_le.mpr hnewer)

/-- Bytes of the area are not bytes of the superblock. -/
theorem sb_page_splice (hh : Halves part limit) {start n_byte : ℕ} {buf : ℕ → UInt8}
    (harea : 512 * start + n_byte ≤ 512 * limit) (d : ℕ → UInt8) :
    (sb_words fun k => splice d (512 * start) n_byte buf (512 * sb_place part p + k)) =
      sb_words fun k => d (512 * sb_place part p + k) := by
  have hle := hh.area p
  exact sb_words_congr fun k _ => splice_outside (.inr (by omega))

/-- `md_write` for sectors of the array. -/
theorem mirror_write_array {up : List ℕ} (hup : 0 < up.length) {md : MdState}
    {start n_byte : ℕ} {buf : ℕ → UInt8} (h₀ : start ≠ 0) :
    (md_write csum_partial (mirror_array part up hup) md start n_byte buf).1 =
      raid1_write csum_partial (mirror_array part up hup) md (start - SECTOR_OFFSET) n_byte
        buf := by
  unfold md_write
  rw [md_dispatch_array h₀]
  rfl

/-- A lone partition that has been marked. -/
structure Marked (part : ℕ → RaidPart) (limit : ℕ) (disk : Members) (p : ℕ) (md : MdState) :
    Prop where
  half : HalfSb p md.sb
  same : sb_equal (sb_page part disk p) md.sb = true
  newer : updates part disk (1 - p) < md_event md.sb
  stored : (sb_words fun k => md.members 0 (512 * sb_place part p + k)) = md.sb
  area : ∀ y, y < 512 * limit → md.members 0 y = disk p y
  updated : md.sb_update = true

/-- The first part of a write to a partition that runs alone. -/
theorem MirrorInv.marked (h : MirrorInv part limit s) (hh : Halves part limit) (hup : s.up = [p])
    (hlen : 0 < s.up.length)
    (hlo : s.md.sb_update = false → s.md.sb.events_lo.toNat < 2 ^ 32 - 2) :
    Marked part limit s.disk p (raid1_mark csum_partial (mirror_array part s.up hlen) s.md) := by
  obtain ⟨disk, up, md, content⟩ := s
  obtain rfl : up = [p] := hup
  have hmem : md.members 0 = disk p := h.members 0 hlen
  have hsb : md.sb = sb_page part disk p := h.sb hlen
  cases h.running with | alone hp hle hlt => ?_
  have hhalf := h.together.half p hp
  rw [← hsb] at hhalf
  unfold raid1_mark
  -- the first write counts the events up, and the later ones find them ahead
  cases hset : md.sb_update with
  | true =>
    simp only [if_true]
    refine ⟨hhalf, ?_, ?_, ?_, fun y _ => by rw [hmem], hset⟩
    · rw [hsb]
      exact sb_equal_refl _
    · rw [hsb]
      exact hlt hset
    · rw [hmem, hsb]
      rfl
  | false =>
    have hone : (mirror_array part [p] hlen).disk_no = 1 := rfl
    simp only [Bool.false_eq_true, if_false, hone, if_true]
    have hahead : HalfSb p (sb_ahead csum_partial md.sb) := hhalf.ahead
    refine ⟨hahead, ?_, ?_, ?_, fun y hy => ?_, rfl⟩
    · rw [hsb]
      exact sb_equal_ahead
    · refine hle.trans_lt ?_
      rw [updates, ← hsb]
      exact (sb_ahead_newer_iff csum_partial md.sb).mpr (hlo hset)
    · simp only [member_write, Function.update_self]
      refine sb_words_bytes hahead.rest fun k hk => ?_
      exact (splice_add hk).trans (congrArg _ (Nat.zero_add k))
    · have hle := hh.area p
      simp only [member_write, Function.update_self]
      rw [splice_outside, hmem]
      left
      exact lt_of_lt_of_le hy (Nat.mul_le_mul_left 512 hle)

/-- **A write to a partition that runs alone.** -/
theorem MirrorInv.write_alone (h : MirrorInv part limit s) (hh : Halves part limit)
    {start n_byte : ℕ} {buf : ℕ → UInt8} (hup : s.up = [p]) (hlen : 0 < s.up.length)
    (h₀ : start ≠ 0) (harea : 512 * (start - SECTOR_OFFSET) + n_byte ≤ 512 * limit)
    (hlo : s.md.sb_update = false → s.md.sb.events_lo.toNat < 2 ^ 32 - 2) :
    MirrorInv part limit (s.write csum_partial part hlen start n_byte buf) := by
  have hmark : Marked part limit s.disk p
      (raid1_mark csum_partial (mirror_array part s.up hlen) s.md) := h.marked hh hup hlen hlo
  obtain ⟨disk, up, md, content⟩ := s
  obtain rfl : up = [p] := hup
  cases h.running with | alone hp hle hlt => ?_
  have hwrite : (md_write csum_partial (mirror_array part [p] hlen) md start n_byte buf).1 =
      raid1_write csum_partial (mirror_array part [p] hlen) md (start - SECTOR_OFFSET) n_byte
        buf := mirror_write_array hlen h₀
  unfold Mirror.write
  simp only [hwrite, if_neg h₀]
  generalize hd : (raid1_write csum_partial (mirror_array part [p] hlen) md
    (start - SECTOR_OFFSET) n_byte buf).members 0 = d
  have hd' := raid1_pieces_write (start - SECTOR_OFFSET) n_byte 1 0
    (raid1_mark csum_partial (mirror_array part [p] hlen) md).members buf Nat.one_pos
  have hdisk : (fun q => if q ∈ [p] then (raid1_write csum_partial (mirror_array part [p] hlen) md
      (start - SECTOR_OFFSET) n_byte buf).members ([p].idxOf q) else disk q) =
      Function.update disk p d := by
    funext q
    by_cases hqp : q = p
    · rw [hqp, Function.update_self, ← hd]
      simp
    · rw [Function.update_of_ne hqp]
      simp [hqp]
  have hspliced : d = splice ((raid1_mark csum_partial (mirror_array part [p] hlen) md).members 0)
      (512 * (start - SECTOR_OFFSET)) n_byte buf := hd.symm.trans hd'
  -- the write itself leaves the superblock that `raid1_mark` has stored
  have hpage : sb_page part (Function.update disk p d) p =
      (raid1_mark csum_partial (mirror_array part [p] hlen) md).sb := by
    rw [sb_page_set_self, hspliced, sb_page_splice hh harea]
    exact hmark.stored
  have hother : sb_page part (Function.update disk p d) (1 - p) = sb_page part disk (1 - p) :=
    sb_page_set_other (by omega)
  -- from now on the other partition is the older one
  have hnewer : updates part (Function.update disk p d) (1 - p) <
      updates part (Function.update disk p d) p := by
    rw [updates, updates, hother, hpage]
    exact hmark.newer
  rw [hdisk]
  refine ⟨?_, .alone hp hnewer.le fun _ => hnewer, fun i hi => ?_, fun _ => hpage.symm⟩
  · refine h.together.set hp ?_ ?_ ?_ fun y hy => ?_
    · rw [hpage]
      exact hmark.half
    · rw [hpage]
      exact hmark.same
    · have hlt' := hmark.newer
      rw [← hpage] at hlt'
      exact hlt'
    · rw [hspliced]
      exact splice_congr ((hmark.area y hy).trans (h.together.current p hp hle y hy)) fun _ _ => rfl
  · obtain rfl : i = 0 := by simpa using hi
    exact hd.trans (Function.update_self p d disk).symm

/-- **A write to both partitions.** -/
theorem MirrorInv.write_both (h : MirrorInv part limit s) (hh : Halves part limit)
    {start n_byte : ℕ} {buf : ℕ → UInt8} (hup : s.up = [0, 1]) (hlen : 0 < s.up.length)
    (h₀ : start ≠ 0) (harea : 512 * (start - SECTOR_OFFSET) + n_byte ≤ 512 * limit) :
    MirrorInv part limit (s.write csum_partial part hlen start n_byte buf) := by
  obtain ⟨disk, up, md, content⟩ := s
  obtain rfl : up = [0, 1] := hup
  cases h.running with | both heq => ?_
  have hwrite : (md_write csum_partial (mirror_array part [0, 1] hlen) md start n_byte buf).1 =
      raid1_write csum_partial (mirror_array part [0, 1] hlen) md (start - SECTOR_OFFSET) n_byte
        buf := mirror_write_array hlen h₀
  have htwo : (mirror_array part [0, 1] hlen).disk_no = 2 := rfl
  -- with both partitions there is nobody to be left behind: no superblock is counted up
  have hmark : (raid1_mark csum_partial (mirror_array part [0, 1] hlen) md).members = md.members ∧
      (raid1_mark csum_partial (mirror_array part [0, 1] hlen) md).sb = md.sb := by
    unfold raid1_mark
    split_ifs with hset hone
    · exact ⟨rfl, rfl⟩
    · exact absurd (htwo.symm.trans hone) (by decide)
    · exact ⟨rfl, rfl⟩
  unfold Mirror.write
  simp only [hwrite, if_neg h₀]
  generalize hd : raid1_write csum_partial (mirror_array part [0, 1] hlen) md
    (start - SECTOR_OFFSET) n_byte buf = md'
  have hsb : md'.sb = md.sb := by
    rw [← hd]
    exact hmark.2
  -- each member gets the same bytes in the same place
  have hmem : ∀ p, p < 2 → md'.members p =
      splice (disk p) (512 * (start - SECTOR_OFFSET)) n_byte buf := by
    intro p hp
    have hold : md.members p = disk p := by
      have hpp : p = 0 ∨ p = 1 := by omega
      obtain rfl | rfl := hpp
      · exact h.members 0 hlen
      · exact h.members 1 hp
    have hpiece := raid1_pieces_write (start - SECTOR_OFFSET) n_byte 2 p
      (raid1_mark csum_partial (mirror_array part [0, 1] hlen) md).members buf hp
    rw [hmark.1, hold] at hpiece
    rw [← hd, ← hpiece, ← hmark.1]
    rfl
  have hdisk : ∀ p, p < 2 → (if p ∈ [0, 1] then md'.members ([0, 1].idxOf p) else disk p) =
      splice (disk p) (512 * (start - SECTOR_OFFSET)) n_byte buf := by
    intro p hp
    have hpp : p = 0 ∨ p = 1 := by omega
    obtain rfl | rfl := hpp
    · exact hmem 0 hp
    · exact hmem 1 hp
  generalize hdisk' : (fun p => if p ∈ [0, 1] then md'.members ([0, 1].idxOf p) else disk p) = disk'
  have hnew : ∀ p, p < 2 →
      disk' p = splice (disk p) (512 * (start - SECTOR_OFFSET)) n_byte buf := by
    intro p hp
    rw [← hdisk']
    exact hdisk p hp
  -- the area ends in front of the superblocks
  have hpage : ∀ p, p < 2 → sb_page part disk' p = sb_page part disk p := by
    intro p hp
    rw [sb_page, hnew p hp]
    exact sb_page_splice hh harea (disk p)
  have heq' : updates part disk' 0 = updates part disk' 1 := by
    rw [updates, updates, hpage 0 (by omega), hpage 1 (by omega)]
    exact heq
  refine ⟨⟨fun p hp => ?_, ?_, fun p hp _ y hy => ?_⟩, .both heq', fun i hi => ?_, fun _ => ?_⟩
  · rw [hpage p hp]
    exact h.together.half p hp
  · rw [hpage 0 (by omega), hpage 1 (by omega)]
    exact h.together.same
  · change disk' p y = splice content (512 * (start - SECTOR_OFFSET)) n_byte buf y
    rw [hnew p hp]
    refine splice_congr (h.together.current p hp ?_ y hy) fun _ _ => rfl
    have hpp : p = 0 ∨ p = 1 := by omega
    obtain rfl | rfl := hpp
    · exact heq.ge
    · exact heq.le
  · have hi' : i < 2 := hi
    have hlisted : listed [0, 1] i = i := by
      interval_cases i <;> rfl
    change md'.members i = disk' (listed [0, 1] i)
    rw [hlisted, hmem i hi', hnew i hi']
  · change md'.sb = sb_page part disk' 0
    rw [hsb, hpage 0 (by omega)]
    exact h.sb hlen

/-- A write to the virtual MBR leaves the partitions alone. -/
theorem MirrorInv.write_mbr (h : MirrorInv part limit s) {n_byte : ℕ} {buf : ℕ → UInt8}
    (hlen : 0 < s.up.length) :
    MirrorInv part limit (s.write csum_partial part hlen 0 n_byte buf) := by
  have hdisk : (s.write csum_partial part hlen 0 n_byte buf).disk = s.disk := by
    funext p
    change (if p ∈ s.up then s.md.members (s.up.idxOf p) else s.disk p) = s.disk p
    split_ifs with hp
    · have hidx := List.idxOf_lt_length_of_mem hp
      rw [h.members _ hidx, listed, List.getD_eq_getElem _ _ hidx, List.getElem_idxOf]
    · rfl
  refine ⟨?_, ?_, fun i hi => ?_, fun hi => ?_⟩
  · rw [hdisk]
    exact h.together
  · rw [hdisk]
    exact h.running
  · rw [hdisk]
    exact h.members i hi
  · rw [hdisk]
    exact h.sb hi

/-- **One step.** -/
theorem MirrorInv.step (hh : Halves part limit) (h : MirrorInv part limit s) {op : MirrorOp}
    {s' : Mirror} (hok : MirrorOk part limit s op)
    (hstep : mirror_step csum_partial part s op = some s') : MirrorInv part limit s' := by
  cases op with
  | boot present md_mbr =>
    cases hstep
    exact ⟨h.together, h.together.boot hh hok, fun _ _ => rfl, fun _ => rfl⟩
  | write start n_byte buf =>
    unfold mirror_step at hstep
    split_ifs at hstep with hlen
    cases hstep
    obtain ⟨harea, hlo⟩ := hok
    by_cases h₀ : start = 0
    · rw [h₀]
      exact h.write_mbr hlen
    have harea' := harea.resolve_left h₀
    have hrun := h.running
    generalize hup : s.up = up at hrun
    cases hrun with
    | none => simp [hup] at hlen
    | alone => exact h.write_alone hh hup hlen h₀ harea' (hlo (by rw [hup, List.length_singleton]))
    | both => exact h.write_both hh hup hlen h₀ harea'

/-! ## Runs -/

end Steps

/-! ### A new mirror -/

def new_part (_ : ℕ) : RaidPart := mirror_part 0 0

/-- Zeros, and the superblocks. -/
def new_disk : Members := fun p x =>
  if x < 512 * sb_place new_part p then 0
  else sb_bytes (mirror_sb 4 (UInt32.ofNat p)) (x - 512 * sb_place new_part p)

theorem new_halves : Halves new_part 0x800000 :=
  ⟨fun _ => rfl, fun _ => rfl, fun _ => (by decide : 0x800000 ≤ sb_place new_part 0)⟩

theorem new_page (p : ℕ) : sb_page new_part new_disk p = mirror_sb 4 (UInt32.ofNat p) := by
  refine sb_words_bytes (fun i hi => ?_) fun k _ => ?_
  · unfold MD_SB_BYTES at hi
    unfold mirror_sb
    repeat rw [if_neg (by omega)]
  · unfold new_disk
    rw [if_neg (by omega), Nat.add_sub_cancel_left]

theorem new_together : Together new_part 0x800000 new_disk (fun _ => 0) := by
  refine ⟨fun p hp => ?_, ?_, fun p _ _ y hy => ?_⟩
  · have hrest : ∀ i, MD_SB_BYTES / 4 ≤ i → mirror_sb 4 (UInt32.ofNat p) i = 0 := by
      intro i hi
      unfold MD_SB_BYTES at hi
      unfold mirror_sb
      repeat rw [if_neg (by omega)]
    rw [new_page]
    interval_cases p
    · exact ⟨by decide, by decide, by decide, hrest⟩
    · exact ⟨by decide, by decide, by decide, hrest⟩
  · rw [new_page, new_page]
    decide
  · have hle := new_halves.area p
    exact if_pos (by omega)

def new_mirror : Mirror := ⟨new_disk, [], blank, fun _ => 0⟩

/-- Number 1 is missing at the first start. -/
theorem new_up : 0 < (new_mirror.boot new_part [0] fun _ => 0).up.length := by decide +kernel

def left_behind : Mirror :=
  ((new_mirror.boot new_part [0] fun _ => 0).write (fun _ => 0) new_part new_up 1 512
    fun _ => 1).boot new_part [0, 1] fun _ => 0

theorem left_behind_up : 0 < left_behind.up.length := by decide +kernel

end CsBoot.Raid
