/-
The disk that an array is exported as, `md_read` and `md_write` of
`src/src/raid/raid.c`, with the mirrors behind it (`raid1_read`, `raid1_write`).

Sector 0 of the exported disk is a virtual MBR in RAM, and sector `k + 1` is the sector
`k` of the array. Which of the two a request is for is decided by its start alone:
from a request that starts at 0 the first sector is taken.

A mirror reads from its first member and writes to all of them. One that runs with a
single member writes an updated superblock to it before the first request. The
checksum in there is a parameter.
-/
import CsBoot.Raid.Linear

set_option autoImplicit false

namespace CsBoot.Raid

open RangeStore

def SECTOR_OFFSET : ℕ := 1

/-! ## The state -/

/-- The functions behind `md[..].read_dma` and `write_dma`. -/
inductive ArrayKind
  | linear
  | raid1
deriving DecidableEq

/-- A device that is exported, with the place of the superblock on its first member.
`MD_DEV_WORKABLE` asks for a member at least. -/
structure MdArray where
  kind : ArrayKind
  disk_no : ℕ
  sb_offset : ℕ
  workable : 0 < disk_no

/-- What requests read and write: `md_mbr`, the members, and the superblock of the
first of them in RAM. -/
structure MdState where
  md_mbr : ℕ → UInt8
  mbr_wc : ℕ
  members : Members
  sb : mdp_super_t
  sb_update : Bool

/-! ## Mirrors -/

/-- The bytes of a superblock, lowest first in each word. -/
def sb_bytes (sb : mdp_super_t) (i : ℕ) : UInt8 :=
  UInt8.ofNat ((sb (i / 4)).toNat >>> (8 * (i % 4)))

/-- The superblock that marks a mirror as ahead of its partner: `events_lo` and
`cp_events_lo` count up, and `sb_csum` is made for it. -/
def sb_ahead ( csum_partial : mdp_super_t → UInt32) (sb : mdp_super_t) : mdp_super_t :=
  let sb := Function.update (Function.update sb 39 (sb 39 + 2)) 41 (sb 41 + 2)
  let sb := Function.update sb 38 0
  Function.update sb 38 ( csum_partial sb)

/-- The same range of all members. -/
def raid1_pieces (disk_no start n_byte : ℕ) : List Piece :=
  (List.range disk_no).map fun i => ⟨i, start, n_byte, 0⟩

/-- `raid1_read` -/
def raid1_read (st : MdState) (start n_byte : ℕ) (buf : ℕ → UInt8) : ℕ → UInt8 :=
  member_read st.members buf ⟨0, start, n_byte, 0⟩

section Md

variable ( csum_partial : mdp_super_t → UInt32) (arr : MdArray)

/-- The first part of `raid1_write`. -/
def raid1_mark (st : MdState) : MdState :=
  if st.sb_update then st
  else if arr.disk_no = 1 then
    let sb := sb_ahead csum_partial st.sb
    { st with
      sb := sb
      members := member_write (sb_bytes sb) st.members ⟨0, arr.sb_offset, MD_SB_BYTES, 0⟩
      sb_update := true }
  else { st with sb_update := true }

/-- `raid1_write` -/
def raid1_write (st : MdState) (start n_byte : ℕ) (buf : ℕ → UInt8) : MdState :=
  let st := raid1_mark csum_partial arr st
  { st with
    members := (raid1_pieces arr.disk_no start n_byte).foldl (member_write buf) st.members }

/-! ## `md_read` and `md_write` -/

/-- What a request is taken for. -/
inductive Export
  | mbr
  | array (start n_byte : ℕ)

/-- `if(start ==0)` -/
def md_dispatch (start n_byte : ℕ) : Export :=
  if start = 0 then .mbr else .array (start - SECTOR_OFFSET) n_byte

/-- `md_read`: the buffer afterwards, and what is returned. -/
def md_read (st : MdState) (start n_byte : ℕ) (buf : ℕ → UInt8) : (ℕ → UInt8) × ℕ :=
  match md_dispatch start n_byte with
  | .mbr => (splice buf 0 Ide.IDE_SECTOR_SIZE st.md_mbr, 0)
  | .array start n_byte =>
    match arr.kind with
    | .linear => (linear_read st.sb.rdev_size.toNat st.members start n_byte buf, 1)
    | .raid1 => (raid1_read st start n_byte buf, 1)

/-- `md_write` -/
def md_write (st : MdState) (start n_byte : ℕ) (buf : ℕ → UInt8) : MdState × ℕ :=
  match md_dispatch start n_byte with
  | .mbr =>
    ({ st with
        md_mbr := splice st.md_mbr 0 Ide.IDE_SECTOR_SIZE buf
        mbr_wc := st.mbr_wc + 1 }, 0)
  | .array start n_byte =>
    match arr.kind with
    | .linear =>
      ({ st with
          members := linear_write st.sb.rdev_size.toNat st.members start n_byte buf }, 1)
    | .raid1 => (raid1_write csum_partial arr st start n_byte buf, 1)

end Md

/-! ## One request -/

/-- A sector of the exported disk. -/
inductive Sector
  | mbr
  | array (k : ℕ)

/-- What sector `x` of the exported disk is to be. -/
def exported (x : ℕ) : Sector := if x = 0 then .mbr else .array (x - 1)

/-- The sectors that a request is carried out on, one for each of its own. -/
def Export.Moves (e : Export) (i : ℕ) (s : Sector) : Prop :=
  match e with
  | .mbr => i = 0 ∧ s = .mbr
  | .array start n_byte => i < n_byte / 512 ∧ s = .array (start + i)

/-- A request is carried out on the sectors it names, each of them. -/
def TreatsRight (start c : ℕ) : Prop :=
  ∀ i s, (md_dispatch start (512 * c)).Moves i s ↔ i < c ∧ s = exported (start + i)

/-- The case of `md_read` and `md_write` for sector 0 is right for one sector alone. -/
theorem md_treats_right_iff {start c : ℕ} (hc : 0 < c) :
    TreatsRight start c ↔ start ≠ 0 ∨ c = 1 := by
  have hdiv : 512 * c / 512 = c := Nat.mul_div_cancel_left c (by omega)
  unfold TreatsRight md_dispatch SECTOR_OFFSET
  by_cases h0 : start = 0
  · subst h0
    simp only [if_true, Export.Moves, Nat.zero_add, ne_eq, not_true_eq_false, false_or]
    constructor
    · intro h
      by_contra hne
      have h1 := (h 1 (exported 1)).mpr ⟨by omega, rfl⟩
      simp at h1
    · rintro rfl i s
      constructor
      · rintro ⟨rfl, rfl⟩
        exact ⟨Nat.one_pos, rfl⟩
      · rintro ⟨hi, rfl⟩
        have : i = 0 := by omega
        subst this
        exact ⟨rfl, rfl⟩
  · simp only [if_neg h0, Export.Moves, hdiv]
    refine iff_of_true (fun i s => ?_) (.inl h0)
    have hne : start + i ≠ 0 := by omega
    have hsub : start + i - 1 = start - 1 + i := by omega
    unfold exported
    rw [if_neg hne, hsub]

/-! ## The exported disk as one store -/

section Store

variable ( csum_partial : mdp_super_t → UInt32) (arr : MdArray)

/-- The content of the array behind. -/
def array_view (st : MdState) (y : ℕ) : UInt8 :=
  match arr.kind with
  | .linear => linear_view st.sb.rdev_size.toNat st.members y
  | .raid1 => st.members 0 y

/-- The content of the exported disk, by byte addresses. -/
def md_view (st : MdState) (x : ℕ) : UInt8 :=
  if x < 512 then st.md_mbr x else array_view arr st (x - 512)

/-- The exported disk as a device, on byte addresses. -/
def md_device : Device MdState UInt8 where
  read st pos len buf := (md_read arr st (pos / 512) len buf).1
  write st w := (md_write csum_partial arr st (w.pos / 512) w.len w.data).1

/-- The array sectors from `start` on are not those of the superblock that a mirror
with one member writes. -/
def ClearOfSb (start c : ℕ) : Prop :=
  arr.disk_no ≠ 1 ∨ start + c ≤ arr.sb_offset ∨ arr.sb_offset + MD_SB_BYTES / 512 ≤ start

/-- What the array asks of its sectors. -/
def ArrayOk (rdev_size start c : ℕ) : Prop :=
  match arr.kind with
  | .linear => LinearOk rdev_size start c
  | .raid1 => ClearOfSb arr start c

/-- What is asked of a request: whole sectors, not more than one from 0 on, and in the
array what that asks for. -/
def MdRequest (rdev_size pos len : ℕ) : Prop :=
  ∃ start c, pos = 512 * start ∧ len = 512 * c ∧ 0 < c ∧ 512 * c < 2 ^ 32 ∧
    (start ≠ 0 ∨ c = 1) ∧ (start ≠ 0 → ArrayOk arr rdev_size (start - 1) c)

/-- The addresses whose content is kept: in a mirror with one member, not those of the
superblock. -/
def Kept (x : ℕ) : Prop :=
  x < 512 ∨ arr.kind = .linear ∨ arr.disk_no ≠ 1 ∨
    x - 512 < 512 * arr.sb_offset ∨ 512 * arr.sb_offset + MD_SB_BYTES ≤ x - 512

theorem md_view_mbr (st : MdState) {x : ℕ} (hx : x < 512) : md_view arr st x = st.md_mbr x :=
  if_pos hx

theorem md_view_array (st : MdState) {x : ℕ} (hx : ¬ x < 512) :
    md_view arr st x = array_view arr st (x - 512) := if_neg hx

/-- Writing a range of all members splices each of them. -/
theorem raid1_pieces_write (start n_byte n d : ℕ) (m : Members) (buf : ℕ → UInt8) (hd : d < n) :
    (raid1_pieces n start n_byte).foldl (member_write buf) m d =
      splice (m d) (512 * start) n_byte buf := by
  induction n with
  | zero => omega
  | succ n ih =>
    have hcons : raid1_pieces (n + 1) start n_byte =
        raid1_pieces n start n_byte ++ [⟨n, start, n_byte, 0⟩] := by
      simp [raid1_pieces, List.range_succ]
    -- the pieces of the members in front do not touch this one
    have hframe : ∀ k, k ≤ d →
        (raid1_pieces k start n_byte).foldl (member_write buf) m d = m d := by
      intro k
      induction k with
      | zero =>
        intro _
        rfl
      | succ k ihk =>
        intro hk
        have hcons' : raid1_pieces (k + 1) start n_byte =
            raid1_pieces k start n_byte ++ [⟨k, start, n_byte, 0⟩] := by
          simp [raid1_pieces, List.range_succ]
        rw [hcons', List.foldl_append]
        simp only [List.foldl_cons, List.foldl_nil, member_write]
        rw [Function.update_of_ne (by omega)]
        exact ihk (by omega)
    rw [hcons, List.foldl_append]
    simp only [List.foldl_cons, List.foldl_nil, member_write, Nat.zero_add]
    by_cases hdn : d = n
    · subst hdn
      rw [Function.update_self, hframe d (le_refl d)]
    · rw [Function.update_of_ne hdn]
      exact ih (by omega)

/-- Marking a mirror changes its first member in the superblock only. -/
theorem raid1_mark_member (st : MdState) {y : ℕ}
    (hy : arr.disk_no ≠ 1 ∨ y < 512 * arr.sb_offset ∨ 512 * arr.sb_offset + MD_SB_BYTES ≤ y) :
    (raid1_mark csum_partial arr st).members 0 y = st.members 0 y := by
  unfold raid1_mark
  split
  · rfl
  split
  case isTrue h1 =>
    simp only [member_write, Function.update_self]
    rw [splice_outside]
    rcases hy with hy | hy
    · exact absurd h1 hy
    · exact hy
  case isFalse => rfl

theorem raid1_mark_rdev_size (st : MdState) :
    (raid1_mark csum_partial arr st).sb.rdev_size = st.sb.rdev_size := by
  unfold raid1_mark
  split
  · rfl
  split
  · simp [sb_ahead, mdp_super_t.rdev_size, Function.update]
  · rfl

theorem raid1_mark_mbr (st : MdState) :
    (raid1_mark csum_partial arr st).md_mbr = st.md_mbr := by
  unfold raid1_mark
  split
  · rfl
  split <;> rfl

/-- The sectors of a request keep their content. -/
theorem MdRequest.kept {rdev_size pos len i : ℕ} (h : MdRequest arr rdev_size pos len)
    (hi : i < len) : Kept arr (pos + i) := by
  obtain ⟨start, c, rfl, rfl, hc, -, hone, hok⟩ := h
  unfold Kept
  by_cases h0 : start = 0
  · left
    rcases hone with h | h <;> omega
  · have hok := hok h0
    unfold ArrayOk at hok
    cases hk : arr.kind with
    | linear => exact .inr (.inl rfl)
    | raid1 =>
      rw [hk] at hok
      simp only [ClearOfSb, MD_SB_BYTES] at hok ⊢
      omega

theorem md_dispatch_array {start : ℕ} (h0 : start ≠ 0) (n_byte : ℕ) :
    md_dispatch start n_byte = .array (start - 1) n_byte := if_neg h0

/-- Reading the array at the sectors of a request. -/
theorem array_read {rdev_size start c i : ℕ} {st : MdState} (buf : ℕ → UInt8)
    (hs : st.sb.rdev_size.toNat = rdev_size) (h0 : start ≠ 0) (hc : 0 < c) (hn : 512 * c < 2 ^ 32)
    (hok : ArrayOk arr rdev_size (start - 1) c) (hi : i < 512 * c) :
    (md_read arr st start (512 * c) buf).1 i = array_view arr st (512 * (start - 1) + i) := by
  unfold md_read array_view
  rw [md_dispatch_array h0]
  unfold ArrayOk at hok
  cases hk : arr.kind with
  | linear =>
    rw [hk] at hok
    have hdiv : 512 * (start - 1) / 512 = start - 1 := Nat.mul_div_cancel_left _ (by omega)
    have hread := (linear_faithful (UInt32.toNat_lt st.sb.rdev_size)).read buf (s := st.members)
      trivial ⟨start - 1, c, rfl, rfl, hc, hn, hs ▸ hok⟩ hi
    simp only [linear_device, hdiv] at hread
    exact hread
  | raid1 =>
    simp only [raid1_read, member_read]
    rw [splice_inside (by omega) (by omega), Nat.sub_zero]

/-- Writing the array at the sectors of a request. -/
theorem array_write {rdev_size start c y : ℕ} {st : MdState} (buf : ℕ → UInt8)
    (hs : st.sb.rdev_size.toNat = rdev_size) (h0 : start ≠ 0) (hc : 0 < c) (hn : 512 * c < 2 ^ 32)
    (hok : ArrayOk arr rdev_size (start - 1) c) (hy : Kept arr (512 + y)) :
    array_view arr (md_write csum_partial arr st start (512 * c) buf).1 y =
      splice (array_view arr st) (512 * (start - 1)) (512 * c) buf y := by
  unfold md_write array_view
  rw [md_dispatch_array h0]
  unfold ArrayOk at hok
  cases hk : arr.kind with
  | linear =>
    rw [hk] at hok
    have hdiv : 512 * (start - 1) / 512 = start - 1 := Nat.mul_div_cancel_left _ (by omega)
    have hwrite := (linear_faithful (UInt32.toNat_lt st.sb.rdev_size)).write (s := st.members)
      ⟨512 * (start - 1), 512 * c, buf⟩ (x := y) trivial
      ⟨start - 1, c, rfl, rfl, hc, hn, hs ▸ hok⟩ trivial
    simp only [linear_device, hdiv] at hwrite
    exact hwrite
  | raid1 =>
    unfold Kept at hy
    rw [hk] at hy
    have hmark := raid1_mark_member csum_partial arr st (y := y) (by
      rcases hy with hy | hy | hy | hy
      · omega
      · simp at hy
      · exact .inl hy
      · right
        simpa using hy)
    simp only [raid1_write]
    rw [raid1_pieces_write _ _ _ _ _ _ arr.workable]
    exact splice_congr hmark fun _ _ => rfl

/-- A request leaves the virtual MBR alone when it does not start at 0, and the array
when it does. -/
theorem md_write_mbr_of_ne {start n_byte : ℕ} {st : MdState} (buf : ℕ → UInt8) (h0 : start ≠ 0) :
    (md_write csum_partial arr st start n_byte buf).1.md_mbr = st.md_mbr := by
  unfold md_write
  rw [md_dispatch_array h0]
  cases arr.kind with
  | linear => rfl
  | raid1 => exact raid1_mark_mbr csum_partial arr st

theorem md_write_rdev_size (st : MdState) (start n_byte : ℕ) (buf : ℕ → UInt8) :
    (md_write csum_partial arr st start n_byte buf).1.sb.rdev_size = st.sb.rdev_size := by
  unfold md_write
  cases md_dispatch start n_byte with
  | mbr => rfl
  | array s n =>
    cases arr.kind with
    | linear => rfl
    | raid1 => exact raid1_mark_rdev_size csum_partial arr st

/-- The exported disk is a store for such requests. -/
theorem md_faithful (rdev_size : ℕ) :
    Faithful (md_device csum_partial arr) (fun st => st.sb.rdev_size.toNat = rdev_size)
      (md_view arr) (MdRequest arr rdev_size) (Kept arr) where
  covered h hi := h.kept arr hi
  keeps := by
    intro st w hs _
    simp only [md_device]
    rw [md_write_rdev_size]
    exact hs
  read := by
    rintro st _ _ buf i hs ⟨start, c, rfl, rfl, hc, hn, hone, hok⟩ hi
    have hdiv : 512 * start / 512 = start := Nat.mul_div_cancel_left _ (by omega)
    simp only [md_device, hdiv]
    -- sector 0 is the MBR in memory, all others are the array's, one sector earlier
    by_cases h0 : start = 0
    · have hc1 : c = 1 := hone.resolve_left (not_not.mpr h0)
      subst h0 hc1
      have hi0 : 512 * 0 + i = i := Nat.zero_add i
      rw [md_view_mbr arr st (by omega), hi0]
      simp only [md_read, md_dispatch, if_true]
      rw [splice_inside (by omega) (by unfold Ide.IDE_SECTOR_SIZE; omega), Nat.sub_zero]
    · have hsub : 512 * start + i - 512 = 512 * (start - 1) + i := by omega
      rw [md_view_array arr st (by omega), array_read arr buf hs h0 hc hn (hok h0) hi, hsub]
  write := by
    rintro st ⟨_, _, buf⟩ x hs ⟨start, c, rfl, rfl, hc, hn, hone, hok⟩ hx
    have hdiv : 512 * start / 512 = start := Nat.mul_div_cancel_left _ (by omega)
    simp only [md_device, hdiv]
    by_cases h0 : start = 0
    · have hc1 : c = 1 := hone.resolve_left (not_not.mpr h0)
      subst h0 hc1
      by_cases hx5 : x < 512
      · rw [md_view_mbr arr _ hx5, splice_inside (by omega) (by omega)]
        simp only [md_write, md_dispatch, if_true]
        rw [splice_inside (by omega) (by unfold Ide.IDE_SECTOR_SIZE; omega)]
      · rw [md_view_array arr _ hx5, splice_outside (by omega), md_view_array arr _ hx5]
        rfl
    · by_cases hx5 : x < 512
      · rw [md_view_mbr arr _ hx5, md_write_mbr_of_ne csum_partial arr buf h0,
          splice_outside (by omega), md_view_mbr arr _ hx5]
      · have hkept : Kept arr (512 + (x - 512)) := by
          rwa [show 512 + (x - 512) = x by omega]
        rw [md_view_array arr _ hx5, array_write csum_partial arr buf hs h0 hc hn (hok h0) hkept]
        by_cases hin : 512 * start ≤ x ∧ x < 512 * start + 512 * c
        · have hsub : x - 512 - 512 * (start - 1) = x - 512 * start := by omega
          rw [splice_inside (by omega) (by omega), splice_inside hin.1 hin.2, hsub]
        · rw [splice_outside (by omega), splice_outside (by omega), md_view_array arr _ hx5]

end Store

/-- **The exported disk.** A request is carried out on the sectors it names exactly
when it does not start at 0 or is for one sector, and in a run of such requests, which
the array behind takes, every read returns what was last written. -/
theorem md_maps_iff ( csum_partial : mdp_super_t → UInt32) (arr : MdArray) :
    (∀ start c, 0 < c → (TreatsRight start c ↔ start ≠ 0 ∨ c = 1)) ∧
    ∀ (st : MdState) (rs : List (Request UInt8)),
      (∀ r ∈ rs, MdRequest arr st.sb.rdev_size.toNat r.range.1 r.range.2) →
      ReadsLast (md_device csum_partial arr) (md_view arr st) st [] rs :=
  ⟨fun _ _ hc => md_treats_right_iff hc,
    fun _ rs hok => readsLast_of_view (md_faithful csum_partial arr _) _ rs hok rfl fun _ _ => rfl⟩

/-- A linear array, all zeros. -/
def blank : MdState := ⟨fun _ => 0, 0, fun _ _ => 0, mirror_sb 0 0, false⟩

/-- A linear array of which the first member has `2 * 0x400000` sectors. -/
def blank_linear : MdArray := ⟨.linear, 2, 0, by decide⟩

/-- Four sectors are written across the end of the first member, then the first sector, and
the two of them that are in the second member are read. -/
theorem md_maps_iff_blank :
    TreatsRight 0x7FFFFF 4 ∧
    ReadsLast (md_device (fun _ => 0) blank_linear) (md_view blank_linear blank) blank []
      [.write ⟨512 * 0x7FFFFF, 512 * 4, fun i => UInt8.ofNat (i / 512 + 1)⟩,
        .write ⟨512 * 0, 512 * 1, fun _ => 9⟩,
        .read (512 * 0x800001) (512 * 2) fun _ => 0] := by
  have h := md_maps_iff (fun _ => 0) blank_linear
  refine ⟨(h.1 0x7FFFFF 4 (by decide)).mpr (.inl (by decide)), h.2 _ _ ?_⟩
  have hsize : blank.sb.rdev_size.toNat = 0x400000 := rfl
  have hacross : MdRequest blank_linear 0x400000 (512 * 0x7FFFFF) (512 * 4) :=
    ⟨0x7FFFFF, 4, rfl, rfl, by decide, by decide, .inl (by decide),
      fun _ => show LinearOk 0x400000 (0x7FFFFF - 1) 4 by unfold LinearOk; omega⟩
  have hmbr : MdRequest blank_linear 0x400000 (512 * 0) (512 * 1) :=
    ⟨0, 1, rfl, rfl, by decide, by decide, .inr rfl, fun h => absurd rfl h⟩
  have hbehind : MdRequest blank_linear 0x400000 (512 * 0x800001) (512 * 2) :=
    ⟨0x800001, 2, rfl, rfl, by decide, by decide, .inl (by decide),
      fun _ => show LinearOk 0x400000 (0x800001 - 1) 2 by unfold LinearOk; omega⟩
  rw [hsize]
  exact List.forall_mem_cons.mpr ⟨hacross, List.forall_mem_cons.mpr ⟨hmbr,
    List.forall_mem_singleton.mpr hbehind⟩⟩

/-- Two sectors read from 0 on: the second half of the buffer is left as it was. -/
theorem md_read_stops_at_mbr :
    ¬ TreatsRight 0 2 ∧
      ¬ ReadsLast (md_device (fun _ => 0) blank_linear) (md_view blank_linear blank) blank []
        [.read 0 1024 fun _ => 1] := by
  constructor
  · intro h
    have := (md_treats_right_iff (by decide)).mp h
    omega
  · intro h
    have hbyte := h.1 512 (by decide)
    simp [md_device, md_read, md_dispatch, splice, Ide.IDE_SECTOR_SIZE, lastWritten, md_view,
      array_view, linear_view, blank, blank_linear] at hbyte

end CsBoot.Raid
