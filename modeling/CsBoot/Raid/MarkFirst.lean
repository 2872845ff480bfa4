/-
Marking a degraded mirror before it diverges, over every order of `raid1_write` calls to
any number of mirrors.

The mark is the superblock that `raid1_write` stores on the only member. What keeps it
from being stored again, `sb_update`, is one variable for all arrays, and the first call
of all sets it, whatever the array and whether or not that is degraded.

The calls of `write` of the members are listed in the order they are made. What they do
to the members is in `raid1_write_members`.
-/
import CsBoot.Raid.Md

set_option autoImplicit false

namespace CsBoot.Raid

/-! ## The calls of one `raid1_write` -/

/-- A call of `write` of a member. -/
inductive MemberWrite
  | superblock (sb : mdp_super_t)
  | data (p : Piece) (buf : ℕ → UInt8)

/-- What a call does to the members of the array. -/
def MemberWrite.run (arr : MdArray) (m : Members) : MemberWrite → Members
  | .superblock sb => member_write (sb_bytes sb) m ⟨0, arr.sb_offset, MD_SB_BYTES, 0⟩
  | .data p buf => member_write buf m p

section Calls

variable ( csum_partial : mdp_super_t → UInt32) (arr : MdArray) (st : MdState)
  (start n_byte : ℕ) (buf : ℕ → UInt8)

/-- The calls that `raid1_write` makes, in turn. -/
def raid1_calls : List MemberWrite :=
  (if st.sb_update = false ∧ arr.disk_no = 1 then [.superblock (sb_ahead csum_partial st.sb)]
    else []) ++
    (raid1_pieces arr.disk_no start n_byte).map fun p => .data p buf

/-- The calls are all that `raid1_write` does to the members. -/
theorem raid1_write_members :
    (raid1_write csum_partial arr st start n_byte buf).members =
      (raid1_calls csum_partial arr st start n_byte buf).foldl (MemberWrite.run arr)
        st.members := by
  have hmark : (raid1_mark csum_partial arr st).members =
      (if st.sb_update = false ∧ arr.disk_no = 1 then
        [MemberWrite.superblock (sb_ahead csum_partial st.sb)] else []).foldl
          (MemberWrite.run arr) st.members := by
    unfold raid1_mark
    cases hset : st.sb_update with
    | true => simp
    | false =>
      by_cases hone : arr.disk_no = 1
      · simp [hone, MemberWrite.run]
      · simp [hone]
  rw [raid1_calls, List.foldl_append, ← hmark, List.foldl_map]
  rfl

/-- Whatever the array, the variable is set afterwards. -/
theorem raid1_write_updated :
    (raid1_write csum_partial arr st start n_byte buf).sb_update = true := by
  have hmark : (raid1_mark csum_partial arr st).sb_update = true := by
    unfold raid1_mark
    split
    · assumption
    · split <;> rfl
  exact hmark

variable { csum_partial arr st start n_byte buf}

theorem superblock_mem_calls {sb : mdp_super_t} :
    .superblock sb ∈ raid1_calls csum_partial arr st start n_byte buf ↔
      (st.sb_update = false ∧ arr.disk_no = 1) ∧ sb = sb_ahead csum_partial st.sb := by
  unfold raid1_calls
  split <;> simp_all

/-- Each call has a member to write the data to. -/
theorem data_mem_calls :
    .data ⟨0, start, n_byte, 0⟩ buf ∈ raid1_calls csum_partial arr st start n_byte buf := by
  have hpos := arr.workable
  simp [raid1_calls, raid1_pieces, hpos]

end Calls

/-! ## The mark -/

section Mark

variable ( csum_partial : mdp_super_t → UInt32) (sb : mdp_super_t)

/-- `sb_csum` is the sum of the superblock with 0 in its place. -/
def SumRight : Prop := sb 38 = csum_partial (Function.update sb 38 0)

/-- The superblock that is stored has its checksum made for it. -/
theorem sb_ahead_sumRight : SumRight csum_partial (sb_ahead csum_partial sb) := by
  simp only [SumRight, sb_ahead, Function.update_self, Function.update_idem]

/-- It counts as newer, unless the low half of the count starts over. -/
theorem sb_ahead_newer_iff :
    md_event sb < md_event (sb_ahead csum_partial sb) ↔ sb.events_lo.toNat < 2 ^ 32 - 2 := by
  have hhi : (sb_ahead csum_partial sb).events_hi = sb.events_hi := by
    simp [sb_ahead, mdp_super_t.events_hi]
  have hlo : (sb_ahead csum_partial sb).events_lo = sb.events_lo + 2 := by
    simp [sb_ahead, mdp_super_t.events_lo]
  have hadd : (sb.events_lo + 2).toNat = (sb.events_lo.toNat + 2) % 2 ^ 32 := UInt32.toNat_add ..
  have hlt := sb.events_lo.toNat_lt
  rw [md_event, md_event, hhi, hlo, hadd]
  omega

end Mark

/-! ## Any number of arrays -/

/-- The arrays, of which the one variable `sb_update` is kept apart. -/
structure MdDevs (ι : Type) where
  devs : ι → MdState
  sb_update : Bool

/-- A call of `raid1_write`. -/
structure Raid1Request (ι : Type) where
  dev : ι
  start : ℕ
  n_byte : ℕ
  buf : ℕ → UInt8

section Runs

variable {ι : Type} [DecidableEq ι] ( csum_partial : mdp_super_t → UInt32) (arr : ι → MdArray)

/-- What a call for array `i` sees. -/
def MdDevs.seen (s : MdDevs ι) (i : ι) : MdState := { s.devs i with sb_update := s.sb_update }

def MdDevs.write (s : MdDevs ι) (r : Raid1Request ι) : MdDevs ι :=
  let st := raid1_write csum_partial (arr r.dev) (s.seen r.dev) r.start r.n_byte r.buf
  { devs := Function.update s.devs r.dev st
    sb_update := st.sb_update }

/-- The calls of `write` in a run, each with its array. -/
def MdDevs.trace : MdDevs ι → List (Raid1Request ι) → List (ι × MemberWrite)
  | _, [] => []
  | s, r :: rs =>
    (raid1_calls csum_partial (arr r.dev) (s.seen r.dev) r.start r.n_byte r.buf).map (r.dev, ·) ++
      MdDevs.trace (s.write csum_partial arr r) rs

/-- After the start, with what the superblocks of the arrays hold. -/
def MdDevs.assembled (devs : ι → MdState) : MdDevs ι := ⟨devs, false⟩

/-- Before each data write to array `i` a superblock is stored on it that counts as newer
than `sb₀` and has the right checksum. -/
def MarkedFirst (sb₀ : mdp_super_t) (i : ι) (tr : List (ι × MemberWrite)) : Prop :=
  ∀ pre p buf post, tr = pre ++ (i, .data p buf) :: post →
    ∃ sb, (i, .superblock sb) ∈ pre ∧ md_event sb₀ < md_event sb ∧ SumRight csum_partial sb

variable (s : MdDevs ι) (rs : List (Raid1Request ι)) {i : ι}

theorem write_updated (r : Raid1Request ι) :
    (s.write csum_partial arr r).sb_update = true :=
  raid1_write_updated csum_partial (arr r.dev) (s.seen r.dev) r.start r.n_byte r.buf

/-- The calls of a run for an array are all that the run does to its members. -/
theorem run_members (i : ι) :
    ((rs.foldl (MdDevs.write csum_partial arr) s).devs i).members =
      ((s.trace csum_partial arr rs).filter (·.1 = i)).foldl (fun m w => w.2.run (arr i) m)
        (s.devs i).members := by
  induction rs generalizing s with
  | nil => rfl
  | cons r rs ih =>
    rw [List.foldl_cons, ih, MdDevs.trace, List.filter_append, List.foldl_append]
    congr 1
    by_cases h : r.dev = i
    · subst h
      rw [List.filter_eq_self.mpr (by simp), List.foldl_map, MdDevs.write]
      dsimp only
      rw [Function.update_self]
      exact raid1_write_members csum_partial (arr r.dev) (s.seen r.dev) r.start r.n_byte r.buf
    · rw [List.filter_eq_nil_iff.mpr (by simp [h]), List.foldl_nil, MdDevs.write]
      dsimp only
      rw [Function.update_of_ne (Ne.symm h)]

variable { csum_partial arr s rs} in
/-- Every call of a run is made for a request to its array. -/
theorem trace_dev {w : MemberWrite} (h : (i, w) ∈ s.trace csum_partial arr rs) :
    ∃ r ∈ rs, r.dev = i := by
  induction rs generalizing s with
  | nil => cases h
  | cons r rs ih =>
    rcases List.mem_append.mp h with h | h
    · obtain ⟨_, _, heq⟩ := List.mem_map.mp h
      exact ⟨r, List.mem_cons_self, congrArg Prod.fst heq⟩
    · obtain ⟨r', hr', heq⟩ := ih h
      exact ⟨r', List.mem_cons_of_mem _ hr', heq⟩

variable {rs} in
/-- Every request has its data written. -/
theorem trace_data {r : Raid1Request ι} (hr : r ∈ rs) :
    ∃ p buf, (r.dev, .data p buf) ∈ s.trace csum_partial arr rs := by
  induction rs generalizing s with
  | nil => cases hr
  | cons r' rs ih =>
    rcases List.mem_cons.mp hr with rfl | hr
    · exact ⟨_, _, List.mem_append_left _ (List.mem_map_of_mem data_mem_calls)⟩
    · obtain ⟨p, buf, hmem⟩ := ih (s.write csum_partial arr r') hr
      exact ⟨p, buf, List.mem_append_right _ hmem⟩

variable {s} in
/-- Once the variable is set, no superblock is stored any more. -/
theorem trace_updated (hset : s.sb_update = true) (sb : mdp_super_t) :
    (i, .superblock sb) ∉ s.trace csum_partial arr rs := by
  induction rs generalizing s with
  | nil => exact List.not_mem_nil
  | cons r rs ih =>
    intro h
    rcases List.mem_append.mp h with h | h
    · obtain ⟨w, hw, heq⟩ := List.mem_map.mp h
      obtain rfl : w = .superblock sb := congrArg Prod.snd heq
      have hclear : s.sb_update = false := (superblock_mem_calls.mp hw).1.1
      rw [hset] at hclear
      cases hclear
    · exact ih (write_updated csum_partial arr s r) h

variable { csum_partial arr rs} in
/-- The superblocks stored in a run: the one of the first array, if that is degraded. -/
theorem trace_superblock {devs : ι → MdState} {sb : mdp_super_t} :
    (i, .superblock sb) ∈ (MdDevs.assembled devs).trace csum_partial arr rs ↔
      (∃ r, rs.head? = some r ∧ r.dev = i) ∧ (arr i).disk_no = 1 ∧
        sb = sb_ahead csum_partial (devs i).sb := by
  cases rs with
  | nil => simp [MdDevs.trace]
  | cons r rs =>
    have hset : ((MdDevs.assembled devs).write csum_partial arr r).sb_update = true :=
      write_updated csum_partial arr _ r
    have hlater : (i, .superblock sb) ∉
        ((MdDevs.assembled devs).write csum_partial arr r).trace csum_partial arr rs :=
      trace_updated csum_partial arr rs hset sb
    simp only [MdDevs.trace, List.mem_append, hlater, or_false, List.mem_map, Prod.mk.injEq,
      exists_eq_right_right, superblock_mem_calls, List.head?_cons, Option.some.injEq,
      exists_eq_left']
    constructor
    · rintro ⟨⟨⟨-, hone⟩, rfl⟩, rfl⟩
      exact ⟨rfl, hone, rfl⟩
    · rintro ⟨rfl, hone, rfl⟩
      exact ⟨⟨⟨rfl, hone⟩, rfl⟩, rfl⟩

/-- A run that starts with a degraded array starts with its superblock. -/
theorem trace_head (devs : ι → MdState) {r : Raid1Request ι} (hone : (arr r.dev).disk_no = 1) :
    ∃ tr, (MdDevs.assembled devs).trace csum_partial arr (r :: rs) =
      (r.dev, .superblock (sb_ahead csum_partial (devs r.dev).sb)) :: tr := by
  have hclear : ((MdDevs.assembled devs).seen r.dev).sb_update = false := rfl
  rw [MdDevs.trace, raid1_calls, if_pos ⟨hclear, hone⟩]
  exact ⟨_, rfl⟩

end Runs

/-- **Degraded mirrors are marked before their first data write exactly when** each that
is written to is the array of the first write of all, and the low half of its event
count does not start over. -/
theorem raid1_marked_first_iff {ι : Type} [DecidableEq ι] ( csum_partial : mdp_super_t → UInt32)
    (arr : ι → MdArray) (devs : ι → MdState) (rs : List (Raid1Request ι)) :
    (∀ i, (arr i).disk_no = 1 →
      MarkedFirst csum_partial (devs i).sb i
        ((MdDevs.assembled devs).trace csum_partial arr rs)) ↔
    ∀ r ∈ rs, (arr r.dev).disk_no = 1 →
      (∃ r₀, rs.head? = some r₀ ∧ r₀.dev = r.dev) ∧
        (devs r.dev).sb.events_lo.toNat < 2 ^ 32 - 2 := by
  constructor
  · intro h r hr hone
    obtain ⟨p, buf, hdata⟩ := trace_data csum_partial arr (MdDevs.assembled devs) hr
    obtain ⟨pre, post, hsplit⟩ := List.append_of_mem hdata
    obtain ⟨sb, hsb, hnewer, -⟩ := h r.dev hone pre p buf post hsplit
    obtain ⟨hhead, -, rfl⟩ := trace_superblock.mp (hsplit ▸ List.mem_append_left _ hsb)
    exact ⟨hhead, (sb_ahead_newer_iff csum_partial _).mp hnewer⟩
  · intro h i hone pre p buf post hsplit
    have hdata : (i, .data p buf) ∈ (MdDevs.assembled devs).trace csum_partial arr rs := by
      rw [hsplit]
      exact List.mem_append_right _ List.mem_cons_self
    obtain ⟨r, hr, rfl⟩ := trace_dev hdata
    obtain ⟨⟨r₀, hhead, hdev⟩, hlo⟩ := h r hr hone
    obtain ⟨rs', rfl⟩ : ∃ rs', rs = r₀ :: rs' := by
      cases rs with
      | nil => cases hhead
      | cons r' rs' => exact ⟨rs', by rw [Option.some.inj hhead]⟩
    obtain ⟨tr, htr⟩ := trace_head csum_partial arr rs' devs (hdev.symm ▸ hone)
    rw [hdev] at htr
    rw [htr] at hsplit
    cases pre with
    | nil => simp at hsplit
    | cons e pre =>
      -- the superblock is the first call of all
      have hfirst := (List.cons.inj hsplit).1
      exact ⟨_, hfirst ▸ List.mem_cons_self, (sb_ahead_newer_iff csum_partial _).mpr hlo,
        sb_ahead_sumRight csum_partial _⟩

/-- Two mirrors that have lost a member each. -/
def lone_mirror : MdArray := ⟨.raid1, 1, 0x800000, by decide⟩

/-- A sector is written to the one, and then to the other. -/
def one_then_other : List (Raid1Request Bool) :=
  [⟨false, 0, 512, fun _ => 1⟩, ⟨true, 0, 512, fun _ => 1⟩]

/-- The second mirror is written to without a mark: its superblock stays as it was. -/
theorem second_mirror_unmarked :
    (¬ ∀ i, ((fun _ : Bool => lone_mirror) i).disk_no = 1 →
      MarkedFirst (fun _ => 0) ((fun _ : Bool => blank) i).sb i
        ((MdDevs.assembled fun _ : Bool => blank).trace (fun _ => 0) (fun _ => lone_mirror)
          one_then_other)) ∧
      ∀ k, ((one_then_other.foldl (MdDevs.write (fun _ => 0) fun _ => lone_mirror)
          (MdDevs.assembled fun _ => blank)).devs true).members 0
            (512 * lone_mirror.sb_offset + k) =
        blank.members 0 (512 * lone_mirror.sb_offset + k) := by
  have htrace : (MdDevs.assembled fun _ : Bool => blank).trace (fun _ => 0)
      (fun _ => lone_mirror) one_then_other =
        [(false, .superblock (sb_ahead (fun _ => 0) blank.sb)),
          (false, .data ⟨0, 0, 512, 0⟩ fun _ => 1), (true, .data ⟨0, 0, 512, 0⟩ fun _ => 1)] := rfl
  constructor
  · intro h
    obtain ⟨sb, hsb, -⟩ := h true rfl
      [(false, .superblock (sb_ahead (fun _ => 0) blank.sb)),
        (false, .data ⟨0, 0, 512, 0⟩ fun _ => 1)]
      ⟨0, 0, 512, 0⟩ (fun _ => 1) [] htrace
    simp at hsb
  · intro k
    rw [run_members, htrace]
    simp only [List.filter_cons, List.filter_nil, Bool.false_eq_true, decide_false, decide_true,
      if_true, if_false, List.foldl_cons, List.foldl_nil, MemberWrite.run, member_write,
      Function.update_self]
    rw [RangeStore.splice_outside (.inr ?_)]
    · rfl
    · dsimp only [lone_mirror]
      omega

end CsBoot.Raid
