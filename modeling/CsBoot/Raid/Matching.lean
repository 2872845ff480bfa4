/-
Whether the arrays of `raid_init` are disjoint.

The inner loop goes on after a match, so a leader is imported with every other
partition of its array, each time into a new device. The leader stays in such a
device unless its event count makes `md_import_device` drop it. `raid_matching_iff`
says when every partition is in one device at most and the table `md[]` is large
enough.
-/
import CsBoot.Raid.Assemble

set_option autoImplicit false

namespace CsBoot.Raid

open Ide

/-- Every partition is a member of one device at most, the devices fit the table (their
number only grows during the scan), and two members of one device have the same
identifier and the same generic superblock. -/
structure PartialMatching (ondisk : ℕ → mdp_super_t) (st : RaidState) : Prop where
  once : ∀ p k k', k < st.raid_dev_no → k' < st.raid_dev_no →
    p ∈ (st.md k).members → p ∈ (st.md k').members → k = k'
  table : st.raid_dev_no ≤ MAX_MD_DEV
  alike : ∀ k, k < st.raid_dev_no → (st.md k).members.length = 2 →
    ∀ p ∈ (st.md k).members, ∀ q ∈ (st.md k).members,
      uuid_equal (ondisk p) (ondisk q) = true ∧ sb_equal (ondisk p) (ondisk q) = true

section Matching

variable (ondisk : ℕ → mdp_super_t) (parts : ℕ → RaidPart)

/-- The first partition of an import stays in the device. -/
def stays (i j : ℕ) : Prop :=
  md_event (ondisk i) = md_event (ondisk j) ∨
    (md_event (ondisk j) < md_event (ondisk i) ∧
      (ondisk i).this_number < (ondisk j).this_number)

/-- No leader stays in the devices of two partitions behind it. -/
def Unambiguous (n : ℕ) : Prop :=
  ∀ i j j', leader ondisk parts i = true →
    j ∈ followers ondisk parts i (i + 1) (n - (i + 1)) →
    j' ∈ followers ondisk parts i (i + 1) (n - (i + 1)) →
    stays ondisk i j → stays ondisk i j' → j = j'

theorem mem_device_members_first {i j : ℕ} (hij : i ≠ j) :
    i ∈ device_members ondisk (i, some j) ↔ stays ondisk i j := by
  simp only [device_members, stays]
  by_cases hev : md_event (ondisk i) = md_event (ondisk j)
  · rw [if_pos hev]
    split <;> simp [hev]
  · rw [if_neg hev]
    split
    case isTrue h => simp [h]
    case isFalse h => simp [h, hev, hij]

/-- A member of a device is its key, or the first partition that stays. -/
theorem device_member_cases {d : ℕ × Option ℕ} {p : ℕ} (hp : p ∈ device_members ondisk d)
    (hne : ∀ j, d.2 = some j → d.1 ≠ j) :
    p = import_key d ∨ ∃ j, d = (p, some j) ∧ stays ondisk p j := by
  obtain ⟨i, o⟩ := d
  cases o with
  | none => exact .inl (List.mem_singleton.mp hp)
  | some j =>
    have hij : i ≠ j := hne j rfl
    by_cases hpi : p = i
    · subst hpi
      exact .inr ⟨j, rfl, (mem_device_members_first ondisk hij).mp hp⟩
    · left
      simp only [device_members] at hp
      simp only [import_key, Option.getD_some]
      split at hp <;> split at hp <;> simp_all

/-- The two partitions of an import are different ones, and of the same array. -/
theorem assembled_pair {n m i j : ℕ} (hd : (i, some j) ∈ assembled ondisk parts n m) :
    leader ondisk parts i = true ∧ j ∈ followers ondisk parts i (i + 1) (n - (i + 1)) ∧ i ≠ j := by
  obtain ⟨-, hl, ⟨j', hj', hmem⟩ | ⟨hno, -⟩⟩ := (mem_assembled ondisk parts).mp hd
  · obtain rfl : j = j' := by simpa using hj'
    obtain ⟨⟨hij, -⟩, -⟩ := (mem_followers ondisk parts).mp hmem
    exact ⟨hl, hmem, by omega⟩
  · simp at hno

/-- Where the key of an import is a leader with followers, there is none. -/
theorem key_not_leader {n m i j : ℕ} {d : ℕ × Option ℕ} (hd : d ∈ assembled ondisk parts n m)
    (hl : leader ondisk parts i = true)
    (hj : j ∈ followers ondisk parts i (i + 1) (n - (i + 1))) : i ≠ import_key d := by
  obtain ⟨l, o⟩ := d
  cases o with
  | none =>
    intro h
    simp only [import_key, Option.getD_none] at h
    subst h
    obtain ⟨-, -, ⟨j', hj', -⟩ | ⟨-, hf, -⟩⟩ := (mem_assembled ondisk parts).mp hd
    · simp at hj'
    · rw [hf] at hj
      simp at hj
  | some j' =>
    intro h
    simp only [import_key, Option.getD_some] at h
    subst h
    obtain ⟨hl', hmem, hne⟩ := assembled_pair ondisk parts hd
    have hs := ((mem_followers ondisk parts).mp hmem).2.2
    exact hne (leader_unique ondisk parts hl' hl hs (sb_equal_refl _))

/-- Two imports with a common member are the same one. -/
theorem import_unique {n m p : ℕ} (hu : Unambiguous ondisk parts n) {d d' : ℕ × Option ℕ}
    (hd : d ∈ assembled ondisk parts n m) (hd' : d' ∈ assembled ondisk parts n m)
    (hp : p ∈ device_members ondisk d) (hp' : p ∈ device_members ondisk d') : d = d' := by
  have hne : ∀ {e : ℕ × Option ℕ}, e ∈ assembled ondisk parts n m →
      ∀ j, e.2 = some j → e.1 ≠ j := by
    rintro ⟨i, o⟩ he j rfl
    exact (assembled_pair ondisk parts he).2.2
  rcases device_member_cases ondisk hp (hne hd) with hk | ⟨j, rfl, hs⟩ <;>
    rcases device_member_cases ondisk hp' (hne hd') with hk' | ⟨j', rfl, hs'⟩
  · exact import_key_inj ondisk parts hd hd' (hk.symm.trans hk')
  · obtain ⟨hl, hj', -⟩ := assembled_pair ondisk parts hd'
    exact absurd hk (key_not_leader ondisk parts hd hl hj')
  · obtain ⟨hl, hj, -⟩ := assembled_pair ondisk parts hd
    exact absurd hk' (key_not_leader ondisk parts hd' hl hj)
  · obtain ⟨hl, hj, -⟩ := assembled_pair ondisk parts hd
    obtain ⟨-, hj', -⟩ := assembled_pair ondisk parts hd'
    rw [hu p j j' hl hj hj' hs hs']

/-- A device with two members has the two partitions of one array. -/
theorem device_members_two {d : ℕ × Option ℕ} (h : (device_members ondisk d).length = 2) :
    ∃ i j, d = (i, some j) ∧ ∀ p ∈ device_members ondisk d, p = i ∨ p = j := by
  obtain ⟨i, o⟩ := d
  cases o with
  | none => simp [device_members] at h
  | some j =>
    refine ⟨i, j, rfl, fun p hp => ?_⟩
    simp only [device_members] at hp h
    split at hp
    · split at hp <;> simp at hp <;> tauto
    · rename_i hev
      rw [if_neg hev] at h
      split at h <;> simp at h

/-- The members of such a device belong together. -/
theorem device_members_alike {n : ℕ} {d : ℕ × Option ℕ} (hd : d ∈ assembled ondisk parts n n)
    (h : (device_members ondisk d).length = 2) : ∀ p ∈ device_members ondisk d,
      ∀ q ∈ device_members ondisk d, sb_equal (ondisk p) (ondisk q) = true := by
  obtain ⟨i, j, rfl, hij⟩ := device_members_two ondisk h
  obtain ⟨-, hj, -⟩ := assembled_pair ondisk parts hd
  have hsame : sb_equal (ondisk i) (ondisk j) = true := ((mem_followers ondisk parts).mp hj).2.2
  intro p hp q hq
  rcases hij p hp with rfl | rfl <;> rcases hij q hq with rfl | rfl
  · exact sb_equal_refl _
  · exact hsame
  · exact sb_equal_symm hsame
  · exact sb_equal_refl _

variable {ondisk parts}

section Table

variable {st : RaidState} {n : ℕ} (h : Represents ondisk parts st (assembled ondisk parts n n))

include h

/-- A device of the table is made from an import. -/
theorem Represents.device {k : ℕ} (hk : k < st.raid_dev_no) :
    ∃ d ∈ assembled ondisk parts n n,
      (assembled ondisk parts n n)[k]? = some d ∧ (st.md k).members = device_members ondisk d := by
  rw [h.count] at hk
  have hd := List.getElem?_eq_getElem hk
  exact ⟨_, List.getElem_mem hk, hd, h.members k _ hd⟩

/-- A leader is in the device of each follower with which it stays. -/
theorem Represents.leader_in {i q : ℕ} (hl : leader ondisk parts i = true)
    (hq : q ∈ followers ondisk parts i (i + 1) (n - (i + 1))) (hs : stays ondisk i q) :
    ∃ k, k < st.raid_dev_no ∧ (assembled ondisk parts n n)[k]? = some (i, some q) ∧
      i ∈ (st.md k).members := by
  obtain ⟨⟨hiq, hqn⟩, -⟩ := (mem_followers ondisk parts).mp hq
  have hmem : (i, some q) ∈ assembled ondisk parts n n :=
    (mem_assembled ondisk parts).mpr ⟨by omega, hl, .inl ⟨q, rfl, hq⟩⟩
  obtain ⟨k, hk, hget⟩ := List.mem_iff_getElem.mp hmem
  have hsome : (assembled ondisk parts n n)[k]? = some (i, some q) := by
    rw [List.getElem?_eq_getElem hk, hget]
  refine ⟨k, h.count ▸ hk, hsome, ?_⟩
  rw [h.members k _ hsome]
  exact (mem_device_members_first ondisk (by omega)).mpr hs

/-- The state of a table made from imports. -/
theorem Represents.matching_iff :
    PartialMatching ondisk st ↔
      Unambiguous ondisk parts n ∧
        ((List.range n).filter (counted ondisk parts n)).length ≤ MAX_MD_DEV := by
  rw [← assembled_length, ← h.count]
  constructor
  · intro hm
    refine ⟨?_, hm.table⟩
    intro i j j' hl hj hj' hs hs'
    obtain ⟨k, hk, hsome, hi⟩ := h.leader_in hl hj hs
    obtain ⟨k', hk', hsome', hi'⟩ := h.leader_in hl hj' hs'
    rw [hm.once i k k' hk hk' hi hi', hsome'] at hsome
    simpa using hsome.symm
  · rintro ⟨hu, htable⟩
    refine ⟨?_, htable, ?_⟩
    · intro p k k' hk hk' hp hp'
      obtain ⟨d, hd, hsome, hmem⟩ := h.device hk
      obtain ⟨d', hd', hsome', hmem'⟩ := h.device hk'
      rw [hmem] at hp
      rw [hmem'] at hp'
      have heq := import_unique ondisk parts hu hd hd' hp hp'
      have hlt : k < (assembled ondisk parts n n).length := h.count ▸ hk
      apply (List.getElem?_inj hlt (assembled_nodup ondisk parts n n)).mp
      rw [hsome, hsome', heq]
    · intro k hk htwo
      obtain ⟨d, hd, -, hmem⟩ := h.device hk
      rw [hmem] at htwo ⊢
      intro p hp q hq
      have hsame := device_members_alike ondisk parts hd htwo p hp q hq
      exact ⟨uuid_equal_of_sb_equal hsame, hsame⟩

end Table

/-- Deciding about volumes leaves the members alone. -/
theorem decide_volumes_matching (st : RaidState) :
    PartialMatching ondisk (decide_volumes st).1 ↔ PartialMatching ondisk st := by
  have hmem : ∀ k, ((decide_volumes st).1.md k).members = (st.md k).members := by
    intro k
    simp only [decide_volumes]
    split <;> rfl
  have hno : (decide_volumes st).1.raid_dev_no = st.raid_dev_no := rfl
  constructor <;> rintro ⟨honce, htable, halike⟩
  · simp only [hmem, hno] at honce htable halike
    exact ⟨honce, htable, halike⟩
  · refine ⟨?_, ?_, ?_⟩ <;> simpa only [hmem, hno]

end Matching

/-- **The arrays are a partial matching exactly when no leader stays in the devices of
two partitions behind it, and no more than `MAX_MD_DEV` partitions have a leader or run
alone.** -/
theorem raid_matching_iff (ondisk : ℕ → mdp_super_t) (st : RaidState) (n : ℕ)
    (hst : Fresh st) (hn : n ≤ IDE_MAX_PARTITIONS) :
    PartialMatching ondisk (raid_init ondisk n st).1 ↔
      Unambiguous ondisk st.parts n ∧
        ((List.range n).filter (counted ondisk st.parts n)).length ≤ MAX_MD_DEV := by
  have hsmall : n < 255 := lt_of_le_of_lt hn (by decide)
  unfold raid_init
  rw [decide_volumes_matching]
  exact (raid_scan_represents hst hsmall).matching_iff

/-- A table in which every partition is one of a mirror. -/
def mirror_table : RaidState := ⟨fun _ => mirror_part 0 0, fun _ => md_free, 0⟩

/-- Its superblocks: equal counts, and the numbers in order. -/
def mirror_sbs (p : ℕ) : mdp_super_t := mirror_sb 7 (UInt32.ofNat p)

theorem mirror_table_fresh : Fresh mirror_table := ⟨rfl, fun _ => rfl⟩

theorem raid_matching_iff_pair :
    PartialMatching mirror_sbs (raid_init mirror_sbs 2 mirror_table).1 ↔
      Unambiguous mirror_sbs mirror_table.parts 2 ∧
        ((List.range 2).filter (counted mirror_sbs mirror_table.parts 2)).length ≤ MAX_MD_DEV :=
  raid_matching_iff mirror_sbs mirror_table 2 mirror_table_fresh (by decide)

/-- Three partitions of one mirror make two devices, and the first partition is in
both. -/
theorem raid_leader_twice :
    ¬ PartialMatching mirror_sbs (raid_init mirror_sbs 3 mirror_table).1 := by
  intro h
  have hno : (raid_init mirror_sbs 3 mirror_table).1.raid_dev_no = 2 := by decide
  have hmem : ∀ k < 2, 0 ∈ ((raid_init mirror_sbs 3 mirror_table).1.md k).members := by decide
  have heq := h.once 0 0 1 (by rw [hno]; decide) (by rw [hno]; decide) (hmem 0 (by decide))
    (hmem 1 (by decide))
  simp at heq

end CsBoot.Raid
