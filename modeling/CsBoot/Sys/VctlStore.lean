/-
The VCTL store as a map from types to entries.

Over a flash that does what it is told (`Sector.Works`), a save on the NOR build
leaves flash and RAM with one and the same image, and that image holds the
entries that were there with the new one in its place. As long as all of them
stay below the size of the sector nothing is lost; an entry for which there is
no room is left out and the call still succeeds (`nothing_lost_iff`).
-/
import CsBoot.Sys.VctlSpec

set_option autoImplicit false

namespace CsBoot.Vctl

open ByteMem SkipBlocks Nor Ui Keyed

variable {σ : Type} {F : Sector σ} {A : Area} {s : Store σ} {es : List Entry} {e : Entry}

/-- Flash whose operations succeed: what is erased reads as ones, and what is
programmed into erased flash, or written past the bad blocks of NAND flash, is
read back. -/
structure Sector.Works (F : Sector σ) (A : Area) : Prop where
  erase : ∀ s, (F.flash_erase s A.vctl_size).2 = 0 ∧
    ∀ x, x < A.vctl_size → F.read (F.flash_erase s A.vctl_size).1 x = 0xff
  program : ∀ s buf n, n ≤ A.vctl_size → (∀ x, x < n → F.read s x = 0xff) →
    (F.flash_program s buf n).2 = 0 ∧ ∀ x, x < n → F.read (F.flash_program s buf n).1 x = buf x
  nand_program : ∀ s buf n, n ≤ A.vctl_size →
    (F.flash_nand_program s buf n).2 = 0 ∧
      ∀ x, x < n → F.read (F.flash_nand_program s buf n).1 x = buf x

/-- A sector that is its own contents. -/
def plain : Sector ByteMem where
  read m := m
  flash_erase m n := (fun x => if x < n then 0xff else m x, 0)
  flash_program m buf n := (fun x => if x < n then buf x else m x, 0)
  flash_nand_program m buf n := (fun x => if x < n then buf x else m x, 0)

theorem plain_works (A : Area) : plain.Works A where
  erase _ := ⟨rfl, fun _ hx => if_pos hx⟩
  program _ _ _ _ _ := ⟨rfl, fun _ hx => if_pos hx⟩
  nand_program _ _ _ _ := ⟨rfl, fun _ hx => if_pos hx⟩

/-! ## What a save leaves -/

/-- The entries in the new image. -/
def kept (A : Area) (e : Entry) (es : List Entry) : List Entry :=
  putWithin Entry.type Entry.len A.vctl_size e VCTL_HDR_SIZE false es

/-- There is room for all the entries, with one byte to spare. -/
def Room (A : Area) (e : Entry) (es : List Entry) : Prop :=
  image_size (put Entry.type e es) < A.vctl_size ∧ (put Entry.type e es).length ≤ 128

theorem kept_of_room (h : Room A e es) : kept A e es = put Entry.type e es :=
  putWithin_eq_put h.1

theorem image_size_kept (A : Area) (e : Entry) (es : List Entry) :
    image_size (kept A e es) ≤ A.vctl_size :=
  putWithin_size_le A.hdr_le (Nat.le_succ _)

theorem WellFormed.of_room {m : ByteMem} {base : ℕ} (h : Image m base (kept A e es))
    (hroom : Room A e es) : WellFormed A m base (put Entry.type e es) := by
  rw [kept_of_room hroom] at h
  exact ⟨h, hroom.2, hroom.1.le⟩

/-- The copy is made of the flash. -/
theorem load_copy_image (h : Image (F.read s.flash) 0 es) (hle : image_size es ≤ A.vctl_size) :
    Image (load_copy F A s).ram A.vctl_datap es := by
  have hstop := A.stop_lt
  refine h.shift (by omega) (by omega) fun i hi => ?_
  change (if _ then _ else _) = _
  rw [if_pos (by omega), Nat.zero_add, Nat.add_sub_cancel_left]

/-- **A save on the NOR build.** -/
theorem save_nor_spec (hF : F.Works A) (h : Contents A s.ram A.vctl_datap es) (buf : ByteMem) :
    (sys_save_vctl_entry F A .nor s e.type e.bytes (some buf)).2 = some 0 ∧
      Image (F.read (sys_save_vctl_entry F A .nor s e.type e.bytes (some buf)).1.flash) 0
        (kept A e es) ∧
      Image (sys_save_vctl_entry F A .nor s e.type e.bytes (some buf)).1.ram A.vctl_datap
        (kept A e es) := by
  obtain ⟨himg, htot, hle⟩ := rebuild_spec (e := e) h buf
  have hstop := A.stop_lt
  obtain ⟨herase, hff⟩ := hF.erase s.flash
  obtain ⟨hprog, hread⟩ := hF.program _ (rebuild A s.ram e.type e.bytes buf).buf _ hle
    fun x hx => hff x (lt_of_lt_of_le hx hle)
  have hflash : Image (F.read (F.flash_program (F.flash_erase s.flash A.vctl_size).1
      (rebuild A s.ram e.type e.bytes buf).buf
      (rebuild A s.ram e.type e.bytes buf).total_size).1) 0 (kept A e es) := by
    refine himg.shift ?_ ?_ fun i hi => ?_
    · have := image_size_kept A e es
      unfold kept at this
      omega
    · have := image_size_kept A e es
      unfold kept at this
      omega
    · rw [Nat.zero_add]
      exact hread i (htot ▸ hi)
  simp only [sys_save_vctl_entry, herase, hprog, ne_eq, not_true_eq_false, if_false]
  exact ⟨trivial, hflash, load_copy_image hflash (image_size_kept A e es)⟩

/-- **A save on the NAND build.** The copy in RAM stays as it was. -/
theorem save_nand_spec (hF : F.Works A) (h : Contents A s.ram A.vctl_datap es) (buf : ByteMem) :
    (sys_save_vctl_entry F A .nand s e.type e.bytes (some buf)).2 = none ∧
      Image (F.read (sys_save_vctl_entry F A .nand s e.type e.bytes (some buf)).1.flash) 0
        (kept A e es) ∧
      (sys_save_vctl_entry F A .nand s e.type e.bytes (some buf)).1.ram = s.ram := by
  obtain ⟨himg, htot, hle⟩ := rebuild_spec (e := e) h buf
  have hstop := A.stop_lt
  obtain ⟨-, hread⟩ := hF.nand_program s.flash (rebuild A s.ram e.type e.bytes buf).buf _ hle
  refine ⟨rfl, himg.shift ?_ ?_ fun i hi => ?_, rfl⟩
  · omega
  · omega
  · rw [Nat.zero_add]
    exact hread i (htot ▸ hi)

/-! ## `sys_vctl_init` -/

theorem Contents.of_room {m : ByteMem} {base : ℕ} (h : Image m base (kept A e es))
    (hroom : Room A e es) : Contents A m base (put Entry.type e es) :=
  (WellFormed.of_room h hroom).contents

theorem load_copy_contents (h : Contents A (F.read s.flash) 0 es) :
    Contents A (load_copy F A s).ram A.vctl_datap es := by
  have hstop := A.stop_lt
  refine ⟨?_, h.num_le, h.inside⟩
  obtain himg | ⟨hm, rfl⟩ := h.stored
  · exact .inl (load_copy_image himg h.inside)
  · refine .inr ⟨?_, rfl⟩
    have hin := h.inside
    unfold has_magic VCTL_MAGIC_SIZE at hm ⊢
    rw [← hm]
    congr 2
    apply firstBytes_congr
    intro i hi
    change (if _ then _ else _) = _
    have h8 := A.hdr_le
    unfold VCTL_HDR_SIZE at h8
    rw [if_pos (by omega), Nat.zero_add, Nat.add_sub_cancel_left]

theorem length_vlan_text (mac1 mac2 : ℕ → UInt8) : (vlan_text mac1 mac2).length = 72 := by
  simp [vlan_text, mac_hex, hex2, firstBytes, ascii, List.range_succ]

/-- The VLAN entry with the default addresses. -/
def default_entry : Entry :=
  Entry.made VCT_VLAN (vlan_text (vctl_default_mac_addr 0) (vctl_default_mac_addr 1))
    (by rw [length_vlan_text]; decide)

theorem default_entry_type : default_entry.type = VCT_VLAN :=
  Entry.made_type _ _ _ (by decide)

theorem default_entry_len : default_entry.len = 92 := by
  rw [default_entry, Entry.made_len, length_vlan_text, ENTRY_LEN]

/-- There is a VLAN entry that goes into a buffer of 128 bytes. -/
def HasVlan (es : List Entry) : Prop := ∃ e, lookup Entry.type VCT_VLAN es = some e ∧ e.len ≤ 128

/-- **`sys_vctl_init`** makes the copy, and saves the default entry when no VLAN
entry is found in it. -/
theorem sys_vctl_init_spec (h : Contents A (F.read s.flash) 0 es) (target : Target)
    (malloc : Option ByteMem) :
    (HasVlan es → sys_vctl_init F A target s malloc = load_copy F A s) ∧
    (¬ HasVlan es → sys_vctl_init F A target s malloc
      = (sys_save_vctl_entry F A target (load_copy F A s) default_entry.type default_entry.bytes
          malloc).1) := by
  have hget := sys_get_vctl_entry_spec (load_copy_contents (A := A) (F := F) h) VCT_VLAN 128
  have hret : (sys_get_vctl_entry A (load_copy F A s).ram VCT_VLAN 128).ret
      = (answer 128 (lookup Entry.type VCT_VLAN es)).1 := (Prod.ext_iff.mp hget).1
  have hiff : (answer 128 (lookup Entry.type VCT_VLAN es)).1 = 0 ↔ HasVlan es := by
    unfold HasVlan
    cases lookup Entry.type VCT_VLAN es with
    | none => simp [answer]
    | some e =>
        rw [answer]
        split_ifs with hle
        · exact iff_of_true rfl ⟨e, rfl, by omega⟩
        · refine iff_of_false (by decide) ?_
          rintro ⟨e', heq, hle'⟩
          cases heq
          omega
  constructor
  · intro hv
    rw [sys_vctl_init, if_neg (not_not.mpr (hret.trans (hiff.mpr hv)))]
  · intro hv
    have hne : (sys_get_vctl_entry A (load_copy F A s).ram VCT_VLAN 128).ret ≠ 0 := fun h0 =>
      hv (hiff.mp (hret.symm.trans h0))
    rw [sys_vctl_init, if_pos hne, sys_set_vctl_mac, if_neg hne, default_entry_type]
    rfl

/-! ## A store on the board

The sector of the NOR boards, erased, and then initialised. -/

def board_area : Area where
  vctl_datap := 0x100000
  vctl_size := 2 * 64 * 1024
  hdr_le := by decide
  int := by decide
  stop_lt := by decide

def blank : ByteMem := fun _ => 0xff

/-- The store after the first boot. -/
def fresh : Store ByteMem := sys_vctl_init plain board_area .nor ⟨blank, blank⟩ (some blank)

theorem blank_contents : Contents board_area blank 0 [] where
  stored := .inr ⟨by decide, rfl⟩
  num_le := by decide
  inside := by decide

theorem room_default : Room board_area default_entry [] := by
  refine ⟨?_, by decide⟩
  rw [put, image_size, size_cons, default_entry_len]
  decide

theorem fresh_wf : WellFormed board_area fresh.ram board_area.vctl_datap [default_entry] ∧
    WellFormed board_area fresh.flash 0 [default_entry] := by
  have hno : ¬ HasVlan [] := by
    rintro ⟨e, he, -⟩
    cases he
  have hinit : fresh = _ :=
    (sys_vctl_init_spec (F := plain) (s := ⟨blank, blank⟩) blank_contents .nor (some blank)).2 hno
  rw [hinit]
  obtain ⟨-, hflash, hram⟩ := save_nor_spec (e := default_entry) (plain_works board_area)
    (load_copy_contents (F := plain) (s := ⟨blank, blank⟩) blank_contents) blank
  exact ⟨.of_room hram room_default, .of_room hflash room_default⟩

/-- An entry of a type, with zeros behind the header. -/
def sample_entry (type n : ℕ) (h : ENTRY_LEN + n < 2 ^ 31) : Entry :=
  Entry.made type (List.replicate n 0) (by rwa [List.length_replicate])

theorem sample_len (type n : ℕ) (h : ENTRY_LEN + n < 2 ^ 31) :
    (sample_entry type n h).len = ENTRY_LEN + n := by
  rw [sample_entry, Entry.made_len, List.length_replicate]

theorem sample_type (type n : ℕ) (h : ENTRY_LEN + n < 2 ^ 31) (ht : type < W) :
    (sample_entry type n h).type = type :=
  Entry.made_type _ _ _ ht

/-- An entry of another type comes behind the VLAN entry. -/
theorem put_sample {type n : ℕ} (h : ENTRY_LEN + n < 2 ^ 31) (ht : type < W)
    (hv : type ≠ VCT_VLAN) :
    put Entry.type (sample_entry type n h) [default_entry]
      = [default_entry, sample_entry type n h] := by
  rw [put, if_neg (by rw [sample_type type n h ht, default_entry_type]; exact hv.symm), put]

theorem image_size_sample {type n : ℕ} (h : ENTRY_LEN + n < 2 ^ 31) (ht : type < W)
    (hv : type ≠ VCT_VLAN) :
    image_size (put Entry.type (sample_entry type n h) [default_entry]) = 120 + n := by
  rw [put_sample h ht hv, image_size, size_cons, size_cons, size_nil, default_entry_len, sample_len]
  unfold VCTL_HDR_SIZE ENTRY_LEN
  omega

theorem room_sample {type n : ℕ} (h : ENTRY_LEN + n < 2 ^ 31) (ht : type < W) (hv : type ≠ VCT_VLAN)
    (hn : n < 1000) : Room board_area (sample_entry type n h) [default_entry] := by
  refine ⟨?_, ?_⟩
  · rw [image_size_sample h ht hv]
    exact Nat.lt_of_lt_of_le (Nat.add_lt_add_left hn 120) (by decide)
  · rw [put_sample h ht hv, List.length_cons, List.length_cons, List.length_nil]
    decide

/-! ## The store as a map -/

/-- **The store is a map.** With room for all the entries, a save that succeeds
makes the entry the one found for its type, and changes nothing for any other. -/
theorem save_then_get (hF : F.Works A) (h : WellFormed A s.ram A.vctl_datap es)
    (hroom : Room A e es) {malloc : Option ByteMem} {s' : Store σ}
    (hsave : sys_save_vctl_entry F A .nor s e.type e.bytes malloc = (s', some 0)) :
    (∀ size : ℤ, e.bytes.length ≤ size →
      (sys_get_vctl_entry A s'.ram e.type size).ret = 0 ∧
        (sys_get_vctl_entry A s'.ram e.type size).result = e.bytes) ∧
    (∀ t, t ≠ e.type → ∀ size,
      (sys_get_vctl_entry A s'.ram t size).ret = (sys_get_vctl_entry A s.ram t size).ret ∧
        (sys_get_vctl_entry A s'.ram t size).result
          = (sys_get_vctl_entry A s.ram t size).result) ∧
    WellFormed A s'.ram A.vctl_datap (put Entry.type e es) ∧
    WellFormed A (F.read s'.flash) 0 (put Entry.type e es) := by
  cases malloc with
  | none => cases hsave
  | some buf =>
      obtain ⟨-, hflash, hram⟩ := save_nor_spec (e := e) hF h.contents buf
      simp only [hsave] at hflash hram
      have hwf := WellFormed.of_room hram hroom
      refine ⟨fun size hsize => ?_, fun t ht size => ?_, hwf, .of_room hflash hroom⟩
      · have hget := sys_get_vctl_entry_spec hwf.contents e.type size
        have hlen : (e.len : ℤ) ≤ size := hsize
        rw [lookup_put_self, answer, if_pos hlen] at hget
        exact Prod.ext_iff.mp hget
      · have hget := sys_get_vctl_entry_spec hwf.contents t size
        rw [lookup_put_other ht, ← sys_get_vctl_entry_spec h.contents t size] at hget
        exact Prod.ext_iff.mp hget

/-- An entry saved behind the VLAN entry of a fresh store is read back. -/
theorem save_then_get_sample :
    (sys_get_vctl_entry board_area (sys_save_vctl_entry plain board_area .nor fresh
        (sample_entry 0x80 44 (by decide)).type (sample_entry 0x80 44 (by decide)).bytes
        (some blank)).1.ram (sample_entry 0x80 44 (by decide)).type 128).ret = 0 := by
  have hret := (save_nor_spec (e := sample_entry 0x80 44 (by decide)) (plain_works board_area)
    fresh_wf.1.contents blank).1
  have hroom : Room board_area (sample_entry 0x80 44 (by decide)) [default_entry] :=
    room_sample _ (by decide) (by decide) (by decide)
  refine ((save_then_get (plain_works board_area) fresh_wf.1 hroom (Prod.ext rfl hret)).1 128 ?_).1
  have hlen := sample_len 0x80 44 (by decide)
  unfold Entry.len at hlen
  rw [hlen]
  decide

/-! ## What a save loses -/

/-- All the entries go into the sector, and no more than are read back. -/
def Fits (A : Area) (e : Entry) (es : List Entry) : Prop :=
  image_size (put Entry.type e es) ≤ A.vctl_size ∧ (put Entry.type e es).length ≤ 128

/-- The sector, and in the NOR build the copy, hold the new entry and every old
entry of another type. -/
def Keeps (F : Sector σ) (A : Area) (target : Target) (es : List Entry) (e : Entry)
    (s' : Store σ) : Prop :=
  ∃ es', WellFormed A (F.read s'.flash) 0 es' ∧
    (target = .nor → WellFormed A s'.ram A.vctl_datap es') ∧
    (others Entry.type e.type es).Sublist es' ∧ e ∈ es'

/-- A save of entries that do not fit fails and changes nothing, and one that
does not report a failure loses no entry. -/
def NothingLost (F : Sector σ) (A : Area) (target : Target) (s : Store σ) (es : List Entry)
    (e : Entry) (malloc : Option ByteMem) : Prop :=
  let r := sys_save_vctl_entry F A target s e.type e.bytes malloc
  (¬ Fits A e es → r.2 = some (-1) ∧ r.1 = s) ∧ (r.2 ≠ some (-1) → Keeps F A target es e r.1)

theorem Room.fits (h : Room A e es) : Fits A e es := ⟨h.1.le, h.2⟩

/-- In either build a save that has its buffer goes through, and the sector
holds what is left of the entries. -/
theorem save_spec (hF : F.Works A) (h : Contents A s.ram A.vctl_datap es) (target : Target)
    (buf : ByteMem) :
    (sys_save_vctl_entry F A target s e.type e.bytes (some buf)).2 ≠ some (-1) ∧
      Image (F.read (sys_save_vctl_entry F A target s e.type e.bytes (some buf)).1.flash) 0
        (kept A e es) := by
  cases target with
  | nor =>
      obtain ⟨hret, hflash, -⟩ := save_nor_spec (e := e) hF h buf
      exact ⟨by rw [hret]; decide, hflash⟩
  | nand =>
      obtain ⟨hret, hflash, -⟩ := save_nand_spec (e := e) hF h buf
      exact ⟨by rw [hret]; decide, hflash⟩

/-- **Nothing is lost exactly with room to spare**, or when there is no memory
for the new image. -/
theorem nothing_lost_iff (hF : F.Works A) (h : Contents A s.ram A.vctl_datap es) (target : Target)
    (malloc : Option ByteMem) :
    NothingLost F A target s es e malloc ↔ malloc = none ∨ Room A e es := by
  have hstop := A.stop_lt
  constructor
  · intro hsafe
    cases malloc with
    | none => exact .inl rfl
    | some buf =>
        right
        obtain ⟨hret, himg⟩ := save_spec (e := e) hF h target buf
        by_cases hfit : Fits A e es
        · obtain ⟨es', hwf, -, hsub, hmem⟩ := hsafe.2 hret
          obtain rfl : es' = kept A e es := by
            have hin := hwf.inside
            have hle := image_size_kept A e es
            exact hwf.toImage.unique himg (by omega) (by omega)
          -- the sector holds all of them, so there was room for all of them
          have hlt : VCTL_HDR_SIZE < A.vctl_size := by
            have hsz := hfit.1
            have he := e.len_ge
            rw [image_size, size_put] at hsz
            omega
          have hothers := hsub.filter fun a => decide (Entry.type a ≠ e.type)
          refine ⟨(putWithin_keeps_iff hlt).mp ⟨?_, hmem⟩, hfit.2⟩
          rwa [← others, ← others, others_others] at hothers
        · exact absurd (hsafe.1 hfit).1 hret
  · rintro (rfl | hroom)
    · exact ⟨fun _ => ⟨rfl, rfl⟩, fun hret => absurd rfl hret⟩
    · refine ⟨fun hfit => absurd hroom.fits hfit, fun hret => ?_⟩
      cases malloc with
      | none => exact absurd rfl hret
      | some buf =>
          have hsub : (others Entry.type e.type es).Sublist (put Entry.type e es) := by
            rw [← others_put]
            exact others_sublist
          have hmem : e ∈ put Entry.type e es := mem_of_lookup lookup_put_self
          cases target with
          | nor =>
              obtain ⟨-, hflash, hram⟩ := save_nor_spec (e := e) hF h buf
              exact ⟨_, .of_room hflash hroom, fun _ => .of_room hram hroom, hsub, hmem⟩
          | nand =>
              obtain ⟨-, hflash, -⟩ := save_nand_spec (e := e) hF h buf
              refine ⟨_, .of_room hflash hroom, ?_, hsub, hmem⟩
              intro hnor
              cases hnor

/-- A small entry saved in a fresh store. -/
theorem nothing_lost_sample :
    NothingLost plain board_area .nor fresh [default_entry] (sample_entry 0x80 44 (by decide))
      (some blank) :=
  (nothing_lost_iff (plain_works board_area) fresh_wf.1.contents .nor (some blank)).mpr
    (.inr (room_sample _ (by decide) (by decide) (by decide)))

/-- An entry larger than the sector: the save succeeds and leaves it out. -/
theorem large_entry_lost :
    ¬ NothingLost plain board_area .nor fresh [default_entry]
      (sample_entry 0x80 (2 * 64 * 1024) (by decide)) (some blank) := by
  intro hsafe
  have hfit :
      ¬ Fits board_area (sample_entry 0x80 (2 * 64 * 1024) (by decide)) [default_entry] := by
    intro hfit
    have hle := hfit.1
    rw [image_size_sample _ (by decide) (by decide)] at hle
    exact absurd hle (by decide)
  obtain ⟨hret, -⟩ := save_spec (e := sample_entry 0x80 (2 * 64 * 1024) (by decide))
    (plain_works board_area) fresh_wf.1.contents .nor blank
  exact hret (hsafe.1 hfit).1

end CsBoot.Vctl
