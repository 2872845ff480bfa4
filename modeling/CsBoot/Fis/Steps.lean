/-
What the commands on the FIS directory do, `src/src/sys/sys_fis.c`.

The default directory holds the names of its images (`holds_default`). An upgrade, which
a create or an overwrite runs first, records what it has programmed and leaves every name
where it is (`Holds.download`). Then the entry is written in the slot that has the name, or
in one without a name (`Holds.write`): the lookup finds it, and finds under every other
name what it found before.
-/
import Mathlib.Data.Bool.AllAny
import CsBoot.Fis.Table

set_option autoImplicit false

namespace CsBoot.Fis

open ByteMem Ui.Build

/-! ## The default directory -/

section Default

variable (b : FisBuild) (ipaddr netmask gateway : ℕ)

/-- The table of the default directory. -/
def default_table : ℕ → Option (List UInt8) := fun j =>
  ((build_images b ipaddr netmask gateway).map fun f => fold f.name)[j]?

variable {b ipaddr netmask gateway}

/-- The names are short texts, and the addresses have room in the entry of the boot
loader. -/
theorem build_images_fit : ∀ f ∈ build_images b ipaddr netmask gateway, f.Fits ∧ IsName f.name := by
  have hdata : (sprintf_ip ipaddr ++ sprintf_ip netmask ++ sprintf_ip gateway).length ≤ 212 := by
    have := length_sprintf_ip ipaddr
    have := length_sprintf_ip netmask
    have := length_sprintf_ip gateway
    simp only [List.length_append]
    omega
  have htext : ∀ name : List UInt8, name ≠ [] ∧ name.length ≤ FIS_NAME_SIZE →
      (name.all fun c => c ≠ 0 ∧ c ≠ 0xff) = true → IsName name :=
    fun name h hall => ⟨h.1, h.2, List.all_iff_forall_prop.mp hall⟩
  unfold build_images Image.Fits
  cases b.BOARD_SUPPORT_TWO_CPU
  all_goals cases b.NETBSD
  all_goals cases b.BOARD_NAND_BOOT
  all_goals
    simp only [Bool.false_eq_true, if_true, if_false, List.forall_mem_append, List.forall_mem_cons]
    and_intros
    all_goals
      first | decide | exact hdata | exact htext _ (by decide) rfl | exact List.forall_mem_nil _

theorem length_build_images : (build_images b ipaddr netmask gateway).length ≤ FIS_MAX_ENTRY := by
  unfold build_images
  cases b.BOARD_SUPPORT_TWO_CPU
  all_goals cases b.NETBSD
  all_goals cases b.BOARD_NAND_BOOT
  all_goals
    simp only [Bool.false_eq_true, if_true, if_false, List.length_append, List.length_cons,
      List.length_nil]
    decide

/-- No two of the images have one name. -/
theorem nodup_build_images :
    ((build_images b ipaddr netmask gateway).map fun f => fold f.name).Nodup := by
  unfold build_images
  cases b.BOARD_SUPPORT_TWO_CPU
  all_goals cases b.NETBSD
  all_goals cases b.BOARD_NAND_BOOT
  all_goals
    simp only [Bool.false_eq_true, if_true, if_false, List.map_append, List.map_cons, List.map_nil]
    decide

theorem holds_default (fis : ByteMem) : Holds (build_default b ipaddr netmask gateway fis)
    (default_table b ipaddr netmask gateway) (build_images b ipaddr netmask gateway).length := by
  have hlen : (build_images b ipaddr netmask gateway).length ≤ FIS_MAX_ENTRY := length_build_images
  obtain ⟨hstay, hmade⟩ := @fis_create_entries_spec
    (store_bytes fis 0 (List.replicate (FIS_MAX_ENTRY * FIS_ENTRY_SIZE) 0xff)) 0 _
    (fun f hf => (build_images_fit f hf).1) ((Nat.zero_add _).trans_le hlen)
  rw [← build_default] at hstay hmade
  -- slot `j` has the `j`-th image, and the slots behind the images are erased
  have hget : ∀ j k, default_table b ipaddr netmask gateway j = some k →
      ∃ hj : j < (build_images b ipaddr netmask gateway).length,
        k = fold ((build_images b ipaddr netmask gateway)[j]).name := by
    intro j k hk
    obtain ⟨hj, hk⟩ := List.getElem?_eq_some_iff.mp hk
    rw [List.length_map] at hj
    rw [List.getElem_map] at hk
    exact ⟨hj, hk.symm⟩
  constructor
  · exact hlen
  · intro j k hk
    exact (hget j k hk).1
  · intro j k hk
    obtain ⟨hj, rfl⟩ := hget j k hk
    obtain ⟨hfit, hname⟩ := build_images_fit _ (List.getElem_mem hj)
    have hsame := hmade j hj
    rw [Nat.zero_add] at hsame
    have himg := entry_lt (hj.trans_le hlen)
    exact ⟨_, rfl, (Named.create himg hname fun h16 => absurd hfit.1 (by omega)).congr himg hsame⟩
  · intro j hj hnone
    rw [default_table, List.getElem?_eq_none_iff, List.length_map] at hnone
    omega
  · intro j hj hmax
    refine (hstay j hmax (.inr (by omega))).trans ?_
    intro i hi
    unfold store_bytes
    rw [List.length_replicate, if_pos (by unfold entry FIS_ENTRY_SIZE FIS_MAX_ENTRY at *; omega)]
    exact List.getD_replicate _ (by unfold entry FIS_ENTRY_SIZE FIS_MAX_ENTRY at *; omega)
  · intro i j k hi hj
    obtain ⟨hilt, hi⟩ := List.getElem?_eq_some_iff.mp hi
    obtain ⟨hjlt, hj⟩ := List.getElem?_eq_some_iff.mp hj
    exact (nodup_build_images.getElem_inj_iff).mp (hi.trans hj.symm)

end Default

/-! ## What the commands do -/

section Commands

variable {σ : Type} {b : FisBuild} {dev : ChipDev σ} {st : ProgramState σ}
  {t : ℕ → Option (List UInt8)} {used j img destp : ℕ} {name : FisName} {n : Numbers} {a : Answers}

theorem upgrade_record_fis (b : UpgradeBuild) (dev : ChipDev σ) (flash : σ) (fis : ByteMem)
    (destp : ℕ) (data_length size : ℤ) :
    (upgrade_record b dev flash fis destp data_length size).fis =
      fis_record fis destp (Ui.u32 data_length) (Ui.u32 size) FIS_MAX_ENTRY := by
  simp only [upgrade_record]

/-- The upgrade records what it has programmed, and does nothing else to the directory. -/
theorem ui_download_fis (b : UpgradeBuild) (dev : ChipDev σ) (st : ProgramState σ) (destp : ℕ)
    (erase_size max_size : ℤ) (u : Ui.Upload) (c : Ui.Console) :
    (ui_download b dev st destp erase_size max_size u c).1.fis = st.fis ∨ ∃ len sz,
      (ui_download b dev st destp erase_size max_size u c).1.fis =
        fis_record st.fis destp len sz FIS_MAX_ENTRY := by
  by_cases h : Ui.ConsoleAccepts destp max_size u c
  · rw [ui_download_of_accepts h]
    dsimp only
    by_cases hrec : UiRecords b destp (Ui.image_size destp u)
    · rw [if_pos hrec]
      exact .inr ⟨_, _, upgrade_record_fis ..⟩
    · rw [if_neg hrec]
      exact .inl rfl
  · left
    obtain heq | heq := @ui_download_refused σ b dev st destp erase_size max_size u c h
    · rw [heq]
    · rw [heq]
      rfl

/-- The directory holds the same names after an upgrade, and the entries with other places
are as they were. -/
theorem Holds.download (h : Holds st.fis t used) (hpos : 0 < destp) (hlt : destp < 0xffffffff)
    (erase_size max_size : ℤ) (u : Ui.Upload) (c : Ui.Console) :
    Holds (ui_download b.toUpgradeBuild dev st destp erase_size max_size u c).1.fis t used ∧
      ∀ j, j < FIS_MAX_ENTRY → flash_base st.fis (entry j) ≠ destp → SameEntry (entry j)
        (ui_download b.toUpgradeBuild dev st destp erase_size max_size u c).1.fis st.fis := by
  obtain heq | ⟨len, sz, heq⟩ :=
    ui_download_fis b.toUpgradeBuild dev st destp erase_size max_size u c
  · rw [heq]
    exact ⟨h, fun _ _ _ _ _ => rfl⟩
  · rw [heq]
    exact ⟨h.record hpos hlt, fun j hj => (fis_record_spec hj).2.2⟩

/-- A place that is accepted is in the flash. -/
theorem ask_numbers_place (h : ask_numbers b a = some n) :
    0 < n.flash_addr ∧ n.flash_addr < 0xffffffff := by
  have hlt : flash_end b < 0xffffffff := b.flash_lt
  have hbase : 0 < BOARD_FLASH_BASE_ADDR := by decide
  unfold ask_numbers at h
  obtain ⟨flash_addr, -, h⟩ := Option.bind_eq_some_iff.mp h
  split_ifs at h with hplace
  obtain ⟨ram_addr, -, h⟩ := Option.bind_eq_some_iff.mp h
  split_ifs at h
  obtain ⟨entry_point, -, h⟩ := Option.bind_eq_some_iff.mp h
  split_ifs at h
  obtain ⟨max_size, -, h⟩ := Option.bind_eq_some_iff.mp h
  split_ifs at h
  cases h
  dsimp only
  omega

/-- The slot that is written under a name: the one that has it, or one without a name. -/
structure Slot (t : ℕ → Option (List UInt8)) (used : ℕ) (name : FisName) (j : ℕ) : Prop where
  le_used : j ≤ used
  lt_max : j < FIS_MAX_ENTRY
  only : ∀ i, t i = some (fold name.chars) → i = j
  free : t j = some (fold name.chars) ∨ t j = none

theorem Holds.slot_of_find (h : Holds st.fis t used)
    (hfind : fis_find_image st.fis name.chars = some img) :
    ∃ j, img = entry j ∧ Slot t used name j := by
  obtain ⟨j, htj, rfl⟩ := (h.find name.ne_nil).mp hfind
  have hj := h.lt_used j _ htj
  exact ⟨j, rfl, hj.le, hj.trans_le h.used_le, fun i hi => h.unique hi htj, .inl htj⟩

theorem Holds.slot_of_create (h : Holds st.fis t used)
    (hslot : ((fis_find_image st.fis name.chars).orElse fun _ => fis_get_free_image st.fis) =
      some img) : ∃ j, img = entry j ∧ Slot t used name j := by
  cases hfind : fis_find_image st.fis name.chars with
  | some img' =>
      rw [hfind] at hslot
      cases hslot
      exact h.slot_of_find hfind
  | none =>
      rw [hfind] at hslot
      have hno := (h.find_none name.ne_nil).mp hfind
      obtain ⟨j, hj, hmax, hnone, rfl⟩ := h.free hslot
      exact ⟨j, rfl, hj, hmax, fun i hi => absurd hi (hno i), .inr hnone⟩

/-- The entry at `img` has just been written under the name, and what is found under the
other names is what it was; it is unchanged if its place is another one. -/
structure Recorded (fis fis' : ByteMem) (img : ℕ) (name : FisName) (f : Image) : Prop where
  found : fis_find_image fis' name.chars = some img
  written : SameEntry img fis' (fis_create_entry fis img f)
  others : ∀ other : FisName, ¬ is_name other name.chars →
    fis_find_image fis' other.chars = fis_find_image fis other.chars
  kept : ∀ (other : FisName) (img' : ℕ), ¬ is_name other name.chars →
    fis_find_image fis other.chars = some img' → flash_base fis img' ≠ f.flash_base →
      SameEntry img' fis' fis

/-- **Writing an entry** after an upgrade to its place. -/
theorem Holds.write (h : Holds st.fis t used) (hslot : Slot t used name j) {st' : ProgramState σ}
    (hst' : Holds st'.fis t used)
    (hsame : ∀ i, i < FIS_MAX_ENTRY → flash_base st.fis (entry i) ≠ n.flash_addr →
      SameEntry (entry i) st'.fis st.fis)
    (hzero : name.chars.length = 16 → n.flash_addr % 256 = 0) (data_length : ℕ) :
    Holds (write_image b dev (entry j) name n data_length st').fis
        (Slots.put t j (fold name.chars)) (max used (j + 1)) ∧
      Recorded st.fis (write_image b dev (entry j) name n data_length st').fis (entry j) name
        (typed_image name n data_length) := by
  have hput : Holds (write_image b dev (entry j) name n data_length st').fis
      (Slots.put t j (fold name.chars)) (max used (j + 1)) :=
    hst'.put hslot.le_used hslot.lt_max name.isName (Nat.zero_le _) hzero hslot.only
  have hne : ∀ other : FisName, ¬ is_name other name.chars → fold other.chars ≠ fold name.chars :=
    fun _ hother => hother
  -- no other name is in the slot, so the others are found where they were
  have hfree : ∀ other : FisName, ¬ is_name other name.chars → t j ≠ some (fold other.chars) := by
    intro other hother htj
    obtain htj' | htj' := hslot.free
    · exact hne other hother (Option.some.inj (htj.symm.trans htj'))
    · exact Option.some_ne_none _ (htj.symm.trans htj')
  refine ⟨hput, ?_, fis_create_entry_congr _ _ _ _, ?_, ?_⟩
  · exact (hput.find name.ne_nil).mpr ⟨j, Slots.put_self, rfl⟩
  · intro other hother
    ext img'
    rw [hput.find other.ne_nil, h.find other.ne_nil]
    simp only [Slots.put_other (hne other hother) (hfree other hother)]
  · intro other img' hother hfind hbase
    obtain ⟨i, hti, rfl⟩ := (h.find other.ne_nil).mp hfind
    have hi := (h.lt_used i _ hti).trans_le h.used_le
    have hij : i ≠ j := by
      rintro rfl
      exact hfree other hother hti
    have hframe : SameEntry (entry i) (write_image b dev (entry j) name n data_length st').fis
        st'.fis :=
      sameEntry_of_frame (fun _ hx => fis_create_entry_frame_le name.length_le (Nat.zero_le _)
        (entry_lt hslot.lt_max) hx) hij
    exact hframe.trans (hsame i hi hbase)

variable (b dev) in
/-- A create that comes to its end: the name and the numbers are accepted, there is an
entry for it, and the upgrade returns a size. -/
structure Creates (st : ProgramState σ) (a : Answers) (name : FisName) (n : Numbers) : Prop where
  name_eq : a.name = some name
  numbers : ask_numbers b a = some n
  slot : ((fis_find_image st.fis name.chars).orElse fun _ => fis_get_free_image st.fis).isSome
  size_pos : total_size
    (ui_download b.toUpgradeBuild dev st n.flash_addr 0 0 a.upload a.console).2 > 0

/-- What a create does. -/
theorem create_cases (a : Answers) (st : ProgramState σ) :
    let r := fis_ui_create_image b dev a st
    let down := fun n : Numbers =>
      ui_download b.toUpgradeBuild dev st n.flash_addr 0 0 a.upload a.console
    (∃ name n img, Creates b dev st a name n ∧
        ((fis_find_image st.fis name.chars).orElse fun _ => fis_get_free_image st.fis) = some img ∧
        (loads_directory b name (total_size (down n).2) ∧
            r = ({ (down n).1 with fis := dev.directory (down n).1.flash }, none) ∨
          ¬ loads_directory b name (total_size (down n).2) ∧
            r = (write_image b dev img name n n.max_size (down n).1, some img))) ∨
      (∀ name n, ¬ Creates b dev st a name n) ∧
        (r.1 = st ∨ ∃ n, ask_numbers b a = some n ∧ r.1 = (down n).1) := by
  dsimp only
  unfold fis_ui_create_image
  -- the questions in the order they are asked: the name, a slot, the numbers, the file
  cases hname : a.name with
  | none => exact .inr ⟨fun _ _ h => Option.some_ne_none _ (h.name_eq.symm.trans hname), .inl rfl⟩
  | some name =>
      dsimp only
      cases hslot :
        (fis_find_image st.fis name.chars).orElse fun _ => fis_get_free_image st.fis with
      | none =>
          refine .inr ⟨fun name' n h => ?_, .inl rfl⟩
          cases h.name_eq.symm.trans hname
          have := h.slot
          rw [hslot] at this
          exact Bool.false_ne_true this
      | some img =>
          dsimp only
          cases hnum : ask_numbers b a with
          | none =>
              exact .inr ⟨fun _ _ h => Option.some_ne_none _ (h.numbers.symm.trans hnum), .inl rfl⟩
          | some n =>
              dsimp only
              by_cases hpos : total_size
                  (ui_download b.toUpgradeBuild dev st n.flash_addr 0 0 a.upload a.console).2 > 0
              · rw [if_pos hpos]
                have hcreates : Creates b dev st a name n :=
                  ⟨hname, hnum, by rw [hslot]; rfl, hpos⟩
                refine .inl ⟨name, n, img, hcreates, hslot, ?_⟩
                split_ifs with hload
                · exact .inl ⟨hload, rfl⟩
                · exact .inr ⟨hload, rfl⟩
              · rw [if_neg hpos]
                refine .inr ⟨fun name' n' h => hpos ?_, .inr ⟨n, rfl, rfl⟩⟩
                cases h.numbers.symm.trans hnum
                exact h.size_pos

/-- What an overwrite does. -/
theorem over_write_cases (a : Answers) (st : ProgramState σ) :
    let r := fis_ui_over_write_image b dev a st
    let down := fun (n : Numbers) (erase_size max_size : ℤ) =>
      ui_download b.toUpgradeBuild dev st n.flash_addr erase_size max_size a.upload a.console
    (∃ name n img erase_size max_size data_length, a.name = some name ∧
        ask_numbers b a = some n ∧ fis_find_image st.fis name.chars = some img ∧
        r = (write_image b dev img name n data_length (down n erase_size max_size).1, some img)) ∨
      r.1 = st ∨ ∃ n erase_size max_size, ask_numbers b a = some n ∧
        r.1 = (down n erase_size max_size).1 := by
  dsimp only
  unfold fis_ui_over_write_image
  -- the questions in the order they are asked; a build without NAND asks for no size
  cases hname : a.name with
  | none => exact .inr (.inl rfl)
  | some name =>
      dsimp only
      cases hfind : fis_find_image st.fis name.chars with
      | none => exact .inr (.inl rfl)
      | some img =>
          dsimp only
          cases hnum : ask_numbers b a with
          | none => exact .inr (.inl rfl)
          | some n =>
              dsimp only
              cases hsize : (if b.BOARD_NAND_BOOT then a.img_size else some 0 : Option ℕ) with
              | none => exact .inr (.inl rfl)
              | some img_size =>
                  dsimp only
                  by_cases hlarge : b.BOARD_NAND_BOOT = true ∧ too_large b img_size
                  · rw [if_pos hlarge]
                    exact .inr (.inl rfl)
                  rw [if_neg hlarge]
                  cases b.BOARD_NAND_BOOT with
                  | false =>
                      simp only [Bool.false_eq_true, if_false]
                      split_ifs
                      · exact .inl ⟨name, n, img, _, _, _, rfl, rfl, hfind, rfl⟩
                      · exact .inr (.inr ⟨n, _, _, rfl, rfl⟩)
                  | true =>
                      simp only [if_true]
                      split_ifs
                      · exact .inl ⟨name, n, img, _, _, _, rfl, rfl, hfind, rfl⟩
                      · exact .inr (.inr ⟨n, _, _, rfl, rfl⟩)

end Commands

end CsBoot.Fis
