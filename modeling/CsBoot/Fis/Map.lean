/-
The FIS directory is a map, over whole runs of the commands of `src/src/sys/sys_fis.c`.

Each command keeps the directory a table of names, from which the facts about the lookup
follow: one match at most, the entry just written, and nothing after a deletion.

Two kinds of commands are left out by `Clear`. A create under the name of the directory
reads the directory back from the flash, whatever that holds. A name of 16 characters fills
its field, and what follows is the place of the image: only a place whose first byte is
zero ends the name. Without that the entry just written is not found.
-/
import CsBoot.Lib.Run
import CsBoot.Fis.Steps

set_option autoImplicit false

namespace CsBoot.Fis

open ByteMem Ui.Build

/-- At most one entry with a valid checksum has a name. -/
def AtMostOne (fis : ByteMem) : Prop :=
  ∀ filename, filename ≠ [] → ∀ i j, i < FIS_MAX_ENTRY → j < FIS_MAX_ENTRY →
    Matches fis filename i → Matches fis filename j → i = j

section Asked

variable {σ : Type} (b : FisBuild) (dev : ChipDev σ) (st : ProgramState σ)

/-- What is asked of a command: that at most one entry has a name; that a create which comes
to its end has written an entry, which is found under the name, and has changed nothing that
is found under other names, unless it has the same place; and that nothing is found under a
name that has been deleted. The two names that cannot be deleted are refused. -/
structure Mapped (c : FisCommand) : Prop where
  unique : AtMostOne (fis_step b dev st c).fis
  created : ∀ a name n, c = .create a → Creates b dev st a name n →
    ∃ img, Recorded st.fis (fis_step b dev st c).fis img name (typed_image name n n.max_size)
  deleted : ∀ name, c = .delete (some name) → ¬ is_name name BOARD_FIS_BOOT_NAME →
    ¬ is_name name BOARD_FIS_DIRECTORY_NAME →
      fis_find_image (fis_step b dev st c).fis name.chars = none

/-- The first byte of the place ends a name that fills its field. -/
def Ends (name : FisName) (n : Numbers) : Prop :=
  name.chars.length = FIS_NAME_SIZE → n.flash_addr % 256 = 0

/-- The directory is not read back from the flash, and no name is left without its end. -/
def Clear : FisCommand → Prop
  | .create a => ∀ name n, Creates b dev st a name n →
    ¬ loads_directory b name (total_size
        (ui_download b.toUpgradeBuild dev st n.flash_addr 0 0 a.upload a.console).2) ∧
      Ends name n
  | .over_write a => ∀ name n, a.name = some name → ask_numbers b a = some n → Ends name n
  | .delete _ => True
  | .set_ip _ _ _ => True

end Asked

section Steps

variable {σ : Type} {b : FisBuild} {dev : ChipDev σ} {st : ProgramState σ}
  {t : ℕ → Option (List UInt8)} {used : ℕ}

theorem Holds.atMostOne {fis : ByteMem} (h : Holds fis t used) : AtMostOne fis := by
  intro filename hne i j hi hj hmi hmj
  exact h.unique ((h.matches_iff hne hi).mp hmi) ((h.matches_iff hne hj).mp hmj)

theorem Holds.create (h : Holds st.fis t used) {a : Answers} (hc : Clear b dev st (.create a)) :
    (∃ t' used', Holds (fis_ui_create_image b dev a st).1.fis t' used') ∧
      ∀ name n, Creates b dev st a name n → ∃ img, Recorded st.fis
        (fis_ui_create_image b dev a st).1.fis img name (typed_image name n n.max_size) := by
  obtain ⟨name, n, img, hcreates, hslot, hend⟩ | ⟨hno, hend⟩ := @create_cases σ b dev a st
  · obtain ⟨hpos, hlt⟩ := ask_numbers_place hcreates.numbers
    obtain ⟨hdown, hsame⟩ :=
      @Holds.download σ b dev st t used _ h hpos hlt 0 0 a.upload a.console
    obtain ⟨hload, hzero⟩ := hc name n hcreates
    obtain ⟨hl, -⟩ | ⟨-, heq⟩ := hend
    · exact absurd hl hload
    obtain ⟨j, rfl, hj⟩ := h.slot_of_create hslot
    obtain ⟨hput, hrec⟩ :=
      @Holds.write σ b dev st t used j name n h hj _ hdown hsame hzero n.max_size
    rw [heq]
    refine ⟨⟨_, _, hput⟩, fun name' n' hcreates' => ⟨entry j, ?_⟩⟩
    cases hcreates.name_eq.symm.trans hcreates'.name_eq
    cases hcreates.numbers.symm.trans hcreates'.numbers
    exact hrec
  · refine ⟨?_, fun name n hcreates => absurd hcreates (hno name n)⟩
    obtain heq | ⟨n, hnum, heq⟩ := hend
    · rw [heq]
      exact ⟨t, used, h⟩
    · obtain ⟨hpos, hlt⟩ := ask_numbers_place hnum
      rw [heq]
      exact ⟨t, used, (h.download hpos hlt 0 0 a.upload a.console).1⟩

theorem Holds.over_write (h : Holds st.fis t used) {a : Answers}
    (hc : Clear b dev st (.over_write a)) :
    ∃ t' used', Holds (fis_ui_over_write_image b dev a st).1.fis t' used' := by
  obtain ⟨name, n, img, erase_size, max_size, data_length, hname, hnum, hfind, heq⟩ | heq |
    ⟨n, erase_size, max_size, hnum, heq⟩ := @over_write_cases σ b dev a st
  · obtain ⟨hpos, hlt⟩ := ask_numbers_place hnum
    obtain ⟨hdown, hsame⟩ :=
      @Holds.download σ b dev st t used _ h hpos hlt erase_size max_size a.upload a.console
    obtain ⟨j, rfl, hj⟩ := h.slot_of_find hfind
    rw [heq]
    exact ⟨_, _, (h.write hj hdown hsame (hc name n hname hnum) data_length).1⟩
  · rw [heq]
    exact ⟨t, used, h⟩
  · obtain ⟨hpos, hlt⟩ := ask_numbers_place hnum
    rw [heq]
    exact ⟨t, used, (h.download hpos hlt erase_size max_size a.upload a.console).1⟩

theorem Holds.delete (h : Holds st.fis t used) (name : Option FisName) :
    (∃ t', Holds (fis_ui_delete_image b dev name st).1.fis t' used) ∧
      ∀ n, name = some n → ¬ is_name n BOARD_FIS_BOOT_NAME → ¬ is_name n BOARD_FIS_DIRECTORY_NAME →
        fis_find_image (fis_ui_delete_image b dev name st).1.fis n.chars = none := by
  unfold fis_ui_delete_image
  cases name with
  | none => exact ⟨⟨t, h⟩, fun _ hn => absurd hn.symm (Option.some_ne_none _)⟩
  | some name =>
      dsimp only
      cases hfind : fis_find_image st.fis name.chars with
      | none =>
          refine ⟨⟨t, h⟩, fun n hn _ _ => ?_⟩
          cases hn
          exact hfind
      | some img =>
          dsimp only
          obtain ⟨j, htj, rfl⟩ := (h.find name.ne_nil).mp hfind
          split_ifs with hrefused
          · refine ⟨⟨t, h⟩, fun n hn hboot hdir => ?_⟩
            cases hn
            exact absurd hrefused (not_or.mpr ⟨hboot, hdir⟩)
          · have hclear := h.clear (h.lt_used j _ htj)
            refine ⟨⟨_, hclear⟩, fun n hn _ _ => ?_⟩
            cases hn
            exact (hclear.find_none name.ne_nil).mpr fun i => Slots.not_key_of_clear h.unique htj

theorem boot_name_ne_nil : BOARD_FIS_BOOT_NAME ≠ [] := by decide

theorem Holds.set_ip (h : Holds st.fis t used) (ipaddr netmask gateway : ℕ) :
    ∃ t' used', Holds (fis_set_ip_addr b dev ipaddr netmask gateway st).fis t' used' := by
  unfold fis_set_ip_addr
  cases hfind : fis_find_image st.fis BOARD_FIS_BOOT_NAME with
  | none =>
      dsimp only
      exact ⟨_, _, holds_default (b := b) st.fis⟩
  | some img =>
      dsimp only
      obtain ⟨j, htj, rfl⟩ := (h.find boot_name_ne_nil).mp hfind
      have hj := (h.lt_used j _ htj).trans_le h.used_le
      have himg : entry j + 256 ≤ W := entry_lt hj
      have hlen : (sprintf_ip ipaddr ++ sprintf_ip netmask ++ sprintf_ip gateway).length ≤ 48 := by
        have := length_sprintf_ip ipaddr
        have := length_sprintf_ip netmask
        have := length_sprintf_ip gateway
        simp only [List.length_append]
        omega
      -- the addresses and the checksum are behind the name, and in the entry
      have hframe : ∀ x, x < entry j + 36 ∨ entry j + FIS_ENTRY_SIZE ≤ x →
          ∀ v, store32 (store_bytes st.fis (entry j + 36)
            (sprintf_ip ipaddr ++ sprintf_ip netmask ++ sprintf_ip gateway)) (entry j + 248) v x =
              st.fis x := by
        intro x hx v
        unfold FIS_ENTRY_SIZE at hx
        rw [store32_frame (by omega) (by omega), store_bytes_frame (by omega)]
      refine ⟨t, used, h.of_kept fun i hi => ?_⟩
      by_cases hij : i = j
      · subst hij
        right
        refine ⟨fun hnone => Option.some_ne_none _ (htj.symm.trans hnone), ?_,
          desc_cksum_store himg⟩
        intro k hk
        exact hframe _ (.inl (by omega)) _
      · left
        exact sameEntry_of_frame (fun x hx => hframe x (by omega) _) hij

/-- **One command** keeps the directory a table, and does what is asked. -/
theorem Holds.step (h : Holds st.fis t used) {c : FisCommand} (hc : Clear b dev st c) :
    (∃ t' used', Holds (fis_step b dev st c).fis t' used') ∧ Mapped b dev st c := by
  cases c with
  | create a =>
      obtain ⟨⟨t', used', h'⟩, hcreated⟩ := h.create hc
      refine ⟨⟨t', used', h'⟩, h'.atMostOne, ?_, ?_⟩
      · intro a' name n ha
        cases ha
        exact hcreated name n
      · intro name hname
        cases hname
  | over_write a =>
      obtain ⟨t', used', h'⟩ := h.over_write hc
      refine ⟨⟨t', used', h'⟩, h'.atMostOne, ?_, ?_⟩
      · intro a' name n ha
        cases ha
      · intro name hname
        cases hname
  | delete name =>
      obtain ⟨⟨t', h'⟩, hdeleted⟩ := @Holds.delete σ b dev st t used h name
      refine ⟨⟨t', used, h'⟩, h'.atMostOne, ?_, ?_⟩
      · intro a name n ha
        cases ha
      · intro name hname
        cases hname
        exact hdeleted name rfl
  | set_ip ipaddr netmask gateway =>
      obtain ⟨t', used', h'⟩ := @Holds.set_ip σ b dev st t used h ipaddr netmask gateway
      refine ⟨⟨t', used', h'⟩, h'.atMostOne, ?_, ?_⟩
      · intro a name n ha
        cases ha
      · intro name hname
        cases hname

end Steps

/-- **The FIS directory is a map** in every run of the commands, in every build and on every
flash, that starts with the default directory, does not read the directory back from the
flash and leaves no name without its end. -/
theorem fis_directory_is_map {σ : Type} (b : FisBuild) (dev : ChipDev σ) (st : ProgramState σ)
    (ipaddr netmask gateway : ℕ) (cs : List FisCommand)
    (h : EveryStep (fis_step b dev) (Clear b dev)
      { st with fis := build_default b ipaddr netmask gateway st.fis } cs) :
    AtMostOne (build_default b ipaddr netmask gateway st.fis) ∧
      EveryStep (fis_step b dev) (Mapped b dev)
        { st with fis := build_default b ipaddr netmask gateway st.fis } cs := by
  have h₀ := @holds_default b ipaddr netmask gateway st.fis
  generalize build_default b ipaddr netmask gateway st.fis = fis at h h₀ ⊢
  generalize default_table b ipaddr netmask gateway = t at h₀
  generalize (build_images b ipaddr netmask gateway).length = used at h₀
  refine ⟨h₀.atMostOne, h.imp_of_invariant (I := fun s => ∃ t used, Holds s.fis t used)
    ⟨t, used, h₀⟩ ?_ ?_⟩
  · rintro s c ⟨t, used, hs⟩ hc
    exact (hs.step hc).2
  · rintro s c ⟨t, used, hs⟩ hc
    exact (hs.step hc).1

/-! ## On a board with 16 MiB -/

section Board16

/-- The ideal flash, with its directory. -/
def ideal_chip : ChipDev ByteMem where
  toFlashDev := Ui.ideal
  flash_nand_program := fun m addr data len _ => Ui.ideal.flash_program m addr data len
  directory := fun m i => m (Nor.board16.BOARD_FLASH_FIS_ADDR + i)

/-- An erased flash. -/
def erased16 : ProgramState ByteMem := ⟨⟨fun _ => 0xff, fun _ => 0⟩, false⟩

/-- The default directory in RAM. -/
def default16 : ProgramState ByteMem :=
  { erased16 with fis := build_default (fis_nor Nor.board16) 0 0 0 erased16.fis }

/-- A hundred zero bytes are sent, for an image of at most 128 KiB at this place. -/
def answers16 (name : FisName) (flash_addr : ℕ) : Answers where
  name := some name
  flash_addr := some flash_addr
  ram_addr := some 0
  entry_point := some 0
  max_size := some 0x20000
  img_size := none
  upload := Ui.zero_file 100 (by decide)
  console := ⟨true, false⟩

def directory_name : FisName :=
  ⟨BOARD_FIS_DIRECTORY_NAME, by decide, by decide, List.all_iff_forall_prop.mp rfl⟩

def long_name : FisName where
  chars := Nor.ascii
    ['L', 'o', 'n', 'g', 'I', 'm', 'a', 'g', 'e', 'N', 'a', 'm', 'e', '0', '0', '1']
  ne_nil := by decide
  length_le := by decide
  printable := List.all_iff_forall_prop.mp rfl

variable {name : FisName} {flash_addr : ℕ}

theorem fis_nor_upgrade (B : Nor.Board) : (fis_nor B).toUpgradeBuild = nor B := rfl

/-- The upgrade, to a place that is not the one of the boot loader: the first try succeeds. -/
theorem download16 (hboot : flash_addr ≠ BOARD_FLASH_BOOT_ADDR) :
    let r := ui_download (nor Nor.board16) ideal_chip default16 flash_addr 0 0
      (answers16 name flash_addr).upload (answers16 name flash_addr).console
    r.2 = .successful 100 ∧ (flash_addr = Nor.board16.BOARD_FLASH_FIS_ADDR →
      r.1.flash = Ui.placed (fun _ => 0xff) flash_addr 100 (fun _ => 0) 100) := by
  have haccepts : Ui.ConsoleAccepts flash_addr 0 (Ui.zero_file 100 (by decide)) ⟨true, false⟩ :=
    ⟨fun h => absurd rfl h, fun h => absurd h hboot, fun h => absurd h hboot, rfl⟩
  have hstripped : ¬ Ui.Stripped flash_addr (Ui.zero_file 100 (by decide)) := fun hs => hboot hs.1
  have hsize : Ui.image_size flash_addr (Ui.zero_file 100 (by decide)) = 100 := if_neg hstripped
  have hbytes : Ui.image_bytes flash_addr (Ui.zero_file 100 (by decide)) = fun _ => 0 :=
    if_neg hstripped
  have hnor := @ui_download_nor ByteMem ideal_chip Nor.board16 default16 flash_addr 0 0
    (Ui.zero_file 100 (by decide)) ⟨true, false⟩
  have hstate := congrArg (fun r => r.1.flash) hnor
  have hret := congrArg Prod.snd hnor
  dsimp only at hstate hret
  have hdev : ideal_chip.toFlashDev = Ui.ideal := rfl
  rw [hdev] at hstate hret
  refine ⟨hret.trans ?_, fun hfis => hstate.trans ?_⟩
  · rw [Ui.ui_download_ideal_successful haccepts, hsize]
  · rw [Ui.ui_download_ideal haccepts]
    dsimp only
    rw [if_neg fun hrec => hrec.2 hfis, hsize, hbytes, Ui.erased_size, if_pos rfl, hsize]
    rfl

theorem numbers16 (hplace : BOARD_FLASH_BASE_ADDR ≤ flash_addr)
    (hend : flash_addr ≤ BOARD_FLASH_BASE_ADDR + 0x1000000) :
    ask_numbers (fis_nor Nor.board16) (answers16 name flash_addr) =
      some ⟨flash_addr, 0, 0, 0x20000⟩ := by
  have hlast : flash_end (fis_nor Nor.board16) = BOARD_FLASH_BASE_ADDR + 0x1000000 := by decide
  have hflash : ¬ (flash_addr < BOARD_FLASH_BASE_ADDR ∨
      flash_addr > flash_end (fis_nor Nor.board16)) := by omega
  have hram : ¬ 0 > (fis_nor Nor.board16).BOARD_DRAM_END := by decide
  have hlarge : ¬ too_large (fis_nor Nor.board16) 0x20000 := by decide
  simp only [ask_numbers, answers16, Option.bind_eq_bind, Option.bind_some, if_neg hflash,
    if_neg hram, if_neg hlarge]

/-- There is an entry left. -/
theorem free16 : fis_get_free_image default16.fis ≠ none := by
  have h₀ := @holds_default (fis_nor Nor.board16) 0 0 0 erased16.fis
  exact h₀.free_ne_none (by decide)

/-- The create comes to its end. -/
theorem creates16 (name : FisName) (hplace : BOARD_FLASH_BASE_ADDR < flash_addr)
    (hend : flash_addr ≤ BOARD_FLASH_BASE_ADDR + 0x1000000) :
    Creates (fis_nor Nor.board16) ideal_chip default16 (answers16 name flash_addr) name
      ⟨flash_addr, 0, 0, 0x20000⟩ := by
  refine ⟨rfl, numbers16 hplace.le hend, ?_, ?_⟩
  · rw [Option.isSome_iff_ne_none]
    cases fis_find_image default16.fis name.chars with
    | some img =>
        rw [Option.orElse_some]
        exact Option.some_ne_none img
    | none =>
        rw [Option.orElse_none]
        exact free16
  · have hdown := (@download16 name flash_addr hplace.ne').1
    change total_size (ui_download (nor Nor.board16) ideal_chip default16 flash_addr 0 0
      (answers16 name flash_addr).upload (answers16 name flash_addr).console).2 > 0
    rw [hdown]
    decide

/-- Nothing is found when the first entry is cleared and the second one erased. -/
theorem find_none_of_cleared {fis : ByteMem} {filename : List UInt8} (hne : filename ≠ [])
    (h₀ : fis (entry 0) = 0) (h₁ : fis (entry 1) = 0xff) : fis_find_image fis filename = none := by
  obtain ⟨c, cs, rfl⟩ := List.exists_cons_of_ne_nil hne
  have hno : strncasecmp (c :: cs) fis (entry 0) ≠ 0 := by
    rw [strncasecmp, if_pos h₀]
    exact one_ne_zero
  unfold fis_find_image FIS_MAX_ENTRY
  rw [find_loop, h₀, if_neg (by decide), if_neg fun h => hno h.1,
    show entry 0 + FIS_ENTRY_SIZE = entry 1 from rfl, find_loop, if_pos h₁]

/-- The directory is read back from the flash, where a hundred zero bytes have been
programmed, and nothing is found in it. -/
theorem directory_read_back :
    ¬ Mapped (fis_nor Nor.board16) ideal_chip default16
      (.create (answers16 directory_name Nor.board16.BOARD_FLASH_FIS_ADDR)) := by
  intro h
  have hboot : Nor.board16.BOARD_FLASH_FIS_ADDR ≠ BOARD_FLASH_BOOT_ADDR := by decide
  obtain ⟨hsize, hflash⟩ := @download16 directory_name _ hboot
  have hcreates : Creates (fis_nor Nor.board16) ideal_chip default16
      (answers16 directory_name Nor.board16.BOARD_FLASH_FIS_ADDR) directory_name
      ⟨Nor.board16.BOARD_FLASH_FIS_ADDR, 0, 0, 0x20000⟩ :=
    creates16 directory_name (by decide) (by decide)
  obtain ⟨img, hrec⟩ := h.created _ _ _ rfl hcreates
  have hfound := hrec.found
  obtain ⟨name, n, img', hcreates', -, hend⟩ | ⟨hno, -⟩ := @create_cases ByteMem
    (fis_nor Nor.board16) ideal_chip (answers16 directory_name Nor.board16.BOARD_FLASH_FIS_ADDR)
    default16
  swap
  · exact hno _ _ hcreates
  cases hcreates.name_eq.symm.trans hcreates'.name_eq
  cases hcreates.numbers.symm.trans hcreates'.numbers
  obtain ⟨-, heq⟩ | ⟨hload, -⟩ := hend
  · have hstep : (fis_step (fis_nor Nor.board16) ideal_chip default16
        (.create (answers16 directory_name Nor.board16.BOARD_FLASH_FIS_ADDR))).fis =
        ideal_chip.directory (Ui.placed (fun _ => 0xff) Nor.board16.BOARD_FLASH_FIS_ADDR 100
          (fun _ => 0) 100) := by
      rw [← hflash rfl, fis_step, heq, fis_nor_upgrade]
    rw [hstep, find_none_of_cleared directory_name.ne_nil (by decide) (by decide)] at hfound
    cases hfound
  · refine hload ⟨rfl, ?_⟩
    have htotal := congrArg total_size hsize
    exact htotal.trans_le (by decide)

/-- A name of 16 characters at an odd place is not found. -/
theorem long_name_not_found :
    ¬ Mapped (fis_nor Nor.board16) ideal_chip default16
      (.create (answers16 long_name (BOARD_FLASH_BASE_ADDR + 0x40001))) := by
  intro h
  obtain ⟨img, hrec⟩ := h.created _ _ _ rfl (creates16 long_name (by decide) (by decide))
  obtain ⟨j, hj, rfl⟩ := fis_find_image_entry hrec.found
  -- what is behind the name is the lowest byte of the place
  have hend := end_of_strncasecmp (strncasecmp_of_find hrec.found)
  have hlen : long_name.chars.length = 16 := by decide
  rw [hlen, hrec.written 16 (by decide)] at hend
  have himg : entry j + 256 ≤ W := entry_lt hj
  have hbase := congrArg (· % 256) (@fis_create_entry_base default16.fis (entry j)
    (typed_image long_name ⟨BOARD_FLASH_BASE_ADDR + 0x40001, 0, 0, 0x20000⟩ 0x20000) himg)
  rw [flash_base, load32_mod, Nat.mod_eq_of_lt (by omega), hend] at hbase
  exact absurd hbase (by decide)

end Board16

/-- The directory is no map when it is read back from the flash, nor when a name has no end. -/
theorem fis_directory_not_map :
    ¬ EveryStep (fis_step (fis_nor Nor.board16) ideal_chip)
        (Mapped (fis_nor Nor.board16) ideal_chip) default16
        [.create (answers16 directory_name Nor.board16.BOARD_FLASH_FIS_ADDR)] ∧
      ¬ EveryStep (fis_step (fis_nor Nor.board16) ideal_chip)
        (Mapped (fis_nor Nor.board16) ideal_chip) default16
        [.create (answers16 long_name (BOARD_FLASH_BASE_ADDR + 0x40001))] :=
  ⟨fun h => directory_read_back h.1, fun h => long_name_not_found h.1⟩

def spare_name : FisName :=
  ⟨Nor.ascii ['S', 'p', 'a', 'r', 'e'], by decide, by decide, List.all_iff_forall_prop.mp rfl⟩

/-- An image is created, and deleted again. -/
theorem fis_directory_is_map_spare :
    AtMostOne (build_default (fis_nor Nor.board16) 0 0 0 erased16.fis) ∧
      EveryStep (fis_step (fis_nor Nor.board16) ideal_chip)
        (Mapped (fis_nor Nor.board16) ideal_chip) default16
        [.create (answers16 spare_name (BOARD_FLASH_BASE_ADDR + 0x40001)),
          .delete (some spare_name)] := by
  refine fis_directory_is_map (fis_nor Nor.board16) ideal_chip erased16 0 0 0 _
    ⟨?_, trivial, trivial⟩
  intro name n h
  cases h.name_eq
  constructor
  · rintro ⟨hname, -⟩
    exact absurd hname (by decide)
  · intro hlen
    exact absurd hlen (by decide)

end CsBoot.Fis
