/-
Runs of the VCTL store: `sys_vctl_init` and any number of saves.

A run remembers which entries were saved. What a save is for is that the entry
is found from then on, in the copy at once and in flash after the next start,
until an entry of the same type takes its place (`UpToDate`). The NOR build
keeps this up. The NAND build programs the sector and returns without making
the copy anew; the next save starts from the old copy, and the entry before it
is gone from flash.
-/
import CsBoot.Lib.Run
import CsBoot.Sys.VctlStore

set_option autoImplicit false

namespace CsBoot.Vctl

open ByteMem Keyed

/-- A call of `sys_save_vctl_entry` with an entry of its own type and size, and
what `malloc` gives for the new image. -/
structure SaveOp where
  entry : Entry
  malloc : Option ByteMem

/-- The store, and the entries saved so far, the last one first. A save without
memory for the new image does not count. -/
structure Saves (σ : Type) where
  store : Store σ
  saved : List Entry

variable {σ : Type} (F : Sector σ) (A : Area) (target : Target)

/-- One save. -/
def save_step (r : Saves σ) (op : SaveOp) : Option (Saves σ) :=
  some
    { store := (sys_save_vctl_entry F A target r.store op.entry.type op.entry.bytes op.malloc).1
      saved := if op.malloc = none then r.saved else op.entry :: r.saved }

/-- `sys_get_vctl_entry` returns the entry to every buffer that takes it. -/
def Finds (A : Area) (m : ByteMem) (t : ℕ) (e : Entry) : Prop :=
  ∀ size : ℤ, e.bytes.length ≤ size →
    (sys_get_vctl_entry A m t size).ret = 0 ∧ (sys_get_vctl_entry A m t size).result = e.bytes

/-- The copy and the sector hold the same entries, and the entry saved last for
a type is what `sys_get_vctl_entry` finds, now and on the copy that the next
start makes. -/
structure UpToDate (r : Saves σ) : Prop where
  same : ∃ es, Contents A (F.read r.store.flash) 0 es ∧ Contents A r.store.ram A.vctl_datap es
  found : ∀ t e, lookup Entry.type t r.saved = some e →
    Finds A r.store.ram t e ∧ Finds A (load_copy F A r.store).ram t e

/-- The save finds room for all entries, or no memory. -/
def RoomFor (es : List Entry) (op : SaveOp) : Prop := op.malloc = none ∨ Room A op.entry es

/-- A save that keeps the copy up to date: in the NAND build the entry is the
one that is there already. -/
def InStep (es : List Entry) (op : SaveOp) : Prop :=
  op.malloc = none ∨
    Room A op.entry es ∧ (target = .nor ∨ put Entry.type op.entry es = es)

/-- A condition on the entries of the sector before the save. -/
def OnEntries (P : List Entry → SaveOp → Prop) (r : Saves σ) (op : SaveOp) : Prop :=
  ∃ es, Contents A (F.read r.store.flash) 0 es ∧ P es op

variable {F A target}

/-! ## One save -/

section Step

variable {m : ByteMem} {base : ℕ} {es es' : List Entry} {e : Entry}

/-- The entries in the store are determined by its bytes. -/
theorem Contents.unique (h : Contents A m base es) (h' : Contents A m base es')
    (hbase : base + A.vctl_size ≤ W) : es = es' := by
  have hin := h.inside
  have hin' := h'.inside
  obtain himg | ⟨hm, rfl⟩ := h.stored <;> obtain himg' | ⟨hm', rfl⟩ := h'.stored
  · exact himg.unique himg' (by omega) (by omega)
  · rw [himg.magic] at hm'
    cases hm'
  · rw [himg'.magic] at hm
    cases hm
  · rfl

/-- What a run keeps: one list of entries in flash and in the copy, which
answers for everything saved. -/
structure Synced (F : Sector σ) (A : Area) (es : List Entry) (r : Saves σ) : Prop where
  flash : Contents A (F.read r.store.flash) 0 es
  copy : Contents A r.store.ram A.vctl_datap es
  saved : ∀ t e, lookup Entry.type t r.saved = some e → lookup Entry.type t es = some e

theorem finds_of_lookup (h : Contents A m A.vctl_datap es) {t : ℕ}
    (ht : lookup Entry.type t es = some e) : Finds A m t e := by
  intro size hsize
  have hget := sys_get_vctl_entry_spec h t size
  have hlen : (e.len : ℤ) ≤ size := hsize
  rw [ht, answer, if_pos hlen] at hget
  exact Prod.ext_iff.mp hget

theorem Synced.upToDate {r : Saves σ} (h : Synced F A es r) : UpToDate F A r where
  same := ⟨es, h.flash, h.copy⟩
  found t e ht :=
    ⟨finds_of_lookup h.copy (h.saved t e ht),
      finds_of_lookup (load_copy_contents h.flash) (h.saved t e ht)⟩

/-- The list answers for one more entry. -/
theorem saved_put {saved : List Entry}
    (h : ∀ t d, lookup Entry.type t saved = some d → lookup Entry.type t es = some d) (t : ℕ)
    (d : Entry) (hd : lookup Entry.type t (e :: saved) = some d) :
    lookup Entry.type t (put Entry.type e es) = some d := by
  by_cases ht : e.type = t
  · subst ht
    have he : lookup Entry.type e.type (e :: saved) = some e := by simp [lookup]
    rw [lookup_put_self, ← hd, he]
  · have he : lookup Entry.type t (e :: saved) = lookup Entry.type t saved := by simp [lookup, ht]
    rw [lookup_put_other (Ne.symm ht)]
    exact h t d (he ▸ hd)

/-- **One save in step.** -/
theorem Synced.step (hF : F.Works A) {r r' : Saves σ} (h : Synced F A es r) {op : SaveOp}
    (hop : InStep A target es op) (hstep : save_step F A target r op = some r') :
    ∃ es', Synced F A es' r' := by
  obtain ⟨e, malloc⟩ := op
  cases hstep
  obtain rfl | ⟨hroom, hsame⟩ := hop
  · exact ⟨es, h.flash, h.copy, h.saved⟩
  · cases malloc with
    | none => exact ⟨es, h.flash, h.copy, h.saved⟩
    | some buf =>
        refine ⟨put Entry.type e es, ?_, ?_, saved_put h.saved⟩
        · exact .of_room (save_spec hF h.copy target buf).2 hroom
        · cases target with
          | nor => exact .of_room (save_nor_spec hF h.copy buf).2.2 hroom
          | nand =>
              -- the copy stays, and so does the list
              obtain hnor | hsame := hsame
              · cases hnor
              · have hram := (save_nand_spec (e := e) hF h.copy buf).2.2
                change Contents A (sys_save_vctl_entry F A .nand r.store e.type e.bytes _).1.ram _ _
                rw [hram, hsame]
                exact h.copy

end Step

/-! ## Runs -/

/-- The start of a run is in step: there is a VLAN entry, or the default entry
is saved in step. -/
def InitInStep (A : Area) (target : Target) (es : List Entry) (malloc : Option ByteMem) : Prop :=
  HasVlan es ∨ InStep A target es ⟨default_entry, malloc⟩

theorem synced_init (hF : F.Works A) {s : Store σ} {es : List Entry}
    (h : Contents A (F.read s.flash) 0 es) {malloc : Option ByteMem}
    (hinit : InitInStep A target es malloc) :
    ∃ es', Synced F A es' ⟨sys_vctl_init F A target s malloc, []⟩ := by
  have hload : Synced F A es ⟨load_copy F A s, []⟩ :=
    ⟨h, load_copy_contents h, fun _ _ h => nomatch h⟩
  obtain ⟨hfound, hsave⟩ := sys_vctl_init_spec (A := A) h target malloc
  by_cases hv : HasVlan es
  · rw [hfound hv]
    exact ⟨es, hload⟩
  · rw [hsave hv]
    have hop : InStep A target es ⟨default_entry, malloc⟩ := hinit.resolve_left hv
    obtain ⟨es', h'⟩ := hload.step hF hop rfl
    exact ⟨es', h'.flash, h'.copy, fun _ _ h => nomatch h⟩

/-- **No update is lost** in a run of saves that are in step. -/
theorem no_update_lost (hF : F.Works A) {s : Store σ} {es : List Entry}
    (h : Contents A (F.read s.flash) 0 es) {malloc : Option ByteMem}
    (hinit : InitInStep A target es malloc) {r : Saves σ}
    (hrun : Reaches (save_step F A target) (OnEntries F A (InStep A target))
      ⟨sys_vctl_init F A target s malloc, []⟩ r) :
    UpToDate F A r := by
  have hinv : ∃ es', Synced F A es' r := by
    refine hrun.invariant (P := fun r => ∃ es', Synced F A es' r) (synced_init hF h hinit) ?_
    rintro r op r' ⟨es₁, h₁⟩ ⟨es₂, hc, hop⟩ hstep
    obtain rfl : es₁ = es₂ := h₁.flash.unique hc (by have := A.stop_lt; omega)
    exact h₁.step hF hop hstep
  obtain ⟨es', h'⟩ := hinv
  exact h'.upToDate

/-! ### A sector with the VLAN entry, and two more entries saved -/

def ip_entry : Entry := sample_entry 0x80 44 (by decide)
def boot_file_entry : Entry := sample_entry 0x81 44 (by decide)

/-- The board as it starts from the sector of `fresh`. -/
def started (target : Target) : Saves ByteMem :=
  ⟨sys_vctl_init plain board_area target ⟨fresh.flash, blank⟩ (some blank), []⟩

theorem has_vlan_default : HasVlan [default_entry] := by
  refine ⟨default_entry, ?_, ?_⟩
  · simp [lookup, default_entry_type]
  · rw [default_entry_len]
    decide

theorem started_eq (target : Target) :
    started target = ⟨load_copy plain board_area ⟨fresh.flash, blank⟩, []⟩ := by
  rw [started, (sys_vctl_init_spec (F := plain) (s := ⟨fresh.flash, blank⟩) fresh_wf.2.contents
    target (some blank)).1 has_vlan_default]

theorem started_contents (target : Target) :
    Contents board_area (started target).store.ram board_area.vctl_datap [default_entry] := by
  rw [started_eq]
  exact load_copy_contents (F := plain) fresh_wf.2.contents

theorem room_ip : Room board_area ip_entry [default_entry] :=
  room_sample _ (by decide) (by decide) (by decide)

theorem room_boot_file : Room board_area boot_file_entry [default_entry] :=
  room_sample _ (by decide) (by decide) (by decide)

theorem ip_type : ip_entry.type = 0x80 := sample_type _ _ _ (by decide)

theorem boot_file_type : boot_file_entry.type = 0x81 := sample_type _ _ _ (by decide)

/-- The NOR board saves one entry. -/
theorem no_update_lost_sample :
    ∃ r, save_step plain board_area .nor (started .nor) ⟨ip_entry, some blank⟩ = some r ∧
      UpToDate plain board_area r := by
  have hinit : InitInStep board_area .nor [default_entry] (some blank) := .inl has_vlan_default
  refine ⟨_, rfl, no_update_lost (plain_works board_area) (s := ⟨fresh.flash, blank⟩)
    fresh_wf.2.contents hinit (.next .start ?_ rfl)⟩
  refine ⟨[default_entry], ?_, .inr ⟨room_ip, .inl rfl⟩⟩
  rw [← started, started_eq]
  exact fresh_wf.2.contents

/-- The NAND board saves two entries of different types, and the first of them
is no longer in flash. -/
theorem nand_update_lost :
    ∃ r, Reaches (save_step plain board_area .nand)
        (OnEntries plain board_area (RoomFor board_area)) (started .nand) r ∧
      ¬ UpToDate plain board_area r := by
  have h₀ := started_contents .nand
  have hput₁ : put Entry.type ip_entry [default_entry] = [default_entry, ip_entry] :=
    put_sample _ (by decide) (by decide)
  have hput₂ : put Entry.type boot_file_entry [default_entry] = [default_entry, boot_file_entry] :=
    put_sample _ (by decide) (by decide)
  -- the first save, and the second from the copy that the first one left as it was
  obtain ⟨r₁, hr₁, hstore₁, hsaved₁⟩ : ∃ r₁ : Saves ByteMem,
      save_step plain board_area .nand (started .nand) ⟨ip_entry, some blank⟩ = some r₁ ∧
        r₁.store = (sys_save_vctl_entry plain board_area .nand (started .nand).store ip_entry.type
          ip_entry.bytes (some blank)).1 ∧ r₁.saved = [ip_entry] := ⟨_, rfl, rfl, rfl⟩
  obtain ⟨-, hflash₁, hram₁⟩ := save_nand_spec (e := ip_entry) (plain_works board_area) h₀ blank
  rw [← hstore₁] at hflash₁ hram₁
  obtain ⟨r₂, hr₂, hstore₂, hsaved₂⟩ : ∃ r₂ : Saves ByteMem,
      save_step plain board_area .nand r₁ ⟨boot_file_entry, some blank⟩ = some r₂ ∧
        r₂.store = (sys_save_vctl_entry plain board_area .nand r₁.store boot_file_entry.type
          boot_file_entry.bytes (some blank)).1 ∧ r₂.saved = boot_file_entry :: r₁.saved :=
    ⟨_, rfl, rfl, rfl⟩
  rw [← hram₁] at h₀
  obtain ⟨-, hflash₂, -⟩ := save_nand_spec (e := boot_file_entry) (plain_works board_area) h₀ blank
  rw [← hstore₂] at hflash₂
  refine ⟨r₂, .next (.next .start ?_ hr₁) ?_ hr₂, fun hup => ?_⟩
  · refine ⟨[default_entry], ?_, .inr room_ip⟩
    rw [started_eq]
    exact fresh_wf.2.contents
  · refine ⟨_, .of_room hflash₁ room_ip, .inr ?_⟩
    have hput : put Entry.type boot_file_entry (put Entry.type ip_entry [default_entry])
        = [default_entry, ip_entry, boot_file_entry] := by
      rw [hput₁, put, if_neg (by rw [default_entry_type, boot_file_type]; decide), put,
        if_neg (by rw [ip_type, boot_file_type]; decide), put]
    refine ⟨?_, by rw [hput, List.length_cons, List.length_cons, List.length_cons]; decide⟩
    rw [hput, image_size, size_cons, size_cons, size_cons, size_nil, default_entry_len,
      ip_entry, boot_file_entry, sample_len, sample_len]
    decide
  · -- the sector holds the second entry behind the VLAN entry, and the first one is looked for
    have hc := load_copy_contents (Contents.of_room hflash₂ room_boot_file)
    have hlast : lookup Entry.type 0x80 r₂.saved = some ip_entry := by
      rw [hsaved₂, hsaved₁]
      simp [lookup, boot_file_type, ip_type]
    have hfind := ((hup.found 0x80 ip_entry hlast).2 ip_entry.len le_rfl).1
    have hget := sys_get_vctl_entry_spec hc 0x80 ip_entry.len
    have hnone : lookup Entry.type 0x80 [default_entry, boot_file_entry] = none := by
      simp [lookup, boot_file_type, default_entry_type, VCT_VLAN]
    rw [hput₂, hnone, answer] at hget
    exact absurd (hfind.symm.trans (Prod.ext_iff.mp hget).1) (by decide)

end CsBoot.Vctl
