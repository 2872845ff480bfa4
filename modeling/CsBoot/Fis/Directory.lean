/-
The FIS directory of `src/src/sys/sys_fis.c`.

The directory is held in RAM at `fis_datap`: entries of 256 bytes, little-endian
words, laid out as the structure `FIS_T` of `sys_fis.h`. The model keeps the
bytes, so that writing the directory to flash and reading a name or a checksum
need no translation; an entry is the offset of its first byte.

After the model come the facts about the loop with which both ways of upgrading
record what they have programmed. Every entry is treated on its own
(`fis_record_entry`), so that all that is needed to know about the loop is what
`fis_set` does to one entry.
-/
import CsBoot.Lib.ByteMem

set_option autoImplicit false

namespace CsBoot.Fis

open ByteMem

/-! ## Entries -/

def FIS_ENTRY_SIZE : ℕ := 256
def FIS_MAX_ENTRY : ℕ := 24

/-- Entry `j`. -/
def entry (j : ℕ) : ℕ := FIS_ENTRY_SIZE * j

section Fields

variable (fis : ByteMem) (img : ℕ)

/-- `img->file.flash_base` -/
def flash_base : ℕ := load32 fis (img + 16)

/-- `img->file.size` -/
def size : ℕ := load32 fis (img + 24)

/-- `img->file.data_length` -/
def data_length : ℕ := load32 fis (img + 32)

/-- `img->desc_cksum` -/
def desc_cksum : ℕ := load32 fis (img + 248)

theorem size_lt : size fis img < W := load32_lt _ _

/-- `fis_desc_chksum`: the sum of the bytes in front of the checksums. -/
def fis_desc_chksum : ℕ :=
  ((List.range (FIS_ENTRY_SIZE - 8)).map fun i => (fis (img + i)).toNat).sum

end Fields

/-! ## `fis_find_image` -/

def toupper (c : UInt8) : UInt8 := if 0x61 ≤ c ∧ c ≤ 0x7a then c - 0x20 else c

/-- `sys_strncasecmp`, of a text and the name at an address. -/
def strncasecmp : List UInt8 → ByteMem → ℕ → ℕ
  | [], m, a => if m a = 0 then 0 else 1
  | c :: cs, m, a =>
    if m a = 0 then 1
    else if toupper c ≠ toupper (m a) then 1
    else strncasecmp cs m (a + 1)

/-- The loop of `fis_find_image`, with `n` entries left. -/
def find_loop (fis : ByteMem) (filename : List UInt8) : ℕ → ℕ → Option ℕ
  | 0, _ => none
  | n + 1, img =>
    if fis img = 0xff then none
    else if strncasecmp filename fis img = 0 ∧ desc_cksum fis img = fis_desc_chksum fis img then
      some img
    else find_loop fis filename n (img + FIS_ENTRY_SIZE)

/-- `fis_find_image` -/
def fis_find_image (fis : ByteMem) (filename : List UInt8) : Option ℕ :=
  find_loop fis filename FIS_MAX_ENTRY (entry 0)

/-- What is found is an entry. -/
theorem fis_find_image_entry {fis : ByteMem} {filename : List UInt8} {img : ℕ}
    (h : fis_find_image fis filename = some img) : ∃ j, j < FIS_MAX_ENTRY ∧ img = entry j := by
  have hloop : ∀ n k, find_loop fis filename n (entry k) = some img →
      ∃ j, j < k + n ∧ img = entry j := by
    intro n
    induction n with
    | zero => intro k h; cases h
    | succ n ih =>
        intro k h
        rw [find_loop] at h
        split at h
        · cases h
        · split at h
          · exact ⟨k, by omega, (Option.some.inj h).symm⟩
          · obtain ⟨j, hj, himg⟩ := ih (k + 1) h
            exact ⟨j, by omega, himg⟩
  obtain ⟨j, hj, himg⟩ := hloop FIS_MAX_ENTRY 0 h
  exact ⟨j, by omega, himg⟩

/-- The first entry is found by its name. -/
theorem fis_find_image_first {fis : ByteMem} {filename : List UInt8} (hused : fis (entry 0) ≠ 0xff)
    (hname : strncasecmp filename fis (entry 0) = 0)
    (hsum : desc_cksum fis (entry 0) = fis_desc_chksum fis (entry 0)) :
    fis_find_image fis filename = some (entry 0) := by
  unfold fis_find_image FIS_MAX_ENTRY
  rw [find_loop, if_neg hused, if_pos ⟨hname, hsum⟩]

theorem strncasecmp_congr {m m' : ByteMem} {a : ℕ} {filename : List UInt8}
    (h : ∀ i, i ≤ filename.length → m (a + i) = m' (a + i)) :
    strncasecmp filename m a = strncasecmp filename m' a := by
  induction filename generalizing a with
  | nil => rw [strncasecmp, strncasecmp, ← Nat.add_zero a, h 0 le_rfl]
  | cons c cs ih =>
      have h₀ : m a = m' a := h 0 (Nat.zero_le _)
      rw [strncasecmp, strncasecmp, h₀, ih fun i hi => ?_]
      rw [Nat.add_assoc, Nat.add_comm 1 i]
      exact h (i + 1) (Nat.succ_le_succ hi)

/-! ## Recording an upgrade -/

/-- The three assignments that the loop makes to an entry. -/
def fis_set (fis : ByteMem) (img data_length size : ℕ) : ByteMem :=
  let fis := store32 fis (img + 32) data_length
  let fis := store32 fis (img + 24) size
  store32 fis (img + 248) (fis_desc_chksum fis img)

/-- `for (j = 0; j < n; j++, img++) if (img->file.flash_base == destp) ...` -/
def fis_record (fis : ByteMem) (destp data_length size : ℕ) : ℕ → ByteMem
  | 0 => fis
  | n + 1 =>
    let fis := fis_record fis destp data_length size n
    if flash_base fis (entry n) = destp then fis_set fis (entry n) data_length size else fis

variable {fis fis' : ByteMem} {img j n destp len sz : ℕ}

theorem entry_lt (hj : j < FIS_MAX_ENTRY) : entry j + FIS_ENTRY_SIZE ≤ W := by
  unfold entry FIS_ENTRY_SIZE FIS_MAX_ENTRY W at *
  omega

/-- What two memories have in common on an entry. -/
def SameEntry (img : ℕ) (fis fis' : ByteMem) : Prop :=
  ∀ i, i < FIS_ENTRY_SIZE → fis (img + i) = fis' (img + i)

theorem SameEntry.trans {fis'' : ByteMem} (h : SameEntry img fis fis')
    (h' : SameEntry img fis' fis'') : SameEntry img fis fis'' :=
  fun i hi => (h i hi).trans (h' i hi)

/-- The fields are in the entry. -/
theorem SameEntry.load32_eq (h : SameEntry img fis fis') (himg : img + FIS_ENTRY_SIZE ≤ W) {o : ℕ}
    (ho : o + 4 ≤ FIS_ENTRY_SIZE) : load32 fis (img + o) = load32 fis' (img + o) :=
  load32_congr (by omega) fun i hi => by
    rw [Nat.add_assoc]
    exact h (o + i) (by omega)

/-- An entry of an erased flash. -/
theorem SameEntry.erased (h : SameEntry img fis fun _ => 0xff) (himg : img + FIS_ENTRY_SIZE ≤ W) :
    flash_base fis img = 0xffffffff ∧ size fis img = 0xffffffff := by
  have hones : ∀ a, load32 (fun _ => 0xff) a = 0xffffffff := by
    intro a
    unfold load32
    dsimp only
    decide
  exact ⟨(h.load32_eq himg (by decide)).trans (hones _),
    (h.load32_eq himg (by decide)).trans (hones _)⟩

theorem SameEntry.chksum_eq (h : SameEntry img fis fis') :
    fis_desc_chksum fis img = fis_desc_chksum fis' img := by
  unfold fis_desc_chksum
  congr 1
  apply List.map_congr_left
  intro i hi
  rw [h i (by have := List.mem_range.mp hi; unfold FIS_ENTRY_SIZE at *; omega)]

theorem SameEntry.store32 (h : SameEntry img fis fis') (a v : ℕ) :
    SameEntry img (store32 fis a v) (store32 fis' a v) := by
  intro i hi
  unfold ByteMem.store32
  rw [h i hi]

/-- The sum of 248 bytes. -/
theorem fis_desc_chksum_le : fis_desc_chksum fis img ≤ 248 * 255 := by
  unfold fis_desc_chksum
  refine (List.sum_le_card_nsmul _ 255 ?_).trans ?_
  · intro x hx
    obtain ⟨i, -, rfl⟩ := List.mem_map.mp hx
    exact Nat.le_of_lt_succ (UInt8.toNat_lt _)
  · rw [List.length_map, List.length_range]
    exact le_rfl

theorem fis_desc_chksum_lt : fis_desc_chksum fis img < W :=
  fis_desc_chksum_le.trans_lt (by decide)

/-- A checksum that has just been stored is right. -/
theorem desc_cksum_store (himg : img + FIS_ENTRY_SIZE ≤ W) :
    let fis' := store32 fis (img + 248) (fis_desc_chksum fis img)
    desc_cksum fis' img = fis_desc_chksum fis' img := by
  unfold FIS_ENTRY_SIZE at himg
  dsimp only
  rw [desc_cksum, load32_store32_same (by omega), Nat.mod_eq_of_lt fis_desc_chksum_lt]
  -- the checksum is not part of what it is taken over
  unfold fis_desc_chksum
  congr 1
  apply List.map_congr_left
  intro i hi
  have hi : i < 248 := List.mem_range.mp hi
  rw [store32_frame (by omega) (by omega)]

/-- What is set in an entry depends on the entry. -/
theorem SameEntry.fis_set (h : SameEntry img fis fis') :
    SameEntry img (fis_set fis img len sz) (fis_set fis' img len sz) := by
  unfold CsBoot.Fis.fis_set
  dsimp only
  rw [((h.store32 _ _).store32 _ _).chksum_eq]
  exact ((h.store32 _ _).store32 _ _).store32 _ _

/-- Nothing is changed outside the entry. -/
theorem fis_set_frame (himg : img + FIS_ENTRY_SIZE ≤ W) {x : ℕ}
    (hx : x < img ∨ img + FIS_ENTRY_SIZE ≤ x) : fis_set fis img len sz x = fis x := by
  unfold FIS_ENTRY_SIZE at *
  unfold fis_set
  rw [store32_frame (by omega) (by omega), store32_frame (by omega) (by omega),
    store32_frame (by omega) (by omega)]

/-- What is in front of the size stays, as the name. -/
theorem fis_set_name (himg : img + FIS_ENTRY_SIZE ≤ W) {i : ℕ} (hi : i < 24) :
    fis_set fis img len sz (img + i) = fis (img + i) := by
  unfold FIS_ENTRY_SIZE at himg
  unfold fis_set
  rw [store32_frame (by omega) (by omega), store32_frame (by omega) (by omega),
    store32_frame (by omega) (by omega)]

/-- **What is set in an entry**: the two lengths and the checksum, and the place
of the image stays. -/
theorem fis_set_spec (himg : img + FIS_ENTRY_SIZE ≤ W) :
    flash_base (fis_set fis img len sz) img = flash_base fis img ∧
    data_length (fis_set fis img len sz) img = len % W ∧
    size (fis_set fis img len sz) img = sz % W ∧
    desc_cksum (fis_set fis img len sz) img = fis_desc_chksum (fis_set fis img len sz) img := by
  have hsize : img + 256 ≤ W := himg
  unfold flash_base data_length size fis_set
  dsimp only
  refine ⟨?_, ?_, ?_, ?_⟩
  · rw [load32_store32_of_disjoint (by omega) (by omega) (by omega),
      load32_store32_of_disjoint (by omega) (by omega) (by omega),
      load32_store32_of_disjoint (by omega) (by omega) (by omega)]
  · rw [load32_store32_of_disjoint (by omega) (by omega) (by omega),
      load32_store32_of_disjoint (by omega) (by omega) (by omega),
      load32_store32_same (by omega)]
  · rw [load32_store32_of_disjoint (by omega) (by omega) (by omega),
      load32_store32_same (by omega)]
  · exact desc_cksum_store himg

/-- **The loop treats every entry on its own.** -/
theorem fis_record_entry (hn : n ≤ FIS_MAX_ENTRY) (hj : j < FIS_MAX_ENTRY) :
    SameEntry (entry j) (fis_record fis destp len sz n)
      (if j < n ∧ flash_base fis (entry j) = destp then fis_set fis (entry j) len sz else fis) := by
  induction n with
  | zero =>
      rw [if_neg (by omega)]
      exact fun _ _ => rfl
  | succ n ih =>
      have ih := ih (by omega)
      have hstep : fis_record fis destp len sz (n + 1) =
          if flash_base (fis_record fis destp len sz n) (entry n) = destp then
            fis_set (fis_record fis destp len sz n) (entry n) len sz
          else fis_record fis destp len sz n := rfl
      rw [hstep]
      by_cases hjn : j = n
      · -- the entry of this pass, which is as it was
        subst hjn
        rw [if_neg (by omega)] at ih
        have hbase : flash_base (fis_record fis destp len sz j) (entry j) =
            flash_base fis (entry j) :=
          ih.load32_eq (entry_lt hj) (by decide)
        rw [hbase]
        by_cases hdest : flash_base fis (entry j) = destp
        · rw [if_pos hdest, if_pos ⟨Nat.lt_succ_self j, hdest⟩]
          exact ih.fis_set
        · rw [if_neg hdest, if_neg fun h => hdest h.2]
          exact ih
      · have hiff : j < n + 1 ∧ flash_base fis (entry j) = destp ↔
            j < n ∧ flash_base fis (entry j) = destp := by omega
        rw [if_congr hiff rfl rfl]
        split
        · intro i hi
          rw [← ih i hi]
          apply fis_set_frame (entry_lt (by omega))
          unfold entry FIS_ENTRY_SIZE at *
          omega
        · exact ih

/-- What the whole loop does to an entry. -/
theorem fis_record_spec (hj : j < FIS_MAX_ENTRY) :
    let fis' := fis_record fis destp len sz FIS_MAX_ENTRY
    flash_base fis' (entry j) = flash_base fis (entry j) ∧
    (flash_base fis (entry j) = destp → data_length fis' (entry j) = len % W ∧
      size fis' (entry j) = sz % W ∧ desc_cksum fis' (entry j) = fis_desc_chksum fis' (entry j)) ∧
    (flash_base fis (entry j) ≠ destp → SameEntry (entry j) fis' fis) := by
  have h : SameEntry (entry j) (fis_record fis destp len sz FIS_MAX_ENTRY) _ :=
    fis_record_entry le_rfl hj
  have himg := entry_lt hj
  dsimp only
  by_cases hdest : flash_base fis (entry j) = destp
  · rw [if_pos ⟨hj, hdest⟩] at h
    obtain ⟨h₁, h₂, h₃, h₄⟩ := @fis_set_spec fis (entry j) len sz himg
    refine ⟨?_, fun _ => ⟨?_, ?_, ?_⟩, fun hne => absurd hdest hne⟩
    · rw [← h₁]
      exact h.load32_eq himg (by decide)
    · rw [← h₂]
      exact h.load32_eq himg (by decide)
    · rw [← h₃]
      exact h.load32_eq himg (by decide)
    · rw [h.chksum_eq, ← h₄]
      exact h.load32_eq himg (by decide)
  · rw [if_neg fun h => hdest h.2] at h
    exact ⟨h.load32_eq himg (by decide), fun hd => absurd hd hdest, fun _ => h⟩

end CsBoot.Fis
