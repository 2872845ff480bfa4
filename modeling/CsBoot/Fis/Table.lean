/-
The FIS directory as a table of names.

A slot of the directory holds a name, or has been cleared by a deletion, or is still
erased; the slots that have been used are in front of the erased ones. `Holds` says which
folded name each slot holds, and that no two slots hold one name. Then the lookup, which
stops at the first erased slot, finds the slot of a name and no other (`Holds.find`),
and an empty slot is a cleared one or the first of the erased ones (`Holds.free`).

The directory keeps holding a table when an entry is created under a name that no other
slot has (`Holds.put`), when one is cleared (`Holds.clear`), and when entries change
behind their names (`Holds.of_kept`), as in the records of the upgrades (`Holds.record`).
-/
import CsBoot.Lib.Slots
import CsBoot.Fis.Commands

set_option autoImplicit false

namespace CsBoot.Fis

open ByteMem

/-! ## Names in the directory -/

/-- A name as it is compared. -/
def fold (name : List UInt8) : List UInt8 := name.map toupper

/-- A name that an entry can hold. -/
structure IsName (name : List UInt8) : Prop where
  ne_nil : name ≠ []
  length_le : name.length ≤ FIS_NAME_SIZE
  text : ∀ c ∈ name, c ≠ 0 ∧ c ≠ 0xff

theorem FisName.isName (name : FisName) : IsName name.chars where
  ne_nil := name.ne_nil
  length_le := name.length_le
  text := by
    intro c hc
    obtain ⟨hlo, hhi⟩ := name.printable c hc
    constructor
    · rintro rfl
      exact absurd hlo (by decide)
    · rintro rfl
      exact absurd hhi (by decide)

/-- The entry has this name, with the final zero, and its checksum is right. -/
structure Named (fis : ByteMem) (img : ℕ) (name : List UInt8) : Prop where
  isName : IsName name
  chars : ∀ i (hi : i < name.length), fis (img + i) = name[i]
  zero : fis (img + name.length) = 0
  chksum : desc_cksum fis img = fis_desc_chksum fis img

section Entries

variable {fis fis' m : ByteMem} {img a j : ℕ} {name filename : List UInt8} {f : Image}

/-- The comparison of two texts, with a final zero behind the second. -/
theorem strncasecmp_iff (htext : ∀ c ∈ name, c ≠ 0)
    (hchars : ∀ i (hi : i < name.length), m (a + i) = name[i]) (hzero : m (a + name.length) = 0) :
    strncasecmp filename m a = 0 ↔ fold filename = fold name := by
  induction filename generalizing name a with
  | nil =>
      rw [strncasecmp]
      cases name with
      | nil =>
          have hzero : m a = 0 := hzero
          rw [if_pos hzero]
          exact iff_of_true rfl rfl
      | cons d ds =>
          have hd : m a = d := hchars 0 (Nat.succ_pos _)
          rw [if_neg (hd ▸ htext d List.mem_cons_self)]
          exact iff_of_false one_ne_zero (List.cons_ne_nil _ _).symm
  | cons c cs ih =>
      rw [strncasecmp]
      cases name with
      | nil =>
          have hzero : m a = 0 := hzero
          rw [if_pos hzero]
          exact iff_of_false one_ne_zero (List.cons_ne_nil _ _)
      | cons d ds =>
          have hd : m a = d := hchars 0 (Nat.succ_pos _)
          have hrest := @ih (a + 1) ds (fun c hc => htext c (List.mem_cons_of_mem _ hc))
            (fun i hi => by
              rw [Nat.add_assoc, Nat.add_comm 1 i]
              exact hchars (i + 1) (Nat.succ_lt_succ hi))
            (by rwa [Nat.add_assoc, Nat.add_comm 1])
          rw [hd, if_neg (htext d List.mem_cons_self)]
          unfold fold at hrest ⊢
          rw [List.map_cons, List.map_cons, List.cons.injEq]
          by_cases hcd : toupper c = toupper d
          · rw [if_neg (not_not.mpr hcd), hrest]
            exact ⟨fun h => ⟨hcd, h⟩, And.right⟩
          · rw [if_pos hcd]
            exact iff_of_false one_ne_zero fun h => hcd h.1

theorem Named.strncasecmp_iff (h : Named fis img name) :
    strncasecmp filename fis img = 0 ↔ fold filename = fold name :=
  Fis.strncasecmp_iff (fun c hc => (h.isName.text c hc).1) h.chars h.zero

/-- The first byte tells an entry with a name from the others. -/
theorem Named.first (h : Named fis img name) : fis img ≠ 0 ∧ fis img ≠ 0xff := by
  have hpos : 0 < name.length := List.length_pos_of_ne_nil h.isName.ne_nil
  rw [← Nat.add_zero img, h.chars 0 hpos]
  exact h.isName.text _ (List.getElem_mem hpos)

/-- What is behind the name does not matter, but for the checksum. -/
theorem Named.of_kept (h : Named fis img name)
    (hkept : ∀ i, i ≤ 16 → fis' (img + i) = fis (img + i))
    (hsum : desc_cksum fis' img = fis_desc_chksum fis' img) : Named fis' img name where
  isName := h.isName
  chars := by
    intro i hi
    have hle : name.length ≤ 16 := h.isName.length_le
    rw [hkept i (by omega)]
    exact h.chars i hi
  zero := (hkept _ h.isName.length_le).trans h.zero
  chksum := hsum

theorem Named.congr (himg : img + FIS_ENTRY_SIZE ≤ W) (h : Named fis img name)
    (hsame : SameEntry img fis' fis) : Named fis' img name :=
  h.of_kept (fun i hi => hsame i (hi.trans_lt (by decide)))
    ((hsame.load32_eq himg (by decide)).trans (h.chksum.trans hsame.chksum_eq.symm))

/-- An entry that is created has the name, if the place leaves a final zero behind a name
of 16 characters. -/
theorem Named.create (himg : img + FIS_ENTRY_SIZE ≤ W) (hname : IsName f.name)
    (hzero : f.name.length = 16 → f.flash_base % 256 = 0) :
    Named (fis_create_entry fis img f) img f.name := by
  have hle : f.name.length ≤ 16 := hname.length_le
  have hsize : img + 256 ≤ W := himg
  have hlen : (f.name ++ [0]).length = f.name.length + 1 := List.length_append
  -- the fields are behind the name, except that the place follows a name of 16 characters
  have hfields : ∀ (m : ByteMem) (v₁ v₂ v₃ v₄ v₅ i : ℕ), i < 20 →
      store32 (store_bytes (store32 (store32 (store32 (store32 m (img + 20) v₁) (img + 24) v₂)
        (img + 28) v₃) (img + 32) v₄) (img + 36) f.data) (img + 248) v₅ (img + i) =
        m (img + i) := by
    intro m v₁ v₂ v₃ v₄ v₅ i hi
    rw [store32_frame (by omega) (by omega), store_bytes_frame (by omega),
      store32_frame (by omega) (by omega), store32_frame (by omega) (by omega),
      store32_frame (by omega) (by omega), store32_frame (by omega) (by omega)]
  have hbytes : ∀ (m : ByteMem) i, i ≤ f.name.length →
      store_bytes m img (f.name ++ [0]) (img + i) = (f.name ++ [0]).getD i 0 := by
    intro m i hi
    unfold store_bytes
    rw [if_pos (by omega), Nat.add_sub_cancel_left]
  refine ⟨hname, ?_, ?_, desc_cksum_store himg⟩
  · intro i hi
    unfold fis_create_entry
    rw [hfields _ _ _ _ _ _ _ (by omega), store32_frame (by omega) (by omega), hbytes _ _ hi.le,
      List.getD_append _ _ _ _ hi, List.getD_eq_getElem _ _ hi]
  · unfold fis_create_entry
    rw [hfields _ _ _ _ _ _ _ (by omega)]
    by_cases h16 : f.name.length = 16
    · -- the lowest byte of the place
      have hplace : (img + f.name.length) = (img + 16) % W := by
        rw [h16, Nat.mod_eq_of_lt (by omega)]
      unfold store32
      rw [if_pos hplace, ← UInt8.toNat_inj, UInt8.toNat_ofNat']
      exact hzero h16
    · rw [store32_frame (by omega) (by omega), hbytes _ _ le_rfl,
        List.getD_append_right _ _ _ _ le_rfl,
        Nat.sub_self]
      rfl

/-- A cleared entry has no place. -/
theorem SameEntry.cleared (h : SameEntry img fis fun _ => 0) (himg : img + FIS_ENTRY_SIZE ≤ W) :
    flash_base fis img = 0 := by
  refine (h.load32_eq himg (by decide)).trans ?_
  unfold load32
  dsimp only
  decide

/-- An erased entry has no checksum. -/
theorem SameEntry.erased_chksum (h : SameEntry img fis fun _ => 0xff)
    (himg : img + FIS_ENTRY_SIZE ≤ W) : desc_cksum fis img ≠ fis_desc_chksum fis img := by
  have hones : desc_cksum fis img = 0xffffffff := by
    refine (h.load32_eq himg (by decide)).trans ?_
    unfold load32
    dsimp only
    decide
  have := @fis_desc_chksum_le fis img
  omega

end Entries

/-! ## Tables -/

/-- The directory holds this table: `used` slots with a name or cleared, and the others
erased. -/
structure Holds (fis : ByteMem) (t : ℕ → Option (List UInt8)) (used : ℕ) : Prop where
  used_le : used ≤ FIS_MAX_ENTRY
  lt_used : ∀ j k, t j = some k → j < used
  named : ∀ j k, t j = some k → ∃ name, k = fold name ∧ Named fis (entry j) name
  cleared : ∀ j, j < used → t j = none → SameEntry (entry j) fis fun _ => 0
  erased : ∀ j, used ≤ j → j < FIS_MAX_ENTRY → SameEntry (entry j) fis fun _ => 0xff
  unique : Slots.Unique t

/-- The entry has a valid checksum and this name, as names are compared. -/
def Matches (fis : ByteMem) (filename : List UInt8) (j : ℕ) : Prop :=
  strncasecmp filename fis (entry j) = 0 ∧
    desc_cksum fis (entry j) = fis_desc_chksum fis (entry j)

section Loops

variable {fis : ByteMem} {filename : List UInt8} {i k n : ℕ}

/-- The lookup passes over the entries that are in use and do not match. -/
theorem find_loop_skip (h : ∀ j, i ≤ j → j < i + k →
    fis (entry j) ≠ 0xff ∧ ¬ Matches fis filename j) :
    find_loop fis filename (k + n) (entry i) = find_loop fis filename n (entry (i + k)) := by
  induction k generalizing i with
  | zero => rw [Nat.zero_add, Nat.add_zero]
  | succ k ih =>
      obtain ⟨hused, hno⟩ := h i le_rfl (by omega)
      unfold Matches at hno
      rw [show k + 1 + n = (k + n) + 1 by omega, find_loop, if_neg hused, if_neg hno,
        show entry i + FIS_ENTRY_SIZE = entry (i + 1) from rfl,
        ih fun j hj hj' => h j (by omega) (by omega), Nat.add_assoc, Nat.add_comm 1 k]

/-- The search for an empty entry passes over those that are not. -/
theorem free_loop_skip (h : ∀ j, i ≤ j → j < i + k →
    ¬ (fis (entry j) = 0xff ∨ fis (entry j) = 0 ∨
      desc_cksum fis (entry j) ≠ fis_desc_chksum fis (entry j))) :
    free_loop fis (k + n) (entry i) = free_loop fis n (entry (i + k)) := by
  induction k generalizing i with
  | zero => rw [Nat.zero_add, Nat.add_zero]
  | succ k ih =>
      rw [show k + 1 + n = (k + n) + 1 by omega, free_loop, if_neg (h i le_rfl (by omega)),
        show entry i + FIS_ENTRY_SIZE = entry (i + 1) from rfl,
        ih fun j hj hj' => h j (by omega) (by omega), Nat.add_assoc, Nat.add_comm 1 k]

/-- What is found matches. -/
theorem strncasecmp_of_find {img : ℕ} (h : fis_find_image fis filename = some img) :
    strncasecmp filename fis img = 0 := by
  have hloop : ∀ n a, find_loop fis filename n a = some img → strncasecmp filename fis img = 0 := by
    intro n
    induction n with
    | zero => intro a h; cases h
    | succ n ih =>
        intro a h
        rw [find_loop] at h
        split_ifs at h with hff hmatch
        · cases h
          exact hmatch.1
        · exact ih _ h
  exact hloop _ _ h

/-- A text that matches is followed by its end. -/
theorem end_of_strncasecmp {m : ByteMem} {a : ℕ} (h : strncasecmp filename m a = 0) :
    m (a + filename.length) = 0 := by
  induction filename generalizing a with
  | nil =>
      rw [strncasecmp] at h
      split_ifs at h with hzero
      exact hzero
  | cons c cs ih =>
      rw [strncasecmp] at h
      split_ifs at h
      have hrest := ih h
      rwa [Nat.add_assoc, Nat.add_comm 1] at hrest

/-- Where no empty entry is found, none is erased. -/
theorem not_erased_of_free_none (h : fis_get_free_image fis = none) {j : ℕ}
    (hj : j < FIS_MAX_ENTRY) : fis (entry j) ≠ 0xff := by
  have hloop : ∀ n i, free_loop fis n (entry i) = none → ∀ k, i ≤ k → k < i + n →
      fis (entry k) ≠ 0xff := by
    intro n
    induction n with
    | zero => intro i _ k hk hk'; omega
    | succ n ih =>
        intro i h k hk hk'
        rw [free_loop] at h
        split_ifs at h with hempty
        by_cases hik : i = k
        · subst hik
          exact fun hff => hempty (.inl hff)
        · exact ih (i + 1) h k (by omega) (by omega)
  exact hloop _ 0 h j (Nat.zero_le _) (by omega)

end Loops

section Tables

variable {fis fis' : ByteMem} {t : ℕ → Option (List UInt8)} {used j img : ℕ} {filename : List UInt8}
  {f : Image} {o : Option (List UInt8)}

/-- The slots in front of the erased ones do not look erased. -/
theorem Holds.first (h : Holds fis t used) (hj : j < used) : fis (entry j) ≠ 0xff := by
  cases htj : t j with
  | some k =>
      obtain ⟨name, -, hnamed⟩ := h.named j k htj
      exact hnamed.first.2
  | none =>
      have hzero : fis (entry j + 0) = 0 := h.cleared j hj htj 0 (by decide)
      rw [← Nat.add_zero (entry j), hzero]
      decide

/-- What matches a name is the slot that holds it. -/
theorem Holds.matches_iff (h : Holds fis t used) (hne : filename ≠ []) (hj : j < FIS_MAX_ENTRY) :
    Matches fis filename j ↔ t j = some (fold filename) := by
  unfold Matches
  cases htj : t j with
  | some k =>
      obtain ⟨name, rfl, hnamed⟩ := h.named j k htj
      rw [hnamed.strncasecmp_iff, and_iff_left hnamed.chksum, Option.some.injEq]
      exact eq_comm
  | none =>
      refine iff_of_false ?_ (Option.some_ne_none _).symm
      rintro ⟨hcmp, hsum⟩
      by_cases hused : j < used
      · -- no name is empty
        have hzero : fis (entry j + 0) = 0 := h.cleared j hused htj 0 (by decide)
        obtain ⟨c, cs, rfl⟩ := List.exists_cons_of_ne_nil hne
        rw [Nat.add_zero] at hzero
        rw [strncasecmp, if_pos hzero] at hcmp
        exact one_ne_zero hcmp
      · exact (h.erased j (not_lt.mp hused) hj).erased_chksum (entry_lt hj) hsum

/-- **The lookup** finds the slot that holds the name. -/
theorem Holds.find (h : Holds fis t used) (hne : filename ≠ []) :
    fis_find_image fis filename = some img ↔ ∃ j, t j = some (fold filename) ∧ img = entry j := by
  have hle := h.used_le
  unfold fis_find_image
  by_cases hex : ∃ j, t j = some (fold filename)
  · obtain ⟨j, htj⟩ := hex
    have hj := h.lt_used j _ htj
    have hloop : find_loop fis filename FIS_MAX_ENTRY (entry 0) = some (entry j) := by
      rw [show FIS_MAX_ENTRY = j + ((FIS_MAX_ENTRY - j - 1) + 1) by omega, find_loop_skip,
        Nat.zero_add,
        find_loop, if_neg (h.first hj)]
      · exact if_pos ((h.matches_iff hne (by omega)).mpr htj)
      · intro i _ hi
        rw [Nat.zero_add] at hi
        refine ⟨h.first (hi.trans hj), fun hm => ?_⟩
        have hti := (h.matches_iff hne (by omega)).mp hm
        exact absurd (h.unique hti htj) hi.ne
    rw [hloop, Option.some.injEq]
    constructor
    · rintro rfl
      exact ⟨j, htj, rfl⟩
    · rintro ⟨j', htj', rfl⟩
      rw [h.unique htj' htj]
  · have hloop : find_loop fis filename FIS_MAX_ENTRY (entry 0) = none := by
      rw [show FIS_MAX_ENTRY = used + (FIS_MAX_ENTRY - used) by omega, find_loop_skip, Nat.zero_add]
      · cases hn : FIS_MAX_ENTRY - used with
        | zero => rfl
        | succ n =>
            -- the first of the erased ones
            have hones : fis (entry used + 0) = 0xff :=
              h.erased used le_rfl (by omega) 0 (by decide)
            rw [Nat.add_zero] at hones
            rw [find_loop, if_pos hones]
      · intro i _ hi
        rw [Nat.zero_add] at hi
        exact ⟨h.first hi, fun hm => hex ⟨i, (h.matches_iff hne (by omega)).mp hm⟩⟩
    rw [hloop]
    refine iff_of_false (Option.some_ne_none _).symm ?_
    rintro ⟨j, htj, -⟩
    exact hex ⟨j, htj⟩

theorem Holds.find_none (h : Holds fis t used) (hne : filename ≠ []) :
    fis_find_image fis filename = none ↔ ∀ j, t j ≠ some (fold filename) := by
  rw [Option.eq_none_iff_forall_ne_some]
  constructor
  · intro hno j htj
    exact hno _ ((h.find hne).mpr ⟨j, htj, rfl⟩)
  · intro hno img hfind
    obtain ⟨j, htj, -⟩ := (h.find hne).mp hfind
    exact hno j htj

/-- **An empty entry** is a cleared one, or the first of the erased ones. -/
theorem Holds.free (h : Holds fis t used) (hfree : fis_get_free_image fis = some img) :
    ∃ j, j ≤ used ∧ j < FIS_MAX_ENTRY ∧ t j = none ∧ img = entry j := by
  have hle := h.used_le
  have hlast : t used = none :=
    Option.eq_none_iff_forall_ne_some.mpr fun k hk => lt_irrefl _ (h.lt_used used k hk)
  have hex : ∃ j, t j = none := ⟨used, hlast⟩
  -- the first slot without a name
  have hj : Nat.find hex ≤ used := Nat.find_min' hex hlast
  have hnone := Nat.find_spec hex
  have hbefore := fun i => @Nat.find_min _ _ hex i
  generalize Nat.find hex = j at hj hnone hbefore
  have hskip := @free_loop_skip fis 0 j (FIS_MAX_ENTRY - j) fun i _ hi => by
    rw [Nat.zero_add] at hi
    obtain ⟨k, hk⟩ := Option.ne_none_iff_exists'.mp (hbefore i hi)
    obtain ⟨name, -, hnamed⟩ := h.named i k hk
    rintro (hff | h0 | hsum)
    · exact hnamed.first.2 hff
    · exact hnamed.first.1 h0
    · exact hsum hnamed.chksum
  rw [show j + (FIS_MAX_ENTRY - j) = FIS_MAX_ENTRY by omega, Nat.zero_add] at hskip
  unfold fis_get_free_image at hfree
  rw [hskip] at hfree
  cases hn : FIS_MAX_ENTRY - j with
  | zero =>
      rw [hn] at hfree
      cases hfree
  | succ n =>
      have hempty : fis (entry j + 0) = 0xff ∨ fis (entry j + 0) = 0 := by
        by_cases hused : j < used
        · exact .inr (h.cleared j hused hnone 0 (by decide))
        · exact .inl (h.erased j (not_lt.mp hused) (by omega) 0 (by decide))
      rw [Nat.add_zero] at hempty
      rw [hn, free_loop, if_pos (hempty.imp_right .inl)] at hfree
      exact ⟨j, hj, by omega, hnone, (Option.some.inj hfree).symm⟩

/-- There is an empty entry while a slot has not been used. -/
theorem Holds.free_ne_none (h : Holds fis t used) (hlt : used < FIS_MAX_ENTRY) :
    fis_get_free_image fis ≠ none := by
  intro hnone
  have hones : fis (entry used + 0) = 0xff := h.erased used le_rfl hlt 0 (by decide)
  rw [Nat.add_zero] at hones
  exact not_erased_of_free_none hnone hlt hones

/-- What is in front of an entry and behind it is the other entries. -/
theorem sameEntry_of_frame {i : ℕ}
    (hframe : ∀ x, x < entry j ∨ entry j + FIS_ENTRY_SIZE ≤ x → fis' x = fis x) (hij : i ≠ j) :
    SameEntry (entry i) fis' fis := by
  intro x hx
  apply hframe
  unfold entry FIS_ENTRY_SIZE at *
  omega

/-- One slot is written. -/
theorem Holds.update (h : Holds fis t used) (hj : j ≤ used) (hmax : j < FIS_MAX_ENTRY)
    (hothers : ∀ i, i ≠ j → SameEntry (entry i) fis' fis)
    (hslot : (∃ name, o = some (fold name) ∧ Named fis' (entry j) name) ∨
      o = none ∧ SameEntry (entry j) fis' fun _ => 0)
    (hunique : Slots.Unique (Function.update t j o)) :
    Holds fis' (Function.update t j o) (max used (j + 1)) where
  used_le := max_le h.used_le hmax
  lt_used := by
    intro i k hi
    by_cases hij : i = j
    · omega
    · rw [Function.update_of_ne hij] at hi
      exact lt_max_of_lt_left (h.lt_used i k hi)
  -- the slot itself by `hslot`, the others as they were
  named := by
    intro i k hi
    by_cases hij : i = j
    · subst hij
      rw [Function.update_self] at hi
      obtain ⟨name, rfl, hnamed⟩ | ⟨rfl, -⟩ := hslot
      · exact ⟨name, (Option.some.inj hi).symm, hnamed⟩
      · cases hi
    · rw [Function.update_of_ne hij] at hi
      obtain ⟨name, hk, hnamed⟩ := h.named i k hi
      have := h.lt_used i k hi
      exact ⟨name, hk, hnamed.congr (entry_lt (this.trans_le h.used_le)) (hothers i hij)⟩
  cleared := by
    intro i hi hnone
    by_cases hij : i = j
    · subst hij
      rw [Function.update_self] at hnone
      obtain ⟨name, rfl, -⟩ | ⟨-, hzero⟩ := hslot
      · cases hnone
      · exact hzero
    · rw [Function.update_of_ne hij] at hnone
      exact (hothers i hij).trans (h.cleared i (by omega) hnone)
  erased := by
    intro i hi hi'
    exact (hothers i (by omega)).trans (h.erased i (by omega) hi')
  unique := hunique

/-- **An entry is created** in an empty slot, or in the one that has the name. -/
theorem Holds.put (h : Holds fis t used) (hj : j ≤ used) (hmax : j < FIS_MAX_ENTRY)
    (hname : IsName f.name) (hdata : f.data.length ≤ 212)
    (hzero : f.name.length = 16 → f.flash_base % 256 = 0)
    (hfree : ∀ i, t i = some (fold f.name) → i = j) :
    Holds (fis_create_entry fis (entry j) f) (Slots.put t j (fold f.name)) (max used (j + 1)) :=
  h.update hj hmax
    (fun _ hij => sameEntry_of_frame
      (fun _ hx => fis_create_entry_frame_le hname.length_le hdata (entry_lt hmax) hx) hij)
    (.inl ⟨f.name, rfl, .create (entry_lt hmax) hname hzero⟩) (h.unique.put hfree)

/-- **An entry is cleared.** -/
theorem Holds.clear (h : Holds fis t used) (hj : j < used) :
    Holds (store_bytes fis (entry j) (List.replicate FIS_ENTRY_SIZE 0)) (Slots.clear t j) used := by
  have hmax := hj.trans_le h.used_le
  have hzero : SameEntry (entry j) (store_bytes fis (entry j) (List.replicate FIS_ENTRY_SIZE 0))
      fun _ => 0 := by
    intro i hi
    unfold store_bytes
    rw [List.length_replicate, if_pos (by omega), Nat.add_sub_cancel_left]
    exact List.getD_replicate _ hi
  rw [← max_eq_left (Nat.succ_le_of_lt hj)]
  exact h.update hj.le hmax
    (fun _ hij => sameEntry_of_frame
      (fun _ hx => store_bytes_frame (by rwa [List.length_replicate])) hij)
    (.inr ⟨rfl, hzero⟩) h.unique.clear

/-- **Entries change behind their names**, with checksums that are right. -/
theorem Holds.of_kept (h : Holds fis t used)
    (hkept : ∀ j, j < FIS_MAX_ENTRY → SameEntry (entry j) fis' fis ∨ t j ≠ none ∧
      (∀ i, i ≤ 16 → fis' (entry j + i) = fis (entry j + i)) ∧
        desc_cksum fis' (entry j) = fis_desc_chksum fis' (entry j)) : Holds fis' t used where
  used_le := h.used_le
  lt_used := h.lt_used
  named := by
    intro j k hk
    have hj := (h.lt_used j k hk).trans_le h.used_le
    obtain ⟨name, hfold, hnamed⟩ := h.named j k hk
    obtain hsame | ⟨-, hname, hsum⟩ := hkept j hj
    · exact ⟨name, hfold, hnamed.congr (entry_lt hj) hsame⟩
    · exact ⟨name, hfold, hnamed.of_kept hname hsum⟩
  cleared := by
    intro j hj hnone
    obtain hsame | ⟨hne, -⟩ := hkept j (hj.trans_le h.used_le)
    · exact hsame.trans (h.cleared j hj hnone)
    · exact absurd hnone hne
  erased := by
    intro j hj hmax
    obtain hsame | ⟨hne, -⟩ := hkept j hmax
    · exact hsame.trans (h.erased j hj hmax)
    · exact absurd (Option.eq_none_iff_forall_ne_some.mpr fun k hk =>
        absurd (h.lt_used j k hk) (not_lt.mpr hj)) hne
  unique := h.unique

/-- **An upgrade is recorded.** A place in the flash is neither that of a cleared entry nor
that of an erased one. -/
theorem Holds.record (h : Holds fis t used) {destp len sz : ℕ} (hpos : 0 < destp)
    (hlt : destp < 0xffffffff) : Holds (fis_record fis destp len sz FIS_MAX_ENTRY) t used := by
  refine h.of_kept fun j hj => ?_
  have himg := entry_lt hj
  obtain ⟨-, hset, hother⟩ := @fis_record_spec fis j destp len sz hj
  by_cases hbase : flash_base fis (entry j) = destp
  · right
    refine ⟨fun hnone => ?_, ?_, (hset hbase).2.2⟩
    · by_cases hused : j < used
      · rw [(h.cleared j hused hnone).cleared himg] at hbase
        omega
      · rw [((h.erased j (not_lt.mp hused) hj).erased himg).1] at hbase
        omega
    · intro i hi
      rw [fis_record_entry le_rfl hj i (hi.trans_lt (by decide)), if_pos ⟨hj, hbase⟩]
      exact fis_set_name himg (by omega)
  · exact .inl (hother hbase)

end Tables

end CsBoot.Fis
