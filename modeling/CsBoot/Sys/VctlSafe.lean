/-
The two walks over a VCTL image of any contents.

Both take the size of an entry as it stands there: the next entry is looked for
wherever the size leads, and an entry is copied with as many bytes as the size
says. The walks end, since they are counted, and the new image never grows
beyond the sector. What is read lies inside the image exactly when every entry
the walk comes to has its size and its type inside the image, and every entry
that is copied ends inside it (`harmless_iff`). Nothing in the code sees to
that.
-/
import CsBoot.Sys.VctlStore

set_option autoImplicit false

namespace CsBoot.Vctl

open ByteMem Ui

variable (A : Area) (m : ByteMem) (type : ℕ)

/-- The end of the copy in RAM. -/
def Area.stop : ℕ := A.vctl_datap + A.vctl_size

/-- All the bytes of a range of addresses are in the image. -/
def InImage (r : ℕ × ℕ) : Prop :=
  ∀ i, i < r.2 → A.vctl_datap ≤ (r.1 + i) % W ∧ (r.1 + i) % W < A.stop

/-- All the bytes of a range are in the buffer of the new image. -/
def InBuffer (r : ℕ × ℕ) : Prop := ∀ i, i < r.2 → (r.1 + i) % W < A.vctl_size

/-- `sys_get_vctl_entry` and `sys_save_vctl_entry` read inside the image and
write inside the buffers they are given. -/
structure Harmless (size : ℤ) (data : List UInt8) (buf : ByteMem) : Prop where
  get_reads : ∀ r ∈ (sys_get_vctl_entry A m type size).reads, InImage A r
  get_result : (sys_get_vctl_entry A m type size).result.length ≤ size.toNat
  save_reads : ∀ r ∈ (rebuild A m type data buf).reads, InImage A r
  save_writes : ∀ r ∈ (rebuild A m type data buf).writes, InBuffer A r
  save_total : (rebuild A m type data buf).total_size ≤ A.vctl_size

/-! ## What the image has to be -/

/-- `n` bytes from `a` on lie inside the image. -/
def Area.Lies (a n : ℕ) : Prop := n = 0 ∨ A.vctl_datap ≤ a ∧ a + n ≤ A.stop

/-- The entries that `sys_get_vctl_entry` comes to, the first of them at `a`,
have their size and type inside the image, and the one it copies lies inside. -/
def GetWalk (size : ℤ) : ℕ → ℕ → Prop
  | 0, _ => True
  | n + 1, a =>
    A.Lies (a + 4) 8 ∧
      if entry_type m a = type then int32 (entry_size m a) ≤ size → A.Lies a (entry_size m a)
      else (a + entry_size m a) % W ≤ A.stop → GetWalk size n ((a + entry_size m a) % W)

/-- The size of the new image after one entry, and whether the saved one is in. -/
def next_total (len a total : ℕ) (added : Bool) : ℕ × Bool :=
  if entry_type m a ≠ type then
    (if (total + entry_size m a) % W < A.vctl_size then (total + entry_size m a) % W else total,
      added)
  else if added = false ∧ (total + len) % W < A.vctl_size then ((total + len) % W, true)
  else (total, added)

/-- The entries that `sys_save_vctl_entry` comes to have their size and type
inside the image, and those of another type that it takes into the new image
lie inside. -/
def SaveWalk (len : ℕ) : ℕ → ℕ → ℕ × Bool → Prop
  | 0, _, _ => True
  | n + 1, a, b =>
    A.Lies (a + 4) 8 ∧
      (entry_type m a ≠ type → (b.1 + entry_size m a) % W < A.vctl_size →
        A.Lies a (entry_size m a)) ∧
      ((a + entry_size m a) % W ≤ A.stop →
        SaveWalk len n ((a + entry_size m a) % W) (next_total A m type len a b.1 b.2))

/-- Both walks over the image, from its first entry. -/
def WalksInside (size : ℤ) (len : ℕ) : Prop :=
  (has_magic m A.vctl_datap = true → entry_num m A.vctl_datap ≤ 128 →
    GetWalk A m type size (entry_num m A.vctl_datap) (A.vctl_datap + VCTL_HDR_SIZE)) ∧
  SaveWalk A m type len (org_total A m).toNat (A.vctl_datap + VCTL_HDR_SIZE) (VCTL_HDR_SIZE, false)

variable {A m type} {a n : ℕ} {size : ℤ} {data : List UInt8} {b : Rebuild}

/-! ## Ranges -/

theorem inImage_iff (ha : a ≤ A.stop + 4) : InImage A (a, n) ↔ A.Lies a n := by
  have hstop := A.stop_lt
  have hint := A.int
  unfold Area.Lies Area.stop at *
  constructor
  · intro h
    by_cases hn : n = 0
    · exact .inl hn
    · right
      obtain ⟨hlo, hhi⟩ := h 0 (Nat.pos_of_ne_zero hn)
      simp only [Nat.add_zero] at hlo hhi
      have haW : a < W := by
        by_contra hge
        unfold W Area.stop at *
        omega
      rw [Nat.mod_eq_of_lt haW] at hlo hhi
      refine ⟨hlo, ?_⟩
      -- the first byte behind the image would be read
      by_contra hlt
      unfold Area.stop at *
      have hread := (h (A.vctl_datap + A.vctl_size - a) (by change _ < n; omega)).2
      simp only at hread
      rw [Nat.mod_eq_of_lt (by omega)] at hread
      unfold Area.stop at hread
      omega
  · rintro (rfl | ⟨hlo, hhi⟩) i hi
    · exact absurd hi (Nat.not_lt_zero i)
    · unfold Area.stop
      simp only at hi ⊢
      rw [Nat.mod_eq_of_lt (by omega)]
      omega

theorem entry_reads_iff (ha : a ≤ A.stop) :
    (∀ r ∈ entry_reads a, InImage A r) ↔ A.Lies (a + 4) 8 := by
  rw [← inImage_iff (by omega)]
  simp only [entry_reads, List.forall_mem_cons, List.not_mem_nil, IsEmpty.forall_iff, implies_true,
    and_true]
  constructor
  · rintro ⟨h₄, h₈⟩ i hi
    by_cases hlt : i < 4
    · exact h₄ i hlt
    · have hi' := h₈ (i - 4) (by simp only at hi ⊢; omega)
      simp only at hi' ⊢
      rwa [show a + 8 + (i - 4) = a + 4 + i by omega] at hi'
  · intro h
    refine ⟨fun i hi => h i (by simp only at hi ⊢; omega), fun i hi => ?_⟩
    have hi' := h (i + 4) (by simp only at hi ⊢; omega)
    simp only at hi' ⊢
    rwa [show a + 4 + (i + 4) = a + 8 + i by omega] at hi'

theorem header_inside : InImage A (A.vctl_datap, 8) := by
  have hhdr := A.hdr_le
  unfold VCTL_HDR_SIZE at hhdr
  exact (inImage_iff (by unfold Area.stop; omega)).mpr (.inr ⟨le_rfl, Nat.add_le_add_left hhdr _⟩)

/-- An entry inside the image is shorter than the sector. -/
theorem Area.Lies.le (h : A.Lies a n) : n ≤ A.vctl_size := by
  unfold Area.Lies Area.stop at h
  omega

theorem Area.Lies.int32_eq (h : A.Lies a n) : int32 n = n :=
  int32_of_lt (lt_of_le_of_lt h.le A.int)

/-! ## `sys_get_vctl_entry` -/

theorem get_loop_reads_iff (ha : a ≤ A.stop) :
    (∀ r ∈ (get_loop A m type size n a).reads, InImage A r) ↔ GetWalk A m type size n a := by
  induction n generalizing a with
  | zero => simp [get_loop, GetWalk]
  | succ n ih =>
      rw [get_loop, GetWalk, ← entry_reads_iff ha]
      simp only [List.forall_mem_append]
      apply and_congr_right
      intro _
      by_cases ht : entry_type m a = type
      · rw [if_pos ht, if_pos ht]
        split_ifs with hsz
        · simp only [List.forall_mem_cons, List.not_mem_nil, IsEmpty.forall_iff, implies_true,
            and_true, hsz, true_implies]
          exact inImage_iff (by omega)
        · simp [hsz]
      · rw [if_neg ht, if_neg ht]
        have hstop : A.vctl_datap + A.vctl_size = A.stop := rfl
        rw [hstop]
        split_ifs with hend
        · simp [hend]
        · rw [ih (Nat.le_of_not_lt hend)]
          exact ⟨fun h _ => h, fun h => h (Nat.le_of_not_lt hend)⟩

/-- The caller's buffer takes what is copied from inside the image. -/
theorem get_loop_result (h : GetWalk A m type size n a) :
    (get_loop A m type size n a).result.length ≤ size.toNat := by
  induction n generalizing a with
  | zero => exact Nat.zero_le _
  | succ n ih =>
      rw [get_loop]
      obtain ⟨-, h⟩ := h
      by_cases ht : entry_type m a = type
      · rw [if_pos ht] at h
        rw [if_pos ht]
        split_ifs with hsz
        · have hlies := h hsz
          rw [hlies.int32_eq] at hsz
          rw [SkipBlocks.length_firstBytes]
          omega
        · exact Nat.zero_le _
      · rw [if_neg ht] at h
        simp only [if_neg ht]
        split_ifs with hend
        · exact Nat.zero_le _
        · exact ih (h (Nat.le_of_not_lt hend))

/-! ## `sys_save_vctl_entry` -/

/-- The new image is within the sector, and everything written is inside it. -/
structure InSector (A : Area) (b : Rebuild) : Prop where
  total : b.total_size ≤ A.vctl_size
  writes : ∀ r ∈ b.writes, InBuffer A r

theorem InSector.append (h : InSector A b) {srce : ℕ → UInt8} {k : ℕ} (hroom : has_room A b k)
    (hk : k < 2 ^ 31) : InSector A (b.append srce k) := by
  have htot := h.total
  have hint := A.int
  have hsum : (b.total_size + k) % W = b.total_size + k := Nat.mod_eq_of_lt (by unfold W; omega)
  unfold has_room at hroom
  rw [hsum] at hroom
  refine ⟨?_, ?_⟩
  · change (b.total_size + k) % W ≤ _
    omega
  · simp only [Rebuild.append, List.forall_mem_append, List.forall_mem_cons, List.not_mem_nil,
      IsEmpty.forall_iff, implies_true, and_true]
    refine ⟨h.writes, fun i hi => ?_⟩
    simp only at hi ⊢
    rw [Nat.mod_eq_of_lt (by unfold W; omega)]
    omega

theorem InSector.add (h : InSector A b) (hroom : has_room A b data.length)
    (hdata : data.length < 2 ^ 31) : InSector A (b.add data) := by
  have h' : InSector A (b.append (fun i => data.getD i 0) data.length) := h.append hroom hdata
  exact ⟨h'.total, h'.writes⟩

/-- One pass: what it reads is inside the image exactly when the entry is as it
should be. -/
theorem pass_reads_iff (ha : a ≤ A.stop) :
    (∀ r ∈ pass_reads A m type b a, InImage A r) ↔
      A.Lies (a + 4) 8 ∧
        (entry_type m a ≠ type → (b.total_size + entry_size m a) % W < A.vctl_size →
          A.Lies a (entry_size m a)) := by
  rw [pass_reads, List.forall_mem_append, entry_reads_iff ha]
  apply and_congr_right
  intro _
  by_cases hcopy : entry_type m a ≠ type ∧ has_room A b (entry_size m a)
  · rw [if_pos hcopy]
    simp only [List.forall_mem_cons, List.not_mem_nil, IsEmpty.forall_iff, implies_true, and_true]
    rw [inImage_iff (by omega)]
    exact ⟨fun h _ _ => h, fun h => h hcopy.1 hcopy.2⟩
  · rw [if_neg hcopy]
    simp only [List.not_mem_nil, IsEmpty.forall_iff, implies_true, true_iff]
    exact fun ht hroom => absurd ⟨ht, hroom⟩ hcopy

/-- One pass, as far as the size of the image goes. -/
theorem image_pass_total :
    ((image_pass A m type data b a).total_size, (image_pass A m type data b a).added)
      = next_total A m type data.length a b.total_size b.added := by
  unfold image_pass next_total
  by_cases ht : entry_type m a ≠ type
  · rw [if_pos ht, if_pos ht]
    by_cases hroom : has_room A b (entry_size m a)
    · have hlt : (b.total_size + entry_size m a) % W < A.vctl_size := hroom
      rw [if_pos hroom, if_pos hlt]
      rfl
    · have hlt : ¬ (b.total_size + entry_size m a) % W < A.vctl_size := hroom
      rw [if_neg hroom, if_neg hlt]
  · rw [if_neg ht, if_neg ht]
    by_cases hroom : b.added = false ∧ has_room A b data.length
    · have hlt : b.added = false ∧ (b.total_size + data.length) % W < A.vctl_size := hroom
      rw [if_pos hroom, if_pos hlt]
      rfl
    · have hlt : ¬ (b.added = false ∧ (b.total_size + data.length) % W < A.vctl_size) := hroom
      rw [if_neg hroom, if_neg hlt]

theorem InSector.pass (h : InSector A b) (hdata : data.length < 2 ^ 31)
    (hcopy : entry_type m a ≠ type → has_room A b (entry_size m a) → A.Lies a (entry_size m a)) :
    InSector A (image_pass A m type data b a) := by
  have hint := A.int
  unfold image_pass
  split_ifs with ht hroom hroom
  · have hle := (hcopy ht hroom).le
    exact h.append hroom (by omega)
  · exact h
  · exact h.add hroom.2 hdata
  · exact h

theorem save_pass_total :
    ((save_pass A m type data b a).total_size, (save_pass A m type data b a).added)
      = next_total A m type data.length a b.total_size b.added := by
  rw [save_pass_eq]
  exact image_pass_total

/-- **The loop of `sys_save_vctl_entry`** reads inside the image exactly when
the walk is inside it. -/
theorem save_loop_reads_iff (ha : a ≤ A.stop) :
    (∀ r ∈ (save_loop A m type data n a b).reads, InImage A r) ↔
      (∀ r ∈ b.reads, InImage A r) ∧
        SaveWalk A m type data.length n a (b.total_size, b.added) := by
  induction n generalizing a b with
  | zero => simp [save_loop, SaveWalk]
  | succ n ih =>
      have hstop : A.vctl_datap + A.vctl_size = A.stop := rfl
      have hpass : (∀ r ∈ (save_pass A m type data b a).reads, InImage A r) ↔
          (∀ r ∈ b.reads, InImage A r) ∧ A.Lies (a + 4) 8 ∧
            (entry_type m a ≠ type → (b.total_size + entry_size m a) % W < A.vctl_size →
              A.Lies a (entry_size m a)) := by
        rw [save_pass_eq, List.forall_mem_append, pass_reads_iff ha]
      simp only [save_loop, SaveWalk, hstop]
      split_ifs with hend
      · rw [hpass]
        simp only [Nat.not_le.mpr hend, false_implies, and_true]
      · rw [ih (Nat.le_of_not_lt hend), hpass, save_pass_total]
        simp only [Nat.le_of_not_lt hend, true_implies, and_assoc]

theorem save_loop_inSector (hb : InSector A b) (hdata : data.length < 2 ^ 31)
    (h : SaveWalk A m type data.length n a (b.total_size, b.added)) :
    InSector A (save_loop A m type data n a b) := by
  induction n generalizing a b with
  | zero => exact hb
  | succ n ih =>
      obtain ⟨-, hcopy, hrest⟩ := h
      have hpass : InSector A (save_pass A m type data b a) := by
        rw [save_pass_eq]
        have h' := hb.pass hdata hcopy
        exact ⟨h'.total, h'.writes⟩
      rw [save_loop]
      split_ifs with hend
      · exact hpass
      · refine ih hpass ?_
        rw [save_pass_total]
        exact hrest (Nat.le_of_not_lt hend)

/-! ## Well-formed images -/

theorem Chain.getWalk {es : List Entry} (h : Chain m a es)
    (ha : a + Keyed.size Entry.len es ≤ A.stop)
    (hlo : A.vctl_datap ≤ a) : GetWalk A m type size es.length a := by
  have hstop : A.stop < W := A.stop_lt
  induction es generalizing a with
  | nil => trivial
  | cons e es ih =>
      rw [Keyed.size_cons] at ha
      have hlen := e.len_ge
      have hsz : entry_size m a = e.len := entry_size_of h.1 (by omega)
      have hnext : (a + e.len) % W = a + e.len := Nat.mod_eq_of_lt (by omega)
      rw [List.length_cons, GetWalk, hsz, hnext]
      refine ⟨.inr ⟨by omega, by omega⟩, ?_⟩
      split_ifs
      · exact fun _ => .inr ⟨hlo, by omega⟩
      · exact fun _ => ih h.2 (by omega) (by omega)

theorem Chain.saveWalk {es : List Entry} {len : ℕ} {b : ℕ × Bool} (h : Chain m a es)
    (ha : a + Keyed.size Entry.len es ≤ A.stop) (hlo : A.vctl_datap ≤ a) :
    SaveWalk A m type len es.length a b := by
  have hstop : A.stop < W := A.stop_lt
  induction es generalizing a b with
  | nil => trivial
  | cons e es ih =>
      rw [Keyed.size_cons] at ha
      have hlen := e.len_ge
      have hsz : entry_size m a = e.len := entry_size_of h.1 (by omega)
      have hnext : (a + e.len) % W = a + e.len := Nat.mod_eq_of_lt (by omega)
      rw [List.length_cons, SaveWalk, hsz, hnext]
      exact ⟨.inr ⟨by omega, by omega⟩, fun _ _ => .inr ⟨hlo, by omega⟩,
        fun _ => ih h.2 (by omega) (by omega)⟩

/-- Both walks stay inside a well-formed image. -/
theorem WellFormed.walksInside {es : List Entry} (h : WellFormed A m A.vctl_datap es) {len : ℕ} :
    WalksInside A m type size len := by
  have hin := h.inside
  have hnum := h.num_le
  unfold image_size at hin
  have hend : A.vctl_datap + VCTL_HDR_SIZE + Keyed.size Entry.len es ≤ A.stop := by
    unfold Area.stop
    omega
  have horg : (org_total A m).toNat = es.length := by
    rw [org_total, h.magic, if_pos rfl, h.num, int32_of_lt (by omega), Int.toNat_natCast]
  refine ⟨fun _ _ => ?_, ?_⟩
  · rw [h.num]
    exact h.chain.getWalk hend (Nat.le_add_right ..)
  · rw [horg]
    exact h.chain.saveWalk hend (Nat.le_add_right ..)

/-! ## Both functions -/

theorem get_reads_iff :
    (∀ r ∈ (sys_get_vctl_entry A m type size).reads, InImage A r) ↔
      (has_magic m A.vctl_datap = true → entry_num m A.vctl_datap ≤ 128 →
        GetWalk A m type size (entry_num m A.vctl_datap) (A.vctl_datap + VCTL_HDR_SIZE)) := by
  have hhdr := A.hdr_le
  unfold sys_get_vctl_entry
  simp only [List.forall_mem_cons, header_inside, true_and]
  split_ifs with h₀ h₁
  · simp only [Bool.or_eq_true, Bool.not_eq_true', decide_eq_true_eq] at h₀
    simp only [List.not_mem_nil, IsEmpty.forall_iff, implies_true, true_iff]
    intro hm _
    obtain h₀ | h₀ := h₀
    · rw [h₀] at hm
      cases hm
    · rw [h₀]
      trivial
  · simp only [List.not_mem_nil, IsEmpty.forall_iff, implies_true, true_iff]
    intro _ hle
    omega
  · simp only [Bool.or_eq_true, Bool.not_eq_true', decide_eq_true_eq, not_or,
      Bool.not_eq_false] at h₀
    rw [get_loop_reads_iff (Nat.add_le_add_left hhdr _)]
    exact ⟨fun h _ _ => h, fun h => h h₀.1 (Nat.le_of_not_lt h₁)⟩

theorem get_result_le
    (h : has_magic m A.vctl_datap = true → entry_num m A.vctl_datap ≤ 128 →
      GetWalk A m type size (entry_num m A.vctl_datap) (A.vctl_datap + VCTL_HDR_SIZE)) :
    (sys_get_vctl_entry A m type size).result.length ≤ size.toNat := by
  unfold sys_get_vctl_entry
  simp only
  split_ifs with h₀ h₁
  · exact Nat.zero_le _
  · exact Nat.zero_le _
  · simp only [Bool.or_eq_true, Bool.not_eq_true', decide_eq_true_eq, not_or,
      Bool.not_eq_false] at h₀
    exact get_loop_result (h h₀.1 (Nat.le_of_not_lt h₁))

/-- What the loop of `sys_save_vctl_entry` starts from. -/
def new_image (A : Area) (buf : ByteMem) : Rebuild where
  buf := fun x => if x < VCTL_MAGIC_SIZE then VCTL_HDR_MAGIC.getD x 0 else buf x
  total_size := VCTL_HDR_SIZE
  new_total := 0
  added := false
  reads := [(A.vctl_datap, 8)]
  writes := [(0, VCTL_MAGIC_SIZE)]

theorem rebuild_eq (A : Area) (m : ByteMem) (type : ℕ) (data : List UInt8) (buf : ByteMem) :
    ∃ b, b = finish A data (save_loop A m type data (org_total A m).toNat
        (A.vctl_datap + VCTL_HDR_SIZE) (new_image A buf)) ∧
      rebuild A m type data buf = { b with buf := store32 b.buf 4 b.new_total } :=
  ⟨_, rfl, rfl⟩

theorem finish_reads : (finish A data b).reads = b.reads := by
  unfold finish
  split_ifs <;> rfl

theorem InSector.finish (h : InSector A b) (hdata : data.length < 2 ^ 31) :
    InSector A (finish A data b) := by
  unfold Vctl.finish
  split_ifs with hadd
  · exact h.add hadd.2 hdata
  · exact h

theorem new_image_inSector (buf : ByteMem) : InSector A (new_image A buf) := by
  have hhdr := A.hdr_le
  have hint := A.int
  refine ⟨hhdr, ?_⟩
  simp only [new_image, List.forall_mem_cons, List.not_mem_nil, IsEmpty.forall_iff, implies_true,
    and_true]
  intro i hi
  unfold VCTL_MAGIC_SIZE VCTL_HDR_SIZE at *
  simp only at hi ⊢
  rw [Nat.mod_eq_of_lt (by unfold W; omega)]
  omega

/-- **The walks are harmless exactly when they stay inside the image.** -/
theorem harmless_iff (hdata : data.length < 2 ^ 31) (buf : ByteMem) :
    Harmless A m type size data buf ↔ WalksInside A m type size data.length := by
  have hstart : A.vctl_datap + VCTL_HDR_SIZE ≤ A.stop := Nat.add_le_add_left A.hdr_le _
  obtain ⟨b, hb, heq⟩ := rebuild_eq A m type data buf
  have hreads : (∀ r ∈ (rebuild A m type data buf).reads, InImage A r) ↔
      SaveWalk A m type data.length (org_total A m).toNat (A.vctl_datap + VCTL_HDR_SIZE)
        (VCTL_HDR_SIZE, false) := by
    rw [heq, hb, finish_reads, save_loop_reads_iff hstart]
    simp [new_image, header_inside]
  constructor
  · intro h
    exact ⟨get_reads_iff.mp h.get_reads, hreads.mp h.save_reads⟩
  · rintro ⟨hget, hsave⟩
    have hin : InSector A b := by
      rw [hb]
      exact (save_loop_inSector (new_image_inSector buf) hdata hsave).finish hdata
    exact ⟨get_reads_iff.mpr hget, get_result_le hget, hreads.mpr hsave, heq ▸ hin.writes,
      heq ▸ hin.total⟩

/-- The VLAN entry of the first boot is read, and an entry of another size takes its place. -/
theorem harmless_replaced :
    (sample_entry VCT_VLAN 44 (by decide)).bytes ≠ [] ∧
      Harmless board_area fresh.ram VCT_VLAN 128 (sample_entry VCT_VLAN 44 (by decide)).bytes
        blank := by
  refine ⟨fun h => ?_, (harmless_iff (Entry.int _) blank).mpr fresh_wf.1.walksInside⟩
  have hle := (sample_entry VCT_VLAN 44 (by decide)).hdr_le
  rw [h] at hle
  exact absurd hle (by decide)

/-- One VLAN entry, with a size of ones. -/
def bad_size : ByteMem := fun x =>
  (VCTL_HDR_MAGIC ++ le32 1 ++ VCTL_ENTRY_MAGIC ++ le32 0xffffffff ++ le32 VCT_VLAN).getD
    (x - board_area.vctl_datap) 0

/-- `sys_get_vctl_entry` copies as many bytes as it says there. -/
theorem bad_size_harmful : ¬ Harmless board_area bad_size VCT_VLAN 128 [] blank := by
  intro h
  have hwalk := get_reads_iff.mp h.get_reads (by decide) (by decide)
  have hnum : entry_num bad_size board_area.vctl_datap = 1 := by decide
  have hsz : entry_size bad_size (board_area.vctl_datap + VCTL_HDR_SIZE) = 0xffffffff := by decide
  have hty : entry_type bad_size (board_area.vctl_datap + VCTL_HDR_SIZE) = VCT_VLAN := by decide
  rw [hnum, GetWalk, if_pos hty, hsz] at hwalk
  have hlies := hwalk.2 (by decide)
  exact absurd hlies.le (by decide)

end CsBoot.Vctl
