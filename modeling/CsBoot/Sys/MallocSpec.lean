/-
`sys_malloc` and `sys_free` refine the block list.

On a memory that holds the block list `bs` (`IsHeap`), each entry point
returns and leaves a memory that holds what the list operation of
`BlockList.lean` makes of `bs`, changing header bytes and bytes of free blocks
only. For `sys_free` there is no side condition (`sys_free_spec`). For
`sys_malloc` there is one, and the code does not check it: the block that is
split must be the last of the list (`sys_malloc_spec`). A split in the middle
leaves the `prev` field of the following block as it was.
-/
import CsBoot.Sys.BlockMem

set_option autoImplicit false

namespace CsBoot.Malloc

open ByteMem SYS_MEM_BLK_T

variable {m m' : ByteMem} {b b' : Blk} {lo hi sz : ℕ} {bs pre post : List Blk}

/-- The memory between `lo` and `hi` holds exactly the block list `bs`. -/
structure IsHeap (m : ByteMem) (lo hi : ℕ) (bs : List Blk) : Prop where
  ne : bs ≠ []
  seg : ∃ last, Seg m SYS_MEM_END_PTR lo bs last SYS_MEM_END_PTR
  layout : Layout lo hi bs
  lt : hi < W

theorem IsHeap.addr_le (h : IsHeap m lo hi bs) (hb : b ∈ bs) : b.addr + BLK_SIZE + b.size ≤ hi :=
  (h.layout.mem hb).2

theorem IsHeap.hdr_le (h : IsHeap m lo hi bs) (hb : b ∈ bs) : b.addr + BLK_SIZE ≤ W := by
  have := h.addr_le hb
  have := h.lt
  omega

/-- The loop bound suffices for every list that fits into the address space. -/
theorem IsHeap.length_lt (h : IsHeap m lo hi bs) : bs.length < LOOP_BOUND := by
  have h₁ := h.layout.length_le
  have h₂ := h.lt
  unfold BLK_SIZE LOOP_BOUND at *
  omega

/-- The header of a block in the middle, with the seams around it. -/
theorem Seg.split {prv a prv' a' : ℕ} (h : Seg m prv a (pre ++ b :: post) prv' a') :
    ∃ p nxt, Seg m prv a pre p b.addr ∧ Hdr m b nxt p ∧ Seg m b.addr nxt post prv' a' := by
  obtain ⟨p, q, h₁, rfl, nxt, h₂, h₃⟩ := seg_append.mp h
  exact ⟨p, nxt, h₁, h₂, h₃⟩

theorem Seg.join {prv a prv' a' p nxt : ℕ} (h₁ : Seg m prv a pre p b.addr)
    (h₂ : Hdr m b nxt p) (h₃ : Seg m b.addr nxt post prv' a') :
    Seg m prv a (pre ++ b :: post) prv' a' :=
  seg_append.mpr ⟨p, b.addr, h₁, rfl, nxt, h₂, h₃⟩

/-- Rewriting one header in place. The layout asked for is the one afterwards:
after a split the old size of `b` still covers the new block. -/
theorem Seg.update {prv a prv' a' : ℕ} (h : Seg m prv a (pre ++ b :: post) prv' a')
    (hl : Layout lo hi (pre ++ b' :: post)) (hW : hi ≤ W) (ha : b'.addr = b.addr)
    (hb : ∀ nxt prv, Hdr m b nxt prv → Hdr m' b' nxt prv)
    (hm : ∀ x, OffHdr b.addr x → m' x = m x) : Seg m' prv a (pre ++ b' :: post) prv' a' := by
  obtain ⟨p, nxt, h₁, h₂, h₃⟩ := h.split
  obtain ⟨mid, hl₁, hl₂⟩ := layout_append.mp hl
  -- the header rewritten lies apart from those in front and behind
  have hpre : ∀ c ∈ pre, c.addr + BLK_SIZE ≤ b.addr := fun c hc => by
    have h₁ := (hl₁.mem hc).2
    have h₂ := hl₂.1
    unfold Blk.stop at h₁
    omega
  have hpost : ∀ c ∈ post, b.addr + BLK_SIZE ≤ c.addr := fun c hc => by
    have h₁ := (hl₂.2.mem hc).1
    unfold Blk.stop at h₁
    omega
  have hmid : mid ≤ W := hl₂.le.trans hW
  refine @Seg.join _ _ _ _ _ _ _ _ p nxt ?_ (hb nxt p h₂) ?_
  · rw [ha]
    exact h₁.congr hl₁ hmid fun c hc x _ hx => hm x (.inl (by have := hpre c hc; omega))
  · rw [ha]
    exact h₃.congr hl₂.2 hW fun c hc x hx _ => hm x (.inr (by have := hpost c hc; omega))

/-- A segment is left with its last block behind. -/
theorem Seg.exit {prv a prv' a' : ℕ} (h : Seg m prv a (pre ++ [b]) prv' a') : prv' = b.addr := by
  obtain ⟨p, nxt, -, -, h₁, -⟩ := h.split
  exact h₁.symm

/-! ## Initialisation -/

/-- A fresh heap is one free block. -/
theorem sys_init_memory_isHeap (info : SYS_MEM_INFO_T) (m : ByteMem) {start size : ℕ}
    (hsize : SYS_MEM_MIN_SIZE ≤ size) (hend : start + size < W) :
    IsHeap (sys_init_memory info m start size).2 start (start + size)
      [⟨start, size - BLK_SIZE, 0⟩] := by
  unfold SYS_MEM_MIN_SIZE at hsize
  have hb : start + BLK_SIZE ≤ W := by
    unfold BLK_SIZE
    omega
  rw [sys_init_memory, if_neg (by unfold SYS_MEM_MIN_SIZE; omega)]
  refine ⟨by simp, ⟨start, rfl, SYS_MEM_END_PTR, ?_, rfl, rfl⟩, ⟨le_refl _, ?_⟩, hend⟩
  · exact hdr_init (m := m) hb (by decide) (by decide) (by omega) (by decide)
  · unfold Layout Blk.stop BLK_SIZE
    dsimp only
    omega

/-! ## `sys_mem_garbage_collect` inside a heap -/

theorem garbage_collect_spec (h : IsHeap m lo hi (pre ++ b :: post)) (hb : b.cnt = 0) :
    ∃ m', sys_mem_garbage_collect m b.addr = some m' ∧
      IsHeap m' lo hi (pre ++ absorb b post) ∧ HdrsOnly m m' (b :: post) := by
  obtain ⟨last, hs⟩ := h.seg
  obtain ⟨p, nxt, h₁, h₂, h₃⟩ := hs.split
  obtain ⟨mid, hl₁, hl₂⟩ := layout_append.mp h.layout
  have hlen : post.length < LOOP_BOUND := by
    have := h.length_lt
    simp only [List.length_append, List.length_cons] at this
    omega
  -- the loop works on the tail from `b` on; what is in front keeps its headers
  obtain ⟨m', last', h₄, h₅, h₆⟩ := garbage_collect_loop_spec h₂ h₃ hl₂ h.lt hlen
  obtain ⟨sz, rest, habs, -⟩ := absorb_head post b
  refine ⟨m', ?_, ⟨?_, ⟨last', seg_append.mpr ⟨p, b.addr, ?_, h₅⟩⟩, ?_, h.lt⟩, h₆⟩
  · rw [sys_mem_garbage_collect, if_neg (by rw [h₂.cnt_eq]; exact not_not.mpr hb), h₂.next_eq]
    exact h₄
  · rw [habs]
    simp
  · have hmid : mid ≤ W := hl₂.le.trans h.lt.le
    refine h₁.congr hl₁ hmid fun c hc x _ hx => h₆ x fun d hd => .inl ?_
    have h₇ := (hl₁.mem hc).2
    have h₈ := (hl₂.mem hd).1
    unfold Blk.stop at h₇
    omega
  · exact layout_append.mpr ⟨mid, hl₁, absorb_layout hl₂⟩

/-! ## `sys_malloc` -/

/-- The walk of `sys_malloc` finds the first block that fits. -/
theorem sys_malloc_find_spec {last : ℕ} : ∀ {bs : List Blk} {fuel lo prv a : ℕ},
    Seg m prv a bs last SYS_MEM_END_PTR → Layout lo hi bs → hi < W → bs.length < fuel →
    sys_malloc_find fuel m sz a = some ((bs.find? (Blk.fits sz)).map Blk.addr)
  | [], fuel + 1, _, _, _, hs, _, _, _ => by
      obtain rfl := hs.entry_nil
      rw [sys_malloc_find, if_pos rfl]
      rfl
  | b :: bs, fuel + 1, _, _, _, hs, hl, hW, hf => by
      obtain ⟨rfl, nxt, hb, hbs⟩ := hs
      have hb' := hl.mem List.mem_cons_self
      have hne : b.addr ≠ SYS_MEM_END_PTR := by
        unfold Blk.stop SYS_MEM_END_PTR BLK_SIZE W at *
        omega
      rw [sys_malloc_find, if_neg hne, if_neg (not_not.mpr hb.tag_eq), hb.cnt_eq, hb.size_eq]
      by_cases hfit : b.fits sz = true
      · rw [if_pos (Blk.fits_iff.mp hfit), List.find?_cons_of_pos hfit]
        rfl
      · rw [if_neg fun h => hfit (Blk.fits_iff.mpr h), List.find?_cons_of_neg hfit, hb.next_eq]
        exact sys_malloc_find_spec hbs hl.2 hW (by simp only [List.length_cons] at hf; omega)

/-- The last two stores of `sys_malloc`, on the block found. -/
theorem finish_take {last : ℕ}
    (hs : Seg m SYS_MEM_END_PTR lo (pre ++ b :: post) last SYS_MEM_END_PTR)
    (hl : Layout lo hi (pre ++ { b with size := sz, cnt := 1 } :: post)) (hhi : hi < W)
    (hb : b.cnt = 0) :
    IsHeap (set_size (set_used_cnt m b.addr (used_cnt m b.addr + 1)) b.addr sz) lo hi
        (pre ++ { b with size := sz, cnt := 1 } :: post) ∧
      HdrsOnly m (set_size (set_used_cnt m b.addr (used_cnt m b.addr + 1)) b.addr sz) [b] := by
  have hbhi := (hl.mem (b := { b with size := sz, cnt := 1 }) (by simp)).2
  unfold Blk.stop at hbhi
  dsimp only at hbhi
  have hbW : b.addr + BLK_SIZE ≤ W := by omega
  have hfr : ∀ x, OffHdr b.addr x →
      set_size (set_used_cnt m b.addr (used_cnt m b.addr + 1)) b.addr sz x = m x := fun x hx =>
    (field_frame hbW (by decide) hx).trans (field_frame hbW (by decide) hx)
  refine ⟨⟨by simp, ⟨last, hs.update hl hhi.le rfl (?_) hfr⟩, hl, hhi⟩,
    fun x hx => hfr x (hx b (by simp))⟩
  intro nxt prv hd
  -- the count goes from 0 to 1, then the size from `b.size` to `sz`
  have h₁ := hdr_set_used_cnt (v := used_cnt m b.addr + 1) hd hbW
  rw [hd.cnt_eq, hb, Nat.mod_eq_of_lt (by decide)] at h₁
  have h₂ := hdr_set_size (v := sz) h₁ hbW
  rw [Nat.mod_eq_of_lt (by omega)] at h₂
  rwa [hd.cnt_eq, hb]

/-- The split of the last block. The new block's successor is `END`, so the
collection that `sys_malloc` starts on it has nothing to do. -/
theorem split_last_spec (h : IsHeap m lo hi (pre ++ [b])) (hsz : sz ≤ b.size)
    (hsplit : 2 * BLK_SIZE < b.size - sz) :
    ∃ m', sys_malloc_split m b.addr sz = some m' ∧
      (∃ last, Seg m' SYS_MEM_END_PTR lo
        (pre ++ [b, ⟨b.addr + sz + BLK_SIZE, b.size - sz - BLK_SIZE, 0⟩]) last
        SYS_MEM_END_PTR) ∧
      HdrsOnly m m' [b, ⟨b.addr + sz + BLK_SIZE, b.size - sz - BLK_SIZE, 0⟩] := by
  have hbhi := h.addr_le (b := b) (by simp)
  have hlt := h.lt
  have hbW : b.addr + BLK_SIZE ≤ W := h.hdr_le (by simp)
  obtain ⟨last, hs⟩ := h.seg
  obtain ⟨p, nxt, h₁, h₂, h₃⟩ := hs.split
  obtain ⟨mid, hl₁, hl₂⟩ := layout_append.mp h.layout
  obtain rfl := h₃.entry_nil
  set n := b.addr + sz + BLK_SIZE with hn
  set r := b.size - sz - BLK_SIZE with hr
  have hnW : n + BLK_SIZE ≤ W := by
    unfold BLK_SIZE at *
    omega
  have hbn : b.addr + BLK_SIZE ≤ n := by omega
  -- reading the header of `b` between the stores into the new header
  have hd : ∀ i j v m, i + 4 ≤ BLK_SIZE → j + 4 ≤ BLK_SIZE →
      load32 (store32 m (n + i) v) (b.addr + j) = load32 m (b.addr + j) := fun i j v m _ _ =>
    load32_store32_of_disjoint (by omega) (by omega) (by omega)
  set m₁ := init_hdr m n SYS_MEM_END_PTR b.addr r 0 with hm₁
  have hnext : next (set_tag m n SYS_MEM_TAG) b.addr = SYS_MEM_END_PTR :=
    (hd 0 4 _ _ (by decide) (by decide)).trans h₂.next_eq
  have hsize : sub32 (sub32 (size (set_prev (set_next (set_tag m n SYS_MEM_TAG) n
      SYS_MEM_END_PTR) n b.addr) b.addr) sz) BLK_SIZE = r := by
    have : size (set_prev (set_next (set_tag m n SYS_MEM_TAG) n SYS_MEM_END_PTR) n b.addr) b.addr
        = b.size := by
      apply (hd 8 12 _ _ (by decide) (by decide)).trans
      apply (hd 4 12 _ _ (by decide) (by decide)).trans
      exact (hd 0 12 _ _ (by decide) (by decide)).trans h₂.size_eq
    rw [this, sub32_of_le (a := b.size) (by omega) hsz,
      sub32_of_le (a := b.size - sz) (by omega) (by omega)]
  -- with the reads resolved, the five stores are `init_hdr`
  have hsp : sys_malloc_split m b.addr sz
      = (sys_mem_garbage_collect m₁ n).bind fun m => some (set_next m b.addr n) := by
    unfold sys_malloc_split
    dsimp only
    rw [Nat.mod_eq_of_lt (show b.addr + sz + BLK_SIZE < W by omega), ← hn, hnext, hsize]
    rfl
  have hinit : Hdr m₁ ⟨n, r, 0⟩ SYS_MEM_END_PTR b.addr :=
    hdr_init hnW (by decide) (by omega) (by omega) (by decide)
  have hfr₁ : ∀ x, OffHdr n x → m₁ x = m x := fun x hx => init_hdr_frame hnW hx
  -- the loop is left at once: `new_blk->next` is `END`
  have hgc : sys_mem_garbage_collect m₁ n = some m₁ := by
    rw [sys_mem_garbage_collect, if_neg (not_not.mpr hinit.cnt_eq), hinit.next_eq]
    rfl
  -- the header of `b` outlives the new one, and then gets its link
  have hb₁ : Hdr m₁ b SYS_MEM_END_PTR p :=
    hdr_congr h₂ hbW fun x _ hx => hfr₁ x (.inl (by omega))
  have hb₂ : Hdr (set_next m₁ b.addr n) b n p := by
    simpa only [Nat.mod_eq_of_lt (show n < W by unfold BLK_SIZE at *; omega)]
      using hdr_set_next (v := n) hb₁ hbW
  have hn₂ : Hdr (set_next m₁ b.addr n) ⟨n, r, 0⟩ SYS_MEM_END_PTR b.addr :=
    hdr_congr hinit hnW fun x hx _ =>
      field_frame hbW (by decide) (.inr (by dsimp only at hx; omega))
  refine ⟨set_next m₁ b.addr n, by rw [hsp, hgc]; rfl,
    ⟨n, Seg.join (h₁.congr hl₁ (hl₂.le.trans hlt.le) ?_) hb₂
      ⟨rfl, _, hn₂, rfl, rfl⟩⟩, ?_⟩
  · intro c hc x _ hx
    have h₄ := (hl₁.mem hc).2
    have h₅ := hl₂.1
    unfold Blk.stop at h₄
    exact (field_frame hbW (by decide) (.inl (by omega))).trans (hfr₁ x (.inl (by omega)))
  · intro x hx
    exact (field_frame hbW (by decide) (hx b (by simp))).trans
      (hfr₁ x (hx ⟨n, r, 0⟩ (by simp)))

/-- `sys_malloc n`, if it finds a block, finds one with the property `R`. -/
def Takes (R : ByteMem → ℕ → ℕ → Prop) (info : SYS_MEM_INFO_T) (m : ByteMem) (n : ℕ) : Prop :=
  ∀ blk, sys_malloc_find LOOP_BOUND m (round_size n) info.start_ptr = some (some blk) →
    R m blk (round_size n)

instance (R : ByteMem → ℕ → ℕ → Prop) [∀ m blk sz, Decidable (R m blk sz)]
    (info : SYS_MEM_INFO_T) (m : ByteMem) (n : ℕ) : Decidable (Takes R info m n) :=
  match h : sys_malloc_find LOOP_BOUND m (round_size n) info.start_ptr with
  | some (some blk) => decidable_of_iff (R m blk (round_size n))
      ⟨fun hR blk' h' => by rw [h] at h'; cases h'; exact hR, fun hR => hR blk h⟩
  | some none => isTrue fun blk h' => by rw [h] at h'; cases h'
  | none => isTrue fun blk h' => by rw [h] at h'; cases h'

/-- Only the last block of the list is split. -/
def SplitAtEnd (m : ByteMem) (blk sz : ℕ) : Prop :=
  splits m blk sz → next m blk = SYS_MEM_END_PTR

instance (m : ByteMem) (blk sz : ℕ) : Decidable (SplitAtEnd m blk sz) :=
  inferInstanceAs (Decidable (_ → _))

/-- The header fields of a block of the heap, as `sys_malloc` reads them. -/
theorem IsHeap.fields (h : IsHeap m lo hi (pre ++ b :: post)) :
    size m b.addr = b.size ∧ used_cnt m b.addr = b.cnt ∧
      (next m b.addr = SYS_MEM_END_PTR ↔ post = []) := by
  obtain ⟨last, hs⟩ := h.seg
  obtain ⟨p, nxt, -, hhdr, hpost⟩ := hs.split
  refine ⟨hhdr.size_eq, hhdr.cnt_eq, ?_⟩
  rw [hhdr.next_eq]
  cases post with
  | nil => exact ⟨fun _ => rfl, fun _ => hpost.entry_nil⟩
  | cons c cs =>
      have h₁ := hpost.entry_cons
      have h₂ := h.hdr_le (b := c) (by simp)
      -- a successor has a proper address
      refine ⟨?_, fun hnil => absurd hnil (List.cons_ne_nil c cs)⟩
      intro hend
      unfold SYS_MEM_END_PTR BLK_SIZE W at *
      omega

theorem IsHeap.splits_iff (h : IsHeap m lo hi (pre ++ b :: post)) (hsz : sz ≤ b.size) :
    splits m b.addr sz ↔ 2 * BLK_SIZE < b.size - sz := by
  have hbhi := h.addr_le (b := b) (by simp)
  have hlt := h.lt
  rw [splits, h.fields.1, sub32_of_le (by omega) hsz]

/-- The walk of `sys_malloc` on a heap. -/
theorem IsHeap.find_eq (h : IsHeap m lo hi bs) (sz : ℕ) :
    sys_malloc_find LOOP_BOUND m sz lo = some ((bs.find? (Blk.fits sz)).map Blk.addr) := by
  obtain ⟨last, hs⟩ := h.seg
  exact sys_malloc_find_spec hs h.layout h.lt h.length_lt

/-- The allocating branch carves the block found. All it changes lies inside
that block, which was free. -/
theorem sys_malloc_take_spec (h : IsHeap m lo hi (pre ++ b :: post)) (hfit : b.fits sz = true)
    (hlast : SplitAtEnd m b.addr sz) :
    ∃ m', sys_malloc_take m b.addr sz = some (m', b.ptr) ∧
      IsHeap m' lo hi (pre ++ carve b sz post) ∧ ∀ x, x < b.addr ∨ b.stop ≤ x → m' x = m x := by
  obtain ⟨hb₀, hb₁⟩ := Blk.fits_iff.mp hfit
  have hbhi := h.addr_le (b := b) (by simp)
  have hlt := h.lt
  obtain ⟨last, hs⟩ := h.seg
  obtain ⟨mid, hl₁, hl₂⟩ := layout_append.mp h.layout
  have hsplits := h.splits_iff hb₁
  have hptr : (b.addr + BLK_SIZE) % W = b.ptr := Nat.mod_eq_of_lt (by omega)
  have hcarve := layout_append.mpr ⟨mid, hl₁, carve_layout hl₂ hb₁⟩
  rw [sys_malloc_take]
  -- what is left of the block becomes a block of its own, or stays with it
  by_cases hsp : 2 * BLK_SIZE < b.size - sz
  · obtain rfl := h.fields.2.2.mp (hlast (hsplits.mpr hsp))
    obtain ⟨m₁, h₁, ⟨last', h₂⟩, h₃⟩ := split_last_spec h hb₁ hsp
    rw [carve, if_pos hsp, absorb] at hcarve ⊢
    obtain ⟨h₄, h₅⟩ := finish_take h₂ hcarve hlt hb₀
    rw [if_pos (hsplits.mpr hsp), h₁]
    refine ⟨_, by rw [← hptr]; rfl, h₄, ?_⟩
    intro x hx
    have hoff : OffHdr b.addr x ∧ OffHdr (b.addr + sz + BLK_SIZE) x := by
      unfold Blk.stop OffHdr at *
      omega
    rw [h₅ x (by simpa using hoff.1), h₃ x (by simpa using hoff)]
  · rw [carve, if_neg hsp] at hcarve ⊢
    obtain ⟨h₄, h₅⟩ := finish_take hs hcarve hlt hb₀
    rw [if_neg fun h => hsp (hsplits.mp h)]
    have hoff : ∀ x, x < b.addr ∨ b.stop ≤ x → OffHdr b.addr x := fun x hx => by
      unfold Blk.stop OffHdr at *
      omega
    exact ⟨_, by rw [← hptr]; rfl, h₄, fun x hx => h₅ x (by simpa using hoff x hx)⟩

/-- Bytes of payloads in use are as they were. -/
def PayloadsKept (m m' : ByteMem) (bs : List Blk) : Prop :=
  ∀ c ∈ bs, c.cnt ≠ 0 → ∀ x, c.ptr ≤ x → x < c.stop → m' x = m x

/-- **`sys_malloc`** returns what first fit returns, provided that the block it
splits, if it splits one, is the last of the list. -/
theorem sys_malloc_spec {info : SYS_MEM_INFO_T} {n : ℕ} (h : IsHeap m info.start_ptr hi bs)
    (hlast : Takes SplitAtEnd info m n) :
    (alloc (round_size n) bs = none ∧ sys_malloc info m n = some (m, 0)) ∨
    ∃ p bs' m', alloc (round_size n) bs = some (p, bs') ∧ sys_malloc info m n = some (m', p) ∧
      IsHeap m' info.start_ptr hi bs' ∧ PayloadsKept m m' bs := by
  have hfind := h.find_eq (round_size n)
  cases hf : bs.find? (Blk.fits (round_size n)) with
  | none =>
      refine .inl ⟨alloc_eq_none ?_, ?_⟩
      · intro b hb
        exact Bool.eq_false_iff.mpr (List.find?_eq_none.mp hf b hb)
      · rw [sys_malloc, hfind, hf]
        rfl
  | some b =>
      obtain ⟨hfit, pre, post, rfl, hpre⟩ := List.find?_eq_some_iff_append.mp hf
      rw [hf] at hfind
      obtain ⟨m', h₁, h₂, h₃⟩ := sys_malloc_take_spec h hfit (hlast b.addr hfind)
      refine .inr ⟨b.ptr, _, m', alloc_append hfit fun c hc => by simpa using hpre c hc, ?_, h₂,
        fun c hc hcnt x hx hx' => h₃ x ?_⟩
      · rw [sys_malloc, hfind]
        exact h₁
      · rcases h.layout.apart hc (by simp : b ∈ pre ++ b :: post) with rfl | hcb | hcb
        · exact absurd (Blk.fits_iff.mp hfit).1 hcnt
        · exact .inl (hx'.trans_le hcb)
        · refine .inr (hcb.trans ?_)
          unfold Blk.ptr at hx
          omega

/-! ## `sys_free` -/

/-- Header stores reach no payload. -/
theorem HdrsOnly.payloadsKept (h : HdrsOnly m m' bs) (hl : Layout lo hi bs) :
    PayloadsKept m m' bs := by
  intro c hc _ x hx hx'
  apply h x
  intro d hd
  rcases hl.apart hc hd with rfl | hcd | hcd
  all_goals
    unfold Blk.ptr Blk.stop OffHdr at *
    omega

/-- **`sys_free`** of a block of the heap, used or not, returns and releases
it. The back link is read, and on a heap it is right. -/
theorem sys_free_spec (h : IsHeap m lo hi (pre ++ b :: post)) :
    ∃ m', sys_free m b.ptr = some m' ∧ IsHeap m' lo hi (release b.ptr (pre ++ b :: post)) ∧
      PayloadsKept m m' (pre ++ b :: post) := by
  have hbW : b.addr + BLK_SIZE ≤ W := h.hdr_le (by simp)
  have hbhi := h.addr_le (b := b) (by simp)
  have hlt := h.lt
  obtain ⟨last, hs⟩ := h.seg
  obtain ⟨p, nxt, hpre, hhdr, -⟩ := hs.split
  obtain ⟨mid, hl₁, hl₂⟩ := layout_append.mp h.layout
  have hblk : sub32 b.ptr BLK_SIZE = b.addr := by
    unfold Blk.ptr
    rw [sub32_of_le (by omega) (by omega)]
    omega
  have hne : b.ptr ≠ 0 := by
    unfold Blk.ptr BLK_SIZE
    omega
  -- the memory after `blk->used_cnt = 0`
  have hfr : ∀ x, OffHdr b.addr x → set_used_cnt m b.addr 0 x = m x := fun x hx =>
    field_frame hbW (by decide) hx
  have hl' : Layout lo hi (pre ++ { b with cnt := 0 } :: post) :=
    layout_append.mpr ⟨mid, hl₁, hl₂⟩
  have h₁ : IsHeap (set_used_cnt m b.addr 0) lo hi (pre ++ { b with cnt := 0 } :: post) :=
    ⟨by simp, ⟨last, hs.update hl' hlt.le rfl (fun _ _ hd => hdr_set_used_cnt hd hbW) hfr⟩,
      hl', hlt⟩
  -- in both cases below the stores after that one reach headers only
  have hpayloads : ∀ {q : List Blk} {c : Blk} {rest : List Blk} {m₂ : ByteMem},
      q ++ c :: rest = pre ++ { b with cnt := 0 } :: post →
      HdrsOnly (set_used_cnt m b.addr 0) m₂ (c :: rest) → PayloadsKept m m₂ (pre ++ b :: post) := by
    intro q c rest m₂ hq hm₂
    refine HdrsOnly.payloadsKept (?_) h.layout
    intro x hx
    rw [hm₂ x fun d hd => ?_, hfr x (hx b (by simp))]
    have hd' : d ∈ pre ++ { b with cnt := 0 } :: post := by
      rw [← hq]
      exact List.mem_append_right q hd
    rcases List.mem_append.mp hd' with hd' | hd'
    · exact hx d (by simp [hd'])
    · rcases List.mem_cons.mp hd' with rfl | hd'
      · exact hx b (by simp)
      · exact hx d (by simp [hd'])
  have hprev : prev (set_used_cnt m b.addr 0) b.addr = p :=
    (hdr_set_used_cnt (v := 0) hhdr hbW).prev_eq
  rw [sys_free, if_neg hne, hblk, if_neg (not_not.mpr hhdr.tag_eq)]
  dsimp only
  rw [hprev]
  rcases release_cases h.layout with ⟨hc, hrel⟩ | ⟨pre', c, rfl, hc, hrel⟩
  · rw [if_neg, hrel]
    · obtain ⟨m₂, h₂, h₃, h₄⟩ := garbage_collect_spec h₁ rfl
      exact ⟨m₂, h₂, h₃, hpayloads rfl h₄⟩
    · rintro ⟨hp, hcnt⟩
      rcases List.eq_nil_or_concat' pre with rfl | ⟨pre', c, rfl⟩
      · exact hp hpre.1.symm
      · obtain ⟨last', hs₁⟩ := h₁.seg
        rw [List.append_assoc, List.singleton_append] at hs₁
        obtain ⟨_, _, -, hhdr', -⟩ := hs₁.split
        -- `prev` is the address of the last block in front, which is in use
        rw [hpre.exit, hhdr'.cnt_eq] at hcnt
        exact hc c (by simp) hcnt
  · have h₁' : IsHeap (set_used_cnt m b.addr 0) lo hi
        (pre' ++ c :: { b with cnt := 0 } :: post) := by
      simpa using h₁
    obtain ⟨last', hs₁⟩ := h₁'.seg
    obtain ⟨_, _, -, hhdr', -⟩ := hs₁.split
    have hcW := h₁'.hdr_le (b := c) (by simp)
    -- `prev` leads to the free block `c`, and the collection starts there
    rw [hpre.exit, if_pos, hrel]
    · obtain ⟨m₂, h₂, h₃, h₄⟩ := garbage_collect_spec h₁' hc
      exact ⟨m₂, h₂, h₃, hpayloads (q := pre') (by simp) h₄⟩
    · refine ⟨?_, hhdr'.cnt_eq.trans hc⟩
      intro hend
      unfold SYS_MEM_END_PTR BLK_SIZE W at *
      omega

end CsBoot.Malloc
