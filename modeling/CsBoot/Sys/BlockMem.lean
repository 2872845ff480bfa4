/-
The block list as it lies in memory.

`Hdr m b nxt prv` says that the header words of block `b` are in `m`, with
forward link `nxt` and back link `prv`. `Seg m prv a bs prv' a'` is a list
segment: entered at address `a` with `prv` behind it, it goes through exactly
the blocks `bs` and is left towards `a'` with `prv'` behind. A whole heap is a
segment from `END` to `END`.

The allocator is then followed one store at a time. A store into a header
field changes that field of that block (`hdr_set_size` and its four
companions), and a segment survives every change that stays out of its headers
(`Seg.congr`). On these two the specification of the collecting loop, of the
split and of both entry points is built.
-/
import CsBoot.Sys.BlockList

set_option autoImplicit false

namespace CsBoot.Malloc

open ByteMem SYS_MEM_BLK_T

variable {m m' : ByteMem} {b c : Blk} {nxt prv prv' a a' v : ℕ} {bs cs : List Blk}

/-! ## Headers -/

/-- The header words of `b`, linked to `nxt` and `prv`. -/
structure Hdr (m : ByteMem) (b : Blk) (nxt prv : ℕ) : Prop where
  tag_eq : tag m b.addr = SYS_MEM_TAG
  next_eq : next m b.addr = nxt
  prev_eq : prev m b.addr = prv
  size_eq : size m b.addr = b.size
  cnt_eq : used_cnt m b.addr = b.cnt

/-- `x` is not an address of the header at `a`. -/
def OffHdr (a x : ℕ) : Prop := x < a ∨ a + BLK_SIZE ≤ x

theorem hdr_congr (h : Hdr m b nxt prv) (hb : b.addr + BLK_SIZE ≤ W)
    (hm : ∀ x, b.addr ≤ x → x < b.addr + BLK_SIZE → m' x = m x) : Hdr m' b nxt prv := by
  unfold BLK_SIZE at *
  refine ⟨?_, ?_, ?_, ?_, ?_⟩
  · exact (load32_congr (by omega) fun i _ => hm _ (by omega) (by omega)).trans h.tag_eq
  · exact (load32_congr (by omega) fun i _ => hm _ (by omega) (by omega)).trans h.next_eq
  · exact (load32_congr (by omega) fun i _ => hm _ (by omega) (by omega)).trans h.prev_eq
  · exact (load32_congr (by omega) fun i _ => hm _ (by omega) (by omega)).trans h.size_eq
  · exact (load32_congr (by omega) fun i _ => hm _ (by omega) (by omega)).trans h.cnt_eq

/-! ## Stores into one field

Every field is a word at a fixed offset, so one lemma says that a store into
one field is invisible to the others, and one that it stays inside the
header. -/

theorem field_store {i j : ℕ} (ha : a + BLK_SIZE ≤ W) (hi : i + 4 ≤ BLK_SIZE)
    (hj : j + 4 ≤ BLK_SIZE) (hij : i + 4 ≤ j ∨ j + 4 ≤ i) :
    load32 (store32 m (a + i) v) (a + j) = load32 m (a + j) := by
  unfold BLK_SIZE at *
  exact load32_store32_of_disjoint (by omega) (by omega) (by omega)

theorem field_store_same {i : ℕ} (ha : a + BLK_SIZE ≤ W) (hi : i + 4 ≤ BLK_SIZE) :
    load32 (store32 m (a + i) v) (a + i) = v % W :=
  load32_store32_same (by omega)

theorem field_frame {i x : ℕ} (ha : a + BLK_SIZE ≤ W) (hi : i + 4 ≤ BLK_SIZE)
    (hx : OffHdr a x) : store32 m (a + i) v x = m x := by
  unfold OffHdr at hx
  exact store32_frame (by omega) (by omega)

theorem hdr_set_next (h : Hdr m b nxt prv) (hb : b.addr + BLK_SIZE ≤ W) :
    Hdr (set_next m b.addr v) b (v % W) prv where
  tag_eq := (field_store (i := 4) (j := 0) hb (by decide) (by decide) (by decide)).trans h.tag_eq
  next_eq := field_store_same hb (by decide)
  prev_eq := (field_store (i := 4) (j := 8) hb (by decide) (by decide) (by decide)).trans h.prev_eq
  size_eq := (field_store (i := 4) (j := 12) hb (by decide) (by decide) (by decide)).trans h.size_eq
  cnt_eq := (field_store (i := 4) (j := 16) hb (by decide) (by decide) (by decide)).trans h.cnt_eq

theorem hdr_set_prev (h : Hdr m b nxt prv) (hb : b.addr + BLK_SIZE ≤ W) :
    Hdr (set_prev m b.addr v) b nxt (v % W) where
  tag_eq := (field_store (i := 8) (j := 0) hb (by decide) (by decide) (by decide)).trans h.tag_eq
  next_eq := (field_store (i := 8) (j := 4) hb (by decide) (by decide) (by decide)).trans h.next_eq
  prev_eq := field_store_same hb (by decide)
  size_eq := (field_store (i := 8) (j := 12) hb (by decide) (by decide) (by decide)).trans h.size_eq
  cnt_eq := (field_store (i := 8) (j := 16) hb (by decide) (by decide) (by decide)).trans h.cnt_eq

theorem hdr_set_size (h : Hdr m b nxt prv) (hb : b.addr + BLK_SIZE ≤ W) :
    Hdr (set_size m b.addr v) { b with size := v % W } nxt prv where
  tag_eq := (field_store (i := 12) (j := 0) hb (by decide) (by decide) (by decide)).trans h.tag_eq
  next_eq := (field_store (i := 12) (j := 4) hb (by decide) (by decide) (by decide)).trans h.next_eq
  prev_eq := (field_store (i := 12) (j := 8) hb (by decide) (by decide) (by decide)).trans h.prev_eq
  size_eq := field_store_same hb (by decide)
  cnt_eq := (field_store (i := 12) (j := 16) hb (by decide) (by decide) (by decide)).trans h.cnt_eq

theorem hdr_set_used_cnt (h : Hdr m b nxt prv) (hb : b.addr + BLK_SIZE ≤ W) :
    Hdr (set_used_cnt m b.addr v) { b with cnt := v % W } nxt prv where
  tag_eq := (field_store (i := 16) (j := 0) hb (by decide) (by decide) (by decide)).trans h.tag_eq
  next_eq := (field_store (i := 16) (j := 4) hb (by decide) (by decide) (by decide)).trans h.next_eq
  prev_eq := (field_store (i := 16) (j := 8) hb (by decide) (by decide) (by decide)).trans h.prev_eq
  size_eq :=
    (field_store (i := 16) (j := 12) hb (by decide) (by decide) (by decide)).trans h.size_eq
  cnt_eq := field_store_same hb (by decide)

/-- The five stores that write a fresh header. -/
def init_hdr (m : ByteMem) (a nxt prv sz cnt : ℕ) : ByteMem :=
  set_used_cnt (set_size (set_prev (set_next (set_tag m a SYS_MEM_TAG) a nxt) a prv) a sz) a cnt

theorem hdr_init {sz cnt : ℕ} (hb : a + BLK_SIZE ≤ W) (hn : nxt < W) (hp : prv < W)
    (hs : sz < W) (hc : cnt < W) : Hdr (init_hdr m a nxt prv sz cnt) ⟨a, sz, cnt⟩ nxt prv := by
  unfold BLK_SIZE at hb
  have ht : SYS_MEM_TAG < W := by decide
  simp only [init_hdr, set_tag, set_next, set_prev, set_size, set_used_cnt]
  constructor <;>
    -- each word is written once and the later stores go elsewhere
    simp (disch := omega) only [tag, next, prev, size, used_cnt, load32_store32_same,
      load32_store32_of_disjoint, Nat.mod_eq_of_lt]

theorem init_hdr_frame {sz cnt x : ℕ} (hb : a + BLK_SIZE ≤ W) (hx : OffHdr a x) :
    init_hdr m a nxt prv sz cnt x = m x := by
  unfold OffHdr BLK_SIZE at *
  simp only [init_hdr, set_tag, set_next, set_prev, set_size, set_used_cnt]
  iterate 5 rw [store32_frame (by omega) (by omega)]

/-! ## Segments -/

/-- The list segment through the blocks `bs`. -/
def Seg (m : ByteMem) (prv a : ℕ) : List Blk → ℕ → ℕ → Prop
  | [], prv', a' => prv = prv' ∧ a = a'
  | b :: bs, prv', a' => a = b.addr ∧ ∃ nxt, Hdr m b nxt prv ∧ Seg m b.addr nxt bs prv' a'

theorem seg_append : ∀ {bs : List Blk} {prv a : ℕ},
    Seg m prv a (bs ++ cs) prv' a' ↔
      ∃ p q, Seg m prv a bs p q ∧ Seg m p q cs prv' a'
  | [], prv, a => by
      constructor
      · exact fun h => ⟨prv, a, ⟨rfl, rfl⟩, h⟩
      · rintro ⟨p, q, ⟨rfl, rfl⟩, h⟩
        exact h
  | b :: bs, prv, a => by
      simp only [List.cons_append, Seg, seg_append]
      constructor
      · rintro ⟨rfl, nxt, h₁, p, q, h₂, h₃⟩
        exact ⟨p, q, ⟨rfl, nxt, h₁, h₂⟩, h₃⟩
      · rintro ⟨p, q, ⟨rfl, nxt, h₁, h₂⟩, h₃⟩
        exact ⟨rfl, nxt, h₁, p, q, h₂, h₃⟩

/-- A segment depends on the headers of its blocks only. -/
theorem Seg.congr {hi : ℕ} : ∀ {bs : List Blk} {prv a lo : ℕ},
    Seg m prv a bs prv' a' → Layout lo hi bs → hi ≤ W →
    (∀ c ∈ bs, ∀ x, c.addr ≤ x → x < c.addr + BLK_SIZE → m' x = m x) →
    Seg m' prv a bs prv' a'
  | [], _, _, _, h, _, _, _ => h
  | b :: bs, _, _, _, ⟨ha, nxt, h₁, h₂⟩, hl, hW, hm => by
      have hb := hl.mem List.mem_cons_self
      -- the header of `b` by `hdr_congr`, the tail by induction
      refine ⟨ha, nxt, hdr_congr h₁ ?_ (hm b List.mem_cons_self), ?_⟩
      · unfold Blk.stop at hb
        omega
      · exact h₂.congr hl.2 hW fun c hc => hm c (List.mem_cons_of_mem b hc)

/-- The address a segment is entered at is its first block, or where it leads. -/
theorem Seg.entry_nil (h : Seg m prv a [] prv' a') : a = a' := h.2

theorem Seg.entry_cons (h : Seg m prv a (b :: bs) prv' a') : a = b.addr := h.1

/-! ## `sys_mem_garbage_collect` -/

/-- No address outside the headers of `bs` changed. -/
def HdrsOnly (m m' : ByteMem) (bs : List Blk) : Prop :=
  ∀ x, (∀ c ∈ bs, OffHdr c.addr x) → m' x = m x

/-- Tell the block behind a segment's entry its new predecessor. -/
theorem seg_relink {lo hi q : ℕ} (h : Seg m prv a cs prv' SYS_MEM_END_PTR)
    (hl : Layout lo hi cs) (hW : hi < W) (hq : q < W) :
    ∃ prv'', Seg (relink_prev m q a) q a cs prv'' SYS_MEM_END_PTR ∧
      HdrsOnly m (relink_prev m q a) cs := by
  cases cs with
  | nil =>
      obtain rfl := h.entry_nil
      exact ⟨q, ⟨rfl, rfl⟩, fun _ _ => by simp [relink_prev]⟩
  | cons d ds =>
      obtain ⟨rfl, nxt, hd, hds⟩ := h
      have hd' := hl.mem List.mem_cons_self
      have hds' : ∀ c ∈ ds, d.stop ≤ c.addr := fun c hc => (hl.2.mem hc).1
      unfold Blk.stop at hd' hds'
      have hdW : d.addr + BLK_SIZE ≤ W := by omega
      -- a header fits below `W`, so its address is not `END`
      have hne : d.addr ≠ SYS_MEM_END_PTR := by
        unfold SYS_MEM_END_PTR BLK_SIZE W at *
        omega
      have hrel : relink_prev m q d.addr = set_prev m d.addr q := if_pos hne
      rw [hrel]
      refine ⟨prv', ⟨rfl, nxt, ?_, ?_⟩, ?_⟩
      · simpa only [Nat.mod_eq_of_lt hq] using hdr_set_prev (v := q) hd hdW
      · -- the headers behind `d` lie above the store
        refine hds.congr hl.2 hW.le fun c hc x h₁ _ => field_frame hdW (by decide) (.inr ?_)
        have := hds' c hc
        omega
      · exact fun x hx => field_frame hdW (by decide) (hx d List.mem_cons_self)

/-- One iteration of the collecting loop: `b` grows over its free neighbour
`c`, and the rest of the list hangs behind `b`. -/
theorem absorb_step {lo hi last : ℕ} (hb : Hdr m b c.addr prv) (hc : Hdr m c nxt b.addr)
    (hcs : Seg m c.addr nxt cs last SYS_MEM_END_PTR) (hl : Layout lo hi (b :: c :: cs))
    (hW : hi < W) :
    next (absorb_blk m b.addr c.addr) c.addr = nxt ∧
    ∃ last', Seg (relink_prev (absorb_blk m b.addr c.addr) b.addr nxt) prv b.addr
        ({ b with size := b.size + (c.size + BLK_SIZE) } :: cs) last' SYS_MEM_END_PTR ∧
      HdrsOnly m (relink_prev (absorb_blk m b.addr c.addr) b.addr nxt) (b :: c :: cs) := by
  have hb' := hl.mem List.mem_cons_self
  have hc' := hl.2.mem List.mem_cons_self
  have hcs' : ∀ d ∈ cs, c.stop ≤ d.addr := fun d hd => (hl.2.2.mem hd).1
  unfold Blk.stop at hb' hc' hcs'
  have hbW : b.addr + BLK_SIZE ≤ W := by omega
  have hcW : c.addr + BLK_SIZE ≤ W := by omega
  have hnW : nxt < W := by
    rw [← hc.next_eq]
    exact load32_lt _ _
  -- the three stores of `absorb_blk`, one memory each
  have h₁ : Hdr (set_size m b.addr (size m b.addr + (size m c.addr + BLK_SIZE)))
      { b with size := b.size + (c.size + BLK_SIZE) } c.addr prv := by
    have := hdr_set_size (v := b.size + (c.size + BLK_SIZE)) hb hbW
    rw [Nat.mod_eq_of_lt (by omega)] at this
    rwa [hb.size_eq, hc.size_eq]
  set m₁ := set_size m b.addr (size m b.addr + (size m c.addr + BLK_SIZE)) with hm₁
  have f₁ : ∀ x, OffHdr b.addr x → m₁ x = m x := fun x hx => field_frame hbW (by decide) hx
  have hc₁ : Hdr m₁ c nxt b.addr := hdr_congr hc hcW fun x hx _ => f₁ x (.inr (by omega))
  have h₂ : Hdr (set_next m₁ b.addr (next m₁ c.addr))
      { b with size := b.size + (c.size + BLK_SIZE) } nxt prv := by
    rw [hc₁.next_eq]
    simpa only [Nat.mod_eq_of_lt hnW] using hdr_set_next (v := nxt) h₁ hbW
  set m₂ := set_next m₁ b.addr (next m₁ c.addr) with hm₂
  have f₂ : ∀ x, OffHdr b.addr x → m₂ x = m x := fun x hx =>
    (field_frame hbW (by decide) hx).trans (f₁ x hx)
  have hc₂ : Hdr m₂ c nxt b.addr := hdr_congr hc hcW fun x hx _ => f₂ x (.inr (by omega))
  have f₃ : ∀ x, OffHdr b.addr x → OffHdr c.addr x → set_tag m₂ c.addr 0 x = m x :=
    fun x hx hx' => (field_frame (a := c.addr) (i := 0) hcW (by decide) hx').trans (f₂ x hx)
  have hm₃ : absorb_blk m b.addr c.addr = set_tag m₂ c.addr 0 := rfl
  rw [hm₃]
  have h₃ : Hdr (set_tag m₂ c.addr 0) { b with size := b.size + (c.size + BLK_SIZE) } nxt prv :=
    hdr_congr h₂ hbW fun x _ hx => field_frame (a := c.addr) (i := 0) hcW (by decide) (.inl (by
      dsimp only at hx
      omega))
  have hcs₃ : Seg (set_tag m₂ c.addr 0) c.addr nxt cs last SYS_MEM_END_PTR := by
    apply hcs.congr hl.2.2 hW.le
    intro d hd x hx _
    have := hcs' d hd
    exact f₃ x (.inr (by omega)) (.inr (by omega))
  refine ⟨?_, ?_⟩
  · exact (field_store (a := c.addr) (i := 0) (j := 4) hcW (by decide) (by decide)
      (by decide)).trans hc₂.next_eq
  · obtain ⟨last', h₄, f₄⟩ := seg_relink hcs₃ hl.2.2 hW (q := b.addr) (by omega)
    refine ⟨last', ⟨rfl, nxt, ?_, h₄⟩, ?_⟩
    · refine hdr_congr h₃ hbW fun x _ hx => f₄ x fun d hd => .inl ?_
      have := hcs' d hd
      dsimp only at hx
      omega
    · intro x hx
      rw [f₄ x fun d hd => hx d (by simp [hd])]
      exact f₃ x (hx b (by simp)) (hx c (by simp))

/-- **The collecting loop**: on the list behind the free block `b` it returns,
and leaves `b` merged with the free blocks that follow. -/
theorem garbage_collect_loop_spec {hi : ℕ} : ∀ {cs : List Blk} {fuel lo nxt last : ℕ}
    {m : ByteMem} {b : Blk}, Hdr m b nxt prv → Seg m b.addr nxt cs last SYS_MEM_END_PTR →
    Layout lo hi (b :: cs) → hi < W → cs.length < fuel →
    ∃ m' last', sys_mem_garbage_collect_loop fuel m b.addr nxt = some m' ∧
      Seg m' prv b.addr (absorb b cs) last' SYS_MEM_END_PTR ∧ HdrsOnly m m' (b :: cs)
  | [], fuel + 1, lo, nxt, last, m, b, hb, hs, _, _, _ => by
      obtain rfl := hs.entry_nil
      refine ⟨m, b.addr, ?_, ⟨rfl, _, hb, rfl, rfl⟩, fun _ _ => rfl⟩
      rw [sys_mem_garbage_collect_loop, if_pos rfl]
  | c :: cs, fuel + 1, lo, nxt, last, m, b, hb, hs, hl, hW, hf => by
      obtain ⟨rfl, nxt', hc, hcs⟩ := hs
      have hc' := hl.2.mem List.mem_cons_self
      have hne : c.addr ≠ SYS_MEM_END_PTR := by
        unfold Blk.stop SYS_MEM_END_PTR BLK_SIZE W at *
        omega
      rw [sys_mem_garbage_collect_loop, if_neg hne, if_neg (not_not.mpr hc.tag_eq), hc.cnt_eq,
        absorb]
      by_cases hfree : c.cnt = 0
      · rw [if_pos hfree, if_pos hfree]
        obtain ⟨hn, last', ⟨-, nxt₁, h₁, h₂⟩, hfr⟩ := absorb_step hb hc hcs hl hW
        dsimp only
        rw [hn]
        -- `absorb_step` gives the entry of the tail under a name of its own
        have hn₁ : nxt' = nxt₁ := by
          cases cs with
          | nil => exact hcs.entry_nil.trans h₂.entry_nil.symm
          | cons d ds => exact hcs.entry_cons.trans h₂.entry_cons.symm
        subst hn₁
        have hl' : Layout lo hi ({ b with size := b.size + (c.size + BLK_SIZE) } :: cs) := by
          refine ⟨hl.1, hl.2.2.mono ?_⟩
          have := hl.2.1
          unfold Blk.stop at *
          dsimp only
          omega
        obtain ⟨m', last'', h₃, h₄, h₅⟩ := garbage_collect_loop_spec h₁ h₂ hl' hW
          (Nat.lt_of_succ_lt_succ hf)
        refine ⟨m', last'', h₃, h₄, ?_⟩
        intro x hx
        -- outside all headers neither this iteration nor the later ones store
        rw [h₅ x fun d hd => ?_, hfr x hx]
        rcases List.mem_cons.mp hd with rfl | hd
        · exact hx b (by simp)
        · exact hx d (by simp [hd])
      · rw [if_neg hfree, if_neg hfree]
        -- a used block ends the loop with the memory as it is
        exact ⟨m, last, rfl, ⟨rfl, _, hb, rfl, _, hc, hcs⟩, fun _ _ => rfl⟩

end CsBoot.Malloc
