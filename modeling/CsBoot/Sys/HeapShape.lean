/-
The shape of the block list over runs, and the bytes it accounts for.

Two properties that a look at the list can check. That the list is well formed
(`WfList`): contiguous blocks, right back links, no free neighbours. That it
leaks nothing (`NoLeak`): the blocks account for the whole arena, and when
everything has been freed the heap is as it was at the start.

`sys_malloc` breaks each of them in a way of its own. A split in the middle of
the list leaves a wrong back link. A block that is too large by at most two
headers is not split, but its size is set to the size asked for all the same:
the slack behind it then belongs to no block. The guards `FitsOrLast` and
`FitsOrSplits` say when neither happens.
-/
import CsBoot.Sys.HeapRun

set_option autoImplicit false

namespace CsBoot.Malloc

open ByteMem SYS_MEM_BLK_T

variable {m : ByteMem} {s : Heap} {lo hi : ℕ} {bs : List Blk}

/-! ## The list is well formed -/

/-- Following `next` from `start` visits exactly the blocks `bs`. -/
structure WfList (m : ByteMem) (start : ℕ) (bs : List Blk) : Prop where
  ne : bs ≠ []
  /-- Tags, links in both directions, and the end marker. -/
  links : ∃ last, Seg m SYS_MEM_END_PTR start bs last SYS_MEM_END_PTR
  increasing : bs.Pairwise fun b c => b.addr < c.addr
  contiguous : Contig bs
  mark : ∀ b ∈ bs, b.cnt = 0 ∨ b.cnt = 1
  noAdj : NoAdj bs

/-- The block taken fits exactly, or is the last of the list. -/
def FitsOrLast (m : ByteMem) (blk sz : ℕ) : Prop :=
  size m blk = sz ∨ next m blk = SYS_MEM_END_PTR

/-- The block taken fits exactly, or is the last of the list and is split. -/
def FitsOrSplits (m : ByteMem) (blk sz : ℕ) : Prop :=
  size m blk = sz ∨ (splits m blk sz ∧ next m blk = SYS_MEM_END_PTR)

instance (m : ByteMem) (blk sz : ℕ) : Decidable (FitsOrLast m blk sz) :=
  inferInstanceAs (Decidable (_ ∨ _))

instance (m : ByteMem) (blk sz : ℕ) : Decidable (FitsOrSplits m blk sz) :=
  inferInstanceAs (Decidable (_ ∨ _))

/-- A block that fits exactly is not split. -/
theorem FitsOrLast.splitAtEnd {blk sz : ℕ} (h : FitsOrLast m blk sz) : SplitAtEnd m blk sz := by
  intro hsplit
  rcases h with rfl | h
  · have hlt : size m blk < W := load32_lt _ _
    rw [splits, sub32_of_le hlt le_rfl, Nat.sub_self] at hsplit
    omega
  · exact h

theorem FitsOrSplits.fitsOrLast {blk sz : ℕ} (h : FitsOrSplits m blk sz) : FitsOrLast m blk sz :=
  h.imp_right And.right

theorem ListStep.contig {bs' : List Blk} (h : ListStep FitsOrLast m lo hi bs bs')
    (hcon : Contig bs) : Contig bs' := by
  cases h with
  | same => exact hcon
  | carve hheap hbs hfit hR =>
      subst hbs
      -- the guard speaks of header words, the list lemma of blocks
      obtain ⟨hsize, -, hnext⟩ := hheap.fields
      apply append_carve_contig hcon
      rcases hR with hR | hR
      · exact .inl (hsize.symm.trans hR)
      · exact .inr (hnext.mp hR)
  | release hl hbs =>
      subst hbs
      exact release_contig hl hcon

/-- **The list over runs.** As long as every block that `sys_malloc` takes fits
exactly or is the last of the list, the list is well formed. -/
theorem list_wf (info : SYS_MEM_INFO_T) (m : ByteMem) {start size : ℕ}
    (hsize : SYS_MEM_MIN_SIZE ≤ size) (hend : start + size < W)
    (h : Reaches Heap.step (OnMalloc FitsOrLast) (Heap.boot info m start size) s) :
    ∃ bs, WfList s.mem start bs := by
  obtain ⟨bs, hinv, hinfo, hcon⟩ := (boot_inv info m hsize hend).run (P := Contig)
    (List.isChain_singleton _) (fun _ _ _ h => h.splitAtEnd) (fun _ _ _ hcon hl => hl.contig hcon) h
  have hstart : s.info.start_ptr = start := by rw [hinfo, boot_start info m hsize]
  refine ⟨bs, hinv.heap.ne, hstart ▸ hinv.heap.seg,
    hinv.heap.layout.pairwise.imp fun {b c} hbc => ?_, hcon, ?_, hinv.noAdj⟩
  · unfold Blk.stop BLK_SIZE at hbc
    omega
  · intro b hb
    have := hinv.cnt_le b hb
    omega

/-- A run within the guard: the freed block is reused for a request of its
size. -/
theorem list_wf_run : ∃ s, runOps Heap.step (OnMalloc FitsOrLast) boot_zero
      [.malloc 64, .malloc 20, .free 0x1020, .malloc 60] = some s ∧
    ∃ bs, WfList s.mem 0x1000 bs := by
  have hrun : (runOps Heap.step (OnMalloc FitsOrLast) boot_zero
      [.malloc 64, .malloc 20, .free 0x1020, .malloc 60]).isSome := by
    decide +kernel
  obtain ⟨s, hs⟩ := Option.isSome_iff_exists.mp hrun
  exact ⟨s, hs, list_wf _ _ (by decide) (by decide) (.of_runOps _ hs)⟩

/-- A split in the middle: the block at `0x1420` keeps `0x1000` as its
predecessor, and the list reaches it from `0x1030`. -/
theorem list_not_wf : ¬ ∀ s, Reaches Heap.step (fun _ _ => True) boot_zero s →
    ∃ bs, WfList s.mem 0x1000 bs := by
  intro hwf
  have hrun : (runOps Heap.step (fun _ _ => True) boot_zero
      [.malloc 1024, .malloc 16, .free 0x1020, .malloc 16]).map (fun s =>
        (next s.mem 0x1000, next s.mem 0x1030, prev s.mem 0x1420)) =
      some (0x1030, 0x1420, 0x1000) := by
    decide +kernel
  obtain ⟨s, hs, hrun⟩ := Option.map_eq_some_iff.mp hrun
  simp only [Prod.mk.injEq] at hrun
  obtain ⟨hnext₀, hnext₁, hprev₂⟩ := hrun
  obtain ⟨bs, hbs⟩ := hwf s (.of_runOps _ hs)
  obtain ⟨last, hseg⟩ := hbs.links
  -- the first two blocks are followed by a third, since neither link is `END`
  cases bs with
  | nil => exact hbs.ne rfl
  | cons b₀ bs =>
      obtain ⟨h₀, n₀, hdr₀, hseg⟩ := hseg
      rw [← hdr₀.next_eq, ← h₀, hnext₀] at hseg
      cases bs with
      | nil => exact absurd hseg.entry_nil (by decide)
      | cons b₁ bs =>
          obtain ⟨h₁, n₁, hdr₁, hseg⟩ := hseg
          rw [← hdr₁.next_eq, ← h₁, hnext₁] at hseg
          cases bs with
          | nil => exact absurd hseg.entry_nil (by decide)
          | cons b₂ bs =>
              obtain ⟨h₂, n₂, hdr₂, -⟩ := hseg
              have h := hdr₂.prev_eq
              rw [← h₂, hprev₂] at h
              exact absurd h (by decide)

/-! ## Nothing leaks -/

/-- What `dump_malloc_list` prints on a heap. -/
theorem dump_malloc_list_spec {last : ℕ} : ∀ {bs : List Blk} {fuel lo prv a : ℕ},
    Seg m prv a bs last SYS_MEM_END_PTR → Layout lo hi bs → hi < W → bs.length < fuel →
    dump_malloc_list fuel m a = some (bs.map fun b => (b.addr, b.size, b.cnt))
  | [], fuel + 1, _, _, _, hs, _, _, _ => by
      obtain rfl := hs.entry_nil
      rw [dump_malloc_list, if_pos rfl]
      rfl
  | b :: bs, fuel + 1, _, _, _, hs, hl, hW, hf => by
      obtain ⟨rfl, nxt, hb, hbs⟩ := hs
      have hb' := hl.mem List.mem_cons_self
      have hne : b.addr ≠ SYS_MEM_END_PTR := by
        unfold Blk.stop SYS_MEM_END_PTR BLK_SIZE W at *
        omega
      rw [dump_malloc_list, if_neg hne, if_neg (not_not.mpr hb.tag_eq), hb.next_eq,
        dump_malloc_list_spec hbs hl.2 hW (by simp only [List.length_cons] at hf; omega),
        hb.size_eq, hb.cnt_eq]
      rfl

/-- `sys_malloc n` hands out a block. -/
def Heap.Succeeds (s : Heap) (n : ℕ) : Prop :=
  ∃ m p, sys_malloc s.info s.mem n = some (m, p) ∧ p ≠ 0

/-- The list accounts for the whole arena of `size` bytes at `start`, and once
nothing is live it is the list of the fresh heap `s₀`, with the same requests
succeeding. -/
structure NoLeak (s₀ : Heap) (start size : ℕ) (s : Heap) : Prop where
  total : ∃ rows, dump_malloc_list LOOP_BOUND s.mem start = some rows ∧
    (rows.map fun r => r.2.1 + BLK_SIZE).sum = size
  fresh : s.live = [] →
    dump_malloc_list LOOP_BOUND s.mem start = some [(start, size - BLK_SIZE, 0)]
  again : s.live = [] → ∀ n, s₀.Succeeds n → s.Succeeds n

/-- A heap without live payloads that accounts for all its bytes is one free
block. -/
theorem HeapInv.eq_single (h : HeapInv s hi bs) (htot : s.info.start_ptr + total bs = hi)
    (hlive : s.live = []) :
    bs = [⟨s.info.start_ptr, hi - s.info.start_ptr - BLK_SIZE, 0⟩] := by
  have hfree : ∀ b ∈ bs, b.cnt = 0 := by
    intro b hb
    by_contra hcnt
    obtain ⟨n, hn⟩ := h.used b hb hcnt
    rw [hlive] at hn
    cases hn
  -- two free neighbours would have been merged, so one block is left
  match bs, h.heap.ne with
  | [b], _ =>
      have hb := hfree b (by simp)
      have hl := h.heap.layout
      simp only [Layout, Blk.stop, total_cons, total_nil] at hl htot
      obtain ⟨a, sz, cnt⟩ := b
      dsimp only at hb hl htot ⊢
      have ha : a = s.info.start_ptr := by omega
      have hsz : sz = hi - s.info.start_ptr - BLK_SIZE := by omega
      rw [hb, ← hsz, ← ha]
  | b :: c :: bs, _ =>
      obtain ⟨h₁ | h₁, -⟩ := List.isChain_cons_cons.mp h.noAdj
      · exact absurd (hfree b (by simp)) h₁
      · exact absurd (hfree c (by simp)) h₁

/-- On a single free block `sys_malloc` succeeds when first fit does. -/
theorem HeapInv.succeeds_iff {b : Blk} (h : HeapInv s hi [b]) (n : ℕ) :
    s.Succeeds n ↔ (alloc (round_size n) [b]).isSome := by
  have hlast : Takes SplitAtEnd s.info s.mem n := by
    intro blk hblk _
    rw [h.heap.find_eq, Option.some.injEq, Option.map_eq_some_iff] at hblk
    obtain ⟨c, hc, rfl⟩ := hblk
    obtain rfl := List.mem_singleton.mp (List.mem_of_find?_eq_some hc)
    exact (@IsHeap.fields _ _ _ _ [] [] h.heap).2.2.mpr rfl
  rcases sys_malloc_spec h.heap hlast with ⟨ha, hcall⟩ | ⟨p, bs', m', ha, hcall, -⟩
  · rw [ha]
    refine ⟨?_, fun h => by cases h⟩
    rintro ⟨m', p, hcall', hp⟩
    rw [hcall] at hcall'
    cases hcall'
    exact absurd rfl hp
  · rw [ha]
    refine ⟨fun _ => rfl, fun _ => ⟨m', p, hcall, ?_⟩⟩
    obtain ⟨-, c, -, -, -, -, rfl, -⟩ := alloc_eq_some ha
    unfold Blk.ptr BLK_SIZE
    omega

theorem ListStep.total {bs' : List Blk} (h : ListStep FitsOrSplits m lo hi bs bs') :
    total bs' = total bs := by
  cases h with
  | same => rfl
  | carve hheap hbs hfit hR =>
      subst hbs
      obtain ⟨-, hsz⟩ := Blk.fits_iff.mp hfit
      rw [total_append, total_append, carve_total hsz]
      -- the guard in terms of the list: an exact fit, or a split
      exact hR.imp (hheap.fields.1.symm.trans ·) fun h => (hheap.splits_iff hsz).mp h.1
  | release hl hbs =>
      subst hbs
      exact release_total hl

/-- **No leak over runs.** As long as every block that `sys_malloc` takes fits
exactly or is the last of the list and split, the blocks account for the arena,
and a heap that is all free again is the fresh one. -/
theorem no_leak (info : SYS_MEM_INFO_T) (m : ByteMem) {start size : ℕ}
    (hsize : SYS_MEM_MIN_SIZE ≤ size) (hend : start + size < W)
    (h : Reaches Heap.step (OnMalloc FitsOrSplits) (Heap.boot info m start size) s) :
    NoLeak (Heap.boot info m start size) start size s := by
  have h₀ := boot_inv info m hsize hend
  have hbig : BLK_SIZE ≤ size := le_trans (by decide) hsize
  obtain ⟨bs, hinv, hinfo, htot⟩ := h₀.run (P := fun bs => total bs = size)
    (by rw [total_cons, total_nil]; dsimp only; omega) (fun _ _ _ h => h.fitsOrLast.splitAtEnd)
    (fun _ _ _ htot hl => hl.total.trans htot) h
  have hs : s.info.start_ptr = start := by rw [hinfo, boot_start info m hsize]
  have hdump : dump_malloc_list LOOP_BOUND s.mem start =
      some (bs.map fun b => (b.addr, b.size, b.cnt)) := by
    obtain ⟨last, hseg⟩ := hinv.heap.seg
    rw [← hs]
    exact dump_malloc_list_spec hseg hinv.heap.layout hend hinv.heap.length_lt
  have hsingle : s.live = [] → bs = [⟨start, size - BLK_SIZE, 0⟩] := by
    intro hlive
    have := hinv.eq_single (by rw [hs, htot]) hlive
    rwa [hs, Nat.add_sub_cancel_left] at this
  refine ⟨⟨_, hdump, ?_⟩, ?_, ?_⟩
  · rw [List.map_map, ← htot]
    rfl
  · intro hlive
    rw [hdump, hsingle hlive]
    rfl
  · intro hlive n hn
    -- both heaps are the same single block, and first fit looks at the list only
    obtain rfl := hsingle hlive
    exact (hinv.succeeds_iff n).mpr ((h₀.succeeds_iff n).mp hn)

/-- A run within the guard that frees everything again. -/
theorem no_leak_run : ∃ s, runOps Heap.step (OnMalloc FitsOrSplits) boot_zero
      [.malloc 64, .malloc 20, .free 0x1020, .malloc 60, .free 0x1080, .free 0x1020] = some s ∧
    NoLeak boot_zero 0x1000 0x40000 s := by
  have hrun : (runOps Heap.step (OnMalloc FitsOrSplits) boot_zero
      [.malloc 64, .malloc 20, .free 0x1020, .malloc 60, .free 0x1080, .free 0x1020]).isSome := by
    decide +kernel
  obtain ⟨s, hs⟩ := Option.isSome_iff_exists.mp hrun
  exact ⟨s, hs, no_leak _ _ (by decide) (by decide) (.of_runOps _ hs)⟩

/-- A request that leaves two headers of slack: they are lost. -/
theorem leaks : ¬ ∀ s, Reaches Heap.step (fun _ _ => True) boot_zero s →
    NoLeak boot_zero 0x1000 0x40000 s := by
  intro hleak
  have hrun : (runOps Heap.step (fun _ _ => True) boot_zero [.malloc 0x3ffa0]).bind (fun s =>
      dump_malloc_list LOOP_BOUND s.mem 0x1000) = some [(0x1000, 0x3ffa0, 1)] := by
    decide +kernel
  obtain ⟨s, hs, hdump⟩ := Option.bind_eq_some_iff.mp hrun
  obtain ⟨rows, hrows, hsum⟩ := (hleak s (.of_runOps _ hs)).total
  rw [hdump] at hrows
  cases hrows
  exact absurd hsum (by decide)

end CsBoot.Malloc
