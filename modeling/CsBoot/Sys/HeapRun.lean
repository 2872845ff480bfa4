/-
The heap over whole runs.

A run starts from `sys_init_memory` and consists of calls of `sys_malloc` and
`sys_free` and of writes of the program into its live payloads. The state
remembers which payloads are live, which the code itself does not know.

`HeapInv` ties the three together: the memory holds a block list, no two
neighbours are free, and the used blocks are the live payloads. It is kept by
every step except one kind, a `sys_malloc` that splits a block in the middle of
the list (`HeapInv.step`). Such a split leaves a stale `prev` field, and the
last section follows one to the release that writes into a live payload.
-/
import CsBoot.Lib.Run
import CsBoot.Sys.MallocSpec

set_option autoImplicit false

namespace CsBoot.Malloc

open ByteMem SYS_MEM_BLK_T

/-! ## Runs -/

/-- The memory, `sys_mem_info`, and the live payloads `(p, n)`. -/
structure Heap where
  info : SYS_MEM_INFO_T
  mem : ByteMem
  live : List (ℕ × ℕ)

/-- A call of the allocator, or a write of the program into a payload. -/
inductive HeapOp
  | malloc (n : ℕ)
  | free (p : ℕ)
  | write (a : ℕ) (v : UInt8)
deriving DecidableEq

namespace Heap

/-- After `sys_init_memory`. -/
def boot (info : SYS_MEM_INFO_T) (m : ByteMem) (start size : ℕ) : Heap :=
  { info := (sys_init_memory info m start size).1
    mem := (sys_init_memory info m start size).2
    live := [] }

/-- What the program may do: ask for a size that is a C `int`, free a pointer
it holds, and write inside a payload it holds. -/
def Allowed (s : Heap) : HeapOp → Prop
  | .malloc n => n < 2147483648
  | .free p => ∃ b ∈ s.live, b.1 = p
  | .write a _ => ∃ b ∈ s.live, b.1 ≤ a ∧ a < b.1 + b.2

instance (s : Heap) : (op : HeapOp) → Decidable (s.Allowed op)
  | .malloc n => inferInstanceAs (Decidable (n < 2147483648))
  | .free p => inferInstanceAs (Decidable (∃ b ∈ s.live, b.1 = p))
  | .write a _ => inferInstanceAs (Decidable (∃ b ∈ s.live, b.1 ≤ a ∧ a < b.1 + b.2))

/-- The effect of an allowed operation; `none` when the call does not return. -/
def exec (s : Heap) : HeapOp → Option Heap
  -- `NULL` adds nothing to what the program holds
  | .malloc n => (sys_malloc s.info s.mem n).map fun r =>
      { s with mem := r.1, live := if r.2 = 0 then s.live else (r.2, n) :: s.live }
  | .free p => (sys_free s.mem p).map fun m =>
      { s with mem := m, live := s.live.filter fun b => b.1 ≠ p }
  | .write a v => some { s with mem := store8 s.mem a v }

/-- One step of a run. -/
def step (s : Heap) (op : HeapOp) : Option Heap :=
  if s.Allowed op then s.exec op else none

end Heap

/-- The guard on runs: every block that a `sys_malloc` takes satisfies `R`. -/
def OnMalloc (R : ByteMem → ℕ → ℕ → Prop) (s : Heap) : HeapOp → Prop
  | .malloc n => Takes R s.info s.mem n
  | _ => True

instance (R : ByteMem → ℕ → ℕ → Prop) [∀ m blk sz, Decidable (R m blk sz)] (s : Heap) :
    (op : HeapOp) → Decidable (OnMalloc R s op)
  | .malloc n => inferInstanceAs (Decidable (Takes R s.info s.mem n))
  | .free _ | .write _ _ => inferInstanceAs (Decidable True)

/-! ## The invariant -/

/-- The memory holds the block list `bs`, whose used blocks are the live
payloads. -/
structure HeapInv (s : Heap) (hi : ℕ) (bs : List Blk) : Prop where
  heap : IsHeap s.mem s.info.start_ptr hi bs
  cnt_le : ∀ b ∈ bs, b.cnt ≤ 1
  noAdj : NoAdj bs
  used : ∀ b ∈ bs, b.cnt ≠ 0 → ∃ n, (b.ptr, n) ∈ s.live
  owned : ∀ l ∈ s.live, ∃ b ∈ bs, b.cnt ≠ 0 ∧ b.ptr = l.1 ∧ l.2 ≤ b.size
  distinct : s.live.Pairwise fun l l' => l.1 ≠ l'.1

theorem boot_inv (info : SYS_MEM_INFO_T) (m : ByteMem) {start size : ℕ}
    (hsize : SYS_MEM_MIN_SIZE ≤ size) (hend : start + size < W) :
    HeapInv (Heap.boot info m start size) (start + size) [⟨start, size - BLK_SIZE, 0⟩] where
  heap := by
    have h := sys_init_memory_isHeap info m hsize hend
    rw [Heap.boot, sys_init_memory, if_neg hsize.not_gt] at *
    exact h
  cnt_le := by simp
  noAdj := List.isChain_singleton _
  used := by simp
  owned := fun l hl => absurd hl List.not_mem_nil
  distinct := List.Pairwise.nil

theorem le_round_size {n : ℕ} (hn : n < 2147483648) : n ≤ round_size n := by
  unfold round_size W
  omega

variable {s s' : Heap} {hi : ℕ} {bs bs' : List Blk}

/-- A successful first fit keeps the invariant. -/
theorem HeapInv.malloc {n p : ℕ} {m' : ByteMem} (h : HeapInv s hi bs) (hn : n < 2147483648)
    (ha : alloc (round_size n) bs = some (p, bs')) (hm : IsHeap m' s.info.start_ptr hi bs') :
    HeapInv { s with mem := m', live := (p, n) :: s.live } hi bs' := by
  have hadj := alloc_noAdj h.noAdj ha
  obtain ⟨pre, b, post, rfl, -, hfit, rfl, rfl⟩ := alloc_eq_some ha
  obtain ⟨hb, hsz⟩ := Blk.fits_iff.mp hfit
  -- the used blocks afterwards: those before, and the one given away
  have hused : ∀ c : Blk, c.cnt ≠ 0 → (c ∈ pre ++ carve b (round_size n) post ↔
      c = { b with size := round_size n, cnt := 1 } ∨ c ∈ pre ++ b :: post) := by
    intro c hc
    have hcb : c ≠ b := fun h => hc (h ▸ hb)
    rw [List.mem_append, mem_carve_used hc, List.mem_append, List.mem_cons, or_iff_right hcb]
    exact or_left_comm
  refine ⟨hm, ?_, hadj, ?_, ?_, ?_⟩
  · intro c hc
    by_cases hcnt : c.cnt = 0
    · omega
    · rcases (hused c hcnt).mp hc with rfl | hc
      · exact le_refl 1
      · exact h.cnt_le c hc
  · intro c hc hcnt
    rcases (hused c hcnt).mp hc with rfl | hc
    · exact ⟨n, List.mem_cons_self⟩
    · obtain ⟨k, hk⟩ := h.used c hc hcnt
      exact ⟨k, List.mem_cons_of_mem _ hk⟩
  · intro l hl
    rcases List.mem_cons.mp hl with rfl | hl
    · exact ⟨_, (hused _ one_ne_zero).mpr (.inl rfl), one_ne_zero, rfl, le_round_size hn⟩
    · obtain ⟨c, hc, hcnt, hcl⟩ := h.owned l hl
      exact ⟨c, (hused c hcnt).mpr (.inr hc), hcnt, hcl⟩
  · -- a live payload belongs to a used block, and `b` was free
    refine List.Pairwise.cons (?_) h.distinct
    intro l hl heq
    obtain ⟨c, hc, hcnt, hcl, -⟩ := h.owned l hl
    rcases h.heap.layout.apart hc (by simp : b ∈ pre ++ b :: post) with rfl | hcb | hcb
    · exact hcnt hb
    all_goals
      unfold Blk.ptr Blk.stop at *
      dsimp only at heq
      unfold BLK_SIZE at *
      omega

/-- Releasing a live payload keeps the invariant. -/
theorem HeapInv.free {b : Blk} {pre post : List Blk} {m' : ByteMem}
    (h : HeapInv s hi (pre ++ b :: post))
    (hm : IsHeap m' s.info.start_ptr hi (release b.ptr (pre ++ b :: post))) :
    HeapInv { s with mem := m', live := s.live.filter fun l => l.1 ≠ b.ptr } hi
      (release b.ptr (pre ++ b :: post)) := by
  have hl := h.heap.layout
  refine ⟨hm, ?_, release_noAdj hl h.noAdj, ?_, ?_,
    h.distinct.filter _⟩
  · intro c hc
    by_cases hcnt : c.cnt = 0
    · omega
    · exact h.cnt_le c ((mem_release_used hl hcnt).mp hc).1
  · intro c hc hcnt
    obtain ⟨hc, hne⟩ := (mem_release_used hl hcnt).mp hc
    obtain ⟨n, hn⟩ := h.used c hc hcnt
    exact ⟨n, List.mem_filter.mpr ⟨hn, by simpa using hne⟩⟩
  · intro l hlive
    obtain ⟨hlive, hne⟩ := List.mem_filter.mp hlive
    obtain ⟨c, hc, hcnt, hcl, hsz⟩ := h.owned l hlive
    exact ⟨c, (mem_release_used hl hcnt).mpr ⟨hc, by simpa [hcl] using hne⟩, hcnt, hcl, hsz⟩

/-- A write into a live payload reaches no header. -/
theorem HeapInv.write {a : ℕ} {v : UInt8} (h : HeapInv s hi bs) (ha : s.Allowed (.write a v)) :
    HeapInv { s with mem := store8 s.mem a v } hi bs := by
  obtain ⟨l, hl, hla, hal⟩ := ha
  obtain ⟨b, hb, -, hbl, hsz⟩ := h.owned l hl
  have hbhi := h.heap.addr_le hb
  have hlt := h.heap.lt
  obtain ⟨last, hs⟩ := h.heap.seg
  refine ⟨⟨h.heap.ne, ⟨last, hs.congr h.heap.layout hlt.le ?_⟩,
    h.heap.layout, hlt⟩, h.cnt_le, h.noAdj, h.used, h.owned, h.distinct⟩
  intro c hc x hx hx'
  unfold Blk.ptr at hbl
  apply store8_frame (by omega)
  rintro rfl
  rcases h.heap.layout.apart hb hc with rfl | hbc | hbc
  all_goals
    unfold Blk.stop at *
    omega

/-! ## One step, and the run rule -/

/-- A call, as opposed to a write of the program. -/
def HeapOp.IsCall : HeapOp → Prop
  | .write _ _ => False
  | _ => True

/-- Payloads that are live in both states hold the same bytes. -/
def Heap.Kept (s s' : Heap) : Prop :=
  ∀ l ∈ s.live, l ∈ s'.live → ∀ x, l.1 ≤ x → x < l.1 + l.2 → s'.mem x = s.mem x

theorem HeapInv.kept (h : HeapInv s hi bs) (hm : PayloadsKept s.mem s'.mem bs) : s.Kept s' := by
  intro l hl _ x hx hx'
  obtain ⟨b, hb, hcnt, hbl, hsz⟩ := h.owned l hl
  apply hm b hb hcnt x (hbl ▸ hx)
  unfold Blk.ptr Blk.stop at *
  omega

/-- What a step may make of the block list: nothing, a block carved that `R`
holds of, or a block released. -/
inductive ListStep (R : ByteMem → ℕ → ℕ → Prop) (m : ByteMem) (lo hi : ℕ) (bs : List Blk) :
    List Blk → Prop
  | same : ListStep R m lo hi bs bs
  | carve {pre post : List Blk} {b : Blk} {sz : ℕ} :
      IsHeap m lo hi (pre ++ b :: post) → bs = pre ++ b :: post → b.fits sz = true →
      R m b.addr sz → ListStep R m lo hi bs (pre ++ CsBoot.Malloc.carve b sz post)
  | release {pre post : List Blk} {b : Blk} :
      Layout lo hi (pre ++ b :: post) → bs = pre ++ b :: post →
      ListStep R m lo hi bs (CsBoot.Malloc.release b.ptr bs)

/-- **One step.** An allowed operation returns and keeps the invariant, when
every split is at the end of the list. A call keeps the live payloads. -/
theorem HeapInv.step {R : ByteMem → ℕ → ℕ → Prop} {op : HeapOp} (h : HeapInv s hi bs)
    (hR : ∀ m blk sz, R m blk sz → SplitAtEnd m blk sz) (hok : OnMalloc R s op)
    (hop : s.Allowed op) :
    ∃ s' bs', s.step op = some s' ∧ HeapInv s' hi bs' ∧ s'.info = s.info ∧
      ListStep R s.mem s.info.start_ptr hi bs bs' ∧ (op.IsCall → s.Kept s') := by
  rw [Heap.step, if_pos hop]
  cases op with
  | malloc n =>
      rcases sys_malloc_spec h.heap fun blk hb => hR _ _ _ (hok blk hb) with
        ⟨-, hcall⟩ | ⟨p, bs', m', ha, hcall, hm, hkept⟩
      · refine ⟨s, bs, ?_, h, rfl, .same, fun _ _ _ _ _ _ _ => rfl⟩
        rw [Heap.exec, hcall]
        rfl
      · have hinv := h.malloc hop ha hm
        have hfind := h.heap.find_eq (round_size n)
        obtain ⟨pre, b, post, rfl, hpre, hfit, rfl, rfl⟩ := alloc_eq_some ha
        rw [List.find?_append, List.find?_eq_none.mpr fun c hc => by simp [hpre c hc],
          List.find?_cons_of_pos hfit] at hfind
        refine ⟨_, _, ?_, hinv, rfl, .carve h.heap rfl hfit (hok b.addr hfind), fun _ =>
          h.kept hkept⟩
        rw [Heap.exec, hcall, Option.map_some, if_neg]
        unfold Blk.ptr BLK_SIZE
        omega
  | free p =>
      obtain ⟨l, hl, rfl⟩ := hop
      -- a pointer the program holds belongs to a block of the list
      obtain ⟨b, hb, -, hbl, -⟩ := h.owned l hl
      obtain ⟨pre, post, rfl⟩ := List.append_of_mem hb
      obtain ⟨m', hcall, hm, hkept⟩ := sys_free_spec h.heap
      refine ⟨_, _, ?_, h.free hm, rfl, .release h.heap.layout rfl, fun _ => h.kept hkept⟩
      rw [Heap.exec, ← hbl, hcall]
      rfl
  | write a v => exact ⟨_, bs, rfl, h.write hop, rfl, .same, fun hcall => hcall.elim⟩

/-- **The run rule.** A property of block lists that holds at the start and is
kept by every carving that `R` admits and by every release holds in every state
of a run whose allocations satisfy `R`. -/
theorem HeapInv.run {R : ByteMem → ℕ → ℕ → Prop} {P : List Blk → Prop} {s₀ : Heap}
    (h₀ : HeapInv s₀ hi bs) (hP : P bs) (hR : ∀ m blk sz, R m blk sz → SplitAtEnd m blk sz)
    (hstep : ∀ m bs bs', P bs → ListStep R m s₀.info.start_ptr hi bs bs' → P bs')
    (h : Reaches Heap.step (OnMalloc R) s₀ s) :
    ∃ bs, HeapInv s hi bs ∧ s.info = s₀.info ∧ P bs := by
  refine h.invariant (P := fun s => ∃ bs, HeapInv s hi bs ∧ s.info = s₀.info ∧ P bs)
    ⟨bs, h₀, rfl, hP⟩ ?_
  rintro s op s' ⟨bs, hinv, hinfo, hPs⟩ hok hs
  -- a step of the run was allowed, or it would not have returned
  have hop : s.Allowed op := by
    by_contra hop
    rw [Heap.step, if_neg hop] at hs
    cases hs
  obtain ⟨s'', bs', hs'', hinv', hinfo', hl, -⟩ := hinv.step hR hok hop
  obtain rfl := Option.some.inj (hs''.symm.trans hs)
  rw [hinfo] at hl hinfo'
  exact ⟨bs', hinv', hinfo', hstep _ _ _ hPs hl⟩

/-! ## Heap safety -/

/-- Live payloads are disjoint and inside the arena, and every call that `ok`
admits returns and keeps their bytes. -/
structure Heap.Safe (ok : Heap → HeapOp → Prop) (start size : ℕ) (s : Heap) : Prop where
  disjoint : s.live.Pairwise fun l l' => l.1 + l.2 ≤ l'.1 ∨ l'.1 + l'.2 ≤ l.1
  inside : ∀ l ∈ s.live, start ≤ l.1 ∧ l.1 + l.2 ≤ start + size
  calls : ∀ op : HeapOp, op.IsCall → ok s op → s.Allowed op →
    ∃ s', s.step op = some s' ∧ s.Kept s'

theorem HeapInv.safe {R : ByteMem → ℕ → ℕ → Prop} {start size : ℕ}
    (h : HeapInv s (start + size) bs) (hstart : s.info.start_ptr = start)
    (hR : ∀ m blk sz, R m blk sz → SplitAtEnd m blk sz) :
    s.Safe (OnMalloc R) start size where
  disjoint := by
    refine h.distinct.imp_of_mem fun {l l'} hl hl' hne => ?_
    obtain ⟨b, hb, -, hbl, hsz⟩ := h.owned l hl
    -- two live payloads sit in two blocks, and blocks lie apart
    obtain ⟨b', hb', -, hbl', hsz'⟩ := h.owned l' hl'
    rcases h.heap.layout.apart hb hb' with rfl | hbb | hbb
    · exact absurd (hbl.symm.trans hbl') hne
    all_goals
      unfold Blk.ptr Blk.stop at *
      omega
  inside := by
    intro l hl
    obtain ⟨b, hb, -, hbl, hsz⟩ := h.owned l hl
    have hb' := h.heap.layout.mem hb
    unfold Blk.ptr Blk.stop at *
    omega
  calls := by
    intro op hcall hok hop
    obtain ⟨s', -, hs, -, -, -, hkept⟩ := h.step hR hok hop
    exact ⟨s', hs, hkept hcall⟩

theorem boot_start (info : SYS_MEM_INFO_T) (m : ByteMem) {start size : ℕ}
    (hsize : SYS_MEM_MIN_SIZE ≤ size) : (Heap.boot info m start size).info.start_ptr = start := by
  rw [Heap.boot, sys_init_memory, if_neg hsize.not_gt]

/-- **Heap safety over runs.** As long as `sys_malloc` splits only the last
block of the list, live payloads stay disjoint, inside the arena, and untouched
by the allocator. -/
theorem heap_safe (info : SYS_MEM_INFO_T) (m : ByteMem) {start size : ℕ}
    (hsize : SYS_MEM_MIN_SIZE ≤ size) (hend : start + size < W)
    (h : Reaches Heap.step (OnMalloc SplitAtEnd) (Heap.boot info m start size) s) :
    s.Safe (OnMalloc SplitAtEnd) start size := by
  obtain ⟨bs, hinv, hinfo, -⟩ := (boot_inv info m hsize hend).run (P := fun _ => True) trivial
    (fun _ _ _ h => h) (fun _ _ _ _ _ => trivial) h
  exact hinv.safe (hinfo ▸ boot_start info m hsize) fun _ _ _ h => h

/-- A heap of 256 KiB in a memory that was all zero. -/
def boot_zero : Heap := Heap.boot ⟨0, 0, 0, 0, 0⟩ (fun _ => 0) 0x1000 0x40000

/-- A run within the guard, with a reuse of a freed block. -/
theorem heap_safe_run : ∃ s, runOps Heap.step (OnMalloc SplitAtEnd) boot_zero
      [.malloc 100, .malloc 20, .write 0x1020 7, .free 0x1020, .malloc 100] = some s ∧
    s.Safe (OnMalloc SplitAtEnd) 0x1000 0x40000 := by
  have hrun : (runOps Heap.step (OnMalloc SplitAtEnd) boot_zero
      [.malloc 100, .malloc 20, .write 0x1020 7, .free 0x1020, .malloc 100]).isSome := by
    decide +kernel
  obtain ⟨s, hs⟩ := Option.isSome_iff_exists.mp hrun
  exact ⟨s, hs, heap_safe _ _ (by decide) (by decide) (.of_runOps _ hs)⟩

/-- The run that reaches a stale back link. The fifth call splits the free block
at `0x1060`, which has a successor; the merges that follow leave a free block
whose predecessor, by its `prev` field, is `0x1060`, an address now inside the
112 bytes given away at `0x1020`. -/
def stale_run : List HeapOp :=
  [.malloc 64, .malloc 1024, .malloc 16, .free 0x1080, .malloc 16, .malloc 976, .free 0x1020,
    .free 0x1080, .malloc 112, .free 0x10b0]

/-- Without the guard the heap is not safe: the last release of this run adds to
a size field that is no longer one. -/
theorem heap_not_safe : ¬ ∀ s, Reaches Heap.step (fun _ _ => True) boot_zero s →
    s.Safe (fun _ _ => True) 0x1000 0x40000 := by
  intro hsafe
  have hrun : (runOps Heap.step (fun _ _ => True) boot_zero stale_run).bind (fun s =>
      (s.step (.free 0x14a0)).map fun s' => (decide ((0x1020, 112) ∈ s.live),
        decide (∃ l ∈ s.live, l.1 = 0x14a0), decide ((0x1020, 112) ∈ s'.live),
        s.mem 0x106d, s'.mem 0x106d)) = some (true, true, true, 0, 0xff) := by
    decide +kernel
  obtain ⟨s, hs, hrun⟩ := Option.bind_eq_some_iff.mp hrun
  obtain ⟨s', hs', hrun⟩ := Option.map_eq_some_iff.mp hrun
  simp only [Prod.mk.injEq, decide_eq_true_eq] at hrun
  obtain ⟨hlive, hop, hlive', hbyte, hbyte'⟩ := hrun
  obtain ⟨s'', hs'', hkept⟩ := (hsafe s (.of_runOps _ hs)).calls (.free 0x14a0) trivial trivial hop
  obtain rfl := Option.some.inj (hs'.symm.trans hs'')
  -- byte 0x106d is the second byte of the size field that the collection adds to
  have h := hkept _ hlive hlive' 0x106d (by decide) (by decide)
  rw [hbyte, hbyte'] at h
  exact absurd h (by decide)

end CsBoot.Malloc
