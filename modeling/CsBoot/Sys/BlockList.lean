/-
What the allocator of `sys_malloc.c` is meant to keep: a list of blocks.

This file has no memory and no pointers in it. A heap is the list of its
blocks in address order, allocation is first fit (`alloc`), and release marks
a block free and merges it with its free neighbours (`release`). The facts
that make the allocator correct are facts about these lists: blocks stay
disjoint and inside the arena (`Layout`), free neighbours stay merged
(`NoAdj`), the blocks keep tiling their stretch of memory (`Contig`) and their
sizes keep their sum (`total`).

`BlockMem.lean` connects the lists to the header words in memory.
-/
import Mathlib.Data.List.Chain
import CsBoot.Sys.Malloc

set_option autoImplicit false

namespace CsBoot.Malloc

/-- One block: its header at `addr`, `size` payload bytes behind the header,
and the use count, zero for a free block. -/
structure Blk where
  addr : ℕ
  size : ℕ
  cnt : ℕ
deriving DecidableEq, Repr

namespace Blk

/-- The pointer handed out for the block. -/
def ptr (b : Blk) : ℕ := b.addr + BLK_SIZE

/-- The first address behind the block. -/
def stop (b : Blk) : ℕ := b.addr + BLK_SIZE + b.size

/-- A free block with room for `sz` bytes, the test of the allocation loop. -/
def fits (sz : ℕ) (b : Blk) : Bool := b.cnt = 0 && sz ≤ b.size

theorem fits_iff {sz : ℕ} {b : Blk} : b.fits sz = true ↔ b.cnt = 0 ∧ sz ≤ b.size := by
  simp [fits]

end Blk

/-! ## The operations -/

/-- `b` merged with the free blocks at the front of the list behind it. -/
def absorb (b : Blk) : List Blk → List Blk
  | [] => [b]
  | c :: cs =>
    -- the header of `c` turns into payload
    if c.cnt = 0 then absorb { b with size := b.size + (c.size + BLK_SIZE) } cs
    else b :: c :: cs

/-- The block `b` given away for `sz` bytes, split when more than two headers
would be left over. -/
def carve (b : Blk) (sz : ℕ) (rest : List Blk) : List Blk :=
  if 2 * BLK_SIZE < b.size - sz then
    { b with size := sz, cnt := 1 } ::
      absorb ⟨b.addr + sz + BLK_SIZE, b.size - sz - BLK_SIZE, 0⟩ rest
  else { b with size := sz, cnt := 1 } :: rest

/-- First fit. -/
def alloc (sz : ℕ) : List Blk → Option (ℕ × List Blk)
  | [] => none
  | b :: bs =>
    if b.fits sz then some (b.ptr, carve b sz bs)
    else (alloc sz bs).map fun r => (r.1, b :: r.2)

/-- Free the block whose payload is at `p`: the collection starts at its
predecessor when that one is free, and at the block itself otherwise. -/
def release (p : ℕ) : List Blk → List Blk
  | [] => []
  | [b] => if b.ptr = p then [{ b with cnt := 0 }] else [b]
  | b :: c :: bs =>
    if b.ptr = p then absorb { b with cnt := 0 } (c :: bs)
    -- `prev->used_cnt == 0`: `b` swallows the block released, and then what follows
    else if c.ptr = p ∧ b.cnt = 0 then absorb b ({ c with cnt := 0 } :: bs)
    else b :: release p (c :: bs)

/-! ## The properties -/

/-- The blocks lie one behind the other between `lo` and `hi`. -/
def Layout (lo hi : ℕ) : List Blk → Prop
  | [] => lo ≤ hi
  | b :: bs => lo ≤ b.addr ∧ Layout b.stop hi bs

/-- No two neighbours are both free. -/
def NoAdj (bs : List Blk) : Prop := bs.IsChain fun b c => b.cnt ≠ 0 ∨ c.cnt ≠ 0

/-- Every block ends where the next one begins. -/
def Contig (bs : List Blk) : Prop := bs.IsChain fun b c => b.stop = c.addr

/-- The bytes the blocks account for, headers included. -/
def total (bs : List Blk) : ℕ := (bs.map fun b => b.size + BLK_SIZE).sum

@[simp] theorem total_nil : total [] = 0 := rfl

@[simp] theorem total_cons (b : Blk) (bs : List Blk) :
    total (b :: bs) = b.size + BLK_SIZE + total bs := by
  simp [total]

theorem total_append (bs cs : List Blk) : total (bs ++ cs) = total bs + total cs := by
  simp [total]

/-! ## `Layout` -/

theorem Layout.le {hi : ℕ} : ∀ {bs : List Blk} {lo : ℕ}, Layout lo hi bs → lo ≤ hi
  | [], _, h => h
  | b :: bs, lo, ⟨h₁, h₂⟩ => by
      have := h₂.le
      unfold Blk.stop at this
      omega

theorem Layout.mono {lo lo' hi : ℕ} {bs : List Blk} (hlo : lo' ≤ lo) (h : Layout lo hi bs) :
    Layout lo' hi bs := by
  cases bs with
  | nil => exact hlo.trans h
  | cons b bs => exact ⟨hlo.trans h.1, h.2⟩

theorem layout_append {hi : ℕ} {cs : List Blk} : ∀ {bs : List Blk} {lo : ℕ},
    Layout lo hi (bs ++ cs) ↔ ∃ mid, Layout lo mid bs ∧ Layout mid hi cs
  | [], lo => by
      constructor
      · exact fun h => ⟨lo, le_refl lo, h⟩
      · rintro ⟨mid, h₁, h₂⟩
        exact h₂.mono h₁
  | b :: bs, lo => by
      simp only [List.cons_append, Layout, layout_append]
      constructor
      · rintro ⟨h, mid, h₁, h₂⟩
        exact ⟨mid, ⟨h, h₁⟩, h₂⟩
      · rintro ⟨mid, ⟨h, h₁⟩, h₂⟩
        exact ⟨h, mid, h₁, h₂⟩

/-- A block of the list lies between the bounds. -/
theorem Layout.mem {hi : ℕ} {b : Blk} : ∀ {bs : List Blk} {lo : ℕ},
    Layout lo hi bs → b ∈ bs → lo ≤ b.addr ∧ b.stop ≤ hi
  | c :: cs, lo, ⟨h₁, h₂⟩, hb => by
      rcases List.mem_cons.mp hb with rfl | hb
      · exact ⟨h₁, h₂.le⟩
      · have := h₂.mem hb
        unfold Blk.stop at *
        omega

/-- Blocks of the list do not overlap. -/
theorem Layout.pairwise {hi : ℕ} : ∀ {bs : List Blk} {lo : ℕ},
    Layout lo hi bs → bs.Pairwise fun b c => b.stop ≤ c.addr
  | [], _, _ => List.Pairwise.nil
  | _ :: _, _, ⟨_, h₂⟩ => List.Pairwise.cons (fun _ hc => (h₂.mem hc).1) h₂.pairwise

/-- Two blocks of the list are the same or lie apart. -/
theorem Layout.apart {lo hi : ℕ} {bs : List Blk} {b c : Blk} (h : Layout lo hi bs)
    (hb : b ∈ bs) (hc : c ∈ bs) : b = c ∨ b.stop ≤ c.addr ∨ c.stop ≤ b.addr := by
  induction bs generalizing lo with
  | nil => cases hb
  | cons d ds ih =>
      rcases List.mem_cons.mp hb with rfl | hb'
      · rcases List.mem_cons.mp hc with rfl | hc'
        · exact .inl rfl
        · exact .inr (.inl (h.2.mem hc').1)
      · rcases List.mem_cons.mp hc with rfl | hc'
        · exact .inr (.inr (h.2.mem hb').1)
        · exact ih h.2 hb' hc'

/-- The blocks account for no more bytes than there are. -/
theorem Layout.total_le {hi : ℕ} : ∀ {bs : List Blk} {lo : ℕ},
    Layout lo hi bs → lo + total bs ≤ hi
  | [], _, h => h
  | b :: bs, lo, ⟨h₁, h₂⟩ => by
      have := h₂.total_le
      rw [total_cons]
      unfold Blk.stop at this
      omega

theorem Layout.length_le {lo hi : ℕ} {bs : List Blk} (h : Layout lo hi bs) :
    lo + BLK_SIZE * bs.length ≤ hi := by
  refine le_trans ?_ h.total_le
  clear h
  induction bs with
  | nil => simp
  | cons b bs ih =>
      rw [total_cons, List.length_cons, Nat.mul_succ]
      omega

/-! ## `absorb` -/

theorem absorb_layout {hi : ℕ} : ∀ {bs : List Blk} {b : Blk} {lo : ℕ},
    Layout lo hi (b :: bs) → Layout lo hi (absorb b bs)
  | [], _, _, h => h
  | c :: cs, b, lo, ⟨h₁, h₂, h₃⟩ => by
      unfold absorb
      split
      · -- the grown block reaches exactly to the end of `c`
        refine absorb_layout ⟨h₁, h₃.mono ?_⟩
        unfold Blk.stop at *
        dsimp only
        omega
      · exact ⟨h₁, h₂, h₃⟩

theorem absorb_total : ∀ (bs : List Blk) (b : Blk), total (absorb b bs) = total (b :: bs)
  | [], _ => rfl
  | c :: cs, b => by
      unfold absorb
      split
      · rw [absorb_total cs, total_cons, total_cons, total_cons]
        dsimp only
        omega
      · rfl

/-- The merged block keeps its header. -/
theorem absorb_head : ∀ (bs : List Blk) (b : Blk),
    ∃ sz rest, absorb b bs = { b with size := sz } :: rest ∧ rest <:+ bs ∧
      ∀ c ∈ bs, c ∉ rest → c.cnt = 0
  | [], b => ⟨b.size, [], rfl, List.suffix_refl [], fun _ h => absurd h List.not_mem_nil⟩
  | c :: cs, b => by
      unfold absorb
      split
      · rename_i hc
        obtain ⟨sz, rest, h₁, h₂, h₃⟩ :=
          absorb_head cs { b with size := b.size + (c.size + BLK_SIZE) }
        refine ⟨sz, rest, h₁, h₂.trans (List.suffix_cons c cs), ?_⟩
        intro d hd hdr
        rcases List.mem_cons.mp hd with rfl | hd
        · exact hc
        · exact h₃ d hd hdr
      · exact ⟨b.size, c :: cs, rfl, List.suffix_refl _, fun _ h h' => absurd h h'⟩

theorem absorb_noAdj : ∀ {bs : List Blk} {b : Blk}, NoAdj bs → b.cnt = 0 → NoAdj (absorb b bs)
  | [], _, _, _ => List.isChain_singleton _
  | c :: cs, b, h, hb => by
      unfold absorb
      split
      · exact absorb_noAdj h.tail hb
      · rename_i hc
        exact List.IsChain.cons_cons (.inr hc) h

theorem absorb_contig : ∀ {bs : List Blk} {b : Blk}, Contig (b :: bs) → Contig (absorb b bs)
  | [], _, h => h
  | c :: cs, b, h => by
      unfold absorb
      split
      · obtain ⟨h₁, h₂⟩ := List.isChain_cons_cons.mp h
        apply absorb_contig
        cases cs with
        | nil => exact List.isChain_singleton _
        | cons d ds =>
            obtain ⟨h₃, h₄⟩ := List.isChain_cons_cons.mp h₂
            refine List.IsChain.cons_cons ?_ h₄
            unfold Blk.stop at *
            dsimp only
            omega
      · exact h

/-- Merging keeps the used blocks. -/
theorem mem_absorb_used {b c : Blk} {bs : List Blk} (hb : b.cnt = 0) (hc : c.cnt ≠ 0) :
    c ∈ absorb b bs ↔ c ∈ bs := by
  obtain ⟨sz, rest, h₁, h₂, h₃⟩ := absorb_head bs b
  rw [h₁, List.mem_cons]
  constructor
  · rintro (rfl | h)
    · exact absurd hb hc
    · exact h₂.mem h
  · intro h
    by_contra hn
    exact hc (h₃ c h fun hr => hn (.inr hr))

/-- Merging changes neither the address nor the use count at the front. -/
theorem absorb_head? (bs : List Blk) (b : Blk) :
    ∃ sz, (absorb b bs).head? = some { b with size := sz } := by
  obtain ⟨sz, rest, h, -⟩ := absorb_head bs b
  exact ⟨sz, by rw [h, List.head?_cons]⟩

/-- A free block in front of a used one has nothing to merge with. -/
theorem absorb_of_noAdj {b b' : Blk} {bs : List Blk} (h : NoAdj (b :: bs)) (hb : b.cnt = 0) :
    absorb b' bs = b' :: bs := by
  cases bs with
  | nil => rfl
  | cons c cs =>
      obtain ⟨h₁, -⟩ := List.isChain_cons_cons.mp h
      have hc : c.cnt ≠ 0 := h₁.resolve_left fun h => h hb
      rw [absorb, if_neg hc]

/-! ## `alloc` -/

/-- What a successful first fit does. -/
theorem alloc_eq_some {sz p : ℕ} : ∀ {bs bs' : List Blk}, alloc sz bs = some (p, bs') →
    ∃ pre b post, bs = pre ++ b :: post ∧ (∀ c ∈ pre, c.fits sz = false) ∧ b.fits sz = true ∧
      p = b.ptr ∧ bs' = pre ++ carve b sz post
  | b :: bs, bs', h => by
      rw [alloc] at h
      split at h
      · rename_i hb
        cases h
        exact ⟨[], b, bs, rfl, fun _ hc => absurd hc List.not_mem_nil, hb, rfl, rfl⟩
      · rename_i hb
        obtain ⟨⟨p', bs₁⟩, h₁, h₂⟩ := Option.map_eq_some_iff.mp h
        cases h₂
        obtain ⟨pre, c, post, rfl, h₃, h₄, h₅, rfl⟩ := alloc_eq_some h₁
        refine ⟨b :: pre, c, post, rfl, ?_, h₄, h₅, rfl⟩
        intro d hd
        rcases List.mem_cons.mp hd with rfl | hd
        · exact Bool.eq_false_iff.mpr hb
        · exact h₃ d hd

/-- The block found is the first that fits, and it is carved in place. -/
theorem alloc_append {sz : ℕ} {b : Blk} {post : List Blk} (hb : b.fits sz = true) :
    ∀ {pre : List Blk}, (∀ c ∈ pre, c.fits sz = false) →
      alloc sz (pre ++ b :: post) = some (b.ptr, pre ++ carve b sz post)
  | [], _ => by rw [List.nil_append, alloc, if_pos hb, List.nil_append]
  | c :: cs, h => by
      rw [List.cons_append, alloc, if_neg (by simp [h c List.mem_cons_self]),
        alloc_append hb fun d hd => h d (List.mem_cons_of_mem c hd)]
      rfl

theorem alloc_eq_none {sz : ℕ} {bs : List Blk} (h : ∀ b ∈ bs, b.fits sz = false) :
    alloc sz bs = none := by
  induction bs with
  | nil => rfl
  | cons b bs ih =>
      rw [alloc, if_neg (by simp [h b List.mem_cons_self]),
        ih fun c hc => h c (List.mem_cons_of_mem b hc)]
      rfl

theorem carve_layout {lo hi sz : ℕ} {b : Blk} {post : List Blk} (h : Layout lo hi (b :: post))
    (hsz : sz ≤ b.size) : Layout lo hi (carve b sz post) := by
  obtain ⟨h₁, h₂⟩ := h
  unfold carve Blk.stop at *
  split
  · refine ⟨h₁, absorb_layout ⟨?_, h₂.mono ?_⟩⟩
    all_goals
      unfold Blk.stop
      dsimp only
      omega
  · exact ⟨h₁, h₂.mono (by unfold Blk.stop; dsimp only; omega)⟩

theorem carve_head? (b : Blk) (sz : ℕ) (post : List Blk) :
    (carve b sz post).head? = some { b with size := sz, cnt := 1 } := by
  unfold carve
  split <;> rfl

theorem carve_noAdj {b : Blk} {sz : ℕ} {post : List Blk} (h : NoAdj (b :: post))
    (hb : b.cnt = 0) : NoAdj (carve b sz post) := by
  have hpost : NoAdj post := h.tail
  unfold carve
  split
  · rw [absorb_of_noAdj h hb]
    refine List.IsChain.cons_cons (.inl one_ne_zero) (List.isChain_cons.mpr ⟨?_, hpost⟩)
    intro c hc
    exact .inr (((List.isChain_cons.mp h).1 c hc).resolve_left fun h => h hb)
  · exact List.isChain_cons.mpr ⟨fun _ _ => .inl one_ne_zero, hpost⟩

/-- Carving loses no byte when the block fits exactly or is split. -/
theorem carve_total {b : Blk} {sz : ℕ} {post : List Blk} (hsz : sz ≤ b.size)
    (h : b.size = sz ∨ 2 * BLK_SIZE < b.size - sz) :
    total (carve b sz post) = total (b :: post) := by
  unfold carve
  split
  · rw [total_cons, absorb_total, total_cons, total_cons]
    dsimp only
    omega
  · rw [total_cons, total_cons]
    dsimp only
    omega

/-- Carving leaves no gap when the block fits exactly or is the last. -/
theorem carve_contig {b : Blk} {sz : ℕ} {post : List Blk} (h : Contig (b :: post))
    (hsz : b.size = sz ∨ post = []) : Contig (carve b sz post) := by
  rcases hsz with rfl | rfl
  · rw [carve, if_neg (by omega)]
    cases post with
    | nil => exact List.isChain_singleton _
    | cons c cs =>
        obtain ⟨h₁, h₂⟩ := List.isChain_cons_cons.mp h
        exact List.IsChain.cons_cons h₁ h₂
  · unfold carve
    split
    · refine List.IsChain.cons_cons ?_ (List.isChain_singleton _)
      unfold Blk.stop
      dsimp only
      omega
    · exact List.isChain_singleton _

theorem append_carve_contig {b : Blk} {sz : ℕ} {pre post : List Blk}
    (h : Contig (pre ++ b :: post)) (hsz : b.size = sz ∨ post = []) :
    Contig (pre ++ carve b sz post) := by
  obtain ⟨h₁, h₂, h₃⟩ := List.isChain_append.mp h
  refine List.isChain_append.mpr ⟨h₁, carve_contig h₂ hsz, ?_⟩
  intro c hc d hd
  -- carving keeps the front block in its place
  rw [carve_head?] at hd
  cases hd
  exact h₃ c hc b rfl

/-- The used blocks after carving: the block given away, and those behind it. -/
theorem mem_carve_used {b c : Blk} {sz : ℕ} {post : List Blk} (hc : c.cnt ≠ 0) :
    c ∈ carve b sz post ↔ c = { b with size := sz, cnt := 1 } ∨ c ∈ post := by
  unfold carve
  split
  · rw [List.mem_cons, mem_absorb_used rfl hc]
  · exact List.mem_cons

theorem alloc_noAdj {sz p : ℕ} {bs bs' : List Blk} (h : NoAdj bs)
    (ha : alloc sz bs = some (p, bs')) : NoAdj bs' := by
  obtain ⟨pre, b, post, rfl, -, hb, -, rfl⟩ := alloc_eq_some ha
  obtain ⟨h₁, h₂, h₃⟩ := List.isChain_append.mp h
  refine List.isChain_append.mpr ⟨h₁, carve_noAdj h₂ (Blk.fits_iff.mp hb).1, ?_⟩
  intro c _ d hd
  rw [carve_head?] at hd
  cases hd
  exact .inr one_ne_zero

/-! ## `release` -/

/-- Releasing a block whose predecessor is in use collects from the block. -/
theorem release_at {p : ℕ} {b : Blk} {post : List Blk} (hb : b.ptr = p) :
    ∀ {pre : List Blk}, (∀ c ∈ pre, c.ptr ≠ p) → (∀ c ∈ pre.getLast?, c.cnt ≠ 0) →
      release p (pre ++ b :: post) = pre ++ absorb { b with cnt := 0 } post
  | [], _, _ => by
      cases post with
      | nil => rw [List.nil_append, release, if_pos hb]; rfl
      | cons d ds => rw [List.nil_append, release, if_pos hb]; rfl
  | [c], h, hc => by
      have h₁ : c.ptr ≠ p := h c List.mem_cons_self
      have h₂ : c.cnt ≠ 0 := hc c rfl
      rw [List.singleton_append, release, if_neg h₁, if_neg fun h => h₂ h.2,
        ← List.nil_append (b :: post), release_at hb (by simp) (by simp)]
      rfl
  -- the two-block case of `release` looks at `d`, which is not the block released
  | c :: d :: cs, h, hc => by
      have h₁ : c.ptr ≠ p := h c List.mem_cons_self
      have h₂ : d.ptr ≠ p := h d (by simp)
      rw [List.cons_append, List.cons_append, release, if_neg h₁, if_neg fun h => h₂ h.1,
        ← List.cons_append,
        release_at hb (fun e he => h e (List.mem_cons_of_mem c he)) (by simpa using hc)]
      rfl

/-- Releasing a block behind a free one collects from that one. -/
theorem release_before {p : ℕ} {c b : Blk} {post : List Blk} (hb : b.ptr = p) (hcp : c.ptr ≠ p)
    (hc : c.cnt = 0) : ∀ {pre : List Blk}, (∀ d ∈ pre, d.ptr ≠ p) →
      release p (pre ++ c :: b :: post) = pre ++ absorb c ({ b with cnt := 0 } :: post)
  | [], _ => by
      rw [List.nil_append, release, if_neg hcp, if_pos ⟨hb, hc⟩, List.nil_append]
  | [d], h => by
      rw [List.singleton_append, release, if_neg (h d List.mem_cons_self),
        if_neg fun h => hcp h.1, ← List.nil_append (c :: b :: post),
        release_before hb hcp hc (by simp)]
      rfl
  | d :: e :: ds, h => by
      have h₁ : e.ptr ≠ p := h e (by simp)
      rw [List.cons_append, List.cons_append, release, if_neg (h d List.mem_cons_self),
        if_neg fun h => h₁ h.1, ← List.cons_append,
        release_before hb hcp hc fun f hf => h f (List.mem_cons_of_mem d hf)]
      rfl

/-- The predecessor of a block in a heap has another payload. -/
theorem Layout.ptr_ne {lo hi : ℕ} {b : Blk} {pre post : List Blk}
    (h : Layout lo hi (pre ++ b :: post)) : ∀ c ∈ pre, c.ptr ≠ b.ptr := by
  intro c hc heq
  have := (List.pairwise_append.mp h.pairwise).2.2 c hc b List.mem_cons_self
  unfold Blk.stop Blk.ptr BLK_SIZE at *
  omega

/-- The two ways a release goes: collect from the block, or from the free block
in front of it. -/
theorem release_cases {lo hi : ℕ} {b : Blk} {pre post : List Blk}
    (h : Layout lo hi (pre ++ b :: post)) :
    ((∀ c ∈ pre.getLast?, c.cnt ≠ 0) ∧
      release b.ptr (pre ++ b :: post) = pre ++ absorb { b with cnt := 0 } post) ∨
    ∃ pre' c, pre = pre' ++ [c] ∧ c.cnt = 0 ∧
      release b.ptr (pre ++ b :: post) = pre' ++ absorb c ({ b with cnt := 0 } :: post) := by
  have hne := h.ptr_ne
  rcases List.eq_nil_or_concat' pre with rfl | ⟨pre', c, rfl⟩
  · exact .inl ⟨by simp, release_at rfl (by simp) (by simp)⟩
  · by_cases hc : c.cnt = 0
    · refine .inr ⟨pre', c, rfl, hc, ?_⟩
      rw [List.append_assoc, List.singleton_append]
      exact release_before rfl (hne c (by simp)) hc fun d hd => hne d (by simp [hd])
    · exact .inl ⟨by simpa using hc, release_at rfl hne (by simpa using hc)⟩

/-- In either case the list with `b` marked free is merged from some free block
on. -/
theorem release_eq {lo hi : ℕ} {b : Blk} {pre post : List Blk}
    (h : Layout lo hi (pre ++ b :: post)) :
    ∃ q c rest, q ++ c :: rest = pre ++ { b with cnt := 0 } :: post ∧ c.cnt = 0 ∧
      release b.ptr (pre ++ b :: post) = q ++ absorb c rest := by
  rcases release_cases h with ⟨-, h₁⟩ | ⟨pre', c, rfl, hc, h₁⟩
  · exact ⟨pre, _, post, rfl, rfl, h₁⟩
  · exact ⟨pre', c, _, by simp, hc, h₁⟩

theorem release_total {lo hi : ℕ} {b : Blk} {pre post : List Blk}
    (h : Layout lo hi (pre ++ b :: post)) :
    total (release b.ptr (pre ++ b :: post)) = total (pre ++ b :: post) := by
  obtain ⟨q, c, rest, h₁, -, h₂⟩ := release_eq h
  have h₃ : total (q ++ absorb c rest) = total (q ++ c :: rest) := by
    rw [total_append, total_append, absorb_total]
  rw [h₂, h₃, h₁, total_append, total_append, total_cons, total_cons]

theorem release_noAdj {lo hi : ℕ} {b : Blk} {pre post : List Blk}
    (h : Layout lo hi (pre ++ b :: post)) (hadj : NoAdj (pre ++ b :: post)) :
    NoAdj (release b.ptr (pre ++ b :: post)) := by
  obtain ⟨h₁, h₂, h₃⟩ := List.isChain_append.mp hadj
  rcases release_cases h with ⟨hc, h₄⟩ | ⟨pre', c, rfl, hc, h₄⟩
  · rw [h₄]
    refine List.isChain_append.mpr ⟨h₁, absorb_noAdj h₂.tail rfl, ?_⟩
    intro c hc' _ _
    exact .inl (hc c hc')
  · rw [h₄, absorb, if_pos rfl]
    obtain ⟨h₅, -, h₆⟩ := List.isChain_append.mp h₁
    refine List.isChain_append.mpr ⟨h₅, absorb_noAdj h₂.tail hc, ?_⟩
    intro d hd e he
    -- the front of the merged tail is `c`, which was free before
    obtain ⟨sz, h₇⟩ := absorb_head? post { c with size := c.size + (b.size + BLK_SIZE) }
    rw [h₇] at he
    cases he
    exact h₆ d hd c rfl

theorem release_contig {lo hi : ℕ} {b : Blk} {pre post : List Blk}
    (h : Layout lo hi (pre ++ b :: post)) (hcon : Contig (pre ++ b :: post)) :
    Contig (release b.ptr (pre ++ b :: post)) := by
  obtain ⟨q, c, rest, h₁, -, h₂⟩ := release_eq h
  -- marking `b` free moves nothing
  have hfreed : Contig (pre ++ { b with cnt := 0 } :: post) := by
    obtain ⟨h₃, h₄, h₅⟩ := List.isChain_append.mp hcon
    refine List.isChain_append.mpr ⟨h₃, ?_, ?_⟩
    · exact List.isChain_cons.mpr ⟨(List.isChain_cons.mp h₄).1, h₄.tail⟩
    · intro d hd e he
      cases he
      exact h₅ d hd b rfl
  rw [← h₁] at hfreed
  obtain ⟨h₃, h₄, h₅⟩ := List.isChain_append.mp hfreed
  obtain ⟨sz, h₆⟩ := absorb_head? rest c
  rw [h₂]
  refine List.isChain_append.mpr ⟨h₃, absorb_contig h₄, ?_⟩
  intro d hd e he
  rw [h₆] at he
  cases he
  exact h₅ d hd c rfl

/-- The used blocks after a release: those with another payload. -/
theorem mem_release_used {lo hi : ℕ} {b d : Blk} {pre post : List Blk}
    (h : Layout lo hi (pre ++ b :: post)) (hd : d.cnt ≠ 0) :
    d ∈ release b.ptr (pre ++ b :: post) ↔ d ∈ pre ++ b :: post ∧ d.ptr ≠ b.ptr := by
  obtain ⟨q, c, rest, h₁, hc, h₂⟩ := release_eq h
  have hcd : d ≠ c := fun h => hd (h ▸ hc)
  have h₃ : d ∈ q ++ absorb c rest ↔ d ∈ q ++ c :: rest := by
    rw [List.mem_append, List.mem_append, mem_absorb_used hc hd, List.mem_cons, or_iff_right hcd]
  have hdb : d ≠ { b with cnt := 0 } := fun h => hd (h ▸ rfl)
  rw [h₂, h₃, h₁, List.mem_append, List.mem_cons, List.mem_append, List.mem_cons,
    or_iff_right hdb]
  constructor
  · intro hmem
    refine ⟨hmem.imp_right .inr, ?_⟩
    intro heq
    rcases hmem with hmem | hmem
    · exact h.ptr_ne d hmem heq
    · have := (List.pairwise_cons.mp (List.pairwise_append.mp h.pairwise).2.1).1 d hmem
      unfold Blk.stop Blk.ptr BLK_SIZE at *
      omega
  · rintro ⟨hmem | rfl | hmem, hne⟩
    · exact .inl hmem
    · exact absurd rfl hne
    · exact .inr hmem

end CsBoot.Malloc
