/-
`flash_nand_program` of `src/src/bsp/flash/flash_drv.c`.

The function has one loop with two labels. `SKIP_BLOCK` is only reached with
`len`, `size` and `data` as they were at the top of the pass, so that jumping to
it is another pass, and the inner `while` over bad blocks is one pass for each
of them. `ERR_OUT` leaves the loop with whatever `stat` holds.

On an aligned address the passes go through the blocks one by one, which is the
abstract layout of `Lib/SkipBlocks.lean`: `flash_nand_program_walk` gives the
state after `n` blocks, and every result about the function is read off there.
-/
import CsBoot.Lib.Loop
import CsBoot.Lib.SkipBlocks
import CsBoot.Nand.DeviceSpec

set_option autoImplicit false

namespace CsBoot.Nand

open Status FlashErr SkipBlocks

/-! ## The function -/

/-- The variables of `flash_nand_program`. `data` moves along the buffer as
`off`; `err_addr` is `none` until `*err_addr` is written. -/
structure ProgState where
  dev : NandDev
  addr : ℕ
  off : ℕ
  len : ℕ
  stat : FlashErr
  err_addr : Option ℕ

/-- One pass of the loop, with `bound` the sum `bound + addr`. -/
def flash_nand_program_pass (g : FlashInfo) (data : ℕ → UInt8) (bound : ℕ) (s : ProgState) :
    ProgState ⊕ ProgState :=
  if s.len = 0 then .inr s
  else
    let size := if g.block_size < s.len then g.block_size else s.len
    -- a marked block is looked for only where a block begins
    if s.addr &&& (g.block_size - 1) = 0 ∧ VeffBad g s.dev s.addr = FAIL then
      let addr := s.addr + g.block_size
      if bound < addr then .inr { s with addr := addr } else .inl { s with addr := addr }
    else
      let r := flash_erase_block g s.dev s.addr
      if r.2 ≠ FLASH_ERR_OK then
        .inl { s with
          dev := nand_block_markbad g r.1 s.addr
          addr := s.addr + g.block_size
          stat := r.2
          err_addr := some s.addr }
      else
        let w := flash_program_buf g r.1 s.addr (fun i => data (s.off + i)) size
        -- the block is given up, and its data is tried again in the next one
        if w.2 ≠ FLASH_ERR_OK then
          .inl { s with
            dev := nand_block_markbad g w.1 s.addr
            addr := s.addr + g.block_size
            stat := w.2
            err_addr := some s.addr }
        else
          .inl { s with
            dev := w.1
            addr := s.addr + size
            off := s.off + size
            len := s.len - size
            stat := w.2 }

/-- The state in which the loop is entered. -/
def flash_nand_program_start (d : NandDev) (addr len : ℕ) : ProgState :=
  { dev := d, addr := addr, off := 0, len := len, stat := FLASH_ERR_OK, err_addr := some addr }

/-- `flash_nand_program`, for at most `fuel` passes. `addr` is relative to
`SL2312_FLASH_BASE`. -/
def flash_nand_program (g : FlashInfo) (d : NandDev) (addr : ℕ) (data : ℕ → UInt8)
    (len bound fuel : ℕ) : ProgState ⊕ ProgState :=
  if g.init = false then
    .inr { flash_nand_program_start d addr len with
      stat := FLASH_ERR_NOT_INIT, err_addr := none }
  else
    Loop.run (flash_nand_program_pass g data (bound + addr)) fuel
      (flash_nand_program_start d addr len)

/-- `flash_nand_program` returns with `r`. -/
def ProgramReturns (g : FlashInfo) (d : NandDev) (addr : ℕ) (data : ℕ → UInt8) (len bound : ℕ)
    (r : ProgState) : Prop :=
  ∃ fuel, flash_nand_program g d addr data len bound fuel = .inr r

/-! ## The blocks of a call

Blocks are counted from the first one, `b`. -/

section Walk

variable (g : FlashInfo) (d : NandDev) (b : ℕ) (data : ℕ → UInt8) (len : ℕ)

/-- Block `n` is marked bad at the start. -/
def marked (n : ℕ) : Bool := blk_bad g d (b + n)

/-- Block `n` takes the chunk at `off`. -/
def takes (n off : ℕ) : Bool :=
  block_takes g d (b + n) (fun i => data (off + i)) (min g.block_size (len - off))

/-- Bytes stored in the first `n` blocks. -/
def stored (n : ℕ) : ℕ := placed (marked g d b) (takes g d b data len) g.block_size len n

/-- The last block tried among the first `n` did not fail. -/
def tried_ok (n : ℕ) : Bool := lastOk (marked g d b) (takes g d b data len) g.block_size len n

/-- The requests of the call so far are for the blocks passed, and every block
that was tried was erased. -/
def Logged (n : ℕ) (dev : NandDev) : Prop :=
  ∃ l, dev.log = d.log ++ l ∧ (∀ op ∈ l, b ≤ op.blk g ∧ op.blk g < b + n) ∧
    ∀ k, k < n → marked g d b k = false → stored g d b data len k < len → .erase (b + k) ∈ l

/-- What becomes of block `k`: it is tried, unless it is marked or everything is
stored. -/
def outcome (k : ℕ) : NandDev :=
  if marked g d b k = true ∨ stored g d b data len k = len then d
  else (try_block g d (b + k) (fun i => data (stored g d b data len k + i))
    (min g.block_size (len - stored g d b data len k))).1

/-- What is known when the blocks before block `n` have been passed. -/
structure WalkInv (n : ℕ) (s : ProgState) : Prop where
  off_eq : s.off = stored g d b data len n
  len_eq : s.len = len - stored g d b data len n
  addr_eq : stored g d b data len n < len → s.addr = (b + n) * g.block_size
  stat_eq : s.stat = FLASH_ERR_OK ↔ tried_ok g d b data len n = true
  /-- The blocks ahead are untouched. -/
  ahead : SameFrom ((b + n) * g.ppb) s.dev d
  logged : Logged g d b data len n s.dev
  behind : ∀ k, k < n → ∀ q, q / g.ppb = b + k →
    s.dev.pages q = (outcome g d b data len k).pages q

/-- Where the loop is left: everything is stored, or a marked block is met at or
behind the end of the `N` blocks of the partition. -/
def Leaves (N n : ℕ) : Prop :=
  stored g d b data len n = len ∨ (marked g d b n = true ∧ N ≤ n)

end Walk

variable {g : FlashInfo} {d : NandDev} {b len N n : ℕ} {data : ℕ → UInt8} {s : ProgState}

theorem stored_le (n : ℕ) : stored g d b data len n ≤ len := placed_le n

theorem walk_start : WalkInv g d b data len 0 (flash_nand_program_start d (b * g.block_size) len)
    where
  off_eq := rfl
  len_eq := rfl
  addr_eq := fun _ => rfl
  stat_eq := ⟨fun _ => rfl, fun _ => rfl⟩
  ahead := .refl
  logged := ⟨[], by simp [flash_nand_program_start], by simp, by simp⟩
  behind := by simp

/-- The test at the top of a pass, on an aligned address. -/
theorem skip_test (g : FlashInfo) (d : NandDev) (b : ℕ) :
    (b * g.block_size &&& (g.block_size - 1) = 0 ∧ VeffBad g d (b * g.block_size) = FAIL) ↔
      blk_bad g d b = true := by
  rw [g.block_mask, Nat.mul_mod_left, blk_bad, decide_eq_true_eq]
  exact and_iff_right rfl

/-- Block `n` is marked bad in the state before it as it was at the start. -/
theorem WalkInv.marked_eq (h : WalkInv g d b data len n s) :
    blk_bad g s.dev (b + n) = marked g d b n := by
  refine blk_bad_congr fun q hq => h.ahead.pages_eq q ?_
  rw [← hq]
  exact Nat.div_mul_le_self q g.ppb

/-- The loop leaves where `Leaves` says, with the state as it is. -/
theorem WalkInv.leave (h : WalkInv g d b data len n s) (hl : Leaves g d b data len N n) :
    ∃ r, flash_nand_program_pass g data ((b + N) * g.block_size) s = .inr r ∧
      r.dev = s.dev ∧ r.stat = s.stat := by
  have hlen := h.len_eq
  have hle : stored g d b data len n ≤ len := stored_le n
  unfold flash_nand_program_pass
  by_cases hfull : stored g d b data len n = len
  · exact ⟨s, by rw [if_pos (by omega)], rfl, rfl⟩
  · obtain ⟨hbad, hN⟩ := hl.resolve_left hfull
    have haddr := h.addr_eq (by omega)
    rw [← h.marked_eq, ← skip_test, ← haddr] at hbad
    have hbound : (b + N) * g.block_size < s.addr + g.block_size := by
      have := Nat.mul_le_mul_right g.block_size (Nat.add_le_add_left hN b)
      have := g.block_pos
      omega
    refine ⟨{ s with addr := s.addr + g.block_size }, ?_, rfl, rfl⟩
    rw [if_neg (by omega)]
    dsimp only
    rw [if_pos hbad, if_pos hbound]

/-- A pass on a block that is not marked tries it. -/
theorem pass_try (data : ℕ → UInt8) (bound : ℕ) {c : ℕ} (hlen : s.len ≠ 0)
    (haddr : s.addr = c * g.block_size) (hbad : blk_bad g s.dev c = false) :
    let size := min g.block_size s.len
    let r := try_block g s.dev c (fun i => data (s.off + i)) size
    flash_nand_program_pass g data bound s =
      if r.2 = FLASH_ERR_OK then
        .inl { s with
          dev := r.1, addr := s.addr + size, off := s.off + size, len := s.len - size,
          stat := FLASH_ERR_OK }
      else
        .inl { s with
          dev := r.1, addr := s.addr + g.block_size, stat := r.2, err_addr := some s.addr } := by
  have hsize : (if g.block_size < s.len then g.block_size else s.len) = min g.block_size s.len := by
    rw [min_def]
    split <;> split <;> omega
  have htest : ¬ (s.addr &&& (g.block_size - 1) = 0 ∧ VeffBad g s.dev s.addr = FAIL) := by
    rw [haddr, skip_test, hbad]
    exact Bool.false_ne_true
  unfold flash_nand_program_pass try_block
  rw [if_neg hlen, hsize, ← haddr]
  dsimp only
  rw [if_neg htest]
  by_cases he : (flash_erase_block g s.dev s.addr).2 = FLASH_ERR_OK
  · simp only [he, ne_eq, not_true_eq_false, if_false]
    by_cases hw : (flash_program_buf g (flash_erase_block g s.dev s.addr).1 s.addr
        (fun i => data (s.off + i)) (min g.block_size s.len)).2 = FLASH_ERR_OK
    · simp only [hw, not_true_eq_false, if_false, if_true]
    · simp only [hw, not_false_eq_true, if_true, if_false]
  · simp only [he, ne_eq, not_false_eq_true, if_true, if_false]

/-- A marked block leaves the log as it is. -/
theorem Logged.skip {dev : NandDev} (h : Logged g d b data len n dev)
    (hb : marked g d b n = true) : Logged g d b data len (n + 1) dev := by
  obtain ⟨l, hl, hops, htried⟩ := h
  refine ⟨l, hl, ?_, ?_⟩
  · intro op hop
    have := hops op hop
    omega
  · intro k hk hk'
    rcases Nat.lt_succ_iff_lt_or_eq.mp hk with hk | rfl
    · exact htried k hk hk'
    · exact absurd (hk'.symm.trans hb) Bool.false_ne_true

/-- A block that is tried is erased first. -/
theorem Logged.try {dev d' : NandDev} (h : Logged g d b data len n dev)
    (hw : Within g (b + n) (dev.erase g (b + n)) d') : Logged g d b data len (n + 1) d' := by
  obtain ⟨l, hl, hops, htried⟩ := h
  obtain ⟨l', hl', hops'⟩ := hw.log_eq
  refine ⟨l ++ .erase (b + n) :: l', ?_, ?_, ?_⟩
  · rw [hl']
    simp [NandDev.erase, hl]
  · intro op hop
    rcases List.mem_append.mp hop with hop | hop
    · have := hops op hop
      omega
    · rcases List.mem_cons.mp hop with rfl | hop
      · exact ⟨Nat.le_add_right b n, Nat.lt_succ_self (b + n)⟩
      · have := hops' op hop
        omega
  · intro k hk hk' hk''
    rcases Nat.lt_succ_iff_lt_or_eq.mp hk with hk | rfl
    · exact List.mem_append_left _ (htried k hk hk' hk'')
    · simp

/-- The blocks passed keep what became of them, when the block ahead changes to
what becomes of it. -/
theorem WalkInv.blocks (h : WalkInv g d b data len n s) {d' : NandDev}
    (hw : Within g (b + n) s.dev d')
    (hout : ∀ q, q / g.ppb = b + n → d'.pages q = (outcome g d b data len n).pages q) :
    SameFrom ((b + (n + 1)) * g.ppb) d' d ∧
    ∀ k, k < n + 1 → ∀ q, q / g.ppb = b + k → d'.pages q = (outcome g d b data len k).pages q := by
  refine ⟨⟨hw.faults_eq.trans h.ahead.faults_eq, ?_⟩, ?_⟩
  · intro q hq
    have hmul : (b + n) * g.ppb ≤ q := le_trans (Nat.mul_le_mul_right _ (by omega)) hq
    have hdiv : b + (n + 1) ≤ q / g.ppb :=
      (Nat.le_div_iff_mul_le (by have := g.two_le_ppb; omega)).mpr hq
    rw [hw.pages_eq q (by omega), h.ahead.pages_eq q hmul]
  · intro k hk q hq
    rcases Nat.lt_succ_iff_lt_or_eq.mp hk with hk | rfl
    · rw [hw.pages_eq q (by omega), h.behind k hk q hq]
    · exact hout q hq

/-- **One pass.** Where the loop does not leave, it goes to the next block and
keeps the invariant. -/
theorem WalkInv.pass (h : WalkInv g d b data len n s) (hl : ¬ Leaves g d b data len N n) :
    ∃ s', flash_nand_program_pass g data ((b + N) * g.block_size) s = .inl s' ∧
      WalkInv g d b data len (n + 1) s' := by
  obtain ⟨hfull, hmark⟩ := not_or.mp hl
  have hlt : stored g d b data len n < len := lt_of_le_of_ne (stored_le n) hfull
  have haddr := h.addr_eq hlt
  have hlen : s.len ≠ 0 := by
    rw [h.len_eq]
    omega
  have hnext : s.addr + g.block_size = (b + (n + 1)) * g.block_size := by
    rw [haddr, ← Nat.succ_mul]
    rfl
  have hahead : ∀ q, q / g.ppb = b + n → (b + n) * g.ppb ≤ q := fun q hq => by
    rw [← hq]
    exact Nat.div_mul_le_self q g.ppb
  cases hb : marked g d b n with
  | true =>
      -- over a marked block
      have hN : n < N := by
        by_contra hN
        exact hmark ⟨hb, by omega⟩
      have hstored : stored g d b data len (n + 1) = stored g d b data len n :=
        placed_succ_of_bad hb
      have hok : tried_ok g d b data len (n + 1) = tried_ok g d b data len n := by
        unfold tried_ok
        rw [lastOk, hb, if_pos rfl]
      have hbad := hb
      rw [← h.marked_eq, ← skip_test, ← haddr] at hbad
      have hbound : ¬ (b + N) * g.block_size < s.addr + g.block_size := by
        rw [hnext]
        exact not_lt.mpr (Nat.mul_le_mul_right _ (by omega))
      obtain ⟨h₁, h₂⟩ := h.blocks Within.refl fun q hq => by
        rw [outcome, if_pos (.inl hb), h.ahead.pages_eq q (hahead q hq)]
      refine ⟨{ s with addr := s.addr + g.block_size }, ?_, ?_⟩
      · rw [flash_nand_program_pass, if_neg hlen]
        dsimp only
        rw [if_pos hbad, if_neg hbound]
      · exact ⟨hstored ▸ h.off_eq, hstored ▸ h.len_eq, fun _ => hnext, hok ▸ h.stat_eq, h₁,
          h.logged.skip hb, h₂⟩
  | false =>
      have hbad : blk_bad g s.dev (b + n) = false := h.marked_eq.trans hb
      have hsize : min g.block_size s.len ≤ g.block_size := min_le_left _ _
      have htry := pass_try data ((b + N) * g.block_size) hlen haddr hbad
      obtain ⟨hw, -, -⟩ := try_block_spec s.dev (b + n) (fun i => data (s.off + i)) hsize
      obtain ⟨hstat, hsame⟩ := try_block_congr h.ahead (fun i => data (s.off + i)) hsize
      obtain ⟨h₁, h₂⟩ := h.blocks (within_erase.trans hw) fun q hq => by
        rw [hsame.pages_eq q (hahead q hq), outcome, if_neg (by simp [hb, hfull]), h.off_eq,
          h.len_eq]
      have h₃ := h.logged.try hw
      -- the block takes the chunk here as it would have taken it at the start
      have htakes : (try_block g s.dev (b + n) (fun i => data (s.off + i))
          (min g.block_size s.len)).2 = FLASH_ERR_OK ↔
          takes g d b data len n (stored g d b data len n) = true := by
        rw [hstat, h.off_eq, h.len_eq]
        simp [takes, block_takes]
      have hok : tried_ok g d b data len (n + 1) =
          takes g d b data len n (stored g d b data len n) := by
        unfold tried_ok
        rw [lastOk, hb, if_neg Bool.false_ne_true]
        rfl
      dsimp only at htry
      cases ha : takes g d b data len n (stored g d b data len n) with
      | true =>
          have hstored : stored g d b data len (n + 1) =
              stored g d b data len n + min g.block_size s.len := by
            rw [h.len_eq]
            exact placed_succ_of_accept hb ha
          rw [ha] at htakes hok
          rw [if_pos (htakes.mpr rfl)] at htry
          refine ⟨_, htry, ⟨?_, ?_, ?_, ?_, h₁, h₃, h₂⟩⟩
          · dsimp only
            rw [hstored, h.off_eq]
          · dsimp only
            rw [hstored, h.len_eq]
            omega
          · intro hlt'
            -- a chunk that is not the last fills its block
            dsimp only
            rw [← hnext, hstored, h.len_eq] at *
            omega
          · rw [hok]
            exact ⟨fun _ => rfl, fun _ => rfl⟩
      | false =>
          have hstored : stored g d b data len (n + 1) = stored g d b data len n :=
            placed_succ_of_fail ha
          rw [ha] at htakes hok
          have hne := mt htakes.mp Bool.false_ne_true
          rw [if_neg hne] at htry
          refine ⟨_, htry, ⟨hstored ▸ h.off_eq, hstored ▸ h.len_eq, fun _ => hnext, ?_, h₁, h₃,
            h₂⟩⟩
          rw [hok]
          exact ⟨fun h => absurd h hne, fun h => absurd h Bool.false_ne_true⟩

/-! What became of the blocks passed, as a reader sees it. -/

theorem WalkInv.still (h : WalkInv g d b data len n s) {k : ℕ} (hk : k < n)
    (hb : marked g d b k = true) : blk_bad g s.dev (b + k) = true := by
  rw [blk_bad_congr (h.behind k hk), outcome, if_pos (.inl hb)]
  exact hb

/-- A block that is tried, in the state after it. -/
theorem WalkInv.tried (h : WalkInv g d b data len n s) {k : ℕ} (hk : k < n)
    (hb : marked g d b k = false) (hlt : stored g d b data len k < len) :
    ∀ q, q / g.ppb = b + k → s.dev.pages q =
      (try_block g d (b + k) (fun i => data (stored g d b data len k + i))
        (min g.block_size (len - stored g d b data len k))).1.pages q := by
  intro q hq
  rw [h.behind k hk q hq, outcome, if_neg (by simp [hb, hlt.ne])]

theorem WalkInv.failed (h : WalkInv g d b data len n s) {k : ℕ} (hk : k < n)
    (hb : marked g d b k = false) (hlt : stored g d b data len k < len)
    (ha : takes g d b data len k (stored g d b data len k) = false) :
    blk_bad g s.dev (b + k) = true := by
  rw [blk_bad_congr (h.tried hk hb hlt)]
  exact (try_block_spec d (b + k) _ (min_le_left _ _)).2.2 ha

theorem WalkInv.taken (h : WalkInv g d b data len n s) {k : ℕ} (hk : k < n)
    (hb : marked g d b k = false) (hlt : stored g d b data len k < len)
    (ha : takes g d b data len k (stored g d b data len k) = true) :
    blk_bad g s.dev (b + k) = false ∧
      ∀ i, i < min g.block_size (len - stored g d b data len k) →
        read_byte g s.dev ((b + k) * g.block_size + i) = data (stored g d b data len k + i) := by
  obtain ⟨-, htaken, -⟩ := try_block_spec d (b + k)
    (fun i => data (stored g d b data len k + i))
    (min_le_left g.block_size (len - stored g d b data len k))
  obtain ⟨h₁, h₂⟩ := htaken ha
  rw [blk_bad_congr (h.tried hk hb hlt)]
  refine ⟨h₁, ?_⟩
  intro i hi
  rw [read_byte_congr (h.tried hk hb hlt _ (block_of_addr (hi.trans_le (min_le_left _ _)))),
    h₂ i hi]

/-! ## Whole calls -/

/-- The states of the loop, block by block. -/
theorem flash_nand_program_walk (g : FlashInfo) (d : NandDev) (b : ℕ) (data : ℕ → UInt8)
    (len N : ℕ) : ∃ w : ℕ → ProgState, w 0 = flash_nand_program_start d (b * g.block_size) len ∧
      ∀ n, (∀ k, k < n → ¬ Leaves g d b data len N k) → WalkInv g d b data len n (w n) ∧
        (¬ Leaves g d b data len N n →
          flash_nand_program_pass g data ((b + N) * g.block_size) (w n) = .inl (w (n + 1))) := by
  let next : ProgState → ProgState := fun s =>
    (flash_nand_program_pass g data ((b + N) * g.block_size) s).elim id id
  refine ⟨fun n => next^[n] (flash_nand_program_start d (b * g.block_size) len), rfl, ?_⟩
  intro n
  have hnext : ∀ n s', flash_nand_program_pass g data ((b + N) * g.block_size)
      (next^[n] (flash_nand_program_start d (b * g.block_size) len)) = .inl s' →
      next^[n + 1] (flash_nand_program_start d (b * g.block_size) len) = s' := by
    intro n s' h
    rw [Function.iterate_succ_apply']
    dsimp only [next]
    rw [h]
    rfl
  have hinv : (∀ k, k < n → ¬ Leaves g d b data len N k) → WalkInv g d b data len n
      (next^[n] (flash_nand_program_start d (b * g.block_size) len)) := by
    induction n with
    | zero => exact fun _ => walk_start
    | succ n ih =>
        intro hn
        obtain ⟨s', h₁, h₂⟩ := (ih fun k hk => hn k (by omega)).pass (hn n (by omega))
        rwa [hnext n s' h₁]
  refine fun hn => ⟨hinv hn, ?_⟩
  intro hl
  obtain ⟨s', h₁, -⟩ := (hinv hn).pass hl
  dsimp only
  rw [hnext n s' h₁]
  exact h₁

/-- A call on an initialised driver either leaves at the first block where
`Leaves` holds, with the state there, or never returns. -/
theorem flash_nand_program_outcome (hinit : g.init = true) (d : NandDev) (b : ℕ)
    (data : ℕ → UInt8) (len N : ℕ) :
    (∃ e s r, (∀ k, k < e → ¬ Leaves g d b data len N k) ∧ Leaves g d b data len N e ∧
      WalkInv g d b data len e s ∧ r.dev = s.dev ∧ r.stat = s.stat ∧
      (∀ r', ProgramReturns g d (b * g.block_size) data len (N * g.block_size) r' ↔ r' = r) ∧
      ∀ fuel, (∃ k s', k ≤ e ∧ WalkInv g d b data len k s' ∧
        flash_nand_program g d (b * g.block_size) data len (N * g.block_size) fuel = .inl s') ∨
        flash_nand_program g d (b * g.block_size) data len (N * g.block_size) fuel = .inr r) ∨
    (∀ n, ¬ Leaves g d b data len N n) ∧
      (∀ r, ¬ ProgramReturns g d (b * g.block_size) data len (N * g.block_size) r) ∧
      ∀ fuel, ∃ s, WalkInv g d b data len fuel s ∧
        flash_nand_program g d (b * g.block_size) data len (N * g.block_size) fuel = .inl s := by
  have hrun : ∀ fuel, flash_nand_program g d (b * g.block_size) data len (N * g.block_size) fuel =
      Loop.run (flash_nand_program_pass g data ((b + N) * g.block_size)) fuel
        (flash_nand_program_start d (b * g.block_size) len) := by
    intro fuel
    rw [flash_nand_program, if_neg (by rw [hinit]; decide), Nat.add_comm b N, Nat.add_mul]
  obtain ⟨w, hw₀, hw⟩ := flash_nand_program_walk g d b data len N
  unfold ProgramReturns
  simp only [hrun, ← hw₀]
  -- either some block is the first where the loop leaves, or the walk goes on for ever
  by_cases hex : ∃ e, Leaves g d b data len N e
  · classical
    have hfirst : ∀ k, k < Nat.find hex → ¬ Leaves g d b data len N k := fun k hk =>
      Nat.find_min hex hk
    have hstep : ∀ k, k < Nat.find hex →
        flash_nand_program_pass g data ((b + N) * g.block_size) (w k) = .inl (w (k + 1)) :=
      fun k hk => (hw k fun j hj => hfirst j (hj.trans hk)).2 (hfirst k hk)
    have hinv := (hw (Nat.find hex) hfirst).1
    obtain ⟨r, hr, hdev, hstat⟩ := hinv.leave (Nat.find_spec hex)
    refine .inl ⟨Nat.find hex, w (Nat.find hex), r, hfirst, Nat.find_spec hex, hinv, hdev, hstat,
      ?_, ?_⟩
    · intro r'
      exact (Loop.returns_walk hstep).trans (Loop.returns_done hr)
    · intro fuel
      rcases Loop.run_of_walk hstep hr fuel with ⟨k, hk, hrun'⟩ | hrun'
      · exact .inl ⟨k, w k, hk, (hw k fun j hj => hfirst j (by omega)).1, hrun'⟩
      · exact .inr hrun'
  · have hnever : ∀ n, ¬ Leaves g d b data len N n := fun n hn => hex ⟨n, hn⟩
    have hstep : ∀ k,
        flash_nand_program_pass g data ((b + N) * g.block_size) (w k) = .inl (w (k + 1)) :=
      fun k => (hw k fun j _ => hnever j).2 (hnever k)
    refine .inr ⟨hnever, fun r => Loop.not_returns_of_walk hstep, ?_⟩
    intro fuel
    exact ⟨w fuel, (hw fuel fun j _ => hnever j).1, Loop.run_walk fun k _ => hstep k⟩

/-- A driver that is not initialised does nothing. -/
theorem flash_nand_program_not_init (hinit : g.init = false) (d : NandDev) (addr : ℕ)
    (data : ℕ → UInt8) (len bound fuel : ℕ) :
    flash_nand_program g d addr data len bound fuel =
      .inr { flash_nand_program_start d addr len with
        stat := FLASH_ERR_NOT_INIT, err_addr := none } := by
  rw [flash_nand_program, if_pos hinit]

/-! ## What is stored -/

/-- The bytes of block `b`, as `pageread` delivers them. -/
def block_bytes (g : FlashInfo) (d : NandDev) (b : ℕ) : List UInt8 :=
  firstBytes (fun i => read_byte g d (b * g.block_size + i)) g.block_size

/-- The bytes of the blocks from `b` on that are not marked bad, in order,
among `N`. -/
def good_blocks (g : FlashInfo) (d : NandDev) (b N : ℕ) : List UInt8 :=
  goodBytes (fun k => blk_bad g d (b + k)) (fun k => block_bytes g d (b + k)) N

/-- In the walk, the blocks not marked begin with the bytes stored. -/
theorem WalkInv.prefix_good (h : WalkInv g d b data len n s) :
    firstBytes data (stored g d b data len n) <+: good_blocks g s.dev b n := by
  refine (firstBytes_placed (fun k => h.still) (fun k => h.failed)
    ?_).1
  intro k hk hb hlt ht
  obtain ⟨h₁, h₂⟩ := h.taken hk hb hlt ht
  exact ⟨h₁, firstBytes_initial (min_le_left _ _) fun i hi => (h₂ i hi).symm, length_firstBytes _ _⟩

/-- When the loop leaves with everything stored, the last block did not fail. -/
theorem tried_ok_of_stored {e : ℕ} (hfirst : ∀ k, k < e → ¬ Leaves g d b data len N k)
    (he : stored g d b data len e = len) : tried_ok g d b data len e = true := by
  cases e with
  | zero => rfl
  | succ e =>
      have hne : stored g d b data len e ≠ len := fun h => hfirst e (Nat.lt_succ_self e) (.inl h)
      have hle : stored g d b data len e ≤ len := stored_le e
      apply lastOk_of_placed_lt
      change stored g d b data len e < stored g d b data len (e + 1)
      omega

/-- `flash_nand_program` does its job on the `N` blocks from `b` on: success
means that the blocks not marked bad begin with the data, and when the blocks
do not take all of it, failure is reported. -/
def ProgramCorrect (g : FlashInfo) (d : NandDev) (b : ℕ) (data : ℕ → UInt8) (len N : ℕ) : Prop :=
  (∀ r, ProgramReturns g d (b * g.block_size) data len (N * g.block_size) r →
    r.stat = FLASH_ERR_OK → firstBytes data len <+: good_blocks g r.dev b N) ∧
  (stored g d b data len N < len →
    ∃ r, ProgramReturns g d (b * g.block_size) data len (N * g.block_size) r ∧
      r.stat ≠ FLASH_ERR_OK)

/-- **When `flash_nand_program` is correct**: when the data fits, and otherwise
only when the loop runs into a marked block behind the partition right after a
block that failed. -/
theorem flash_nand_program_correct_iff (g : FlashInfo) (d : NandDev) (b : ℕ) (data : ℕ → UInt8)
    (len N : ℕ) : ProgramCorrect g d b data len N ↔
      g.init = false ∨ stored g d b data len N = len ∨
      ∃ e, N ≤ e ∧ marked g d b e = true ∧ (∀ k, N ≤ k → k < e → marked g d b k = false) ∧
        stored g d b data len e < len ∧ tried_ok g d b data len e = false := by
  cases hinit : g.init with
  | false =>
      refine iff_of_true ⟨?_, ?_⟩ (.inl rfl)
      · rintro r ⟨fuel, hr⟩ hok
        rw [flash_nand_program_not_init hinit] at hr
        cases hr
        cases hok
      · intro _
        exact ⟨_, ⟨0, flash_nand_program_not_init hinit _ _ _ _ _ _⟩, by simp⟩
  | true =>
      rw [or_iff_right (by decide)]
      rcases flash_nand_program_outcome hinit d b data len N with
        ⟨e, s, r, hfirst, hleave, hinv, hdev, hstat, hret, -⟩ | ⟨hnever, hnot, -⟩
      · by_cases hfull : stored g d b data len e = len
        · have hok : r.stat = FLASH_ERR_OK := by
            rw [hstat, hinv.stat_eq]
            exact tried_ok_of_stored hfirst hfull
          by_cases heN : e ≤ N
          · refine iff_of_true ⟨?_, ?_⟩ (.inl (placed_eq_len hfull heN))
            · intro r' hr' _
              obtain rfl := (hret r').mp hr'
              have hpre := hinv.prefix_good
              rw [hfull, ← hdev] at hpre
              exact hpre.trans (goodBytes_initial heN)
            · intro hlt
              exact absurd (placed_eq_len hfull heN) hlt.ne
          · -- the rest went behind the partition, and success is reported
            have hN : stored g d b data len N ≠ len := fun h => hfirst N (by omega) (.inl h)
            apply iff_of_false
            · intro hcor
              obtain ⟨r', hr', hne⟩ := hcor.2 (lt_of_le_of_ne (stored_le N) hN)
              obtain rfl := (hret r').mp hr'
              exact hne hok
            · rintro (h | ⟨e', hNe', hm, -, hlt, -⟩)
              · exact hN h
              · have he' : e ≤ e' := by
                  by_contra hlt'
                  exact hfirst e' (by omega) (.inr ⟨hm, hNe'⟩)
                exact hlt.ne (placed_eq_len hfull he')
        · obtain ⟨hm, hNe⟩ := hleave.resolve_left hfull
          have hlt : stored g d b data len e < len := lt_of_le_of_ne (stored_le e) hfull
          have hN : stored g d b data len N < len := lt_of_le_of_lt (placed_mono hNe) hlt
          have hstat' : r.stat = FLASH_ERR_OK ↔ tried_ok g d b data len e = true := by
            rw [hstat, hinv.stat_eq]
          constructor
          · intro hcor
            obtain ⟨r', hr', hne⟩ := hcor.2 hN
            obtain rfl := (hret r').mp hr'
            refine .inr ⟨e, hNe, hm, ?_, hlt, ?_⟩
            · intro k hk hke
              exact Bool.eq_false_iff.mpr fun hmk => hfirst k hke (.inr ⟨hmk, hk⟩)
            · exact Bool.eq_false_iff.mpr fun hok => hne (hstat'.mpr hok)
          · rintro (h | ⟨e', hNe', hm', hclear, -, hfail⟩)
            · exact absurd h hN.ne
            · have hee' : e = e' := by
                have h₁ : ¬ e' < e := fun h => hfirst e' h (.inr ⟨hm', hNe'⟩)
                have h₂ : ¬ e < e' := fun h => by simp [hclear e hNe h] at hm
                omega
              subst hee'
              have hne : r.stat ≠ FLASH_ERR_OK := fun h => by simp [hstat'.mp h] at hfail
              refine ⟨?_, fun _ => ⟨r, (hret r).mpr rfl, hne⟩⟩
              intro r' hr' hok
              obtain rfl := (hret r').mp hr'
              exact absurd hok hne
      · have hN : stored g d b data len N ≠ len := fun h => hnever N (.inl h)
        apply iff_of_false
        · intro hcor
          obtain ⟨r, hr, -⟩ := hcor.2 (lt_of_le_of_ne (stored_le N) hN)
          exact hnot r hr
        · rintro (h | ⟨e, hNe, hm, -⟩)
          · exact hN h
          · exact hnever e (.inr ⟨hm, hNe⟩)

/-- Every block is marked bad, so there is nowhere to write, and the function
reports success. -/
theorem flash_nand_program_not_correct :
    ¬ ProgramCorrect ⟨0x200, 0x2000, true, by decide⟩
      ⟨fun _ _ => 0, ⟨fun _ => false, fun _ _ => 0, fun _ => false, fun _ => none⟩, []⟩
      0 (fun _ => 0) 1 1 := by
  intro h
  have hrun := h.1 _ ⟨3, rfl⟩ rfl
  exact absurd (List.prefix_nil.mp hrun) (by decide)

/-! ## What is touched -/

/-- Every request of the call, however far it has got, is for a block that lies
inside `[addr, addr + bound)`. -/
def StaysInside (g : FlashInfo) (d : NandDev) (addr : ℕ) (data : ℕ → UInt8) (len bound : ℕ) :
    Prop :=
  ∀ fuel s, flash_nand_program g d addr data len bound fuel = .inl s ∨
    flash_nand_program g d addr data len bound fuel = .inr s →
    ∀ op ∈ s.dev.log.drop d.log.length,
      addr ≤ op.blk g * g.block_size ∧ (op.blk g + 1) * g.block_size ≤ addr + bound

/-- Requests only add to the log. -/
theorem flash_program_buf_log (g : FlashInfo) (len : ℕ) : ∀ (d : NandDev) (addr : ℕ)
    (data : ℕ → UInt8), d.log <+: (flash_program_buf g d addr data len).1.log := by
  induction len using Nat.strong_induction_on with
  | _ len ih =>
      intro d addr data
      have hpage : ∀ buf, d.log <+: (pagewrite g d addr buf).1.log := by
        intro buf
        rw [pagewrite]
        split
        · exact List.prefix_append _ _
        · split <;> exact List.prefix_append _ _
      rw [flash_program_buf]
      by_cases hlen : len = 0
      · rw [dif_pos hlen]
      · have hsize : len - (if len < g.page_size then len else g.page_size) < len := by
          have := g.page_pos
          split <;> omega
        rw [dif_neg hlen]
        dsimp only
        generalize (if len < g.page_size then fun i => if i < len then data i else 0xff
          else data) = buf
        by_cases hw : (pagewrite g d addr buf).2 = PASS
        · rw [if_neg (not_not.mpr hw)]
          exact (hpage buf).trans (ih _ hsize _ _ _)
        · rw [if_pos hw]
          exact hpage buf

/-- On an address that is not aligned, the first thing done is to erase the
block in which it lies. -/
theorem pass_unaligned (data : ℕ → UInt8) (bound : ℕ) (hlen : s.len ≠ 0)
    (haddr : s.addr % g.block_size ≠ 0) :
    ∃ s' l, flash_nand_program_pass g data bound s = .inl s' ∧
      s'.dev.log = s.dev.log ++ .erase (s.addr / g.block_size) :: l := by
  have hblk : s.addr / g.page_size / g.ppb = s.addr / g.block_size := by
    rw [Nat.div_div_eq_div_mul, Nat.mul_comm g.page_size, ← g.block_eq]
  have htest : ¬ (s.addr &&& (g.block_size - 1) = 0 ∧ VeffBad g s.dev s.addr = FAIL) := by
    rw [g.block_mask]
    exact fun h => haddr h.1
  have herase : (flash_erase_block g s.dev s.addr).1.log =
      s.dev.log ++ [.erase (s.addr / g.block_size)] := by
    rw [flash_erase_block, hblk]
    rfl
  -- whatever happens then adds to the log
  have hext : ∀ d' : NandDev, (flash_erase_block g s.dev s.addr).1.log <+: d'.log →
      ∃ l, d'.log = s.dev.log ++ .erase (s.addr / g.block_size) :: l := by
    rintro d' ⟨l, hl⟩
    exact ⟨l, by rw [← hl, herase, List.append_assoc]; rfl⟩
  have hmark : ∀ d' : NandDev, d'.log <+: (nand_block_markbad g d' s.addr).log := fun d' =>
    (List.prefix_append _ _).trans (List.prefix_append _ _)
  rw [flash_nand_program_pass, if_neg hlen]
  dsimp only
  rw [if_neg htest]
  generalize (if g.block_size < s.len then g.block_size else s.len) = size
  have hbuf := flash_program_buf_log g size (flash_erase_block g s.dev s.addr).1 s.addr
    (fun i => data (s.off + i))
  by_cases he : (flash_erase_block g s.dev s.addr).2 = FLASH_ERR_OK
  · rw [if_neg (not_not.mpr he)]
    by_cases hw : (flash_program_buf g (flash_erase_block g s.dev s.addr).1 s.addr
        (fun i => data (s.off + i)) size).2 = FLASH_ERR_OK
    · obtain ⟨l, hl⟩ := hext _ hbuf
      rw [if_neg (not_not.mpr hw)]
      exact ⟨_, l, rfl, hl⟩
    · obtain ⟨l, hl⟩ := hext _ (hbuf.trans (hmark _))
      rw [if_pos hw]
      exact ⟨_, l, rfl, hl⟩
  · obtain ⟨l, hl⟩ := hext _ (hmark _)
    rw [if_pos he]
    exact ⟨_, l, rfl, hl⟩

/-- In the walk, the requests are for the blocks passed. -/
theorem WalkInv.inside (h : WalkInv g d b data len n s) (hn : n ≤ N) :
    ∀ op ∈ s.dev.log.drop d.log.length, b * g.block_size ≤ op.blk g * g.block_size ∧
      (op.blk g + 1) * g.block_size ≤ b * g.block_size + N * g.block_size := by
  obtain ⟨l, hl, hops, -⟩ := h.logged
  intro op hop
  rw [hl, List.drop_left] at hop
  obtain ⟨h₁, h₂⟩ := hops op hop
  rw [← Nat.add_mul]
  exact ⟨Nat.mul_le_mul_right _ h₁, Nat.mul_le_mul_right _ (by omega)⟩

/-- Once the block behind the partition has been passed, it was erased. -/
theorem WalkInv.not_inside (h : WalkInv g d b data len n s) (hn : N < n)
    (hl : ¬ Leaves g d b data len N N) :
    ¬ ∀ op ∈ s.dev.log.drop d.log.length, b * g.block_size ≤ op.blk g * g.block_size ∧
      (op.blk g + 1) * g.block_size ≤ b * g.block_size + N * g.block_size := by
  intro hin
  obtain ⟨hfull, hmark⟩ := not_or.mp hl
  obtain ⟨l, hlog, -, htried⟩ := h.logged
  have hop := htried N hn (Bool.eq_false_iff.mpr fun hm => hmark ⟨hm, le_rfl⟩)
    (lt_of_le_of_ne (stored_le N) hfull)
  rw [hlog, List.drop_left] at hin
  have := (hin _ hop).2
  rw [NandOp.blk, ← Nat.add_mul] at this
  exact absurd (Nat.le_of_mul_le_mul_right this g.block_pos) (by omega)

/-- A write on an address inside of a block, with something to do, erases that block. -/
theorem staysInside_unaligned_iff {g : FlashInfo} (hinit : g.init = true) (d : NandDev) {addr : ℕ}
    (data : ℕ → UInt8) (len N : ℕ) (haddr : ¬ addr % g.block_size = 0) :
    StaysInside g d addr data len (N * g.block_size) ↔ len = 0 := by
  by_cases hlen : len = 0
  · subst hlen
    refine iff_of_true (?_) rfl
    intro fuel s hs op hop
    have hdone : flash_nand_program_pass g data (N * g.block_size + addr)
        (flash_nand_program_start d addr 0) = .inr (flash_nand_program_start d addr 0) := rfl
    rw [flash_nand_program, if_neg (by rw [hinit]; decide)] at hs
    have hs' : s = flash_nand_program_start d addr 0 := by
      cases fuel with
      | zero => exact (Sum.inl.inj (hs.resolve_right (by simp [Loop.run]))).symm
      | succ n =>
          rw [Loop.run_done hdone] at hs
          exact (Sum.inr.inj (hs.resolve_left (by simp))).symm
    rw [hs'] at hop
    simp [flash_nand_program_start] at hop
  · refine iff_of_false (?_) hlen
    intro hin
    obtain ⟨s', l, hs', hlog⟩ := pass_unaligned (g := g)
      (s := flash_nand_program_start d addr len)
      data (N * g.block_size + addr) hlen haddr
    have := (hin 1 s' (.inl ?_) (.erase (addr / g.block_size)) ?_).1
    · have hdiv := Nat.div_add_mod addr g.block_size
      rw [NandOp.blk, Nat.mul_comm] at this
      omega
    · rw [flash_nand_program, if_neg (by rw [hinit]; decide), Loop.run_again hs']
      rfl
    · rw [hlog]
      simp [flash_nand_program_start]

/-- A write on an aligned address stays inside when it leaves its loop there. -/
theorem staysInside_aligned_iff {g : FlashInfo} (hinit : g.init = true) (d : NandDev) (b : ℕ)
    (data : ℕ → UInt8) (len N : ℕ) :
    StaysInside g d (b * g.block_size) data len (N * g.block_size) ↔
      Leaves g d b data len N N := by
  rcases flash_nand_program_outcome hinit d b data len N with
    ⟨e, s, r, hfirst, hleave, hinv, hdev, -, hret, hrun⟩ | ⟨hnever, -, hrun⟩
  · -- the walk leaves in front of block `N`, or it has touched this one
    by_cases heN : e ≤ N
    · apply iff_of_true
      · intro fuel s' hs'
        rcases hrun fuel with ⟨k, sk, hk, hinvk, hsk⟩ | hsr
        · rw [hsk] at hs'
          obtain rfl := Sum.inl.inj (hs'.resolve_right (by simp))
          exact hinvk.inside (by omega)
        · rw [hsr] at hs'
          obtain rfl := Sum.inr.inj (hs'.resolve_left (by simp))
          rw [hdev]
          exact hinv.inside heN
      · rcases hleave with h | ⟨hm, hNe⟩
        · exact .inl (placed_eq_len h heN)
        · obtain rfl : e = N := by omega
          exact .inr ⟨hm, le_rfl⟩
    · have hN := hfirst N (by omega)
      refine iff_of_false (?_) hN
      intro hin
      obtain ⟨fuel, hfuel⟩ := (hret r).mpr rfl
      have := hin fuel r (.inr hfuel)
      rw [hdev] at this
      exact hinv.not_inside (by omega) hN this
  · refine iff_of_false (?_) (hnever N)
    intro hin
    obtain ⟨s, hinv, hs⟩ := hrun (N + 1)
    exact hinv.not_inside (Nat.lt_succ_self N) (hnever N) (hin _ s (.inl hs))

/-- **When a partition write stays in its partition**: when nothing is asked
for, and on an aligned address when the data fits or the block behind the
partition happens to be marked bad. -/
theorem flash_nand_program_inside_iff (g : FlashInfo) (d : NandDev) (addr : ℕ) (data : ℕ → UInt8)
    (len N : ℕ) : StaysInside g d addr data len (N * g.block_size) ↔
      g.init = false ∨ len = 0 ∨ addr % g.block_size = 0 ∧
        (stored g d (addr / g.block_size) data len N = len ∨
          marked g d (addr / g.block_size) N = true) := by
  cases hinit : g.init with
  | false =>
      refine iff_of_true (?_) (.inl rfl)
      intro fuel s hs op hop
      rw [flash_nand_program_not_init hinit] at hs
      obtain rfl : s = _ := (Sum.inr.inj (hs.resolve_left (by simp))).symm
      simp [flash_nand_program_start] at hop
  | true =>
      rw [or_iff_right (by decide)]
      by_cases haddr : addr % g.block_size = 0
      · obtain ⟨b, rfl⟩ : ∃ b, addr = b * g.block_size :=
          ⟨addr / g.block_size, (Nat.div_mul_cancel (Nat.dvd_of_mod_eq_zero haddr)).symm⟩
        rw [Nat.mul_div_cancel _ g.block_pos, staysInside_aligned_iff hinit, and_iff_right haddr,
          Leaves, and_iff_left le_rfl]
        -- a length of zero is stored before the first block
        symm
        apply or_iff_right_of_imp
        rintro rfl
        exact .inl (Nat.le_zero.mp (stored_le N))
      · rw [or_iff_left fun h => haddr h.1]
        exact staysInside_unaligned_iff hinit d data len N haddr

/-- Block 0 is marked bad; block 1, behind the partition, cannot be erased and
is marked bad for it. -/
theorem flash_nand_program_not_inside :
    ¬ StaysInside ⟨0x200, 0x2000, true, by decide⟩
      ⟨fun p _ => if p = 16 ∨ p = 17 then 0xff else 0,
        ⟨fun _ => true, fun _ _ => 0, fun _ => false, fun _ => none⟩, []⟩
      0 (fun _ => 0) 1 0x2000 := by
  intro h
  have hrun := h 2 _ (.inl rfl) (.erase 1) (.head _)
  exact absurd hrun.2 (by decide)

end CsBoot.Nand
