/-
Erasing and programming a flash block by block, `flash_erase` and `flash_program` of
`src/src/bsp/flash/flash_drv.c`.

The driver of the chip is any device with the two operations of `flash_info`, each with a
status that is not zero when it has failed. Addresses are words of 32 bits, and so is
the place behind the last byte, with which `flash_erase` compares the block it has come to.
Its block is a pointer to `unsigned short`. `flash_program` counts the bytes that are left.

`flash_program` is exact for every range (`flash_program_exact`). `flash_erase` is unless it
comes to the end of the address space without a failure, or a block is a single byte
(`flash_exact_iff`): then the pointer does not pass the end of the range.
-/
import CsBoot.Lib.Attempts
import CsBoot.Lib.ByteMem
import CsBoot.Lib.SkipBlocks

set_option autoImplicit false

namespace CsBoot.Flash

open ByteMem SkipBlocks

def FLASH_ERR_NOT_INIT : ℤ := 7

/-- `FLASH_INFO_T`, with a state for the device. -/
structure FLASH_INFO_T (σ : Type) where
  init : Bool
  block_size : ℕ
  block_mask : ℕ
  erase_block : σ → ℕ → ℕ → σ × ℤ
  program : σ → ℕ → List UInt8 → σ × ℤ

/-- What `flash_init` leaves behind when the chip is there. -/
def flash_init {σ : Type} (info : FLASH_INFO_T σ) : FLASH_INFO_T σ :=
  { info with init := true, block_mask := W - 1 - (info.block_size - 1) }

/-- The device after a call, the operations that were asked of it, the status and
`err_addr`. -/
structure Result (σ α : Type) where
  state : σ
  calls : List α
  stat : ℤ
  err_addr : ℕ

section Driver

variable {σ : Type} (info : FLASH_INFO_T σ)

/-! ## `flash_erase` -/

/-- The loop with `end_addr`: the block that is erased in a pass, -/
def erase_item (end_addr block : ℕ) : Option ℕ := if block < end_addr then some block else none

/-- and the next one, two bytes for each `unsigned short`. -/
def erase_next (block : ℕ) : ℕ := (block + info.block_size / 2 * 2) % W

def erase_op (s : σ) (block : ℕ) : σ × ℤ := info.erase_block s block info.block_size

/-- `flash_erase` returns `r`; its loop need not return. -/
def flash_erase (s : σ) (addr len err_addr : ℕ) (r : Result σ ℕ) : Prop :=
  if info.init = false then r = ⟨s, [], FLASH_ERR_NOT_INIT, err_addr⟩
  else
    ∃ o, Loop.Returns
        (Attempts.pass (erase_op info) (erase_item ((addr + len) % W)) (erase_next info))
        (s, addr &&& info.block_mask, []) o ∧
      r = ⟨o.state, o.tried, o.stat, o.failed.getD addr⟩

/-! ## `flash_program` -/

/-- The variables of the loop; `data` counts from `_data` on. -/
structure Prog where
  addr : ℕ
  data : ℕ
  len : ℕ

/-- `size` of the pass. -/
def program_size (p : Prog) : ℕ :=
  let size := if info.block_size < p.len then info.block_size else p.len
  let tmp := p.addr &&& (W - 1 - info.block_mask)
  if tmp ≠ 0 then
    let tmp := info.block_size - tmp
    if tmp < size then tmp else size
  else size

/-- What is programmed in a pass, with its address, -/
def program_item (data : ℕ → UInt8) (p : Prog) : Option (ℕ × List UInt8) :=
  if 0 < p.len then some (p.addr, firstBytes (fun i => data (p.data + i)) (program_size info p))
  else none

/-- and the variables behind it. -/
def program_next (p : Prog) : Prog :=
  let size := program_size info p
  ⟨(p.addr + size) % W, p.data + size, p.len - size⟩

def program_op (s : σ) (c : ℕ × List UInt8) : σ × ℤ := info.program s c.1 c.2

/-- `flash_program` returns `r`. Without a failure it leaves in `err_addr` what the variable
`addr` has held before it is set. -/
def flash_program (s : σ) (addr : ℕ) (data : ℕ → UInt8) (len garbage : ℕ)
    (r : Result σ (ℕ × List UInt8)) : Prop :=
  if info.init = false then r = ⟨s, [], FLASH_ERR_NOT_INIT, garbage⟩
  else
    ∃ o, Loop.Returns
        (Attempts.pass (program_op info) (program_item info data) (program_next info))
        (s, ⟨addr, 0, len⟩, []) o ∧
      r = ⟨o.state, o.tried, o.stat, (o.failed.map Prod.fst).getD garbage⟩

end Driver

/-! ## Exact access -/

/-- The blocks that intersect a range, in ascending order. -/
structure Touched (block_size addr len : ℕ) (blocks : List ℕ) : Prop where
  ascending : blocks.Pairwise (· < ·)
  mem : ∀ b, b ∈ blocks ↔ block_size ∣ b ∧ b < addr + len ∧ addr < b + block_size

/-- Pieces of data at adjacent addresses from `a` on, none of which crosses the boundary of a
block. -/
inductive Tiles (block_size : ℕ) : ℕ → List UInt8 → List (ℕ × List UInt8) → Prop
  | done {a : ℕ} : Tiles block_size a [] []
  | piece {a : ℕ} {bytes rest : List UInt8} {pieces : List (ℕ × List UInt8)} (ne : bytes ≠ [])
      (one_block : a / block_size = (a + bytes.length - 1) / block_size) :
      Tiles block_size (a + bytes.length) rest pieces →
      Tiles block_size a (bytes ++ rest) ((a, bytes) :: pieces)

/-- The call is the run of these operations up to the first that fails, with its status and
its address. -/
def Does {σ α : Type} (op : σ → α → σ × ℤ) (place : α → ℕ) (s : σ) (as : List α) (r : Result σ α) :
    Prop :=
  r.state = (Attempts.run op s as).state ∧ r.calls = (Attempts.run op s as).tried ∧
    r.stat = (Attempts.run op s as).stat ∧
    ∀ a, (Attempts.run op s as).failed = some a → r.err_addr = place a

/-- A range of the address space, with data for it. Its length is a positive `int`. -/
structure Access (σ : Type) where
  s : σ
  addr : ℕ
  len : ℕ
  data : ℕ → UInt8
  err_addr : ℕ
  len_pos : 0 < len
  len_int : len < 2147483648
  inside : addr + len ≤ W

section Exact

variable {σ : Type} (info : FLASH_INFO_T σ) (x : Access σ)

def EraseExact : Prop :=
  ∃ blocks r, Touched info.block_size x.addr x.len blocks ∧
    flash_erase info x.s x.addr x.len x.err_addr r ∧ Does (erase_op info) id x.s blocks r

def ProgramExact : Prop :=
  ∃ pieces r, Tiles info.block_size x.addr (firstBytes x.data x.len) pieces ∧
    flash_program info x.s x.addr x.data x.len x.err_addr r ∧
    Does (program_op info) Prod.fst x.s pieces r

/-- `n` blocks from `b` on. -/
def blocksFrom (block_size b : ℕ) : ℕ → List ℕ
  | 0 => []
  | n + 1 => b :: blocksFrom block_size (b + block_size) n

/-- The first byte of the block of an address. -/
def blockOf (block_size a : ℕ) : ℕ := a / block_size * block_size

def firstBlock : ℕ := blockOf info.block_size x.addr
def lastBlock : ℕ := blockOf info.block_size (x.addr + x.len - 1)

/-- The blocks of the range. -/
def rangeBlocks : List ℕ :=
  blocksFrom info.block_size (firstBlock info x)
    ((x.addr + x.len - 1) / info.block_size + 1 - x.addr / info.block_size)

/-- The erase of some block of the range fails, when they are tried in order. -/
def EraseFails : Prop := (Attempts.run (erase_op info) x.s (rangeBlocks info x)).failed ≠ none

/-- The block pointer passes the end of the range, or comes to a failure before. -/
def PassesEnd : Prop :=
  x.addr + x.len < W ∧
    if info.block_size = 1 then (info.erase_block x.s x.addr 1).2 ≠ 0
    else lastBlock info x + info.block_size < W ∨ EraseFails info x

end Exact

/-! ## Blocks -/

section Blocks

variable {block_size b n k a : ℕ}

theorem block_mask_and (hk : k < 32) (ha : a < W) :
    a &&& (W - 1 - (2 ^ k - 1)) = blockOf (2 ^ k) a := by
  have hpos : 0 < 2 ^ k := Nat.two_pow_pos k
  have hsplit : W = 2 ^ (32 - k) * 2 ^ k := by
    rw [← pow_add, show 32 - k + k = 32 by omega]
    rfl
  have hmask : W - 1 - (2 ^ k - 1) = (2 ^ (32 - k) - 1) * 2 ^ k := by
    rw [Nat.sub_mul, Nat.one_mul, ← hsplit]
    omega
  rw [hmask, blockOf]
  apply Nat.eq_of_testBit_eq
  intro i
  simp only [Nat.testBit_and, Nat.testBit_mul_two_pow, Nat.testBit_div_two_pow,
    Nat.testBit_two_pow_sub_one]
  by_cases hi : k ≤ i
  · have hadd : i - k + k = i := by omega
    by_cases h32 : i < 32
    · simp [hi, hadd, show i - k < 32 - k by omega]
    · have hzero : a.testBit i = false := by
        apply Nat.testBit_lt_two_pow
        exact ha.trans_le
          (show W ≤ 2 ^ i from Nat.pow_le_pow_right (by omega : 0 < 2) (not_lt.mp h32))
      simp [hi, hadd, hzero]
  · simp [hi]

theorem mem_blocksFrom {c : ℕ} :
    c ∈ blocksFrom block_size b n ↔ ∃ i, i < n ∧ c = b + i * block_size := by
  induction n generalizing b with
  | zero => simp [blocksFrom]
  | succ n ih =>
    rw [blocksFrom, List.mem_cons, ih]
    constructor
    · rintro (rfl | ⟨i, hi, rfl⟩)
      · exact ⟨0, Nat.succ_pos n, by omega⟩
      · exact ⟨i + 1, by omega, by rw [Nat.succ_mul]; omega⟩
    · rintro ⟨i, hi, rfl⟩
      cases i with
      | zero => exact .inl (by omega)
      | succ i => exact .inr ⟨i, by omega, by rw [Nat.succ_mul]; omega⟩

theorem pairwise_blocksFrom (hpos : 0 < block_size) :
    (blocksFrom block_size b n).Pairwise (· < ·) := by
  induction n generalizing b with
  | zero => exact List.Pairwise.nil
  | succ n ih =>
    refine List.pairwise_cons.mpr ⟨fun c hc => ?_, ih⟩
    obtain ⟨i, -, rfl⟩ := mem_blocksFrom.mp hc
    omega

theorem length_blocksFrom : (blocksFrom block_size b n).length = n := by
  induction n generalizing b with
  | zero => rfl
  | succ n ih => rw [blocksFrom, List.length_cons, ih]

/-- Two ascending lists with the same members are the same. -/
theorem Touched.unique {addr len : ℕ} {l l' : List ℕ} (h : Touched block_size addr len l)
    (h' : Touched block_size addr len l') : l = l' := by
  have hperm : l.Perm l' :=
    (List.perm_ext_iff_of_nodup (h.ascending.imp ne_of_lt) (h'.ascending.imp ne_of_lt)).mpr
      fun b => (h.mem b).trans (h'.mem b).symm
  exact hperm.eq_of_pairwise (fun a b _ _ hab hba => absurd (hab.trans hba) (lt_irrefl a))
    h.ascending h'.ascending

theorem touched_rangeBlocks {σ : Type} (info : FLASH_INFO_T σ) (x : Access σ)
    (hpos : 0 < info.block_size) :
    Touched info.block_size x.addr x.len (rangeBlocks info x) where
  ascending := pairwise_blocksFrom hpos
  mem := by
    intro b
    have hlen := x.len_pos
    have hle : x.addr / info.block_size ≤ (x.addr + x.len - 1) / info.block_size :=
      Nat.div_le_div_right (by omega)
    rw [rangeBlocks, mem_blocksFrom]
    -- block `i` of the walk is the block with the number of the first plus `i`
    constructor
    · rintro ⟨i, hi, rfl⟩
      have hsum : firstBlock info x + i * info.block_size =
          (x.addr / info.block_size + i) * info.block_size := by
        rw [firstBlock, blockOf, Nat.add_mul]
      rw [hsum]
      refine ⟨Dvd.intro_left _ rfl, ?_, ?_⟩
      · have hdiv : x.addr / info.block_size + i ≤ (x.addr + x.len - 1) / info.block_size := by
          omega
        have hmul := (Nat.le_div_iff_mul_le hpos).mp hdiv
        omega
      · have hlt := Nat.lt_div_mul_add (a := x.addr) hpos
        rw [Nat.add_mul]
        omega
    · rintro ⟨⟨q, rfl⟩, hlt, hgt⟩
      have hfirst : x.addr / info.block_size ≤ q := by
        have hq : x.addr / info.block_size < q + 1 := by
          rw [Nat.div_lt_iff_lt_mul hpos, Nat.add_mul, Nat.one_mul, Nat.mul_comm q]
          exact hgt
        omega
      have hlast : q ≤ (x.addr + x.len - 1) / info.block_size := by
        rw [Nat.le_div_iff_mul_le hpos, Nat.mul_comm]
        omega
      refine ⟨q - x.addr / info.block_size, by omega, ?_⟩
      rw [firstBlock, blockOf, ← Nat.add_mul, Nat.mul_comm]
      congr 1
      omega

end Blocks

/-! ## Programming -/

section Program

variable {σ : Type} {info : FLASH_INFO_T σ} {k : ℕ} {data : ℕ → UInt8} {p : Prog}

/-- What lies above the mask is the place in the block. -/
theorem not_block_mask (hk : k < 32) {a : ℕ} :
    a &&& (W - 1 - (W - 1 - (2 ^ k - 1))) = a % 2 ^ k := by
  have hpow : 2 ^ k < W := Nat.pow_lt_pow_right (by omega : 1 < 2) hk
  rw [Nat.sub_sub_self (by omega), Nat.and_two_pow_sub_one_eq_mod]

/-- The two limits of a chunk: what is left of the data, and of the block. -/
theorem program_size_eq (hbs : info.block_size = 2 ^ k) (hk : k < 32) :
    program_size (flash_init info) p = min p.len (2 ^ k - p.addr % 2 ^ k) := by
  have hlt := Nat.mod_lt p.addr (Nat.two_pow_pos k)
  simp only [program_size, flash_init, hbs, not_block_mask hk]
  split_ifs <;> omega

/-- A chunk ends in the block in which it begins. -/
theorem one_block_of_le {bs a n : ℕ} (hn : 0 < n) (hle : n ≤ bs - a % bs) :
    a / bs = (a + n - 1) / bs := by
  have hpos : 0 < bs := by omega
  have hlt := Nat.mod_lt a hpos
  have hmod := Nat.mod_add_div a bs
  have hsum : a + n - 1 = (a % bs + (n - 1)) + bs * (a / bs) := by omega
  have hzero : (a % bs + (n - 1)) / bs = 0 := Nat.div_eq_of_lt (by omega)
  rw [hsum, Nat.add_mul_div_left _ _ hpos, hzero, Nat.zero_add]

theorem Tiles.eq_nil {bs a : ℕ} {pieces : List (ℕ × List UInt8)} (h : Tiles bs a [] pieces) :
    pieces = [] := by
  generalize hbytes : ([] : List UInt8) = bytes at h
  cases h with
  | done => rfl
  | piece hne => exact absurd (List.append_eq_nil_iff.mp hbytes.symm).1 hne

/-- The chunks of the loop from its variables on. -/
theorem exists_chunks (hbs : info.block_size = 2 ^ k) (hk : k < 32) (data : ℕ → UInt8)
    (hin : p.addr + p.len ≤ W) :
    ∃ pieces,
      Tiles (2 ^ k) p.addr (firstBytes (fun i => data (p.data + i)) p.len) pieces ∧
      Attempts.Items (program_item (flash_init info) data) (program_next (flash_init info)) p
        pieces ∧
      program_item (flash_init info) data
        (Attempts.behind (program_next (flash_init info)) p pieces) = none := by
  -- on the bytes that are left: a chunk has at least one
  induction hlen : p.len using Nat.strong_induction_on generalizing p with
  | _ n ih =>
    subst hlen
    by_cases hzero : p.len = 0
    · refine ⟨[], ?_, trivial, ?_⟩
      · rw [hzero]
        exact Tiles.done
      · exact if_neg (by show ¬ 0 < p.len; omega)
    · have hmin : program_size (flash_init info) p = min p.len (2 ^ k - p.addr % 2 ^ k) :=
        program_size_eq hbs hk
      have hmod := Nat.mod_lt p.addr (Nat.two_pow_pos k)
      obtain ⟨size, hsize⟩ : ∃ size, program_size (flash_init info) p = size := ⟨_, rfl⟩
      rw [hsize] at hmin
      have hitem : program_item (flash_init info) data p =
          some (p.addr, firstBytes (fun i => data (p.data + i)) size) := by
        rw [program_item, if_pos (by omega), hsize]
      have hnext : program_next (flash_init info) p =
          ⟨(p.addr + size) % W, p.data + size, p.len - size⟩ := by
        rw [program_next, hsize]
      have hone : p.addr / 2 ^ k =
          (p.addr + (firstBytes (fun i => data (p.data + i)) size).length - 1) / 2 ^ k := by
        rw [length_firstBytes]
        exact one_block_of_le (by omega) (by omega)
      have hne : firstBytes (fun i => data (p.data + i)) size ≠ [] := by
        rw [← List.length_pos_iff, length_firstBytes]
        omega
      have hbytes : firstBytes (fun i => data (p.data + i)) p.len =
          firstBytes (fun i => data (p.data + i)) size ++
            firstBytes (fun i => data (p.data + size + i)) (p.len - size) := by
        conv_lhs => rw [show p.len = size + (p.len - size) by omega]
        rw [firstBytes_add]
        simp only [Nat.add_assoc]
      obtain ⟨pieces, htiles, hitems, hend⟩ := ih (p.len - size) (by omega)
        (p := program_next (flash_init info) p) (by
          rw [hnext]
          have := Nat.mod_lt (p.addr + size) (show 0 < W by decide)
          by_cases hlast : size = p.len
          · simp only [hlast, Nat.sub_self] at *
            omega
          · rw [Nat.mod_eq_of_lt (by omega)]
            show p.addr + size + (p.len - size) ≤ W
            omega) (by rw [hnext])
      refine ⟨(p.addr, firstBytes (fun i => data (p.data + i)) size) :: pieces, ?_,
        ⟨hitem, hitems⟩, hend⟩
      rw [hbytes]
      refine Tiles.piece hne hone ?_
      rw [length_firstBytes]
      rw [hnext] at htiles
      by_cases hwrap : p.addr + size < W
      · rw [Nat.mod_eq_of_lt hwrap] at htiles
        exact htiles
      · -- the address has wrapped behind the last byte of all
        have hnone : p.len - size = 0 := by omega
        simp only [hnone] at htiles ⊢
        rw [htiles.eq_nil]
        exact Tiles.done

/-- **Programming is exact**, for every range. -/
theorem flash_program_exact (hbs : info.block_size = 2 ^ k) (hk : k < 32) (x : Access σ) :
    ProgramExact (flash_init info) x := by
  obtain ⟨pieces, htiles, hitems, hend⟩ :=
    exists_chunks (p := ⟨x.addr, 0, x.len⟩) hbs hk x.data x.inside
  simp only [Nat.zero_add] at htiles
  let o := Attempts.run (program_op (flash_init info)) x.s pieces
  refine ⟨pieces, ⟨o.state, o.tried, o.stat, (o.failed.map Prod.fst).getD x.err_addr⟩, ?_, ?_,
    rfl, rfl, rfl, ?_⟩
  · rw [show (flash_init info).block_size = 2 ^ k from hbs]
    exact htiles
  · rw [flash_program, if_neg (by simp [flash_init])]
    exact ⟨o, (Attempts.returns_all hitems hend).mpr rfl, rfl⟩
  · intro a ha
    show (o.failed.map Prod.fst).getD x.err_addr = a.1
    rw [ha]
    rfl

end Program

/-! ## Erasing -/

section Erase

variable {σ : Type} {info : FLASH_INFO_T σ} {k b n end_addr : ℕ}

theorem erase_item_lt (h : b < end_addr) : erase_item end_addr b = some b := if_pos h

theorem erase_item_le (h : end_addr ≤ b) : erase_item end_addr b = none := if_neg (not_lt.mpr h)

/-- A block of two bytes or more is a number of `unsigned short`. -/
theorem erase_next_even (heven : info.block_size % 2 = 0) :
    erase_next info b = (b + info.block_size) % W := by
  rw [erase_next, Nat.div_mul_cancel (Nat.dvd_of_mod_eq_zero heven)]

/-- The loop takes the blocks one after the other, -/
theorem erase_items (heven : info.block_size % 2 = 0) (hend : end_addr ≤ W)
    (h : ∀ i, i < n → b + i * info.block_size < end_addr) :
    Attempts.Items (erase_item end_addr) (erase_next info) b (blocksFrom info.block_size b n) := by
  induction n generalizing b with
  | zero => trivial
  | succ n ih =>
    refine ⟨erase_item_lt (by simpa using h 0 (Nat.succ_pos n)), ?_⟩
    rw [erase_next_even heven]
    cases n with
    | zero => trivial
    | succ n =>
      have hsecond := h 1 (by omega)
      rw [Nat.mod_eq_of_lt (by omega)]
      refine ih fun i hi => ?_
      have hnext := h (i + 1) (by omega)
      rw [Nat.succ_mul] at hnext
      omega

/-- and stands behind them afterwards. -/
theorem behind_blocksFrom (heven : info.block_size % 2 = 0) (hb : b < W) :
    Attempts.behind (erase_next info) b (blocksFrom info.block_size b n) =
      (b + n * info.block_size) % W := by
  rw [Attempts.behind, length_blocksFrom]
  induction n with
  | zero => rw [Nat.zero_mul, Nat.add_zero, Nat.mod_eq_of_lt hb, Function.iterate_zero, id]
  | succ n ih =>
    rw [Function.iterate_succ_apply', ih, erase_next_even heven, Nat.mod_add_mod, Nat.succ_mul,
      Nat.add_assoc]

variable (x : Access σ)

/-- The loop of `flash_erase`, entered for a range. -/
def EraseLoop (info : FLASH_INFO_T σ) (x : Access σ) (o : Attempts.Outcome σ ℕ) : Prop :=
  Loop.Returns (Attempts.pass (erase_op info) (erase_item ((x.addr + x.len) % W)) (erase_next info))
    (x.s, firstBlock info x, []) o

theorem flash_erase_loop (hinit : info.init = true)
    (hmask : x.addr &&& info.block_mask = firstBlock info x) (r : Result σ ℕ) :
    flash_erase info x.s x.addr x.len x.err_addr r ↔
      ∃ o, EraseLoop info x o ∧ r = ⟨o.state, o.tried, o.stat, o.failed.getD x.addr⟩ := by
  rw [flash_erase, if_neg (by simp [hinit]), hmask]
  exact Iff.rfl

/-- It is exact if the loop is a run of the blocks, -/
theorem erase_exact_of_loop (hinit : info.init = true)
    (hmask : x.addr &&& info.block_mask = firstBlock info x) (hpos : 0 < info.block_size)
    (h : EraseLoop info x (Attempts.run (erase_op info) x.s (rangeBlocks info x))) :
    EraseExact info x := by
  refine ⟨rangeBlocks info x, _, touched_rangeBlocks info x hpos,
    (flash_erase_loop x hinit hmask _).mpr ⟨_, h, rfl⟩, rfl, rfl, rfl, ?_⟩
  intro a ha
  show Option.getD _ x.addr = a
  rw [ha]
  rfl

/-- and then the loop has tried what the run tries. -/
theorem loop_of_erase_exact (hinit : info.init = true)
    (hmask : x.addr &&& info.block_mask = firstBlock info x) (hpos : 0 < info.block_size)
    (h : EraseExact info x) :
    ∃ o, EraseLoop info x o ∧
      o.tried = (Attempts.run (erase_op info) x.s (rangeBlocks info x)).tried := by
  obtain ⟨blocks, r, htouched, hr, -, hcalls, -, -⟩ := h
  obtain ⟨o, ho, rfl⟩ := (flash_erase_loop x hinit hmask r).mp hr
  rw [htouched.unique (touched_rangeBlocks info x hpos)] at hcalls
  exact ⟨o, ho, hcalls⟩

/-- The number of blocks of the range, -/
theorem rangeBlocks_spec (info : FLASH_INFO_T σ) :
    ∃ n, rangeBlocks info x = blocksFrom info.block_size (firstBlock info x) (n + 1) ∧
      firstBlock info x + n * info.block_size = lastBlock info x := by
  have hlen := x.len_pos
  have hle : x.addr / info.block_size ≤ (x.addr + x.len - 1) / info.block_size :=
    Nat.div_le_div_right (by omega)
  refine ⟨(x.addr + x.len - 1) / info.block_size - x.addr / info.block_size, ?_, ?_⟩
  · rw [rangeBlocks]
    congr 1
    omega
  · rw [firstBlock, lastBlock, blockOf, blockOf, ← Nat.add_mul]
    congr 1
    omega

/-- of which the last has the last byte. -/
theorem lastBlock_spec (info : FLASH_INFO_T σ) (hpos : 0 < info.block_size) :
    lastBlock info x < x.addr + x.len ∧ x.addr + x.len ≤ lastBlock info x + info.block_size := by
  have hlen := x.len_pos
  have hle := Nat.div_mul_le_self (x.addr + x.len - 1) info.block_size
  have hlt := Nat.lt_div_mul_add (a := x.addr + x.len - 1) hpos
  rw [lastBlock, blockOf]
  omega

theorem firstBlock_le (info : FLASH_INFO_T σ) : firstBlock info x ≤ x.addr :=
  Nat.div_mul_le_self x.addr info.block_size

/-- A range that ends with the address space: the pointer to its end is null, and nothing is
erased. -/
theorem not_exact_of_end (hinit : info.init = true)
    (hmask : x.addr &&& info.block_mask = firstBlock info x) (hpos : 0 < info.block_size)
    (hend : x.addr + x.len = W) : ¬ EraseExact info x := by
  intro h
  obtain ⟨o, ho, htried⟩ := loop_of_erase_exact x hinit hmask hpos h
  obtain ⟨n, hblocks, -⟩ := rangeBlocks_spec x info
  rw [EraseLoop, hend, Nat.mod_self,
    Loop.returns_done (Attempts.pass_none (erase_item_le (Nat.zero_le _)))]
    at ho
  rw [ho, hblocks, blocksFrom] at htried
  exact Attempts.run_tried_ne_nil _ _ _ _ htried.symm

/-- Blocks of one byte: the pointer stays where it is. -/
theorem erase_exact_byte_iff (hinit : info.init = true)
    (hmask : x.addr &&& info.block_mask = firstBlock info x) (hone : info.block_size = 1)
    (hend : x.addr + x.len < W) :
    EraseExact info x ↔ (info.erase_block x.s x.addr 1).2 ≠ 0 := by
  have hlen := x.len_pos
  have hfirst : firstBlock info x = x.addr := by
    rw [firstBlock, blockOf, hone, Nat.div_one, Nat.mul_one]
  have hitem : erase_item ((x.addr + x.len) % W) x.addr = some x.addr :=
    erase_item_lt (by rw [Nat.mod_eq_of_lt hend]; omega)
  have hnext : erase_next info x.addr = x.addr := by
    rw [erase_next, hone]
    exact Nat.mod_eq_of_lt (by omega)
  have hop : erase_op info x.s x.addr = info.erase_block x.s x.addr 1 := by rw [erase_op, hone]
  obtain ⟨n, hblocks, -⟩ := rangeBlocks_spec x info
  rw [hfirst, blocksFrom] at hblocks
  constructor
  · intro h hok
    obtain ⟨o, ho, htried⟩ := loop_of_erase_exact x hinit hmask (by omega) h
    rw [EraseLoop, hfirst, Loop.returns_again (Attempts.pass_ok hitem (hop ▸ hok)), hnext] at ho
    -- the same block twice, which no ascending list has
    obtain ⟨rest, hrest⟩ := Attempts.tried_next hitem ho
    have hasc : (rangeBlocks info x).Pairwise (· < ·) :=
      (touched_rangeBlocks info x (by omega)).ascending
    have hpair := hasc.sublist (Attempts.run_tried_prefix (erase_op info) x.s _).sublist
    rw [← htried, ← hrest] at hpair
    simp at hpair
  · intro hfail
    apply erase_exact_of_loop x hinit hmask (by omega)
    rw [EraseLoop, hfirst, hblocks, Attempts.run_fail (hop ▸ hfail)]
    exact (Loop.returns_done (Attempts.pass_fail hitem (hop ▸ hfail))).mpr rfl

/-- Blocks of two bytes and more. -/
theorem erase_exact_even_iff (hinit : info.init = true)
    (hmask : x.addr &&& info.block_mask = firstBlock info x) (heven : info.block_size % 2 = 0)
    (hpos : 0 < info.block_size) (hdvd : info.block_size ∣ W) (hend : x.addr + x.len < W) :
    EraseExact info x ↔ lastBlock info x + info.block_size < W ∨ EraseFails info x := by
  have hlen := x.len_pos
  obtain ⟨hlt, hge⟩ := lastBlock_spec x info hpos
  obtain ⟨n, hblocks, hlast⟩ := rangeBlocks_spec x info
  have hitems : Attempts.Items (erase_item (x.addr + x.len)) (erase_next info) (firstBlock info x)
      (rangeBlocks info x) := by
    rw [hblocks]
    refine erase_items heven hend.le fun i hi => ?_
    have hle := Nat.mul_le_mul_right info.block_size (Nat.lt_succ_iff.mp hi)
    omega
  have hbehind : Attempts.behind (erase_next info) (firstBlock info x) (rangeBlocks info x) =
      (lastBlock info x + info.block_size) % W := by
    have hfirst := firstBlock_le x info
    rw [hblocks, behind_blocksFrom heven (by omega), Nat.succ_mul, ← Nat.add_assoc, hlast]
  by_cases habove : lastBlock info x + info.block_size < W
  · refine iff_of_true (erase_exact_of_loop x hinit hmask hpos ?_) (.inl habove)
    rw [EraseLoop, Nat.mod_eq_of_lt hend]
    refine (Attempts.returns_all hitems ?_).mpr rfl
    rw [hbehind, Nat.mod_eq_of_lt habove]
    exact erase_item_le hge
  · -- the pointer wraps behind the last block
    have hzero : (lastBlock info x + info.block_size) % W = 0 := by
      have hmul : info.block_size ∣ W - lastBlock info x :=
        Nat.dvd_sub hdvd (Dvd.intro_left _ rfl)
      have hle := Nat.le_of_dvd (by omega) hmul
      rw [show lastBlock info x + info.block_size = W by omega, Nat.mod_self]
    rw [hzero] at hbehind
    constructor
    · intro h
      refine .inr fun hnone => ?_
      obtain ⟨o, ho, htried⟩ := loop_of_erase_exact x hinit hmask hpos h
      rw [EraseLoop, Nat.mod_eq_of_lt hend, Attempts.returns_items hitems, if_pos hnone, hbehind,
        List.nil_append] at ho
      have hagain := (Attempts.tried_next (erase_item_lt (by omega)) ho).length_le
      rw [htried, (Attempts.tried_of_none hnone).1, List.length_append] at hagain
      simp at hagain
    · rintro (habove' | hfails)
      · exact absurd habove' habove
      · apply erase_exact_of_loop x hinit hmask hpos
        rw [EraseLoop, Nat.mod_eq_of_lt hend, Attempts.returns_items hitems, if_neg hfails]
        rfl

end Erase

/-- **When access to the flash is exact**: the pointer of `flash_erase` passes the end of the
range. -/
theorem flash_exact_iff {σ : Type} (info : FLASH_INFO_T σ) {k : ℕ}
    (hbs : info.block_size = 2 ^ k) (hk : k < 32) (x : Access σ) :
    EraseExact (flash_init info) x ∧ ProgramExact (flash_init info) x ↔
      PassesEnd (flash_init info) x := by
  have hlen := x.len_pos
  have hbs' : (flash_init info).block_size = 2 ^ k := hbs
  have hpos : 0 < (flash_init info).block_size := hbs'.symm ▸ Nat.two_pow_pos k
  have hmask : x.addr &&& (flash_init info).block_mask = firstBlock (flash_init info) x := by
    have hin := x.inside
    rw [firstBlock, hbs']
    show x.addr &&& (W - 1 - (info.block_size - 1)) = _
    rw [hbs]
    exact block_mask_and hk (by omega)
  rw [and_iff_left (flash_program_exact hbs hk x), PassesEnd]
  by_cases hend : x.addr + x.len < W
  · rw [and_iff_right hend]
    by_cases hone : (flash_init info).block_size = 1
    · rw [if_pos hone]
      exact erase_exact_byte_iff x rfl hmask hone hend
    · rw [if_neg hone]
      have hk0 : k ≠ 0 := by
        rintro rfl
        exact hone hbs'
      refine erase_exact_even_iff x rfl hmask ?_ hpos ?_ hend
      · rw [hbs', ← Nat.succ_pred_eq_of_ne_zero hk0, pow_succ, Nat.mul_mod_left]
      · rw [hbs']
        exact pow_dvd_pow 2 (show k ≤ 32 by omega)
  · refine iff_of_false (not_exact_of_end x rfl hmask hpos ?_) fun h => hend h.1
    have hin := x.inside
    omega

/-- A chip with blocks of 64 KiB on which nothing fails. -/
def soundChip : FLASH_INFO_T Unit :=
  ⟨false, 0x10000, 0, fun _ _ _ => ((), 0), fun _ _ _ => ((), 0)⟩

/-- Two bytes on both sides of a boundary. -/
theorem flash_exact_iff_boundary :
    EraseExact (flash_init soundChip)
      ⟨(), 0x1FFFF, 2, fun _ => 0, 0, by decide, by decide, by decide⟩ ∧
      ProgramExact (flash_init soundChip)
        ⟨(), 0x1FFFF, 2, fun _ => 0, 0, by decide, by decide, by decide⟩ :=
  (flash_exact_iff soundChip (k := 16) rfl (by decide) _).mpr ⟨by decide, .inl (by decide)⟩

/-- The first byte of the last block of the address space. -/
theorem top_block_erased_on :
    ¬ (EraseExact (flash_init soundChip)
        ⟨(), 0xFFFF0000, 1, fun _ => 0, 0, by decide, by decide, by decide⟩ ∧
      ProgramExact (flash_init soundChip)
        ⟨(), 0xFFFF0000, 1, fun _ => 0, 0, by decide, by decide, by decide⟩) := by
  rintro ⟨h, -⟩
  rw [erase_exact_even_iff _ rfl (by decide) (by decide) (by decide) ⟨0x10000, rfl⟩
    (by decide)] at h
  rcases h with habove | hfails
  · exact absurd habove (by decide)
  · exact hfails rfl

end CsBoot.Flash
