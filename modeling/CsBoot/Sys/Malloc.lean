/-
`src/src/sys/sys_malloc.c`: the first-fit allocator of the boot loader.

The heap is a doubly linked list of blocks, and the list lives in the same
bytes as the payloads it hands out: a block is a 32-byte header
(`SYS_MEM_BLK_T`) followed by its payload. Nothing but the header words says
where a block ends, so the model keeps the memory as bytes and reads and
writes the header fields through it; a store that lands in the wrong place
damages a payload here exactly as it does on the board.

The two loops of the file walk pointers found in memory and need not end on a
damaged list. Both take a bound on the number of iterations and answer `none`
when it runs out. A pointer has `2^32` values, so a walk that makes more steps
than that has met a block twice and the real loop is still running.

`dbg_printf` does not touch the heap and is left out.
-/
import CsBoot.Lib.ByteMem

set_option autoImplicit false

namespace CsBoot.Malloc

open ByteMem

/-! ## Constants and header fields -/

def SYS_MEM_MIN_SIZE : ℕ := 256 * 1024

/-- `('S' << 0) + ('t' << 8) + ('o' << 16) + ('r' << 24)` -/
def SYS_MEM_TAG : ℕ := 0x726f7453

/-- `((void *)-1)` -/
def SYS_MEM_END_PTR : ℕ := 0xffffffff

/-- `sizeof(SYS_MEM_BLK_T)`: five words and three of padding. -/
def BLK_SIZE : ℕ := 32

namespace SYS_MEM_BLK_T

def tag (m : ByteMem) (blk : ℕ) : ℕ := load32 m blk
def next (m : ByteMem) (blk : ℕ) : ℕ := load32 m (blk + 4)
def prev (m : ByteMem) (blk : ℕ) : ℕ := load32 m (blk + 8)
def size (m : ByteMem) (blk : ℕ) : ℕ := load32 m (blk + 12)
def used_cnt (m : ByteMem) (blk : ℕ) : ℕ := load32 m (blk + 16)

def set_tag (m : ByteMem) (blk v : ℕ) : ByteMem := store32 m blk v
def set_next (m : ByteMem) (blk v : ℕ) : ByteMem := store32 m (blk + 4) v
def set_prev (m : ByteMem) (blk v : ℕ) : ByteMem := store32 m (blk + 8) v
def set_size (m : ByteMem) (blk v : ℕ) : ByteMem := store32 m (blk + 12) v
def set_used_cnt (m : ByteMem) (blk v : ℕ) : ByteMem := store32 m (blk + 16) v

end SYS_MEM_BLK_T

open SYS_MEM_BLK_T

structure SYS_MEM_INFO_T where
  start_ptr : ℕ
  end_ptr : ℕ
  total_size : ℕ
  max_alloc_size : ℕ
  max_alloc_ptr : ℕ

/-- Iterations allowed to a loop over the block list: one for each address. -/
def LOOP_BOUND : ℕ := W

/-! ## `sys_init_memory` -/

/-- `sys_init_memory`. An area that is too small leaves everything as it was
(the C function then returns no value). -/
def sys_init_memory (info : SYS_MEM_INFO_T) (m : ByteMem) (startp size : ℕ) :
    SYS_MEM_INFO_T × ByteMem :=
  if size < SYS_MEM_MIN_SIZE then (info, m)
  else
    let info : SYS_MEM_INFO_T :=
      { start_ptr := startp
        end_ptr := startp + size - 1
        total_size := size
        max_alloc_size := size - BLK_SIZE
        max_alloc_ptr := startp }
    let m := set_tag m startp SYS_MEM_TAG
    let m := set_next m startp SYS_MEM_END_PTR
    let m := set_prev m startp SYS_MEM_END_PTR
    let m := set_size m startp (size - BLK_SIZE)
    let m := set_used_cnt m startp 0
    (info, m)

/-! ## `sys_mem_garbage_collect` -/

/-- `start_blk` grows over the free block `blk`, whose tag is cleared. -/
def absorb_blk (m : ByteMem) (start_blk blk : ℕ) : ByteMem :=
  let m := set_size m start_blk (size m start_blk + (size m blk + BLK_SIZE))
  let m := set_next m start_blk (next m blk)
  set_tag m blk 0

/-- `if (blk != SYS_MEM_END_PTR) blk->prev = start_blk` -/
def relink_prev (m : ByteMem) (start_blk blk : ℕ) : ByteMem :=
  if blk ≠ SYS_MEM_END_PTR then set_prev m blk start_blk else m

/-- `while (blk != SYS_MEM_END_PTR)` of `sys_mem_garbage_collect`. -/
def sys_mem_garbage_collect_loop : ℕ → ByteMem → ℕ → ℕ → Option ByteMem
  | 0, _, _, _ => none
  | fuel + 1, m, start_blk, blk =>
    if blk = SYS_MEM_END_PTR then some m
    else if tag m blk ≠ SYS_MEM_TAG then some m
    else if used_cnt m blk = 0 then
      -- `blk` is read again after its tag is gone: `blk->next` is still in place
      let m := absorb_blk m start_blk blk
      let blk := next m blk
      sys_mem_garbage_collect_loop fuel (relink_prev m start_blk blk) start_blk blk
    else some m

/-- `sys_mem_garbage_collect`: merge the free block `start_blk` with the free
blocks that follow it. -/
def sys_mem_garbage_collect (m : ByteMem) (start_blk : ℕ) : Option ByteMem :=
  if used_cnt m start_blk ≠ 0 then some m
  else sys_mem_garbage_collect_loop LOOP_BOUND m start_blk (next m start_blk)

/-! ## `sys_malloc`

The `while` loop of `sys_malloc` changes nothing until the iteration that
allocates, and that iteration returns. It is therefore the search
`sys_malloc_find` followed by `sys_malloc_take` on the block found. -/

/-- `size = (size + 15) & ~15`, on 32-bit words. -/
def round_size (size : ℕ) : ℕ := (size + 15) % W / 16 * 16

/-- The walk of `sys_malloc`: `some (some blk)` is the first free block with
room for `size` bytes, `some none` the end of the list or a damaged header. -/
def sys_malloc_find : ℕ → ByteMem → ℕ → ℕ → Option (Option ℕ)
  | 0, _, _, _ => none
  | fuel + 1, m, sz, blk =>
    if blk = SYS_MEM_END_PTR then some none
    else if tag m blk ≠ SYS_MEM_TAG then some none
    else if used_cnt m blk = 0 ∧ sz ≤ size m blk then some (some blk)
    else sys_malloc_find fuel m sz (next m blk)

/-- `(blk->size - size) > (2 * sizeof(SYS_MEM_BLK_T))` -/
def splits (m : ByteMem) (blk sz : ℕ) : Prop := 2 * BLK_SIZE < sub32 (size m blk) sz

instance (m : ByteMem) (blk sz : ℕ) : Decidable (splits m blk sz) :=
  inferInstanceAs (Decidable (_ < _))

/-- The split: a new free block behind the first `sz` bytes of `blk`. The
block after it keeps its `prev` field, unless the collection of `new_blk`
rewrites it. -/
def sys_malloc_split (m : ByteMem) (blk sz : ℕ) : Option ByteMem := do
  let new_blk := (blk + sz + BLK_SIZE) % W
  let m := set_tag m new_blk SYS_MEM_TAG
  let m := set_next m new_blk (next m blk)
  -- the block behind `new_blk` is not told of its new predecessor here
  let m := set_prev m new_blk blk
  let m := set_size m new_blk (sub32 (sub32 (size m blk) sz) BLK_SIZE)
  let m := set_used_cnt m new_blk 0
  let m ← sys_mem_garbage_collect m new_blk
  -- only now does the list lead to `new_blk`; until here `blk` still points past it
  return set_next m blk new_blk

/-- The allocating branch of `sys_malloc`, on the block found. -/
def sys_malloc_take (m : ByteMem) (blk sz : ℕ) : Option (ByteMem × ℕ) := do
  let m ← if splits m blk sz then sys_malloc_split m blk sz else some m
  let m := set_used_cnt m blk (used_cnt m blk + 1)
  -- `size` is cut down to the request even when nothing was split off
  let m := set_size m blk sz
  return (m, (blk + BLK_SIZE) % W)

/-- `sys_malloc`: the new memory and the pointer returned, `0` for `NULL`. -/
def sys_malloc (info : SYS_MEM_INFO_T) (m : ByteMem) (n : ℕ) : Option (ByteMem × ℕ) := do
  match ← sys_malloc_find LOOP_BOUND m (round_size n) info.start_ptr with
  | none => return (m, 0)
  | some blk => sys_malloc_take m blk (round_size n)

/-! ## `sys_free` -/

/-- `sys_free` -/
def sys_free (m : ByteMem) (datap : ℕ) : Option ByteMem :=
  if datap = 0 then some m
  else
    -- the header is found by its place in front of the payload, nothing else is checked
    let blk := sub32 datap BLK_SIZE
    if tag m blk ≠ SYS_MEM_TAG then some m
    else
      let m := set_used_cnt m blk 0
      if prev m blk ≠ SYS_MEM_END_PTR ∧ used_cnt m (prev m blk) = 0 then
        sys_mem_garbage_collect m (prev m blk)
      else sys_mem_garbage_collect m blk

/-! ## `dump_malloc_list` -/

/-- The rows `dump_malloc_list` prints: location, size and use count of each
block, up to the end of the list or a damaged header. -/
def dump_malloc_list : ℕ → ByteMem → ℕ → Option (List (ℕ × ℕ × ℕ))
  | 0, _, _ => none
  | fuel + 1, m, blk =>
    if blk = SYS_MEM_END_PTR then some []
    else if tag m blk ≠ SYS_MEM_TAG then some []
    else (dump_malloc_list fuel m (next m blk)).map ((blk, size m blk, used_cnt m blk) :: ·)

end CsBoot.Malloc
