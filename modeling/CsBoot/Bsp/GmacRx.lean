/-
Received frames in `src/src/bsp/emac/sl_lepus_gmac.c`: the default queue, from which
`toe_gmac_handle_default_rxq` hands frames to `enet_input`, and the software free queue, into
which it puts the buffers back. The device works on both queues and on the buffers at the same
time, so the function is a machine here that makes one access to what it shares with the
device at a step, and the device makes any number of steps in between.

The device takes the buffer that the free queue names at its read pointer, writes into it as
it likes, and says with a descriptor in the default queue what it has received; a frame fits
one buffer. `posted` and `given` keep a record of what it said and of what `enet_input` was
called with, byte by byte as it is copied; a frame of which `enet_input` keeps nothing, for its
size or for want of a buffer, is taken to be read as well.

The messages, the statistics and the polling of the PHY are left out, and the addresses of the
queues in the registers; the fields of a descriptor are those that the function goes by.
-/
import CsBoot.Lib.RingWindow
import CsBoot.Lib.Run

set_option autoImplicit false

namespace CsBoot.Gmac

/-! ## Constants -/

def MAX_ETH_FRAME_SIZE : ℕ := 1536
def RX_BUF_SIZE : ℕ := MAX_ETH_FRAME_SIZE
/-- `RX_INSERT_2_BYTE` -/
def RX_INSERT_BYTES : ℕ := 2
/-- `1 << TOE_SW_FREEQ_DESC_POWER` -/
def TOE_SW_FREEQ_DESC_NUM : ℕ := 1024
/-- `1 << TOE_DEFAULT_Q0_DESC_POWER`; that of the other port is the same. -/
def TOE_DEFAULT_Q0_DESC_NUM : ℕ := 1024

/-- `RWPTR_ADVANCE_ONE` -/
def RWPTR_ADVANCE_ONE (x max : ℕ) : ℕ := RingWindow.next max x

/-! ## The state -/

structure DMA_RWPTR_T where
  rptr : ℕ
  wptr : ℕ

structure GMAC_RXDESC_T where
  buffer_size : ℕ
  sw_id : ℕ
  derr : Bool
  perr : Bool
  status : ℕ
  byte_count : ℕ
  buf_adr : ℕ

/-- Where `toe_gmac_handle_default_rxq` is, with its variables `rwptr` and `counter`. -/
inductive RxAt
  /-- The function is not running. -/
  | out
  /-- At the head of the loop. -/
  | loop (rwptr : DMA_RWPTR_T) (counter : ℕ)
  /-- In `enet_input`, with the bytes copied so far. -/
  | reading (rwptr : DMA_RWPTR_T) (counter : ℕ) (curr_desc : GMAC_RXDESC_T) (copied : List UInt8)
  /-- Behind the frame, before the free queue is looked at. -/
  | behind (rwptr : DMA_RWPTR_T) (counter : ℕ)
  /-- Before `SET_RPTR`. -/
  | advance (rwptr : DMA_RWPTR_T) (counter : ℕ) (fq_rwptr : DMA_RWPTR_T)
  /-- Before `SET_WPTR`. -/
  | release (rwptr : DMA_RWPTR_T) (counter : ℕ) (fq_rwptr : DMA_RWPTR_T)
  /-- In `while(1)`. -/
  | hung

/-- A frame as the device has said it. -/
structure RxFrame where
  desc : GMAC_RXDESC_T
  bytes : List UInt8

/-- Memory, queues and registers, what the software keeps of them, and the buffer that the
device is filling. -/
structure GmacRx where
  mem : ℕ → UInt8
  swfq : ℕ → GMAC_RXDESC_T
  swfq_rwptr : DMA_RWPTR_T
  default_q : ℕ → GMAC_RXDESC_T
  default_rwptr : DMA_RWPTR_T
  fq_rx_rwptr : DMA_RWPTR_T
  rx_rwptr : DMA_RWPTR_T
  at_ : RxAt
  held : Option ℕ
  posted : List RxFrame
  given : List (List UInt8)

/-! ## `toe_init_free_queue` and `toe_init_default_queue` -/

/-- A descriptor after `memset`. -/
def desc_cleared : GMAC_RXDESC_T := ⟨0, 0, false, false, 0, 0, 0⟩

/-- One round of the loop over the descriptors of the free queue. -/
def init_free_desc (skb_ptr : ℕ) (swfq : ℕ → GMAC_RXDESC_T) (i : ℕ) : ℕ → GMAC_RXDESC_T :=
  Function.update swfq i
    { desc_cleared with
      buffer_size := RX_BUF_SIZE
      sw_id := i
      buf_adr := (skb_ptr + i * RX_BUF_SIZE) % 2 ^ 32 }

def toe_init_free_queue (skb_ptr : ℕ) : ℕ → GMAC_RXDESC_T :=
  (List.range TOE_SW_FREEQ_DESC_NUM).foldl (init_free_desc skb_ptr) fun _ => desc_cleared

/-- The driver and the device after both functions. -/
def toe_init_queues (skb_ptr : ℕ) (mem : ℕ → UInt8) : GmacRx where
  mem := mem
  swfq := toe_init_free_queue skb_ptr
  swfq_rwptr := ⟨0, TOE_SW_FREEQ_DESC_NUM - 1⟩
  default_q := fun _ => desc_cleared
  default_rwptr := ⟨0, 0⟩
  fq_rx_rwptr := ⟨0, TOE_SW_FREEQ_DESC_NUM - 1⟩
  rx_rwptr := ⟨0, 0⟩
  at_ := .out
  held := none
  posted := []
  given := []

/-! ## `toe_gmac_handle_default_rxq` -/

/-- `good_frame` -/
def good_frame (d : GMAC_RXDESC_T) : Bool := !(d.derr || d.perr || d.status ≠ 0)

/-- The next step of the function, or its call. -/
def toe_gmac_handle_default_rxq (s : GmacRx) : GmacRx :=
  match s.at_ with
  | .out =>
    let rwptr := s.default_rwptr
    -- a pointer that is not the one remembered is printed, and `while(1)` entered
    if rwptr.rptr ≠ s.rx_rwptr.rptr then { s with at_ := .hung }
    else { s with at_ := .loop rwptr 0 }
  | .loop rwptr counter =>
    if rwptr.rptr ≠ rwptr.wptr ∧ counter < 16 then
      let curr_desc := s.default_q rwptr.rptr
      -- a bad frame is only counted, and its buffer goes back like any other
      if good_frame curr_desc then { s with at_ := .reading rwptr (counter + 1) curr_desc [] }
      else { s with at_ := .behind rwptr (counter + 1) }
    else { s with at_ := .out }
  | .reading rwptr counter curr_desc copied =>
    if copied.length < curr_desc.byte_count then
      let b := s.mem (curr_desc.buf_adr + RX_INSERT_BYTES + copied.length)
      { s with at_ := .reading rwptr counter curr_desc (copied ++ [b]) }
    else { s with at_ := .behind rwptr counter, given := s.given ++ [copied] }
  | .behind rwptr counter =>
    let fq_rwptr := s.swfq_rwptr
    if s.fq_rx_rwptr.wptr ≠ fq_rwptr.wptr then { s with at_ := .hung }
    else { s with at_ := .advance rwptr counter fq_rwptr }
  | .advance rwptr counter fq_rwptr =>
    let rwptr := { rwptr with rptr := RWPTR_ADVANCE_ONE rwptr.rptr TOE_DEFAULT_Q0_DESC_NUM }
    { s with
      default_rwptr := { s.default_rwptr with rptr := rwptr.rptr }
      rx_rwptr := rwptr
      at_ := .release rwptr counter fq_rwptr }
  | .release rwptr counter fq_rwptr =>
    let fq_rwptr :=
      { fq_rwptr with wptr := RWPTR_ADVANCE_ONE fq_rwptr.wptr TOE_SW_FREEQ_DESC_NUM }
    { s with
      swfq_rwptr := { s.swfq_rwptr with wptr := fq_rwptr.wptr }
      fq_rx_rwptr := fq_rwptr
      at_ := .loop rwptr counter }
  | .hung => s

/-! ## The device -/

/-- What can happen next. -/
inductive RxEvent
  | driver
  /-- The device takes a buffer. -/
  | take
  /-- It writes a byte of it. -/
  | write (i : ℕ) (b : UInt8)
  /-- It says what it has received. -/
  | post (d : GMAC_RXDESC_T)

/-- The bytes of a frame in its buffer. -/
def rx_bytes (mem : ℕ → UInt8) (d : GMAC_RXDESC_T) : List UInt8 :=
  (List.range d.byte_count).map fun i => mem (d.buf_adr + RX_INSERT_BYTES + i)

def rx_step (s : GmacRx) : RxEvent → Option GmacRx
  | .driver => some (toe_gmac_handle_default_rxq s)
  | .take =>
    if s.held = none ∧ s.swfq_rwptr.rptr ≠ s.swfq_rwptr.wptr then
      some
        { s with
          held := some (s.swfq s.swfq_rwptr.rptr).buf_adr
          swfq_rwptr :=
            { s.swfq_rwptr with
              rptr := RWPTR_ADVANCE_ONE s.swfq_rwptr.rptr TOE_SW_FREEQ_DESC_NUM } }
    else none
  | .write i b =>
    match s.held with
    | some a =>
      if i < RX_BUF_SIZE then some { s with mem := Function.update s.mem (a + i) b } else none
    | none => none
  | .post d =>
    -- the device posts the buffer that it holds, filled as far as it says
    if s.held = some d.buf_adr ∧ RX_INSERT_BYTES + d.byte_count ≤ RX_BUF_SIZE then
      some
        { s with
          default_q := Function.update s.default_q s.default_rwptr.wptr d
          default_rwptr :=
            { s.default_rwptr with
              wptr := RWPTR_ADVANCE_ONE s.default_rwptr.wptr TOE_DEFAULT_Q0_DESC_NUM }
          held := none
          posted := s.posted ++ [⟨d, rx_bytes s.mem d⟩] }
    else none

/-- What is reached from the state after the initialisation. -/
def RxReaches (skb_ptr : ℕ) (mem : ℕ → UInt8) (s : GmacRx) : Prop :=
  Reaches rx_step (fun _ _ => True) (toe_init_queues skb_ptr mem) s

/-- What `enet_input` is to be given for the frames. -/
def good_bytes (fs : List RxFrame) : List (List UInt8) :=
  (fs.filter fun f => good_frame f.desc).map RxFrame.bytes

end CsBoot.Gmac
