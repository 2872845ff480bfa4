/-
Frames that are sent in `src/src/bsp/emac/sl_lepus_gmac.c`: `toe_gmac_send` copies a frame into
the buffer that belongs to the write pointer of queue 0, fills in the descriptor there, and
moves the pointer; the device sends what lies between the two pointers.

As for received frames the function makes one access to what it shares with the device at a
step, and the device, which reads a frame byte by byte, makes any number of steps in between.
`accepted` and `sent` keep a record of the frames that the function was called with and has
handed over, and of what the device has sent.

A frame that is too long, and a full queue, are counted as dropped through a pointer that is
computed from one that has no value yet: what the call does to the memory is undefined, and such
a call has no successor here. The messages and the other statistics are left out, and the
addresses of the queue in the registers.
-/
import CsBoot.Bsp.GmacRx

set_option autoImplicit false

namespace CsBoot.Gmac

/-! ## Constants -/

def GMAC_MAX_ETH_FRAME_SIZE : ℕ := 1514
/-- `1 << TOE_GMAC0_SWTXQ_DESC_POWER`; that of the other port is the same. -/
def TOE_GMAC0_SWTXQ_DESC_NUM : ℕ := 64

/-! ## The state -/

structure GMAC_TXDESC_T where
  buffer_size : ℕ
  udp_chksum : ℕ
  tcp_chksum : ℕ
  ip_chksum : ℕ
  ipv6_enable : ℕ
  mtu_enable : ℕ
  byte_count : ℕ
  buf_adr : ℕ
  sof_eof : ℕ
  eofie : ℕ
  mtu_size : ℕ

/-- Where `toe_gmac_send` is, with the frame and its variable `rwptr`. -/
inductive TxAt
  /-- The function is not running. -/
  | out
  /-- In `memcpy`, with the number of bytes copied so far. -/
  | copying (bufp : List UInt8) (rwptr : DMA_RWPTR_T) (i : ℕ)
  /-- Before `SET_WPTR`. -/
  | ready (bufp : List UInt8) (rwptr : DMA_RWPTR_T)

/-- Memory, queue and register, and the frame that the device is sending with the bytes that it
has read. -/
structure GmacTx where
  mem : ℕ → UInt8
  swtxq : ℕ → GMAC_TXDESC_T
  swtxq_rwptr : DMA_RWPTR_T
  txbuf_ptr : ℕ → ℕ
  at_ : TxAt
  sending : Option (GMAC_TXDESC_T × List UInt8)
  accepted : List (List UInt8)
  sent : List (List UInt8)

/-! ## `toe_init_swtx_queue` -/

/-- A descriptor after `memset`. -/
def tx_desc_cleared : GMAC_TXDESC_T := ⟨0, 0, 0, 0, 0, 0, 0, 0, 0, 0, 0⟩

/-- One round of the loop over the buffers. -/
def init_txbuf (txbuf : ℕ) (txbuf_ptr : ℕ → ℕ) (j : ℕ) : ℕ → ℕ :=
  Function.update txbuf_ptr j ((txbuf + j * MAX_ETH_FRAME_SIZE) % 2 ^ 32)

def toe_init_swtx_queue (txbuf : ℕ) (mem : ℕ → UInt8) : GmacTx where
  mem := mem
  swtxq := fun _ => tx_desc_cleared
  swtxq_rwptr := ⟨0, 0⟩
  txbuf_ptr := (List.range TOE_GMAC0_SWTXQ_DESC_NUM).foldl (init_txbuf txbuf) fun _ => 0
  at_ := .out
  sending := none
  accepted := []
  sent := []

/-! ## `toe_gmac_send` -/

/-- `free_desc` -/
def free_desc (rwptr : DMA_RWPTR_T) (total_desc_num : ℕ) : ℕ :=
  if rwptr.rptr ≤ rwptr.wptr then total_desc_num - rwptr.wptr - 1 + rwptr.rptr
  else rwptr.rptr - rwptr.wptr - 1

/-- The call, up to `memcpy`: the first two words of the descriptor are filled in. There is
nothing where it goes to `isPtr->tx_dropped++`. -/
def toe_gmac_send (s : GmacTx) (bufp : List UInt8) : Option GmacTx :=
  let rwptr := s.swtxq_rwptr
  if GMAC_MAX_ETH_FRAME_SIZE < bufp.length then none
  else if free_desc rwptr TOE_GMAC0_SWTXQ_DESC_NUM = 0 then none
  else
    some { s with
      swtxq := Function.update s.swtxq rwptr.wptr
        { s.swtxq rwptr.wptr with
          buffer_size := bufp.length
          udp_chksum := 1
          tcp_chksum := 1
          ip_chksum := 1
          ipv6_enable := 1
          mtu_enable := 0
          byte_count := bufp.length }
      at_ := .copying bufp rwptr 0 }

/-- The next step of the function. -/
def toe_gmac_send_on (s : GmacTx) : GmacTx :=
  match s.at_ with
  | .out => s
  | .copying bufp rwptr i =>
    if i < bufp.length then
      { s with
        mem := Function.update s.mem (s.txbuf_ptr rwptr.wptr + i) (bufp.getD i 0)
        at_ := .copying bufp rwptr (i + 1) }
    else
      { s with
        swtxq := Function.update s.swtxq rwptr.wptr
          { s.swtxq rwptr.wptr with
            buf_adr := s.txbuf_ptr rwptr.wptr
            sof_eof := 3
            eofie := 1
            mtu_size := 1500 }
        at_ := .ready bufp rwptr }
  | .ready bufp rwptr =>
    { s with
      swtxq_rwptr :=
        { s.swtxq_rwptr with wptr := RWPTR_ADVANCE_ONE rwptr.wptr TOE_GMAC0_SWTXQ_DESC_NUM }
      at_ := .out
      accepted := s.accepted ++ [bufp] }

/-! ## The device -/

/-- What can happen next. -/
inductive TxEvent
  | send (bufp : List UInt8)
  | driver
  /-- The device takes up the first descriptor. -/
  | start
  /-- It reads a byte of the frame. -/
  | read
  /-- The frame is out. -/
  | finish

def tx_step (s : GmacTx) : TxEvent → Option GmacTx
  | .send bufp =>
    match s.at_ with
    | .out => toe_gmac_send s bufp
    | _ => none
  | .driver => some (toe_gmac_send_on s)
  | .start =>
    -- the device fetches a descriptor, and reads its buffer byte by byte from then on
    if s.sending.isNone ∧ s.swtxq_rwptr.rptr ≠ s.swtxq_rwptr.wptr then
      some { s with sending := some (s.swtxq s.swtxq_rwptr.rptr, []) }
    else none
  | .read =>
    match s.sending with
    | some (d, bytes) =>
      if bytes.length < d.byte_count then
        some { s with sending := some (d, bytes ++ [s.mem (d.buf_adr + bytes.length)]) }
      else none
    | none => none
  | .finish =>
    match s.sending with
    | some (d, bytes) =>
      if bytes.length < d.byte_count then none
      else
        some
          { s with
            swtxq_rwptr :=
              { s.swtxq_rwptr with
                rptr := RWPTR_ADVANCE_ONE s.swtxq_rwptr.rptr TOE_GMAC0_SWTXQ_DESC_NUM }
            sending := none
            sent := s.sent ++ [bytes] }
    | none => none

/-- What is reached from the state after the initialisation. -/
def TxReaches (txbuf : ℕ) (mem : ℕ → UInt8) (s : GmacTx) : Prop :=
  Reaches tx_step (fun _ _ => True) (toe_init_swtx_queue txbuf mem) s

end CsBoot.Gmac
