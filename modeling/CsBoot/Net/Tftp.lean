/-
`tftpc_get` of `src/src/net/tftp_client.c`.

The program around it is given by what it sees of it: whether there is a socket,
a packet buffer and a way to the server, what each call of `udp_recvfrom`
returns, and whether each `udp_sendto` succeeds. One round of the receive loop
is a function of these (`tftp_round`); the loop goes on for as long as there are
results.

The counters are `int`s that stay far from their bounds, except the block number
that is compared with a 16-bit field and sent in one. The waiting character is
left out.
-/
import CsBoot.Lib.SkipBlocks
import CsBoot.Net.Udp

set_option autoImplicit false

namespace CsBoot.Net

open SkipBlocks

/-! ## Constants -/

def TFTP_RRQ : ℕ := 1
def TFTP_DATA : ℕ := 3
def TFTP_ACK : ℕ := 4
def TFTP_ERROR : ℕ := 5
/-- `sizeof(tftp_header_t)` -/
def TFTP_HDR_SIZE : ℕ := 4
def TFTP_BUF_SIZE : ℕ := 512
def TFTP_PKT_SIZE : ℕ := TFTP_HDR_SIZE + TFTP_BUF_SIZE
def TFTP_TIMEOUT_NUM : ℕ := 5

def TFTP_NO_BUF : ℤ := -1
def TFTP_NET_ERR : ℤ := -2
def TFTP_TIMEOUT : ℤ := -3
def TFTP_TOO_LARGE : ℤ := -4
def TFTP_UNKNOWN : ℤ := -5

/-- The two bytes of `htons(n)`. -/
def htons (n : ℕ) : List UInt8 := [UInt8.ofNat (n / 256), UInt8.ofNat n]

/-! ## The receive loop -/

/-- The variables of the receive loop of `tftpc_get`: the packet buffer `tftp`,
the memory `buf` of the caller with the place `fp` in it, and the counters. -/
structure TftpGet where
  tftp : ℕ → UInt8
  buf : ℕ → UInt8
  fp : ℕ
  len : ℤ
  total_timeouts : ℕ
  last_good_block : ℕ
  total : ℤ
  server_port : ℕ

/-- A packet handed to `udp_sendto`, and the port it goes to. -/
structure Sent where
  data : List UInt8
  port : ℕ
deriving DecidableEq

/-- What one round leaves: the variables, the packet sent, and the value
returned with `*total_size` when the function returns. -/
structure Round where
  state : TftpGet
  sent : Option Sent
  ret : Option (ℤ × ℤ)

/-- Bytes copied to the start of a buffer. -/
def fill (mem : ℕ → UInt8) (bytes : List UInt8) : ℕ → UInt8 := fun i => bytes.getD i (mem i)

/-- The loop `while (data_len-- > 0)`, from `cp` on; the flag says that it was
left with `TFTP_TOO_LARGE`. -/
def consume (s : TftpGet) (cp : ℕ → UInt8) : ℕ → TftpGet × Bool
  | 0 => (s, false)
  | data_len + 1 =>
    let r : TftpGet × (ℕ → UInt8) :=
      if 0 < s.len then
        ({ s with buf := fun i => if i = s.fp then cp 0 else s.buf i, fp := s.fp + 1 },
          fun i => cp (i + 1))
      else (s, cp)
    let s : TftpGet := { r.1 with len := r.1.len - 1 }
    if s.len ≤ 0 ∧ 0 < data_len then (s, true) else consume s r.2 data_len

/-- The packet that acknowledges `last_good_block`. -/
def ack_packet (last_good_block : ℕ) : List UInt8 := htons TFTP_ACK ++ htons last_good_block

/-- The acknowledgement is written over the packet and sent. -/
def send_ack (s : TftpGet) : TftpGet × Sent :=
  ({ s with tftp := fill s.tftp (ack_packet s.last_good_block) },
    ⟨ack_packet s.last_good_block, s.server_port⟩)

/-- `rc == 0`: no packet came. -/
def timeout_round (s : TftpGet) (send_ok : Bool) : Round :=
  let s := { s with total_timeouts := s.total_timeouts + 1 }
  if TFTP_TIMEOUT_NUM < s.total_timeouts ∨ s.last_good_block = 0 then
    ⟨s, none, some (TFTP_TIMEOUT, 0)⟩
  else
    let r := send_ack s
    ⟨r.1, some r.2, if send_ok then none else some (TFTP_NET_ERR, 0)⟩

/-- The acknowledgement of a data packet, and the test for the last one. -/
def acknowledge (s : TftpGet) (actual_len : ℤ) (send_ok : Bool) : Round :=
  let r := send_ack s
  ⟨r.1, some r.2,
    if !send_ok then some (TFTP_NET_ERR, 0)
    else if s.len = 0 ∨ 0 ≤ actual_len ∧ actual_len < TFTP_BUF_SIZE then some (0, s.total)
    else none⟩

/-- A data packet of `rc` bytes in all. -/
def data_round (s : TftpGet) (rc : ℕ) (send_ok : Bool) : Round :=
  if be16 s.tftp 2 = s.last_good_block + 1 then
    let actual_len : ℤ := rc - TFTP_HDR_SIZE
    let r := consume { s with total := s.total + actual_len } (fun i => s.tftp (TFTP_HDR_SIZE + i))
      actual_len.toNat
    if r.2 then ⟨r.1, none, some (TFTP_TOO_LARGE, 0)⟩
    else acknowledge { r.1 with last_good_block := r.1.last_good_block + 1 } actual_len send_ok
  else acknowledge s TFTP_BUF_SIZE send_ok

/-- One round of the receive loop, with the result of `udp_recvfrom` and of the
`udp_sendto` that may follow. -/
def tftp_round (s : TftpGet) (rc : RecvResult) (send_ok : Bool) : Round :=
  match rc with
  | .error _ => ⟨s, none, some (TFTP_NET_ERR, 0)⟩
  | .got datap server_port =>
    let s := { s with tftp := fill s.tftp datap, server_port := server_port }
    if datap.length = 0 then timeout_round s send_ok
    else if be16 s.tftp 0 = TFTP_DATA then data_round s datap.length send_ok
    else if be16 s.tftp 0 = TFTP_ERROR then ⟨s, none, some (be16 s.tftp 2, 0)⟩
    else ⟨s, none, some (TFTP_UNKNOWN, 0)⟩

/-- The receive loop, for as long as there are results. -/
def tftp_loop (s : TftpGet) : List (RecvResult × Bool) → TftpGet × Option (ℤ × ℤ)
  | [] => (s, none)
  | ev :: evs =>
    let r := tftp_round s ev.1 ev.2
    match r.ret with
    | some ret => (r.state, some ret)
    | none => tftp_loop r.state evs

/-! ## `tftpc_get` -/

/-- The read request. -/
def read_request (filename : List UInt8) : List UInt8 :=
  htons TFTP_RRQ ++ filename ++ [0] ++
    ['O', 'C', 'T', 'E', 'T'].map (fun c => UInt8.ofNat c.toNat) ++ [0]

/-- What `tftpc_get` finds before the loop: the results of `udp_socket`, of
`malloc` for the packet buffer, and of the `udp_sendto` of the request. -/
structure TftpStart where
  socket_ok : Bool
  malloc : Option (ℕ → UInt8)
  send_ok : Bool

/-- The variables at the first head of the loop. -/
def tftp_init (filename : List UInt8) (tftp buf : ℕ → UInt8) (len : ℤ) : TftpGet where
  tftp := fill tftp (read_request filename)
  buf := buf
  fp := 0
  len := len
  total_timeouts := 0
  last_good_block := 0
  total := 0
  server_port := 0

/-- `tftpc_get`: the memory at `buf` afterwards, and, unless it is still
running, the value returned with `*total_size`. -/
def tftpc_get (filename : List UInt8) (buf : ℕ → UInt8) (len : ℤ) (start : TftpStart)
    (events : List (RecvResult × Bool)) : (ℕ → UInt8) × Option (ℤ × ℤ) :=
  if !start.socket_ok then (buf, some (TFTP_NET_ERR, 0))
  else
    match start.malloc with
    | none => (buf, some (TFTP_NO_BUF, 0))
    | some tftp =>
      if !start.send_ok then (buf, some (TFTP_NET_ERR, 0))
      else
        let r := tftp_loop (tftp_init filename tftp buf len) events
        (r.1.buf, r.2)

end CsBoot.Net
