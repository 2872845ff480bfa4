/-
UDP reception of `src/src/net/udp.c`, as the boards without `RECOVER_FROM_BOOTP`
build it: `udp_input`, which puts the payload of a datagram into the ring of the
socket, and `udp_recvfrom`, which polls until the ring holds something and takes
bytes out.

The table has one socket (`UDP_SOCKET_MAX_NUM`), so the loops over it run once.
Ports and addresses are in host order, the pointers into the ring are offsets
from `buf_start_p`, and the `int` counters wrap. The returned frame buffer and
the printing are left out.
-/
import CsBoot.Net.Ip

set_option autoImplicit false

namespace CsBoot.Net

open ByteMem

def UDP_SOCK_BUF_SIZE : ℕ := 8 * 1024
def UDP_ERROR_NO_BUF : ℤ := -1
def UDP_ERROR_OVERFLOW : ℤ := -2

/-- `UDP_SOCK_T`, with the contents of its ring at `buf`; `has_buf` says that
`buf_start_p` is not `NULL`. -/
structure UDP_SOCK_T where
  used : Bool
  listen_port : ℕ
  from_port : ℕ
  from_ip : ℕ
  error_code : ℤ
  buf_size : ℤ
  data_size : ℤ
  has_buf : Bool
  buf : ℕ → UInt8
  buf_end_p : ℕ
  buf_in_p : ℕ
  buf_out_p : ℕ

/-- An `int` after wrapping. -/
def wrap32 (z : ℤ) : ℤ := Int.bmod z (2 ^ 32)

/-- How often `while (len--)` and its kin run for an `int`. -/
def as_count (z : ℤ) : ℕ := (z % 2 ^ 32).toNat

/-! ## `udp_init` and `udp_socket` -/

/-- `udp_init`: a socket of zeros. -/
def udp_init : UDP_SOCK_T where
  used := false
  listen_port := 0
  from_port := 0
  from_ip := 0
  error_code := 0
  buf_size := 0
  data_size := 0
  has_buf := false
  buf := fun _ => 0
  buf_end_p := 0
  buf_in_p := 0
  buf_out_p := 0

/-- `udp_socket`, with what `malloc` gives for the ring. -/
def udp_socket (s : UDP_SOCK_T) (server : ℕ) (malloc : Option (ℕ → UInt8)) : UDP_SOCK_T × ℤ :=
  if s.used then (s, -1)
  else
    let s := { s with used := true, listen_port := 0 }
    match malloc with
    | none => ({ s with has_buf := false }, -1)
    | some buf =>
      ({ s with
          has_buf := true
          from_ip := server
          buf := buf
          buf_in_p := 0
          buf_out_p := 0
          buf_end_p := UDP_SOCK_BUF_SIZE
          buf_size := UDP_SOCK_BUF_SIZE
          data_size := 0
          error_code := 0 }, 0)

/-! ## `udp_input` -/

/-- Offset of the UDP header, whatever `ihl` says. -/
def UDP_OFFSET : ℕ := ETH_HDR_SIZE + IP_HDR_SIZE

namespace Frame

variable (f : Frame)

def udp_sport : ℕ := be16 f.data UDP_OFFSET
def udp_dport : ℕ := be16 f.data (UDP_OFFSET + 2)
def udp_length : ℕ := be16 f.data (UDP_OFFSET + 4)

/-- The bytes behind the UDP header. -/
def udp_data : ℕ → UInt8 := fun i => f.data (UDP_OFFSET + UDP_HDR_SIZE + i)

end Frame

/-- `udp_pseudo_sum`, after `tot_len` was set to the UDP length. -/
def udp_pseudo_sum (f : Frame) : ℕ :=
  sum16 (fun i => f.data (ETH_HDR_SIZE + 12 + i)) 4 + 256 * f.protocol
    + le16 f.data (UDP_OFFSET + 4)

/-- `if (udp->chksum == 0xffff) udp->chksum = 0;` -/
def udp_zero_chksum (f : Frame) : ℕ → UInt8 :=
  if be16 f.data (UDP_OFFSET + 6) = 0xffff then
    fun i => if i = UDP_OFFSET + 6 ∨ i = UDP_OFFSET + 7 then 0 else f.data i
  else f.data

/-- The checksum test of `udp_input`. -/
def udp_chksum_ok (f : Frame) : Bool :=
  ip_csum (fun i => udp_zero_chksum f (UDP_OFFSET + i)) f.udp_length (udp_pseudo_sum f) = 0

/-- The datagram is for the socket. -/
def udp_match (my_ip_addr : ℕ) (s : UDP_SOCK_T) (f : Frame) : Bool :=
  s.listen_port = f.udp_dport && s.from_ip = f.saddr && f.daddr = my_ip_addr

/-- One round of the copy loop of `udp_input`. -/
def put_byte (s : UDP_SOCK_T) (b : UInt8) : UDP_SOCK_T :=
  { s with
    buf := fun i => if i = s.buf_in_p then b else s.buf i
    buf_in_p := if s.buf_end_p ≤ s.buf_in_p + 1 then 0 else s.buf_in_p + 1
    data_size := wrap32 (s.data_size + 1) }

/-- The copy loop of `udp_input`, for a count of bytes. -/
def put_bytes (s : UDP_SOCK_T) (data_p : ℕ → UInt8) : ℕ → UDP_SOCK_T
  | 0 => s
  | n + 1 => put_bytes (put_byte s (data_p 0)) (fun i => data_p (i + 1)) n

/-- `udp_input`: the socket afterwards, and the number of bytes copied out of
the frame from `UDP_OFFSET + UDP_HDR_SIZE` on. -/
def udp_input (my_ip_addr : ℕ) (s : UDP_SOCK_T) (f : Frame) : UDP_SOCK_T × ℕ :=
  let len : ℤ := f.udp_length - UDP_HDR_SIZE
  if !udp_chksum_ok f then (s, 0)
  else if udp_match my_ip_addr s f then
    let s := { s with from_port := f.udp_sport }
    if s.has_buf then
      if s.data_size + len > s.buf_size then ({ s with error_code := UDP_ERROR_OVERFLOW }, 0)
      else (put_bytes s f.udp_data (as_count len), as_count len)
    else ({ s with error_code := UDP_ERROR_NO_BUF }, 0)
  else (s, 0)

/-! ## `udp_recvfrom` -/

/-- One round of the copy loop of `udp_recvfrom`. -/
def get_byte (s : UDP_SOCK_T) : UDP_SOCK_T × UInt8 :=
  ({ s with
      buf_out_p := if s.buf_end_p ≤ s.buf_out_p + 1 then 0 else s.buf_out_p + 1
      data_size := wrap32 (s.data_size - 1) }, s.buf s.buf_out_p)

/-- The copy loop of `udp_recvfrom`, for a count of bytes. -/
def get_bytes (s : UDP_SOCK_T) : ℕ → UDP_SOCK_T × List UInt8
  | 0 => (s, [])
  | n + 1 =>
    let r := get_bytes (get_byte s).1 n
    (r.1, (get_byte s).2 :: r.2)

/-- The frames that one `enet_poll` gives to `udp_input`, one after the other. -/
def udp_poll (my_ip_addr : ℕ) (s : UDP_SOCK_T) (fs : List Frame) : UDP_SOCK_T :=
  fs.foldl (fun s f => (udp_input my_ip_addr s f).1) s

/-- How the waiting loop of `udp_recvfrom` ends. -/
inductive Waited
  | error (code : ℤ)
  | done

/-- The waiting loop of `udp_recvfrom`. The time runs out behind the last of the
polls. -/
def udp_wait (my_ip_addr : ℕ) (s : UDP_SOCK_T) : List (List Frame) → UDP_SOCK_T × Waited
  | [] => (s, .done)
  | fs :: polls =>
    if s.data_size = 0 then
      let s := udp_poll my_ip_addr s fs
      if s.error_code < 0 then (s, .error s.error_code)
      else udp_wait my_ip_addr s polls
    else (s, .done)

/-- The value of `udp_recvfrom`, the bytes it copies, and the port it reports. -/
inductive RecvResult
  | error (code : ℤ)
  | got (datap : List UInt8) (server_port : ℕ)

/-- `udp_recvfrom` on the socket, with the frames that arrive in each of its
calls of `enet_poll`, the first of which comes about in any case when the ring
is empty. -/
def udp_recvfrom (my_ip_addr : ℕ) (s : UDP_SOCK_T) (listen_port : ℕ) (max_size : ℤ)
    (fs : List Frame) (polls : List (List Frame)) : UDP_SOCK_T × RecvResult :=
  let s := { s with listen_port := listen_port }
  match udp_wait my_ip_addr s (fs :: polls) with
  | (s, .error code) => (s, .error code)
  | (s, .done) =>
    let r := get_bytes s (min (as_count s.data_size) (as_count max_size))
    (r.1, .got r.2 s.from_port)

end CsBoot.Net
