/-
The connections of `src/src/net/tcp.c`: the table of sockets, and what the
functions of the file do to a socket without sending anything.

The table is a function of the index. It has `TCP_SOCKET_MAX_NUM` entries;
`tcp_close` looks at what lies behind it as if it were more of them, so here the
function gives what is found there as well.

Sequence numbers are words of 32 bits. Where the code compares a field of the
header with a number without `ntohl`, the field is the word that the
little-endian machine loads (`raw`). Of a socket, the fields that this part of
the program reads are kept; `tcp_parse_options` writes only `mss`, which nothing
here reads, and is left out.
-/
import CsBoot.Net.Ip

set_option autoImplicit false

namespace CsBoot.Net

open ByteMem

/-! ## Constants -/

def TCP_SOCKET_MAX_NUM : ℕ := 5
def TCP_PORT_HTTP : ℕ := 80
def TCP_START_SEQ : ℕ := 50
/-- `sizeof(tcp_header_t)` -/
def TCP_HDR_SIZE : ℕ := 20
def ETH_MAX_PKT_SIZE : ℕ := 1514
def TCP_DATA_MAX_SIZE : ℕ := ETH_MAX_PKT_SIZE - ETH_HDR_SIZE - IP_HDR_SIZE - TCP_HDR_SIZE

def TCP_FLAG_FIN : ℕ := 1
def TCP_FLAG_SYN : ℕ := 2
def TCP_FLAG_RST : ℕ := 4
def TCP_FLAG_ACK : ℕ := 16

/-- `enum tcp_state`, and the zero of a cleared socket. -/
inductive TcpState
  | zero
  | LISTEN
  | SYN_SENT
  | SYN_RECVD
  | ESTABLISHED
  | FIN_WAIT_1
  | FIN_WAIT_2
  | CLOSE_WAIT
  | CLOSING
  | LAST_ACK
  | TIME_WAIT
  | CLOSED
deriving DecidableEq

structure TCP_SOCK_T where
  used : ℕ
  local_port : ℕ
  remote_port : ℕ
  from_ip : ℕ
  state : TcpState
  local_seq : ℕ
  remote_seq : ℕ
  flag : ℕ
  data_bytes : ℕ
  post_data : ℕ
  del_timeout : ℕ
  old_seq : ℕ
  new_seq : ℕ

/-- A socket after `memset` with zero. -/
def tcp_cleared : TCP_SOCK_T where
  used := 0
  local_port := 0
  remote_port := 0
  from_ip := 0
  state := .zero
  local_seq := 0
  remote_seq := 0
  flag := 0
  data_bytes := 0
  post_data := 0
  del_timeout := 0
  old_seq := 0
  new_seq := 0

/-! ## The header -/

/-- `SEQ_GT(a, b)`: the difference as an `int` is positive. -/
def seq_gt (a b : ℕ) : Bool := 0 < (a + W - b) % W ∧ (a + W - b) % W < W / 2

/-- `SEQ_LE(a, b)` -/
def seq_le (a b : ℕ) : Bool := !seq_gt a b

/-- A 32-bit word as the machine loads it. -/
def le32 (w : ℕ → UInt8) (i : ℕ) : ℕ := le16 w i + 65536 * le16 w (i + 2)

/-- `ntohl` of a word that was loaded. -/
def ntohl (n : ℕ) : ℕ :=
  n % 256 * 16777216 + n / 256 % 256 * 65536 + n / 65536 % 256 * 256 + n / 16777216 % 256

namespace Frame

variable (f : Frame)

/-- Offset of the TCP header. -/
def tcp_offset : ℕ := ETH_HDR_SIZE + 4 * f.ihl

def tcp_sport : ℕ := be16 f.data f.tcp_offset
def tcp_dport : ℕ := be16 f.data (f.tcp_offset + 2)
def tcp_seq : ℕ := be32 f.data (f.tcp_offset + 4)
def tcp_ack : ℕ := be32 f.data (f.tcp_offset + 8)
def tcp_seq_raw : ℕ := le32 f.data (f.tcp_offset + 4)
def tcp_ack_raw : ℕ := le32 f.data (f.tcp_offset + 8)
def tcp_hdr_len : ℕ := (f.data (f.tcp_offset + 12)).toNat / 16
def tcp_flags : ℕ := (f.data (f.tcp_offset + 13)).toNat

/-- `tcph->flags & flag`, for one of the flags. -/
def has (flag : ℕ) : Bool := f.tcp_flags / flag % 2 = 1

/-- `len`: the IP total length without the IP header. -/
def tcp_len : ℤ := f.tot_len - 4 * f.ihl

/-- `ntohs(iph->tot_len)`, after `htons(len)` was written there. -/
def tcp_tot_len : ℕ := (f.tcp_len % 65536).toNat

end Frame

/-- `tcp_pseudo_sum`, with `htons(len)` in `tot_len`. -/
def tcp_pseudo_sum (f : Frame) : ℕ :=
  sum16 (fun i => f.data (ETH_HDR_SIZE + 12 + i)) 4 + 256 * f.protocol
    + (f.tcp_tot_len % 256 * 256 + f.tcp_tot_len / 256)

/-- `if (tcph->chksum == 0xffff) tcph->chksum = 0;` -/
def tcp_zero_chksum (f : Frame) : ℕ → UInt8 :=
  if be16 f.data (f.tcp_offset + 16) = 0xffff then
    fun i => if i = f.tcp_offset + 16 ∨ i = f.tcp_offset + 17 then 0 else f.data i
  else f.data

/-- The checksum test of `tcp_input`; a negative length counts as none. -/
def tcp_chksum_ok (f : Frame) : Bool :=
  ip_csum (fun i => tcp_zero_chksum f (f.tcp_offset + i)) f.tcp_len.toNat (tcp_pseudo_sum f) = 0

/-! ## The table -/

/-- One round of the loop of `tcp_close`. It compares with the first entry. -/
def tcp_close_round (k : ℕ) (socks : ℕ → TCP_SOCK_T) (i : ℕ) : ℕ → TCP_SOCK_T :=
  if (socks (k + i)).used = 1 ∧ (socks 0).local_port = (socks (k + i)).local_port ∧
      (socks 0).remote_port = (socks (k + i)).remote_port ∧
      (socks 0).from_ip = (socks (k + i)).from_ip then
    Function.update socks (k + i) { tcp_cleared with local_port := TCP_PORT_HTTP }
  else socks

/-- `tcp_close(&tcp_socks[k])` -/
def tcp_close (socks : ℕ → TCP_SOCK_T) (k : ℕ) : ℕ → TCP_SOCK_T :=
  (List.range TCP_SOCKET_MAX_NUM).foldl (tcp_close_round k) socks

/-- `tcp_socket` for an entry that is not used. -/
def tcp_socket (sock : TCP_SOCK_T) (server local_port remote_port : ℕ) : TCP_SOCK_T :=
  { sock with
    used := 1
    local_port := local_port
    remote_port := remote_port
    from_ip := server
    post_data := 0
    state := .LISTEN
    flag := 0 }

/-- The segment belongs to the connection of the entry. -/
def tcp_match (my_ip_addr : ℕ) (f : Frame) (sock : TCP_SOCK_T) : Bool :=
  sock.remote_port = f.tcp_sport && sock.local_port = f.tcp_dport && f.daddr = my_ip_addr
    && f.saddr = sock.from_ip

/-- The entry may take a new connection from the segment. -/
def tcp_accepts (my_ip_addr : ℕ) (f : Frame) (sock : TCP_SOCK_T) : Bool :=
  sock.used = 0 && f.tcp_sport ≠ 0 && f.tcp_dport = TCP_PORT_HTTP && f.daddr = my_ip_addr

/-- `tcp_input` before the `switch`: the sockets whose time is over are closed,
and then the entry of the segment is looked up, or made. -/
def tcp_lookup (my_ip_addr : ℕ) (f : Frame) (socks : ℕ → TCP_SOCK_T) :
    (ℕ → TCP_SOCK_T) × Option ℕ :=
  let socks := (List.range TCP_SOCKET_MAX_NUM).foldl
    (fun socks i => if (socks i).del_timeout = 1 then tcp_close socks i else socks) socks
  let find (socks : ℕ → TCP_SOCK_T) (p : TCP_SOCK_T → Bool) : Option ℕ :=
    (List.range TCP_SOCKET_MAX_NUM).find? fun i => p (socks i)
  match find socks (tcp_match my_ip_addr f) with
  | some i => (socks, some i)
  | none =>
    match find socks (tcp_accepts my_ip_addr f) with
    | some i =>
      let socks := Function.update socks i (tcp_socket (socks i) f.saddr f.tcp_dport f.tcp_sport)
      (socks, find socks (tcp_match my_ip_addr f))
    | none => (socks, none)

/-! ## A segment and its socket -/

/-- `handle_data` -/
def handle_data (f : Frame) (sock : TCP_SOCK_T) : TCP_SOCK_T :=
  if seq_le f.tcp_seq sock.remote_seq then
    let data_len : ℤ := f.tcp_tot_len - 4 * f.tcp_hdr_len
    let data_len := Int.bmod (data_len - (sock.remote_seq + W - f.tcp_seq : ℕ)) W
    if 0 < data_len then { sock with remote_seq := (sock.remote_seq + data_len.toNat) % W }
    else sock
  else sock

/-- `handle_ack`. The acknowledgement goes through an `unsigned short`. What is
left of the data would be moved to the front of the packet; `data_bytes` is zero
in this program, and there is none. -/
def handle_ack (f : Frame) (sock : TCP_SOCK_T) : TCP_SOCK_T :=
  let ack := f.tcp_ack % 65536
  if seq_gt ack sock.local_seq then
    let advance := min ((ack + W - sock.local_seq) % W) sock.data_bytes
    { sock with
      local_seq := (sock.local_seq + advance) % W
      data_bytes := sock.data_bytes - advance }
  else sock

/-- The reset that a closed socket answers with: `seq`, `ack`, the ports and the
flag, as the code leaves them in the socket. In `ntohl(tcph->seq++)` the macro
evaluates its argument four times, each time one byte later. -/
def tcp_reset (f : Frame) (sock : TCP_SOCK_T) : TCP_SOCK_T :=
  let n := f.tcp_seq_raw
  let seq_ack : ℕ × ℕ :=
    if f.has TCP_FLAG_ACK then (f.tcp_ack, 0)
    else if f.has TCP_FLAG_SYN then
      (0, n % 256 * 16777216 + (n + 1) / 256 % 256 * 65536 + (n + 2) / 65536 % 256 * 256
        + (n + 3) / 16777216 % 256)
    else (0, f.tcp_seq)
  { sock with
    local_seq := seq_ack.1 % 65536
    remote_seq := seq_ack.2 % 65536
    local_port := f.tcp_dport
    remote_port := f.tcp_sport
    flag := TCP_FLAG_RST + TCP_FLAG_ACK }

end CsBoot.Net
