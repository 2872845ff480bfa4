/-
Received frames: the headers of `src/inc/net.h`, the checksum of
`src/src/net/chksum.h`, and what `ip_input` of `src/src/net/ip.c` asks of a
frame before it hands it on.

The machine is little-endian and the headers are big-endian; a field is read
here as the value that `ntohs` or `ntohl` gives, except where the code uses the
word as it loads it, in the checksum.

The memory of a network buffer holds more than the frame: behind the `len` bytes
received there is what earlier frames left. A frame is therefore all the memory
from `datap` on, together with the length.
-/
import CsBoot.Lib.ByteMem

set_option autoImplicit false

namespace CsBoot.Net

open ByteMem

/-! ## Constants -/

def ETH_MAC_SIZE : ℕ := 6
/-- `sizeof(eth_header_t)` -/
def ETH_HDR_SIZE : ℕ := 14
/-- `sizeof(ip_header_t)` -/
def IP_HDR_SIZE : ℕ := 20
def IP_PKT_SIZE : ℕ := IP_HDR_SIZE + ETH_HDR_SIZE
/-- `sizeof(udp_header_t)` -/
def UDP_HDR_SIZE : ℕ := 8
def NETBUF_HDR_SIZE : ℕ := 32
def NETBUF_SIZE : ℕ := NETBUF_HDR_SIZE + 2048

def IP_PROTO_ICMP : ℕ := 1
def IP_PROTO_TCP : ℕ := 6
def IP_PROTO_UDP : ℕ := 17

/-! ## Frames -/

/-- The memory at `datap` of a network buffer, and the number of bytes received. -/
structure Frame where
  data : ℕ → UInt8
  len : ℕ

section Words

variable (w : ℕ → UInt8) (i : ℕ)

/-- A 16-bit word as the machine loads it. -/
def le16 : ℕ := (w i).toNat + 256 * (w (i + 1)).toNat

/-- `ntohs` of the word. -/
def be16 : ℕ := 256 * (w i).toNat + (w (i + 1)).toNat

/-- `ntohl` of the 32-bit word. -/
def be32 : ℕ := 65536 * be16 w i + be16 w (i + 2)

end Words

namespace Frame

variable (f : Frame)

/-- `ntohs(eth_hdr->type)` -/
def eth_type : ℕ := be16 f.data 12

def ihl : ℕ := (f.data ETH_HDR_SIZE).toNat % 16
def version : ℕ := (f.data ETH_HDR_SIZE).toNat / 16
def tot_len : ℕ := be16 f.data (ETH_HDR_SIZE + 2)
def frag_off : ℕ := be16 f.data (ETH_HDR_SIZE + 6)
def protocol : ℕ := (f.data (ETH_HDR_SIZE + 9)).toNat
def saddr : ℕ := be32 f.data (ETH_HDR_SIZE + 12)
def daddr : ℕ := be32 f.data (ETH_HDR_SIZE + 16)

end Frame

/-! ## `ip_csum` -/

/-- The sum of `n` words. -/
def sum16 (w : ℕ → UInt8) : ℕ → ℕ
  | 0 => 0
  | n + 1 => sum16 w n + le16 w (2 * n)

/-- `ip_csum`. The sum is a 32-bit word whose halves are added; an odd byte at
the end is the low byte of a word. -/
def ip_csum (w : ℕ → UInt8) (len init_sum : ℕ) : ℕ :=
  let sum := init_sum + sum16 w (len / 2)
  let sum := if len % 2 = 1 then sum + (w (len - 1)).toNat else sum
  let sum := sum % W % 65536 + sum % W / 65536
  let sum := if 65535 < sum then sum - 65535 else sum
  let s := 65535 - sum % 65536
  s % 256 * 256 + s / 256

/-! ## `ip_input` -/

/-- The tests of `ip_input` before the `switch` on the protocol; a frame that
fails one goes to `ip_input_end`. `my_ip_addr` is `sys_get_ip_addr()`. -/
def ip_input_accepts (my_ip_addr : ℕ) (f : Frame) : Bool :=
  !(f.ihl < 5 || f.version ≠ 4) && !(f.len < IP_PKT_SIZE)
    && !(f.daddr ≠ 0xffffffff && f.daddr ≠ my_ip_addr)
    && !(f.frag_off / 0x2000 % 2 = 1)
    && ip_csum (fun i => f.data (ETH_HDR_SIZE + i)) (4 * f.ihl) 0 = 0

end CsBoot.Net
