/-
What `tcp_output` of `src/src/net/tcp.c` puts into a packet, and what `ip_output`
and `enet_send` put in front of it.

A packet is written into the memory of a network buffer, where each field that is
not written keeps what was there before. `tcp_output` fills in the addresses and
the protocol of the IP header for `tcp_pseudo_sum`, from the fields it has at hand:
the length in the order of the machine, or, with SYN, no length at all, and the
address in the ARP entry. `ip_output` writes the whole header afterwards.

A sum of 16-bit words with the carries added is a number modulo 65535, which is
what the proofs reckon in (`ip_csum_eq_zero_iff`, `ip_csum_fill`).
-/
import Mathlib.Data.Nat.ModEq
import CsBoot.Lib.RangeStore
import CsBoot.Net.Enet
import CsBoot.Net.Tftp

set_option autoImplicit false

namespace CsBoot.Net

open ByteMem RangeStore

/-! ## Writing into a packet -/

/-- Bytes at an offset. -/
def put (m : ℕ → UInt8) (i : ℕ) (l : List UInt8) : ℕ → UInt8 :=
  splice m i l.length fun j => l.getD j 0

theorem put_outside {m : ℕ → UInt8} {a x : ℕ} {l : List UInt8} (h : x < a ∨ a + l.length ≤ x) :
    put m a l x = m x := splice_outside h

theorem put_add {m : ℕ → UInt8} {a i : ℕ} {l : List UInt8} (h : i < l.length) :
    put m a l (a + i) = l.getD i 0 := splice_add h

/-- The four bytes of `htonl(n)`. -/
def htonl (n : ℕ) : List UInt8 := htons (n / 65536) ++ htons n

/-- The two bytes of a number as the machine stores it. -/
def host16 (n : ℕ) : List UInt8 := [UInt8.ofNat n, UInt8.ofNat (n / 256)]

@[simp] theorem length_htons (n : ℕ) : (htons n).length = 2 := rfl

@[simp] theorem length_htonl (n : ℕ) : (htonl n).length = 4 := rfl

@[simp] theorem length_host16 (n : ℕ) : (host16 n).length = 2 := rfl

/-! ## The functions -/

/-- `tcp_pseudo_sum`, of the IP header as it is. -/
def pseudo_sum (m : ℕ → UInt8) : ℕ :=
  sum16 (fun i => m (ETH_HDR_SIZE + 12 + i)) 4 + 256 * (m (ETH_HDR_SIZE + 9)).toNat
    + le16 m (ETH_HDR_SIZE + 2)

/-- The machine: its addresses, and `ip_ident`. -/
structure NetHost where
  my_ip_addr : ℕ
  mac_addr : List UInt8
  ip_ident : ℕ

/-- Offset of the TCP header in a packet that is sent. -/
def TCP_AT : ℕ := ETH_HDR_SIZE + IP_HDR_SIZE

/-- `htonl(0x02040400)`, the MSS option. -/
def tcp_magic : List UInt8 := [0x02, 0x04, 0x04, 0x00]

/-- `sock->flag & TCP_CNTRL_SYN` -/
def sends_syn (sock : TCP_SOCK_T) : Bool := sock.flag / TCP_FLAG_SYN % 2 = 1

/-- `netbuf_p->len` in `tcp_output`. -/
def tcp_output_len (sock : TCP_SOCK_T) (len : ℕ) : ℕ :=
  if sends_syn sock then len + TCP_HDR_SIZE + 4 else len + TCP_HDR_SIZE

section Output

variable (net : NetHost) (sock : TCP_SOCK_T) (datap : List UInt8) (host sport dport : ℕ)
  (arp : ARP_ENTRY_T)

/-- `tcp_output` before it takes the checksum. The packet has `data_bytes` as the
socket has it; `flags |= TCP_CNTRL_PSH` is overwritten. -/
def tcp_output_fill (m : ℕ → UInt8) : ℕ → UInt8 :=
  let m := put m (TCP_AT + 4) (htonl sock.local_seq)
  let m := put m (TCP_AT + 8) (htonl sock.remote_seq)
  let hdr_len (n : ℕ) : List UInt8 := [UInt8.ofNat ((m (TCP_AT + 12)).toNat % 16 + 16 * n)]
  let m :=
    if sends_syn sock then
      let m := put m (TCP_AT + 12) (hdr_len 6)
      let m := put m (TCP_AT + 20) tcp_magic
      put m (TCP_AT + 24) datap
    else
      let m := put m (TCP_AT + 12) (hdr_len 5)
      let m := put m (ETH_HDR_SIZE + 2) (host16 (datap.length + TCP_HDR_SIZE + sock.data_bytes))
      put m (TCP_AT + 20) datap
  let m := put m (TCP_AT + 16) [0, 0]
  let m := put m TCP_AT (htons sport)
  let m := put m (TCP_AT + 2) (htons dport)
  let m := put m (TCP_AT + 13) [UInt8.ofNat sock.flag]
  let m := put m (TCP_AT + 14) (htons 0x0400)
  let m := put m (TCP_AT + 18) [0, 0]
  let m := put m (ETH_HDR_SIZE + 12) (htonl net.my_ip_addr)
  let m := put m (ETH_HDR_SIZE + 16) (htonl arp.ip_addr)
  put m (ETH_HDR_SIZE + 9) [UInt8.ofNat IP_PROTO_TCP]

/-- `tcp_output`, up to the call of `ip_output`. -/
def tcp_output_packet (m : ℕ → UInt8) : ℕ → UInt8 :=
  let m := tcp_output_fill net sock datap sport dport arp m
  put m (TCP_AT + 16) (htons (ip_csum (fun i => m (TCP_AT + i))
    (tcp_output_len sock datap.length) (pseudo_sum m)))

/-- `ip_output`, up to the call of `enet_send`; `len` is `netbuf_p->len` with the
header. -/
def ip_output_packet (protocol len : ℕ) (m : ℕ → UInt8) : ℕ → UInt8 :=
  let m := put m ETH_HDR_SIZE [0x45, 0]
  let m := put m (ETH_HDR_SIZE + 2) (htons len)
  let m := put m (ETH_HDR_SIZE + 4) (htons net.ip_ident)
  let m := put m (ETH_HDR_SIZE + 6) [0, 0, 64, UInt8.ofNat protocol, 0, 0]
  let m := put m (ETH_HDR_SIZE + 12) (htonl net.my_ip_addr)
  let m := put m (ETH_HDR_SIZE + 16) (htonl host)
  put m (ETH_HDR_SIZE + 10)
    (htons (ip_csum (fun i => m (ETH_HDR_SIZE + i)) IP_HDR_SIZE 0))

/-- `enet_send`: what the driver is given. -/
def enet_send_packet (ether_type len : ℕ) (dest : List UInt8) (m : ℕ → UInt8) : Frame where
  data :=
    let m := put m ETH_MAC_SIZE (net.mac_addr.take ETH_MAC_SIZE)
    let m := put m 0 (dest.take ETH_MAC_SIZE)
    put m 12 (htons ether_type)
  len := len + ETH_HDR_SIZE

/-- The frame that `tcp_output` sends, from a buffer with these bytes; `arp` is the
entry for `host`. -/
def tcp_output_frame (m : ℕ → UInt8) : Option Frame :=
  if TCP_DATA_MAX_SIZE < datap.length then none
  else
    let len := tcp_output_len sock datap.length + IP_HDR_SIZE
    some (enet_send_packet net ETH_TYPE_IP len arp.mac_addr
      (ip_output_packet net host IP_PROTO_TCP len
        (tcp_output_packet net sock datap sport dport arp m)))

end Output

/-! ## Sums -/

section Sums

variable {w w' : ℕ → UInt8} {n k len init : ℕ}

theorem le16_le (w : ℕ → UInt8) (i : ℕ) : le16 w i ≤ 65535 := by
  have h₀ := (w i).toNat_lt
  have h₁ := (w (i + 1)).toNat_lt
  unfold le16
  omega

theorem sum16_le (w : ℕ → UInt8) (n : ℕ) : sum16 w n ≤ 65535 * n := by
  induction n with
  | zero => exact le_rfl
  | succ n ih =>
      have h := le16_le w (2 * n)
      rw [sum16]
      omega

theorem sum16_congr (h : ∀ i, i < 2 * n → w i = w' i) : sum16 w n = sum16 w' n := by
  induction n with
  | zero => rfl
  | succ n ih =>
      rw [sum16, sum16, ih fun i hi => h i (by omega), le16, le16, h (2 * n) (by omega),
        h (2 * n + 1) (by omega)]

/-- The sum that `ip_csum` makes a checksum of. -/
def csum_total (w : ℕ → UInt8) (len init : ℕ) : ℕ :=
  init + sum16 w (len / 2) + if len % 2 = 1 then (w (len - 1)).toNat else 0

theorem csum_total_le (w : ℕ → UInt8) (len init : ℕ) :
    csum_total w len init ≤ init + 65535 * (len / 2) + 255 := by
  have h := sum16_le w (len / 2)
  have hlast := (w (len - 1)).toNat_lt
  unfold csum_total
  split <;> omega

theorem csum_total_congr (h : ∀ i, i < len → w i = w' i) :
    csum_total w len init = csum_total w' len init := by
  unfold csum_total
  rw [sum16_congr fun i hi => h i (by omega)]
  split
  · rw [h (len - 1) (by omega)]
  · rfl

/-- The sum with its halves added, as `ip_csum` complements it. -/
theorem ip_csum_eq (h : csum_total w len init < W) :
    ∃ s, s ≤ 65535 ∧ (s = 0 ↔ csum_total w len init = 0) ∧
      csum_total w len init ≡ s [MOD 65535] ∧
      ip_csum w len init = (65535 - s) % 256 * 256 + (65535 - s) / 256 := by
  unfold csum_total at *
  unfold ip_csum
  dsimp only
  have hsum : (if len % 2 = 1 then init + sum16 w (len / 2) + (w (len - 1)).toNat
      else init + sum16 w (len / 2)) =
      init + sum16 w (len / 2) + if len % 2 = 1 then (w (len - 1)).toNat else 0 := by
    split <;> rfl
  rw [hsum]
  generalize init + sum16 w (len / 2) + (if len % 2 = 1 then (w (len - 1)).toNat else 0) = t at *
  unfold W at *
  rw [Nat.mod_eq_of_lt h]
  unfold Nat.ModEq
  by_cases hbig : 65535 < t % 65536 + t / 65536
  · refine ⟨t % 65536 + t / 65536 - 65535, by omega, by omega, by omega, ?_⟩
    rw [if_pos hbig, Nat.mod_eq_of_lt (a := t % 65536 + t / 65536 - 65535) (by omega)]
  · refine ⟨t % 65536 + t / 65536, by omega, by omega, by omega, ?_⟩
    rw [if_neg hbig, Nat.mod_eq_of_lt (a := t % 65536 + t / 65536) (by omega)]

theorem csum_total_init (w : ℕ → UInt8) (len init : ℕ) :
    csum_total w len init = init + csum_total w len 0 := by
  unfold csum_total
  omega

/-- The test of a checksum. -/
theorem ip_csum_eq_zero_iff (h : csum_total w len init < W) (hpos : 0 < csum_total w len init) :
    ip_csum w len init = 0 ↔ csum_total w len init ≡ 0 [MOD 65535] := by
  obtain ⟨s, hs, hzero, hmod, hsum⟩ := ip_csum_eq h
  rw [hsum]
  unfold Nat.ModEq at *
  omega

/-- A word of zero is replaced in the sum. -/
theorem sum16_put (h₀ : w (2 * k) = 0) (h₁ : w (2 * k + 1) = 0) (hk : k < n) (a b : UInt8) :
    sum16 (put w (2 * k) [a, b]) n = sum16 w n + (a.toNat + 256 * b.toNat) := by
  have ha : put w (2 * k) [a, b] (2 * k) = a := put_add (l := [a, b]) (i := 0) (by simp)
  have hb : put w (2 * k) [a, b] (2 * k + 1) = b := put_add (l := [a, b]) (i := 1) (by simp)
  induction n with
  | zero => omega
  | succ n ih =>
      rw [sum16, sum16]
      by_cases hkn : k = n
      · subst hkn
        have hfirst : sum16 (put w (2 * k) [a, b]) k = sum16 w k :=
          sum16_congr fun i hi => put_outside (by omega)
        rw [hfirst, le16, le16, ha, hb, h₀, h₁]
        simp
      · have hrest : le16 (put w (2 * k) [a, b]) (2 * n) = le16 w (2 * n) := by
          unfold le16
          rw [put_outside (by simp; omega), put_outside (by simp; omega)]
        rw [ih (by omega), hrest]
        omega

/-- **A checksum that is filled in** makes the sum a multiple of 65535 other than zero. -/
theorem csum_total_fill (h : csum_total w len init < W) (h₀ : w (2 * k) = 0)
    (h₁ : w (2 * k + 1) = 0) (hk : 2 * k + 1 < len) :
    ∃ c, c ≤ 65535 ∧
      csum_total (put w (2 * k) (htons (ip_csum w len init))) len init =
        csum_total w len init + c ∧
      csum_total w len init + c ≡ 0 [MOD 65535] ∧ 0 < csum_total w len init + c := by
  obtain ⟨s, hs, hzero, hmod, hsum⟩ := ip_csum_eq h
  refine ⟨65535 - s, Nat.sub_le _ _, ?_, ?_, by omega⟩
  · have hlast : put w (2 * k) (htons (ip_csum w len init)) (len - 1) = w (len - 1) ∨
        len % 2 ≠ 1 := by
      by_cases hodd : len % 2 = 1
      · exact .inl (put_outside (by simp [htons]; omega))
      · exact .inr hodd
    unfold csum_total
    rw [show htons (ip_csum w len init) = [UInt8.ofNat (ip_csum w len init / 256),
      UInt8.ofNat (ip_csum w len init)] from rfl] at hlast ⊢
    rw [sum16_put h₀ h₁ (by omega)]
    -- the two bytes that are filled in are the complement of the sum, as one word
    have hword : (UInt8.ofNat (ip_csum w len init / 256)).toNat
        + 256 * (UInt8.ofNat (ip_csum w len init)).toNat = 65535 - s := by
      rw [hsum]
      simp only [UInt8.toNat_ofNat']
      have hhigh : (65535 - s) / 256 < 256 := by omega
      have hlow : (65535 - s) % 256 < 256 := Nat.mod_lt _ (by norm_num)
      have hsplit := Nat.mod_add_div (65535 - s) 256
      generalize (65535 - s) / 256 = high at *
      generalize (65535 - s) % 256 = low at *
      omega
    rw [hword]
    rcases hlast with hlast | hlast
    · rw [hlast]
      omega
    · rw [if_neg hlast, if_neg hlast]
      omega
  · unfold Nat.ModEq at *
    omega

/-- It is not 0xffff unless all that is summed is zero. -/
theorem ip_csum_fill (h : csum_total w len init < W) (hpos : 0 < csum_total w len init)
    (h₀ : w (2 * k) = 0) (h₁ : w (2 * k + 1) = 0) (hk : 2 * k + 1 < len) :
    ip_csum w len init < 0xffff ∧
      ∃ c, csum_total (put w (2 * k) (htons (ip_csum w len init))) len init =
          csum_total w len init + c ∧
        csum_total w len init + c ≡ 0 [MOD 65535] := by
  obtain ⟨s, hs, hzero, hmod, hsum⟩ := ip_csum_eq h
  obtain ⟨c, -, htotal, hfill, -⟩ := csum_total_fill h h₀ h₁ hk
  exact ⟨by omega, c, htotal, hfill⟩

end Sums

/-- The two words of an address: 256 is how the order of the bytes shows modulo
65535, and 65536 is one. -/
theorem address_words (n : ℕ) : ∃ k, 256 * (n % W) =
    n / 16777216 % 256 + 256 * (n / 65536 % 256) + (n / 256 % 256 + 256 * (n % 256))
      + 65535 * k := by
  refine ⟨65537 * (n / 16777216 % 256) + 256 * (n / 65536 % 256) + n / 256 % 256, ?_⟩
  have hn : n % W = 16777216 * (n / 16777216 % 256) + 65536 * (n / 65536 % 256)
      + 256 * (n / 256 % 256) + n % 256 := by
    unfold W
    omega
  rw [hn]
  ring

theorem sum16_addresses {w : ℕ → UInt8} {a b : ℕ} (ha : ∀ i, i < 4 → w i = (htonl a).getD i 0)
    (hb : ∀ i, i < 4 → w (4 + i) = (htonl b).getD i 0) :
    sum16 w 4 ≡ 256 * (a % W + b % W) [MOD 65535] := by
  have hbytes : ∀ n i, i < 4 → ((htonl n).getD i 0).toNat =
      [n / 16777216 % 256, n / 65536 % 256, n / 256 % 256, n % 256].getD i 0 := by
    intro n i hi
    unfold htonl htons
    interval_cases i <;> simp [Nat.div_div_eq_div_mul]
  have hsum : sum16 w 4 = (w 0).toNat + 256 * (w 1).toNat + ((w 2).toNat + 256 * (w 3).toNat)
      + ((w (4 + 0)).toNat + 256 * (w (4 + 1)).toNat)
      + ((w (4 + 2)).toNat + 256 * (w (4 + 3)).toNat) := by
    simp [sum16, le16]
  rw [hsum, ha 0 (by omega), ha 1 (by omega), ha 2 (by omega), ha 3 (by omega), hb 0 (by omega),
    hb 1 (by omega), hb 2 (by omega), hb 3 (by omega), hbytes a 0 (by omega),
    hbytes a 1 (by omega), hbytes a 2 (by omega), hbytes a 3 (by omega), hbytes b 0 (by omega),
    hbytes b 1 (by omega), hbytes b 2 (by omega), hbytes b 3 (by omega)]
  simp only [List.getD_cons_zero, List.getD_cons_succ]
  obtain ⟨k, hk⟩ := address_words a
  obtain ⟨l, hl⟩ := address_words b
  rw [Nat.mul_add, hk, hl]
  unfold Nat.ModEq
  omega

/-! ## The packet -/

section Packet

variable {net : NetHost} {sock : TCP_SOCK_T} {datap : List UInt8} {host sport dport : ℕ}
  {arp : ARP_ENTRY_T} {m : ℕ → UInt8}

/-- `iph->tot_len` as `tcp_pseudo_sum` loads it in `tcp_output`: the length in the
order of the machine, or what was in the buffer. -/
def tot_len_loaded (sock : TCP_SOCK_T) (len : ℕ) (m : ℕ → UInt8) : ℕ :=
  if sends_syn sock then le16 m (ETH_HDR_SIZE + 2)
  else (len + TCP_HDR_SIZE + sock.data_bytes) % 65536

/-- The header that `tcp_output` sums up and the one that `ip_output` writes make the
same modulo 65535. -/
def SumsAgree (sock : TCP_SOCK_T) (len host : ℕ) (arp : ARP_ENTRY_T) (m : ℕ → UInt8) : Prop :=
  256 * (arp.ip_addr % W) + tot_len_loaded sock len m ≡
    256 * (host % W + tcp_output_len sock len) [MOD 65535]

/-- On the link, without SYN and with nothing left to send, it is a matter of the
length: a number below 65536 and the one with its bytes swapped. -/
theorem sumsAgree_on_link {len : ℕ} (hlen : len ≤ TCP_DATA_MAX_SIZE)
    (hsyn : sends_syn sock = false) (hdata : sock.data_bytes = 0) (hlink : arp.ip_addr = host) :
    SumsAgree sock len host arp m ↔ 257 ∣ len + TCP_HDR_SIZE := by
  have hmax : TCP_DATA_MAX_SIZE = 1460 := by decide
  have hnext : SumsAgree sock len host arp m ↔
      256 * (host % W) + (len + TCP_HDR_SIZE) ≡
        256 * (host % W) + 256 * (len + TCP_HDR_SIZE) [MOD 65535] := by
    unfold SumsAgree tot_len_loaded tcp_output_len
    have hmod : (len + TCP_HDR_SIZE + 0) % 65536 = len + TCP_HDR_SIZE :=
      Nat.mod_eq_of_lt (by unfold TCP_HDR_SIZE; omega)
    simp only [hsyn, Bool.false_eq_true, if_false, hlink, hdata]
    rw [hmod, Nat.mul_add]
  rw [hnext, Nat.ModEq.add_iff_left rfl]
  unfold Nat.ModEq TCP_HDR_SIZE
  omega

theorem tcp_output_fill_chksum :
    tcp_output_fill net sock datap sport dport arp m (TCP_AT + 16) = 0 ∧
      tcp_output_fill net sock datap sport dport arp m (TCP_AT + 17) = 0 := by
  constructor <;>
    simp [tcp_output_fill, put, splice, TCP_AT, ETH_HDR_SIZE, IP_HDR_SIZE, htons, htonl]

/-- The header that `tcp_pseudo_sum` reads in `tcp_output`. -/
theorem tcp_output_fill_header :
    let m' := tcp_output_fill net sock datap sport dport arp m
    (∀ i, i < 4 → m' (26 + i) = (htonl net.my_ip_addr).getD i 0) ∧
      (∀ i, i < 4 → m' (30 + i) = (htonl arp.ip_addr).getD i 0) ∧
      m' 23 = 6 ∧ le16 m' 16 = tot_len_loaded sock datap.length m := by
  unfold tcp_output_fill tot_len_loaded
  refine ⟨fun i hi => ?_, fun i hi => ?_, ?_, ?_⟩
  · interval_cases i <;>
      simp [put, splice, TCP_AT, ETH_HDR_SIZE, IP_HDR_SIZE, htons, htonl]
  · interval_cases i <;>
      simp [put, splice, TCP_AT, ETH_HDR_SIZE, IP_HDR_SIZE, htons, htonl]
  · simp [put, splice, TCP_AT, ETH_HDR_SIZE, IP_HDR_SIZE, htons, htonl]
    decide
  · cases hsyn : sends_syn sock with
    | true =>
        simp [le16, put, splice, TCP_AT, ETH_HDR_SIZE, IP_HDR_SIZE, htons, htonl]
    | false =>
        simp [le16, put, splice, TCP_AT, ETH_HDR_SIZE, IP_HDR_SIZE, htons, htonl, host16]
        omega

/-- What `ip_output` and `enet_send` put in front of a packet. -/
theorem ip_output_frame_spec (net : NetHost) (host protocol len : ℕ) (dest : List UInt8)
    (m : ℕ → UInt8) :
    let f := enet_send_packet net ETH_TYPE_IP len dest (ip_output_packet net host protocol len m)
    (∀ i, TCP_AT ≤ i → f.data i = m i) ∧
      f.data ETH_HDR_SIZE = 0x45 ∧ be16 f.data 16 = len % 65536 ∧
      f.data 23 = UInt8.ofNat protocol ∧
      (∀ i, i < 4 → f.data (26 + i) = (htonl net.my_ip_addr).getD i 0) ∧
      (∀ i, i < 4 → f.data (30 + i) = (htonl host).getD i 0) := by
  have hmac : (net.mac_addr.take ETH_MAC_SIZE).length ≤ 6 := by
    simp [ETH_MAC_SIZE]
  have hdest : (dest.take ETH_MAC_SIZE).length ≤ 6 := by
    simp [ETH_MAC_SIZE]
  -- the Ethernet header ends where the IP header begins
  have heth : ∀ m' i, 14 ≤ i → (enet_send_packet net ETH_TYPE_IP len dest m').data i = m' i := by
    intro m' i hi
    unfold enet_send_packet
    dsimp only
    rw [put_outside (by simp [htons]; omega), put_outside (by omega),
      put_outside (by unfold ETH_MAC_SIZE at *; omega)]
  refine ⟨fun i hi => ?_, ?_, ?_, ?_, fun i hi => ?_, fun i hi => ?_⟩
  · have hlow : 34 ≤ i := hi
    rw [heth _ _ (by omega)]
    unfold ip_output_packet ETH_HDR_SIZE
    repeat rw [put_outside (by simp [htons, htonl]; omega)]
  · rw [heth _ _ (by decide)]
    simp [ip_output_packet, put, splice, ETH_HDR_SIZE, htons, htonl]
  · rw [be16, heth _ _ (by omega), heth _ _ (by omega)]
    simp [ip_output_packet, put, splice, ETH_HDR_SIZE, htons, htonl]
    omega
  · rw [heth _ _ (by omega)]
    simp [ip_output_packet, put, splice, ETH_HDR_SIZE, htons, htonl]
  · rw [heth _ _ (by omega)]
    interval_cases i <;> simp [ip_output_packet, put, splice, ETH_HDR_SIZE, htons, htonl]
  · rw [heth _ _ (by omega)]
    interval_cases i <;> simp [ip_output_packet, put, splice, ETH_HDR_SIZE, htons, htonl]

/-- What the frame is: the segment of `tcp_output`, and the header of `ip_output`. -/
theorem tcp_output_frame_spec {f : Frame}
    (hf : tcp_output_frame net sock datap host sport dport arp m = some f) :
    (∀ i, TCP_AT ≤ i → f.data i = tcp_output_packet net sock datap sport dport arp m i) ∧
      f.data ETH_HDR_SIZE = 0x45 ∧
      be16 f.data 16 = (tcp_output_len sock datap.length + IP_HDR_SIZE) % 65536 ∧
      f.data 23 = 6 ∧
      (∀ i, i < 4 → f.data (26 + i) = (htonl net.my_ip_addr).getD i 0) ∧
      (∀ i, i < 4 → f.data (30 + i) = (htonl host).getD i 0) := by
  unfold tcp_output_frame at hf
  split at hf
  · cases hf
  cases hf
  exact ip_output_frame_spec net host IP_PROTO_TCP _ arp.mac_addr _

theorem tcp_output_len_le (sock : TCP_SOCK_T) (hlen : datap.length ≤ TCP_DATA_MAX_SIZE) :
    TCP_HDR_SIZE ≤ tcp_output_len sock datap.length ∧
      tcp_output_len sock datap.length ≤ 1484 := by
  have hmax : TCP_DATA_MAX_SIZE = 1460 := by decide
  unfold tcp_output_len TCP_HDR_SIZE
  split <;> omega

theorem pseudo_sum_le (m : ℕ → UInt8) : pseudo_sum m ≤ 65535 * 6 := by
  have h₀ := sum16_le (fun i => m (ETH_HDR_SIZE + 12 + i)) 4
  have h₁ := (m (ETH_HDR_SIZE + 9)).toNat_lt
  have h₂ := le16_le m (ETH_HDR_SIZE + 2)
  unfold pseudo_sum
  omega

/-- A field of the TCP header. -/
theorem put_shift (m : ℕ → UInt8) (a i : ℕ) (l : List UInt8) :
    (fun x => put m (a + i) l (a + x)) = put (fun x => m (a + x)) i l := by
  funext x
  by_cases h : i ≤ x ∧ x < i + l.length
  · obtain ⟨j, rfl⟩ := Nat.exists_eq_add_of_le h.1
    rw [← Nat.add_assoc, put_add (by omega), put_add (by omega)]
  · rw [put_outside (by omega), put_outside (by omega)]

/-- A checksum that is filled into a packet at `a`, with what the pseudo header makes. -/
theorem filled_sum {m : ℕ → UInt8} {a k len init : ℕ} (hlen : len ≤ 2 ^ 16)
    (hinit : init ≤ 65535 * 6) (hpos : 0 < init) (h₀ : m (a + 2 * k) = 0)
    (h₁ : m (a + (2 * k + 1)) = 0) (hk : 2 * k + 1 < len) :
    let m' := put m (a + 2 * k) (htons (ip_csum (fun i => m (a + i)) len init))
    be16 m' (a + 2 * k) < 0xffff ∧
      init + csum_total (fun i => m' (a + i)) len 0 ≡ 0 [MOD 65535] := by
  have htotal := csum_total_le (fun i => m (a + i)) len init
  have hpos' : 0 < csum_total (fun i => m (a + i)) len init := by
    unfold csum_total
    omega
  obtain ⟨hne, c, hsum, hmod⟩ := ip_csum_fill (w := fun i => m (a + i)) (k := k)
    (by unfold W; omega) hpos' h₀ h₁ hk
  refine ⟨?_, ?_⟩
  · have hb₀ := put_add (m := m) (a := a + 2 * k) (i := 0)
      (l := htons (ip_csum (fun i => m (a + i)) len init)) (by simp [htons])
    have hb₁ := put_add (m := m) (a := a + 2 * k) (i := 1)
      (l := htons (ip_csum (fun i => m (a + i)) len init)) (by simp [htons])
    rw [Nat.add_zero] at hb₀
    rw [be16, hb₀, hb₁]
    simp only [htons, List.getD_cons_zero, List.getD_cons_succ, UInt8.toNat_ofNat']
    omega
  · rw [put_shift, ← csum_total_init, hsum]
    exact hmod

/-- **The checksum of `tcp_output`** is right for the header that it saw. -/
theorem tcp_output_packet_sum (hlen : datap.length ≤ TCP_DATA_MAX_SIZE) :
    let m' := tcp_output_packet net sock datap sport dport arp m
    let len := tcp_output_len sock datap.length
    be16 m' (TCP_AT + 16) < 0xffff ∧
      pseudo_sum (tcp_output_fill net sock datap sport dport arp m)
        + csum_total (fun i => m' (TCP_AT + i)) len 0 ≡ 0 [MOD 65535] := by
  obtain ⟨hlow, hhigh⟩ := tcp_output_len_le sock hlen
  obtain ⟨h₀, h₁⟩ := @tcp_output_fill_chksum net sock datap sport dport arp m
  have hproto := (@tcp_output_fill_header net sock datap sport dport arp m).2.2.1
  dsimp only
  unfold tcp_output_packet
  dsimp only
  generalize tcp_output_fill net sock datap sport dport arp m = m' at *
  generalize tcp_output_len sock datap.length = len at *
  -- the protocol is part of the sum
  have hpos : 0 < pseudo_sum m' := by
    unfold pseudo_sum
    rw [show ETH_HDR_SIZE + 9 = 23 from rfl, hproto]
    simp
  exact filled_sum (k := 8) (by omega) (pseudo_sum_le m') hpos h₀ h₁
    (by unfold TCP_HDR_SIZE at hlow; omega)

/-- The words of a pseudo header with two addresses, a protocol and a length. -/
theorem pseudo_words {w : ℕ → UInt8} {a b : ℕ} (p n : ℕ)
    (ha : ∀ i, i < 4 → w (26 + i) = (htonl a).getD i 0)
    (hb : ∀ i, i < 4 → w (30 + i) = (htonl b).getD i 0) :
    sum16 (fun i => w (ETH_HDR_SIZE + 12 + i)) 4 + 256 * p + n ≡
      256 * (a % W + b % W) + 256 * p + n [MOD 65535] := by
  refine ((sum16_addresses (fun i hi => ha i hi) fun i hi => ?_).add_right _).add_right _
  rw [← Nat.add_assoc]
  exact hb i hi

/-- What `tcp_input` makes of the lengths of such a frame. -/
theorem tcp_output_frame_lengths {f : Frame}
    (hf : tcp_output_frame net sock datap host sport dport arp m = some f) :
    datap.length ≤ TCP_DATA_MAX_SIZE ∧ f.tcp_offset = TCP_AT ∧
      f.tcp_len = tcp_output_len sock datap.length ∧
      f.tcp_tot_len = tcp_output_len sock datap.length := by
  have hlen : datap.length ≤ TCP_DATA_MAX_SIZE := by
    unfold tcp_output_frame at hf
    split at hf
    · cases hf
    · omega
  obtain ⟨-, hhigh⟩ := tcp_output_len_le sock hlen
  obtain ⟨-, hihl, htot, -⟩ := tcp_output_frame_spec hf
  have hwords : f.ihl = 5 := by rw [Frame.ihl, hihl]; decide
  have htcp : f.tcp_len = tcp_output_len sock datap.length := by
    rw [Frame.tcp_len, Frame.tot_len, show ETH_HDR_SIZE + 2 = 16 from rfl, htot, hwords]
    unfold IP_HDR_SIZE
    omega
  refine ⟨hlen, by rw [Frame.tcp_offset, hwords]; rfl, htcp, ?_⟩
  rw [Frame.tcp_tot_len, htcp]
  omega

/-- The test of `tcp_input` on a frame that was sent. -/
theorem tcp_chksum_ok_iff {f : Frame}
    (hf : tcp_output_frame net sock datap host sport dport arp m = some f) :
    tcp_chksum_ok f = true ↔ SumsAgree sock datap.length host arp m := by
  obtain ⟨hlen, hoff, hl, htl⟩ := tcp_output_frame_lengths hf
  obtain ⟨hlow, hhigh⟩ := tcp_output_len_le sock hlen
  obtain ⟨hdata, -, -, hproto, hsaddr, hdaddr⟩ := tcp_output_frame_spec hf
  obtain ⟨hfield, hsum⟩ := @tcp_output_packet_sum net sock datap sport dport arp m hlen
  obtain ⟨hmy, hnext, hproto', htot⟩ := @tcp_output_fill_header net sock datap sport dport arp m
  have hzero : tcp_zero_chksum f = f.data := by
    unfold tcp_zero_chksum
    rw [hoff, if_neg]
    rw [be16, hdata _ (by omega), hdata _ (by omega)]
    exact hfield.ne
  -- what the header makes, as it was and as it is
  have hout : pseudo_sum (tcp_output_fill net sock datap sport dport arp m) ≡
      256 * (net.my_ip_addr % W + arp.ip_addr % W) + 256 * 6
        + tot_len_loaded sock datap.length m [MOD 65535] := by
    unfold pseudo_sum
    rw [show ETH_HDR_SIZE + 9 = 23 from rfl, show ETH_HDR_SIZE + 2 = 16 from rfl, hproto', htot]
    exact pseudo_words _ _ hmy hnext
  have hin : tcp_pseudo_sum f ≡ 256 * (net.my_ip_addr % W + host % W) + 256 * 6
      + 256 * tcp_output_len sock datap.length [MOD 65535] := by
    have hwords := pseudo_words (w := f.data) 6 (tcp_output_len sock datap.length % 256 * 256
      + tcp_output_len sock datap.length / 256) hsaddr hdaddr
    unfold tcp_pseudo_sum Frame.protocol
    rw [htl, show ETH_HDR_SIZE + 9 = 23 from rfl, hproto]
    refine hwords.trans (Nat.ModEq.add_left _ ?_)
    unfold Nat.ModEq
    omega
  have hpos : 0 < tcp_pseudo_sum f := by
    unfold tcp_pseudo_sum Frame.protocol
    rw [show ETH_HDR_SIZE + 9 = 23 from rfl, hproto]
    simp
  have hbound : tcp_pseudo_sum f ≤ 65535 * 6 := by
    have hwords := sum16_le (fun i => f.data (ETH_HDR_SIZE + 12 + i)) 4
    unfold tcp_pseudo_sum Frame.protocol
    rw [htl, show ETH_HDR_SIZE + 9 = 23 from rfl, hproto]
    have h6 : UInt8.toNat 6 = 6 := rfl
    omega
  have htotal := csum_total_le (fun i => f.data (TCP_AT + i)) (tcp_output_len sock datap.length)
    (tcp_pseudo_sum f)
  have hsegment : csum_total (fun i => f.data (TCP_AT + i)) (tcp_output_len sock datap.length) 0 =
      csum_total (fun i => tcp_output_packet net sock datap sport dport arp m (TCP_AT + i))
        (tcp_output_len sock datap.length) 0 :=
    csum_total_congr fun i _ => hdata _ (by omega)
  unfold tcp_chksum_ok
  rw [hzero, hoff, hl, Int.toNat_natCast, decide_eq_true_iff,
    ip_csum_eq_zero_iff (by unfold W; omega) (by rw [csum_total_init]; omega), csum_total_init,
    hsegment]
  generalize csum_total _ _ 0 = t at *
  unfold SumsAgree Nat.ModEq at *
  omega

/-- A payload that is not too long is sent. -/
theorem tcp_output_frame_sent (net : NetHost) (sock : TCP_SOCK_T) {datap : List UInt8}
    (host sport dport : ℕ) (arp : ARP_ENTRY_T) (m : ℕ → UInt8)
    (hlen : datap.length ≤ TCP_DATA_MAX_SIZE) :
    ∃ f, tcp_output_frame net sock datap host sport dport arp m = some f := by
  cases hf : tcp_output_frame net sock datap host sport dport arp m with
  | none =>
      rw [tcp_output_frame, if_neg (not_lt.mpr hlen)] at hf
      cases hf
  | some f => exact ⟨f, rfl⟩

/-- **When the checksum is right.** For any socket, payload and destination, and
whatever the buffer held, the segment is sent, and it passes the test of `tcp_input`
exactly when next hop and length as they were loaded agree, modulo 65535, with the
destination and the length in the header. -/
theorem tcp_output_valid_iff (net : NetHost) (sock : TCP_SOCK_T) {datap : List UInt8}
    (host sport dport : ℕ) (arp : ARP_ENTRY_T) (m : ℕ → UInt8)
    (hlen : datap.length ≤ TCP_DATA_MAX_SIZE) :
    ∃ f, tcp_output_frame net sock datap host sport dport arp m = some f ∧
      (tcp_chksum_ok f = true ↔ SumsAgree sock datap.length host arp m) := by
  obtain ⟨f, hf⟩ := tcp_output_frame_sent net sock host sport dport arp m hlen
  exact ⟨f, hf, tcp_chksum_ok_iff hf⟩

/-- An acknowledgement without payload. -/
theorem tcp_output_valid_iff_ack :
    ([] : List UInt8).length ≤ TCP_DATA_MAX_SIZE ∧
      ∃ f, tcp_output_frame ⟨0xc0a80002, [], 0⟩ { tcp_cleared with flag := TCP_FLAG_ACK } []
          0xc0a80001 80 2000 ⟨0xc0a80001, [], true⟩ (fun _ => 0) = some f ∧
        (tcp_chksum_ok f = true ↔ SumsAgree { tcp_cleared with flag := TCP_FLAG_ACK } 0
          0xc0a80001 ⟨0xc0a80001, [], true⟩ fun _ => 0) :=
  ⟨Nat.zero_le _, tcp_output_valid_iff _ _ _ _ _ _ _ (Nat.zero_le _)⟩

/-- **A checksum that is wrong**: a segment of 20 bytes, whose length was summed up
as 20 and not as `htons(20)`. -/
theorem tcp_output_wrong_checksum :
    ¬ ∀ (net : NetHost) (sock : TCP_SOCK_T) (datap : List UInt8) (host sport dport : ℕ)
      (arp : ARP_ENTRY_T) (m : ℕ → UInt8) (f : Frame),
      tcp_output_frame net sock datap host sport dport arp m = some f → tcp_chksum_ok f = true := by
  intro h
  have hf : tcp_output_frame ⟨0xc0a80002, [], 0⟩ { tcp_cleared with flag := TCP_FLAG_ACK } []
      0xc0a80001 80 2000 ⟨0xc0a80001, [], true⟩ (fun _ => 0) = some _ := rfl
  have hsums := (tcp_chksum_ok_iff hf).mp (h _ _ _ _ _ _ _ _ _ hf)
  exact absurd ((sumsAgree_on_link (Nat.zero_le _) rfl rfl rfl).mp hsums) (by decide)

end Packet

end CsBoot.Net
