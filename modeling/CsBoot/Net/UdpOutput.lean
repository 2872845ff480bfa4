/-
The checksum of a datagram, from `udp_sendto` of `src/src/net/udp.c` to the test in
`udp_input`.

`udp_output` writes a pseudo header with the address of the ARP entry that it is given,
and `ip_output` the real one with the address of the host. `arp_lookup` finds the entry
of the host, or asks for that of the gateway when the host is not on the link.

What the variables are after each `enet_poll` of `arp_request` is a parameter. The build
is the one without `RECOVER_FROM_BOOTP`.
-/
import CsBoot.Net.TcpOutput

set_option autoImplicit false

namespace CsBoot.Net

open ByteMem RangeStore

def UDP_DATA_MAX_SIZE : ℕ := ETH_MAX_PKT_SIZE - ETH_HDR_SIZE - IP_HDR_SIZE - UDP_HDR_SIZE

/-! ## The functions -/

section Output

variable (net : NetHost) (datap : List UInt8) (host sport dport : ℕ) (arp : ARP_ENTRY_T)

/-- `udp_output` before it takes the checksum. -/
def udp_output_fill (m : ℕ → UInt8) : ℕ → UInt8 :=
  let m := put m UDP_OFFSET (htons sport)
  let m := put m (UDP_OFFSET + 2) (htons dport)
  let m := put m (UDP_OFFSET + 4) (htons (datap.length + UDP_HDR_SIZE))
  let m := put m (UDP_OFFSET + 6) [0, 0]
  let m := put m (UDP_OFFSET + 8) datap
  let m := put m (ETH_HDR_SIZE + 12) (htonl net.my_ip_addr)
  let m := put m (ETH_HDR_SIZE + 16) (htonl arp.ip_addr)
  let m := put m (ETH_HDR_SIZE + 9) [UInt8.ofNat IP_PROTO_UDP]
  put m (ETH_HDR_SIZE + 2) (htons (datap.length + UDP_HDR_SIZE))

/-- `udp_output`, up to the call of `ip_output`. -/
def udp_output_packet (m : ℕ → UInt8) : ℕ → UInt8 :=
  let m := udp_output_fill net datap sport dport arp m
  put m (UDP_OFFSET + 6) (htons (ip_csum (fun i => m (UDP_OFFSET + i))
    (datap.length + UDP_HDR_SIZE) (pseudo_sum m)))

/-- The frame that `udp_output` sends, from a buffer with these bytes. -/
def udp_output_frame (m : ℕ → UInt8) : Option Frame :=
  if UDP_DATA_MAX_SIZE < datap.length then none
  else
    let len := datap.length + UDP_HDR_SIZE + IP_HDR_SIZE
    some (enet_send_packet net ETH_TYPE_IP len arp.mac_addr
      (ip_output_packet net host IP_PROTO_UDP len
        (udp_output_packet net datap sport dport arp m)))

end Output

/-- The address that `arp_lookup` asks for when the host is not in the cache. -/
def arp_target (v : NetVars) (host : ℕ) : ℕ :=
  if ip_is_local_net v host then host else v.my_ip_gateway

/-- The entry that `arp_lookup` finds: in the cache, or after one of the polls of
`arp_request`, in turn. -/
def arp_lookup_entry (v : NetVars) (polls : List NetVars) (host : ℕ) : Option ARP_ENTRY_T :=
  match arp_chk_entry v host with
  | some i => some (v.arp_cache_tbl i)
  | none => polls.findSome? fun v' =>
      (arp_chk_entry v' (arp_target v host)).map v'.arp_cache_tbl

/-- The frame that `udp_sendto` sends, with `ip_ident` and the address of the interface. -/
def udp_sendto (v : NetVars) (polls : List NetVars) (mac_addr : List UInt8) (ip_ident : ℕ)
    (datap : List UInt8) (host sport dport : ℕ) (m : ℕ → UInt8) : Option Frame :=
  match arp_lookup_entry v polls host with
  | some arp => udp_output_frame ⟨v.my_ip_addr, mac_addr, ip_ident⟩ datap host sport dport arp m
  | none => none

/-! ## The packet -/

section Packet

variable (net : NetHost) {datap : List UInt8} {host sport dport : ℕ} (arp : ARP_ENTRY_T)
  (m : ℕ → UInt8) {f : Frame}

/-- The headers that `udp_output` has filled in when it takes the checksum. -/
theorem udp_output_fill_header (datap : List UInt8) (sport dport : ℕ) :
    let m' := udp_output_fill net datap sport dport arp m
    (∀ i, i < 4 → m' (26 + i) = (htonl net.my_ip_addr).getD i 0) ∧
      (∀ i, i < 4 → m' (30 + i) = (htonl arp.ip_addr).getD i 0) ∧
      m' 23 = 17 ∧ le16 m' 16 = le16 m' (UDP_OFFSET + 4) ∧
      be16 m' (UDP_OFFSET + 4) = (datap.length + UDP_HDR_SIZE) % 65536 ∧
      m' (UDP_OFFSET + 6) = 0 ∧ m' (UDP_OFFSET + 7) = 0 := by
  unfold udp_output_fill
  refine ⟨fun i hi => ?_, fun i hi => ?_, ?_, ?_, ?_, ?_, ?_⟩
  · interval_cases i <;>
      simp [put, splice, UDP_OFFSET, ETH_HDR_SIZE, IP_HDR_SIZE, htons, htonl]
  · interval_cases i <;>
      simp [put, splice, UDP_OFFSET, ETH_HDR_SIZE, IP_HDR_SIZE, htons, htonl]
  · simp [put, splice, UDP_OFFSET, ETH_HDR_SIZE, IP_HDR_SIZE, htons, htonl]
    decide
  · simp [le16, put, splice, UDP_OFFSET, ETH_HDR_SIZE, IP_HDR_SIZE, htons, htonl]
  · simp [be16, put, splice, UDP_OFFSET, ETH_HDR_SIZE, IP_HDR_SIZE, htons, htonl]
    omega
  · simp [put, splice, UDP_OFFSET, ETH_HDR_SIZE, IP_HDR_SIZE, htons, htonl]
  · simp [put, splice, UDP_OFFSET, ETH_HDR_SIZE, IP_HDR_SIZE, htons, htonl]

/-- **The checksum of `udp_output`** is right for the header that it saw. -/
theorem udp_output_packet_sum (sport dport : ℕ) (hlen : datap.length ≤ UDP_DATA_MAX_SIZE) :
    let m' := udp_output_packet net datap sport dport arp m
    be16 m' (UDP_OFFSET + 6) < 0xffff ∧
      pseudo_sum (udp_output_fill net datap sport dport arp m)
        + csum_total (fun i => m' (UDP_OFFSET + i)) (datap.length + UDP_HDR_SIZE) 0
          ≡ 0 [MOD 65535] := by
  obtain ⟨-, -, hproto, -, -, h₀, h₁⟩ := udp_output_fill_header net arp m datap sport dport
  have hmax : UDP_DATA_MAX_SIZE = 1472 := by decide
  dsimp only
  unfold udp_output_packet
  dsimp only
  generalize udp_output_fill net datap sport dport arp m = m' at *
  -- the protocol is part of the sum
  have hpos : 0 < pseudo_sum m' := by
    unfold pseudo_sum
    rw [show ETH_HDR_SIZE + 9 = 23 from rfl, hproto]
    simp
  exact filled_sum (k := 3) (by unfold UDP_HDR_SIZE; omega) (pseudo_sum_le m') hpos h₀ h₁
    (by unfold UDP_HDR_SIZE; omega)

/-- Filling in the checksum leaves the length of the datagram alone. -/
theorem udp_output_packet_length (datap : List UInt8) (sport dport : ℕ) :
    le16 (udp_output_packet net datap sport dport arp m) (UDP_OFFSET + 4) =
        le16 (udp_output_fill net datap sport dport arp m) (UDP_OFFSET + 4) ∧
      be16 (udp_output_packet net datap sport dport arp m) (UDP_OFFSET + 4) =
        (datap.length + UDP_HDR_SIZE) % 65536 := by
  have hlength := (udp_output_fill_header net arp m datap sport dport).2.2.2.2.1
  unfold udp_output_packet
  dsimp only
  have hkeep : ∀ i, i < 2 → ∀ l : List UInt8,
      put (udp_output_fill net datap sport dport arp m) (UDP_OFFSET + 6) l (UDP_OFFSET + 4 + i) =
        udp_output_fill net datap sport dport arp m (UDP_OFFSET + 4 + i) :=
    fun i hi l => put_outside (.inl (by omega))
  have h₀ := hkeep 0 (by omega)
  have h₁ := hkeep 1 (by omega)
  rw [Nat.add_zero] at h₀
  rw [← hlength, le16, be16, h₀, h₁]
  exact ⟨rfl, rfl⟩

/-- The two pseudo headers make the same modulo 65535. -/
def NextHopAgrees (arp host : ℕ) : Prop := arp % W ≡ host % W [MOD 65535]

variable {net arp m} in
/-- The test of `udp_input` on a frame that was sent. -/
theorem udp_chksum_ok_iff (hf : udp_output_frame net datap host sport dport arp m = some f) :
    udp_chksum_ok f = true ↔ NextHopAgrees arp.ip_addr host := by
  have hlen : datap.length ≤ UDP_DATA_MAX_SIZE := by
    unfold udp_output_frame at hf
    split at hf
    · cases hf
    · omega
  have hmax : UDP_DATA_MAX_SIZE = 1472 := by decide
  have hframe := Option.some.inj ((if_neg (by omega)).symm.trans hf)
  obtain ⟨hdata, -, -, hproto, hsaddr, hdaddr⟩ := ip_output_frame_spec net host IP_PROTO_UDP
    (datap.length + UDP_HDR_SIZE + IP_HDR_SIZE) arp.mac_addr
    (udp_output_packet net datap sport dport arp m)
  rw [hframe] at hdata hproto hsaddr hdaddr
  obtain ⟨hfield, hsum⟩ := udp_output_packet_sum net arp m sport dport hlen
  obtain ⟨hmy, hnext, hproto', htot, -⟩ := udp_output_fill_header net arp m datap sport dport
  obtain ⟨hkept, hlength⟩ := udp_output_packet_length net arp m datap sport dport
  have hzero : udp_zero_chksum f = f.data := by
    unfold udp_zero_chksum
    rw [if_neg]
    rw [be16, hdata _ (by decide), hdata _ (by decide)]
    exact hfield.ne
  have hudp : f.udp_length = datap.length + UDP_HDR_SIZE := by
    rw [Frame.udp_length, be16, hdata _ (by decide), hdata _ (by decide), ← be16, hlength]
    exact Nat.mod_eq_of_lt (by unfold UDP_HDR_SIZE; omega)
  have hword : le16 f.data (UDP_OFFSET + 4) =
      le16 (udp_output_fill net datap sport dport arp m) 16 := by
    rw [htot, ← hkept, le16, le16, hdata _ (by decide), hdata _ (by decide)]
  -- what the header makes, as it was and as it is
  have hout : pseudo_sum (udp_output_fill net datap sport dport arp m) ≡
      256 * (net.my_ip_addr % W + arp.ip_addr % W) + 256 * 17
        + le16 f.data (UDP_OFFSET + 4) [MOD 65535] := by
    unfold pseudo_sum
    rw [show ETH_HDR_SIZE + 9 = 23 from rfl, show ETH_HDR_SIZE + 2 = 16 from rfl, hproto', hword]
    exact pseudo_words _ _ hmy hnext
  have hin : udp_pseudo_sum f ≡ 256 * (net.my_ip_addr % W + host % W) + 256 * 17
      + le16 f.data (UDP_OFFSET + 4) [MOD 65535] := by
    unfold udp_pseudo_sum Frame.protocol
    rw [show ETH_HDR_SIZE + 9 = 23 from rfl, hproto]
    exact pseudo_words _ _ hsaddr hdaddr
  have hpos : 0 < udp_pseudo_sum f := by
    unfold udp_pseudo_sum Frame.protocol
    rw [show ETH_HDR_SIZE + 9 = 23 from rfl, hproto]
    simp [IP_PROTO_UDP]
  have hbound : udp_pseudo_sum f ≤ 65535 * 6 := by
    have hwords := sum16_le (fun i => f.data (ETH_HDR_SIZE + 12 + i)) 4
    have hle := le16_le f.data (UDP_OFFSET + 4)
    have h17 := (UInt8.ofNat IP_PROTO_UDP).toNat_lt
    unfold udp_pseudo_sum Frame.protocol
    rw [show ETH_HDR_SIZE + 9 = 23 from rfl, hproto]
    omega
  have htotal := csum_total_le (fun i => f.data (UDP_OFFSET + i)) (datap.length + UDP_HDR_SIZE)
    (udp_pseudo_sum f)
  have hsegment : csum_total (fun i => f.data (UDP_OFFSET + i)) (datap.length + UDP_HDR_SIZE) 0 =
      csum_total (fun i => udp_output_packet net datap sport dport arp m (UDP_OFFSET + i))
        (datap.length + UDP_HDR_SIZE) 0 :=
    csum_total_congr fun i _ => hdata _ (Nat.le_add_right _ _)
  have hhdr : UDP_HDR_SIZE = 8 := rfl
  unfold udp_chksum_ok
  rw [hzero, hudp, decide_eq_true_iff,
    ip_csum_eq_zero_iff (by unfold W; omega) (by rw [csum_total_init]; omega), csum_total_init,
    hsegment]
  generalize csum_total _ _ 0 = t at *
  unfold NextHopAgrees Nat.ModEq at *
  omega

end Packet

/-! ## The entry -/

section Entry

variable {v : NetVars} {polls : List NetVars} {host i : ℕ} {arp : ARP_ENTRY_T}

/-- An entry that is found has the address. -/
theorem arp_chk_entry_addr (h : arp_chk_entry v host = some i) :
    (v.arp_cache_tbl i).ip_addr = host := by
  have hentry := List.find?_some h
  rw [Bool.and_eq_true, decide_eq_true_iff] at hentry
  exact hentry.2

/-- The address of the entry that `arp_lookup` returns. -/
theorem arp_lookup_addr (h : arp_lookup_entry v polls host = some arp) :
    arp.ip_addr = if (arp_chk_entry v host).isSome then host else arp_target v host := by
  unfold arp_lookup_entry at h
  cases hcache : arp_chk_entry v host with
  | some i =>
    rw [hcache] at h
    rw [← Option.some.inj h, arp_chk_entry_addr hcache]
    rfl
  | none =>
    rw [hcache] at h
    obtain ⟨v', -, hfound⟩ := List.exists_of_findSome?_eq_some h
    obtain ⟨j, hj, rfl⟩ := Option.map_eq_some_iff.mp hfound
    rw [arp_chk_entry_addr hj]
    rfl

/-- The host is in the cache or on the link, or the gateway has an address that makes
the same sum. -/
def NextHopRight (v : NetVars) (host : ℕ) : Prop :=
  (arp_chk_entry v host).isSome ∨ ip_is_local_net v host = true ∨
    NextHopAgrees v.my_ip_gateway host

theorem nextHopAgrees_iff (h : arp_lookup_entry v polls host = some arp) :
    NextHopAgrees arp.ip_addr host ↔ NextHopRight v host := by
  have hself : NextHopAgrees host host := Nat.ModEq.refl _
  rw [arp_lookup_addr h, NextHopRight, arp_target]
  by_cases hcache : (arp_chk_entry v host).isSome
  · simp [hcache, hself]
  · by_cases hlocal : ip_is_local_net v host = true
    · simp [hcache, hlocal, hself]
    · simp [hcache, hlocal]

end Entry

/-- **A datagram that `udp_sendto` sends passes the test of `udp_input` exactly when** the
host is in the ARP cache or on the link, or the addresses of the gateway and the host are
the same modulo 65535. -/
theorem udp_sendto_valid_iff (v : NetVars) (polls : List NetVars) (mac_addr : List UInt8)
    (ip_ident : ℕ) (datap : List UInt8) (host sport dport : ℕ) (m : ℕ → UInt8)
    (arp : ARP_ENTRY_T) (harp : arp_lookup_entry v polls host = some arp)
    (hlen : datap.length ≤ UDP_DATA_MAX_SIZE) :
    ∃ f, udp_sendto v polls mac_addr ip_ident datap host sport dport m = some f ∧
      (udp_chksum_ok f = true ↔ NextHopRight v host) := by
  have hsend : udp_sendto v polls mac_addr ip_ident datap host sport dport m =
      udp_output_frame ⟨v.my_ip_addr, mac_addr, ip_ident⟩ datap host sport dport arp m := by
    rw [udp_sendto, harp]
  have hframe : udp_output_frame ⟨v.my_ip_addr, mac_addr, ip_ident⟩ datap host sport dport arp m =
      some _ := if_neg (Nat.not_lt.mpr hlen)
  exact ⟨_, hsend.trans hframe, (udp_chksum_ok_iff hframe).trans (nextHopAgrees_iff harp)⟩

/-- The board is 192.168.1.1, and one entry is in its cache. -/
def board_vars (ip_addr : ℕ) : NetVars where
  board_support_web := false
  enet_initialized := true
  web_on := 0
  my_ip_addr := 0xc0a80101
  my_ip_netmask := 0xffffff00
  my_ip_gateway := 0xc0a801fe
  arp_cache_tbl := fun i => ⟨ip_addr, [2, 0, 0, 0, 0, 1], i = 0⟩
  arp_cache_num := 1
  arp_listen_handler := false
  icmp_listen_handler := false
  icmp_listen_arg := 0
  udp_sock := udp_init
  tcp_socks := fun _ => tcp_cleared

/-- The server is on the link, and in the cache. -/
theorem udp_sendto_valid_on_link :
    arp_lookup_entry (board_vars 0xc0a80164) [] 0xc0a80164 =
        some ((board_vars 0xc0a80164).arp_cache_tbl 0) ∧
      ∃ f, udp_sendto (board_vars 0xc0a80164) [] [] 0 [1, 2, 3] 0xc0a80164 7700 69 (fun _ => 0) =
          some f ∧
        (udp_chksum_ok f = true ↔ NextHopRight (board_vars 0xc0a80164) 0xc0a80164) :=
  ⟨rfl, udp_sendto_valid_iff (board_vars 0xc0a80164) [] [] 0 [1, 2, 3] 0xc0a80164 7700 69
    (fun _ => 0) _ rfl (by decide)⟩

/-- 10.0.0.1 is behind the gateway 192.168.1.254, which is in the cache. -/
theorem udp_sendto_gateway_wrong :
    ∃ f, udp_sendto (board_vars 0xc0a801fe) [board_vars 0xc0a801fe] [] 0 [1, 2, 3] 0x0a000001 7700
        69 (fun _ => 0) = some f ∧ udp_chksum_ok f = false := by
  have hframe : udp_output_frame ⟨0xc0a80101, [], 0⟩ [1, 2, 3] 0x0a000001 7700 69
      ((board_vars 0xc0a801fe).arp_cache_tbl 0) (fun _ => 0) = some _ := if_neg (by decide)
  refine ⟨_, hframe, ?_⟩
  rw [Bool.eq_false_iff, Ne, udp_chksum_ok_iff hframe]
  intro hagree
  have hmod : 0xc0a801fe % W % 65535 = 0x0a000001 % W % 65535 := hagree
  exact absurd hmod (by decide)

end CsBoot.Net
