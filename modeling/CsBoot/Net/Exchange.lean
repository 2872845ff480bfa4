/-
A packet on its way from one machine to another: what `ip_output` and `enet_send` of
`src/src/net` have put in front of it passes `ip_input` at the host that it is for.

A frame is received with more bytes than were sent when it is too short for the Ethernet, and
behind it in the buffer there is what was there before.
-/
import CsBoot.Net.IpAccept

set_option autoImplicit false

namespace CsBoot.Net

open ByteMem RangeStore

/-- The frame `g` is received when `f` was sent: behind its bytes there are zeros up to the
length of `g`, and then anything. -/
structure Arrives (f g : Frame) : Prop where
  len : f.len ≤ g.len
  same : ∀ i, i < f.len → g.data i = f.data i
  filled : ∀ i, f.len ≤ i → i < g.len → g.data i = 0

/-- `enet_poll` gives the frame to `ip_input`, and that hands it on to this protocol. -/
def ip_heard (my_ip_addr protocol : ℕ) (f : Frame) : Bool :=
  f.eth_type = ETH_TYPE_IP && ip_input_accepts my_ip_addr f && f.protocol = protocol

/-- A frame that is long enough may arrive as it is. -/
theorem Arrives.refl (f : Frame) : Arrives f f :=
  ⟨Nat.le_refl _, fun _ _ => rfl, fun _ h h' => absurd h' (Nat.not_lt.mpr h)⟩

section Sums

variable {w : ℕ → UInt8} {m n init : ℕ}

/-- A byte of zero behind the others. -/
theorem csum_total_zero (h : w n = 0) : csum_total w (n + 1) init = csum_total w n init := by
  unfold csum_total
  obtain ⟨k, rfl | rfl⟩ := Nat.even_or_odd' n
  · rw [show (2 * k + 1) / 2 = k by omega, show 2 * k / 2 = k by omega,
      if_pos (by omega), if_neg (by omega), Nat.add_sub_cancel, h]
    rfl
  · rw [show (2 * k + 1 + 1) / 2 = k + 1 by omega, show (2 * k + 1) / 2 = k by omega,
      if_neg (by omega), if_pos (by omega), Nat.add_sub_cancel, sum16, le16, h]
    rw [show UInt8.toNat 0 = 0 from rfl]
    omega

/-- The checksum is of the bytes that are counted. -/
theorem ip_csum_congr {w' : ℕ → UInt8} (h : ∀ i, i < n → w i = w' i) :
    ip_csum w n init = ip_csum w' n init := by
  unfold ip_csum
  rw [sum16_congr fun i hi => h i (by omega)]
  by_cases hodd : n % 2 = 1
  · rw [h (n - 1) (by omega)]
  · simp only [if_neg hodd]

/-- Zeros at the end do not count. -/
theorem csum_total_zeros (hmn : m ≤ n) (h : ∀ i, m ≤ i → i < n → w i = 0) :
    csum_total w n init = csum_total w m init := by
  induction n, hmn using Nat.le_induction with
  | base => rfl
  | succ n hle ih =>
    rw [csum_total_zero (h n hle (Nat.lt_succ_self n))]
    exact ih fun i hi hi' => h i hi (Nat.lt_succ_of_lt hi')

end Sums

/-- The bytes of `htonl` are read back. -/
theorem be32_htonl {w : ℕ → UInt8} {a n : ℕ} (h : ∀ i, i < 4 → w (a + i) = (htonl n).getD i 0) :
    be32 w a = n % W := by
  have h₀ := h 0 (by omega)
  have h₁ := h 1 (by omega)
  have h₂ := h 2 (by omega)
  have h₃ := h 3 (by omega)
  rw [Nat.add_zero] at h₀
  unfold be32 be16
  rw [Nat.add_assoc, h₀, h₁, h₂, h₃]
  simp only [htonl, htons, List.cons_append, List.nil_append, List.getD_cons_zero,
    List.getD_cons_succ, UInt8.toNat_ofNat']
  unfold W
  omega

section Datagram

variable {net : NetHost} {host protocol len : ℕ} {dest : List UInt8} {m : ℕ → UInt8}

/-- The header of `ip_output` has a right checksum. -/
theorem ip_output_packet_chksum :
    ip_csum (fun i => ip_output_packet net host protocol len m (ETH_HDR_SIZE + i)) IP_HDR_SIZE 0 =
      0 := by
  unfold ip_output_packet
  set m₀ := put (put (put (put (put (put m ETH_HDR_SIZE [0x45, 0]) (ETH_HDR_SIZE + 2) (htons len))
    (ETH_HDR_SIZE + 4) (htons net.ip_ident)) (ETH_HDR_SIZE + 6)
    [0, 0, 64, UInt8.ofNat protocol, 0, 0]) (ETH_HDR_SIZE + 12) (htonl net.my_ip_addr))
    (ETH_HDR_SIZE + 16) (htonl host) with hm₀
  have hword : ∀ i, i < 2 → m₀ (ETH_HDR_SIZE + (10 + i)) = 0 := by
    intro i hi
    interval_cases i <;> simp [hm₀, put, splice, ETH_HDR_SIZE, htons, htonl]
  have hle := csum_total_le (fun i => m₀ (ETH_HDR_SIZE + i)) IP_HDR_SIZE 0
  have hsmall : csum_total (fun i => m₀ (ETH_HDR_SIZE + i)) IP_HDR_SIZE 0 < W := by
    unfold IP_HDR_SIZE at *
    unfold W
    omega
  obtain ⟨c, hc, hsum, hmod, hpos⟩ := csum_total_fill (k := 5) hsmall (hword 0 (by omega))
    (hword 1 (by omega)) (by decide)
  rw [put_shift, ip_csum_eq_zero_iff, hsum]
  · exact hmod
  · rw [hsum]
    unfold IP_HDR_SIZE at *
    unfold W
    omega
  · rw [hsum]
    exact hpos

/-- **A datagram that was sent is accepted** by the host that it is for, and by no other. -/
theorem ip_output_accepted (hlen : IP_HDR_SIZE ≤ len) (hlen' : len < 65536) {g : Frame}
    (hg : Arrives (enet_send_packet net ETH_TYPE_IP len dest
      (ip_output_packet net host protocol len m)) g) :
    (∀ my_ip_addr, ip_heard my_ip_addr (protocol % 256) g = true ↔
        host % W = 0xffffffff ∨ host % W = my_ip_addr) ∧
      g.ihl = 5 ∧ g.saddr = net.my_ip_addr % W ∧
      g.daddr = host % W ∧ g.tot_len = len ∧ g.frag_off = 0 ∧
      ∀ i, TCP_AT ≤ i → i < len + ETH_HDR_SIZE → g.data i = m i := by
  obtain ⟨hdata, hihl, htot, hproto, hsaddr, hdaddr⟩ :=
    ip_output_frame_spec net host protocol len dest m
  have hflen : (enet_send_packet net ETH_TYPE_IP len dest
      (ip_output_packet net host protocol len m)).len = len + ETH_HDR_SIZE := rfl
  have hbyte : ∀ i, i < 34 → g.data i = (enet_send_packet net ETH_TYPE_IP len dest
      (ip_output_packet net host protocol len m)).data i := by
    intro i hi
    refine hg.same i ?_
    rw [hflen]
    unfold IP_HDR_SIZE at hlen
    unfold ETH_HDR_SIZE
    omega
  -- the Ethernet header ends where the IP header begins
  have heth : ∀ i, ETH_HDR_SIZE ≤ i → i < 34 →
      g.data i = ip_output_packet net host protocol len m i := by
    intro i hi hi'
    rw [hbyte i hi']
    unfold enet_send_packet
    dsimp only
    have hmac : (net.mac_addr.take ETH_MAC_SIZE).length ≤ 6 := by simp [ETH_MAC_SIZE]
    have hdest : (dest.take ETH_MAC_SIZE).length ≤ 6 := by simp [ETH_MAC_SIZE]
    unfold ETH_HDR_SIZE at hi
    rw [put_outside (by simp [htons]; omega), put_outside (by omega),
      put_outside (by unfold ETH_MAC_SIZE at *; omega)]
  have hihl' : g.data ETH_HDR_SIZE = 0x45 := (hbyte _ (by decide)).trans hihl
  have hgihl : g.ihl = 5 := by
    rw [Frame.ihl, hihl']
    rfl
  have hversion : g.version = 4 := by
    rw [Frame.version, hihl']
    rfl
  have hgsaddr : g.saddr = net.my_ip_addr % W :=
    be32_htonl fun i hi => (hbyte _ (by unfold ETH_HDR_SIZE; omega)).trans (hsaddr i hi)
  have hgdaddr : g.daddr = host % W :=
    be32_htonl fun i hi => (hbyte _ (by unfold ETH_HDR_SIZE; omega)).trans (hdaddr i hi)
  have hfrag : g.frag_off = 0 := by
    rw [Frame.frag_off, be16, heth _ (by decide) (by decide), heth _ (by decide) (by decide)]
    simp [ip_output_packet, put, splice, ETH_HDR_SIZE, htons, htonl]
  have hsum : ip_csum (fun i => g.data (ETH_HDR_SIZE + i)) (4 * g.ihl) 0 = 0 := by
    rw [hgihl]
    refine (ip_csum_congr fun i hi => heth _ (Nat.le_add_right _ _) ?_).trans
      ip_output_packet_chksum
    unfold ETH_HDR_SIZE
    omega
  have htotlen : g.tot_len = len := by
    rw [Frame.tot_len, be16, hbyte _ (by decide), hbyte _ (by decide), ← be16]
    exact htot.trans (Nat.mod_eq_of_lt hlen')
  have htype : g.eth_type = ETH_TYPE_IP := by
    rw [Frame.eth_type, be16, hbyte _ (by decide), hbyte _ (by decide)]
    simp [enet_send_packet, put, splice, htons, ETH_TYPE_IP]
  have hgproto : g.protocol = protocol % 256 := by
    rw [Frame.protocol, show ETH_HDR_SIZE + 9 = 23 from rfl, hbyte _ (by decide), hproto,
      UInt8.toNat_ofNat']
  refine ⟨fun my_ip_addr => ?_, hgihl, hgsaddr, hgdaddr, htotlen, hfrag, fun i hi hi' => ?_⟩
  · have hglen : ¬ g.len < IP_PKT_SIZE := by
      have hle := hg.len
      rw [hflen] at hle
      unfold IP_PKT_SIZE
      omega
    rw [ip_heard, htype, hgproto, ip_input_accepts, hgihl, hversion, hfrag, hgdaddr, ← hgihl,
      hsum]
    simp [hglen]
  · rw [hg.same i (by rwa [hflen])]
    exact hdata i hi

end Datagram

end CsBoot.Net
