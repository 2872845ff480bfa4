/-
Which datagrams `ip_input` of `src/src/net/ip.c` passes on, and where the functions that
take them look for their headers.

`ip_input` tests one bit of the fragment word, and compares the total length with nothing.
`tcp_input` finds its header behind the options, and `udp_input` and `icmp_input` take the
header to be 34 bytes into the frame, where the options begin if there are any.

What a function would make of the bytes behind the options is said with the frame from
which these are taken out, `past_options`.
-/
import CsBoot.Net.UdpOutput
import CsBoot.Net.UdpSafe

set_option autoImplicit false

namespace CsBoot.Net

open ByteMem RangeStore

/-! ## What is passed on -/

/-- `ip_input` calls one of the functions for the protocols. -/
def ip_input_passes (v : NetVars) (f : Frame) : Bool :=
  ip_input_accepts v.my_ip_addr f &&
    (f.protocol = IP_PROTO_ICMP || (f.protocol = IP_PROTO_TCP && v.board_support_web &&
      v.web_on = 1) || f.protocol = IP_PROTO_UDP)

/-- The frame without the options of its IP header. -/
def Frame.past_options (f : Frame) : Frame where
  data := fun i =>
    if i < UDP_OFFSET then f.data i else f.data (ETH_HDR_SIZE + 4 * f.ihl + (i - UDP_OFFSET))
  len := f.len - (4 * f.ihl - IP_HDR_SIZE)

/-- What `icmp_input` does with a frame. -/
inductive IcmpVerdict
  | reply
  | listener
  | drop
deriving DecidableEq

def icmp_verdict (f : Frame) : IcmpVerdict :=
  if f.icmp_type = ICMP_TYPE_ECHOREQUEST ∧ f.icmp_code = 0 then
    if ip_csum (fun i => f.data (ETH_HDR_SIZE + IP_HDR_SIZE + i))
      (f.len - ETH_HDR_SIZE - IP_HDR_SIZE) 0 ≠ 0 then .drop else .reply
  else if f.icmp_type = ICMP_TYPE_ECHOREPLY then .listener
  else .drop

/-- The verdict is all that `icmp_input` goes by, with the listener there is. -/
theorem icmp_input_eq (b : ℕ) :
    icmp_input b = (do
      let s ← look .other id
      match icmp_verdict (s.bufs.frame b) with
      | .reply => ip_output b
      | .listener => if s.vars.icmp_listen_handler = true then icmp_ping_listener b else free b
      | .drop => free b) := by
  unfold icmp_input
  congr 1
  funext s
  unfold icmp_verdict
  dsimp only
  split_ifs <;> simp_all

/-- The frames have the same length and the same headers up to the end of the options. -/
def SameHeader (f g : Frame) : Prop :=
  g.len = f.len ∧ ∀ i, i < ETH_HDR_SIZE + 4 * f.ihl → g.data i = f.data i

/-- The frame is no fragment and as long as it says, and whatever is behind its header is
taken for what it is. -/
structure GoesAsSaid (f : Frame) : Prop where
  whole : f.frag_off % 0x2000 = 0 ∧ f.frag_off / 0x2000 % 2 = 0
  header : 4 * f.ihl ≤ f.tot_len
  received : ETH_HDR_SIZE + f.tot_len ≤ f.len
  udp : f.protocol = IP_PROTO_UDP → ∀ g, SameHeader f g → ∀ my_ip_addr s,
    udp_input my_ip_addr s g = udp_input my_ip_addr s g.past_options
  icmp : f.protocol = IP_PROTO_ICMP → ∀ g, SameHeader f g →
    icmp_verdict g = icmp_verdict g.past_options

/-- What `ip_input` does not look at is in order. -/
def HeaderInOrder (f : Frame) : Prop :=
  f.frag_off % 0x2000 = 0 ∧ 4 * f.ihl ≤ f.tot_len ∧ ETH_HDR_SIZE + f.tot_len ≤ f.len ∧
    (f.protocol ≠ IP_PROTO_TCP → f.ihl = 5)

/-! ## The options -/

section Options

variable {f g : Frame}

theorem past_options_of_five (h : f.ihl = 5) : f.past_options = f := by
  obtain ⟨data, len⟩ := f
  simp only [Frame.past_options, h, Frame.mk.injEq]
  constructor
  · funext i
    split
    · rfl
    · congr 1
      simp only [UDP_OFFSET, ETH_HDR_SIZE, IP_HDR_SIZE] at *
      omega
  · simp [IP_HDR_SIZE]

theorem SameHeader.ihl (h : SameHeader f g) (h5 : 5 ≤ f.ihl) : g.ihl = f.ihl := by
  rw [Frame.ihl, Frame.ihl, h.2 _ (by omega)]

/-- Bytes behind the header, in the frame and in the one without options. -/
theorem past_options_put (h5 : 5 ≤ f.ihl) (j : ℕ) (l : List UInt8) :
    (Frame.past_options ⟨put f.data (ETH_HDR_SIZE + 4 * f.ihl + j) l, f.len⟩).data =
      put f.past_options.data (UDP_OFFSET + j) l := by
  have hihl : Frame.ihl ⟨put f.data (ETH_HDR_SIZE + 4 * f.ihl + j) l, f.len⟩ = f.ihl := by
    have hbyte : put f.data (ETH_HDR_SIZE + 4 * f.ihl + j) l ETH_HDR_SIZE = f.data ETH_HDR_SIZE :=
      put_outside (by omega)
    exact congrArg (fun b : UInt8 => b.toNat % 16) hbyte
  have hoff : UDP_OFFSET ≤ ETH_HDR_SIZE + 4 * f.ihl := by
    unfold UDP_OFFSET IP_HDR_SIZE
    omega
  funext i
  simp only [Frame.past_options, hihl]
  by_cases hi : i < UDP_OFFSET
  · rw [if_pos hi, put_outside (by omega), put_outside (by omega), if_pos hi]
  · obtain ⟨k, rfl⟩ := Nat.exists_eq_add_of_le (Nat.not_lt.mp hi)
    rw [if_neg hi, Nat.add_sub_cancel_left]
    by_cases hin : j ≤ k ∧ k < j + l.length
    · obtain ⟨x, rfl⟩ := Nat.exists_eq_add_of_le hin.1
      rw [← Nat.add_assoc, put_add (by omega), ← Nat.add_assoc, put_add (by omega)]
    · rw [put_outside (by omega), put_outside (by omega), if_neg hi, Nat.add_sub_cancel_left]

theorem past_options_low {i : ℕ} (hi : i < UDP_OFFSET) : f.past_options.data i = f.data i :=
  if_pos hi

/-! ## UDP -/

/-- A datagram of no data for port `d`, without its checksum. -/
def empty_datagram (d : UInt8) : List UInt8 := [0, 0, 0, d, 0, 8, 0, 0]

/-- With its checksum filled in behind any addresses, it passes the test. -/
theorem empty_datagram_ok (m : ℕ → UInt8) (len : ℕ) (d : UInt8) (hproto : m 23 = 17) :
    let m₀ := put m UDP_OFFSET (empty_datagram d)
    udp_chksum_ok ⟨put m₀ (UDP_OFFSET + 6)
      (htons (ip_csum (fun i => m₀ (UDP_OFFSET + i)) 8 (udp_pseudo_sum ⟨m₀, len⟩))), len⟩ =
        true := by
  intro m₀
  have hbyte : ∀ i, i < 8 → m₀ (UDP_OFFSET + i) = (empty_datagram d).getD i 0 :=
    fun i hi => put_add hi
  have hlow : ∀ i, i < UDP_OFFSET → m₀ i = m i := fun i hi => put_outside (.inl hi)
  have hlen : be16 m₀ (UDP_OFFSET + 4) = 8 := by
    rw [be16, hbyte 4 (by omega), hbyte 5 (by omega)]
    rfl
  have hproto₀ : m₀ (ETH_HDR_SIZE + 9) = 17 := (hlow 23 (by decide)).trans hproto
  have hwords := sum16_le (fun i => m₀ (ETH_HDR_SIZE + 12 + i)) 4
  have hword := le16_le m₀ (UDP_OFFSET + 4)
  have h17 : UInt8.toNat 17 = 17 := rfl
  have hinit : udp_pseudo_sum ⟨m₀, len⟩ = sum16 (fun i => m₀ (ETH_HDR_SIZE + 12 + i)) 4
      + 256 * 17 + le16 m₀ (UDP_OFFSET + 4) := by
    simp only [udp_pseudo_sum, Frame.protocol, hproto₀, h17]
  generalize hsum₀ : udp_pseudo_sum ⟨m₀, len⟩ = init at *
  have hle : init ≤ 65535 * 6 := by omega
  have hpos : 0 < init := by omega
  obtain ⟨hfield, hsum⟩ := filled_sum (m := m₀) (a := UDP_OFFSET) (k := 3) (by decide : 8 ≤ 2 ^ 16)
    hle hpos (hbyte 6 (by omega)) (hbyte 7 (by omega)) (by omega)
  set m' := put m₀ (UDP_OFFSET + 6) (htons (ip_csum (fun i => m₀ (UDP_OFFSET + i)) 8 init)) with hm'
  have hkept : ∀ i, i < UDP_OFFSET + 6 → m' i = m₀ i := fun i hi => put_outside (.inl hi)
  have hudp : Frame.udp_length ⟨m', len⟩ = 8 := by
    simp only [Frame.udp_length, be16] at hlen ⊢
    rw [hkept _ (by omega), hkept _ (by omega), hlen]
  -- the pseudo header has none of the bytes of the checksum
  have hpseudo : udp_pseudo_sum ⟨m', len⟩ = init := by
    have hsame : sum16 (fun i => m' (ETH_HDR_SIZE + 12 + i)) 4 =
        sum16 (fun i => m₀ (ETH_HDR_SIZE + 12 + i)) 4 :=
      sum16_congr fun i hi => hkept _ (by unfold UDP_OFFSET IP_HDR_SIZE; omega)
    rw [← hsum₀]
    simp only [udp_pseudo_sum, Frame.protocol, hsame, le16]
    rw [hkept (ETH_HDR_SIZE + 9) (by decide), hkept (UDP_OFFSET + 4) (by omega),
      hkept (UDP_OFFSET + 4 + 1) (by omega)]
  have hzero : udp_zero_chksum ⟨m', len⟩ = m' := if_neg hfield.ne
  have htotal := csum_total_le (fun i => m' (UDP_OFFSET + i)) 8 init
  unfold udp_chksum_ok
  rw [hzero, hudp, hpseudo, decide_eq_true_iff,
    ip_csum_eq_zero_iff (by unfold W; omega) (by rw [csum_total_init]; omega), csum_total_init]
  exact hsum

/-- A frame with other bytes behind its header. -/
theorem sameHeader_put (f : Frame) (j : ℕ) (l : List UInt8) :
    SameHeader f ⟨put f.data (ETH_HDR_SIZE + 4 * f.ihl + j) l, f.len⟩ :=
  ⟨rfl, fun _ hi => put_outside (.inl (by omega))⟩

/-- Behind the options of any header for UDP there may be an empty datagram for a port. -/
theorem exists_empty_datagram (hproto : f.protocol = IP_PROTO_UDP) (h5 : 5 ≤ f.ihl) (d : UInt8) :
    ∃ g, SameHeader f g ∧ udp_chksum_ok g.past_options = true ∧
      ∀ i, i < 6 → g.past_options.data (UDP_OFFSET + i) = (empty_datagram d).getD i 0 := by
  have hmem : f.past_options.data 23 = 17 := by
    have hbyte : (f.data 23).toNat = 17 := hproto
    rw [past_options_low (by decide)]
    exact UInt8.toNat_inj.mp hbyte
  have hok := empty_datagram_ok f.past_options.data f.past_options.len d hmem
  set m₀ := put f.past_options.data UDP_OFFSET (empty_datagram d)
  set c := htons (ip_csum (fun i => m₀ (UDP_OFFSET + i)) 8
    (udp_pseudo_sum ⟨m₀, f.past_options.len⟩))
  -- the datagram, and then its checksum
  let g₀ : Frame := ⟨put f.data (ETH_HDR_SIZE + 4 * f.ihl + 0) (empty_datagram d), f.len⟩
  have hihl₀ : g₀.ihl = f.ihl := (sameHeader_put f 0 _).ihl h5
  let g : Frame := ⟨put g₀.data (ETH_HDR_SIZE + 4 * g₀.ihl + 6) c, g₀.len⟩
  have hsame : SameHeader f g := by
    refine ⟨rfl, fun i hi => ?_⟩
    rw [← (sameHeader_put f 0 (empty_datagram d)).2 i hi]
    exact (sameHeader_put g₀ 6 c).2 i (by rwa [hihl₀])
  have hdata : g.past_options.data = put m₀ (UDP_OFFSET + 6) c := by
    rw [past_options_put (by omega), past_options_put h5]
    rfl
  have hlen : g.past_options.len = f.past_options.len := by
    simp only [Frame.past_options, hsame.ihl h5, hsame.1]
  have hpast : g.past_options = ⟨put m₀ (UDP_OFFSET + 6) c, f.past_options.len⟩ := by
    rw [← hdata, ← hlen]
  refine ⟨g, hsame, hpast ▸ hok, fun i hi => ?_⟩
  rw [hdata, put_outside (.inl (by omega))]
  exact put_add (by simp [empty_datagram]; omega)

/-- The addresses are in front of the options. -/
theorem SameHeader.addresses (h : SameHeader f g) (h5 : 5 ≤ f.ihl) :
    g.past_options.saddr = f.saddr ∧ g.past_options.daddr = f.daddr := by
  have hlow : ∀ i, i < UDP_OFFSET → g.past_options.data i = f.data i := by
    intro i hi
    have hoff : UDP_OFFSET = 34 := rfl
    have heth : ETH_HDR_SIZE = 14 := rfl
    rw [past_options_low hi, h.2 i (by omega)]
  simp only [Frame.saddr, Frame.daddr, be32, be16]
  constructor <;>
    rw [hlow _ (by decide), hlow _ (by decide), hlow _ (by decide), hlow _ (by decide)]

/-- With options, `udp_input` misses a datagram that is behind them. -/
theorem udp_header_missed (hproto : f.protocol = IP_PROTO_UDP) (h6 : 6 ≤ f.ihl) :
    ∃ g, SameHeader f g ∧ ∃ my_ip_addr s,
      udp_input my_ip_addr s g ≠ udp_input my_ip_addr s g.past_options := by
  -- a port other than the one that the options show
  let d : UInt8 := if f.data 37 = 0 then 1 else 0
  have hd : f.data 37 ≠ d := by
    unfold d
    split <;> simp_all
  let s : UDP_SOCK_T := { udp_init with listen_port := d.toNat, from_port := 1, from_ip := f.saddr }
  obtain ⟨g, hsame, hok, hbyte⟩ := exists_empty_datagram hproto (by omega) d
  have hmatch : udp_match f.daddr s g.past_options = true := by
    obtain ⟨hsaddr, hdaddr⟩ := hsame.addresses (by omega)
    have hport : be16 g.past_options.data (UDP_OFFSET + 2) = d.toNat := by
      rw [be16, hbyte 2 (by omega), hbyte 3 (by omega)]
      simp [empty_datagram]
    simp [udp_match, Frame.udp_dport, hport, hsaddr, hdaddr, s]
  have hmiss : udp_match f.daddr s g = false := by
    have hseen : g.data (36 + 1) = f.data 37 := by
      have heth : ETH_HDR_SIZE = 14 := rfl
      exact hsame.2 37 (by omega)
    have hne : d.toNat ≠ be16 g.data 36 := by
      intro heq
      rw [be16, hseen] at heq
      apply hd
      apply UInt8.toNat_inj.mp
      have h₁ := (f.data 37).toNat_lt
      have h₂ := d.toNat_lt
      omega
    have hport : g.udp_dport = be16 g.data 36 := rfl
    simp [udp_match, hport, hne, s]
  have hbuf : ¬ Fits s g.past_options := fun h => Bool.false_ne_true h.1
  refine ⟨g, hsame, f.daddr, s, fun heq => ?_⟩
  have hsport : g.past_options.udp_sport = 0 := by
    have h₀ : g.past_options.data UDP_OFFSET = 0 := hbyte 0 (by omega)
    have h₁ : g.past_options.data (UDP_OFFSET + 1) = 0 := hbyte 1 (by omega)
    rw [Frame.udp_sport, be16, h₀, h₁]
    rfl
  rw [udp_input_of_not_hit fun h => Bool.false_ne_true (hmiss.symm.trans h.2),
    udp_input_of_not_fits ⟨hok, hmatch⟩ hbuf, hsport] at heq
  exact Nat.one_ne_zero (congrArg (fun r => r.1.from_port) heq)

/-! ## ICMP -/

/-- With options, `icmp_input` takes them for the type of the message. -/
theorem icmp_header_missed (h6 : 6 ≤ f.ihl) :
    ∃ g, SameHeader f g ∧ icmp_verdict g ≠ icmp_verdict g.past_options := by
  -- an echo reply unless the options look like one
  let t : UInt8 := if f.data 34 = 0 then 3 else 0
  let g : Frame := ⟨put f.data (ETH_HDR_SIZE + 4 * f.ihl + 0) [t], f.len⟩
  have hsame : SameHeader f g := sameHeader_put f 0 [t]
  have hseen : g.icmp_type = (f.data 34).toNat := by
    have heth : ETH_HDR_SIZE = 14 := rfl
    exact congrArg UInt8.toNat (hsame.2 34 (by omega))
  have hreal : g.past_options.icmp_type = t.toNat := by
    have hdata : g.past_options.data = put f.past_options.data (UDP_OFFSET + 0) [t] :=
      past_options_put (by omega) 0 [t]
    have hbyte : g.past_options.data (UDP_OFFSET + 0) = t := by
      rw [hdata]
      exact put_add (l := [t]) (i := 0) (by simp)
    exact congrArg UInt8.toNat hbyte
  refine ⟨g, hsame, ?_⟩
  unfold icmp_verdict
  rw [hseen, hreal]
  by_cases hzero : f.data 34 = 0
  · have ht : t = 3 := if_pos hzero
    rw [hzero, ht]
    simp [ICMP_TYPE_ECHOREQUEST, ICMP_TYPE_ECHOREPLY]
  · have ht : t = 0 := if_neg hzero
    have hne : (f.data 34).toNat ≠ ICMP_TYPE_ECHOREPLY := fun h => hzero (UInt8.toNat_inj.mp h)
    rw [ht]
    simp only [hne, if_false]
    split_ifs <;> simp_all [ICMP_TYPE_ECHOREQUEST, ICMP_TYPE_ECHOREPLY]

end Options

/-- What `ip_input` has made sure of. -/
theorem passes_header {v : NetVars} {f : Frame} (h : ip_input_passes v f = true) :
    5 ≤ f.ihl ∧ f.frag_off / 0x2000 % 2 = 0 ∧
      (f.protocol = IP_PROTO_ICMP ∨ f.protocol = IP_PROTO_TCP ∨ f.protocol = IP_PROTO_UDP) := by
  simp only [ip_input_passes, ip_input_accepts, Bool.and_eq_true, Bool.or_eq_true,
    Bool.not_eq_true', decide_eq_true_eq, decide_eq_false_iff_not, Bool.or_eq_false_iff] at h
  omega

/-- **A datagram that `ip_input` passes on goes where its header says exactly when** it is
no later fragment, is as long as it says, and has no options unless it is for TCP. -/
theorem ip_input_goes_as_said_iff (v : NetVars) (f : Frame) (h : ip_input_passes v f = true) :
    GoesAsSaid f ↔ HeaderInOrder f := by
  obtain ⟨h5, hmore, hproto⟩ := passes_header h
  constructor
  · intro hgoes
    refine ⟨hgoes.whole.1, hgoes.header, hgoes.received, fun htcp => ?_⟩
    by_contra hne
    rcases hproto with hicmp | htcp' | hudp
    · obtain ⟨g, hsame, hdiffer⟩ := icmp_header_missed (f := f) (by omega)
      exact hdiffer (hgoes.icmp hicmp g hsame)
    · exact htcp htcp'
    · obtain ⟨g, hsame, my_ip_addr, s, hdiffer⟩ := udp_header_missed hudp (by omega)
      exact hdiffer (hgoes.udp hudp g hsame my_ip_addr s)
  · rintro ⟨hfirst, hheader, hreceived, hfive⟩
    have hplain : f.protocol ≠ IP_PROTO_TCP → ∀ g, SameHeader f g → g.past_options = g :=
      fun htcp g hsame => past_options_of_five ((hsame.ihl h5).trans (hfive htcp))
    refine ⟨⟨hfirst, hmore⟩, hheader, hreceived, fun hudp g hsame my_ip_addr s => ?_,
      fun hicmp g hsame => ?_⟩
    · rw [hplain (by rw [hudp]; decide) g hsame]
    · rw [hplain (by rw [hicmp]; decide) g hsame]

/-- A whole datagram without options goes where its header says. -/
theorem ip_input_goes_as_said_sample :
    ip_input_passes (board_vars 0) sample_frame = true ∧ GoesAsSaid sample_frame := by
  have hpasses : ip_input_passes (board_vars 0) sample_frame = true := by decide
  refine ⟨hpasses, (ip_input_goes_as_said_iff (board_vars 0) sample_frame hpasses).mpr ?_⟩
  refine ⟨?_, ?_, ?_, ?_⟩
  · decide
  · decide
  · decide
  · intro _
    decide

/-- The last fragment of a datagram, with 8 bytes at 1480. -/
def tail_frame : Frame :=
  frame_of [0x00, 0x50, 0xc2, 0x11, 0x11, 0x11, 0x02, 0, 0, 0, 0, 0x01, 0x08, 0x00,
    0x45, 0, 0, 28, 0, 1, 0, 185, 64, 17, 246, 97, 192, 168, 1, 100, 192, 168, 1, 1,
    0, 69, 30, 21, 0, 8, 1, 2]

/-- It is passed on as a datagram. -/
theorem tail_fragment_passed :
    ip_input_passes (board_vars 0) tail_frame = true ∧ tail_frame.frag_off % 0x2000 = 185 ∧
      ¬ GoesAsSaid tail_frame := by
  have hoffset : tail_frame.frag_off % 0x2000 = 185 := by decide
  refine ⟨by decide, hoffset, fun h => ?_⟩
  rw [h.whole.1] at hoffset
  cases hoffset

end CsBoot.Net
