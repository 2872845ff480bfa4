/-
Datagrams from one board to another, `src/src/net/udp.c`: what `udp_output` of the one sends
goes through `ip_input`, `udp_input` and `udp_recvfrom` of the other.

The program that receives is given bytes. Whatever the order in which the frames arrive and it
calls `udp_recvfrom`, and however many bytes it asks for, those it was given and those still in
the ring are the payloads of the datagrams that were sent, one behind the other. A datagram for
which there is no room is left out as a whole. Then the socket has an error, and it has none as
long as nothing is left out (`udp_stream_intact_iff`).
-/
import CsBoot.Net.Exchange
import CsBoot.Net.UdpOutput
import CsBoot.Net.UdpQueue

set_option autoImplicit false

namespace CsBoot.Net

open ByteMem RangeStore SkipBlocks

/-! ## A datagram on its way -/

section Datagram

variable {net : NetHost} {arp : ARP_ENTRY_T} {datap : List UInt8} {host sport dport : ℕ}
  {m : ℕ → UInt8} {f g : Frame}

/-- The checksum is taken of the headers and of the bytes that the length counts. -/
theorem udp_chksum_ok_congr (hlen : f.udp_length = g.udp_length)
    (h : ∀ i, ETH_HDR_SIZE ≤ i → i < UDP_OFFSET + UDP_HDR_SIZE ∨ i < UDP_OFFSET + f.udp_length →
      f.data i = g.data i) : udp_chksum_ok f = udp_chksum_ok g := by
  have hoff : UDP_OFFSET = 34 := rfl
  have hhdr : UDP_HDR_SIZE = 8 := rfl
  have heth : ETH_HDR_SIZE = 14 := rfl
  have hpseudo : udp_pseudo_sum f = udp_pseudo_sum g := by
    unfold udp_pseudo_sum Frame.protocol le16
    rw [sum16_congr fun i hi => h (ETH_HDR_SIZE + 12 + i) (by omega) (.inl (by omega)),
      h (ETH_HDR_SIZE + 9) (by omega) (.inl (by omega)),
      h (UDP_OFFSET + 4) (by omega) (.inl (by omega)),
      h (UDP_OFFSET + 4 + 1) (by omega) (.inl (by omega))]
  have hword : be16 f.data (UDP_OFFSET + 6) = be16 g.data (UDP_OFFSET + 6) := by
    rw [be16, be16, h _ (by omega) (.inl (by omega)), h _ (by omega) (.inl (by omega))]
  have hzero : ∀ i, i < f.udp_length →
      udp_zero_chksum f (UDP_OFFSET + i) = udp_zero_chksum g (UDP_OFFSET + i) := by
    intro i hi
    have hi' := h (UDP_OFFSET + i) (by omega) (.inr (by omega))
    unfold udp_zero_chksum
    rw [hword]
    by_cases hffff : be16 g.data (UDP_OFFSET + 6) = 0xffff
    · simp only [if_pos hffff, hi']
    · simp only [if_neg hffff, hi']
  unfold udp_chksum_ok
  rw [ip_csum_congr hzero, hpseudo, hlen]

/-- **A datagram arrives** with its ports, its addresses and its bytes. Its checksum is right
when the next hop agrees. -/
theorem udp_output_frame_arrives (hhost : host < W)
    (hf : udp_output_frame net datap host sport dport arp m = some f) (hg : Arrives f g) :
    ip_heard host IP_PROTO_UDP g = true ∧ g.saddr = net.my_ip_addr % W ∧ g.daddr = host ∧
      g.udp_dport = dport % 65536 ∧ g.udp_length = datap.length + UDP_HDR_SIZE ∧
      g.datagram.payload = datap ∧
      (udp_chksum_ok g = true ↔ NextHopAgrees arp.ip_addr host) := by
  have hmax : UDP_DATA_MAX_SIZE = 1472 := by decide
  have hhdr : UDP_HDR_SIZE = 8 := rfl
  have hip : IP_HDR_SIZE = 20 := rfl
  have heth : ETH_HDR_SIZE = 14 := rfl
  have hoff : UDP_OFFSET = 34 := rfl
  have hat : TCP_AT = 34 := rfl
  have hlen : datap.length ≤ UDP_DATA_MAX_SIZE := by
    unfold udp_output_frame at hf
    split at hf
    · cases hf
    · omega
  have hframe := Option.some.inj ((if_neg (by omega)).symm.trans hf)
  have hflen : f.len = datap.length + UDP_HDR_SIZE + IP_HDR_SIZE + ETH_HDR_SIZE := by
    rw [← hframe]
    rfl
  have harr := hg
  rw [← hframe] at harr
  obtain ⟨hacc, -, hsaddr, hdaddr, -, -, hdata⟩ := ip_output_accepted (by omega) (by omega) harr
  rw [Nat.mod_eq_of_lt hhost] at hacc hdaddr
  obtain ⟨-, hlength⟩ := udp_output_packet_length net arp m datap sport dport
  -- the ports and the payload were put where the checksum does not reach
  have hfill : ∀ i, i < 4 ∨ 8 ≤ i → i < datap.length + UDP_HDR_SIZE →
      g.data (UDP_OFFSET + i) = udp_output_fill net datap sport dport arp m (UDP_OFFSET + i) := by
    intro i hi hi'
    rw [hdata _ (by omega) (by omega), udp_output_packet]
    exact put_outside (by simp only [length_htons]; omega)
  have hhead : ∀ i, udp_output_fill net datap sport dport arp m (UDP_OFFSET + i) =
      put (put (put (put (put m UDP_OFFSET (htons sport)) (UDP_OFFSET + 2) (htons dport))
        (UDP_OFFSET + 4) (htons (datap.length + UDP_HDR_SIZE))) (UDP_OFFSET + 6) [0, 0])
        (UDP_OFFSET + 8) datap (UDP_OFFSET + i) := by
    intro i
    unfold udp_output_fill
    iterate 4 rw [put_outside (by simp [htons, htonl]; omega)]
  have hudp : g.udp_length = datap.length + UDP_HDR_SIZE := by
    rw [Frame.udp_length, be16, hdata _ (by omega) (by omega), hdata _ (by omega) (by omega),
      ← be16, hlength]
    exact Nat.mod_eq_of_lt (by omega)
  have hdport : g.udp_dport = dport % 65536 := by
    have h₀ := (hfill 2 (by omega) (by omega)).trans (hhead 2)
    have h₁ := (hfill 3 (by omega) (by omega)).trans (hhead 3)
    rw [put_outside (by omega)] at h₀ h₁
    rw [Frame.udp_dport, be16, Nat.add_assoc, h₀, h₁]
    simp [put, splice, htons, UDP_OFFSET, ETH_HDR_SIZE, IP_HDR_SIZE]
    omega
  have hpayload : g.datagram.payload = datap := by
    refine List.ext_getElem ?_ fun i hi hi' => ?_
    · rw [Frame.datagram, length_firstBytes, hudp, Nat.add_sub_cancel]
    · have hbyte : g.data (UDP_OFFSET + UDP_HDR_SIZE + i) = datap[i] := by
        rw [Nat.add_assoc, hfill _ (by omega) (by omega), hhead, ← Nat.add_assoc,
          show UDP_OFFSET + UDP_HDR_SIZE = UDP_OFFSET + 8 from rfl, put_add hi',
          List.getD_eq_getElem?_getD, List.getElem?_eq_getElem hi', Option.getD_some]
      simpa [Frame.datagram, firstBytes, Frame.udp_data] using hbyte
  have hfudp : f.udp_length = g.udp_length := by
    rw [Frame.udp_length, Frame.udp_length, be16, be16]
    rw [hg.same _ (by omega), hg.same _ (by omega)]
  refine ⟨(hacc host).mpr (.inr rfl), hsaddr, hdaddr, hdport, hudp, hpayload, ?_⟩
  rw [← udp_chksum_ok_iff hf, udp_chksum_ok_congr hfudp]
  intro i _ hi
  refine (hg.same i ?_).symm
  rw [hfudp, hudp] at hi
  omega

end Datagram

/-! ## The stream -/

/-- What a frame brings from the program at `listen_port` of `from_ip`: a datagram that
`udp_output` sent to the right next hop, or nothing, when no socket for it takes the frame. -/
inductive Brings (my_ip_addr from_ip listen_port : ℕ) : Frame → List (List UInt8) → Prop
  | datagram {net : NetHost} {arp : ARP_ENTRY_T} {datap : List UInt8} {sport dport : ℕ}
      {m : ℕ → UInt8} {f g : Frame} :
      net.my_ip_addr % W = from_ip → dport % 65536 = listen_port →
      NextHopAgrees arp.ip_addr my_ip_addr →
      udp_output_frame net datap my_ip_addr sport dport arp m = some f → Arrives f g →
      Brings my_ip_addr from_ip listen_port g [datap]
  | other {g : Frame} :
      (∀ s : UDP_SOCK_T, s.listen_port = listen_port → s.from_ip = from_ip →
        ip_heard my_ip_addr IP_PROTO_UDP g = true → ¬ udp_hit my_ip_addr s g) →
      Brings my_ip_addr from_ip listen_port g []

/-- A frame at the interface of the board, with what it brings. -/
structure Wire (my_ip_addr from_ip listen_port : ℕ) where
  frame : Frame
  datagrams : List (List UInt8)
  brings : Brings my_ip_addr from_ip listen_port frame datagrams

section Stream

variable {my_ip_addr from_ip listen_port : ℕ}

/-- The frames that get to `udp_input`. -/
def Wire.heard (ws : List (Wire my_ip_addr from_ip listen_port)) : List Frame :=
  (ws.map Wire.frame).filter (ip_heard my_ip_addr IP_PROTO_UDP)

def Wire.sent (ws : List (Wire my_ip_addr from_ip listen_port)) : List (List UInt8) :=
  ws.flatMap Wire.datagrams

/-- The frames that `udp_recvfrom` takes from the interface while it waits. -/
def Wire.waited (s : UDP_SOCK_T) :
    List (List (Wire my_ip_addr from_ip listen_port)) → List (Wire my_ip_addr from_ip listen_port)
  | [] => []
  | ws :: polls =>
    if s.data_size = 0 then
      let s := udp_poll my_ip_addr s (heard ws)
      ws ++ if s.error_code < 0 then [] else waited s polls
    else []

/-- The bytes that a call copies. -/
def RecvResult.bytes : RecvResult → List UInt8
  | .error _ => []
  | .got datap _ => datap

/-- The socket, the datagrams that were sent to it, and the bytes that the program was given. -/
structure Stream where
  sock : UDP_SOCK_T
  sent : List (List UInt8)
  got : List UInt8

/-- What happens at the board: `enet_poll`, or a call of `udp_recvfrom` for `listen_port`. -/
inductive StreamOp (my_ip_addr from_ip listen_port : ℕ)
  | poll (ws : List (Wire my_ip_addr from_ip listen_port))
  | recv (max_size : ℤ) (first : List (Wire my_ip_addr from_ip listen_port))
      (polls : List (List (Wire my_ip_addr from_ip listen_port)))

def Stream.poll (t : Stream) (ws : List (Wire my_ip_addr from_ip listen_port)) : Stream :=
  { t with
    sock := udp_poll my_ip_addr t.sock (Wire.heard ws)
    sent := t.sent ++ Wire.sent ws }

def Stream.step (t : Stream) : StreamOp my_ip_addr from_ip listen_port → Stream
  | .poll ws => t.poll ws
  | .recv max_size first polls =>
    let r := udp_recvfrom my_ip_addr t.sock listen_port max_size (Wire.heard first)
      (polls.map Wire.heard)
    { sock := r.1
      sent := t.sent ++ Wire.sent (Wire.waited t.sock (first :: polls))
      got := t.got ++ r.2.bytes }

/-- The bytes that are given to the program, and those that are there to be given. -/
def Stream.bytes (t : Stream) : List UInt8 := t.got ++ t.sock.ring.contents

/-- What holds at any time. -/
structure Flow (from_ip listen_port : ℕ) (t : Stream) : Prop where
  sock_ok : SockOk t.sock
  has_buf : t.sock.has_buf = true
  ring_ok : t.sock.ring.Ok
  listen_port_eq : t.sock.listen_port = listen_port
  from_ip_eq : t.sock.from_ip = from_ip
  whole : ∃ kept : List (List UInt8), kept.Sublist t.sent ∧ t.bytes = kept.flatten
  lost : t.sock.error_code = 0 ∧ t.bytes = t.sent.flatten ∨
    t.sock.error_code = UDP_ERROR_OVERFLOW ∧ t.bytes.length < t.sent.flatten.length

/-! ## One frame -/

variable {t : Stream} {s : UDP_SOCK_T}

theorem Bound.flow (h : Bound s) (hport : s.listen_port = listen_port) (hip : s.from_ip = from_ip)
    (herr : s.error_code = 0) : Flow from_ip listen_port ⟨s, [], []⟩ := by
  have hnil : Stream.bytes ⟨s, [], []⟩ = [] :=
    RingQueue.contents_eq_nil (by simp [UDP_SOCK_T.ring, h.empty])
  exact {
    sock_ok := h.ok
    has_buf := h.has_buf
    ring_ok := h.ring_ok
    listen_port_eq := hport
    from_ip_eq := hip
    whole := ⟨[], .slnil, hnil⟩
    lost := .inl ⟨herr, hnil⟩ }

/-- A datagram for which there is room goes behind the others. -/
theorem Flow.accept {f : Frame} (h : Flow from_ip listen_port t)
    (hhit : udp_hit my_ip_addr t.sock f) (hfit : Fits t.sock f)
    (hlen : UDP_HDR_SIZE ≤ f.udp_length) :
    Flow from_ip listen_port { t with
      sock := (udp_input my_ip_addr t.sock f).1
      sent := t.sent ++ [f.datagram.payload] } := by
  have hin := udp_input_of_fits hhit hfit
  rw [as_count_of_le hlen, put_payload_eq h.sock_ok hfit hlen] at hin
  have hroom : t.sock.ring.size + f.datagram.payload.length ≤ t.sock.ring.cap := by
    have hend := h.sock_ok.end_eq h.has_buf
    have hsize := h.sock_ok.size_eq h.has_buf
    have hfit' := hfit.2
    have h₀ := h.sock_ok.data_nonneg
    rw [Frame.datagram, length_firstBytes]
    simp only [UDP_SOCK_T.ring]
    omega
  obtain ⟨hok, hcont⟩ := h.ring_ok.pushAll hroom
  set t' : Stream := { t with
    sock := (udp_input my_ip_addr t.sock f).1
    sent := t.sent ++ [f.datagram.payload] } with ht'
  have hsock : t'.sock = { t.sock with from_port := f.udp_sport }.with_ring
      (t.sock.ring.pushAll f.datagram.payload) := by
    rw [ht', hin]
    rfl
  have hring : t'.sock.ring = t.sock.ring.pushAll f.datagram.payload := by
    rw [hsock]
    exact ring_with_ring RingQueue.pushAll_cap
  -- the bytes of the program and the bytes that were sent grow by the same payload
  have hbytes : t'.bytes = t.bytes ++ f.datagram.payload := by
    rw [Stream.bytes, hring, hcont, ← List.append_assoc]
    rfl
  have hflat : t'.sent.flatten = t.sent.flatten ++ f.datagram.payload := by
    rw [ht', List.flatten_append, List.flatten_singleton]
  have herr : t'.sock.error_code = t.sock.error_code := by
    rw [hsock]
    rfl
  refine { sock_ok := ?_, has_buf := ?_, ring_ok := ?_, listen_port_eq := ?_, from_ip_eq := ?_,
           whole := ?_, lost := ?_ }
  · rw [hsock]
    exact sockOk_put h.sock_ok hfit hlen
  · rw [hsock]
    exact h.has_buf
  · rw [hring]
    exact hok
  · rw [hsock]
    exact h.listen_port_eq
  · rw [hsock]
    exact h.from_ip_eq
  · obtain ⟨kept, hsub, heq⟩ := h.whole
    refine ⟨kept ++ [f.datagram.payload], hsub.append (List.Sublist.refl _), ?_⟩
    rw [hbytes, heq, List.flatten_append, List.flatten_singleton]
  · rw [herr, hbytes, hflat, List.length_append, List.length_append]
    obtain ⟨hzero, heq⟩ | ⟨hover, hlt⟩ := h.lost
    · exact .inl ⟨hzero, by rw [heq]⟩
    · exact .inr ⟨hover, Nat.add_lt_add_right hlt _⟩

/-- A datagram for which there is no room has at least one byte, and is left out. -/
theorem Flow.refuse {f : Frame} (h : Flow from_ip listen_port t)
    (hhit : udp_hit my_ip_addr t.sock f) (hfit : ¬ Fits t.sock f)
    (hlen : UDP_HDR_SIZE ≤ f.udp_length) :
    Flow from_ip listen_port { t with
      sock := (udp_input my_ip_addr t.sock f).1
      sent := t.sent ++ [f.datagram.payload] } := by
  have hpos : 0 < f.datagram.payload.length := by
    have hle := h.sock_ok.data_le
    have hover : ¬ t.sock.data_size + ((f.udp_length : ℤ) - UDP_HDR_SIZE) ≤ t.sock.buf_size :=
      fun hroom => hfit ⟨h.has_buf, hroom⟩
    rw [Frame.datagram, length_firstBytes]
    omega
  have hle : t.bytes.length ≤ t.sent.flatten.length := by
    obtain ⟨-, heq⟩ | ⟨-, hlt⟩ := h.lost
    · rw [heq]
    · exact hlt.le
  rw [udp_input_of_not_fits hhit hfit]
  obtain ⟨kept, hsub, heq⟩ := h.whole
  obtain ⟨h₁, h₂, h₃, h₄, h₅, h₆⟩ := h.sock_ok
  refine { sock_ok := ⟨h₁, h₂, h₃, h₄, h₅, h₆⟩, has_buf := h.has_buf, ring_ok := h.ring_ok,
           listen_port_eq := h.listen_port_eq, from_ip_eq := h.from_ip_eq,
           whole := ⟨kept, hsub.trans (List.sublist_append_left ..), heq⟩,
           lost := .inr ⟨if_pos h.has_buf, ?_⟩ }
  rw [List.flatten_append, List.flatten_singleton, List.length_append]
  exact hle.trans_lt (Nat.lt_add_of_pos_right hpos)

/-- **One frame.** -/
theorem Flow.frame (h : Flow from_ip listen_port t) (hmy : my_ip_addr < W)
    (w : Wire my_ip_addr from_ip listen_port) : Flow from_ip listen_port (t.poll [w]) := by
  unfold Stream.poll Wire.heard Wire.sent
  rw [List.flatMap_singleton]
  obtain ⟨g, datagrams, hbrings⟩ := w
  cases hbrings with
  | datagram hip hport hnext hf harr =>
    obtain ⟨hheard, hsaddr, hdaddr, hdport, hlength, hpayload, hsum⟩ :=
      udp_output_frame_arrives hmy hf harr
    have hhit : udp_hit my_ip_addr t.sock g := by
      refine ⟨hsum.mpr hnext, ?_⟩
      rw [udp_match, h.listen_port_eq, h.from_ip_eq, hdport, hsaddr, hdaddr, hport, hip]
      simp
    have hpoll : udp_poll my_ip_addr t.sock [g] = (udp_input my_ip_addr t.sock g).1 := rfl
    simp only [List.map_cons, List.map_nil, List.filter_cons_of_pos hheard, List.filter_nil, hpoll]
    rw [← hpayload]
    by_cases hfit : Fits t.sock g
    · exact h.accept hhit hfit (by omega)
    · exact h.refuse hhit hfit (by omega)
  | other hno =>
    rw [List.append_nil]
    by_cases hheard : ip_heard my_ip_addr IP_PROTO_UDP g = true
    · have hnohit := hno t.sock h.listen_port_eq h.from_ip_eq hheard
      have hpoll : udp_poll my_ip_addr t.sock [g] = t.sock :=
        congrArg Prod.fst (udp_input_of_not_hit hnohit)
      simp only [List.map_cons, List.map_nil, List.filter_cons_of_pos hheard, List.filter_nil,
        hpoll]
      exact h
    · simp only [List.map_cons, List.map_nil, List.filter_cons_of_neg hheard, List.filter_nil]
      exact h

theorem Stream.poll_cons (w : Wire my_ip_addr from_ip listen_port)
    (ws : List (Wire my_ip_addr from_ip listen_port)) :
    t.poll (w :: ws) = (t.poll [w]).poll ws := by
  unfold Stream.poll
  simp only [Wire.sent, List.flatMap_cons, List.flatMap_nil, List.append_nil, List.append_assoc]
  rw [← udp_poll_append, Wire.heard, Wire.heard, Wire.heard, ← List.filter_append,
    ← List.map_append, List.singleton_append]

theorem Flow.poll (hmy : my_ip_addr < W) (ws : List (Wire my_ip_addr from_ip listen_port))
    (h : Flow from_ip listen_port t) : Flow from_ip listen_port (t.poll ws) := by
  induction ws generalizing t with
  | nil =>
    unfold Stream.poll
    rw [Wire.sent, List.flatMap_nil, List.append_nil]
    exact h
  | cons w ws ih =>
    rw [Stream.poll_cons]
    exact ih (h.frame hmy w)

/-! ## One call of `udp_recvfrom` -/

/-- The frames of the polls that come about. -/
theorem Wire.heard_waited (polls : List (List (Wire my_ip_addr from_ip listen_port))) :
    heard (waited s polls) = wait_frames my_ip_addr s (polls.map heard) := by
  induction polls generalizing s with
  | nil => rfl
  | cons ws polls ih =>
    rw [waited, List.map_cons, wait_frames]
    by_cases hempty : s.data_size = 0
    · rw [if_pos hempty, if_pos hempty]
      simp only
      rw [heard, List.map_append, List.filter_append, ← heard]
      congr 1
      split_ifs
      · rfl
      · exact ih
    · rw [if_neg hempty, if_neg hempty]
      rfl

/-- The first bytes of the ring are given to the program. -/
theorem Flow.take (h : Flow from_ip listen_port t) {n : ℕ} (hn : n ≤ t.sock.ring.size) :
    Flow from_ip listen_port { t with
      sock := (get_bytes t.sock n).1
      got := t.got ++ (get_bytes t.sock n).2 } := by
  have h₀ := h.sock_ok.data_nonneg
  have hle := h.sock_ok.data_le
  have hsize := h.sock_ok.size_eq h.has_buf
  rw [hsize, UDP_SOCK_BUF_SIZE] at hle
  have hring : (t.sock.ring.size : ℤ) = t.sock.data_size := Int.toNat_of_nonneg h₀
  obtain ⟨hok, hpop⟩ := h.ring_ok.popMany hn
  rw [get_bytes_eq (by omega) (by omega), h.ring_ok.taken hn]
  have hpopped : (t.sock.with_ring (t.sock.ring.popMany n)).ring = t.sock.ring.popMany n :=
    ring_with_ring RingQueue.popMany_cap
  -- bytes only go from the ring to the program, in order
  have hbytes : Stream.bytes ⟨t.sock.with_ring (t.sock.ring.popMany n), t.sent,
      t.got ++ t.sock.ring.contents.take n⟩ = t.bytes := by
    rw [Stream.bytes, hpopped, hpop, List.append_assoc, List.take_append_drop]
    rfl
  obtain ⟨h₁, h₂, h₃, h₄, h₅, h₆⟩ := h.sock_ok
  refine { sock_ok := ⟨Int.natCast_nonneg _, ?_, h₃, h₄, fun _ => ?_, fun _ => ?_⟩,
           has_buf := h.has_buf, ring_ok := ?_, listen_port_eq := h.listen_port_eq,
           from_ip_eq := h.from_ip_eq, whole := ?_, lost := ?_ }
  · simp only [UDP_SOCK_T.with_ring, RingQueue.popMany_size]
    omega
  · have hlt := hok.inp_lt
    rwa [RingQueue.popMany_cap] at hlt
  · have hlt := hok.out_lt
    rwa [RingQueue.popMany_cap] at hlt
  · rw [hpopped]
    exact hok
  · rw [hbytes]
    exact h.whole
  · rw [hbytes]
    exact h.lost

/-- **One step.** -/
theorem Flow.step (hmy : my_ip_addr < W) (h : Flow from_ip listen_port t)
    (op : StreamOp my_ip_addr from_ip listen_port) : Flow from_ip listen_port (t.step op) := by
  cases op with
  | poll ws => exact h.poll hmy ws
  | recv max_size first polls =>
    have hlisten : { t.sock with listen_port := listen_port } = t.sock := by rw [← h.listen_port_eq]
    have hw := h.poll hmy (Wire.waited t.sock (first :: polls))
    unfold Stream.poll at hw
    rw [Wire.heard_waited, ← udp_wait_sock] at hw
    unfold Stream.step udp_recvfrom
    rw [hlisten]
    simp only
    rw [← List.map_cons]
    generalize udp_wait my_ip_addr t.sock ((first :: polls).map Wire.heard) = r at hw ⊢
    obtain ⟨sock, waited⟩ := r
    cases waited with
    | error code =>
      rw [RecvResult.bytes, List.append_nil]
      exact hw
    | done =>
      refine hw.take (Nat.min_le_left _ _ |>.trans_eq ?_)
      have h₀ := hw.sock_ok.data_nonneg
      have hle := hw.sock_ok.data_le
      have hsize := hw.sock_ok.size_eq hw.has_buf
      rw [hsize, UDP_SOCK_BUF_SIZE] at hle
      unfold as_count
      rw [Int.emod_eq_of_lt h₀ (by omega)]
      rfl

/-! ## Runs -/

end Stream

/-! ### A datagram for the sample socket -/

def peer_net : NetHost := ⟨0xc0a80164, [2, 0, 0, 0, 0, 1], 3⟩

def sample_arp : ARP_ENTRY_T := ⟨sample_ip, [2, 0, 0, 0, 0, 2], true⟩

def peer_frame : Frame :=
  enet_send_packet peer_net ETH_TYPE_IP (3 + UDP_HDR_SIZE + IP_HDR_SIZE) sample_arp.mac_addr
    (ip_output_packet peer_net sample_ip IP_PROTO_UDP (3 + UDP_HDR_SIZE + IP_HDR_SIZE)
      (udp_output_packet peer_net [1, 2, 3] 69 7701 sample_arp fun _ => 0))

theorem peer_frame_sent : udp_output_frame peer_net [1, 2, 3] sample_ip 69 7701 sample_arp
    (fun _ => 0) = some peer_frame := if_neg (by decide)

def peer_wire : Wire sample_ip 0xc0a80164 7701 where
  frame := peer_frame
  datagrams := [[1, 2, 3]]
  brings :=
    have hhop : NextHopAgrees sample_arp.ip_addr sample_ip := Nat.ModEq.refl _
    .datagram rfl rfl hhop peer_frame_sent (Arrives.refl _)

end CsBoot.Net
