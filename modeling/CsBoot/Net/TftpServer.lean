/-
`tftpc_get` and a server that sends it a file.

The server has a transfer for every read request that reaches it, each at a port
of its own. It sends a block again as often as it likes, goes on to the next when
the last one sent is acknowledged, and may answer with an error at any time. A
packet that was sent may get lost, or come to the socket any number of times and
in any order; so may an acknowledgement.

The socket holds bytes: `udp_recvfrom` takes up to `TFTP_PKT_SIZE` of those of
the packets that have come. A run in which each call takes one packet
(`WholePacket`) returns success only for the complete file, unless the server
answers with error code zero, or the buffer is filled to its end by full blocks
of a longer file, or there is no buffer for a file of one byte
(`success_complete_iff`).
-/
import CsBoot.Net.TftpSpec
import CsBoot.Net.UdpQueue

set_option autoImplicit false

namespace CsBoot.Net

open SkipBlocks

/-! ## Client and server -/

/-- The packet of an error with its message. -/
def error_packet (code : UInt16) (msg : List UInt8) : List UInt8 :=
  htons TFTP_ERROR ++ htons code.toNat ++ (msg ++ [0])

/-- A transfer of the server, which has sent a block and not seen its
acknowledgement. -/
inductive Transfer
  | idle
  | sending (k : ℕ)
  | ended

/-- The client in its loop, or with its result, what it has seen there, the
packets in its socket, the transfers by port, and the packets sent so far. -/
structure Session where
  client : TftpGet
  done : Option (ℤ × ℤ)
  events : List (RecvResult × Bool)
  pending : List (List UInt8)
  transfer : ℕ → Transfer
  sent : List (List UInt8)
  acks : List Sent

/-- The packets that are left when `n` bytes have been taken. -/
def chop : ℕ → List (List UInt8) → List (List UInt8)
  | _, [] => []
  | n, p :: ps => if n < p.length then p.drop n :: ps else chop (n - p.length) ps

inductive SessionOp
  /-- A read request comes to the server, which takes a port for it. -/
  | request (port : ℕ)
  | resend (port : ℕ)
  | acknowledged (port : ℕ)
  | refuse (port : ℕ) (code : UInt16) (msg : List UInt8)
  /-- A packet comes to the socket. -/
  | deliver (p : List UInt8)
  /-- The client goes through its loop once. -/
  | round (server_port : ℕ) (send_ok : Bool)
  | round_error (code : ℤ)

/-- A round of the client. -/
def Session.round (s : Session) (rc : RecvResult) (send_ok : Bool) : Session :=
  let r := tftp_round s.client rc send_ok
  { s with
    client := r.state
    done := r.ret
    events := s.events ++ [(rc, send_ok)]
    acks := s.acks ++ r.sent.toList }

/-- What `udp_recvfrom` takes out of the socket; nothing is a timeout. -/
def Session.next_packet (s : Session) : List UInt8 := s.pending.flatten.take TFTP_PKT_SIZE

/-- The transfer at a port sends a packet. -/
def Session.send (s : Session) (port : ℕ) (t : Transfer) (p : List UInt8) : Session :=
  { s with transfer := Function.update s.transfer port t, sent := p :: s.sent }

/-- A step, for the file the server has and the error codes it may use. -/
def session_step (file : List UInt8) (codes : UInt16 → Bool) (s : Session) :
    SessionOp → Option Session
  | .request port =>
    -- only the first request of a port begins a transfer
    match s.transfer port with
    | .idle => some (s.send port (.sending 1) (data_packet file 1))
    | _ => none
  | .resend port =>
    match s.transfer port with
    | .sending k => some (s.send port (.sending k) (data_packet file k))
    | _ => none
  | .acknowledged port =>
    match s.transfer port with
    | .sending k =>
      -- an acknowledgement may come more than once, and late
      if (⟨ack_packet k, port⟩ : Sent) ∈ s.acks then
        if k < block_num file then
          some (s.send port (.sending (k + 1)) (data_packet file (k + 1)))
        else some { s with transfer := Function.update s.transfer port .ended }
      else none
    | _ => none
  | .refuse port code msg =>
    match s.transfer port with
    | .ended => none
    | _ => if codes code then some (s.send port .ended (error_packet code msg)) else none
  | .deliver p => if p ∈ s.sent then some { s with pending := s.pending ++ [p] } else none
  | .round server_port send_ok =>
    if s.done = none then
      some { s.round (.got s.next_packet server_port) send_ok with
        pending := chop TFTP_PKT_SIZE s.pending }
    else none
  | .round_error code => if s.done = none then some (s.round (.error code) true) else none

/-- The packet buffer, before the request is written into it. -/
def TftpStart.tftp (start : TftpStart) : ℕ → UInt8 := start.malloc.getD fun _ => 0

/-- The client when it has sent its request. -/
def session_init (filename : List UInt8) (start : TftpStart) (buf : ℕ → UInt8) (len : ℤ) :
    Session where
  client := tftp_init filename start.tftp buf len
  done := none
  events := []
  pending := []
  transfer _ := .idle
  sent := []
  acks := []

/-- Each call of `udp_recvfrom` takes one packet: there is no other, or the first
one fills the buffer. -/
def WholePacket (s : Session) : SessionOp → Prop
  | .round .. => ∀ p ps, s.pending = p :: ps → ps = [] ∨ p.length = TFTP_PKT_SIZE
  | _ => True

/-- `next_packet` is what the socket gives, unless it gives an error: the pending
packets are the payloads that wait in its ring. -/
theorem next_packet_of_socket {my_ip_addr : ℕ} {t : Traffic} {c : RecvCall} {s : Session}
    (h : Queue (c.waited my_ip_addr t)) (hmax : c.max_size = TFTP_PKT_SIZE)
    (hpend : s.pending = (c.waited my_ip_addr t).pending.map Datagram.payload) :
    ∃ rc, (udp_recvfrom my_ip_addr t.sock c.listen_port c.max_size c.first c.polls).2 = rc ∧
      ((∃ code, rc = .error code) ∨ ∃ port, rc = .got s.next_packet port) := by
  refine ⟨_, rfl, ?_⟩
  have hrecv := h.recv_bytes (by rw [hmax]; decide) (by rw [hmax]; decide)
  rw [hmax] at hrecv ⊢
  obtain ⟨code, herr⟩ | hgot := hrecv
  · exact .inl ⟨code, herr⟩
  · rw [← hpend] at hgot
    exact .inr ⟨_, hgot⟩

/-! ## What the client has seen -/

section Events

variable {file : List UInt8} {codes : UInt16 → Bool} {filename : List UInt8} {start : TftpStart}
  {buf : ℕ → UInt8} {len : ℤ} {s : Session} {ok : Session → SessionOp → Prop}

/-- The client is where `tftp_loop` is after the events. -/
def Linked (s₀ : TftpGet) (s : Session) : Prop := tftp_loop s₀ s.events = (s.client, s.done)

theorem Linked.round {s₀ : TftpGet} (h : Linked s₀ s) (hdone : s.done = none) (rc : RecvResult)
    (send_ok : Bool) : Linked s₀ (s.round rc send_ok) := by
  unfold Linked at h ⊢
  rw [hdone] at h
  simp only [Session.round]
  rw [tftp_loop_append h, tftp_loop_singleton]

theorem linked_of_reaches
    (h : Reaches (session_step file codes) ok (session_init filename start buf len) s) :
    Linked (tftp_init filename start.tftp buf len) s := by
  refine h.invariant (P := Linked (tftp_init filename start.tftp buf len)) ?_ ?_
  · exact rfl
  intro s op s' hs _ hstep
  cases op with
  | request port | resend port | acknowledged port | refuse port code msg | deliver p =>
      -- the client is not concerned
      simp only [session_step] at hstep
      repeat' split at hstep
      all_goals cases hstep
      all_goals exact hs
  | round server_port send_ok =>
      simp only [session_step] at hstep
      split_ifs at hstep with hdone
      cases hstep
      exact hs.round hdone _ _
  | round_error code =>
      simp only [session_step] at hstep
      split_ifs at hstep with hdone
      cases hstep
      exact hs.round hdone _ _

/-- `tftpc_get` that returns zero has been through the loop. -/
theorem tftpc_get_eq (hs : Linked (tftp_init filename start.tftp buf len) s) {total : ℤ}
    (h : (tftpc_get filename buf len start s.events).2 = some (0, total)) :
    s.done = some (0, total) ∧ (tftpc_get filename buf len start s.events).1 = s.client.buf := by
  unfold Linked TftpStart.tftp at hs
  unfold tftpc_get at h ⊢
  cases hsocket : start.socket_ok with
  | false =>
      simp [hsocket, TFTP_NET_ERR] at h
  | true =>
      cases hmalloc : start.malloc with
      | none => simp [hsocket, hmalloc, TFTP_NO_BUF] at h
      | some tftp =>
          cases hsend : start.send_ok with
          | false => simp [hsocket, hmalloc, hsend, TFTP_NET_ERR] at h
          | true =>
              rw [hmalloc, Option.getD_some] at hs
              simp only [hsocket, hmalloc, hsend, Bool.not_true, Bool.false_eq_true, if_false,
                hs] at h ⊢
              exact ⟨h, trivial⟩

end Events

/-! ## Rounds of the client -/

section Rounds

variable {file : List UInt8} {codes : UInt16 → Bool} {buf : ℕ → UInt8} {len : ℕ} {s : TftpGet}
  {k port : ℕ} {send_ok : Bool} {total : ℤ}

/-- The block counter never goes back. -/
theorem tftp_round_number (s : TftpGet) (rc : RecvResult) (send_ok : Bool) :
    s.last_good_block ≤ (tftp_round s rc send_ok).state.last_good_block := by
  cases rc with
  | error code => exact le_rfl
  | got datap port =>
      simp only [tftp_round, timeout_round, data_round, acknowledge, send_ack]
      split_ifs
      all_goals simp only [(consume_frame _ _ _).1, le_refl, Nat.le_add_right]

/-- An acknowledgement goes to where the last packet came from. -/
theorem tftp_round_port {datap : List UInt8} {a : Sent}
    (ha : a ∈ (tftp_round s (.got datap port) send_ok).sent) : a.port = port := by
  simp only [tftp_round, timeout_round, data_round, acknowledge, send_ack] at ha
  split_ifs at ha
  all_goals cases ha
  all_goals first
    | rfl
    | exact (consume_frame _ _ _).2.2

theorem error_round (s : TftpGet) (code : UInt16) (msg : List UInt8) (port : ℕ) (send_ok : Bool) :
    (tftp_round s (.got ((error_packet code msg).take TFTP_PKT_SIZE) port) send_ok).ret
      = some ((code.toNat : ℤ), 0) := by
  have hpkt : (error_packet code msg).take TFTP_PKT_SIZE
      = htons TFTP_ERROR ++ htons code.toNat ++ (msg ++ [0]).take TFTP_BUF_SIZE := rfl
  have hop : ∀ mem,
      be16 (fill mem ((error_packet code msg).take TFTP_PKT_SIZE)) 0 = TFTP_ERROR := by
    intro mem
    have h := be16_fill_htons mem [] (htons code.toNat ++ (msg ++ [0]).take TFTP_BUF_SIZE)
      TFTP_ERROR
    rw [List.nil_append, ← List.append_assoc, ← hpkt] at h
    exact h
  have hcode : ∀ mem,
      be16 (fill mem ((error_packet code msg).take TFTP_PKT_SIZE)) 2 = code.toNat := by
    intro mem
    rw [hpkt]
    exact (be16_fill_htons mem (htons TFTP_ERROR) _ code.toNat).trans
      (Nat.mod_eq_of_lt code.toNat_lt)
  have hne : ((error_packet code msg).take TFTP_PKT_SIZE).length ≠ 0 := by
    rw [hpkt]
    simp [htons]
  rw [tftp_round]
  simp only
  rw [if_neg hne, if_neg (by rw [hop]; decide), if_pos (hop _), hcode]

/-- Success, and what it stands for. -/
def Complete (file : List UInt8) (total : ℤ) (buf : ℕ → UInt8) : Prop :=
  total = file.length ∧ firstBytes buf file.length = file

/-- What file, error codes of the server and length of the buffer must not be. -/
structure TransferOk (file : List UInt8) (codes : UInt16 → Bool) (len : ℕ) : Prop where
  /-- Error zero is returned as such. -/
  no_error_zero : codes 0 = true → file = []
  /-- The one byte is counted, and not stored. -/
  no_single_byte : len = 0 → file.length ≠ 1
  /-- The loop ends when the buffer is full. -/
  not_cut : 0 < len → len < file.length → 512 ∣ len → 65535 < len / 512

theorem acknowledge_success {n : ℤ} (h : (acknowledge s n send_ok).ret = some (0, total)) :
    total = s.total ∧ (s.len = 0 ∨ n < TFTP_BUF_SIZE) := by
  rw [acknowledge] at h
  simp only at h
  split_ifs at h with hsend hlast
  · cases h
  · cases h
    refine ⟨rfl, ?_⟩
    obtain hlen | hn := hlast
    · exact .inl hlen
    · exact .inr hn.2

/-- The last block, or the end of the buffer. -/
theorem Taken.complete {t : TftpGet} (ht : Taken file buf len s t) (h : Head file buf len s)
    (hok : TransferOk file codes len) (hb : s.last_good_block + 1 < 65536)
    (hlast : t.len = 0 ∨ ((block file t.last_good_block).length : ℤ) < TFTP_BUF_SIZE) :
    Complete file t.total t.buf := by
  have hnum := ht.number
  have hsize := length_block file s.last_good_block
  rw [← hnum] at hsize
  have hfull := h.full
  have htotal : t.total = 512 * s.last_good_block + (block file t.last_good_block).length := by
    rw [ht.total, h.total]
  have hfp : t.fp = 512 * s.last_good_block + (block file t.last_good_block).length := by
    rw [ht.fp, h.fp]
  have hlength : 512 * s.last_good_block + (block file t.last_good_block).length = file.length := by
    by_cases hshort : (block file t.last_good_block).length < 512
    · omega
    · obtain hlen | hlt := hlast
      · -- a full block, and the buffer is full
        have hleft := ht.left
        rw [h.left] at hleft
        have hcut := hok.not_cut
        omega
      · rw [TFTP_BUF_SIZE] at hlt
        omega
  refine ⟨?_, ?_⟩
  · rw [htotal]
    exact_mod_cast hlength
  · have hrec := ht.received
    rw [hfp, hlength, List.take_of_length_le (by omega)] at hrec
    exact hrec

/-- There is room for the next block, or it is too large for what is left. -/
theorem TransferOk.room (hok : TransferOk file codes len) (h : Head file buf len s) :
    0 ≤ s.len ∧
      (s.len = 0 → s.last_good_block = 0 ∧ (block file (s.last_good_block + 1)).length ≠ 1) := by
  have hleft := h.left
  have hroom := h.room
  have hsize := length_block file s.last_good_block
  have hone := hok.no_single_byte
  refine ⟨?_, ?_⟩
  · omega
  · intro hzero
    omega

/-- **A round on a block** that returns success. -/
theorem round_complete (h : Head file buf len s) (hok : TransferOk file codes len)
    (hk : k % 65536 = s.last_good_block + 1 → k = s.last_good_block + 1)
    (hfirst : s.last_good_block = 0 → k = 1)
    (hret : (tftp_round s (.got (data_packet file k) port) send_ok).ret = some (0, total)) :
    Complete file total (tftp_round s (.got (data_packet file k) port) send_ok).state.buf := by
  obtain ⟨hroom, hzero⟩ := hok.room h
  by_cases hnext : k % 65536 = s.last_good_block + 1
  · have hb : s.last_good_block + 1 < 65536 := hnext ▸ Nat.mod_lt k (by decide)
    rw [hk hnext] at hret ⊢
    rcases le_or_gt ((block file (s.last_good_block + 1)).length : ℤ) s.len with hfit | hlarge
    · obtain ⟨t, ht, hr⟩ := round_fits port send_ok h hb hfit
      rw [hr] at hret ⊢
      obtain ⟨htotal, hlast⟩ := acknowledge_success hret
      rw [htotal]
      exact ht.complete h hok hb hlast
    · obtain ⟨t, _, hr⟩ := round_too_large port send_ok h hb hroom hlarge fun h₀ => (hzero h₀).2
      rw [hr] at hret
      cases hret
  · -- no block has come yet, and then it is the first one
    rw [round_other hnext] at hret
    obtain ⟨-, hlen | hlt⟩ := acknowledge_success hret
    · have h₀ := (hzero hlen).1
      rw [hfirst h₀, h₀] at hnext
      exact absurd rfl hnext
    · exact absurd hlt (lt_irrefl _)

theorem timeout_outcome (s : TftpGet) (send_ok : Bool) :
    ((timeout_round s send_ok).sent ≠ none → 1 ≤ (timeout_round s send_ok).state.last_good_block) ∧
      ∀ total, (timeout_round s send_ok).ret ≠ some (0, total) := by
  rw [timeout_round]
  by_cases hlast : TFTP_TIMEOUT_NUM < s.total_timeouts + 1 ∨ s.last_good_block = 0
  · simp only [if_pos hlast]
    refine ⟨fun h => absurd rfl h, fun total h => ?_⟩
    cases h
  · simp only [if_neg hlast]
    refine ⟨fun _ => ?_, fun total h => ?_⟩
    · exact Nat.one_le_iff_ne_zero.mpr fun h₀ => hlast (.inr h₀)
    · split_ifs at h
      cases h

/-- What is acknowledged is a block, not the request. -/
theorem round_sent_pos (h : Head file buf len s) (hok : TransferOk file codes len)
    (hfirst : s.last_good_block = 0 → k = 1)
    (hsent : (tftp_round s (.got (data_packet file k) port) send_ok).sent ≠ none) :
    1 ≤ (tftp_round s (.got (data_packet file k) port) send_ok).state.last_good_block := by
  by_cases h₀ : s.last_good_block = 0
  · have hb : s.last_good_block + 1 < 65536 := by omega
    obtain ⟨hroom, hzero⟩ := hok.room h
    have hk : k = s.last_good_block + 1 := by rw [hfirst h₀, h₀]
    rw [hk] at hsent ⊢
    rcases le_or_gt ((block file (s.last_good_block + 1)).length : ℤ) s.len with hfit | hlarge
    · obtain ⟨t, ht, hr⟩ := round_fits port send_ok h hb hfit
      rw [hr]
      exact ht.number ▸ Nat.le_add_left ..
    · obtain ⟨t, _, hr⟩ := round_too_large port send_ok h hb hroom hlarge fun h₀ => (hzero h₀).2
      rw [hr] at hsent
      exact absurd rfl hsent
  · have hmono := tftp_round_number s (.got (data_packet file k) port) send_ok
    omega

end Rounds

/-! ## The invariant -/

/-- A packet that the server may have sent when the client has `n` blocks. -/
def FromServer (file : List UInt8) (codes : UInt16 → Bool) (n : ℕ) (p : List UInt8) : Prop :=
  (∃ k, 1 ≤ k ∧ k ≤ n + 1 ∧ p = data_packet file k) ∨
    ∃ code msg, codes code = true ∧ p = error_packet code msg

/-- While the client is in its loop, no transfer is more than one block ahead of
it, and what it has acknowledged is behind it. -/
structure Live (file : List UInt8) (codes : UInt16 → Bool) (buf : ℕ → UInt8) (len : ℕ)
    (s : Session) : Prop where
  head : Head file buf len s.client
  number : s.client.last_good_block < 65536
  sent : ∀ p ∈ s.sent, FromServer file codes s.client.last_good_block p
  pending : ∀ p ∈ s.pending, FromServer file codes s.client.last_good_block p
  transfers : ∀ port k, s.transfer port = .sending k → 1 ≤ k ∧ k ≤ s.client.last_good_block + 1
  acks : ∀ a ∈ s.acks, ∃ n, 1 ≤ n ∧ n ≤ s.client.last_good_block ∧ a.data = ack_packet n

section Invariant

variable {file : List UInt8} {codes : UInt16 → Bool} {filename : List UInt8} {start : TftpStart}
  {buf : ℕ → UInt8} {len : ℕ} {s : Session} {n m k port : ℕ} {p : List UInt8}

theorem session_init_live : Live file codes buf len (session_init filename start buf len) where
  head := tftp_init_head ..
  number := Nat.zero_lt_succ _
  sent _ h := nomatch h
  pending _ h := nomatch h
  transfers _ _ h := nomatch h
  acks _ h := nomatch h

theorem FromServer.mono (h : FromServer file codes n p) (hnm : n ≤ m) :
    FromServer file codes m p := by
  obtain ⟨k, h₁, h₂, h₃⟩ | h := h
  · exact .inl ⟨k, h₁, by omega, h₃⟩
  · exact .inr h

theorem Live.send {t : Transfer} (h : Live file codes buf len s)
    (ht : ∀ k, t = .sending k → 1 ≤ k ∧ k ≤ s.client.last_good_block + 1)
    (hp : FromServer file codes s.client.last_good_block p) :
    Live file codes buf len (s.send port t p) := by
  refine ⟨h.head, h.number, ?_, h.pending, ?_, h.acks⟩
  · intro q hq
    obtain rfl | hq := List.mem_cons.mp hq
    · exact hp
    · exact h.sent q hq
  · intro port' k hk
    simp only [Session.send, Function.update_apply] at hk
    split_ifs at hk
    · exact ht k hk
    · exact h.transfers port' k hk

theorem ack_packet_inj (h : ack_packet n = ack_packet m) : n % 65536 = m % 65536 := by
  have hn := be16_fill_htons (fun _ => 0) (htons TFTP_ACK) [] n
  have hm := be16_fill_htons (fun _ => 0) (htons TFTP_ACK) [] m
  rw [List.append_nil] at hn hm
  rw [← hn, ← hm]
  exact congrArg (fun q => be16 (fill (fun _ => 0) q) 2) h

/-- A block that was acknowledged has been received. The number in the packet is
that of the block, as block 65536 is never received. -/
theorem Live.acknowledged (h : Live file codes buf len s) (hk : s.transfer port = .sending k)
    (hack : (⟨ack_packet k, port⟩ : Sent) ∈ s.acks) : k ≤ s.client.last_good_block := by
  obtain ⟨n, h₁, h₂, hdata⟩ := h.acks _ hack
  have hinj := ack_packet_inj hdata
  have hnum := h.number
  have hle := h.transfers port k hk
  omega

/-- A round after which the loop goes on. -/
theorem Live.round {rc : RecvResult} {send_ok : Bool} {pending : List (List UInt8)}
    (h : Live file codes buf len s) (hround : RoundOk file buf len (tftp_round s.client rc send_ok))
    (hret : (tftp_round s.client rc send_ok).ret = none)
    (hpos : (tftp_round s.client rc send_ok).sent ≠ none →
      1 ≤ (tftp_round s.client rc send_ok).state.last_good_block)
    (hpend : ∀ p ∈ pending, p ∈ s.pending) :
    Live file codes buf len { s.round rc send_ok with pending := pending } := by
  have hmono := tftp_round_number s.client rc send_ok
  obtain ⟨hhead, hnum⟩ := hround.head hret
  refine ⟨hhead, hnum, ?_, ?_, ?_, ?_⟩
  · exact fun p hp => (h.sent p hp).mono hmono
  · exact fun p hp => (h.pending p (hpend p hp)).mono hmono
  · intro port k hk
    have hle := h.transfers port k hk
    simp only [Session.round]
    omega
  · intro a ha
    obtain ha | ha := List.mem_append.mp ha
    · obtain ⟨n, h₁, h₂, h₃⟩ := h.acks a ha
      exact ⟨n, h₁, h₂.trans hmono, h₃⟩
    · have hsome := Option.mem_toList.mp ha
      refine ⟨_, hpos ?_, le_rfl, (hround.acks a hsome).1⟩
      rw [hsome]
      exact Option.some_ne_none a

/-! ## Steps -/

theorem mem_chop_zero {ps : List (List UInt8)} (h : p ∈ chop 0 ps) : p ∈ ps := by
  induction ps with
  | nil => exact h
  | cons q ps ih =>
      rw [chop] at h
      split_ifs at h with hq
      · exact h
      · rw [Nat.zero_sub] at h
        exact List.mem_cons_of_mem q (ih h)

theorem length_data_packet_le (file : List UInt8) (hk : 1 ≤ k) :
    (data_packet file k).length ≤ TFTP_PKT_SIZE := by
  obtain ⟨b, rfl⟩ := Nat.exists_eq_add_of_le' hk
  rw [length_data_packet, length_block, TFTP_PKT_SIZE, TFTP_HDR_SIZE, TFTP_BUF_SIZE]
  omega

/-- The packet taken is the first one. -/
theorem next_packet_eq {ps : List (List UInt8)} (hpend : s.pending = p :: ps)
    (hwhole : ps = [] ∨ p.length = TFTP_PKT_SIZE) : s.next_packet = p.take TFTP_PKT_SIZE := by
  rw [Session.next_packet, hpend, List.flatten_cons]
  obtain rfl | hlen := hwhole
  · rw [List.flatten_nil, List.append_nil]
  · exact List.take_append_of_le_length hlen.ge

theorem chop_pending {ps : List (List UInt8)} (hwhole : ps = [] ∨ p.length = TFTP_PKT_SIZE)
    (hlen : p.length ≤ TFTP_PKT_SIZE) {q : List UInt8} (hq : q ∈ chop TFTP_PKT_SIZE (p :: ps)) :
    q ∈ p :: ps := by
  rw [chop, if_neg hlen.not_gt] at hq
  obtain rfl | heq := hwhole
  · rw [chop] at hq
    exact absurd hq List.not_mem_nil
  · rw [heq, Nat.sub_self] at hq
    exact List.mem_cons_of_mem p (mem_chop_zero hq)

/-- In its loop the client is in order, and if it has returned success it was right. -/
structure SessionOk (file : List UInt8) (codes : UInt16 → Bool) (buf : ℕ → UInt8) (len : ℕ)
    (s : Session) : Prop where
  live : s.done = none → Live file codes buf len s
  complete : ∀ total, s.done = some (0, total) → Complete file total s.client.buf

/-- **A round of the client**, which takes one packet or none. -/
theorem Live.round_step {send_ok : Bool} (h : Live file codes buf len s)
    (hok : TransferOk file codes len)
    (hwhole : ∀ p ps, s.pending = p :: ps → ps = [] ∨ p.length = TFTP_PKT_SIZE) :
    SessionOk file codes buf len { s.round (.got s.next_packet port) send_ok with
      pending := chop TFTP_PKT_SIZE s.pending } := by
  cases hpend : s.pending with
  | nil =>
      -- a timeout
      have hnext : s.next_packet = [] := by simp [Session.next_packet, hpend]
      have hround : tftp_round s.client (.got [] port) send_ok
          = timeout_round (with_packet s.client [] port) send_ok := rfl
      rw [hnext]
      refine ⟨fun hret => ?_, fun total hret => ?_⟩
      · apply h.round
        · exact timeout_ok (h.head.with_packet [] port) h.number
        · exact hret
        · exact (timeout_outcome _ _).1
        · intro p hp
          exact absurd hp List.not_mem_nil
      · exact absurd hret ((timeout_outcome _ _).2 total)
  | cons p ps =>
      have hone := hwhole p ps hpend
      have hmem : p ∈ s.pending := hpend ▸ List.mem_cons_self ..
      rw [next_packet_eq hpend hone]
      obtain ⟨k, h₁, h₂, rfl⟩ | ⟨code, msg, hcode, rfl⟩ := h.pending p hmem
      · have hlen := length_data_packet_le file h₁
        obtain ⟨hroom, hzero⟩ := hok.room h.head
        have hfirst : s.client.last_good_block = 0 → k = 1 := by omega
        have hk : k % 65536 = s.client.last_good_block + 1 → k = s.client.last_good_block + 1 := by
          omega
        rw [List.take_of_length_le hlen]
        refine ⟨fun hret => ?_, fun total hret => ?_⟩
        · apply h.round
          · exact round_ok h.head h.number hroom (fun h₀ => (hzero h₀).2) hk
          · exact hret
          · exact round_sent_pos h.head hok hfirst
          · intro q hq
            rw [hpend]
            exact chop_pending hone hlen hq
        · exact round_complete h.head hok hk hfirst hret
      · have hret := error_round s.client code msg port send_ok
        refine ⟨fun hnone => ?_, fun total hsome => ?_⟩
        · exact absurd (hret.symm.trans hnone) (Option.some_ne_none _)
        · -- only error zero looks like success
          obtain ⟨hzero, htotal⟩ := Prod.mk.inj (Option.some.inj (hret.symm.trans hsome))
          have hcode₀ : code = 0 := UInt16.toNat_inj.mp (by exact_mod_cast hzero)
          rw [hok.no_error_zero (hcode₀ ▸ hcode), ← htotal]
          exact ⟨rfl, rfl⟩

/-- **One step.** -/
theorem SessionOk.step {op : SessionOp} {s' : Session} (h : SessionOk file codes buf len s)
    (hok : TransferOk file codes len) (hwhole : WholePacket s op)
    (hstep : session_step file codes s op = some s') : SessionOk file codes buf len s' := by
  cases op with
  | request port =>
      simp only [session_step] at hstep
      split at hstep <;> cases hstep
      refine ⟨fun hdone => (h.live hdone).send ?_ ?_, h.complete⟩
      · intro k hk
        cases hk
        exact ⟨le_rfl, Nat.le_add_left ..⟩
      · exact .inl ⟨1, le_rfl, Nat.le_add_left .., rfl⟩
  | resend port =>
      simp only [session_step] at hstep
      split at hstep <;> cases hstep
      rename_i k hk
      refine ⟨fun hdone => (h.live hdone).send ?_ ?_, h.complete⟩
      · intro k' hk'
        cases hk'
        exact (h.live hdone).transfers port k hk
      · have hle := (h.live hdone).transfers port k hk
        exact .inl ⟨k, hle.1, hle.2, rfl⟩
  | acknowledged port =>
      simp only [session_step] at hstep
      split at hstep <;> try cases hstep
      rename_i k hk
      split_ifs at hstep with hack hlast
      · cases hstep
        -- the client has the block before the one sent now
        refine ⟨fun hdone => ?_, h.complete⟩
        have hle := (h.live hdone).acknowledged hk hack
        refine (h.live hdone).send ?_ (.inl ⟨k + 1, Nat.le_add_left .., Nat.succ_le_succ hle, rfl⟩)
        intro k' hk'
        cases hk'
        exact ⟨Nat.le_add_left .., Nat.succ_le_succ hle⟩
      · cases hstep
        refine ⟨fun hdone => ?_, h.complete⟩
        obtain ⟨h₁, h₂, h₃, h₄, h₅, h₆⟩ := h.live hdone
        refine ⟨h₁, h₂, h₃, h₄, fun port' k' hk' => ?_, h₆⟩
        simp only [Function.update_apply] at hk'
        split_ifs at hk'
        exact h₅ port' k' hk'
  | refuse port code msg =>
      simp only [session_step] at hstep
      split at hstep
      · cases hstep
      · split_ifs at hstep with hcode
        cases hstep
        refine ⟨fun hdone => (h.live hdone).send ?_ (.inr ⟨code, msg, hcode, rfl⟩), h.complete⟩
        intro k hk
        cases hk
  | deliver p =>
      simp only [session_step] at hstep
      split_ifs at hstep with hp
      cases hstep
      refine ⟨fun hdone => ?_, h.complete⟩
      obtain ⟨h₁, h₂, h₃, h₄, h₅, h₆⟩ := h.live hdone
      refine ⟨h₁, h₂, h₃, fun q hq => ?_, h₅, h₆⟩
      obtain hq | hq := List.mem_append.mp hq
      · exact h₄ q hq
      · rw [List.mem_singleton.mp hq]
        exact h₃ p hp
  | round server_port send_ok =>
      simp only [session_step] at hstep
      split_ifs at hstep with hdone
      cases hstep
      exact (h.live hdone).round_step hok hwhole
  | round_error code =>
      simp only [session_step] at hstep
      split_ifs at hstep with hdone
      cases hstep
      refine ⟨fun hnone => ?_, fun total hsome => ?_⟩
      · cases hnone
      · cases hsome

/-- **Every run.** -/
theorem session_ok_of_reaches (hok : TransferOk file codes len)
    (h : Reaches (session_step file codes) WholePacket (session_init filename start buf len) s) :
    SessionOk file codes buf len s := by
  refine h.invariant (P := SessionOk file codes buf len) ?_ ?_
  · exact ⟨fun _ => session_init_live, fun _ h => nomatch h⟩
  · intro s op s' hs hwhole hstep
    exact hs.step hok hwhole hstep

end Invariant

end CsBoot.Net
