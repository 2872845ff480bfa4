/-
The sequence numbers of a connection in the state `ESTABLISHED`,
`src/src/net/tcp.c`.

The program counts what it has sent and what of it was acknowledged in
`data_bytes` and `local_seq`: `handle_ack` moves `local_seq` on by what is
acknowledged, but by no more than `data_bytes`, and `tcp_output` sends from
`local_seq`. Nothing ever adds to `data_bytes`, so `local_seq` stays where the
handshake left it, which is the invariant here (`Stays`).

`sent` is not in the program: the payload bytes sent so far.
-/
import CsBoot.Lib.Run
import CsBoot.Net.TcpOutput

set_option autoImplicit false

namespace CsBoot.Net

open ByteMem RangeStore

/-! ## The connection -/

/-- The socket after the handshake: `tcp_listen` answers the SYN, by `tcp_output`
with SYN, and `tcp_syn_recvd` takes the acknowledgement. -/
def tcp_opened (syn ack : Frame) (sock : TCP_SOCK_T) : TCP_SOCK_T :=
  let sock :=
    { sock with
      local_seq := TCP_START_SEQ
      remote_seq := (syn.tcp_seq + 1) % W
      flag := TCP_FLAG_ACK + TCP_FLAG_SYN
      old_seq := 0
      new_seq := 0 }
  let sock := { sock with data_bytes := 0 }
  let sock := { sock with state := .SYN_RECVD }
  { sock with
    flag := TCP_FLAG_ACK
    local_seq := (sock.local_seq + 1) % W
    remote_seq := ((ack.tcp_seq + ack.tcp_tot_len - 4 * ack.tcp_hdr_len : ℤ) % W).toNat
    state := .ESTABLISHED }

/-- A call of `tcp_sendto`: what `arp_lookup` and `net_alloc_buf` give, and the rest
of what `tcp_output` is called with. -/
structure SendTo where
  net : NetHost
  datap : List UInt8
  host : ℕ
  sport : ℕ
  dport : ℕ
  arp : Option ARP_ENTRY_T
  buf : Option (ℕ → UInt8)

/-- The frame that is sent, if one is. -/
def SendTo.frame (c : SendTo) (sock : TCP_SOCK_T) : Option Frame :=
  c.arp.bind fun arp => c.buf.bind fun m =>
    tcp_output_frame c.net sock c.datap c.host c.sport c.dport arp m

/-- What meets the connection. The web server, which a segment with data goes to,
sets two fields of its own and the flag. -/
inductive TcpEvent
  | sendto (c : SendTo)
  | segment (f : Frame)
  | http (post_data old_seq : ℕ)

/-- The socket, the payload bytes sent, and the frame of the last call. -/
structure TcpConn where
  sock : TCP_SOCK_T
  sent : ℕ
  last : Option Frame

/-- What `tcp_input` fills in before the `switch` and first in this state. -/
def tcp_found (f : Frame) (sock : TCP_SOCK_T) : TCP_SOCK_T :=
  { sock with from_ip := f.saddr, remote_port := f.tcp_sport, new_seq := f.tcp_seq }

/-- What it does with a segment that acknowledges. -/
def tcp_taken (f : Frame) (sock : TCP_SOCK_T) : TCP_SOCK_T := handle_ack f (handle_data f sock)

/-- A segment for the connection, as `tcp_input` takes it in the state
`ESTABLISHED`; `none` when the connection is in another state afterwards. -/
def established_input (f : Frame) (sock : TCP_SOCK_T) : Option TCP_SOCK_T :=
  if f.has TCP_FLAG_RST then none
  else if f.has TCP_FLAG_ACK then
    if f.has TCP_FLAG_FIN then none
    else if 4 * f.tcp_hdr_len < f.tcp_tot_len ∧ f.tcp_dport = TCP_PORT_HTTP then
      some { tcp_taken f (tcp_found f sock) with flag := TCP_FLAG_ACK }
    else some (tcp_taken f (tcp_found f sock))
  else some (tcp_found f sock)

/-- One event. -/
def tcp_event (s : TcpConn) : TcpEvent → Option TcpConn
  | .sendto c =>
    match c.frame s.sock with
    | some f =>
      let sock := if sends_syn s.sock then { s.sock with data_bytes := 0 } else s.sock
      some ⟨sock, s.sent + c.datap.length, some f⟩
    | none => some { s with last := none }
  | .segment f => (established_input f s.sock).map fun sock => { s with sock := sock, last := none }
  | .http post_data old_seq =>
    let sock := { s.sock with post_data := post_data, old_seq := old_seq, flag := TCP_FLAG_ACK }
    some { s with sock := sock, last := none }

/-! ## What is asked of it -/

/-- The sequence number of the first payload byte. -/
def FIRST_SEQ : ℕ := TCP_START_SEQ + 1

theorem first_seq_mod : FIRST_SEQ % W = FIRST_SEQ := by
  norm_num [FIRST_SEQ, TCP_START_SEQ, W]

/-- The sequence number behind the bytes sent. -/
def TcpConn.next_seq (s : TcpConn) : ℕ := (FIRST_SEQ + s.sent) % W

/-- The event was accounted for: a segment carries the number of its first byte,
and after an acknowledgement of bytes that were sent, `local_seq` is at it or behind
it, and not beyond what was sent. -/
def Accounted (s : TcpConn) (a : TcpEvent) (s' : TcpConn) : Prop :=
  match a with
  | .sendto _ => ∀ f, s'.last = some f → f.tcp_seq = s.next_seq
  | .segment f => f.has TCP_FLAG_ACK → seq_le f.tcp_ack s.next_seq →
    seq_le f.tcp_ack s'.sock.local_seq ∧ seq_le s'.sock.local_seq s.next_seq
  | .http _ _ => True

/-- Nothing has been sent when a segment goes out, up to a multiple of `2^32` bytes,
and no payload byte is acknowledged, nor a number taken in when half of all the
numbers have been sent. -/
def FirstOnly (s : TcpConn) : TcpEvent → Prop
  | .sendto c => (c.frame s.sock).isSome → W ∣ s.sent
  | .segment f => f.has TCP_FLAG_ACK → seq_le f.tcp_ack s.next_seq →
    seq_le f.tcp_ack FIRST_SEQ ∧ s.sent % W ≤ W / 2
  | .http _ _ => True

/-! ## The invariant -/

variable {s s' : TcpConn} {a : TcpEvent} {f : Frame} {sock : TCP_SOCK_T}

/-- `local_seq` is at the first payload byte, and no byte is waiting. -/
def Stays (sock : TCP_SOCK_T) : Prop := sock.data_bytes = 0 ∧ sock.local_seq = FIRST_SEQ

theorem handle_data_send (f : Frame) (sock : TCP_SOCK_T) :
    (handle_data f sock).data_bytes = sock.data_bytes ∧
      (handle_data f sock).local_seq = sock.local_seq := by
  unfold handle_data
  dsimp only
  split
  · split
    · exact ⟨rfl, rfl⟩
    · exact ⟨rfl, rfl⟩
  · exact ⟨rfl, rfl⟩

/-- With nothing in `data_bytes` an acknowledgement moves nothing. -/
theorem Stays.handle_ack (h : Stays sock) : Stays (handle_ack f sock) := by
  unfold CsBoot.Net.handle_ack
  dsimp only
  split
  · refine ⟨?_, ?_⟩
    · simp [h.1]
    · simp [h.1, h.2, first_seq_mod]
  · exact h

theorem Stays.found (h : Stays sock) : Stays (tcp_found f sock) := ⟨h.1, h.2⟩

theorem Stays.with_flag (h : Stays sock) (n : ℕ) : Stays { sock with flag := n } := ⟨h.1, h.2⟩

theorem Stays.taken (h : Stays sock) : Stays (tcp_taken f sock) := by
  obtain ⟨hdata, hseq⟩ := handle_data_send f sock
  exact Stays.handle_ack ⟨hdata.trans h.1, hseq.trans h.2⟩

theorem Stays.established_input (h : Stays sock) {sock' : TCP_SOCK_T}
    (hs : established_input f sock = some sock') : Stays sock' := by
  have htaken : Stays (tcp_taken f (tcp_found f sock)) := h.found.taken
  unfold CsBoot.Net.established_input at hs
  split at hs
  · cases hs
  split at hs
  · split at hs
    · cases hs
    split at hs
    · obtain rfl := Option.some.inj hs
      exact htaken.with_flag _
    · obtain rfl := Option.some.inj hs
      exact htaken
  · obtain rfl := Option.some.inj hs
    exact h.found

/-- The socket keeps it in every step. -/
theorem Stays.step (h : Stays s.sock) (hs : tcp_event s a = some s') : Stays s'.sock := by
  cases a with
  | sendto c =>
      simp only [tcp_event] at hs
      split at hs
      · cases hs
        dsimp only
        split
        · exact ⟨rfl, h.2⟩
        · exact h
      · cases hs
        exact h
  | segment f =>
      obtain ⟨sock, hsock, rfl⟩ := Option.map_eq_some_iff.mp hs
      exact h.established_input hsock
  | http post_data old_seq =>
      cases hs
      exact ⟨h.1, h.2⟩

theorem stays_opened (syn ack : Frame) (sock : TCP_SOCK_T) : Stays (tcp_opened syn ack sock) :=
  ⟨rfl, first_seq_mod⟩

/-! ## The numbers -/

/-- The sequence number in a frame that was sent. -/
theorem tcp_output_frame_seq {net : NetHost} {datap : List UInt8} {host sport dport : ℕ}
    {arp : ARP_ENTRY_T} {m : ℕ → UInt8}
    (hf : tcp_output_frame net sock datap host sport dport arp m = some f) :
    f.tcp_seq = sock.local_seq % W := by
  obtain ⟨-, hoff, -⟩ := tcp_output_frame_lengths hf
  obtain ⟨hdata, -⟩ := tcp_output_frame_spec hf
  have hfield : ∀ i, i < 4 → f.data (TCP_AT + 4 + i) = (htonl sock.local_seq).getD i 0 := by
    intro i hi
    rw [hdata _ (by omega)]
    unfold tcp_output_packet tcp_output_fill ETH_HDR_SIZE
    cases sends_syn sock
    · -- every field written afterwards is elsewhere
      simp only [Bool.false_eq_true, if_false]
      repeat rw [put_outside (by
        simp only [length_htons, length_htonl, length_host16, List.length_cons, List.length_nil,
          TCP_AT, ETH_HDR_SIZE, IP_HDR_SIZE]
        omega)]
      exact put_add (by simpa using hi)
    · simp only [if_true]
      repeat rw [put_outside (by
        simp only [length_htons, length_htonl, List.length_cons, List.length_nil, tcp_magic,
          TCP_AT, ETH_HDR_SIZE, IP_HDR_SIZE]
        omega)]
      exact put_add (by simpa using hi)
  rw [Frame.tcp_seq, hoff, be32, be16, be16, ← Nat.add_zero (TCP_AT + 4), hfield 0 (by omega)]
  rw [Nat.add_zero, hfield 1 (by omega), hfield 2 (by omega),
    show TCP_AT + 4 + 2 + 1 = TCP_AT + 4 + 3 from rfl, hfield 3 (by omega)]
  simp only [htonl, htons, List.cons_append, List.nil_append, List.getD_cons_zero,
    List.getD_cons_succ, UInt8.toNat_ofNat']
  unfold W
  omega

/-- The first number is not beyond the bytes sent, as long as they are at most half
of all numbers. -/
theorem seq_le_next (sent : ℕ) :
    seq_le FIRST_SEQ ((FIRST_SEQ + sent) % W) = true ↔ sent % W ≤ W / 2 := by
  unfold seq_le seq_gt FIRST_SEQ TCP_START_SEQ W
  simp only [Bool.not_eq_true', decide_eq_false_iff_not]
  omega

/-! ## Every run -/

/-- A connection that has just been opened. -/
def tcp_conn_opened (syn ack : Frame) (sock : TCP_SOCK_T) : TcpConn :=
  ⟨tcp_opened syn ack sock, 0, none⟩

/-- What is reached from an opened connection. -/
def TcpReaches (syn ack : Frame) (sock : TCP_SOCK_T) (s : TcpConn) : Prop :=
  Reaches tcp_event (fun _ _ => True) (tcp_conn_opened syn ack sock) s

theorem TcpReaches.stays {syn ack : Frame} (h : TcpReaches syn ack sock s) : Stays s.sock :=
  Reaches.invariant (P := fun s => Stays s.sock) (stays_opened syn ack sock)
    (fun _ _ _ hs _ hstep => hs.step hstep) h

/-- What one step accounts for. -/
theorem Stays.accounted_iff (h : Stays s.sock) (hs : tcp_event s a = some s') :
    Accounted s a s' ↔ FirstOnly s a := by
  have hstays := h.step hs
  cases a with
  | sendto c =>
      unfold Accounted FirstOnly
      simp only [tcp_event] at hs
      split at hs
      · rename_i f hf
        obtain ⟨arp, -, hframe⟩ := Option.bind_eq_some_iff.mp hf
        obtain ⟨m, -, hframe⟩ := Option.bind_eq_some_iff.mp hframe
        have hseq := tcp_output_frame_seq hframe
        rw [h.2, first_seq_mod] at hseq
        cases hs
        simp only [Option.some.injEq, forall_eq', hf, Option.isSome_some, forall_const]
        rw [hseq]
        unfold TcpConn.next_seq FIRST_SEQ TCP_START_SEQ W
        omega
      · rename_i hf
        cases hs
        simp [hf]
  | segment f =>
      unfold Accounted FirstOnly
      rw [hstays.2]
      exact imp_congr_right fun _ => imp_congr_right fun _ =>
        and_congr_right fun _ => seq_le_next s.sent
  | http post_data old_seq => exact Iff.rfl

/-- A call of `tcp_sendto`, with one byte. -/
def one_byte : SendTo where
  net := ⟨0xc0a80002, [], 0⟩
  datap := [0x41]
  host := 0xc0a80001
  sport := 80
  dport := 2000
  arp := some ⟨0xc0a80001, [], true⟩
  buf := some fun _ => 0

/-- It sends its byte. -/
theorem one_byte_sent (s : TcpConn) :
    (one_byte.frame s.sock).isSome ∧
      ∃ s', tcp_event s (.sendto one_byte) = some s' ∧ s'.sent = s.sent + 1 := by
  obtain ⟨f, hf⟩ : ∃ f, one_byte.frame s.sock = some f :=
    tcp_output_frame_sent one_byte.net s.sock one_byte.host one_byte.sport one_byte.dport
      ⟨0xc0a80001, [], true⟩ (fun _ => 0) (show one_byte.datap.length ≤ TCP_DATA_MAX_SIZE by decide)
  refine ⟨by rw [hf]; rfl, ?_⟩
  simp only [tcp_event, hf]
  exact ⟨_, rfl, rfl⟩

/-- **Every run of an established connection.** In any state that is reached, an event is
accounted for exactly when it neither sends behind payload nor acknowledges any. -/
theorem send_sequence_iff (syn ack : Frame) (sock : TCP_SOCK_T) {s s' : TcpConn} {a : TcpEvent}
    (hrun : TcpReaches syn ack sock s) (hs : tcp_event s a = some s') :
    Accounted s a s' ↔ FirstOnly s a :=
  hrun.stays.accounted_iff hs

/-- A byte sent first. -/
theorem send_sequence_iff_first : ∃ s',
    tcp_event (tcp_conn_opened ⟨fun _ => 0, 54⟩ ⟨fun _ => 0, 54⟩ tcp_cleared) (.sendto one_byte) =
        some s' ∧
      (Accounted (tcp_conn_opened ⟨fun _ => 0, 54⟩ ⟨fun _ => 0, 54⟩ tcp_cleared)
          (.sendto one_byte) s' ↔
        FirstOnly (tcp_conn_opened ⟨fun _ => 0, 54⟩ ⟨fun _ => 0, 54⟩ tcp_cleared)
          (.sendto one_byte)) := by
  obtain ⟨-, s', hs, -⟩ := one_byte_sent
    (tcp_conn_opened ⟨fun _ => 0, 54⟩ ⟨fun _ => 0, 54⟩ tcp_cleared)
  exact ⟨s', hs, send_sequence_iff _ _ _ .start hs⟩

/-- **A number that is used twice**: the second of two bytes goes out with the number
of the first. -/
theorem second_byte_repeats :
    ¬ ∀ (syn ack : Frame) (sock : TCP_SOCK_T) (s s' : TcpConn) (a : TcpEvent),
      TcpReaches syn ack sock s → tcp_event s a = some s' → Accounted s a s' := by
  intro h
  set s₀ := tcp_conn_opened ⟨fun _ => 0, 54⟩ ⟨fun _ => 0, 54⟩ tcp_cleared
  obtain ⟨-, s₁, hs₁, hsent⟩ := one_byte_sent s₀
  obtain ⟨hgoes, s₂, hs₂, -⟩ := one_byte_sent s₁
  have hreach : TcpReaches ⟨fun _ => 0, 54⟩ ⟨fun _ => 0, 54⟩ tcp_cleared s₁ :=
    .next .start trivial hs₁
  have hacc := (hreach.stays.accounted_iff hs₂).mp (h _ _ _ _ _ _ hreach hs₂)
  have hdvd : W ∣ s₀.sent + 1 := hsent ▸ hacc hgoes
  exact absurd (Nat.le_of_dvd Nat.one_pos hdvd) (by norm_num [W])

end CsBoot.Net
