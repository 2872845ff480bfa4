/-
No network buffer gets lost or is freed twice.

An outline says for each function of the network input which buffers it has: a
function that is given a packet gives its buffer back (`Frees`), and the others
have at their end what they had at their beginning (`Keeps`), whatever frames
come and however often the functions call each other meanwhile. It holds as long
as `ip_input` and `tcp_input` do not take one of the ways on which they forget
the buffer (`NoLoss`), and then at every moment each buffer is in one place
(`buffers_conserved`).
-/
import CsBoot.Net.Enet
import CsBoot.Net.UdpSafe

set_option autoImplicit false

namespace CsBoot.Net

open Proc

/-- TCP comes, and the web server is built in but not on. -/
def WebOff (v : NetVars) (f : Frame) : Prop :=
  ip_input_accepts v.my_ip_addr f = true ∧ f.protocol = IP_PROTO_TCP ∧
    v.board_support_web = true ∧ v.web_on ≠ 1

/-- The socket that was looked up is established, or waits for being closed. -/
def Connected : (ℕ → TCP_SOCK_T) × Option ℕ → Prop
  | (socks, some k) => (socks k).state = .ESTABLISHED ∨ (socks k).state = .CLOSE_WAIT
  | (_, none) => False

/-- A segment that acknowledges nothing, and resets nothing, comes to a connection. -/
def AcksNothing (v : NetVars) (e : ℕ → Bool) (f : Frame) : Prop :=
  tcp_chksum_ok f = true ∧ f.has TCP_FLAG_ACK = false ∧ f.has TCP_FLAG_RST = false ∧
    Connected (tcp_lookup v.my_ip_addr f (tcp_expire e v.tcp_socks))

/-- The conditions on what comes: a frame has room in a buffer, or is dropped for
its length; `ip_input` and `tcp_input` do not forget the buffer. -/
def NoLoss (s : NetState) : NetLabel → NetInput → Prop
  | .deliver, .frame f => f.len ≤ NETBUF_SIZE - NETBUF_HDR_SIZE ∨ NETBUF_SIZE < f.len
  | .ip_input b, _ => ¬ WebOff s.vars (s.bufs.frame b)
  | .tcp_input b, i => ¬ AcksNothing s.vars (expired i) (s.bufs.frame b)
  | _, _ => True

instance (v : NetVars) (f : Frame) : Decidable (WebOff v f) :=
  inferInstanceAs (Decidable (_ ∧ _ ∧ _ ∧ _))

instance : DecidablePred Connected
  | (_, some _) => inferInstanceAs (Decidable (_ ∨ _))
  | (_, none) => inferInstanceAs (Decidable False)

instance (v : NetVars) (e : ℕ → Bool) (f : Frame) : Decidable (AcksNothing v e f) :=
  inferInstanceAs (Decidable (_ ∧ _ ∧ _ ∧ _))

instance decidableNoLoss (s : NetState) : ∀ l i, Decidable (NoLoss s l i)
  | .deliver, .frame _ => inferInstanceAs (Decidable (_ ∨ _))
  | .deliver, .poll | .deliver, .change _ | .deliver, .time_over | .deliver, .expired _
  | .deliver, .http _ | .deliver, .negative | .deliver, .none => inferInstanceAs (Decidable True)
  | .ip_input _, _ => inferInstanceAs (Decidable (¬ _))
  | .tcp_input _, _ => inferInstanceAs (Decidable (¬ _))
  | .top, _ | .net_free_buf _, _ | .net_put_rcvq _, _ | .net_done_buf _, _ | .other, _ =>
    inferInstanceAs (Decidable True)

/-- `must ack sommat` -/
theorem acksNothing_of_must_ack {v : NetVars} {e : ℕ → Bool} {f : Frame} {k : ℕ}
    (h : (tcp_enter v e f).1 = .must_ack k) : AcksNothing v e f := by
  unfold tcp_enter at h
  split at h
  · nomatch h
  · rename_i hsum
    split at h
    · nomatch h
    · rename_i socks i hfound
      dsimp only at h
      split at h
      · nomatch h
      · rename_i hreset
        split at h
        · rename_i hstate
          split at h
          · nomatch h
          · rename_i hack
            have hrst : f.has TCP_FLAG_RST = false := by
              by_contra hrst
              apply hreset
              rw [Bool.not_eq_false] at hrst
              refine ⟨?_, hrst⟩
              rintro hrecvd
              rw [hrecvd] at hstate
              simp at hstate
            simp only [Bool.not_eq_true, Bool.not_eq_false'] at hsum hack
            refine ⟨hsum, hack, hrst, ?_⟩
            rw [hfound]
            exact hstate
        · nomatch h

/-- What an outline knows of the buffers: those that are being processed, and one
that is in the free queue, as it has just been freed. -/
structure Held where
  bufs : List ℕ
  freed : Option ℕ

/-- Where a step frees or queues a buffer, or `ip_input` or `tcp_input` is given
one, it is being processed; where a function is done with one it is free; between
two calls of `enet_poll` none is being processed. -/
def AtLabel : NetLabel → Held → Prop
  | .top, g => g.bufs = []
  | .deliver, _ => True
  | .ip_input b, g => b ∈ g.bufs
  | .tcp_input b, g => b ∈ g.bufs
  | .net_free_buf b, g => b ∈ g.bufs
  | .net_put_rcvq b, g => b ∈ g.bufs
  | .net_done_buf b, g => g.freed = some b
  | .other, _ => True

/-- A procedure returns with the buffers that it was called with. -/
def NetLogic : Logic NetSig Held where
  inv g s := InPlace s.bufs ∧ s.bufs.processing = g.bufs ∧ ∀ b, g.freed = some b → IsFree s.bufs b
  ok := NoLoss
  atStep := AtLabel
  atCall p g := match p with
    | .main => g.bufs = []
    | _ => True
  returns _ g g' := g'.bufs = g.bufs

/-- The program has at its end the buffers that it had at its beginning. -/
def Keeps {α : Type} (p : NetProg α) (h : List ℕ) : Prop :=
  ∀ l, Outline NetLogic p ⟨h, l⟩ fun _ g => g.bufs = h

/-- The program gives back the buffer that it gets, at its end. -/
def Frees (p : NetProg Unit) (b : ℕ) : Prop :=
  ∀ h l, Outline NetLogic p ⟨b :: h, l⟩ fun _ g => g = ⟨h, some b⟩

section Steps

variable {α β : Type} {h : List ℕ} {b i retry ipaddr : ℕ} {f : Frame} {len : ℤ}

/-! ## One program after another -/

/-- A value has nothing to do with the buffers. -/
theorem Keeps.pure (a : α) : Keeps (pure a) h := fun _ => rfl

/-- One part behind the other, whatever the first returns. -/
theorem Keeps.bind {p : NetProg α} {g : α → NetProg β} (hp : Keeps p h) (hg : ∀ a, Keeps (g a) h) :
    Keeps (p >>= g) h := by
  intro l
  apply Outline.bind (hp l)
  rintro a ⟨_, l'⟩ rfl
  exact hg a l'

/-- Both branches keep the buffers. -/
theorem Keeps.ite {c : Prop} [Decidable c] {p q : NetProg α} (hp : Keeps p h) (hq : Keeps q h) :
    Keeps (if c then p else q) h := by
  split
  · exact hp
  · exact hq

/-- Both branches give the buffer back. -/
theorem Frees.ite {c : Prop} [Decidable c] {p q : NetProg Unit} (hp : Frees p b) (hq : Frees q b) :
    Frees (if c then p else q) b := by
  split
  · exact hp
  · exact hq

/-- A program that keeps what it has, and then one that gives the buffer back. -/
theorem Frees.bind {p : NetProg α} {g : α → NetProg Unit} (hp : ∀ h, Keeps p h)
    (hg : ∀ a, Frees (g a) b) : Frees (p >>= g) b := by
  intro h l
  apply Outline.bind (hp _ l)
  rintro a ⟨_, l'⟩ rfl
  exact hg a h l'

/-- A call, but for the one of the program's own loop. -/
theorem keeps_run (p : NetProc) (hp : p ≠ .main) : Keeps (Prog.run (S := NetSig) p) h := by
  intro l
  apply Outline.run
  cases p with
  | main => exact absurd rfl hp
  | _ => trivial

/-! ## Single steps -/

/-- A step on the variables leaves the buffers with whoever has them, as long as its label allows
it. -/
theorem outline_vars {l : NetLabel} {g : Held} (hl : AtLabel l g)
    (f : NetInput → NetState → α × NetVars) :
    Outline NetLogic (on_vars l f) g fun _ g' => g' = g :=
  Outline.step_keeps hl fun _ _ hs _ => hs

/-- Most of them have no condition. -/
theorem keeps_vars (f : NetInput → NetState → α × NetVars) : Keeps (on_vars .other f) h := by
  intro l
  apply (outline_vars (l := .other) trivial f).mono
  rintro _ _ rfl
  rfl

/-- Variables are looked at, -/
theorem keeps_look (f : NetState → α) : Keeps (look .other f) h := keeps_vars _

/-- something comes from outside, -/
theorem keeps_input (f : NetInput → α) : Keeps (input f) h := keeps_vars _

/-- or variables are set. -/
theorem keeps_set_vars (f : NetVars → NetVars) : Keeps (set_vars f) h := keeps_vars _

/-- What comes of taking a buffer out of a queue. -/
def TakenBuf (h : List ℕ) : Option ℕ → Held → Prop
  | some b, g => g.bufs = b :: h
  | none, g => g.bufs = h

/-- `net_alloc_buf` gives a buffer of the free queue to the caller, if there is one. -/
theorem outline_alloc {l : Option ℕ} : Outline NetLogic alloc ⟨h, l⟩ (TakenBuf h) := by
  apply Outline.step trivial
  intro i s hs _
  obtain ⟨b, hb, hproc, hin⟩ | hnone := hs.1.alloc
  · refine ⟨⟨b :: h, none⟩, ⟨hin, hproc.trans (congrArg _ hs.2.1), nofun⟩, ?_⟩
    rw [hb]
    rfl
  · refine ⟨⟨h, l⟩, ?_, ?_⟩
    · rw [hnone]
      exact hs
    · rw [hnone]
      rfl

/-- `net_get_rcvq` gives the first buffer of the receive queue. -/
theorem outline_get_rcvq {l : Option ℕ} : Outline NetLogic get_rcvq ⟨h, l⟩ (TakenBuf h) := by
  apply Outline.step trivial
  intro i s hs _
  obtain ⟨b, hb, hproc, hin⟩ | hnone := hs.1.get_rcvq
  · refine ⟨⟨b :: h, none⟩, ⟨hin, hproc.trans (congrArg _ hs.2.1), nofun⟩, ?_⟩
    rw [hb]
    rfl
  · refine ⟨⟨h, l⟩, ?_, ?_⟩
    · rw [hnone]
      exact hs
    · rw [hnone]
      rfl

/-- A buffer is taken out of the queue for what comes next, if there is one. -/
theorem Keeps.taken {p : NetProg (Option ℕ)} {g : Option ℕ → NetProg α}
    (hp : ∀ l, Outline NetLogic p ⟨h, l⟩ (TakenBuf h)) (hnone : Keeps (g none) h)
    (hsome : ∀ b l, Outline NetLogic (g (some b)) ⟨b :: h, l⟩ fun _ g' => g'.bufs = h) :
    Keeps (p >>= g) h := by
  intro l
  apply Outline.bind (hp l)
  rintro (_ | b) ⟨_, l'⟩ hr
  · cases hr
    exact hnone l'
  · cases hr
    exact hsome b l'

/-- `net_free_buf` puts it back to the free queue. -/
theorem frees_free : Frees (free b) b := by
  intro h l
  apply Outline.step (List.mem_cons_self ..)
  intro i s hs _
  have hb : b ∈ s.bufs.processing := hs.2.1 ▸ List.mem_cons_self ..
  refine ⟨⟨h, some b⟩, ⟨?_, ?_, ?_⟩, rfl⟩
  · obtain ⟨free, rcv, hplaced⟩ := hs.1.free_buf hb
    exact ⟨_, rcv, hplaced⟩
  · apply (hs.1.free_buf_processing hb).trans
    rw [hs.2.1]
    exact List.erase_cons_head ..
  · intro b' hb'
    cases hb'
    exact hs.1.is_free hb

/-- `net_put_rcvq` takes the buffer of the caller. -/
theorem outline_put_rcvq {l : Option ℕ} :
    Outline NetLogic (put_rcvq b) ⟨b :: h, l⟩ fun _ g => g.bufs = h := by
  apply Outline.step (List.mem_cons_self ..)
  intro i s hs _
  have hb : b ∈ s.bufs.processing := hs.2.1 ▸ List.mem_cons_self ..
  have hput := hs.1.put_rcvq hb
  refine ⟨⟨h, none⟩, ⟨hput.1, hput.2.trans ?_, nofun⟩, rfl⟩
  rw [hs.2.1]
  exact List.erase_cons_head ..

/-- What is in a buffer does not matter, -/
theorem keeps_fill_buf : Keeps (fill_buf b f) h := by
  intro l
  apply Outline.step trivial
  intro i s hs _
  exact ⟨⟨h, none⟩, ⟨hs.1.fill_buf b f, hs.2.1, nofun⟩, rfl⟩

/-- nor whether a frame waits. -/
theorem keeps_peek_rcvq : Keeps peek_rcvq h := by
  intro l
  apply Outline.step trivial
  intro i s hs _
  exact ⟨⟨h, l⟩, hs, rfl⟩

/-- The record of what has been processed takes over the buffer that is done with. -/
theorem outline_done_buf : Outline NetLogic (done_buf b) ⟨h, some b⟩ fun _ g => g.bufs = h := by
  apply Outline.step rfl
  intro i s hs _
  have hsame : net_done_buf b s.bufs = s.bufs := net_done_buf_free (hs.2.2 b rfl)
  refine ⟨⟨h, some b⟩, ?_, rfl⟩
  simp only [hsame]
  exact hs

/-- A function gives its buffer back, and the program that called it goes on. -/
theorem Frees.done {p : NetProg Unit} {q : NetProg α} (hp : Frees p b) (hq : Keeps q h)
    (l : Option ℕ) :
    Outline NetLogic (p >>= fun _ => done_buf b >>= fun _ => q) ⟨b :: h, l⟩
      fun _ g => g.bufs = h := by
  apply Outline.bind (hp h l)
  rintro _ _ rfl
  apply Outline.bind outline_done_buf
  rintro _ ⟨_, l'⟩ rfl
  exact hq l'

/-! ## ARP -/

/-- The cache is searched and changed without a buffer. -/
theorem keeps_arp_lookup : Keeps (arp_lookup ipaddr) h := by
  unfold arp_lookup
  apply Keeps.bind (keeps_look _)
  intro v
  split
  · exact Keeps.pure _
  · exact Keeps.bind (keeps_set_vars _) fun _ => keeps_run (.arp_request ..) nofun

/-- The listener for replies learns the sender's address and frees the packet. -/
theorem frees_arp_reply_listener : Frees (arp_reply_listener b) b :=
  Frees.bind (fun _ => keeps_vars _) fun _ => frees_free

/-- A packet that is not for the listener is freed as well. -/
theorem frees_arp_input : Frees (arp_input b) b := by
  unfold arp_input
  apply Frees.bind fun _ => keeps_look _
  intro s
  apply Frees.ite frees_free
  apply Frees.ite frees_free
  apply Frees.ite _ frees_free
  apply Frees.ite frees_free
  exact Frees.ite frees_arp_reply_listener frees_free

/-- A request goes out in a buffer of its own, which is given back, -/
theorem keeps_arp_request : Keeps (arp_request ipaddr retry) h := by
  cases retry with
  | zero => exact Keeps.pure _
  | succ retry =>
      unfold arp_request
      refine Keeps.taken (fun _ => outline_alloc) (Keeps.pure _) ?_
      intro b l
      -- the request is sent, and its buffer is free again
      apply Outline.bind (keeps_set_vars _ l)
      rintro _ ⟨_, l'⟩ rfl
      exact frees_free.done (keeps_run (.arp_wait ..) nofun) l'

/-- and while it waits only `enet_poll` runs. -/
theorem keeps_arp_wait : Keeps (arp_wait ipaddr retry) h := by
  unfold arp_wait
  apply Keeps.bind (keeps_input _)
  intro time_over
  apply Keeps.ite
  · exact Keeps.bind (keeps_set_vars _) fun _ => keeps_run (.arp_request ..) nofun
  · apply Keeps.bind (keeps_run .enet_poll nofun)
    intro _
    apply Keeps.bind (keeps_look _)
    intro v
    split
    · exact Keeps.bind (keeps_set_vars _) fun _ => Keeps.pure _
    · exact keeps_run (.arp_wait ..) nofun

/-! ## ICMP and UDP -/

/-- The listener looks at the identifier and frees the packet, -/
theorem frees_icmp_ping_listener : Frees (icmp_ping_listener b) b :=
  Frees.bind (fun _ => keeps_vars _) fun _ => frees_free

/-- and so does every other branch: a reply goes out in the buffer of the request. -/
theorem frees_icmp_input : Frees (icmp_input b) b := by
  unfold icmp_input
  apply Frees.bind fun _ => keeps_look _
  intro s
  apply Frees.ite
  · -- an echo request is answered in its own buffer
    exact Frees.ite frees_free frees_free
  · exact Frees.ite frees_icmp_ping_listener frees_free

/-- Data is copied to the socket before the buffer goes back. -/
theorem frees_udp_input : Frees (udp_input_buf b) b :=
  Frees.bind (fun _ => keeps_vars _) fun _ => frees_free

/-! ## Sending -/

/-- A socket of TCP holds no buffer, -/
theorem keeps_set_sock (g : TCP_SOCK_T → TCP_SOCK_T) : Keeps (set_sock i g) h :=
  keeps_set_vars _

/-- open or closed. -/
theorem keeps_close_sock : Keeps (close_sock i) h := keeps_set_vars _

/-- A segment is sent in a buffer that `tcp_output` asks for and gives back. -/
theorem keeps_tcp_output : Keeps (tcp_output i len) h := by
  unfold tcp_output
  refine Keeps.taken (fun _ => outline_alloc) (Keeps.pure _) ?_
  intro b l
  dsimp only
  split
  · exact frees_free.done (Keeps.pure _) l
  · apply Outline.bind (keeps_set_sock _ l)
    rintro _ ⟨_, l'⟩ rfl
    exact frees_free.done (Keeps.pure _) l'

/-- The data goes out in segments, with a wait for the acknowledgements between them. -/
theorem keeps_tcp_sendto : Keeps (tcp_sendto i len) h := by
  unfold tcp_sendto
  apply Keeps.bind (keeps_look _)
  intro sock
  apply Keeps.bind keeps_arp_lookup
  intro r
  cases r with
  | none => exact Keeps.pure _
  | some k => exact Keeps.bind keeps_tcp_output fun _ => keeps_input _

/-- An answer without data is one segment. -/
theorem keeps_tcp_reply : Keeps (tcp_reply i) h := by
  unfold tcp_reply
  apply Keeps.bind keeps_tcp_sendto
  intro failed
  apply Keeps.ite
  · exact Keeps.bind keeps_close_sock fun _ => Keeps.pure _
  · exact Keeps.pure _

/-- The answer is sent, and what follows depends on whether that went well. -/
theorem keeps_reply_then {p q : NetProg α} (hp : Keeps p h) (hq : Keeps q h) :
    Keeps (tcp_reply i >>= fun failed => if failed = true then p else q) h :=
  Keeps.bind keeps_tcp_reply fun _ => Keeps.ite hp hq

/-- The web server changes its socket, sends and polls. -/
theorem keeps_rx_http_packet : Keeps (rx_http_packet i) h := by
  unfold rx_http_packet
  apply Keeps.bind (keeps_input _)
  intro a
  cases a with
  | done => exact Keeps.pure _
  | change g =>
      apply Keeps.bind (keeps_set_sock _)
      intro _
      exact Keeps.bind (keeps_run (.rx_http_packet _) nofun) fun _ => Keeps.pure _
  | send len =>
      apply Keeps.bind keeps_tcp_sendto
      intro _
      exact Keeps.bind (keeps_run (.rx_http_packet _) nofun) fun _ => Keeps.pure _
  | poll =>
      apply Keeps.bind (keeps_run .enet_poll nofun)
      intro _
      exact Keeps.bind (keeps_run (.rx_http_packet _) nofun) fun _ => Keeps.pure _

/-! ## The states of a connection -/

/-- A reset is sent from a socket that is set up for it. -/
theorem keeps_tcp_send_reset : Keeps (tcp_send_reset i f) h := by
  unfold tcp_send_reset
  apply Keeps.ite keeps_close_sock
  apply Keeps.bind (keeps_set_sock _)
  intro _
  exact keeps_reply_then (Keeps.pure _) keeps_close_sock

/-- The states of a connection, one after the other: the segment stays with `tcp_input`. -/
theorem keeps_tcp_listen : Keeps (tcp_listen i f) h := by
  unfold tcp_listen
  apply Keeps.ite
  · apply Keeps.bind (keeps_set_sock _)
    intro _
    exact keeps_reply_then (Keeps.pure _) (keeps_set_sock _)
  · exact Keeps.bind (keeps_set_sock _) fun _ => keeps_tcp_send_reset

/-- `SYN_SENT` answers or resets. -/
theorem keeps_tcp_syn_sent : Keeps (tcp_syn_sent i f) h := by
  unfold tcp_syn_sent
  apply Keeps.ite _ (Keeps.pure _)
  apply Keeps.bind (keeps_set_sock _)
  intro _
  apply Keeps.bind (keeps_look _)
  intro sock
  apply Keeps.ite
  · apply Keeps.bind (keeps_set_sock _)
    intro _
    exact Keeps.bind keeps_tcp_reply fun _ => Keeps.pure _
  · exact keeps_set_sock _

/-- `SYN_RECVD` waits for the acknowledgement. -/
theorem keeps_tcp_syn_recvd : Keeps (tcp_syn_recvd i f) h := by
  unfold tcp_syn_recvd
  apply Keeps.bind (keeps_look _)
  intro sock
  apply Keeps.ite keeps_close_sock
  apply Keeps.ite
  · apply Keeps.bind (keeps_set_sock _)
    intro _
    exact Keeps.bind keeps_tcp_reply fun _ => Keeps.pure _
  · exact Keeps.ite (keeps_set_sock _) (Keeps.pure _)

/-- `ESTABLISHED` hands the data to the web server. -/
theorem keeps_tcp_established : Keeps (tcp_established i f) h := by
  unfold tcp_established
  apply Keeps.bind (keeps_set_sock _)
  intro _
  apply Keeps.ite
  · apply Keeps.bind (keeps_set_sock _)
    intro _
    exact Keeps.bind keeps_tcp_reply fun _ => Keeps.pure _
  · apply Keeps.ite keeps_close_sock
    apply Keeps.ite _ (Keeps.pure _)
    exact Keeps.bind (keeps_set_sock _) fun _ => keeps_rx_http_packet

/-- A segment with `FIN` in `FIN_WAIT_1`, -/
theorem keeps_tcp_fin_wait_1_fin : Keeps (tcp_fin_wait_1_fin i f) h := by
  unfold tcp_fin_wait_1_fin
  apply Keeps.ite _ (Keeps.pure _)
  apply Keeps.bind (keeps_set_sock _)
  intro _
  exact Keeps.bind keeps_tcp_reply fun _ => Keeps.pure _

/-- and any other one. -/
theorem keeps_tcp_fin_wait_1 : Keeps (tcp_fin_wait_1 i f) h := by
  unfold tcp_fin_wait_1
  apply Keeps.ite
  · -- a FIN that acknowledges ours
    apply Keeps.bind (keeps_set_sock _)
    intro _
    apply Keeps.bind (keeps_look _)
    intro sock
    apply Keeps.ite _ keeps_tcp_fin_wait_1_fin
    apply Keeps.bind (keeps_set_sock _)
    intro _
    exact keeps_reply_then (Keeps.pure _) keeps_tcp_fin_wait_1_fin
  · apply Keeps.ite _ keeps_tcp_fin_wait_1_fin
    exact Keeps.bind (keeps_set_sock _) fun _ => keeps_tcp_fin_wait_1_fin

theorem keeps_tcp_fin_wait_2 : Keeps (tcp_fin_wait_2 i f) h := by
  unfold tcp_fin_wait_2
  apply Keeps.bind (keeps_set_sock _)
  intro _
  apply Keeps.bind (keeps_look _)
  intro sock
  apply Keeps.ite _ (Keeps.pure _)
  apply Keeps.bind (keeps_set_sock _)
  intro _
  exact keeps_reply_then (Keeps.pure _) (keeps_set_sock _)

theorem keeps_tcp_closed : Keeps (tcp_closed i f) h :=
  Keeps.bind (keeps_set_sock _) fun _ => keeps_tcp_send_reset

theorem keeps_tcp_last_ack : Keeps (tcp_last_ack i f) h := by
  unfold tcp_last_ack
  apply Keeps.bind (keeps_set_sock _)
  intro _
  apply Keeps.ite
  · apply Keeps.bind (keeps_set_sock _)
    intro _
    exact keeps_reply_then (Keeps.pure _) keeps_tcp_closed
  · exact Keeps.bind (keeps_set_sock _) fun _ => keeps_tcp_closed

theorem keeps_tcp_time_wait : Keeps (tcp_time_wait i f) h := by
  unfold tcp_time_wait
  apply Keeps.ite _ (Keeps.pure _)
  apply Keeps.bind (keeps_set_sock _)
  intro _
  exact keeps_reply_then (Keeps.pure _) (keeps_set_sock _)

/-- Every state keeps the buffers. -/
theorem keeps_tcp_process (state : TcpState) : Keeps (tcp_process i f state) h := by
  cases state with
  | zero => exact Keeps.pure _
  | LISTEN => exact keeps_tcp_listen
  | SYN_SENT => exact keeps_tcp_syn_sent
  | SYN_RECVD => exact keeps_tcp_syn_recvd
  | ESTABLISHED => exact keeps_tcp_established
  | CLOSE_WAIT => exact keeps_tcp_established
  | FIN_WAIT_1 => exact keeps_tcp_fin_wait_1
  | FIN_WAIT_2 => exact keeps_tcp_fin_wait_2
  | CLOSING => exact Keeps.ite (keeps_set_sock _) (Keeps.pure _)
  | LAST_ACK => exact keeps_tcp_last_ack
  | CLOSED => exact keeps_tcp_closed
  | TIME_WAIT => exact keeps_tcp_time_wait

/-! ## What comes in -/

/-- `tcp_input` frees the segment behind the state machine, unless the acknowledgement is for
nothing. -/
theorem frees_tcp_input : Frees (tcp_input b) b := by
  intro h l
  unfold tcp_input
  -- the guard excludes the `return` of the switch
  apply Outline.bind (Q := fun r g => g = ⟨b :: h, l⟩ ∧ ∀ k, r.1 ≠ .must_ack k)
  · apply Outline.step (List.mem_cons_self ..)
    intro i s hs hok
    exact ⟨⟨b :: h, l⟩, hs, rfl, fun k hk => hok (acksNothing_of_must_ack hk)⟩
  · rintro ⟨entry, f⟩ _ ⟨rfl, hentry⟩
    cases entry with
    | drop => exact frees_free h l
    | must_ack k => exact absurd rfl (hentry k)
    | process k state =>
        exact Frees.bind (fun _ => keeps_tcp_process state) (fun _ => frees_free) h l

/-- `ip_input` hands the packet to one protocol or frees it, unless the web is off. -/
theorem frees_ip_input : Frees (ip_input b) b := by
  intro h l
  unfold ip_input
  -- the guard excludes TCP while the web server is off
  apply Outline.bind (Q := fun s g => g = ⟨b :: h, l⟩ ∧ ¬ WebOff s.vars (s.bufs.frame b))
  · apply Outline.step (List.mem_cons_self ..)
    intro i s hs hok
    exact ⟨⟨b :: h, l⟩, hs, rfl, hok⟩
  · rintro s _ ⟨rfl, hweb⟩
    dsimp only
    split
    · exact frees_free h l
    · rename_i haccepts
      rw [Bool.not_eq_true, Bool.not_eq_false'] at haccepts
      split
      · exact frees_icmp_input h l
      · split
        · rename_i htcp
          split
          · exact frees_tcp_input h l
          · rename_i hoff
            exact absurd ⟨haccepts, htcp.1, htcp.2, hoff⟩ hweb
        · exact Frees.ite frees_udp_input frees_free h l

/-- `enet_process` goes by the type of the frame. -/
theorem frees_enet_process : Frees (enet_process b) b := by
  apply Frees.bind fun _ => keeps_look _
  intro eth_type
  apply Frees.ite frees_ip_input
  exact Frees.ite frees_arp_input frees_free

/-- A frame of the driver is copied to a buffer that is queued, -/
theorem keeps_enet_input : Keeps (enet_input f) h := by
  unfold enet_input
  apply Keeps.ite (Keeps.pure _)
  refine Keeps.taken (fun _ => outline_alloc) (Keeps.pure _) ?_
  intro b l
  apply Outline.bind (keeps_fill_buf l)
  rintro _ ⟨_, l'⟩ rfl
  exact outline_put_rcvq

/-- for each frame that the driver has. -/
theorem keeps_deliver : Keeps deliver h := by
  intro l
  unfold deliver
  apply Outline.bind (outline_vars (l := .deliver) trivial _)
  rintro (_ | f) _ rfl
  · exact Keeps.pure _ l
  · exact Keeps.bind keeps_enet_input (fun _ => keeps_run .deliver nofun) l

/-- The frames that wait are taken and processed one by one. -/
theorem keeps_poll_rcvq : Keeps poll_rcvq h := by
  unfold poll_rcvq
  apply Keeps.bind keeps_peek_rcvq
  intro total
  apply Keeps.ite (Keeps.pure _)
  refine Keeps.taken (fun _ => outline_get_rcvq) (Keeps.pure _) ?_
  intro b l
  exact frees_enet_process.done (keeps_run .poll_rcvq nofun) l

/-- `enet_poll` delivers and processes. -/
theorem keeps_enet_poll : Keeps enet_poll h := by
  unfold enet_poll
  apply Keeps.bind (keeps_look _)
  intro initialized
  apply Keeps.ite _ (Keeps.pure _)
  exact Keeps.bind (keeps_run .deliver nofun) fun _ => keeps_run .poll_rcvq nofun

theorem keeps_main : Keeps (Prog.run (S := NetSig) .main) [] := fun _ => Outline.run rfl

/-- The main loop polls, or sends for one of the commands. -/
theorem keeps_main_loop : Keeps main_loop [] := by
  intro l
  unfold main_loop
  apply Outline.bind (outline_vars (l := .top) (g := ⟨[], l⟩) rfl _)
  rintro poll _ rfl
  refine Keeps.ite ?_ ?_ l
  · exact Keeps.bind (keeps_run .enet_poll nofun) fun _ => keeps_main
  · exact Keeps.bind (Keeps.pure _) fun _ => keeps_main

/-- Every procedure returns with the buffers that it was called with. -/
theorem net_bodies : Bodies NetLogic net_body := by
  rintro p ⟨h, l⟩ hp
  cases p with
  | main =>
      cases hp
      exact keeps_main_loop l
  | enet_poll => exact keeps_enet_poll l
  | deliver => exact keeps_deliver l
  | poll_rcvq => exact keeps_poll_rcvq l
  | arp_request ipaddr retry => exact keeps_arp_request l
  | arp_wait ipaddr retry => exact keeps_arp_wait l
  | rx_http_packet i => exact Keeps.bind keeps_rx_http_packet (fun _ => Keeps.pure _) l

end Steps

/-! ## Every run -/

/-- What holds at every moment: each buffer is in one place, and the counts of the
queues are right; a buffer that is freed or queued is being processed, so it is
not freed twice; a buffer is in the free queue when the function that had it is
done; and between two calls of `enet_poll` none is being processed. -/
structure Moment (c : Conf NetSig) : Prop where
  in_place : InPlace c.st.bufs
  freed : ∀ b, c.label = some (.net_free_buf b) → b ∈ c.st.bufs.processing
  queued : ∀ b, c.label = some (.net_put_rcvq b) → b ∈ c.st.bufs.processing
  done : ∀ b, c.label = some (.net_done_buf b) → IsFree c.st.bufs b
  idle : c.label = some .top → c.st.bufs.processing = []

/-- The network after `net_init_buf`, with whatever is in the variables. -/
def net_start (frame : ℕ → Frame) (vars : NetVars) : Conf NetSig :=
  ⟨⟨net_init_buf frame, vars⟩, Prog.run (S := NetSig) .main, []⟩

/-- After `net_init` all buffers are free. -/
theorem good_start (frame : ℕ → Frame) (vars : NetVars) : Good NetLogic (net_start frame vars) := by
  obtain ⟨hplace, hproc⟩ := net_init_buf_in_place frame
  refine ⟨⟨[], none⟩, ⟨hplace, hproc, nofun⟩, ?_⟩
  exact (keeps_main none).mono fun _ _ _ => trivial

/-- What the logic says about a moment, in terms of the queues. -/
theorem moment_of_good {c : Conf NetSig} (hc : Good NetLogic c) : Moment c := by
  obtain ⟨g, ⟨hplace, hproc, hfreed⟩, hstep⟩ := hc.inv
  refine ⟨hplace, ?_, ?_, ?_, ?_⟩
  · intro b hb
    rw [hproc]
    exact hstep _ hb
  · intro b hb
    rw [hproc]
    exact hstep _ hb
  · intro b hb
    exact hfreed b (hstep _ hb)
  · intro htop
    rw [hproc]
    exact hstep _ htop

/-- **No buffer is lost, and none is freed twice**, whatever comes and in whatever
state the network is, as long as the buffer is not forgotten. -/
theorem buffers_conserved (frame : ℕ → Frame) (vars : NetVars) (c : Conf NetSig)
    (hrun : Reaches (next net_body) (Guarded NoLoss) (net_start frame vars) c) : Moment c :=
  moment_of_good (reached_good net_bodies (good_start frame vars) hrun)

/-! ### A board with a connection to 192.168.1.100 -/

instance (c : Conf NetSig) (i : NetSig.Input) : Decidable (Guarded (S := NetSig) NoLoss c i) :=
  @decidableGuarded NetSig NoLoss decidableNoLoss c i

/-- The variables of this board. -/
def sample_vars (web_on : ℤ) : NetVars where
  board_support_web := true
  enet_initialized := true
  web_on := web_on
  my_ip_addr := sample_ip
  my_ip_netmask := 0xffffff00
  my_ip_gateway := 0
  arp_cache_tbl := fun _ => ⟨0, [], false⟩
  arp_cache_num := 0
  arp_listen_handler := false
  icmp_listen_handler := false
  icmp_listen_arg := 0
  udp_sock := sample_socket
  tcp_socks := fun _ =>
    { tcp_cleared with
      used := 1, local_port := TCP_PORT_HTTP, remote_port := 5000, from_ip := 0xc0a80164,
      state := .ESTABLISHED }

def sample_start (web_on : ℤ) : Conf NetSig := net_start (fun _ => frame_of []) (sample_vars web_on)

/-- A SYN for port 80. -/
def syn_frame : Frame :=
  frame_of [0x00, 0x50, 0xc2, 0x11, 0x11, 0x11, 0x02, 0, 0, 0, 0, 0x01, 0x08, 0x00,
    0x45, 0, 0, 40, 0, 1, 0, 0, 64, 6, 247, 25, 192, 168, 1, 100, 192, 168, 1, 1,
    0x13, 0x88, 0, 80, 0, 0, 0, 1, 0, 0, 0, 0, 0x50, 2, 0x20, 0, 248, 83, 0, 0]

/-- The program polls once, and one frame has come. -/
def one_frame (f : Frame) : List NetInput :=
  [.none, .poll, .none, .none, .none, .frame f] ++ List.replicate 19 .none

/-- A datagram has come, and its buffer is free again. -/
theorem buffers_conserved_sample :
    ∃ c, runOps (next net_body) (Guarded (S := NetSig) NoLoss) (sample_start 0)
        (one_frame sample_frame) = some c ∧
      c.st.bufs.net_free_q.total = 100 ∧ Moment c := by
  have hrun : (runOps (next net_body) (Guarded (S := NetSig) NoLoss) (sample_start 0)
      (one_frame sample_frame)).map (fun c => c.st.bufs.net_free_q.total) = some 100 := by
    decide +kernel
  obtain ⟨c, hc, htotal⟩ := Option.map_eq_some_iff.mp hrun
  exact ⟨c, hc, htotal, buffers_conserved _ _ c (Reaches.of_runOps _ hc)⟩

/-- There is a run to a moment at which not every buffer is in its place. -/
def LosesBuffer (web_on : ℤ) : Prop :=
  ∃ c, Reaches (next net_body) (fun _ _ => True) (sample_start web_on) c ∧ ¬ Moment c

theorem losesBuffer_of_count {web_on : ℤ} {n : ℤ}
    (hrun : (runOps (next net_body) (fun _ _ => True) (sample_start web_on)
      (one_frame syn_frame)).map (fun c => c.st.bufs.net_free_q.total + c.st.bufs.net_rcv_q.total
        + (c.st.bufs.processing.length : ℤ)) = some n)
    (hn : n ≠ NET_BUF_NUM) : LosesBuffer web_on := by
  obtain ⟨c, hc, hcount⟩ := Option.map_eq_some_iff.mp hrun
  refine ⟨c, Reaches.of_runOps _ hc, fun hmoment => hn ?_⟩
  exact hcount.symm.trans hmoment.in_place.count

/-- The buffer of a segment is lost while the web server is off; while it is on,
as the segment comes to a connection and acknowledges nothing. -/
theorem tcp_loses_buffer : LosesBuffer 0 ∧ LosesBuffer 1 := by
  constructor
  · exact losesBuffer_of_count (n := 99) (by decide +kernel) (by decide)
  · exact losesBuffer_of_count (n := 99) (by decide +kernel) (by decide)

end CsBoot.Net
