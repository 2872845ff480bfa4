/-
When the success of `tftpc_get` means a complete file: the runs that show that
the condition of `TransferOk` is needed, and the result.
-/
import CsBoot.Net.TftpServer

set_option autoImplicit false

namespace CsBoot.Net

open SkipBlocks

/-- In every run in which each call of `udp_recvfrom` takes one packet,
`tftpc_get` that returns zero has the file. -/
def ReturnsComplete (file : List UInt8) (codes : UInt16 → Bool) (len : ℕ) : Prop :=
  ∀ filename start buf s,
    Reaches (session_step file codes) WholePacket (session_init filename start buf len) s →
      ∀ total, (tftpc_get filename buf len start s.events).2 = some (0, total) →
        Complete file total (tftpc_get filename buf len start s.events).1

section Runs

variable {file : List UInt8} {codes : UInt16 → Bool} {buf : ℕ → UInt8} {len : ℕ} {s : Session}
  {p : List UInt8} {total : ℤ}

/-- `tftpc_get` comes to its loop. -/
def ready : TftpStart := ⟨true, some fun _ => 0, true⟩

/-- The session with `tftpc_get` in its loop, for a request of no name. -/
def session_ready (buf : ℕ → UInt8) (len : ℕ) : Session := session_init [] ready buf len

theorem ReturnsComplete.of_done (h : ReturnsComplete file codes len)
    (hs : Reaches (session_step file codes) WholePacket (session_ready buf len) s)
    (hdone : s.done = some (0, total)) : Complete file total s.client.buf := by
  have hlink : tftp_loop (tftp_init [] ready.tftp buf len) s.events = _ := linked_of_reaches hs
  have hget : tftpc_get [] buf len ready s.events = (s.client.buf, s.done) := by
    change ((tftp_loop (tftp_init [] ready.tftp buf len) s.events).1.buf,
      (tftp_loop (tftp_init [] ready.tftp buf len) s.events).2) = _
    rw [hlink]
  have hcomplete := h [] ready buf s hs total
  rw [hget] at hcomplete
  exact hcomplete hdone

/-- The session when the client has taken a packet. -/
def Session.taken (s : Session) (p : List UInt8) : Session :=
  { s.round (.got (p.take TFTP_PKT_SIZE) 0) true with pending := chop TFTP_PKT_SIZE [p] }

/-- A packet that was sent comes, and the client takes it. -/
theorem reaches_taken {s₀ : Session} (hs : Reaches (session_step file codes) WholePacket s₀ s)
    (hdone : s.done = none) (hempty : s.pending = []) (hp : p ∈ s.sent) :
    Reaches (session_step file codes) WholePacket s₀ (s.taken p) := by
  have hdeliver : Reaches (session_step file codes) WholePacket s₀ { s with pending := [p] } := by
    refine hs.next (a := .deliver p) trivial ?_
    rw [session_step, if_pos hp, hempty, List.nil_append]
  refine hdeliver.next (a := .round 0 true) ?_ ?_
  · intro q qs hq
    exact .inl (List.cons.inj hq).2.symm
  · have hnext : Session.next_packet { s with pending := [p] } = p.take TFTP_PKT_SIZE :=
      next_packet_eq rfl (.inl rfl)
    rw [session_step, if_pos hdone, hnext]
    rfl

theorem no_error_zero_of_complete (h : ReturnsComplete file codes len) (hcode : codes 0 = true) :
    file = [] := by
  let s₁ := (session_ready (fun _ => 0) len).send 0 .ended (error_packet 0 [])
  have hs₁ : Reaches (session_step file codes) WholePacket (session_ready (fun _ => 0) len) s₁ := by
    refine Reaches.start.next (a := .refuse 0 0 []) trivial ?_
    exact if_pos hcode
  have hs₂ := reaches_taken hs₁ rfl rfl (List.mem_cons_self ..)
  have hdone := error_round s₁.client 0 [] 0 true
  have hlen : (0 : ℤ) = file.length := (h.of_done hs₂ hdone).1
  exact List.length_eq_zero_iff.mp (by exact_mod_cast hlen.symm)

/-- The server has sent its first block. -/
theorem reaches_first (file : List UInt8) (codes : UInt16 → Bool) (buf : ℕ → UInt8) (len : ℕ) :
    Reaches (session_step file codes) WholePacket (session_ready buf len)
      ((session_ready buf len).send 0 (.sending 1) (data_packet file 1)) :=
  Reaches.start.next (a := .request 0) trivial rfl

/-- A block is taken as a whole. -/
theorem taken_data_packet (s : Session) (file : List UInt8) (b : ℕ) :
    s.taken (data_packet file (b + 1))
      = { s.round (.got (data_packet file (b + 1)) 0) true with pending := [] } := by
  have hlen := length_data_packet_le file (Nat.le_add_left 1 b)
  rw [Session.taken, List.take_of_length_le hlen, chop, if_neg hlen.not_gt, chop]

theorem taken_client (s : Session) (file : List UInt8) (b : ℕ) :
    (s.taken (data_packet file (b + 1))).client
      = (tftp_round s.client (.got (data_packet file (b + 1)) 0) true).state := by
  rw [taken_data_packet]
  rfl

theorem taken_done (s : Session) (file : List UInt8) (b : ℕ) :
    (s.taken (data_packet file (b + 1))).done
      = (tftp_round s.client (.got (data_packet file (b + 1)) 0) true).ret := by
  rw [taken_data_packet]
  rfl

theorem acknowledge_last {c : TftpGet} {n : ℤ} (h : c.len = 0 ∨ 0 ≤ n ∧ n < TFTP_BUF_SIZE) :
    (acknowledge c n true).ret = some (0, c.total) := by
  rw [acknowledge]
  exact if_pos h

/-- Without room, one byte is passed over. -/
theorem consume_one {c : TftpGet} (h : c.len ≤ 0) (cp : ℕ → UInt8) :
    consume c cp 1 = ({ c with len := c.len - 1 }, false) := by
  rw [consume, if_neg h.not_gt]
  simp only [lt_irrefl, and_false, if_false]
  rfl

theorem no_single_byte_of_complete (h : ReturnsComplete file codes 0) : file.length ≠ 1 := by
  intro hlen
  obtain ⟨b, rfl⟩ := List.length_eq_one_iff.mp hlen
  let buf : ℕ → UInt8 := fun _ => b + 1
  let s₁ := (session_ready buf 0).send 0 (.sending 1) (data_packet [b] 1)
  have hs₂ := reaches_taken (reaches_first [b] codes buf 0) rfl rfl (List.mem_cons_self ..)
  have hcopied : (copied s₁.client [b] 0).2 = false ∧ (copied s₁.client [b] 0).1.len = -1 ∧
      (copied s₁.client [b] 0).1.total = 1 ∧ (copied s₁.client [b] 0).1.buf = buf := by
    have hsize : (block [b] (s₁.client.last_good_block + 1)).length = 1 := rfl
    rw [copied, hsize, consume_one le_rfl]
    exact ⟨rfl, rfl, rfl, rfl⟩
  have hround : tftp_round s₁.client (.got (data_packet [b] (0 + 1)) 0) true = _ :=
    @round_next [b] s₁.client 0 true (show 0 + 1 < 65536 by decide)
  rw [hcopied.1, if_neg Bool.false_ne_true] at hround
  have hdone : (s₁.taken (data_packet [b] 1)).done = some (0, 1) := by
    rw [taken_done, ← hcopied.2.2.1]
    refine (congrArg Round.ret hround).trans (acknowledge_last (.inr ⟨?_, ?_⟩))
    · exact Int.natCast_nonneg _
    · exact (show (1 : ℤ) < TFTP_BUF_SIZE by decide)
  have hbuf : (s₁.taken (data_packet [b] 1)).client.buf = buf := by
    rw [taken_client]
    exact (congrArg (fun r => r.state.buf) hround).trans hcopied.2.2.2
  have hcomplete := (h.of_done hs₂ hdone).2
  rw [hbuf] at hcomplete
  have hbyte : b + 1 = b := List.head_eq_of_cons_eq hcomplete
  simp at hbyte

/-- The client has `j` blocks, and the server has seen that and sent the next. -/
structure AtBlock (file : List UInt8) (buf : ℕ → UInt8) (len j : ℕ) (s : Session) : Prop where
  done : s.done = none
  pending : s.pending = []
  number : s.client.last_good_block = j
  head : Head file buf len s.client
  transfer : s.transfer 0 = .sending (j + 1)
  sent : data_packet file (j + 1) ∈ s.sent

theorem atBlock_first (file : List UInt8) (buf : ℕ → UInt8) (len : ℕ) :
    AtBlock file buf len 0 ((session_ready buf len).send 0 (.sending 1) (data_packet file 1)) where
  done := rfl
  pending := rfl
  number := rfl
  head := tftp_init_head ..
  transfer := rfl
  sent := List.mem_cons_self ..

/-- A full block for which there is room. -/
theorem AtBlock.taken {j : ℕ} (h : AtBlock file buf len j s) (hj : j + 1 < 65536)
    (hfile : 512 * (j + 1) ≤ file.length) (hroom : 512 * (j + 1) ≤ len) :
    ∃ t, Taken file buf len s.client t ∧ t.last_good_block = j + 1 ∧
      (block file t.last_good_block).length = 512 ∧ t.len = len - 512 * ((j + 1 : ℕ) : ℤ) ∧
      tftp_round s.client (.got (data_packet file (j + 1)) 0) true = acknowledge t 512 true := by
  have hnum := h.number
  have hsize : (block file (j + 1)).length = 512 := by
    rw [length_block]
    omega
  have hleft := h.head.left
  obtain ⟨t, ht, hr⟩ := round_fits 0 true h.head (by omega) (by rw [hnum, hsize]; omega)
  have hn := ht.number
  rw [hnum] at hn hr
  have hfull : (block file t.last_good_block).length = 512 := by rw [hn, hsize]
  rw [hfull] at hr
  refine ⟨t, ht, hn, hfull, ?_, hr⟩
  have htl := ht.left
  rw [hfull] at htl
  omega

/-- The client takes a full block, the server sees the acknowledgement, and
sends the next block. -/
theorem AtBlock.next {j : ℕ} {s₀ : Session} (h : AtBlock file buf len j s)
    (hs : Reaches (session_step file codes) WholePacket s₀ s) (hj : j + 1 < 65536)
    (hfile : 512 * (j + 1) ≤ file.length) (hroom : 512 * (j + 1) < len) :
    ∃ s', AtBlock file buf len (j + 1) s' ∧
      Reaches (session_step file codes) WholePacket s₀ s' := by
  obtain ⟨t, ht, hn, hfull, hleft, hr⟩ := h.taken hj hfile hroom.le
  have hs₁ := reaches_taken hs h.done h.pending h.sent
  have hret : (acknowledge t 512 true).ret = none := by
    rw [acknowledge]
    refine if_neg ?_
    simp only [TFTP_BUF_SIZE]
    omega
  -- the client acknowledges from the port that the server listens to
  have hack : (⟨ack_packet (j + 1), 0⟩ : Sent) ∈ (s.taken (data_packet file (j + 1))).acks := by
    have hsent : (send_ack t).2 ∈
        (tftp_round s.client (.got (data_packet file (j + 1)) 0) true).sent := by
      rw [hr]
      rfl
    have hport : (send_ack t).2 = ⟨ack_packet (j + 1), 0⟩ := by
      rw [send_ack, ← hn]
      exact congrArg (Sent.mk _) (tftp_round_port hsent)
    rw [taken_data_packet, ← hport]
    exact List.mem_append_right _ (Option.mem_toList.mpr hsent)
  have htransfer : (s.taken (data_packet file (j + 1))).transfer 0 = .sending (j + 1) := h.transfer
  -- a full block is not the last one of the file
  have hlast : j + 1 < block_num file := by
    rw [block_num]
    omega
  refine ⟨(s.taken (data_packet file (j + 1))).send 0 (.sending (j + 2)) (data_packet file (j + 2)),
    ?_, hs₁.next (a := .acknowledged 0) trivial ?_⟩
  · refine ⟨?_, ?_, ?_, ?_, ?_, ?_⟩
    · exact (taken_done s file j).trans (hr ▸ hret)
    · exact congrArg Session.pending (taken_data_packet s file j)
    · refine (congrArg TftpGet.last_good_block (taken_client s file j)).trans ?_
      rw [hr]
      exact hn
    · have hfit : (512 : ℤ) ≤ s.client.len := by
        have hl := h.head.left
        have hnum := h.number
        omega
      have hhead : Head file buf len t :=
        ht.head h.head hfull (by omega) (hfit)
      refine Head.congr hhead ?_ ?_ ?_ ?_ ?_ <;>
        · simp only [Session.send]
          rw [taken_client, hr]
          rfl
    · simp [Session.send]
    · exact List.mem_cons_self ..
  · simp only [session_step, htransfer]
    rw [if_pos hack, if_pos hlast]

/-- The client takes full blocks for as long as there is room. -/
theorem reaches_block {j : ℕ} (hj : j < 65536) (hfile : 512 * j ≤ file.length)
    (hroom : j = 0 ∨ 512 * j < len) :
    ∃ s, AtBlock file buf len j s ∧
      Reaches (session_step file codes) WholePacket (session_ready buf len) s := by
  induction j with
  | zero => exact ⟨_, atBlock_first file buf len, reaches_first file codes buf len⟩
  | succ j ih =>
      obtain ⟨s, hs, hreach⟩ := ih (by omega) (by omega) (by omega)
      exact hs.next hreach hj hfile (by omega)

theorem not_cut_of_complete (h : ReturnsComplete file codes len) (hpos : 0 < len)
    (hcut : len < file.length) (hdvd : 512 ∣ len) : 65535 < len / 512 := by
  by_contra hle
  obtain ⟨m, rfl⟩ := hdvd
  rw [Nat.mul_div_cancel_left m (by decide)] at hle
  obtain ⟨j, rfl⟩ : ∃ j, m = j + 1 := Nat.exists_eq_succ_of_ne_zero (by omega)
  -- the last block for which there is room leaves none
  obtain ⟨s, hs, hreach⟩ := @reaches_block file codes (fun _ => 0) (512 * (j + 1)) j
    (by omega) (by omega) (by omega)
  obtain ⟨t, ht, hn, hfull, hleft, hr⟩ := hs.taken (by omega) hcut.le le_rfl
  have hdone : (s.taken (data_packet file (j + 1))).done = some (0, t.total) := by
    rw [taken_done, hr]
    refine acknowledge_last (.inl ?_)
    rw [hleft]
    push_cast
    ring
  have htotal := (h.of_done (reaches_taken hreach hs.done hs.pending hs.sent) hdone).1
  rw [ht.total, hs.head.total, hs.number, hfull] at htotal
  omega

end Runs

/-- **Success means a complete file** just when file, error codes and buffer are
as they must be. -/
theorem success_complete_iff (file : List UInt8) (codes : UInt16 → Bool) (len : ℕ) :
    ReturnsComplete file codes len ↔ TransferOk file codes len := by
  constructor
  · intro h
    refine ⟨no_error_zero_of_complete h, ?_, not_cut_of_complete h⟩
    rintro rfl
    exact no_single_byte_of_complete h
  · intro hok filename start buf s hs total hret
    obtain ⟨hdone, hbuf⟩ := tftpc_get_eq (linked_of_reaches hs) hret
    rw [hbuf]
    exact (session_ok_of_reaches hok hs).complete total hdone

/-- A file of 600 bytes and a buffer of one block: the first block is returned
as the whole file. -/
theorem file_cut_at_buffer : ¬ ReturnsComplete (List.replicate 600 7) (fun _ => false) 512 := by
  intro h
  have hcut := not_cut_of_complete h (by decide) (by rw [List.length_replicate]; decide) (by decide)
  exact absurd hcut (by decide)

end CsBoot.Net
