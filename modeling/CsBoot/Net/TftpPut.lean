/-
`tftpc_put` of `src/src/net/tftp_client.c`, and the packets it sends.

Both of its loops send a packet and wait for an answer. The first repeats the request
until an acknowledgement comes; the second sends the block that was not acknowledged
yet, and counts the blocks by the acknowledgements that carry its number. It goes on
while `total <= len`, and ends with the first block that has no data.

A run is given by what each pass of a loop meets. `put_data_sends` says which blocks a
run that succeeds has sent, when repeated packets are counted once: all blocks of the
file, and always an empty one behind them.
-/
import Mathlib.Data.List.GetD
import CsBoot.Net.TftpSpec

set_option autoImplicit false

namespace CsBoot.Net

open SkipBlocks

/-! ## `tftpc_put` -/

def TFTP_WRQ : ℕ := 2
def TFTP_PORT : ℕ := 69

/-- What `tftpc_put` finds before its loops: `udp_socket`, and `malloc` for the packet
buffer. -/
structure PutStart where
  socket_ok : Bool
  malloc : Option (ℕ → UInt8)

/-- What one pass of a loop meets: whether `udp_sendto` succeeds, and the result of
`udp_recvfrom`. -/
structure PutEvent where
  send_ok : Bool
  rc : RecvResult

/-- The variables of the loops. -/
structure TftpPut where
  tftp : ℕ → UInt8
  sfp : ℕ
  total_timeouts : ℕ
  last_good_block : ℕ
  total : ℕ
  server_port : ℕ

/-- What a run leaves: the requests, the data packets, and the value returned with
`*total_size` when the function returns. -/
structure PutRun where
  requests : List Sent
  data : List Sent
  ret : Option (ℤ × ℕ)

/-- How waiting for an acknowledgement ends. -/
inductive AckWait
  | acked (s : TftpPut)
  | again (s : TftpPut)
  | done (rc : ℤ)

/-- "Wait for ACK", the same in both loops. -/
def wait_ack (s : TftpPut) : RecvResult → AckWait
  | .error _ => .done TFTP_NET_ERR
  | .got datap server_port =>
    let s := { s with tftp := fill s.tftp datap, server_port := server_port }
    if datap.length = 0 then
      let s := { s with total_timeouts := s.total_timeouts + 1 }
      if TFTP_TIMEOUT_NUM < s.total_timeouts then .done TFTP_TIMEOUT else .again s
    else
      let s := { s with total_timeouts := 0 }
      if be16 s.tftp 0 = TFTP_ACK then .acked s
      else if be16 s.tftp 0 = TFTP_ERROR then .done (be16 s.tftp 2)
      else .done TFTP_UNKNOWN

/-- The packet with the data at `sfp`. -/
def put_packet (buf : ℕ → UInt8) (s : TftpPut) (data_len : ℕ) : List UInt8 :=
  htons TFTP_DATA ++ htons s.last_good_block ++ firstBytes (fun i => buf (s.sfp + i)) data_len

/-- The step to the next block. -/
def put_next (s : TftpPut) (data_len : ℕ) : TftpPut :=
  { s with
    sfp := s.sfp + data_len
    total := s.total + data_len
    last_good_block := s.last_good_block + 1 }

/-- The loop that sends the data, for as long as there are events. -/
def put_data (buf : ℕ → UInt8) (len : ℕ) (s : TftpPut) : List PutEvent → PutRun
  | [] => ⟨[], [], if s.total ≤ len then none else some (0, s.total)⟩
  | ev :: evs =>
    if ¬ s.total ≤ len then ⟨[], [], some (0, s.total)⟩
    else
      let data_len := min TFTP_BUF_SIZE (len - s.total)
      let packet := put_packet buf s data_len
      let sent : Sent := ⟨packet, s.server_port⟩
      let actual_len := data_len + TFTP_HDR_SIZE
      let s := { s with tftp := fill s.tftp packet }
      if !ev.send_ok then ⟨[], [sent], some (TFTP_NET_ERR, 0)⟩
      else if actual_len = 4 then ⟨[], [sent], some (0, s.total)⟩
      else
        match wait_ack s ev.rc with
        | .done rc => ⟨[], [sent], some (rc, 0)⟩
        | .again s =>
          let r := put_data buf len s evs
          ⟨[], sent :: r.data, r.ret⟩
        | .acked s =>
          let r := put_data buf len
            (if be16 s.tftp 2 = s.last_good_block then put_next s (actual_len - 4) else s) evs
          ⟨[], sent :: r.data, r.ret⟩

/-- The write request. -/
def write_request (filename : List UInt8) : List UInt8 :=
  htons TFTP_WRQ ++ filename ++ [0] ++
    ['O', 'C', 'T', 'E', 'T'].map (fun c => UInt8.ofNat c.toNat) ++ [0]

/-- The loop that sends the request. -/
def put_request (filename : List UInt8) (buf : ℕ → UInt8) (len : ℕ) (s : TftpPut) :
    List PutEvent → PutRun
  | [] => ⟨[], [], none⟩
  | ev :: evs =>
    let sent : Sent := ⟨write_request filename, TFTP_PORT⟩
    let s := { s with tftp := fill s.tftp (write_request filename) }
    if !ev.send_ok then ⟨[sent], [], some (TFTP_NET_ERR, 0)⟩
    else
      match wait_ack s ev.rc with
      | .done rc => ⟨[sent], [], some (rc, 0)⟩
      | .again s =>
        let r := put_request filename buf len s evs
        ⟨sent :: r.requests, r.data, r.ret⟩
      | .acked s =>
        let r := put_data buf len { s with sfp := 0, last_good_block := 1, total := 0 } evs
        ⟨[sent], r.data, r.ret⟩

/-- `tftpc_put` -/
def tftpc_put (filename : List UInt8) (buf : ℕ → UInt8) (len : ℕ) (start : PutStart)
    (events : List PutEvent) : PutRun :=
  if !start.socket_ok then ⟨[], [], some (TFTP_NET_ERR, 0)⟩
  else
    match start.malloc with
    | none => ⟨[], [], some (TFTP_NO_BUF, 0)⟩
    | some tftp =>
      put_request filename buf len
        { tftp := tftp, sfp := 0, total_timeouts := 0, last_good_block := 0, total := 0,
          server_port := 0 } events

/-! ## Schedules of acknowledgements

An acknowledgement may carry any number: late and repeated ones are among them. -/

/-- No packet comes, or an acknowledgement. -/
def AckEvent (ev : PutEvent) : Prop :=
  ∃ server_port, ev.rc = .got [] server_port ∨ ∃ b, ev.rc = .got (ack_packet b) server_port

/-- The variables that waiting leaves alone. -/
structure SamePlace (s s' : TftpPut) : Prop where
  sfp : s'.sfp = s.sfp
  last_good_block : s'.last_good_block = s.last_good_block
  total : s'.total = s.total

theorem be16_ack_packet (mem : ℕ → UInt8) (b : ℕ) :
    be16 (fill mem (ack_packet b)) 0 = TFTP_ACK ∧ be16 (fill mem (ack_packet b)) 2 = b % 65536 := by
  have h0 := be16_fill_htons mem [] (htons b) TFTP_ACK
  have h2 := be16_fill_htons mem (htons TFTP_ACK) [] b
  rw [List.append_nil] at h2
  exact ⟨h0, h2⟩

theorem be16_lt (w : ℕ → UInt8) (i : ℕ) : be16 w i < 65536 := by
  have h0 := (w i).toNat_lt
  have h1 := (w (i + 1)).toNat_lt
  unfold be16
  omega

/-- An acknowledgement that comes is taken as one. -/
theorem wait_ack_packet (s : TftpPut) (b server_port : ℕ) :
    wait_ack s (.got (ack_packet b) server_port) =
      .acked { s with
        tftp := fill s.tftp (ack_packet b), server_port := server_port, total_timeouts := 0 } := by
  have hlen : (ack_packet b).length ≠ 0 := by simp [ack_packet, htons]
  simp only [wait_ack, if_neg hlen, (be16_ack_packet s.tftp b).1, if_true]

/-- In such a schedule waiting ends with a timeout, or the loop goes on from the same
place. -/
theorem wait_ack_cases {s : TftpPut} {ev : PutEvent} (h : AckEvent ev) :
    wait_ack s ev.rc = .done TFTP_TIMEOUT ∨
      (∃ s', wait_ack s ev.rc = .again s' ∧ SamePlace s s') ∨
      ∃ s', wait_ack s ev.rc = .acked s' ∧ SamePlace s s' := by
  obtain ⟨server_port, hrc | ⟨b, hrc⟩⟩ := h
  · rw [hrc]
    simp only [wait_ack, List.length_nil, if_true]
    split
    · exact .inl rfl
    · exact .inr (.inl ⟨_, rfl, rfl, rfl, rfl⟩)
  · rw [hrc, wait_ack_packet]
    exact .inr (.inr ⟨_, rfl, rfl, rfl, rfl⟩)

/-! ## Packets without their repetitions -/

/-- A sequence of packets in which each is counted once however often it is repeated. -/
def once : List (List UInt8) → List (List UInt8)
  | [] => []
  | p :: ps => if ps.head? = some p then once ps else p :: once ps

theorem once_head (ps : List (List UInt8)) : (once ps).head? = ps.head? := by
  induction ps with
  | nil => rfl
  | cons p ps ih =>
    unfold once
    split
    case isTrue h => rw [ih, h, List.head?_cons]
    case isFalse => rfl

theorem once_repeat {p : List UInt8} {ps : List (List UInt8)} (h : (once ps).head? = some p) :
    once (p :: ps) = once ps := by
  rw [once_head] at h
  exact if_pos h

theorem once_next {p : List UInt8} {ps : List (List UInt8)} (h : (once ps).head? ≠ some p) :
    once (p :: ps) = p :: once ps := by
  rw [once_head] at h
  exact if_neg h

/-! ## The blocks that are sent -/

/-- The number of packets of a run that succeeds: the blocks with data, and an empty
one. -/
def put_num (len : ℕ) : ℕ := (len + 511) / 512 + 1

/-- The head of the loop when block `k` is to be sent. -/
structure PutHead (len k : ℕ) (s : TftpPut) : Prop where
  number : s.last_good_block = k
  pos : 0 < k
  total : s.total = min (512 * (k - 1)) len
  sfp : s.sfp = s.total
  le : k ≤ put_num len

section Data

variable {buf : ℕ → UInt8} {len k : ℕ} {s s' : TftpPut}

theorem PutHead.same (h : PutHead len k s) (hs : SamePlace s s') : PutHead len k s' :=
  ⟨hs.last_good_block.trans h.number, h.pos, hs.total.trans h.total,
    by rw [hs.sfp, hs.total, h.sfp], h.le⟩

/-- The packet is that of block `k`. -/
theorem PutHead.packet (h : PutHead len k s) :
    put_packet buf s (min TFTP_BUF_SIZE (len - s.total)) = data_packet (firstBytes buf len) k := by
  have hk := h.pos
  have htotal := h.total
  unfold put_packet data_packet
  rw [h.number, h.sfp]
  congr 1
  apply List.ext_getElem
  · simp only [length_firstBytes, block, List.length_take, List.length_drop, TFTP_BUF_SIZE]
    omega
  · intro i hi _
    simp only [length_firstBytes, TFTP_BUF_SIZE] at hi
    have haddr : s.total + i = 512 * (k - 1) + i := by omega
    simp [firstBytes, block, haddr]

/-- After the acknowledgement of a block with data. -/
theorem PutHead.next (h : PutHead len k s) (hlt : s.total < len) :
    PutHead len (k + 1) (put_next s (min TFTP_BUF_SIZE (len - s.total))) := by
  have hk := h.pos
  have htotal := h.total
  have hsfp := h.sfp
  have hnum := h.number
  unfold put_next TFTP_BUF_SIZE
  refine ⟨by simp only [hnum], by omega, ?_, by simp only [hsfp], ?_⟩
  · simp only [Nat.add_sub_cancel]
    omega
  · unfold put_num
    omega

/-- The last block is the empty one. -/
theorem PutHead.last (h : PutHead len k s) (hlen : s.total = len) : k = put_num len := by
  have hk := h.pos
  have htotal := h.total
  have hle := h.le
  unfold put_num at *
  omega

theorem data_packet_number (file : List UInt8) (k : ℕ) :
    be16 (fun i => (data_packet file k).getD i 0) 2 = k % 65536 := by
  have h := number_data_packet (fun _ => 0) file k
  unfold fill at h
  exact h

theorem data_packet_ne_next (file : List UInt8) (k : ℕ) :
    data_packet file k ≠ data_packet file (k + 1) := by
  intro h
  have hk := data_packet_number file k
  rw [h, data_packet_number] at hk
  omega

/-- The packets from block `k` on. -/
theorem data_packets_cons (file : List UInt8) {k m : ℕ} (h : k ≤ m) :
    (List.range' k (m + 1 - k)).map (data_packet file) =
      data_packet file k :: (List.range' (k + 1) (m + 1 - (k + 1))).map (data_packet file) := by
  have hcount : m + 1 - k = (m + 1 - (k + 1)) + 1 := by omega
  rw [hcount, List.range'_succ, List.map_cons]

/-- A packet counts once when the packets behind it are those of the blocks from there
on. -/
theorem once_same (file : List UInt8) {k m : ℕ} {ps : List (List UInt8)} (h : k ≤ m)
    (hps : once ps = (List.range' k (m + 1 - k)).map (data_packet file)) :
    once (data_packet file k :: ps) =
      (List.range' k (m + 1 - k)).map (data_packet file) := by
  rw [once_repeat, hps]
  rw [hps, data_packets_cons file h, List.head?_cons]

/-- It is counted as well when they are those of the blocks behind it. -/
theorem once_first (file : List UInt8) {k m : ℕ} {ps : List (List UInt8)} (h : k + 1 ≤ m)
    (hps : once ps = (List.range' (k + 1) (m + 1 - (k + 1))).map (data_packet file)) :
    once (data_packet file k :: ps) =
      (List.range' k (m + 1 - k)).map (data_packet file) := by
  rw [once_next, hps, ← data_packets_cons file (by omega)]
  rw [hps, data_packets_cons file h, List.head?_cons]
  intro heq
  exact data_packet_ne_next _ _ (Option.some.inj heq).symm

/-- **What a run of the data loop has sent when it succeeds**: all blocks from `k` on,
and an empty one; and all of them have been acknowledged but the last. The induction is
on the schedule. -/
theorem put_data_sends (events : List PutEvent) (hev : ∀ ev ∈ events, AckEvent ev) {t : ℕ}
    (h : PutHead len k s) (hret : (put_data buf len s events).ret = some (0, t)) :
    once ((put_data buf len s events).data.map Sent.data) =
        (List.range' k (put_num len + 1 - k)).map (data_packet (firstBytes buf len)) ∧
      (k = put_num len ∨ put_num len ≤ 65536) := by
  induction events generalizing s k with
  | nil =>
    have htotal := h.total
    simp only [put_data] at hret
    rw [if_pos (by omega)] at hret
    simp at hret
  | cons ev events ih =>
    have hkle := h.le
    have htotal := h.total
    have hle : s.total ≤ len := by omega
    have hrest : ∀ e ∈ events, AckEvent e := fun e he => hev e (List.mem_cons_of_mem _ he)
    -- what follows a packet that has to be repeated
    have hagain : ∀ {s'}, SamePlace s s' → (put_data buf len s' events).ret = some (0, t) →
        once (data_packet (firstBytes buf len) k ::
          (put_data buf len s' events).data.map Sent.data) =
            (List.range' k (put_num len + 1 - k)).map (data_packet (firstBytes buf len)) ∧
          (k = put_num len ∨ put_num len ≤ 65536) := by
      intro s' hs' hr
      obtain ⟨hsent, hnum⟩ := ih hrest (h.same hs') hr
      exact ⟨once_same _ hkle hsent, hnum⟩
    rw [put_data, if_neg (not_not.mpr hle)] at hret ⊢
    simp only [h.packet] at hret ⊢
    by_cases hsend : ev.send_ok = true
    · simp only [hsend, Bool.not_true, Bool.false_eq_true, if_false] at hret ⊢
      by_cases hempty : min TFTP_BUF_SIZE (len - s.total) + TFTP_HDR_SIZE = 4
      · have hlast : k = put_num len := by
          apply h.last
          simp only [TFTP_BUF_SIZE, TFTP_HDR_SIZE] at hempty
          omega
        rw [if_pos hempty, data_packets_cons _ hkle, hlast]
        simp [once]
      · rw [if_neg hempty] at hret ⊢
        set s₁ : TftpPut := { s with tftp := fill s.tftp (data_packet (firstBytes buf len) k) }
        have hplace : ∀ {s'}, SamePlace s₁ s' → SamePlace s s' :=
          fun hs' => ⟨hs'.sfp, hs'.last_good_block, hs'.total⟩
        rcases wait_ack_cases (s := s₁) (hev ev List.mem_cons_self) with
          hw | ⟨s', hw, hs'⟩ | ⟨s', hw, hs'⟩
        · simp only [hw, Option.some.injEq, Prod.mk.injEq] at hret
          exact absurd hret.1 (by decide)
        · simp only [hw] at hret ⊢
          exact hagain (hplace hs') hret
        · simp only [hw] at hret ⊢
          by_cases hmatch : be16 s'.tftp 2 = s'.last_good_block
          · have hsame := hplace hs'
            have hlt : s'.total < len := by
              have := hsame.total
              simp only [TFTP_BUF_SIZE, TFTP_HDR_SIZE] at hempty
              omega
            have hlen : min TFTP_BUF_SIZE (len - s.total) + TFTP_HDR_SIZE - 4 =
                min TFTP_BUF_SIZE (len - s'.total) := by
              rw [hsame.total, TFTP_HDR_SIZE, Nat.add_sub_cancel]
            rw [if_pos hmatch, hlen] at hret ⊢
            obtain ⟨hsent, hnum⟩ := ih hrest ((h.same hsame).next hlt) hret
            have hk : k < 65536 := by
              have := be16_lt s'.tftp 2
              have := (h.same hsame).number
              omega
            exact ⟨once_first _ ((h.same hsame).next hlt).le hsent, .inr (by omega)⟩
          · rw [if_neg hmatch] at hret ⊢
            exact hagain (hplace hs') hret
    · simp only [hsend, Bool.not_false, if_true, Option.some.injEq, Prod.mk.injEq] at hret
      exact absurd hret.1 (by decide)

/-- The acknowledgements of `n` blocks from `k` on, and one more pass. -/
def ack_schedule (k : ℕ) : ℕ → List PutEvent
  | 0 => [⟨true, .got [] 0⟩]
  | n + 1 => ⟨true, .got (ack_packet k) 0⟩ :: ack_schedule (k + 1) n

theorem ack_schedule_events (k n : ℕ) : ∀ ev ∈ ack_schedule k n, AckEvent ev := by
  induction n generalizing k with
  | zero => simp [ack_schedule, AckEvent]
  | succ n ih =>
    intro ev hev
    rcases List.mem_cons.mp hev with rfl | hev
    · exact ⟨0, .inr ⟨k, rfl⟩⟩
    · exact ih (k + 1) ev hev

/-- When every block is acknowledged at once, and their numbers have 16 bits, the loop
succeeds. -/
theorem put_data_succeeds (n : ℕ) (h : PutHead len k s) (hn : k + n = put_num len)
    (hfit : put_num len ≤ 65536) :
    (put_data buf len s (ack_schedule k n)).ret = some (0, len) := by
  induction n generalizing k s with
  | zero =>
    have htotal := h.total
    have hk := h.pos
    have hend : s.total = len := by
      unfold put_num at hn
      omega
    simp [ack_schedule, put_data, hend, TFTP_HDR_SIZE]
  | succ n ih =>
    have htotal := h.total
    have hk := h.pos
    have hlt : s.total < len := by
      unfold put_num at hn
      omega
    have hdata : ¬ min TFTP_BUF_SIZE (len - s.total) + TFTP_HDR_SIZE = 4 := by
      simp only [TFTP_BUF_SIZE, TFTP_HDR_SIZE]
      omega
    rw [ack_schedule, put_data, if_neg (by omega)]
    simp only [Bool.not_true, Bool.false_eq_true, if_false, if_neg hdata, wait_ack_packet,
      (be16_ack_packet _ k).2, h.number]
    have hlen : min TFTP_BUF_SIZE (len - s.total) + TFTP_HDR_SIZE - 4 =
        min TFTP_BUF_SIZE (len - s.total) := by rw [TFTP_HDR_SIZE, Nat.add_sub_cancel]
    rw [if_pos (Nat.mod_eq_of_lt (by omega)), hlen]
    apply ih _ (by omega)
    have hsame : ∀ s', SamePlace s s' →
        PutHead len (k + 1) (put_next s' (min TFTP_BUF_SIZE (len - s.total))) := by
      intro s' hs'
      rw [← hs'.total]
      exact (h.same hs').next (by rw [hs'.total]; exact hlt)
    exact hsame _ ⟨rfl, h.number.symm, rfl⟩

end Data

/-! ## The encoding of RFC 1350 -/

/-- A sequence of data packets that carries the file: the numbers of the blocks, the
data, all blocks full but the last, and that one shorter. -/
structure RfcEncoding (file : List UInt8) (ps : List (List UInt8)) : Prop where
  opcode : ∀ p ∈ ps, be16 (fun i => p.getD i 0) 0 = TFTP_DATA
  number : ∀ i p, ps[i]? = some p → be16 (fun i => p.getD i 0) 2 = i + 1
  payload : (ps.map fun p => p.drop TFTP_HDR_SIZE).flatten = file
  full : ∀ i p, ps[i]? = some p → i + 1 < ps.length → (p.drop TFTP_HDR_SIZE).length = TFTP_BUF_SIZE
  last : ∃ p, ps.getLast? = some p ∧ (p.drop TFTP_HDR_SIZE).length < TFTP_BUF_SIZE

/-- The packets that a run sends, with an empty one behind the data. -/
def put_packets (file : List UInt8) : List (List UInt8) :=
  (List.range' 1 (put_num file.length)).map (data_packet file)

section Encoding

variable (file : List UInt8)

theorem drop_data_packet (k : ℕ) : (data_packet file k).drop TFTP_HDR_SIZE = block file k := rfl

theorem put_packets_get {i : ℕ} {p : List UInt8} (h : (put_packets file)[i]? = some p) :
    i < put_num file.length ∧ p = data_packet file (i + 1) := by
  have hi : i < (put_packets file).length := by
    by_contra hge
    rw [List.getElem?_eq_none (by omega)] at h
    cases h
  have hlen : (put_packets file).length = put_num file.length := by simp [put_packets]
  rw [List.getElem?_eq_getElem hi] at h
  refine ⟨by omega, ?_⟩
  rw [← Option.some.inj h]
  simp [put_packets, Nat.add_comm]

/-- Together they carry the file, whatever its length is. -/
theorem put_packets_payload :
    ((put_packets file).map fun p => p.drop TFTP_HDR_SIZE).flatten = file := by
  have hblocks : ((put_packets file).map fun p => p.drop TFTP_HDR_SIZE).flatten =
      blocks file (put_num file.length) := by
    unfold put_packets blocks
    rw [List.map_map, List.range'_eq_map_range, List.map_map]
    congr 1
    apply List.map_congr_left
    intro i _
    simp [drop_data_packet, Nat.add_comm]
  rw [hblocks, blocks_eq]
  apply List.take_of_length_le
  unfold put_num
  omega

/-- They are the encoding of the file exactly when its length is a multiple of 512 and
the last number has 16 bits. -/
theorem put_packets_encode_iff :
    RfcEncoding file (put_packets file) ↔
      file.length % 512 = 0 ∧ put_num file.length ≤ 65535 := by
  have hlen : (put_packets file).length = put_num file.length := by simp [put_packets]
  have hget : ∀ i, i < put_num file.length →
      (put_packets file)[i]? = some (data_packet file (i + 1)) := by
    intro i hi
    rw [List.getElem?_eq_getElem (by omega)]
    simp [put_packets, Nat.add_comm]
  have hnum : put_num file.length = (file.length + 511) / 512 + 1 := rfl
  constructor
  · intro h
    constructor
    · by_contra hmod
      -- the short block is not the last packet
      have hidx : file.length / 512 + 1 < put_num file.length := by omega
      have hfull := h.full (file.length / 512) _ (hget _ (by omega)) (by omega)
      rw [drop_data_packet, length_block] at hfull
      simp only [TFTP_BUF_SIZE] at hfull
      omega
    · have hlast := h.number (put_num file.length - 1) _ (hget _ (by omega))
      rw [data_packet_number] at hlast
      omega
  · rintro ⟨hmod, hfit⟩
    refine ⟨?_, ?_, ?_, ?_, ?_⟩
    · intro p hp
      obtain ⟨k, -, rfl⟩ := List.mem_map.mp hp
      exact opcode_data_packet (fun _ => 0) file k
    · intro i p hp
      obtain ⟨hi, rfl⟩ := put_packets_get file hp
      rw [data_packet_number]
      omega
    · exact put_packets_payload file
    · intro i p hp hi
      obtain ⟨-, rfl⟩ := put_packets_get file hp
      rw [drop_data_packet, length_block, TFTP_BUF_SIZE]
      omega
    · refine ⟨data_packet file (put_num file.length), ?_, ?_⟩
      · rw [List.getLast?_eq_getElem?, hlen, hget _ (by omega)]
        rfl
      · have hb := length_block file (put_num file.length - 1)
        rw [Nat.sub_add_cancel (by omega)] at hb
        rw [drop_data_packet, hb, TFTP_BUF_SIZE]
        omega

end Encoding

/-- The first head of the data loop. -/
theorem put_head_start (len : ℕ) (s : TftpPut) :
    PutHead len 1 { s with sfp := 0, last_good_block := 1, total := 0 } :=
  ⟨rfl, Nat.one_pos, by simp, rfl, by unfold put_num; omega⟩

/-- The data of a run that succeeds has been sent by the data loop. -/
theorem put_request_data {filename : List UInt8} {buf : ℕ → UInt8} {len : ℕ} {s : TftpPut}
    (events : List PutEvent) (hev : ∀ ev ∈ events, AckEvent ev) {t : ℕ}
    (hret : (put_request filename buf len s events).ret = some (0, t)) :
    once ((put_request filename buf len s events).data.map Sent.data) =
        put_packets (firstBytes buf len) ∧ put_num len ≤ 65536 := by
  induction events generalizing s with
  | nil => simp [put_request] at hret
  | cons ev events ih =>
    have hrest : ∀ e ∈ events, AckEvent e := fun e he => hev e (List.mem_cons_of_mem _ he)
    unfold put_request at hret ⊢
    by_cases hsend : ev.send_ok = true
    · simp only [hsend, Bool.not_true, Bool.false_eq_true, if_false] at hret ⊢
      set s₁ : TftpPut := { s with tftp := fill s.tftp (write_request filename) }
      rcases wait_ack_cases (s := s₁) (hev ev List.mem_cons_self) with
        hw | ⟨s', hw, -⟩ | ⟨s', hw, -⟩
      · simp only [hw, Option.some.injEq, Prod.mk.injEq] at hret
        exact absurd hret.1 (by decide)
      · simp only [hw] at hret ⊢
        exact ih hrest hret
      · simp only [hw] at hret ⊢
        obtain ⟨hsent, hnum⟩ := put_data_sends events hrest (put_head_start len s') hret
        rw [hsent, put_packets, length_firstBytes, Nat.add_sub_cancel]
        exact ⟨rfl, by omega⟩
    · simp only [hsend, Bool.not_false, if_true, Option.some.injEq, Prod.mk.injEq] at hret
      exact absurd hret.1 (by decide)

/-- A run that succeeds has sent the packets. -/
theorem tftpc_put_sends {filename : List UInt8} {buf : ℕ → UInt8} {len t : ℕ} {start : PutStart}
    {events : List PutEvent} (hev : ∀ ev ∈ events, AckEvent ev)
    (hret : (tftpc_put filename buf len start events).ret = some (0, t)) :
    once ((tftpc_put filename buf len start events).data.map Sent.data) =
        put_packets (firstBytes buf len) ∧ put_num len ≤ 65536 := by
  unfold tftpc_put at hret ⊢
  split at hret
  case isTrue =>
    simp only [Option.some.injEq, Prod.mk.injEq] at hret
    exact absurd hret.1 (by decide)
  case isFalse hsock =>
    rw [if_neg hsock]
    cases hm : start.malloc with
    | none =>
      simp only [hm, Option.some.injEq, Prod.mk.injEq] at hret
      exact absurd hret.1 (by decide)
    | some tftp =>
      simp only [hm] at hret ⊢
      exact put_request_data events hev hret

/-- With every block acknowledged at once, `tftpc_put` succeeds. -/
theorem tftpc_put_succeeds (filename : List UInt8) (buf : ℕ → UInt8) (len : ℕ)
    (hfit : put_num len ≤ 65536) :
    (tftpc_put filename buf len ⟨true, some fun _ => 0⟩ (ack_schedule 0 (put_num len))).ret =
      some (0, len) := by
  obtain ⟨n, hn⟩ : ∃ n, put_num len = n + 1 := ⟨(len + 511) / 512, rfl⟩
  rw [hn, ack_schedule]
  simp only [tftpc_put, Bool.not_true, Bool.false_eq_true, if_false, put_request, wait_ack_packet]
  exact put_data_succeeds n (put_head_start len ⟨_, 0, 0, 0, 0, 0⟩) (by omega) hfit

/-- **`tftpc_put` sends the encoding of the buffer under every schedule of
acknowledgements exactly when the length is a multiple of 512 and less than
`512 * 65535`, or so large that it never succeeds.** -/
theorem tftpc_put_encodes_iff (filename : List UInt8) (buf : ℕ → UInt8) (len : ℕ) :
    (∀ start events t, (∀ ev ∈ events, AckEvent ev) →
      (tftpc_put filename buf len start events).ret = some (0, t) →
      RfcEncoding (firstBytes buf len)
        (once ((tftpc_put filename buf len start events).data.map Sent.data))) ↔
      (len % 512 = 0 ∧ len < 512 * 65535) ∨ 512 * 65535 < len := by
  have hnum : put_num len = (len + 511) / 512 + 1 := rfl
  have hiff := put_packets_encode_iff (firstBytes buf len)
  rw [length_firstBytes] at hiff
  constructor
  · intro h
    by_contra hcon
    have hfit : put_num len ≤ 65536 := by omega
    have hev := ack_schedule_events 0 (put_num len)
    have hret := tftpc_put_succeeds filename buf len hfit
    have henc := h _ _ _ hev hret
    rw [(tftpc_put_sends hev hret).1, hiff] at henc
    omega
  · intro hcond start events t hev hret
    obtain ⟨heq, hle⟩ := tftpc_put_sends hev hret
    rw [heq, hiff]
    omega

/-- One byte: block 1 carries it, and when that is acknowledged an empty block 2
follows. -/
theorem tftpc_put_sends_extra_block :
    (tftpc_put [] (fun _ => 7) 1 ⟨true, some fun _ => 0⟩ (ack_schedule 0 2)).ret = some (0, 1) ∧
      (tftpc_put [] (fun _ => 7) 1 ⟨true, some fun _ => 0⟩ (ack_schedule 0 2)).data.map Sent.data =
        [[0, 3, 0, 1, 7], [0, 3, 0, 2]] ∧
      ¬ RfcEncoding [7] (once [[0, 3, 0, 1, 7], [0, 3, 0, 2]]) := by
  refine ⟨by decide, by decide, fun h => ?_⟩
  have hfull := h.full 0 [0, 3, 0, 1, 7] rfl (by decide)
  simp [TFTP_HDR_SIZE, TFTP_BUF_SIZE] at hfull

end CsBoot.Net
