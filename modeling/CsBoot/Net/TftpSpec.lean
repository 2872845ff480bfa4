/-
The receive loop of `tftpc_get` on the blocks of a file.

At the head of the loop the first `last_good_block` blocks of the file are in
the caller's memory, all of them full, and there is room for one more byte at
least (`Head`). A round takes the next block, or sends the last acknowledgement
once more, or returns; it keeps `Head` whatever block comes, as long as a block
number that matches is that of the block it seems to be (`round_data`).
-/
import CsBoot.Lib.Run
import CsBoot.Net.Tftp

set_option autoImplicit false

namespace CsBoot.Net

open SkipBlocks

/-! ## Files and packets -/

/-- Block `k` of a file, counted from one. -/
def block (file : List UInt8) (k : ℕ) : List UInt8 := (file.drop (512 * (k - 1))).take 512

/-- The number of blocks, the last of which is shorter than the others. -/
def block_num (file : List UInt8) : ℕ := file.length / 512 + 1

/-- The blocks `1` to `b`, one behind the other. -/
def blocks (file : List UInt8) (b : ℕ) : List UInt8 :=
  ((List.range b).map fun i => block file (i + 1)).flatten

/-- The packet with block `k`. -/
def data_packet (file : List UInt8) (k : ℕ) : List UInt8 :=
  htons TFTP_DATA ++ htons k ++ block file k

section Blocks

variable {file : List UInt8} {b k : ℕ}

theorem length_block (file : List UInt8) (b : ℕ) :
    (block file (b + 1)).length = min 512 (file.length - 512 * b) := by
  simp [block]

theorem take_block (file : List UInt8) (b : ℕ) :
    file.take (512 * b) ++ block file (b + 1) = file.take (512 * (b + 1)) := by
  rw [block, Nat.add_sub_cancel, Nat.mul_succ, List.take_add]

theorem blocks_eq (file : List UInt8) (b : ℕ) : blocks file b = file.take (512 * b) := by
  induction b with
  | zero => rfl
  | succ b ih =>
      rw [← take_block, ← ih, blocks, List.range_succ, List.map_append, List.flatten_append]
      simp [blocks]

theorem length_data_packet (file : List UInt8) (b : ℕ) :
    (data_packet file (b + 1)).length = 4 + (block file (b + 1)).length := by
  simp [data_packet, htons]
  omega

end Blocks

/-! ## Reading a packet -/

section Packet

variable {mem : ℕ → UInt8} {bytes : List UInt8} {n k : ℕ}

/-- A 16-bit field that `htons` wrote. -/
theorem be16_fill_htons (mem : ℕ → UInt8) (p q : List UInt8) (n : ℕ) :
    be16 (fill mem (p ++ htons n ++ q)) p.length = n % 65536 := by
  have h₀ : fill mem (p ++ htons n ++ q) p.length = UInt8.ofNat (n / 256) := by
    simp [fill, htons, List.getD_eq_getElem?_getD]
  have h₁ : fill mem (p ++ htons n ++ q) (p.length + 1) = UInt8.ofNat n := by
    simp [fill, htons, List.getD_eq_getElem?_getD]
  unfold be16
  rw [h₀, h₁]
  simp only [UInt8.toNat_ofNat']
  omega

theorem opcode_data_packet (mem : ℕ → UInt8) (file : List UInt8) (k : ℕ) :
    be16 (fill mem (data_packet file k)) 0 = TFTP_DATA := by
  have h := be16_fill_htons mem [] (htons k ++ block file k) TFTP_DATA
  rw [List.nil_append, ← List.append_assoc] at h
  exact h

theorem number_data_packet (mem : ℕ → UInt8) (file : List UInt8) (k : ℕ) :
    be16 (fill mem (data_packet file k)) 2 = k % 65536 :=
  be16_fill_htons mem (htons TFTP_DATA) (block file k) k

theorem payload_data_packet (mem : ℕ → UInt8) (file : List UInt8) (k : ℕ) :
    firstBytes (fun i => fill mem (data_packet file k) (TFTP_HDR_SIZE + i)) (block file k).length
      = block file k := by
  apply List.ext_getElem
  · exact length_firstBytes _ _
  · intro i _ h
    have hlen : (htons TFTP_DATA ++ htons k).length = 4 := rfl
    simp only [firstBytes, List.getElem_map, List.getElem_range, fill, data_packet, TFTP_HDR_SIZE,
      List.getD_eq_getElem?_getD]
    rw [List.getElem?_append_right (by omega), hlen, Nat.add_sub_cancel_left,
      List.getElem?_eq_getElem h, Option.getD_some]

end Packet

/-! ## The copy loop -/

/-- The copy loop leaves the counters of blocks and of bytes received alone. -/
theorem consume_frame (s : TftpGet) (cp : ℕ → UInt8) (n : ℕ) :
    (consume s cp n).1.last_good_block = s.last_good_block ∧
      (consume s cp n).1.total = s.total ∧ (consume s cp n).1.server_port = s.server_port := by
  induction n generalizing s cp with
  | zero => exact ⟨rfl, rfl, rfl⟩
  | succ n ih =>
      rw [consume]
      simp only
      split_ifs
      · exact ⟨rfl, rfl, rfl⟩
      · exact ih _ _
      · exact ⟨rfl, rfl, rfl⟩
      · exact ih _ _

/-- With room for all of the data, it is all there behind what was there before. -/
structure Consumed (s : TftpGet) (cp : ℕ → UInt8) (n : ℕ) (r : TftpGet × Bool) : Prop where
  fits : r.2 = false
  len : r.1.len = s.len - n
  fp : r.1.fp = s.fp + n
  copied : firstBytes r.1.buf (s.fp + n) = firstBytes s.buf s.fp ++ firstBytes cp n
  untouched : ∀ i, s.fp + n ≤ i → r.1.buf i = s.buf i

theorem consume_spec {s : TftpGet} {n : ℕ} (cp : ℕ → UInt8) (h : (n : ℤ) ≤ s.len) :
    Consumed s cp n (consume s cp n) := by
  induction n generalizing s cp with
  | zero => exact ⟨rfl, (sub_zero _).symm, rfl, (List.append_nil _).symm, fun _ _ => rfl⟩
  | succ n ih =>
      have hpos : 0 < s.len := by omega
      obtain ⟨h₁, h₂, h₃, h₄, h₅⟩ := ih (fun i => cp (i + 1))
        (s := { s with
          buf := fun i => if i = s.fp then cp 0 else s.buf i, fp := s.fp + 1, len := s.len - 1 })
        (by simp only; omega)
      rw [consume]
      simp only [if_pos hpos]
      rw [if_neg (by omega)]
      simp only at h₁ h₂ h₃ h₄ h₅
      refine ⟨h₁, ?_, ?_, ?_, fun i hi => ?_⟩
      · rw [h₂]
        omega
      · rw [h₃]
        omega
      · have hone : firstBytes (fun i => if i = s.fp then cp 0 else s.buf i) (s.fp + 1)
            = firstBytes s.buf s.fp ++ [cp 0] := by
          rw [firstBytes_add]
          congr 1
          · exact firstBytes_congr fun i hi => if_neg (by omega)
          · simp [firstBytes]
        rw [show s.fp + (n + 1) = s.fp + 1 + n by omega, h₄, hone, firstBytes_cons,
          List.append_assoc, List.singleton_append]
      · rw [h₅ i (by omega)]
        exact if_neg (by omega)

/-- With less room than data, the room is filled and no more. -/
theorem consume_too_large {s : TftpGet} {n : ℕ} (cp : ℕ → UInt8) (h₀ : 0 ≤ s.len) (h : s.len < n)
    (hone : s.len = 0 → n ≠ 1) :
    (consume s cp n).2 = true ∧ ((consume s cp n).1.fp : ℤ) = s.fp + s.len ∧
      ∀ i : ℕ, s.fp + s.len ≤ i → (consume s cp n).1.buf i = s.buf i := by
  induction n generalizing s cp with
  | zero => omega
  | succ n ih =>
      rw [consume]
      by_cases hpos : 0 < s.len
      · simp only [if_pos hpos]
        -- the last byte of the room is filled, and the loop sees that there is more
        by_cases hlast : s.len = 1
        · rw [if_pos (by omega)]
          refine ⟨rfl, ?_, fun i hi => ?_⟩
          · rw [hlast]
            rfl
          · exact if_neg (by omega)
        · rw [if_neg (by omega)]
          obtain ⟨h₁, h₂, h₃⟩ := ih (fun i => cp (i + 1))
            (s := { s with
              buf := fun i => if i = s.fp then cp 0 else s.buf i
              fp := s.fp + 1
              len := s.len - 1 })
            (by simp only; omega) (by simp only; omega) (by simp only; omega)
          simp only at h₁ h₂ h₃
          refine ⟨h₁, ?_, fun i hi => ?_⟩
          · rw [h₂]
            push_cast
            omega
          · rw [h₃ i (by push_cast; omega)]
            exact if_neg (by omega)
      · simp only [if_neg hpos]
        have hne := hone (by omega)
        rw [if_pos (by omega)]
        refine ⟨rfl, ?_, fun _ _ => rfl⟩
        simp only
        omega

/-! ## One round -/

section Round

variable {file : List UInt8} {buf : ℕ → UInt8} {len : ℤ} {s : TftpGet} {k port : ℕ} {send_ok : Bool}

/-- What holds at the head of the loop, for a file and the memory and length
that `tftpc_get` was called with. -/
structure Head (file : List UInt8) (buf : ℕ → UInt8) (len : ℤ) (s : TftpGet) : Prop where
  total : s.total = 512 * s.last_good_block
  fp : s.fp = 512 * s.last_good_block
  left : s.len = len - 512 * s.last_good_block
  /-- After a block the loop goes on only with room left. -/
  room : s.last_good_block ≠ 0 → 0 < s.len
  full : 512 * s.last_good_block ≤ file.length
  received : firstBytes s.buf s.fp = file.take s.fp
  untouched : ∀ i : ℕ, len ≤ i → s.buf i = buf i

theorem tftp_init_head (file filename : List UInt8) (tftp buf : ℕ → UInt8) (len : ℤ) :
    Head file buf len (tftp_init filename tftp buf len) where
  total := rfl
  fp := rfl
  left := (sub_zero _).symm
  room h := absurd rfl h
  full := Nat.zero_le _
  received := rfl
  untouched _ _ := rfl

/-- A packet that acknowledges the last good block, whose number fits in its field. -/
def NamesLastGood (s : TftpGet) (p : Sent) : Prop :=
  p.data = ack_packet s.last_good_block ∧ s.last_good_block < 65536

/-- What a round leaves, whether the loop goes on or not. -/
structure RoundOk (file : List UInt8) (buf : ℕ → UInt8) (len : ℤ) (r : Round) : Prop where
  head : r.ret = none → Head file buf len r.state ∧ r.state.last_good_block < 65536
  acks : ∀ p ∈ r.sent, NamesLastGood r.state p
  untouched : ∀ i : ℕ, len ≤ i → r.state.buf i = buf i

/-- The receive packet buffer and the counters that `Head` does not speak of. -/
theorem Head.congr {s' : TftpGet} (h : Head file buf len s) (hbuf : s'.buf = s.buf)
    (hfp : s'.fp = s.fp) (hlen : s'.len = s.len) (htotal : s'.total = s.total)
    (hblock : s'.last_good_block = s.last_good_block) : Head file buf len s' := by
  refine ⟨?_, ?_, ?_, ?_, ?_, ?_, ?_⟩
  · rw [htotal, hblock, h.total]
  · rw [hfp, hblock, h.fp]
  · rw [hlen, hblock, h.left]
  · rw [hlen, hblock]
    exact h.room
  · rw [hblock]
    exact h.full
  · rw [hbuf, hfp]
    exact h.received
  · rw [hbuf]
    exact h.untouched

theorem send_ack_names {p : Sent} (hb : s.last_good_block < 65536) (hp : p ∈ some (send_ack s).2) :
    NamesLastGood s p := by
  rw [← Option.some.inj hp]
  exact ⟨rfl, hb⟩

theorem acknowledge_ok (h : Head file buf len s) (hb : s.last_good_block < 65536) (n : ℤ) :
    RoundOk file buf len (acknowledge s n send_ok) where
  head _ := ⟨h.congr rfl rfl rfl rfl rfl, hb⟩
  acks _ hp := send_ack_names hb hp
  untouched := h.untouched

theorem timeout_ok (h : Head file buf len s) (hb : s.last_good_block < 65536) :
    RoundOk file buf len (timeout_round s send_ok) := by
  rw [timeout_round]
  by_cases hlast : TFTP_TIMEOUT_NUM < s.total_timeouts + 1 ∨ s.last_good_block = 0
  · simp only [if_pos hlast]
    refine ⟨?_, ?_, h.untouched⟩
    · intro hnone
      cases hnone
    · intro p hp
      cases hp
  · simp only [if_neg hlast]
    exact ⟨fun _ => ⟨h.congr rfl rfl rfl rfl rfl, hb⟩, fun _ hp => send_ack_names hb hp,
      h.untouched⟩

/-- The next block of the file, once it is in the caller's memory. -/
structure Taken (file : List UInt8) (buf : ℕ → UInt8) (len : ℤ) (s r : TftpGet) : Prop where
  number : r.last_good_block = s.last_good_block + 1
  total : r.total = s.total + (block file r.last_good_block).length
  left : r.len = s.len - (block file r.last_good_block).length
  fp : r.fp = s.fp + (block file r.last_good_block).length
  received : firstBytes r.buf r.fp = file.take (512 * r.last_good_block)
  untouched : ∀ i : ℕ, len ≤ i → r.buf i = buf i

/-- The variables once a packet has been received. -/
def with_packet (s : TftpGet) (datap : List UInt8) (port : ℕ) : TftpGet :=
  { s with tftp := fill s.tftp datap, server_port := port }

theorem Head.with_packet (h : Head file buf len s) (datap : List UInt8) (port : ℕ) :
    Head file buf len (with_packet s datap port) :=
  h.congr rfl rfl rfl rfl rfl

theorem round_data (s : TftpGet) (file : List UInt8) (k port : ℕ) (send_ok : Bool) :
    tftp_round s (.got (data_packet file k) port) send_ok =
      data_round (with_packet s (data_packet file k) port) (data_packet file k).length send_ok := by
  have hlen : (data_packet file k).length ≠ 0 := by simp [data_packet, htons]
  rw [tftp_round]
  simp only
  rw [if_neg hlen, if_pos (opcode_data_packet _ _ _)]
  rfl

/-- **A block that is not the next one** gets the last acknowledgement again. -/
theorem round_other (hk : k % 65536 ≠ s.last_good_block + 1) :
    tftp_round s (.got (data_packet file k) port) send_ok =
      acknowledge (with_packet s (data_packet file k) port) TFTP_BUF_SIZE send_ok := by
  rw [round_data, data_round]
  exact if_neg fun h => hk ((number_data_packet _ _ _).symm.trans h)

/-- The variables when the copy loop is left. -/
def copied (s : TftpGet) (file : List UInt8) (port : ℕ) : TftpGet × Bool :=
  let pkt := data_packet file (s.last_good_block + 1)
  let n := (block file (s.last_good_block + 1)).length
  consume { with_packet s pkt port with total := s.total + n }
    (fun i => fill s.tftp pkt (TFTP_HDR_SIZE + i)) n

theorem round_next (hk : s.last_good_block + 1 < 65536) :
    tftp_round s (.got (data_packet file (s.last_good_block + 1)) port) send_ok =
      if (copied s file port).2 then ⟨(copied s file port).1, none, some (TFTP_TOO_LARGE, 0)⟩
      else acknowledge { (copied s file port).1 with
        last_good_block := (copied s file port).1.last_good_block + 1 }
        (block file (s.last_good_block + 1)).length send_ok := by
  have hlen : ((data_packet file (s.last_good_block + 1)).length : ℤ) - TFTP_HDR_SIZE
      = (block file (s.last_good_block + 1)).length := by
    rw [length_data_packet, TFTP_HDR_SIZE]
    omega
  have hnum : be16 (with_packet s (data_packet file (s.last_good_block + 1)) port).tftp 2
      = (with_packet s (data_packet file (s.last_good_block + 1)) port).last_good_block + 1 :=
    (number_data_packet _ _ _).trans (Nat.mod_eq_of_lt hk)
  rw [round_data, data_round, if_pos hnum]
  simp only [hlen, Int.toNat_natCast]
  rfl

/-- With room for the next block, it is taken over and acknowledged. -/
theorem round_fits (port : ℕ) (send_ok : Bool) (h : Head file buf len s)
    (hk : s.last_good_block + 1 < 65536)
    (hfit : ((block file (s.last_good_block + 1)).length : ℤ) ≤ s.len) :
    ∃ t, Taken file buf len s t ∧
      tftp_round s (.got (data_packet file (s.last_good_block + 1)) port) send_ok =
        acknowledge t (block file t.last_good_block).length send_ok := by
  let pkt := data_packet file (s.last_good_block + 1)
  let n := (block file (s.last_good_block + 1)).length
  have hcons : Consumed { with_packet s pkt port with total := s.total + n }
      (fun i => fill s.tftp pkt (TFTP_HDR_SIZE + i)) n (copied s file port) :=
    consume_spec _ hfit
  -- the copy leaves the number of the block and counts its bytes
  have hframe : (copied s file port).1.last_good_block = s.last_good_block ∧
      (copied s file port).1.total = s.total + n :=
    ⟨(consume_frame _ _ _).1, (consume_frame _ _ _).2.1⟩
  have hblock := hframe.1
  refine ⟨{ (copied s file port).1 with
    last_good_block := (copied s file port).1.last_good_block + 1 }, ?_, ?_⟩
  · refine ⟨?_, ?_, ?_, ?_, ?_, ?_⟩
    · exact congrArg (· + 1) hblock
    · simp only [hblock]
      exact hframe.2
    · simp only [hblock]
      exact hcons.len
    · simp only [hblock]
      exact hcons.fp
    · simp only [hblock]
      rw [hcons.fp, hcons.copied, payload_data_packet, ← take_block, ← h.fp]
      exact congrArg (· ++ _) h.received
    · intro i hi
      refine (hcons.untouched i ?_).trans (h.untouched i hi)
      have hleft := h.left
      have hfp : ({ with_packet s pkt port with total := s.total + n } : TftpGet).fp
        = 512 * s.last_good_block := h.fp
      rw [hfp]
      omega
  · rw [round_next hk, hcons.fits, if_neg Bool.false_ne_true]
    simp only [hblock]

/-- Without, nothing beyond the room is written and the loop ends. -/
theorem round_too_large (port : ℕ) (send_ok : Bool) (h : Head file buf len s)
    (hk : s.last_good_block + 1 < 65536)
    (hroom : 0 ≤ s.len) (hfit : s.len < (block file (s.last_good_block + 1)).length)
    (hone : s.len = 0 → (block file (s.last_good_block + 1)).length ≠ 1) :
    ∃ t, (∀ i : ℕ, len ≤ i → t.buf i = buf i) ∧
      tftp_round s (.got (data_packet file (s.last_good_block + 1)) port) send_ok =
        ⟨t, none, some (TFTP_TOO_LARGE, 0)⟩ := by
  let pkt := data_packet file (s.last_good_block + 1)
  let n := (block file (s.last_good_block + 1)).length
  obtain ⟨hlarge, _, hbuf⟩ := consume_too_large
    (s := { with_packet s pkt port with total := s.total + n })
    (fun i => fill s.tftp pkt (TFTP_HDR_SIZE + i)) hroom hfit hone
  refine ⟨(copied s file port).1, ?_, ?_⟩
  · intro i hi
    refine (hbuf i ?_).trans (h.untouched i hi)
    have hleft := h.left
    have hfp : ({ with_packet s pkt port with total := s.total + n } : TftpGet).fp
      = 512 * s.last_good_block := h.fp
    have hlen : ({ with_packet s pkt port with total := s.total + n } : TftpGet).len = s.len := rfl
    rw [hfp, hlen]
    omega
  · rw [round_next hk]
    exact if_pos hlarge

/-- A block taken over leaves the head of the loop as it must be, unless it fills
the last of the room. -/
theorem Taken.head {t : TftpGet} (ht : Taken file buf len s t) (h : Head file buf len s)
    (hlen : (block file t.last_good_block).length = 512) (hroom : t.len ≠ 0)
    (hfit : (512 : ℤ) ≤ s.len) : Head file buf len t := by
  have hnum := ht.number
  have hsize := length_block file s.last_good_block
  rw [← hnum, hlen] at hsize
  have hfull := h.full
  have hfp : t.fp = 512 * t.last_good_block := by
    rw [ht.fp, h.fp, hlen, hnum, Nat.mul_succ]
  refine ⟨?_, hfp, ?_, ?_, ?_, ?_, ht.untouched⟩
  · rw [ht.total, h.total, hlen, hnum]
    push_cast
    ring
  · rw [ht.left, h.left, hlen, hnum]
    push_cast
    ring
  · intro _
    have hleft := ht.left
    omega
  · omega
  · rw [ht.received, hfp]

theorem Head.room_pos (h : Head file buf len s) (hlen : 1 ≤ len) : 0 < s.len := by
  have hleft := h.left
  by_cases hzero : s.last_good_block = 0
  · rw [hzero] at hleft
    omega
  · exact h.room hzero

/-- **One round** on a block of the file, if the number of the block is that of
the next one only for the next one, or on a timeout. -/
theorem round_ok (h : Head file buf len s) (hb : s.last_good_block < 65536) (hroom : 0 ≤ s.len)
    (hone : s.len = 0 → (block file (s.last_good_block + 1)).length ≠ 1)
    (hk : k % 65536 = s.last_good_block + 1 → k = s.last_good_block + 1) :
    RoundOk file buf len (tftp_round s (.got (data_packet file k) port) send_ok) := by
  by_cases hnext : k % 65536 = s.last_good_block + 1
  · have hb : s.last_good_block + 1 < 65536 := hnext ▸ Nat.mod_lt k (by decide)
    rw [hk hnext]
    have hsize := length_block file s.last_good_block
    rcases le_or_gt ((block file (s.last_good_block + 1)).length : ℤ) s.len with hfit | hlarge
    · obtain ⟨t, ht, hr⟩ := round_fits port send_ok h hb hfit
      rw [hr]
      have hnum : t.last_good_block < 65536 := ht.number ▸ hb
      refine ⟨?_, fun _ hp => send_ack_names hnum hp, ht.untouched⟩
      intro hret
      -- the loop goes on only after a full block that leaves room
      have hgo : ¬ (t.len = 0 ∨ (0 : ℤ) ≤ (block file t.last_good_block).length ∧
          ((block file t.last_good_block).length : ℤ) < TFTP_BUF_SIZE) := by
        intro hstop
        rw [acknowledge] at hret
        simp only [if_pos hstop] at hret
        split_ifs at hret
      rw [not_or] at hgo
      have hfull : (block file t.last_good_block).length = 512 := by
        have hshort := hgo.2
        rw [ht.number, TFTP_BUF_SIZE] at hshort
        rw [ht.number]
        omega
      rw [ht.number] at hfull
      have hhead := ht.head h (by rw [ht.number, hfull]) hgo.1 (by omega)
      exact ⟨hhead.congr rfl rfl rfl rfl rfl, hnum⟩
    · obtain ⟨t, ht, hr⟩ := round_too_large port send_ok h hb hroom hlarge hone
      rw [hr]
      refine ⟨?_, ?_, ht⟩
      · intro hret
        cases hret
      · intro p hp
        cases hp
  · rw [round_other hnext]
    exact acknowledge_ok (h.with_packet _ _) hb _

end Round

/-! ## Every run -/

section Runs

variable {file filename : List UInt8} {tftp buf : ℕ → UInt8} {len : ℤ} {s : TftpGet}

/-- From one head of the loop to the next. -/
def tftp_next (s : TftpGet) (ev : RecvResult × Bool) : Option TftpGet :=
  if (tftp_round s ev.1 ev.2).ret = none then some (tftp_round s ev.1 ev.2).state else none

/-- A loop that is still running goes on where it is. -/
theorem tftp_loop_append {s₀ : TftpGet} {evs : List (RecvResult × Bool)}
    (h : tftp_loop s₀ evs = (s, none)) (rest : List (RecvResult × Bool)) :
    tftp_loop s₀ (evs ++ rest) = tftp_loop s rest := by
  induction evs generalizing s₀ with
  | nil =>
      cases h
      rfl
  | cons ev evs ih =>
      rw [List.cons_append, tftp_loop]
      rw [tftp_loop] at h
      split at h
      · cases h
      · exact ih h

theorem tftp_loop_singleton (s : TftpGet) (ev : RecvResult × Bool) :
    tftp_loop s [ev] = ((tftp_round s ev.1 ev.2).state, (tftp_round s ev.1 ev.2).ret) := by
  rw [tftp_loop]
  split
  · rename_i ret hret
    rw [hret]
  · rename_i hret
    rw [hret]
    rfl

/-- The heads that are reached are those of `tftp_loop`. -/
theorem tftp_loop_of_reaches {ok : TftpGet → RecvResult × Bool → Prop} {s₀ : TftpGet}
    (h : Reaches tftp_next ok s₀ s) : ∃ evs, tftp_loop s₀ evs = (s, none) := by
  induction h with
  | start => exact ⟨[], rfl⟩
  | next _ _ hs ih =>
      rename_i s₁ s₂ ev _ _
      obtain ⟨evs, hevs⟩ := ih
      refine ⟨evs ++ [ev], ?_⟩
      rw [tftp_next] at hs
      split_ifs at hs with hret
      rw [tftp_loop_append hevs, tftp_loop_singleton, hret, Option.some.inj hs]

/-- A block of the file in one whole packet, or a timeout. -/
def FileEvent (file : List UInt8) (ev : RecvResult × Bool) : Prop :=
  ∃ port, ev.1 = .got [] port ∨
    ∃ k, 1 ≤ k ∧ k ≤ block_num file ∧ ev.1 = .got (data_packet file k) port

theorem file_event_ok {ev : RecvResult × Bool} (h : Head file buf len s) (hlen : 1 ≤ len)
    (hn : block_num file < 65535) (hev : FileEvent file ev) :
    RoundOk file buf len (tftp_round s ev.1 ev.2) := by
  obtain ⟨rc, send_ok⟩ := ev
  have hfull := h.full
  rw [block_num] at hn
  obtain ⟨port, rfl | ⟨k, h₁, h₂, rfl⟩⟩ := hev
  · exact timeout_ok (h.with_packet [] port) (by simp only; omega)
  · rw [block_num] at h₂
    have hroom := h.room_pos hlen
    apply round_ok h (by omega) hroom.le
    · exact fun hzero => absurd hzero hroom.ne'
    · intro hk
      omega

theorem head_of_reaches (hlen : 1 ≤ len) (hn : block_num file < 65535)
    (h : Reaches tftp_next (fun _ => FileEvent file) (tftp_init filename tftp buf len) s) :
    Head file buf len s := by
  apply h.invariant (tftp_init_head file filename tftp buf len)
  intro s ev s' hhead hev hs
  rw [tftp_next] at hs
  split_ifs at hs with hret
  rw [← Option.some.inj hs]
  exact ((file_event_ok hhead hlen hn hev).head hret).1

/-- **The receive loop.** At every head of the loop the bytes received are the
blocks up to `last_good_block`, and a round that starts there, whatever it takes
and whether or not it is the last, acknowledges that block and writes nothing
outside the caller's memory. -/
theorem blocks_received (hlen : 1 ≤ len) (hn : block_num file < 65535)
    (h : Reaches tftp_next (fun _ => FileEvent file) (tftp_init filename tftp buf len) s) :
    (∃ n : ℕ, s.total = n ∧ firstBytes s.buf n = blocks file s.last_good_block) ∧
      ∀ ev, FileEvent file ev →
        (∀ p ∈ (tftp_round s ev.1 ev.2).sent, NamesLastGood (tftp_round s ev.1 ev.2).state p) ∧
          ∀ i : ℕ, len ≤ i → (tftp_round s ev.1 ev.2).state.buf i = buf i := by
  have hhead := head_of_reaches hlen hn h
  refine ⟨⟨s.fp, ?_, ?_⟩, ?_⟩
  · rw [hhead.total, hhead.fp]
    push_cast
    rfl
  · rw [hhead.received, blocks_eq, hhead.fp]
  · intro ev hev
    have hround := file_event_ok hhead hlen hn hev
    exact ⟨hround.acks, hround.untouched⟩

/-- A file of one block and a bit, after its first block has come. -/
theorem blocks_received_sample :
    let file := List.replicate 600 (7 : UInt8)
    let s := (tftp_round (tftp_init [] (fun _ => 0) (fun _ => 0) 1000)
      (.got (data_packet file 1) 5) true).state
    (∃ n : ℕ, s.total = n ∧ firstBytes s.buf n = blocks file s.last_good_block) ∧
      ∀ ev, FileEvent file ev →
        (∀ p ∈ (tftp_round s ev.1 ev.2).sent, NamesLastGood (tftp_round s ev.1 ev.2).state p) ∧
          ∀ i : ℕ, 1000 ≤ (i : ℤ) → (tftp_round s ev.1 ev.2).state.buf i = (fun _ => 0) i := by
  intro file s
  apply @blocks_received file [] (fun _ => 0) (fun _ => 0) 1000
  · decide
  · rw [block_num, List.length_replicate]
    decide
  · have hret : (tftp_round (tftp_init [] (fun _ => 0) (fun _ => 0) 1000)
        (.got (data_packet file 1) 5) true).ret = none := by decide +kernel
    apply Reaches.next (a := (.got (data_packet file 1) 5, true)) .start
    · exact ⟨5, .inr ⟨1, le_rfl, Nat.le_add_left _ _, rfl⟩⟩
    · exact if_pos hret

end Runs

end CsBoot.Net
