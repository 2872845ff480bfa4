/-
The numbers of the blocks in transfers of any length, for `tftpc_get` and `tftpc_put` of
`src/src/net/tftp_client.c`.

A number in a packet has 16 bits, and `last_good_block` is an `int` that it is compared
with as it is. In `tftpc_get` the counter gets to 65535 and waits for a block 65536; in
`tftpc_put` it gets to 65536 and waits for an acknowledgement of that number. From there
on the same packets are sent again and again.

A transfer here meets no loss and no repetition: the blocks or the acknowledgements come
in order, each with its number modulo 2^16.
-/
import CsBoot.Net.TftpPut

set_option autoImplicit false

namespace CsBoot.Net

open SkipBlocks

/-! ## `tftpc_get` -/

/-- The first `k` blocks of a file, in order. -/
def block_events (file : List UInt8) (port k : ℕ) : List (RecvResult × Bool) :=
  (List.range k).map fun i => (.got (data_packet file (i + 1)) port, true)

/-- A file of `k` full blocks at least, and room for it. -/
structure GetTransfer (k : ℕ) where
  filename : List UInt8
  tftp : ℕ → UInt8
  buf : ℕ → UInt8
  file : List UInt8
  len : ℤ
  port : ℕ
  full : 512 * k ≤ file.length
  fits : file.length ≤ len
  room : 512 * k < len

/-- With the blocks up to `k` transferred, block `k + 1` is taken as the next one, and is
acknowledged. -/
def GetTransfer.Accepts {k : ℕ} (t : GetTransfer k) : Prop :=
  ∃ s, tftp_loop (tftp_init t.filename t.tftp t.buf t.len) (block_events t.file t.port k) =
      (s, none) ∧
    let r := tftp_round s (.got (data_packet t.file (k + 1)) t.port) true
    r.state.last_good_block = s.last_good_block + 1 ∧
      r.state.total = s.total + (block t.file (k + 1)).length ∧
      r.sent.map Sent.data = some (ack_packet (k + 1))

section Get

variable {file : List UInt8} {buf : ℕ → UInt8} {len : ℤ} {s : TftpGet} {j k : ℕ}

theorem length_full_block (h : 512 * (j + 1) ≤ file.length) :
    (block file (j + 1)).length = 512 := by
  rw [length_block]
  omega

/-- A full block that is the next one leaves the loop running, if there is room left. -/
theorem get_next_block (port : ℕ) (h : Head file buf len s) (hs : s.last_good_block = j)
    (hj : j + 1 < 65536) (hfull : 512 * (j + 1) ≤ file.length) (hroom : 512 * (j + 1 : ℕ) < len) :
    ∃ s', tftp_round s (.got (data_packet file (j + 1)) port) true =
        ⟨s', some (send_ack s').2, none⟩ ∧ Head file buf len s' ∧ s'.last_good_block = j + 1 := by
  subst hs
  have hblock := length_full_block hfull
  have hleft := h.left
  obtain ⟨t, ht, hr⟩ := round_fits port true h hj (by omega)
  have hnum := ht.number
  have htleft := ht.left
  rw [hnum, hblock] at htleft
  have hhead : Head file buf len t := ht.head h (by rw [hnum, hblock]) (by omega) (by omega)
  have hgo : ¬ (t.len = 0 ∨ (0 : ℤ) ≤ (block file t.last_good_block).length ∧
      ((block file t.last_good_block).length : ℤ) < TFTP_BUF_SIZE) := by
    rw [hnum, hblock, TFTP_BUF_SIZE]
    omega
  refine ⟨(send_ack t).1, ?_, hhead.congr rfl rfl rfl rfl rfl, hnum⟩
  rw [hr, acknowledge]
  simp only [Bool.not_true, Bool.false_eq_true, if_false, if_neg hgo]
  rfl

/-- Once the counter is at 65535, every block is taken for one that has come before. -/
theorem get_stuck (port : ℕ) (hs : s.last_good_block = 65535) (hlen : s.len ≠ 0) (k : ℕ) :
    tftp_round s (.got (data_packet file k) port) true =
      ⟨(send_ack (with_packet s (data_packet file k) port)).1,
        some (send_ack (with_packet s (data_packet file k) port)).2, none⟩ := by
  have hgo : ¬ ((with_packet s (data_packet file k) port).len = 0 ∨
      (0 : ℤ) ≤ (TFTP_BUF_SIZE : ℤ) ∧ (TFTP_BUF_SIZE : ℤ) < TFTP_BUF_SIZE) :=
    fun h => h.elim hlen fun h => lt_irrefl _ h.2
  rw [round_other (by omega), acknowledge]
  simp only [Bool.not_true, Bool.false_eq_true, if_false, if_neg hgo]

/-- The loop when blocks have come in order: the counter has not gone over 65535. -/
theorem get_blocks (filename : List UInt8) (tftp buf : ℕ → UInt8) (port : ℕ)
    (hfull : 512 * k ≤ file.length) (hroom : 512 * k < len) :
    ∃ s, tftp_loop (tftp_init filename tftp buf len) (block_events file port k) = (s, none) ∧
      Head file buf len s ∧ s.last_good_block = min k 65535 := by
  induction k with
  | zero => exact ⟨_, rfl, tftp_init_head file filename tftp buf len, rfl⟩
  | succ k ih =>
    obtain ⟨s, hloop, hhead, hs⟩ := ih (by omega) (by
      push_cast at hroom
      omega)
    have hevents : block_events file port (k + 1) =
        block_events file port k ++ [(.got (data_packet file (k + 1)) port, true)] := by
      simp [block_events, List.range_succ]
    rw [hevents, tftp_loop_append hloop, tftp_loop_singleton]
    rcases Nat.lt_or_ge k 65535 with hk | hk
    · obtain ⟨s', hr, hhead', hs'⟩ := get_next_block port hhead (hs.trans (min_eq_left hk.le))
        (by omega) hfull hroom
      rw [hr]
      exact ⟨s', rfl, hhead', by rw [hs']; omega⟩
    · have hs : s.last_good_block = 65535 := hs.trans (min_eq_right hk)
      have hpos := hhead.room (by omega)
      rw [get_stuck port hs hpos.ne']
      exact ⟨_, rfl, hhead.congr rfl rfl rfl rfl rfl, by
        rw [min_eq_right (by omega)]
        exact hs⟩

theorem get_accepts_iff (t : GetTransfer k) : t.Accepts ↔ k < 65535 := by
  obtain ⟨filename, tftp, buf, file, len, port, hfull, hfits, hroom⟩ := t
  obtain ⟨s, hloop, hhead, hs⟩ := get_blocks filename tftp buf port hfull hroom
  have hleft := hhead.left
  constructor
  · rintro ⟨s', hloop', hnext, -⟩
    obtain rfl : s = s' := congrArg Prod.fst (hloop.symm.trans hloop')
    by_contra hk
    have hs : s.last_good_block = 65535 := hs.trans (min_eq_right (by omega))
    have hpos := hhead.room (by omega)
    simp only [get_stuck port hs hpos.ne' (k + 1)] at hnext
    exact (Nat.succ_ne_self s.last_good_block) hnext.symm
  · intro hk
    have hs : s.last_good_block = k := hs.trans (min_eq_left hk.le)
    subst hs
    have hblock := length_block file s.last_good_block
    obtain ⟨t, ht, hr⟩ := round_fits port true hhead (by omega) (by
      rw [hblock]
      push_cast
      omega)
    refine ⟨s, hloop, ?_⟩
    simp only [hr, acknowledge]
    refine ⟨ht.number, ?_, ?_⟩
    · rw [← ht.number]
      exact ht.total
    · rw [← ht.number]
      rfl

end Get

/-! ## `tftpc_put` -/

/-- Acknowledgements of `n` blocks from `k` on, in order. -/
def ack_events (port k n : ℕ) : List PutEvent :=
  (List.range' k n).map fun i => ⟨true, .got (ack_packet i) port⟩

/-- More data than `k` blocks hold, and what the pass behind the acknowledgements meets. -/
structure PutTransfer (k : ℕ) where
  filename : List UInt8
  tftp : ℕ → UInt8
  buf : ℕ → UInt8
  len : ℕ
  port : ℕ
  last : PutEvent
  more : 512 * k < len

/-- The packets with data when the request and the blocks up to `k + 1` are acknowledged. -/
def PutTransfer.packets {k : ℕ} (t : PutTransfer k) : List (List UInt8) :=
  (tftpc_put t.filename t.buf t.len ⟨true, some t.tftp⟩
    (ack_events t.port 0 (k + 2) ++ [t.last])).data.map Sent.data

/-- With block `k + 1` acknowledged, the next one is sent: it goes from block to block. -/
def PutTransfer.Accepts {k : ℕ} (t : PutTransfer k) : Prop :=
  t.packets = (List.range' 1 (k + 2)).map (data_packet (firstBytes t.buf t.len))

section Put

variable {buf : ℕ → UInt8} {len j k : ℕ} {s : TftpPut}

/-- The last pass sends a packet, whatever it meets. -/
theorem put_data_last (h : PutHead len k s) (ev : PutEvent) :
    (put_data buf len s [ev]).data.map Sent.data = [data_packet (firstBytes buf len) k] := by
  have htotal := h.total
  have hle : s.total ≤ len := by omega
  rw [put_data, if_neg (not_not.mpr hle)]
  simp only [h.packet]
  split_ifs
  · rfl
  · rfl
  · split <;> simp [put_data]

/-- An acknowledgement for the block with data that is sent. -/
theorem put_data_acked (h : PutHead len k s) (hlt : 512 * (k - 1) < len) (i port : ℕ)
    (evs : List PutEvent) :
    ∃ s', PutHead len (if i % 65536 = k then k + 1 else k) s' ∧
      (put_data buf len s (⟨true, .got (ack_packet i) port⟩ :: evs)).data.map Sent.data =
        data_packet (firstBytes buf len) k :: (put_data buf len s' evs).data.map Sent.data := by
  have htotal := h.total
  have hleft : s.total < len := by omega
  have hlen : ¬ min TFTP_BUF_SIZE (len - s.total) + TFTP_HDR_SIZE = 4 := by
    simp only [TFTP_BUF_SIZE, TFTP_HDR_SIZE]
    omega
  have hdata : min TFTP_BUF_SIZE (len - s.total) + TFTP_HDR_SIZE - 4 =
      min TFTP_BUF_SIZE (len - s.total) := Nat.add_sub_cancel ..
  rw [put_data, if_neg (not_not.mpr hleft.le)]
  simp only [h.packet, Bool.not_true, Bool.false_eq_true, if_false, if_neg hlen, hdata,
    wait_ack_packet, (be16_ack_packet _ i).2]
  refine ⟨_, ?_, rfl⟩
  simp only [h.number]
  split
  · exact PutHead.next (h.same ⟨rfl, h.number.symm, rfl⟩) hleft
  · exact h.same ⟨rfl, h.number.symm, rfl⟩

/-- **The packets when acknowledgements come in order**: no block behind 65536. -/
theorem put_data_in_order (port n : ℕ) (last : PutEvent) (hj : 0 < j)
    (h : PutHead len (min j 65536) s) (hmore : 512 * (j + n) < len + 1024) :
    (put_data buf len s (ack_events port j n ++ [last])).data.map Sent.data =
      (List.range' j (n + 1)).map fun i => data_packet (firstBytes buf len) (min i 65536) := by
  induction n generalizing s j with
  | zero => exact put_data_last h last
  | succ n ih =>
    have hevents : ack_events port j (n + 1) ++ [last] =
        ⟨true, .got (ack_packet j) port⟩ :: (ack_events port (j + 1) n ++ [last]) := by
      simp [ack_events, List.range'_succ]
    obtain ⟨s', hs', hpackets⟩ := put_data_acked h (by omega) j port
      (ack_events port (j + 1) n ++ [last])
    have hnext : (if j % 65536 = min j 65536 then min j 65536 + 1 else min j 65536) =
        min (j + 1) 65536 := by
      split <;> omega
    rw [hnext] at hs'
    rw [hevents, hpackets, ih (Nat.succ_pos j) hs' (by omega)]
    rfl

theorem put_run_packets (t : PutTransfer k) :
    t.packets = (List.range' 1 (k + 2)).map fun i =>
      data_packet (firstBytes t.buf t.len) (min i 65536) := by
  obtain ⟨filename, tftp, buf, len, port, last, hmore⟩ := t
  have hevents : ack_events port 0 (k + 2) ++ [last] =
      ⟨true, .got (ack_packet 0) port⟩ :: (ack_events port 1 (k + 1) ++ [last]) := by
    simp [ack_events, List.range'_succ]
  simp only [PutTransfer.packets, hevents, tftpc_put, put_request, Bool.not_true,
    Bool.false_eq_true, if_false, wait_ack_packet]
  refine put_data_in_order port (k + 1) last Nat.one_pos ⟨rfl, Nat.one_pos, ?_, rfl, ?_⟩ (by omega)
  · simp
  · unfold put_num
    omega

theorem put_accepts_iff (t : PutTransfer k) : t.Accepts ↔ k < 65535 := by
  rw [PutTransfer.Accepts, put_run_packets]
  constructor
  · intro h
    by_contra hk
    -- block 65537 is not sent: block 65536 is sent again
    have hmem : 65537 ∈ List.range' 1 (k + 2) := by
      rw [List.mem_range'_1]
      omega
    exact data_packet_ne_next _ 65536 (List.map_inj_left.mp h 65537 hmem)
  · intro hk
    apply List.map_inj_left.mpr
    intro i hi
    rw [List.mem_range'_1] at hi
    rw [min_eq_left (by omega)]

end Put

/-- **Block `k + 1` is taken over by `tftpc_get`, and its acknowledgement by `tftpc_put`,
exactly when** there are fewer than 65535 blocks in front of it. -/
theorem tftp_block_accepted_iff (k : ℕ) (get : GetTransfer k) (put : PutTransfer k) :
    (get.Accepts ↔ k < 65535) ∧ (put.Accepts ↔ k < 65535) :=
  ⟨get_accepts_iff get, put_accepts_iff put⟩

/-- A file of 32 MB, to be received. -/
def large_get : GetTransfer 65535 where
  filename := []
  tftp := fun _ => 0
  buf := fun _ => 0
  file := List.replicate (512 * 65536) 0
  len := 512 * 65536
  port := 69
  full := by
    rw [List.length_replicate]
    omega
  fits := by
    rw [List.length_replicate]
    omega
  room := by omega

/-- A file of 32 MB, to be sent. -/
def large_put : PutTransfer 65535 where
  filename := []
  tftp := fun _ => 0
  buf := fun _ => 0
  len := 512 * 65536
  port := 69
  last := ⟨true, .got [] 69⟩
  more := by omega

/-- Neither block 65536, which has the number 0, nor its acknowledgement is accepted. -/
theorem tftp_block_zero_refused : ¬ large_get.Accepts ∧ ¬ large_put.Accepts := by
  rw [get_accepts_iff, put_accepts_iff]
  exact ⟨lt_irrefl _, lt_irrefl _⟩

end CsBoot.Net
