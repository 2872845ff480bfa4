/-
A file from a sender that keeps to the protocol, through `Xmodem_open` and `Xmodem_read`.

The blocks come in order, numbered from 1. In front of each of them, and in front of the
end of the transmission, there may be copies of the block before, whose acknowledgement
was lost, and whatever is not accepted: damaged blocks, or none. How the line is cut into
these is left open, and what is not accepted is any piece of it on which
`Xmodem_get_header` fails.

What is delivered is the first block as it is, each of the others without the pad
characters at its end, and once more what is in the buffer for every fifth try that does
not bring the next block (`ends_out`).
-/
import CsBoot.Xmodem.Read
import Mathlib.Data.List.DropRight

set_option autoImplicit false

namespace CsBoot.Xmodem

/-! ## Pad characters -/

/-- The number of pad characters at the end. -/
def pads (data : List UInt8) : ℕ := (data.rtakeWhile (· = XMODEM_EOF)).length

/-- The data without them, if there are three or more. -/
def strip_pads (data : List UInt8) : List UInt8 :=
  if 3 ≤ pads data then data.rdropWhile (· = XMODEM_EOF) else data

section Pads

variable {x : XMODEM_T} {data : List UInt8}

theorem strip_pads_append (data : List UInt8) : ∃ tail, strip_pads data ++ tail = data ∧
    tail.length = if 3 ≤ pads data then pads data else 0 := by
  unfold strip_pads
  split
  · exact ⟨_, List.rdropWhile_append_rtakeWhile .., rfl⟩
  · exact ⟨[], List.append_nil _, rfl⟩

theorem strip_loop_eq (f : ℕ → UInt8) (n : ℕ) :
    (List.range (strip_loop f n)).map f = ((List.range n).map f).rdropWhile (· = XMODEM_EOF) := by
  induction n with
  | zero => rfl
  | succ n ih =>
    rw [strip_loop, List.range_succ, List.map_append, List.map_singleton, List.rdropWhile_concat]
    by_cases hpad : f n = XMODEM_EOF
    · rw [if_pos hpad, if_pos (decide_eq_true hpad), ih]
    · rw [if_neg hpad, if_neg (by simpa using hpad), List.range_succ, List.map_append,
        List.map_singleton]

theorem pads_concat (data : List UInt8) (c : UInt8) :
    pads (data ++ [c]) = if c = XMODEM_EOF then pads data + 1 else 0 := by
  unfold pads
  rw [List.rtakeWhile_concat]
  by_cases hc : c = XMODEM_EOF
  · rw [if_pos (decide_eq_true hc), if_pos hc, List.length_append, List.length_singleton]
  · rw [if_neg (by simpa using hc), if_neg hc, List.length_nil]

/-- The three tests see three pad characters. -/
theorem three_pads_iff (f : ℕ → UInt8) (n : ℕ) :
    3 ≤ pads ((List.range (n + 3)).map f) ↔
      f (n + 2) = XMODEM_EOF ∧ f (n + 1) = XMODEM_EOF ∧ f n = XMODEM_EOF := by
  simp only [List.range_succ, List.map_append, List.map_singleton, pads_concat]
  split_ifs <;> simp_all

/-- What `strip` leaves. -/
theorem pending_strip (x : XMODEM_T) (hlen : 3 ≤ x.len) :
    pending (strip x) = strip_pads (pending x) := by
  obtain ⟨n, hn⟩ : ∃ n, x.len = n + 3 := ⟨x.len - 3, by omega⟩
  have htests := three_pads_iff (fun i => x.pkt (x.bufp + i)) n
  have hpend : pending x = (List.range (n + 3)).map fun i => x.pkt (x.bufp + i) := by
    rw [pending, hn]
  simp only [strip, hn, show n + 3 - 1 = n + 2 from rfl, show n + 3 - 2 = n + 1 from rfl,
    show n + 3 - 3 = n from rfl]
  rw [hpend, strip_pads]
  by_cases hpads : 3 ≤ pads ((List.range (n + 3)).map fun i => x.pkt (x.bufp + i))
  · rw [if_pos hpads, if_pos (htests.mp hpads)]
    exact strip_loop_eq _ _
  · rw [if_neg hpads, if_neg fun h => hpads (htests.mpr h), hpend]

theorem strip_mode (x : XMODEM_T) : mode (strip x) = mode x := by
  unfold strip
  dsimp only
  split <;> rfl

theorem strip_line (x : XMODEM_T) : (strip x).line = x.line := by
  unfold strip
  dsimp only
  split <;> rfl

end Pads

/-! ## What a sender sends -/

/-- What is not accepted: no block, and not the end. After a silence the wait goes on
behind it. -/
def Refused (crc : Bool) (d : Line) : Prop :=
  ∀ x l, x.crc_mode = crc → x.line = d ++ l →
    (Xmodem_get_header x).1 < 0 ∧ (Xmodem_get_header x).1 ≠ XMODEM_ERR_EOF ∧
      ((Xmodem_get_header x).1 = XMODEM_ERR_TIMEOUT → (Xmodem_get_header x).2.line = l)

theorem flush_line_some (tossed : List UInt8) (l : Line) :
    flush_line (tossed.map some ++ none :: l) = l := by
  induction tossed with
  | nil => rfl
  | cons c tossed ih => exact ih

/-- Nothing comes, and then for a while something that is thrown away. -/
def silence (tossed : List UInt8) : Line := none :: (tossed.map some ++ [none])

theorem get_header_silence {x : XMODEM_T} {l : Line} {tossed : List UInt8}
    (hline : x.line = silence tossed ++ l) :
    Xmodem_get_header x = (XMODEM_ERR_TIMEOUT, { send_ack x with line := l }) := by
  rw [silence, List.cons_append, List.append_assoc, List.singleton_append] at hline
  simp only [Xmodem_get_header, send_ack_line, hline, wait_start, flush_line_some,
    if_neg (show ¬ XMODEM_ERR_TIMEOUT = XMODEM_ERR_EOF by decide)]

theorem silence_refused (crc : Bool) (tossed : List UInt8) : Refused crc (silence tossed) := by
  intro x l _ hline
  rw [get_header_silence hline]
  exact ⟨show XMODEM_ERR_TIMEOUT < 0 by decide,
    show XMODEM_ERR_TIMEOUT ≠ XMODEM_ERR_EOF by decide, fun _ => rfl⟩

/-- What comes between a block and the next: a copy of the block, or what is refused. -/
inductive Idle (crc : Bool)
  | again
  | damaged (d : Line) (h : Refused crc d)

/-- What is on the line after a block `cur` with the number `k`, in front of the next one. -/
def idle_line (crc : Bool) (k : UInt8) (cur : Block) : List (Idle crc) → Line
  | [] => []
  | .again :: idle => (cur.bytes crc k).map some ++ idle_line crc k cur idle
  | .damaged d _ :: idle => d ++ idle_line crc k cur idle

/-- What is on the line after a block `cur` with the number `k`. -/
def rest_line (crc : Bool) (k : UInt8) (cur : Block) :
    List (List (Idle crc) × Block) → List (Idle crc) → Line
  | [], ending => idle_line crc k cur ending ++ [some XMODEM_EOT]
  | (idle, b) :: others, ending =>
    idle_line crc k cur idle ++
      ((b.bytes crc (k + 1)).map some ++ rest_line crc (k + 1) b others ending)

/-- The receiver asks for the CRC as often as this. -/
def crc_asked (tries : ℕ) : Bool := decide (tries < XMODEM_MAX_RETRIES_WITH_CRC)

/-- A transmission: what is refused before the first block, the first block, the others,
each with what comes in front of it, and what comes in front of the end. -/
structure Sending where
  opening : List Line
  refused : ∀ j (h : j < opening.length), Refused (crc_asked j) opening[j]
  first : Block
  others : List (List (Idle (crc_asked opening.length)) × Block)
  ending : List (Idle (crc_asked opening.length))

namespace Sending

/-- What is on the line. -/
def line (s : Sending) : Line :=
  s.opening.flatten ++ ((s.first.bytes (crc_asked s.opening.length) 1).map some ++
    rest_line _ 1 s.first s.others s.ending)

end Sending

/-- The bytes that have been delivered. -/
def Received.out (r : Received) : List UInt8 := (List.range r.total).map r.buf

/-- The file is received up to the end, without another error. -/
def Sending.Ends (s : Sending) (buf : ℕ → UInt8) (size : ℕ) (r : Received) : Prop :=
  ∃ x, Xmodem_open s.line = .ok x ∧ Xmodem_read x buf size r ∧ r.err = some XMODEM_ERR_EOF

/-! ## A try -/

section Tries

variable {x : XMODEM_T} {crc : Bool} {k : UInt8} {b cur : Block} {l d : Line}

theorem mode_eq (h : mode x = (k, crc, false)) :
    x.next_blk = k ∧ x.crc_mode = crc ∧ x.at_eof = false :=
  ⟨congrArg Prod.fst h, congrArg (fun m => m.2.1) h, congrArg (fun m => m.2.2) h⟩

theorem length_pending (x : XMODEM_T) : (pending x).length = x.len := by
  rw [pending, List.length_map, List.length_range]

theorem three_le_block (b : Block) : 3 ≤ b.data.length := by
  rcases b.size with h | h <;> omega

theorem number_ne_next (k : UInt8) : k ≠ k + 1 := by
  intro h
  have hk := k.toNat_lt
  have hone : (1 : UInt8).toNat = 1 := rfl
  have hnat := congrArg UInt8.toNat h
  rw [UInt8.toNat_add, hone] at hnat
  omega

/-- The next block. -/
theorem next_packet_new (n : ℕ) (stat : ℤ) (hline : x.line = (b.bytes crc k).map some ++ l)
    (hmode : mode x = (k, crc, false)) :
    ∃ x', next_packet (n + 1) stat x = (0, x') ∧ pending x' = strip_pads b.data ∧
      mode x' = (k + 1, crc, false) ∧ x'.line = l := by
  obtain ⟨hnext, hcrc, -⟩ := mode_eq hmode
  rw [← hcrc] at hline
  obtain ⟨y, hy, hacc⟩ := get_header_block x b k hline
  have hymode := mode_eq (hacc.mode.trans hmode)
  have hlen : 3 ≤ y.len := by
    rw [← length_pending, hacc.pending]
    exact three_le_block b
  refine ⟨strip { y with tx_ack := true, next_blk := y.next_blk + 1 }, ?_, ?_, ?_, ?_⟩
  · rw [next_packet, hy]
    simp only [if_true]
    rw [if_pos (hacc.blk.trans hymode.1.symm)]
  · refine (pending_strip _ ?_).trans (congrArg strip_pads hacc.pending)
    exact hlen
  · rw [strip_mode]
    simp only [mode, hymode.1, hymode.2.1, hymode.2.2]
  · rw [strip_line]
    exact hacc.line

/-- A copy of the block before. -/
theorem next_packet_again (n : ℕ) (stat : ℤ) (hline : x.line = (cur.bytes crc k).map some ++ l)
    (hmode : mode x = (k + 1, crc, false)) :
    ∃ x', next_packet (n + 1) stat x = next_packet n 0 x' ∧ pending x' = cur.data ∧
      mode x' = (k + 1, crc, false) ∧ x'.line = l := by
  obtain ⟨hnext, hcrc, -⟩ := mode_eq hmode
  rw [← hcrc] at hline
  obtain ⟨y, hy, hacc⟩ := get_header_block x cur k hline
  have hymode := mode_eq (hacc.mode.trans hmode)
  have hne : ¬ y.blk = y.next_blk := by
    rw [hacc.blk, hymode.1]
    exact number_ne_next k
  have hprev : y.blk = y.next_blk - 1 := by
    rw [hacc.blk, hymode.1, UInt8.add_sub_cancel]
  refine ⟨Xmodem_putc y XMODEM_ACK, ?_, hacc.pending, hacc.mode.trans hmode, hacc.line⟩
  rw [next_packet, hy]
  simp only [if_true]
  rw [if_neg hne, if_pos hprev]

/-- What is refused ends the tries with an error, or is a silence and takes up one. -/
theorem next_packet_damaged (n : ℕ) (stat : ℤ) (hd : Refused crc d) (hline : x.line = d ++ l)
    (hmode : mode x = (k, crc, false)) :
    (∃ e x', next_packet (n + 1) stat x = (e, x') ∧ e < 0 ∧ e ≠ XMODEM_ERR_EOF) ∨
      ∃ x', next_packet (n + 1) stat x = next_packet n XMODEM_ERR_TIMEOUT x' ∧
        mode x' = (k, crc, false) ∧ x'.line = l := by
  obtain ⟨-, hcrc, -⟩ := mode_eq hmode
  obtain ⟨hneg, heof, hrest⟩ := hd x l hcrc hline
  have hkeep := get_header_mode x
  rcases hget : Xmodem_get_header x with ⟨e, y⟩
  simp only [hget] at hneg heof hrest hkeep
  rw [next_packet, hget]
  simp only [if_neg hneg.ne, if_neg heof]
  by_cases htime : e = XMODEM_ERR_TIMEOUT
  · subst htime
    rw [if_neg (not_not.mpr rfl)]
    exact .inr ⟨ask y, rfl, hkeep.trans hmode, hrest rfl⟩
  · rw [if_pos htime]
    exact .inl ⟨e, y, rfl, hneg, heof⟩

/-- A silence takes up a try. -/
theorem next_packet_silence (n : ℕ) (stat : ℤ) {tossed : List UInt8}
    (hline : x.line = silence tossed ++ l) (hmode : mode x = (k, crc, false)) :
    ∃ x', next_packet (n + 1) stat x = next_packet n XMODEM_ERR_TIMEOUT x' ∧
      mode x' = (k, crc, false) ∧ x'.line = l := by
  have hget := get_header_silence hline
  have hkeep := get_header_mode x
  rw [hget] at hkeep
  refine ⟨ask { send_ack x with line := l }, ?_, hkeep.trans hmode, rfl⟩
  rw [next_packet, hget]
  rfl

/-- The end. -/
theorem next_packet_eot (n : ℕ) (stat : ℤ) (hline : x.line = some XMODEM_EOT :: l) :
    ∃ x', next_packet (n + 1) stat x = (XMODEM_ERR_EOF, x') := by
  rw [next_packet, get_header_eot hline]
  exact ⟨_, rfl⟩

end Tries

/-! ## A run -/

def ReadState.out (s : ReadState) : List UInt8 := (List.range s.total).map s.buf

/-- `Xmodem_read` returns `r` from the end of the tries on. -/
def Leaves (s : ReadState) (p : ℤ × XMODEM_T) (r : Received) : Prop :=
  match after_packet s p with
  | .inl s' => Loop.Returns read_pass s' r
  | .inr r' => r = r'

section Passes

variable {s : ReadState} {p : ℤ × XMODEM_T} {r : Received} {x : XMODEM_T} {data : List UInt8}
  {crc : Bool} {k : UInt8}

theorem leaves_error (hp : p.1 < 0) : Leaves s p r ↔ r = ⟨s.buf, s.total, some p.1⟩ := by
  rw [Leaves, after_packet, if_pos hp]

theorem leaves_zero : Leaves s (0, x) r ↔
    Loop.Returns read_pass (copy_packet { s with xmodem := x }) r := by
  rw [Leaves, after_packet, if_neg (lt_irrefl _)]

/-- With room left and an empty buffer, a pass tries to get the next block. -/
theorem returns_tries (heof : s.xmodem.at_eof = false) (hsize : s.size ≠ 0)
    (hlen : s.xmodem.len = 0) :
    Loop.Returns read_pass s r ↔ Leaves s (next_packet 5 XMODEM_ERR_CANCEL s.xmodem) r := by
  have hpass : read_pass s = after_packet s (next_packet 5 XMODEM_ERR_CANCEL s.xmodem) := by
    have hgo : ¬ (s.xmodem.at_eof = true ∨ s.size = 0) := by simp [heof, hsize]
    rw [read_pass, if_neg hgo, if_pos hlen]
  rw [Leaves]
  cases hafter : after_packet s (next_packet 5 XMODEM_ERR_CANCEL s.xmodem) with
  | inl s' => exact Loop.returns_again (hpass.trans hafter)
  | inr r' => exact Loop.returns_done (hpass.trans hafter)

/-- Without room it is over. -/
theorem returns_full (hsize : s.size = 0) (h : Loop.Returns read_pass s r) : r.err = none := by
  have hpass : read_pass s = .inr ⟨s.buf, s.total, none⟩ := by
    rw [read_pass, if_pos (.inr hsize)]
  rw [(Loop.returns_done hpass).mp h]

theorem range_memcpy (buf src : ℕ → UInt8) (t n : ℕ) :
    (List.range (t + n)).map (memcpy buf t src n) =
      (List.range t).map buf ++ (List.range n).map src := by
  rw [List.range_add, List.map_append, List.map_map]
  congr 1
  · apply List.map_congr_left
    intro i hi
    rw [List.mem_range] at hi
    rw [memcpy, if_neg (by omega)]
  · apply List.map_congr_left
    intro i hi
    rw [List.mem_range] at hi
    rw [Function.comp_apply, memcpy, if_pos (by omega), Nat.add_sub_cancel_left]

/-- What is in the buffer is copied, and the next tries begin. -/
theorem leaves_pending (hpend : pending x = data) (hmode : mode x = (k, crc, false))
    (hroom : data.length < s.size) :
    ∃ s', s'.out = s.out ++ data ∧ s'.size + data.length = s.size ∧
      mode s'.xmodem = (k, crc, false) ∧ s'.xmodem.line = x.line ∧
      ∀ r, Leaves s (0, x) r ↔ Leaves s' (next_packet 5 XMODEM_ERR_CANCEL s'.xmodem) r := by
  subst hpend
  obtain ⟨-, -, heof⟩ := mode_eq hmode
  rw [length_pending] at hroom ⊢
  have hcopy : copy_packet { s with xmodem := x } =
      { xmodem := { x with len := 0, bufp := x.bufp + x.len }
        buf := memcpy s.buf s.total (fun i => x.pkt (x.bufp + i)) x.len
        total := s.total + x.len
        size := s.size - x.len } := by
    simp only [copy_packet, heof, Bool.false_eq_true, if_false, min_eq_left hroom.le, Nat.sub_self]
  refine ⟨copy_packet { s with xmodem := x }, ?_, ?_, ?_, ?_, fun r => leaves_zero.trans ?_⟩
  · rw [hcopy]
    exact range_memcpy s.buf (fun i => x.pkt (x.bufp + i)) s.total x.len
  · rw [hcopy]
    exact Nat.sub_add_cancel hroom.le
  · rw [hcopy]
    exact hmode
  · rw [hcopy]
  · apply returns_tries
    · rw [hcopy]
      exact heof
    · rw [hcopy]
      exact Nat.sub_ne_zero_of_lt hroom
    · rw [hcopy]

/-- When it fills the room, the end is not waited for. -/
theorem leaves_full (hpend : pending x = data) (hmode : mode x = (k, crc, false))
    (hroom : s.size ≤ data.length) (h : Leaves s (0, x) r) : r.err = none := by
  subst hpend
  obtain ⟨-, -, heof⟩ := mode_eq hmode
  rw [length_pending] at hroom
  refine returns_full ?_ (leaves_zero.mp h)
  simp only [copy_packet, heof, Bool.false_eq_true, if_false, min_eq_right hroom, Nat.sub_self]

end Passes

/-- A block, `n` times. -/
def repeated (cur : Block) (n : ℕ) : List UInt8 := (List.replicate n cur.data).flatten

/-- What is delivered behind a block `cur`: every fifth try in a row without the next
block delivers it once more. -/
def delivered {crc : Bool} (cur : Block) :
    List (List (Idle crc) × Block) → List (Idle crc) → List UInt8
  | [], ending => repeated cur (ending.length / 5)
  | (idle, b) :: others, ending =>
    repeated cur (idle.length / 5) ++ (strip_pads b.data ++ delivered b others ending)

section Run

variable {crc : Bool} {k : UInt8} {cur : Block} {l : Line} {s : ReadState} {r : Received}
  {x : XMODEM_T} {t : ℕ} {stat : ℤ}

/-- After `t` tries in a round, with `l` on the line. -/
structure Trying (crc : Bool) (k : UInt8) (l : Line) (s : ReadState) (x : XMODEM_T) (t : ℕ)
    (stat : ℤ) (r : Received) : Prop where
  tries : t < 5
  mode : mode x = (k, crc, false)
  line : x.line = l
  leaves : Leaves s (next_packet (5 - t) stat x) r

/-- What is between two blocks, in a run that comes to the end of the transmission. -/
theorem idle_run (idle : List (Idle crc))
    (h : Trying crc (k + 1) (idle_line crc k cur idle ++ l) s x t stat r)
    (hr : r.err = some XMODEM_ERR_EOF) :
    ∃ s' x' t' stat', Trying crc (k + 1) l s' x' t' stat' r ∧
      s'.out = s.out ++ repeated cur ((t + idle.length) / 5) := by
  induction idle generalizing s x t stat with
  | nil =>
    refine ⟨s, x, t, stat, h, ?_⟩
    rw [List.length_nil, Nat.add_zero, Nat.div_eq_of_lt h.tries]
    exact (List.append_nil _).symm
  | cons i idle ih =>
    obtain ⟨n, hn⟩ : ∃ n, 5 - t = n + 1 := ⟨4 - t, by have := h.tries; omega⟩
    have hleaves := h.leaves
    rw [hn] at hleaves
    have hlater : t < 4 → 5 - (t + 1) = n ∧ (t + 1 + idle.length) = t + (i :: idle).length := by
      intro ht
      rw [List.length_cons]
      omega
    cases i with
    | again =>
      have hline := h.line
      rw [idle_line, List.append_assoc] at hline
      obtain ⟨y, hy, hpend, hmode, hrest⟩ := next_packet_again n stat hline h.mode
      rw [hy] at hleaves
      by_cases ht : t < 4
      · obtain ⟨hfive, hlen⟩ := hlater ht
        rw [← hlen]
        exact ih ⟨by omega, hmode, hrest, hfive.symm ▸ hleaves⟩
      · -- the fifth try: what is in the buffer is delivered once more
        have ht4 : t = 4 := by have := h.tries; omega
        obtain rfl : n = 0 := by omega
        rw [next_packet] at hleaves
        rcases Nat.lt_or_ge cur.data.length s.size with hroom | hroom
        · obtain ⟨s', hout, -, hmode', hline', hiff⟩ := leaves_pending hpend hmode hroom
          obtain ⟨s'', x'', t'', stat'', htry, hout'⟩ := ih (s := s') (x := s'.xmodem) (t := 0)
            ⟨by omega, hmode', hline'.trans hrest, (hiff r).mp hleaves⟩
          refine ⟨s'', x'', t'', stat'', htry, ?_⟩
          have hdiv : (t + (Idle.again :: idle).length) / 5 = (0 + idle.length) / 5 + 1 := by
            rw [List.length_cons]
            omega
          rw [hout', hout, hdiv, repeated, repeated, List.replicate_succ, List.flatten_cons,
            List.append_assoc]
        · rw [leaves_full hpend hmode hroom hleaves] at hr
          cases hr
    | damaged d hd =>
      have hline := h.line
      rw [idle_line, List.append_assoc] at hline
      rcases next_packet_damaged n stat hd hline h.mode with
        ⟨e, y, hy, hneg, heof⟩ | ⟨y, hy, hmode, hrest⟩
      · rw [hy, leaves_error hneg] at hleaves
        rw [hleaves] at hr
        exact absurd (Option.some.inj hr) heof
      · rw [hy] at hleaves
        by_cases ht : t < 4
        · obtain ⟨hfive, hlen⟩ := hlater ht
          rw [← hlen]
          exact ih ⟨by omega, hmode, hrest, hfive.symm ▸ hleaves⟩
        · obtain rfl : n = 0 := by have := h.tries; omega
          rw [next_packet, leaves_error (show XMODEM_ERR_TIMEOUT < 0 by decide)] at hleaves
          rw [hleaves] at hr
          exact absurd (Option.some.inj hr) (show XMODEM_ERR_TIMEOUT ≠ XMODEM_ERR_EOF by decide)

/-- **The run behind a block**, when it comes to the end of the transmission. -/
theorem rest_run (others : List (List (Idle crc) × Block)) (ending : List (Idle crc))
    (h : Trying crc (k + 1) (rest_line crc k cur others ending) s x 0 stat r)
    (hr : r.err = some XMODEM_ERR_EOF) : r.out = s.out ++ delivered cur others ending := by
  induction others generalizing k cur s x stat with
  | nil =>
    obtain ⟨s', x', t, stat', htry, hout⟩ := idle_run ending h hr
    obtain ⟨n, hn⟩ : ∃ n, 5 - t = n + 1 := ⟨4 - t, by have := htry.tries; omega⟩
    have hleaves := htry.leaves
    obtain ⟨y, hy⟩ := next_packet_eot n stat' htry.line
    rw [hn, hy, leaves_error (show XMODEM_ERR_EOF < 0 by decide)] at hleaves
    rw [hleaves, delivered]
    rw [Nat.zero_add] at hout
    exact hout
  | cons o others ih =>
    obtain ⟨idle, b⟩ := o
    obtain ⟨s', x', t, stat', htry, hout⟩ := idle_run idle h hr
    obtain ⟨n, hn⟩ : ∃ n, 5 - t = n + 1 := ⟨4 - t, by have := htry.tries; omega⟩
    have hleaves := htry.leaves
    obtain ⟨y, hy, hpend, hmode, hrest⟩ := next_packet_new n stat' htry.line
      htry.mode
    rw [hn, hy] at hleaves
    rcases Nat.lt_or_ge (strip_pads b.data).length s'.size with hroom | hroom
    · obtain ⟨s'', hout', -, hmode', hline', hiff⟩ := leaves_pending hpend hmode hroom
      rw [ih (s := s'') (x := s''.xmodem)
        ⟨by omega, hmode', hline'.trans hrest, (hiff r).mp hleaves⟩, hout', hout, delivered,
        Nat.zero_add, List.append_assoc, List.append_assoc]
    · rw [leaves_full hpend hmode hroom hleaves] at hr
      cases hr

end Run

/-! ## From the first character to the last -/

section Whole

variable {s : Sending} {buf : ℕ → UInt8} {size : ℕ} {r : Received}

/-- What is refused in front of the first block, from the `j`-th try on. -/
theorem open_run {opening : List Line} {j n : ℕ} {stat : ℤ} {x x' : XMODEM_T} {crc : Bool}
    {b : Block} {l : Line} {k : UInt8}
    (href : ∀ i (h : i < opening.length), Refused (crc_asked (j + i)) opening[i])
    (hmode : x.crc_mode = crc_asked j ∧ x.at_eof = false)
    (hcrc : crc = crc_asked (j + opening.length))
    (hline : x.line = opening.flatten ++ ((b.bytes crc k).map some ++ l))
    (h : open_loop n stat (XMODEM_MAX_RETRIES_WITH_CRC - j) x = .ok x') :
    pending x' = b.data ∧ mode x' = (k + 1, crc, false) ∧ x'.line = l := by
  induction opening generalizing j n x stat with
  | nil =>
    cases n with
    | zero => cases h
    | succ n =>
      rw [List.length_nil, Nat.add_zero, ← hmode.1] at hcrc
      subst hcrc
      -- the block is accepted in the mode that was asked for last
      obtain ⟨y, hy, hacc⟩ := get_header_block x b k hline
      rw [open_loop, hy] at h
      simp only [if_true] at h
      cases h
      have hsame := mode_eq
        (hacc.mode.trans (congrArg (fun e => (x.next_blk, x.crc_mode, e)) hmode.2))
      exact ⟨hacc.pending, by simp only [mode, hacc.blk, hsame.2.1, hsame.2.2], hacc.line⟩
  | cons d opening ih =>
    cases n with
    | zero => cases h
    | succ n =>
      rw [List.flatten_cons, List.append_assoc] at hline
      obtain ⟨hneg, -, hrest⟩ := href 0 (by rw [List.length_cons]; omega) x _ hmode.1 hline
      have hkeep := get_header_mode x
      rcases hget : Xmodem_get_header x with ⟨e, y⟩
      simp only [hget] at hneg hrest hkeep
      have hy := mode_eq (hkeep.trans (congrArg (fun e => (x.next_blk, x.crc_mode, e)) hmode.2))
      rw [open_loop, hget] at h
      simp only [if_neg hneg.ne] at h
      have hnext : ∀ i (hi : i < opening.length), Refused (crc_asked (j + 1 + i)) opening[i] := by
        intro i hi
        have hr := href (i + 1) (Nat.succ_lt_succ hi)
        rwa [List.getElem_cons_succ, show j + (i + 1) = j + 1 + i by omega] at hr
      have hcount : (XMODEM_MAX_RETRIES_WITH_CRC : ℤ) - j - 1 =
          XMODEM_MAX_RETRIES_WITH_CRC - (j + 1 : ℕ) := by
        push_cast
        ring
      have hlen : crc = crc_asked (j + 1 + opening.length) := by
        rw [hcrc, List.length_cons, show j + (opening.length + 1) = j + 1 + opening.length by omega]
      rw [hcount] at h
      -- after the last try with a CRC, the loop asks for a checksum
      split_ifs at h with htime hlast
      · refine ih (x := ask { y with crc_mode := false }) hnext ⟨?_, hy.2.2⟩ hlen (hrest htime) h
        refine (decide_eq_false ?_).symm
        omega
      · refine ih (x := ask y) hnext ⟨?_, hy.2.2⟩ hlen (hrest htime) h
        refine hy.2.1.trans (hmode.1.trans ?_)
        rw [crc_asked, crc_asked, decide_eq_true (by omega), decide_eq_true (by omega)]

/-- The buffer after `Xmodem_open`, and the first tries of `Xmodem_read`. -/
theorem read_first {x : XMODEM_T} {b : Block} {crc : Bool} {k : UInt8}
    (hpend : pending x = b.data) (hmode : mode x = (k, crc, false)) (hsize : size ≠ 0) :
    Xmodem_read x buf size r ↔ Leaves ⟨x, buf, 0, size⟩ (0, x) r := by
  have hlen : x.len ≠ 0 := by
    have hblock := three_le_block b
    rw [← hpend, length_pending] at hblock
    omega
  have hgo : ¬ (x.at_eof = true ∨ size = 0) := by simp [(mode_eq hmode).2.2, hsize]
  have hpass : read_pass ⟨x, buf, 0, size⟩ = .inl (copy_packet ⟨x, buf, 0, size⟩) := by
    rw [read_pass, if_neg hgo, if_neg hlen]
  exact (Loop.returns_again hpass).trans (leaves_zero (s := ⟨x, buf, 0, size⟩)).symm

/-- **What is delivered**, when the run comes to the end of the transmission. -/
theorem ends_out (h : s.Ends buf size r) :
    r.out = s.first.data ++ delivered s.first s.others s.ending := by
  obtain ⟨x, hopen, hread, hr⟩ := h
  obtain ⟨hpend, hmode, hline⟩ := open_run (j := 0) (x := Xmodem_init s.line) (fun i hi => by
    rw [Nat.zero_add]
    exact s.refused i hi) ⟨rfl, rfl⟩ (by rw [Nat.zero_add]) rfl hopen
  by_cases hsize : size = 0
  · rw [returns_full (s := ⟨x, buf, 0, size⟩) hsize hread] at hr
    cases hr
  have hleaves := (read_first hpend hmode hsize).mp hread
  rcases Nat.lt_or_ge s.first.data.length size with hroom | hroom
  · obtain ⟨s', hout, -, hmode', hline', hiff⟩ :=
      leaves_pending (s := ⟨x, buf, 0, size⟩) hpend hmode hroom
    rw [rest_run s.others s.ending ⟨by omega, hmode', hline'.trans hline, (hiff r).mp hleaves⟩ hr,
      hout]
    rfl
  · rw [leaves_full hpend hmode hroom hleaves] at hr
    cases hr

end Whole

end CsBoot.Xmodem
