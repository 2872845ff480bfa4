/-
`Xmodem_open` and `Xmodem_read` of `src/src/Xmodem/Xmodem.c`.

`Xmodem_open` waits for a first block, which stays in the packet buffer. `Xmodem_read`
copies what is in the buffer, and when it is empty makes up to five tries to get the next
block. A block that is the next one loses the pad characters at its end when there are
three or more; one that has come before is acknowledged and counts as a try. When the
last try was such a block, the loop ends as it does with a new one, and what is in the
buffer is copied once more.

`stat` and `len` after an error, which nothing reads again, are left out.
-/
import CsBoot.Xmodem.Packet
import CsBoot.Lib.Loop

set_option autoImplicit false

namespace CsBoot.Xmodem

/-! ## `Xmodem_open` -/

/-- `xmodem_info` at the start, with a console. -/
def Xmodem_init (line : Line) : XMODEM_T where
  pkt := fun _ => 0
  bufp := 0
  blk := 0
  cblk := 0
  crc1 := 0
  crc2 := 0
  next_blk := 0
  len := 0
  crc_mode := true
  at_eof := false
  tx_ack := false
  line := line
  sent := []

/-- The character that asks for a block. -/
def ask (x : XMODEM_T) : XMODEM_T := Xmodem_putc x (if x.crc_mode then 'C'.toUInt8 else XMODEM_NAK)

/-- The loop of `Xmodem_open`. -/
def open_loop : ℕ → ℤ → ℤ → XMODEM_T → Except ℤ XMODEM_T
  | 0, stat, _, _ => .error stat
  | retries + 1, _, crc_retries, x =>
    let (stat, x) := Xmodem_get_header x
    if stat = 0 then .ok { x with next_blk := x.blk + 1, tx_ack := true }
    else if stat = XMODEM_ERR_TIMEOUT then
      let crc_retries := crc_retries - 1
      let x := if crc_retries ≤ 0 then { x with crc_mode := false } else x
      open_loop retries stat crc_retries (ask x)
    else .error stat

def Xmodem_open (line : Line) : Except ℤ XMODEM_T :=
  open_loop XMODEM_MAX_RETRIES XMODEM_ERR_TIMEOUT XMODEM_MAX_RETRIES_WITH_CRC (Xmodem_init line)

/-! ## `Xmodem_read` -/

/-- The loop that takes pad characters off the end of `len` bytes. -/
def strip_loop (bufp : ℕ → UInt8) : ℕ → ℕ
  | 0 => 0
  | len + 1 => if bufp len = XMODEM_EOF then strip_loop bufp len else len + 1

/-- "This code tries to detect and remove them" -/
def strip (x : XMODEM_T) : XMODEM_T :=
  let bufp := fun i => x.pkt (x.bufp + i)
  if bufp (x.len - 1) = XMODEM_EOF ∧ bufp (x.len - 2) = XMODEM_EOF ∧
      bufp (x.len - 3) = XMODEM_EOF then
    { x with len := strip_loop bufp x.len }
  else x

/-- The loop `while (retries-- > 0)`. -/
def next_packet : ℕ → ℤ → XMODEM_T → ℤ × XMODEM_T
  | 0, stat, x => (stat, x)
  | retries + 1, _, x =>
    let (stat, x) := Xmodem_get_header x
    if stat = 0 then
      if x.blk = x.next_blk then (0, strip { x with tx_ack := true, next_blk := x.next_blk + 1 })
      else if x.blk = x.next_blk - 1 then next_packet retries 0 (Xmodem_putc x XMODEM_ACK)
      else next_packet retries XMODEM_ERR_SEQUENCE (ask x)
    else if stat = XMODEM_ERR_EOF then
      (XMODEM_ERR_EOF, { Xmodem_putc x XMODEM_ACK with at_eof := true })
    else if stat ≠ XMODEM_ERR_TIMEOUT then (stat, x)
    else next_packet retries stat (ask x)

/-- The variables of `Xmodem_read`. `buf` moves along the buffer as `total`. -/
structure ReadState where
  xmodem : XMODEM_T
  buf : ℕ → UInt8
  total : ℕ
  size : ℕ

/-- What `Xmodem_read` leaves in the buffer, what it returns, and `err` when it is set. -/
structure Received where
  buf : ℕ → UInt8
  total : ℕ
  err : Option ℤ

/-- `memcpy` to `off`. -/
def memcpy (buf : ℕ → UInt8) (off : ℕ) (src : ℕ → UInt8) (n : ℕ) : ℕ → UInt8 := fun i =>
  if off ≤ i ∧ i < off + n then src (i - off) else buf i

/-- "Don't "read" data from the XMODEM_EOF protocol package" -/
def copy_packet (s : ReadState) : ReadState :=
  if s.xmodem.at_eof then s
  else
    let len := min s.xmodem.len s.size
    { xmodem := { s.xmodem with len := s.xmodem.len - len, bufp := s.xmodem.bufp + len }
      buf := memcpy s.buf s.total (fun i => s.xmodem.pkt (s.xmodem.bufp + i)) len
      total := s.total + len
      size := s.size - len }

/-- What a pass does when the tries are over. -/
def after_packet (s : ReadState) (p : ℤ × XMODEM_T) : ReadState ⊕ Received :=
  if p.1 < 0 then .inr ⟨s.buf, s.total, some p.1⟩ else .inl (copy_packet { s with xmodem := p.2 })

/-- A pass of the loop of `Xmodem_read`. -/
def read_pass (s : ReadState) : ReadState ⊕ Received :=
  if s.xmodem.at_eof ∨ s.size = 0 then .inr ⟨s.buf, s.total, none⟩
  else if s.xmodem.len = 0 then after_packet s (next_packet 5 XMODEM_ERR_CANCEL s.xmodem)
  else .inl (copy_packet s)

/-- `Xmodem_read` returns `r`. -/
def Xmodem_read (x : XMODEM_T) (buf : ℕ → UInt8) (size : ℕ) (r : Received) : Prop :=
  Loop.Returns read_pass ⟨x, buf, 0, size⟩ r

/-! ## Where `Xmodem_read` writes -/

section Bounds

variable {s s' : ReadState} {r : Received} {x : XMODEM_T} {buf : ℕ → UInt8} {size : ℕ}

/-- Nothing behind the first `size` bytes has changed. -/
structure Inside (buf : ℕ → UInt8) (size : ℕ) (buf' : ℕ → UInt8) (total : ℕ) : Prop where
  total_le : total ≤ size
  frame : ∀ i, size ≤ i → buf' i = buf i

/-- A pass writes what is left of `size` at most. -/
theorem copy_packet_inside (h : Inside buf size s.buf s.total) (hsize : s.total + s.size = size) :
    Inside buf size (copy_packet s).buf (copy_packet s).total ∧
      (copy_packet s).total + (copy_packet s).size = size := by
  unfold copy_packet
  split
  · exact ⟨h, hsize⟩
  · dsimp only
    refine ⟨⟨by omega, fun i hi => ?_⟩, by omega⟩
    rw [memcpy, if_neg (by omega)]
    exact h.frame i hi

/-- **Never more than `size` bytes are written.** -/
theorem Xmodem_read_inside (h : Xmodem_read x buf size r) : Inside buf size r.buf r.total := by
  refine Loop.Returns.induct (R := fun r => Inside buf size r.buf r.total)
    (I := fun s => Inside buf size s.buf s.total ∧ s.total + s.size = size) h
    ⟨⟨Nat.zero_le _, fun _ _ => rfl⟩, Nat.zero_add _⟩ ?_ ?_
  · intro s s' hs hI
    unfold read_pass after_packet at hs
    split_ifs at hs <;> cases hs
    · exact copy_packet_inside hI.1 hI.2
    · exact copy_packet_inside hI.1 hI.2
  · intro s r hs hI
    unfold read_pass after_packet at hs
    split_ifs at hs <;> cases hs
    · exact hI.1
    · exact hI.1

end Bounds

end CsBoot.Xmodem
