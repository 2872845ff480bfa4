/-
Blocks as `src/src/Xmodem/Xmodem.c` takes them from the console: `Xmodem_get_header`, and
`Xmodem_crc16` of `src/src/Xmodem/Xmodem_crc16.c`.

The console is what `Xmodem_getc` finds there, call after call: a character, or none for
as long as it waits. What is printed is kept. The counters of the statistics are left out.

A block of the protocol with its checksum is accepted (`get_header_block`), with the CRC
of the polynomial x^16 + x^12 + x^5 + 1 taken bit by bit.
-/
import Mathlib.Data.UInt
import CsBoot.Lib.Crc

set_option autoImplicit false

namespace CsBoot.Xmodem

/-! ## `Xmodem_crc16` -/

/-- `crc16_tbl` -/
def crc16_tbl : List UInt16 :=
  [0x0000, 0x1021, 0x2042, 0x3063, 0x4084, 0x50a5, 0x60c6, 0x70e7,
    0x8108, 0x9129, 0xa14a, 0xb16b, 0xc18c, 0xd1ad, 0xe1ce, 0xf1ef,
    0x1231, 0x0210, 0x3273, 0x2252, 0x52b5, 0x4294, 0x72f7, 0x62d6,
    0x9339, 0x8318, 0xb37b, 0xa35a, 0xd3bd, 0xc39c, 0xf3ff, 0xe3de,
    0x2462, 0x3443, 0x0420, 0x1401, 0x64e6, 0x74c7, 0x44a4, 0x5485,
    0xa56a, 0xb54b, 0x8528, 0x9509, 0xe5ee, 0xf5cf, 0xc5ac, 0xd58d,
    0x3653, 0x2672, 0x1611, 0x0630, 0x76d7, 0x66f6, 0x5695, 0x46b4,
    0xb75b, 0xa77a, 0x9719, 0x8738, 0xf7df, 0xe7fe, 0xd79d, 0xc7bc,
    0x48c4, 0x58e5, 0x6886, 0x78a7, 0x0840, 0x1861, 0x2802, 0x3823,
    0xc9cc, 0xd9ed, 0xe98e, 0xf9af, 0x8948, 0x9969, 0xa90a, 0xb92b,
    0x5af5, 0x4ad4, 0x7ab7, 0x6a96, 0x1a71, 0x0a50, 0x3a33, 0x2a12,
    0xdbfd, 0xcbdc, 0xfbbf, 0xeb9e, 0x9b79, 0x8b58, 0xbb3b, 0xab1a,
    0x6ca6, 0x7c87, 0x4ce4, 0x5cc5, 0x2c22, 0x3c03, 0x0c60, 0x1c41,
    0xedae, 0xfd8f, 0xcdec, 0xddcd, 0xad2a, 0xbd0b, 0x8d68, 0x9d49,
    0x7e97, 0x6eb6, 0x5ed5, 0x4ef4, 0x3e13, 0x2e32, 0x1e51, 0x0e70,
    0xff9f, 0xefbe, 0xdfdd, 0xcffc, 0xbf1b, 0xaf3a, 0x9f59, 0x8f78,
    0x9188, 0x81a9, 0xb1ca, 0xa1eb, 0xd10c, 0xc12d, 0xf14e, 0xe16f,
    0x1080, 0x00a1, 0x30c2, 0x20e3, 0x5004, 0x4025, 0x7046, 0x6067,
    0x83b9, 0x9398, 0xa3fb, 0xb3da, 0xc33d, 0xd31c, 0xe37f, 0xf35e,
    0x02b1, 0x1290, 0x22f3, 0x32d2, 0x4235, 0x5214, 0x6277, 0x7256,
    0xb5ea, 0xa5cb, 0x95a8, 0x8589, 0xf56e, 0xe54f, 0xd52c, 0xc50d,
    0x34e2, 0x24c3, 0x14a0, 0x0481, 0x7466, 0x6447, 0x5424, 0x4405,
    0xa7db, 0xb7fa, 0x8799, 0x97b8, 0xe75f, 0xf77e, 0xc71d, 0xd73c,
    0x26d3, 0x36f2, 0x0691, 0x16b0, 0x6657, 0x7676, 0x4615, 0x5634,
    0xd94c, 0xc96d, 0xf90e, 0xe92f, 0x99c8, 0x89e9, 0xb98a, 0xa9ab,
    0x5844, 0x4865, 0x7806, 0x6827, 0x18c0, 0x08e1, 0x3882, 0x28a3,
    0xcb7d, 0xdb5c, 0xeb3f, 0xfb1e, 0x8bf9, 0x9bd8, 0xabbb, 0xbb9a,
    0x4a75, 0x5a54, 0x6a37, 0x7a16, 0x0af1, 0x1ad0, 0x2ab3, 0x3a92,
    0xfd2e, 0xed0f, 0xdd6c, 0xcd4d, 0xbdaa, 0xad8b, 0x9de8, 0x8dc9,
    0x7c26, 0x6c07, 0x5c64, 0x4c45, 0x3ca2, 0x2c83, 0x1ce0, 0x0cc1,
    0xef1f, 0xff3e, 0xcf5d, 0xdf7c, 0xaf9b, 0xbfba, 0x8fd9, 0x9ff8,
    0x6e17, 0x7e36, 0x4e55, 0x5e74, 0x2e93, 0x3eb2, 0x0ed1, 0x1ef0]

/-- `Xmodem_crc16`: the checksum after `len` bytes. -/
def Xmodem_crc16 (buf : ℕ → UInt8) : ℕ → UInt16
  | 0 => 0
  | len + 1 =>
    let sum := Xmodem_crc16 buf len
    crc16_tbl.getD ((sum >>> 8 ^^^ (buf len).toUInt16) &&& 0xff).toNat 0 ^^^ sum <<< 8

/-- The polynomial. -/
def CCITT : BitVec 16 := 0x1021

/-- The checksum that the protocol asks for. -/
def crc_ccitt (data : List UInt8) : UInt16 :=
  ⟨data.foldl (fun c b => Crc.feed (n := 8) CCITT c b.toBitVec) 0⟩

/-- The table is that of the polynomial. -/
theorem crc16_tbl_eq : ∀ i : Fin 256,
    (crc16_tbl.getD i 0).toBitVec = Crc.steps (n := 8) CCITT 8 (Crc.top (BitVec.ofFin i)) := by
  decide +kernel

/-- A byte more. -/
theorem crc_ccitt_append (data : List UInt8) (b : UInt8) :
    crc_ccitt (data ++ [b]) =
      ⟨Crc.feed (n := 8) CCITT (crc_ccitt data).toBitVec b.toBitVec⟩ := by
  rw [crc_ccitt, List.foldl_append]
  rfl

theorem crc16_index (c : UInt16) (b : UInt8) :
    ((c >>> 8 ^^^ b.toUInt16) &&& 0xff).toNat =
      ((c.toBitVec >>> 8).setWidth 8 ^^^ b.toBitVec).toNat := by
  have hc := c.toNat_lt
  have hb := b.toNat_lt
  have hmask : (255 : ℕ) = 2 ^ 8 - 1 := rfl
  simp only [UInt16.toNat_and, UInt16.toNat_xor, UInt16.toNat_shiftRight, UInt8.toNat_toUInt16,
    BitVec.toNat_xor, BitVec.toNat_setWidth, BitVec.toNat_ushiftRight, UInt16.toNat_toBitVec,
    UInt8.toNat_toBitVec, UInt16.reduceToNat, hmask, Nat.and_two_pow_sub_one_eq_mod,
    Nat.xor_mod_two_pow, Nat.mod_eq_of_lt hb]

/-- **The checksum by the table** is the checksum bit by bit. -/
theorem Xmodem_crc16_eq (data : List UInt8) (buf : ℕ → UInt8)
    (h : ∀ i (hi : i < data.length), buf i = data[i]) :
    Xmodem_crc16 buf data.length = crc_ccitt data := by
  induction data using List.reverseRecOn with
  | nil => rfl
  | append_singleton data b ih =>
    have hb : buf data.length = b := by
      rw [h _ (by simp)]
      simp
    have hinit := ih fun i hi => by
      rw [h i (by rw [List.length_append]; omega), List.getElem_append_left hi]
    rw [List.length_append, List.length_singleton, Xmodem_crc16, hinit, hb, crc_ccitt_append,
      Crc.feed_table]
    apply UInt16.toBitVec_inj.mp
    simp only [UInt16.toBitVec_xor, UInt16.toBitVec_shiftLeft, crc16_index]
    congr 1
    exact crc16_tbl_eq (((crc_ccitt data).toBitVec >>> 8).setWidth 8 ^^^ b.toBitVec).toFin

/-! ## The console -/

def XMODEM_SOH : UInt8 := 0x01
def XMODEM_STX : UInt8 := 0x02
def XMODEM_EOT : UInt8 := 0x04
def XMODEM_ACK : UInt8 := 0x06
def XMODEM_NAK : UInt8 := 0x15
def XMODEM_CAN : UInt8 := 0x18
def XMODEM_EOF : UInt8 := 0x1a

def XMODEM_MAX_RETRIES_WITH_CRC : ℕ := 30
def XMODEM_MAX_RETRIES : ℕ := XMODEM_MAX_RETRIES_WITH_CRC + 20
def XMODEM_CAN_COUNT : ℕ := 3

def XMODEM_ERR_TIMEOUT : ℤ := -1
def XMODEM_ERR_EOF : ℤ := -2
def XMODEM_ERR_CANCEL : ℤ := -3
def XMODEM_ERR_FRAME : ℤ := -4
def XMODEM_ERR_CHKSUM : ℤ := -5
def XMODEM_ERR_SEQUENCE : ℤ := -6

/-- What `Xmodem_getc` finds, call after call. After the last entry nothing comes. -/
abbrev Line : Type := List (Option UInt8)

/-- `XMODEM_T`, with the console. `bufp` counts from `pkt` on. -/
structure XMODEM_T where
  pkt : ℕ → UInt8
  bufp : ℕ
  blk : UInt8
  cblk : UInt8
  crc1 : UInt8
  crc2 : UInt8
  next_blk : UInt8
  len : ℕ
  crc_mode : Bool
  at_eof : Bool
  tx_ack : Bool
  line : Line
  sent : List UInt8

def Xmodem_putc (x : XMODEM_T) (c : UInt8) : XMODEM_T := { x with sent := x.sent ++ [c] }

def Xmodem_getc (x : XMODEM_T) : Option UInt8 × XMODEM_T :=
  match x.line with
  | [] => (none, x)
  | c :: l => (c, { x with line := l })

/-- What is left when nothing has come for as long as `Xmodem_getc` waits. -/
def flush_line : Line → Line
  | [] => []
  | none :: l => l
  | some _ :: l => flush_line l

def Xmodem_flush (x : XMODEM_T) : XMODEM_T := { x with line := flush_line x.line }

/-! ## `Xmodem_get_header` -/

/-- The wait for the start of a block ends with it, or without it. -/
inductive Start
  | found (c : UInt8) (line : Line)
  | left (stat : ℤ) (line : Line)

/-- The loop `while (!hdr_found)`. -/
def wait_start (can_total hdr_chars : ℕ) : Line → Start
  | [] => .left XMODEM_ERR_TIMEOUT []
  | none :: l => .left XMODEM_ERR_TIMEOUT (flush_line l)
  | some c :: l =>
    if c = XMODEM_SOH ∨ c = XMODEM_STX then .found c l
    else if c = XMODEM_CAN then
      if can_total + 1 = XMODEM_CAN_COUNT then .left XMODEM_ERR_CANCEL l
      else wait_start (can_total + 1) (hdr_chars + 1) l
    else if c = XMODEM_EOT ∧ hdr_chars + 1 = 1 then .left XMODEM_ERR_EOF l
    else wait_start can_total (hdr_chars + 1) l

/-- The loop that fills `pkt`, from `i` on, with `n` characters to come; the flag says
that they have come. -/
def read_pkt (x : XMODEM_T) (i : ℕ) : ℕ → Bool × XMODEM_T
  | 0 => (true, x)
  | n + 1 =>
    match Xmodem_getc x with
    | (none, x) => (false, x)
    | (some c, x) => read_pkt { x with pkt := Function.update x.pkt i c } (i + 1) n

/-- "Validate the message" -/
def validate (x : XMODEM_T) : ℤ × XMODEM_T :=
  if x.blk ^^^ x.cblk ≠ 0xff then (XMODEM_ERR_FRAME, Xmodem_flush x)
  else if x.crc_mode then
    if Xmodem_crc16 x.pkt x.len ≠ x.crc1.toUInt16 <<< 8 ||| x.crc2.toUInt16 then
      (XMODEM_ERR_CHKSUM, x)
    else (0, x)
  else if x.crc1 ≠ ((List.range x.len).map x.pkt).sum then (XMODEM_ERR_CHKSUM, x)
  else (0, x)

/-- "Header found, now read the data" -/
def read_block (x : XMODEM_T) (c : UInt8) : ℤ × XMODEM_T :=
  match Xmodem_getc x with
  | (none, x) => (XMODEM_ERR_CHKSUM, x)
  | (some blk, x) =>
    match Xmodem_getc { x with blk := blk } with
    | (none, x) => (XMODEM_ERR_CHKSUM, x)
    | (some cblk, x) =>
      let len := if c = XMODEM_SOH then 128 else 1024
      match read_pkt { x with cblk := cblk, len := len, bufp := 0 } 0 len with
      | (false, x) => (XMODEM_ERR_TIMEOUT, x)
      | (true, x) =>
        match Xmodem_getc x with
        | (none, x) => (XMODEM_ERR_TIMEOUT, x)
        | (some crc1, x) =>
          if x.crc_mode then
            match Xmodem_getc { x with crc1 := crc1 } with
            | (none, x) => (XMODEM_ERR_TIMEOUT, x)
            | (some crc2, x) => validate { x with crc2 := crc2 }
          else validate { x with crc1 := crc1 }

/-- The acknowledgement of the last block goes out with the wait for the next one. -/
def send_ack (x : XMODEM_T) : XMODEM_T :=
  if x.tx_ack then { Xmodem_putc x XMODEM_ACK with tx_ack := false } else x

def Xmodem_get_header (x : XMODEM_T) : ℤ × XMODEM_T :=
  let x := send_ack x
  match wait_start 0 0 x.line with
  | .found c line => read_block { x with line := line } c
  | .left stat line =>
    (stat, if stat = XMODEM_ERR_EOF then Xmodem_putc { x with line := line } XMODEM_ACK
      else { x with line := line })

/-- What no block changes. -/
def mode (x : XMODEM_T) : UInt8 × Bool × Bool := (x.next_blk, x.crc_mode, x.at_eof)

section Mode

variable {x y : XMODEM_T}

theorem getc_mode {c : Option UInt8} (h : Xmodem_getc x = (c, y)) : mode y = mode x := by
  unfold Xmodem_getc at h
  split at h <;> exact (congrArg (fun r => mode r.2) h).symm

theorem send_ack_line (x : XMODEM_T) : (send_ack x).line = x.line := by
  unfold send_ack
  split <;> rfl

theorem send_ack_mode (x : XMODEM_T) : mode (send_ack x) = mode x := by
  unfold send_ack
  split <;> rfl

theorem read_pkt_mode {i n : ℕ} {b : Bool} (h : read_pkt x i n = (b, y)) : mode y = mode x := by
  induction n generalizing x i with
  | zero => exact (congrArg (fun r => mode r.2) h).symm
  | succ n ih =>
    rw [read_pkt] at h
    split at h
    · have hy := congrArg (fun r => mode r.2) h
      exact hy.symm.trans (getc_mode ‹_›)
    · have hget := getc_mode ‹Xmodem_getc x = _›
      have hrest := ih h
      exact hrest.trans hget

theorem validate_mode (x : XMODEM_T) : mode (validate x).2 = mode x := by
  unfold validate
  split_ifs <;> rfl

theorem read_block_mode (x : XMODEM_T) (c : UInt8) : mode (read_block x c).2 = mode x := by
  unfold read_block
  split
  · exact getc_mode ‹_›
  · have hblk := getc_mode ‹Xmodem_getc x = _›
    split
    · have hcblk := getc_mode ‹Xmodem_getc _ = (none, _)›
      exact hcblk.trans hblk
    · rename_i hc
      have hcblk := (getc_mode hc).trans hblk
      dsimp only
      split
      · have hpkt := read_pkt_mode ‹read_pkt _ _ _ = _›
        exact hpkt.trans hcblk
      · rename_i hp
        have hpkt := (read_pkt_mode hp).trans hcblk
        split
        · exact (getc_mode ‹Xmodem_getc _ = (none, _)›).trans hpkt
        · rename_i hc1
          have hcrc1 := (getc_mode hc1).trans hpkt
          split
          · split
            · have hcrc2 := getc_mode ‹Xmodem_getc _ = (none, _)›
              exact hcrc2.trans hcrc1
            · rename_i hc2
              have hcrc2 := (getc_mode hc2).trans hcrc1
              exact (validate_mode _).trans hcrc2
          · exact (validate_mode _).trans hcrc1

theorem get_header_mode (x : XMODEM_T) : mode (Xmodem_get_header x).2 = mode x := by
  rw [Xmodem_get_header]
  refine Eq.trans ?_ (send_ack_mode x)
  split
  · exact read_block_mode _ _
  · dsimp only
    split_ifs <;> rfl

end Mode

/-! ## What is accepted -/

/-- The data that is left in the buffer. -/
def pending (x : XMODEM_T) : List UInt8 := (List.range x.len).map fun i => x.pkt (x.bufp + i)

/-- A block of the protocol. -/
structure Block where
  data : List UInt8
  size : data.length = 128 ∨ data.length = 1024

/-- What follows the data, with the CRC or with the sum. -/
def check_bytes (crc : Bool) (data : List UInt8) : List UInt8 :=
  if crc then [(crc_ccitt data >>> 8).toUInt8, (crc_ccitt data).toUInt8] else [data.sum]

/-- A block, whatever its numbers and its checksum. -/
def framed (b : Block) (blk cblk : UInt8) (check : List UInt8) : List UInt8 :=
  (if b.data.length = 128 then XMODEM_SOH else XMODEM_STX) :: blk :: cblk :: (b.data ++ check)

/-- The block with the number `k`. -/
def Block.bytes (b : Block) (crc : Bool) (k : UInt8) : List UInt8 :=
  framed b k (0xff ^^^ k) (check_bytes crc b.data)

/-- `pkt` with the characters of a list from `i` on. -/
def put_bytes (pkt : ℕ → UInt8) (i : ℕ) : List UInt8 → ℕ → UInt8
  | [] => pkt
  | c :: cs => put_bytes (Function.update pkt i c) (i + 1) cs

section Accepted

variable {x y : XMODEM_T} {data : List UInt8} {l : Line}

theorem put_bytes_of_lt (pkt : ℕ → UInt8) (data : List UInt8) {i j : ℕ} (hj : j < i) :
    put_bytes pkt i data j = pkt j := by
  induction data generalizing pkt i with
  | nil => rfl
  | cons c cs ih =>
    rw [put_bytes, ih _ (by omega), Function.update_of_ne (by omega)]

theorem put_bytes_get (pkt : ℕ → UInt8) (data : List UInt8) (i : ℕ) {j : ℕ}
    (hj : j < data.length) : put_bytes pkt i data (i + j) = data[j] := by
  induction data generalizing pkt i j with
  | nil => exact absurd hj (Nat.not_lt_zero j)
  | cons c cs ih =>
    rw [put_bytes]
    cases j with
    | zero =>
      rw [put_bytes_of_lt _ _ (by omega)]
      exact Function.update_self ..
    | succ j =>
      have hadd : i + (j + 1) = i + 1 + j := by omega
      rw [hadd, ih]
      rfl

theorem read_pkt_some (x : XMODEM_T) (i : ℕ) (h : x.line = data.map some ++ l) :
    read_pkt x i data.length = (true, { x with pkt := put_bytes x.pkt i data, line := l }) := by
  induction data generalizing x i with
  | nil =>
    simp only [List.map_nil, List.nil_append] at h
    rw [← h]
    rfl
  | cons c cs ih =>
    rw [List.length_cons, read_pkt, Xmodem_getc, h]
    exact ih _ (i + 1) rfl

/-- The buffer with a block as it has come. -/
theorem range_put_bytes (pkt : ℕ → UInt8) (data : List UInt8) :
    (List.range data.length).map (fun i => put_bytes pkt 0 data i) = data := by
  apply List.ext_getElem
  · rw [List.length_map, List.length_range]
  · intro i hi _
    rw [List.length_map, List.length_range] at hi
    rw [List.getElem_map, List.getElem_range]
    have hget := put_bytes_get pkt data 0 hi
    rwa [Nat.zero_add] at hget

/-- Two bytes that are put together. -/
theorem toNat_two_bytes (c1 c2 : UInt8) :
    (c1.toUInt16 <<< 8 ||| c2.toUInt16).toNat = 256 * c1.toNat + c2.toNat := by
  have hc1 := c1.toNat_lt
  have hc2 : c2.toNat < 2 ^ 8 := c2.toNat_lt
  have hmod : 8 % 16 = 8 := rfl
  have hshift : c1.toNat <<< 8 % 2 ^ 16 = c1.toNat <<< 8 := by
    rw [Nat.shiftLeft_eq]
    omega
  simp only [UInt16.toNat_or, UInt16.toNat_shiftLeft, UInt8.toNat_toUInt16, UInt16.reduceToNat]
  rw [hmod, hshift, ← Nat.shiftLeft_add_eq_or_of_lt hc2, Nat.shiftLeft_eq]
  omega

theorem two_bytes_iff (c : UInt16) (c1 c2 : UInt8) :
    c1 = (c >>> 8).toUInt8 ∧ c2 = c.toUInt8 ↔ c = c1.toUInt16 <<< 8 ||| c2.toUInt16 := by
  have hc := c.toNat_lt
  have hc1 := c1.toNat_lt
  have hc2 := c2.toNat_lt
  have hmod : 8 % 16 = 8 := rfl
  have hhigh : c.toNat >>> 8 % 2 ^ 8 = c.toNat / 256 := by
    rw [Nat.shiftRight_eq_div_pow]
    omega
  simp only [← UInt8.toNat_inj, ← UInt16.toNat_inj, toNat_two_bytes, UInt16.toNat_toUInt8,
    UInt16.toNat_shiftRight, UInt16.reduceToNat, hmod, hhigh]
  omega

theorem xor_complement (k : UInt8) : k ^^^ (0xff ^^^ k) = 0xff := by
  rw [UInt8.xor_comm 0xff k, ← UInt8.xor_assoc, UInt8.xor_self, UInt8.zero_xor]

/-- What is in the packet buffer before the tests. -/
structure Taken (x y : XMODEM_T) (blk cblk : UInt8) (data check : List UInt8) (l : Line) :
    Prop where
  blk : y.blk = blk
  cblk : y.cblk = cblk
  len : y.len = data.length
  bufp : y.bufp = 0
  pkt : y.pkt = put_bytes x.pkt 0 data
  check : check = if y.crc_mode then [y.crc1, y.crc2] else [y.crc1]
  line : y.line = l
  mode : mode y = mode x

/-- What a block leaves behind. -/
structure Accepts (x x' : XMODEM_T) (data : List UInt8) (k : UInt8) (l : Line) : Prop where
  blk : x'.blk = k
  line : x'.line = l
  pending : pending x' = data
  mode : mode x' = mode x

section Validate

variable {blk cblk : UInt8} {check : List UInt8}

theorem Taken.byte (h : Taken x y blk cblk data check l) (i : ℕ) (hi : i < data.length) :
    y.pkt i = data[i] := by
  have hget := put_bytes_get x.pkt data 0 hi
  rwa [Nat.zero_add, ← h.pkt] at hget

/-- The test of the checksum is that of the bytes behind the data. -/
theorem Taken.checked (h : Taken x y blk cblk data check l) :
    check = check_bytes y.crc_mode data ↔
      if y.crc_mode then Xmodem_crc16 y.pkt y.len = y.crc1.toUInt16 <<< 8 ||| y.crc2.toUInt16
      else y.crc1 = ((List.range y.len).map y.pkt).sum := by
  rw [h.check, h.len, check_bytes]
  cases y.crc_mode with
  | true =>
    simp only [if_true, List.cons.injEq, and_true]
    rw [Xmodem_crc16_eq data y.pkt h.byte, ← two_bytes_iff]
  | false =>
    simp only [Bool.false_eq_true, if_false, List.cons.injEq, and_true]
    rw [h.pkt, range_put_bytes]

/-- A block whose number and checksum are right is accepted, -/
theorem validate_right (h : Taken x y blk cblk data check l) (hblk : blk ^^^ cblk = 0xff)
    (hcheck : check = check_bytes y.crc_mode data) : validate y = (0, y) := by
  have htest := h.checked.mp hcheck
  rw [validate, h.blk, h.cblk, if_neg (not_not.mpr hblk)]
  cases hmode : y.crc_mode with
  | true =>
    rw [hmode, if_pos rfl] at htest
    rw [if_pos rfl, if_neg (not_not.mpr htest)]
  | false =>
    rw [hmode, if_neg Bool.false_ne_true] at htest
    rw [if_neg Bool.false_ne_true, if_neg (not_not.mpr htest)]

end Validate

/-- The first character of a block says how long it is. -/
theorem start_of_block (b : Block) :
    let c := if b.data.length = 128 then XMODEM_SOH else XMODEM_STX
    (c = XMODEM_SOH ∨ c = XMODEM_STX) ∧
      (if c = XMODEM_SOH then 128 else 1024) = b.data.length := by
  rcases b.size with h | h <;> rw [h] <;> decide

/-- What follows the first character is taken in and tested. -/
theorem read_block_taken (x : XMODEM_T) (b : Block) (blk cblk : UInt8) {check : List UInt8}
    (hcheck : check.length = (check_bytes x.crc_mode b.data).length)
    (h : x.line = some blk :: some cblk :: (b.data.map some ++ (check.map some ++ l))) :
    ∃ y, read_block x (if b.data.length = 128 then XMODEM_SOH else XMODEM_STX) = validate y ∧
      Taken x y blk cblk b.data check l := by
  obtain ⟨-, hlen⟩ := start_of_block b
  simp only [read_block, Xmodem_getc, h, hlen]
  rw [read_pkt_some _ 0 rfl]
  cases hmode : x.crc_mode with
  | true =>
    rw [hmode] at hcheck
    obtain ⟨crc1, crc2, rfl⟩ := List.length_eq_two.mp hcheck
    simp only [if_true, List.map_cons, List.map_nil, List.cons_append, List.nil_append]
    refine ⟨_, rfl, rfl, rfl, rfl, rfl, rfl, ?_, rfl, ?_⟩
    · rw [if_pos rfl]
    · rw [mode, mode, hmode]
  | false =>
    rw [hmode] at hcheck
    obtain ⟨crc1, rfl⟩ := List.length_eq_one_iff.mp hcheck
    simp only [Bool.false_eq_true, if_false, List.map_cons, List.map_nil, List.cons_append,
      List.nil_append]
    refine ⟨_, rfl, rfl, rfl, rfl, rfl, rfl, ?_, rfl, ?_⟩
    · rw [if_neg Bool.false_ne_true]
    · rw [mode, mode, hmode]

theorem get_header_framed (x : XMODEM_T) (b : Block) (blk cblk : UInt8) {check : List UInt8}
    (hcheck : check.length = (check_bytes x.crc_mode b.data).length)
    (h : x.line = (framed b blk cblk check).map some ++ l) :
    ∃ y, Xmodem_get_header x = validate y ∧ Taken (send_ack x) y blk cblk b.data check l := by
  obtain ⟨hstart, -⟩ := start_of_block b
  have hmode : (send_ack x).crc_mode = x.crc_mode :=
    congrArg (fun m => m.2.1) (send_ack_mode x)
  simp only [framed, List.map_cons, List.map_append, List.cons_append, List.append_assoc] at h
  obtain ⟨y, hy, htaken⟩ := read_block_taken (l := l)
    { send_ack x with line := some blk :: some cblk ::
      (b.data.map some ++ (check.map some ++ l)) } b blk cblk (hmode.symm ▸ hcheck) rfl
  refine ⟨y, ?_, htaken.blk, htaken.cblk, htaken.len, htaken.bufp, htaken.pkt, htaken.check,
    htaken.line, htaken.mode⟩
  rw [← hy, Xmodem_get_header]
  simp only [send_ack_line, h, wait_start, if_pos hstart]

theorem Taken.crc_mode {blk cblk : UInt8} {check : List UInt8}
    (h : Taken (send_ack x) y blk cblk data check l) : y.crc_mode = x.crc_mode :=
  congrArg (fun m => m.2.1) (h.mode.trans (send_ack_mode x))

/-- **A block of the protocol is accepted.** -/
theorem get_header_block (x : XMODEM_T) (b : Block) (k : UInt8)
    (h : x.line = (b.bytes x.crc_mode k).map some ++ l) :
    ∃ x', Xmodem_get_header x = (0, x') ∧ Accepts x x' b.data k l := by
  obtain ⟨y, hy, htaken⟩ := get_header_framed x b k (0xff ^^^ k) rfl h
  rw [← htaken.crc_mode] at htaken
  refine ⟨y, hy.trans (validate_right htaken (xor_complement k) rfl), htaken.blk, htaken.line, ?_,
    htaken.mode.trans (send_ack_mode x)⟩
  rw [pending, htaken.len, htaken.bufp, htaken.pkt]
  simp only [Nat.zero_add, range_put_bytes]

/-- The end of the transmission. -/
theorem get_header_eot (h : x.line = some XMODEM_EOT :: l) :
    Xmodem_get_header x =
      (XMODEM_ERR_EOF, Xmodem_putc { send_ack x with line := l } XMODEM_ACK) := by
  have hwait : wait_start 0 0 (some XMODEM_EOT :: l) = .left XMODEM_ERR_EOF l := rfl
  simp only [Xmodem_get_header, send_ack_line, h, hwait, if_true]

end Accepted

end CsBoot.Xmodem
