/-
The CRC of images and of Xmodem blocks, by its polynomial: `sys_crc16` of
`src/src/sys/sys_crc16.c`, its copy for the host in `src/tools/sl_imghdr/sl_crc16.c`, and
`Xmodem_crc16` of `src/src/Xmodem/Xmodem_crc16.c`.

The polynomial is x^16 + x^12 + x^5 + 1 in all three. `Xmodem_crc16` has its highest bit
first and begins with 0. `sys_crc16` has the lowest bit first, which makes 0x8408 of it, and
begins with what it is given, so that a file may be taken in pieces. The image tool takes
what `fread` gives it, the boot loader all of it at once.
-/
import CsBoot.Lib.CrcReflected
import CsBoot.Ui.ImageHeader
import CsBoot.Xmodem.Packet

set_option autoImplicit false

namespace CsBoot.SlImghdr

open Ui

/-! ## The tool -/

/-- `crc16_tbl` of `sl_crc16.c`. -/
def crc16_tbl : List UInt16 :=
  [0x0000, 0x1189, 0x2312, 0x329b, 0x4624, 0x57ad, 0x6536, 0x74bf,
    0x8c48, 0x9dc1, 0xaf5a, 0xbed3, 0xca6c, 0xdbe5, 0xe97e, 0xf8f7,
    0x1081, 0x0108, 0x3393, 0x221a, 0x56a5, 0x472c, 0x75b7, 0x643e,
    0x9cc9, 0x8d40, 0xbfdb, 0xae52, 0xdaed, 0xcb64, 0xf9ff, 0xe876,
    0x2102, 0x308b, 0x0210, 0x1399, 0x6726, 0x76af, 0x4434, 0x55bd,
    0xad4a, 0xbcc3, 0x8e58, 0x9fd1, 0xeb6e, 0xfae7, 0xc87c, 0xd9f5,
    0x3183, 0x200a, 0x1291, 0x0318, 0x77a7, 0x662e, 0x54b5, 0x453c,
    0xbdcb, 0xac42, 0x9ed9, 0x8f50, 0xfbef, 0xea66, 0xd8fd, 0xc974,
    0x4204, 0x538d, 0x6116, 0x709f, 0x0420, 0x15a9, 0x2732, 0x36bb,
    0xce4c, 0xdfc5, 0xed5e, 0xfcd7, 0x8868, 0x99e1, 0xab7a, 0xbaf3,
    0x5285, 0x430c, 0x7197, 0x601e, 0x14a1, 0x0528, 0x37b3, 0x263a,
    0xdecd, 0xcf44, 0xfddf, 0xec56, 0x98e9, 0x8960, 0xbbfb, 0xaa72,
    0x6306, 0x728f, 0x4014, 0x519d, 0x2522, 0x34ab, 0x0630, 0x17b9,
    0xef4e, 0xfec7, 0xcc5c, 0xddd5, 0xa96a, 0xb8e3, 0x8a78, 0x9bf1,
    0x7387, 0x620e, 0x5095, 0x411c, 0x35a3, 0x242a, 0x16b1, 0x0738,
    0xffcf, 0xee46, 0xdcdd, 0xcd54, 0xb9eb, 0xa862, 0x9af9, 0x8b70,
    0x8408, 0x9581, 0xa71a, 0xb693, 0xc22c, 0xd3a5, 0xe13e, 0xf0b7,
    0x0840, 0x19c9, 0x2b52, 0x3adb, 0x4e64, 0x5fed, 0x6d76, 0x7cff,
    0x9489, 0x8500, 0xb79b, 0xa612, 0xd2ad, 0xc324, 0xf1bf, 0xe036,
    0x18c1, 0x0948, 0x3bd3, 0x2a5a, 0x5ee5, 0x4f6c, 0x7df7, 0x6c7e,
    0xa50a, 0xb483, 0x8618, 0x9791, 0xe32e, 0xf2a7, 0xc03c, 0xd1b5,
    0x2942, 0x38cb, 0x0a50, 0x1bd9, 0x6f66, 0x7eef, 0x4c74, 0x5dfd,
    0xb58b, 0xa402, 0x9699, 0x8710, 0xf3af, 0xe226, 0xd0bd, 0xc134,
    0x39c3, 0x284a, 0x1ad1, 0x0b58, 0x7fe7, 0x6e6e, 0x5cf5, 0x4d7c,
    0xc60c, 0xd785, 0xe51e, 0xf497, 0x8028, 0x91a1, 0xa33a, 0xb2b3,
    0x4a44, 0x5bcd, 0x6956, 0x78df, 0x0c60, 0x1de9, 0x2f72, 0x3efb,
    0xd68d, 0xc704, 0xf59f, 0xe416, 0x90a9, 0x8120, 0xb3bb, 0xa232,
    0x5ac5, 0x4b4c, 0x79d7, 0x685e, 0x1ce1, 0x0d68, 0x3ff3, 0x2e7a,
    0xe70e, 0xf687, 0xc41c, 0xd595, 0xa12a, 0xb0a3, 0x8238, 0x93b1,
    0x6b46, 0x7acf, 0x4854, 0x59dd, 0x2d62, 0x3ceb, 0x0e70, 0x1ff9,
    0xf78f, 0xe606, 0xd49d, 0xc514, 0xb1ab, 0xa022, 0x92b9, 0x8330,
    0x7bc7, 0x6a4e, 0x58d5, 0x495c, 0x3de3, 0x2c6a, 0x1ef1, 0x0f78]

/-- `sys_crc16` of `sl_crc16.c`: the checksum after `len` bytes. -/
def sys_crc16 (crc : UInt16) (datap : ℕ → UInt8) : ℕ → UInt16
  | 0 => crc
  | len + 1 =>
    let crc := sys_crc16 crc datap len
    crc >>> 8 ^^^ crc16_tbl.getD ((crc ^^^ (datap len).toUInt16) &&& 0xff).toNat 0

/-- The first loop of `main`, with what each `fread` gives; behind the last one it gives
nothing. -/
def main_crc16 (crc16 : UInt16) : List (List UInt8) → UInt16
  | [] => crc16
  | buf :: reads =>
    let size := buf.length
    if size = 0 then crc16 else main_crc16 (sys_crc16 crc16 (bufOf buf) size) reads

/-- What a sequence of `fread` can make of a file. -/
structure Reads (file : List UInt8) where
  pieces : List (List UInt8)
  joined : pieces.flatten = file
  sizes : ∀ p ∈ pieces, 0 < p.length ∧ p.length ≤ BUF_SIZE

/-- The two copies of the table are the same. -/
theorem crc16_tbl_eq : crc16_tbl = Ui.crc16_tbl := rfl

/-- The two copies of the function, too. -/
theorem sys_crc16_eq (crc : UInt16) (datap : ℕ → UInt8) (len : ℕ) :
    sys_crc16 crc datap len = Ui.sys_crc16 crc datap len := by
  induction len with
  | zero => rfl
  | succ len ih => rw [sys_crc16, Ui.sys_crc16, ih, crc16_tbl_eq]

end CsBoot.SlImghdr

namespace CsBoot.Ui

/-! ## Bit by bit -/

/-- The polynomial, with its lowest bit first. -/
def CCITT_REFLECTED : BitVec 16 := 0x8408

/-- The checksum of RFC 1662, from a starting value. -/
def crc_reflected (crc : UInt16) (data : List UInt8) : UInt16 :=
  ⟨data.foldl (fun c b => CrcReflected.feed CCITT_REFLECTED c b.toBitVec) crc.toBitVec⟩

theorem crc_reflected_append (crc : UInt16) (data : List UInt8) (b : UInt8) :
    crc_reflected crc (data ++ [b]) =
      ⟨CrcReflected.feed CCITT_REFLECTED (crc_reflected crc data).toBitVec b.toBitVec⟩ := by
  rw [crc_reflected, List.foldl_append]
  rfl

/-- The table is that of the polynomial. -/
theorem crc16_tbl_eq : ∀ i : Fin 256,
    (crc16_tbl.getD i 0).toBitVec =
      CrcReflected.steps CCITT_REFLECTED 8 ((BitVec.ofFin i : BitVec 8).setWidth 16) := by
  decide +kernel

theorem crc16_index (c : UInt16) (b : UInt8) :
    ((c ^^^ b.toUInt16) &&& 0xff).toNat = (c.toBitVec.setWidth 8 ^^^ b.toBitVec).toNat := by
  have hb := b.toNat_lt
  have hmask : (255 : ℕ) = 2 ^ 8 - 1 := rfl
  simp only [UInt16.toNat_and, UInt16.toNat_xor, UInt8.toNat_toUInt16, BitVec.toNat_xor,
    BitVec.toNat_setWidth, UInt16.toNat_toBitVec, UInt8.toNat_toBitVec, UInt16.reduceToNat, hmask,
    Nat.and_two_pow_sub_one_eq_mod, Nat.xor_mod_two_pow, Nat.mod_eq_of_lt hb]

/-- One byte by the table is one byte bit by bit. -/
theorem crc16_byte (c : UInt16) (b : UInt8) :
    (c >>> 8 ^^^ crc16_tbl.getD ((c ^^^ b.toUInt16) &&& 0xff).toNat 0).toBitVec =
      CrcReflected.feed CCITT_REFLECTED c.toBitVec b.toBitVec := by
  rw [CrcReflected.feed_table, crc16_index]
  simp only [UInt16.toBitVec_xor, UInt16.toBitVec_shiftRight]
  congr 1
  exact crc16_tbl_eq (c.toBitVec.setWidth 8 ^^^ b.toBitVec).toFin

/-- **The checksum by the table** is the checksum bit by bit. -/
theorem sys_crc16_eq (crc : UInt16) (data : List UInt8) :
    sys_crc16 crc (bufOf data) data.length = crc_reflected crc data := by
  induction data using List.reverseRecOn with
  | nil => rfl
  | append_singleton data b ih =>
    have hb : bufOf (data ++ [b]) data.length = b := by simp [bufOf]
    have hinit : sys_crc16 crc (bufOf (data ++ [b])) data.length = crc_reflected crc data := by
      rw [← ih]
      apply sys_crc16_congr
      intro i hi
      rw [← bufOf_take hi, List.take_left' rfl]
    rw [List.length_append, List.length_singleton, sys_crc16, hinit, hb, crc_reflected_append]
    apply UInt16.toBitVec_inj.mp
    exact crc16_byte _ _

/-- Two pieces, one after the other. -/
theorem crc_reflected_pieces (crc : UInt16) (a b : List UInt8) :
    crc_reflected (crc_reflected crc a) b = crc_reflected crc (a ++ b) := by
  simp only [crc_reflected, List.foldl_append]

end CsBoot.Ui

namespace CsBoot.SlImghdr

open Ui

/-- The loop of the tool, over pieces none of which is empty. -/
theorem main_crc16_eq (crc : UInt16) (pieces : List (List UInt8))
    (h : ∀ p ∈ pieces, 0 < p.length) :
    main_crc16 crc pieces = crc_reflected crc pieces.flatten := by
  induction pieces generalizing crc with
  | nil => rfl
  | cons p pieces ih =>
    have hne : p.length ≠ 0 := (h p List.mem_cons_self).ne'
    have hrest := ih (crc_reflected crc p) fun q hq => h q (List.mem_cons_of_mem p hq)
    simp only [main_crc16, if_neg hne, sys_crc16_eq]
    rw [Ui.sys_crc16_eq, hrest, crc_reflected_pieces, List.flatten_cons]

end CsBoot.SlImghdr

namespace CsBoot.Ui

/-! ## The polynomial -/

/-- The checksums are those of the polynomial, and pieces make the whole. -/
structure CrcRight (crc : UInt16) (data : List UInt8) : Prop where
  target : sys_crc16 crc (bufOf data) data.length = crc_reflected crc data
  host : SlImghdr.sys_crc16 crc (bufOf data) data.length = crc_reflected crc data
  block : Xmodem.Xmodem_crc16 (bufOf data) data.length = Xmodem.crc_ccitt data
  composes : ∀ a b, a ++ b = data →
    sys_crc16 (sys_crc16 crc (bufOf a) a.length) (bufOf b) b.length =
      sys_crc16 crc (bufOf data) data.length
  pieces : ∀ reads : SlImghdr.Reads data,
    SlImghdr.main_crc16 crc reads.pieces = sys_crc16 crc (bufOf data) data.length

/-- **The checksums by the tables are those of the polynomial**, for all data and every
starting value, and the image tool's is the boot loader's for every division of a file. -/
theorem crc16_right (crc : UInt16) (data : List UInt8) : CrcRight crc data where
  target := sys_crc16_eq crc data
  host := by rw [SlImghdr.sys_crc16_eq, sys_crc16_eq]
  block := Xmodem.Xmodem_crc16_eq data (bufOf data) fun i hi => List.getD_eq_getElem _ _ hi
  composes := by
    rintro a b rfl
    rw [sys_crc16_eq, sys_crc16_eq, sys_crc16_eq, crc_reflected_pieces]
  pieces := fun reads => by
    rw [SlImghdr.main_crc16_eq crc reads.pieces fun p hp => (reads.sizes p hp).1, reads.joined,
      sys_crc16_eq]

end CsBoot.Ui
