/-
The software ECC of `src/src/bsp/flash/flash_nand.c`.

Three bytes of parity for 256 bytes of data: the line parity of the bytes with
an odd number of ones, shuffled into two bytes by `nand_trans_result`, and the
column parity from a table. `nand_correct_data` compares the stored code with
the one computed from the data read back.

The code computes on `unsigned char`; where an expression is promoted to `int`
it is stored back into a byte, so arithmetic on bytes gives the same result.
-/
import Mathlib.Tactic

set_option autoImplicit false

namespace CsBoot.Nand

/-- The three code bytes, `ecc[0]`, `ecc[1]` and `ecc[2]`. -/
@[ext]
structure EccCode where
  ecc0 : UInt8
  ecc1 : UInt8
  ecc2 : UInt8
deriving DecidableEq, Repr

/-- `_nand_ecc_precalc_table`: bits 0 to 5 are the column parities of the byte,
bit 6 is its overall parity. -/
def nand_ecc_precalc_table : List UInt8 := [
  0x00, 0x55, 0x56, 0x03, 0x59, 0x0c, 0x0f, 0x5a, 0x5a, 0x0f, 0x0c, 0x59, 0x03, 0x56, 0x55, 0x00,
  0x65, 0x30, 0x33, 0x66, 0x3c, 0x69, 0x6a, 0x3f, 0x3f, 0x6a, 0x69, 0x3c, 0x66, 0x33, 0x30, 0x65,
  0x66, 0x33, 0x30, 0x65, 0x3f, 0x6a, 0x69, 0x3c, 0x3c, 0x69, 0x6a, 0x3f, 0x65, 0x30, 0x33, 0x66,
  0x03, 0x56, 0x55, 0x00, 0x5a, 0x0f, 0x0c, 0x59, 0x59, 0x0c, 0x0f, 0x5a, 0x00, 0x55, 0x56, 0x03,
  0x69, 0x3c, 0x3f, 0x6a, 0x30, 0x65, 0x66, 0x33, 0x33, 0x66, 0x65, 0x30, 0x6a, 0x3f, 0x3c, 0x69,
  0x0c, 0x59, 0x5a, 0x0f, 0x55, 0x00, 0x03, 0x56, 0x56, 0x03, 0x00, 0x55, 0x0f, 0x5a, 0x59, 0x0c,
  0x0f, 0x5a, 0x59, 0x0c, 0x56, 0x03, 0x00, 0x55, 0x55, 0x00, 0x03, 0x56, 0x0c, 0x59, 0x5a, 0x0f,
  0x6a, 0x3f, 0x3c, 0x69, 0x33, 0x66, 0x65, 0x30, 0x30, 0x65, 0x66, 0x33, 0x69, 0x3c, 0x3f, 0x6a,
  0x6a, 0x3f, 0x3c, 0x69, 0x33, 0x66, 0x65, 0x30, 0x30, 0x65, 0x66, 0x33, 0x69, 0x3c, 0x3f, 0x6a,
  0x0f, 0x5a, 0x59, 0x0c, 0x56, 0x03, 0x00, 0x55, 0x55, 0x00, 0x03, 0x56, 0x0c, 0x59, 0x5a, 0x0f,
  0x0c, 0x59, 0x5a, 0x0f, 0x55, 0x00, 0x03, 0x56, 0x56, 0x03, 0x00, 0x55, 0x0f, 0x5a, 0x59, 0x0c,
  0x69, 0x3c, 0x3f, 0x6a, 0x30, 0x65, 0x66, 0x33, 0x33, 0x66, 0x65, 0x30, 0x6a, 0x3f, 0x3c, 0x69,
  0x03, 0x56, 0x55, 0x00, 0x5a, 0x0f, 0x0c, 0x59, 0x59, 0x0c, 0x0f, 0x5a, 0x00, 0x55, 0x56, 0x03,
  0x66, 0x33, 0x30, 0x65, 0x3f, 0x6a, 0x69, 0x3c, 0x3c, 0x69, 0x6a, 0x3f, 0x65, 0x30, 0x33, 0x66,
  0x65, 0x30, 0x33, 0x66, 0x3c, 0x69, 0x6a, 0x3f, 0x3f, 0x6a, 0x69, 0x3c, 0x66, 0x33, 0x30, 0x65,
  0x00, 0x55, 0x56, 0x03, 0x59, 0x0c, 0x0f, 0x5a, 0x5a, 0x0f, 0x0c, 0x59, 0x03, 0x56, 0x55, 0x00]

def precalc (x : UInt8) : UInt8 := nand_ecc_precalc_table.getD x.toNat 0

/-! ## `_nand_trans_result` -/

/-- One of its two loops, `n` iterations to go: the bits of `reg3` and `reg2`
under `a` go to the places under `b`. Returns `a` and the byte. -/
def nand_trans_loop (reg2 reg3 : UInt8) : ℕ → UInt8 → UInt8 → UInt8 → UInt8 × UInt8
  | 0, a, _, tmp => (a, tmp)
  | n + 1, a, b, tmp =>
    let tmp := if reg3 &&& a ≠ 0 then tmp ||| b else tmp
    let b := b >>> 1
    let tmp := if reg2 &&& a ≠ 0 then tmp ||| b else tmp
    nand_trans_loop reg2 reg3 n (a >>> 1) (b >>> 1) tmp

/-- `_nand_trans_result`: `ecc0` and `ecc1`. -/
def nand_trans_result (reg2 reg3 : UInt8) : UInt8 × UInt8 :=
  let first := nand_trans_loop reg2 reg3 4 0x80 0x80 0
  let second := nand_trans_loop reg2 reg3 4 first.1 0x80 0
  (first.2, second.2)

/-! ## `_nand_page_ECC` -/

/-- The parity registers. -/
@[ext]
structure EccRegs where
  reg1 : UInt8
  reg2 : UInt8
  reg3 : UInt8

/-- The registers after the bytes `data[0 .. n)`. -/
def nand_page_regs (data : ℕ → UInt8) : ℕ → EccRegs
  | 0 => ⟨0, 0, 0⟩
  | n + 1 =>
    let r := nand_page_regs data n
    let idx := precalc (data n)
    let reg1 := r.reg1 ^^^ (idx &&& 0x3f)
    if idx &&& 0x40 ≠ 0 then ⟨reg1, r.reg2 ^^^ ~~~UInt8.ofNat n, r.reg3 ^^^ UInt8.ofNat n⟩
    else ⟨reg1, r.reg2, r.reg3⟩

/-- The code bytes from the registers. -/
def nand_page_code (r : EccRegs) : EccCode :=
  let t := nand_trans_result r.reg2 r.reg3
  ⟨~~~t.1, ~~~t.2, (~~~r.reg1 <<< 2) ||| 0x03⟩

/-- `_nand_page_ECC`: the code of `data[0 .. 256)`. -/
def nand_page_ECC (data : ℕ → UInt8) : EccCode := nand_page_code (nand_page_regs data 256)

/-! ## `_nand_correct_data` -/

/-- `for (i = 0; i < n; i++) { if (d & c) add |= a; c >>= 2; a >>= 1; }`,
returning `a` and `add`. -/
def nand_gather (d : UInt8) : ℕ → UInt8 → UInt8 → UInt8 → UInt8 × UInt8
  | 0, _, a, add => (a, add)
  | n + 1, c, a, add =>
    nand_gather d n (c >>> 2) (a >>> 1) (if d &&& c ≠ 0 then add ||| a else add)

/-- `while (d) { if (d & 0x01) ++i; d >>= 1; }`, with `n` the iterations left.
A byte is zero after eight. -/
def nand_count_loop : ℕ → UInt8 → ℕ
  | 0, _ => 0
  | n + 1, d => if d = 0 then 0 else (if d &&& 0x01 ≠ 0 then 1 else 0) + nand_count_loop n (d >>> 1)

/-- `add`, the byte in error. -/
def nand_error_add (d1 d2 : UInt8) : UInt8 :=
  let g := nand_gather d1 4 0x80 0x80 0
  (nand_gather d2 4 0x80 g.1 g.2).2

/-- `bit`, the bit in error. -/
def nand_error_bit (d3 : UInt8) : UInt8 := (nand_gather d3 3 0x80 0x04 0).2

/-- The three loops that count the bits in which the codes differ. -/
def nand_error_count (d1 d2 d3 : UInt8) : ℕ :=
  nand_count_loop 8 d1 + nand_count_loop 8 d2 + nand_count_loop 8 d3

/-- `_nand_correct_data`: the return value, the data and the stored code.
`0` no error, `1` corrected, `2` the code was in error, `-1` not correctable. -/
def nand_correct_data (dat : ℕ → UInt8) (read_ecc calc_ecc : EccCode) :
    ℤ × (ℕ → UInt8) × EccCode :=
  let d1 := calc_ecc.ecc0 ^^^ read_ecc.ecc0
  let d2 := calc_ecc.ecc1 ^^^ read_ecc.ecc1
  let d3 := calc_ecc.ecc2 ^^^ read_ecc.ecc2
  if d1 ||| d2 ||| d3 = 0 then (0, dat, read_ecc)
  else
    let a := (d1 ^^^ d1 >>> 1) &&& 0x55
    let b := (d2 ^^^ d2 >>> 1) &&& 0x55
    let c := (d3 ^^^ d3 >>> 1) &&& 0x54
    if a = 0x55 ∧ b = 0x55 ∧ c = 0x54 then
      let add := (nand_error_add d1 d2).toNat
      let bit := nand_error_bit d3
      (1, Function.update dat add (dat add ^^^ 0x01 <<< bit), read_ecc)
    else if nand_error_count d1 d2 d3 = 1 then (2, dat, calc_ecc)
    else (-1, dat, read_ecc)

end CsBoot.Nand
