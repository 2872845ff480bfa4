/-
The registers of the PHYs, `mii_read` and `mii_write` of `src/src/bsp/emac/lepus_gmac_phy.c`:
the CPU moves the bits itself, with two pins of the GPIO controller for the clock MDC and the
data MDIO, as the boards without `CONFIG_SL2312_LPC_IT8712` do.

The PHYs are the other side, and they are modelled here after the frame that the source
describes: `<PRE><ST><OP><PHYAD><REGAD><TA><DATA><IDLE>`. They look at MDIO when MDC rises, and
those that share the pins see the same bits. The one whose address is in a read frame drives MDIO
from the second bit of the turnaround on, a bit after each edge. A line that nobody drives is
high.

The giga PHY and the others may be on different pins, or on the same. Of `GPIO_DATA_IN` only
the bit of MDIO is modelled.
-/
import CsBoot.Lib.MsbBits

set_option autoImplicit false

namespace CsBoot.Mii

open MsbBits

/-! ## The PHYs -/

/-- How far the PHYs are in a frame. What they need of it to go on is kept with it. -/
inductive FrameState
  | preamble (ones : ℕ)
  | start
  | header (bits : List Bool)
  | write (phyad regad : ℕ) (bits : List Bool)
  | read (value : Option ℕ) (clocks : ℕ)

/-- The PHYs on a pair of pins, their registers, and the frame they are in. -/
structure PhyBus where
  present : ℕ → Bool
  regs : ℕ → ℕ → ℕ
  state : FrameState

namespace PhyBus

variable (b : PhyBus)

/-- A register of a PHY is set. -/
def set (phyad regad value : ℕ) : PhyBus :=
  { b with regs := fun p r => if p = phyad ∧ r = regad then value else b.regs p r }

/-- What the PHY with this address drives for a register. -/
def answer (phyad regad : ℕ) : Option ℕ :=
  if b.present phyad then some (b.regs phyad regad) else none

/-- OP, PHYAD and REGAD are there. -/
def decode (bits : List Bool) : PhyBus :=
  let phyad := ofMsb ((bits.drop 2).take 5)
  let regad := ofMsb (bits.drop 7)
  if bits.take 2 = [true, false] then { b with state := .read (b.answer phyad regad) 0 }
  else if bits.take 2 = [false, true] then { b with state := .write phyad regad [] }
  else { b with state := .preamble 0 }

/-- MDC rises. -/
def edge (level : Bool) : PhyBus :=
  match b.state with
  | .preamble ones =>
    if level then { b with state := .preamble (ones + 1) }
    else if 32 ≤ ones then { b with state := .start }
    else { b with state := .preamble 0 }
  | .start => if level then { b with state := .header [] } else { b with state := .preamble 0 }
  | .header bits =>
    if bits.length + 1 = 12 then b.decode (bits ++ [level])
    else { b with state := .header (bits ++ [level]) }
  | .write phyad regad bits =>
    if bits.length + 1 = 18 then
      let b := if b.present phyad then b.set phyad regad (ofMsb ((bits ++ [level]).drop 2)) else b
      { b with state := .preamble 0 }
    else { b with state := .write phyad regad (bits ++ [level]) }
  | .read value clocks =>
    if clocks + 1 = 18 then { b with state := .preamble 0 }
    else { b with state := .read value (clocks + 1) }

/-- What the PHYs make of MDIO: nothing but in the answer to a read, a 0 and then the data. -/
def drive : Option Bool :=
  match b.state with
  | .read (some value) clocks =>
    if clocks = 0 then none
    else if clocks = 1 then some false
    else some (value.testBit (17 - clocks))
  | _ => none

end PhyBus

/-! ## The pins -/

def GPHY_ADDR : ℕ := 2

/-- The pins of the buses, and the bus of each PHY. -/
structure Pins (ι : Type) where
  mdc : ι → ℕ
  mdio : ι → ℕ
  bus : ℕ → ι
  mdc_lt : ∀ i, mdc i < 32
  mdio_lt : ∀ i, mdio i < 32
  mdc_inj : ∀ i j, mdc i = mdc j → i = j
  mdio_inj : ∀ i j, mdio i = mdio j → i = j
  mdc_ne_mdio : ∀ i j, mdc i ≠ mdio j

/-- `LEPUS_ASIC`: all PHYs are on the same pins. -/
def asic_pins : Pins Unit where
  mdc := fun _ => 22
  mdio := fun _ => 21
  bus := fun _ => ()
  mdc_lt := by decide
  mdio_lt := by decide
  mdc_inj := by decide
  mdio_inj := by decide
  mdc_ne_mdio := by decide

/-- Without `LEPUS_ASIC` the giga PHY, `true`, has pins of its own. -/
def fpga_pins : Pins Bool where
  mdc := fun giga => if giga then 0 else 3
  mdio := fun giga => if giga then 1 else 2
  bus := fun phyad => phyad = GPHY_ADDR
  mdc_lt := by decide
  mdio_lt := by decide
  mdc_inj := by decide
  mdio_inj := by decide
  mdc_ne_mdio := by decide

/-- The registers of the GPIO controller that are written. -/
inductive GPIO_REG
  | GPIO_PIN_DIR
  | GPIO_DATA_SET
  | GPIO_DATA_CLEAR

/-- What the controller puts out, the pins that are outputs, and the PHYs. -/
structure Gpio (ι : Type) where
  data_out : BitVec 32
  pin_dir : BitVec 32
  bus : ι → PhyBus

section Functions

variable {ι : Type} (P : Pins ι) (i : ι) (w : Gpio ι)

def GPIO_MDC : BitVec 32 := 1#32 <<< P.mdc i
def GPIO_MDIO : BitVec 32 := 1#32 <<< P.mdio i

def Gpio.mdc_level : Bool := w.pin_dir.getLsbD (P.mdc i) && w.data_out.getLsbD (P.mdc i)

def Gpio.mdio_level : Bool :=
  if w.pin_dir.getLsbD (P.mdio i) then w.data_out.getLsbD (P.mdio i)
  else (w.bus i).drive.getD true

/-- The controller takes the value. -/
def Gpio.assign (reg : GPIO_REG) (value : BitVec 32) : Gpio ι :=
  match reg with
  | .GPIO_PIN_DIR => { w with pin_dir := value }
  | .GPIO_DATA_SET => { w with data_out := w.data_out ||| value }
  | .GPIO_DATA_CLEAR => { w with data_out := w.data_out &&& ~~~value }

/-- `writel`, with what the PHYs make of it. -/
def writel (reg : GPIO_REG) (value : BitVec 32) : Gpio ι :=
  let w' := w.assign reg value
  { w' with
    bus := fun j =>
      if w.mdc_level P j = false ∧ w'.mdc_level P j = true then (w.bus j).edge (w'.mdio_level P j)
      else w.bus j }

/-- `mii_serial_write` -/
def mii_serial_write (bit_MDO : Bool) : Gpio ι :=
  let w := writel P w .GPIO_PIN_DIR (w.pin_dir ||| GPIO_MDC P i ||| GPIO_MDIO P i)
  if bit_MDO then
    let w := writel P w .GPIO_DATA_SET ( GPIO_MDIO P i)
    let w := writel P w .GPIO_DATA_SET (GPIO_MDC P i)
    writel P w .GPIO_DATA_CLEAR (GPIO_MDC P i)
  else
    let w := writel P w .GPIO_DATA_CLEAR ( GPIO_MDIO P i)
    let w := writel P w .GPIO_DATA_SET (GPIO_MDC P i)
    writel P w .GPIO_DATA_CLEAR (GPIO_MDC P i)

/-- `mii_serial_read` -/
def mii_serial_read : Gpio ι × Bool :=
  let w := writel P w .GPIO_PIN_DIR (w.pin_dir &&& ~~~ GPIO_MDIO P i)
  let w := writel P w .GPIO_DATA_SET (GPIO_MDC P i)
  let w := writel P w .GPIO_DATA_CLEAR (GPIO_MDC P i)
  (w, w.mdio_level P i)

/-- Bits that are written one after the other. -/
def serial_writes (bits : List Bool) : Gpio ι := bits.foldl (mii_serial_write P i) w

/-- `mii_pre_st` -/
def mii_pre_st : Gpio ι :=
  let w := serial_writes P i w (List.replicate 32 true)
  let w := mii_serial_write P i w false
  mii_serial_write P i w true

/-- One round of the loop that reads the data. -/
def read_data_bit (r : Gpio ι × ℕ) (k : ℕ) : Gpio ι × ℕ :=
  let (w, bit) := mii_serial_read P i r.1
  (w, r.2 + bit.toNat <<< (15 - k))

end Functions

section Calls

variable {ι : Type} (P : Pins ι) (w : Gpio ι) (phyad regad : ℕ)

/-- `mii_read`. The loops over the bits of an address write those of `msb`. -/
def mii_read : Gpio ι × ℕ :=
  let i := P.bus phyad
  let w := mii_pre_st P i w
  let w := mii_serial_write P i w true
  let w := mii_serial_write P i w false
  let w := serial_writes P i w (msb 5 phyad)
  let w := serial_writes P i w (msb 5 regad)
  let w := (mii_serial_read P i w).1
  let r := (List.range 16).foldl (read_data_bit P i) (w, 0)
  let w := mii_serial_write P i r.1 false
  (mii_serial_write P i w false, r.2)

/-- `mii_write` -/
def mii_write (value : ℕ) : Gpio ι :=
  let i := P.bus phyad
  let w := mii_pre_st P i w
  let w := mii_serial_write P i w false
  let w := mii_serial_write P i w true
  let w := serial_writes P i w (msb 5 phyad)
  let w := serial_writes P i w (msb 5 regad)
  let w := mii_serial_write P i w true
  let w := mii_serial_write P i w false
  let w := serial_writes P i w (msb 16 value)
  let w := mii_serial_write P i w false
  mii_serial_write P i w false

end Calls

end CsBoot.Mii
