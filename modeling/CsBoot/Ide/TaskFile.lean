/-
The command block of an ATA drive, as far as it says which sectors a command is
about.

A driver writes bytes into the registers of the drive and starts a command with
the last of them. The commands with 28-bit addresses take the low bits of an
address from three registers and its top four bits from the device register. For
the commands with 48-bit addresses the count and the address registers are two
deep: each keeps the byte that was written before the last one, and both make up
the number. A count of 0 stands for the largest count there is.

`TaskFile.commands` reads a sequence of register writes by these rules. It is what
the sequences of the driver are compared with.
-/
import Mathlib.Tactic

set_option autoImplicit false

namespace CsBoot.Ide

/-! ## The registers -/

/-- The registers of the command block that a driver writes, `IDE_REG_*`. -/
inductive Reg
  | COUNT
  | LBALOW
  | LBAMID
  | LBAHI
  | DEVICE
  | COMMAND
deriving DecidableEq

/-- The byte that was written last, and the one before it. -/
structure TwoDeep where
  recent : ℕ
  previous : ℕ

/-- A register takes eight bits of what is written to it. -/
def TwoDeep.push (r : TwoDeep) (v : ℕ) : TwoDeep := ⟨v % 2 ^ 8, r.recent⟩

/-- What the registers hold. -/
structure TaskFile where
  count : TwoDeep
  lbalow : TwoDeep
  lbamid : TwoDeep
  lbahi : TwoDeep
  device : ℕ

/-- One register write that does not start a command. -/
def TaskFile.write (t : TaskFile) (r : Reg) (v : ℕ) : TaskFile :=
  match r with
  | .COUNT => { t with count := t.count.push v }
  | .LBALOW => { t with lbalow := t.lbalow.push v }
  | .LBAMID => { t with lbamid := t.lbamid.push v }
  | .LBAHI => { t with lbahi := t.lbahi.push v }
  | .DEVICE => { t with device := v % 2 ^ 8 }
  | .COMMAND => t

/-! ## Commands -/

/-- What a command code says: whether sectors are written, and whether the
addresses have 48 bits. -/
structure Code where
  write : Bool
  ext : Bool

/-- The codes of the commands that transfer sectors, with `WIN_*` as in the driver. -/
def code_of (v : ℕ) : Option Code :=
  if v = 0x20 ∨ v = 0xC8 then some ⟨false, false⟩
  else if v = 0x30 ∨ v = 0xCA then some ⟨true, false⟩
  else if v = 0x24 ∨ v = 0x25 then some ⟨false, true⟩
  else if v = 0x34 ∨ v = 0x35 then some ⟨true, true⟩
  else none

/-- A transfer of `count` sectors from sector `start` on. -/
structure Command where
  write : Bool
  start : ℕ
  count : ℕ
deriving DecidableEq

/-- A count register of `0` stands for the maximum. -/
def count_of (n max : ℕ) : ℕ := if n = 0 then max else n

/-- The command that the registers describe. Without the LBA bit of the device
register the address is not one of sectors, and nothing is transferred. -/
def TaskFile.command (t : TaskFile) (v : ℕ) : Option Command :=
  match code_of v with
  | none => none
  | some c =>
    if !t.device.testBit 6 then none
    else if c.ext then
      some ⟨c.write,
        t.lbalow.recent + 2 ^ 8 * t.lbamid.recent + 2 ^ 16 * t.lbahi.recent
          + 2 ^ 24 * t.lbalow.previous + 2 ^ 32 * t.lbamid.previous + 2 ^ 40 * t.lbahi.previous,
        count_of (t.count.recent + 2 ^ 8 * t.count.previous) (2 ^ 16)⟩
    else
      some ⟨c.write,
        t.lbalow.recent + 2 ^ 8 * t.lbamid.recent + 2 ^ 16 * t.lbahi.recent
          + 2 ^ 24 * (t.device % 2 ^ 4),
        count_of t.count.recent (2 ^ 8)⟩

/-- The commands that a sequence of register writes gives to the drive. -/
def TaskFile.commands (t : TaskFile) : List (Reg × ℕ) → List Command
  | [] => []
  | (.COMMAND, v) :: ws => (t.command (v % 2 ^ 8)).toList ++ t.commands ws
  | (r, v) :: ws => (t.write r v).commands ws

@[simp] theorem TaskFile.commands_nil (t : TaskFile) : t.commands [] = [] := rfl

/-! ## The sectors of a command -/

/-- Sector `s` is one of those that the command transfers. -/
def Command.Covers (c : Command) (s : ℕ) : Prop := c.start ≤ s ∧ s < c.start + c.count

theorem count_of_pos {n max : ℕ} (hmax : 0 < max) : 0 < count_of n max := by
  unfold count_of
  split <;> omega

end CsBoot.Ide
