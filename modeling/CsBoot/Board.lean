/-
The board, as `board/lepus_linux/inc/board_config.h` has it.

The flash is mapped at `BOARD_FLASH_BASE_ADDR` in every build. The NAND build has
one flash map; the other builds (parallel flash) with web support have three,
which differ in the size of the flash, in the place of the FIS directory and in
whether there is a second CPU.
-/
import Mathlib.Tactic

set_option autoImplicit false

namespace CsBoot

def BOARD_FLASH_BASE_ADDR : ℕ := 0x30000000
def BOARD_FLASH_BOOT_ADDR : ℕ := BOARD_FLASH_BASE_ADDR
def BOARD_FLASH_BOOT1_ADDR : ℕ := BOARD_FLASH_BOOT_ADDR
def BOARD_FLASH_BOOT1_SIZE : ℕ := 4 * 1024

namespace Nand

/-! ## With `BOARD_NAND_BOOT` -/

def BOARD_FLASH_BOOTIMG_SIZE : ℕ := 4 * 64 * 1024
def BOARD_FLASH_BOOT_SIZE : ℕ := 0x100000
def BOARD_FLASH_BOOT2_SIZE : ℕ := BOARD_FLASH_BOOTIMG_SIZE - BOARD_FLASH_BOOT1_SIZE

end Nand

namespace Nor

/-! ## Without it -/

def BOARD_FLASH_BOOT_SIZE : ℕ := 4 * 64 * 1024
def BOARD_FLASH_FIS_SIZE : ℕ := 2 * 64 * 1024

/-- The flash maps: `BOARD_FLASH_SIZE`, `BOARD_FLASH_FIS_ADDR` and
`BOARD_SUPPORT_TWO_CPU`. -/
def flash_maps : List (ℕ × ℕ × Bool) :=
  [(8 * 1024 * 1024, BOARD_FLASH_BASE_ADDR + 0x7E0000, false),
    (16 * 1024 * 1024, BOARD_FLASH_BASE_ADDR + 0xFE0000, false),
    (16 * 1024 * 1024, BOARD_FLASH_BASE_ADDR + 0xFE0000, true)]

/-- A board with one of the maps. -/
structure Board where
  BOARD_FLASH_SIZE : ℕ
  BOARD_FLASH_FIS_ADDR : ℕ
  BOARD_SUPPORT_TWO_CPU : Bool
  mapped : (BOARD_FLASH_SIZE, BOARD_FLASH_FIS_ADDR, BOARD_SUPPORT_TWO_CPU) ∈ flash_maps

def board8 : Board := ⟨8 * 1024 * 1024, BOARD_FLASH_BASE_ADDR + 0x7E0000, false, by decide⟩
def board16 : Board := ⟨16 * 1024 * 1024, BOARD_FLASH_BASE_ADDR + 0xFE0000, false, by decide⟩
def board16_two_cpu : Board :=
  ⟨16 * 1024 * 1024, BOARD_FLASH_BASE_ADDR + 0xFE0000, true, by decide⟩

theorem Board.cases (B : Board) : B = board8 ∨ B = board16 ∨ B = board16_two_cpu := by
  obtain ⟨size, fis, two, h⟩ := B
  have hmap := h
  simp only [flash_maps, List.mem_cons, Prod.mk.injEq, List.not_mem_nil, or_false] at hmap
  obtain ⟨rfl, rfl, rfl⟩ | ⟨rfl, rfl, rfl⟩ | ⟨rfl, rfl, rfl⟩ := hmap
  · exact .inl rfl
  · exact .inr (.inl rfl)
  · exact .inr (.inr rfl)

/-- The FIS directory is not at the place of the boot loader. -/
theorem Board.fis_ne_boot (B : Board) : BOARD_FLASH_BOOT_ADDR ≠ B.BOARD_FLASH_FIS_ADDR := by
  obtain rfl | rfl | rfl := B.cases
  · decide
  · decide
  · decide

/-- A text as bytes. -/
def ascii (l : List Char) : List UInt8 := l.map fun c => UInt8.ofNat c.toNat

def BOARD_FIS_KERNEL_NAME : List UInt8 := ascii ['K', 'e', 'r', 'n', 'e', 'l']
def BOARD_FIS_RAM_DISK_NAME : List UInt8 := ascii ['R', 'a', 'm', 'd', 'i', 's', 'k']
def BOARD_FIS_APPS_NAME : List UInt8 :=
  ascii ['A', 'p', 'p', 'l', 'i', 'c', 'a', 't', 'i', 'o', 'n']
def BOARD_FIS_CPU2_NAME : List UInt8 := ascii ['K', 'e', 'r', 'n', 'e', 'l', '2']
def BOARD_FIS_RAM_DISK2_NAME : List UInt8 := ascii ['R', 'a', 'm', 'd', 'i', 's', 'k', '2']

end Nor

end CsBoot
