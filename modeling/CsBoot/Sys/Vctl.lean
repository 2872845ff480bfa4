/-
The VCTL store of `src/src/sys/sys_vctl.c`: a sector of flash with the
configuration entries, and its copy in RAM at `vctl_datap`.

The copy is a piece of memory and the walk over its entries follows the sizes
found there, so both walks are written on memory and 32-bit pointers; an entry
size that is negative or runs past the image takes them wherever it takes the
program. What is read of the memory, and what is written to the new image, is
recorded as ranges `(address, length)`, for the theorems only.

`sys_memcpy` counts an `int` down to zero, so a negative size copies as many
bytes as the size says when it is read as an unsigned word.

The FIS entry of the store is taken to be there; it gives the size of the
sector. Switching the flash on and off and the printing are left out.
-/
import CsBoot.Lib.SkipBlocks
import CsBoot.Ui.Upgrade

set_option autoImplicit false

namespace CsBoot.Vctl

open ByteMem SkipBlocks Nor Ui

/-! ## Constants -/

def VCTL_HDR_MAGIC : List UInt8 := ascii ['F', 'L', 'F', 'M']
def VCTL_MAGIC_SIZE : ℕ := 4

/-- `sizeof(VCTL_HDR_T)` -/
def VCTL_HDR_SIZE : ℕ := 8

/-- `sizeof(VCTL_ENTRY_T)` -/
def ENTRY_LEN : ℕ := 20

/-- The copy in RAM: `vctl_size` bytes at `vctl_datap`, an allocated piece of
memory with room for the header. -/
structure Area where
  vctl_datap : ℕ
  vctl_size : ℕ
  hdr_le : VCTL_HDR_SIZE ≤ vctl_size
  int : vctl_size < 2 ^ 31
  stop_lt : vctl_datap + vctl_size < W

/-- `memcmp(mhead->header, VCTL_HDR_MAGIC, VCTL_MAGIC_SIZE) == 0` -/
def has_magic (m : ByteMem) (mhead : ℕ) : Bool :=
  firstBytes (fun i => m (mhead + i)) VCTL_MAGIC_SIZE = VCTL_HDR_MAGIC

/-- `mhead->entry_num` -/
def entry_num (m : ByteMem) (mhead : ℕ) : ℕ := load32 m (mhead + 4)

/-- `GET_DWORD(entry + 4)` -/
def entry_size (m : ByteMem) (entry : ℕ) : ℕ := load32 m (entry + 4)

/-- `GET_DWORD(entry + 8)` -/
def entry_type (m : ByteMem) (entry : ℕ) : ℕ := load32 m (entry + 8)

/-- The two words of an entry that the walks read. -/
def entry_reads (entry : ℕ) : List (ℕ × ℕ) := [(entry + 4, 4), (entry + 8, 4)]

/-! ## `sys_get_vctl_entry` -/

/-- The value returned, the bytes copied to `result`, and what was read. -/
structure GetResult where
  ret : ℤ
  result : List UInt8
  reads : List (ℕ × ℕ)

/-- The loop of `sys_get_vctl_entry`, with `n` entries left. -/
def get_loop (A : Area) (m : ByteMem) (type : ℕ) (size : ℤ) : ℕ → ℕ → GetResult
  | 0, _ => ⟨-1, [], []⟩
  | n + 1, entry =>
    let sz := entry_size m entry
    let r : GetResult :=
      if entry_type m entry = type then
        if int32 sz ≤ size then
          ⟨0, firstBytes (fun i => m ((entry + i) % W)) sz, [(entry, sz)]⟩
        else ⟨-1, [], []⟩
      else
        let entry := (entry + sz) % W
        if A.vctl_datap + A.vctl_size < entry then ⟨-1, [], []⟩
        else get_loop A m type size n entry
    { r with reads := entry_reads entry ++ r.reads }

/-- `sys_get_vctl_entry` -/
def sys_get_vctl_entry (A : Area) (m : ByteMem) (type : ℕ) (size : ℤ) : GetResult :=
  let mhead := A.vctl_datap
  let r : GetResult :=
    if !has_magic m mhead || entry_num m mhead = 0 then ⟨-1, [], []⟩
    else if 128 < entry_num m mhead then ⟨-1, [], []⟩
    else get_loop A m type size (entry_num m mhead) (mhead + VCTL_HDR_SIZE)
  { r with reads := (mhead, 8) :: r.reads }

/-! ## The new image -/

/-- The variables of the loop of `sys_save_vctl_entry`. `verctl_buf` is the
place `total_size` in the new image `buf` throughout. -/
structure Rebuild where
  buf : ByteMem
  total_size : ℕ
  new_total : ℕ
  added : Bool
  reads : List (ℕ × ℕ)
  writes : List (ℕ × ℕ)

/-- `memcpy(verctl_buf, srce, size); verctl_buf += size; total_size += size;
new_total++;` -/
def Rebuild.append (b : Rebuild) (srce : ℕ → UInt8) (size : ℕ) : Rebuild :=
  { b with
    buf := fun x => if sub32 x b.total_size < size then srce (sub32 x b.total_size) else b.buf x
    total_size := (b.total_size + size) % W
    new_total := b.new_total + 1
    writes := b.writes ++ [(b.total_size, size)] }

section Save

variable (A : Area) (m : ByteMem) (type : ℕ) (data : List UInt8)

/-- `(total_size + size) < vctl_size`, which compares unsigned words. -/
def has_room (b : Rebuild) (size : ℕ) : Prop := (b.total_size + size) % W < A.vctl_size

instance (b : Rebuild) (size : ℕ) : Decidable (has_room A b size) :=
  inferInstanceAs (Decidable (_ < _))

/-- The entry to be saved goes into the new image. -/
def Rebuild.add (b : Rebuild) : Rebuild :=
  { b.append (fun i => data.getD i 0) data.length with added := true }

/-- One pass of the loop, at `entry`, without the advance. -/
def save_pass (b : Rebuild) (entry : ℕ) : Rebuild :=
  let sz := entry_size m entry
  let b := { b with reads := b.reads ++ entry_reads entry }
  if entry_type m entry ≠ type then
    if has_room A b sz then
      { b.append (fun i => m ((entry + i) % W)) sz with reads := b.reads ++ [(entry, sz)] }
    else b
  else if !b.added then
    if has_room A b data.length then b.add data else b
  else b

/-- The loop of `sys_save_vctl_entry`, with `n` entries left. -/
def save_loop : ℕ → ℕ → Rebuild → Rebuild
  | 0, _, b => b
  | n + 1, entry, b =>
    let b := save_pass A m type data b entry
    let entry := (entry + entry_size m entry) % W
    if A.vctl_datap + A.vctl_size < entry then b else save_loop n entry b

/-- `org_total`, an `int`. -/
def org_total : ℤ := if has_magic m A.vctl_datap then int32 (entry_num m A.vctl_datap) else 0

/-- The new image as it is programmed, from a buffer that holds `buf`. -/
def rebuild (buf : ByteMem) : Rebuild :=
  let b : Rebuild :=
    { buf := fun x => if x < VCTL_MAGIC_SIZE then VCTL_HDR_MAGIC.getD x 0 else buf x
      total_size := VCTL_HDR_SIZE
      new_total := 0
      added := false
      reads := [(A.vctl_datap, 8)]
      writes := [(0, VCTL_MAGIC_SIZE)] }
  let b := save_loop A m type data (org_total A m).toNat (A.vctl_datap + VCTL_HDR_SIZE) b
  let b := if b.added = false ∧ has_room A b data.length then b.add data else b
  { b with buf := store32 b.buf 4 b.new_total }

end Save

/-! ## `sys_save_vctl_entry` -/

/-- The sector and what can be done to it, addresses counted from `vctl_addr`:
reading (`memcpy`, which goes through `nand_read` on NAND flash), and the
operations of the flash driver with their status, zero for success. -/
structure Sector (σ : Type) where
  read : σ → ByteMem
  flash_erase : σ → ℕ → σ × ℤ
  flash_program : σ → ByteMem → ℕ → σ × ℤ
  flash_nand_program : σ → ByteMem → ℕ → σ × ℤ

/-- The sector and the memory with its copy. -/
structure Store (σ : Type) where
  flash : σ
  ram : ByteMem

/-- The two builds, without and with `BOARD_NAND_BOOT`. -/
inductive Target
  | nor
  | nand
deriving DecidableEq

section Flash

variable {σ : Type} (F : Sector σ) (A : Area)

/-- `memcpy(vctl_datap, vctl_addr, vctl_size)` -/
def load_copy (s : Store σ) : Store σ :=
  { s with
    ram := fun x =>
      if A.vctl_datap ≤ x ∧ x < A.vctl_datap + A.vctl_size then F.read s.flash (x - A.vctl_datap)
      else s.ram x }

/-- `sys_save_vctl_entry`, with what `malloc` gives. In the NAND build both
branches behind `flash_nand_program` are a `return` without a value. -/
def sys_save_vctl_entry (target : Target) (s : Store σ) (type : ℕ) (data : List UInt8)
    (malloc : Option ByteMem) : Store σ × Option ℤ :=
  match malloc with
  | none => (s, some (-1))
  | some buf =>
    let new := rebuild A s.ram type data buf
    match target with
    | .nand => ({ s with flash := (F.flash_nand_program s.flash new.buf new.total_size).1 }, none)
    | .nor =>
      let r := F.flash_erase s.flash A.vctl_size
      if r.2 ≠ 0 then ({ s with flash := r.1 }, some (-1))
      else
        let r := F.flash_program r.1 new.buf new.total_size
        if r.2 ≠ 0 then ({ s with flash := r.1 }, some (-1))
        else (load_copy F A { s with flash := r.1 }, some 0)

/-! ## `sys_set_vctl_mac` and `sys_vctl_init` -/

def VCT_VLAN : ℕ := 8
def VCTL_ENTRY_MAGIC : List UInt8 := ascii ['F', 'L', 'E', 'N']

/-- The bytes of a word as they lie in memory. -/
def le32 (n : ℕ) : List UInt8 :=
  [UInt8.ofNat n, UInt8.ofNat (n / 256), UInt8.ofNat (n / 65536), UInt8.ofNat (n / 16777216)]

/-- An entry of `type` with `text` behind the header that `sys_set_vctl_mac`
and its siblings write: the magic, the size, the type, and two versions of
zeros in ASCII. -/
def entry_bytes (type : ℕ) (text : List UInt8) : List UInt8 :=
  VCTL_ENTRY_MAGIC ++ (le32 (ENTRY_LEN + text.length) ++ (le32 type
    ++ (List.replicate 8 (UInt8.ofNat '0'.toNat) ++ text)))

/-- `%02X` -/
def hex2 (b : UInt8) : List UInt8 :=
  [b.toNat / 16, b.toNat % 16].map fun d =>
    UInt8.ofNat (if d < 10 then '0'.toNat + d else 'A'.toNat + (d - 10))

/-- `%02X%02X%02X%02X%02X%02X` of `mac[0]` to `mac[5]`. -/
def mac_hex (mac : ℕ → UInt8) : List UInt8 := (firstBytes mac 6).flatMap hex2

/-- What is put behind the header when there is no VLAN entry, with the zero
that ends the string. -/
def vlan_text (mac1 mac2 : ℕ → UInt8) : List UInt8 :=
  ascii ['M', 'A', 'C', '1', ':', '0', 'x'] ++ mac_hex mac1
    ++ ascii [':', 'I', 'D', '1', ':', '1', ':', 'M', 'A', 'P', '1', ':', '0', 'x', '1', '0', ':']
    ++ ascii ['M', 'A', 'C', '2', ':', '0', 'x'] ++ mac_hex mac2
    ++ ascii [':', 'I', 'D', '2', ':', '2', ':', 'M', 'A', 'P', '2', ':', '0', 'x', '0', 'f'] ++ [0]

/-- `memcpy(buf + i, srce, len)` inside a buffer. -/
def patch (buf : List UInt8) (i : ℕ) (srce : List UInt8) : List UInt8 :=
  buf.take i ++ srce ++ buf.drop (i + srce.length)

/-- `sys_set_vctl_mac`. An entry that is there fits its buffer of 128 bytes
when its size is not negative; no other is modelled. -/
def sys_set_vctl_mac (target : Target) (s : Store σ) (mac1 mac2 : ℕ → UInt8)
    (malloc : Option ByteMem) : Store σ :=
  let r := sys_get_vctl_entry A s.ram VCT_VLAN 128
  if r.ret = 0 then
    let entry_buf := r.result ++ List.replicate (128 - r.result.length) 0
    let entry_buf := patch entry_buf (ENTRY_LEN + 7) (mac_hex mac1 ++ ascii [':'])
    let entry_buf := patch entry_buf (ENTRY_LEN + 43) (mac_hex mac2 ++ ascii [':'])
    let size := load32 (fun i => entry_buf.getD i 0) 4
    (sys_save_vctl_entry F A target s VCT_VLAN (entry_buf.take size) malloc).1
  else
    (sys_save_vctl_entry F A target s VCT_VLAN (entry_bytes VCT_VLAN (vlan_text mac1 mac2))
      malloc).1

/-- `BOARD_DEFAULT_MAC0_ADDR` and `BOARD_DEFAULT_MAC1_ADDR` -/
def vctl_default_mac_addr (n : ℕ) : ℕ → UInt8 := fun i =>
  (if n = 0 then [0x00, 0x50, 0xc2, 0x11, 0x11, 0x11]
    else [0x00, 0x50, 0xc2, 0x22, 0x22, 0x22] : List UInt8).getD i 0

/-- `sys_vctl_init`, once `vctl_datap` is allocated. -/
def sys_vctl_init (target : Target) (s : Store σ) (malloc : Option ByteMem) : Store σ :=
  let s := load_copy F A s
  if (sys_get_vctl_entry A s.ram VCT_VLAN 128).ret ≠ 0 then
    sys_set_vctl_mac F A target s (vctl_default_mac_addr 0) (vctl_default_mac_addr 1) malloc
  else s

end Flash

end CsBoot.Vctl
