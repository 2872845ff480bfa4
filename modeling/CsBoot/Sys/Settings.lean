/-
The settings kept in the VCTL store: the MAC addresses, the IP address and the boot files of
`src/src/sys/sys_vctl.c`, and the configuration of `src/src/sys/sys_cfg.c` that is made of
them, on the boards that boot from a disk.

An entry is text behind its header. It is written with `sprintf`, and read by searching it
for words; both are those of the source. A string is its characters in front of the final
zero; a buffer of the stack that is read further than it was written shows what was on the
stack, `stack`, and `buf` is what was in the buffer of `sys_vprintf`.

`sys_get_vctl_mac` takes two digits in one expression; the first is the one on the left.
-/
import CsBoot.Sys.Printf
import CsBoot.Sys.Str2ip
import CsBoot.Sys.Strtoul
import CsBoot.Sys.Vctl

set_option autoImplicit false

namespace CsBoot.Vctl

open CString (ch)
open ByteMem SkipBlocks Nor Ui Printf

/-! ## `char2hex`, `str2hex`, `str2value` -/

def char2hex (c : UInt8) : UInt32 :=
  if ch '0' ≤ c ∧ c ≤ ch '9' then (c - ch '0').toUInt32
  else if ch 'a' ≤ c ∧ c ≤ ch 'f' then (c - ch 'a').toUInt32 + 10
  else if ch 'A' ≤ c ∧ c ≤ ch 'F' then (c - ch 'A').toUInt32 + 10
  else 0xffffffff

/-- The loop of `str2hex`. -/
def str2hex_loop (result : UInt32) : List UInt8 → UInt32
  | [] => result
  | c :: cp =>
    if char2hex c ≠ 0xffffffff then str2hex_loop (result * 16 + char2hex c) cp else result

/-- `*cp=='0' && toupper(*(cp+1))=='X'` -/
def has_0x (cp : List UInt8) : Bool :=
  decide (cp.headD 0 = ch '0') && decide (Strto.toupper (cp.tail.headD 0) = ch 'X')

def str2hex (cp : List UInt8) : UInt32 := str2hex_loop 0 (if has_0x cp then cp.drop 2 else cp)

/-- The loop of `str2decimal`. -/
def str2decimal_loop (result : UInt32) : List UInt8 → UInt32
  | [] => result
  | c :: cp =>
    if Str.char2decimal c ≠ 0xffffffff then str2decimal_loop (result * 10 + Str.char2decimal c) cp
    else result

def str2decimal (cp : List UInt8) : UInt32 := str2decimal_loop 0 cp

/-- The check of `str2value`: `is_hex`, unless the number has another character. -/
def str2value_check (is_hex : Bool) : List UInt8 → Option Bool
  | [] => some is_hex
  | c :: cp =>
    if c ∈ [ch ' ', ch ':', ch ',', ch '.'] then some is_hex
    else if ch 'A' ≤ c ∧ c ≤ ch 'F' ∨ ch 'a' ≤ c ∧ c ≤ ch 'f' then str2value_check true cp
    else if ch '0' ≤ c ∧ c ≤ ch '9' then str2value_check is_hex cp
    else none

def str2value (strp : List UInt8) : UInt32 :=
  let is_hex := has_0x strp
  let strp := if is_hex then strp.drop 2 else strp
  match str2value_check is_hex strp with
  | none => 0
  | some is_hex => if is_hex then str2hex strp else str2decimal strp

/-! ## `sys_find_str`, `sys_copy_str` -/

/-- `memicmp(strp1, strp2, strlen(strp2)) == 0` -/
def same_letters (strp1 strp2 : List UInt8) : Bool :=
  (List.range strp2.length).all fun i =>
    decide (Strto.toupper (strp1.getD i 0) = Strto.toupper (strp2.getD i 0))

def sys_find_str : List UInt8 → List UInt8 → Option (List UInt8)
  | [], _ => none
  | c :: strp1, strp2 =>
    if Strto.toupper c = Strto.toupper (strp2.headD 0) ∧ same_letters (c :: strp1) strp2 then
      some (c :: strp1)
    else sys_find_str strp1 strp2

/-- `sys_copy_str`: what is copied to `strp1`, and what is left of `strp2`. -/
def sys_copy_str (strp2 : List UInt8) : List UInt8 × List UInt8 :=
  (strp2.takeWhile fun c => decide (c ≠ ch ' '), strp2.dropWhile fun c => decide (c ≠ ch ' '))

/-! ## Entries with text -/

/-- `sprintf(entry_buf + i, fmt, ...)`: the buffer, and the length returned. -/
def sprintf_at (entry_buf : List UInt8) (i : ℕ) (fmt : List UInt8) (ap : List Arg)
    (buf : ℕ → UInt8) : List UInt8 × ℕ :=
  let r := sys_sprintf (fun k => entry_buf.getD (i + k).toNat 0) fmt ap buf (entry_buf.length - i)
  ((List.range entry_buf.length).map fun k : ℕ => r.1 (k - i), r.2.getD 0)

/-- The text of the entry in a buffer of `size` bytes. -/
def entry_text (result stack : List UInt8) (size : ℕ) : List UInt8 :=
  (((result ++ stack.drop result.length).take size).drop ENTRY_LEN).takeWhile fun c =>
    decide (c ≠ 0)

section Store

variable {σ : Type} (F : Sector σ) (A : Area)

/-- The common part of `sys_set_vctl_ip` and `sys_set_vctl_boot_file`, whose buffer has
`size` bytes: the entry with its text printed anew. An entry that is there fits the buffer
when its size is not negative; no other is modelled. -/
def text_entry (m : ByteMem) (type size : ℕ) (fmt : List UInt8) (ap : List Arg)
    (buf : ℕ → UInt8) : List UInt8 :=
  let r := sys_get_vctl_entry A m type size
  let entry := if r.ret = 0 then r.result else entry_bytes type []
  let entry_buf := entry ++ List.replicate (size - entry.length) 0
  let p := sprintf_at entry_buf ENTRY_LEN fmt ap buf
  let entry_size := (p.2 + ENTRY_LEN + 1 + 3) / 4 * 4
  (patch p.1 4 (le32 entry_size)).take entry_size

/-! ## `sys_get_vctl_ip`, `sys_set_vctl_ip` -/

def VCT_IP : ℕ := 0x80

structure IpCfg where
  ipaddr : UInt32
  netmask : UInt32
  gateway : UInt32

/-- `IP:%d.%d.%d.%d Netmask:%d.%d.%d.%d Gateway:%d.%d.%d.%d` -/
def ip_format : List UInt8 :=
  ascii ['I', 'P', ':', '%', 'd', '.', '%', 'd', '.', '%', 'd', '.', '%', 'd', ' ',
    'N', 'e', 't', 'm', 'a', 's', 'k', ':', '%', 'd', '.', '%', 'd', '.', '%', 'd', '.', '%', 'd',
    ' ', 'G', 'a', 't', 'e', 'w', 'a', 'y', ':', '%', 'd', '.', '%', 'd', '.', '%', 'd', '.',
    '%', 'd']

/-- `IP1(a)` to `IP4(a)` -/
def ip_args (a : UInt32) : List Arg :=
  [a >>> 24 &&& 0xff, a >>> 16 &&& 0xff, a >>> 8 &&& 0xff, a &&& 0xff].map fun x =>
    Arg.word x.toBitVec

/-- What `sys_get_vctl_ip` makes of the text of the entry, with what the three variables
held. -/
def parse_ip (cp : List UInt8) (old : IpCfg) : IpCfg :=
  match sys_find_str cp (ascii ['I', 'P', ':']) with
  | none => old
  | some cp =>
    let cp := cp.drop 3
    let new := { old with ipaddr := Str.str2ip cp }
    match sys_find_str cp (ascii ['N', 'e', 't', 'm', 'a', 's', 'k', ':']) with
    | none => new
    | some cp =>
      let cp := cp.drop 8
      let new := { new with netmask := Str.str2ip cp }
      match sys_find_str cp (ascii ['G', 'a', 't', 'e', 'w', 'a', 'y', ':']) with
      | none => new
      | some cp => { new with gateway := Str.str2ip (cp.drop 8) }

def sys_get_vctl_ip (m : ByteMem) (stack : List UInt8) (old : IpCfg) : IpCfg :=
  let r := sys_get_vctl_entry A m VCT_IP 128
  if r.ret = 0 then parse_ip (entry_text r.result stack 128) old else old

/-- The entry that `sys_set_vctl_ip` saves. -/
def ip_entry_bytes (m : ByteMem) (c : IpCfg) (buf : ℕ → UInt8) : List UInt8 :=
  text_entry A m VCT_IP 128 ip_format
    (ip_args c.ipaddr ++ (ip_args c.netmask ++ ip_args c.gateway)) buf

def sys_set_vctl_ip (target : Target) (s : Store σ) (c : IpCfg) (buf : ℕ → UInt8)
    (malloc : Option ByteMem) : Store σ :=
  (sys_save_vctl_entry F A target s VCT_IP (ip_entry_bytes A s.ram c buf) malloc).1

/-! ## `sys_get_vctl_boot_file`, `sys_set_vctl_boot_file` -/

def VCT_BOOT_FILE : ℕ := 0x81

structure BootFiles where
  f1_name : List UInt8
  f1_addr : UInt32
  f2_name : List UInt8
  f2_addr : UInt32

/-- `1:0x%X %s 2:0x%X %s` -/
def boot_format : List UInt8 :=
  ascii ['1', ':', '0', 'x', '%', 'X', ' ', '%', 's', ' ', '2', ':', '0', 'x', '%', 'X', ' ',
    '%', 's']

def boot_args (f : BootFiles) : List Arg :=
  [.word f.f1_addr.toBitVec, .str (some f.f1_name), .word f.f2_addr.toBitVec, .str (some f.f2_name)]

/-- What `sys_get_vctl_boot_file` makes of the text of the entry, with what the four variables
held. -/
def parse_boot_file (cp : List UInt8) (old : BootFiles) : BootFiles :=
  match sys_find_str cp (ascii ['1', ':']) with
  | none => old
  | some cp =>
    let cp := cp.drop 2
    let new := { old with f1_addr := str2value cp }
    match sys_find_str cp [ch ' '] with
    | none => new
    | some cp =>
      let f1 := sys_copy_str (cp.drop 1)
      let new := { new with f1_name := f1.1 }
      match sys_find_str f1.2 (ascii ['2', ':']) with
      | none => new
      | some cp =>
        let cp := cp.drop 2
        let new := { new with f2_addr := str2value cp }
        match sys_find_str cp [ch ' '] with
        | none => new
        | some cp => { new with f2_name := (sys_copy_str (cp.drop 1)).1 }

def sys_get_vctl_boot_file (m : ByteMem) (stack : List UInt8) (old : BootFiles) : BootFiles :=
  let r := sys_get_vctl_entry A m VCT_BOOT_FILE 512
  if r.ret = 0 then parse_boot_file (entry_text r.result stack 512) old else old

/-- The entry that `sys_set_vctl_boot_file` saves. -/
def boot_entry_bytes (m : ByteMem) (f : BootFiles) (buf : ℕ → UInt8) : List UInt8 :=
  text_entry A m VCT_BOOT_FILE 512 boot_format (boot_args f) buf

def sys_set_vctl_boot_file (target : Target) (s : Store σ) (f : BootFiles) (buf : ℕ → UInt8)
    (malloc : Option ByteMem) : Store σ :=
  (sys_save_vctl_entry F A target s VCT_BOOT_FILE (boot_entry_bytes A s.ram f buf) malloc).1

/-! ## `sys_get_vctl_mac` -/

/-- `char2hex(*cp++) * 16 + char2hex(*cp++)` six times. -/
def read_mac (cp : List UInt8) : ℕ → UInt8 := fun i =>
  (char2hex (cp.getD (2 * i) 0) * 16 + char2hex (cp.getD (2 * i + 1) 0)).toUInt8

/-- `sys_get_vctl_mac`: the store and the two addresses, six bytes of each. -/
def sys_get_vctl_mac (target : Target) (s : Store σ) (stack : List UInt8)
    (old : (ℕ → UInt8) × (ℕ → UInt8)) (malloc : Option ByteMem) :
    Store σ × (ℕ → UInt8) × (ℕ → UInt8) :=
  let r := sys_get_vctl_entry A s.ram VCT_VLAN 128
  if r.ret ≠ 0 then (s, old)
  else
    let entry_buf := (r.result ++ stack.drop r.result.length).take 128
    let cp := entry_buf.drop (ENTRY_LEN + 7)
    let cp' := entry_buf.drop (ENTRY_LEN + 43)
    let mac1 := read_mac cp
    let mac2 := read_mac cp'
    let bug := decide (cp.getD 12 0 = 0) || decide (cp'.getD 12 0 = 0)
    (if bug then sys_set_vctl_mac F A target s mac1 mac2 malloc else s, mac1, mac2)

/-! ## The configuration -/

/-- The variables `my_mac_addr[0]`, `my_mac_addr[1]`, `my_ip_addr` to `my_ip_gateway`, and
`my_kernel_name` to `my_initrd_addr`. -/
structure Cfg where
  mac0 : List UInt8
  mac1 : List UInt8
  ip : IpCfg
  boot : BootFiles

/-- An address as the functions of the store take it. -/
def mac_bytes (mac : List UInt8) : ℕ → UInt8 := fun i => mac.getD i 0

/-- `sys_init_cfg`, with the values the board is compiled with, and what each of the three
calls finds on the stack. -/
def sys_init_cfg (target : Target) (s : Store σ) (default : Cfg) (stack : ℕ → List UInt8)
    (malloc : Option ByteMem) : Store σ × Cfg :=
  let r := sys_get_vctl_mac F A target s (stack 0) (mac_bytes default.mac0, mac_bytes default.mac1)
    malloc
  (r.1,
    { mac0 := firstBytes r.2.1 6
      mac1 := firstBytes r.2.2 6
      ip := sys_get_vctl_ip A r.1.ram (stack 1) default.ip
      boot := sys_get_vctl_boot_file A r.1.ram (stack 2) default.boot })

def sys_save_mac (target : Target) (s : Store σ) (cfg : Cfg) (malloc : Option ByteMem) : Store σ :=
  sys_set_vctl_mac F A target s (mac_bytes cfg.mac0) (mac_bytes cfg.mac1) malloc

def sys_save_ip_cfg (target : Target) (s : Store σ) (cfg : Cfg) (buf : ℕ → UInt8)
    (malloc : Option ByteMem) : Store σ :=
  sys_set_vctl_ip F A target s cfg.ip buf malloc

def sys_save_boot_file (target : Target) (s : Store σ) (cfg : Cfg) (buf : ℕ → UInt8)
    (malloc : Option ByteMem) : Store σ :=
  sys_set_vctl_boot_file F A target s cfg.boot buf malloc

end Store

end CsBoot.Vctl
