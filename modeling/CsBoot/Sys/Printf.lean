/-
Formatted output, `sys_vprintf`, `printf_putc` and `sys_sprintf` of
`src/src/sys/sys_printf.c`.

A string is its characters in front of the final zero. What `sys_vprintf` hands to
`printf_putc` does not depend on what becomes of it there, so it is a list of characters, and
`sys_sprintf` is `printf_putc` of one after the other. The buffer is part of the memory,
whose bytes are counted from the beginning of the buffer: a backspace takes a byte back also
when there is none.

The numbers of a format are taken as they are written, an `int` has room for those that
matter. A format that ends inside a conversion has the program read on behind the final zero;
here it ends there. A string that is no argument of the call is `NULL`, a number 0.
-/
import CsBoot.Lib.CString

set_option autoImplicit false

namespace CsBoot.Printf

open CString

/-! ## `printf_putc` -/

/-- The memory from the buffer on, and in front of it, and the place of the next character. -/
structure Out where
  mem : ℤ → UInt8
  sprint_bufp : ℤ

def BACKSPACE : UInt8 := 8

/-- `printf_putc`, with a buffer to go to. -/
def printf_putc (o : Out) (data : UInt8) : Out :=
  let o : Out :=
    if data = BACKSPACE then { o with sprint_bufp := o.sprint_bufp - 1 }
    else ⟨Function.update o.mem o.sprint_bufp data, o.sprint_bufp + 1⟩
  { o with mem := Function.update o.mem o.sprint_bufp 0 }

/-! ## `_cvt` -/

/-- The loop of `_cvt` that fills `temp`, with `n` bytes left in it. -/
def cvt_loop (radix : ℕ) (digits : List UInt8) : ℕ → ℕ → List UInt8
  | 0, _ => []
  | n + 1, val =>
    if val = 0 then []
    else digits.getD (val % radix &&& 0xf) 0 :: cvt_loop radix digits n (val / radix)

/-- `_cvt`: what it leaves in `buf` in front of the zero. -/
def cvt (val radix : ℕ) (digits : List UInt8) : List UInt8 :=
  if val = 0 then [ch '0']
  else if radix = 0 then []
  else (cvt_loop radix digits 80 val).reverse

def lower_digits : List UInt8 :=
  [ch '0', ch '1', ch '2', ch '3', ch '4', ch '5', ch '6', ch '7', ch '8', ch '9',
    ch 'a', ch 'b', ch 'c', ch 'd', ch 'e', ch 'f']

def upper_digits : List UInt8 :=
  [ch '0', ch '1', ch '2', ch '3', ch '4', ch '5', ch '6', ch '7', ch '8', ch '9',
    ch 'A', ch 'B', ch 'C', ch 'D', ch 'E', ch 'F']

/-! ## The conversions of a format -/

abbrev IsDigit (c : UInt8) : Prop := ch '0' ≤ c ∧ c ≤ ch '9'

/-- `while (is_digit(c))`, from the number `v` on; the string begins with `c`. -/
def take_num (v : ℕ) : List UInt8 → ℕ × List UInt8
  | [] => (v, [])
  | c :: s => if IsDigit c then take_num (v * 10 + (c - ch '0').toNat) s else (v, c :: s)

/-- What stands between a `%` and the rest of the format. -/
structure Conv where
  left_prec : ℕ
  pad_on_right : Bool
  zero_fill : Bool
  islong : Bool
  islonglong : Bool
  c : UInt8
  fmt : List UInt8

/-- `c = *fmt++` if `c` is the character. -/
def skip (c : UInt8) (s : List UInt8) : List UInt8 := if s.headD 0 = c then s.tail else s

/-- The conversion behind a `%`. The precision counts as a zero in front of the width, and
its number is not used. -/
def parse_conv (fmt : List UInt8) : Conv :=
  let s := skip (ch '-') fmt
  let t := skip (ch '0') s
  let width := take_num 0 t
  let prec := decide (width.2.headD 0 = ch '.')
  let u := if prec then (take_num 0 width.2.tail).2 else width.2
  let islong := decide (u.headD 0 = ch 'l')
  let w := skip (ch 'l') u
  let islonglong := islong && decide (w.headD 0 = ch 'l')
  let x := if islonglong then w.tail else w
  { left_prec := width.1
    pad_on_right := decide (fmt.headD 0 = ch '-')
    zero_fill := decide (s.headD 0 = ch '0') || prec
    islong
    islonglong
    c := x.headD 0
    fmt := x.tail }

/-! ## The arguments -/

/-- An argument as it was passed: an `int` or a `long`, a `long long`, a string or `NULL`. -/
inductive Arg
  | word (w : BitVec 32)
  | dword (d : BitVec 64)
  | str (s : Option (List UInt8))

/-- `va_arg(ap, int)` and `va_arg(ap, long)` -/
def va_arg_word : List Arg → BitVec 32
  | .word w :: _ => w
  | _ => 0

/-- `va_arg(ap, long long)` -/
def va_arg_dword : List Arg → BitVec 64
  | .dword d :: _ => d
  | _ => 0

/-- `va_arg(ap, char *)` -/
def va_arg_str : List Arg → Option (List UInt8)
  | .str s :: _ => s
  | _ => none

/-- `sys_check_string`, of a string that is there. -/
def sys_check_string (s : List UInt8) : Bool := decide (s.length ≤ 257)

/-! ## `sys_vprintf` -/

/-- The variables of `sys_vprintf` that a pass leaves to the next, and the characters handed
to `printf_putc`. -/
structure Locals where
  buf : ℕ → UInt8
  cp : ℕ → UInt8
  length : ℤ
  ap : List Arg
  res : ℤ
  put : List UInt8

/-- `printf_putc` of the characters, with `res++` for each. -/
def Locals.puts (l : Locals) (t : List UInt8) : Locals :=
  { l with put := l.put ++ t, res := l.res + t.length }

/-- A character with its carriage return. -/
def crlf (c : UInt8) : List UInt8 := if c = ch '\n' then [ch '\r', c] else [c]

/-- The string is left in `buf`. -/
def Locals.set_buf (l : Locals) (t : List UInt8) : Locals :=
  let buf := fun i => if i < t.length then t.getD i 0 else if i = t.length then 0 else l.buf i
  { l with buf, cp := buf, length := t.length }

def numeric : List UInt8 :=
  [ch 'p', ch 'd', ch 'D', ch 'x', ch 'X', ch 'u', ch 'U', ch 'b', ch 'B']

/-- "Fetch value": `val`, whether `sign` is set, and the arguments left. -/
def fetch (v : Conv) (ap : List Arg) : BitVec 64 × Bool × List Arg :=
  if v.c ∈ numeric then
    let val := if v.islonglong then va_arg_dword ap else (va_arg_word ap).signExtend 64
    if v.c = ch 'd' ∨ v.c = ch 'D' then
      if val.msb then (-val, true, ap.tail) else (val, false, ap.tail)
    else (val &&& 0xffffffff, false, ap.tail) -- the same mask for `islong` and without it
  else (0, false, ap)

/-- "Process output", the `switch` but for the characters of `%c`: the width and the fill
that hold from then on, and the variables. -/
def process (v : Conv) (val : BitVec 64) (l : Locals) : Conv × Locals :=
  if v.c = ch 'p' then
    ({ v with zero_fill := true, left_prec := 8 },
      { l with put := l.put ++ [ch '0', ch 'x'] }.set_buf (cvt val.toNat 16 lower_digits))
  else if v.c ∈ [ch 'd', ch 'D', ch 'u', ch 'U'] then
    (v, l.set_buf (cvt val.toNat 10 lower_digits))
  else if v.c = ch 'x' then (v, l.set_buf (cvt val.toNat 16 lower_digits))
  else if v.c = ch 'X' then (v, l.set_buf (cvt val.toNat 16 upper_digits))
  else if v.c ∈ [ch 's', ch 'S'] then
    let s :=
      match va_arg_str l.ap with
      | none => [ch '<', ch 'n', ch 'u', ch 'l', ch 'l', ch '>']
      | some s => if sys_check_string s then s else [ch '>']
    (v, { l with cp := fun i => s.getD i 0, length := s.length, ap := l.ap.tail })
  else if v.c ∈ [ch 'b', ch 'B'] then
    let length : ℕ := if v.left_prec = 0 then if v.islonglong then 64 else 32 else v.left_prec
    let buf := fun i =>
      if i < length - 1 then if val.getLsbD i then ch '1' else ch '.' else l.buf i
    (v, { l with buf, cp := buf, length })
  else if v.c = ch '%' then (v, { l with put := l.put ++ [ch '%'] })
  else (v, { l with put := l.put ++ [ch '%', v.c], res := l.res + 2 })

/-- What comes behind the `switch`. -/
def finish (v : Conv) (sign : Bool) (l : Locals) : Locals :=
  let sgn := if sign then [ch '-'] else []
  let pad := (v.left_prec - l.length - sgn.length).toNat
  let text := ((List.range l.length.toNat).map l.cp).flatMap crlf
  let fill := fun c => if v.pad_on_right then [] else List.replicate pad c
  let front := if v.zero_fill then sgn ++ fill (ch '0') else fill (ch ' ') ++ sgn
  let back := if v.pad_on_right then List.replicate pad (ch ' ') else []
  { l.puts (front ++ text ++ back) with
    -- the `length--` of the test that ends the loop
    length := min l.length 0 - 1
    cp := fun i => l.cp (i + l.length.toNat) }

/-- A pass of the loop for a conversion. -/
def conversion (v : Conv) (l : Locals) : Locals :=
  let f := fetch v l.ap
  let l := { l with ap := f.2.2 }
  if v.c = ch 'c' ∨ v.c = ch 'C' then
    { l.puts [UInt8.ofNat (va_arg_word l.ap).toNat] with ap := l.ap.tail }
  else
    let r := process v f.1 l
    finish r.1 f.2.1 r.2

/-- The loop of `sys_vprintf`, with `n` passes to go. -/
def sys_vprintf_loop : ℕ → List UInt8 → Locals → Locals
  | n + 1, c :: fmt, l =>
    if c = ch '%' then
      let v := parse_conv fmt
      sys_vprintf_loop n v.fmt (conversion v l)
    else sys_vprintf_loop n fmt (l.puts (crlf c))
  | _, _, l => l

/-- `sys_vprintf`, with what is in its `buf` at the call. -/
def sys_vprintf (fmt : List UInt8) (ap : List Arg) (buf : ℕ → UInt8) : Locals :=
  let l : Locals := { buf, cp := buf, length := 0, ap, res := 0, put := [] }
  if sys_check_string fmt then sys_vprintf_loop fmt.length fmt l else l

/-! ## A format with nothing behind it -/

/-- The conversion takes an argument. -/
def Conv.TakesArg (v : Conv) : Prop :=
  v.c ∈ numeric ∨ v.c ∈ [ch 's', ch 'S', ch 'c', ch 'C']

instance (v : Conv) : Decidable v.TakesArg := inferInstanceAs (Decidable (_ ∨ _))

/-- The loop of `sys_vprintf` finds no conversion that takes an argument, and none that goes on
behind the final zero. -/
def stands_alone_loop : ℕ → List UInt8 → Bool
  | n + 1, c :: fmt =>
    if c = ch '%' then
      let v := parse_conv fmt
      decide (v.c ≠ 0 ∧ ¬v.TakesArg) && stands_alone_loop n v.fmt
    else stands_alone_loop n fmt
  | _, _ => true

/-- `printf(fmt)` asks for nothing but the format; one that is too long is not looked at. -/
def stands_alone (fmt : List UInt8) : Bool :=
  !sys_check_string fmt || stands_alone_loop fmt.length fmt

/-- Such a conversion leaves `buf` alone. -/
theorem conversion_alone {v : Conv} (h : ¬v.TakesArg) (l : Locals) :
    (conversion v l).ap = l.ap ∧ (conversion v l).buf = l.buf := by
  simp only [Conv.TakesArg, numeric, List.mem_cons, List.not_mem_nil, or_false, not_or] at h
  simp only [conversion, fetch, process, finish, numeric, List.mem_cons, List.not_mem_nil, h,
    or_self, if_false]
  split_ifs <;> exact ⟨rfl, rfl⟩

theorem vprintf_loop_alone {n : ℕ} {fmt : List UInt8} (h : stands_alone_loop n fmt = true)
    (l : Locals) :
    (sys_vprintf_loop n fmt l).ap = l.ap ∧ (sys_vprintf_loop n fmt l).buf = l.buf := by
  induction n generalizing fmt l with
  | zero => exact ⟨rfl, rfl⟩
  | succ n ih =>
    cases fmt with
    | nil => exact ⟨rfl, rfl⟩
    | cons c fmt =>
      rw [stands_alone_loop] at h
      rw [sys_vprintf_loop]
      by_cases hc : c = ch '%'
      · rw [if_pos hc, Bool.and_eq_true, decide_eq_true_eq] at h
        obtain ⟨⟨-, hnone⟩, hrest⟩ := h
        obtain ⟨hap, hbuf⟩ := conversion_alone hnone l
        rw [if_pos hc, ← hap, ← hbuf]
        exact ih hrest _
      · rw [if_neg hc] at h
        rw [if_neg hc]
        exact ih h _

/-- **A format that stands alone** takes no argument and is printed without a use of `buf`. -/
theorem sys_vprintf_alone {fmt : List UInt8} (h : stands_alone fmt = true) (ap : List Arg)
    (buf : ℕ → UInt8) :
    (sys_vprintf fmt ap buf).ap = ap ∧ (sys_vprintf fmt ap buf).buf = buf := by
  rw [stands_alone, Bool.or_eq_true, Bool.not_eq_true'] at h
  rw [sys_vprintf]
  cases hcheck : sys_check_string fmt with
  | false => exact ⟨rfl, rfl⟩
  | true => exact vprintf_loop_alone (h.resolve_left fun hf => by rw [hcheck] at hf; cases hf) _

example : stands_alone [ch '1', ch '%', ch '%'] = true := by decide

example : stands_alone [ch '%', ch '3', ch '0', ch '0', ch 'b'] = false := by decide

/-! ## `sys_sprintf` -/

/-- `sys_strlen`, from the `i`-th byte on, when it looks at `n` bytes at most. -/
def sys_strlen (mem : ℤ → UInt8) : ℕ → ℕ → Option ℕ
  | 0, _ => none
  | n + 1, i => if mem i = 0 then some i else sys_strlen mem n (i + 1)

/-- `sys_sprintf`, whose call of `sys_strlen` looks at `n` bytes at most. -/
def sys_sprintf (mem : ℤ → UInt8) (fmt : List UInt8) (ap : List Arg) (stack : ℕ → UInt8)
    (n : ℕ) : (ℤ → UInt8) × Option ℕ :=
  let o := (sys_vprintf fmt ap stack).put.foldl printf_putc ⟨mem, 0⟩
  (o.mem, sys_strlen o.mem n 0)

end CsBoot.Printf
