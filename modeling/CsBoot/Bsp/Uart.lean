/-
The input of the console, `src/src/bsp/uart/uart_drv.c`.

Nothing is received by interrupt: `uart_polling` looks at the line status and takes one
character when there is one, and `uart_scanc` does the same before it takes the first
character out of the buffer. What the registers read at a call is the input of the call,
whatever the device makes of them. Of the statistics only the counter of dropped
characters is modelled, since no other one is ever changed.

The buffer is a ring of 256 characters, and the console a queue: what `uart_scanc` has
returned is the beginning of what was not dropped, and dropped is what comes while 256
characters are waiting (`console_faithful`).
-/
import CsBoot.Lib.RingQueue

set_option autoImplicit false

namespace CsBoot.Uart

def UART_RXBUF_SIZE : ℕ := 256
def UART_LSR_DR : UInt8 := 0x01
def SERIAL_LSR_DR : UInt32 := 0x1

structure UART_BUF_T where
  total : ℕ
  in_idx : ℕ
  out_idx : ℕ
  buf : ℕ → UInt8

/-- `UART_INFO_T`, as far as receiving goes. -/
structure UART_INFO_T where
  IT8712_existed : Bool
  rxbuf : UART_BUF_T
  no_rxbuf_cnt : UInt32

/-- What the line status and the receive buffer register read. -/
structure Port where
  lsr : UInt32
  data : UInt32

/-- `uart_init` sets everything to zero. -/
def uart_init (existed : Bool) : UART_INFO_T := ⟨existed, ⟨0, 0, 0, fun _ => 0⟩, 0⟩

/-- A character that was read is put into the buffer, or counted. -/
def uart_receive (uart : UART_INFO_T) (data : UInt8) : UART_INFO_T :=
  let rxbuf := uart.rxbuf
  if rxbuf.total < UART_RXBUF_SIZE then
    let in_idx := rxbuf.in_idx + 1
    { uart with
      rxbuf :=
        { rxbuf with
          buf := fun i => if i = rxbuf.in_idx then data else rxbuf.buf i
          in_idx := if UART_RXBUF_SIZE ≤ in_idx then 0 else in_idx
          total := rxbuf.total + 1 } }
  else { uart with no_rxbuf_cnt := uart.no_rxbuf_cnt + 1 }

def uart_polling (uart : UART_INFO_T) (port : Port) : UART_INFO_T :=
  if uart.IT8712_existed then
    -- both registers are read as bytes here
    if port.lsr.toUInt8 &&& UART_LSR_DR = UART_LSR_DR then uart_receive uart port.data.toUInt8
    else uart
  else
    if port.lsr &&& SERIAL_LSR_DR = SERIAL_LSR_DR then
      uart_receive uart (port.data &&& 0xff).toUInt8
    else uart

/-- `uart_scanc`: the character, when it returns 1. -/
def uart_scanc (uart : UART_INFO_T) (port : Port) : Option UInt8 × UART_INFO_T :=
  let uart := uart_polling uart port
  let rxbuf := uart.rxbuf
  if rxbuf.total ≠ 0 then
    let data := rxbuf.buf rxbuf.out_idx
    let out_idx := rxbuf.out_idx + 1
    (some data,
      { uart with
        rxbuf :=
          { rxbuf with
            out_idx := if UART_RXBUF_SIZE ≤ out_idx then 0 else out_idx
            total := rxbuf.total - 1 } })
  else (none, uart)

/-! ## The console -/

/-- The character that a poll finds. -/
def Port.char (existed : Bool) (port : Port) : Option UInt8 :=
  if existed then
    if port.lsr.toUInt8 &&& UART_LSR_DR = UART_LSR_DR then some port.data.toUInt8 else none
  else if port.lsr &&& SERIAL_LSR_DR = SERIAL_LSR_DR then some (port.data &&& 0xff).toUInt8
  else none

/-- The calls, with what the registers read. -/
inductive UartCall
  | polling (port : Port)
  | scanc (port : Port)

/-- The driver, with what has become of the received characters: those that came while
there was room, those that came while 256 of them were waiting, and those that
`uart_scanc` has returned. -/
structure Console where
  uart : UART_INFO_T
  kept : List UInt8
  dropped : List UInt8
  returned : List UInt8

def Console.booted (existed : Bool) : Console := ⟨uart_init existed, [], [], []⟩

/-- The number of characters that came and have not been returned. -/
def Console.waiting (s : Console) : ℕ := s.kept.length - s.returned.length

/-- A character arrives, or none. -/
def Console.arrive (s : Console) : Option UInt8 → Console
  | none => s
  | some c =>
    if s.waiting = 256 then { s with dropped := s.dropped ++ [c] }
    else { s with kept := s.kept ++ [c] }

def Console.step (s : Console) : UartCall → Console
  | .polling port =>
    { s.arrive (port.char s.uart.IT8712_existed) with uart := uart_polling s.uart port }
  | .scanc port =>
    let r := uart_scanc s.uart port
    let s := s.arrive (port.char s.uart.IT8712_existed)
    { s with uart := r.2, returned := s.returned ++ r.1.toList }

def Console.run (s : Console) (calls : List UartCall) : Console := calls.foldl Console.step s

/-! ## The ring -/

def UART_BUF_T.ring (b : UART_BUF_T) : RingQueue UInt8 :=
  ⟨b.buf, UART_RXBUF_SIZE, b.in_idx, b.out_idx, b.total⟩

section Ring

variable {uart : UART_INFO_T} {c : UInt8}

/-- With room, a character is put at the end, -/
theorem uart_receive_room (h : uart.rxbuf.total < UART_RXBUF_SIZE) :
    (uart_receive uart c).rxbuf.ring = uart.rxbuf.ring.push c ∧
      (uart_receive uart c).no_rxbuf_cnt = uart.no_rxbuf_cnt := by
  rw [uart_receive, if_pos h]
  exact ⟨rfl, rfl⟩

/-- and without room it is counted. -/
theorem uart_receive_full (h : ¬ uart.rxbuf.total < UART_RXBUF_SIZE) :
    (uart_receive uart c).rxbuf = uart.rxbuf ∧
      (uart_receive uart c).no_rxbuf_cnt = uart.no_rxbuf_cnt + 1 := by
  rw [uart_receive, if_neg h]
  exact ⟨rfl, rfl⟩

/-- A poll receives the character that it finds. -/
theorem uart_polling_eq (uart : UART_INFO_T) (port : Port) :
    uart_polling uart port =
      match port.char uart.IT8712_existed with
      | none => uart
      | some c => uart_receive uart c := by
  unfold uart_polling Port.char
  split_ifs <;> rfl

/-- What `uart_scanc` makes of the buffer after its poll. -/
theorem uart_scanc_some {port : Port} (h : (uart_polling uart port).rxbuf.total ≠ 0) :
    (uart_scanc uart port).1 =
        some ((uart_polling uart port).rxbuf.ring.buf (uart_polling uart port).rxbuf.ring.out) ∧
      (uart_scanc uart port).2.rxbuf.ring = (uart_polling uart port).rxbuf.ring.pop ∧
      (uart_scanc uart port).2.no_rxbuf_cnt = (uart_polling uart port).no_rxbuf_cnt := by
  rw [uart_scanc, if_pos h]
  exact ⟨rfl, rfl, rfl⟩

theorem uart_scanc_none {port : Port} (h : (uart_polling uart port).rxbuf.total = 0) :
    uart_scanc uart port = (none, uart_polling uart port) := by
  simp [uart_scanc, h]

end Ring

/-! ## The queue -/

/-- The console is a queue: what was returned is the beginning of what was kept, the
rest is in the buffer, and the counters say how much it is. -/
structure FaithfulQueue (s : Console) : Prop where
  in_order : s.returned <+: s.kept
  queued : s.kept = s.returned ++ s.uart.rxbuf.ring.contents
  total : s.uart.rxbuf.total = s.waiting
  total_le : s.uart.rxbuf.total ≤ 256
  in_idx : s.uart.rxbuf.in_idx = (s.uart.rxbuf.out_idx + s.uart.rxbuf.total) % 256
  inside : s.uart.rxbuf.in_idx < 256 ∧ s.uart.rxbuf.out_idx < 256
  counted : s.uart.no_rxbuf_cnt.toNat = s.dropped.length % 2 ^ 32

/-- What every call keeps. -/
structure Inv (s : Console) : Prop where
  ok : s.uart.rxbuf.ring.Ok
  queued : s.kept = s.returned ++ s.uart.rxbuf.ring.contents
  counted : s.uart.no_rxbuf_cnt.toNat = s.dropped.length % 2 ^ 32

theorem inv_booted (existed : Bool) : Inv (Console.booted existed) where
  ok :=
    { inp_lt := Nat.zero_lt_succ _
      out_lt := Nat.zero_lt_succ _
      size_le := Nat.zero_le _
      apart := rfl }
  queued := rfl
  counted := rfl

section Step

variable {s : Console}

theorem Inv.waiting (h : Inv s) : s.waiting = s.uart.rxbuf.total := by
  rw [Console.waiting, h.queued, List.length_append, RingQueue.length_contents,
    Nat.add_sub_cancel_left]
  rfl

/-- A character that arrives. -/
theorem Inv.receive (h : Inv s) (c : UInt8) :
    Inv { s.arrive (some c) with uart := uart_receive s.uart c } := by
  by_cases hroom : s.uart.rxbuf.total < UART_RXBUF_SIZE
  · obtain ⟨hring, hcnt⟩ := uart_receive_room (c := c) hroom
    have hne : s.waiting ≠ 256 := by
      rw [h.waiting]
      exact Nat.ne_of_lt hroom
    rw [Console.arrive, if_neg hne]
    constructor
    · rw [hring]
      exact h.ok.push hroom
    · simp only [hring, h.ok.contents_push hroom, h.queued, List.append_assoc]
    · rw [hcnt]
      exact h.counted
  · obtain ⟨hbuf, hcnt⟩ := uart_receive_full (c := c) hroom
    have hle := h.ok.size_le
    have hfull : s.waiting = 256 := by
      rw [h.waiting]
      exact Nat.le_antisymm hle (Nat.le_of_not_lt hroom)
    rw [Console.arrive, if_pos hfull]
    constructor
    · rw [hbuf]
      exact h.ok
    · rw [hbuf]
      exact h.queued
    · have hprev := h.counted
      rw [hcnt, UInt32.toNat_add, hprev, List.length_append, List.length_singleton, Nat.mod_add_mod]
      rfl

/-- A poll. -/
theorem Inv.poll (h : Inv s) (port : Port) :
    Inv { s.arrive (port.char s.uart.IT8712_existed) with uart := uart_polling s.uart port } := by
  rw [uart_polling_eq]
  cases port.char s.uart.IT8712_existed with
  | none => exact h
  | some c => exact h.receive c

/-- A poll, and the first character is taken out. -/
theorem Inv.scan (h : Inv s) (port : Port) : Inv (s.step (.scanc port)) := by
  have hpoll := h.poll port
  by_cases hempty : (uart_polling s.uart port).rxbuf.total = 0
  · rw [Console.step, uart_scanc_none hempty]
    simp only [Option.toList_none, List.append_nil]
    exact hpoll
  · obtain ⟨hdata, hring, hcnt⟩ := uart_scanc_some hempty
    have hsize : 0 < (uart_polling s.uart port).rxbuf.ring.size := Nat.pos_of_ne_zero hempty
    have hqueued := hpoll.queued
    constructor
    · rw [Console.step, hring]
      exact hpoll.ok.pop hsize
    · simp only [hpoll.ok.contents_pop hsize] at hqueued
      simp only [Console.step, hdata, hring, Option.toList_some, hqueued, List.append_assoc,
        List.singleton_append]
    · rw [Console.step, hcnt]
      exact hpoll.counted

theorem Inv.step (h : Inv s) (call : UartCall) : Inv (s.step call) := by
  cases call with
  | polling port => exact h.poll port
  | scanc port => exact h.scan port

theorem Inv.run (h : Inv s) (calls : List UartCall) : Inv (s.run calls) := by
  induction calls generalizing s with
  | nil => exact h
  | cons call calls ih => exact ih (h.step call)

theorem Inv.faithful (h : Inv s) : FaithfulQueue s where
  in_order := ⟨_, h.queued.symm⟩
  queued := h.queued
  total := h.waiting.symm
  total_le := h.ok.size_le
  in_idx := h.ok.apart
  inside := ⟨h.ok.inp_lt, h.ok.out_lt⟩
  counted := h.counted

end Step

/-- **The console is a faithful queue**, after any calls, whatever the registers read. -/
theorem console_faithful (existed : Bool) (calls : List UartCall) :
    FaithfulQueue ((Console.booted existed).run calls) :=
  ((inv_booted existed).run calls).faithful

end CsBoot.Uart
