/-
The life of the UDP socket: `udp_socket`, `udp_close` and the datagrams that arrive in
between, in any order.

`udp_input` goes by the port, the addresses and the pointer to the ring, and none of them
says that the socket is in use: `udp_close` sets the port to 0, which is a port like any
other to `udp_input`, and leaves the pointer to the ring that it has freed. `udp_socket`
takes the socket before it has a ring, and keeps it when there is no memory for one.

The table has one socket. Whether the ring that the socket points to has been freed is
kept beside it. What `udp_recvfrom` does to the port is an operation as well.
-/
import CsBoot.Lib.Run
import CsBoot.Net.UdpSafe

set_option autoImplicit false

namespace CsBoot.Net

def UDP_SOCKET_MAX_NUM : ℤ := 1

/-- The socket, and whether its `buf_start_p` is what was given to `free`. -/
structure UdpTable where
  sock : UDP_SOCK_T
  freed : Bool

/-- What happens to the table. `malloc` is what that function returns for the ring. -/
inductive UdpCall
  | udp_socket (server : ℕ) (malloc : Option (ℕ → UInt8))
  | udp_close (s : ℤ)
  /-- `sock->listen_port = htons(listen_port)` in `udp_recvfrom`. -/
  | listen (listen_port : ℕ)
  | datagram (f : Frame)

/-- `udp_close`; the pointer stays. -/
def udp_close (t : UdpTable) (s : ℤ) : UdpTable × ℤ :=
  if s < 0 ∨ UDP_SOCKET_MAX_NUM ≤ s then (t, -1)
  else
    ({ sock := { t.sock with used := false, listen_port := 0 }
       freed := t.freed || t.sock.has_buf }, 0)

/-- `udp_socket`. Where it takes the socket it overwrites the pointer. -/
def udp_open (t : UdpTable) (server : ℕ) (malloc : Option (ℕ → UInt8)) : UdpTable × ℤ :=
  let r := udp_socket t.sock server malloc
  (⟨r.1, t.sock.used && t.freed⟩, r.2)

def UdpTable.step (my_ip_addr : ℕ) (t : UdpTable) : UdpCall → UdpTable
  | .udp_socket server malloc => (udp_open t server malloc).1
  | .udp_close s => (udp_close t s).1
  | .listen listen_port => { t with sock := { t.sock with listen_port := listen_port } }
  | .datagram f => { t with sock := (udp_input my_ip_addr t.sock f).1 }

/-- After `udp_init`. -/
def UdpTable.start : UdpTable := ⟨udp_init, false⟩

section Life

variable (my_ip_addr : ℕ)

/-- A call of `udp_socket` that fails leaves the table as it was, and a datagram leaves a
socket that is not in use as it was, and a ring that has been freed. -/
def LifeRight (t : UdpTable) : UdpCall → Prop
  | .udp_socket server malloc =>
    (udp_open t server malloc).2 = -1 → (udp_open t server malloc).1.sock = t.sock
  | .datagram f =>
    (t.sock.used = false → (udp_input my_ip_addr t.sock f).1 = t.sock) ∧
      (t.freed = true → (udp_input my_ip_addr t.sock f).2 = 0)
  | .udp_close _ | .listen _ => True

/-- What the datagram sets is what the socket has already, and there is nothing to copy. -/
def Repeats (s : UDP_SOCK_T) (f : Frame) : Prop :=
  s.from_port = f.udp_sport ∧
    (Fits s f → f.udp_length = UDP_HDR_SIZE) ∧
    (¬ Fits s f →
      s.error_code = if s.has_buf then UDP_ERROR_OVERFLOW else UDP_ERROR_NO_BUF)

/-- There is memory for a ring when the socket is taken, and a datagram for a socket that
is not in use says nothing new. -/
def LifeClear (t : UdpTable) : UdpCall → Prop
  | .udp_socket _ malloc => t.sock.used = true ∨ malloc.isSome
  | .datagram f => t.sock.used = true ∨ ¬ udp_hit my_ip_addr t.sock f ∨ Repeats t.sock f
  | .udp_close _ | .listen _ => True

/-! ## One operation -/

/-- The ring of a socket in use has not been freed. -/
def RingAlive (t : UdpTable) : Prop := t.sock.used = true → t.freed = false

variable {my_ip_addr} {t : UdpTable} {f : Frame} {s : UDP_SOCK_T}

/-- A call that fails for want of memory is the one that changes the socket. -/
theorem udp_open_right_iff (server : ℕ) (malloc : Option (ℕ → UInt8)) :
    LifeRight my_ip_addr t (.udp_socket server malloc) ↔
      LifeClear my_ip_addr t (.udp_socket server malloc) := by
  simp only [LifeRight, LifeClear, udp_open, udp_socket]
  cases hused : t.sock.used with
  | true => simp
  | false =>
    cases malloc with
    | some buf => simp
    | none =>
      simp only [Bool.false_eq_true, if_false, forall_const, Option.isSome_none, or_self, iff_false]
      intro h
      exact Bool.false_ne_true (hused.symm.trans (congrArg UDP_SOCK_T.used h).symm)

theorem put_bytes_data_size (s : UDP_SOCK_T) (data_p : ℕ → UInt8) (n : ℕ) :
    (put_bytes s data_p n).data_size % 2 ^ 32 = (s.data_size + n) % 2 ^ 32 := by
  induction n generalizing s data_p with
  | zero => simp [put_bytes]
  | succ n ih =>
    have hone : (put_byte s (data_p 0)).data_size % 2 ^ 32 = (s.data_size + 1) % 2 ^ 32 :=
      Int.bmod_emod ..
    rw [put_bytes, ih]
    push_cast
    omega

theorem as_count_payload :
    as_count ((f.udp_length : ℤ) - UDP_HDR_SIZE) < 2 ^ 32 ∧
      (as_count ((f.udp_length : ℤ) - UDP_HDR_SIZE) = 0 ↔ f.udp_length = UDP_HDR_SIZE) := by
  have hlt : f.udp_length < 65536 := by
    have h₀ := (f.data (UDP_OFFSET + 4)).toNat_lt
    have h₁ := (f.data (UDP_OFFSET + 4 + 1)).toNat_lt
    unfold Frame.udp_length be16
    omega
  unfold as_count UDP_HDR_SIZE
  omega

/-- When a datagram for the socket changes nothing. -/
theorem udp_input_eq_self_iff (hhit : udp_hit my_ip_addr s f) :
    (udp_input my_ip_addr s f).1 = s ↔ Repeats s f := by
  obtain ⟨hlt, hzero⟩ := as_count_payload (f := f)
  by_cases hfit : Fits s f
  · rw [udp_input_of_fits hhit hfit]
    simp only [Repeats, hfit, forall_const, not_true_eq_false, IsEmpty.forall_iff, and_true]
    constructor
    · intro h
      have hsize := put_bytes_data_size { s with from_port := f.udp_sport } f.udp_data
        (as_count ((f.udp_length : ℤ) - UDP_HDR_SIZE))
      rw [h] at hsize
      have hnone : as_count ((f.udp_length : ℤ) - UDP_HDR_SIZE) = 0 := by
        simp only at hsize
        omega
      rw [hnone] at h
      exact ⟨(congrArg UDP_SOCK_T.from_port h).symm, hzero.mp hnone⟩
    · rintro ⟨hport, hlen⟩
      rw [hzero.mpr hlen, put_bytes, ← hport]
  · rw [udp_input_of_not_fits hhit hfit]
    simp only [Repeats, hfit, IsEmpty.forall_iff, not_false_eq_true, forall_const, true_and]
    constructor
    · intro h
      exact ⟨(congrArg UDP_SOCK_T.from_port h).symm, (congrArg UDP_SOCK_T.error_code h).symm⟩
    · rintro ⟨hport, herror⟩
      rw [← hport, ← herror]

/-- Where it changes nothing it copies nothing. -/
theorem udp_input_copies_none (h : ¬ udp_hit my_ip_addr s f ∨ Repeats s f) :
    (udp_input my_ip_addr s f).2 = 0 := by
  by_cases hhit : udp_hit my_ip_addr s f
  · have hrep := h.resolve_left (not_not.mpr hhit)
    by_cases hfit : Fits s f
    · rw [udp_input_of_fits hhit hfit]
      exact as_count_payload.2.mpr (hrep.2.1 hfit)
    · rw [udp_input_of_not_fits hhit hfit]
  · rw [udp_input_of_not_hit hhit]

theorem datagram_right_iff (ht : RingAlive t) (f : Frame) :
    LifeRight my_ip_addr t (.datagram f) ↔ LifeClear my_ip_addr t (.datagram f) := by
  simp only [LifeRight, LifeClear]
  cases hused : t.sock.used with
  | true => simp [ht hused]
  | false =>
    simp only [forall_const, Bool.false_eq_true, false_or]
    constructor
    · rintro ⟨hsame, -⟩
      by_cases hhit : udp_hit my_ip_addr t.sock f
      · exact .inr ((udp_input_eq_self_iff hhit).mp hsame)
      · exact .inl hhit
    · intro h
      refine ⟨?_, fun _ => udp_input_copies_none h⟩
      by_cases hhit : udp_hit my_ip_addr t.sock f
      · exact (udp_input_eq_self_iff hhit).mpr (h.resolve_left (not_not.mpr hhit))
      · rw [udp_input_of_not_hit hhit]

theorem lifeRight_iff (ht : RingAlive t) (op : UdpCall) :
    LifeRight my_ip_addr t op ↔ LifeClear my_ip_addr t op := by
  cases op with
  | udp_socket server malloc => exact udp_open_right_iff server malloc
  | udp_close s => exact Iff.rfl
  | listen listen_port => exact Iff.rfl
  | datagram f => exact datagram_right_iff ht f

/-! ## All operations -/

theorem put_bytes_used (s : UDP_SOCK_T) (data_p : ℕ → UInt8) (n : ℕ) :
    (put_bytes s data_p n).used = s.used := by
  induction n generalizing s data_p with
  | zero => rfl
  | succ n ih => exact ih _ _

theorem udp_input_used : (udp_input my_ip_addr s f).1.used = s.used := by
  by_cases hhit : udp_hit my_ip_addr s f
  · by_cases hfit : Fits s f
    · rw [udp_input_of_fits hhit hfit, put_bytes_used]
    · rw [udp_input_of_not_fits hhit hfit]
  · rw [udp_input_of_not_hit hhit]

/-- No operation leaves a socket in use with a ring that has been freed. -/
theorem RingAlive.step (ht : RingAlive t) (op : UdpCall) : RingAlive (t.step my_ip_addr op) := by
  unfold RingAlive at *
  cases op with
  | udp_socket server malloc =>
    simp only [UdpTable.step, udp_open]
    cases hused : t.sock.used with
    | true => simp [ht hused]
    | false => simp
  | udp_close s =>
    simp only [UdpTable.step, udp_close]
    split
    · exact ht
    · simp
  | listen listen_port => exact ht
  | datagram f =>
    simp only [UdpTable.step, udp_input_used]
    exact ht

end Life

/-- **The life of the socket is as it should be exactly when**, at each operation, there is
memory for the ring, and no datagram that says anything new is for a socket not in use. -/
theorem udp_life_right_iff (my_ip_addr : ℕ) (ops : List UdpCall) :
    EveryStep (UdpTable.step my_ip_addr) (LifeRight my_ip_addr) UdpTable.start ops ↔
      EveryStep (UdpTable.step my_ip_addr) (LifeClear my_ip_addr) UdpTable.start ops :=
  EveryStep.iff_of_invariant (fun h => absurd h Bool.false_ne_true)
    (fun _ op ht => lifeRight_iff ht op) (fun _ op ht _ => ht.step op) ops

/-- Three bytes from the server for port 0. -/
def port_zero_frame : Frame :=
  frame_of [0x00, 0x50, 0xc2, 0x11, 0x11, 0x11, 0x02, 0, 0, 0, 0, 0x01, 0x08, 0x00,
    0x45, 0, 0, 31, 0, 1, 0, 0, 64, 17, 247, 23, 192, 168, 1, 100, 192, 168, 1, 1,
    0, 69, 0, 0, 0, 11, 119, 219, 1, 2, 3]

/-- A socket that has been closed. -/
def closed_table : UdpTable :=
  [.udp_socket 0xc0a80164 (some fun _ => 0), .udp_close 0].foldl (UdpTable.step sample_ip)
    UdpTable.start

/-- The bytes go into the ring that was freed; and a call that fails keeps the socket. -/
theorem udp_life_violated :
    closed_table.freed = true ∧ closed_table.sock.used = false ∧
      (udp_input sample_ip closed_table.sock port_zero_frame).2 = 3 ∧
      ¬ EveryStep (UdpTable.step sample_ip) (LifeRight sample_ip) UdpTable.start
        [.udp_socket 0xc0a80164 (some fun _ => 0), .udp_close 0, .datagram port_zero_frame] ∧
      ¬ EveryStep (UdpTable.step sample_ip) (LifeRight sample_ip) UdpTable.start
        [.udp_socket 0xc0a80164 none] := by
  have hcopied : (udp_input sample_ip closed_table.sock port_zero_frame).2 = 3 := by
    have hhit : udp_hit sample_ip closed_table.sock port_zero_frame := ⟨by decide, by decide⟩
    have hfit : Fits closed_table.sock port_zero_frame := ⟨rfl, by decide⟩
    rw [udp_input_of_fits hhit hfit]
    decide
  refine ⟨rfl, rfl, hcopied, fun h => ?_, fun h => ?_⟩
  · have hnone := h.2.2.1.2 rfl
    rw [closed_table] at hcopied
    exact absurd (hcopied.symm.trans hnone) (by decide)
  · have hsame := h.1 rfl
    exact absurd (congrArg UDP_SOCK_T.used hsame) (by decide)

end CsBoot.Net
