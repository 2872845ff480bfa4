/-
`udp_input` on any frame that `ip_input` gives it.

The copy loop is a `push` for each byte into the ring of the socket
(`put_bytes_eq`). How many there are comes from the UDP length alone: a length
that is too small makes the count wrap to nearly `2^32`, and one that is too
large takes bytes that were not received. A datagram that is turned away has
changed the port and the error of the socket by then. The datagrams for which
all goes well are those of `InputOk` (`udp_input_safe_iff`).
-/
import CsBoot.Lib.RingQueue
import CsBoot.Lib.SkipBlocks
import CsBoot.Net.Udp

set_option autoImplicit false

namespace CsBoot.Net

open ByteMem SkipBlocks

/-! ## The ring of a socket -/

/-- The ring of a socket whose count is not negative. -/
def UDP_SOCK_T.ring (s : UDP_SOCK_T) : RingQueue UInt8 where
  buf := s.buf
  cap := s.buf_end_p
  inp := s.buf_in_p
  out := s.buf_out_p
  size := s.data_size.toNat

/-- The socket with another state of its ring. -/
def UDP_SOCK_T.with_ring (s : UDP_SOCK_T) (r : RingQueue UInt8) : UDP_SOCK_T :=
  { s with buf := r.buf, buf_in_p := r.inp, buf_out_p := r.out, data_size := r.size }

/-- What `udp_socket` sets up and is to stay: the count within the buffer, and
both pointers inside it. -/
structure SockOk (s : UDP_SOCK_T) : Prop where
  data_nonneg : 0 ≤ s.data_size
  data_le : s.data_size ≤ s.buf_size
  size_eq : s.has_buf → s.buf_size = UDP_SOCK_BUF_SIZE
  end_eq : s.has_buf → s.buf_end_p = UDP_SOCK_BUF_SIZE
  in_lt : s.has_buf → s.buf_in_p < s.buf_end_p
  out_lt : s.has_buf → s.buf_out_p < s.buf_end_p

theorem sockOk_udp_socket {s : UDP_SOCK_T} {server : ℕ} {buf : ℕ → UInt8} (h : s.used = false) :
    SockOk (udp_socket s server (some buf)).1 := by
  have hpos : 0 < UDP_SOCK_BUF_SIZE := by decide
  unfold udp_socket
  rw [h]
  exact ⟨le_rfl, Int.natCast_nonneg _, fun _ => rfl, fun _ => rfl, fun _ => hpos, fun _ => hpos⟩

section Bytes

variable {s : UDP_SOCK_T} {n : ℕ}

theorem wrap32_of_lt {z : ℤ} (h₀ : 0 ≤ z) (h : z < 2 ^ 31) : wrap32 z = z := by
  unfold wrap32
  rw [Int.bmod_def]
  omega

theorem with_ring_self (h : 0 ≤ s.data_size) : s.with_ring s.ring = s := by
  cases s
  simp only [UDP_SOCK_T.with_ring, UDP_SOCK_T.ring] at h ⊢
  rw [Int.toNat_of_nonneg h]

theorem ring_with_ring {r : RingQueue UInt8} (h : r.cap = s.buf_end_p) :
    (s.with_ring r).ring = r := by
  cases r
  simp only [UDP_SOCK_T.with_ring, UDP_SOCK_T.ring, Int.toNat_natCast] at h ⊢
  rw [h]

/-- **The copy loop of `udp_input`** puts the bytes into the ring. -/
theorem put_bytes_eq (data : ℕ → UInt8) (h : 0 ≤ s.data_size) (hn : s.data_size + n < 2 ^ 31) :
    put_bytes s data n = s.with_ring (s.ring.pushAll (firstBytes data n)) := by
  induction n generalizing s data with
  | zero => exact (with_ring_self h).symm
  | succ n ih =>
      have hsize : (put_byte s (data 0)).data_size = s.data_size + 1 :=
        wrap32_of_lt (by omega) (by omega)
      have hring : (put_byte s (data 0)).ring = s.ring.push (data 0) := by
        simp only [UDP_SOCK_T.ring, RingQueue.push, RingQueue.next, hsize]
        simp only [put_byte]
        congr 1
        omega
      rw [put_bytes, ih _ (by omega) (by omega), firstBytes_cons, RingQueue.pushAll_cons, hring]
      rfl

/-- **The copy loop of `udp_recvfrom`** takes them out again. -/
theorem get_bytes_eq (h : (n : ℤ) ≤ s.data_size) (hlt : s.data_size < 2 ^ 31) :
    get_bytes s n = (s.with_ring (s.ring.popMany n), s.ring.taken n) := by
  induction n generalizing s with
  | zero => rw [get_bytes, RingQueue.popMany, RingQueue.taken, with_ring_self (by omega)]
  | succ n ih =>
      have hsize : (get_byte s).1.data_size = s.data_size - 1 := wrap32_of_lt (by omega) (by omega)
      have hring : (get_byte s).1.ring = s.ring.pop := by
        simp only [UDP_SOCK_T.ring, RingQueue.pop, RingQueue.next, hsize]
        simp only [get_byte]
        congr 1
        omega
      rw [get_bytes, ih (by omega) (by omega), hring, RingQueue.popMany, RingQueue.taken]
      rfl

end Bytes

/-! ## What is to hold -/

/-- The datagram passes the checksum and is for the socket. -/
def udp_hit (my_ip_addr : ℕ) (s : UDP_SOCK_T) (f : Frame) : Prop :=
  udp_chksum_ok f = true ∧ udp_match my_ip_addr s f = true

/-- The length fields agree: the UDP datagram within the IP datagram within the
bytes received. -/
def Consistent (f : Frame) : Prop :=
  UDP_HDR_SIZE ≤ f.udp_length ∧ 4 * f.ihl + f.udp_length ≤ f.tot_len ∧
    ETH_HDR_SIZE + f.tot_len ≤ f.len

/-- There is a ring, and room in it for as many bytes as the UDP length says. -/
def Fits (s : UDP_SOCK_T) (f : Frame) : Prop :=
  s.has_buf = true ∧ s.data_size + ((f.udp_length : ℤ) - UDP_HDR_SIZE) ≤ s.buf_size

instance (my_ip_addr : ℕ) (s : UDP_SOCK_T) (f : Frame) : Decidable (udp_hit my_ip_addr s f) :=
  inferInstanceAs (Decidable (_ ∧ _))

instance (s : UDP_SOCK_T) (f : Frame) : Decidable (Fits s f) := inferInstanceAs (Decidable (_ ∧ _))

/-- `udp_input` copies received bytes only, keeps the ring in order, and leaves
the socket alone when the datagram does not fit or its lengths do not agree. -/
structure InputSafe (my_ip_addr : ℕ) (s : UDP_SOCK_T) (f : Frame) : Prop where
  copied : (udp_input my_ip_addr s f).2 = 0 ∨
    UDP_OFFSET + UDP_HDR_SIZE + (udp_input my_ip_addr s f).2 ≤ f.len
  ok : SockOk (udp_input my_ip_addr s f).1
  dropped : ¬ (Fits s f ∧ Consistent f) → (udp_input my_ip_addr s f).1 = s

/-- The datagram is not for the socket; or it fits and its lengths agree; or the
port and the error that `udp_input` sets are what they are already. -/
def InputOk (my_ip_addr : ℕ) (s : UDP_SOCK_T) (f : Frame) : Prop :=
  udp_hit my_ip_addr s f →
    (Fits s f → Consistent f ∨ f.udp_length = UDP_HDR_SIZE ∧ s.from_port = f.udp_sport) ∧
    (¬ Fits s f → s.from_port = f.udp_sport ∧
      s.error_code = if s.has_buf then UDP_ERROR_OVERFLOW else UDP_ERROR_NO_BUF)

/-! ## The three ways through `udp_input` -/

section Input

variable {my_ip_addr n : ℕ} {s : UDP_SOCK_T} {f : Frame}

theorem udp_input_of_not_hit (h : ¬ udp_hit my_ip_addr s f) :
    udp_input my_ip_addr s f = (s, 0) := by
  unfold udp_input
  simp only
  by_cases hc : udp_chksum_ok f = true
  · rw [if_neg (by simp [hc]), if_neg fun hm => h ⟨hc, hm⟩]
  · rw [if_pos (by simpa using hc)]

theorem udp_input_of_not_fits (h : udp_hit my_ip_addr s f) (hfit : ¬ Fits s f) :
    udp_input my_ip_addr s f =
      ({ s with
          from_port := f.udp_sport
          error_code := if s.has_buf then UDP_ERROR_OVERFLOW else UDP_ERROR_NO_BUF }, 0) := by
  unfold udp_input
  simp only [h.1, h.2, Bool.not_true, Bool.false_eq_true, if_false, if_true]
  by_cases hb : s.has_buf = true
  · have hlt : s.buf_size < s.data_size + ((f.udp_length : ℤ) - UDP_HDR_SIZE) := by
      by_contra hle
      exact hfit ⟨hb, not_lt.mp hle⟩
    rw [if_pos hb, if_pos hlt, if_pos hb]
  · rw [if_neg hb, if_neg hb]

theorem udp_input_of_fits (h : udp_hit my_ip_addr s f) (hfit : Fits s f) :
    udp_input my_ip_addr s f =
      (put_bytes { s with from_port := f.udp_sport } f.udp_data
        (as_count ((f.udp_length : ℤ) - UDP_HDR_SIZE)),
        as_count ((f.udp_length : ℤ) - UDP_HDR_SIZE)) := by
  unfold udp_input
  simp only [h.1, h.2, Bool.not_true, Bool.false_eq_true, if_false, if_true]
  rw [if_pos hfit.1, if_neg (not_lt.mpr hfit.2)]

theorem as_count_of_le (h : UDP_HDR_SIZE ≤ f.udp_length) :
    as_count ((f.udp_length : ℤ) - UDP_HDR_SIZE) = f.udp_length - UDP_HDR_SIZE := by
  have hlt : f.udp_length < 65536 := by
    have h₀ := (f.data (UDP_OFFSET + 4)).toNat_lt
    have h₁ := (f.data (UDP_OFFSET + 4 + 1)).toNat_lt
    unfold Frame.udp_length be16
    omega
  unfold as_count
  omega

/-- A UDP length below that of the header makes the copy loop run nearly
`2^32` times. -/
theorem as_count_of_lt (h : f.udp_length < UDP_HDR_SIZE) :
    2 ^ 31 ≤ as_count ((f.udp_length : ℤ) - UDP_HDR_SIZE) := by
  unfold as_count UDP_HDR_SIZE at *
  omega

/-- The payload goes into the ring. -/
theorem put_payload_eq (hs : SockOk s) (hfit : Fits s f) (hle : UDP_HDR_SIZE ≤ f.udp_length) :
    put_bytes { s with from_port := f.udp_sport } f.udp_data (f.udp_length - UDP_HDR_SIZE) =
      { s with from_port := f.udp_sport }.with_ring
        (s.ring.pushAll (firstBytes f.udp_data (f.udp_length - UDP_HDR_SIZE))) := by
  have hsize := hs.size_eq hfit.1
  have hroom := hfit.2
  have h₀ := hs.data_nonneg
  rw [hsize, UDP_SOCK_BUF_SIZE] at hroom
  exact put_bytes_eq _ h₀ (by simp only; omega)

theorem sockOk_put (hs : SockOk s) (hfit : Fits s f) (hle : UDP_HDR_SIZE ≤ f.udp_length) :
    SockOk ({ s with from_port := f.udp_sport }.with_ring
      (s.ring.pushAll (firstBytes f.udp_data (f.udp_length - UDP_HDR_SIZE)))) := by
  have hroom := hfit.2
  have h₀ := hs.data_nonneg
  have hlt : (s.ring.pushAll (firstBytes f.udp_data (f.udp_length - UDP_HDR_SIZE))).inp
      < s.buf_end_p :=
    (RingQueue.pushAll_inp_lt (hs.in_lt hfit.1)).trans_le (le_of_eq rfl)
  constructor
  · exact Int.natCast_nonneg _
  · simp only [UDP_SOCK_T.with_ring, RingQueue.pushAll_size, length_firstBytes, UDP_SOCK_T.ring]
    omega
  · exact hs.size_eq
  · exact hs.end_eq
  · exact fun _ => hlt
  · intro hb
    simp only [UDP_SOCK_T.with_ring, RingQueue.pushAll_out]
    exact hs.out_lt hb

/-- The header of a datagram fits into its length, and the payload into the ring. -/
theorem safe_iff_of_payload (hihl : 5 ≤ f.ihl) (hs : SockOk s) (hhit : udp_hit my_ip_addr s f)
    (hfit : Fits s f) (hle : UDP_HDR_SIZE ≤ f.udp_length) :
    InputSafe my_ip_addr s f ↔ InputOk my_ip_addr s f := by
  have h8 : UDP_HDR_SIZE = 8 := rfl
  have hoff : UDP_OFFSET = 34 := rfl
  have heth : ETH_HDR_SIZE = 14 := rfl
  have heq := udp_input_of_fits hhit hfit
  rw [as_count_of_le hle, put_payload_eq hs hfit hle] at heq
  constructor
  · intro h _
    refine ⟨fun _ => ?_, fun hno => absurd hfit hno⟩
    by_cases hcons : Consistent f
    · exact .inl hcons
    · right
      -- the socket is as it was, so nothing was put into its ring
      have hsame := h.dropped fun h' => hcons h'.2
      rw [heq] at hsame
      have hport : f.udp_sport = s.from_port := congrArg UDP_SOCK_T.from_port hsame
      have hsize : ((s.ring.pushAll (firstBytes f.udp_data
          (f.udp_length - UDP_HDR_SIZE))).size : ℤ) = s.data_size :=
        congrArg UDP_SOCK_T.data_size hsame
      rw [RingQueue.pushAll_size, length_firstBytes] at hsize
      have h₀ := hs.data_nonneg
      simp only [UDP_SOCK_T.ring] at hsize
      exact ⟨by omega, hport.symm⟩
  · intro hok
    refine ⟨?_, ?_, fun hno => ?_⟩
    · rw [heq]
      obtain hcons | ⟨hempty, -⟩ := (hok hhit).1 hfit
      · right
        obtain ⟨h₁, h₂, h₃⟩ := hcons
        simp only
        omega
      · left
        simp only
        omega
    · rw [heq]
      exact sockOk_put hs hfit hle
    · obtain hcons | ⟨hempty, hport⟩ := (hok hhit).1 hfit
      · exact absurd ⟨hfit, hcons⟩ hno
      · rw [heq, hempty, Nat.sub_self, ← hport]
        exact with_ring_self hs.data_nonneg

/-- A datagram shorter than its header fits, and too much is copied. -/
theorem not_safe_of_short (hlen : f.len ≤ NETBUF_SIZE) (hhit : udp_hit my_ip_addr s f)
    (hfit : Fits s f) (hlt : f.udp_length < UDP_HDR_SIZE) : ¬ InputSafe my_ip_addr s f := by
  intro h
  have h8 : UDP_HDR_SIZE = 8 := rfl
  have hbig := as_count_of_lt hlt
  have hcopied := h.copied
  rw [udp_input_of_fits hhit hfit] at hcopied
  unfold NETBUF_SIZE NETBUF_HDR_SIZE at hlen
  simp only at hcopied
  omega

/-- A datagram that does not fit only changes the socket's port and error. -/
theorem safe_iff_of_not_fits (hs : SockOk s) (hhit : udp_hit my_ip_addr s f) (hfit : ¬ Fits s f) :
    InputSafe my_ip_addr s f ↔ InputOk my_ip_addr s f := by
  have heq := udp_input_of_not_fits hhit hfit
  constructor
  · intro h _
    refine ⟨fun h' => absurd h' hfit, fun _ => ?_⟩
    have hsame := h.dropped fun h' => hfit h'.1
    rw [heq] at hsame
    exact ⟨(congrArg UDP_SOCK_T.from_port hsame).symm,
      (congrArg UDP_SOCK_T.error_code hsame).symm⟩
  · intro hok
    obtain ⟨hport, herr⟩ := (hok hhit).2 hfit
    rw [← hport, ← herr] at heq
    refine ⟨.inl (by rw [heq]), ?_, fun _ => by rw [heq]⟩
    rw [heq]
    exact hs

/-- **`udp_input` is safe exactly on the datagrams of `InputOk`.** -/
theorem udp_input_safe_iff (hf : ip_input_accepts my_ip_addr f = true) (hlen : f.len ≤ NETBUF_SIZE)
    (hs : SockOk s) : InputSafe my_ip_addr s f ↔ InputOk my_ip_addr s f := by
  have hihl : 5 ≤ f.ihl := by
    unfold ip_input_accepts at hf
    simp only [Bool.and_eq_true, Bool.not_eq_true', Bool.or_eq_false_iff, decide_eq_false_iff_not]
      at hf
    omega
  by_cases hhit : udp_hit my_ip_addr s f
  · by_cases hfit : Fits s f
    · by_cases hle : UDP_HDR_SIZE ≤ f.udp_length
      · exact safe_iff_of_payload hihl hs hhit hfit hle
      · refine iff_of_false (not_safe_of_short hlen hhit hfit (not_le.mp hle)) fun hok => ?_
        obtain ⟨hcons, -⟩ | ⟨hempty, -⟩ := (hok hhit).1 hfit
        · exact absurd hcons hle
        · exact absurd hempty.ge hle
    · exact safe_iff_of_not_fits hs hhit hfit
  · have heq := udp_input_of_not_hit hhit
    refine iff_of_true ⟨.inl (by rw [heq]), ?_, fun _ => by rw [heq]⟩ fun h => absurd h hhit
    rw [heq]
    exact hs

end Input

/-! ### A socket for the server 192.168.1.100, on a board 192.168.1.1 -/

def sample_ip : ℕ := 0xc0a80101

/-- The socket of a client that listens on port 7701. -/
def sample_socket : UDP_SOCK_T :=
  { (udp_socket udp_init 0xc0a80164 (some fun _ => 0)).1 with listen_port := 7701 }

theorem sample_socket_ok : SockOk sample_socket := by
  have hsock : SockOk (udp_socket udp_init 0xc0a80164 (some fun _ => 0)).1 := sockOk_udp_socket rfl
  obtain ⟨h₁, h₂, h₃, h₄, h₅, h₆⟩ := hsock
  exact ⟨h₁, h₂, h₃, h₄, h₅, h₆⟩

/-- A frame of these bytes, in a buffer of zeros. -/
def frame_of (bytes : List UInt8) : Frame := ⟨fun i => bytes.getD i 0, bytes.length⟩

/-- Three bytes from port 69 of the server. -/
def sample_frame : Frame :=
  frame_of [0x00, 0x50, 0xc2, 0x11, 0x11, 0x11, 0x02, 0, 0, 0, 0, 0x01, 0x08, 0x00,
    0x45, 0, 0, 31, 0, 1, 0, 0, 64, 17, 247, 23, 192, 168, 1, 100, 192, 168, 1, 1,
    0, 69, 30, 21, 0, 11, 89, 198, 1, 2, 3]

/-- A datagram of no data whose UDP length says eight bytes. -/
def lying_frame : Frame :=
  frame_of [0x00, 0x50, 0xc2, 0x11, 0x11, 0x11, 0x02, 0, 0, 0, 0, 0x01, 0x08, 0x00,
    0x45, 0, 0, 28, 0, 1, 0, 0, 64, 17, 247, 26, 192, 168, 1, 100, 192, 168, 1, 1,
    0, 69, 30, 21, 0, 16, 93, 190]

theorem sample_frame_safe : InputSafe sample_ip sample_socket sample_frame := by
  refine (udp_input_safe_iff (by decide) (by decide) sample_socket_ok).mpr
    fun _ => ⟨fun _ => .inl ?_, ?_⟩
  · unfold Consistent
    decide
  · intro hno
    refine absurd ⟨rfl, ?_⟩ hno
    decide

/-- Eight bytes that were not received go into the ring. -/
theorem lying_frame_unsafe :
    ip_input_accepts sample_ip lying_frame = true ∧
      ¬ InputSafe sample_ip sample_socket lying_frame := by
  refine ⟨by decide, fun h => ?_⟩
  have hcopied : (udp_input sample_ip sample_socket lying_frame).2 = 8 := by
    have hhit : udp_hit sample_ip sample_socket lying_frame := ⟨by decide, by decide⟩
    have hfit : Fits sample_socket lying_frame := ⟨rfl, by decide⟩
    rw [udp_input_of_fits hhit hfit]
    decide
  have hle := h.copied
  rw [hcopied] at hle
  exact absurd hle (by decide)

end CsBoot.Net
