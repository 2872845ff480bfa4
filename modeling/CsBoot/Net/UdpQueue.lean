/-
Datagrams through a UDP socket: runs of arrivals and calls of `udp_recvfrom`.

What is asked of the socket is a queue of messages: every `udp_recvfrom` that
returns bytes returns the payload of one datagram, with its sender, and the
datagrams come out in the order they went in. What the socket has is a queue of
bytes and the port of the datagram that came last. The two agree as long as a
call that takes a datagram out takes all of it and nothing of the next one, and
the port has not changed in the meantime (`datagrams_preserved`).
-/
import CsBoot.Lib.Run
import CsBoot.Net.UdpSafe

set_option autoImplicit false

namespace CsBoot.Net

open ByteMem SkipBlocks

/-! ## Traffic -/

/-- A datagram as the program using the socket sees it. -/
structure Datagram where
  saddr : ℕ
  sport : ℕ
  payload : List UInt8

/-- The datagram in a frame. -/
def Frame.datagram (f : Frame) : Datagram where
  saddr := f.saddr
  sport := f.udp_sport
  payload := firstBytes f.udp_data (f.udp_length - UDP_HDR_SIZE)

/-- A call of `udp_recvfrom` that returned more than zero. -/
structure Received where
  max_size : ℤ
  datap : List UInt8
  addr : ℕ
  port : ℕ

/-- The socket, every datagram that went into its ring, and every successful
call of `udp_recvfrom`, the first ones first. -/
structure Traffic where
  sock : UDP_SOCK_T
  accepted : List Datagram
  returned : List Received

/-- The datagrams that have not been returned. -/
def Traffic.pending (t : Traffic) : List Datagram := t.accepted.drop t.returned.length

/-- A frame is given to `udp_input`. -/
def Traffic.arrive (my_ip_addr : ℕ) (t : Traffic) (f : Frame) : Traffic :=
  { t with
    sock := (udp_input my_ip_addr t.sock f).1
    accepted :=
      if udp_hit my_ip_addr t.sock f ∧ Fits t.sock f then t.accepted ++ [f.datagram]
      else t.accepted }

def Traffic.arriveAll (my_ip_addr : ℕ) (t : Traffic) (fs : List Frame) : Traffic :=
  fs.foldl (Traffic.arrive my_ip_addr) t

/-- The frames that arrive while `udp_recvfrom` waits. -/
def wait_frames (my_ip_addr : ℕ) (s : UDP_SOCK_T) : List (List Frame) → List Frame
  | [] => []
  | fs :: polls =>
    if s.data_size = 0 then
      let s := udp_poll my_ip_addr s fs
      fs ++ if s.error_code < 0 then [] else wait_frames my_ip_addr s polls
    else []

/-- A call of `udp_recvfrom`. -/
structure RecvCall where
  listen_port : ℕ
  max_size : ℤ
  first : List Frame
  polls : List (List Frame)

section Call

variable (my_ip_addr : ℕ) (t : Traffic) (c : RecvCall)

/-- The traffic when the call starts to wait. -/
def RecvCall.start : Traffic := { t with sock := { t.sock with listen_port := c.listen_port } }

/-- The traffic when the call has waited. -/
def RecvCall.waited : Traffic :=
  (c.start t).arriveAll my_ip_addr (wait_frames my_ip_addr (c.start t).sock (c.first :: c.polls))

/-- The traffic after the call. -/
def Traffic.recv : Traffic :=
  let r := udp_recvfrom my_ip_addr t.sock c.listen_port c.max_size c.first c.polls
  { sock := r.1
    accepted := (c.waited my_ip_addr t).accepted
    returned :=
      match r.2 with
      | .error _ => t.returned
      | .got datap port =>
        if datap = [] then t.returned
        else t.returned ++ [⟨c.max_size, datap, r.1.from_ip, port⟩] }

end Call

/-- What happens at a socket. -/
inductive UdpOp
  | arrive (f : Frame)
  | recv (c : RecvCall)

def udp_step (my_ip_addr : ℕ) (t : Traffic) : UdpOp → Option Traffic
  | .arrive f => some (t.arrive my_ip_addr f)
  | .recv c => some (t.recv my_ip_addr c)

/-! ## What is to hold -/

/-- What was received is the datagram, up to the size of the buffer. -/
structure Received.Matches (r : Received) (d : Datagram) : Prop where
  datap : r.datap = d.payload.take r.max_size.toNat
  addr : r.addr = d.saddr
  port : r.port = d.sport

/-- The datagrams returned are the first ones accepted, one for each call, and
the ring holds the others. -/
structure Preserved (t : Traffic) : Prop where
  in_order : List.Forall₂ Received.Matches t.returned (t.accepted.take t.returned.length)
  none_lost : t.sock.ring.contents = (t.pending.map Datagram.payload).flatten

/-- A datagram that goes into the ring has data, and lengths that agree. -/
def ArrivalOk (my_ip_addr : ℕ) (t : Traffic) (f : Frame) : Prop :=
  udp_hit my_ip_addr t.sock f → Fits t.sock f → Consistent f ∧ UDP_HDR_SIZE < f.udp_length

/-- Each frame meets the condition when it arrives. -/
def ArrivalsOk (my_ip_addr : ℕ) : Traffic → List Frame → Prop
  | _, [] => True
  | t, f :: fs => ArrivalOk my_ip_addr t f ∧ ArrivalsOk my_ip_addr (t.arrive my_ip_addr f) fs

/-- The bytes copied are those of one datagram: it fits into the buffer, its
port is the one remembered, and it is the only one or fills the buffer. -/
def CopyOk (t : Traffic) (max_size : ℤ) : Prop :=
  match t.pending with
  | [] => True
  | d :: ds =>
    d.payload.length ≤ max_size ∧ t.sock.from_port = d.sport ∧
      (ds = [] ∨ max_size = d.payload.length)

/-- The condition on a step: on every frame that arrives, and on what is there
when a call of `udp_recvfrom` has waited. -/
def UdpOk (my_ip_addr : ℕ) (t : Traffic) : UdpOp → Prop
  | .arrive f => ArrivalOk my_ip_addr t f
  | .recv c =>
    c.max_size < 2 ^ 31 ∧
      ArrivalsOk my_ip_addr (c.start t)
        (wait_frames my_ip_addr (c.start t).sock (c.first :: c.polls)) ∧
      CopyOk (c.waited my_ip_addr t) c.max_size

/-! ## The invariant -/

/-- A socket whose ring works, with nothing in it. -/
structure Bound (s : UDP_SOCK_T) : Prop where
  ok : SockOk s
  has_buf : s.has_buf = true
  ring_ok : s.ring.Ok
  empty : s.data_size = 0

/-- What a run keeps. -/
structure Queue (t : Traffic) : Prop extends Preserved t where
  sock_ok : SockOk t.sock
  has_buf : t.sock.has_buf = true
  ring_ok : t.sock.ring.Ok
  peer : ∀ d ∈ t.pending, d.saddr = t.sock.from_ip
  nonempty : ∀ d ∈ t.pending, d.payload ≠ []

section Steps

variable {my_ip_addr : ℕ} {t : Traffic} {f : Frame} {s : UDP_SOCK_T}

theorem Bound.queue (h : Bound s) : Queue ⟨s, [], []⟩ where
  in_order := .nil
  none_lost := RingQueue.contents_eq_nil (by simp [UDP_SOCK_T.ring, h.empty])
  sock_ok := h.ok
  has_buf := h.has_buf
  ring_ok := h.ring_ok
  peer := fun _ hd => nomatch hd
  nonempty := fun _ hd => nomatch hd

theorem Queue.returned_le (h : Queue t) : t.returned.length ≤ t.accepted.length := by
  have hlen := h.in_order.length_eq
  rw [List.length_take] at hlen
  omega

/-- The ports and the error have no part in it. -/
theorem Queue.with_ports (h : Queue t) (l p : ℕ) (e : ℤ) :
    Queue { t with
      sock := { t.sock with listen_port := l, from_port := p, error_code := e } } where
  in_order := h.in_order
  none_lost := h.none_lost
  sock_ok := ⟨h.sock_ok.data_nonneg, h.sock_ok.data_le, h.sock_ok.size_eq, h.sock_ok.end_eq,
    h.sock_ok.in_lt, h.sock_ok.out_lt⟩
  has_buf := h.has_buf
  ring_ok := h.ring_ok
  peer := h.peer
  nonempty := h.nonempty

/-- **One arrival.** -/
theorem Queue.arrive (h : Queue t) (hf : ArrivalOk my_ip_addr t f) :
    Queue (t.arrive my_ip_addr f) := by
  have hlen := h.returned_le
  by_cases hhit : udp_hit my_ip_addr t.sock f
  · by_cases hfit : Fits t.sock f
    · -- the datagram goes behind the others, in the ring as in the list
      obtain ⟨⟨hle, -, -⟩, hne⟩ := hf hhit hfit
      have hin : udp_input my_ip_addr t.sock f = _ := udp_input_of_fits hhit hfit
      rw [as_count_of_le hle, put_payload_eq h.sock_ok hfit hle] at hin
      have hroom : t.sock.ring.size + (firstBytes f.udp_data (f.udp_length - UDP_HDR_SIZE)).length
          ≤ t.sock.ring.cap := by
        have hend := h.sock_ok.end_eq h.has_buf
        have hsize := h.sock_ok.size_eq h.has_buf
        have hfit' := hfit.2
        have h₀ := h.sock_ok.data_nonneg
        rw [length_firstBytes]
        simp only [UDP_SOCK_T.ring]
        omega
      obtain ⟨hok, hcont⟩ := h.ring_ok.pushAll hroom
      have hpend : (t.arrive my_ip_addr f).pending = t.pending ++ [f.datagram] := by
        simp only [Traffic.arrive, Traffic.pending, hhit, hfit, and_self, if_true]
        exact List.drop_append_of_le_length hlen
      have hring : (t.arrive my_ip_addr f).sock.ring
          = t.sock.ring.pushAll (firstBytes f.udp_data (f.udp_length - UDP_HDR_SIZE)) := by
        simp only [Traffic.arrive, hin]
        exact ring_with_ring RingQueue.pushAll_cap
      have hpayload : f.datagram.payload ≠ [] := by
        intro hnil
        have hzero : (firstBytes f.udp_data (f.udp_length - UDP_HDR_SIZE)).length = 0 := by
          rw [show firstBytes f.udp_data (f.udp_length - UDP_HDR_SIZE) = [] from hnil]
          rfl
        rw [length_firstBytes] at hzero
        omega
      have hip : (t.arrive my_ip_addr f).sock.from_ip = t.sock.from_ip := by
        simp only [Traffic.arrive, hin]
        rfl
      refine { in_order := ?_, none_lost := ?_, sock_ok := ?_, has_buf := ?_, ring_ok := ?_,
               peer := ?_, nonempty := ?_ }
      · simp only [Traffic.arrive, hhit, hfit, and_self, if_true]
        rw [List.take_append_of_le_length hlen]
        exact h.in_order
      · rw [hring, hcont, h.none_lost, hpend, List.map_append, List.flatten_append]
        simp [Frame.datagram]
      · simp only [Traffic.arrive, hin]
        exact sockOk_put h.sock_ok hfit hle
      · simp only [Traffic.arrive, hin]
        exact h.has_buf
      · rw [hring]
        exact hok
      · rw [hpend, hip]
        intro d hd
        obtain hd | hd := List.mem_append.mp hd
        · exact h.peer d hd
        · have hm := hhit.2
          unfold udp_match at hm
          simp only [Bool.and_eq_true, decide_eq_true_eq] at hm
          rw [List.mem_singleton.mp hd]
          exact hm.1.2.symm
      · rw [hpend]
        intro d hd
        obtain hd | hd := List.mem_append.mp hd
        · exact h.nonempty d hd
        · rw [List.mem_singleton.mp hd]
          exact hpayload
    · have hno : ¬ (udp_hit my_ip_addr t.sock f ∧ Fits t.sock f) := fun h' => hfit h'.2
      simp only [Traffic.arrive, if_neg hno, udp_input_of_not_fits hhit hfit]
      exact h.with_ports ..
  · have hno : ¬ (udp_hit my_ip_addr t.sock f ∧ Fits t.sock f) := fun h' => hhit h'.1
    simp only [Traffic.arrive, if_neg hno, udp_input_of_not_hit hhit]
    exact h

theorem Queue.arriveAll {fs : List Frame} (h : Queue t) (hfs : ArrivalsOk my_ip_addr t fs) :
    Queue (t.arriveAll my_ip_addr fs) := by
  induction fs generalizing t with
  | nil => exact h
  | cons f fs ih => exact ih (h.arrive hfs.1) hfs.2

/-! ## `udp_recvfrom` -/

theorem arriveAll_sock (fs : List Frame) :
    (t.arriveAll my_ip_addr fs).sock = udp_poll my_ip_addr t.sock fs := by
  induction fs generalizing t with
  | nil => rfl
  | cons f fs ih => exact ih

theorem arriveAll_returned (my_ip_addr : ℕ) (t : Traffic) (fs : List Frame) :
    (t.arriveAll my_ip_addr fs).returned = t.returned := by
  induction fs generalizing t with
  | nil => rfl
  | cons f fs ih => exact ih (t.arrive my_ip_addr f)

theorem udp_poll_append (fs gs : List Frame) :
    udp_poll my_ip_addr s (fs ++ gs) = udp_poll my_ip_addr (udp_poll my_ip_addr s fs) gs :=
  List.foldl_append ..

/-- The waiting loop leaves the socket as the frames make it. -/
theorem udp_wait_sock (polls : List (List Frame)) :
    (udp_wait my_ip_addr s polls).1 = udp_poll my_ip_addr s (wait_frames my_ip_addr s polls) := by
  induction polls generalizing s with
  | nil => rfl
  | cons fs polls ih =>
      rw [udp_wait, wait_frames]
      by_cases hempty : s.data_size = 0
      · rw [if_pos hempty, if_pos hempty]
        simp only
        split_ifs
        · rw [List.append_nil]
        · rw [ih, udp_poll_append]
      · rw [if_neg hempty, if_neg hempty]
        rfl

theorem waited_sock (my_ip_addr : ℕ) (t : Traffic) (c : RecvCall) :
    (c.waited my_ip_addr t).sock
      = (udp_wait my_ip_addr (c.start t).sock (c.first :: c.polls)).1 := by
  rw [udp_wait_sock]
  exact arriveAll_sock _

/-- The count of the copy loop, for a ring in order. -/
theorem Queue.count_eq (h : Queue t) {max_size : ℤ} (h₀ : 0 ≤ max_size) (hint : max_size < 2 ^ 31) :
    min (as_count t.sock.data_size) (as_count max_size)
      = min t.sock.ring.size max_size.toNat := by
  have hd := h.sock_ok.data_nonneg
  have hle := h.sock_ok.data_le
  have hsize := h.sock_ok.size_eq h.has_buf
  rw [hsize, UDP_SOCK_BUF_SIZE] at hle
  unfold as_count
  rw [Int.emod_eq_of_lt hd (by omega), Int.emod_eq_of_lt h₀ (by omega)]
  rfl

/-- The first datagram is at the head of the ring. -/
theorem Queue.contents_eq (h : Queue t) {d : Datagram} {ds : List Datagram}
    (hpend : t.pending = d :: ds) :
    t.sock.ring.contents = d.payload ++ (ds.map Datagram.payload).flatten := by
  rw [h.none_lost, hpend]
  rfl

/-- The first datagram is taken out of the ring and returned. -/
theorem Queue.take_first (h : Queue t) {d : Datagram} {ds : List Datagram}
    (hpend : t.pending = d :: ds) {r : Received} (hr : r.Matches d) :
    Queue
      { sock := t.sock.with_ring (t.sock.ring.popMany d.payload.length)
        accepted := t.accepted
        returned := t.returned ++ [r] } := by
  have hcont := h.contents_eq hpend
  have hsize : d.payload.length ≤ t.sock.ring.size := by
    rw [← RingQueue.length_contents, hcont, List.length_append]
    exact Nat.le_add_right ..
  obtain ⟨hok, hpop⟩ := h.ring_ok.popMany hsize
  have hring : (t.sock.with_ring (t.sock.ring.popMany d.payload.length)).ring
      = t.sock.ring.popMany d.payload.length := ring_with_ring RingQueue.popMany_cap
  -- the datagram moves from the pending ones to the returned ones
  have hlt : t.returned.length < t.accepted.length := by
    by_contra hge
    rw [Traffic.pending, List.drop_eq_nil_of_le (by omega)] at hpend
    cases hpend
  have hget : t.accepted[t.returned.length] :: t.accepted.drop (t.returned.length + 1) =
      d :: ds := by
    rw [← hpend, Traffic.pending, List.drop_eq_getElem_cons hlt]
  obtain ⟨hhead, htail⟩ := List.cons.inj hget
  have hpend' : Traffic.pending
      ⟨t.sock.with_ring (t.sock.ring.popMany d.payload.length), t.accepted,
      t.returned ++ [r]⟩ = ds := by
    simp only [Traffic.pending, List.length_append, List.length_singleton, htail]
  have hsub : ∀ d' ∈ ds, d' ∈ t.pending := fun d' hd' => hpend ▸ List.mem_cons_of_mem _ hd'
  refine { in_order := ?_, none_lost := ?_, sock_ok := ?_, has_buf := h.has_buf, ring_ok := ?_,
           peer := ?_, nonempty := ?_ }
  · simp only [List.length_append, List.length_singleton]
    rw [List.take_succ_eq_append_getElem hlt, hhead]
    exact List.rel_append h.in_order (.cons hr .nil)
  · rw [hpend', hring, hpop, hcont, List.drop_left]
  · obtain ⟨h₁, h₂, h₃, h₄, h₅, h₆⟩ := h.sock_ok
    refine ⟨Int.natCast_nonneg _, ?_, h₃, h₄, ?_, ?_⟩
    · simp only [UDP_SOCK_T.with_ring, RingQueue.popMany_size, UDP_SOCK_T.ring]
      omega
    · intro _
      have hlt' := hok.inp_lt
      rwa [RingQueue.popMany_cap] at hlt'
    · intro _
      have hlt' := hok.out_lt
      rwa [RingQueue.popMany_cap] at hlt'
  · rw [hring]
    exact hok
  · rw [hpend']
    exact fun d' hd' => h.peer d' (hsub d' hd')
  · rw [hpend']
    exact fun d' hd' => h.nonempty d' (hsub d' hd')

/-- What a call copies, for a ring in order: the first bytes of what is pending,
whatever datagrams they belong to. -/
theorem Queue.recv_bytes {c : RecvCall} (hw : Queue (c.waited my_ip_addr t)) (h₀ : 0 ≤ c.max_size)
    (hint : c.max_size < 2 ^ 31) :
    (∃ code, (udp_recvfrom my_ip_addr t.sock c.listen_port c.max_size c.first c.polls).2 =
      .error code) ∨
      (udp_recvfrom my_ip_addr t.sock c.listen_port c.max_size c.first c.polls).2 =
        .got (((c.waited my_ip_addr t).pending.map Datagram.payload).flatten.take c.max_size.toNat)
          (c.waited my_ip_addr t).sock.from_port := by
  have hsock := waited_sock my_ip_addr t c
  have hwait : udp_wait my_ip_addr { t.sock with listen_port := c.listen_port } (c.first :: c.polls)
      = ((c.waited my_ip_addr t).sock,
        (udp_wait my_ip_addr (c.start t).sock (c.first :: c.polls)).2) :=
    Prod.ext hsock.symm rfl
  unfold udp_recvfrom
  simp only [hwait]
  cases (udp_wait my_ip_addr (c.start t).sock (c.first :: c.polls)).2 with
  | error code => exact .inl ⟨code, rfl⟩
  | done =>
      have hnat := hw.sock_ok.data_nonneg
      have hle := hw.sock_ok.data_le
      have hsize := hw.sock_ok.size_eq hw.has_buf
      rw [hsize, UDP_SOCK_BUF_SIZE] at hle
      have hring : ((c.waited my_ip_addr t).sock.ring.size : ℤ) =
          (c.waited my_ip_addr t).sock.data_size :=
        Int.toNat_of_nonneg hnat
      refine .inr ?_
      simp only [hw.count_eq h₀ hint]
      have hlen : (c.waited my_ip_addr t).sock.ring.size
          = ((c.waited my_ip_addr t).pending.map Datagram.payload).flatten.length := by
        rw [← hw.none_lost, RingQueue.length_contents]
      rw [get_bytes_eq (by omega) (by omega), hw.ring_ok.taken (Nat.min_le_left ..),
        hw.none_lost, hlen]
      exact congrArg (RecvResult.got · _) (List.take_eq_take_iff.mpr (by omega))

/-- **One call of `udp_recvfrom`.** -/
theorem Queue.recv (h : Queue t) {c : RecvCall} (hc : UdpOk my_ip_addr t (.recv c)) :
    Queue (t.recv my_ip_addr c) := by
  obtain ⟨hint, harr, hcopy⟩ := hc
  have hw : Queue (c.waited my_ip_addr t) :=
    (h.with_ports c.listen_port t.sock.from_port t.sock.error_code).arriveAll harr
  have hsock := waited_sock my_ip_addr t c
  have hret : (c.waited my_ip_addr t).returned = t.returned := arriveAll_returned ..
  unfold Traffic.recv udp_recvfrom
  generalize c.waited my_ip_addr t = w at *
  -- `w` is the traffic after the wait; what is returned is added to it
  obtain ⟨sock, accepted, returned⟩ := w
  simp only at hsock hret ⊢
  subst hret
  change Queue ⟨_, _, _⟩
  have hwait : udp_wait my_ip_addr { t.sock with listen_port := c.listen_port } (c.first :: c.polls)
      = (sock, (udp_wait my_ip_addr (c.start t).sock (c.first :: c.polls)).2) :=
    Prod.ext hsock.symm rfl
  rw [hwait]
  cases (udp_wait my_ip_addr (c.start t).sock (c.first :: c.polls)).2 with
  | error code => exact hw
  | done =>
      cases hpend : Traffic.pending ⟨sock, accepted, t.returned⟩ with
      | nil =>
          -- the ring is empty, and the call returns zero
          have hempty : sock.data_size = 0 := by
            have hlen : sock.ring.size = 0 := by
              rw [← RingQueue.length_contents, hw.none_lost, hpend]
              rfl
            have h₀ := hw.sock_ok.data_nonneg
            simp only [UDP_SOCK_T.ring] at hlen h₀
            omega
          have hcount : min (as_count sock.data_size) (as_count c.max_size) = 0 := by
            rw [hempty]
            exact Nat.zero_min _
          simp only [hcount]
          exact hw
      | cons d ds =>
          rw [CopyOk, hpend] at hcopy
          obtain ⟨hle, hport, hone⟩ := hcopy
          have hcont := hw.contents_eq hpend
          have hmem : d ∈ Traffic.pending ⟨sock, accepted, t.returned⟩ :=
            hpend ▸ List.mem_cons_self ..
          have hsize : sock.ring.size =
              d.payload.length + (ds.map Datagram.payload).flatten.length := by
            rw [← RingQueue.length_contents, hcont, List.length_append]
          -- the count is the length of the first datagram, whichever of the two ends the loop
          have hcount : min (as_count sock.data_size) (as_count c.max_size) = d.payload.length := by
            rw [hw.count_eq (by omega) hint]
            simp only [hsize]
            obtain rfl | heq := hone
            · simp only [List.map_nil, List.flatten_nil, List.length_nil]
              omega
            · omega
          have hbytes : get_bytes sock d.payload.length
              = (sock.with_ring (sock.ring.popMany d.payload.length), d.payload) := by
            have h₀ := hw.sock_ok.data_nonneg
            have hint' : sock.data_size < 2 ^ 31 := by
              have hle' := hw.sock_ok.data_le
              have hsz := hw.sock_ok.size_eq hw.has_buf
              simp only at hle' hsz
              rw [hsz, UDP_SOCK_BUF_SIZE] at hle'
              omega
            rw [get_bytes_eq (by simp only [UDP_SOCK_T.ring] at hsize h₀; omega) hint',
              hw.ring_ok.taken (by simp only; omega), hcont, List.take_left]
          simp only [hcount, hbytes, if_neg (hw.nonempty d hmem)]
          refine hw.take_first hpend ⟨?_, (hw.peer d hmem).symm, hport⟩
          exact (List.take_of_length_le (by simp only; omega)).symm

/-! ## Runs -/

/-- **Datagrams are preserved** in a run whose steps meet the condition. -/
theorem datagrams_preserved (hs : Bound s)
    (hrun : Reaches (udp_step my_ip_addr) (UdpOk my_ip_addr) ⟨s, [], []⟩ t) : Preserved t := by
  have hinv : Queue t := by
    refine hrun.invariant hs.queue ?_
    intro t op t' h hop hstep
    cases op with
    | arrive f =>
        cases hstep
        exact h.arrive hop
    | recv c =>
        cases hstep
        exact h.recv hop
  exact hinv.toPreserved

end Steps

theorem sample_socket_bound : Bound sample_socket where
  ok := sample_socket_ok
  has_buf := rfl
  ring_ok := ⟨by decide, by decide, by decide, by decide⟩
  empty := rfl

/-- A datagram arrives and is received, and a second one is received that
arrives while the call waits. -/
theorem datagrams_preserved_sample :
    let t := [.arrive sample_frame, .recv ⟨7701, 516, [], []⟩,
      .recv ⟨7701, 516, [], [[sample_frame]]⟩].foldl
        (fun t op => (udp_step sample_ip t op).getD t) ⟨sample_socket, [], []⟩
    t.returned.map (·.datap) = [[1, 2, 3], [1, 2, 3]] ∧ Preserved t := by
  refine ⟨by decide, datagrams_preserved sample_socket_bound
    (.next (a := .recv ⟨7701, 516, [], [[sample_frame]]⟩)
      (.next (a := .recv ⟨7701, 516, [], []⟩)
        (.next (a := .arrive sample_frame) .start ?first rfl) ?second rfl) ?third rfl)⟩
  case first =>
    intro _ _
    unfold Consistent
    decide
  case second => exact ⟨by decide, trivial, by decide, by decide, .inl rfl⟩
  case third =>
    refine ⟨by decide, ⟨fun _ _ => ?_, trivial⟩, by decide, by decide, .inl rfl⟩
    unfold Consistent
    decide

/-- Two datagrams of three bytes arrive, and one call returns all six. -/
theorem datagrams_merged :
    ∃ t, Reaches (udp_step sample_ip) (fun _ _ => True) ⟨sample_socket, [], []⟩ t ∧
      ¬ Preserved t := by
  refine ⟨_, .next (a := .recv ⟨7701, 516, [], []⟩) (.next (a := .arrive sample_frame)
    (.next (a := .arrive sample_frame) .start trivial rfl) trivial rfl) trivial rfl, fun h => ?_⟩
  have hfirst := (h.in_order.get (i := 0) (by decide) (by decide)).datap
  exact absurd hfirst (by decide)

end CsBoot.Net
