/-
A ping from one board to another, `src/src/net/icmp.c`: the message that `icmp_ping` sends, the
answer that `icmp_input` makes of it, and what the listener of `icmp_ping` makes of the answer.

The listener has one variable, in which `icmp_ping` puts the identifier that it waits for. It
is called for every echo reply, and compares the sixteen bits of the message with that
variable. `icmp_ident` is an `int` that is counted up with each message, so what is said here
holds for the first 65535 messages only. The polling of the keyboard and the time are left
out; the time runs out behind the last of the polls.
-/
import CsBoot.Net.Exchange

set_option autoImplicit false

namespace CsBoot.Net

open ByteMem RangeStore SkipBlocks

/-- `sizeof(icmp_header_t)` -/
def ICMP_HDR_SIZE : ℕ := 8
def ICMP_MAX_DATA_SIZE : ℕ := 1514 - ETH_HDR_SIZE - IP_HDR_SIZE - ICMP_HDR_SIZE

/-- Offset of the ICMP header. -/
def ICMP_AT : ℕ := ETH_HDR_SIZE + IP_HDR_SIZE

/-! ## The functions -/

/-- The bytes behind the header of a request. -/
def icmp_ping_data (size : ℕ) : List UInt8 :=
  (List.range size).map fun i => UInt8.ofNat ('a'.toNat + i)

/-- `icmp_ping` before it takes the checksum. -/
def icmp_ping_fill (icmp_ident num size : ℕ) (m : ℕ → UInt8) : ℕ → UInt8 :=
  let m := put m ICMP_AT [UInt8.ofNat ICMP_TYPE_ECHOREQUEST, 0, 0, 0]
  let m := put m (ICMP_AT + 4) (htons icmp_ident)
  let m := put m (ICMP_AT + 6) (htons (num + 1))
  put m (ICMP_AT + 8) (icmp_ping_data size)

/-- `icmp_ping`, up to the call of `ip_output`. -/
def icmp_ping_packet (icmp_ident num size : ℕ) (m : ℕ → UInt8) : ℕ → UInt8 :=
  let m := icmp_ping_fill icmp_ident num size m
  put m (ICMP_AT + 2) (htons (ip_csum (fun i => m (ICMP_AT + i)) (size + ICMP_HDR_SIZE) 0))

/-- The frame that `icmp_ping` sends, from a buffer with these bytes. -/
def icmp_ping_frame (net : NetHost) (arp : ARP_ENTRY_T) (host icmp_ident num size : ℕ)
    (m : ℕ → UInt8) : Frame :=
  let len := size + ICMP_HDR_SIZE + IP_HDR_SIZE
  enet_send_packet net ETH_TYPE_IP len arp.mac_addr
    (ip_output_packet net host IP_PROTO_ICMP len (icmp_ping_packet icmp_ident num size m))

/-- The answer of `icmp_input` before it takes the checksum. -/
def icmp_reply_fill (f : Frame) : ℕ → UInt8 :=
  put (put f.data ICMP_AT [UInt8.ofNat ICMP_TYPE_ECHOREPLY]) (ICMP_AT + 2) [0, 0]

/-- The answer, up to the call of `ip_output`. -/
def icmp_reply_packet (f : Frame) : ℕ → UInt8 :=
  let m := icmp_reply_fill f
  put m (ICMP_AT + 2)
    (htons (ip_csum (fun i => m (ICMP_AT + i)) (f.len - ETH_HDR_SIZE - IP_HDR_SIZE) 0))

/-- The frame with which `icmp_input` answers, to the addresses that the request is from. -/
def icmp_reply_frame (net : NetHost) (f : Frame) : Frame :=
  let len := f.len - ETH_HDR_SIZE - IP_HDR_SIZE + IP_HDR_SIZE
  enet_send_packet net ETH_TYPE_IP len
    (firstBytes (fun i => f.data (ETH_MAC_SIZE + i)) ETH_MAC_SIZE)
    (ip_output_packet net f.saddr IP_PROTO_ICMP len (icmp_reply_packet f))

/-- `icmp_ping_listener`: what it leaves in the variable. -/
def icmp_ping_listen (arg : ℤ) (f : Frame) : ℤ := if arg ≠ f.icmp_ident then -1 else 0

/-- The frame gets to `icmp_input`, and that gives it to the listener. -/
def icmp_heard (my_ip_addr : ℕ) (f : Frame) : Bool :=
  ip_heard my_ip_addr IP_PROTO_ICMP f && icmp_verdict f = .listener

/-- One `enet_poll`, with the frames that it finds. -/
def icmp_ping_poll (my_ip_addr : ℕ) (arg : ℤ) (fs : List Frame) : ℤ :=
  fs.foldl (fun arg f => if icmp_heard my_ip_addr f then icmp_ping_listen arg f else arg) arg

/-- The waiting loop of `icmp_ping`. -/
def icmp_ping_wait (my_ip_addr : ℕ) (icmp_ident : ℕ) (arg : ℤ) : List (List Frame) → ℤ
  | [] => arg
  | fs :: polls =>
    let arg := icmp_ping_poll my_ip_addr arg fs
    if arg ≠ icmp_ident then arg else icmp_ping_wait my_ip_addr icmp_ident arg polls

/-- What `icmp_ping` says about one message. -/
inductive PingResult
  | time_out
  | incorrect
  | reply
deriving DecidableEq

def icmp_ping_result (my_ip_addr icmp_ident : ℕ) (polls : List (List Frame)) : PingResult :=
  let arg := icmp_ping_wait my_ip_addr icmp_ident icmp_ident polls
  if arg = icmp_ident then .time_out
  else if arg ≠ 0 then .incorrect
  else .reply

/-! ## The request -/

section Request

variable {net net' : NetHost} {arp : ARP_ENTRY_T} {host icmp_ident num size : ℕ} {m : ℕ → UInt8}
  {f g : Frame}

/-- The message that a request holds, but for its checksum. -/
theorem icmp_ping_packet_bytes :
    icmp_ping_packet icmp_ident num size m ICMP_AT = 8 ∧
      icmp_ping_packet icmp_ident num size m (ICMP_AT + 1) = 0 ∧
      be16 (icmp_ping_packet icmp_ident num size m) (ICMP_AT + 4) = icmp_ident % 65536 := by
  have hout : ∀ i, i < 2 ∨ 4 ≤ i → icmp_ping_packet icmp_ident num size m (ICMP_AT + i) =
      icmp_ping_fill icmp_ident num size m (ICMP_AT + i) := by
    intro i hi
    exact put_outside (by simp only [length_htons]; omega)
  have hfill : ∀ i, i < 8 → icmp_ping_fill icmp_ident num size m (ICMP_AT + i) =
      put (put (put m ICMP_AT [UInt8.ofNat ICMP_TYPE_ECHOREQUEST, 0, 0, 0]) (ICMP_AT + 4)
        (htons icmp_ident)) (ICMP_AT + 6) (htons (num + 1)) (ICMP_AT + i) := by
    intro i hi
    exact put_outside (by omega)
  refine ⟨?_, ?_, ?_⟩
  · rw [← Nat.add_zero ICMP_AT, hout 0 (by omega), hfill 0 (by omega)]
    simp [put, splice, ICMP_AT, ETH_HDR_SIZE, IP_HDR_SIZE, htons, ICMP_TYPE_ECHOREQUEST]
  · rw [hout 1 (by omega), hfill 1 (by omega)]
    simp [put, splice, ICMP_AT, ETH_HDR_SIZE, IP_HDR_SIZE, htons]
  · rw [be16, Nat.add_assoc, hout 4 (by omega), hout 5 (by omega), hfill 4 (by omega),
      hfill 5 (by omega)]
    simp [put, splice, ICMP_AT, ETH_HDR_SIZE, IP_HDR_SIZE, htons]
    omega

/-- Its checksum is right. -/
theorem icmp_ping_packet_sum (hsize : size ≤ ICMP_MAX_DATA_SIZE) :
    csum_total (fun i => icmp_ping_packet icmp_ident num size m (ICMP_AT + i))
        (size + ICMP_HDR_SIZE) 0 ≡ 0 [MOD 65535] ∧
      0 < csum_total (fun i => icmp_ping_packet icmp_ident num size m (ICMP_AT + i))
        (size + ICMP_HDR_SIZE) 0 ∧
      csum_total (fun i => icmp_ping_packet icmp_ident num size m (ICMP_AT + i))
        (size + ICMP_HDR_SIZE) 0 < W := by
  unfold icmp_ping_packet
  have hzero : ∀ i, i < 2 → icmp_ping_fill icmp_ident num size m (ICMP_AT + (2 + i)) = 0 := by
    intro i hi
    unfold icmp_ping_fill
    rw [put_outside (by omega), put_outside (by omega), put_outside (by omega)]
    interval_cases i <;> simp [put, splice, ICMP_AT]
  generalize icmp_ping_fill icmp_ident num size m = m₀ at *
  have hle := csum_total_le (fun i => m₀ (ICMP_AT + i)) (size + ICMP_HDR_SIZE) 0
  have hmax : ICMP_MAX_DATA_SIZE = 1472 := by decide
  have hhdr : ICMP_HDR_SIZE = 8 := rfl
  have hsmall : csum_total (fun i => m₀ (ICMP_AT + i)) (size + ICMP_HDR_SIZE) 0 < W := by
    unfold W
    omega
  obtain ⟨c, hc, hsum, hmod, hpos⟩ := csum_total_fill (k := 1) hsmall (hzero 0 (by omega))
    (hzero 1 (by omega)) (by omega)
  rw [put_shift, hsum]
  refine ⟨hmod, hpos, ?_⟩
  unfold W
  omega

/-- **The request is answered**: the host that it is for takes it, and finds nothing wrong. -/
theorem icmp_ping_frame_verdict (hsize : size ≤ ICMP_MAX_DATA_SIZE)
    (hg : Arrives (icmp_ping_frame net arp host icmp_ident num size m) g) :
    ip_heard (host % W) IP_PROTO_ICMP g = true ∧
      g.saddr = net.my_ip_addr % W ∧ icmp_verdict g = .reply ∧
      g.icmp_ident = icmp_ident % 65536 ∧
      ∀ i, i < size → g.data (ICMP_AT + ICMP_HDR_SIZE + i) = (icmp_ping_data size).getD i 0 := by
  have hmax : ICMP_MAX_DATA_SIZE = 1472 := by decide
  have hhdr : ICMP_HDR_SIZE = 8 := rfl
  have hip : IP_HDR_SIZE = 20 := rfl
  obtain ⟨hacc, -, hsaddr, -, -, -, hdata⟩ :=
    ip_output_accepted (by omega) (by omega) hg
  obtain ⟨htype, hcode, hident⟩ := @icmp_ping_packet_bytes icmp_ident num size m
  have hat : ICMP_AT = TCP_AT := rfl
  have heth : ETH_HDR_SIZE = 14 := rfl
  have htcp : TCP_AT = 34 := rfl
  have hbyte : ∀ i, i < 8 → g.data (ICMP_AT + i) =
      icmp_ping_packet icmp_ident num size m (ICMP_AT + i) :=
    fun i hi => hdata _ (by omega) (by omega)
  have hgtype : g.icmp_type = ICMP_TYPE_ECHOREQUEST := by
    have h := hbyte 0 (by omega)
    rw [Nat.add_zero, htype] at h
    rw [Frame.icmp_type, show ETH_HDR_SIZE + IP_HDR_SIZE = ICMP_AT from rfl, h]
    rfl
  have hgcode : g.icmp_code = 0 := by
    rw [Frame.icmp_code, show ETH_HDR_SIZE + IP_HDR_SIZE = ICMP_AT from rfl, hbyte 1 (by omega),
      hcode]
    rfl
  have hgident : g.icmp_ident = icmp_ident % 65536 := by
    rw [← hident, Frame.icmp_ident, be16, be16]
    rw [show ETH_HDR_SIZE + IP_HDR_SIZE = ICMP_AT from rfl, Nat.add_assoc, hbyte 4 (by omega),
      hbyte 5 (by omega)]
  have hgdata : ∀ i, i < size →
      g.data (ICMP_AT + ICMP_HDR_SIZE + i) = (icmp_ping_data size).getD i 0 := by
    intro i hi
    have hlen : i < (icmp_ping_data size).length := by simpa [icmp_ping_data] using hi
    rw [hdata _ (by omega) (by omega)]
    exact (put_outside (by simp only [length_htons]; omega)).trans (put_add hlen)
  refine ⟨(hacc _).mpr (.inr rfl), hsaddr, ?_, hgident, hgdata⟩
  -- the zeros behind a short frame do not count
  obtain ⟨hmod, hpos, hsmall⟩ := @icmp_ping_packet_sum icmp_ident num size m hsize
  have hsame : csum_total (fun i => g.data (ICMP_AT + i)) (g.len - ICMP_AT) 0 =
      csum_total (fun i => icmp_ping_packet icmp_ident num size m (ICMP_AT + i))
        (size + ICMP_HDR_SIZE) 0 := by
    have hglen : size + ICMP_HDR_SIZE + IP_HDR_SIZE + ETH_HDR_SIZE ≤ g.len := hg.len
    rw [csum_total_zeros (show size + ICMP_HDR_SIZE ≤ g.len - ICMP_AT by omega)]
    · exact csum_total_congr fun i hi => hdata _ (by omega) (by omega)
    · refine fun i hi hi' => hg.filled _ ?_ (by omega)
      change size + ICMP_HDR_SIZE + IP_HDR_SIZE + ETH_HDR_SIZE ≤ ICMP_AT + i
      omega
  have hsum : ip_csum (fun i => g.data (ICMP_AT + i)) (g.len - ICMP_AT) 0 = 0 := by
    rw [ip_csum_eq_zero_iff (by rwa [hsame]) (by rwa [hsame]), hsame]
    exact hmod
  rw [icmp_verdict, if_pos ⟨hgtype, hgcode⟩, if_neg]
  rw [not_not, Nat.sub_sub]
  exact hsum

end Request

/-! ## The answer -/

section Reply

variable {net : NetHost} {g r : Frame}

/-- What the answer has of the request. -/
theorem icmp_reply_packet_bytes (h : icmp_verdict g = .reply) :
    icmp_reply_packet g ICMP_AT = 0 ∧ icmp_reply_packet g (ICMP_AT + 1) = 0 ∧
      ∀ i, ICMP_AT + 4 ≤ i → icmp_reply_packet g i = g.data i := by
  have hcode : g.data (ICMP_AT + 1) = 0 := by
    unfold icmp_verdict at h
    split_ifs at h with hecho
    exact UInt8.toNat_inj.mp hecho.2
  have hout : ∀ i, i < ICMP_AT + 2 ∨ ICMP_AT + 4 ≤ i →
      icmp_reply_packet g i = put g.data ICMP_AT [UInt8.ofNat ICMP_TYPE_ECHOREPLY] i := by
    intro i hi
    unfold icmp_reply_packet icmp_reply_fill
    rw [put_outside (by simp only [length_htons]; omega),
      put_outside (by simp only [List.length_cons, List.length_nil]; omega)]
  refine ⟨?_, ?_, fun i hi => ?_⟩
  · rw [hout _ (by omega)]
    simp [put, splice, ICMP_TYPE_ECHOREPLY]
  · rw [hout _ (by omega), put_outside (by simp), hcode]
  · rw [hout _ (by omega), put_outside (by simp only [List.length_singleton]; omega)]

/-- **The answer is heard** where the request is from, and is the request otherwise. -/
theorem icmp_reply_frame_heard (h : icmp_verdict g = .reply)
    (hmin : ICMP_AT + ICMP_HDR_SIZE ≤ g.len) (hmax : g.len ≤ NETBUF_SIZE)
    (hr : Arrives (icmp_reply_frame net g) r) :
    icmp_heard (g.saddr % W) r = true ∧ r.icmp_ident = g.icmp_ident ∧
      r.saddr = net.my_ip_addr % W ∧ g.len ≤ r.len ∧
      ∀ i, ICMP_AT + 4 ≤ i → i < g.len → r.data i = g.data i := by
  have hat : ICMP_AT = 34 := rfl
  have htcp : TCP_AT = 34 := rfl
  have heth : ETH_HDR_SIZE = 14 := rfl
  have hip : IP_HDR_SIZE = 20 := rfl
  have hhdr : ICMP_HDR_SIZE = 8 := rfl
  have hbuf : NETBUF_SIZE = 2080 := rfl
  obtain ⟨hacc, -, hsaddr, -, -, -, hdata⟩ :=
    ip_output_accepted (by omega) (by omega) hr
  obtain ⟨htype, hcode, hrest⟩ := icmp_reply_packet_bytes h
  have hbyte : ∀ i, ICMP_AT ≤ i → i < g.len → r.data i = icmp_reply_packet g i :=
    fun i hi hi' => hdata _ (by omega) (by omega)
  -- the reply has another type and checksum, and the request's bytes behind them
  have hsame : ∀ i, ICMP_AT + 4 ≤ i → i < g.len → r.data i = g.data i :=
    fun i hi hi' => (hbyte i (by omega) hi').trans (hrest i hi)
  have hrtype : r.icmp_type = ICMP_TYPE_ECHOREPLY := by
    rw [Frame.icmp_type, show ETH_HDR_SIZE + IP_HDR_SIZE = ICMP_AT from rfl,
      hbyte _ (Nat.le_refl _) (by omega), htype]
    rfl
  have hverdict : icmp_verdict r = .listener := by
    rw [icmp_verdict, hrtype, if_neg (fun h => by cases h.1), if_pos rfl]
  refine ⟨?_, ?_, hsaddr, ?_, hsame⟩
  · have hip_heard : ip_heard (g.saddr % W) IP_PROTO_ICMP r = true := (hacc _).mpr (.inr rfl)
    rw [icmp_heard, hip_heard, hverdict]
    rfl
  · rw [Frame.icmp_ident, Frame.icmp_ident, be16, be16,
      show ETH_HDR_SIZE + IP_HDR_SIZE = ICMP_AT from rfl, hsame _ (by omega) (by omega),
      hsame _ (by omega) (by omega)]
  · have hle : g.len - ETH_HDR_SIZE - IP_HDR_SIZE + IP_HDR_SIZE + ETH_HDR_SIZE ≤ r.len := hr.len
    omega

end Reply

/-! ## The listener -/

section Listener

variable {my_ip_addr icmp_ident : ℕ} {fs : List Frame} {arg : ℤ} {r : Frame}

/-- A poll in which nothing is heard. -/
def Unheard (my_ip_addr : ℕ) (fs : List Frame) : Prop := ∀ f ∈ fs, icmp_heard my_ip_addr f = false

theorem icmp_ping_poll_unheard (h : Unheard my_ip_addr fs) :
    icmp_ping_poll my_ip_addr arg fs = arg := by
  unfold icmp_ping_poll
  induction fs with
  | nil => rfl
  | cons f fs ih =>
    rw [List.foldl_cons, h f List.mem_cons_self, if_neg Bool.false_ne_true]
    exact ih fun f' hf' => h f' (List.mem_cons_of_mem _ hf')

theorem icmp_ping_poll_append (fs gs : List Frame) :
    icmp_ping_poll my_ip_addr arg (fs ++ gs) =
      icmp_ping_poll my_ip_addr (icmp_ping_poll my_ip_addr arg fs) gs := List.foldl_append

/-- Polls in which nothing is heard. -/
theorem icmp_ping_wait_unheard {quiet polls : List (List Frame)}
    (h : ∀ fs ∈ quiet, Unheard my_ip_addr fs) :
    icmp_ping_wait my_ip_addr icmp_ident icmp_ident (quiet ++ polls) =
      icmp_ping_wait my_ip_addr icmp_ident icmp_ident polls := by
  induction quiet with
  | nil => rfl
  | cons fs quiet ih =>
    rw [List.cons_append, icmp_ping_wait, icmp_ping_poll_unheard (h fs List.mem_cons_self)]
    simp only [ne_eq, not_true_eq_false, if_false]
    exact ih fun fs' hfs' => h fs' (List.mem_cons_of_mem _ hfs')

/-- The first answer that is heard decides, if it is the only one of its poll. -/
theorem icmp_ping_result_first {quiet polls : List (List Frame)} {before after : List Frame}
    (hquiet : ∀ fs ∈ quiet, Unheard my_ip_addr fs) (hbefore : Unheard my_ip_addr before)
    (hafter : Unheard my_ip_addr after) (hheard : icmp_heard my_ip_addr r = true)
    (hident : 0 < icmp_ident) :
    icmp_ping_result my_ip_addr icmp_ident (quiet ++ (before ++ r :: after) :: polls) =
      if icmp_ident = r.icmp_ident then .reply else .incorrect := by
  have hpoll : icmp_ping_poll my_ip_addr icmp_ident (before ++ r :: after) =
      icmp_ping_listen icmp_ident r := by
    rw [icmp_ping_poll_append, icmp_ping_poll_unheard hbefore, icmp_ping_poll, List.foldl_cons,
      hheard, if_pos rfl]
    exact icmp_ping_poll_unheard hafter
  have hlisten : icmp_ping_listen icmp_ident r = if icmp_ident = r.icmp_ident then 0 else -1 := by
    unfold icmp_ping_listen
    by_cases heq : icmp_ident = r.icmp_ident
    · simp [heq]
    · simp [heq, Nat.cast_inj]
  unfold icmp_ping_result
  rw [icmp_ping_wait_unheard hquiet, icmp_ping_wait, hpoll, hlisten]
  by_cases heq : icmp_ident = r.icmp_ident
  · have hne : (0 : ℤ) ≠ icmp_ident := by omega
    simp only [if_pos heq, ne_eq, hne, not_false_eq_true, if_true, if_false, not_true_eq_false]
  · have hne : (-1 : ℤ) ≠ icmp_ident := by omega
    simp only [if_neg heq, ne_eq, hne, not_false_eq_true, if_true, if_false]
    rfl

end Listener

/-! ## The exchange -/

section Exchange

variable {net net' : NetHost} {arp : ARP_ENTRY_T} {host icmp_ident num size : ℕ} {m : ℕ → UInt8}
  {g r : Frame}

/-- The board that is pinged makes the answer, and it is the first that is heard. -/
structure Answered (net net' : NetHost) (g r : Frame) (polls : List (List Frame)) : Prop where
  arrives : Arrives (icmp_reply_frame net' g) r
  first : ∃ quiet before after later, polls = quiet ++ (before ++ r :: after) :: later ∧
    (∀ fs ∈ quiet, Unheard net.my_ip_addr fs) ∧ Unheard net.my_ip_addr before ∧
    Unheard net.my_ip_addr after

/-- **A ping to another board is answered**, with the bytes that were sent, and `icmp_ping` says
so exactly as long as its identifier has sixteen bits. -/
theorem ping_answered_iff (hsize : size ≤ ICMP_MAX_DATA_SIZE) (hident : 0 < icmp_ident)
    (hnet : net.my_ip_addr < W) (hhost : net'.my_ip_addr < W)
    (hg : Arrives (icmp_ping_frame net arp net'.my_ip_addr icmp_ident num size m) g)
    (hmax : g.len ≤ NETBUF_SIZE) :
    ip_heard net'.my_ip_addr IP_PROTO_ICMP g = true ∧ icmp_verdict g = .reply ∧
      ∀ r polls, Answered net net' g r polls →
        (∀ i, i < size → r.data (ICMP_AT + ICMP_HDR_SIZE + i) = (icmp_ping_data size).getD i 0) ∧
        (icmp_ping_result net.my_ip_addr icmp_ident polls = .reply ↔ icmp_ident < 65536) := by
  have hhdr : ICMP_HDR_SIZE = 8 := rfl
  have hat : ICMP_AT = 34 := rfl
  have heth : ETH_HDR_SIZE = 14 := rfl
  have hip : IP_HDR_SIZE = 20 := rfl
  obtain ⟨hacc, hsaddr, hverdict, hgident, hgdata⟩ := icmp_ping_frame_verdict hsize hg
  rw [Nat.mod_eq_of_lt hhost] at hacc
  rw [Nat.mod_eq_of_lt hnet] at hsaddr
  refine ⟨hacc, hverdict, fun r polls hr => ?_⟩
  have hglen : size + ICMP_HDR_SIZE + IP_HDR_SIZE + ETH_HDR_SIZE ≤ g.len := hg.len
  obtain ⟨hheard, hrident, -, -, hsame⟩ :=
    icmp_reply_frame_heard hverdict (by omega) hmax hr.arrives
  rw [hsaddr, Nat.mod_eq_of_lt hnet] at hheard
  obtain ⟨quiet, before, after, later, rfl, hquiet, hbefore, hafter⟩ := hr.first
  constructor
  · intro i hi
    rw [hsame _ (by omega) (by omega)]
    exact hgdata i hi
  · rw [icmp_ping_result_first hquiet hbefore hafter hheard hident, hrident, hgident]
    split_ifs with heq
    · exact iff_of_true rfl (by omega)
    · exact iff_of_false (by decide) (by omega)

end Exchange

/-! ## One ping -/

/-- The board that pings, and the one that is pinged. -/
def ping_net : NetHost := ⟨0xc0a80001, [0, 1, 2, 3, 4, 5], 7⟩
def pinged_net : NetHost := ⟨0xc0a80002, [0, 1, 2, 3, 4, 6], 9⟩

def ping_frame : Frame :=
  icmp_ping_frame ping_net ⟨0xc0a80002, [0, 1, 2, 3, 4, 6], true⟩ pinged_net.my_ip_addr 1 0 32
    fun _ => 0

theorem ping_answered_iff_one : icmp_verdict ping_frame = .reply ∧
    icmp_ping_result ping_net.my_ip_addr 1 [[icmp_reply_frame pinged_net ping_frame]] = .reply := by
  have hg : Arrives (icmp_ping_frame ping_net ⟨0xc0a80002, [0, 1, 2, 3, 4, 6], true⟩
    pinged_net.my_ip_addr 1 0 32 fun _ => 0) ping_frame := Arrives.refl _
  obtain ⟨-, hverdict, hanswer⟩ :=
    ping_answered_iff (by decide) Nat.one_pos (by decide) (by decide) hg (by decide)
  have hquiet : Unheard ping_net.my_ip_addr [] := fun _ h => by cases h
  have hfirst : Answered ping_net pinged_net ping_frame (icmp_reply_frame pinged_net ping_frame)
      [[icmp_reply_frame pinged_net ping_frame]] :=
    ⟨Arrives.refl _, [], [], [], [], rfl, fun _ h => (by cases h), hquiet, hquiet⟩
  exact ⟨hverdict, (hanswer _ _ hfirst).2.mpr (by norm_num)⟩

end CsBoot.Net
