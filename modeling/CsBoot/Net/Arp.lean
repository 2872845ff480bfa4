/-
The ARP cache, `src/src/net/arp.c`, over every order of calls, packets and flushes.

`arp_request` polls until the address is there, and what is polled may look up another
address before the first call has returned. The calls that have not returned are a stack
here, each with its place in the loop of `arp_request`. Whatever happens between two of
its steps, the counter is the number of used entries, no address has two of them, and a call
returns an entry that answers it (`arp_cache_right`).
-/
import CsBoot.Lib.Slots
import CsBoot.Net.Enet

set_option autoImplicit false

namespace CsBoot.Net

/-! ## The machine -/

/-- The cache after `arp_input`. The listener is there while a request is pending. -/
def arp_receive (arp : Frame) (v : NetVars) : NetVars :=
  if arp.len < ARP_PKT_SIZE then v
  else if arp.arp_hw_type ≠ ARP_HW_ETHER ∨ arp.arp_protocol ≠ ETH_TYPE_IP then v
  else if arp.arp_target_ip = v.my_ip_addr then
    if arp.arp_opcode = ARP_REQUEST then v
    else if arp.arp_opcode = ARP_REPLY ∧ v.arp_listen_handler = true then arp_learn arp v
    else v
  else v

/-- A call of `arp_lookup` in its `arp_request`: the argument of each, the tries that are
left, and whether it polls or is at the head of the outer loop. -/
structure ArpCall where
  host : ℕ
  ipaddr : ℕ
  retry : ℕ
  polling : Bool

/-- The innermost call comes first. -/
structure ArpState where
  vars : NetVars
  calls : List ArpCall

inductive ArpEvent
  /-- `arp_lookup` is called. -/
  | lookup (host : ℕ)
  /-- The outer loop goes on, with a buffer or without. -/
  | request (buf : Bool)
  | packet (f : Frame)
  /-- `enet_poll` has returned. -/
  | polled
  | time_over
  | flush

/-- A call of `arp_lookup` returns to its caller. -/
structure ArpReturn where
  host : ℕ
  entry : Option ℕ

/-- One step. What the innermost call cannot do at its place does nothing. -/
def arp_step (s : ArpState) : ArpEvent → ArpState × Option ArpReturn
  | .lookup host =>
    match arp_chk_entry s.vars host with
    | some i => (s, some ⟨host, some i⟩)
    | none =>
      -- a full table is emptied before anything is asked
      let v := if s.vars.arp_cache_num = ARP_MAX_CACHE_NUM then arp_flush_cache s.vars else s.vars
      let ipaddr := if ip_is_local_net v host then host else v.my_ip_gateway
      (⟨v, ⟨host, ipaddr, 3, false⟩ :: s.calls⟩, none)
  | .request buf =>
    match s.calls with
    -- all three tries are over
    | ⟨host, _, 0, false⟩ :: calls => (⟨s.vars, calls⟩, some ⟨host, none⟩)
    | ⟨host, ipaddr, retry + 1, false⟩ :: calls =>
      if buf then
        (⟨{ s.vars with arp_listen_handler := true }, ⟨host, ipaddr, retry, true⟩ :: calls⟩, none)
      else (⟨s.vars, calls⟩, some ⟨host, none⟩)
    | _ => (s, none)
  | .packet f => (⟨arp_receive f s.vars, s.calls⟩, none)
  | .polled =>
    match s.calls with
    | ⟨host, ipaddr, _, true⟩ :: calls =>
      match arp_chk_entry s.vars ipaddr with
      | some i => (⟨{ s.vars with arp_listen_handler := false }, calls⟩, some ⟨host, some i⟩)
      | none => (s, none)
    | _ => (s, none)
  | .time_over =>
    match s.calls with
    | ⟨host, ipaddr, retry, true⟩ :: calls =>
      (⟨{ s.vars with arp_listen_handler := false }, ⟨host, ipaddr, retry, false⟩ :: calls⟩, none)
    | _ => (s, none)
  | .flush => (⟨arp_flush_cache s.vars, s.calls⟩, none)

/-- The state that the program starts with, for any configuration. -/
def arp_start (v : NetVars) : ArpState :=
  ⟨{ v with
      arp_cache_tbl := fun _ => ⟨0, [], false⟩
      arp_cache_num := 0
      arp_listen_handler := false }, []⟩

def arp_run (s : ArpState) (es : List ArpEvent) : ArpState :=
  es.foldl (fun s e => (arp_step s e).1) s

/-! ## The cache -/

/-- The address of an entry that is used. -/
def arp_keys (v : NetVars) (i : ℕ) : Option ℕ :=
  if i < ARP_MAX_CACHE_NUM ∧ (v.arp_cache_tbl i).used = true then some (v.arp_cache_tbl i).ip_addr
  else none

/-- The entries that are used. -/
def arp_used (v : NetVars) : Finset ℕ :=
  (Finset.range ARP_MAX_CACHE_NUM).filter fun i => (v.arp_cache_tbl i).used = true

/-- The counter counts the used entries, and no two of them have one address. -/
structure ArpCache (v : NetVars) : Prop where
  num : v.arp_cache_num = (arp_used v).card
  distinct : Slots.Unique (arp_keys v)

/-- Which address stands for a host: its own or, outside the local net, the gateway's. -/
def Stands (v : NetVars) (host ipaddr : ℕ) : Prop :=
  ipaddr = host ∨ ip_is_local_net v host = false ∧ ipaddr = v.my_ip_gateway

/-- The entry is used, and its address stands for the host. -/
def Answers (v : NetVars) (host i : ℕ) : Prop :=
  ∃ ipaddr, arp_keys v i = some ipaddr ∧ Stands v host ipaddr

/-- The call that returns in the step returns no entry, or one that answers it. -/
def ReturnsRight (s : ArpState) (e : ArpEvent) : Prop :=
  ∀ r, (arp_step s e).2 = some r → ∀ i, r.entry = some i → Answers (arp_step s e).1.vars r.host i

/-- What holds at every moment. -/
structure ArpInv (s : ArpState) : Prop where
  cache : ArpCache s.vars
  stands : ∀ c ∈ s.calls, Stands s.vars c.host c.ipaddr

section Cache

variable {v v' : NetVars} {ipaddr i : ℕ} {f : Frame}

theorem arp_keys_of_chk (h : arp_chk_entry v ipaddr = some i) : arp_keys v i = some ipaddr := by
  have hmem := List.mem_range.mp (List.mem_of_find?_eq_some h)
  have hsome := List.find?_some h
  simp only [Bool.and_eq_true, decide_eq_true_eq] at hsome
  rw [arp_keys, if_pos ⟨hmem, hsome.1⟩, hsome.2]

theorem arp_keys_of_chk_none (h : arp_chk_entry v ipaddr = none) : arp_keys v i ≠ some ipaddr := by
  intro hi
  rw [arp_keys] at hi
  split_ifs at hi with hused
  have hno := List.find?_eq_none.mp h i (List.mem_range.mpr hused.1)
  simp only [hused.2, Option.some.inj hi, decide_true, Bool.and_self, not_true] at hno

/-- The cache is what the table says. -/
theorem ArpCache.congr (h : ArpCache v) (hnum : v'.arp_cache_num = v.arp_cache_num)
    (hused : ∀ i, (v'.arp_cache_tbl i).used = (v.arp_cache_tbl i).used)
    (haddr : ∀ i, (v'.arp_cache_tbl i).ip_addr = (v.arp_cache_tbl i).ip_addr) : ArpCache v' where
  num := by
    rw [hnum, h.num]
    simp only [arp_used, hused]
  distinct := by
    have hkeys : arp_keys v' = arp_keys v := by
      funext i
      simp only [arp_keys, hused, haddr]
    rw [hkeys]
    exact h.distinct

theorem arpCache_flush : ArpCache (arp_flush_cache v) where
  num := by
    have hnone : arp_used (arp_flush_cache v) = ∅ := by
      apply Finset.filter_eq_empty_iff.mpr
      intro i hi
      rw [Finset.mem_range] at hi
      simp [arp_flush_cache, hi]
    rw [hnone]
    rfl
  distinct := by
    intro i j k hi
    rw [arp_keys] at hi
    split_ifs at hi with hused
    simp [arp_flush_cache, hused.1] at hused

/-- A reply updates the entry of its address, or fills one that is not used. -/
theorem ArpCache.learn (h : ArpCache v) : ArpCache (arp_learn f v) := by
  unfold arp_learn
  split
  · next i hchk =>
    refine h.congr rfl (fun j => ?_) fun j => ?_
    · by_cases hj : j = i
      · subst hj
        simp only [Function.update_self]
      · simp only [Function.update_of_ne hj]
    · by_cases hj : j = i
      · subst hj
        simp only [Function.update_self]
      · simp only [Function.update_of_ne hj]
  · next hchk =>
    split
    · next i hfree =>
      have hi := List.mem_range.mp (List.mem_of_find?_eq_some hfree)
      have hunused : (v.arp_cache_tbl i).used = false := by
        simpa using List.find?_some hfree
      constructor
      · -- a new entry takes a slot that was not used, and is counted
        have hinsert : arp_used { v with
            arp_cache_tbl :=
              Function.update v.arp_cache_tbl i ⟨f.arp_sender_ip, f.arp_sender_mac, true⟩
            arp_cache_num := v.arp_cache_num + 1 } = insert i (arp_used v) := by
          ext j
          by_cases hj : j = i
          · subst hj
            simp [arp_used, hi]
          · simp [arp_used, hj]
        have hnot : i ∉ arp_used v := by simp [arp_used, hunused]
        rw [hinsert, Finset.card_insert_of_notMem hnot, h.num]
        push_cast
        rfl
      · -- no other slot has its address, or it would have been found
        have hput : arp_keys { v with
            arp_cache_tbl :=
              Function.update v.arp_cache_tbl i ⟨f.arp_sender_ip, f.arp_sender_mac, true⟩
            arp_cache_num := v.arp_cache_num + 1 } = Slots.put (arp_keys v) i f.arp_sender_ip := by
          funext j
          by_cases hj : j = i
          · subst hj
            simp [arp_keys, hi, Slots.put_self]
          · simp [arp_keys, hj, Slots.put_of_ne hj]
        rw [hput]
        exact h.distinct.put fun j hj => absurd hj (arp_keys_of_chk_none hchk)
    · exact h

/-! Nothing here changes the configuration. -/

/-- Two states of the variables have one configuration. -/
def SameConfig (v v' : NetVars) : Prop :=
  v'.my_ip_addr = v.my_ip_addr ∧ v'.my_ip_netmask = v.my_ip_netmask ∧
    v'.my_ip_gateway = v.my_ip_gateway

theorem SameConfig.stands (h : SameConfig v v') {host : ℕ} (hs : Stands v host ipaddr) :
    Stands v' host ipaddr := by
  obtain ⟨haddr, hmask, hgateway⟩ := h
  simpa only [Stands, ip_is_local_net, haddr, hmask, hgateway] using hs

theorem sameConfig_learn : SameConfig v (arp_learn f v) := by
  unfold arp_learn
  split
  · exact ⟨rfl, rfl, rfl⟩
  · split <;> exact ⟨rfl, rfl, rfl⟩

theorem arp_receive_cases : arp_receive f v = v ∨ arp_receive f v = arp_learn f v := by
  unfold arp_receive
  split_ifs <;> simp

theorem sameConfig_receive : SameConfig v (arp_receive f v) := by
  rcases arp_receive_cases (f := f) (v := v) with h | h
  · rw [h]
    exact ⟨rfl, rfl, rfl⟩
  · rw [h]
    exact sameConfig_learn

theorem ArpCache.receive (h : ArpCache v) : ArpCache (arp_receive f v) := by
  rcases arp_receive_cases (f := f) (v := v) with hr | hr
  · rw [hr]
    exact h
  · rw [hr]
    exact h.learn

/-- `arp_lookup` empties a cache that is full. -/
theorem ArpCache.make_room (h : ArpCache v) :
    ArpCache (if v.arp_cache_num = ARP_MAX_CACHE_NUM then arp_flush_cache v else v) ∧
      SameConfig v (if v.arp_cache_num = ARP_MAX_CACHE_NUM then arp_flush_cache v else v) := by
  split
  · exact ⟨arpCache_flush, rfl, rfl, rfl⟩
  · exact ⟨h, rfl, rfl, rfl⟩

/-- What `arp_lookup` asks for. -/
theorem stands_asked (host : ℕ) :
    Stands v host (if ip_is_local_net v host then host else v.my_ip_gateway) := by
  split
  · exact .inl rfl
  · next hlocal => exact .inr ⟨Bool.not_eq_true _ ▸ hlocal, rfl⟩

/-- The listener is not part of the cache. -/
theorem ArpCache.listen (h : ArpCache v) (b : Bool) :
    ArpCache { v with arp_listen_handler := b } :=
  h.congr rfl (fun _ => rfl) fun _ => rfl

end Cache

/-! ## Every order of steps -/

section Steps

variable {s : ArpState}

theorem ArpInv.start (v : NetVars) : ArpInv (arp_start v) where
  cache := by
    constructor
    · have hnone : arp_used (arp_start v).vars = ∅ :=
        Finset.filter_eq_empty_iff.mpr fun i _ => Bool.false_ne_true
      rw [hnone]
      rfl
    · intro i j k hi
      rw [arp_keys] at hi
      split_ifs at hi with hused
      exact absurd hused.2 Bool.false_ne_true
  stands := fun c hc => absurd hc List.not_mem_nil

/-- Every step keeps the invariant, and returns what it should. -/
theorem ArpInv.step (h : ArpInv s) (e : ArpEvent) :
    ArpInv (arp_step s e).1 ∧ ReturnsRight s e := by
  obtain ⟨v, calls⟩ := s
  obtain ⟨hcache, hstands⟩ := h
  cases e with
  | lookup host =>
    cases hchk : arp_chk_entry v host with
    | some i =>
      simp only [arp_step, ReturnsRight, hchk]
      refine ⟨⟨hcache, hstands⟩, ?_⟩
      rintro _ ⟨⟩ _ ⟨⟩
      exact ⟨host, arp_keys_of_chk hchk, .inl rfl⟩
    | none =>
      simp only [arp_step, ReturnsRight, hchk]
      obtain ⟨hroom, hsame⟩ := hcache.make_room
      refine ⟨⟨hroom, ?_⟩, nofun⟩
      rintro c (_ | ⟨_, hc⟩)
      · exact stands_asked host
      · exact hsame.stands (hstands c hc)
  | request buf =>
    -- only the head of the outer loop goes on, and it does not return an entry
    match calls, buf with
    | [], _ | ⟨_, _, 0, true⟩ :: _, _ | ⟨_, _, _ + 1, true⟩ :: _, _ =>
      exact ⟨⟨hcache, hstands⟩, nofun⟩
    | ⟨host, ipaddr, 0, false⟩ :: calls, _ | ⟨host, ipaddr, _ + 1, false⟩ :: calls, false =>
      refine ⟨⟨hcache, fun c hc => hstands c (List.mem_cons_of_mem _ hc)⟩, ?_⟩
      rintro _ ⟨⟩ _ ⟨⟩
    | ⟨host, ipaddr, retry + 1, false⟩ :: calls, true =>
      refine ⟨⟨hcache.listen true, ?_⟩, nofun⟩
      rintro c (_ | ⟨_, hc⟩)
      · exact hstands ⟨host, ipaddr, retry + 1, false⟩ List.mem_cons_self
      · exact hstands c (List.mem_cons_of_mem _ hc)
  | packet f =>
    exact ⟨⟨hcache.receive, fun c hc => sameConfig_receive.stands (hstands c hc)⟩, nofun⟩
  | polled =>
    match calls with
    | [] | ⟨_, _, _, false⟩ :: _ => exact ⟨⟨hcache, hstands⟩, nofun⟩
    | ⟨host, ipaddr, retry, true⟩ :: calls =>
      cases hchk : arp_chk_entry v ipaddr with
      | none =>
        simp only [arp_step, ReturnsRight, hchk]
        exact ⟨⟨hcache, hstands⟩, nofun⟩
      | some i =>
        simp only [arp_step, ReturnsRight, hchk]
        refine ⟨⟨hcache.listen false, fun c hc => hstands c (List.mem_cons_of_mem _ hc)⟩, ?_⟩
        rintro _ ⟨⟩ _ ⟨⟩
        exact ⟨ipaddr, arp_keys_of_chk hchk, hstands _ List.mem_cons_self⟩
  | time_over =>
    match calls with
    | [] | ⟨_, _, _, false⟩ :: _ => exact ⟨⟨hcache, hstands⟩, nofun⟩
    | ⟨host, ipaddr, retry, true⟩ :: calls =>
      refine ⟨⟨hcache.listen false, ?_⟩, nofun⟩
      rintro c (_ | ⟨_, hc⟩)
      · exact hstands ⟨host, ipaddr, retry, true⟩ List.mem_cons_self
      · exact hstands c (List.mem_cons_of_mem _ hc)
  | flush => exact ⟨⟨arpCache_flush, hstands⟩, nofun⟩

theorem ArpInv.run (h : ArpInv s) (es : List ArpEvent) : ArpInv (arp_run s es) := by
  induction es generalizing s with
  | nil => exact h
  | cons e es ih => exact ih (h.step e).1

end Steps

/-- **The cache in every run**: after any steps the counter counts the used entries, no
address has two of them, and what the next step returns is right. -/
theorem arp_cache_right (v : NetVars) (es : List ArpEvent) :
    ArpCache (arp_run (arp_start v) es).vars ∧ ∀ e, ReturnsRight (arp_run (arp_start v) es) e := by
  have hinv := (ArpInv.start v).run es
  exact ⟨hinv.cache, fun e => (hinv.step e).2⟩

end CsBoot.Net
