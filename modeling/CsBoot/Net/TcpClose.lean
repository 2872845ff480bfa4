/-
What `tcp_close` of `src/src/net/tcp.c` does to the table of sockets.

The loop moves the argument and compares with the first entry of the table, so it is the
entries from the argument on that are looked at, five of them wherever that is, and those
that look like the first are cleared. Once the first is cleared itself, the others are
compared with what is left of it.
-/
import CsBoot.Net.Tcp

set_option autoImplicit false

namespace CsBoot.Net

/-- An entry that `tcp_close` has cleared. -/
def tcp_closed_sock : TCP_SOCK_T := { tcp_cleared with local_port := TCP_PORT_HTTP }

/-- The entries that `tcp_close(&tcp_socks[k])` reads: the first, and one in each round. -/
def tcp_close_reads (k : ℕ) : List ℕ := 0 :: (List.range TCP_SOCKET_MAX_NUM).map (k + ·)

/-- What closing connection `k` is to be: its entry is reset, the others are as they were,
and nothing outside the table is read or written. -/
structure ClosesOne (socks : ℕ → TCP_SOCK_T) (k : ℕ) : Prop where
  reset : tcp_close socks k k = tcp_closed_sock
  others : ∀ j, j < TCP_SOCKET_MAX_NUM → j ≠ k → tcp_close socks k j = socks j
  inside : ∀ j ∈ tcp_close_reads k, j < TCP_SOCKET_MAX_NUM

/-- An entry in use that looks like a cleared one. -/
def LooksClosed (sock : TCP_SOCK_T) : Prop :=
  sock.used = 1 ∧ sock.local_port = TCP_PORT_HTTP ∧ sock.remote_port = 0 ∧ sock.from_ip = 0

instance (sock : TCP_SOCK_T) : Decidable (LooksClosed sock) :=
  inferInstanceAs (Decidable (_ ∧ _ ∧ _ ∧ _))

section Rounds

variable (k : ℕ) (socks : ℕ → TCP_SOCK_T) {i j : ℕ}

/-! ## One round -/

/-- A round changes its own entry alone, and only one in use. -/
theorem tcp_close_round_frame (h : j ≠ k + i ∨ (socks j).used ≠ 1) :
    tcp_close_round k socks i j = socks j := by
  unfold tcp_close_round
  split
  case isTrue hmatch =>
    apply Function.update_of_ne
    rintro rfl
    rcases h with h | h
    · exact h rfl
    · exact h hmatch.1
  case isFalse => rfl

/-- With the first entry cleared, a round clears the entries that look like it. -/
theorem tcp_close_round_cleared (hfirst : socks 0 = tcp_closed_sock) :
    tcp_close_round 0 socks i j =
      if j = i ∧ LooksClosed (socks j) then tcp_closed_sock else socks j := by
  have hlooks : ((socks (0 + i)).used = 1 ∧ (socks 0).local_port = (socks (0 + i)).local_port ∧
      (socks 0).remote_port = (socks (0 + i)).remote_port ∧
      (socks 0).from_ip = (socks (0 + i)).from_ip) ↔ LooksClosed (socks i) := by
    rw [hfirst, Nat.zero_add]
    simp only [LooksClosed, tcp_closed_sock, tcp_cleared, eq_comm]
  unfold tcp_close_round
  rw [if_congr hlooks rfl rfl, Nat.zero_add]
  by_cases hji : j = i
  · subst hji
    by_cases hl : LooksClosed (socks j)
    · simp [hl, tcp_closed_sock]
    · simp [hl]
  · have hother : ¬ (j = i ∧ LooksClosed (socks j)) := fun h => hji h.1
    rw [if_neg hother]
    split
    · exact Function.update_of_ne hji ..
    · rfl

/-! ## All rounds -/

theorem tcp_close_rounds_frame (l : List ℕ) (h : (∀ i ∈ l, j ≠ k + i) ∨ (socks j).used ≠ 1) :
    l.foldl (tcp_close_round k) socks j = socks j := by
  induction l generalizing socks with
  | nil => rfl
  | cons i l ih =>
    have hround : tcp_close_round k socks i j = socks j :=
      tcp_close_round_frame k socks (h.imp_left fun h => h i List.mem_cons_self)
    rw [List.foldl_cons, ih, hround]
    rw [hround]
    exact h.imp_left fun h i hi => h i (List.mem_cons_of_mem _ hi)

/-- The rounds after the first entry is cleared. -/
theorem tcp_close_rounds_cleared (l : List ℕ) (hl : 0 ∉ l) (hfirst : socks 0 = tcp_closed_sock) :
    l.foldl (tcp_close_round 0) socks j =
      if j ∈ l ∧ LooksClosed (socks j) then tcp_closed_sock else socks j := by
  induction l generalizing socks with
  | nil => simp
  | cons i l ih =>
    obtain ⟨hi, hrest⟩ := not_or.mp (List.mem_cons.not.mp hl)
    have hkept : tcp_close_round 0 socks i 0 = tcp_closed_sock := by
      rw [tcp_close_round_frame 0 socks (.inl (by omega)), hfirst]
    rw [List.foldl_cons, ih _ hrest hkept, tcp_close_round_cleared socks hfirst]
    by_cases hl : LooksClosed (socks j)
    · by_cases hji : j = i
      · simp [hji ▸ hl, hji]
      · simp [hji]
    · simp [hl]

/-- Closing the first entry: it is cleared, and with it those that look cleared. -/
theorem tcp_close_zero (hused : (socks 0).used = 1) :
    tcp_close socks 0 j =
      if j = 0 ∨ j < TCP_SOCKET_MAX_NUM ∧ LooksClosed (socks j) then tcp_closed_sock
      else socks j := by
  have hfirst : tcp_close_round 0 socks 0 = Function.update socks 0 tcp_closed_sock := by
    unfold tcp_close_round
    exact if_pos ⟨hused, rfl, rfl, rfl⟩
  have hrange : List.range TCP_SOCKET_MAX_NUM = 0 :: [1, 2, 3, 4] := rfl
  have hmem : j ∈ [1, 2, 3, 4] ↔ j ≠ 0 ∧ j < TCP_SOCKET_MAX_NUM := by
    simp only [List.mem_cons, List.not_mem_nil, or_false, TCP_SOCKET_MAX_NUM]
    omega
  rw [tcp_close, hrange, List.foldl_cons, hfirst,
    tcp_close_rounds_cleared _ _ (by decide) (Function.update_self ..),
    if_congr (and_congr_left' hmem) rfl rfl]
  by_cases hj : j = 0
  · simp [hj]
  · simp [hj]

end Rounds

/-- The table is left only for the first entry. -/
theorem tcp_close_inside_iff {k : ℕ} :
    (∀ j ∈ tcp_close_reads k, j < TCP_SOCKET_MAX_NUM) ↔ k = 0 := by
  unfold tcp_close_reads TCP_SOCKET_MAX_NUM
  constructor
  · intro h
    have hlast := h (k + 4) (List.mem_cons_of_mem _ (List.mem_map_of_mem (by decide)))
    omega
  · rintro rfl
    decide

/-- **`tcp_close` closes one connection exactly when** it is that of the first entry, in
use as the code has it, and no other entry in use has the ports and the address of a
cleared one. -/
theorem tcp_closes_one_iff (socks : ℕ → TCP_SOCK_T) (k : ℕ) (hk : k < TCP_SOCKET_MAX_NUM)
    (hused : (socks k).used ≠ 0) :
    ClosesOne socks k ↔ k = 0 ∧ (socks 0).used = 1 ∧
      ∀ j, 0 < j → j < TCP_SOCKET_MAX_NUM → ¬ LooksClosed (socks j) := by
  constructor
  · intro h
    obtain rfl := tcp_close_inside_iff.mp h.inside
    have hone : (socks 0).used = 1 := by
      by_contra hne
      have hkept : tcp_close socks 0 0 = socks 0 := tcp_close_rounds_frame 0 socks _ (.inr hne)
      rw [h.reset] at hkept
      exact hused (congrArg TCP_SOCK_T.used hkept).symm
    refine ⟨rfl, hone, fun j hpos hj hlooks => ?_⟩
    have hkept := h.others j hj (by omega)
    rw [tcp_close_zero socks hone, if_pos (.inr ⟨hj, hlooks⟩)] at hkept
    rw [← hkept] at hlooks
    exact absurd hlooks.1 (by decide)
  · rintro ⟨rfl, hone, hnone⟩
    constructor
    · rw [tcp_close_zero socks hone, if_pos (.inl rfl)]
    · intro j hj hne
      rw [tcp_close_zero socks hone, if_neg]
      rintro (h | h)
      · exact hne h
      · exact hnone j (by omega) hj h.2
    · exact tcp_close_inside_iff.mpr rfl

/-- Connections of two clients from the same address, in the first two entries. -/
def two_clients (i : ℕ) : TCP_SOCK_T :=
  if i < 2 then
    { tcp_cleared with
      used := 1
      local_port := TCP_PORT_HTTP
      remote_port := 1024 + i
      from_ip := 0xc0a80002 }
  else { tcp_cleared with local_port := TCP_PORT_HTTP }

theorem tcp_closes_first :
    0 < TCP_SOCKET_MAX_NUM ∧ (two_clients 0).used ≠ 0 ∧
      (ClosesOne two_clients 0 ↔ 0 = 0 ∧ (two_clients 0).used = 1 ∧
        ∀ j, 0 < j → j < TCP_SOCKET_MAX_NUM → ¬ LooksClosed (two_clients j)) :=
  ⟨by decide, by decide, tcp_closes_one_iff two_clients 0 (by decide) (by decide)⟩

/-- The second connection stays open when it is closed, and the entry behind the table is
looked at. -/
theorem tcp_close_second_stays :
    (tcp_close two_clients 1 1).used = 1 ∧ 5 ∈ tcp_close_reads 1 ∧ ¬ ClosesOne two_clients 1 := by
  have hopen : (tcp_close two_clients 1 1).used = 1 := by decide
  refine ⟨hopen, by decide, fun h => ?_⟩
  rw [h.reset] at hopen
  exact absurd hopen (by decide)

end CsBoot.Net
