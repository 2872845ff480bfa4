/-
The checksum of `src/src/net/chksum.h` is the Internet checksum.

RFC 1071 adds the words of the data as one's complement words, in network order and with
a zero behind an odd byte, and takes the complement. `ip_csum` adds the words as the
little-endian machine loads them, in a 32-bit word that it folds once, and swaps the two
bytes of the complement. Swapping is multiplication by 256 modulo 65535, so the two sums
have one residue, and both are zero only when every byte is.
-/
import CsBoot.Lib.OnesSum
import CsBoot.Net.TcpOutput
import CsBoot.Net.Udp

set_option autoImplicit false

namespace CsBoot.Net

open ByteMem

/-! ## RFC 1071 -/

/-- The words of the data in network order. -/
def net_words : List UInt8 → List ℕ
  | [] => []
  | [a] => [256 * a.toNat]
  | a :: b :: l => (256 * a.toNat + b.toNat) :: net_words l

/-- The Internet checksum. -/
def rfc1071 (data : List UInt8) : ℕ := 65535 - onesSum 65535 (net_words data)

/-- The pseudo header of a datagram: the addresses, the protocol and the length. -/
def udp_pseudo_header (f : Frame) : List UInt8 :=
  SkipBlocks.firstBytes (fun i => f.data (ETH_HDR_SIZE + 12 + i)) 8 ++
    [0, f.data (ETH_HDR_SIZE + 9)] ++ SkipBlocks.firstBytes (fun i => f.data (UDP_OFFSET + 4 + i)) 2

section Words

variable {data p : List UInt8}

/-- The words as the machine loads them. -/
def host_words : List UInt8 → List ℕ
  | [] => []
  | [a] => [a.toNat]
  | a :: b :: l => (a.toNat + 256 * b.toNat) :: host_words l

theorem net_words_le : ∀ (data : List UInt8), ∀ x ∈ net_words data, x ≤ 65535
  | [] => List.forall_mem_nil _
  | [a] => by
      have := a.toNat_lt
      rw [net_words, List.forall_mem_singleton]
      omega
  | a :: b :: l => by
      have := a.toNat_lt
      have := b.toNat_lt
      rw [net_words, List.forall_mem_cons]
      exact ⟨by omega, net_words_le l⟩

/-- The sums in the two orders. -/
theorem sum_net_words : ∀ data : List UInt8,
    (net_words data).sum ≡ 256 * (host_words data).sum [MOD 65535] ∧
      ((net_words data).sum = 0 ↔ (host_words data).sum = 0)
  | [] => ⟨Nat.ModEq.refl _, Iff.rfl⟩
  | [a] => by
      rw [net_words, host_words, List.sum_singleton, List.sum_singleton]
      exact ⟨Nat.ModEq.refl _, by omega⟩
  | a :: b :: l => by
      obtain ⟨hmod, hzero⟩ := sum_net_words l
      rw [net_words, host_words, List.sum_cons, List.sum_cons]
      unfold Nat.ModEq at *
      constructor <;> omega

/-- Words of even length come first. -/
theorem host_words_append : ∀ {p : List UInt8}, p.length % 2 = 0 →
    host_words (p ++ data) = host_words p ++ host_words data
  | [], _ => rfl
  | [a], h => absurd h Nat.one_ne_zero
  | a :: b :: p, h => by
      have hp : p.length % 2 = 0 := by
        rw [List.length_cons, List.length_cons] at h
        omega
      rw [List.cons_append, List.cons_append, host_words, host_words, host_words_append hp,
        List.cons_append]

/-- The sum of `ip_csum`. -/
theorem csum_total_eq : ∀ (data : List UInt8),
    csum_total (fun i => data.getD i 0) data.length 0 = (host_words data).sum
  | [] => rfl
  | [a] => by
      rw [host_words, List.sum_singleton]
      simp [csum_total, sum16]
  | a :: b :: l => by
      have ih := csum_total_eq l
      -- the words behind the first are the words of the rest
      have hsum : ∀ n, sum16 (fun i => (a :: b :: l).getD i 0) (n + 1) =
          a.toNat + 256 * b.toNat + sum16 (fun i => l.getD i 0) n := by
        intro n
        induction n with
        | zero => simp [sum16, le16]
        | succ n ih =>
            rw [sum16, ih, sum16]
            simp only [le16, Nat.mul_add, Nat.mul_one, List.getD_cons_succ]
            omega
      rw [host_words, List.sum_cons, ← ih]
      unfold csum_total
      rw [show (a :: b :: l).length / 2 = l.length / 2 + 1 by simp; omega, hsum]
      have hodd : (a :: b :: l).length % 2 = l.length % 2 := by
        rw [List.length_cons, List.length_cons]
        omega
      have hlast : l.length % 2 = 1 →
          (a :: b :: l).getD ((a :: b :: l).length - 1) 0 = l.getD (l.length - 1) 0 := by
        intro h
        cases l with
        | nil => cases h
        | cons c l => rfl
      rw [hodd]
      split_ifs with h
      · dsimp only
        rw [hlast h]
        omega
      · omega

/-- What `udp_pseudo_sum` makes of the pseudo header. -/
theorem udp_pseudo_sum_eq (f : Frame) :
    udp_pseudo_sum f = (host_words (udp_pseudo_header f)).sum := by
  simp [udp_pseudo_sum, udp_pseudo_header, SkipBlocks.firstBytes, List.range_succ, host_words,
    sum16,
    le16, Frame.protocol]
  omega

theorem udp_pseudo_sum_le (f : Frame) : udp_pseudo_sum f ≤ 6 * 65535 := by
  have h := sum16_le (fun i => f.data (ETH_HDR_SIZE + 12 + i)) 4
  have hp := (f.data (ETH_HDR_SIZE + 9)).toNat_lt
  have hl := le16_le f.data (UDP_OFFSET + 4)
  unfold udp_pseudo_sum Frame.protocol
  omega

end Words

/-- **The Internet checksum**, of any data of at most 65535 bytes with any pseudo header:
`ip_csum` is that of RFC 1071, and once it is filled in at a word of zero, `ip_csum` is
zero. -/
theorem ip_csum_right (f : Frame) (data : List UInt8) (hlen : data.length ≤ 65535) :
    let w : ℕ → UInt8 := fun i => data.getD i 0
    ip_csum w data.length (udp_pseudo_sum f) = rfc1071 (udp_pseudo_header f ++ data) ∧
      ∀ k, 2 * k + 1 < data.length → w (2 * k) = 0 → w (2 * k + 1) = 0 →
        ip_csum (put w (2 * k) (htons (ip_csum w data.length (udp_pseudo_sum f)))) data.length
          (udp_pseudo_sum f) = 0 := by
  intro w
  have hseed := udp_pseudo_sum_le f
  have hle := csum_total_le w data.length (udp_pseudo_sum f)
  have hbound : csum_total w data.length (udp_pseudo_sum f) + 65535 < W := by
    unfold W
    omega
  have hlt : csum_total w data.length (udp_pseudo_sum f) < W := by omega
  constructor
  · -- both are complements of words with one residue, and zero together
    have htotal : csum_total w data.length (udp_pseudo_sum f) =
        (host_words (udp_pseudo_header f ++ data)).sum := by
      rw [host_words_append (by simp [udp_pseudo_header, SkipBlocks.firstBytes]), List.sum_append,
        ← udp_pseudo_sum_eq, csum_total_init, csum_total_eq]
    obtain ⟨s, hs, hzero, hmod, hsum⟩ := ip_csum_eq hlt
    obtain ⟨hr, hrmod, hrzero⟩ := onesSum_spec (net_words_le (udp_pseudo_header f ++ data))
    obtain ⟨hnet, hnetzero⟩ := sum_net_words (udp_pseudo_header f ++ data)
    rw [← htotal] at hnet hnetzero
    rw [hsum]
    unfold rfc1071
    generalize onesSum 65535 (net_words (udp_pseudo_header f ++ data)) = r at *
    generalize (net_words (udp_pseudo_header f ++ data)).sum = n at *
    generalize csum_total w data.length (udp_pseudo_sum f) = t at *
    apply onesSum_unique (n := 65535)
    · omega
    · omega
    · unfold Nat.ModEq at *
      omega
    · unfold Nat.ModEq at *
      omega
  · intro k hk h₀ h₁
    obtain ⟨c, hc, hfill, hmod, hpos⟩ := csum_total_fill hlt h₀ h₁ hk
    rw [← hfill] at hmod hpos
    exact (ip_csum_eq_zero_iff (by omega) hpos).mpr hmod

/-- Five bytes with a field of zero at byte 2. -/
theorem ip_csum_right_five :
    let data : List UInt8 := [0x45, 0x12, 0, 0, 0x07]
    let f : Frame := ⟨fun _ => 1, 0⟩
    ip_csum (fun i => data.getD i 0) 5 (udp_pseudo_sum f) = rfc1071 (udp_pseudo_header f ++ data) ∧
      ip_csum (put (fun i => data.getD i 0) 2
        (htons (ip_csum (fun i => data.getD i 0) 5 (udp_pseudo_sum f)))) 5
        (udp_pseudo_sum f) = 0 := by
  intro data f
  obtain ⟨hright, hfilled⟩ := ip_csum_right f data (by decide)
  exact ⟨hright, hfilled 1 (by decide) rfl rfl⟩

end CsBoot.Net
