/-
Addresses that were typed, `str2ip` of `src/src/sys/sys_string.c`.

A string is its characters in front of the final zero. `str2ip` takes four runs of digits
with a dot behind each of the first three, and looks at nothing else: a run may be empty,
and its number may be larger than 255, in which case it is added to its neighbour, or does
not fit into a word. What it returns is known from the numbers of the runs (`str2ip_dotted`).
-/
import Mathlib.Tactic
import Mathlib.Data.Bool.AllAny

set_option autoImplicit false

namespace CsBoot.Str

/-! ## `char2decimal`, `str2ip` -/

def DOT : UInt8 := 0x2e

def char2decimal (c : UInt8) : UInt32 :=
  if 0x30 ≤ c ∧ c ≤ 0x39 then (c - 0x30).toUInt32 else 0xffffffff

def IPIV (a b c d : UInt32) : UInt32 := a <<< 24 + b <<< 16 + c <<< 8 + d

/-- The inner loop of `str2ip`: `ip[i]`, and where `cp` is then. -/
def str2ip_digits (ip : UInt32) : List UInt8 → UInt32 × List UInt8
  | [] => (ip, [])
  | c :: cp =>
    let value := char2decimal c
    if value ≠ 0xffffffff then str2ip_digits (ip * 10 + value) cp else (ip, c :: cp)

/-- The outer loop with `n` passes to go, the last of which has `i = 3`: the numbers, unless
a dot is missing. -/
def str2ip_loop : ℕ → List UInt8 → Option (List UInt32)
  | 0, _ => some []
  | n + 1, cp =>
    let r := str2ip_digits 0 cp
    if 0 < n ∧ r.2.headD 0 ≠ DOT then none else (str2ip_loop n r.2.tail).map (r.1 :: ·)

def str2ip (cp : List UInt8) : UInt32 :=
  match str2ip_loop 4 cp with
  | some [ip0, ip1, ip2, ip3] => IPIV ip0 ip1 ip2 ip3
  | _ => 0

/-! ## Addresses -/

def IsDigit (c : UInt8) : Prop := 0x30 ≤ c ∧ c ≤ 0x39

/-- The number that digits denote, behind those that denote `v`. -/
def decimalFrom (v : ℕ) (d : List UInt8) : ℕ := d.foldl (fun v c => 10 * v + (c.toNat - 48)) v

def decimal (d : List UInt8) : ℕ := decimalFrom 0 d

/-- A run of digits, which ends where the next character is none. -/
structure Run (d rest : List UInt8) : Prop where
  digits : ∀ c ∈ d, IsDigit c
  ends : ∀ c ∈ rest.head?, ¬ IsDigit c

/-- The string begins with these four runs of digits, with dots between them. -/
def Dotted (s d₁ d₂ d₃ d₄ : List UInt8) : Prop :=
  ∃ rest, s = d₁ ++ DOT :: (d₂ ++ DOT :: (d₃ ++ DOT :: (d₄ ++ rest))) ∧
    (∀ c ∈ d₁ ++ d₂ ++ d₃, IsDigit c) ∧ Run d₄ rest

/-- The address of four numbers. -/
def address (n₁ n₂ n₃ n₄ : ℕ) : ℕ := n₁ * 2 ^ 24 + n₂ * 2 ^ 16 + n₃ * 2 ^ 8 + n₄

/-- A run of digits that may stand in an address. -/
def IsOctet (d : List UInt8) : Prop := d ≠ [] ∧ decimal d ≤ 255

/-- The string begins with an address. -/
structure IsAddress (s d₁ d₂ d₃ d₄ : List UInt8) : Prop where
  dotted : Dotted s d₁ d₂ d₃ d₄
  octets : IsOctet d₁ ∧ IsOctet d₂ ∧ IsOctet d₃ ∧ IsOctet d₄

/-- Addresses are parsed, and of everything else 0 is made. -/
structure ParsesAddresses (s : List UInt8) : Prop where
  exact_value : ∀ d₁ d₂ d₃ d₄, IsAddress s d₁ d₂ d₃ d₄ →
    (str2ip s).toNat = address (decimal d₁) (decimal d₂) (decimal d₃) (decimal d₄)
  other : (¬ ∃ d₁ d₂ d₃ d₄, IsAddress s d₁ d₂ d₃ d₄) → str2ip s = 0

/-! ## Runs of digits -/

section Runs

variable {s d d' t t' : List UInt8}

theorem not_digit_dot : ¬ IsDigit DOT := by unfold IsDigit DOT; decide

theorem run_dot (h : ∀ c ∈ d, IsDigit c) : Run d (DOT :: t) where
  digits := h
  ends := by
    intro c hc
    cases hc
    exact not_digit_dot

/-- A string begins with a run. -/
theorem exists_run (s : List UInt8) : ∃ d t, Run d t ∧ s = d ++ t := by
  induction s with
  | nil => exact ⟨[], [], ⟨by simp, by simp⟩, rfl⟩
  | cons c s ih =>
    by_cases hc : IsDigit c
    · obtain ⟨d, t, hrun, rfl⟩ := ih
      refine ⟨c :: d, t, ⟨?_, hrun.ends⟩, rfl⟩
      intro x hx
      obtain rfl | hx := List.mem_cons.mp hx
      · exact hc
      · exact hrun.digits x hx
    · refine ⟨[], c :: s, ⟨by simp, ?_⟩, rfl⟩
      intro x hx
      cases hx
      exact hc

/-- There is one only. -/
theorem Run.unique (h : Run d t) (h' : Run d' t') (heq : d ++ t = d' ++ t') : d = d' ∧ t = t' := by
  induction d generalizing d' with
  | nil =>
    cases d' with
    | nil => exact ⟨rfl, heq⟩
    | cons c d' =>
      rw [List.nil_append, List.cons_append] at heq
      exact absurd (h'.digits c List.mem_cons_self) (h.ends c (by rw [heq]; rfl))
  | cons c d ih =>
    cases d' with
    | nil =>
      rw [List.nil_append, List.cons_append] at heq
      exact absurd (h.digits c List.mem_cons_self) (h'.ends c (by rw [← heq]; rfl))
    | cons c' d' =>
      rw [List.cons_append, List.cons_append, List.cons.injEq] at heq
      obtain ⟨rfl, hrest⟩ := heq
      obtain ⟨rfl, ht⟩ := ih ⟨fun x hx => h.digits x (List.mem_cons_of_mem _ hx), h.ends⟩
        ⟨fun x hx => h'.digits x (List.mem_cons_of_mem _ hx), h'.ends⟩ hrest
      exact ⟨rfl, ht⟩

/-- The runs of a string are its own. -/
theorem Dotted.unique {d₁ d₂ d₃ d₄ e₁ e₂ e₃ e₄ : List UInt8} (h : Dotted s d₁ d₂ d₃ d₄)
    (h' : Dotted s e₁ e₂ e₃ e₄) : d₁ = e₁ ∧ d₂ = e₂ ∧ d₃ = e₃ ∧ d₄ = e₄ := by
  obtain ⟨rest, rfl, hd, hrun⟩ := h
  obtain ⟨rest', heq, he, hrun'⟩ := h'
  simp only [List.mem_append, or_imp, forall_and] at hd he
  obtain ⟨rfl, h1⟩ := (run_dot hd.1.1).unique (run_dot he.1.1) heq
  obtain ⟨rfl, h2⟩ := (run_dot hd.1.2).unique (run_dot he.1.2) (List.cons.inj h1).2
  obtain ⟨rfl, h3⟩ := (run_dot hd.2).unique (run_dot he.2) (List.cons.inj h2).2
  obtain ⟨rfl, -⟩ := hrun.unique hrun' (List.cons.inj h3).2
  exact ⟨rfl, rfl, rfl, rfl⟩

/-! ## What the loops make of them -/

theorem char2decimal_digit {c : UInt8} (h : IsDigit c) :
    char2decimal c = UInt32.ofNat (c.toNat - 48) ∧ char2decimal c ≠ 0xffffffff := by
  obtain ⟨hlo, hhi⟩ := h
  have hlo' : 48 ≤ c.toNat := UInt8.le_iff_toNat_le.mp hlo
  have hhi' : c.toNat ≤ 57 := UInt8.le_iff_toNat_le.mp hhi
  have hsub : (c - 0x30).toNat = c.toNat - 48 := UInt8.toNat_sub_of_le _ _ hlo
  have hval : char2decimal c = UInt32.ofNat (c.toNat - 48) := by
    rw [char2decimal, if_pos ⟨hlo, hhi⟩]
    apply UInt32.toNat_inj.mp
    rw [UInt8.toNat_toUInt32, hsub, UInt32.toNat_ofNat']
    omega
  refine ⟨hval, ?_⟩
  rw [hval]
  intro h
  have hnat := congrArg UInt32.toNat h
  rw [UInt32.toNat_ofNat', Nat.mod_eq_of_lt (by omega)] at hnat
  have hmax : (0xffffffff : UInt32).toNat = 4294967295 := rfl
  omega

theorem char2decimal_other {c : UInt8} (h : ¬ IsDigit c) : char2decimal c = 0xffffffff := if_neg h

/-- The inner loop stops behind the run, with its number as a word. -/
theorem str2ip_digits_run (h : Run d t) (v : ℕ) :
    str2ip_digits (UInt32.ofNat v) (d ++ t) = (UInt32.ofNat (decimalFrom v d), t) := by
  induction d generalizing v with
  | nil =>
    cases t with
    | nil => rfl
    | cons c t =>
      have hc := char2decimal_other (h.ends c rfl)
      simp [str2ip_digits, hc, decimalFrom]
  | cons c d ih =>
    obtain ⟨hval, hne⟩ := char2decimal_digit (h.digits c List.mem_cons_self)
    have hword : UInt32.ofNat v * 10 + char2decimal c =
        UInt32.ofNat (10 * v + (c.toNat - 48)) := by
      rw [hval, UInt32.ofNat_add, UInt32.ofNat_mul, UInt32.mul_comm]
      rfl
    rw [List.cons_append, str2ip_digits]
    simp only [if_pos hne, hword]
    exact ih ⟨fun x hx => h.digits x (List.mem_cons_of_mem _ hx), h.ends⟩ _

/-- The last pass. -/
theorem str2ip_loop_last (h : Run d t) :
    str2ip_loop 1 (d ++ t) = some [UInt32.ofNat (decimal d)] := by
  have hrun := str2ip_digits_run h 0
  rw [str2ip_loop, show (0 : UInt32) = UInt32.ofNat 0 from rfl, hrun]
  rfl

/-- A pass in front of the last one, with a dot behind the run, -/
theorem str2ip_loop_dot (n : ℕ) (h : ∀ c ∈ d, IsDigit c) :
    str2ip_loop (n + 2) (d ++ DOT :: t) =
      (str2ip_loop (n + 1) t).map (UInt32.ofNat (decimal d) :: ·) := by
  have hrun := str2ip_digits_run (run_dot h (t := t)) 0
  rw [str2ip_loop, show (0 : UInt32) = UInt32.ofNat 0 from rfl, hrun]
  simp [decimal]

/-- or without one. -/
theorem str2ip_loop_other (n : ℕ) (h : Run d t) (hdot : ∀ t', t ≠ DOT :: t') :
    str2ip_loop (n + 2) (d ++ t) = none := by
  have hrun := str2ip_digits_run h 0
  have hhead : t.headD 0 ≠ DOT := by
    cases t with
    | nil => decide
    | cons c t =>
      rintro rfl
      exact hdot t rfl
  rw [str2ip_loop, show (0 : UInt32) = UInt32.ofNat 0 from rfl, hrun]
  exact if_pos ⟨Nat.succ_pos n, hhead⟩

/-- The loop comes to its end on runs with dots between them only. -/
theorem exists_dot_of_loop {n : ℕ} {l : List UInt32} (h : str2ip_loop (n + 2) s = some l) :
    ∃ d t l', (∀ c ∈ d, IsDigit c) ∧ s = d ++ DOT :: t ∧ str2ip_loop (n + 1) t = some l' := by
  obtain ⟨d, t, hrun, rfl⟩ := exists_run s
  by_cases hdot : ∃ t', t = DOT :: t'
  · obtain ⟨t', rfl⟩ := hdot
    rw [str2ip_loop_dot n hrun.digits] at h
    obtain ⟨l', hl', -⟩ := Option.map_eq_some_iff.mp h
    exact ⟨d, t', l', hrun.digits, rfl, hl'⟩
  · rw [str2ip_loop_other n hrun fun t' ht => hdot ⟨t', ht⟩] at h
    cases h

end Runs

/-! ## `str2ip` -/

section Str2ip

variable {s d₁ d₂ d₃ d₄ : List UInt8}

theorem IPIV_ofNat (a b c d : ℕ) :
    IPIV (UInt32.ofNat a) (UInt32.ofNat b) (UInt32.ofNat c) (UInt32.ofNat d) =
      UInt32.ofNat (address a b c d) := by
  apply UInt32.toNat_inj.mp
  have h24 : UInt32.toNat 24 % 32 = 24 := rfl
  have h16 : UInt32.toNat 16 % 32 = 16 := rfl
  have h8 : UInt32.toNat 8 % 32 = 8 := rfl
  simp only [IPIV, address, UInt32.toNat_add, UInt32.toNat_shiftLeft, UInt32.toNat_ofNat',
    Nat.shiftLeft_eq, h24, h16, h8]
  omega

/-- **`str2ip` of four runs with dots** is made of their numbers, whatever they are. -/
theorem str2ip_dotted (h : Dotted s d₁ d₂ d₃ d₄) :
    str2ip s =
      UInt32.ofNat (address (decimal d₁) (decimal d₂) (decimal d₃) (decimal d₄)) := by
  obtain ⟨rest, rfl, hd, hrun⟩ := h
  simp only [List.mem_append, or_imp, forall_and] at hd
  have hloop : str2ip_loop 4 (d₁ ++ DOT :: (d₂ ++ DOT :: (d₃ ++ DOT :: (d₄ ++ rest)))) =
      some [UInt32.ofNat (decimal d₁), UInt32.ofNat (decimal d₂), UInt32.ofNat (decimal d₃),
        UInt32.ofNat (decimal d₄)] := by
    rw [str2ip_loop_dot 2 hd.1.1, str2ip_loop_dot 1 hd.1.2, str2ip_loop_dot 0 hd.2,
      str2ip_loop_last hrun]
    rfl
  rw [str2ip, hloop]
  exact IPIV_ofNat _ _ _ _

/-- Without them it is 0. -/
theorem str2ip_not_dotted (h : ¬ ∃ d₁ d₂ d₃ d₄, Dotted s d₁ d₂ d₃ d₄) : str2ip s = 0 := by
  have hloop : str2ip_loop 4 s = none := by
    rw [Option.eq_none_iff_forall_ne_some]
    intro l hl
    obtain ⟨d₁, s₁, l₁, h₁, rfl, hl₁⟩ := exists_dot_of_loop hl
    obtain ⟨d₂, s₂, l₂, h₂, rfl, hl₂⟩ := exists_dot_of_loop hl₁
    obtain ⟨d₃, s₃, l₃, h₃, rfl, -⟩ := exists_dot_of_loop hl₂
    obtain ⟨d₄, rest, hrun, rfl⟩ := exists_run s₃
    refine h ⟨d₁, d₂, d₃, d₄, rest, rfl, ?_, hrun⟩
    simp only [List.mem_append, or_imp, forall_and]
    exact ⟨⟨h₁, h₂⟩, h₃⟩
  rw [str2ip, hloop]

theorem address_lt {n₁ n₂ n₃ n₄ : ℕ} (h₁ : n₁ ≤ 255) (h₂ : n₂ ≤ 255) (h₃ : n₃ ≤ 255)
    (h₄ : n₄ ≤ 255) : address n₁ n₂ n₃ n₄ < 2 ^ 32 := by
  unfold address
  omega

/-- **Addresses are parsed, and nothing else, exactly when** a string that begins with four
runs of digits with dots between them begins with an address, or its numbers add up to a
multiple of 2^32. -/
theorem parses_addresses_iff (s : List UInt8) :
    ParsesAddresses s ↔ ∀ d₁ d₂ d₃ d₄, Dotted s d₁ d₂ d₃ d₄ →
      IsAddress s d₁ d₂ d₃ d₄ ∨
        2 ^ 32 ∣ address (decimal d₁) (decimal d₂) (decimal d₃) (decimal d₄) := by
  constructor
  · intro h d₁ d₂ d₃ d₄ hdot
    by_cases haddr : IsAddress s d₁ d₂ d₃ d₄
    · exact .inl haddr
    · right
      have hno : ¬ ∃ d₁ d₂ d₃ d₄, IsAddress s d₁ d₂ d₃ d₄ := by
        rintro ⟨e₁, e₂, e₃, e₄, he⟩
        obtain ⟨rfl, rfl, rfl, rfl⟩ := hdot.unique he.dotted
        exact haddr he
      have hzero := congrArg UInt32.toNat ((str2ip_dotted hdot).symm.trans (h.other hno))
      rw [UInt32.toNat_ofNat'] at hzero
      exact Nat.dvd_of_mod_eq_zero hzero
  · intro h
    constructor
    · intro d₁ d₂ d₃ d₄ haddr
      obtain ⟨⟨-, h₁⟩, ⟨-, h₂⟩, ⟨-, h₃⟩, ⟨-, h₄⟩⟩ := haddr.octets
      rw [str2ip_dotted haddr.dotted, UInt32.toNat_ofNat']
      exact Nat.mod_eq_of_lt (address_lt h₁ h₂ h₃ h₄)
    · intro hno
      by_cases hdot : ∃ d₁ d₂ d₃ d₄, Dotted s d₁ d₂ d₃ d₄
      · obtain ⟨d₁, d₂, d₃, d₄, hd⟩ := hdot
        have hdvd := (h d₁ d₂ d₃ d₄ hd).resolve_left fun ha => hno ⟨_, _, _, _, ha⟩
        rw [str2ip_dotted hd]
        apply UInt32.toNat_inj.mp
        rw [UInt32.toNat_ofNat']
        exact Nat.mod_eq_zero_of_dvd hdvd
      · exact str2ip_not_dotted hdot

end Str2ip

/-- `300.1.2.3` -/
def too_large_octet : List UInt8 := [0x33, 0x30, 0x30, DOT, 0x31, DOT, 0x32, DOT, 0x33]

/-- It becomes `44.1.2.3`. -/
theorem too_large_octet_parsed :
    str2ip too_large_octet = 0x2c010203 ∧ ¬ ParsesAddresses too_large_octet := by
  have hip : str2ip too_large_octet = 0x2c010203 := by decide
  refine ⟨hip, fun h => ?_⟩
  have hdot : Dotted too_large_octet [0x33, 0x30, 0x30] [0x31] [0x32] [0x33] := by
    refine ⟨[], rfl, ?_, ⟨?_, by simp⟩⟩
    · unfold IsDigit
      exact List.all_iff_forall_prop.mp rfl
    · unfold IsDigit
      exact List.all_iff_forall_prop.mp rfl
  obtain haddr | hdvd := (parses_addresses_iff _).mp h _ _ _ _ hdot
  · exact absurd haddr.octets.1.2 (by decide)
  · exact absurd hdvd (by decide)

end CsBoot.Str
