/-
The options of a TCP header as `tcp_parse_options` of `src/src/net/tcp.c` goes through them.

`numoptions` is to be the number of bytes in the option area. It is made of `hdr_len >> 2`,
where the field counts words of four bytes, and so is always below the size of the header:
as a 16-bit number it starts at more than 65500, and the length of an option, which is
taken from it and added to the pointer, is not compared with it. What ends the loop in the
area is an option of kind 0.

The bytes are counted from the start of the header. What is behind the segment in memory
is whatever it is.
-/
import Mathlib.Logic.Relation
import CsBoot.Lib.Loop
import CsBoot.Net.Tcp

set_option autoImplicit false

namespace CsBoot.Net

open ByteMem Relation

/-! ## The loop -/

/-- `numoptions`, the offset of `options`, and `sock->mss`. -/
structure TcpOptState where
  numoptions : ℕ
  options : ℕ
  mss : ℕ
deriving DecidableEq

section Parse

variable (tcph : ℕ → UInt8)

/-- `tcph->hdr_len` -/
def hdr_len : ℕ := (tcph 12).toNat / 16

/-- One pass of the loop; with `numoptions` 0 it is left. -/
def tcp_parse_options_pass (s : TcpOptState) : TcpOptState ⊕ ℕ :=
  if s.numoptions = 0 then .inr s.mss
  else
    let numoptions := s.numoptions - 1
    if tcph s.options = 0 then .inl ⟨0, s.options + 1, s.mss⟩
    else if tcph s.options = 1 then .inl ⟨numoptions, s.options + 1, s.mss⟩
    else
      let length := (tcph (s.options + 1)).toNat
      let opt_temp := be16 tcph (s.options + 2)
      let mss := if tcph s.options = 2 ∧ length = 4 ∧ opt_temp < s.mss then opt_temp else s.mss
      .inl ⟨(numoptions + 65537 - length) % 65536, s.options + length, mss⟩

/-- The bytes of the header that a pass reads. -/
def tcp_parse_options_reads (s : TcpOptState) : List ℕ :=
  if s.numoptions = 0 then []
  else if tcph s.options = 0 ∨ tcph s.options = 1 then [s.options]
  else if tcph s.options = 2 ∧ (tcph (s.options + 1)).toNat = 4 then
    [s.options, s.options + 1, s.options + 2, s.options + 3]
  else [s.options, s.options + 1]

/-- Where `tcp_parse_options` enters the loop. It does so whatever the header says, as
`numoptions` is not 0. -/
def tcp_parse_options_start (mss : ℕ) : TcpOptState :=
  ⟨(hdr_len tcph >>> 2 + W - TCP_HDR_SIZE) % W % 65536, TCP_HDR_SIZE, mss⟩

/-! ## The option area -/

/-- Where the option area ends. -/
def options_end : ℕ := 4 * hdr_len tcph

/-- The length of an option: 1 if it does nothing, and otherwise its second byte. -/
def option_len (p : ℕ) : ℕ := if tcph p = 1 then 1 else (tcph (p + 1)).toNat

/-- The option at `p` is not the end of options, and the next one is at `q`. -/
def NextOption (p q : ℕ) : Prop := tcph p ≠ 0 ∧ q = p + option_len tcph p

/-- A maximum segment size. -/
def IsMss (p : ℕ) : Prop := tcph p = 2 ∧ (tcph (p + 1)).toNat = 4

/-- The segment sizes from `p` on that are completely in the area. -/
def mss_options (p : ℕ) : Set ℕ :=
  {v | ∃ o, ReflTransGen (NextOption tcph) p o ∧ IsMss tcph o ∧ o + 4 ≤ options_end tcph ∧
    v = be16 tcph (o + 2)}

/-- `tcp_parse_options` ends, reads bytes of the area only, and leaves the least of the
old `mss` and the segment sizes there. -/
def OptionsSafe (mss : ℕ) : Prop :=
  Loop.Ends (tcp_parse_options_pass tcph)
    (fun s => ∀ b ∈ tcp_parse_options_reads tcph s, TCP_HDR_SIZE ≤ b ∧ b < options_end tcph)
    (IsLeast (insert mss (mss_options tcph TCP_HDR_SIZE)))
    (tcp_parse_options_start tcph mss)

/-- Going through the options, their end comes up in the area. -/
def EndsInArea : Prop :=
  ∃ e, ReflTransGen (NextOption tcph) TCP_HDR_SIZE e ∧ tcph e = 0 ∧ e < options_end tcph

/-! ## One pass -/

theorem options_end_le : options_end tcph ≤ 60 := by
  have hlt := (tcph 12).toNat_lt
  unfold options_end hdr_len
  omega

/-- The count that the loop starts with. -/
theorem numoptions_start (mss : ℕ) :
    65516 ≤ (tcp_parse_options_start tcph mss).numoptions ∧
      (tcp_parse_options_start tcph mss).numoptions < 65536 := by
  have hlt := (tcph 12).toNat_lt
  have hshift : hdr_len tcph >>> 2 = hdr_len tcph / 4 := Nat.shiftRight_eq_div_pow _ 2
  simp only [tcp_parse_options_start, hshift]
  unfold hdr_len TCP_HDR_SIZE W
  omega

theorem option_len_le (p : ℕ) : option_len tcph p ≤ 255 := by
  have hlt := (tcph (p + 1)).toNat_lt
  unfold option_len
  split <;> omega

variable {tcph} {s : TcpOptState} {p q : ℕ}

/-- With a count that is large enough, a pass goes to the next option. -/
theorem pass_next (hn : 255 ≤ s.numoptions) (hlt : s.numoptions < 65536)
    (hkind : tcph s.options ≠ 0) :
    tcp_parse_options_pass tcph s = .inl
      ⟨s.numoptions - option_len tcph s.options, s.options + option_len tcph s.options,
        if tcph s.options = 2 ∧ (tcph (s.options + 1)).toNat = 4 then
          min s.mss (be16 tcph (s.options + 2)) else s.mss⟩ := by
  have hlen := (tcph (s.options + 1)).toNat_lt
  unfold tcp_parse_options_pass option_len
  rw [if_neg (by omega), if_neg hkind]
  by_cases hnop : tcph s.options = 1
  · rw [if_pos hnop, if_pos hnop, hnop]
    rfl
  · rw [if_neg hnop, if_neg hnop]
    have hcount : (s.numoptions - 1 + 65537 - (tcph (s.options + 1)).toNat) % 65536 =
        s.numoptions - (tcph (s.options + 1)).toNat := by omega
    have hmss : (if tcph s.options = 2 ∧ (tcph (s.options + 1)).toNat = 4 ∧
          be16 tcph (s.options + 2) < s.mss then be16 tcph (s.options + 2) else s.mss) =
        if tcph s.options = 2 ∧ (tcph (s.options + 1)).toNat = 4 then
          min s.mss (be16 tcph (s.options + 2)) else s.mss := by
      grind
    simp only [hcount, hmss]

/-- The end of the options, and the pass after it. -/
theorem pass_end (hn : s.numoptions ≠ 0) (hkind : tcph s.options = 0) :
    tcp_parse_options_pass tcph s = .inl ⟨0, s.options + 1, s.mss⟩ := by
  rw [tcp_parse_options_pass, if_neg hn, if_pos hkind]

theorem pass_done (hn : s.numoptions = 0) : tcp_parse_options_pass tcph s = .inr s.mss := by
  rw [tcp_parse_options_pass, if_pos hn]

theorem kind_mem_reads (hn : s.numoptions ≠ 0) :
    s.options ∈ tcp_parse_options_reads tcph s := by
  unfold tcp_parse_options_reads
  rw [if_neg hn]
  split_ifs <;> exact List.mem_cons_self

/-- A pass reads no further than to an end that the next option is not behind. -/
theorem reads_lt {e b : ℕ} (hnext : NextOption tcph s.options q) (hle : q ≤ e)
    (hlt : s.options < e) (hb : b ∈ tcp_parse_options_reads tcph s) : s.options ≤ b ∧ b ≤ e := by
  obtain ⟨hkind, rfl⟩ := hnext
  unfold option_len at hle
  unfold tcp_parse_options_reads at hb
  split_ifs at hb <;> simp_all <;> omega

/-! ## Segment sizes -/

theorem NextOption.le (h : NextOption tcph p q) : p ≤ q := by
  rw [h.2]
  exact Nat.le_add_right _ _

theorem options_le (h : ReflTransGen (NextOption tcph) p q) : p ≤ q := by
  induction h with
  | refl => exact le_refl _
  | tail _ hnext ih => exact ih.trans hnext.le

/-- At the end of options there is no segment size any more. -/
theorem mss_options_end (hkind : tcph p = 0) : mss_options tcph p = ∅ := by
  apply Set.eq_empty_of_forall_notMem
  rintro v ⟨o, hchain, hmss, -⟩
  rcases hchain.cases_head with rfl | ⟨q, hnext, -⟩
  · rw [IsMss, hkind] at hmss
    exact absurd hmss.1 (by decide)
  · exact hnext.1 hkind

/-- The segment sizes from an option on: its own, and those from the next one on. -/
theorem mem_mss_options (hnext : NextOption tcph p q) {v : ℕ} :
    v ∈ mss_options tcph p ↔
      (IsMss tcph p ∧ p + 4 ≤ options_end tcph ∧ v = be16 tcph (p + 2)) ∨
        v ∈ mss_options tcph q := by
  constructor
  · rintro ⟨o, hchain, hmss⟩
    rcases hchain.cases_head with rfl | ⟨q', hnext', hrest⟩
    · exact .inl hmss
    · obtain rfl : q' = q := hnext'.2.trans hnext.2.symm
      exact .inr ⟨o, hrest, hmss⟩
  · rintro (hmss | ⟨o, hchain, hmss⟩)
    · exact ⟨p, .refl, hmss⟩
    · exact ⟨o, .head hnext hchain, hmss⟩

/-- Taking the least of two numbers first changes nothing for the least of all. -/
theorem isLeast_insert_min {α : Type*} [LinearOrder α] {a b r : α} {S : Set α} :
    IsLeast (insert (min a b) S) r ↔ IsLeast (insert a (insert b S)) r := by
  simp only [IsLeast, lowerBounds_insert, Set.mem_insert_iff, Set.mem_inter_iff, Set.mem_Iic,
    le_min_iff]
  grind

/-- What the rest of the options makes of `mss` is what all of them make of it. -/
theorem isLeast_next {mss r e : ℕ} (hnext : NextOption tcph p q) (hle : q ≤ e)
    (he : e < options_end tcph) :
    IsLeast (insert (if tcph p = 2 ∧ (tcph (p + 1)).toNat = 4 then min mss (be16 tcph (p + 2))
      else mss) (mss_options tcph q)) r ↔ IsLeast (insert mss (mss_options tcph p)) r := by
  by_cases hmss : tcph p = 2 ∧ (tcph (p + 1)).toNat = 4
  · have hinside : p + 4 ≤ options_end tcph := by
      have hlen : option_len tcph p = 4 := by
        rw [option_len, if_neg (by rw [hmss.1]; decide), hmss.2]
      have hq := hnext.2
      omega
    have hset : mss_options tcph p = insert (be16 tcph (p + 2)) (mss_options tcph q) := by
      ext v
      rw [mem_mss_options hnext, Set.mem_insert_iff, and_iff_right (a := IsMss tcph p) hmss,
        and_iff_right hinside]
    rw [if_pos hmss, isLeast_insert_min, hset]
  · have hset : mss_options tcph p = mss_options tcph q := by
      ext v
      rw [mem_mss_options hnext, IsMss, iff_false_intro hmss, false_and, false_or]
    rw [if_neg hmss, hset]

/-! ## All passes -/

/-- From an option that leads to the end of options, the loop ends as it should. -/
theorem ends_of_chain {e mss n : ℕ} (hchain : ReflTransGen (NextOption tcph) p e)
    (hkind : tcph e = 0) (he : e < options_end tcph) (hp : TCP_HDR_SIZE ≤ p)
    (hn : 65536 ≤ n + p) (hlt : n < 65536) :
    Loop.Ends (tcp_parse_options_pass tcph)
      (fun s => ∀ b ∈ tcp_parse_options_reads tcph s, TCP_HDR_SIZE ≤ b ∧ b < options_end tcph)
      (IsLeast (insert mss (mss_options tcph p))) ⟨n, p, mss⟩ := by
  -- the chain is finite, so the induction is on it and not on the counter
  have hend := options_end_le tcph
  induction hchain using ReflTransGen.head_induction_on generalizing n mss with
  | refl =>
    have hkindread : tcp_parse_options_reads tcph ⟨n, e, mss⟩ = [e] := by
      rw [tcp_parse_options_reads, if_neg (by simp only; omega), if_pos (.inl hkind)]
    refine (Loop.ends_again (pass_end (by simp only; omega) hkind)).mpr ⟨?_, ?_⟩
    · intro b hb
      rw [hkindread, List.mem_singleton] at hb
      omega
    · refine (Loop.ends_done (pass_done rfl)).mpr ⟨?_, ?_⟩
      · intro b hb
        rw [tcp_parse_options_reads, if_pos rfl] at hb
        cases hb
      · rw [mss_options_end hkind, insert_empty_eq]
        exact isLeast_singleton
  | @head p q hnext hrest ih =>
    have hle := options_le hrest
    have hpq := hnext.le
    have hne : p ≠ e := by
      rintro rfl
      exact hnext.1 hkind
    have hlen := option_len_le tcph p
    refine (Loop.ends_again (pass_next (by simp only; omega) hlt hnext.1)).mpr ⟨?_, ?_⟩
    · intro b hb
      have hread := reads_lt (s := ⟨n, p, mss⟩) hnext hle (by simp only; omega) hb
      simp only at hread
      omega
    · have hleast : IsLeast (insert mss (mss_options tcph p)) = _ :=
        funext fun r => (propext (isLeast_next hnext hle he)).symm
      have hq := hnext.2
      rw [hleast]
      simp only [← hq]
      exact ih (by omega) (by omega) (by omega)

/-- While the loop ends and reads only the area, it comes to the end of options there. -/
theorem chain_of_ends {R : ℕ → Prop}
    (h : Loop.Ends (tcp_parse_options_pass tcph)
      (fun s => ∀ b ∈ tcp_parse_options_reads tcph s, TCP_HDR_SIZE ≤ b ∧ b < options_end tcph) R s)
    (hchain : ReflTransGen (NextOption tcph) TCP_HDR_SIZE s.options)
    (hsum : 65536 ≤ s.numoptions + s.options) (hlt : s.numoptions < 65536)
    (hsmall : s.options ≤ 400) : EndsInArea tcph := by
  have hend := options_end_le tcph
  revert hchain hsum hlt hsmall
  apply h.induct
  · intro s r hpass _ _ hsum _ hsmall
    -- the count is not used up yet
    by_cases hkind : tcph s.options = 0
    · rw [pass_end (by omega) hkind] at hpass
      cases hpass
    · rw [pass_next (by omega) (by omega) hkind] at hpass
      cases hpass
  · intro s s' hpass hread ih hchain hsum hlt hsmall
    have hin := (hread _ (kind_mem_reads (by omega))).2
    by_cases hkind : tcph s.options = 0
    · exact ⟨s.options, hchain, hkind, hin⟩
    · have hlen := option_len_le tcph s.options
      rw [pass_next (by omega) hlt hkind] at hpass
      obtain rfl := Sum.inl.inj hpass
      simp only at ih
      exact ih (.tail hchain ⟨hkind, rfl⟩) (by omega) (by omega) (by omega)

end Parse

/-- **`tcp_parse_options` is safe exactly when** the end of options comes up in the area. -/
theorem tcp_options_safe_iff (tcph : ℕ → UInt8) (mss : ℕ) :
    OptionsSafe tcph mss ↔ EndsInArea tcph := by
  obtain ⟨hlarge, hlt⟩ := numoptions_start tcph mss
  constructor
  · intro h
    refine chain_of_ends h .refl ?_ hlt ?_
    · simp only [tcp_parse_options_start, TCP_HDR_SIZE] at hlarge ⊢
      omega
    · simp [tcp_parse_options_start, TCP_HDR_SIZE]
  · rintro ⟨e, hchain, hkind, he⟩
    refine ends_of_chain hchain hkind he (le_refl _) ?_ hlt
    simp only [tcp_parse_options_start, TCP_HDR_SIZE] at hlarge ⊢
    omega

/-- A header of 24 bytes with these as its last four, and zeros behind. -/
def syn_header (o₀ o₁ o₂ o₃ : UInt8) : ℕ → UInt8 := fun i =>
  if i = 12 then 0x60
  else if i = 20 then o₀
  else if i = 21 then o₁
  else if i = 22 then o₂
  else if i = 23 then o₃
  else 0

/-- A segment size of 1460 fills the area, and the byte behind it is read; after an option
of length 0 the same one comes again. -/
theorem tcp_options_unsafe :
    (∃ s, Loop.run (tcp_parse_options_pass (syn_header 2 4 5 0xb4)) 1
        (tcp_parse_options_start (syn_header 2 4 5 0xb4) 1024) = .inl s ∧
      24 ∈ tcp_parse_options_reads (syn_header 2 4 5 0xb4) s) ∧
    ¬ OptionsSafe (syn_header 2 4 5 0xb4) 1024 ∧
    (∀ r, ¬ Loop.Returns (tcp_parse_options_pass (syn_header 3 0 0 0))
      (tcp_parse_options_start (syn_header 3 0 0 0) 1024) r) ∧
    ¬ OptionsSafe (syn_header 3 0 0 0) 1024 := by
  have hread : Loop.run (tcp_parse_options_pass (syn_header 2 4 5 0xb4)) 1
      (tcp_parse_options_start (syn_header 2 4 5 0xb4) 1024) = .inl ⟨65513, 24, 1024⟩ := by
    decide
  have hstay : ∀ r, ¬ Loop.Returns (tcp_parse_options_pass (syn_header 3 0 0 0))
      (tcp_parse_options_start (syn_header 3 0 0 0) 1024) r := fun r =>
    Loop.not_returns_of_walk (w := fun _ => tcp_parse_options_start (syn_header 3 0 0 0) 1024)
      fun _ => by decide
  refine ⟨⟨_, hread, by decide⟩, fun h => ?_, hstay, fun h => ?_⟩
  · exact absurd (h.2 1 _ hread 24 (by decide)).2 (by decide)
  · obtain ⟨r, hr, -⟩ := h.1
    exact hstay r hr

end CsBoot.Net
