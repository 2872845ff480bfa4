/-
When what `Xmodem_read` delivers is the file.

The pad characters at the end of the last block do not belong to the file, but those of
the blocks before it may, and they are taken off as well. And a block is delivered a
second time when the tries for the next one are over and the last of them was a copy.
-/
import CsBoot.Xmodem.Session

set_option autoImplicit false

namespace CsBoot.Xmodem

namespace Sending

/-- The distinct blocks, one after the other. -/
def file (s : Sending) : List UInt8 := s.first.data ++ (s.others.map fun o => o.2.data).flatten

/-- The last block. -/
def last (s : Sending) : Block := (s.others.getLast?.map Prod.snd).getD s.first

end Sending

/-- The file, but for pad characters at the end of the last block. -/
def Sending.Delivers (s : Sending) (out : List UInt8) : Prop :=
  ∃ tail, out ++ tail = s.file ∧ tail.length ≤ pads s.last.data

/-- No five tries in a row without the next block. -/
def Sending.NoFive (s : Sending) : Prop := (∀ o ∈ s.others, o.1.length < 5) ∧ s.ending.length < 5

/-- No block but the first and the last one ends in three pad characters. -/
def Sending.NoInnerPads (s : Sending) : Prop := ∀ o ∈ s.others.dropLast, pads o.2.data < 3

/-! ## When this is the file -/

section File

variable {crc : Bool} {cur b : Block} {others : List (List (Idle crc) × Block)}
  {ending : List (Idle crc)} {data : List UInt8}

theorem length_strip_pads (data : List UInt8) :
    (strip_pads data).length + (if 3 ≤ pads data then pads data else 0) = data.length := by
  obtain ⟨tail, htail, hlen⟩ := strip_pads_append data
  rw [← hlen, ← List.length_append, htail]

theorem strip_pads_few (h : pads data < 3) : strip_pads data = data :=
  if_neg (by omega)

/-- What is taken off, in all. -/
theorem sum_strip_le (bs : List (List UInt8)) :
    (bs.map strip_pads).flatten.length ≤ bs.flatten.length ∧
      ((∃ b ∈ bs, 3 ≤ pads b) → (bs.map strip_pads).flatten.length + 3 ≤ bs.flatten.length) := by
  induction bs with
  | nil => exact ⟨le_rfl, by simp⟩
  | cons b bs ih =>
    have hb := length_strip_pads b
    simp only [List.map_cons, List.flatten_cons, List.length_append]
    refine ⟨by omega, ?_⟩
    rintro ⟨c, hc, hpads⟩
    rcases List.mem_cons.mp hc with rfl | hc
    · rw [if_pos hpads] at hb
      omega
    · have hbs := ih.2 ⟨c, hc, hpads⟩
      omega

/-- Without tries in vain, the blocks are right when only the last one loses pad characters. -/
theorem strip_all_iff (init : List (List UInt8)) (first last : List UInt8) :
    (∃ tail, first ++ ((init ++ [last]).map strip_pads).flatten ++ tail =
        first ++ (init ++ [last]).flatten ∧ tail.length ≤ pads last) ↔
      ∀ b ∈ init, pads b < 3 := by
  have hlast := length_strip_pads last
  simp only [List.map_append, List.flatten_append, List.map_singleton, List.flatten_singleton]
  constructor
  · rintro ⟨tail, htail, hle⟩ b hb
    by_contra hpads
    have hinit := (sum_strip_le init).2 ⟨b, hb, by omega⟩
    have hlen := congrArg List.length htail
    simp only [List.length_append] at hlen
    split_ifs at hlast <;> omega
  · intro hinit
    obtain ⟨tail, htail, hlen⟩ := strip_pads_append last
    have hmap : init.map strip_pads = init :=
      (List.map_congr_left fun b hb => strip_pads_few (hinit b hb)).trans (List.map_id _)
    refine ⟨tail, ?_, ?_⟩
    · rw [hmap, List.append_assoc, List.append_assoc, htail]
    · rw [hlen]
      split_ifs <;> omega

/-- Fewer than five tries for each block. -/
theorem delivered_few (hothers : ∀ o ∈ others, o.1.length < 5) (hending : ending.length < 5) :
    delivered cur others ending = ((others.map fun o => o.2.data).map strip_pads).flatten := by
  induction others generalizing cur with
  | nil =>
    rw [delivered, Nat.div_eq_of_lt hending]
    rfl
  | cons o others ih =>
    obtain ⟨idle, b⟩ := o
    have hidle : idle.length < 5 := hothers _ List.mem_cons_self
    rw [delivered, Nat.div_eq_of_lt hidle, ih fun o ho => hothers o (List.mem_cons_of_mem _ ho)]
    rfl

theorem block_le_repeated (cur : Block) {n : ℕ} (hn : 5 ≤ n) :
    128 ≤ (repeated cur (n / 5)).length := by
  obtain ⟨m, hm⟩ : ∃ m, n / 5 = m + 1 := ⟨n / 5 - 1, by omega⟩
  rw [hm, repeated, List.replicate_succ, List.flatten_cons, List.length_append]
  rcases cur.size with h | h <;> omega

/-- Five tries in vain deliver a block too many. -/
theorem le_delivered (cur : Block) (others : List (List (Idle crc) × Block))
    (ending : List (Idle crc)) :
    ((others.map fun o => o.2.data).map strip_pads).flatten.length ≤
        (delivered cur others ending).length ∧
      (¬ ((∀ o ∈ others, o.1.length < 5) ∧ ending.length < 5) →
      ((others.map fun o => o.2.data).map strip_pads).flatten.length + 128 ≤
        (delivered cur others ending).length) := by
  induction others generalizing cur with
  | nil =>
    refine ⟨Nat.zero_le _, fun h => ?_⟩
    rw [delivered]
    simp only [List.map_nil, List.flatten_nil, List.length_nil, Nat.zero_add]
    exact block_le_repeated cur (by simpa using h)
  | cons o others ih =>
    obtain ⟨idle, b⟩ := o
    obtain ⟨hle, hmore⟩ := ih b
    rw [delivered]
    simp only [List.map_cons, List.flatten_cons, List.length_append]
    refine ⟨by omega, fun h => ?_⟩
    by_cases hidle : idle.length < 5
    · have hrest := hmore fun hall => h ⟨List.forall_mem_cons.mpr ⟨hidle, hall.1⟩, hall.2⟩
      omega
    · have hblock := block_le_repeated cur (n := idle.length) (by omega)
      omega

end File

/-- The blocks behind the first one, as they are delivered without tries in vain. -/
def Sending.stripped (s : Sending) : List UInt8 :=
  ((s.others.map fun o => o.2.data).map strip_pads).flatten

section Right

variable {s : Sending} {buf : ℕ → UInt8} {size : ℕ} {r : Received}

theorem stripped_iff (s : Sending) :
    (∃ tail, s.first.data ++ s.stripped ++ tail = s.file ∧ tail.length ≤ pads s.last.data) ↔
      s.NoInnerPads := by
  obtain ⟨opening, refused, first, others, ending⟩ := s
  rcases List.eq_nil_or_concat others with rfl | ⟨init, o, rfl⟩
  · refine iff_of_true ⟨[], ?_, Nat.zero_le _⟩ fun o ho => absurd ho List.not_mem_nil
    simp [Sending.stripped, Sending.file]
  · have hiff := strip_all_iff (init.map fun o => o.2.data) first.data o.2.data
    simp only [Sending.stripped, Sending.file, Sending.last, Sending.NoInnerPads,
      List.concat_eq_append, List.getLast?_append, List.getLast?_singleton, List.dropLast_concat,
      List.map_append, List.map_singleton, Option.some_or, Option.map_some,
      Option.getD_some] at hiff ⊢
    rw [hiff, List.forall_mem_map]

/-- With fewer than five tries for each block it is the pad characters that decide. -/
theorem delivers_iff_inner (h : s.Ends buf size r) (hfive : s.NoFive) :
    s.Delivers r.out ↔ s.NoInnerPads := by
  rw [Sending.Delivers, ends_out h, delivered_few hfive.1 hfive.2]
  exact stripped_iff s

/-- Without pad characters inside it is the tries. -/
theorem delivers_iff_five (h : s.Ends buf size r) (hinner : s.NoInnerPads)
    (hlast : pads s.last.data < 128) : s.Delivers r.out ↔ s.NoFive := by
  refine ⟨?_, fun hfive => (delivers_iff_inner h hfive).mpr hinner⟩
  rintro ⟨tail, htail, -⟩
  by_contra hfive
  obtain ⟨tail', htail', hle⟩ := (stripped_iff s).mpr hinner
  have hmore := (le_delivered s.first s.others s.ending).2 hfive
  have hlen := congrArg List.length (htail.trans htail'.symm)
  rw [ends_out h] at hlen
  simp only [List.length_append, Sending.stripped] at hlen
  omega

end Right

/-- **The file is delivered**, in a run that comes to the end of the transmission, as follows.
With fewer than five tries for each block, exactly when no block but the first and the last
one ends in three pad characters. When this is so and the last block does not end in 128 of
them, exactly when there are fewer than five tries for each block. Whatever is on the line,
no more than `size` bytes are written. -/
theorem xmodem_delivers_iff (buf : ℕ → UInt8) (size : ℕ) :
    (∀ (line : Line) (x : XMODEM_T) (r : Received), Xmodem_open line = .ok x →
      Xmodem_read x buf size r → Inside buf size r.buf r.total) ∧
    ∀ (s : Sending) (r : Received), s.Ends buf size r →
      (s.NoFive → (s.Delivers r.out ↔ s.NoInnerPads)) ∧
      (s.NoInnerPads → pads s.last.data < 128 → (s.Delivers r.out ↔ s.NoFive)) :=
  ⟨fun _ _ _ _ hread => Xmodem_read_inside hread,
    fun _ _ h => ⟨delivers_iff_inner h, delivers_iff_five h⟩⟩

/-! ## A transmission with copies and silences -/

/-- What takes up one try, and has no other effect. -/
def Idle.Quiet {crc : Bool} : Idle crc → Prop
  | .again => True
  | .damaged d _ => ∃ tossed, d = silence tossed

/-- Fewer such tries than there are leave the receiver where it was, but for the line. -/
theorem quiet_tries {crc : Bool} {k : UInt8} {cur : Block} {l : Line} {x : XMODEM_T} (n : ℕ)
    (stat : ℤ) (idle : List (Idle crc)) (hquiet : ∀ i ∈ idle, i.Quiet)
    (hmode : mode x = (k + 1, crc, false)) (hline : x.line = idle_line crc k cur idle ++ l) :
    ∃ x' stat', next_packet (n + idle.length) stat x = next_packet n stat' x' ∧
      mode x' = (k + 1, crc, false) ∧ x'.line = l := by
  induction idle generalizing x stat with
  | nil => exact ⟨x, stat, rfl, hmode, hline⟩
  | cons i idle ih =>
    obtain ⟨hi, hrest⟩ := List.forall_mem_cons.mp hquiet
    rw [List.length_cons, ← Nat.add_assoc]
    cases i with
    | again =>
      rw [idle_line, List.append_assoc] at hline
      obtain ⟨y, hy, -, hymode, hyline⟩ := next_packet_again (n + idle.length) stat hline hmode
      rw [hy]
      exact ih _ hrest hymode hyline
    | damaged d hd =>
      obtain ⟨tossed, rfl⟩ := hi
      rw [idle_line, List.append_assoc] at hline
      obtain ⟨y, hy, hymode, hyline⟩ := next_packet_silence (n + idle.length) stat hline hmode
      rw [hy]
      exact ih _ hrest hymode hyline

/-- Nothing is refused before the first block. -/
theorem nothing_refused (j : ℕ) (h : j < ([] : List Line).length) :
    Refused (crc_asked j) ([] : List Line)[j] :=
  absurd h (Nat.not_lt_zero j)

/-- The first block comes at once. -/
def prompt (first : Block) (others : List (List (Idle (crc_asked 0)) × Block))
    (ending : List (Idle (crc_asked 0))) : Sending where
  opening := []
  refused := nothing_refused
  first := first
  others := others
  ending := ending

/-- The run behind a block comes to the end of the transmission. -/
theorem quiet_rest {crc : Bool} {k : UInt8} {cur : Block}
    {others : List (List (Idle crc) × Block)} {ending : List (Idle crc)} {s : ReadState}
    {x : XMODEM_T} (hothers : ∀ o ∈ others, o.1.length < 5 ∧ ∀ i ∈ o.1, i.Quiet)
    (hending : ending.length < 5 ∧ ∀ i ∈ ending, i.Quiet)
    (hmode : mode x = (k + 1, crc, false)) (hline : x.line = rest_line crc k cur others ending)
    (hroom : (others.map fun o => o.2.data.length).sum < s.size) :
    ∃ r, Leaves s (next_packet 5 XMODEM_ERR_CANCEL x) r ∧ r.err = some XMODEM_ERR_EOF := by
  induction others generalizing k cur s x with
  | nil =>
    obtain ⟨n, hn⟩ := Nat.exists_eq_add_of_lt hending.1
    obtain ⟨y, stat, hy, -, hyline⟩ :=
      quiet_tries (n + 1) XMODEM_ERR_CANCEL ending hending.2 hmode hline
    obtain ⟨z, hz⟩ := next_packet_eot n stat hyline
    rw [show 5 = n + 1 + ending.length by omega, hy, hz]
    exact ⟨_, (leaves_error (show XMODEM_ERR_EOF < 0 by decide)).mpr rfl, rfl⟩
  | cons o others ih =>
    obtain ⟨idle, b⟩ := o
    obtain ⟨⟨hfive, hquiet⟩, hlater⟩ := List.forall_mem_cons.mp hothers
    obtain ⟨n, hn⟩ := Nat.exists_eq_add_of_lt hfive
    obtain ⟨y, stat, hy, hymode, hyline⟩ :=
      quiet_tries (n + 1) XMODEM_ERR_CANCEL idle hquiet hmode hline
    obtain ⟨z, hz, hpend, hzmode, hzline⟩ := next_packet_new n stat hyline hymode
    have hstrip := length_strip_pads b.data
    rw [List.map_cons, List.sum_cons] at hroom
    -- the block is delivered, and the rest of the run is the one of the induction
    obtain ⟨s', -, hsize, hmode', hline', hiff⟩ :=
      leaves_pending (s := s) hpend hzmode (by simp only at hroom; omega)
    obtain ⟨r, hr, herr⟩ := ih (s := s') hlater hmode' (hline'.trans hzline)
      (by simp only at hroom; omega)
    simp only at hn
    rw [show 5 = n + 1 + idle.length by omega, hy, hz]
    exact ⟨r, (hiff r).mpr hr, herr⟩

/-- With fewer than five copies and silences in front of each block, and room for more than the
file, the end is reached. -/
theorem prompt_ends (first : Block) (others : List (List (Idle (crc_asked 0)) × Block))
    (ending : List (Idle (crc_asked 0))) (buf : ℕ → UInt8) (size : ℕ)
    (hothers : ∀ o ∈ others, o.1.length < 5 ∧ ∀ i ∈ o.1, i.Quiet)
    (hending : ending.length < 5 ∧ ∀ i ∈ ending, i.Quiet)
    (hroom : first.data.length + (others.map fun o => o.2.data.length).sum < size) :
    ∃ r, (prompt first others ending).Ends buf size r := by
  obtain ⟨x, hx, hacc⟩ :=
    get_header_block (Xmodem_init (prompt first others ending).line) first 1 rfl
  have hopen : Xmodem_open (prompt first others ending).line =
      .ok { x with next_blk := x.blk + 1, tx_ack := true } := by
    rw [Xmodem_open, XMODEM_MAX_RETRIES, open_loop, hx]
    rfl
  have hpend : pending { x with next_blk := x.blk + 1, tx_ack := true } = first.data := hacc.pending
  have hmode : mode { x with next_blk := x.blk + 1, tx_ack := true } = (1 + 1, true, false) := by
    have hx : x.next_blk = 0 ∧ x.crc_mode = true ∧ x.at_eof = false := mode_eq hacc.mode
    simp only [mode, hacc.blk, hx.2.1, hx.2.2]
  have hfirst : first.data.length < size := by omega
  obtain ⟨s', -, hsize, hmode', hline', hiff⟩ :=
    leaves_pending (s := ⟨_, buf, 0, size⟩) hpend hmode hfirst
  have hrest : (others.map fun o => o.2.data.length).sum < s'.size := by
    dsimp only at hsize
    omega
  obtain ⟨r, hr, herr⟩ := quiet_rest hothers hending hmode' (hline'.trans hacc.line) hrest
  exact ⟨r, _, hopen, (read_first hpend hmode (by omega)).mpr ((hiff r).mpr hr), herr⟩

/-- Every block once. -/
def plain (first : Block) (blocks : List Block) : Sending :=
  prompt first (blocks.map fun b => ([], b)) []

/-- A block of zeros. -/
def zeros : Block := ⟨List.replicate 128 0, .inl List.length_replicate⟩

/-- A block of pad characters. -/
def padded : Block := ⟨List.replicate 128 XMODEM_EOF, .inl List.length_replicate⟩

theorem pads_zeros : pads zeros.data = 0 := by
  simp [pads, zeros, List.rtakeWhile, XMODEM_EOF]

/-- The first of three blocks comes three times, and there are a silence in front of the last
one and two in front of the end. -/
def disturbed : Sending :=
  prompt zeros [([.again, .again], zeros),
      ([.damaged (silence [0x55]) (silence_refused _ _)], padded)]
    [.damaged (silence []) (silence_refused _ _), .damaged (silence []) (silence_refused _ _)]

/-- Three blocks are delivered. -/
theorem xmodem_delivers_disturbed :
    ∃ r, disturbed.Ends (fun _ => 0) 1000 r ∧
      Inside (fun _ => 0) 1000 r.buf r.total ∧ disturbed.Delivers r.out := by
  have hothers : ∀ o ∈ disturbed.others, o.1.length < 5 ∧ ∀ i ∈ o.1, i.Quiet := by
    refine List.forall_mem_cons.mpr
      ⟨⟨by decide, ?_⟩, List.forall_mem_singleton.mpr ⟨by decide, ?_⟩⟩
    · exact List.forall_mem_cons.mpr ⟨trivial, List.forall_mem_singleton.mpr trivial⟩
    · exact List.forall_mem_singleton.mpr ⟨[0x55], rfl⟩
  have hending : disturbed.ending.length < 5 ∧ ∀ i ∈ disturbed.ending, i.Quiet :=
    ⟨by decide, List.forall_mem_cons.mpr ⟨⟨[], rfl⟩, List.forall_mem_singleton.mpr ⟨[], rfl⟩⟩⟩
  obtain ⟨r, hr⟩ := prompt_ends zeros disturbed.others disturbed.ending (fun _ => 0) 1000
    hothers hending (by simp [disturbed, prompt, zeros, padded])
  obtain ⟨x, hopen, hread, -⟩ := id hr
  obtain ⟨hinside, hiff⟩ := xmodem_delivers_iff (fun _ => 0) 1000
  have hinner : disturbed.NoInnerPads := List.forall_mem_singleton.mpr (by
    rw [pads_zeros]
    decide)
  exact ⟨r, hr, hinside _ x r hopen hread,
    ((hiff _ r hr).1 ⟨fun o ho => (hothers o ho).1, hending.1⟩).mpr hinner⟩

theorem pads_padded : pads padded.data = 128 := by
  have hall : padded.data.rtakeWhile (· = XMODEM_EOF) = padded.data := by
    apply List.rtakeWhile_eq_self_iff.mpr
    intro c hc
    exact decide_eq_true (List.eq_of_mem_replicate hc)
  rw [pads, hall]
  exact List.length_replicate

/-- In a file of three blocks, the second is left out when it is all pad characters. -/
theorem xmodem_inner_pads_lost :
    ∃ r, (plain zeros [padded, zeros]).Ends (fun _ => 0) 1000 r ∧
      ¬ (plain zeros [padded, zeros]).Delivers r.out := by
  have hothers : ∀ o ∈ (plain zeros [padded, zeros]).others,
      o.1.length < 5 ∧ ∀ i ∈ o.1, i.Quiet := by
    refine List.forall_mem_cons.mpr ⟨⟨by decide, nofun⟩, List.forall_mem_singleton.mpr ?_⟩
    exact ⟨by decide, nofun⟩
  obtain ⟨r, hr⟩ := prompt_ends zeros (plain zeros [padded, zeros]).others [] (fun _ => 0) 1000
    hothers ⟨by decide, nofun⟩ (by simp [plain, prompt, zeros, padded])
  refine ⟨r, hr, fun h => ?_⟩
  have hfew : (plain zeros [padded, zeros]).NoFive := ⟨fun o ho => (hothers o ho).1, by decide⟩
  have hpads := (delivers_iff_inner hr hfew).mp h ([], padded) List.mem_cons_self
  rw [pads_padded] at hpads
  omega

end CsBoot.Xmodem
