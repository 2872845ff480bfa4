/-
What `mii_read` and `mii_write` do to the registers of the PHYs.

A bit that is written or read is one rise of MDC of one bus, and nothing else happens on that
bus or on another (`serial_write_clocked`, `serial_read_clocked`). A call is a frame of 65 such
bits (`mii_read_spec`, `mii_write_spec`). So in any sequence of calls, with registers that the PHYs
change in between, a read returns what is in the register and a write sets that register alone
(`mii_serves`).
-/
import CsBoot.Bsp.Mii

set_option autoImplicit false

namespace CsBoot.Mii

open MsbBits

section Pins

variable {ι : Type} {P : Pins ι} {i : ι} {w w' w'' : Gpio ι} {b b' : PhyBus}

/-! ## One bit -/

theorem mask_getLsbD {p q : ℕ} (hp : p < 32) : (1#32 <<< p).getLsbD q = decide (q = p) := by
  rw [BitVec.getLsbD_shiftLeft, BitVec.getLsbD_one]
  by_cases hq : q = p
  · simp [hq, hp]
  · by_cases hlt : q < p
    · simp [hq, hlt]
    · have hsub : q - p ≠ 0 := by omega
      simp [hq, hsub]

/-- No clock is high. -/
def Low (P : Pins ι) (w : Gpio ι) : Prop := ∀ j, w.data_out.getLsbD (P.mdc j) = false

theorem mdc_level_of_low (h : Low P w) (j : ι) : w.mdc_level P j = false := by
  unfold Gpio.mdc_level
  rw [h j, Bool.and_false]

/-- A value that raises no clock is not seen by the PHYs. -/
theorem writel_unseen {reg : GPIO_REG} {value : BitVec 32} (h : Low P (w.assign reg value)) :
    writel P w reg value = w.assign reg value := by
  have hbus : (w.assign reg value).bus = w.bus := by cases reg <;> rfl
  unfold writel
  simp only [mdc_level_of_low h, Bool.false_eq_true, and_false, if_false]
  rw [← hbus]

variable [DecidableEq ι]

/-- The PHYs of a bus see MDC rise. -/
def Gpio.clocked (P : Pins ι) (i : ι) (w : Gpio ι) : Gpio ι :=
  { w with bus := Function.update w.bus i ((w.bus i).edge (w.mdio_level P i)) }

/-- **A pulse of MDC.** -/
theorem clock_eq (hlow : Low P w) (hdir : w.pin_dir.getLsbD (P.mdc i) = true) :
    writel P (writel P w .GPIO_DATA_SET (GPIO_MDC P i)) .GPIO_DATA_CLEAR (GPIO_MDC P i) =
      w.clocked P i := by
  have hset : ∀ q, (w.data_out ||| GPIO_MDC P i).getLsbD q =
      (w.data_out.getLsbD q || decide (q = P.mdc i)) := by
    intro q
    rw [BitVec.getLsbD_or, GPIO_MDC, mask_getLsbD (P.mdc_lt i)]
  -- the first write raises this clock only: its PHY sees an edge, the others none
  have hlevel : ∀ j, (w.assign .GPIO_DATA_SET (GPIO_MDC P i)).mdc_level P j = decide (j = i) := by
    intro j
    change (w.pin_dir.getLsbD (P.mdc j) && (w.data_out ||| GPIO_MDC P i).getLsbD (P.mdc j)) = _
    rw [hset, hlow j, Bool.false_or]
    by_cases hj : j = i
    · rw [hj, hdir]
      simp
    · have hne : P.mdc j ≠ P.mdc i := fun heq => hj (P.mdc_inj j i heq)
      simp [hj, hne]
  have hmdio : (w.assign .GPIO_DATA_SET (GPIO_MDC P i)).mdio_level P i = w.mdio_level P i := by
    have hne : P.mdio i ≠ P.mdc i := (P.mdc_ne_mdio i i).symm
    change (if w.pin_dir.getLsbD (P.mdio i) then (w.data_out ||| GPIO_MDC P i).getLsbD (P.mdio i)
      else (w.bus i).drive.getD true) = _
    rw [hset, decide_eq_false hne, Bool.or_false]
    rfl
  have hfirst : writel P w .GPIO_DATA_SET (GPIO_MDC P i) =
      { w with
        data_out := w.data_out ||| GPIO_MDC P i
        bus := Function.update w.bus i ((w.bus i).edge (w.mdio_level P i)) } := by
    unfold writel
    simp only [mdc_level_of_low hlow, hlevel, true_and, decide_eq_true_iff]
    congr 1
    funext j
    by_cases hj : j = i
    · rw [if_pos hj, hj, Function.update_self, hmdio]
    · rw [if_neg hj, Function.update_of_ne hj]
  -- the second one lowers it again, which no PHY looks at
  have hback : (w.data_out ||| GPIO_MDC P i) &&& ~~~GPIO_MDC P i = w.data_out := by
    ext q hq
    rw [BitVec.getElem_and, BitVec.getElem_not, ← BitVec.getLsbD_eq_getElem,
      ← BitVec.getLsbD_eq_getElem, ← BitVec.getLsbD_eq_getElem, hset, GPIO_MDC,
      mask_getLsbD (P.mdc_lt i)]
    by_cases hqi : q = P.mdc i
    · rw [hqi, hlow i]
      simp
    · simp [hqi]
  rw [hfirst, writel_unseen]
  · unfold Gpio.assign Gpio.clocked
    simp only [hback]
  · intro j
    change ((w.data_out ||| GPIO_MDC P i) &&& ~~~GPIO_MDC P i).getLsbD (P.mdc j) = false
    rw [hback]
    exact hlow j

/-- What one or more bits of a bus leave: all other pins and buses are as they were. -/
structure Clocked (P : Pins ι) (i : ι) (w w' : Gpio ι) (b : PhyBus) : Prop where
  bus : w'.bus = Function.update w.bus i b
  low : Low P w'
  out : ∀ q, q ≠ P.mdc i → q ≠ P.mdio i → w'.data_out.getLsbD q = w.data_out.getLsbD q
  dir : ∀ q, q ≠ P.mdc i → q ≠ P.mdio i → w'.pin_dir.getLsbD q = w.pin_dir.getLsbD q
  clock_out : w'.pin_dir.getLsbD (P.mdc i) = true

theorem Clocked.bus_self (h : Clocked P i w w' b) : w'.bus i = b := by
  rw [h.bus, Function.update_self]

theorem Clocked.trans (h : Clocked P i w w' b) (h' : Clocked P i w' w'' b') :
    Clocked P i w w'' b' where
  bus := by rw [h'.bus, h.bus, Function.update_idem]
  low := h'.low
  out q hq hq' := (h'.out q hq hq').trans (h.out q hq hq')
  dir q hq hq' := (h'.dir q hq hq').trans (h.dir q hq hq')
  clock_out := h'.clock_out

/-- The line is made ready for a bit. -/
theorem serial_write_eq (hlow : Low P w) (bit : Bool) :
    ∃ data_out : BitVec 32,
      (∀ q, data_out.getLsbD q = if q = P.mdio i then bit else w.data_out.getLsbD q) ∧
      mii_serial_write P i w bit =
        (Gpio.mk data_out (w.pin_dir ||| GPIO_MDC P i ||| GPIO_MDIO P i) w.bus).clocked P i := by
  have hdir : (w.pin_dir ||| GPIO_MDC P i ||| GPIO_MDIO P i).getLsbD (P.mdc i) = true := by
    rw [BitVec.getLsbD_or, BitVec.getLsbD_or, GPIO_MDC, mask_getLsbD (P.mdc_lt i)]
    simp
  -- no clock is high, so only the pulse at the end is seen by the PHYs
  have hfirst : writel P w .GPIO_PIN_DIR (w.pin_dir ||| GPIO_MDC P i ||| GPIO_MDIO P i) =
      ⟨w.data_out, w.pin_dir ||| GPIO_MDC P i ||| GPIO_MDIO P i, w.bus⟩ :=
    writel_unseen hlow
  unfold mii_serial_write
  rw [hfirst]
  cases bit with
  | true =>
    have hbits : ∀ q, (w.data_out ||| GPIO_MDIO P i).getLsbD q =
        if q = P.mdio i then true else w.data_out.getLsbD q := by
      intro q
      rw [BitVec.getLsbD_or, GPIO_MDIO, mask_getLsbD (P.mdio_lt i)]
      by_cases hq : q = P.mdio i <;> simp [hq]
    have hlow' : ∀ j, (w.data_out ||| GPIO_MDIO P i).getLsbD (P.mdc j) = false := by
      intro j
      rw [hbits, if_neg (P.mdc_ne_mdio j i)]
      exact hlow j
    refine ⟨_, hbits, ?_⟩
    have hput : writel P ⟨w.data_out, w.pin_dir ||| GPIO_MDC P i ||| GPIO_MDIO P i, w.bus⟩
        .GPIO_DATA_SET ( GPIO_MDIO P i) = ⟨w.data_out ||| GPIO_MDIO P i, _, w.bus⟩ :=
      writel_unseen hlow'
    rw [if_pos rfl]
    simp only [hput]
    exact clock_eq hlow' hdir
  | false =>
    have hbits : ∀ q, (w.data_out &&& ~~~ GPIO_MDIO P i).getLsbD q =
        if q = P.mdio i then false else w.data_out.getLsbD q := by
      intro q
      rw [BitVec.getLsbD_and, BitVec.getLsbD_not, GPIO_MDIO, mask_getLsbD (P.mdio_lt i)]
      by_cases hq : q = P.mdio i
      · simp [hq]
      · by_cases hlt : q < 32
        · simp [hq, hlt]
        · simp [hq, hlt, BitVec.getLsbD_of_ge _ _ (Nat.not_lt.mp hlt)]
    have hlow' : ∀ j, (w.data_out &&& ~~~ GPIO_MDIO P i).getLsbD (P.mdc j) = false := by
      intro j
      rw [hbits, if_neg (P.mdc_ne_mdio j i)]
      exact hlow j
    refine ⟨_, hbits, ?_⟩
    have hput : writel P ⟨w.data_out, w.pin_dir ||| GPIO_MDC P i ||| GPIO_MDIO P i, w.bus⟩
        .GPIO_DATA_CLEAR ( GPIO_MDIO P i) = ⟨w.data_out &&& ~~~ GPIO_MDIO P i, _, w.bus⟩ :=
      writel_unseen hlow'
    rw [if_neg Bool.false_ne_true]
    simp only [hput]
    exact clock_eq hlow' hdir

/-- **A bit is written.** -/
theorem serial_write_clocked (hlow : Low P w) (bit : Bool) :
    Clocked P i w (mii_serial_write P i w bit) ((w.bus i).edge bit) := by
  obtain ⟨data_out, hbits, heq⟩ := serial_write_eq (i := i) hlow bit
  have hdir : ∀ q, (w.pin_dir ||| GPIO_MDC P i ||| GPIO_MDIO P i).getLsbD q =
      (w.pin_dir.getLsbD q || decide (q = P.mdc i) || decide (q = P.mdio i)) := by
    intro q
    rw [BitVec.getLsbD_or, BitVec.getLsbD_or, GPIO_MDC, GPIO_MDIO, mask_getLsbD (P.mdc_lt i),
      mask_getLsbD (P.mdio_lt i)]
  have hlevel : Gpio.mdio_level P i
      ⟨data_out, w.pin_dir ||| GPIO_MDC P i ||| GPIO_MDIO P i, w.bus⟩ = bit := by
    unfold Gpio.mdio_level
    simp only [hdir, hbits, decide_true, Bool.or_true, if_true]
  rw [heq]
  refine ⟨?_, fun j => ?_, fun q _ hq' => ?_, fun q hq hq' => ?_, ?_⟩
  · unfold Gpio.clocked
    rw [hlevel]
  · exact (hbits _).trans ((if_neg (P.mdc_ne_mdio j i)).trans (hlow j))
  · exact (hbits _).trans (if_neg hq')
  · refine (hdir q).trans ?_
    simp [hq, hq']
  · refine (hdir _).trans ?_
    simp

/-- **A bit is read**, while no PHY looks at MDIO. -/
theorem serial_read_clocked (hlow : Low P w) (hdir : w.pin_dir.getLsbD (P.mdc i) = true)
    {value : Option ℕ} {clocks : ℕ} (hread : (w.bus i).state = .read value clocks) :
    Clocked P i w (mii_serial_read P i w).1 ((w.bus i).edge true) ∧
      (mii_serial_read P i w).2 = ((w.bus i).edge true).drive.getD true := by
  have hbits : ∀ q, (w.pin_dir &&& ~~~ GPIO_MDIO P i).getLsbD q =
      (w.pin_dir.getLsbD q && !decide (q = P.mdio i)) := by
    intro q
    rw [BitVec.getLsbD_and, BitVec.getLsbD_not, GPIO_MDIO, mask_getLsbD (P.mdio_lt i)]
    by_cases hlt : q < 32
    · simp [hlt]
    · simp [BitVec.getLsbD_of_ge _ _ (Nat.not_lt.mp hlt)]
  have hdir' : (w.pin_dir &&& ~~~ GPIO_MDIO P i).getLsbD (P.mdc i) = true := by
    rw [hbits, hdir, decide_eq_false (P.mdc_ne_mdio i i)]
    rfl
  have hin : (w.pin_dir &&& ~~~ GPIO_MDIO P i).getLsbD (P.mdio i) = false := by
    rw [hbits, decide_eq_true rfl, Bool.not_true, Bool.and_false]
  have hfirst : writel P w .GPIO_PIN_DIR (w.pin_dir &&& ~~~ GPIO_MDIO P i) =
      ⟨w.data_out, w.pin_dir &&& ~~~ GPIO_MDIO P i, w.bus⟩ :=
    writel_unseen hlow
  have hclock : mii_serial_read P i w =
      (Gpio.clocked P i ⟨w.data_out, w.pin_dir &&& ~~~ GPIO_MDIO P i, w.bus⟩,
        (Gpio.clocked P i
          ⟨w.data_out, w.pin_dir &&& ~~~ GPIO_MDIO P i, w.bus⟩).mdio_level P i) := by
    unfold mii_serial_read
    simp only [hfirst]
    rw [clock_eq (P := P) (i := i) (w := ⟨w.data_out, w.pin_dir &&& ~~~ GPIO_MDIO P i, w.bus⟩)
      hlow hdir']
  -- in a read frame an edge is an edge
  have hedge : ∀ level, (w.bus i).edge level = (w.bus i).edge true := by
    intro level
    unfold PhyBus.edge
    rw [hread]
  rw [hclock]
  refine ⟨⟨?_, hlow, fun _ _ _ => rfl, fun q _ hq' => ?_, hdir'⟩, ?_⟩
  · unfold Gpio.clocked
    simp only [hedge]
  · refine (hbits q).trans ?_
    simp [hq']
  · unfold Gpio.clocked
    simp only [hedge]
    unfold Gpio.mdio_level
    simp only [hin, Bool.false_eq_true, if_false, Function.update_self]

/-- **Bits are written one after the other.** -/
theorem serial_writes_clocked (bits : List Bool) (hne : bits ≠ []) (hlow : Low P w) :
    Clocked P i w (serial_writes P i w bits) (bits.foldl PhyBus.edge (w.bus i)) := by
  unfold serial_writes
  induction bits generalizing w with
  | nil => exact absurd rfl hne
  | cons bit bits ih =>
    have hfirst := serial_write_clocked (i := i) hlow bit
    rw [List.foldl_cons, List.foldl_cons]
    by_cases hnil : bits = []
    · rw [hnil]
      exact hfirst
    · have hrest := ih hnil hfirst.low
      rw [hfirst.bus_self] at hrest
      exact hfirst.trans hrest

end Pins

/-! ## One frame -/

namespace PhyBus

variable {b : PhyBus} {n phyad regad value : ℕ}

/-- Between two frames. -/
def idle (b : PhyBus) : PhyBus := { b with state := .preamble 0 }

/-- What a write leaves. -/
def store (b : PhyBus) (phyad regad value : ℕ) : PhyBus :=
  (if b.present phyad then b.set phyad regad value else b).idle

/-- The bits of `mii_pre_st`. -/
def pre_st : List Bool := List.replicate 32 true ++ [false, true]

theorem edges_ones (k : ℕ) (hb : b.state = .preamble n) :
    (List.replicate k true).foldl edge b = { b with state := .preamble (n + k) } := by
  induction k generalizing b n with
  | zero =>
    rw [List.replicate_zero, List.foldl_nil, Nat.add_zero, ← hb]
  | succ k ih =>
    have hedge : b.edge true = { b with state := .preamble (n + 1) } := by
      unfold edge
      rw [hb]
      rfl
    rw [List.replicate_succ, List.foldl_cons, hedge, ih rfl, Nat.add_assoc, Nat.add_comm 1 k]

/-- A preamble that is long enough, whatever came before. -/
theorem edges_pre_st (hb : b.state = .preamble n) :
    pre_st.foldl edge b = { b with state := .header [] } := by
  have hlong : 32 ≤ n + 32 := Nat.le_add_left ..
  rw [pre_st, List.foldl_append, edges_ones 32 hb]
  simp [edge, hlong]

theorem edge_header {bits : List Bool} {level : Bool} (hb : b.state = .header bits) :
    b.edge level =
      if bits.length + 1 = 12 then b.decode (bits ++ [level])
      else { b with state := .header (bits ++ [level]) } := by
  unfold edge
  rw [hb]

theorem edge_write {bits : List Bool} {level : Bool} (hb : b.state = .write phyad regad bits) :
    b.edge level =
      if bits.length + 1 = 18 then b.store phyad regad (ofMsb ((bits ++ [level]).drop 2))
      else { b with state := .write phyad regad (bits ++ [level]) } := by
  unfold edge
  rw [hb]
  rfl

/-- What a write leaves does not depend on how far the frame was. -/
theorem store_with (s : FrameState) :
    store { b with state := s } phyad regad value = b.store phyad regad value := by
  unfold store
  cases b.present phyad <;> simp [idle, set]

theorem edges_header {bits rest : List Bool} (hb : b.state = .header bits) (hne : rest ≠ [])
    (hlen : bits.length + rest.length = 12) : rest.foldl edge b = b.decode (bits ++ rest) := by
  induction rest generalizing b bits with
  | nil => exact absurd rfl hne
  | cons bit rest ih =>
    rw [List.length_cons] at hlen
    rw [List.foldl_cons, edge_header hb]
    by_cases hlast : bits.length + 1 = 12
    · have hnil : rest = [] := List.eq_nil_of_length_eq_zero (by omega)
      rw [if_pos hlast, hnil, List.foldl_nil]
    · have hrest : rest ≠ [] := by
        rintro rfl
        exact hlast (by simpa using hlen)
      rw [if_neg hlast, ih rfl hrest (by simp; omega), List.append_assoc, List.singleton_append]
      rfl

theorem edges_write {bits rest : List Bool} (hb : b.state = .write phyad regad bits)
    (hne : rest ≠ []) (hlen : bits.length + rest.length = 18) :
    rest.foldl edge b = b.store phyad regad (ofMsb ((bits ++ rest).drop 2)) := by
  induction rest generalizing b bits with
  | nil => exact absurd rfl hne
  | cons bit rest ih =>
    rw [List.length_cons] at hlen
    rw [List.foldl_cons, edge_write hb]
    by_cases hlast : bits.length + 1 = 18
    · have hnil : rest = [] := List.eq_nil_of_length_eq_zero (by omega)
      rw [if_pos hlast, hnil, List.foldl_nil]
    · have hrest : rest ≠ [] := by
        rintro rfl
        exact hlast (by simpa using hlen)
      rw [if_neg hlast, ih rfl hrest (by simp; omega), store_with, List.append_assoc,
        List.singleton_append]

/-- **The address of a frame**, whatever came before. -/
theorem edges_address {op : List Bool} (hop : op.length = 2) (hb : b.state = .preamble n) :
    (pre_st ++ (op ++ msb 5 phyad ++ msb 5 regad)).foldl edge b =
      if op = [true, false] then
        { b with state := .read (b.answer (phyad % 32) (regad % 32)) 0 }
      else if op = [false, true] then
        { b with state := .write (phyad % 32) (regad % 32) [] }
      else b.idle := by
  have hop' : (op ++ msb 5 phyad ++ msb 5 regad).take 2 = op := by
    rw [List.append_assoc, List.take_append_of_le_length hop.ge, List.take_of_length_le hop.le]
  have hphy : ((op ++ msb 5 phyad ++ msb 5 regad).drop 2).take 5 = msb 5 phyad := by
    rw [List.append_assoc, List.drop_append_of_le_length hop.ge, List.drop_of_length_le hop.le,
      List.nil_append, List.take_append_of_le_length (by simp), List.take_of_length_le (by simp)]
  have hreg : (op ++ msb 5 phyad ++ msb 5 regad).drop 7 = msb 5 regad := by
    rw [List.drop_append_of_le_length (by simp [hop]), List.drop_of_length_le (by simp [hop]),
      List.nil_append]
  have hne : op ++ msb 5 phyad ++ msb 5 regad ≠ [] := by
    intro hnil
    simpa [hop] using congrArg List.length hnil
  have haddr := edges_header (b := { b with state := .header [] }) rfl hne (by simp [hop])
  rw [List.foldl_append, edges_pre_st hb, haddr, List.nil_append]
  unfold decode
  rw [hop', hphy, hreg, ofMsb_msb, ofMsb_msb]
  rfl

/-- The dummy clocks. -/
theorem edges_dummy (hb : b.state = .preamble 0) : [false, false].foldl edge b = b := by
  have hedge : b.edge false = b := by
    unfold edge
    rw [hb]
    exact congrArg (PhyBus.mk b.present b.regs) hb.symm
  rw [List.foldl_cons, List.foldl_cons, List.foldl_nil, hedge, hedge]

/-- **A write frame** sets the register. -/
theorem edges_write_frame (hb : b.state = .preamble n) :
    (pre_st ++ ([false, true] ++ msb 5 phyad ++ msb 5 regad) ++ ([true, false] ++ msb 16 value) ++
      [false, false]).foldl edge b = b.store (phyad % 32) (regad % 32) (value % 65536) := by
  have haddr : (pre_st ++ ([false, true] ++ msb 5 phyad ++ msb 5 regad)).foldl edge b =
      { b with state := .write (phyad % 32) (regad % 32) [] } := by
    rw [edges_address rfl hb, if_neg (by decide), if_pos rfl]
  have hta : [true, false].length = 2 := rfl
  have hdata : ofMsb (([] ++ ([true, false] ++ msb 16 value)).drop 2) = value % 65536 := by
    rw [List.nil_append, List.drop_append_of_le_length hta.ge, List.drop_of_length_le hta.le,
      List.nil_append]
    exact ofMsb_msb
  have hne : [true, false] ++ msb 16 value ≠ [] := by simp
  have hstored := edges_write (b := { b with state := .write (phyad % 32) (regad % 32) [] }) rfl
    hne (by simp)
  rw [List.foldl_append, List.foldl_append, haddr, hstored, hdata, store_with]
  exact edges_dummy rfl

/-- The first part of a read frame. -/
theorem edges_read_frame (hb : b.state = .preamble n) :
    (pre_st ++ ([true, false] ++ msb 5 phyad ++ msb 5 regad)).foldl edge b =
      { b with state := .read (b.answer (phyad % 32) (regad % 32)) 0 } := by
  rw [edges_address rfl hb, if_pos rfl]

/-- A clock of the data of a read frame. -/
theorem edge_read {answer : Option ℕ} {clocks : ℕ} (level : Bool) (hclocks : clocks < 17)
    (hb : b.state = .read answer clocks) :
    b.edge level = { b with state := .read answer (clocks + 1) } := by
  have hne : clocks + 1 ≠ 18 := by omega
  unfold edge
  rw [hb]
  exact if_neg hne

/-- The end of a read frame. -/
theorem edges_read_end {answer : Option ℕ} (hb : b.state = .read answer 17) :
    [false, false].foldl edge b = b.idle := by
  have hedge : b.edge false = b.idle := by
    unfold edge
    rw [hb]
    rfl
  rw [List.foldl_cons, List.foldl_cons, List.foldl_nil, hedge]
  exact edges_dummy (b := b.idle) rfl

/-- The value that a read frame returns: ones where no PHY answers. -/
def heard (answer : Option ℕ) : ℕ := (answer.map (· % 65536)).getD 65535

/-- The bit of the data that MDIO carries. -/
def heard_bit (answer : Option ℕ) (k : ℕ) : Bool :=
  (answer.map (·.testBit (15 - k))).getD true

theorem drive_read {answer : Option ℕ} {k : ℕ} (hb : b.state = .read answer (k + 2)) :
    b.drive.getD true = heard_bit answer k := by
  have hbit : 17 - (k + 2) = 15 - k := by omega
  unfold drive heard_bit
  rw [hb]
  cases answer with
  | none => rfl
  | some value => simp [hbit]

theorem weigh_heard (answer : Option ℕ) : weigh 16 (heard_bit answer) = heard answer := by
  rw [weigh_eq]
  cases answer with
  | none => decide
  | some value => exact ofMsb_msb (n := 16)

end PhyBus

/-! ## One call -/

section Calls

open PhyBus

variable {ι : Type} [DecidableEq ι] {P : Pins ι} {i : ι} {w w' w'' : Gpio ι} {b : PhyBus}

/-- The loop that reads the data, from its first round to any other. -/
theorem read_data_clocked {answer : Option ℕ} (hw : Clocked P i w w' b)
    (hb : b.state = .read answer 1) {n : ℕ} (hn : n ≤ 16) :
    Clocked P i w ((List.range n).foldl (read_data_bit P i) (w', 0)).1
        { b with state := .read answer (n + 1) } ∧
      ((List.range n).foldl (read_data_bit P i) (w', 0)).2 =
        (List.range n).foldl (fun v k => v + (heard_bit answer k).toNat <<< (15 - k)) 0 := by
  induction n with
  | zero =>
    refine ⟨?_, rfl⟩
    rw [← hb]
    exact hw
  | succ n ih =>
    obtain ⟨hclocked, hvalue⟩ := ih (by omega)
    rw [List.range_succ, List.foldl_append, List.foldl_append]
    generalize hr : (List.range n).foldl (read_data_bit P i) (w', 0) = r at hclocked hvalue ⊢
    have hread : (r.1.bus i).state = .read answer (n + 1) := by rw [hclocked.bus_self]
    obtain ⟨hnext, hbit⟩ := serial_read_clocked hclocked.low hclocked.clock_out hread
    have hedge := edge_read true (by omega) hread
    rw [hclocked.bus_self] at hnext hbit hedge
    rw [hedge] at hnext hbit
    have hdrive := drive_read (b := { b with state := .read answer (n + 1 + 1) }) rfl
    refine ⟨hclocked.trans hnext, ?_⟩
    change r.2 + (mii_serial_read P i r.1).2.toNat <<< (15 - n) = _
    rw [hbit, hdrive, hvalue]
    rfl

/-- **A write** is one frame that sets the register. -/
theorem mii_write_spec (phyad regad value : ℕ) {n : ℕ} (hlow : Low P w)
    (hb : (w.bus (P.bus phyad)).state = .preamble n) :
    Clocked P (P.bus phyad) w (mii_write P w phyad regad value)
      ((w.bus (P.bus phyad)).store (phyad % 32) (regad % 32) (value % 65536)) := by
  have hframe : mii_write P w phyad regad value = serial_writes P (P.bus phyad) w
      (pre_st ++ ([false, true] ++ msb 5 phyad ++ msb 5 regad) ++ ([true, false] ++ msb 16 value) ++
        [false, false]) := by
    unfold mii_write mii_pre_st serial_writes pre_st
    simp only [List.foldl_append, List.foldl_cons, List.foldl_nil]
  have hsent := serial_writes_clocked (i := P.bus phyad) (pre_st ++
    ([false, true] ++ msb 5 phyad ++ msb 5 regad) ++ ([true, false] ++ msb 16 value) ++
    [false, false]) (by simp) hlow
  rw [hframe, ← edges_write_frame hb]
  exact hsent

/-- **A read** is one frame that changes no register, and returns what the PHY answers. -/
theorem mii_read_spec (phyad regad : ℕ) {n : ℕ} (hlow : Low P w)
    (hb : (w.bus (P.bus phyad)).state = .preamble n) :
    Clocked P (P.bus phyad) w (mii_read P w phyad regad).1 (w.bus (P.bus phyad)).idle ∧
      (mii_read P w phyad regad).2 =
        heard ((w.bus (P.bus phyad)).answer (phyad % 32) (regad % 32)) := by
  generalize hi : P.bus phyad = i at hb ⊢
  generalize hanswer : (w.bus i).answer (phyad % 32) (regad % 32) = answer
  -- the address
  have hsent := serial_writes_clocked (i := i)
    (pre_st ++ ([true, false] ++ msb 5 phyad ++ msb 5 regad)) (by simp) hlow
  rw [edges_read_frame hb, hanswer] at hsent
  generalize hw1 : serial_writes P i w (pre_st ++ ([true, false] ++ msb 5 phyad ++ msb 5 regad)) =
    w1 at hsent
  -- the turnaround
  have hread : (w1.bus i).state = .read answer 0 := by rw [hsent.bus_self]
  obtain ⟨hturn, -⟩ := serial_read_clocked hsent.low hsent.clock_out hread
  rw [edge_read true (by omega) hread, hsent.bus_self] at hturn
  -- the data
  obtain ⟨hdata, hvalue⟩ := read_data_clocked (hsent.trans hturn) rfl le_rfl
  generalize hr : (List.range 16).foldl (read_data_bit P i) ((mii_serial_read P i w1).1, 0) = r
    at hdata hvalue
  -- the dummy clocks
  have hend := serial_writes_clocked (i := i) [false, false] (by simp) hdata.low
  rw [hdata.bus_self, edges_read_end rfl] at hend
  have hcall : mii_read P w phyad regad = (serial_writes P i r.1 [false, false], r.2) := by
    rw [← hr, ← hw1]
    unfold mii_read mii_pre_st serial_writes pre_st
    simp only [hi, List.foldl_append, List.foldl_cons, List.foldl_nil]
  rw [hcall]
  exact ⟨hdata.trans hend, hvalue.trans (weigh_heard answer)⟩

end Calls

/-! ## Any sequence of calls -/

section Runs

open PhyBus

variable {ι : Type} [DecidableEq ι]

/-- The calls, what a PHY does to a register of its own, and what other code does to the GPIO
controller. -/
inductive MiiOp (ι : Type)
  | read (phyad regad : ℕ)
  | write (phyad regad value : ℕ)
  | phy (i : ι) (phyad regad value : ℕ)
  | gpio (reg : GPIO_REG) (value : BitVec 32)

/-- Other code leaves the clocks alone. -/
def MiiOp.Polite (P : Pins ι) : MiiOp ι → Prop
  | .gpio .GPIO_DATA_SET value => ∀ i, value.getLsbD (P.mdc i) = false
  | _ => True

/-- The hardware, and what the reads have returned. -/
def mii_step (P : Pins ι) (s : Gpio ι × List ℕ) : MiiOp ι → Gpio ι × List ℕ
  | .read phyad regad =>
    let r := mii_read P s.1 phyad regad
    (r.1, s.2 ++ [r.2])
  | .write phyad regad value => (mii_write P s.1 phyad regad value, s.2)
  | .phy i phyad regad value =>
    ({ s.1 with bus := Function.update s.1.bus i ((s.1.bus i).set phyad regad value) }, s.2)
  | .gpio reg value => (writel P s.1 reg value, s.2)

/-- The registers of the PHYs that are there, and the pins, with no line between them. -/
structure Station (ι : Type) where
  regs : ι → ℕ → ℕ → Option ℕ
  data_out : BitVec 32
  pin_dir : BitVec 32

def Gpio.station (w : Gpio ι) : Station ι :=
  ⟨fun i => (w.bus i).answer, w.data_out, w.pin_dir⟩

/-- A register that is there is set. -/
def Station.set (t : Station ι) (i : ι) (phyad regad value : ℕ) : Station ι :=
  { t with
    regs := fun j p r =>
      if j = i ∧ p = phyad ∧ r = regad then (t.regs j p r).map fun _ => value
      else t.regs j p r }

/-- What the calls are for: five bits of each address and sixteen of the value count. -/
def station_step (P : Pins ι) (t : Station ι × List ℕ) : MiiOp ι → Station ι × List ℕ
  | .read phyad regad =>
    (t.1, t.2 ++ [heard (t.1.regs (P.bus phyad) (phyad % 32) (regad % 32))])
  | .write phyad regad value =>
    (t.1.set (P.bus phyad) (phyad % 32) (regad % 32) (value % 65536), t.2)
  | .phy i phyad regad value => (t.1.set i phyad regad value, t.2)
  | .gpio .GPIO_PIN_DIR value => ({ t.1 with pin_dir := value }, t.2)
  | .gpio .GPIO_DATA_SET value => ({ t.1 with data_out := t.1.data_out ||| value }, t.2)
  | .gpio .GPIO_DATA_CLEAR value => ({ t.1 with data_out := t.1.data_out &&& ~~~value }, t.2)

/-- Every clock is low and no PHY is in a frame. -/
def Quiet (P : Pins ι) (w : Gpio ι) : Prop :=
  Low P w ∧ ∀ i, ∃ n, (w.bus i).state = .preamble n

/-- The hardware is between two calls, with these registers and these other pins. -/
structure Serves (P : Pins ι) (s : Gpio ι × List ℕ) (t : Station ι × List ℕ) : Prop where
  quiet : Quiet P s.1
  regs : ∀ i, (s.1.bus i).answer = t.1.regs i
  out : ∀ q, (∀ i, q ≠ P.mdc i ∧ q ≠ P.mdio i) →
    s.1.data_out.getLsbD q = t.1.data_out.getLsbD q
  dir : ∀ q, (∀ i, q ≠ P.mdc i ∧ q ≠ P.mdio i) →
    s.1.pin_dir.getLsbD q = t.1.pin_dir.getLsbD q
  values : s.2 = t.2

variable {P : Pins ι} {i : ι} {s : Gpio ι × List ℕ} {t : Station ι × List ℕ} {w : Gpio ι}
  {b : PhyBus} {values : List ℕ}

theorem answer_set {phyad regad value p r : ℕ} :
    (b.set phyad regad value).answer p r =
      if p = phyad ∧ r = regad then (b.answer p r).map fun _ => value else b.answer p r := by
  unfold PhyBus.set answer
  by_cases hpr : p = phyad ∧ r = regad
  · cases b.present p <;> simp [hpr]
  · simp [hpr]

/-- What a write leaves, register by register. -/
theorem answer_store {phyad regad value p r : ℕ} :
    (b.store phyad regad value).answer p r =
      if p = phyad ∧ r = regad then (b.answer p r).map fun _ => value else b.answer p r := by
  unfold store
  cases hthere : b.present phyad with
  | true =>
    rw [if_pos rfl]
    exact answer_set (b := b)
  | false =>
    rw [if_neg Bool.false_ne_true]
    change b.answer p r = _
    by_cases hpr : p = phyad ∧ r = regad
    · have hnone : b.answer p r = none := by
        unfold answer
        rw [hpr.1, hthere]
        rfl
      rw [if_pos hpr, hnone]
      rfl
    · rw [if_neg hpr]

/-- A call keeps the two in step when it does to the registers of its bus what the other does. -/
theorem Serves.of_clocked {regs : ι → ℕ → ℕ → Option ℕ} (h : Serves P s t)
    (hw : Clocked P i s.1 w b) (hb : b.state = .preamble 0) (hself : b.answer = regs i)
    (hother : ∀ j, j ≠ i → regs j = t.1.regs j) (values : List ℕ) :
    Serves P (w, s.2 ++ values) ({ t.1 with regs := regs }, t.2 ++ values) where
  quiet := by
    refine ⟨hw.low, fun j => ?_⟩
    rw [hw.bus]
    by_cases hj : j = i
    · rw [hj, Function.update_self]
      exact ⟨0, hb⟩
    · rw [Function.update_of_ne hj]
      exact h.quiet.2 j
  regs j := by
    rw [hw.bus]
    by_cases hj : j = i
    · rw [hj, Function.update_self]
      exact hself
    · rw [Function.update_of_ne hj, h.regs j]
      exact (hother j hj).symm
  out q hq := (hw.out q (hq i).1 (hq i).2).trans (h.out q hq)
  dir q hq := (hw.dir q (hq i).1 (hq i).2).trans (h.dir q hq)
  values := congrArg (· ++ values) h.values

/-- What a call that sets a register of a bus does to all of them. -/
theorem set_regs_of_ne {phyad regad value : ℕ} {j : ι} (hj : j ≠ i) (t : Station ι) :
    (t.set i phyad regad value).regs j = t.regs j := by
  funext p r
  exact if_neg fun h => hj h.1

theorem set_regs_self {phyad regad value : ℕ} {t : Station ι} (hb : b.answer = t.regs i) :
    (fun p r => if p = phyad ∧ r = regad then (b.answer p r).map fun _ => value
      else b.answer p r) = (t.set i phyad regad value).regs i := by
  funext p r
  simp [Station.set, hb]

/-- **A call does to the PHYs what it is for.** -/
theorem Serves.step (h : Serves P s t) {op : MiiOp ι} (hop : op.Polite P) :
    Serves P (mii_step P s op) (station_step P t op) := by
  cases op with
  | read phyad regad =>
    obtain ⟨n, hn⟩ := h.quiet.2 (P.bus phyad)
    obtain ⟨hclocked, hvalue⟩ := mii_read_spec phyad regad h.quiet.1 hn
    have hread : mii_step P s (.read phyad regad) = ((mii_read P s.1 phyad regad).1,
        s.2 ++ [heard (t.1.regs (P.bus phyad) (phyad % 32) (regad % 32))]) := by
      rw [← h.regs, ← hvalue]
      rfl
    rw [hread]
    exact h.of_clocked hclocked rfl (h.regs (P.bus phyad)) (fun _ _ => rfl) _
  | write phyad regad value =>
    obtain ⟨n, hn⟩ := h.quiet.2 (P.bus phyad)
    have hself : ((s.1.bus (P.bus phyad)).store (phyad % 32) (regad % 32) (value % 65536)).answer =
        (t.1.set (P.bus phyad) (phyad % 32) (regad % 32) (value % 65536)).regs (P.bus phyad) := by
      rw [← set_regs_self (h.regs (P.bus phyad))]
      funext p r
      exact answer_store
    have hnext := h.of_clocked (mii_write_spec phyad regad value h.quiet.1 hn) rfl hself
      (fun j hj => set_regs_of_ne hj t.1) []
    rw [List.append_nil, List.append_nil] at hnext
    exact hnext
  | phy i phyad regad value =>
    refine ⟨⟨h.quiet.1, fun j => ?_⟩, fun j => ?_, h.out, h.dir, h.values⟩
    · by_cases hj : j = i
      · obtain ⟨n, hn⟩ := h.quiet.2 i
        refine ⟨n, ?_⟩
        change (Function.update s.1.bus i _ j).state = _
        rw [hj, Function.update_self]
        exact hn
      · obtain ⟨n, hn⟩ := h.quiet.2 j
        refine ⟨n, ?_⟩
        change (Function.update s.1.bus i _ j).state = _
        rw [Function.update_of_ne hj]
        exact hn
    · change (Function.update s.1.bus i _ j).answer = (t.1.set i phyad regad value).regs j
      by_cases hj : j = i
      · rw [hj, Function.update_self, ← set_regs_self (h.regs i)]
        funext p r
        exact answer_set
      · rw [Function.update_of_ne hj, set_regs_of_ne hj]
        exact h.regs j
  | gpio reg value =>
    -- the PHYs do not see it
    have hlow : Low P (s.1.assign reg value) := by
      intro j
      have hj := h.quiet.1 j
      cases reg with
      | GPIO_PIN_DIR => exact hj
      | GPIO_DATA_SET =>
        change (s.1.data_out ||| value).getLsbD (P.mdc j) = false
        rw [BitVec.getLsbD_or, hj, hop j]
        rfl
      | GPIO_DATA_CLEAR =>
        change (s.1.data_out &&& ~~~value).getLsbD (P.mdc j) = false
        rw [BitVec.getLsbD_and, hj, Bool.false_and]
    have hstep : mii_step P s (.gpio reg value) = (s.1.assign reg value, s.2) :=
      congrArg (·, s.2) (writel_unseen hlow)
    rw [hstep]
    cases reg with
    | GPIO_PIN_DIR => exact ⟨⟨hlow, h.quiet.2⟩, h.regs, h.out, fun _ _ => rfl, h.values⟩
    | GPIO_DATA_SET =>
      refine ⟨⟨hlow, h.quiet.2⟩, h.regs, fun q hq => ?_, h.dir, h.values⟩
      change (s.1.data_out ||| value).getLsbD q = (t.1.data_out ||| value).getLsbD q
      rw [BitVec.getLsbD_or, BitVec.getLsbD_or, h.out q hq]
    | GPIO_DATA_CLEAR =>
      refine ⟨⟨hlow, h.quiet.2⟩, h.regs, fun q hq => ?_, h.dir, h.values⟩
      change (s.1.data_out &&& ~~~value).getLsbD q = (t.1.data_out &&& ~~~value).getLsbD q
      rw [BitVec.getLsbD_and, BitVec.getLsbD_and, h.out q hq]

/-- **The calls serve the registers of the PHYs**: from any quiet state, whatever the calls, the
PHYs and the other code do in which order, the values read, the registers and the other pins are
those of the registers without the line. -/
theorem mii_serves (P : Pins ι) (w : Gpio ι) (hw : Quiet P w) (ops : List (MiiOp ι))
    (hops : ∀ op ∈ ops, op.Polite P) :
    Serves P (ops.foldl (mii_step P) (w, [])) (ops.foldl (station_step P) (w.station, [])) := by
  have h₀ : Serves P (w, []) (w.station, []) :=
    ⟨hw, fun _ => rfl, fun _ _ => rfl, fun _ _ => rfl, rfl⟩
  exact List.foldl_rel h₀ fun op hop _ _ h => h.step (hops op hop)

end Runs

/-- A register of the giga PHY is written, the other PHY, on this bus, changes one of its own and
a LED is lit. Then they are read, and a PHY that is not there. -/
def sample_ops {ι : Type} (bus : ι) : List (MiiOp ι) :=
  [.write 2 4 0x101e1, .phy bus 1 1 0x782d, .gpio .GPIO_DATA_SET 0x20, .read 2 4, .read 1 1,
    .read 3 0]

/-- The pins are inputs, and these PHYs are there. -/
def sample_gpio {ι : Type} (there : ι → ℕ → Bool) : Gpio ι :=
  ⟨0, 0, fun bus => ⟨there bus, fun _ _ => 0, .preamble 0⟩⟩

theorem sample_quiet {ι : Type} (P : Pins ι) (there : ι → ℕ → Bool) :
    Quiet P (sample_gpio there) :=
  ⟨fun _ => BitVec.getLsbD_zero, fun _ => ⟨0, rfl⟩⟩

theorem sample_polite {ι : Type} {P : Pins ι} {bus : ι}
    (hled : (MiiOp.gpio .GPIO_DATA_SET 0x20).Polite P) : ∀ op ∈ sample_ops bus, op.Polite P := by
  intro op hop
  simp only [sample_ops, List.mem_cons, List.not_mem_nil, or_false] at hop
  rcases hop with rfl | rfl | rfl | rfl | rfl | rfl
  · trivial
  · trivial
  · exact hled
  · trivial
  · trivial
  · trivial

/-- What is read on both boards: with one bus, and with one for each PHY. -/
theorem mii_serves_boards :
    ((sample_ops ()).foldl (mii_step asic_pins)
        (sample_gpio fun _ p => p = 1 ∨ p = 2, [])).2 = [0x1e1, 0x782d, 0xffff] ∧
      ((sample_ops false).foldl (mii_step fpga_pins)
        (sample_gpio fun giga p => p = if giga then 2 else 1, [])).2 = [0x1e1, 0x782d, 0xffff] := by
  have hasic : (MiiOp.gpio .GPIO_DATA_SET 0x20).Polite asic_pins :=
    show ∀ i, (0x20 : BitVec 32).getLsbD (asic_pins.mdc i) = false by decide
  have hfpga : (MiiOp.gpio .GPIO_DATA_SET 0x20).Polite fpga_pins := fun giga => by
    cases giga <;> decide
  exact ⟨(mii_serves asic_pins _ (sample_quiet _ _) _ (sample_polite hasic)).values,
    (mii_serves fpga_pins _ (sample_quiet _ _) _ (sample_polite hfpga)).values⟩

end CsBoot.Mii
