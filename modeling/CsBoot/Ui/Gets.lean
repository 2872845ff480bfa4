/-
Lines that are typed, `ui_gets` of `src/src/ui/ui_lib.c`.

The buffer holds a text when `ui_gets` is called, which stays when the first key edits
it and goes when the first key is a character. Every place that is written is kept in a
list. What goes to the console is left out, but the text is displayed by a `printf` that takes
it for the format, and it is kept whether it asked for more than the text.

A character is taken as long as there are fewer than `size` of them, and the zero goes
behind the last one. So a line of `size` characters has its zero behind the buffer, and no
other line has (`ui_gets_right_iff`).
-/
import CsBoot.Fis.Commands
import CsBoot.Sys.Printf

set_option autoImplicit false

namespace CsBoot.Ui

open Fis (ARROW_L KEY_ESC FIS_NAME_SIZE FisName)

/-! ## `ui_gets` -/

/-- A buffer that holds a text, with its final zero. -/
structure TextBuf where
  mem : ℕ → UInt8
  strlen : ℕ
  text : ∀ i, i < strlen → mem i ≠ 0
  zero : mem strlen = 0

/-- The text. -/
def TextBuf.chars (b : TextBuf) : List UInt8 := (List.range b.strlen).map b.mem

/-- The variables of `ui_gets`, with the places of `buf` that were written. `dest` counts
from `buf` on; `stray` says that `printf` was given a text that does not stand alone. -/
structure Gets where
  buf : ℕ → UInt8
  total : ℕ
  dest : ℕ
  first_key : Bool
  written : List ℕ
  stray : Bool

/-- `buf[i] = c` -/
def Gets.store (g : Gets) (i : ℕ) (c : UInt8) : Gets :=
  { g with buf := Function.update g.buf i c, written := g.written ++ [i] }

/-- `memset(buf, c, n)` -/
def Gets.memset (g : Gets) (c : UInt8) (n : ℕ) : Gets :=
  (List.range n).foldl (fun g i => g.store i c) g

/-- The variables in front of the loop, behind `printf(buf)`. -/
def ui_gets_start (b : TextBuf) (size : ℕ) : Gets :=
  let total := b.strlen
  if size ≤ total then ⟨b.mem, 0, 0, true, [], false⟩
  else ⟨b.mem, total, total, true, [], !Printf.stands_alone b.chars⟩

/-- The first character wipes out what is displayed. What is given to `printf` here are
backspaces and spaces. -/
def ui_gets_clear (g : Gets) : Gets :=
  let g := (g.memset 0x08 g.total).store g.total 0
  let g := g.memset 0x20 g.total
  let g := g.memset 0x08 g.total
  { g with total := 0, dest := 0 }

/-- A printable key, up to `first_key = 0`, -/
def ui_gets_first (g : Gets) : Gets :=
  { (if g.first_key ∧ g.total ≠ 0 then ui_gets_clear g else g) with first_key := false }

/-- and the rest of it. -/
def ui_gets_char (size : ℕ) (g : Gets) (key : UInt8) : Gets :=
  let g := ui_gets_first g
  if g.total < size then
    { g.store g.dest key with dest := g.dest + 1, total := g.total + 1 }
  else g

/-- Backspace. -/
def ui_gets_back (g : Gets) : Gets :=
  if g.total ≠ 0 then { g with first_key := false, dest := g.dest - 1, total := g.total - 1 }
  else { g with first_key := false }

/-- Return, and the keys that abort. -/
abbrev IsEnter (key : UInt8) : Prop := key = 0x0d ∨ key = 0x0a
abbrev IsAbort (key : UInt8) : Prop := key = 0x03 ∨ key = KEY_ESC

/-- The loop. It returns a number with the variables it is left with, and has not returned
when there are no more keys. -/
def ui_gets_loop (size : ℕ) : Gets → List UInt8 → Option (ℕ × Gets)
  | _, [] => none
  | g, key :: keys =>
    if IsEnter key then some (g.total, g.store g.dest 0)
    else if IsAbort key then some (0, g)
    else if key = 0x08 ∨ key = ARROW_L then ui_gets_loop size (ui_gets_back g) keys
    else if 0x20 ≤ key ∧ key ≤ 0x7f then ui_gets_loop size (ui_gets_char size g key) keys
    else ui_gets_loop size g keys

def ui_gets (b : TextBuf) (size : ℕ) (keys : List UInt8) : Option (ℕ × Gets) :=
  if size = 0 then some (0, ⟨b.mem, 0, 0, true, [], false⟩)
  else ui_gets_loop size (ui_gets_start b size) keys

/-! ## The line -/

/-- A line as it is edited, and whether no key has touched it yet. -/
structure Line where
  chars : List UInt8
  fresh : Bool

/-- The line in front of the first key: the text of the buffer, if it is shorter than
`size`. -/
def Line.start (b : TextBuf) (size : ℕ) : Line :=
  ⟨if size ≤ b.strlen then [] else b.chars, true⟩

/-- A key that edits, in a line of at most `size` characters. -/
def Line.edit (size : ℕ) (l : Line) (key : UInt8) : Line :=
  if key = 0x08 ∨ key = ARROW_L then ⟨l.chars.dropLast, false⟩
  else if 0x20 ≤ key ∧ key ≤ 0x7f then
    let chars := if l.fresh then [] else l.chars
    ⟨if chars.length < size then chars ++ [key] else chars, false⟩
  else l

/-- Keys of which the last one ends the line, and no other one does. -/
structure Typed where
  keys : List UInt8
  last : UInt8
  edits : ∀ key ∈ keys, ¬ (IsEnter key ∨ IsAbort key)
  ends : IsEnter last ∨ IsAbort last

/-- The line after the keys in front of the last one. -/
def Typed.edited (t : Typed) (b : TextBuf) (size : ℕ) : List UInt8 :=
  (t.keys.foldl (Line.edit size) (Line.start b size)).chars

/-- `ui_gets` returns, has written inside of the buffer only and has not had `printf` ask for
what it was not given, and with a positive number the buffer holds that many characters, which
are the edited line, and a zero behind them. -/
def GetsRight (b : TextBuf) (size : ℕ) (t : Typed) : Prop :=
  ∃ n g, ui_gets b size (t.keys ++ [t.last]) = some (n, g) ∧ (∀ i ∈ g.written, i < size) ∧
    g.stray = false ∧ (0 < n → (t.edited b size).length = n ∧ (∀ c ∈ t.edited b size, c ≠ 0) ∧
      (List.range n).map g.buf = t.edited b size ∧ g.buf n = 0)

/-- The text that is displayed can be given to `printf`. -/
def Displays (b : TextBuf) (size : ℕ) : Prop :=
  b.strlen < size → Printf.stands_alone b.chars = true

/-! ## What the keys do -/

section Store

variable {g : Gets} {i n : ℕ} {c : UInt8}

theorem memset_spec (g : Gets) (c : UInt8) (n : ℕ) :
    (g.memset c n).total = g.total ∧ (g.memset c n).stray = g.stray ∧
      (g.memset c n).written = g.written ++ List.range n := by
  induction n with
  | zero => exact ⟨rfl, rfl, (List.append_nil _).symm⟩
  | succ n ih =>
    obtain ⟨htotal, hstray, hwritten⟩ := ih
    unfold Gets.memset at htotal hstray hwritten ⊢
    rw [List.range_succ, List.foldl_append]
    refine ⟨htotal, hstray, ?_⟩
    rw [← List.append_assoc, ← hwritten]
    rfl

/-- The wiping writes up to the zero behind the text. -/
theorem ui_gets_clear_spec (g : Gets) :
    (ui_gets_clear g).total = 0 ∧ (ui_gets_clear g).stray = g.stray ∧
      ∀ i ∈ (ui_gets_clear g).written, i ∈ g.written ∨ i ≤ g.total := by
  obtain ⟨htotal, hstray, hbs⟩ := memset_spec g 0x08 g.total
  have hstore : ((g.memset 0x08 g.total).store g.total 0).total = g.total := htotal
  obtain ⟨htotal', hstray', hsp⟩ :=
    memset_spec ((g.memset 0x08 g.total).store g.total 0) 0x20 g.total
  obtain ⟨-, hstray'', hbs'⟩ := memset_spec
    (((g.memset 0x08 g.total).store g.total 0).memset 0x20 g.total) 0x08 g.total
  have hsp_total : (((g.memset 0x08 g.total).store g.total 0).memset 0x20 g.total).total =
      g.total := htotal'.trans hstore
  have hwritten : (ui_gets_clear g).written =
      g.written ++ List.range g.total ++ [g.total] ++ List.range g.total ++
        List.range g.total := by
    rw [ui_gets_clear]
    simp only [hstore, hsp_total, hbs', hsp]
    rw [Gets.store, hbs]
  refine ⟨rfl, ?_, fun i hi => ?_⟩
  · rw [ui_gets_clear]
    simp only [hstore, hsp_total]
    exact hstray''.trans (hstray'.trans hstray)
  rw [hwritten] at hi
  simp only [List.mem_append, List.mem_singleton, List.mem_range] at hi
  obtain (((hi | hi) | hi) | hi) | hi := hi
  · exact .inl hi
  · exact .inr hi.le
  · exact .inr hi.le
  · exact .inr hi.le
  · exact .inr hi.le

end Store

/-- The variables hold the line. -/
structure Holds (size : ℕ) (stray : Bool) (g : Gets) (l : Line) : Prop where
  total : g.total = l.chars.length
  dest : g.dest = g.total
  first_key : g.first_key = l.fresh
  stray : g.stray = stray
  buf : (List.range g.total).map g.buf = l.chars
  text : ∀ c ∈ l.chars, c ≠ 0
  le : g.total ≤ size
  fresh : l.fresh = true → g.total < size
  inside : ∀ i ∈ g.written, i < size

section Keys

variable {size : ℕ} {stray : Bool} {g : Gets} {l : Line} {b : TextBuf} {key : UInt8}

theorem holds_start (hsize : 0 < size) (b : TextBuf) :
    Holds size (ui_gets_start b size).stray (ui_gets_start b size) (Line.start b size) := by
  unfold ui_gets_start Line.start
  dsimp only
  split_ifs with hlen
  · exact
      { total := rfl
        dest := rfl
        first_key := rfl
        stray := rfl
        buf := rfl
        text := by simp
        le := Nat.zero_le _
        fresh := fun _ => hsize
        inside := by simp }
  · refine
      { total := by simp [TextBuf.chars]
        dest := rfl
        first_key := rfl
        stray := rfl
        buf := rfl
        text := ?_
        le := (not_le.mp hlen).le
        fresh := fun _ => not_le.mp hlen
        inside := by simp }
    intro c hc
    obtain ⟨i, hi, rfl⟩ := List.mem_map.mp hc
    exact b.text i (List.mem_range.mp hi)

/-- Backspace takes the last character away, if there is one. -/
theorem Holds.back (h : Holds size stray g l) :
    Holds size stray (ui_gets_back g) ⟨l.chars.dropLast, false⟩ := by
  -- at the start of the line nothing is taken away, and `0 - 1` is 0
  have htotal : (ui_gets_back g).total = g.total - 1 := by
    unfold ui_gets_back
    split_ifs with hne
    · rfl
    · exact (not_not.mp hne).trans (congrArg (· - 1) (not_not.mp hne)).symm
  have hdest : (ui_gets_back g).dest = (ui_gets_back g).total := by
    have hd := h.dest
    unfold ui_gets_back
    split_ifs with hne
    · exact congrArg (· - 1) hd
    · exact hd
  have hfirst : (ui_gets_back g).first_key = false := by
    unfold ui_gets_back
    split_ifs <;> rfl
  have hrest : (ui_gets_back g).buf = g.buf ∧ (ui_gets_back g).stray = g.stray ∧
      (ui_gets_back g).written = g.written := by
    unfold ui_gets_back
    split_ifs <;> exact ⟨rfl, rfl, rfl⟩
  refine
    { total := ?_
      dest := hdest
      first_key := hfirst
      stray := hrest.2.1.trans h.stray
      buf := ?_
      text := fun c hc => h.text c (List.mem_of_mem_dropLast hc)
      le := by
        have hle := h.le
        omega
      fresh := fun hf => absurd hf Bool.false_ne_true
      inside := by
        rw [hrest.2.2]
        exact h.inside }
  · rw [htotal, h.total, List.length_dropLast]
  · rw [htotal, hrest.1, ← h.buf, List.dropLast_eq_take, List.length_map, List.length_range,
      ← List.map_take, List.take_range, Nat.min_eq_left (Nat.sub_le _ _)]

/-- A character behind the others, as long as there is room. -/
theorem Holds.put (h : Holds size stray g l) (hkey : key ≠ 0) (hold : l.fresh = false)
    (hlt : g.total < size) :
    Holds size stray { g.store g.dest key with dest := g.dest + 1, total := g.total + 1 }
      ⟨l.chars ++ [key], false⟩ where
  total := by simp [h.total]
  dest := congrArg (· + 1) h.dest
  first_key := h.first_key.trans hold
  stray := h.stray
  buf := by
    rw [List.range_succ, List.map_append, h.dest, ← h.buf]
    congr 1
    · apply List.map_congr_left
      intro i hi
      exact Function.update_of_ne (List.mem_range.mp hi).ne _ _
    · simp [Gets.store]
  text := by
    intro c hc
    obtain hc | hc := List.mem_append.mp hc
    · exact h.text c hc
    · rwa [List.mem_singleton.mp hc]
  le := hlt
  fresh := fun hf => absurd hf Bool.false_ne_true
  inside := by
    intro i hi
    obtain hi | hi := List.mem_append.mp hi
    · exact h.inside i hi
    · rw [List.mem_singleton.mp hi, h.dest]
      exact hlt

/-- The first character clears the line. -/
theorem Holds.clear (h : Holds size stray g l) :
    Holds size stray (ui_gets_first g) ⟨if l.fresh then [] else l.chars, false⟩ := by
  unfold ui_gets_first
  obtain ⟨htotal, hstray, hwritten⟩ := ui_gets_clear_spec g
  by_cases hfirst : g.first_key = true
  · have hfresh : l.fresh = true := h.first_key ▸ hfirst
    have hlt := h.fresh hfresh
    rw [if_pos hfresh]
    -- with a text, the backspaces and blanks go over it; without one, nothing is done
    by_cases hne : g.total ≠ 0
    · rw [if_pos ⟨hfirst, hne⟩]
      refine
        { total := htotal
          dest := rfl
          first_key := rfl
          stray := hstray.trans h.stray
          buf := rfl
          text := by simp
          le := Nat.zero_le _
          fresh := fun hf => absurd hf Bool.false_ne_true
          inside := fun i hi => ?_ }
      obtain hi | hi := hwritten i hi
      · exact h.inside i hi
      · omega
    · rw [if_neg fun hc => hne hc.2]
      have hzero := not_not.mp hne
      exact
        { total := hzero
          dest := h.dest
          first_key := rfl
          stray := h.stray
          buf := by
            rw [hzero]
            rfl
          text := by simp
          le := h.le
          fresh := fun hf => absurd hf Bool.false_ne_true
          inside := h.inside }
  · have hold : ¬ l.fresh = true := h.first_key ▸ hfirst
    rw [if_neg hold, if_neg fun hc => hfirst hc.1]
    exact
      { total := h.total
        dest := h.dest
        first_key := rfl
        stray := h.stray
        buf := h.buf
        text := h.text
        le := h.le
        fresh := fun hf => absurd hf Bool.false_ne_true
        inside := h.inside }

theorem Holds.char (h : Holds size stray g l) (hkey : 0x20 ≤ key ∧ key ≤ 0x7f) :
    Holds size stray (ui_gets_char size g key) (l.edit size key) := by
  have hne : key ≠ 0 := by
    rintro rfl
    exact absurd hkey.1 (by decide)
  have hclear := h.clear
  have hlen : (ui_gets_first g).total = (if l.fresh then [] else l.chars).length := hclear.total
  rw [Line.edit, if_neg (Fis.printable_key hkey).2.2, if_pos hkey]
  unfold ui_gets_char
  dsimp only
  by_cases hlt : (ui_gets_first g).total < size
  · rw [if_pos hlt, if_pos (by rwa [← hlen])]
    exact hclear.put hne rfl hlt
  · rw [if_neg hlt, if_neg (by rwa [← hlen])]
    exact hclear

/-- The loop up to the last key. -/
theorem ui_gets_loop_keys (keys rest : List UInt8) (h : Holds size stray g l)
    (hkeys : ∀ key ∈ keys, ¬ (IsEnter key ∨ IsAbort key)) :
    ∃ g', ui_gets_loop size g (keys ++ rest) = ui_gets_loop size g' rest ∧
      Holds size stray g' (keys.foldl (Line.edit size) l) := by
  induction keys generalizing g l with
  | nil => exact ⟨g, rfl, h⟩
  | cons key keys ih =>
    have hkey := hkeys key List.mem_cons_self
    have hrest : ∀ k ∈ keys, ¬ (IsEnter k ∨ IsAbort k) :=
      fun k hk => hkeys k (List.mem_cons_of_mem key hk)
    rw [not_or] at hkey
    rw [List.cons_append, ui_gets_loop, if_neg hkey.1, if_neg hkey.2, List.foldl_cons]
    split_ifs with hback hchar
    · have hedit : l.edit size key = ⟨l.chars.dropLast, false⟩ := if_pos hback
      rw [hedit]
      exact ih h.back hrest
    · exact ih (h.char hchar) hrest
    · have hedit : l.edit size key = l := by rw [Line.edit, if_neg hback, if_neg hchar]
      rw [hedit]
      exact ih h hrest

end Keys

/-! ## The whole call -/

section Call

variable {b : TextBuf} {size : ℕ} {t : Typed}

/-- What is returned: nothing has been written behind the buffer before the last key, which
writes the zero when it is return. -/
theorem ui_gets_spec (hsize : 0 < size) (b : TextBuf) (t : Typed) :
    ∃ g, Holds size (ui_gets_start b size).stray g ⟨t.edited b size, g.first_key⟩ ∧
      ui_gets b size (t.keys ++ [t.last]) =
        some (if IsEnter t.last then (g.total, g.store g.total 0) else (0, g)) := by
  obtain ⟨g, hloop, hg⟩ := ui_gets_loop_keys t.keys [t.last] (holds_start hsize b) t.edits
  refine ⟨g, ?_, ?_⟩
  · rw [hg.first_key]
    exact hg
  · rw [ui_gets, if_neg hsize.ne', hloop, ui_gets_loop]
    by_cases henter : IsEnter t.last
    · rw [if_pos henter, if_pos henter, hg.dest]
    · rw [if_neg henter, if_neg henter, if_pos (t.ends.resolve_left henter)]

/-- What is displayed is all that `printf` is given. -/
theorem stray_start (b : TextBuf) (size : ℕ) :
    (ui_gets_start b size).stray = false ↔ Displays b size := by
  unfold ui_gets_start Displays
  dsimp only
  split_ifs with hlen
  · exact iff_of_true rfl fun h => absurd h (not_lt.mpr hlen)
  · rw [Bool.not_eq_false']
    exact ⟨fun h _ => h, fun h => h (not_le.mp hlen)⟩

end Call

/-! ## The names of images -/

/-- The text that was typed, when a positive number is returned. -/
def typed_text (r : ℕ × Gets) : Option (List UInt8) :=
  if r.1 = 0 then none else some ((List.range r.1).map r.2.buf)

theorem fis_ui_gets_loop {size : ℕ} {stray : Bool} {g : Gets} {l : Line} (keys : List UInt8)
    (h : Holds size stray g l) (hfresh : l.fresh = true → l.chars = []) :
    Fis.ui_gets size l.chars keys = (ui_gets_loop size g keys).bind typed_text := by
  induction keys generalizing g l with
  | nil => rfl
  | cons key keys ih =>
    have hfirst : (if l.fresh then [] else l.chars) = l.chars := by
      split_ifs with hf
      · exact (hfresh hf).symm
      · rfl
    rw [Fis.ui_gets, ui_gets_loop]
    by_cases henter : IsEnter key
    · have hnil : l.chars = [] ↔ g.total = 0 := by rw [h.total, List.length_eq_zero_iff]
      rw [if_pos henter, if_pos henter, Option.bind_some, typed_text]
      simp only [hnil]
      congr 2
      refine h.buf.symm.trans (List.map_congr_left fun i hi => ?_)
      rw [h.dest]
      exact (Function.update_of_ne (List.mem_range.mp hi).ne _ _).symm
    rw [if_neg henter, if_neg henter]
    by_cases habort : IsAbort key
    · rw [if_pos habort, if_pos habort]
      rfl
    rw [if_neg habort, if_neg habort]
    split_ifs with hback hchar hroom
    · exact ih h.back fun hf => absurd hf Bool.false_ne_true
    · have hnext := h.char hchar
      rw [Line.edit, if_neg hback, if_pos hchar] at hnext
      simp only [hfirst, if_pos hroom] at hnext
      exact ih hnext fun hf => absurd hf Bool.false_ne_true
    · have hnext := h.char hchar
      rw [Line.edit, if_neg hback, if_pos hchar] at hnext
      simp only [hfirst, if_neg hroom] at hnext
      exact ih (l := ⟨l.chars, false⟩) hnext fun hf => absurd hf Bool.false_ne_true
    · exact ih h hfresh

/-- What the FIS commands take for the name that was typed is what `ui_gets` leaves in an empty
buffer. -/
theorem fis_ui_gets_eq {size : ℕ} (hsize : 0 < size) (b : TextBuf) (hb : b.strlen = 0)
    (keys : List UInt8) :
    Fis.ui_gets size [] keys = (ui_gets b size keys).bind typed_text := by
  have hstart : (Line.start b size).chars = [] := by
    rw [Line.start, hb, if_neg (by omega)]
    show b.chars = []
    rw [TextBuf.chars, hb]
    rfl
  rw [ui_gets, if_neg hsize.ne', ← hstart]
  exact fis_ui_gets_loop keys (holds_start hsize b) fun _ => hstart

/-- The name of an image that is typed into a buffer with an empty text. -/
def typed_name (b : TextBuf) (hb : b.strlen = 0) (keys : List UInt8) : Option FisName :=
  match h : (ui_gets b FIS_NAME_SIZE keys).bind typed_text with
  | none => none
  | some name =>
    have hname := Fis.ui_gets_typed (Nat.zero_le _) (List.forall_mem_nil _)
      ((fis_ui_gets_eq (by decide) b hb keys).trans h)
    some ⟨name, hname.1, hname.2.1, hname.2.2⟩

/-- Every name can be typed. -/
theorem typed_name_type (b : TextBuf) (hb : b.strlen = 0) (n : FisName) :
    typed_name b hb (n.chars ++ [0x0d]) = some n := by
  have htyped : (ui_gets b FIS_NAME_SIZE (n.chars ++ [0x0d])).bind typed_text = some n.chars := by
    rw [← fis_ui_gets_eq (by decide) b hb]
    refine Fis.ui_gets_type ?_ n.printable n.ne_nil
    rw [List.length_nil, Nat.zero_add]
    exact n.length_le
  unfold typed_name
  split
  · rename_i h
    rw [htyped] at h
    cases h
  · rename_i name h
    cases htyped.symm.trans h
    rfl

/-! ## A line that fills the buffer -/

/-- A buffer with an empty text. -/
def empty_buf : TextBuf := ⟨fun _ => 0, 0, by simp, rfl⟩

/-- Sixteen characters and return. -/
def sixteen_chars : Typed where
  keys := List.replicate 16 0x61
  last := 0x0d
  edits := by
    intro key hkey
    rw [List.eq_of_mem_replicate hkey]
    unfold IsEnter IsAbort KEY_ESC
    decide
  ends := .inl (.inl rfl)

end CsBoot.Ui
