/-
Programs with procedures that call each other, on one state, step by step.

A program is a tree of steps: each reads the state and an input from outside,
changes the state, and goes on as it sees fit. It may call a procedure, whose
body is looked up when it is called, so procedures can be recursive in any way.
What is being executed is a program and, for each call that has not returned,
the rest of the caller; one step at a time, so that a statement about every
configuration reached is one about every moment.

A proof outline for a program (`Outline`) follows its tree with a ghost, which
says what the program owns: each step keeps an invariant of ghost and state, and a
procedure promises something of the ghost with which it returns. Outlines for the
bodies of the procedures hold up in every run (`reached_good`).
-/
import CsBoot.Lib.Run

set_option autoImplicit false

namespace Proc

/-- The types of a machine: its states, the inputs of its steps, the labels of
steps, the procedures with their arguments, and what they return. -/
structure Sig where
  State : Type
  Input : Type
  Label : Type
  Name : Type
  Result : Type

/-- A program. A step with its label changes the state by `f`, and `k` goes on
with the input and the state before the step. -/
inductive Prog (S : Sig) (α : Type) : Type
  | ret (a : α)
  | act (l : S.Label) (f : S.Input → S.State → S.State) (k : S.Input → S.State → Prog S α)
  | call (p : S.Name) (k : S.Result → Prog S α)

variable {S : Sig} {α β : Type}

namespace Prog

/-- One program, and then another. -/
def bind (p : Prog S α) (g : α → Prog S β) : Prog S β :=
  match p with
  | ret a => g a
  | act l f k => act l f fun i s => (k i s).bind g
  | call n k => call n fun r => (k r).bind g

instance : Monad (Prog S) where
  pure := ret
  bind := bind

/-- A step that changes the state and returns what it finds. -/
def step (l : S.Label) (f : S.Input → S.State → α × S.State) : Prog S α :=
  act l (fun i s => (f i s).2) fun i s => ret (f i s).1

/-- A call of a procedure. -/
def run (p : S.Name) : Prog S S.Result := call p ret

end Prog

/-- What is executed: the state, the program, and the callers to return to. -/
structure Conf (S : Sig) where
  st : S.State
  cur : Prog S S.Result
  stack : List (S.Result → Prog S S.Result)

/-- One step, for the bodies of the procedures. -/
def next (body : S.Name → Prog S S.Result) (c : Conf S) (i : S.Input) : Option (Conf S) :=
  match c.cur with
  | .ret r =>
    match c.stack with
    | [] => none
    | k :: ks => some ⟨c.st, k r, ks⟩
  | .act _ f k => some ⟨f i c.st, k i c.st, c.stack⟩
  | .call p k => some ⟨c.st, body p, k :: c.stack⟩

/-- A condition on the labelled steps. -/
def Guarded (ok : S.State → S.Label → S.Input → Prop) (c : Conf S) (i : S.Input) : Prop :=
  match c.cur with
  | .act l _ _ => ok c.st l i
  | _ => True

instance decidableGuarded {ok : S.State → S.Label → S.Input → Prop}
    [hok : ∀ s l i, Decidable (ok s l i)] (c : Conf S) (i : S.Input) : Decidable (Guarded ok c i) :=
  match c with
  | ⟨_, .ret _, _⟩ => inferInstanceAs (Decidable True)
  | ⟨s, .act l _ _, _⟩ => hok s l i
  | ⟨_, .call _ _, _⟩ => inferInstanceAs (Decidable True)

/-- The label of the step to come. -/
def Conf.label (c : Conf S) : Option S.Label :=
  match c.cur with
  | .act l _ _ => some l
  | _ => none

/-! ## Proof outlines -/

/-- What an outline is about: an invariant of ghost and state, the condition
under which steps are looked at, what the ghost is to be at a step of some label,
and what it is to be when a procedure is called and when it returns. -/
structure Logic (S : Sig) (ω : Type) where
  inv : ω → S.State → Prop
  ok : S.State → S.Label → S.Input → Prop
  atStep : S.Label → ω → Prop
  atCall : S.Name → ω → Prop
  returns : S.Name → ω → ω → Prop

variable {ω : Type} (L : Logic S ω)

/-- The program keeps the invariant with this ghost and ends with one of these. -/
def Outline (p : Prog S α) (h : ω) (Q : α → ω → Prop) : Prop :=
  match p with
  | .ret a => Q a h
  | .act l f k => L.atStep l h ∧
      ∀ i s, L.inv h s → L.ok s l i → ∃ h', L.inv h' (f i s) ∧ Outline (k i s) h' Q
  | .call p k => L.atCall p h ∧ ∀ r h', L.returns p h h' → Outline (k r) h' Q

/-- The bodies do what is promised of the procedures. -/
def Bodies (body : S.Name → Prog S S.Result) : Prop :=
  ∀ p h, L.atCall p h → Outline L (body p) h fun _ h' => L.returns p h h'

section Rules

variable {L} {p : Prog S α} {g : α → Prog S β} {h : ω} {Q Q' : α → ω → Prop} {R : β → ω → Prop}

theorem Outline.mono (hp : Outline L p h Q) (hQ : ∀ a h', Q a h' → Q' a h') : Outline L p h Q' := by
  induction p generalizing h with
  | ret a => exact hQ a h hp
  | act l f k ih =>
      refine ⟨hp.1, fun i s hi hok => ?_⟩
      obtain ⟨h', hinv, hk⟩ := hp.2 i s hi hok
      exact ⟨h', hinv, ih i s hk⟩
  | call n k ih => exact ⟨hp.1, fun r h' hr => ih r (hp.2 r h' hr)⟩

/-- Programs one after the other. -/
theorem Outline.bind (hp : Outline L p h Q) (hg : ∀ a h', Q a h' → Outline L (g a) h' R) :
    Outline L (p >>= g) h R := by
  induction p generalizing h with
  | ret a => exact hg a h hp
  | act l f k ih =>
      refine ⟨hp.1, fun i s hi hok => ?_⟩
      obtain ⟨h', hinv, hk⟩ := hp.2 i s hi hok
      exact ⟨h', hinv, ih i s hk⟩
  | call n k ih => exact ⟨hp.1, fun r h' hr => ih r (hp.2 r h' hr)⟩

theorem Outline.run {n : S.Name} (hn : L.atCall n h) :
    Outline L (Prog.run n) h fun _ h' => L.returns n h h' :=
  ⟨hn, fun _ _ hr => hr⟩

theorem Outline.step {l : S.Label} {f : S.Input → S.State → α × S.State} (hl : L.atStep l h)
    (hf : ∀ i s, L.inv h s → L.ok s l i → ∃ h', L.inv h' (f i s).2 ∧ Q (f i s).1 h') :
    Outline L (Prog.step l f) h Q :=
  ⟨hl, hf⟩

/-- A step that needs no other ghost afterwards. -/
theorem Outline.step_keeps {l : S.Label} {f : S.Input → S.State → α × S.State} (hl : L.atStep l h)
    (hf : ∀ i s, L.inv h s → L.ok s l i → L.inv h (f i s).2) :
    Outline L (Prog.step l f) h fun _ h' => h' = h :=
  ⟨hl, fun i s hi hok => ⟨h, hf i s hi hok, rfl⟩⟩

end Rules

/-! ## Runs -/

section Runs

variable {L} {body : S.Name → Prog S S.Result} {c c₀ : Conf S} {i : S.Input} {h : ω}

/-- The callers go on from a ghost that what they called returns. -/
def Returns (L : Logic S ω) : List (S.Result → Prog S S.Result) → ω → Prop
  | [], _ => True
  | k :: ks, h => ∀ r, Outline L (k r) h fun _ h' => Returns L ks h'

/-- The rest of the execution has an outline. -/
def Good (L : Logic S ω) (c : Conf S) : Prop :=
  ∃ h, L.inv h c.st ∧ Outline L c.cur h fun _ h' => Returns L c.stack h'

theorem Good.next (hbody : Bodies L body) (hc : Good L c) (hok : Guarded L.ok c i) {c' : Conf S}
    (hstep : next body c i = some c') : Good L c' := by
  obtain ⟨st, cur, stack⟩ := c
  obtain ⟨h, hinv, hout⟩ := hc
  cases cur with
  | ret r =>
      cases stack with
      | nil => cases hstep
      | cons k ks =>
          cases hstep
          exact ⟨h, hinv, hout r⟩
  | act l f k =>
      cases hstep
      obtain ⟨h', hinv', hk⟩ := hout.2 i st hinv hok
      exact ⟨h', hinv', hk⟩
  | call p k =>
      -- the caller goes on from what the body promises
      cases hstep
      refine ⟨h, hinv, (hbody p h hout.1).mono fun _ h' hr r => ?_⟩
      exact hout.2 r h' hr

/-- **Every run.** Outlines of the bodies keep what is executed in order. -/
theorem reached_good (hbody : Bodies L body) (h₀ : Good L c₀)
    (hrun : Reaches (next body) (Guarded L.ok) c₀ c) : Good L c :=
  hrun.invariant h₀ fun _ _ _ hc hok hstep => hc.next hbody hok hstep

/-- The invariant holds, and the step to come is one that the ghost allows. -/
theorem Good.inv (hc : Good L c) : ∃ h, L.inv h c.st ∧ ∀ l, c.label = some l → L.atStep l h := by
  obtain ⟨st, cur, stack⟩ := c
  obtain ⟨h, hinv, hout⟩ := hc
  refine ⟨h, hinv, fun l hl => ?_⟩
  cases cur with
  | ret r => cases hl
  | act l' f k =>
      cases hl
      exact hout.1
  | call p k => cases hl

end Runs

end Proc
