/-
Programs that use a buffer of their own.

A program reads and writes a scratch state and returns a value, or fails. What makes
it a function of its arguments is that it reads nothing from the scratch that it has
not written, but for what an invariant says of the scratch: `Indep` says that the
value is the same from any two states in which the invariant holds, and that the
invariant holds at the end. It is kept by sequencing, choice and failure, so that a
program has it when its own accesses to the scratch have.
-/
import Mathlib.Tactic

set_option autoImplicit false

/-- A program with scratch states in `σ`, which may fail. -/
def ScratchM (σ α : Type) : Type := σ → Option α × σ

namespace ScratchM

variable {σ α β : Type}

instance : Monad (ScratchM σ) where
  pure a := fun s => (some a, s)
  bind p f := fun s =>
    match p s with
    | (some a, s) => f a s
    | (none, s) => (none, s)

/-- Give up. -/
def fail : ScratchM σ α := fun s => (none, s)

theorem pure_apply (a : α) (s : σ) : (pure a : ScratchM σ α) s = (some a, s) := rfl

/-- A program goes on with what the first part has left in the buffer, -/
theorem bind_apply {p : ScratchM σ α} {f : α → ScratchM σ β} {s : σ} {a : α} {s' : σ}
    (h : p s = (some a, s')) : (p >>= f) s = f a s' := by
  change (match p s with
    | (some a, s) => f a s
    | (none, s) => (none, s)) = f a s'
  rw [h]

/-- and does not when the first part fails. -/
theorem bind_fail {p : ScratchM σ α} {f : α → ScratchM σ β} {s s' : σ} (h : p s = (none, s')) :
    (p >>= f) s = (none, s') := by
  change (match p s with
    | (some a, s) => f a s
    | (none, s) => (none, s)) = (none, s')
  rw [h]

/-- A sequence that has a value. -/
theorem of_bind {p : ScratchM σ α} {f : α → ScratchM σ β} {s s'' : σ} {b : β}
    (h : (p >>= f) s = (some b, s'')) : ∃ a s', p s = (some a, s') ∧ f a s' = (some b, s'') := by
  cases hp : p s with
  | mk o s' =>
      cases o with
      | none =>
          rw [bind_fail hp] at h
          cases h
      | some a =>
          rw [bind_apply hp] at h
          exact ⟨a, s', rfl, h⟩

/-- The value of a program. -/
def value (p : ScratchM σ α) (s : σ) : Option α := (p s).1

/-- The state that it leaves. -/
def after (p : ScratchM σ α) (s : σ) : σ := (p s).2

/-- The value and the buffer, from the run. -/
theorem value_eq {p : ScratchM σ α} {s s' : σ} {o : Option α} (h : p s = (o, s')) :
    p.value s = o := by
  rw [value, h]

theorem after_eq {p : ScratchM σ α} {s s' : σ} {o : Option α} (h : p s = (o, s')) :
    p.after s = s' := by
  rw [after, h]

/-- The run, from the value. -/
theorem of_value {p : ScratchM σ α} {s : σ} {o : Option α} (h : p.value s = o) :
    ∃ s', p s = (o, s') :=
  ⟨(p s).2, Prod.ext h rfl⟩

theorem value_bind {p : ScratchM σ α} {f : α → ScratchM σ β} {s : σ} {a : α} {s' : σ}
    (h : p s = (some a, s')) : (p >>= f).value s = (f a).value s' := by
  rw [value, bind_apply h, value]

theorem value_bind_fail {p : ScratchM σ α} {f : α → ScratchM σ β} {s s' : σ}
    (h : p s = (none, s')) : (p >>= f).value s = none := by
  rw [value, bind_fail h]

/-- The value does not depend on the scratch, as far as the invariant leaves it open. -/
def Indep (V : σ → Prop) (p : ScratchM σ α) : Prop :=
  ∃ a, ∀ s, V s → (p s).1 = a ∧ V (p s).2

variable {V : σ → Prop}

/-- A value does not depend on the buffer, -/
theorem Indep.pure (a : α) : Indep V (pure a : ScratchM σ α) := ⟨some a, fun _ h => ⟨rfl, h⟩⟩

/-- nor does a failure, -/
theorem Indep.fail : Indep V (fail : ScratchM σ α) := ⟨none, fun _ h => ⟨rfl, h⟩⟩

/-- nor two parts that do not, one behind the other, -/
theorem Indep.bind {p : ScratchM σ α} {f : α → ScratchM σ β} (hp : Indep V p)
    (hf : ∀ a, Indep V (f a)) : Indep V (p >>= f) := by
  obtain ⟨o, hp⟩ := hp
  cases o with
  | none =>
      refine ⟨none, fun s hs => ?_⟩
      rw [bind_fail (Prod.ext (hp s hs).1 rfl)]
      exact ⟨rfl, (hp s hs).2⟩
  | some a =>
      obtain ⟨o, hf⟩ := hf a
      refine ⟨o, fun s hs => ?_⟩
      rw [bind_apply (Prod.ext (hp s hs).1 rfl)]
      exact hf _ (hp s hs).2

/-- nor a choice between such parts. -/
theorem Indep.ite {c : Prop} [Decidable c] {p q : ScratchM σ α} (hp : Indep V p)
    (hq : Indep V q) : Indep V (if c then p else q) := by
  split_ifs
  · exact hp
  · exact hq

/-- From any two states the value is the same. -/
theorem Indep.same {p : ScratchM σ α} (h : Indep V p) {s s' : σ} (hs : V s) (hs' : V s') :
    (p s).1 = (p s').1 := by
  obtain ⟨a, h⟩ := h
  rw [(h s hs).1, (h s' hs').1]

/-- Two runs of such a program give the same value, -/
theorem Indep.same_value {p : ScratchM σ α} (h : Indep V p) {s s' : σ} (hs : V s) (hs' : V s') :
    p.value s = p.value s' :=
  h.same hs hs'

/-- What it does from any state, when its value from one is known. -/
theorem Indep.of_value {p : ScratchM σ α} (h : Indep V p) {s s' : σ} (hs : V s) (hs' : V s')
    {o : Option α} (hv : p.value s' = o) : ∃ s'', p s = (o, s'') ∧ V s'' := by
  obtain ⟨a, h⟩ := h
  obtain rfl : a = o := (h s' hs').1.symm.trans hv
  exact ⟨(p s).2, Prod.ext (h s hs).1 rfl, (h s hs).2⟩

/-- and leave a buffer of the same kind. -/
theorem Indep.keeps {p : ScratchM σ α} (h : Indep V p) {s : σ} (hs : V s) : V (p s).2 := by
  obtain ⟨a, h⟩ := h
  exact (h s hs).2

end ScratchM
