/-
Operations that are tried one after the other, up to the first that fails.

`run` says what becomes of a list of them: the operations that were tried, the status of
the last one, and which it was if it failed. A loop that finds its operations as it goes
(`pass`) does the same: it has a position, at which there is an operation or the end. As
long as its positions hold the operations of a list, the loop is a run of the list
(`returns_items`), and what it has tried stays tried (`tried_prefix`).
-/
import CsBoot.Lib.Loop

set_option autoImplicit false

namespace Attempts

/-- What has become of the operations. -/
structure Outcome (σ α : Type*) where
  state : σ
  tried : List α
  stat : ℤ
  failed : Option α

variable {σ α τ : Type*}

/-- Try them in order. An operation fails when its status is not zero. -/
def run (op : σ → α → σ × ℤ) : σ → List α → Outcome σ α
  | s, [] => ⟨s, [], 0, none⟩
  | s, a :: as =>
    let r := op s a
    if r.2 ≠ 0 then ⟨r.1, [a], r.2, some a⟩
    else { run op r.1 as with tried := a :: (run op r.1 as).tried }

variable {op : σ → α → σ × ℤ} {s : σ} {a : α} {as : List α}

theorem run_fail (h : (op s a).2 ≠ 0) :
    run op s (a :: as) = ⟨(op s a).1, [a], (op s a).2, some a⟩ := by
  rw [run, if_pos h]

theorem run_ok (h : (op s a).2 = 0) :
    run op s (a :: as) =
      { run op (op s a).1 as with tried := a :: (run op (op s a).1 as).tried } := by
  rw [run, if_neg (not_not.mpr h)]

/-- Without a failure all of them were tried. -/
theorem tried_of_none (h : (run op s as).failed = none) :
    (run op s as).tried = as ∧ (run op s as).stat = 0 := by
  induction as generalizing s with
  | nil => exact ⟨rfl, rfl⟩
  | cons a as ih =>
    by_cases hfail : (op s a).2 = 0
    · rw [run_ok hfail] at h ⊢
      obtain ⟨htried, hstat⟩ := ih h
      exact ⟨congrArg (a :: ·) htried, hstat⟩
    · rw [run_fail hfail] at h
      cases h

theorem run_of_none (h : (run op s as).failed = none) :
    run op s as = ⟨(run op s as).state, as, 0, none⟩ := by
  obtain ⟨htried, hstat⟩ := tried_of_none h
  generalize run op s as = o at *
  obtain ⟨state, tried, stat, failed⟩ := o
  cases h
  cases htried
  cases hstat
  rfl

/-- Nothing but the operations of the list is tried. -/
theorem run_tried_prefix (op : σ → α → σ × ℤ) (s : σ) (as : List α) :
    (run op s as).tried <+: as := by
  induction as generalizing s with
  | nil => exact List.prefix_rfl
  | cons a as ih =>
    by_cases hfail : (op s a).2 = 0
    · rw [run_ok hfail]
      exact List.cons_prefix_cons.mpr ⟨rfl, ih _⟩
    · rw [run_fail hfail]
      exact List.cons_prefix_cons.mpr ⟨rfl, List.nil_prefix⟩

/-- The first operation is tried. -/
theorem run_tried_ne_nil (op : σ → α → σ × ℤ) (s : σ) (as : List α) (a : α) :
    (run op s (a :: as)).tried ≠ [] := by
  by_cases hfail : (op s a).2 = 0
  · rw [run_ok hfail]
    exact List.cons_ne_nil _ _
  · rw [run_fail hfail]
    exact List.cons_ne_nil _ _

/-! ## A loop that finds its operations -/

/-- One pass, with the state, the position and what was tried. -/
def pass (op : σ → α → σ × ℤ) (item : τ → Option α) (next : τ → τ) (c : σ × τ × List α) :
    (σ × τ × List α) ⊕ Outcome σ α :=
  match item c.2.1 with
  | none => .inr ⟨c.1, c.2.2, 0, none⟩
  | some a =>
    let r := op c.1 a
    if r.2 ≠ 0 then .inr ⟨r.1, c.2.2 ++ [a], r.2, some a⟩
    else .inl (r.1, next c.2.1, c.2.2 ++ [a])

variable {item : τ → Option α} {next : τ → τ} {p : τ} {log : List α} {o : Outcome σ α}

theorem pass_none (h : item p = none) :
    pass op item next (s, p, log) = .inr ⟨s, log, 0, none⟩ := by
  simp only [pass, h]

theorem pass_fail (h : item p = some a) (hfail : (op s a).2 ≠ 0) :
    pass op item next (s, p, log) = .inr ⟨(op s a).1, log ++ [a], (op s a).2, some a⟩ := by
  simp only [pass, h, if_pos hfail]

theorem pass_ok (h : item p = some a) (hok : (op s a).2 = 0) :
    pass op item next (s, p, log) = .inl ((op s a).1, next p, log ++ [a]) := by
  simp only [pass, h, if_neg (not_not.mpr hok)]

/-- The operations from a position on are those of the list. -/
def Items (item : τ → Option α) (next : τ → τ) : τ → List α → Prop
  | _, [] => True
  | p, a :: as => item p = some a ∧ Items item next (next p) as

/-- The position behind them. -/
def behind (next : τ → τ) (p : τ) (as : List α) : τ := next^[as.length] p

/-- **The loop is a run of its operations**: it returns what the run makes of them if one of
them fails, and goes on behind them if none does. -/
theorem returns_items (h : Items item next p as) :
    Loop.Returns (pass op item next) (s, p, log) o ↔
      if (run op s as).failed = none then
        Loop.Returns (pass op item next) ((run op s as).state, behind next p as, log ++ as) o
      else o = { run op s as with tried := log ++ (run op s as).tried } := by
  induction as generalizing s p log with
  | nil => simp [run, behind]
  | cons a as ih =>
    obtain ⟨hitem, hitems⟩ := h
    by_cases hok : (op s a).2 = 0
    · have hbehind : behind next p (a :: as) = behind next (next p) as := rfl
      rw [Loop.returns_again (pass_ok hitem hok), ih hitems, run_ok hok, hbehind]
      simp only [List.append_assoc, List.singleton_append]
    · rw [Loop.returns_done (pass_fail hitem hok), run_fail hok]
      simp

/-- With the end behind them, it is the run. -/
theorem returns_all (h : Items item next p as) (hend : item (behind next p as) = none) :
    Loop.Returns (pass op item next) (s, p, []) o ↔ o = run op s as := by
  rw [returns_items h]
  split_ifs with hnone
  · rw [Loop.returns_done (pass_none hend), List.nil_append, ← run_of_none hnone]
  · rw [List.nil_append]

/-- What was tried stays tried. -/
theorem tried_prefix (h : Loop.Returns (pass op item next) (s, p, log) o) : log <+: o.tried := by
  refine Loop.Returns.induct (I := fun c => log <+: c.2.2) (R := fun o => log <+: o.tried) h
    List.prefix_rfl ?_ ?_
  · rintro ⟨s, p, l⟩ c hc hl
    cases hitem : item p with
    | none =>
      rw [pass_none hitem] at hc
      cases hc
    | some a =>
      by_cases hok : (op s a).2 = 0
      · rw [pass_ok hitem hok] at hc
        cases hc
        exact hl.trans (List.prefix_append _ _)
      · rw [pass_fail hitem hok] at hc
        cases hc
  · rintro ⟨s, p, l⟩ o' hc hl
    cases hitem : item p with
    | none =>
      rw [pass_none hitem] at hc
      cases hc
      exact hl
    | some a =>
      by_cases hok : (op s a).2 = 0
      · rw [pass_ok hitem hok] at hc
        cases hc
      · rw [pass_fail hitem hok] at hc
        cases hc
        exact hl.trans (List.prefix_append _ _)

/-- And the operation at the position is tried next. -/
theorem tried_next (hitem : item p = some a)
    (h : Loop.Returns (pass op item next) (s, p, log) o) : log ++ [a] <+: o.tried := by
  by_cases hok : (op s a).2 = 0
  · rw [Loop.returns_again (pass_ok hitem hok)] at h
    exact tried_prefix h
  · rw [(Loop.returns_done (pass_fail hitem hok)).mp h]

end Attempts
