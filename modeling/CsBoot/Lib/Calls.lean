/-
Functions that call themselves, and when they return.

The body of such a function is a tree: it ends with a result or in a crash, or calls the
function with a key and goes on with what that returns. `Returns` says what a body returns
when nothing bounds the nesting of the calls, `run` evaluates it with at most so many
calls one inside the other. The two agree, and a call returns exactly when the calls that
are come upon inside it do not crash and do not nest without end (`returns_iff_acc`).
Where only finitely many keys come up, the second is so exactly when none of them comes up
inside its own call. With a bound on the nesting it returns exactly when they nest no deeper
(`run_isSome_iff`).

A body may look things up on its way (`Asks`). Two ways to answer it that agree on what is
asked lead to the same results (`run_congr`).
-/
import Mathlib.Tactic
import Mathlib.Logic.Relation

set_option autoImplicit false

/-! ## Cycles -/

section Cycles

open Relation

variable {α : Type} {r : α → α → Prop} {a : α}

/-- Where finitely many elements lie below `a`, no chain goes down from it for ever unless
one of them lies below itself. -/
theorem acc_iff_no_cycle (hfin : {b | ReflTransGen r b a}.Finite) :
    Acc r a ↔ ¬∃ b, ReflTransGen r b a ∧ TransGen r b b := by
  constructor
  · rintro hacc ⟨b, hb, hcycle⟩
    have hacc : Acc (TransGen r) b := by
      cases reflTransGen_iff_eq_or_transGen.mp hb with
      | inl heq => exact heq ▸ hacc.transGen
      | inr hlt => exact hacc.transGen.inv hlt
    induction hacc with
    | intro b _ ih => exact ih b hcycle hb hcycle
  · intro hcycle
    have : Finite {b | ReflTransGen r b a} := hfin
    have : Std.Irrefl fun b c : {b | ReflTransGen r b a} => TransGen r b.1 c.1 :=
      ⟨fun b hb => hcycle ⟨b.1, b.2, hb⟩⟩
    have : IsTrans {b | ReflTransGen r b a} fun b c => TransGen r b.1 c.1 :=
      ⟨fun _ _ _ => TransGen.trans⟩
    have hwf := Finite.wellFounded_of_trans_of_irrefl
      fun b c : {b | ReflTransGen r b a} => TransGen r b.1 c.1
    have hall : ∀ b : {b | ReflTransGen r b a}, Acc r b.1 := by
      intro b
      induction b using hwf.induction with
      | h b ih => exact ⟨b.1, fun c hc => ih ⟨c, b.2.head hc⟩ (.single hc)⟩
    exact hall ⟨a, .refl⟩

end Cycles

/-! ## Bodies -/

/-- What is left to do of a function from `K` to `R` that calls itself. -/
inductive Calls (K R : Type) : Type
  | done (r : R)
  | crash
  | call (k : K) (next : R → Calls K R)

namespace Calls

open Relation

variable {K R : Type}

/-- The result of a body whose calls return what `result` says. -/
def runWith (result : K → Option R) : Calls K R → Option R
  | .done r => some r
  | .crash => none
  | .call k next => (result k).bind fun r => (next r).runWith result

/-- The result of a call, when no more than `n` calls are one inside the other. -/
def run (body : K → Calls K R) : ℕ → K → Option R
  | 0, _ => none
  | n + 1, k => (body k).runWith (run body n)

/-- What a body returns. -/
inductive Returns (body : K → Calls K R) : Calls K R → R → Prop
  | done (r : R) : Returns body (.done r) r
  | call {k : K} {next : R → Calls K R} {r r' : R} :
      Returns body (body k) r → Returns body (next r) r' → Returns body (.call k next) r'

/-- The calls that a body makes. It gets as far as the next when the one before returns. -/
inductive Comes (body : K → Calls K R) : Calls K R → K → Prop
  | here (k : K) (next : R → Calls K R) : Comes body (.call k next) k
  | behind {k k' : K} {next : R → Calls K R} {r : R} :
      Returns body (body k) r → Comes body (next r) k' → Comes body (.call k next) k'

/-- A body that gets as far as a crash of its own. -/
inductive Crashes (body : K → Calls K R) : Calls K R → Prop
  | here : Crashes body .crash
  | behind {k : K} {next : R → Calls K R} {r : R} :
      Returns body (body k) r → Crashes body (next r) → Crashes body (.call k next)

/-- A call that is made directly inside another. -/
def Inside (body : K → Calls K R) (k' k : K) : Prop := Comes body (body k) k'

/-- A call inside which a call, or one inside that, is made with its own key again. -/
def Cyclic (body : K → Calls K R) (k : K) : Prop :=
  ∃ k', ReflTransGen (Inside body) k' k ∧ TransGen (Inside body) k' k'

/-- A call that crashes, or inside which a call does. -/
def Broken (body : K → Calls K R) (k : K) : Prop :=
  ∃ k', ReflTransGen (Inside body) k' k ∧ Crashes body (body k')

variable {body : K → Calls K R}

/-! ## What a body returns -/

theorem Returns.unique {t : Calls K R} {r r' : R} (h : Returns body t r)
    (h' : Returns body t r') : r = r' := by
  induction h generalizing r' with
  | done r =>
      cases h'
      rfl
  | call _ _ ihk ihnext =>
      cases h' with
      | call hk hnext =>
          obtain rfl := ihk hk
          exact ihnext hnext

theorem returns_of_runWith {result : K → Option R}
    (hresult : ∀ k r, result k = some r → Returns body (body k) r) {t : Calls K R} {r : R}
    (h : t.runWith result = some r) : Returns body t r := by
  induction t generalizing r with
  | done r' =>
      cases h
      exact .done r'
  | crash => cases h
  | call k next ih =>
      rw [runWith, Option.bind_eq_some_iff] at h
      obtain ⟨r', hk, h⟩ := h
      exact .call (hresult k r' hk) (ih r' h)

/-- What comes out with bounded nesting is right. -/
theorem returns_of_run {n : ℕ} {k : K} {r : R} (h : run body n k = some r) :
    Returns body (body k) r := by
  induction n generalizing k r with
  | zero => cases h
  | succ n ih => exact returns_of_runWith (fun _ _ => ih) h

/-- It comes out with some bound, and with every larger one. -/
theorem runWith_of_returns {t : Calls K R} {r : R} (h : Returns body t r) :
    ∃ n, ∀ m, n ≤ m → t.runWith (run body m) = some r := by
  induction h with
  | done r => exact ⟨0, fun _ _ => rfl⟩
  | call _ _ ihk ihnext =>
      obtain ⟨n, hk⟩ := ihk
      obtain ⟨n', hnext⟩ := ihnext
      refine ⟨max (n + 1) n', fun m hm => ?_⟩
      obtain ⟨m, rfl⟩ : ∃ m', m = m' + 1 := ⟨m - 1, by omega⟩
      have hrun : run body (m + 1) _ = some _ := hk m (by omega)
      rw [runWith, hrun, Option.bind_some, hnext (m + 1) (by omega)]

theorem run_of_returns {k : K} {r : R} (h : Returns body (body k) r) :
    ∃ n, ∀ m, n ≤ m → run body m k = some r := by
  obtain ⟨n, hrun⟩ := runWith_of_returns h
  refine ⟨n + 1, fun m hm => ?_⟩
  obtain ⟨m, rfl⟩ : ∃ m', m = m' + 1 := ⟨m - 1, by omega⟩
  exact hrun m (by omega)

/-! ## When it returns -/

theorem acc_of_returns {t : Calls K R} {r : R} (h : Returns body t r) {k : K}
    (hk : Comes body t k) : Acc (Inside body) k := by
  induction h generalizing k with
  | done r => cases hk
  | call hret _ ihk ihnext =>
      cases hk with
      | here => exact ⟨_, fun k' hin => ihk hin⟩
      | behind hret' hcomes =>
          obtain rfl := hret.unique hret'
          exact ihnext hcomes

theorem Returns.of_comes {t : Calls K R} {r : R} (h : Returns body t r) {k : K}
    (hk : Comes body t k) : ∃ r', Returns body (body k) r' := by
  induction h generalizing k with
  | done r => cases hk
  | call hret _ _ ihnext =>
      cases hk with
      | here => exact ⟨_, hret⟩
      | behind hret' hcomes =>
          obtain rfl := hret.unique hret'
          exact ihnext hcomes

theorem Returns.not_crashes {t : Calls K R} {r : R} (h : Returns body t r) : ¬Crashes body t := by
  intro hcrash
  induction h with
  | done r => cases hcrash
  | call hret _ _ ihnext =>
      cases hcrash with
      | behind hret' hcrash =>
          obtain rfl := hret.unique hret'
          exact ihnext hcrash

/-- The calls inside a call that returns do not crash. -/
theorem Returns.not_broken {k : K} {r : R} (h : Returns body (body k) r) : ¬Broken body k := by
  rintro ⟨k', hbelow, hcrash⟩
  obtain ⟨r', hret⟩ : ∃ r', Returns body (body k') r' := by
    clear hcrash
    induction hbelow using ReflTransGen.head_induction_on with
    | refl => exact ⟨r, h⟩
    | head hin _ ih =>
        obtain ⟨r', hret⟩ := ih
        exact hret.of_comes hin
  exact hret.not_crashes hcrash

theorem returns_of_comes {t : Calls K R}
    (h : ∀ k, Comes body t k → ∃ r, Returns body (body k) r) (hcrash : ¬Crashes body t) :
    ∃ r, Returns body t r := by
  induction t with
  | done r => exact ⟨r, .done r⟩
  | crash => exact absurd .here hcrash
  | call k next ih =>
      obtain ⟨r, hret⟩ := h k (.here k next)
      obtain ⟨r', hnext⟩ := ih r (fun k' hk' => h k' (.behind hret hk'))
        fun hc => hcrash (.behind hret hc)
      exact ⟨r', .call hret hnext⟩

/-- A call returns when the calls inside it do not nest without end and none crashes, and
only then. -/
theorem returns_iff_acc {k : K} :
    (∃ r, Returns body (body k) r) ↔ Acc (Inside body) k ∧ ¬Broken body k := by
  constructor
  · rintro ⟨r, h⟩
    exact ⟨⟨k, fun k' hin => acc_of_returns h hin⟩, h.not_broken⟩
  · rintro ⟨hacc, hbroken⟩
    induction hacc with
    | intro k _ ih =>
        refine returns_of_comes (fun k' hin => ih k' hin ?_) fun hc => hbroken ⟨k, .refl, hc⟩
        rintro ⟨k'', hbelow, hc⟩
        exact hbroken ⟨k'', hbelow.tail hin, hc⟩

/-! ## When it returns with bounded nesting -/

/-- The calls inside this one, itself with them, are at most `n` deep. -/
def NestsIn (body : K → Calls K R) : ℕ → K → Prop
  | 0, _ => False
  | n + 1, k => ∀ k', Inside body k' k → NestsIn body n k'

/-- A body has a result as far as the calls that it makes have. -/
theorem runWith_isSome_iff {n : ℕ} {t : Calls K R} :
    (∃ r, t.runWith (run body n) = some r) ↔
      (∀ k, Comes body t k → ∃ r, run body n k = some r) ∧ ¬Crashes body t := by
  induction t with
  | done r =>
      refine iff_of_true ⟨r, rfl⟩ ⟨fun k hk => ?_, fun hc => ?_⟩
      · cases hk
      · cases hc
  | crash =>
      refine iff_of_false ?_ fun h => h.2 .here
      rintro ⟨r, hr⟩
      cases hr
  | call k next ih =>
      rw [runWith]
      constructor
      · rintro ⟨r, hr⟩
        obtain ⟨r', hk, hnext⟩ := Option.bind_eq_some_iff.mp hr
        obtain ⟨hcomes, hcrash⟩ := (ih r').mp ⟨r, hnext⟩
        have hret := returns_of_run hk
        refine ⟨fun k' hk' => ?_, fun hc => ?_⟩
        · cases hk' with
          | here => exact ⟨r', hk⟩
          | behind hret' hin =>
              -- a call returns one thing only, so what comes behind it is known
              obtain rfl := hret.unique hret'
              exact hcomes k' hin
        · cases hc with
          | behind hret' hin =>
              obtain rfl := hret.unique hret'
              exact hcrash hin
      · rintro ⟨hcomes, hcrash⟩
        obtain ⟨r', hk⟩ := hcomes k (.here k next)
        have hret := returns_of_run hk
        rw [hk, Option.bind_some]
        exact (ih r').mpr ⟨fun k' hin => hcomes k' (.behind hret hin),
          fun hin => hcrash (.behind hret hin)⟩

/-- With room for `n` calls one inside the other, a call returns exactly when it needs no more
of them and none crashes. -/
theorem run_isSome_iff {n : ℕ} {k : K} :
    (∃ r, run body n k = some r) ↔ NestsIn body n k ∧ ¬Broken body k := by
  induction n generalizing k with
  | zero =>
      refine iff_of_false ?_ fun h => h.1
      rintro ⟨r, hr⟩
      cases hr
  | succ n ih =>
      rw [run, runWith_isSome_iff]
      constructor
      · rintro ⟨hcomes, hcrash⟩
        refine ⟨fun k' hin => (ih.mp (hcomes k' hin)).1, ?_⟩
        rintro ⟨k', hbelow, hc⟩
        obtain rfl | ⟨k'', hbelow, hin⟩ := hbelow.cases_tail
        · exact hcrash hc
        · exact (ih.mp (hcomes k'' hin)).2 ⟨k', hbelow, hc⟩
      · rintro ⟨hnests, hbroken⟩
        refine ⟨fun k' hin => ih.mpr ⟨hnests k' hin, ?_⟩, fun hc => hbroken ⟨k, .refl, hc⟩⟩
        rintro ⟨k'', hbelow, hc⟩
        exact hbroken ⟨k'', hbelow.tail hin, hc⟩

/-! ## Where the keys and the results stay in a set -/

/-- The keys of a body satisfy `P`, and so long as what its calls return satisfies `Q`, so
does its result. -/
def Keeps (P : K → Prop) (Q : R → Prop) : Calls K R → Prop
  | .done r => Q r
  | .crash => True
  | .call k next => P k ∧ ∀ r, Q r → (next r).Keeps P Q

section Keeps

variable {P : K → Prop} {Q : R → Prop} (hbody : ∀ k, P k → (body k).Keeps P Q)

include hbody

theorem Keeps.of_returns {t : Calls K R} {r : R} (h : Returns body t r) (ht : t.Keeps P Q) :
    Q r := by
  induction h with
  | done r => exact ht
  | call _ _ ihk ihnext => exact ihnext (ht.2 _ (ihk (hbody _ ht.1)))

theorem Keeps.of_comes {t : Calls K R} {k : K} (h : Comes body t k) (ht : t.Keeps P Q) : P k := by
  induction h with
  | here => exact ht.1
  | behind hret _ ih => exact ih (ht.2 _ (Keeps.of_returns hbody hret (hbody _ ht.1)))

/-- The calls inside a body that keeps to `P` do, however deep. -/
theorem Keeps.below {k₀ k : K} (h₀ : (body k₀).Keeps P Q) (h : ReflTransGen (Inside body) k k₀) :
    k = k₀ ∨ P k := by
  induction h using ReflTransGen.head_induction_on with
  | refl => exact .inl rfl
  | head hin _ ih =>
      refine .inr (Keeps.of_comes hbody hin ?_)
      obtain rfl | hP := ih
      · exact h₀
      · exact hbody _ hP

/-- When finitely many keys satisfy `P`, a call returns unless one is made again inside
itself, or one crashes. -/
theorem Keeps.returns_iff (hfin : {k | P k}.Finite) {k₀ : K} (h₀ : (body k₀).Keeps P Q) :
    (∃ r, Returns body (body k₀) r) ↔ ¬Cyclic body k₀ ∧ ¬Broken body k₀ := by
  rw [returns_iff_acc, acc_iff_no_cycle ((hfin.insert k₀).subset fun k hk => ?_), Cyclic]
  exact Keeps.below hbody h₀ hk

end Keeps

end Calls

/-! ## Bodies that look things up -/

/-- What is left to do of a function that calls itself and asks questions of `Q`. -/
inductive Asks (K R Q : Type) (A : Q → Type) : Type
  | done (r : R)
  | crash
  | call (k : K) (next : R → Asks K R Q A)
  | ask (q : Q) (next : A q → Asks K R Q A)

namespace Asks

open Relation Calls

variable {K R Q : Type} {A : Q → Type}

/-- The body, when the questions are answered. -/
def answered (o : ∀ q, A q) : Asks K R Q A → Calls K R
  | .done r => .done r
  | .crash => .crash
  | .call k next => .call k fun r => (next r).answered o
  | .ask q next => (next (o q)).answered o

/-- What a body asks. It gets as far as the next question when the calls before it return. -/
inductive Asked (o : ∀ q, A q) (body : K → Calls K R) : Asks K R Q A → Q → Prop
  | here (q : Q) (next : A q → Asks K R Q A) : Asked o body (.ask q next) q
  | behind {q q' : Q} {next : A q → Asks K R Q A} :
      Asked o body (next (o q)) q' → Asked o body (.ask q next) q'
  | behind_call {k : K} {next : R → Asks K R Q A} {r : R} {q : Q} :
      Returns body (body k) r → Asked o body (next r) q → Asked o body (.call k next) q

/-- What is asked in a call, or in one inside it. -/
def AskedIn (o : ∀ q, A q) (body : K → Asks K R Q A) (k : K) (q : Q) : Prop :=
  ∃ k', ReflTransGen (Inside fun k => (body k).answered o) k' k ∧
    Asked o (fun k => (body k).answered o) (body k') q

variable {o o' : ∀ q, A q} {body : K → Asks K R Q A}

theorem runWith_congr {n : ℕ} {t : Asks K R Q A}
    (hasked : ∀ q, Asked o (fun k => (body k).answered o) t q → o' q = o q)
    (hcalls : ∀ k, Comes (fun k => (body k).answered o) (t.answered o) k →
      run (fun k => (body k).answered o') n k = run (fun k => (body k).answered o) n k) :
    (t.answered o').runWith (run (fun k => (body k).answered o') n) =
      (t.answered o).runWith (run (fun k => (body k).answered o) n) := by
  induction t with
  | done r => rfl
  | crash => rfl
  | call k next ih =>
      have hk := hcalls k (.here k _)
      rw [answered, answered, runWith, runWith, hk]
      cases hrun : run (fun k => (body k).answered o) n k with
      | none => rfl
      | some r =>
          have hret := returns_of_run hrun
          rw [Option.bind_some, Option.bind_some]
          exact ih r (fun q hq => hasked q (.behind_call hret hq))
            fun k' hk' => hcalls k' (.behind hret hk')
  | ask q next ih =>
      rw [answered, answered, hasked q (.here q next)]
      exact ih (o q) (fun q' hq' => hasked q' (.behind hq')) hcalls

/-- Answers that agree with others on all that these are asked lead to the same result. -/
theorem run_congr {n : ℕ} {k : K} (h : ∀ q, AskedIn o body k q → o' q = o q) :
    run (fun k => (body k).answered o') n k = run (fun k => (body k).answered o) n k := by
  induction n generalizing k with
  | zero => rfl
  | succ n ih =>
      rw [run, run]
      refine runWith_congr (fun q hq => h q ⟨k, .refl, hq⟩) fun k' hin => ih fun q hq => ?_
      obtain ⟨k'', hbelow, hq⟩ := hq
      exact h q ⟨k'', hbelow.tail hin, hq⟩

/-- What is asked in a body, or in a call that it makes. -/
def AskedBy (o : ∀ q, A q) (body : K → Asks K R Q A) (t : Asks K R Q A) (q : Q) : Prop :=
  Asked o (fun k => (body k).answered o) t q ∨
    ∃ k, Comes (fun k => (body k).answered o) (t.answered o) k ∧ AskedIn o body k q

theorem runWith_congr_of_askedBy {n : ℕ} {t : Asks K R Q A}
    (h : ∀ q, AskedBy o body t q → o' q = o q) :
    (t.answered o').runWith (run (fun k => (body k).answered o') n) =
      (t.answered o).runWith (run (fun k => (body k).answered o) n) :=
  runWith_congr (fun q hq => h q (.inl hq)) fun k hk =>
    run_congr fun q hq => h q (.inr ⟨k, hk, hq⟩)

/-! ### Where the keys, the results and the questions stay in a set -/

/-- As `Calls.Keeps`, and the questions satisfy `T`. -/
def Keeps (o : ∀ q, A q) (P : K → Prop) (S : R → Prop) (T : Q → Prop) : Asks K R Q A → Prop
  | .done r => S r
  | .crash => True
  | .call k next => P k ∧ ∀ r, S r → (next r).Keeps o P S T
  | .ask q next => T q ∧ (next (o q)).Keeps o P S T

section Keeps

variable {P : K → Prop} {S : R → Prop} {T : Q → Prop}

theorem Keeps.done {r : R} (h : S r) : (done r : Asks K R Q A).Keeps o P S T := h

theorem Keeps.calls {t : Asks K R Q A} (ht : t.Keeps o P S T) : (t.answered o).Keeps P S := by
  induction t with
  | done r => exact ht
  | crash => exact trivial
  | call k next ih => exact ⟨ht.1, fun r hr => ih r (ht.2 r hr)⟩
  | ask q next ih => exact ih (o q) ht.2

variable (hbody : ∀ k, P k → (body k).Keeps o P S T)

include hbody

theorem Keeps.asked {t : Asks K R Q A} {q : Q}
    (h : Asked o (fun k => (body k).answered o) t q) (ht : t.Keeps o P S T) : T q := by
  induction h with
  | here q next => exact ht.1
  | behind _ ih => exact ih ht.2
  | behind_call hret _ ih =>
      exact ih (ht.2 _ (Calls.Keeps.of_returns (fun k hk => (hbody k hk).calls) hret
        (hbody _ ht.1).calls))

/-- The questions in a call that keeps to `T` do, however deep. -/
theorem Keeps.askedIn {k₀ : K} {q : Q} (h₀ : (body k₀).Keeps o P S T)
    (h : AskedIn o body k₀ q) : T q := by
  obtain ⟨k, hbelow, hq⟩ := h
  obtain rfl | hP := Calls.Keeps.below (fun k hk => (hbody k hk).calls) h₀.calls hbelow
  · exact h₀.asked hbody hq
  · exact (hbody k hP).asked hbody hq

theorem Keeps.askedBy {t : Asks K R Q A} {q : Q} (ht : t.Keeps o P S T)
    (h : AskedBy o body t q) : T q := by
  obtain hq | ⟨k, hk, hq⟩ := h
  · exact ht.asked hbody hq
  · have hP := Calls.Keeps.of_comes (fun k hk => (hbody k hk).calls) hk ht.calls
    exact (hbody k hP).askedIn hbody hq

end Keeps

end Asks
