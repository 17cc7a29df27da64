import Mathlib.Logic.Relation
import OpenBadge.Lib.Proc

/-!
# Programs that can be interrupted

A program is a procedure that is taken step by step, so that others may work on the state
between two of its steps. Each step carries a label that says what it does to those who
look on. `Program.Safe` is the proof outline of a program among others: what they do is
a relation, and every step of the program itself meets a guarantee.
-/

namespace OpenBadge.Lib

/-- A program has ended, or it does one step on the state and goes on as the state before
the step tells it. -/
inductive Program (Λ σ ε α : Type) : Type where
  | done (r : Except ε α)
  | step (label : Λ) (x : σ → σ) (k : σ → Program Λ σ ε α)

namespace Program

variable {Λ σ ε α β : Type}

def bind : Program Λ σ ε α → (α → Program Λ σ ε β) → Program Λ σ ε β
  | done (.ok a), f => f a
  | done (.error e), _ => done (.error e)
  | step label x k, f => step label x fun s => bind (k s) f

instance : Monad (Program Λ σ ε) where
  pure a := done (.ok a)
  bind := bind

/-- A procedure as one step. -/
def call (label : Λ) (x : Proc σ ε α) : Program Λ σ ε α :=
  step label (fun s => (x s).2) fun s => done (x s).1

/-- `if(p) x; else y;` in the middle of a function. -/
def branch (p : Prop) [Decidable p] (x y : Program Λ σ ε α) : Program Λ σ ε α := if p then x else y

/-- `if(p) x;` -/
def when (p : Prop) [Decidable p] (x : Program Λ σ ε Unit) : Program Λ σ ε Unit :=
  branch p x (pure ())

/-- Run `x` and hand its result, success or error, to the caller. -/
def attempt : Program Λ σ ε α → Program Λ σ ε (Except ε α)
  | done r => done (.ok r)
  | step label x k => step label x fun s => attempt (k s)

/-- The program without an interruption. -/
def run : Program Λ σ ε α → Proc σ ε α
  | done r => fun s => (r, s)
  | step _ x k => fun s => run (k s) (x s)

/-- The labels of an uninterrupted run with the states in which their steps begin. -/
def visits : Program Λ σ ε α → σ → List (Λ × σ)
  | done _, _ => []
  | step label x k, s => (label, s) :: visits (k s) (x s)

/-- The labels of an uninterrupted run, the newest first, in front of those before it. -/
def labels : Program Λ σ ε α → σ → List Λ → List Λ
  | done _, _, before => before
  | step label x k, s, before => labels (k s) (x s) (label :: before)

def Done : Program Λ σ ε α → Bool
  | done _ => true
  | step .. => false

/-! ## Uninterrupted runs -/

theorem when_pos {p : Prop} [Decidable p] (h : p) (x : Program Λ σ ε Unit) : when p x = x := if_pos h

theorem when_neg {p : Prop} [Decidable p] (h : ¬ p) (x : Program Λ σ ε Unit) :
    when p x = pure () := if_neg h

@[simp] theorem run_pure (a : α) : (pure a : Program Λ σ ε α).run = pure a := rfl

@[simp] theorem run_call (label : Λ) (x : Proc σ ε α) : (call label x).run = x := rfl

@[simp] theorem run_bind (x : Program Λ σ ε α) (f : α → Program Λ σ ε β) :
    (x >>= f).run = x.run >>= fun a => (f a).run := by
  funext s
  induction x generalizing s with
  | done r =>
    cases r with
    | ok a => rfl
    | error e => rfl
  | step label x k ih => exact ih s (x s)

@[simp] theorem run_branch (p : Prop) [Decidable p] (x y : Program Λ σ ε α) :
    (branch p x y).run = Proc.branch p x.run y.run := apply_ite run p x y

@[simp] theorem run_when (p : Prop) [Decidable p] (x : Program Λ σ ε Unit) :
    (when p x).run = Proc.when p x.run := run_branch p x (pure ())

@[simp] theorem run_attempt (x : Program Λ σ ε α) : x.attempt.run = Proc.attempt x.run := by
  funext s
  induction x generalizing s with
  | done r => rfl
  | step label x k ih => exact ih s (x s)

/-! ## Programs among others -/

/-- `others` is what may happen between two steps, `guarantee` what a step with a label does
to the state, and `failure` what holds of a state in which the program returns an error. -/
structure Rules (Λ σ : Type) where
  others : σ → σ → Prop
  guarantee : Λ → σ → σ → Prop
  failure : σ → Prop

variable (R : Rules Λ σ)

/-- What the others do not make false. -/
def Stable (P : σ → Prop) : Prop := ∀ s t, R.others s t → P s → P t

/-- Whatever the others do, every step of the program from now on meets the guarantee, and
when it ends, then in a state with `Q`, or with `failure`. -/
def Safe : Program Λ σ ε α → (α → σ → Prop) → σ → Prop
  | done (.ok a), Q, s => ∀ t, Relation.ReflTransGen R.others s t → Q a t
  | done (.error _), _, s => ∀ t, Relation.ReflTransGen R.others s t → R.failure t
  | step label x k, Q, s => ∀ t, Relation.ReflTransGen R.others s t →
      R.guarantee label t (x t) ∧ Safe (k t) Q (x t)

/-- The triple of a program with what holds before and after it. -/
def Triple (P : σ → Prop) (x : Program Λ σ ε α) (Q : α → σ → Prop) : Prop :=
  ∀ s, P s → Safe R x Q s

variable {R} {P P' : σ → Prop} {Q Q' : α → σ → Prop}

theorem Stable.trans (h : Stable R P) {s t : σ} (hs : Relation.ReflTransGen R.others s t)
    (hP : P s) : P t := by
  induction hs with
  | refl => exact hP
  | tail _ hstep ih => exact h _ _ hstep ih

theorem Stable.and (h : Stable R P) (h' : Stable R P') : Stable R fun s => P s ∧ P' s :=
  fun s t hst hs => ⟨h s t hst hs.1, h' s t hst hs.2⟩

/-- A program that is safe stays so when the others do something. -/
theorem Safe.interfere {x : Program Λ σ ε α} {s t : σ} (h : Safe R x Q s) (hst : R.others s t) :
    Safe R x Q t := by
  have hfrom : ∀ u, Relation.ReflTransGen R.others t u → Relation.ReflTransGen R.others s u :=
    fun u hu => .head hst hu
  cases x with
  | done r =>
    cases r with
    | ok a => exact fun u hu => h u (hfrom u hu)
    | error e => exact fun u hu => h u (hfrom u hu)
  | step label x k => exact fun u hu => h u (hfrom u hu)

theorem Safe.mono {x : Program Λ σ ε α} {s : σ} (h : Safe R x Q s) (hQ : ∀ a s, Q a s → Q' a s) :
    Safe R x Q' s := by
  induction x generalizing s with
  | done r =>
    cases r with
    | ok a => exact fun t ht => hQ a t (h t ht)
    | error e => exact h
  | step label x k ih => exact fun t ht => ⟨(h t ht).1, ih t (h t ht).2⟩

theorem Safe.bind {x : Program Λ σ ε α} {f : α → Program Λ σ ε β} {Q : β → σ → Prop} {s : σ}
    (h : Safe R x (fun a => Safe R (f a) Q) s) : Safe R (x >>= f) Q s := by
  induction x generalizing s with
  | done r =>
    cases r with
    | ok a => exact h s .refl
    | error e => exact h
  | step label x k ih => exact fun t ht => ⟨(h t ht).1, ih t (h t ht).2⟩

theorem Safe.attempt {x : Program Λ σ ε α} {Q : σ → Prop} {s : σ}
    (hfailure : ∀ t, R.failure t → Q t) (h : Safe R x (fun _ => Q) s) :
    Safe R x.attempt (fun _ => Q) s := by
  induction x generalizing s with
  | done r =>
    cases r with
    | ok a => exact h
    | error e => exact fun t ht => hfailure t (h t ht)
  | step label x k ih => exact fun t ht => ⟨(h t ht).1, ih t (h t ht).2⟩

/-- Where a run without an interruption ends. -/
theorem Safe.run {x : Program Λ σ ε Unit} {Q : σ → Prop} {s : σ} (h : Safe R x (fun _ => Q) s)
    (hfail : ∀ t, R.failure t → Q t) : Q (x.run s).2 := by
  induction x generalizing s with
  | done r =>
    cases r with
    | ok a => exact h s .refl
    | error e => exact hfail s (h s .refl)
  | step label x k ih => exact ih s (h s .refl).2

/-- What every step carries along with the labels so far. -/
theorem Safe.labels {H : List Λ → σ → Prop}
    (hH : ∀ before label s t, R.guarantee label s t → H before s → H (label :: before) t)
    {x : Program Λ σ ε α} {s : σ} (h : Safe R x Q s) {before : List Λ} (hs : H before s) :
    H (x.labels s before) (x.run s).2 := by
  induction x generalizing s before with
  | done r => exact hs
  | step label x k ih =>
    obtain ⟨hstep, hrest⟩ := h s .refl
    exact ih s hrest (hH before label s (x s) hstep hs)

/-- Every step of an uninterrupted run meets the guarantee. -/
theorem Safe.visits {x : Program Λ σ ε α} {s : σ} (h : Safe R x Q s) :
    ∀ v ∈ x.visits s, ∃ t, R.guarantee v.1 v.2 t := by
  induction x generalizing s with
  | done r => nofun
  | step label x k ih =>
    obtain ⟨hstep, hrest⟩ := h s .refl
    intro v hv
    rcases List.mem_cons.mp hv with rfl | hv
    · exact ⟨x s, hstep⟩
    · exact ih s hrest v hv

/-! ## Rules -/

theorem Triple.pure {Q : α → σ → Prop} (a : α) (hQ : Stable R (Q a)) :
    Triple R (Q a) (pure a : Program Λ σ ε α) Q := fun _ hs _ ht => hQ.trans ht hs

theorem Triple.weaken {x : Program Λ σ ε α} (h : Triple R P x Q) (hP : ∀ s, P' s → P s)
    (hQ : ∀ a s, Q a s → Q' a s) : Triple R P' x Q' := fun s hs => (h s (hP s hs)).mono hQ

theorem Triple.bind {x : Program Λ σ ε α} {f : α → Program Λ σ ε β} {S : β → σ → Prop}
    (hx : Triple R P x Q) (hf : ∀ a, Triple R (Q a) (f a) S) : Triple R P (x >>= f) S :=
  fun s hs => ((hx s hs).mono hf).bind

/-- A fact about the values so far, which the state does not change. -/
theorem Triple.of_fact {p : Prop} {x : Program Λ σ ε α} (h : p → Triple R P x Q) :
    Triple R (fun s => p ∧ P s) x Q := fun s hs => h hs.1 s hs.2

/-- A procedure as one step: it meets the guarantee and leaves what is stable. -/
theorem Triple.call {x : Proc σ ε α} {label : Λ} (hP : Stable R P)
    (hQ : ∀ a, Stable R (Q a)) (hfailure : Stable R R.failure)
    (hx : ∀ s, P s → R.guarantee label s (x s).2 ∧
      match (x s).1 with
      | .ok a => Q a (x s).2
      | .error _ => R.failure (x s).2) : Triple R P (call label x) Q := by
  intro s hs t ht
  obtain ⟨hstep, hend⟩ := hx t (hP.trans ht hs)
  have hdone : Safe R (done (x t).1) Q (x t).2 := by
    cases hr : (x t).1 with
    | ok a =>
      rw [hr] at hend
      exact fun u hu => (hQ a).trans hu hend
    | error e =>
      rw [hr] at hend
      exact fun u hu => hfailure.trans hu hend
  exact ⟨hstep, hdone⟩

theorem Triple.attempt {x : Program Λ σ ε α} {Q : σ → Prop} (h : Triple R P x fun _ => Q)
    (hfailure : ∀ t, R.failure t → Q t) : Triple R P x.attempt fun _ => Q :=
  fun s hs => (h s hs).attempt hfailure

theorem Triple.when {p : Prop} [Decidable p] {x : Program Λ σ ε Unit} {Q : σ → Prop}
    (hx : p → Triple R P x fun _ => Q) (hQ : Stable R Q) (h : ∀ s, ¬ p → P s → Q s) :
    Triple R P (when p x) fun _ => Q := by
  rw [Program.when, Program.branch]
  split
  · next hp => exact hx hp
  · next hp => exact fun s hs => Triple.pure (Q := fun _ => Q) () hQ s (h s hp hs)

end Program

end OpenBadge.Lib
