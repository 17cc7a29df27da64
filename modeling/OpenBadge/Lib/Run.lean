import Mathlib.Data.List.Basic

/-!
# Runs of a step function

A machine is a total step function over its states and the actions of its
environment. A property that every step keeps holds after every run, and a
condition on the steps is carried along the run.
-/

namespace OpenBadge.Lib

variable {σ α : Type}

/-- The state after the actions `as`, taken from left to right. -/
def run (step : σ → α → σ) (s : σ) (as : List α) : σ := as.foldl step s

/-- Every action of the run meets `C` in the state in which it is taken. -/
def Along (step : σ → α → σ) (C : σ → α → Prop) : σ → List α → Prop
  | _, [] => True
  | s, a :: as => C s a ∧ Along step C (step s a) as

instance Along.decidable (step : σ → α → σ) (C : σ → α → Prop) [∀ s a, Decidable (C s a)] :
    ∀ s as, Decidable (Along step C s as)
  | _, [] => .isTrue trivial
  | s, a :: as =>
    have := Along.decidable step C (step s a) as
    inferInstanceAs (Decidable (C s a ∧ Along step C (step s a) as))

variable {step : σ → α → σ} {C D : σ → α → Prop} {I : σ → Prop} {s : σ}

@[simp] theorem run_nil : run step s [] = s := rfl

@[simp] theorem run_cons (a : α) (as : List α) :
    run step s (a :: as) = run step (step s a) as := rfl

theorem Along.of_forall (h : ∀ s a, C s a) (as : List α) : Along step C s as := by
  induction as generalizing s with
  | nil => trivial
  | cons a as ih => exact ⟨h s a, ih⟩

theorem Along.mono {as : List α} (h : ∀ s a, C s a → D s a) (hc : Along step C s as) :
    Along step D s as := by
  induction as generalizing s with
  | nil => trivial
  | cons a as ih => exact ⟨h s a hc.1, ih hc.2⟩

theorem Along.and {as : List α} (hc : Along step C s as) (hd : Along step D s as) :
    Along step (fun s a => C s a ∧ D s a) s as := by
  induction as generalizing s with
  | nil => trivial
  | cons a as ih => exact ⟨⟨hc.1, hd.1⟩, ih hc.2 hd.2⟩

theorem along_append (as bs : List α) :
    Along step C s (as ++ bs) ↔ Along step C s as ∧ Along step C (run step s as) bs := by
  induction as generalizing s with
  | nil => simp [Along]
  | cons a as ih => simp [Along, ih, and_assoc]

/-- The invariant rule: what every step keeps under `C` holds after every run along `C`. -/
theorem run_invariant (h : ∀ s a, I s → C s a → I (step s a)) (hs : I s) {as : List α}
    (hc : Along step C s as) : I (run step s as) := by
  induction as generalizing s with
  | nil => exact hs
  | cons a as ih => exact ih (h s a hs hc.1) hc.2

/-- An invariant may be used to discharge the condition of another one. -/
theorem Along.strengthen {as : List α} (h : ∀ s a, I s → C s a → I (step s a)) (hs : I s)
    (hc : Along step C s as) : Along step (fun s a => I s ∧ C s a) s as := by
  induction as generalizing s with
  | nil => trivial
  | cons a as ih => exact ⟨⟨hs, hc.1⟩, ih (h s a hs hc.1) hc.2⟩

/-- Conditions that agree in the states of an invariant agree along every run, here of
actions with `P`. -/
theorem along_congr_of_mem {P : α → Prop} (h : ∀ s a, I s → P a → (C s a ↔ D s a))
    (hstep : ∀ s a, I s → P a → C s a → I (step s a)) (hs : I s) {as : List α}
    (has : ∀ a ∈ as, P a) : Along step C s as ↔ Along step D s as := by
  induction as generalizing s with
  | nil => exact Iff.rfl
  | cons a as ih =>
    have ha := has a (List.mem_cons_self ..)
    have has' : ∀ b ∈ as, P b := fun b hb => has b (List.mem_cons_of_mem _ hb)
    constructor
    · intro hc
      exact ⟨(h s a hs ha).mp hc.1, (ih (hstep s a hs ha hc.1) has').mp hc.2⟩
    · intro hd
      have hc := (h s a hs ha).mpr hd.1
      exact ⟨hc, (ih (hstep s a hs ha hc) has').mpr hd.2⟩

theorem along_congr (h : ∀ s a, I s → (C s a ↔ D s a)) (hstep : ∀ s a, I s → C s a → I (step s a))
    (hs : I s) (as : List α) : Along step C s as ↔ Along step D s as :=
  along_congr_of_mem (P := fun _ => True) (fun s a hs _ => h s a hs)
    (fun s a hs _ => hstep s a hs) hs fun _ _ => trivial

/-- Whatever actions with `A` are taken, a state with `P` is reached. -/
inductive Inevitable (step : σ → α → σ) (A : α → Prop) (P : σ → Prop) : σ → Prop
  | now {s : σ} (h : P s) : Inevitable step A P s
  | later {s : σ} (h : ∀ a, A a → Inevitable step A P (step s a)) : Inevitable step A P s

variable {A : α → Prop} {P Q : σ → Prop}

theorem Inevitable.trans (h : Inevitable step A P s)
    (hq : ∀ s, P s → Inevitable step A Q s) : Inevitable step A Q s := by
  induction h with
  | now h => exact hq _ h
  | later _ ih => exact .later ih

theorem Inevitable.mono (h : Inevitable step A P s) (hq : ∀ s, P s → Q s) :
    Inevitable step A Q s := h.trans fun s hs => .now (hq s hs)

/-- Along every infinite sequence of actions with `A`, after finitely many of them. -/
theorem Inevitable.exists_run (h : Inevitable step A P s) (f : Nat → α) (hf : ∀ i, A (f i)) :
    ∃ n, P (run step s ((List.range n).map f)) := by
  induction h generalizing f with
  | now h => exact ⟨0, h⟩
  | later _ ih =>
    obtain ⟨n, hn⟩ := ih (f 0) (hf 0) (fun i => f (i + 1)) fun i => hf (i + 1)
    refine ⟨n + 1, ?_⟩
    rw [List.range_succ_eq_map, List.map_cons, List.map_map]
    exact hn

/-! ## Machines that answer -/

section Answers

variable {τ ρ : Type}

/-- The answers to the calls `as`, and the state they leave. -/
def answers (serve : σ → α → ρ × σ) : σ → List α → List ρ × σ
  | s, [] => ([], s)
  | s, a :: as =>
    ((serve s a).1 :: (answers serve (serve s a).2 as).1, (answers serve (serve s a).2 as).2)

/-- What answers every single call in the same way answers all of them in the same way. -/
theorem answers_refine {serve : σ → α → ρ × σ} {spec : τ → α → ρ × τ} {R : σ → τ → Prop}
    (h : ∀ s t a, R s t → (serve s a).1 = (spec t a).1 ∧ R (serve s a).2 (spec t a).2)
    {t : τ} (hR : R s t) (as : List α) :
    (answers serve s as).1 = (answers spec t as).1 ∧
      R (answers serve s as).2 (answers spec t as).2 := by
  induction as generalizing s t with
  | nil => exact ⟨rfl, hR⟩
  | cons a as ih =>
    obtain ⟨hanswer, hnext⟩ := h s t a hR
    obtain ⟨hanswers, hlast⟩ := ih hnext
    refine ⟨?_, hlast⟩
    rw [answers, answers, hanswer, hanswers]

end Answers

end OpenBadge.Lib
