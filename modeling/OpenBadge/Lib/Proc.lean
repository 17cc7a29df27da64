import Mathlib.Logic.Basic

/-!
# Procedures that return an error code

`Proc σ ε α` is a computation over a state `σ` that ends in a value or in an
error code. The state reached at the point of failure is kept, as it is by a C
function that returns early.
-/

namespace OpenBadge.Lib

def Proc (σ ε α : Type) : Type := σ → Except ε α × σ

namespace Proc

variable {σ ε α β : Type}

instance : Monad (Proc σ ε) where
  pure a := fun s => (.ok a, s)
  bind x f := fun s =>
    match x s with
    | (.ok a, t) => f a t
    | (.error e, t) => (.error e, t)

/-- `return code;` with the state as it is. -/
def fail (e : ε) : Proc σ ε α := fun s => (.error e, s)

/-- `if(p) return e;` -/
def failIf (p : Prop) [Decidable p] (e : ε) : Proc σ ε Unit :=
  fun s => if p then (.error e, s) else (.ok (), s)

/-- `if(p) x; else y;` in the middle of a function. -/
def branch (p : Prop) [Decidable p] (x y : Proc σ ε α) : Proc σ ε α := if p then x else y

/-- `if(p) x;` -/
def when (p : Prop) [Decidable p] (x : Proc σ ε Unit) : Proc σ ε Unit := branch p x (pure ())

def get : Proc σ ε σ := fun s => (.ok s, s)

def modify (f : σ → σ) : Proc σ ε Unit := fun s => (.ok (), f s)

/-- Run `x` and hand its result, success or error, to the caller. -/
def attempt (x : Proc σ ε α) : Proc σ ε (Except ε α) :=
  fun s => (.ok (x s).1, (x s).2)

/-- `if(ret != SUCCESS) return e;` -/
def orFail (x : Proc σ ε α) (e : ε) : Proc σ ε α := fun s =>
  match x s with
  | (.ok a, t) => (.ok a, t)
  | (.error _, t) => (.error e, t)

/-- A procedure on a part of the state. -/
def within {τ : Type} (part : σ → τ) (put : σ → τ → σ) (x : Proc τ ε α) : Proc σ ε α :=
  fun s => ((x (part s)).1, put s (x (part s)).2)

/-- `for(i = 0; i < n; i++) f(i);`, stopping at the first error. -/
def forUpTo : Nat → (Nat → Proc σ ε Unit) → Proc σ ε Unit
  | 0, _ => pure ()
  | n + 1, f => do forUpTo n f; f n

/-- The same loop with the lists of its passes joined. -/
def collectUpTo : Nat → (Nat → Proc σ ε (List α)) → Proc σ ε (List α)
  | 0, _ => pure []
  | n + 1, f => do
    let xs ← collectUpTo n f
    let ys ← f n
    pure (xs ++ ys)

@[simp] theorem pure_apply (a : α) (s : σ) : (pure a : Proc σ ε α) s = (.ok a, s) := rfl

@[simp] theorem fail_apply (e : ε) (s : σ) : (fail e : Proc σ ε α) s = (.error e, s) := rfl

@[simp] theorem get_apply (s : σ) : (get : Proc σ ε σ) s = (.ok s, s) := rfl

@[simp] theorem modify_apply (f : σ → σ) (s : σ) :
    (modify f : Proc σ ε Unit) s = (.ok (), f s) := rfl

@[simp] theorem attempt_apply (x : Proc σ ε α) (s : σ) :
    attempt x s = (.ok (x s).1, (x s).2) := rfl

theorem bind_apply (x : Proc σ ε α) (f : α → Proc σ ε β) (s : σ) :
    (x >>= f) s = match x s with
      | (.ok a, t) => f a t
      | (.error e, t) => (.error e, t) := rfl

theorem bind_ok {x : Proc σ ε α} {s t : σ} {a : α} (h : x s = (.ok a, t))
    (f : α → Proc σ ε β) : (x >>= f) s = f a t := by
  rw [bind_apply, h]

theorem bind_error {x : Proc σ ε α} {s t : σ} {e : ε} (h : x s = (.error e, t))
    (f : α → Proc σ ε β) : (x >>= f) s = (.error e, t) := by
  rw [bind_apply, h]

@[simp] theorem pure_bind_apply (a : α) (f : α → Proc σ ε β) (s : σ) :
    ((pure a : Proc σ ε α) >>= f) s = f a s := rfl

@[simp] theorem get_bind_apply (f : σ → Proc σ ε β) (s : σ) :
    ((get : Proc σ ε σ) >>= f) s = f s s := rfl

@[simp] theorem modify_bind_apply (g : σ → σ) (f : Unit → Proc σ ε β) (s : σ) :
    ((modify g : Proc σ ε Unit) >>= f) s = f () (g s) := rfl

@[simp] theorem attempt_bind_apply (x : Proc σ ε α) (f : Except ε α → Proc σ ε β) (s : σ) :
    (attempt x >>= f) s = f (x s).1 (x s).2 := rfl

theorem failIf_neg {p : Prop} [Decidable p] (h : ¬ p) (e : ε) (s : σ) :
    failIf p e s = (.ok (), s) := if_neg h

theorem failIf_pos {p : Prop} [Decidable p] (h : p) (e : ε) (s : σ) :
    failIf p e s = (.error e, s) := if_pos h

theorem failIf_congr {p q : Prop} [Decidable p] [Decidable q] (h : p ↔ q) (e : ε) :
    (failIf p e : Proc σ ε Unit) = failIf q e := by
  funext s
  by_cases hp : p
  · rw [failIf_pos hp, failIf_pos (h.mp hp)]
  · rw [failIf_neg hp, failIf_neg (mt h.mpr hp)]

theorem failIf_bind_neg {p : Prop} [Decidable p] (h : ¬ p) (e : ε) (f : Unit → Proc σ ε β)
    (s : σ) : (failIf p e >>= f) s = f () s := bind_ok (failIf_neg h e s) f

theorem failIf_bind_pos {p : Prop} [Decidable p] (h : p) (e : ε) (f : Unit → Proc σ ε β)
    (s : σ) : (failIf p e >>= f) s = (.error e, s) := bind_error (failIf_pos h e s) f

theorem branch_pos {p : Prop} [Decidable p] (h : p) (x y : Proc σ ε α) : branch p x y = x :=
  if_pos h

theorem branch_neg {p : Prop} [Decidable p] (h : ¬ p) (x y : Proc σ ε α) : branch p x y = y :=
  if_neg h

theorem when_pos {p : Prop} [Decidable p] (h : p) (x : Proc σ ε Unit) : when p x = x := if_pos h

theorem when_neg {p : Prop} [Decidable p] (h : ¬ p) (x : Proc σ ε Unit) :
    when p x = pure () := if_neg h

theorem orFail_ok {x : Proc σ ε α} {s t : σ} {a : α} (h : x s = (.ok a, t)) (e : ε) :
    orFail x e s = (.ok a, t) := by
  rw [orFail, h]

theorem orFail_error {x : Proc σ ε α} {s t : σ} {e' : ε} (h : x s = (.error e', t)) (e : ε) :
    orFail x e s = (.error e, t) := by
  rw [orFail, h]

@[simp] theorem orFail_snd (x : Proc σ ε α) (e : ε) (s : σ) : (orFail x e s).2 = (x s).2 := by
  unfold orFail
  rcases x s with ⟨_ | a, t⟩ <;> rfl

theorem bind_assoc {γ : Type} (x : Proc σ ε α) (f : α → Proc σ ε β) (g : β → Proc σ ε γ) :
    ((x >>= f) >>= g) = (x >>= fun a => f a >>= g) := by
  funext s
  simp only [bind_apply]
  rcases x s with ⟨_ | a, t⟩ <;> rfl

theorem bind_pure (x : Proc σ ε Unit) : (x >>= fun _ => pure ()) = x := by
  funext s
  rw [bind_apply]
  rcases x s with ⟨_ | a, t⟩ <;> rfl

theorem eq_of_fst {x : Proc σ ε α} {s : σ} {r : Except ε α} (h : (x s).1 = r) :
    x s = (r, (x s).2) := Prod.ext h rfl

/-- Success of a sequence is success of both parts. -/
theorem bind_eq_ok {x : Proc σ ε α} {f : α → Proc σ ε β} {s u : σ} {b : β} :
    (x >>= f) s = (.ok b, u) ↔ ∃ a t, x s = (.ok a, t) ∧ f a t = (.ok b, u) := by
  rw [bind_apply]
  rcases x s with ⟨_ | a, t⟩
  · simp
  · constructor
    · exact fun h => ⟨a, t, rfl, h⟩
    · rintro ⟨a', t', h, h'⟩
      cases h
      exact h'

theorem failIf_eq_ok {p : Prop} [Decidable p] {e : ε} {s t : σ} {u : Unit} :
    failIf p e s = (.ok u, t) ↔ ¬ p ∧ t = s := by
  by_cases h : p
  · rw [failIf_pos h]
    simp [h]
  · rw [failIf_neg h]
    simp [h, eq_comm]

theorem orFail_eq_ok {x : Proc σ ε α} {e : ε} {s t : σ} {a : α} :
    orFail x e s = (.ok a, t) ↔ x s = (.ok a, t) := by
  unfold orFail
  rcases x s with ⟨_ | b, u⟩ <;> simp

/-- One pass under a condition is a loop of one pass or none. -/
theorem when_forUpTo_one {p : Prop} [Decidable p] (f : Nat → Proc σ ε Unit) :
    when p (forUpTo 1 f) = forUpTo (if p then 1 else 0) f := by
  by_cases h : p
  · rw [when_pos h, if_pos h]
  · rw [when_neg h, if_neg h]
    rfl

/-- A loop whose every pass succeeds and keeps `I` ends successfully in `I n`. -/
theorem forUpTo_ok {f : Nat → Proc σ ε Unit} (I : Nat → σ → Prop) (n : Nat) {s : σ}
    (h0 : I 0 s)
    (step : ∀ i t, i < n → I i t → ∃ u, f i t = (.ok (), u) ∧ I (i + 1) u) :
    ∃ t, forUpTo n f s = (.ok (), t) ∧ I n t := by
  induction n with
  | zero => exact ⟨s, rfl, h0⟩
  | succ n ih =>
    obtain ⟨t, ht, hI⟩ := ih fun i t hi => step i t (Nat.lt_succ_of_lt hi)
    obtain ⟨u, hu, hI'⟩ := step n t (Nat.lt_succ_self n) hI
    exact ⟨u, (bind_ok ht _).trans hu, hI'⟩

/-- `x` keeps `I` whether it succeeds or fails. -/
def Keeps (I : σ → Prop) (x : Proc σ ε α) : Prop := ∀ s, I s → I (x s).2

/-- `x` on the states with an invariant that it keeps. -/
def restrict {I : σ → Prop} (x : Proc σ ε α) (h : Keeps I x) : Proc { s : σ // I s } ε α :=
  fun s => ((x s.1).1, ⟨(x s.1).2, h s.1 s.2⟩)

theorem restrict_eq {I : σ → Prop} {x : Proc σ ε α} (h : Keeps I x) {s : { s : σ // I s }}
    {ret : Except ε α} {t : σ} (hx : x s.1 = (ret, t)) : ∃ ht, x.restrict h s = (ret, ⟨t, ht⟩) := by
  have ht := h s.1 s.2
  rw [hx] at ht
  have hret : (x s.1).1 = ret := congrArg Prod.fst hx
  exact ⟨ht, Prod.ext hret (Subtype.ext (congrArg Prod.snd hx))⟩

theorem Keeps.pure (I : σ → Prop) (a : α) : Keeps I (pure a : Proc σ ε α) := fun _ hs => hs

/-- What `x` establishes is kept by the continuation. -/
theorem bind_keeps {I : σ → Prop} {x : Proc σ ε α} {f : α → Proc σ ε β} {s : σ} (hx : I (x s).2)
    (hf : ∀ a, Keeps I (f a)) : I ((x >>= f) s).2 := by
  rw [bind_apply]
  rcases hxs : x s with ⟨_ | a, t⟩
  · rw [hxs] at hx
    exact hx
  · rw [hxs] at hx
    exact hf a t hx

theorem Keeps.bind {I : σ → Prop} {x : Proc σ ε α} {f : α → Proc σ ε β} (hx : Keeps I x)
    (hf : ∀ a, Keeps I (f a)) : Keeps I (x >>= f) := fun s hs => bind_keeps (hx s hs) hf

theorem Keeps.when {I : σ → Prop} {p : Prop} [Decidable p] {x : Proc σ ε Unit}
    (hx : p → Keeps I x) : Keeps I (when p x) := by
  by_cases h : p
  · rw [when_pos h]
    exact hx h
  · rw [when_neg h]
    exact Keeps.pure I ()

theorem Keeps.fail (I : σ → Prop) (e : ε) : Keeps I (fail e : Proc σ ε α) := fun _ hs => hs

theorem Keeps.failIf (I : σ → Prop) (p : Prop) [Decidable p] (e : ε) :
    Keeps I (failIf p e : Proc σ ε Unit) := by
  intro s hs
  by_cases h : p
  · rw [failIf_pos h]
    exact hs
  · rw [failIf_neg h]
    exact hs

theorem Keeps.attempt {I : σ → Prop} {x : Proc σ ε α} (hx : Keeps I x) : Keeps I (attempt x) :=
  fun s hs => hx s hs

theorem Keeps.orFail {I : σ → Prop} {x : Proc σ ε α} (hx : Keeps I x) (e : ε) :
    Keeps I (orFail x e) := by
  intro s hs
  rw [orFail_snd]
  exact hx s hs

theorem Keeps.forUpTo {I : σ → Prop} {f : Nat → Proc σ ε Unit} {n : Nat}
    (h : ∀ i < n, Keeps I (f i)) : Keeps I (forUpTo n f) := by
  induction n with
  | zero => exact Keeps.pure I ()
  | succ n ih =>
    exact (ih fun i hi => h i (Nat.lt_succ_of_lt hi)).bind fun _ => h n (Nat.lt_succ_self n)

/-- `x` keeps `I`, and what a success returns has `Φ`. -/
def Yields (I : σ → Prop) (Φ : α → Prop) (x : Proc σ ε α) : Prop :=
  ∀ s, I s → I (x s).2 ∧ ∀ a, (x s).1 = .ok a → Φ a

variable {I : σ → Prop} {Φ : α → Prop} {Ψ : β → Prop}

theorem Keeps.yields {x : Proc σ ε α} (hx : Keeps I x) : Yields I (fun _ => True) x :=
  fun s hs => ⟨hx s hs, fun _ _ => trivial⟩

theorem Yields.keeps {x : Proc σ ε α} (hx : Yields I Φ x) : Keeps I x := fun s hs => (hx s hs).1

theorem Yields.pure {a : α} (h : Φ a) : Yields I Φ (pure a : Proc σ ε α) := by
  intro s hs
  refine ⟨hs, fun b hb => ?_⟩
  cases hb
  exact h

theorem Yields.fail (e : ε) : Yields I Φ (fail e : Proc σ ε α) :=
  fun _ hs => ⟨hs, fun _ h => (by cases h)⟩

theorem Yields.failIf (p : Prop) [Decidable p] (e : ε) :
    Yields I (fun _ => ¬ p) (failIf p e : Proc σ ε Unit) := by
  intro s hs
  refine ⟨Keeps.failIf I p e s hs, fun _ h hp => ?_⟩
  rw [failIf_pos hp] at h
  cases h

theorem Yields.bind {x : Proc σ ε α} {f : α → Proc σ ε β} (hx : Yields I Φ x)
    (hf : ∀ a, Φ a → Yields I Ψ (f a)) : Yields I Ψ (x >>= f) := by
  intro s hs
  obtain ⟨hI, hΦ⟩ := hx s hs
  rw [bind_apply]
  rcases hxs : x s with ⟨_ | a, t⟩
  · rw [hxs] at hI
    exact ⟨hI, fun _ h => (by cases h)⟩
  · rw [hxs] at hI hΦ
    exact hf a (hΦ a rfl) t hI

theorem Yields.seq {x : Proc σ ε α} {f : α → Proc σ ε β} (hx : Yields I Φ x)
    (hf : ∀ a, Φ a → Keeps I (f a)) : Keeps I (x >>= f) :=
  (hx.bind fun a ha => (hf a ha).yields).keeps

theorem Yields.attempt {x : Proc σ ε α} (hx : Yields I Φ x) :
    Yields I (fun r => ∀ a, r = .ok a → Φ a) (attempt x) := by
  intro s hs
  obtain ⟨hI, hΦ⟩ := hx s hs
  refine ⟨hI, fun r hr a ha => hΦ a ?_⟩
  cases hr
  exact ha

/-- If `x` succeeds, then in a state with `Q`. -/
def Ensures (Q : σ → Prop) (x : Proc σ ε α) : Prop := ∀ s a t, x s = (.ok a, t) → Q t

theorem Ensures.bind {Q : σ → Prop} {x : Proc σ ε α} {f : α → Proc σ ε β}
    (hf : ∀ a, Ensures Q (f a)) : Ensures Q (x >>= f) := by
  intro s b t h
  obtain ⟨a, u, -, hu⟩ := bind_eq_ok.mp h
  exact hf a u b t hu

theorem Ensures.bind_keeps {Q : σ → Prop} {x : Proc σ ε α} {f : α → Proc σ ε β}
    (hx : Ensures Q x) (hf : ∀ a, Keeps Q (f a)) : Ensures Q (x >>= f) := by
  intro s b t h
  obtain ⟨a, u, ha, hu⟩ := bind_eq_ok.mp h
  have ht := hf a u (hx s a u ha)
  rw [hu] at ht
  exact ht

/-- `x` does not fail with `e`. -/
def Spares (e : ε) (x : Proc σ ε α) : Prop := ∀ s, (x s).1 ≠ .error e

section Spares

variable {e : ε}

theorem Spares.pure (e : ε) (a : α) : Spares e (pure a : Proc σ ε α) := fun _ => nofun

theorem Spares.fail {e' : ε} (h : e' ≠ e) : Spares e (fail e' : Proc σ ε α) := by
  intro s hs
  cases hs
  exact h rfl

theorem Spares.failIf {e' : ε} (h : e' ≠ e) (p : Prop) [Decidable p] :
    Spares e (failIf p e' : Proc σ ε Unit) := by
  intro s
  by_cases hp : p
  · rw [failIf_pos hp]
    exact Spares.fail (α := Unit) h s
  · rw [failIf_neg hp]
    exact nofun

theorem Spares.bind {x : Proc σ ε α} {f : α → Proc σ ε β} (hx : Spares e x)
    (hf : ∀ a, Spares e (f a)) : Spares e (x >>= f) := by
  intro s
  rw [bind_apply]
  have hne := hx s
  rcases hxs : x s with ⟨e' | a, t⟩
  · rw [hxs] at hne
    exact fun h => hne (by cases h; rfl)
  · exact hf a t

theorem Spares.when {p : Prop} [Decidable p] {x : Proc σ ε Unit} (hx : p → Spares e x) :
    Spares e (when p x) := by
  by_cases h : p
  · rw [when_pos h]
    exact hx h
  · rw [when_neg h]
    exact Spares.pure e ()

theorem Spares.orFail {e' : ε} (h : e' ≠ e) (x : Proc σ ε α) : Spares e (orFail x e') := by
  intro s
  rcases hxs : x s with ⟨e'' | a, t⟩
  · rw [orFail_error hxs]
    exact Spares.fail (α := α) h s
  · rw [orFail_ok hxs]
    exact nofun

theorem Spares.attempt_bind {x : Proc σ ε α} {f : Except ε α → Proc σ ε β} (hx : Spares e x)
    (hf : ∀ r, r ≠ .error e → Spares e (f r)) : Spares e (attempt x >>= f) := by
  intro s
  exact hf (x s).1 (hx s) (x s).2

end Spares

end Proc

end OpenBadge.Lib
