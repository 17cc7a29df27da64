import OpenBadge.Lib.Proc

/-!
# Calls that may fail without effect

A procedure over a state together with a script that tells which of its coming calls fail.
`Quiet` connects it to the procedure without such calls. `Endures` are Hoare triples for
every script: a third postcondition holds where a call of the script's failed.
-/

namespace OpenBadge.Lib

/-- A state, and for each of the coming calls whether it fails; those behind the end of the
list do not. -/
structure Faulty (σ : Type) where
  state : σ
  faults : List Bool

namespace Proc

variable {σ ε α β : Type}

/-- A procedure without a call that may fail. -/
def sure (x : Proc σ ε α) : Proc (Faulty σ) ε α :=
  within Faulty.state (fun s t => { s with state := t }) x

/-- A call that fails with `e` and without effect if this is its turn. -/
def risky (e : ε) (x : Proc σ ε α) : Proc (Faulty σ) ε α := fun s =>
  if s.faults.head? = some true then (.error e, { s with faults := s.faults.tail })
  else ((x s.state).1, ⟨(x s.state).2, s.faults.tail⟩)

theorem sure_apply (x : Proc σ ε α) (s : Faulty σ) :
    sure x s = ((x s.state).1, { s with state := (x s.state).2 }) := rfl

theorem risky_fails {e : ε} {x : Proc σ ε α} {s : Faulty σ} (h : s.faults.head? = some true) :
    risky e x s = (.error e, { s with faults := s.faults.tail }) := if_pos h

theorem risky_passes {e : ε} {x : Proc σ ε α} {s : Faulty σ} (h : ¬ s.faults.head? = some true) :
    risky e x s = ((x s.state).1, ⟨(x s.state).2, s.faults.tail⟩) := if_neg h

/-! ## Without faults -/

/-- Without faults `x` does what `y` does. -/
def Quiet (x : Proc (Faulty σ) ε α) (y : Proc σ ε α) : Prop :=
  ∀ s, x ⟨s, []⟩ = ((y s).1, ⟨(y s).2, []⟩)

namespace Quiet

variable {x : Proc (Faulty σ) ε α} {y : Proc σ ε α}

theorem sure (y : Proc σ ε α) : Quiet (sure y) y := fun _ => rfl

theorem risky (e : ε) (y : Proc σ ε α) : Quiet (risky e y) y :=
  fun _ => risky_passes (fun h => by cases h)

theorem pure (a : α) : Quiet (pure a : Proc (Faulty σ) ε α) (pure a) := fun _ => rfl

theorem fail (e : ε) : Quiet (fail e : Proc (Faulty σ) ε α) (fail e) := fun _ => rfl

theorem failIf (p : Prop) [Decidable p] (e : ε) :
    Quiet (failIf p e : Proc (Faulty σ) ε Unit) (failIf p e) := by
  intro s
  by_cases h : p
  · rw [failIf_pos h, failIf_pos h]
  · rw [failIf_neg h, failIf_neg h]

theorem bind {f : α → Proc (Faulty σ) ε β} {g : α → Proc σ ε β} (hx : Quiet x y)
    (hf : ∀ a, Quiet (f a) (g a)) : Quiet (x >>= f) (y >>= g) := by
  intro s
  rw [bind_apply, bind_apply, hx]
  rcases y s with ⟨_ | a, t⟩
  · rfl
  · exact hf a t

theorem attempt (hx : Quiet x y) : Quiet (attempt x) (attempt y) := by
  intro s
  rw [attempt_apply, attempt_apply, hx]

theorem orFail (hx : Quiet x y) (e : ε) : Quiet (orFail x e) (orFail y e) := by
  intro s
  unfold Proc.orFail
  rw [hx]
  rcases y s with ⟨_ | a, t⟩ <;> rfl

theorem when {p : Prop} [Decidable p] {x : Proc (Faulty σ) ε Unit} {y : Proc σ ε Unit}
    (hx : Quiet x y) : Quiet (when p x) (when p y) := by
  by_cases h : p
  · rw [when_pos h, when_pos h]
    exact hx
  · rw [when_neg h, when_neg h]
    exact pure ()

theorem ite {p : Prop} [Decidable p] {x' : Proc (Faulty σ) ε α} {y' : Proc σ ε α} (hx : Quiet x y)
    (hx' : Quiet x' y') : Quiet (if p then x else x') (if p then y else y') := by
  by_cases h : p
  · rw [if_pos h, if_pos h]
    exact hx
  · rw [if_neg h, if_neg h]
    exact hx'

/-- What is kept whatever calls fail is kept without faults. -/
theorem keeps {I : σ → Prop} (hx : Quiet x y) (h : Keeps (fun s => I s.state) x) : Keeps I y := by
  intro s hs
  have hkept := h ⟨s, []⟩ hs
  rw [hx] at hkept
  exact hkept

end Quiet

theorem Keeps.sure {I : σ → Prop} {x : Proc σ ε α} (h : Keeps I x) :
    Keeps (fun s => I s.state) (sure x) := fun s hs => h s.state hs

theorem Keeps.risky {I : σ → Prop} {x : Proc σ ε α} (h : Keeps I x) (e : ε) :
    Keeps (fun s => I s.state) (risky e x) := by
  intro s hs
  by_cases hfault : s.faults.head? = some true
  · rw [risky_fails hfault]
    exact hs
  · rw [risky_passes hfault]
    exact h s.state hs

/-! ## Whatever calls fail -/

/-- From a state with `P`, `x` returns in `Q`, fails in `E`, or fails with `κ` in `F` because
one of its calls did. -/
def Endures (κ : ε) (F P : σ → Prop) (x : Proc (Faulty σ) ε α) (Q : α → σ → Prop)
    (E : ε → σ → Prop) : Prop :=
  ∀ s, P s.state → (true ∈ (x s).2.faults → true ∈ s.faults) ∧
    (∀ a, (x s).1 = .ok a → Q a (x s).2.state) ∧
    ∀ e, (x s).1 = .error e →
      E e (x s).2.state ∨ (e = κ ∧ true ∈ s.faults ∧ F (x s).2.state)

namespace Endures

variable {κ : ε} {F P : σ → Prop} {x : Proc (Faulty σ) ε α} {Q : α → σ → Prop}
  {E : ε → σ → Prop} {R : β → σ → Prop}

theorem sure {y : Proc σ ε α} (hok : ∀ s a t, P s → y s = (.ok a, t) → Q a t)
    (herror : ∀ s e t, P s → y s = (.error e, t) → E e t) : Endures κ F P (sure y) Q E := by
  intro s hs
  rw [sure_apply]
  exact ⟨id, fun a ha => hok s.state a _ hs (Prod.ext ha rfl),
    fun e he => .inl (herror s.state e _ hs (Prod.ext he rfl))⟩

theorem risky {y : Proc σ ε α} (hF : ∀ s, P s → F s)
    (hok : ∀ s a t, P s → y s = (.ok a, t) → Q a t)
    (herror : ∀ s e t, P s → y s = (.error e, t) → E e t) :
    Endures κ F P (risky κ y) Q E := by
  intro s hs
  by_cases hfault : s.faults.head? = some true
  · rw [risky_fails hfault]
    have hmem : true ∈ s.faults := List.mem_of_mem_head? hfault
    refine ⟨List.mem_of_mem_tail, fun a ha => (by cases ha), fun e he => .inr ⟨?_, hmem, hF _ hs⟩⟩
    cases he
    rfl
  · rw [risky_passes hfault]
    exact ⟨List.mem_of_mem_tail, fun a ha => hok s.state a _ hs (Prod.ext ha rfl),
      fun e he => .inl (herror s.state e _ hs (Prod.ext he rfl))⟩

theorem pure {a : α} (h : ∀ s, P s → Q a s) :
    Endures κ F P (pure a : Proc (Faulty σ) ε α) Q E := by
  refine fun s hs => ⟨id, fun b hb => ?_, fun e he => (by cases he)⟩
  cases hb
  exact h _ hs

theorem fail {e : ε} (h : ∀ s, P s → E e s) :
    Endures κ F P (fail e : Proc (Faulty σ) ε α) Q E := by
  refine fun s hs => ⟨id, fun b hb => (by cases hb), fun e' he => .inl ?_⟩
  cases he
  exact h _ hs

theorem failIf {p : Prop} [Decidable p] {e : ε} {Q : Unit → σ → Prop}
    (hpos : p → ∀ s, P s → E e s) (hneg : ¬ p → ∀ s, P s → Q () s) :
    Endures κ F P (failIf p e) Q E := by
  by_cases hp : p
  · intro s hs
    rw [failIf_pos hp]
    exact fail (α := Unit) (hpos hp) s hs
  · intro s hs
    rw [failIf_neg hp]
    exact pure (hneg hp) s hs

theorem bind {f : α → Proc (Faulty σ) ε β} (hx : Endures κ F P x Q E)
    (hf : ∀ a, Endures κ F (Q a) (f a) R E) : Endures κ F P (x >>= f) R E := by
  intro s hs
  obtain ⟨hfaults, hok, herror⟩ := hx s hs
  rw [bind_apply]
  rcases hcall : x s with ⟨e | a, t⟩
  · rw [hcall] at hfaults herror
    exact ⟨hfaults, fun b hb => (by cases hb), fun e' he => herror e' (by cases he; rfl)⟩
  · rw [hcall] at hfaults hok
    obtain ⟨hfaults', hok', herror'⟩ := hf a t (hok a rfl)
    refine ⟨fun h => hfaults (hfaults' h), hok', fun e he => ?_⟩
    rcases herror' e he with hE | ⟨rfl, hmem, hF⟩
    · exact .inl hE
    · exact .inr ⟨rfl, hfaults hmem, hF⟩

/-- A caller that hands on the error of a failed call. -/
theorem attempt_bind {E' : ε → σ → Prop} {f : Except ε α → Proc (Faulty σ) ε β}
    (hx : Endures κ F P x Q E) (hpass : f (.error κ) = Proc.fail κ)
    (hok : ∀ a, Endures κ F (Q a) (f (.ok a)) R E')
    (herror : ∀ e, Endures κ F (E e) (f (.error e)) R E') :
    Endures κ F P (attempt x >>= f) R E' := by
  intro s hs
  obtain ⟨hfaults, hQ, hE⟩ := hx s hs
  rw [attempt_bind_apply]
  rcases hcall : x s with ⟨e | a, t⟩
  · rw [hcall] at hfaults hE
    rcases hE e rfl with hE | ⟨rfl, hmem, hF⟩
    · obtain ⟨hfaults', hok', herror'⟩ := herror e t hE
      refine ⟨fun h => hfaults (hfaults' h), hok', fun e' he => ?_⟩
      rcases herror' e' he with hE' | ⟨rfl, hmem, hF⟩
      · exact .inl hE'
      · exact .inr ⟨rfl, hfaults hmem, hF⟩
    · dsimp only
      rw [hpass]
      refine ⟨hfaults, fun b hb => (by cases hb), fun e' he => .inr ⟨?_, hmem, hF⟩⟩
      cases he
      rfl
  · rw [hcall] at hfaults hQ
    obtain ⟨hfaults', hok', herror'⟩ := hok a t (hQ a rfl)
    refine ⟨fun h => hfaults (hfaults' h), hok', fun e he => ?_⟩
    rcases herror' e he with hE' | ⟨rfl, hmem, hF⟩
    · exact .inl hE'
    · exact .inr ⟨rfl, hfaults hmem, hF⟩

theorem orFail {E' : ε → σ → Prop} (hx : Endures κ F P x Q E')
    (h : ∀ e s, E' e s → E κ s) : Endures κ F P (orFail x κ) Q E := by
  intro s hs
  obtain ⟨hfaults, hQ, hE⟩ := hx s hs
  rcases hcall : x s with ⟨e | a, t⟩
  · rw [orFail_error hcall]
    rw [hcall] at hfaults hE
    refine ⟨hfaults, fun a ha => (by cases ha), fun e' he => ?_⟩
    cases he
    rcases hE e rfl with hE | ⟨rfl, hmem, hF⟩
    · exact .inl (h e _ hE)
    · exact .inr ⟨rfl, hmem, hF⟩
  · rw [orFail_ok hcall]
    rw [hcall] at hfaults hQ
    exact ⟨hfaults, hQ, fun e he => (by cases he)⟩

theorem when {p : Prop} [Decidable p] {x : Proc (Faulty σ) ε Unit} {Q : Unit → σ → Prop}
    (hpos : p → Endures κ F P x Q E) (hneg : ¬ p → ∀ s, P s → Q () s) :
    Endures κ F P (when p x) Q E := by
  by_cases hp : p
  · rw [when_pos hp]
    exact hpos hp
  · rw [when_neg hp]
    exact pure (hneg hp)

/-- What the precondition says of the arguments alone. -/
theorem assume {p : Prop} (hp : ∀ s, P s → p) (h : p → Endures κ F P x Q E) :
    Endures κ F P x Q E := fun s hs => h (hp _ hs) s hs

/-- With a name for a part of the state in which `x` begins. -/
theorem named {τ : Type} (part : σ → τ)
    (h : ∀ i, Endures κ F (fun s => P s ∧ part s = i) x Q E) : Endures κ F P x Q E :=
  fun s hs => h (part s.state) s ⟨hs, rfl⟩

theorem ite {p : Prop} [Decidable p] {y : Proc (Faulty σ) ε α} (hx : p → Endures κ F P x Q E)
    (hy : ¬ p → Endures κ F P y Q E) : Endures κ F P (if p then x else y) Q E := by
  by_cases h : p
  · rw [if_pos h]
    exact hx h
  · rw [if_neg h]
    exact hy h

theorem mono {P' : σ → Prop} {Q' : α → σ → Prop} {E' : ε → σ → Prop} (h : Endures κ F P x Q E)
    (hP : ∀ s, P' s → P s) (hQ : ∀ a s, Q a s → Q' a s) (hE : ∀ e s, E e s → E' e s) :
    Endures κ F P' x Q' E' := by
  intro s hs
  obtain ⟨hfaults, hok, herror⟩ := h s (hP _ hs)
  exact ⟨hfaults, fun a ha => hQ a _ (hok a ha), fun e he => (herror e he).imp_left (hE e _)⟩

end Endures

end Proc

end OpenBadge.Lib
