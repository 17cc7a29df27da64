import OpenBadge.Lib.Proc

/-!
# Procedures seen through a view

`Simulates I view x f` says that in states with `I` the procedure `x` succeeds, keeps
`I`, and does to the view of the state what the function `f` does. `Ignores put x` says
that `x` neither reads nor writes a part of the state. The rules follow the way
procedures are composed.
-/

namespace OpenBadge.Lib.Proc

variable {σ τ ε α β : Type}

def Simulates (I : σ → Prop) (view : σ → τ) (x : Proc σ ε α) (f : τ → τ) : Prop :=
  ∀ s, I s → ∃ a t, x s = (.ok a, t) ∧ I t ∧ view t = f (view s)

variable {I : σ → Prop} {view : σ → τ} {x : Proc σ ε α} {f g : τ → τ}

namespace Simulates

theorem pure (a : α) : Simulates I view (pure a : Proc σ ε α) id := fun s hs => ⟨a, s, rfl, hs, rfl⟩

theorem modify {h : σ → σ} (hI : ∀ s, I s → I (h s)) (hview : ∀ s, view (h s) = f (view s)) :
    Simulates I view (Proc.modify h : Proc σ ε Unit) f :=
  fun s hs => ⟨(), h s, rfl, hI s hs, hview s⟩

theorem bind {k : α → Proc σ ε β} (hx : Simulates I view x f)
    (hk : ∀ a, Simulates I view (k a) g) : Simulates I view (x >>= k) (g ∘ f) := by
  intro s hs
  obtain ⟨a, t, ha, ht, hv⟩ := hx s hs
  obtain ⟨b, u, hb, hu, hw⟩ := hk a t ht
  refine ⟨b, u, (bind_ok ha k).trans hb, hu, ?_⟩
  rw [hw, hv]
  rfl

theorem congr (hx : Simulates I view x f) (h : ∀ v, f v = g v) : Simulates I view x g := by
  intro s hs
  obtain ⟨a, t, ha, ht, hv⟩ := hx s hs
  exact ⟨a, t, ha, ht, hv.trans (h _)⟩

/-- What is done may depend on the state in which it starts. -/
theorem get_bind {k : σ → Proc σ ε β} {h : σ → τ → τ}
    (hk : ∀ s, I s → Simulates I view (k s) (h s)) (hf : ∀ s, I s → h s (view s) = f (view s)) :
    Simulates I view (Proc.get >>= k) f := by
  intro s hs
  obtain ⟨b, t, hb, ht, hv⟩ := hk s hs s hs
  exact ⟨b, t, hb, ht, hv.trans (hf s hs)⟩

theorem branch {p : Prop} [Decidable p] {x y : Proc σ ε α} (hx : p → Simulates I view x f)
    (hy : ¬ p → Simulates I view y g) : Simulates I view (branch p x y) (if p then f else g) := by
  by_cases hp : p
  · rw [branch_pos hp, if_pos hp]
    exact hx hp
  · rw [branch_neg hp, if_neg hp]
    exact hy hp

theorem when {p : Prop} [Decidable p] {x : Proc σ ε Unit} (hx : p → Simulates I view x f) :
    Simulates I view (when p x) (if p then f else id) := branch hx fun _ => pure ()

theorem attempt (hx : Simulates I view x f) : Simulates I view (attempt x) f := by
  intro s hs
  obtain ⟨a, t, ha, ht, hv⟩ := hx s hs
  exact ⟨.ok a, t, by rw [attempt_apply, ha], ht, hv⟩

theorem orFail (hx : Simulates I view x f) (e : ε) : Simulates I view (orFail x e) f := by
  intro s hs
  obtain ⟨a, t, ha, ht, hv⟩ := hx s hs
  exact ⟨a, t, orFail_ok ha e, ht, hv⟩

/-- A procedure on a part of the state, seen through a view of that part. -/
theorem within {ρ υ : Type} {J : ρ → Prop} {look : ρ → υ} {part : σ → ρ} {put : σ → ρ → σ}
    {x : Proc ρ ε α} {h : υ → υ} (hx : Simulates J look x h) (hJ : ∀ s, I s → J (part s))
    (hI : ∀ s p, I s → J p → I (put s p))
    (hf : ∀ s p, look p = h (look (part s)) → view (put s p) = f (view s)) :
    Simulates I view (Proc.within part put x) f := by
  intro s hs
  obtain ⟨a, p, ha, hp, hv⟩ := hx (part s) (hJ s hs)
  refine ⟨a, put s p, ?_, hI s p hs hp, hf s p hv⟩
  simp only [Proc.within, ha]

end Simulates

/-! ## A part of the state that is not touched -/

variable {ρ : Type}

/-- What `put c` puts into the state changes nothing for `x` and is still there afterwards. -/
def Ignores (put : ρ → σ → σ) (x : Proc σ ε α) : Prop :=
  ∀ c s, x (put c s) = ((x s).1, put c (x s).2)

namespace Ignores

variable {put : ρ → σ → σ}

theorem pure (put : ρ → σ → σ) (a : α) : Ignores put (pure a : Proc σ ε α) := fun _ _ => rfl

theorem modify {h : σ → σ} (hput : ∀ c s, h (put c s) = put c (h s)) :
    Ignores put (Proc.modify h : Proc σ ε Unit) := fun c s => congrArg (Prod.mk _) (hput c s)

theorem bind {k : α → Proc σ ε β} (hx : Ignores put x) (hk : ∀ a, Ignores put (k a)) :
    Ignores put (x >>= k) := by
  intro c s
  rw [bind_apply, hx c s, bind_apply]
  rcases x s with ⟨_ | a, t⟩
  · rfl
  · exact hk a c t

/-- What is done may depend on the rest of the state. -/
theorem get_bind {k : σ → Proc σ ε β} (hput : ∀ c s, k (put c s) = k s)
    (hk : ∀ s, Ignores put (k s)) : Ignores put (Proc.get >>= k) := by
  intro c s
  rw [get_bind_apply, hput, get_bind_apply]
  exact hk s c s

theorem branch {p : Prop} [Decidable p] {x y : Proc σ ε α} (hx : p → Ignores put x)
    (hy : ¬ p → Ignores put y) : Ignores put (branch p x y) := by
  by_cases hp : p
  · rw [branch_pos hp]
    exact hx hp
  · rw [branch_neg hp]
    exact hy hp

theorem when {p : Prop} [Decidable p] {x : Proc σ ε Unit} (hx : p → Ignores put x) :
    Ignores put (when p x) := branch hx fun _ => pure put ()

theorem attempt (hx : Ignores put x) : Ignores put (attempt x) := by
  intro c s
  rw [attempt_apply, hx c s]
  rfl

theorem within {τ : Type} {part : σ → τ} {store : σ → τ → σ} (y : Proc τ ε α)
    (hpart : ∀ c s, part (put c s) = part s)
    (hstore : ∀ c s p, store (put c s) p = put c (store s p)) :
    Ignores put (Proc.within part store y) := by
  intro c s
  simp only [Proc.within, hpart, hstore]

end Ignores

end OpenBadge.Lib.Proc
