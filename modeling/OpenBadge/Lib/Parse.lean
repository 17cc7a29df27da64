import OpenBadge.Lib.Proc
import Mathlib.Data.List.Basic

/-!
# Parsers of self-delimiting words

A parser is a procedure on the input that is left. `Parses x w P` says that `x`
accepts exactly the inputs that begin with the word `w a` of a value `a` with `P`,
returns that value and leaves the rest.
-/

namespace OpenBadge.Lib

variable {τ ε α β γ : Type}

structure Parses (x : Proc (List τ) ε α) (w : α → List τ) (P : α → Prop) : Prop where
  sound : ∀ {b a r}, x b = (.ok a, r) → P a ∧ b = w a ++ r
  complete : ∀ {a} r, P a → x (w a ++ r) = (.ok a, r)

namespace Parses

variable {x : Proc (List τ) ε α} {w : α → List τ} {P : α → Prop}

/-- No word of a value is a proper prefix of another one, and the word determines the
value. -/
theorem unique (h : Parses x w P) {a a' : α} {r r' : List τ} (ha : P a) (ha' : P a')
    (heq : w a ++ r = w a' ++ r') : a = a' ∧ r = r' := by
  have hx := h.complete r ha
  rw [heq, h.complete r' ha'] at hx
  simp only [Prod.mk.injEq, Except.ok.injEq] at hx
  exact ⟨hx.1.symm, hx.2.symm⟩

theorem congr {w' : α → List τ} {P' : α → Prop} (h : Parses x w P) (hP : ∀ a, P' a ↔ P a)
    (hw : ∀ a, P a → w' a = w a) : Parses x w' P' where
  sound hx := by
    obtain ⟨ha, hb⟩ := h.sound hx
    exact ⟨(hP _).mpr ha, by rw [hw _ ha]; exact hb⟩
  complete r ha := by
    have ha := (hP _).mp ha
    rw [hw _ ha]
    exact h.complete r ha

theorem pure (a : α) : Parses (pure a : Proc (List τ) ε α) (fun _ => []) fun a' => a' = a where
  sound hx := by
    simp only [Proc.pure_apply, Prod.mk.injEq, Except.ok.injEq] at hx
    exact ⟨hx.1.symm, hx.2⟩
  complete r ha := by
    rw [ha]
    rfl

/-- A parser for the head of a value and one for the rest of a value with that head. -/
theorem bind {f : α → Proc (List τ) ε γ} {v : γ → List τ} {Q : γ → Prop} (h : Parses x w P)
    (p : γ → α) (hf : ∀ a, P a → Parses (f a) v fun c => p c = a ∧ Q c) :
    Parses (x >>= f) (fun c => w (p c) ++ v c) fun c => P (p c) ∧ Q c where
  sound hx := by
    obtain ⟨a, t, hxa, hfa⟩ := Proc.bind_eq_ok.mp hx
    obtain ⟨ha, rfl⟩ := h.sound hxa
    obtain ⟨⟨rfl, hq⟩, rfl⟩ := (hf a ha).sound hfa
    exact ⟨⟨ha, hq⟩, (List.append_assoc ..).symm⟩
  complete r hc := by
    rw [List.append_assoc, Proc.bind_ok (h.complete _ hc.1)]
    exact (hf _ hc.1).complete r ⟨rfl, hc.2⟩

/-- The values of a parser under another name. -/
theorem map {g : α → β} {w' : β → List τ} {Q : β → Prop} (h : Parses x w P)
    (hQ : ∀ b, Q b ↔ ∃ a, P a ∧ g a = b) (hw : ∀ a, P a → w' (g a) = w a) :
    Parses (x >>= fun a => Pure.pure (g a)) w' Q where
  sound hx := by
    obtain ⟨a, t, hxa, hga⟩ := Proc.bind_eq_ok.mp hx
    obtain ⟨ha, rfl⟩ := h.sound hxa
    simp only [Proc.pure_apply, Prod.mk.injEq, Except.ok.injEq] at hga
    obtain ⟨rfl, rfl⟩ := hga
    exact ⟨(hQ _).mpr ⟨a, ha, rfl⟩, by rw [hw a ha]⟩
  complete r hb := by
    obtain ⟨a, ha, rfl⟩ := (hQ _).mp hb
    rw [hw a ha, Proc.bind_ok (h.complete r ha)]
    rfl

/-- The second half of a pair whose first half has been read. -/
theorem pair (h : Parses x w P) (b : β) : Parses (x >>= fun a => Pure.pure (b, a))
    (fun c => w c.2) fun c => c.1 = b ∧ P c.2 :=
  h.map (fun c => ⟨fun hc => ⟨c.2, hc.2, Prod.ext hc.1.symm rfl⟩, by
    rintro ⟨a, ha, rfl⟩
    exact ⟨rfl, ha⟩⟩) fun _ _ => rfl

end Parses

/-- `for i in range(0, n): l.append(x())` -/
def times : Nat → Proc (List τ) ε α → Proc (List τ) ε (List α)
  | 0, _ => pure []
  | n + 1, x => do
    let l ← times n x
    let a ← x
    pure (l ++ [a])

theorem Parses.times {x : Proc (List τ) ε α} {w : α → List τ} {P : α → Prop} (h : Parses x w P) :
    ∀ n, Parses (Lib.times n x) (fun l => l.flatMap w) fun l => l.length = n ∧ ∀ a ∈ l, P a
  | 0 => by
    refine (Parses.pure []).congr (fun l => ?_) fun l hl => by rw [hl]; rfl
    constructor
    · exact fun hl => List.eq_nil_of_length_eq_zero hl.1
    · rintro rfl
      exact ⟨rfl, fun _ ha => nomatch ha⟩
  | n + 1 => by
    have ih := h.times n
    constructor
    · intro b l r hx
      obtain ⟨l', t, hl', hx⟩ := Proc.bind_eq_ok.mp hx
      obtain ⟨a, t', ha, hx⟩ := Proc.bind_eq_ok.mp hx
      simp only [Proc.pure_apply, Prod.mk.injEq, Except.ok.injEq] at hx
      obtain ⟨rfl, rfl⟩ := hx
      obtain ⟨⟨hlen, hall⟩, rfl⟩ := ih.sound hl'
      obtain ⟨hpa, rfl⟩ := h.sound ha
      refine ⟨⟨by simp [hlen], fun c hc => ?_⟩, by simp⟩
      rcases List.mem_append.mp hc with hc | hc
      · exact hall c hc
      · rw [List.mem_singleton.mp hc]
        exact hpa
    · intro l r ⟨hlen, hall⟩
      obtain ⟨l', a, rfl⟩ : ∃ l' a, l = l' ++ [a] := by
        have hne : l ≠ [] := List.ne_nil_of_length_pos (by omega)
        exact ⟨l.dropLast, l.getLast hne, (List.dropLast_append_getLast hne).symm⟩
      have hl' : l'.length = n ∧ ∀ c ∈ l', P c :=
        ⟨by simpa using hlen, fun c hc => hall c (List.mem_append_left _ hc)⟩
      have ha : P a := hall a (List.mem_append_right _ (List.mem_singleton_self a))
      unfold Lib.times
      rw [List.flatMap_append, List.flatMap_singleton, List.append_assoc,
        Proc.bind_ok (ih.complete _ hl'), Proc.bind_ok (h.complete _ ha)]
      rfl

end OpenBadge.Lib
