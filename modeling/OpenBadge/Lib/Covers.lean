import Mathlib.Algebra.GroupWithZero.Nat
import OpenBadge.Lib.Proc

/-!
# Procedures that work through a range

A procedure emits pieces of work, and each piece covers some positions. `Covers` says that
the pieces of one run follow each other from the start of a range to its end, with a prefix
of them where the procedure fails.
-/

namespace OpenBadge.Lib.Proc

variable {σ ε α β ι : Type}

/-- How the work of a procedure is seen: the pieces that have been emitted, the positions that
a piece covers, and what is asked of each piece. -/
structure Log (σ ι : Type) where
  emitted : σ → List ι
  positions : ι → List Nat
  Fine : ι → Prop

/-- However `x` ends, the pieces it emits are fine and cover the first positions of the range
of `n` positions from `a` on, each once and in order. They cover all of them if `x` succeeds. -/
def Covers (L : Log σ ι) (x : Proc σ ε α) (a n : Nat) : Prop :=
  ∀ s, ∃ k ≤ n, ∃ pieces, L.emitted (x s).2 = L.emitted s ++ pieces ∧
    pieces.flatMap L.positions = List.range' a k ∧ (∀ piece ∈ pieces, L.Fine piece) ∧
    ∀ b, (x s).1 = .ok b → k = n

namespace Covers

variable {L : Log σ ι} {a m n : Nat} {x : Proc σ ε α}

/-- A step that emits nothing. -/
theorem silent (h : ∀ s, L.emitted (x s).2 = L.emitted s) (a : Nat) : Covers L x a 0 := by
  intro s
  refine ⟨0, Nat.le_refl 0, [], ?_, rfl, fun _ hp => absurd hp List.not_mem_nil, fun _ _ => rfl⟩
  rw [h, List.append_nil]

theorem pure (b : α) (a : Nat) : Covers L (pure b : Proc σ ε α) a 0 := silent (fun _ => rfl) a

theorem get (a : Nat) : Covers L (get : Proc σ ε σ) a 0 := silent (fun _ => rfl) a

theorem modify {f : σ → σ} (h : ∀ s, L.emitted (f s) = L.emitted s) (a : Nat) :
    Covers L (Proc.modify f : Proc σ ε Unit) a 0 := silent h a

/-- A step that emits one piece. -/
theorem emit {piece : ι} (h : ∀ s, L.emitted (x s).2 = L.emitted s ++ [piece])
    (hpos : L.positions piece = List.range' a n) (hfine : L.Fine piece) : Covers L x a n := by
  intro s
  refine ⟨n, Nat.le_refl n, [piece], h s, ?_, ?_, fun _ _ => rfl⟩
  · rw [List.flatMap_singleton, hpos]
  · intro p hp
    rw [List.mem_singleton.mp hp]
    exact hfine

/-- What fails may have been to cover more. -/
theorem fail (e : ε) (a n : Nat) : Covers L (fail e : Proc σ ε α) a n := by
  intro s
  refine ⟨0, Nat.zero_le n, [], (List.append_nil _).symm, rfl,
    fun _ hp => absurd hp List.not_mem_nil, ?_⟩
  intro b hb
  cases hb

theorem failIf (p : Prop) [Decidable p] (e : ε) (a : Nat) :
    Covers L (failIf p e : Proc σ ε Unit) a 0 := by
  apply silent
  intro s
  by_cases h : p
  · rw [failIf_pos h]
  · rw [failIf_neg h]

/-- Two steps cover their ranges one behind the other. -/
theorem bind {f : α → Proc σ ε β} (hx : Covers L x a m) (hf : ∀ b, Covers L (f b) (a + m) n) :
    Covers L (x >>= f) a (m + n) := by
  intro s
  obtain ⟨k, hk, pieces, hlog, hcover, hfine, hall⟩ := hx s
  rcases hrun : x s with ⟨e | b, t⟩
  · rw [bind_error hrun]
    rw [hrun] at hlog
    refine ⟨k, Nat.le_trans hk (Nat.le_add_right m n), pieces, hlog, hcover, hfine, ?_⟩
    intro b hb
    cases hb
  · rw [bind_ok hrun]
    rw [hrun] at hlog hall
    obtain rfl : k = m := hall b rfl
    obtain ⟨j, hj, rest, hlog', hcover', hfine', hall'⟩ := hf b t
    refine ⟨k + j, Nat.add_le_add_left hj k, pieces ++ rest, ?_, ?_, ?_, ?_⟩
    · rw [hlog', hlog, List.append_assoc]
    · rw [List.flatMap_append, hcover, hcover', List.range'_append_1]
    · intro piece hp
      rcases List.mem_append.mp hp with hp | hp
      · exact hfine piece hp
      · exact hfine' piece hp
    · intro c hc
      rw [hall' c hc]

/-- A step in front that covers nothing. -/
theorem after {f : α → Proc σ ε β} (hx : Covers L x a 0) (hf : ∀ b, Covers L (f b) a n) :
    Covers L (x >>= f) a n := by
  have h : Covers L (x >>= f) a (0 + n) := hx.bind hf
  rwa [Nat.zero_add] at h

theorem when {p : Prop} [Decidable p] {x : Proc σ ε Unit} (hx : p → Covers L x a 0) :
    Covers L (when p x) a 0 := by
  by_cases h : p
  · rw [when_pos h]
    exact hx h
  · rw [when_neg h]
    exact pure () a

/-- The result does not matter where nothing is to be covered. -/
theorem attempt (hx : Covers L x a 0) : Covers L (attempt x) a 0 := by
  intro s
  obtain ⟨k, hk, pieces, hlog, hcover, hfine, -⟩ := hx s
  exact ⟨k, hk, pieces, hlog, hcover, hfine, fun _ _ => Nat.le_zero.mp hk⟩

end Covers

end OpenBadge.Lib.Proc
