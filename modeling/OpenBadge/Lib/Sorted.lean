import Mathlib.Data.List.Basic
import Mathlib.Tactic.Common

/-!
# Prefixes of ordered lists

In a list on which a property can only be lost on the way, the elements with the property
stand in front of those without.
-/

namespace OpenBadge.Lib

variable {α : Type}

/-- The elements of a list that stand in front are related to those behind. -/
theorem pairwise_take_drop {R : α → α → Prop} {l : List α} (h : l.Pairwise R) (n : Nat) :
    ∀ a ∈ l.take n, ∀ b ∈ l.drop n, R a b := by
  rw [← List.take_append_drop n l, List.pairwise_append] at h
  exact h.2.2

theorem filter_append_filter_not {P : α → Bool} {l : List α}
    (h : l.Pairwise fun a b => P b → P a) : l.filter P ++ l.filter (fun a => !P a) = l := by
  induction l with
  | nil => rfl
  | cons a l ih =>
    obtain ⟨hfront, hl⟩ := List.pairwise_cons.mp h
    cases hP : P a with
    | true =>
      rw [List.filter_cons_of_pos hP, List.filter_cons_of_neg (by rw [hP]; decide),
        List.cons_append, ih hl]
    | false =>
      have hnone : ∀ b ∈ l, ¬ P b = true := fun b hb hPb => by
        rw [hfront b hb hPb] at hP
        exact nomatch hP
      have hall : ∀ b ∈ l, (!P b) = true := fun b hb => by
        rw [Bool.not_eq_true', Bool.eq_false_iff]
        exact hnone b hb
      rw [List.filter_cons_of_neg (by rw [hP]; decide), List.filter_cons_of_pos (by rw [hP]; rfl),
        List.filter_eq_nil_iff.mpr hnone, List.filter_eq_self.mpr hall, List.nil_append]

/-- As many elements as have the property have it from the beginning on. -/
theorem forall_mem_take {P : α → Bool} {l : List α} (h : l.Pairwise fun a b => P b → P a)
    {n : Nat} (hn : n ≤ l.countP P) : ∀ a ∈ l.take n, P a = true := by
  intro a ha
  rw [← filter_append_filter_not h,
    List.take_append_of_le_length (by rw [← List.countP_eq_length_filter]; exact hn)] at ha
  exact (List.mem_filter.mp (List.mem_of_mem_take ha)).2

theorem countP_drop {P : α → Bool} {l : List α} (h : l.Pairwise fun a b => P b → P a) (n : Nat) :
    (l.drop n).countP P = l.countP P - n := by
  have hfront : ((l.filter P).drop n).countP P = (l.filter P).length - n := by
    rw [List.countP_eq_length.mpr fun a ha => (List.mem_filter.mp (List.mem_of_mem_drop ha)).2,
      List.length_drop]
  have hback : ((l.filter fun a => !P a).drop (n - (l.filter P).length)).countP P = 0 := by
    refine List.countP_eq_zero.mpr fun a ha => ?_
    have hnot := (List.mem_filter.mp (List.mem_of_mem_drop ha)).2
    rwa [Bool.not_eq_true', ← Bool.not_eq_true] at hnot
  conv_lhs => rw [← filter_append_filter_not h]
  rw [List.drop_append, List.countP_append, hfront, hback, Nat.add_zero,
    List.countP_eq_length_filter]

/-- A prefix takes the elements without the property last. -/
theorem countP_not_take {P : α → Bool} {l : List α} (h : l.Pairwise fun a b => P b → P a)
    {n : Nat} (hn : n ≤ l.length) :
    (l.take n).countP (fun a => !P a) = n - l.countP P := by
  have hlen : (l.filter P).length + (l.filter fun a => !P a).length = l.length := by
    rw [← List.length_append, filter_append_filter_not h]
  have hfront : ((l.filter P).take n).countP (fun a => !P a) = 0 := by
    refine List.countP_eq_zero.mpr fun a ha => ?_
    rw [(List.mem_filter.mp (List.mem_of_mem_take ha)).2]
    decide
  have hback : ((l.filter fun a => !P a).take (n - (l.filter P).length)).countP
      (fun a => !P a) = n - (l.filter P).length := by
    rw [List.countP_eq_length.mpr fun a ha => (List.mem_filter.mp (List.mem_of_mem_take ha)).2,
      List.length_take]
    omega
  conv_lhs => rw [← filter_append_filter_not h]
  rw [List.take_append, List.countP_append, hfront, hback, Nat.zero_add,
    List.countP_eq_length_filter]

end OpenBadge.Lib
