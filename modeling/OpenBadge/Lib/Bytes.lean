import Mathlib.Data.List.Basic
import Mathlib.Tactic.Common

/-!
# Cells addressed by natural numbers

A memory is a function from addresses to cells. `slice` reads a range as a list
and `overwrite` replaces a range by a list.
-/

namespace OpenBadge.Lib

variable {α : Type}

/-- The `n` cells from address `a` on. -/
def slice (m : Nat → α) (a n : Nat) : List α := (List.range n).map fun i => m (a + i)

/-- The memory `m` with the list `d` written at address `a`. -/
def overwrite (m : Nat → α) (a : Nat) (d : List α) : Nat → α :=
  fun x => if a ≤ x then (d[x - a]?).getD (m x) else m x

@[simp] theorem slice_length (m : Nat → α) (a n : Nat) : (slice m a n).length = n := by
  simp [slice]

@[simp] theorem slice_zero (m : Nat → α) (a : Nat) : slice m a 0 = [] := rfl

theorem slice_getElem? (m : Nat → α) {a n i : Nat} (h : i < n) :
    (slice m a n)[i]? = some (m (a + i)) := by
  simp [slice, h]

theorem slice_getElem (m : Nat → α) {a n i : Nat} (h : i < (slice m a n).length) :
    (slice m a n)[i] = m (a + i) := by
  simp [slice]

theorem slice_add (m : Nat → α) (a n k : Nat) :
    slice m a (n + k) = slice m a n ++ slice m (a + n) k := by
  simp [slice, List.range_add, Function.comp_def, Nat.add_assoc]

theorem slice_congr {m m' : Nat → α} {a n : Nat} (h : ∀ x, a ≤ x → x < a + n → m x = m' x) :
    slice m a n = slice m' a n := by
  apply List.map_congr_left
  intro i hi
  rw [List.mem_range] at hi
  exact h _ (by omega) (by omega)

theorem slice_eq_iff {m : Nat → α} {a : Nat} {d : List α} :
    slice m a d.length = d ↔ ∀ i (h : i < d.length), m (a + i) = d[i] := by
  constructor
  · intro h i hi
    have h' := slice_getElem? m (a := a) hi
    rw [h, List.getElem?_eq_getElem hi] at h'
    exact (Option.some.inj h').symm
  · intro h
    apply List.ext_getElem (by simp)
    intro i hi hi'
    rw [slice_getElem]
    exact h i hi'

/-- Equal slices have equal cells. -/
theorem eq_of_slice_eq {m m' : Nat → α} {a n : Nat} (h : slice m a n = slice m' a n) {x : Nat}
    (hx : a ≤ x) (hx' : x < a + n) : m x = m' x := by
  have h1 := slice_getElem? m (a := a) (n := n) (i := x - a) (by omega)
  have h2 := slice_getElem? m' (a := a) (n := n) (i := x - a) (by omega)
  rw [h, h2] at h1
  have h3 := Option.some.inj h1
  rw [Nat.add_sub_cancel' hx] at h3
  exact h3.symm

theorem slice_take (m : Nat → α) (a : Nat) {n k : Nat} (h : k ≤ n) :
    (slice m a n).take k = slice m a k := by
  obtain ⟨j, rfl⟩ := Nat.exists_eq_add_of_le h
  rw [slice_add, List.take_left' (slice_length _ _ _)]

theorem slice_drop (m : Nat → α) (a : Nat) {n k : Nat} (h : k ≤ n) :
    (slice m a n).drop k = slice m (a + k) (n - k) := by
  obtain ⟨j, rfl⟩ := Nat.exists_eq_add_of_le h
  rw [slice_add, List.drop_left' (slice_length _ _ _), Nat.add_sub_cancel_left]

/-- A slice that equals a concatenation splits where the concatenation does. -/
theorem slice_eq_append {m : Nat → α} {a n : Nat} {d e : List α}
    (h : slice m a n = d ++ e) : slice m a d.length = d ∧ slice m (a + d.length) e.length = e := by
  have hn : n = d.length + e.length := by
    rw [← List.length_append, ← h, slice_length]
  rw [hn, slice_add] at h
  exact List.append_inj h (by simp)

theorem overwrite_of_lt (m : Nat → α) {a x : Nat} (d : List α) (h : x < a) :
    overwrite m a d x = m x := by
  rw [overwrite, if_neg (by omega)]

theorem overwrite_of_ge (m : Nat → α) {a x : Nat} (d : List α) (h : a + d.length ≤ x) :
    overwrite m a d x = m x := by
  rw [overwrite, if_pos (by omega), List.getElem?_eq_none (by omega), Option.getD_none]

theorem overwrite_add (m : Nat → α) (a : Nat) (d : List α) {i : Nat} (h : i < d.length) :
    overwrite m a d (a + i) = d[i] := by
  rw [overwrite, if_pos (by omega), Nat.add_sub_cancel_left, List.getElem?_eq_getElem h,
    Option.getD_some]

theorem slice_overwrite (m : Nat → α) (a : Nat) (d : List α) :
    slice (overwrite m a d) a d.length = d :=
  slice_eq_iff.mpr fun _ h => overwrite_add m a d h

/-- Overwriting bytes with themselves. -/
theorem overwrite_same {m : Nat → α} {a : Nat} {d : List α} (h : slice m a d.length = d) :
    overwrite m a d = m := by
  funext x
  by_cases hx : a ≤ x ∧ x < a + d.length
  · have hw := slice_eq_iff.mp h (x - a) (by omega)
    have ho := overwrite_add m a d (i := x - a) (by omega)
    rw [show a + (x - a) = x by omega] at hw ho
    rw [hw, ho]
  · rcases Nat.lt_or_ge x a with hlt | hge
    · rw [overwrite_of_lt m d hlt]
    · rw [overwrite_of_ge m d (by omega)]

@[simp] theorem overwrite_nil (m : Nat → α) (a : Nat) : overwrite m a [] = m := overwrite_same rfl

/-- Writing two lists one behind the other is writing their concatenation. -/
theorem overwrite_append (m : Nat → α) (a : Nat) (d e : List α) :
    overwrite (overwrite m a d) (a + d.length) e = overwrite m a (d ++ e) := by
  funext x
  unfold overwrite
  by_cases h1 : a ≤ x
  · by_cases h2 : a + d.length ≤ x
    · have hd : d[x - a]? = none := List.getElem?_eq_none (by omega)
      rw [if_pos h2, if_pos h1, if_pos h1, List.getElem?_append_right (by omega), hd,
        Option.getD_none, show x - a - d.length = x - (a + d.length) by omega]
    · rw [if_neg h2, if_pos h1, if_pos h1, List.getElem?_append_left (by omega)]
  · rw [if_neg h1, if_neg h1, if_neg (by omega)]

end OpenBadge.Lib
