import Mathlib.Data.List.Basic
import Mathlib.Algebra.BigOperators.Group.List.Basic
import Mathlib.Algebra.GroupWithZero.Nat

/-!
# Answers of known length

A client asks its questions one after the other, and the answer to each has a known length. It
knows an answer is complete by counting, so what it has asked is decided by how much has come.
-/

namespace OpenBadge.Lib

/-- The number of answers of these lengths that are complete when `w` has come. -/
def served : List Nat → Nat → Nat
  | [], _ => 0
  | n :: ns, w => if n ≤ w then served ns (w - n) + 1 else 0

variable {ns : List Nat} {n w : Nat}

theorem served_cons_of_le (h : n ≤ w) (ns : List Nat) :
    served (n :: ns) w = served ns (w - n) + 1 := if_pos h

theorem served_cons_of_lt (h : w < n) (ns : List Nat) : served (n :: ns) w = 0 :=
  if_neg (Nat.not_le_of_lt h)

theorem served_le_length (ns : List Nat) (w : Nat) : served ns w ≤ ns.length := by
  induction ns generalizing w with
  | nil => exact Nat.le_refl _
  | cons n ns ih =>
    by_cases h : n ≤ w
    · rw [served_cons_of_le h, List.length_cons]
      exact Nat.succ_le_succ (ih (w - n))
    · rw [served_cons_of_lt (Nat.lt_of_not_le h)]
      exact Nat.zero_le _

/-- The first `k` are complete when as much has come as they are long. -/
theorem le_served_iff {k : Nat} (hk : k ≤ ns.length) :
    k ≤ served ns w ↔ (ns.take k).sum ≤ w := by
  induction ns generalizing k w with
  | nil =>
    obtain rfl : k = 0 := Nat.le_zero.mp hk
    exact iff_of_true (Nat.zero_le _) (Nat.zero_le _)
  | cons n ns ih =>
    cases k with
    | zero => exact iff_of_true (Nat.zero_le _) (Nat.zero_le _)
    | succ k =>
      rw [List.take_succ_cons, List.sum_cons]
      by_cases h : n ≤ w
      · have hrest := ih (w := w - n) (Nat.le_of_succ_le_succ hk)
        rw [served_cons_of_le h]
        omega
      · rw [served_cons_of_lt (Nat.lt_of_not_le h)]
        omega

end OpenBadge.Lib
