import Mathlib.Data.List.Basic
import Mathlib.Data.Nat.ModEq
import Mathlib.Tactic.Common

/-!
# Ring positions

Positions run modulo `M`. The occupied cells start at the read position `r` and
end before the write position `w`, which is itself never occupied: a ring of `M`
cells holds at most `M - 1` elements.
-/

namespace OpenBadge.Lib

variable {α : Type}

/-- The number of positions from `r` up to `w`. -/
def ringLen (M r w : Nat) : Nat := if r ≤ w then w - r else M - (r - w)

/-- The `n` cells from position `r` on. -/
def ringList (m : Nat → α) (M r n : Nat) : List α := (List.range n).map fun i => m ((r + i) % M)

section Positions

variable {M r w : Nat}

theorem ringLen_lt (hr : r < M) (hw : w < M) : ringLen M r w < M := by
  unfold ringLen
  split <;> omega

theorem ringLen_self (M r : Nat) : ringLen M r r = 0 := by
  unfold ringLen
  rw [if_pos (Nat.le_refl r), Nat.sub_self]

theorem ringLen_eq_zero (hr : r < M) : ringLen M r w = 0 ↔ r = w := by
  unfold ringLen
  split <;> omega

/-- The write position lies `ringLen` positions behind the read position. -/
theorem add_ringLen (hr : r < M) (hw : w < M) : (r + ringLen M r w) % M = w := by
  unfold ringLen
  split
  · rw [Nat.add_sub_cancel' ‹_›, Nat.mod_eq_of_lt hw]
  · rw [show r + (M - (r - w)) = w + M by omega, Nat.add_mod_right, Nat.mod_eq_of_lt hw]

theorem next_eq (hr : r < M) : (r + 1) % M = if r + 1 = M then 0 else r + 1 := by
  split
  · rename_i h
    rw [h, Nat.mod_self]
  · exact Nat.mod_eq_of_lt (by omega)

/-- The ring is full when the write position is just before the read position. -/
theorem next_eq_read_iff (hr : r < M) (hw : w < M) :
    (w + 1) % M = r ↔ ringLen M r w + 1 = M := by
  rw [next_eq hw]
  unfold ringLen
  split <;> split <;> omega

theorem ringLen_next_write (hr : r < M) (hw : w < M) (h : (w + 1) % M ≠ r) :
    ringLen M r ((w + 1) % M) = ringLen M r w + 1 := by
  rw [next_eq hw] at h ⊢
  unfold ringLen
  by_cases hwrap : w + 1 = M
  · rw [if_pos hwrap] at h ⊢
    rw [if_neg (by omega), if_pos (by omega)]
    omega
  · rw [if_neg hwrap] at h ⊢
    split <;> split <;> omega

theorem ringLen_next_read (hr : r < M) (hw : w < M) (h : r ≠ w) :
    ringLen M ((r + 1) % M) w + 1 = ringLen M r w := by
  rw [next_eq hr]
  unfold ringLen
  split <;> split <;> split <;> omega

/-- Positions less than a round apart differ. -/
theorem ring_add_ne {i n : Nat} (hi : i < n) (hn : n < M) : (r + i) % M ≠ (r + n) % M := by
  intro h
  have hmod : i ≡ n [MOD M] := Nat.ModEq.add_left_cancel' r h
  have heq := hmod.eq_of_lt_of_lt (by omega) hn
  omega

end Positions

section Cells

variable {M r n : Nat}

@[simp] theorem ringList_length (m : Nat → α) (M r n : Nat) : (ringList m M r n).length = n := by
  simp [ringList]

@[simp] theorem ringList_zero (m : Nat → α) (M r : Nat) : ringList m M r 0 = [] := rfl

theorem ringList_succ (m : Nat → α) (M r n : Nat) :
    ringList m M r (n + 1) = ringList m M r n ++ [m ((r + n) % M)] := by
  simp [ringList, List.range_succ]

theorem ringList_cons (m : Nat → α) (M n : Nat) (hr : r < M) :
    ringList m M r (n + 1) = m r :: ringList m M ((r + 1) % M) n := by
  unfold ringList
  rw [List.range_succ_eq_map, List.map_cons, List.map_map, Nat.add_zero, Nat.mod_eq_of_lt hr]
  congr 1
  apply List.map_congr_left
  intro i _
  rw [Function.comp_apply, Nat.mod_add_mod, Nat.succ_eq_add_one, Nat.add_right_comm, Nat.add_assoc]

theorem ringList_congr {m m' : Nat → α} (h : ∀ i < n, m ((r + i) % M) = m' ((r + i) % M)) :
    ringList m M r n = ringList m' M r n := by
  apply List.map_congr_left
  intro i hi
  exact h i (List.mem_range.mp hi)

/-- A change of the free cell behind the occupied ones does not show. -/
theorem ringList_of_free {m m' : Nat → α} (hn : n < M)
    (h : ∀ p, p ≠ (r + n) % M → m' p = m p) : ringList m' M r n = ringList m M r n := by
  apply ringList_congr
  intro i hi
  exact h _ (ring_add_ne hi hn)

end Cells

end OpenBadge.Lib
