import Mathlib.Data.List.Basic

/-!
# One question at a time

A client asks its questions one after the other and goes on when the answer to the last one is
complete. The parts of an answer are all of one kind. A server that answers the questions of
each kind in their order then answers all of them in their order, although it may work at
questions of different kinds at the same time.
-/

namespace OpenBadge.Lib

variable {α κ : Type}

section Parts

variable [DecidableEq κ]

/-- What is of one kind. -/
def part (kind : α → κ) (k : κ) (xs : List α) : List α := xs.filter fun x => kind x = k

variable {kind : α → κ} {k : κ}

@[simp] theorem part_append (xs ys : List α) :
    part kind k (xs ++ ys) = part kind k xs ++ part kind k ys := List.filter_append ..

theorem part_eq_self {xs : List α} (h : ∀ x ∈ xs, kind x = k) : part kind k xs = xs :=
  List.filter_eq_self.mpr fun x hx => by simpa using h x hx

theorem part_eq_nil {xs : List α} (h : ∀ x ∈ xs, kind x ≠ k) : part kind k xs = [] :=
  List.filter_eq_nil_iff.mpr fun x hx => by simpa using h x hx

theorem part_singleton (x : α) : part kind (kind x) [x] = [x] :=
  part_eq_self fun _ hy => congrArg kind (List.mem_singleton.mp hy)

theorem mem_part {xs : List α} {x : α} : x ∈ part kind k xs ↔ x ∈ xs ∧ kind x = k := by
  rw [part, List.mem_filter, decide_eq_true_iff]

variable (kind k) in
theorem part_mono {xs ys : List α} (h : xs <+: ys) : part kind k xs <+: part kind k ys := by
  obtain ⟨zs, rfl⟩ := h
  rw [part_append]
  exact List.prefix_append ..

end Parts

variable [DecidableEq α]

/-- The number of answers that are complete when `xs` has come. -/
def completed : List (List α) → List α → Nat
  | [], _ => 0
  | A :: As, xs => if A <+: xs then completed As (xs.drop A.length) + 1 else 0

/-- All of an answer is of one kind. -/
def Uniform (kind : α → κ) (A : List α) : Prop := ∀ x ∈ A, ∀ y ∈ A, kind x = kind y

theorem completed_cons_append (A : List α) (As : List (List α)) (xs : List α) :
    completed (A :: As) (A ++ xs) = completed As xs + 1 := by
  rw [completed, if_pos (List.prefix_append A xs), List.drop_left]

theorem completed_cons_of_not {A xs : List α} (h : ¬ A <+: xs) (As : List (List α)) :
    completed (A :: As) xs = 0 := if_neg h

omit [DecidableEq α] in
/-- What comes before the first answer is complete is a part of it. -/
theorem prefix_of_incomplete {A xs ys : List α} (hnot : ¬ A <+: xs) (h : xs <+: A ++ ys) :
    xs <+: A :=
  (List.prefix_or_prefix_of_prefix h (List.prefix_append A ys)).resolve_right hnot

/-- More does not take an answer back. -/
theorem completed_mono {As : List (List α)} {xs ys : List α} (h : xs <+: ys) :
    completed As xs ≤ completed As ys := by
  induction As generalizing xs ys with
  | nil => exact Nat.le_refl _
  | cons A As ih =>
    by_cases hA : A <+: xs
    · obtain ⟨xs, rfl⟩ := hA
      obtain ⟨zs, rfl⟩ := h
      rw [List.append_assoc, completed_cons_append, completed_cons_append]
      exact Nat.succ_le_succ (ih (List.prefix_append xs zs))
    · rw [completed_cons_of_not hA]
      exact Nat.zero_le _

variable [DecidableEq κ] {kind : α → κ}

/-- More comes, as the questions asked so far are all that can be answered. -/
theorem prefix_append_of_parts {As : List (List α)} {xs ys : List α} (h : xs <+: As.flatten)
    (huniform : ∀ A ∈ As, Uniform kind A)
    (hparts : ∀ k, part kind k (xs ++ ys) <+:
      part kind k (As.take (completed As xs + 1)).flatten) :
    xs ++ ys <+: As.flatten := by
  induction As generalizing xs with
  | nil =>
    obtain rfl := List.prefix_nil.mp h
    cases ys with
    | nil => exact List.prefix_refl _
    | cons y ys =>
      have hmem := (hparts (kind y)).subset (mem_part.mpr ⟨List.mem_cons_self, rfl⟩)
      cases hmem
  | cons A As ih =>
    have huniform' : ∀ B ∈ As, Uniform kind B := fun B hB => huniform B (List.mem_cons_of_mem A hB)
    by_cases hA : A <+: xs
    · obtain ⟨xs, rfl⟩ := hA
      rw [List.flatten_cons, List.prefix_append_right_inj] at h
      rw [List.flatten_cons, List.append_assoc, List.prefix_append_right_inj]
      refine ih h huniform' fun k => ?_
      have hk := hparts k
      rwa [completed_cons_append, List.take_succ_cons, List.flatten_cons, List.append_assoc,
        part_append A (xs ++ ys), part_append A (List.flatten _),
        List.prefix_append_right_inj] at hk
    · rw [completed_cons_of_not hA, List.take_succ_cons, List.take_zero, List.flatten_cons,
        List.flatten_nil, List.append_nil] at hparts
      rw [List.flatten_cons] at h ⊢
      have hpre := prefix_of_incomplete hA h
      have hmem : ∀ y ∈ xs ++ ys, y ∈ A := fun y hy =>
        (mem_part.mp ((hparts (kind y)).subset (mem_part.mpr ⟨hy, rfl⟩))).1
      cases ys with
      | nil =>
        rw [List.append_nil]
        exact h
      | cons y ys =>
        have hy : y ∈ A := hmem y (List.mem_append_right _ List.mem_cons_self)
        have hkind : ∀ z ∈ A, kind z = kind y := fun z hz =>
          huniform A List.mem_cons_self z hz y hy
        have hk := hparts (kind y)
        rw [part_eq_self hkind, part_eq_self fun z hz => hkind z (hmem z hz)] at hk
        exact hk.trans (List.prefix_append A _)

/-- The answers that are complete are there. -/
theorem flatten_take_completed (As : List (List α)) (xs : List α) :
    (As.take (completed As xs)).flatten <+: xs := by
  induction As generalizing xs with
  | nil => exact List.nil_prefix
  | cons A As ih =>
    by_cases hA : A <+: xs
    · obtain ⟨xs, rfl⟩ := hA
      rw [completed_cons_append, List.take_succ_cons, List.flatten_cons,
        List.prefix_append_right_inj]
      exact ih xs
    · rw [completed_cons_of_not hA, List.take_zero]
      exact List.nil_prefix

/-- When all questions that were asked are answered, all of them were asked. -/
theorem flatten_of_parts {As : List (List α)} {xs : List α} (h : xs <+: As.flatten)
    (huniform : ∀ A ∈ As, Uniform kind A)
    (hparts : ∀ k, part kind k xs = part kind k (As.take (completed As xs + 1)).flatten) :
    completed As xs = As.length := by
  induction As generalizing xs with
  | nil => rfl
  | cons A As ih =>
    have huniform' : ∀ B ∈ As, Uniform kind B := fun B hB => huniform B (List.mem_cons_of_mem A hB)
    by_cases hA : A <+: xs
    · obtain ⟨xs, rfl⟩ := hA
      rw [List.flatten_cons, List.prefix_append_right_inj] at h
      rw [completed_cons_append, List.length_cons]
      refine congrArg _ (ih h huniform' fun k => ?_)
      have hk := hparts k
      rw [completed_cons_append, List.take_succ_cons, List.flatten_cons, part_append,
        part_append] at hk
      exact List.append_cancel_left hk
    · rw [List.flatten_cons] at h
      have hpre := prefix_of_incomplete hA h
      cases A with
      | nil => exact absurd List.nil_prefix hA
      | cons y A =>
        have hkind : ∀ z ∈ y :: A, kind z = kind y := fun z hz =>
          huniform (y :: A) List.mem_cons_self z hz y List.mem_cons_self
        have hk := hparts (kind y)
        rw [completed_cons_of_not hA, List.take_succ_cons, List.take_zero, List.flatten_cons,
          List.flatten_nil, List.append_nil, part_eq_self hkind,
          part_eq_self fun z hz => hkind z (hpre.subset hz)] at hk
        exact absurd (hk ▸ List.prefix_refl _) hA

end OpenBadge.Lib
