import Mathlib.Data.List.Basic

/-!
# Codes in which no word begins another

When every code word is recognised from the front of a stream, a stream of code
words is cut in one way only.
-/

namespace OpenBadge.Lib

variable {α β : Type}

/-- Among the messages with `P`, a stream that begins with the word of one begins with no other
word. -/
def PrefixFree (word : α → List β) (P : α → Prop) : Prop :=
  ∀ x y u v, P x → P y → word x ++ u = word y ++ v → x = y

variable {word : α → List β} {P : α → Prop}

/-- Messages that make up the front of a stream of messages are its first messages. -/
theorem PrefixFree.of_flatMap (h : PrefixFree word P) (hne : ∀ x, word x ≠ []) {xs ys : List α}
    (hx : ∀ x ∈ xs, P x) (hy : ∀ y ∈ ys, P y) (hp : xs.flatMap word <+: ys.flatMap word) :
    xs <+: ys := by
  induction xs generalizing ys with
  | nil => exact List.nil_prefix
  | cons x xs ih =>
    obtain ⟨t, ht⟩ := hp
    cases ys with
    | nil =>
      simp only [List.flatMap_nil, List.append_eq_nil_iff, List.flatMap_cons] at ht
      exact absurd ht.1.1 (hne x)
    | cons y ys =>
      simp only [List.flatMap_cons, List.append_assoc] at ht
      obtain rfl := h x y _ _ (hx x List.mem_cons_self) (hy y List.mem_cons_self) ht
      have hp' : xs.flatMap word <+: ys.flatMap word := ⟨t, List.append_cancel_left ht⟩
      exact (List.prefix_cons_inj x).mpr (ih (fun x h => hx x (List.mem_cons_of_mem _ h))
        (fun y h => hy y (List.mem_cons_of_mem _ h)) hp')

end OpenBadge.Lib
