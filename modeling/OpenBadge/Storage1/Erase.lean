import OpenBadge.Storage1.Convert

/-!
# Which pages to erase

The table of remembered end addresses is what lets a store keep its first page.
An entry is sound when every byte behind it on its page is blank. The plan skips
the first page only on the strength of such an entry, and no entry on a written
page survives the planning.
-/

namespace OpenBadge.Storage1

open OpenBadge.Lib

variable {c : Config}

theorem unit_pos (c : Config) : 0 < getUnitSize c :=
  Nat.mul_pos c.pageSizeWords_pos (by decide)

theorem getPageAddress_eq {x : Nat} (h : x < getSize c) :
    getPageAddress c x = x / getUnitSize c := by
  rw [getPageAddress, if_neg (by omega)]
  rfl

theorem getPageNumber_eq {a n : Nat} (hn : 0 < n) (h : a + n ≤ getSize c) :
    getPageNumber c a n = (a + n - 1) / getUnitSize c + 1 - a / getUnitSize c := by
  have hsize : getSize c < 2 ^ 31 := c.size_lt
  rw [getPageNumber, if_neg (by rw [Nat.mod_eq_of_lt (by omega)]; omega), if_neg (by omega),
    getPageAddress_eq (by omega), getPageAddress_eq (by omega)]

/-- The pages from `p` up to `q`, as a byte range. -/
theorem page_range (c : Config) (p q x : Nat) :
    (4 * (p * c.pageSizeWords) ≤ x ∧ x < 4 * (q * c.pageSizeWords)) ↔
      p ≤ x / getUnitSize c ∧ x / getUnitSize c < q := by
  have hp : 4 * (p * c.pageSizeWords) = p * getUnitSize c := by unfold getUnitSize; ring
  have hq : 4 * (q * c.pageSizeWords) = q * getUnitSize c := by unfold getUnitSize; ring
  rw [hp, hq, Nat.le_div_iff_mul_le (unit_pos c), Nat.div_lt_iff_lt_mul (unit_pos c)]

/-- A remembered end address with only blank bytes behind it on its page. -/
def Sound (c : Config) (cells : Nat → Word) (e : Int) : Prop :=
  e = -1 ∨ ∃ a : Nat, e = a ∧ a < getSize c ∧
    ∀ x, a < x → x / getUnitSize c = a / getUnitSize c → byteAt cells x = 0xFF

/-- Every remembered end address is sound. -/
def TableSound (c : Config) (s : State) : Prop := ∀ e ∈ s.lastStored, Sound c s.cells e

/-- What the first loop leaves of the table, and what its plan rests on. -/
theorem resetTouched_spec (address startPage numPages : Nat) (es : List Int) (plan : Plan) :
    let r := resetTouched c address startPage numPages es plan
    (∀ e ∈ r.1, e = -1 ∨ (e ∈ es ∧ ¬ (startPage ≤ getPageAddress c e.toNat ∧
      getPageAddress c e.toNat < startPage + numPages))) ∧
    (r.2 = plan ∨ (r.2 = ⟨startPage + 1, numPages - 1⟩ ∧
      ∃ e ∈ es, e ≠ -1 ∧ getPageAddress c e.toNat = startPage ∧ e < address)) := by
  induction es generalizing plan with
  | nil => simp [resetTouched]
  | cons e es ih =>
    rw [resetTouched]
    by_cases hfree : e = -1
    · rw [if_pos hfree]
      obtain ⟨hes, hplan⟩ := ih plan
      refine ⟨?_, ?_⟩
      · intro e' he'
        rcases List.mem_cons.mp he' with rfl | hmem
        · exact Or.inl hfree
        · exact (hes e' hmem).imp_right fun h => ⟨List.mem_cons_of_mem _ h.1, h.2⟩
      · refine hplan.imp_right fun h => ⟨h.1, ?_⟩
        obtain ⟨e', he', h'⟩ := h.2
        exact ⟨e', List.mem_cons_of_mem _ he', h'⟩
    rw [if_neg hfree]
    dsimp only
    by_cases hpage : getPageAddress c e.toNat = startPage
    · rw [if_pos hpage]
      obtain ⟨hes, hplan⟩ := ih (if e < address then ⟨startPage + 1, numPages - 1⟩ else plan)
      refine ⟨?_, ?_⟩
      · intro e' he'
        rcases List.mem_cons.mp he' with rfl | hmem
        · exact Or.inl rfl
        · exact (hes e' hmem).imp_right fun h => ⟨List.mem_cons_of_mem _ h.1, h.2⟩
      · rcases hplan with heq | ⟨heq, e', he', h'⟩
        · rw [heq]
          by_cases hlt : e < address
          · rw [if_pos hlt]
            exact Or.inr ⟨rfl, e, List.mem_cons_self, hfree, hpage, hlt⟩
          · rw [if_neg hlt]
            exact Or.inl rfl
        · exact Or.inr ⟨heq, e', List.mem_cons_of_mem _ he', h'⟩
    · rw [if_neg hpage]
      obtain ⟨hes, hplan⟩ := ih plan
      refine ⟨?_, ?_⟩
      · intro e' he'
        rcases List.mem_cons.mp he' with rfl | hmem
        · by_cases hin : startPage < getPageAddress c e.toNat ∧
              getPageAddress c e.toNat < startPage + numPages
          · exact Or.inl (if_pos hin)
          · rw [if_neg hin]
            exact Or.inr ⟨List.mem_cons_self, by omega⟩
        · exact (hes e' hmem).imp_right fun h => ⟨List.mem_cons_of_mem _ h.1, h.2⟩
      · refine hplan.imp_right fun h => ⟨h.1, ?_⟩
        obtain ⟨e', he', h'⟩ := h.2
        exact ⟨e', List.mem_cons_of_mem _ he', h'⟩

theorem resetTouched_length (address startPage numPages : Nat) (es : List Int) (plan : Plan) :
    (resetTouched c address startPage numPages es plan).1.length = es.length := by
  induction es generalizing plan with
  | nil => rfl
  | cons e es ih =>
    rw [resetTouched]
    split
    · exact congrArg Nat.succ (ih _)
    · dsimp only
      split
      · exact congrArg Nat.succ (ih _)
      · exact congrArg Nat.succ (ih _)

/-- An entry before the data on the first page keeps that page, whatever entries
come behind it. -/
theorem resetTouched_keeps (address startPage numPages : Nat) (es : List Int) (plan : Plan)
    (h : plan = ⟨startPage + 1, numPages - 1⟩ ∨
      ∃ e ∈ es, e ≠ -1 ∧ getPageAddress c e.toNat = startPage ∧ e < address) :
    (resetTouched c address startPage numPages es plan).2 = ⟨startPage + 1, numPages - 1⟩ := by
  induction es generalizing plan with
  | nil =>
    rcases h with h | ⟨e, he, -⟩
    · exact h
    · exact absurd he List.not_mem_nil
  | cons e es ih =>
    have htail : (e = -1 ∨ getPageAddress c e.toNat ≠ startPage ∨ ¬ e < address) →
        (plan = ⟨startPage + 1, numPages - 1⟩ ∨
          ∃ e ∈ es, e ≠ -1 ∧ getPageAddress c e.toNat = startPage ∧ e < address) := by
      intro hne
      refine h.imp_right fun ⟨e', he', hfree, hpage, hlt⟩ => ?_
      rcases List.mem_cons.mp he' with rfl | hmem
      · rcases hne with hne | hne | hne
        · exact absurd hne hfree
        · exact absurd hpage hne
        · exact absurd hlt hne
      · exact ⟨e', hmem, hfree, hpage, hlt⟩
    rw [resetTouched]
    by_cases hfree : e = -1
    · rw [if_pos hfree]
      exact ih plan (htail (Or.inl hfree))
    rw [if_neg hfree]
    dsimp only
    by_cases hpage : getPageAddress c e.toNat = startPage
    · rw [if_pos hpage]
      by_cases hlt : e < address
      · rw [if_pos hlt]
        exact ih _ (Or.inl rfl)
      · rw [if_neg hlt]
        exact ih plan (htail (Or.inr (Or.inr hlt)))
    · rw [if_neg hpage]
      exact ih plan (htail (Or.inr (Or.inl hpage)))

theorem searchIndex_lt (last : Int) (es : List Int) (i index : Nat) (minDiff : Int) :
    searchIndex last es i index minDiff = index ∨
      searchIndex last es i index minDiff < i + es.length := by
  induction es generalizing i index minDiff with
  | nil => exact Or.inl rfl
  | cons e es ih =>
    rw [searchIndex, List.length_cons]
    split
    · exact Or.inr (by omega)
    split
    · rcases ih (i + 1) i (last - e) with h | h
      · exact Or.inr (by omega)
      · exact Or.inr (by omega)
    · rcases ih (i + 1) index minDiff with h | h
      · exact Or.inl h
      · exact Or.inr (by omega)

section Plan

variable {s : State} {address length : Nat}

/-- The table and the plan that the first loop leaves for a store. -/
def planned (c : Config) (s : State) (address length : Nat) : List Int × Plan :=
  resetTouched c address (address / getUnitSize c)
    ((address + length - 1) / getUnitSize c + 1 - address / getUnitSize c) s.lastStored
    ⟨address / getUnitSize c,
      (address + length - 1) / getUnitSize c + 1 - address / getUnitSize c⟩

/-- The table after planning: the end address is remembered unless it closes its
unit. -/
def remembered (c : Config) (s : State) (address length : Nat) : List Int :=
  if (address + length - 1) % getUnitSize c = getUnitSize c - 1 then (planned c s address length).1
  else (planned c s address length).1.set
    (searchIndex ((address + length - 1 : Nat) : Int) (planned c s address length).1 0 0 (getSize c))
    ((address + length - 1 : Nat) : Int)

theorem computePagesToErase_eq (hlen : 0 < length) (hin : address + length ≤ getSize c) :
    computePagesToErase c address length s =
      (.ok (planned c s address length).2,
        { s with lastStored := remembered c s address length }) := by
  have hsize : getSize c < 2 ^ 31 := c.size_lt
  unfold computePagesToErase remembered
  rw [Proc.failIf_bind_neg (by rw [Nat.mod_eq_of_lt (by omega)]; omega), if_neg (by omega),
    Proc.get_bind_apply, getPageAddress_eq (by omega), getPageNumber_eq hlen hin]
  dsimp only
  by_cases hclose : (address + length - 1) % getUnitSize c = getUnitSize c - 1
  · rw [if_pos hclose, if_pos hclose]
    rfl
  · rw [if_neg hclose, if_neg hclose]
    rfl

/-- Either every touched page is erased, or the first one is kept because a
remembered address before the data vouches for it. -/
theorem planned_plan (hmono : address / getUnitSize c ≤ (address + length - 1) / getUnitSize c) :
    (planned c s address length).2 = ⟨address / getUnitSize c,
        (address + length - 1) / getUnitSize c + 1 - address / getUnitSize c⟩ ∨
      ((planned c s address length).2 = ⟨address / getUnitSize c + 1,
          (address + length - 1) / getUnitSize c - address / getUnitSize c⟩ ∧
        ∃ e ∈ s.lastStored, e ≠ -1 ∧ getPageAddress c e.toNat = address / getUnitSize c ∧
          e < address) := by
  refine (resetTouched_spec address _ _ s.lastStored _).2.imp_right fun h => ⟨?_, h.2⟩
  refine h.1.trans ?_
  congr 1
  omega

theorem planned_keeps (h : ∃ e ∈ s.lastStored, e ≠ -1 ∧
      getPageAddress c e.toNat = address / getUnitSize c ∧ e < address) :
    (planned c s address length).2 = ⟨address / getUnitSize c + 1,
      (address + length - 1) / getUnitSize c + 1 - address / getUnitSize c - 1⟩ :=
  resetTouched_keeps address _ _ s.lastStored _ (Or.inr h)

/-- Entries that remain are off the touched pages, or are the new end address. -/
theorem remembered_entries {e : Int} (he : e ∈ remembered c s address length) :
    e = -1 ∨ e = ((address + length - 1 : Nat) : Int) ∨
      (e ∈ s.lastStored ∧ ¬ (address / getUnitSize c ≤ getPageAddress c e.toNat ∧
        getPageAddress c e.toNat ≤ (address + length - 1) / getUnitSize c)) := by
  have hkeep : ∀ e ∈ (planned c s address length).1, e = -1 ∨ (e ∈ s.lastStored ∧
      ¬ (address / getUnitSize c ≤ getPageAddress c e.toNat ∧
        getPageAddress c e.toNat ≤ (address + length - 1) / getUnitSize c)) := by
    intro e he
    refine ((resetTouched_spec address _ _ s.lastStored _).1 e he).imp_right fun h => ⟨h.1, ?_⟩
    have := h.2
    omega
  unfold remembered at he
  split at he
  · exact (hkeep e he).imp_right Or.inr
  · rcases List.mem_or_eq_of_mem_set he with hmem | rfl
    · exact (hkeep e hmem).imp_right Or.inr
    · exact Or.inr (Or.inl rfl)

theorem remembered_length : (remembered c s address length).length = s.lastStored.length := by
  unfold remembered
  split
  · exact resetTouched_length _ _ _ _ _
  · rw [List.length_set]
    exact resetTouched_length _ _ _ _ _

/-- An end address that does not close its unit is remembered. -/
theorem mem_remembered (htable : 0 < s.lastStored.length)
    (hopen : (address + length - 1) % getUnitSize c ≠ getUnitSize c - 1) :
    ((address + length - 1 : Nat) : Int) ∈ remembered c s address length := by
  have hlength : (planned c s address length).1.length = s.lastStored.length :=
    resetTouched_length _ _ _ _ _
  have hindex : searchIndex ((address + length - 1 : Nat) : Int) (planned c s address length).1 0 0
      (getSize c) < (planned c s address length).1.length := by
    rcases searchIndex_lt ((address + length - 1 : Nat) : Int) (planned c s address length).1 0 0
      (getSize c) with h | h <;> omega
  unfold remembered
  rw [if_neg hopen]
  exact List.mem_set hindex _

end Plan

end OpenBadge.Storage1
