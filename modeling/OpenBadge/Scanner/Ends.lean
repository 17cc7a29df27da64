import OpenBadge.Scanner.Model
import Mathlib.Data.Fintype.Pigeonhole
import Mathlib.Order.Interval.Finset.Nat

/-!
# Whether the parse ends

The index goes from structure to structure along a chain that the length bytes alone
determine. The loop ends when the chain leaves the payload or has passed both a name and
manufacturer data. Within the payload the chain repeats itself after at most `dlen`
structures, so that one lap decides.
-/

namespace OpenBadge.Scanner

variable {data : Nat → UInt8} {dlen : UInt8}

/-- The index behind the structure at an index. -/
def nextIndex (data : Nat → UInt8) (i : UInt8) : UInt8 := i + 1 + data i.toNat

/-- The index of the structure with number `n`. -/
def chain (data : Nat → UInt8) (n : Nat) : UInt8 := (nextIndex data)^[n] 0

def NameAt (data : Nat → UInt8) (i : UInt8) : Prop := isNameType (data (i + 1).toNat)

/-- A type that is taken for the name's is not looked at again. -/
def ManufAt (data : Nat → UInt8) (i : UInt8) : Prop := isManufacturerType (data (i + 1).toNat)

instance (i : UInt8) : Decidable (NameAt data i) := inferInstanceAs (Decidable (isNameType _))

instance (i : UInt8) : Decidable (ManufAt data i) :=
  inferInstanceAs (Decidable (isManufacturerType _))

/-- In front of structure `n` the chain has left the payload, or has passed a name and
manufacturer data. -/
def Over (data : Nat → UInt8) (dlen : UInt8) (n : Nat) : Prop :=
  dlen ≤ chain data n ∨ (∃ a < n, NameAt data (chain data a)) ∧ ∃ b < n, ManufAt data (chain data b)

instance (n : Nat) : Decidable (Over data dlen n) := inferInstanceAs (Decidable (_ ∨ _))

/-! ## The loop follows the chain -/

/-- The local variables after `n` turns. -/
def turns (data : Nat → UInt8) (n : Nat) : Parse := (parseField data)^[n] Parse.init

theorem turns_succ (data : Nat → UInt8) (n : Nat) :
    turns data (n + 1) = parseField data (turns data n) := Function.iterate_succ_apply' _ _ _

theorem chain_succ (data : Nat → UInt8) (n : Nat) :
    chain data (n + 1) = nextIndex data (chain data n) := Function.iterate_succ_apply' _ _ _

theorem parseField_index (data : Nat → UInt8) (p : Parse) :
    (parseField data p).index = nextIndex data p.index := rfl

theorem turns_index (data : Nat → UInt8) (n : Nat) : (turns data n).index = chain data n := by
  induction n with
  | zero => rfl
  | succ n ih => rw [turns_succ, parseField_index, ih, chain_succ]

theorem not_manufacturer_of_name {fieldType : UInt8} (h : isNameType fieldType) :
    ¬ isManufacturerType fieldType := by
  rintro rfl
  revert h
  decide

theorem parseField_namePtr (data : Nat → UInt8) (p : Parse) :
    (parseField data p).namePtr =
      if NameAt data p.index then some ((p.index + 1).toNat + 1) else p.namePtr := by
  by_cases hname : NameAt data p.index
  · have hname' : isNameType (data (p.index + 1).toNat) := hname
    simp only [parseField, hname, hname', if_true]
  · have hname' : ¬ isNameType (data (p.index + 1).toNat) := hname
    simp only [parseField, hname, hname', if_false]
    split <;> rfl

theorem parseField_manuf (data : Nat → UInt8) (p : Parse) :
    (parseField data p).manufDataPtr =
        (if ManufAt data p.index then some ((p.index + 1).toNat + 1) else p.manufDataPtr) ∧
      (parseField data p).manufDataLen =
        if ManufAt data p.index then data p.index.toNat - 1 else p.manufDataLen := by
  by_cases hname : isNameType (data (p.index + 1).toNat)
  · have hmanuf : ¬ ManufAt data p.index := not_manufacturer_of_name hname
    simp only [parseField, hname, hmanuf, if_true, if_false, and_self]
  · by_cases hmanuf : ManufAt data p.index
    · have hmanuf' : isManufacturerType (data (p.index + 1).toNat) := hmanuf
      simp only [parseField, hname, hmanuf, hmanuf', if_true, if_false, and_self]
    · have hmanuf' : ¬ isManufacturerType (data (p.index + 1).toNat) := hmanuf
      simp only [parseField, hname, hmanuf, hmanuf', if_false, and_self]

theorem exists_lt_succ_iff {P : Nat → Prop} {n : Nat} :
    (∃ a < n + 1, P a) ↔ P n ∨ ∃ a < n, P a := by
  constructor
  · rintro ⟨a, ha, h⟩
    rcases Nat.lt_succ_iff_lt_or_eq.mp ha with hlt | rfl
    · exact .inr ⟨a, hlt, h⟩
    · exact .inl h
  · rintro (h | ⟨a, ha, h⟩)
    · exact ⟨n, Nat.lt_succ_self n, h⟩
    · exact ⟨a, Nat.lt_succ_of_lt ha, h⟩

theorem turns_namePtr (data : Nat → UInt8) (n : Nat) :
    (turns data n).namePtr ≠ none ↔ ∃ a < n, NameAt data (chain data a) := by
  induction n with
  | zero => simp [turns, Parse.init]
  | succ n ih =>
    rw [turns_succ, parseField_namePtr, turns_index, exists_lt_succ_iff, ← ih]
    by_cases h : NameAt data (chain data n) <;> simp [h]

theorem turns_manufDataPtr (data : Nat → UInt8) (n : Nat) :
    (turns data n).manufDataPtr ≠ none ↔ ∃ b < n, ManufAt data (chain data b) := by
  induction n with
  | zero => simp [turns, Parse.init]
  | succ n ih =>
    rw [turns_succ, (parseField_manuf _ _).1, turns_index, exists_lt_succ_iff, ← ih]
    by_cases h : ManufAt data (chain data n) <;> simp [h]

theorem over_iff (n : Nat) : Over data dlen n ↔ ¬ (turns data n).Continues dlen := by
  rw [Over, Parse.Continues, ← turns_namePtr, ← turns_manufDataPtr, turns_index]
  simp only [not_and_or, not_or, UInt8.not_lt, ne_eq]
  exact or_comm

/-- The loop ends in front of the first structure at which it is over. -/
theorem parseLoop_eq_some {fuel : Nat} {p t : Parse} :
    parseLoop dlen data fuel p = some t ↔
      ∃ n ≤ fuel, t = (parseField data)^[n] p ∧ ¬ t.Continues dlen ∧
        ∀ m < n, ((parseField data)^[m] p).Continues dlen := by
  induction fuel generalizing p with
  | zero =>
    rw [parseLoop]
    by_cases h : p.Continues dlen
    · rw [if_pos h]
      constructor
      · exact fun h => nomatch h
      · rintro ⟨n, hn, rfl, hnot, -⟩
        cases Nat.le_zero.mp hn
        exact absurd h hnot
    · rw [if_neg h]
      constructor
      · rintro ⟨⟩
        exact ⟨0, Nat.le_refl 0, rfl, h, fun m hm => absurd hm (Nat.not_lt_zero m)⟩
      · rintro ⟨n, hn, rfl, -, -⟩
        cases Nat.le_zero.mp hn
        rfl
  | succ fuel ih =>
    rw [parseLoop]
    by_cases h : p.Continues dlen
    · rw [if_pos h, ih]
      constructor
      · rintro ⟨n, hn, ht, hnot, hall⟩
        refine ⟨n + 1, Nat.succ_le_succ hn, ht, hnot, fun m hm => ?_⟩
        cases m with
        | zero => exact h
        | succ m => exact hall m (Nat.lt_of_succ_lt_succ hm)
      · rintro ⟨n, hn, ht, hnot, hall⟩
        cases n with
        | zero =>
          subst ht
          exact absurd h hnot
        | succ n =>
          exact ⟨n, Nat.le_of_succ_le_succ hn, ht, hnot, fun m hm => hall (m + 1) (by omega)⟩
    · rw [if_neg h]
      constructor
      · rintro ⟨⟩
        exact ⟨0, Nat.zero_le _, rfl, h, fun m hm => absurd hm (Nat.not_lt_zero m)⟩
      · rintro ⟨n, hn, rfl, -, hall⟩
        cases n with
        | zero => rfl
        | succ n => exact absurd (hall 0 (Nat.succ_pos n)) h

/-- Without a bound on the turns: the loop ends if it is over somewhere. -/
theorem exists_parseLoop_iff :
    (∃ fuel t, parseLoop dlen data fuel Parse.init = some t) ↔ ∃ n, Over data dlen n := by
  constructor
  · rintro ⟨fuel, t, h⟩
    obtain ⟨n, -, rfl, hnot, -⟩ := parseLoop_eq_some.mp h
    exact ⟨n, (over_iff n).mpr hnot⟩
  · intro h
    have hmin : ∀ m < Nat.find h, (turns data m).Continues dlen := by
      intro m hm
      have hnot := Nat.find_min h hm
      rw [over_iff, not_not] at hnot
      exact hnot
    exact ⟨Nat.find h, _, parseLoop_eq_some.mpr
      ⟨Nat.find h, Nat.le_refl _, rfl, (over_iff _).mp (Nat.find_spec h), hmin⟩⟩

/-! ## One lap decides -/

theorem chain_add (data : Nat → UInt8) {a b : Nat} (h : chain data a = chain data b) (j : Nat) :
    chain data (a + j) = chain data (b + j) := by
  induction j with
  | zero => exact h
  | succ j ih => rw [← Nat.add_assoc, ← Nat.add_assoc, chain_succ, chain_succ, ih]

/-- Once two structures have one index, there are no others than those in front of the
second. -/
theorem chain_repeats {a b : Nat} (hab : a < b) (h : chain data a = chain data b) (n : Nat) :
    ∃ m < b, chain data n = chain data m := by
  induction n using Nat.strong_induction_on with
  | _ n ih =>
    rcases Nat.lt_or_ge n b with hlt | hge
    · exact ⟨n, hlt, rfl⟩
    · obtain ⟨m, hm, heq⟩ := ih (n - (b - a)) (by omega)
      refine ⟨m, hm, heq.symm ▸ ?_⟩
      have hback := chain_add data h (n - b)
      rw [show a + (n - b) = n - (b - a) by omega, show b + (n - b) = n by omega] at hback
      exact hback.symm

/-- Indices inside the payload repeat after at most `dlen` structures. -/
theorem chain_pigeonhole (h : ∀ n ≤ dlen.toNat, chain data n < dlen) :
    ∃ a b, a < b ∧ b ≤ dlen.toNat ∧ chain data a = chain data b := by
  have hmaps : ∀ n ∈ Finset.range (dlen.toNat + 1),
      (chain data n).toNat ∈ Finset.range dlen.toNat := by
    intro n hn
    rw [Finset.mem_range] at hn ⊢
    exact UInt8.lt_iff_toNat_lt.mp (h n (Nat.le_of_lt_succ hn))
  obtain ⟨a, ha, b, hb, hne, heq⟩ := Finset.exists_ne_map_eq_of_card_lt_of_maps_to
    (by rw [Finset.card_range, Finset.card_range]; exact Nat.lt_succ_self _) hmaps
  rw [Finset.mem_range] at ha hb
  have heq' := UInt8.toNat_inj.mp heq
  rcases Nat.lt_or_gt_of_ne hne with hlt | hgt
  · exact ⟨a, b, hlt, Nat.le_of_lt_succ hb, heq'⟩
  · exact ⟨b, a, hgt, Nat.le_of_lt_succ ha, heq'.symm⟩

theorem over_within_lap (h : ∃ n, Over data dlen n) : ∃ n ≤ dlen.toNat, Over data dlen n := by
  by_contra hno
  have hnot : ∀ n ≤ dlen.toNat, ¬ Over data dlen n := fun n hn ho => hno ⟨n, hn, ho⟩
  have hin : ∀ n ≤ dlen.toNat, chain data n < dlen :=
    fun n hn => UInt8.not_le.mp fun hle => hnot n hn (.inl hle)
  obtain ⟨a, b, hab, hb, heq⟩ := chain_pigeonhole hin
  obtain ⟨n, hn⟩ := h
  rcases hn with hleft | ⟨⟨x, -, hx⟩, ⟨y, -, hy⟩⟩
  · obtain ⟨m, hm, hnm⟩ := chain_repeats hab heq n
    rw [hnm] at hleft
    exact hnot m (by omega) (.inl hleft)
  · obtain ⟨x', hx', hxeq⟩ := chain_repeats hab heq x
    obtain ⟨y', hy', hyeq⟩ := chain_repeats hab heq y
    rw [hxeq] at hx
    rw [hyeq] at hy
    exact hnot b hb (.inr ⟨⟨x', hx', hx⟩, ⟨y', hy', hy⟩⟩)

/-- Among the first `dlen` structures of the chain one lies outside the payload, or they
have a name and manufacturer data among them. -/
def ChainEnds (r : AdvReport) : Prop := ∃ n ≤ r.dlen.toNat, Over r.data r.dlen n

instance (r : AdvReport) : Decidable (ChainEnds r) :=
  inferInstanceAs (Decidable (∃ n ≤ r.dlen.toNat, Over r.data r.dlen n))

theorem parseLoop_ends_iff (r : AdvReport) :
    (∃ fuel t, parseLoop r.dlen r.data fuel Parse.init = some t) ↔ ChainEnds r := by
  rw [exists_parseLoop_iff]
  exact ⟨over_within_lap, fun ⟨n, _, h⟩ => ⟨n, h⟩⟩

/-- A report that is not too weak is parsed to the end exactly if its chain ends. -/
theorem scan_report_callback_ends_iff (r : AdvReport) :
    (∃ fuel result, internalOnScanReportCallback fuel r = some result) ↔
      r.rssi < scannerMinimumRssi ∨ ChainEnds r := by
  by_cases hweak : r.rssi < scannerMinimumRssi
  · simp only [internalOnScanReportCallback, hweak, if_true, true_or, iff_true]
    exact ⟨0, _, rfl⟩
  · have hparse : (∃ fuel result, internalOnScanReportCallback fuel r = some result) ↔
        ∃ fuel t, parseLoop r.dlen r.data fuel Parse.init = some t := by
      simp only [internalOnScanReportCallback, hweak, if_false, Option.map_eq_some_iff]
      constructor
      · rintro ⟨fuel, -, t, ht, -⟩
        exact ⟨fuel, t, ht⟩
      · rintro ⟨fuel, t, ht⟩
        exact ⟨fuel, _, t, ht, rfl⟩
    rw [hparse, parseLoop_ends_iff, or_iff_right hweak]

/-- Three bytes that lead back to themselves. -/
def loopingReport : AdvReport := ⟨-60, 3, fun i => [255, 1, 6].getD i 0⟩

/-- The index goes from 0 to 0. -/
theorem length_byte_holds_parse :
    nextIndex loopingReport.data 0 = 0 ∧
      ¬ ∃ fuel result, internalOnScanReportCallback fuel loopingReport = some result := by
  refine ⟨by decide, ?_⟩
  rintro ⟨fuel, result, h⟩
  rw [internalOnScanReportCallback, if_neg (by decide), Option.map_eq_some_iff] at h
  obtain ⟨t, ht, -⟩ := h
  have hends := (parseLoop_ends_iff loopingReport).mp ⟨fuel, t, ht⟩
  revert hends
  decide

/-- Structures that end in front of index 256 cannot hold the loop. -/
theorem chainEnds_of_no_wrap {r : AdvReport}
    (h : ∀ n, chain r.data n < r.dlen →
      (chain r.data n).toNat + 1 + (r.data (chain r.data n).toNat).toNat < 256) : ChainEnds r := by
  by_contra hno
  have hin : ∀ n ≤ r.dlen.toNat, chain r.data n < r.dlen :=
    fun n hn => UInt8.not_le.mp fun hle => hno ⟨n, hn, .inl hle⟩
  have hgrows : ∀ n ≤ r.dlen.toNat, n ≤ (chain r.data n).toNat := by
    intro n
    induction n with
    | zero => exact fun _ => Nat.zero_le _
    | succ n ih =>
      intro hn
      have hle := ih (Nat.le_of_succ_le hn)
      have hfit := h n (hin n (Nat.le_of_succ_le hn))
      rw [chain_succ, nextIndex, UInt8.toNat_add, UInt8.toNat_add]
      have hone : (1 : UInt8).toNat = 1 := rfl
      omega
  have hlast := UInt8.lt_iff_toNat_lt.mp (hin r.dlen.toNat (Nat.le_refl _))
  have hle := hgrows r.dlen.toNat (Nat.le_refl _)
  omega

end OpenBadge.Scanner
