import Mathlib.Algebra.GroupWithZero.Nat
import OpenBadge.Lib.Proc
import OpenBadge.Lib.Bytes
import OpenBadge.RetCode

/-!
# The storage below the filesystem

`storage_lib` joins storage modules to one address space. Each module is divided
into units: the pages of the flash, the single bytes of the EEPROM. A `Device` is
such a storage together with the contract that its clients rely on: a store that
succeeds writes its bytes, keeps what lies in front of them and behind the last
unit it touches, and keeps or blanks the rest of that unit.
-/

namespace OpenBadge.Storage

open OpenBadge.Lib

/-- A storage module: `storage_get_size_functions[i]` and
`storage_get_unit_size_functions[i]`. -/
structure StorageModule where
  size : Nat
  unitSize : Nat
  unit_pos : 0 < unitSize := by decide
  unit_dvd : unitSize ∣ size := by decide

/-- `storage_get_size`. -/
def totalSize (modules : List StorageModule) : Nat := (modules.map (·.size)).sum

/-- The first address of the unit that holds `a`. -/
def unitStart : List StorageModule → Nat → Nat
  | [], a => a
  | m :: ms, a =>
    if a < m.size then a / m.unitSize * m.unitSize else unitStart ms (a - m.size) + m.size

/-- The address behind the unit that holds `a`. -/
def unitStop : List StorageModule → Nat → Nat
  | [], a => a + 1
  | m :: ms, a =>
    if a < m.size then (a / m.unitSize + 1) * m.unitSize else unitStop ms (a - m.size) + m.size

/-- The loop of `storage_get_unit_address_limits`: `first` and `last` are the first
and the last address of the range, `start` is `*start_unit_address`. -/
def unitLimitsLoop : List StorageModule → Nat → Nat → Nat → Nat → Nat × Nat
  | [], _, _, _, start => (start, 0)
  | m :: ms, cumulated, first, last, start =>
    let start := if cumulated ≤ first ∧ first < cumulated + m.size then
      (first - cumulated) / m.unitSize * m.unitSize + cumulated else start
    if cumulated ≤ last ∧ last < cumulated + m.size then
      (start, ((last - cumulated) / m.unitSize + 1) * m.unitSize - 1 + cumulated)
    else unitLimitsLoop ms (cumulated + m.size) first last start

theorem unitStart_le : ∀ (ms : List StorageModule) (a : Nat), unitStart ms a ≤ a
  | [], a => Nat.le_refl a
  | m :: ms, a => by
    unfold unitStart
    have ih := unitStart_le ms (a - m.size)
    split
    · exact Nat.div_mul_le_self a m.unitSize
    · omega

theorem lt_unitStop : ∀ (ms : List StorageModule) (a : Nat), a < unitStop ms a
  | [], a => Nat.lt_succ_self a
  | m :: ms, a => by
    unfold unitStop
    have ih := lt_unitStop ms (a - m.size)
    split
    · exact (Nat.div_lt_iff_lt_mul m.unit_pos).mp (Nat.lt_succ_self (a / m.unitSize))
    · omega

theorem module_stop_le {m : StorageModule} {a : Nat} (h : a < m.size) :
    (a / m.unitSize + 1) * m.unitSize ≤ m.size := by
  obtain ⟨q, hq⟩ := m.unit_dvd
  rw [hq, Nat.mul_comm m.unitSize q]
  apply Nat.mul_le_mul_right
  rw [Nat.succ_le_iff, Nat.div_lt_iff_lt_mul m.unit_pos, Nat.mul_comm, ← hq]
  exact h

theorem unitStop_le : ∀ {ms : List StorageModule} {a : Nat}, a < totalSize ms →
    unitStop ms a ≤ totalSize ms
  | [], _, h => absurd h (Nat.not_lt_zero _)
  | m :: ms, a, h => by
    have htotal : totalSize (m :: ms) = m.size + totalSize ms := rfl
    unfold unitStop
    rw [htotal] at h ⊢
    split
    · rename_i ha
      exact Nat.le_trans (module_stop_le ha) (Nat.le_add_right _ _)
    · have ih : unitStop ms (a - m.size) ≤ totalSize ms := unitStop_le (by omega)
      omega

/-- A unit in front of a unit boundary ends there or earlier. -/
theorem unitStop_le_of_lt : ∀ {ms : List StorageModule} {a b : Nat}, unitStart ms b = b →
    a < b → unitStop ms a ≤ b
  | [], _, _, _, h => h
  | m :: ms, a, b, hb, h => by
    unfold unitStart at hb
    unfold unitStop
    by_cases hbm : b < m.size
    · rw [if_pos hbm] at hb
      rw [if_pos (by omega)]
      rw [← hb]
      apply Nat.mul_le_mul_right
      rw [Nat.succ_le_iff, Nat.div_lt_iff_lt_mul m.unit_pos, hb]
      exact h
    · rw [if_neg hbm] at hb
      split
      · rename_i ha
        exact Nat.le_trans (module_stop_le ha) (by omega)
      · have ih : unitStop ms (a - m.size) ≤ b - m.size :=
          unitStop_le_of_lt (by omega) (by omega)
        omega

theorem unitStart_unitStop : ∀ (ms : List StorageModule) (a : Nat),
    unitStart ms (unitStop ms a) = unitStop ms a
  | [], _ => rfl
  | m :: ms, a => by
    unfold unitStop
    split
    · rename_i ha
      have hle := module_stop_le ha
      unfold unitStart
      split
      · rw [Nat.mul_div_cancel _ m.unit_pos]
      · rw [show (a / m.unitSize + 1) * m.unitSize - m.size = 0 by omega]
        have h0 := unitStart_le ms 0
        omega
    · have ih := unitStart_unitStop ms (a - m.size)
      unfold unitStart
      rw [if_neg (by omega), Nat.add_sub_cancel, ih]

theorem unitStart_unitStart : ∀ (ms : List StorageModule) (a : Nat),
    unitStart ms (unitStart ms a) = unitStart ms a
  | [], _ => rfl
  | m :: ms, a => by
    conv_lhs => rw [show unitStart (m :: ms) a = if a < m.size then
      a / m.unitSize * m.unitSize else unitStart ms (a - m.size) + m.size from rfl]
    unfold unitStart
    split
    · have hle := Nat.div_mul_le_self a m.unitSize
      rw [if_pos (by omega), Nat.mul_div_cancel _ m.unit_pos]
    · rw [if_neg (by omega), Nat.add_sub_cancel, unitStart_unitStart ms]

/-- The loop finds the unit of the first and the unit of the last address. -/
theorem unitLimitsLoop_eq : ∀ (ms : List StorageModule) (cumulated first last start : Nat),
    cumulated ≤ last → last < cumulated + totalSize ms → first ≤ last →
    (first < cumulated → start ≤ first) →
    unitLimitsLoop ms cumulated first last start =
      (if first < cumulated then start else unitStart ms (first - cumulated) + cumulated,
        unitStop ms (last - cumulated) - 1 + cumulated)
  | [], cumulated, first, last, start, h1, h2, _, _ => by
    change last < cumulated + 0 at h2
    omega
  | m :: ms, cumulated, first, last, start, h1, h2, h3, h4 => by
    have htotal : totalSize (m :: ms) = m.size + totalSize ms := rfl
    rw [htotal] at h2
    have hstop := lt_unitStop ms (last - cumulated - m.size)
    unfold unitLimitsLoop unitStart unitStop
    by_cases hlast : last < cumulated + m.size
    · rw [if_pos ⟨h1, hlast⟩, if_pos (show last - cumulated < m.size by omega)]
      by_cases hfirst : cumulated ≤ first
      · rw [if_pos ⟨hfirst, by omega⟩, if_neg (by omega), if_pos (by omega)]
      · rw [if_neg (fun h => hfirst h.1), if_pos (by omega)]
    · rw [if_neg (fun h => hlast h.2), if_neg (show ¬ last - cumulated < m.size by omega)]
      have ih := unitLimitsLoop_eq ms (cumulated + m.size) first last
      rw [show last - (cumulated + m.size) = last - cumulated - m.size by omega,
        show first - (cumulated + m.size) = first - cumulated - m.size by omega] at ih
      by_cases hfirst : cumulated ≤ first
      · by_cases hin : first < cumulated + m.size
        · have hle := Nat.div_mul_le_self (first - cumulated) m.unitSize
          rw [if_pos ⟨hfirst, hin⟩, ih _ (by omega) (by omega) h3 (fun _ => by omega),
            if_pos hin, if_neg (show ¬ first < cumulated by omega), if_pos (by omega)]
          congr 1
          omega
        · rw [if_neg (fun h => hin h.2), ih _ (by omega) (by omega) h3 (fun h => by omega),
            if_neg hin, if_neg (show ¬ first < cumulated by omega), if_neg (by omega)]
          congr 1 <;> omega
      · rw [if_neg (fun h => hfirst h.1),
          ih _ (by omega) (by omega) h3 (fun _ => h4 (by omega)), if_pos (by omega),
          if_pos (by omega)]
        congr 1
        omega

/-- How a store of `d` at `a`, whose last touched unit ends at `stop`, may change the
bytes of the storage. -/
structure Stored (stop : Nat) (m : Nat → UInt8) (a : Nat) (d : List UInt8) (m' : Nat → UInt8) :
    Prop where
  written : slice m' a d.length = d
  before : ∀ x, x < a → m' x = m x
  after : ∀ x, stop ≤ x → m' x = m x
  rest : ∀ x, a + d.length ≤ x → x < stop → m' x = m x ∨ m' x = 0xFF

/-- How far a store of `d` at `a` reaches, be it carried out or not: not in front of it,
not behind the unit it ends in, and not to bytes that it rewrites with what they hold. -/
structure Reached (stop : Nat) (m : Nat → UInt8) (a : Nat) (d : List UInt8) (m' : Nat → UInt8) :
    Prop where
  before : ∀ x, x < a → m' x = m x
  after : ∀ x, stop ≤ x → m' x = m x
  same : ∀ x, a ≤ x → x < a + d.length → overwrite m a d x = m x → m' x = m x

theorem Reached.refl (stop : Nat) (m : Nat → UInt8) (a : Nat) (d : List UInt8) :
    Reached stop m a d m :=
  ⟨fun _ _ => rfl, fun _ _ => rfl, fun _ _ _ _ => rfl⟩

theorem Stored.reached {stop : Nat} {m m' : Nat → UInt8} {a : Nat} {d : List UInt8}
    (h : Stored stop m a d m') : Reached stop m a d m' := by
  refine ⟨h.before, h.after, fun x hx hx' hsame => ?_⟩
  rw [← hsame]
  exact eq_of_slice_eq (h.written.trans (slice_overwrite m a d).symm) hx hx'

/-- A storage with the contract of `storage_lib`. Reads of a range inside it return
its bytes; `store` and `clear` are only used on such ranges and may fail. Addresses
are `uint32_t`: the size leaves room for two elements behind the last address. -/
structure Device where
  modules : List StorageModule
  size_le : totalSize modules + 2 ^ 18 ≤ 2 ^ 32
  State : Type
  byte : State → Nat → UInt8
  store : Nat → List UInt8 → Proc State RetCode Unit
  clear : Nat → Nat → Proc State RetCode Unit
  store_spec : ∀ a d s t, 0 < d.length → a + d.length ≤ totalSize modules →
    store a d s = (.ok (), t) →
    Stored (unitStop modules (a + d.length - 1)) (byte s) a d (byte t)
  clear_spec : ∀ a n s t, 0 < n → a + n ≤ totalSize modules → clear a n s = (.ok (), t) →
    Stored (unitStop modules (a + n - 1)) (byte s) a (List.replicate n 0xFF) (byte t)

namespace Device

variable (D : Device)

/-- `storage_get_size`. -/
def size : Nat := totalSize D.modules

/-- Every store and clear inside the storage succeeds. -/
def Reliable : Prop :=
  (∀ a d s, 0 < d.length → a + d.length ≤ D.size → (D.store a d s).1 = .ok ()) ∧
  (∀ a n s, 0 < n → a + n ≤ D.size → (D.clear a n s).1 = .ok ())

/-- A store or clear that fails has reached no further than one that succeeds. -/
def FailsWithin : Prop :=
  (∀ a d s e t, 0 < d.length → a + d.length ≤ D.size → D.store a d s = (.error e, t) →
    Reached (unitStop D.modules (a + d.length - 1)) (D.byte s) a d (D.byte t)) ∧
  (∀ a n s e t, 0 < n → a + n ≤ D.size → D.clear a n s = (.error e, t) →
    Reached (unitStop D.modules (a + n - 1)) (D.byte s) a (List.replicate n 0xFF) (D.byte t))

/-- The units are single bytes, as in the EEPROM. -/
def ByteUnits : Prop := ∀ m ∈ D.modules, m.unitSize = 1

/-- The rest of the last unit that a store touches is kept, or is blanked, as a whole. -/
def AllOrNothing : Prop :=
  (∀ a d s t, 0 < d.length → a + d.length ≤ D.size → D.store a d s = (.ok (), t) →
    (∀ x, a + d.length ≤ x → D.byte t x = D.byte s x) ∨
    (∀ x, a + d.length ≤ x → x < unitStop D.modules (a + d.length - 1) → D.byte t x = 0xFF)) ∧
  (∀ a n s t, 0 < n → a + n ≤ D.size → D.clear a n s = (.ok (), t) →
    (∀ x, a + n ≤ x → D.byte t x = D.byte s x) ∨
    (∀ x, a + n ≤ x → x < unitStop D.modules (a + n - 1) → D.byte t x = 0xFF))

end Device

theorem unitStop_of_bytes : ∀ {ms : List StorageModule} {a : Nat},
    (∀ m ∈ ms, m.unitSize = 1) → unitStop ms a = a + 1
  | [], _, _ => rfl
  | m :: ms, a, h => by
    unfold unitStop
    rw [h m List.mem_cons_self]
    split
    · omega
    · have ih : unitStop ms (a - m.size) = a - m.size + 1 :=
        unitStop_of_bytes fun m' hm => h m' (List.mem_cons_of_mem m hm)
      omega

theorem unitStart_of_bytes : ∀ {ms : List StorageModule} {a : Nat},
    (∀ m ∈ ms, m.unitSize = 1) → unitStart ms a = a
  | [], _, _ => rfl
  | m :: ms, a, h => by
    unfold unitStart
    rw [h m List.mem_cons_self]
    split
    · omega
    · have ih : unitStart ms (a - m.size) = a - m.size :=
        unitStart_of_bytes fun m' hm => h m' (List.mem_cons_of_mem m hm)
      omega

/-- With byte units a store changes exactly its own bytes. -/
theorem Stored.eq_overwrite {m m' : Nat → UInt8} {a : Nat} {d : List UInt8}
    (h : Stored (a + d.length) m a d m') : m' = overwrite m a d := by
  funext x
  by_cases h1 : x < a
  · rw [h.before x h1, overwrite_of_lt m d h1]
  · by_cases h2 : a + d.length ≤ x
    · rw [h.after x h2, overwrite_of_ge m d h2]
    · have hw := slice_eq_iff.mp h.written (x - a) (by omega)
      have ho := overwrite_add m a d (i := x - a) (by omega)
      rw [show a + (x - a) = x by omega] at hw ho
      rw [hw, ho]

/-- Storing `d` at `a`, with `fill` applied to the rest of the last unit. -/
def fillStore (modules : List StorageModule) (fill : Nat → UInt8 → UInt8) (a : Nat)
    (d : List UInt8) (m : Nat → UInt8) : Nat → UInt8 := fun x =>
  if a + d.length ≤ x ∧ x < unitStop modules (a + d.length - 1) then fill x (m x)
  else overwrite m a d x

theorem fillStore_stored (modules : List StorageModule) {fill : Nat → UInt8 → UInt8}
    (hfill : ∀ x b, fill x b = b ∨ fill x b = 0xFF) (m : Nat → UInt8) {a : Nat}
    {d : List UInt8} (hd : 0 < d.length) :
    Stored (unitStop modules (a + d.length - 1)) m a d (fillStore modules fill a d m) := by
  have hstop := lt_unitStop modules (a + d.length - 1)
  refine ⟨slice_eq_iff.mpr fun i hi => ?_, fun x hx => ?_, fun x hx => ?_, fun x hx hx' => ?_⟩
  · rw [fillStore, if_neg (by omega), overwrite_add m a d hi]
  · rw [fillStore, if_neg (by omega), overwrite_of_lt m d hx]
  · rw [fillStore, if_neg (by omega), overwrite_of_ge m d (by omega)]
  · rw [fillStore, if_pos ⟨hx, hx'⟩]
    exact hfill x (m x)

theorem fill_old : ∀ (_ : Nat) (b : UInt8), b = b ∨ b = 0xFF := fun _ _ => .inl rfl

/-- A storage whose stores succeed and put `fill old` into the rest of the last unit
they touch. -/
def fillDevice (modules : List StorageModule) (size_le : totalSize modules + 2 ^ 18 ≤ 2 ^ 32)
    (fill : Nat → UInt8 → UInt8) (hfill : ∀ x b, fill x b = b ∨ fill x b = 0xFF) : Device where
  modules := modules
  size_le := size_le
  State := Nat → UInt8
  byte := fun m => m
  store := fun a d m => (.ok (), fillStore modules fill a d m)
  clear := fun a n m => (.ok (), fillStore modules fill a (List.replicate n 0xFF) m)
  store_spec := by
    intro a d m m' hd _ h
    cases h
    exact fillStore_stored modules hfill m hd
  clear_spec := by
    intro a n m m' hn _ h
    cases h
    have hstored := fillStore_stored modules hfill m (a := a)
      (show 0 < (List.replicate n (0xFF : UInt8)).length by simpa using hn)
    rwa [List.length_replicate] at hstored

theorem fillDevice_reliable (modules : List StorageModule)
    (size_le : totalSize modules + 2 ^ 18 ≤ 2 ^ 32) (fill : Nat → UInt8 → UInt8)
    (hfill : ∀ x b, fill x b = b ∨ fill x b = 0xFF) :
    (fillDevice modules size_le fill hfill).Reliable :=
  ⟨fun _ _ _ _ _ => rfl, fun _ _ _ _ _ => rfl⟩

theorem fillDevice_failsWithin (modules : List StorageModule)
    (size_le : totalSize modules + 2 ^ 18 ≤ 2 ^ 32) (fill : Nat → UInt8 → UInt8)
    (hfill : ∀ x b, fill x b = b ∨ fill x b = 0xFF) :
    (fillDevice modules size_le fill hfill).FailsWithin :=
  ⟨fun _ _ _ _ _ _ _ h => (by cases h), fun _ _ _ _ _ _ _ h => (by cases h)⟩

/-- A store keeps every range in front of it or behind the last unit it touches. -/
theorem Stored.slice_eq {stop : Nat} {m m' : Nat → UInt8} {a : Nat} {d : List UInt8}
    (h : Stored stop m a d m') {b n : Nat} (hb : b + n ≤ a ∨ stop ≤ b) :
    slice m' b n = slice m b n := by
  apply slice_congr
  intro x hx hx'
  rcases hb with hb | hb
  · exact h.before x (by omega)
  · exact h.after x (by omega)

end OpenBadge.Storage
