import OpenBadge.Scanner.Ends

/-!
# What the parse reports

The report should be that of a badge or an iBeacon exactly if the payload is a sequence
of structures with a badge's or an iBeacon's structures among them. The code looks at the
last name and the last manufacturer data that it has come to, and at nothing that would
tell it where the payload or these two end.
-/

namespace OpenBadge.Scanner

open OpenBadge.Lib

variable {data : Nat → UInt8} {dlen : UInt8}

/-! ## What should be reported -/

/-- The bytes from an index up to `stop` are structures with a type byte that fit, one
behind the other; the list holds their indices. -/
inductive Structures (data : Nat → UInt8) (stop : Nat) : Nat → List Nat → Prop
  | done : Structures data stop stop []
  | next {i : Nat} {is : List Nat} (typed : 0 < (data i).toNat)
    (fits : i + 1 + (data i).toNat ≤ stop)
    (rest : Structures data stop (i + 1 + (data i).toNat) is) : Structures data stop i (i :: is)

/-- The structure is a name, and it is the badge's. -/
def IsBadgeName (data : Nat → UInt8) (n : Nat) : Prop :=
  isNameType (data (n + 1)) ∧
    slice data (n + 2) ((data n).toNat - 1) = advertisingDeviceName

/-- The structure holds `len` bytes of manufacturer data. -/
def IsManufData (data : Nat → UInt8) (len : UInt8) (m : Nat) : Prop :=
  isManufacturerType (data (m + 1)) ∧ data m - 1 = len

/-- The payload is a badge's, with the assignment in its manufacturer data. -/
def ContainsBadge (data : Nat → UInt8) (dlen : UInt8) (id : UInt16) (group : UInt8) : Prop :=
  ∃ is, Structures data dlen.toNat 0 is ∧ (∃ n ∈ is, IsBadgeName data n) ∧
    ∃ m ∈ is, IsManufData data advertiserGetManufDataLen m ∧
      id = le16 data (m + 2 + 4) ∧ group = data (m + 2 + 6)

def ContainsIbeacon (data : Nat → UInt8) (dlen : UInt8) (id : UInt16) (group : UInt8) : Prop :=
  ∃ is, Structures data dlen.toNat 0 is ∧
    ∃ m ∈ is, IsManufData data ibeaconManufDataLen m ∧ IsProximityBeacon data (m + 2) ∧
      id = be16 data (m + 2 + 22) ∧ group = data (m + 2 + 21)

/-- What a device of a kind has to carry for a report with an identifier and a group. -/
def Contains (r : AdvReport) : DeviceType → UInt16 → UInt8 → Prop
  | .badge => ContainsBadge r.data r.dlen
  | .ibeacon => ContainsIbeacon r.data r.dlen

/-- Only the payload is read, and a device of either kind is reported exactly if the
payload is one of it, with the fields of its manufacturer data. -/
structure ParsedExactly (r : AdvReport) (result : Option ScanReport × List Nat) : Prop where
  in_bounds : ∀ a ∈ result.2, a < r.dlen.toNat
  real : ∀ report, result.1 = some report → Contains r report.deviceType report.id report.group
  reported : ∀ kind id group, Contains r kind id group →
    ∃ report, result.1 = some report ∧ report.deviceType = kind

/-! ## What the code looks at -/

/-- The loop comes to structure `n` of the chain. -/
def Reached (r : AdvReport) (n : Nat) : Prop := ∀ m ≤ n, ¬ Over r.data r.dlen m

/-- The structure is the last one with a property that the loop comes to. -/
def Last (r : AdvReport) (P : UInt8 → Prop) (n : Nat) : Prop :=
  Reached r n ∧ P (chain r.data n) ∧ ∀ m, Reached r m → P (chain r.data m) → m ≤ n

/-- The first byte of the last name, when the last manufacturer data have a badge's length. -/
def NameOfBadge (r : AdvReport) (name manufData : Nat) : Prop :=
  ∃ n m, Last r (NameAt r.data) n ∧ Last r (ManufAt r.data) m ∧
    name = (chain r.data n).toNat + 2 ∧ manufData = (chain r.data m).toNat + 2 ∧
    r.data (chain r.data m).toNat - 1 = advertiserGetManufDataLen

/-- The last manufacturer data have an iBeacon's length. -/
def DataOfIbeacon (r : AdvReport) (manufData : Nat) : Prop :=
  ∃ m, Last r (ManufAt r.data) m ∧ manufData = (chain r.data m).toNat + 2 ∧
    r.data (chain r.data m).toNat - 1 = ibeaconManufDataLen

/-- The bytes at the last name begin with the badge's name. -/
def TakenForBadge (r : AdvReport) (manufData : Nat) : Prop :=
  ∃ name, NameOfBadge r name manufData ∧ slice r.data name 5 = advertisingDeviceName

def TakenForIbeacon (r : AdvReport) (manufData : Nat) : Prop :=
  DataOfIbeacon r manufData ∧ IsProximityBeacon r.data manufData

/-- The type bytes of the structures that the loop comes to, the bytes that it compares
with the badge's name and the manufacturer data that it takes lie in the payload. A payload
that it takes for a device's is made of structures that fit, with a name that does not go
on behind the badge's; and where it has a device's structures, the loop looks at such ones. -/
structure Handled (r : AdvReport) : Prop where
  type_inside : ∀ n, Reached r n → (chain r.data n).toNat + 1 < r.dlen.toNat
  name_inside : ∀ name manufData, NameOfBadge r name manufData → name + 5 ≤ r.dlen.toNat
  badge_inside : ∀ manufData, TakenForBadge r manufData → manufData + 13 ≤ r.dlen.toNat
  ibeacon_inside : ∀ manufData, DataOfIbeacon r manufData → manufData + 25 ≤ r.dlen.toNat
  badge_whole : ∀ manufData, TakenForBadge r manufData →
    ∃ is, Structures r.data r.dlen.toNat 0 is ∧ ∃ n ∈ is, IsBadgeName r.data n
  ibeacon_whole : ∀ manufData, TakenForIbeacon r manufData →
    ∃ is, Structures r.data r.dlen.toNat 0 is
  badge_last : ∀ is, Structures r.data r.dlen.toNat 0 is → (∃ n ∈ is, IsBadgeName r.data n) →
    (∃ m ∈ is, IsManufData r.data advertiserGetManufDataLen m) →
    ∃ manufData, TakenForBadge r manufData
  ibeacon_last : ∀ is, Structures r.data r.dlen.toNat 0 is →
    (∃ m ∈ is, IsManufData r.data ibeaconManufDataLen m ∧ IsProximityBeacon r.data (m + 2)) →
    ∃ manufData, TakenForIbeacon r manufData

/-! ## The pointers after the loop -/

section Pointers

variable {N : Nat}

/-- The structure is the last one with a property in front of `N`. -/
def LastBefore (data : Nat → UInt8) (P : UInt8 → Prop) (N n : Nat) : Prop :=
  n < N ∧ P (chain data n) ∧ ∀ m < N, P (chain data m) → m ≤ n

theorem lastBefore_succ_of_holds {P : UInt8 → Prop} (h : P (chain data N)) {n : Nat} :
    LastBefore data P (N + 1) n ↔ n = N := by
  constructor
  · rintro ⟨hlt, -, hlast⟩
    exact Nat.le_antisymm (Nat.le_of_lt_succ hlt) (hlast N (Nat.lt_succ_self N) h)
  · rintro rfl
    exact ⟨Nat.lt_succ_self n, h, fun m hm _ => Nat.le_of_lt_succ hm⟩

theorem lastBefore_succ_of_not {P : UInt8 → Prop} (h : ¬ P (chain data N)) {n : Nat} :
    LastBefore data P (N + 1) n ↔ LastBefore data P N n := by
  have hne : ∀ m, m < N + 1 → P (chain data m) → m < N := by
    intro m hm hp
    refine Nat.lt_of_le_of_ne (Nat.le_of_lt_succ hm) ?_
    rintro rfl
    exact h hp
  constructor
  · rintro ⟨hlt, hp, hlast⟩
    exact ⟨hne n hlt hp, hp, fun m hm => hlast m (Nat.lt_succ_of_lt hm)⟩
  · rintro ⟨hlt, hp, hlast⟩
    exact ⟨Nat.lt_succ_of_lt hlt, hp, fun m hm hpm => hlast m (hne m hm hpm) hpm⟩

theorem toNat_succ_of_lt {i : UInt8} (h : i < dlen) : (i + 1).toNat = i.toNat + 1 := by
  have hlt := UInt8.lt_iff_toNat_lt.mp h
  have hdlen := dlen.toNat_lt
  rw [UInt8.toNat_add]
  exact Nat.mod_eq_of_lt (by
    change i.toNat + 1 < 256
    omega)

variable (hin : ∀ n < N, chain data n < dlen)
include hin

theorem turns_namePtr_eq (ptr : Nat) :
    (turns data N).namePtr = some ptr ↔
      ∃ n, LastBefore data (NameAt data) N n ∧ ptr = (chain data n).toNat + 2 := by
  induction N with
  | zero =>
    constructor
    · exact fun h => nomatch h
    · rintro ⟨n, ⟨hn, -, -⟩, -⟩
      exact absurd hn (Nat.not_lt_zero n)
  | succ N ih =>
    rw [turns_succ, parseField_namePtr, turns_index]
    by_cases h : NameAt data (chain data N)
    · rw [if_pos h, toNat_succ_of_lt (hin N (Nat.lt_succ_self N)), Option.some.injEq]
      simp only [lastBefore_succ_of_holds h, exists_eq_left]
      exact eq_comm
    · rw [if_neg h, ih fun n hn => hin n (Nat.lt_succ_of_lt hn)]
      simp only [lastBefore_succ_of_not h]

theorem turns_manuf_eq (ptr : Nat) (len : UInt8) :
    (turns data N).manufDataPtr = some ptr ∧ (turns data N).manufDataLen = len ↔
      ∃ m, LastBefore data (ManufAt data) N m ∧ ptr = (chain data m).toNat + 2 ∧
        data (chain data m).toNat - 1 = len := by
  induction N with
  | zero =>
    constructor
    · exact fun h => nomatch h.1
    · rintro ⟨n, ⟨hn, -, -⟩, -⟩
      exact absurd hn (Nat.not_lt_zero n)
  | succ N ih =>
    obtain ⟨hptr, hlen⟩ := parseField_manuf data (turns data N)
    rw [turns_succ, hptr, hlen, turns_index]
    by_cases h : ManufAt data (chain data N)
    · rw [if_pos h, if_pos h, toNat_succ_of_lt (hin N (Nat.lt_succ_self N)), Option.some.injEq]
      simp only [lastBefore_succ_of_holds h, exists_eq_left]
      exact and_congr_left fun _ => eq_comm
    · rw [if_neg h, if_neg h, ih fun n hn => hin n (Nat.lt_succ_of_lt hn)]
      simp only [lastBefore_succ_of_not h]

/-- The offsets that the loop reads. -/
theorem mem_turns_reads (a : Nat) :
    a ∈ (turns data N).reads ↔
      ∃ n < N, a = (chain data n).toNat ∨ a = (chain data n).toNat + 1 := by
  induction N with
  | zero => simp [turns, Parse.init]
  | succ N ih =>
    have hreads : (parseField data (turns data N)).reads = (turns data N).reads ++
        [(turns data N).index.toNat, ((turns data N).index + 1).toNat] := by
      rw [parseField]
      dsimp only
      split
      · rfl
      · split <;> rfl
    rw [turns_succ, hreads, turns_index, List.mem_append, exists_lt_succ_iff,
      ih fun n hn => hin n (Nat.lt_succ_of_lt hn), toNat_succ_of_lt (hin N (Nat.lt_succ_self N)),
      or_comm]
    simp only [List.mem_cons, List.not_mem_nil, or_false]

end Pointers

/-! ## The structures that the loop comes to -/

/-- In a payload of structures that fit, the chain goes from one to the next. -/
theorem Structures.iterate_mem {stop i : Nat} {is : List Nat} (h : Structures data stop i is)
    (hstop : stop < 256) {c : UInt8} (hc : c.toNat = i) {n : Nat}
    (hin : ∀ k ≤ n, ((nextIndex data)^[k] c).toNat < stop) :
    ((nextIndex data)^[n] c).toNat ∈ is := by
  induction h generalizing c n with
  | done => exact absurd (hin 0 (Nat.zero_le n)) (by rw [Function.iterate_zero, id, hc]; omega)
  | @next i is typed fits rest ih =>
    cases n with
    | zero => exact List.mem_cons.mpr (.inl hc)
    | succ n =>
      have hnext : (nextIndex data c).toNat = i + 1 + (data i).toNat := by
        have hone : (1 : UInt8).toNat = 1 := rfl
        rw [nextIndex, UInt8.toNat_add, UInt8.toNat_add, hc]
        omega
      refine List.mem_cons_of_mem _ (ih hnext fun k hk => ?_)
      exact hin (k + 1) (Nat.succ_le_succ hk)

theorem Structures.reached_mem {r : AdvReport} {is : List Nat}
    (h : Structures r.data r.dlen.toNat 0 is) {n : Nat} (hn : Reached r n) :
    (chain r.data n).toNat ∈ is := by
  refine h.iterate_mem r.dlen.toNat_lt rfl fun k hk => ?_
  exact UInt8.lt_iff_toNat_lt.mp (UInt8.not_le.mp fun hle => hn k hk (.inl hle))

/-! ## What is read and reported -/

section Report

variable {rssi : Int8} {p : Parse}

theorem badge_len_ne_ibeacon : advertiserGetManufDataLen ≠ ibeaconManufDataLen := by decide

theorem reportOf_badge {name manufData : Nat} (hname : p.namePtr = some name)
    (hdata : p.manufDataPtr = some manufData)
    (hlen : p.manufDataLen = advertiserGetManufDataLen) :
    reportOf rssi data p =
      if slice data name 5 = advertisingDeviceName then
        (some (badgeReport rssi data manufData),
          List.range' name 5 ++ List.range' (manufData + 2) 11)
      else (none, List.range' name 5) := by
  rw [reportOf, if_pos hlen, hname, hdata]
  rfl

theorem reportOf_ibeacon {manufData : Nat} (hdata : p.manufDataPtr = some manufData)
    (hlen : p.manufDataLen = ibeaconManufDataLen) :
    reportOf rssi data p =
      (if IsProximityBeacon data manufData then some (ibeaconReport rssi data manufData)
        else none, List.range' manufData 25) := by
  rw [reportOf, if_neg (hlen ▸ badge_len_ne_ibeacon.symm), if_pos hlen, hdata]
  rfl

/-- Without the pointers, or with another length, nothing more is read. -/
theorem reportOf_neither
    (hbadge : ∀ name manufData, p.namePtr = some name → p.manufDataPtr = some manufData →
      p.manufDataLen ≠ advertiserGetManufDataLen)
    (hibeacon : ∀ manufData, p.manufDataPtr = some manufData →
      p.manufDataLen ≠ ibeaconManufDataLen) :
    reportOf rssi data p = (none, []) := by
  rw [reportOf]
  split
  · next hlen =>
    split
    · next name manufData hname hdata => exact absurd hlen (hbadge name manufData hname hdata)
    · rfl
  · split
    · next hlen =>
      split
      · next manufData hdata => exact absurd hlen (hibeacon manufData hdata)
      · rfl
    · rfl

end Report

section Parsed

variable {r : AdvReport} {N : Nat}

/-- In front of its end the loop has come to every structure. -/
theorem reached_iff (hnot : ∀ m < N, ¬ Over r.data r.dlen m) (hover : Over r.data r.dlen N)
    {n : Nat} : Reached r n ↔ n < N := by
  constructor
  · intro h
    by_contra hle
    exact h N (Nat.not_lt.mp hle) hover
  · exact fun h m hm => hnot m (Nat.lt_of_le_of_lt hm h)

variable (hnot : ∀ m < N, ¬ Over r.data r.dlen m) (hover : Over r.data r.dlen N)
include hnot

theorem chain_lt_of_not_over : ∀ n < N, chain r.data n < r.dlen :=
  fun n hn => UInt8.not_le.mp fun hle => hnot n hn (.inl hle)

include hover

theorem last_iff {P : UInt8 → Prop} {n : Nat} : Last r P n ↔ LastBefore r.data P N n := by
  simp only [Last, LastBefore, reached_iff hnot hover]

theorem dataLen_iff {manufData : Nat} {len : UInt8} :
    (∃ m, Last r (ManufAt r.data) m ∧ manufData = (chain r.data m).toNat + 2 ∧
        r.data (chain r.data m).toNat - 1 = len) ↔
      (turns r.data N).manufDataPtr = some manufData ∧ (turns r.data N).manufDataLen = len := by
  rw [turns_manuf_eq (chain_lt_of_not_over hnot)]
  simp only [last_iff hnot hover]

theorem nameOfBadge_iff {name manufData : Nat} :
    NameOfBadge r name manufData ↔
      (turns r.data N).namePtr = some name ∧ (turns r.data N).manufDataPtr = some manufData ∧
        (turns r.data N).manufDataLen = advertiserGetManufDataLen := by
  rw [turns_namePtr_eq (chain_lt_of_not_over hnot), ← dataLen_iff hnot hover]
  constructor
  · rintro ⟨n, m, hn, hm, hname, hdata⟩
    exact ⟨⟨n, (last_iff hnot hover).mp hn, hname⟩, m, hm, hdata⟩
  · rintro ⟨⟨n, hn, hname⟩, m, hm, hdata⟩
    exact ⟨n, m, (last_iff hnot hover).mpr hn, hm, hname, hdata⟩

theorem dataOfIbeacon_iff {manufData : Nat} :
    DataOfIbeacon r manufData ↔
      (turns r.data N).manufDataPtr = some manufData ∧
        (turns r.data N).manufDataLen = ibeaconManufDataLen :=
  dataLen_iff hnot hover

/-- The code looks at a badge's two structures, at an iBeacon's data or at nothing more. -/
theorem reportOf_cases (rssi : Int8) :
    (∃ name manufData,
        (∀ name' manufData', NameOfBadge r name' manufData' ↔
          name' = name ∧ manufData' = manufData) ∧
        (∀ manufData', ¬ DataOfIbeacon r manufData') ∧
        reportOf rssi r.data (turns r.data N) =
          if slice r.data name 5 = advertisingDeviceName then
            (some (badgeReport rssi r.data manufData),
              List.range' name 5 ++ List.range' (manufData + 2) 11)
          else (none, List.range' name 5)) ∨
      (∃ manufData,
        (∀ name manufData', ¬ NameOfBadge r name manufData') ∧
        (∀ manufData', DataOfIbeacon r manufData' ↔ manufData' = manufData) ∧
        reportOf rssi r.data (turns r.data N) =
          (if IsProximityBeacon r.data manufData then some (ibeaconReport rssi r.data manufData)
            else none, List.range' manufData 25)) ∨
      ((∀ name manufData, ¬ NameOfBadge r name manufData) ∧
        (∀ manufData, ¬ DataOfIbeacon r manufData) ∧
        reportOf rssi r.data (turns r.data N) = (none, [])) := by
  by_cases hbadge : ∃ name manufData, NameOfBadge r name manufData
  · obtain ⟨name, manufData, h⟩ := hbadge
    obtain ⟨hname, hdata, hlen⟩ := (nameOfBadge_iff hnot hover).mp h
    refine .inl ⟨name, manufData, fun name' manufData' => ?_, fun manufData' h' => ?_,
      reportOf_badge hname hdata hlen⟩
    · rw [nameOfBadge_iff hnot hover, hname, hdata, Option.some.injEq, Option.some.injEq,
        eq_comm, eq_comm (a := manufData)]
      exact and_congr_right fun _ => and_iff_left hlen
    · have hlen' := ((dataOfIbeacon_iff hnot hover).mp h').2
      exact badge_len_ne_ibeacon (hlen.symm.trans hlen')
  · have hnobadge : ∀ name manufData, ¬ NameOfBadge r name manufData :=
      fun name manufData h => hbadge ⟨name, manufData, h⟩
    by_cases hibeacon : ∃ manufData, DataOfIbeacon r manufData
    · obtain ⟨manufData, h⟩ := hibeacon
      obtain ⟨hdata, hlen⟩ := (dataOfIbeacon_iff hnot hover).mp h
      refine .inr (.inl ⟨manufData, hnobadge, fun manufData' => ?_, reportOf_ibeacon hdata hlen⟩)
      rw [dataOfIbeacon_iff hnot hover, hdata, Option.some.injEq, eq_comm]
      exact and_iff_left hlen
    · have hnoibeacon : ∀ manufData, ¬ DataOfIbeacon r manufData :=
        fun manufData h => hibeacon ⟨manufData, h⟩
      refine .inr (.inr ⟨hnobadge, hnoibeacon, reportOf_neither ?_ ?_⟩)
      · exact fun name manufData hname hdata hlen =>
          hnobadge name manufData ((nameOfBadge_iff hnot hover).mpr ⟨hname, hdata, hlen⟩)
      · exact fun manufData hdata hlen =>
          hnoibeacon manufData ((dataOfIbeacon_iff hnot hover).mpr ⟨hdata, hlen⟩)

theorem report_iff (rssi : Int8) (report : ScanReport) :
    (reportOf rssi r.data (turns r.data N)).1 = some report ↔
      (∃ manufData, TakenForBadge r manufData ∧ report = badgeReport rssi r.data manufData) ∨
        ∃ manufData, TakenForIbeacon r manufData ∧
          report = ibeaconReport rssi r.data manufData := by
  simp only [TakenForBadge, TakenForIbeacon]
  obtain ⟨name, manufData, hb, hi, heq⟩ | ⟨manufData, hb, hi, heq⟩ | ⟨hb, hi, heq⟩ :=
    reportOf_cases hnot hover rssi
  · rw [heq]
    by_cases hslice : slice r.data name 5 = advertisingDeviceName
    · simp [hb, hi, hslice, eq_comm]
    · have hne : ∀ name' manufData', ¬ ((name' = name ∧ manufData' = manufData) ∧
          slice r.data name' 5 = advertisingDeviceName) := by
        rintro name' manufData' ⟨⟨rfl, -⟩, h⟩
        exact hslice h
      simp [hb, hi, hslice, hne]
  · rw [heq]
    by_cases hprox : IsProximityBeacon r.data manufData <;> simp [hb, hi, hprox, eq_comm]
  · simp [heq, hb, hi]

theorem reportOf_reads_iff (rssi : Int8) (stop : Nat) :
    (∀ a ∈ (reportOf rssi r.data (turns r.data N)).2, a < stop) ↔
      (∀ name manufData, NameOfBadge r name manufData → name + 5 ≤ stop) ∧
        (∀ manufData, TakenForBadge r manufData → manufData + 13 ≤ stop) ∧
        ∀ manufData, DataOfIbeacon r manufData → manufData + 25 ≤ stop := by
  have hrange : ∀ s n, (∀ a ∈ List.range' s (n + 1), a < stop) ↔ s + (n + 1) ≤ stop := by
    intro s n
    simp only [List.mem_range'_1]
    exact ⟨fun h => h (s + n) (by omega), fun h a ha => by omega⟩
  obtain ⟨name, manufData, hb, hi, heq⟩ | ⟨manufData, hb, hi, heq⟩ | ⟨hb, hi, heq⟩ :=
    reportOf_cases hnot hover rssi
  · have hname : (∀ name' manufData', NameOfBadge r name' manufData' → name' + 5 ≤ stop) ↔
        name + 5 ≤ stop := by
      simp only [hb, and_imp, forall_eq_apply_imp_iff, forall_eq]
    have hibeacon : ∀ manufData', DataOfIbeacon r manufData' → manufData' + 25 ≤ stop :=
      fun manufData' h => absurd h (hi manufData')
    have htaken : (∀ manufData', TakenForBadge r manufData' → manufData' + 13 ≤ stop) ↔
        (slice r.data name 5 = advertisingDeviceName → manufData + 13 ≤ stop) := by
      constructor
      · exact fun h hslice => h manufData ⟨name, (hb _ _).mpr ⟨rfl, rfl⟩, hslice⟩
      · rintro h manufData' ⟨name', hnb, hslice⟩
        obtain ⟨rfl, rfl⟩ := (hb _ _).mp hnb
        exact h hslice
    rw [heq, hname, htaken, and_iff_left hibeacon]
    by_cases hslice : slice r.data name 5 = advertisingDeviceName
    · simp only [hslice, if_true, List.mem_append, or_imp, forall_and, hrange, forall_const]
    · simp only [hslice, if_false, hrange, false_implies, and_true]
  · have htaken : ∀ manufData', TakenForBadge r manufData' → manufData' + 13 ≤ stop :=
      fun manufData' ⟨name, h, _⟩ => absurd h (hb name manufData')
    have hname : ∀ name manufData', NameOfBadge r name manufData' → name + 5 ≤ stop :=
      fun name manufData' h => absurd h (hb name manufData')
    rw [heq, and_iff_right hname, and_iff_right htaken]
    simp only [hi, hrange, forall_eq]
  · have htaken : ∀ manufData, ¬ TakenForBadge r manufData :=
      fun manufData ⟨name, h, _⟩ => hb name manufData h
    simp [heq, hb, hi, htaken]

theorem reads_inside_iff (rssi : Int8) :
    (∀ a ∈ (turns r.data N).reads ++ (reportOf rssi r.data (turns r.data N)).2,
        a < r.dlen.toNat) ↔
      (∀ n, Reached r n → (chain r.data n).toNat + 1 < r.dlen.toNat) ∧
        (∀ name manufData, NameOfBadge r name manufData → name + 5 ≤ r.dlen.toNat) ∧
        (∀ manufData, TakenForBadge r manufData → manufData + 13 ≤ r.dlen.toNat) ∧
        ∀ manufData, DataOfIbeacon r manufData → manufData + 25 ≤ r.dlen.toNat := by
  rw [← reportOf_reads_iff hnot hover rssi]
  simp only [List.mem_append, or_imp, forall_and]
  refine and_congr_left fun _ => ?_
  have hin := chain_lt_of_not_over hnot
  simp only [mem_turns_reads hin, reached_iff hnot hover]
  constructor
  · exact fun h n hn => h _ ⟨n, hn, .inr rfl⟩
  · rintro h a ⟨n, hn, rfl | rfl⟩
    · exact Nat.lt_of_succ_lt (h n hn)
    · exact h n hn

end Parsed

/-! ## Taken for a device and being one -/

section Devices

variable {r : AdvReport} {manufData : Nat}

theorem Reached.lt {n : Nat} (h : Reached r n) : chain r.data n < r.dlen :=
  UInt8.not_le.mp fun hle => h n (Nat.le_refl n) (.inl hle)

/-- Manufacturer data that the loop comes to are those of a structure of the payload. -/
theorem Reached.isManufData {n : Nat} {len : UInt8} {is : List Nat} (h : Reached r n)
    (hmanuf : ManufAt r.data (chain r.data n)) (hlen : r.data (chain r.data n).toNat - 1 = len)
    (hs : Structures r.data r.dlen.toNat 0 is) :
    (chain r.data n).toNat ∈ is ∧ IsManufData r.data len (chain r.data n).toNat := by
  rw [ManufAt, toNat_succ_of_lt h.lt] at hmanuf
  exact ⟨hs.reached_mem h, hmanuf, hlen⟩

theorem TakenForBadge.contains (h : TakenForBadge r manufData) {is : List Nat}
    (hs : Structures r.data r.dlen.toNat 0 is) (hname : ∃ n ∈ is, IsBadgeName r.data n) :
    ContainsBadge r.data r.dlen (le16 r.data (manufData + 4)) (r.data (manufData + 6)) := by
  obtain ⟨name, ⟨-, m, -, ⟨hm, hmanuf, -⟩, -, rfl, hlen⟩, -⟩ := h
  obtain ⟨hmem, hdata⟩ := hm.isManufData hmanuf hlen hs
  exact ⟨is, hs, hname, _, hmem, hdata, rfl, rfl⟩

theorem TakenForIbeacon.contains (h : TakenForIbeacon r manufData) {is : List Nat}
    (hs : Structures r.data r.dlen.toNat 0 is) :
    ContainsIbeacon r.data r.dlen (be16 r.data (manufData + 22)) (r.data (manufData + 21)) := by
  obtain ⟨⟨m, ⟨hm, hmanuf, -⟩, rfl, hlen⟩, hprox⟩ := h
  obtain ⟨hmem, hdata⟩ := hm.isManufData hmanuf hlen hs
  exact ⟨is, hs, _, hmem, hdata, hprox, rfl, rfl⟩

end Devices

/-- A report that is parsed to its end is parsed exactly, and in bounds, if and only if it is
one that the code handles. -/
theorem scan_report_parsed_exactly_iff {r : AdvReport} {fuel : Nat}
    {result : Option ScanReport × List Nat} (hstrong : ¬ r.rssi < scannerMinimumRssi)
    (hend : internalOnScanReportCallback fuel r = some result) :
    ParsedExactly r result ↔ Handled r := by
  rw [internalOnScanReportCallback, if_neg hstrong, Option.map_eq_some_iff] at hend
  obtain ⟨t, ht, rfl⟩ := hend
  obtain ⟨N, -, rfl, hstop, hgo⟩ := parseLoop_eq_some.mp ht
  change ¬ (turns r.data N).Continues r.dlen at hstop
  have hover := (over_iff N).mpr hstop
  have hnot : ∀ m < N, ¬ Over r.data r.dlen m :=
    fun m hm h => (over_iff m).mp h (hgo m hm)
  have hreads := reads_inside_iff hnot hover r.rssi
  have hreport := report_iff hnot hover r.rssi
  constructor
  · rintro ⟨hin, hreal, hreported⟩
    obtain ⟨htype, hname, hbadge, hibeacon⟩ := hreads.mp hin
    refine ⟨htype, hname, hbadge, hibeacon, ?_, ?_, ?_, ?_⟩
    · intro manufData h
      obtain ⟨is, hs, hnames, -⟩ := hreal _ ((hreport _).mpr (.inl ⟨manufData, h, rfl⟩))
      exact ⟨is, hs, hnames⟩
    · intro manufData h
      obtain ⟨is, hs, -⟩ := hreal _ ((hreport _).mpr (.inr ⟨manufData, h, rfl⟩))
      exact ⟨is, hs⟩
    · rintro is hs hnames ⟨m, hm, hdata⟩
      obtain ⟨report, hsome, hkind⟩ :=
        hreported .badge _ _ ⟨is, hs, hnames, m, hm, hdata, rfl, rfl⟩
      obtain ⟨manufData, h, -⟩ | ⟨manufData, -, rfl⟩ := (hreport report).mp hsome
      · exact ⟨manufData, h⟩
      · cases hkind
    · rintro is hs ⟨m, hm, hdata, hprox⟩
      obtain ⟨report, hsome, hkind⟩ :=
        hreported .ibeacon _ _ ⟨is, hs, m, hm, hdata, hprox, rfl, rfl⟩
      obtain ⟨manufData, -, rfl⟩ | ⟨manufData, h, -⟩ := (hreport report).mp hsome
      · cases hkind
      · exact ⟨manufData, h⟩
  · intro hh
    refine ⟨?_, ?_, ?_⟩
    · exact hreads.mpr ⟨hh.type_inside, hh.name_inside, hh.badge_inside, hh.ibeacon_inside⟩
    · intro report hsome
      obtain ⟨manufData, h, rfl⟩ | ⟨manufData, h, rfl⟩ := (hreport report).mp hsome
      · obtain ⟨is, hs, hnames⟩ := hh.badge_whole manufData h
        exact h.contains hs hnames
      · obtain ⟨is, hs⟩ := hh.ibeacon_whole manufData h
        exact h.contains hs
    · intro kind id group h
      cases kind with
      | badge =>
        obtain ⟨is, hs, hnames, m, hm, hdata, -⟩ := h
        obtain ⟨manufData, htaken⟩ := hh.badge_last is hs hnames ⟨m, hm, hdata⟩
        exact ⟨_, (hreport _).mpr (.inl ⟨manufData, htaken, rfl⟩), rfl⟩
      | ibeacon =>
        obtain ⟨is, hs, m, hm, hdata, hprox, -⟩ := h
        obtain ⟨manufData, htaken⟩ := hh.ibeacon_last is hs ⟨m, hm, hdata, hprox⟩
        exact ⟨_, (hreport _).mpr (.inr ⟨manufData, htaken, rfl⟩), rfl⟩

/-- A badge's name and its manufacturer data. -/
def badgePayload : AdvReport :=
  ⟨-60, 22, fun i => [6, 9, 0x48, 0x44, 0x42, 0x44, 0x47,
    14, 0xFF, 0xFF, 0xFF, 0, 0, 0x34, 0x12, 7, 1, 2, 3, 4, 5, 6].getD i 0⟩

theorem scan_report_parsed_exactly_iff_badge :
    ¬ badgePayload.rssi < scannerMinimumRssi ∧
      ∃ result, internalOnScanReportCallback 2 badgePayload = some result ∧
        result.1 = some ⟨0x1234, 7, .badge, -60⟩ ∧
        (ParsedExactly badgePayload result ↔ Handled badgePayload) := by
  have hend : internalOnScanReportCallback 2 badgePayload = some
      (some ⟨0x1234, 7, .badge, -60⟩,
        [0, 1, 7, 8, 2, 3, 4, 5, 6, 11, 12, 13, 14, 15, 16, 17, 18, 19, 20, 21]) := by decide
  exact ⟨by decide, _, hend, rfl, scan_report_parsed_exactly_iff (by decide) hend⟩

/-- A structure whose length byte is the last byte of the payload. -/
def truncatedReport : AdvReport := ⟨-60, 1, fun i => [5].getD i 0⟩

/-- The type byte is read behind the payload. -/
theorem truncated_structure_read_behind :
    ¬ truncatedReport.rssi < scannerMinimumRssi ∧
      ∃ result, internalOnScanReportCallback 1 truncatedReport = some result ∧
        ¬ ParsedExactly truncatedReport result := by
  refine ⟨by decide, (none, [0, 1]), by decide, fun h => ?_⟩
  exact absurd (h.in_bounds 1 (by decide)) (by decide)

end OpenBadge.Scanner
