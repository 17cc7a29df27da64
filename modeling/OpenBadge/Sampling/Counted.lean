import Mathlib.Algebra.Order.BigOperators.Group.List
import Mathlib.Algebra.Order.Ring.Int
import Mathlib.Data.List.Induction
import Mathlib.Data.List.Nodup
import OpenBadge.Sampling.Scan

/-!
# The reports of a scan, device by device

What a chunk should hold of the reports that are counted, and what `addReport` and
`processReports` make of them: a report is counted at the entry of its device, up to 255
devices with up to 255 reports each.
-/

namespace OpenBadge.Sampling

open OpenBadge.Lib

/-- A report of the filtered group, with the aggregation type of its time. -/
structure Counted where
  aggregationType : UInt8
  report : Report

/-- The devices in the order of their first reports. -/
def distinctIds (cs : List Counted) : List UInt16 :=
  cs.foldl (fun ids c => if c.report.id ∈ ids then ids else ids ++ [c.report.id]) []

def reportsOf (id : UInt16) (cs : List Counted) : List Counted :=
  cs.filter fun c => c.report.id = id

/-- The first 255 reports of a device. -/
def firstReportsOf (id : UInt16) (cs : List Counted) : List Counted := (reportsOf id cs).take 255

/-- The maximum of the RSSI values, or their mean, rounded toward zero. -/
def Aggregated (aggregationType : UInt8) (cs : List Counted) (x : Int8) : Prop :=
  if aggregationType = 0 then (∃ c ∈ cs, x = c.report.rssi) ∧ ∀ c ∈ cs, c.report.rssi ≤ x
  else x.toInt = (cs.map fun c : Counted => c.report.rssi.toInt).sum.tdiv cs.length

/-- The value lies between the minimum and the maximum. -/
def Between (cs : List Counted) (x : Int8) : Prop :=
  (∃ c ∈ cs, c.report.rssi ≤ x) ∧ ∃ c ∈ cs, x ≤ c.report.rssi

/-! ## Distinct devices -/

section Ids

variable {cs : List Counted} {c : Counted}

theorem distinctIds_append (cs : List Counted) (c : Counted) :
    distinctIds (cs ++ [c]) =
      if c.report.id ∈ distinctIds cs then distinctIds cs else distinctIds cs ++ [c.report.id] := by
  rw [distinctIds, List.foldl_append]
  rfl

theorem nodup_distinctIds (cs : List Counted) : (distinctIds cs).Nodup := by
  induction cs using List.reverseRecOn with
  | nil => exact List.nodup_nil
  | append_singleton cs c ih =>
    rw [distinctIds_append]
    by_cases h : c.report.id ∈ distinctIds cs
    · rw [if_pos h]
      exact ih
    · rw [if_neg h]
      exact (List.perm_append_singleton _ _).nodup_iff.mpr (List.nodup_cons.mpr ⟨h, ih⟩)

theorem mem_distinctIds {id : UInt16} : id ∈ distinctIds cs ↔ ∃ c ∈ cs, c.report.id = id := by
  induction cs using List.reverseRecOn with
  | nil => simp [distinctIds]
  | append_singleton cs c ih =>
    have hlast : (∃ d ∈ cs ++ [c], d.report.id = id) ↔
        (∃ d ∈ cs, d.report.id = id) ∨ c.report.id = id := by
      simp only [List.mem_append, List.mem_singleton, or_and_right, exists_or, exists_eq_left]
    rw [distinctIds_append, hlast, ← ih]
    split
    · next h =>
      constructor
      · exact .inl
      · rintro (hid | rfl)
        · exact hid
        · exact h
    · rw [List.mem_append, List.mem_singleton, eq_comm (a := id)]

theorem reportsOf_append (id : UInt16) (cs : List Counted) (c : Counted) :
    reportsOf id (cs ++ [c]) =
      if c.report.id = id then reportsOf id cs ++ [c] else reportsOf id cs := by
  rw [reportsOf, List.filter_append, reportsOf]
  by_cases h : c.report.id = id
  · simp only [List.filter_cons, h, decide_true, if_true, List.filter_nil]
  · simp only [List.filter_cons, h, decide_false, Bool.false_eq_true, if_false, List.filter_nil,
      List.append_nil]

theorem reportsOf_eq_nil_iff {id : UInt16} : reportsOf id cs = [] ↔ id ∉ distinctIds cs := by
  rw [mem_distinctIds, reportsOf, List.filter_eq_nil_iff]
  simp only [decide_eq_true_eq, not_exists, not_and]

end Ids

/-! ## The aggregated value of a device -/

/-- What stands in `scan_aggregated_rssi` for a device after these reports. -/
def aggregateReports : List Counted → Int
  | [] => 0
  | c :: cs => cs.foldl
      (fun aggregated d => aggregateScanSample d.aggregationType aggregated d.report.rssi.toInt)
      c.report.rssi.toInt

theorem aggregateReports_append {cs : List Counted} (h : cs ≠ []) (c : Counted) :
    aggregateReports (cs ++ [c]) =
      aggregateScanSample c.aggregationType (aggregateReports cs) c.report.rssi.toInt := by
  cases cs with
  | nil => exact absurd rfl h
  | cons first rest =>
    rw [List.cons_append, aggregateReports, List.foldl_append]
    rfl

section Values

variable {cs : List Counted}

theorem tail_append_singleton {c : Counted} (h : cs ≠ []) :
    (cs ++ [c]).tail = cs.tail ++ [c] := List.tail_append_singleton_of_ne_nil h

/-- Reports that are aggregated by the maximum. -/
theorem aggregateReports_max (hne : cs ≠ []) (h : ∀ c ∈ cs.tail, c.aggregationType = 0) :
    (∃ c ∈ cs, aggregateReports cs = c.report.rssi.toInt) ∧
      ∀ c ∈ cs, c.report.rssi.toInt ≤ aggregateReports cs := by
  induction cs using List.reverseRecOn with
  | nil => exact absurd rfl hne
  | append_singleton cs c ih =>
    by_cases hcs : cs = []
    · subst hcs
      refine ⟨⟨c, List.mem_singleton_self c, rfl⟩, fun d hd => ?_⟩
      rw [List.mem_singleton.mp hd]
      exact le_refl _
    · rw [tail_append_singleton hcs] at h
      obtain ⟨⟨d, hd, heq⟩, hle⟩ := ih hcs fun d hd => h d (List.mem_append_left _ hd)
      rw [aggregateReports_append hcs, aggregateScanSample,
        if_pos (h c (List.mem_append_right _ (List.mem_singleton_self c)))]
      split
      · next hgt =>
        refine ⟨⟨d, List.mem_append_left _ hd, heq⟩, fun e he => ?_⟩
        rcases List.mem_append.mp he with he | he
        · exact hle e he
        · rw [List.mem_singleton.mp he]
          exact hgt.le
      · next hgt =>
        refine ⟨⟨c, List.mem_append_right _ (List.mem_singleton_self c), rfl⟩, fun e he => ?_⟩
        rcases List.mem_append.mp he with he | he
        · exact (hle e he).trans (not_lt.mp hgt)
        · rw [List.mem_singleton.mp he]

/-- Reports that are added up. -/
theorem aggregateReports_sum (h : ∀ c ∈ cs.tail, c.aggregationType ≠ 0) :
    aggregateReports cs = (cs.map fun c : Counted => c.report.rssi.toInt).sum := by
  induction cs using List.reverseRecOn with
  | nil => rfl
  | append_singleton cs c ih =>
    by_cases hcs : cs = []
    · subst hcs
      rw [List.nil_append, List.map_singleton, List.sum_singleton]
      rfl
    · rw [tail_append_singleton hcs] at h
      rw [aggregateReports_append hcs, aggregateScanSample,
        if_neg (h c (List.mem_append_right _ (List.mem_singleton_self c))),
        ih fun d hd => h d (List.mem_append_left _ hd), List.map_append, List.map_singleton,
        List.sum_append, List.sum_singleton, add_comm]

/-- The quotient rounded toward zero lies between the bounds. -/
theorem tdiv_between {sum k lo hi : Int} (hk : 0 < k) (hlo : lo * k ≤ sum) (hhi : sum ≤ hi * k) :
    lo ≤ sum.tdiv k ∧ sum.tdiv k ≤ hi := by
  rcases le_total 0 sum with h | h
  · rw [Int.tdiv_eq_ediv_of_nonneg h]
    exact ⟨(Int.le_ediv_iff_mul_le hk).mpr hlo, Int.ediv_le_of_le_mul hk hhi⟩
  · have hneg : sum.tdiv k = -(-sum / k) := by
      rw [← Int.tdiv_eq_ediv_of_nonneg (neg_nonneg.mpr h), Int.neg_tdiv, neg_neg]
    rw [hneg]
    constructor
    · rw [le_neg]
      exact Int.ediv_le_of_le_mul hk (by rw [Int.neg_mul]; exact Int.neg_le_neg hlo)
    · rw [neg_le]
      exact (Int.le_ediv_iff_mul_le hk).mpr (by rw [Int.neg_mul]; exact Int.neg_le_neg hhi)

theorem between_of_max {x : Int8} (h : (∃ c ∈ cs, x = c.report.rssi) ∧ ∀ c ∈ cs, c.report.rssi ≤ x) :
    Between cs x := by
  obtain ⟨⟨c, hc, rfl⟩, -⟩ := h
  exact ⟨⟨c, hc, Int8.le_refl _⟩, c, hc, Int8.le_refl _⟩

/-- A mean lies between the minimum and the maximum. -/
theorem exists_bounds (hne : cs ≠ []) :
    ∃ lo ∈ cs, ∃ hi ∈ cs, ∀ c ∈ cs,
      lo.report.rssi.toInt ≤ c.report.rssi.toInt ∧ c.report.rssi.toInt ≤ hi.report.rssi.toInt := by
  induction cs with
  | nil => exact absurd rfl hne
  | cons first rest ih =>
    by_cases hrest : rest = []
    · subst hrest
      refine ⟨first, List.mem_singleton_self _, first, List.mem_singleton_self _, fun c hc => ?_⟩
      rw [List.mem_singleton.mp hc]
      exact ⟨le_refl _, le_refl _⟩
    · obtain ⟨lo, hlo, hi, hhi, hall⟩ := ih hrest
      have hlow : ∃ lo' ∈ first :: rest, lo'.report.rssi.toInt ≤ first.report.rssi.toInt ∧
          lo'.report.rssi.toInt ≤ lo.report.rssi.toInt := by
        rcases le_total first.report.rssi.toInt lo.report.rssi.toInt with h | h
        · exact ⟨first, List.mem_cons_self, le_refl _, h⟩
        · exact ⟨lo, List.mem_cons_of_mem _ hlo, h, le_refl _⟩
      have hhigh : ∃ hi' ∈ first :: rest, first.report.rssi.toInt ≤ hi'.report.rssi.toInt ∧
          hi.report.rssi.toInt ≤ hi'.report.rssi.toInt := by
        rcases le_total first.report.rssi.toInt hi.report.rssi.toInt with h | h
        · exact ⟨hi, List.mem_cons_of_mem _ hhi, h, le_refl _⟩
        · exact ⟨first, List.mem_cons_self, le_refl _, h⟩
      obtain ⟨lo', hlo', hfirst, hle⟩ := hlow
      obtain ⟨hi', hhi', hfirst', hle'⟩ := hhigh
      refine ⟨lo', hlo', hi', hhi', fun c hc => ?_⟩
      rcases List.mem_cons.mp hc with rfl | hc
      · exact ⟨hfirst, hfirst'⟩
      · exact ⟨hle.trans (hall c hc).1, (hall c hc).2.trans hle'⟩

theorem mean_between (hne : cs ≠ []) {count : Int} (hcount : count = cs.length) :
    ∃ lo ∈ cs, ∃ hi ∈ cs,
      lo.report.rssi.toInt ≤
          (cs.map fun c : Counted => c.report.rssi.toInt).sum.tdiv count ∧
        (cs.map fun c : Counted => c.report.rssi.toInt).sum.tdiv count ≤ hi.report.rssi.toInt := by
  obtain ⟨lo, hlo, hi, hhi, hall⟩ := exists_bounds hne
  have hpos : 0 < count := by
    rw [hcount]
    exact Int.natCast_pos.mpr (List.length_pos_iff.mpr hne)
  have hlower := List.card_nsmul_le_sum (cs.map fun c : Counted => c.report.rssi.toInt)
    lo.report.rssi.toInt (List.forall_mem_map.mpr fun c hc => (hall c hc).1)
  have hupper := List.sum_le_card_nsmul (cs.map fun c : Counted => c.report.rssi.toInt)
    hi.report.rssi.toInt (List.forall_mem_map.mpr fun c hc => (hall c hc).2)
  rw [List.length_map, nsmul_eq_mul, ← hcount, mul_comm] at hlower hupper
  exact ⟨lo, hlo, hi, hhi, tdiv_between hpos hlower hupper⟩

/-- What the end of the scan makes of the aggregated value of a device. -/
theorem processed_of_unmixed {aggregationType : UInt8} {count : UInt8} (hne : cs ≠ [])
    (hcount : count.toNat = cs.length)
    (h : ∀ c ∈ cs.tail, c.aggregationType = 0 ↔ aggregationType = 0) :
    Aggregated aggregationType cs
        (processScanSample aggregationType (aggregateReports cs) count) ∧
      Between cs (processScanSample aggregationType (aggregateReports cs) count) := by
  rw [Aggregated, processScanSample]
  by_cases ht : aggregationType = 0
  · obtain ⟨⟨c, hc, heq⟩, hle⟩ := aggregateReports_max hne fun c hc => (h c hc).mpr ht
    have hmax : (∃ d ∈ cs, Int8.ofInt (aggregateReports cs) = d.report.rssi) ∧
        ∀ d ∈ cs, d.report.rssi ≤ Int8.ofInt (aggregateReports cs) := by
      rw [heq, Int8.ofInt_toInt]
      refine ⟨⟨c, hc, rfl⟩, fun d hd => Int8.le_iff_toInt_le.mpr ?_⟩
      rw [← heq]
      exact hle d hd
    rw [if_pos ht, if_pos ht]
    exact ⟨hmax, between_of_max hmax⟩
  · rw [if_neg ht, if_neg ht, aggregateReports_sum fun c hc => mt (h c hc).mp ht, hcount]
    obtain ⟨lo, hlo, hi, hhi, hle, hge⟩ := mean_between hne (rfl : (cs.length : Int) = _)
    have htoInt : (Int8.ofInt ((cs.map fun c : Counted => c.report.rssi.toInt).sum.tdiv
        cs.length)).toInt = (cs.map fun c : Counted => c.report.rssi.toInt).sum.tdiv cs.length :=
      Int8.toInt_ofInt_of_le ((Int8.le_toInt _).trans hle) (hge.trans_lt (Int8.toInt_lt _))
    refine ⟨htoInt, ⟨lo, hlo, ?_⟩, hi, hhi, ?_⟩
    · rw [Int8.le_iff_toInt_le, htoInt]
      exact hle
    · rw [Int8.le_iff_toInt_le, htoInt]
      exact hge

end Values

/-! ## The chunk while it is built -/

theorem firstReportsOf_append (id : UInt16) (cs : List Counted) (c : Counted) :
    firstReportsOf id (cs ++ [c]) =
      if c.report.id = id ∧ (firstReportsOf id cs).length < 255 then firstReportsOf id cs ++ [c]
      else firstReportsOf id cs := by
  rw [firstReportsOf, reportsOf_append, firstReportsOf]
  by_cases hid : c.report.id = id
  · rw [if_pos hid, List.length_take]
    by_cases hlen : (reportsOf id cs).length < 255
    · rw [if_pos ⟨hid, by omega⟩, List.take_of_length_le hlen.le,
        List.take_of_length_le (by rw [List.length_append, List.length_singleton]; omega)]
    · rw [if_neg (fun h => hlen (by omega)), List.take_append_of_le_length (not_lt.mp hlen)]
  · rw [if_neg hid, if_neg fun h => hid h.1]

theorem firstReportsOf_ne_nil {id : UInt16} {cs : List Counted} (h : id ∈ distinctIds cs) :
    firstReportsOf id cs ≠ [] := by
  rw [firstReportsOf, Ne, List.take_eq_nil_iff, reportsOf_eq_nil_iff, not_or]
  exact ⟨by decide, not_not_intro h⟩

theorem firstReportsOf_eq_nil {id : UInt16} {cs : List Counted} (h : id ∉ distinctIds cs) :
    firstReportsOf id cs = [] := by
  rw [firstReportsOf, reportsOf_eq_nil_iff.mpr h, List.take_nil]

theorem countReport_none {aggregationType : UInt8} {r : Report} {aggregated : Nat → Int} {i : Nat}
    {chunk : List ScanResult} (h : r.id ∉ chunk.map (·.id)) :
    countReport aggregationType r aggregated i chunk = none := by
  induction chunk generalizing i with
  | nil => rfl
  | cons entry rest ih =>
    rw [List.map_cons, List.mem_cons, not_or] at h
    rw [countReport, if_neg (Ne.symm h.1), ih h.2]
    rfl

/-- The report is counted at the device's entry. -/
theorem countReport_some {aggregationType : UInt8} {r : Report} {aggregated : Nat → Int} {i : Nat}
    {chunk : List ScanResult} (hnodup : (chunk.map (·.id)).Nodup) {j : Nat}
    (hj : j < chunk.length) (hid : chunk[j].id = r.id) :
    countReport aggregationType r aggregated i chunk = some
      (if chunk[j].count < 255 then
        (chunk.set j { chunk[j] with count := chunk[j].count + 1 },
          Function.update aggregated (i + j)
            (aggregateScanSample aggregationType (aggregated (i + j)) r.rssi.toInt))
      else (chunk, aggregated)) := by
  induction chunk generalizing i j with
  | nil => exact absurd hj (Nat.not_lt_zero j)
  | cons entry rest ih =>
    rw [List.map_cons, List.nodup_cons] at hnodup
    cases j with
    | zero =>
      rw [List.getElem_cons_zero] at hid
      rw [countReport, if_pos hid, List.getElem_cons_zero, List.set_cons_zero, Nat.add_zero]
      by_cases hcount : entry.count < 255
      · rw [if_pos hcount, if_pos hcount]
      · rw [if_neg hcount, if_neg hcount]
    | succ j =>
      have hj' : j < rest.length := Nat.lt_of_succ_lt_succ hj
      rw [List.getElem_cons_succ] at hid
      have hne : entry.id ≠ r.id := by
        intro heq
        refine hnodup.1 ?_
        rw [heq, ← hid]
        exact List.mem_map_of_mem (List.getElem_mem hj')
      rw [countReport, if_neg hne, ih hnodup.2 hj' hid, List.getElem_cons_succ,
        List.set_cons_succ, show i + 1 + j = i + (j + 1) by omega]
      by_cases hcount : rest[j].count < 255
      · rw [if_pos hcount, if_pos hcount]
        rfl
      · rw [if_neg hcount, if_neg hcount]
        rfl

/-- The entries and the aggregated values after the reports counted so far. -/
structure BuiltFrom (cs : List Counted) (chunk : List ScanResult) (aggregated : Nat → Int) : Prop where
  ids : chunk.map (·.id) = (distinctIds cs).take scanSamplingChunkDataSize
  count : ∀ i (h : i < chunk.length),
    chunk[i].count.toNat = (firstReportsOf chunk[i].id cs).length
  value : ∀ i (h : i < chunk.length),
    aggregated i = aggregateReports (firstReportsOf chunk[i].id cs)

namespace BuiltFrom

variable {cs : List Counted} {chunk : List ScanResult} {aggregated : Nat → Int} {c : Counted}

theorem nodup (h : BuiltFrom cs chunk aggregated) : (chunk.map (·.id)).Nodup := by
  rw [h.ids]
  exact (nodup_distinctIds cs).sublist (List.take_sublist _ _)

theorem mem_distinctIds (h : BuiltFrom cs chunk aggregated) {id : UInt16}
    (hid : id ∈ chunk.map (·.id)) : id ∈ distinctIds cs := by
  rw [h.ids] at hid
  exact List.mem_of_mem_take hid

theorem firstReportsOf_other {id : UInt16} (hid : id ≠ c.report.id) :
    firstReportsOf id (cs ++ [c]) = firstReportsOf id cs := by
  rw [firstReportsOf_append, if_neg fun h => hid h.1.symm]

/-- Entries of devices whose first reports stay the same. -/
theorem keep (h : BuiltFrom cs chunk aggregated)
    (hids : (distinctIds (cs ++ [c])).take scanSamplingChunkDataSize =
      (distinctIds cs).take scanSamplingChunkDataSize)
    (hsame : ∀ i (h : i < chunk.length),
      firstReportsOf chunk[i].id (cs ++ [c]) = firstReportsOf chunk[i].id cs) :
    BuiltFrom (cs ++ [c]) chunk aggregated where
  ids := h.ids.trans hids.symm
  count i hi := by
    rw [hsame i hi]
    exact h.count i hi
  value i hi := by
    rw [hsame i hi]
    exact h.value i hi

theorem add_known (h : BuiltFrom cs chunk aggregated) (hmem : c.report.id ∈ chunk.map (·.id)) :
    BuiltFrom (cs ++ [c]) (addReport c.aggregationType c.report chunk aggregated).1
      (addReport c.aggregationType c.report chunk aggregated).2 := by
  have hknown := h.mem_distinctIds hmem
  have hids : (distinctIds (cs ++ [c])).take scanSamplingChunkDataSize =
      (distinctIds cs).take scanSamplingChunkDataSize := by
    rw [distinctIds_append, if_pos hknown]
  obtain ⟨entry, hentry, hid⟩ := List.mem_map.mp hmem
  obtain ⟨j, hj, rfl⟩ := List.mem_iff_getElem.mp hentry
  have hother : ∀ i (hi : i < chunk.length), i ≠ j → chunk[i].id ≠ c.report.id := by
    intro i hi hne heq
    refine hne ((@List.Nodup.getElem_inj_iff _ _ h.nodup i ?_ j ?_).mp ?_)
    · rwa [List.length_map]
    · rwa [List.length_map]
    · rw [List.getElem_map, List.getElem_map, heq, hid]
  rw [addReport, countReport_some h.nodup hj hid, Nat.zero_add]
  have hfirst := firstReportsOf_append chunk[j].id cs c
  rw [← h.count j hj] at hfirst
  by_cases hcount : chunk[j].count < 255
  · have hlt := UInt8.lt_iff_toNat_lt.mp hcount
    rw [if_pos ⟨hid.symm, hlt⟩] at hfirst
    rw [if_pos hcount]
    dsimp only
    refine ⟨?_, fun i hi => ?_, fun i hi => ?_⟩
    · rw [List.map_set, hids, ← h.ids]
      dsimp only
      rw [← List.getElem_map (fun entry : ScanResult => entry.id) (h := by rwa [List.length_map]),
        List.set_getElem_self]
    · rw [List.length_set] at hi
      rw [List.getElem_set]
      by_cases hij : j = i
      · subst hij
        rw [if_pos rfl]
        dsimp only
        rw [hfirst, List.length_append, ← h.count j hj, UInt8.toNat_add]
        exact Nat.mod_eq_of_lt (Nat.succ_lt_succ hlt)
      · rw [if_neg hij, firstReportsOf_other (hother i hi (Ne.symm hij))]
        exact h.count i hi
    · rw [List.length_set] at hi
      rw [List.getElem_set]
      by_cases hij : j = i
      · subst hij
        rw [if_pos rfl, Function.update_self]
        dsimp only
        rw [hfirst, aggregateReports_append (firstReportsOf_ne_nil (hid ▸ hknown)), ← h.value j hj]
      · rw [if_neg hij, firstReportsOf_other (hother i hi (Ne.symm hij)),
          Function.update_of_ne (Ne.symm hij)]
        exact h.value i hi
  · rw [if_neg hcount]
    refine h.keep hids fun i hi => ?_
    by_cases hij : i = j
    · subst hij
      rw [hfirst, if_neg fun hc => hcount (UInt8.lt_iff_toNat_lt.mpr hc.2)]
    · exact firstReportsOf_other (hother i hi hij)

theorem add_unknown (h : BuiltFrom cs chunk aggregated) (hmem : c.report.id ∉ chunk.map (·.id)) :
    BuiltFrom (cs ++ [c]) (addReport c.aggregationType c.report chunk aggregated).1
      (addReport c.aggregationType c.report chunk aggregated).2 := by
  have hother : ∀ i (hi : i < chunk.length), chunk[i].id ≠ c.report.id := by
    intro i hi heq
    exact hmem (List.mem_map.mpr ⟨chunk[i], List.getElem_mem hi, heq⟩)
  have hsame : ∀ i (hi : i < chunk.length),
      firstReportsOf chunk[i].id (cs ++ [c]) = firstReportsOf chunk[i].id cs :=
    fun i hi => firstReportsOf_other (hother i hi)
  have hlen : chunk.length = min scanSamplingChunkDataSize (distinctIds cs).length := by
    rw [← List.length_take, ← h.ids, List.length_map]
  rw [addReport, countReport_none hmem]
  dsimp only
  by_cases hroom : chunk.length < scanSamplingChunkDataSize
  · rw [if_pos hroom]
    dsimp only
    have hall : (distinctIds cs).take scanSamplingChunkDataSize = distinctIds cs :=
      List.take_of_length_le (by omega)
    have hnew : c.report.id ∉ distinctIds cs := by
      rw [← hall, ← h.ids]
      exact hmem
    have hfirst : firstReportsOf c.report.id (cs ++ [c]) = [c] := by
      rw [firstReportsOf_append, firstReportsOf_eq_nil hnew]
      exact if_pos ⟨rfl, by decide⟩
    refine ⟨?_, fun i hi => ?_, fun i hi => ?_⟩
    · rw [distinctIds_append, if_neg hnew, List.map_append, h.ids, hall,
        List.take_of_length_le (by rw [List.length_append, List.length_singleton]; omega)]
      rfl
    · rw [List.length_append, List.length_singleton] at hi
      rcases Nat.lt_succ_iff_lt_or_eq.mp hi with hlt | rfl
      · rw [List.getElem_append_left hlt, hsame i hlt]
        exact h.count i hlt
      · rw [List.getElem_concat_length rfl]
        dsimp only
        rw [hfirst]
        rfl
    · rw [List.length_append, List.length_singleton] at hi
      rcases Nat.lt_succ_iff_lt_or_eq.mp hi with hlt | rfl
      · rw [List.getElem_append_left hlt, hsame i hlt, Function.update_of_ne (Nat.ne_of_lt hlt)]
        exact h.value i hlt
      · rw [List.getElem_concat_length rfl, Function.update_self]
        dsimp only
        rw [hfirst]
        rfl
  · rw [if_neg hroom]
    refine h.keep ?_ hsame
    rw [distinctIds_append]
    split
    · rfl
    · exact List.take_append_of_le_length (by omega)

theorem add (h : BuiltFrom cs chunk aggregated) (c : Counted) :
    BuiltFrom (cs ++ [c]) (addReport c.aggregationType c.report chunk aggregated).1
      (addReport c.aggregationType c.report chunk aggregated).2 := by
  by_cases hmem : c.report.id ∈ chunk.map (·.id)
  · exact h.add_known hmem
  · exact h.add_unknown hmem

end BuiltFrom

theorem builtFrom_nil (aggregated : Nat → Int) : BuiltFrom [] [] aggregated where
  ids := rfl
  count i hi := absurd hi (Nat.not_lt_zero i)
  value i hi := absurd hi (Nat.not_lt_zero i)

end OpenBadge.Sampling
