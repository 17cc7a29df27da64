import OpenBadge.Processing.Model
import OpenBadge.Lib.Sorted

/-!
# Which devices a full scan keeps

The last sort begins behind the prioritized beacons, but it sorts as many devices as there
are badges. With more than four beacons it stops short of the end, and the devices there
stay where they are.
-/

namespace OpenBadge.Processing

open OpenBadge.Lib OpenBadge.Sampling

/-! ## What should be kept -/

def NotWeaker (a b : ScanResult) : Prop := b.rssi ≤ a.rssi

/-- The strongest devices first, and none that is left out is stronger. -/
structure Strongest (kept left : List ScanResult) : Prop where
  descending : kept.Pairwise NotWeaker
  notWeaker : ∀ a ∈ kept, ∀ b ∈ left, NotWeaker a b

/-- In front stand the strongest beacons, and behind them the strongest of all others. -/
def KeepsStrongest (results kept : List ScanResult) : Prop :=
  ∃ prioritized further left, kept = prioritized ++ further ∧
    (prioritized ++ further ++ left).Perm results ∧
    prioritized.length = min scanPrioritizedBeacons (results.countP isBeacon) ∧
    (∀ r ∈ prioritized, isBeacon r = true) ∧
    Strongest prioritized ((further ++ left).filter isBeacon) ∧ Strongest further left

/-- The devices are all there after the sort, and those that are stored are the right ones. -/
def Truncates (q : Qsort ScanResult) (chunk : ScanSamplingChunk) : Prop :=
  (sortScan q chunk.scanResultData).Perm chunk.scanResultData ∧
    KeepsStrongest chunk.scanResultData (reduceScan q chunk).scanResultData

/-! ## When it is kept -/

/-- The RSSI of the strongest badge. -/
def StrongestBadge (results : List ScanResult) (x : Int8) : Prop :=
  (∃ r ∈ results, isBeacon r = false ∧ r.rssi = x) ∧
    ∀ r ∈ results, isBeacon r = false → r.rssi ≤ x

/-- Also when the devices that the last sort leaves out are as strong as `x`, there are
enough of that strength in front of them. -/
def EnoughStrong (results : List ScanResult) (x : Int8) : Prop :=
  scanChunkDataSize - scanPrioritizedBeacons ≤
    (results.countP (fun r => decide (x ≤ r.rssi) && isBeacon r) - scanPrioritizedBeacons) +
      (results.countP (fun r => decide (x ≤ r.rssi) && !isBeacon r) -
        (results.countP isBeacon - scanPrioritizedBeacons))

instance (results : List ScanResult) (x : Int8) : Decidable (EnoughStrong results x) :=
  inferInstanceAs (Decidable (_ ≤ _))

/-- The last sort leaves out no device, or none that would have to be kept. -/
def NoneLost (results : List ScanResult) : Prop :=
  results.countP isBeacon ≤ scanPrioritizedBeacons ∨ (∀ r ∈ results, isBeacon r = true) ∨
    ∃ x, StrongestBadge results x ∧ (EnoughStrong results x ∨ ∀ r ∈ results, x ≤ r.rssi)

/-! ## The comparisons -/

theorem compareByRssi_le_iff {a b : ScanResult} : compareByRssi a b ≤ 0 ↔ NotWeaker a b := by
  rw [compareByRssi, NotWeaker]
  split
  · next h => exact iff_of_true (by decide) (Int8.le_of_lt h)
  · next h =>
    split
    · next h' => exact iff_of_false (by decide) (Int8.not_le.mpr h')
    · next h' => exact iff_of_true (by decide) (Int8.not_lt.mp h')

theorem compareByBeacon_le_iff {a b : ScanResult} :
    compareByBeacon a b ≤ 0 ↔ (isBeacon b = true → isBeacon a = true) := by
  rw [compareByBeacon]
  cases isBeacon a <;> cases isBeacon b <;> decide

theorem consistent_compareByRssi : Consistent compareByRssi where
  total a b := by
    rw [compareByRssi_le_iff, compareByRssi_le_iff]
    exact Int8.le_total b.rssi a.rssi
  trans a b c := by
    rw [compareByRssi_le_iff, compareByRssi_le_iff, compareByRssi_le_iff]
    exact fun hab hbc => Int8.le_trans hbc hab

theorem consistent_compareByBeacon : Consistent compareByBeacon where
  total a b := by
    rw [compareByBeacon_le_iff, compareByBeacon_le_iff]
    cases isBeacon a <;> cases isBeacon b <;> decide
  trans a b c := by
    rw [compareByBeacon_le_iff, compareByBeacon_le_iff, compareByBeacon_le_iff]
    exact fun hab hbc hc => hab (hbc hc)

/-! ## The three sorts -/

/-- The scan results after `sort_scan`: the first four beacons, the devices `upper` that
are in order, and the last badges. -/
structure Arranged (results beacons badges upper : List ScanResult) : Prop where
  beacons_perm : beacons.Perm (results.filter isBeacon)
  beacons_desc : beacons.Pairwise NotWeaker
  badges_perm : badges.Perm (results.filter fun r => !isBeacon r)
  upper_perm : upper.Perm (beacons.drop scanPrioritizedBeacons ++
    badges.take (badges.length - (beacons.length - scanPrioritizedBeacons)))
  upper_desc : upper.Pairwise NotWeaker

/-- What the last sort does not come to. -/
def lower (beacons badges : List ScanResult) : List ScanResult :=
  badges.drop (badges.length - (beacons.length - scanPrioritizedBeacons))

variable (q : Qsort ScanResult) (results : List ScanResult)

/-- The badges in the order in which the first sort leaves them. -/
def splitBadges : List ScanResult :=
  (q.sort compareByBeacon results).filter fun r => !isBeacon r

theorem splitBadges_perm : (splitBadges q results).Perm (results.filter fun r => !isBeacon r) :=
  (q.perm _ _).filter _

/-- The first sort brings the beacons to the front. -/
theorem sort_compareByBeacon :
    q.sort compareByBeacon results =
      (q.sort compareByBeacon results).filter isBeacon ++ splitBadges q results := by
  refine (filter_append_filter_not ?_).symm
  exact (q.sorted _ results consistent_compareByBeacon).imp compareByBeacon_le_iff.mp

theorem sort_compareByRssi_desc (l : List ScanResult) :
    (q.sort compareByRssi l).Pairwise NotWeaker :=
  (q.sorted _ l consistent_compareByRssi).imp compareByRssi_le_iff.mp

theorem range_all (compare : ScanResult → ScanResult → Int) (l : List ScanResult) :
    q.range compare 0 l.length l = q.sort compare l := by
  rw [Qsort.range, List.take_zero, List.drop_zero, List.take_length, Nat.zero_add,
    List.drop_length, List.nil_append, List.append_nil]

theorem range_front (compare : ScanResult → ScanResult → Int) (l l' : List ScanResult) :
    q.range compare 0 l.length (l ++ l') = q.sort compare l ++ l' := by
  rw [Qsort.range, List.take_zero, List.drop_zero, List.take_left, Nat.zero_add, List.drop_left,
    List.nil_append]

/-- The last sort, behind the first four of the beacons. -/
theorem range_behind {beacons badges : List ScanResult} {start : Nat}
    (hstart : start = min scanPrioritizedBeacons beacons.length) :
    q.range compareByRssi start badges.length (beacons ++ badges) =
      beacons.take scanPrioritizedBeacons ++
        (q.sort compareByRssi ((beacons.drop scanPrioritizedBeacons).take badges.length ++
            badges.take (badges.length - (beacons.length - scanPrioritizedBeacons))) ++
          (beacons.drop scanPrioritizedBeacons).drop badges.length ++ lower beacons badges) := by
  have htake : (beacons ++ badges).take start = beacons.take scanPrioritizedBeacons := by
    rw [List.take_append_of_le_length (by omega), hstart, ← List.take_eq_take_min]
  have hdrop : (beacons ++ badges).drop start = beacons.drop scanPrioritizedBeacons ++ badges := by
    rw [List.drop_append_of_le_length (by omega), hstart, ← List.drop_eq_drop_min]
  rw [Qsort.range, ← List.drop_drop, htake, hdrop, List.take_append, List.drop_append,
    List.length_drop, lower]
  simp only [List.append_assoc]

/-- What was sorted and the weaker beacons behind it are in order. -/
theorem upper_desc {further sorted : List ScanResult} (hdesc : further.Pairwise NotWeaker)
    (badges : List ScanResult) (hsorted : sorted.Pairwise NotWeaker)
    (hperm : sorted.Perm (further.take badges.length ++
      badges.take (badges.length - further.length))) :
    (sorted ++ further.drop badges.length).Pairwise NotWeaker := by
  refine List.pairwise_append.mpr ⟨hsorted, hdesc.sublist (List.drop_sublist _ _), ?_⟩
  intro a ha b hb
  rcases Nat.le_total further.length badges.length with hle | hle
  · rw [List.drop_eq_nil_of_le hle] at hb
    exact absurd hb List.not_mem_nil
  · have hnone : badges.take (badges.length - further.length) = [] := by
      rw [Nat.sub_eq_zero_of_le hle, List.take_zero]
    rw [hnone, List.append_nil] at hperm
    exact pairwise_take_drop hdesc _ a (hperm.mem_iff.mp ha) b hb

theorem exists_arranged :
    ∃ beacons upper, Arranged results beacons (splitBadges q results) upper ∧
      sortScan q results = beacons.take scanPrioritizedBeacons ++
        (upper ++ lower beacons (splitBadges q results)) := by
  let front := (q.sort compareByBeacon results).filter isBeacon
  let beacons := q.sort compareByRssi front
  let further := beacons.drop scanPrioritizedBeacons
  let badges := splitBadges q results
  let sorted := q.sort compareByRssi
    (further.take badges.length ++ badges.take (badges.length - further.length))
  have hfront : front.Perm (results.filter isBeacon) := (q.perm _ _).filter _
  have hcount : results.countP isBeacon = front.length := by
    rw [List.countP_eq_length_filter, hfront.length_eq]
  have hbeacons : beacons.length = front.length := (q.perm _ _).length_eq
  have hfurther : further.length = beacons.length - scanPrioritizedBeacons := List.length_drop
  have hdesc : beacons.Pairwise NotWeaker := sort_compareByRssi_desc q front
  refine ⟨beacons, sorted ++ further.drop badges.length,
    ⟨(q.perm _ _).trans hfront, hdesc, splitBadges_perm q results, ?_, ?_⟩, ?_⟩
  · rw [← hfurther]
    refine ((q.perm _ _).append_right _).trans ?_
    rw [List.append_assoc]
    refine (List.perm_append_comm.append_left _).trans ?_
    rw [← List.append_assoc, List.take_append_drop]
  · exact upper_desc (hdesc.sublist (List.drop_sublist _ _)) badges
      (sort_compareByRssi_desc q _) (q.perm _ _)
  · have hsplit : q.sort compareByBeacon results = front ++ badges := sort_compareByBeacon q results
    have hrest : (beacons ++ badges).length - front.length = badges.length := by
      rw [List.length_append, hbeacons, Nat.add_sub_cancel_left]
    have hstart : (if front.length > scanPrioritizedBeacons then scanPrioritizedBeacons
        else front.length) = min scanPrioritizedBeacons beacons.length := by
      rw [hbeacons]
      split <;> omega
    simp only [sortScan, range_all, hsplit, hcount, range_front]
    rw [hrest, range_behind q hstart, ← hfurther]

/-! ## What is stored -/

section Stored

variable {results beacons badges upper : List ScanResult}

theorem Arranged.perm (h : Arranged results beacons badges upper) :
    (beacons.take scanPrioritizedBeacons ++ (upper ++ lower beacons badges)).Perm results := by
  have hupper : (upper ++ lower beacons badges).Perm
      (beacons.drop scanPrioritizedBeacons ++ badges) := by
    refine (h.upper_perm.append_right _).trans ?_
    rw [List.append_assoc, lower, List.take_append_drop]
  refine (hupper.append_left _).trans ?_
  rw [← List.append_assoc, List.take_append_drop]
  exact (h.beacons_perm.append h.badges_perm).trans (List.filter_append_perm isBeacon results)

theorem Arranged.beacons_length (h : Arranged results beacons badges upper) :
    beacons.length = results.countP isBeacon := by
  rw [h.beacons_perm.length_eq, List.countP_eq_length_filter]

theorem Arranged.beacon_of_mem (h : Arranged results beacons badges upper) :
    ∀ r ∈ beacons, isBeacon r = true :=
  fun _ hr => (List.mem_filter.mp (h.beacons_perm.mem_iff.mp hr)).2

theorem Arranged.badge_of_mem (h : Arranged results beacons badges upper) :
    ∀ r ∈ badges, isBeacon r = false := by
  intro r hr
  have hr' := (List.mem_filter.mp (h.badges_perm.mem_iff.mp hr)).2
  rwa [Bool.not_eq_true'] at hr'

/-- Behind the first four beacons there are only weaker ones. -/
theorem Arranged.mem_further (h : Arranged results beacons badges upper) {r : ScanResult}
    (hr : r ∈ upper ++ lower beacons badges) (hbeacon : isBeacon r = true) :
    r ∈ beacons.drop scanPrioritizedBeacons := by
  have hnot : r ∉ badges := fun hmem => by
    rw [h.badge_of_mem r hmem] at hbeacon
    exact nomatch hbeacon
  rcases List.mem_append.mp hr with hu | hl
  · rcases List.mem_append.mp (h.upper_perm.mem_iff.mp hu) with hd | ht
    · exact hd
    · exact absurd (List.mem_of_mem_take ht) hnot
  · exact absurd (List.mem_of_mem_drop hl) hnot

/-- What comes behind the first four beacons decides. -/
theorem Arranged.truncates_iff {q : Qsort ScanResult} {chunk : ScanSamplingChunk}
    (h : Arranged chunk.scanResultData beacons badges upper)
    (hlong : scanChunkDataSize < chunk.scanResultData.length)
    (hsort : sortScan q chunk.scanResultData =
      beacons.take scanPrioritizedBeacons ++ (upper ++ lower beacons badges)) :
    let kept := scanChunkDataSize - (beacons.take scanPrioritizedBeacons).length
    Truncates q chunk ↔ Strongest ((upper ++ lower beacons badges).take kept)
      ((upper ++ lower beacons badges).drop kept) := by
  intro kept
  have hstored : (reduceScan q chunk).scanResultData =
      beacons.take scanPrioritizedBeacons ++ (upper ++ lower beacons badges).take kept := by
    rw [reduceScan, if_pos hlong, hsort, List.take_append, List.take_of_length_le]
    exact (List.length_take_le _ _).trans (by decide)
  have hfront : (beacons.take scanPrioritizedBeacons).length =
      min scanPrioritizedBeacons (chunk.scanResultData.countP isBeacon) := by
    rw [List.length_take, h.beacons_length]
  rw [Truncates, hsort, and_iff_right h.perm, hstored]
  constructor
  · rintro ⟨prioritized, further, left, heq, hperm, hlen, -, -, hstrongest⟩
    obtain ⟨rfl, rfl⟩ := List.append_inj heq (by rw [hfront, hlen])
    have hleft : left.Perm ((upper ++ lower beacons badges).drop kept) := by
      refine (List.perm_append_left_iff _).mp (hperm.trans ?_)
      rw [List.append_assoc, List.take_append_drop]
      exact h.perm.symm
    exact ⟨hstrongest.1, fun a ha b hb => hstrongest.2 a ha b (hleft.mem_iff.mpr hb)⟩
  · intro hstrongest
    refine ⟨_, _, (upper ++ lower beacons badges).drop kept, rfl, ?_, hfront,
      fun r hr => h.beacon_of_mem r (List.mem_of_mem_take hr),
      ⟨h.beacons_desc.sublist (List.take_sublist _ _), fun a ha b hb => ?_⟩, hstrongest⟩
    · rw [List.append_assoc, List.take_append_drop]
      exact h.perm
    · rw [List.take_append_drop, List.mem_filter] at hb
      exact pairwise_take_drop h.beacons_desc _ a ha b (h.mem_further hb.1 hb.2)

/-! ## Nothing is lost -/

theorem strongest_of_desc {l : List ScanResult} (h : l.Pairwise NotWeaker) (n : Nat) :
    Strongest (l.take n) (l.drop n) :=
  ⟨h.sublist (List.take_sublist _ _), pairwise_take_drop h n⟩

/-- A device that is not weaker than one at least as strong as `x` is as strong as `x`. -/
theorem strong_of_notWeaker {x : Int8} {l : List ScanResult} (h : l.Pairwise NotWeaker) :
    l.Pairwise fun a b => decide (x ≤ b.rssi) = true → decide (x ≤ a.rssi) = true := by
  refine h.imp fun hab hb => ?_
  rw [decide_eq_true_eq] at hb ⊢
  exact Int8.le_trans hb hab

theorem Arranged.countP_beacons (h : Arranged results beacons badges upper)
    (P : ScanResult → Bool) :
    beacons.countP P = results.countP fun r => P r && isBeacon r := by
  rw [h.beacons_perm.countP_eq, List.countP_filter]

theorem Arranged.countP_badges (h : Arranged results beacons badges upper)
    (P : ScanResult → Bool) :
    badges.countP P = results.countP fun r => P r && !isBeacon r := by
  rw [h.badges_perm.countP_eq, List.countP_filter]

theorem Arranged.badge_le (h : Arranged results beacons badges upper) {x : Int8}
    (hx : StrongestBadge results x) : ∀ r ∈ badges, r.rssi ≤ x := fun r hr =>
  hx.2 r (List.mem_of_mem_filter (h.badges_perm.mem_iff.mp hr)) (h.badge_of_mem r hr)

/-- The devices in order that are as strong as `x`, if the left out badges all are. -/
theorem Arranged.countP_upper_ge (h : Arranged results beacons badges upper)
    (P : ScanResult → Bool) :
    (beacons.countP P - scanPrioritizedBeacons) +
        (badges.countP P - (beacons.length - scanPrioritizedBeacons)) ≤ upper.countP P := by
  have hbeacons : beacons.countP P =
      (beacons.take scanPrioritizedBeacons).countP P +
        (beacons.drop scanPrioritizedBeacons).countP P := by
    rw [← List.countP_append, List.take_append_drop]
  have hfront : (beacons.take scanPrioritizedBeacons).countP P ≤ scanPrioritizedBeacons :=
    List.countP_le_length.trans (List.length_take_le _ _)
  have hbadges : badges.countP P =
      (badges.take (badges.length - (beacons.length - scanPrioritizedBeacons))).countP P +
        (lower beacons badges).countP P := by
    rw [lower, ← List.countP_append, List.take_append_drop]
  have hlower : (lower beacons badges).countP P ≤ beacons.length - scanPrioritizedBeacons := by
    refine List.countP_le_length.trans ?_
    rw [lower, List.length_drop]
    omega
  rw [h.upper_perm.countP_eq, List.countP_append]
  omega

theorem Arranged.strongest_of_enough (h : Arranged results beacons badges upper) {x : Int8}
    (hx : StrongestBadge results x) (henough : EnoughStrong results x) :
    Strongest ((upper ++ lower beacons badges).take (scanChunkDataSize - scanPrioritizedBeacons))
      ((upper ++ lower beacons badges).drop (scanChunkDataSize - scanPrioritizedBeacons)) := by
  have hcount : scanChunkDataSize - scanPrioritizedBeacons ≤
      upper.countP fun r => decide (x ≤ r.rssi) := by
    refine le_trans ?_ (h.countP_upper_ge _)
    rw [h.countP_beacons, h.countP_badges, h.beacons_length]
    exact henough
  have hlen := hcount.trans List.countP_le_length
  rw [List.take_append_of_le_length hlen, List.drop_append_of_le_length hlen]
  refine ⟨h.upper_desc.sublist (List.take_sublist _ _), fun a ha b hb => ?_⟩
  rcases List.mem_append.mp hb with hu | hl
  · exact pairwise_take_drop h.upper_desc _ a ha b hu
  · have hstrong := forall_mem_take (strong_of_notWeaker h.upper_desc) hcount a ha
    exact Int8.le_trans (h.badge_le hx b (List.mem_of_mem_drop hl)) (of_decide_eq_true hstrong)

theorem Arranged.desc_of_all_strong (h : Arranged results beacons badges upper) {x : Int8}
    (hx : StrongestBadge results x) (hall : ∀ r ∈ results, x ≤ r.rssi) :
    (upper ++ lower beacons badges).Pairwise NotWeaker := by
  have hin : ∀ r ∈ upper ++ lower beacons badges, x ≤ r.rssi := fun r hr =>
    hall r (h.perm.mem_iff.mp (List.mem_append_right _ hr))
  have hbadge : ∀ r ∈ lower beacons badges, r.rssi ≤ x := fun r hr =>
    h.badge_le hx r (List.mem_of_mem_drop hr)
  refine List.pairwise_append.mpr ⟨h.upper_desc, ?_, ?_⟩
  · refine List.pairwise_of_forall_mem_list fun a ha b hb => ?_
    exact Int8.le_trans (hbadge b hb) (hin a (List.mem_append_right _ ha))
  · intro a ha b hb
    exact Int8.le_trans (hbadge b hb) (hin a (List.mem_append_left _ ha))

theorem Arranged.strongest_of_noneLost (h : Arranged results beacons badges upper)
    (hn : NoneLost results) :
    let kept := scanChunkDataSize - (beacons.take scanPrioritizedBeacons).length
    Strongest ((upper ++ lower beacons badges).take kept)
      ((upper ++ lower beacons badges).drop kept) := by
  intro kept
  by_cases hfew : results.countP isBeacon ≤ scanPrioritizedBeacons
  · have hnil : lower beacons badges = [] := by
      rw [lower, h.beacons_length, Nat.sub_eq_zero_of_le hfew]
      exact List.drop_length
    rw [hnil, List.append_nil]
    exact strongest_of_desc h.upper_desc kept
  · obtain hle | hall | ⟨x, hx, henough | hstrong⟩ := hn
    · exact absurd hle hfew
    · have hnil : lower beacons badges = [] := by
        have hbadges : badges = [] := by
          refine List.eq_nil_iff_forall_not_mem.mpr fun r hr => ?_
          have hbeacon := hall r (List.mem_of_mem_filter (h.badges_perm.mem_iff.mp hr))
          rw [h.badge_of_mem r hr] at hbeacon
          exact nomatch hbeacon
        rw [lower, hbadges, List.drop_nil]
      rw [hnil, List.append_nil]
      exact strongest_of_desc h.upper_desc kept
    · have hkept : kept = scanChunkDataSize - scanPrioritizedBeacons := by
        simp only [kept, List.length_take, h.beacons_length]
        omega
      rw [hkept]
      exact h.strongest_of_enough hx henough
    · exact strongest_of_desc (h.desc_of_all_strong hx hstrong) kept

/-! ## The strongest badge is lost -/

/-- With the badges in ascending order, all that is kept is as strong as the strongest. -/
theorem Arranged.kept_strong (h : Arranged results beacons badges upper) {x : Int8} {n : Nat}
    (hmany : scanPrioritizedBeacons < beacons.length)
    (hlong : n < (upper ++ lower beacons badges).length)
    {init : List ScanResult} {last : ScanResult} (hbadges : badges = init ++ [last])
    (hlast : last.rssi = x)
    (hs : Strongest ((upper ++ lower beacons badges).take n)
      ((upper ++ lower beacons badges).drop n)) :
    ∀ a ∈ (upper ++ lower beacons badges).take n, x ≤ a.rssi := by
  subst hbadges
  have hle : (init ++ [last]).length - (beacons.length - scanPrioritizedBeacons) ≤
      init.length := by
    rw [List.length_append, List.length_singleton]
    omega
  have hfront : (init ++ [last]).drop
      ((init ++ [last]).length - (beacons.length - scanPrioritizedBeacons)) =
      init.drop ((init ++ [last]).length - (beacons.length - scanPrioritizedBeacons)) ++ [last] :=
    List.drop_append_of_le_length hle
  have hmem : last ∈ (upper ++ lower beacons (init ++ [last])).drop n := by
    rw [lower, hfront, ← List.append_assoc] at hlong ⊢
    rw [List.length_append, List.length_singleton] at hlong
    rw [List.drop_append_of_le_length (Nat.le_of_lt_succ hlong)]
    exact List.mem_append_right _ (List.mem_singleton_self last)
  intro a ha
  have hweaker := hs.2 a ha last hmem
  rwa [NotWeaker, hlast] at hweaker

/-- The devices in order that are as strong as `x`, if the badges before the left out ones
are the weakest. -/
theorem Arranged.countP_upper_eq (h : Arranged results beacons badges upper) (x : Int8)
    (hasc : badges.Pairwise fun a b => a.rssi ≤ b.rssi) :
    upper.countP (fun r => decide (x ≤ r.rssi)) =
      (beacons.countP (fun r => decide (x ≤ r.rssi)) - scanPrioritizedBeacons) +
        (badges.countP (fun r => decide (x ≤ r.rssi)) -
          (beacons.length - scanPrioritizedBeacons)) := by
  have hweak : badges.Pairwise fun a b =>
      (!decide (x ≤ b.rssi)) = true → (!decide (x ≤ a.rssi)) = true := by
    refine hasc.imp fun hab hb => ?_
    rw [Bool.not_eq_true', decide_eq_false_iff_not] at hb ⊢
    exact fun ha => hb (Int8.le_trans ha hab)
  have htake := countP_not_take hweak
    (Nat.sub_le badges.length (beacons.length - scanPrioritizedBeacons))
  have hsum := List.length_eq_countP_add_countP (fun r : ScanResult => decide (x ≤ r.rssi))
    (l := badges)
  simp only [Bool.not_not, decide_not, Bool.decide_coe] at htake hsum
  rw [h.upper_perm.countP_eq, List.countP_append,
    countP_drop (strong_of_notWeaker h.beacons_desc), htake]
  omega

theorem Arranged.strongestBadge (h : Arranged results beacons badges upper)
    (hasc : badges.Pairwise fun a b => a.rssi ≤ b.rssi) {init : List ScanResult}
    {last : ScanResult} (hbadges : badges = init ++ [last]) :
    StrongestBadge results last.rssi := by
  have hmem : last ∈ badges := by
    rw [hbadges]
    exact List.mem_append_right _ (List.mem_singleton_self last)
  refine ⟨⟨last, List.mem_of_mem_filter (h.badges_perm.mem_iff.mp hmem),
    h.badge_of_mem last hmem, rfl⟩, fun r hr hbadge => ?_⟩
  have hr' : r ∈ badges := h.badges_perm.mem_iff.mpr (List.mem_filter.mpr ⟨hr, by rw [hbadge]; rfl⟩)
  rw [hbadges] at hr' hasc
  rcases List.mem_append.mp hr' with hinit | hlast
  · exact (List.pairwise_append.mp hasc).2.2 r hinit last (List.mem_singleton_self last)
  · rw [List.mem_singleton.mp hlast]
    exact Int8.le_refl _

/-- When what is in order does not fill the chunk, the weakest badge is kept, and all
devices are as strong as it. -/
theorem Arranged.all_strong (h : Arranged results beacons badges upper) {x : Int8} {n : Nat}
    (hasc : badges.Pairwise fun a b => a.rssi ≤ b.rssi)
    (hmany : scanPrioritizedBeacons < beacons.length) (hshort : upper.length < n)
    (hstrong : ∀ a ∈ (upper ++ lower beacons badges).take n, x ≤ a.rssi) :
    ∀ r ∈ results, x ≤ r.rssi := by
  rw [List.take_append, List.take_of_length_le hshort.le] at hstrong
  have hupper : ∀ a ∈ upper, x ≤ a.rssi := fun a ha => hstrong a (List.mem_append_left _ ha)
  have hfurther : ∀ a ∈ beacons.drop scanPrioritizedBeacons, x ≤ a.rssi := fun a ha =>
    hupper a (h.upper_perm.mem_iff.mpr (List.mem_append_left _ ha))
  have hbeacons : ∀ a ∈ beacons, x ≤ a.rssi := by
    intro a ha
    rw [← List.take_append_drop scanPrioritizedBeacons beacons] at ha
    rcases List.mem_append.mp ha with htake | hdrop
    · obtain ⟨b, hb⟩ := List.exists_mem_of_length_pos
        (by rw [List.length_drop]; exact Nat.sub_pos_of_lt hmany :
          0 < (beacons.drop scanPrioritizedBeacons).length)
      exact Int8.le_trans (hfurther b hb) (pairwise_take_drop h.beacons_desc _ a htake b hb)
    · exact hfurther a hdrop
  have hbadges : ∀ a ∈ badges, x ≤ a.rssi := by
    cases hb : badges with
    | nil => exact fun a ha => absurd ha List.not_mem_nil
    | cons first rest =>
      have hfirst : x ≤ first.rssi := by
        cases hk : badges.length - (beacons.length - scanPrioritizedBeacons) with
        | zero =>
          refine hstrong first (List.mem_append_right _ ?_)
          rw [lower, hk, List.drop_zero, hb,
            show n - upper.length = (n - upper.length - 1) + 1 by omega, List.take_succ_cons]
          exact List.mem_cons_self
        | succ k =>
          refine hupper first (h.upper_perm.mem_iff.mpr (List.mem_append_right _ ?_))
          rw [hk, hb, List.take_succ_cons]
          exact List.mem_cons_self
      intro a ha
      rcases List.mem_cons.mp ha with rfl | hrest
      · exact hfirst
      · rw [hb] at hasc
        exact Int8.le_trans hfirst ((List.pairwise_cons.mp hasc).1 a hrest)
  intro r hr
  cases hkind : isBeacon r with
  | true => exact hbeacons r (h.beacons_perm.mem_iff.mpr (List.mem_filter.mpr ⟨hr, hkind⟩))
  | false =>
    exact hbadges r (h.badges_perm.mem_iff.mpr (List.mem_filter.mpr ⟨hr, by rw [hkind]; rfl⟩))

theorem Arranged.noneLost_of_strongest (h : Arranged results beacons badges upper)
    (hlong : scanChunkDataSize < results.length)
    (hasc : badges.Pairwise fun a b => a.rssi ≤ b.rssi) :
    let kept := scanChunkDataSize - (beacons.take scanPrioritizedBeacons).length
    Strongest ((upper ++ lower beacons badges).take kept)
      ((upper ++ lower beacons badges).drop kept) → NoneLost results := by
  intro kept hs
  by_cases hfew : results.countP isBeacon ≤ scanPrioritizedBeacons
  · exact .inl hfew
  have hmany : scanPrioritizedBeacons < beacons.length := by
    rw [h.beacons_length]
    exact Nat.not_le.mp hfew
  have hkept : (beacons.take scanPrioritizedBeacons).length = scanPrioritizedBeacons := by
    rw [List.length_take, Nat.min_eq_left hmany.le]
  simp only [kept, hkept] at hs
  have hlen : scanChunkDataSize - scanPrioritizedBeacons <
      (upper ++ lower beacons badges).length := by
    have hperm := h.perm.length_eq
    have hroom : scanPrioritizedBeacons ≤ scanChunkDataSize := by decide
    rw [List.length_append, hkept] at hperm
    omega
  obtain hnil | ⟨init, last, hbadges⟩ := List.eq_nil_or_concat badges
  · refine .inr (.inl fun r hr => ?_)
    by_contra hbadge
    have hmem : r ∈ badges := h.badges_perm.mem_iff.mpr
      (List.mem_filter.mpr ⟨hr, by rw [Bool.eq_false_iff.mpr hbadge]; rfl⟩)
    rw [hnil] at hmem
    exact absurd hmem List.not_mem_nil
  · rw [List.concat_eq_append] at hbadges
    refine .inr (.inr ⟨last.rssi, h.strongestBadge hasc hbadges, ?_⟩)
    have hstrong := h.kept_strong hmany hlen hbadges rfl hs
    by_cases hfull : scanChunkDataSize - scanPrioritizedBeacons ≤ upper.length
    · left
      rw [List.take_append_of_le_length hfull] at hstrong
      have hcount := List.countP_eq_length.mpr fun a ha => decide_eq_true (hstrong a ha)
      have hle := (List.take_sublist (scanChunkDataSize - scanPrioritizedBeacons) upper).countP_le
        (p := fun r => decide (last.rssi ≤ r.rssi))
      rw [hcount, List.length_take, Nat.min_eq_left hfull, h.countP_upper_eq _ hasc,
        h.countP_beacons, h.countP_badges, h.beacons_length] at hle
      exact hle
    · exact .inr (h.all_strong hasc hmany (Nat.not_le.mp hfull) hstrong)

end Stored

/-! ## A sort that leaves the weakest badges in front -/

/-- The order of a comparison, with the weaker one of two equal results first. -/
def WeakerFirst (compare : ScanResult → ScanResult → Int) (a b : ScanResult) : Prop :=
  compare a b ≤ 0 ∧ (compare b a ≤ 0 → a.rssi ≤ b.rssi)

instance (compare : ScanResult → ScanResult → Int) (a b : ScanResult) :
    Decidable (WeakerFirst compare a b) := inferInstanceAs (Decidable (_ ∧ _))

variable {compare : ScanResult → ScanResult → Int}

theorem Consistent.weakerFirst_total (h : Consistent compare) (a b : ScanResult) :
    WeakerFirst compare a b ∨ WeakerFirst compare b a := by
  by_cases hab : compare a b ≤ 0
  · by_cases hba : compare b a ≤ 0
    · exact (Int8.le_total a.rssi b.rssi).imp (fun hr => ⟨hab, fun _ => hr⟩)
        fun hr => ⟨hba, fun _ => hr⟩
    · exact .inl ⟨hab, fun hc => absurd hc hba⟩
  · have hba := (h.total a b).resolve_left hab
    exact .inr ⟨hba, fun hc => absurd hc hab⟩

theorem Consistent.weakerFirst_trans (h : Consistent compare) {a b c : ScanResult}
    (hab : WeakerFirst compare a b) (hbc : WeakerFirst compare b c) :
    WeakerFirst compare a c := by
  refine ⟨h.trans a b c hab.1 hbc.1, fun hca => ?_⟩
  exact Int8.le_trans (hab.2 (h.trans b c a hbc.1 hca)) (hbc.2 (h.trans c a b hca hab.1))

theorem Consistent.pairwise_weakerFirst (h : Consistent compare) (l : List ScanResult) :
    (l.mergeSort fun a b => decide (WeakerFirst compare a b)).Pairwise (WeakerFirst compare) := by
  refine (List.pairwise_mergeSort ?_ ?_ l).imp of_decide_eq_true
  · intro a b c hab hbc
    exact decide_eq_true (h.weakerFirst_trans (of_decide_eq_true hab) (of_decide_eq_true hbc))
  · intro a b
    rw [Bool.or_eq_true, decide_eq_true_eq, decide_eq_true_eq]
    exact h.weakerFirst_total a b

/-- A `qsort` as the C library may have it. -/
def weakerFirstSort : Qsort ScanResult where
  sort compare l := l.mergeSort fun a b => decide (WeakerFirst compare a b)
  perm _ l := List.mergeSort_perm l _
  sorted _ l h := (h.pairwise_weakerFirst l).imp And.left

theorem splitBadges_ascending (results : List ScanResult) :
    (splitBadges weakerFirstSort results).Pairwise fun a b => a.rssi ≤ b.rssi := by
  have hsorted := consistent_compareByBeacon.pairwise_weakerFirst results
  refine (hsorted.filter _).imp_of_mem fun {a b} ha hb hab => hab.2 ?_
  have hbadge := (List.mem_filter.mp ha).2
  rw [compareByBeacon_le_iff]
  intro hbeacon
  rw [hbeacon] at hbadge
  exact nomatch hbadge

theorem noneLost_of_truncates {chunk : ScanSamplingChunk}
    (hlong : scanChunkDataSize < chunk.scanResultData.length)
    (h : Truncates weakerFirstSort chunk) : NoneLost chunk.scanResultData := by
  obtain ⟨beacons, upper, ha, hsort⟩ := exists_arranged weakerFirstSort chunk.scanResultData
  exact ha.noneLost_of_strongest hlong (splitBadges_ascending _) ((ha.truncates_iff hlong hsort).mp h)

/-- Whatever order `qsort` gives to equal elements: the right devices are stored exactly if
the last sort loses none. -/
theorem truncation_keeps_strongest_iff {chunk : ScanSamplingChunk}
    (hlong : scanChunkDataSize < chunk.scanResultData.length) :
    (∀ q, Truncates q chunk) ↔ NoneLost chunk.scanResultData := by
  constructor
  · exact fun h => noneLost_of_truncates hlong (h weakerFirstSort)
  · intro h q
    obtain ⟨beacons, upper, ha, hsort⟩ := exists_arranged q chunk.scanResultData
    exact (ha.truncates_iff hlong hsort).mpr (ha.strongest_of_noneLost h)

/-- Badges of one strength. -/
def badgesOnly : ScanSamplingChunk :=
  ⟨⟨0, 0⟩, (List.range 30).map fun i => ⟨UInt16.ofNat i, -70, 1⟩⟩

theorem truncation_keeps_strongest_iff_badgesOnly :
    scanChunkDataSize < badgesOnly.scanResultData.length ∧
      ((∀ q, Truncates q badgesOnly) ↔ NoneLost badgesOnly.scanResultData) :=
  ⟨by decide, truncation_keeps_strongest_iff (by decide)⟩

/-- Five beacons, and one badge that is stronger than them and all other badges. -/
def fiveBeacons : ScanSamplingChunk :=
  ⟨⟨0, 0⟩, (List.range 5).map (fun i => ⟨UInt16.ofNat (16000 + i), -60, 1⟩) ++
    ⟨0, -40, 1⟩ :: (List.range 24).map fun i => ⟨UInt16.ofNat (i + 1), -70, 1⟩⟩

theorem fifth_beacon_loses_badge :
    scanChunkDataSize < fiveBeacons.scanResultData.length ∧
      ¬ ∀ q, Truncates q fiveBeacons := by
  refine ⟨by decide, fun h => ?_⟩
  obtain hfew | hall | ⟨x, ⟨⟨r, hr, hbadge, rfl⟩, htop⟩, henough⟩ :=
    noneLost_of_truncates (by decide) (h weakerFirstSort)
  · revert hfew
    decide
  · exact absurd (hall ⟨0, -40, 1⟩ (by decide)) (by decide)
  · revert r
    decide

end OpenBadge.Processing
