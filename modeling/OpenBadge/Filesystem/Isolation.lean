import OpenBadge.Filesystem.Confined
import OpenBadge.Lib.Run

/-!
# Partitions do not disturb each other

Registrations, successful or not, lay partitions side by side behind the swap page.
Whatever is then called on one of them, the bytes and the swap entries of the others
stay as they are.
-/

namespace OpenBadge.Filesystem

open OpenBadge.Lib OpenBadge.Storage
open Proc (Keeps Yields)

variable {D : Device} {s t s₀ : State D} {e : Extent}

/-! ## Registration -/

theorem Partition.at_registered (hlen : isDynamic e.pid = true → e.elementLen = 0)
    (p : Partition) : (p.registered e).At e := by
  refine ⟨?_, Nat.le_refl _⟩
  unfold Partition.extent Partition.registered
  dsimp only
  split
  · rename_i hd
    rw [← hlen hd]
  · rfl

theorem findLatestLoop_confined (hD : D.FailsWithin) (he : e.Ok D) (firstLen : Nat) :
    ∀ (fuel a recordId len : Nat) (ret : Except RetCode (Nat × ElementHeader)), e.start ≤ a →
      Yields (Confined e s₀) (fun r => e.start ≤ r.1)
        (findLatestLoop e.pid firstLen fuel a recordId len ret)
  | 0, a, _, _, _, ha => Yields.pure ha
  | fuel + 1, a, recordId, len, .error _, ha => Yields.pure ha
  | fuel + 1, a, recordId, len, .ok (next, h), ha => by
    unfold findLatestLoop
    dsimp only
    split
    · exact Yields.pure ha
    · rename_i hnext
      refine (getNextElementHeader_confined hD he _ _ _).keeps.attempt.yields.bind fun ret _ => ?_
      exact findLatestLoop_confined hD he firstLen fuel next _ _ ret (by omega)

theorem findLatestElementAddress_confined (hD : D.FailsWithin) (he : e.Ok D) :
    Keeps (Confined e s₀) (findLatestElementAddress e.pid) := by
  refine getPartition_confined.seq fun p hp => ?_
  have hstart := hp.start_eq
  have hfirst : Keeps (Confined e s₀) (modifyPartition (D := D) e.pid fun q =>
      { q with latestElementAddress := p.firstElementAddress }) :=
    modifyPartition_confined fun q hq => ⟨hq.extent_eq, Nat.le_of_eq hstart.symm⟩
  refine hfirst.bind fun _ => ?_
  refine (readElementHeader_confined hD he _).bind fun h => ?_
  refine (getNextElementHeader_confined hD he _ _ _).keeps.attempt.bind fun ret => ?_
  refine (findLatestLoop_confined hD he _ _ _ _ _ ret (Nat.le_of_eq hstart.symm)).seq
    fun r hr => ?_
  have hfound : Keeps (Confined e s₀) (modifyPartition (D := D) e.pid fun q =>
      { q with
        latestElementAddress := r.1
        latestElementRecordId := r.2.1
        latestElementLen := r.2.2.1 }) :=
    modifyPartition_confined fun q hq => ⟨hq.extent_eq, hr⟩
  refine hfound.bind fun _ => ?_
  split
  · exact Keeps.pure _ _
  · exact Keeps.pure _ _
  · exact Keeps.fail _ _

/-- The part of the registration behind its checks counts the partition or fails. -/
theorem registerFound_cases (hD : D.FailsWithin) (he : e.Ok D) (hs : Confined e s₀ s) :
    ∃ u, Confined e s₀ u ∧
      ((∃ code, registerFound e s = (.error code, u)) ∨
        registerFound e s = (.ok e.pid, u.advance e)) := by
  have hflag : ∀ (b : Bool) {u : State D}, Confined e s₀ u →
      Confined e s₀ (u.setPart e.pid { u.part e.pid with hasFirstElement := b }) :=
    fun b u hu => hu.setPart ⟨hu.at_place.extent_eq, hu.at_place.latest_ge⟩
  have hread : Confined e s₀ (readElementHeader e.pid e.start s).2 :=
    readElementHeader_confined hD he e.start s hs
  unfold registerFound
  rw [Proc.attempt_bind_apply]
  rcases hcall : readElementHeader e.pid e.start s with ⟨code | h, u⟩
  · rw [hcall] at hread
    cases code with
    | notFound => exact ⟨_, hflag false hread, .inr rfl⟩
    | _ => exact ⟨u, hread, .inl ⟨_, rfl⟩⟩
  · rw [hcall] at hread
    have hlatest : Confined e s₀ (findLatestElementAddress e.pid u).2 :=
      findLatestElementAddress_confined hD he u hread
    rcases hfind : findLatestElementAddress e.pid u with ⟨code | _, v⟩
    · rw [hfind] at hlatest
      refine ⟨v, hlatest, .inl ⟨code, ?_⟩⟩
      dsimp only
      rw [Proc.bind_error hfind]
    · rw [hfind] at hlatest
      refine ⟨_, hflag true hlatest, .inr ?_⟩
      dsimp only
      rw [Proc.bind_ok hfind]
      rfl

/-- A registration that is not accepted fails before it reads or writes the storage. -/
theorem registerPartition_refused {r : Registration}
    (h : ¬ Registrable D s.numberOfPartitions s.nextFreeAddress r) :
    ∃ code u, registerPartition r s = (.error code, u) ∧ u.dev = s.dev ∧
      u.numberOfPartitions = s.numberOfPartitions ∧ u.nextFreeAddress = s.nextFreeAddress ∧
      ∀ j, j < s.numberOfPartitions → u.partitions j = s.partitions j := by
  unfold registerPartition
  rw [Proc.get_bind_apply]
  by_cases hfull : s.numberOfPartitions ≥ maxNumberOfPartitions
  · rw [Proc.failIf_bind_pos hfull]
    exact ⟨_, s, rfl, rfl, rfl, rfl, fun _ _ => rfl⟩
  rw [Proc.failIf_bind_neg hfull]
  by_cases hempty : r.dynamic = false ∧ r.elementLen = 0
  · rw [Proc.failIf_bind_pos hempty]
    exact ⟨_, s, rfl, rfl, rfl, rfl, fun _ _ => rfl⟩
  rw [Proc.failIf_bind_neg hempty]
  dsimp only
  have hindex : partitionIndex (partitionIdOf s.numberOfPartitions r.dynamic r.crc) =
      s.numberOfPartitions := partitionIndex_partitionIdOf (Nat.not_le.mp hfull) _ _
  have hkeep := computeAvailableSize_keeps (· = s) s.nextFreeAddress r.requiredSize s rfl
  rcases havail : computeAvailableSize s.nextFreeAddress r.requiredSize s with ⟨code | a, u⟩
  · rw [havail] at hkeep
    change u = s at hkeep
    subst hkeep
    rw [Proc.bind_error (Proc.orFail_error havail _)]
    exact ⟨_, u, rfl, rfl, rfl, rfl, fun _ _ => rfl⟩
  · obtain ⟨hstart, hsize, hunit⟩ := computeAvailableSize_eq_ok havail
    rw [computeAvailableSize_ok hstart hsize hunit] at havail
    cases havail
    rw [Proc.bind_ok (Proc.orFail_ok (computeAvailableSize_ok hstart hsize hunit) _),
      modifyPartition, Proc.modify_bind_apply]
    have hroom : availableSize D s.nextFreeAddress r.requiredSize <
        metadataSize + getElementHeaderLen (partitionIdOf s.numberOfPartitions r.dynamic r.crc) +
          (if r.dynamic then 0 else r.elementLen) := by
      by_contra hge
      exact h ⟨Nat.not_le.mp hfull, hempty, hstart, hsize, hunit, Nat.not_lt.mp hge⟩
    rw [Proc.failIf_bind_pos hroom]
    refine ⟨_, _, rfl, rfl, rfl, rfl, fun j hj => Function.update_of_ne ?_ _ _⟩
    omega

/-! ## The partition table -/

/-- The place of the partition with index `i`. -/
def State.extent (s : State D) (i : Nat) : Extent := (s.partitions i).extent

/-- What a partition may rely on: its own bytes and its slot in the swap page. -/
def Extent.Reserved (e : Extent) (x : Nat) : Prop :=
  (e.start ≤ x ∧ x < e.start + e.size) ∨
    (getSwapPageAddressOfPartition e.pid ≤ x ∧
      x < getSwapPageAddressOfPartition e.pid + swapEntrySize)

/-- The registered partitions lie in a row behind the swap page. -/
structure Placed (s : State D) : Prop where
  number_le : s.numberOfPartitions ≤ maxNumberOfPartitions
  next_ge : firstFree D ≤ s.nextFreeAddress
  ok : ∀ i < s.numberOfPartitions, (s.extent i).Ok D
  index_eq : ∀ i < s.numberOfPartitions, partitionIndex (s.extent i).pid = i
  at_place : ∀ i < s.numberOfPartitions, (s.partitions i).At (s.extent i)
  behind_swap : ∀ i < s.numberOfPartitions, firstFree D ≤ (s.extent i).start
  stop_le : ∀ i < s.numberOfPartitions, (s.extent i).start + (s.extent i).size ≤ s.nextFreeAddress
  in_order : ∀ i j, i < j → j < s.numberOfPartitions →
    (s.extent i).start + (s.extent i).size ≤ (s.extent j).start

/-- The layout that the application may rely on. -/
structure LaidOut (s : State D) : Prop where
  ok : ∀ i < s.numberOfPartitions, (s.extent i).Ok D
  behind_swap : ∀ i < s.numberOfPartitions, firstFree D ≤ (s.extent i).start
  entry_le : ∀ i < s.numberOfPartitions,
    getSwapPageAddressOfPartition (s.extent i).pid + swapEntrySize ≤ swapPageSize
  disjoint : ∀ i < s.numberOfPartitions, ∀ j < s.numberOfPartitions, i ≠ j →
    ∀ x, (s.extent i).Reserved x → ¬ (s.extent j).Reserved x

theorem swapSlot_le {pid : Nat} (h : partitionIndex pid < maxNumberOfPartitions) :
    getSwapPageAddressOfPartition pid + swapEntrySize ≤ swapPageSize := by
  unfold getSwapPageAddressOfPartition swapPageSize
  rw [← Nat.succ_mul]
  exact Nat.mul_le_mul_right _ h

theorem Extent.Owns.reserved {x : Nat} (h : e.Owns x) : e.Reserved x := by
  have hH := elementHeaderLen_bounds e.pid
  rcases h with h | h
  · exact .inl h
  · refine .inr ⟨h.1, ?_⟩
    unfold swapEntrySize recordIdSize previousLenXorCurLenSize elementCrcSize
    omega

theorem Extent.Apart.not_reserved {e e' : Extent} (h : e.Apart e') (he : e.Ok D) (he' : e'.Ok D)
    {x : Nat} (hx : e'.Reserved x) : ¬ e.Reserved x := by
  have hswap := swapSlot_le he.index_lt
  have hswap' := swapSlot_le he'.index_lt
  have hstart := he.start_ge
  have hstart' := he'.start_ge
  obtain ⟨hindex, happart⟩ := h
  unfold Extent.Reserved at *
  unfold getSwapPageAddressOfPartition swapEntrySize metadataSize recordIdSize
    previousLenXorCurLenSize elementCrcSize at *
  omega

theorem Placed.apart (h : Placed s) {i j : Nat} (hi : i < s.numberOfPartitions)
    (hj : j < s.numberOfPartitions) (hne : i ≠ j) : (s.extent i).Apart (s.extent j) := by
  refine ⟨?_, ?_⟩
  · rw [h.index_eq i hi, h.index_eq j hj]
    exact hne
  · rcases Nat.lt_or_gt_of_ne hne with hlt | hgt
    · exact .inl (h.in_order i j hlt hj)
    · exact .inr (h.in_order j i hgt hi)

theorem Placed.laidOut (h : Placed s) : LaidOut s :=
  ⟨h.ok, h.behind_swap, fun i hi => swapSlot_le (h.ok i hi).index_lt,
    fun i hi j hj hne _ hx => (h.apart hj hi hne.symm).not_reserved (h.ok j hj) (h.ok i hi) hx⟩

/-- The variables of a registered partition, looked up by its identifier. -/
theorem Placed.at_part (h : Placed s) {i : Nat} (hi : i < s.numberOfPartitions) :
    (s.part (s.extent i).pid).At (s.extent i) := by
  unfold State.part
  rw [h.index_eq i hi]
  exact h.at_place i hi

/-- The layout rests on the places of the registered partitions. -/
theorem Placed.congr (h : Placed s) (hnumber : t.numberOfPartitions = s.numberOfPartitions)
    (hnext : t.nextFreeAddress = s.nextFreeAddress)
    (hat : ∀ j < s.numberOfPartitions, (t.partitions j).At (s.extent j)) : Placed t := by
  have hext : ∀ j < s.numberOfPartitions, t.extent j = s.extent j := fun j hj =>
    (hat j hj).extent_eq
  refine ⟨hnumber ▸ h.number_le, hnext ▸ h.next_ge, ?_, ?_, ?_, ?_, ?_, ?_⟩ <;> rw [hnumber]
  · intro j hj
    rw [hext j hj]
    exact h.ok j hj
  · intro j hj
    rw [hext j hj]
    exact h.index_eq j hj
  · intro j hj
    rw [hext j hj]
    exact hat j hj
  · intro j hj
    rw [hext j hj]
    exact h.behind_swap j hj
  · intro j hj
    rw [hext j hj, hnext]
    exact h.stop_le j hj
  · intro j k hjk hk
    rw [hext j (Nat.lt_trans hjk hk), hext k hk]
    exact h.in_order j k hjk hk

/-- A call that is confined to one of the partitions leaves the table laid out. -/
theorem Placed.confined (h : Placed s) {i : Nat} (hi : i < s.numberOfPartitions)
    (hc : Confined (s.extent i) s t) : Placed t := by
  have hindex := h.index_eq i hi
  apply h.congr hc.number_eq hc.next_eq
  intro j hj
  by_cases hji : j = i
  · have hat := hc.at_place
    unfold State.part at hat
    rw [hindex] at hat
    rw [hji]
    exact hat
  · rw [hc.parts j (by rw [hindex]; exact hji)]
    exact h.at_place j hj

/-- One more partition at the next free address. -/
theorem Placed.advance (h : Placed s) (he : e.Ok D)
    (hindex : partitionIndex e.pid = s.numberOfPartitions) (hstart : e.start = s.nextFreeAddress)
    (hat : (t.part e.pid).At e) (hparts : ∀ j < s.numberOfPartitions,
      t.partitions j = s.partitions j) (hnumber : t.numberOfPartitions = s.numberOfPartitions) :
    Placed (t.advance e) := by
  have hnew : t.extent s.numberOfPartitions = e := by
    rw [← hindex]
    exact hat.extent_eq
  have hold : ∀ j < s.numberOfPartitions, t.extent j = s.extent j := fun j hj =>
    congrArg Partition.extent (hparts j hj)
  have hlast : ∀ j, j < t.numberOfPartitions + 1 →
      j < s.numberOfPartitions ∨ j = s.numberOfPartitions := by
    intro j hj
    omega
  refine ⟨?_, ?_, ?_, ?_, ?_, ?_, ?_, ?_⟩
  · have hlt := he.index_lt
    change t.numberOfPartitions + 1 ≤ _
    omega
  · have hge := h.next_ge
    change firstFree D ≤ e.start + e.size
    omega
  · intro j hj
    rcases hlast j hj with hlt | rfl
    · exact (hold j hlt).symm ▸ h.ok j hlt
    · exact hnew.symm ▸ he
  · intro j hj
    change partitionIndex (t.extent j).pid = j
    rcases hlast j hj with hlt | rfl
    · rw [hold j hlt]
      exact h.index_eq j hlt
    · rw [hnew]
      exact hindex
  · intro j hj
    change (t.partitions j).At (t.extent j)
    rcases hlast j hj with hlt | rfl
    · rw [hold j hlt, hparts j hlt]
      exact h.at_place j hlt
    · rw [hnew, ← hindex]
      exact hat
  · intro j hj
    change firstFree D ≤ (t.extent j).start
    rcases hlast j hj with hlt | rfl
    · rw [hold j hlt]
      exact h.behind_swap j hlt
    · rw [hnew, hstart]
      exact h.next_ge
  · intro j hj
    change (t.extent j).start + (t.extent j).size ≤ e.start + e.size
    rcases hlast j hj with hlt | rfl
    · have hle := h.stop_le j hlt
      rw [hold j hlt]
      omega
    · exact Nat.le_of_eq (by rw [hnew])
  · intro j k hjk hk
    change (t.extent j).start + (t.extent j).size ≤ (t.extent k).start
    rcases hlast k hk with hlt | rfl
    · rw [hold j (Nat.lt_trans hjk hlt), hold k hlt]
      exact h.in_order j k hjk hlt
    · rw [hold j hjk, hnew, hstart]
      exact h.stop_le j hjk

/-! ## Calls -/

/-- The calls of the application. The library reads a header in all of them but the
invalidation of an iterator. -/
inductive Call
  | registerPartition (r : Registration)
  | storeElement (pid : Nat) (elementData : Nat → UInt8) (elementLen : Nat)
  | clearPartition (pid : Nat)
  | iteratorInvalidate (pid : Nat)
  | iteratorInit (pid : Nat)
  | iteratorNext (pid : Nat)
  | iteratorPrevious (pid : Nat)
  | iteratorReadElement (pid : Nat)

/-- The partition that a call is made on. -/
def Call.pid : Call → Option Nat
  | .registerPartition _ => none
  | .storeElement pid _ _ | .clearPartition pid | .iteratorInvalidate pid | .iteratorInit pid
  | .iteratorNext pid | .iteratorPrevious pid | .iteratorReadElement pid => some pid

def execCall : Call → Fs D Unit
  | .registerPartition r => do
    let _ ← registerPartition r
    pure ()
  | .storeElement pid elementData elementLen => storeElement pid elementData elementLen
  | .clearPartition pid => clearPartition pid
  | .iteratorInvalidate pid => iteratorInvalidate pid
  | .iteratorInit pid => iteratorInit pid
  | .iteratorNext pid => iteratorNext pid
  | .iteratorPrevious pid => iteratorPrevious pid
  | .iteratorReadElement pid => do
    let _ ← iteratorReadElement pid
    pure ()

/-- The state after a call, whatever it returns. -/
def callStep (s : State D) (c : Call) : State D := (execCall c s).2

/-- `pid` is the identifier that a registration returned. -/
def State.Registered (s : State D) (pid : Nat) : Prop :=
  ∃ i < s.numberOfPartitions, (s.extent i).pid = pid

/-- The application calls with identifiers that it got from registrations. -/
def OnRegistered (s : State D) (c : Call) : Prop := ∀ pid ∈ c.pid, s.Registered pid

instance (s : State D) (pid : Nat) : Decidable (s.Registered pid) :=
  inferInstanceAs (Decidable (∃ i, i < s.numberOfPartitions ∧ (s.extent i).pid = pid))

instance (s : State D) (c : Call) : Decidable (OnRegistered s c) :=
  inferInstanceAs (Decidable (∀ pid ∈ c.pid, s.Registered pid))

/-- From `s` to `t` the partitions stay in place, and those with another identifier than
`pid` keep their variables and their bytes. -/
structure Isolates (pid : Option Nat) (s t : State D) : Prop where
  extent_eq : ∀ i < s.numberOfPartitions, t.extent i = s.extent i
  parts : ∀ i < s.numberOfPartitions, pid ≠ some (s.extent i).pid →
    t.partitions i = s.partitions i
  bytes : ∀ i < s.numberOfPartitions, pid ≠ some (s.extent i).pid →
    ∀ x, (s.extent i).Reserved x → t.bytes x = s.bytes x

theorem Placed.isolates (h : Placed s) {i : Nat} (hi : i < s.numberOfPartitions)
    (hc : Confined (s.extent i) s t) : Isolates (some (s.extent i).pid) s t := by
  have hother : ∀ j, some (s.extent i).pid ≠ some (s.extent j).pid → j ≠ i :=
    fun j hne heq => hne (by rw [heq])
  refine ⟨fun j hj => ?_, fun j hj hne => ?_, fun j hj hne x hx => hc.bytes x fun hown => ?_⟩
  · by_cases hji : j = i
    · have hat := hc.at_place
      unfold State.part at hat
      rw [h.index_eq i hi] at hat
      rw [hji]
      exact hat.extent_eq
    · exact congrArg Partition.extent (hc.parts j (by rw [h.index_eq i hi]; exact hji))
  · apply hc.parts j
    rw [h.index_eq i hi]
    exact hother j hne
  · exact (h.apart hi hj (hother j hne).symm).not_reserved (h.ok i hi) (h.ok j hj) hx hown.reserved

/-- The place of the next partition. -/
theorem Placed.next_extent (h : Placed s) {r : Registration}
    (hreg : Registrable D s.numberOfPartitions s.nextFreeAddress r)
    (he : e = extentOf D s.numberOfPartitions s.nextFreeAddress r) :
    e.Ok D ∧ partitionIndex e.pid = s.numberOfPartitions ∧
      (isDynamic e.pid = true → e.elementLen = 0) := by
  subst he
  refine ⟨extentOf_ok hreg (Nat.le_trans (firstFree_ge D) h.next_ge),
    partitionIndex_partitionIdOf hreg.index_lt _ _, fun hd => ?_⟩
  change isDynamic (partitionIdOf _ _ _) = true at hd
  rw [isDynamic_partitionIdOf hreg.index_lt] at hd
  exact if_pos hd

/-- A registration adds a partition behind the others, or none. -/
theorem registerPartition_isolates (hD : D.FailsWithin) (h : Placed s) (r : Registration) :
    Placed (registerPartition r s).2 ∧ Isolates none s (registerPartition r s).2 ∧
      ∀ code, (registerPartition r s).1 = .error code →
        (registerPartition r s).2.numberOfPartitions = s.numberOfPartitions ∧
          (registerPartition r s).2.nextFreeAddress = s.nextFreeAddress := by
  by_cases hreg : Registrable D s.numberOfPartitions s.nextFreeAddress r
  · obtain ⟨e, he⟩ : ∃ e, e = extentOf D s.numberOfPartitions s.nextFreeAddress r := ⟨_, rfl⟩
    obtain ⟨hok, hindex, hlen⟩ := h.next_extent hreg he
    have hstart : e.start = s.nextFreeAddress := by rw [he]; rfl
    rw [registerPartition_eq hreg he]
    have hfirst := setPart_part s e.pid ((s.part e.pid).registered e)
    obtain ⟨u, hu, hcases⟩ := registerFound_cases hD hok (Confined.refl (by
      rw [hfirst]
      exact Partition.at_registered hlen _))
    have hparts : ∀ j < s.numberOfPartitions, u.partitions j = s.partitions j := fun j hj =>
      (hu.parts j (by omega)).trans (Function.update_of_ne (by omega) _ _)
    have hbytes : ∀ j < s.numberOfPartitions, ∀ x, (s.extent j).Reserved x →
        u.bytes x = s.bytes x := by
      intro j hj x hx
      have hjok := h.ok j hj
      have happart : e.Apart (s.extent j) := by
        refine ⟨?_, .inr ?_⟩
        · rw [hindex, h.index_eq j hj]
          omega
        · rw [hstart]
          exact h.stop_le j hj
      exact hu.bytes x fun hown => happart.not_reserved hok hjok hx hown.reserved
    rcases hcases with ⟨code, hfail⟩ | hdone
    · rw [hfail]
      refine ⟨h.congr hu.number_eq hu.next_eq fun j hj => ?_,
        ⟨fun j hj => congrArg Partition.extent (hparts j hj), fun j hj _ => hparts j hj,
          fun j hj _ => hbytes j hj⟩, fun _ _ => ⟨hu.number_eq, hu.next_eq⟩⟩
      rw [hparts j hj]
      exact h.at_place j hj
    · rw [hdone]
      exact ⟨h.advance hok hindex hstart hu.at_place hparts hu.number_eq,
        ⟨fun j hj => congrArg Partition.extent (hparts j hj), fun j hj _ => hparts j hj,
          fun j hj _ => hbytes j hj⟩, fun _ hcode => (by cases hcode)⟩
  · obtain ⟨code, u, hu, hdev, hnumber, hnext, hparts⟩ := registerPartition_refused hreg
    rw [hu]
    refine ⟨h.congr hnumber hnext fun j hj => ?_,
      ⟨fun j hj => congrArg Partition.extent (hparts j hj), fun j hj _ => hparts j hj,
        fun j hj _ x _ => congrArg (D.byte · x) hdev⟩, fun _ _ => ⟨hnumber, hnext⟩⟩
    rw [hparts j hj]
    exact h.at_place j hj

/-- A registration that succeeds adds the next partition. -/
theorem registerPartition_eq_ok (hD : D.FailsWithin) (h : Placed s) {r : Registration} {pid : Nat}
    (hr : registerPartition r s = (.ok pid, t)) :
    t.numberOfPartitions = s.numberOfPartitions + 1 ∧
      t.extent s.numberOfPartitions = extentOf D s.numberOfPartitions s.nextFreeAddress r ∧
      pid = partitionIdOf s.numberOfPartitions r.dynamic r.crc := by
  have hreg := registrable_of_ok hr
  obtain ⟨e, he⟩ : ∃ e, e = extentOf D s.numberOfPartitions s.nextFreeAddress r := ⟨_, rfl⟩
  obtain ⟨hok, hindex, hlen⟩ := h.next_extent hreg he
  have hfirst := setPart_part s e.pid ((s.part e.pid).registered e)
  obtain ⟨u, hu, ⟨code, hfail⟩ | hdone⟩ := registerFound_cases hD hok (Confined.refl (by
    rw [hfirst]
    exact Partition.at_registered hlen _))
  · rw [registerPartition_eq hreg he, hfail] at hr
    cases hr
  · rw [registerPartition_eq hreg he, hdone] at hr
    cases hr
    have hat := hu.at_place.extent_eq
    unfold State.part at hat
    rw [hindex] at hat
    exact ⟨congrArg (· + 1) hu.number_eq, hat.trans he, congrArg Extent.pid he⟩

/-- What each call on a partition can reach. -/
theorem execCall_confined (hD : D.FailsWithin) (he : e.Ok D) {c : Call} (hpid : c.pid = some e.pid) :
    Keeps (Confined e s₀) (execCall c) := by
  cases c with
  | registerPartition r => cases hpid
  | storeElement pid elementData elementLen =>
    cases hpid
    exact storeElement_confined hD he elementData elementLen
  | clearPartition pid =>
    cases hpid
    exact clearPartition_confined hD he
  | iteratorInvalidate pid =>
    cases hpid
    exact iteratorInvalidate_confined
  | iteratorInit pid =>
    cases hpid
    exact iteratorInit_confined hD he
  | iteratorNext pid =>
    cases hpid
    exact iteratorNext_confined hD he
  | iteratorPrevious pid =>
    cases hpid
    exact iteratorPrevious_confined hD he
  | iteratorReadElement pid =>
    cases hpid
    exact (iteratorReadElement_confined hD he).bind fun _ => Keeps.pure _ _

theorem callStep_isolates (hD : D.FailsWithin) (h : Placed s) {c : Call}
    (hc : OnRegistered s c) : Placed (callStep s c) ∧ Isolates c.pid s (callStep s c) := by
  rcases hpid : c.pid with _ | pid
  · cases c with
    | registerPartition r =>
      obtain ⟨hplaced, hiso, -⟩ := registerPartition_isolates hD h r
      have hstep : callStep s (.registerPartition r) = (registerPartition r s).2 := by
        change ((registerPartition r >>= fun _ => pure ()) s).2 = _
        rw [Proc.bind_apply]
        rcases registerPartition r s with ⟨_ | _, _⟩ <;> rfl
      rw [hstep]
      exact ⟨hplaced, hiso⟩
    | _ => cases hpid
  · obtain ⟨i, hi, rfl⟩ := hc pid hpid
    have hconf : Confined (s.extent i) s (callStep s c) :=
      execCall_confined hD (h.ok i hi) hpid s (Confined.refl (h.at_part hi))
    exact ⟨h.confined hi hconf, h.isolates hi hconf⟩

theorem placed_of_reset (h : reset s = (.ok (), t)) : Placed t := by
  rw [reset_eq (size_of_reset h)] at h
  cases h
  exact ⟨Nat.zero_le _, Nat.le_refl _, fun _ hi => absurd hi (Nat.not_lt_zero _),
    fun _ hi => absurd hi (Nat.not_lt_zero _), fun _ hi => absurd hi (Nat.not_lt_zero _),
    fun _ hi => absurd hi (Nat.not_lt_zero _), fun _ hi => absurd hi (Nat.not_lt_zero _),
    fun _ _ _ hj => absurd hj (Nat.not_lt_zero _)⟩

theorem run_placed (hD : D.FailsWithin) (h : Placed s) {calls : List Call}
    (hcalls : Along callStep OnRegistered s calls) : Placed (run callStep s calls) :=
  run_invariant (I := Placed) (C := OnRegistered)
    (fun _ _ hs hc => (callStep_isolates hD hs hc).1) h hcalls

/-- After any sequence of registrations and of calls on the registered partitions, these are
laid out apart from each other, a registration that fails leaves the table, and a call on
one of them leaves the bytes of the others. -/
theorem partitions_isolated (hD : D.FailsWithin) {u : State D} (hreset : reset u = (.ok (), s))
    {calls : List Call} (hcalls : Along callStep OnRegistered s calls)
    (ht : t = run callStep s calls) :
    LaidOut t ∧
      (∀ r code, (registerPartition r t).1 = .error code →
        (registerPartition r t).2.numberOfPartitions = t.numberOfPartitions ∧
          (registerPartition r t).2.nextFreeAddress = t.nextFreeAddress) ∧
      ∀ c, OnRegistered t c → Isolates c.pid t (callStep t c) := by
  have hplaced : Placed t := by
    rw [ht]
    exact run_placed hD (placed_of_reset hreset) hcalls
  exact ⟨hplaced.laidOut, fun r => (registerPartition_isolates hD hplaced r).2.2,
    fun c hc => (callStep_isolates hD hplaced hc).2⟩

/-- Two partitions, a store to the first and the registration of one that is too large. -/
def sideBySide : List Call :=
  [.registerPartition ⟨30, false, true, 4, four_lt_elementLenMax⟩,
    .registerPartition ⟨40, true, false, 0, zero_lt_elementLenMax⟩,
    .storeElement 0x4000 (bytesOf [1, 2, 3, 4]) 4,
    .registerPartition ⟨100, false, false, 90, by decide⟩]

theorem partitions_isolated_side_by_side :
    let s : State eeprom := (powerUp (D := eeprom) blankBytes).restarted
    let t := run callStep s sideBySide
    LaidOut t ∧
      (∀ r code, (registerPartition r t).1 = .error code →
        (registerPartition r t).2.numberOfPartitions = t.numberOfPartitions ∧
          (registerPartition r t).2.nextFreeAddress = t.nextFreeAddress) ∧
      ∀ c, OnRegistered t c → Isolates c.pid t (callStep t c) :=
  partitions_isolated (fillDevice_failsWithin _ _ _ _) (reset_eq (by decide))
    (by decide +kernel) rfl

end OpenBadge.Filesystem
