import OpenBadge.Filesystem.Variables
import OpenBadge.Filesystem.Worn

/-!
# Moving from slot to slot

Where the iterator of a static partition goes from an element of the last round, and what is
read there, with any of the elements' data damaged.
-/

namespace OpenBadge.Filesystem

open OpenBadge.Lib OpenBadge.Storage
open Proc (Keeps)

variable {D : Device} {s t : State D} {e : Extent} {pid base i : Nat}
  {ring : List (Option (List UInt8))}

/-- One step forward. -/
theorem iteratorNext_points {it : PartitionIterator} (hs : Sync s pid)
    (hf : (s.part pid).hasFirstElement = true) (hp : Points s pid it)
    (ha : (s.part pid).firstElementAddress ≤ it.curElementAddress)
    (hstop : stopOf pid (s.part pid) it.curElementAddress it.curElementLen +
      getElementHeaderLen pid < 2 ^ 32) :
    iteratorNext pid (s.setIter pid it) =
      match nextAt s pid it.curElementAddress it.curElementHeader.recordId it.curElementLen with
      | .error r => (.error r, s.setIter pid it)
      | .ok x => (.ok (), s.setIter pid ⟨x.1,
          neighbourLen pid (s.part pid) it.curElementLen x.2.previousLenXorCurLen, x.2,
          it.iteratorValid⟩) := by
  have hget : getNextElementHeader pid it.curElementAddress it.curElementHeader.recordId
      it.curElementLen (s.setIter pid it) =
        (nextAt s pid it.curElementAddress it.curElementHeader.recordId it.curElementLen,
          s.setIter pid it) :=
    getNextElementHeader_sync (hs.setIter it) ha hstop
  unfold iteratorNext
  rw [Proc.bind_ok (iteratorCheckValidity_points hs hf hp), getIterator_bind, setIter_iter]
  rcases hnext : nextAt s pid it.curElementAddress it.curElementHeader.recordId
    it.curElementLen with r | ⟨next, hd⟩
  · rw [hnext] at hget
    rw [Proc.bind_error hget]
  · rw [hnext] at hget
    rw [Proc.bind_ok hget]
    dsimp only
    rw [getPartition_bind, setIter_part, modifyIterator_apply, setIter_iter, setIter_setIter]

/-- The state with the iterator at the element `i`. -/
def State.atElement (s : State D) (e : Extent) (i : Nat) : State D :=
  s.setIter e.pid (e.iteratorAt s.bytes (e.slotAt (i % e.slots)) e.elementLen)

theorem iteratorAt_header (m : Nat → UInt8) (e : Extent) (j len : Nat) :
    (e.iteratorAt m (e.slotAt j) len).curElementHeader = slotHeader m e j := rfl

section Steps

variable (hd : isDynamic e.pid = false) (hslots : 3 ≤ e.slots) (hslots' : e.slots < 65534)
  (hk : Known D s.bytes e (s.part e.pid)) (hf : (s.part e.pid).hasFirstElement = true)
  (h : Worn D s.bytes e (s.part e.pid) base ring)

include hslots hk in
/-- The slots lie in the storage. -/
theorem slot_room (i : Nat) : e.stopOf (e.slotAt (i % e.slots)) e.elementLen ≤ e.start + e.size ∧
    e.start + e.size ≤ D.size ∧ e.start ≤ e.slotAt (i % e.slots) ∧
    e.slotAt (i % e.slots) + getElementHeaderLen e.pid + e.elementLen ≤
      e.stopOf (e.slotAt (i % e.slots)) e.elementLen := by
  have hstop := slot_fits hk (Nat.mod_lt i (show 0 < e.slots by omega))
  have hle := hk.ram.stop_le
  have hge := slotAt_ge e (i % e.slots)
  have hdata := dataAt_ge e (e.slotAt (i % e.slots))
  rw [hk.start_eq, hk.size_eq] at hle
  refine ⟨hstop, hle, by omega, ?_⟩
  unfold Extent.stopOf
  omega

include hslots hk hf in
theorem slot_points (i len : Nat) :
    Points s e.pid (e.iteratorAt s.bytes (e.slotAt (i % e.slots)) len) := by
  obtain ⟨hstop, hle, -, hge⟩ := slot_room hslots hk i
  exact hk.points hf (by omega) len

include hslots hk hf in
/-- What a read returns. -/
theorem read_atElement (i : Nat) : iteratorReadElement e.pid (s.atElement e i) =
    (match slotContents s.bytes e (i % e.slots) with
      | some data => .ok (data, (slotHeader s.bytes e (i % e.slots)).recordId)
      | none => .error .invalidData, s.atElement e i) := by
  obtain ⟨hstop, hle, -, hge⟩ := slot_room hslots hk i
  unfold iteratorReadElement State.atElement
  rw [Proc.bind_ok (iteratorCheckValidity_points hk.sync hf (slot_points hslots hk hf i _)),
    getPartition_bind, getIterator_bind, setIter_iter, setIter_part]
  generalize hit : e.iteratorAt s.bytes (e.slotAt (i % e.slots)) e.elementLen = it
  have hread : storageRead (it.curElementAddress + headerLenAt e.pid (s.part e.pid)
        it.curElementAddress) it.curElementLen (s.setIter e.pid it) =
      (.ok (slotData s.bytes e (i % e.slots)), s.setIter e.pid it) := by
    have hfits : e.dataAt (e.slotAt (i % e.slots)) + e.elementLen ≤ D.size := by
      unfold Extent.stopOf at hstop
      omega
    rw [headerLenAt_extent hk.start_eq, ← hit]
    exact storageRead_ok hfits
  rw [Proc.bind_ok (Proc.orFail_ok hread _)]
  have hheader : it.curElementHeader = slotHeader s.bytes e (i % e.slots) := by
    rw [← hit]
    rfl
  unfold slotContents
  rw [hheader]
  by_cases hcrc : hasElementCrc e.pid = true ∧
      (crc16Compute (slotData s.bytes e (i % e.slots))).toNat ≠
        (slotHeader s.bytes e (i % e.slots)).elementCrc
  · rw [if_pos hcrc, Proc.failIf_bind_pos hcrc]
  · rw [if_neg hcrc, Proc.failIf_bind_neg hcrc]
    rfl

include hslots hk hf h in
theorem Worn.init : iteratorInit e.pid s = (.ok (), s.atElement e (ring.length - 1)) := by
  obtain ⟨hpos, haddr, hlen, -, -⟩ := h.turned.stored hf
  obtain ⟨hstop, hle, -, hge⟩ := slot_room hslots hk (ring.length - 1)
  have hD := size_lt D
  rw [iteratorInit_points hk.sync hf (hk.headerAt_eq hf (by rw [haddr]; omega))
    (by rw [haddr]; omega), haddr, hlen]
  rfl

include hd hslots hslots' hk hf h in
/-- A step back ends at the oldest element. -/
theorem Worn.previous (hi : i < ring.length) (hle : ring.length ≤ i + e.slots) :
    iteratorPrevious e.pid (s.atElement e i) =
      if 0 < i ∧ ring.length < i + e.slots then (.ok (), s.atElement e (i - 1))
      else (.error .notFound, s.atElement e i) := by
  obtain ⟨-, -, -, -, hlast⟩ := h.turned.stored hf
  have hpoints := slot_points hslots hk hf i e.elementLen
  by_cases hzero : i = 0
  · rw [if_neg (fun hc => Nat.ne_of_gt hc.1 hzero)]
    rw [if_pos (by omega)] at hlast
    refine iteratorPrevious_ends hk.sync hf hpoints ?_ (Nat.le_of_eq (by rw [hlast, hk.start_eq]))
    rw [hzero, Nat.zero_mod, slotAt_zero, hk.start_eq]
    exact Nat.le_refl e.start
  · have hpos : 0 < i := Nat.pos_of_ne_zero hzero
    obtain ⟨hstop, hstop', hstart, hge⟩ := slot_room hslots hk (i - 1)
    have hD := size_lt D
    have hbefore := slotBefore_mod (e := e) (i := i) (by omega) hpos
    have htarget : previousAddress e.pid (s.part e.pid)
        (e.iteratorAt s.bytes (e.slotAt (i % e.slots)) e.elementLen) =
        e.slotAt ((i - 1) % e.slots) := by
      have hlen : previousLen e.pid (s.part e.pid)
          (e.iteratorAt s.bytes (e.slotAt (i % e.slots)) e.elementLen) = e.elementLen :=
        neighbourLen_static hd hk _ _
      unfold previousAddress
      rw [hlen, hk.start_eq, ← hbefore]
      change (if e.slotAt (i % e.slots) ≤ e.start then _ else if e.slotAt (i % e.slots) ≤ e.start +
        (metadataSize + getElementHeaderLen e.pid) + e.elementLen then e.start else
          e.slotAt (i % e.slots) - e.elementLen - getElementHeaderLen e.pid) = _
      unfold Extent.slotBefore
      by_cases hj : i % e.slots = 0
      · have hround : e.slots ≤ i := by
          by_contra hlt
          rw [Nat.mod_eq_of_lt (Nat.not_le.mp hlt)] at hj
          omega
        rw [if_neg (by omega)] at hlast
        rw [hj, slotAt_zero, if_pos (Nat.le_refl _), if_pos rfl, hlast]
      · have hgt := slotAt_gt (e := e) hj
        have hsucc : e.slotAt (i % e.slots) =
            e.stopOf (e.slotAt (i % e.slots - 1)) e.elementLen := by
          rw [← slotAt_succ, Nat.sub_add_cancel (Nat.pos_of_ne_zero hj)]
        rw [if_neg (Nat.not_le.mpr hgt), if_neg hj]
        by_cases hfirst : i % e.slots - 1 = 0
        · rw [hfirst, slotAt_zero] at hsucc ⊢
          rw [extent_stopOf_start] at hsucc
          rw [if_pos (by omega)]
        · have hgt' := slotAt_gt (e := e) hfirst
          have hpos' := slotAt_pos (e := e) hfirst
          have hmul := Nat.mul_le_mul_right e.slotSize (Nat.pos_of_ne_zero hfirst)
          rw [extent_stopOf_next (by omega)] at hsucc
          have hsize := e.slotSize_pos
          rw [if_neg (by omega)]
          omega
    have hread := hk.headerAt_eq hf
      (show e.slotAt ((i - 1) % e.slots) + getElementHeaderLen e.pid ≤ D.size by omega)
    have hlen : previousLen e.pid (s.part e.pid)
        (e.iteratorAt s.bytes (e.slotAt (i % e.slots)) e.elementLen) = e.elementLen :=
      neighbourLen_static hd hk _ _
    have hnot : ¬ ((e.iteratorAt s.bytes (e.slotAt (i % e.slots)) e.elementLen).curElementAddress ≤
          (s.part e.pid).firstElementAddress ∧
        (s.part e.pid).metadata.lastElementAddress ≤ (s.part e.pid).firstElementAddress) := by
      rintro ⟨haddr, hlast'⟩
      rw [hk.start_eq] at haddr hlast'
      have hj : i % e.slots = 0 := by
        by_contra hj
        exact absurd haddr (Nat.not_le.mpr (slotAt_gt hj))
      have hround : e.slots ≤ i := by
        by_contra hlt
        rw [Nat.mod_eq_of_lt (Nat.not_le.mp hlt)] at hj
        omega
      rw [hlast, if_neg (by omega)] at hlast'
      exact absurd hlast' (Nat.not_le.mpr (slotAt_gt (by omega)))
    have hstep := iteratorPrevious_points hk.sync hf hpoints hnot (by rw [htarget]; exact hread)
      (by rw [htarget]; omega)
    rw [htarget, hlen, iteratorAt_header, h.recordId_eq hi hle] at hstep
    change iteratorPrevious e.pid (s.atElement e i) = _ at hstep
    have hfits : (e.slotAt ((i - 1) % e.slots) + getElementHeaderLen e.pid + e.elementLen) % 2 ^ 32 ≤
        (s.part e.pid).firstElementAddress + (s.part e.pid).metadata.partitionSize := by
      rw [hk.start_eq, hk.size_eq, Nat.mod_eq_of_lt (by omega)]
      omega
    have hid : (headerOf s.bytes e.pid (e.dataAt (e.slotAt ((i - 1) % e.slots)) -
          getElementHeaderLen e.pid)).recordId = decrementRecordId (recordIdOf (base + i)) ↔
        ring.length < i + e.slots := by
      change (slotHeader s.bytes e ((i - 1) % e.slots)).recordId = _ ↔ _
      rw [show base + i = base + (i - 1) + 1 by omega, decrement_recordIdOf]
      constructor
      · intro heq
        by_contra hfull
        have hlatest := h.recordId_eq (i := ring.length - 1) (by omega) (by omega)
        rw [show ring.length - 1 = i - 1 + e.slots by omega, Nat.add_mod_right, heq] at hlatest
        have hmod := recordIdOf_inj hlatest
        omega
      · intro hlt
        exact h.recordId_eq (by omega) (by omega)
    by_cases hlt : ring.length < i + e.slots
    · rw [if_pos ⟨hid.mpr hlt, hfits⟩] at hstep
      rw [if_pos ⟨hpos, hlt⟩, hstep]
      rfl
    · rw [if_neg (fun hc => hlt (hid.mp hc.1))] at hstep
      rw [if_neg (fun hc => hlt hc.2), hstep]
      rfl
include hd hslots hk h in
/-- In the same round the element behind another one follows it. -/
theorem Worn.follows (hi : i + 1 < ring.length) (hle : ring.length ≤ i + e.slots)
    (hj : i % e.slots + 1 < e.slots) :
    Follows s.bytes e.pid (s.part e.pid) (e.slotAt (i % e.slots))
      (slotHeader s.bytes e (i % e.slots)).recordId e.elementLen := by
  have hnext := (slot_next (n := e.slots) (i := i + 1) (by omega) (by omega)).1
    (by rw [Nat.add_sub_cancel]; omega)
  rw [Nat.add_sub_cancel] at hnext
  obtain ⟨hstop, -, -, hge⟩ := slot_room hslots hk (i + 1)
  rw [hnext] at hstop hge
  have hid := h.recordId_eq hi (by omega)
  rw [hnext] at hid
  rw [Follows, slot_stopOf hk, neighbourLen_static hd hk, slotHeader_succ, hid,
    h.recordId_eq (by omega) hle, increment_recordIdOf, hk.start_eq, hk.size_eq]
  exact ⟨rfl, by omega⟩

include hslots hslots' h in
/-- The element in the first slot does not carry the identifier behind the latest one. -/
theorem Worn.first_ne_next (hpos : 0 < ring.length) :
    (slotHeader s.bytes e 0).recordId ≠ recordIdOf (base + ring.length) := by
  have hdiv := Nat.div_add_mod (ring.length - 1) e.slots
  have hlt := Nat.mod_lt (ring.length - 1) (show 0 < e.slots by omega)
  have hid := h.recordId_eq (i := e.slots * ((ring.length - 1) / e.slots)) (by omega) (by omega)
  rw [Nat.mul_mod_right] at hid
  intro heq
  have hmod := recordIdOf_inj (hid.symm.trans heq)
  omega

include hd hslots hslots' hk hf h in
/-- A step forward ends at the latest element. -/
theorem Worn.next (hends : Ending s.bytes e.pid (s.part e.pid))
    (hprobe : latestStop e.pid (s.part e.pid) + getElementHeaderLen e.pid ≤ D.size)
    (hi : i < ring.length) (hle : ring.length ≤ i + e.slots) :
    iteratorNext e.pid (s.atElement e i) =
      if i + 1 < ring.length then (.ok (), s.atElement e (i + 1))
      else (.error .notFound, s.atElement e i) := by
  obtain ⟨hpos, hlatest, hlatestLen, hlatestId, -⟩ := h.turned.stored hf
  obtain ⟨hstop, hstop', hstart, -⟩ := slot_room hslots hk i
  rw [← slotAt_succ] at hstop
  have hD := size_lt D
  have hH := elementHeaderLen_bounds e.pid
  have hfirst : firstAsNext s.bytes e.pid (s.part e.pid)
      (slotHeader s.bytes e (i % e.slots)).recordId =
      if (slotHeader s.bytes e 0).recordId ≠ recordIdOf (base + (i + 1)) then .error .notFound
      else .ok (e.slotAt 0, slotHeader s.bytes e 0) := by
    rw [firstAsNext, firstHeaderAt_current (hk.current hf), h.recordId_eq hi hle,
      increment_recordIdOf, hk.start_eq, slotHeader, slotAt_zero, dataAt_start, Nat.add_assoc]
  have hstep := iteratorNext_points hk.sync hf (slot_points hslots hk hf i e.elementLen)
    (by rw [hk.start_eq]; exact hstart)
    (show stopOf e.pid (s.part e.pid) (e.slotAt (i % e.slots)) e.elementLen + _ < _ by
      rw [slot_stopOf hk]
      omega)
  change iteratorNext e.pid (s.atElement e i) = (match nextAt s e.pid (e.slotAt (i % e.slots))
      (slotHeader s.bytes e (i % e.slots)).recordId e.elementLen with
    | .error r => (.error r, s.atElement e i)
    | .ok x => (.ok (), s.setIter e.pid ⟨x.1, neighbourLen e.pid (s.part e.pid) e.elementLen
        x.2.previousLenXorCurLen, x.2, iteratorValidNumber⟩)) at hstep
  rw [nextAt, slot_stopOf hk, slotHeader_succ, hfirst] at hstep
  by_cases hlast : i + 1 < ring.length
  · rw [if_pos hlast, hstep]
    by_cases hj : i % e.slots + 1 < e.slots
    · have hnext := (slot_next (n := e.slots) (i := i + 1) (by omega) (by omega)).1
        (by rw [Nat.add_sub_cancel]; omega)
      rw [Nat.add_sub_cancel] at hnext
      obtain ⟨hroom, -, -, hroom'⟩ := slot_room hslots hk (i + 1)
      rw [hnext] at hroom hroom'
      rw [if_pos (by omega), if_pos (h.follows hd hslots hk hlast hle hj)]
      dsimp only
      rw [neighbourLen_static hd hk, State.atElement, hnext]
      rfl
    · have hj' : i % e.slots + 1 = e.slots := by
        have hlt := Nat.mod_lt i (show 0 < e.slots by omega)
        omega
      have hfull : e.slots ≤ ring.length := by
        have hmod := Nat.mod_le i e.slots
        omega
      have hzero : (i + 1) % e.slots = 0 := by
        have hwrap := (slot_next (n := e.slots) (i := i + 1) (by omega) (by omega)).2
          (by rw [Nat.add_sub_cancel]; omega)
        exact hwrap.1
      have hid := h.recordId_eq hlast (by omega)
      rw [hzero] at hid
      rw [hj', if_pos (h.room hfull), if_neg (not_follows_last hd hk hj' _),
        if_neg (not_not_intro hid)]
      dsimp only
      rw [neighbourLen_static hd hk, State.atElement, hzero]
      rfl
  · have hcount : ring.length = i + 1 := by omega
    have hnone := h.first_ne_next hslots hslots' hpos
    have hnot := hends.ends
    rw [hlatest, hlatestLen, hlatestId, hcount, Nat.add_sub_cancel, ← h.recordId_eq hi hle] at hnot
    rw [latestStop, hlatest, hlatestLen, hcount, Nat.add_sub_cancel, slot_stopOf hk] at hprobe
    rw [hcount] at hnone
    rw [if_neg hlast, hstep, if_pos hprobe, if_neg hnot, if_pos hnone]
end Steps

/-! ## Stores while the iterator is at an element -/

/-- The iterator is at the element `i`. -/
def IsAt (s : State D) (e : Extent) (i : Nat) : Prop :=
  s.iter e.pid = e.iteratorAt s.bytes (e.slotAt (i % e.slots)) e.elementLen

theorem IsAt.eq (h : IsAt s e i) : s.atElement e i = s := by
  unfold State.atElement
  rw [← h, setIter_self]

theorem isAt_atElement (s : State D) (e : Extent) (i : Nat) : IsAt (s.atElement e i) e i := by
  unfold IsAt State.atElement
  rw [setIter_iter]
  rfl

/-- No iterator moves. -/
def Still (its : Nat → PartitionIterator) (t : State D) : Prop := t.partitionIterators = its

section Still

variable {its : Nat → PartitionIterator}

theorem getPartition_still (pid : Nat) : Keeps (Still (D := D) its) (getPartition pid) :=
  fun _ ht => ht

theorem modifyPartition_still (pid : Nat) (f : Partition → Partition) :
    Keeps (Still (D := D) its) (modifyPartition pid f) := fun _ ht => ht

theorem storageStore_still (a : Nat) (d : List UInt8) :
    Keeps (Still (D := D) its) (storageStore a d) := by
  intro t ht
  obtain ⟨v, hv⟩ := storageStore_setDev (s := t) a d
  rw [hv]
  exact ht

theorem storageClear_still (a n : Nat) : Keeps (Still (D := D) its) (storageClear a n) := by
  intro t ht
  obtain ⟨v, hv⟩ := storageClear_setDev (s := t) a n
  rw [hv]
  exact ht

theorem readFirstHeader_still (pid a : Nat) :
    Keeps (Still (D := D) its) (readFirstHeader pid a) :=
  ((storageRead_keeps _ _ _).orFail _).bind fun _ =>
    ((storageRead_keeps _ _ _).orFail _).bind fun _ => Keeps.pure _ _

theorem acceptFirstHeader_still (pid : Nat) (tmp : List UInt8) :
    Keeps (Still (D := D) its) (acceptFirstHeader pid tmp) := fun _ ht => ht

theorem readElementHeader_still (pid a : Nat) :
    Keeps (Still (D := D) its) (readElementHeader pid a) := by
  refine (getPartition_still pid).bind fun p => ?_
  split
  · refine (readFirstHeader_still pid a).bind fun tmp => ?_
    split
    · exact (Keeps.failIf _ _ _).bind fun _ => acceptFirstHeader_still pid tmp
    · refine (readFirstHeader_still pid _).bind fun tmp => (getPartition_still pid).bind fun p => ?_
      refine (Keeps.failIf _ _ _).bind fun _ => (Keeps.failIf _ _ _).bind fun _ => ?_
      refine ((storageStore_still _ _).orFail _).bind fun _ => ?_
      refine ((storageRead_keeps _ _ _).orFail _).bind fun _ => ?_
      exact (Keeps.failIf _ _ _).bind fun _ => acceptFirstHeader_still pid tmp
  · exact ((storageRead_keeps _ _ _).orFail _).bind fun _ => Keeps.pure _ _

theorem getNextElementHeader_still (pid a recordId len : Nat) :
    Keeps (Still (D := D) its) (getNextElementHeader pid a recordId len) := by
  refine (getPartition_still pid).bind fun p => (readElementHeader_still pid _).bind fun h => ?_
  refine (getPartition_still pid).bind fun p' => ?_
  split
  · exact Keeps.pure _ _
  · refine (getPartition_still pid).bind fun p => (readElementHeader_still pid _).bind fun h => ?_
    exact (Keeps.failIf _ _ _).bind fun _ => Keeps.pure _ _

theorem clearStaleNext_still (pid : Nat) (pl : Placement) (len : Nat) :
    Keeps (Still (D := D) its) (clearStaleNext pid pl len) := by
  refine (getNextElementHeader_still pid _ _ _).attempt.bind fun ret => ?_
  split
  · exact Keeps.when fun _ => (storageClear_still _ _).orFail _
  · exact Keeps.pure _ _
  · exact Keeps.fail _ _

theorem storeWrites_still (pid start : Nat) (pl : Placement) (len : Nat) (data : List UInt8) :
    Keeps (Still (D := D) its) (storeWrites pid start pl len data) := by
  refine (Keeps.when fun _ => modifyPartition_still pid _).bind fun _ => ?_
  refine Keeps.bind (I := Still its) ?_ fun _ => ?_
  · refine ((unitLimits_keeps _ _ _).orFail _).bind fun _ => (getPartition_still pid).bind fun p => ?_
    refine Keeps.when fun _ => Keeps.orFail ?_ _
    refine (Keeps.failIf _ _ _).bind fun _ => ((storageRead_keeps _ _ _).orFail _).bind fun _ => ?_
    refine Keeps.when fun _ => ((unitLimits_keeps _ _ _).orFail _).bind fun _ => ?_
    refine ((storageRead_keeps _ _ _).orFail _).bind fun _ => ?_
    refine ((storageStore_still _ _).orFail _).bind fun _ => ?_
    exact ((storageRead_keeps _ _ _).orFail _).bind fun _ => Keeps.failIf _ _ _
  · refine Keeps.bind (I := Still its) ?_ fun _ => modifyPartition_still pid _
    refine (getPartition_still pid).bind fun p => ((storageStore_still _ _).orFail _).bind fun _ => ?_
    refine ((storageRead_keeps _ _ _).orFail _).bind fun _ => (Keeps.failIf _ _ _).bind fun _ => ?_
    exact (storageStore_still _ _).orFail _

end Still

section Conflicts

variable (hd : isDynamic e.pid = false) (hslots : 3 ≤ e.slots) (hslots' : e.slots < 65534)
  (hk : Known D s.bytes e (s.part e.pid)) (hf : (s.part e.pid).hasFirstElement = true)
  (h : Worn D s.bytes e (s.part e.pid) base ring) (hat : IsAt s e i)

include hslots hk hf hat in
theorem IsAt.valid : iteratorCheckValidity e.pid s = (.ok (), s) := by
  have hcheck := iteratorCheckValidity_points hk.sync hf (slot_points hslots hk hf i e.elementLen)
  change iteratorCheckValidity e.pid (s.atElement e i) = (.ok (), s.atElement e i) at hcheck
  rwa [hat.eq] at hcheck

include hd hslots hk hat in
theorem IsAt.inStorage : InStorage D (s.part e.pid).firstElementAddress (s.iter e.pid) := by
  obtain ⟨hstop, hstop', hstart, hge⟩ := slot_room hslots hk i
  rw [hat, hk.start_eq]
  refine ⟨hstart, ?_, ?_, deserialize_typed _ _⟩
  · change e.slotAt (i % e.slots) ≤ D.size
    omega
  · change e.elementLen < 2 ^ 16
    rw [← hk.len_eq hd]
    exact hk.ram.firstLen_lt

include hd hslots hk hf h hat in
/-- A store does not go to the slot that the iterator is at. -/
theorem IsAt.store_apart (hle : ring.length ≤ i + e.slots) {elementData : Nat → UInt8}
    {elementLen : Nat} (hlen : elementLen < 2 ^ 16)
    (hstore : storeElement e.pid elementData elementLen s = (.ok (), t)) :
    ring.length < i + e.slots ∧ t.iter e.pid = s.iter e.pid := by
  obtain ⟨hacc, hcheck, s₁, w, v, hs₁, -, -, rfl⟩ := storeElement_eq_ok hk.ram hk.sync hstore
  have hq := request_of_accepted hk.ram hlen hacc elementData
  have hstored : storedLen e.pid (s.part e.pid) elementLen = e.elementLen :=
    (hq.static_len hd).trans (hk.len_eq hd)
  obtain ⟨haddr, -⟩ := h.turned.placement_eq hk hslots
  rw [storedAt, hstored, haddr] at hcheck hs₁
  have hconflict := Prod.ext (x := checkIteratorConflict e.pid (e.slotAt (ring.length % e.slots))
    e.elementLen s) (y := (.ok (), s₁)) hcheck hs₁.symm
  obtain ⟨hsame, -, hapart⟩ := checkIteratorConflict_apart hk.sync
    (hat.inStorage hd hslots hk) (hat.valid hslots hk hf) hconflict
  rw [setDev_iter, setPart_iter, hsame]
  refine ⟨Nat.lt_of_le_of_ne hle fun hfull => ?_, rfl⟩
  have hstart := unitStart_le D.modules (s.iter e.pid).curElementAddress
  rw [hat] at hapart hstart
  change _ ≤ e.slotAt (i % e.slots) at hstart
  rw [hfull, Nat.add_mod_right] at hapart
  change stopOf e.pid (s.part e.pid) (e.slotAt (i % e.slots)) e.elementLen ≤ _ ∨
    stopOf e.pid (s.part e.pid) (e.slotAt (i % e.slots)) e.elementLen ≤ e.slotAt (i % e.slots)
    at hapart
  have hlt := lt_stopOf e.pid (s.part e.pid) (e.slotAt (i % e.slots)) e.elementLen
  omega

include hd hslots hslots' hk hf h hat in
/-- The iterator stays at its element. -/
theorem IsAt.store (hD : D.ByteUnits) (hi : i < ring.length) (hle : ring.length ≤ i + e.slots)
    {elementData : Nat → UInt8} {elementLen : Nat} (hlen : elementLen < 2 ^ 16)
    (hstore : storeElement e.pid elementData elementLen s = (.ok (), t)) :
    ring.length < i + e.slots ∧ IsAt t e i := by
  obtain ⟨hlt, hiter⟩ := hat.store_apart hd hslots hk hf h hle hlen hstore
  obtain ⟨len, data, x, hl, hdata, hq, hrun, -⟩ := hk.store hlen hstore
  obtain rfl : len = e.elementLen := (hq.static_len hd).trans (hk.len_eq hd)
  refine ⟨hlt, ?_⟩
  have hheader : slotHeader t.bytes e (i % e.slots) = slotHeader s.bytes e (i % e.slots) := by
    refine slotHeader_congr fun y hy hy' => h.slot_kept hD hslots hslots' hk hq hrun hi hlt hy ?_
    unfold Extent.stopOf
    omega
  rw [IsAt, hiter, hat, Extent.iteratorAt, Extent.iteratorAt, ← slotHeader, ← slotHeader, hheader]

include hslots hk hf hat in
/-- A call that writes nothing changes nothing. -/
theorem IsAt.refused {elementData : Nat → UInt8} {elementLen : Nat} {r : Except RetCode Unit}
    (hstore : storeElement e.pid elementData elementLen s = (r, t))
    (hsame : SameButIter e.pid s t) : t = s := by
  have hstill : Still s.partitionIterators t := by
    have hconflict (a len : Nat) : (checkIteratorConflict e.pid a len s).2 = s := by
      rw [checkIteratorConflict, Proc.attempt_bind_apply, hat.valid hslots hk hf]
      dsimp only
      rw [getPartition_bind, getIterator_bind]
      exact Keeps.bind (I := (· = s)) ((unitLimits_keeps _ _ _).orFail _)
        (fun _ => Keeps.failIf _ _ _) s rfl
    rw [storeElement_eq] at hstore
    split at hstore
    · cases hstore
      rfl
    · split at hstore
      · rw [storeLookups, Proc.bind_assoc, Proc.bind_apply] at hstore
        have hlook := Proc.orFail_snd (checkIteratorConflict e.pid
          (storedAt e.pid (s.part e.pid) elementLen).address
          (storedLen e.pid (s.part e.pid) elementLen)) RetCode.internal s
        rw [hconflict] at hlook
        split at hstore
        · rename_i hx
          rw [hx] at hlook
          change Still s.partitionIterators (r, t).2
          rw [← hstore]
          exact Keeps.bind (clearStaleNext_still _ _ _) (fun _ => storeWrites_still _ _ _ _ _) _
            (congrArg State.partitionIterators hlook)
        · rename_i hx
          rw [hx] at hlook
          cases hstore
          exact congrArg State.partitionIterators hlook
      · cases hstore
        rfl
  rcases hsame with rfl | rfl
  · rfl
  · have hiter := congrFun hstill (partitionIndex e.pid)
    change (s.lost e.pid).iter e.pid = s.iter e.pid at hiter
    rw [State.lost, setIter_iter, hat] at hiter
    exact absurd (congrArg PartitionIterator.iteratorValid hiter) (by
      change ¬ (0 = iteratorValidNumber)
      decide)

include hslots hk hat in
theorem IsAt.frame (hiter : t.iter e.pid = s.iter e.pid)
    (hm : ∀ x, e.Owns x → t.bytes x = s.bytes x) : IsAt t e i := by
  obtain ⟨hstop, -, hstart, hge⟩ := slot_room hslots hk i
  have hdata := dataAt_ge e (e.slotAt (i % e.slots))
  have hheader : slotHeader t.bytes e (i % e.slots) = slotHeader s.bytes e (i % e.slots) := by
    refine slotHeader_congr fun x hx hx' => hm x (.inl ⟨by omega, ?_⟩)
    unfold Extent.stopOf at hstop
    omega
  rw [IsAt, hiter, hat, Extent.iteratorAt, Extent.iteratorAt, ← slotHeader, ← slotHeader, hheader]

end Conflicts


end OpenBadge.Filesystem
