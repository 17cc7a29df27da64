import OpenBadge.Filesystem.Known

/-!
# Walking back

The iterator in a state in sync: where `filesystem_iterator_previous` goes from an
element, and what `filesystem_iterator_read_element` returns there.
-/

namespace OpenBadge.Filesystem

open OpenBadge.Lib OpenBadge.Storage

variable {D : Device} {s : State D} {pid : Nat} {it : PartitionIterator}

@[simp] theorem setIter_setIter (s : State D) (pid : Nat) (it it' : PartitionIterator) :
    (s.setIter pid it).setIter pid it' = s.setIter pid it' := by
  unfold State.setIter
  rw [Function.update_idem]

theorem modifyIterator_apply (f : PartitionIterator → PartitionIterator) :
    modifyIterator pid f s = (.ok (), s.setIter pid (f (s.iter pid))) := rfl

theorem Sync.setIter (hs : Sync s pid) (it : PartitionIterator) : Sync (s.setIter pid it) pid :=
  ⟨hs.start_fits, hs.swap_fits, hs.known⟩

@[simp] theorem headerAt_setIter (s : State D) (pid : Nat) (it : PartitionIterator) (a : Nat) :
    headerAt (s.setIter pid it) pid a = headerAt s pid a := rfl

/-- The iterator holds the header that stands at its address. -/
structure Points (s : State D) (pid : Nat) (it : PartitionIterator) : Prop where
  valid : it.iteratorValid = iteratorValidNumber
  header : headerAt s pid it.curElementAddress = .ok it.curElementHeader
  address_lt : it.curElementAddress + getElementHeaderLen pid < 2 ^ 32

theorem iteratorCheckValidity_points (hs : Sync s pid)
    (hf : (s.part pid).hasFirstElement = true) (hp : Points s pid it) :
    iteratorCheckValidity pid (s.setIter pid it) = (.ok (), s.setIter pid it) := by
  have hread := readElementHeader_sync (hs.setIter it) hp.address_lt
  rw [headerAt_setIter, hp.header] at hread
  unfold iteratorCheckValidity
  rw [getIterator_bind, setIter_iter, Proc.failIf_bind_neg (not_not_intro hp.valid),
    getPartition_bind, setIter_part, Proc.when_neg (by rw [hf]; decide), Proc.pure_bind_apply,
    Proc.attempt_bind_apply, hread]
  dsimp only
  rw [Proc.when_neg (by simp)]
  rfl

/-- The length of the element in front of the iterator's. -/
def previousLen (pid : Nat) (p : Partition) (it : PartitionIterator) : Nat :=
  neighbourLen pid p it.curElementLen it.curElementHeader.previousLenXorCurLen

/-- Where `filesystem_get_previous_element_header` looks for it. -/
def previousAddress (pid : Nat) (p : Partition) (it : PartitionIterator) : Nat :=
  if it.curElementAddress ≤ p.firstElementAddress then p.metadata.lastElementAddress
  else if it.curElementAddress ≤ p.firstElementAddress +
      (metadataSize + getElementHeaderLen pid) + previousLen pid p it then p.firstElementAddress
  else it.curElementAddress - previousLen pid p it - getElementHeaderLen pid

theorem iteratorPrevious_ends (hs : Sync s pid) (hf : (s.part pid).hasFirstElement = true)
    (hp : Points s pid it) (hstart : it.curElementAddress ≤ (s.part pid).firstElementAddress)
    (hlast : (s.part pid).metadata.lastElementAddress ≤ (s.part pid).firstElementAddress) :
    iteratorPrevious pid (s.setIter pid it) = (.error .notFound, s.setIter pid it) := by
  unfold iteratorPrevious getPreviousElementHeader
  rw [Proc.bind_ok (iteratorCheckValidity_points hs hf hp), getIterator_bind, setIter_iter]
  refine Proc.bind_error ?_ _
  rw [getPartition_bind, setIter_part, if_pos hstart, Proc.failIf_bind_pos hlast]

theorem getPreviousElementHeader_points (hs : Sync s pid) (hp : Points s pid it)
    (hnot : ¬ (it.curElementAddress ≤ (s.part pid).firstElementAddress ∧
      (s.part pid).metadata.lastElementAddress ≤ (s.part pid).firstElementAddress))
    {h : ElementHeader} (hread : headerAt s pid (previousAddress pid (s.part pid) it) = .ok h)
    (hlt : previousAddress pid (s.part pid) it + getElementHeaderLen pid < 2 ^ 32) :
    getPreviousElementHeader pid it.curElementAddress it.curElementHeader.recordId
        it.curElementLen (s.setIter pid it) =
      if h.recordId ≠ decrementRecordId it.curElementHeader.recordId then
        (.error .notFound, s.setIter pid it)
      else (.ok (previousAddress pid (s.part pid) it, h), s.setIter pid it) := by
  have hread' := readElementHeader_sync (hs.setIter it) hlt
  rw [headerAt_setIter, hread] at hread'
  unfold getPreviousElementHeader
  rw [getPartition_bind, setIter_part]
  unfold previousAddress at hread' ⊢
  by_cases hstart : it.curElementAddress ≤ (s.part pid).firstElementAddress
  · rw [if_pos hstart] at hread'
    simp only [if_pos hstart]
    rw [Proc.failIf_bind_neg (fun hle => hnot ⟨hstart, hle⟩), Proc.bind_ok hread']
    by_cases hid : h.recordId ≠ decrementRecordId it.curElementHeader.recordId
    · rw [if_pos hid, Proc.failIf_bind_pos hid]
    · rw [if_neg hid, Proc.failIf_bind_neg hid]
      rfl
  · have hcur := readElementHeader_sync (hs.setIter it) hp.address_lt
    rw [headerAt_setIter, hp.header] at hcur
    rw [if_neg hstart] at hread'
    simp only [if_neg hstart]
    rw [Proc.bind_ok hcur, getPartition_bind, setIter_part]
    change (readElementHeader pid (if it.curElementAddress ≤ (s.part pid).firstElementAddress +
      (metadataSize + getElementHeaderLen pid) + previousLen pid (s.part pid) it then _ else
        it.curElementAddress - previousLen pid (s.part pid) it - getElementHeaderLen pid) >>= _) _ =
      _
    rw [Proc.bind_ok hread']
    by_cases hid : h.recordId ≠ decrementRecordId it.curElementHeader.recordId
    · rw [if_pos hid, Proc.failIf_bind_pos hid]
    · rw [if_neg hid, Proc.failIf_bind_neg hid]
      rfl

/-- One step back. -/
theorem iteratorPrevious_points (hs : Sync s pid) (hf : (s.part pid).hasFirstElement = true)
    (hp : Points s pid it)
    (hnot : ¬ (it.curElementAddress ≤ (s.part pid).firstElementAddress ∧
      (s.part pid).metadata.lastElementAddress ≤ (s.part pid).firstElementAddress))
    {h : ElementHeader} (hread : headerAt s pid (previousAddress pid (s.part pid) it) = .ok h)
    (hlt : previousAddress pid (s.part pid) it + getElementHeaderLen pid < 2 ^ 32) :
    iteratorPrevious pid (s.setIter pid it) =
      if h.recordId = decrementRecordId it.curElementHeader.recordId ∧
          (previousAddress pid (s.part pid) it + getElementHeaderLen pid +
              previousLen pid (s.part pid) it) % 2 ^ 32 ≤
            (s.part pid).firstElementAddress + (s.part pid).metadata.partitionSize then
        (.ok (), s.setIter pid ⟨previousAddress pid (s.part pid) it,
          previousLen pid (s.part pid) it, h, it.iteratorValid⟩)
      else (.error .notFound, s.setIter pid it) := by
  have hget := getPreviousElementHeader_points hs hp hnot hread hlt
  unfold iteratorPrevious
  rw [Proc.bind_ok (iteratorCheckValidity_points hs hf hp), getIterator_bind, setIter_iter]
  by_cases hid : h.recordId = decrementRecordId it.curElementHeader.recordId
  · rw [if_neg (not_not_intro hid)] at hget
    rw [Proc.bind_ok hget]
    dsimp only
    rw [getPartition_bind, setIter_part, show neighbourLen pid (s.part pid) it.curElementLen
      it.curElementHeader.previousLenXorCurLen = previousLen pid (s.part pid) it from rfl]
    by_cases hfit : (previousAddress pid (s.part pid) it + getElementHeaderLen pid +
        previousLen pid (s.part pid) it) % 2 ^ 32 ≤
        (s.part pid).firstElementAddress + (s.part pid).metadata.partitionSize
    · rw [if_pos ⟨hid, hfit⟩, Proc.failIf_bind_neg (Nat.not_lt.mpr hfit), modifyIterator_apply,
        setIter_iter, setIter_setIter]
    · rw [if_neg (fun hc => hfit hc.2), Proc.failIf_bind_pos (Nat.not_le.mp hfit)]
  · rw [if_pos hid] at hget
    rw [Proc.bind_error hget, if_neg (fun hc => hid hc.1)]

theorem iteratorReadElement_points (hs : Sync s pid) (hf : (s.part pid).hasFirstElement = true)
    (hp : Points s pid it) {data : List UInt8}
    (hdata : slice s.bytes (it.curElementAddress +
      headerLenAt pid (s.part pid) it.curElementAddress) it.curElementLen = data)
    (hfits : it.curElementAddress + headerLenAt pid (s.part pid) it.curElementAddress +
      it.curElementLen ≤ D.size)
    (hcrc : hasElementCrc pid = true →
      it.curElementHeader.elementCrc = (crc16Compute data).toNat) :
    iteratorReadElement pid (s.setIter pid it) =
      (.ok (data, it.curElementHeader.recordId), s.setIter pid it) := by
  unfold iteratorReadElement
  rw [Proc.bind_ok (iteratorCheckValidity_points hs hf hp), getPartition_bind, getIterator_bind,
    setIter_iter, setIter_part, Proc.bind_ok (Proc.orFail_ok (storageRead_ok hfits) _),
    setIter_bytes, hdata, Proc.failIf_bind_neg (fun hc => hc.2 (hcrc hc.1).symm)]
  rfl

theorem iteratorInit_points (hs : Sync s pid) (hf : (s.part pid).hasFirstElement = true)
    {h : ElementHeader} (hread : headerAt s pid (s.part pid).latestElementAddress = .ok h)
    (hlt : (s.part pid).latestElementAddress + getElementHeaderLen pid < 2 ^ 32) :
    iteratorInit pid s = (.ok (), s.setIter pid ⟨(s.part pid).latestElementAddress,
      (s.part pid).latestElementLen, h, iteratorValidNumber⟩) := by
  unfold iteratorInit iteratorInvalidate
  rw [Proc.bind_ok (modifyIterator_apply _), getPartition_bind, setIter_part,
    Proc.failIf_bind_neg (by rw [hf]; decide), Proc.bind_ok (modifyIterator_apply _),
    setIter_setIter, Proc.attempt_bind_apply,
    readElementHeader_sync (hs.setIter _) hlt]
  rw [headerAt_setIter, hread]
  simp only [modifyIterator_apply, setIter_iter, setIter_setIter]

end OpenBadge.Filesystem
