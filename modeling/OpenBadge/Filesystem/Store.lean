import OpenBadge.Filesystem.Writes

/-!
# Storing an element

`filesystem_store_element` is cut in two: the lookups in front of the first write, and
the writes. `Appended` says what the writes do when they succeed.
-/

namespace OpenBadge.Filesystem

open OpenBadge.Lib OpenBadge.Storage

variable {D : Device} {s t : State D} {pid : Nat}

/-- What registration fixes about a partition, and the range of the latest element. -/
structure Ram (D : Device) (pid : Nat) (p : Partition) : Prop where
  pid_lt : pid < 2 ^ 16
  index_lt : partitionIndex pid < maxNumberOfPartitions
  id_eq : p.metadata.partitionId = pid
  start_ge : swapPageSize ≤ p.firstElementAddress
  start_unit : unitStart D.modules p.firstElementAddress = p.firstElementAddress
  stop_unit : unitStart D.modules (p.firstElementAddress + p.metadata.partitionSize) =
    p.firstElementAddress + p.metadata.partitionSize
  stop_le : p.firstElementAddress + p.metadata.partitionSize ≤ D.size
  size_ge : metadataSize + getElementHeaderLen pid ≤ p.metadata.partitionSize
  firstLen_lt : p.metadata.firstElementLen < 2 ^ 16
  latest : p.latestElementAddress = p.firstElementAddress ∨
    (p.firstElementAddress + metadataSize + getElementHeaderLen pid ≤ p.latestElementAddress ∧
      p.latestElementAddress ≤ p.firstElementAddress + p.metadata.partitionSize)
  latestLen_lt : p.latestElementLen < 2 ^ 16
  recordId : p.hasFirstElement = false → IsRecordId p.latestElementRecordId

theorem swapEntry_le (hindex : partitionIndex pid < maxNumberOfPartitions) :
    getSwapPageAddressOfPartition pid + metadataSize + getElementHeaderLen pid ≤ swapPageSize := by
  have hH := elementHeaderLen_bounds pid
  unfold getSwapPageAddressOfPartition swapPageSize swapEntrySize maxNumberOfPartitions
    metadataSize recordIdSize previousLenXorCurLenSize elementCrcSize at *
  omega

theorem Ram.swap_le {p : Partition} (h : Ram D pid p) :
    getSwapPageAddressOfPartition pid + metadataSize + getElementHeaderLen pid ≤ swapPageSize :=
  swapEntry_le h.index_lt

theorem Ram.sync (h : Ram D pid (s.part pid))
    (hk : Current s.bytes pid (s.part pid) ∨ Silent s.bytes pid (s.part pid)) : Sync s pid := by
  have hswap := h.swap_le
  have hstart := h.start_ge
  have hsize := h.size_ge
  have hstop := h.stop_le
  exact ⟨by omega, by omega, hk⟩

/-! ## Where the element goes -/

/-- The length that is stored: 0 stands for the length of a static partition. -/
def storedLen (pid : Nat) (p : Partition) (elementLen : Nat) : Nat :=
  if isDynamic pid = false ∧ elementLen = 0 then p.metadata.firstElementLen else elementLen

/-- The element passes the check of its length and the check for space. -/
def Accepted (pid : Nat) (p : Partition) (elementLen : Nat) : Prop :=
  ¬ (isDynamic pid = false ∧ elementLen ≠ 0 ∧ elementLen ≠ p.metadata.firstElementLen) ∧
    stopOf pid p (placement pid p (storedLen pid p elementLen)).address
      (storedLen pid p elementLen) ≤ p.firstElementAddress + p.metadata.partitionSize

instance (pid : Nat) (p : Partition) (elementLen : Nat) : Decidable (Accepted pid p elementLen) :=
  inferInstanceAs (Decidable (_ ∧ _))

theorem storedLen_lt {p : Partition} (h : Ram D pid p) {elementLen : Nat}
    (hlen : elementLen < 2 ^ 16) : storedLen pid p elementLen < 2 ^ 16 := by
  unfold storedLen
  split
  · exact h.firstLen_lt
  · exact hlen

theorem placement_empty {p : Partition} (h : p.hasFirstElement = false) (len : Nat) :
    placement pid p len = ⟨p.firstElementAddress, p.latestElementRecordId, 0⟩ := if_pos h

/-- The address behind the latest element. -/
def latestStop (pid : Nat) (p : Partition) : Nat :=
  stopOf pid p p.latestElementAddress p.latestElementLen

theorem placement_next {p : Partition} (h : p.hasFirstElement = true) {len : Nat}
    (hfit : latestStop pid p + getElementHeaderLen pid + len ≤
      p.firstElementAddress + p.metadata.partitionSize) :
    placement pid p len = ⟨latestStop pid p, incrementRecordId p.latestElementRecordId,
      p.latestElementLen ^^^ len⟩ := by
  unfold latestStop stopOf at *
  unfold placement
  rw [if_neg (by rw [h]; decide)]
  dsimp only
  rw [if_pos hfit]

theorem placement_wrap {p : Partition} (h : p.hasFirstElement = true) {len : Nat}
    (hfit : ¬ latestStop pid p + getElementHeaderLen pid + len ≤
      p.firstElementAddress + p.metadata.partitionSize) :
    placement pid p len = ⟨p.firstElementAddress, incrementRecordId p.latestElementRecordId,
      p.latestElementLen ^^^ len⟩ := by
  unfold latestStop stopOf at hfit
  unfold placement
  rw [if_neg (by rw [h]; decide)]
  dsimp only
  rw [if_neg hfit]

/-- A new element goes to the start of the partition or behind the latest element. -/
theorem placement_cases (pid : Nat) (p : Partition) (len : Nat) :
    (placement pid p len).address = p.firstElementAddress ∨
      (p.hasFirstElement = true ∧ (placement pid p len).address = latestStop pid p ∧
        latestStop pid p + getElementHeaderLen pid + len ≤
          p.firstElementAddress + p.metadata.partitionSize) := by
  cases hf : p.hasFirstElement with
  | false =>
    rw [placement_empty hf]
    exact .inl rfl
  | true =>
    by_cases hfit : latestStop pid p + getElementHeaderLen pid + len ≤
        p.firstElementAddress + p.metadata.partitionSize
    · rw [placement_next hf hfit]
      exact .inr ⟨rfl, rfl, hfit⟩
    · rw [placement_wrap hf hfit]
      exact .inl rfl

theorem latestStop_ge {p : Partition} (h : Ram D pid p) :
    p.firstElementAddress + metadataSize + getElementHeaderLen pid ≤ latestStop pid p := by
  unfold latestStop stopOf headerLenAt
  rcases h.latest with hl | hl
  · rw [if_pos hl]
    omega
  · split <;> omega

theorem placement_address {p : Partition} (h : Ram D pid p) (len : Nat) :
    (placement pid p len).address = p.firstElementAddress ∨
      p.firstElementAddress + metadataSize + getElementHeaderLen pid ≤
        (placement pid p len).address := by
  rcases placement_cases pid p len with hstart | ⟨-, haddr, -⟩
  · exact .inl hstart
  · rw [haddr]
    exact .inr (latestStop_ge h)

theorem placement_recordId {p : Partition} (h : Ram D pid p) (len : Nat) :
    IsRecordId (placement pid p len).recordId := by
  unfold placement
  split
  · rename_i hf
    exact h.recordId hf
  · exact isRecordId_increment _

theorem placement_xor_lt {p : Partition} (h : Ram D pid p) {len : Nat} (hlen : len < 2 ^ 16) :
    (placement pid p len).previousLenXorCurLen < 2 ^ 16 := by
  unfold placement
  split
  · exact Nat.two_pow_pos 16
  · exact Nat.xor_lt_two_pow h.latestLen_lt hlen

/-- The header of the new element. -/
def newHeader (pl : Placement) (data : List UInt8) : ElementHeader :=
  ⟨pl.recordId, pl.previousLenXorCurLen, (crc16Compute data).toNat⟩

theorem newHeader_fits {p : Partition} (h : Ram D pid p) {len : Nat} (hlen : len < 2 ^ 16)
    (data : List UInt8) : (newHeader (placement pid p len) data).Fits := by
  have hid := placement_recordId h len
  refine ⟨?_, placement_xor_lt h hlen, (crc16Compute data).toNat_lt⟩
  exact Nat.lt_of_le_of_lt hid.2 (by decide)

/-! ## The two halves -/

/-- The lookups in front of the first write to the new place. -/
def storeLookups (pid : Nat) (pl : Placement) (len : Nat) : Fs D Unit := do
  Proc.orFail (checkIteratorConflict pid pl.address len) .internal
  clearStaleNext pid pl len

/-- The writes, and the library's variables afterwards. -/
def storeWrites (pid start : Nat) (pl : Placement) (len : Nat) (data : List UInt8) :
    Fs D Unit := do
  Proc.when (pl.address = start)
    (modifyPartition pid fun q =>
      { q with
        metadata := newMetadata pid q len (newHeader pl data)
        firstElementHeader := newHeader pl data })
  backupIfFirstUnit pid pl.address len
  writeElement pid pl.address (newHeader pl data) data
  modifyPartition pid fun q =>
    { q with
      latestElementAddress := pl.address
      latestElementRecordId := pl.recordId
      latestElementLen := len
      hasFirstElement := true }

/-- Length and contents of the element that a call stores. -/
def storedData (pid : Nat) (p : Partition) (elementData : Nat → UInt8) (elementLen : Nat) :
    List UInt8 := slice elementData 0 (storedLen pid p elementLen)

/-- Where a call stores its element. -/
def storedAt (pid : Nat) (p : Partition) (elementLen : Nat) : Placement :=
  placement pid p (storedLen pid p elementLen)

theorem storeElement_eq (elementData : Nat → UInt8) (elementLen : Nat) :
    storeElement pid elementData elementLen s =
      if isDynamic pid = false ∧ elementLen ≠ 0 ∧
          elementLen ≠ (s.part pid).metadata.firstElementLen then (.error .invalidParam, s)
      else if Accepted pid (s.part pid) elementLen then
        (storeLookups pid (storedAt pid (s.part pid) elementLen)
            (storedLen pid (s.part pid) elementLen) >>= fun _ =>
          storeWrites pid (s.part pid).firstElementAddress (storedAt pid (s.part pid) elementLen)
            (storedLen pid (s.part pid) elementLen)
            (storedData pid (s.part pid) elementData elementLen)) s
      else (.error .noMem, s) := by
  unfold storeElement
  rw [getPartition_bind]
  by_cases hparam : isDynamic pid = false ∧ elementLen ≠ 0 ∧
      elementLen ≠ (s.part pid).metadata.firstElementLen
  · rw [Proc.failIf_bind_pos hparam, if_pos hparam]
  · rw [Proc.failIf_bind_neg hparam, if_neg hparam]
    by_cases hfit : Accepted pid (s.part pid) elementLen
    · rw [if_pos hfit]
      have hfit' := hfit.2
      unfold stopOf storedLen at hfit'
      rw [Proc.failIf_bind_neg (Nat.not_lt.mpr hfit')]
      unfold storeLookups
      rw [Proc.bind_assoc]
      rfl
    · rw [if_neg hfit]
      have hfit' : ¬ stopOf pid (s.part pid)
          (placement pid (s.part pid) (storedLen pid (s.part pid) elementLen)).address
          (storedLen pid (s.part pid) elementLen) ≤
          (s.part pid).firstElementAddress + (s.part pid).metadata.partitionSize :=
        fun h => hfit ⟨hparam, h⟩
      unfold stopOf storedLen at hfit'
      rw [Proc.failIf_bind_pos (Nat.not_le.mp hfit')]

/-! ## The lookups -/

/-- The state with the partition's iterator invalidated. -/
def State.lost (s : State D) (pid : Nat) : State D :=
  s.setIter pid { s.iter pid with iteratorValid := 0 }

/-- `t` is `s`, at most without the iterator of the partition. -/
def SameButIter (pid : Nat) (s t : State D) : Prop := t = s ∨ t = s.lost pid

theorem SameButIter.part {pid : Nat} (h : SameButIter pid s t) : t.part = s.part := by
  rcases h with rfl | rfl <;> rfl

theorem SameButIter.dev {pid : Nat} (h : SameButIter pid s t) : t.dev = s.dev := by
  rcases h with rfl | rfl <;> rfl

theorem SameButIter.sync {pid : Nat} (h : SameButIter pid s t) (hs : Sync s pid) :
    Sync t pid := by
  rcases h with rfl | rfl
  · exact hs
  · exact ⟨hs.start_fits, hs.swap_fits, hs.known⟩

theorem iteratorInvalidate_keeps : Proc.Keeps (SameButIter pid s) (iteratorInvalidate pid) := by
  rintro t (rfl | rfl)
  · exact .inr rfl
  · right
    unfold iteratorInvalidate modifyIterator State.lost
    rw [Proc.modify_apply, setIter_iter]
    unfold State.setIter
    rw [Function.update_idem]

theorem iteratorLost_keeps {α : Type} :
    Proc.Keeps (SameButIter pid s) (iteratorLost pid : Fs D α) :=
  iteratorInvalidate_keeps.bind fun _ => Proc.Keeps.fail _ _

theorem readElementHeader_sameButIter (hs : Sync s pid) (a : Nat) :
    Proc.Keeps (SameButIter pid s) (readElementHeader pid a) := by
  intro t ht
  rw [readElementHeader_keeps (ht.sync hs)]
  exact ht

theorem iteratorCheckValidity_sameButIter (hs : Sync s pid) :
    Proc.Keeps (SameButIter pid s) (iteratorCheckValidity pid) := by
  refine Proc.Keeps.bind (fun _ ht => ht) fun it => ?_
  refine (Proc.Keeps.failIf _ _ _).bind fun _ => ?_
  refine Proc.Keeps.bind (fun _ ht => ht) fun p => ?_
  refine (Proc.Keeps.when fun _ => iteratorLost_keeps).bind fun _ => ?_
  refine (readElementHeader_sameButIter hs _).attempt.bind fun found => ?_
  split
  · exact iteratorLost_keeps
  · exact Proc.Keeps.fail _ _
  · exact Proc.Keeps.when fun _ => iteratorLost_keeps

/-- Looking for a conflict changes at most the iterator. -/
theorem checkIteratorConflict_sameButIter (hs : Sync s pid) (a len : Nat) :
    SameButIter pid s (checkIteratorConflict pid a len s).2 := by
  have hkeeps : Proc.Keeps (SameButIter pid s) (checkIteratorConflict pid a len) := by
    refine (iteratorCheckValidity_sameButIter hs).attempt.bind fun valid => ?_
    split
    · exact Proc.Keeps.pure _ _
    · exact Proc.Keeps.fail _ _
    · refine Proc.Keeps.bind (fun _ ht => ht) fun p => ?_
      refine Proc.Keeps.bind (fun _ ht => ht) fun it => ?_
      exact ((unitLimits_keeps _ _ _).orFail _).bind fun _ => Proc.Keeps.failIf _ _ _
  exact hkeeps s (.inl rfl)

/-- In an empty partition, looking for a conflict invalidates the iterator. -/
theorem checkIteratorConflict_empty (hf : (s.part pid).hasFirstElement = false) (a len : Nat) :
    (((checkIteratorConflict pid a len s).2).iter pid).iteratorValid ≠ iteratorValidNumber := by
  have hcheck : ∃ t, iteratorCheckValidity pid s = (.error .invalidState, t) ∧
      (t.iter pid).iteratorValid ≠ iteratorValidNumber := by
    unfold iteratorCheckValidity
    rw [getIterator_bind]
    by_cases hvalid : (s.iter pid).iteratorValid ≠ iteratorValidNumber
    · rw [Proc.failIf_bind_pos hvalid]
      exact ⟨s, rfl, hvalid⟩
    · rw [Proc.failIf_bind_neg hvalid, getPartition_bind, Proc.when_pos hf]
      refine ⟨s.lost pid, rfl, ?_⟩
      unfold State.lost
      rw [setIter_iter]
      exact fun hc => absurd hc (by decide : (0 : Nat) ≠ iteratorValidNumber)
  obtain ⟨t, ht, hlost⟩ := hcheck
  unfold checkIteratorConflict
  rw [Proc.attempt_bind_apply, ht]
  exact hlost

/-- Without a valid iterator there is no conflict. -/
theorem checkIteratorConflict_invalid (h : (s.iter pid).iteratorValid ≠ iteratorValidNumber)
    (a len : Nat) : checkIteratorConflict pid a len s = (.ok (), s) := by
  have hcheck : iteratorCheckValidity pid s = (.error .invalidState, s) := by
    unfold iteratorCheckValidity
    rw [getIterator_bind, Proc.failIf_bind_pos h]
  unfold checkIteratorConflict
  rw [Proc.attempt_bind_apply, hcheck]
  rfl

theorem clearStaleNext_sync (hs : Sync s pid) {pl : Placement} {len : Nat}
    (ha : (s.part pid).firstElementAddress ≤ pl.address)
    (hstop : stopOf pid (s.part pid) pl.address len + getElementHeaderLen pid < 2 ^ 32) :
    clearStaleNext pid pl len s =
      if stopOf pid (s.part pid) pl.address len + getElementHeaderLen pid ≤ D.size then
        if Follows s.bytes pid (s.part pid) pl.address pl.recordId len then
          Proc.orFail (storageClear (stopOf pid (s.part pid) pl.address len)
            (getElementHeaderLen pid)) .internal s
        else (.ok (), s)
      else (.error .internal, s) := by
  have hlt := lt_stopOf pid (s.part pid) pl.address len
  unfold clearStaleNext
  rw [Proc.attempt_bind_apply, getNextElementHeader_sync hs ha hstop]
  unfold nextAt
  by_cases hin : stopOf pid (s.part pid) pl.address len + getElementHeaderLen pid ≤ D.size
  · rw [if_pos hin, if_pos hin]
    by_cases hf : Follows s.bytes pid (s.part pid) pl.address pl.recordId len
    · rw [if_pos hf, if_pos hf]
      dsimp only
      rw [Proc.when_pos (by omega)]
    · rw [if_neg hf, if_neg hf]
      rcases firstAsNext_cases s.bytes pid (s.part pid) pl.recordId with hn | ⟨h, hn⟩
      · rw [hn]
        rfl
      · rw [hn]
        dsimp only
        rw [Proc.when_neg (by omega)]
        rfl
  · rw [if_neg hin, if_neg hin]
    rfl

/-- The stale header behind the new element is cleared, if there is one. -/
def Wiped (D : Device) (pid : Nat) (p : Partition) (pl : Placement) (len : Nat)
    (u v : D.State) : Prop :=
  (Follows (D.byte u) pid p pl.address pl.recordId len ∧
    Cleared D (stopOf pid p pl.address len) (getElementHeaderLen pid) u v) ∨
  (¬ Follows (D.byte u) pid p pl.address pl.recordId len ∧ v = u)

theorem clearStaleNext_eq_ok (hs : Sync s pid) {pl : Placement} {len : Nat}
    (ha : (s.part pid).firstElementAddress ≤ pl.address)
    (hstop : stopOf pid (s.part pid) pl.address len + getElementHeaderLen pid < 2 ^ 32) :
    clearStaleNext pid pl len s = (.ok (), t) ↔
      stopOf pid (s.part pid) pl.address len + getElementHeaderLen pid ≤ D.size ∧
        ∃ v, Wiped D pid (s.part pid) pl len s.dev v ∧ t = s.setDev v := by
  rw [clearStaleNext_sync hs ha hstop]
  by_cases hin : stopOf pid (s.part pid) pl.address len + getElementHeaderLen pid ≤ D.size
  · rw [if_pos hin]
    by_cases hf : Follows s.bytes pid (s.part pid) pl.address pl.recordId len
    · rw [if_pos hf, Proc.orFail_eq_ok, storageClear_eq_ok hstop]
      constructor
      · rintro ⟨v, hv, rfl⟩
        exact ⟨hin, v, .inl ⟨hf, hv⟩, rfl⟩
      · rintro ⟨-, v, ⟨-, hv⟩ | ⟨hnf, -⟩, rfl⟩
        · exact ⟨v, hv, rfl⟩
        · exact absurd hf hnf
    · rw [if_neg hf]
      constructor
      · intro h
        cases h
        exact ⟨hin, s.dev, .inr ⟨hf, rfl⟩, rfl⟩
      · rintro ⟨-, v, ⟨hf', -⟩ | ⟨-, rfl⟩, rfl⟩
        · exact absurd hf' hf
        · rfl
  · rw [if_neg hin]
    constructor
    · intro h
      cases h
    · exact fun h => absurd h.1 hin

/-! ## The writes -/

/-- The partition when the writes begin: a new first element brings new metadata. -/
def Partition.renewed (pid : Nat) (p : Partition) (pl : Placement) (len : Nat)
    (data : List UInt8) : Partition :=
  if pl.address = p.firstElementAddress then
    { p with
      metadata := newMetadata pid p len (newHeader pl data)
      firstElementHeader := newHeader pl data }
  else p

/-- The partition after the store. -/
def Partition.appended (pid : Nat) (p : Partition) (pl : Placement) (len : Nat)
    (data : List UInt8) : Partition :=
  { p.renewed pid pl len data with
    latestElementAddress := pl.address
    latestElementRecordId := pl.recordId
    latestElementLen := len
    hasFirstElement := true }

/-- The bytes of metadata and first header in the library's variables. -/
def Partition.firstBytes (pid : Nat) (p : Partition) : List UInt8 :=
  serializeMetadata p.metadata ++ serializeElementHeader pid p.firstElementHeader

/-- The header as it is written in front of the data. -/
def headerBytes (pid : Nat) (p : Partition) (pl : Placement) (len : Nat) (data : List UInt8) :
    List UInt8 :=
  if pl.address = p.firstElementAddress then
    serializeMetadata (newMetadata pid p len (newHeader pl data)) ++
      serializeElementHeader pid (newHeader pl data)
  else serializeElementHeader pid (newHeader pl data)

/-- The writes of a successful store, from device `u` to device `v`. -/
structure Appended (D : Device) (pid : Nat) (p : Partition) (pl : Placement) (len : Nat)
    (data : List UInt8) (u v : D.State) : Prop where
  chain : ∃ b h,
    ((unitStart D.modules pl.address = p.firstElementAddress ∧
        BackedUp D (getSwapPageAddressOfPartition pid)
          ((p.renewed pid pl len data).firstBytes pid) u b) ∨
      (unitStart D.modules pl.address ≠ p.firstElementAddress ∧ b = u)) ∧
    Wrote D pl.address (headerBytes pid p pl len data) b h ∧
    Wrote D (pl.address + headerLenAt pid p pl.address) data h v

@[simp] theorem firstBytes_length (pid : Nat) (p : Partition) :
    (p.firstBytes pid).length = metadataSize + getElementHeaderLen pid := by
  simp [Partition.firstBytes]

theorem backupIfFirstUnit_eq_ok {a len : Nat}
    (hswap : getSwapPageAddressOfPartition pid + metadataSize + getElementHeaderLen pid ≤
      swapPageSize) (hsize : swapPageSize ≤ D.size)
    (ha : a + (getElementHeaderLen pid + len) ≤ D.size) :
    backupIfFirstUnit pid a len s = (.ok (), t) ↔
      ∃ v, ((unitStart D.modules a = (s.part pid).firstElementAddress ∧
          BackedUp D (getSwapPageAddressOfPartition pid) ((s.part pid).firstBytes pid) s.dev v) ∨
        (unitStart D.modules a ≠ (s.part pid).firstElementAddress ∧ v = s.dev)) ∧
        t = s.setDev v := by
  have hH := elementHeaderLen_bounds pid
  have hlen := firstBytes_length pid (s.part pid)
  unfold backupIfFirstUnit
  rw [Proc.bind_ok (Proc.orFail_ok (unitLimits_ok (by omega) ha) _)]
  dsimp only
  rw [getPartition_bind]
  by_cases hfirst : unitStart D.modules a = (s.part pid).firstElementAddress
  · rw [Proc.when_pos hfirst, Proc.orFail_eq_ok]
    have hb := backupFirstElementHeader_eq_ok (s := s) (t := t)
      (a := getSwapPageAddressOfPartition pid) ((s.part pid).firstBytes pid)
      (by omega) (by omega) (by omega)
    unfold Partition.firstBytes at hb ⊢
    rw [hb]
    constructor
    · rintro ⟨v, hv, rfl⟩
      exact ⟨v, .inl ⟨hfirst, hv⟩, rfl⟩
    · rintro ⟨v, ⟨-, hv⟩ | ⟨hne, -⟩, rfl⟩
      · exact ⟨v, hv, rfl⟩
      · exact absurd hfirst hne
  · rw [Proc.when_neg hfirst]
    constructor
    · intro h
      cases h
      exact ⟨s.dev, .inr ⟨hfirst, rfl⟩, rfl⟩
    · rintro ⟨v, ⟨heq, -⟩ | ⟨-, rfl⟩, rfl⟩
      · exact absurd heq hfirst
      · rfl

theorem writeElement_eq_ok {a : Nat} {h : ElementHeader} {data tmp : List UInt8}
    (htmp : tmp = if a = (s.part pid).firstElementAddress then
      serializeMetadata (s.part pid).metadata ++ serializeElementHeader pid h
      else serializeElementHeader pid h)
    (ha : a + headerLenAt pid (s.part pid) a + data.length < 2 ^ 32) :
    writeElement pid a h data s = (.ok (), t) ↔
      ∃ x v, Wrote D a tmp s.dev x ∧
        Wrote D (a + headerLenAt pid (s.part pid) a) data x v ∧ t = s.setDev v := by
  have hlen : tmp.length = headerLenAt pid (s.part pid) a := by
    subst htmp
    unfold headerLenAt
    split <;> simp
  unfold writeElement
  rw [getPartition_bind, ← htmp]
  simp only [Proc.bind_eq_ok, Proc.orFail_eq_ok, storageStore_eq_ok ha,
    storageStore_eq_ok (show a + tmp.length < 2 ^ 32 by omega)]
  constructor
  · rintro ⟨_, _, ⟨x, hx, rfl⟩, _, _, hread, _, _, hcheck, v, hv, rfl⟩
    rw [storageRead_ok (by rw [← hlen]; exact hx.fits)] at hread
    cases hread
    rw [Proc.failIf_eq_ok] at hcheck
    obtain ⟨-, rfl⟩ := hcheck
    exact ⟨x, v, hx, hv, rfl⟩
  · rintro ⟨x, v, hx, hv, rfl⟩
    have hread := storageRead_ok (s := s.setDev x) hx.fits
    rw [setDev_bytes, hx.changed.written, hlen] at hread
    exact ⟨(), s.setDev x, ⟨x, hx, rfl⟩, tmp, s.setDev x, hread, (), s.setDev x,
      Proc.failIf_neg (not_not_intro rfl) _ _, v, hv, rfl⟩

@[simp] theorem renewed_first (pid : Nat) (p : Partition) (pl : Placement) (len : Nat)
    (data : List UInt8) :
    (p.renewed pid pl len data).firstElementAddress = p.firstElementAddress := by
  unfold Partition.renewed
  split <;> rfl

theorem headerLenAt_congr (pid : Nat) {p q : Partition} (h : q.firstElementAddress = p.firstElementAddress)
    (a : Nat) : headerLenAt pid q a = headerLenAt pid p a := by
  unfold headerLenAt
  rw [h]

theorem headerBytes_eq (pid : Nat) (p : Partition) (pl : Placement) (len : Nat)
    (data : List UInt8) :
    headerBytes pid p pl len data =
      if pl.address = (p.renewed pid pl len data).firstElementAddress then
        serializeMetadata (p.renewed pid pl len data).metadata ++
          serializeElementHeader pid (newHeader pl data)
      else serializeElementHeader pid (newHeader pl data) := by
  rw [renewed_first]
  unfold headerBytes Partition.renewed
  split <;> rfl

theorem headerBytes_length (pid : Nat) (p : Partition) (pl : Placement) (len : Nat)
    (data : List UInt8) : (headerBytes pid p pl len data).length = headerLenAt pid p pl.address := by
  unfold headerBytes headerLenAt
  split <;> simp

theorem renew_apply (pl : Placement) (len : Nat) (data : List UInt8) :
    Proc.when (pl.address = (s.part pid).firstElementAddress)
      (modifyPartition pid fun q =>
        { q with
          metadata := newMetadata pid q len (newHeader pl data)
          firstElementHeader := newHeader pl data }) s =
      (.ok (), s.setPart pid ((s.part pid).renewed pid pl len data)) := by
  unfold Partition.renewed
  by_cases h : pl.address = (s.part pid).firstElementAddress
  · rw [Proc.when_pos h, if_pos h]
    rfl
  · rw [Proc.when_neg h, if_neg h, setPart_self]
    rfl

theorem stopOf_ge (pid : Nat) (p : Partition) (a len : Nat) :
    a + (getElementHeaderLen pid + len) ≤ stopOf pid p a len := by
  unfold stopOf headerLenAt
  split <;> omega

theorem storeWrites_eq_ok (hr : Ram D pid (s.part pid)) {pl : Placement} {len : Nat}
    {data : List UInt8} (hlen : data.length = len)
    (hstop : stopOf pid (s.part pid) pl.address len ≤
      (s.part pid).firstElementAddress + (s.part pid).metadata.partitionSize) :
    storeWrites pid (s.part pid).firstElementAddress pl len data s = (.ok (), t) ↔
      ∃ v, Appended D pid (s.part pid) pl len data s.dev v ∧
        t = (s.setPart pid ((s.part pid).appended pid pl len data)).setDev v := by
  have hD := size_lt D
  have hpos := stopOf_ge pid (s.part pid) pl.address len
  have hle := hr.stop_le
  have hstart := hr.start_ge
  have hfirst := renewed_first pid (s.part pid) pl len data
  have hhl := headerLenAt_congr pid hfirst pl.address
  have hpart := setPart_part s pid ((s.part pid).renewed pid pl len data)
  have htmp := fun b => headerBytes_eq pid (s.part pid) pl len data |>.trans <| by
    rw [← hpart, ← setDev_part _ b]
  unfold storeWrites
  rw [Proc.bind_ok (renew_apply pl len data)]
  simp only [Proc.bind_eq_ok]
  constructor
  · rintro ⟨_, _, hbackup, _, _, hwrite, hdone⟩
    rw [backupIfFirstUnit_eq_ok hr.swap_le (by omega) (by omega), hpart, hfirst] at hbackup
    obtain ⟨b, hb, rfl⟩ := hbackup
    rw [writeElement_eq_ok (htmp b)
      (by rw [setDev_part, hpart, hhl, hlen]; unfold stopOf at hstop; omega),
      setDev_part, hpart, hhl] at hwrite
    obtain ⟨x, v, hx, hv, rfl⟩ := hwrite
    refine ⟨v, ⟨b, x, hb, hx, hv⟩, ?_⟩
    unfold modifyPartition at hdone
    rw [Proc.modify_apply, setDev_part, setDev_part, hpart] at hdone
    cases hdone
    unfold State.setPart State.setDev
    simp only [Function.update_idem]
    rfl
  · rintro ⟨v, ⟨b, x, hb, hx, hv⟩, rfl⟩
    refine ⟨(), (s.setPart pid ((s.part pid).renewed pid pl len data)).setDev b, ?_, (),
      (s.setPart pid ((s.part pid).renewed pid pl len data)).setDev v, ?_, ?_⟩
    · rw [backupIfFirstUnit_eq_ok hr.swap_le (by omega) (by omega), hpart, hfirst]
      exact ⟨b, hb, rfl⟩
    · rw [writeElement_eq_ok (htmp b)
        (by rw [setDev_part, hpart, hhl, hlen]; unfold stopOf at hstop; omega),
        setDev_part, hpart, hhl]
      exact ⟨x, v, hx, hv, rfl⟩
    · unfold modifyPartition
      rw [Proc.modify_apply, setDev_part, hpart]
      unfold State.setPart State.setDev
      simp only [Function.update_idem]
      rfl

/-! ## The whole store -/

/-- The devices of a successful store, with `w` between the lookups and the writes. -/
structure StoreRun (D : Device) (pid : Nat) (p : Partition) (pl : Placement) (len : Nat)
    (data : List UInt8) (u w v : D.State) : Prop where
  probe_fits : stopOf pid p pl.address len + getElementHeaderLen pid ≤ D.size
  wiped : Wiped D pid p pl len u w
  appended : Appended D pid p pl len data w v

theorem storedAt_ge {p : Partition} (hr : Ram D pid p) (elementLen : Nat) :
    p.firstElementAddress ≤ (storedAt pid p elementLen).address := by
  rcases placement_address hr (storedLen pid p elementLen) with h | h
  · exact Nat.le_of_eq h.symm
  · exact Nat.le_trans (by omega) h

theorem storeElement_eq_ok (hr : Ram D pid (s.part pid)) (hs : Sync s pid)
    {elementData : Nat → UInt8} {elementLen : Nat}
    (h : storeElement pid elementData elementLen s = (.ok (), t)) :
    Accepted pid (s.part pid) elementLen ∧
      (checkIteratorConflict pid (storedAt pid (s.part pid) elementLen).address
        (storedLen pid (s.part pid) elementLen) s).1 = .ok () ∧
      ∃ s₁ w v, s₁ = (checkIteratorConflict pid (storedAt pid (s.part pid) elementLen).address
          (storedLen pid (s.part pid) elementLen) s).2 ∧ SameButIter pid s s₁ ∧
        StoreRun D pid (s.part pid) (storedAt pid (s.part pid) elementLen)
          (storedLen pid (s.part pid) elementLen)
          (storedData pid (s.part pid) elementData elementLen) s.dev w v ∧
        t = (s₁.setPart pid
          ((s.part pid).appended pid (storedAt pid (s.part pid) elementLen)
            (storedLen pid (s.part pid) elementLen)
            (storedData pid (s.part pid) elementData elementLen))).setDev v := by
  have hD := size_lt D
  have hH := elementHeaderLen_bounds pid
  have hle := hr.stop_le
  rw [storeElement_eq] at h
  by_cases hparam : isDynamic pid = false ∧ elementLen ≠ 0 ∧
      elementLen ≠ (s.part pid).metadata.firstElementLen
  · rw [if_pos hparam] at h
    cases h
  · by_cases hacc : Accepted pid (s.part pid) elementLen
    · rw [if_neg hparam, if_pos hacc] at h
      obtain ⟨_, s₂, hlook, hwrites⟩ := Proc.bind_eq_ok.mp h
      obtain ⟨_, s₁, hconflict, hstale⟩ := Proc.bind_eq_ok.mp hlook
      have hiter := checkIteratorConflict_sameButIter hs
        (storedAt pid (s.part pid) elementLen).address (storedLen pid (s.part pid) elementLen)
      rw [Proc.orFail_eq_ok] at hconflict
      rw [hconflict] at hiter
      change SameButIter pid s s₁ at hiter
      have hs₁ := hiter.sync hs
      have hpart := congrFun hiter.part pid
      have hfit := hacc.2
      change stopOf pid (s.part pid) (storedAt pid (s.part pid) elementLen).address _ ≤ _ at hfit
      have hstale' := (clearStaleNext_eq_ok hs₁ (by rw [hpart]; exact storedAt_ge hr elementLen)
        (by rw [hpart]; omega)).mp hstale
      rw [hpart, hiter.dev] at hstale'
      obtain ⟨hprobe, w, hw, rfl⟩ := hstale'
      rw [← hpart] at hwrites
      have hwrites' := (storeWrites_eq_ok (s := s₁.setDev w) (by rw [setDev_part, hpart]; exact hr)
        (slice_length _ _ _) (by rw [setDev_part, hpart]; exact hfit)).mp hwrites
      rw [setDev_part, hpart] at hwrites'
      obtain ⟨v, hv, rfl⟩ := hwrites'
      exact ⟨hacc, congrArg Prod.fst hconflict, s₁, w, v, (congrArg Prod.snd hconflict).symm, hiter, ⟨hprobe, hw, hv⟩, rfl⟩
    · rw [if_neg hparam, if_neg hacc] at h
      cases h

theorem appended_of_reliable (hD : D.Reliable) {p : Partition} (hr : Ram D pid p)
    {pl : Placement} {len : Nat} {d : List UInt8} (hlen : d.length = len)
    (hstop : stopOf pid p pl.address len ≤ p.firstElementAddress + p.metadata.partitionSize)
    (u : D.State) : ∃ v, Appended D pid p pl len d u v := by
  have hswap := hr.swap_le
  have hstart := hr.start_ge
  have hle := hr.stop_le
  have hhl := headerBytes_length pid p pl len d
  have hfl := firstBytes_length pid (p.renewed pid pl len d)
  have hH := elementHeaderLen_bounds pid
  unfold stopOf at hstop
  obtain ⟨b, hb⟩ := backedUp_of_reliable hD (a := getSwapPageAddressOfPartition pid)
    ((p.renewed pid pl len d).firstBytes pid) (by omega) (by omega) u
  obtain ⟨b, hb⟩ : ∃ b, (unitStart D.modules pl.address = p.firstElementAddress ∧
        BackedUp D (getSwapPageAddressOfPartition pid)
          ((p.renewed pid pl len d).firstBytes pid) u b) ∨
      (unitStart D.modules pl.address ≠ p.firstElementAddress ∧ b = u) := by
    by_cases hfirst : unitStart D.modules pl.address = p.firstElementAddress
    · exact ⟨b, .inl ⟨hfirst, hb⟩⟩
    · exact ⟨u, .inr ⟨hfirst, rfl⟩⟩
  obtain ⟨x, hx⟩ := wrote_of_reliable hD (a := pl.address) (d := headerBytes pid p pl len d) b
    (by omega)
  obtain ⟨v, hv⟩ := wrote_of_reliable hD (a := pl.address + headerLenAt pid p pl.address)
    (d := d) x (by omega)
  exact ⟨v, b, x, hb, hx, hv⟩

/-- On a reliable device an accepted element is stored, provided that the header behind
it can be read. -/
theorem storeElement_ok_of_reliable (hD : D.Reliable) (hr : Ram D pid (s.part pid))
    (hs : Sync s pid) (hiter : (s.iter pid).iteratorValid ≠ iteratorValidNumber)
    {elementLen : Nat} (hacc : Accepted pid (s.part pid) elementLen)
    (hprobe : stopOf pid (s.part pid) (storedAt pid (s.part pid) elementLen).address
      (storedLen pid (s.part pid) elementLen) + getElementHeaderLen pid ≤ D.size)
    (elementData : Nat → UInt8) :
    ∃ t, storeElement pid elementData elementLen s = (.ok (), t) := by
  have hsize := size_lt D
  obtain ⟨w, hw⟩ : ∃ w, Wiped D pid (s.part pid) (storedAt pid (s.part pid) elementLen)
      (storedLen pid (s.part pid) elementLen) s.dev w := by
    by_cases hf : Follows s.bytes pid (s.part pid) (storedAt pid (s.part pid) elementLen).address
        (storedAt pid (s.part pid) elementLen).recordId (storedLen pid (s.part pid) elementLen)
    · obtain ⟨w, hw⟩ := cleared_of_reliable hD s.dev hprobe
      exact ⟨w, .inl ⟨hf, hw⟩⟩
    · exact ⟨s.dev, .inr ⟨hf, rfl⟩⟩
  obtain ⟨v, hv⟩ := appended_of_reliable hD hr
    (d := storedData pid (s.part pid) elementData elementLen) (slice_length _ _ _) hacc.2 w
  have hstale := (clearStaleNext_eq_ok hs (storedAt_ge hr elementLen) (by omega)).mpr
    ⟨hprobe, w, hw, rfl⟩
  have hwrites := (storeWrites_eq_ok (s := s.setDev w) hr (slice_length _ _ _) hacc.2).mpr
    ⟨v, hv, rfl⟩
  rw [storeElement_eq, if_neg hacc.1, if_pos hacc]
  have hlook : storeLookups pid (storedAt pid (s.part pid) elementLen)
      (storedLen pid (s.part pid) elementLen) s = (.ok (), s.setDev w) :=
    (Proc.bind_ok (Proc.orFail_ok (checkIteratorConflict_invalid hiter _ _) _) _).trans hstale
  exact ⟨_, (Proc.bind_ok hlook _).trans hwrites⟩

/-- If the header behind the new element cannot be read, the element is refused. -/
theorem storeElement_probe (hr : Ram D pid (s.part pid)) (hs : Sync s pid)
    (hiter : (s.iter pid).iteratorValid ≠ iteratorValidNumber) {elementLen : Nat}
    (hacc : Accepted pid (s.part pid) elementLen)
    (hprobe : D.size < stopOf pid (s.part pid) (storedAt pid (s.part pid) elementLen).address
      (storedLen pid (s.part pid) elementLen) + getElementHeaderLen pid)
    (elementData : Nat → UInt8) :
    storeElement pid elementData elementLen s = (.error .internal, s) := by
  have hsize := size_lt D
  have hle := hr.stop_le
  have hH := elementHeaderLen_bounds pid
  have hfit := hacc.2
  change stopOf pid (s.part pid) (storedAt pid (s.part pid) elementLen).address _ ≤ _ at hfit
  have hbound : stopOf pid (s.part pid) (storedAt pid (s.part pid) elementLen).address
      (storedLen pid (s.part pid) elementLen) + getElementHeaderLen pid < 2 ^ 32 := by omega
  have hstale := clearStaleNext_sync hs (storedAt_ge hr elementLen) hbound
  rw [if_neg (Nat.not_le.mpr hprobe)] at hstale
  have hlook : storeLookups pid (storedAt pid (s.part pid) elementLen)
      (storedLen pid (s.part pid) elementLen) s = (.error .internal, s) :=
    (Proc.bind_ok (Proc.orFail_ok (checkIteratorConflict_invalid hiter _ _) _) _).trans hstale
  rw [storeElement_eq, if_neg hacc.1, if_pos hacc, Proc.bind_error hlook]

/-- A refused element leaves the state as it is. -/
theorem storeElement_refused {elementLen : Nat} (h : ¬ Accepted pid (s.part pid) elementLen)
    (elementData : Nat → UInt8) :
    (storeElement pid elementData elementLen s).1 ≠ .ok () ∧
      (storeElement pid elementData elementLen s).2 = s := by
  rw [storeElement_eq, if_neg h]
  split
  · exact ⟨by simp, rfl⟩
  · exact ⟨by simp, rfl⟩

end OpenBadge.Filesystem
