import OpenBadge.Filesystem.Headers

/-!
# Reading headers

As long as the library's copy of the metadata agrees with the storage, looking up
element-headers changes nothing. `headerAt`, `nextAt` and `previousAt` are what the
lookups return, as functions of the bytes in storage.
-/

namespace OpenBadge.Filesystem

open OpenBadge.Lib OpenBadge.Storage

variable {D : Device} {s : State D} {pid : Nat}

theorem size_lt (D : Device) : D.size + 2 ^ 18 ≤ 2 ^ 32 := D.size_le

/-! ## Storage calls -/

theorem storageRead_ok {a n : Nat} (h : a + n ≤ D.size) :
    storageRead a n s = (.ok (slice s.bytes a n), s) := by
  have hD := size_lt D
  unfold storageRead
  rw [Proc.get_bind_apply, Proc.failIf_bind_neg (by rw [Nat.mod_eq_of_lt (by omega)]; omega)]
  rfl

theorem storageRead_error {a n : Nat} (h : D.size < a + n) (h' : a + n < 2 ^ 32) :
    storageRead a n s = (.error .invalidParam, s) := by
  unfold storageRead
  rw [Proc.get_bind_apply, Proc.failIf_bind_pos (by rw [Nat.mod_eq_of_lt h']; omega)]

theorem storageRead_keeps (I : State D → Prop) (a n : Nat) : Proc.Keeps I (storageRead a n) := by
  intro s hs
  unfold storageRead
  rw [Proc.get_bind_apply]
  exact (Proc.Keeps.failIf I _ _).bind (fun _ => Proc.Keeps.pure I _) s hs

theorem storageRead_length {a n : Nat} {t : State D} {d : List UInt8}
    (h : storageRead a n s = (.ok d, t)) : d.length = n := by
  obtain ⟨_, _, _, h⟩ := Proc.bind_eq_ok.mp h
  obtain ⟨_, _, _, h⟩ := Proc.bind_eq_ok.mp h
  cases h
  exact slice_length _ _ _

theorem unitLimits_keeps (I : State D → Prop) (a n : Nat) :
    Proc.Keeps I (storageGetUnitAddressLimits a n) :=
  (Proc.Keeps.failIf I _ _).bind fun _ => (Proc.Keeps.failIf I _ _).bind fun _ =>
    Proc.Keeps.pure I _

theorem unitLimits_ok {a n : Nat} (hn : 0 < n) (h : a + n ≤ D.size) :
    storageGetUnitAddressLimits a n s =
      (.ok (unitStart D.modules a, unitStop D.modules (a + n - 1) - 1), s) := by
  have hD := size_lt D
  have htotal : D.size = totalSize D.modules := rfl
  unfold storageGetUnitAddressLimits
  rw [Proc.failIf_bind_neg (by rw [Nat.mod_eq_of_lt (by omega)]; omega),
    Proc.failIf_bind_neg (by omega),
    unitLimitsLoop_eq D.modules 0 a (a + n - 1) 0 (Nat.zero_le _) (by omega) (by omega)
      (fun h => absurd h (Nat.not_lt_zero _)), if_neg (Nat.not_lt_zero _)]
  rfl

/-! ## The header at an address -/

/-- The bytes of metadata and first element-header. -/
def firstBytes (m : Nat → UInt8) (pid address : Nat) : List UInt8 :=
  slice m address (metadataSize + getElementHeaderLen pid)

/-- Looking up the first header finds nothing and changes nothing: what passes the
CRC, at the partition's start or else in the swap page, belongs to another partition. -/
def Silent (m : Nat → UInt8) (pid : Nat) (p : Partition) : Prop :=
  (CrcValid (firstBytes m pid p.firstElementAddress) →
    (deserializeMetadata (firstBytes m pid p.firstElementAddress)).consistent pid p = false) ∧
  (¬ CrcValid (firstBytes m pid p.firstElementAddress) →
    CrcValid (firstBytes m pid (getSwapPageAddressOfPartition pid)) →
    (deserializeMetadata (firstBytes m pid (getSwapPageAddressOfPartition pid))).consistent pid p =
      false)

/-- The metadata of the partition are those at its start, and these pass the CRC. -/
def Current (m : Nat → UInt8) (pid : Nat) (p : Partition) : Prop :=
  CrcValid (firstBytes m pid p.firstElementAddress) ∧
    deserializeMetadata (firstBytes m pid p.firstElementAddress) = p.metadata

/-- The library knows what the storage holds at the partition's start: its metadata,
or that there are none, neither there nor in the swap page. -/
structure Sync (s : State D) (pid : Nat) : Prop where
  start_fits : (s.part pid).firstElementAddress + metadataSize + getElementHeaderLen pid ≤ D.size
  swap_fits : getSwapPageAddressOfPartition pid + metadataSize + getElementHeaderLen pid ≤ D.size
  known : Current s.bytes pid (s.part pid) ∨ Silent s.bytes pid (s.part pid)

/-- The element-header in the bytes at `a`. -/
def headerOf (m : Nat → UInt8) (pid a : Nat) : ElementHeader :=
  deserializeElementHeader pid (slice m a (getElementHeaderLen pid))

theorem deserialize_xor_lt (pid : Nat) (tmp : List UInt8) :
    (deserializeElementHeader pid tmp).previousLenXorCurLen < 2 ^ 16 := by
  rw [deserializeElementHeader]
  dsimp only
  split
  · exact ofBe16_lt _ _
  · exact Nat.two_pow_pos 16

theorem headerOf_xor_lt (m : Nat → UInt8) (pid a : Nat) :
    (headerOf m pid a).previousLenXorCurLen < 2 ^ 16 := deserialize_xor_lt pid _

/-- The first element-header, behind the metadata. -/
def firstHeaderAt (m : Nat → UInt8) (pid : Nat) (p : Partition) : Except RetCode ElementHeader :=
  if CrcValid (firstBytes m pid p.firstElementAddress) ∧
      (deserializeMetadata (firstBytes m pid p.firstElementAddress)).consistent pid p = true then
    .ok (headerOf m pid (p.firstElementAddress + metadataSize))
  else .error .notFound

/-- What `filesystem_read_element_header` returns in a state in sync. -/
def headerAt (s : State D) (pid a : Nat) : Except RetCode ElementHeader :=
  if a = (s.part pid).firstElementAddress then firstHeaderAt s.bytes pid (s.part pid)
  else if a + getElementHeaderLen pid ≤ D.size then .ok (headerOf s.bytes pid a)
  else .error .internal

theorem getPartition_bind {α : Type} (f : Partition → Fs D α) :
    (getPartition pid >>= f) s = f (s.part pid) s := rfl

theorem getIterator_bind {α : Type} (f : PartitionIterator → Fs D α) :
    (getIterator pid >>= f) s = f (s.iter pid) s := rfl

theorem readFirstHeader_ok {a : Nat} (h : a + metadataSize + getElementHeaderLen pid ≤ D.size) :
    readFirstHeader pid a s = (.ok (firstBytes s.bytes pid a), s) := by
  unfold readFirstHeader
  rw [Proc.bind_ok (Proc.orFail_ok (storageRead_ok (by omega)) _),
    Proc.bind_ok (Proc.orFail_ok (storageRead_ok h) _)]
  unfold firstBytes
  rw [slice_add]
  rfl

theorem firstBytes_drop (m : Nat → UInt8) (pid a : Nat) :
    (firstBytes m pid a).drop metadataSize =
      slice m (a + metadataSize) (getElementHeaderLen pid) := by
  unfold firstBytes
  rw [slice_drop m a (Nat.le_add_right _ _), Nat.add_sub_cancel_left]

@[simp] theorem setPart_part (s : State D) (pid : Nat) (p : Partition) :
    (s.setPart pid p).part pid = p := by
  simp [State.setPart, State.part]

@[simp] theorem setPart_bytes (s : State D) (pid : Nat) (p : Partition) :
    (s.setPart pid p).bytes = s.bytes := rfl

@[simp] theorem setPart_dev (s : State D) (pid : Nat) (p : Partition) :
    (s.setPart pid p).dev = s.dev := rfl

@[simp] theorem setPart_iter (s : State D) (pid pid' : Nat) (p : Partition) :
    (s.setPart pid p).iter pid' = s.iter pid' := rfl

@[simp] theorem setIter_part (s : State D) (pid pid' : Nat) (it : PartitionIterator) :
    (s.setIter pid it).part pid' = s.part pid' := rfl

@[simp] theorem setIter_iter (s : State D) (pid : Nat) (it : PartitionIterator) :
    (s.setIter pid it).iter pid = it := by
  simp [State.setIter, State.iter]

@[simp] theorem setIter_bytes (s : State D) (pid : Nat) (it : PartitionIterator) :
    (s.setIter pid it).bytes = s.bytes := rfl

theorem setPart_self (s : State D) (pid : Nat) : s.setPart pid (s.part pid) = s := by
  unfold State.setPart State.part
  rw [Function.update_eq_self]

@[simp] theorem setPart_setPart (s : State D) (pid : Nat) (p q : Partition) :
    (s.setPart pid p).setPart pid q = s.setPart pid q := by
  unfold State.setPart
  rw [Function.update_idem]

theorem modifyPartition_apply (f : Partition → Partition) :
    modifyPartition pid f s = (.ok (), s.setPart pid (f (s.part pid))) := rfl

/-- Assigning a partition what it holds changes nothing. -/
theorem modifyPartition_same {f : Partition → Partition} (h : f (s.part pid) = s.part pid) :
    modifyPartition pid f s = (.ok (), s) := by
  unfold modifyPartition
  rw [Proc.modify_apply, h, setPart_self]

theorem consistent_self (pid : Nat) {m : Metadata} {p : Partition} (h : m = p.metadata) :
    m.consistent pid p = true := by
  subst h
  simp [Metadata.consistent]

theorem firstHeaderAt_current {m : Nat → UInt8} {p : Partition} (h : Current m pid p) :
    firstHeaderAt m pid p = .ok (headerOf m pid (p.firstElementAddress + metadataSize)) :=
  if_pos ⟨h.1, consistent_self pid h.2⟩

theorem firstHeaderAt_silent {m : Nat → UInt8} {p : Partition} (h : Silent m pid p) :
    firstHeaderAt m pid p = .error .notFound := by
  apply if_neg
  intro hc
  have hf := h.1 hc.1
  rw [hc.2] at hf
  cases hf

theorem readElementHeader_first (hs : Sync s pid) :
    readElementHeader pid (s.part pid).firstElementAddress s =
      (firstHeaderAt s.bytes pid (s.part pid), s) := by
  unfold readElementHeader
  rw [getPartition_bind, if_pos rfl, Proc.bind_ok (readFirstHeader_ok hs.start_fits)]
  rcases hs.known with hc | hc
  · rw [if_pos hc.1, Proc.failIf_bind_neg (by rw [consistent_self pid hc.2]; decide),
      firstHeaderAt_current hc]
    unfold acceptFirstHeader headerOf
    rw [Proc.bind_ok (modifyPartition_same (by rw [hc.2])), firstBytes_drop]
    rfl
  · rw [firstHeaderAt_silent hc]
    by_cases hcrc : CrcValid (firstBytes s.bytes pid (s.part pid).firstElementAddress)
    · rw [if_pos hcrc, Proc.failIf_bind_pos (hc.1 hcrc)]
    · rw [if_neg hcrc]
      unfold restoreFirstHeader
      rw [Proc.bind_ok (readFirstHeader_ok hs.swap_fits), getPartition_bind]
      by_cases hswap : CrcValid (firstBytes s.bytes pid (getSwapPageAddressOfPartition pid))
      · rw [Proc.failIf_bind_neg (not_not_intro hswap), Proc.failIf_bind_pos (hc.2 hcrc hswap)]
      · rw [Proc.failIf_bind_pos hswap]

theorem readElementHeader_sync (hs : Sync s pid) {a : Nat}
    (ha : a + getElementHeaderLen pid < 2 ^ 32) :
    readElementHeader pid a s = (headerAt s pid a, s) := by
  unfold headerAt
  by_cases haddr : a = (s.part pid).firstElementAddress
  · rw [if_pos haddr, haddr, readElementHeader_first hs]
  · unfold readElementHeader
    rw [if_neg haddr, getPartition_bind, if_neg haddr]
    by_cases hin : a + getElementHeaderLen pid ≤ D.size
    · rw [if_pos hin, Proc.bind_ok (Proc.orFail_ok (storageRead_ok hin) _)]
      rfl
    · rw [if_neg hin, Proc.bind_error
        (Proc.orFail_error (storageRead_error (Nat.lt_of_not_le hin) ha) _)]

theorem readElementHeader_keeps (hs : Sync s pid) (a : Nat) :
    (readElementHeader pid a s).2 = s := by
  by_cases haddr : a = (s.part pid).firstElementAddress
  · rw [haddr, readElementHeader_first hs]
  · unfold readElementHeader
    rw [getPartition_bind, if_neg haddr]
    exact ((storageRead_keeps (· = s) _ _).orFail _).bind
      (fun _ => Proc.Keeps.pure (· = s) _) s rfl

/-! ## The neighbours of an element -/

/-- The address behind an element. -/
def stopOf (pid : Nat) (p : Partition) (a len : Nat) : Nat := a + headerLenAt pid p a + len

/-- The bytes behind an element look like the header of the element after it. -/
def Follows (m : Nat → UInt8) (pid : Nat) (p : Partition) (a recordId len : Nat) : Prop :=
  (headerOf m pid (stopOf pid p a len)).recordId = incrementRecordId recordId ∧
    stopOf pid p a len + getElementHeaderLen pid +
        neighbourLen pid p len (headerOf m pid (stopOf pid p a len)).previousLenXorCurLen ≤
      p.firstElementAddress + p.metadata.partitionSize

instance (m : Nat → UInt8) (pid : Nat) (p : Partition) (a recordId len : Nat) :
    Decidable (Follows m pid p a recordId len) := inferInstanceAs (Decidable (_ ∧ _))

/-- The first element, if its identifier is the next one. -/
def firstAsNext (m : Nat → UInt8) (pid : Nat) (p : Partition) (recordId : Nat) :
    Except RetCode (Nat × ElementHeader) :=
  match firstHeaderAt m pid p with
  | .error e => .error e
  | .ok h =>
    if h.recordId ≠ incrementRecordId recordId then .error .notFound
    else .ok (p.firstElementAddress, h)

theorem firstAsNext_cases (m : Nat → UInt8) (pid : Nat) (p : Partition) (recordId : Nat) :
    firstAsNext m pid p recordId = .error .notFound ∨
      ∃ h, firstAsNext m pid p recordId = .ok (p.firstElementAddress, h) := by
  unfold firstAsNext firstHeaderAt
  by_cases hc : CrcValid (firstBytes m pid p.firstElementAddress) ∧
      (deserializeMetadata (firstBytes m pid p.firstElementAddress)).consistent pid p = true
  · rw [if_pos hc]
    dsimp only
    by_cases hid : (headerOf m pid (p.firstElementAddress + metadataSize)).recordId ≠
        incrementRecordId recordId
    · exact .inl (if_pos hid)
    · exact .inr ⟨_, if_neg hid⟩
  · rw [if_neg hc]
    exact .inl rfl

theorem getFirstAsNext_sync (hs : Sync s pid) (recordId : Nat) :
    getFirstAsNext pid recordId s = (firstAsNext s.bytes pid (s.part pid) recordId, s) := by
  unfold getFirstAsNext firstAsNext
  rw [getPartition_bind]
  have hread := readElementHeader_first hs
  rcases hfirst : firstHeaderAt s.bytes pid (s.part pid) with e | h
  · rw [hfirst] at hread
    rw [Proc.bind_error hread]
  · rw [hfirst] at hread
    rw [Proc.bind_ok hread]
    by_cases hid : h.recordId ≠ incrementRecordId recordId
    · rw [Proc.failIf_bind_pos hid]
      simp only [if_pos hid]
    · rw [Proc.failIf_bind_neg hid]
      simp only [if_neg hid]
      rfl

/-- What `filesystem_get_next_element_header` returns in a state in sync. -/
def nextAt (s : State D) (pid a recordId len : Nat) : Except RetCode (Nat × ElementHeader) :=
  if stopOf pid (s.part pid) a len + getElementHeaderLen pid ≤ D.size then
    if Follows s.bytes pid (s.part pid) a recordId len then
      .ok (stopOf pid (s.part pid) a len, headerOf s.bytes pid (stopOf pid (s.part pid) a len))
    else firstAsNext s.bytes pid (s.part pid) recordId
  else .error .internal

theorem lt_stopOf (pid : Nat) (p : Partition) (a len : Nat) : a + 1 < stopOf pid p a len := by
  have hH := elementHeaderLen_bounds pid
  unfold stopOf headerLenAt
  split <;> omega

theorem getNextElementHeader_sync (hs : Sync s pid) {a recordId len : Nat}
    (ha : (s.part pid).firstElementAddress ≤ a)
    (hstop : stopOf pid (s.part pid) a len + getElementHeaderLen pid < 2 ^ 32) :
    getNextElementHeader pid a recordId len s = (nextAt s pid a recordId len, s) := by
  have hlt := lt_stopOf pid (s.part pid) a len
  have hne : stopOf pid (s.part pid) a len ≠ (s.part pid).firstElementAddress := by omega
  have hread := readElementHeader_sync hs hstop
  unfold headerAt at hread
  rw [if_neg hne] at hread
  unfold getNextElementHeader nextAt
  rw [getPartition_bind, show a + headerLenAt pid (s.part pid) a + len =
    stopOf pid (s.part pid) a len from rfl]
  by_cases hin : stopOf pid (s.part pid) a len + getElementHeaderLen pid ≤ D.size
  · rw [if_pos hin] at hread
    rw [if_pos hin, Proc.bind_ok hread, getPartition_bind]
    by_cases hf : Follows s.bytes pid (s.part pid) a recordId len
    · rw [if_pos hf, if_pos (show _ ∧ _ from hf)]
      rfl
    · rw [if_neg hf, if_neg (show ¬ (_ ∧ _) from hf), getFirstAsNext_sync hs]
  · rw [if_neg hin] at hread
    rw [if_neg hin, Proc.bind_error hread]

end OpenBadge.Filesystem
