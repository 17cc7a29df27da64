import OpenBadge.Storage.Device

/-!
# The filesystem

`filesystem_lib.c` over a storage device. The state holds the storage and the
library's variables: the partition table, the iterators and the next free address.
Addresses, lengths and record identifiers are natural numbers; the size of the
device keeps every address below 2^32.
-/

namespace OpenBadge.Filesystem

open OpenBadge.Lib OpenBadge.Storage

def maxNumberOfPartitions : Nat := 20
def metadataSize : Nat := 14
def recordIdSize : Nat := 2
def previousLenXorCurLenSize : Nat := 2
def elementCrcSize : Nat := 2
def swapEntrySize : Nat :=
  metadataSize + recordIdSize + previousLenXorCurLenSize + elementCrcSize
def swapPageSize : Nat := maxNumberOfPartitions * swapEntrySize
def iteratorValidNumber : Nat := 0xA5

/-- `partition_metadata_t`. -/
structure Metadata where
  headerCrc : Nat
  partitionId : Nat
  partitionSize : Nat
  firstElementLen : Nat
  lastElementAddress : Nat
  deriving DecidableEq, Repr

/-- `partition_element_header_t`. -/
structure ElementHeader where
  recordId : Nat
  previousLenXorCurLen : Nat
  elementCrc : Nat
  deriving DecidableEq, Repr

/-- `partition_t`. -/
structure Partition where
  metadata : Metadata
  firstElementAddress : Nat
  hasFirstElement : Bool
  firstElementHeader : ElementHeader
  latestElementAddress : Nat
  latestElementRecordId : Nat
  latestElementLen : Nat
  deriving DecidableEq, Repr

/-- `partition_iterator_t`. -/
structure PartitionIterator where
  curElementAddress : Nat
  curElementLen : Nat
  curElementHeader : ElementHeader
  iteratorValid : Nat
  deriving DecidableEq, Repr

/-- The storage and the variables of the library. -/
structure State (D : Device) where
  dev : D.State
  numberOfPartitions : Nat
  nextFreeAddress : Nat
  partitions : Nat → Partition
  partitionIterators : Nat → PartitionIterator

variable {D : Device}

/-- The bytes in storage. -/
def State.bytes (s : State D) : Nat → UInt8 := D.byte s.dev

abbrev Fs (D : Device) (α : Type) : Type := Proc (State D) RetCode α

/-- `partition_id & 0x3FFF`. -/
def partitionIndex (pid : Nat) : Nat := pid &&& 0x3FFF

/-- `partition_id & 0x8000`. -/
def isDynamic (pid : Nat) : Bool := pid &&& 0x8000 ≠ 0

/-- `partition_id & 0x4000`. -/
def hasElementCrc (pid : Nat) : Bool := pid &&& 0x4000 ≠ 0

/-! ## The storage calls -/

def storageRead (address length : Nat) : Fs D (List UInt8) := do
  let s ← Proc.get
  Proc.failIf ((address + length) % 2 ^ 32 > D.size) .invalidParam
  pure (slice s.bytes address length)

/-- A call of the storage driver. -/
def deviceCall (f : Proc D.State RetCode Unit) : Fs D Unit := fun s =>
  ((f s.dev).1, { s with dev := (f s.dev).2 })

def storageStore (address : Nat) (data : List UInt8) : Fs D Unit := do
  Proc.failIf ((address + data.length) % 2 ^ 32 > D.size) .invalidParam
  Proc.when (data.length ≠ 0) (deviceCall (D.store address data))

def storageClear (address length : Nat) : Fs D Unit := do
  Proc.failIf ((address + length) % 2 ^ 32 > D.size) .invalidParam
  Proc.when (length ≠ 0) (deviceCall (D.clear address length))

/-- `storage_get_unit_address_limits`: start and (inclusive) end of the units of a
range. -/
def storageGetUnitAddressLimits (address length : Nat) : Fs D (Nat × Nat) := do
  Proc.failIf ((address + length) % 2 ^ 32 > D.size) .invalidParam
  Proc.failIf (length = 0) .invalidParam
  pure (unitLimitsLoop D.modules 0 address (address + length - 1) 0)

/-! ## Checksums, record identifiers and serialization -/

def crc16Step (crc : UInt16) (b : UInt8) : UInt16 :=
  let crc := (crc >>> 8) ||| (crc <<< 8)
  let crc := crc ^^^ b.toUInt16
  let crc := crc ^^^ ((crc &&& 0xFF) >>> 4)
  let crc := crc ^^^ ((crc <<< 8) <<< 4)
  crc ^^^ (((crc &&& 0xFF) <<< 4) <<< 1)

def crc16Compute (data : List UInt8) : UInt16 := data.foldl crc16Step 0xFFFF

def incrementRecordId (recordId : Nat) : Nat := if recordId ≥ 0xFFFE then 1 else recordId + 1

def decrementRecordId (recordId : Nat) : Nat := if recordId ≤ 1 then 0xFFFE else recordId - 1

def getElementHeaderLen (pid : Nat) : Nat :=
  recordIdSize + (if isDynamic pid then previousLenXorCurLenSize else 0) +
    (if hasElementCrc pid then elementCrcSize else 0)

/-- `(n >> 8) & 0xFF, n & 0xFF`. -/
def be16 (n : Nat) : List UInt8 := [UInt8.ofNat (n / 2 ^ 8), UInt8.ofNat n]

def be32 (n : Nat) : List UInt8 :=
  [UInt8.ofNat (n / 2 ^ 24), UInt8.ofNat (n / 2 ^ 16), UInt8.ofNat (n / 2 ^ 8), UInt8.ofNat n]

def ofBe16 (b₀ b₁ : UInt8) : Nat := b₀.toNat * 2 ^ 8 + b₁.toNat

def ofBe32 (b₀ b₁ b₂ b₃ : UInt8) : Nat :=
  b₀.toNat * 2 ^ 24 + b₁.toNat * 2 ^ 16 + b₂.toNat * 2 ^ 8 + b₃.toNat

def serializeMetadata (m : Metadata) : List UInt8 :=
  be16 m.headerCrc ++ be16 m.partitionId ++ be32 m.partitionSize ++ be16 m.firstElementLen ++
    be32 m.lastElementAddress

def deserializeMetadata (tmp : List UInt8) : Metadata :=
  { headerCrc := ofBe16 (tmp.getD 0 0) (tmp.getD 1 0)
    partitionId := ofBe16 (tmp.getD 2 0) (tmp.getD 3 0)
    partitionSize := ofBe32 (tmp.getD 4 0) (tmp.getD 5 0) (tmp.getD 6 0) (tmp.getD 7 0)
    firstElementLen := ofBe16 (tmp.getD 8 0) (tmp.getD 9 0)
    lastElementAddress := ofBe32 (tmp.getD 10 0) (tmp.getD 11 0) (tmp.getD 12 0) (tmp.getD 13 0) }

def serializeElementHeader (pid : Nat) (h : ElementHeader) : List UInt8 :=
  be16 h.recordId ++ (if isDynamic pid then be16 h.previousLenXorCurLen else []) ++
    (if hasElementCrc pid then be16 h.elementCrc else [])

def deserializeElementHeader (pid : Nat) (tmp : List UInt8) : ElementHeader :=
  let crcAt := if isDynamic pid then 4 else 2
  { recordId := ofBe16 (tmp.getD 0 0) (tmp.getD 1 0)
    previousLenXorCurLen := if isDynamic pid then ofBe16 (tmp.getD 2 0) (tmp.getD 3 0) else 0
    elementCrc :=
      if hasElementCrc pid then ofBe16 (tmp.getD crcAt 0) (tmp.getD (crcAt + 1) 0) else 0 }

/-- The header CRC over the serialized metadata and first element-header. -/
def headerCrcOf (tmp : List UInt8) : Nat := (crc16Compute (tmp.drop 2)).toNat

/-- The header CRC in the metadata is that of the bytes. -/
def CrcValid (tmp : List UInt8) : Prop := headerCrcOf tmp = (deserializeMetadata tmp).headerCrc

instance (tmp : List UInt8) : Decidable (CrcValid tmp) := inferInstanceAs (Decidable (_ = _))

/-! ## Headers in storage -/

/-- `partitions[partition_id & 0x3FFF]`. -/
def State.part (s : State D) (pid : Nat) : Partition := s.partitions (partitionIndex pid)

/-- `partition_iterators[partition_id & 0x3FFF]`. -/
def State.iter (s : State D) (pid : Nat) : PartitionIterator :=
  s.partitionIterators (partitionIndex pid)

def State.setPart (s : State D) (pid : Nat) (p : Partition) : State D :=
  { s with partitions := Function.update s.partitions (partitionIndex pid) p }

def State.setIter (s : State D) (pid : Nat) (it : PartitionIterator) : State D :=
  { s with partitionIterators := Function.update s.partitionIterators (partitionIndex pid) it }

def getPartition (pid : Nat) : Fs D Partition := do
  let s ← Proc.get
  pure (s.part pid)

def getIterator (pid : Nat) : Fs D PartitionIterator := do
  let s ← Proc.get
  pure (s.iter pid)

/-- Assignment to members of a partition. -/
def modifyPartition (pid : Nat) (f : Partition → Partition) : Fs D Unit :=
  Proc.modify fun s => s.setPart pid (f (s.part pid))

/-- Assignment to members of an iterator. -/
def modifyIterator (pid : Nat) (f : PartitionIterator → PartitionIterator) : Fs D Unit :=
  Proc.modify fun s => s.setIter pid (f (s.iter pid))

def getSwapPageAddressOfPartition (pid : Nat) : Nat := partitionIndex pid * swapEntrySize

/-- The length of the header of the element at `address`, metadata included. -/
def headerLenAt (pid : Nat) (p : Partition) (address : Nat) : Nat :=
  if address = p.firstElementAddress then metadataSize + getElementHeaderLen pid
  else getElementHeaderLen pid

def backupFirstElementHeader (address : Nat) (header : List UInt8) : Fs D Unit := do
  Proc.failIf (address + header.length > swapPageSize) .invalidParam
  let tmp ← Proc.orFail (storageRead address header.length) .internal
  Proc.when (header ≠ tmp) do
    let (startUnit, endUnit) ←
      Proc.orFail (storageGetUnitAddressLimits address header.length) .internal
    let unitSize := endUnit + 1 - startUnit
    let page ← Proc.orFail (storageRead startUnit unitSize) .internal
    let page := page.take (address - startUnit) ++ header ++
      page.drop (address - startUnit + header.length)
    Proc.orFail (storageStore startUnit page) .internal
    let readBack ← Proc.orFail (storageRead startUnit unitSize) .internal
    Proc.failIf (page ≠ readBack) .internal

/-- The metadata in storage belong to the partition that the application registered. -/
def Metadata.consistent (pid : Nat) (m : Metadata) (p : Partition) : Bool :=
  m.partitionId = p.metadata.partitionId && m.partitionSize = p.metadata.partitionSize &&
    (isDynamic pid || m.firstElementLen = p.metadata.firstElementLen)

/-- Read metadata and first element-header at `address` and hand back the bytes. -/
def readFirstHeader (pid address : Nat) : Fs D (List UInt8) := do
  let tmp ← Proc.orFail (storageRead address metadataSize) .internal
  let tmp' ← Proc.orFail (storageRead (address + metadataSize) (getElementHeaderLen pid)) .internal
  pure (tmp ++ tmp')

/-- Take over metadata that passed the CRC. -/
def acceptFirstHeader (pid : Nat) (tmp : List UInt8) : Fs D ElementHeader := do
  modifyPartition pid fun p => { p with metadata := deserializeMetadata tmp }
  pure (deserializeElementHeader pid (tmp.drop metadataSize))

/-- The swap-page part of `filesystem_read_element_header`. -/
def restoreFirstHeader (pid address : Nat) : Fs D ElementHeader := do
  let tmp ← readFirstHeader pid (getSwapPageAddressOfPartition pid)
  let p ← getPartition pid
  Proc.failIf (¬ CrcValid tmp) .notFound
  Proc.failIf ((deserializeMetadata tmp).consistent pid p = false) .notFound
  Proc.orFail (storageStore address tmp) .internal
  let readBack ← Proc.orFail (storageRead address (metadataSize + getElementHeaderLen pid)) .internal
  Proc.failIf (tmp ≠ readBack) .internal
  acceptFirstHeader pid tmp

def readElementHeader (pid address : Nat) : Fs D ElementHeader := do
  let p ← getPartition pid
  if address = p.firstElementAddress then do
    let tmp ← readFirstHeader pid address
    if CrcValid tmp then do
      Proc.failIf ((deserializeMetadata tmp).consistent pid p = false) .notFound
      acceptFirstHeader pid tmp
    else restoreFirstHeader pid address
  else do
    let tmp ← Proc.orFail (storageRead address (getElementHeaderLen pid)) .internal
    pure (deserializeElementHeader pid tmp)

/-- The second half of `filesystem_get_next_element_header`: the first element. -/
def getFirstAsNext (pid curRecordId : Nat) : Fs D (Nat × ElementHeader) := do
  let p ← getPartition pid
  let h ← readElementHeader pid p.firstElementAddress
  Proc.failIf (h.recordId ≠ incrementRecordId curRecordId) .notFound
  pure (p.firstElementAddress, h)

/-- The length of the neighbour of an element of length `len`. -/
def neighbourLen (pid : Nat) (p : Partition) (len xor : Nat) : Nat :=
  if isDynamic pid then len ^^^ xor else p.metadata.firstElementLen

def getNextElementHeader (pid curAddress curRecordId curLen : Nat) :
    Fs D (Nat × ElementHeader) := do
  let p ← getPartition pid
  let next := curAddress + headerLenAt pid p curAddress + curLen
  let h ← readElementHeader pid next
  let p' ← getPartition pid
  if h.recordId = incrementRecordId curRecordId ∧
      next + getElementHeaderLen pid + neighbourLen pid p' curLen h.previousLenXorCurLen ≤
        p.firstElementAddress + p.metadata.partitionSize then
    pure (next, h)
  else getFirstAsNext pid curRecordId

def getPreviousElementHeader (pid curAddress curRecordId curLen : Nat) :
    Fs D (Nat × ElementHeader) := do
  let p ← getPartition pid
  if curAddress ≤ p.firstElementAddress then do
    Proc.failIf (p.metadata.lastElementAddress ≤ p.firstElementAddress) .notFound
    let h ← readElementHeader pid p.metadata.lastElementAddress
    Proc.failIf (h.recordId ≠ decrementRecordId curRecordId) .notFound
    pure (p.metadata.lastElementAddress, h)
  else do
    let h ← readElementHeader pid curAddress
    let p' ← getPartition pid
    let previousLen := neighbourLen pid p' curLen h.previousLenXorCurLen
    let previous :=
      if curAddress ≤ p.firstElementAddress + (metadataSize + getElementHeaderLen pid) + previousLen
      then p.firstElementAddress
      else curAddress - previousLen - getElementHeaderLen pid
    let h ← readElementHeader pid previous
    Proc.failIf (h.recordId ≠ decrementRecordId curRecordId) .notFound
    pure (previous, h)

/-- The `while` loop of `filesystem_find_latest_element_address`, which ends because
addresses grow inside the partition: `cur`, `recordId` and `len` are the current
element, `ret` what the last search for a next element gave. -/
def findLatestLoop (pid firstLen : Nat) :
    Nat → Nat → Nat → Nat → Except RetCode (Nat × ElementHeader) →
      Fs D (Nat × Nat × Nat × Except RetCode (Nat × ElementHeader))
  | 0, cur, recordId, len, ret => pure (cur, recordId, len, ret)
  | fuel + 1, cur, recordId, len, ret =>
    match ret with
    | .error e => pure (cur, recordId, len, .error e)
    | .ok (next, h) =>
      if next ≤ cur then pure (cur, recordId, len, .ok (next, h))
      else do
        let len' := if isDynamic pid then len ^^^ h.previousLenXorCurLen else firstLen
        let ret ← Proc.attempt (getNextElementHeader pid next h.recordId len')
        findLatestLoop pid firstLen fuel next h.recordId len' ret

/-- `filesystem_find_latest_element_address` with the members of `partitions[index]`
as its output parameters. -/
def findLatestElementAddress (pid : Nat) : Fs D Unit := do
  let p ← getPartition pid
  modifyPartition pid fun q => { q with latestElementAddress := p.firstElementAddress }
  let h ← readElementHeader pid p.firstElementAddress
  let ret ← Proc.attempt
    (getNextElementHeader pid p.firstElementAddress h.recordId p.metadata.firstElementLen)
  let (address, recordId, len, ret) ← findLatestLoop pid p.metadata.firstElementLen
    (p.metadata.partitionSize + 1) p.firstElementAddress h.recordId p.metadata.firstElementLen ret
  modifyPartition pid fun q =>
    { q with
      latestElementAddress := address
      latestElementRecordId := recordId
      latestElementLen := len }
  match ret with
  | .ok _ => pure ()
  | .error .notFound => pure ()
  | .error e => Proc.fail e

/-! ## Registration -/

def reset : Fs D Unit := do
  Proc.modify fun s => { s with numberOfPartitions := 0 }
  let (_, endUnit) ← Proc.orFail (storageGetUnitAddressLimits 0 swapPageSize) .internal
  Proc.modify fun s => { s with nextFreeAddress := endUnit + 1 }

def computeAvailableSize (start requiredSize : Nat) : Fs D Nat := do
  Proc.failIf (start ≥ D.size ∨ requiredSize = 0) .invalidParam
  let (startUnit, endUnit) ←
    Proc.orFail (storageGetUnitAddressLimits start (min (D.size - start) requiredSize)) .internal
  Proc.failIf (start ≠ startUnit) .invalidParam
  pure (endUnit - startUnit + 1)

/-- The partition identifier: index, and the bits for dynamic and for CRC. -/
def partitionIdOf (index : Nat) (dynamic crc : Bool) : Nat :=
  (index ||| (if dynamic then 0x8000 else 0)) ||| (if crc then 0x4000 else 0)

/-- The arguments of `filesystem_register_partition`; the length is a `uint16_t`. -/
structure Registration where
  requiredSize : Nat
  dynamic : Bool
  crc : Bool
  elementLen : Nat
  elementLen_lt : elementLen < 2 ^ 16 := by decide

theorem zero_lt_elementLenMax : 0 < 2 ^ 16 := by decide

theorem four_lt_elementLenMax : 4 < 2 ^ 16 := by decide

def registerPartition (r : Registration) : Fs D Nat := do
  let s ← Proc.get
  Proc.failIf (s.numberOfPartitions ≥ maxNumberOfPartitions) .noMem
  Proc.failIf (r.dynamic = false ∧ r.elementLen = 0) .invalidParam
  let elementLen := if r.dynamic then 0 else r.elementLen
  let start := s.nextFreeAddress
  let available ← Proc.orFail (computeAvailableSize start r.requiredSize) .noMem
  let pid := partitionIdOf s.numberOfPartitions r.dynamic r.crc
  modifyPartition pid fun p =>
    { p with
      hasFirstElement := false
      firstElementAddress := start
      latestElementAddress := start
      latestElementRecordId := 1
      latestElementLen := 0
      metadata := { p.metadata with
        partitionId := pid
        partitionSize := available
        firstElementLen := elementLen
        lastElementAddress := start } }
  Proc.failIf (available < metadataSize + getElementHeaderLen pid + elementLen) .noMem
  let found ← Proc.attempt (readElementHeader pid start)
  match found with
  | .ok _ => do
    findLatestElementAddress pid
    modifyPartition pid fun p => { p with hasFirstElement := true }
    Proc.modify fun s =>
      { s with
        nextFreeAddress := start + available
        numberOfPartitions := s.numberOfPartitions + 1 }
    pure pid
  | .error .notFound => do
    modifyPartition pid fun p => { p with hasFirstElement := false }
    Proc.modify fun s =>
      { s with
        nextFreeAddress := start + available
        numberOfPartitions := s.numberOfPartitions + 1 }
    pure pid
  | .error _ => Proc.fail .internal

def clearPartition (pid : Nat) : Fs D Unit := do
  let p ← getPartition pid
  let found ← Proc.attempt (readElementHeader pid p.firstElementAddress)
  let newRecordId ← (match found with
    | .ok h => pure (incrementRecordId h.recordId)
    | .error .notFound => pure 1
    | .error e => Proc.fail e : Fs D Nat)
  let tmp := List.replicate (metadataSize + getElementHeaderLen pid) (0xFF : UInt8)
  Proc.orFail (backupFirstElementHeader (getSwapPageAddressOfPartition pid) tmp) .internal
  Proc.orFail (storageStore p.firstElementAddress tmp) .internal
  let readBack ← Proc.orFail
    (storageRead p.firstElementAddress (metadataSize + getElementHeaderLen pid)) .internal
  Proc.failIf (tmp ≠ readBack) .internal
  modifyPartition pid fun q =>
    { q with
      hasFirstElement := false
      firstElementAddress := p.firstElementAddress
      latestElementAddress := p.firstElementAddress
      latestElementRecordId := newRecordId
      latestElementLen := 0 }

/-! ## Iterators -/

def iteratorInvalidate (pid : Nat) : Fs D Unit :=
  modifyIterator pid fun it => { it with iteratorValid := 0 }

/-- Invalidate the iterator and report so. -/
def iteratorLost {α : Type} (pid : Nat) : Fs D α := do
  iteratorInvalidate pid
  Proc.fail .invalidState

def iteratorCheckValidity (pid : Nat) : Fs D Unit := do
  let it ← getIterator pid
  Proc.failIf (it.iteratorValid ≠ iteratorValidNumber) .invalidState
  let p ← getPartition pid
  Proc.when (p.hasFirstElement = false) (iteratorLost pid)
  let found ← Proc.attempt (readElementHeader pid it.curElementAddress)
  match found with
  | .error .notFound => iteratorLost pid
  | .error e => Proc.fail e
  | .ok h =>
    Proc.when (h.recordId ≠ it.curElementHeader.recordId ∨
      (hasElementCrc pid ∧ h.elementCrc ≠ it.curElementHeader.elementCrc) ∨
      (isDynamic pid ∧ h.previousLenXorCurLen ≠ it.curElementHeader.previousLenXorCurLen))
      (iteratorLost pid)

/-- The three comparisons of `filesystem_check_iterator_conflict`: the new element is
`[start, stop)`, the iterator's element with its first unit `[itStart, itStop)`. -/
def Conflict (start stop itStart itStop : Nat) : Prop :=
  (start ≥ itStart ∧ start < itStop) ∨ (stop > itStart ∧ stop ≤ itStop) ∨
    (start ≤ itStart ∧ stop ≥ itStop)

instance (a b c d : Nat) : Decidable (Conflict a b c d) := inferInstanceAs (Decidable (_ ∨ _))

def checkIteratorConflict (pid address len : Nat) : Fs D Unit := do
  let valid ← Proc.attempt (iteratorCheckValidity pid)
  match valid with
  | .error .invalidState => pure ()
  | .error .internal => Proc.fail .internal
  | _ => do
    let p ← getPartition pid
    let it ← getIterator pid
    let itLen := it.curElementLen + headerLenAt pid p it.curElementAddress
    let (itStart, _) ←
      Proc.orFail (storageGetUnitAddressLimits it.curElementAddress itLen) .internal
    Proc.failIf (Conflict address (address + len + headerLenAt pid p address) itStart
      (it.curElementAddress + itLen)) .forbidden

def iteratorInit (pid : Nat) : Fs D Unit := do
  iteratorInvalidate pid
  let p ← getPartition pid
  Proc.failIf (p.hasFirstElement = false) .invalidState
  modifyIterator pid fun it =>
    { it with
      curElementAddress := p.latestElementAddress
      curElementLen := p.latestElementLen }
  let found ← Proc.attempt (readElementHeader pid p.latestElementAddress)
  match found with
  | .error .notFound => Proc.fail .invalidState
  | .error e => Proc.fail e
  | .ok h =>
    modifyIterator pid fun it =>
      { it with curElementHeader := h, iteratorValid := iteratorValidNumber }

def iteratorNext (pid : Nat) : Fs D Unit := do
  iteratorCheckValidity pid
  let it ← getIterator pid
  let (next, h) ← getNextElementHeader pid it.curElementAddress it.curElementHeader.recordId
    it.curElementLen
  let p ← getPartition pid
  modifyIterator pid fun it' =>
    { it' with
      curElementAddress := next
      curElementLen := neighbourLen pid p it.curElementLen h.previousLenXorCurLen
      curElementHeader := h }

def iteratorPrevious (pid : Nat) : Fs D Unit := do
  iteratorCheckValidity pid
  let it ← getIterator pid
  let (previous, h) ← getPreviousElementHeader pid it.curElementAddress
    it.curElementHeader.recordId it.curElementLen
  let p ← getPartition pid
  let previousLen := neighbourLen pid p it.curElementLen it.curElementHeader.previousLenXorCurLen
  Proc.failIf ((previous + getElementHeaderLen pid + previousLen) % 2 ^ 32 >
    p.firstElementAddress + p.metadata.partitionSize) .notFound
  modifyIterator pid fun it' =>
    { it' with
      curElementAddress := previous
      curElementLen := previousLen
      curElementHeader := h }

def iteratorReadElement (pid : Nat) : Fs D (List UInt8 × Nat) := do
  iteratorCheckValidity pid
  let p ← getPartition pid
  let it ← getIterator pid
  let data ← Proc.orFail (storageRead
    (it.curElementAddress + headerLenAt pid p it.curElementAddress) it.curElementLen) .internal
  Proc.failIf (hasElementCrc pid ∧
    (crc16Compute data).toNat ≠ it.curElementHeader.elementCrc) .invalidData
  pure (data, it.curElementHeader.recordId)

/-! ## Storing -/

/-- Where a new element goes, and the identifier and length link of its header. -/
structure Placement where
  address : Nat
  recordId : Nat
  previousLenXorCurLen : Nat
  deriving DecidableEq, Repr

def placement (pid : Nat) (p : Partition) (len : Nat) : Placement :=
  if p.hasFirstElement = false then
    ⟨p.firstElementAddress, p.latestElementRecordId, 0⟩
  else
    let next := p.latestElementAddress + headerLenAt pid p p.latestElementAddress +
      p.latestElementLen
    ⟨if next + getElementHeaderLen pid + len ≤ p.firstElementAddress + p.metadata.partitionSize
      then next else p.firstElementAddress,
      incrementRecordId p.latestElementRecordId, p.latestElementLen ^^^ len⟩

/-- Clear a header behind the new element that carries the next record identifier. -/
def clearStaleNext (pid : Nat) (pl : Placement) (len : Nat) : Fs D Unit := do
  let ret ← Proc.attempt (getNextElementHeader pid pl.address pl.recordId len)
  match ret with
  | .ok (next, _) =>
    Proc.when (next > pl.address)
      (Proc.orFail (storageClear next (getElementHeaderLen pid)) .internal)
  | .error .notFound => pure ()
  | .error e => Proc.fail e

/-- The metadata of a partition whose first element is the new one. -/
def newMetadata (pid : Nat) (p : Partition) (len : Nat) (h : ElementHeader) : Metadata :=
  let metadata : Metadata :=
    { headerCrc := 0
      partitionId := pid
      partitionSize := p.metadata.partitionSize
      firstElementLen := len
      lastElementAddress :=
        if p.firstElementAddress + metadataSize + getElementHeaderLen pid + len ≥
            p.latestElementAddress
        then p.firstElementAddress else p.latestElementAddress }
  { metadata with
    headerCrc := headerCrcOf (serializeMetadata metadata ++ serializeElementHeader pid h) }

/-- The backup in the swap page when the element starts in the partition's first unit. -/
def backupIfFirstUnit (pid address len : Nat) : Fs D Unit := do
  let (startUnit, _) ← Proc.orFail
    (storageGetUnitAddressLimits address (getElementHeaderLen pid + len)) .internal
  let p ← getPartition pid
  Proc.when (startUnit = p.firstElementAddress)
    (Proc.orFail (backupFirstElementHeader (getSwapPageAddressOfPartition pid)
      (serializeMetadata p.metadata ++ serializeElementHeader pid p.firstElementHeader)) .internal)

/-- Header, read-back of the header, data. -/
def writeElement (pid address : Nat) (h : ElementHeader) (data : List UInt8) : Fs D Unit := do
  let p ← getPartition pid
  let tmp := if address = p.firstElementAddress then
    serializeMetadata p.metadata ++ serializeElementHeader pid h else serializeElementHeader pid h
  Proc.orFail (storageStore address tmp) .internal
  let readBack ← Proc.orFail (storageRead address (headerLenAt pid p address)) .internal
  Proc.failIf (tmp ≠ readBack) .internal
  Proc.orFail (storageStore (address + headerLenAt pid p address) data) .internal

def storeElement (pid : Nat) (elementData : Nat → UInt8) (elementLen : Nat) : Fs D Unit := do
  let p ← getPartition pid
  Proc.failIf (isDynamic pid = false ∧ elementLen ≠ 0 ∧ elementLen ≠ p.metadata.firstElementLen)
    .invalidParam
  let len := if isDynamic pid = false ∧ elementLen = 0 then p.metadata.firstElementLen
    else elementLen
  let data := slice elementData 0 len
  let pl := placement pid p len
  Proc.failIf (pl.address + headerLenAt pid p pl.address + len >
    p.firstElementAddress + p.metadata.partitionSize) .noMem
  Proc.orFail (checkIteratorConflict pid pl.address len) .internal
  clearStaleNext pid pl len
  let h : ElementHeader :=
    ⟨pl.recordId, pl.previousLenXorCurLen, (crc16Compute data).toNat⟩
  Proc.when (pl.address = p.firstElementAddress)
    (modifyPartition pid fun q =>
      { q with metadata := newMetadata pid q len h, firstElementHeader := h })
  backupIfFirstUnit pid pl.address len
  writeElement pid pl.address h data
  modifyPartition pid fun q =>
    { q with
      latestElementAddress := pl.address
      latestElementRecordId := pl.recordId
      latestElementLen := len
      hasFirstElement := true }

end OpenBadge.Filesystem
