import OpenBadge.Filesystem.Model
import OpenBadge.Lib.Faults

/-!
# The filesystem on a storage whose calls may fail

The functions that `filesystem_store_element`, `filesystem_clear_partition` and the
iterators consist of, where any `storage_read`, `storage_store` and `storage_clear` may fail
without effect. Without faults they are those of the model.
-/

namespace OpenBadge.Filesystem

open OpenBadge.Lib OpenBadge.Storage
open Proc (Quiet sure)

variable {D : Device}

namespace Failing

abbrev Fs (D : Device) (α : Type) : Type := Proc (Faulty (State D)) RetCode α

/-! ## The storage calls -/

def storageRead (address length : Nat) : Fs D (List UInt8) :=
  Proc.risky .internal (Filesystem.storageRead address length)

def storageStore (address : Nat) (data : List UInt8) : Fs D Unit :=
  Proc.risky .internal (Filesystem.storageStore address data)

def storageClear (address length : Nat) : Fs D Unit :=
  Proc.risky .internal (Filesystem.storageClear address length)

/-! ## Headers -/

def backupFirstElementHeader (address : Nat) (header : List UInt8) : Fs D Unit := do
  Proc.failIf (address + header.length > swapPageSize) .invalidParam
  let tmp ← Proc.orFail (storageRead address header.length) .internal
  Proc.when (header ≠ tmp) do
    let (startUnit, endUnit) ←
      Proc.orFail (sure (storageGetUnitAddressLimits address header.length)) .internal
    let unitSize := endUnit + 1 - startUnit
    let page ← Proc.orFail (storageRead startUnit unitSize) .internal
    let page := page.take (address - startUnit) ++ header ++
      page.drop (address - startUnit + header.length)
    Proc.orFail (storageStore startUnit page) .internal
    let readBack ← Proc.orFail (storageRead startUnit unitSize) .internal
    Proc.failIf (page ≠ readBack) .internal

def readFirstHeader (pid address : Nat) : Fs D (List UInt8) := do
  let tmp ← Proc.orFail (storageRead address metadataSize) .internal
  let tmp' ← Proc.orFail (storageRead (address + metadataSize) (getElementHeaderLen pid)) .internal
  pure (tmp ++ tmp')

def restoreFirstHeader (pid address : Nat) : Fs D ElementHeader := do
  let tmp ← readFirstHeader pid (getSwapPageAddressOfPartition pid)
  let p ← sure (getPartition pid)
  Proc.failIf (¬ CrcValid tmp) .notFound
  Proc.failIf ((deserializeMetadata tmp).consistent pid p = false) .notFound
  Proc.orFail (storageStore address tmp) .internal
  let readBack ← Proc.orFail (storageRead address (metadataSize + getElementHeaderLen pid)) .internal
  Proc.failIf (tmp ≠ readBack) .internal
  sure (acceptFirstHeader pid tmp)

def readElementHeader (pid address : Nat) : Fs D ElementHeader := do
  let p ← sure (getPartition pid)
  if address = p.firstElementAddress then do
    let tmp ← readFirstHeader pid address
    if CrcValid tmp then do
      Proc.failIf ((deserializeMetadata tmp).consistent pid p = false) .notFound
      sure (acceptFirstHeader pid tmp)
    else restoreFirstHeader pid address
  else do
    let tmp ← Proc.orFail (storageRead address (getElementHeaderLen pid)) .internal
    pure (deserializeElementHeader pid tmp)

def getFirstAsNext (pid curRecordId : Nat) : Fs D (Nat × ElementHeader) := do
  let p ← sure (getPartition pid)
  let h ← readElementHeader pid p.firstElementAddress
  Proc.failIf (h.recordId ≠ incrementRecordId curRecordId) .notFound
  pure (p.firstElementAddress, h)

def getNextElementHeader (pid curAddress curRecordId curLen : Nat) :
    Fs D (Nat × ElementHeader) := do
  let p ← sure (getPartition pid)
  let next := curAddress + headerLenAt pid p curAddress + curLen
  let h ← readElementHeader pid next
  let p' ← sure (getPartition pid)
  if h.recordId = incrementRecordId curRecordId ∧
      next + getElementHeaderLen pid + neighbourLen pid p' curLen h.previousLenXorCurLen ≤
        p.firstElementAddress + p.metadata.partitionSize then
    pure (next, h)
  else getFirstAsNext pid curRecordId

def getPreviousElementHeader (pid curAddress curRecordId curLen : Nat) :
    Fs D (Nat × ElementHeader) := do
  let p ← sure (getPartition pid)
  if curAddress ≤ p.firstElementAddress then do
    Proc.failIf (p.metadata.lastElementAddress ≤ p.firstElementAddress) .notFound
    let h ← readElementHeader pid p.metadata.lastElementAddress
    Proc.failIf (h.recordId ≠ decrementRecordId curRecordId) .notFound
    pure (p.metadata.lastElementAddress, h)
  else do
    let h ← readElementHeader pid curAddress
    let p' ← sure (getPartition pid)
    let previousLen := neighbourLen pid p' curLen h.previousLenXorCurLen
    let previous :=
      if curAddress ≤ p.firstElementAddress + (metadataSize + getElementHeaderLen pid) + previousLen
      then p.firstElementAddress
      else curAddress - previousLen - getElementHeaderLen pid
    let h ← readElementHeader pid previous
    Proc.failIf (h.recordId ≠ decrementRecordId curRecordId) .notFound
    pure (previous, h)

def clearPartition (pid : Nat) : Fs D Unit := do
  let p ← sure (getPartition pid)
  let found ← Proc.attempt (readElementHeader pid p.firstElementAddress)
  let newRecordId ← (match found with
    | .ok h => pure (incrementRecordId h.recordId)
    | .error .notFound => pure 1
    | .error e => Proc.fail e : Fs D Nat)
  let tmp := List.replicate (metadataSize + getElementHeaderLen pid) (0xFF : UInt8)
  Proc.orFail (backupFirstElementHeader (getSwapPageAddressOfPartition pid) tmp) .internal
  Proc.orFail (storageStore p.firstElementAddress tmp) .internal
  let readBack ← Proc.orFail
    (storageRead p.firstElementAddress (metadataSize + getElementHeaderLen pid)) .internal
  Proc.failIf (tmp ≠ readBack) .internal
  sure (modifyPartition pid fun q =>
    { q with
      hasFirstElement := false
      firstElementAddress := p.firstElementAddress
      latestElementAddress := p.firstElementAddress
      latestElementRecordId := newRecordId
      latestElementLen := 0 })

/-! ## Iterators -/

def iteratorCheckValidity (pid : Nat) : Fs D Unit := do
  let it ← sure (getIterator pid)
  Proc.failIf (it.iteratorValid ≠ iteratorValidNumber) .invalidState
  let p ← sure (getPartition pid)
  Proc.when (p.hasFirstElement = false) (sure (iteratorLost pid))
  let found ← Proc.attempt (readElementHeader pid it.curElementAddress)
  match found with
  | .error .notFound => sure (iteratorLost pid)
  | .error e => Proc.fail e
  | .ok h =>
    Proc.when (h.recordId ≠ it.curElementHeader.recordId ∨
      (hasElementCrc pid ∧ h.elementCrc ≠ it.curElementHeader.elementCrc) ∨
      (isDynamic pid ∧ h.previousLenXorCurLen ≠ it.curElementHeader.previousLenXorCurLen))
      (sure (iteratorLost pid))

def checkIteratorConflict (pid address len : Nat) : Fs D Unit := do
  let valid ← Proc.attempt (iteratorCheckValidity pid)
  match valid with
  | .error .invalidState => pure ()
  | .error .internal => Proc.fail .internal
  | _ => do
    let p ← sure (getPartition pid)
    let it ← sure (getIterator pid)
    let itLen := it.curElementLen + headerLenAt pid p it.curElementAddress
    let (itStart, _) ←
      Proc.orFail (sure (storageGetUnitAddressLimits it.curElementAddress itLen)) .internal
    Proc.failIf (Conflict address (address + len + headerLenAt pid p address) itStart
      (it.curElementAddress + itLen)) .forbidden

def iteratorInit (pid : Nat) : Fs D Unit := do
  sure (iteratorInvalidate pid)
  let p ← sure (getPartition pid)
  Proc.failIf (p.hasFirstElement = false) .invalidState
  sure (modifyIterator pid fun it =>
    { it with
      curElementAddress := p.latestElementAddress
      curElementLen := p.latestElementLen })
  let found ← Proc.attempt (readElementHeader pid p.latestElementAddress)
  match found with
  | .error .notFound => Proc.fail .invalidState
  | .error e => Proc.fail e
  | .ok h =>
    sure (modifyIterator pid fun it =>
      { it with curElementHeader := h, iteratorValid := iteratorValidNumber })

def iteratorNext (pid : Nat) : Fs D Unit := do
  iteratorCheckValidity pid
  let it ← sure (getIterator pid)
  let (next, h) ← getNextElementHeader pid it.curElementAddress it.curElementHeader.recordId
    it.curElementLen
  let p ← sure (getPartition pid)
  sure (modifyIterator pid fun it' =>
    { it' with
      curElementAddress := next
      curElementLen := neighbourLen pid p it.curElementLen h.previousLenXorCurLen
      curElementHeader := h })

def iteratorPrevious (pid : Nat) : Fs D Unit := do
  iteratorCheckValidity pid
  let it ← sure (getIterator pid)
  let (previous, h) ← getPreviousElementHeader pid it.curElementAddress
    it.curElementHeader.recordId it.curElementLen
  let p ← sure (getPartition pid)
  let previousLen := neighbourLen pid p it.curElementLen it.curElementHeader.previousLenXorCurLen
  Proc.failIf ((previous + getElementHeaderLen pid + previousLen) % 2 ^ 32 >
    p.firstElementAddress + p.metadata.partitionSize) .notFound
  sure (modifyIterator pid fun it' =>
    { it' with
      curElementAddress := previous
      curElementLen := previousLen
      curElementHeader := h })

def iteratorReadElement (pid : Nat) : Fs D (List UInt8 × Nat) := do
  iteratorCheckValidity pid
  let p ← sure (getPartition pid)
  let it ← sure (getIterator pid)
  let data ← Proc.orFail (storageRead
    (it.curElementAddress + headerLenAt pid p it.curElementAddress) it.curElementLen) .internal
  Proc.failIf (hasElementCrc pid ∧
    (crc16Compute data).toNat ≠ it.curElementHeader.elementCrc) .invalidData
  pure (data, it.curElementHeader.recordId)

/-! ## Storing -/

def clearStaleNext (pid : Nat) (pl : Placement) (len : Nat) : Fs D Unit := do
  let ret ← Proc.attempt (getNextElementHeader pid pl.address pl.recordId len)
  match ret with
  | .ok (next, _) =>
    Proc.when (next > pl.address)
      (Proc.orFail (storageClear next (getElementHeaderLen pid)) .internal)
  | .error .notFound => pure ()
  | .error e => Proc.fail e

def backupIfFirstUnit (pid address len : Nat) : Fs D Unit := do
  let (startUnit, _) ← Proc.orFail
    (sure (storageGetUnitAddressLimits address (getElementHeaderLen pid + len))) .internal
  let p ← sure (getPartition pid)
  Proc.when (startUnit = p.firstElementAddress)
    (Proc.orFail (backupFirstElementHeader (getSwapPageAddressOfPartition pid)
      (serializeMetadata p.metadata ++ serializeElementHeader pid p.firstElementHeader)) .internal)

def writeElement (pid address : Nat) (h : ElementHeader) (data : List UInt8) : Fs D Unit := do
  let p ← sure (getPartition pid)
  let tmp := if address = p.firstElementAddress then
    serializeMetadata p.metadata ++ serializeElementHeader pid h else serializeElementHeader pid h
  Proc.orFail (storageStore address tmp) .internal
  let readBack ← Proc.orFail (storageRead address (headerLenAt pid p address)) .internal
  Proc.failIf (tmp ≠ readBack) .internal
  Proc.orFail (storageStore (address + headerLenAt pid p address) data) .internal

def storeElement (pid : Nat) (elementData : Nat → UInt8) (elementLen : Nat) : Fs D Unit := do
  let p ← sure (getPartition pid)
  Proc.failIf (isDynamic pid = false ∧ elementLen ≠ 0 ∧ elementLen ≠ p.metadata.firstElementLen)
    .invalidParam
  let len := if isDynamic pid = false ∧ elementLen = 0 then p.metadata.firstElementLen
    else elementLen
  let data := slice elementData 0 len
  let pl := placement pid p len
  Proc.failIf (pl.address + headerLenAt pid p pl.address + len >
    p.firstElementAddress + p.metadata.partitionSize) .noMem
  Proc.orFail (checkIteratorConflict pid pl.address len) .internal
  clearStaleNext pid pl len
  let h : ElementHeader :=
    ⟨pl.recordId, pl.previousLenXorCurLen, (crc16Compute data).toNat⟩
  Proc.when (pl.address = p.firstElementAddress)
    (sure (modifyPartition pid fun q =>
      { q with metadata := newMetadata pid q len h, firstElementHeader := h }))
  backupIfFirstUnit pid pl.address len
  writeElement pid pl.address h data
  sure (modifyPartition pid fun q =>
    { q with
      latestElementAddress := pl.address
      latestElementRecordId := pl.recordId
      latestElementLen := len
      hasFirstElement := true })

/-! ## Without faults -/

theorem backupFirstElementHeader_quiet (address : Nat) (header : List UInt8) :
    Quiet (backupFirstElementHeader (D := D) address header)
      (Filesystem.backupFirstElementHeader address header) := by
  refine (Quiet.failIf _ _).bind fun _ => ((Quiet.risky _ _).orFail _).bind fun tmp => ?_
  refine Quiet.when (((Quiet.sure _).orFail _).bind fun limits => ?_)
  refine ((Quiet.risky _ _).orFail _).bind fun page => ?_
  refine ((Quiet.risky _ _).orFail _).bind fun _ => ((Quiet.risky _ _).orFail _).bind fun back => ?_
  exact Quiet.failIf _ _

theorem readFirstHeader_quiet (pid address : Nat) :
    Quiet (readFirstHeader (D := D) pid address) (Filesystem.readFirstHeader pid address) := by
  refine ((Quiet.risky _ _).orFail _).bind fun tmp => ?_
  exact ((Quiet.risky _ _).orFail _).bind fun tmp' => Quiet.pure _

theorem restoreFirstHeader_quiet (pid address : Nat) :
    Quiet (restoreFirstHeader (D := D) pid address)
      (Filesystem.restoreFirstHeader pid address) := by
  refine (readFirstHeader_quiet pid _).bind fun tmp => (Quiet.sure _).bind fun p => ?_
  refine (Quiet.failIf _ _).bind fun _ => (Quiet.failIf _ _).bind fun _ => ?_
  refine ((Quiet.risky _ _).orFail _).bind fun _ => ((Quiet.risky _ _).orFail _).bind fun back => ?_
  exact (Quiet.failIf _ _).bind fun _ => Quiet.sure _

theorem readElementHeader_quiet (pid address : Nat) :
    Quiet (readElementHeader (D := D) pid address) (Filesystem.readElementHeader pid address) := by
  refine (Quiet.sure _).bind fun p => Quiet.ite ?_ ?_
  · refine (readFirstHeader_quiet pid address).bind fun tmp => Quiet.ite ?_ ?_
    · exact (Quiet.failIf _ _).bind fun _ => Quiet.sure _
    · exact restoreFirstHeader_quiet pid address
  · exact ((Quiet.risky _ _).orFail _).bind fun tmp => Quiet.pure _

theorem getFirstAsNext_quiet (pid recordId : Nat) :
    Quiet (getFirstAsNext (D := D) pid recordId) (Filesystem.getFirstAsNext pid recordId) := by
  refine (Quiet.sure _).bind fun p => (readElementHeader_quiet pid _).bind fun h => ?_
  exact (Quiet.failIf _ _).bind fun _ => Quiet.pure _

theorem getNextElementHeader_quiet (pid address recordId len : Nat) :
    Quiet (getNextElementHeader (D := D) pid address recordId len)
      (Filesystem.getNextElementHeader pid address recordId len) := by
  refine (Quiet.sure _).bind fun p => (readElementHeader_quiet pid _).bind fun h => ?_
  refine (Quiet.sure _).bind fun p' => Quiet.ite (Quiet.pure _) ?_
  exact getFirstAsNext_quiet pid recordId

theorem clearPartition_quiet (pid : Nat) :
    Quiet (clearPartition (D := D) pid) (Filesystem.clearPartition pid) := by
  refine (Quiet.sure _).bind fun p => (readElementHeader_quiet pid _).attempt.bind fun found => ?_
  refine Quiet.bind ?_ fun recordId => ?_
  · rcases found with code | h
    · cases code with
      | notFound => exact Quiet.pure _
      | _ => exact Quiet.fail _
    · exact Quiet.pure _
  · refine ((backupFirstElementHeader_quiet _ _).orFail _).bind fun _ => ?_
    refine ((Quiet.risky _ _).orFail _).bind fun _ => ?_
    refine ((Quiet.risky _ _).orFail _).bind fun back => ?_
    exact (Quiet.failIf _ _).bind fun _ => Quiet.sure _

theorem iteratorCheckValidity_quiet (pid : Nat) :
    Quiet (iteratorCheckValidity (D := D) pid) (Filesystem.iteratorCheckValidity pid) := by
  refine (Quiet.sure _).bind fun it => (Quiet.failIf _ _).bind fun _ => ?_
  refine (Quiet.sure _).bind fun p => (Quiet.when (Quiet.sure _)).bind fun _ => ?_
  refine (readElementHeader_quiet pid _).attempt.bind fun found => ?_
  rcases found with code | h
  · cases code with
    | notFound => exact Quiet.sure _
    | _ => exact Quiet.fail _
  · exact Quiet.when (Quiet.sure _)

theorem checkIteratorConflict_quiet (pid address len : Nat) :
    Quiet (checkIteratorConflict (D := D) pid address len)
      (Filesystem.checkIteratorConflict pid address len) := by
  refine (iteratorCheckValidity_quiet pid).attempt.bind fun valid => ?_
  rcases valid with code | _
  · cases code with
    | invalidState => exact Quiet.pure _
    | internal => exact Quiet.fail _
    | _ =>
      exact (Quiet.sure _).bind fun p => (Quiet.sure _).bind fun it =>
        ((Quiet.sure _).orFail _).bind fun limits => Quiet.failIf _ _
  · exact (Quiet.sure _).bind fun p => (Quiet.sure _).bind fun it =>
      ((Quiet.sure _).orFail _).bind fun limits => Quiet.failIf _ _

theorem clearStaleNext_quiet (pid : Nat) (pl : Placement) (len : Nat) :
    Quiet (clearStaleNext (D := D) pid pl len) (Filesystem.clearStaleNext pid pl len) := by
  refine (getNextElementHeader_quiet pid _ _ _).attempt.bind fun ret => ?_
  rcases ret with code | found
  · cases code with
    | notFound => exact Quiet.pure _
    | _ => exact Quiet.fail _
  · exact Quiet.when ((Quiet.risky _ _).orFail _)

theorem backupIfFirstUnit_quiet (pid address len : Nat) :
    Quiet (backupIfFirstUnit (D := D) pid address len)
      (Filesystem.backupIfFirstUnit pid address len) := by
  refine ((Quiet.sure _).orFail _).bind fun limits => (Quiet.sure _).bind fun p => ?_
  exact Quiet.when ((backupFirstElementHeader_quiet _ _).orFail _)

theorem writeElement_quiet (pid address : Nat) (h : ElementHeader) (data : List UInt8) :
    Quiet (writeElement (D := D) pid address h data)
      (Filesystem.writeElement pid address h data) := by
  refine (Quiet.sure _).bind fun p => ((Quiet.risky _ _).orFail _).bind fun _ => ?_
  refine ((Quiet.risky _ _).orFail _).bind fun back => (Quiet.failIf _ _).bind fun _ => ?_
  exact (Quiet.risky _ _).orFail _

theorem storeElement_quiet (pid : Nat) (elementData : Nat → UInt8) (elementLen : Nat) :
    Quiet (storeElement (D := D) pid elementData elementLen)
      (Filesystem.storeElement pid elementData elementLen) := by
  refine (Quiet.sure _).bind fun p => (Quiet.failIf _ _).bind fun _ => ?_
  refine (Quiet.failIf _ _).bind fun _ => ?_
  refine ((checkIteratorConflict_quiet pid _ _).orFail _).bind fun _ => ?_
  refine (clearStaleNext_quiet pid _ _).bind fun _ => (Quiet.when (Quiet.sure _)).bind fun _ => ?_
  refine (backupIfFirstUnit_quiet pid _ _).bind fun _ => ?_
  exact (writeElement_quiet pid _ _ _).bind fun _ => Quiet.sure _

end Failing

end OpenBadge.Filesystem
