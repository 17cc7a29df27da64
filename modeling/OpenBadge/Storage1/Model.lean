import OpenBadge.Storage1.Flash

/-!
# storage1_lib.c

The functions of the flash storage module under their own names. Addresses and
lengths are naturals; the range checks form the sum in 32 bits as the code does.
`storage1_last_stored_element_addresses` is the list `lastStored`, with `-1` for
a free entry.
-/

namespace OpenBadge.Storage1

open OpenBadge.Lib

def wordsBufSize : Nat := 100

def getSize (c : Config) : Nat := c.pageSizeWords * c.numPages * 4

def getUnitSize (c : Config) : Nat := c.pageSizeWords * 4

def getPageAddress (c : Config) (byteAddress : Nat) : Nat :=
  if getSize c ≤ byteAddress then 0 else byteAddress / (c.pageSizeWords * 4)

def getPageNumber (c : Config) (byteAddress byteLength : Nat) : Nat :=
  if getSize c < (byteAddress + byteLength) % 2 ^ 32 then 0
  else if byteLength = 0 then 0
  else getPageAddress c (byteAddress + byteLength - 1) + 1 - getPageAddress c byteAddress

/-- `erase_start_page_address` and `erase_num_pages`. -/
structure Plan where
  erasePage : Nat
  eraseNum : Nat
  deriving DecidableEq, Repr

/-- The first loop of `storage1_compute_pages_to_erase`: entries on a page that
will be written are reset, and an entry before `address` on the first page saves
that page's erase. -/
def resetTouched (c : Config) (address startPage numPages : Nat) :
    List Int → Plan → List Int × Plan
  | [], plan => ([], plan)
  | e :: es, plan =>
    if e = -1 then
      let rest := resetTouched c address startPage numPages es plan
      (e :: rest.1, rest.2)
    else
      let page := getPageAddress c e.toNat
      if page = startPage then
        let plan := if e < address then ⟨startPage + 1, numPages - 1⟩ else plan
        let rest := resetTouched c address startPage numPages es plan
        (-1 :: rest.1, rest.2)
      else
        let e' := if startPage < page ∧ page < startPage + numPages then -1 else e
        let rest := resetTouched c address startPage numPages es plan
        (e' :: rest.1, rest.2)

/-- The second loop: the first free entry, else the closest smaller address. -/
def searchIndex (last : Int) : List Int → Nat → Nat → Int → Nat
  | [], _, index, _ => index
  | e :: es, i, index, minDiff =>
    if e = -1 then i
    else if e < last ∧ last - e < minDiff then searchIndex last es (i + 1) i (last - e)
    else searchIndex last es (i + 1) index minDiff

/-- An end address that closes its unit is not remembered. -/
def computePagesToErase (c : Config) (address lengthData : Nat) : M Plan := do
  Proc.failIf (getSize c < (address + lengthData) % 2 ^ 32) .invalidParam
  if lengthData = 0 then pure ⟨0, 0⟩
  else do
    let startPage := getPageAddress c address
    let numPages := getPageNumber c address lengthData
    let s ← Proc.get
    let (entries, plan) :=
      resetTouched c address startPage numPages s.lastStored ⟨startPage, numPages⟩
    let last := address + lengthData - 1
    if last % getUnitSize c = getUnitSize c - 1 then do
      Proc.modify fun s => { s with lastStored := entries }
      pure plan
    else do
      let index := searchIndex last entries 0 0 (getSize c)
      Proc.modify fun s => { s with lastStored := entries.set index last }
      pure plan

/-- `leading_num_bytes`, `intermediate_num_bytes` and `final_num_bytes`. -/
structure Alignment where
  leading : Nat
  intermediate : Nat
  final : Nat
  deriving DecidableEq, Repr

def computeWordAlignedAddresses (address lengthData : Nat) : Alignment :=
  if lengthData = 0 then ⟨0, 0, 0⟩
  else if address / 4 = (address + lengthData - 1) / 4 ∧ address % 4 ≠ 0 ∧
      (address + lengthData) % 4 ≠ 0 then ⟨0, lengthData, 0⟩
  else
    let leading := ((address / 4 + 1) * 4 - address) % 4
    let final := (address + lengthData - (address + lengthData) / 4 * 4) % 4
    ⟨leading, if final + leading ≤ lengthData then lengthData - (final + leading) else 0, final⟩

/-- `memcpy` of `n` words out of a byte buffer. -/
def wordsFrom (data : List UInt8) (offset n : Nat) : List Word :=
  (List.range n).map fun j b => data.getD (offset + 4 * j + b) 0

/-- `memcpy` of words into a byte buffer. -/
def bytesOf (words : List Word) : List UInt8 := words.flatMap List.ofFn

def storeIntermediate (address : Nat) (data : List UInt8) (al : Alignment) : M Unit :=
  if al.intermediate < 4 then
    let startIndex := address % 4
    let endIndex := (startIndex + al.intermediate) % 4
    let word : Word := fun i =>
      if startIndex ≤ i ∧ i < endIndex then data.getD (i - startIndex) 0 else 0xFF
    flashStore (address / 4) [word]
  else do
    let wordAddress := (address + al.leading) / 4
    let lengthWords := al.intermediate / 4
    Proc.forUpTo (lengthWords / wordsBufSize) fun i =>
      flashStore (wordAddress + i * wordsBufSize)
        (wordsFrom data (al.leading + i * 4 * wordsBufSize) wordsBufSize)
    let remaining := lengthWords % wordsBufSize
    Proc.when (0 < remaining)
      (flashStore (wordAddress + lengthWords / wordsBufSize * wordsBufSize)
        (wordsFrom data (al.leading + lengthWords / wordsBufSize * 4 * wordsBufSize) remaining))

def storeLeading (address : Nat) (data : List UInt8) (al : Alignment) : M Unit :=
  let startIndex := 4 - al.leading
  let word : Word := fun i => if i < startIndex then 0xFF else data.getD (i - startIndex) 0
  flashStore (address / 4) [word]

def storeFinal (address : Nat) (data : List UInt8) (al : Alignment) : M Unit :=
  let word : Word := fun i =>
    if i < al.final then data.getD (i + al.leading + al.intermediate) 0 else 0xFF
  flashStore ((address + al.leading + al.intermediate) / 4) [word]

def storeUint8AsUint32 (c : Config) (address : Nat) (data : List UInt8) : M Unit := do
  Proc.failIf (getSize c < (address + data.length) % 2 ^ 32) .invalidParam
  if data.length = 0 then pure ()
  else do
    let al := computeWordAlignedAddresses address data.length
    Proc.when (0 < al.intermediate) (storeIntermediate address data al)
    Proc.when (0 < al.leading) (storeLeading address data al)
    Proc.when (0 < al.final) (storeFinal address data al)

def readIntermediate (c : Config) (address : Nat) (al : Alignment) : M (List UInt8) :=
  if al.intermediate < 4 then do
    let words ← flashRead c (address / 4) 1
    let startIndex := address % 4
    let endIndex := (startIndex + al.intermediate) % 4
    pure (((bytesOf words).take endIndex).drop startIndex)
  else do
    let wordAddress := (address + al.leading) / 4
    let lengthWords := al.intermediate / 4
    let blocks ← Proc.collectUpTo (lengthWords / wordsBufSize) fun i =>
      flashRead c (wordAddress + i * wordsBufSize) wordsBufSize
    let remaining := lengthWords % wordsBufSize
    let rest ← Proc.branch (0 < remaining)
      (flashRead c (wordAddress + lengthWords / wordsBufSize * wordsBufSize) remaining) (pure [])
    pure (bytesOf (blocks ++ rest))

def readLeading (c : Config) (address : Nat) (al : Alignment) : M (List UInt8) := do
  let words ← flashRead c (address / 4) 1
  pure ((bytesOf words).drop (4 - al.leading))

def readFinal (c : Config) (address : Nat) (al : Alignment) : M (List UInt8) := do
  let words ← flashRead c ((address + al.leading + al.intermediate) / 4) 1
  pure ((bytesOf words).take al.final)

/-- The three parts are read in the order of the code and stand in the output
buffer one behind the other. -/
def readUint32AsUint8 (c : Config) (address lengthData : Nat) : M (List UInt8) := do
  Proc.failIf (getSize c < (address + lengthData) % 2 ^ 32) .invalidParam
  if lengthData = 0 then pure []
  else do
    let al := computeWordAlignedAddresses address lengthData
    let intermediate ← Proc.branch (0 < al.intermediate) (readIntermediate c address al) (pure [])
    let leading ← Proc.branch (0 < al.leading) (readLeading c address al) (pure [])
    let final ← Proc.branch (0 < al.final) (readFinal c address al) (pure [])
    pure (leading ++ intermediate ++ final)

def init (c : Config) : M Unit := do
  Proc.modify fun s => { s with lastStored := List.replicate c.lastStoredSize (-1) }
  let s ← Proc.get
  if s.initDone then pure ()
  else do
    flashInit
    Proc.modify fun s => { s with initDone := true }

def store (c : Config) (address : Nat) (data : List UInt8) : M Unit := do
  Proc.failIf (getSize c < (address + data.length) % 2 ^ 32) .invalidParam
  if data.length = 0 then pure ()
  else do
    let startPage := getPageAddress c address
    let pageFirstByte := startPage * c.pageSizeWords * 4
    let backupLength := address - pageFirstByte
    Proc.failIf (c.pageSizeWords * 4 < backupLength) .internal
    let backup ← Proc.branch (0 < backupLength)
      (readUint32AsUint8 c pageFirstByte backupLength) (pure [])
    let plan ← computePagesToErase c address data.length
    Proc.when (0 < plan.eraseNum) (flashErase c plan.erasePage plan.eraseNum)
    Proc.when (0 < backupLength ∧ plan.erasePage = startPage)
      (storeUint8AsUint32 c pageFirstByte backup)
    storeUint8AsUint32 c address data

def read (c : Config) (address lengthData : Nat) : M (List UInt8) := do
  Proc.failIf (getSize c < (address + lengthData) % 2 ^ 32) .invalidParam
  if lengthData = 0 then pure []
  else readUint32AsUint8 c address lengthData

end OpenBadge.Storage1
