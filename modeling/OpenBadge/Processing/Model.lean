import OpenBadge.Sampling.Model

/-!
# processing_lib.c

A processing function takes the chunks out of the FIFO of its source and stores them.
When the storer is busy, it puts itself into the scheduler again and leaves the chunk
open. The five functions differ in the FIFO, in what they do to the chunk in the FIFO
and in what they hand over to the storer.
-/

namespace OpenBadge.Processing

open OpenBadge.Lib OpenBadge.Sampling

structure Timestamp where
  seconds : UInt32
  ms : UInt16
  deriving DecidableEq, Repr

/-- The voltage is the bits of a `float`. -/
structure BatteryChunk where
  timestamp : Timestamp
  voltage : UInt32
  deriving DecidableEq, Repr

structure MicrophoneChunk where
  timestamp : Timestamp
  samplePeriodMs : UInt16
  microphoneData : List UInt8
  deriving DecidableEq, Repr

/-- The count is the number of entries. -/
structure ScanSamplingChunk where
  timestamp : Timestamp
  scanResultData : List ScanResult
  deriving DecidableEq, Repr

structure ScanChunk where
  timestamp : Timestamp
  scanResultData : List ScanResult
  deriving DecidableEq, Repr

structure AccelerometerChunk where
  timestamp : Timestamp
  accelerometerData : List UInt16
  deriving DecidableEq, Repr

structure AccelerometerInterruptChunk where
  timestamp : Timestamp
  deriving DecidableEq, Repr

/-! ## The order of the scan results -/

def scanBeaconIdThreshold : UInt16 := 16000

def scanPrioritizedBeacons : Nat := 4

def scanChunkDataSize : Nat := 29

def isBeacon (r : ScanResult) : Bool := r.id ≥ scanBeaconIdThreshold

def compareByBeacon (a b : ScanResult) : Int :=
  if isBeacon a = true ∧ isBeacon b = false then -1
  else if isBeacon a = false ∧ isBeacon b = true then 1
  else 0

def compareByRssi (a b : ScanResult) : Int :=
  if a.rssi > b.rssi then -1 else if a.rssi < b.rssi then 1 else 0

/-- A comparison that `qsort` can work with. -/
structure Consistent {α : Type} (compare : α → α → Int) : Prop where
  total : ∀ a b, compare a b ≤ 0 ∨ compare b a ≤ 0
  trans : ∀ a b c, compare a b ≤ 0 → compare b c ≤ 0 → compare a c ≤ 0

/-- `qsort` of the C library, which may leave equal elements in any order. -/
structure Qsort (α : Type) where
  sort : (α → α → Int) → List α → List α
  perm : ∀ compare l, (sort compare l).Perm l
  sorted : ∀ compare l, Consistent compare → (sort compare l).Pairwise fun a b => compare a b ≤ 0

/-- `qsort` on `count` elements from `start` on. -/
def Qsort.range {α : Type} (q : Qsort α) (compare : α → α → Int) (start count : Nat)
    (l : List α) : List α :=
  l.take start ++ q.sort compare ((l.drop start).take count) ++ l.drop (start + count)

def sortScan (q : Qsort ScanResult) (results : List ScanResult) : List ScanResult :=
  let numBeacons := results.countP isBeacon
  let results := q.range compareByBeacon 0 results.length results
  let results := q.range compareByRssi 0 numBeacons results
  let prioritizedBeacons :=
    if numBeacons > scanPrioritizedBeacons then scanPrioritizedBeacons else numBeacons
  q.range compareByRssi prioritizedBeacons (results.length - numBeacons) results

/-- The scan chunk in the FIFO is sorted and cut in place when it holds too many devices. -/
def reduceScan (q : Qsort ScanResult) (chunk : ScanSamplingChunk) : ScanSamplingChunk :=
  if chunk.scanResultData.length > scanChunkDataSize then
    { chunk with
      scanResultData := (sortScan q chunk.scanResultData).take scanChunkDataSize }
  else chunk

/-- `scan_chunk` as it is filled from the chunk in the FIFO. -/
def toScanChunk (chunk : ScanSamplingChunk) : ScanChunk :=
  ⟨chunk.timestamp, chunk.scanResultData⟩

/-- The array of `scan_chunk` has room for what is copied into it. -/
theorem reduceScan_length_le (q : Qsort ScanResult) (chunk : ScanSamplingChunk) :
    (reduceScan q chunk).scanResultData.length ≤ scanChunkDataSize := by
  rw [reduceScan]
  split
  · exact List.length_take_le _ _
  · rename_i h
    exact Nat.not_lt.mp h

/-- A chunk that was reduced is not touched again. -/
theorem reduceScan_reduceScan (q : Qsort ScanResult) (chunk : ScanSamplingChunk) :
    reduceScan q (reduceScan q chunk) = reduceScan q chunk := by
  conv_lhs => rw [reduceScan]
  exact if_neg (Nat.not_lt.mpr (reduceScan_length_le q chunk))

/-! ## The functions -/

/-- What a processing function works with. -/
structure ChunkKind (α β : Type) where
  fifo : ChunkFifo.Config
  reduce : α → α
  convert : α → β
  slotSize_pos : 0 < fifo.slotSize
  reduce_reduce : ∀ a, reduce (reduce a) = reduce a

def processAccelerometerChunk : ChunkKind AccelerometerChunk AccelerometerChunk :=
  ⟨chunkFifo .accelerometer, id, id, by decide, fun _ => rfl⟩

def processAccelerometerInterruptChunk :
    ChunkKind AccelerometerInterruptChunk AccelerometerInterruptChunk :=
  ⟨chunkFifo .accelerometerInterrupt, id, id, by decide, fun _ => rfl⟩

def processBatteryChunk : ChunkKind BatteryChunk BatteryChunk :=
  ⟨chunkFifo .battery, id, id, by decide, fun _ => rfl⟩

def processMicrophoneChunk : ChunkKind MicrophoneChunk MicrophoneChunk :=
  ⟨chunkFifo .microphone, id, id, by decide, fun _ => rfl⟩

def processScanSamplingChunk (q : Qsort ScanResult) : ChunkKind ScanSamplingChunk ScanChunk :=
  ⟨chunkFifo .scan, reduceScan q, toScanChunk, by decide, reduceScan_reduceScan q⟩

variable {α β : Type}

/-- What is stored of a chunk. -/
def ChunkKind.form (k : ChunkKind α β) (a : α) : β := k.convert (k.reduce a)

/-- Where a call of the function stands: in front of `chunk_fifo_read_open`, behind it,
with what it hands over to the storer, or with the storer's answer. -/
inductive Place (β : Type) where
  | idle
  | opening
  | opened
  | storing (handed : β)
  | answered (ret : Except RetCode Unit)
  deriving DecidableEq

/-- The FIFO with the chunks behind its pointers, the number of calls of the function
that the scheduler holds, and the call that runs. Next to them stand the chunks that
were closed and those of them that the FIFO took, and the calls of the storer with
their answers. -/
structure State (α β : Type) where
  fifo : ChunkFifo.State
  chunkAt : Nat → α
  events : Nat
  place : Place β
  closed : List α
  committed : List α
  attempts : List (β × Except RetCode Unit)

def init (chunkAt : Nat → α) : State α β :=
  { chunkAt
    fifo := ChunkFifo.init fun _ => 0
    events := 0
    place := .idle
    closed := []
    committed := []
    attempts := [] }

/-- The sampling opens a chunk, works on it and commits it; the scheduler takes an event;
and the running call takes its next step, with the answer of the storer if it calls it. -/
inductive Action (α : Type) where
  | writeOpen
  | work (f : α → α)
  | commit
  | dispatch
  | proceed (ret : Except RetCode Unit)

section Steps

variable (k : ChunkKind α β) (s : State α β)

def writeOpen : State α β := { s with fifo := ChunkFifo.writeOpen k.fifo s.fifo }

def work (f : α → α) : State α β :=
  if s.fifo.chunkOpenWrite then
    { s with
      chunkAt := Function.update s.chunkAt s.fifo.writePtr (f (s.chunkAt s.fifo.writePtr)) }
  else s

/-- The FIFO takes a chunk when the write position moves. -/
def commit : State α β :=
  let fifo := ChunkFifo.writeClose k.fifo s.fifo
  { s with
    fifo
    events := s.events + 1
    closed :=
      if s.fifo.chunkOpenWrite then s.closed ++ [s.chunkAt s.fifo.writePtr] else s.closed
    committed :=
      if fifo.chunkWritePos = s.fifo.chunkWritePos then s.committed
      else s.committed ++ [s.chunkAt s.fifo.writePtr] }

/-- One event is executed after the other. -/
def dispatch : State α β :=
  match s.place, s.events with
  | .idle, events + 1 => { s with events, place := .opening }
  | _, _ => s

/-- The next step of the `while` loop. -/
def proceed (ret : Except RetCode Unit) : State α β :=
  match s.place with
  | .idle => s
  | .opening =>
    match ChunkFifo.readOpen k.fifo s.fifo with
    | (.ok _, fifo) => { s with fifo, place := .opened }
    | (.error _, _) => { s with place := .idle }
  | .opened =>
    { s with
      chunkAt := Function.update s.chunkAt s.fifo.readPtr (k.reduce (s.chunkAt s.fifo.readPtr))
      place := .storing (k.convert (k.reduce (s.chunkAt s.fifo.readPtr))) }
  | .storing handed =>
    { s with attempts := s.attempts ++ [(handed, ret)], place := .answered ret }
  | .answered ret =>
    if ret = .error .internal then { s with events := s.events + 1, place := .idle }
    else { s with fifo := ChunkFifo.readClose k.fifo s.fifo, place := .opening }

def step : Action α → State α β
  | .writeOpen => writeOpen k s
  | .work f => work s f
  | .commit => commit k s
  | .dispatch => dispatch s
  | .proceed ret => proceed k s ret

end Steps

end OpenBadge.Processing
