import OpenBadge.Sampling.Model

/-!
# sampling_lib.c: the scanner's callbacks

The scan timer opens a chunk and starts the scanner, which reports the devices it
hears until the scan is over. The callbacks handle what the SoftDevice reports whenever
it comes; `scanning` records whether a scan runs, and no callback reads it.
-/

namespace OpenBadge.Sampling

open OpenBadge.Lib

/-- `scanner_scan_report_t` without the type of the device. -/
structure Report where
  id : UInt16
  group : UInt8
  rssi : Int8
  deriving DecidableEq, Repr

/-! ## The contents of a chunk -/

/-- `AGGREGATE_SCAN_SAMPLE_MAX` and `AGGREGATE_SCAN_SAMPLE_MEAN`. -/
def aggregateScanSample (aggregationType : UInt8) (aggregated sample : Int) : Int :=
  if aggregationType = 0 then
    if aggregated > sample then aggregated else sample
  else sample + aggregated

/-- `PROCESS_SCAN_SAMPLE_MAX` and `PROCESS_SCAN_SAMPLE_MEAN`, cut to eight bits. -/
def processScanSample (aggregationType : UInt8) (aggregated : Int) (count : UInt8) : Int8 :=
  Int8.ofInt (if aggregationType = 0 then aggregated else aggregated.tdiv count.toNat)

/-- The loop over the entries from number `i` on; `none` if the device is not among them. -/
def countReport (aggregationType : UInt8) (r : Report) (aggregated : Nat → Int) :
    Nat → List ScanResult → Option (List ScanResult × (Nat → Int))
  | _, [] => none
  | i, entry :: rest =>
    if entry.id = r.id then
      if entry.count < 255 then
        some ({ entry with count := entry.count + 1 } :: rest,
          Function.update aggregated i
            (aggregateScanSample aggregationType (aggregated i) r.rssi.toInt))
      else some (entry :: rest, aggregated)
    else (countReport aggregationType r aggregated (i + 1) rest).map fun p => (entry :: p.1, p.2)

/-- `SCAN_SAMPLING_CHUNK_DATA_SIZE`. -/
def scanSamplingChunkDataSize : Nat := 255

/-- The entries and `scan_aggregated_rssi` after a report. -/
def addReport (aggregationType : UInt8) (r : Report) (chunk : List ScanResult)
    (aggregated : Nat → Int) : List ScanResult × (Nat → Int) :=
  match countReport aggregationType r aggregated 0 chunk with
  | some p => p
  | none =>
    if chunk.length < scanSamplingChunkDataSize then
      (chunk ++ [⟨r.id, 0, 1⟩], Function.update aggregated chunk.length r.rssi.toInt)
    else (chunk, aggregated)

/-- The entries with the RSSI values that are made of the aggregated ones. -/
def processReports (aggregationType : UInt8) (chunk : List ScanResult) (aggregated : Nat → Int) :
    List ScanResult :=
  chunk.mapIdx fun i entry =>
    { entry with rssi := processScanSample aggregationType (aggregated i) entry.count }

/-! ## The callbacks -/

/-- Work on `*scan_sampling_chunk` and `scan_aggregated_rssi`. There is no chunk behind
`NULL`. -/
def onScanChunk (f : List ScanResult → (Nat → Int) → List ScanResult × (Nat → Int)) : M Unit :=
  Proc.modify fun s =>
    match s.chunks .scan with
    | none => s
    | some ptr =>
      { s with
        scanChunkAt := Function.update s.scanChunkAt ptr
          (f (s.scanChunkAt ptr) s.scanAggregatedRssi).1
        scanAggregatedRssi := (f (s.scanChunkAt ptr) s.scanAggregatedRssi).2 }

def setupScanSamplingChunk : M Unit := do
  openChunk .scan
  onScanChunk fun _ aggregated => ([], aggregated)

/-- The event for the processing is left out. -/
def finalizeScanSamplingChunk : M Unit := do
  let s ← Proc.get
  onScanChunk fun chunk aggregated =>
    (processReports s.scanParameters.aggregationType chunk aggregated, aggregated)
  closeChunk .scan

def onScanTimeoutCallback : M Unit := do
  let s ← Proc.get
  Proc.when (s.configuration .scan false) finalizeScanSamplingChunk

/-- The record for the stream is left out. -/
def onScanReportCallback (r : Report) : M Unit := do
  let s ← Proc.get
  Proc.when (r.group = s.scanParameters.groupFilter ∧ s.configuration .scan false = true)
    (onScanChunk (addReport s.scanParameters.aggregationType r))

/-- A running scan is stopped first; `accepted` is what the SoftDevice answers to the
new one. -/
def scannerStartScanning (accepted : Bool) : M Unit := do
  Proc.modify fun s => { s with scanning := false }
  Proc.failIf (accepted = false) .invalidState
  Proc.modify fun s => { s with scanning := true }

def scanCallback (accepted : Bool) : M Unit := do
  let s ← Proc.get
  Proc.when (s.configuration .scan false) setupScanSamplingChunk
  match ← Proc.attempt (scannerStartScanning accepted) with
  | .ok _ => pure ()
  | .error _ => onScanTimeoutCallback

/-! ## Actions -/

/-- The calls of the scan functions, what happens to the scanner, and the reader of the
chunk FIFO. -/
inductive ScanAction where
  | start (r : ScanRequest)
  | stop (streaming : Bool)
  | timeout (streaming : Bool)
  | timerExpires (accepted : Bool)
  | report (r : Report)
  | scanEnds
  | readOpen
  | readClose

def onScanFifo (f : ChunkFifo.State → ChunkFifo.State) : M Unit :=
  Proc.modify fun s => { s with fifos := Function.update s.fifos .scan (f (s.fifos .scan)) }

def scanExec : ScanAction → M Unit
  | .start r => startScan r
  | .stop streaming => stopScan streaming
  | .timeout streaming => timeout .scan streaming
  | .timerExpires accepted => scanCallback accepted
  | .report r => onScanReportCallback r
  | .scanEnds => do
    Proc.modify fun s => { s with scanning := false }
    onScanTimeoutCallback
  | .readOpen => onScanFifo fun fifo => (ChunkFifo.readOpen (chunkFifo .scan) fifo).2
  | .readClose => onScanFifo (ChunkFifo.readClose (chunkFifo .scan))

def scanStep (s : State) (a : ScanAction) : State := (scanExec a s).2

end OpenBadge.Sampling
