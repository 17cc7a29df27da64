import OpenBadge.Fifo.ChunkFifo
import OpenBadge.Sampling.Parameters

/-!
# sampling_lib.c: starting and stopping

The five data sources with their configuration bits, sampling timers, recorded
parameters and chunk FIFOs. `app_timer_start` refuses less than five ticks and may
have no memory for the operation; it leaves a running timer as it is. A start function
ends with `timeout_start`, which first stops what has timed out meanwhile.
-/

namespace OpenBadge.Sampling

open OpenBadge.Lib

inductive Source where
  | accelerometer
  | accelerometerInterrupt
  | battery
  | microphone
  | scan
  deriving DecidableEq, Repr

inductive Timer where
  | accelerometerFifo
  | accelerometerInterruptReset
  | battery
  | microphone
  | microphoneAggregated
  | scan
  deriving DecidableEq, Repr

/-- An entry of `scan_result_data`. -/
structure ScanResult where
  id : UInt16
  rssi : Int8
  count : UInt8
  deriving DecidableEq, Repr

/-- `configuration source streaming` is the bit `SAMPLING_X` or `STREAMING_X`, a
running timer has its period in ticks, and `timerFaults` says which of the calls
of `app_timer_start` to come find no memory. `timeouts` are the active timeouts, and
`ranOut` says which of them have no time left at the calls of `timeout_start` to come.
`setupEvents` is the number of queued calls of
`sampling_setup_accelerometer_interrupt_chunk`. A chunk pointer is `none` for
`NULL`; the scan chunk at an offset of its FIFO is the list of its entries, the other
chunks are the bytes there. `timestamp` is what `systick_get_timestamp` gives at
present: seconds and milliseconds. -/
structure State where
  accel : Accel.State
  configuration : Source → Bool → Bool
  timers : Timer → Option Nat
  timerFaults : Nat → Bool
  timeouts : Source → Bool → Option UInt32
  ranOut : Nat → Source → Bool → Bool
  accelerometerParameters : AccelerometerParameters
  accelerometerInterruptIgnoreDurationMs : UInt32
  batteryParameters : BatteryParameters
  microphoneParameters : MicrophoneParameters
  microphoneAggregated : UInt32
  microphoneAggregatedCount : UInt32
  scanParameters : ScanParameters
  timestamp : UInt32 × UInt16
  setupEvents : Nat
  fifos : Source → ChunkFifo.State
  chunks : Source → Option Nat
  scanChunkAt : Nat → List ScanResult
  scanAggregatedRssi : Nat → Int
  scanning : Bool

/-- The static variables after `sampling_init`. -/
def init (accel : Accel.State) (timerFaults : Nat → Bool) (ranOut : Nat → Source → Bool → Bool) :
    State :=
  { accel, timerFaults, ranOut
    configuration := fun _ _ => false
    timers := fun _ => none
    timeouts := fun _ _ => none
    accelerometerParameters := ⟨0, 0, none, .powerDown, .g2, 0⟩
    accelerometerInterruptIgnoreDurationMs := 0
    batteryParameters := ⟨0, 0, 0⟩
    microphoneParameters := ⟨0, 0, 0⟩
    microphoneAggregated := 0
    microphoneAggregatedCount := 0
    scanParameters := ⟨0, 0, 0, 0, 0, 0, 0, 0⟩
    timestamp := (0, 0)
    setupEvents := 0
    fifos := fun _ => ChunkFifo.init fun _ => 0
    chunks := fun _ => none
    scanChunkAt := fun _ => []
    scanAggregatedRssi := fun _ => 0
    scanning := false }

abbrev M := Proc State RetCode

/-- The chunk FIFOs that `sampling_init` sets up, with the sizes of the chunk structures. -/
def chunkFifo : Source → ChunkFifo.Config
  | .accelerometer => ⟨2, 212, 0, by decide, by decide⟩
  | .accelerometerInterrupt => ⟨2, 8, 0, by decide, by decide⟩
  | .battery => ⟨2, 12, 0, by decide, by decide⟩
  | .microphone => ⟨3, 128, 0, by decide, by decide⟩
  | .scan => ⟨1, 1540, 0, by decide, by decide⟩

def onAccel {α : Type} (x : Accel.M α) : M α :=
  Proc.within State.accel (fun s accel => { s with accel }) x

/-! ## Timers, bits and chunks -/

/-- `APP_TIMER_TICKS`, a rounded division in 64 bits that is cut to 32. -/
def appTimerTicks (ms : Nat) : Nat := (ms * 32768 + 500) / 1000 % 2 ^ 32

/-- `APP_TIMER_MIN_TIMEOUT_TICKS`. -/
def minTimeoutTicks : Nat := 5

/-- The ticks of `microphone_aggregated_period_ms`, which is 1000/700 ms. -/
def microphoneAggregatedTicks : Nat := 47

def appTimerStart (timer : Timer) (ticks : Nat) : M Unit := fun s =>
  let t := { s with timerFaults := fun i => s.timerFaults (i + 1) }
  if ticks < minTimeoutTicks then (.error .invalidParam, t)
  else if s.timerFaults 0 then (.error .noMem, t)
  else if (s.timers timer).isSome then (.ok (), t)
  else (.ok (), { t with timers := Function.update s.timers timer (some ticks) })

def appTimerStop (timer : Timer) : M Unit :=
  Proc.modify fun s => { s with timers := Function.update s.timers timer none }

/-- The calls of `app_timer_stop` for the timers of a source. -/
def stopTimers : List (Timer × Nat) → M Unit
  | [] => pure ()
  | (timer, _) :: rest => do
    appTimerStop timer
    stopTimers rest

/-- The calls of `app_timer_start` for the timers of a source with their ticks. -/
def startTimers : List (Timer × Nat) → M Unit
  | [] => pure ()
  | (timer, ticks) :: rest => do
    appTimerStart timer ticks
    startTimers rest

def setBit (source : Source) (streaming value : Bool) : M Unit :=
  Proc.modify fun s =>
    { s with
      configuration := Function.update s.configuration source
        (Function.update (s.configuration source) streaming value) }

/-- `chunk_fifo_write_open` on the FIFO of a source. -/
def openChunk (source : Source) : M Unit :=
  Proc.modify fun s =>
    let fifo := ChunkFifo.writeOpen (chunkFifo source) (s.fifos source)
    { s with
      fifos := Function.update s.fifos source fifo
      chunks := Function.update s.chunks source (some fifo.writePtr) }

/-- `chunk_fifo_write_close`. -/
def closeChunk (source : Source) : M Unit :=
  Proc.modify fun s =>
    { s with
      fifos := Function.update s.fifos source
        (ChunkFifo.writeClose (chunkFifo source) (s.fifos source)) }

/-- The bytes of a number in memory, the lowest first. -/
def littleEndian : Nat → Nat → List UInt8
  | 0, _ => []
  | len + 1, n => UInt8.ofNat n :: littleEndian len (n / 256)

/-- An assignment to the bytes from `offset` on of the chunk behind the pointer; nothing is
written to address 0. -/
def writeChunk (source : Source) (offset : Nat) (data : List UInt8) : M Unit :=
  Proc.modify fun s =>
    match s.chunks source with
    | none => s
    | some ptr =>
      { s with
        fifos := Function.update s.fifos source
          { s.fifos source with buf := overwrite (s.fifos source).buf (ptr + offset) data } }

/-- `systick_get_timestamp` to the timestamp of the chunk. -/
def stampChunk (source : Source) : M Unit := do
  let s ← Proc.get
  writeChunk source 0 (littleEndian 4 s.timestamp.1.toNat ++ littleEndian 2 s.timestamp.2.toNat)

/-! ## Stopping -/

/-- What the stop functions have in common: the timers stop and the source is released when
the bit of the other kind is not set. -/
def stopSampling (source : Source) (timers : List (Timer × Nat)) (release : M Unit)
    (streaming : Bool) : M Unit := do
  let s ← Proc.get
  Proc.when (s.configuration source (!streaming) = false) do
    stopTimers timers
    release
  setBit source streaming false

/-- Neither bit of a source is set. -/
def State.Off (s : State) (source : Source) : Prop :=
  s.configuration source false = false ∧ s.configuration source true = false

instance (s : State) (source : Source) : Decidable (s.Off source) :=
  inferInstanceAs (Decidable (_ ∧ _))

def accelerometerTimers (periodMs : UInt16) : List (Timer × Nat) :=
  [(.accelerometerFifo, appTimerTicks periodMs.toNat)]

/-- Stopping does not read the ticks of a timer. -/
def stopAccelerometer (streaming : Bool) : M Unit := do
  let s ← Proc.get
  stopSampling .accelerometer (accelerometerTimers 0)
    (Proc.when (s.Off .accelerometerInterrupt) (onAccel (Accel.setOperatingMode .powerDown)))
    streaming

def stopAccelerometerInterrupt (streaming : Bool) : M Unit := do
  let s ← Proc.get
  stopSampling .accelerometerInterrupt []
    (do
      onAccel (Accel.setInterrupt .noInterrupt)
      Proc.when (s.Off .accelerometer) (onAccel (Accel.setOperatingMode .powerDown)))
    streaming

def batteryTimers (periodMs : UInt32) : List (Timer × Nat) :=
  [(.battery, appTimerTicks periodMs.toNat)]

def stopBattery (streaming : Bool) : M Unit :=
  stopSampling .battery (batteryTimers 0) (pure ()) streaming

def microphoneTimers (periodMs : UInt16) : List (Timer × Nat) :=
  [(.microphone, appTimerTicks periodMs.toNat), (.microphoneAggregated, microphoneAggregatedTicks)]

def stopMicrophone (streaming : Bool) : M Unit :=
  stopSampling .microphone (microphoneTimers 0) (pure ()) streaming

def scanTimers (periodSeconds : UInt16) : List (Timer × Nat) :=
  [(.scan, appTimerTicks (periodSeconds.toNat * 1000))]

def scannerStopScanning : M Unit := Proc.modify fun s => { s with scanning := false }

def stopScan (streaming : Bool) : M Unit :=
  stopSampling .scan (scanTimers 0) scannerStopScanning streaming

/-- `sampling_stop_X`. -/
def stop : Source → Bool → M Unit
  | .accelerometer => stopAccelerometer
  | .accelerometerInterrupt => stopAccelerometerInterrupt
  | .battery => stopBattery
  | .microphone => stopMicrophone
  | .scan => stopScan

/-! ## timeout_lib.c -/

/-- The timeouts in the order in which `sampling_init` registers them. -/
def registeredTimeouts : List (Source × Bool) :=
  [(.accelerometer, false), (.accelerometer, true), (.accelerometerInterrupt, false),
    (.accelerometerInterrupt, true), (.battery, false), (.battery, true), (.microphone, false),
    (.microphone, true), (.scan, false), (.scan, true)]

def setTimeout (source : Source) (streaming : Bool) (timeoutMs : Option UInt32) : M Unit :=
  Proc.modify fun s =>
    { s with
      timeouts := Function.update s.timeouts source
        (Function.update (s.timeouts source) streaming timeoutMs) }

/-- An active timeout ends and calls `sampling_timeout_X`. -/
def timeout (source : Source) (streaming : Bool) : M Unit := do
  let s ← Proc.get
  Proc.when ((s.timeouts source streaming).isSome) do
    let _ ← Proc.attempt (stop source streaming)
    setTimeout source streaming none

/-- The timeouts of the list that have no time left end. -/
def adaptRemainingMs (ranOut : Source → Bool → Bool) : List (Source × Bool) → M Unit
  | [] => pure ()
  | (source, streaming) :: rest => do
    Proc.when (ranOut source streaming) (timeout source streaming)
    adaptRemainingMs ranOut rest

/-- No milliseconds mean no timeout. The timer of the timeouts is left out; no function of
`sampling_lib.c` looks at the result of its start. -/
def timeoutStart (source : Source) (streaming : Bool) (timeoutMs : UInt32) : M Unit :=
  Proc.branch (timeoutMs = 0) (setTimeout source streaming none) do
    let s ← Proc.get
    Proc.modify fun s => { s with ranOut := fun i => s.ranOut (i + 1) }
    adaptRemainingMs (s.ranOut 0) registeredTimeouts
    setTimeout source streaming (some timeoutMs)

/-! ## Starting -/

/-- The end of a start function, once it has recorded its parameters. -/
def startSampling (source : Source) (timers : List (Timer × Nat)) (setup : M Unit)
    (timeoutMs : UInt32) (changed streaming : Bool) : M Unit := do
  let s ← Proc.get
  match streaming with
  | false =>
    Proc.when (s.configuration source false = false ∨ changed) do
      stopTimers timers
      setup
      startTimers timers
      setBit source false true
      timeoutStart source false timeoutMs
  | true => do
    Proc.branch (s.configuration source false ∧ changed)
      (do
        stopTimers timers
        setup
        startTimers timers)
      (Proc.when (s.configuration source false = false) do
        stopTimers timers
        startTimers timers)
    setBit source true true
    timeoutStart source true timeoutMs

/-- The offset of `accelerometer_data_count`. -/
def accelerometerCount : Nat := 8

def setupAccelerometerChunk : M Unit := do
  openChunk .accelerometer
  stampChunk .accelerometer
  writeChunk .accelerometer accelerometerCount [0]

def startAccelerometer (r : AccelerometerRequest) : M Unit := do
  onAccel (Accel.setFullScale r.accelerometerFullScale)
  onAccel (Accel.setDatarate r.accelerometerDatarate)
  onAccel (Accel.setOperatingMode r.accelerometerOperatingMode)
  let s ← Proc.get
  Proc.modify fun s => { s with accelerometerParameters := s.accelerometerParameters.update r }
  startSampling .accelerometer (accelerometerTimers r.fifoSamplingPeriodMs)
    setupAccelerometerChunk r.timeoutMs (s.accelerometerParameters.changed r) r.streaming

/-- The result of the reset is not looked at. -/
def setupAccelerometerInterruptChunk : M Unit := do
  openChunk .accelerometerInterrupt
  let _ ← Proc.attempt (onAccel Accel.resetInterrupt)

def startAccelerometerInterrupt (r : InterruptRequest) : M Unit := do
  let s ← Proc.get
  Proc.when (s.Off .accelerometer) do
    onAccel (Accel.setFullScale .g4)
    onAccel (Accel.setDatarate .hz10)
    onAccel (Accel.setOperatingMode .lowPower)
  onAccel (Accel.setMotionInterruptParameters r.thresholdMg r.minimalDurationMs)
  onAccel (Accel.setInterruptHandler (some .samplingAccelerometerInterruptCallback))
  onAccel (Accel.setInterrupt .motionInterrupt)
  Proc.modify fun s => { s with accelerometerInterruptIgnoreDurationMs := r.ignoreDurationMs }
  match r.streaming with
  | false => do
    setupAccelerometerInterruptChunk
    setBit .accelerometerInterrupt false true
    timeoutStart .accelerometerInterrupt false r.timeoutMs
  | true => do
    setBit .accelerometerInterrupt true true
    timeoutStart .accelerometerInterrupt true r.timeoutMs

def setupBatteryChunk : M Unit := openChunk .battery

def startBattery (r : BatteryRequest) : M Unit := do
  let s ← Proc.get
  Proc.modify fun s => { s with batteryParameters := s.batteryParameters.update r }
  startSampling .battery (batteryTimers r.periodMs) setupBatteryChunk r.timeoutMs
    (s.batteryParameters.changed r) r.streaming

/-- The offsets of `sample_period_ms` and `microphone_data_count`. -/
def microphoneSamplePeriod : Nat := 8

def microphoneCount : Nat := 10

def setupMicrophoneChunk : M Unit := do
  Proc.modify fun s => { s with microphoneAggregated := 0, microphoneAggregatedCount := 0 }
  openChunk .microphone
  stampChunk .microphone
  let s ← Proc.get
  writeChunk .microphone microphoneSamplePeriod
    (littleEndian 2 s.microphoneParameters.periodMs.toNat)
  writeChunk .microphone microphoneCount [0]

def startMicrophone (r : MicrophoneRequest) : M Unit := do
  let s ← Proc.get
  Proc.modify fun s => { s with microphoneParameters := s.microphoneParameters.update r }
  startSampling .microphone (microphoneTimers r.periodMs) setupMicrophoneChunk r.timeoutMs
    (s.microphoneParameters.changed r) r.streaming

/-- No chunk is opened here. -/
def startScan (r : ScanRequest) : M Unit := do
  let s ← Proc.get
  Proc.modify fun s => { s with scanParameters := s.scanParameters.update r }
  startSampling .scan (scanTimers r.periodSeconds) (pure ()) r.timeoutMs
    (s.scanParameters.changed r) r.streaming

/-! ## The motion interrupt -/

/-- The event for the processing is left out, as is the record that goes to the stream. -/
def accelerometerInterruptCallback : M Unit := do
  let s ← Proc.get
  Proc.when (¬ s.Off .accelerometerInterrupt) do
    Proc.when (s.configuration .accelerometerInterrupt false) do
      stampChunk .accelerometerInterrupt
      closeChunk .accelerometerInterrupt
    let _ ← Proc.attempt (appTimerStart .accelerometerInterruptReset
      (appTimerTicks s.accelerometerInterruptIgnoreDurationMs.toNat))

/-! ## Calls -/

/-- What one of the start functions is called with. -/
inductive Request where
  | accelerometer (r : AccelerometerRequest)
  | accelerometerInterrupt (r : InterruptRequest)
  | battery (r : BatteryRequest)
  | microphone (r : MicrophoneRequest)
  | scan (r : ScanRequest)

def start : Request → M Unit
  | .accelerometer r => startAccelerometer r
  | .accelerometerInterrupt r => startAccelerometerInterrupt r
  | .battery r => startBattery r
  | .microphone r => startMicrophone r
  | .scan r => startScan r

inductive Call where
  | start (r : Request)
  | stop (source : Source) (streaming : Bool)
  | timeout (source : Source) (streaming : Bool)
  | selftest (fires : Bool)

def exec : Call → M Unit
  | .start r => start r
  | .stop source streaming => stop source streaming
  | .timeout source streaming => timeout source streaming
  | .selftest fires => do
    let _ ← onAccel (Accel.selftest fires)

def step (s : State) (c : Call) : State := (exec c s).2

end OpenBadge.Sampling
