import OpenBadge.Lib.Program
import OpenBadge.Lib.Run
import OpenBadge.Sampling.Interleaving

/-!
# sampling_lib.c: the callbacks between the calls

The start and stop functions taken apart into their calls, so that the callbacks of the
timers and of INT1 run between any two of them, and the callbacks that fill the chunks.
Every step that reads or writes behind a chunk pointer carries a label that says so.
-/

namespace OpenBadge.Sampling

open OpenBadge.Lib

/-- What a step does to the chunks: nothing, it opens or closes one, or it reads or writes
behind the pointer, for a sample with its index in the array of the data. -/
inductive Event where
  | call
  | opened (source : Source)
  | closed (source : Source)
  | access (source : Source) (index : Option Nat)
  deriving DecidableEq, Repr

abbrev P := Program Event State RetCode

instance : MonadLift M P := ⟨Program.call .call⟩

namespace Interrupted

/-! ## The calls -/

def openChunk (source : Source) : P Unit := .call (.opened source) (Sampling.openChunk source)

def closeChunk (source : Source) : P Unit := .call (.closed source) (Sampling.closeChunk source)

def stampChunk (source : Source) : P Unit :=
  .call (.access source none) (Sampling.stampChunk source)

def writeChunk (source : Source) (index : Option Nat) (offset : Nat) (data : List UInt8) : P Unit :=
  .call (.access source index) (Sampling.writeChunk source offset data)

/-- The state when something of the chunk is read. -/
def lookChunk (source : Source) : P State := .call (.access source none) Proc.get

def stopTimers : List (Timer × Nat) → P Unit
  | [] => pure ()
  | (timer, _) :: rest => do
    appTimerStop timer
    stopTimers rest

def startTimers : List (Timer × Nat) → P Unit
  | [] => pure ()
  | (timer, ticks) :: rest => do
    appTimerStart timer ticks
    startTimers rest

/-! ## Stopping -/

def stopSampling (source : Source) (timers : List (Timer × Nat)) (release : P Unit)
    (streaming : Bool) : P Unit := do
  let s ← (Proc.get : M State)
  Program.when (s.configuration source (!streaming) = false) do
    stopTimers timers
    release
  setBit source streaming false

def stopAccelerometer (streaming : Bool) : P Unit := do
  let s ← (Proc.get : M State)
  stopSampling .accelerometer (accelerometerTimers 0)
    (Program.when (s.Off .accelerometerInterrupt)
      (onAccel (Accel.setOperatingMode .powerDown) : M Unit))
    streaming

def stopAccelerometerInterrupt (streaming : Bool) : P Unit := do
  let s ← (Proc.get : M State)
  stopSampling .accelerometerInterrupt []
    (do
      onAccel (Accel.setInterrupt .noInterrupt)
      Program.when (s.Off .accelerometer)
        (onAccel (Accel.setOperatingMode .powerDown) : M Unit))
    streaming

def stopBattery (streaming : Bool) : P Unit :=
  stopSampling .battery (batteryTimers 0) (pure ()) streaming

def stopMicrophone (streaming : Bool) : P Unit :=
  stopSampling .microphone (microphoneTimers 0) (pure ()) streaming

def stopScan (streaming : Bool) : P Unit :=
  stopSampling .scan (scanTimers 0) scannerStopScanning streaming

def stop : Source → Bool → P Unit
  | .accelerometer => stopAccelerometer
  | .accelerometerInterrupt => stopAccelerometerInterrupt
  | .battery => stopBattery
  | .microphone => stopMicrophone
  | .scan => stopScan

def timeout (source : Source) (streaming : Bool) : P Unit := do
  let s ← (Proc.get : M State)
  Program.when ((s.timeouts source streaming).isSome) do
    let _ ← (stop source streaming).attempt
    setTimeout source streaming none

def adaptRemainingMs (ranOut : Source → Bool → Bool) : List (Source × Bool) → P Unit
  | [] => pure ()
  | (source, streaming) :: rest => do
    Program.when (ranOut source streaming) (timeout source streaming)
    adaptRemainingMs ranOut rest

def timeoutStart (source : Source) (streaming : Bool) (timeoutMs : UInt32) : P Unit :=
  Program.branch (timeoutMs = 0) (setTimeout source streaming none : M Unit) do
    let s ← (Proc.get : M State)
    (Proc.modify fun s => { s with ranOut := fun i => s.ranOut (i + 1) } : M Unit)
    adaptRemainingMs (s.ranOut 0) registeredTimeouts
    setTimeout source streaming (some timeoutMs)

/-! ## Starting -/

def startSampling (source : Source) (timers : List (Timer × Nat)) (setup : P Unit)
    (timeoutMs : UInt32) (changed streaming : Bool) : P Unit := do
  let s ← (Proc.get : M State)
  match streaming with
  | false =>
    Program.when (s.configuration source false = false ∨ changed) do
      stopTimers timers
      setup
      startTimers timers
      setBit source false true
      timeoutStart source false timeoutMs
  | true => do
    Program.branch (s.configuration source false ∧ changed)
      (do
        stopTimers timers
        setup
        startTimers timers)
      (Program.when (s.configuration source false = false) do
        stopTimers timers
        startTimers timers)
    setBit source true true
    timeoutStart source true timeoutMs

def setupAccelerometerChunk : P Unit := do
  openChunk .accelerometer
  stampChunk .accelerometer
  writeChunk .accelerometer none accelerometerCount [0]

def startAccelerometer (r : AccelerometerRequest) : P Unit := do
  onAccel (Accel.setFullScale r.accelerometerFullScale)
  onAccel (Accel.setDatarate r.accelerometerDatarate)
  onAccel (Accel.setOperatingMode r.accelerometerOperatingMode)
  let s ← (Proc.get : M State)
  (Proc.modify fun s =>
    { s with accelerometerParameters := s.accelerometerParameters.update r } : M Unit)
  startSampling .accelerometer (accelerometerTimers r.fifoSamplingPeriodMs)
    setupAccelerometerChunk r.timeoutMs (s.accelerometerParameters.changed r) r.streaming

def setupAccelerometerInterruptChunk : P Unit := do
  openChunk .accelerometerInterrupt
  let _ ← Proc.attempt (onAccel Accel.resetInterrupt)

def startAccelerometerInterrupt (r : InterruptRequest) : P Unit := do
  let s ← (Proc.get : M State)
  Program.when (s.Off .accelerometer) do
    onAccel (Accel.setFullScale .g4)
    onAccel (Accel.setDatarate .hz10)
    onAccel (Accel.setOperatingMode .lowPower)
  onAccel (Accel.setMotionInterruptParameters r.thresholdMg r.minimalDurationMs)
  onAccel (Accel.setInterruptHandler (some .samplingAccelerometerInterruptCallback))
  onAccel (Accel.setInterrupt .motionInterrupt)
  (Proc.modify fun s =>
    { s with accelerometerInterruptIgnoreDurationMs := r.ignoreDurationMs } : M Unit)
  match r.streaming with
  | false => do
    setupAccelerometerInterruptChunk
    setBit .accelerometerInterrupt false true
    timeoutStart .accelerometerInterrupt false r.timeoutMs
  | true => do
    setBit .accelerometerInterrupt true true
    timeoutStart .accelerometerInterrupt true r.timeoutMs

def startBattery (r : BatteryRequest) : P Unit := do
  let s ← (Proc.get : M State)
  (Proc.modify fun s => { s with batteryParameters := s.batteryParameters.update r } : M Unit)
  startSampling .battery (batteryTimers r.periodMs) (openChunk .battery) r.timeoutMs
    (s.batteryParameters.changed r) r.streaming

def setupMicrophoneChunk : P Unit := do
  (Proc.modify fun s =>
    { s with microphoneAggregated := 0, microphoneAggregatedCount := 0 } : M Unit)
  openChunk .microphone
  stampChunk .microphone
  let s ← (Proc.get : M State)
  writeChunk .microphone none microphoneSamplePeriod
    (littleEndian 2 s.microphoneParameters.periodMs.toNat)
  writeChunk .microphone none microphoneCount [0]

def startMicrophone (r : MicrophoneRequest) : P Unit := do
  let s ← (Proc.get : M State)
  (Proc.modify fun s => { s with microphoneParameters := s.microphoneParameters.update r } : M Unit)
  startSampling .microphone (microphoneTimers r.periodMs) setupMicrophoneChunk r.timeoutMs
    (s.microphoneParameters.changed r) r.streaming

def startScan (r : ScanRequest) : P Unit := do
  let s ← (Proc.get : M State)
  (Proc.modify fun s => { s with scanParameters := s.scanParameters.update r } : M Unit)
  startSampling .scan (scanTimers r.periodSeconds) (pure ()) r.timeoutMs
    (s.scanParameters.changed r) r.streaming

def start : Request → P Unit
  | .accelerometer r => startAccelerometer r
  | .accelerometerInterrupt r => startAccelerometerInterrupt r
  | .battery r => startBattery r
  | .microphone r => startMicrophone r
  | .scan r => startScan r

/-! ## Without an interruption -/

@[simp] theorem run_lift {α : Type} (x : M α) : (liftM x : P α).run = x := rfl

@[simp] theorem run_openChunk (source : Source) :
    (openChunk source).run = Sampling.openChunk source := rfl

@[simp] theorem run_stopTimers (timers : List (Timer × Nat)) :
    (stopTimers timers).run = Sampling.stopTimers timers := by
  induction timers with
  | nil => rfl
  | cons entry timers ih =>
    rw [stopTimers, Sampling.stopTimers, Program.run_bind, run_lift]
    simp only [ih]

@[simp] theorem run_startTimers (timers : List (Timer × Nat)) :
    (startTimers timers).run = Sampling.startTimers timers := by
  induction timers with
  | nil => rfl
  | cons entry timers ih =>
    rw [startTimers, Sampling.startTimers, Program.run_bind, run_lift]
    simp only [ih]

theorem run_stopSampling (source : Source) (timers : List (Timer × Nat)) (release : P Unit)
    (streaming : Bool) :
    (stopSampling source timers release streaming).run =
      Sampling.stopSampling source timers release.run streaming := by
  rw [stopSampling, Sampling.stopSampling]
  simp

theorem run_stop (source : Source) (streaming : Bool) :
    (stop source streaming).run = Sampling.stop source streaming := by
  cases source with
  | accelerometer =>
    simp only [stop, stopAccelerometer, Program.run_bind, run_stopSampling, Program.run_when]
    rfl
  | accelerometerInterrupt =>
    simp only [stop, stopAccelerometerInterrupt, Program.run_bind, run_stopSampling,
      Program.run_when]
    rfl
  | battery => exact run_stopSampling ..
  | microphone => exact run_stopSampling ..
  | scan => exact run_stopSampling ..

theorem run_timeout (source : Source) (streaming : Bool) :
    (timeout source streaming).run = Sampling.timeout source streaming := by
  simp only [timeout, Program.run_bind, Program.run_when, Program.run_attempt, run_stop]
  rfl

theorem run_adaptRemainingMs (ranOut : Source → Bool → Bool) (entries : List (Source × Bool)) :
    (adaptRemainingMs ranOut entries).run = Sampling.adaptRemainingMs ranOut entries := by
  induction entries with
  | nil => rfl
  | cons entry entries ih =>
    rw [adaptRemainingMs, Sampling.adaptRemainingMs, Program.run_bind, Program.run_when,
      run_timeout]
    simp only [ih]

@[simp] theorem run_timeoutStart (source : Source) (streaming : Bool) (timeoutMs : UInt32) :
    (timeoutStart source streaming timeoutMs).run =
      Sampling.timeoutStart source streaming timeoutMs := by
  simp only [timeoutStart, Program.run_branch, Program.run_bind, run_adaptRemainingMs]
  rfl

theorem run_startSampling (source : Source) (timers : List (Timer × Nat)) (setup : P Unit)
    (timeoutMs : UInt32) (changed streaming : Bool) :
    (startSampling source timers setup timeoutMs changed streaming).run =
      Sampling.startSampling source timers setup.run timeoutMs changed streaming := by
  rw [startSampling, Sampling.startSampling]
  cases streaming with
  | false => simp
  | true => simp

/-- An uninterrupted start is the start function. -/
theorem run_start (r : Request) : (start r).run = Sampling.start r := by
  cases r with
  | accelerometer r =>
    simp only [start, startAccelerometer, Program.run_bind, run_startSampling]
    rfl
  | accelerometerInterrupt r =>
    obtain ⟨timeoutMs, thresholdMg, minimalDurationMs, ignoreDurationMs, streaming⟩ := r
    simp only [start, startAccelerometerInterrupt, Program.run_bind, Program.run_when]
    rw [Sampling.start, Sampling.startAccelerometerInterrupt]
    cases streaming with
    | false =>
      simp only [Program.run_bind, run_lift, run_timeoutStart]
      rfl
    | true => simp only [Program.run_bind, run_lift, run_timeoutStart]
  | battery r =>
    simp only [start, startBattery, Program.run_bind, run_startSampling]
    rfl
  | microphone r =>
    simp only [start, startMicrophone, Program.run_bind, run_startSampling]
    rfl
  | scan r =>
    simp only [start, startScan, Program.run_bind, run_startSampling]
    rfl

end Interrupted

end OpenBadge.Sampling
