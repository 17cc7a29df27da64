import OpenBadge.Sampling.Interrupted

/-!
# sampling_lib.c: the callbacks of the timers

What the timers and INT1 call, and the badge with the start or stop function that is
executing, into which they break. What goes to the streams and to the scheduler is left
out. `flash` are the bytes from address 0 on, which a read through `NULL` yields.
-/

namespace OpenBadge.Sampling

open OpenBadge.Lib

/-- The number of entries of the data array of a chunk. -/
def Source.dataSize : Source → Nat
  | .accelerometer => 100
  | .microphone => 114
  | _ => 0

/-- The offset of `voltage`. -/
def batteryData : Nat := 8

/-- The offset of an entry of `accelerometer_data`, which is two bytes wide. -/
def accelerometerData (index : Nat) : Nat := 10 + 2 * index

/-- The offset of an entry of `microphone_data`. -/
def microphoneData (index : Nat) : Nat := 11 + index

/-- A byte of the chunk behind the pointer. -/
def State.chunkByte (flash : Nat → UInt8) (s : State) (source : Source) (offset : Nat) : UInt8 :=
  match s.chunks source with
  | some ptr => (s.fifos source).buf (ptr + offset)
  | none => flash offset

/-- `ABS(x) + ABS(y) + ABS(z)`. -/
def absoluteSum (sample : Int16 × Int16 × Int16) : Nat :=
  sample.1.toInt.natAbs + sample.2.1.toInt.natAbs + sample.2.2.toInt.natAbs

/-- The value of a sample: the mean of the readings, doubled; a division by zero gives 0. -/
def microphoneValue (aggregated count : UInt32) : UInt8 :=
  let tmp := aggregated / (count / 2)
  if 255 < tmp then 255 else tmp.toUInt8

namespace Interrupted

variable (flash : Nat → UInt8)

def finalizeAccelerometerChunk : P Unit := do
  closeChunk .accelerometer
  setupAccelerometerChunk

/-- The loop over the samples that were read; `num` stood in the chunk before. -/
def writeSamples (num : Nat) : Nat → List (Int16 × Int16 × Int16) → P Unit
  | _, [] => pure ()
  | i, sample :: rest => do
    writeChunk .accelerometer (some (num + i)) (accelerometerData (num + i))
      (littleEndian 2 (absoluteSum sample))
    writeSamples num (i + 1) rest

def accelerometerFifoCallback : P Unit := do
  let s ← (Proc.get : M State)
  Program.when (¬ s.Off .accelerometer) do
    let t ← lookChunk .accelerometer
    let num := t.chunkByte flash .accelerometer accelerometerCount
    let samples ← onAccel (Accel.readAcceleration
      (UInt32.ofNat Source.accelerometer.dataSize - num.toUInt32).toNat)
    Program.when (s.configuration .accelerometer false) do
      writeSamples num.toNat 0 samples
      writeChunk .accelerometer none accelerometerCount [num + UInt8.ofNat samples.length]
      let t ← lookChunk .accelerometer
      Program.when (Source.accelerometer.dataSize ≤
          (t.chunkByte flash .accelerometer accelerometerCount).toNat)
        finalizeAccelerometerChunk

def finalizeBatteryChunk : P Unit := do
  closeChunk .battery
  openChunk .battery

/-- `voltage` are the bytes of what `battery_get_voltage` gives. -/
def batteryCallback (voltage : UInt32) : P Unit := do
  let s ← (Proc.get : M State)
  Program.when (¬ s.Off .battery) do
    Program.when (s.configuration .battery false) do
      stampChunk .battery
      writeChunk .battery none batteryData (littleEndian 4 voltage.toNat)
      finalizeBatteryChunk

def finalizeMicrophoneChunk : P Unit := do
  closeChunk .microphone
  setupMicrophoneChunk

def microphoneCallback : P Unit := do
  let s ← (Proc.get : M State)
  Program.when (s.microphoneAggregatedCount ≠ 0) do
    (Proc.modify fun s =>
      { s with microphoneAggregated := 0, microphoneAggregatedCount := 0 } : M Unit)
    Program.when (s.configuration .microphone false) do
      let t ← lookChunk .microphone
      let num := t.chunkByte flash .microphone microphoneCount
      writeChunk .microphone (some num.toNat) (microphoneData num.toNat)
        [microphoneValue s.microphoneAggregated s.microphoneAggregatedCount]
      let t ← lookChunk .microphone
      writeChunk .microphone none microphoneCount
        [t.chunkByte flash .microphone microphoneCount + 1]
      let t ← lookChunk .microphone
      Program.when (Source.microphone.dataSize ≤
          (t.chunkByte flash .microphone microphoneCount).toNat)
        finalizeMicrophoneChunk

/-- `values` are the readings of the window that did not fail. -/
def microphoneAggregatedCallback (values : List UInt8) : P Unit := do
  (Proc.modify fun s =>
    { s with
      microphoneAggregated := values.foldl (fun sum value => sum + value.toUInt32)
        s.microphoneAggregated
      microphoneAggregatedCount := s.microphoneAggregatedCount + UInt32.ofNat values.length } :
    M Unit)

def accelerometerInterruptCallback : P Unit := do
  let s ← (Proc.get : M State)
  Program.when (¬ s.Off .accelerometerInterrupt) do
    Program.when (s.configuration .accelerometerInterrupt false) do
      stampChunk .accelerometerInterrupt
      closeChunk .accelerometerInterrupt
    let _ ← Proc.attempt (appTimerStart .accelerometerInterruptReset
      (appTimerTicks s.accelerometerInterruptIgnoreDurationMs.toNat))

theorem run_accelerometerInterruptCallback :
    accelerometerInterruptCallback.run = Sampling.accelerometerInterruptCallback := by
  simp only [accelerometerInterruptCallback, Program.run_bind, Program.run_when]
  rfl

end Interrupted

/-! ## The callbacks -/

inductive Callback where
  | accelerometerFifo
  | battery (voltage : UInt32)
  | microphone
  | microphoneAggregated (values : List UInt8)
  | int1
  | resetTimer

/-- The callback of a timer that is running. -/
def ofTimer (timer : Timer) (x : P Unit) : P Unit := do
  let s ← (Proc.get : M State)
  Program.when ((s.timers timer).isSome) x

def Callback.program (flash : Nat → UInt8) : Callback → P Unit
  | .accelerometerFifo => ofTimer .accelerometerFifo (Interrupted.accelerometerFifoCallback flash)
  | .battery voltage => ofTimer .battery (Interrupted.batteryCallback voltage)
  | .microphone => ofTimer .microphone (Interrupted.microphoneCallback flash)
  | .microphoneAggregated values =>
    ofTimer .microphoneAggregated (Interrupted.microphoneAggregatedCallback values)
  | .int1 => do
    let s ← (Proc.get : M State)
    Program.when s.accel.CanFire do
      (Proc.modify fun s => { s with accel := { s.accel with latched := true } } : M Unit)
      Program.when (s.accel.calledHandler = some .samplingAccelerometerInterruptCallback)
        Interrupted.accelerometerInterruptCallback
  | .resetTimer => do
    (Proc.modify onResetTimer : M Unit)

/-! ## The badge -/

/-- What the main program does next: a start or stop function, the end of a timeout, an
event of the scheduler, or the processing works on the oldest chunk of a source. -/
inductive Task where
  | start (r : Request)
  | stop (source : Source) (streaming : Bool)
  | timeout (source : Source) (streaming : Bool)
  | setupEvent
  | readOpen (source : Source)
  | readClose (source : Source)

def onFifo (source : Source) (f : ChunkFifo.Config → ChunkFifo.State → ChunkFifo.State) : M Unit :=
  Proc.modify fun s =>
    { s with fifos := Function.update s.fifos source (f (chunkFifo source) (s.fifos source)) }

def Task.program : Task → P Unit
  | .start r => Interrupted.start r
  | .stop source streaming => Interrupted.stop source streaming
  | .timeout source streaming => Interrupted.timeout source streaming
  | .setupEvent => do
    let s ← (Proc.get : M State)
    Program.when (s.setupEvents ≠ 0) do
      (Proc.modify fun s => { s with setupEvents := s.setupEvents - 1 } : M Unit)
      Interrupted.setupAccelerometerInterruptChunk
  | .readOpen source => do
    onFifo source fun c fifo => (ChunkFifo.readOpen c fifo).2
  | .readClose source => do
    onFifo source ChunkFifo.readClose

/-- The badge with what is left of the task that is executing, and what has happened to the
chunks so far, the latest first. -/
structure Badge where
  state : State
  rest : P Unit
  history : List Event

def Badge.init (accel : Accel.State) (timerFaults : Nat → Bool)
    (ranOut : Nat → Source → Bool → Bool) : Badge :=
  ⟨Sampling.init accel timerFaults ranOut, pure (), []⟩

/-- Next to the program the time goes on, and the sensor takes samples. -/
inductive BadgeAction where
  | begin (t : Task)
  | proceed
  | callback (c : Callback)
  | clock (timestamp : UInt32 × UInt16)
  | sense (fifoSrcReg : UInt8) (out : Nat → UInt8)

/-- The next step of the task that is executing. -/
def Badge.proceed (b : Badge) : Badge :=
  match b.rest with
  | .done _ => b
  | .step label x k => ⟨x b.state, k b.state, label :: b.history⟩

/-- A callback runs to its end. -/
def Badge.callback (flash : Nat → UInt8) (b : Badge) (c : Callback) : Badge where
  state := ((c.program flash).run b.state).2
  rest := b.rest
  history := (c.program flash).labels b.state b.history

def Badge.step (flash : Nat → UInt8) (b : Badge) : BadgeAction → Badge
  | .begin t => if b.rest.Done then { b with rest := t.program } else b
  | .proceed => b.proceed
  | .callback c => b.callback flash c
  | .clock timestamp => { b with state := { b.state with timestamp } }
  | .sense fifoSrcReg out =>
    { b with
      state := { b.state with
        accel := { b.state.accel with
          registers := Function.update b.state.accel.registers .fifoSrcReg fifoSrcReg
          out } } }

end OpenBadge.Sampling
