import OpenBadge.Sampling.Accel

/-!
# sampling_lib.c: requests and recorded parameters

Each start function compares its parameters with those of the last call, whether
that call succeeded or not, and records them before it does anything else. A change of the timeout
counts for sampling only.
-/

namespace OpenBadge.Sampling

/-! ## The accelerometer -/

/-- The parameters of `sampling_start_accelerometer`. -/
structure AccelerometerRequest where
  timeoutMs : UInt32
  operatingMode : UInt8
  fullScale : UInt8
  datarate : UInt16
  fifoSamplingPeriodMs : UInt16
  streaming : Bool

def AccelerometerRequest.accelerometerOperatingMode (r : AccelerometerRequest) :
    Accel.OperatingMode :=
  if r.operatingMode = 0 then .powerDown
  else if r.operatingMode = 1 then .lowPower
  else if r.operatingMode = 2 then .normal
  else if r.operatingMode = 3 then .highResolution
  else .lowPower

def AccelerometerRequest.accelerometerFullScale (r : AccelerometerRequest) : Accel.FullScale :=
  if r.fullScale ≤ 2 then .g2
  else if r.fullScale ≤ 4 then .g4
  else if r.fullScale ≤ 8 then .g8
  else if r.fullScale ≤ 16 then .g16
  else .g4

def AccelerometerRequest.accelerometerDatarate (r : AccelerometerRequest) : Accel.Datarate :=
  if r.datarate ≤ 1 then .hz1
  else if r.datarate ≤ 10 then .hz10
  else if r.datarate ≤ 25 then .hz25
  else if r.datarate ≤ 50 then .hz50
  else if r.datarate ≤ 100 then .hz100
  else if r.datarate ≤ 200 then .hz200
  else if r.datarate ≤ 400 then .hz400
  else .hz10

/-- The data rate is `none` before the first start. -/
structure AccelerometerParameters where
  timeoutMs : UInt32
  streamTimeoutMs : UInt32
  datarate : Option Accel.Datarate
  operatingMode : Accel.OperatingMode
  fullScale : Accel.FullScale
  fifoSamplingPeriodMs : UInt16

/-- `parameters_changed_sampling`. -/
def AccelerometerParameters.changed (p : AccelerometerParameters) (r : AccelerometerRequest) :
    Bool :=
  (p.timeoutMs ≠ r.timeoutMs ∧ r.streaming = false) ∨ p.datarate ≠ some r.accelerometerDatarate ∨
    p.operatingMode ≠ r.accelerometerOperatingMode ∨ p.fullScale ≠ r.accelerometerFullScale ∨
    p.fifoSamplingPeriodMs ≠ r.fifoSamplingPeriodMs

def AccelerometerParameters.update (p : AccelerometerParameters) (r : AccelerometerRequest) :
    AccelerometerParameters :=
  { timeoutMs := if r.streaming then p.timeoutMs else r.timeoutMs
    streamTimeoutMs := if r.streaming then r.timeoutMs else p.streamTimeoutMs
    datarate := some r.accelerometerDatarate
    operatingMode := r.accelerometerOperatingMode
    fullScale := r.accelerometerFullScale
    fifoSamplingPeriodMs := r.fifoSamplingPeriodMs }

/-- The parameters of `sampling_start_accelerometer_interrupt`, which records the
ignore duration only. -/
structure InterruptRequest where
  timeoutMs : UInt32
  thresholdMg : UInt16
  minimalDurationMs : UInt16
  ignoreDurationMs : UInt32
  streaming : Bool

/-! ## The battery and the microphone -/

structure BatteryRequest where
  timeoutMs : UInt32
  periodMs : UInt32
  streaming : Bool

structure BatteryParameters where
  timeoutMs : UInt32
  streamTimeoutMs : UInt32
  periodMs : UInt32

def BatteryParameters.changed (p : BatteryParameters) (r : BatteryRequest) : Bool :=
  (p.timeoutMs ≠ r.timeoutMs ∧ r.streaming = false) ∨ p.periodMs ≠ r.periodMs

def BatteryParameters.update (p : BatteryParameters) (r : BatteryRequest) : BatteryParameters :=
  { timeoutMs := if r.streaming then p.timeoutMs else r.timeoutMs
    streamTimeoutMs := if r.streaming then r.timeoutMs else p.streamTimeoutMs
    periodMs := r.periodMs }

structure MicrophoneRequest where
  timeoutMs : UInt32
  periodMs : UInt16
  streaming : Bool

structure MicrophoneParameters where
  timeoutMs : UInt32
  streamTimeoutMs : UInt32
  periodMs : UInt16

def MicrophoneParameters.changed (p : MicrophoneParameters) (r : MicrophoneRequest) : Bool :=
  (p.timeoutMs ≠ r.timeoutMs ∧ r.streaming = false) ∨ p.periodMs ≠ r.periodMs

def MicrophoneParameters.update (p : MicrophoneParameters) (r : MicrophoneRequest) :
    MicrophoneParameters :=
  { timeoutMs := if r.streaming then p.timeoutMs else r.timeoutMs
    streamTimeoutMs := if r.streaming then r.timeoutMs else p.streamTimeoutMs
    periodMs := r.periodMs }

/-! ## The scanner -/

structure ScanRequest where
  timeoutMs : UInt32
  periodSeconds : UInt16
  intervalMs : UInt16
  windowMs : UInt16
  durationSeconds : UInt16
  groupFilter : UInt8
  aggregationType : UInt8
  streaming : Bool

structure ScanParameters where
  timeoutMs : UInt32
  streamTimeoutMs : UInt32
  periodSeconds : UInt16
  intervalMs : UInt16
  windowMs : UInt16
  durationSeconds : UInt16
  groupFilter : UInt8
  aggregationType : UInt8

def ScanParameters.changed (p : ScanParameters) (r : ScanRequest) : Bool :=
  (r.timeoutMs ≠ p.timeoutMs ∧ r.streaming = false) ∨
    r.periodSeconds ≠ p.periodSeconds ∨ r.intervalMs ≠ p.intervalMs ∨ r.windowMs ≠ p.windowMs ∨
    r.durationSeconds ≠ p.durationSeconds ∨ r.groupFilter ≠ p.groupFilter ∨
    r.aggregationType ≠ p.aggregationType

/-- Both timeouts are recorded when sampling is requested, neither when streaming is. -/
def ScanParameters.update (p : ScanParameters) (r : ScanRequest) : ScanParameters :=
  { timeoutMs := if r.streaming then p.timeoutMs else r.timeoutMs
    streamTimeoutMs := if r.streaming then p.streamTimeoutMs else r.timeoutMs
    periodSeconds := r.periodSeconds
    intervalMs := r.intervalMs
    windowMs := r.windowMs
    durationSeconds := r.durationSeconds
    groupFilter := r.groupFilter
    aggregationType := r.aggregationType }

end OpenBadge.Sampling
