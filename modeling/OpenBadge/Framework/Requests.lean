import OpenBadge.Framework.Responses

/-!
# The requests on both sides

The badge reads a request into a union, whose members other than the one that was sent hold
something that no handler reads.
-/

namespace OpenBadge.Tinybuf

/-- The alternative behind `i` others, if it is the one that is there. -/
def InnerFields.get? : (inner : InnerFields) → (i : Nat) → inner.Value → Option (inner.Chosen i)
  | .cons _ _ _, 0, .inl x => some x
  | .cons _ _ _, 0, .inr _ => none
  | .cons _ _ _, _ + 1, .inl _ => none
  | .cons _ _ next, i + 1, .inr x => next.get? i x

end OpenBadge.Tinybuf

namespace OpenBadge.Framework

open OpenBadge.Lib OpenBadge.Tinybuf OpenBadge.RequestHandler

/-- A field of the structure. -/
def field {n : Nat} (x : BitVec n) : Nat := x.toNat

def readTimestamp : timestamp.Value → Timestamp
  | (seconds, ms, ()) => ⟨field (n := 32) seconds, field (n := 16) ms⟩

def readAssignement : badgeAssignement.Value → BadgeAssignement
  | (id, group, ()) => ⟨field (n := 16) id, field (n := 8) group⟩

def readStatus : statusRequest.Value → StatusRequest
  | (t, none, ()) => ⟨readTimestamp t, false, default⟩
  | (t, some (_, b), ()) => ⟨readTimestamp t, true, readAssignement b⟩

def readMicrophone : startMicrophoneRequest.Value → StartMicrophoneRequest
  | (t, timeout, periodMs, ()) =>
    ⟨readTimestamp t, field (n := 16) timeout, field (n := 16) periodMs⟩

def readScan : startScanRequest.Value → StartScanRequest
  | (t, timeout, window, interval, duration, period, aggregationType, ()) =>
    ⟨readTimestamp t, field (n := 16) timeout, field (n := 16) window, field (n := 16) interval,
      field (n := 16) duration, field (n := 16) period, field (n := 8) aggregationType⟩

def readAccelerometer : startAccelerometerRequest.Value → StartAccelerometerRequest
  | (t, timeout, operatingMode, fullScale, datarate, fifoSamplingPeriodMs, ()) =>
    ⟨readTimestamp t, field (n := 16) timeout, field (n := 8) operatingMode,
      field (n := 8) fullScale, field (n := 16) datarate, field (n := 16) fifoSamplingPeriodMs⟩

def readAccelerometerInterrupt :
    startAccelerometerInterruptRequest.Value → StartAccelerometerInterruptRequest
  | (t, timeout, thresholdMg, minimalDurationMs, ignoreDurationMs, ()) =>
    ⟨readTimestamp t, field (n := 16) timeout, field (n := 16) thresholdMg,
      field (n := 16) minimalDurationMs, field (n := 32) ignoreDurationMs⟩

def readBattery : startBatteryRequest.Value → StartBatteryRequest
  | (t, timeout, periodMs, ()) =>
    ⟨readTimestamp t, field (n := 16) timeout, field (n := 32) periodMs⟩

def readData : dataRequest.Value → Timestamp
  | (t, ()) => readTimestamp t

def readIdentify : identifyRequest.Value → Nat
  | (timeout, ()) => field (n := 16) timeout

/-- The member behind `i` others is read, if it is there. -/
def member {α : Type} [Inhabited α] (i : Nat) (read : requestType.Chosen i → α)
    (v : request.Value) : α := ((requestType.get? i v.1).map read).getD default

/-- The union after `tb_decode`, with nothing in the other members. -/
def requestOf (v : request.Value) : Request where
  whichType := (requestType.which v.1).toNat
  status := member 0 readStatus v
  start :=
    { microphone := member 1 readMicrophone v
      scan := member 3 readScan v
      accelerometer := member 5 readAccelerometer v
      accelerometerInterrupt := member 7 readAccelerometerInterrupt v
      battery := member 9 readBattery v }
  startStream :=
    { microphone := member 16 readMicrophone v
      scan := member 18 readScan v
      accelerometer := member 20 readAccelerometer v
      accelerometerInterrupt := member 22 readAccelerometerInterrupt v
      battery := member 24 readBattery v }
  data :=
    { microphone := member 11 readData v
      scan := member 12 readData v
      accelerometer := member 13 readData v
      accelerometerInterrupt := member 14 readData v
      battery := member 15 readData v }
  identifyTimeout := member 26 readIdentify v

/-- The request for the handler of type `r` is the same in both. -/
def Request.Alike (r : RequestType) (q q' : Request) : Prop :=
  q.whichType = q'.whichType ∧
  match r with
  | .status => q.status = q'.status
  | .start .microphone => q.start.microphone = q'.start.microphone
  | .start .scan => q.start.scan = q'.start.scan
  | .start .accelerometer => q.start.accelerometer = q'.start.accelerometer
  | .start .accelerometerInterrupt =>
    q.start.accelerometerInterrupt = q'.start.accelerometerInterrupt
  | .start .battery => q.start.battery = q'.start.battery
  | .startStream .microphone => q.startStream.microphone = q'.startStream.microphone
  | .startStream .scan => q.startStream.scan = q'.startStream.scan
  | .startStream .accelerometer => q.startStream.accelerometer = q'.startStream.accelerometer
  | .startStream .accelerometerInterrupt =>
    q.startStream.accelerometerInterrupt = q'.startStream.accelerometerInterrupt
  | .startStream .battery => q.startStream.battery = q'.startStream.battery
  | .data k => q.data.timestamp k = q'.data.timestamp k
  | .identify => q.identifyTimeout = q'.identifyTimeout
  | _ => True

end OpenBadge.Framework
