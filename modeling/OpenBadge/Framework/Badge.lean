import OpenBadge.Framework.Connection
import OpenBadge.Framework.Protocol
import OpenBadge.RequestHandler.Messages

/-!
# badge.py: the client of protocol 02v1

Every response is put into the queue of its type. A call sends its request, clears the
queue of the response it waits for, and receives responses until that queue holds one. The
loops run at most as often as bytes are left to be read, since every turn reads some.
-/

namespace OpenBadge.Framework

open OpenBadge.Lib OpenBadge.Tinybuf
open RequestHandler (Sensor)

/-- A response of the client is the alternative that it holds. -/
abbrev BadgeResponse : Type := responseType.Value

structure Badge where
  connection : Connection
  /-- `queue_options`, the queue of each `which`. -/
  queues : UInt8 → List BadgeResponse

abbrev Client := Proc Badge Failure

/-- A call of `self.connection`. -/
def onConnection {α : Type} (x : Proc Connection Failure α) : Client α :=
  Proc.within Badge.connection (fun b c => { b with connection := c }) x

/-- The exceptions of the generated class. -/
def PyError.failure : PyError → Failure
  | .notEnoughBytes => .notEnoughBytes
  | .structError => .structError
  | .indexError => .indexError
  | .keyError => .keyError

def raise {α : Type} : Except PyError α → Client α
  | .ok a => pure a
  | .error e => Proc.fail (PyError.failure e)

/-- What is not there has been returned as `None`, which no reader takes. -/
def notNone {α : Type} : Option α → Client α
  | some a => pure a
  | none => Proc.fail .typeError

@[simp] theorem notNone_some {α : Type} (a : α) : notNone (some a) = pure a := rfl

/-- `send_request` -/
def sendRequest (v : request.Value) : Client Unit := do
  let serializedRequest ← raise (request.encode .bigEndian v)
  let serializedRequestLen ← raise (structPack .bigEndian 2 serializedRequest.length)
  let _ ← onConnection (send (serializedRequestLen ++ serializedRequest) 0)

def Badge.put (x : BadgeResponse) (b : Badge) : Badge :=
  { b with queues := fun tag =>
      if tag = responseType.which x then b.queues tag ++ [x] else b.queues tag }

/-- `receive_response` -/
def receiveResponse : Client Unit := do
  let header ← onConnection (awaitData 2)
  let header ← notNone header
  let serializedResponse ← onConnection (awaitData (unpacked .bigEndian header))
  let serializedResponse ← notNone serializedResponse
  let responseMessage ← raise (response.decode .bigEndian serializedResponse)
  Proc.modify (Badge.put responseMessage.1)

/-- `queue.clear()` -/
def clearQueue (tag : UInt8) : Client Unit :=
  Proc.modify fun b => { b with queues := fun t => if t = tag then [] else b.queues t }

/-- `if(not queue.empty()): queue.get()` -/
def takeResponse (tag : UInt8) : Client (Option BadgeResponse) := fun b =>
  match b.queues tag with
  | [] => (.ok none, b)
  | x :: xs => (.ok (some x), { b with queues := fun t => if t = tag then xs else b.queues t })

/-- `while(queue.empty()): self.receive_response()` and `queue.get()` -/
def awaitResponse (tag : UInt8) : Nat → Client BadgeResponse
  | 0 => Proc.fail .waits
  | n + 1 => do
    let taken ← takeResponse tag
    match taken with
    | some x => pure x
    | none => do
      receiveResponse
      awaitResponse tag n

/-- The truth value of a number. -/
def truth {n : Nat} (x : BitVec n) : Bool := x ≠ 0

/-- `response.last_response` of a data response. -/
def lastResponse : BadgeResponse → Bool
  | .inr (.inr (.inr (.inr (.inr (.inr (.inl r)))))) => truth (n := 8) r.1
  | .inr (.inr (.inr (.inr (.inr (.inr (.inr (.inl r))))))) => truth (n := 8) r.1
  | .inr (.inr (.inr (.inr (.inr (.inr (.inr (.inr (.inl r)))))))) => truth (n := 8) r.1
  | .inr (.inr (.inr (.inr (.inr (.inr (.inr (.inr (.inr (.inl r))))))))) =>
    truth (n := 8) r.1
  | .inr (.inr (.inr (.inr (.inr (.inr (.inr (.inr (.inr (.inr (.inl r)))))))))) =>
    truth (n := 8) r.1
  | _ => false

/-- `while True:` of the `get_*_data` functions, with the chunks so far. -/
def awaitChunks (tag : UInt8) : Nat → List BadgeResponse → Client (List BadgeResponse)
  | 0, _ => Proc.fail .waits
  | n + 1, chunks => do
    receiveResponse
    let taken ← takeResponse tag
    match taken with
    | some x => if lastResponse x then pure chunks else awaitChunks tag n (chunks ++ [x])
    | none => awaitChunks tag n chunks

/-- The calls that wait for one response. -/
def command (v : request.Value) (tag : UInt8) : Client BadgeResponse := do
  sendRequest v
  clearQueue tag
  let b ← Proc.get
  awaitResponse tag (b.connection.stream.length + 1)

/-- The calls that wait for stored data. -/
def getData (v : request.Value) (tag : UInt8) : Client (List BadgeResponse) := do
  sendRequest v
  clearQueue tag
  let b ← Proc.get
  awaitChunks tag (b.connection.stream.length + 1) []

def timestampValue (seconds : BitVec 32) (ms : BitVec 16) : timestamp.Value := (seconds, ms, ())

theorem flag_ne_zero : (1 : UInt8) ≠ 0 := by decide

/-- The assignment in a status request, which both numbers are needed for. -/
def assignementValue : Option (BitVec 16) → Option (BitVec 8) →
    Rule.optional.Value badgeAssignement.Value
  | some newId, some newGroupNumber => some (⟨1, flag_ne_zero⟩, newId, newGroupNumber, ())
  | _, _ => none

/-- `get_status` -/
def getStatus (seconds : BitVec 32) (ms : BitVec 16) (newId : Option (BitVec 16))
    (newGroupNumber : Option (BitVec 8)) : Client BadgeResponse :=
  command (.inl (timestampValue seconds ms, assignementValue newId newGroupNumber, ()), ()) 1

/-- `start_microphone` -/
def startMicrophone (seconds : BitVec 32) (ms : BitVec 16) (timeout periodMs : BitVec 16) :
    Client BadgeResponse :=
  command (requestType.choose 1 (timestampValue seconds ms, timeout, periodMs, ()), ()) 2

/-- `start_scan` -/
def startScan (seconds : BitVec 32) (ms : BitVec 16)
    (timeout window interval duration period : BitVec 16) (aggregationType : BitVec 8) :
    Client BadgeResponse :=
  command (requestType.choose 3
    (timestampValue seconds ms, timeout, window, interval, duration, period,
      aggregationType, ()), ()) 3

/-- `start_accelerometer` -/
def startAccelerometer (seconds : BitVec 32) (ms : BitVec 16) (timeout : BitVec 16)
    (operatingMode fullScale : BitVec 8) (datarate fifoSamplingPeriodMs : BitVec 16) :
    Client BadgeResponse :=
  command (requestType.choose 5
    (timestampValue seconds ms, timeout, operatingMode, fullScale, datarate,
      fifoSamplingPeriodMs, ()), ()) 4

/-- `start_accelerometer_interrupt` -/
def startAccelerometerInterrupt (seconds : BitVec 32) (ms : BitVec 16)
    (timeout thresholdMg minimalDurationMs : BitVec 16) (ignoreDurationMs : BitVec 32) :
    Client BadgeResponse :=
  command (requestType.choose 7
    (timestampValue seconds ms, timeout, thresholdMg, minimalDurationMs,
      ignoreDurationMs, ()), ()) 5

/-- `start_battery` -/
def startBattery (seconds : BitVec 32) (ms : BitVec 16) (timeout : BitVec 16)
    (periodMs : BitVec 32) : Client BadgeResponse :=
  command (requestType.choose 9 (timestampValue seconds ms, timeout, periodMs, ()), ()) 6

/-- `test` -/
def test : Client BadgeResponse :=
  command (requestType.choose 27 (), ()) 13

/-- `get_microphone_data` -/
def getMicrophoneData (seconds : BitVec 32) (ms : BitVec 16) : Client (List BadgeResponse) :=
  getData (requestType.choose 11 (timestampValue seconds ms, ()), ()) 7

/-- `get_scan_data` -/
def getScanData (seconds : BitVec 32) (ms : BitVec 16) : Client (List BadgeResponse) :=
  getData (requestType.choose 12 (timestampValue seconds ms, ()), ()) 8

/-- `get_accelerometer_data` -/
def getAccelerometerData (seconds : BitVec 32) (ms : BitVec 16) : Client (List BadgeResponse) :=
  getData (requestType.choose 13 (timestampValue seconds ms, ()), ()) 9

/-- `get_accelerometer_interrupt_data` -/
def getAccelerometerInterruptData (seconds : BitVec 32) (ms : BitVec 16) :
    Client (List BadgeResponse) :=
  getData (requestType.choose 14 (timestampValue seconds ms, ()), ()) 10

/-- `get_battery_data` -/
def getBatteryData (seconds : BitVec 32) (ms : BitVec 16) : Client (List BadgeResponse) :=
  getData (requestType.choose 15 (timestampValue seconds ms, ()), ()) 11

/-! The calls that wait for nothing. -/

/-- `stop_microphone` -/
def stopMicrophone : Client Unit := sendRequest (requestType.choose 2 (), ())

/-- `stop_scan` -/
def stopScan : Client Unit := sendRequest (requestType.choose 4 (), ())

/-- `stop_accelerometer` -/
def stopAccelerometer : Client Unit := sendRequest (requestType.choose 6 (), ())

/-- `stop_accelerometer_interrupt` -/
def stopAccelerometerInterrupt : Client Unit := sendRequest (requestType.choose 8 (), ())

/-- `stop_battery` -/
def stopBattery : Client Unit := sendRequest (requestType.choose 10 (), ())

/-- `start_microphone_stream` -/
def startMicrophoneStream (seconds : BitVec 32) (ms : BitVec 16) (timeout periodMs : BitVec 16) :
    Client Unit :=
  sendRequest (requestType.choose 16 (timestampValue seconds ms, timeout, periodMs, ()), ())

/-- `stop_microphone_stream` -/
def stopMicrophoneStream : Client Unit := sendRequest (requestType.choose 17 (), ())

/-- `start_scan_stream` -/
def startScanStream (seconds : BitVec 32) (ms : BitVec 16)
    (timeout window interval duration period : BitVec 16) (aggregationType : BitVec 8) :
    Client Unit :=
  sendRequest (requestType.choose 18
    (timestampValue seconds ms, timeout, window, interval, duration, period,
      aggregationType, ()), ())

/-- `stop_scan_stream` -/
def stopScanStream : Client Unit := sendRequest (requestType.choose 19 (), ())

/-- `start_accelerometer_stream` -/
def startAccelerometerStream (seconds : BitVec 32) (ms : BitVec 16) (timeout : BitVec 16)
    (operatingMode fullScale : BitVec 8) (datarate fifoSamplingPeriodMs : BitVec 16) :
    Client Unit :=
  sendRequest (requestType.choose 20
    (timestampValue seconds ms, timeout, operatingMode, fullScale, datarate,
      fifoSamplingPeriodMs, ()), ())

/-- `stop_accelerometer_stream` -/
def stopAccelerometerStream : Client Unit := sendRequest (requestType.choose 21 (), ())

/-- `start_accelerometer_interrupt_stream` -/
def startAccelerometerInterruptStream (seconds : BitVec 32) (ms : BitVec 16)
    (timeout thresholdMg minimalDurationMs : BitVec 16) (ignoreDurationMs : BitVec 32) :
    Client Unit :=
  sendRequest (requestType.choose 22
    (timestampValue seconds ms, timeout, thresholdMg, minimalDurationMs,
      ignoreDurationMs, ()), ())

/-- `stop_accelerometer_interrupt_stream` -/
def stopAccelerometerInterruptStream : Client Unit := sendRequest (requestType.choose 23 (), ())

/-- `start_battery_stream` -/
def startBatteryStream (seconds : BitVec 32) (ms : BitVec 16) (timeout : BitVec 16)
    (periodMs : BitVec 32) : Client Unit :=
  sendRequest (requestType.choose 24 (timestampValue seconds ms, timeout, periodMs, ()), ())

/-- `stop_battery_stream` -/
def stopBatteryStream : Client Unit := sendRequest (requestType.choose 25 (), ())

/-- `identify` -/
def identify (durationSeconds : BitVec 16) : Client Unit :=
  sendRequest (requestType.choose 26 (durationSeconds, ()), ())

/-- `restart` -/
def restart : Client Unit := sendRequest (requestType.choose 28 (), ())

/-- `get_stream` -/
def getStream : Client (Option BadgeResponse) := do
  receiveResponse
  takeResponse 12

end OpenBadge.Framework
