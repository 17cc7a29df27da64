import Mathlib.Tactic.Simps.Basic
import OpenBadge.Lib.Proc
import OpenBadge.Lib.Run
import OpenBadge.RetCode
import OpenBadge.RequestHandler.Messages

/-!
# The request handler of protocol 02v1

The state is that of `request_handler_lib_02v1.c` together with the receiving
half of `sender_lib.c`, the configuration bits of `sampling_lib.c` and the queue
of the scheduler. `process_receive_notification` waits for data, so it is cut
where the callbacks of the radio and of the timers can come in between; every
other scheduler event is one step.
-/

namespace OpenBadge.RequestHandler

open OpenBadge.Lib

inductive Handler where
  | processReceiveNotification
  | sendResponse
  | request (t : RequestType)
  | response (t : ResponseType)
  deriving DecidableEq, Repr

/-- A queued scheduler event. The scheduler only knows the handler; `origin` numbers the
request the event is part of the answer to, for the statements below. -/
structure Event where
  handler : Handler
  origin : Nat
  deriving DecidableEq, Repr

/-- `receive_notification_t`. -/
structure ReceiveNotification where
  len : Nat
  ticks : Nat
  timestamp : Timestamp
  deriving DecidableEq, Repr

structure RequestEvent where
  timepointTicks : Nat
  request : Request
  deriving DecidableEq, Repr, Inhabited

/-- `response_event_t`, with the number of the request that is answered. -/
structure ResponseEvent where
  retries : Nat
  successHandler : Option Handler
  failHandler : Option Handler
  response : Response
  origin : Nat
  deriving DecidableEq, Repr, Inhabited

/-- What `process_receive_notification` takes down before it waits for the request. -/
structure Capture where
  notification : ReceiveNotification
  clockStatus : Bool
  deriving DecidableEq, Repr

/-- Where a running `process_receive_notification` stands; `idle` between scheduler events. -/
inductive Stage where
  | idle
  | header (c : Capture)
  | awaitHeader (c : Capture)
  | data (c : Capture) (len : Nat)
  | awaitData (c : Capture) (len : Nat)
  | consume (c : Capture) (bytes : List UInt8)
  | decode (c : Capture) (bytes : List UInt8)
  | handle (c : Capture) (t : RequestType)
  deriving DecidableEq, Repr

/-- The history of a run, for the statements below. -/
inductive Entry where
  | connect
  | disconnect
  | packet (data : List UInt8) (ticks : Nat)
  | decode (bytes : List UInt8) (ticks : Nat)
  | taken (origin : Nat) (t : RequestType) (c : Capture) (request : Request)
  | setTimestamp (ticks : Nat) (timestamp : Timestamp)
  | setBadgeAssignement (b : BadgeAssignement)
  | samplingStart (p : SamplingParameters) (streaming : Bool)
  | transmit (origin : Nat) (response : Response) (bytes : List UInt8) (sent : Bool)
  | error
  deriving DecidableEq, Repr

/-- Results of the calls one scheduler event makes to the drivers and the clock. -/
structure Answers where
  isSynced : Bool
  setBadgeAssignement : Except RetCode Unit
  badgeAssignement : BadgeAssignement
  samplingStart : Except RetCode Unit
  stopAccelerometerMode : Except RetCode Unit
  stopInterruptInterrupt : Except RetCode Unit
  stopInterruptMode : Except RetCode Unit
  voltage : Nat
  timestamp : Timestamp
  streams : Streams
  selftest : Nat
  transmit : Except RetCode Unit

/-- The codec of the messages and the storer with its state. -/
structure Libraries (S : Type) where
  decode : List UInt8 → Request × Bool
  encode : Response → Option (List UInt8)
  findChunk : Sensor → Timestamp → Proc S RetCode Unit
  getNextChunk : Sensor → Proc S RetCode Chunk
  invalidateIterators : S → S

structure State (S : Type) where
  queue : List Event
  stage : Stage
  processingReceiveNotification : Bool
  processingResponse : Bool
  streamingStarted : Bool
  requestEvent : RequestEvent
  responseEvent : ResponseEvent
  responseTimestamp : Timestamp
  responseClockStatus : Bool
  notifications : List ReceiveNotification
  rx : List UInt8
  connected : Bool
  sampling : Sensor → Bool
  streaming : Sensor → Bool
  storer : S
  serial : Nat
  trace : List Entry

variable {S : Type}

/-- `RECEIVE_NOTIFICATION_FIFO_SIZE` bytes hold notifications of 24 bytes. -/
def notificationCapacity : Nat := 256 / 24

/-- `RX_FIFO_SIZE`. -/
def rxFifoSize : Nat := 128

/-- `RESPONSE_MAX_TRANSMIT_RETRIES`. -/
def responseMaxTransmitRetries : Nat := 50

namespace State

@[simps] def log (e : Entry) (s : State S) : State S := { s with trace := e :: s.trace }

/-- `app_sched_event_put`. -/
@[simps] def put (h : Handler) (o : Nat) (s : State S) : State S :=
  { s with queue := s.queue ++ [⟨h, o⟩] }

/-- `sender_reset`; the transmit FIFO is outside the model. -/
@[simps] def senderReset (s : State S) : State S := { s with connected := false, rx := [] }

@[simps] def onConnectCallback (s : State S) : State S :=
  { s.senderReset with connected := true, trace := .connect :: s.trace }

@[simps] def onDisconnectCallback (s : State S) : State S :=
  { s.senderReset with trace := .disconnect :: s.trace }

/-- `receive_notification_handler`: a notification that does not fit is dropped. -/
def receiveNotificationHandler (n : ReceiveNotification) (s : State S) : State S :=
  if s.notifications.length < notificationCapacity then
    { s with notifications := s.notifications ++ [n] }.put .processReceiveNotification 0
  else s

/-- `on_receive_callback`: the FIFO takes the bytes that fit, the notification counts all. -/
def onReceiveCallback (data : List UInt8) (ticks : Nat) (timestamp : Timestamp)
    (s : State S) : State S :=
  ({ s with rx := s.rx ++ data.take (rxFifoSize - s.rx.length) }.log
    (.packet data ticks)).receiveNotificationHandler ⟨data.length, ticks, timestamp⟩

@[simps] def finishReceiveNotification (s : State S) : State S :=
  { s with processingReceiveNotification := false }

def finishAndRescheduleReceiveNotification (s : State S) : State S :=
  s.finishReceiveNotification.put .processReceiveNotification 0

@[simps] def finishResponse (s : State S) : State S := { s with processingResponse := false }

/-- `start_response`: reschedule the handler, or take the flag and go on. -/
def startResponse (h : Handler) (o : Nat) (body : State S → State S) (s : State S) : State S :=
  if s.processingResponse then s.put h o else body { s with processingResponse := true }

end State

variable (L : Libraries S) (a : Answers)

/-- `finish_error`, with `sender_disconnect`. -/
@[simps] def finishError (s : State S) : State S :=
  { s.senderReset with
    notifications := []
    processingReceiveNotification := false
    processingResponse := false
    streamingStarted := false
    storer := L.invalidateIterators s.storer
    trace := .error :: s.trace }

/-- The loop that takes the notifications of `consumeLen` bytes from the FIFO. The last one is
shortened in place when it also holds bytes of the next request. -/
def consumeNotifications : Nat → List ReceiveNotification → Option (List ReceiveNotification)
  | 0, ns => some ns
  | _ + 1, [] => none
  | c + 1, n :: ns =>
    if n.len ≤ c + 1 then consumeNotifications (c + 1 - n.len) ns
    else some ({ n with len := n.len - (c + 1) } :: ns)

/-- The two bytes in front of a message. -/
def lengthHeader (len : Nat) : List UInt8 :=
  [UInt8.ofNat (len / 256), UInt8.ofNat len]

/-- The length that two header bytes stand for. -/
def headerLength : List UInt8 → Nat
  | [x, y] => x.toNat * 256 + y.toNat
  | _ => 0

/-- `sender_transmit`: refused without a connection, else what the transmit FIFO answers. -/
def senderTransmit (o : Nat) (r : Response) (bytes : List UInt8) (s : State S) :
    Except RetCode Unit × State S :=
  if s.connected then
    (a.transmit, s.log (.transmit o r bytes a.transmit.toBool))
  else (.error .invalidState, s)

def sendResponse (s : State S) : State S :=
  let s := { s with responseEvent := { s.responseEvent with failHandler := some .sendResponse } }
  if responseMaxTransmitRetries < s.responseEvent.retries then finishError L s
  else
    let s := { s with
      responseEvent := { s.responseEvent with retries := s.responseEvent.retries + 1 } }
    match L.encode s.responseEvent.response with
    | none => finishError L s
    | some bytes =>
      match senderTransmit a s.responseEvent.origin s.responseEvent.response
          (lengthHeader bytes.length ++ bytes) s with
      | (.ok (), s) =>
        match s.responseEvent.successHandler with
        | some h => (s.put h s.responseEvent.origin).finishResponse
        | none => s.finishResponse
      | (.error .noMem, s) =>
        match s.responseEvent.failHandler with
        | some h => s.put h s.responseEvent.origin
        | none => finishError L s
      | (.error _, s) => finishError L s

/-- Fill `response_event`; the retries start again. -/
@[simps] def State.prepare (r : Response) (success : Option Handler) (o : Nat) (s : State S) : State S :=
  { s with responseEvent :=
    { s.responseEvent with retries := 0, successHandler := success, response := r, origin := o } }

/-! ## Response handlers -/

def statusResponseHandler (o : Nat) (s : State S) : State S :=
  s.startResponse (.response .status) o fun s =>
    sendResponse L a <| State.finishAndRescheduleReceiveNotification <|
      s.prepare (.status
        { clockStatus := s.responseClockStatus
          microphoneStatus := s.sampling .microphone
          scanStatus := s.sampling .scan
          accelerometerStatus := s.sampling .accelerometer
          accelerometerInterruptStatus := s.sampling .accelerometerInterrupt
          batteryStatus := s.sampling .battery
          timestamp := s.responseTimestamp
          voltage := a.voltage }) none o

/-- The five `start_*_response_handler` differ in the tag of their response. -/
def startResponseHandler (k : Sensor) (o : Nat) (s : State S) : State S :=
  s.startResponse (.response (.start k)) o fun s =>
    sendResponse L a <| State.finishAndRescheduleReceiveNotification <|
      s.prepare (.start k s.responseTimestamp) none o

def startMicrophoneResponseHandler := startResponseHandler L a .microphone
def startScanResponseHandler := startResponseHandler L a .scan
def startAccelerometerResponseHandler := startResponseHandler L a .accelerometer
def startAccelerometerInterruptResponseHandler :=
  startResponseHandler L a .accelerometerInterrupt
def startBatteryResponseHandler := startResponseHandler L a .battery

/-- The five `*_data_response_handler` differ in the chunk they copy. On a storage error the
handler is put on the queue again and the response flag stays set. -/
def dataResponseHandler (k : Sensor) (o : Nat) (s : State S) : State S :=
  s.startResponse (.response (.data k)) o fun s =>
    match L.getNextChunk k s.storer with
    | (.ok chunk, t) =>
      sendResponse L a <| { s with storer := t }.prepare (.data k (some (chunk.toResponse k)))
        (some (.response (.data k))) o
    | (.error .notFound, t) =>
      sendResponse L a <| { s with storer := t }.prepare (.data k none) none o
    | (.error .invalidState, t) =>
      sendResponse L a <| { s with storer := t }.prepare (.data k none) none o
    | (.error _, t) =>
      ({ s with storer := t }.prepare (.data k none) (some (.response (.data k))) o).put
        (.response (.data k)) o

def microphoneDataResponseHandler := dataResponseHandler L a .microphone
def scanDataResponseHandler := dataResponseHandler L a .scan
def accelerometerDataResponseHandler := dataResponseHandler L a .accelerometer
def accelerometerInterruptDataResponseHandler :=
  dataResponseHandler L a .accelerometerInterrupt
def batteryDataResponseHandler := dataResponseHandler L a .battery

def testResponseHandler (o : Nat) (s : State S) : State S :=
  s.startResponse (.response .test) o fun s =>
    sendResponse L a <| s.prepare (.test (a.selftest % 2 ^ 8)) none o

/-! ## Sampling -/

/-- The sensors with bit `k` set to `b`. -/
def setBit (f : Sensor → Bool) (k : Sensor) (b : Bool) : Sensor → Bool :=
  fun i => if i = k then b else f i

namespace State

def setSampling (k : Sensor) (streaming b : Bool) (s : State S) : State S :=
  if streaming then { s with streaming := setBit s.streaming k b }
  else { s with sampling := setBit s.sampling k b }

/-- The other mode of the sensor, which keeps its timer or interrupt running. -/
def otherMode (k : Sensor) (streaming : Bool) (s : State S) : Bool :=
  if streaming then s.sampling k else s.streaming k

def active (k : Sensor) (s : State S) : Bool := s.sampling k || s.streaming k

end State

/-- `sampling_start_*`: the bit is set once every driver call has succeeded. -/
def samplingStart (k : Sensor) (p : SamplingParameters) (streaming : Bool) (s : State S) :
    Except RetCode Unit × State S :=
  match a.samplingStart with
  | .ok () => (.ok (), (s.log (.samplingStart p streaming)).setSampling k streaming true)
  | .error e => (.error e, s.log (.samplingStart p streaming))

/-- `sampling_stop_accelerometer`: the accelerometer is powered down unless something else
uses it, and a failure of that returns before the bit is cleared. -/
def samplingStopAccelerometer (streaming : Bool) (s : State S) : State S :=
  if ¬ s.otherMode .accelerometer streaming ∧ ¬ s.active .accelerometerInterrupt ∧
      ¬ a.stopAccelerometerMode.toBool then s
  else s.setSampling .accelerometer streaming false

def samplingStopAccelerometerInterrupt (streaming : Bool) (s : State S) : State S :=
  if ¬ s.otherMode .accelerometerInterrupt streaming ∧ (¬ a.stopInterruptInterrupt.toBool ∨
      ¬ s.active .accelerometer ∧ ¬ a.stopInterruptMode.toBool) then s
  else s.setSampling .accelerometerInterrupt streaming false

def samplingStopBattery (streaming : Bool) (s : State S) : State S :=
  s.setSampling .battery streaming false

def samplingStopMicrophone (streaming : Bool) (s : State S) : State S :=
  s.setSampling .microphone streaming false

def samplingStopScan (streaming : Bool) (s : State S) : State S :=
  s.setSampling .scan streaming false

def samplingStop (k : Sensor) (streaming : Bool) (s : State S) : State S :=
  match k with
  | .microphone => samplingStopMicrophone streaming s
  | .scan => samplingStopScan streaming s
  | .accelerometer => samplingStopAccelerometer a streaming s
  | .accelerometerInterrupt => samplingStopAccelerometerInterrupt a streaming s
  | .battery => samplingStopBattery streaming s

/-- The records that are read for the streaming sensors, at most ten of each. -/
def readStreams (s : State S) : Streams :=
  let read (k : Sensor) (l : List (List UInt8)) : List (List UInt8) :=
    if s.streaming k then l.take protocolStreamSize else []
  { battery := read .battery a.streams.battery
    microphone := read .microphone a.streams.microphone
    scan := read .scan a.streams.scan
    accelerometer := read .accelerometer a.streams.accelerometer
    accelerometerInterrupt := read .accelerometerInterrupt a.streams.accelerometerInterrupt }

def Streams.isEmpty (r : Streams) : Bool :=
  r.battery.isEmpty && r.microphone.isEmpty && r.scan.isEmpty && r.accelerometer.isEmpty &&
    r.accelerometerInterrupt.isEmpty

/-- Some `STREAMING_*` bit of the configuration is set. -/
def State.anyStreaming (s : State S) : Bool :=
  s.streaming .accelerometer || s.streaming .accelerometerInterrupt || s.streaming .battery ||
    s.streaming .microphone || s.streaming .scan

/-- The five calls that stop all streaming. -/
def stopStreams (s : State S) : State S :=
  samplingStopScan true <| samplingStopMicrophone true <| samplingStopBattery true <|
    samplingStopAccelerometerInterrupt a true <| samplingStopAccelerometer a true s

/-- The end of `stream_response_handler`; `configured` is the configuration from before the
response was sent. -/
def finishStream (configured : Bool) (o : Nat) (s : State S) : State S :=
  let s := if s.streamingStarted then s else stopStreams a s
  if ¬ configured ∨ ¬ s.streamingStarted then { s with streamingStarted := false }
  else s.put (.response .stream) o

def streamResponseHandler (o : Nat) (s : State S) : State S :=
  s.startResponse (.response .stream) o fun s =>
    let configured := s.anyStreaming
    let streams := readStreams a s
    let s := s.prepare (.stream a.timestamp streams) none o
    let s := if streams.isEmpty then s.finishResponse else sendResponse L a s
    finishStream a configured o s

/-! ## Request handlers -/

/-- The clock is set from the request's timestamp and the timepoint of its packet. -/
def State.syncClock (timestamp : Timestamp) (s : State S) : State S :=
  s.log (.setTimestamp s.requestEvent.timepointTicks timestamp)

def statusRequestHandler (o : Nat) (s : State S) : State S :=
  let r := s.requestEvent.request.status
  let s := s.syncClock r.timestamp
  if r.hasBadgeAssignement then
    let s := s.log (.setBadgeAssignement r.badgeAssignement)
    match a.setBadgeAssignement with
    | .ok () => s.put (.response .status) o
    | .error .internal => s.put (.request .status) o
    | .error _ => finishError L s
  else s.put (.response .status) o

def startRequestHandler (k : Sensor) (o : Nat) (s : State S) : State S :=
  let r := s.requestEvent.request.start
  let s := s.syncClock (r.timestamp k)
  match samplingStart a k (r.parameters a.badgeAssignement.group k) false s with
  | (.ok (), s) => s.put (.response (.start k)) o
  | (.error _, s) => s.put (.request (.start k)) o

def startMicrophoneRequestHandler (o : Nat) (s : State S) := startRequestHandler a .microphone o s
def startScanRequestHandler (o : Nat) (s : State S) := startRequestHandler a .scan o s
def startAccelerometerRequestHandler (o : Nat) (s : State S) :=
  startRequestHandler a .accelerometer o s
def startAccelerometerInterruptRequestHandler (o : Nat) (s : State S) :=
  startRequestHandler a .accelerometerInterrupt o s
def startBatteryRequestHandler (o : Nat) (s : State S) := startRequestHandler a .battery o s

def stopMicrophoneRequestHandler (s : State S) : State S :=
  (samplingStopMicrophone false s).finishAndRescheduleReceiveNotification

def stopScanRequestHandler (s : State S) : State S :=
  (samplingStopScan false s).finishAndRescheduleReceiveNotification

def stopAccelerometerRequestHandler (s : State S) : State S :=
  (samplingStopAccelerometer a false s).finishAndRescheduleReceiveNotification

def stopAccelerometerInterruptRequestHandler (s : State S) : State S :=
  (samplingStopAccelerometerInterrupt a false s).finishAndRescheduleReceiveNotification

def stopBatteryRequestHandler (s : State S) : State S :=
  (samplingStopBattery false s).finishAndRescheduleReceiveNotification

def dataRequestHandler (k : Sensor) (o : Nat) (s : State S) : State S :=
  match L.findChunk k (s.requestEvent.request.data.timestamp k) s.storer with
  | (.ok (), t) =>
    ({ s with storer := t }.put (.response (.data k)) o).finishAndRescheduleReceiveNotification
  | (.error .invalidState, t) =>
    ({ s with storer := t }.put (.response (.data k)) o).finishAndRescheduleReceiveNotification
  | (.error _, t) => { s with storer := t }.put (.request (.data k)) o

def microphoneDataRequestHandler := dataRequestHandler L .microphone
def scanDataRequestHandler := dataRequestHandler L .scan
def accelerometerDataRequestHandler := dataRequestHandler L .accelerometer
def accelerometerInterruptDataRequestHandler := dataRequestHandler L .accelerometerInterrupt
def batteryDataRequestHandler := dataRequestHandler L .battery

/-- The pump is put on the queue unless it is taken to run already. -/
def State.startPump (o : Nat) (s : State S) : State S :=
  if s.streamingStarted then s else { s with streamingStarted := true }.put (.response .stream) o

def startStreamRequestHandler (k : Sensor) (o : Nat) (s : State S) : State S :=
  let r := s.requestEvent.request.startStream
  let s := s.syncClock (r.timestamp k)
  match samplingStart a k (r.parameters a.badgeAssignement.group k) true s with
  | (.ok (), s) => (s.startPump o).finishAndRescheduleReceiveNotification
  | (.error _, s) => s.put (.request (.startStream k)) o

def startMicrophoneStreamRequestHandler (o : Nat) (s : State S) :=
  startStreamRequestHandler a .microphone o s
def startScanStreamRequestHandler (o : Nat) (s : State S) :=
  startStreamRequestHandler a .scan o s
def startAccelerometerStreamRequestHandler (o : Nat) (s : State S) :=
  startStreamRequestHandler a .accelerometer o s
def startAccelerometerInterruptStreamRequestHandler (o : Nat) (s : State S) :=
  startStreamRequestHandler a .accelerometerInterrupt o s
def startBatteryStreamRequestHandler (o : Nat) (s : State S) :=
  startStreamRequestHandler a .battery o s

def stopMicrophoneStreamRequestHandler (s : State S) : State S :=
  (samplingStopMicrophone true s).finishAndRescheduleReceiveNotification

def stopScanStreamRequestHandler (s : State S) : State S :=
  (samplingStopScan true s).finishAndRescheduleReceiveNotification

def stopAccelerometerStreamRequestHandler (s : State S) : State S :=
  (samplingStopAccelerometer a true s).finishAndRescheduleReceiveNotification

def stopAccelerometerInterruptStreamRequestHandler (s : State S) : State S :=
  (samplingStopAccelerometerInterrupt a true s).finishAndRescheduleReceiveNotification

def stopBatteryStreamRequestHandler (s : State S) : State S :=
  (samplingStopBattery true s).finishAndRescheduleReceiveNotification

/-- The delay of an identify request is the time before this step. -/
def identifyRequestHandler (s : State S) : State S := s.finishAndRescheduleReceiveNotification

def testRequestHandler (o : Nat) (s : State S) : State S :=
  (s.put (.response .test) o).finishAndRescheduleReceiveNotification

/-- As in the unit tests; on the badge the call resets the chip. -/
def restartRequestHandler (s : State S) : State S := s.finishAndRescheduleReceiveNotification

/-- The handler of a request type, for the request with number `o`. -/
def requestHandler (o : Nat) : RequestType → State S → State S
  | .status => statusRequestHandler L a o
  | .start .microphone => startMicrophoneRequestHandler a o
  | .stop .microphone => stopMicrophoneRequestHandler
  | .start .scan => startScanRequestHandler a o
  | .stop .scan => stopScanRequestHandler
  | .start .accelerometer => startAccelerometerRequestHandler a o
  | .stop .accelerometer => stopAccelerometerRequestHandler a
  | .start .accelerometerInterrupt => startAccelerometerInterruptRequestHandler a o
  | .stop .accelerometerInterrupt => stopAccelerometerInterruptRequestHandler a
  | .start .battery => startBatteryRequestHandler a o
  | .stop .battery => stopBatteryRequestHandler
  | .data .microphone => microphoneDataRequestHandler L o
  | .data .scan => scanDataRequestHandler L o
  | .data .accelerometer => accelerometerDataRequestHandler L o
  | .data .accelerometerInterrupt => accelerometerInterruptDataRequestHandler L o
  | .data .battery => batteryDataRequestHandler L o
  | .startStream .microphone => startMicrophoneStreamRequestHandler a o
  | .stopStream .microphone => stopMicrophoneStreamRequestHandler
  | .startStream .scan => startScanStreamRequestHandler a o
  | .stopStream .scan => stopScanStreamRequestHandler
  | .startStream .accelerometer => startAccelerometerStreamRequestHandler a o
  | .stopStream .accelerometer => stopAccelerometerStreamRequestHandler a
  | .startStream .accelerometerInterrupt => startAccelerometerInterruptStreamRequestHandler a o
  | .stopStream .accelerometerInterrupt => stopAccelerometerInterruptStreamRequestHandler a
  | .startStream .battery => startBatteryStreamRequestHandler a o
  | .stopStream .battery => stopBatteryStreamRequestHandler
  | .identify => identifyRequestHandler
  | .test => testRequestHandler o
  | .restart => restartRequestHandler

def responseHandler (o : Nat) : ResponseType → State S → State S
  | .status => statusResponseHandler L a o
  | .start .microphone => startMicrophoneResponseHandler L a o
  | .start .scan => startScanResponseHandler L a o
  | .start .accelerometer => startAccelerometerResponseHandler L a o
  | .start .accelerometerInterrupt => startAccelerometerInterruptResponseHandler L a o
  | .start .battery => startBatteryResponseHandler L a o
  | .data .microphone => microphoneDataResponseHandler L a o
  | .data .scan => scanDataResponseHandler L a o
  | .data .accelerometer => accelerometerDataResponseHandler L a o
  | .data .accelerometerInterrupt => accelerometerInterruptDataResponseHandler L a o
  | .data .battery => batteryDataResponseHandler L a o
  | .stream => streamResponseHandler L a o
  | .test => testResponseHandler L a o

/-! ## Receiving requests -/

/-- The first part of `process_receive_notification`, up to the wait for the length header. -/
def processReceiveNotification (s : State S) : State S :=
  if s.processingReceiveNotification then s.put .processReceiveNotification 0
  else
    match s.notifications with
    | [] => s
    | n :: _ =>
      { s with
        processingReceiveNotification := true
        responseTimestamp := n.timestamp
        responseClockStatus := a.isSynced
        stage := .header ⟨n, a.isSynced⟩ }

/-- An error of `process_receive_notification`, which ends it. -/
def abort (s : State S) : State S := { finishError L s with stage := .idle }

/-- The call of `tb_decode` and the search for the request handler. -/
def decodeRequest (c : Capture) (bytes : List UInt8) (s : State S) : State S :=
  let s := { s with
    requestEvent := { s.requestEvent with request := (L.decode bytes).1 }
    serial := s.serial + 1 }.log (.decode bytes c.notification.ticks)
  if (L.decode bytes).2 then
    let s := { s with
      requestEvent := { s.requestEvent with timepointTicks := c.notification.ticks } }
    match findRequestHandler s.requestEvent.request.whichType with
    | some t => { s with stage := .handle c t }
    | none => abort L s
  else abort L s

/-- The next piece of a running `process_receive_notification`. -/
def continueProcessing (s : State S) : State S :=
  match s.stage with
  | .idle => s
  | .header c => if s.connected then { s with stage := .awaitHeader c } else abort L s
  | .awaitHeader c =>
    if 2 ≤ s.rx.length then
      { s with rx := s.rx.drop 2, stage := .data c (headerLength (s.rx.take 2)) }
    else s
  | .data c len => if s.connected then { s with stage := .awaitData c len } else abort L s
  | .awaitData c len =>
    if len ≤ s.rx.length then
      { s with rx := s.rx.drop len, stage := .consume c (s.rx.take len) }
    else s
  | .consume c bytes =>
    match consumeNotifications ((bytes.length + 2) % 2 ^ 16) s.notifications with
    | some ns => { s with notifications := ns, stage := .decode c bytes }
    | none => abort L s
  | .decode c bytes => decodeRequest L c bytes s
  | .handle c t =>
    requestHandler L a s.serial t
      ({ s with stage := .idle }.log (.taken s.serial t c s.requestEvent.request))

/-- `sender_await_data` gives up: the data are not there when the time has passed. -/
def awaitTimeout (s : State S) : State S :=
  match s.stage with
  | .awaitHeader _ => if s.rx.length < 2 then abort L s else s
  | .awaitData _ len => if s.rx.length < len then abort L s else s
  | _ => s

/-! ## Steps -/

/-- One scheduler event. -/
def runEvent (e : Event) : State S → State S :=
  match e.handler with
  | .processReceiveNotification => processReceiveNotification a
  | .sendResponse => sendResponse L a
  | .request t => requestHandler L a e.origin t
  | .response t => responseHandler L a e.origin t

/-- The scheduler runs its next event, or the running one goes on. -/
def dispatch (s : State S) : State S :=
  if s.stage = .idle then
    match s.queue with
    | [] => s
    | e :: es => runEvent L a e { s with queue := es }
  else continueProcessing L a s

inductive Action (S : Type) where
  | packet (data : List UInt8) (ticks : Nat) (timestamp : Timestamp)
  | connect
  | disconnect
  | samplingTimeout (k : Sensor) (streaming : Bool) (a : Answers)
  | awaitTimeout
  | store (t : S)
  | dispatch (a : Answers)

/-- One step of the system: a callback of the radio or of a timer, a change of the stored
data by the rest of the firmware, or the main loop going on. -/
def step (s : State S) : Action S → State S
  | .packet data ticks timestamp => s.onReceiveCallback data ticks timestamp
  | .connect => s.onConnectCallback
  | .disconnect => s.onDisconnectCallback
  | .samplingTimeout k streaming a => samplingStop a k streaming s
  | .awaitTimeout => awaitTimeout L s
  | .store t => { s with storer := t }
  | .dispatch a => dispatch L a s

/-- After `request_handler_init`. -/
def State.init (t : S) : State S where
  queue := []
  stage := .idle
  processingReceiveNotification := false
  processingResponse := false
  streamingStarted := false
  requestEvent := default
  responseEvent := default
  responseTimestamp := default
  responseClockStatus := false
  notifications := []
  rx := []
  connected := false
  sampling := fun _ => false
  streaming := fun _ => false
  storer := t
  serial := 0
  trace := []

end OpenBadge.RequestHandler
