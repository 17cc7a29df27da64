import OpenBadge.Lib.Run
import OpenBadge.RequestHandler01.Messages
import OpenBadge.Sender.Transmit

/-!
# The request handler of protocol 01v1

The state is that of `request_handler_lib_01v1.c` together with the FIFOs of `sender_lib.c`, the
configuration bits of `sampling_lib.c` and the queue of the scheduler. Every packet of the radio
is one request. `process_receive_notification` and `send_response` wait in loops, so they are
cut where the callbacks of the radio and of the timers can come in between; every other
scheduler event is one step.
-/

namespace OpenBadge.RequestHandler01

open OpenBadge.Lib
open Processing (Timestamp MicrophoneChunk ScanChunk)
open Storer (BadgeAssignement)

inductive ResponseType where
  | status
  | start (k : Source)
  | stop (k : Source)
  | data (k : Source)
  | identify
  deriving DecidableEq, Repr

inductive Handler where
  | processReceiveNotification
  | sendResponse
  | request (t : RequestType)
  | response (t : ResponseType)
  deriving DecidableEq, Repr

/-- `receive_notification_t`. -/
structure ReceiveNotification where
  len : Nat
  ticks : Nat
  timestamp : Timestamp
  deriving DecidableEq, Repr

structure RequestEvent where
  timepointTicks : Nat
  request : Request
  deriving DecidableEq, Repr

/-- `response_event_t`. -/
structure ResponseEvent where
  retries : Nat
  successHandler : Option Handler
  failHandler : Option Handler
  response : Response
  deriving DecidableEq, Repr

/-- The loop in which the running scheduler event waits; `idle` between the events. -/
inductive Stage where
  | idle
  | awaitData (n : ReceiveNotification)
  | transmitHeader (bytes : List UInt8)
  | transmitData (bytes : List UInt8)
  deriving DecidableEq, Repr

/-- The history of a run, for the statements below. -/
inductive Entry where
  | connect
  | disconnect
  | packet (data : List UInt8)
  | decode (bytes : List UInt8)
  | setTimestamp (ticks : Nat) (timestamp : Timestamp)
  | setBadgeAssignement (b : BadgeAssignement)
  | startMicrophone (timeoutMs : UInt32) (periodMs : UInt16)
  | startScan (timeoutMs : UInt32) (period interval window duration : UInt16) (group : UInt8)
      (aggregationType : UInt8)
  | stop (k : Source)
  | transmit (r : Response)
  | sent (data : List UInt8)
  | error
  deriving DecidableEq

/-- Results of the calls one scheduler event makes to the drivers and the clock. -/
structure Answers where
  isSynced : Bool
  setBadgeAssignement : Except RetCode Unit
  badgeAssignement : BadgeAssignement
  samplingStart : Except RetCode Unit
  voltage : UInt32

/-- The storer with its state. -/
structure Libraries (S : Type) where
  findChunk : Source → Timestamp → Proc S RetCode Unit
  getNextMicrophoneChunk : Proc S RetCode MicrophoneChunk
  getNextScanChunk : Proc S RetCode ScanChunk
  invalidateIterators : S → S

structure State (S : Type) where
  queue : List Handler
  stage : Stage
  processingReceiveNotification : Bool
  requestEvent : RequestEvent
  responseEvent : ResponseEvent
  responseTimestamp : Timestamp
  responseClockStatus : Bool
  notifications : List ReceiveNotification
  rx : List UInt8
  tx : List UInt8
  connected : Bool
  sampling : Source → Bool
  storer : S
  trace : List Entry

variable {S : Type}

/-- `RECEIVE_NOTIFICATION_FIFO_SIZE` bytes hold notifications of 24 bytes. -/
def notificationCapacity : Nat := 256 / 24

def rxFifoSize : Nat := 128

def txFifoSize : Nat := 512

/-- `RESPONSE_MAX_TRANSMIT_RETRIES`. -/
def responseMaxTransmitRetries : Nat := 50

/-- `MICROPHONE_SAMPLING_PERIOD_MS`. -/
def microphoneSamplingPeriodMs : UInt16 := 50

/-- `SCAN_CHUNK_AGGREGATE_TYPE_MAX`. -/
def scanAggregationType : UInt8 := 0

namespace State

def log (e : Entry) (s : State S) : State S := { s with trace := e :: s.trace }

/-- `app_sched_event_put`. -/
def put (h : Handler) (s : State S) : State S := { s with queue := s.queue ++ [h] }

/-- `sender_reset`. -/
def senderReset (s : State S) : State S := { s with connected := false, rx := [], tx := [] }

def onConnectCallback (s : State S) : State S :=
  { s.senderReset with connected := true, trace := .connect :: s.trace }

def onDisconnectCallback (s : State S) : State S :=
  { s.senderReset with trace := .disconnect :: s.trace }

/-- `receive_notification_handler`: a notification that does not fit is dropped, and nothing
is put on the queue when the flag says that something is there. -/
def receiveNotificationHandler (n : ReceiveNotification) (s : State S) : State S :=
  if s.notifications.length < notificationCapacity then
    let s := { s with notifications := s.notifications ++ [n] }
    if s.processingReceiveNotification then s
    else { s with processingReceiveNotification := true }.put .processReceiveNotification
  else s

/-- `on_receive_callback`: the FIFO takes the bytes that fit, the notification counts all. -/
def onReceiveCallback (data : List UInt8) (ticks : Nat) (timestamp : Timestamp)
    (s : State S) : State S :=
  ({ s with rx := s.rx ++ data.take (rxFifoSize - s.rx.length) }.log
    (.packet data)).receiveNotificationHandler ⟨data.length, ticks, timestamp⟩

/-- `transmit_queued_bytes`, when the radio takes the bytes. -/
def transmitQueuedBytes (s : State S) : State S :=
  { s with tx := s.tx.drop Sender.maxBytesPerTransmit }.log
    (.sent (s.tx.take Sender.maxBytesPerTransmit))

def finishRequest (s : State S) : State S :=
  { s with processingReceiveNotification := false }.put .processReceiveNotification

/-- Fill `response_event`; the retries start again. -/
def prepare (r : Response) (success : Option Handler) (s : State S) : State S :=
  { s with responseEvent :=
    { s.responseEvent with retries := 0, successHandler := success, response := r } }

def setSampling (k : Source) (b : Bool) (s : State S) : State S :=
  { s with sampling := fun i => if i = k then b else s.sampling i }

/-- The clock is set from the request's timestamp and the timepoint of its packet. -/
def syncClock (s : State S) : State S :=
  s.log (.setTimestamp s.requestEvent.timepointTicks s.requestEvent.request.timestamp)

end State

variable (L : Libraries S) (a : Answers)

/-- `finish_request_error`, with `sender_disconnect`. -/
def finishRequestError (s : State S) : State S :=
  { s.senderReset with
    stage := .idle
    notifications := []
    processingReceiveNotification := false
    storer := L.invalidateIterators s.storer
    trace := .error :: s.trace }

/-! ## Responses -/

/-- `sender_transmit`. -/
def senderTransmit (data : List UInt8) (s : State S) : Except RetCode Unit × State S :=
  if s.connected then
    if data.length > txFifoSize - s.tx.length then (.error .noMem, s)
    else (.ok (), { s with tx := s.tx ++ data })
  else (.error .invalidState, s)

/-- The number of bytes that have to be sent apart from the rest. -/
def headerLen : Response → Nat
  | .microphoneData _ _ _ _ => 13
  | .scanData _ _ _ => 9
  | _ => 0

/-- `send_response`, up to the wait for the transmit FIFO to be empty. -/
def sendResponse (s : State S) : State S :=
  let s := { s with responseEvent := { s.responseEvent with failHandler := some .sendResponse } }
  if responseMaxTransmitRetries < s.responseEvent.retries then finishRequestError L s
  else
    let s := { s with
      responseEvent := { s.responseEvent with retries := s.responseEvent.retries + 1 } }
    match encodeResponse s.responseEvent.response with
    | none => finishRequestError L s
    | some bytes => { s with stage := .transmitHeader (bytes.drop 1) }

/-- The end of `send_response`, with the result of the last transmission. -/
def finishSend (ret : Except RetCode Unit) (s : State S) : State S :=
  let s := { s with stage := .idle }
  match ret with
  | .ok () =>
    let s := s.log (.transmit s.responseEvent.response)
    match s.responseEvent.successHandler with
    | some h => s.put h
    | none => s.finishRequest
  | .error .noMem =>
    match s.responseEvent.failHandler with
    | some h => s.put h
    | none => finishRequestError L s
  | .error _ => finishRequestError L s

/-- `sender_transmit` of what is behind the header. -/
def transmitData (bytes : List UInt8) (s : State S) : State S :=
  let t := senderTransmit bytes s
  finishSend L t.1 t.2

/-- `sender_transmit` of the header. The wait that follows is for a header that was taken. -/
def transmitHeader (bytes : List UInt8) (s : State S) : State S :=
  let n := headerLen s.responseEvent.response
  match senderTransmit (bytes.take n) s with
  | (.ok (), s) => { s with stage := .transmitData (bytes.drop n) }
  | (.error _, s) => transmitData L (bytes.drop n) s

def statusResponseHandler (s : State S) : State S :=
  sendResponse L <| s.prepare (.status
    { clockStatus := s.responseClockStatus
      scanStatus := s.sampling .scan
      collectorStatus := s.sampling .microphone
      timestamp := s.responseTimestamp
      voltage := a.voltage }) none

/-- The `start_*_response_handler` differ in the tag of their response. -/
def startResponseHandler (k : Source) (s : State S) : State S :=
  sendResponse L (s.prepare (.start k s.responseTimestamp) none)

def startMicrophoneResponseHandler := startResponseHandler L .microphone
def startScanResponseHandler := startResponseHandler L .scan

/-- The `stop_*_response_handler` differ in the tag of their response. -/
def stopResponseHandler (k : Source) (s : State S) : State S :=
  sendResponse L (s.prepare (.stop k) none)

def stopMicrophoneResponseHandler := stopResponseHandler L .microphone
def stopScanResponseHandler := stopResponseHandler L .scan

/-- The response with the next chunk of a source. -/
def Libraries.nextResponse : Source → Proc S RetCode Response
  | .microphone => do
    let chunk ← L.getNextMicrophoneChunk
    pure (microphoneResponse chunk)
  | .scan => do
    let chunk ← L.getNextScanChunk
    pure (scanResponse chunk)

/-- The response without data, whose header is zero. -/
def Source.endResponse : Source → Response
  | .microphone => microphoneEnd
  | .scan => scanEnd

/-- The two `*_data_response_handler` differ in the chunk they copy. On a storage error the
handler is put on the queue again. -/
def dataResponseHandler (k : Source) (s : State S) : State S :=
  match L.nextResponse k s.storer with
  | (.ok r, t) =>
    sendResponse L ({ s with storer := t }.prepare r (some (.response (.data k))))
  | (.error .notFound, t) => sendResponse L ({ s with storer := t }.prepare k.endResponse none)
  | (.error .invalidState, t) => sendResponse L ({ s with storer := t }.prepare k.endResponse none)
  | (.error _, t) =>
    ({ s with storer := t }.prepare k.endResponse (some (.response (.data k)))).put
      (.response (.data k))

def microphoneDataResponseHandler := dataResponseHandler L .microphone
def scanDataResponseHandler := dataResponseHandler L .scan

def identifyResponseHandler (s : State S) : State S := sendResponse L (s.prepare .identify none)

/-! ## Requests -/

def statusRequestHandler (s : State S) : State S := s.syncClock.put (.response .status)

def statusAssignRequestHandler (s : State S) : State S :=
  let s := s.syncClock.log (.setBadgeAssignement s.requestEvent.request.badgeAssignement)
  match a.setBadgeAssignement with
  | .ok () => s.put (.response .status)
  | .error .internal => s.put (.request .statusAssign)
  | .error _ => finishRequestError L s

/-- `timeout*60*1000` in `uint32_t`. -/
def timeoutMs (timeout : UInt16) : UInt32 := timeout.toUInt32 * 60 * 1000

def startMicrophoneRequestHandler (s : State S) : State S :=
  let r := s.requestEvent.request
  let s := s.syncClock.log (.startMicrophone (timeoutMs r.timeout) microphoneSamplingPeriodMs)
  match a.samplingStart with
  | .ok () => (s.setSampling .microphone true).put (.response (.start .microphone))
  | .error _ => s.put (.request (.start .microphone))

def stopMicrophoneRequestHandler (s : State S) : State S :=
  ((s.log (.stop .microphone)).setSampling .microphone false).put (.response (.stop .microphone))

def startScanRequestHandler (s : State S) : State S :=
  let r := s.requestEvent.request
  let period := if r.duration > r.period then r.duration else r.period
  let s := s.syncClock.log (.startScan (timeoutMs r.timeout) period r.interval r.window
    r.duration a.badgeAssignement.group scanAggregationType)
  match a.samplingStart with
  | .ok () => (s.setSampling .scan true).put (.response (.start .scan))
  | .error _ => s.put (.request (.start .scan))

def stopScanRequestHandler (s : State S) : State S :=
  ((s.log (.stop .scan)).setSampling .scan false).put (.response (.stop .scan))

/-- The two `*_data_request_handler` differ in the timestamp they look for. -/
def dataRequestHandler (k : Source) (timestamp : Timestamp) (s : State S) : State S :=
  match L.findChunk k timestamp s.storer with
  | (.ok (), t) => { s with storer := t }.put (.response (.data k))
  | (.error .invalidState, t) => { s with storer := t }.put (.response (.data k))
  | (.error _, t) => { s with storer := t }.put (.request (.data k))

def microphoneDataRequestHandler (s : State S) : State S :=
  dataRequestHandler L .microphone s.requestEvent.request.timestamp s

/-- A scan data request has no milliseconds. -/
def scanDataRequestHandler (s : State S) : State S :=
  dataRequestHandler L .scan ⟨s.requestEvent.request.seconds, 0⟩ s

/-- The delay of an identify request is the time before this step. -/
def identifyRequestHandler (s : State S) : State S := s.put (.response .identify)

def requestHandler : RequestType → State S → State S
  | .status => statusRequestHandler
  | .statusAssign => statusAssignRequestHandler L a
  | .start .microphone => startMicrophoneRequestHandler a
  | .stop .microphone => stopMicrophoneRequestHandler
  | .start .scan => startScanRequestHandler a
  | .stop .scan => stopScanRequestHandler
  | .data .microphone => microphoneDataRequestHandler L
  | .data .scan => scanDataRequestHandler L
  | .identify => identifyRequestHandler

def responseHandler : ResponseType → State S → State S
  | .status => statusResponseHandler L a
  | .start .microphone => startMicrophoneResponseHandler L
  | .stop .microphone => stopMicrophoneResponseHandler L
  | .start .scan => startScanResponseHandler L
  | .stop .scan => stopScanResponseHandler L
  | .data .microphone => microphoneDataResponseHandler L
  | .data .scan => scanDataResponseHandler L
  | .identify => identifyResponseHandler L

/-! ## Receiving requests -/

/-- `process_receive_notification`, up to the wait for the data. Without a notification the
flag is cleared, also when a request is still being answered. -/
def processReceiveNotification (s : State S) : State S :=
  match s.notifications with
  | [] => { s with processingReceiveNotification := false }
  | n :: ns =>
    let s := { s with
      processingReceiveNotification := true
      notifications := ns
      responseTimestamp := n.timestamp
      responseClockStatus := a.isSynced }
    if s.connected then { s with stage := .awaitData n } else finishRequestError L s

/-- The rest of `process_receive_notification`. -/
def handleNotification (n : ReceiveNotification) (bytes : List UInt8) (s : State S) : State S :=
  let s := { s with stage := .idle }.log (.decode bytes)
  match decodeRequest bytes with
  | none => finishRequestError L { s with requestEvent := { s.requestEvent with request := .zero } }
  | some r =>
    let r := reinterpretStatus bytes r
    let s := { s with requestEvent := ⟨n.ticks, r⟩ }
    match findRequestHandler r.whichType with
    | some t => requestHandler L a t s
    | none => finishRequestError L s

/-! ## Steps -/

/-- One scheduler event. -/
def runEvent : Handler → State S → State S
  | .processReceiveNotification => processReceiveNotification L a
  | .sendResponse => sendResponse L
  | .request t => requestHandler L a t
  | .response t => responseHandler L a t

/-- The scheduler runs its next event, or the running one goes on. -/
def dispatch (s : State S) : State S :=
  match s.stage with
  | .idle =>
    match s.queue with
    | [] => s
    | h :: hs => runEvent L a h { s with queue := hs }
  | .awaitData n =>
    if n.len ≤ s.rx.length then
      handleNotification L a n (s.rx.take n.len) { s with rx := s.rx.drop n.len }
    else s
  | .transmitHeader bytes => if s.tx = [] then transmitHeader L bytes s else s
  | .transmitData bytes => if s.tx = [] then transmitData L bytes s else s

/-- `sender_await_data` gives up: the data are not there when the time has passed. -/
def awaitTimeout (s : State S) : State S :=
  match s.stage with
  | .awaitData n => if s.rx.length < n.len then finishRequestError L s else s
  | _ => s

/-- `send_response` gives up waiting for the transmit FIFO. -/
def transmitTimeout (s : State S) : State S :=
  match s.stage with
  | .transmitHeader _ => if s.tx = [] then s else finishSend L (.error .noMem) s
  | _ => s

inductive Action (S : Type) where
  | packet (data : List UInt8) (ticks : Nat) (timestamp : Timestamp)
  | connect
  | disconnect
  | radio
  | samplingTimeout (k : Source)
  | awaitTimeout
  | transmitTimeout
  | store (t : S)
  | dispatch (a : Answers)

/-- One step of the system: a callback of the radio or of a timer, a change of the stored
data by the rest of the firmware, or the main loop going on. -/
def step (s : State S) : Action S → State S
  | .packet data ticks timestamp => s.onReceiveCallback data ticks timestamp
  | .connect => s.onConnectCallback
  | .disconnect => s.onDisconnectCallback
  | .radio => s.transmitQueuedBytes
  | .samplingTimeout k => s.setSampling k false
  | .awaitTimeout => awaitTimeout L s
  | .transmitTimeout => transmitTimeout L s
  | .store t => { s with storer := t }
  | .dispatch a => dispatch L a s

/-- After `request_handler_init`. -/
def State.init (t : S) : State S where
  queue := []
  stage := .idle
  processingReceiveNotification := false
  requestEvent := ⟨0, .zero⟩
  responseEvent := ⟨0, none, none, .identify⟩
  responseTimestamp := ⟨0, 0⟩
  responseClockStatus := false
  notifications := []
  rx := []
  tx := []
  connected := false
  sampling := fun _ => false
  storer := t
  trace := []

end OpenBadge.RequestHandler01
