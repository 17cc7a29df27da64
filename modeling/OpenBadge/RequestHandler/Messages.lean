import Mathlib.Algebra.GroupWithZero.Nat
import Mathlib.Data.List.Basic

/-!
# Messages of protocol 02v1

The request and response messages, the sampling calls they lead to, and the
table of request handlers. A request is a tagged union in the source; it is kept
here as its tag with what each member of the union reads.
-/

namespace OpenBadge.RequestHandler

/-- The five data sources, each with a sampling and a streaming mode. -/
inductive Sensor where
  | microphone
  | scan
  | accelerometer
  | accelerometerInterrupt
  | battery
  deriving DecidableEq, Repr

structure Timestamp where
  seconds : Nat
  ms : Nat
  deriving DecidableEq, Repr, Inhabited

structure BadgeAssignement where
  id : Nat
  group : Nat
  deriving DecidableEq, Repr, Inhabited

structure StatusRequest where
  timestamp : Timestamp
  hasBadgeAssignement : Bool
  badgeAssignement : BadgeAssignement
  deriving DecidableEq, Repr, Inhabited

structure StartMicrophoneRequest where
  timestamp : Timestamp
  timeout : Nat
  periodMs : Nat
  deriving DecidableEq, Repr, Inhabited

structure StartScanRequest where
  timestamp : Timestamp
  timeout : Nat
  window : Nat
  interval : Nat
  duration : Nat
  period : Nat
  aggregationType : Nat
  deriving DecidableEq, Repr, Inhabited

structure StartAccelerometerRequest where
  timestamp : Timestamp
  timeout : Nat
  operatingMode : Nat
  fullScale : Nat
  datarate : Nat
  fifoSamplingPeriodMs : Nat
  deriving DecidableEq, Repr, Inhabited

structure StartAccelerometerInterruptRequest where
  timestamp : Timestamp
  timeout : Nat
  thresholdMg : Nat
  minimalDurationMs : Nat
  ignoreDurationMs : Nat
  deriving DecidableEq, Repr, Inhabited

structure StartBatteryRequest where
  timestamp : Timestamp
  timeout : Nat
  periodMs : Nat
  deriving DecidableEq, Repr, Inhabited

/-- The members of the union that start a sensor; the stream requests have the same layout. -/
structure StartRequests where
  microphone : StartMicrophoneRequest
  scan : StartScanRequest
  accelerometer : StartAccelerometerRequest
  accelerometerInterrupt : StartAccelerometerInterruptRequest
  battery : StartBatteryRequest
  deriving DecidableEq, Repr, Inhabited

/-- The members of the union that ask for stored data, each a timestamp. -/
structure DataRequests where
  microphone : Timestamp
  scan : Timestamp
  accelerometer : Timestamp
  accelerometerInterrupt : Timestamp
  battery : Timestamp
  deriving DecidableEq, Repr, Inhabited

/-- `Request`: the tag and what each member of the union reads. -/
structure Request where
  whichType : Nat
  status : StatusRequest
  start : StartRequests
  startStream : StartRequests
  data : DataRequests
  identifyTimeout : Nat
  deriving DecidableEq, Repr, Inhabited

def StartRequests.timestamp (r : StartRequests) : Sensor → Timestamp
  | .microphone => r.microphone.timestamp
  | .scan => r.scan.timestamp
  | .accelerometer => r.accelerometer.timestamp
  | .accelerometerInterrupt => r.accelerometerInterrupt.timestamp
  | .battery => r.battery.timestamp

def DataRequests.timestamp (r : DataRequests) : Sensor → Timestamp
  | .microphone => r.microphone
  | .scan => r.scan
  | .accelerometer => r.accelerometer
  | .accelerometerInterrupt => r.accelerometerInterrupt
  | .battery => r.battery

inductive RequestType where
  | status
  | start (k : Sensor)
  | stop (k : Sensor)
  | data (k : Sensor)
  | startStream (k : Sensor)
  | stopStream (k : Sensor)
  | identify
  | test
  | restart
  deriving DecidableEq, Repr

/-- The arguments of a `sampling_start_*` call, its `streaming` flag apart. -/
inductive SamplingParameters where
  | microphone (timeoutMs periodMs : Nat)
  | scan (timeoutMs period interval window duration groupFilter aggregationType : Nat)
  | accelerometer (timeoutMs operatingMode fullScale datarate fifoSamplingPeriodMs : Nat)
  | accelerometerInterrupt (timeoutMs thresholdMg minimalDurationMs ignoreDurationMs : Nat)
  | battery (timeoutMs periodMs : Nat)
  deriving DecidableEq, Repr

/-- `timeout*60*1000` in `uint32_t`. -/
def timeoutMs (timeout : Nat) : Nat := timeout * 60 * 1000 % 2 ^ 32

/-- The arguments a start handler passes on. The ignore duration and the battery period go
through a `uint16_t` variable. -/
def StartRequests.parameters (r : StartRequests) (group : Nat) : Sensor → SamplingParameters
  | .microphone => .microphone (timeoutMs r.microphone.timeout) r.microphone.periodMs
  | .scan =>
    let period := if r.scan.period < r.scan.duration then r.scan.duration else r.scan.period
    .scan (timeoutMs r.scan.timeout) period r.scan.interval r.scan.window r.scan.duration group
      r.scan.aggregationType
  | .accelerometer =>
    .accelerometer (timeoutMs r.accelerometer.timeout) r.accelerometer.operatingMode
      r.accelerometer.fullScale r.accelerometer.datarate r.accelerometer.fifoSamplingPeriodMs
  | .accelerometerInterrupt =>
    .accelerometerInterrupt (timeoutMs r.accelerometerInterrupt.timeout)
      r.accelerometerInterrupt.thresholdMg r.accelerometerInterrupt.minimalDurationMs
      (r.accelerometerInterrupt.ignoreDurationMs % 2 ^ 16)
  | .battery => .battery (timeoutMs r.battery.timeout) (r.battery.periodMs % 2 ^ 16)

/-- A stored chunk; its data records are copied as they are. -/
structure Chunk where
  timestamp : Timestamp
  samplePeriodMs : Nat
  data : List (List UInt8)
  deriving DecidableEq, Repr, Inhabited

/-- The five sensors' records of one stream response. -/
structure Streams where
  battery : List (List UInt8)
  microphone : List (List UInt8)
  scan : List (List UInt8)
  accelerometer : List (List UInt8)
  accelerometerInterrupt : List (List UInt8)
  deriving DecidableEq, Repr, Inhabited

structure StatusResponse where
  clockStatus : Bool
  microphoneStatus : Bool
  scanStatus : Bool
  accelerometerStatus : Bool
  accelerometerInterruptStatus : Bool
  batteryStatus : Bool
  timestamp : Timestamp
  voltage : Nat
  deriving DecidableEq, Repr

/-- `Response`; the last response of a data request carries no chunk. -/
inductive Response where
  | status (r : StatusResponse)
  | start (k : Sensor) (timestamp : Timestamp)
  | data (k : Sensor) (chunk : Option Chunk)
  | stream (timestamp : Timestamp) (streams : Streams)
  | test (testFailed : Nat)
  deriving DecidableEq, Repr

instance : Inhabited Response := ⟨.test 0⟩

inductive ResponseType where
  | status
  | start (k : Sensor)
  | data (k : Sensor)
  | stream
  | test
  deriving DecidableEq, Repr

/-- `Response.which_type`. -/
def Response.type : Response → ResponseType
  | .status _ => .status
  | .start k _ => .start k
  | .data k _ => .data k
  | .stream _ _ => .stream
  | .test _ => .test

/-- `PROTOCOL_*_DATA_SIZE`; one battery record, no interrupt record. -/
def protocolDataSize : Sensor → Nat
  | .microphone => 114
  | .scan => 29
  | .accelerometer => 100
  | .accelerometerInterrupt => 0
  | .battery => 1

/-- `PROTOCOL_*_STREAM_SIZE`. -/
def protocolStreamSize : Nat := 10

/-- The part of a chunk that its data response carries. -/
def Chunk.toResponse (k : Sensor) (c : Chunk) : Chunk :=
  { timestamp := c.timestamp
    samplePeriodMs := if k = .microphone then c.samplePeriodMs else 0
    data := c.data.take (protocolDataSize k) }

/-- `request_handlers`, with the tags of `protocol_messages_02v1.h`. -/
def requestHandlers : List (Nat × RequestType) :=
  [(1, .status),
   (2, .start .microphone), (3, .stop .microphone),
   (4, .start .scan), (5, .stop .scan),
   (6, .start .accelerometer), (7, .stop .accelerometer),
   (8, .start .accelerometerInterrupt), (9, .stop .accelerometerInterrupt),
   (10, .start .battery), (11, .stop .battery),
   (12, .data .microphone), (13, .data .scan), (14, .data .accelerometer),
   (15, .data .accelerometerInterrupt), (16, .data .battery),
   (17, .startStream .microphone), (18, .stopStream .microphone),
   (19, .startStream .scan), (20, .stopStream .scan),
   (21, .startStream .accelerometer), (22, .stopStream .accelerometer),
   (23, .startStream .accelerometerInterrupt), (24, .stopStream .accelerometerInterrupt),
   (25, .startStream .battery), (26, .stopStream .battery),
   (27, .identify), (28, .test), (29, .restart)]

/-- `Request_*_request_tag`. -/
def RequestType.tag : RequestType → Nat
  | .status => 1
  | .start .microphone => 2
  | .stop .microphone => 3
  | .start .scan => 4
  | .stop .scan => 5
  | .start .accelerometer => 6
  | .stop .accelerometer => 7
  | .start .accelerometerInterrupt => 8
  | .stop .accelerometerInterrupt => 9
  | .start .battery => 10
  | .stop .battery => 11
  | .data .microphone => 12
  | .data .scan => 13
  | .data .accelerometer => 14
  | .data .accelerometerInterrupt => 15
  | .data .battery => 16
  | .startStream .microphone => 17
  | .stopStream .microphone => 18
  | .startStream .scan => 19
  | .stopStream .scan => 20
  | .startStream .accelerometer => 21
  | .stopStream .accelerometer => 22
  | .startStream .accelerometerInterrupt => 23
  | .stopStream .accelerometerInterrupt => 24
  | .startStream .battery => 25
  | .stopStream .battery => 26
  | .identify => 27
  | .test => 28
  | .restart => 29

/-- The search through `request_handlers` for a tag. -/
def findRequestHandler (whichType : Nat) : Option RequestType :=
  (requestHandlers.find? fun p => whichType = p.1).map Prod.snd

theorem tag_of_mem_requestHandlers {p : Nat × RequestType} (h : p ∈ requestHandlers) :
    p.2.tag = p.1 := by
  simp only [requestHandlers, List.mem_cons, List.not_mem_nil, or_false] at h
  rcases h with h | h | h | h | h | h | h | h | h | h | h | h | h | h | h | h | h | h | h | h |
    h | h | h | h | h | h | h | h | h <;> rw [h] <;> rfl

/-- The handler found for a tag is the handler of that tag. -/
theorem tag_of_findRequestHandler {n : Nat} {t : RequestType} (h : findRequestHandler n = some t) :
    t.tag = n := by
  unfold findRequestHandler at h
  obtain ⟨p, hp, rfl⟩ := Option.map_eq_some_iff.mp h
  have hn : n = p.1 := by simpa using List.find?_some hp
  rw [tag_of_mem_requestHandlers (List.mem_of_find?_eq_some hp), hn]

/-- Every request type is found under its own tag. -/
theorem findRequestHandler_tag (t : RequestType) : findRequestHandler t.tag = some t := by
  rcases t with _ | ⟨⟨⟩⟩ | ⟨⟨⟩⟩ | ⟨⟨⟩⟩ | ⟨⟨⟩⟩ | ⟨⟨⟩⟩ | _ | _ | _ <;> rfl

end OpenBadge.RequestHandler
