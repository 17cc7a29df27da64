import OpenBadge.Framework.Protocol
import OpenBadge.Processing.Model
import OpenBadge.Storer.Assignement

/-!
# Messages of protocol 01v1

The messages of `protocol_messages_01v1.tb`, the union that a request is decoded into, and the
responses. On the wire their numbers are little-endian.
-/

namespace OpenBadge.RequestHandler01

open OpenBadge.Lib OpenBadge.Tinybuf OpenBadge.Framework
open Processing (Timestamp MicrophoneChunk ScanChunk)
open Sampling (ScanResult)
open Storer (BadgeAssignement)

/-! ## protocol_messages_01v1.tb -/

def statusRequest : Message := required (.message timestamp) .nil

def statusAssignRequest : Message :=
  required (.message timestamp) (required (.message badgeAssignement) .nil)

def startMicrophoneRequest : Message := required (.message timestamp) (required uint16 .nil)

def stopMicrophoneRequest : Message := .nil

def startScanRequest : Message :=
  required (.message timestamp) (required uint16 (required uint16 (required uint16
    (required uint16 (required uint16 .nil)))))

def stopScanRequest : Message := .nil

def microphoneDataRequest : Message := required (.message timestamp) .nil

def scanDataRequest : Message := required uint32 .nil

def identifyRequest : Message := required uint16 .nil

/-- `Request.type` -/
def requestType : InnerFields :=
  .cons 115 (.message statusRequest) <| .cons 83 (.message statusAssignRequest) <|
  .cons 49 (.message startMicrophoneRequest) <| .cons 48 (.message stopMicrophoneRequest) <|
  .cons 112 (.message startScanRequest) <| .cons 113 (.message stopScanRequest) <|
  .cons 114 (.message microphoneDataRequest) <| .cons 98 (.message scanDataRequest) <|
  .cons 105 (.message identifyRequest) .nil

/-- `Request` -/
def request : Message := .oneof requestType .nil

def statusResponse : Message :=
  required uint8 (required uint8 (required uint8 (required (.message timestamp)
    (required (.message batteryData) .nil))))

def startMicrophoneResponse : Message := required (.message timestamp) .nil

def stopMicrophoneResponse : Message := .nil

def startScanResponse : Message := required (.message timestamp) .nil

def stopScanResponse : Message := .nil

def microphoneDataResponseHeader : Message :=
  required (.message timestamp) (required (.message batteryData) (required uint16 .nil))

def microphoneDataResponse : Message :=
  required (.message microphoneDataResponseHeader)
    (.field (.repeated 114) (.message microphoneData) .nil)

def scanDataResponseHeader : Message := required uint32 (required (.message batteryData) .nil)

def scanDataResponse : Message :=
  required (.message scanDataResponseHeader) (.field (.repeated 29) (.message scanResultData) .nil)

def identifyResponse : Message := .nil

/-- `Response.type` -/
def responseType : InnerFields :=
  .cons 1 (.message statusResponse) <| .cons 2 (.message startMicrophoneResponse) <|
  .cons 3 (.message stopMicrophoneResponse) <| .cons 4 (.message startScanResponse) <|
  .cons 5 (.message stopScanResponse) <| .cons 6 (.message microphoneDataResponse) <|
  .cons 7 (.message scanDataResponse) <| .cons 8 (.message identifyResponse) .nil

/-- `Response` -/
def response : Message := .oneof responseType .nil

/-! ## Requests -/

/-- `Request`. The members of the union share their bytes: what is a timestamp in one is one in
the others, and a timeout stands where the `ID` of an assignment stands. -/
structure Request where
  whichType : UInt8
  seconds : UInt32
  ms : UInt16
  timeout : UInt16
  window : UInt16
  interval : UInt16
  duration : UInt16
  period : UInt16
  deriving DecidableEq, Repr

/-- `memset` -/
def Request.zero : Request := ⟨0, 0, 0, 0, 0, 0, 0, 0⟩

def Request.timestamp (r : Request) : Timestamp := ⟨r.seconds, r.ms⟩

/-- `status_assign_request.badge_assignement` -/
def Request.badgeAssignement (r : Request) : BadgeAssignement := ⟨r.timeout, r.window.toUInt8⟩

/-- `identify_request.timeout` -/
def Request.identifyTimeout (r : Request) : UInt16 := r.seconds.toUInt16

/-- The union with a timestamp in it. -/
def Request.ofTimestamp (whichType : UInt8) : Framework.timestamp.Value → Request
  | (seconds, ms, ()) => { Request.zero with
      whichType := whichType
      seconds := UInt32.ofBitVec seconds
      ms := UInt16.ofBitVec ms }

/-- `request_event.request.type.status_assign_request = tmp;` -/
def Request.assign (r : Request) : statusAssignRequest.Value → Request
  | ((seconds, ms, ()), (id, group, ()), ()) => { r with
      whichType := 83
      seconds := UInt32.ofBitVec seconds
      ms := UInt16.ofBitVec ms
      timeout := UInt16.ofBitVec id
      window := (UInt8.ofBitVec group).toUInt16 }

/-- The union that `tb_decode` leaves. -/
def Request.ofValue : request.Value → Request
  | (.inl (t, ()), ()) => Request.ofTimestamp 115 t
  | (.inr (.inl v), ()) => Request.zero.assign v
  | (.inr (.inr (.inl (t, timeout, ()))), ()) =>
    { Request.ofTimestamp 49 t with timeout := UInt16.ofBitVec timeout }
  | (.inr (.inr (.inr (.inl _))), ()) => { Request.zero with whichType := 48 }
  | (.inr (.inr (.inr (.inr (.inl (t, timeout, window, interval, duration, period, ()))))), ()) =>
    { Request.ofTimestamp 112 t with
      timeout := UInt16.ofBitVec timeout
      window := UInt16.ofBitVec window
      interval := UInt16.ofBitVec interval
      duration := UInt16.ofBitVec duration
      period := UInt16.ofBitVec period }
  | (.inr (.inr (.inr (.inr (.inr (.inl _))))), ()) => { Request.zero with whichType := 113 }
  | (.inr (.inr (.inr (.inr (.inr (.inr (.inl (t, ()))))))), ()) => Request.ofTimestamp 114 t
  | (.inr (.inr (.inr (.inr (.inr (.inr (.inr (.inl (seconds, ())))))))), ()) =>
    { Request.zero with whichType := 98, seconds := UInt32.ofBitVec seconds }
  | (.inr (.inr (.inr (.inr (.inr (.inr (.inr (.inr (.inl (timeout, ()))))))))), ()) =>
    { Request.zero with whichType := 105, seconds := (UInt16.ofBitVec timeout).toUInt32 }

/-- `tb_decode` of a request, which takes what the generated class takes. -/
def decodeRequest (bytes : List UInt8) : Option Request :=
  match request.decode .littleEndian bytes with
  | .ok v => some (Request.ofValue v)
  | .error _ => none

/-- A status request is an assignment when more bytes follow: it is decoded again as one. -/
def reinterpretStatus (bytes : List UInt8) (r : Request) : Request :=
  if r.whichType = 115 then
    match statusAssignRequest.decode .littleEndian (bytes.drop 1) with
    | .ok v => r.assign v
    | .error _ => r
  else r

/-- The data sources of the old protocol. -/
inductive Source where
  | microphone
  | scan
  deriving DecidableEq, Repr

inductive RequestType where
  | status
  | statusAssign
  | start (k : Source)
  | stop (k : Source)
  | data (k : Source)
  | identify
  deriving DecidableEq, Repr

/-- `Request_*_request_tag` -/
def RequestType.tag : RequestType → UInt8
  | .status => 115
  | .statusAssign => 83
  | .start .microphone => 49
  | .stop .microphone => 48
  | .start .scan => 112
  | .stop .scan => 113
  | .data .microphone => 114
  | .data .scan => 98
  | .identify => 105

/-- The handlers in the order of `request_handlers`. -/
def requestHandlers : List RequestType :=
  [.status, .statusAssign, .start .microphone, .stop .microphone, .start .scan, .stop .scan,
    .data .microphone, .data .scan, .identify]

def findRequestHandler (whichType : UInt8) : Option RequestType :=
  requestHandlers.find? fun t => t.tag = whichType

/-! ## Responses -/

structure StatusResponse where
  clockStatus : Bool
  scanStatus : Bool
  collectorStatus : Bool
  timestamp : Timestamp
  voltage : UInt32
  deriving DecidableEq, Repr

/-- `Response`; voltages are the bits of a `float`. -/
inductive Response where
  | status (r : StatusResponse)
  | start (k : Source) (timestamp : Timestamp)
  | stop (k : Source)
  | microphoneData (timestamp : Timestamp) (voltage : UInt32) (samplePeriodMs : UInt16)
      (data : List UInt8)
  | scanData (seconds : UInt32) (voltage : UInt32) (results : List ScanResult)
  | identify
  deriving DecidableEq, Repr

def protocolMicrophoneDataSize : Nat := 114

def protocolScanDataSize : Nat := 29

/-- The microphone data response with a stored chunk. -/
def microphoneResponse (chunk : MicrophoneChunk) : Response :=
  .microphoneData chunk.timestamp 0 chunk.samplePeriodMs
    (chunk.microphoneData.take protocolMicrophoneDataSize)

def microphoneEnd : Response := .microphoneData ⟨0, 0⟩ 0 0 []

/-- The scan data response with a stored chunk. -/
def scanResponse (chunk : ScanChunk) : Response :=
  .scanData chunk.timestamp.seconds 0 (chunk.scanResultData.take protocolScanDataSize)

def scanEnd : Response := .scanData 0 0 []

def bit (b : Bool) : BitVec 8 := if b then 1 else 0

def writtenTimestamp (t : Timestamp) : timestamp.Value :=
  (t.seconds.toBitVec, t.ms.toBitVec, ())

def scanRecord (r : ScanResult) : scanResultData.Value :=
  ((r.id.toBitVec, r.rssi.toBitVec, ()), r.count.toBitVec, ())

/-- The structure that `tb_encode` is given. -/
def Response.value : Response → response.Value
  | .status r => (.inl (bit r.clockStatus, bit r.scanStatus, bit r.collectorStatus,
      writtenTimestamp r.timestamp, (r.voltage.toBitVec, ()), ()), ())
  | .start .microphone t => (.inr (.inl (writtenTimestamp t, ())), ())
  | .stop .microphone => (.inr (.inr (.inl ())), ())
  | .start .scan t => (.inr (.inr (.inr (.inl (writtenTimestamp t, ())))), ())
  | .stop .scan => (.inr (.inr (.inr (.inr (.inl ())))), ())
  | .microphoneData t voltage samplePeriodMs data =>
    (.inr (.inr (.inr (.inr (.inr (.inl ((writtenTimestamp t, (voltage.toBitVec, ()),
      samplePeriodMs.toBitVec, ()), data.map fun x => (x.toBitVec, ()), ())))))), ())
  | .scanData seconds voltage results =>
    (.inr (.inr (.inr (.inr (.inr (.inr (.inl ((seconds.toBitVec, (voltage.toBitVec, ()), ()),
      results.map scanRecord, ()))))))), ())
  | .identify => (.inr (.inr (.inr (.inr (.inr (.inr (.inr (.inl ()))))))), ())

/-- The counts are within the arrays. -/
def Response.Fits : Response → Prop
  | .microphoneData _ _ _ data => data.length ≤ protocolMicrophoneDataSize
  | .scanData _ _ results => results.length ≤ protocolScanDataSize
  | _ => True

instance : DecidablePred Response.Fits
  | .status _ => .isTrue trivial
  | .start _ _ => .isTrue trivial
  | .stop _ => .isTrue trivial
  | .microphoneData _ _ _ data =>
    inferInstanceAs (Decidable (data.length ≤ protocolMicrophoneDataSize))
  | .scanData _ _ results => inferInstanceAs (Decidable (results.length ≤ protocolScanDataSize))
  | .identify => .isTrue trivial

/-- `tb_encode` of a response, which refuses a count beyond the array. -/
def encodeResponse (r : Response) : Option (List UInt8) :=
  if r.Fits then some (response.wire .littleEndian r.value) else none

end OpenBadge.RequestHandler01
