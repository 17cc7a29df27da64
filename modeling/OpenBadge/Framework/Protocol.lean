import OpenBadge.Tinybuf.Interop

/-!
# badge_protocol.tb

The messages of protocol 02v1 as both the Python class and the firmware's table are
generated from them. On the wire their numbers are big-endian.
-/

namespace OpenBadge.Tinybuf

/-- The type of the alternative behind `i` others. -/
def InnerFields.Chosen : InnerFields → Nat → Type
  | .nil, _ => Empty
  | .cons _ type _, 0 => type.Value
  | .cons _ _ next, i + 1 => next.Chosen i

/-- The value with this alternative. -/
def InnerFields.choose : (inner : InnerFields) → (i : Nat) → inner.Chosen i →
    inner.Value
  | .nil, _, x => x.elim
  | .cons _ _ _, 0, x => .inl x
  | .cons _ _ next, i + 1, x => .inr (next.choose i x)

/-- The rules without a list. -/
def Rule.single : Rule → Bool
  | .required | .optional => true
  | _ => false

mutual

/-- There is neither a list nor a oneof without alternatives in a message. -/
def SchemaType.plain : SchemaType → Bool
  | .number _ => true
  | .message m => m.plain

def Message.plain : Message → Bool
  | .nil => true
  | .field rule type next => rule.single && (type.plain && next.plain)
  | .oneof inner next => inner.plain && next.plain
  | .emptyOneof _ => false

def InnerFields.plain : InnerFields → Bool
  | .nil => true
  | .cons _ type next => type.plain && next.plain

end

theorem Rule.single_fits {α : Type} {rule : Rule} (h : rule.single = true) (x : rule.Value α) :
    rule.Fits x := by
  cases rule with
  | required => trivial
  | optional => trivial
  | repeated => cases h
  | fixedRepeated => cases h

mutual

theorem SchemaType.plain_valid : (type : SchemaType) → type.plain = true → (x : type.Value) →
    type.Meets .valid x
  | .number _, _, _ => trivial
  | .message m, h, v => ⟨trivial, m.plain_valid h v⟩

/-- Every value of such a message is valid. -/
theorem Message.plain_valid : (m : Message) → m.plain = true → (v : m.Value) → m.Meets .valid v
  | .nil, _, _ => trivial
  | .field rule type next, h, (x, v) => by
    rw [Message.plain, Bool.and_eq_true, Bool.and_eq_true] at h
    exact ⟨⟨Rule.single_fits h.1 x, fun y _ => type.plain_valid h.2.1 y⟩,
      next.plain_valid h.2.2 v⟩
  | .oneof inner next, h, (x, v) => by
    rw [Message.plain, Bool.and_eq_true] at h
    exact ⟨inner.plain_valid h.1 x, next.plain_valid h.2 v⟩

theorem InnerFields.plain_valid : (inner : InnerFields) → inner.plain = true →
    (x : inner.Value) → inner.Meets .valid x
  | .cons _ type next, h, x => by
    rw [InnerFields.plain, Bool.and_eq_true] at h
    cases x with
    | inl x => exact type.plain_valid h.1 x
    | inr x => exact next.plain_valid h.2 x

end

end OpenBadge.Tinybuf

namespace OpenBadge.Framework

open OpenBadge.Tinybuf

def required (type : SchemaType) (next : Message) : Message := .field .required type next

def uint8 : SchemaType := .number .uint8
def uint16 : SchemaType := .number .uint16
def uint32 : SchemaType := .number .uint32

/-! ## common_messages.tb and stream_messages.tb -/

def timestamp : Message := required uint32 (required uint16 .nil)

def badgeAssignement : Message := required uint16 (required uint8 .nil)

def batteryData : Message := required (.number .float) .nil

def microphoneData : Message := required uint8 .nil

def scanDevice : Message := required uint16 (required (.number .int8) .nil)

def scanResultData : Message := required (.message scanDevice) (required uint8 .nil)

def accelerometerData : Message := required uint16 .nil

def accelerometerRawData : Message := .field (.fixedRepeated 3) (.number .int16) .nil

def batteryStream : Message := required (.message batteryData) .nil

def microphoneStream : Message := required (.message microphoneData) .nil

def scanStream : Message := required (.message scanDevice) .nil

def accelerometerStream : Message := required (.message accelerometerRawData) .nil

def accelerometerInterruptStream : Message := required (.message timestamp) .nil

/-! ## Requests -/

def statusRequest : Message :=
  required (.message timestamp) (.field .optional (.message badgeAssignement) .nil)

def startMicrophoneRequest : Message :=
  required (.message timestamp) (required uint16 (required uint16 .nil))

def startScanRequest : Message :=
  required (.message timestamp) (required uint16 (required uint16 (required uint16
    (required uint16 (required uint16 (required uint8 .nil))))))

def startAccelerometerRequest : Message :=
  required (.message timestamp) (required uint16 (required uint8 (required uint8
    (required uint16 (required uint16 .nil)))))

def startAccelerometerInterruptRequest : Message :=
  required (.message timestamp) (required uint16 (required uint16 (required uint16
    (required uint32 .nil))))

def startBatteryRequest : Message :=
  required (.message timestamp) (required uint16 (required uint32 .nil))

/-- The requests that stop a sensor, start the test or restart the badge have no fields. -/
def emptyRequest : Message := .nil

/-- The requests for stored data. -/
def dataRequest : Message := required (.message timestamp) .nil

def identifyRequest : Message := required uint16 .nil

/-- `Request.type` -/
def requestType : InnerFields :=
  .cons 1 (.message statusRequest) <|
  .cons 2 (.message startMicrophoneRequest) <| .cons 3 (.message emptyRequest) <|
  .cons 4 (.message startScanRequest) <| .cons 5 (.message emptyRequest) <|
  .cons 6 (.message startAccelerometerRequest) <| .cons 7 (.message emptyRequest) <|
  .cons 8 (.message startAccelerometerInterruptRequest) <| .cons 9 (.message emptyRequest) <|
  .cons 10 (.message startBatteryRequest) <| .cons 11 (.message emptyRequest) <|
  .cons 12 (.message dataRequest) <| .cons 13 (.message dataRequest) <|
  .cons 14 (.message dataRequest) <| .cons 15 (.message dataRequest) <|
  .cons 16 (.message dataRequest) <|
  .cons 17 (.message startMicrophoneRequest) <| .cons 18 (.message emptyRequest) <|
  .cons 19 (.message startScanRequest) <| .cons 20 (.message emptyRequest) <|
  .cons 21 (.message startAccelerometerRequest) <| .cons 22 (.message emptyRequest) <|
  .cons 23 (.message startAccelerometerInterruptRequest) <| .cons 24 (.message emptyRequest) <|
  .cons 25 (.message startBatteryRequest) <| .cons 26 (.message emptyRequest) <|
  .cons 27 (.message identifyRequest) <| .cons 28 (.message emptyRequest) <|
  .cons 29 (.message emptyRequest) .nil

/-- `Request` -/
def request : Message := .oneof requestType .nil

/-! ## Responses -/

def statusResponse : Message :=
  required uint8 (required uint8 (required uint8 (required uint8 (required uint8 (required uint8
    (required (.message timestamp) (required (.message batteryData) .nil)))))))

def startResponse : Message := required (.message timestamp) .nil

def microphoneDataResponse : Message :=
  required uint8 (required (.message timestamp) (required uint16
    (.field (.repeated 114) (.message microphoneData) .nil)))

def scanDataResponse : Message :=
  required uint8 (required (.message timestamp)
    (.field (.repeated 29) (.message scanResultData) .nil))

def accelerometerDataResponse : Message :=
  required uint8 (required (.message timestamp)
    (.field (.repeated 100) (.message accelerometerData) .nil))

def accelerometerInterruptDataResponse : Message :=
  required uint8 (required (.message timestamp) .nil)

def batteryDataResponse : Message :=
  required uint8 (required (.message timestamp) (required (.message batteryData) .nil))

def streamResponse : Message :=
  required (.message timestamp) (.field (.repeated 10) (.message batteryStream)
    (.field (.repeated 10) (.message microphoneStream) (.field (.repeated 10) (.message scanStream)
      (.field (.repeated 10) (.message accelerometerStream)
        (.field (.repeated 10) (.message accelerometerInterruptStream) .nil)))))

def testResponse : Message := required uint8 .nil

/-- `Response.type` -/
def responseType : InnerFields :=
  .cons 1 (.message statusResponse) <|
  .cons 2 (.message startResponse) <| .cons 3 (.message startResponse) <|
  .cons 4 (.message startResponse) <| .cons 5 (.message startResponse) <|
  .cons 6 (.message startResponse) <|
  .cons 7 (.message microphoneDataResponse) <| .cons 8 (.message scanDataResponse) <|
  .cons 9 (.message accelerometerDataResponse) <|
  .cons 10 (.message accelerometerInterruptDataResponse) <|
  .cons 11 (.message batteryDataResponse) <| .cons 12 (.message streamResponse) <|
  .cons 13 (.message testResponse) .nil

/-- `Response` -/
def response : Message := .oneof responseType .nil

end OpenBadge.Framework
