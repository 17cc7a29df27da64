import OpenBadge.Framework.Calls
import OpenBadge.RequestHandler.Wire

/-!
# The responses on both sides

The client has the values of the generated classes, the badge its own structures. The
records of a chunk are copied into the structures of the response as they are, so the client
sees the numbers that their bytes hold, with the least significant byte first.
-/

namespace OpenBadge.Framework

open OpenBadge.Lib OpenBadge.Tinybuf OpenBadge.RequestHandler

/-- `Response_*_response_tag` -/
def responseTag : ResponseType → UInt8
  | .status => 1
  | .start .microphone => 2
  | .start .scan => 3
  | .start .accelerometer => 4
  | .start .accelerometerInterrupt => 5
  | .start .battery => 6
  | .data .microphone => 7
  | .data .scan => 8
  | .data .accelerometer => 9
  | .data .accelerometerInterrupt => 10
  | .data .battery => 11
  | .stream => 12
  | .test => 13

theorem responseTag_inj {r r' : ResponseType} : responseTag r = responseTag r' ↔ r = r' := by
  constructor
  · rcases r with _ | ⟨⟨⟩⟩ | ⟨⟨⟩⟩ | _ | _ <;> rcases r' with _ | ⟨⟨⟩⟩ | ⟨⟨⟩⟩ | _ | _ <;>
      first | exact fun _ => rfl | exact fun h => absurd h (by decide)
  · rintro rfl
    rfl

/-- The number of `n` bytes at `i` in a record. -/
def numberAt (n i : Nat) (r : List UInt8) : BitVec (8 * n) :=
  BitVec.ofNat (8 * n) (unpacked .littleEndian ((r.drop i).take n))

def writtenTimestamp (t : Timestamp) : timestamp.Value :=
  timestampValue (BitVec.ofNat 32 t.seconds) (BitVec.ofNat 16 t.ms)

/-- `BatteryData` -/
def batteryRecord (r : List UInt8) : batteryData.Value := (numberAt 4 0 r, ())

/-- `MicrophoneData` -/
def microphoneRecord (r : List UInt8) : microphoneData.Value := (numberAt 1 0 r, ())

/-- `ScanDevice` -/
def deviceRecord (r : List UInt8) : scanDevice.Value := (numberAt 2 0 r, numberAt 1 2 r, ())

/-- `ScanResultData`, with a byte of padding behind the device. -/
def scanRecord (r : List UInt8) : scanResultData.Value := (deviceRecord r, numberAt 1 4 r, ())

/-- `AccelerometerData` -/
def accelerometerRecord (r : List UInt8) : accelerometerData.Value := (numberAt 2 0 r, ())

/-- `AccelerometerRawData` -/
def rawRecord (r : List UInt8) : accelerometerRawData.Value :=
  ([numberAt 2 0 r, numberAt 2 2 r, numberAt 2 4 r], ())

/-- `AccelerometerInterruptStream` -/
def interruptRecord (r : List UInt8) : accelerometerInterruptStream.Value :=
  (timestampValue (numberAt 4 0 r) (numberAt 2 4 r), ())

def bit (b : Bool) : BitVec 8 := if b then 1 else 0

def statusValue (r : StatusResponse) : BadgeResponse :=
  responseType.choose 0 (bit r.clockStatus, bit r.microphoneStatus, bit r.scanStatus,
    bit r.accelerometerStatus, bit r.accelerometerInterruptStatus, bit r.batteryStatus,
    writtenTimestamp r.timestamp, (BitVec.ofNat 32 r.voltage, ()), ())

/-- The five start responses differ in their tag. -/
def startValue (k : Sensor) (t : Timestamp) : BadgeResponse :=
  match k with
  | .microphone => responseType.choose 1 (writtenTimestamp t, ())
  | .scan => responseType.choose 2 (writtenTimestamp t, ())
  | .accelerometer => responseType.choose 3 (writtenTimestamp t, ())
  | .accelerometerInterrupt => responseType.choose 4 (writtenTimestamp t, ())
  | .battery => responseType.choose 5 (writtenTimestamp t, ())

/-- A data response; `last_response` is 0 in all but the last. -/
def dataValue (last : Bool) (k : Sensor) (c : Chunk) : BadgeResponse :=
  match k with
  | .microphone => responseType.choose 6 (bit last, writtenTimestamp c.timestamp,
      BitVec.ofNat 16 c.samplePeriodMs, c.data.map microphoneRecord, ())
  | .scan => responseType.choose 7 (bit last, writtenTimestamp c.timestamp,
      c.data.map scanRecord, ())
  | .accelerometer => responseType.choose 8 (bit last, writtenTimestamp c.timestamp,
      c.data.map accelerometerRecord, ())
  | .accelerometerInterrupt => responseType.choose 9 (bit last, writtenTimestamp c.timestamp, ())
  | .battery => responseType.choose 10 (bit last, writtenTimestamp c.timestamp,
      batteryRecord (c.data.headD []), ())

/-- The data response with a stored chunk. -/
def chunkValue (k : Sensor) (c : Chunk) : BadgeResponse := dataValue false k (c.toResponse k)

def streamValue (t : Timestamp) (r : Streams) : BadgeResponse :=
  responseType.choose 11 (writtenTimestamp t, r.battery.map fun x => (batteryRecord x, ()),
    r.microphone.map fun x => (microphoneRecord x, ()),
    r.scan.map fun x => (deviceRecord x, ()), r.accelerometer.map fun x => (rawRecord x, ()),
    r.accelerometerInterrupt.map interruptRecord, ())

def testValue (testFailed : Nat) : BadgeResponse :=
  responseType.choose 12 (BitVec.ofNat 8 testFailed, ())

/-- What the client sees of a response. In the last data response only `last_response` and the
number of records are set, and what else is in it is left over. -/
def Shows : Response → BadgeResponse → Prop
  | .status r, x => x = statusValue r
  | .start k t, x => x = startValue k t
  | .data k (some c), x => x = dataValue false k c
  | .data k none, x => responseType.which x = responseTag (.data k) ∧ lastResponse x = true
  | .stream t r, x => x = streamValue t r
  | .test n, x => x = testValue n

theorem lastResponse_dataValue (last : Bool) (k : Sensor) (c : Chunk) :
    lastResponse (dataValue last k c) = last := by
  cases k <;> cases last <;> rfl

theorem which_dataValue (last : Bool) (k : Sensor) (c : Chunk) :
    responseType.which (dataValue last k c) = responseTag (.data k) := by
  cases k <;> rfl

/-- The client puts a response into the queue of its type. -/
theorem Shows.which_eq {m : Response} {x : BadgeResponse} (h : Shows m x) :
    responseType.which x = responseTag m.type := by
  cases m with
  | status r =>
    obtain rfl : x = statusValue r := h
    rfl
  | start k t =>
    obtain rfl : x = startValue k t := h
    cases k <;> rfl
  | data k chunk =>
    cases chunk with
    | none => exact h.1
    | some c =>
      obtain rfl : x = dataValue false k c := h
      exact which_dataValue false k c
  | stream t r =>
    obtain rfl : x = streamValue t r := h
    rfl
  | test n =>
    obtain rfl : x = testValue n := h
    rfl

/-- A response has room for its records. -/
def Roomy : Response → Prop
  | .data k (some c) => c.data.length ≤ protocolDataSize k
  | .stream _ r => r.battery.length ≤ protocolStreamSize ∧
      r.microphone.length ≤ protocolStreamSize ∧ r.scan.length ≤ protocolStreamSize ∧
      r.accelerometer.length ≤ protocolStreamSize ∧
      r.accelerometerInterrupt.length ≤ protocolStreamSize
  | _ => True

instance : DecidablePred Roomy := fun m =>
  match m with
  | .data k (some c) => inferInstanceAs (Decidable (c.data.length ≤ protocolDataSize k))
  | .stream _ _ => inferInstanceAs (Decidable (_ ∧ _ ∧ _ ∧ _ ∧ _))
  | .data _ none => .isTrue trivial
  | .status _ => .isTrue trivial
  | .start _ _ => .isTrue trivial
  | .test _ => .isTrue trivial

/-- The value of a response, when nothing is left over in the last data response. -/
def responseValue : Response → BadgeResponse
  | .status r => statusValue r
  | .start k t => startValue k t
  | .data k (some c) => dataValue false k c
  | .data k none => dataValue true k ⟨⟨0, 0⟩, 0, []⟩
  | .stream t r => streamValue t r
  | .test n => testValue n

theorem responseValue_shows (m : Response) : Shows m (responseValue m) := by
  cases m with
  | data k chunk =>
    cases chunk with
    | none => exact ⟨which_dataValue true k _, lastResponse_dataValue true k _⟩
    | some c => rfl
  | _ => rfl

/-- A field that is there once, without a list in it. -/
theorem required_valid (type : SchemaType) (htype : type.plain = true) (x : type.Value) :
    Demand.valid.list .required x ∧ ∀ y ∈ Rule.required.entries x, type.Meets .valid y :=
  ⟨trivial, fun y _ => type.plain_valid htype y⟩

/-- The records that fit, as elements without a list in them. -/
theorem records_valid (type : SchemaType) (htype : type.plain = true)
    (f : List UInt8 → type.Value) {size : Nat} {l : List (List UInt8)} (hl : l.length ≤ size) :
    Demand.valid.list (.repeated size) (l.map f) ∧
      ∀ y ∈ (Rule.repeated size).entries (l.map f), type.Meets .valid y :=
  ⟨Nat.le_trans (Nat.le_of_eq (List.length_map f)) hl, fun y _ => type.plain_valid htype y⟩

theorem dataValue_valid (last : Bool) {k : Sensor} {c : Chunk}
    (h : c.data.length ≤ protocolDataSize k) :
    response.Meets .valid (dataValue last k c, ()) := by
  refine ⟨?_, trivial⟩
  have hlast := required_valid uint8 rfl (bit last)
  have htime := required_valid (.message timestamp) rfl (writtenTimestamp c.timestamp)
  cases k with
  | microphone =>
    exact ⟨trivial, hlast, htime, required_valid uint16 rfl _,
      records_valid (.message microphoneData) rfl microphoneRecord h, trivial⟩
  | scan =>
    exact ⟨trivial, hlast, htime, records_valid (.message scanResultData) rfl scanRecord h,
      trivial⟩
  | accelerometer =>
    exact ⟨trivial, hlast, htime,
      records_valid (.message accelerometerData) rfl accelerometerRecord h, trivial⟩
  | accelerometerInterrupt =>
    exact ⟨trivial, accelerometerInterruptDataResponse.plain_valid rfl _⟩
  | battery => exact ⟨trivial, batteryDataResponse.plain_valid rfl _⟩

theorem streamValue_valid (t : Timestamp) {r : Streams} (h : Roomy (.stream t r)) :
    response.Meets .valid (streamValue t r, ()) := by
  obtain ⟨hbattery, hmicrophone, hscan, haccelerometer, hinterrupt⟩ := h
  have hraw : ∀ y ∈ (Rule.repeated 10).entries (r.accelerometer.map fun x => (rawRecord x, ())),
      (SchemaType.message accelerometerStream).Meets .valid y := by
    intro y hy
    obtain ⟨x, -, rfl⟩ := List.mem_map.mp hy
    exact ⟨trivial, ⟨trivial, fun y hy => by
      obtain rfl := List.mem_singleton.mp hy
      exact ⟨trivial, ⟨rfl, fun _ _ => trivial⟩, trivial⟩⟩, trivial⟩
  exact ⟨⟨trivial, required_valid (.message timestamp) rfl _,
    records_valid (.message batteryStream) rfl (fun x => (batteryRecord x, ())) hbattery,
    records_valid (.message microphoneStream) rfl (fun x => (microphoneRecord x, ())) hmicrophone,
    records_valid (.message scanStream) rfl (fun x => (deviceRecord x, ())) hscan,
    ⟨Nat.le_trans (Nat.le_of_eq (List.length_map _)) haccelerometer, hraw⟩,
    records_valid (.message accelerometerInterruptStream) rfl interruptRecord hinterrupt,
    trivial⟩, trivial⟩

theorem responseValue_valid {m : Response} (h : Roomy m) :
    response.Meets .valid (responseValue m, ()) := by
  cases m with
  | status r => exact ⟨⟨trivial, statusResponse.plain_valid rfl _⟩, trivial⟩
  | start k t =>
    cases k <;> exact ⟨⟨trivial, startResponse.plain_valid rfl _⟩, trivial⟩
  | data k chunk =>
    cases chunk with
    | some c => exact dataValue_valid false h
    | none => exact dataValue_valid true (Nat.zero_le _)
  | stream t r => exact streamValue_valid t h
  | test n => exact ⟨⟨trivial, testResponse.plain_valid rfl _⟩, trivial⟩

end OpenBadge.Framework
