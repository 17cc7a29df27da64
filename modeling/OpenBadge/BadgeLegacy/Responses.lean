import OpenBadge.BadgeLegacy.Fields
import OpenBadge.RequestHandler01.Messages

/-!
# The badge's responses for the client

The badge leaves out the tag of a response. What it transmits are the attributes of the message
that the client expects, and for a data response the samples or devices behind them.
-/

namespace OpenBadge.RequestHandler01

open OpenBadge.Lib OpenBadge.Tinybuf OpenBadge.Framework
open BadgeLegacy (MessageField fieldBytes)
open Processing (Timestamp)
open Sampling (ScanResult)

/-- What is transmitted of a response. -/
def Response.bytes (r : Response) : List UInt8 := (response.wire .littleEndian r.value).drop 1

def Response.messageFields : Response → List MessageField
  | .status _ => BadgeLegacy.StatusResponse.messageFields
  | .start .microphone _ => BadgeLegacy.StartRecordResponse.messageFields
  | .start .scan _ => BadgeLegacy.StartScanningResponse.messageFields
  | .microphoneData _ _ _ _ => BadgeLegacy.MicrophoneDataHeader.messageFields
  | .scanData _ _ _ => BadgeLegacy.ScanDataHeader.messageFields
  | _ => []

/-- `clock_status`, `scan_status` and `collector_status`. -/
def flagAttribute (b : Bool) : Nat := if b then 1 else 0

/-- The values of the attributes. -/
def Response.attributes : Response → List Nat
  | .status r => [flagAttribute r.clockStatus, flagAttribute r.scanStatus,
      flagAttribute r.collectorStatus, r.timestamp.seconds.toNat, r.timestamp.ms.toNat,
      r.voltage.toNat]
  | .start _ t => [t.seconds.toNat, t.ms.toNat]
  | .microphoneData t voltage samplePeriodMs data =>
    [t.seconds.toNat, t.ms.toNat, voltage.toNat, samplePeriodMs.toNat, data.length]
  | .scanData seconds voltage results => [seconds.toNat, voltage.toNat, results.length]
  | _ => []

/-- `ScanDataDevice` -/
def deviceAttributes (r : ScanResult) : List Nat :=
  [r.id.toNat, r.rssi.toBitVec.toNat, r.count.toNat]

def deviceBytes (r : ScanResult) : List UInt8 :=
  fieldBytes BadgeLegacy.ScanDataDevice.messageFields (deviceAttributes r)

/-- What stands behind the attributes. -/
def Response.behind : Response → List UInt8
  | .microphoneData _ _ _ data => data
  | .scanData _ _ results => results.flatMap deviceBytes
  | _ => []

/-! ## Bytes -/

theorem required_wire (e : TbEndian) (type : SchemaType) (next : Message) (x : type.Value)
    (v : next.Value) {d ds : List UInt8} (hx : type.wire e x = d) (hv : next.wire e v = ds) :
    (required type next).wire e (x, v) = d ++ ds := by
  change [] ++ [x].flatMap (type.wire e) ++ next.wire e v = _
  rw [List.nil_append, List.flatMap_singleton, hx, hv]

/-- The last field. -/
theorem last_wire (e : TbEndian) (type : SchemaType) (x : type.Value) {d : List UInt8}
    (hx : type.wire e x = d) : (required type .nil).wire e (x, ()) = d :=
  (required_wire e type .nil x () hx rfl).trans (List.append_nil d)

/-- A list behind its number. -/
theorem repeated_wire {α : Type} (size : Nat) (hsize : sizeTypeLen size = 1) (type : SchemaType)
    (f : α → type.Value) {g : α → List UInt8} (h : ∀ x, type.wire .littleEndian (f x) = g x)
    (xs : List α) : (Message.field (.repeated size) type .nil).wire .littleEndian
      (xs.map f, ()) = packed .littleEndian 1 xs.length ++ xs.flatMap g := by
  change packed .littleEndian (sizeTypeLen size) (xs.map f).length ++
    (xs.map f).flatMap (type.wire .littleEndian) ++ [] = _
  rw [hsize, List.append_nil, List.length_map, List.flatMap_map]
  exact congrArg _ (List.flatMap_congr fun x _ => h x)

def timestampBytes (t : Timestamp) : List UInt8 :=
  packed .littleEndian 4 t.seconds.toNat ++ packed .littleEndian 2 t.ms.toNat

theorem timestamp_wire (t : Timestamp) :
    Framework.timestamp.wire .littleEndian (writtenTimestamp t) = timestampBytes t :=
  required_wire _ _ _ _ _ rfl (last_wire _ _ _ rfl)

theorem uint16_wire (x : UInt16) :
    uint16.wire .littleEndian x.toBitVec = packed .littleEndian 2 x.toNat := rfl

theorem uint32_wire (x : UInt32) :
    uint32.wire .littleEndian x.toBitVec = packed .littleEndian 4 x.toNat := rfl

theorem battery_wire (voltage : UInt32) :
    batteryData.wire .littleEndian (voltage.toBitVec, ()) =
      packed .littleEndian 4 voltage.toNat :=
  last_wire _ (.number .float) voltage.toBitVec rfl

theorem flag_wire (b : Bool) :
    uint8.wire .littleEndian (bit b) = packed .littleEndian 1 (flagAttribute b) := by
  cases b <;> rfl

theorem sample_wire (x : UInt8) : microphoneData.wire .littleEndian (x.toBitVec, ()) = [x] :=
  last_wire _ uint8 x.toBitVec (packed_one _ x)

theorem scanRecord_wire (r : ScanResult) :
    scanResultData.wire .littleEndian (scanRecord r) = deviceBytes r := by
  have hdevice : scanDevice.wire .littleEndian (r.id.toBitVec, r.rssi.toBitVec, ()) =
      packed .littleEndian 2 r.id.toNat ++ packed .littleEndian 1 r.rssi.toBitVec.toNat :=
    required_wire _ uint16 _ r.id.toBitVec _ rfl (last_wire _ (.number .int8) r.rssi.toBitVec rfl)
  have h : scanResultData.wire .littleEndian (scanRecord r) = _ ++ _ :=
    required_wire _ (.message scanDevice) (required uint8 .nil)
      (r.id.toBitVec, r.rssi.toBitVec, ()) (r.count.toBitVec, ()) hdevice
      (last_wire _ uint8 r.count.toBitVec rfl)
  rw [h, List.append_assoc]
  rfl

/-! ## Responses -/

theorem status_bytes (r : StatusResponse) : (Response.status r).bytes =
    fieldBytes (Response.status r).messageFields (Response.status r).attributes := by
  have hbytes : (Response.status r).bytes = statusResponse.wire .littleEndian
      (bit r.clockStatus, bit r.scanStatus, bit r.collectorStatus, writtenTimestamp r.timestamp,
        (r.voltage.toBitVec, ()), ()) ++ [] := rfl
  have hstatus : statusResponse.wire .littleEndian (bit r.clockStatus, bit r.scanStatus,
      bit r.collectorStatus, writtenTimestamp r.timestamp, (r.voltage.toBitVec, ()), ()) = _ :=
    required_wire _ uint8 _ (bit r.clockStatus) _ (flag_wire _) <|
    required_wire _ uint8 _ (bit r.scanStatus) _ (flag_wire _) <|
    required_wire _ uint8 _ (bit r.collectorStatus) _ (flag_wire _) <|
    required_wire _ (.message Framework.timestamp) _ _ _ (timestamp_wire r.timestamp) <|
    last_wire _ (.message batteryData) _ (battery_wire r.voltage)
  rw [hbytes, hstatus, List.append_nil, timestampBytes]
  simp [Response.messageFields, Response.attributes, BadgeLegacy.StatusResponse.messageFields,
    fieldBytes, BadgeLegacy.boolField, BadgeLegacy.ulongField, BadgeLegacy.ushortField,
    BadgeLegacy.floatField, BadgeLegacy.FieldType.length]

theorem start_bytes (k : Source) (t : Timestamp) : (Response.start k t).bytes =
    fieldBytes (Response.start k t).messageFields (Response.start k t).attributes := by
  have hbytes : (Response.start k t).bytes =
      startMicrophoneResponse.wire .littleEndian (writtenTimestamp t, ()) ++ [] := by
    cases k <;> rfl
  have hstart : startMicrophoneResponse.wire .littleEndian (writtenTimestamp t, ()) = _ :=
    last_wire _ (.message Framework.timestamp) _ (timestamp_wire t)
  have hfields : fieldBytes (Response.start k t).messageFields (Response.start k t).attributes =
      packed .littleEndian 4 t.seconds.toNat ++ (packed .littleEndian 2 t.ms.toNat ++ []) := by
    cases k <;> rfl
  rw [hbytes, hstart, hfields, List.append_nil, List.append_nil, timestampBytes]

theorem microphone_bytes (t : Timestamp) (voltage : UInt32) (samplePeriodMs : UInt16)
    (data : List UInt8) : (Response.microphoneData t voltage samplePeriodMs data).bytes =
      fieldBytes (Response.microphoneData t voltage samplePeriodMs data).messageFields
        (Response.microphoneData t voltage samplePeriodMs data).attributes ++ data := by
  have hdata := repeated_wire 114 rfl (.message microphoneData)
    (fun x : UInt8 => (x.toBitVec, ())) sample_wire data
  have hheader : microphoneDataResponseHeader.wire .littleEndian
      (writtenTimestamp t, (voltage.toBitVec, ()), samplePeriodMs.toBitVec, ()) = _ :=
    required_wire _ (.message Framework.timestamp) _ _ _ (timestamp_wire t) <|
    required_wire _ (.message batteryData) _ _ _ (battery_wire voltage) <|
    last_wire _ uint16 samplePeriodMs.toBitVec (uint16_wire _)
  have hbytes : (Response.microphoneData t voltage samplePeriodMs data).bytes =
      microphoneDataResponse.wire .littleEndian ((writtenTimestamp t, (voltage.toBitVec, ()),
        samplePeriodMs.toBitVec, ()), data.map fun x => (x.toBitVec, ()), ()) ++ [] := rfl
  have h : microphoneDataResponse.wire .littleEndian ((writtenTimestamp t, (voltage.toBitVec, ()),
      samplePeriodMs.toBitVec, ()), data.map fun x => (x.toBitVec, ()), ()) = _ ++ _ :=
    required_wire _ (.message microphoneDataResponseHeader) _ _ _ hheader hdata
  rw [hbytes, h]
  simp [timestampBytes, Response.messageFields, Response.attributes,
    BadgeLegacy.MicrophoneDataHeader.messageFields, fieldBytes, BadgeLegacy.ulongField,
    BadgeLegacy.ushortField, BadgeLegacy.floatField, BadgeLegacy.uint8Field,
    BadgeLegacy.FieldType.length]

theorem scan_bytes (seconds voltage : UInt32) (results : List ScanResult) :
    (Response.scanData seconds voltage results).bytes =
      fieldBytes (Response.scanData seconds voltage results).messageFields
        (Response.scanData seconds voltage results).attributes ++
          results.flatMap deviceBytes := by
  have hdata := repeated_wire 29 rfl (.message scanResultData) scanRecord
    scanRecord_wire results
  have hheader : scanDataResponseHeader.wire .littleEndian
      (seconds.toBitVec, (voltage.toBitVec, ()), ()) = _ :=
    required_wire _ uint32 _ seconds.toBitVec _ (uint32_wire _) <|
    last_wire _ (.message batteryData) _ (battery_wire voltage)
  have hbytes : (Response.scanData seconds voltage results).bytes =
      scanDataResponse.wire .littleEndian ((seconds.toBitVec, (voltage.toBitVec, ()), ()),
        results.map scanRecord, ()) ++ [] := rfl
  have h : scanDataResponse.wire .littleEndian ((seconds.toBitVec, (voltage.toBitVec, ()), ()),
      results.map scanRecord, ()) = _ ++ _ :=
    required_wire _ (.message scanDataResponseHeader) _ _ _ hheader hdata
  rw [hbytes, h]
  simp [Response.messageFields, Response.attributes, BadgeLegacy.ScanDataHeader.messageFields,
    fieldBytes, BadgeLegacy.ulongField, BadgeLegacy.floatField, BadgeLegacy.uint8Field,
    BadgeLegacy.FieldType.length]

/-- A response is the attributes of the client's message and what stands behind them. -/
theorem Response.bytes_eq (r : Response) :
    r.bytes = fieldBytes r.messageFields r.attributes ++ r.behind := by
  cases r with
  | status r => exact (status_bytes r).trans (List.append_nil _).symm
  | start k t => exact (start_bytes k t).trans (List.append_nil _).symm
  | stop k => cases k <;> rfl
  | microphoneData t voltage samplePeriodMs data => exact microphone_bytes ..
  | scanData seconds voltage results => exact scan_bytes ..
  | identify => rfl

theorem flagAttribute_le (b : Bool) : flagAttribute b ≤ 1 := by cases b <;> decide

theorem Response.fits_attributes {r : Response} (h : r.Fits) :
    List.Forall₂ BadgeLegacy.Fits r.messageFields r.attributes := by
  have hflag (b : Bool) : BadgeLegacy.Fits BadgeLegacy.boolField (flagAttribute b) :=
    ⟨Nat.lt_of_le_of_lt (flagAttribute_le b) (by decide), fun _ => flagAttribute_le b⟩
  have hulong (x : UInt32) : BadgeLegacy.Fits BadgeLegacy.ulongField x.toNat :=
    BadgeLegacy.fits_of_lt (by decide) x.toNat_lt
  have hushort (x : UInt16) : BadgeLegacy.Fits BadgeLegacy.ushortField x.toNat :=
    BadgeLegacy.fits_of_lt (by decide) x.toNat_lt
  have hfloat (x : UInt32) : BadgeLegacy.Fits BadgeLegacy.floatField x.toNat :=
    BadgeLegacy.fits_of_lt (by decide) x.toNat_lt
  have huint8 {n : Nat} (hn : n < 256) : BadgeLegacy.Fits BadgeLegacy.uint8Field n :=
    BadgeLegacy.fits_of_lt (by decide) hn
  cases r with
  | status r =>
    exact .cons (hflag _) <| .cons (hflag _) <| .cons (hflag _) <| .cons (hulong _) <|
      .cons (hushort _) <| .cons (hfloat _) .nil
  | start k t => cases k <;> exact .cons (hulong _) <| .cons (hushort _) .nil
  | stop => exact .nil
  | microphoneData t voltage samplePeriodMs data =>
    have hdata : data.length ≤ protocolMicrophoneDataSize := h
    exact .cons (hulong _) <| .cons (hushort _) <| .cons (hfloat _) <| .cons (hushort _) <|
      .cons (huint8 (Nat.lt_of_le_of_lt hdata (by decide))) .nil
  | scanData seconds voltage results =>
    have hresults : results.length ≤ protocolScanDataSize := h
    exact .cons (hulong _) <| .cons (hfloat _) <|
      .cons (huint8 (Nat.lt_of_le_of_lt hresults (by decide))) .nil
  | identify => exact .nil

end OpenBadge.RequestHandler01
