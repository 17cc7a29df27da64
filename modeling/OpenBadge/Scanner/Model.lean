import OpenBadge.Lib.Bytes
import Mathlib.Logic.Function.Iterate

/-!
# scanner_lib.c: the advertising reports

The callback walks over the structures of an advertising payload, a length byte with a
type byte and data behind it, until it has found a name and manufacturer data, and looks
at these two. The offsets of the payload that it reads are recorded.
-/

namespace OpenBadge.Scanner

open OpenBadge.Lib

/-- `ble_gap_evt_adv_report_t`. Behind the `dlen` bytes of the payload stands whatever
lies there in memory. -/
structure AdvReport where
  rssi : Int8
  dlen : UInt8
  data : Nat → UInt8

def scannerMinimumRssi : Int8 := -120

def isNameType (fieldType : UInt8) : Prop := fieldType = 0x08 ∨ fieldType = 0x09

def isManufacturerType (fieldType : UInt8) : Prop := fieldType = 0xFF

instance (fieldType : UInt8) : Decidable (isNameType fieldType) :=
  inferInstanceAs (Decidable (_ ∨ _))

instance (fieldType : UInt8) : Decidable (isManufacturerType fieldType) :=
  inferInstanceAs (Decidable (_ = _))

/-- The local variables of the loop; pointers are offsets of the payload. -/
structure Parse where
  namePtr : Option Nat
  manufDataPtr : Option Nat
  manufDataLen : UInt8
  index : UInt8
  reads : List Nat
  deriving DecidableEq, Repr

def Parse.init : Parse := ⟨none, none, 0, 0, []⟩

/-- The condition of the loop. -/
def Parse.Continues (dlen : UInt8) (p : Parse) : Prop :=
  (p.namePtr = none ∨ p.manufDataPtr = none) ∧ p.index < dlen

instance (dlen : UInt8) (p : Parse) : Decidable (p.Continues dlen) :=
  inferInstanceAs (Decidable (_ ∧ _))

/-- One turn of the loop. The index has eight bits. -/
def parseField (data : Nat → UInt8) (p : Parse) : Parse :=
  let fieldLen := data p.index.toNat
  let index := p.index + 1
  let fieldType := data index.toNat
  let p := { p with reads := p.reads ++ [p.index.toNat, index.toNat] }
  let p :=
    if isNameType fieldType then { p with namePtr := some (index.toNat + 1) }
    else if isManufacturerType fieldType then
      { p with manufDataPtr := some (index.toNat + 1), manufDataLen := fieldLen - 1 }
    else p
  { p with index := index + fieldLen }

/-- The `while` loop; `none` when it has not ended after that many turns. -/
def parseLoop (dlen : UInt8) (data : Nat → UInt8) : Nat → Parse → Option Parse
  | 0, p => if p.Continues dlen then none else some p
  | fuel + 1, p =>
    if p.Continues dlen then parseLoop dlen data fuel (parseField data p) else some p

/-! ## The report -/

inductive DeviceType where
  | badge
  | ibeacon
  deriving DecidableEq, Repr

/-- `scanner_scan_report_t`. -/
structure ScanReport where
  id : UInt16
  group : UInt8
  deviceType : DeviceType
  rssi : Int8
  deriving DecidableEq, Repr

/-- `"HDBDG"`. -/
def advertisingDeviceName : List UInt8 := [0x48, 0x44, 0x42, 0x44, 0x47]

def customAdvdataLen : Nat := 11

/-- `CUSTOM_ADVDATA_LEN` and the company identifier. -/
def advertiserGetManufDataLen : UInt8 := 13

def ibeaconManufDataLen : UInt8 := 0x19

def le16 (data : Nat → UInt8) (a : Nat) : UInt16 :=
  (data a).toUInt16 ||| (data (a + 1)).toUInt16 <<< 8

def be16 (data : Nat → UInt8) (a : Nat) : UInt16 :=
  (data a).toUInt16 * 256 + (data (a + 1)).toUInt16

/-- The manufacturer data begin with `COMPANY_ID_APPLE` and `IBEACON_TYPE_PROXIMITY`. -/
def IsProximityBeacon (data : Nat → UInt8) (manufData : Nat) : Prop :=
  le16 data manufData = 0x004C ∧ le16 data (manufData + 2) = 0x1502

instance (data : Nat → UInt8) (manufData : Nat) : Decidable (IsProximityBeacon data manufData) :=
  inferInstanceAs (Decidable (_ ∧ _))

/-- Battery and status flags stand in front of the assignment. -/
def badgeReport (rssi : Int8) (data : Nat → UInt8) (manufData : Nat) : ScanReport :=
  ⟨le16 data (manufData + 4), data (manufData + 6), .badge, rssi⟩

/-- The minor and the lower byte of the major. -/
def ibeaconReport (rssi : Int8) (data : Nat → UInt8) (manufData : Nat) : ScanReport :=
  ⟨be16 data (manufData + 22), data (manufData + 21), .ibeacon, rssi⟩

/-- The rest of the callback, with the offsets that it reads. `memcmp` reads the whole
length of the name. -/
def reportOf (rssi : Int8) (data : Nat → UInt8) (p : Parse) : Option ScanReport × List Nat :=
  if p.manufDataLen = advertiserGetManufDataLen then
    match p.namePtr, p.manufDataPtr with
    | some name, some manufData =>
      if slice data name advertisingDeviceName.length = advertisingDeviceName then
        (some (badgeReport rssi data manufData),
          List.range' name advertisingDeviceName.length ++
            List.range' (manufData + 2) customAdvdataLen)
      else (none, List.range' name advertisingDeviceName.length)
    | _, _ => (none, [])
  else if p.manufDataLen = ibeaconManufDataLen then
    match p.manufDataPtr with
    | some manufData =>
      (if IsProximityBeacon data manufData then some (ibeaconReport rssi data manufData)
        else none, List.range' manufData ibeaconManufDataLen.toNat)
    | none => (none, [])
  else (none, [])

/-- `internal_on_scan_report_callback`: the report that is handed on and the offsets of the
payload that are read, or `none` when the loop has not ended after that many turns. -/
def internalOnScanReportCallback (fuel : Nat) (r : AdvReport) :
    Option (Option ScanReport × List Nat) :=
  if r.rssi < scannerMinimumRssi then some (none, [])
  else (parseLoop r.dlen r.data fuel Parse.init).map fun p =>
    ((reportOf r.rssi r.data p).1, p.reads ++ (reportOf r.rssi r.data p).2)

end OpenBadge.Scanner
