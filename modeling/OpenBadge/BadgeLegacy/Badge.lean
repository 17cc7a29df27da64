import OpenBadge.BadgeLegacy.Fields

/-!
# badge_legacy.py: the client of protocol 01v1

A call writes its request in one piece and waits for a response of known length. The response
to a request for stored data is a series of headers with data behind them, up to a header of
zeros. The loop runs at most as often as bytes are left to be read, since every turn reads some.
-/

namespace OpenBadge.BadgeLegacy

open OpenBadge.Lib OpenBadge.Tinybuf OpenBadge.Framework

abbrev Client := Proc Connection Failure

def raise {α : Type} : Except Failure α → Client α
  | .ok a => pure a
  | .error e => Proc.fail e

/-- What is not there has been returned as `None`, which no reader takes. -/
def notNone {α : Type} : Option α → Client α
  | some a => pure a
  | none => Proc.fail .typeError

structure BadgeMessage where
  messageFields : List MessageField
  attributes : Attributes

/-- `response_type.length() if response_type else 0` -/
def expectedResponseLength : Option (List MessageField) → Nat
  | some messageFields => messageLength messageFields
  | none => 0

/-- `send_command`; without a response, nothing. -/
def sendCommand (commandMessage : BadgeMessage) (responseType : Option (List MessageField)) :
    Client (Option Attributes) := do
  let serializedCommand ←
    raise (serializeMessage commandMessage.messageFields commandMessage.attributes)
  let serializedResponse ← send serializedCommand (expectedResponseLength responseType)
  match responseType with
  | some messageFields => do
    let serializedResponse ← notNone serializedResponse
    let response ← raise (deserializeMessage messageFields serializedResponse)
    pure (some response)
  | none => pure none

/-! ## Requests -/

/-- `if badge_id: self.badge_id = badge_id` -/
def unlessZero (x : Option Nat) : Option Nat := x.filter (0 < ·)

def statusRequest (seconds : UInt32) (ms : UInt16) (badgeId : Option UInt16)
    (groupNumber : Option UInt8) : BadgeMessage :=
  ⟨StatusRequest.messageFields, [some 0x73, some seconds.toNat, some ms.toNat,
    unlessZero (badgeId.map UInt16.toNat), unlessZero (groupNumber.map UInt8.toNat)]⟩

def startRecordRequest (seconds : UInt32) (ms timeoutMinutes : UInt16) : BadgeMessage :=
  ⟨StartRecordRequest.messageFields,
    [some 0x31, some seconds.toNat, some ms.toNat, some timeoutMinutes.toNat]⟩

def stopRecordRequest : BadgeMessage := ⟨StopRecordRequest.messageFields, [some 0x30]⟩

def startScanningRequest (seconds : UInt32) (ms timeoutMinutes windowMiliseconds
    intervalMiliseconds durationSeconds periodSeconds : UInt16) : BadgeMessage :=
  ⟨StartScanningRequest.messageFields,
    [some 0x70, some seconds.toNat, some ms.toNat, some timeoutMinutes.toNat,
      some windowMiliseconds.toNat, some intervalMiliseconds.toNat, some durationSeconds.toNat,
      some periodSeconds.toNat]⟩

def stopScanningRequest : BadgeMessage := ⟨StopScanningRequest.messageFields, [some 0x71]⟩

def identifyRequest (durationSeconds : UInt16) : BadgeMessage :=
  ⟨IdentifyRequest.messageFields, [some 0x69, some durationSeconds.toNat]⟩

def microphoneDataRequest (seconds : UInt32) (ms : UInt16) : BadgeMessage :=
  ⟨MicrophoneDataRequest.messageFields, [some 0x72, some seconds.toNat, some ms.toNat]⟩

def scanDataRequest (seconds : UInt32) : BadgeMessage :=
  ⟨ScanDataRequest.messageFields, [some 0x62, some seconds.toNat]⟩

/-! ## Downloads -/

/-- `is_end_header` -/
def isEndHeader (messageFields : List MessageField) (header : Attributes) :
    Except Failure Bool := do
  let serializedHeader ← serializeMessage messageFields header
  pure (serializedHeader = List.replicate (messageLength messageFields) 0)

/-- `while not is_end_header(header):` of both downloads, with the chunks so far. -/
def downloadLoop {β : Type} (messageFields : List MessageField) (bytesAwaited : Attributes → Nat)
    (element : Attributes → Option (List UInt8) → Except Failure β) :
    Nat → Attributes → List β → Client (List β)
  | 0, _, _ => Proc.fail .waits
  | n + 1, header, chunks => do
    let isEnd ← raise (isEndHeader messageFields header)
    if isEnd then pure chunks
    else do
      let data ← awaitData (bytesAwaited header)
      let chunk ← raise (element header data)
      let serializedHeader ← awaitData (messageLength messageFields)
      let serializedHeader ← notNone serializedHeader
      let header ← raise (deserializeMessage messageFields serializedHeader)
      downloadLoop messageFields bytesAwaited element n header (chunks ++ [chunk])

def download {β : Type} (messageFields : List MessageField) (bytesAwaited : Attributes → Nat)
    (element : Attributes → Option (List UInt8) → Except Failure β) (request : BadgeMessage) :
    Client (List β) := do
  let header ← sendCommand request (some messageFields)
  let header ← notNone header
  let c ← Proc.get
  downloadLoop messageFields bytesAwaited element (c.stream.length + 1) header []

/-- The attribute behind `i` others. -/
def attributeAt (i : Nat) (header : Attributes) : Nat := header[i]?.join.getD 0

def numSamplesInChunk (header : Attributes) : Nat := attributeAt 4 header

def numDevicesSeen (header : Attributes) : Nat := attributeAt 2 header

/-- `(header, map(ord, data))`; `map` does not take `None`. -/
def microphoneElement (header : Attributes) :
    Option (List UInt8) → Except Failure (Attributes × List UInt8)
  | some data => .ok (header, data)
  | none => .error .typeError

/-- `(header, devices)`, without devices if there are no data. -/
def scanElement (header : Attributes) (data : Option (List UInt8)) :
    Except Failure (Attributes × List Attributes) := do
  let data := data.getD []
  let devices ← (List.range ((data.length + 3) / 4)).mapM fun i =>
    deserializeMessage ScanDataDevice.messageFields ((data.drop (4 * i)).take 4)
  pure (header, devices)

/-! ## Calls -/

/-- `get_status` -/
def getStatus (seconds : UInt32) (ms : UInt16) (newId : Option UInt16)
    (newGroupNumber : Option UInt8) : Client (Option Attributes) :=
  sendCommand (statusRequest seconds ms newId newGroupNumber) (some StatusResponse.messageFields)

/-- `start_recording` -/
def startRecording (seconds : UInt32) (ms timeoutMinutes : UInt16) : Client (Option Attributes) :=
  sendCommand (startRecordRequest seconds ms timeoutMinutes)
    (some StartRecordResponse.messageFields)

/-- `stop_recording` -/
def stopRecording : Client (Option Attributes) := sendCommand stopRecordRequest none

/-- `start_scanning` -/
def startScanning (seconds : UInt32) (ms timeoutMinutes windowMiliseconds intervalMiliseconds
    durationSeconds periodSeconds : UInt16) : Client (Option Attributes) :=
  sendCommand (startScanningRequest seconds ms timeoutMinutes windowMiliseconds
    intervalMiliseconds durationSeconds periodSeconds) (some StartScanningResponse.messageFields)

/-- `stop_scanning` -/
def stopScanning : Client (Option Attributes) := sendCommand stopScanningRequest none

/-- `identify` -/
def identify (durationSeconds : UInt16) : Client (Option Attributes) :=
  sendCommand (identifyRequest durationSeconds) none

/-- `get_mic_data` -/
def getMicData (seconds : UInt32) (ms : UInt16) : Client (List (Attributes × List UInt8)) :=
  download MicrophoneDataHeader.messageFields numSamplesInChunk microphoneElement
    (microphoneDataRequest seconds ms)

/-- `get_scan_data`, whose request has no milliseconds. -/
def getScanData (seconds : UInt32) : Client (List (Attributes × List Attributes)) :=
  download ScanDataHeader.messageFields
    (fun header => numDevicesSeen header * messageLength ScanDataDevice.messageFields) scanElement
    (scanDataRequest seconds)

end OpenBadge.BadgeLegacy
