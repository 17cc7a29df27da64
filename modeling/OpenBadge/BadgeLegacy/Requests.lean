import OpenBadge.BadgeLegacy.Chunks
import OpenBadge.Framework.Calls

/-!
# What the badge makes of the client's requests

The client has its own tables of fields, the badge the table generated from the schema. A status
request with an assignment has the tag of one without: the badge tells them apart by the bytes
behind the timestamp.
-/

namespace OpenBadge.Tinybuf

mutual

/-- No message has more entries in its table than the index counts. -/
def SchemaType.shortTables : SchemaType → Bool
  | .number _ => true
  | .message m => decide (m.numFields ≤ 255) && m.shortTables

def Message.shortTables : Message → Bool
  | .nil => true
  | .field _ type next => type.shortTables && next.shortTables
  | .oneof inner next => inner.shortTables && next.shortTables
  | .emptyOneof next => next.shortTables

def InnerFields.shortTables : InnerFields → Bool
  | .nil => true
  | .cons _ type next => type.shortTables && next.shortTables

end

mutual

theorem SchemaType.plain_walked : (type : SchemaType) → type.plain = true →
    type.shortTables = true → (x : type.Value) → type.Meets .walked x
  | .number _, _, _, _ => trivial
  | .message m, h, hs, v => by
    rw [SchemaType.shortTables, Bool.and_eq_true, decide_eq_true_iff] at hs
    exact ⟨hs.1, m.plain_walked h hs.2 v⟩

/-- Every value of such a message is decoded with the table. -/
theorem Message.plain_walked : (m : Message) → m.plain = true → m.shortTables = true →
    (v : m.Value) → m.Meets .walked v
  | .nil, _, _, _ => trivial
  | .field rule type next, h, hs, (x, v) => by
    rw [Message.plain, Bool.and_eq_true, Bool.and_eq_true] at h
    rw [Message.shortTables, Bool.and_eq_true] at hs
    exact ⟨⟨Rule.single_fits h.1 x, fun y _ => type.plain_walked h.2.1 hs.1 y⟩,
      next.plain_walked h.2.2 hs.2 v⟩
  | .oneof inner next, h, hs, (x, v) => by
    rw [Message.plain, Bool.and_eq_true] at h
    rw [Message.shortTables, Bool.and_eq_true] at hs
    exact ⟨inner.plain_walked h.1 hs.1 x, next.plain_walked h.2 hs.2 v⟩

theorem InnerFields.plain_walked : (inner : InnerFields) → inner.plain = true →
    inner.shortTables = true → (x : inner.Value) → inner.Meets .walked x
  | .cons _ type next, h, hs, x => by
    rw [InnerFields.plain, Bool.and_eq_true] at h
    rw [InnerFields.shortTables, Bool.and_eq_true] at hs
    cases x with
    | inl x => exact type.plain_walked h.1 hs.1 x
    | inr x => exact next.plain_walked h.2 hs.2 x

end

end OpenBadge.Tinybuf

namespace OpenBadge.RequestHandler01

open OpenBadge.Lib OpenBadge.Tinybuf OpenBadge.Framework

/-! ## The table -/

theorem request_accepted : request.Accepted := by
  simp [request, requestType, Message.Accepted, InnerFields.Accepted, SchemaType.Accepted,
    InnerFields.tags, Rule.Accepted, required, uint16, uint32, Framework.timestamp,
    badgeAssignement, uint8, statusRequest, statusAssignRequest, startMicrophoneRequest,
    stopMicrophoneRequest, startScanRequest, stopScanRequest, microphoneDataRequest,
    scanDataRequest, identifyRequest]

theorem statusAssignRequest_accepted : statusAssignRequest.Accepted := by
  simp [Message.Accepted, SchemaType.Accepted, Rule.Accepted, required, uint16, uint32,
    Framework.timestamp, badgeAssignement, uint8, statusAssignRequest]

theorem request_compiles : (SchemaType.message request).Compiles armAbi := by
  refine ⟨?_, by decide⟩
  simp [request, requestType, Message.Compiles, InnerFields.Compiles, SchemaType.Compiles,
    Rule.isArray, required, uint16, uint32, Framework.timestamp, badgeAssignement, uint8,
    statusRequest, statusAssignRequest, startMicrophoneRequest, stopMicrophoneRequest,
    startScanRequest, stopScanRequest, microphoneDataRequest, scanDataRequest, identifyRequest]
  decide

theorem request_walked (v : request.Value) : (SchemaType.message request).Meets .walked v :=
  SchemaType.plain_walked (.message request) (by decide) (by decide) v

theorem request_meets (v : request.Value) : request.Meets .encodable v :=
  Message.Meets.imp valid_implies_encodable request request_accepted
    (request.plain_valid (by decide) v)

/-- `tb_decode` with the table of requests takes what the generated class takes. -/
theorem tbDecode_request_iff (host : TbEndian) (input : Buffer) (dst : Memory) (base : Nat) :
    (∃ t, (decodeWalker host .littleEndian).Returns1 (request.fields armAbi 0) base
        (decodeFrom input dst) t) ↔ ∃ v, request.decode .littleEndian input.toList = .ok v := by
  rw [tbDecode_accepts request_accepted request_compiles]
  refine exists_congr fun v => ?_
  refine Iff.trans ?_ (decode_eq_ok request_accepted (v := v)).symm
  exact and_congr_left fun _ => iff_of_true (request_walked v) (request_meets v)

/-- And it leaves the same request in the structure. -/
theorem tbDecode_request (host : TbEndian) {input : Buffer} {v : request.Value}
    (h : request.decode .littleEndian input.toList = .ok v) (dst : Memory) (base : Nat) :
    ∃ t, (decodeWalker host .littleEndian).Returns1 (request.fields armAbi 0) base
        (decodeFrom input dst) t ∧ request.Holds armAbi host t.dst base 0 v :=
  tbDecode_of_wire request_accepted request_compiles (request_walked v)
    ((decode_eq_ok request_accepted).mp h).2 dst base

theorem decodeRequest_wire {v : request.Value} {bytes : List UInt8}
    (h : request.wire .littleEndian v <+: bytes) :
    decodeRequest bytes = some (Request.ofValue v) := by
  rw [decodeRequest, (decode_eq_ok request_accepted).mpr ⟨request_meets v, h⟩]

/-! ## Assignments -/

def assignementBytes (b : Storer.BadgeAssignement) : List UInt8 :=
  packed .littleEndian 2 b.ID.toNat ++ packed .littleEndian 1 b.group.toNat

def writtenAssign (t : Processing.Timestamp) (b : Storer.BadgeAssignement) :
    statusAssignRequest.Value :=
  (writtenTimestamp t, (b.ID.toBitVec, b.group.toBitVec, ()), ())

theorem statusAssign_wire (t : Processing.Timestamp) (b : Storer.BadgeAssignement) :
    statusAssignRequest.wire .littleEndian (writtenAssign t b) =
      timestampBytes t ++ assignementBytes b := by
  have hassignement : badgeAssignement.wire .littleEndian (b.ID.toBitVec, b.group.toBitVec, ()) =
      assignementBytes b :=
    required_wire _ uint16 _ b.ID.toBitVec _ rfl (last_wire _ uint8 b.group.toBitVec rfl)
  exact required_wire _ (.message Framework.timestamp) _ _ _ (timestamp_wire t)
    (last_wire _ (.message badgeAssignement) _ hassignement)

/-- An assignment takes nine bytes. -/
theorem statusAssign_length (v : statusAssignRequest.Value) :
    (statusAssignRequest.wire .littleEndian v).length = 9 := by
  obtain ⟨⟨seconds, ms, ⟨⟩⟩, ⟨id, group, ⟨⟩⟩, ⟨⟩⟩ := v
  have h := statusAssign_wire ⟨UInt32.ofBitVec seconds, UInt16.ofBitVec ms⟩
    ⟨UInt16.ofBitVec id, UInt8.ofBitVec group⟩
  refine (congrArg List.length h).trans ?_
  simp [timestampBytes, assignementBytes]

theorem reinterpretStatus_short {bytes : List UInt8} (h : bytes.length < 10) (r : Request) :
    reinterpretStatus bytes r = r := by
  rw [reinterpretStatus]
  split
  · split
    · next v hv =>
      have hle := ((decode_eq_ok statusAssignRequest_accepted).mp hv).2.length_le
      rw [statusAssign_length, List.length_drop] at hle
      omega
    · rfl
  · rfl

theorem reinterpretStatus_assign {bytes : List UInt8} {tag : UInt8} {t : Processing.Timestamp}
    {b : Storer.BadgeAssignement} (h : bytes = tag :: (timestampBytes t ++ assignementBytes b))
    {r : Request} (hr : r.whichType = 115) :
    reinterpretStatus bytes r = r.assign (writtenAssign t b) := by
  have hdecode : statusAssignRequest.decode .littleEndian (bytes.drop 1) =
      .ok (writtenAssign t b) := by
    refine (decode_eq_ok statusAssignRequest_accepted).mpr ⟨?_, ?_⟩
    · exact Message.Meets.imp valid_implies_encodable _ statusAssignRequest_accepted
        (statusAssignRequest.plain_valid (by decide) _)
    · rw [h, statusAssign_wire]
      exact List.prefix_rfl
  rw [reinterpretStatus, if_pos hr, hdecode]

end OpenBadge.RequestHandler01

namespace OpenBadge.BadgeLegacy

open OpenBadge.Lib OpenBadge.Tinybuf OpenBadge.Framework
open RequestHandler01 (Request RequestType Source)
open Processing (Timestamp)
open Storer (BadgeAssignement)

/-! ## Calls -/

/-- A call of the client. -/
inductive Ask where
  | getStatus (t : Timestamp) (newId : Option UInt16) (newGroupNumber : Option UInt8)
  | startRecording (t : Timestamp) (timeoutMinutes : UInt16)
  | stopRecording
  | startScanning (t : Timestamp) (timeoutMinutes windowMiliseconds intervalMiliseconds
      durationSeconds periodSeconds : UInt16)
  | stopScanning
  | identify (durationSeconds : UInt16)
  | getMicData (t : Timestamp)
  | getScanData (seconds : UInt32)
  deriving DecidableEq

def Ask.message : Ask → BadgeMessage
  | .getStatus t newId newGroupNumber => statusRequest t.seconds t.ms newId newGroupNumber
  | .startRecording t timeoutMinutes => startRecordRequest t.seconds t.ms timeoutMinutes
  | .stopRecording => stopRecordRequest
  | .startScanning t timeoutMinutes windowMiliseconds intervalMiliseconds durationSeconds
      periodSeconds =>
    startScanningRequest t.seconds t.ms timeoutMinutes windowMiliseconds intervalMiliseconds
      durationSeconds periodSeconds
  | .stopScanning => stopScanningRequest
  | .identify durationSeconds => identifyRequest durationSeconds
  | .getMicData t => microphoneDataRequest t.seconds t.ms
  | .getScanData seconds => scanDataRequest seconds

/-- The assignment that a status request makes: both numbers are given, and neither is zero. -/
def assigned : Option UInt16 → Option UInt8 → Option BadgeAssignement
  | some id, some group => if 0 < id.toNat ∧ 0 < group.toNat then some ⟨id, group⟩ else none
  | _, _ => none

/-- The request that the badge has of a call. -/
def Ask.request : Ask → Request
  | .getStatus t newId newGroupNumber =>
    match assigned newId newGroupNumber with
    | some b => ⟨83, t.seconds, t.ms, b.ID, b.group.toUInt16, 0, 0, 0⟩
    | none => ⟨115, t.seconds, t.ms, 0, 0, 0, 0, 0⟩
  | .startRecording t timeoutMinutes => ⟨49, t.seconds, t.ms, timeoutMinutes, 0, 0, 0, 0⟩
  | .stopRecording => ⟨48, 0, 0, 0, 0, 0, 0, 0⟩
  | .startScanning t timeoutMinutes windowMiliseconds intervalMiliseconds durationSeconds
      periodSeconds =>
    ⟨112, t.seconds, t.ms, timeoutMinutes, windowMiliseconds, intervalMiliseconds,
      durationSeconds, periodSeconds⟩
  | .stopScanning => ⟨113, 0, 0, 0, 0, 0, 0, 0⟩
  | .identify durationSeconds => ⟨105, durationSeconds.toUInt32, 0, 0, 0, 0, 0, 0⟩
  | .getMicData t => ⟨114, t.seconds, t.ms, 0, 0, 0, 0, 0⟩
  | .getScanData seconds => ⟨98, seconds, 0, 0, 0, 0, 0, 0⟩

/-- Its handler. -/
def Ask.type : Ask → RequestType
  | .getStatus _ newId newGroupNumber =>
    if (assigned newId newGroupNumber).isSome then .statusAssign else .status
  | .startRecording _ _ => .start .microphone
  | .stopRecording => .stop .microphone
  | .startScanning _ _ _ _ _ _ => .start .scan
  | .stopScanning => .stop .scan
  | .identify _ => .identify
  | .getMicData _ => .data .microphone
  | .getScanData _ => .data .scan

/-- The bytes of the attributes that are there. -/
def presentBytes : List MessageField → Attributes → List UInt8
  | f :: fs, some x :: xs => packed .littleEndian f.type.length x ++ presentBytes fs xs
  | _ :: fs, none :: xs => presentBytes fs xs
  | _, _ => []

theorem serializeMessage_present {fs : List MessageField} {xs : Attributes}
    (h : List.Forall₂ (fun f o => ∀ x ∈ o, Fits f x) fs xs) :
    serializeMessage fs xs = .ok (presentBytes fs xs) := by
  induction h with
  | nil => rfl
  | @cons f o fs xs ho _ ih =>
    cases o with
    | none => exact ih
    | some x =>
      rw [serializeMessage, serialize_ok (ho x rfl), ih]
      rfl

def Ask.bytes (a : Ask) : List UInt8 := presentBytes a.message.messageFields a.message.attributes

theorem fits_present {f : MessageField} {x : Nat} (hf : f.type ≠ .bool)
    (h : x < 256 ^ f.type.length) : ∀ y ∈ some x, Fits f y := by
  intro y hy
  cases hy
  exact fits_of_lt hf h

theorem unlessZero_lt {x : Option Nat} {n : Nat} (h : ∀ y ∈ x, y < n) :
    ∀ y ∈ unlessZero x, y < n := by
  intro y hy
  exact h y (Option.filter_eq_some_iff.mp hy).1

/-- Every call has bytes. -/
theorem Ask.serialize (a : Ask) :
    serializeMessage a.message.messageFields a.message.attributes = .ok a.bytes := by
  have hheader {x : Nat} (hx : x < 256) : ∀ y ∈ some x, Fits charField y :=
    fits_present (by decide) hx
  have hulong (x : UInt32) : ∀ y ∈ some x.toNat, Fits ulongField y :=
    fits_present (by decide) x.toNat_lt
  have hushort (x : UInt16) : ∀ y ∈ some x.toNat, Fits ushortField y :=
    fits_present (by decide) x.toNat_lt
  refine serializeMessage_present ?_
  cases a with
  | getStatus t newId newGroupNumber =>
    have hid : ∀ y ∈ unlessZero (newId.map UInt16.toNat), Fits ushortField.orAbsent y := by
      intro y hy
      refine fits_of_lt (by decide) (unlessZero_lt (fun y hy => ?_) y hy)
      obtain ⟨id, -, rfl⟩ := Option.map_eq_some_iff.mp hy
      exact id.toNat_lt
    have hgroup : ∀ y ∈ unlessZero (newGroupNumber.map UInt8.toNat),
        Fits uint8Field.orAbsent y := by
      intro y hy
      refine fits_of_lt (by decide) (unlessZero_lt (fun y hy => ?_) y hy)
      obtain ⟨group, -, rfl⟩ := Option.map_eq_some_iff.mp hy
      exact group.toNat_lt
    exact .cons (hheader (by decide)) <| .cons (hulong _) <| .cons (hushort _) <|
      .cons hid <| .cons hgroup .nil
  | startRecording t timeoutMinutes =>
    exact .cons (hheader (by decide)) <| .cons (hulong _) <| .cons (hushort _) <|
      .cons (hushort _) .nil
  | stopRecording => exact .cons (hheader (by decide)) .nil
  | startScanning t timeoutMinutes windowMiliseconds intervalMiliseconds durationSeconds
      periodSeconds =>
    exact .cons (hheader (by decide)) <| .cons (hulong _) <| .cons (hushort _) <|
      .cons (hushort _) <| .cons (hushort _) <| .cons (hushort _) <| .cons (hushort _) <|
      .cons (hushort _) .nil
  | stopScanning => exact .cons (hheader (by decide)) .nil
  | identify durationSeconds => exact .cons (hheader (by decide)) <| .cons (hushort _) .nil
  | getMicData t =>
    exact .cons (hheader (by decide)) <| .cons (hulong _) <| .cons (hushort _) .nil
  | getScanData seconds => exact .cons (hheader (by decide)) <| .cons (hulong _) .nil

/-! ## Understanding -/

/-- What stands behind the timestamp of a status request. -/
def assignementPart (newId : Option UInt16) (newGroupNumber : Option UInt8) : List UInt8 :=
  presentBytes [ushortField.orAbsent, uint8Field.orAbsent]
    [unlessZero (newId.map UInt16.toNat), unlessZero (newGroupNumber.map UInt8.toNat)]

theorem unlessZero_some (x : Nat) : unlessZero (some x) = if 0 < x then some x else none := by
  by_cases h : 0 < x <;> simp [unlessZero, Option.filter, h]

theorem assignementPart_assigned {newId : Option UInt16} {newGroupNumber : Option UInt8}
    {b : BadgeAssignement} (h : assigned newId newGroupNumber = some b) :
    assignementPart newId newGroupNumber = RequestHandler01.assignementBytes b := by
  rcases newId with _ | id
  · cases h
  · rcases newGroupNumber with _ | group
    · cases h
    · rw [assigned] at h
      split at h
      · next hpos =>
        cases h
        rw [assignementPart, Option.map_some, Option.map_some, unlessZero_some, unlessZero_some,
          if_pos hpos.1, if_pos hpos.2]
        exact congrArg _ (List.append_nil _)
      · cases h

theorem assignementPart_short {newId : Option UInt16} {newGroupNumber : Option UInt8}
    (h : assigned newId newGroupNumber = none) :
    (assignementPart newId newGroupNumber).length < 3 := by
  have hbytes (x y : Option Nat) (hxy : x = none ∨ y = none) :
      (presentBytes [ushortField.orAbsent, uint8Field.orAbsent] [x, y]).length < 3 := by
    cases x <;> cases y <;>
      simp_all [presentBytes, MessageField.orAbsent, ushortField, uint8Field, FieldType.length]
  refine hbytes _ _ ?_
  rcases newId with _ | id
  · exact .inl rfl
  · rcases newGroupNumber with _ | group
    · exact .inr rfl
    · rw [assigned] at h
      rw [Option.map_some, Option.map_some, unlessZero_some, unlessZero_some]
      split at h
      · cases h
      · next hpos =>
        rcases Classical.not_and_iff_not_or_not.mp hpos with hid | hgroup
        · exact .inl (if_neg hid)
        · exact .inr (if_neg hgroup)

open RequestHandler01 in
/-- The timestamp of a request is where the badge reads it. -/
theorem timestamp_front (tag : UInt8) (t : Timestamp) (fs : List MessageField) (xs : Attributes) :
    presentBytes (charField :: ulongField :: ushortField :: fs)
      (some tag.toNat :: some t.seconds.toNat :: some t.ms.toNat :: xs) =
        tag :: (timestampBytes t ++ presentBytes fs xs) := by
  change packed .littleEndian 1 tag.toNat ++ (packed .littleEndian 4 t.seconds.toNat ++
    (packed .littleEndian 2 t.ms.toNat ++ presentBytes fs xs)) = _
  rw [packed_one, timestampBytes, List.append_assoc]
  rfl

open RequestHandler01 in
theorem getStatus_understood (t : Timestamp) (newId : Option UInt16)
    (newGroupNumber : Option UInt8) :
    (RequestHandler01.decodeRequest (Ask.getStatus t newId newGroupNumber).bytes).map
        (reinterpretStatus (Ask.getStatus t newId newGroupNumber).bytes) =
      some (Ask.getStatus t newId newGroupNumber).request := by
  have hbytes : (Ask.getStatus t newId newGroupNumber).bytes =
      115 :: (timestampBytes t ++ assignementPart newId newGroupNumber) :=
    timestamp_front 115 t _ _
  have hwire : RequestHandler01.request.wire .littleEndian (.inl (writtenTimestamp t, ()), ()) =
      115 :: timestampBytes t := by
    have hrequest : RequestHandler01.statusRequest.wire .littleEndian (writtenTimestamp t, ()) =
        timestampBytes t := last_wire _ (.message Framework.timestamp) _ (timestamp_wire t)
    change 115 :: RequestHandler01.statusRequest.wire .littleEndian (writtenTimestamp t, ()) ++ []
      = _
    rw [hrequest, List.append_nil]
  have hdecode : RequestHandler01.decodeRequest (Ask.getStatus t newId newGroupNumber).bytes =
      some ⟨115, t.seconds, t.ms, 0, 0, 0, 0, 0⟩ := by
    refine decodeRequest_wire (v := (.inl (writtenTimestamp t, ()), ())) ?_
    rw [hwire, hbytes]
    exact ⟨_, rfl⟩
  rw [hdecode, Option.map_some, Ask.request]
  refine congrArg some ?_
  cases hassigned : assigned newId newGroupNumber with
  | none =>
    have hshort := assignementPart_short hassigned
    refine reinterpretStatus_short ?_ _
    rw [hbytes, List.length_cons, List.length_append, timestampBytes, List.length_append,
      packed_length, packed_length]
    omega
  | some b =>
    rw [assignementPart_assigned hassigned] at hbytes
    exact reinterpretStatus_assign hbytes rfl

open RequestHandler01 in
/-- A request that is no status request is what it was decoded to. -/
theorem understood_of_wire {a : Ask} (tag : UInt8) (hstatus : tag ≠ 115)
    (htag : a.request.whichType = tag) {v : RequestHandler01.request.Value}
    (hwire : RequestHandler01.request.wire .littleEndian v = a.bytes)
    (hvalue : Request.ofValue v = a.request) :
    (RequestHandler01.decodeRequest a.bytes).map (reinterpretStatus a.bytes) = some a.request := by
  rw [decodeRequest_wire (v := v) ⟨[], by rw [hwire, List.append_nil]⟩, Option.map_some, hvalue,
    reinterpretStatus, if_neg (htag ▸ hstatus)]

open RequestHandler01 in
/-- The badge has of every call the request that was meant, and finds its handler. -/
theorem Ask.understood (a : Ask) :
    (RequestHandler01.decodeRequest a.bytes).map (reinterpretStatus a.bytes) = some a.request := by
  cases a with
  | getStatus t newId newGroupNumber => exact getStatus_understood t newId newGroupNumber
  | startRecording t timeoutMinutes =>
    have hrequest : startMicrophoneRequest.wire .littleEndian
        (writtenTimestamp t, timeoutMinutes.toBitVec, ()) =
          timestampBytes t ++ packed .littleEndian 2 timeoutMinutes.toNat :=
      required_wire _ (.message Framework.timestamp) _ _ _ (timestamp_wire t)
        (last_wire _ uint16 timeoutMinutes.toBitVec rfl)
    refine understood_of_wire 49 (by decide) rfl (v := (.inr (.inr (.inl
      (writtenTimestamp t, timeoutMinutes.toBitVec, ()))), ())) ?_ rfl
    refine Eq.trans ?_ (timestamp_front 49 t [ushortField] [some timeoutMinutes.toNat]).symm
    change 49 :: startMicrophoneRequest.wire .littleEndian
      (writtenTimestamp t, timeoutMinutes.toBitVec, ()) ++ [] = _
    rw [hrequest, List.append_nil]
    exact congrArg (fun d => 49 :: (timestampBytes t ++ d)) (List.append_nil _).symm
  | stopRecording =>
    exact understood_of_wire 48 (by decide) rfl (v := (.inr (.inr (.inr (.inl ()))), ())) rfl rfl
  | startScanning t timeoutMinutes windowMiliseconds intervalMiliseconds durationSeconds
      periodSeconds =>
    have hrequest : startScanRequest.wire .littleEndian (writtenTimestamp t,
        timeoutMinutes.toBitVec, windowMiliseconds.toBitVec, intervalMiliseconds.toBitVec,
        durationSeconds.toBitVec, periodSeconds.toBitVec, ()) = _ :=
      required_wire _ (.message Framework.timestamp) _ _ _ (timestamp_wire t) <|
      required_wire _ uint16 _ timeoutMinutes.toBitVec _ (uint16_wire _) <|
      required_wire _ uint16 _ windowMiliseconds.toBitVec _ (uint16_wire _) <|
      required_wire _ uint16 _ intervalMiliseconds.toBitVec _ (uint16_wire _) <|
      required_wire _ uint16 _ durationSeconds.toBitVec _ (uint16_wire _) <|
      last_wire _ uint16 periodSeconds.toBitVec (uint16_wire _)
    refine understood_of_wire 112 (by decide) rfl (v := (.inr (.inr (.inr (.inr (.inl
      (writtenTimestamp t, timeoutMinutes.toBitVec, windowMiliseconds.toBitVec,
        intervalMiliseconds.toBitVec, durationSeconds.toBitVec, periodSeconds.toBitVec, ()))))),
      ())) ?_ rfl
    refine Eq.trans ?_ (timestamp_front 112 t
      [ushortField, ushortField, ushortField, ushortField, ushortField]
      [some timeoutMinutes.toNat, some windowMiliseconds.toNat, some intervalMiliseconds.toNat,
        some durationSeconds.toNat, some periodSeconds.toNat]).symm
    change 112 :: startScanRequest.wire .littleEndian (writtenTimestamp t,
      timeoutMinutes.toBitVec, windowMiliseconds.toBitVec, intervalMiliseconds.toBitVec,
      durationSeconds.toBitVec, periodSeconds.toBitVec, ()) ++ [] = _
    rw [hrequest, List.append_nil]
    simp only [presentBytes, List.append_nil]
    rfl
  | stopScanning =>
    exact understood_of_wire 113 (by decide) rfl
      (v := (.inr (.inr (.inr (.inr (.inr (.inl ()))))), ())) rfl rfl
  | identify durationSeconds =>
    have hrequest : RequestHandler01.identifyRequest.wire .littleEndian
        (durationSeconds.toBitVec, ()) = packed .littleEndian 2 durationSeconds.toNat :=
      last_wire _ uint16 durationSeconds.toBitVec rfl
    refine understood_of_wire 105 (by decide) rfl (v := (.inr (.inr (.inr (.inr (.inr (.inr
      (.inr (.inr (.inl (durationSeconds.toBitVec, ()))))))))), ())) ?_ rfl
    change 105 :: RequestHandler01.identifyRequest.wire .littleEndian
      (durationSeconds.toBitVec, ()) ++ [] = _
    rw [hrequest, List.append_nil]
    exact congrArg (105 :: ·) (List.append_nil _).symm
  | getMicData t =>
    have hrequest : RequestHandler01.microphoneDataRequest.wire .littleEndian
        (writtenTimestamp t, ()) = timestampBytes t :=
      last_wire _ (.message Framework.timestamp) _ (timestamp_wire t)
    refine understood_of_wire 114 (by decide) rfl (v := (.inr (.inr (.inr (.inr (.inr (.inr (.inl
      (writtenTimestamp t, ()))))))), ())) ?_ rfl
    refine Eq.trans ?_ (timestamp_front 114 t [] []).symm
    change 114 :: RequestHandler01.microphoneDataRequest.wire .littleEndian
      (writtenTimestamp t, ()) ++ [] = _
    rw [hrequest]
    rfl
  | getScanData seconds =>
    have hrequest : RequestHandler01.scanDataRequest.wire .littleEndian
        (seconds.toBitVec, ()) = packed .littleEndian 4 seconds.toNat :=
      last_wire _ uint32 seconds.toBitVec rfl
    refine understood_of_wire 98 (by decide) rfl (v := (.inr (.inr (.inr (.inr (.inr (.inr
      (.inr (.inl (seconds.toBitVec, ())))))))), ())) ?_ rfl
    change 98 :: RequestHandler01.scanDataRequest.wire .littleEndian (seconds.toBitVec, ()) ++ []
      = _
    rw [hrequest, List.append_nil]
    exact congrArg (98 :: ·) (List.append_nil _).symm

theorem Ask.handler_found (a : Ask) :
    RequestHandler01.findRequestHandler a.request.whichType = some a.type := by
  cases a with
  | getStatus t newId newGroupNumber =>
    rw [Ask.request, Ask.type]
    cases assigned newId newGroupNumber <;> rfl
  | _ => rfl

open RequestHandler01 in
/-- Every call of the client, with arguments that the fields of its message hold, is written as
bytes from which `tb_decode` fills the structure of the request that was meant, and the badge
has a handler for it. Only a status request in which both numbers are given, and neither is
zero, is an assignment. -/
theorem requests_understood (a : Ask) (host : TbEndian) {input : Buffer}
    (hinput : input.toList = a.bytes) (dst : Memory) (base : Nat) :
    serializeMessage a.message.messageFields a.message.attributes = .ok a.bytes ∧
    (∃ v t, (decodeWalker host .littleEndian).Returns1 (RequestHandler01.request.fields armAbi 0)
        base (decodeFrom input dst) t ∧
      RequestHandler01.request.Holds armAbi host t.dst base 0 v ∧
      reinterpretStatus a.bytes (Request.ofValue v) = a.request) ∧
    RequestHandler01.findRequestHandler a.request.whichType = some a.type := by
  refine ⟨a.serialize, ?_, a.handler_found⟩
  have hunderstood := a.understood
  cases hdecode : RequestHandler01.request.decode .littleEndian a.bytes with
  | error e =>
    rw [RequestHandler01.decodeRequest, hdecode] at hunderstood
    cases hunderstood
  | ok v =>
    rw [RequestHandler01.decodeRequest, hdecode] at hunderstood
    obtain ⟨t, hreturns, hholds⟩ := tbDecode_request host (hinput ▸ hdecode) dst base
    exact ⟨v, t, hreturns, hholds, Option.some.inj hunderstood⟩

/-- The assignment to badge 7 in group 2. -/
def assignAsk : Ask := .getStatus ⟨9, 1⟩ (some 7) (some 2)

open RequestHandler01 in
theorem requests_understood_assign :
    ∃ v t, (decodeWalker .littleEndian .littleEndian).Returns1
        (RequestHandler01.request.fields armAbi 0) 0
        (decodeFrom ⟨fun i => assignAsk.bytes.getD i 0, 10, by decide⟩ fun _ => 0) t ∧
      RequestHandler01.request.Holds armAbi .littleEndian t.dst 0 0 v ∧
      reinterpretStatus assignAsk.bytes (Request.ofValue v) = ⟨83, 9, 1, 7, 2, 0, 0, 0⟩ :=
  (requests_understood assignAsk .littleEndian (by decide) (fun _ => 0) 0).2.1

end OpenBadge.BadgeLegacy
