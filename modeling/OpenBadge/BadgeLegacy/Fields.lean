import OpenBadge.Framework.Badge

/-!
# badge_protocol_legacy.py

The messages of protocol 01v1 in the client. An object has one attribute for every entry of
`message_fields`, or `none` where it was not set. The attributes are the bits of their values.
-/

namespace OpenBadge.BadgeLegacy

open OpenBadge.Lib OpenBadge.Tinybuf OpenBadge.Framework

/-- The functions that make the entries of `message_fields`. -/
inductive FieldType where
  | char
  | ulong
  | ushort
  | float
  | bool
  | uint8
  | int8
  deriving DecidableEq, Repr

def FieldType.length : FieldType → Nat
  | .ulong | .float => 4
  | .ushort => 2
  | .char | .bool | .uint8 | .int8 => 1

/-- `serializer` -/
def FieldType.serialize (type : FieldType) (x : Nat) : Except Failure (List UInt8) :=
  if x < 256 ^ type.length then .ok (packed .littleEndian type.length x) else .error .structError

/-- `struct.unpack` of one number -/
def structUnpack (n : Nat) (rawField : List UInt8) : Except Failure Nat :=
  if rawField.length = n then .ok (unpacked .littleEndian rawField) else .error .structError

/-- `parser` -/
def FieldType.parse (type : FieldType) (rawField : List UInt8) : Except Failure Nat :=
  match type with
  | .char => .ok (unpacked .littleEndian rawField)
  | .bool => (structUnpack 1 rawField).map fun x => if x = 1 then 1 else 0
  | _ => structUnpack type.length rawField

structure MessageField where
  type : FieldType
  optional : Bool
  deriving DecidableEq, Repr

abbrev Attributes := List (Option Nat)

/-- `length` -/
def messageLength (messageFields : List MessageField) : Nat :=
  messageFields.foldl (fun n f => n + f.type.length) 0

/-- `serialize_message` -/
def serializeMessage : List MessageField → Attributes → Except Failure (List UInt8)
  | f :: fs, some x :: xs => do
    let field ← f.type.serialize x
    let rest ← serializeMessage fs xs
    pure (field ++ rest)
  | _ :: fs, none :: xs => serializeMessage fs xs
  | _, _ => pure []

/-- `deserialize_message`, from `pos` on. -/
def deserializeMessage : List MessageField → List UInt8 → Except Failure Attributes
  | [], _ => pure []
  | f :: fs, s =>
    if 0 < s.length then do
      let x ← f.type.parse (s.take f.type.length)
      let xs ← deserializeMessage fs (s.drop f.type.length)
      pure (some x :: xs)
    else if f.optional then do
      let xs ← deserializeMessage fs s
      pure (none :: xs)
    else .error .valueError

def charField : MessageField := ⟨.char, false⟩

def ulongField : MessageField := ⟨.ulong, false⟩

def ushortField : MessageField := ⟨.ushort, false⟩

def floatField : MessageField := ⟨.float, false⟩

def boolField : MessageField := ⟨.bool, false⟩

def uint8Field : MessageField := ⟨.uint8, false⟩

def int8Field : MessageField := ⟨.int8, false⟩

/-- `optional=True` -/
def MessageField.orAbsent (f : MessageField) : MessageField := { f with optional := true }

/-! ## The messages -/

def StatusRequest.messageFields : List MessageField :=
  [charField, ulongField, ushortField, ushortField.orAbsent, uint8Field.orAbsent]

def StatusResponse.messageFields : List MessageField :=
  [boolField, boolField, boolField, ulongField, ushortField, floatField]

def StartRecordRequest.messageFields : List MessageField :=
  [charField, ulongField, ushortField, ushortField]

def StartRecordResponse.messageFields : List MessageField := [ulongField, ushortField]

def StopRecordRequest.messageFields : List MessageField := [charField]

def StartScanningRequest.messageFields : List MessageField :=
  [charField, ulongField, ushortField, ushortField, ushortField, ushortField, ushortField,
    ushortField]

def StartScanningResponse.messageFields : List MessageField := [ulongField, ushortField]

def StopScanningRequest.messageFields : List MessageField := [charField]

def IdentifyRequest.messageFields : List MessageField := [charField, ushortField]

def MicrophoneDataRequest.messageFields : List MessageField := [charField, ulongField, ushortField]

def MicrophoneDataHeader.messageFields : List MessageField :=
  [ulongField, ushortField, floatField, ushortField, uint8Field]

def ScanDataRequest.messageFields : List MessageField := [charField, ulongField]

def ScanDataHeader.messageFields : List MessageField := [ulongField, floatField, uint8Field]

def ScanDataDevice.messageFields : List MessageField := [ushortField, int8Field, int8Field]

/-! ## Round trips -/

/-- An attribute fits its field, and is what the field's parser gives. -/
def Fits (f : MessageField) (x : Nat) : Prop :=
  x < 256 ^ f.type.length ∧ (f.type = .bool → x ≤ 1)

theorem fits_of_lt {f : MessageField} {x : Nat} (hf : f.type ≠ .bool)
    (h : x < 256 ^ f.type.length) : Fits f x := ⟨h, fun hbool => absurd hbool hf⟩

theorem FieldType.length_pos (type : FieldType) : 0 < type.length := by cases type <;> decide

theorem serialize_ok {f : MessageField} {x : Nat} (h : Fits f x) :
    f.type.serialize x = .ok (packed .littleEndian f.type.length x) := if_pos h.1

theorem parse_packed {f : MessageField} {x : Nat} (h : Fits f x) :
    f.type.parse (packed .littleEndian f.type.length x) = .ok x := by
  have hlen := packed_length .littleEndian f.type.length x
  have hround := unpacked_packed .littleEndian h.1
  have hunpack : structUnpack f.type.length (packed .littleEndian f.type.length x) = .ok x := by
    rw [structUnpack, if_pos hlen, hround]
  cases htype : f.type with
  | bool =>
    rw [htype] at hunpack
    have hx := h.2 htype
    simp only [FieldType.parse, FieldType.length] at hunpack ⊢
    rw [hunpack]
    obtain rfl | rfl : x = 0 ∨ x = 1 := by omega
    · rfl
    · rfl
  | char =>
    rw [htype] at hround
    rw [FieldType.parse, hround]
  | _ =>
    rw [htype] at hunpack
    exact hunpack

/-- The bytes of all attributes. -/
def fieldBytes : List MessageField → List Nat → List UInt8
  | f :: fs, x :: xs => packed .littleEndian f.type.length x ++ fieldBytes fs xs
  | _, _ => []

theorem serializeMessage_some {fs : List MessageField} (xs : List Nat)
    (h : List.Forall₂ Fits fs xs) : serializeMessage fs (xs.map some) = .ok (fieldBytes fs xs) := by
  induction h with
  | nil => rfl
  | cons hx _ ih =>
    rw [List.map_cons, serializeMessage, serialize_ok hx, ih]
    rfl

/-- What all attributes were serialized to is deserialized to them. -/
theorem deserializeMessage_fieldBytes {fs : List MessageField} {xs : List Nat}
    (h : List.Forall₂ Fits fs xs) :
    deserializeMessage fs (fieldBytes fs xs) = .ok (xs.map some) := by
  induction h with
  | nil => rfl
  | @cons f x fs xs hx _ ih =>
    have hlen := packed_length .littleEndian f.type.length x
    have hpos : 0 < (fieldBytes (f :: fs) (x :: xs)).length := by
      rw [fieldBytes, List.length_append, hlen]
      exact Nat.lt_add_right _ f.type.length_pos
    rw [deserializeMessage, if_pos hpos, fieldBytes, List.take_left' hlen, List.drop_left' hlen,
      parse_packed hx, ih]
    rfl

end OpenBadge.BadgeLegacy
