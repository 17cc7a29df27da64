import OpenBadge.Tinybuf.Format
import OpenBadge.Tinybuf.Schema

/-!
# tinybuf_generator.py: the generated C structures and tables

`create_struct` prints the members of a message in the order of its fields, and
`create_message_fields` one `tb_field_t` for each of them, with offsets and sizes left to
the compiler. The compiler places every member behind the one in front of it, at the
next address that the target's alignment allows.
-/

namespace OpenBadge.Tinybuf

open OpenBadge.Lib

/-- The alignments of the target. -/
structure Abi where
  align : NumberType → Nat
  align_pos : ∀ t, 0 < align t

/-- The alignments of the ARM targets: every number at a multiple of its size. -/
def armAbi : Abi where
  align := NumberType.len
  align_pos t := by cases t <;> decide

/-- The first multiple of `a` from `n` on. -/
def roundUp (n a : Nat) : Nat := (n + (a - 1)) / a * a

/-! ## The structures -/

/-- The member in front of the data: `has_…` or `…_count`. -/
def Rule.headType : Rule → Option NumberType
  | .optional => some .uint8
  | .repeated size => searchSizeType size
  | _ => none

/-- The number of elements in the data member. -/
def Rule.room : Rule → Nat
  | .repeated size | .fixedRepeated size => size
  | _ => 1

/-- Where a head member goes that follows `cur` bytes. -/
def headStart (abi : Abi) (head : Option NumberType) (cur : Nat) : Nat :=
  match head with
  | none => cur
  | some t => roundUp cur (abi.align t)

def headLen (head : Option NumberType) : Nat := (head.map NumberType.len).getD 0

/-- Where the data goes that follows it. -/
def dataStart (abi : Abi) (head : Option NumberType) (align cur : Nat) : Nat :=
  roundUp (headStart abi head cur + headLen head) align

mutual

def SchemaType.cAlign (abi : Abi) : SchemaType → Nat
  | .number t => abi.align t
  | .message m => m.cAlign abi

def Message.cAlign (abi : Abi) : Message → Nat
  | .nil => 1
  | .field rule type next =>
    max ((rule.headType.map abi.align).getD 1) (max (type.cAlign abi) (next.cAlign abi))
  | .oneof inner next => max (abi.align .uint8) (max (inner.cAlign abi) (next.cAlign abi))
  | .emptyOneof next => max (abi.align .uint8) (next.cAlign abi)

def InnerFields.cAlign (abi : Abi) : InnerFields → Nat
  | .nil => 1
  | .cons _ type next => max (type.cAlign abi) (next.cAlign abi)

end

mutual

/-- `sizeof` -/
def SchemaType.cSize (abi : Abi) : SchemaType → Nat
  | .number t => t.len
  | .message m => roundUp (m.cEnd abi 0) (m.cAlign abi)

/-- The end of the last member of the fields that follow `cur` bytes. -/
def Message.cEnd (abi : Abi) : Message → Nat → Nat
  | .nil, cur => cur
  | .field rule type next, cur =>
    next.cEnd abi (dataStart abi rule.headType (type.cAlign abi) cur + rule.room * type.cSize abi)
  | .oneof inner next, cur =>
    next.cEnd abi (dataStart abi (some .uint8) (inner.cAlign abi) cur +
      roundUp (inner.cMax abi) (inner.cAlign abi))
  | .emptyOneof next, cur => next.cEnd abi (dataStart abi (some .uint8) 1 cur)

/-- The size of the longest member of the union. -/
def InnerFields.cMax (abi : Abi) : InnerFields → Nat
  | .nil => 0
  | .cons _ type next => max (type.cSize abi) (next.cMax abi)

end

/-! ## The tables -/

/-- `get_field_type_identifier` -/
def SchemaType.identifier : SchemaType → Nat
  | .number .int8 | .number .int16 | .number .int32 | .number .int64 => 32
  | .number .uint8 | .number .uint16 | .number .uint32 | .number .uint64 => 64
  | .number .float => 128
  | .number .double => 256
  | .message _ => 512

def Rule.identifier : Rule → Nat
  | .required => 1
  | .optional => 2
  | .repeated _ => 4
  | .fixedRepeated _ => 8

theorem identifier_or_ne_zero (type : SchemaType) (n : Nat) : type.identifier ||| n ≠ 0 := by
  intro h
  have hzero := (Nat.or_eq_zero_iff.mp h).1
  cases type with
  | number t => cases t <;> simp [SchemaType.identifier] at hzero
  | message m => simp [SchemaType.identifier] at hzero

/-- `tb_membersize(…)/tb_membersize(…[0])`, or 0. -/
def Rule.arraySize (rule : Rule) (cSize : Nat) : Nat :=
  match rule with
  | .repeated size | .fixedRepeated size => size * cSize / cSize
  | _ => 0

/-- `size_size` -/
def Rule.sizeSize : Rule → Nat
  | .optional => 1
  | .repeated size => sizeTypeLen size
  | _ => 0

/-- `tb_delta` of the head member, or 0. -/
def delta (abi : Abi) (head : Option NumberType) (align cur : Nat) : Int :=
  if head.isSome then (headStart abi head cur : Int) - dataStart abi head align cur else 0

/-- The entry of a field that follows `cur` bytes. -/
def fieldEntry (abi : Abi) (rule : Rule) (type : SchemaType) (cur : Nat) : TbField where
  type := type.identifier ||| rule.identifier
  dataOffset := dataStart abi rule.headType (type.cAlign abi) cur
  sizeOffset := delta abi rule.headType (type.cAlign abi) cur
  sizeSize := rule.sizeSize
  dataSize := type.cSize abi
  arraySize := rule.arraySize (type.cSize abi)
  oneofTag := 0
  oneofFirst := false
  type_ne_zero := identifier_or_ne_zero type rule.identifier

/-- The entry of an alternative, with its which-tag at `which` and the union at `data`. -/
def innerEntry (abi : Abi) (tag : UInt8) (type : SchemaType) (which data : Nat) (first : Bool) :
    TbField where
  type := type.identifier ||| 16
  dataOffset := data
  sizeOffset := (which : Int) - data
  sizeSize := 1
  dataSize := type.cSize abi
  arraySize := 0
  oneofTag := tag
  oneofFirst := first
  type_ne_zero := identifier_or_ne_zero type 16

mutual

/-- The table of a message type, or `NULL`. -/
def SchemaType.table (abi : Abi) : SchemaType → Fields
  | .number _ => .last
  | .message m => m.fields abi 0

/-- The entries of the fields that follow `cur` bytes. -/
def Message.fields (abi : Abi) : Message → Nat → Fields
  | .nil, _ => .last
  | .field rule type next, cur =>
    .entry (fieldEntry abi rule type cur) (type.table abi)
      (next.fields abi (dataStart abi rule.headType (type.cAlign abi) cur +
        rule.room * type.cSize abi))
  | .oneof inner next, cur =>
    inner.fields abi (headStart abi (some .uint8) cur)
      (dataStart abi (some .uint8) (inner.cAlign abi) cur) true
      (next.fields abi (dataStart abi (some .uint8) (inner.cAlign abi) cur +
        roundUp (inner.cMax abi) (inner.cAlign abi)))
  | .emptyOneof next, cur => next.fields abi (dataStart abi (some .uint8) 1 cur)

/-- The entries of the alternatives, in front of `rest`. -/
def InnerFields.fields (abi : Abi) : InnerFields → Nat → Nat → Bool → Fields → Fields
  | .nil, _, _, _, rest => rest
  | .cons tag type next, which, data, first, rest =>
    .entry (innerEntry abi tag type which data first) (type.table abi)
      (next.fields abi which data false rest)

end

/-- Whether the data member is an array. -/
def Rule.isArray : Rule → Bool
  | .repeated _ | .fixedRepeated _ => true
  | _ => false

mutual

/-- The compiler accepts the generated code: a structure is smaller than 2^31 bytes, and
the size of an array is not divided by 0. -/
def SchemaType.Compiles (abi : Abi) : SchemaType → Prop
  | .number _ => True
  | .message m => m.Compiles abi ∧ roundUp (m.cEnd abi 0) (m.cAlign abi) < 2 ^ 31

def Message.Compiles (abi : Abi) : Message → Prop
  | .nil => True
  | .field rule type next =>
    (type.Compiles abi ∧ (rule.isArray = true → type.cSize abi ≠ 0)) ∧ next.Compiles abi
  | .oneof inner next => inner.Compiles abi ∧ next.Compiles abi
  | .emptyOneof next => next.Compiles abi

def InnerFields.Compiles (abi : Abi) : InnerFields → Prop
  | .nil => True
  | .cons _ type next => type.Compiles abi ∧ next.Compiles abi

end

def InnerFields.length (inner : InnerFields) : Nat := inner.tags.length

/-- `num_fields` -/
def Message.numFields : Message → Nat
  | .nil => 0
  | .field _ _ next => next.numFields + 1
  | .oneof inner next => next.numFields + inner.length
  | .emptyOneof next => next.numFields

end OpenBadge.Tinybuf
