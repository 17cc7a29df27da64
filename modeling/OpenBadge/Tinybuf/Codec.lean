import Mathlib.Algebra.Group.Nat.Defs
import OpenBadge.Lib.Proc
import OpenBadge.Lib.Bytes

/-!
# The tinybuf encoder and decoder

`tinybuf.c` as it runs over byte memory. A structure lives in a memory of bytes
at a base address; a message description is the array of `tb_field_t` entries up
to `TB_LAST_FIELD`. Returning 0 is the error of a procedure.
-/

namespace OpenBadge.Tinybuf

open OpenBadge.Lib

/-- A byte memory. -/
abbrev Memory := Nat → UInt8

inductive TbEndian
  | bigEndian
  | littleEndian
  deriving DecidableEq, Repr

/-- `tb_field_type_t`. -/
inductive FieldType
  | required
  | optional
  | repeated
  | fixedRepeated
  | oneof
  deriving DecidableEq, Repr

/-- The two ways the code treats a `tb_data_type_t`: numbers are byte-swapped,
messages are recursed into. -/
inductive DataKind
  | number
  | message
  deriving DecidableEq, Repr

/-- One `tb_field_t` in front of the `TB_LAST_FIELD` marker, so of a type other
than 0. -/
structure TbField where
  type : Nat
  dataOffset : Nat
  sizeOffset : Int
  sizeSize : Nat
  dataSize : Nat
  arraySize : Nat
  oneofTag : UInt8
  oneofFirst : Bool
  type_ne_zero : type ≠ 0 := by decide
  deriving DecidableEq

theorem requiredUint_ne_zero : 65 ≠ 0 := by decide

theorem oneofUint_ne_zero : 80 ≠ 0 := by decide

/-- A `tb_field_t` array: `ptr` is the description that the entry's `ptr` member
points to, `next` the array behind the entry. -/
inductive Fields
  | last
  | entry (field : TbField) (ptr next : Fields)
  deriving DecidableEq

/-- The `type & FIELD_TYPE_…` chain of the code, in its order. -/
def TbField.fieldType (f : TbField) : Option FieldType :=
  if f.type &&& 1 ≠ 0 then some .required
  else if f.type &&& 2 ≠ 0 then some .optional
  else if f.type &&& 4 ≠ 0 then some .repeated
  else if f.type &&& 8 ≠ 0 then some .fixedRepeated
  else if f.type &&& 16 ≠ 0 then some .oneof
  else none

/-- The `type & DATA_TYPE_…` tests of the code. -/
def TbField.dataKind (f : TbField) : Option DataKind :=
  if f.type &&& 32 ≠ 0 ∨ f.type &&& 64 ≠ 0 ∨ f.type &&& 128 ≠ 0 ∨ f.type &&& 256 ≠ 0 then
    some .number
  else if f.type &&& 512 ≠ 0 then some .message
  else none

/-- `data_ptr` (or `struct_ptr`) of a field of the structure at `base`. -/
def TbField.dataPtr (f : TbField) (base : Nat) : Nat := base + f.dataOffset

/-- `has_ptr`, `count_ptr` or `which_ptr`. -/
def TbField.sizePtr (f : TbField) (base : Nat) : Nat := ((f.dataPtr base : Int) + f.sizeOffset).toNat

/-- The bytes of a 16-bit number in the memory of a host. -/
def shortBytes (host : TbEndian) (n : Nat) : UInt8 × UInt8 :=
  match host with
  | .bigEndian => (UInt8.ofNat (n / 256), UInt8.ofNat n)
  | .littleEndian => (UInt8.ofNat n, UInt8.ofNat (n / 256))

def testEndianness (host : TbEndian) : TbEndian :=
  if (shortBytes host 0x8000).1 ≠ 0 then .bigEndian else .littleEndian

@[simp] theorem testEndianness_eq (host : TbEndian) : testEndianness host = host := by
  cases host <;> decide

def convertEndianness (host : TbEndian) (data : List UInt8) (desired : TbEndian) : List UInt8 :=
  if testEndianness host ≠ desired then data.reverse else data

/-- `count |= tmp[count_size-1-k] << (8*k)` over the big-endian bytes. -/
def countOf (tmp : List UInt8) : Nat := tmp.foldl (fun n b => n * 256 + b.toNat) 0

/-- The number in `size` bytes of a host's memory. -/
def readNumber (host : TbEndian) (m : Memory) (a size : Nat) : Nat :=
  countOf (convertEndianness host (slice m a size) .bigEndian)

/-- The `do … while` over the entries of one oneof group. -/
def checkOneofWhichTagValidity : Fields → UInt8 → Bool
  | .last, _ => false
  | .entry f _ next, which =>
    if f.oneofTag = which then true
    else match next with
      | .last => false
      | .entry g _ _ =>
        if g.type &&& 16 ≠ 0 ∧ g.oneofFirst = false then checkOneofWhichTagValidity next which
        else false

structure TbOstream where
  buf : Memory
  bufSize : Nat
  bytesWritten : Nat

/-- Returning 0 carries no further information. -/
abbrev Encode := Proc TbOstream Unit

def tbOstreamFromBuffer (buf : Memory) (bufSize : Nat) : TbOstream := ⟨buf, bufSize, 0⟩

def tbWriteToOstream (data : List UInt8) : Encode Unit := do
  let ostream ← Proc.get
  Proc.failIf ((ostream.bytesWritten + data.length) % 2 ^ 32 > ostream.bufSize) ()
  Proc.modify fun o =>
    { o with
      buf := overwrite o.buf o.bytesWritten data
      bytesWritten := o.bytesWritten + data.length }

def tbWriteToOstreamBigEndian (host : TbEndian) (src : Memory) (data dataSize len : Nat)
    (outputEndianness : TbEndian) : Encode Unit :=
  Proc.forUpTo len fun i =>
    tbWriteToOstream
      (convertEndianness host (slice src (data + i * dataSize) dataSize) outputEndianness)

/-- The cases of `tb_encode` over the field rule. `entries n` writes the first
`n` entries of the field: numbers through `tb_write_to_ostream_big_endian`,
messages by calling `tb_encode` again. -/
def encodeField (host out : TbEndian) (src : Memory) (f : TbField) (tagValid : UInt8 → Bool)
    (base : Nat) (entries : Nat → Encode Unit) : Encode Unit :=
  match f.fieldType with
  | none => Proc.fail ()
  | some .required => entries 1
  | some .optional => do
    tbWriteToOstream (slice src (f.sizePtr base) f.sizeSize)
    Proc.when (src (f.sizePtr base) ≠ 0) (entries 1)
  | some .repeated => do
    Proc.failIf (f.sizeSize > 4) ()
    let count := readNumber host src (f.sizePtr base) f.sizeSize
    Proc.failIf (count > f.arraySize) ()
    tbWriteToOstreamBigEndian host src (f.sizePtr base) f.sizeSize 1 out
    entries count
  | some .fixedRepeated => entries f.arraySize
  | some .oneof => do
    let which := src (f.sizePtr base)
    Proc.when (f.oneofFirst = true) do
      Proc.failIf (tagValid which = false) ()
      tbWriteToOstream (slice src (f.sizePtr base) f.sizeSize)
    Proc.when (which = f.oneofTag) (entries 1)

def tbEncode (host out : TbEndian) (src : Memory) : Fields → Nat → Encode Unit
  | .last, _ => pure ()
  | .entry f ptr next, base =>
    (match f.dataKind with
      | none => Proc.fail ()
      | some .number =>
        encodeField host out src f (checkOneofWhichTagValidity (.entry f ptr next)) base fun n =>
          tbWriteToOstreamBigEndian host src (f.dataPtr base) (f.dataSize % 256) n out
      | some .message =>
        encodeField host out src f (checkOneofWhichTagValidity (.entry f ptr next)) base fun n =>
          Proc.forUpTo n fun k => tbEncode host out src ptr (f.dataPtr base + k * f.dataSize))
    >>= fun _ => tbEncode host out src next base

structure TbIstream where
  buf : Memory
  bufSize : Nat
  bytesRead : Nat

def tbIstreamFromBuffer (buf : Memory) (bufSize : Nat) : TbIstream := ⟨buf, bufSize, 0⟩

/-- The decoder's input and the memory it decodes into, with the addresses it
has read of the buffer and written of the memory. -/
structure DecodeState where
  istream : TbIstream
  dst : Memory
  reads : List Nat := []
  writes : List Nat := []

abbrev Decode := Proc DecodeState Unit

/-- `memcpy` to, or assignments in, the destination memory. -/
def storeBytes (a : Nat) (data : List UInt8) : Decode Unit :=
  Proc.modify fun s =>
    { s with
      dst := overwrite s.dst a data
      writes := (List.range data.length).map (a + ·) ++ s.writes }

def tbReadFromIstream (len : Nat) : Decode (List UInt8) := do
  let s ← Proc.get
  Proc.failIf ((s.istream.bytesRead + len) % 2 ^ 32 > s.istream.bufSize) ()
  Proc.modify fun s =>
    { s with
      istream := { s.istream with bytesRead := s.istream.bytesRead + len }
      reads := (List.range len).map (s.istream.bytesRead + ·) ++ s.reads }
  pure (slice s.istream.buf s.istream.bytesRead len)

def tbReadFromIstreamLittleEndian (host : TbEndian) (data dataSize len : Nat)
    (inputEndianness : TbEndian) : Decode Unit :=
  Proc.forUpTo len fun i => do
    let tmp ← tbReadFromIstream dataSize
    storeBytes (data + i * dataSize) (convertEndianness host tmp inputEndianness)

/-- The cases of `tb_decode` over the field rule. -/
def decodeField (host inp : TbEndian) (f : TbField) (tagValid : UInt8 → Bool) (base : Nat)
    (entries : Nat → Decode Unit) : Decode Unit :=
  match f.fieldType with
  | none => Proc.fail ()
  | some .required => entries 1
  | some .optional => do
    let flag ← tbReadFromIstream f.sizeSize
    storeBytes (f.sizePtr base) flag
    let s ← Proc.get
    Proc.when (s.dst (f.sizePtr base) ≠ 0) (entries 1)
  | some .repeated => do
    Proc.failIf (f.sizeSize > 4) ()
    tbReadFromIstreamLittleEndian host (f.sizePtr base) f.sizeSize 1 inp
    let s ← Proc.get
    let count := readNumber host s.dst (f.sizePtr base) f.sizeSize
    Proc.failIf (count > f.arraySize) ()
    entries count
  | some .fixedRepeated => entries f.arraySize
  | some .oneof => do
    Proc.when (f.oneofFirst = true) do
      let tag ← tbReadFromIstream f.sizeSize
      storeBytes (f.sizePtr base) tag
    let s ← Proc.get
    let which := s.dst (f.sizePtr base)
    Proc.when (f.oneofFirst = true) (Proc.failIf (tagValid which = false) ())
    Proc.when (which = f.oneofTag) (entries 1)

def tbDecode (host inp : TbEndian) : Fields → Nat → Decode Unit
  | .last, _ => pure ()
  | .entry f ptr next, base =>
    (match f.dataKind with
      | none => Proc.fail ()
      | some .number =>
        decodeField host inp f (checkOneofWhichTagValidity (.entry f ptr next)) base fun n =>
          tbReadFromIstreamLittleEndian host (f.dataPtr base) (f.dataSize % 256) n inp
      | some .message =>
        decodeField host inp f (checkOneofWhichTagValidity (.entry f ptr next)) base fun n =>
          Proc.forUpTo n fun k => tbDecode host inp ptr (f.dataPtr base + k * f.dataSize))
    >>= fun _ => tbDecode host inp next base

end OpenBadge.Tinybuf
