import OpenBadge.Tinybuf.Codec
import Mathlib.Data.List.Induction

/-!
# tinybuf_generator.py: schemas and their values

A message is the list of its fields in the order of the schema file. Names are left
out: they label the attributes of the generated class and the members of the
generated structure, and do not reach the wire. A message may use the messages in
front of it, so its types are trees. A value has the type that the message gives it:
numbers are bit patterns, and an absent optional field or an alternative of a oneof
that is not chosen has no value.
-/

namespace OpenBadge.Tinybuf

open OpenBadge.Lib

/-- The number types in `SUPPORTED_FIELD_TYPES`. -/
inductive NumberType where
  | uint8
  | int8
  | uint16
  | int16
  | uint32
  | int32
  | uint64
  | int64
  | float
  | double
  deriving DecidableEq, Repr

/-- `get_field_type_len`, the size of the C type as well. -/
def NumberType.len : NumberType → Nat
  | .uint8 | .int8 => 1
  | .uint16 | .int16 => 2
  | .uint32 | .int32 | .float => 4
  | .uint64 | .int64 | .double => 8

/-- The rules of the fields other than oneof. -/
inductive Rule where
  | required
  | optional
  | repeated (size : Nat)
  | fixedRepeated (size : Nat)
  deriving DecidableEq, Repr

mutual

inductive SchemaType where
  | number (t : NumberType)
  | message (m : Message)

/-- `Message.fields`; a oneof without alternatives is an `emptyOneof`. -/
inductive Message where
  | nil
  | field (rule : Rule) (type : SchemaType) (next : Message)
  | oneof (inner : InnerFields) (next : Message)
  | emptyOneof (next : Message)

/-- `OneofField.inner_fields`, with tags that fit the byte on the wire. -/
inductive InnerFields where
  | nil
  | cons (tag : UInt8) (type : SchemaType) (next : InnerFields)

end

/-- What a field holds whose type has the values `α`. -/
def Rule.Value : Rule → Type → Type
  | .required, α => α
  | .optional, α => Option ({ flag : UInt8 // flag ≠ 0 } × α)
  | .repeated _, α => List α
  | .fixedRepeated _, α => List α

mutual

def SchemaType.Value : SchemaType → Type
  | .number t => BitVec (8 * t.len)
  | .message m => m.Value

def Message.Value : Message → Type
  | .nil => Unit
  | .field rule type next => rule.Value type.Value × next.Value
  | .oneof inner next => inner.Value × next.Value
  | .emptyOneof next => next.Value

def InnerFields.Value : InnerFields → Type
  | .nil => Empty
  | .cons _ type next => type.Value ⊕ next.Value

end

/-- The first type that holds `size`, or no type, and the generator stops. -/
def searchSizeType (size : Nat) : Option NumberType :=
  [NumberType.uint8, .uint16, .uint32, .uint64].find? fun t => size < (2 ^ 8) ^ t.len

/-- `size_type_number_bytes` -/
def sizeTypeLen (size : Nat) : Nat := ((searchSizeType size).map NumberType.len).getD 0

def InnerFields.tags : InnerFields → List UInt8
  | .nil => []
  | .cons tag _ next => tag :: next.tags

/-- The array size, if there is one, has a size type. -/
def Rule.Accepted : Rule → Prop
  | .repeated size => searchSizeType size ≠ none
  | _ => True

mutual

/-- The generator stops neither at a duplicate tag nor at an array size. -/
def SchemaType.Accepted : SchemaType → Prop
  | .number _ => True
  | .message m => m.Accepted

def Message.Accepted : Message → Prop
  | .nil => True
  | .field rule type next => rule.Accepted ∧ type.Accepted ∧ next.Accepted
  | .oneof inner next => (inner.tags ≠ [] ∧ inner.Accepted) ∧ next.Accepted
  | .emptyOneof next => next.Accepted

def InnerFields.Accepted : InnerFields → Prop
  | .nil => True
  | .cons tag type next => tag ∉ next.tags ∧ type.Accepted ∧ next.Accepted

end

/-! ## Numbers -/

def bigEndianBytes : Nat → Nat → List UInt8
  | 0, _ => []
  | n + 1, x => bigEndianBytes n (x / 256) ++ [UInt8.ofNat x]

def inOrder (e : TbEndian) (d : List UInt8) : List UInt8 :=
  match e with
  | .bigEndian => d
  | .littleEndian => d.reverse

/-- The `n` bytes of a number on the wire. -/
def packed (e : TbEndian) (n x : Nat) : List UInt8 := inOrder e (bigEndianBytes n x)

/-- The number in the bytes on the wire. -/
def unpacked (e : TbEndian) (d : List UInt8) : Nat := countOf (inOrder e d)

@[simp] theorem inOrder_length (e : TbEndian) (d : List UInt8) :
    (inOrder e d).length = d.length := by
  cases e <;> simp [inOrder]

@[simp] theorem inOrder_twice (e : TbEndian) (d : List UInt8) : inOrder e (inOrder e d) = d := by
  cases e <;> simp [inOrder]

@[simp] theorem bigEndianBytes_length (n x : Nat) : (bigEndianBytes n x).length = n := by
  induction n generalizing x with
  | zero => rfl
  | succ n ih => simp [bigEndianBytes, ih]

@[simp] theorem packed_length (e : TbEndian) (n x : Nat) : (packed e n x).length = n := by
  simp [packed]

theorem countOf_concat (d : List UInt8) (b : UInt8) :
    countOf (d ++ [b]) = countOf d * 256 + b.toNat := by
  simp [countOf]

theorem countOf_bigEndianBytes {n x : Nat} (h : x < 256 ^ n) :
    countOf (bigEndianBytes n x) = x := by
  induction n generalizing x with
  | zero =>
    rw [Nat.pow_zero] at h
    simp [bigEndianBytes, countOf]
    omega
  | succ n ih =>
    rw [Nat.pow_succ] at h
    rw [bigEndianBytes, countOf_concat, ih (Nat.div_lt_of_lt_mul (by omega)), UInt8.toNat_ofNat']
    omega

theorem bigEndianBytes_countOf (d : List UInt8) : bigEndianBytes d.length (countOf d) = d := by
  induction d using List.reverseRecOn with
  | nil => rfl
  | append_singleton d b ih =>
    have hb := b.toNat_lt
    rw [List.length_append, List.length_singleton, bigEndianBytes, countOf_concat,
      show (countOf d * 256 + b.toNat) / 256 = countOf d by omega, ih]
    congr 2
    rw [← UInt8.toNat_inj, UInt8.toNat_ofNat']
    omega

theorem countOf_lt (d : List UInt8) : countOf d < 256 ^ d.length := by
  induction d using List.reverseRecOn with
  | nil => decide
  | append_singleton d b ih =>
    have hb := b.toNat_lt
    rw [List.length_append, List.length_singleton, countOf_concat, Nat.pow_succ]
    omega

theorem unpacked_packed (e : TbEndian) {n x : Nat} (h : x < 256 ^ n) :
    unpacked e (packed e n x) = x := by
  rw [unpacked, packed, inOrder_twice, countOf_bigEndianBytes h]

theorem packed_unpacked (e : TbEndian) (d : List UInt8) : packed e d.length (unpacked e d) = d := by
  have h := bigEndianBytes_countOf (inOrder e d)
  rw [inOrder_length] at h
  rw [packed, unpacked, h, inOrder_twice]

theorem unpacked_lt (e : TbEndian) (d : List UInt8) : unpacked e d < 256 ^ d.length := by
  have h := countOf_lt (inOrder e d)
  rwa [inOrder_length] at h

theorem unpacked_singleton (e : TbEndian) (b : UInt8) : unpacked e [b] = b.toNat := by
  cases e <;> simp [unpacked, inOrder, countOf]

theorem packed_one (e : TbEndian) (b : UInt8) : packed e 1 b.toNat = [b] := by
  have h := packed_unpacked e [b]
  rwa [unpacked_singleton] at h

/-! ## The wire format -/

/-- The elements that a field holds. -/
def Rule.entries {α : Type} : (rule : Rule) → rule.Value α → List α
  | .required, x => [x]
  | .optional, x => x.toList.map Prod.snd
  | .repeated _, l => l
  | .fixedRepeated _, l => l

/-- The flag or the count in front of the elements. -/
def Rule.head {α : Type} (e : TbEndian) : (rule : Rule) → rule.Value α → List UInt8
  | .required, _ => []
  | .optional, x => [(x.map fun present => present.1.val).getD 0]
  | .repeated size, l => packed e (sizeTypeLen size) l.length
  | .fixedRepeated _, _ => []

/-- The tag of the alternative that has the value. -/
def InnerFields.which : (inner : InnerFields) → inner.Value → UInt8
  | .cons tag _ _, .inl _ => tag
  | .cons _ _ next, .inr x => next.which x

mutual

/-- The bytes of a value. A oneof without alternatives has none. -/
def SchemaType.wire (e : TbEndian) : (type : SchemaType) → type.Value → List UInt8
  | .number t, x => packed e t.len x.toNat
  | .message m, v => m.wire e v

def Message.wire (e : TbEndian) : (m : Message) → m.Value → List UInt8
  | .nil, _ => []
  | .field rule type next, (x, v) =>
    rule.head e x ++ (rule.entries x).flatMap (type.wire e) ++ next.wire e v
  | .oneof inner next, (x, v) => inner.which x :: inner.wire e x ++ next.wire e v
  | .emptyOneof next, v => next.wire e v

def InnerFields.wire (e : TbEndian) : (inner : InnerFields) → inner.Value → List UInt8
  | .cons _ type _, .inl x => type.wire e x
  | .cons _ _ next, .inr x => next.wire e x

end

/-- The elements are as many as the declared size allows. -/
def Rule.Fits {α : Type} : (rule : Rule) → rule.Value α → Prop
  | .repeated size, l => l.length ≤ size
  | .fixedRepeated size, l => l.length = size
  | _, _ => True

/-- The elements are as many as the count on the wire can say. -/
def Rule.Counted {α : Type} : (rule : Rule) → rule.Value α → Prop
  | .repeated size, l => l.length < 256 ^ sizeTypeLen size
  | .fixedRepeated size, l => l.length = size
  | _, _ => True

/-- What is asked of the lists, of a oneof without alternatives and of the messages in a
value. -/
structure Demand where
  list : {α : Type} → (rule : Rule) → rule.Value α → Prop
  emptyOneof : Prop
  message : Message → Prop

mutual

def SchemaType.Meets (d : Demand) : (type : SchemaType) → type.Value → Prop
  | .number _, _ => True
  | .message m, v => d.message m ∧ m.Meets d v

def Message.Meets (d : Demand) : (m : Message) → m.Value → Prop
  | .nil, _ => True
  | .field rule type next, (x, v) =>
    (d.list rule x ∧ ∀ y ∈ rule.entries x, type.Meets d y) ∧ next.Meets d v
  | .oneof inner next, (x, v) => inner.Meets d x ∧ next.Meets d v
  | .emptyOneof next, v => d.emptyOneof ∧ next.Meets d v

def InnerFields.Meets (d : Demand) : (inner : InnerFields) → inner.Value → Prop
  | .cons _ type _, .inl x => type.Meets d x
  | .cons _ _ next, .inr x => next.Meets d x

end

/-- No list is longer than declared, and every oneof has an alternative. -/
def Demand.valid : Demand := ⟨Rule.Fits, False, fun _ => True⟩

/-- No list is longer than its count on the wire can say, and every oneof has an
alternative. -/
def Demand.encodable : Demand := ⟨Rule.Counted, False, fun _ => True⟩

/-- No list is longer than its count on the wire can say. -/
def Demand.counted : Demand := ⟨Rule.Counted, True, fun _ => True⟩

theorem InnerFields.which_mem : (inner : InnerFields) → (x : inner.Value) →
    inner.which x ∈ inner.tags
  | .cons _ _ _, .inl _ => List.mem_cons_self
  | .cons _ _ next, .inr x => List.mem_cons_of_mem _ (next.which_mem x)

theorem sizeTypeLen_spec {size : Nat} (h : searchSizeType size ≠ none) :
    size < 256 ^ sizeTypeLen size ∧ sizeTypeLen size ∈ [1, 2, 4, 8] := by
  cases ht : searchSizeType size with
  | none => exact absurd ht h
  | some t =>
    have hlt : size < (2 ^ 8) ^ t.len := by
      have hfound := List.find?_some ht
      simpa using hfound
    have hmem := List.mem_of_find?_eq_some ht
    rw [sizeTypeLen, ht]
    refine ⟨hlt, ?_⟩
    simp only [List.mem_cons, List.not_mem_nil, or_false] at hmem
    rcases hmem with rfl | rfl | rfl | rfl <;> decide

theorem Rule.Fits.counted {α : Type} {rule : Rule} {x : rule.Value α} (hr : rule.Accepted)
    (h : rule.Fits x) : rule.Counted x := by
  cases rule with
  | required => trivial
  | optional => trivial
  | repeated size => exact Nat.lt_of_le_of_lt h (sizeTypeLen_spec hr).1
  | fixedRepeated size => exact h

def Demand.both (d d' : Demand) : Demand where
  list rule x := d.list rule x ∧ d'.list rule x
  emptyOneof := d.emptyOneof ∧ d'.emptyOneof
  message m := d.message m ∧ d'.message m

section Both

variable {d d' : Demand}

mutual

theorem SchemaType.Meets.both : (type : SchemaType) → {x : type.Value} → type.Meets d x →
    type.Meets d' x → type.Meets (d.both d') x
  | .number _, _, _, _ => trivial
  | .message m, _, ⟨hm, hx⟩, ⟨hm', hx'⟩ => ⟨⟨hm, hm'⟩, Message.Meets.both m hx hx'⟩

theorem Message.Meets.both : (m : Message) → {v : m.Value} → m.Meets d v → m.Meets d' v →
    m.Meets (d.both d') v
  | .nil, _, _, _ => trivial
  | .field _ type next, _, ⟨⟨hlist, hall⟩, hv⟩, ⟨⟨hlist', hall'⟩, hv'⟩ =>
    ⟨⟨⟨hlist, hlist'⟩, fun y hy => SchemaType.Meets.both type (hall y hy) (hall' y hy)⟩,
      Message.Meets.both next hv hv'⟩
  | .oneof inner next, _, ⟨hx, hv⟩, ⟨hx', hv'⟩ =>
    ⟨InnerFields.Meets.both inner hx hx', Message.Meets.both next hv hv'⟩
  | .emptyOneof next, _, ⟨he, hv⟩, ⟨he', hv'⟩ => ⟨⟨he, he'⟩, Message.Meets.both next hv hv'⟩

theorem InnerFields.Meets.both : (inner : InnerFields) → {x : inner.Value} → inner.Meets d x →
    inner.Meets d' x → inner.Meets (d.both d') x
  | .cons _ type _, .inl _, hx, hx' => SchemaType.Meets.both type hx hx'
  | .cons _ _ next, .inr _, hx, hx' => InnerFields.Meets.both next hx hx'

end

end Both

/-- In an accepted schema the demand `d` includes `d'`. -/
structure Demand.Implies (d d' : Demand) : Prop where
  list : ∀ {α : Type} {rule : Rule} {x : rule.Value α}, rule.Accepted → d.list rule x →
    d'.list rule x
  emptyOneof : d.emptyOneof → d'.emptyOneof
  message : ∀ {m}, d.message m → d'.message m

section Meets

variable {d d' : Demand}

mutual

theorem SchemaType.Meets.imp (h : d.Implies d') :
    (type : SchemaType) → type.Accepted → {x : type.Value} →
    type.Meets d x → type.Meets d' x
  | .number _, _, _, _ => trivial
  | .message m, hm, _, ⟨hd, hx⟩ => ⟨h.message hd, Message.Meets.imp h m hm hx⟩

theorem Message.Meets.imp (h : d.Implies d') :
    (m : Message) → m.Accepted → {v : m.Value} → m.Meets d v →
    m.Meets d' v
  | .nil, _, _, _ => trivial
  | .field _ type next, ⟨hr, ht, hn⟩, _, ⟨⟨hlist, hall⟩, hv⟩ =>
    ⟨⟨h.list hr hlist, fun y hy => SchemaType.Meets.imp h type ht (hall y hy)⟩,
      Message.Meets.imp h next hn hv⟩
  | .oneof inner next, ⟨⟨_, hi⟩, hn⟩, _, ⟨hx, hv⟩ =>
    ⟨InnerFields.Meets.imp h inner hi hx, Message.Meets.imp h next hn hv⟩
  | .emptyOneof next, hn, _, ⟨he, hv⟩ => ⟨h.emptyOneof he, Message.Meets.imp h next hn hv⟩

theorem InnerFields.Meets.imp (h : d.Implies d') :
    (inner : InnerFields) → inner.Accepted → {x : inner.Value} →
    inner.Meets d x → inner.Meets d' x
  | .cons _ type _, ⟨_, ht, _⟩, .inl _, hx => SchemaType.Meets.imp h type ht hx
  | .cons _ _ next, ⟨_, _, hn⟩, .inr _, hx => InnerFields.Meets.imp h next hn hx

end

end Meets

end OpenBadge.Tinybuf
