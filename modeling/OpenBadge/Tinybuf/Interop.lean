import OpenBadge.Tinybuf.Python
import OpenBadge.Tinybuf.RoundTrip
import OpenBadge.Tinybuf.WalkDecode
import OpenBadge.Tinybuf.WalkEncode

/-!
# The generated Python class and the generated table

When the encoders of a message give the same bytes and the decoders read them alike, and
when the decoders accept the same input.
-/

namespace OpenBadge.Tinybuf

open OpenBadge.Lib

/-- `tb_encode` of the structure at `base` returns 1 and leaves exactly `d` in the buffer. -/
def WritesInto (host e : TbEndian) (fields : Fields) (src : Memory) (base : Nat)
    (buffer : Buffer) (d : List UInt8) : Prop :=
  ∃ o, (encodeWalker host e src).Returns1 fields base
      (tbOstreamFromBuffer buffer.bytes buffer.size) o ∧
    o.bytesWritten = d.length ∧ slice o.buf 0 o.bytesWritten = d

/-- The Python class encodes `v` to the bytes that `tb_encode` makes of a structure with
this value, and both decoders read `v` from them. -/
def Agree (abi : Abi) (e : TbEndian) (m : Message) (v : m.Value) : Prop :=
  ∃ d, m.encode e v = .ok d ∧
    (∀ (host : TbEndian) (src : Memory) (base : Nat) (buffer : Buffer),
      m.Holds abi host src base 0 v → d.length ≤ buffer.size →
        WritesInto host e (m.fields abi 0) src base buffer d) ∧
    m.decode e d = .ok v ∧
    ∀ (host : TbEndian) (input : Buffer) (dst : Memory) (base : Nat), input.toList = d →
      ∃ t, (decodeWalker host e).Returns1 (m.fields abi 0) base (decodeFrom input dst) t ∧
        m.Holds abi host t.dst base 0 v

/-- Every oneof has an alternative. -/
def Demand.whole : Demand := ⟨fun _ _ => True, False, fun _ => True⟩

/-! ## The length of an encoding -/

theorem flatMap_length_le {α : Type} {w : α → List UInt8} {n : Nat} {l : List α}
    (h : ∀ y ∈ l, (w y).length ≤ n) : (l.flatMap w).length ≤ l.length * n := by
  induction l with
  | nil => exact Nat.zero_le _
  | cons y l ih =>
    have hy := h y List.mem_cons_self
    have hl := ih fun z hz => h z (List.mem_cons_of_mem y hz)
    rw [List.flatMap_cons, List.length_append, List.length_cons, Nat.succ_mul]
    omega

mutual

theorem SchemaType.wire_length_le (abi : Abi) (e : TbEndian) : (type : SchemaType) →
    {x : type.Value} → type.Meets .valid x → (type.wire e x).length ≤ type.cSize abi
  | .number t, x, _ => Nat.le_of_eq (packed_length e t.len (BitVec.toNat x))
  | .message m, v, ⟨_, hv⟩ => by
    have h := Message.wire_length_le abi e m 0 hv
    rw [Nat.zero_add] at h
    exact Nat.le_trans h (m.cEnd_le_cSize abi)

/-- An encoding is not longer than the structure. -/
theorem Message.wire_length_le (abi : Abi) (e : TbEndian) : (m : Message) → (cur : Nat) →
    {v : m.Value} → m.Meets .valid v → cur + (m.wire e v).length ≤ m.cEnd abi cur
  | .nil, _, _, _ => Nat.le_refl _
  | .field rule type next, cur, (x, v), ⟨⟨hfits, hall⟩, hv⟩ => by
    have hfits' : rule.Fits x := hfits
    have hnext := Message.wire_length_le abi e next (fieldEnd abi rule type cur) hv
    have hentries : ((rule.entries x).flatMap (type.wire e)).length ≤
        (rule.entries x).length * type.cSize abi :=
      flatMap_length_le fun y hy => SchemaType.wire_length_le abi e type (hall y hy)
    have hroom := Nat.mul_le_mul_right (type.cSize abi) hfits'.length_le
    have hcur := le_headStart abi rule.headType cur
    have hdata := headStart_add_le abi rule.headType (type.cAlign_pos abi) cur
    rw [Rule.headLen_eq] at hdata
    have hend : fieldEnd abi rule type cur =
      dataStart abi rule.headType (type.cAlign abi) cur + rule.room * type.cSize abi := rfl
    have hcEnd : (Message.field rule type next).cEnd abi cur =
      next.cEnd abi (fieldEnd abi rule type cur) := rfl
    rw [Message.wire, List.length_append, List.length_append, Rule.head_eq, packed_length, hcEnd]
    omega
  | .oneof inner next, cur, (x, v), ⟨hx, hv⟩ => by
    have hnext := Message.wire_length_le abi e next (oneofEnd abi inner cur) hv
    have hinner := InnerFields.wire_length_le abi e inner hx
    have hcur := le_headStart abi (some .uint8) cur
    have hdata : headStart abi (some .uint8) cur <
        dataStart abi (some .uint8) (inner.cAlign abi) cur :=
      headStart_lt_dataStart abi (by decide) (inner.cAlign_pos abi) cur
    have hmax := inner.cMax_le abi
    have hend : oneofEnd abi inner cur = dataStart abi (some .uint8) (inner.cAlign abi) cur +
      roundUp (inner.cMax abi) (inner.cAlign abi) := rfl
    have hcEnd : (Message.oneof inner next).cEnd abi cur =
      next.cEnd abi (oneofEnd abi inner cur) := rfl
    rw [Message.wire, List.length_append, List.length_cons, hcEnd]
    omega
  | .emptyOneof next, cur, v, ⟨h, _⟩ => h.elim

theorem InnerFields.wire_length_le (abi : Abi) (e : TbEndian) : (inner : InnerFields) →
    {x : inner.Value} → inner.Meets .valid x → (inner.wire e x).length ≤ inner.cMax abi
  | .cons _ type _, .inl _, hx =>
    Nat.le_trans (SchemaType.wire_length_le abi e type hx) (Nat.le_max_left ..)
  | .cons _ _ next, .inr _, hx =>
    Nat.le_trans (InnerFields.wire_length_le abi e next hx) (Nat.le_max_right ..)

end

/-! ## What the decoders accept -/

section Accept

variable {abi : Abi} {host e : TbEndian} {m : Message}

theorem decode_eq_ok (hm : m.Accepted) {b : List UInt8} {v : m.Value} :
    m.decode e b = .ok v ↔ m.Meets .encodable v ∧ m.wire e v <+: b := by
  have hparses := m.parses_encodable e hm
  constructor
  · intro h
    obtain ⟨hv, hb⟩ := hparses.sound (Proc.eq_of_fst h)
    exact ⟨hv, _, hb.symm⟩
  · rintro ⟨hv, r, rfl⟩
    exact congrArg Prod.fst (hparses.complete r hv)

variable (hm : m.Accepted) (hc : (SchemaType.message m).Compiles abi)

include hm hc

/-- `tb_decode` reads the values that it supports. -/
theorem tbDecode_reads (base : Nat) :
    Reads ((decodeWalker host e).walk (m.fields abi 0) base) (fun _ => True) (m.wire e)
      (m.Meets .walked) (fun mem v => m.Holds abi host mem base 0 v)
      (fun q => base + 0 ≤ q ∧ q < base + m.cEnd abi 0) :=
  m.walk_reads abi host e hm hc.1 0 (Nat.lt_of_le_of_lt (m.cEnd_le_cSize abi) hc.2) base

theorem tbDecode_of_wire {v : m.Value} (hv : (SchemaType.message m).Meets .walked v)
    {input : Buffer} (hin : m.wire e v <+: input.toList) (dst : Memory) (base : Nat) :
    ∃ t, (decodeWalker host e).Returns1 (m.fields abi 0) base (decodeFrom input dst) t ∧
      m.Holds abi host t.dst base 0 v := by
  obtain ⟨t, ht, hdel⟩ := (tbDecode_reads hm hc base).complete (decodeFrom_sized input dst)
    trivial hv.2 (starts_iff_input.mpr hin)
  have hlen : (m.fields abi 0).length ≤ 255 := by
    rw [m.fields_length abi]
    exact hv.1
  exact ⟨t, (Walker.returns1_iff (decodeWalker_passes host e)).mpr ⟨hlen, ht⟩, hdel.holds⟩

theorem tbDecode_accepts {input : Buffer} {dst : Memory} {base : Nat} :
    (∃ t, (decodeWalker host e).Returns1 (m.fields abi 0) base (decodeFrom input dst) t) ↔
      ∃ v, (SchemaType.message m).Meets .walked v ∧ m.wire e v <+: input.toList := by
  constructor
  · rintro ⟨t, ht⟩
    obtain ⟨hlen, hwalk⟩ := (Walker.returns1_iff (decodeWalker_passes host e)).mp ht
    rw [m.fields_length abi] at hlen
    obtain ⟨v, hv, hdel⟩ := (tbDecode_reads hm hc base).sound (decodeFrom_sized input dst)
      trivial hwalk
    exact ⟨v, ⟨hlen, hv⟩, starts_iff_input.mp hdel.consumes.starts⟩
  · rintro ⟨v, hv, hin⟩
    obtain ⟨t, ht, _⟩ := tbDecode_of_wire hm hc hv hin dst base
    exact ⟨t, ht⟩

end Accept

/-! ## Agreement of the encoders -/

theorem valid_implies_encodable : Demand.Implies .valid .encodable :=
  ⟨fun hr h => Rule.Fits.counted hr h, id, id⟩

theorem valid_implies_counted : Demand.Implies .valid .counted :=
  ⟨fun hr h => Rule.Fits.counted hr h, fun _ => trivial, id⟩

theorem walked_implies_counted : Demand.Implies .walked .counted :=
  ⟨fun hr h => Rule.Fits.counted hr h, id, fun _ => trivial⟩

theorem encodable_implies_counted : Demand.Implies .encodable .counted :=
  ⟨fun _ h => h, fun _ => trivial, id⟩

theorem encodable_implies_whole : Demand.Implies .encodable .whole :=
  ⟨fun _ _ => trivial, id, id⟩

theorem counted_whole_implies_encodable : Demand.Implies (.both .counted .whole) .encodable :=
  ⟨fun _ h => h.1, And.right, And.left⟩

theorem valid_short_implies_walked : Demand.Implies (.both .valid .short) .walked :=
  ⟨fun _ h => h.1, fun _ => trivial, And.right⟩

theorem walked_implies_short : Demand.Implies .walked .short :=
  ⟨fun _ _ => trivial, id, id⟩

section Agreement

variable {abi : Abi} {e : TbEndian} {m : Message} (hm : m.Accepted)
  (hc : (SchemaType.message m).Compiles abi) {v : m.Value} (hv : m.Meets .valid v)

include hm hc hv

omit hm in
/-- The encoding of a valid value fits an input buffer. -/
theorem exists_input : ∃ input : Buffer, input.toList = m.wire e v := by
  have hlen := Message.wire_length_le abi e m 0 hv
  have hsize := m.cEnd_le_cSize abi
  have hlt := hc.2
  change (SchemaType.message m).cSize abi < 2 ^ 31 at hlt
  refine ⟨⟨overwrite (fun _ => 0) 0 (m.wire e v), (m.wire e v).length, by omega⟩, ?_⟩
  exact slice_overwrite _ 0 _

omit hc in
theorem encode_eq_wire : m.encode e v = .ok (m.wire e v) :=
  m.encodeInternal_eq e (Message.Meets.imp valid_implies_encodable m hm hv)

/-- With agreement, `tb_decode` takes the encoding. -/
theorem Agree.accepts (h : Agree abi e m v) : ∃ (input : Buffer) (t : DecodeState),
    input.toList = m.wire e v ∧ (decodeWalker .littleEndian e).Returns1 (m.fields abi 0) 0
      (decodeFrom input fun _ => 0) t := by
  obtain ⟨d, hd, -, -, hdec⟩ := h
  obtain ⟨input, hin⟩ := exists_input (e := e) hc hv
  rw [encode_eq_wire hm hv] at hd
  cases hd
  obtain ⟨t, ht, -⟩ := hdec .littleEndian input (fun _ => 0) 0 hin
  exact ⟨input, t, hin, ht⟩

/-- The generated Python class and `tb_encode` and `tb_decode` with the generated table agree
on a valid value exactly if no message in it has more than 255 entries in its table. -/
theorem generated_codecs_agree_iff :
    Agree abi e m v ↔ (SchemaType.message m).Meets .short v := by
  constructor
  · intro h
    obtain ⟨input, t, hin, ht⟩ := h.accepts hm hc hv
    obtain ⟨v', hv', r, hr⟩ := (tbDecode_accepts hm hc).mp ⟨t, ht⟩
    rw [hin] at hr
    have hwire : m.wire e v' ++ r = m.wire e v ++ [] := by rw [hr, List.append_nil]
    obtain ⟨rfl, -⟩ := Message.wire_unique e hm
      (Message.Meets.imp walked_implies_counted m hm hv'.2)
      (Message.Meets.imp valid_implies_counted m hm hv) hwire
    exact SchemaType.Meets.imp walked_implies_short (.message m) hm hv'
  · intro hshort
    have hwalked : (SchemaType.message m).Meets .walked v :=
      SchemaType.Meets.imp valid_short_implies_walked (.message m) hm
        (SchemaType.Meets.both (.message m) ⟨trivial, hv⟩ hshort)
    refine ⟨m.wire e v, encode_eq_wire hm hv, ?_, ?_, ?_⟩
    · intro host src base buffer hholds hle
      have hwrites := Message.walk_writes abi host e src m hm hc.1 0
        (Nat.lt_of_le_of_lt (m.cEnd_le_cSize abi) hc.2) base v hwalked.2 hholds
      have hlen : (m.fields abi 0).length ≤ 255 := by
        rw [m.fields_length abi]
        exact hshort.1
      have hrun := (hwrites (tbOstreamFromBuffer buffer.bytes buffer.size) buffer.size_lt
        (Nat.zero_le _)).1 (by rw [show (tbOstreamFromBuffer buffer.bytes buffer.size).bytesWritten
          = 0 from rfl, Nat.zero_add]; exact hle)
      refine ⟨_, (Walker.returns1_iff (encodeWalker_passes host e src)).mpr ⟨hlen, hrun⟩,
        Nat.zero_add _, ?_⟩
      change slice (overwrite buffer.bytes 0 (m.wire e v)) 0 (0 + (m.wire e v).length) = _
      rw [Nat.zero_add, slice_overwrite]
    · exact (decode_eq_ok hm).mpr ⟨Message.Meets.imp valid_implies_encodable m hm hv,
        List.prefix_rfl⟩
    · intro host input dst base hin
      exact tbDecode_of_wire hm hc hwalked (hin ▸ List.prefix_rfl) dst base

end Agreement

/-- A `uint8`, two messages with an optional `uint64` each, and a oneof of a `uint8`. -/
def sampleMessage : Message :=
  .field .required (.number .uint8)
    (.field (.fixedRepeated 2) (.message (.field .optional (.number .uint64) .nil))
      (.oneof (.cons 100 (.number .uint8) .nil) .nil))

def sampleValue : sampleMessage.Value :=
  ((7 : BitVec 8), [(some (⟨1, by decide⟩, (42 : BitVec 64)), ()), (none, ())],
    .inl (9 : BitVec 8), ())

theorem sampleMessage_accepted : sampleMessage.Accepted :=
  ⟨trivial, trivial, trivial, ⟨trivial, trivial, trivial⟩, ⟨List.cons_ne_nil _ _, List.not_mem_nil,
    trivial, trivial⟩, trivial⟩

theorem sampleMessage_compiles : (SchemaType.message sampleMessage).Compiles armAbi :=
  ⟨⟨⟨trivial, fun h => nomatch h⟩, ⟨⟨⟨⟨trivial, fun h => nomatch h⟩, trivial⟩, by decide⟩,
    fun _ => by decide⟩, ⟨trivial, trivial⟩, trivial⟩, by decide⟩

theorem sampleValue_valid : sampleMessage.Meets .valid sampleValue :=
  ⟨⟨trivial, fun _ _ => trivial⟩,
    ⟨rfl, fun _ _ => ⟨trivial, ⟨trivial, fun _ _ => trivial⟩, trivial⟩⟩, trivial, trivial⟩

theorem sampleValue_short : (SchemaType.message sampleMessage).Meets .short sampleValue :=
  ⟨show sampleMessage.numFields ≤ 255 by decide, ⟨trivial, fun _ _ => trivial⟩,
    ⟨trivial, fun _ _ => ⟨Nat.le_add_left 1 254, ⟨trivial, fun _ _ => trivial⟩, trivial⟩⟩,
    trivial, trivial⟩

theorem generated_codecs_agree_on_sample : sampleMessage.Accepted ∧
    (SchemaType.message sampleMessage).Compiles armAbi ∧ sampleMessage.Meets .valid sampleValue ∧
    Agree armAbi .bigEndian sampleMessage sampleValue :=
  ⟨sampleMessage_accepted, sampleMessage_compiles, sampleValue_valid,
    (generated_codecs_agree_iff sampleMessage_accepted sampleMessage_compiles
      sampleValue_valid).mpr sampleValue_short⟩

/-- `n` required bytes. -/
def bytesMessage : Nat → Message
  | 0 => .nil
  | n + 1 => .field .required (.number .uint8) (bytesMessage n)

def zeroBytes : (n : Nat) → (bytesMessage n).Value
  | 0 => ()
  | n + 1 => ((0 : BitVec 8), zeroBytes n)

theorem bytesMessage_spec : (n : Nat) → (bytesMessage n).Accepted ∧
    (bytesMessage n).Compiles armAbi ∧ (bytesMessage n).cAlign armAbi = 1 ∧
    (∀ cur, (bytesMessage n).cEnd armAbi cur = cur + n) ∧ (bytesMessage n).numFields = n ∧
    (bytesMessage n).Meets .valid (zeroBytes n)
  | 0 => ⟨trivial, trivial, rfl, fun _ => rfl, rfl, trivial⟩
  | n + 1 => by
    obtain ⟨hacc, hcomp, halign, hend, hfields, hvalid⟩ := bytesMessage_spec n
    refine ⟨⟨trivial, trivial, hacc⟩, ⟨⟨trivial, fun h => nomatch h⟩, hcomp⟩, ?_, fun cur => ?_,
      congrArg (· + 1) hfields, ⟨⟨trivial, fun _ _ => trivial⟩, hvalid⟩⟩
    · rw [bytesMessage, Message.cAlign, halign]
      rfl
    · have hstart : dataStart armAbi none (armAbi.align .uint8) cur = cur := by
        simp [dataStart, headStart, headLen, roundUp, armAbi, NumberType.len]
      have hsize : fieldEnd armAbi .required (.number .uint8) cur = cur + 1 :=
        congrArg (· + 1) hstart
      change (bytesMessage n).cEnd armAbi (fieldEnd armAbi .required (.number .uint8) cur) = _
      rw [hend, hsize]
      omega

theorem bytesMessage_compiles {n : Nat} (h : n < 2 ^ 31) :
    (SchemaType.message (bytesMessage n)).Compiles armAbi := by
  obtain ⟨-, hcomp, halign, hend, -⟩ := bytesMessage_spec n
  refine ⟨hcomp, ?_⟩
  rw [halign, hend, roundUp]
  omega

/-- With 256 entries the index of `tb_decode` never reaches the end of the table. -/
theorem long_table_disagrees : (bytesMessage 256).Accepted ∧
    (SchemaType.message (bytesMessage 256)).Compiles armAbi ∧
    (bytesMessage 256).Meets .valid (zeroBytes 256) ∧
    ¬ Agree armAbi .bigEndian (bytesMessage 256) (zeroBytes 256) := by
  obtain ⟨hacc, -, -, -, hfields, hvalid⟩ := bytesMessage_spec 256
  have hcomp := bytesMessage_compiles (n := 256) (by decide)
  refine ⟨hacc, hcomp, hvalid, fun h => ?_⟩
  obtain ⟨input, t, -, ht⟩ := h.accepts hacc hcomp hvalid
  have hlen := ((Walker.returns1_iff (decodeWalker_passes _ _)).mp ht).1
  rw [Message.fields_length, hfields] at hlen
  omega

/-! ## Acceptance by the decoders -/

/-- `repeated uint8 x[1];` -/
def shortList : Message := .field (.repeated 1) (.number .uint8) .nil

theorem shortList_accepted : shortList.Accepted :=
  ⟨(by decide : searchSizeType 1 ≠ none), trivial, trivial⟩

theorem shortList_compiles : (SchemaType.message shortList).Compiles armAbi :=
  ⟨⟨⟨trivial, fun _ => by decide⟩, trivial⟩, by decide⟩

/-- A count of 2. -/
def twoElements : Buffer := ⟨overwrite (fun _ => 0) 0 [2, 0, 0], 3, by decide⟩

/-- The Python decoder takes a list that is longer than declared, `tb_decode` does not. -/
theorem long_list_divides_decoders :
    (∃ v, shortList.decode .bigEndian twoElements.toList = .ok v) ∧
    ¬ ∃ t, (decodeWalker .littleEndian .bigEndian).Returns1 (shortList.fields armAbi 0) 0
      (decodeFrom twoElements fun _ => 0) t := by
  have hlist : twoElements.toList = [2, 0, 0] := by decide
  have hpython : shortList.decode .bigEndian twoElements.toList =
      .ok ([(0 : BitVec 8), (0 : BitVec 8)], ()) := by
    refine (decode_eq_ok shortList_accepted).mpr ⟨⟨⟨?_, fun _ _ => trivial⟩, trivial⟩, ?_⟩
    · exact (by decide : 2 < 256 ^ sizeTypeLen 1)
    · rw [hlist]
      exact ⟨[], by decide⟩
  refine ⟨⟨_, hpython⟩, fun h => ?_⟩
  obtain ⟨⟨l, u⟩, ⟨-, ⟨hl, -⟩, -⟩, hin⟩ :=
    (tbDecode_accepts shortList_accepted shortList_compiles).mp h
  have hl : @List.length (BitVec 8) l ≤ 1 := hl
  have hcounted : Rule.Counted (.repeated 1) l :=
    Rule.Fits.counted (by decide : searchSizeType 1 ≠ none) hl
  have hdecode := (decode_eq_ok shortList_accepted (v := (l, u))).mpr
    ⟨⟨⟨hcounted, fun _ _ => trivial⟩, trivial⟩, hin⟩
  rw [hpython] at hdecode
  cases hdecode
  exact absurd hl (by decide)

/-- The generated Python decoder and `tb_decode` with the generated table accept the same
input exactly if the value that it begins with, if any, has no oneof without alternatives
when `tb_decode` supports it, and is supported when it has none. -/
theorem generated_decoders_accept_alike_iff {abi : Abi} {m : Message} (hm : m.Accepted)
    (hc : (SchemaType.message m).Compiles abi) (host e : TbEndian) (input : Buffer) (dst : Memory)
    (base : Nat) :
    ((∃ v, m.decode e input.toList = .ok v) ↔
      ∃ t, (decodeWalker host e).Returns1 (m.fields abi 0) base (decodeFrom input dst) t) ↔
    ∀ v, m.Meets .counted v → m.wire e v <+: input.toList →
      (m.Meets .whole v ↔ (SchemaType.message m).Meets .walked v) := by
  simp only [decode_eq_ok hm, tbDecode_accepts hm hc]
  constructor
  · intro h v hv hin
    have hunique : ∀ v', m.Meets .counted v' → m.wire e v' <+: input.toList → v' = v := by
      intro v' hv' hin'
      obtain ⟨r, hr⟩ := hin
      obtain ⟨r', hr'⟩ := hin'
      exact (m.wire_unique e hm hv' hv (hr'.trans hr.symm)).1
    constructor
    · intro hwhole
      obtain ⟨v', hv', hin'⟩ := h.mp ⟨v, Message.Meets.imp counted_whole_implies_encodable m hm
        (Message.Meets.both m hv hwhole), hin⟩
      obtain rfl := hunique v' (Message.Meets.imp walked_implies_counted m hm hv'.2) hin'
      exact hv'
    · intro hwalked
      obtain ⟨v', hv', hin'⟩ := h.mpr ⟨v, hwalked, hin⟩
      obtain rfl := hunique v' (Message.Meets.imp encodable_implies_counted m hm hv') hin'
      exact Message.Meets.imp encodable_implies_whole m hm hv'
  · intro h
    constructor
    · rintro ⟨v, hv, hin⟩
      exact ⟨v, (h v (Message.Meets.imp encodable_implies_counted m hm hv) hin).mp
        (Message.Meets.imp encodable_implies_whole m hm hv), hin⟩
    · rintro ⟨v, hv, hin⟩
      have hcounted := Message.Meets.imp walked_implies_counted m hm hv.2
      exact ⟨v, Message.Meets.imp counted_whole_implies_encodable m hm
        (Message.Meets.both m hcounted ((h v hcounted hin).mpr hv)), hin⟩

/-- One element, 5. -/
def oneElement : Buffer := ⟨overwrite (fun _ => 0) 0 [1, 5], 2, by decide⟩

theorem generated_decoders_accept_one_element : shortList.Accepted ∧
    (SchemaType.message shortList).Compiles armAbi ∧
    ((∃ v, shortList.decode .bigEndian oneElement.toList = .ok v) ↔
      ∃ t, (decodeWalker .littleEndian .bigEndian).Returns1 (shortList.fields armAbi 0) 0
        (decodeFrom oneElement fun _ => 0) t) := by
  refine ⟨shortList_accepted, shortList_compiles, (generated_decoders_accept_alike_iff
    shortList_accepted shortList_compiles .littleEndian .bigEndian oneElement (fun _ => 0)
    0).mpr ?_⟩
  intro v hv hin
  have hfive : shortList.Meets .counted (([(5 : BitVec 8)], ()) : shortList.Value) :=
    ⟨⟨(by decide : 1 < 256 ^ sizeTypeLen 1), fun _ _ => trivial⟩, trivial⟩
  have hwire : shortList.wire .bigEndian (([(5 : BitVec 8)], ()) : shortList.Value) =
      oneElement.toList := by decide
  obtain ⟨r, hr⟩ := hin
  have heq : shortList.wire .bigEndian v ++ r =
      shortList.wire .bigEndian (([(5 : BitVec 8)], ()) : shortList.Value) ++ [] := by
    rw [hr, hwire, List.append_nil]
  obtain ⟨rfl, -⟩ := Message.wire_unique .bigEndian shortList_accepted hv hfive heq
  constructor
  · exact fun _ => ⟨show shortList.numFields ≤ 255 by decide,
      ⟨Nat.le_refl 1, fun _ _ => trivial⟩, trivial⟩
  · exact fun _ => ⟨⟨trivial, fun _ _ => trivial⟩, trivial⟩

end OpenBadge.Tinybuf
