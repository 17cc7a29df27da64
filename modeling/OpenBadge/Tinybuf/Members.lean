import OpenBadge.Tinybuf.Loop
import OpenBadge.Tinybuf.Table

/-!
# The members of a generated structure

Where the members of a structure lie, that the entries of its table say so, and when a
structure in memory holds a value.
-/

namespace OpenBadge.Tinybuf

open OpenBadge.Lib

variable {abi : Abi}

/-! ## The layout -/

theorem le_roundUp {n a : Nat} (h : 0 < a) : n ≤ roundUp n a := by
  have hdiv := Nat.div_add_mod (n + (a - 1)) a
  have hmod := Nat.mod_lt (n + (a - 1)) h
  rw [roundUp, Nat.mul_comm]
  omega

mutual

theorem SchemaType.cAlign_pos (abi : Abi) : (type : SchemaType) → 0 < type.cAlign abi
  | .number t => abi.align_pos t
  | .message m => m.cAlign_pos abi

theorem Message.cAlign_pos (abi : Abi) : (m : Message) → 0 < m.cAlign abi
  | .nil => Nat.one_pos
  | .field _ type _ =>
    Nat.lt_of_lt_of_le (type.cAlign_pos abi) (Nat.le_trans (Nat.le_max_left ..) (Nat.le_max_right ..))
  | .oneof _ _ => Nat.lt_of_lt_of_le (abi.align_pos .uint8) (Nat.le_max_left ..)
  | .emptyOneof _ => Nat.lt_of_lt_of_le (abi.align_pos .uint8) (Nat.le_max_left ..)

end

theorem InnerFields.cAlign_pos (abi : Abi) : (inner : InnerFields) → 0 < inner.cAlign abi
  | .nil => Nat.one_pos
  | .cons _ type _ => Nat.lt_of_lt_of_le (type.cAlign_pos abi) (Nat.le_max_left ..)

theorem le_headStart (abi : Abi) (head : Option NumberType) (cur : Nat) :
    cur ≤ headStart abi head cur := by
  cases head with
  | none => exact Nat.le_refl cur
  | some t => exact le_roundUp (abi.align_pos t)

theorem headStart_add_le (abi : Abi) (head : Option NumberType) {align : Nat} (h : 0 < align)
    (cur : Nat) : headStart abi head cur + headLen head ≤ dataStart abi head align cur :=
  le_roundUp h

/-- The end of a field that follows `cur` bytes. -/
def fieldEnd (abi : Abi) (rule : Rule) (type : SchemaType) (cur : Nat) : Nat :=
  dataStart abi rule.headType (type.cAlign abi) cur + rule.room * type.cSize abi

/-- The end of a oneof that follows `cur` bytes. -/
def oneofEnd (abi : Abi) (inner : InnerFields) (cur : Nat) : Nat :=
  dataStart abi (some .uint8) (inner.cAlign abi) cur +
    roundUp (inner.cMax abi) (inner.cAlign abi)

theorem le_fieldEnd (abi : Abi) (rule : Rule) (type : SchemaType) (cur : Nat) :
    cur ≤ fieldEnd abi rule type cur := by
  have h1 := le_headStart abi rule.headType cur
  have h2 := headStart_add_le abi rule.headType (type.cAlign_pos abi) cur
  unfold fieldEnd
  omega

theorem le_oneofEnd (abi : Abi) (inner : InnerFields) (cur : Nat) :
    cur ≤ oneofEnd abi inner cur := by
  have h1 := le_headStart abi (some .uint8) cur
  have h2 := headStart_add_le abi (some .uint8) (inner.cAlign_pos abi) cur
  unfold oneofEnd
  omega

theorem le_emptyOneofEnd (abi : Abi) (cur : Nat) : cur ≤ dataStart abi (some .uint8) 1 cur := by
  have h1 := le_headStart abi (some .uint8) cur
  have h2 := headStart_add_le abi (some .uint8) Nat.one_pos cur
  omega

theorem Message.le_cEnd (abi : Abi) : (m : Message) → (cur : Nat) → cur ≤ m.cEnd abi cur
  | .nil, cur => Nat.le_refl cur
  | .field rule type next, cur =>
    Nat.le_trans (le_fieldEnd abi rule type cur) (next.le_cEnd abi (fieldEnd abi rule type cur))
  | .oneof inner next, cur =>
    Nat.le_trans (le_oneofEnd abi inner cur) (next.le_cEnd abi (oneofEnd abi inner cur))
  | .emptyOneof next, cur => Nat.le_trans (le_emptyOneofEnd abi cur) (next.le_cEnd abi _)

theorem Message.cEnd_le_cSize (abi : Abi) (m : Message) :
    m.cEnd abi 0 ≤ (SchemaType.message m).cSize abi := le_roundUp (m.cAlign_pos abi)

theorem InnerFields.cMax_le (abi : Abi) (inner : InnerFields) :
    inner.cMax abi ≤ roundUp (inner.cMax abi) (inner.cAlign abi) := le_roundUp (inner.cAlign_pos abi)

theorem Rule.headLen_eq {rule : Rule} : headLen rule.headType = rule.sizeSize := by
  cases rule <;> rfl

theorem NumberType.len_mem (t : NumberType) : t.len ∈ [1, 2, 4, 8] := by
  cases t <;> decide

/-! ## The entries -/

/-- The bit of a rule in `type`. -/
def Rule.fieldType : Rule → FieldType
  | .required => .required
  | .optional => .optional
  | .repeated _ => .repeated
  | .fixedRepeated _ => .fixedRepeated

def SchemaType.dataKind : SchemaType → DataKind
  | .number _ => .number
  | .message _ => .message

theorem fieldEntry_fieldType (rule : Rule) (type : SchemaType) (cur : Nat) :
    (fieldEntry abi rule type cur).fieldType = some rule.fieldType := by
  cases type with
  | number t =>
    cases t <;> cases rule <;> simp [TbField.fieldType, fieldEntry, SchemaType.identifier,
      Rule.identifier, Rule.fieldType]
  | message m =>
    cases rule <;> simp [TbField.fieldType, fieldEntry, SchemaType.identifier, Rule.identifier,
      Rule.fieldType]

theorem fieldEntry_dataKind (rule : Rule) (type : SchemaType) (cur : Nat) :
    (fieldEntry abi rule type cur).dataKind = some type.dataKind := by
  cases type with
  | number t =>
    cases t <;> cases rule <;> simp [TbField.dataKind, fieldEntry, SchemaType.identifier,
      Rule.identifier, SchemaType.dataKind]
  | message m =>
    cases rule <;> simp [TbField.dataKind, fieldEntry, SchemaType.identifier, Rule.identifier,
      SchemaType.dataKind]

theorem fieldEntry_oneof_bit (rule : Rule) (type : SchemaType) (cur : Nat) :
    (fieldEntry abi rule type cur).type &&& 16 = 0 := by
  cases type with
  | number t =>
    cases t <;> cases rule <;> simp [fieldEntry, SchemaType.identifier, Rule.identifier]
  | message m => cases rule <;> simp [fieldEntry, SchemaType.identifier, Rule.identifier]

section Inner

variable (tag : UInt8) (type : SchemaType) (which data : Nat) (first : Bool)

theorem innerEntry_fieldType :
    (innerEntry abi tag type which data first).fieldType = some .oneof := by
  cases type with
  | number t => cases t <;> simp [TbField.fieldType, innerEntry, SchemaType.identifier]
  | message m => simp [TbField.fieldType, innerEntry, SchemaType.identifier]

theorem innerEntry_dataKind :
    (innerEntry abi tag type which data first).dataKind = some type.dataKind := by
  cases type with
  | number t =>
    cases t <;> simp [TbField.dataKind, innerEntry, SchemaType.identifier, SchemaType.dataKind]
  | message m => simp [TbField.dataKind, innerEntry, SchemaType.identifier, SchemaType.dataKind]

theorem innerEntry_oneof_bit : (innerEntry abi tag type which data first).type &&& 16 ≠ 0 := by
  cases type with
  | number t => cases t <;> simp [innerEntry, SchemaType.identifier]
  | message m => simp [innerEntry, SchemaType.identifier]

end Inner

/-- The size type of a list is one that `tb_encode` supports. -/
def Rule.Small : Rule → Prop
  | .repeated size => sizeTypeLen size ∈ [1, 2, 4]
  | _ => True

theorem headStart_lt_dataStart (abi : Abi) {head : Option NumberType} (hhead : 0 < headLen head)
    {align : Nat} (h : 0 < align) (cur : Nat) : headStart abi head cur < dataStart abi head align cur := by
  have hle := headStart_add_le abi head h cur
  omega

section FieldEntry

variable {rule : Rule} {type : SchemaType} {cur : Nat}

theorem fieldEntry_continuesOneof : (fieldEntry abi rule type cur).continuesOneof = false := by
  unfold TbField.continuesOneof
  rw [fieldEntry_fieldType]
  cases rule <;> simp [Rule.fieldType]

/-- The head member of a field that has one lies where the table says. -/
theorem fieldEntry_sizeOffset (hr : rule.Accepted)
    (hs : (fieldEntry abi rule type cur).hasSize = true) :
    ((fieldEntry abi rule type cur).dataOffset : Int) + (fieldEntry abi rule type cur).sizeOffset =
      headStart abi rule.headType cur := by
  have hsome : rule.headType.isSome = true := by
    cases rule with
    | required => simp [TbField.hasSize, fieldEntry_fieldType, Rule.fieldType] at hs
    | optional => rfl
    | repeated size => exact Option.isSome_iff_ne_none.mpr hr
    | fixedRepeated size => simp [TbField.hasSize, fieldEntry_fieldType, Rule.fieldType] at hs
  simp only [fieldEntry, delta]
  rw [if_pos hsome]
  omega

theorem fieldEntry_sizePtr (hr : rule.Accepted)
    (hs : (fieldEntry abi rule type cur).hasSize = true) (base : Nat) :
    (fieldEntry abi rule type cur).sizePtr base = base + headStart abi rule.headType cur := by
  have h := fieldEntry_sizeOffset hr hs
  unfold TbField.sizePtr TbField.dataPtr
  omega

theorem fieldEntry_room (harray : rule.isArray = true → type.cSize abi ≠ 0) :
    (fieldEntry abi rule type cur).room = rule.room := by
  unfold TbField.room
  rw [fieldEntry_fieldType]
  cases rule with
  | required => rfl
  | optional => rfl
  | repeated size => exact Nat.mul_div_cancel _ (Nat.pos_of_ne_zero (harray rfl))
  | fixedRepeated size => exact Nat.mul_div_cancel _ (Nat.pos_of_ne_zero (harray rfl))

theorem fieldEntry_wellFormed (hr : rule.Accepted) (hsmall : rule.Small)
    (harray : rule.isArray = true → type.cSize abi ≠ 0) :
    (fieldEntry abi rule type cur).WellFormed (fieldEnd abi rule type cur) where
  fieldType_isSome := by rw [fieldEntry_fieldType]; rfl
  dataKind_isSome := by rw [fieldEntry_dataKind]; rfl
  oneof_bit := by
    rw [fieldEntry_oneof_bit, fieldEntry_fieldType]
    cases rule <;> simp [Rule.fieldType]
  data_fits := by
    rw [fieldEntry_room harray]
    exact Nat.le_refl _
  number_size := by
    rw [fieldEntry_dataKind]
    cases type with
    | number t => exact fun _ => t.len_mem
    | message m => exact fun h => by simp [SchemaType.dataKind] at h
  size_fits hs := by
    have hoff := fieldEntry_sizeOffset hr hs
    have hle := headStart_add_le abi rule.headType (type.cAlign_pos abi) cur
    rw [Rule.headLen_eq] at hle
    have hstart : (fieldEntry abi rule type cur).sizeStart = headStart abi rule.headType cur := by
      unfold TbField.sizeStart
      rw [hoff]
      exact Int.toNat_natCast _
    rw [hstart, hoff]
    refine ⟨Int.natCast_nonneg _, ?_⟩
    change headStart abi rule.headType cur + rule.sizeSize ≤ _
    unfold fieldEnd
    omega
  flag_size := by
    rw [fieldEntry_fieldType]
    cases rule <;> simp [Rule.fieldType, fieldEntry, Rule.sizeSize]
  count_size := by
    rw [fieldEntry_fieldType]
    cases rule with
    | repeated size => exact fun _ => hsmall
    | required => simp [Rule.fieldType]
    | optional => simp [Rule.fieldType]
    | fixedRepeated size => simp [Rule.fieldType]
  size_apart hs := by
    have hoff := fieldEntry_sizeOffset hr hs
    have hle := headStart_add_le abi rule.headType (type.cAlign_pos abi) cur
    rw [Rule.headLen_eq] at hle
    have hstart : (fieldEntry abi rule type cur).sizeStart = headStart abi rule.headType cur := by
      unfold TbField.sizeStart
      rw [hoff]
      exact Int.toNat_natCast _
    rw [hstart]
    exact Or.inl hle

end FieldEntry

theorem innerEntry_wellFormed (tag : UInt8) (type : SchemaType) {which data size : Nat}
    (first : Bool) (hwhich : which < data) (hsize : data + type.cSize abi ≤ size) :
    (innerEntry abi tag type which data first).WellFormed size where
  fieldType_isSome := by rw [innerEntry_fieldType]; rfl
  dataKind_isSome := by rw [innerEntry_dataKind]; rfl
  oneof_bit := by
    rw [innerEntry_fieldType]
    simp [innerEntry_oneof_bit]
  data_fits := by
    unfold TbField.room
    rw [innerEntry_fieldType]
    change data + 1 * type.cSize abi ≤ size
    omega
  number_size := by
    rw [innerEntry_dataKind]
    cases type with
    | number t => exact fun _ => t.len_mem
    | message m => exact fun h => by simp [SchemaType.dataKind] at h
  size_fits _ := by
    unfold TbField.sizeStart
    simp only [innerEntry]
    omega
  flag_size _ := rfl
  count_size := by
    rw [innerEntry_fieldType]
    exact fun h => by simp at h
  size_apart _ := by
    refine Or.inl ?_
    unfold TbField.sizeStart
    simp only [innerEntry]
    omega

theorem innerEntry_sizePtr (abi : Abi) (tag : UInt8) (type : SchemaType) (whichAt data base : Nat)
    (first : Bool) :
    (innerEntry abi tag type whichAt data first).sizePtr base = base + whichAt := by
  change (((base + data : Nat) : Int) + ((whichAt : Int) - data)).toNat = base + whichAt
  omega

/-! ## The flag or the count of a field -/

theorem convertEndianness_eq_packed (host e : TbEndian) (m : Memory) (a n : Nat) :
    convertEndianness host (slice m a n) e = packed e n (readNumber host m a n) := by
  have h := packed_unpacked e (convertEndianness host (slice m a n) e)
  have hin : inOrder e (convertEndianness host (slice m a n) e) =
      convertEndianness host (slice m a n) .bigEndian := by
    cases host <;> cases e <;> simp [inOrder, convertEndianness]
  rw [convertEndianness_length, slice_length, unpacked, hin] at h
  exact h.symm

theorem find?_fits {size : Nat} {t : NumberType} (ts : List NumberType)
    (h : size < (2 ^ 8) ^ t.len) :
    (t :: ts).find? (fun t => size < (2 ^ 8) ^ t.len) = some t :=
  List.find?_cons_of_pos (decide_eq_true h)

theorem find?_not_fits {size : Nat} {t : NumberType} (ts : List NumberType)
    (h : ¬ size < (2 ^ 8) ^ t.len) :
    (t :: ts).find? (fun t => size < (2 ^ 8) ^ t.len) =
      ts.find? fun t => size < (2 ^ 8) ^ t.len :=
  List.find?_cons_of_neg fun hlt => h (of_decide_eq_true hlt)

theorem sizeTypeLen_small {size : Nat} (h : size < 2 ^ 31) : sizeTypeLen size ∈ [1, 2, 4] := by
  have hfound : searchSizeType size ∈ [some .uint8, some .uint16, some .uint32] := by
    have h4 : size < (2 ^ 8) ^ NumberType.uint32.len := by
      simp only [NumberType.len]
      omega
    rw [searchSizeType]
    by_cases h1 : size < (2 ^ 8) ^ NumberType.uint8.len
    · rw [find?_fits _ h1]
      decide
    · rw [find?_not_fits _ h1]
      by_cases h2 : size < (2 ^ 8) ^ NumberType.uint16.len
      · rw [find?_fits _ h2]
        decide
      · rw [find?_not_fits _ h2, find?_fits _ h4]
        decide
  rw [sizeTypeLen]
  simp only [List.mem_cons, List.not_mem_nil, or_false] at hfound
  obtain hfound | hfound | hfound := hfound <;> rw [hfound] <;> decide

/-- A list that fits its structure has one of the size types that `tb_encode` supports. -/
theorem Rule.small {rule : Rule} {type : SchemaType} {cur : Nat}
    (harray : rule.isArray = true → type.cSize abi ≠ 0)
    (hend : fieldEnd abi rule type cur < 2 ^ 31) : rule.Small := by
  cases rule with
  | required => trivial
  | optional => trivial
  | fixedRepeated size => trivial
  | repeated size =>
    have hpos : 0 < type.cSize abi := Nat.pos_of_ne_zero (harray rfl)
    have hle : size * 1 ≤ size * type.cSize abi := Nat.mul_le_mul_left size hpos
    have hroom : fieldEnd abi (.repeated size) type cur =
        dataStart abi (searchSizeType size) (type.cAlign abi) cur + size * type.cSize abi := rfl
    exact sizeTypeLen_small (by omega)

/-- The flag or the count in front of the elements, or 0. -/
def Rule.headValue {α : Type} : (rule : Rule) → rule.Value α → Nat
  | .optional, none => 0
  | .optional, some (flag, _) => flag.val.toNat
  | .repeated _, l => l.length
  | _, _ => 0

/-- The number of elements behind the flag or the count `n`. -/
def Rule.count : Rule → Nat → Nat
  | .required, _ => 1
  | .optional, n => if n ≠ 0 then 1 else 0
  | .repeated _, n => n
  | .fixedRepeated size, _ => size

/-- A count that `tb_encode` and `tb_decode` accept. -/
def Rule.InRoom : Rule → Nat → Prop
  | .repeated size, n => n ≤ size
  | _, _ => True

section Head

variable {rule : Rule} {α : Type} {x : rule.Value α}

theorem Rule.head_eq (e : TbEndian) : (rule : Rule) → (x : rule.Value α) →
    rule.head e x = packed e rule.sizeSize (rule.headValue x)
  | .required, _ => by cases e <;> rfl
  | .optional, none => (packed_one e 0).symm
  | .optional, some (flag, _) => (packed_one e flag.val).symm
  | .repeated _, _ => rfl
  | .fixedRepeated _, _ => by cases e <;> rfl

theorem Rule.Fits.entries_length (h : rule.Fits x) :
    (rule.entries x).length = rule.count (rule.headValue x) := by
  cases rule with
  | required => rfl
  | repeated size => rfl
  | fixedRepeated size => exact h
  | optional =>
    cases x with
    | none => rfl
    | some present =>
      have hne : present.1.val.toNat ≠ 0 := fun h => present.1.property (UInt8.toNat_inj.mp h)
      exact (if_pos hne).symm

theorem Rule.Fits.inRoom (h : rule.Fits x) : rule.InRoom (rule.headValue x) := by
  cases rule with
  | repeated size => exact h
  | required => trivial
  | optional => trivial
  | fixedRepeated size => trivial

theorem Rule.Fits.headValue_lt (hr : rule.Accepted) (h : rule.Fits x) :
    rule.headValue x < 256 ^ rule.sizeSize := by
  cases rule with
  | required => exact Nat.one_pos
  | fixedRepeated size => exact Nat.one_pos
  | repeated size => exact h.counted hr
  | optional =>
    cases x with
    | none => exact Nat.zero_lt_succ _
    | some present => exact present.1.val.toNat_lt

theorem Rule.InRoom.count_le {n : Nat} (h : rule.InRoom n) : rule.count n ≤ rule.room := by
  cases rule with
  | required => exact Nat.le_refl _
  | fixedRepeated size => exact Nat.le_refl _
  | repeated size => exact h
  | optional =>
    rw [Rule.count]
    split
    · exact Nat.le_refl 1
    · exact Nat.zero_le 1

theorem Rule.Fits.length_le (h : rule.Fits x) : (rule.entries x).length ≤ rule.room := by
  rw [h.entries_length]
  exact h.inRoom.count_le

/-- A flag or a count that is accepted and as many elements make up a value. -/
theorem Rule.exists_value (rule : Rule) {n : Nat} (hn : n < 256 ^ rule.sizeSize)
    (hroom : rule.InRoom n) {l : List α} (hl : l.length = rule.count n) :
    ∃ x : rule.Value α, rule.entries x = l ∧ rule.headValue x = n ∧ rule.Fits x := by
  cases rule with
  | required =>
    obtain ⟨y, rfl⟩ := List.length_eq_one_iff.mp hl
    exact ⟨y, rfl, (Nat.lt_one_iff.mp hn).symm, trivial⟩
  | fixedRepeated size => exact ⟨l, rfl, (Nat.lt_one_iff.mp hn).symm, hl⟩
  | repeated size => exact ⟨l, rfl, hl, show l.length ≤ size from hl ▸ hroom⟩
  | optional =>
    rw [Rule.count] at hl
    by_cases h0 : n ≠ 0
    · rw [if_pos h0] at hl
      obtain ⟨y, rfl⟩ := List.length_eq_one_iff.mp hl
      have hflag : (UInt8.ofNat n).toNat = n := UInt8.toNat_ofNat_of_lt' hn
      refine ⟨some (⟨UInt8.ofNat n, fun h => h0 ?_⟩, y), rfl, hflag, trivial⟩
      rw [← hflag, h]
      rfl
    · rw [if_neg h0] at hl
      rw [List.eq_nil_of_length_eq_zero hl]
      exact ⟨none, rfl, (not_not.mp h0).symm, trivial⟩

end Head

section FieldHead

variable {rule : Rule} {type : SchemaType} {host : TbEndian} {m : Memory} {base cur : Nat}

theorem fieldEntry_sizeValue (hr : rule.Accepted)
    (hs : (fieldEntry abi rule type cur).hasSize = true) :
    (fieldEntry abi rule type cur).sizeValue host m base =
      readNumber host m (base + headStart abi rule.headType cur) rule.sizeSize := by
  rw [TbField.sizeValue, fieldEntry_sizePtr hr hs]
  rfl

theorem fieldEntry_hasSize : (fieldEntry abi rule type cur).hasSize = true ↔
    rule.fieldType = .optional ∨ rule.fieldType = .repeated := by
  rw [TbField.hasSize, fieldEntry_fieldType]
  cases rule <;> simp [Rule.fieldType]

theorem fieldEntry_sendsSize : (fieldEntry abi rule type cur).sendsSize =
    (fieldEntry abi rule type cur).hasSize := by
  rw [TbField.sendsSize, fieldEntry_continuesOneof, Bool.not_false, Bool.and_true]

theorem fieldEntry_present (hr : rule.Accepted)
    (harray : rule.isArray = true → type.cSize abi ≠ 0) :
    (fieldEntry abi rule type cur).present host m base =
      rule.count (readNumber host m (base + headStart abi rule.headType cur) rule.sizeSize) := by
  have hsize : rule.fieldType = .optional ∨ rule.fieldType = .repeated →
      (fieldEntry abi rule type cur).sizeValue host m base =
        readNumber host m (base + headStart abi rule.headType cur) rule.sizeSize :=
    fun hs => fieldEntry_sizeValue hr (fieldEntry_hasSize.mpr hs)
  have hroom : (fieldEntry abi rule type cur).room = rule.room := fieldEntry_room harray
  rw [TbField.present, fieldEntry_fieldType]
  rw [TbField.room, fieldEntry_fieldType] at hroom
  cases rule with
  | required => rfl
  | optional =>
    dsimp only [Rule.fieldType]
    rw [hsize (Or.inl rfl)]
    rfl
  | repeated size =>
    dsimp only [Rule.fieldType]
    rw [hsize (Or.inr rfl)]
    rfl
  | fixedRepeated size => exact hroom

theorem fieldEntry_valid (hr : rule.Accepted)
    (harray : rule.isArray = true → type.cSize abi ≠ 0) (tagValid : UInt8 → Bool) :
    (fieldEntry abi rule type cur).Valid host m tagValid base ↔
      rule.InRoom (readNumber host m (base + headStart abi rule.headType cur) rule.sizeSize) := by
  have hsize : rule.fieldType = .optional ∨ rule.fieldType = .repeated →
      (fieldEntry abi rule type cur).sizeValue host m base =
        readNumber host m (base + headStart abi rule.headType cur) rule.sizeSize :=
    fun hs => fieldEntry_sizeValue hr (fieldEntry_hasSize.mpr hs)
  have hroom : (fieldEntry abi rule type cur).room = rule.room := fieldEntry_room harray
  rw [TbField.room, fieldEntry_fieldType] at hroom
  unfold TbField.Valid
  rw [fieldEntry_fieldType]
  cases rule with
  | required => simp [Rule.fieldType, Rule.InRoom]
  | optional => simp [Rule.fieldType, Rule.InRoom]
  | fixedRepeated size => simp [Rule.fieldType, Rule.InRoom]
  | repeated size =>
    dsimp only [Rule.fieldType] at hroom
    rw [hsize (Or.inr rfl), hroom]
    simp [Rule.fieldType, Rule.InRoom, Rule.room]

theorem fieldEntry_head {e : TbEndian} (hr : rule.Accepted) :
    (fieldEntry abi rule type cur).head host m e base = packed e rule.sizeSize
      (readNumber host m (base + headStart abi rule.headType cur) rule.sizeSize) := by
  have hptr : rule.fieldType = .optional ∨ rule.fieldType = .repeated →
      (fieldEntry abi rule type cur).sizePtr base = base + headStart abi rule.headType cur :=
    fun hs => fieldEntry_sizePtr hr (fieldEntry_hasSize.mpr hs) base
  have hsize : (fieldEntry abi rule type cur).sendsSize = true ↔
      rule.fieldType = .optional ∨ rule.fieldType = .repeated := by
    rw [fieldEntry_sendsSize]
    exact fieldEntry_hasSize
  unfold TbField.head
  cases rule with
  | required =>
    rw [if_neg fun h => by simpa [Rule.fieldType] using hsize.mp h]
    cases e <;> rfl
  | fixedRepeated size =>
    rw [if_neg fun h => by simpa [Rule.fieldType] using hsize.mp h]
    cases e <;> rfl
  | optional =>
    rw [if_pos (hsize.mpr (Or.inl rfl)), hptr (Or.inl rfl), convertEndianness_eq_packed]
    rfl
  | repeated size =>
    rw [if_pos (hsize.mpr (Or.inr rfl)), hptr (Or.inr rfl), convertEndianness_eq_packed]
    rfl

end FieldHead

/-! ## The value of a structure -/

mutual

/-- The number or the structure at `a` is the value. -/
def SchemaType.Holds (abi : Abi) (host : TbEndian) (m : Memory) :
    (type : SchemaType) → Nat → type.Value → Prop
  | .number t, a, x => readNumber host m a t.len = x.toNat
  | .message msg, a, v => msg.Holds abi host m a 0 v

/-- The members of the structure at `base` behind its first `cur` bytes. -/
def Message.Holds (abi : Abi) (host : TbEndian) (m : Memory) :
    (msg : Message) → Nat → Nat → msg.Value → Prop
  | .nil, _, _, _ => True
  | .field rule type next, base, cur, (x, v) =>
    (readNumber host m (base + headStart abi rule.headType cur) rule.sizeSize =
        rule.headValue x ∧
      ∀ k y, (rule.entries x)[k]? = some y → type.Holds abi host m
        (base + dataStart abi rule.headType (type.cAlign abi) cur + k * type.cSize abi) y) ∧
    next.Holds abi host m base (fieldEnd abi rule type cur) v
  | .oneof inner next, base, cur, (x, v) =>
    (m (base + headStart abi (some .uint8) cur) = inner.which x ∧
      inner.Holds abi host m (base + dataStart abi (some .uint8) (inner.cAlign abi) cur) x) ∧
    next.Holds abi host m base (oneofEnd abi inner cur) v
  | .emptyOneof next, base, cur, v =>
    next.Holds abi host m base (dataStart abi (some .uint8) 1 cur) v

def InnerFields.Holds (abi : Abi) (host : TbEndian) (m : Memory) :
    (inner : InnerFields) → Nat → inner.Value → Prop
  | .cons _ type _, a, .inl x => type.Holds abi host m a x
  | .cons _ _ next, a, .inr x => next.Holds abi host m a x

end

/-- No message has more than 255 entries in its table. -/
def Demand.short : Demand := ⟨fun _ _ => True, True, fun m => m.numFields ≤ 255⟩

/-- What `tb_encode` and `tb_decode` ask of a value. -/
def Demand.walked : Demand := ⟨Rule.Fits, True, fun m => m.numFields ≤ 255⟩

theorem InnerFields.fields_length (abi : Abi) (which data : Nat) (rest : Fields) :
    (inner : InnerFields) → (first : Bool) →
      (inner.fields abi which data first rest).length = rest.length + inner.length
  | .nil, _ => rfl
  | .cons _ _ next, _ => by
    have ih := next.fields_length abi which data rest false
    rw [InnerFields.fields, Fields.length, ih]
    rfl

theorem Message.fields_length (abi : Abi) : (m : Message) → (cur : Nat) →
    (m.fields abi cur).length = m.numFields
  | .nil, _ => rfl
  | .field rule type next, cur => by
    rw [Message.fields, Fields.length, next.fields_length abi]
    rfl
  | .oneof inner next, cur => by
    rw [Message.fields, InnerFields.fields_length, next.fields_length abi]
    rfl
  | .emptyOneof next, cur => next.fields_length abi _

/-- The check of a which-tag does not go on to the entry. -/
def Fields.EndsGroup : Fields → Prop
  | .last => True
  | .entry g _ _ => ¬ (g.type &&& 16 ≠ 0 ∧ g.oneofFirst = false)

/-- The entries of a message do not belong to a group in front of them. -/
theorem Message.fields_endsGroup (abi : Abi) : (m : Message) → (cur : Nat) →
    (m.fields abi cur).EndsGroup
  | .nil, _ => trivial
  | .field rule type _, cur => fun h => h.1 (fieldEntry_oneof_bit rule type cur)
  | .oneof .nil next, _ => next.fields_endsGroup abi _
  | .oneof (.cons _ _ _) _, _ => fun h => nomatch h.2
  | .emptyOneof next, _ => next.fields_endsGroup abi _

/-- The check at the first alternative of a oneof finds its tags. -/
theorem InnerFields.whichTagValidity (abi : Abi) (which data : Nat) {rest : Fields}
    (hrest : rest.EndsGroup) (tag : UInt8) : (inner : InnerFields) → inner.tags ≠ [] →
    (first : Bool) →
      (checkOneofWhichTagValidity (inner.fields abi which data first rest) tag = true ↔
        tag ∈ inner.tags)
  | .nil, h, _ => absurd rfl h
  | .cons t type .nil, _, first => by
    rw [InnerFields.fields, InnerFields.fields, checkOneofWhichTagValidity.eq_def,
      InnerFields.tags, InnerFields.tags, List.mem_singleton]
    dsimp only
    by_cases ht : (innerEntry abi t type which data first).oneofTag = tag
    · rw [if_pos ht]
      exact ⟨fun _ => ht.symm, fun _ => rfl⟩
    · rw [if_neg ht]
      refine ⟨fun h => ?_, fun h => absurd h.symm ht⟩
      cases rest with
      | last => cases h
      | entry g ptr next =>
        dsimp only at h
        rw [if_neg hrest] at h
        cases h
  | .cons t type (.cons t' type' next), _, first => by
    have ih := InnerFields.whichTagValidity abi which data hrest tag (.cons t' type' next)
      (by simp [InnerFields.tags]) false
    have hmate : (innerEntry abi t' type' which data false).type &&& 16 ≠ 0 ∧
        (innerEntry abi t' type' which data false).oneofFirst = false :=
      ⟨innerEntry_oneof_bit t' type' which data false, rfl⟩
    rw [InnerFields.fields] at ih
    rw [InnerFields.fields, InnerFields.fields, checkOneofWhichTagValidity]
    rw [if_pos hmate, InnerFields.tags, List.mem_cons]
    by_cases ht : (innerEntry abi t type which data first).oneofTag = tag
    · rw [if_pos ht]
      exact ⟨fun _ => Or.inl ht.symm, fun _ => rfl⟩
    · rw [if_neg ht, ih]
      exact ⟨Or.inr, fun h => h.resolve_left fun heq => ht heq.symm⟩

end OpenBadge.Tinybuf
