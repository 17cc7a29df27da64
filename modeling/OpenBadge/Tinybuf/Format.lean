import OpenBadge.Tinybuf.Codec

/-!
# The wire format of a message description

A field on the wire is a head (the has-flag, the count or the which-tag) and the
entries that are present. This module states what a well-formed description is,
when the values of a structure can be encoded, their encoding, and when two
structures hold the same values in every field that is present.
-/

namespace OpenBadge.Tinybuf

open OpenBadge.Lib

/-- Whether the entry belongs to the group that an entry in front of it opened. -/
def TbField.continuesOneof (f : TbField) : Bool :=
  f.fieldType = some .oneof && !f.oneofFirst

/-- The number of entries that the structure has room for. -/
def TbField.room (f : TbField) : Nat :=
  match f.fieldType with
  | some .repeated | some .fixedRepeated => f.arraySize
  | _ => 1

/-- Offset of the has-flag, count or which-tag in the structure. -/
def TbField.sizeStart (f : TbField) : Nat := ((f.dataOffset : Int) + f.sizeOffset).toNat

/-- Whether the field has a has-flag, a count or a which-tag. -/
def TbField.hasSize (f : TbField) : Bool :=
  match f.fieldType with
  | some .optional | some .repeated | some .oneof => true
  | _ => false

/-- Two ranges of a structure do not overlap. -/
def Apart (a n b k : Nat) : Prop := a + n ≤ b ∨ b + k ≤ a

instance (a n b k : Nat) : Decidable (Apart a n b k) := inferInstanceAs (Decidable (_ ∨ _))

/-- What the generator emits for one member of a structure of `size` bytes. -/
structure TbField.WellFormed (f : TbField) (size : Nat) : Prop where
  fieldType_isSome : f.fieldType.isSome
  dataKind_isSome : f.dataKind.isSome
  oneof_bit : f.type &&& 16 ≠ 0 ↔ f.fieldType = some .oneof
  data_fits : f.dataOffset + f.room * f.dataSize ≤ size
  number_size : f.dataKind = some .number → f.dataSize ∈ [1, 2, 4, 8]
  size_fits : f.hasSize → 0 ≤ (f.dataOffset : Int) + f.sizeOffset ∧ f.sizeStart + f.sizeSize ≤ size
  flag_size : f.fieldType = some .optional ∨ f.fieldType = some .oneof → f.sizeSize = 1
  count_size : f.fieldType = some .repeated → f.sizeSize ∈ [1, 2, 4]
  size_apart : f.hasSize → Apart f.sizeStart f.sizeSize f.dataOffset (f.room * f.dataSize)

/-- Two members of a structure that are not alternatives of one oneof group. -/
structure Separate (f g : TbField) : Prop where
  data_data : Apart f.dataOffset (f.room * f.dataSize) g.dataOffset (g.room * g.dataSize)
  data_size : g.hasSize → Apart f.dataOffset (f.room * f.dataSize) g.sizeStart g.sizeSize
  size_data : f.hasSize → Apart f.sizeStart f.sizeSize g.dataOffset (g.room * g.dataSize)
  size_size : f.hasSize → g.hasSize → Apart f.sizeStart f.sizeSize g.sizeStart g.sizeSize

/-- Two alternatives of one oneof group: they share the which-tag and the union. -/
structure Alternatives (f g : TbField) : Prop where
  same_which : f.sizeStart = g.sizeStart
  tag_ne : f.oneofTag ≠ g.oneofTag

/-- How the entries behind `f` lie to it; `group` tells whether `f`'s oneof group
has reached this entry. -/
def Follows (f : TbField) : Bool → Fields → Prop
  | _, .last => True
  | group, .entry g _ next =>
    if group && g.continuesOneof then Alternatives f g ∧ Follows f true next
    else Separate f g ∧ Follows f false next

/-- The entry at the head of the array continues a oneof group. -/
def Fields.continuesOneof : Fields → Bool
  | .last => false
  | .entry f _ _ => f.continuesOneof

def Fields.length : Fields → Nat
  | .last => 0
  | .entry _ _ next => next.length + 1

/-- The entries of an array describe a structure of `size` bytes. -/
def Fields.Describes : Fields → Nat → Prop
  | .last, _ => True
  | .entry f ptr next, size =>
    f.WellFormed size ∧
    (f.dataKind = some .message →
      ptr.Describes f.dataSize ∧ ptr.continuesOneof = false ∧ ptr.length ≤ 255) ∧
    Follows f (f.fieldType = some .oneof) next ∧
    (next.continuesOneof → f.fieldType = some .oneof) ∧
    next.Describes size

/-- A message description as the generator emits it. -/
structure WellFormed (fields : Fields) (size : Nat) : Prop where
  describes : fields.Describes size
  opens : fields.continuesOneof = false
  length_le : fields.length ≤ 255
  size_lt : size < 2 ^ 32

instance (f : TbField) (size : Nat) : Decidable (f.WellFormed size) :=
  decidable_of_iff
    (f.fieldType.isSome ∧ f.dataKind.isSome ∧ (f.type &&& 16 ≠ 0 ↔ f.fieldType = some .oneof) ∧
      f.dataOffset + f.room * f.dataSize ≤ size ∧
      (f.dataKind = some .number → f.dataSize ∈ [1, 2, 4, 8]) ∧
      (f.hasSize → 0 ≤ (f.dataOffset : Int) + f.sizeOffset ∧
        f.sizeStart + f.sizeSize ≤ size) ∧
      (f.fieldType = some .optional ∨ f.fieldType = some .oneof → f.sizeSize = 1) ∧
      (f.fieldType = some .repeated → f.sizeSize ∈ [1, 2, 4]) ∧
      (f.hasSize → Apart f.sizeStart f.sizeSize f.dataOffset (f.room * f.dataSize)))
    ⟨fun ⟨h1, h2, h3, h4, h5, h6, h7, h8, h9⟩ => ⟨h1, h2, h3, h4, h5, h6, h7, h8, h9⟩,
      fun ⟨h1, h2, h3, h4, h5, h6, h7, h8, h9⟩ => ⟨h1, h2, h3, h4, h5, h6, h7, h8, h9⟩⟩

instance (f g : TbField) : Decidable (Separate f g) :=
  decidable_of_iff
    (Apart f.dataOffset (f.room * f.dataSize) g.dataOffset (g.room * g.dataSize) ∧
      (g.hasSize → Apart f.dataOffset (f.room * f.dataSize) g.sizeStart g.sizeSize) ∧
      (f.hasSize → Apart f.sizeStart f.sizeSize g.dataOffset (g.room * g.dataSize)) ∧
      (f.hasSize → g.hasSize → Apart f.sizeStart f.sizeSize g.sizeStart g.sizeSize))
    ⟨fun ⟨h1, h2, h3, h4⟩ => ⟨h1, h2, h3, h4⟩, fun ⟨h1, h2, h3, h4⟩ => ⟨h1, h2, h3, h4⟩⟩

instance (f g : TbField) : Decidable (Alternatives f g) :=
  decidable_of_iff (f.sizeStart = g.sizeStart ∧ f.oneofTag ≠ g.oneofTag)
    ⟨fun ⟨h1, h2⟩ => ⟨h1, h2⟩, fun ⟨h1, h2⟩ => ⟨h1, h2⟩⟩

instance Follows.decidable (f : TbField) : ∀ group fields, Decidable (Follows f group fields)
  | _, .last => isTrue trivial
  | group, .entry g _ next =>
    have := Follows.decidable f true next
    have := Follows.decidable f false next
    inferInstanceAs (Decidable (if group && g.continuesOneof then
      Alternatives f g ∧ Follows f true next else Separate f g ∧ Follows f false next))

instance Fields.Describes.decidable : ∀ fields size, Decidable (Fields.Describes fields size)
  | .last, _ => isTrue trivial
  | .entry f ptr next, size =>
    have := Fields.Describes.decidable ptr f.dataSize
    have := Fields.Describes.decidable next size
    inferInstanceAs (Decidable (f.WellFormed size ∧
      (f.dataKind = some .message →
        ptr.Describes f.dataSize ∧ ptr.continuesOneof = false ∧ ptr.length ≤ 255) ∧
      Follows f (f.fieldType = some .oneof) next ∧
      (next.continuesOneof → f.fieldType = some .oneof) ∧ next.Describes size))

section Host

variable (host : TbEndian) (m : Memory)

/-- The has-flag, count or which-tag in memory. -/
def TbField.sizeValue (f : TbField) (base : Nat) : Nat :=
  readNumber host m (f.sizePtr base) f.sizeSize

/-- The number of entries of the field that are present. -/
def TbField.present (f : TbField) (base : Nat) : Nat :=
  match f.fieldType with
  | none => 0
  | some .required => 1
  | some .optional => if f.sizeValue host m base ≠ 0 then 1 else 0
  | some .repeated => f.sizeValue host m base
  | some .fixedRepeated => f.arraySize
  | some .oneof => if f.sizeValue host m base = f.oneofTag.toNat then 1 else 0

/-- Whether the field's flag, count or tag goes over the wire. -/
def TbField.sendsSize (f : TbField) : Bool := f.hasSize && !f.continuesOneof

/-- The bytes in front of the field's entries. -/
def TbField.head (out : TbEndian) (f : TbField) (base : Nat) : List UInt8 :=
  if f.sendsSize then
    convertEndianness host (slice m (f.sizePtr base) f.sizeSize) out
  else []

/-- Counts stay within the array and which-tags name an alternative. -/
def TbField.Valid (f : TbField) (tagValid : UInt8 → Bool) (base : Nat) : Prop :=
  (f.fieldType = some .repeated → f.sizeValue host m base ≤ f.arraySize) ∧
  (f.fieldType = some .oneof → f.oneofFirst = true → tagValid (m (f.sizePtr base)))

def Fields.Valid : Fields → Nat → Prop
  | .last, _ => True
  | .entry f ptr next, base =>
    f.Valid host m (checkOneofWhichTagValidity (.entry f ptr next)) base ∧
    (f.dataKind = some .message → ∀ k < f.present host m base,
      ptr.Valid (f.dataPtr base + k * f.dataSize)) ∧
    next.Valid base

instance (f : TbField) (tagValid : UInt8 → Bool) (base : Nat) :
    Decidable (f.Valid host m tagValid base) := inferInstanceAs (Decidable (_ ∧ _))

instance Fields.Valid.decidable : ∀ fields base, Decidable (Fields.Valid host m fields base)
  | .last, _ => isTrue trivial
  | .entry f ptr next, base =>
    have := fun k => Fields.Valid.decidable ptr (f.dataPtr base + k * f.dataSize)
    have := Fields.Valid.decidable next base
    inferInstanceAs (Decidable (
      f.Valid host m (checkOneofWhichTagValidity (.entry f ptr next)) base ∧
      (f.dataKind = some .message → ∀ k < f.present host m base,
        ptr.Valid host m (f.dataPtr base + k * f.dataSize)) ∧
      next.Valid host m base))

/-- The encoding of the structure at `base`. -/
def Fields.encoding (out : TbEndian) : Fields → Nat → List UInt8
  | .last, _ => []
  | .entry f ptr next, base =>
    f.head host m out base ++
    (List.range (f.present host m base)).flatMap (fun k =>
      if f.dataKind = some .message then ptr.encoding out (f.dataPtr base + k * f.dataSize)
      else convertEndianness host (slice m (f.dataPtr base + k * f.dataSize) f.dataSize) out) ++
    next.encoding out base

end Host

/-- The structures at `b` in `m` and at `b'` in `m'`, on hosts of the given
endiannesses, have the same flags, counts and which-tags and the same numbers in
every entry that is present. -/
def Fields.Same (host host' : TbEndian) (m m' : Memory) : Fields → Nat → Nat → Prop
  | .last, _, _ => True
  | .entry f ptr next, b, b' =>
    (f.hasSize → f.sizeValue host m b = f.sizeValue host' m' b') ∧
    (∀ k < f.present host m b,
      if f.dataKind = some .message then
        ptr.Same host host' m m' (f.dataPtr b + k * f.dataSize) (f.dataPtr b' + k * f.dataSize)
      else readNumber host m (f.dataPtr b + k * f.dataSize) f.dataSize =
        readNumber host' m' (f.dataPtr b' + k * f.dataSize) f.dataSize) ∧
    next.Same host host' m m' b b'

/-- The addresses the decoder may write: flags, counts and tags, and entries
below the number the structure has room for. -/
def Fields.Within : Fields → Nat → Nat → Prop
  | .last, _, _ => False
  | .entry f ptr next, base, a =>
    (f.hasSize ∧ f.sizePtr base ≤ a ∧ a < f.sizePtr base + f.sizeSize) ∨
    (∃ k < f.room,
      if f.dataKind = some .message then ptr.Within (f.dataPtr base + k * f.dataSize) a
      else f.dataPtr base + k * f.dataSize ≤ a ∧
        a < f.dataPtr base + k * f.dataSize + f.dataSize) ∨
    next.Within base a

/-! ## Endianness -/

section Endianness

variable (h h' e : TbEndian)

@[simp] theorem convertEndianness_length (d : List UInt8) :
    (convertEndianness h d e).length = d.length := by
  unfold convertEndianness
  split <;> simp

@[simp] theorem convertEndianness_twice (d : List UInt8) :
    convertEndianness h (convertEndianness h d e) e = d := by
  unfold convertEndianness
  split <;> simp

@[simp] theorem convertEndianness_singleton (b : UInt8) : convertEndianness h [b] e = [b] := by
  unfold convertEndianness
  split <;> simp

theorem convertEndianness_big {d d' : List UInt8}
    (heq : convertEndianness h d e = convertEndianness h' d' e) (e' : TbEndian) :
    convertEndianness h d e' = convertEndianness h' d' e' := by
  cases h <;> cases h' <;> cases e <;> cases e' <;>
    simp_all [convertEndianness, List.reverse_eq_iff]

theorem countOf_foldl_inj : ∀ (d d' : List UInt8) (n n' : Nat), d.length = d'.length →
    d.foldl (fun n b => n * 256 + b.toNat) n = d'.foldl (fun n b => n * 256 + b.toNat) n' →
    n = n' ∧ d = d'
  | [], [], _, _, _, heq => ⟨heq, rfl⟩
  | b :: d, b' :: d', n, n', hlen, heq => by
    obtain ⟨hn, hd⟩ := countOf_foldl_inj d d' _ _ (by simpa using hlen) heq
    dsimp only at hn
    have hb := b.toNat_lt
    have hb' := b'.toNat_lt
    have hbb : b.toNat = b'.toNat := by omega
    exact ⟨by omega, by rw [UInt8.toNat_inj.mp hbb, hd]⟩

theorem countOf_inj {d d' : List UInt8} (hlen : d.length = d'.length)
    (heq : countOf d = countOf d') : d = d' := (countOf_foldl_inj d d' 0 0 hlen heq).2

/-- Equal numbers are the numbers with equal bytes on the wire. -/
theorem readNumber_eq_iff {m m' : Memory} {a a' n : Nat} :
    readNumber h m a n = readNumber h' m' a' n ↔
      convertEndianness h (slice m a n) e = convertEndianness h' (slice m' a' n) e := by
  constructor
  · intro heq
    exact convertEndianness_big h h' .bigEndian (countOf_inj (by simp) heq) e
  · intro heq
    unfold readNumber
    rw [convertEndianness_big h h' e heq]

theorem readNumber_congr {m m' : Memory} {a n : Nat}
    (heq : ∀ x, a ≤ x → x < a + n → m x = m' x) : readNumber h m a n = readNumber h m' a n := by
  unfold readNumber
  rw [slice_congr heq]

@[simp] theorem readNumber_one (m : Memory) (a : Nat) : readNumber h m a 1 = (m a).toNat := by
  simp [readNumber, slice, countOf]

end Endianness

/-! ## Fields -/

theorem TbField.WellFormed.sizePtr_eq {f : TbField} {size : Nat} (hf : f.WellFormed size)
    (hs : f.hasSize) (base : Nat) : f.sizePtr base = base + f.sizeStart := by
  have h := (hf.size_fits hs).1
  unfold TbField.sizePtr TbField.dataPtr TbField.sizeStart
  omega

section Field

variable {host host' : TbEndian} {m m' : Memory} {f : TbField} {size b b' : Nat}

theorem hasSize_of_oneof (h : f.fieldType = some .oneof) : f.hasSize := by
  simp [TbField.hasSize, h]

theorem hasSize_of_sendsSize (h : f.sendsSize) : f.hasSize := by
  unfold TbField.sendsSize at h
  simp only [Bool.and_eq_true] at h
  exact h.1

theorem oneof_of_continuesOneof (h : f.continuesOneof) :
    f.fieldType = some .oneof ∧ f.oneofFirst = false := by
  simpa [TbField.continuesOneof] using h

theorem sendsSize_of_not_continues (hs : f.hasSize) (h : ¬ f.continuesOneof) : f.sendsSize := by
  simp [TbField.sendsSize, hs, h]

theorem TbField.WellFormed.sizeSize_lt (hf : f.WellFormed size) (hs : f.sendsSize) :
    f.sizeSize < 2 ^ 31 := by
  have h := hasSize_of_sendsSize hs
  unfold TbField.hasSize at h
  cases hft : f.fieldType with
  | none => simp [hft] at h
  | some r =>
    cases r with
    | required => simp [hft] at h
    | fixedRepeated => simp [hft] at h
    | optional => rw [hf.flag_size (.inl hft)]; decide
    | oneof => rw [hf.flag_size (.inr hft)]; decide
    | repeated =>
      have hc := hf.count_size hft
      simp only [List.mem_cons, List.not_mem_nil, or_false] at hc
      omega

theorem TbField.WellFormed.sizeValue_oneof (hf : f.WellFormed size)
    (h : f.fieldType = some .oneof) : f.sizeValue host m b = (m (f.sizePtr b)).toNat := by
  unfold TbField.sizeValue
  rw [hf.flag_size (.inr h), readNumber_one]

/-- The number of entries present is a function of the flag, count or tag. -/
theorem present_congr (h : f.hasSize → f.sizeValue host m b = f.sizeValue host' m' b') :
    f.present host m b = f.present host' m' b' := by
  unfold TbField.present
  unfold TbField.hasSize at h
  cases hft : f.fieldType with
  | none => rfl
  | some r =>
    rw [hft] at h
    cases r with
    | required => rfl
    | fixedRepeated => rfl
    | optional => simp only [h rfl]
    | repeated => exact h rfl
    | oneof => simp only [h rfl]

theorem number_of_not_message (hf : f.WellFormed size) (hm : ¬ f.dataKind = some .message) :
    f.dataKind = some .number := by
  have h := hf.dataKind_isSome
  cases hk : f.dataKind with
  | none => simp [hk] at h
  | some kind =>
    cases kind with
    | number => rfl
    | message => exact absurd hk hm

theorem present_pos_iff (ho : f.fieldType = some .oneof) :
    0 < f.present host m b ↔ f.sizeValue host m b = f.oneofTag.toNat := by
  simp only [TbField.present, ho]
  split <;> simp [*]

theorem TbField.Valid.congr {tagValid : UInt8 → Bool} (hf : f.WellFormed size)
    (h : f.hasSize → f.sizeValue host m b = f.sizeValue host' m' b')
    (hv : f.Valid host m tagValid b) : f.Valid host' m' tagValid b' := by
  refine ⟨fun hr => ?_, fun ho hfirst => ?_⟩
  · rw [← h (by simp [TbField.hasSize, hr])]
    exact hv.1 hr
  · have heq := h (hasSize_of_oneof ho)
    rw [hf.sizeValue_oneof ho, hf.sizeValue_oneof ho] at heq
    rw [← UInt8.toNat_inj.mp heq]
    exact hv.2 ho hfirst

/-- A valid structure never holds more entries than it has room for. -/
theorem TbField.Valid.present_le {tagValid : UInt8 → Bool} (hv : f.Valid host m tagValid b) :
    f.present host m b ≤ f.room := by
  unfold TbField.present TbField.room
  cases hft : f.fieldType with
  | none => exact Nat.zero_le _
  | some r =>
    cases r with
    | required => exact Nat.le_refl _
    | fixedRepeated => exact Nat.le_refl _
    | optional => dsimp only; split <;> decide
    | repeated => exact hv.1 hft
    | oneof => dsimp only; split <;> decide

theorem sizeValue_congr (h : ∀ x, f.sizePtr b ≤ x → x < f.sizePtr b + f.sizeSize → m x = m' x) :
    f.sizeValue host m b = f.sizeValue host m' b := readNumber_congr host h

theorem head_eq_iff (e : TbEndian) (hs : f.sendsSize) :
    f.head host m e b = f.head host' m' e b' ↔
      f.sizeValue host m b = f.sizeValue host' m' b' := by
  unfold TbField.head TbField.sizeValue
  rw [if_pos hs, if_pos hs, readNumber_eq_iff host host' e]

theorem head_congr (e : TbEndian)
    (h : f.hasSize → f.sizeValue host m b = f.sizeValue host' m' b') :
    f.head host m e b = f.head host' m' e b' := by
  by_cases hs : f.sendsSize
  · exact (head_eq_iff e hs).mpr (h (hasSize_of_sendsSize hs))
  · unfold TbField.head
    rw [if_neg hs, if_neg hs]

theorem head_length (e : TbEndian) :
    (f.head host m e b).length = if f.sendsSize then f.sizeSize else 0 := by
  unfold TbField.head
  split <;> simp

end Field

theorem flatMap_range_congr {f g : Nat → List UInt8} {n : Nat} (h : ∀ k < n, f k = g k) :
    (List.range n).flatMap f = (List.range n).flatMap g := by
  induction n with
  | zero => rfl
  | succ n ih =>
    rw [List.range_succ, List.flatMap_append, List.flatMap_append,
      ih fun k hk => h k (Nat.lt_succ_of_lt hk)]
    simp [h n (Nat.lt_succ_self n)]

/-! ## The encoding is determined by the values, and determines them -/

/-- Structures with the same values have the same encoding, whatever the hosts'
endiannesses. -/
theorem Fields.encoding_eq_of_same {host host' : TbEndian} {m m' : Memory} (out : TbEndian)
    (fields : Fields) : ∀ {b b' : Nat}, fields.Same host host' m m' b b' →
      fields.encoding host m out b = fields.encoding host' m' out b' := by
  induction fields with
  | last => intros; rfl
  | entry f ptr next ihp ihn =>
    rintro b b' ⟨hsize, hentries, hnext⟩
    have hp := present_congr (f := f) hsize
    unfold Fields.encoding
    rw [head_congr out hsize, ihn hnext, hp]
    congr 2
    rw [hp] at hentries
    apply flatMap_range_congr
    intro k hk
    have h := hentries k hk
    by_cases hm : f.dataKind = some .message
    · rw [if_pos hm] at h
      rw [if_pos hm, if_pos hm]
      exact ihp h
    · rw [if_neg hm] at h
      rw [if_neg hm, if_neg hm]
      exact (readNumber_eq_iff host host' out).mp h

theorem Fields.Valid.of_same {host host' : TbEndian} {m m' : Memory} (fields : Fields) :
    ∀ {b b' size : Nat}, fields.Describes size → fields.Same host host' m m' b b' →
      fields.Valid host m b → fields.Valid host' m' b' := by
  induction fields with
  | last => intros; trivial
  | entry f ptr next ihp ihn =>
    rintro b b' size ⟨hf, hptr, -, -, hdn⟩ ⟨hsize, hentries, hnext⟩ ⟨hvf, hvp, hvn⟩
    refine ⟨hvf.congr hf hsize, fun hm k hk => ?_, ihn hdn hnext hvn⟩
    rw [← present_congr hsize] at hk
    have h := hentries k hk
    rw [if_pos hm] at h
    exact ihp (hptr hm).1 h (hvp hm k hk)

/-- The which-tag that an array starting inside a oneof group refers to. -/
def Fields.WhichAgrees (host host' : TbEndian) (m m' : Memory) : Fields → Nat → Nat → Prop
  | .last, _, _ => True
  | .entry f _ _, b, b' => f.continuesOneof → f.sizeValue host m b = f.sizeValue host' m' b'

theorem alternatives_of_follows {f g : TbField} {ptr next : Fields}
    (h : Follows f (f.fieldType = some .oneof) (.entry g ptr next)) (hg : g.continuesOneof)
    (ho : f.fieldType = some .oneof) : Alternatives f g := by
  unfold Follows at h
  rw [if_pos (by simp [ho, hg])] at h
  exact h.1

theorem Alternatives.sizePtr_eq {f g : TbField} {size : Nat} (h : Alternatives f g)
    (hf : f.WellFormed size) (hg : g.WellFormed size) (hof : f.fieldType = some .oneof)
    (hog : g.fieldType = some .oneof) (b : Nat) : g.sizePtr b = f.sizePtr b := by
  rw [hf.sizePtr_eq (hasSize_of_oneof hof), hg.sizePtr_eq (hasSize_of_oneof hog), h.same_which]

/-- The alternatives of a group read one which-tag. -/
theorem Alternatives.sizeValue_eq {f g : TbField} {size : Nat} (h : Alternatives f g)
    (hf : f.WellFormed size) (hg : g.WellFormed size) (hof : f.fieldType = some .oneof)
    (hog : g.fieldType = some .oneof) {host : TbEndian} {m : Memory} (b : Nat) :
    g.sizeValue host m b = f.sizeValue host m b := by
  rw [hf.sizeValue_oneof hof, hg.sizeValue_oneof hog, h.sizePtr_eq hf hg hof hog]

theorem whichAgrees_of_opens {host host' : TbEndian} {m m' : Memory} {fields : Fields}
    {b b' : Nat} (h : fields.continuesOneof = false) :
    fields.WhichAgrees host host' m m' b b' := by
  cases fields with
  | last => trivial
  | entry f ptr next =>
    intro hc
    change f.continuesOneof = false at h
    rw [h] at hc
    cases hc

/-- Agreement on the which-tag passes from an entry to the array behind it. -/
theorem whichAgrees_next {host host' : TbEndian} {m m' : Memory} {f : TbField}
    {ptr next : Fields} {size b b' : Nat} (hd : (Fields.entry f ptr next).Describes size)
    (hsize : f.hasSize → f.sizeValue host m b = f.sizeValue host' m' b') :
    next.WhichAgrees host host' m m' b b' := by
  obtain ⟨hf, -, hfollows, hgroup, hdn⟩ := hd
  cases next with
  | last => trivial
  | entry g ptr' next' =>
    intro hg
    have ho := hgroup hg
    have halt := alternatives_of_follows hfollows hg ho
    have hog := (oneof_of_continuesOneof hg).1
    rw [halt.sizeValue_eq hf hdn.1 ho hog, halt.sizeValue_eq hf hdn.1 ho hog]
    exact hsize (hasSize_of_oneof ho)

theorem flatMap_range_inj {f g : Nat → List UInt8} {P : Nat → Prop} :
    ∀ {n : Nat} {r r' : List UInt8},
      (∀ k < n, ∀ r r', f k ++ r = g k ++ r' → P k ∧ r = r') →
      (List.range n).flatMap f ++ r = (List.range n).flatMap g ++ r' →
      (∀ k < n, P k) ∧ r = r'
  | 0, _, _, _, heq => ⟨fun _ hk => absurd hk (Nat.not_lt_zero _), heq⟩
  | n + 1, r, r', h, heq => by
    rw [List.range_succ] at heq
    simp only [List.flatMap_append, List.flatMap_singleton, List.append_assoc] at heq
    obtain ⟨hfirst, hrest⟩ :=
      flatMap_range_inj (fun k hk => h k (Nat.lt_succ_of_lt hk)) heq
    obtain ⟨hlast, hr⟩ := h n (Nat.lt_succ_self n) _ _ hrest
    refine ⟨fun k hk => ?_, hr⟩
    rcases Nat.lt_succ_iff_lt_or_eq.mp hk with hk | rfl
    · exact hfirst k hk
    · exact hlast

/-- The head of a field determines its flag, count or tag. -/
theorem sizeValue_of_head {host host' : TbEndian} {m m' : Memory} {out : TbEndian} {f : TbField}
    {b b' : Nat} {r r' : List UInt8}
    (hwhich : f.continuesOneof → f.sizeValue host m b = f.sizeValue host' m' b')
    (heq : f.head host m out b ++ r = f.head host' m' out b' ++ r') :
    (f.hasSize → f.sizeValue host m b = f.sizeValue host' m' b') ∧ r = r' := by
  obtain ⟨hhead, hr⟩ := List.append_inj heq (by rw [head_length, head_length])
  refine ⟨fun hs => ?_, hr⟩
  by_cases hc : f.continuesOneof
  · exact hwhich hc
  · exact (head_eq_iff out (sendsSize_of_not_continues hs hc)).mp hhead

/-- No encoding is a proper prefix of another one, and structures with the same
encoding have the same values. -/
theorem Fields.same_of_encoding_eq {host host' : TbEndian} {m m' : Memory} {out : TbEndian}
    (fields : Fields) : ∀ {size b b' : Nat} {r r' : List UInt8}, fields.Describes size →
      fields.WhichAgrees host host' m m' b b' →
      fields.encoding host m out b ++ r = fields.encoding host' m' out b' ++ r' →
      fields.Same host host' m m' b b' ∧ r = r' := by
  induction fields with
  | last => exact fun _ _ heq => ⟨trivial, heq⟩
  | entry f ptr next ihp ihn =>
    intro size b b' r r' hd hwhich heq
    unfold Fields.encoding at heq
    simp only [List.append_assoc] at heq
    obtain ⟨hsize, hrest⟩ := sizeValue_of_head hwhich heq
    rw [← present_congr (f := f) hsize] at hrest
    have hone : ∀ k < f.present host m b, ∀ r r',
        (if f.dataKind = some .message then
            ptr.encoding host m out (f.dataPtr b + k * f.dataSize)
          else convertEndianness host (slice m (f.dataPtr b + k * f.dataSize) f.dataSize) out) ++ r =
        (if f.dataKind = some .message then
            ptr.encoding host' m' out (f.dataPtr b' + k * f.dataSize)
          else convertEndianness host' (slice m' (f.dataPtr b' + k * f.dataSize) f.dataSize) out) ++
            r' →
        (if f.dataKind = some .message then
            ptr.Same host host' m m' (f.dataPtr b + k * f.dataSize) (f.dataPtr b' + k * f.dataSize)
          else readNumber host m (f.dataPtr b + k * f.dataSize) f.dataSize =
            readNumber host' m' (f.dataPtr b' + k * f.dataSize) f.dataSize) ∧ r = r' := by
      intro k _ r r' heq
      by_cases hm : f.dataKind = some .message
      · obtain ⟨hdp, hopen, -⟩ := hd.2.1 hm
        rw [if_pos hm, if_pos hm] at heq
        rw [if_pos hm]
        exact ihp hdp (whichAgrees_of_opens hopen) heq
      · rw [if_neg hm, if_neg hm] at heq
        rw [if_neg hm]
        obtain ⟨h, hr⟩ := List.append_inj heq (by simp)
        exact ⟨(readNumber_eq_iff host host' out).mpr h, hr⟩
    obtain ⟨hentries, hnext⟩ := flatMap_range_inj hone hrest
    obtain ⟨hsame, hr⟩ := ihn hd.2.2.2.2 (whichAgrees_next hd hsize) hnext
    exact ⟨⟨hsize, hentries, hsame⟩, hr⟩

end OpenBadge.Tinybuf
