import OpenBadge.Tinybuf.MaxLen

/-!
# Full structures

A structure without oneof groups in which every entry is present can be encoded, and its
encoding is as long as `tb_get_max_encoded_len` says.
-/

namespace OpenBadge.Tinybuf

open OpenBadge.Lib

/-- The has-flags are set and the arrays are full. -/
def Fields.Full (host : TbEndian) (m : Memory) : Fields → Nat → Prop
  | .last, _ => True
  | .entry f ptr next, base =>
    f.fieldType ≠ some .oneof ∧ f.present host m base = f.room ∧
      (f.dataKind = some .message →
        ∀ k < f.room, ptr.Full host m (f.dataPtr base + k * f.dataSize)) ∧
      next.Full host m base

/-- The number of entries is the same in all structures, also in the messages inside. -/
def Fields.Rigid : Fields → Prop
  | .last => True
  | .entry f ptr next =>
    (f.fieldType = some .required ∨ f.fieldType = some .fixedRepeated) ∧
      (f.dataKind = some .message → ptr.Rigid) ∧ next.Rigid

instance Fields.Rigid.decidable : ∀ fields, Decidable (Fields.Rigid fields)
  | .last => isTrue trivial
  | .entry f ptr next =>
    have := Fields.Rigid.decidable ptr
    have := Fields.Rigid.decidable next
    inferInstanceAs (Decidable ((f.fieldType = some .required ∨
      f.fieldType = some .fixedRepeated) ∧ (f.dataKind = some .message → ptr.Rigid) ∧ next.Rigid))

section Host

variable {host : TbEndian} {m : Memory}

theorem Fields.Rigid.full (fields : Fields) :
    fields.Rigid → ∀ base, fields.Full host m base := by
  induction fields with
  | last => exact fun _ _ => trivial
  | entry f ptr next ihp ihn =>
    rintro ⟨hft, hptr, hnext⟩ base
    refine ⟨?_, ?_, fun hm k _ => ihp (hptr hm) _, ihn hnext base⟩
    · rcases hft with h | h <;> rw [h] <;> decide
    · rcases hft with h | h <;> simp only [TbField.present, TbField.room, h]

/-- A required entry in front, a number or a rigid message. -/
theorem Fields.Full.required {f : TbField} {ptr next : Fields} {base : Nat}
    (hft : f.fieldType = some .required) (hptr : ptr.Rigid) (h : next.Full host m base) :
    (Fields.entry f ptr next).Full host m base := by
  refine ⟨?_, ?_, fun _ k _ => hptr.full _ _, h⟩
  · rw [hft]
    decide
  · simp only [TbField.present, TbField.room, hft]

theorem Fields.Full.valid (fields : Fields) :
    ∀ {base : Nat}, fields.Full host m base → fields.Valid host m base := by
  induction fields with
  | last => exact fun _ => trivial
  | entry f ptr next ihp ihn =>
    rintro base ⟨ho, hpresent, hptr, hnext⟩
    refine ⟨⟨fun hft => ?_, fun hof => absurd hof ho⟩, fun hm k hk => ?_, ihn hnext⟩
    · simp only [TbField.present, TbField.room, hft] at hpresent
      exact Nat.le_of_eq hpresent
    · rw [hpresent] at hk
      exact ihp (hptr hm k hk)

theorem Fields.Full.encoding_length (out : TbEndian) (fields : Fields) :
    ∀ {base : Nat}, fields.Full host m base →
      (fields.encoding host m out base).length = fields.estimate := by
  induction fields with
  | last => exact fun _ => by rw [Fields.encoding, Fields.estimate, List.length_nil]
  | entry f ptr next ihp ihn =>
    rintro base ⟨ho, hpresent, hptr, hnext⟩
    rw [Fields.encoding, List.length_append, List.length_append, head_length, hpresent,
      ihn hnext, estimate_of_ne_oneof ho]
    congr 2
    refine length_flatMap_range fun k hk => ?_
    rw [entryEstimate]
    by_cases hm : f.dataKind = some .message
    · rw [if_pos hm, if_pos hm]
      exact ihp (hptr hm k hk)
    · rw [if_neg hm, if_neg hm, convertEndianness_length, slice_length]

/-- A full structure is encoded into every buffer that has room for the greatest length, and
takes all of it. -/
theorem tbEncode_full {fields : Fields} {size : Nat} (hwf : WellFormed fields size)
    (he : fields.Emitted) (out : TbEndian) {base : Nat} (h : fields.Full host m base)
    (buffer : Buffer) (hfit : tbGetMaxEncodedLen fields ≤ buffer.size) :
    ∃ o, tbEncode host out m fields base (tbOstreamFromBuffer buffer.bytes buffer.size) =
      (.ok (), o) ∧ o.bytesWritten = tbGetMaxEncodedLen fields := by
  have hlen := tbGetMaxEncodedLen_eq hwf he
  rw [← Fields.Full.encoding_length out fields h] at hlen
  rw [hlen] at hfit ⊢
  exact (tbEncode_into hwf.describes out (Fields.Full.valid fields h) buffer).1 hfit

end Host

end OpenBadge.Tinybuf
