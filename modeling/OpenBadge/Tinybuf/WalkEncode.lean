import OpenBadge.Tinybuf.Encode
import OpenBadge.Tinybuf.Members

/-!
# What `tb_encode` writes with a generated table

The structure that holds a value with no list longer than declared, and no message of more
than 255 entries, is written in the wire format of the value.
-/

namespace OpenBadge.Tinybuf

open OpenBadge.Lib

variable {abi : Abi} {host e : TbEndian} {m : Memory}

/-! ## The walk -/

/-- What `tb_encode` does with the element at `a`. -/
def SchemaType.encodeAt (abi : Abi) (host out : TbEndian) (src : Memory) :
    SchemaType → Nat → Encode Unit
  | .number t, a => tbWriteToOstream (convertEndianness host (slice src a t.len) out)
  | .message msg, a =>
    if msg.numFields ≤ 255 then (encodeWalker host out src).walk (msg.fields abi 0) a
    else Proc.fail ()

theorem encodeWalker_entry {f : TbField} {type : SchemaType}
    (hkind : f.dataKind = some type.dataKind) (hsize : f.dataSize = type.cSize abi)
    (tagValid : UInt8 → Bool) (base : Nat) :
    (encodeWalker host e m).entry f tagValid base (fun a =>
        if (type.table abi).length ≤ 255 then (encodeWalker host e m).walk (type.table abi) a
        else Proc.fail ()) =
      encodeField host e m f tagValid base fun n =>
        Proc.forUpTo n fun k => type.encodeAt abi host e m (f.dataPtr base + k * f.dataSize) := by
  unfold Walker.entry
  rw [hkind]
  cases type with
  | number t =>
    have hlen : f.dataSize % 256 = f.dataSize := by
      rw [hsize]
      cases t <;> rfl
    have hlen' : f.dataSize = t.len := hsize
    change encodeField host e m f tagValid base (fun n =>
      tbWriteToOstreamBigEndian host m (f.dataPtr base) (f.dataSize % 256) n e) = _
    rw [hlen, hlen']
    rfl
  | message msg =>
    have hlen : (SchemaType.table abi (.message msg)).length = msg.numFields :=
      msg.fields_length abi 0
    simp only [hlen]
    rfl

theorem flatMap_range_getElem? {α : Type} (l : List α) (w : α → List UInt8) :
    (List.range l.length).flatMap (fun k => (l[k]?.map w).getD []) = l.flatMap w := by
  induction l using List.reverseRecOn with
  | nil => rfl
  | append_singleton l a ih =>
    rw [List.length_append, List.length_singleton, List.range_succ, List.flatMap_append,
      List.flatMap_append, List.flatMap_singleton, List.flatMap_singleton, ← ih]
    congr 1
    · refine flatMap_range_congr fun k hk => ?_
      rw [List.getElem?_append_left hk]
    · simp

/-- A field that holds the elements `x` is written as they are. -/
theorem fieldEntry_writes {rule : Rule} {type : SchemaType} {base cur : Nat}
    {x : rule.Value type.Value} (hr : rule.Accepted)
    (harray : rule.isArray = true → type.cSize abi ≠ 0)
    (hend : fieldEnd abi rule type cur < 2 ^ 31) (hx : rule.Fits x)
    (hhead : readNumber host m (base + headStart abi rule.headType cur) rule.sizeSize =
      rule.headValue x)
    (hone : ∀ k y, (rule.entries x)[k]? = some y → Writes (type.encodeAt abi host e m
      (base + dataStart abi rule.headType (type.cAlign abi) cur + k * type.cSize abi))
      (type.wire e y)) (tagValid : UInt8 → Bool) :
    Writes (encodeField host e m (fieldEntry abi rule type cur) tagValid base fun n =>
        Proc.forUpTo n fun k => type.encodeAt abi host e m
          ((fieldEntry abi rule type cur).dataPtr base +
            k * (fieldEntry abi rule type cur).dataSize))
      (rule.head e x ++ (rule.entries x).flatMap (type.wire e)) := by
  have hpresent : (fieldEntry abi rule type cur).present host m base =
      (rule.entries x).length := by
    rw [fieldEntry_present hr harray, hhead, hx.entries_length]
  have hvalid : (fieldEntry abi rule type cur).Valid host m tagValid base := by
    rw [fieldEntry_valid hr harray, hhead]
    exact hx.inRoom
  have hfield : (fieldEntry abi rule type cur).head host m e base = rule.head e x := by
    rw [fieldEntry_head hr, hhead, Rule.head_eq]
  have helement : ∀ k < (fieldEntry abi rule type cur).present host m base,
      Writes (type.encodeAt abi host e m ((fieldEntry abi rule type cur).dataPtr base +
        k * (fieldEntry abi rule type cur).dataSize))
        (((rule.entries x)[k]?.map (type.wire e)).getD []) := by
    intro k hk
    rw [hpresent] at hk
    rw [List.getElem?_eq_getElem hk]
    exact hone k _ (List.getElem?_eq_getElem hk)
  rw [← flatMap_range_getElem?, ← hpresent, ← hfield]
  exact encodeField_writes (fieldEntry_wellFormed hr (Rule.small harray hend) harray) hvalid helement

section Inner

variable {tag which : UInt8} {type : SchemaType} {whichAt data size base : Nat} {first : Bool}
  {d : List UInt8}

theorem innerEntry_present (hm : m (base + whichAt) = which) :
    (innerEntry abi tag type whichAt data first).present host m base =
      if which = tag then 1 else 0 := by
  have hptr := innerEntry_sizePtr abi tag type whichAt data base first
  rw [TbField.present, innerEntry_fieldType, TbField.sizeValue, hptr]
  change (if readNumber host m (base + whichAt) 1 = tag.toNat then 1 else 0) = _
  rw [readNumber_one, hm]
  simp only [UInt8.toNat_inj]

/-- An alternative writes the tag, if it is the first one, and its element, if it is the one
that the tag names. -/
theorem innerEntry_writes (hwhich : whichAt < data) (hsize : data + type.cSize abi ≤ size)
    (hm : m (base + whichAt) = which)
    (hone : which = tag → Writes (type.encodeAt abi host e m (base + data)) d)
    {tagValid : UInt8 → Bool} (hvalid : first = true → tagValid which = true) :
    Writes (encodeField host e m (innerEntry abi tag type whichAt data first) tagValid base fun n =>
        Proc.forUpTo n fun k => type.encodeAt abi host e m
          ((innerEntry abi tag type whichAt data first).dataPtr base +
            k * (innerEntry abi tag type whichAt data first).dataSize))
      ((if first then [which] else []) ++ if which = tag then d else []) := by
  have hptr := innerEntry_sizePtr abi tag type whichAt data base first
  have hpresent : (innerEntry abi tag type whichAt data first).present host m base =
      if which = tag then 1 else 0 := innerEntry_present hm
  have hfield : (innerEntry abi tag type whichAt data first).head host m e base =
      if first then [which] else [] := by
    unfold TbField.head TbField.sendsSize TbField.hasSize TbField.continuesOneof
    rw [innerEntry_fieldType, hptr]
    change (if _ then convertEndianness host (slice m (base + whichAt) 1) e else []) = _
    rw [slice_one, convertEndianness_singleton, hm]
    simp [innerEntry]
  have hentries : (List.range ((innerEntry abi tag type whichAt data first).present host m
      base)).flatMap (fun _ => d) = if which = tag then d else [] := by
    rw [hpresent]
    split <;> simp
  rw [← hfield, ← hentries]
  refine encodeField_writes (innerEntry_wellFormed tag type first hwhich hsize) ⟨?_, ?_⟩ ?_
  · rw [innerEntry_fieldType]
    intro h
    cases h
  · intro _ hfirst
    rw [hptr, hm]
    exact hvalid hfirst
  · intro k hk
    rw [hpresent] at hk
    split at hk
    · rename_i heq
      obtain rfl : k = 0 := by omega
      rw [Nat.zero_mul, Nat.add_zero]
      exact hone heq
    · omega

theorem innerEntry_writes_other (hne : which ≠ tag) (hwhich : whichAt < data)
    (hm : m (base + whichAt) = which) {tagValid : UInt8 → Bool}
    (hvalid : first = true → tagValid which = true) :
    Writes (encodeField host e m (innerEntry abi tag type whichAt data first) tagValid base fun n =>
        Proc.forUpTo n fun k => type.encodeAt abi host e m
          ((innerEntry abi tag type whichAt data first).dataPtr base +
            k * (innerEntry abi tag type whichAt data first).dataSize))
      (if first then [which] else []) := by
  have heq : (if first then [which] else []) =
      (if first then [which] else []) ++ if which = tag then ([] : List UInt8) else [] := by
    rw [if_neg hne, List.append_nil]
  rw [heq]
  exact innerEntry_writes hwhich (Nat.le_refl _) hm (fun h => absurd h hne) hvalid

/-- One turn of the walk at a field. -/
theorem walk_field (abi : Abi) (host e : TbEndian) (m : Memory) (rule : Rule) (type : SchemaType)
    (next : Fields) (cur base : Nat) :
    (encodeWalker host e m).walk (.entry (fieldEntry abi rule type cur) (type.table abi) next) base =
      ((encodeField host e m (fieldEntry abi rule type cur)
        (checkOneofWhichTagValidity
          (.entry (fieldEntry abi rule type cur) (type.table abi) next)) base fun n =>
        Proc.forUpTo n fun k => type.encodeAt abi host e m
          ((fieldEntry abi rule type cur).dataPtr base +
            k * (fieldEntry abi rule type cur).dataSize)) >>= fun _ =>
      (encodeWalker host e m).walk next base) := by
  rw [Walker.walk, encodeWalker_entry (fieldEntry_dataKind rule type cur) rfl]

/-- One turn of the walk at an alternative. -/
theorem walk_inner (abi : Abi) (host e : TbEndian) (m : Memory) (tag : UInt8) (type : SchemaType)
    (whichAt data : Nat) (first : Bool) (next : Fields) (base : Nat) :
    (encodeWalker host e m).walk
        (.entry (innerEntry abi tag type whichAt data first) (type.table abi) next) base =
      ((encodeField host e m (innerEntry abi tag type whichAt data first)
        (checkOneofWhichTagValidity
          (.entry (innerEntry abi tag type whichAt data first) (type.table abi) next)) base fun n =>
        Proc.forUpTo n fun k => type.encodeAt abi host e m
          ((innerEntry abi tag type whichAt data first).dataPtr base +
            k * (innerEntry abi tag type whichAt data first).dataSize)) >>= fun _ =>
      (encodeWalker host e m).walk next base) := by
  rw [Walker.walk, encodeWalker_entry (innerEntry_dataKind tag type whichAt data first) rfl]

/-- The alternatives that the tag does not name write nothing. -/
theorem walk_others (hwhich : whichAt < data) (hm : m (base + whichAt) = which) {rest : Fields}
    (hrest : Writes ((encodeWalker host e m).walk rest base) d) : (inner : InnerFields) →
    which ∉ inner.tags →
      Writes ((encodeWalker host e m).walk (inner.fields abi whichAt data false rest) base) d
  | .nil, _ => hrest
  | .cons tag type next, hnot => by
    rw [InnerFields.tags, List.mem_cons, not_or] at hnot
    rw [InnerFields.fields, walk_inner]
    exact (innerEntry_writes_other hnot.1 hwhich hm (absurd · Bool.false_ne_true)).bind
      (walk_others hwhich hm hrest next hnot.2)

end Inner

mutual

theorem SchemaType.encodeAt_writes (abi : Abi) (host e : TbEndian) (m : Memory) :
    (type : SchemaType) → type.Accepted → type.Compiles abi → (a : Nat) → (x : type.Value) →
      type.Meets .walked x → type.Holds abi host m a x →
      Writes (type.encodeAt abi host e m a) (type.wire e x)
  | .number t, _, _, a, x, _, hx => by
    have hlen : t.len < 2 ^ 31 := by cases t <;> decide
    have heq : convertEndianness host (slice m a t.len) e = SchemaType.wire e (.number t) x := by
      rw [convertEndianness_eq_packed, show readNumber host m a t.len = BitVec.toNat x from hx]
      rfl
    rw [← heq]
    exact tbWriteToOstream_writes (by simpa using hlen)
  | .message msg, hacc, ⟨hcomp, hsize⟩, a, v, ⟨hshort, hv⟩, hx => by
    have hend : msg.cEnd abi 0 < 2 ^ 31 := Nat.lt_of_le_of_lt (msg.cEnd_le_cSize abi) hsize
    have h := Message.walk_writes abi host e m msg hacc hcomp 0 hend a v hv hx
    rw [SchemaType.encodeAt, if_pos (show msg.numFields ≤ 255 from hshort)]
    exact h

theorem Message.walk_writes (abi : Abi) (host e : TbEndian) (m : Memory) :
    (msg : Message) → msg.Accepted → msg.Compiles abi → (cur : Nat) → msg.cEnd abi cur < 2 ^ 31 →
      (base : Nat) → (v : msg.Value) → msg.Meets .walked v → msg.Holds abi host m base cur v →
      Writes ((encodeWalker host e m).walk (msg.fields abi cur) base) (msg.wire e v)
  | .nil, _, _, _, _, _, _, _, _ => Writes.nil
  | .field rule type next, ⟨hr, ht, hn⟩, ⟨⟨hct, harray⟩, hcn⟩, cur, hend, base, (x, v),
      ⟨⟨hfits, hall⟩, hv⟩, ⟨⟨hhead, hentries⟩, hnext⟩ => by
    have hfield : fieldEnd abi rule type cur < 2 ^ 31 :=
      Nat.lt_of_le_of_lt (next.le_cEnd abi _) hend
    rw [Message.fields, walk_field]
    refine (fieldEntry_writes hr harray hfield hfits hhead (fun k y hy => ?_) _).bind
      (Message.walk_writes abi host e m next hn hcn _ hend base v hv hnext)
    exact SchemaType.encodeAt_writes abi host e m type ht hct _ y
      (hall y (List.mem_of_getElem? hy)) (hentries k y hy)
  | .oneof inner next, ⟨⟨hne, hi⟩, hn⟩, ⟨hci, hcn⟩, cur, hend, base, (x, v), ⟨hx, hv⟩,
      ⟨⟨hwhich, hinner⟩, hnext⟩ => by
    have hrest := Message.walk_writes abi host e m next hn hcn _ hend base v hv hnext
    have hstart : headStart abi (some .uint8) cur <
        dataStart abi (some .uint8) (inner.cAlign abi) cur :=
      headStart_lt_dataStart abi (by decide) (inner.cAlign_pos abi) cur
    have hvalid := (inner.whichTagValidity abi (headStart abi (some .uint8) cur)
      (dataStart abi (some .uint8) (inner.cAlign abi) cur) (next.fields_endsGroup abi (oneofEnd abi inner cur))
      (inner.which x) hne true).mpr (inner.which_mem x)
    exact InnerFields.walk_writes abi host e m inner hi hci hstart base x hx hwhich hinner
      hrest true fun _ => hvalid
  | .emptyOneof next, hn, hcn, cur, hend, base, v, ⟨_, hv⟩, hnext =>
    Message.walk_writes abi host e m next hn hcn _ hend base v hv hnext

/-- The alternatives write the one that has the value, the first one the tag as well. -/
theorem InnerFields.walk_writes (abi : Abi) (host e : TbEndian) (m : Memory) :
    (inner : InnerFields) → inner.Accepted → inner.Compiles abi → {whichAt data : Nat} →
      whichAt < data → (base : Nat) → (x : inner.Value) → inner.Meets .walked x →
      m (base + whichAt) = inner.which x → inner.Holds abi host m (base + data) x →
      {rest : Fields} → {d : List UInt8} → Writes ((encodeWalker host e m).walk rest base) d →
      (first : Bool) → (first = true → checkOneofWhichTagValidity
        (inner.fields abi whichAt data first rest) (inner.which x) = true) →
      Writes ((encodeWalker host e m).walk (inner.fields abi whichAt data first rest) base)
        ((if first then [inner.which x] else []) ++ inner.wire e x ++ d)
  | .cons tag type next, ⟨htag, ht, _⟩, ⟨hct, _⟩, whichAt, data, hlt, base, .inl x, hx, hm, hinner,
      rest, d, hrest, first, hvalid => by
    have hone := SchemaType.encodeAt_writes abi host e m type ht hct _ x hx hinner
    have hwire : SchemaType.wire e type x = if tag = tag then SchemaType.wire e type x else [] :=
      (if_pos rfl).symm
    rw [InnerFields.fields, walk_inner, InnerFields.wire, hwire]
    exact (innerEntry_writes hlt (Nat.le_refl _) hm (fun _ => hone) hvalid).bind
      (walk_others hlt hm hrest next htag)
  | .cons tag type next, ⟨htag, _, hn⟩, ⟨_, hcn⟩, whichAt, data, hlt, base, .inr x, hx, hm, hinner,
      rest, d, hrest, first, hvalid => by
    have hne : next.which x ≠ tag := fun h => htag (h ▸ next.which_mem x)
    have hnext := InnerFields.walk_writes abi host e m next hn hcn hlt base x hx hm hinner hrest
      false fun h => nomatch h
    rw [InnerFields.fields, walk_inner, List.append_assoc]
    exact (innerEntry_writes_other hne hlt hm hvalid).bind hnext

end

end OpenBadge.Tinybuf
