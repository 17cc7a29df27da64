import OpenBadge.Tinybuf.Decode

/-!
# Round trip and acceptance of `tb_decode`

Every encoding is accepted and read back to the same values; what is accepted is
an encoding; and no input makes the decoder leave the buffer or the structure.
-/

namespace OpenBadge.Tinybuf

open OpenBadge.Lib

/-! ## Completeness -/

/-- `x` succeeds from `s` and reads `n` bytes. -/
def Accepts (x : Decode Unit) (n : Nat) (s : DecodeState) : Prop :=
  ∃ t, x s = (.ok (), t) ∧ t.istream = s.istream.skip n

theorem skip_skip (i : TbIstream) (n k : Nat) : (i.skip n).skip k = i.skip (n + k) := by
  simp [TbIstream.skip, Nat.add_assoc]

theorem TbIstream.Starts.sized {i : TbIstream} {d : List UInt8} (h : i.Starts d)
    (hs : i.Sized) : (i.skip d.length).Sized := ⟨h.1, hs.size_lt⟩

theorem Accepts.forUpTo {one : Nat → Decode Unit} {d : Nat → List UInt8} {c : Nat}
    (hone : ∀ k < c, ∀ s, s.istream.Sized → s.istream.Starts (d k) →
      Accepts (one k) (d k).length s) {s : DecodeState} (hs : s.istream.Sized)
    (hstarts : s.istream.Starts ((List.range c).flatMap d)) :
    Accepts (Proc.forUpTo c one) ((List.range c).flatMap d).length s := by
  induction c with
  | zero => exact ⟨s, rfl, rfl⟩
  | succ c ih =>
    rw [List.range_succ, List.flatMap_append, List.flatMap_singleton] at hstarts ⊢
    obtain ⟨hfirst, hlast⟩ := starts_append.mp hstarts
    obtain ⟨t, ht, hti⟩ := ih (fun k hk => hone k (by omega)) hfirst
    rw [← hti] at hlast
    obtain ⟨u, hu, hui⟩ := hone c (by omega) t (hti ▸ hfirst.sized hs) hlast
    exact ⟨u, (Proc.bind_ok ht _).trans hu,
      by rw [hui, hti, skip_skip, List.length_append]⟩

theorem readNumber_accepts {host inp : TbEndian} {p n : Nat} (hn : n < 2 ^ 31) {d : List UInt8}
    (hd : d.length = n) {s : DecodeState} (hs : s.istream.Sized) (hstarts : s.istream.Starts d) :
    Accepts (tbReadFromIstream n >>= fun tmp => storeBytes p (convertEndianness host tmp inp))
      d.length s := by
  have hle := hstarts.1
  rw [hd] at hle ⊢
  refine ⟨s.readInto host inp p n, ?_, rfl⟩
  rw [readNumberInto_eq host inp hs p hn, if_pos hle]

section Field

variable {host host' inp : TbEndian} {f : TbField} {size base b : Nat} {m : Memory}
  {s : DecodeState}

/-- The head that is on the wire arrives in memory; otherwise the which-tag is
already there. -/
theorem readHead_accepts (hf : f.WellFormed size) (hs : s.istream.Sized)
    (hstarts : s.istream.Starts (f.head host' m inp b))
    (hwhich : f.continuesOneof → f.sizeValue host s.dst base = f.sizeValue host' m b) :
    ∃ t, Proc.when (f.sendsSize = true)
        (tbReadFromIstreamLittleEndian host (f.sizePtr base) f.sizeSize 1 inp) s = (.ok (), t) ∧
      t.istream = s.istream.skip (f.head host' m inp b).length ∧
      (f.hasSize → f.sizeValue host t.dst base = f.sizeValue host' m b) := by
  rw [head_length]
  by_cases hsend : f.sendsSize = true
  · rw [Proc.when_pos hsend, if_pos hsend, readLittleEndian_eq,
      readNumberInto_eq host inp hs _ (hf.sizeSize_lt hsend)]
    have hlen : (f.head host' m inp b).length = f.sizeSize := by
      rw [head_length, if_pos hsend]
    have hle := hstarts.1
    have heq := hstarts.2
    rw [hlen] at hle heq
    refine ⟨_, if_pos hle, rfl, fun _ => (head_eq_iff inp hsend).mp ?_⟩
    rw [TbField.head, if_pos hsend, readInto_dst, heq]
  · rw [Proc.when_neg hsend, if_neg hsend]
    refine ⟨s, rfl, rfl, fun hsz => hwhich ?_⟩
    by_contra hc
    exact hsend (sendsSize_of_not_continues hsz hc)

theorem readField_accepts {tagValid : UInt8 → Bool} {one : Nat → Decode Unit}
    {enc : Memory → Nat → List UInt8} {valid : Memory → Nat → Prop} {d : Nat → List UInt8}
    (hf : f.WellFormed size)
    (hsound : ∀ k, Sound (one k) (fun m => enc m k) (fun m => valid m k)
      (fun _ => InRange (f.dataPtr base + k * f.dataSize) f.dataSize))
    (hlocal : ∀ k m m', (∀ a, InRange (f.dataPtr base + k * f.dataSize) f.dataSize a →
      m' a = m a) → valid m k → enc m' k = enc m k ∧ valid m' k)
    (hone : ∀ k < f.present host' m b, ∀ s, s.istream.Sized → s.istream.Starts (d k) →
      Accepts (one k) (d k).length s)
    (hv : f.Valid host' m tagValid b) (hs : s.istream.Sized)
    (hstarts : s.istream.Starts
      (f.head host' m inp b ++ (List.range (f.present host' m b)).flatMap d))
    (hwhich : f.continuesOneof → f.sizeValue host s.dst base = f.sizeValue host' m b) :
    ∃ t, readField host inp f tagValid base (fun n => Proc.forUpTo n one) s = (.ok (), t) ∧
      t.istream = s.istream.skip
        (f.head host' m inp b ++ (List.range (f.present host' m b)).flatMap d).length ∧
      (f.hasSize → f.sizeValue host t.dst base = f.sizeValue host' m b) := by
  obtain ⟨hhead, hrest⟩ := starts_append.mp hstarts
  obtain ⟨t, ht, hti, htsize⟩ := readHead_accepts hf hs hhead hwhich
  have hts : t.istream.Sized := hti ▸ hhead.sized hs
  rw [← hti] at hrest
  obtain ⟨u, hu, hui⟩ := Accepts.forUpTo hone hts hrest
  have hvt : f.Valid host t.dst tagValid base := hv.congr hf fun h => (htsize h).symm
  have hp := present_congr htsize
  refine ⟨u, ?_, by rw [hui, hti, skip_skip, List.length_append], fun hsz => ?_⟩
  · unfold readField
    rw [Proc.bind_ok ht, Proc.get_bind_apply, Proc.failIf_bind_neg (not_not.mpr hvt), hp]
    exact hu
  · obtain ⟨-, -, hframe⟩ :=
      Sound.forUpTo (fun k _ => hsound k) (fun k _ => hlocal k) t u hts hu
    rw [← htsize hsz]
    refine sizeValue_congr fun x hx hx' => hframe x (hf.not_inRange hsz ⟨hx, hx'⟩ ?_)
    rw [← hp]
    exact room_mul hvt

end Field

/-- `tb_decode` accepts every encoding of a valid structure, on any host. -/
theorem tbDecode_complete (host host' inp : TbEndian) (m : Memory) (fields : Fields) :
    ∀ {size base b : Nat} {s : DecodeState}, fields.Describes size → fields.Valid host' m b →
      fields.WhichAgrees host host' s.dst m base b → s.istream.Sized →
      s.istream.Starts (fields.encoding host' m inp b) →
      Accepts (tbDecode host inp fields base) (fields.encoding host' m inp b).length s := by
  induction fields with
  | last => exact fun {_ _ _ s} _ _ _ _ _ => ⟨s, rfl, rfl⟩
  | entry f ptr next ihp ihn =>
    intro size base b s hd hv hwhich hs hstarts
    obtain ⟨hf, hptr, -, -, hdn⟩ := id hd
    obtain ⟨hvf, hvp, hvn⟩ := hv
    have hdp := fun hm => (hptr hm).1
    have henc : (Fields.entry f ptr next).encoding host' m inp b =
        (f.head host' m inp b ++
          (List.range (f.present host' m b)).flatMap (entryEncoding host' inp f ptr b m)) ++
        next.encoding host' m inp b := rfl
    rw [henc] at hstarts ⊢
    rw [tbDecode_entry host inp hf]
    obtain ⟨hfield, hnext⟩ := starts_append.mp hstarts
    have hone : ∀ k < f.present host' m b, ∀ s : DecodeState, s.istream.Sized →
        s.istream.Starts (entryEncoding host' inp f ptr b m k) →
        Accepts (readEntry host inp f ptr base k) (entryEncoding host' inp f ptr b m k).length s := by
      intro k hk s hs hst
      unfold readEntry
      unfold entryEncoding at hst ⊢
      by_cases hm : f.dataKind = some .message
      · rw [if_pos hm] at hst ⊢
        rw [if_pos hm]
        exact ihp (hdp hm) (hvp hm k hk) (whichAgrees_of_opens (hptr hm).2.1) hs hst
      · rw [if_neg hm] at hst ⊢
        rw [if_neg hm]
        exact readNumber_accepts (numberSize_lt hf (number_of_not_message hf hm)) (by simp) hs hst
    obtain ⟨t, ht, hti, htsize⟩ := readField_accepts hf
      (readEntry_sound base hf hdp (tbDecode_sound host inp ptr)) (entry_local hdp)
      hone hvf hs hfield hwhich
    rw [← hti] at hnext
    obtain ⟨u, hu, hui⟩ := ihn hdn hvn (whichAgrees_next hd htsize) (hti ▸ hfield.sized hs) hnext
    refine ⟨u, (Proc.bind_ok ht _).trans hu, ?_⟩
    rw [hui, hti, skip_skip, ← List.length_append]

/-! ## Safety -/

/-- All reads so far were inside a buffer of `n` bytes, all writes inside `W`. -/
structure Safe (n : Nat) (W : Nat → Prop) (s : DecodeState) : Prop where
  sized : s.istream.Sized
  size_eq : s.istream.bufSize = n
  reads_lt : ∀ a ∈ s.reads, a < n
  writes_in : ∀ a ∈ s.writes, W a

variable {n : Nat} {W : Nat → Prop}

theorem readNumber_safe {host inp : TbEndian} {p c : Nat} (hc : c < 2 ^ 31)
    (hW : ∀ a, InRange p c a → W a) :
    Proc.Keeps (Safe n W)
      (tbReadFromIstream c >>= fun tmp => storeBytes p (convertEndianness host tmp inp)) := by
  intro s hs
  rw [readNumberInto_eq host inp hs.sized p hc]
  split
  · rename_i hle
    refine ⟨⟨hle, hs.sized.size_lt⟩, hs.size_eq, fun a ha => ?_, fun a ha => ?_⟩
    · rcases List.mem_append.mp ha with ha | ha
      · obtain ⟨i, hi, rfl⟩ := List.mem_map.mp ha
        rw [List.mem_range] at hi
        rw [← hs.size_eq]
        omega
      · exact hs.reads_lt a ha
    · rcases List.mem_append.mp ha with ha | ha
      · obtain ⟨i, hi, rfl⟩ := List.mem_map.mp ha
        rw [List.mem_range] at hi
        exact hW _ ⟨by omega, by omega⟩
      · exact hs.writes_in a ha
  · exact hs

theorem readField_safe {host inp : TbEndian} {f : TbField} {size base : Nat}
    {tagValid : UInt8 → Bool} {one : Nat → Decode Unit} (hf : f.WellFormed size)
    (hone : ∀ k < f.room, Proc.Keeps (Safe n W) (one k))
    (hW : f.hasSize → ∀ a, InRange (f.sizePtr base) f.sizeSize a → W a) :
    Proc.Keeps (Safe n W) (readField host inp f tagValid base fun n => Proc.forUpTo n one) := by
  refine Proc.Keeps.bind (Proc.Keeps.when fun hsend => ?_) fun _ => ?_
  · rw [readLittleEndian_eq]
    exact readNumber_safe (hf.sizeSize_lt hsend) (hW (hasSize_of_sendsSize hsend))
  · intro s hs
    rw [Proc.get_bind_apply]
    by_cases hv : f.Valid host s.dst tagValid base
    · rw [Proc.failIf_bind_neg (not_not.mpr hv)]
      exact Proc.Keeps.forUpTo
        (fun k hk => hone k (Nat.lt_of_lt_of_le hk hv.present_le)) s hs
    · rw [Proc.failIf_bind_pos hv]
      exact hs

/-- Whatever the input, `tb_decode` reads inside the buffer and writes inside the
fields, below the array sizes. -/
theorem tbDecode_safe (host inp : TbEndian) (fields : Fields) :
    ∀ {size base : Nat}, fields.Describes size → (∀ a, fields.Within base a → W a) →
      Proc.Keeps (Safe n W) (tbDecode host inp fields base) := by
  induction fields with
  | last => exact fun _ _ s hs => hs
  | entry f ptr next ihp ihn =>
    rintro size base ⟨hf, hptr, -, -, hdn⟩ hW
    rw [tbDecode_entry host inp hf]
    refine Proc.Keeps.bind ?_ fun _ => ihn hdn fun a ha => hW a (.inr (.inr ha))
    refine readField_safe hf (fun k hk => ?_) fun hsz a ha => hW a (.inl ⟨hsz, ha⟩)
    unfold readEntry
    by_cases hm : f.dataKind = some .message
    · rw [if_pos hm]
      refine ihp (hptr hm).1 fun a ha => hW a (.inr (.inl ⟨k, hk, ?_⟩))
      rwa [if_pos hm]
    · rw [if_neg hm]
      refine readNumber_safe (numberSize_lt hf (number_of_not_message hf hm)) fun a ha =>
        hW a (.inr (.inl ⟨k, hk, ?_⟩))
      rwa [if_neg hm]

/-! ## Buffers -/

/-- A byte array of the target; an object is smaller than 2^31 bytes. -/
structure Buffer where
  bytes : Memory
  size : Nat
  size_lt : size < 2 ^ 31

/-- The contents of the array. -/
def Buffer.toList (b : Buffer) : List UInt8 := slice b.bytes 0 b.size

/-- `tb_encode` into the buffer returns 1 and leaves exactly `p` there. -/
def EncodesInto (host out : TbEndian) (fields : Fields) (src : Memory) (base : Nat)
    (buffer : Buffer) (p : List UInt8) : Prop :=
  ∃ o, tbEncode host out src fields base (tbOstreamFromBuffer buffer.bytes buffer.size) =
      (.ok (), o) ∧ o.bytesWritten = p.length ∧ slice o.buf 0 o.bytesWritten = p

/-- `p` is what `tb_encode` makes of a structure with counts within the array
sizes and which-tags that name an alternative. -/
def IsEncoding (out : TbEndian) (fields : Fields) (p : List UInt8) : Prop :=
  ∃ host src base, fields.Valid host src base ∧
    ∀ buffer : Buffer, p.length ≤ buffer.size → EncodesInto host out fields src base buffer p

/-- The decoder in front of a buffer, with a destination memory. -/
def decodeFrom (buffer : Buffer) (dst : Memory) : DecodeState :=
  { istream := tbIstreamFromBuffer buffer.bytes buffer.size, dst := dst }

theorem decodeFrom_sized (buffer : Buffer) (dst : Memory) :
    (decodeFrom buffer dst).istream.Sized := ⟨Nat.zero_le _, buffer.size_lt⟩

theorem starts_iff_input {buffer : Buffer} {dst : Memory} {p : List UInt8} :
    (decodeFrom buffer dst).istream.Starts p ↔ p <+: buffer.toList := by
  constructor
  · rintro ⟨hle, heq⟩
    change 0 + p.length ≤ buffer.size at hle
    refine ⟨slice buffer.bytes p.length (buffer.size - p.length), ?_⟩
    have h := slice_add buffer.bytes 0 p.length (buffer.size - p.length)
    rw [Nat.add_sub_cancel' (by omega), Nat.zero_add] at h
    rw [Buffer.toList, h]
    congr 1
    exact heq.symm
  · rintro ⟨r, hr⟩
    have hlen : p.length + r.length = buffer.size := by
      rw [← List.length_append, hr, Buffer.toList, slice_length]
    refine ⟨by change 0 + p.length ≤ buffer.size; omega, ?_⟩
    exact (slice_eq_append (show slice buffer.bytes 0 buffer.size = p ++ r from hr.symm)).1

theorem prefix_size {buffer : Buffer} {p : List UInt8} (h : p <+: buffer.toList) :
    p.length ≤ buffer.size := by
  have hle := h.length_le
  rwa [Buffer.toList, slice_length] at hle

/-- Encoding writes the encoding into every buffer that holds it. -/
theorem encodesInto_of_valid {fields : Fields} {size : Nat} (hd : fields.Describes size)
    {host : TbEndian} {src : Memory} {base : Nat} (hv : fields.Valid host src base)
    (out : TbEndian) {buffer : Buffer}
    (hle : (fields.encoding host src out base).length ≤ buffer.size) :
    EncodesInto host out fields src base buffer (fields.encoding host src out base) := by
  have h := (tbEncode_writes host out src fields hd hv
    (tbOstreamFromBuffer buffer.bytes buffer.size) buffer.size_lt (Nat.zero_le _)).1
    (by change 0 + _ ≤ buffer.size; omega)
  refine ⟨_, h, Nat.zero_add _, ?_⟩
  change slice (overwrite buffer.bytes 0 _) 0 (0 + _) = _
  rw [Nat.zero_add, slice_overwrite]

/-- The encoding of a structure is the only list it encodes into. -/
theorem encoding_of_encodesInto {fields : Fields} {size : Nat} (hd : fields.Describes size)
    {host : TbEndian} {src : Memory} {base : Nat} (hv : fields.Valid host src base)
    {out : TbEndian} {buffer : Buffer} {p : List UInt8}
    (hp : EncodesInto host out fields src base buffer p) :
    p = fields.encoding host src out base := by
  obtain ⟨o, ho, -, hslice⟩ := hp
  by_cases hle : (fields.encoding host src out base).length ≤ buffer.size
  · obtain ⟨o', ho', -, hslice'⟩ := encodesInto_of_valid hd hv out hle
    rw [ho] at ho'
    cases ho'
    rw [← hslice, hslice']
  · obtain ⟨o', ho'⟩ := (tbEncode_writes host out src fields hd hv
      (tbOstreamFromBuffer buffer.bytes buffer.size) buffer.size_lt (Nat.zero_le _)).2
      (by change buffer.size < 0 + _; omega)
    rw [ho] at ho'
    cases ho'

/-- The encoder and the decoder of a well-formed description are inverse: the
encoding of a structure is written into every buffer that holds it, is read back
from any input that starts with it, on a host of either endianness, to the same
values in the fields that are present, and is the encoding of every structure
with these values. -/
theorem tb_round_trip {fields : Fields} {size : Nat} (hwf : WellFormed fields size)
    (host e : TbEndian) (src : Memory) (base : Nat) (hv : fields.Valid host src base) :
    (∀ buffer : Buffer, (fields.encoding host src e base).length ≤ buffer.size →
      EncodesInto host e fields src base buffer (fields.encoding host src e base)) ∧
    (∀ (host' : TbEndian) (input : Buffer) (rest : List UInt8) (dst : Memory) (base' : Nat),
      input.toList = fields.encoding host src e base ++ rest →
      ∃ t, tbDecode host' e fields base' (decodeFrom input dst) = (.ok (), t) ∧
        t.istream.bytesRead = (fields.encoding host src e base).length ∧
        fields.Same host host' src t.dst base base') ∧
    (∀ (host' : TbEndian) (src' : Memory) (base' : Nat) (buffer : Buffer),
      fields.Same host host' src src' base base' →
      (fields.encoding host src e base).length ≤ buffer.size →
      EncodesInto host' e fields src' base' buffer (fields.encoding host src e base)) := by
  have hd := hwf.describes
  refine ⟨fun buffer hle => encodesInto_of_valid hd hv e hle, ?_, ?_⟩
  · intro host' input rest dst base' hin
    have hstarts : (decodeFrom input dst).istream.Starts (fields.encoding host src e base) :=
      starts_iff_input.mpr ⟨rest, hin.symm⟩
    have haccepts : Accepts (tbDecode host' e fields base')
        (fields.encoding host src e base).length (decodeFrom input dst) :=
      tbDecode_complete host' host e src fields hd hv (whichAgrees_of_opens hwf.opens)
        (decodeFrom_sized input dst) hstarts
    obtain ⟨t, ht, hti⟩ := haccepts
    obtain ⟨hc, -, -⟩ := tbDecode_sound host' e fields hd _ t (decodeFrom_sized input dst) ht
    obtain ⟨rest', hin'⟩ := starts_iff_input.mp hc.starts
    rw [hin] at hin'
    obtain ⟨hsame, -⟩ := fields.same_of_encoding_eq hd (whichAgrees_of_opens hwf.opens) hin'.symm
    refine ⟨t, ht, ?_, hsame⟩
    rw [hti]
    exact Nat.zero_add _
  · intro host' src' base' buffer hsame hle
    have henc := fields.encoding_eq_of_same e hsame
    have hv' := hv.of_same fields hd hsame
    rw [henc] at hle ⊢
    exact encodesInto_of_valid hd hv' e hle

/-- `Embedded_message1` of the test protocol: an optional `uint64`. -/
def embeddedMessage1Fields : Fields :=
  .entry
    { type := 66, dataOffset := 8, sizeOffset := -8, sizeSize := 1, dataSize := 8,
      arraySize := 0, oneofTag := 0, oneofFirst := false } .last .last

/-- `Embedded_message` of the test protocol: a `uint8`, two messages and a oneof. -/
def embeddedMessageFields : Fields :=
  .entry
    { type := 65, dataOffset := 0, sizeOffset := 0, sizeSize := 0, dataSize := 1,
      arraySize := 0, oneofTag := 0, oneofFirst := false,
      type_ne_zero := requiredUint_ne_zero } .last
  (.entry
    { type := 520, dataOffset := 8, sizeOffset := 0, sizeSize := 0, dataSize := 16,
      arraySize := 2, oneofTag := 0, oneofFirst := false } embeddedMessage1Fields
  (.entry
    { type := 80, dataOffset := 41, sizeOffset := -1, sizeSize := 1, dataSize := 1,
      arraySize := 0, oneofTag := 100, oneofFirst := true,
      type_ne_zero := oneofUint_ne_zero } .last .last))

/-- An `Embedded_message` in memory: the first inner message has its `uint64`, the
second has none, and the oneof holds `g`. -/
def embeddedMessage : Memory := fun a =>
  if a = 0 then 7 else if a = 8 then 1 else if a = 16 then 42 else if a = 40 then 100
  else if a = 41 then 9 else 0

theorem embeddedMessageFields_wellFormed : WellFormed embeddedMessageFields 48 :=
  ⟨by decide, rfl, by decide, by decide⟩

theorem tb_round_trip_embedded :
    WellFormed embeddedMessageFields 48 ∧
    embeddedMessageFields.Valid .littleEndian embeddedMessage 0 ∧
    embeddedMessageFields.encoding .littleEndian embeddedMessage .bigEndian 0 =
      [7, 1, 0, 0, 0, 0, 0, 0, 0, 42, 0, 100, 9] ∧
    ∃ t, tbDecode .bigEndian .bigEndian embeddedMessageFields 0
        (decodeFrom ⟨overwrite (fun _ => 0) 0 [7, 1, 0, 0, 0, 0, 0, 0, 0, 42, 0, 100, 9], 15,
          by decide⟩ fun _ => 0) = (.ok (), t) ∧
      t.istream.bytesRead = 13 ∧
      embeddedMessageFields.Same .littleEndian .bigEndian embeddedMessage t.dst 0 0 :=
  ⟨embeddedMessageFields_wellFormed, by decide, by decide,
    (tb_round_trip embeddedMessageFields_wellFormed .littleEndian .bigEndian embeddedMessage 0
      (by decide)).2.1 .bigEndian _ [0, 0] _ 0 (by decide)⟩

/-- `tb_decode` stays inside the buffer and the fields on every input, accepts
exactly the inputs that start with an encoding, and leaves that value in memory. -/
theorem tb_decode_accepts_exactly {fields : Fields} {size : Nat} (hwf : WellFormed fields size)
    (host e : TbEndian) (input : Buffer) (dst : Memory) (base : Nat) :
    (∀ a ∈ (tbDecode host e fields base (decodeFrom input dst)).2.reads, a < input.size) ∧
    (∀ a ∈ (tbDecode host e fields base (decodeFrom input dst)).2.writes,
      fields.Within base a) ∧
    ((tbDecode host e fields base (decodeFrom input dst)).1 = .ok () ↔
      ∃ p, p <+: input.toList ∧ IsEncoding e fields p) ∧
    ∀ t, tbDecode host e fields base (decodeFrom input dst) = (.ok (), t) →
      ∀ p, p <+: input.toList → IsEncoding e fields p →
        t.istream.bytesRead = p.length ∧ fields.Valid host t.dst base ∧
        ∀ buffer : Buffer, p.length ≤ buffer.size →
          EncodesInto host e fields t.dst base buffer p := by
  have hd := hwf.describes
  have hs := decodeFrom_sized input dst
  have hsafe : Safe input.size (fields.Within base)
      (tbDecode host e fields base (decodeFrom input dst)).2 :=
    tbDecode_safe host e fields hd (fun _ h => h) _
      ⟨hs, rfl, fun _ h => absurd h List.not_mem_nil, fun _ h => absurd h List.not_mem_nil⟩
  have hsound : Sound (tbDecode host e fields base) (fun m => fields.encoding host m e base)
      (fun m => fields.Valid host m base) (fun m => fields.Writes host m base) :=
    tbDecode_sound host e fields hd
  refine ⟨hsafe.reads_lt, hsafe.writes_in, ⟨fun hok => ?_, ?_⟩, ?_⟩
  · obtain ⟨hc, hv, -⟩ := hsound _ _ hs (Prod.ext hok rfl)
    exact ⟨_, starts_iff_input.mp hc.starts, host, _, base, hv,
      fun buffer hle => encodesInto_of_valid hd hv e hle⟩
  · rintro ⟨p, hp, host', src, b, hv, henc⟩
    rw [encoding_of_encodesInto hd hv (henc input (prefix_size hp))] at hp
    obtain ⟨t, ht, -⟩ := tbDecode_complete host host' e src fields (b := b) hd hv
      (whichAgrees_of_opens hwf.opens) hs (starts_iff_input.mpr hp)
    rw [ht]
  · rintro t ht p hp ⟨host', src, b, hv', henc⟩
    obtain ⟨hc, hv, -⟩ := hsound _ t hs ht
    dsimp only at hc
    have hpe := encoding_of_encodesInto hd hv' (henc input (prefix_size hp))
    obtain ⟨r, hr⟩ := starts_iff_input.mp hc.starts
    obtain ⟨r', hr'⟩ := id hp
    rw [hpe] at hr'
    obtain ⟨hsame, -⟩ := fields.same_of_encoding_eq hd (whichAgrees_of_opens hwf.opens)
      (hr.trans hr'.symm)
    have heq : fields.encoding host t.dst e base = p :=
      (fields.encoding_eq_of_same e hsame).trans hpe.symm
    rw [heq] at hc
    refine ⟨?_, hv, fun buffer hle => ?_⟩
    · rw [hc.istream_eq]
      exact Nat.zero_add _
    · rw [← heq] at hle ⊢
      exact encodesInto_of_valid hd hv e hle

theorem tb_decode_accepts_exactly_embedded :
    WellFormed embeddedMessageFields 48 ∧
    (∀ a ∈ (tbDecode .littleEndian .bigEndian embeddedMessageFields 0
      (decodeFrom ⟨fun _ => 1, 12, by decide⟩ fun _ => 0)).2.reads, a < 12) ∧
    ¬ ∃ p, p <+: (Buffer.mk (fun _ => 1) 12 (by decide)).toList ∧
      IsEncoding .bigEndian embeddedMessageFields p := by
  have h := tb_decode_accepts_exactly embeddedMessageFields_wellFormed .littleEndian .bigEndian
    ⟨fun _ => 1, 12, by decide⟩ (fun _ => 0) 0
  refine ⟨embeddedMessageFields_wellFormed, h.1, fun hp => ?_⟩
  have hok := h.2.2.1.mpr hp
  revert hok
  decide

end OpenBadge.Tinybuf
