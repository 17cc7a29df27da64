import OpenBadge.Tinybuf.Encode

/-!
# What `tb_decode` reads

The five rules of `tb_decode` are one pattern: read the head of the field when
it is on the wire, check it, and read the entries it announces. From this follow
soundness (what was accepted is the encoding of the structure now in memory),
completeness (every encoding is accepted) and safety (no access out of range).
-/

namespace OpenBadge.Tinybuf

open OpenBadge.Lib

/-- `tb_decode`'s treatment of a field: head, check, entries. -/
def readField (host inp : TbEndian) (f : TbField) (tagValid : UInt8 → Bool) (base : Nat)
    (entries : Nat → Decode Unit) : Decode Unit := do
  Proc.when (f.sendsSize = true)
    (tbReadFromIstreamLittleEndian host (f.sizePtr base) f.sizeSize 1 inp)
  let s ← Proc.get
  Proc.failIf (¬ f.Valid host s.dst tagValid base) ()
  entries (f.present host s.dst base)

theorem readLittleEndian_eq (host inp : TbEndian) (p n : Nat) :
    tbReadFromIstreamLittleEndian host p n 1 inp =
      (tbReadFromIstream n >>= fun tmp => storeBytes p (convertEndianness host tmp inp)) := by
  unfold tbReadFromIstreamLittleEndian Proc.forUpTo Proc.forUpTo
  dsimp only
  rw [Nat.zero_mul, Nat.add_zero]
  rfl

theorem readLittleEndian_flag (host inp : TbEndian) (p : Nat) :
    tbReadFromIstreamLittleEndian host p 1 1 inp = (tbReadFromIstream 1 >>= storeBytes p) := by
  rw [readLittleEndian_eq]
  funext s
  unfold tbReadFromIstream
  by_cases h : (s.istream.bytesRead + 1) % 2 ^ 32 > s.istream.bufSize
  · simp only [Proc.bind_assoc, Proc.get_bind_apply, Proc.failIf_bind_pos h]
  · simp only [Proc.bind_assoc, Proc.get_bind_apply, Proc.failIf_bind_neg h,
      Proc.modify_bind_apply, Proc.pure_bind_apply, slice_one, convertEndianness_singleton]

section Field

variable {host inp : TbEndian} {f : TbField} {size base : Nat} {tagValid : UInt8 → Bool}

theorem decodeField_eq_readField (hf : f.WellFormed size) (one : Nat → Decode Unit) :
    decodeField host inp f tagValid base (fun n => Proc.forUpTo n one) =
      readField host inp f tagValid base fun n => Proc.forUpTo n one := by
  funext s
  unfold decodeField readField TbField.present
  cases hft : f.fieldType with
  | none => exact absurd hf.fieldType_isSome (by simp [hft])
  | some r =>
    cases r with
    | required =>
      have hsend : ¬ f.sendsSize = true := by simp [TbField.sendsSize, TbField.hasSize, hft]
      rw [Proc.when_neg hsend, Proc.pure_bind_apply, Proc.get_bind_apply,
        Proc.failIf_bind_neg (by simp [TbField.Valid, hft])]
    | fixedRepeated =>
      have hsend : ¬ f.sendsSize = true := by simp [TbField.sendsSize, TbField.hasSize, hft]
      rw [Proc.when_neg hsend, Proc.pure_bind_apply, Proc.get_bind_apply,
        Proc.failIf_bind_neg (by simp [TbField.Valid, hft])]
    | optional =>
      have hsend : f.sendsSize = true := by
        simp [TbField.sendsSize, TbField.hasSize, TbField.continuesOneof, hft]
      rw [Proc.when_pos hsend]
      simp only [TbField.sizeValue, hf.flag_size (.inl hft), readNumber_one,
        readLittleEndian_flag, Proc.bind_assoc, Proc.when_forUpTo_one, ne_eq, ← UInt8.toNat_inj]
      refine congrFun (congrArg _ (funext fun _ => congrArg _ (funext fun _ => ?_))) s
      funext t
      rw [Proc.get_bind_apply, Proc.get_bind_apply,
        Proc.failIf_bind_neg (by simp [TbField.Valid, hft])]
      rfl
    | repeated =>
      have hsend : f.sendsSize = true := by
        simp [TbField.sendsSize, TbField.hasSize, TbField.continuesOneof, hft]
      have hcount := hf.count_size hft
      simp only [List.mem_cons, List.not_mem_nil, or_false] at hcount
      dsimp only
      rw [Proc.when_pos hsend, Proc.failIf_bind_neg (by omega)]
      refine congrFun (congrArg _ (funext fun _ => congrArg _ (funext fun t => ?_))) s
      rw [Proc.failIf_congr (q := ¬ f.Valid host t.dst tagValid base)
        (by simp [TbField.Valid, TbField.sizeValue, hft])]
      rfl
    | oneof =>
      dsimp only
      simp only [TbField.sizeValue, hf.flag_size (.inr hft), readNumber_one,
        readLittleEndian_flag, Proc.when_forUpTo_one, ← UInt8.toNat_inj]
      refine congrFun ?_ s
      by_cases hfirst : f.oneofFirst = true
      · have hsend : f.sendsSize = true := by
          simp [TbField.sendsSize, TbField.hasSize, TbField.continuesOneof, hft, hfirst]
        rw [Proc.when_pos hfirst, Proc.when_pos hsend]
        refine congrArg _ (funext fun _ => congrArg _ (funext fun t => ?_))
        rw [Proc.when_pos hfirst, Proc.failIf_congr (q := ¬ f.Valid host t.dst tagValid base)
          (by simp [TbField.Valid, hft, hfirst])]
      · have hsend : ¬ f.sendsSize = true := by
          simp [TbField.sendsSize, TbField.hasSize, TbField.continuesOneof, hft, hfirst]
        rw [Proc.when_neg hfirst, Proc.when_neg hsend]
        refine congrArg _ (funext fun _ => congrArg _ (funext fun t => funext fun t' => ?_))
        rw [Proc.when_neg hfirst, Proc.failIf_bind_neg (by simp [TbField.Valid, hft, hfirst])]
        rfl

end Field

/-! ## The input stream -/

/-- A buffer is an object of the target, so smaller than 2^31 bytes. -/
structure TbIstream.Sized (i : TbIstream) : Prop where
  read_le : i.bytesRead ≤ i.bufSize
  size_lt : i.bufSize < 2 ^ 31

/-- The unread input starts with `d`. -/
def TbIstream.Starts (i : TbIstream) (d : List UInt8) : Prop :=
  i.bytesRead + d.length ≤ i.bufSize ∧ slice i.buf i.bytesRead d.length = d

def TbIstream.skip (i : TbIstream) (n : Nat) : TbIstream := { i with bytesRead := i.bytesRead + n }

/-- From `s` to `t` exactly the bytes `d` were read. -/
structure Consumes (s t : DecodeState) (d : List UInt8) : Prop where
  starts : s.istream.Starts d
  istream_eq : t.istream = s.istream.skip d.length

theorem Consumes.nil {s : DecodeState} (hs : s.istream.Sized) : Consumes s s [] :=
  ⟨⟨hs.read_le, rfl⟩, rfl⟩

theorem Consumes.sized {s t : DecodeState} {d : List UInt8} (h : Consumes s t d)
    (hs : s.istream.Sized) : t.istream.Sized := by
  rw [h.istream_eq]
  exact ⟨h.starts.1, hs.size_lt⟩

theorem starts_append {i : TbIstream} {d e : List UInt8} :
    i.Starts (d ++ e) ↔ i.Starts d ∧ (i.skip d.length).Starts e := by
  unfold TbIstream.Starts TbIstream.skip
  simp only [List.length_append, slice_add]
  constructor
  · rintro ⟨hle, heq⟩
    obtain ⟨h1, h2⟩ := List.append_inj heq (by simp)
    exact ⟨⟨by omega, h1⟩, by omega, h2⟩
  · rintro ⟨⟨-, h1⟩, hle, h2⟩
    exact ⟨by omega, by rw [h1, h2]⟩

theorem Consumes.trans {s t u : DecodeState} {d e : List UInt8} (h1 : Consumes s t d)
    (h2 : Consumes t u e) : Consumes s u (d ++ e) := by
  have hstarts := h2.starts
  rw [h1.istream_eq] at hstarts
  refine ⟨starts_append.mpr ⟨h1.starts, hstarts⟩, ?_⟩
  rw [h2.istream_eq, h1.istream_eq, List.length_append]
  simp [TbIstream.skip, Nat.add_assoc]

/-- The state behind a number of `n` bytes read to address `p`. -/
def DecodeState.readInto (host inp : TbEndian) (s : DecodeState) (p n : Nat) : DecodeState :=
  { istream := s.istream.skip n
    dst := overwrite s.dst p
      (convertEndianness host (slice s.istream.buf s.istream.bytesRead n) inp)
    reads := (List.range n).map (s.istream.bytesRead + ·) ++ s.reads
    writes := (List.range n).map (p + ·) ++ s.writes }

/-- Reading one number: all of it, or nothing when the input is too short. -/
theorem readNumberInto_eq (host inp : TbEndian) {s : DecodeState} (hs : s.istream.Sized)
    (p : Nat) {n : Nat} (hn : n < 2 ^ 31) :
    (tbReadFromIstream n >>= fun tmp => storeBytes p (convertEndianness host tmp inp)) s =
      if s.istream.bytesRead + n ≤ s.istream.bufSize then (.ok (), s.readInto host inp p n)
      else (.error (), s) := by
  have hle := hs.read_le
  have hlt := hs.size_lt
  unfold tbReadFromIstream
  rw [Proc.bind_assoc, Proc.get_bind_apply, Proc.bind_assoc]
  by_cases h : s.istream.bytesRead + n ≤ s.istream.bufSize
  · rw [if_pos h, Proc.failIf_bind_neg (by rw [Nat.mod_eq_of_lt (by omega)]; omega)]
    simp [Proc.bind_assoc, storeBytes, DecodeState.readInto, TbIstream.skip]
  · rw [if_neg h, Proc.failIf_bind_pos (by rw [Nat.mod_eq_of_lt (by omega)]; omega)]

theorem readInto_dst {host inp : TbEndian} {s : DecodeState} {p n : Nat} :
    convertEndianness host (slice (s.readInto host inp p n).dst p n) inp =
      slice s.istream.buf s.istream.bytesRead n := by
  have h := slice_overwrite s.dst p
    (convertEndianness host (slice s.istream.buf s.istream.bytesRead n) inp)
  rw [convertEndianness_length, slice_length] at h
  change convertEndianness host (slice (overwrite _ _ _) p n) inp = _
  rw [h, convertEndianness_twice]

/-- The address `a` is one of the `n` from `p` on. -/
def InRange (p n a : Nat) : Prop := p ≤ a ∧ a < p + n

theorem readInto_frame {host inp : TbEndian} {s : DecodeState} {p n a : Nat}
    (h : ¬ InRange p n a) : (s.readInto host inp p n).dst a = s.dst a := by
  change overwrite _ _ _ a = _
  by_cases ha : a < p
  · exact overwrite_of_lt _ _ ha
  · refine overwrite_of_ge _ _ ?_
    rw [convertEndianness_length, slice_length]
    unfold InRange at h
    omega

/-! ## Soundness -/

/-- When `x` succeeds it has read the encoding of what is then in memory, and
has written nothing outside `wr`. -/
def Sound (x : Decode Unit) (enc : Memory → List UInt8) (valid : Memory → Prop)
    (wr : Memory → Nat → Prop) : Prop :=
  ∀ s t, s.istream.Sized → x s = (.ok (), t) →
    Consumes s t (enc t.dst) ∧ valid t.dst ∧ ∀ a, ¬ wr t.dst a → t.dst a = s.dst a

theorem Sound.nil : Sound (pure ()) (fun _ => []) (fun _ => True) (fun _ _ => False) := by
  intro s t hs h
  cases h
  exact ⟨Consumes.nil hs, trivial, fun _ _ => rfl⟩

/-- What `x` has read stays as it is when `y` writes elsewhere. -/
theorem Sound.bind {x y : Decode Unit} {e₁ e₂ : Memory → List UInt8} {v₁ v₂ : Memory → Prop}
    {w₁ w₂ : Memory → Nat → Prop} (hx : Sound x e₁ v₁ w₁) (hy : Sound y e₂ v₂ w₂)
    (hstable : ∀ m m', v₁ m → v₂ m' → (∀ a, ¬ w₂ m' a → m' a = m a) →
      e₁ m' = e₁ m ∧ v₁ m' ∧ ∀ a, w₁ m a → w₁ m' a ∨ w₂ m' a) :
    Sound (x >>= fun _ => y) (fun m => e₁ m ++ e₂ m) (fun m => v₁ m ∧ v₂ m)
      (fun m a => w₁ m a ∨ w₂ m a) := by
  intro s u hs h
  obtain ⟨_, t, hxt, hyu⟩ := Proc.bind_eq_ok.mp h
  obtain ⟨hc₁, hv₁, hw₁⟩ := hx s t hs hxt
  obtain ⟨hc₂, hv₂, hw₂⟩ := hy t u (hc₁.sized hs) hyu
  obtain ⟨he, hv, hw⟩ := hstable t.dst u.dst hv₁ hv₂ hw₂
  refine ⟨?_, ⟨hv, hv₂⟩, fun a ha => ?_⟩
  · dsimp only
    rw [he]
    exact hc₁.trans hc₂
  · rw [hw₂ a fun h => ha (.inr h), hw₁ a fun h => ha (hw a h)]

/-- A loop over entries that lie one behind the other. -/
theorem Sound.forUpTo {one : Nat → Decode Unit} {enc : Memory → Nat → List UInt8}
    {valid : Memory → Nat → Prop} {p n c : Nat}
    (hone : ∀ k < c, Sound (one k) (fun m => enc m k) (fun m => valid m k)
      (fun _ => InRange (p + k * n) n))
    (hlocal : ∀ k < c, ∀ m m', (∀ a, InRange (p + k * n) n a → m' a = m a) → valid m k →
      enc m' k = enc m k ∧ valid m' k) :
    Sound (Proc.forUpTo c one) (fun m => (List.range c).flatMap (enc m))
      (fun m => ∀ k < c, valid m k) (fun _ => InRange p (c * n)) := by
  induction c with
  | zero =>
    intro s t hs h
    cases h
    exact ⟨Consumes.nil hs, fun k hk => absurd hk (Nat.not_lt_zero k), fun _ _ => rfl⟩
  | succ c ih =>
    have hfirst := ih (fun k hk => hone k (by omega)) (fun k hk => hlocal k (by omega))
    have hboth := hfirst.bind (hone c (by omega)) (by
      intro m m' hv _ hframe
      have hkeep : ∀ k < c, ∀ a, InRange (p + k * n) n a → m' a = m a := by
        intro k hk a ha
        apply hframe
        have hkn : k * n + n ≤ c * n := by
          rw [← Nat.succ_mul]
          exact Nat.mul_le_mul_right n hk
        unfold InRange at ha ⊢
        omega
      have hloc := fun k (hk : k < c) => hlocal k (by omega) m m' (hkeep k hk) (hv k hk)
      exact ⟨flatMap_range_congr fun k hk => (hloc k hk).1, fun k hk => (hloc k hk).2,
        fun a ha => .inl ha⟩)
    intro s t hs h
    obtain ⟨hc, ⟨hv, hvc⟩, hw⟩ := hboth s t hs h
    refine ⟨?_, fun k hk => ?_, fun a ha => hw a ?_⟩
    · dsimp only
      rw [List.range_succ, List.flatMap_append, List.flatMap_singleton]
      exact hc
    · rcases Nat.lt_succ_iff_lt_or_eq.mp hk with hk | rfl
      · exact hv k hk
      · exact hvc
    · unfold InRange at ha ⊢
      rw [Nat.succ_mul] at ha
      omega

/-- The addresses written when the field ends with the values in `m`. -/
def TbField.Writes (host : TbEndian) (m : Memory) (f : TbField) (base a : Nat) : Prop :=
  (f.sendsSize ∧ InRange (f.sizePtr base) f.sizeSize a) ∨
  (0 < f.present host m base ∧ InRange (f.dataPtr base) (f.room * f.dataSize) a)

theorem readHead_sound {host inp : TbEndian} {f : TbField} {size base : Nat}
    (hf : f.WellFormed size) :
    Sound (Proc.when (f.sendsSize = true)
        (tbReadFromIstreamLittleEndian host (f.sizePtr base) f.sizeSize 1 inp))
      (fun m => f.head host m inp base) (fun _ => True)
      (fun _ a => f.sendsSize ∧ InRange (f.sizePtr base) f.sizeSize a) := by
  intro s t hs h
  by_cases hsend : f.sendsSize = true
  · rw [Proc.when_pos hsend, readLittleEndian_eq, readNumberInto_eq host inp hs _
      (hf.sizeSize_lt hsend)] at h
    split at h
    · rename_i hle
      cases h
      refine ⟨⟨?_, ?_⟩, trivial, fun a ha => readInto_frame fun h => ha ⟨hsend, h⟩⟩
      · dsimp only
        rw [TbField.head, if_pos hsend, readInto_dst]
        exact ⟨by rw [slice_length]; exact hle, by rw [slice_length]⟩
      · dsimp only
        rw [TbField.head, if_pos hsend, readInto_dst, slice_length]
        rfl
    · cases h
  · rw [Proc.when_neg hsend] at h
    cases h
    refine ⟨?_, trivial, fun _ _ => rfl⟩
    dsimp only
    rw [TbField.head, if_neg hsend]
    exact Consumes.nil hs

theorem room_mul {f : TbField} {host : TbEndian} {m : Memory} {tagValid : UInt8 → Bool}
    {base : Nat} (hv : f.Valid host m tagValid base) :
    f.present host m base * f.dataSize ≤ f.room * f.dataSize :=
  Nat.mul_le_mul_right _ hv.present_le

/-- The field's flag, count or tag lies apart from its data. -/
theorem TbField.WellFormed.not_inRange {f : TbField} {size base a n : Nat}
    (hf : f.WellFormed size) (hs : f.hasSize) (ha : InRange (f.sizePtr base) f.sizeSize a)
    (hn : n ≤ f.room * f.dataSize) : ¬ InRange (f.dataPtr base) n a := by
  have hap := hf.size_apart hs
  rw [hf.sizePtr_eq hs] at ha
  unfold InRange TbField.dataPtr Apart at *
  omega

theorem readField_sound (host inp : TbEndian) {f : TbField} {size base : Nat}
    (tagValid : UInt8 → Bool) {one : Nat → Decode Unit} {enc : Memory → Nat → List UInt8}
    {valid : Memory → Nat → Prop} (hf : f.WellFormed size)
    (hone : ∀ k, Sound (one k) (fun m => enc m k) (fun m => valid m k)
      (fun _ => InRange (f.dataPtr base + k * f.dataSize) f.dataSize))
    (hlocal : ∀ k m m', (∀ a, InRange (f.dataPtr base + k * f.dataSize) f.dataSize a →
      m' a = m a) → valid m k → enc m' k = enc m k ∧ valid m' k) :
    Sound (readField host inp f tagValid base fun n => Proc.forUpTo n one)
      (fun m => f.head host m inp base ++
        (List.range (f.present host m base)).flatMap (enc m))
      (fun m => f.Valid host m tagValid base ∧ ∀ k < f.present host m base, valid m k)
      (fun m => f.Writes host m base) := by
  intro s u hs h
  obtain ⟨_, t, hhead, h⟩ := Proc.bind_eq_ok.mp h
  rw [Proc.get_bind_apply] at h
  obtain ⟨_, _, hcheck, hentries⟩ := Proc.bind_eq_ok.mp h
  obtain ⟨hv, rfl⟩ := Proc.failIf_eq_ok.mp hcheck
  rw [not_not] at hv
  obtain ⟨hc₁, -, hw₁⟩ := readHead_sound hf s _ hs hhead
  obtain ⟨hc₂, hv₂, hw₂⟩ := Sound.forUpTo (fun k _ => hone k) (fun k _ => hlocal k) _ u
    (hc₁.sized hs) hentries
  have hsize : f.hasSize → f.sizeValue host u.dst base = f.sizeValue host _ base := fun hs =>
    sizeValue_congr fun x hx hx' => hw₂ x (hf.not_inRange hs ⟨hx, hx'⟩ (room_mul hv))
  have hp := present_congr hsize
  refine ⟨?_, ⟨hv.congr hf fun h => (hsize h).symm, ?_⟩, fun a ha => ?_⟩
  · dsimp only
    rw [head_congr inp hsize, hp]
    exact hc₁.trans hc₂
  · rw [hp]
    exact hv₂
  · dsimp only [TbField.Writes] at ha
    rw [hp] at ha
    rw [hw₂ a ?_, hw₁ a fun h => ha (.inl h)]
    intro hr
    have hle := room_mul hv
    refine ha (.inr ⟨?_, ?_⟩)
    · rcases Nat.eq_zero_or_pos (f.present host _ base) with h0 | hpos
      · rw [h0] at hr
        unfold InRange at hr
        omega
      · exact hpos
    · unfold InRange at hr ⊢
      omega

/-! ## Arrays of fields -/

section Arrays

variable {host : TbEndian} {m m' : Memory}

/-- The addresses written when the array ends with the values in `m`. -/
def Fields.Writes (host : TbEndian) (m : Memory) : Fields → Nat → Nat → Prop
  | .last, _, _ => False
  | .entry f _ next, base, a => f.Writes host m base a ∨ next.Writes host m base a

/-- All that a description refers to lies inside the structure. -/
theorem Fields.Writes.inRange (fields : Fields) : ∀ {size base a : Nat}, fields.Describes size →
    fields.Writes host m base a → InRange base size a := by
  induction fields with
  | last => intro _ _ _ _ h; cases h
  | entry f ptr next _ ihn =>
    rintro size base a ⟨hf, -, -, -, hdn⟩ h
    rcases h with (⟨hsend, hr⟩ | ⟨-, hr⟩) | h
    · have hs := hasSize_of_sendsSize hsend
      have hfit := (hf.size_fits hs).2
      rw [hf.sizePtr_eq hs] at hr
      unfold InRange at hr ⊢
      omega
    · have hfit := hf.data_fits
      unfold InRange TbField.dataPtr at *
      omega
    · exact ihn hdn h

/-- A field is read from the bytes of its flag, count or tag and of its data. -/
theorem TbField.sizeValue_local {f : TbField} {size base : Nat} (hf : f.WellFormed size)
    (h : ∀ a, InRange base size a → m' a = m a) (hs : f.hasSize) :
    f.sizeValue host m' base = f.sizeValue host m base := by
  apply sizeValue_congr
  intro x hx hx'
  have hfit := (hf.size_fits hs).2
  rw [hf.sizePtr_eq hs] at hx hx'
  exact h x (by unfold InRange; omega)

/-- Entry `k` of a field with room for it lies inside the structure. -/
theorem TbField.entry_inRange {f : TbField} {size base k a : Nat} (hf : f.WellFormed size)
    (hk : k < f.room) (ha : InRange (f.dataPtr base + k * f.dataSize) f.dataSize a) :
    InRange base size a := by
  have hfit := hf.data_fits
  have hkn : k * f.dataSize + f.dataSize ≤ f.room * f.dataSize := by
    rw [← Nat.succ_mul]
    exact Nat.mul_le_mul_right _ hk
  unfold InRange TbField.dataPtr at *
  omega

/-- Validity and encoding of a structure depend on its own bytes only. -/
theorem Fields.local (fields : Fields) : ∀ {size base : Nat}, fields.Describes size →
    (∀ a, InRange base size a → m' a = m a) → fields.Valid host m base →
      fields.Valid host m' base ∧
      ∀ out, fields.encoding host m' out base = fields.encoding host m out base := by
  induction fields with
  | last => exact fun _ _ _ => ⟨trivial, fun _ => rfl⟩
  | entry f ptr next ihp ihn =>
    rintro size base ⟨hf, hptr, -, -, hdn⟩ h ⟨hvf, hvp, hvn⟩
    have hsize : f.hasSize → f.sizeValue host m' base = f.sizeValue host m base :=
      TbField.sizeValue_local hf h
    have hp := present_congr hsize
    have hsub : ∀ k < f.present host m base, ∀ a,
        InRange (f.dataPtr base + k * f.dataSize) f.dataSize a → m' a = m a := fun k hk a ha =>
      h a (TbField.entry_inRange hf (Nat.lt_of_lt_of_le hk hvf.present_le) ha)
    obtain ⟨hvn', hen⟩ := ihn hdn h hvn
    refine ⟨⟨hvf.congr hf fun hs => (hsize hs).symm, fun hm k hk => ?_, hvn'⟩, fun out => ?_⟩
    · rw [hp] at hk
      exact (ihp (hptr hm).1 (hsub k hk) (hvp hm k hk)).1
    · unfold Fields.encoding
      rw [head_congr out hsize, hp, hen]
      congr 2
      apply flatMap_range_congr
      intro k hk
      by_cases hm : f.dataKind = some .message
      · rw [if_pos hm, if_pos hm]
        exact (ihp (hptr hm).1 (hsub k hk) (hvp hm k hk)).2 out
      · rw [if_neg hm, if_neg hm]
        rw [slice_congr fun x hx hx' => hsub k hk x ⟨hx, hx'⟩]

/-- What a field holds is not written by the entries behind it: other members lie
apart, and of a oneof group only the alternative that the tag names is written. -/
theorem not_writes_of_follows {f : TbField} {size base a : Nat} (hf : f.WellFormed size)
    (ha : (f.hasSize ∧ InRange (f.sizePtr base) f.sizeSize a) ∨
      (0 < f.present host m base ∧ InRange (f.dataPtr base) (f.room * f.dataSize) a))
    (next : Fields) : ∀ {group : Bool}, (group = true → f.fieldType = some .oneof) →
      next.Describes size → Follows f group next → ¬ next.Writes host m base a := by
  induction next with
  | last => exact fun _ _ _ h => h
  | entry g ptr next _ ihn =>
    rintro group hgroup ⟨hg, -, -, -, hdn⟩ hfollows hw
    unfold Follows at hfollows
    by_cases hmate : (group && g.continuesOneof) = true
    · rw [if_pos hmate] at hfollows
      obtain ⟨halt, hrest⟩ := hfollows
      rw [Bool.and_eq_true] at hmate
      have hof := hgroup hmate.1
      obtain ⟨hog, hnot⟩ := oneof_of_continuesOneof hmate.2
      have hsg := hasSize_of_oneof hog
      rcases hw with (⟨hsend, -⟩ | ⟨hpos, hr⟩) | hw
      · simp [TbField.sendsSize, hmate.2] at hsend
      · rcases ha with ⟨-, ha⟩ | ⟨hpos', -⟩
        · rw [← halt.sizePtr_eq hf hg hof hog, hf.flag_size (.inr hof),
            ← hg.flag_size (.inr hog)] at ha
          exact hg.not_inRange hsg ha (Nat.le_refl _) hr
        · have hvf := (present_pos_iff hof).mp hpos'
          have hvg := (present_pos_iff hog).mp hpos
          rw [halt.sizeValue_eq hf hg hof hog, hvf] at hvg
          exact halt.tag_ne (UInt8.toNat_inj.mp hvg)
      · exact ihn (fun _ => hof) hdn hrest hw
    · rw [if_neg hmate] at hfollows
      obtain ⟨hsep, hrest⟩ := hfollows
      rcases hw with (⟨hsend, hr⟩ | ⟨-, hr⟩) | hw
      · have hsg := hasSize_of_sendsSize hsend
        rw [hg.sizePtr_eq hsg] at hr
        rcases ha with ⟨hsf, ha⟩ | ⟨-, ha⟩
        · have h := hsep.size_size hsf hsg
          rw [hf.sizePtr_eq hsf] at ha
          unfold Apart InRange at *
          omega
        · have h := hsep.data_size hsg
          unfold Apart InRange TbField.dataPtr at *
          omega
      · rcases ha with ⟨hsf, ha⟩ | ⟨-, ha⟩
        · have h := hsep.size_data hsf
          rw [hf.sizePtr_eq hsf] at ha
          unfold Apart InRange TbField.dataPtr at *
          omega
        · have h := hsep.data_data
          unfold Apart InRange TbField.dataPtr at *
          omega
      · exact ihn (fun h => by cases h) hdn hrest hw

end Arrays

theorem readNumber_sound {host inp : TbEndian} {p n : Nat} (hn : n < 2 ^ 31) :
    Sound (tbReadFromIstream n >>= fun tmp => storeBytes p (convertEndianness host tmp inp))
      (fun m => convertEndianness host (slice m p n) inp) (fun _ => True)
      (fun _ => InRange p n) := by
  intro s t hs h
  rw [readNumberInto_eq host inp hs p hn] at h
  split at h
  · rename_i hle
    cases h
    dsimp only
    rw [readInto_dst]
    refine ⟨⟨⟨?_, ?_⟩, ?_⟩, trivial, fun a ha => readInto_frame ha⟩
    · rw [slice_length]
      exact hle
    · rw [slice_length]
    · rw [slice_length]
      rfl
  · cases h

/-- The entry reader of a field, number or message. -/
def readEntry (host inp : TbEndian) (f : TbField) (ptr : Fields) (base k : Nat) : Decode Unit :=
  if f.dataKind = some .message then tbDecode host inp ptr (f.dataPtr base + k * f.dataSize)
  else do
    let tmp ← tbReadFromIstream f.dataSize
    storeBytes (f.dataPtr base + k * f.dataSize) (convertEndianness host tmp inp)

/-- One turn of the `tb_decode` loop. -/
theorem tbDecode_entry (host inp : TbEndian) {f : TbField} {ptr next : Fields} {size base : Nat}
    (hf : f.WellFormed size) :
    tbDecode host inp (.entry f ptr next) base =
      (readField host inp f (checkOneofWhichTagValidity (.entry f ptr next)) base
        (fun n => Proc.forUpTo n (readEntry host inp f ptr base)) >>= fun _ =>
      tbDecode host inp next base) := by
  rw [tbDecode]
  congr 1
  cases hkind : f.dataKind with
  | none => exact absurd hf.dataKind_isSome (by simp [hkind])
  | some kind =>
    have hread : ∀ k, readEntry host inp f ptr base k = if some kind = some .message then
        tbDecode host inp ptr (f.dataPtr base + k * f.dataSize)
      else (tbReadFromIstream f.dataSize >>= fun tmp =>
        storeBytes (f.dataPtr base + k * f.dataSize) (convertEndianness host tmp inp)) := by
      intro k
      rw [← hkind]
      rfl
    rw [← decodeField_eq_readField hf, funext hread]
    cases kind with
    | number => rw [mod_dataSize hf hkind]; rfl
    | message => rfl

/-- The encoding of entry `k` of a field. -/
def entryEncoding (host out : TbEndian) (f : TbField) (ptr : Fields) (base : Nat) (m : Memory)
    (k : Nat) : List UInt8 :=
  if f.dataKind = some .message then ptr.encoding host m out (f.dataPtr base + k * f.dataSize)
  else convertEndianness host (slice m (f.dataPtr base + k * f.dataSize) f.dataSize) out

/-- Entry `k` of a field can be encoded. -/
def EntryValid (host : TbEndian) (f : TbField) (ptr : Fields) (base : Nat) (m : Memory)
    (k : Nat) : Prop :=
  f.dataKind = some .message → ptr.Valid host m (f.dataPtr base + k * f.dataSize)

section Entry

variable {host inp : TbEndian} {f : TbField} {ptr : Fields} {size base : Nat}

theorem readEntry_sound (base : Nat) (hf : f.WellFormed size)
    (hptr : f.dataKind = some .message → ptr.Describes f.dataSize)
    (ih : ∀ {size base : Nat}, ptr.Describes size →
      Sound (tbDecode host inp ptr base) (fun m => ptr.encoding host m inp base)
        (fun m => ptr.Valid host m base) (fun m => ptr.Writes host m base)) (k : Nat) :
    Sound (readEntry host inp f ptr base k) (fun m => entryEncoding host inp f ptr base m k)
      (fun m => EntryValid host f ptr base m k)
      (fun _ => InRange (f.dataPtr base + k * f.dataSize) f.dataSize) := by
  intro s t hs h
  unfold readEntry at h
  dsimp only [entryEncoding]
  by_cases hm : f.dataKind = some .message
  · rw [if_pos hm] at h
    obtain ⟨hc, hv, hw⟩ := ih (hptr hm) s t hs h
    rw [if_pos hm]
    exact ⟨hc, fun _ => hv, fun a ha => hw a fun h => ha (h.inRange ptr (hptr hm))⟩
  · rw [if_neg hm] at h
    obtain ⟨hc, -, hw⟩ :=
      readNumber_sound (numberSize_lt hf (number_of_not_message hf hm)) s t hs h
    rw [if_neg hm]
    exact ⟨hc, fun h => absurd h hm, hw⟩

theorem entry_local (hptr : f.dataKind = some .message → ptr.Describes f.dataSize) (k : Nat)
    (m m' : Memory)
    (hagree : ∀ a, InRange (f.dataPtr base + k * f.dataSize) f.dataSize a → m' a = m a)
    (hv : EntryValid host f ptr base m k) :
    entryEncoding host inp f ptr base m' k = entryEncoding host inp f ptr base m k ∧
      EntryValid host f ptr base m' k := by
  unfold entryEncoding
  by_cases hm : f.dataKind = some .message
  · obtain ⟨hv', he⟩ := ptr.local (hptr hm) hagree (hv hm)
    rw [if_pos hm, if_pos hm]
    exact ⟨he inp, fun _ => hv'⟩
  · rw [if_neg hm, if_neg hm, slice_congr fun x hx hx' => hagree x ⟨hx, hx'⟩]
    exact ⟨rfl, fun h => absurd h hm⟩

/-- What was read of a field is still there when the entries behind it are read. -/
theorem field_stable {next : Fields} {tagValid : UInt8 → Bool} {m m' : Memory}
    (hf : f.WellFormed size)
    (hptr : f.dataKind = some .message → ptr.Describes f.dataSize)
    (hfollows : Follows f (f.fieldType = some .oneof) next) (hdn : next.Describes size)
    (hv : f.Valid host m tagValid base)
    (hve : ∀ k < f.present host m base, EntryValid host f ptr base m k)
    (hframe : ∀ a, ¬ next.Writes host m' base a → m' a = m a) :
    (f.hasSize → f.sizeValue host m' base = f.sizeValue host m base) ∧
    ∀ k < f.present host m base,
      entryEncoding host inp f ptr base m' k = entryEncoding host inp f ptr base m k ∧
      EntryValid host f ptr base m' k := by
  have hkeep : ∀ a, ((f.hasSize ∧ InRange (f.sizePtr base) f.sizeSize a) ∨
      (0 < f.present host m' base ∧ InRange (f.dataPtr base) (f.room * f.dataSize) a)) →
      m' a = m a := fun a ha =>
    hframe a (not_writes_of_follows hf ha next (by simp) hdn hfollows)
  have hsize : f.hasSize → f.sizeValue host m' base = f.sizeValue host m base := fun hs =>
    sizeValue_congr fun x hx hx' => hkeep x (.inl ⟨hs, hx, hx'⟩)
  refine ⟨hsize, fun k hk => entry_local hptr k m m' (fun a ha => ?_) (hve k hk)⟩
  have hp := present_congr hsize
  have hroom : k * f.dataSize + f.dataSize ≤ f.room * f.dataSize := by
    rw [← Nat.succ_mul]
    exact Nat.mul_le_mul_right _ (Nat.lt_of_lt_of_le hk hv.present_le)
  refine hkeep a (.inr ⟨by omega, ?_⟩)
  unfold InRange at ha ⊢
  omega

end Entry

/-- What `tb_decode` accepts is the encoding of the structure it leaves in memory. -/
theorem tbDecode_sound (host inp : TbEndian) (fields : Fields) :
    ∀ {size base : Nat}, fields.Describes size →
      Sound (tbDecode host inp fields base) (fun m => fields.encoding host m inp base)
        (fun m => fields.Valid host m base) (fun m => fields.Writes host m base) := by
  induction fields with
  | last => exact fun _ => Sound.nil
  | entry f ptr next ihp ihn =>
    rintro size base ⟨hf, hptr, hfollows, -, hdn⟩
    have hdp := fun hm => (hptr hm).1
    have hfield := readField_sound host inp (checkOneofWhichTagValidity (.entry f ptr next)) hf
      (readEntry_sound base hf hdp ihp) (entry_local hdp)
    have hboth := hfield.bind (ihn hdn) (by
      rintro m m' ⟨hv, hve⟩ - hframe
      obtain ⟨hsize, hloc⟩ := field_stable hf hdp hfollows hdn hv hve hframe
      have hp := present_congr hsize
      refine ⟨?_, ⟨hv.congr hf fun h => (hsize h).symm, ?_⟩, fun a ha => .inl ?_⟩
      · rw [head_congr inp hsize, hp, flatMap_range_congr fun k hk => (hloc k hk).1]
      · rw [hp]
        exact fun k hk => (hloc k hk).2
      · unfold TbField.Writes at ha ⊢
        rwa [hp])
    rw [tbDecode_entry host inp hf]
    intro s t hs h
    obtain ⟨hc, ⟨⟨hv, hve⟩, hvn⟩, hw⟩ := hboth s t hs h
    exact ⟨hc, ⟨hv, fun hm k hk => hve k hk hm, hvn⟩, hw⟩

end OpenBadge.Tinybuf
