import OpenBadge.Tinybuf.Decode
import OpenBadge.Tinybuf.Members

/-!
# What `tb_decode` reads with a generated table

`Reads x pre w P H R` says which values a decoder step accepts: the input begins with the
bytes of a value with `P`, which memory then holds, with nothing written outside `R`.
-/

namespace OpenBadge.Tinybuf

open OpenBadge.Lib

/-! ## Readers -/

/-- From `s` to `t` the bytes `d` have been read, `H` has been established, and nothing has
been written outside `R`. -/
structure Delivers (d : List UInt8) (H : Memory → Prop) (R : Nat → Prop) (s t : DecodeState) :
    Prop where
  consumes : Consumes s t d
  holds : H t.dst
  frame : ∀ q, ¬ R q → t.dst q = s.dst q

structure Reads {α : Type} (x : Decode Unit) (pre : Memory → Prop) (w : α → List UInt8)
    (P : α → Prop) (H : Memory → α → Prop) (R : Nat → Prop) : Prop where
  sound : ∀ {s t}, s.istream.Sized → pre s.dst → x s = (.ok (), t) →
    ∃ a, P a ∧ Delivers (w a) (H · a) R s t
  complete : ∀ {s a}, s.istream.Sized → pre s.dst → P a → s.istream.Starts (w a) →
    ∃ t, x s = (.ok (), t) ∧ Delivers (w a) (H · a) R s t

section Readers

variable {α β γ : Type} {x y : Decode Unit} {pre : Memory → Prop} {w : α → List UInt8}
  {P : α → Prop} {H : Memory → α → Prop} {R S : Nat → Prop}

/-- The reader of nothing. -/
theorem Reads.nil (a : α) (R : Nat → Prop) (hP : ∀ b, P b ↔ b = a) (hw : w a = [])
    (hH : ∀ m, pre m → H m a) : Reads (pure ()) pre w P H R where
  sound hs hpre h := by
    cases h
    refine ⟨a, (hP a).mpr rfl, ?_, hH _ hpre, fun _ _ => rfl⟩
    rw [hw]
    exact Consumes.nil hs
  complete {s b} hs hpre hb _ := by
    obtain rfl := (hP b).mp hb
    refine ⟨s, rfl, ?_, hH _ hpre, fun _ _ => rfl⟩
    rw [hw]
    exact Consumes.nil hs

theorem Reads.weaken (h : Reads x pre w P H R) {pre' : Memory → Prop} (hpre : ∀ m, pre' m → pre m)
    (hR : ∀ q, R q → S q) : Reads x pre' w P H S where
  sound hs hm hx := by
    obtain ⟨a, ha, hc, hH, hf⟩ := h.sound hs (hpre _ hm) hx
    exact ⟨a, ha, hc, hH, fun q hq => hf q fun hr => hq (hR q hr)⟩
  complete hs hm ha hstarts := by
    obtain ⟨t, hx, hc, hH, hf⟩ := h.complete hs (hpre _ hm) ha hstarts
    exact ⟨t, hx, hc, hH, fun q hq => hf q fun hr => hq (hR q hr)⟩

/-- The same reader with other names `r` for its values. -/
theorem Reads.transfer (h : Reads x pre w P H R) {v : β → List UInt8} {Q : β → Prop}
    {G : Memory → β → Prop} (r : α → β → Prop) (hP : ∀ a, P a → ∃ b, r a b ∧ Q b)
    (hQ : ∀ b, Q b → ∃ a, r a b ∧ P a) (hw : ∀ a b, r a b → P a → Q b → v b = w a)
    (hG : ∀ m a b, r a b → P a → Q b → (G m b ↔ H m a)) : Reads x pre v Q G R where
  sound hs hpre hx := by
    obtain ⟨a, ha, hc, hH, hf⟩ := h.sound hs hpre hx
    obtain ⟨b, hab, hb⟩ := hP a ha
    refine ⟨b, hb, ?_, (hG _ a b hab ha hb).mpr hH, hf⟩
    rw [hw a b hab ha hb]
    exact hc
  complete {s b} hs hpre hb hstarts := by
    obtain ⟨a, hab, ha⟩ := hQ b hb
    rw [hw a b hab ha hb] at hstarts ⊢
    obtain ⟨t, hx, hc, hH, hf⟩ := h.complete hs hpre ha hstarts
    exact ⟨t, hx, hc, (hG _ a b hab ha hb).mpr hH, hf⟩

/-- The second half of a pair whose first half has been read. -/
theorem Reads.pair (h : Reads x pre w P H R) (b : β) : Reads x pre (fun c : β × α => w c.2)
    (fun c => c.1 = b ∧ P c.2) (fun m c => H m c.2) R :=
  h.transfer (fun a c => c = (b, a)) (fun a ha => ⟨(b, a), rfl, rfl, ha⟩)
    (fun c hc => ⟨c.2, Prod.ext hc.1 rfl, hc.2⟩) (fun _ _ hc _ _ => by rw [hc])
    fun _ _ _ hc _ _ => by rw [hc]

/-- A reader for the first part `p` of a value, and one for the rest that leaves it alone. -/
theorem Reads.bind (h : Reads x pre w P H R) (p : γ → α) {v : γ → List UInt8} {Q : γ → Prop}
    {G : Memory → γ → Prop}
    (hy : ∀ a, P a → Reads y (fun m => H m a) v (fun c => p c = a ∧ Q c) G S)
    (hstable : ∀ a m m', P a → H m a → (∀ q, ¬ S q → m' q = m q) → H m' a) :
    Reads (x >>= fun _ => y) pre (fun c => w (p c) ++ v c) (fun c => P (p c) ∧ Q c)
      (fun m c => H m (p c) ∧ G m c) (fun q => R q ∨ S q) where
  sound {s u} hs hpre hxy := by
    obtain ⟨_, t, hx, hyt⟩ := Proc.bind_eq_ok.mp hxy
    obtain ⟨a, ha, hc, hH, hf⟩ := h.sound hs hpre hx
    obtain ⟨c, ⟨rfl, hq⟩, hc', hG, hf'⟩ := (hy a ha).sound (hc.sized hs) hH hyt
    refine ⟨c, ⟨ha, hq⟩, hc.trans hc', ⟨hstable _ _ _ ha hH hf', hG⟩, fun q hq => ?_⟩
    rw [hf' q fun h => hq (Or.inr h), hf q fun h => hq (Or.inl h)]
  complete {s c} hs hpre hcq hstarts := by
    obtain ⟨ha, hq⟩ := hcq
    obtain ⟨hfirst, hrest⟩ := starts_append.mp hstarts
    obtain ⟨t, hx, hc, hH, hf⟩ := h.complete hs hpre ha hfirst
    rw [← hc.istream_eq] at hrest
    obtain ⟨u, hyu, hc', hG, hf'⟩ := (hy _ ha).complete (hc.sized hs) hH ⟨rfl, hq⟩ hrest
    refine ⟨u, (Proc.bind_ok hx _).trans hyu, hc.trans hc', ⟨hstable _ _ _ ha hH hf', hG⟩,
      fun q hq => ?_⟩
    rw [hf' q fun h => hq (Or.inr h), hf q fun h => hq (Or.inl h)]

/-- A reader for the elements of an array. -/
theorem Reads.forUpTo {one : Nat → Decode Unit} {E : Nat → Memory → α → Prop} {a n : Nat}
    (hone : ∀ k, Reads (one k) (fun _ => True) w P (E k) (InRange (a + k * n) n))
    (hlocal : ∀ k y m m', P y → E k m y → (∀ q, InRange (a + k * n) n q → m' q = m q) →
      E k m' y) :
    ∀ c, Reads (Proc.forUpTo c one) (fun _ => True) (fun l : List α => l.flatMap w)
      (fun l => l.length = c ∧ ∀ y ∈ l, P y) (fun m l => ∀ k y, l[k]? = some y → E k m y)
      (InRange a (c * n))
  | 0 => Reads.nil [] _
      (fun l => ⟨fun h => List.eq_nil_of_length_eq_zero h.1, fun h => by simp [h]⟩) rfl
      fun _ _ k y h => by simp at h
  | c + 1 => by
    have hfirst := Reads.forUpTo hone hlocal c
    have hboth := hfirst.bind (Prod.fst : List α × α → List α)
      (fun l _ => ((hone c).weaken (fun _ _ => trivial) fun _ h => h).pair l)
      (fun l m m' ⟨hl, hall⟩ hE hkeep k y hy => by
        have hk : k < c := hl ▸ (List.getElem?_eq_some_iff.mp hy).1
        have hkn : k * n + n ≤ c * n := by
          rw [← Nat.succ_mul]
          exact Nat.mul_le_mul_right n hk
        refine hlocal k y m m' (hall y (List.mem_of_getElem? hy)) (hE k y hy) fun q hq => ?_
        refine hkeep q fun hq' => ?_
        unfold InRange at hq hq'
        omega)
    refine (hboth.transfer (fun c l => l = c.1 ++ [c.2]) ?_ ?_ ?_ ?_).weaken (fun _ h => h)
      fun q hq => ?_
    · rintro ⟨l, y⟩ ⟨⟨hl, hall⟩, hy⟩
      refine ⟨l ++ [y], rfl, by simp [hl], fun z hz => ?_⟩
      rcases List.mem_append.mp hz with hz | hz
      · exact hall z hz
      · rw [List.mem_singleton.mp hz]
        exact hy
    · intro l ⟨hl, hall⟩
      have hne : l ≠ [] := List.ne_nil_of_length_pos (by omega)
      refine ⟨(l.dropLast, l.getLast hne), (List.dropLast_append_getLast hne).symm,
        ⟨by simp [hl], fun y hy => hall y (List.dropLast_subset l hy)⟩,
        hall _ (List.getLast_mem hne)⟩
    · rintro ⟨l, y⟩ _ rfl _ _
      simp
    · rintro m ⟨l, y⟩ _ rfl ⟨⟨hl, _⟩, _⟩ _
      dsimp only at hl ⊢
      constructor
      · intro h
        refine ⟨fun k z hz => h k z ?_, h c y ?_⟩
        · rw [List.getElem?_append_left (List.getElem?_eq_some_iff.mp hz).1]
          exact hz
        · simp [← hl]
      · rintro ⟨h, hy⟩ k z hz
        by_cases hk : k < l.length
        · rw [List.getElem?_append_left hk] at hz
          exact h k z hz
        · have hlt := (List.getElem?_eq_some_iff.mp hz).1
          rw [List.length_append, List.length_singleton] at hlt
          obtain rfl : k = c := by omega
          rw [List.getElem?_append_right (by omega), hl, Nat.sub_self] at hz
          cases hz
          exact hy
    · rw [Nat.succ_mul]
      unfold InRange at hq ⊢
      omega

end Readers

/-! ## Numbers -/

variable {abi : Abi} {host e : TbEndian}

theorem readNumber_lt (host : TbEndian) (m : Memory) (a n : Nat) :
    readNumber host m a n < 256 ^ n := by
  have h := countOf_lt (convertEndianness host (slice m a n) .bigEndian)
  rwa [convertEndianness_length, slice_length] at h

theorem packed_inj {n x y : Nat} (hx : x < 256 ^ n) (hy : y < 256 ^ n)
    (h : packed e n x = packed e n y) : x = y := by
  rw [← unpacked_packed e hx, h, unpacked_packed e hy]

/-- A number is read to the address `a`. -/
theorem readNumber_reads (host e : TbEndian) (a : Nat) {n : Nat} (hn : n < 2 ^ 31) :
    Reads (tbReadFromIstream n >>= fun tmp => storeBytes a (convertEndianness host tmp e))
      (fun _ => True) (packed e n) (· < 256 ^ n) (fun m x => readNumber host m a n = x)
      (InRange a n) where
  sound {s t} hs _ h := by
    obtain ⟨hc, -, hf⟩ := readNumber_sound hn s t hs h
    dsimp only at hc
    rw [convertEndianness_eq_packed] at hc
    exact ⟨_, readNumber_lt host t.dst a n, hc, rfl, hf⟩
  complete {s x} hs _ hx hstarts := by
    obtain ⟨hle, hslice⟩ := hstarts
    rw [packed_length] at hle hslice
    have hok : (tbReadFromIstream n >>= fun tmp =>
        storeBytes a (convertEndianness host tmp e)) s = (.ok (), s.readInto host e a n) := by
      rw [readNumberInto_eq host e hs a hn, if_pos hle]
    obtain ⟨hc, -, hf⟩ := readNumber_sound hn s _ hs hok
    dsimp only at hc
    have hheld : readNumber host (s.readInto host e a n).dst a n = x := by
      have heq : convertEndianness host (slice (s.readInto host e a n).dst a n) e =
          slice s.istream.buf s.istream.bytesRead n := readInto_dst
      rw [hslice, convertEndianness_eq_packed] at heq
      exact packed_inj (readNumber_lt host _ a n) hx heq
    rw [convertEndianness_eq_packed, hheld] at hc
    exact ⟨_, hok, hc, hheld, hf⟩

/-! ## What a value in memory depends on -/

mutual

theorem SchemaType.Holds.congr {m m' : Memory} : (type : SchemaType) → (a : Nat) →
    (x : type.Value) → type.Meets .walked x →
    (∀ q, InRange a (type.cSize abi) q → m' q = m q) → type.Holds abi host m a x →
      type.Holds abi host m' a x
  | .number t, a, x, _, h, hx => by
    have heq : readNumber host m' a t.len = readNumber host m a t.len :=
      readNumber_congr host fun q hq hq' => h q ⟨hq, hq'⟩
    exact heq.trans hx
  | .message msg, a, v, ⟨_, hv⟩, h, hx => by
    have hsize := msg.cEnd_le_cSize abi
    refine Message.Holds.congr msg a 0 v hv (fun q hq hq' => h q ?_) hx
    unfold InRange
    omega

theorem Message.Holds.congr {m m' : Memory} : (msg : Message) → (base cur : Nat) →
    (v : msg.Value) → msg.Meets .walked v →
    (∀ q, base + cur ≤ q → q < base + msg.cEnd abi cur → m' q = m q) →
    msg.Holds abi host m base cur v → msg.Holds abi host m' base cur v
  | .nil, _, _, _, _, _, _ => trivial
  | .field rule type next, base, cur, (x, v), ⟨⟨hfits, hall⟩, hv⟩, h, ⟨⟨hhead, hentries⟩, hnext⟩ => by
    have hcur := le_headStart abi rule.headType cur
    have hdata := headStart_add_le abi rule.headType (type.cAlign_pos abi) cur
    have hend : fieldEnd abi rule type cur ≤ (Message.field rule type next).cEnd abi cur :=
      next.le_cEnd abi _
    rw [Rule.headLen_eq] at hdata
    refine ⟨⟨?_, fun k y hy => ?_⟩, Message.Holds.congr next base _ v hv (fun q hq hq' => h q ?_ hq')
      hnext⟩
    · rw [← hhead]
      refine readNumber_congr host fun q hq hq' => h q (by omega) ?_
      unfold fieldEnd at hend
      omega
    · have hk : k < rule.room :=
        Nat.lt_of_lt_of_le (List.getElem?_eq_some_iff.mp hy).1 (Rule.Fits.length_le hfits)
      have hroom : k * type.cSize abi + type.cSize abi ≤ rule.room * type.cSize abi := by
        rw [← Nat.succ_mul]
        exact Nat.mul_le_mul_right _ hk
      refine SchemaType.Holds.congr type _ y (hall y (List.mem_of_getElem? hy)) (fun q hq => ?_)
        (hentries k y hy)
      unfold InRange at hq
      unfold fieldEnd at hend
      exact h q (by omega) (by omega)
    · have hle := le_fieldEnd abi rule type cur
      omega
  | .oneof inner next, base, cur, (x, v), ⟨hx, hv⟩, h, ⟨⟨hwhich, hinner⟩, hnext⟩ => by
    have hcur := le_headStart abi (some .uint8) cur
    have hdata : headStart abi (some .uint8) cur <
        dataStart abi (some .uint8) (inner.cAlign abi) cur :=
      headStart_lt_dataStart abi (by decide) (inner.cAlign_pos abi) cur
    have hmax := inner.cMax_le abi
    have hend : oneofEnd abi inner cur ≤ (Message.oneof inner next).cEnd abi cur :=
      next.le_cEnd abi _
    have hle := le_oneofEnd abi inner cur
    unfold oneofEnd at hend hle
    refine ⟨⟨?_, InnerFields.Holds.congr inner _ x hx (fun q hq => ?_) hinner⟩,
      Message.Holds.congr next base _ v hv (fun q hq hq' => h q ?_ hq') hnext⟩
    · rw [h _ (by omega) (by omega)]
      exact hwhich
    · unfold InRange at hq
      exact h q (by omega) (by omega)
    · unfold oneofEnd at hq
      omega
  | .emptyOneof next, base, cur, v, ⟨_, hv⟩, h, hnext => by
    have hle := le_emptyOneofEnd abi cur
    exact Message.Holds.congr next base _ v hv (fun q hq hq' => h q (by omega) hq') hnext

theorem InnerFields.Holds.congr {m m' : Memory} : (inner : InnerFields) → (a : Nat) →
    (x : inner.Value) → inner.Meets .walked x →
    (∀ q, InRange a (inner.cMax abi) q → m' q = m q) → inner.Holds abi host m a x →
      inner.Holds abi host m' a x
  | .cons _ type next, a, .inl x, hx, h, hh => by
    have hmax : type.cSize abi ≤ max (type.cSize abi) (next.cMax abi) := Nat.le_max_left ..
    refine SchemaType.Holds.congr type a x hx (fun q hq => h q ?_) hh
    exact ⟨hq.1, Nat.lt_of_lt_of_le hq.2 (Nat.add_le_add_left hmax a)⟩
  | .cons _ type next, a, .inr x, hx, h, hh => by
    have hmax : next.cMax abi ≤ max (type.cSize abi) (next.cMax abi) := Nat.le_max_right ..
    refine InnerFields.Holds.congr next a x hx (fun q hq => h q ?_) hh
    exact ⟨hq.1, Nat.lt_of_lt_of_le hq.2 (Nat.add_le_add_left hmax a)⟩

end

/-! ## Fields -/

/-- What `tb_decode` does with the element at `a`. -/
def SchemaType.decodeAt (abi : Abi) (host inp : TbEndian) : SchemaType → Nat → Decode Unit
  | .number t, a => do
    let tmp ← tbReadFromIstream t.len
    storeBytes a (convertEndianness host tmp inp)
  | .message msg, a =>
    if msg.numFields ≤ 255 then (decodeWalker host inp).walk (msg.fields abi 0) a
    else Proc.fail ()

theorem decodeWalker_entry {f : TbField} {type : SchemaType}
    (hkind : f.dataKind = some type.dataKind) (hsize : f.dataSize = type.cSize abi)
    (tagValid : UInt8 → Bool) (base : Nat) :
    (decodeWalker host e).entry f tagValid base (fun a =>
        if (type.table abi).length ≤ 255 then (decodeWalker host e).walk (type.table abi) a
        else Proc.fail ()) =
      decodeField host e f tagValid base fun n =>
        Proc.forUpTo n fun k => type.decodeAt abi host e (f.dataPtr base + k * f.dataSize) := by
  unfold Walker.entry
  rw [hkind]
  cases type with
  | number t =>
    have hlen : f.dataSize % 256 = f.dataSize := by
      rw [hsize]
      cases t <;> rfl
    have hlen' : f.dataSize = t.len := hsize
    change decodeField host e f tagValid base (fun n =>
      tbReadFromIstreamLittleEndian host (f.dataPtr base) (f.dataSize % 256) n e) = _
    rw [hlen, hlen']
    rfl
  | message msg =>
    have hlen : (SchemaType.table abi (.message msg)).length = msg.numFields :=
      msg.fields_length abi 0
    simp only [hlen]
    rfl

section Field

variable {rule : Rule} {type : SchemaType}

theorem Rule.Small.sizeSize_lt (h : rule.Small) : rule.sizeSize < 2 ^ 31 := by
  cases rule with
  | required => exact Nat.two_pow_pos 31
  | fixedRepeated size => exact Nat.two_pow_pos 31
  | optional => exact Nat.one_lt_two_pow (by decide)
  | repeated size =>
    have hmem : sizeTypeLen size ∈ [1, 2, 4] := h
    simp only [List.mem_cons, List.not_mem_nil, or_false] at hmem
    rw [Rule.sizeSize]
    omega

/-- The flag or the count, if it is on the wire. -/
theorem fieldHead_reads (abi : Abi) (host e : TbEndian) (type : SchemaType) (base cur : Nat)
    (hr : rule.Accepted) (hsmall : rule.Small) :
    Reads (Proc.when ((fieldEntry abi rule type cur).sendsSize = true)
        (tbReadFromIstreamLittleEndian host ((fieldEntry abi rule type cur).sizePtr base)
          (fieldEntry abi rule type cur).sizeSize 1 e))
      (fun _ => True) (packed e rule.sizeSize) (· < 256 ^ rule.sizeSize)
      (fun m n => readNumber host m (base + headStart abi rule.headType cur) rule.sizeSize = n)
      (InRange (base + headStart abi rule.headType cur) rule.sizeSize) := by
  have hsize : (fieldEntry abi rule type cur).sizeSize = rule.sizeSize := rfl
  by_cases hsend : (fieldEntry abi rule type cur).sendsSize = true
  · have hs : (fieldEntry abi rule type cur).hasSize = true := by
      rwa [fieldEntry_sendsSize] at hsend
    rw [Proc.when_pos hsend, fieldEntry_sizePtr hr hs, hsize, readLittleEndian_eq]
    exact readNumber_reads host e _ hsmall.sizeSize_lt
  · have hzero : rule.sizeSize = 0 := by
      rw [fieldEntry_sendsSize, fieldEntry_hasSize] at hsend
      cases rule with
      | required => rfl
      | fixedRepeated size => rfl
      | optional => exact absurd (Or.inl rfl) hsend
      | repeated size => exact absurd (Or.inr rfl) hsend
    rw [Proc.when_neg hsend, hzero]
    refine Reads.nil 0 _ (fun n => ?_) (List.eq_nil_of_length_eq_zero (packed_length e 0 0))
      fun m _ => Nat.lt_one_iff.mp (readNumber_lt host m _ 0)
    rw [Nat.pow_zero, Nat.lt_one_iff]

variable (harray : rule.isArray = true → type.cSize abi ≠ 0)
  (hone : ∀ a, Reads (type.decodeAt abi host e a) (fun _ => True) (type.wire e)
    (type.Meets .walked) (fun m x => type.Holds abi host m a x) (InRange a (type.cSize abi)))

include harray hone

/-- The check of a count, and the elements behind it. -/
theorem fieldEntries_reads (hr : rule.Accepted) (tagValid : UInt8 → Bool) (base cur n : Nat) :
    Reads (Proc.get >>= fun s =>
        Proc.failIf (¬ (fieldEntry abi rule type cur).Valid host s.dst tagValid base) () >>= fun _ =>
        Proc.forUpTo ((fieldEntry abi rule type cur).present host s.dst base) fun k =>
          type.decodeAt abi host e ((fieldEntry abi rule type cur).dataPtr base +
            k * (fieldEntry abi rule type cur).dataSize))
      (fun m => readNumber host m (base + headStart abi rule.headType cur) rule.sizeSize = n)
      (fun l : List type.Value => l.flatMap (type.wire e))
      (fun l => rule.InRoom n ∧ l.length = rule.count n ∧ ∀ y ∈ l, type.Meets .walked y)
      (fun m l => ∀ k y, l[k]? = some y → type.Holds abi host m
        (base + dataStart abi rule.headType (type.cAlign abi) cur + k * type.cSize abi) y)
      (InRange (base + dataStart abi rule.headType (type.cAlign abi) cur)
        (rule.room * type.cSize abi)) := by
  have hloop := Reads.forUpTo
    (fun k => hone (base + dataStart abi rule.headType (type.cAlign abi) cur +
      k * type.cSize abi))
    (fun k y m m' hy hE hkeep => SchemaType.Holds.congr type _ y hy hkeep hE) (rule.count n)
  have hbody : ∀ s : DecodeState, readNumber host s.dst
      (base + headStart abi rule.headType cur) rule.sizeSize = n →
      ((fieldEntry abi rule type cur).Valid host s.dst tagValid base ↔ rule.InRoom n) ∧
      (fieldEntry abi rule type cur).present host s.dst base = rule.count n := by
    intro s hs
    rw [fieldEntry_valid hr harray, fieldEntry_present hr harray, hs]
    exact ⟨Iff.rfl, rfl⟩
  have hregion : rule.InRoom n → ∀ q,
      InRange (base + dataStart abi rule.headType (type.cAlign abi) cur)
        (rule.count n * type.cSize abi) q →
      InRange (base + dataStart abi rule.headType (type.cAlign abi) cur)
        (rule.room * type.cSize abi) q := by
    intro hroom q hq
    have hle := Nat.mul_le_mul_right (type.cSize abi) hroom.count_le
    exact ⟨hq.1, Nat.lt_of_lt_of_le hq.2 (Nat.add_le_add_left hle _)⟩
  constructor
  · intro s t hs hm hx
    obtain ⟨hvalid, hpresent⟩ := hbody s hm
    rw [Proc.get_bind_apply] at hx
    obtain ⟨_, u, hcheck, hx⟩ := Proc.bind_eq_ok.mp hx
    obtain ⟨hnot, rfl⟩ := Proc.failIf_eq_ok.mp hcheck
    have hroom := hvalid.mp (not_not.mp hnot)
    rw [hpresent] at hx
    obtain ⟨l, hl, hdel⟩ := (hloop.weaken (fun _ h => h) (hregion hroom)).sound hs trivial hx
    exact ⟨l, ⟨hroom, hl⟩, hdel⟩
  · intro s l hs hm ⟨hroom, hl⟩ hstarts
    obtain ⟨hvalid, hpresent⟩ := hbody s hm
    obtain ⟨t, hx, hdel⟩ :=
      (hloop.weaken (fun _ h => h) (hregion hroom)).complete hs trivial hl hstarts
    refine ⟨t, ?_, hdel⟩
    rw [Proc.get_bind_apply, Proc.failIf_bind_neg (not_not.mpr (hvalid.mpr hroom)), hpresent]
    exact hx

/-- A field reads its flag or count and its elements. -/
theorem fieldEntry_reads (hr : rule.Accepted) (tagValid : UInt8 → Bool) (base cur : Nat)
    (hend : fieldEnd abi rule type cur < 2 ^ 31) :
    Reads (decodeField host e (fieldEntry abi rule type cur) tagValid base fun n =>
        Proc.forUpTo n fun k => type.decodeAt abi host e
          ((fieldEntry abi rule type cur).dataPtr base +
            k * (fieldEntry abi rule type cur).dataSize))
      (fun _ => True) (fun x => rule.head e x ++ (rule.entries x).flatMap (type.wire e))
      (fun x => rule.Fits x ∧ ∀ y ∈ rule.entries x, type.Meets .walked y)
      (fun m x => readNumber host m (base + headStart abi rule.headType cur) rule.sizeSize =
          rule.headValue x ∧ ∀ k y, (rule.entries x)[k]? = some y → type.Holds abi host m
        (base + dataStart abi rule.headType (type.cAlign abi) cur + k * type.cSize abi) y)
      (fun q => base + cur ≤ q ∧ q < base + fieldEnd abi rule type cur) := by
  have hsmall : rule.Small := Rule.small harray hend
  have hcur := le_headStart abi rule.headType cur
  have hdata := headStart_add_le abi rule.headType (type.cAlign_pos abi) cur
  rw [Rule.headLen_eq] at hdata
  have hentries := fun n (hn : n < 256 ^ rule.sizeSize) =>
    (fieldEntries_reads harray hone hr tagValid base cur n).transfer
      (v := fun x => (rule.entries x).flatMap (type.wire e))
      (Q := fun x => rule.headValue x = n ∧ rule.Fits x ∧
        ∀ y ∈ rule.entries x, type.Meets .walked y)
      (G := fun m x => ∀ k y, (rule.entries x)[k]? = some y → type.Holds abi host m
        (base + dataStart abi rule.headType (type.cAlign abi) cur + k * type.cSize abi) y)
      (fun l x => rule.entries x = l)
      (fun l ⟨hroom, hl, hall⟩ => by
        obtain ⟨x, rfl, hx, hfits⟩ := rule.exists_value hn hroom hl
        exact ⟨x, rfl, hx, hfits, hall⟩)
      (fun x ⟨hx, hfits, hall⟩ => ⟨rule.entries x, rfl, hx ▸ hfits.inRoom,
        hx ▸ hfits.entries_length, hall⟩)
      (fun _ _ hl _ _ => by rw [hl]) fun _ _ _ hl _ _ => by rw [hl]
  have hboth := (fieldHead_reads abi host e type base cur hr hsmall).bind rule.headValue hentries
    (fun n m m' _ hm hkeep => by
      rw [← hm]
      refine readNumber_congr host fun q hq hq' => hkeep q fun hr => ?_
      unfold InRange at hr
      omega)
  rw [decodeField_eq_readField (fieldEntry_wellFormed hr hsmall harray)]
  refine (hboth.transfer (fun a b => a = b) (fun x ⟨_, hx⟩ => ⟨x, rfl, hx⟩)
    (fun x hx => ⟨x, rfl, hx.1.headValue_lt hr, hx⟩) (fun _ x hx _ _ => ?_)
    (fun m _ x hx _ _ => ?_)).weaken (fun _ h => h) fun q hq => ?_
  · rw [hx, Rule.head_eq]
  · rw [hx]
  · unfold InRange at hq
    unfold fieldEnd
    omega

end Field

/-! ## Oneofs -/

/-- The which-tag of a oneof and its check. -/
def InnerFields.readWhich (inner : InnerFields) (a : Nat) : Decode Unit := do
  tbReadFromIstream 1 >>= storeBytes a
  let s ← Proc.get
  Proc.failIf (s.dst a ∉ inner.tags) ()

/-- The alternative that the tag at `a` names. -/
def InnerFields.decodeChosen (abi : Abi) (host inp : TbEndian) (a data : Nat) :
    InnerFields → Decode Unit
  | .nil => pure ()
  | .cons tag type next => do
    let s ← Proc.get
    Proc.when (s.dst a = tag) (type.decodeAt abi host inp data)
    next.decodeChosen abi host inp a data

section Inner

variable {tag : UInt8} {type : SchemaType} {whichAt data base : Nat}

theorem forUpTo_one {σ ε : Type} (f : Nat → Proc σ ε Unit) : Proc.forUpTo 1 f = f 0 := rfl

/-- An alternative other than the first one. -/
theorem decodeField_other (tagValid : UInt8 → Bool) :
    (decodeField host e (innerEntry abi tag type whichAt data false) tagValid base fun n =>
        Proc.forUpTo n fun k => type.decodeAt abi host e
          ((innerEntry abi tag type whichAt data false).dataPtr base +
            k * (innerEntry abi tag type whichAt data false).dataSize)) =
      (Proc.get >>= fun s =>
        Proc.when (s.dst (base + whichAt) = tag) (type.decodeAt abi host e (base + data))) := by
  have hfirst : ¬ (innerEntry abi tag type whichAt data false).oneofFirst = true :=
    Bool.false_ne_true
  funext s
  unfold decodeField
  rw [innerEntry_fieldType, innerEntry_sizePtr]
  dsimp only
  rw [Proc.when_neg hfirst, Proc.pure_bind_apply, Proc.get_bind_apply, Proc.get_bind_apply,
    Proc.when_neg hfirst, Proc.pure_bind_apply, forUpTo_one, Nat.zero_mul]
  rfl

/-- The first alternative reads the tag and checks it, and goes on like the others. -/
theorem decodeField_first (inner : InnerFields) {tagValid : UInt8 → Bool}
    (hvalid : ∀ which, tagValid which = true ↔ which ∈ inner.tags) :
    (decodeField host e (innerEntry abi tag type whichAt data true) tagValid base fun n =>
        Proc.forUpTo n fun k => type.decodeAt abi host e
          ((innerEntry abi tag type whichAt data true).dataPtr base +
            k * (innerEntry abi tag type whichAt data true).dataSize)) =
      (inner.readWhich (base + whichAt) >>= fun _ => Proc.get >>= fun s =>
        Proc.when (s.dst (base + whichAt) = tag) (type.decodeAt abi host e (base + data))) := by
  have hfirst : (innerEntry abi tag type whichAt data true).oneofFirst = true := rfl
  unfold decodeField InnerFields.readWhich
  rw [innerEntry_fieldType, innerEntry_sizePtr]
  dsimp only
  rw [Proc.when_pos hfirst, Proc.bind_assoc (tbReadFromIstream 1 >>= storeBytes (base + whichAt))]
  refine congrArg _ (funext fun _ => funext fun s => ?_)
  have hcheck : tagValid (s.dst (base + whichAt)) = false ↔
      s.dst (base + whichAt) ∉ inner.tags := by
    rw [← hvalid, Bool.not_eq_true]
  rw [Proc.get_bind_apply, Proc.bind_assoc, Proc.get_bind_apply, Proc.when_pos hfirst,
    Proc.failIf_congr hcheck]
  by_cases hmem : s.dst (base + whichAt) ∉ inner.tags
  · rw [Proc.failIf_bind_pos hmem, Proc.failIf_bind_pos hmem]
  · rw [Proc.failIf_bind_neg hmem, Proc.failIf_bind_neg hmem, Proc.get_bind_apply, forUpTo_one,
      Nat.zero_mul]
    rfl

end Inner

/-- The walk through the alternatives behind the tag. -/
theorem InnerFields.walk_others (abi : Abi) (host e : TbEndian) (whichAt data base : Nat)
    (rest : Fields) : (inner : InnerFields) →
      (decodeWalker host e).walk (inner.fields abi whichAt data false rest) base =
        (inner.decodeChosen abi host e (base + whichAt) (base + data) >>= fun _ =>
          (decodeWalker host e).walk rest base)
  | .nil => rfl
  | .cons tag type next => by
    rw [InnerFields.fields, Walker.walk,
      decodeWalker_entry (innerEntry_dataKind tag type whichAt data false) rfl, decodeField_other,
      next.walk_others abi host e whichAt data base rest, InnerFields.decodeChosen,
      Proc.bind_assoc, Proc.bind_assoc]
    exact congrArg _ (funext fun _ => (Proc.bind_assoc ..).symm)

/-- The walk through the alternatives of a oneof. -/
theorem InnerFields.walk_first (abi : Abi) (host e : TbEndian) (whichAt data base : Nat)
    {rest : Fields} (hrest : rest.EndsGroup) : (inner : InnerFields) → inner.tags ≠ [] →
      (decodeWalker host e).walk (inner.fields abi whichAt data true rest) base =
        (inner.readWhich (base + whichAt) >>= fun _ =>
          inner.decodeChosen abi host e (base + whichAt) (base + data) >>= fun _ =>
          (decodeWalker host e).walk rest base)
  | .nil, h => absurd rfl h
  | .cons tag type next, h => by
    have hvalid := fun which => InnerFields.whichTagValidity abi whichAt data hrest which
      (.cons tag type next) h true
    rw [InnerFields.fields] at hvalid
    rw [InnerFields.fields, Walker.walk,
      decodeWalker_entry (innerEntry_dataKind tag type whichAt data true) rfl,
      decodeField_first _ hvalid, next.walk_others abi host e whichAt data base rest,
      Proc.bind_assoc, InnerFields.decodeChosen]
    refine congrArg _ (funext fun _ => ?_)
    rw [Proc.bind_assoc, Proc.bind_assoc]
    refine congrArg _ (funext fun _ => ?_)
    rw [Proc.bind_assoc]

/-- The tag of an alternative is read. -/
theorem InnerFields.readWhich_reads (inner : InnerFields) (host e : TbEndian) (a : Nat) :
    Reads (inner.readWhich a) (fun _ => True) (fun which => [which]) (· ∈ inner.tags)
      (fun m which => m a = which) (InRange a 1) := by
  have hbyte := (readNumber_reads host e a (Nat.one_lt_two_pow (by decide : 31 ≠ 0))).transfer
    (v := fun which : UInt8 => [which]) (Q := fun _ => True) (G := fun m which => m a = which)
    (fun n which => which.toNat = n)
    (fun n hn => ⟨UInt8.ofNat n, UInt8.toNat_ofNat_of_lt' hn, trivial⟩)
    (fun which _ => ⟨which.toNat, rfl, which.toNat_lt⟩)
    (fun n which hn _ _ => by rw [← hn, packed_one])
    fun m n which hn _ _ => by rw [readNumber_one, ← hn, UInt8.toNat_inj]
  have hcheck : ∀ which, True → Reads (Proc.get >>= fun s : DecodeState =>
      Proc.failIf (s.dst a ∉ inner.tags) ()) (fun m => m a = which) (fun _ => [])
      (fun c => c = which ∧ c ∈ inner.tags) (fun _ _ => True) fun _ => False := by
    intro which _
    constructor
    · intro s t hs hm h
      obtain ⟨hmem, rfl⟩ := Proc.failIf_eq_ok.mp h
      rw [not_not, hm] at hmem
      exact ⟨which, ⟨rfl, hmem⟩, Consumes.nil hs, trivial, fun _ _ => rfl⟩
    · rintro s _ hs hm ⟨rfl, hmem⟩ _
      refine ⟨s, Proc.failIf_neg ?_ () s, Consumes.nil hs, trivial, fun _ _ => rfl⟩
      rw [not_not, hm]
      exact hmem
  have hboth := hbyte.bind (fun which : UInt8 => which) hcheck
    fun which m m' _ hm hkeep => by rw [hkeep a not_false, hm]
  have heq : (tbReadFromIstream 1 >>= storeBytes a) = (tbReadFromIstream 1 >>= fun tmp =>
      storeBytes a (convertEndianness host tmp e)) := by
    rw [← readLittleEndian_eq, readLittleEndian_flag]
  rw [InnerFields.readWhich, heq]
  refine (hboth.transfer (fun b c => b = c) (fun c hc => ⟨c, rfl, hc.2⟩)
    (fun c hc => ⟨c, rfl, trivial, hc⟩) (fun b c hbc _ _ => ?_)
    (fun m b c hbc _ _ => ?_)).weaken (fun _ h => h) fun q hq => hq.resolve_right not_false
  · rw [hbc, List.append_nil]
  · rw [hbc, and_true]

/-- No alternative has the tag. -/
theorem InnerFields.decodeChosen_none {a data : Nat} : (inner : InnerFields) → {s : DecodeState} →
    s.dst a ∉ inner.tags → inner.decodeChosen abi host e a data s = (.ok (), s)
  | .nil, _, _ => rfl
  | .cons tag type next, s, h => by
    rw [InnerFields.tags, List.mem_cons, not_or] at h
    rw [InnerFields.decodeChosen, Proc.get_bind_apply, Proc.when_neg h.1, Proc.pure_bind_apply]
    exact next.decodeChosen_none h.2

/-! ## The walk -/

section Chosen

variable {tag which : UInt8} {type : SchemaType} {next : InnerFields} {a data : Nat}

/-- The alternative that the tag names is read, and the others are not. -/
theorem decodeChosen_this
    (h : Reads (type.decodeAt abi host e data) (fun _ => True) (type.wire e) (type.Meets .walked)
      (fun m x => type.Holds abi host m data x) (InRange data (type.cSize abi)))
    (ha : a < data) (htag : tag ∉ next.tags) :
    Reads (InnerFields.decodeChosen abi host e a data (.cons tag type next)) (fun m => m a = tag)
      (InnerFields.wire e (.cons tag type next))
      (fun x => InnerFields.which (.cons tag type next) x = tag ∧
        InnerFields.Meets .walked (.cons tag type next) x)
      (fun m x => InnerFields.Holds abi host m (.cons tag type next) data x)
      (InRange data (InnerFields.cMax abi (.cons tag type next))) := by
  have hthis : Reads (InnerFields.decodeChosen abi host e a data (.cons tag type next))
      (fun m => m a = tag) (type.wire e) (type.Meets .walked)
      (fun m x => type.Holds abi host m data x) (InRange data (type.cSize abi)) := by
    have hout : ¬ InRange data (type.cSize abi) a := fun hr => absurd hr.1 (Nat.not_le.mpr ha)
    have hrun : ∀ {s : DecodeState}, s.dst a = tag →
        InnerFields.decodeChosen abi host e a data (.cons tag type next) s =
          (type.decodeAt abi host e data >>= fun _ => next.decodeChosen abi host e a data) s := by
      intro s hs
      rw [InnerFields.decodeChosen, Proc.get_bind_apply, Proc.when_pos hs]
    constructor
    · intro s t hs hm hx
      rw [hrun hm] at hx
      obtain ⟨_, u, hu, hrest⟩ := Proc.bind_eq_ok.mp hx
      obtain ⟨x, hx, hdel⟩ := h.sound hs trivial hu
      have hu' : u.dst a = tag := (hdel.frame a hout).trans hm
      rw [next.decodeChosen_none (by rw [hu']; exact htag)] at hrest
      cases hrest
      exact ⟨x, hx, hdel⟩
    · intro s x hs hm hx hstarts
      obtain ⟨t, ht, hdel⟩ := h.complete hs trivial hx hstarts
      have ht' : t.dst a = tag := (hdel.frame a hout).trans hm
      refine ⟨t, ?_, hdel⟩
      rw [hrun hm, Proc.bind_ok ht]
      exact next.decodeChosen_none (by rw [ht']; exact htag)
  have hmax : type.cSize abi ≤ max (type.cSize abi) (next.cMax abi) := Nat.le_max_left ..
  refine (hthis.transfer (fun x c => c = .inl x) (fun x hx => ⟨.inl x, rfl, rfl, hx⟩)
    (fun c hc => ?_) (fun x c hc _ _ => ?_) (fun m x c hc _ _ => ?_)).weaken (fun _ h => h)
    fun q hq => ⟨hq.1, Nat.lt_of_lt_of_le hq.2 (Nat.add_le_add_left hmax data)⟩
  · cases c with
    | inl x => exact ⟨x, rfl, hc.2⟩
    | inr x => exact absurd (hc.1 ▸ next.which_mem x) htag
  · rw [hc]
    rfl
  · rw [hc]
    exact Iff.rfl

/-- An alternative that the tag does not name is passed over. -/
theorem decodeChosen_next
    (h : Reads (next.decodeChosen abi host e a data) (fun m => m a = which) (next.wire e)
      (fun x => next.which x = which ∧ next.Meets .walked x)
      (fun m x => next.Holds abi host m data x) (InRange data (next.cMax abi)))
    (hne : which ≠ tag) :
    Reads (InnerFields.decodeChosen abi host e a data (.cons tag type next)) (fun m => m a = which)
      (InnerFields.wire e (.cons tag type next))
      (fun x => InnerFields.which (.cons tag type next) x = which ∧
        InnerFields.Meets .walked (.cons tag type next) x)
      (fun m x => InnerFields.Holds abi host m (.cons tag type next) data x)
      (InRange data (InnerFields.cMax abi (.cons tag type next))) := by
  have hrun : ∀ {s : DecodeState}, s.dst a = which →
      InnerFields.decodeChosen abi host e a data (.cons tag type next) s =
        next.decodeChosen abi host e a data s := by
    intro s hs
    rw [InnerFields.decodeChosen, Proc.get_bind_apply, Proc.when_neg (by rw [hs]; exact hne)]
    rfl
  have hthis : Reads (InnerFields.decodeChosen abi host e a data (.cons tag type next))
      (fun m => m a = which) (next.wire e) (fun x => next.which x = which ∧ next.Meets .walked x)
      (fun m x => next.Holds abi host m data x) (InRange data (next.cMax abi)) := by
    refine ⟨fun hs hm hx => h.sound hs hm ((hrun hm).symm.trans hx), fun hs hm hx hstarts => ?_⟩
    obtain ⟨t, ht, hdel⟩ := h.complete hs hm hx hstarts
    exact ⟨t, (hrun hm).trans ht, hdel⟩
  have hmax : next.cMax abi ≤ max (type.cSize abi) (next.cMax abi) := Nat.le_max_right ..
  refine (hthis.transfer (fun x c => c = .inr x) (fun x hx => ⟨.inr x, rfl, hx⟩)
    (fun c hc => ?_) (fun x c hc _ _ => ?_) (fun m x c hc _ _ => ?_)).weaken (fun _ h => h)
    fun q hq => ⟨hq.1, Nat.lt_of_lt_of_le hq.2 (Nat.add_le_add_left hmax data)⟩
  · cases c with
    | inl x => exact absurd hc.1.symm hne
    | inr x => exact ⟨x, rfl, hc⟩
  · rw [hc]
    rfl
  · rw [hc]
    exact Iff.rfl

end Chosen

/-- One turn of the walk at a field. -/
theorem decodeWalk_field (abi : Abi) (host e : TbEndian) (rule : Rule) (type : SchemaType)
    (next : Fields) (cur base : Nat) :
    (decodeWalker host e).walk (.entry (fieldEntry abi rule type cur) (type.table abi) next) base =
      ((decodeField host e (fieldEntry abi rule type cur)
        (checkOneofWhichTagValidity
          (.entry (fieldEntry abi rule type cur) (type.table abi) next)) base fun n =>
        Proc.forUpTo n fun k => type.decodeAt abi host e
          ((fieldEntry abi rule type cur).dataPtr base +
            k * (fieldEntry abi rule type cur).dataSize)) >>= fun _ =>
      (decodeWalker host e).walk next base) := by
  rw [Walker.walk, decodeWalker_entry (fieldEntry_dataKind rule type cur) rfl]

mutual

theorem SchemaType.decodeAt_reads (abi : Abi) (host e : TbEndian) : (type : SchemaType) →
    type.Accepted → type.Compiles abi → (a : Nat) →
      Reads (type.decodeAt abi host e a) (fun _ => True) (type.wire e) (type.Meets .walked)
        (fun m x => type.Holds abi host m a x) (InRange a (type.cSize abi))
  | .number t, _, _, a => by
    have hlen : t.len < 2 ^ 31 := by cases t <;> decide
    have hpow : 2 ^ (8 * t.len) = 256 ^ t.len := by rw [Nat.pow_mul]
    refine (readNumber_reads host e a hlen).transfer
      (fun n (x : BitVec (8 * t.len)) => x.toNat = n) (fun n hn => ?_) (fun x _ => ?_)
      (fun n x hx _ _ => by rw [← hx]; rfl) fun m n x hx _ _ => by rw [← hx]; rfl
    · refine ⟨BitVec.ofNat (8 * t.len) n, ?_, trivial⟩
      rw [BitVec.toNat_ofNat, hpow, Nat.mod_eq_of_lt hn]
    · have hlt := BitVec.isLt x
      rw [hpow] at hlt
      exact ⟨BitVec.toNat x, rfl, hlt⟩
  | .message msg, hacc, ⟨hcomp, hsize⟩, a => by
    have hle := msg.cEnd_le_cSize abi
    have h := Message.walk_reads abi host e msg hacc hcomp 0 (Nat.lt_of_le_of_lt hle hsize) a
    rw [SchemaType.decodeAt]
    by_cases hshort : msg.numFields ≤ 255
    · rw [if_pos hshort]
      refine (h.transfer (fun v x => v = x) (fun v hv => ⟨v, rfl, hshort, hv⟩)
        (fun v hv => ⟨v, rfl, hv.2⟩) (fun v x hvx _ _ => by rw [hvx]; rfl)
        fun m v x hvx _ _ => by rw [hvx]; rfl).weaken (fun _ h => h) fun q hq => ?_
      unfold InRange
      omega
    · rw [if_neg hshort]
      constructor
      · exact fun _ _ hx => nomatch hx
      · exact fun _ _ hv _ => absurd hv.1 hshort

theorem Message.walk_reads (abi : Abi) (host e : TbEndian) : (msg : Message) → msg.Accepted →
    msg.Compiles abi → (cur : Nat) → msg.cEnd abi cur < 2 ^ 31 → (base : Nat) →
      Reads ((decodeWalker host e).walk (msg.fields abi cur) base) (fun _ => True) (msg.wire e)
        (msg.Meets .walked) (fun m v => msg.Holds abi host m base cur v)
        (fun q => base + cur ≤ q ∧ q < base + msg.cEnd abi cur)
  | .nil, _, _, _, _, _ =>
    Reads.nil () _ (fun _ => ⟨fun _ => rfl, fun _ => trivial⟩) rfl fun _ _ => trivial
  | .field rule type next, ⟨hr, ht, hn⟩, ⟨⟨hct, harray⟩, hcn⟩, cur, hend, base => by
    have hcEnd : (Message.field rule type next).cEnd abi cur =
      next.cEnd abi (fieldEnd abi rule type cur) := rfl
    have hle := next.le_cEnd abi (fieldEnd abi rule type cur)
    have hstart := le_fieldEnd abi rule type cur
    have hfield := fieldEntry_reads harray (SchemaType.decodeAt_reads abi host e type ht hct) hr
      (checkOneofWhichTagValidity (.entry (fieldEntry abi rule type cur) (type.table abi)
        (next.fields abi (fieldEnd abi rule type cur)))) base cur (by omega)
    have hnext := Message.walk_reads abi host e next hn hcn (fieldEnd abi rule type cur) hend base
    have hboth := hfield.bind (Prod.fst : rule.Value type.Value × next.Value → _)
      (fun x _ => (hnext.weaken (fun _ _ => trivial) fun _ h => h).pair x)
      (fun x m m' hx hm hkeep => by
        have hholds : Message.Holds abi host m (.field rule type .nil) base cur (x, ()) :=
          ⟨hm, trivial⟩
        refine (Message.Holds.congr (.field rule type .nil) base cur (x, ()) ⟨hx, trivial⟩
          (fun q hq hq' => hkeep q ?_) hholds).1
        change q < base + fieldEnd abi rule type cur at hq'
        omega)
    rw [Message.fields, decodeWalk_field]
    exact hboth.weaken (fun _ h => h) fun q hq => by omega
  | .oneof inner next, ⟨⟨hne, hi⟩, hn⟩, ⟨hci, hcn⟩, cur, hend, base => by
    have hcEnd : (Message.oneof inner next).cEnd abi cur =
      next.cEnd abi (oneofEnd abi inner cur) := rfl
    have hle := next.le_cEnd abi (oneofEnd abi inner cur)
    have hcur := le_headStart abi (some .uint8) cur
    have hdata : headStart abi (some .uint8) cur <
        dataStart abi (some .uint8) (inner.cAlign abi) cur :=
      headStart_lt_dataStart abi (by decide) (inner.cAlign_pos abi) cur
    have hmax := inner.cMax_le abi
    have hoend : oneofEnd abi inner cur = dataStart abi (some .uint8) (inner.cAlign abi) cur +
      roundUp (inner.cMax abi) (inner.cAlign abi) := rfl
    have hnext := Message.walk_reads abi host e next hn hcn (oneofEnd abi inner cur) hend base
    have hinner := fun which (hmem : which ∈ inner.tags) =>
      (InnerFields.chosen_reads abi host e inner hi hci hmem
        (a := base + headStart abi (some .uint8) cur)
        (d := base + dataStart abi (some .uint8) (inner.cAlign abi) cur) (by omega)).bind
      (Prod.fst : inner.Value × next.Value → _)
      (fun x _ => (hnext.weaken (fun _ _ => trivial) fun _ h => h).pair x)
      (fun x m m' hx hm hkeep => InnerFields.Holds.congr inner _ x hx.2
        (fun q hq => hkeep q (by unfold InRange at hq; omega)) hm)
    have hboth := (inner.readWhich_reads host e (base + headStart abi (some .uint8) cur)).bind
      (fun c : inner.Value × next.Value => inner.which c.1)
      (fun which hmem => (hinner which hmem).transfer (Q := fun c => inner.which c.1 = which ∧
        inner.Meets .walked c.1 ∧ next.Meets .walked c.2) (fun b c => b = c)
        (fun c hc => ⟨c, rfl, hc.1.1, hc.1.2, hc.2⟩)
        (fun c hc => ⟨c, rfl, ⟨hc.1, hc.2.1⟩, hc.2.2⟩) (fun b c hbc _ _ => by rw [hbc])
        fun m b c hbc _ _ => by rw [hbc])
      (fun which m m' _ hm hkeep => by
        rw [hkeep _ (by unfold InRange; omega)]
        exact hm)
    have hwalk := InnerFields.walk_first abi host e (headStart abi (some .uint8) cur)
      (dataStart abi (some .uint8) (inner.cAlign abi) cur) base
      (next.fields_endsGroup abi (oneofEnd abi inner cur)) inner hne
    rw [oneofEnd] at hwalk
    rw [Message.fields, hwalk]
    refine (hboth.transfer (fun b c => b = c) (fun c hc => ⟨c, rfl, hc.2⟩)
      (fun c hc => ⟨c, rfl, inner.which_mem c.1, hc⟩) (fun b c hbc _ _ => by rw [hbc]; rfl)
      (fun m b c hbc _ _ => ?_)).weaken (fun _ h => h) fun q hq => ?_
    · rw [hbc]
      exact and_assoc
    · unfold InRange at hq
      omega
  | .emptyOneof next, hn, hcn, cur, hend, base => by
    have hle := le_emptyOneofEnd abi cur
    have h := Message.walk_reads abi host e next hn hcn _ hend base
    refine (h.transfer (fun b c => b = c) (fun c hc => ⟨c, rfl, trivial, hc⟩)
      (fun c hc => ⟨c, rfl, hc.2⟩) (fun b c hbc _ _ => by rw [hbc]; rfl)
      (fun m b c hbc _ _ => by rw [hbc]; rfl)).weaken (fun _ h => h) fun q hq => ?_
    exact ⟨by omega, hq.2⟩

theorem InnerFields.chosen_reads (abi : Abi) (host e : TbEndian) : (inner : InnerFields) →
    inner.Accepted → inner.Compiles abi → {which : UInt8} → which ∈ inner.tags → {a d : Nat} →
    a < d → Reads (inner.decodeChosen abi host e a d) (fun m => m a = which) (inner.wire e)
      (fun x => inner.which x = which ∧ inner.Meets .walked x)
      (fun m x => inner.Holds abi host m d x) (InRange d (inner.cMax abi))
  | .nil, _, _, _, hmem, _, _, _ => nomatch hmem
  | .cons tag type next, ⟨htag, ht, hn⟩, ⟨hct, hcn⟩, which, hmem, a, d, ha => by
    by_cases heq : which = tag
    · rw [heq]
      exact decodeChosen_this (SchemaType.decodeAt_reads abi host e type ht hct d) ha htag
    · have hmem' : which ∈ next.tags := (List.mem_cons.mp hmem).resolve_left heq
      exact decodeChosen_next (InnerFields.chosen_reads abi host e next hn hcn hmem' ha) heq

end

end OpenBadge.Tinybuf
