import OpenBadge.Lib.Parse
import OpenBadge.Tinybuf.Schema

/-!
# tinybuf_generator.py: the generated Python class

`create_encode_functions`, `create_decode_functions` and `create_oneof_classes` print
one function for each field, and the functions of a message in the order of its
fields. What these functions do is defined here field kind by field kind. `encode`
gives the wire format of an encodable value, and `decode` accepts exactly the inputs
that begin with one.
-/

namespace OpenBadge.Tinybuf

open OpenBadge.Lib

/-- The exceptions that the generated code can raise. -/
inductive PyError where
  | notEnoughBytes
  | structError
  | indexError
  | keyError
  deriving DecidableEq, Repr

/-- `struct.pack` with the format of an unsigned number of `n` bytes. -/
def structPack (e : TbEndian) (n x : Nat) : Except PyError (List UInt8) :=
  if x < 256 ^ n then .ok (packed e n x) else .error .structError

/-- A reader of `_Istream`: its state is `buf`. -/
abbrev PyDecode := Proc (List UInt8) PyError

/-- `_Istream.read` -/
def read (l : Nat) : PyDecode (List UInt8) := fun buf =>
  if l > buf.length then (.error .notEnoughBytes, buf)
  else (.ok (buf.take l), buf.drop l)

/-- `struct.unpack(…, istream.read(n))[0]` -/
def unpackNumber (e : TbEndian) (n : Nat) : PyDecode Nat := do
  let d ← read n
  pure (unpacked e d)

/-- The same for a has-flag or a which-tag. -/
def unpackByte : PyDecode UInt8 := do
  let d ← read 1
  pure (d.headD 0)

/-! ## Encoding -/

/-- `for i in range(0, count):` over the elements of a list. -/
def encodeEntries {α : Type} (enc : α → Except PyError (List UInt8)) (count : Nat) (l : List α) :
    Except PyError (List UInt8) := do
  let ds ← (List.range count).mapM fun i =>
    match l[i]? with
    | some x => enc x
    | none => .error .indexError
  pure ds.flatten

/-- The function `encode_<name>` of a field whose elements `enc` writes. -/
def Rule.encode {α : Type} (e : TbEndian) (enc : α → Except PyError (List UInt8)) :
    (rule : Rule) → rule.Value α → Except PyError (List UInt8)
  | .required, x => enc x
  | .optional, none => structPack e 1 0
  | .optional, some (flag, x) => do
    let has ← structPack e 1 flag.val.toNat
    let d ← enc x
    pure (has ++ d)
  | .repeated size, l => do
    let count ← structPack e (sizeTypeLen size) l.length
    let ds ← encodeEntries enc l.length l
    pure (count ++ ds)
  | .fixedRepeated size, l => encodeEntries enc size l

mutual

def SchemaType.encodeInternal (e : TbEndian) :
    (type : SchemaType) → type.Value → Except PyError (List UInt8)
  | .number t, x => structPack e t.len x.toNat
  | .message m, v => m.encodeInternal e v

def Message.encodeInternal (e : TbEndian) : (m : Message) → m.Value → Except PyError (List UInt8)
  | .nil, _ => pure []
  | .field rule type next, (x, v) => do
    let d ← rule.encode e (type.encodeInternal e) x
    let ds ← next.encodeInternal e v
    pure (d ++ ds)
  | .oneof inner next, (x, v) => do
    let which ← structPack e 1 (inner.which x).toNat
    let d ← inner.encodeInternal e x
    let ds ← next.encodeInternal e v
    pure (which ++ d ++ ds)
  | .emptyOneof _, _ => .error .keyError

/-- `options[self.which](ostream)`: the tags are distinct, so this is the function of the
alternative that has the value. -/
def InnerFields.encodeInternal (e : TbEndian) :
    (inner : InnerFields) → inner.Value → Except PyError (List UInt8)
  | .cons _ type _, .inl x => type.encodeInternal e x
  | .cons _ _ next, .inr x => next.encodeInternal e x

end

/-- `encode` of the generated class. -/
def Message.encode (e : TbEndian) (m : Message) (v : m.Value) : Except PyError (List UInt8) :=
  m.encodeInternal e v

/-! ## Decoding -/

/-- The function `decode_<name>` of a field whose elements `dec` reads. -/
def Rule.decode {α : Type} (e : TbEndian) (dec : PyDecode α) :
    (rule : Rule) → PyDecode (rule.Value α)
  | .required => dec
  | .optional => do
    let has ← unpackByte
    if h : has ≠ 0 then do
      let x ← dec
      pure (some (⟨has, h⟩, x))
    else pure none
  | .repeated size => do
    let count ← unpackNumber e (sizeTypeLen size)
    times count dec
  | .fixedRepeated size => times size dec

mutual

def SchemaType.decodeInternal (e : TbEndian) (empty : PyDecode Unit) :
    (type : SchemaType) → PyDecode type.Value
  | .number t => do
    let x ← unpackNumber e t.len
    pure (BitVec.ofNat (8 * t.len) x)
  | .message m => m.decodeInternal e empty

/-- `empty` is the `decode_internal` of a oneof without alternatives. -/
def Message.decodeInternal (e : TbEndian) (empty : PyDecode Unit) :
    (m : Message) → PyDecode m.Value
  | .nil => pure ()
  | .field rule type next => do
    let x ← rule.decode e (type.decodeInternal e empty)
    let v ← next.decodeInternal e empty
    pure (x, v)
  | .oneof inner next => do
    let which ← unpackByte
    let x ← inner.option e empty which
    let v ← next.decodeInternal e empty
    pure (x, v)
  | .emptyOneof next => do
    empty
    next.decodeInternal e empty

/-- `options[self.which](istream)` -/
def InnerFields.option (e : TbEndian) (empty : PyDecode Unit) (which : UInt8) :
    (inner : InnerFields) → PyDecode inner.Value
  | .nil => Proc.fail .keyError
  | .cons tag type next =>
    if which = tag then do
      let x ← type.decodeInternal e empty
      pure (.inl x)
    else do
      let x ← next.option e empty which
      pure (.inr x)

end

/-- Without options the tag is read, and no function found. -/
def noOptions : PyDecode Unit := do
  let _ ← unpackByte
  Proc.fail .keyError

/-- `decode` of the generated class. -/
def Message.decode (e : TbEndian) (m : Message) (b : List UInt8) : Except PyError m.Value :=
  (m.decodeInternal e noOptions b).1

/-! ## What `encode` gives -/

theorem mapM_ok {α β ε : Type} {f : α → Except ε β} {g : α → β} :
    ∀ {l : List α}, (∀ x ∈ l, f x = .ok (g x)) → l.mapM f = .ok (l.map g)
  | [], _ => rfl
  | x :: l, h => by
    have hx := h x List.mem_cons_self
    have hl := mapM_ok fun y hy => h y (List.mem_cons_of_mem x hy)
    rw [List.mapM_cons, hx, hl]
    rfl

theorem structPack_byte (e : TbEndian) (b : UInt8) : structPack e 1 b.toNat = .ok [b] := by
  rw [structPack, if_pos (by simpa using b.toNat_lt), packed_one]

theorem encodeEntries_eq {α : Type} {enc : α → Except PyError (List UInt8)} {w : α → List UInt8}
    {l : List α} (h : ∀ x ∈ l, enc x = .ok (w x)) :
    encodeEntries enc l.length l = .ok (l.flatMap w) := by
  have hrange : (List.range l.length).mapM (fun i =>
      match l[i]? with
      | some x => enc x
      | none => .error .indexError) =
      .ok ((List.range l.length).map fun i => (l[i]?.map w).getD []) := by
    apply mapM_ok
    intro i hi
    have hlt : i < l.length := List.mem_range.mp hi
    rw [List.getElem?_eq_getElem hlt]
    exact h _ (List.getElem_mem hlt)
  have hmap : (List.range l.length).map (fun i => (l[i]?.map w).getD []) = l.map w := by
    apply List.ext_getElem
    · simp
    · intro i _ hi
      rw [List.length_map] at hi
      simp [List.getElem?_eq_getElem hi]
  rw [encodeEntries, hrange, hmap]
  rfl

theorem Rule.encode_eq {α : Type} {e : TbEndian} {enc : α → Except PyError (List UInt8)}
    {w : α → List UInt8} (rule : Rule) {x : rule.Value α} (hx : rule.Counted x)
    (henc : ∀ y ∈ rule.entries x, enc y = .ok (w y)) :
    rule.encode e enc x = .ok (rule.head e x ++ (rule.entries x).flatMap w) := by
  cases rule with
  | required =>
    have h := henc x (List.mem_singleton_self x)
    have hw : w x = [x].flatMap w := (List.flatMap_singleton w x).symm
    rw [Rule.encode, h, hw]
    rfl
  | optional =>
    cases x with
    | none => simpa [Rule.encode, Rule.head, Rule.entries] using structPack_byte e 0
    | some present =>
      obtain ⟨flag, y⟩ := present
      have h := henc y (List.mem_singleton_self y)
      rw [Rule.encode, structPack_byte, h]
      simp [Rule.head, Rule.entries]
      rfl
  | repeated size =>
    have hcount : structPack e (sizeTypeLen size) (@List.length α x) =
        .ok (packed e (sizeTypeLen size) (@List.length α x)) := if_pos hx
    have hentries : encodeEntries enc (@List.length α x) x = .ok (@List.flatMap α UInt8 w x) :=
      encodeEntries_eq henc
    rw [Rule.encode, hcount, hentries]
    rfl
  | fixedRepeated size =>
    have hlen : @List.length α x = size := hx
    have hentries : encodeEntries enc (@List.length α x) x = .ok (@List.flatMap α UInt8 w x) :=
      encodeEntries_eq henc
    rw [hlen] at hentries
    exact hentries

mutual

theorem SchemaType.encodeInternal_eq (e : TbEndian) : (type : SchemaType) → {x : type.Value} →
    type.Meets .encodable x → type.encodeInternal e x = .ok (type.wire e x)
  | .number t, x, _ => by
    have hlt : BitVec.toNat x < 256 ^ t.len := by
      have h := BitVec.isLt x
      rwa [Nat.pow_mul] at h
    exact if_pos hlt
  | .message m, _, h => m.encodeInternal_eq e h.2

/-- `encode_internal` writes the wire format of an encodable value. -/
theorem Message.encodeInternal_eq (e : TbEndian) : (m : Message) → {v : m.Value} →
    m.Meets .encodable v → m.encodeInternal e v = .ok (m.wire e v)
  | .nil, _, _ => rfl
  | .field rule type next, (x, v), ⟨⟨hx, hall⟩, hv⟩ => by
    have hfield := rule.encode_eq (e := e) hx fun y hy => type.encodeInternal_eq e (hall y hy)
    rw [Message.encodeInternal, hfield, next.encodeInternal_eq e hv]
    rfl
  | .oneof inner next, (x, v), ⟨hx, hv⟩ => by
    rw [Message.encodeInternal, structPack_byte, inner.encodeInternal_eq e hx,
      next.encodeInternal_eq e hv]
    rfl
  | .emptyOneof _, _, h => h.1.elim

theorem InnerFields.encodeInternal_eq (e : TbEndian) : (inner : InnerFields) →
    {x : inner.Value} → inner.Meets .encodable x → inner.encodeInternal e x = .ok (inner.wire e x)
  | .cons _ type _, .inl _, h => type.encodeInternal_eq e h
  | .cons _ _ next, .inr _, h => next.encodeInternal_eq e h

end

/-! ## What `decode` accepts -/

theorem read_ok {l : Nat} {b d r : List UInt8} :
    read l b = (.ok d, r) ↔ d.length = l ∧ b = d ++ r := by
  unfold read
  split
  · simp only [Prod.mk.injEq, reduceCtorEq, false_and, false_iff, not_and]
    rintro rfl rfl
    rw [List.length_append] at *
    omega
  · simp only [Prod.mk.injEq, Except.ok.injEq]
    constructor
    · rintro ⟨rfl, rfl⟩
      rw [List.length_take]
      exact ⟨by omega, (List.take_append_drop l b).symm⟩
    · rintro ⟨rfl, rfl⟩
      simp

theorem parses_read (l : Nat) : Parses (read l) (fun d => d) fun d => d.length = l where
  sound hx := read_ok.mp hx
  complete _ hd := read_ok.mpr ⟨hd, rfl⟩

theorem parses_unpackNumber (e : TbEndian) (n : Nat) :
    Parses (unpackNumber e n) (packed e n) (· < 256 ^ n) := by
  refine (parses_read n).map (fun x => ?_) fun d hd => ?_
  · constructor
    · exact fun hx => ⟨packed e n x, packed_length e n x, unpacked_packed e hx⟩
    · rintro ⟨d, rfl, rfl⟩
      exact unpacked_lt e d
  · rw [← hd, packed_unpacked]

theorem parses_unpackByte : Parses unpackByte (fun b => [b]) fun _ => True := by
  refine (parses_read 1).map (fun b => ?_) fun d hd => ?_
  · exact ⟨fun _ => ⟨[b], rfl, rfl⟩, fun _ => trivial⟩
  · obtain ⟨b, rfl⟩ := List.length_eq_one_iff.mp hd
    rfl

theorem Rule.parses {α : Type} (e : TbEndian) {dec : PyDecode α} {w : α → List UInt8}
    {P : α → Prop} (h : Parses dec w P) (rule : Rule) :
    Parses (rule.decode e dec) (fun x => rule.head e x ++ (rule.entries x).flatMap w)
      fun x => rule.Counted x ∧ ∀ y ∈ rule.entries x, P y := by
  cases rule with
  | required =>
    refine h.congr (fun x => ?_) fun x _ => ?_
    · simp [Rule.Counted, Rule.entries]
    · simp [Rule.head, Rule.entries]
  | optional =>
    have hflag := parses_unpackByte.bind (γ := Option ({ flag : UInt8 // flag ≠ 0 } × α))
      (f := fun has => if h : has ≠ 0 then (do
        let x ← dec
        pure (some (⟨has, h⟩, x))) else pure none)
      (v := fun x => (Rule.entries .optional x).flatMap w)
      (Q := fun x => ∀ y ∈ Rule.entries .optional x, P y)
      (fun x => (x.map fun present => present.1.val).getD 0) (fun has _ => ?_)
    · refine hflag.congr (fun x => ?_) fun x _ => rfl
      simp [Rule.Counted]
    · by_cases hne : has ≠ 0
      · rw [dif_pos hne]
        refine h.map (fun x => ?_) fun y _ => by simp [Rule.entries]
        constructor
        · intro ⟨hx, hall⟩
          cases x with
          | none => exact absurd hx.symm hne
          | some present =>
            obtain ⟨flag, y⟩ := present
            have heq : flag.val = has := hx
            refine ⟨y, hall y (List.mem_singleton_self y), ?_⟩
            rw [Option.some.injEq, Prod.mk.injEq]
            exact ⟨Subtype.ext heq.symm, rfl⟩
        · rintro ⟨y, hy, rfl⟩
          refine ⟨rfl, fun z hz => ?_⟩
          rw [show z = y from List.mem_singleton.mp hz]
          exact hy
      · rw [dif_neg hne]
        rw [not_not] at hne
        refine (Parses.pure none).congr (fun x => ?_) fun x hx => by rw [hx]; rfl
        constructor
        · intro ⟨hx, _⟩
          cases x with
          | none => rfl
          | some present => exact absurd (hx.trans hne) present.1.property
        · rintro rfl
          exact ⟨hne.symm, fun y hy => nomatch hy⟩
  | repeated size =>
    have hcount := (parses_unpackNumber e (sizeTypeLen size)).bind
      (f := fun count => times count dec) (v := fun l => l.flatMap w)
      (Q := fun l => ∀ y ∈ l, P y) List.length fun n _ => h.times n
    exact hcount
  | fixedRepeated size =>
    exact (h.times size).congr (fun _ => Iff.rfl) fun _ _ => rfl

theorem parses_number (e : TbEndian) (empty : PyDecode Unit) (t : NumberType) :
    Parses (SchemaType.decodeInternal e empty (.number t)) (SchemaType.wire e (.number t))
      fun _ => True := by
  have hpow : 2 ^ (8 * t.len) = 256 ^ t.len := by rw [Nat.pow_mul]
  refine (parses_unpackNumber e t.len).map (fun x => ?_) fun x hx => ?_
  · have hlt := BitVec.isLt x
    refine ⟨fun _ => ⟨BitVec.toNat x, by rwa [hpow] at hlt, ?_⟩, fun _ => trivial⟩
    apply BitVec.eq_of_toNat_eq
    rw [BitVec.toNat_ofNat, Nat.mod_eq_of_lt hlt]
  · have hmod : (BitVec.ofNat (8 * t.len) x).toNat = x := by
      rw [BitVec.toNat_ofNat, hpow, Nat.mod_eq_of_lt hx]
    exact congrArg (packed e t.len) hmod

/-- A demand on the values that a reader with `empty` for the oneofs without alternatives
accepts. -/
def Demand.countedAnd (p : Prop) : Demand := ⟨Rule.Counted, p, fun _ => True⟩

section Decode

variable (e : TbEndian) {empty : PyDecode Unit} {p : Prop}

mutual

theorem SchemaType.parses (hempty : Parses empty (fun _ => []) fun _ => p) :
    (type : SchemaType) → type.Accepted →
    Parses (type.decodeInternal e empty) (type.wire e) (type.Meets (.countedAnd p))
  | .number t, _ => parses_number e empty t
  | .message m, h => (Message.parses hempty m h).congr
      (fun _ => ⟨And.right, fun hv => ⟨trivial, hv⟩⟩) fun _ _ => rfl

/-- `decode_internal` accepts what begins with the wire format of a value whose lists can be
counted, and returns that value. -/
theorem Message.parses (hempty : Parses empty (fun _ => []) fun _ => p) :
    (m : Message) → m.Accepted →
    Parses (m.decodeInternal e empty) (m.wire e) (m.Meets (.countedAnd p))
  | .nil, _ => (Parses.pure ()).congr (fun _ => ⟨fun _ => rfl, fun _ => trivial⟩) fun _ _ => rfl
  | .field rule type next, ⟨_, ht, hn⟩ =>
    (rule.parses e (SchemaType.parses hempty type ht)).bind Prod.fst fun x _ =>
      (Message.parses hempty next hn).pair x
  | .oneof inner next, ⟨⟨_, hi⟩, hn⟩ => by
    have hbody : ∀ which, True → Parses (inner.option e empty which >>= fun x =>
        next.decodeInternal e empty >>= fun v => pure (x, v))
        (fun c => inner.wire e c.1 ++ next.wire e c.2) fun c =>
          inner.which c.1 = which ∧ inner.Meets (.countedAnd p) c.1 ∧
            next.Meets (.countedAnd p) c.2 := by
      intro which _
      have h := (InnerFields.parses hempty which inner hi).bind Prod.fst fun x _ =>
        (Message.parses hempty next hn).pair x
      exact h.congr (fun _ => and_assoc.symm) fun _ _ => rfl
    have h := parses_unpackByte.bind (fun c : inner.Value × next.Value => inner.which c.1) hbody
    exact h.congr (fun _ => ⟨fun hc => ⟨trivial, hc⟩, And.right⟩) fun _ _ => rfl
  | .emptyOneof next, hn => by
    have h := hempty.bind (fun _ => ()) fun _ _ =>
      (Message.parses hempty next hn).congr (fun _ => ⟨And.right, fun hv => ⟨rfl, hv⟩⟩)
        fun _ _ => rfl
    exact h

theorem InnerFields.parses (hempty : Parses empty (fun _ => []) fun _ => p)
    (which : UInt8) : (inner : InnerFields) → inner.Accepted →
    Parses (inner.option e empty which) (inner.wire e)
      fun x => inner.which x = which ∧ inner.Meets (.countedAnd p) x
  | .nil, _ => by
    constructor
    · exact fun hx => nomatch hx
    · exact fun {a} => nomatch a
  | .cons tag type next, ⟨htag, ht, hn⟩ => by
    unfold InnerFields.option
    by_cases heq : which = tag
    · rw [if_pos heq]
      refine (SchemaType.parses hempty type ht).map (fun x => ?_) fun _ _ => rfl
      constructor
      · intro ⟨hwhich, henc⟩
        cases x with
        | inl x => exact ⟨x, henc, rfl⟩
        | inr x =>
          have hmem := next.which_mem x
          rw [show next.which x = tag from hwhich.trans heq] at hmem
          exact absurd hmem htag
      · rintro ⟨x, hx, rfl⟩
        exact ⟨heq.symm, hx⟩
    · rw [if_neg heq]
      refine (InnerFields.parses hempty which next hn).map (fun x => ?_) fun _ _ => rfl
      constructor
      · intro ⟨hwhich, henc⟩
        cases x with
        | inl x => exact absurd (hwhich.symm) heq
        | inr x => exact ⟨x, ⟨hwhich, henc⟩, rfl⟩
      · rintro ⟨x, hx, rfl⟩
        exact hx

end

end Decode

/-- The generated decoder parses the encodable values. -/
theorem Message.parses_encodable (e : TbEndian) (m : Message) (hm : m.Accepted) :
    Parses (m.decodeInternal e noOptions) (m.wire e) (m.Meets .encodable) := by
  refine Message.parses e ⟨fun hx => ?_, fun _ h => h.elim⟩ m hm
  obtain ⟨_, _, _, hfail⟩ := Proc.bind_eq_ok.mp hx
  exact nomatch hfail

/-- The counts and tags on the wire determine the value. -/
theorem Message.wire_unique (e : TbEndian) {m : Message} (hm : m.Accepted) {v v' : m.Value}
    {r r' : List UInt8} (hv : m.Meets .counted v) (hv' : m.Meets .counted v')
    (h : m.wire e v ++ r = m.wire e v' ++ r') : v = v' ∧ r = r' := by
  have hpure : Parses (pure () : PyDecode Unit) (fun _ => []) fun _ => True :=
    (Parses.pure ()).congr (fun _ => ⟨fun _ => rfl, fun _ => trivial⟩) fun _ _ => rfl
  exact (Message.parses e hpure m hm).unique hv hv' h

end OpenBadge.Tinybuf
