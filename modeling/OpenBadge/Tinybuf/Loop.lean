import OpenBadge.Tinybuf.Format

/-!
# tinybuf.c: the loops over a table

`tb_encode` and `tb_decode` walk through a table with an index of type `uint8_t`. Tables
of up to 255 entries are walked through once. From a longer table the loop never finds
the end: index 255 is followed by index 0.
-/

namespace OpenBadge.Tinybuf

open OpenBadge.Lib

/-- `&fields[i]` -/
def Fields.drop : Fields → Nat → Fields
  | fields, 0 => fields
  | .last, _ + 1 => .last
  | .entry _ _ next, i + 1 => next.drop i

/-- `check_oneof_which_tag_validity` from entry `i` on, for `fuel` passes. -/
def whichTagLoop (fields : Fields) (which : UInt8) : Nat → Nat → Bool
  | 0, _ => false
  | fuel + 1, i =>
    match fields.drop i with
    | .last => false
    | .entry f _ _ =>
      if f.oneofTag = which then true
      else match fields.drop ((i + 1) % 256) with
        | .last => false
        | .entry g _ _ =>
          if g.type &&& 16 ≠ 0 ∧ g.oneofFirst = false then
            whichTagLoop fields which fuel ((i + 1) % 256)
          else false

/-- What `tb_encode` and `tb_decode` do differently: the rules of a field, given what to
do with its elements, and the numbers of a field. -/
structure Walker (σ : Type) where
  field : TbField → (UInt8 → Bool) → Nat → (Nat → Proc σ Unit Unit) → Proc σ Unit Unit
  numbers : TbField → Nat → Nat → Proc σ Unit Unit

variable {σ : Type}

/-- The body of the loop; `sub` is the call for a message in an element. -/
def Walker.entry (w : Walker σ) (f : TbField) (tagValid : UInt8 → Bool) (base : Nat)
    (sub : Nat → Proc σ Unit Unit) : Proc σ Unit Unit :=
  match f.dataKind with
  | none => Proc.fail ()
  | some .number => w.field f tagValid base (w.numbers f base)
  | some .message =>
    w.field f tagValid base fun n => Proc.forUpTo n fun k => sub (f.dataPtr base + k * f.dataSize)

/-- The loop from index `i` on. A run that has not ended after `fuel` passes and calls
counts as failed. -/
def Walker.loop (w : Walker σ) : Nat → Fields → Nat → Nat → Proc σ Unit Unit
  | 0, _, _, _ => Proc.fail ()
  | fuel + 1, fields, i, base =>
    match fields.drop i with
    | .last => pure ()
    | .entry f ptr _ => do
      w.entry f (fun which => whichTagLoop fields which 256 i) base (w.loop fuel ptr 0)
      w.loop fuel fields ((i + 1) % 256) base

def encodeWalker (host out : TbEndian) (src : Memory) : Walker TbOstream where
  field := encodeField host out src
  numbers f base n :=
    tbWriteToOstreamBigEndian host src (f.dataPtr base) (f.dataSize % 256) n out

def decodeWalker (host inp : TbEndian) : Walker DecodeState where
  field := decodeField host inp
  numbers f base n :=
    tbReadFromIstreamLittleEndian host (f.dataPtr base) (f.dataSize % 256) n inp

/-- The same walk by recursion over the table, in which a table with more than 255 entries
fails. -/
def Walker.walk (w : Walker σ) : Fields → Nat → Proc σ Unit Unit
  | .last, _ => pure ()
  | .entry f ptr next, base => do
    w.entry f (checkOneofWhichTagValidity (.entry f ptr next)) base fun a =>
      if ptr.length ≤ 255 then w.walk ptr a else Proc.fail ()
    w.walk next base

/-- The calls of a walk that return 1, with the states they end in. -/
def Walker.Returns1 (w : Walker σ) (fields : Fields) (base : Nat) (s t : σ) : Prop :=
  ∃ fuel, w.loop fuel fields 0 base s = (.ok (), t)

/-! ## The table behind an index -/

@[simp] theorem drop_zero (fields : Fields) : fields.drop 0 = fields := by
  cases fields <;> rfl

theorem drop_succ {fields : Fields} {f : TbField} {ptr next : Fields} {i : Nat}
    (h : fields.drop i = .entry f ptr next) : fields.drop (i + 1) = next := by
  induction i generalizing fields with
  | zero =>
    rw [drop_zero] at h
    rw [h]
    exact drop_zero next
  | succ i ih =>
    cases fields with
    | last => exact nomatch h
    | entry g ptr' next' => exact @ih next' h

theorem length_drop (fields : Fields) (i : Nat) :
    (fields.drop i).length = fields.length - i := by
  induction i generalizing fields with
  | zero => rw [drop_zero]; rfl
  | succ i ih =>
    cases fields with
    | last => simp [Fields.drop, Fields.length]
    | entry f ptr next =>
      rw [Fields.drop, ih, Fields.length]
      omega

theorem index_lt {fields : Fields} {f : TbField} {ptr next : Fields} {i : Nat}
    (h : fields.drop i = .entry f ptr next) : i < fields.length := by
  have hlen := length_drop fields i
  rw [h, Fields.length] at hlen
  omega

theorem drop_ne_last {fields : Fields} {i : Nat} (h : i < fields.length) :
    fields.drop i ≠ .last := by
  intro hlast
  have hlen := length_drop fields i
  rw [hlast, Fields.length] at hlen
  omega

/-- In a table of up to 255 entries the check reads the group that begins at `i`. -/
theorem whichTagLoop_eq {fields : Fields} (hlen : fields.length ≤ 255) (which : UInt8) :
    ∀ (fuel i : Nat), (fields.drop i).length ≤ fuel →
      whichTagLoop fields which fuel i = checkOneofWhichTagValidity (fields.drop i) which
  | 0, i, hfuel => by
    cases hd : fields.drop i with
    | last => rfl
    | entry f ptr next => simp [hd, Fields.length] at hfuel
  | fuel + 1, i, hfuel => by
    unfold whichTagLoop
    cases hd : fields.drop i with
    | last => rfl
    | entry f ptr next =>
      have hi := index_lt hd
      rw [hd, Fields.length] at hfuel
      unfold checkOneofWhichTagValidity
      dsimp only
      rw [Nat.mod_eq_of_lt (by omega), drop_succ hd]
      have ih := whichTagLoop_eq hlen which fuel (i + 1) (by rw [drop_succ hd]; omega)
      rw [drop_succ hd] at ih
      cases next with
      | last => rfl
      | entry g ptr next => simp only [ih]

/-! ## Successful runs -/

/-- Every successful run of `x` is one of `y`. -/
def OkLe (x y : Proc σ Unit Unit) : Prop := ∀ s t, x s = (.ok (), t) → y s = (.ok (), t)

theorem OkLe.refl (x : Proc σ Unit Unit) : OkLe x x := fun _ _ h => h

theorem OkLe.of_fail (y : Proc σ Unit Unit) : OkLe (Proc.fail ()) y := fun _ _ h => nomatch h

theorem OkLe.bind {α : Type} (z : Proc σ Unit α) {x y : α → Proc σ Unit Unit}
    (h : ∀ a, OkLe (x a) (y a)) : OkLe (z >>= x) (z >>= y) := by
  intro s t hz
  obtain ⟨a, u, hzu, hx⟩ := Proc.bind_eq_ok.mp hz
  exact Proc.bind_eq_ok.mpr ⟨a, u, hzu, h a u t hx⟩

theorem OkLe.seq {x y x' y' : Proc σ Unit Unit} (h : OkLe x y) (h' : OkLe x' y') :
    OkLe (x >>= fun _ => x') (y >>= fun _ => y') := by
  intro s t hx
  obtain ⟨_, u, hxu, hxt⟩ := Proc.bind_eq_ok.mp hx
  exact Proc.bind_eq_ok.mpr ⟨(), u, h s u hxu, h' u t hxt⟩

theorem OkLe.when {p : Prop} [Decidable p] {x y : Proc σ Unit Unit} (h : OkLe x y) :
    OkLe (Proc.when p x) (Proc.when p y) := by
  by_cases hp : p
  · rw [Proc.when_pos hp, Proc.when_pos hp]
    exact h
  · rw [Proc.when_neg hp, Proc.when_neg hp]
    exact OkLe.refl _

theorem OkLe.forUpTo {x y : Nat → Proc σ Unit Unit} (h : ∀ k, OkLe (x k) (y k)) :
    ∀ n, OkLe (Proc.forUpTo n x) (Proc.forUpTo n y)
  | 0 => OkLe.refl _
  | n + 1 => (OkLe.forUpTo h n).seq (h n)

/-- The rules of a field pass on what its elements do. -/
def Walker.Passes (w : Walker σ) : Prop :=
  ∀ f tagValid base x y, (∀ n, OkLe (x n) (y n)) →
    OkLe (w.field f tagValid base x) (w.field f tagValid base y)

theorem encodeWalker_passes (host out : TbEndian) (src : Memory) :
    (encodeWalker host out src).Passes := by
  intro f tagValid base x y h
  change OkLe (encodeField host out src f tagValid base x)
    (encodeField host out src f tagValid base y)
  unfold encodeField
  cases f.fieldType with
  | none => exact OkLe.refl _
  | some r =>
    cases r with
    | required => exact h 1
    | optional => exact OkLe.bind _ fun _ => (h 1).when
    | repeated => exact OkLe.bind _ fun _ => OkLe.bind _ fun _ => OkLe.bind _ fun _ => h _
    | fixedRepeated => exact h _
    | oneof => exact OkLe.bind _ fun _ => (h 1).when

theorem decodeWalker_passes (host inp : TbEndian) : (decodeWalker host inp).Passes := by
  intro f tagValid base x y h
  change OkLe (decodeField host inp f tagValid base x) (decodeField host inp f tagValid base y)
  unfold decodeField
  cases f.fieldType with
  | none => exact OkLe.refl _
  | some r =>
    cases r with
    | required => exact h 1
    | optional => exact OkLe.bind _ fun _ => OkLe.bind _ fun _ => OkLe.bind _ fun _ => (h 1).when
    | repeated =>
      exact OkLe.bind _ fun _ => OkLe.bind _ fun _ => OkLe.bind _ fun _ => OkLe.bind _ fun _ => h _
    | fixedRepeated => exact h _
    | oneof => exact OkLe.bind _ fun _ => OkLe.bind _ fun _ => OkLe.bind _ fun _ => (h 1).when

theorem Walker.entry_okLe {w : Walker σ} (hw : w.Passes) (f : TbField) (tagValid : UInt8 → Bool)
    (base : Nat) {x y : Nat → Proc σ Unit Unit} (h : ∀ a, OkLe (x a) (y a)) :
    OkLe (w.entry f tagValid base x) (w.entry f tagValid base y) := by
  unfold Walker.entry
  cases f.dataKind with
  | none => exact OkLe.refl _
  | some kind =>
    cases kind with
    | number => exact OkLe.refl _
    | message => exact hw f tagValid base _ _ fun n => OkLe.forUpTo (fun k => h _) n

/-! ## What the loop does -/

/-- A table of more than 255 entries is never left. -/
theorem Walker.loop_long (w : Walker σ) {fields : Fields} (hlen : 255 < fields.length)
    (base : Nat) : ∀ (fuel i : Nat), i < 256 → ∀ s t, w.loop fuel fields i base s ≠ (.ok (), t)
  | 0, _, _, _, _, h => nomatch h
  | fuel + 1, i, hi, s, t, h => by
    unfold Walker.loop at h
    cases hd : fields.drop i with
    | last => exact drop_ne_last (by omega) hd
    | entry f ptr next =>
      rw [hd] at h
      obtain ⟨_, u, _, hrest⟩ := Proc.bind_eq_ok.mp h
      exact w.loop_long hlen base fuel ((i + 1) % 256) (Nat.mod_lt _ (by decide)) u t hrest

/-- A pass of the loop in a table of up to 255 entries, and the same pass of the walk. -/
theorem Walker.loop_entry (w : Walker σ) {fields : Fields} {f : TbField} {ptr next : Fields}
    {i : Nat} (hlen : fields.length ≤ 255) (hd : fields.drop i = .entry f ptr next)
    (fuel base : Nat) :
    w.loop (fuel + 1) fields i base =
      (w.entry f (checkOneofWhichTagValidity (.entry f ptr next)) base (w.loop fuel ptr 0) >>=
        fun _ => w.loop fuel fields (i + 1) base) := by
  have hi := index_lt hd
  have htag : (fun which => whichTagLoop fields which 256 i) =
      checkOneofWhichTagValidity (.entry f ptr next) := by
    funext which
    rw [whichTagLoop_eq hlen which 256 i (by rw [length_drop]; omega), hd]
  rw [Walker.loop, hd, ← htag]
  dsimp only
  rw [Nat.mod_eq_of_lt (show i + 1 < 256 by omega)]

/-- What the loop over a table of up to 255 entries does, the walk does. -/
theorem Walker.loop_le_walk {w : Walker σ} (hw : w.Passes) :
    ∀ (fuel : Nat) {fields : Fields} (i base : Nat), fields.length ≤ 255 →
      OkLe (w.loop fuel fields i base) (w.walk (fields.drop i) base)
  | 0, _, _, _, _ => OkLe.of_fail _
  | fuel + 1, fields, i, base, hlen => by
    cases hd : fields.drop i with
    | last =>
      rw [Walker.loop, hd]
      exact OkLe.refl _
    | entry f ptr next =>
      rw [w.loop_entry hlen hd, Walker.walk]
      refine OkLe.seq (Walker.entry_okLe hw f _ base fun a => ?_) ?_
      · by_cases hptr : ptr.length ≤ 255
        · rw [if_pos hptr]
          have h := Walker.loop_le_walk hw fuel 0 a hptr
          rwa [drop_zero] at h
        · intro s t h
          exact absurd h (w.loop_long (by omega) a fuel 0 (by decide) s t)
      · have h := Walker.loop_le_walk hw fuel (i + 1) base hlen
        rwa [drop_succ hd] at h

/-- The passes and calls that a walk takes. -/
def Fields.passes : Fields → Nat
  | .last => 1
  | .entry _ ptr next => ptr.passes + next.passes + 1

/-- With enough fuel the loop does what the walk does. -/
theorem Walker.walk_le_loop {w : Walker σ} (hw : w.Passes) :
    ∀ (fuel : Nat) {fields : Fields} (i base : Nat), fields.length ≤ 255 →
      (fields.drop i).passes ≤ fuel → OkLe (w.walk (fields.drop i) base) (w.loop fuel fields i base)
  | 0, fields, i, _, _, hfuel => by
    cases hd : fields.drop i with
    | last => simp [hd, Fields.passes] at hfuel
    | entry f ptr next => simp [hd, Fields.passes] at hfuel
  | fuel + 1, fields, i, base, hlen, hfuel => by
    cases hd : fields.drop i with
    | last =>
      rw [Walker.loop, hd]
      exact OkLe.refl _
    | entry f ptr next =>
      have hnext := drop_succ hd
      rw [hd, Fields.passes] at hfuel
      rw [w.loop_entry hlen hd, Walker.walk]
      refine OkLe.seq (Walker.entry_okLe hw f _ base fun a => ?_) ?_
      · by_cases hptr : ptr.length ≤ 255
        · rw [if_pos hptr]
          have h := Walker.walk_le_loop hw fuel 0 a hptr (by rw [drop_zero]; omega)
          rwa [drop_zero] at h
        · rw [if_neg hptr]
          exact OkLe.of_fail _
      · have h := Walker.walk_le_loop hw fuel (i + 1) base hlen (by rw [hnext]; omega)
        rwa [hnext] at h

/-- What returns 1: the walks over tables of up to 255 entries. -/
theorem Walker.returns1_iff {w : Walker σ} (hw : w.Passes) {fields : Fields} {base : Nat}
    {s t : σ} : w.Returns1 fields base s t ↔
      fields.length ≤ 255 ∧ w.walk fields base s = (.ok (), t) := by
  constructor
  · rintro ⟨fuel, h⟩
    by_cases hlen : fields.length ≤ 255
    · have hwalk := Walker.loop_le_walk hw fuel 0 base hlen s t h
      rw [drop_zero] at hwalk
      exact ⟨hlen, hwalk⟩
    · exact absurd h (w.loop_long (by omega) base fuel 0 (by decide) s t)
  · rintro ⟨hlen, h⟩
    have hpasses : (fields.drop 0).passes ≤ fields.passes := Nat.le_of_eq (by rw [drop_zero])
    have hle := Walker.walk_le_loop hw fields.passes 0 base hlen hpasses
    rw [drop_zero] at hle
    exact ⟨fields.passes, hle s t h⟩

/-- Over a description whose tables are all short, the walks are `tbEncode` and `tbDecode`. -/
theorem encodeWalker_walk (host out : TbEndian) (src : Memory) (fields : Fields) :
    ∀ {size base : Nat}, fields.Describes size →
      (encodeWalker host out src).walk fields base = tbEncode host out src fields base := by
  induction fields with
  | last => intros; rfl
  | entry f ptr next ihp ihn =>
    rintro size base ⟨-, hptr, -, -, hdn⟩
    unfold Walker.walk tbEncode Walker.entry
    rw [ihn hdn]
    cases hkind : f.dataKind with
    | none => rfl
    | some kind =>
      cases kind with
      | number => rfl
      | message =>
        obtain ⟨hdp, -, hlen⟩ := hptr hkind
        simp only [if_pos hlen, ihp hdp]
        rfl

theorem decodeWalker_walk (host inp : TbEndian) (fields : Fields) :
    ∀ {size base : Nat}, fields.Describes size →
      (decodeWalker host inp).walk fields base = tbDecode host inp fields base := by
  induction fields with
  | last => intros; rfl
  | entry f ptr next ihp ihn =>
    rintro size base ⟨-, hptr, -, -, hdn⟩
    unfold Walker.walk tbDecode Walker.entry
    rw [ihn hdn]
    cases hkind : f.dataKind with
    | none => rfl
    | some kind =>
      cases kind with
      | number => rfl
      | message =>
        obtain ⟨hdp, -, hlen⟩ := hptr hkind
        simp only [if_pos hlen, ihp hdp]
        rfl

end OpenBadge.Tinybuf
