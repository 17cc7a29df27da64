import OpenBadge.Tinybuf.RoundTrip
import Mathlib.Order.Interval.Finset.Nat

/-!
# The longest encoding of a description

Every optional entry present, every array full, and of each oneof group the longest
alternative. No encoding is longer, some value is as long, and the length is at most
the size of the structure.
-/

namespace OpenBadge.Tinybuf

open OpenBadge.Lib

mutual

/-- The length of the longest encoding of the entries; those that continue a oneof
group are counted where the group opens. -/
def Fields.longest : Fields → Nat
  | .last => 0
  | .entry f ptr next =>
    if f.continuesOneof then next.longest
    else
      (if f.sendsSize then f.sizeSize else 0) +
      (if f.fieldType = some .oneof then
        max (if f.dataKind = some .message then ptr.longest else f.dataSize)
          next.longestAlternative
      else f.room * (if f.dataKind = some .message then ptr.longest else f.dataSize)) +
      next.longest

/-- The longest of the alternatives in front, which continue a oneof group. -/
def Fields.longestAlternative : Fields → Nat
  | .last => 0
  | .entry f ptr next =>
    if f.continuesOneof then
      max (if f.dataKind = some .message then ptr.longest else f.dataSize) next.longestAlternative
    else 0

end

/-- The longest encoding of one entry of a field. -/
def entryLongest (f : TbField) (ptr : Fields) : Nat :=
  if f.dataKind = some .message then ptr.longest else f.dataSize

/-- What the alternatives in front add when the group's tag is `which`. -/
def Fields.chosen (which : UInt8) : Fields → Nat
  | .last => 0
  | .entry f ptr next =>
    if f.continuesOneof then
      (if which = f.oneofTag then entryLongest f ptr else 0) + next.chosen which
    else 0

section Equations

variable {f : TbField} {ptr next : Fields} {which : UInt8}

theorem longest_of_continues (h : f.continuesOneof = true) :
    (Fields.entry f ptr next).longest = next.longest := by
  rw [Fields.longest, if_pos h]

theorem longest_of_opens (h : f.continuesOneof = false) (ho : f.fieldType = some .oneof) :
    (Fields.entry f ptr next).longest =
      (if f.sendsSize then f.sizeSize else 0) +
        max (entryLongest f ptr) next.longestAlternative + next.longest := by
  rw [Fields.longest, if_neg (by rw [h]; exact Bool.false_ne_true), if_pos ho, entryLongest]

theorem longest_of_ne_oneof (ho : f.fieldType ≠ some .oneof) :
    (Fields.entry f ptr next).longest =
      (if f.sendsSize then f.sizeSize else 0) + f.room * entryLongest f ptr + next.longest := by
  have h : ¬ f.continuesOneof = true := fun h => ho (oneof_of_continuesOneof h).1
  rw [Fields.longest, if_neg h, if_neg ho, entryLongest]

theorem longestAlternative_of_continues (h : f.continuesOneof = true) :
    (Fields.entry f ptr next).longestAlternative =
      max (entryLongest f ptr) next.longestAlternative := by
  rw [Fields.longestAlternative, if_pos h, entryLongest]

theorem longestAlternative_of_not_continues {fields : Fields} (h : fields.continuesOneof = false) :
    fields.longestAlternative = 0 := by
  cases fields with
  | last => simp [Fields.longestAlternative]
  | entry f ptr next =>
    change f.continuesOneof = false at h
    simp [Fields.longestAlternative, h]

theorem chosen_of_continues (h : f.continuesOneof = true) :
    (Fields.entry f ptr next).chosen which =
      (if which = f.oneofTag then entryLongest f ptr else 0) + next.chosen which := by
  rw [Fields.chosen, if_pos h]

theorem chosen_of_not_continues {fields : Fields} (h : fields.continuesOneof = false) :
    fields.chosen which = 0 := by
  cases fields with
  | last => rfl
  | entry f ptr next =>
    change f.continuesOneof = false at h
    simp [Fields.chosen, h]

end Equations

/-! ## The alternatives of a group -/

/-- A tag names one alternative: behind the entry that has it nothing is chosen. -/
theorem chosen_of_follows {f : TbField} (next : Fields) (h : Follows f true next) :
    next.chosen f.oneofTag = 0 := by
  induction next with
  | last => rfl
  | entry g ptr next _ ihn =>
    cases hg : g.continuesOneof with
    | false => exact chosen_of_not_continues hg
    | true =>
      unfold Follows at h
      rw [if_pos (by simp [hg])] at h
      rw [chosen_of_continues hg, if_neg h.1.tag_ne, ihn h.2]

theorem follows_of_oneof {f : TbField} {next : Fields} (ho : f.fieldType = some .oneof)
    (h : Follows f (f.fieldType = some .oneof) next) : Follows f true next := by
  simpa [ho] using h

/-- Whatever the tag, the entry and the alternatives behind it add no more than the
longest of them. -/
theorem chosen_le {f : TbField} {ptr : Fields} (next : Fields) {size : Nat} (which : UInt8)
    (ho : f.fieldType = some .oneof) (hd : (Fields.entry f ptr next).Describes size) :
    (if which = f.oneofTag then entryLongest f ptr else 0) + next.chosen which ≤
      max (entryLongest f ptr) next.longestAlternative := by
  induction next generalizing f ptr with
  | last =>
    rw [chosen_of_not_continues rfl]
    split <;> omega
  | entry g ptr' next' _ ihn =>
    obtain ⟨-, -, hfollows, -, hdn⟩ := hd
    by_cases hw : which = f.oneofTag
    · rw [if_pos hw, hw, chosen_of_follows _ (follows_of_oneof ho hfollows)]
      omega
    · rw [if_neg hw]
      cases hg : g.continuesOneof with
      | false =>
        rw [chosen_of_not_continues (show (Fields.entry g ptr' next').continuesOneof = false from hg)]
        omega
      | true =>
        have ih := ihn (oneof_of_continuesOneof hg).1 hdn
        rw [chosen_of_continues hg, longestAlternative_of_continues hg]
        omega

theorem first_alternative_longest {f : TbField} {ptr next : Fields} {size : Nat}
    (ho : f.fieldType = some .oneof) (hd : (Fields.entry f ptr next).Describes size)
    (hle : next.longestAlternative ≤ entryLongest f ptr) :
    ∃ which, checkOneofWhichTagValidity (.entry f ptr next) which = true ∧
      (if which = f.oneofTag then entryLongest f ptr else 0) + next.chosen which =
        max (entryLongest f ptr) next.longestAlternative := by
  refine ⟨f.oneofTag, by simp [checkOneofWhichTagValidity], ?_⟩
  rw [if_pos rfl, chosen_of_follows _ (follows_of_oneof ho hd.2.2.1)]
  omega

/-- Some tag of the group names the longest alternative. -/
theorem exists_longest_alternative {f : TbField} {ptr : Fields} (next : Fields) {size : Nat}
    (ho : f.fieldType = some .oneof) (hd : (Fields.entry f ptr next).Describes size) :
    ∃ which, checkOneofWhichTagValidity (.entry f ptr next) which = true ∧
      (if which = f.oneofTag then entryLongest f ptr else 0) + next.chosen which =
        max (entryLongest f ptr) next.longestAlternative := by
  induction next generalizing f ptr with
  | last => exact first_alternative_longest ho hd (by simp [Fields.longestAlternative])
  | entry g ptr' next' _ ihn =>
    by_cases hle : (Fields.entry g ptr' next').longestAlternative ≤ entryLongest f ptr
    · exact first_alternative_longest ho hd hle
    cases hg : g.continuesOneof with
    | false =>
      rw [longestAlternative_of_not_continues
        (show (Fields.entry g ptr' next').continuesOneof = false from hg)] at hle
      exact absurd (Nat.zero_le _) hle
    | true =>
      have hog := oneof_of_continuesOneof hg
      obtain ⟨-, -, hfollows, -, hdn⟩ := hd
      obtain ⟨which, hvalid, heq⟩ := ihn hog.1 hdn
      rw [longestAlternative_of_continues hg] at hle ⊢
      have hne : which ≠ f.oneofTag := by
        intro hw
        have hzero := chosen_of_follows _ (follows_of_oneof ho hfollows)
        rw [← hw, chosen_of_continues hg] at hzero
        omega
      refine ⟨which, ?_, ?_⟩
      · rw [checkOneofWhichTagValidity, if_neg hne.symm]
        rwa [if_pos ⟨hdn.1.oneof_bit.mpr hog.1, hog.2⟩]
      · rw [if_neg hne, chosen_of_continues hg, heq]
        omega

/-! ## No encoding is longer -/

theorem length_flatMap_le {α β : Type} {l : List α} {g : α → List β} {n : Nat}
    (h : ∀ x ∈ l, (g x).length ≤ n) : (l.flatMap g).length ≤ l.length * n := by
  induction l with
  | nil => simp
  | cons x l ih =>
    have hx := h x List.mem_cons_self
    have hl := ih fun y hy => h y (List.mem_cons_of_mem x hy)
    rw [List.flatMap_cons, List.length_append, List.length_cons, Nat.add_mul]
    omega

/-- The tag that the alternatives in front of an array refer to. -/
def Fields.WhichIs (m : Memory) (which : UInt8) : Fields → Nat → Prop
  | .last, _ => True
  | .entry f _ _, base => f.continuesOneof = true → m (f.sizePtr base) = which

theorem whichIs_of_opens {m : Memory} {which : UInt8} {fields : Fields} {base : Nat}
    (h : fields.continuesOneof = false) : fields.WhichIs m which base := by
  cases fields with
  | last => trivial
  | entry f ptr next =>
    intro hc
    change f.continuesOneof = false at h
    rw [h] at hc
    cases hc

/-- The alternatives behind an entry refer to the entry's own tag. -/
theorem whichIs_next {m : Memory} {f : TbField} {ptr next : Fields} {size base : Nat}
    (hd : (Fields.entry f ptr next).Describes size) :
    next.WhichIs m (m (f.sizePtr base)) base := by
  obtain ⟨hf, -, hfollows, hgroup, hdn⟩ := hd
  cases next with
  | last => trivial
  | entry g ptr' next' =>
    intro hg
    have ho := hgroup hg
    rw [(alternatives_of_follows hfollows hg ho).sizePtr_eq hf hdn.1 ho
      (oneof_of_continuesOneof hg).1]

theorem present_oneof {host : TbEndian} {m : Memory} {f : TbField} {size base : Nat}
    (hf : f.WellFormed size) (ho : f.fieldType = some .oneof) :
    f.present host m base = if m (f.sizePtr base) = f.oneofTag then 1 else 0 := by
  simp only [TbField.present, ho, hf.sizeValue_oneof ho, UInt8.toNat_inj]

/-- Only an entry of a oneof group has alternatives behind it. -/
theorem opens_next {f : TbField} {ptr next : Fields} {size : Nat}
    (hd : (Fields.entry f ptr next).Describes size) (ho : f.fieldType ≠ some .oneof) :
    next.continuesOneof = false := by
  cases hc : next.continuesOneof with
  | false => rfl
  | true => exact absurd (hd.2.2.2.1 hc) ho

theorem encoding_length_le {host : TbEndian} {m : Memory} (out : TbEndian) (fields : Fields) :
    ∀ (which : UInt8) {size base : Nat}, fields.Describes size → fields.Valid host m base →
      fields.WhichIs m which base →
      (fields.encoding host m out base).length ≤ fields.chosen which + fields.longest := by
  induction fields with
  | last => exact fun _ _ _ _ _ _ => Nat.zero_le _
  | entry f ptr next ihp ihn =>
    intro which size base hd hv hwhich
    obtain ⟨hf, hptr, -, -, hdn⟩ := id hd
    obtain ⟨hvf, hvp, hvn⟩ := hv
    have hnext := ihn _ hdn hvn (whichIs_next hd)
    have hentries : ((List.range (f.present host m base)).flatMap fun k =>
        if f.dataKind = some .message then ptr.encoding host m out (f.dataPtr base + k * f.dataSize)
        else convertEndianness host (slice m (f.dataPtr base + k * f.dataSize) f.dataSize)
          out).length ≤ f.present host m base * entryLongest f ptr := by
      have h := length_flatMap_le (l := List.range (f.present host m base))
        (n := entryLongest f ptr) (g := fun k =>
          if f.dataKind = some .message then
            ptr.encoding host m out (f.dataPtr base + k * f.dataSize)
          else convertEndianness host (slice m (f.dataPtr base + k * f.dataSize) f.dataSize) out) (by
        intro k hk
        rw [List.mem_range] at hk
        unfold entryLongest
        by_cases hm : f.dataKind = some .message
        · have hle := ihp which (hptr hm).1 (hvp hm k hk) (whichIs_of_opens (hptr hm).2.1)
          rw [chosen_of_not_continues (hptr hm).2.1, Nat.zero_add] at hle
          rw [if_pos hm, if_pos hm]
          exact hle
        · rw [if_neg hm, if_neg hm]
          simp)
      rwa [List.length_range] at h
    unfold Fields.encoding
    rw [List.length_append, List.length_append, head_length]
    by_cases ho : f.fieldType = some .oneof
    · have hone : f.present host m base * entryLongest f ptr =
          if m (f.sizePtr base) = f.oneofTag then entryLongest f ptr else 0 := by
        rw [present_oneof hf ho]
        split <;> simp
      rw [hone] at hentries
      cases hc : f.continuesOneof with
      | true =>
        have hsend : ¬ f.sendsSize = true := by simp [TbField.sendsSize, hc]
        rw [hwhich hc] at hnext hentries
        rw [longest_of_continues hc, chosen_of_continues hc, if_neg hsend]
        omega
      | false =>
        have hle := chosen_le next (m (f.sizePtr base)) ho hd
        rw [longest_of_opens hc ho]
        omega
    · have hzero : next.chosen (m (f.sizePtr base)) = 0 :=
        chosen_of_not_continues (opens_next hd ho)
      have hroom := Nat.mul_le_mul_right (entryLongest f ptr) hvf.present_le
      rw [longest_of_ne_oneof ho]
      omega

/-! ## Some value is as long -/

/-- What the generator promises beyond the layout: the count of a repeated field can
name every length up to the array size, and only messages have the message bit. -/
structure TbField.Emitted (f : TbField) : Prop where
  count_covers : f.fieldType = some .repeated → f.arraySize < 256 ^ f.sizeSize
  message_bit : f.type &&& 512 ≠ 0 → f.dataKind = some .message

def Fields.Emitted : Fields → Prop
  | .last => True
  | .entry f ptr next => f.Emitted ∧ (f.dataKind = some .message → ptr.Emitted) ∧ next.Emitted

instance (f : TbField) : Decidable f.Emitted :=
  decidable_of_iff
    ((f.fieldType = some .repeated → f.arraySize < 256 ^ f.sizeSize) ∧
      (f.type &&& 512 ≠ 0 → f.dataKind = some .message))
    ⟨fun ⟨h1, h2⟩ => ⟨h1, h2⟩, fun ⟨h1, h2⟩ => ⟨h1, h2⟩⟩

instance Fields.Emitted.decidable : ∀ fields, Decidable (Fields.Emitted fields)
  | .last => isTrue trivial
  | .entry f ptr next =>
    have := Fields.Emitted.decidable ptr
    have := Fields.Emitted.decidable next
    inferInstanceAs (Decidable (f.Emitted ∧ (f.dataKind = some .message → ptr.Emitted) ∧
      next.Emitted))

theorem exists_countOf : ∀ {n v : Nat}, v < 256 ^ n → ∃ d : List UInt8, d.length = n ∧ countOf d = v
  | 0, v, h => ⟨[], rfl, by simp at h; simp [countOf, h]⟩
  | n + 1, v, h => by
    obtain ⟨d, hd, hcount⟩ := exists_countOf (n := n) (v := v / 256) (by
      rw [Nat.div_lt_iff_lt_mul (by decide), ← Nat.pow_succ]
      exact h)
    refine ⟨d ++ [UInt8.ofNat v], by simp [hd], ?_⟩
    unfold countOf at hcount ⊢
    rw [List.foldl_append, hcount]
    simp
    omega

/-- A memory in which the number at `a` is `v`. -/
theorem exists_readNumber (host : TbEndian) (a : Nat) {n v : Nat} (h : v < 256 ^ n) :
    ∃ m, readNumber host m a n = v := by
  obtain ⟨d, hd, hcount⟩ := exists_countOf h
  refine ⟨overwrite (fun _ => 0) a (convertEndianness host d .bigEndian), ?_⟩
  have hslice := slice_overwrite (fun _ => (0 : UInt8)) a (convertEndianness host d .bigEndian)
  rw [convertEndianness_length, hd] at hslice
  rw [readNumber, hslice, convertEndianness_twice, hcount]

/-- Flag, count or tag of an entry can be chosen such that it adds what it should to
the longest encoding. -/
theorem exists_longest_head (host : TbEndian) (base : Nat) {f : TbField} {ptr next : Fields}
    {size : Nat} (hd : (Fields.entry f ptr next).Describes size) (he : f.Emitted) (which : UInt8) :
    ∃ m, f.Valid host m (checkOneofWhichTagValidity (.entry f ptr next)) base ∧
      (f.continuesOneof = true → m (f.sizePtr base) = which) ∧
      (if f.sendsSize then f.sizeSize else 0) + f.present host m base * entryLongest f ptr +
          (next.chosen (m (f.sizePtr base)) + next.longest) =
        (Fields.entry f ptr next).chosen which + (Fields.entry f ptr next).longest := by
  have hf := hd.1
  by_cases ho : f.fieldType = some .oneof
  · have hone : ∀ m : Memory, f.present host m base * entryLongest f ptr =
        if m (f.sizePtr base) = f.oneofTag then entryLongest f ptr else 0 := by
      intro m
      rw [present_oneof hf ho]
      split <;> simp
    cases hc : f.continuesOneof with
    | true =>
      refine ⟨fun _ => which, ⟨fun hr => ?_, fun _ hfirst => ?_⟩, fun _ => rfl, ?_⟩
      · rw [ho] at hr
        cases hr
      · rw [(oneof_of_continuesOneof hc).2] at hfirst
        cases hfirst
      · rw [hone, longest_of_continues hc, chosen_of_continues hc,
          if_neg (by simp [TbField.sendsSize, hc])]
        dsimp only
        omega
    | false =>
      obtain ⟨w, hw, heq⟩ := exists_longest_alternative next ho hd
      refine ⟨fun _ => w, ⟨fun hr => ?_, fun _ _ => hw⟩, (fun h => by cases h), ?_⟩
      · rw [ho] at hr
        cases hr
      · rw [hone, longest_of_opens hc ho,
          chosen_of_not_continues (show (Fields.entry f ptr next).continuesOneof = false from hc)]
        dsimp only
        omega
  · have hc : f.continuesOneof = false := by simp [TbField.continuesOneof, ho]
    have hroom : ∃ m, f.Valid host m (checkOneofWhichTagValidity (.entry f ptr next)) base ∧
        f.present host m base = f.room := by
      cases hft : f.fieldType with
      | none => exact absurd hf.fieldType_isSome (by simp [hft])
      | some r =>
        cases r with
        | oneof => exact absurd hft ho
        | required => exact ⟨fun _ => 0, by simp [TbField.Valid, hft],
            by simp [TbField.present, TbField.room, hft]⟩
        | fixedRepeated => exact ⟨fun _ => 0, by simp [TbField.Valid, hft],
            by simp [TbField.present, TbField.room, hft]⟩
        | optional =>
          refine ⟨fun _ => 1, by simp [TbField.Valid, hft], ?_⟩
          simp [TbField.present, TbField.room, hft, TbField.sizeValue, hf.flag_size (.inl hft)]
        | repeated =>
          obtain ⟨m, hm⟩ := exists_readNumber host (f.sizePtr base) (he.count_covers hft)
          refine ⟨m, ⟨fun _ => Nat.le_of_eq hm, fun hof => absurd hof ho⟩, ?_⟩
          simpa [TbField.present, TbField.room, hft, TbField.sizeValue] using hm
    obtain ⟨m, hv, hp⟩ := hroom
    refine ⟨m, hv, fun h => by simp [hc] at h, ?_⟩
    rw [hp, longest_of_ne_oneof ho, chosen_of_not_continues (opens_next hd ho),
      chosen_of_not_continues (show (Fields.entry f ptr next).continuesOneof = false from hc)]
    omega

theorem length_flatMap_range {d : Nat → List UInt8} {n k : Nat} (h : ∀ i < n, (d i).length = k) :
    ((List.range n).flatMap d).length = n * k := by
  induction n with
  | zero => simp
  | succ n ih =>
    have hn := h n (Nat.lt_succ_self n)
    rw [List.range_succ, List.flatMap_append, List.length_append, ih fun i hi => h i (by omega),
      List.flatMap_singleton, hn, Nat.succ_mul]

/-- Some input of the greatest length is accepted. -/
theorem exists_longest_input (host inp : TbEndian) (fields : Fields) :
    ∀ (which : UInt8) {size : Nat} (base : Nat), fields.Describes size → fields.Emitted →
      ∃ p : List UInt8, p.length = fields.chosen which + fields.longest ∧
        ∀ s : DecodeState, s.istream.Sized → s.istream.Starts p →
          fields.WhichIs s.dst which base → Accepts (tbDecode host inp fields base) p.length s := by
  induction fields with
  | last => exact fun _ _ _ _ _ => ⟨[], rfl, fun s _ _ _ => ⟨s, rfl, rfl⟩⟩
  | entry f ptr next ihp ihn =>
    intro which size base hd he
    obtain ⟨hf, hptr, -, -, hdn⟩ := id hd
    obtain ⟨hef, hep, hen⟩ := he
    have hdp := fun hm => (hptr hm).1
    obtain ⟨m, hv, hwhich, hlen⟩ := exists_longest_head host base hd hef which
    have hentry : ∀ k, ∃ d : List UInt8, d.length = entryLongest f ptr ∧
        ∀ s : DecodeState, s.istream.Sized → s.istream.Starts d →
          Accepts (readEntry host inp f ptr base k) d.length s := by
      intro k
      unfold readEntry entryLongest
      by_cases hm : f.dataKind = some .message
      · obtain ⟨d, hdlen, hacc⟩ := ihp which (f.dataPtr base + k * f.dataSize) (hdp hm) (hep hm)
        rw [chosen_of_not_continues (hptr hm).2.1, Nat.zero_add] at hdlen
        rw [if_pos hm, if_pos hm]
        exact ⟨d, hdlen, fun s hs hst => hacc s hs hst (whichIs_of_opens (hptr hm).2.1)⟩
      · rw [if_neg hm, if_neg hm]
        refine ⟨List.replicate f.dataSize 0, by simp, fun s hs hst => ?_⟩
        exact readNumber_accepts (numberSize_lt hf (number_of_not_message hf hm)) (by simp) hs hst
    choose d hdlen hacc using hentry
    obtain ⟨q, hqlen, hqacc⟩ := ihn (m (f.sizePtr base)) base hdn hen
    refine ⟨(f.head host m inp base ++ (List.range (f.present host m base)).flatMap d) ++ q, ?_, ?_⟩
    · rw [List.length_append, List.length_append, head_length,
        length_flatMap_range fun i _ => hdlen i, hqlen, hlen]
    · intro s hs hstarts hw
      obtain ⟨hfield, hnext⟩ := starts_append.mp hstarts
      have hsv : f.continuesOneof → f.sizeValue host s.dst base = f.sizeValue host m base := by
        intro hc
        have ho := (oneof_of_continuesOneof hc).1
        rw [hf.sizeValue_oneof ho, hf.sizeValue_oneof ho, hw hc, hwhich hc]
      obtain ⟨t, ht, hti, htsize⟩ := readField_accepts hf
        (readEntry_sound base hf hdp (tbDecode_sound host inp ptr)) (entry_local hdp)
        (fun k _ => hacc k) hv hs hfield hsv
      rw [← hti] at hnext
      have hwt : next.WhichIs t.dst (m (f.sizePtr base)) base := by
        cases hcn : next.continuesOneof with
        | false => exact whichIs_of_opens hcn
        | true =>
          have ho := hd.2.2.2.1 hcn
          have heq := htsize (hasSize_of_oneof ho)
          rw [hf.sizeValue_oneof ho, hf.sizeValue_oneof ho, UInt8.toNat_inj] at heq
          rw [← heq]
          exact whichIs_next hd
      obtain ⟨u, hu, hui⟩ := hqacc t (hti ▸ hfield.sized hs) hnext hwt
      rw [tbDecode_entry host inp hf]
      refine ⟨u, (Proc.bind_ok ht _).trans hu, ?_⟩
      rw [hui, hti, skip_skip, ← List.length_append]

/-! ## The longest encoding fits the structure -/

/-- The flag, count or tag of a field, as offsets in the structure. -/
def TbField.sizeCells (f : TbField) : Finset Nat :=
  if f.hasSize then Finset.Ico f.sizeStart (f.sizeStart + f.sizeSize) else ∅

/-- The data of a field, as offsets in the structure. -/
def TbField.dataCells (f : TbField) : Finset Nat :=
  Finset.Ico f.dataOffset (f.dataOffset + f.room * f.dataSize)

mutual

/-- The offsets that the entries use, without those that continue a oneof group in
front. -/
def Fields.cells : Fields → Finset Nat
  | .last => ∅
  | .entry f _ next =>
    if f.continuesOneof then next.cells else f.sizeCells ∪ f.dataCells ∪ next.alternativeCells

/-- The offsets that the entries use; those that continue a group in front count with
their data alone. -/
def Fields.alternativeCells : Fields → Finset Nat
  | .last => ∅
  | .entry f _ next =>
    if f.continuesOneof then f.dataCells ∪ next.alternativeCells
    else f.sizeCells ∪ f.dataCells ∪ next.alternativeCells

end

section Cells

variable {f : TbField} {ptr next : Fields}

theorem cells_of_continues (h : f.continuesOneof = true) :
    (Fields.entry f ptr next).cells = next.cells := by
  rw [Fields.cells, if_pos h]

theorem cells_of_opens (h : f.continuesOneof = false) :
    (Fields.entry f ptr next).cells = f.sizeCells ∪ f.dataCells ∪ next.alternativeCells := by
  rw [Fields.cells, if_neg (by rw [h]; exact Bool.false_ne_true)]

theorem alternativeCells_of_continues (h : f.continuesOneof = true) :
    (Fields.entry f ptr next).alternativeCells = f.dataCells ∪ next.alternativeCells := by
  rw [Fields.alternativeCells, if_pos h]

theorem alternativeCells_of_opens {fields : Fields} (h : fields.continuesOneof = false) :
    fields.alternativeCells = fields.cells := by
  cases fields with
  | last => simp [Fields.alternativeCells, Fields.cells]
  | entry f ptr next =>
    change f.continuesOneof = false at h
    simp [Fields.alternativeCells, Fields.cells, h]

theorem mem_sizeCells {a : Nat} :
    a ∈ f.sizeCells ↔ f.hasSize = true ∧ f.sizeStart ≤ a ∧ a < f.sizeStart + f.sizeSize := by
  unfold TbField.sizeCells
  split <;> simp [*]

theorem mem_dataCells {a : Nat} :
    a ∈ f.dataCells ↔ f.dataOffset ≤ a ∧ a < f.dataOffset + f.room * f.dataSize :=
  Finset.mem_Ico

theorem card_sizeCells : f.sizeCells.card = if f.hasSize then f.sizeSize else 0 := by
  unfold TbField.sizeCells
  split <;> simp

theorem card_dataCells : f.dataCells.card = f.room * f.dataSize := by
  simp [TbField.dataCells]

theorem cells_subset (fields : Fields) : fields.cells ⊆ fields.alternativeCells := by
  induction fields with
  | last => simp [Fields.cells]
  | entry f ptr next _ ihn =>
    cases hc : f.continuesOneof with
    | true =>
      rw [cells_of_continues hc, alternativeCells_of_continues hc]
      exact ihn.trans Finset.subset_union_right
    | false =>
      rw [alternativeCells_of_opens (show (Fields.entry f ptr next).continuesOneof = false from hc)]

theorem alternativeCells_lt (fields : Fields) {size : Nat} (hd : fields.Describes size) :
    ∀ a ∈ fields.alternativeCells, a < size := by
  induction fields with
  | last => simp [Fields.alternativeCells]
  | entry f ptr next _ ihn =>
    have hf := hd.1
    have hnext := ihn hd.2.2.2.2
    intro a ha
    have hcase : a ∈ f.sizeCells ∨ a ∈ f.dataCells ∨ a ∈ next.alternativeCells := by
      rw [Fields.alternativeCells] at ha
      split at ha <;> simp only [Finset.mem_union] at ha <;> tauto
    rcases hcase with ha | ha | ha
    · obtain ⟨hs, _, hlt⟩ := mem_sizeCells.mp ha
      have hfit := (hf.size_fits hs).2
      omega
    · obtain ⟨_, hlt⟩ := mem_dataCells.mp ha
      have hfit := hf.data_fits
      omega
    · exact hnext a ha

/-- Separate members use different offsets. -/
theorem Separate.not_mem {f g : TbField} (h : Separate f g) {a : Nat}
    (hf : a ∈ f.sizeCells ∨ a ∈ f.dataCells) : ¬ (a ∈ g.sizeCells ∨ a ∈ g.dataCells) := by
  simp only [mem_sizeCells, mem_dataCells] at hf ⊢
  rintro (⟨hsg, hg⟩ | hg)
  · rcases hf with ⟨hsf, hf⟩ | hf
    · have hap := h.size_size hsf hsg
      unfold Apart at hap
      omega
    · have hap := h.data_size hsg
      unfold Apart at hap
      omega
  · rcases hf with ⟨hsf, hf⟩ | hf
    · have hap := h.size_data hsf
      unfold Apart at hap
      omega
    · have hap := h.data_data
      unfold Apart at hap
      omega

/-- The entries behind a member use other offsets, apart from the alternatives of its
own group. -/
theorem not_mem_of_follows {a : Nat} (ha : a ∈ f.sizeCells ∨ a ∈ f.dataCells) (next : Fields) :
    (Follows f false next → a ∉ next.alternativeCells) ∧ (Follows f true next → a ∉ next.cells) := by
  induction next with
  | last => simp [Fields.alternativeCells, Fields.cells]
  | entry g ptr next _ ihn =>
    have hfalse : Follows f false (.entry g ptr next) →
        a ∉ (Fields.entry g ptr next).alternativeCells := by
      intro h
      unfold Follows at h
      rw [if_neg (by simp)] at h
      have hg := h.1.not_mem ha
      have hn := ihn.1 h.2
      rw [Fields.alternativeCells]
      split <;> simp only [Finset.mem_union] <;> tauto
    refine ⟨hfalse, fun h => ?_⟩
    cases hc : g.continuesOneof with
    | true =>
      unfold Follows at h
      rw [if_pos (by simp [hc])] at h
      rw [cells_of_continues hc]
      exact ihn.2 h.2
    | false =>
      unfold Follows at h
      rw [if_neg (by simp [hc])] at h
      rw [← alternativeCells_of_opens (show (Fields.entry g ptr next).continuesOneof = false from hc)]
      apply hfalse
      unfold Follows
      rw [if_neg (by simp)]
      exact h

/-- The tag of a group lies apart from the data of its alternatives and from the
entries behind the group. -/
theorem sizeCells_not_mem (ho : f.fieldType = some .oneof) {size a : Nat} (hf : f.WellFormed size)
    (ha : a ∈ f.sizeCells) (next : Fields) (hfollows : Follows f true next)
    (hd : next.Describes size) : a ∉ next.alternativeCells := by
  induction next with
  | last => simp [Fields.alternativeCells]
  | entry g ptr next _ ihn =>
    cases hc : g.continuesOneof with
    | false =>
      rw [alternativeCells_of_opens (show (Fields.entry g ptr next).continuesOneof = false from hc)]
      exact (not_mem_of_follows (.inl ha) _).2 hfollows
    | true =>
      unfold Follows at hfollows
      rw [if_pos (by simp [hc])] at hfollows
      have hog := (oneof_of_continuesOneof hc).1
      have hap := hd.1.size_apart (hasSize_of_oneof hog)
      obtain ⟨_, hle, hlt⟩ := mem_sizeCells.mp ha
      rw [hf.flag_size (.inr ho), hfollows.1.same_which] at hlt
      rw [hfollows.1.same_which] at hle
      rw [hd.1.flag_size (.inr hog)] at hap
      rw [alternativeCells_of_continues hc, Finset.mem_union, mem_dataCells]
      rintro (hdata | hrest)
      · unfold Apart at hap
        omega
      · exact ihn hfollows.2 hd.2.2.2.2 hrest

end Cells

/-- Each byte of the longest encoding has its own byte in the structure. -/
theorem longest_le_cells (fields : Fields) : ∀ {size : Nat}, fields.Describes size →
    fields.longest ≤ fields.cells.card ∧
      fields.longestAlternative + fields.longest ≤ fields.alternativeCells.card := by
  induction fields with
  | last => simp [Fields.longest, Fields.longestAlternative]
  | entry f ptr next ihp ihn =>
    intro size hd
    obtain ⟨hf, hptr, hfollows, -, hdn⟩ := id hd
    obtain ⟨hcells, halt⟩ := ihn hdn
    have hone : entryLongest f ptr ≤ f.dataSize := by
      unfold entryLongest
      by_cases hm : f.dataKind = some .message
      · have hd' := (hptr hm).1
        rw [if_pos hm]
        refine ((ihp hd').1.trans (Finset.card_le_card (cells_subset ptr))).trans ?_
        have hsub : ptr.alternativeCells ⊆ Finset.range f.dataSize := fun a ha =>
          Finset.mem_range.mpr (alternativeCells_lt ptr hd' a ha)
        simpa using Finset.card_le_card hsub
      · rw [if_neg hm]
    have hdata := Nat.mul_le_mul_left f.room hone
    rw [← card_dataCells] at hdata
    by_cases ho : f.fieldType = some .oneof
    · have hfol := follows_of_oneof ho hfollows
      have hroom : f.room = 1 := by simp [TbField.room, ho]
      have hdisj : Disjoint f.dataCells next.cells := Finset.disjoint_left.mpr fun a ha =>
        (not_mem_of_follows (.inr ha) next).2 hfol
      have hrest : max (entryLongest f ptr) next.longestAlternative + next.longest ≤
          (f.dataCells ∪ next.alternativeCells).card := by
        have h1 := Finset.card_le_card
          (Finset.union_subset_union (Finset.Subset.refl f.dataCells) (cells_subset next))
        have h2 := Finset.card_le_card (Finset.subset_union_right :
          next.alternativeCells ⊆ f.dataCells ∪ next.alternativeCells)
        rw [Finset.card_union_of_disjoint hdisj] at h1
        rw [hroom, Nat.one_mul] at hdata
        omega
      cases hc : f.continuesOneof with
      | true =>
        rw [longest_of_continues hc, cells_of_continues hc, longestAlternative_of_continues hc,
          alternativeCells_of_continues hc]
        exact ⟨hcells, hrest⟩
      | false =>
        have hcf : (Fields.entry f ptr next).continuesOneof = false := hc
        have hhead : Disjoint f.sizeCells (f.dataCells ∪ next.alternativeCells) := by
          rw [Finset.disjoint_left]
          intro a ha
          have hap := hf.size_apart (hasSize_of_oneof ho)
          have hmem := mem_sizeCells.mp ha
          rw [Finset.mem_union, mem_dataCells]
          rintro (hd' | hn)
          · unfold Apart at hap
            omega
          · exact sizeCells_not_mem ho hf ha next hfol hdn hn
        have hsend : f.sendsSize = f.hasSize := by simp [TbField.sendsSize, hc]
        have hlong : (Fields.entry f ptr next).longest ≤ (Fields.entry f ptr next).cells.card := by
          rw [longest_of_opens hc ho, cells_of_opens hc, Finset.union_assoc,
            Finset.card_union_of_disjoint hhead, card_sizeCells, hsend]
          omega
        rw [alternativeCells_of_opens hcf, longestAlternative_of_not_continues hcf, Nat.zero_add]
        exact ⟨hlong, hlong⟩
    · have hc : f.continuesOneof = false := by simp [TbField.continuesOneof, ho]
      have hcf : (Fields.entry f ptr next).continuesOneof = false := hc
      have hopen := opens_next hd ho
      have hfol : Follows f false next := by simpa [ho] using hfollows
      have hdisj : Disjoint (f.sizeCells ∪ f.dataCells) next.alternativeCells :=
        Finset.disjoint_left.mpr fun a ha =>
          (not_mem_of_follows (Finset.mem_union.mp ha) next).1 hfol
      have hown : Disjoint f.sizeCells f.dataCells := by
        rw [Finset.disjoint_left]
        intro a ha hd'
        have hmem := mem_sizeCells.mp ha
        have hap := hf.size_apart hmem.1
        rw [mem_dataCells] at hd'
        unfold Apart at hap
        omega
      have hsend : f.sendsSize = f.hasSize := by simp [TbField.sendsSize, hc]
      have hlong : (Fields.entry f ptr next).longest ≤ (Fields.entry f ptr next).cells.card := by
        rw [longest_of_ne_oneof ho, cells_of_opens hc, Finset.card_union_of_disjoint hdisj,
          Finset.card_union_of_disjoint hown, card_sizeCells, hsend, alternativeCells_of_opens hopen]
        omega
      rw [alternativeCells_of_opens hcf, longestAlternative_of_not_continues hcf, Nat.zero_add]
      exact ⟨hlong, hlong⟩

theorem longest_le_size {fields : Fields} {size : Nat} (hd : fields.Describes size) :
    fields.longest ≤ size := by
  have hsub : fields.cells ⊆ Finset.range size := fun a ha =>
    Finset.mem_range.mpr (alternativeCells_lt fields hd a (cells_subset fields ha))
  simpa using (longest_le_cells fields hd).1.trans (Finset.card_le_card hsub)

/-- Some structure has an encoding of the greatest length. -/
theorem longest_attained {fields : Fields} {size : Nat} (hd : fields.Describes size)
    (hopens : fields.continuesOneof = false) (he : fields.Emitted) (hsize : size < 2 ^ 31)
    (host out : TbEndian) :
    ∃ src, fields.Valid host src 0 ∧ (fields.encoding host src out 0).length = fields.longest := by
  obtain ⟨p, hlen, hacc⟩ := exists_longest_input host out fields 0 0 hd he
  rw [chosen_of_not_continues hopens, Nat.zero_add] at hlen
  have hle := longest_le_size hd
  have hs : (decodeFrom ⟨overwrite (fun _ => 0) 0 p, p.length, by omega⟩
      fun _ => 0).istream.Starts p :=
    starts_iff_input.mpr ⟨[], by rw [List.append_nil]; exact (slice_overwrite _ 0 p).symm⟩
  obtain ⟨t, ht, hti⟩ := hacc _ (decodeFrom_sized _ _) hs (whichIs_of_opens hopens)
  obtain ⟨hc, hv, -⟩ := tbDecode_sound host out fields hd _ t (decodeFrom_sized _ _) ht
  refine ⟨t.dst, hv, ?_⟩
  have hread := congrArg TbIstream.bytesRead (hti.symm.trans hc.istream_eq)
  change 0 + p.length = 0 + _ at hread
  dsimp only at hread
  omega

end OpenBadge.Tinybuf
