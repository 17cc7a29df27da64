import OpenBadge.Tinybuf.Longest

/-!
# tb_get_max_encoded_len

The function walks over the entries like the encoder does, and over the alternatives of
a oneof group in an inner loop. There are two such loops; the one for groups that start
with a message looks at the first alternative only.
-/

namespace OpenBadge.Tinybuf

open OpenBadge.Lib

mutual

/-- The loop of `tb_get_max_encoded_len` over the entries from `i` on. `inGroup` tells
that the inner loop of a oneof group has moved `i` over the entries that continue it. -/
def maxEncodedLenLoop : Nat → Bool → Fields → Nat
  | len, _, .last => len
  | len, inGroup, .entry f ptr next =>
    if inGroup = true ∧ f.type &&& 16 ≠ 0 ∧ f.oneofFirst = false then
      maxEncodedLenLoop len true next
    else match f.dataKind with
      | none => maxEncodedLenLoop len false next
      | some .number =>
        match f.fieldType with
        | none => maxEncodedLenLoop len false next
        | some .required => maxEncodedLenLoop ((len + f.dataSize) % 2 ^ 32) false next
        | some .optional =>
          maxEncodedLenLoop ((len + f.sizeSize + f.dataSize) % 2 ^ 32) false next
        | some .repeated =>
          maxEncodedLenLoop ((len + f.sizeSize + f.arraySize * f.dataSize) % 2 ^ 32) false next
        | some .fixedRepeated =>
          maxEncodedLenLoop ((len + f.arraySize * f.dataSize) % 2 ^ 32) false next
        | some .oneof =>
          let tmpLen := if f.type &&& 512 ≠ 0 then maxEncodedLenLoop 0 false ptr else f.dataSize
          maxEncodedLenLoop ((len + f.sizeSize + oneofLoop none tmpLen next) % 2 ^ 32) true next
      | some .message =>
        let subLen := maxEncodedLenLoop 0 false ptr
        match f.fieldType with
        | none => maxEncodedLenLoop len false next
        | some .required => maxEncodedLenLoop ((len + subLen) % 2 ^ 32) false next
        | some .optional => maxEncodedLenLoop ((len + f.sizeSize + subLen) % 2 ^ 32) false next
        | some .repeated =>
          maxEncodedLenLoop ((len + f.sizeSize + f.arraySize * subLen) % 2 ^ 32) false next
        | some .fixedRepeated =>
          maxEncodedLenLoop ((len + f.arraySize * subLen) % 2 ^ 32) false next
        | some .oneof =>
          maxEncodedLenLoop ((len + f.sizeSize + oneofLoop (some subLen) subLen next) % 2 ^ 32)
            true next

/-- The `do … while` over a oneof group behind its first pass. `tmpLenMax` is the maximum
so far. A group that starts with a message takes `tmp_len` from `field`, the copy of its
first entry (`some`), the other groups from `fields[i]` (`none`). -/
def oneofLoop : Option Nat → Nat → Fields → Nat
  | _, tmpLenMax, .last => tmpLenMax
  | field, tmpLenMax, .entry f ptr next =>
    if f.type &&& 16 ≠ 0 ∧ f.oneofFirst = false then
      let tmpLen := field.getD
        (if f.type &&& 512 ≠ 0 then maxEncodedLenLoop 0 false ptr else f.dataSize)
      oneofLoop field (if tmpLen > tmpLenMax then tmpLen else tmpLenMax) next
    else tmpLenMax

end

def tbGetMaxEncodedLen (fields : Fields) : Nat := maxEncodedLenLoop 0 false fields

/-! ## The sum that the loop computes -/

mutual

/-- The length that the code attributes to the entries. -/
def Fields.estimate : Fields → Nat
  | .last => 0
  | .entry f ptr next =>
    if f.continuesOneof then next.estimate
    else
      (if f.sendsSize then f.sizeSize else 0) +
      (if f.fieldType = some .oneof then
        if f.dataKind = some .message then ptr.estimate
        else max f.dataSize next.estimateAlternative
      else f.room * (if f.dataKind = some .message then ptr.estimate else f.dataSize)) +
      next.estimate

/-- The greatest length that the code attributes to an alternative in front. -/
def Fields.estimateAlternative : Fields → Nat
  | .last => 0
  | .entry f ptr next =>
    if f.continuesOneof then
      max (if f.dataKind = some .message then ptr.estimate else f.dataSize) next.estimateAlternative
    else 0

end

mutual

/-- No group is underestimated: a group that starts with a message has its longest
alternative in front, in a group that starts with a number some alternative that is as
long as the longest is not underestimated itself. Messages in arrays of size 0 do not
matter. -/
def Fields.Exact : Fields → Prop
  | .last => True
  | .entry f ptr next =>
    (f.continuesOneof = true ∨
      if f.fieldType = some .oneof then
        if f.dataKind = some .message then next.longestAlternative ≤ ptr.longest ∧ ptr.Exact
        else next.longestAlternative ≤ f.dataSize ∨ next.ExactAt next.longestAlternative
      else f.dataKind = some .message → f.room = 0 ∨ ptr.Exact) ∧
    next.Exact

/-- Some alternative in front has the length `n`, and is not underestimated. -/
def Fields.ExactAt : Fields → Nat → Prop
  | .last, _ => False
  | .entry f ptr next, n =>
    f.continuesOneof = true ∧
      ((if f.dataKind = some .message then ptr.longest = n ∧ ptr.Exact else f.dataSize = n) ∨
        next.ExactAt n)

end

/-- What the code attributes to one entry of a field. -/
def entryEstimate (f : TbField) (ptr : Fields) : Nat :=
  if f.dataKind = some .message then ptr.estimate else f.dataSize

section Equations

variable {f : TbField} {ptr next : Fields}

theorem estimate_of_continues (h : f.continuesOneof = true) :
    (Fields.entry f ptr next).estimate = next.estimate := by
  rw [Fields.estimate, if_pos h]

theorem estimate_of_opens (h : f.continuesOneof = false) (ho : f.fieldType = some .oneof) :
    (Fields.entry f ptr next).estimate =
      (if f.sendsSize then f.sizeSize else 0) +
        (if f.dataKind = some .message then ptr.estimate
        else max f.dataSize next.estimateAlternative) + next.estimate := by
  rw [Fields.estimate, if_neg (by rw [h]; exact Bool.false_ne_true), if_pos ho]

theorem estimate_of_ne_oneof (ho : f.fieldType ≠ some .oneof) :
    (Fields.entry f ptr next).estimate =
      (if f.sendsSize then f.sizeSize else 0) + f.room * entryEstimate f ptr + next.estimate := by
  have h : ¬ f.continuesOneof = true := fun h => ho (oneof_of_continuesOneof h).1
  rw [Fields.estimate, if_neg h, if_neg ho, entryEstimate]

theorem estimateAlternative_of_continues (h : f.continuesOneof = true) :
    (Fields.entry f ptr next).estimateAlternative =
      max (entryEstimate f ptr) next.estimateAlternative := by
  rw [Fields.estimateAlternative, if_pos h, entryEstimate]

theorem estimateAlternative_of_not_continues {fields : Fields}
    (h : fields.continuesOneof = false) : fields.estimateAlternative = 0 := by
  cases fields with
  | last => simp [Fields.estimateAlternative]
  | entry f ptr next =>
    change f.continuesOneof = false at h
    simp [Fields.estimateAlternative, h]

theorem not_exactAt {fields : Fields} {n : Nat} (h : fields.continuesOneof = false) :
    ¬ fields.ExactAt n := by
  cases fields with
  | last => simp [Fields.ExactAt]
  | entry f ptr next =>
    change f.continuesOneof = false at h
    simp [Fields.ExactAt, h]

end Equations

/-- The code never attributes too much. -/
theorem estimate_le (fields : Fields) : fields.estimate ≤ fields.longest ∧
    fields.estimateAlternative ≤ fields.longestAlternative := by
  induction fields with
  | last => simp [Fields.estimate, Fields.estimateAlternative]
  | entry f ptr next ihp ihn =>
    obtain ⟨hn, halt⟩ := ihn
    have hone : entryEstimate f ptr ≤ entryLongest f ptr := by
      unfold entryEstimate entryLongest
      split
      · exact ihp.1
      · exact Nat.le_refl _
    have hroom := Nat.mul_le_mul_left f.room hone
    cases hc : f.continuesOneof with
    | true =>
      rw [estimate_of_continues hc, longest_of_continues hc, estimateAlternative_of_continues hc,
        longestAlternative_of_continues hc]
      omega
    | false =>
      have hcf : (Fields.entry f ptr next).continuesOneof = false := hc
      refine ⟨?_, by rw [estimateAlternative_of_not_continues hcf]; exact Nat.zero_le _⟩
      by_cases ho : f.fieldType = some .oneof
      · rw [estimate_of_opens hc ho, longest_of_opens hc ho]
        unfold entryEstimate entryLongest at hone
        unfold entryLongest
        split at hone <;> simp only [*, if_true, if_false] <;> omega
      · rw [estimate_of_ne_oneof ho, longest_of_ne_oneof ho]
        omega

/-- The entries that are not underestimated. -/
theorem estimate_eq_iff (fields : Fields) : (fields.estimate = fields.longest ↔ fields.Exact) ∧
    ∀ n, 0 < n → fields.longestAlternative ≤ n →
      (n ≤ fields.estimateAlternative ↔ fields.ExactAt n) := by
  induction fields with
  | last =>
    refine ⟨by simp [Fields.estimate, Fields.longest, Fields.Exact], fun n hn _ => ?_⟩
    simp [Fields.estimateAlternative, Fields.ExactAt]
    omega
  | entry f ptr next ihp ihn =>
    obtain ⟨hexact, hat⟩ := ihn
    have hsub := estimate_le ptr
    have hnext := estimate_le next
    cases hc : f.continuesOneof with
    | true =>
      refine ⟨?_, fun n hn hle => ?_⟩
      · rw [estimate_of_continues hc, longest_of_continues hc, hexact]
        simp [Fields.Exact, hc]
      · rw [longestAlternative_of_continues hc] at hle
        rw [estimateAlternative_of_continues hc]
        have hrest := hat n hn (by omega)
        have hown : n ≤ entryEstimate f ptr ↔
            (if f.dataKind = some .message then ptr.longest = n ∧ ptr.Exact else f.dataSize = n) := by
          unfold entryLongest at hle
          unfold entryEstimate
          by_cases hm : f.dataKind = some .message
          · simp only [hm, if_true] at hle ⊢
            rw [← ihp.1]
            omega
          · simp only [hm, if_false] at hle ⊢
            omega
        rw [Fields.ExactAt, ← hown, ← hrest]
        simp only [hc, true_and]
        omega
    | false =>
      have hcf : (Fields.entry f ptr next).continuesOneof = false := hc
      refine ⟨?_, fun n hn _ => ?_⟩
      · rw [Fields.Exact, ← hexact]
        by_cases ho : f.fieldType = some .oneof
        · rw [estimate_of_opens hc ho, longest_of_opens hc ho]
          by_cases hm : f.dataKind = some .message
          · simp only [hc, ho, hm, entryLongest, if_true, false_or, Bool.false_eq_true]
            rw [← ihp.1]
            omega
          · simp only [hc, ho, hm, entryLongest, if_true, if_false, false_or, Bool.false_eq_true]
            by_cases hle : next.longestAlternative ≤ f.dataSize
            · simp only [hle, true_or, true_and]
              omega
            · have hrest := hat next.longestAlternative (by omega) (Nat.le_refl _)
              rw [← hrest]
              omega
        · rw [estimate_of_ne_oneof ho, longest_of_ne_oneof ho]
          simp only [hc, ho, if_false, false_or, Bool.false_eq_true]
          by_cases hm : f.dataKind = some .message
          · have hmul : f.room * ptr.estimate = f.room * ptr.longest ↔
                f.room = 0 ∨ ptr.estimate = ptr.longest := by
              constructor
              · intro h
                rcases Nat.eq_zero_or_pos f.room with h0 | hpos
                · exact .inl h0
                · exact .inr (Nat.eq_of_mul_eq_mul_left hpos h)
              · rintro (h | h) <;> simp [h]
            have hle := Nat.mul_le_mul_left f.room hsub.1
            simp only [entryEstimate, entryLongest, hm, if_true, true_implies]
            rw [← ihp.1, ← hmul]
            omega
          · simp only [entryEstimate, entryLongest, hm, if_false, false_implies, true_and]
            omega
      · rw [estimateAlternative_of_not_continues hcf]
        have hno := not_exactAt (n := n) hcf
        constructor
        · intro hle
          omega
        · exact fun h => absurd h hno

/-! ## The loop computes the sum -/

theorem message_bit_iff {f : TbField} (he : f.Emitted) :
    f.type &&& 512 ≠ 0 ↔ f.dataKind = some .message := by
  refine ⟨he.message_bit, fun h => ?_⟩
  unfold TbField.dataKind at h
  split at h
  · cases h
  · split at h
    · assumption
    · cases h

theorem continuesOneof_iff {f : TbField} {size : Nat} (hf : f.WellFormed size) :
    f.type &&& 16 ≠ 0 ∧ f.oneofFirst = false ↔ f.continuesOneof = true := by
  rw [hf.oneof_bit]
  simp [TbField.continuesOneof]

/-- The inner loop of a group that starts with a message stays at the length of that
message. -/
theorem oneofLoop_some (n : Nat) (fields : Fields) : oneofLoop (some n) n fields = n := by
  induction fields with
  | last => rw [oneofLoop]
  | entry f ptr next _ ihn =>
    rw [oneofLoop]
    simp only [Option.getD_some, gt_iff_lt, Nat.lt_irrefl, ihn, ite_self]

/-- The length of a message that a well-formed field has room for stays below the size
of the structure. -/
theorem room_longest_le {f : TbField} {ptr : Fields} {size : Nat} (hf : f.WellFormed size)
    (hd : ptr.Describes f.dataSize) : f.room * ptr.longest ≤ size := by
  have h := Nat.mul_le_mul_left f.room (longest_le_size hd)
  have hfit := hf.data_fits
  omega

/-- One turn of the loop: what the entry adds. -/
theorem maxEncodedLenLoop_entry {f : TbField} {ptr next : Fields} {size : Nat}
    (hf : f.WellFormed size) (he : f.Emitted) (hc : f.continuesOneof = false) (len : Nat)
    (inGroup : Bool) :
    maxEncodedLenLoop len inGroup (.entry f ptr next) =
      maxEncodedLenLoop ((len + (if f.hasSize then f.sizeSize else 0) +
        (if f.fieldType = some .oneof then
          if f.dataKind = some .message then
            oneofLoop (some (maxEncodedLenLoop 0 false ptr)) (maxEncodedLenLoop 0 false ptr) next
          else oneofLoop none f.dataSize next
        else f.room * (if f.dataKind = some .message then maxEncodedLenLoop 0 false ptr
          else f.dataSize))) % 2 ^ 32) (f.fieldType = some .oneof) next := by
  have hskip : ¬ (f.type &&& 16 ≠ 0 ∧ f.oneofFirst = false) := by
    rw [continuesOneof_iff hf, hc]
    exact Bool.false_ne_true
  rw [maxEncodedLenLoop, if_neg (fun h => hskip h.2)]
  cases hkind : f.dataKind with
  | none => exact absurd hf.dataKind_isSome (by simp [hkind])
  | some kind =>
    cases hft : f.fieldType with
    | none => exact absurd hf.fieldType_isSome (by simp [hft])
    | some r =>
      have hbit : f.type &&& 512 ≠ 0 ↔ kind = .message := by
        rw [message_bit_iff he, hkind, Option.some.injEq]
      cases kind with
      | number =>
        have hm : ¬ f.type &&& 512 ≠ 0 := fun h => by cases hbit.mp h
        cases r <;> simp [TbField.hasSize, TbField.room, hft, hm]
      | message => cases r <;> simp [TbField.hasSize, TbField.room, hft]

/-- Without overflow the two loops compute the sum and the maximum. -/
theorem maxEncodedLenLoop_eq (fields : Fields) : ∀ {size : Nat}, size < 2 ^ 32 →
    fields.Describes size → fields.Emitted →
    (∀ len inGroup, (fields.continuesOneof = true → inGroup = true) →
      len + fields.estimate < 2 ^ 32 →
      maxEncodedLenLoop len inGroup fields = len + fields.estimate) ∧
    ∀ len, oneofLoop none len fields = max len fields.estimateAlternative := by
  induction fields with
  | last =>
    intro size _ _ _
    refine ⟨fun len inGroup _ _ => ?_, fun len => ?_⟩
    · rw [maxEncodedLenLoop, Fields.estimate, Nat.add_zero]
    · rw [oneofLoop, Fields.estimateAlternative, Nat.max_zero]
  | entry f ptr next ihp ihn =>
    intro size hsize hd he
    obtain ⟨hf, hptr, -, -, hdn⟩ := id hd
    obtain ⟨hloop, hgroup⟩ := ihn hsize hdn he.2.2
    have hsub : f.dataKind = some .message → 0 < f.room →
        maxEncodedLenLoop 0 false ptr = ptr.estimate := by
      intro hm hroom
      have hdp := (hptr hm).1
      have hle := room_longest_le hf hdp
      have hfit := hf.data_fits
      have hest := (estimate_le ptr).1
      have hdata := Nat.le_mul_of_pos_left f.dataSize hroom
      have hopen : ptr.continuesOneof = true → false = true := by
        rw [(hptr hm).2.1]
        exact id
      have h := (ihp (by omega) hdp (he.2.1 hm)).1 0 false hopen (by
        have := longest_le_size hdp
        omega)
      rwa [Nat.zero_add] at h
    cases hc : f.continuesOneof with
    | true =>
      have ho := (oneof_of_continuesOneof hc).1
      have hroom : 0 < f.room := by simp [TbField.room, ho]
      refine ⟨fun len inGroup hin hlt => ?_, fun len => ?_⟩
      · rw [estimate_of_continues hc] at hlt ⊢
        rw [maxEncodedLenLoop, if_pos ⟨hin hc, (continuesOneof_iff hf).mpr hc⟩]
        exact hloop len true (fun _ => rfl) hlt
      · have htmp : (if f.type &&& 512 ≠ 0 then maxEncodedLenLoop 0 false ptr else f.dataSize) =
            entryEstimate f ptr := by
          unfold entryEstimate
          by_cases hm : f.dataKind = some .message
          · rw [if_pos ((message_bit_iff he.1).mpr hm), if_pos hm, hsub hm hroom]
          · rw [if_neg (mt (message_bit_iff he.1).mp hm), if_neg hm]
        rw [oneofLoop, if_pos ((continuesOneof_iff hf).mpr hc), Option.getD_none, htmp, hgroup,
          estimateAlternative_of_continues hc]
        split <;> omega
    | false =>
      have hcf : (Fields.entry f ptr next).continuesOneof = false := hc
      have hskip : ¬ (f.type &&& 16 ≠ 0 ∧ f.oneofFirst = false) := by
        rw [continuesOneof_iff hf, hc]
        exact Bool.false_ne_true
      have hsend : f.sendsSize = f.hasSize := by simp [TbField.sendsSize, hc]
      refine ⟨fun len inGroup _ hlt => ?_, fun len => ?_⟩
      · rw [maxEncodedLenLoop_entry hf he.1 hc]
        have hgoes : next.continuesOneof = true → decide (f.fieldType = some .oneof) = true :=
          fun h => by simpa using hd.2.2.2.1 h
        by_cases ho : f.fieldType = some .oneof
        · have hadded : (if f.dataKind = some .message then
              oneofLoop (some (maxEncodedLenLoop 0 false ptr)) (maxEncodedLenLoop 0 false ptr) next
            else oneofLoop none f.dataSize next) =
              if f.dataKind = some .message then ptr.estimate
              else max f.dataSize next.estimateAlternative := by
            by_cases hm : f.dataKind = some .message
            · rw [if_pos hm, if_pos hm, oneofLoop_some, hsub hm (by simp [TbField.room, ho])]
            · rw [if_neg hm, if_neg hm, hgroup]
          rw [estimate_of_opens hc ho, hsend] at hlt ⊢
          rw [if_pos ho, hadded, Nat.mod_eq_of_lt (by omega), hloop _ _ hgoes (by omega)]
          omega
        · have hadded : f.room * (if f.dataKind = some .message then maxEncodedLenLoop 0 false ptr
              else f.dataSize) = f.room * entryEstimate f ptr := by
            unfold entryEstimate
            by_cases hm : f.dataKind = some .message
            · rw [if_pos hm, if_pos hm]
              rcases Nat.eq_zero_or_pos f.room with h0 | hpos
              · rw [h0, Nat.zero_mul, Nat.zero_mul]
              · rw [hsub hm hpos]
            · rw [if_neg hm, if_neg hm]
          rw [estimate_of_ne_oneof ho, hsend] at hlt ⊢
          rw [if_neg ho, hadded, Nat.mod_eq_of_lt (by omega), hloop _ _ hgoes (by omega)]
          omega
      · rw [oneofLoop, if_neg hskip, estimateAlternative_of_not_continues hcf, Nat.max_zero]

theorem tbGetMaxEncodedLen_eq {fields : Fields} {size : Nat} (hwf : WellFormed fields size)
    (he : fields.Emitted) : tbGetMaxEncodedLen fields = fields.estimate := by
  have hest := (estimate_le fields).1
  have hle := longest_le_size hwf.describes
  have hlt := hwf.size_lt
  have h := (maxEncodedLenLoop_eq fields hwf.size_lt hwf.describes he).1 0 false (by
    rw [hwf.opens]
    exact id) (by omega)
  rwa [Nat.zero_add] at h

/-! ## The maximum as a bound -/

/-- `tb_get_max_encoded_len` is what its name says: nothing longer is written, every
value fits a buffer of that size, and some value fills it. -/
structure MaxLenIsBound (fields : Fields) : Prop where
  bound : ∀ host out src base, fields.Valid host src base → ∀ (buffer : Buffer) o,
    tbEncode host out src fields base (tbOstreamFromBuffer buffer.bytes buffer.size) = (.ok (), o) →
    o.bytesWritten ≤ tbGetMaxEncodedLen fields
  succeeds : ∀ host out src base, fields.Valid host src base → ∀ buffer : Buffer,
    tbGetMaxEncodedLen fields ≤ buffer.size →
    (tbEncode host out src fields base (tbOstreamFromBuffer buffer.bytes buffer.size)).1 = .ok ()
  reached : ∀ host out, ∃ src base, fields.Valid host src base ∧ ∀ buffer : Buffer,
    tbGetMaxEncodedLen fields ≤ buffer.size →
    ∃ o, tbEncode host out src fields base (tbOstreamFromBuffer buffer.bytes buffer.size) =
      (.ok (), o) ∧ o.bytesWritten = tbGetMaxEncodedLen fields

/-- `tb_encode` into a buffer succeeds when the encoding fits, and fails otherwise. -/
theorem tbEncode_into {fields : Fields} {size : Nat} (hd : fields.Describes size)
    {host : TbEndian} (out : TbEndian) {src : Memory} {base : Nat}
    (hv : fields.Valid host src base) (buffer : Buffer) :
    ((fields.encoding host src out base).length ≤ buffer.size →
      ∃ o, tbEncode host out src fields base (tbOstreamFromBuffer buffer.bytes buffer.size) =
        (.ok (), o) ∧ o.bytesWritten = (fields.encoding host src out base).length) ∧
    (buffer.size < (fields.encoding host src out base).length →
      ∃ o, tbEncode host out src fields base (tbOstreamFromBuffer buffer.bytes buffer.size) =
        (.error (), o)) := by
  have h := tbEncode_writes host out src fields hd hv
    (tbOstreamFromBuffer buffer.bytes buffer.size) buffer.size_lt (Nat.zero_le _)
  rw [show (tbOstreamFromBuffer buffer.bytes buffer.size).bytesWritten = 0 from rfl,
    Nat.zero_add] at h
  exact ⟨fun hle => ⟨_, h.1 hle, Nat.zero_add _⟩, h.2⟩

/-- The maximum is a bound exactly for the descriptions in which no group is
underestimated. -/
theorem tb_get_max_encoded_len_is_bound_iff {fields : Fields} {size : Nat}
    (hwf : WellFormed fields size) (he : fields.Emitted) (hsize : size < 2 ^ 31) :
    MaxLenIsBound fields ↔ fields.Exact := by
  have hd := hwf.describes
  have hlen := tbGetMaxEncodedLen_eq hwf he
  have hest := (estimate_le fields).1
  have hle := longest_le_size hd
  rw [← (estimate_eq_iff fields).1, ← hlen]
  constructor
  · intro h
    obtain ⟨src, hv, hlong⟩ := longest_attained hd hwf.opens he hsize .bigEndian .bigEndian
    have hok := h.succeeds .bigEndian .bigEndian src 0 hv
      ⟨fun _ => 0, tbGetMaxEncodedLen fields, by omega⟩ (Nat.le_refl _)
    by_contra hne
    obtain ⟨o, ho⟩ := (tbEncode_into hd .bigEndian hv
      ⟨fun _ => 0, tbGetMaxEncodedLen fields, by omega⟩).2 (by
        rw [hlong]
        change tbGetMaxEncodedLen fields < _
        omega)
    rw [ho] at hok
    cases hok
  · intro h
    have hbound : ∀ {host : TbEndian} (out : TbEndian) {src : Memory} {base : Nat},
        fields.Valid host src base →
        (fields.encoding host src out base).length ≤ tbGetMaxEncodedLen fields := by
      intro host out src base hv
      have hle := encoding_length_le out fields 0 hd hv (whichIs_of_opens hwf.opens)
      rwa [chosen_of_not_continues hwf.opens, Nat.zero_add, ← h] at hle
    refine ⟨fun host out src base hv buffer o ho => ?_, fun host out src base hv buffer hfit => ?_,
      fun host out => ?_⟩
    · have hb := hbound out hv
      have hinto := tbEncode_into hd out hv buffer
      by_cases hfit : (fields.encoding host src out base).length ≤ buffer.size
      · obtain ⟨o', ho', hlen'⟩ := hinto.1 hfit
        rw [ho] at ho'
        cases ho'
        omega
      · obtain ⟨o', ho'⟩ := hinto.2 (by omega)
        rw [ho] at ho'
        cases ho'
    · have hb := hbound out hv
      obtain ⟨o, ho, _⟩ := (tbEncode_into hd out hv buffer).1 (by omega)
      rw [ho]
    · obtain ⟨src, hv, hlong⟩ := longest_attained hd hwf.opens he hsize host out
      refine ⟨src, 0, hv, fun buffer hfit => ?_⟩
      obtain ⟨o, ho, hw⟩ := (tbEncode_into hd out hv buffer).1 (by omega)
      exact ⟨o, ho, by omega⟩

theorem tb_get_max_encoded_len_is_bound_embedded :
    WellFormed embeddedMessageFields 48 ∧ embeddedMessageFields.Emitted ∧
      tbGetMaxEncodedLen embeddedMessageFields = 21 ∧ MaxLenIsBound embeddedMessageFields :=
  ⟨embeddedMessageFields_wellFormed, by decide, by decide,
    (tb_get_max_encoded_len_is_bound_iff embeddedMessageFields_wellFormed (by decide)
      (by decide)).mpr (by simp [embeddedMessageFields, embeddedMessage1Fields, Fields.Exact,
        Fields.longestAlternative, TbField.continuesOneof, TbField.fieldType, TbField.dataKind])⟩

/-- A oneof group that starts with a message of one `uint8` and goes on with a
`uint32`. -/
def messageFirstFields : Fields :=
  .entry
    { type := 528, dataOffset := 4, sizeOffset := -4, sizeSize := 1, dataSize := 1,
      arraySize := 0, oneofTag := 1, oneofFirst := true }
    (.entry
      { type := 65, dataOffset := 0, sizeOffset := 0, sizeSize := 0, dataSize := 1,
        arraySize := 0, oneofTag := 0, oneofFirst := false,
        type_ne_zero := requiredUint_ne_zero } .last .last)
  (.entry
    { type := 80, dataOffset := 4, sizeOffset := -4, sizeSize := 1, dataSize := 4,
      arraySize := 0, oneofTag := 2, oneofFirst := false,
      type_ne_zero := oneofUint_ne_zero } .last .last)

/-- With the `uint32` chosen, the encoding takes five bytes where the maximum says two. -/
theorem max_encoded_len_misses_longer_alternative :
    WellFormed messageFirstFields 8 ∧ messageFirstFields.Emitted ∧
      tbGetMaxEncodedLen messageFirstFields = 2 ∧
      messageFirstFields.Valid .littleEndian (fun _ => 2) 0 ∧
      messageFirstFields.encoding .littleEndian (fun _ => 2) .bigEndian 0 = [2, 2, 2, 2, 2] ∧
      (tbEncode .littleEndian .bigEndian (fun _ => 2) messageFirstFields 0
        (tbOstreamFromBuffer (fun _ => 0) 2)).1 = .error () ∧
      ¬ MaxLenIsBound messageFirstFields := by
  refine ⟨⟨by decide, rfl, by decide, by decide⟩, by decide, by decide, by decide, by decide,
    by decide, fun h => ?_⟩
  have hok := h.succeeds .littleEndian .bigEndian (fun _ => 2) 0 (by decide)
    ⟨fun _ => 0, 2, by decide⟩ (by decide)
  revert hok
  decide

end OpenBadge.Tinybuf
