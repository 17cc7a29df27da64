import OpenBadge.Storage1.Model
import Mathlib.Tactic.Ring

/-!
# Bytes through words

`storage1_store_uint8_as_uint32` cuts a byte range into leading, intermediate and
final parts and programs them as words filled with ones. On ideal flash its effect
is that of programming each byte on its own, for every alignment of the two ends
and any number of word blocks. Reading goes back the same way.
-/

namespace OpenBadge.Storage1

open OpenBadge.Lib

/-- The bytes offered to the flash when `data` is programmed at `address`: ones
everywhere else. -/
def offer (address : Nat) (data : List UInt8) : Nat → UInt8 :=
  overwrite (fun _ => 0xFF) address data

theorem offer_nil (address : Nat) : offer address [] = fun _ => 0xFF := by
  funext x
  simp [offer, overwrite]

theorem offer_append (address : Nat) (d e : List UInt8) (x : Nat) :
    offer address (d ++ e) x = offer address d x &&& offer (address + d.length) e x := by
  unfold offer
  by_cases h : x < address + d.length
  · rw [overwrite_of_lt _ e h, and_ones]
    unfold overwrite
    split
    · rw [List.getElem?_append_left (by omega)]
    · rfl
  · rw [overwrite_of_ge _ d (by omega), UInt8.and_comm, and_ones]
    unfold overwrite
    rw [if_pos (by omega), if_pos (by omega), List.getElem?_append_right (by omega),
      Nat.sub_sub]

theorem bytesOf_cons (w : Word) (ws : List Word) : bytesOf (w :: ws) = List.ofFn w ++ bytesOf ws := by
  simp [bytesOf]

theorem bytesOf_getElem? (ws : List Word) (k : Nat) :
    (bytesOf ws)[k]? = (ws[k / 4]?).map fun w => w ⟨k % 4, Nat.mod_lt _ (by decide)⟩ := by
  induction ws generalizing k with
  | nil => simp [bytesOf]
  | cons w ws ih =>
    rw [bytesOf_cons]
    by_cases h : k < 4
    · rw [List.getElem?_append_left (by simpa using h), Nat.div_eq_of_lt h, List.getElem?_ofFn,
        dif_pos h, List.getElem?_cons_zero, Option.map_some]
      simp only [Nat.mod_eq_of_lt h]
    · rw [List.getElem?_append_right (by simpa using h), List.length_ofFn, ih]
      obtain ⟨j, rfl⟩ := Nat.exists_eq_add_of_le (Nat.le_of_not_lt h)
      rw [show 4 + j - 4 = j by omega, show (4 + j) / 4 = j / 4 + 1 by omega,
        List.getElem?_cons_succ]
      simp only [Nat.add_mod_left]

/-- Programming words offers their bytes, in order. -/
theorem offered_eq (wordNum : Nat) (ws : List Word) :
    offered wordNum ws = offer (4 * wordNum) (bytesOf ws) := by
  funext x
  unfold offered offer overwrite
  by_cases h : wordNum ≤ x / 4
  · rw [if_pos h, if_pos (by omega), bytesOf_getElem?,
      show (x - 4 * wordNum) / 4 = x / 4 - wordNum by omega]
    have hm : (x - 4 * wordNum) % 4 = x % 4 := by omega
    cases ws[x / 4 - wordNum]? with
    | none => rfl
    | some w => simp only [Option.map_some, Option.getD_some, hm]
  · rw [if_neg h, if_neg (by omega)]

theorem bytesOf_wordsFrom (data : List UInt8) (offset n : Nat)
    (h : offset + 4 * n ≤ data.length) :
    bytesOf (wordsFrom data offset n) = (data.drop offset).take (4 * n) := by
  apply List.ext_getElem?
  intro k
  rw [bytesOf_getElem?]
  by_cases hk : k < 4 * n
  · have hw : (wordsFrom data offset n)[k / 4]? =
        some fun b : Fin 4 => data.getD (offset + 4 * (k / 4) + b) 0 := by
      simp [wordsFrom, show k / 4 < n by omega]
    rw [hw, Option.map_some, List.getElem?_take_of_lt hk, List.getElem?_drop]
    have hd : offset + k < data.length := by omega
    rw [List.getElem?_eq_getElem hd]
    simp only [List.getD_eq_getElem?_getD, show offset + 4 * (k / 4) + k % 4 = offset + k by omega,
      List.getElem?_eq_getElem hd, Option.getD_some]
  · rw [List.getElem?_eq_none (by simp [wordsFrom]; omega),
      List.getElem?_eq_none (by simp; omega), Option.map_none]

theorem flashStore_ideal {s : State} (h : Ideal s) (wordNum : Nat) (ws : List Word) :
    flashStore wordNum ws s =
      (.ok (), { s with cells := programmed s.cells wordNum ws, calls := s.calls + 1 }) :=
  withFault_ideal h _

/-- The state `t` is `s` after programming `data` at `address`. -/
structure Programs (address : Nat) (data : List UInt8) (s t : State) : Prop where
  bytes : ∀ x, byteAt t.cells x = byteAt s.cells x &&& offer address data x
  fault : t.fault = s.fault
  lastStored : t.lastStored = s.lastStored

theorem Programs.ideal {address : Nat} {data : List UInt8} {s t : State}
    (h : Programs address data s t) (hs : Ideal s) : Ideal t := by
  intro n
  rw [h.fault]
  exact hs n

theorem Programs.nil (address : Nat) (s : State) : Programs address [] s s :=
  ⟨fun x => by rw [offer_nil, and_ones], rfl, rfl⟩

theorem Programs.append {address : Nat} {d e : List UInt8} {s t u : State}
    (h : Programs address d s t) (h' : Programs (address + d.length) e t u) :
    Programs address (d ++ e) s u := by
  refine ⟨fun x => ?_, h'.fault.trans h.fault, h'.lastStored.trans h.lastStored⟩
  rw [h'.bytes, h.bytes, offer_append, UInt8.and_assoc]

/-- The parts may be programmed in the other order. -/
theorem Programs.append_swap {address : Nat} {d e : List UInt8} {s t u : State}
    (h : Programs (address + d.length) e s t) (h' : Programs address d t u) :
    Programs address (d ++ e) s u := by
  refine ⟨fun x => ?_, h'.fault.trans h.fault, h'.lastStored.trans h.lastStored⟩
  rw [h'.bytes, h.bytes, offer_append, UInt8.and_assoc,
    UInt8.and_comm (offer (address + d.length) e x)]

theorem flashStore_programs {s : State} (hs : Ideal s) {wordNum address : Nat} {ws : List Word}
    {data : List UInt8} (h : offer (4 * wordNum) (bytesOf ws) = offer address data) :
    ∃ t, flashStore wordNum ws s = (.ok (), t) ∧ Programs address data s t := by
  refine ⟨_, flashStore_ideal hs wordNum ws, ⟨fun x => ?_, rfl, rfl⟩⟩
  rw [byteAt_programmed, offered_eq, h]

/-- The shape of the cut: either the range lies strictly inside one word, or the
intermediate part is a whole number of words that starts on a word. -/
theorem computeWordAlignedAddresses_cases (address length : Nat) (h : 0 < length) :
    let al := computeWordAlignedAddresses address length
    al.leading + al.intermediate + al.final = length ∧
    ((al.leading = 0 ∧ al.final = 0 ∧ 0 < al.intermediate ∧
        address % 4 + al.intermediate < 4) ∨
      (al.intermediate % 4 = 0 ∧ al.leading < 4 ∧ al.final < 4 ∧
        (address + al.leading) % 4 = 0)) := by
  unfold computeWordAlignedAddresses
  rw [if_neg (by omega)]
  split
  · rename_i hw
    refine ⟨by simp, Or.inl ⟨rfl, rfl, h, ?_⟩⟩
    dsimp only
    omega
  · rename_i hw
    dsimp only
    have hle : (address + length - (address + length) / 4 * 4) % 4 +
        ((address / 4 + 1) * 4 - address) % 4 ≤ length := by omega
    rw [if_pos hle]
    exact ⟨by omega, Or.inr ⟨by omega, by omega, by omega, by omega⟩⟩

/-- A word that carries `sub` from byte `start` on and ones elsewhere. -/
theorem offer_partial_word (wordNum start : Nat) (w : Word) (sub : List UInt8)
    (hlen : start + sub.length ≤ 4)
    (hw : ∀ i : Fin 4, w i = if start ≤ i ∧ i < start + sub.length then sub.getD (i - start) 0
      else 0xFF) :
    offer (4 * wordNum) (bytesOf [w]) = offer (4 * wordNum + start) sub := by
  funext x
  have hb : bytesOf [w] = List.ofFn w := by simp [bytesOf]
  rw [hb]
  unfold offer overwrite
  by_cases hx : 4 * wordNum ≤ x
  · rw [if_pos hx, List.getElem?_ofFn]
    by_cases h4 : x - 4 * wordNum < 4
    · rw [dif_pos h4, Option.getD_some, hw]
      by_cases hin : 4 * wordNum + start ≤ x
      · rw [if_pos hin]
        by_cases hlt : x - 4 * wordNum < start + sub.length
        · rw [if_pos ⟨by show start ≤ x - 4 * wordNum; omega, hlt⟩, List.getD_eq_getElem?_getD]
          show (sub[x - 4 * wordNum - start]?).getD 0 = _
          rw [Nat.sub_sub, List.getElem?_eq_getElem (by omega), Option.getD_some, Option.getD_some]
        · rw [if_neg (fun h => hlt h.2), List.getElem?_eq_none (by omega), Option.getD_none]
      · rw [if_neg hin, if_neg (fun h => hin (by have := h.1; simp at this; omega))]
    · rw [dif_neg h4, Option.getD_none, if_pos (by omega), List.getElem?_eq_none (by omega),
        Option.getD_none]
  · rw [if_neg hx, if_neg (by omega)]

theorem getD_take {l : List UInt8} {n i : Nat} (h : i < n) : (l.take n).getD i 0 = l.getD i 0 := by
  rw [List.getD_eq_getElem?_getD, List.getD_eq_getElem?_getD, List.getElem?_take_of_lt h]

theorem getD_drop (l : List UInt8) (n i : Nat) : (l.drop n).getD i 0 = l.getD (n + i) 0 := by
  rw [List.getD_eq_getElem?_getD, List.getD_eq_getElem?_getD, List.getElem?_drop]

section Store

variable {s : State} {address : Nat} {data : List UInt8} {al : Alignment}

theorem storeLeading_programs (hs : Ideal s) (hle : al.leading ≤ data.length)
    (hlt : al.leading < 4) (hpos : 0 < al.leading) (hal : (address + al.leading) % 4 = 0) :
    ∃ t, storeLeading address data al s = (.ok (), t) ∧
      Programs address (data.take al.leading) s t := by
  unfold storeLeading
  apply flashStore_programs hs
  have hlen : (data.take al.leading).length = al.leading := by simp [hle]
  have ha : address = 4 * (address / 4) + (4 - al.leading) := by omega
  conv_rhs => rw [ha]
  apply offer_partial_word
  · rw [hlen]; omega
  · intro i
    rw [hlen]
    have hi := i.isLt
    by_cases h : i < 4 - al.leading
    · rw [if_pos h, if_neg (by omega)]
    · rw [if_neg h, if_pos (by omega), getD_take (by omega)]

theorem storeFinal_programs (hs : Ideal s)
    (hsum : al.leading + al.intermediate + al.final = data.length) (hlt : al.final < 4)
    (hal : (address + al.leading + al.intermediate) % 4 = 0) :
    ∃ t, storeFinal address data al s = (.ok (), t) ∧
      Programs (address + al.leading + al.intermediate)
        (data.drop (al.leading + al.intermediate)) s t := by
  unfold storeFinal
  apply flashStore_programs hs
  have hlen : (data.drop (al.leading + al.intermediate)).length = al.final := by simp; omega
  have ha : address + al.leading + al.intermediate =
      4 * ((address + al.leading + al.intermediate) / 4) + 0 := by omega
  conv_rhs => rw [ha]
  apply offer_partial_word
  · rw [hlen]; omega
  · intro i
    rw [hlen, getD_drop]
    by_cases h : i < al.final
    · rw [if_pos h, if_pos (by omega)]
      congr 1
      omega
    · rw [if_neg h, if_neg (by omega)]

/-- The block loop with its remainder programs the whole words. -/
theorem storeBlocks_programs (hs : Ideal s) (data : List UInt8) (wordAddress offset q : Nat)
    (hle : offset + 4 * (q * wordsBufSize) ≤ data.length) :
    ∃ t, Proc.forUpTo q (fun i => flashStore (wordAddress + i * wordsBufSize)
        (wordsFrom data (offset + i * 4 * wordsBufSize) wordsBufSize)) s = (.ok (), t) ∧
      Programs (4 * wordAddress) ((data.drop offset).take (4 * (q * wordsBufSize))) s t := by
  apply Proc.forUpTo_ok
    (fun i t => Programs (4 * wordAddress) ((data.drop offset).take (4 * (i * wordsBufSize))) s t)
  · simpa using Programs.nil (4 * wordAddress) s
  · intro i t hi hI
    have hq : i * wordsBufSize + wordsBufSize ≤ q * wordsBufSize := by
      rw [← Nat.succ_mul]
      exact Nat.mul_le_mul_right _ hi
    have hoff : offset + i * 4 * wordsBufSize = offset + 4 * (i * wordsBufSize) := by ring
    have hlen : ((data.drop offset).take (4 * (i * wordsBufSize))).length =
        4 * (i * wordsBufSize) := by simp; omega
    have hoffer : offer (4 * (wordAddress + i * wordsBufSize))
          (bytesOf (wordsFrom data (offset + i * 4 * wordsBufSize) wordsBufSize)) =
        offer (4 * wordAddress + 4 * (i * wordsBufSize))
          (((data.drop offset).drop (4 * (i * wordsBufSize))).take (4 * wordsBufSize)) := by
      rw [Nat.mul_add, hoff, bytesOf_wordsFrom _ _ _ (by omega), List.drop_drop]
    obtain ⟨u, hu, hp⟩ := flashStore_programs (hI.ideal hs) hoffer
    refine ⟨u, hu, ?_⟩
    have h := hI.append (e := ((data.drop offset).drop (4 * (i * wordsBufSize))).take
      (4 * wordsBufSize)) (by rw [hlen]; exact hp)
    rw [← List.take_add] at h
    rwa [show 4 * (i * wordsBufSize) + 4 * wordsBufSize = 4 * ((i + 1) * wordsBufSize) by ring] at h

theorem storeIntermediate_programs (hs : Ideal s)
    (hsum : al.leading + al.intermediate + al.final = data.length)
    (hcase : (al.leading = 0 ∧ al.final = 0 ∧ 0 < al.intermediate ∧
        address % 4 + al.intermediate < 4) ∨
      (al.intermediate % 4 = 0 ∧ al.leading < 4 ∧ al.final < 4 ∧
        (address + al.leading) % 4 = 0))
    (hpos : 0 < al.intermediate) :
    ∃ t, storeIntermediate address data al s = (.ok (), t) ∧
      Programs (address + al.leading) ((data.drop al.leading).take al.intermediate) s t := by
  unfold storeIntermediate
  rcases hcase with ⟨hl, hf, -, hlt⟩ | ⟨hm, -, -, hal⟩
  · rw [if_pos (by omega), hl, List.drop_zero, Nat.add_zero]
    apply flashStore_programs hs
    have hlen : (data.take al.intermediate).length = al.intermediate := by simp; omega
    have ha : address = 4 * (address / 4) + address % 4 := by omega
    conv_rhs => rw [ha]
    apply offer_partial_word
    · rw [hlen]; omega
    · intro i
      rw [hlen, Nat.mod_eq_of_lt hlt]
      by_cases h : address % 4 ≤ i ∧ i < address % 4 + al.intermediate
      · rw [if_pos h, if_pos h, getD_take (by omega)]
      · rw [if_neg h, if_neg h]
  · rw [if_neg (by omega)]
    have ha : 4 * ((address + al.leading) / 4) = address + al.leading := by omega
    have hq : 4 * (al.intermediate / 4 / wordsBufSize * wordsBufSize) +
        4 * (al.intermediate / 4 % wordsBufSize) = al.intermediate := by
      unfold wordsBufSize
      omega
    obtain ⟨t, ht, hp⟩ := storeBlocks_programs hs data ((address + al.leading) / 4)
      al.leading (al.intermediate / 4 / wordsBufSize) (by omega)
    rw [ha] at hp
    simp only [Proc.bind_ok ht]
    by_cases hr : 0 < al.intermediate / 4 % wordsBufSize
    · rw [Proc.when_pos hr]
      have hlen : ((data.drop al.leading).take
          (4 * (al.intermediate / 4 / wordsBufSize * wordsBufSize))).length =
          4 * (al.intermediate / 4 / wordsBufSize * wordsBufSize) := by simp; omega
      have hoff : al.leading + al.intermediate / 4 / wordsBufSize * 4 * wordsBufSize =
          al.leading + 4 * (al.intermediate / 4 / wordsBufSize * wordsBufSize) := by ring
      have hoffer : offer
            (4 * ((address + al.leading) / 4 + al.intermediate / 4 / wordsBufSize * wordsBufSize))
            (bytesOf (wordsFrom data
              (al.leading + al.intermediate / 4 / wordsBufSize * 4 * wordsBufSize)
              (al.intermediate / 4 % wordsBufSize))) =
          offer (address + al.leading + 4 * (al.intermediate / 4 / wordsBufSize * wordsBufSize))
            (((data.drop al.leading).drop
              (4 * (al.intermediate / 4 / wordsBufSize * wordsBufSize))).take
                (4 * (al.intermediate / 4 % wordsBufSize))) := by
        rw [Nat.mul_add, ha, hoff, bytesOf_wordsFrom _ _ _ (by omega), List.drop_drop]
      obtain ⟨u, hu, hp'⟩ := flashStore_programs (hp.ideal hs) hoffer
      refine ⟨u, hu, ?_⟩
      have h := hp.append (by rw [hlen]; exact hp')
      rwa [← List.take_add, hq] at h
    · rw [Proc.when_neg hr]
      refine ⟨t, rfl, ?_⟩
      have h0 : al.intermediate / 4 % wordsBufSize = 0 := by omega
      rw [h0, Nat.mul_zero, Nat.add_zero] at hq
      rwa [hq] at hp

/-- On ideal flash storing a range programs exactly its bytes. -/
theorem storeUint8AsUint32_programs (c : Config) (hs : Ideal s)
    (hin : address + data.length ≤ getSize c) :
    ∃ t, storeUint8AsUint32 c address data s = (.ok (), t) ∧ Programs address data s t := by
  have hsize : getSize c < 2 ^ 31 := c.size_lt
  unfold storeUint8AsUint32
  rw [Proc.failIf_bind_neg (by rw [Nat.mod_eq_of_lt (by omega)]; omega)]
  by_cases h0 : data.length = 0
  · rw [if_pos h0, List.eq_nil_of_length_eq_zero h0]
    exact ⟨s, rfl, Programs.nil address s⟩
  rw [if_neg h0]
  obtain ⟨hsum, hcase⟩ := computeWordAlignedAddresses_cases address data.length (by omega)
  generalize computeWordAlignedAddresses address data.length = al at hsum hcase ⊢
  have hsplit : data = data.take al.leading ++
      ((data.drop al.leading).take al.intermediate ++ data.drop (al.leading + al.intermediate)) := by
    rw [← List.drop_drop, List.take_append_drop, List.take_append_drop]
  have hl1 : (data.take al.leading).length = al.leading := by simp; omega
  have hl2 : ((data.drop al.leading).take al.intermediate).length = al.intermediate := by
    simp; omega
  obtain ⟨t1, ht1, hp1⟩ : ∃ t, (Proc.when (0 < al.intermediate)
      (storeIntermediate address data al) : M Unit) s = (.ok (), t) ∧
      Programs (address + al.leading) ((data.drop al.leading).take al.intermediate) s t := by
    by_cases h : 0 < al.intermediate
    · rw [Proc.when_pos h]
      exact storeIntermediate_programs hs hsum hcase h
    · rw [Proc.when_neg h, show al.intermediate = 0 by omega, List.take_zero]
      exact ⟨s, rfl, Programs.nil _ s⟩
  obtain ⟨t2, ht2, hp2⟩ : ∃ t, (Proc.when (0 < al.leading)
      (storeLeading address data al) : M Unit) t1 = (.ok (), t) ∧
      Programs address (data.take al.leading) t1 t := by
    by_cases h : 0 < al.leading
    · rw [Proc.when_pos h]
      exact storeLeading_programs (hp1.ideal hs) (by omega) (by omega) h (by omega)
    · rw [Proc.when_neg h, show al.leading = 0 by omega, List.take_zero]
      exact ⟨t1, rfl, Programs.nil _ t1⟩
  have hp12 := Programs.append_swap (d := data.take al.leading) (by rwa [hl1]) hp2
  obtain ⟨t3, ht3, hp3⟩ : ∃ t, (Proc.when (0 < al.final)
      (storeFinal address data al) : M Unit) t2 = (.ok (), t) ∧
      Programs (address + al.leading + al.intermediate)
        (data.drop (al.leading + al.intermediate)) t2 t := by
    by_cases h : 0 < al.final
    · rw [Proc.when_pos h]
      exact storeFinal_programs (hp12.ideal hs) hsum (by omega) (by omega)
    · rw [Proc.when_neg h, List.drop_eq_nil_of_le (by omega)]
      exact ⟨t2, rfl, Programs.nil _ t2⟩
  refine ⟨t3, ?_, ?_⟩
  · rw [Proc.bind_ok ht1, Proc.bind_ok ht2, ht3]
  · have h := hp12.append (e := data.drop (al.leading + al.intermediate))
      (by rw [List.length_append, hl1, hl2, ← Nat.add_assoc]; exact hp3)
    rwa [List.append_assoc, ← hsplit] at h

end Store

section Read

variable {c : Config} {s : State}

theorem flashRead_ok {wordNum n : Nat} (h : wordNum + n ≤ c.pageSizeWords * c.numPages) :
    flashRead c wordNum n s = (.ok (slice s.cells wordNum n), s) := by
  unfold flashRead
  rw [Proc.failIf_bind_neg (by omega)]
  rfl

theorem bytesOf_slice (cells : Nat → Word) (wordNum n : Nat) :
    bytesOf (slice cells wordNum n) = slice (byteAt cells) (4 * wordNum) (4 * n) := by
  apply List.ext_getElem?
  intro k
  rw [bytesOf_getElem?]
  by_cases hk : k < 4 * n
  · rw [slice_getElem? _ (show k / 4 < n by omega), slice_getElem? _ hk, Option.map_some]
    unfold byteAt
    simp only [show (4 * wordNum + k) / 4 = wordNum + k / 4 by omega, Nat.mul_add_mod]
  · rw [List.getElem?_eq_none (by simp; omega), List.getElem?_eq_none (by simp; omega)]
    rfl

theorem collectBlocks_ok (wordAddress q : Nat)
    (h : wordAddress + q * wordsBufSize ≤ c.pageSizeWords * c.numPages) :
    Proc.collectUpTo q (fun i => flashRead c (wordAddress + i * wordsBufSize) wordsBufSize) s =
      (.ok (slice s.cells wordAddress (q * wordsBufSize)), s) := by
  induction q with
  | zero => rfl
  | succ q ih =>
    rw [Nat.succ_mul] at h
    have hr : flashRead c (wordAddress + q * wordsBufSize) wordsBufSize s =
        (.ok (slice s.cells (wordAddress + q * wordsBufSize) wordsBufSize), s) :=
      flashRead_ok (by omega)
    rw [Proc.collectUpTo, Proc.bind_ok (ih (by omega)), Proc.bind_ok hr, Nat.succ_mul, slice_add]
    rfl

theorem readIntermediate_ok {address : Nat} {al : Alignment}
    (hcase : (al.leading = 0 ∧ al.final = 0 ∧ 0 < al.intermediate ∧
        address % 4 + al.intermediate < 4) ∨
      (al.intermediate % 4 = 0 ∧ al.leading < 4 ∧ al.final < 4 ∧
        (address + al.leading) % 4 = 0))
    (hpos : 0 < al.intermediate)
    (hin : address + al.leading + al.intermediate ≤ getSize c) :
    readIntermediate c address al s =
      (.ok (slice (byteAt s.cells) (address + al.leading) al.intermediate), s) := by
  unfold getSize at hin
  unfold readIntermediate
  rcases hcase with ⟨hl, hf, -, hlt⟩ | ⟨hm, -, -, hal⟩
  · rw [if_pos (by omega), Proc.bind_ok (flashRead_ok (by omega)), Nat.mod_eq_of_lt hlt]
    rw [bytesOf_slice, slice_take _ _ (by omega), slice_drop _ _ (by omega), hl,
      show 4 * (address / 4) + address % 4 = address + 0 by omega, Nat.add_sub_cancel_left]
    rfl
  · have hq : al.intermediate / 4 / wordsBufSize * wordsBufSize +
        al.intermediate / 4 % wordsBufSize = al.intermediate / 4 := by
      unfold wordsBufSize
      omega
    have ha : 4 * ((address + al.leading) / 4) = address + al.leading := by omega
    have hall : 4 * (al.intermediate / 4) = al.intermediate := by omega
    rw [if_neg (by omega), Proc.bind_ok (collectBlocks_ok _ _ (by omega))]
    by_cases hr : 0 < al.intermediate / 4 % wordsBufSize
    · rw [Proc.branch_pos hr, Proc.bind_ok (flashRead_ok (by omega))]
      rw [← slice_add, hq, bytesOf_slice, ha, hall]
      rfl
    · rw [Proc.branch_neg hr, Proc.pure_bind_apply, List.append_nil]
      rw [show al.intermediate / 4 % wordsBufSize = 0 by omega, Nat.add_zero] at hq
      rw [hq, bytesOf_slice, ha, hall]
      rfl

/-- Reading an in-range byte range returns the bytes of the cells. -/
theorem readUint32AsUint8_ok {address length : Nat} (hin : address + length ≤ getSize c) :
    readUint32AsUint8 c address length s = (.ok (slice (byteAt s.cells) address length), s) := by
  have hsize : getSize c < 2 ^ 31 := c.size_lt
  unfold readUint32AsUint8
  rw [Proc.failIf_bind_neg (by rw [Nat.mod_eq_of_lt (by omega)]; omega)]
  by_cases h0 : length = 0
  · rw [if_pos h0, h0]
    rfl
  rw [if_neg h0]
  obtain ⟨hsum, hcase⟩ := computeWordAlignedAddresses_cases address length (by omega)
  generalize computeWordAlignedAddresses address length = al at hsum hcase ⊢
  have h1 : (Proc.branch (0 < al.intermediate) (readIntermediate c address al) (pure []) : M _) s =
      (.ok (slice (byteAt s.cells) (address + al.leading) al.intermediate), s) := by
    by_cases h : 0 < al.intermediate
    · rw [Proc.branch_pos h]
      exact readIntermediate_ok hcase h (by omega)
    · rw [Proc.branch_neg h, show al.intermediate = 0 by omega]
      rfl
  have h2 : (Proc.branch (0 < al.leading) (readLeading c address al) (pure []) : M _) s =
      (.ok (slice (byteAt s.cells) address al.leading), s) := by
    by_cases h : 0 < al.leading
    · unfold getSize at hin
      rw [Proc.branch_pos h, readLeading, Proc.bind_ok (flashRead_ok (by omega)), bytesOf_slice,
        slice_drop _ _ (by omega), show 4 * (address / 4) + (4 - al.leading) = address by omega,
        show 4 * 1 - (4 - al.leading) = al.leading by omega]
      rfl
    · rw [Proc.branch_neg h, show al.leading = 0 by omega]
      rfl
  have h3 : (Proc.branch (0 < al.final) (readFinal c address al) (pure []) : M _) s =
      (.ok (slice (byteAt s.cells) (address + (al.leading + al.intermediate)) al.final), s) := by
    by_cases h : 0 < al.final
    · unfold getSize at hin
      rw [Proc.branch_pos h, readFinal, Proc.bind_ok (flashRead_ok (by omega)), bytesOf_slice,
        slice_take _ _ (by omega),
        show 4 * ((address + al.leading + al.intermediate) / 4) =
          address + (al.leading + al.intermediate) by omega]
      rfl
    · rw [Proc.branch_neg h, show al.final = 0 by omega]
      rfl
  rw [Proc.bind_ok h1, Proc.bind_ok h2, Proc.bind_ok h3, ← hsum, slice_add, slice_add]
  rfl

theorem read_ok {address length : Nat} (hin : address + length ≤ getSize c) :
    read c address length s = (.ok (slice (byteAt s.cells) address length), s) := by
  have hsize : getSize c < 2 ^ 31 := c.size_lt
  unfold read
  rw [Proc.failIf_bind_neg (by rw [Nat.mod_eq_of_lt (by omega)]; omega)]
  by_cases h0 : length = 0
  · rw [if_pos h0, h0]
    rfl
  · rw [if_neg h0, readUint32AsUint8_ok hin]

end Read

end OpenBadge.Storage1
