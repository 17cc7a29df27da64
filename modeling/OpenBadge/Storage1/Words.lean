import OpenBadge.Storage1.Convert

/-!
# The word writes of a byte store

`storage1_store_uint8_as_uint32` is a sequence of `flash_store` calls that ends at the
first one that fails. Whether the flash fails or not, the words of every call lie in
the flash, and a sequence that succeeds leaves the bytes it was given.
-/

namespace OpenBadge.Storage1

open OpenBadge.Lib

/-- The arguments of `flash_store`. -/
structure WordWrite where
  wordNum : Nat
  words : List Word

/-- The calls one after the other, up to the first that fails. -/
def flashStoreAll : List WordWrite → M Unit
  | [] => pure ()
  | w :: ws => do
    flashStore w.wordNum w.words
    flashStoreAll ws

/-- The procedure does nothing but call `flash_store`, with arguments that have `P`. -/
def Issues (P : WordWrite → Prop) (x : M Unit) : Prop :=
  ∃ writes, (∀ w ∈ writes, P w) ∧ x = flashStoreAll writes

/-- All words of the call lie in the flash. -/
def WordWrite.InFlash (c : Config) (w : WordWrite) : Prop :=
  w.wordNum + w.words.length ≤ c.pageSizeWords * c.numPages

variable {P : WordWrite → Prop} {x y : M Unit}

theorem flashStoreAll_append (v w : List WordWrite) :
    flashStoreAll (v ++ w) = (do flashStoreAll v; flashStoreAll w) := by
  funext s
  induction v generalizing s with
  | nil => rfl
  | cons a v ih =>
    rw [List.cons_append, flashStoreAll, flashStoreAll, Proc.bind_apply, Proc.bind_apply,
      Proc.bind_apply]
    rcases flashStore a.wordNum a.words s with ⟨_ | _, t⟩
    · rfl
    · exact (ih t).trans (Proc.bind_apply _ _ _)

namespace Issues

theorem pure : Issues P (pure () : M Unit) := ⟨[], by simp, rfl⟩

theorem flashStore {wordNum : Nat} {words : List Word} (h : P ⟨wordNum, words⟩) :
    Issues P (flashStore wordNum words) := by
  refine ⟨[⟨wordNum, words⟩], by simpa using h, ?_⟩
  funext s
  rw [flashStoreAll, Proc.bind_apply]
  rcases Storage1.flashStore wordNum words s with ⟨_ | _, t⟩ <;> rfl

theorem seq (hx : Issues P x) (hy : Issues P y) : Issues P (do x; y) := by
  obtain ⟨v, hv, rfl⟩ := hx
  obtain ⟨w, hw, rfl⟩ := hy
  refine ⟨v ++ w, fun a ha => ?_, (flashStoreAll_append v w).symm⟩
  exact (List.mem_append.mp ha).elim (hv a) (hw a)

theorem when {p : Prop} [Decidable p] (hx : p → Issues P x) : Issues P (Proc.when p x) := by
  by_cases hp : p
  · rw [show Proc.when p x = x from if_pos hp]
    exact hx hp
  · rw [show Proc.when p x = Pure.pure () from if_neg hp]
    exact pure

theorem failIf_bind {p : Prop} [Decidable p] {e : RetCode} (hp : ¬ p) (hy : Issues P y) :
    Issues P (do Proc.failIf p e; y) := by
  have hskip : (do Proc.failIf p e; y) = y := funext fun s => Proc.failIf_bind_neg hp e _ s
  rw [hskip]
  exact hy

theorem forUpTo {f : Nat → M Unit} {n : Nat} (h : ∀ i < n, Issues P (f i)) :
    Issues P (Proc.forUpTo n f) := by
  induction n with
  | zero => exact pure
  | succ n ih =>
    exact (ih fun i hi => h i (Nat.lt_succ_of_lt hi)).seq (h n (Nat.lt_succ_self n))

end Issues

/-- A successful sequence leaves cells that depend only on the cells it started from. -/
theorem flashStoreAll_cells {writes : List WordWrite} {s t : State}
    (h : flashStoreAll writes s = (.ok (), t)) :
    t.cells = writes.foldl (fun cells w => programmed cells w.wordNum w.words) s.cells := by
  induction writes generalizing s with
  | nil =>
    obtain ⟨_, rfl⟩ := Prod.mk.inj h
    rfl
  | cons w writes ih =>
    obtain ⟨_, u, hu, hrest⟩ := Proc.bind_eq_ok.mp h
    rw [ih hrest, List.foldl_cons]
    unfold flashStore withFault at hu
    split at hu
    · cases hu
    · obtain ⟨_, rfl⟩ := Prod.mk.inj hu
      rfl

theorem Issues.cells (hx : Issues P x) {s s' t t' : State} (hs : s.cells = s'.cells)
    (h : x s = (.ok (), t)) (h' : x s' = (.ok (), t')) : t.cells = t'.cells := by
  obtain ⟨writes, _, rfl⟩ := hx
  rw [flashStoreAll_cells h, flashStoreAll_cells h', hs]

section Store

variable {c : Config} {address : Nat} {data : List UInt8} {al : Alignment}

theorem storeIntermediate_issues (hpos : 0 < al.intermediate)
    (hin : address + al.leading + al.intermediate ≤ getSize c) :
    Issues (WordWrite.InFlash c) (storeIntermediate address data al) := by
  unfold getSize at hin
  unfold storeIntermediate
  split
  · apply Issues.flashStore
    show address / 4 + 1 ≤ _
    omega
  · have hwhole : (address + al.leading) / 4 + al.intermediate / 4 ≤
        c.pageSizeWords * c.numPages := by omega
    have hblocks : al.intermediate / 4 / wordsBufSize * wordsBufSize +
        al.intermediate / 4 % wordsBufSize = al.intermediate / 4 := Nat.div_add_mod' _ _
    refine (Issues.forUpTo fun i hi => ?_).seq (Issues.when fun hrest => ?_)
    · have hle : (i + 1) * wordsBufSize ≤ al.intermediate / 4 / wordsBufSize * wordsBufSize :=
        Nat.mul_le_mul_right _ hi
      rw [Nat.succ_mul] at hle
      apply Issues.flashStore
      show (address + al.leading) / 4 + i * wordsBufSize + (wordsFrom data _ _).length ≤ _
      rw [wordsFrom, List.length_map, List.length_range]
      omega
    · apply Issues.flashStore
      show (address + al.leading) / 4 + al.intermediate / 4 / wordsBufSize * wordsBufSize +
        (wordsFrom data _ _).length ≤ _
      rw [wordsFrom, List.length_map, List.length_range]
      omega

/-- All words that a store of bytes in range writes lie in the flash. -/
theorem storeUint8AsUint32_issues (hin : address + data.length ≤ getSize c) :
    Issues (WordWrite.InFlash c) (storeUint8AsUint32 c address data) := by
  have hsize : getSize c < 2 ^ 31 := c.size_lt
  unfold storeUint8AsUint32
  apply Issues.failIf_bind
  · rw [Nat.mod_eq_of_lt (by omega)]
    omega
  split
  · exact Issues.pure
  · have hsum := (computeWordAlignedAddresses_cases address data.length (by omega)).1
    generalize computeWordAlignedAddresses address data.length = al at hsum ⊢
    have hwords : getSize c = 4 * (c.pageSizeWords * c.numPages) := Nat.mul_comm _ _
    refine (Issues.when fun hpos => ?_).seq ((Issues.when fun hpos => ?_).seq
      (Issues.when fun hpos => ?_))
    · exact storeIntermediate_issues hpos (by omega)
    · apply Issues.flashStore
      show address / 4 + 1 ≤ _
      omega
    · apply Issues.flashStore
      show (address + al.leading + al.intermediate) / 4 + 1 ≤ _
      omega

/-- A store that succeeds programs its bytes, also when other calls of the flash fail. -/
theorem storeUint8AsUint32_byteAt (hin : address + data.length ≤ getSize c) {s t : State}
    (h : storeUint8AsUint32 c address data s = (.ok (), t)) (x : Nat) :
    byteAt t.cells x = byteAt s.cells x &&& offer address data x := by
  have hideal : Ideal { s with fault := fun _ => none } := fun _ => rfl
  obtain ⟨u, hu, hp⟩ := storeUint8AsUint32_programs c hideal hin
  have hcells : t.cells = u.cells := (storeUint8AsUint32_issues hin).cells (by rfl) h hu
  rw [hcells]
  exact hp.bytes x

end Store

/-- Bytes are stored and read through words: only words in the flash are written, exactly the
bytes of the range change, each to its old value and the new one, and reading returns the
bytes that stand there. -/
theorem bytes_through_words (c : Config) {address : Nat} {data : List UInt8}
    (hin : address + data.length ≤ getSize c) (s : State) :
    Issues (WordWrite.InFlash c) (storeUint8AsUint32 c address data) ∧
      (Ideal s → (storeUint8AsUint32 c address data s).1 = .ok ()) ∧
      (∀ t, storeUint8AsUint32 c address data s = (.ok (), t) →
        (∀ x, ¬ (address ≤ x ∧ x < address + data.length) →
          byteAt t.cells x = byteAt s.cells x) ∧
        ∀ x (h : x < data.length),
          byteAt t.cells (address + x) = byteAt s.cells (address + x) &&& data[x] ∧
          (byteAt s.cells (address + x) = 0xFF → byteAt t.cells (address + x) = data[x])) ∧
      readUint32AsUint8 c address data.length s =
        (.ok (slice (byteAt s.cells) address data.length), s) := by
  refine ⟨storeUint8AsUint32_issues hin, fun hs => ?_, fun t ht => ⟨fun x hx => ?_, fun x hx => ?_⟩,
    readUint32AsUint8_ok hin⟩
  · obtain ⟨t, ht, _⟩ := storeUint8AsUint32_programs c hs hin
    rw [ht]
  · rw [storeUint8AsUint32_byteAt hin ht, offer]
    by_cases hlt : x < address
    · rw [overwrite_of_lt _ _ hlt, and_ones]
    · rw [overwrite_of_ge _ _ (by omega), and_ones]
  · have hnew : offer address data (address + x) = data[x] := by
      unfold offer overwrite
      rw [if_pos (by omega), Nat.add_sub_cancel_left, List.getElem?_eq_getElem hx,
        Option.getD_some]
    refine ⟨by rw [storeUint8AsUint32_byteAt hin ht, hnew], fun hblank => ?_⟩
    rw [storeUint8AsUint32_byteAt hin ht, hnew, hblank, UInt8.and_comm, and_ones]

theorem bytes_through_words_odd :
    readUint32AsUint8 nrf51 5 3 ⟨fun _ => fun i => i.val.toUInt8, fun _ => none, 0, [], true⟩ =
      (.ok [1, 2, 3], ⟨fun _ => fun i => i.val.toUInt8, fun _ => none, 0, [], true⟩) := by
  have hin : 5 + ([7, 8, 9] : List UInt8).length ≤ getSize nrf51 := by decide
  exact (bytes_through_words nrf51 hin
    ⟨fun _ => fun i => i.val.toUInt8, fun _ => none, 0, [], true⟩).2.2.2

end OpenBadge.Storage1
