import OpenBadge.Storage1.Faults
import Mathlib.Data.Fintype.Pi

/-!
# The flash self test under storage1

`flash_selftest` erases and programs flash pages below the layer that remembers end
addresses. It leaves the first fifteen pages blank except for a hundred words, so a
remembered address on a page with such words behind it vouches for bytes that are
not blank.
-/

namespace OpenBadge.Storage1

open OpenBadge.Lib

/-- A `uint32_t` as its bytes in address order. -/
def wordOf (n : Nat) : Word := fun i => UInt8.ofNat (n / 256 ^ i.val)

/-- `flash_store` with the range check of the fstorage library. -/
def flashStoreIn (c : Config) (wordNum : Nat) (words : List Word) : M Unit := do
  Proc.failIf (c.pageSizeWords * c.numPages < wordNum + words.length) .invalidParam
  flashStore wordNum words

/-- `flash_erase` with the range check of the fstorage library. -/
def flashEraseIn (c : Config) (pageNum numPages : Nat) : M Unit := do
  Proc.failIf (c.numPages < pageNum + numPages) .invalidParam
  flashErase c pageNum numPages

def largeWordsAddress : Nat := 1234

def largeWordNumber : Nat := 100

def largeWriteWords : List Word := (List.range largeWordNumber).map wordOf

/-- Test erasing two pages, and test writing a word. -/
def testWord (c : Config) : M Unit := do
  flashEraseIn c 0 2
  flashStoreIn c 0 [wordOf 0x1234ABCD]
  let readWord ← flashRead c 0 1
  Proc.failIf (readWord ≠ [wordOf 0x1234ABCD]) .internal

/-- Test writing to the same position another value; the code writes to word 100. -/
def testSamePosition (c : Config) : M Unit := do
  flashStoreIn c 100 [wordOf 0xFFFFFFFF]
  let readWord ← flashRead c 0 1
  Proc.failIf (readWord = [wordOf 0xFFFFFFFF]) .internal

/-- Test an overflowing write operation over two pages. -/
def testOverflowing (c : Config) (writeWords : List Word) : M Unit := do
  flashStoreIn c (c.pageSizeWords - 2) writeWords
  let readWords ← flashRead c (c.pageSizeWords - 2) writeWords.length
  Proc.failIf (readWords ≠ writeWords) .internal

/-- False address test. -/
def testFalseAddress (c : Config) (writeWords : List Word) : M Unit := do
  let ret ← Proc.attempt (flashStoreIn c (c.pageSizeWords * c.numPages - 2) writeWords)
  Proc.failIf (ret ≠ .error .invalidParam) .internal
  let ret ← Proc.attempt (flashRead c (c.pageSizeWords * c.numPages - 2) writeWords.length)
  Proc.failIf (ret ≠ .error .invalidParam) .internal

/-- Large data write. -/
def testLarge (c : Config) : M Unit := do
  flashEraseIn c 0 15
  flashStoreIn c largeWordsAddress largeWriteWords
  let readWords ← flashRead c largeWordsAddress largeWordNumber
  Proc.failIf (readWords ≠ largeWriteWords) .internal

/-- The part of `flash_selftest` in which every failure ends the test. `writeWords`
is the uninitialised array of five words. The read to memory outside the RAM, which
is refused, has no effect and is left out. -/
def selftestChecks (c : Config) (writeWords : List Word) : M Unit := do
  testWord c
  testSamePosition c
  testOverflowing c writeWords
  testFalseAddress c writeWords
  testLarge c

/-- The outcome of the first dummy write is not looked at. -/
def flashSelftest (c : Config) (writeWords : List Word) : M Bool := do
  let _ ← Proc.attempt (flashStoreIn c 0 [wordOf 0xABCD1234])
  let checks ← Proc.attempt (selftestChecks c writeWords)
  pure (match checks with
    | .ok _ => true
    | .error _ => false)

variable {c : Config} {s : State}

/-! ## What the test leaves -/

def blankWord : Word := fun _ => 0xFF

theorem wordAnd_blankWord (w : Word) : wordAnd blankWord w = w := by
  funext i
  exact ones_and (w i)

theorem wordAnd_ones (v : Word) : wordAnd v (wordOf 0xFFFFFFFF) = v := by
  have hones : wordOf 0xFFFFFFFF = blankWord := by decide
  funext i
  rw [hones]
  exact and_ones (v i)

theorem erased_inside {cells : Nat → Word} {first stop k : Nat} (h : first ≤ k) (h' : k < stop) :
    erased cells first stop k = blankWord := if_pos ⟨h, h'⟩

theorem erased_outside {cells : Nat → Word} {first stop k : Nat} (h : ¬ (first ≤ k ∧ k < stop)) :
    erased cells first stop k = cells k := if_neg h

theorem programmed_inside {cells : Nat → Word} {wordNum k : Nat} {words : List Word}
    (h : wordNum ≤ k) (h' : k - wordNum < words.length) :
    programmed cells wordNum words k = wordAnd (cells k) words[k - wordNum] := by
  rw [programmed, if_pos h, List.getElem?_eq_getElem h']

theorem programmed_outside {cells : Nat → Word} {wordNum k : Nat} {words : List Word}
    (h : ¬ (wordNum ≤ k ∧ k < wordNum + words.length)) :
    programmed cells wordNum words k = cells k := by
  unfold programmed
  by_cases hk : wordNum ≤ k
  · rw [if_pos hk, List.getElem?_eq_none (by omega)]
  · rw [if_neg hk]

/-- Words programmed over blank cells read back. -/
theorem slice_programmed {cells : Nat → Word} {wordNum : Nat} {words : List Word}
    (h : ∀ k, wordNum ≤ k → k < wordNum + words.length → cells k = blankWord) :
    slice (programmed cells wordNum words) wordNum words.length = words := by
  apply slice_eq_iff.mpr
  intro i hi
  rw [programmed_inside (by omega) (by omega), h _ (by omega) (by omega), wordAnd_blankWord]
  congr 1
  omega

/-- The state after one more flash call that changed the cells. -/
def State.called (s : State) (cells : Nat → Word) : State :=
  { s with cells := cells, calls := s.calls + 1 }

@[simp] theorem State.called_cells (s : State) (cells : Nat → Word) :
    (s.called cells).cells = cells := rfl

@[simp] theorem State.called_lastStored (s : State) (cells : Nat → Word) :
    (s.called cells).lastStored = s.lastStored := rfl

theorem flashStoreIn_ideal (hs : Ideal s) {wordNum : Nat} {words : List Word}
    (hin : wordNum + words.length ≤ c.pageSizeWords * c.numPages) :
    flashStoreIn c wordNum words s = (.ok (), s.called (programmed s.cells wordNum words)) := by
  unfold flashStoreIn
  rw [Proc.failIf_bind_neg (by omega)]
  exact flashStore_ideal hs wordNum words

theorem flashStoreIn_refused {wordNum : Nat} {words : List Word}
    (hout : c.pageSizeWords * c.numPages < wordNum + words.length) :
    flashStoreIn c wordNum words s = (.error .invalidParam, s) :=
  Proc.failIf_bind_pos hout _ _ s

theorem flashEraseIn_ideal (hs : Ideal s) {num : Nat} (hin : num ≤ c.numPages) :
    flashEraseIn c 0 num s = (.ok (), s.called (erased s.cells 0 (num * c.pageSizeWords))) := by
  unfold flashEraseIn
  rw [Proc.failIf_bind_neg (by omega)]
  unfold flashErase
  rw [Nat.zero_mul, Nat.zero_add]
  exact withFault_ideal hs _

theorem flashRead_refused {wordNum n : Nat} (hout : c.pageSizeWords * c.numPages < wordNum + n) :
    flashRead c wordNum n s = (.error .invalidParam, s) := Proc.failIf_bind_pos hout _ _ s

theorem largeWriteWords_length : largeWriteWords.length = 100 := by
  rw [largeWriteWords, List.length_map, List.length_range]
  rfl

/-- `t` is an ideal state with the table of `s` and its cells from word `n` on. -/
structure Touches (n : Nat) (s t : State) : Prop where
  ideal : Ideal t
  lastStored : t.lastStored = s.lastStored
  off : ∀ k, n ≤ k → t.cells k = s.cells k

theorem Touches.trans {n m : Nat} {t u : State} (h : Touches n s t) (h' : Touches m t u)
    (hle : m ≤ n) : Touches n s u where
  ideal := h'.ideal
  lastStored := h'.lastStored.trans h.lastStored
  off k hk := (h'.off k (Nat.le_trans hle hk)).trans (h.off k hk)

theorem testWord_ideal (hs : Ideal s) (hpages : 15 ≤ c.numPages) (hpage : 89 ≤ c.pageSizeWords) :
    ∃ t, testWord c s = (.ok (), t) ∧ Touches (2 * c.pageSizeWords) s t ∧
      t.cells 0 = wordOf 0x1234ABCD ∧
      ∀ k, 0 < k → k < 2 * c.pageSizeWords → t.cells k = blankWord := by
  have htotal : c.pageSizeWords * 15 ≤ c.pageSizeWords * c.numPages :=
    Nat.mul_le_mul_left _ hpages
  obtain ⟨t₁, ht₁⟩ : ∃ t₁, t₁ = s.called (erased s.cells 0 (2 * c.pageSizeWords)) := ⟨_, rfl⟩
  obtain ⟨t₂, ht₂⟩ : ∃ t₂, t₂ = t₁.called (programmed t₁.cells 0 [wordOf 0x1234ABCD]) :=
    ⟨_, rfl⟩
  have hi₁ : Ideal t₁ := ht₁ ▸ hs
  have herase : flashEraseIn c 0 2 s = (.ok (), t₁) := by
    rw [ht₁]
    exact flashEraseIn_ideal hs (by omega)
  have hstore : flashStoreIn c 0 [wordOf 0x1234ABCD] t₁ = (.ok (), t₂) := by
    rw [ht₂]
    exact flashStoreIn_ideal hi₁ (by rw [List.length_singleton]; omega)
  have hblank : ∀ k, k < 2 * c.pageSizeWords → t₁.cells k = blankWord := by
    intro k hk
    rw [ht₁]
    exact erased_inside (Nat.zero_le k) hk
  have hother : ∀ k, 0 < k → t₂.cells k = t₁.cells k := by
    intro k hk
    rw [ht₂, State.called_cells, programmed_outside (by rw [List.length_singleton]; omega)]
  have hread : slice t₂.cells 0 1 = [wordOf 0x1234ABCD] := by
    rw [ht₂, State.called_cells]
    refine slice_programmed fun k _ hk => hblank k ?_
    rw [List.length_singleton] at hk
    omega
  refine ⟨t₂, ?_, ⟨ht₂ ▸ hi₁, ?_, ?_⟩, List.head_eq_of_cons_eq hread, ?_⟩
  · unfold testWord
    rw [Proc.bind_ok herase, Proc.bind_ok hstore, Proc.bind_ok (flashRead_ok (by omega)), hread]
    exact Proc.failIf_neg (by simp) _ _
  · rw [ht₂, ht₁]
    rfl
  · intro k hk
    rw [hother k (by omega), ht₁]
    exact erased_outside (by omega)
  · intro k hk hk'
    rw [hother k hk, hblank k hk']

theorem testSamePosition_ideal (hs : Ideal s) (hpages : 15 ≤ c.numPages)
    (hpage : 89 ≤ c.pageSizeWords) (hword : s.cells 0 = wordOf 0x1234ABCD) :
    ∃ t, testSamePosition c s = (.ok (), t) ∧ Touches 0 s t := by
  have htotal : c.pageSizeWords * 15 ≤ c.pageSizeWords * c.numPages :=
    Nat.mul_le_mul_left _ hpages
  have hcells : programmed s.cells 100 [wordOf 0xFFFFFFFF] = s.cells := by
    funext k
    by_cases hk : 100 ≤ k ∧ k < 100 + [wordOf 0xFFFFFFFF].length
    · rw [List.length_singleton] at hk
      obtain rfl : k = 100 := by omega
      rw [programmed_inside (Nat.le_refl _) (by simp)]
      exact wordAnd_ones _
    · exact programmed_outside hk
  have hstore : flashStoreIn c 100 [wordOf 0xFFFFFFFF] s = (.ok (), _) :=
    flashStoreIn_ideal hs (by rw [List.length_singleton]; omega)
  rw [hcells] at hstore
  refine ⟨s.called s.cells, ?_, ⟨hs, rfl, fun _ _ => rfl⟩⟩
  unfold testSamePosition
  rw [Proc.bind_ok hstore, Proc.bind_ok (flashRead_ok (by omega))]
  apply Proc.failIf_neg
  change ¬ [s.cells 0] = _
  rw [hword]
  decide

theorem testOverflowing_ideal (hs : Ideal s) (hpages : 15 ≤ c.numPages)
    (hpage : 89 ≤ c.pageSizeWords) {writeWords : List Word} (hfive : writeWords.length = 5)
    (hblank : ∀ k, 0 < k → k < 2 * c.pageSizeWords → s.cells k = blankWord) :
    ∃ t, testOverflowing c writeWords s = (.ok (), t) ∧ Touches (2 * c.pageSizeWords) s t := by
  have htotal : c.pageSizeWords * 15 ≤ c.pageSizeWords * c.numPages :=
    Nat.mul_le_mul_left _ hpages
  have hstore : flashStoreIn c (c.pageSizeWords - 2) writeWords s = (.ok (), _) :=
    flashStoreIn_ideal hs (by omega)
  have hread : slice (programmed s.cells (c.pageSizeWords - 2) writeWords) (c.pageSizeWords - 2)
      writeWords.length = writeWords :=
    slice_programmed fun k hk hk' => hblank k (by omega) (by omega)
  refine ⟨s.called (programmed s.cells (c.pageSizeWords - 2) writeWords), ?_, ⟨hs, rfl, ?_⟩⟩
  · unfold testOverflowing
    rw [Proc.bind_ok hstore, Proc.bind_ok (flashRead_ok (by omega))]
    exact Proc.failIf_neg (not_not.mpr hread) _ _
  · intro k hk
    rw [State.called_cells, programmed_outside (by omega)]

theorem testFalseAddress_ok (hpages : 15 ≤ c.numPages) (hpage : 89 ≤ c.pageSizeWords)
    {writeWords : List Word} (hfive : writeWords.length = 5) :
    testFalseAddress c writeWords s = (.ok (), s) := by
  have htotal : c.pageSizeWords * 15 ≤ c.pageSizeWords * c.numPages :=
    Nat.mul_le_mul_left _ hpages
  unfold testFalseAddress
  rw [Proc.attempt_bind_apply, flashStoreIn_refused (by omega), Proc.failIf_bind_neg (by simp),
    Proc.attempt_bind_apply, flashRead_refused (by omega)]
  exact Proc.failIf_neg (by simp) _ _

/-- The cells that the self test leaves: the first fifteen pages are blank except for
the large words. -/
def tested (c : Config) (cells : Nat → Word) : Nat → Word := fun k =>
  if k < 15 * c.pageSizeWords then
    if 1234 ≤ k ∧ k < 1334 then wordOf (k - 1234) else blankWord
  else cells k

theorem testLarge_ideal (hs : Ideal s) (hpages : 15 ≤ c.numPages) (hpage : 89 ≤ c.pageSizeWords) :
    ∃ t, testLarge c s = (.ok (), t) ∧ Ideal t ∧ t.lastStored = s.lastStored ∧
      t.cells = tested c s.cells := by
  have htotal : c.pageSizeWords * 15 ≤ c.pageSizeWords * c.numPages :=
    Nat.mul_le_mul_left _ hpages
  have hlarge := largeWriteWords_length
  obtain ⟨t₁, ht₁⟩ : ∃ t₁, t₁ = s.called (erased s.cells 0 (15 * c.pageSizeWords)) := ⟨_, rfl⟩
  have hi₁ : Ideal t₁ := ht₁ ▸ hs
  have herase : flashEraseIn c 0 15 s = (.ok (), t₁) := by
    rw [ht₁]
    exact flashEraseIn_ideal hs hpages
  have hstore : flashStoreIn c 1234 largeWriteWords t₁ =
      (.ok (), t₁.called (programmed t₁.cells 1234 largeWriteWords)) :=
    flashStoreIn_ideal hi₁ (by omega)
  have hblank : ∀ k, k < 15 * c.pageSizeWords → t₁.cells k = blankWord := by
    intro k hk
    rw [ht₁]
    exact erased_inside (Nat.zero_le k) hk
  have hread : slice (programmed t₁.cells 1234 largeWriteWords) 1234 100 = largeWriteWords := by
    rw [← hlarge]
    exact slice_programmed fun k _ hk => hblank k (by omega)
  refine ⟨t₁.called (programmed t₁.cells 1234 largeWriteWords), ?_, hi₁, ?_, ?_⟩
  · unfold testLarge
    rw [Proc.bind_ok herase]
    unfold largeWordsAddress largeWordNumber
    rw [Proc.bind_ok hstore, Proc.bind_ok (flashRead_ok (by omega))]
    exact Proc.failIf_neg (not_not.mpr hread) _ _
  · rw [State.called_lastStored, ht₁]
    rfl
  · funext k
    rw [State.called_cells]
    unfold tested
    by_cases hk : 1234 ≤ k ∧ k < 1334
    · rw [programmed_inside hk.1 (by omega), if_pos (by omega), if_pos hk, hblank k (by omega),
        wordAnd_blankWord]
      simp [largeWriteWords]
    · rw [programmed_outside (by omega), if_neg hk]
      by_cases hk' : k < 15 * c.pageSizeWords
      · rw [if_pos hk', hblank k hk']
      · rw [if_neg hk', ht₁]
        exact erased_outside (by omega)

/-- On ideal flash of at least fifteen pages that hold the large words the test
passes, and the table of remembered addresses is what it was. -/
theorem flashSelftest_ideal (hs : Ideal s) (hpages : 15 ≤ c.numPages)
    (hpage : 89 ≤ c.pageSizeWords) {writeWords : List Word} (hfive : writeWords.length = 5) :
    ∃ t, flashSelftest c writeWords s = (.ok true, t) ∧ Ideal t ∧ t.lastStored = s.lastStored ∧
      t.cells = tested c s.cells := by
  have htotal : c.pageSizeWords * 15 ≤ c.pageSizeWords * c.numPages :=
    Nat.mul_le_mul_left _ hpages
  have hdummy : flashStoreIn c 0 [wordOf 0xABCD1234] s = (.ok (), _) :=
    flashStoreIn_ideal hs (by rw [List.length_singleton]; omega)
  have h₀ : Touches (2 * c.pageSizeWords) s
      (s.called (programmed s.cells 0 [wordOf 0xABCD1234])) := by
    refine ⟨hs, rfl, fun k hk => ?_⟩
    rw [State.called_cells, programmed_outside (by rw [List.length_singleton]; omega)]
  obtain ⟨t₁, ht₁, h₁, hword, hblank⟩ := testWord_ideal h₀.ideal hpages hpage
  obtain ⟨t₂, ht₂, h₂⟩ := testSamePosition_ideal h₁.ideal hpages hpage hword
  obtain ⟨t₃, ht₃, h₃⟩ := testOverflowing_ideal h₂.ideal hpages hpage hfive fun k hk hk' =>
    (h₂.off k (Nat.zero_le k)).trans (hblank k hk hk')
  obtain ⟨t₄, ht₄, hi₄, htable, hcells⟩ := testLarge_ideal h₃.ideal hpages hpage
  have h₀₃ := ((h₀.trans h₁ (Nat.le_refl _)).trans h₂ (Nat.zero_le _)).trans h₃ (Nat.le_refl _)
  refine ⟨t₄, ?_, hi₄, htable.trans h₀₃.lastStored, ?_⟩
  · unfold flashSelftest
    rw [Proc.attempt_bind_apply, hdummy]
    have hchecks : selftestChecks c writeWords
        (s.called (programmed s.cells 0 [wordOf 0xABCD1234])) = (.ok (), t₄) := by
      unfold selftestChecks
      rw [Proc.bind_ok ht₁, Proc.bind_ok ht₂, Proc.bind_ok ht₃,
        Proc.bind_ok (testFalseAddress_ok hpages hpage hfive), ht₄]
    rw [Proc.attempt_bind_apply, hchecks]
    rfl
  · rw [hcells]
    funext k
    unfold tested
    by_cases hk : k < 15 * c.pageSizeWords
    · rw [if_pos hk, if_pos hk]
    · rw [if_neg hk, if_neg hk, h₀₃.off k (by omega)]

/-! ## Stores around self tests -/

/-- The calls that reach the flash: stores, and self tests with the words that happen
to stand in the uninitialised array. -/
inductive Use where
  | store (call : Call)
  | selftest (writeWords : { words : List Word // words.length = 5 })

def stepUse (c : Config) (s : State) : Use → State
  | .store call => stepStore c s call
  | .selftest writeWords => (flashSelftest c writeWords s).2

/-- A byte of the large words. -/
def Large (x : Nat) : Prop := 4 * 1234 ≤ x ∧ x < 4 * 1334

/-- No remembered end address stands before a byte of the large words on the same
page. -/
def Unremembered (c : Config) (s : State) : Prop :=
  ∀ last : Nat, (last : Int) ∈ s.lastStored →
    ∀ x, last < x → x / getUnitSize c = last / getUnitSize c → ¬ Large x

/-- A store is always harmless, a self test when no remembered address is in its way. -/
def HarmlessUse (c : Config) (s : State) : Use → Prop
  | .store _ => True
  | .selftest _ => Unremembered c s

/-- A store that returns success reads back. -/
def StoresReadBack (c : Config) (s : State) : Prop :=
  ∀ (call : Call) (t : State), store c call.address call.data s = (.ok (), t) →
    read c call.address call.data.length t = (.ok call.data, t)

/-- The invariant over ideal flash and a table of the right size. -/
structure Steady (c : Config) (s : State) : Prop where
  ideal : Ideal s
  consistent : Consistent c s

theorem Steady.readsBack (h : Steady c s) : StoresReadBack c s :=
  fun call t ht => h.consistent.readsBack s.fault call t ht

theorem large_byte_ne {k : Nat} (h : 1234 ≤ k ∧ k < 1334) (i : Fin 4) :
    wordOf (k - 1234) i ≠ 0xFF := by
  have hlt : (k - 1234) / 256 ^ i.val < 100 :=
    Nat.lt_of_le_of_lt (Nat.div_le_self _ _) (by omega)
  intro heq
  have hnat := congrArg UInt8.toNat heq
  rw [wordOf, UInt8.toNat_ofNat', Nat.mod_eq_of_lt (by omega)] at hnat
  have h255 : (0xFF : UInt8).toNat = 255 := rfl
  omega

theorem byteAt_tested_large {cells : Nat → Word} (hpage : 89 ≤ c.pageSizeWords) {x : Nat}
    (hx : Large x) : byteAt (tested c cells) x ≠ 0xFF := by
  unfold Large at hx
  unfold byteAt tested
  rw [if_pos (by omega), if_pos (by omega)]
  exact large_byte_ne (by omega) _

theorem byteAt_tested_other (c : Config) (cells : Nat → Word) {x : Nat} (hx : ¬ Large x) :
    byteAt (tested c cells) x = 0xFF ∨ byteAt (tested c cells) x = byteAt cells x := by
  unfold Large at hx
  unfold byteAt tested
  by_cases hk : x / 4 < 15 * c.pageSizeWords
  · rw [if_pos hk, if_neg (by omega)]
    exact Or.inl rfl
  · rw [if_neg hk]
    exact Or.inr rfl

theorem selftest_steady (hpages : 15 ≤ c.numPages) (hpage : 89 ≤ c.pageSizeWords)
    (hs : Steady c s) (hclear : Unremembered c s)
    (writeWords : { words : List Word // words.length = 5 }) :
    Steady c (stepUse c s (.selftest writeWords)) := by
  obtain ⟨t, ht, hideal, htable, hcells⟩ :=
    flashSelftest_ideal hs.ideal hpages hpage writeWords.property
  change Steady c (flashSelftest c writeWords s).2
  rw [ht]
  refine ⟨hideal, ⟨?_, ?_⟩⟩
  · intro e he
    rw [htable] at he
    rcases hs.consistent.table e he with h | ⟨last, rfl, hlast, hblank⟩
    · exact Or.inl h
    · refine Or.inr ⟨last, rfl, hlast, ?_⟩
      intro x hx hsame
      rw [hcells]
      rcases byteAt_tested_other c s.cells (hclear last he x hx hsame) with h | h
      · exact h
      · rw [h]
        exact hblank x hx hsame
  · rw [htable]
    exact hs.consistent.length

theorem store_steady (hs : Steady c s) (call : Call) : Steady c (stepUse c s (.store call)) := by
  have hharmless : Harmless c s call := fun _ _ hfault => absurd (hs.ideal _) hfault
  refine ⟨?_, stepStore_consistent s call hs.consistent hharmless⟩
  change Ideal (store c call.address call.data s).2
  rcases outcome_of_call hs.consistent call with ⟨e, h⟩ | ⟨-, -, h⟩ | ⟨-, -, hout⟩
  · rw [h]
    exact hs.ideal
  · rw [h]
    exact hs.ideal
  · intro n
    rw [hout.fault]
    exact hs.ideal n

theorem unremembered_of_readsBack (hpages : 15 ≤ c.numPages) (hpage : 89 ≤ c.pageSizeWords)
    (hs : Steady c s) {writeWords : { words : List Word // words.length = 5 }}
    (h : StoresReadBack c (stepUse c s (.selftest writeWords))) : Unremembered c s := by
  obtain ⟨t, ht, hideal, htable, hcells⟩ :=
    flashSelftest_ideal hs.ideal hpages hpage writeWords.property
  change StoresReadBack c (flashSelftest c writeWords s).2 at h
  rw [ht] at h
  intro last hlast x hx hsame hlarge
  have hsize : getSize c < 2 ^ 31 := c.size_lt
  have hin : last < getSize c := by
    rcases hs.consistent.table last hlast with hfree | ⟨a, ha, hlt, -⟩
    · omega
    · omega
  obtain ⟨u, hstore, hread⟩ := stale_entry_misread hideal (htable ▸ hlast)
    (lt_size_of_page hin hsame) hx hsame (by rw [hcells]; exact byteAt_tested_large hpage hlarge)
  have hx' := lt_size_of_page hin hsame
  exact hread (h ⟨x, [0xFF], by omega, by decide⟩ u hstore)

/-- Stores and self tests in any order, on ideal flash of at least fifteen pages that
hold the words the test writes. Every state reached reads back its next successful
store exactly when no self test of the run finds a remembered end address before its
large words on their page. -/
theorem selftest_sound_iff (c : Config) (hpages : 15 ≤ c.numPages) (hpage : 89 ≤ c.pageSizeWords)
    (s : State) (hs : Ideal s) (uses : List Use) :
    Along (stepUse c) (HarmlessUse c) (init c s).2 uses ↔
      ∀ done, done <+: uses → StoresReadBack c (run (stepUse c) (init c s).2 done) := by
  have hsteady : Steady c (init c s).2 := by
    obtain ⟨t, ht, hinv, -⟩ := init_ok (c := c) hs
    have hcons := init_consistent (c := c) s
    rw [ht] at hcons ⊢
    exact ⟨hinv.ideal, hcons⟩
  have hstep : ∀ s a, Steady c s → HarmlessUse c s a → Steady c (stepUse c s a) := by
    intro s a hs ha
    cases a with
    | store call => exact store_steady hs call
    | selftest writeWords => exact selftest_steady hpages hpage hs ha writeWords
  constructor
  · rintro h done ⟨rest, rfl⟩
    have hdone := ((along_append done rest).mp h).1
    exact (run_invariant hstep hsteady hdone).readsBack
  · generalize (init c s).2 = t at hsteady ⊢
    intro h
    induction uses generalizing t with
    | nil => trivial
    | cons a uses ih =>
      have ha : HarmlessUse c t a := by
        cases a with
        | store call => trivial
        | selftest writeWords =>
          exact unremembered_of_readsBack hpages hpage hsteady (h [_] ⟨uses, rfl⟩)
      refine ⟨ha, ih _ (hstep t a hsteady ha) ?_⟩
      rintro done ⟨rest, rfl⟩
      exact h (a :: done) ⟨rest, rfl⟩

/-- Five words for the uninitialised array. -/
def zeroWords : { words : List Word // words.length = 5 } :=
  ⟨List.replicate 5 (wordOf 0), List.length_replicate⟩

theorem selftest_sound_iff_nrf51 :
    StoresReadBack nrf51 (run (stepUse nrf51) (init nrf51 zeroFlash).2
      [.selftest zeroWords, .store ⟨4936, [1, 2, 3], by decide, by decide⟩]) := by
  refine (selftest_sound_iff nrf51 (by decide) (by decide) zeroFlash (fun _ => rfl)
    [.selftest zeroWords, .store ⟨4936, [1, 2, 3], by decide, by decide⟩]).mp ⟨?_, trivial, trivial⟩
    _ ⟨[], rfl⟩
  intro last hlast
  have hfree : (last : Int) = -1 := List.eq_of_mem_replicate hlast
  omega

/-- Three bytes stored at the start of page 4, a self test, and a byte stored where
the test left word 1234: it reads back as zero. -/
theorem selftest_poisons_store :
    ∃ s t u v, init nrf51 zeroFlash = (.ok (), s) ∧
      store nrf51 4096 [1, 2, 3] s = (.ok (), t) ∧
      flashSelftest nrf51 zeroWords t = (.ok true, u) ∧
      store nrf51 4936 [0xAB] u = (.ok (), v) ∧ read nrf51 4936 1 v = (.ok [0], v) := by
  refine ⟨_, _, _, _, rfl, rfl, Proc.eq_of_fst (by decide +kernel),
    Proc.eq_of_fst (by decide +kernel), ?_⟩
  rw [read_ok (by decide)]
  exact congrArg (fun l => (Except.ok l, _)) (by decide +kernel)

end OpenBadge.Storage1
