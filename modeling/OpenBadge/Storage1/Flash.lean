import Mathlib.Algebra.Group.Nat.Defs
import OpenBadge.Lib.Proc
import OpenBadge.Lib.Bytes
import OpenBadge.RetCode

/-!
# The flash under storage1

`flash_lib.c` as its client sees it. A word is kept as its four bytes in address
order, the order in which `memcpy` moves them between a byte buffer and a word,
so the byte order of the processor does not appear. Storing can only clear bits;
erasing sets whole pages to ones. `fault` says which `flash_erase` and
`flash_store` calls fail, and with which code; a failed call has no effect.
-/

namespace OpenBadge.Storage1

open OpenBadge.Lib

abbrev Word := Fin 4 → UInt8

/-- `FLASH_PAGE_SIZE_WORDS`, `FLASH_NUM_PAGES` and
`STORAGE1_LAST_STORED_ELEMENT_ADDRESSES_SIZE`. Byte addresses are compared as
`int32_t`, so the flash is smaller than `2^31` bytes. -/
structure Config where
  pageSizeWords : Nat
  numPages : Nat
  lastStoredSize : Nat
  pageSizeWords_pos : 0 < pageSizeWords
  numPages_pos : 0 < numPages
  lastStoredSize_pos : 0 < lastStoredSize
  size_lt : pageSizeWords * numPages * 4 < 2 ^ 31

/-- The configuration of the nRF51 board with fifteen remembered addresses. -/
def nrf51 : Config where
  pageSizeWords := 256
  numPages := 30
  lastStoredSize := 15
  pageSizeWords_pos := by decide
  numPages_pos := by decide
  lastStoredSize_pos := by decide
  size_lt := by decide

structure State where
  cells : Nat → Word
  fault : Nat → Option RetCode
  calls : Nat
  lastStored : List Int
  initDone : Bool

abbrev M := Proc State RetCode

/-- The byte at a byte address of the flash. -/
def byteAt (cells : Nat → Word) (x : Nat) : UInt8 := cells (x / 4) ⟨x % 4, Nat.mod_lt _ (by decide)⟩

def wordAnd (v w : Word) : Word := fun i => v i &&& w i

/-- The cells after `words` were programmed at `wordNum`. -/
def programmed (cells : Nat → Word) (wordNum : Nat) (words : List Word) : Nat → Word := fun k =>
  if wordNum ≤ k then
    match words[k - wordNum]? with
    | some w => wordAnd (cells k) w
    | none => cells k
  else cells k

/-- The cells after the words from `first` up to `stop` were erased. -/
def erased (cells : Nat → Word) (first stop : Nat) : Nat → Word := fun k =>
  if first ≤ k ∧ k < stop then fun _ => 0xFF else cells k

def withFault (effect : State → State) : M Unit := fun s =>
  match s.fault s.calls with
  | some e => (.error e, { s with calls := s.calls + 1 })
  | none => (.ok (), effect { s with calls := s.calls + 1 })

def flashStore (wordNum : Nat) (words : List Word) : M Unit :=
  withFault fun s => { s with cells := programmed s.cells wordNum words }

def flashErase (c : Config) (pageNum numPages : Nat) : M Unit :=
  let first := pageNum * c.pageSizeWords
  let stop := (pageNum + numPages) * c.pageSizeWords
  withFault fun s => { s with cells := erased s.cells first stop }

def flashRead (c : Config) (wordNum lengthWords : Nat) : M (List Word) := do
  Proc.failIf (c.pageSizeWords * c.numPages < wordNum + lengthWords) .invalidParam
  let s ← Proc.get
  pure (slice s.cells wordNum lengthWords)

def flashInit : M Unit := withFault id

/-- Ideal flash: no call fails. -/
def Ideal (s : State) : Prop := ∀ n, s.fault n = none

theorem withFault_ideal {s : State} (h : Ideal s) (effect : State → State) :
    withFault effect s = (.ok (), effect { s with calls := s.calls + 1 }) := by
  simp [withFault, h s.calls]

theorem and_ones (b : UInt8) : b &&& 0xFF = b := by
  apply UInt8.toNat_inj.mp
  have hb := b.toNat_lt
  rw [UInt8.toNat_and, show (0xFF : UInt8).toNat = 2 ^ 8 - 1 from rfl,
    Nat.and_two_pow_sub_one_eq_mod]
  exact Nat.mod_eq_of_lt hb

/-- The byte that programming `words` at `wordNum` offers to address `x`: ones
outside the programmed words. -/
def offered (wordNum : Nat) (words : List Word) (x : Nat) : UInt8 :=
  if wordNum ≤ x / 4 then
    match words[x / 4 - wordNum]? with
    | some w => w ⟨x % 4, Nat.mod_lt _ (by decide)⟩
    | none => 0xFF
  else 0xFF

theorem byteAt_programmed (cells : Nat → Word) (wordNum : Nat) (words : List Word) (x : Nat) :
    byteAt (programmed cells wordNum words) x = byteAt cells x &&& offered wordNum words x := by
  unfold byteAt programmed offered
  by_cases h : wordNum ≤ x / 4
  · rw [if_pos h, if_pos h]
    cases words[x / 4 - wordNum]? with
    | none => exact (and_ones _).symm
    | some w => rfl
  · rw [if_neg h, if_neg h, and_ones]

theorem byteAt_erased (cells : Nat → Word) (first stop x : Nat) :
    byteAt (erased cells first stop) x =
      if 4 * first ≤ x ∧ x < 4 * stop then 0xFF else byteAt cells x := by
  unfold byteAt erased
  by_cases h : first ≤ x / 4 ∧ x / 4 < stop
  · rw [if_pos h, if_pos (by omega)]
  · rw [if_neg h, if_neg (by omega)]

end OpenBadge.Storage1
