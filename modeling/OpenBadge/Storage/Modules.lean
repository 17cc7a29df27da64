import OpenBadge.Storage.Split
import OpenBadge.Storage1.Model
import OpenBadge.Storage2.Eeprom

/-!
# The storage modules of the badge

`storage_lib` over the EEPROM and, behind it, the flash.
-/

namespace OpenBadge.StorageLib

open OpenBadge.Lib OpenBadge.Storage OpenBadge.Storage1 OpenBadge.Eeprom

/-! ## flash_read -/

/-- `flash_read`; `inRam` says whether the buffer lies in the RAM. -/
def flashReadWords (c : Config) (inRam : Bool) (wordNum lengthWords : Nat) :
    Storage1.M (List Word) := do
  Proc.failIf (inRam = false) .invalidParam
  Proc.failIf (c.pageSizeWords * c.numPages < (wordNum + lengthWords) % 2 ^ 32) .invalidParam
  let s ← Proc.get
  pure ((List.range lengthWords).map fun i => s.cells ((wordNum + i) % 2 ^ 32))

/-! ## Clearing -/

/-- `bytes_per_store_operation` -/
def bytesPerStoreOperation : Nat := 128

/-- The loop of `storage1_clear` and `storage2_clear`. -/
def clearLoop {σ : Type} (store : Nat → List UInt8 → Proc σ RetCode Unit) (clearedByte : UInt8)
    (address addressOffset length : Nat) : Proc σ RetCode Unit :=
  if h : length = 0 then pure ()
  else if bytesPerStoreOperation ≤ length then do
    store ((address + addressOffset) % 2 ^ 32) (List.replicate bytesPerStoreOperation clearedByte)
    clearLoop store clearedByte address (addressOffset + bytesPerStoreOperation)
      (length - bytesPerStoreOperation)
  else store ((address + addressOffset) % 2 ^ 32) (List.replicate length clearedByte)
termination_by length
decreasing_by
  unfold bytesPerStoreOperation
  omega

def storage1Clear (c : Config) (address length : Nat) : Storage1.M Unit :=
  clearLoop (Storage1.store c) 0xFF address 0 length

def storage2Clear {B : Bus} (address length : Nat) : Eeprom.M B Unit :=
  clearLoop (storage2Store true) 0xFF address 0 length

/-! ## The tables -/

/-- What the storage modules work on. -/
structure Stack (B : Bus) where
  eeprom : Eeprom.State B
  flash : Storage1.State

def onEeprom {B : Bus} {α : Type} (x : Eeprom.M B α) : Proc (Stack B) RetCode α :=
  Proc.within Stack.eeprom (fun s eeprom => { s with eeprom }) x

def onFlash {B : Bus} {α : Type} (x : Storage1.M α) : Proc (Stack B) RetCode α :=
  Proc.within Stack.flash (fun s flash => { s with flash }) x

/-- `storage_get_size_functions`, `storage_store_functions`, `storage_read_functions` and
`storage_clear_functions`, for a buffer that is in the RAM or not. -/
def storageFunctions (c : Config) (B : Bus) (inRam : Bool) : List (StorageFunctions (Stack B)) :=
  [{ size := storage2GetSize
     store := fun address data => onEeprom (storage2Store inRam address data)
     read := fun address length => onEeprom (storage2Read inRam address length)
     clear := fun address length => onEeprom (storage2Clear address length) },
   { size := Storage1.getSize c
     store := fun address data => onFlash (Storage1.store c address data)
     read := fun address length => onFlash (Storage1.read c address length)
     clear := fun address length => onFlash (storage1Clear c address length) }]

theorem getUnitSize_pos (c : Config) : 0 < Storage1.getUnitSize c :=
  Nat.mul_pos c.pageSizeWords_pos (by decide)

theorem getUnitSize_dvd (c : Config) : Storage1.getUnitSize c ∣ Storage1.getSize c := by
  unfold Storage1.getUnitSize Storage1.getSize
  exact ⟨c.numPages, by rw [Nat.mul_right_comm]⟩

/-- `storage_sizes` and `storage_get_unit_size_functions`. -/
def unitModules (c : Config) : List StorageModule :=
  [⟨storage2GetSize, storage2GetUnitSize, by decide, by decide⟩,
    ⟨Storage1.getSize c, Storage1.getUnitSize c, getUnitSize_pos c, getUnitSize_dvd c⟩]

/-- The size of the storage. -/
def storageSize (c : Config) : Nat := eepromSize + Storage1.getSize c

theorem storageSize_lt (c : Config) : storageSize c < 2 ^ 32 := by
  have h : Storage1.getSize c < 2 ^ 31 := c.size_lt
  unfold storageSize eepromSize
  simp only [Nat.reducePow] at h ⊢
  omega

theorem storageGetSize_stack (c : Config) (B : Bus) (inRam : Bool) :
    storageGetSize (storageFunctions c B inRam) = storageSize c :=
  Nat.mod_eq_of_lt (storageSize_lt c)

theorem totalSize_stack (c : Config) : totalSize (unitModules c) = storageSize c := rfl

end OpenBadge.StorageLib
