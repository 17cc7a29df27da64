import Mathlib.Algebra.Group.Nat.Defs
import OpenBadge.Lib.Proc
import OpenBadge.RetCode

/-!
# eeprom_lib.c and storage2_lib.c

The EEPROM behind the SPI interface. A store sends one transmission for each page it
touches and waits each time until the status register of the EEPROM says that it is done;
a read fetches page by page. The buffers of the callers are not null, and `inRam` says
whether a buffer lies in the RAM.
-/

namespace OpenBadge.Eeprom

open OpenBadge.Lib

/-- The errors of `spi_transmit` and `spi_transmit_receive`. -/
inductive SpiError where
  | busy
  | invalidAddr
  deriving DecidableEq, Repr

/-- The SPI interface with the EEPROM behind it. `polls` is the number of times that a waiting
loop asks for the operation before its timeout. -/
structure Bus where
  State : Type
  transmit : List UInt8 → Proc State SpiError Unit
  transmitReceive : List UInt8 → Nat → Proc State SpiError (List UInt8)
  polls : State → Nat

/-- `eeprom_operation_t` -/
inductive Operation where
  | none
  | store
  | read
  deriving DecidableEq, Repr

structure State (B : Bus) where
  spi : B.State
  operation : Operation

def cmdWren : UInt8 := 0b00000110

def cmdRdsr : UInt8 := 0b00000101

def cmdWrite : UInt8 := 0b00000010

def cmdRead : UInt8 := 0b00000011

def pageSize : Nat := 128

def eepromSize : Nat := 1024 * 256

variable {B : Bus} {α : Type}

abbrev M (B : Bus) := Proc (State B) RetCode

/-- A call of the SPI library, with its error as the code of the caller. -/
def spi (x : Proc B.State SpiError α) (code : SpiError → RetCode) : M B α := fun s =>
  match x s.spi with
  | (.ok a, t) => (.ok a, { s with spi := t })
  | (.error e, t) => (.error (code e), { s with spi := t })

/-- Every error of the SPI library is returned as `NRF_ERROR_BUSY`. -/
def toBusy (_ : SpiError) : RetCode := .busy

/-- `if(ret == NRF_ERROR_INVALID_ADDR) ret = NRF_ERROR_INVALID_PARAM;` -/
def toInvalidParam : SpiError → RetCode
  | .busy => .busy
  | .invalidAddr => .invalidParam

def setOperation (operation : Operation) : M B Unit := Proc.modify fun s => { s with operation }

/-- `if(ret != NRF_SUCCESS) { eeprom_operation = EEPROM_NO_OPERATION; return ret; }` -/
def resetOnError (x : M B α) : M B α := fun s =>
  match x s with
  | (.ok a, t) => (.ok a, t)
  | (.error e, t) => (.error e, { t with operation := .none })

/-- `eeprom_read_status`; what has not been received stays 1. -/
def eepromReadStatus : M B UInt8 := do
  let rx ← spi (B.transmitReceive [cmdRdsr] 2) toBusy
  pure (rx.getD 1 0x01)

def eepromIsBusy : M B Bool := do
  match ← Proc.attempt eepromReadStatus with
  | .error _ => pure true
  | .ok status => pure (status &&& 0x01 ≠ 0)

def eepromGetOperation : M B Operation := do
  let busy ← eepromIsBusy
  Proc.modify fun s => { s with
    operation := if busy then if s.operation = .none then .store else s.operation else .none }
  let s ← Proc.get
  pure s.operation

/-- `while(eeprom_get_operation() != EEPROM_NO_OPERATION && .. < end_ms);` -/
def pollLoop : Nat → M B Unit
  | 0 => do
    let _ ← eepromGetOperation
    pure ()
  | n + 1 => do
    let operation ← eepromGetOperation
    Proc.when (operation ≠ .none) (pollLoop n)

/-- The end of an operation is awaited until the timeout. -/
def awaitOperation : M B Unit := do
  let s ← Proc.get
  pollLoop (B.polls s.spi)
  let operation ← eepromGetOperation
  Proc.when (operation ≠ .none) do
    setOperation .none
    Proc.fail .timeout

def eepromWriteEnable : M B Unit := do
  spi (B.transmit [cmdWren]) toBusy
  awaitOperation

/-- `{CMD, address24_16, address15_8, address7_0}` -/
def header (cmd : UInt8) (address : Nat) : List UInt8 :=
  [cmd, UInt8.ofNat (address / 2 ^ 16), UInt8.ofNat (address / 2 ^ 8), UInt8.ofNat address]

/-- `step_len`: up to the next page. -/
def stepLen (tmpAddress length : Nat) : Nat :=
  let nextPageAddress := (tmpAddress / pageSize + 1) * pageSize % 2 ^ 32
  min length ((nextPageAddress + 2 ^ 32 - tmpAddress) % 2 ^ 32)

theorem stepLen_pos (a : Nat) {length : Nat} (hl : 0 < length) :
    0 < stepLen (a % 2 ^ 32) length := by
  unfold stepLen pageSize
  simp only [Nat.reducePow]
  omega

/-- The loop of `eeprom_store` over the bytes that are left. -/
def storeLoop (address addressOffset : Nat) (txData : List UInt8) : M B Unit :=
  if h : txData = [] then pure () else
    let tmpAddress := (address + addressOffset) % 2 ^ 32
    let step := stepLen tmpAddress txData.length
    do
      setOperation .store
      resetOnError eepromWriteEnable
      resetOnError (spi (B.transmit (header cmdWrite tmpAddress ++ txData.take step)) toInvalidParam)
      awaitOperation
      storeLoop address (addressOffset + step) (txData.drop step)
termination_by txData.length
decreasing_by
  have hl := List.length_pos_iff.mpr h
  have hs := stepLen_pos (address + addressOffset) hl
  rw [List.length_drop]
  omega

def eepromStore (inRam : Bool) (address : Nat) (txData : List UInt8) : M B Unit := do
  Proc.failIf (eepromSize < (address + txData.length) % 2 ^ 32 ∨ inRam = false) .invalidParam
  let operation ← eepromGetOperation
  Proc.failIf (operation ≠ .none) .busy
  storeLoop address 0 txData

/-- The loop of `eeprom_read`. -/
def readLoop (address addressOffset length : Nat) : M B (List UInt8) :=
  if h : length = 0 then pure [] else
    let tmpAddress := (address + addressOffset) % 2 ^ 32
    let step := stepLen tmpAddress length
    do
      setOperation .read
      let rx ← resetOnError
        (spi (B.transmitReceive (header cmdRead tmpAddress) (4 + step)) toInvalidParam)
      awaitOperation
      let rest ← readLoop address (addressOffset + step) (length - step)
      pure ((rx.drop 4).take step ++ rest)
termination_by length
decreasing_by
  have hs := stepLen_pos (address + addressOffset) (Nat.pos_of_ne_zero h)
  omega

def eepromRead (inRam : Bool) (address length : Nat) : M B (List UInt8) := do
  Proc.failIf (eepromSize < (address + length) % 2 ^ 32 ∨ inRam = false) .invalidParam
  let operation ← eepromGetOperation
  Proc.failIf (operation ≠ .none) .busy
  readLoop address 0 length

/-! ## storage2_lib.c -/

def storage2GetSize : Nat := eepromSize

def storage2GetUnitSize : Nat := 1

def storage2Store (inRam : Bool) (address : Nat) (data : List UInt8) : M B Unit := do
  Proc.failIf (storage2GetSize < (address + data.length) % 2 ^ 32) .invalidParam
  Proc.when (data.length ≠ 0) (eepromStore inRam address data)

def storage2Read (inRam : Bool) (address length : Nat) : M B (List UInt8) := do
  Proc.failIf (storage2GetSize < (address + length) % 2 ^ 32) .invalidParam
  Proc.branch (length = 0) (pure []) (eepromRead inRam address length)

end OpenBadge.Eeprom
