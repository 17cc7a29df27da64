import Mathlib.Logic.Function.Basic
import OpenBadge.Lib.Proc
import OpenBadge.RetCode

/-!
# accel_lib.c

The driver of the LIS2DH12. The sensor is a register file with the level of its
INT1 pin; an SPI access may fail and then does nothing. The functions stand under
their own names without the prefix `accel`.
-/

namespace OpenBadge.Accel

open OpenBadge.Lib

/-- The registers the driver uses. -/
inductive Register where
  | whoAmI
  | ctrlReg1
  | ctrlReg2
  | ctrlReg3
  | ctrlReg4
  | ctrlReg5
  | reference
  | fifoCtrlReg
  | fifoSrcReg
  | int1Cfg
  | int1Src
  | int1Ths
  | int1Duration
  deriving DecidableEq, Repr

inductive Datarate where
  | hz1
  | hz10
  | hz25
  | hz50
  | hz100
  | hz200
  | hz400
  | hz1600
  | hz1344Hz5376
  deriving DecidableEq, Repr

def Datarate.code : Datarate → UInt8
  | .hz1 => 1
  | .hz10 => 2
  | .hz25 => 3
  | .hz50 => 4
  | .hz100 => 5
  | .hz200 => 6
  | .hz400 => 7
  | .hz1600 => 8
  | .hz1344Hz5376 => 9

inductive OperatingMode where
  | powerDown
  | lowPower
  | normal
  | highResolution
  deriving DecidableEq, Repr

inductive FullScale where
  | g2
  | g4
  | g8
  | g16
  deriving DecidableEq, Repr

def FullScale.code : FullScale → UInt8
  | .g2 => 0
  | .g4 => 1
  | .g8 => 2
  | .g16 => 3

inductive HPFilter where
  | disable
  | enable
  deriving DecidableEq, Repr

inductive Fifo where
  | disable
  | streamEnable
  deriving DecidableEq, Repr

inductive InterruptEvent where
  | noInterrupt
  | motionInterrupt
  | singleTapInterrupt
  | doubleTapInterrupt
  deriving DecidableEq, Repr

/-- The functions that are registered as `accel_interrupt_handler_t`. -/
inductive Handler where
  | samplingAccelerometerInterruptCallback
  | selftestInterruptHandler
  deriving DecidableEq, Repr

/-- What `spi_transmit_receive` answers besides success. -/
inductive SpiError where
  | busy
  | invalidAddr
  deriving DecidableEq, Repr

/-- The sensor, the outcomes of the SPI accesses still to come, and the static
variables of the driver. -/
structure State where
  registers : Register → UInt8
  /-- The bytes a read of the output registers yields. -/
  out : Nat → UInt8
  /-- INT1 is high: it fired and was not reset since. -/
  latched : Bool
  spi : Nat → Option SpiError
  initDone : Bool
  datarate : Datarate
  fullScale : FullScale
  operatingMode : OperatingMode
  hpFilter : HPFilter
  interruptEvent : InterruptEvent
  interruptHandler : Option Handler
  thresholdMg : UInt16
  minimalDurationMs : UInt16
  selftestEventCounter : Nat

abbrev M := Proc State RetCode

/-- One SPI access. -/
def spiTransmitReceive : M Unit := fun s =>
  let t := { s with spi := fun i => s.spi (i + 1) }
  match s.spi 0 with
  | none => (.ok (), t)
  | some .busy => (.error .busy, t)
  | some .invalidAddr => (.error .internal, t)

/-- Reading `INT1_SRC` resets a latched interrupt. -/
def readReg (addr : Register) : M UInt8 := do
  spiTransmitReceive
  let s ← Proc.get
  Proc.modify fun s => if addr = .int1Src then { s with latched := false } else s
  pure (s.registers addr)

def writeReg (addr : Register) (value : UInt8) : M Unit := do
  spiTransmitReceive
  Proc.modify fun s => { s with registers := Function.update s.registers addr value }

/-- The bits of `clear` are cleared, then those of `set` are set. -/
def changeReg (addr : Register) (clear set : UInt8) : M Unit := do
  let value ← readReg addr
  writeReg addr ((value &&& ~~~clear) ||| set)

/-- `shift_factor` and `sensitivity`. -/
def getShiftFactorAndSensitivity : OperatingMode → FullScale → Int16 × Int16
  | .lowPower, .g2 => (8, 16)
  | .lowPower, .g4 => (8, 32)
  | .lowPower, .g8 => (8, 64)
  | .lowPower, .g16 => (8, 192)
  | .normal, .g2 => (6, 4)
  | .normal, .g4 => (6, 8)
  | .normal, .g8 => (6, 16)
  | .normal, .g16 => (6, 48)
  | .highResolution, .g2 => (4, 1)
  | .highResolution, .g4 => (4, 2)
  | .highResolution, .g8 => (4, 4)
  | .highResolution, .g16 => (4, 12)
  | .powerDown, _ => (0, 0)

def getThresholdMgPerLsb : FullScale → UInt16
  | .g2 => 16
  | .g4 => 32
  | .g8 => 62
  | .g16 => 186

def getDatarateAsNumber : Datarate → OperatingMode → UInt16
  | .hz1, _ => 1
  | .hz10, _ => 10
  | .hz25, _ => 25
  | .hz50, _ => 50
  | .hz100, _ => 100
  | .hz200, _ => 200
  | .hz400, _ => 400
  | .hz1600, _ => 1600
  | .hz1344Hz5376, .lowPower => 5376
  | .hz1344Hz5376, _ => 1344

def setDatarate (datarate : Datarate) : M Unit := do
  changeReg .ctrlReg1 0xF0 ((datarate.code <<< 4) &&& 0xF0)
  Proc.modify fun s => { s with datarate }

/-- The new values of `CTRL_REG1` and `CTRL_REG4`. -/
def OperatingMode.regs : OperatingMode → UInt8 → UInt8 → UInt8 × UInt8
  | .powerDown, reg1, reg4 => (reg1 &&& ~~~0x08 &&& ~~~0xF0, reg4 &&& ~~~0x08)
  | .lowPower, reg1, reg4 => (reg1 ||| 0x08, reg4 &&& ~~~0x08)
  | .normal, reg1, reg4 => (reg1 &&& ~~~0x08, reg4 &&& ~~~0x08)
  | .highResolution, reg1, reg4 => (reg1 &&& ~~~0x08, reg4 ||| 0x08)

/-- The data rate is always set before, to restore it after a power-down. -/
def setOperatingMode (operatingMode : OperatingMode) : M Unit := do
  let s ← Proc.get
  setDatarate s.datarate
  let reg1 ← readReg .ctrlReg1
  let reg4 ← readReg .ctrlReg4
  writeReg .ctrlReg1 (operatingMode.regs reg1 reg4).1
  writeReg .ctrlReg4 ((operatingMode.regs reg1 reg4).2 ||| 0x80)
  Proc.modify fun s => { s with operatingMode }

/-- `axis` has the enable bits of X, Y and Z and above them their disable bits. -/
def setAxis (axis : UInt8) : M Unit := do
  let value ← readReg .ctrlReg1
  let enabled : UInt8 := value ||| (axis &&& 0x07)
  writeReg .ctrlReg1 (enabled &&& ~~~(axis >>> 3 &&& (0x07 : UInt8)))

def setFullScale (fullScale : FullScale) : M Unit := do
  changeReg .ctrlReg4 0x30 ((fullScale.code <<< 4) &&& 0xF0)
  Proc.modify fun s => { s with fullScale }

def setHPFilter (hpFilter : HPFilter) : M Unit := do
  match hpFilter with
  | .enable => do
    changeReg .ctrlReg2 0xF0 0x08
    let _ ← readReg .reference
  | .disable => changeReg .ctrlReg2 0x08 0
  Proc.modify fun s => { s with hpFilter }

def setInterruptHandler (handler : Option Handler) : M Unit :=
  Proc.modify fun s => { s with interruptHandler := handler }

/-- The value for `INT1_THS`. -/
def threshold (fullScale : FullScale) (thresholdMg : UInt16) : UInt8 :=
  let threshold := thresholdMg / getThresholdMgPerLsb fullScale
  (if 0x7F < threshold then 0x7F else threshold).toUInt8

/-- The value for `INT1_DURATION`. -/
def duration (datarate : Datarate) (operatingMode : OperatingMode)
    (minimalDurationMs : UInt16) : UInt8 :=
  let duration := (((getDatarateAsNumber datarate operatingMode).toUInt32 *
    minimalDurationMs.toUInt32) / 1000).toUInt16
  (if 0x7F < duration then 0x7F else duration).toUInt8

def setMotionInterruptParameters (thresholdMg minimalDurationMs : UInt16) : M Unit := do
  let s ← Proc.get
  writeReg .int1Ths (threshold s.fullScale thresholdMg)
  writeReg .int1Duration (duration s.datarate s.operatingMode minimalDurationMs)
  Proc.modify fun s => { s with thresholdMg, minimalDurationMs }

def resetInterrupt : M Unit := do
  let _ ← readReg .int1Src

/-- The tap interrupts are not implemented. -/
def setInterrupt (event : InterruptEvent) : M Unit := do
  changeReg .ctrlReg2 0x01 0
  writeReg .ctrlReg3 0
  changeReg .ctrlReg5 0x08 0
  writeReg .int1Ths 0
  writeReg .int1Duration 0
  writeReg .int1Cfg 0
  match event with
  | .motionInterrupt => do
    changeReg .ctrlReg2 0xF0 0x01
    writeReg .ctrlReg3 0x40
    changeReg .ctrlReg5 0 0x08
    let s ← Proc.get
    setMotionInterruptParameters s.thresholdMg s.minimalDurationMs
    let _ ← readReg .reference
    writeReg .int1Cfg 0x2A
    resetInterrupt
  | .noInterrupt | .singleTapInterrupt | .doubleTapInterrupt => pure ()
  Proc.modify fun s => { s with interruptEvent := event }

def setFifo (fifo : Fifo) : M Unit :=
  match fifo with
  | .streamEnable => do
    changeReg .ctrlReg5 0 0x40
    changeReg .fifoCtrlReg 0xC0 0x80
  | .disable => do
    changeReg .ctrlReg5 0x40 0
    changeReg .fifoCtrlReg 0xC0 0

/-- INT1 can go high: the interrupt is enabled on the pin, which is low. -/
def State.CanFire (s : State) : Prop :=
  s.latched = false ∧ s.registers .int1Cfg ≠ 0 ∧ s.registers .ctrlReg3 &&& 0x40 ≠ 0

instance (s : State) : Decidable s.CanFire := inferInstanceAs (Decidable (_ ∧ _ ∧ _))

/-- The handler that `accel_int1_event_handler` calls. -/
def State.calledHandler (s : State) : Option Handler :=
  if s.interruptEvent ≠ .noInterrupt then s.interruptHandler else none

/-- One coordinate of a sample, out of its two bytes. -/
def convert (shiftFactor sensitivity : Int16) (low high : UInt8) : Int16 :=
  (((high.toUInt16 <<< 8) ||| low.toUInt16).toInt16 >>> shiftFactor) * sensitivity

/-- The samples as triples X, Y, Z. -/
def readAcceleration (maxNumSamples : Nat) : M (List (Int16 × Int16 × Int16)) := do
  let fifoSrcReg ← readReg .fifoSrcReg
  let numSamples := min (min ((fifoSrcReg &&& 0x1F).toNat + 1) 32) maxNumSamples
  spiTransmitReceive
  let s ← Proc.get
  let (shiftFactor, sensitivity) := getShiftFactorAndSensitivity s.operatingMode s.fullScale
  let coordinate (i : Nat) := convert shiftFactor sensitivity (s.out i) (s.out (i + 1))
  pure ((List.range numSamples).map fun i =>
    (coordinate (6 * i), coordinate (6 * i + 2), coordinate (6 * i + 4)))

/-- The second half of `accel_init`: the default configuration. -/
def setDefaults : M Unit := do
  Proc.orFail (setAxis 0x07) .internal
  Proc.modify fun s => { s with fullScale := .g2 }
  Proc.orFail (setFullScale .g2) .internal
  Proc.modify fun s => { s with datarate := .hz10 }
  Proc.orFail (setDatarate .hz10) .internal
  Proc.orFail (setOperatingMode .powerDown) .internal
  Proc.orFail (setFifo .disable) .internal
  Proc.modify fun s => { s with hpFilter := .disable }
  Proc.orFail (setHPFilter .disable) .internal
  Proc.modify fun s => { s with thresholdMg := 250, minimalDurationMs := 0 }
  let _ ← Proc.attempt (setMotionInterruptParameters 250 0)
  Proc.modify fun s => { s with interruptHandler := none, interruptEvent := .noInterrupt }
  Proc.orFail (setInterrupt .noInterrupt) .internal

/-- `accel_init` without the set-up of the SPI module and the pin. -/
def init : M Unit := do
  let s ← Proc.get
  Proc.when (s.initDone = false) do
    let value ← readReg .whoAmI
    Proc.failIf (value ≠ 0x33) .internal
    setDefaults
  Proc.modify fun s => { s with initDone := true }

/-- Run `x` and note whether it failed. -/
def failed {α : Type} (x : M α) : M Bool := do
  match ← Proc.attempt x with
  | .ok _ => pure false
  | .error _ => pure true

/-- The wait for an interrupt; `fires` says whether the sensor meets a motion. -/
def awaitInterrupt (fires : Bool) : M Unit :=
  Proc.modify fun s =>
    if fires ∧ s.CanFire then
      { s with
        latched := true
        selftestEventCounter :=
          if s.calledHandler = some .selftestInterruptHandler then 1 else 0 }
    else { s with selftestEventCounter := 0 }

/-- The former configuration is restored in the order of the code. -/
def selftest (fires : Bool) : M Bool := do
  let former ← Proc.get
  let f1 ← failed (setOperatingMode .lowPower)
  let f2 ← failed (setDatarate .hz100)
  let f3 ← failed (setFullScale .g2)
  let f4 ← failed (setHPFilter .disable)
  let f5 ← failed (setMotionInterruptParameters 250 20)
  setInterruptHandler (some .selftestInterruptHandler)
  let f6 ← failed (setInterrupt .motionInterrupt)
  let f7 ← failed resetInterrupt
  awaitInterrupt fires
  let samples ← Proc.attempt (readAcceleration 32)
  let f8 ← failed resetInterrupt
  let f9 ← failed (setOperatingMode former.operatingMode)
  let f10 ← failed (setDatarate former.datarate)
  let f11 ← failed (setFullScale former.fullScale)
  let f12 ← failed (setHPFilter former.hpFilter)
  let f13 ← failed (setMotionInterruptParameters former.thresholdMg former.minimalDurationMs)
  setInterruptHandler former.interruptHandler
  let f14 ← failed (setInterrupt former.interruptEvent)
  let s ← Proc.get
  match samples with
  | .error _ => pure false
  | .ok samples =>
    pure (!(f1 || f2 || f3 || f4 || f5 || f6 || f7 || f8 || f9 || f10 || f11 || f12 || f13 || f14)
      && s.selftestEventCounter != 0 && samples.head?.getD (0, 0, 0) != (0, 0, 0))

end OpenBadge.Accel
