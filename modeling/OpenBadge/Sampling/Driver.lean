import OpenBadge.Lib.Simulation
import OpenBadge.Sampling.Accel

/-!
# What the driver functions do to the sensor

A function fails exactly when one of its SPI accesses does. When they all succeed,
the driver works on a sensor of seven settings instead of registers and bits, and
every function of the driver simulates one of that sensor.
-/

namespace OpenBadge.Accel

open OpenBadge.Lib

/-! ## Counting SPI accesses -/

/-- `x` makes `n` SPI accesses and fails if and only if one of them does. -/
def Takes {α : Type} (n : Nat) (x : M α) : Prop :=
  ∀ s, ((∀ i < n, s.spi i = none) → ∃ a t, x s = (.ok a, t) ∧ ∀ i, t.spi i = s.spi (n + i)) ∧
    (¬ (∀ i < n, s.spi i = none) → ∃ e t, x s = (.error e, t))

section Takes

variable {α β : Type} {n m : Nat} {x : M α}

theorem Takes.pure (a : α) : Takes 0 (pure a : M α) := fun s =>
  ⟨fun _ => ⟨a, s, rfl, fun i => by rw [Nat.zero_add]⟩,
    fun h => absurd (fun i hi => absurd hi (Nat.not_lt_zero i)) h⟩

theorem Takes.modify {f : State → State} (h : ∀ s, (f s).spi = s.spi) :
    Takes 0 (Proc.modify f : M Unit) := fun s =>
  ⟨fun _ => ⟨(), f s, rfl, fun i => by rw [h, Nat.zero_add]⟩,
    fun h => absurd (fun i hi => absurd hi (Nat.not_lt_zero i)) h⟩

theorem Takes.get : Takes 0 (Proc.get : M State) := fun s =>
  ⟨fun _ => ⟨s, s, rfl, fun i => by rw [Nat.zero_add]⟩,
    fun h => absurd (fun i hi => absurd hi (Nat.not_lt_zero i)) h⟩

theorem Takes.bind {f : α → M β} (hx : Takes n x) (hf : ∀ a, Takes m (f a)) :
    Takes (n + m) (x >>= f) := by
  intro s
  by_cases hn : ∀ i < n, s.spi i = none
  · obtain ⟨a, t, ha, ht⟩ := (hx s).1 hn
    rw [Proc.bind_ok ha]
    constructor
    · intro h
      obtain ⟨b, u, hb, hu⟩ := (hf a t).1 fun i hi => (ht i).trans (h (n + i) (by omega))
      exact ⟨b, u, hb, fun i => by rw [hu, ht, Nat.add_assoc]⟩
    · intro h
      apply (hf a t).2
      intro hm
      apply h
      intro i hi
      by_cases hin : i < n
      · exact hn i hin
      · have hti := ht (i - n)
        rw [hm (i - n) (by omega), Nat.add_sub_of_le (Nat.le_of_not_lt hin)] at hti
        exact hti.symm
  · constructor
    · exact fun h => absurd (fun i hi => h i (by omega)) hn
    · intro _
      obtain ⟨e, t, he⟩ := (hx s).2 hn
      exact ⟨e, t, Proc.bind_error he f⟩

theorem takes_spiTransmitReceive : Takes 1 spiTransmitReceive := by
  intro s
  cases h : s.spi 0 with
  | none =>
    constructor
    · intro _
      refine ⟨(), { s with spi := fun i => s.spi (i + 1) }, ?_, fun i => ?_⟩
      · simp only [spiTransmitReceive, h]
      · rw [Nat.add_comm]
    · intro hn
      apply absurd _ hn
      intro i hi
      rw [Nat.lt_one_iff.mp hi, h]
  | some e =>
    constructor
    · intro hn
      rw [hn 0 Nat.one_pos] at h
      cases h
    · intro _
      cases e with
      | busy => exact ⟨.busy, _, by simp only [spiTransmitReceive, h]; rfl⟩
      | invalidAddr => exact ⟨.internal, _, by simp only [spiTransmitReceive, h]; rfl⟩

theorem takes_readReg (addr : Register) : Takes 1 (readReg addr) :=
  takes_spiTransmitReceive.bind fun _ => Takes.get.bind fun _ =>
    (Takes.modify (by intro s; split <;> rfl)).bind fun _ => Takes.pure _

theorem takes_writeReg (addr : Register) (value : UInt8) : Takes 1 (writeReg addr value) :=
  takes_spiTransmitReceive.bind fun _ => Takes.modify (by intro s; rfl)

theorem takes_changeReg (addr : Register) (clear set : UInt8) :
    Takes 2 (changeReg addr clear set) :=
  (takes_readReg addr).bind fun _ => takes_writeReg addr _

theorem takes_setDatarate (datarate : Datarate) : Takes 2 (setDatarate datarate) :=
  (takes_changeReg _ _ _).bind fun _ => Takes.modify (by intro s; rfl)

theorem takes_setFullScale (fullScale : FullScale) : Takes 2 (setFullScale fullScale) :=
  (takes_changeReg _ _ _).bind fun _ => Takes.modify (by intro s; rfl)

theorem takes_setOperatingMode (operatingMode : OperatingMode) :
    Takes 6 (setOperatingMode operatingMode) :=
  Takes.get.bind fun _ => (takes_setDatarate _).bind fun _ => (takes_readReg _).bind fun _ =>
    (takes_readReg _).bind fun _ => (takes_writeReg _ _).bind fun _ =>
      (takes_writeReg _ _).bind fun _ => Takes.modify (by intro s; rfl)

theorem takes_setMotionInterruptParameters (thresholdMg minimalDurationMs : UInt16) :
    Takes 2 (setMotionInterruptParameters thresholdMg minimalDurationMs) :=
  Takes.get.bind fun _ => (takes_writeReg _ _).bind fun _ =>
    (takes_writeReg _ _).bind fun _ => Takes.modify (by intro s; rfl)

theorem takes_resetInterrupt : Takes 1 resetInterrupt :=
  (takes_readReg _).bind fun _ => Takes.pure ()

theorem takes_setInterruptHandler (handler : Option Handler) :
    Takes 0 (setInterruptHandler handler) := Takes.modify (by intro s; rfl)

theorem takes_setInterrupt_motionInterrupt : Takes 18 (setInterrupt .motionInterrupt) :=
  (takes_changeReg _ _ _).bind fun _ => (takes_writeReg _ _).bind fun _ =>
    (takes_changeReg _ _ _).bind fun _ => (takes_writeReg _ _).bind fun _ =>
    (takes_writeReg _ _).bind fun _ => (takes_writeReg _ _).bind fun _ =>
    (takes_changeReg _ _ _).bind fun _ => (takes_writeReg _ _).bind fun _ =>
    (takes_changeReg _ _ _).bind fun _ => Takes.get.bind fun _ =>
    (takes_setMotionInterruptParameters _ _).bind fun _ => (takes_readReg _).bind fun _ =>
    (takes_writeReg _ _).bind fun _ => takes_resetInterrupt.bind fun _ =>
      Takes.modify (by intro s; rfl)

end Takes

/-! ## The latch -/

/-- `x` does not raise INT1: if the pin is high afterwards, it was before. -/
def Unlatching {α : Type} (x : M α) : Prop :=
  ∀ p : Prop, Proc.Keeps (fun s => s.latched = true → p) x

section Latch

variable {α β : Type} {x : M α}

theorem Unlatching.pure (a : α) : Unlatching (pure a : M α) := fun _ => Proc.Keeps.pure _ a

theorem Unlatching.get : Unlatching (Proc.get : M State) := fun _ _ hs => hs

theorem Unlatching.modify {f : State → State} (h : ∀ s, (f s).latched = s.latched) :
    Unlatching (Proc.modify f : M Unit) := fun _ s hs hlatched => hs ((h s).symm.trans hlatched)

theorem Unlatching.bind {f : α → M β} (hx : Unlatching x) (hf : ∀ a, Unlatching (f a)) :
    Unlatching (x >>= f) := fun p => (hx p).bind fun a => hf a p

theorem unlatching_spiTransmitReceive : Unlatching spiTransmitReceive := by
  intro p s hs
  cases h : s.spi 0 with
  | none =>
    simp only [spiTransmitReceive, h]
    exact hs
  | some e =>
    cases e with
    | busy =>
      simp only [spiTransmitReceive, h]
      exact hs
    | invalidAddr =>
      simp only [spiTransmitReceive, h]
      exact hs

theorem unlatching_readReg (addr : Register) : Unlatching (readReg addr) := by
  have hsrc : Unlatching (Proc.modify fun s =>
      if addr = .int1Src then { s with latched := false } else s : M Unit) := by
    intro p s hs hlatched
    change (if addr = .int1Src then { s with latched := false } else s).latched = true at hlatched
    split at hlatched
    · cases hlatched
    · exact hs hlatched
  exact unlatching_spiTransmitReceive.bind fun _ => Unlatching.get.bind fun _ => hsrc.bind fun _ =>
    Unlatching.pure _

theorem unlatching_writeReg (addr : Register) (value : UInt8) : Unlatching (writeReg addr value) :=
  unlatching_spiTransmitReceive.bind fun _ => Unlatching.modify (by intro s; rfl)

theorem unlatching_changeReg (addr : Register) (clear set : UInt8) :
    Unlatching (changeReg addr clear set) :=
  (unlatching_readReg _).bind fun _ => unlatching_writeReg _ _

theorem unlatching_setDatarate (datarate : Datarate) : Unlatching (setDatarate datarate) :=
  (unlatching_changeReg _ _ _).bind fun _ => Unlatching.modify (by intro s; rfl)

theorem unlatching_setFullScale (fullScale : FullScale) : Unlatching (setFullScale fullScale) :=
  (unlatching_changeReg _ _ _).bind fun _ => Unlatching.modify (by intro s; rfl)

theorem unlatching_setOperatingMode (operatingMode : OperatingMode) :
    Unlatching (setOperatingMode operatingMode) :=
  Unlatching.get.bind fun _ => (unlatching_setDatarate _).bind fun _ =>
    (unlatching_readReg _).bind fun _ => (unlatching_readReg _).bind fun _ =>
    (unlatching_writeReg _ _).bind fun _ => (unlatching_writeReg _ _).bind fun _ =>
      Unlatching.modify (by intro s; rfl)

theorem unlatching_setMotionInterruptParameters (thresholdMg minimalDurationMs : UInt16) :
    Unlatching (setMotionInterruptParameters thresholdMg minimalDurationMs) :=
  Unlatching.get.bind fun _ => (unlatching_writeReg _ _).bind fun _ =>
    (unlatching_writeReg _ _).bind fun _ => Unlatching.modify (by intro s; rfl)

theorem unlatching_resetInterrupt : Unlatching resetInterrupt :=
  (unlatching_readReg _).bind fun _ => Unlatching.pure ()

theorem unlatching_setInterruptHandler (handler : Option Handler) :
    Unlatching (setInterruptHandler handler) := Unlatching.modify (by intro s; rfl)

theorem unlatching_setInterrupt (event : InterruptEvent) : Unlatching (setInterrupt event) := by
  have hevent : Unlatching (Proc.modify fun s => { s with interruptEvent := event } : M Unit) :=
    Unlatching.modify (by intro s; rfl)
  refine (unlatching_changeReg _ _ _).bind fun _ => (unlatching_writeReg _ _).bind fun _ =>
    (unlatching_changeReg _ _ _).bind fun _ => (unlatching_writeReg _ _).bind fun _ =>
    (unlatching_writeReg _ _).bind fun _ => (unlatching_writeReg _ _).bind fun _ => ?_
  cases event with
  | motionInterrupt =>
    exact (unlatching_changeReg _ _ _).bind fun _ => (unlatching_writeReg _ _).bind fun _ =>
      (unlatching_changeReg _ _ _).bind fun _ => Unlatching.get.bind fun _ =>
      (unlatching_setMotionInterruptParameters _ _).bind fun _ => (unlatching_readReg _).bind fun _ =>
      (unlatching_writeReg _ _).bind fun _ => unlatching_resetInterrupt.bind fun _ => hevent
  | noInterrupt => exact hevent
  | singleTapInterrupt => exact hevent
  | doubleTapInterrupt => exact hevent

/-- Once `INT1_SRC` was read the pin is low. -/
theorem ensures_resetInterrupt : Proc.Ensures (fun s => s.latched = false) resetInterrupt := by
  have hread : Proc.Ensures (fun s : State => s.latched = false) (Proc.modify fun s =>
      if Register.int1Src = .int1Src then { s with latched := false } else s : M Unit) := by
    intro s a t h
    cases h
    rfl
  have hint1 : Proc.Ensures (fun s => s.latched = false) (readReg .int1Src) :=
    Proc.Ensures.bind fun _ => Proc.Ensures.bind fun _ => hread.bind_keeps fun _ =>
      Proc.Keeps.pure _ _
  exact hint1.bind_keeps fun _ => Proc.Keeps.pure _ ()

/-- A motion interrupt that was set successfully starts low. -/
theorem ensures_setInterrupt :
    Proc.Ensures (fun s => s.latched = false) (setInterrupt .motionInterrupt) := by
  have hend : Proc.Ensures (fun s => s.latched = false) (do
      resetInterrupt
      Proc.modify fun s => { s with interruptEvent := .motionInterrupt }) :=
    ensures_resetInterrupt.bind_keeps fun _ s hs => hs
  exact Proc.Ensures.bind fun _ => Proc.Ensures.bind fun _ => Proc.Ensures.bind fun _ =>
    Proc.Ensures.bind fun _ => Proc.Ensures.bind fun _ => Proc.Ensures.bind fun _ =>
    Proc.Ensures.bind fun _ => Proc.Ensures.bind fun _ => Proc.Ensures.bind fun _ =>
    Proc.Ensures.bind fun _ => Proc.Ensures.bind fun _ => Proc.Ensures.bind fun _ =>
    Proc.Ensures.bind fun _ => hend

end Latch

/-! ## What the registers encode -/

def State.odr (s : State) : UInt8 := s.registers .ctrlReg1 >>> 4

def State.lowPowerEnable (s : State) : Bool := s.registers .ctrlReg1 &&& 0x08 != 0

def State.highResolutionEnable (s : State) : Bool := s.registers .ctrlReg4 &&& 0x08 != 0

/-- The data rate of `CTRL_REG1`. -/
def State.encodedDatarate (s : State) : Option Datarate :=
  [.hz1, .hz10, .hz25, .hz50, .hz100, .hz200, .hz400, .hz1600, .hz1344Hz5376].find?
    fun datarate => datarate.code == s.odr

/-- The operating mode of `CTRL_REG1` and `CTRL_REG4`. -/
def State.encodedOperatingMode (s : State) : OperatingMode :=
  if s.odr = 0 then .powerDown
  else if s.lowPowerEnable then .lowPower
  else if s.highResolutionEnable then .highResolution
  else .normal

/-- The full scale that the bits 4 and 5 of `value` stand for. -/
def FullScale.decode (value : UInt8) : FullScale :=
  if value &&& 0x30 = 0x00 then .g2
  else if value &&& 0x30 = 0x10 then .g4
  else if value &&& 0x30 = 0x20 then .g8
  else .g16

def State.encodedFullScale (s : State) : FullScale := FullScale.decode (s.registers .ctrlReg4)

/-! ## The sensor without registers -/

/-- What the sensor is set to, and the variables of the driver. -/
structure Core where
  odr : UInt8
  lowPowerEnable : Bool
  highResolutionEnable : Bool
  encodedFullScale : FullScale
  int1Ths : UInt8
  int1Duration : UInt8
  int1Cfg : UInt8
  datarate : Datarate
  operatingMode : OperatingMode
  fullScale : FullScale
  thresholdMg : UInt16
  minimalDurationMs : UInt16
  interruptEvent : InterruptEvent

def State.core (s : State) : Core :=
  { odr := s.odr
    lowPowerEnable := s.lowPowerEnable
    highResolutionEnable := s.highResolutionEnable
    encodedFullScale := s.encodedFullScale
    int1Ths := s.registers .int1Ths
    int1Duration := s.registers .int1Duration
    int1Cfg := s.registers .int1Cfg
    datarate := s.datarate
    operatingMode := s.operatingMode
    fullScale := s.fullScale
    thresholdMg := s.thresholdMg
    minimalDurationMs := s.minimalDurationMs
    interruptEvent := s.interruptEvent }

namespace Core

def setDatarate (datarate : Datarate) (c : Core) : Core :=
  { c with odr := datarate.code, datarate }

def setFullScale (fullScale : FullScale) (c : Core) : Core :=
  { c with encodedFullScale := fullScale, fullScale }

def setOperatingMode (operatingMode : OperatingMode) (c : Core) : Core :=
  { c with
    odr := if operatingMode = .powerDown then 0 else c.datarate.code
    lowPowerEnable := operatingMode = .lowPower
    highResolutionEnable := operatingMode = .highResolution
    operatingMode }

def setMotionInterruptParameters (thresholdMg minimalDurationMs : UInt16) (c : Core) : Core :=
  { c with
    int1Ths := threshold c.fullScale thresholdMg
    int1Duration := duration c.datarate c.operatingMode minimalDurationMs
    thresholdMg, minimalDurationMs }

def setInterrupt (event : InterruptEvent) (c : Core) : Core :=
  match event with
  | .motionInterrupt =>
    { c with
      int1Ths := threshold c.fullScale c.thresholdMg
      int1Duration := duration c.datarate c.operatingMode c.minimalDurationMs
      int1Cfg := 0x2A
      interruptEvent := event }
  | _ => { c with int1Ths := 0, int1Duration := 0, int1Cfg := 0, interruptEvent := event }

/-- The self test changes the sensor and restores it, the operating mode first. -/
def selftest (c : Core) : Core :=
  setInterrupt c.interruptEvent <|
    setMotionInterruptParameters c.thresholdMg c.minimalDurationMs <|
      setFullScale c.fullScale <| setDatarate c.datarate <| setOperatingMode c.operatingMode <|
        setInterrupt .motionInterrupt <| setMotionInterruptParameters 250 20 <|
          setFullScale .g2 <| setDatarate .hz100 <| setOperatingMode .lowPower c

end Core

/-! ## The simulation -/

/-- No SPI access fails any more. -/
def State.Reliable (s : State) : Prop := ∀ i, s.spi i = none

/-- Without SPI errors `x` succeeds and does `f` to the sensor. -/
abbrev Simulates {α : Type} (x : M α) (f : Core → Core) : Prop :=
  Proc.Simulates State.Reliable State.core x f

section Simulates

theorem simulates_modify {h : State → State} {f : Core → Core} (hspi : ∀ s, (h s).spi = s.spi)
    (hcore : ∀ s, (h s).core = f s.core) : Simulates (Proc.modify h : M Unit) f :=
  Proc.Simulates.modify (fun s hs i => (congrFun (hspi s) i).trans (hs i)) hcore

theorem simulates_failed {α : Type} {x : M α} {f : Core → Core} (hx : Simulates x f) :
    Simulates (failed x) f := by
  intro s hs
  obtain ⟨a, t, ha, ht, hc⟩ := hx s hs
  refine ⟨false, t, ?_, ht, hc⟩
  simp only [failed, Proc.attempt_bind_apply, ha]
  rfl

/-! ### One access -/

/-- An access to the registers other than `INT1_SRC`. -/
theorem readReg_eq {s : State} (hs : s.Reliable) {addr : Register} (h : addr ≠ .int1Src) :
    readReg addr s = (.ok (s.registers addr), s) := by
  have hspi : (fun i => s.spi (i + 1)) = s.spi := funext fun i => (hs (i + 1)).trans (hs i).symm
  simp only [readReg, Proc.bind_apply, spiTransmitReceive, hs 0, hspi, Proc.get_apply,
    Proc.modify_apply, Proc.pure_apply, if_neg h]

theorem simulates_readReg (addr : Register) : Simulates (readReg addr) id := by
  intro s hs
  have hspi : (fun i => s.spi (i + 1)) = s.spi := funext fun i => (hs (i + 1)).trans (hs i).symm
  simp only [readReg, Proc.bind_apply, spiTransmitReceive, hs 0, hspi, Proc.get_apply,
    Proc.modify_apply, Proc.pure_apply]
  refine ⟨_, _, rfl, ?_, ?_⟩
  · split
    · exact hs
    · exact hs
  · split
    · rfl
    · rfl

def State.write (s : State) (addr : Register) (value : UInt8) : State :=
  { s with registers := Function.update s.registers addr value }

theorem writeReg_eq {s : State} (hs : s.Reliable) (addr : Register) (value : UInt8) :
    writeReg addr value s = (.ok (), s.write addr value) := by
  have hspi : (fun i => s.spi (i + 1)) = s.spi := funext fun i => (hs (i + 1)).trans (hs i).symm
  simp only [writeReg, Proc.bind_apply, spiTransmitReceive, hs 0, hspi, Proc.modify_apply]
  rfl

theorem simulates_writeReg {addr : Register} {value : UInt8} {f : Core → Core}
    (h : ∀ s, (State.write s addr value).core = f s.core) : Simulates (writeReg addr value) f :=
  fun s hs => ⟨(), s.write addr value, writeReg_eq hs addr value, hs, h s⟩

theorem simulates_changeReg {addr : Register} {clear set : UInt8} {f : Core → Core}
    (haddr : addr ≠ .int1Src)
    (h : ∀ s, (State.write s addr ((s.registers addr &&& ~~~clear) ||| set)).core = f s.core) :
    Simulates (changeReg addr clear set) f := by
  intro s hs
  exact ⟨(), _, (Proc.bind_ok (readReg_eq hs haddr) _).trans (writeReg_eq hs addr _), hs, h s⟩

/-- The registers that no setting is read from. -/
theorem core_write_other (s : State) {addr : Register} (value : UInt8)
    (h : addr ∉ [Register.ctrlReg1, .ctrlReg4, .int1Ths, .int1Duration, .int1Cfg]) :
    (s.write addr value).core = s.core := by
  simp only [List.mem_cons, List.not_mem_nil, or_false, not_or] at h
  obtain ⟨h1, h4, hths, hdur, hcfg⟩ := h
  simp only [State.core, State.odr, State.lowPowerEnable, State.highResolutionEnable,
    State.encodedFullScale, State.write, Function.update_of_ne (Ne.symm h1),
    Function.update_of_ne (Ne.symm h4), Function.update_of_ne (Ne.symm hths),
    Function.update_of_ne (Ne.symm hdur), Function.update_of_ne (Ne.symm hcfg)]

theorem core_write_ctrlReg1 (s : State) (value : UInt8) :
    (s.write .ctrlReg1 value).core =
      { s.core with odr := value >>> 4, lowPowerEnable := value &&& 0x08 != 0 } := rfl

theorem core_write_ctrlReg4 (s : State) (value : UInt8) :
    (s.write .ctrlReg4 value).core =
      { s.core with
        highResolutionEnable := value &&& 0x08 != 0
        encodedFullScale := FullScale.decode value } := rfl

/-! ### The bits of the control registers -/

/-- A fact about every byte is checked byte by byte. -/
theorem forall_uint8 {p : UInt8 → Prop} (h : ∀ b : BitVec 8, p ⟨b⟩) (value : UInt8) : p value :=
  h value.toBitVec

theorem datarate_bits (datarate : Datarate) (value : UInt8) :
    ((value &&& ~~~(0xF0 : UInt8)) ||| ((datarate.code <<< 4) &&& 0xF0)) >>> 4 = datarate.code ∧
    (((value &&& ~~~(0xF0 : UInt8)) ||| ((datarate.code <<< 4) &&& 0xF0)) &&& 0x08 != 0) =
      (value &&& 0x08 != 0) := by
  revert value
  apply forall_uint8
  cases datarate <;> decide +kernel

theorem fullScale_bits (fullScale : FullScale) (value : UInt8) :
    FullScale.decode ((value &&& ~~~(0x30 : UInt8)) ||| ((fullScale.code <<< 4) &&& 0xF0)) =
      fullScale ∧
    (((value &&& ~~~(0x30 : UInt8)) ||| ((fullScale.code <<< 4) &&& 0xF0)) &&& 0x08 != 0) =
      (value &&& 0x08 != 0) := by
  revert value
  apply forall_uint8
  cases fullScale <;> decide +kernel

theorem operatingMode_bits (operatingMode : OperatingMode) (reg1 reg4 : UInt8) :
    (operatingMode.regs reg1 reg4).1 >>> 4 =
      (if operatingMode = .powerDown then (0 : UInt8) else reg1 >>> 4) ∧
    ((operatingMode.regs reg1 reg4).1 &&& 0x08 != 0) = decide (operatingMode = .lowPower) ∧
    (((operatingMode.regs reg1 reg4).2 ||| 0x80) &&& 0x08 != 0) =
      decide (operatingMode = .highResolution) ∧
    FullScale.decode ((operatingMode.regs reg1 reg4).2 ||| 0x80) = FullScale.decode reg4 := by
  refine ⟨?_, ?_, ?_, ?_⟩
  · cases operatingMode <;> simp only [OperatingMode.regs] <;> revert reg1 <;>
      apply forall_uint8 <;> decide +kernel
  · cases operatingMode <;> simp only [OperatingMode.regs] <;> revert reg1 <;>
      apply forall_uint8 <;> decide +kernel
  · cases operatingMode <;> simp only [OperatingMode.regs] <;> revert reg4 <;>
      apply forall_uint8 <;> decide +kernel
  · cases operatingMode <;> simp only [OperatingMode.regs] <;> revert reg4 <;>
      apply forall_uint8 <;> decide +kernel

theorem axis_bits (value : UInt8) {enable disable : UInt8} (he : enable = 0x07)
    (hd : disable = 0) :
    ((value ||| enable) &&& ~~~disable) >>> 4 = value >>> 4 ∧
    (((value ||| enable) &&& ~~~disable) &&& 0x08 != 0) = (value &&& 0x08 != 0) := by
  subst he hd
  revert value
  apply forall_uint8
  decide +kernel

/-! ### The functions of the driver -/

theorem simulates_setDatarate (datarate : Datarate) :
    Simulates (setDatarate datarate) (Core.setDatarate datarate) := by
  apply Proc.Simulates.congr (f := (fun c => { c with datarate }) ∘ fun c => { c with odr := datarate.code })
  · apply Proc.Simulates.bind
    · apply simulates_changeReg (by decide)
      intro s
      rw [core_write_ctrlReg1, (datarate_bits datarate _).1, (datarate_bits datarate _).2]
      rfl
    · exact fun _ => simulates_modify (fun _ => rfl) fun _ => rfl
  · exact fun c => rfl

theorem simulates_setFullScale (fullScale : FullScale) :
    Simulates (setFullScale fullScale) (Core.setFullScale fullScale) := by
  apply Proc.Simulates.congr (f := (fun c => { c with fullScale }) ∘
    fun c => { c with encodedFullScale := fullScale })
  · apply Proc.Simulates.bind
    · apply simulates_changeReg (by decide)
      intro s
      rw [core_write_ctrlReg4, (fullScale_bits fullScale _).1, (fullScale_bits fullScale _).2]
      rfl
    · exact fun _ => simulates_modify (fun _ => rfl) fun _ => rfl
  · exact fun c => rfl

theorem simulates_setOperatingMode (operatingMode : OperatingMode) :
    Simulates (setOperatingMode operatingMode) (Core.setOperatingMode operatingMode) := by
  intro s hs
  obtain ⟨_, t, h, ht, hc⟩ := simulates_setDatarate s.datarate s hs
  have hb := operatingMode_bits operatingMode (t.registers .ctrlReg1) (t.registers .ctrlReg4)
  generalize hr : operatingMode.regs (t.registers .ctrlReg1) (t.registers .ctrlReg4) = regs at hb
  have hw : (t.write .ctrlReg1 regs.1).Reliable := ht
  refine ⟨(), { (t.write .ctrlReg1 regs.1).write .ctrlReg4 (regs.2 ||| 0x80) with operatingMode },
    ?_, ht, ?_⟩
  · refine (Proc.bind_ok h _).trans ((Proc.bind_ok (readReg_eq ht (by decide)) _).trans
      ((Proc.bind_ok (readReg_eq ht (by decide)) _).trans ?_))
    rw [hr]
    exact (Proc.bind_ok (writeReg_eq ht _ _) _).trans
      ((Proc.bind_ok (writeReg_eq hw _ _) _).trans rfl)
  · have hcore : ({ (t.write .ctrlReg1 regs.1).write .ctrlReg4 (regs.2 ||| 0x80) with
        operatingMode } : State).core =
        { t.core with
          odr := regs.1 >>> 4
          lowPowerEnable := regs.1 &&& 0x08 != 0
          highResolutionEnable := (regs.2 ||| 0x80) &&& 0x08 != 0
          encodedFullScale := FullScale.decode (regs.2 ||| 0x80)
          operatingMode } := rfl
    have hodr : t.registers .ctrlReg1 >>> 4 = s.datarate.code := congrArg Core.odr hc
    have hfs : FullScale.decode (t.registers .ctrlReg4) = s.encodedFullScale :=
      congrArg Core.encodedFullScale hc
    rw [hcore, hb.1, hb.2.1, hb.2.2.1, hb.2.2.2, hodr, hfs, hc]
    rfl

theorem simulates_setMotionInterruptParameters (thresholdMg minimalDurationMs : UInt16) :
    Simulates (setMotionInterruptParameters thresholdMg minimalDurationMs)
      (Core.setMotionInterruptParameters thresholdMg minimalDurationMs) := by
  apply Proc.Simulates.get_bind (h := fun s c =>
    { c with
      int1Ths := threshold s.fullScale thresholdMg
      int1Duration := duration s.datarate s.operatingMode minimalDurationMs
      thresholdMg, minimalDurationMs })
  · intro s _
    have hths : Simulates (writeReg .int1Ths (threshold s.fullScale thresholdMg))
        (fun c => { c with int1Ths := threshold s.fullScale thresholdMg }) :=
      simulates_writeReg fun t => rfl
    have hdur : Simulates
        (writeReg .int1Duration (duration s.datarate s.operatingMode minimalDurationMs))
        (fun c => { c with
          int1Duration := duration s.datarate s.operatingMode minimalDurationMs }) :=
      simulates_writeReg fun t => rfl
    have hvars : Simulates
        (Proc.modify fun s => { s with thresholdMg, minimalDurationMs } : M Unit)
        (fun c => { c with thresholdMg, minimalDurationMs }) :=
      simulates_modify (fun _ => rfl) fun _ => rfl
    exact (hths.bind fun _ => hdur.bind fun _ => hvars).congr fun _ => rfl
  · exact fun _ _ => rfl

theorem simulates_resetInterrupt : Simulates resetInterrupt id :=
  ((simulates_readReg .int1Src).bind fun _ => Proc.Simulates.pure ()).congr fun _ => rfl

/-- Changing a register that no setting is read from. -/
theorem simulates_changeReg_other (addr : Register) (clear set : UInt8)
    (h : addr ∉ [Register.ctrlReg1, .ctrlReg4, .int1Ths, .int1Duration, .int1Cfg])
    (hsrc : addr ≠ .int1Src) : Simulates (changeReg addr clear set) id :=
  simulates_changeReg hsrc fun s => core_write_other s _ h

theorem simulates_writeReg_other (addr : Register) (value : UInt8)
    (h : addr ∉ [Register.ctrlReg1, .ctrlReg4, .int1Ths, .int1Duration, .int1Cfg]) :
    Simulates (writeReg addr value) id :=
  simulates_writeReg fun s => core_write_other s _ h

theorem simulates_setHPFilter (hpFilter : HPFilter) : Simulates (setHPFilter hpFilter) id := by
  have hvar : ∀ value, Simulates (Proc.modify fun s => { s with hpFilter := value } : M Unit) id :=
    fun value => simulates_modify (fun _ => rfl) fun _ => rfl
  cases hpFilter with
  | enable =>
    have hctrl := simulates_changeReg_other .ctrlReg2 0xF0 0x08 (by decide) (by decide)
    exact (hctrl.bind fun _ => (simulates_readReg .reference).bind fun _ => hvar .enable).congr
      fun _ => rfl
  | disable =>
    have hctrl := simulates_changeReg_other .ctrlReg2 0x08 0 (by decide) (by decide)
    exact (hctrl.bind fun _ => hvar .disable).congr fun _ => rfl

theorem simulates_setFifo (fifo : Fifo) : Simulates (setFifo fifo) id := by
  cases fifo with
  | streamEnable =>
    have h5 := simulates_changeReg_other .ctrlReg5 0 0x40 (by decide) (by decide)
    have hfifo := simulates_changeReg_other .fifoCtrlReg 0xC0 0x80 (by decide) (by decide)
    exact (h5.bind fun _ => hfifo).congr fun _ => rfl
  | disable =>
    have h5 := simulates_changeReg_other .ctrlReg5 0x40 0 (by decide) (by decide)
    have hfifo := simulates_changeReg_other .fifoCtrlReg 0xC0 0 (by decide) (by decide)
    exact (h5.bind fun _ => hfifo).congr fun _ => rfl

theorem simulates_setAxis : Simulates (setAxis 0x07) id := by
  intro s hs
  have hb := axis_bits (s.registers .ctrlReg1) (show (0x07 : UInt8) &&& 0x07 = 0x07 from rfl)
    (show (0x07 : UInt8) >>> 3 &&& (0x07 : UInt8) = 0 from rfl)
  refine ⟨(), _, (Proc.bind_ok (readReg_eq hs (by decide)) _).trans (writeReg_eq hs _ _), hs, ?_⟩
  rw [core_write_ctrlReg1, hb.1, hb.2]
  rfl

theorem simulates_setInterrupt (event : InterruptEvent) :
    Simulates (setInterrupt event) (Core.setInterrupt event) := by
  have hvar : Simulates (Proc.modify fun s => { s with interruptEvent := event } : M Unit)
      (fun c => { c with interruptEvent := event }) :=
    simulates_modify (fun _ => rfl) fun _ => rfl
  have h2 := simulates_changeReg_other .ctrlReg2 0x01 0 (by decide) (by decide)
  have h3 := simulates_writeReg_other .ctrlReg3 0 (by decide)
  have h5 := simulates_changeReg_other .ctrlReg5 0x08 0 (by decide) (by decide)
  have hths : Simulates (writeReg .int1Ths 0) (fun c => { c with int1Ths := 0 }) :=
    simulates_writeReg fun s => rfl
  have hdur : Simulates (writeReg .int1Duration 0) (fun c => { c with int1Duration := 0 }) :=
    simulates_writeReg fun s => rfl
  have hcfg : ∀ value, Simulates (writeReg .int1Cfg value) (fun c => { c with int1Cfg := value }) :=
    fun value => simulates_writeReg fun s => rfl
  cases event with
  | motionInterrupt =>
    have hhp := simulates_changeReg_other .ctrlReg2 0xF0 0x01 (by decide) (by decide)
    have hpin := simulates_writeReg_other .ctrlReg3 0x40 (by decide)
    have hlir := simulates_changeReg_other .ctrlReg5 0 0x08 (by decide) (by decide)
    have hparam : Simulates (do
        let s ← Proc.get
        setMotionInterruptParameters s.thresholdMg s.minimalDurationMs)
        (fun c => c.setMotionInterruptParameters c.thresholdMg c.minimalDurationMs) :=
      Proc.Simulates.get_bind
        (fun s _ => simulates_setMotionInterruptParameters s.thresholdMg s.minimalDurationMs)
        fun _ _ => rfl
    exact (h2.bind fun _ => h3.bind fun _ => h5.bind fun _ => hths.bind fun _ => hdur.bind fun _ =>
      (hcfg 0).bind fun _ => hhp.bind fun _ => hpin.bind fun _ => hlir.bind fun _ =>
      hparam.bind fun _ => (simulates_readReg .reference).bind fun _ => (hcfg 0x2A).bind fun _ =>
      simulates_resetInterrupt.bind fun _ => hvar).congr fun _ => rfl
  | noInterrupt =>
    exact (h2.bind fun _ => h3.bind fun _ => h5.bind fun _ => hths.bind fun _ => hdur.bind fun _ =>
      (hcfg 0).bind fun _ => hvar).congr fun _ => rfl
  | singleTapInterrupt =>
    exact (h2.bind fun _ => h3.bind fun _ => h5.bind fun _ => hths.bind fun _ => hdur.bind fun _ =>
      (hcfg 0).bind fun _ => hvar).congr fun _ => rfl
  | doubleTapInterrupt =>
    exact (h2.bind fun _ => h3.bind fun _ => h5.bind fun _ => hths.bind fun _ => hdur.bind fun _ =>
      (hcfg 0).bind fun _ => hvar).congr fun _ => rfl

theorem simulates_setInterruptHandler (handler : Option Handler) :
    Simulates (setInterruptHandler handler) id :=
  simulates_modify (fun _ => rfl) fun _ => rfl

theorem simulates_awaitInterrupt (fires : Bool) : Simulates (awaitInterrupt fires) id := by
  apply simulates_modify
  · intro s
    split
    · rfl
    · rfl
  · intro s
    split
    · rfl
    · rfl

theorem simulates_readAcceleration (maxNumSamples : Nat) :
    Simulates (readAcceleration maxNumSamples) id := by
  have hspi : Simulates spiTransmitReceive id := by
    intro s hs
    have hshift : (fun i => s.spi (i + 1)) = s.spi :=
      funext fun i => (hs (i + 1)).trans (hs i).symm
    refine ⟨(), s, ?_, hs, rfl⟩
    simp only [spiTransmitReceive, hs 0, hshift]
  exact ((simulates_readReg .fifoSrcReg).bind fun _ => hspi.bind fun _ =>
    Proc.Simulates.get_bind (f := id) (fun _ _ => Proc.Simulates.pure _) fun _ _ => rfl).congr
      fun _ => rfl

theorem simulates_selftest (fires : Bool) : Simulates (selftest fires) Core.selftest := by
  have hm := fun m => simulates_failed (simulates_setOperatingMode m)
  have hd := fun d => simulates_failed (simulates_setDatarate d)
  have hf := fun f => simulates_failed (simulates_setFullScale f)
  have hh := fun h => simulates_failed (simulates_setHPFilter h)
  have hp := fun a b => simulates_failed (simulates_setMotionInterruptParameters a b)
  have hi := fun e => simulates_failed (simulates_setInterrupt e)
  have hr := simulates_failed simulates_resetInterrupt
  apply Proc.Simulates.get_bind
  · intro former _
    exact (hm .lowPower).bind fun _ => (hd .hz100).bind fun _ => (hf .g2).bind fun _ =>
      (hh .disable).bind fun _ => (hp 250 20).bind fun _ =>
      (simulates_setInterruptHandler _).bind fun _ => (hi .motionInterrupt).bind fun _ =>
      hr.bind fun _ => (simulates_awaitInterrupt fires).bind fun _ =>
      (Proc.Simulates.attempt (simulates_readAcceleration 32)).bind fun samples => hr.bind fun _ =>
      (hm former.operatingMode).bind fun _ => (hd former.datarate).bind fun _ =>
      (hf former.fullScale).bind fun _ => (hh former.hpFilter).bind fun _ =>
      (hp former.thresholdMg former.minimalDurationMs).bind fun _ =>
      (simulates_setInterruptHandler _).bind fun _ => (hi former.interruptEvent).bind fun _ =>
      Proc.Simulates.get_bind (f := id) (fun _ _ => by
        cases samples with
        | error e => exact Proc.Simulates.pure _
        | ok samples => exact Proc.Simulates.pure _) fun _ _ => rfl
  · exact fun _ _ => rfl

end Simulates

/-- The sensor as `accel_init` leaves it. -/
def Core.initial : Core :=
  { odr := 0
    lowPowerEnable := false
    highResolutionEnable := false
    encodedFullScale := .g2
    int1Ths := 0
    int1Duration := 0
    int1Cfg := 0
    datarate := .hz10
    operatingMode := .powerDown
    fullScale := .g2
    thresholdMg := 250
    minimalDurationMs := 0
    interruptEvent := .noInterrupt }

theorem simulates_setDefaults : Simulates setDefaults fun _ => Core.initial := by
  have hfs : Simulates (Proc.modify fun s => { s with fullScale := .g2 } : M Unit)
      (fun c => { c with fullScale := .g2 }) := simulates_modify (fun _ => rfl) fun _ => rfl
  have hdr : Simulates (Proc.modify fun s => { s with datarate := .hz10 } : M Unit)
      (fun c => { c with datarate := .hz10 }) := simulates_modify (fun _ => rfl) fun _ => rfl
  have hhp : Simulates (Proc.modify fun s => { s with hpFilter := .disable } : M Unit) id :=
    simulates_modify (fun _ => rfl) fun _ => rfl
  have hparam : Simulates
      (Proc.modify fun s => { s with thresholdMg := 250, minimalDurationMs := 0 } : M Unit)
      (fun c => { c with thresholdMg := 250, minimalDurationMs := 0 }) :=
    simulates_modify (fun _ => rfl) fun _ => rfl
  have hevent : Simulates
      (Proc.modify fun s =>
        { s with interruptHandler := none, interruptEvent := .noInterrupt } : M Unit)
      (fun c => { c with interruptEvent := .noInterrupt }) :=
    simulates_modify (fun _ => rfl) fun _ => rfl
  exact ((Proc.Simulates.orFail simulates_setAxis _).bind fun _ => hfs.bind fun _ =>
    (Proc.Simulates.orFail (simulates_setFullScale .g2) _).bind fun _ => hdr.bind fun _ =>
    (Proc.Simulates.orFail (simulates_setDatarate .hz10) _).bind fun _ =>
    (Proc.Simulates.orFail (simulates_setOperatingMode .powerDown) _).bind fun _ =>
    (Proc.Simulates.orFail (simulates_setFifo .disable) _).bind fun _ => hhp.bind fun _ =>
    (Proc.Simulates.orFail (simulates_setHPFilter .disable) _).bind fun _ => hparam.bind fun _ =>
    (Proc.Simulates.attempt (simulates_setMotionInterruptParameters 250 0)).bind fun _ =>
    hevent.bind fun _ => Proc.Simulates.orFail (simulates_setInterrupt .noInterrupt) _).congr
      fun _ => rfl

/-- Whatever the registers held before, `accel_init` leads to the same settings. -/
theorem init_core {s t : State} (hs : s.Reliable) (hinit : s.initDone = false)
    (h : init s = (.ok (), t)) : t.Reliable ∧ t.core = Core.initial := by
  rw [init, Proc.get_bind_apply, Proc.when_pos hinit, Proc.bind_eq_ok] at h
  obtain ⟨_, u, h, hu⟩ := h
  rw [Proc.bind_ok (readReg_eq hs (by decide)), Proc.bind_eq_ok] at h
  obtain ⟨_, v, hv, h⟩ := h
  obtain ⟨-, rfl⟩ := Proc.failIf_eq_ok.mp hv
  obtain ⟨_, w, hw, hrel, hcore⟩ := simulates_setDefaults v hs
  rw [h] at hw
  cases hw
  cases hu
  exact ⟨hrel, hcore⟩

end OpenBadge.Accel
