import OpenBadge.Sampling.Usage

/-!
# The accelerometer is powered when it is used

Power-down is a data rate of zero. The self test restores the operating mode first
and the data rate afterwards: when it finds the sensor powered down, it leaves it
running. Every other call keeps the data rate and the users' bits in step.
-/

namespace OpenBadge.Sampling

open OpenBadge.Lib

/-- One of the four bits is set. -/
def State.InUse (s : State) : Prop := ¬ (s.Off .accelerometer ∧ s.Off .accelerometerInterrupt)

instance (s : State) : Decidable s.InUse := inferInstanceAs (Decidable (¬ _))

/-- The data rate bits are zero exactly if nobody uses the sensor, and otherwise the
registers encode what the driver converts its samples with. -/
def Powered (s : State) : Prop :=
  (s.accel.odr = 0 ↔ ¬ s.InUse) ∧
    (s.InUse → s.accel.encodedOperatingMode = s.accel.operatingMode ∧
      s.accel.encodedDatarate = some s.accel.datarate ∧
      s.accel.encodedFullScale = s.accel.fullScale)

instance (s : State) : Decidable (Powered s) := inferInstanceAs (Decidable (_ ∧ _))

def Call.IsSelftest : Call → Prop
  | .selftest _ => True
  | _ => False

instance (c : Call) : Decidable c.IsSelftest := by
  unfold Call.IsSelftest
  split <;> infer_instance

/-! ## The settings of a sensor in use -/

/-- The registers hold the variables of the driver, with a mode that is not power-down. -/
structure Settled (c : Accel.Core) : Prop where
  odr : c.odr = c.datarate.code
  lowPowerEnable : c.lowPowerEnable = decide (c.operatingMode = .lowPower)
  highResolutionEnable : c.highResolutionEnable = decide (c.operatingMode = .highResolution)
  encodedFullScale : c.encodedFullScale = c.fullScale
  operatingMode : c.operatingMode ≠ .powerDown

/-- Somebody uses the sensor. -/
def Usage.inUse (u : Usage) : Bool := !(u.accelerometerOff && u.interruptOff)

/-- A sensor in use is settled. -/
def Consistent (u : Usage) : Prop := u.inUse = true → Settled u.core

theorem inUse_iff (s : State) : s.InUse ↔ s.usage.inUse = true := by
  rw [State.InUse, off_accelerometer_iff, off_interrupt_iff, Usage.inUse]
  cases s.usage.accelerometerOff <;> cases s.usage.interruptOff <;> decide

section Settled

variable {c : Accel.Core}

theorem code_ne_zero (datarate : Accel.Datarate) : datarate.code ≠ 0 := by
  cases datarate <;> decide

theorem settled_setOperatingMode (h : c.encodedFullScale = c.fullScale)
    {operatingMode : Accel.OperatingMode} (hm : operatingMode ≠ .powerDown) :
    Settled (c.setOperatingMode operatingMode) where
  odr := if_neg hm
  lowPowerEnable := rfl
  highResolutionEnable := rfl
  encodedFullScale := h
  operatingMode := hm

theorem Settled.setInterrupt (h : Settled c) (event : Accel.InterruptEvent) :
    Settled (c.setInterrupt event) := by
  cases event <;>
    exact ⟨h.odr, h.lowPowerEnable, h.highResolutionEnable, h.encodedFullScale, h.operatingMode⟩

theorem Settled.setMotionInterruptParameters (h : Settled c) (thresholdMg ms : UInt16) :
    Settled (c.setMotionInterruptParameters thresholdMg ms) :=
  ⟨h.odr, h.lowPowerEnable, h.highResolutionEnable, h.encodedFullScale, h.operatingMode⟩

/-- The data rate that the self test restores is never zero. -/
theorem selftest_odr (c : Accel.Core) : c.selftest.odr = c.datarate.code := by
  cases h : c.interruptEvent <;> simp [Accel.Core.selftest, h, Accel.Core.setInterrupt,
    Accel.Core.setMotionInterruptParameters, Accel.Core.setFullScale, Accel.Core.setDatarate,
    Accel.Core.setOperatingMode]

theorem Settled.selftest (h : Settled c) : Settled c.selftest := by
  have hm := h.operatingMode
  unfold Accel.Core.selftest
  apply Settled.setInterrupt
  apply Settled.setMotionInterruptParameters
  exact ⟨rfl, rfl, rfl, rfl, hm⟩

theorem settled_encoded {s : Accel.State} (h : Settled s.core) :
    s.encodedOperatingMode = s.operatingMode ∧ s.encodedDatarate = some s.datarate ∧
      s.encodedFullScale = s.fullScale := by
  have hodr : s.odr = s.datarate.code := h.odr
  have hlp : s.lowPowerEnable = decide (s.operatingMode = .lowPower) := h.lowPowerEnable
  have hhr : s.highResolutionEnable = decide (s.operatingMode = .highResolution) :=
    h.highResolutionEnable
  refine ⟨?_, ?_, h.encodedFullScale⟩
  · rw [Accel.State.encodedOperatingMode, hodr, if_neg (code_ne_zero _), hlp, hhr]
    have hm : s.operatingMode ≠ .powerDown := h.operatingMode
    cases hmode : s.operatingMode with
    | powerDown => exact absurd hmode hm
    | lowPower => rfl
    | normal => rfl
    | highResolution => rfl
  · rw [Accel.State.encodedDatarate, hodr]
    cases s.datarate <;> rfl

end Settled

/-! ## The calls -/

section Calls

variable {u : Usage}

theorem update_on (f : Bool → Bool) (streaming : Bool) :
    (!(Function.update f streaming true false) && !(Function.update f streaming true true)) =
      false := by
  cases streaming <;> simp

theorem operatingMode_ne_powerDown {r : AccelerometerRequest} (h : r.operatingMode ≠ 0) :
    r.accelerometerOperatingMode ≠ .powerDown := by
  rw [AccelerometerRequest.accelerometerOperatingMode, if_neg h]
  split
  · decide
  split
  · decide
  split
  · decide
  · decide

theorem settled_startAccelerometer {r : AccelerometerRequest} (h : r.operatingMode ≠ 0) :
    Settled (u.startAccelerometer r).core :=
  settled_setOperatingMode rfl (operatingMode_ne_powerDown h)

/-- A start of the interrupt settles the sensor itself if it finds it unused. -/
theorem settled_interruptCore (h : Consistent u) : Settled u.interruptCore := by
  rw [Usage.interruptCore]
  split
  · exact settled_setOperatingMode rfl (by decide)
  · next hoff =>
    apply h
    rw [Usage.inUse, Bool.eq_false_iff.mpr hoff]
    rfl

theorem settled_startInterrupt (h : Consistent u) (r : InterruptRequest) :
    Settled (u.startInterrupt r).core := by
  have hparam := (settled_interruptCore h).setMotionInterruptParameters r.thresholdMg
    r.minimalDurationMs
  exact hparam.setInterrupt .motionInterrupt

/-- A stop powers the sensor down exactly if nobody is left who uses it. -/
theorem stopAccelerometer_core (streaming : Bool) :
    (u.stopAccelerometer streaming).core =
      if (u.stopAccelerometer streaming).inUse then u.core
      else u.core.setOperatingMode .powerDown := by
  cases streaming <;> cases h : u.accelerometer false <;> cases h' : u.accelerometer true <;>
    cases hi : u.interrupt false <;> cases hi' : u.interrupt true <;>
    simp [Usage.stopAccelerometer, Usage.inUse, Usage.accelerometerOff, Usage.interruptOff, h, h',
      hi, hi']

theorem stopInterrupt_core (streaming : Bool) :
    (u.stopInterrupt streaming).core =
      if u.interrupt (!streaming) = false then
        if (u.stopInterrupt streaming).inUse then u.core.setInterrupt .noInterrupt
        else (u.core.setInterrupt .noInterrupt).setOperatingMode .powerDown
      else u.core := by
  cases streaming <;> cases h : u.interrupt false <;> cases h' : u.interrupt true <;>
    cases ha : u.accelerometer false <;> cases ha' : u.accelerometer true <;>
    simp [Usage.stopInterrupt, Usage.inUse, Usage.accelerometerOff, Usage.interruptOff, h, h', ha,
      ha']

theorem inUse_of_stopAccelerometer {streaming : Bool}
    (h : (u.stopAccelerometer streaming).inUse = true) : u.inUse = true := by
  revert h
  cases streaming <;> cases h : u.accelerometer false <;> cases h' : u.accelerometer true <;>
    simp [Usage.stopAccelerometer, Usage.inUse, Usage.accelerometerOff, Usage.interruptOff, h, h']

theorem inUse_of_stopInterrupt {streaming : Bool}
    (h : (u.stopInterrupt streaming).inUse = true) : u.inUse = true := by
  revert h
  cases streaming <;> cases h : u.interrupt false <;> cases h' : u.interrupt true <;>
    simp [Usage.stopInterrupt, Usage.inUse, Usage.accelerometerOff, Usage.interruptOff, h, h']

theorem consistent_stop (h : Consistent u) (source : Source) (streaming : Bool) :
    Consistent (Usage.stop source streaming u) := by
  cases source with
  | accelerometer =>
    intro huse
    change (u.stopAccelerometer streaming).inUse = true at huse
    change Settled (u.stopAccelerometer streaming).core
    rw [stopAccelerometer_core, if_pos huse]
    exact h (inUse_of_stopAccelerometer huse)
  | accelerometerInterrupt =>
    intro huse
    change (u.stopInterrupt streaming).inUse = true at huse
    have hs := h (inUse_of_stopInterrupt huse)
    change Settled (u.stopInterrupt streaming).core
    rw [stopInterrupt_core]
    split
    · exact hs.setInterrupt _
    · exact hs
  | _ => exact h

theorem consistent_lapsed (h : Consistent u) (s : State) (entries : List (Source × Bool)) :
    Consistent (s.lapsed entries u) :=
  lapsed_keeps (I := Consistent) (fun _ source streaming h => consistent_stop h source streaming) h
    entries

theorem consistent_usage (h : Consistent u) (s : State) {c : Call} (hc : c.Proper) :
    Consistent (c.usage s u) := by
  cases c with
  | start r =>
    have hr : Consistent (r.usage u) := by
      cases r with
      | accelerometer r => exact fun _ => settled_startAccelerometer hc.1
      | accelerometerInterrupt r => exact fun _ => settled_startInterrupt h r
      | _ => exact h
    simp only [Call.usage]
    split
    · exact consistent_lapsed hr s _
    · exact hr
  | stop source streaming => exact consistent_stop h source streaming
  | timeout source streaming =>
    rw [Call.usage]
    split
    · exact consistent_stop h source streaming
    · exact h
  | selftest fires => exact fun huse => (h huse).selftest

/-- Without a user the data rate bits are zero. -/
def PoweredDown (u : Usage) : Prop := u.inUse = false → u.core.odr = 0

theorem poweredDown_stop (h : PoweredDown u) (source : Source) (streaming : Bool) :
    PoweredDown (Usage.stop source streaming u) := by
  cases source with
  | accelerometer =>
    intro huse
    change (u.stopAccelerometer streaming).inUse = false at huse
    change (u.stopAccelerometer streaming).core.odr = 0
    rw [stopAccelerometer_core, if_neg (Bool.eq_false_iff.mp huse)]
    rfl
  | accelerometerInterrupt =>
    intro huse
    change (u.stopInterrupt streaming).inUse = false at huse
    change (u.stopInterrupt streaming).core.odr = 0
    have hother : u.interrupt (!streaming) = false := by
      revert huse
      cases streaming <;> cases h : u.interrupt false <;> cases h' : u.interrupt true <;>
        simp [Usage.stopInterrupt, Usage.inUse, Usage.interruptOff, h, h']
    rw [stopInterrupt_core, if_pos hother, if_neg (Bool.eq_false_iff.mp huse)]
    rfl
  | _ => exact h

theorem poweredDown_usage (h : PoweredDown u) (s : State) {c : Call}
    (hc : c.IsSelftest → u.inUse = true) : PoweredDown (c.usage s u) := by
  cases c with
  | start r =>
    have hr : PoweredDown (r.usage u) := by
      cases r with
      | accelerometer r =>
        intro huse
        have hon := update_on u.accelerometer r.streaming
        rw [Request.usage, Usage.startAccelerometer, Usage.inUse, Usage.accelerometerOff] at huse
        simp [hon] at huse
      | accelerometerInterrupt r =>
        intro huse
        have hon := update_on u.interrupt r.streaming
        rw [Request.usage, Usage.startInterrupt, Usage.inUse, Usage.interruptOff] at huse
        simp [hon] at huse
      | _ => exact h
    simp only [Call.usage]
    split
    · exact lapsed_keeps (I := PoweredDown)
        (fun _ source streaming h => poweredDown_stop h source streaming) hr _
    · exact hr
  | stop source streaming => exact poweredDown_stop h source streaming
  | timeout source streaming =>
    rw [Call.usage]
    split
    · exact poweredDown_stop h source streaming
    · exact h
  | selftest fires =>
    intro huse
    exact absurd (hc trivial) (Bool.eq_false_iff.mp huse)

end Calls

/-! ## Runs -/

theorem powered_of_usage {s : State} (hc : Consistent s.usage) (hp : PoweredDown s.usage) :
    Powered s := by
  constructor
  · rw [inUse_iff]
    constructor
    · intro hodr huse
      exact code_ne_zero _ ((hc huse).odr.symm.trans hodr)
    · exact fun h => hp (Bool.eq_false_iff.mpr h)
  · intro huse
    exact settled_encoded (hc ((inUse_iff s).mp huse))

/-- A self test that finds the sensor unused leaves its data rate on. -/
theorem not_powered_selftest {s : State} (hs : s.Reliable) (huse : ¬ s.InUse) (fires : Bool) :
    ¬ Powered (step s (.selftest fires)) := by
  intro hp
  obtain ⟨-, hu⟩ := usage_step hs (c := .selftest fires) trivial
  have hoff : ¬ (step s (.selftest fires)).InUse := by
    rw [inUse_iff, hu]
    exact fun h => huse ((inUse_iff s).mpr h)
  have hodr : (step s (.selftest fires)).accel.odr = s.accel.datarate.code :=
    (congrArg (fun u => u.core.odr) hu).trans (selftest_odr _)
  exact code_ne_zero _ (hodr.symm.trans (hp.1.mpr hoff))

/-- What holds of the sensor between the calls while every self test finds it in use. -/
structure Tended (s : State) : Prop where
  reliable : s.Reliable
  consistent : Consistent s.usage
  poweredDown : PoweredDown s.usage

theorem tended_step {s : State} (h : Tended s) {c : Call} (hc : c.Proper)
    (htest : c.IsSelftest → s.InUse) : Tended (step s c) := by
  obtain ⟨hrel, hu⟩ := usage_step h.reliable hc
  refine ⟨hrel, ?_, ?_⟩
  · rw [hu]
    exact consistent_usage h.consistent s hc
  · rw [hu]
    exact poweredDown_usage h.poweredDown s fun hself => (inUse_iff s).mp (htest hself)

theorem powered_step_iff {s : State} (h : Tended s) {c : Call} (hc : c.Proper) :
    Powered (step s c) ↔ (c.IsSelftest → s.InUse) := by
  constructor
  · intro hp hself
    by_contra huse
    cases c with
    | selftest fires => exact not_powered_selftest h.reliable huse fires hp
    | _ => exact hself
  · intro htest
    have ht := tended_step h hc htest
    exact powered_of_usage ht.consistent ht.poweredDown

theorem tended_init {accel : Accel.State} (hrel : accel.Reliable)
    (hcore : accel.core = Accel.Core.initial) (ranOut : Nat → Source → Bool → Bool) :
    Tended (init accel (fun _ => false) ranOut) := by
  refine ⟨⟨hrel, fun _ => rfl⟩, ?_, ?_⟩
  · intro huse
    cases huse
  · intro _
    change accel.core.odr = 0
    rw [hcore]
    rfl

theorem reliable_resetAccel : resetAccel.Reliable := fun _ => rfl

/-- After every call the sensor is powered exactly if it is used, if and only if no self
test finds it unused. -/
theorem powered_iff {accel accel' : Accel.State} (hrel : accel.Reliable)
    (hinit : accel.initDone = false) (h : Accel.init accel = (.ok (), accel'))
    (ranOut : Nat → Source → Bool → Bool) {calls : List Call} (hcalls : ∀ c ∈ calls, c.Proper) :
    Along step (fun s c => Powered (step s c)) (init accel' (fun _ => false) ranOut) calls ↔
      Along step (fun s c => c.IsSelftest → s.InUse)
        (init accel' (fun _ => false) ranOut) calls := by
  obtain ⟨hrel', hcore⟩ := Accel.init_core hrel hinit h
  apply along_congr_of_mem (I := Tended) (P := Call.Proper)
  · exact fun s c hs hc => powered_step_iff hs hc
  · intro s c hs hc hp
    exact tended_step hs hc ((powered_step_iff hs hc).mp hp)
  · exact tended_init hrel' hcore ranOut
  · exact hcalls

theorem powered_iff_at_stop :
    Along step (fun s c => Powered (step s c))
      (init (Accel.init resetAccel).2 (fun _ => false) fun _ _ _ => false)
      [.start (.accelerometer ⟨0, 1, 4, 25, 100, false⟩), .selftest true,
        .stop .accelerometer false] :=
  (powered_iff reliable_resetAccel rfl rfl _ (by decide)).mpr (by decide +kernel)

/-- The first self test, before anything is started, leaves 10 Hz in `CTRL_REG1`. -/
theorem selftest_leaves_power_on :
    let s := init (Accel.init resetAccel).2 (fun _ => false) fun _ _ _ => false
    ¬ s.InUse ∧ s.accel.odr = 0 ∧ ¬ (step s (.selftest true)).InUse ∧
      (step s (.selftest true)).accel.odr = 2 ∧ ¬ Powered (step s (.selftest true)) := by
  decide +kernel

end OpenBadge.Sampling
