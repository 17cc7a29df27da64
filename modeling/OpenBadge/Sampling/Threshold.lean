import OpenBadge.Sampling.Power

/-!
# The motion threshold

The registers for the threshold and the duration hold multiples of a unit that
depends on the full scale, the data rate and the operating mode. They are computed
when an interrupt is started. A later start of the accelerometer changes the units
and leaves the registers as they are, unless its `timeout_start` ends the interrupt.
-/

namespace OpenBadge.Sampling

open OpenBadge.Lib

/-! ## The units of the registers -/

/-- A threshold in units of the full scale. -/
def thresholdLsbs (fullScale : Accel.FullScale) (thresholdMg : UInt16) : Nat :=
  min 127 (thresholdMg.toNat / (Accel.getThresholdMgPerLsb fullScale).toNat)

/-- A duration in periods of the data rate. -/
def durationPeriods (datarate : Accel.Datarate) (operatingMode : Accel.OperatingMode)
    (minimalDurationMs : UInt16) : Nat :=
  min 127 ((Accel.getDatarateAsNumber datarate operatingMode).toNat *
    minimalDurationMs.toNat / 1000)

/-- The data rates that `sampling_start_accelerometer` chooses from. -/
def Slow (datarate : Accel.Datarate) : Prop := datarate ≠ .hz1600 ∧ datarate ≠ .hz1344Hz5376

/-- The last step of both computations. -/
theorem toNat_saturate (value : UInt16) :
    (if 0x7F < value then 0x7F else value).toUInt8.toNat = min 127 value.toNat := by
  have h127 : (0x7F : UInt16).toNat = 127 := rfl
  by_cases h : 0x7F < value
  · rw [if_pos h]
    have hlt := UInt16.lt_iff_toNat_lt.mp h
    rw [h127] at hlt
    rw [Nat.min_eq_left (Nat.le_of_lt hlt)]
    rfl
  · rw [if_neg h]
    have hle := UInt16.le_iff_toNat_le.mp (UInt16.not_lt.mp h)
    rw [h127] at hle
    rw [Nat.min_eq_right hle, UInt16.toNat_toUInt8, Nat.mod_eq_of_lt (by omega)]

theorem toNat_threshold (fullScale : Accel.FullScale) (thresholdMg : UInt16) :
    (Accel.threshold fullScale thresholdMg).toNat = thresholdLsbs fullScale thresholdMg := by
  rw [Accel.threshold, toNat_saturate, UInt16.toNat_div]
  rfl

theorem rate_le {datarate : Accel.Datarate} (h : Slow datarate)
    (operatingMode : Accel.OperatingMode) :
    (Accel.getDatarateAsNumber datarate operatingMode).toNat ≤ 400 := by
  cases datarate with
  | hz1600 => exact absurd rfl h.1
  | hz1344Hz5376 => exact absurd rfl h.2
  | _ => cases operatingMode <;> decide

/-- The product fits 32 bits, and for the slow data rates its quotient fits 16. -/
theorem toNat_duration {datarate : Accel.Datarate} (h : Slow datarate)
    (operatingMode : Accel.OperatingMode) (minimalDurationMs : UInt16) :
    (Accel.duration datarate operatingMode minimalDurationMs).toNat =
      durationPeriods datarate operatingMode minimalDurationMs := by
  have hrate := rate_le h operatingMode
  have hms : minimalDurationMs.toNat < 65536 := minimalDurationMs.toNat_lt
  rw [Accel.duration, toNat_saturate, durationPeriods]
  generalize Accel.getDatarateAsNumber datarate operatingMode = rate at hrate
  have hproduct : rate.toNat * minimalDurationMs.toNat ≤ 400 * 65535 :=
    Nat.mul_le_mul hrate (by omega)
  rw [UInt32.toNat_toUInt16, UInt32.toNat_div, UInt32.toNat_mul, UInt16.toNat_toUInt32,
    UInt16.toNat_toUInt32, Nat.mod_eq_of_lt (a := rate.toNat * minimalDurationMs.toNat) (by omega)]
  have hquotient : rate.toNat * minimalDurationMs.toNat / 1000 < 65536 := by omega
  exact congrArg (min 127) (Nat.mod_eq_of_lt hquotient)

/-! ## The last interrupt start -/

/-- The badge together with the parameters of the last successful start of an interrupt. -/
structure Watched where
  state : State
  last : Option InterruptRequest

def Watched.step (w : Watched) (c : Call) : Watched where
  state := Sampling.step w.state c
  last :=
    match c, (exec c w.state).1 with
    | .start (.accelerometerInterrupt r), .ok _ => some r
    | _, _ => w.last

/-- `INT1_CFG` enables an interrupt. -/
def State.MotionEnabled (s : State) : Prop := s.accel.registers .int1Cfg ≠ 0

instance (s : State) : Decidable s.MotionEnabled := inferInstanceAs (Decidable (¬ _))

/-- The registers hold the parameters of the last start in the units of the full scale,
the data rate and the mode that the control registers encode. -/
def AsRequested (w : Watched) : Prop :=
  w.state.MotionEnabled → ∃ r, w.last = some r ∧
    (w.state.accel.registers .int1Ths).toNat =
      thresholdLsbs w.state.accel.encodedFullScale r.thresholdMg ∧
    ∃ datarate, w.state.accel.encodedDatarate = some datarate ∧
      (w.state.accel.registers .int1Duration).toNat =
        durationPeriods datarate w.state.accel.encodedOperatingMode r.minimalDurationMs

/-- The timeouts of all set bits of the interrupt have run out when the start function
gets to `timeout_start`. -/
def Request.EndsInterrupt (s : State) (r : Request) : Prop :=
  r.Times s ∧ s.TimedOut (s.ranOut 0) .accelerometerInterrupt

instance (s : State) (r : Request) : Decidable (r.EndsInterrupt s) :=
  inferInstanceAs (Decidable (_ ∧ _))

/-- A start of the accelerometer that finds the interrupt enabled and does not end it gives
its parameters the same values in the new units. -/
def KeepsThreshold (w : Watched) : Call → Prop
  | .start (.accelerometer r) => w.state.MotionEnabled →
      ¬ (Request.accelerometer r).EndsInterrupt w.state → ∀ last, w.last = some last →
      thresholdLsbs r.accelerometerFullScale last.thresholdMg =
        thresholdLsbs w.state.accel.fullScale last.thresholdMg ∧
      durationPeriods r.accelerometerDatarate r.accelerometerOperatingMode
          last.minimalDurationMs =
        durationPeriods w.state.accel.datarate w.state.accel.operatingMode last.minimalDurationMs
  | _ => True

/-- The registers of the interrupt hold the parameters of `r` in the units of the
driver's variables. -/
structure HoldsRequest (c : Accel.Core) (r : InterruptRequest) : Prop where
  int1Cfg : c.int1Cfg ≠ 0
  interruptEvent : c.interruptEvent = .motionInterrupt
  thresholdMg : c.thresholdMg = r.thresholdMg
  minimalDurationMs : c.minimalDurationMs = r.minimalDurationMs
  int1Ths : c.int1Ths = Accel.threshold c.fullScale r.thresholdMg
  int1Duration : c.int1Duration = Accel.duration c.datarate c.operatingMode r.minimalDurationMs

/-- What holds of the users between the calls. -/
structure Steady (u : Usage) : Prop where
  consistent : Consistent u
  slow : Slow u.core.datarate
  idle : u.interruptOff = true → u.core.int1Cfg = 0 ∧ u.core.interruptEvent = .noInterrupt

/-- What holds of the users and the last start while every start of the accelerometer
keeps the threshold. -/
structure Tuned (u : Usage) (last : Option InterruptRequest) : Prop extends Steady u where
  active : u.interruptOff = false → ∃ r, last = some r ∧ HoldsRequest u.core r

section Calls

variable {u : Usage} {last : Option InterruptRequest}

theorem slow_request (r : AccelerometerRequest) : Slow r.accelerometerDatarate := by
  unfold AccelerometerRequest.accelerometerDatarate Slow
  grind

theorem interruptOff_startInterrupt (r : InterruptRequest) :
    (u.startInterrupt r).interruptOff = false := update_on u.interrupt r.streaming

theorem slow_interruptCore (h : Slow u.core.datarate) : Slow u.interruptCore.datarate := by
  rw [Usage.interruptCore]
  split
  · exact ⟨(fun h => by cases h), (fun h => by cases h)⟩
  · exact h

theorem tuned_startInterrupt (h : Tuned u last) (r : InterruptRequest) :
    Tuned (u.startInterrupt r) (some r) where
  consistent := fun _ => settled_startInterrupt h.consistent r
  slow := slow_interruptCore h.slow
  idle := fun hoff => by
    rw [interruptOff_startInterrupt] at hoff
    cases hoff
  active := fun _ => ⟨r, rfl, ⟨(by decide : (0x2A : UInt8) ≠ 0), rfl, rfl, rfl, rfl, rfl⟩⟩

theorem interruptOff_stopInterrupt (streaming : Bool) :
    (u.stopInterrupt streaming).interruptOff = !(u.interrupt (!streaming)) := by
  cases streaming <;> simp [Usage.stopInterrupt, Usage.interruptOff]

/-- A stop that leaves an interrupt enabled leaves the sensor as it is. -/
theorem stop_on {source : Source} {streaming : Bool}
    (h : (Usage.stop source streaming u).interruptOff = false) :
    (Usage.stop source streaming u).core = u.core ∧ u.interruptOff = false := by
  cases source with
  | accelerometer =>
    have hon : u.interruptOff = false := h
    refine ⟨if_neg fun hdown => ?_, hon⟩
    exact absurd (hdown.2.symm.trans hon) (by decide)
  | accelerometerInterrupt =>
    have hother : u.interrupt (!streaming) = true := by
      have hoff := (interruptOff_stopInterrupt (u := u) streaming).symm.trans h
      simpa using hoff
    refine ⟨if_neg fun hoff => ?_, ?_⟩
    · exact absurd (hoff.symm.trans hother) (by decide)
    · rw [Usage.interruptOff]
      cases streaming <;> simp_all
  | _ => exact ⟨rfl, h⟩

theorem lapsed_on {s : State} (entries : List (Source × Bool))
    (h : (s.lapsed entries u).interruptOff = false) :
    (s.lapsed entries u).core = u.core ∧ u.interruptOff = false := by
  induction entries generalizing u with
  | nil => exact ⟨rfl, h⟩
  | cons entry entries ih =>
    rw [State.lapsed, List.foldl_cons] at h ⊢
    obtain ⟨hcore, hon⟩ := ih h
    rw [State.lapsed] at hcore
    rw [hcore]
    split at hon
    · next hexp =>
      rw [if_pos hexp]
      exact stop_on hon
    · next hexp =>
      rw [if_neg hexp]
      exact ⟨rfl, hon⟩

theorem steady_stop (h : Steady u) (source : Source) (streaming : Bool) :
    Steady (Usage.stop source streaming u) := by
  refine ⟨consistent_stop h.consistent source streaming, ?_, ?_⟩
  · cases source with
    | accelerometer =>
      change Slow (u.stopAccelerometer streaming).core.datarate
      unfold Usage.stopAccelerometer
      dsimp only
      split
      · exact h.slow
      · exact h.slow
    | accelerometerInterrupt =>
      change Slow (u.stopInterrupt streaming).core.datarate
      unfold Usage.stopInterrupt
      dsimp only
      split
      · split
        · exact h.slow
        · exact h.slow
      · exact h.slow
    | _ => exact h.slow
  · intro hoff
    cases source with
    | accelerometer =>
      change (u.stopAccelerometer streaming).core.int1Cfg = 0 ∧
        (u.stopAccelerometer streaming).core.interruptEvent = .noInterrupt
      unfold Usage.stopAccelerometer
      dsimp only
      split
      · exact h.idle hoff
      · exact h.idle hoff
    | accelerometerInterrupt =>
      have hother : u.interrupt (!streaming) = false := by
        have hoff' := (interruptOff_stopInterrupt (u := u) streaming).symm.trans hoff
        simpa using hoff'
      have hcore : (u.stopInterrupt streaming).core =
          if u.accelerometerOff then
            (u.core.setInterrupt .noInterrupt).setOperatingMode .powerDown
          else u.core.setInterrupt .noInterrupt := if_pos hother
      change (u.stopInterrupt streaming).core.int1Cfg = 0 ∧
        (u.stopInterrupt streaming).core.interruptEvent = .noInterrupt
      rw [hcore]
      split
      · exact ⟨rfl, rfl⟩
      · exact ⟨rfl, rfl⟩
    | _ => exact h.idle hoff

theorem tuned_stop (h : Tuned u last) (source : Source) (streaming : Bool) :
    Tuned (Usage.stop source streaming u) last := by
  refine ⟨steady_stop h.toSteady source streaming, fun hoff => ?_⟩
  obtain ⟨hcore, hon⟩ := stop_on hoff
  rw [hcore]
  exact h.active hon

theorem interrupt_lapsed_others (s : State) {entries : List (Source × Bool)}
    (h : ∀ entry ∈ entries, entry.1 ≠ .accelerometerInterrupt) (u : Usage) :
    (s.lapsed entries u).interrupt = u.interrupt := by
  induction entries generalizing u with
  | nil => rfl
  | cons entry entries ih =>
    rw [State.lapsed, List.foldl_cons]
    refine (ih (fun e he => h e (List.mem_cons_of_mem _ he)) _).trans ?_
    split
    · obtain ⟨source, streaming⟩ := entry
      cases source with
      | accelerometerInterrupt => exact absurd rfl (h _ List.mem_cons_self)
      | _ => rfl
    · rfl

/-- Which interrupts are left after the timeouts. -/
theorem interrupt_lapsed (s : State) (u : Usage) (streaming : Bool) :
    (s.lapsed registeredTimeouts u).interrupt streaming =
      (u.interrupt streaming &&
        !decide (s.Expired (s.ranOut 0) .accelerometerInterrupt streaming)) := by
  obtain ⟨before, after, hsplit, hbefore, hafter, -⟩ := registered_split .accelerometerInterrupt
  have hfirst := interrupt_lapsed_others s hbefore u
  rw [State.lapsed] at hfirst
  rw [State.lapsed, hsplit, List.foldl_append, List.foldl_cons, List.foldl_cons]
  refine (congrFun (interrupt_lapsed_others s hafter _) streaming).trans ?_
  generalize before.foldl _ u = v at hfirst ⊢
  rw [← hfirst]
  by_cases hf : s.Expired (s.ranOut 0) .accelerometerInterrupt false <;>
    by_cases ht : s.Expired (s.ranOut 0) .accelerometerInterrupt true <;>
    cases streaming <;> simp [hf, ht, Usage.stop, Usage.stopInterrupt]

/-- Whether an interrupt is left. -/
theorem interruptOff_lapsed_iff {s : State}
    (hu : u.interrupt = s.configuration .accelerometerInterrupt) (hon : u.interruptOff = false) :
    (s.lapsed registeredTimeouts u).interruptOff = true ↔
      s.TimedOut (s.ranOut 0) .accelerometerInterrupt := by
  have hset : ¬ s.Off .accelerometerInterrupt := by
    intro hoff
    rw [Usage.interruptOff, hu, hoff.1, hoff.2] at hon
    cases hon
  rw [Usage.interruptOff, interrupt_lapsed, interrupt_lapsed, hu, State.TimedOut]
  simp only [Bool.and_eq_true, Bool.not_eq_true', Bool.and_eq_false_iff, Bool.not_eq_false',
    decide_eq_true_eq, Bool.forall_bool, hset, not_false_eq_true, true_and]
  cases s.configuration .accelerometerInterrupt false <;>
    cases s.configuration .accelerometerInterrupt true <;> simp

/-- The self test computes the registers again, from the settings it has restored. -/
theorem tuned_selftest (h : Tuned u last) : Tuned { u with core := u.core.selftest } last where
  consistent := fun huse => (h.consistent huse).selftest
  slow := by
    have hsame : u.core.selftest.datarate = u.core.datarate := by
      unfold Accel.Core.selftest
      cases u.core.interruptEvent <;> rfl
    rw [hsame]
    exact h.slow
  idle := fun hoff => by
    have hevent := (h.idle hoff).2
    rw [Accel.Core.selftest, hevent]
    exact ⟨rfl, rfl⟩
  active := fun hoff => by
    obtain ⟨r, hr, hreq⟩ := h.active hoff
    refine ⟨r, hr, ?_⟩
    rw [Accel.Core.selftest, hreq.interruptEvent, hreq.thresholdMg, hreq.minimalDurationMs]
    exact ⟨(by decide : (0x2A : UInt8) ≠ 0), rfl, rfl, rfl, rfl, rfl⟩

theorem steady_startAccelerometer (h : Steady u) {r : AccelerometerRequest}
    (hmode : r.operatingMode ≠ 0) : Steady (u.startAccelerometer r) :=
  ⟨fun _ => settled_startAccelerometer hmode, slow_request r, h.idle⟩

/-- Parameters that have the same values in the new units. -/
theorem holdsRequest_startAccelerometer (hslow : Slow u.core.datarate) {r : AccelerometerRequest}
    {req : InterruptRequest} (hold : HoldsRequest u.core req)
    (hths : thresholdLsbs r.accelerometerFullScale req.thresholdMg =
      thresholdLsbs u.core.fullScale req.thresholdMg)
    (hdur : durationPeriods r.accelerometerDatarate r.accelerometerOperatingMode
        req.minimalDurationMs =
      durationPeriods u.core.datarate u.core.operatingMode req.minimalDurationMs) :
    HoldsRequest (u.startAccelerometer r).core req := by
  refine ⟨hold.int1Cfg, hold.interruptEvent, hold.thresholdMg, hold.minimalDurationMs, ?_, ?_⟩
  · refine hold.int1Ths.trans (UInt8.toNat_inj.mp ?_)
    rw [toNat_threshold, ← hths]
    exact (toNat_threshold _ _).symm
  · refine hold.int1Duration.trans (UInt8.toNat_inj.mp ?_)
    rw [toNat_duration hslow, ← hdur]
    exact (toNat_duration (slow_request r) _ _).symm

/-- What a start of the accelerometer leaves of an interrupt. -/
theorem usage_startAccelerometer {s : State}
    (hu : u.interrupt = s.configuration .accelerometerInterrupt) (hon : u.interruptOff = false)
    (r : AccelerometerRequest) :
    (Call.usage s (.start (.accelerometer r)) u).interruptOff = true ↔
      (Request.accelerometer r).EndsInterrupt s := by
  simp only [Call.usage]
  by_cases htimes : (Request.accelerometer r).Times s
  · have hiff := interruptOff_lapsed_iff (u := u.startAccelerometer r) hu hon
    rw [if_pos htimes]
    exact ⟨fun h => ⟨htimes, hiff.mp h⟩, fun h => hiff.mpr h.2⟩
  · rw [if_neg htimes]
    exact ⟨fun h => absurd (hon.symm.trans h) Bool.false_ne_true, fun h => absurd h.1 htimes⟩

theorem core_startAccelerometer {s : State} {r : AccelerometerRequest}
    (h : (Call.usage s (.start (.accelerometer r)) u).interruptOff = false) :
    (Call.usage s (.start (.accelerometer r)) u).core = (u.startAccelerometer r).core ∧
      u.interruptOff = false := by
  simp only [Call.usage] at h ⊢
  split at h
  · next htimes =>
    rw [if_pos htimes]
    exact lapsed_on registeredTimeouts h
  · next htimes =>
    rw [if_neg htimes]
    exact ⟨rfl, h⟩

theorem tuned_startAccelerometer {s : State}
    (hu : u.interrupt = s.configuration .accelerometerInterrupt) (h : Tuned u last)
    {r : AccelerometerRequest} (hmode : r.operatingMode ≠ 0)
    (hkeep : u.interruptOff = false → ¬ (Request.accelerometer r).EndsInterrupt s →
      ∀ req, last = some req →
        thresholdLsbs r.accelerometerFullScale req.thresholdMg =
          thresholdLsbs u.core.fullScale req.thresholdMg ∧
        durationPeriods r.accelerometerDatarate r.accelerometerOperatingMode
            req.minimalDurationMs =
          durationPeriods u.core.datarate u.core.operatingMode req.minimalDurationMs) :
    Tuned (Call.usage s (.start (.accelerometer r)) u) last := by
  have hsteady := steady_startAccelerometer h.toSteady hmode
  refine ⟨?_, fun hleft => ?_⟩
  · simp only [Call.usage]
    split
    · exact lapsed_keeps (I := Steady) (fun _ source streaming h => steady_stop h source streaming)
        hsteady _
    · exact hsteady
  · obtain ⟨hcore, hon⟩ := core_startAccelerometer hleft
    obtain ⟨req, hreq, hold⟩ := h.active hon
    have hends : ¬ (Request.accelerometer r).EndsInterrupt s := fun hends =>
      absurd (hleft.symm.trans ((usage_startAccelerometer hu hon r).mpr hends)) (by decide)
    obtain ⟨hths, hdur⟩ := hkeep hon hends req hreq
    rw [hcore]
    exact ⟨req, hreq, holdsRequest_startAccelerometer h.slow hold hths hdur⟩

end Calls

/-! ## Runs -/

section Runs

variable {w : Watched}

theorem motionEnabled_iff (h : Tuned w.state.usage w.last) :
    w.state.MotionEnabled ↔ w.state.usage.interruptOff = false := by
  constructor
  · intro hon
    by_contra hoff
    exact hon (h.idle (Bool.eq_true_of_not_eq_false hoff)).1
  · intro hoff
    obtain ⟨r, -, hold⟩ := h.active hoff
    exact hold.int1Cfg

theorem inUse_of_interrupt {u : Usage} (h : u.interruptOff = false) : u.inUse = true := by
  rw [Usage.inUse, h, Bool.and_false]
  rfl

theorem asRequested_of_tuned (h : Tuned w.state.usage w.last) : AsRequested w := by
  intro hon
  have hoff := (motionEnabled_iff h).mp hon
  obtain ⟨r, hr, hold⟩ := h.active hoff
  obtain ⟨hmode, hdatarate, hfs⟩ := settled_encoded (h.consistent (inUse_of_interrupt hoff))
  refine ⟨r, hr, ?_, w.state.accel.datarate, hdatarate, ?_⟩
  · rw [hfs, ← toNat_threshold]
    exact congrArg UInt8.toNat hold.int1Ths
  · have hslow : Slow w.state.accel.datarate := h.slow
    rw [hmode, ← toNat_duration hslow]
    exact congrArg UInt8.toNat hold.int1Duration

/-- The state between the calls. -/
def Watching (w : Watched) : Prop := w.state.Reliable ∧ Tuned w.state.usage w.last

theorem last_step_of_ne {c : Call} (h : ∀ r, c ≠ .start (.accelerometerInterrupt r)) :
    (w.step c).last = w.last := by
  cases c with
  | start r =>
    cases r with
    | accelerometerInterrupt r => exact absurd rfl (h r)
    | _ => rfl
  | _ => rfl

theorem last_step_startInterrupt (hs : w.state.Reliable) (r : InterruptRequest) :
    (w.step (.start (.accelerometerInterrupt r))).last = some r := by
  obtain ⟨t, ht, -⟩ := beginInterrupt_ready hs r
  have hok : (exec (.start (.accelerometerInterrupt r)) w.state).1 = .ok () := by
    rw [exec, start_of_ok ht]
  simp only [Watched.step, hok]

theorem watching_step (h : Watching w) {c : Call} (hc : c.Proper) (hkeep : KeepsThreshold w c) :
    Watching (w.step c) := by
  obtain ⟨hrel, htuned⟩ := h
  obtain ⟨hrel', hu⟩ := usage_step hrel hc
  refine ⟨hrel', ?_⟩
  change Tuned (step w.state c).usage _
  rw [hu]
  have hlapsed : ∀ {r : Request} {last : Option InterruptRequest},
      Tuned (r.usage w.state.usage) last →
        Tuned (Call.usage w.state (.start r) w.state.usage) last := by
    intro r last hr
    simp only [Call.usage]
    split
    · exact lapsed_keeps (I := (Tuned · last))
        (fun _ source streaming h => tuned_stop h source streaming) hr _
    · exact hr
  cases c with
  | start r =>
    cases r with
    | accelerometer r =>
      rw [last_step_of_ne fun _ h => by cases h]
      exact tuned_startAccelerometer rfl htuned hc.1 fun hoff =>
        hkeep ((motionEnabled_iff htuned).mpr hoff)
    | accelerometerInterrupt r =>
      rw [last_step_startInterrupt hrel]
      exact hlapsed (tuned_startInterrupt htuned r)
    | battery r => exact hlapsed (r := .battery r) htuned
    | microphone r => exact hlapsed (r := .microphone r) htuned
    | scan r => exact hlapsed (r := .scan r) htuned
  | stop source streaming => exact tuned_stop htuned source streaming
  | timeout source streaming =>
    rw [Call.usage]
    split
    · exact tuned_stop htuned source streaming
    · exact htuned
  | selftest fires => exact tuned_selftest htuned

/-- The registers of the interrupt stay as they are when the accelerometer is started. -/
theorem keepsThreshold_of_asRequested (h : Watching w) {r : AccelerometerRequest}
    (hc : (Call.start (.accelerometer r)).Proper)
    (hreq : AsRequested (w.step (.start (.accelerometer r)))) :
    KeepsThreshold w (.start (.accelerometer r)) := by
  intro hon hends last hlast
  obtain ⟨hrel, htuned⟩ := h
  obtain ⟨-, hu⟩ := usage_step hrel hc
  have hleft :
      (Call.usage w.state (.start (.accelerometer r)) w.state.usage).interruptOff = false :=
    Bool.eq_false_iff.mpr fun hoff =>
      hends ((usage_startAccelerometer rfl ((motionEnabled_iff htuned).mp hon) r).mp hoff)
  have hcore : (step w.state (.start (.accelerometer r))).accel.core =
      (w.state.usage.startAccelerometer r).core :=
    (congrArg Usage.core hu).trans (core_startAccelerometer hleft).1
  have hon' : (w.step (.start (.accelerometer r))).state.MotionEnabled :=
    fun h => hon ((congrArg Accel.Core.int1Cfg hcore).symm.trans h)
  obtain ⟨req, hreq, hths, datarate, hdatarate, hdur⟩ := hreq hon'
  rw [last_step_of_ne (fun _ h => by cases h), hlast] at hreq
  cases hreq
  obtain ⟨old, hold, hcfg⟩ := htuned.active ((motionEnabled_iff htuned).mp hon)
  rw [hlast] at hold
  cases hold
  have hsettled : Settled (step w.state (.start (.accelerometer r))).accel.core := by
    rw [hcore]
    exact settled_startAccelerometer hc.1
  obtain ⟨hmode', hdatarate', hfs'⟩ := settled_encoded hsettled
  have hd : some datarate = some r.accelerometerDatarate :=
    hdatarate.symm.trans (hdatarate'.trans
      (congrArg some (congrArg Accel.Core.datarate hcore)))
  cases hd
  have hmode : (w.step (.start (.accelerometer r))).state.accel.encodedOperatingMode =
      r.accelerometerOperatingMode :=
    hmode'.trans (congrArg Accel.Core.operatingMode hcore)
  have hfs : (w.step (.start (.accelerometer r))).state.accel.encodedFullScale =
      r.accelerometerFullScale := hfs'.trans (congrArg Accel.Core.fullScale hcore)
  have hths' : (w.step (.start (.accelerometer r))).state.accel.registers .int1Ths =
      Accel.threshold w.state.accel.fullScale last.thresholdMg :=
    (congrArg Accel.Core.int1Ths hcore).trans hcfg.int1Ths
  have hdur' : (w.step (.start (.accelerometer r))).state.accel.registers .int1Duration =
      Accel.duration w.state.accel.datarate w.state.accel.operatingMode last.minimalDurationMs :=
    (congrArg Accel.Core.int1Duration hcore).trans hcfg.int1Duration
  have hslow : Slow w.state.accel.datarate := htuned.slow
  rw [hfs, hths', toNat_threshold] at hths
  rw [hmode, hdur', toNat_duration hslow] at hdur
  exact ⟨hths.symm, hdur.symm⟩

theorem asRequested_step_iff (h : Watching w) {c : Call} (hc : c.Proper) :
    AsRequested (w.step c) ↔ KeepsThreshold w c := by
  constructor
  · intro hreq
    cases c with
    | start r =>
      cases r with
      | accelerometer r => exact keepsThreshold_of_asRequested h hc hreq
      | _ => trivial
    | _ => trivial
  · intro hkeep
    exact asRequested_of_tuned (watching_step h hc hkeep).2

theorem watching_init {accel : Accel.State} (hrel : accel.Reliable)
    (hcore : accel.core = Accel.Core.initial) (ranOut : Nat → Source → Bool → Bool) :
    Watching ⟨init accel (fun _ => false) ranOut, none⟩ := by
  have hu : (init accel (fun _ => false) ranOut).usage =
      ⟨.initial, fun _ => false, fun _ => false⟩ := by
    rw [← hcore]
    rfl
  refine ⟨⟨hrel, fun _ => rfl⟩, ?_⟩
  change Tuned (init accel (fun _ => false) ranOut).usage none
  rw [hu]
  refine ⟨⟨?_, ?_, fun _ => ⟨rfl, rfl⟩⟩, ?_⟩
  · intro huse
    cases huse
  · exact ⟨(fun h => by cases h), (fun h => by cases h)⟩
  · intro hoff
    cases hoff

/-- After every call an enabled interrupt has the requested threshold and duration, if
and only if every start of the accelerometer under an enabled interrupt keeps them or ends
the interrupt. -/
theorem threshold_as_requested_iff {accel accel' : Accel.State} (hrel : accel.Reliable)
    (hinit : accel.initDone = false) (h : Accel.init accel = (.ok (), accel'))
    (ranOut : Nat → Source → Bool → Bool) {calls : List Call} (hcalls : ∀ c ∈ calls, c.Proper) :
    Along Watched.step (fun w c => AsRequested (w.step c))
        ⟨init accel' (fun _ => false) ranOut, none⟩ calls ↔
      Along Watched.step KeepsThreshold ⟨init accel' (fun _ => false) ranOut, none⟩ calls := by
  obtain ⟨hrel', hcore⟩ := Accel.init_core hrel hinit h
  apply along_congr_of_mem (I := Watching) (P := Call.Proper)
  · exact fun w c hw hc => asRequested_step_iff hw hc
  · intro w c hw hc hreq
    exact watching_step hw hc ((asRequested_step_iff hw hc).mp hreq)
  · exact watching_init hrel' hcore ranOut
  · exact hcalls

/-- Interrupts at 320 mg, and a start of the accelerometer at 4 g and 10 Hz. -/
theorem threshold_as_requested_at_restart :
    Along Watched.step (fun w c => AsRequested (w.step c))
      ⟨init (Accel.init resetAccel).2 (fun _ => false) fun _ _ _ => false, none⟩
      [.start (.accelerometerInterrupt ⟨0, 320, 500, 1000, false⟩),
        .start (.accelerometer ⟨0, 1, 4, 10, 100, false⟩)] := by
  have hkeep : Along Watched.step KeepsThreshold
      ⟨init (Accel.init resetAccel).2 (fun _ => false) fun _ _ _ => false, none⟩
      [.start (.accelerometerInterrupt ⟨0, 320, 500, 1000, false⟩),
        .start (.accelerometer ⟨0, 1, 4, 10, 100, false⟩)] := by
    refine ⟨trivial, fun _ _ last hlast => ?_, trivial⟩
    cases hlast
    decide +kernel
  exact (threshold_as_requested_iff reliable_resetAccel rfl rfl _ (by decide)).mpr hkeep

/-- Interrupts at 320 mg start at 4 g, which makes the register 10. The accelerometer is
started at 16 g then, where 10 means 1860 mg and 320 mg are 1. -/
theorem accelerometer_start_changes_threshold :
    let w := Watched.step (Watched.step
      ⟨init (Accel.init resetAccel).2 (fun _ => false) fun _ _ _ => false, none⟩
      (.start (.accelerometerInterrupt ⟨0, 320, 500, 1000, false⟩)))
      (.start (.accelerometer ⟨0, 1, 16, 100, 100, false⟩))
    w.last = some ⟨0, 320, 500, 1000, false⟩ ∧ w.state.MotionEnabled ∧
      w.state.accel.registers .int1Ths = 10 ∧ w.state.accel.encodedFullScale = .g16 ∧
      thresholdLsbs .g16 320 = 1 ∧ ¬ AsRequested w := by
  refine ⟨rfl, by decide +kernel, by decide +kernel, by decide +kernel, by decide, fun h => ?_⟩
  obtain ⟨r, hr, hths, -⟩ := h (by decide +kernel)
  cases hr
  exact absurd hths (by decide +kernel)

end Runs

end OpenBadge.Sampling
