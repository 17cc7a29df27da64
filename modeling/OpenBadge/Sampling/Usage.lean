import OpenBadge.Lib.Run
import OpenBadge.Sampling.Driver
import OpenBadge.Sampling.Timers

/-!
# The users of the accelerometer

Sampling, streaming and the two kinds of interrupts share one sensor. When SPI
accesses and timers do not fail, a call does to the sensor and to the four bits what
the functions below say. A start that gets to `timeout_start` also stops what has
timed out.
-/

namespace OpenBadge.Sampling

open OpenBadge.Lib

/-- The sensor with the bits of its users. -/
structure Usage where
  core : Accel.Core
  accelerometer : Bool → Bool
  interrupt : Bool → Bool

def State.usage (s : State) : Usage :=
  ⟨s.accel.core, s.configuration .accelerometer, s.configuration .accelerometerInterrupt⟩

namespace Usage

/-- Neither is the accelerometer sampled nor streamed. -/
def accelerometerOff (u : Usage) : Bool := !u.accelerometer false && !u.accelerometer true

def interruptOff (u : Usage) : Bool := !u.interrupt false && !u.interrupt true

def startAccelerometer (r : AccelerometerRequest) (u : Usage) : Usage :=
  { u with
    core := ((u.core.setFullScale r.accelerometerFullScale).setDatarate
      r.accelerometerDatarate).setOperatingMode r.accelerometerOperatingMode
    accelerometer := Function.update u.accelerometer r.streaming true }

/-- The sensor as the start of the interrupt configures it first. -/
def interruptCore (u : Usage) : Accel.Core :=
  if u.accelerometerOff then
    ((u.core.setFullScale .g4).setDatarate .hz10).setOperatingMode .lowPower
  else u.core

def startInterrupt (r : InterruptRequest) (u : Usage) : Usage :=
  { u with
    core := (u.interruptCore.setMotionInterruptParameters r.thresholdMg
      r.minimalDurationMs).setInterrupt .motionInterrupt
    interrupt := Function.update u.interrupt r.streaming true }

def stopAccelerometer (streaming : Bool) (u : Usage) : Usage :=
  { u with
    core := if u.accelerometer (!streaming) = false ∧ u.interruptOff then
      u.core.setOperatingMode .powerDown else u.core
    accelerometer := Function.update u.accelerometer streaming false }

def stopInterrupt (streaming : Bool) (u : Usage) : Usage :=
  { u with
    core := if u.interrupt (!streaming) = false then
        if u.accelerometerOff then
          (u.core.setInterrupt .noInterrupt).setOperatingMode .powerDown
        else u.core.setInterrupt .noInterrupt
      else u.core
    interrupt := Function.update u.interrupt streaming false }

def stop : Source → Bool → Usage → Usage
  | .accelerometer => stopAccelerometer
  | .accelerometerInterrupt => stopInterrupt
  | _ => fun _ => id

end Usage

/-- What a start function does before its `timeout_start`. -/
def Request.usage : Request → Usage → Usage
  | .accelerometer r => Usage.startAccelerometer r
  | .accelerometerInterrupt r => Usage.startInterrupt r
  | _ => id

/-- The timeouts of the list that have run out stop what they are active for. -/
def State.lapsed (s : State) (entries : List (Source × Bool)) (u : Usage) : Usage :=
  entries.foldl (fun u entry =>
    if s.Expired (s.ranOut 0) entry.1 entry.2 then Usage.stop entry.1 entry.2 u else u) u

theorem lapsed_keeps {I : Usage → Prop}
    (hstop : ∀ u source streaming, I u → I (Usage.stop source streaming u)) {s : State} {u : Usage}
    (h : I u) (entries : List (Source × Bool)) : I (s.lapsed entries u) := by
  induction entries generalizing u with
  | nil => exact h
  | cons entry entries ih =>
    rw [State.lapsed, List.foldl_cons]
    apply ih
    split
    · exact hstop u entry.1 entry.2 h
    · exact h

/-- What a call does, where a timeout only stops what it is active for. -/
def Call.usage (s : State) : Call → Usage → Usage
  | .start r => fun u => if r.Times s then s.lapsed registeredTimeouts (r.usage u) else r.usage u
  | .stop source streaming => Usage.stop source streaming
  | .timeout source streaming =>
    if (s.timeouts source streaming).isSome then Usage.stop source streaming else id
  | .selftest _ => fun u => { u with core := u.core.selftest }

/-- No SPI access fails any more, and no timer for want of memory. -/
def State.Reliable (s : State) : Prop := s.accel.Reliable ∧ ∀ i, s.timerFaults i = false

/-- A start of the accelerometer that does not ask for power-down, with a period that
`app_timer_start` accepts. -/
def Call.Proper : Call → Prop
  | .start (.accelerometer r) =>
    r.operatingMode ≠ 0 ∧ minTimeoutTicks ≤ appTimerTicks r.fifoSamplingPeriodMs.toNat
  | _ => True

instance (c : Call) : Decidable c.Proper := by
  unfold Call.Proper
  split <;> infer_instance

/-! ## The simulation -/

abbrev Simulates {α : Type} (x : M α) (f : Usage → Usage) : Prop :=
  Proc.Simulates State.Reliable State.usage x f

section Simulation

theorem simulates_onAccel {α : Type} {x : Accel.M α} {f : Accel.Core → Accel.Core}
    (hx : Accel.Simulates x f) :
    Simulates (onAccel x) (fun u => { u with core := f u.core }) :=
  Proc.Simulates.within hx (fun _ hs => hs.1) (fun _ _ hs hp => ⟨hp, hs.2⟩) fun s p hp => by
    simp only [State.usage, hp]

theorem simulates_modify {h : State → State} {f : Usage → Usage}
    (hI : ∀ s, (h s).accel = s.accel ∧ (h s).timerFaults = s.timerFaults)
    (hview : ∀ s, (h s).usage = f s.usage) : Simulates (Proc.modify h : M Unit) f :=
  Proc.Simulates.modify (fun s hs => by rw [State.Reliable, (hI s).1, (hI s).2]; exact hs) hview

/-- A procedure that neither uses the driver nor changes the users' bits. -/
theorem simulates_id {h : State → State}
    (hI : ∀ s, (h s).accel = s.accel ∧ (h s).timerFaults = s.timerFaults ∧
      (h s).configuration = s.configuration) : Simulates (Proc.modify h : M Unit) id :=
  simulates_modify (fun s => ⟨(hI s).1, (hI s).2.1⟩) fun s => by
    simp only [State.usage, (hI s).1, (hI s).2.2, id]

theorem simulates_stopTimers (timers : List (Timer × Nat)) : Simulates (stopTimers timers) id := by
  induction timers with
  | nil => exact Proc.Simulates.pure ()
  | cons entry timers ih =>
    have hstop : Simulates (appTimerStop entry.1) id := simulates_id fun _ => ⟨rfl, rfl, rfl⟩
    exact (hstop.bind fun _ => ih).congr fun _ => rfl

theorem simulates_startTimers {timers : List (Timer × Nat)}
    (h : ∀ entry ∈ timers, minTimeoutTicks ≤ entry.2) : Simulates (startTimers timers) id := by
  induction timers with
  | nil => exact Proc.Simulates.pure ()
  | cons entry timers ih =>
    have hstart : Simulates (appTimerStart entry.1 entry.2) id := by
      intro s hs
      have hticks : ¬ entry.2 < minTimeoutTicks :=
        Nat.not_lt.mpr (h entry (List.mem_cons_self ..))
      have hfault : ¬ s.timerFaults 0 = true := by
        rw [hs.2 0]
        exact Bool.false_ne_true
      rw [appTimerStart, if_neg hticks, if_neg hfault]
      split
      · exact ⟨(), _, rfl, ⟨hs.1, fun i => hs.2 (i + 1)⟩, rfl⟩
      · exact ⟨(), _, rfl, ⟨hs.1, fun i => hs.2 (i + 1)⟩, rfl⟩
    exact (hstart.bind fun _ => ih fun e he => h e (List.mem_cons_of_mem _ he)).congr fun _ => rfl

/-- The bits of the users after `setBit`. -/
def Usage.setBit (source : Source) (streaming value : Bool) (u : Usage) : Usage :=
  match source with
  | .accelerometer => { u with accelerometer := Function.update u.accelerometer streaming value }
  | .accelerometerInterrupt => { u with interrupt := Function.update u.interrupt streaming value }
  | _ => u

theorem simulates_setBit (source : Source) (streaming value : Bool) :
    Simulates (setBit source streaming value) (Usage.setBit source streaming value) :=
  simulates_modify (fun _ => ⟨rfl, rfl⟩) fun s => by
    cases source <;> simp [State.usage, Usage.setBit]

theorem simulates_openChunk (source : Source) : Simulates (openChunk source) id :=
  simulates_id fun _ => ⟨rfl, rfl, rfl⟩

theorem simulates_writeChunk (source : Source) (offset : Nat) (data : List UInt8) :
    Simulates (writeChunk source offset data) id := by
  intro s hs
  obtain ⟨fifos, ht⟩ := writeChunk_ok source offset data s
  exact ⟨(), _, ht, hs, rfl⟩

theorem simulates_stampChunk (source : Source) : Simulates (stampChunk source) id := by
  intro s hs
  obtain ⟨fifos, ht⟩ := stampChunk_ok source s
  exact ⟨(), _, ht, hs, rfl⟩

theorem simulates_setupAccelerometerChunk : Simulates setupAccelerometerChunk id :=
  ((simulates_openChunk _).bind fun _ => (simulates_stampChunk _).bind fun _ =>
    simulates_writeChunk _ _ _).congr fun _ => rfl

theorem simulates_setupMicrophoneChunk : Simulates setupMicrophoneChunk id := by
  have hreset : Simulates (Proc.modify fun s =>
      { s with microphoneAggregated := 0, microphoneAggregatedCount := 0 } : M Unit) id :=
    simulates_id fun _ => ⟨rfl, rfl, rfl⟩
  have hwrite : Simulates (do
      let s ← Proc.get
      writeChunk .microphone microphoneSamplePeriod
        (littleEndian 2 s.microphoneParameters.periodMs.toNat)
      writeChunk .microphone microphoneCount [0]) id := by
    apply Proc.Simulates.get_bind (h := fun _ => id)
    · intro s _
      exact ((simulates_writeChunk _ _ _).bind fun _ => simulates_writeChunk _ _ _).congr
        fun _ => rfl
    · exact fun _ _ => rfl
  exact (hreset.bind fun _ => (simulates_openChunk _).bind fun _ =>
    (simulates_stampChunk _).bind fun _ => hwrite).congr fun _ => rfl

theorem update_same {f : Bool → Bool} {streaming : Bool} (h : f streaming = true) :
    Function.update f streaming true = f := by
  rw [← h]
  exact Function.update_eq_self ..

/-- The end of a start of the accelerometer sets the bit, if it is not set already. -/
theorem simulates_beginSampling {timers : List (Timer × Nat)}
    (h : ∀ entry ∈ timers, minTimeoutTicks ≤ entry.2) (changed streaming : Bool) :
    Simulates (beginSampling .accelerometer timers setupAccelerometerChunk changed streaming)
      (fun u => { u with accelerometer := Function.update u.accelerometer streaming true }) := by
  have hfinish := (simulates_setBit .accelerometer streaming true).bind fun _ =>
    (Proc.Simulates.pure true : Simulates (pure true : M Bool) id)
  cases streaming with
  | false =>
    apply Proc.Simulates.get_bind
    · intro s _
      exact Proc.Simulates.branch (fun _ => (simulates_stopTimers timers).bind fun _ =>
        simulates_setupAccelerometerChunk.bind fun _ => (simulates_startTimers h).bind fun _ =>
        hfinish) fun _ => Proc.Simulates.pure false
    · intro s _
      split
      · rfl
      · next hn =>
        have hset : s.usage.accelerometer false = true :=
          Bool.eq_true_of_not_eq_false fun h => hn (.inl h)
        rw [update_same hset]
        rfl
  | true =>
    apply Proc.Simulates.get_bind (h := fun _ u =>
      { u with accelerometer := Function.update u.accelerometer true true })
    · intro s _
      have hbranch : Simulates (Proc.branch (s.configuration .accelerometer false ∧ changed)
          (do
            stopTimers timers
            setupAccelerometerChunk
            startTimers timers)
          (Proc.when (s.configuration .accelerometer false = false) do
            stopTimers timers
            startTimers timers)) id := by
        refine (Proc.Simulates.branch (fun _ => (simulates_stopTimers timers).bind fun _ =>
            simulates_setupAccelerometerChunk.bind fun _ => simulates_startTimers h)
          fun _ => Proc.Simulates.when fun _ => (simulates_stopTimers timers).bind fun _ =>
            simulates_startTimers h).congr fun _ => ?_
        split
        · rfl
        split
        · rfl
        · rfl
      exact (hbranch.bind fun _ => hfinish).congr fun _ => rfl
    · exact fun _ _ => rfl

theorem simulates_beginAccelerometer {r : AccelerometerRequest}
    (h : minTimeoutTicks ≤ appTimerTicks r.fifoSamplingPeriodMs.toNat) :
    Simulates (begin (.accelerometer r)) (Usage.startAccelerometer r) := by
  have hrecord : Simulates (Proc.modify fun s =>
      { s with accelerometerParameters := s.accelerometerParameters.update r } : M Unit) id :=
    simulates_id fun _ => ⟨rfl, rfl, rfl⟩
  have hend : Simulates (do
      let s ← Proc.get
      Proc.modify fun s => { s with accelerometerParameters := s.accelerometerParameters.update r }
      beginSampling .accelerometer (accelerometerTimers r.fifoSamplingPeriodMs)
        setupAccelerometerChunk (s.accelerometerParameters.changed r) r.streaming)
      (fun u => { u with accelerometer := Function.update u.accelerometer r.streaming true }) := by
    apply Proc.Simulates.get_bind (h := fun _ u =>
      { u with accelerometer := Function.update u.accelerometer r.streaming true })
    · intro s _
      refine (hrecord.bind fun _ => simulates_beginSampling (fun entry he => ?_) _ _).congr
        fun _ => rfl
      rw [List.mem_singleton.mp he]
      exact h
    · exact fun _ _ => rfl
  exact ((simulates_onAccel (Accel.simulates_setFullScale _)).bind fun _ =>
    (simulates_onAccel (Accel.simulates_setDatarate _)).bind fun _ =>
    (simulates_onAccel (Accel.simulates_setOperatingMode _)).bind fun _ => hend).congr fun _ => rfl

theorem simulates_setup :
    Simulates setupAccelerometerInterruptChunk id := by
  have hreset : Simulates (onAccel Accel.resetInterrupt) id :=
    (simulates_onAccel Accel.simulates_resetInterrupt).congr fun _ => rfl
  exact ((simulates_openChunk .accelerometerInterrupt).bind fun _ => hreset.attempt.bind fun _ =>
    Proc.Simulates.pure ()).congr fun _ => rfl

theorem off_accelerometer_iff (s : State) :
    s.Off .accelerometer ↔ s.usage.accelerometerOff = true := by
  simp [State.Off, State.usage, Usage.accelerometerOff]

theorem off_interrupt_iff (s : State) :
    s.Off .accelerometerInterrupt ↔ s.usage.interruptOff = true := by
  simp [State.Off, State.usage, Usage.interruptOff]

theorem simulates_beginInterrupt (r : InterruptRequest) :
    Simulates (begin (.accelerometerInterrupt r)) (Usage.startInterrupt r) := by
  have hignore : Simulates (Proc.modify fun s =>
      { s with accelerometerInterruptIgnoreDurationMs := r.ignoreDurationMs } : M Unit) id :=
    simulates_id fun _ => ⟨rfl, rfl, rfl⟩
  have hsetup : Simulates (Proc.when (r.streaming = false) setupAccelerometerInterruptChunk) id :=
    (Proc.Simulates.when fun _ => simulates_setup).congr fun _ => by
      split
      · rfl
      · rfl
  apply Proc.Simulates.get_bind
  · intro s _
    exact (Proc.Simulates.when fun _ =>
        (simulates_onAccel (Accel.simulates_setFullScale _)).bind fun _ =>
        (simulates_onAccel (Accel.simulates_setDatarate _)).bind fun _ =>
        simulates_onAccel (Accel.simulates_setOperatingMode _)).bind fun _ =>
      (simulates_onAccel (Accel.simulates_setMotionInterruptParameters _ _)).bind fun _ =>
      (simulates_onAccel (Accel.simulates_setInterruptHandler _)).bind fun _ =>
      (simulates_onAccel (Accel.simulates_setInterrupt .motionInterrupt)).bind fun _ =>
      hignore.bind fun _ => hsetup.bind fun _ => (simulates_setBit _ _ _).bind fun _ =>
      Proc.Simulates.pure true
  · intro s _
    rw [Usage.startInterrupt, Usage.interruptCore]
    simp only [off_accelerometer_iff]
    split
    · rfl
    · rfl

theorem simulates_stopSampling {source : Source} (bits : Usage → Bool → Bool)
    (hbits : ∀ s : State, s.configuration source = bits s.usage) (timers : List (Timer × Nat))
    {release : M Unit} {f : Usage → Usage} (hrelease : Simulates release f) (streaming : Bool) :
    Simulates (stopSampling source timers release streaming)
      (fun u => (if bits u (!streaming) = false then f u else u).setBit source streaming false) := by
  apply Proc.Simulates.get_bind
  · intro s _
    exact (Proc.Simulates.when fun _ => (simulates_stopTimers timers).bind fun _ => hrelease).bind
      fun _ => simulates_setBit source streaming false
  · intro s _
    rw [hbits]
    change Usage.setBit _ _ _ _ = _
    split
    · rfl
    · rfl

theorem simulates_stopAccelerometer (streaming : Bool) :
    Simulates (stopAccelerometer streaming) (Usage.stopAccelerometer streaming) := by
  apply Proc.Simulates.get_bind
  · intro s _
    exact simulates_stopSampling Usage.accelerometer (fun _ => rfl) _
      (Proc.Simulates.when fun _ =>
        simulates_onAccel (Accel.simulates_setOperatingMode .powerDown)) streaming
  · intro s _
    have hoff := off_interrupt_iff s
    rw [Usage.stopAccelerometer]
    by_cases hother : s.usage.accelerometer (!streaming) = false
    · by_cases hint : s.usage.interruptOff = true
      · rw [if_pos hother, if_pos (hoff.mpr hint), if_pos ⟨hother, hint⟩]
        rfl
      · rw [if_pos hother, if_neg (mt hoff.mp hint), if_neg fun h => hint h.2]
        rfl
    · rw [if_neg hother, if_neg fun h => hother h.1]
      rfl

theorem simulates_stopInterrupt (streaming : Bool) :
    Simulates (stopAccelerometerInterrupt streaming) (Usage.stopInterrupt streaming) := by
  apply Proc.Simulates.get_bind
  · intro s _
    exact simulates_stopSampling Usage.interrupt (fun _ => rfl) _
      ((simulates_onAccel (Accel.simulates_setInterrupt .noInterrupt)).bind fun _ =>
        Proc.Simulates.when fun _ =>
          simulates_onAccel (Accel.simulates_setOperatingMode .powerDown)) streaming
  · intro s _
    have hoff := off_accelerometer_iff s
    rw [Usage.stopInterrupt]
    by_cases hother : s.usage.interrupt (!streaming) = false
    · by_cases hacc : s.usage.accelerometerOff = true
      · rw [if_pos hother, if_pos (hoff.mpr hacc), if_pos hother, if_pos hacc]
        rfl
      · rw [if_pos hother, if_neg (mt hoff.mp hacc), if_pos hother, if_neg hacc]
        rfl
    · rw [if_neg hother, if_neg hother]
      rfl

end Simulation

/-! ## The other sources -/

section Others

variable {u : Usage}

/-- The states that a call for another source leads to. -/
def Untouched (u : Usage) (s : State) : Prop := s.Reliable ∧ s.usage = u

theorem keeps_of_simulates {x : M Unit} (hx : Simulates x id) : Proc.Keeps (Untouched u) x := by
  intro s hs
  obtain ⟨a, t, h, ht, hv⟩ := hx s hs.1
  rw [h]
  exact ⟨ht, hv.trans hs.2⟩

theorem untouched_appTimerStart (timer : Timer) (ticks : Nat) :
    Proc.Keeps (Untouched u) (appTimerStart timer ticks) := by
  intro s hs
  have hfaults : Untouched u { s with timerFaults := fun i => s.timerFaults (i + 1) } :=
    ⟨⟨hs.1.1, fun i => hs.1.2 (i + 1)⟩, hs.2⟩
  unfold appTimerStart
  dsimp only
  split
  · exact hfaults
  split
  · exact hfaults
  split
  · exact hfaults
  · exact hfaults

/-- The sources that are not users of the accelerometer. -/
def Source.Other (source : Source) : Prop :=
  source ≠ .accelerometer ∧ source ≠ .accelerometerInterrupt

theorem untouched_setBit {source : Source} (h : source.Other) (streaming value : Bool) :
    Proc.Keeps (Untouched u) (setBit source streaming value) :=
  keeps_of_simulates ((simulates_setBit source streaming value).congr fun _ => by
    cases source with
    | accelerometer => exact absurd rfl h.1
    | accelerometerInterrupt => exact absurd rfl h.2
    | _ => rfl)

theorem untouched_beginSampling {source : Source} (h : source.Other)
    (timers : List (Timer × Nat)) {setup : M Unit} (hsetup : Simulates setup id)
    (changed streaming : Bool) :
    Proc.Keeps (Untouched u) (beginSampling source timers setup changed streaming) :=
  keeps_beginSampling_of
    (fun _ _ => keeps_of_simulates (simulates_id fun _ => ⟨rfl, rfl, rfl⟩))
    (fun _ _ => untouched_appTimerStart _ _) (keeps_of_simulates hsetup) (untouched_setBit h _ _)

theorem untouched_stopSampling {source : Source} (h : source.Other)
    (timers : List (Timer × Nat)) {release : M Unit} (hrelease : Simulates release id)
    (streaming : Bool) :
    Proc.Keeps (Untouched u) (stopSampling source timers release streaming) :=
  Proc.Keeps.bind (fun _ hs => hs) fun _ =>
    (Proc.Keeps.when fun _ => (keeps_of_simulates (simulates_stopTimers timers)).bind fun _ =>
      keeps_of_simulates hrelease).bind fun _ => untouched_setBit h streaming false

theorem untouched_begin {r : Request} (h : r.source.Other) :
    Proc.Keeps (Untouched u) (begin r) := by
  cases r with
  | accelerometer r => exact absurd rfl h.1
  | accelerometerInterrupt r => exact absurd rfl h.2
  | battery r =>
    have hrecord : Simulates (Proc.modify fun s =>
        { s with batteryParameters := s.batteryParameters.update r } : M Unit) id :=
      simulates_id fun _ => ⟨rfl, rfl, rfl⟩
    exact Proc.Keeps.bind (fun _ hs => hs) fun _ => (keeps_of_simulates hrecord).bind fun _ =>
      untouched_beginSampling h _ (simulates_openChunk .battery) _ _
  | microphone r =>
    have hrecord : Simulates (Proc.modify fun s =>
        { s with microphoneParameters := s.microphoneParameters.update r } : M Unit) id :=
      simulates_id fun _ => ⟨rfl, rfl, rfl⟩
    exact Proc.Keeps.bind (fun _ hs => hs) fun _ => (keeps_of_simulates hrecord).bind fun _ =>
      untouched_beginSampling h _ simulates_setupMicrophoneChunk _ _
  | scan r =>
    have hrecord : Simulates (Proc.modify fun s =>
        { s with scanParameters := s.scanParameters.update r } : M Unit) id :=
      simulates_id fun _ => ⟨rfl, rfl, rfl⟩
    exact Proc.Keeps.bind (fun _ hs => hs) fun _ => (keeps_of_simulates hrecord).bind fun _ =>
      untouched_beginSampling h _ (Proc.Simulates.pure ()) _ _

theorem untouched_stop {source : Source} (h : source.Other) (streaming : Bool) :
    Proc.Keeps (Untouched u) (stop source streaming) := by
  cases source with
  | accelerometer => exact absurd rfl h.1
  | accelerometerInterrupt => exact absurd rfl h.2
  | battery => exact untouched_stopSampling h _ (Proc.Simulates.pure ()) streaming
  | microphone => exact untouched_stopSampling h _ (Proc.Simulates.pure ()) streaming
  | scan =>
    have hscan : Simulates scannerStopScanning id := simulates_id fun _ => ⟨rfl, rfl, rfl⟩
    exact untouched_stopSampling h _ hscan streaming

end Others

/-! ## Calls -/

section Calls

variable {s : State}

theorem step_of_simulates {c : Call} {f : Usage → Usage} (hs : s.Reliable)
    (h : Simulates (exec c) f) : (step s c).Reliable ∧ (step s c).usage = f s.usage := by
  obtain ⟨a, t, ht, hrel, hv⟩ := h s hs
  rw [step, ht]
  exact ⟨hrel, hv⟩

theorem simulates_stop {source : Source} (h : ¬ source.Other) (streaming : Bool) :
    Simulates (stop source streaming) (Usage.stop source streaming) := by
  cases source with
  | accelerometer => exact simulates_stopAccelerometer streaming
  | accelerometerInterrupt => exact simulates_stopInterrupt streaming
  | battery => exact absurd ⟨(fun h => by cases h), (fun h => by cases h)⟩ h
  | microphone => exact absurd ⟨(fun h => by cases h), (fun h => by cases h)⟩ h
  | scan => exact absurd ⟨(fun h => by cases h), (fun h => by cases h)⟩ h

theorem usage_stop_other {source : Source} (h : source.Other) (streaming : Bool) :
    Usage.stop source streaming = id := by
  cases source with
  | accelerometer => exact absurd rfl h.1
  | accelerometerInterrupt => exact absurd rfl h.2
  | _ => rfl

theorem usage_stop (hs : s.Reliable) (source : Source) (streaming : Bool) :
    (stop source streaming s).2.Reliable ∧
      (stop source streaming s).2.usage = Usage.stop source streaming s.usage := by
  by_cases h : source.Other
  · rw [usage_stop_other h]
    exact untouched_stop h streaming s ⟨hs, rfl⟩
  · obtain ⟨a, t, ht, hrel, hv⟩ := simulates_stop h streaming s hs
    rw [ht]
    exact ⟨hrel, hv⟩

/-! ### The timeouts that have run out -/

theorem stop_timeouts (source : Source) (streaming : Bool) (s : State) :
    (stop source streaming s).2.timeouts = s.timeouts := by
  have hrun : ∀ {timers : List (Timer × Nat)} {release : M Unit},
      Proc.Keeps (fun t => t.timeouts = s.timeouts) release →
      (stopSampling source timers release streaming s).2.timeouts = s.timeouts :=
    fun hrelease => keeps_stopSampling_of (fun _ _ _ h => h) hrelease (fun _ h => h) s rfl
  have haccel : ∀ {α : Type} (x : Accel.M α),
      Proc.Keeps (fun t => t.timeouts = s.timeouts) (onAccel x) := fun _ _ h => h
  cases source with
  | accelerometer => exact hrun (Proc.Keeps.when fun _ => haccel _)
  | accelerometerInterrupt =>
    exact hrun ((haccel _).bind fun _ => Proc.Keeps.when fun _ => haccel _)
  | scan => exact hrun fun _ h => h
  | _ => exact hrun (Proc.Keeps.pure _ ())

section Lapse

theorem usage_lapse (ranOut : Source → Bool → Bool) (hs : s.Reliable) (source : Source)
    (streaming : Bool) :
    (lapse ranOut s (source, streaming)).Reliable ∧
      (lapse ranOut s (source, streaming)).usage =
        if s.Expired ranOut source streaming then Usage.stop source streaming s.usage
        else s.usage := by
  by_cases hexp : s.Expired ranOut source streaming
  · rw [lapse_of_expired hexp, if_pos hexp]
    exact usage_stop hs source streaming
  · rw [lapse_of_not_expired hexp, if_neg hexp]
    exact ⟨hs, rfl⟩

/-- A pass leaves the timeouts of the other passes alone. -/
theorem lapse_timeouts {source other : Source} {streaming streaming' : Bool}
    (hne : (other, streaming') ≠ (source, streaming)) :
    (lapse ranOut s (source, streaming)).timeouts other streaming' =
      s.timeouts other streaming' := by
  by_cases hexp : s.Expired ranOut source streaming
  · rw [lapse_of_expired hexp]
    change Function.update (stop source streaming s).2.timeouts source _ other streaming' = _
    rw [stop_timeouts]
    by_cases ho : other = source
    · subst ho
      rw [Function.update_self]
      exact Function.update_of_ne (fun h => hne (by rw [h])) _ _
    · rw [Function.update_of_ne ho]
  · rw [lapse_of_not_expired hexp]

/-- The passes over distinct timeouts. -/
theorem usage_lapses {entries : List (Source × Bool)} (hnodup : entries.Nodup) {t : State}
    (ht : t.Reliable) (h : ∀ entry ∈ entries, t.timeouts entry.1 entry.2 =
      s.timeouts entry.1 entry.2) :
    (entries.foldl (lapse (s.ranOut 0)) t).Reliable ∧
      (entries.foldl (lapse (s.ranOut 0)) t).usage = s.lapsed entries t.usage := by
  induction entries generalizing t with
  | nil => exact ⟨ht, rfl⟩
  | cons entry entries ih =>
    obtain ⟨source, streaming⟩ := entry
    rw [List.nodup_cons] at hnodup
    obtain ⟨hrel, husage⟩ := usage_lapse (s.ranOut 0) ht source streaming
    have hsame : t.Expired (s.ranOut 0) source streaming ↔
        s.Expired (s.ranOut 0) source streaming := by
      rw [State.Expired, State.Expired, h _ List.mem_cons_self]
    rw [List.foldl_cons, State.lapsed, List.foldl_cons]
    obtain ⟨hrel', husage'⟩ := ih hnodup.2 hrel fun entry he => by
      rw [lapse_timeouts fun heq => hnodup.1 (heq ▸ he)]
      exact h entry (List.mem_cons_of_mem _ he)
    refine ⟨hrel', husage'.trans ?_⟩
    rw [husage, State.lapsed]
    simp only [hsame]

/-- `timeout_start` stops what has timed out. -/
theorem usage_timeoutStart (hs : s.Reliable) {timeoutMs : UInt32} (hms : timeoutMs ≠ 0)
    (source : Source) (streaming : Bool) :
    (timeoutStart source streaming timeoutMs s).2.Reliable ∧
      (timeoutStart source streaming timeoutMs s).2.usage =
        s.lapsed registeredTimeouts s.usage := by
  rw [timeoutStart_snd hms]
  exact usage_lapses (s := s) (t := { s with ranOut := fun i => s.ranOut (i + 1) }) (by decide) hs
    fun _ _ => rfl

end Lapse

/-! ### The start functions -/

theorem usage_begin (hs : s.Reliable) {r : Request} (hr : (Call.start r).Proper) :
    (begin r s).2.Reliable ∧ (begin r s).2.usage = r.usage s.usage := by
  have hsim : ∀ {x : M Bool} {f : Usage → Usage}, Simulates x f →
      (x s).2.Reliable ∧ (x s).2.usage = f s.usage := by
    intro x f hx
    obtain ⟨a, t, ht, hrel, hv⟩ := hx s hs
    rw [ht]
    exact ⟨hrel, hv⟩
  cases r with
  | accelerometer r => exact hsim (simulates_beginAccelerometer hr.2)
  | accelerometerInterrupt r => exact hsim (simulates_beginInterrupt r)
  | battery r => exact untouched_begin ⟨(fun h => by cases h), (fun h => by cases h)⟩ s ⟨hs, rfl⟩
  | microphone r =>
    exact untouched_begin ⟨(fun h => by cases h), (fun h => by cases h)⟩ s ⟨hs, rfl⟩
  | scan r => exact untouched_begin ⟨(fun h => by cases h), (fun h => by cases h)⟩ s ⟨hs, rfl⟩

/-- A start of the interrupt that does not fail gets to its timeout. -/
theorem beginInterrupt_ready (hs : s.Reliable) (r : InterruptRequest) :
    ∃ t, begin (.accelerometerInterrupt r) s = (.ok true, t) ∧ t.timeouts = s.timeouts ∧
      t.ranOut = s.ranOut := by
  have haccel : ∀ {α : Type} (x : Accel.M α),
      Proc.Keeps (fun t => t.timeouts = s.timeouts ∧ t.ranOut = s.ranOut) (onAccel x) :=
    fun _ _ h => h
  have hsetup : Proc.Keeps (fun t => t.timeouts = s.timeouts ∧ t.ranOut = s.ranOut)
      setupAccelerometerInterruptChunk :=
    Proc.Keeps.bind (fun _ h => h) fun _ => (haccel _).attempt.bind fun _ => Proc.Keeps.pure _ _
  have hyields : Proc.Yields (fun t => t.timeouts = s.timeouts ∧ t.ranOut = s.ranOut)
      (fun go => go = true) (beginInterrupt r) := by
    refine Proc.Yields.bind (Proc.Keeps.yields fun _ h => h) fun u _ => ?_
    refine (Proc.Keeps.when fun _ => (haccel _).bind fun _ => (haccel _).bind fun _ =>
      haccel _).yields.bind fun _ _ => ?_
    refine (haccel _).yields.bind fun _ _ => (haccel _).yields.bind fun _ _ =>
      (haccel _).yields.bind fun _ _ => Proc.Yields.bind (Proc.Keeps.yields fun _ h => h)
      fun _ _ => (Proc.Keeps.when fun _ => hsetup).yields.bind fun _ _ => ?_
    exact Proc.Yields.bind (Proc.Keeps.yields fun _ h => h) fun _ _ => Proc.Yields.pure rfl
  obtain ⟨go, t, ht, -⟩ := simulates_beginInterrupt r s hs
  obtain ⟨hkeeps, hgo⟩ := hyields s ⟨rfl, rfl⟩
  rw [← begin, ht] at hkeeps hgo
  rw [hgo go rfl] at ht
  exact ⟨t, ht, hkeeps⟩

theorem lapsed_congr {t : State} (htimeouts : t.timeouts = s.timeouts)
    (hranOut : t.ranOut = s.ranOut) : t.lapsed = s.lapsed := by
  have hexp : ∀ source streaming, t.Expired (t.ranOut 0) source streaming ↔
      s.Expired (s.ranOut 0) source streaming := by
    intro source streaming
    rw [State.Expired, State.Expired, htimeouts, hranOut]
  funext entries u
  simp only [State.lapsed, hexp]

theorem usage_start (hs : s.Reliable) {r : Request} (hr : (Call.start r).Proper) :
    (step s (.start r)).Reliable ∧
      (step s (.start r)).usage = (Call.start r).usage s s.usage := by
  obtain ⟨hrel, husage⟩ := usage_begin hs hr
  have hquiet : ∀ u, begin r s = (.ok false, u) ∨ (∃ e, begin r s = (.error e, u)) → ¬ r.Times s →
      (step s (.start r)).Reliable ∧
        (step s (.start r)).usage = (Call.start r).usage s s.usage := by
    intro u h htimes
    have hstep : step s (.start r) = (begin r s).2 := by
      rcases h with h | ⟨e, h⟩
      · rw [step, exec, start_of_ignored h, h]
      · rw [step, exec, start_of_error h, h]
    simp only [hstep, Call.usage, if_neg htimes]
    exact ⟨hrel, husage⟩
  have hthrough : ∀ u, begin r s = (.ok true, u) → u.timeouts = s.timeouts →
      u.ranOut = s.ranOut → (r.Times s ↔ r.timeoutMs ≠ 0) →
      (step s (.start r)).Reliable ∧
        (step s (.start r)).usage = (Call.start r).usage s s.usage := by
    intro u hrun htimeouts hranOut htimes
    rw [hrun] at hrel husage
    simp only [step, exec, start_of_ok hrun, Call.usage]
    by_cases hms : r.timeoutMs = 0
    · rw [if_neg fun h => htimes.mp h hms, hms, timeoutStart_zero]
      exact ⟨hrel, husage⟩
    · rw [if_pos (htimes.mpr hms), ← husage, ← lapsed_congr htimeouts hranOut]
      exact usage_timeoutStart hrel hms _ _
  by_cases hint : r.source = .accelerometerInterrupt
  · cases r with
    | accelerometerInterrupt r =>
      obtain ⟨u, hrun, htimeouts, hranOut⟩ := beginInterrupt_ready hs r
      exact hthrough u hrun htimeouts hranOut
        ⟨fun h => h.1, fun h => ⟨h, .inr (.inr rfl), fun _ => rfl⟩⟩
    | _ => cases hint
  · rcases begin_cases r hint s with ⟨e, u, hrun, hfailed⟩ | ⟨go, u, hrun, hpassed⟩
    · exact hquiet u (.inr ⟨e, hrun⟩) (hfailed.not_times fun i _ => hs.1 i)
    cases go with
    | false =>
      exact hquiet u (.inl hrun) fun h => Bool.false_ne_true (hpassed.times_iff.mp h).2
    | true =>
      exact hthrough u hrun hpassed.timeouts hpassed.ranOut
        ⟨fun h => h.1, fun h => hpassed.times_iff.mpr ⟨h, rfl⟩⟩

/-- One call, seen from the users of the accelerometer. -/
theorem usage_step (hs : s.Reliable) {c : Call} (hc : c.Proper) :
    (step s c).Reliable ∧ (step s c).usage = c.usage s s.usage := by
  cases c with
  | start r => exact usage_start hs hc
  | stop source streaming => exact usage_stop hs source streaming
  | timeout source streaming =>
    rw [Call.usage]
    by_cases hactive : (s.timeouts source streaming).isSome = true
    · have hstep : step s (.timeout source streaming) =
          (setTimeout source streaming none (stop source streaming s).2).2 := by
        rw [step, exec, timeout, Proc.get_bind_apply, Proc.when_pos hactive]
        rfl
      rw [if_pos hactive, hstep]
      exact usage_stop hs source streaming
    · rw [if_neg hactive]
      have hstep : step s (.timeout source streaming) = s := by
        rw [step, exec, timeout, Proc.get_bind_apply, Proc.when_neg hactive]
        rfl
      rw [hstep]
      exact ⟨hs, rfl⟩
  | selftest fires =>
    exact step_of_simulates hs (((simulates_onAccel (Accel.simulates_selftest fires)).bind
      fun _ => Proc.Simulates.pure ()).congr fun _ => rfl)

end Calls

end OpenBadge.Sampling
