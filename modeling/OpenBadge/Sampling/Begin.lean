import OpenBadge.Sampling.Frame

/-!
# The start functions and their timeouts

A start function ends with `timeout_start`, unless it returned early or ignored the
request. What it does before is the same whether or not a timeout has run out.
`timeout_start` then goes through the registered timeouts and ends those that have no
time left.
-/

namespace OpenBadge.Sampling

open OpenBadge.Lib

/-! ## Up to the timeout -/

/-- `startSampling` up to `timeout_start`, and whether it gets there. -/
def beginSampling (source : Source) (timers : List (Timer × Nat)) (setup : M Unit)
    (changed streaming : Bool) : M Bool := do
  let s ← Proc.get
  match streaming with
  | false =>
    Proc.branch (s.configuration source false = false ∨ changed)
      (do
        stopTimers timers
        setup
        startTimers timers
        setBit source false true
        pure true)
      (pure false)
  | true => do
    Proc.branch (s.configuration source false ∧ changed)
      (do
        stopTimers timers
        setup
        startTimers timers)
      (Proc.when (s.configuration source false = false) do
        stopTimers timers
        startTimers timers)
    setBit source true true
    pure true

def beginInterrupt (r : InterruptRequest) : M Bool := do
  let s ← Proc.get
  Proc.when (s.Off .accelerometer) do
    onAccel (Accel.setFullScale .g4)
    onAccel (Accel.setDatarate .hz10)
    onAccel (Accel.setOperatingMode .lowPower)
  onAccel (Accel.setMotionInterruptParameters r.thresholdMg r.minimalDurationMs)
  onAccel (Accel.setInterruptHandler (some .samplingAccelerometerInterruptCallback))
  onAccel (Accel.setInterrupt .motionInterrupt)
  Proc.modify fun s => { s with accelerometerInterruptIgnoreDurationMs := r.ignoreDurationMs }
  Proc.when (r.streaming = false) setupAccelerometerInterruptChunk
  setBit .accelerometerInterrupt r.streaming true
  pure true

/-- A start function up to `timeout_start`. -/
def begin : Request → M Bool
  | .accelerometer r => do
    onAccel (Accel.setFullScale r.accelerometerFullScale)
    onAccel (Accel.setDatarate r.accelerometerDatarate)
    onAccel (Accel.setOperatingMode r.accelerometerOperatingMode)
    let s ← Proc.get
    Proc.modify fun s => { s with accelerometerParameters := s.accelerometerParameters.update r }
    beginSampling .accelerometer (accelerometerTimers r.fifoSamplingPeriodMs)
      setupAccelerometerChunk (s.accelerometerParameters.changed r) r.streaming
  | .accelerometerInterrupt r => beginInterrupt r
  | .battery r => do
    let s ← Proc.get
    Proc.modify fun s => { s with batteryParameters := s.batteryParameters.update r }
    beginSampling .battery (batteryTimers r.periodMs) setupBatteryChunk
      (s.batteryParameters.changed r) r.streaming
  | .microphone r => do
    let s ← Proc.get
    Proc.modify fun s => { s with microphoneParameters := s.microphoneParameters.update r }
    beginSampling .microphone (microphoneTimers r.periodMs) setupMicrophoneChunk
      (s.microphoneParameters.changed r) r.streaming
  | .scan r => do
    let s ← Proc.get
    Proc.modify fun s => { s with scanParameters := s.scanParameters.update r }
    beginSampling .scan (scanTimers r.periodSeconds) (pure ()) (s.scanParameters.changed r)
      r.streaming

namespace Request

def source : Request → Source
  | .accelerometer _ => .accelerometer
  | .accelerometerInterrupt _ => .accelerometerInterrupt
  | .battery _ => .battery
  | .microphone _ => .microphone
  | .scan _ => .scan

def streaming : Request → Bool
  | .accelerometer r => r.streaming
  | .accelerometerInterrupt r => r.streaming
  | .battery r => r.streaming
  | .microphone r => r.streaming
  | .scan r => r.streaming

def timeoutMs : Request → UInt32
  | .accelerometer r => r.timeoutMs
  | .accelerometerInterrupt r => r.timeoutMs
  | .battery r => r.timeoutMs
  | .microphone r => r.timeoutMs
  | .scan r => r.timeoutMs

end Request

theorem startSampling_eq (source : Source) (timers : List (Timer × Nat)) (setup : M Unit)
    (timeoutMs : UInt32) (changed streaming : Bool) :
    startSampling source timers setup timeoutMs changed streaming =
      beginSampling source timers setup changed streaming >>= fun go =>
        Proc.when (go = true) (timeoutStart source streaming timeoutMs) := by
  funext s
  rw [startSampling, beginSampling, Proc.bind_assoc, Proc.get_bind_apply, Proc.get_bind_apply]
  cases streaming with
  | false =>
    dsimp only
    by_cases hrestart : s.configuration source false = false ∨ changed = true
    · rw [Proc.when_pos hrestart, Proc.branch_pos hrestart]
      simp only [Proc.bind_assoc]
      rfl
    · rw [Proc.when_neg hrestart, Proc.branch_neg hrestart]
      rfl
  | true =>
    dsimp only
    simp only [Proc.bind_assoc]
    rfl

section Frame

variable {P : State → Prop} {source : Source} {timers : List (Timer × Nat)} {setup : M Unit}

theorem keeps_beginSampling_of (hstop : ∀ entry ∈ timers, Proc.Keeps P (appTimerStop entry.1))
    (hstart : ∀ entry ∈ timers, Proc.Keeps P (appTimerStart entry.1 entry.2))
    (hsetup : Proc.Keeps P setup) {changed streaming : Bool}
    (hbit : Proc.Keeps P (setBit source streaming true)) :
    Proc.Keeps P (beginSampling source timers setup changed streaming) := by
  have hrestart := (keeps_stopTimers_of hstop).bind fun _ => hsetup.bind fun _ =>
    keeps_startTimers_of hstart
  refine Proc.Keeps.bind (fun _ hs => hs) fun s => ?_
  cases streaming with
  | false =>
    dsimp only
    by_cases hb : s.configuration source false = false ∨ changed = true
    · rw [Proc.branch_pos hb]
      refine (keeps_stopTimers_of hstop).bind fun _ => hsetup.bind fun _ => ?_
      exact (keeps_startTimers_of hstart).bind fun _ => hbit.bind fun _ => Proc.Keeps.pure _ _
    · rw [Proc.branch_neg hb]
      exact Proc.Keeps.pure _ _
  | true =>
    refine Proc.Keeps.bind ?_ fun _ => hbit.bind fun _ => Proc.Keeps.pure _ _
    by_cases hb : s.configuration source false = true ∧ changed = true
    · rw [Proc.branch_pos hb]
      exact hrestart
    · rw [Proc.branch_neg hb]
      exact Proc.Keeps.when fun _ =>
        (keeps_stopTimers_of hstop).bind fun _ => keeps_startTimers_of hstart

theorem keeps_startSampling_of (hstop : ∀ entry ∈ timers, Proc.Keeps P (appTimerStop entry.1))
    (hstart : ∀ entry ∈ timers, Proc.Keeps P (appTimerStart entry.1 entry.2))
    (hsetup : Proc.Keeps P setup) {timeoutMs : UInt32} {changed streaming : Bool}
    (hbit : Proc.Keeps P (setBit source streaming true))
    (htimeout : Proc.Keeps P (timeoutStart source streaming timeoutMs)) :
    Proc.Keeps P (startSampling source timers setup timeoutMs changed streaming) := by
  rw [startSampling_eq]
  exact (keeps_beginSampling_of hstop hstart hsetup hbit).bind fun _ =>
    Proc.Keeps.when fun _ => htimeout

end Frame

/-- A start is what comes before its timeout, and the timeout. -/
theorem start_eq (r : Request) :
    start r = begin r >>= fun go =>
      Proc.when (go = true) (timeoutStart r.source r.streaming r.timeoutMs) := by
  cases r with
  | accelerometer r =>
    rw [start, startAccelerometer, begin]
    simp only [startSampling_eq, Proc.bind_assoc]
    rfl
  | accelerometerInterrupt r =>
    obtain ⟨timeoutMs, thresholdMg, minimalDurationMs, ignoreDurationMs, streaming⟩ := r
    rw [start, startAccelerometerInterrupt, begin, beginInterrupt]
    cases streaming with
    | false =>
      simp only [Proc.bind_assoc]
      rfl
    | true =>
      simp only [Proc.bind_assoc]
      rfl
  | battery r =>
    rw [start, startBattery, begin]
    simp only [startSampling_eq, Proc.bind_assoc]
    rfl
  | microphone r =>
    rw [start, startMicrophone, begin]
    simp only [startSampling_eq, Proc.bind_assoc]
    rfl
  | scan r =>
    rw [start, startScan, begin]
    simp only [startSampling_eq, Proc.bind_assoc]
    rfl

section Outcome

variable {r : Request} {s t : State}

theorem start_of_error {e : RetCode} (h : begin r s = (.error e, t)) :
    start r s = (.error e, t) := by
  rw [start_eq]
  exact Proc.bind_error h _

theorem start_of_ignored (h : begin r s = (.ok false, t)) : start r s = (.ok (), t) := by
  rw [start_eq, Proc.bind_ok h]
  rfl

theorem start_of_ok (h : begin r s = (.ok true, t)) :
    start r s = (.ok (), (timeoutStart r.source r.streaming r.timeoutMs t).2) := by
  rw [start_eq, Proc.bind_ok h]
  exact Proc.eq_of_fst (timeoutStart_ok ..)

end Outcome

/-! ## The timeouts that have run out -/

/-- The timeout is active and has no time left. -/
def State.Expired (s : State) (ranOut : Source → Bool → Bool) (source : Source)
    (streaming : Bool) : Prop :=
  (s.timeouts source streaming).isSome = true ∧ ranOut source streaming = true

instance (s : State) (ranOut : Source → Bool → Bool) (source : Source) (streaming : Bool) :
    Decidable (s.Expired ranOut source streaming) := inferInstanceAs (Decidable (_ ∧ _))

/-- One pass of the loop in `adapt_remaining_ms`. -/
def lapse (ranOut : Source → Bool → Bool) (s : State) (entry : Source × Bool) : State :=
  (Proc.when (ranOut entry.1 entry.2) (timeout entry.1 entry.2) s).2

section Lapse

variable {s : State} {ranOut : Source → Bool → Bool} {source : Source} {streaming : Bool}

theorem lapse_of_not_expired (h : ¬ s.Expired ranOut source streaming) :
    lapse ranOut s (source, streaming) = s := by
  rw [lapse]
  by_cases hout : ranOut source streaming = true
  · rw [Proc.when_pos hout, timeout, Proc.get_bind_apply, Proc.when_neg fun h' => h ⟨h', hout⟩]
    rfl
  · rw [Proc.when_neg hout]
    rfl

theorem lapse_of_expired (h : s.Expired ranOut source streaming) :
    lapse ranOut s (source, streaming) =
      (setTimeout source streaming none (stop source streaming s).2).2 := by
  rw [lapse, Proc.when_pos h.2, timeout, Proc.get_bind_apply, Proc.when_pos h.1]
  rfl

theorem adaptRemainingMs_snd (ranOut : Source → Bool → Bool) (entries : List (Source × Bool))
    (s : State) : (adaptRemainingMs ranOut entries s).2 = entries.foldl (lapse ranOut) s := by
  induction entries generalizing s with
  | nil => rfl
  | cons entry entries ih =>
    have hok : Proc.when (ranOut entry.1 entry.2 = true) (timeout entry.1 entry.2) s =
        (.ok (), lapse ranOut s entry) := by
      apply Proc.eq_of_fst
      by_cases hout : ranOut entry.1 entry.2 = true
      · rw [Proc.when_pos hout]
        exact timeout_ok ..
      · rw [Proc.when_neg hout]
        rfl
    rw [adaptRemainingMs, Proc.bind_ok hok, ih]
    rfl

/-- The state after `timeout_start`. -/
theorem timeoutStart_snd {timeoutMs : UInt32} (h : timeoutMs ≠ 0) (source : Source)
    (streaming : Bool) (s : State) :
    (timeoutStart source streaming timeoutMs s).2 =
      (setTimeout source streaming (some timeoutMs) (registeredTimeouts.foldl
        (lapse (s.ranOut 0)) { s with ranOut := fun i => s.ranOut (i + 1) })).2 := by
  rw [timeoutStart, Proc.branch_neg h, Proc.get_bind_apply, Proc.modify_bind_apply,
    Proc.bind_ok (Proc.eq_of_fst (adaptRemainingMs_ok ..)), adaptRemainingMs_snd]

theorem timeoutStart_zero (source : Source) (streaming : Bool) :
    timeoutStart source streaming 0 = setTimeout source streaming none := by
  rw [timeoutStart, Proc.branch_pos rfl]

end Lapse

end OpenBadge.Sampling
