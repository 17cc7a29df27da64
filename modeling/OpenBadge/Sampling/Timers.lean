import OpenBadge.Lib.Run
import OpenBadge.Sampling.Begin
import OpenBadge.Sampling.Driver

/-!
# The configuration bits and the sampling timers

A start function stops the timers of its source before it starts them with the new
period. When `app_timer_start` then fails, the function returns with the timers
stopped and with the bits and the parameters as if they ran. And when it gets to
`timeout_start`, the former timeouts of the source may have run out: their handlers
then stop what has just been started. The timers match the bits after every call, and
run after every successful start, exactly if neither happens.
-/

namespace OpenBadge.Sampling

open OpenBadge.Lib

/-- The sampling timers of a source with the ticks of its recorded parameters. -/
def State.recordedTimers (s : State) : Source → List (Timer × Nat)
  | .accelerometer => accelerometerTimers s.accelerometerParameters.fifoSamplingPeriodMs
  | .accelerometerInterrupt => []
  | .battery => batteryTimers s.batteryParameters.periodMs
  | .microphone => microphoneTimers s.microphoneParameters.periodMs
  | .scan => scanTimers s.scanParameters.periodSeconds

/-- Every sampling timer of the source runs exactly if a bit of the source is set. -/
def Matches (source : Source) (s : State) : Prop :=
  ∀ entry ∈ s.recordedTimers source, (s.timers entry.1).isSome = true ↔ ¬ s.Off source

def RunsAsRecorded (source : Source) (s : State) : Prop :=
  ∀ entry ∈ s.recordedTimers source, s.timers entry.1 = some entry.2

/-- `c` is a call of `sampling_start_X` for the source. -/
def Call.Starts (source : Source) : Call → Prop
  | .start r => r.source = source
  | _ => False

/-- After the call the timers match the bits, and they run with the recorded period
if a start function returned success. -/
def Kept (source : Source) (s : State) (c : Call) : Prop :=
  Matches source (step s c) ∧
    (c.Starts source → (exec c s).1 = .ok () → RunsAsRecorded source (step s c))

/-! ## When it is kept -/

/-- The timers a start function starts. -/
def Request.timers : Request → List (Timer × Nat)
  | .accelerometer r => accelerometerTimers r.fifoSamplingPeriodMs
  | .accelerometerInterrupt _ => []
  | .battery r => batteryTimers r.periodMs
  | .microphone r => microphoneTimers r.periodMs
  | .scan r => scanTimers r.periodSeconds

/-- A start of the interrupt is never ignored. -/
def Request.changed (s : State) : Request → Bool
  | .accelerometer r => s.accelerometerParameters.changed r
  | .accelerometerInterrupt _ => true
  | .battery r => s.batteryParameters.changed r
  | .microphone r => s.microphoneParameters.changed r
  | .scan r => s.scanParameters.changed r

/-- The SPI accesses a start function makes before it touches the timers. -/
def Request.accesses : Request → Nat
  | .accelerometer _ => 10
  | _ => 0

/-- How many timers of the list are started before one is refused. -/
def accepted : List (Timer × Nat) → (Nat → Bool) → Nat
  | [], _ => 0
  | (_, ticks) :: rest, faults =>
    if ticks < minTimeoutTicks ∨ faults 0 = true then 0
    else accepted rest (fun i => faults (i + 1)) + 1

/-- The start function restarts its timers. -/
def Request.Restarts (s : State) (r : Request) : Prop :=
  s.configuration r.source false = false ∨ r.changed s = true

instance (s : State) (r : Request) : Decidable (r.Restarts s) :=
  inferInstanceAs (Decidable (_ ∨ _))

/-- If the start function gets to its timers and restarts them, they all start, or
the first is refused and no bit is set. -/
def StartHolds (s : State) (r : Request) : Prop :=
  (∀ i < r.accesses, s.accel.spi i = none) → r.Restarts s →
    accepted r.timers s.timerFaults = r.timers.length ∨
      (accepted r.timers s.timerFaults = 0 ∧ s.Off r.source)

/-- Unless an SPI access fails, the start function gets to `timeout_start` with a time:
it is not ignored and no timer is refused. -/
def Request.Times (s : State) (r : Request) : Prop :=
  r.timeoutMs ≠ 0 ∧ (r.streaming = true ∨ r.Restarts s) ∧
    (r.Restarts s → accepted r.timers s.timerFaults = r.timers.length)

instance (s : State) (r : Request) : Decidable (r.Times s) := inferInstanceAs (Decidable (_ ∧ _))

/-- A bit of the source is set, and the timeouts of all its set bits have run out. -/
def State.TimedOut (s : State) (ranOut : Source → Bool → Bool) (source : Source) : Prop :=
  ¬ s.Off source ∧ ∀ streaming, s.configuration source streaming = true →
    s.Expired ranOut source streaming

instance (s : State) (ranOut : Source → Bool → Bool) (source : Source) :
    Decidable (s.TimedOut ranOut source) := inferInstanceAs (Decidable (_ ∧ _))

/-- The state with the bit of the start set. -/
def Request.marked (s : State) (r : Request) : State :=
  (setBit r.source r.streaming true s).2

/-- If all timeouts of the source have run out when the start function gets to
`timeout_start`, then it is a start of another source, and no SPI access of a power-down
fails. -/
def LapseHolds (source : Source) (s : State) (r : Request) : Prop :=
  source ≠ .accelerometerInterrupt → (∀ i < r.accesses, s.accel.spi i = none) → r.Times s →
    (r.marked s).TimedOut (s.ranOut 0) source →
      r.source ≠ source ∧ (source = .accelerometer → (r.marked s).Off .accelerometerInterrupt →
        ∀ i < 6, s.accel.spi i = none)

/-- If the stop function powers the accelerometer down while its bit is set, no SPI
access fails. -/
def StopHolds (s : State) (source : Source) (streaming : Bool) : Prop :=
  source = .accelerometer → s.configuration source streaming = true →
    s.configuration source (!streaming) = false → s.Off .accelerometerInterrupt →
      ∀ i < 6, s.accel.spi i = none

def Holds (source : Source) (s : State) : Call → Prop
  | .start r => (r.source = source → StartHolds s r) ∧ LapseHolds source s r
  | .stop other streaming => other = source → StopHolds s other streaming
  | .timeout other streaming =>
    other = source → (s.timeouts other streaming).isSome = true → StopHolds s other streaming
  | .selftest _ => True

/-! ## Calls for another source -/

def Timer.source : Timer → Source
  | .accelerometerFifo => .accelerometer
  | .accelerometerInterruptReset => .accelerometerInterrupt
  | .battery => .battery
  | .microphone | .microphoneAggregated => .microphone
  | .scan => .scan

theorem source_of_mem_recordedTimers {s : State} {source : Source} {entry : Timer × Nat}
    (h : entry ∈ s.recordedTimers source) : entry.1.source = source := by
  cases source <;>
    simp only [State.recordedTimers, accelerometerTimers, batteryTimers, microphoneTimers,
      scanTimers, List.mem_cons, List.not_mem_nil, or_false] at h
  · rw [h]
    rfl
  · rw [h]
    rfl
  · rcases h with h | h
    · rw [h]
      rfl
    · rw [h]
      rfl
  · rw [h]
    rfl

theorem source_of_mem_timers {r : Request} {entry : Timer × Nat} (h : entry ∈ r.timers) :
    entry.1.source = r.source := by
  cases r <;>
    simp only [Request.timers, accelerometerTimers, batteryTimers, microphoneTimers,
      scanTimers, List.mem_cons, List.not_mem_nil, or_false] at h
  · rw [h]
    rfl
  · rw [h]
    rfl
  · rcases h with h | h
    · rw [h]
      rfl
    · rw [h]
      rfl
  · rw [h]
    rfl

/-- `t` differs from `s` in nothing that concerns the timers of the source. -/
structure SameFor (source : Source) (s t : State) : Prop where
  timers : ∀ timer, timer.source = source → t.timers timer = s.timers timer
  configuration : t.configuration source = s.configuration source
  timeouts : t.timeouts source = s.timeouts source
  recorded : t.recordedTimers source = s.recordedTimers source

/-- The invariant of a run in which the timers match the bits after every call. -/
structure Good (source : Source) (s : State) : Prop where
  matches_bits : Matches source s
  recorded : ¬ s.Off source → RunsAsRecorded source s

section Frame

variable {source other : Source} {s t : State}

theorem SameFor.refl (source : Source) (s : State) : SameFor source s s :=
  ⟨fun _ _ => rfl, rfl, rfl, rfl⟩

theorem SameFor.trans {u : State} (h : SameFor source s t) (h' : SameFor source t u) :
    SameFor source s u :=
  ⟨fun timer ht => (h'.timers timer ht).trans (h.timers timer ht),
    h'.configuration.trans h.configuration, h'.timeouts.trans h.timeouts,
    h'.recorded.trans h.recorded⟩

theorem SameFor.off (h : SameFor source s t) : t.Off source ↔ s.Off source := by
  rw [State.Off, State.Off, h.configuration]

theorem SameFor.good (h : SameFor source s t) (hs : Good source s) : Good source t := by
  constructor
  · intro entry he
    rw [h.recorded] at he
    rw [h.timers entry.1 (source_of_mem_recordedTimers he), h.off]
    exact hs.matches_bits entry he
  · intro hoff entry he
    rw [h.recorded] at he
    rw [h.timers entry.1 (source_of_mem_recordedTimers he)]
    exact hs.recorded (fun h' => hoff (h.off.mpr h')) entry he

theorem keeps_get (I : State → Prop) : Proc.Keeps I (Proc.get : M State) := fun _ h => h

theorem keeps_onAccel {α : Type} (x : Accel.M α) :
    Proc.Keeps (SameFor source s) (onAccel x) := by
  intro t h
  refine ⟨h.timers, h.configuration, h.timeouts, Eq.trans ?_ h.recorded⟩
  cases source <;> rfl

theorem keeps_appTimerStop {timer : Timer} (hne : timer.source ≠ source) :
    Proc.Keeps (SameFor source s) (appTimerStop timer) := by
  intro t h
  refine ⟨fun timer' h' => ?_, h.configuration, h.timeouts, Eq.trans ?_ h.recorded⟩
  · have hne' : timer' ≠ timer := fun he => hne (he ▸ h')
    exact (Function.update_of_ne hne' _ _).trans (h.timers timer' h')
  · cases source <;> rfl

theorem keeps_appTimerStart {timer : Timer} (hne : timer.source ≠ source) (ticks : Nat) :
    Proc.Keeps (SameFor source s) (appTimerStart timer ticks) := by
  intro t h
  unfold appTimerStart
  have hfaults : ∀ faults, SameFor source s { t with timerFaults := faults } := fun faults =>
    ⟨h.timers, h.configuration, h.timeouts, Eq.trans (by cases source <;> rfl) h.recorded⟩
  dsimp only
  split
  · exact hfaults _
  split
  · exact hfaults _
  split
  · exact hfaults _
  · refine ⟨fun timer' h' => ?_, h.configuration, h.timeouts, Eq.trans ?_ h.recorded⟩
    · have hne' : timer' ≠ timer := fun he => hne (he ▸ h')
      exact (Function.update_of_ne hne' _ _).trans (h.timers timer' h')
    · cases source <;> rfl

theorem keeps_setBit (hne : other ≠ source) (streaming value : Bool) :
    Proc.Keeps (SameFor source s) (setBit other streaming value) := by
  intro t h
  refine ⟨h.timers, ?_, h.timeouts, Eq.trans ?_ h.recorded⟩
  · exact (Function.update_of_ne (Ne.symm hne) _ _).trans h.configuration
  · cases source <;> rfl

theorem keeps_setTimeout (hne : other ≠ source) (streaming : Bool) (timeoutMs : Option UInt32) :
    Proc.Keeps (SameFor source s) (setTimeout other streaming timeoutMs) := by
  intro t h
  refine ⟨h.timers, h.configuration, ?_, Eq.trans ?_ h.recorded⟩
  · exact (Function.update_of_ne (Ne.symm hne) _ _).trans h.timeouts
  · cases source <;> rfl

theorem sameFor_of_chunks (t : State) (fifos : Source → ChunkFifo.State)
    (chunks : Source → Option Nat) (aggregated count : UInt32) (h : SameFor source s t) :
    SameFor source s { t with
      fifos, chunks, microphoneAggregated := aggregated, microphoneAggregatedCount := count } := by
  refine ⟨h.timers, h.configuration, h.timeouts, Eq.trans ?_ h.recorded⟩
  cases source <;> rfl

theorem keeps_beginSampling {timers : List (Timer × Nat)} {setup : M Unit} (hne : other ≠ source)
    (h : ∀ entry ∈ timers, entry.1.source ≠ source)
    (hsetup : Proc.Keeps (SameFor source s) setup) (changed streaming : Bool) :
    Proc.Keeps (SameFor source s) (beginSampling other timers setup changed streaming) :=
  keeps_beginSampling_of (fun entry he => keeps_appTimerStop (h entry he))
    (fun entry he => keeps_appTimerStart (h entry he) _) hsetup (keeps_setBit hne _ _)

theorem keeps_stopSampling {timers : List (Timer × Nat)} {release : M Unit} (hne : other ≠ source)
    (h : ∀ entry ∈ timers, entry.1.source ≠ source)
    (hrelease : Proc.Keeps (SameFor source s) release) (streaming : Bool) :
    Proc.Keeps (SameFor source s) (stopSampling other timers release streaming) :=
  keeps_stopSampling_of (fun entry he => keeps_appTimerStop (h entry he)) hrelease
    (keeps_setBit hne _ _)

theorem keeps_stop (hne : other ≠ source) (streaming : Bool) :
    Proc.Keeps (SameFor source s) (stop other streaming) := by
  cases other with
  | accelerometer =>
    refine Proc.Keeps.bind (keeps_get _) fun u => keeps_stopSampling hne ?_ ?_ streaming
    · intro entry he
      rw [List.mem_singleton.mp he]
      exact hne
    · exact Proc.Keeps.when fun _ => keeps_onAccel _
  | accelerometerInterrupt =>
    refine Proc.Keeps.bind (keeps_get _) fun u =>
      keeps_stopSampling hne (fun _ he => absurd he (List.not_mem_nil)) ?_ streaming
    exact (keeps_onAccel _).bind fun _ => Proc.Keeps.when fun _ => keeps_onAccel _
  | battery =>
    refine keeps_stopSampling hne ?_ (Proc.Keeps.pure _ ()) streaming
    intro entry he
    rw [List.mem_singleton.mp he]
    exact hne
  | microphone =>
    refine keeps_stopSampling hne ?_ (Proc.Keeps.pure _ ()) streaming
    intro entry he
    rcases List.mem_cons.mp he with rfl | he
    · exact hne
    · rw [List.mem_singleton.mp he]
      exact hne
  | scan =>
    refine keeps_stopSampling hne ?_ ?_ streaming
    · intro entry he
      rw [List.mem_singleton.mp he]
      exact hne
    · intro t h
      refine ⟨h.timers, h.configuration, h.timeouts, Eq.trans ?_ h.recorded⟩
      cases source <;> rfl

theorem keeps_setupAccelerometerInterruptChunk :
    Proc.Keeps (SameFor source s) setupAccelerometerInterruptChunk :=
  (keeps_openChunk_of sameFor_of_chunks _).bind fun _ =>
    (Proc.Keeps.attempt (keeps_onAccel _)).bind fun _ => Proc.Keeps.pure _ ()

theorem keeps_beginInterrupt (hne : .accelerometerInterrupt ≠ source) (r : InterruptRequest) :
    Proc.Keeps (SameFor source s) (beginInterrupt r) := by
  have hignore : Proc.Keeps (SameFor source s) (Proc.modify fun u =>
      { u with accelerometerInterruptIgnoreDurationMs := r.ignoreDurationMs } : M Unit) := by
    intro t h
    refine ⟨h.timers, h.configuration, h.timeouts, Eq.trans ?_ h.recorded⟩
    cases source <;> rfl
  refine (keeps_get _).bind fun _ => Proc.Keeps.bind (Proc.Keeps.when fun _ => ?_) fun _ =>
    (keeps_onAccel _).bind fun _ => (keeps_onAccel _).bind fun _ => (keeps_onAccel _).bind
    fun _ => hignore.bind fun _ => ?_
  · exact (keeps_onAccel _).bind fun _ => (keeps_onAccel _).bind fun _ => keeps_onAccel _
  · exact (Proc.Keeps.when fun _ => keeps_setupAccelerometerInterruptChunk).bind fun _ =>
      (keeps_setBit hne _ _).bind fun _ => Proc.Keeps.pure _ _

theorem keeps_begin {r : Request} (hne : r.source ≠ source) :
    Proc.Keeps (SameFor source s) (begin r) := by
  have htimers : ∀ entry ∈ r.timers, entry.1.source ≠ source :=
    fun entry he => source_of_mem_timers he ▸ hne
  cases r with
  | accelerometer r =>
    have hrecord : Proc.Keeps (SameFor source s) (Proc.modify fun u =>
        { u with accelerometerParameters := u.accelerometerParameters.update r } : M Unit) := by
      intro t h
      refine ⟨h.timers, h.configuration, h.timeouts, Eq.trans ?_ h.recorded⟩
      cases source with
      | accelerometer => exact absurd rfl hne
      | _ => rfl
    exact (keeps_onAccel _).bind fun _ => (keeps_onAccel _).bind fun _ =>
      (keeps_onAccel _).bind fun _ => (keeps_get _).bind fun _ => hrecord.bind fun _ =>
      keeps_beginSampling hne htimers (keeps_setupAccelerometerChunk_of sameFor_of_chunks) _ _
  | accelerometerInterrupt r => exact keeps_beginInterrupt hne r
  | battery r =>
    have hrecord : Proc.Keeps (SameFor source s) (Proc.modify fun u =>
        { u with batteryParameters := u.batteryParameters.update r } : M Unit) := by
      intro t h
      refine ⟨h.timers, h.configuration, h.timeouts, Eq.trans ?_ h.recorded⟩
      cases source with
      | battery => exact absurd rfl hne
      | _ => rfl
    exact (keeps_get _).bind fun _ => hrecord.bind fun _ =>
      keeps_beginSampling hne htimers (keeps_openChunk_of sameFor_of_chunks _) _ _
  | microphone r =>
    have hrecord : Proc.Keeps (SameFor source s) (Proc.modify fun u =>
        { u with microphoneParameters := u.microphoneParameters.update r } : M Unit) := by
      intro t h
      refine ⟨h.timers, h.configuration, h.timeouts, Eq.trans ?_ h.recorded⟩
      cases source with
      | microphone => exact absurd rfl hne
      | _ => rfl
    exact (keeps_get _).bind fun _ => hrecord.bind fun _ =>
      keeps_beginSampling hne htimers (keeps_setupMicrophoneChunk_of sameFor_of_chunks) _ _
  | scan r =>
    have hrecord : Proc.Keeps (SameFor source s) (Proc.modify fun u =>
        { u with scanParameters := u.scanParameters.update r } : M Unit) := by
      intro t h
      refine ⟨h.timers, h.configuration, h.timeouts, Eq.trans ?_ h.recorded⟩
      cases source with
      | scan => exact absurd rfl hne
      | _ => rfl
    exact (keeps_get _).bind fun _ => hrecord.bind fun _ =>
      keeps_beginSampling hne htimers (Proc.Keeps.pure _ ()) _ _

theorem keeps_timeout (hne : other ≠ source) (streaming : Bool) :
    Proc.Keeps (SameFor source s) (timeout other streaming) :=
  Proc.Keeps.bind (keeps_get _) fun _ => Proc.Keeps.when fun _ =>
    (keeps_stop hne streaming).attempt.bind fun _ => keeps_setTimeout hne _ _

end Frame

/-! ## Starting the timers of a source -/

section Restart

variable {s : State} {timers : List (Timer × Nat)}

theorem accepted_le (timers : List (Timer × Nat)) (faults : Nat → Bool) :
    accepted timers faults ≤ timers.length := by
  induction timers generalizing faults with
  | nil => exact Nat.le_refl 0
  | cons entry timers ih =>
    rw [accepted]
    split
    · exact Nat.zero_le _
    · exact Nat.succ_le_succ (ih _)

theorem stopTimers_spec (s : State) (timers : List (Timer × Nat)) :
    ∃ timers', stopTimers timers s = (.ok (), { s with timers := timers' }) ∧
      ∀ timer, timers' timer =
        if timer ∈ timers.map Prod.fst then none else s.timers timer := by
  induction timers generalizing s with
  | nil => exact ⟨s.timers, rfl, fun timer => rfl⟩
  | cons entry timers ih =>
    obtain ⟨timers', h, ht⟩ :=
      ih { s with timers := Function.update s.timers entry.1 none }
    refine ⟨timers', h, fun timer => ?_⟩
    rw [ht, List.map_cons]
    by_cases hm : timer ∈ timers.map Prod.fst
    · rw [if_pos hm, if_pos (List.mem_cons_of_mem _ hm)]
    · rw [if_neg hm]
      by_cases he : timer = entry.1
      · rw [he, if_pos (List.mem_cons_self ..)]
        exact Function.update_self ..
      · rw [if_neg fun h => (List.mem_cons.mp h).elim he hm]
        exact Function.update_of_ne he _ _

/-- The timers in front of the first one that is refused run, the others do not. -/
theorem startTimers_spec (hnodup : (timers.map Prod.fst).Nodup)
    (hhalted : ∀ entry ∈ timers, s.timers entry.1 = none) :
    ∃ r timers' faults, startTimers timers s =
        (r, { s with timers := timers', timerFaults := faults }) ∧
      (r = .ok () ↔ accepted timers s.timerFaults = timers.length) ∧
      (∀ i entry, timers[i]? = some entry →
        timers' entry.1 = if i < accepted timers s.timerFaults then some entry.2 else none) ∧
      ∀ timer, timer ∉ timers.map Prod.fst → timers' timer = s.timers timer := by
  induction timers generalizing s with
  | nil =>
    refine ⟨.ok (), s.timers, s.timerFaults, rfl, ⟨fun _ => rfl, fun _ => rfl⟩, ?_, fun _ _ => rfl⟩
    intro i entry h
    cases h
  | cons entry timers ih =>
    obtain ⟨timer, ticks⟩ := entry
    rw [List.map_cons, List.nodup_cons] at hnodup
    by_cases hr : ticks < minTimeoutTicks ∨ s.timerFaults 0 = true
    · have herr : ∃ e, appTimerStart timer ticks s =
          (.error e, { s with timerFaults := fun i => s.timerFaults (i + 1) }) := by
        by_cases hticks : ticks < minTimeoutTicks
        · exact ⟨.invalidParam, if_pos hticks⟩
        · refine ⟨.noMem, (if_neg hticks).trans (if_pos ?_)⟩
          exact hr.resolve_left hticks
      obtain ⟨e, he⟩ := herr
      have hacc : accepted ((timer, ticks) :: timers) s.timerFaults = 0 := if_pos hr
      refine ⟨.error e, s.timers, fun i => s.timerFaults (i + 1), Proc.bind_error he _, ?_, ?_,
        fun _ _ => rfl⟩
      · rw [hacc]
        exact ⟨(fun h => by cases h), (fun h => by cases h)⟩
      · intro i entry h
        rw [hacc, if_neg (Nat.not_lt_zero i)]
        exact hhalted entry (List.mem_of_getElem? h)
    · rw [not_or] at hr
      let t : State :=
        { s with
          timers := Function.update s.timers timer (some ticks)
          timerFaults := fun i => s.timerFaults (i + 1) }
      have hok : appTimerStart timer ticks s = (.ok (), t) := by
        have hnone : ¬ (s.timers timer).isSome = true := by
          rw [hhalted (timer, ticks) (List.mem_cons_self ..)]
          exact Bool.false_ne_true
        exact (if_neg hr.1).trans ((if_neg hr.2).trans (if_neg hnone))
      have hacc : accepted ((timer, ticks) :: timers) s.timerFaults =
          accepted timers t.timerFaults + 1 := if_neg (not_or.mpr hr)
      have hother : ∀ timer', timer' ∈ timers.map Prod.fst → timer' ≠ timer :=
        fun timer' hm he => hnodup.1 (he ▸ hm)
      obtain ⟨r, timers', faults, hrun, hres, htimers, hrest⟩ := ih (s := t) hnodup.2 (by
        intro entry he
        refine (Function.update_of_ne (hother entry.1 (List.mem_map_of_mem he)) _ _).trans ?_
        exact hhalted entry (List.mem_cons_of_mem _ he))
      refine ⟨r, timers', faults, (Proc.bind_ok hok _).trans hrun, ?_, ?_, ?_⟩
      · rw [hres, hacc, List.length_cons, Nat.add_right_cancel_iff]
      · intro i entry h
        rw [hacc]
        cases i with
        | zero =>
          cases h
          rw [if_pos (Nat.succ_pos _), hrest timer hnodup.1]
          exact Function.update_self ..
        | succ i =>
          rw [htimers i entry h]
          simp only [Nat.add_lt_add_iff_right]
      · intro timer' hm
        rw [List.map_cons, List.mem_cons, not_or] at hm
        rw [hrest timer' hm.2]
        exact Function.update_of_ne hm.1 _ _

/-- A set-up of a chunk, which does nothing but open and fill it. -/
def Plain (setup : M Unit) : Prop :=
  ∀ s, ∃ fifos chunks aggregated count, setup s = (.ok (), { s with
    fifos, chunks, microphoneAggregated := aggregated, microphoneAggregatedCount := count })

theorem Plain.bind {x y : M Unit} (hx : Plain x) (hy : Plain y) : Plain (x >>= fun _ => y) := by
  intro s
  obtain ⟨fifos, chunks, aggregated, count, hs⟩ := hx s
  rw [Proc.bind_ok hs]
  exact hy _

theorem plain_openChunk (source : Source) : Plain (openChunk source) :=
  fun s => ⟨_, _, s.microphoneAggregated, s.microphoneAggregatedCount, rfl⟩

theorem plain_pure : Plain (pure ()) :=
  fun s => ⟨s.fifos, s.chunks, s.microphoneAggregated, s.microphoneAggregatedCount, rfl⟩

theorem plain_writeChunk (source : Source) (offset : Nat) (data : List UInt8) :
    Plain (writeChunk source offset data) := by
  intro s
  obtain ⟨fifos, ht⟩ := writeChunk_ok source offset data s
  exact ⟨fifos, s.chunks, s.microphoneAggregated, s.microphoneAggregatedCount, ht⟩

theorem plain_stampChunk (source : Source) : Plain (stampChunk source) :=
  fun s => plain_writeChunk source 0 _ s

theorem plain_setupAccelerometerChunk : Plain setupAccelerometerChunk :=
  (plain_openChunk _).bind ((plain_stampChunk _).bind (plain_writeChunk _ _ _))

theorem plain_setupMicrophoneChunk : Plain setupMicrophoneChunk := by
  have hfill : Plain (Proc.get >>= fun s => writeChunk .microphone microphoneSamplePeriod
      (littleEndian 2 s.microphoneParameters.periodMs.toNat) >>= fun _ =>
      writeChunk .microphone microphoneCount [0]) :=
    fun s => (plain_writeChunk _ _ _).bind (plain_writeChunk _ _ _) s
  have hclear : Plain (Proc.modify fun s =>
      { s with microphoneAggregated := 0, microphoneAggregatedCount := 0 }) :=
    fun s => ⟨s.fifos, s.chunks, 0, 0, rfl⟩
  exact hclear.bind ((plain_openChunk _).bind ((plain_stampChunk _).bind hfill))

theorem restart_spec {setup : M Unit} (hsetup : Plain setup)
    (hnodup : (timers.map Prod.fst).Nodup) (s : State) :
    ∃ r timers' timerFaults fifos chunks aggregated count,
      (stopTimers timers >>= fun _ => setup >>= fun _ => startTimers timers) s =
        (r, { s with
          timers := timers', timerFaults, fifos, chunks
          microphoneAggregated := aggregated, microphoneAggregatedCount := count }) ∧
      (r = .ok () ↔ accepted timers s.timerFaults = timers.length) ∧
      ∀ i entry, timers[i]? = some entry →
        timers' entry.1 = if i < accepted timers s.timerFaults then some entry.2 else none := by
  obtain ⟨stopped, hstop, hhalted⟩ := stopTimers_spec s timers
  obtain ⟨fifos, chunks, aggregated, count, hset⟩ := hsetup { s with timers := stopped }
  obtain ⟨r, timers', faults, hstart, hres, htimers, -⟩ :=
    startTimers_spec (s := { s with
        timers := stopped, fifos, chunks
        microphoneAggregated := aggregated, microphoneAggregatedCount := count }) hnodup (by
      intro entry he
      exact (hhalted entry.1).trans (if_pos (List.mem_map_of_mem he)))
  refine ⟨r, timers', faults, fifos, chunks, aggregated, count, ?_, hres, htimers⟩
  exact (Proc.bind_ok hstop _).trans ((Proc.bind_ok hset _).trans hstart)

/-- What `beginSampling` leaves alone. -/
structure Framed (s u : State) : Prop where
  accel : u.accel = s.accel
  timeouts : u.timeouts = s.timeouts
  ranOut : u.ranOut = s.ranOut
  recorded : ∀ other, u.recordedTimers other = s.recordedTimers other

/-- What a start function comes to between the recording of its parameters and
`timeout_start`. -/
structure Began (source : Source) (timers : List (Timer × Nat)) (changed streaming : Bool)
    (s : State) (r : Except RetCode Bool) (u : State) : Prop extends Framed s u where
  ignored : ¬ (s.configuration source false = false ∨ changed = true) →
    r = .ok streaming ∧ u.timers = s.timers
  started : (s.configuration source false = false ∨ changed = true) →
    accepted timers s.timerFaults = timers.length →
      r = .ok true ∧ ∀ entry ∈ timers, u.timers entry.1 = some entry.2
  refused : (s.configuration source false = false ∨ changed = true) →
    accepted timers s.timerFaults ≠ timers.length →
      (∃ e, r = .error e) ∧ u.configuration = s.configuration ∧
      ∀ i entry, timers[i]? = some entry →
        u.timers entry.1 = if i < accepted timers s.timerFaults then some entry.2 else none
  marked : ((s.configuration source false = false ∨ changed = true) →
    accepted timers s.timerFaults = timers.length) →
      u.configuration = (setBit source streaming true s).2.configuration

/-- A restart and, if the timers start, the bit. -/
theorem began_of_restart (source : Source) {setup : M Unit} (hsetup : Plain setup)
    (hnodup : (timers.map Prod.fst).Nodup) (streaming changed : Bool)
    (hrestart : s.configuration source false = false ∨ changed = true) :
    ∃ r u, ((stopTimers timers >>= fun _ => setup >>= fun _ => startTimers timers) >>= fun _ =>
        setBit source streaming true >>= fun _ => pure true) s = (r, u) ∧
      Began source timers changed streaming s r u := by
  obtain ⟨r, timers', faults, fifos, chunks, aggregated, count, hrun, hres, htimers⟩ :=
    restart_spec hsetup hnodup s
  have hrecorded : ∀ configuration other, State.recordedTimers { s with
      timers := timers', timerFaults := faults, fifos, chunks, configuration
      microphoneAggregated := aggregated, microphoneAggregatedCount := count } other =
      s.recordedTimers other := by
    intro configuration other
    cases other <;> rfl
  cases r with
  | error e =>
    have hacc : accepted timers s.timerFaults ≠ timers.length := fun h => by
      cases hres.mpr h
    refine ⟨.error e, _, Proc.bind_error hrun _, ⟨rfl, rfl, rfl, hrecorded _⟩, ?_, ?_, ?_, ?_⟩
    · exact fun h => absurd hrestart h
    · exact fun _ h => absurd h hacc
    · exact fun _ _ => ⟨⟨e, rfl⟩, rfl, htimers⟩
    · exact fun h => absurd (h hrestart) hacc
  | ok _ =>
    have hacc : accepted timers s.timerFaults = timers.length := hres.mp rfl
    refine ⟨.ok true, _, Proc.bind_ok hrun _, ⟨rfl, rfl, rfl, hrecorded _⟩, ?_, ?_, ?_, ?_⟩
    · exact fun h => absurd hrestart h
    · refine fun _ _ => ⟨rfl, fun entry he => ?_⟩
      obtain ⟨i, hi, hget⟩ := List.getElem_of_mem he
      have hi' : i < accepted timers s.timerFaults := hacc ▸ hi
      exact (htimers i entry (List.getElem?_eq_some_iff.mpr ⟨hi, hget⟩)).trans (if_pos hi')
    · exact fun _ h => absurd hacc h
    · exact fun _ => rfl

theorem beginSampling_spec (source : Source) {setup : M Unit} (hsetup : Plain setup)
    (hnodup : (timers.map Prod.fst).Nodup) (changed streaming : Bool) (s : State) :
    ∃ r u, beginSampling source timers setup changed streaming s = (r, u) ∧
      Began source timers changed streaming s r u := by
  by_cases hrestart : s.configuration source false = false ∨ changed = true
  · cases streaming with
    | false =>
      obtain ⟨r, u, h, hu⟩ := began_of_restart source hsetup hnodup false changed hrestart
      refine ⟨r, u, ?_, hu⟩
      rw [beginSampling, Proc.get_bind_apply]
      dsimp only
      rw [Proc.branch_pos hrestart, ← h]
      simp only [Proc.bind_assoc]
    | true =>
      rw [beginSampling, Proc.get_bind_apply]
      dsimp only
      by_cases hb : s.configuration source false = true ∧ changed = true
      · rw [Proc.branch_pos hb]
        exact began_of_restart source hsetup hnodup true changed hrestart
      · have hoff : s.configuration source false = false := by
          rcases hrestart with h | h
          · exact h
          · exact Bool.eq_false_iff.mpr fun h' => hb ⟨h', h⟩
        rw [Proc.branch_neg hb, Proc.when_pos hoff]
        exact began_of_restart source plain_pure hnodup true changed hrestart
  · have hrestart' := not_or.mp hrestart
    have hon : s.configuration source false = true := Bool.eq_true_of_not_eq_false hrestart'.1
    cases streaming with
    | false =>
      refine ⟨.ok false, s, ?_, ⟨rfl, rfl, rfl, fun _ => rfl⟩, ?_, ?_, ?_, ?_⟩
      · rw [beginSampling, Proc.get_bind_apply]
        dsimp only
        rw [Proc.branch_neg hrestart]
        rfl
      · exact fun _ => ⟨rfl, rfl⟩
      · exact fun h => absurd h hrestart
      · exact fun h => absurd h hrestart
      · intro _
        change _ = Function.update s.configuration source _
        rw [← hon, Function.update_eq_self, Function.update_eq_self]
    | true =>
      refine ⟨.ok true, (setBit source true true s).2, ?_, ⟨rfl, rfl, rfl, fun other => ?_⟩,
        ?_, ?_, ?_, ?_⟩
      · rw [beginSampling, Proc.get_bind_apply]
        dsimp only
        rw [Proc.branch_neg fun h => hrestart'.2 h.2, Proc.when_neg hrestart'.1]
        rfl
      · cases other <;> rfl
      · exact fun _ => ⟨rfl, rfl⟩
      · exact fun h => absurd h hrestart
      · exact fun h => absurd h hrestart
      · exact fun _ => rfl

end Restart

/-! ## Calls for the source -/

section Own

variable {s : State}

theorem onAccel_bind {α β : Type} (x : Accel.M α) (f : α → Accel.M β) :
    onAccel (x >>= f) = onAccel x >>= fun a => onAccel (f a) := by
  funext s
  simp only [onAccel, Proc.within, Proc.bind_apply]
  rcases x s.accel with ⟨_ | a, t⟩ <;> rfl

/-- The driver calls of a start function fail with the first SPI access that does. -/
theorem onAccel_takes {α : Type} {n : Nat} {x : Accel.M α} (hx : Accel.Takes n x) (s : State) :
    ((∀ i < n, s.accel.spi i = none) → ∃ a accel, onAccel x s = (.ok a, { s with accel })) ∧
    (¬ (∀ i < n, s.accel.spi i = none) →
      ∃ e accel, onAccel x s = (.error e, { s with accel })) := by
  constructor
  · intro h
    obtain ⟨a, t, ht, -⟩ := (hx s.accel).1 h
    exact ⟨a, t, by simp only [onAccel, Proc.within, ht]⟩
  · intro h
    obtain ⟨e, t, ht⟩ := (hx s.accel).2 h
    exact ⟨e, t, by simp only [onAccel, Proc.within, ht]⟩

theorem recordedTimers_of_not_changed {r : Request} (h : r.changed s = false)
    (hr : r.source ≠ .accelerometerInterrupt) : s.recordedTimers r.source = r.timers := by
  cases r with
  | accelerometer r =>
    have hp : s.accelerometerParameters.fifoSamplingPeriodMs = r.fifoSamplingPeriodMs := by
      by_contra hne
      exact of_decide_eq_false h (.inr (.inr (.inr (.inr hne))))
    rw [Request.source, State.recordedTimers, Request.timers, hp]
  | accelerometerInterrupt r => exact absurd rfl hr
  | battery r =>
    have hp : s.batteryParameters.periodMs = r.periodMs := by
      by_contra hne
      exact of_decide_eq_false h (.inr hne)
    rw [Request.source, State.recordedTimers, Request.timers, hp]
  | microphone r =>
    have hp : s.microphoneParameters.periodMs = r.periodMs := by
      by_contra hne
      exact of_decide_eq_false h (.inr hne)
    rw [Request.source, State.recordedTimers, Request.timers, hp]
  | scan r =>
    have hp : s.scanParameters.periodSeconds = r.periodSeconds := by
      by_contra hne
      exact of_decide_eq_false h (.inr (.inl (Ne.symm hne)))
    rw [Request.source, State.recordedTimers, Request.timers, hp]

theorem recordedTimers_ne_nil {source : Source} (h : source ≠ .accelerometerInterrupt) :
    s.recordedTimers source ≠ [] := by
  cases source with
  | accelerometerInterrupt => exact absurd rfl h
  | _ =>
    simp [State.recordedTimers, accelerometerTimers, batteryTimers, microphoneTimers, scanTimers]

theorem timers_nodup (r : Request) : (r.timers.map Prod.fst).Nodup := by
  cases r <;>
    simp [Request.timers, accelerometerTimers, batteryTimers, microphoneTimers, scanTimers]

/-- What a start function leaves alone while it records its parameters. -/
structure Recorded (r : Request) (s t : State) : Prop where
  timers : t.timers = s.timers
  timerFaults : t.timerFaults = s.timerFaults
  configuration : t.configuration = s.configuration
  timeouts : t.timeouts = s.timeouts
  ranOut : t.ranOut = s.ranOut
  recorded : t.recordedTimers r.source = r.timers
  accel : r.accesses = 0 → t.accel = s.accel

/-- What a start function does up to `timeout_start`. -/
theorem begin_spec (r : Request) (hr : r.source ≠ .accelerometerInterrupt) (s : State) :
    (¬ (∀ i < r.accesses, s.accel.spi i = none) →
      ∃ e t, begin r s = (.error e, t) ∧ SameFor r.source s t) ∧
    ((∀ i < r.accesses, s.accel.spi i = none) →
      ∃ t res u, begin r s = (res, u) ∧ Recorded r s t ∧
        Began r.source r.timers (r.changed s) r.streaming t res u) := by
  have hnone : ¬ ¬ (∀ i < 0, s.accel.spi i = none) := fun h =>
    h fun i hi => absurd hi (Nat.not_lt_zero i)
  cases r with
  | accelerometerInterrupt r => exact absurd rfl hr
  | accelerometer r =>
    have htakes := onAccel_takes ((Accel.takes_setFullScale r.accelerometerFullScale).bind fun _ =>
      (Accel.takes_setDatarate r.accelerometerDatarate).bind fun _ =>
      Accel.takes_setOperatingMode r.accelerometerOperatingMode) s
    simp only [onAccel_bind] at htakes
    have hbegin : begin (.accelerometer r) = (
        onAccel (Accel.setFullScale r.accelerometerFullScale) >>=
        fun _ => onAccel (Accel.setDatarate r.accelerometerDatarate) >>=
        fun _ => onAccel (Accel.setOperatingMode r.accelerometerOperatingMode)) >>= fun _ =>
        (Proc.get >>= fun s => Proc.modify (fun s =>
          { s with accelerometerParameters := s.accelerometerParameters.update r }) >>= fun _ =>
          beginSampling .accelerometer (accelerometerTimers r.fifoSamplingPeriodMs)
            setupAccelerometerChunk (s.accelerometerParameters.changed r) r.streaming) := by
      simp only [Proc.bind_assoc]
      rfl
    rw [hbegin]
    constructor
    · intro hfail
      obtain ⟨e, accel, he⟩ := htakes.2 hfail
      exact ⟨e, _, Proc.bind_error he _, fun _ _ => rfl, rfl, rfl, rfl⟩
    · intro hok
      obtain ⟨_, accel, ha⟩ := htakes.1 hok
      rw [Proc.bind_ok ha]
      obtain ⟨res, u, hu, hbegan⟩ := beginSampling_spec .accelerometer
        plain_setupAccelerometerChunk (timers_nodup (.accelerometer r))
        (s.accelerometerParameters.changed r) r.streaming
        { s with accel, accelerometerParameters := s.accelerometerParameters.update r }
      refine ⟨_, res, u, hu, ?_, hbegan⟩
      exact ⟨rfl, rfl, rfl, rfl, rfl, rfl, fun h => absurd h (Nat.succ_ne_zero 9)⟩
  | battery r =>
    refine ⟨fun h => absurd h hnone, fun _ => ?_⟩
    obtain ⟨res, u, hu, hbegan⟩ := beginSampling_spec .battery (plain_openChunk .battery)
      (timers_nodup (.battery r)) (s.batteryParameters.changed r) r.streaming
      { s with batteryParameters := s.batteryParameters.update r }
    refine ⟨_, res, u, hu, ?_, hbegan⟩
    exact ⟨rfl, rfl, rfl, rfl, rfl, rfl, fun _ => rfl⟩
  | microphone r =>
    refine ⟨fun h => absurd h hnone, fun _ => ?_⟩
    obtain ⟨res, u, hu, hbegan⟩ := beginSampling_spec .microphone plain_setupMicrophoneChunk
      (timers_nodup (.microphone r)) (s.microphoneParameters.changed r) r.streaming
      { s with microphoneParameters := s.microphoneParameters.update r }
    refine ⟨_, res, u, hu, ?_, hbegan⟩
    exact ⟨rfl, rfl, rfl, rfl, rfl, rfl, fun _ => rfl⟩
  | scan r =>
    refine ⟨fun h => absurd h hnone, fun _ => ?_⟩
    obtain ⟨res, u, hu, hbegan⟩ := beginSampling_spec .scan plain_pure
      (timers_nodup (.scan r)) (s.scanParameters.changed r) r.streaming
      { s with scanParameters := s.scanParameters.update r }
    refine ⟨_, res, u, hu, ?_, hbegan⟩
    exact ⟨rfl, rfl, rfl, rfl, rfl, rfl, fun _ => rfl⟩

theorem good_of_runs {source : Source} (hruns : RunsAsRecorded source s) (hoff : ¬ s.Off source) :
    Good source s := by
  constructor
  · intro entry he
    rw [hruns entry he]
    exact ⟨fun _ => hoff, fun _ => rfl⟩
  · exact fun _ => hruns

theorem good_of_halted {source : Source}
    (hhalted : ∀ entry ∈ s.recordedTimers source, s.timers entry.1 = none) (hoff : s.Off source) :
    Good source s := by
  constructor
  · intro entry he
    rw [hhalted entry he]
    exact ⟨fun h => absurd h Bool.false_ne_true, fun h => absurd hoff h⟩
  · exact fun h => absurd hoff h

/-- When a timer is refused, the timers match the bits only if none was started and no
bit is set. -/
theorem matches_refused_iff {source : Source} {u : State} {n : Nat}
    (hn : n < (u.recordedTimers source).length)
    (h : ∀ i entry, (u.recordedTimers source)[i]? = some entry →
      u.timers entry.1 = if i < n then some entry.2 else none) :
    Matches source u ↔ n = 0 ∧ u.Off source := by
  have hat : ∀ i (hi : i < (u.recordedTimers source).length),
      u.timers (u.recordedTimers source)[i].1 =
        if i < n then some (u.recordedTimers source)[i].2 else none :=
    fun i hi => h i _ (List.getElem?_eq_some_iff.mpr ⟨hi, rfl⟩)
  constructor
  · intro hm
    have hoff : u.Off source := by
      by_contra hoff
      have hsome := (hm _ (List.getElem_mem hn)).mpr hoff
      rw [hat n hn, if_neg (Nat.lt_irrefl n)] at hsome
      exact Bool.false_ne_true hsome
    refine ⟨?_, hoff⟩
    by_contra hne
    have h0 : 0 < n := Nat.pos_of_ne_zero hne
    refine (hm _ (List.getElem_mem (Nat.zero_lt_of_lt hn))).mp ?_ hoff
    rw [hat 0 (Nat.zero_lt_of_lt hn), if_pos h0]
    rfl
  · rintro ⟨rfl, hoff⟩
    refine (good_of_halted (fun entry he => ?_) hoff).matches_bits
    obtain ⟨i, hi, rfl⟩ := List.getElem_of_mem he
    exact (hat i hi).trans (if_neg (Nat.not_lt_zero i))

/-- A start function that gets past its timers. -/
structure Passed (r : Request) (s : State) (go : Bool) (u : State) : Prop where
  accesses : ∀ i < r.accesses, s.accel.spi i = none
  accepted : r.Restarts s → accepted r.timers s.timerFaults = r.timers.length
  go : go = true ↔ r.streaming = true ∨ r.Restarts s
  configuration : u.configuration = (r.marked s).configuration
  timeouts : u.timeouts = s.timeouts
  ranOut : u.ranOut = s.ranOut
  accel : r.accesses = 0 → u.accel = s.accel
  runs : Good r.source s → RunsAsRecorded r.source u

/-- A start function that returns an error. -/
structure Failed (r : Request) (s u : State) : Prop where
  not_ready : (∀ i < r.accesses, s.accel.spi i = none) →
    ¬ (r.Restarts s → accepted r.timers s.timerFaults = r.timers.length)
  matches_iff : Good r.source s → (Matches r.source u ↔ StartHolds s r)
  good : Good r.source s → StartHolds s r → Good r.source u

theorem marked_on (s : State) (r : Request) : ¬ (r.marked s).Off r.source := by
  intro h
  have hbit : (r.marked s).configuration r.source r.streaming = true := by
    change Function.update s.configuration r.source _ r.source r.streaming = true
    rw [Function.update_self, Function.update_self]
  cases hstreaming : r.streaming with
  | false => exact Bool.false_ne_true (h.1.symm.trans (hstreaming ▸ hbit))
  | true => exact Bool.false_ne_true (h.2.symm.trans (hstreaming ▸ hbit))

theorem begin_cases (r : Request) (hr : r.source ≠ .accelerometerInterrupt) (s : State) :
    (∃ e u, begin r s = (.error e, u) ∧ Failed r s u) ∨
      ∃ go u, begin r s = (.ok go, u) ∧ Passed r s go u := by
  obtain ⟨hfail, hok⟩ := begin_spec r hr s
  by_cases hspi : ∀ i < r.accesses, s.accel.spi i = none
  · obtain ⟨t, res, u, hrun, ht, hbegan⟩ := hok hspi
    have hmarked : (setBit r.source r.streaming true t).2.configuration =
        (r.marked s).configuration := by
      change Function.update t.configuration r.source _ = Function.update s.configuration r.source _
      rw [ht.configuration]
    have hurec : u.recordedTimers r.source = r.timers := (hbegan.recorded _).trans ht.recorded
    obtain ⟨hframed, hignored, hstarted, hrefused, hbit⟩ := hbegan
    rw [ht.configuration] at hignored hstarted hrefused hbit
    rw [ht.timerFaults] at hstarted hrefused hbit
    have hpassed : ∀ go, res = .ok go → (go = true ↔ r.streaming = true ∨ r.Restarts s) →
        (r.Restarts s → accepted r.timers s.timerFaults = r.timers.length) →
        (Good r.source s → RunsAsRecorded r.source u) → Passed r s go u :=
      fun go _ hgo hacc hruns =>
        { accesses := hspi
          accepted := hacc
          go := hgo
          configuration := (hbit hacc).trans hmarked
          timeouts := hframed.timeouts.trans ht.timeouts
          ranOut := hframed.ranOut.trans ht.ranOut
          accel := fun h => hframed.accel.trans (ht.accel h)
          runs := hruns }
    by_cases hrestart : r.Restarts s
    · by_cases hacc : accepted r.timers s.timerFaults = r.timers.length
      · obtain ⟨hres, hrun'⟩ := hstarted hrestart hacc
        refine .inr ⟨true, u, hrun.trans (by rw [hres]), hpassed true hres ?_ (fun _ => hacc) ?_⟩
        · exact ⟨fun _ => .inr hrestart, fun _ => rfl⟩
        · intro _ entry he
          rw [hurec] at he
          exact hrun' entry he
      · obtain ⟨⟨e, he⟩, hsame, hpartial⟩ := hrefused hrestart hacc
        have hlt : accepted r.timers s.timerFaults < r.timers.length :=
          Nat.lt_of_le_of_ne (accepted_le _ _) hacc
        have hoff : u.Off r.source ↔ s.Off r.source := by
          rw [State.Off, State.Off, hsame]
        rw [← hurec] at hpartial hlt
        have hiff := matches_refused_iff hlt hpartial
        rw [hurec, hoff] at hiff
        have hholds : Matches r.source u ↔ StartHolds s r := by
          rw [hiff]
          exact ⟨fun h _ _ => .inr h, fun h => (h hspi hrestart).resolve_left hacc⟩
        refine .inl ⟨e, u, hrun.trans (by rw [he]), fun _ h => hacc (h hrestart), fun _ => hholds,
          fun _ h => ?_⟩
        have hm := hholds.mpr h
        exact ⟨hm, fun hon => absurd (hoff.mpr (hiff.mp hm).2) hon⟩
    · obtain ⟨hres, hsame⟩ := hignored hrestart
      have hrestart' := not_or.mp hrestart
      have hrecorded : s.recordedTimers r.source = r.timers :=
        recordedTimers_of_not_changed (Bool.eq_false_iff.mpr hrestart'.2) hr
      refine .inr ⟨r.streaming, u, hrun.trans (by rw [hres]), hpassed r.streaming hres ?_
        (fun h => absurd h hrestart) ?_⟩
      · exact ⟨fun h => .inl h, fun h => h.resolve_right hrestart⟩
      · intro hs entry he
        rw [hurec, ← hrecorded] at he
        rw [hsame, ht.timers]
        exact hs.recorded (fun h => hrestart'.1 h.1) entry he
  · obtain ⟨e, u, hrun, hsame⟩ := hfail hspi
    refine .inl ⟨e, u, hrun, fun h => absurd h hspi, fun hs => ?_, fun hs _ => hsame.good hs⟩
    exact ⟨fun _ h => absurd h hspi, fun _ => (hsame.good hs).matches_bits⟩

theorem Failed.not_times {r : Request} {u : State} (h : Failed r s u)
    (hspi : ∀ i < r.accesses, s.accel.spi i = none) : ¬ r.Times s :=
  fun htimes => h.not_ready hspi htimes.2.2

theorem Passed.times_iff {r : Request} {go : Bool} {u : State} (h : Passed r s go u) :
    r.Times s ↔ r.timeoutMs ≠ 0 ∧ go = true := by
  rw [h.go]
  exact ⟨fun ht => ⟨ht.1, ht.2.1⟩, fun ht => ⟨ht.1, ht.2, h.accepted⟩⟩

/-- A release of a source that touches neither timers nor bits. -/
structure Releases (release : M Unit) (s : State) (r : Except RetCode Unit) (u : State) : Prop where
  eq : release s = (r, u)
  timers : u.timers = s.timers
  configuration : u.configuration = s.configuration
  recorded : ∀ source, u.recordedTimers source = s.recordedTimers source

theorem off_of_kind {source : Source} (streaming : Bool)
    (h : s.configuration source streaming = false)
    (h' : s.configuration source (!streaming) = false) : s.Off source := by
  cases streaming with
  | false => exact ⟨h, h'⟩
  | true => exact ⟨h', h⟩

theorem on_of_kind {source : Source} {streaming : Bool}
    (h : s.configuration source streaming = true) : ¬ s.Off source := by
  intro hoff
  cases streaming with
  | false => exact Bool.false_ne_true (hoff.1.symm.trans h)
  | true => exact Bool.false_ne_true (hoff.2.symm.trans h)

theorem setBit_false_spec (source : Source) (streaming : Bool) (s : State) :
    (setBit source streaming false s).2.configuration source streaming = false ∧
      (setBit source streaming false s).2.configuration source (!streaming) =
        s.configuration source (!streaming) ∧
      ∀ other, (setBit source streaming false s).2.recordedTimers other =
        s.recordedTimers other := by
  have hne : (!streaming) ≠ streaming := by cases streaming <;> decide
  refine ⟨?_, ?_, fun other => ?_⟩
  · change Function.update s.configuration source _ source streaming = false
    rw [Function.update_self, Function.update_self]
  · change Function.update s.configuration source _ source (!streaming) = _
    rw [Function.update_self, Function.update_of_ne hne]
  · cases other <;> rfl

/-- No sampling timer of the source runs. -/
def Halted (source : Source) (s : State) : Prop :=
  ∀ entry ∈ s.recordedTimers source, s.timers entry.1 = none

theorem matches_of_halted {source : Source} (hsource : source ≠ .accelerometerInterrupt)
    (h : Halted source s) : Matches source s ↔ s.Off source := by
  constructor
  · intro hm
    obtain ⟨entry, he⟩ := List.exists_mem_of_ne_nil _ (recordedTimers_ne_nil hsource)
    by_contra hoff
    have hsome := (hm entry he).mpr hoff
    rw [h entry he] at hsome
    exact Bool.false_ne_true hsome
  · exact fun hoff => (good_of_halted h hoff).matches_bits

theorem not_runs_of_halted {source : Source} (hsource : source ≠ .accelerometerInterrupt)
    (h : Halted source s) : ¬ RunsAsRecorded source s := by
  intro hruns
  obtain ⟨entry, he⟩ := List.exists_mem_of_ne_nil _ (recordedTimers_ne_nil hsource)
  have hsome := hruns entry he
  rw [h entry he] at hsome
  cases hsome

theorem halted_of_off {source : Source} (hs : Good source s) (hoff : s.Off source) :
    Halted source s := by
  intro entry he
  by_contra hne
  exact (hs.matches_bits entry he).mp (Option.isSome_iff_ne_none.mpr hne) hoff

/-- A stop does nothing but clear its bit while the bit of the other kind is set. -/
theorem stop_of_other {source : Source} {streaming : Bool}
    (h : s.configuration source (!streaming) = true) :
    stop source streaming s = setBit source streaming false s := by
  have hrun : ∀ timers release,
      stopSampling source timers release streaming s = setBit source streaming false s := by
    intro timers release
    rw [stopSampling, Proc.get_bind_apply, Proc.when_neg (by rw [h]; exact Bool.noConfusion)]
    rfl
  cases source <;> exact hrun _ _

/-- Otherwise the timers stop, and the source is off afterwards unless the release fails
while the bit is set. -/
theorem halted_stopSampling {source : Source} {timers : List (Timer × Nat)} {release : M Unit}
    {streaming : Bool} (h : s.configuration source (!streaming) = false)
    (htimers : (s.recordedTimers source).map Prod.fst = timers.map Prod.fst) {P : Prop}
    (hrelease : ∀ t, t.accel = s.accel → t.configuration = s.configuration →
      ∃ r u, Releases release t r u ∧ (r = .ok () ↔ P)) :
    Halted source (stopSampling source timers release streaming s).2 ∧
      (stopSampling source timers release streaming s).2.configuration source (!streaming) =
        false ∧
      ((stopSampling source timers release streaming s).2.Off source ↔
        (s.configuration source streaming = true → P)) := by
  obtain ⟨stopped, hstop, hhalted⟩ := stopTimers_spec s timers
  obtain ⟨r, w, hw, hP⟩ := hrelease { s with timers := stopped } rfl rfl
  have hrecw : w.recordedTimers source = s.recordedTimers source :=
    (hw.recorded source).trans (by cases source <;> rfl)
  have hnone : ∀ entry ∈ s.recordedTimers source, w.timers entry.1 = none := by
    intro entry he
    have hmem : entry.1 ∈ timers.map Prod.fst := htimers ▸ List.mem_map_of_mem he
    exact (congrFun hw.timers entry.1).trans ((hhalted entry.1).trans (if_pos hmem))
  have hblock : (stopTimers timers >>= fun _ => release) s = (r, w) :=
    (Proc.bind_ok hstop _).trans hw.eq
  have hrun : stopSampling source timers release streaming s =
      ((stopTimers timers >>= fun _ => release) >>= fun _ => setBit source streaming false) s := by
    rw [stopSampling, Proc.get_bind_apply, Proc.when_pos h]
  rw [hrun]
  cases r with
  | ok _ =>
    obtain ⟨hbit, hother, hrec⟩ := setBit_false_spec source streaming w
    rw [Proc.bind_ok hblock]
    have hw' : w.configuration source (!streaming) = false := by
      rw [hw.configuration]
      exact h
    refine ⟨fun entry he => hnone entry ?_, hother.trans hw', fun _ _ => hP.mp rfl, fun _ => ?_⟩
    · rw [hrec, hrecw] at he
      exact he
    · exact off_of_kind streaming hbit (hother.trans hw')
  | error e =>
    have hnotP : ¬ P := fun h => by cases hP.mpr h
    have hconf : w.configuration source = s.configuration source :=
      congrFun hw.configuration source
    rw [Proc.bind_error hblock]
    refine ⟨fun entry he => hnone entry (hrecw ▸ he), hconf ▸ h, fun hoff hbit => ?_,
      fun hbit => ?_⟩
    · exact absurd hoff (on_of_kind (hconf ▸ hbit))
    · refine off_of_kind streaming ?_ (hconf ▸ h)
      rw [hconf]
      exact Bool.eq_false_iff.mpr fun h' => hnotP (hbit h')

theorem halted_stop {source : Source} (hsource : source ≠ .accelerometerInterrupt)
    {streaming : Bool} (h : s.configuration source (!streaming) = false) :
    Halted source (stop source streaming s).2 ∧
      (stop source streaming s).2.configuration source (!streaming) = false ∧
      ((stop source streaming s).2.Off source ↔ StopHolds s source streaming) := by
  have hcases : ∀ {timers : List (Timer × Nat)} {release : M Unit} {P : Prop},
      stop source streaming s = stopSampling source timers release streaming s →
      (s.recordedTimers source).map Prod.fst = timers.map Prod.fst →
      (∀ t, t.accel = s.accel → t.configuration = s.configuration →
        ∃ r u, Releases release t r u ∧ (r = .ok () ↔ P)) →
      (StopHolds s source streaming ↔ (s.configuration source streaming = true → P)) →
      Halted source (stop source streaming s).2 ∧
        (stop source streaming s).2.configuration source (!streaming) = false ∧
        ((stop source streaming s).2.Off source ↔ StopHolds s source streaming) := by
    intro timers release P hstop htimers hrelease hholds
    rw [hstop, hholds]
    exact halted_stopSampling h htimers hrelease
  have hpure : ∀ t : State, ∃ r u, Releases (pure ()) t r u ∧ (r = .ok () ↔ True) := fun t =>
    ⟨.ok (), t, ⟨rfl, rfl, rfl, fun _ => rfl⟩, ⟨fun _ => trivial, fun _ => rfl⟩⟩
  cases source with
  | accelerometerInterrupt => exact absurd rfl hsource
  | accelerometer =>
    refine hcases (P := s.Off .accelerometerInterrupt → ∀ i < 6, s.accel.spi i = none) rfl
      (by simp only [State.recordedTimers, accelerometerTimers, List.map_cons]) ?_ ?_
    · intro t haccel hconf
      by_cases hoff : s.Off .accelerometerInterrupt
      · rw [Proc.when_pos hoff]
        obtain ⟨hok, hfail⟩ := onAccel_takes (Accel.takes_setOperatingMode .powerDown) t
        rw [haccel] at hok hfail
        by_cases hspi : ∀ i < 6, s.accel.spi i = none
        · obtain ⟨_, accel, h⟩ := hok hspi
          refine ⟨_, _, ⟨h, rfl, rfl, fun source => by cases source <;> rfl⟩, ?_⟩
          exact ⟨fun _ _ => hspi, fun _ => rfl⟩
        · obtain ⟨e, accel, h⟩ := hfail hspi
          refine ⟨_, _, ⟨h, rfl, rfl, fun source => by cases source <;> rfl⟩, ?_⟩
          exact ⟨(fun h => by cases h), fun h => absurd (h hoff) hspi⟩
      · rw [Proc.when_neg hoff]
        exact ⟨.ok (), t, ⟨rfl, rfl, rfl, fun _ => rfl⟩,
          ⟨fun _ h => absurd h hoff, fun _ => rfl⟩⟩
    · exact ⟨fun hh h2 => hh rfl h2 h, fun hh _ h2 _ => hh h2⟩
  | battery =>
    refine hcases (P := True) rfl
      (by simp only [State.recordedTimers, batteryTimers, List.map_cons]) (fun t _ _ => hpure t) ?_
    exact ⟨fun _ _ => trivial, fun _ h => by cases h⟩
  | microphone =>
    refine hcases (P := True) rfl
      (by simp only [State.recordedTimers, microphoneTimers, List.map_cons])
      (fun t _ _ => hpure t) ?_
    exact ⟨fun _ _ => trivial, fun _ h => by cases h⟩
  | scan =>
    refine hcases (P := True) rfl
      (by simp only [State.recordedTimers, scanTimers, List.map_cons]) (fun t _ _ => ?_) ?_
    · refine ⟨.ok (), _, ⟨rfl, rfl, rfl, fun source => by cases source <;> rfl⟩, ?_⟩
      exact ⟨fun _ => trivial, fun _ => rfl⟩
    · exact ⟨fun _ _ => trivial, fun _ h => by cases h⟩

theorem good_stop_other {source : Source} {streaming : Bool} (hs : Good source s)
    (h : s.configuration source (!streaming) = true) :
    Good source (stop source streaming s).2 := by
  obtain ⟨-, hother, hrec⟩ := setBit_false_spec source streaming s
  rw [stop_of_other h]
  apply good_of_runs
  · intro entry he
    rw [hrec] at he
    exact hs.recorded (on_of_kind h) entry he
  · exact on_of_kind (hother.trans h)

/-- One call of a stop function. -/
theorem kept_stop {source : Source} (hsource : source ≠ .accelerometerInterrupt)
    (streaming : Bool) (hs : Good source s) :
    (Matches source (stop source streaming s).2 ↔ StopHolds s source streaming) ∧
      (StopHolds s source streaming → Good source (stop source streaming s).2) := by
  cases hother : s.configuration source (!streaming) with
  | true =>
    have hgood := good_stop_other hs hother
    refine ⟨⟨fun _ _ _ h => ?_, fun _ => hgood.matches_bits⟩, fun _ => hgood⟩
    rw [hother] at h
    cases h
  | false =>
    obtain ⟨hhalted, -, hoff⟩ := halted_stop hsource hother
    rw [matches_of_halted hsource hhalted]
    exact ⟨hoff, fun h => good_of_halted hhalted (hoff.mpr h)⟩

end Own

/-! ## The timeouts that have run out -/

section Timeouts

variable {s : State} {source : Source} {ranOut : Source → Bool → Bool}

theorem good_of_timeouts {timeouts : Source → Bool → Option UInt32}
    {ranOut' : Nat → Source → Bool → Bool} (hs : Good source s) :
    Good source { s with timeouts, ranOut := ranOut' } := by
  cases source <;> exact ⟨hs.matches_bits, hs.recorded⟩

theorem matches_of_timeouts {timeouts : Source → Bool → Option UInt32} :
    Matches source { s with timeouts } ↔ Matches source s := by
  cases source <;> exact Iff.rfl

theorem halted_of_timeouts {timeouts : Source → Bool → Option UInt32}
    {ranOut' : Nat → Source → Bool → Bool} (hs : Halted source s) :
    Halted source { s with timeouts, ranOut := ranOut' } := by
  cases source <;> exact hs

theorem SameFor.halted {t : State} (h : SameFor source s t) (hs : Halted source s) :
    Halted source t := by
  intro entry he
  rw [h.recorded] at he
  rw [h.timers entry.1 (source_of_mem_recordedTimers he)]
  exact hs entry he

theorem SameFor.expired_iff {t : State} (h : SameFor source s t) (streaming : Bool) :
    t.Expired ranOut source streaming ↔ s.Expired ranOut source streaming := by
  rw [State.Expired, State.Expired, h.timeouts]

theorem SameFor.timedOut_iff {t : State} (h : SameFor source s t) :
    t.TimedOut ranOut source ↔ s.TimedOut ranOut source := by
  rw [State.TimedOut, State.TimedOut, h.off, h.configuration]
  simp only [h.expired_iff]

theorem sameFor_lapse {entry : Source × Bool} (h : entry.1 ≠ source) :
    SameFor source s (lapse ranOut s entry) :=
  Proc.Keeps.when (fun _ => keeps_timeout h entry.2) s (SameFor.refl source s)

variable (ranOut) in
theorem sameFor_foldl {entries : List (Source × Bool)} (h : ∀ entry ∈ entries, entry.1 ≠ source) :
    SameFor source s (entries.foldl (lapse ranOut) s) := by
  induction entries generalizing s with
  | nil => exact SameFor.refl source s
  | cons entry entries ih =>
    exact (sameFor_lapse (h entry List.mem_cons_self)).trans
      (ih fun e he => h e (List.mem_cons_of_mem _ he))

variable (ranOut) in
/-- A pass for one kind while the bit of the other kind is set. -/
theorem lapse_other {streaming : Bool} (hs : Good source s)
    (h : s.configuration source (!streaming) = true) :
    Good source (lapse ranOut s (source, streaming)) ∧
      (lapse ranOut s (source, streaming)).configuration source (!streaming) = true ∧
      (lapse ranOut s (source, streaming)).timeouts source (!streaming) =
        s.timeouts source (!streaming) ∧
      (lapse ranOut s (source, streaming)).accel = s.accel ∧
      (∀ other, other ≠ source →
        (lapse ranOut s (source, streaming)).configuration other = s.configuration other) ∧
      ((s.configuration source streaming = true → s.Expired ranOut source streaming) →
        (lapse ranOut s (source, streaming)).configuration source streaming = false) := by
  by_cases hexp : s.Expired ranOut source streaming
  · obtain ⟨hbit, hother, -⟩ := setBit_false_spec source streaming s
    have hgood := good_stop_other hs h
    rw [lapse_of_expired hexp]
    rw [stop_of_other h] at hgood ⊢
    refine ⟨good_of_timeouts hgood, hother.trans h, ?_, rfl, fun other hne => ?_, fun _ => hbit⟩
    · change Function.update s.timeouts source _ source (!streaming) = _
      rw [Function.update_self]
      exact Function.update_of_ne (by cases streaming <;> decide) _ _
    · exact Function.update_of_ne hne _ _
  · rw [lapse_of_not_expired hexp]
    exact ⟨hs, h, rfl, rfl, fun _ _ => rfl,
      fun hset => Bool.eq_false_iff.mpr fun hbit => hexp (hset hbit)⟩

/-- The timers match the bits, and a bit whose timeout has not run out is set. -/
def Survives (ranOut : Source → Bool → Bool) (source : Source) (s : State) : Prop :=
  Good source s ∧ ∃ streaming, s.configuration source streaming = true ∧
    ¬ s.Expired ranOut source streaming

theorem survives_lapse (h : Survives ranOut source s) (entry : Source × Bool) :
    Survives ranOut source (lapse ranOut s entry) := by
  obtain ⟨hs, streaming, hbit, hexp⟩ := h
  obtain ⟨other, streaming'⟩ := entry
  by_cases hne : other = source
  · subst hne
    by_cases hkind : streaming' = streaming
    · rw [hkind, lapse_of_not_expired hexp]
      exact ⟨hs, streaming, hbit, hexp⟩
    · have hkind' : streaming = !streaming' := by cases streaming <;> cases streaming' <;> simp_all
      rw [hkind'] at hbit hexp
      obtain ⟨hgood, hbit', htimeouts, -⟩ := lapse_other ranOut hs hbit
      refine ⟨hgood, _, hbit', ?_⟩
      rw [State.Expired, htimeouts]
      exact hexp
  · have hsame : SameFor source s (lapse ranOut s (other, streaming')) := sameFor_lapse hne
    refine ⟨hsame.good hs, streaming, ?_, mt (hsame.expired_iff streaming).mp hexp⟩
    rw [hsame.configuration]
    exact hbit

/-- No sampling timer of the source runs, and no bit of it is set. -/
def Idle (source : Source) (s : State) : Prop := Halted source s ∧ s.Off source

variable (ranOut) in
theorem idle_lapse (hsource : source ≠ .accelerometerInterrupt) (h : Idle source s)
    (entry : Source × Bool) : Idle source (lapse ranOut s entry) := by
  obtain ⟨hhalted, hoff⟩ := h
  obtain ⟨other, streaming⟩ := entry
  by_cases hne : other = source
  · subst hne
    by_cases hexp : s.Expired ranOut other streaming
    · have hbits : ∀ kind, s.configuration other kind = false := fun kind => by
        cases kind with
        | false => exact hoff.1
        | true => exact hoff.2
      obtain ⟨hhalted', -, hoff'⟩ := halted_stop hsource (hbits (!streaming))
      rw [lapse_of_expired hexp]
      refine ⟨halted_of_timeouts hhalted', hoff'.mpr fun _ hbit => ?_⟩
      rw [hbits] at hbit
      cases hbit
    · rw [lapse_of_not_expired hexp]
      exact ⟨hhalted, hoff⟩
  · have hsame : SameFor source s (lapse ranOut s (other, streaming)) := sameFor_lapse hne
    exact ⟨hsame.halted hhalted, hsame.off.mpr hoff⟩

/-- No SPI access fails if the handler of a timeout powers the accelerometer down. -/
def ReleaseHolds (s : State) (source : Source) : Prop :=
  source = .accelerometer → s.Off .accelerometerInterrupt → ∀ i < 6, s.accel.spi i = none

/-- The timers are stopped, and the bits are cleared under the condition. -/
def Ended (P : Prop) (source : Source) (s : State) : Prop := Halted source s ∧ (s.Off source ↔ P)

/-- The handler for the last bit of the source. -/
theorem ended_lapse (hsource : source ≠ .accelerometerInterrupt) {streaming : Bool}
    (hbit : s.configuration source streaming = true) (hexp : s.Expired ranOut source streaming)
    (h : s.configuration source (!streaming) = false) :
    Ended (ReleaseHolds s source) source (lapse ranOut s (source, streaming)) ∧
      (lapse ranOut s (source, streaming)).configuration source (!streaming) = false := by
  obtain ⟨hhalted, hother, hoff⟩ := halted_stop hsource h
  rw [lapse_of_expired hexp]
  refine ⟨⟨halted_of_timeouts hhalted, hoff.trans ?_⟩, hother⟩
  exact ⟨fun hh hacc => hh hacc hbit h, fun hh hacc _ _ => hh hacc⟩

/-- The handlers of both kinds. -/
theorem ended_pair (hsource : source ≠ .accelerometerInterrupt) (hs : Good source s)
    (h : s.TimedOut ranOut source) :
    Ended (ReleaseHolds s source) source
      (lapse ranOut (lapse ranOut s (source, false)) (source, true)) := by
  obtain ⟨hon, hexp⟩ := h
  cases hstreaming : s.configuration source true with
  | true =>
    -- the pass for sampling clears at most its bit, the one for streaming stops the timers
    have hbits : s.configuration source (!false) = true := hstreaming
    obtain ⟨-, hbit, htimeouts, haccel, hothers, hclear⟩ := lapse_other ranOut hs hbits
    have hexp' : (lapse ranOut s (source, false)).Expired ranOut source true := by
      have hsame : (lapse ranOut s (source, false)).timeouts source true =
          s.timeouts source true := htimeouts
      rw [State.Expired, hsame]
      exact hexp true hstreaming
    obtain ⟨hended, -⟩ := ended_lapse hsource hbit hexp' (hclear (hexp false))
    refine ⟨hended.1, hended.2.trans ?_⟩
    rw [ReleaseHolds, ReleaseHolds, haccel]
    refine forall_congr' fun hacc => ?_
    rw [State.Off, State.Off, hothers _ (hacc ▸ by decide)]
  | false =>
    have hsampling : s.configuration source false = true :=
      Bool.eq_true_of_not_eq_false fun hoff => hon ⟨hoff, hstreaming⟩
    obtain ⟨hended, hclear⟩ := ended_lapse hsource hsampling (hexp false hsampling) hstreaming
    generalize lapse ranOut s (source, false) = t at hended hclear ⊢
    obtain ⟨hhalted, hoff⟩ := hended
    by_cases ht : t.Off source
    · obtain ⟨hhalted', hoff'⟩ := idle_lapse ranOut hsource ⟨hhalted, ht⟩ (source, true)
      exact ⟨hhalted', fun _ => hoff.mp ht, fun _ => hoff'⟩
    · -- the release failed: the bit stays, and the pass for streaming finds it
      have hbit : t.configuration source false = true :=
        Bool.eq_true_of_not_eq_false fun hbit => ht ⟨hbit, hclear⟩
      by_cases hexp' : t.Expired ranOut source true
      · obtain ⟨-, hother, hrec⟩ := setBit_false_spec source true t
        rw [lapse_of_expired hexp', stop_of_other hbit]
        refine ⟨halted_of_timeouts fun entry he => hhalted entry (hrec source ▸ he), ?_⟩
        exact ⟨fun hoff' => absurd hoff' (on_of_kind (hother.trans hbit)),
          fun hP => absurd (hoff.mpr hP) ht⟩
      · rw [lapse_of_not_expired hexp']
        exact ⟨hhalted, hoff⟩

theorem registered_split (source : Source) :
    ∃ before after, registeredTimeouts = before ++ (source, false) :: (source, true) :: after ∧
      (∀ entry ∈ before, entry.1 ≠ source) ∧ (∀ entry ∈ after, entry.1 ≠ source) ∧
      (source = .accelerometer → before = []) := by
  cases source with
  | accelerometer => exact ⟨[], registeredTimeouts.drop 2, rfl, by decide, by decide, fun _ => rfl⟩
  | accelerometerInterrupt =>
    exact ⟨registeredTimeouts.take 2, registeredTimeouts.drop 4, rfl, by decide, by decide, nofun⟩
  | battery =>
    exact ⟨registeredTimeouts.take 4, registeredTimeouts.drop 6, rfl, by decide, by decide, nofun⟩
  | microphone =>
    exact ⟨registeredTimeouts.take 6, registeredTimeouts.drop 8, rfl, by decide, by decide, nofun⟩
  | scan =>
    exact ⟨registeredTimeouts.take 8, registeredTimeouts.drop 10, rfl, by decide, by decide, nofun⟩

theorem ended_registered (hsource : source ≠ .accelerometerInterrupt) (hs : Good source s)
    (h : s.TimedOut ranOut source) :
    Ended (ReleaseHolds s source) source (registeredTimeouts.foldl (lapse ranOut) s) := by
  obtain ⟨before, after, hsplit, hbefore, hafter, hfirst⟩ := registered_split source
  have hsame : SameFor source s (before.foldl (lapse ranOut) s) := sameFor_foldl ranOut hbefore
  obtain ⟨hhalted, hoff⟩ := ended_pair hsource (hsame.good hs) (hsame.timedOut_iff.mpr h)
  have hrelease : ReleaseHolds (before.foldl (lapse ranOut) s) source ↔ ReleaseHolds s source :=
    forall_congr' fun hacc => by rw [hfirst hacc]; rfl
  rw [hsplit, List.foldl_append, List.foldl_cons, List.foldl_cons]
  have hsame' := sameFor_foldl ranOut (s := lapse ranOut
    (lapse ranOut (before.foldl (lapse ranOut) s) (source, false)) (source, true)) hafter
  exact ⟨hsame'.halted hhalted, hsame'.off.trans (hoff.trans hrelease)⟩

variable (ranOut) in
theorem foldl_lapse_keeps {I : State → Prop} (hI : ∀ s entry, I s → I (lapse ranOut s entry))
    (hs : I s) (entries : List (Source × Bool)) : I (entries.foldl (lapse ranOut) s) := by
  induction entries generalizing s with
  | nil => exact hs
  | cons entry entries ih => exact ih (hI s entry hs)

/-- When the timeouts of all set bits have run out, `timeout_start` ends the source. -/
theorem timeoutStart_ended (hsource : source ≠ .accelerometerInterrupt) {timeoutMs : UInt32}
    (hms : timeoutMs ≠ 0) (hs : Good source s) (h : s.TimedOut (s.ranOut 0) source)
    (other : Source) (streaming : Bool) :
    Ended (ReleaseHolds s source) source (timeoutStart other streaming timeoutMs s).2 := by
  rw [timeoutStart_snd hms]
  obtain ⟨hhalted, hoff⟩ := ended_registered
    (s := { s with ranOut := fun i => s.ranOut (i + 1) }) hsource (good_of_timeouts hs) h
  exact ⟨halted_of_timeouts hhalted, hoff⟩

/-- Otherwise the timers of the source go on to match its bits. -/
theorem timeoutStart_good (hsource : source ≠ .accelerometerInterrupt) {timeoutMs : UInt32}
    (hs : Good source s) (h : timeoutMs ≠ 0 → ¬ s.TimedOut (s.ranOut 0) source)
    (other : Source) (streaming : Bool) :
    Good source (timeoutStart other streaming timeoutMs s).2 ∧
      (¬ s.Off source → ¬ (timeoutStart other streaming timeoutMs s).2.Off source) := by
  by_cases hms : timeoutMs = 0
  · rw [hms, timeoutStart_zero]
    exact ⟨good_of_timeouts hs, fun hoff => hoff⟩
  rw [timeoutStart_snd hms]
  by_cases hoff : s.Off source
  · obtain ⟨hhalted, hoff'⟩ := foldl_lapse_keeps (s.ranOut 0) (I := Idle source)
      (s := { s with ranOut := fun i => s.ranOut (i + 1) })
      (fun s entry hs => idle_lapse _ hsource hs entry)
      ⟨halted_of_timeouts (halted_of_off hs hoff), hoff⟩ registeredTimeouts
    exact ⟨good_of_timeouts (good_of_halted hhalted hoff'), fun h => absurd hoff h⟩
  · have hset : ∃ streaming, s.configuration source streaming = true ∧
        ¬ s.Expired (s.ranOut 0) source streaming := by
      by_contra hnone
      refine h hms ⟨hoff, fun streaming hbit => ?_⟩
      by_contra hexp
      exact hnone ⟨streaming, hbit, hexp⟩
    obtain ⟨hgood, streaming', hbit, -⟩ := foldl_lapse_keeps (s.ranOut 0)
      (I := Survives (s.ranOut 0) source) (s := { s with ranOut := fun i => s.ranOut (i + 1) })
      (fun s entry hs => survives_lapse hs entry) ⟨good_of_timeouts hs, hset⟩ registeredTimeouts
    exact ⟨good_of_timeouts hgood, fun _ => on_of_kind hbit⟩

end Timeouts

/-! ## One call -/

section Call

variable {s : State} {source : Source}

/-- A start of the interrupt that gets to its timeout has set its bit. -/
theorem beginInterrupt_on {r : InterruptRequest} {go : Bool} {u : State}
    (h : begin (.accelerometerInterrupt r) s = (.ok go, u)) : ¬ u.Off .accelerometerInterrupt := by
  have hon : Proc.Ensures (fun u : State => ¬ u.Off .accelerometerInterrupt)
      (beginInterrupt r) := by
    refine Proc.Ensures.bind fun _ => Proc.Ensures.bind fun _ => Proc.Ensures.bind fun _ =>
      Proc.Ensures.bind fun _ => Proc.Ensures.bind fun _ => Proc.Ensures.bind fun _ =>
      Proc.Ensures.bind fun _ => Proc.Ensures.bind_keeps ?_ fun _ => Proc.Keeps.pure _ _
    intro t a u hu
    cases hu
    exact marked_on t (.accelerometerInterrupt r)
  exact hon s go u h

theorem Passed.timedOut_iff {r : Request} {go : Bool} {u : State} (h : Passed r s go u) :
    (r.marked s).TimedOut (s.ranOut 0) source ↔ u.TimedOut (u.ranOut 0) source := by
  rw [State.TimedOut, State.TimedOut, State.Off, State.Off, h.configuration, h.ranOut]
  simp only [State.Expired, h.timeouts]
  exact Iff.rfl

/-- A start function for another source. -/
theorem kept_start_other (hsource : source ≠ .accelerometerInterrupt) {r : Request}
    (hr : r.source ≠ source) (hs : Good source s) :
    (Matches source (step s (.start r)) ↔ LapseHolds source s r) ∧
      (LapseHolds source s r → Good source (step s (.start r))) := by
  have hframe : SameFor source s (begin r s).2 := keeps_begin hr s (SameFor.refl source s)
  have hquiet : ∀ u, step s (.start r) = u → Good source u → LapseHolds source s r →
      (Matches source (step s (.start r)) ↔ LapseHolds source s r) ∧
        (LapseHolds source s r → Good source (step s (.start r))) := by
    rintro u rfl hu hholds
    exact ⟨⟨fun _ => hholds, fun _ => hu.matches_bits⟩, fun _ => hu⟩
  have hthrough : ∀ u, begin r s = (.ok true, u) →
      (r.timeoutMs ≠ 0 → u.TimedOut (u.ranOut 0) source →
        (ReleaseHolds u source ↔ LapseHolds source s r)) →
      ((r.timeoutMs ≠ 0 → ¬ u.TimedOut (u.ranOut 0) source) → LapseHolds source s r) →
      (Matches source (step s (.start r)) ↔ LapseHolds source s r) ∧
        (LapseHolds source s r → Good source (step s (.start r))) := by
    intro u hrun hrelease hholds
    rw [hrun] at hframe
    have hu : Good source u := hframe.good hs
    have hstep : step s (.start r) = (timeoutStart r.source r.streaming r.timeoutMs u).2 := by
      rw [step, exec, start_of_ok hrun]
    by_cases hout : r.timeoutMs ≠ 0 ∧ u.TimedOut (u.ranOut 0) source
    · obtain ⟨hhalted, hoff⟩ := timeoutStart_ended hsource hout.1 hu hout.2 r.source r.streaming
      rw [hstep, matches_of_halted hsource hhalted, hoff, hrelease hout.1 hout.2]
      refine ⟨Iff.rfl, fun h => good_of_halted hhalted (hoff.mpr ?_)⟩
      exact (hrelease hout.1 hout.2).mpr h
    · have hnot : r.timeoutMs ≠ 0 → ¬ u.TimedOut (u.ranOut 0) source := fun hms h => hout ⟨hms, h⟩
      exact hquiet _ hstep (timeoutStart_good hsource hu hnot _ _).1 (hholds hnot)
  by_cases hint : r.source = .accelerometerInterrupt
  · have hholds : LapseHolds source s r := by
      refine fun _ _ _ _ => ⟨hr, fun _ hoff => ?_⟩
      rw [← hint] at hoff
      exact absurd hoff (marked_on s r)
    rcases hrun : begin r s with ⟨e | go, u⟩
    · rw [hrun] at hframe
      exact hquiet u (by rw [step, exec, start_of_error hrun]) (hframe.good hs) hholds
    cases go with
    | false =>
      rw [hrun] at hframe
      exact hquiet u (by rw [step, exec, start_of_ignored hrun]) (hframe.good hs) hholds
    | true =>
      refine hthrough u hrun (fun _ _ => ⟨fun _ => hholds, fun _ _ hoff => ?_⟩) fun _ => hholds
      cases r with
      | accelerometerInterrupt r => exact absurd hoff (beginInterrupt_on hrun)
      | _ => cases hint
  · rcases begin_cases r hint s with ⟨e, u, hrun, hfailed⟩ | ⟨go, u, hrun, hpassed⟩
    · rw [hrun] at hframe
      refine hquiet u (by rw [step, exec, start_of_error hrun]) (hframe.good hs) ?_
      exact fun _ hspi htimes => absurd htimes (hfailed.not_times hspi)
    cases go with
    | false =>
      rw [hrun] at hframe
      refine hquiet u (by rw [step, exec, start_of_ignored hrun]) (hframe.good hs) ?_
      exact fun _ _ htimes => absurd (hpassed.times_iff.mp htimes).2 Bool.false_ne_true
    | true =>
      have htimes : r.timeoutMs ≠ 0 → r.Times s := fun hms => hpassed.times_iff.mpr ⟨hms, rfl⟩
      have haccel : source = .accelerometer → u.accel = s.accel := by
        intro hacc
        refine hpassed.accel ?_
        cases r with
        | accelerometer r => exact absurd hacc.symm hr
        | _ => rfl
      refine hthrough u hrun (fun hms hout => ⟨fun h _ _ _ _ => ⟨hr, fun hacc hoff => ?_⟩,
        fun h hacc hoff => ?_⟩) fun hnot _ _ htimes h =>
          absurd (hpassed.timedOut_iff.mp h) (hnot htimes.1)
      · rw [← haccel hacc]
        refine h hacc ?_
        rw [State.Off, hpassed.configuration]
        exact hoff
      · rw [haccel hacc]
        refine (h hsource hpassed.accesses (htimes hms) (hpassed.timedOut_iff.mpr hout)).2 hacc ?_
        rw [State.Off, ← hpassed.configuration]
        exact hoff

/-- A start function for the source. -/
theorem kept_start {r : Request} (hr : r.source ≠ .accelerometerInterrupt)
    (hs : Good r.source s) :
    (Kept r.source s (.start r) ↔ StartHolds s r ∧ LapseHolds r.source s r) ∧
      (StartHolds s r ∧ LapseHolds r.source s r → Good r.source (step s (.start r))) := by
  have hkept : ∀ u, step s (.start r) = u → Good r.source u → RunsAsRecorded r.source u →
      StartHolds s r ∧ LapseHolds r.source s r →
      (Kept r.source s (.start r) ↔ StartHolds s r ∧ LapseHolds r.source s r) ∧
        (StartHolds s r ∧ LapseHolds r.source s r → Good r.source (step s (.start r))) := by
    rintro u rfl hu hruns hholds
    exact ⟨⟨fun _ => hholds, fun _ => ⟨hu.matches_bits, fun _ _ => hruns⟩⟩, fun _ => hu⟩
  rcases begin_cases r hr s with ⟨e, u, hrun, hfailed⟩ | ⟨go, u, hrun, hpassed⟩
  · have hstep : step s (.start r) = u := by rw [step, exec, start_of_error hrun]
    have hres : (exec (.start r) s).1 = .error e := by rw [exec, start_of_error hrun]
    have hlapse : LapseHolds r.source s r :=
      fun _ hspi htimes => absurd htimes (hfailed.not_times hspi)
    rw [Kept, hstep, hres]
    refine ⟨⟨fun h => ⟨(hfailed.matches_iff hs).mp h.1, hlapse⟩, fun h => ?_⟩,
      fun h => hfailed.good hs h.1⟩
    exact ⟨(hfailed.matches_iff hs).mpr h.1, fun _ h' => by cases h'⟩
  · have hruns := hpassed.runs hs
    have hon : ¬ u.Off r.source := by
      rw [State.Off, hpassed.configuration]
      exact marked_on s r
    have hu : Good r.source u := good_of_runs hruns hon
    have hstart : StartHolds s r := fun _ hrestart => .inl (hpassed.accepted hrestart)
    cases hgo : go with
    | false =>
      rw [hgo] at hrun
      have hstep : step s (.start r) = u := by rw [step, exec, start_of_ignored hrun]
      refine hkept u hstep hu hruns ⟨hstart, fun _ _ htimes => ?_⟩
      exact absurd ((hpassed.times_iff.mp htimes).2.symm.trans hgo) (by decide)
    | true =>
      rw [hgo] at hrun
      have hstep : step s (.start r) =
          (timeoutStart r.source r.streaming r.timeoutMs u).2 := by
        rw [step, exec, start_of_ok hrun]
      have htimed : (r.marked s).TimedOut (s.ranOut 0) r.source ↔
          u.TimedOut (u.ranOut 0) r.source := hpassed.timedOut_iff
      by_cases hout : r.timeoutMs ≠ 0 ∧ u.TimedOut (u.ranOut 0) r.source
      · have hholds : ¬ LapseHolds r.source s r := fun h =>
          (h hr hpassed.accesses (hpassed.times_iff.mpr ⟨hout.1, hgo⟩) (htimed.mpr hout.2)).1 rfl
        have hended := timeoutStart_ended hr hout.1 hu hout.2 r.source r.streaming
        have hres : (exec (.start r) s).1 = .ok () := by rw [exec, start_of_ok hrun]
        refine ⟨⟨fun h => ?_, fun h => absurd h.2 hholds⟩, fun h => absurd h.2 hholds⟩
        have hruns' := h.2 rfl hres
        rw [hstep] at hruns'
        exact absurd hruns' (not_runs_of_halted hr hended.1)
      · have hnot : r.timeoutMs ≠ 0 → ¬ u.TimedOut (u.ranOut 0) r.source :=
          fun hms h => hout ⟨hms, h⟩
        obtain ⟨hgood, hon'⟩ := timeoutStart_good hr hu hnot r.source r.streaming
        refine hkept _ hstep hgood (hgood.recorded (hon' hon)) ⟨hstart, fun _ _ htimes h => ?_⟩
        exact absurd (htimed.mp h) (hnot htimes.1)

theorem good_accelerometerInterrupt (s : State) : Good .accelerometerInterrupt s :=
  ⟨fun _ he => absurd he List.not_mem_nil, fun _ _ he => absurd he List.not_mem_nil⟩

theorem holds_accelerometerInterrupt (s : State) (c : Call) :
    Holds .accelerometerInterrupt s c := by
  have hstop : ∀ other streaming, other = .accelerometerInterrupt →
      StopHolds s other streaming := by
    rintro _ _ rfl h
    cases h
  cases c with
  | start r =>
    refine ⟨fun hr _ _ => ?_, fun h => absurd rfl h⟩
    cases r with
    | accelerometerInterrupt r => exact .inl rfl
    | _ => cases hr
  | stop other streaming => exact hstop other streaming
  | timeout other streaming => exact fun h _ => hstop other streaming h
  | selftest _ => trivial

/-- One call: the timers match the bits afterwards exactly under the condition, and
the invariant is kept. -/
theorem kept_iff_holds (hs : Good source s) (c : Call) :
    (Kept source s c ↔ Holds source s c) ∧ (Holds source s c → Good source (step s c)) := by
  by_cases hsource : source = .accelerometerInterrupt
  · subst hsource
    exact ⟨⟨fun _ => holds_accelerometerInterrupt s c,
      fun _ => ⟨(good_accelerometerInterrupt _).matches_bits,
        fun _ _ _ he => absurd he List.not_mem_nil⟩⟩, fun _ => good_accelerometerInterrupt _⟩
  have hother : SameFor source s (step s c) → ¬ c.Starts source → Holds source s c →
      (Kept source s c ↔ Holds source s c) ∧ (Holds source s c → Good source (step s c)) :=
    fun h hstarts hholds => ⟨⟨fun _ => hholds,
      fun _ => ⟨(h.good hs).matches_bits, fun h' => absurd h' hstarts⟩⟩, fun _ => h.good hs⟩
  cases c with
  | start r =>
    by_cases hr : r.source = source
    · subst hr
      obtain ⟨h1, h2⟩ := kept_start hsource hs
      exact ⟨⟨fun h => ⟨fun _ => (h1.mp h).1, (h1.mp h).2⟩, fun h => h1.mpr ⟨h.1 rfl, h.2⟩⟩,
        fun h => h2 ⟨h.1 rfl, h.2⟩⟩
    · obtain ⟨h1, h2⟩ := kept_start_other hsource hr hs
      exact ⟨⟨fun h => ⟨fun h' => absurd h' hr, h1.mp h.1⟩,
        fun h => ⟨h1.mpr h.2, fun h' => absurd h' hr⟩⟩, fun h => h2 h.2⟩
  | stop other streaming =>
    by_cases ho : other = source
    · subst ho
      obtain ⟨h1, h2⟩ := kept_stop hsource streaming hs
      exact ⟨⟨fun h _ => h1.mp h.1, fun h => ⟨h1.mpr (h rfl), fun h' => h'.elim⟩⟩,
        fun h => h2 (h rfl)⟩
    · exact hother (keeps_stop ho streaming s (SameFor.refl source s)) (fun h => h)
        fun h => absurd h ho
  | timeout other streaming =>
    by_cases ho : other = source
    · subst ho
      by_cases hactive : (s.timeouts other streaming).isSome = true
      · have hstep : step s (.timeout other streaming) =
            (setTimeout other streaming none (stop other streaming s).2).2 := by
          rw [step, exec, timeout, Proc.get_bind_apply, Proc.when_pos hactive]
          rfl
        obtain ⟨h1, h2⟩ := kept_stop hsource streaming hs
        rw [Kept, hstep]
        refine ⟨⟨fun h _ _ => h1.mp (matches_of_timeouts.mp h.1), fun h => ?_⟩,
          fun h => good_of_timeouts (h2 (h rfl hactive))⟩
        exact ⟨matches_of_timeouts.mpr (h1.mpr (h rfl hactive)), fun h' => h'.elim⟩
      · have hstep : step s (.timeout other streaming) = s := by
          rw [step, exec, timeout, Proc.get_bind_apply, Proc.when_neg hactive]
          rfl
        refine hother ?_ (fun h => h) fun _ h => absurd h hactive
        rw [hstep]
        exact SameFor.refl other s
    · exact hother (keeps_timeout ho streaming s (SameFor.refl source s)) (fun h => h)
        fun h => absurd h ho
  | selftest fires =>
    exact hother (((keeps_onAccel _).bind fun _ => Proc.Keeps.pure _ ()) s (SameFor.refl source s))
      (fun h => h) trivial

end Call

/-- From the initialisation on, the timers of a source match its bits after every call,
and run as recorded after every successful start, exactly if no timer is refused while
a bit is set or after another one was started, no start finds that the timeouts of its
source have run out, and no power-down fails while the accelerometer's bit is set. -/
theorem timers_match_iff (source : Source) (accel : Accel.State) (timerFaults : Nat → Bool)
    (ranOut : Nat → Source → Bool → Bool) (calls : List Call) :
    Along step (Kept source) (init accel timerFaults ranOut) calls ↔
      Along step (Holds source) (init accel timerFaults ranOut) calls := by
  have hinit : Good source (init accel timerFaults ranOut) :=
    good_of_halted (fun _ _ => rfl) ⟨rfl, rfl⟩
  refine along_congr (I := Good source) (fun s c hs => (kept_iff_holds hs c).1) ?_ hinit calls
  intro s c hs hkept
  obtain ⟨h1, h2⟩ := kept_iff_holds hs c
  exact h2 (h1.mp hkept)

instance (source : Source) (s : State) : Decidable (Matches source s) :=
  inferInstanceAs (Decidable (∀ entry ∈ s.recordedTimers source,
    (s.timers entry.1).isSome = true ↔ ¬ s.Off source))

/-- A sensor after reset. -/
def resetAccel : Accel.State :=
  { registers := fun addr => if addr = .whoAmI then 0x33 else 0
    out := fun _ => 0
    latched := false
    spi := fun _ => none
    initDone := false
    datarate := .hz10
    fullScale := .g2
    operatingMode := .powerDown
    hpFilter := .disable
    interruptEvent := .noInterrupt
    interruptHandler := none
    thresholdMg := 250
    minimalDurationMs := 0
    selftestEventCounter := 0 }

/-- The battery is sampled every second. A request for every other second finds no
memory for the timer and is repeated: the second call ignores it and returns
success, and the battery's bit stays set without a timer. Or the timers all start, but the
former timeout of a minute has run out when the second request sets its own: the start
returns success with the timer stopped. -/
theorem refused_restart_is_forgotten :
    let s := run step (init resetAccel (fun i => i = 1) fun _ _ _ => false)
      [.start (.battery ⟨0, 1000, false⟩), .start (.battery ⟨0, 2000, false⟩)]
    let t := step (init resetAccel (fun _ => false) fun i _ _ => i = 1)
      (.start (.battery ⟨60000, 1000, false⟩))
    (s.configuration .battery false = true ∧ s.timers .battery = none ∧
      ¬ Matches .battery s ∧
      (exec (.start (.battery ⟨0, 2000, false⟩)) s).1 = .ok () ∧
      ¬ Kept .battery s (.start (.battery ⟨0, 2000, false⟩))) ∧
    (t.timers .battery = some 32768 ∧
      (exec (.start (.battery ⟨60000, 2000, false⟩)) t).1 = .ok () ∧
      (step t (.start (.battery ⟨60000, 2000, false⟩))).timers .battery = none ∧
      ¬ Kept .battery t (.start (.battery ⟨60000, 2000, false⟩))) := by
  refine ⟨⟨rfl, rfl, by decide, rfl, fun h => ?_⟩, rfl, rfl, rfl, fun h => ?_⟩
  · exact absurd h.1 (by decide)
  · have hruns := h.2 rfl rfl (.battery, 65536) (by decide)
    exact absurd hruns (by decide)

end OpenBadge.Sampling
