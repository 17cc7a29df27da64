import OpenBadge.Sampling.Model

/-!
# What the start and stop functions keep

A property of the state that the calls for the timers, the bits and the timeouts keep is
kept by what the start and stop functions have in common.
-/

namespace OpenBadge.Sampling

open OpenBadge.Lib

variable {P : State → Prop} {source : Source} {timers : List (Timer × Nat)}

theorem keeps_stopTimers_of (h : ∀ entry ∈ timers, Proc.Keeps P (appTimerStop entry.1)) :
    Proc.Keeps P (stopTimers timers) := by
  induction timers with
  | nil => exact Proc.Keeps.pure _ ()
  | cons entry timers ih =>
    exact (h entry List.mem_cons_self).bind fun _ =>
      ih fun e he => h e (List.mem_cons_of_mem _ he)

theorem keeps_startTimers_of
    (h : ∀ entry ∈ timers, Proc.Keeps P (appTimerStart entry.1 entry.2)) :
    Proc.Keeps P (startTimers timers) := by
  induction timers with
  | nil => exact Proc.Keeps.pure _ ()
  | cons entry timers ih =>
    exact (h entry List.mem_cons_self).bind fun _ =>
      ih fun e he => h e (List.mem_cons_of_mem _ he)

theorem keeps_stopSampling_of {release : M Unit}
    (hstop : ∀ entry ∈ timers, Proc.Keeps P (appTimerStop entry.1))
    (hrelease : Proc.Keeps P release) {streaming : Bool}
    (hbit : Proc.Keeps P (setBit source streaming false)) :
    Proc.Keeps P (stopSampling source timers release streaming) :=
  Proc.Keeps.bind (fun _ hs => hs) fun _ =>
    (Proc.Keeps.when fun _ => (keeps_stopTimers_of hstop).bind fun _ => hrelease).bind fun _ =>
      hbit

/-- A property that is not about the sensor, the bits and the timers. -/
theorem keeps_stop_of
    (h : ∀ s accel configuration timers scanning, P s →
      P { s with accel, configuration, timers, scanning })
    (source : Source) (streaming : Bool) : Proc.Keeps P (stop source streaming) := by
  have haccel : ∀ {α : Type} (x : Accel.M α), Proc.Keeps P (onAccel x) :=
    fun _ s hs => h s _ s.configuration s.timers s.scanning hs
  have hcommon : ∀ {source : Source} {timers : List (Timer × Nat)} {release : M Unit},
      Proc.Keeps P release → Proc.Keeps P (stopSampling source timers release streaming) :=
    fun hrelease => keeps_stopSampling_of
      (fun _ _ s hs => h s s.accel s.configuration _ s.scanning hs) hrelease
      fun s hs => h s s.accel _ s.timers s.scanning hs
  cases source with
  | accelerometer =>
    exact Proc.Keeps.bind (fun _ hs => hs) fun _ => hcommon (Proc.Keeps.when fun _ => haccel _)
  | accelerometerInterrupt =>
    exact Proc.Keeps.bind (fun _ hs => hs) fun _ =>
      hcommon ((haccel _).bind fun _ => Proc.Keeps.when fun _ => haccel _)
  | battery => exact hcommon (Proc.Keeps.pure _ ())
  | microphone => exact hcommon (Proc.Keeps.pure _ ())
  | scan => exact hcommon fun s hs => h s s.accel s.configuration s.timers false hs

/-! ## The timeouts -/

theorem keeps_setTimeout_of (h : ∀ s timeouts ranOut, P s → P { s with timeouts, ranOut })
    (streaming : Bool) (timeoutMs : Option UInt32) :
    Proc.Keeps P (setTimeout source streaming timeoutMs) := fun s hs => h s _ s.ranOut hs

theorem keeps_timeout_of {streaming : Bool} (hstop : Proc.Keeps P (stop source streaming))
    (h : ∀ s timeouts ranOut, P s → P { s with timeouts, ranOut }) :
    Proc.Keeps P (timeout source streaming) :=
  Proc.Keeps.bind (fun _ hs => hs) fun _ => Proc.Keeps.when fun _ =>
    hstop.attempt.bind fun _ => keeps_setTimeout_of h _ _

theorem keeps_adaptRemainingMs_of {ranOut : Source → Bool → Bool} {entries : List (Source × Bool)}
    (h : ∀ entry ∈ entries, ranOut entry.1 entry.2 = true →
      Proc.Keeps P (timeout entry.1 entry.2)) :
    Proc.Keeps P (adaptRemainingMs ranOut entries) := by
  induction entries with
  | nil => exact Proc.Keeps.pure _ ()
  | cons entry entries ih =>
    exact (Proc.Keeps.when fun hout => h entry List.mem_cons_self hout).bind fun _ =>
      ih fun e he => h e (List.mem_cons_of_mem _ he)

/-- A timeout that begins may stop any source. -/
theorem keeps_timeoutStart_of
    (hstop : ∀ source streaming, Proc.Keeps P (stop source streaming))
    (h : ∀ s timeouts ranOut, P s → P { s with timeouts, ranOut }) (streaming : Bool)
    (timeoutMs : UInt32) : Proc.Keeps P (timeoutStart source streaming timeoutMs) := by
  unfold timeoutStart
  by_cases hms : timeoutMs = 0
  · rw [Proc.branch_pos hms]
    exact keeps_setTimeout_of h _ _
  · rw [Proc.branch_neg hms]
    refine Proc.Keeps.bind (fun _ hs => hs) fun s =>
      Proc.Keeps.bind (fun s hs => h s s.timeouts _ hs) fun _ => ?_
    exact (keeps_adaptRemainingMs_of fun entry _ _ =>
      keeps_timeout_of (hstop entry.1 entry.2) h).bind fun _ => keeps_setTimeout_of h _ _

theorem timeout_ok (source : Source) (streaming : Bool) (s : State) :
    (timeout source streaming s).1 = .ok () := by
  rw [timeout, Proc.get_bind_apply]
  by_cases hactive : (s.timeouts source streaming).isSome = true
  · rw [Proc.when_pos hactive]
    rfl
  · rw [Proc.when_neg hactive]
    rfl

theorem adaptRemainingMs_ok (ranOut : Source → Bool → Bool) (entries : List (Source × Bool))
    (s : State) : (adaptRemainingMs ranOut entries s).1 = .ok () := by
  induction entries generalizing s with
  | nil => rfl
  | cons entry entries ih =>
    obtain ⟨t, ht⟩ : ∃ t, Proc.when (ranOut entry.1 entry.2 = true) (timeout entry.1 entry.2) s =
        (.ok (), t) := by
      by_cases hout : ranOut entry.1 entry.2 = true
      · rw [Proc.when_pos hout]
        exact ⟨_, Proc.eq_of_fst (timeout_ok ..)⟩
      · rw [Proc.when_neg hout]
        exact ⟨s, rfl⟩
    rw [adaptRemainingMs, Proc.bind_ok ht]
    exact ih t

/-- The results of the stop functions are not looked at. -/
theorem timeoutStart_ok (source : Source) (streaming : Bool) (timeoutMs : UInt32) (s : State) :
    (timeoutStart source streaming timeoutMs s).1 = .ok () := by
  unfold timeoutStart
  by_cases hms : timeoutMs = 0
  · rw [Proc.branch_pos hms]
    rfl
  · rw [Proc.branch_neg hms, Proc.get_bind_apply, Proc.modify_bind_apply,
      Proc.bind_ok (Proc.eq_of_fst (adaptRemainingMs_ok ..))]
    rfl

/-! ## Properties that are not about timers -/

section Untimed

variable (h : ∀ s timers faults, P s → P { s with timers, timerFaults := faults })
include h

theorem keeps_appTimerStop_of (timer : Timer) : Proc.Keeps P (appTimerStop timer) :=
  fun s hs => h s _ s.timerFaults hs

theorem keeps_appTimerStart_of (timer : Timer) (ticks : Nat) :
    Proc.Keeps P (appTimerStart timer ticks) := by
  intro s hs
  rw [appTimerStart]
  dsimp only
  split
  · exact h s s.timers _ hs
  split
  · exact h s s.timers _ hs
  split
  · exact h s s.timers _ hs
  · exact h s _ _ hs

end Untimed

/-! ## Properties that are not about chunks -/

theorem writeChunk_ok (source : Source) (offset : Nat) (data : List UInt8) (s : State) :
    ∃ fifos, writeChunk source offset data s = (.ok (), { s with fifos }) := by
  rw [writeChunk, Proc.modify_apply]
  split
  · exact ⟨s.fifos, rfl⟩
  · exact ⟨_, rfl⟩

theorem stampChunk_ok (source : Source) (s : State) :
    ∃ fifos, stampChunk source s = (.ok (), { s with fifos }) := writeChunk_ok source 0 _ s

section Unchunked

variable (h : ∀ s fifos chunks aggregated count, P s → P { s with
  fifos, chunks, microphoneAggregated := aggregated, microphoneAggregatedCount := count })
include h

theorem keeps_openChunk_of (source : Source) : Proc.Keeps P (openChunk source) :=
  fun s hs => h s _ _ s.microphoneAggregated s.microphoneAggregatedCount hs

theorem keeps_writeChunk_of (source : Source) (offset : Nat) (data : List UInt8) :
    Proc.Keeps P (writeChunk source offset data) := by
  intro s hs
  obtain ⟨fifos, ht⟩ := writeChunk_ok source offset data s
  rw [ht]
  exact h s fifos s.chunks s.microphoneAggregated s.microphoneAggregatedCount hs

theorem keeps_stampChunk_of (source : Source) : Proc.Keeps P (stampChunk source) :=
  Proc.Keeps.bind (fun _ hs => hs) fun _ => keeps_writeChunk_of h source _ _

theorem keeps_setupAccelerometerChunk_of : Proc.Keeps P setupAccelerometerChunk :=
  (keeps_openChunk_of h _).bind fun _ => (keeps_stampChunk_of h _).bind fun _ =>
    keeps_writeChunk_of h _ _ _

theorem keeps_setupMicrophoneChunk_of : Proc.Keeps P setupMicrophoneChunk := by
  refine Proc.Keeps.bind (fun s hs => h s s.fifos s.chunks _ _ hs) fun _ => ?_
  refine (keeps_openChunk_of h _).bind fun _ => (keeps_stampChunk_of h _).bind fun _ => ?_
  exact Proc.Keeps.bind (fun _ hs => hs) fun _ =>
    (keeps_writeChunk_of h _ _ _).bind fun _ => keeps_writeChunk_of h _ _ _

end Unchunked

end OpenBadge.Sampling
