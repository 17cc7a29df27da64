import OpenBadge.Sampling.CallbackRules
import OpenBadge.Sampling.Timers

/-!
# Samples go into open chunks

In every run the chunks are sound, whatever callbacks break into the tasks. What a callback
reads and writes behind a chunk pointer is the open chunk, except where a chunk was never
set up and only streamed data is wanted, or where the interrupt closed its chunk and it was
not set up again.
-/

namespace OpenBadge.Sampling

open OpenBadge.Lib

/-- The latest that happened to the chunk, opening or closing, is that it was opened. -/
def openedLast (source : Source) : List Event → Bool
  | [] => false
  | e :: before =>
    if e = .opened source then true else if e = .closed source then false
    else openedLast source before

/-- What is read and written behind the chunk pointers in a callback, with the state at that
time. -/
def accesses (flash : Nat → UInt8) (b : Badge) : BadgeAction → List (Event × State)
  | .callback c => (c.program flash).visits b.state
  | _ => []

/-- Everything that a callback reads and writes is the open chunk. -/
def KeepsToChunks (flash : Nat → UInt8) (b : Badge) (a : BadgeAction) : Prop :=
  ∀ access ∈ accesses flash b a, AccessOk access.1 access.2

instance (flash : Nat → UInt8) (b : Badge) (a : BadgeAction) :
    Decidable (KeepsToChunks flash b a) := inferInstanceAs (Decidable (∀ _ ∈ _, _))

/-- A callback that reads the number of samples for the stream alone comes after a set-up of
the accelerometer chunk, and one that stores the time of an interrupt after a set-up of its
chunk since the last interrupt that closed it. -/
def Prepared (b : Badge) : BadgeAction → Prop
  | .callback .accelerometerFifo =>
    (b.state.timers .accelerometerFifo).isSome = true →
      b.state.configuration .accelerometer false = false →
      b.state.configuration .accelerometer true = true → .opened .accelerometer ∈ b.history
  | .callback .int1 =>
    b.state.accel.CanFire →
      b.state.accel.calledHandler = some .samplingAccelerometerInterruptCallback →
      b.state.configuration .accelerometerInterrupt false = true →
      openedLast .accelerometerInterrupt b.history = true
  | _ => True

/-- The history tells which chunks were opened, and which of them are. -/
def Tells (history : List Event) (s : State) : Prop :=
  ∀ source, (s.chunks source).isSome = decide (.opened source ∈ history) ∧
    (s.fifos source).chunkOpenWrite = openedLast source history

theorem Tells.next {history : List Event} {e : Event} {s t : State} (h : Tells history s)
    (he : Honest e s t) : Tells (e :: history) t := by
  intro source
  obtain ⟨hchunk, hopen⟩ := h source
  obtain ⟨hchunk', hopen'⟩ := he source
  constructor
  · rw [hchunk', hchunk]
    simp only [List.mem_cons, Bool.decide_or, eq_comm]
  · rw [hopen', hopen, openedLast]

/-- The task that is executing is safe, and the history tells the truth. -/
structure Sane (b : Badge) : Prop where
  safe : Program.Safe taskRules b.rest (fun _ => Sound none) b.state
  tells : Tells b.history b.state

section Runs

variable {flash : Nat → UInt8} {b : Badge}

theorem Sane.sound (h : Sane b) :
    ∃ busy, busy ≠ some .accelerometerInterrupt ∧ Sound busy b.state := by
  have hsafe := h.safe
  cases hrest : b.rest with
  | done r =>
    rw [hrest] at hsafe
    cases r with
    | ok a => exact ⟨none, nofun, hsafe _ .refl⟩
    | error e => exact ⟨none, nofun, hsafe _ .refl⟩
  | step label x k =>
    rw [hrest] at hsafe
    exact (hsafe _ .refl).1.1

theorem sane_init (accel : Accel.State) (timerFaults : Nat → Bool)
    (ranOut : Nat → Source → Bool → Bool) : Sane (Badge.init accel timerFaults ranOut) := by
  constructor
  · exact Program.Triple.pure (Q := fun _ => Sound none) () stable_none _
      ⟨fun source _ _ => filling_init accel timerFaults ranOut, nofun⟩
  · exact fun source => ⟨rfl, rfl⟩

theorem Sane.callback (h : Sane b) (c : Callback) : Sane (b.callback flash c) := by
  obtain ⟨busy, hbusy, hsound⟩ := h.sound
  have hkeeps := abides_callback flash hbusy hsound c
  constructor
  · exact h.safe.interfere (hkeeps.run fun _ ht => ht)
  · exact hkeeps.labels (fun _ _ _ _ hg ht => ht.next hg.2) h.tells

theorem Sane.proceed (h : Sane b) : Sane b.proceed := by
  have hsafe := h.safe
  rw [Badge.proceed]
  split
  · exact h
  · next label x k hrest =>
    rw [hrest] at hsafe
    obtain ⟨hguarantee, hnext⟩ := hsafe _ .refl
    exact ⟨hnext, h.tells.next hguarantee.2⟩

theorem Sane.step (h : Sane b) (a : BadgeAction) : Sane (b.step flash a) := by
  cases a with
  | begin t =>
    rw [Badge.step]
    split
    · next hdone =>
      have hidle : Sound none b.state := by
        have hsafe := h.safe
        cases hrest : b.rest with
        | done r =>
          rw [hrest] at hsafe
          cases r with
          | ok a => exact hsafe _ .refl
          | error e => exact hsafe _ .refl
        | step label x k =>
          rw [hrest] at hdone
          cases hdone
      exact ⟨triple_task t _ hidle, h.tells⟩
    · exact h
  | proceed => exact h.proceed
  | callback c => exact h.callback c
  | clock timestamp =>
    exact ⟨h.safe.interfere fun source _ => LaneStep.refl _ _, h.tells⟩
  | sense fifoSrcReg out =>
    exact ⟨h.safe.interfere fun source _ => LaneStep.refl _ _, h.tells⟩

theorem Sane.prepared_iff (h : Sane b) (c : Callback) :
    PointerOpen b.state c ↔ Prepared b (.callback c) := by
  obtain ⟨busy, hbusy, hsound⟩ := h.sound
  cases c with
  | accelerometerFifo =>
    have hchunk : (b.state.lane .accelerometer).chunk ≠ none ↔
        .opened .accelerometer ∈ b.history := by
      rw [Option.ne_none_iff_isSome, ← decide_eq_true_iff (p := _ ∈ b.history),
        ← (h.tells .accelerometer).1]
      rfl
    constructor
    · intro hpointer hr hoff hon
      exact hchunk.mp (hpointer hr fun hs => by rw [hs.2] at hon; cases hon)
    · intro hprepared hr hon
      cases hbit : b.state.configuration .accelerometer false with
      | true =>
        have hfill : Filling .accelerometer (· < Source.accelerometer.dataSize)
            (b.state.lane .accelerometer) := hsound.running nofun hr
        exact hfill.sampling hbit
      | false =>
        refine hchunk.mpr (hprepared hr hbit ?_)
        exact Bool.eq_true_of_not_eq_false fun hs => hon ⟨hbit, hs⟩
  | int1 =>
    have hopen : (b.state.lane .accelerometerInterrupt).fifo.chunkOpenWrite =
        openedLast .accelerometerInterrupt b.history := (h.tells .accelerometerInterrupt).2
    rw [PointerOpen, Prepared, hopen]
  | battery voltage => exact Iff.rfl
  | microphone => exact Iff.rfl
  | microphoneAggregated values => exact Iff.rfl
  | resetTimer => exact Iff.rfl

/-- The callback of the accelerometer reads the number of samples first. -/
theorem mem_visits_accelerometerFifo {s : State} (hr : (s.timers .accelerometerFifo).isSome = true)
    (hon : ¬ s.Off .accelerometer) :
    (.access .accelerometer none, s) ∈ (Callback.accelerometerFifo.program flash).visits s := by
  refine List.mem_cons_of_mem _ ?_
  change _ ∈ (Program.when _ _).visits s
  rw [Program.when_pos hr]
  refine List.mem_cons_of_mem _ ?_
  change _ ∈ (Program.when _ _).visits s
  rw [Program.when_pos hon]
  exact List.mem_cons_self

/-- The callback of INT1 stores the time first. -/
theorem mem_visits_interruptCallback {s : State}
    (hbit : s.configuration .accelerometerInterrupt false = true) :
    (.access .accelerometerInterrupt none, s) ∈
      Interrupted.accelerometerInterruptCallback.visits s := by
  have hon : ¬ s.Off .accelerometerInterrupt := fun h => by
    rw [h.1] at hbit
    cases hbit
  refine List.mem_cons_of_mem _ ?_
  change _ ∈ (Program.when _ _).visits s
  rw [Program.when_pos hon]
  rw [Program.when_pos hbit]
  exact List.mem_cons_self

theorem mem_visits_int1 (flash : Nat → UInt8) {s : State} (hfires : s.accel.CanFire)
    (hhandler : s.accel.calledHandler = some .samplingAccelerometerInterruptCallback)
    (hbit : s.configuration .accelerometerInterrupt false = true) :
    (.access .accelerometerInterrupt none, { s with accel := { s.accel with latched := true } }) ∈
      (Callback.int1.program flash).visits s := by
  refine List.mem_cons_of_mem _ ?_
  change _ ∈ (Program.when _ _).visits s
  rw [Program.when_pos hfires]
  refine List.mem_cons_of_mem _ ?_
  change _ ∈ (Program.when _ _).visits _
  rw [Program.when_pos hhandler]
  exact mem_visits_interruptCallback hbit

/-- A callback keeps to the open chunks exactly when it is prepared. -/
theorem Sane.keepsToChunks_iff (h : Sane b) (a : BadgeAction) :
    KeepsToChunks flash b a ↔ Prepared b a := by
  cases a with
  | begin t => exact ⟨fun _ => trivial, fun _ _ hv => nomatch hv⟩
  | proceed => exact ⟨fun _ => trivial, fun _ _ hv => nomatch hv⟩
  | clock timestamp => exact ⟨fun _ => trivial, fun _ _ hv => nomatch hv⟩
  | sense fifoSrcReg out => exact ⟨fun _ => trivial, fun _ _ hv => nomatch hv⟩
  | callback c =>
    obtain ⟨busy, hbusy, hsound⟩ := h.sound
    rw [← h.prepared_iff]
    constructor
    · intro hkeeps
      cases c with
      | accelerometerFifo =>
        intro hr hon hnone
        have hopen := (hkeeps _ (mem_visits_accelerometerFifo hr hon)).1
        rw [hopen.2] at hnone
        cases hnone
      | int1 =>
        intro hfires hhandler hbit
        exact (hkeeps _ (mem_visits_int1 flash hfires hhandler hbit)).1.1
      | _ => trivial
    · intro hpointer access haccess
      obtain ⟨t, hguarantee⟩ := (abides_callback flash hbusy hsound c).visits access haccess
      exact hguarantee.1 (.inl hpointer)

/-- In every run the callbacks read and write behind the chunk pointers nothing but the chunk
that is open for writing, and samples inside its array, exactly when they are prepared. -/
theorem samples_in_open_chunks (flash : Nat → UInt8) (accel : Accel.State)
    (timerFaults : Nat → Bool) (ranOut : Nat → Source → Bool → Bool)
    (actions : List BadgeAction) :
    Along (Badge.step flash) (KeepsToChunks flash) (Badge.init accel timerFaults ranOut) actions ↔
      Along (Badge.step flash) Prepared (Badge.init accel timerFaults ranOut) actions :=
  along_congr (fun _ a h => h.keepsToChunks_iff a) (fun _ a h _ => h.step a)
    (sane_init accel timerFaults ranOut) actions

end Runs

/-- Accelerometer data is streamed before it was ever sampled. -/
def streamFirst : List BadgeAction :=
  .begin (.start (.accelerometer ⟨0, 1, 0, 10, 1000, true⟩)) :: List.replicate 16 .proceed ++
    [.callback .accelerometerFifo]

/-- A motion closes the chunk of the interrupt, and the start of the stream resets the
interrupt before the reset timer expires. -/
def motionAgain : List BadgeAction :=
  .begin (.start (.accelerometerInterrupt ⟨0, 320, 0, 1000, false⟩)) ::
    List.replicate 16 .proceed ++ [.callback .int1] ++
    .begin (.start (.accelerometerInterrupt ⟨0, 320, 0, 1000, true⟩)) ::
    List.replicate 16 .proceed ++ [.callback .int1]

theorem samples_behind_closed_pointers :
    ¬ Along (Badge.step fun _ => 0) (KeepsToChunks fun _ => 0)
        (.init (Accel.init resetAccel).2 (fun _ => false) fun _ _ _ => false) streamFirst ∧
      ¬ Along (Badge.step fun _ => 0) (KeepsToChunks fun _ => 0)
        (.init (Accel.init resetAccel).2 (fun _ => false) fun _ _ _ => false) motionAgain := by
  constructor
  · decide +kernel
  · decide +kernel

end OpenBadge.Sampling
