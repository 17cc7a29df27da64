import OpenBadge.Sampling.Frame
import OpenBadge.Sampling.Lanes

/-!
# The tasks of the main program among the callbacks

Between two calls of a task a callback may fill, close and open chunks of sources whose
timers run. A set-up of a chunk, whose number of samples is not yet reset, is safe because
the timer is stopped.
-/

namespace OpenBadge.Sampling

open OpenBadge.Lib

/-! ## What the calls do to the chunks -/

section Calls

variable {s : State} {source other : Source}

theorem lane_openChunk : (Sampling.openChunk source s).2.lane source =
    (s.lane source).opened source := by
  simp only [Sampling.openChunk, Proc.modify_apply, State.lane, Lane.opened, Function.update_self]
  rfl

theorem lane_openChunk_of_ne (h : other ≠ source) :
    (Sampling.openChunk source s).2.lane other = s.lane other := by
  simp only [Sampling.openChunk, Proc.modify_apply, State.lane, Function.update_of_ne h]

theorem lane_closeChunk : (Sampling.closeChunk source s).2.lane source =
    (s.lane source).closed source := by
  simp only [Sampling.closeChunk, Proc.modify_apply, State.lane, Lane.closed, Function.update_self]

theorem lane_closeChunk_of_ne (h : other ≠ source) :
    (Sampling.closeChunk source s).2.lane other = s.lane other := by
  simp only [Sampling.closeChunk, Proc.modify_apply, State.lane, Function.update_of_ne h]

theorem lane_writeChunk (offset : Nat) (data : List UInt8) :
    (Sampling.writeChunk source offset data s).2.lane source =
      (s.lane source).write offset data := by
  have hchunk : (s.lane source).chunk = s.chunks source := rfl
  rw [Sampling.writeChunk, Proc.modify_apply, Lane.write, hchunk]
  cases h : s.chunks source with
  | none => rfl
  | some ptr => simp only [State.lane, Function.update_self, h]

theorem lane_writeChunk_of_ne (h : other ≠ source) (offset : Nat) (data : List UInt8) :
    (Sampling.writeChunk source offset data s).2.lane other = s.lane other := by
  rw [Sampling.writeChunk, Proc.modify_apply]
  split
  · rfl
  · simp only [State.lane, Function.update_of_ne h]

end Calls

/-- What a step leaves of the chunk pointer and the flag of the open chunk. -/
def Honest (e : Event) (s t : State) : Prop :=
  ∀ source, (t.chunks source).isSome = (decide (e = .opened source) || (s.chunks source).isSome) ∧
    (t.fifos source).chunkOpenWrite =
      if e = .opened source then true else if e = .closed source then false
      else (s.fifos source).chunkOpenWrite

theorem honest_of_same {e : Event} {s t : State} (hopened : ∀ source, e ≠ .opened source)
    (hclosed : ∀ source, e ≠ .closed source) (hchunks : ∀ source, t.chunks source = s.chunks source)
    (hfifos : ∀ source, (t.fifos source).chunkOpenWrite = (s.fifos source).chunkOpenWrite) :
    Honest e s t := by
  intro source
  rw [hchunks, hfifos, if_neg (hopened source), if_neg (hclosed source),
    decide_eq_false (hopened source), Bool.false_or]
  exact ⟨rfl, rfl⟩

theorem honest_openChunk (source : Source) (s : State) :
    Honest (.opened source) s (Sampling.openChunk source s).2 := by
  intro other
  by_cases h : other = source
  · subst h
    simp [Sampling.openChunk, ChunkFifo.writeOpen]
  · have hne : Event.opened source ≠ .opened other := fun he => h (by cases he; rfl)
    simp [Sampling.openChunk, Function.update_of_ne h, hne]

theorem honest_closeChunk (source : Source) (s : State) :
    Honest (.closed source) s (Sampling.closeChunk source s).2 := by
  intro other
  by_cases h : other = source
  · subst h
    simp [Sampling.closeChunk, writeClose_chunkOpenWrite]
  · have hne : Event.closed source ≠ .closed other := fun he => h (by cases he; rfl)
    simp [Sampling.closeChunk, Function.update_of_ne h, hne]

theorem honest_writeChunk (source : Source) (index : Option Nat) (offset : Nat)
    (data : List UInt8) (s : State) :
    Honest (.access source index) s (Sampling.writeChunk source offset data s).2 := by
  refine honest_of_same nofun nofun (fun other => ?_) fun other => ?_
  · rw [Sampling.writeChunk, Proc.modify_apply]
    split <;> rfl
  · rw [Sampling.writeChunk, Proc.modify_apply]
    split
    · rfl
    · by_cases h : other = source
      · subst h
        simp only [Function.update_self]
      · simp only [Function.update_of_ne h]

/-! ## Assertions -/

/-- What the callbacks do to a source. -/
structure LaneStep (source : Source) (v w : Lane) : Prop where
  filling : Filling source (· < source.dataSize) v → Filling source (· < source.dataSize) w
  chunk : v.chunk ≠ none → w.chunk ≠ none
  stopped : source ≠ .accelerometerInterrupt → v.running = false → w = v

def Interferes (s t : State) : Prop :=
  ∀ source, source ≠ .scan → LaneStep source (s.lane source) (t.lane source)

/-- The chunks of all sources are as they should be; a source that is being set up has its
timer stopped, and any number of samples in its chunk. -/
structure Sound (busy : Option Source) (s : State) : Prop where
  filling : ∀ source, source ≠ .scan → busy ≠ some source →
    Filling source (· < source.dataSize) (s.lane source)
  busy : ∀ source ∈ busy, Filling source (fun _ => True) (s.lane source) ∧
    (s.lane source).running = false

/-- The proof outline of a task: what the callbacks do, and that the chunks are sound all the
time. -/
def taskRules : Program.Rules Event State where
  others := Interferes
  guarantee e s t := (∃ busy, busy ≠ some .accelerometerInterrupt ∧ Sound busy s) ∧ Honest e s t
  failure := Sound none

/-- The timer of the source is stopped. -/
def Stopped (source : Source) (s : State) : Prop :=
  Sound none s ∧ (s.lane source).running = false

/-- The source is being set up and has a chunk. -/
def SettingUp (source : Source) (s : State) : Prop :=
  Sound (some source) s ∧ (s.lane source).chunk ≠ none

/-- The source has a chunk. -/
def Ready (source : Source) (s : State) : Prop :=
  Sound none s ∧ (source ≠ .scan → (s.lane source).chunk ≠ none)

section Assertions

variable {s t : State} {source : Source}

theorem LaneStep.refl (source : Source) (v : Lane) : LaneStep source v v :=
  ⟨fun h => h, fun h => h, fun _ _ => rfl⟩

theorem stable_sound {busy : Option Source} (h : busy ≠ some .accelerometerInterrupt)
    (hscan : busy ≠ some .scan) : Program.Stable taskRules (Sound busy) := by
  intro s t hst hs
  refine ⟨fun source hne hb => (hst source hne).filling (hs.filling source hne hb), ?_⟩
  intro source hb
  have hne : source ≠ .accelerometerInterrupt := fun he => h (he ▸ hb)
  have hne' : source ≠ .scan := fun he => hscan (he ▸ hb)
  rw [(hst source hne').stopped hne (hs.busy source hb).2]
  exact hs.busy source hb

theorem stable_none : Program.Stable taskRules (Sound none) := stable_sound nofun nofun

theorem stable_stopped (h : source ≠ .accelerometerInterrupt) (hscan : source ≠ .scan) :
    Program.Stable taskRules (Stopped source) := by
  intro s t hst hs
  refine ⟨stable_none s t hst hs.1, ?_⟩
  rw [(hst source hscan).stopped h hs.2]
  exact hs.2

theorem stable_settingUp (h : source ≠ .accelerometerInterrupt) (hscan : source ≠ .scan) :
    Program.Stable taskRules (SettingUp source) := fun s t hst hs =>
  ⟨stable_sound (fun he => h (Option.some.inj he)) (fun he => hscan (Option.some.inj he)) s t hst
    hs.1, (hst source hscan).chunk hs.2⟩

theorem stable_ready (source : Source) : Program.Stable taskRules (Ready source) :=
  fun s t hst hs => ⟨stable_none s t hst hs.1, fun hne => (hst source hne).chunk (hs.2 hne)⟩

end Assertions

/-! ## Calls that leave the chunks alone -/

/-- No chunk changes, and no bit for sampling is set. -/
structure Unfilling (s t : State) : Prop where
  fifos : t.fifos = s.fifos
  chunks : t.chunks = s.chunks
  configuration : ∀ source, t.configuration source false = true →
    s.configuration source false = true

section Calls

variable {s t : State} {source : Source} {α : Type} {x : M α}

theorem Unfilling.refl (s : State) : Unfilling s s := ⟨rfl, rfl, fun _ h => h⟩

theorem Unfilling.honest (h : Unfilling s t) : Honest .call s t :=
  honest_of_same nofun nofun (fun source => by rw [h.chunks]) fun source => by rw [h.fifos]

theorem Unfilling.sound (h : Unfilling s t) (hs : Sound none s) : Sound none t := by
  refine ⟨fun source hne hb => ?_, nofun⟩
  have hfill := hs.filling source hne hb
  have hlane : t.lane source = { s.lane source with
      sampling := (t.lane source).sampling, running := (t.lane source).running } := by
    simp only [State.lane, h.fifos, h.chunks]
  rw [hlane]
  exact hfill.bits fun hbit => hfill.sampling (h.configuration source hbit)

theorem Unfilling.ready (h : Unfilling s t) (hs : Ready source s) : Ready source t := by
  refine ⟨h.sound hs.1, fun hne => ?_⟩
  change t.chunks source ≠ none
  rw [h.chunks]
  exact hs.2 hne

theorem appTimerStart_unfilling (timer : Timer) (ticks : Nat) (s : State) :
    Unfilling s (appTimerStart timer ticks s).2 := by
  rw [appTimerStart]
  dsimp only
  split
  · exact ⟨rfl, rfl, fun _ h => h⟩
  split
  · exact ⟨rfl, rfl, fun _ h => h⟩
  split
  · exact ⟨rfl, rfl, fun _ h => h⟩
  · exact ⟨rfl, rfl, fun _ h => h⟩

theorem setBit_unfilling (other : Source) (streaming value : Bool)
    (h : value = true → streaming = true) (s : State) :
    Unfilling s (setBit other streaming value s).2 := by
  refine ⟨rfl, rfl, fun source hbit => ?_⟩
  change Function.update s.configuration other
    (Function.update (s.configuration other) streaming value) source false = true at hbit
  by_cases hsource : source = other
  · subst hsource
    rw [Function.update_self] at hbit
    cases streaming with
    | true => exact hbit
    | false =>
      rw [Function.update_self] at hbit
      exact absurd (h hbit) (by decide)
  · rw [Function.update_of_ne hsource] at hbit
    exact hbit

/-- A call that leaves the chunks alone keeps what holds of them. -/
theorem triple_call {A : State → Prop} (hA : Program.Stable taskRules A)
    (hsound : ∀ s, A s → Sound none s) (hx : ∀ s, Unfilling s (x s).2)
    (hkeep : ∀ s, A s → A (x s).2) :
    Program.Triple taskRules A (liftM x : P α) fun _ => A := by
  refine Program.Triple.call hA (fun _ => hA) stable_none fun s hs => ?_
  refine ⟨⟨⟨none, nofun, hsound s hs⟩, (hx s).honest⟩, ?_⟩
  split
  · exact hkeep s hs
  · exact (hx s).sound (hsound s hs)

theorem triple_sound (hx : ∀ s, Unfilling s (x s).2) :
    Program.Triple taskRules (Sound none) (liftM x : P α) fun _ => Sound none :=
  triple_call stable_none (fun _ hs => hs) hx fun s hs => (hx s).sound hs

theorem triple_ready (hx : ∀ s, Unfilling s (x s).2) :
    Program.Triple taskRules (Ready source) (liftM x : P α) fun _ => Ready source :=
  triple_call (stable_ready source) (fun _ hs => hs.1) hx fun s hs => (hx s).ready hs

theorem triple_stopped (h : source ≠ .accelerometerInterrupt) (hscan : source ≠ .scan)
    (hx : ∀ s, Unfilling s (x s).2)
    (htimers : ∀ s, (s.lane source).running = false → ((x s).2.lane source).running = false) :
    Program.Triple taskRules (Stopped source) (liftM x : P α) fun _ => Stopped source :=
  triple_call (stable_stopped h hscan) (fun _ hs => hs.1) hx fun s hs =>
    ⟨(hx s).sound hs.1, htimers s hs.2⟩

theorem triple_get {A : State → Prop} (hA : Program.Stable taskRules A)
    (hsound : ∀ s, A s → ∃ busy, busy ≠ some .accelerometerInterrupt ∧ Sound busy s) :
    Program.Triple taskRules A (liftM (Proc.get : M State) : P State) fun _ => A :=
  Program.Triple.call hA (fun _ => hA) stable_none fun s hs =>
    ⟨⟨hsound s hs, (Unfilling.refl s).honest⟩, hs⟩

theorem triple_onAccel {y : Accel.M α} :
    Program.Triple taskRules (Sound none) (liftM (onAccel y) : P α) fun _ => Sound none :=
  triple_sound fun _ => ⟨rfl, rfl, fun _ h => h⟩

end Calls

/-! ## The set-ups -/

section Setups

variable {source : Source}

theorem sound_update (source : Source) {busy busy' : Option Source} {s t : State} (hs : Sound busy s)
    (hother : ∀ other, other ≠ source → t.lane other = s.lane other)
    (hbusy : ∀ other ∈ busy, other = source) (hbusy' : ∀ other ∈ busy', other = source)
    (hsource : source ≠ .scan → busy' ≠ some source →
      Filling source (· < source.dataSize) (t.lane source))
    (hsource' : busy' = some source → Filling source (fun _ => True) (t.lane source) ∧
      (t.lane source).running = false) : Sound busy' t := by
  constructor
  · intro other hne hb
    by_cases h : other = source
    · subst h
      exact hsource hne hb
    · rw [hother other h]
      exact hs.filling other hne fun hc => h (hbusy other hc)
  · intro other hb
    have h := hbusy' other hb
    subst h
    exact hsource' hb

/-- Opening the chunk of a source whose timer is stopped. -/
theorem triple_openChunk (h : source ≠ .accelerometerInterrupt) (hscan : source ≠ .scan) :
    Program.Triple taskRules (Stopped source) (Interrupted.openChunk source)
      fun _ => SettingUp source := by
  refine Program.Triple.call (stable_stopped h hscan) (fun _ => stable_settingUp h hscan)
    stable_none fun s hs => ?_
  refine ⟨⟨⟨none, nofun, hs.1⟩, honest_openChunk source s⟩, ?_⟩
  change SettingUp source (Sampling.openChunk source s).2
  have hlane : (Sampling.openChunk source s).2.lane source = _ := lane_openChunk
  constructor
  · refine sound_update source hs.1 (fun _ hne => lane_openChunk_of_ne hne) nofun
      (fun other hb => (Option.some.inj hb).symm) (fun _ hb => absurd rfl hb) fun _ => ?_
    rw [hlane]
    exact ⟨(hs.1.filling source hscan nofun).opened, hs.2⟩
  · rw [hlane]
    nofun

/-- Opening a chunk that does not count its samples. -/
theorem triple_openChunk_uncounted (hcount : source.countOffset = none) (hscan : source ≠ .scan) :
    Program.Triple taskRules (Sound none) (Interrupted.openChunk source)
      fun _ => Ready source := by
  refine Program.Triple.call stable_none (fun _ => stable_ready source) stable_none fun s hs => ?_
  refine ⟨⟨⟨none, nofun, hs⟩, honest_openChunk source s⟩, ?_⟩
  change Ready source (Sampling.openChunk source s).2
  have hlane : (Sampling.openChunk source s).2.lane source = _ := lane_openChunk
  constructor
  · refine sound_update source hs (fun _ hne => lane_openChunk_of_ne hne) nofun nofun (fun _ _ => ?_) nofun
    rw [hlane]
    exact (hs.filling source hscan nofun).opened.of_uncounted hcount
  · rw [hlane]
    exact fun _ => nofun

/-- Writing something else than the number of samples during a set-up. -/
theorem triple_writeChunk (h : source ≠ .accelerometerInterrupt) (hscan : source ≠ .scan)
    {offset : Nat} {data : List UInt8}
    (hfit : offset + data.length ≤ (chunkFifo source).slotSize)
    (hother : ∀ i ∈ source.countOffset, i < offset ∨ offset + data.length ≤ i) :
    Program.Triple taskRules (SettingUp source) (Interrupted.writeChunk source none offset data)
      fun _ => SettingUp source := by
  refine Program.Triple.call (stable_settingUp h hscan) (fun _ => stable_settingUp h hscan)
    stable_none fun s hs => ?_
  obtain ⟨hfill, hrunning⟩ := hs.1.busy source rfl
  refine ⟨⟨⟨_, fun he => h (Option.some.inj he), hs.1⟩,
    honest_writeChunk source none offset data s⟩, ?_⟩
  change SettingUp source (Sampling.writeChunk source offset data s).2
  constructor
  · refine sound_update source hs.1 (fun _ hne => lane_writeChunk_of_ne hne offset data)
      (fun other hb => (Option.some.inj hb).symm) (fun other hb => (Option.some.inj hb).symm)
      (fun _ hb => absurd rfl hb) fun _ => ?_
    rw [lane_writeChunk, Lane.write_running]
    exact ⟨hfill.write_other (hfill.open h hs.2) hfit hother, hrunning⟩
  · rw [lane_writeChunk, Lane.write_chunk]
    exact hs.2

/-- The set-up ends when the number of samples is reset. -/
theorem triple_resetCount (h : source ≠ .accelerometerInterrupt) (hscan : source ≠ .scan)
    {offset : Nat} (hoffset : source.countOffset = some offset)
    (hfit : offset + 1 ≤ (chunkFifo source).slotSize) (hsize : 0 < source.dataSize) :
    Program.Triple taskRules (SettingUp source) (Interrupted.writeChunk source none offset [0])
      fun _ => Ready source := by
  refine Program.Triple.call (stable_settingUp h hscan) (fun _ => stable_ready source)
    stable_none fun s hs => ?_
  obtain ⟨hfill, -⟩ := hs.1.busy source rfl
  refine ⟨⟨⟨_, fun he => h (Option.some.inj he), hs.1⟩,
    honest_writeChunk source none offset [0] s⟩, ?_⟩
  change Ready source (Sampling.writeChunk source offset [0] s).2
  constructor
  · refine sound_update source hs.1 (fun _ hne => lane_writeChunk_of_ne hne offset [0])
      (fun other hb => (Option.some.inj hb).symm) nofun (fun _ _ => ?_) nofun
    rw [lane_writeChunk]
    exact hfill.write_count (hfill.open h hs.2) hoffset hfit hsize
  · rw [lane_writeChunk, Lane.write_chunk]
    exact fun _ => hs.2

theorem triple_stampChunk (h : source ≠ .accelerometerInterrupt) (hscan : source ≠ .scan)
    (hfit : 6 ≤ (chunkFifo source).slotSize) (hother : ∀ i ∈ source.countOffset, 6 ≤ i) :
    Program.Triple taskRules (SettingUp source) (Interrupted.stampChunk source)
      fun _ => SettingUp source := by
  intro s hs t ht
  have hlen : (littleEndian 4 t.timestamp.1.toNat ++
      littleEndian 2 t.timestamp.2.toNat).length = 6 := rfl
  have hstamp : Program.Triple taskRules (SettingUp source)
      (Interrupted.writeChunk source none 0 (littleEndian 4 t.timestamp.1.toNat ++
        littleEndian 2 t.timestamp.2.toNat)) fun _ => SettingUp source :=
    triple_writeChunk h hscan (by rw [hlen]; exact hfit)
      fun i hi => .inr (by rw [hlen]; exact hother i hi)
  exact hstamp s hs t ht

theorem triple_setupAccelerometerChunk :
    Program.Triple taskRules (Stopped .accelerometer) Interrupted.setupAccelerometerChunk
      fun _ => Ready .accelerometer := by
  have hne : Source.accelerometer ≠ .accelerometerInterrupt := by decide
  have hscan : Source.accelerometer ≠ .scan := by decide
  exact (triple_openChunk hne hscan).bind fun _ =>
    (triple_stampChunk hne hscan (by decide) (by decide)).bind fun _ =>
      triple_resetCount hne hscan rfl (by decide) (by decide)

theorem triple_setupMicrophoneChunk :
    Program.Triple taskRules (Stopped .microphone) Interrupted.setupMicrophoneChunk
      fun _ => Ready .microphone := by
  have hne : Source.microphone ≠ .accelerometerInterrupt := by decide
  have hscan : Source.microphone ≠ .scan := by decide
  have hreset : Program.Triple taskRules (Stopped .microphone)
      (liftM (Proc.modify fun s =>
        { s with microphoneAggregated := 0, microphoneAggregatedCount := 0 } : M Unit) : P Unit)
      fun _ => Stopped .microphone :=
    triple_stopped hne hscan (fun _ => ⟨rfl, rfl, fun _ h => h⟩) fun _ h => h
  have hget := triple_get (stable_settingUp hne hscan) fun s hs =>
    ⟨_, fun he => hne (Option.some.inj he), hs.1⟩
  exact hreset.bind fun _ => (triple_openChunk hne hscan).bind fun _ =>
    (triple_stampChunk hne hscan (by decide) (by decide)).bind fun _ => hget.bind fun s =>
      (triple_writeChunk hne hscan (by rw [littleEndian_length]; decide)
        (by rw [littleEndian_length]; decide)).bind fun _ =>
        triple_resetCount hne hscan rfl (by decide) (by decide)

end Setups

/-! ## The tasks -/

section Tasks

variable {source : Source} {timers : List (Timer × Nat)}

theorem triple_stopTimers (h : source ≠ .accelerometerInterrupt) (hscan : source ≠ .scan) :
    Program.Triple taskRules (Stopped source) (Interrupted.stopTimers timers)
      fun _ => Stopped source := by
  induction timers with
  | nil => exact Program.Triple.pure (Q := fun _ => Stopped source) () (stable_stopped h hscan)
  | cons entry timers ih =>
    have hstop : Program.Triple taskRules (Stopped source)
        (liftM (appTimerStop entry.1) : P Unit) fun _ => Stopped source := by
      refine triple_stopped h hscan (fun _ => ⟨rfl, rfl, fun _ h => h⟩) fun s hs => ?_
      change (Function.update s.timers entry.1 none source.timer).isSome = false
      by_cases he : source.timer = entry.1
      · rw [he, Function.update_self]
        rfl
      · rw [Function.update_of_ne he]
        exact hs
    exact hstop.bind fun _ => ih

/-- The timer of the source is the first one that stops. -/
theorem triple_stopFirst (h : source ≠ .accelerometerInterrupt) (hscan : source ≠ .scan)
    (ticks : Nat) :
    Program.Triple taskRules (Sound none) (Interrupted.stopTimers ((source.timer, ticks) :: timers))
      fun _ => Stopped source := by
  have hstop : Program.Triple taskRules (Sound none) (liftM (appTimerStop source.timer) : P Unit)
      fun _ => Stopped source := by
    refine Program.Triple.call stable_none (fun _ => stable_stopped h hscan) stable_none
      fun s hs => ?_
    have hquiet : Unfilling s (appTimerStop source.timer s).2 := ⟨rfl, rfl, fun _ h => h⟩
    refine ⟨⟨⟨none, nofun, hs⟩, hquiet.honest⟩, hquiet.sound hs, ?_⟩
    change (Function.update s.timers source.timer none source.timer).isSome = false
    rw [Function.update_self]
    rfl
  exact hstop.bind fun _ => triple_stopTimers h hscan

theorem triple_startTimers {A : State → Prop} (hA : Program.Stable taskRules A)
    (hsound : ∀ s, A s → Sound none s) (hkeep : ∀ s t, Unfilling s t → A s → A t) :
    Program.Triple taskRules A (Interrupted.startTimers timers) fun _ => A := by
  induction timers with
  | nil => exact Program.Triple.pure (Q := fun _ => A) () hA
  | cons entry timers ih =>
    have hquiet := appTimerStart_unfilling entry.1 entry.2
    exact (triple_call hA hsound hquiet fun s hs => hkeep s _ (hquiet s) hs).bind fun _ => ih

/-- The bit for sampling is set when the source has a chunk. -/
theorem triple_setBit (streaming : Bool) :
    Program.Triple taskRules (Ready source) (liftM (setBit source streaming true) : P Unit)
      fun _ => Sound none := by
  refine Program.Triple.call (stable_ready source) (fun _ => stable_none) stable_none fun s hs => ?_
  refine ⟨⟨⟨none, nofun, hs.1⟩, honest_of_same nofun nofun (fun _ => rfl) fun _ => rfl⟩, ?_⟩
  change Sound none (setBit source streaming true s).2
  refine sound_update source hs.1 (fun other hne => ?_) nofun nofun (fun hne _ => ?_) nofun
  · simp only [State.lane, setBit, Proc.modify_apply, Function.update_of_ne hne]
  · exact (hs.1.filling source hne nofun).bits fun _ => hs.2 hne

theorem triple_getSound :
    Program.Triple taskRules (Sound none) (liftM (Proc.get : M State) : P State)
      fun _ => Sound none :=
  triple_get stable_none fun _ hs => ⟨none, nofun, hs⟩

theorem triple_whenSound {p : Prop} [Decidable p] {x : P Unit}
    (hx : Program.Triple taskRules (Sound none) x fun _ => Sound none) :
    Program.Triple taskRules (Sound none) (Program.when p x) fun _ => Sound none :=
  Program.Triple.when (fun _ => hx) stable_none fun _ _ hs => hs

theorem triple_stopTimersSound :
    Program.Triple taskRules (Sound none) (Interrupted.stopTimers timers) fun _ => Sound none := by
  induction timers with
  | nil => exact Program.Triple.pure (Q := fun _ => Sound none) () stable_none
  | cons entry timers ih => exact (triple_sound fun _ => ⟨rfl, rfl, fun _ h => h⟩).bind fun _ => ih

theorem triple_stopSampling {release : P Unit}
    (hrelease : Program.Triple taskRules (Sound none) release fun _ => Sound none)
    (streaming : Bool) :
    Program.Triple taskRules (Sound none)
      (Interrupted.stopSampling source timers release streaming) fun _ => Sound none :=
  triple_getSound.bind fun _ =>
    (triple_whenSound (triple_stopTimersSound.bind fun _ => hrelease)).bind
      fun _ => triple_sound (setBit_unfilling source streaming false nofun)

theorem triple_stop (source : Source) (streaming : Bool) :
    Program.Triple taskRules (Sound none) (Interrupted.stop source streaming)
      fun _ => Sound none := by
  have hpure : Program.Triple taskRules (Sound none) (pure () : P Unit) fun _ => Sound none :=
    Program.Triple.pure (Q := fun _ => Sound none) () stable_none
  cases source with
  | accelerometer =>
    exact triple_getSound.bind fun _ => triple_stopSampling (triple_whenSound triple_onAccel) _
  | accelerometerInterrupt =>
    exact triple_getSound.bind fun _ => triple_stopSampling
      (triple_onAccel.bind fun _ => triple_whenSound triple_onAccel) _
  | battery => exact triple_stopSampling hpure _
  | microphone => exact triple_stopSampling hpure _
  | scan => exact triple_stopSampling (triple_sound fun _ => ⟨rfl, rfl, fun _ h => h⟩) _

theorem triple_setTimeout (source : Source) (streaming : Bool) (timeoutMs : Option UInt32) :
    Program.Triple taskRules (Sound none)
      (liftM (setTimeout source streaming timeoutMs) : P Unit) fun _ => Sound none :=
  triple_sound fun _ => ⟨rfl, rfl, fun _ h => h⟩

theorem triple_timeout (source : Source) (streaming : Bool) :
    Program.Triple taskRules (Sound none) (Interrupted.timeout source streaming)
      fun _ => Sound none :=
  triple_getSound.bind fun _ => triple_whenSound
    (((triple_stop source streaming).attempt fun _ hs => hs).bind fun _ => triple_setTimeout _ _ _)

theorem triple_modify {f : State → State} (hf : ∀ s, Unfilling s (f s)) :
    Program.Triple taskRules (Sound none) (liftM (Proc.modify f : M Unit) : P Unit)
      fun _ => Sound none := triple_sound hf

/-- The timeouts that have run out are ended one after the other. -/
theorem triple_adaptRemainingMs (ranOut : Source → Bool → Bool) (entries : List (Source × Bool)) :
    Program.Triple taskRules (Sound none) (Interrupted.adaptRemainingMs ranOut entries)
      fun _ => Sound none := by
  induction entries with
  | nil => exact Program.Triple.pure (Q := fun _ => Sound none) () stable_none
  | cons entry entries ih => exact (triple_whenSound (triple_timeout _ _)).bind fun _ => ih

theorem triple_timeoutStart (streaming : Bool) (timeoutMs : UInt32) :
    Program.Triple taskRules (Sound none) (Interrupted.timeoutStart source streaming timeoutMs)
      fun _ => Sound none := by
  rw [Interrupted.timeoutStart, Program.branch]
  split
  · exact triple_setTimeout _ _ _
  · refine triple_getSound.bind fun _ => (triple_modify fun _ => ?_).bind fun _ =>
      (triple_adaptRemainingMs _ _).bind fun _ => triple_setTimeout _ _ _
    exact ⟨rfl, rfl, fun _ h => h⟩

/-- What the start functions have in common; the stop of the timers establishes what the
set-up of the chunk needs. -/
theorem triple_startSampling {setup : P Unit} {A : State → Prop}
    (hstop : Program.Triple taskRules (Sound none) (Interrupted.stopTimers timers) fun _ => A)
    (hsound : ∀ s, A s → Sound none s)
    (hsetup : Program.Triple taskRules A setup fun _ => Ready source)
    (timeoutMs : UInt32) (changed streaming : Bool) :
    Program.Triple taskRules (Sound none)
      (Interrupted.startSampling source timers setup timeoutMs changed streaming)
      fun _ => Sound none := by
  have hready : Program.Triple taskRules (Ready source) (Interrupted.startTimers timers)
      fun _ => Ready source :=
    triple_startTimers (stable_ready source) (fun _ hs => hs.1) fun _ _ h hs => h.ready hs
  have hstart : Program.Triple taskRules (Sound none) (Interrupted.startTimers timers)
      fun _ => Sound none :=
    triple_startTimers stable_none (fun _ hs => hs) fun _ _ h hs => h.sound hs
  have hrestart : Program.Triple taskRules (Sound none) (do
      Interrupted.stopTimers timers
      setup
      Interrupted.startTimers timers) fun _ => Ready source :=
    hstop.bind fun _ => hsetup.bind fun _ => hready
  refine triple_getSound.bind fun s => ?_
  cases streaming with
  | false =>
    exact triple_whenSound (hstop.bind fun _ => hsetup.bind fun _ => hready.bind fun _ =>
      (triple_setBit false).bind fun _ => triple_timeoutStart false timeoutMs)
  | true =>
    have hbranch : Program.Triple taskRules (Sound none)
        (Program.branch (s.configuration source false ∧ changed)
          (do
            Interrupted.stopTimers timers
            setup
            Interrupted.startTimers timers)
          (Program.when (s.configuration source false = false) do
            Interrupted.stopTimers timers
            Interrupted.startTimers timers)) fun _ => Sound none := by
      rw [Program.branch]
      split
      · exact hrestart.weaken (fun _ hs => hs) fun _ _ hs => hs.1
      · exact triple_whenSound
          ((hstop.weaken (fun _ hs => hs) fun _ => hsound).bind fun _ => hstart)
    have hbit : Program.Triple taskRules (Sound none)
        (liftM (setBit source true true) : P Unit) fun _ => Sound none :=
      triple_sound (setBit_unfilling source true true fun _ => rfl)
    exact hbranch.bind fun _ => hbit.bind fun _ => triple_timeoutStart true timeoutMs

theorem triple_setupAccelerometerInterruptChunk :
    Program.Triple taskRules (Sound none) Interrupted.setupAccelerometerInterruptChunk
      fun _ => Ready .accelerometerInterrupt := by
  have hreset : Program.Triple taskRules (Ready .accelerometerInterrupt)
      (liftM (Proc.attempt (onAccel Accel.resetInterrupt)) : P (Except RetCode Unit))
      fun _ => Ready .accelerometerInterrupt := triple_ready fun _ => ⟨rfl, rfl, fun _ h => h⟩
  exact (triple_openChunk_uncounted rfl (by decide)).bind fun _ => hreset.bind fun _ =>
    Program.Triple.pure (Q := fun _ => Ready .accelerometerInterrupt) () (stable_ready _)

theorem triple_startAccelerometerInterrupt (r : InterruptRequest) :
    Program.Triple taskRules (Sound none) (Interrupted.startAccelerometerInterrupt r)
      fun _ => Sound none := by
  refine triple_getSound.bind fun s => Program.Triple.bind (triple_whenSound
    (triple_onAccel.bind fun _ => triple_onAccel.bind fun _ => triple_onAccel)) fun _ => ?_
  refine triple_onAccel.bind fun _ => triple_onAccel.bind fun _ => triple_onAccel.bind fun _ =>
    (triple_modify fun _ => ?_).bind fun _ => ?_
  · exact ⟨rfl, rfl, fun _ h => h⟩
  split
  · exact triple_setupAccelerometerInterruptChunk.bind fun _ =>
      (triple_setBit false).bind fun _ => triple_timeoutStart _ _
  · exact (triple_sound (setBit_unfilling _ true true fun _ => rfl)).bind fun _ =>
      triple_timeoutStart _ _

theorem triple_start (r : Request) :
    Program.Triple taskRules (Sound none) (Interrupted.start r) fun _ => Sound none := by
  cases r with
  | accelerometer r =>
    refine triple_onAccel.bind fun _ => triple_onAccel.bind fun _ => triple_onAccel.bind fun _ =>
      triple_getSound.bind fun _ => (triple_modify fun _ => ?_).bind fun _ => ?_
    · exact ⟨rfl, rfl, fun _ h => h⟩
    · exact triple_startSampling (triple_stopFirst (by decide) (by decide) _) (fun _ hs => hs.1)
        triple_setupAccelerometerChunk _ _ _
  | accelerometerInterrupt r => exact triple_startAccelerometerInterrupt r
  | battery r =>
    have hopen : Program.Triple taskRules (Sound none) (Interrupted.openChunk .battery)
        fun _ => Ready .battery := triple_openChunk_uncounted rfl (by decide)
    refine triple_getSound.bind fun _ => (triple_modify fun _ => ?_).bind fun _ => ?_
    · exact ⟨rfl, rfl, fun _ h => h⟩
    · exact triple_startSampling triple_stopTimersSound (fun _ hs => hs) hopen _ _ _
  | microphone r =>
    refine triple_getSound.bind fun _ => (triple_modify fun _ => ?_).bind fun _ => ?_
    · exact ⟨rfl, rfl, fun _ h => h⟩
    · exact triple_startSampling (triple_stopFirst (by decide) (by decide) _) (fun _ hs => hs.1)
        triple_setupMicrophoneChunk _ _ _
  | scan r =>
    refine triple_getSound.bind fun _ => (triple_modify fun _ => ?_).bind fun _ => ?_
    · exact ⟨rfl, rfl, fun _ h => h⟩
    · exact triple_startSampling triple_stopTimersSound (fun _ hs => hs)
        (fun s hs => Program.Triple.pure (Q := fun _ => Ready .scan) () (stable_ready _) s
          ⟨hs, fun h => absurd rfl h⟩) _ _ _

theorem triple_onFifo {f : ChunkFifo.Config → ChunkFifo.State → ChunkFifo.State}
    (hf : ∀ source v, Filling source (· < source.dataSize) v →
      Filling source (· < source.dataSize) { v with fifo := f (chunkFifo source) v.fifo })
    (hopen : ∀ c fifo, (f c fifo).chunkOpenWrite = fifo.chunkOpenWrite) :
    Program.Triple taskRules (Sound none) (liftM (onFifo source f) : P Unit)
      fun _ => Sound none := by
  refine Program.Triple.call stable_none (fun _ => stable_none) stable_none fun s hs => ?_
  have hlane : (onFifo source f s).2.lane source =
      { s.lane source with fifo := f (chunkFifo source) (s.lane source).fifo } := by
    simp only [State.lane, onFifo, Proc.modify_apply, Function.update_self]
  have hflag : ∀ other, ((onFifo source f s).2.fifos other).chunkOpenWrite =
      (s.fifos other).chunkOpenWrite := by
    intro other
    by_cases h : other = source
    · subst h
      simp only [onFifo, Proc.modify_apply, Function.update_self, hopen]
    · simp only [onFifo, Proc.modify_apply, Function.update_of_ne h]
  refine ⟨⟨⟨none, nofun, hs⟩, honest_of_same nofun nofun (fun _ => rfl) hflag⟩, ?_⟩
  change Sound none (onFifo source f s).2
  refine sound_update source hs (fun other hne => ?_) nofun nofun (fun hne _ => ?_) nofun
  · simp only [State.lane, onFifo, Proc.modify_apply, Function.update_of_ne hne]
  · rw [hlane]
    exact hf source _ (hs.filling source hne nofun)

/-- Every task keeps the chunks sound, whatever callbacks run between its calls. -/
theorem triple_task (t : Task) :
    Program.Triple taskRules (Sound none) t.program fun _ => Sound none := by
  cases t with
  | start r => exact triple_start r
  | stop source streaming => exact triple_stop source streaming
  | timeout source streaming => exact triple_timeout source streaming
  | setupEvent =>
    refine triple_getSound.bind fun _ => triple_whenSound ((triple_modify fun _ => ?_).bind
      fun _ => ?_)
    · exact ⟨rfl, rfl, fun _ h => h⟩
    · exact triple_setupAccelerometerInterruptChunk.weaken (fun _ hs => hs) fun _ _ hs => hs.1
  | readOpen source =>
    refine triple_onFifo (fun source v h => h.readOpen) fun c fifo => ?_
    rw [ChunkFifo.readOpen]
    split <;> rfl
  | readClose source =>
    exact triple_onFifo (fun source v h => h.readClose) fun c fifo =>
      (ChunkFifo.readClose_write c fifo).1

end Tasks

end OpenBadge.Sampling
