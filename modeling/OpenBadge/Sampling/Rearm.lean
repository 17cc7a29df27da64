import OpenBadge.Sampling.Driver
import OpenBadge.Sampling.Interleaving
import OpenBadge.Sampling.Timers

/-!
# The motion interrupt is armed again

INT1 stays high until `INT1_SRC` is read. While it is high the reset timer runs or the
scheduler holds an event, as long as every link of this chain is taken: the handler
starts the timer, and the read succeeds. What a start function still has to do may stand
in for them.
-/

namespace OpenBadge.Sampling

open OpenBadge.Lib

/-- The reset timer runs or an event that resets the interrupt is queued. -/
def State.Armed (s : State) : Prop :=
  (s.timers .accelerometerInterruptReset).isSome = true ∨ 0 < s.setupEvents

instance (s : State) : Decidable s.Armed := inferInstanceAs (Decidable (_ ∨ _))

/-- When no function is executing and a bit is set, a latched interrupt is reset later. -/
def Rearmed (w : Interleaved) : Prop :=
  w.rest = [] → ¬ w.state.Off .accelerometerInterrupt → w.state.accel.latched = true →
    w.state.Armed

/-- The start that is executing still resets the interrupt. -/
def WillReset (rest : List Stage) : Prop := .setInterrupt ∈ rest ∨ .setupChunk ∈ rest

instance (rest : List Stage) : Decidable (WillReset rest) := inferInstanceAs (Decidable (_ ∨ _))

/-- A bit is set, or the start that is executing sets one. -/
def Interleaved.Wanted (w : Interleaved) : Prop :=
  ¬ w.state.Off .accelerometerInterrupt ∨ .setBit ∈ w.rest

instance (w : Interleaved) : Decidable w.Wanted := inferInstanceAs (Decidable (_ ∨ _))

/-- The handler is called with a bit set, and the timer accepts the ignore duration. -/
def State.HandlerArms (s : State) : Prop :=
  ¬ s.Off .accelerometerInterrupt ∧
    s.accel.calledHandler = some .samplingAccelerometerInterruptCallback ∧
    minTimeoutTicks ≤ appTimerTicks s.accelerometerInterruptIgnoreDurationMs.toNat

instance (s : State) : Decidable s.HandlerArms := inferInstanceAs (Decidable (_ ∧ _ ∧ _))

/-- The number of SPI accesses. -/
def Stage.accesses : Stage → Nat
  | .setFullScale => 2
  | .setDatarate => 2
  | .setOperatingMode => 6
  | .setMotionInterruptParameters => 2
  | .setInterrupt => 18
  | .setupChunk => 1
  | .setInterruptHandler | .recordIgnoreDuration | .setBit | .timeoutStart => 0

/-- No link of the chain is lost in this step. -/
def KeepsChain (w : Interleaved) : Action → Prop
  | .int1 => w.state.accel.CanFire → w.Wanted →
      w.state.Armed ∨ w.state.HandlerArms ∨ WillReset w.rest
  | .proceed => ∀ stage ∈ w.rest.head?, w.state.accel.latched = true → ¬ w.state.Armed →
      (¬ w.state.Off .accelerometerInterrupt ∨ stage = .setupChunk) →
      ∀ i < stage.accesses, w.state.accel.spi i = none
  | .setupEvent => w.rest = [] → ¬ w.state.Off .accelerometerInterrupt →
      w.state.accel.latched = true → w.state.timers .accelerometerInterruptReset = none →
      w.state.setupEvents = 1 → w.state.accel.spi 0 = none
  | _ => True

instance (w : Interleaved) (a : Action) : Decidable (KeepsChain w a) := by
  unfold KeepsChain
  split <;> infer_instance

/-! ## What the stages do to the chain -/

/-- The chain after the main program worked on the state: INT1 was not raised, and no
timer or event was lost. -/
structure Unbroken (s t : State) : Prop where
  latched : t.accel.latched = true → s.accel.latched = true
  timers : t.timers .accelerometerInterruptReset = s.timers .accelerometerInterruptReset
  setupEvents : t.setupEvents = s.setupEvents
  timerFaults : t.timerFaults = s.timerFaults

/-- The same, when no bit was set either. -/
def Quiet (s t : State) : Prop :=
  Unbroken s t ∧ (s.Off .accelerometerInterrupt → t.Off .accelerometerInterrupt)

section Stages

variable {s t : State}

theorem Unbroken.refl (s : State) : Unbroken s s := ⟨fun h => h, rfl, rfl, rfl⟩

theorem Quiet.refl (s : State) : Quiet s s := ⟨Unbroken.refl s, fun h => h⟩

theorem Unbroken.armed (h : Unbroken s t) : t.Armed ↔ s.Armed := by
  rw [State.Armed, State.Armed, h.timers, h.setupEvents]

/-- The driver touches neither timers nor bits. -/
theorem quiet_onAccel {α : Type} {x : Accel.M α} (hx : Accel.Unlatching x) :
    Proc.Keeps (Quiet s) (onAccel x) := by
  intro t ht
  have hl := hx (s.accel.latched = true) t.accel ht.1.latched
  exact ⟨⟨hl, ht.1.timers, ht.1.setupEvents, ht.1.timerFaults⟩, ht.2⟩

theorem quiet_setBit_false (source : Source) (streaming : Bool) :
    Proc.Keeps (Quiet s) (setBit source streaming false) := by
  intro t ht
  refine ⟨⟨ht.1.latched, ht.1.timers, ht.1.setupEvents, ht.1.timerFaults⟩, fun hoff => ?_⟩
  obtain ⟨h0, h1⟩ := ht.2 hoff
  by_cases hs : source = .accelerometerInterrupt
  · subst hs
    constructor
    · cases streaming <;> simp [setBit, h0]
    · cases streaming <;> simp [setBit, h1]
  · have hsame : (setBit source streaming false t).2.configuration .accelerometerInterrupt =
        t.configuration .accelerometerInterrupt := Function.update_of_ne (Ne.symm hs) _ _
    rw [State.Off, hsame]
    exact ⟨h0, h1⟩

theorem quiet_setup : Proc.Keeps (Quiet s) setupAccelerometerInterruptChunk := by
  have hopen : Proc.Keeps (Quiet s) (openChunk .accelerometerInterrupt) :=
    fun _ ht => ⟨⟨ht.1.latched, ht.1.timers, ht.1.setupEvents, ht.1.timerFaults⟩, ht.2⟩
  exact hopen.bind fun _ => (quiet_onAccel Accel.unlatching_resetInterrupt).attempt.bind fun _ =>
    Proc.Keeps.pure _ ()

theorem quiet_appTimerStop {timer : Timer} (h : timer ≠ .accelerometerInterruptReset) :
    Proc.Keeps (Quiet s) (appTimerStop timer) := by
  intro t ht
  have htimers : Function.update t.timers timer none .accelerometerInterruptReset =
      s.timers .accelerometerInterruptReset := (Function.update_of_ne h.symm _ _).trans ht.1.timers
  exact ⟨⟨ht.1.latched, htimers, ht.1.setupEvents, ht.1.timerFaults⟩, ht.2⟩

theorem quiet_stop (source : Source) (streaming : Bool) :
    Proc.Keeps (Quiet s) (stop source streaming) := by
  have hrun : ∀ {timers : List (Timer × Nat)} {release : M Unit},
      (∀ entry ∈ timers, entry.1 ≠ .accelerometerInterruptReset) → Proc.Keeps (Quiet s) release →
      Proc.Keeps (Quiet s) (stopSampling source timers release streaming) :=
    fun h hrelease => keeps_stopSampling_of (fun entry he => quiet_appTimerStop (h entry he))
      hrelease (quiet_setBit_false source streaming)
  cases source with
  | accelerometer =>
    refine Proc.Keeps.bind (fun _ ht => ht) fun u => hrun (by decide) ?_
    exact Proc.Keeps.when fun _ => quiet_onAccel (Accel.unlatching_setOperatingMode _)
  | accelerometerInterrupt =>
    refine Proc.Keeps.bind (fun _ ht => ht) fun u => hrun (by decide) ?_
    exact (quiet_onAccel (Accel.unlatching_setInterrupt _)).bind fun _ =>
      Proc.Keeps.when fun _ => quiet_onAccel (Accel.unlatching_setOperatingMode _)
  | battery => exact hrun (by decide) (Proc.Keeps.pure _ ())
  | microphone => exact hrun (by decide) (Proc.Keeps.pure _ ())
  | scan =>
    refine hrun (by decide) fun _ ht => ?_
    exact ⟨⟨ht.1.latched, ht.1.timers, ht.1.setupEvents, ht.1.timerFaults⟩, ht.2⟩

theorem quiet_of_timeouts (t : State) (timeouts : Source → Bool → Option UInt32)
    (ranOut : Nat → Source → Bool → Bool) (ht : Quiet s t) :
    Quiet s { t with timeouts, ranOut } :=
  ⟨⟨ht.1.latched, ht.1.timers, ht.1.setupEvents, ht.1.timerFaults⟩, ht.2⟩

theorem quiet_timeout (streaming : Bool) :
    Proc.Keeps (Quiet s) (timeout .accelerometerInterrupt streaming) :=
  keeps_timeout_of (quiet_stop _ _) quiet_of_timeouts

theorem quiet_timeoutStart (streaming : Bool) (timeoutMs : UInt32) :
    Proc.Keeps (Quiet s) (timeoutStart .accelerometerInterrupt streaming timeoutMs) :=
  keeps_timeoutStart_of quiet_stop quiet_of_timeouts _ _

/-- The stages, except the one that sets the bit. -/
theorem quiet_stage (r : InterruptRequest) {stage : Stage} (hne : stage ≠ .setBit) :
    Proc.Keeps (Quiet s) (stage.exec r) := by
  cases stage with
  | setFullScale => exact quiet_onAccel (Accel.unlatching_setFullScale _)
  | setDatarate => exact quiet_onAccel (Accel.unlatching_setDatarate _)
  | setOperatingMode => exact quiet_onAccel (Accel.unlatching_setOperatingMode _)
  | setMotionInterruptParameters =>
    exact quiet_onAccel (Accel.unlatching_setMotionInterruptParameters _ _)
  | setInterruptHandler => exact quiet_onAccel (Accel.unlatching_setInterruptHandler _)
  | setInterrupt => exact quiet_onAccel (Accel.unlatching_setInterrupt _)
  | recordIgnoreDuration =>
    exact fun _ ht => ⟨⟨ht.1.latched, ht.1.timers, ht.1.setupEvents, ht.1.timerFaults⟩, ht.2⟩
  | setupChunk => exact quiet_setup
  | setBit => exact absurd rfl hne
  | timeoutStart => exact quiet_timeoutStart _ _

theorem unbroken_stage (r : InterruptRequest) (stage : Stage) (s : State) :
    Unbroken s (stage.exec r s).2 := by
  by_cases hbit : stage = .setBit
  · rw [hbit]
    exact ⟨fun h => h, rfl, rfl, rfl⟩
  · exact (quiet_stage r hbit s (Quiet.refl s)).1

theorem onAccel_ok {x : Accel.M Unit} {n : Nat} (hx : Accel.Takes n x)
    (h : ∀ i < n, s.accel.spi i = none) : (onAccel x s).1 = .ok () := by
  obtain ⟨_, t, ht, -⟩ := (hx s.accel).1 h
  exact congrArg Prod.fst ht

/-- A stage fails only if one of its accesses does. -/
theorem stage_ok (r : InterruptRequest) (stage : Stage)
    (h : ∀ i < stage.accesses, s.accel.spi i = none) : (stage.exec r s).1 = .ok () := by
  cases stage with
  | setFullScale => exact onAccel_ok (Accel.takes_setFullScale _) h
  | setDatarate => exact onAccel_ok (Accel.takes_setDatarate _) h
  | setOperatingMode => exact onAccel_ok (Accel.takes_setOperatingMode _) h
  | setMotionInterruptParameters =>
    exact onAccel_ok (Accel.takes_setMotionInterruptParameters _ _) h
  | setInterruptHandler => exact onAccel_ok (Accel.takes_setInterruptHandler _) h
  | setInterrupt => exact onAccel_ok Accel.takes_setInterrupt_motionInterrupt h
  | recordIgnoreDuration => rfl
  | setupChunk => rfl
  | setBit => rfl
  | timeoutStart => exact timeoutStart_ok ..

theorem setInterrupt_unlatches (r : InterruptRequest) (h : (Stage.setInterrupt.exec r s).1 = .ok ()) :
    (Stage.setInterrupt.exec r s).2.accel.latched = false :=
  Accel.ensures_setInterrupt s.accel () _ (Proc.eq_of_fst h)

/-- A set-up whose read succeeds resets the interrupt. -/
theorem setup_unlatches (h : s.accel.spi 0 = none) :
    (setupAccelerometerInterruptChunk s).2.accel.latched = false := by
  have hspi : ∀ i < 1, s.accel.spi i = none := fun i hi => by rw [Nat.lt_one_iff.mp hi, h]
  obtain ⟨a, t, ht, -⟩ := (Accel.takes_resetInterrupt s.accel).1 hspi
  have hlow := Accel.ensures_resetInterrupt s.accel a t ht
  have haccel : (setupAccelerometerInterruptChunk s).2.accel = (Accel.resetInterrupt s.accel).2 :=
    rfl
  rw [haccel, ht]
  exact hlow

end Stages

/-! ## The actions -/

/-- While INT1 is high and the interrupt is wanted, something resets it. -/
structure Chained (w : Interleaved) : Prop where
  timerFaults : ∀ i, w.state.timerFaults i = false
  chain : w.state.accel.latched = true → w.Wanted → w.state.Armed ∨ WillReset w.rest

section Actions

variable {w : Interleaved}

theorem rearmed_of_chained (h : Chained w) : Rearmed w := by
  intro hrest hon hlatched
  rcases h.chain hlatched (.inl hon) with harmed | hreset
  · exact harmed
  · rw [hrest] at hreset
    rcases hreset with h | h <;> cases h

/-- What the main program does without setting a bit. -/
theorem chained_quiet (h : Chained w) {t : State} (ht : Quiet w.state t) :
    Chained { w with state := t } where
  timerFaults i := (congrFun ht.1.timerFaults i).trans (h.timerFaults i)
  chain hlatched hwanted := by
    have hwas : w.Wanted := hwanted.imp (fun hon hoff => hon (ht.2 hoff)) fun hb => hb
    exact (h.chain (ht.1.latched hlatched) hwas).imp ht.1.armed.mpr fun hr => hr

theorem setInterrupt_mem_stages (r : InterruptRequest) (s : State) :
    .setInterrupt ∈ stages r s := by
  rw [stages]
  simp

theorem chained_begin (h : Chained w) (r : InterruptRequest) : Chained (w.step (.begin r)) := by
  rw [Interleaved.step]
  split
  · exact ⟨h.timerFaults, fun _ _ => .inr (.inl (setInterrupt_mem_stages r w.state))⟩
  · exact h

/-- A stage that neither resets the interrupt nor sets a bit leaves what follows it. -/
theorem willReset_tail {stage : Stage} {rest : List Stage} (hi : stage ≠ .setInterrupt)
    (hc : stage ≠ .setupChunk) (h : WillReset (stage :: rest)) : WillReset rest := by
  rcases h with h | h
  · exact .inl ((List.mem_cons.mp h).resolve_left (Ne.symm hi))
  · exact .inr ((List.mem_cons.mp h).resolve_left (Ne.symm hc))

/-- After a stage that ends well: its own reset has happened, or the rest still has one. -/
theorem chained_proceed_ok (h : Chained w) {stage : Stage} {rest : List Stage}
    (hrest : w.rest = stage :: rest) (hok : (stage.exec w.request w.state).1 = .ok ())
    (hcond : KeepsChain w .proceed) :
    Chained ⟨(stage.exec w.request w.state).2, w.request, rest⟩ := by
  have hu := unbroken_stage w.request stage w.state
  refine ⟨fun i => (congrFun hu.timerFaults i).trans (h.timerFaults i), fun hlatched hwanted => ?_⟩
  have hwas := hu.latched hlatched
  by_cases harmed : w.state.Armed
  · exact .inl (hu.armed.mpr harmed)
  by_cases hi : stage = .setInterrupt
  · subst hi
    rw [setInterrupt_unlatches w.request hok] at hlatched
    cases hlatched
  by_cases hc : stage = .setupChunk
  · subst hc
    have hspi := hcond .setupChunk (by rw [hrest]; rfl) hwas harmed (.inr rfl) 0 Nat.one_pos
    have hlow := setup_unlatches hspi
    exact absurd (hlow.symm.trans hlatched) Bool.false_ne_true
  · have hw : w.Wanted := by
      by_cases hbit : stage = .setBit
      · right
        rw [hrest, hbit]
        exact List.mem_cons_self ..
      · rcases hwanted with hon | hmem
        · exact .inl fun hoff => hon ((quiet_stage w.request hbit w.state (Quiet.refl _)).2 hoff)
        · right
          rw [hrest]
          exact List.mem_cons_of_mem _ hmem
    rcases h.chain hwas hw with ha | hr
    · exact absurd ha harmed
    · rw [hrest] at hr
      exact .inr (willReset_tail hi hc hr)

/-- A stage that fails ends the start. -/
theorem chained_proceed_error (h : Chained w) {stage : Stage} {rest : List Stage}
    (hrest : w.rest = stage :: rest) (herror : (stage.exec w.request w.state).1 ≠ .ok ())
    (hcond : KeepsChain w .proceed) :
    Chained ⟨(stage.exec w.request w.state).2, w.request, []⟩ := by
  have hbit : stage ≠ .setBit := fun hb => herror (by rw [hb]; rfl)
  have hq := quiet_stage w.request hbit w.state (Quiet.refl _)
  refine ⟨fun i => (congrFun hq.1.timerFaults i).trans (h.timerFaults i),
    fun hlatched hwanted => ?_⟩
  by_cases harmed : w.state.Armed
  · exact .inl (hq.1.armed.mpr harmed)
  · rcases hwanted with hon | hmem
    · have hspi := hcond stage (by rw [hrest]; rfl) (hq.1.latched hlatched) harmed
        (.inl fun hoff => hon (hq.2 hoff))
      exact absurd (stage_ok w.request stage hspi) herror
    · cases hmem

theorem chained_proceed (h : Chained w) (hcond : KeepsChain w .proceed) :
    Chained (w.step .proceed) := by
  rw [Interleaved.step, Interleaved.proceed]
  cases hrest : w.rest with
  | nil => exact h
  | cons stage rest =>
    dsimp only
    cases hx : stage.exec w.request w.state with
    | mk result t =>
      cases result with
      | ok a =>
        have hok := chained_proceed_ok h hrest (by rw [hx]) hcond
        rw [hx] at hok
        exact hok
      | error e =>
        have herror := chained_proceed_error h hrest (by rw [hx]; exact fun h => by cases h) hcond
        rw [hx] at herror
        exact herror

/-- The handler leaves a running timer and starts one that it may start. -/
theorem accelerometerInterruptCallback_spec (s : State) (hfaults : ∀ i, s.timerFaults i = false) :
    (∀ i, (accelerometerInterruptCallback s).2.timerFaults i = false) ∧
      ((accelerometerInterruptCallback s).2.Off .accelerometerInterrupt ↔
        s.Off .accelerometerInterrupt) ∧
      (s.Armed → (accelerometerInterruptCallback s).2.Armed) ∧
      (¬ s.Off .accelerometerInterrupt →
        minTimeoutTicks ≤ appTimerTicks s.accelerometerInterruptIgnoreDurationMs.toNat →
        (accelerometerInterruptCallback s).2.Armed) := by
  by_cases hoff : s.Off .accelerometerInterrupt
  · have hsame : (accelerometerInterruptCallback s).2 = s := by
      rw [accelerometerInterruptCallback, Proc.get_bind_apply, Proc.when_neg (not_not.mpr hoff)]
      rfl
    rw [hsame]
    exact ⟨hfaults, Iff.rfl, fun h => h, fun hon => absurd hoff hon⟩
  · generalize hticks : appTimerTicks s.accelerometerInterruptIgnoreDurationMs.toNat = ticks
    obtain ⟨fifos, hstep⟩ : ∃ fifos, (accelerometerInterruptCallback s).2 =
        (appTimerStart .accelerometerInterruptReset ticks { s with fifos }).2 := by
      rw [accelerometerInterruptCallback, Proc.get_bind_apply, Proc.when_pos hoff, hticks]
      by_cases hbit : s.configuration .accelerometerInterrupt false = true
      · obtain ⟨fifos, hstamp⟩ := stampChunk_ok .accelerometerInterrupt s
        rw [Proc.when_pos hbit, Proc.bind_assoc, Proc.bind_ok hstamp]
        exact ⟨_, rfl⟩
      · rw [Proc.when_neg hbit]
        exact ⟨s.fifos, rfl⟩
    rw [hstep, appTimerStart]
    dsimp only
    split
    · next hlt =>
      exact ⟨fun i => hfaults (i + 1), Iff.rfl, fun h => h, fun _ hle => absurd hlt (by omega)⟩
    rw [if_neg (by rw [hfaults 0]; decide)]
    split
    · next hruns =>
      exact ⟨fun i => hfaults (i + 1), Iff.rfl, fun h => h, fun _ _ => .inl hruns⟩
    · have hstarted : ({ s with
          fifos
          timerFaults := fun i => s.timerFaults (i + 1)
          timers := Function.update s.timers .accelerometerInterruptReset (some ticks) } :
          State).Armed := by
        refine .inl (?_ : Option.isSome (Function.update s.timers .accelerometerInterruptReset
          (some ticks) .accelerometerInterruptReset) = true)
        rw [Function.update_self]
        rfl
      exact ⟨fun i => hfaults (i + 1), Iff.rfl, fun _ => hstarted, fun _ _ => hstarted⟩

/-- The state in which the handler is called. -/
def State.raised (s : State) : State := { s with accel := { s.accel with latched := true } }

theorem onInt1_of_canFire {s : State} (h : s.accel.CanFire) :
    onInt1 s = if s.accel.calledHandler = some .samplingAccelerometerInterruptCallback then
      (accelerometerInterruptCallback s.raised).2 else s.raised := if_pos h

theorem chained_int1 (h : Chained w) (hcond : KeepsChain w .int1) : Chained (w.step .int1) := by
  rw [Interleaved.step]
  by_cases hfire : w.state.accel.CanFire
  · rw [onInt1_of_canFire hfire]
    obtain ⟨hfaults, hoff, harmed, harms⟩ :=
      accelerometerInterruptCallback_spec w.state.raised h.timerFaults
    split
    · refine ⟨hfaults, fun _ hwanted => ?_⟩
      have hwas : w.Wanted := hwanted.imp (fun hon ho => hon (hoff.mpr ho)) fun hb => hb
      rcases hcond hfire hwas with ha | ha | hr
      · exact .inl (harmed ha)
      · exact .inl (harms ha.1 ha.2.2)
      · exact .inr hr
    · next hno =>
      refine ⟨h.timerFaults, fun _ hwanted => ?_⟩
      rcases hcond hfire hwanted with ha | ha | hr
      · exact .inl ha
      · exact absurd ha.2.1 hno
      · exact .inr hr
  · have hsame : onInt1 w.state = w.state := if_neg hfire
    rw [hsame]
    exact h

/-- The event takes the place of the timer. -/
theorem chained_resetTimer (h : Chained w) : Chained (w.step .resetTimer) := by
  rw [Interleaved.step, onResetTimer]
  split
  · exact ⟨h.timerFaults, fun _ _ => .inl (.inr (Nat.succ_pos _))⟩
  · exact h

theorem chained_setupEvent (h : Chained w) (hcond : KeepsChain w .setupEvent) :
    Chained (w.step .setupEvent) := by
  rw [Interleaved.step]
  by_cases hrest : w.rest = []
  · rw [if_pos hrest, runSetupEvent]
    by_cases hzero : w.state.setupEvents = 0
    · rw [if_pos hzero]
      exact h
    · rw [if_neg hzero]
      generalize ht : ({ w.state with setupEvents := w.state.setupEvents - 1 } : State) = t
      have hq := quiet_setup (s := t) t (Quiet.refl t)
      have hbefore : t.accel = w.state.accel ∧ t.timers = w.state.timers ∧
          t.setupEvents = w.state.setupEvents - 1 ∧ t.timerFaults = w.state.timerFaults ∧
          t.configuration = w.state.configuration := by
        rw [← ht]
        exact ⟨rfl, rfl, rfl, rfl, rfl⟩
      obtain ⟨haccel, htimers, hevents, hfaults, hconf⟩ := hbefore
      refine ⟨fun i => ?_, fun hlatched hwanted => .inl (hq.1.armed.mpr ?_)⟩
      · exact (congrFun (hq.1.timerFaults.trans hfaults) i).trans (h.timerFaults i)
      · have hon : ¬ w.state.Off .accelerometerInterrupt := by
          rcases hwanted with hon | hmem
          · intro hoff
            apply hon
            apply hq.2
            rw [State.Off, hconf]
            exact hoff
          · rw [hrest] at hmem
            cases hmem
        have hwas : w.state.accel.latched = true := haccel ▸ hq.1.latched hlatched
        rw [State.Armed, htimers, hevents]
        by_contra hno
        rw [not_or, Bool.not_eq_true, Option.isSome_eq_false_iff, Option.isNone_iff_eq_none] at hno
        have hspi := hcond hrest hon hwas hno.1 (by omega)
        rw [← haccel] at hspi
        exact absurd ((setup_unlatches hspi).symm.trans hlatched) Bool.false_ne_true
  · rw [if_neg hrest]
    exact h

theorem chained_step (h : Chained w) {a : Action} (ha : KeepsChain w a) : Chained (w.step a) := by
  cases a with
  | begin r => exact chained_begin h r
  | proceed => exact chained_proceed h ha
  | stop streaming =>
    rw [Interleaved.step]
    split
    · exact chained_quiet h (quiet_stop .accelerometerInterrupt streaming _ (Quiet.refl _))
    · exact h
  | timeout streaming =>
    rw [Interleaved.step]
    split
    · exact chained_quiet h (quiet_timeout streaming _ (Quiet.refl _))
    · exact h
  | int1 => exact chained_int1 h ha
  | resetTimer => exact chained_resetTimer h
  | setupEvent => exact chained_setupEvent h ha

theorem chained_init (accel : Accel.State) (ranOut : Nat → Source → Bool → Bool) :
    Chained (.init accel ranOut) where
  timerFaults _ := rfl
  chain _ hwanted := by
    rcases hwanted with hon | hmem
    · exact absurd ⟨rfl, rfl⟩ hon
    · cases hmem

/-- In every run that loses no link of the chain, whatever the SPI accesses do otherwise,
a latched interrupt that is wanted is reset later. -/
theorem motion_interrupt_rearmed (accel : Accel.State) (ranOut : Nat → Source → Bool → Bool)
    (actions : List Action) (h : Along Interleaved.step KeepsChain (.init accel ranOut) actions) :
    Rearmed (.init accel ranOut) ∧
      Along Interleaved.step (fun w a => Rearmed (w.step a)) (.init accel ranOut) actions := by
  refine ⟨rearmed_of_chained (chained_init accel ranOut), ?_⟩
  have hinv := h.strengthen (I := Chained) (fun _ _ hw ha => chained_step hw ha)
    (chained_init accel ranOut)
  exact hinv.mono fun _ _ hw => rearmed_of_chained (chained_step hw.1 hw.2)

/-- A motion, the ignore duration of a second, and the event that resets the interrupt. -/
theorem motion_interrupt_rearmed_once :
    Rearmed (.init (Accel.init resetAccel).2 fun _ _ _ => false) ∧
      Along Interleaved.step (fun w a => Rearmed (w.step a))
        (.init (Accel.init resetAccel).2 fun _ _ _ => false)
        (.begin ⟨0, 320, 0, 1000, false⟩ :: List.replicate 10 .proceed ++
          [.int1, .resetTimer, .setupEvent]) :=
  motion_interrupt_rearmed _ _ _ (by decide +kernel)

/-- With an ignore duration of no milliseconds the timer is refused, and after the first
motion nothing resets the interrupt. -/
theorem no_ignore_duration_is_silent :
    let w := run Interleaved.step (.init (Accel.init resetAccel).2 fun _ _ _ => false)
      (.begin ⟨0, 320, 0, 0, false⟩ :: List.replicate 10 .proceed)
    w.rest = [] ∧ Rearmed w ∧ (w.step .int1).state.accel.latched = true ∧
      ¬ (w.step .int1).state.Off .accelerometerInterrupt ∧
      (w.step .int1).state.timers .accelerometerInterruptReset = none ∧
      (w.step .int1).state.setupEvents = 0 ∧ ¬ Rearmed (w.step .int1) := by
  intro w
  have hrest : w.rest = [] := by decide +kernel
  have hlow : w.state.accel.latched = false := by decide +kernel
  have hon : ¬ (w.step .int1).state.Off .accelerometerInterrupt := by decide +kernel
  have hhigh : (w.step .int1).state.accel.latched = true := by decide +kernel
  have hsilent : ¬ (w.step .int1).state.Armed := by decide +kernel
  refine ⟨hrest, fun _ _ hlatched => ?_, hhigh, hon, by decide +kernel, by decide +kernel,
    fun hrearmed => hsilent (hrearmed hrest hon hhigh)⟩
  rw [hlow] at hlatched
  cases hlatched

end Actions

end OpenBadge.Sampling
