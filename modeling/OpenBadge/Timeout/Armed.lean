import OpenBadge.Timeout.Model

/-!
# A started timeout stays armed

`active` is cleared when a handler returns, so a timeout that its own handler has started
again is lost; and a timeout of `UINT32_MAX` milliseconds looks to
`get_minimal_remaining_ms` like none at all. Without these two, every timeout that waits
is active and the timer runs.
-/

namespace OpenBadge.Timeout

open OpenBadge.Lib

/-- The handler of timeout `i` has been called and has not returned. -/
def inHandlerOf (i : Nat) (stack : List Frame) : Bool :=
  stack.any fun frame => match frame with
    | .adaptRemainingMs _ j true => j == i
    | _ => false

/-- The function in progress is not `adapt_remaining_ms`. -/
def endsNext : List Frame → Bool
  | .timeoutTimerCallback :: _ | .timeoutStart _ _ :: _ => true
  | _ => false

/-- `adapt_remaining_ms` is called by a function that goes on behind it, and the starts in
progress were made with a value below `UINT32_MAX`, outside the handler of their timeout. -/
def WellStacked (n : Nat) : List Frame → Prop
  | [] => True
  | .adaptRemainingMs _ _ _ :: behind =>
    endsNext behind = true ∧ WellStacked n behind
  | .timeoutTimerCallback :: behind => WellStacked n behind
  | .timeoutStart timeoutId timeoutMs :: behind =>
    timeoutId < n ∧ 0 < timeoutMs ∧ timeoutMs < uint32Max ∧
      inHandlerOf timeoutId behind = false ∧ WellStacked n behind

/-- What holds between the steps. -/
structure Armed (o : Observed) : Prop where
  waiting_active : ∀ i, o.waiting i ≠ none → (o.state.registeredTimeouts i).active = true
  waiting_handler : ∀ i, o.waiting i ≠ none → inHandlerOf i o.state.stack = false
  active_registered : ∀ i, (o.state.registeredTimeouts i).active = true →
    i < o.state.numberOfRegisteredTimeouts
  active_remaining : ∀ i, (o.state.registeredTimeouts i).active = true →
    (o.state.registeredTimeouts i).remainingMs < uint32Max
  active_timeout : ∀ i, (o.state.registeredTimeouts i).active = true →
    0 < (o.state.registeredTimeouts i).timeoutMs ∧
      (o.state.registeredTimeouts i).timeoutMs < uint32Max
  stacked : WellStacked o.state.numberOfRegisteredTimeouts o.state.stack
  idle_running : o.state.stack = [] → (∃ i, (o.state.registeredTimeouts i).active = true) →
    o.state.timerRunning = true

/-- No timeout is started with `UINT32_MAX`, and none is started or reset by code that its
own handler runs. -/
def StartedFromElsewhere (o : Observed) : Action → Prop
  | .start timeoutId timeoutMs =>
    timeoutMs < uint32Max ∧ (0 < timeoutMs → inHandlerOf timeoutId o.state.stack = false)
  | .reset timeoutId =>
    (o.state.registeredTimeouts timeoutId).active = true →
      inHandlerOf timeoutId o.state.stack = false
  | _ => True

instance (o : Observed) : (a : Action) → Decidable (StartedFromElsewhere o a)
  | .start timeoutId timeoutMs => inferInstanceAs (Decidable (timeoutMs < uint32Max ∧
      (0 < timeoutMs → inHandlerOf timeoutId o.state.stack = false)))
  | .reset timeoutId => inferInstanceAs (Decidable
      ((o.state.registeredTimeouts timeoutId).active = true →
        inHandlerOf timeoutId o.state.stack = false))
  | .tick _ | .timerExpires | .stop _ | .goOn _ => .isTrue trivial

/-! ## The minimum -/

theorem minimalRemainingLoop_lt {timeouts : Nat → Timeout} {i : Nat}
    (hact : (timeouts i).active = true) (hrem : (timeouts i).remainingMs < uint32Max) :
    ∀ {n : Nat}, i < n → minimalRemainingLoop timeouts n < uint32Max
  | n + 1, hi => by
    unfold minimalRemainingLoop
    dsimp only
    rcases Nat.lt_succ_iff_lt_or_eq.mp hi with hi | rfl
    · have ih := minimalRemainingLoop_lt hact hrem hi
      split <;> omega
    · split
      · exact hrem
      · rename_i hmin
        rw [not_and] at hmin
        have := hmin hact
        omega

/-- An active timeout with a remaining time below `UINT32_MAX` starts the timer. -/
theorem getMinimalRemainingMs_lt {s : State} {i : Nat} (hi : i < s.numberOfRegisteredTimeouts)
    (hact : (s.registeredTimeouts i).active = true)
    (hrem : (s.registeredTimeouts i).remainingMs < uint32Max) :
    getMinimalRemainingMs s < uint32Max := by
  have h := minimalRemainingLoop_lt hact hrem hi
  have h2 : 2 < uint32Max := by decide
  have hmax : maxMillisPerTimeoutTimer < uint32Max := by decide
  unfold getMinimalRemainingMs
  dsimp only
  rw [if_neg (by omega)]
  split <;> split <;> omega

/-! ## The steps -/

variable {o : Observed}

/-- One timeout is deactivated, and waits for nothing any more. -/
theorem Armed.deactivate (h : Armed o) (i : Nat) :
    Armed ⟨o.state.assign i fun t => { t with active := false },
      Function.update o.waiting i none⟩ := by
  have hw : ∀ j, Function.update o.waiting i none j ≠ none → j ≠ i ∧ o.waiting j ≠ none := by
    intro j hj
    by_cases hji : j = i
    · subst hji
      exact absurd (Function.update_self _ _ _) hj
    · rw [Function.update_of_ne hji] at hj
      exact ⟨hji, hj⟩
  refine ⟨fun j hj => ?_, fun j hj => h.waiting_handler j (hw j hj).2, fun j hj => ?_,
    fun j hj => ?_, fun j hj => ?_, h.stacked, fun hidle ⟨j, hj⟩ => ?_⟩
  · obtain ⟨hji, hj⟩ := hw j hj
    dsimp only
    rw [assign_ne hji]
    exact h.waiting_active j hj
  · exact h.active_registered j (active_of_deactivate hj).2
  · obtain ⟨hji, hold⟩ := active_of_deactivate hj
    dsimp only
    rw [assign_ne hji]
    exact h.active_remaining j hold
  · obtain ⟨hji, hold⟩ := active_of_deactivate hj
    dsimp only
    rw [assign_ne hji]
    exact h.active_timeout j hold
  · exact h.idle_running hidle ⟨j, (active_of_deactivate hj).2⟩

/-- Only the stack, the timer and the clock change. -/
theorem Armed.restack (h : Armed o) {s' : State}
    (hreg : s'.registeredTimeouts = o.state.registeredTimeouts)
    (hnum : s'.numberOfRegisteredTimeouts = o.state.numberOfRegisteredTimeouts)
    (hhandler : ∀ i, o.waiting i ≠ none → inHandlerOf i s'.stack = false)
    (hstacked : WellStacked o.state.numberOfRegisteredTimeouts s'.stack)
    (hidle : s'.stack = [] → (∃ i, (o.state.registeredTimeouts i).active = true) →
      s'.timerRunning = true) : Armed ⟨s', o.waiting⟩ := by
  refine ⟨?_, hhandler, ?_, ?_, ?_, ?_, ?_⟩
  · rw [hreg]
    exact h.waiting_active
  · rw [hreg, hnum]
    exact h.active_registered
  · rw [hreg]
    exact h.active_remaining
  · rw [hreg]
    exact h.active_timeout
  · rw [hnum]
    exact hstacked
  · rw [hreg]
    exact hidle

/-- `timeout_start`, as far as its call of `adapt_remaining_ms`. -/
theorem Armed.timeoutStart (h : Armed o) {id ms : Nat} (hms : ms < uint32Max)
    (hhandler : 0 < ms → inHandlerOf id o.state.stack = false) :
    Armed ⟨timeoutStart o.state id ms, stopped o.state id ms o.waiting⟩ := by
  unfold Timeout.timeoutStart stopped
  by_cases hid : id ≥ o.state.numberOfRegisteredTimeouts
  · rw [if_pos hid, if_neg (by omega)]
    exact h
  have hlt : id < o.state.numberOfRegisteredTimeouts := Nat.lt_of_not_le hid
  rw [if_neg hid]
  by_cases hzero : ms = 0
  · rw [if_pos hzero, if_pos ⟨by omega, hzero⟩]
    exact h.deactivate id
  have hpos := Nat.pos_of_ne_zero hzero
  have hstacked : WellStacked o.state.numberOfRegisteredTimeouts
      (.timeoutStart id ms :: o.state.stack) := ⟨hlt, hpos, hms, hhandler hpos, h.stacked⟩
  rw [if_neg hzero, if_neg (show ¬ (id < _ ∧ ms = 0) from fun hz => hzero hz.2)]
  by_cases hrun : o.state.timerRunning = true
  · rw [if_pos hrun]
    exact h.restack rfl rfl h.waiting_handler ⟨rfl, hstacked⟩ (fun hnil => nomatch hnil)
  · rw [if_neg hrun]
    exact h.restack rfl rfl h.waiting_handler hstacked (fun hnil => nomatch hnil)

theorem Armed.timeoutStop (h : Armed o) (id : Nat) :
    Armed ⟨timeoutStop o.state id, stopped o.state id 0 o.waiting⟩ := by
  unfold Timeout.timeoutStop stopped
  by_cases hid : id ≥ o.state.numberOfRegisteredTimeouts
  · rw [if_pos hid, if_neg (by omega)]
    exact h
  rw [if_neg hid, if_pos (show id < _ ∧ 0 = 0 from ⟨by omega, rfl⟩)]
  have hd := h.deactivate id
  dsimp only
  split
  · exact hd
  · rename_i hnone
    refine hd.restack rfl rfl hd.waiting_handler hd.stacked fun _ ⟨j, hj⟩ => ?_
    exact absurd ⟨j, hd.active_registered j hj, hj⟩ hnone

/-- The end of `timeout_timer_callback` and of `timeout_start`: the timer runs when a
timeout is active. -/
theorem Armed.startTimer {s : State} {w : Nat → Option Start}
    (hrun : Armed ⟨{ s with timerRunning := true }, w⟩) (timerOk : Bool) :
    Armed ⟨startTimer timerOk s, w⟩ := by
  unfold Timeout.startTimer
  split
  · exact hrun.restack rfl rfl hrun.waiting_handler hrun.stacked fun _ _ => rfl
  · rename_i hmin
    exact hrun.restack rfl rfl hrun.waiting_handler hrun.stacked fun _ ⟨i, hi⟩ =>
      absurd (getMinimalRemainingMs_lt (hrun.active_registered i hi) hi
        (hrun.active_remaining i hi)) hmin

/-- One timeout less waits. -/
theorem Armed.forget (h : Armed o) (i : Nat) : Armed ⟨o.state, Function.update o.waiting i none⟩ := by
  have hw : ∀ j, Function.update o.waiting i none j ≠ none → o.waiting j ≠ none := by
    intro j hj
    by_cases hji : j = i
    · subst hji
      exact absurd (Function.update_self _ _ _) hj
    · rwa [Function.update_of_ne hji] at hj
  exact ⟨fun j hj => h.waiting_active j (hw j hj), fun j hj => h.waiting_handler j (hw j hj),
    h.active_registered, h.active_remaining, h.active_timeout, h.stacked, h.idle_running⟩

/-- What remains of a timeout becomes less. -/
theorem Armed.countDown (h : Armed o) (i deltaMs : Nat) :
    Armed ⟨o.state.assign i fun t => { t with remainingMs := t.remainingMs - deltaMs },
      o.waiting⟩ := by
  have hact : ∀ j, ((o.state.assign i fun t =>
      { t with remainingMs := t.remainingMs - deltaMs }).registeredTimeouts j).active =
        (o.state.registeredTimeouts j).active ∧
      ((o.state.assign i fun t =>
      { t with remainingMs := t.remainingMs - deltaMs }).registeredTimeouts j).timeoutMs =
        (o.state.registeredTimeouts j).timeoutMs ∧
      ((o.state.assign i fun t =>
      { t with remainingMs := t.remainingMs - deltaMs }).registeredTimeouts j).remainingMs ≤
        (o.state.registeredTimeouts j).remainingMs := by
    intro j
    by_cases hj : j = i
    · subst hj
      simp
    · simp [assign_ne hj]
  refine ⟨fun j hj => ?_, h.waiting_handler, fun j hj => ?_, fun j hj => ?_, fun j hj => ?_,
    h.stacked, fun hidle ⟨j, hj⟩ => ?_⟩
  · rw [(hact j).1]
    exact h.waiting_active j hj
  · rw [(hact j).1] at hj
    exact h.active_registered j hj
  · rw [(hact j).1] at hj
    exact Nat.lt_of_le_of_lt (hact j).2.2 (h.active_remaining j hj)
  · rw [(hact j).1] at hj
    rw [(hact j).2.1]
    exact h.active_timeout j hj
  · rw [(hact j).1] at hj
    exact h.idle_running hidle ⟨j, hj⟩

/-- The loop goes on to the next timeout. -/
theorem Armed.next (h : Armed o) {s' : State} {deltaMs i : Nat} {inHandler : Bool}
    {behind : List Frame} (hstack : o.state.stack = .adaptRemainingMs deltaMs i inHandler :: behind)
    (hs : s' = { o.state with stack := .adaptRemainingMs deltaMs (i + 1) false :: behind }) :
    Armed ⟨s', o.waiting⟩ := by
  have hst := h.stacked
  rw [hstack] at hst
  rw [hs]
  refine h.restack rfl rfl (fun j hj => ?_) hst (fun hnil => nomatch hnil)
  have hout := h.waiting_handler j hj
  rw [hstack] at hout
  simp only [inHandlerOf, List.any_cons, Bool.or_eq_false_iff] at hout ⊢
  exact ⟨trivial, hout.2⟩

theorem Armed.adaptTurn (h : Armed o) {deltaMs i : Nat} {behind : List Frame}
    (hstack : o.state.stack = .adaptRemainingMs deltaMs i false :: behind) (timerOk : Bool) :
    Armed (o.step (.goOn timerOk)) := by
  have hst := h.stacked
  rw [hstack] at hst
  unfold Observed.step step observe goOn
  simp only [hstack, State.expires, Timeout.adaptTurn]
  by_cases hi : i < o.state.numberOfRegisteredTimeouts
  · by_cases hact : (o.state.registeredTimeouts i).active = true
    · by_cases hused : (o.state.registeredTimeouts i).remainingMs < deltaMs
      · simp only [hi, hact, hused, if_true, and_self]
        by_cases hhandler : (o.state.registeredTimeouts i).hasHandler = true
        · simp only [hhandler, if_true]
          have hf := h.forget i
          refine hf.restack rfl rfl (fun j hj => ?_) hst (fun hnil => absurd hnil (List.cons_ne_nil _ _))
          have hji : j ≠ i := by
            rintro rfl
            exact hj (Function.update_self _ _ _)
          have hout := hf.waiting_handler j hj
          simp only [hstack, inHandlerOf, List.any_cons, Bool.or_eq_false_iff] at hout ⊢
          exact ⟨by simpa using hji.symm, hout.2⟩
        · simp only [hhandler, if_false, Bool.false_eq_true]
          exact (h.deactivate i).next hstack rfl
      · simp only [hi, hact, hused, if_true, if_false, and_false]
        exact (h.countDown i deltaMs).next hstack rfl
    · simp only [hi, hact, if_true, if_false, Bool.false_eq_true, and_false, false_and]
      exact h.next hstack rfl
  · simp only [hi, if_false, false_and]
    refine h.restack rfl rfl (fun j hj => ?_) hst.2 fun hnil => ?_
    · have hout := h.waiting_handler j hj
      simp only [hstack, inHandlerOf, List.any_cons, Bool.or_eq_false_iff] at hout
      exact hout.2
    · rw [show behind = [] from hnil] at hst
      cases hst.1

/-- The handler returns: its timeout waits for nothing, so that clearing `active` loses
nothing. -/
theorem Armed.handlerReturn (h : Armed o) {deltaMs i : Nat} {behind : List Frame}
    (hstack : o.state.stack = .adaptRemainingMs deltaMs i true :: behind) (timerOk : Bool) :
    Armed (o.step (.goOn timerOk)) := by
  have hwait : o.waiting i = none := by
    by_contra hne
    have hout := h.waiting_handler i hne
    simp [hstack, inHandlerOf] at hout
  have hd := h.deactivate i
  rw [← hwait, Function.update_eq_self] at hd
  unfold Observed.step step observe goOn
  simp only [hstack, State.expires]
  exact hd.next hstack rfl

/-- A timeout is started while the timer runs, outside its handler. -/
theorem Armed.activate (h : Armed o) {id ms : Nat}
    (hid : id < o.state.numberOfRegisteredTimeouts) (hpos : 0 < ms) (hms : ms < uint32Max)
    (hhandler : inHandlerOf id o.state.stack = false) (hrun : o.state.timerRunning = true)
    (since : Nat) :
    Armed ⟨o.state.assign id
        fun t => { t with timeoutMs := ms, remainingMs := ms, active := true },
      Function.update o.waiting id (some { since, ms })⟩ := by
  refine ⟨fun j hj => ?_, fun j hj => ?_, fun j hj => ?_, fun j hj => ?_, fun j hj => ?_, h.stacked,
    fun _ _ => hrun⟩
  all_goals
    dsimp only at hj ⊢
    by_cases hji : j = id
  · subst hji
    rw [assign_self]
  · rw [Function.update_of_ne hji] at hj
    rw [assign_ne hji]
    exact h.waiting_active j hj
  · exact hji ▸ hhandler
  · rw [Function.update_of_ne hji] at hj
    exact h.waiting_handler j hj
  · exact hji ▸ hid
  · rw [assign_ne hji] at hj
    exact h.active_registered j hj
  · subst hji
    rwa [assign_self]
  · rw [assign_ne hji] at hj ⊢
    exact h.active_remaining j hj
  · subst hji
    rw [assign_self]
    exact ⟨hpos, hms⟩
  · rw [assign_ne hji] at hj ⊢
    exact h.active_timeout j hj

theorem Armed.goOn (h : Armed o) (timerOk : Bool) : Armed (o.step (.goOn timerOk)) := by
  have hst := h.stacked
  cases hstack : o.state.stack with
  | nil =>
    unfold Observed.step step observe Timeout.goOn State.expires
    simp only [hstack]
    exact h
  | cons frame behind =>
    rw [hstack] at hst
    have hout : ∀ j, o.waiting j ≠ none → inHandlerOf j behind = false := by
      intro j hj
      have hout := h.waiting_handler j hj
      simp only [hstack, inHandlerOf, List.any_cons, Bool.or_eq_false_iff] at hout
      exact hout.2
    cases frame with
    | adaptRemainingMs deltaMs i inHandler =>
      cases inHandler with
      | true => exact h.handlerReturn hstack timerOk
      | false => exact h.adaptTurn hstack timerOk
    | timeoutTimerCallback =>
      unfold Observed.step step observe Timeout.goOn State.expires
      simp only [hstack]
      exact Armed.startTimer (s := { o.state with stack := behind })
        (h.restack rfl rfl hout hst fun _ _ => rfl) timerOk
    | timeoutStart id ms =>
      obtain ⟨hid, hpos, hms, hhandler, hbehind⟩ := hst
      unfold Observed.step step observe Timeout.goOn
      simp only [hstack]
      have hpop : Armed ⟨{ o.state with timerRunning := true, stack := behind }, o.waiting⟩ :=
        h.restack rfl rfl hout hbehind fun _ _ => rfl
      exact Armed.startTimer
        (s := { o.state.assign id
          (fun t => { t with timeoutMs := ms, remainingMs := ms, active := true }) with
          timerRunning := false, stack := behind })
        (hpop.activate hid hpos hms hhandler rfl o.state.millis) timerOk

theorem Armed.step (h : Armed o) (a : Action) (ha : StartedFromElsewhere o a) :
    Armed (o.step a) := by
  cases a with
  | tick ms => exact h.restack rfl rfl h.waiting_handler h.stacked h.idle_running
  | timerExpires =>
    unfold Observed.step Timeout.step observe
    by_cases hset : o.state.timerStarted = true ∧ o.state.stack = []
    · simp only [if_pos hset]
      exact h.restack rfl rfl (fun _ _ => rfl) ⟨rfl, trivial⟩ (fun hnil => nomatch hnil)
    · simp only [if_neg hset]
      exact h
  | start id ms =>
    unfold Observed.step Timeout.step observe
    by_cases hcall : o.state.callable = true
    · simp only [hcall, if_true]
      exact h.timeoutStart ha.1 ha.2
    · simp only [hcall, if_false, Bool.false_eq_true]
      exact h
  | stop id =>
    unfold Observed.step Timeout.step observe
    by_cases hcall : o.state.callable = true
    · simp only [hcall, if_true]
      exact h.timeoutStop id
    · simp only [hcall, if_false, Bool.false_eq_true]
      exact h
  | reset id =>
    unfold Observed.step Timeout.step observe timeoutReset
    by_cases hcall : o.state.callable = true
    · by_cases hact : (o.state.registeredTimeouts id).active = true
      · simp only [hcall, hact, if_true, and_self]
        exact h.timeoutStart (h.active_timeout id hact).2 fun _ => ha hact
      · simp only [hcall, hact, if_true, if_false, and_false, Bool.false_eq_true]
        exact h
    · simp only [hcall, if_false, false_and, Bool.false_eq_true]
      exact h
  | goOn timerOk => exact h.goOn timerOk

theorem Fresh.armed (h : Fresh o) : Armed o := by
  have hno : ∀ i, (o.state.registeredTimeouts i).active ≠ true := by
    intro i
    rw [h.inactive i]
    exact Bool.false_ne_true
  refine ⟨fun i hi => absurd (h.nothing_waits i) hi, fun i hi => absurd (h.nothing_waits i) hi,
    fun i hi => absurd hi (hno i), fun i hi => absurd hi (hno i), fun i hi => absurd hi (hno i), ?_,
    fun _ ⟨i, hi⟩ => absurd hi (hno i)⟩
  rw [h.idle]
  trivial

/-- Every timeout that waits is active, and between calls the timer runs when a timeout is
active. -/
def StaysArmed (o : Observed) : Prop :=
  (∀ i, o.waiting i ≠ none → (o.state.registeredTimeouts i).active = true) ∧
  (o.state.stack = [] → (∃ i < o.state.numberOfRegisteredTimeouts,
    (o.state.registeredTimeouts i).active = true) → o.state.timerRunning = true)

/-- In every run in which no timeout is started with `UINT32_MAX` or by its own handler,
started timeouts stay armed. -/
theorem started_timeouts_stay_armed (h : Fresh o) {as : List Action}
    (hc : Along Observed.step StartedFromElsewhere o as) :
    StaysArmed (run Observed.step o as) := by
  have ha : Armed (run Observed.step o as) :=
    run_invariant (I := Armed) (fun o a ho ha => ho.step a ha) h.armed hc
  exact ⟨ha.waiting_active, fun hidle ⟨i, _, hi⟩ => ha.idle_running hidle ⟨i, hi⟩⟩

/-- The handler of timeout 0 starts timeout 1. -/
def startsAnother : List Action :=
  [.start 0 5, .goOn true, .tick 6, .timerExpires, .goOn true, .start 1 7, .goOn true, .goOn true,
    .goOn true, .goOn true, .goOn true]

theorem started_timeouts_stay_armed_another :
    Along Observed.step StartedFromElsewhere (powerUp [true, true]) startsAnother ∧
    (run Observed.step (powerUp [true, true]) startsAnother).waiting 1 = some ⟨6, 7⟩ ∧
    (run Observed.step (powerUp [true, true]) startsAnother).state.stack = [] ∧
    StaysArmed (run Observed.step (powerUp [true, true]) startsAnother) := by
  have hc : Along Observed.step StartedFromElsewhere (powerUp [true, true]) startsAnother := by
    decide +kernel
  exact ⟨hc, by decide +kernel, by decide +kernel,
    started_timeouts_stay_armed (powerUp_fresh [true, true]) hc⟩

/-- The handler of timeout 0 starts it again. -/
def startsItself : List Action :=
  [.start 0 5, .goOn true, .tick 6, .timerExpires, .goOn true, .start 0 5, .goOn true, .goOn true,
    .goOn true, .goOn true]

/-- A timeout that its handler starts again is lost when the handler returns; and started
with `UINT32_MAX` it does not start the timer. -/
theorem armed_timeouts_are_lost :
    (run Observed.step (powerUp [true]) startsItself).waiting 0 = some ⟨6, 5⟩ ∧
    ((run Observed.step (powerUp [true]) startsItself).state.registeredTimeouts 0).active = false ∧
    ¬ StaysArmed (run Observed.step (powerUp [true]) startsItself) ∧
    ¬ StaysArmed (run Observed.step (powerUp [true]) [.start 0 uint32Max, .goOn true]) := by
  have hwait : (run Observed.step (powerUp [true]) startsItself).waiting 0 = some ⟨6, 5⟩ := by
    decide +kernel
  have hact : ((run Observed.step (powerUp [true]) startsItself).state.registeredTimeouts
      0).active = false := by
    decide +kernel
  refine ⟨hwait, hact, fun h => ?_, fun h => ?_⟩
  · have h0 := h.1 0 (by rw [hwait]; exact nofun)
    rw [hact] at h0
    cases h0
  · have hrun := h.2 (by decide +kernel) ⟨0, by decide +kernel, by decide +kernel⟩
    revert hrun
    decide +kernel

end OpenBadge.Timeout
