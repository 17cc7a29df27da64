import OpenBadge.Timeout.Model

/-!
# No timeout fires early

What is left of a timeout, added to the instant from which it is counted down, never
comes before its deadline. That instant is the start of the timer while the timer runs,
and the present while it does not; in the middle of `adapt_remaining_ms` it is the
present for the timeouts that the loop has passed and the start of the timer for the
others.
-/

namespace OpenBadge.Timeout

open OpenBadge.Lib

/-- There is a start with a value above 0, and its deadline is at most `x`. -/
def DueBy (waiting : Option Start) (x : Nat) : Prop :=
  ∃ start, waiting = some start ∧ 0 < start.ms ∧ start.since + start.ms ≤ x

theorem DueBy.mono {waiting : Option Start} {x y : Nat} (h : DueBy waiting x) (hxy : x ≤ y) :
    DueBy waiting y := by
  obtain ⟨start, hw, hpos, hle⟩ := h
  exact ⟨start, hw, hpos, Nat.le_trans hle hxy⟩

/-- Every active timeout, apart from `except`, is due at the earliest after what remains
of it, counted from `from_`. -/
def CountedFrom (s : State) (waiting : Nat → Option Start) (except : Option Nat)
    (origin : Nat → Nat) : Prop :=
  ∀ j, (s.registeredTimeouts j).active = true → except ≠ some j →
    DueBy (waiting j) ((s.registeredTimeouts j).remainingMs + origin j)

/-- `rest` is what a function does behind its call of `adapt_remaining_ms`. The timer is
stopped, and `timeout_timer_callback` has noted that. -/
def State.EndsWith (s : State) (rest : Frame) : Prop :=
  s.timerStarted = false ∧
  match rest with
  | .adaptRemainingMs _ _ _ => False
  | .timeoutTimerCallback => s.timerRunning = false
  | .timeoutStart timeoutId timeoutMs => timeoutId < s.numberOfRegisteredTimeouts ∧ 0 < timeoutMs

/-- Where the library is, with what is known of the remaining times there. -/
inductive Phase (s : State) (waiting : Nat → Option Start) : Prop
  | idle (hstack : s.stack = []) (hset : s.timerStarted = true → s.timerRunning = true)
      (hdue : CountedFrom s waiting none
        fun _ => if s.timerRunning = true then s.timerStartMs else s.millis)
  | ending (rest : Frame) (hrest : s.EndsWith rest) (hstack : s.stack = [rest])
      (hdue : CountedFrom s waiting none fun _ => s.millis)
  | adapting (rest : Frame) (deltaMs i : Nat) (inHandler : Bool) (hrest : s.EndsWith rest)
      (hstack : s.stack = [.adaptRemainingMs deltaMs i inHandler, rest])
      (hdelta : s.timerStartMs + deltaMs ≤ s.millis)
      (hdue : CountedFrom s waiting (if inHandler then some i else none)
        fun j => if j < i then s.millis else s.timerStartMs)

/-- What holds between the steps. -/
structure OnTime (o : Observed) : Prop where
  startMs_le : o.state.timerStartMs ≤ o.state.millis
  registered : ∀ j, (o.state.registeredTimeouts j).active = true →
    j < o.state.numberOfRegisteredTimeouts
  phase : Phase o.state o.waiting

/-- Timeouts are started and reset from outside, not by a handler. -/
def StartedOutside (o : Observed) : Action → Prop
  | .start _ _ | .reset _ => o.state.stack = []
  | _ => True

instance (o : Observed) : (a : Action) → Decidable (StartedOutside o a)
  | .start _ _ | .reset _ => inferInstanceAs (Decidable (o.state.stack = []))
  | .tick _ | .timerExpires | .stop _ | .goOn _ => .isTrue trivial

section Counted

variable {s s' : State} {w w' : Nat → Option Start} {except : Option Nat} {origin origin' : Nat → Nat}

/-- The timeouts that stay active keep what remains of them and what they wait for. -/
theorem CountedFrom.keep (h : CountedFrom s w except origin)
    (hj : ∀ j, (s'.registeredTimeouts j).active = true → except ≠ some j →
      (s.registeredTimeouts j).active = true ∧
      (s'.registeredTimeouts j).remainingMs = (s.registeredTimeouts j).remainingMs ∧
      w' j = w j ∧ origin j ≤ origin' j) : CountedFrom s' w' except origin' := by
  intro j hact hne
  obtain ⟨hold, hrem, hw, ho⟩ := hj j hact hne
  rw [hw, hrem]
  exact (h j hold hne).mono (by omega)

/-- Without the timeout that is deactivated. -/
theorem CountedFrom.deactivate {i : Nat} (h : CountedFrom s w except origin)
    (hreg : s'.registeredTimeouts =
      (s.assign i fun t => { t with active := false }).registeredTimeouts)
    (hw : ∀ j, j ≠ i → w' j = w j) (ho : ∀ j, origin j ≤ origin' j) :
    CountedFrom s' w' except origin' := by
  apply h.keep
  intro j hact _
  rw [hreg] at hact ⊢
  obtain ⟨hj, hold⟩ := active_of_deactivate hact
  exact ⟨hold, by rw [assign_ne hj], hw j hj, ho j⟩

end Counted

/-- The application-timer is stopped. -/
theorem State.EndsWith.stop {s : State} {rest : Frame} (h : s.EndsWith rest) :
    State.EndsWith { s with timerRunning := false, timerStarted := false } rest := by
  refine ⟨rfl, ?_⟩
  cases rest with
  | adaptRemainingMs _ _ _ => exact h.2
  | timeoutTimerCallback => rfl
  | timeoutStart _ _ => exact h.2

/-! ## The steps -/

variable {o : Observed}

/-- The timer stops and the loop begins. -/
theorem OnTime.callAdapt (h : OnTime o) (hstack : o.state.stack = [])
    (hrun : o.state.timerRunning = true) {rest : Frame} {running : Bool}
    (hrest : State.EndsWith { o.state with timerStarted := false, timerRunning := running } rest) :
    OnTime ⟨callAdaptRemainingMs
      { o.state with timerStarted := false, timerRunning := running } [rest], o.waiting⟩ := by
  have hmod := Nat.mod_le (o.state.millis - o.state.timerStartMs) (2 ^ 32)
  have hle := h.startMs_le
  refine ⟨hle, h.registered, ?_⟩
  refine Phase.adapting rest _ 0 false (show State.EndsWith _ rest from hrest) rfl ?_ ?_
  · show o.state.timerStartMs + (o.state.millis - o.state.timerStartMs) % 2 ^ 32 ≤ o.state.millis
    omega
  · cases h.phase with
    | idle _ _ hdue =>
      simp only [hrun, if_true] at hdue
      exact hdue.keep fun j hact _ => ⟨hact, rfl, rfl, Nat.le_refl _⟩
    | ending rest' _ hstack' _ => simp [hstack] at hstack'
    | adapting _ _ _ _ _ hstack' _ _ => simp [hstack] at hstack'

theorem OnTime.tick (h : OnTime o) (ms : Nat) : OnTime (o.step (.tick ms)) := by
  have hle := h.startMs_le
  refine ⟨?_, h.registered, ?_⟩
  · show o.state.timerStartMs ≤ o.state.millis + ms
    omega
  cases h.phase with
  | idle hstack hset hdue =>
    refine Phase.idle hstack hset (hdue.keep fun j hact _ => ⟨hact, rfl, rfl, ?_⟩)
    show _ ≤ if o.state.timerRunning = true then o.state.timerStartMs else o.state.millis + ms
    split <;> omega
  | ending rest hrest hstack hdue =>
    exact Phase.ending rest hrest hstack (hdue.keep fun j hact _ =>
      ⟨hact, rfl, rfl, Nat.le_add_right _ _⟩)
  | adapting rest deltaMs i inHandler hrest hstack hdelta hdue =>
    refine Phase.adapting rest deltaMs i inHandler hrest hstack ?_
      (hdue.keep fun j hact _ => ⟨hact, rfl, rfl, ?_⟩)
    · show o.state.timerStartMs + deltaMs ≤ o.state.millis + ms
      omega
    · show _ ≤ if j < i then o.state.millis + ms else o.state.timerStartMs
      split <;> omega

theorem OnTime.timerExpires (h : OnTime o) : OnTime (o.step .timerExpires) := by
  unfold Observed.step step observe
  by_cases hset : o.state.timerStarted = true ∧ o.state.stack = []
  · have hrun : o.state.timerRunning = true := by
      cases h.phase with
      | idle _ hrun _ => exact hrun hset.1
      | ending _ _ hstack _ => simp [hset.2] at hstack
      | adapting _ _ _ _ _ hstack _ _ => simp [hset.2] at hstack
    simp only [if_pos hset]
    exact h.callAdapt hset.2 hrun ⟨rfl, rfl⟩
  · simp only [if_neg hset]
    exact h

/-- One timeout is deactivated, and waits for nothing any more. -/
theorem OnTime.deactivate (h : OnTime o) (i : Nat) :
    OnTime ⟨o.state.assign i fun t => { t with active := false },
      Function.update o.waiting i none⟩ := by
  refine ⟨h.startMs_le, fun j hj => h.registered j (active_of_deactivate hj).2, ?_⟩
  have hw : ∀ j, j ≠ i → Function.update o.waiting i none j = o.waiting j :=
    fun j hj => Function.update_of_ne hj _ _
  cases h.phase with
  | idle hstack hset hdue =>
    exact Phase.idle hstack hset (hdue.deactivate rfl hw fun _ => Nat.le_refl _)
  | ending rest hrest hstack hdue =>
    exact Phase.ending rest hrest hstack (hdue.deactivate rfl hw fun _ => Nat.le_refl _)
  | adapting rest deltaMs k inHandler hrest hstack hdelta hdue =>
    exact Phase.adapting rest deltaMs k inHandler hrest hstack hdelta
      (hdue.deactivate rfl hw fun _ => Nat.le_refl _)

/-- `timeout_start` from outside, as far as its call of `adapt_remaining_ms`. -/
theorem OnTime.timeoutStart (h : OnTime o) (hstack : o.state.stack = []) (id ms : Nat) :
    OnTime ⟨timeoutStart o.state id ms, stopped o.state id ms o.waiting⟩ := by
  unfold Timeout.timeoutStart stopped
  by_cases hid : id ≥ o.state.numberOfRegisteredTimeouts
  · rw [if_pos hid, if_neg (by omega)]
    exact h
  · have hlt : id < o.state.numberOfRegisteredTimeouts := Nat.lt_of_not_le hid
    rw [if_neg hid]
    by_cases hms : ms = 0
    · rw [if_pos hms, if_pos ⟨by omega, hms⟩]
      exact h.deactivate id
    · rw [if_neg hms, if_neg (show ¬ (id < _ ∧ ms = 0) from fun hz => hms hz.2)]
      by_cases hrun : o.state.timerRunning = true
      · rw [if_pos hrun, hstack]
        exact h.callAdapt hstack hrun ⟨rfl, hlt, Nat.pos_of_ne_zero hms⟩
      · rw [if_neg hrun, hstack]
        refine ⟨h.startMs_le, h.registered, ?_⟩
        cases h.phase with
        | idle _ hset hdue =>
          have hoff : o.state.timerStarted = false := by
            cases hs : o.state.timerStarted with
            | false => rfl
            | true => exact absurd (hset hs) hrun
          simp only [hrun, if_false, Bool.false_eq_true] at hdue
          exact Phase.ending (.timeoutStart id ms) ⟨hoff, hlt, Nat.pos_of_ne_zero hms⟩ rfl
            (hdue.keep fun j hact _ => ⟨hact, rfl, rfl, Nat.le_refl _⟩)
        | ending _ _ hstack' _ => simp [hstack] at hstack'
        | adapting _ _ _ _ _ hstack' _ _ => simp [hstack] at hstack'

theorem OnTime.timeoutStop (h : OnTime o) (id : Nat) :
    OnTime ⟨timeoutStop o.state id, stopped o.state id 0 o.waiting⟩ := by
  unfold Timeout.timeoutStop stopped
  by_cases hid : id ≥ o.state.numberOfRegisteredTimeouts
  · rw [if_pos hid, if_neg (by omega)]
    exact h
  rw [if_neg hid, if_pos (show id < _ ∧ 0 = 0 from ⟨by omega, rfl⟩)]
  have hd := h.deactivate id
  dsimp only
  split
  · exact hd
  · rename_i hnone
    have hno : ∀ j, ((o.state.assign id fun t => { t with active := false }).registeredTimeouts
        j).active ≠ true := fun j hj => hnone ⟨j, hd.registered j hj, hj⟩
    refine ⟨hd.startMs_le, hd.registered, ?_⟩
    cases hd.phase with
    | idle hstack _ _ =>
      exact Phase.idle hstack (fun hset => hset) fun j hact _ => absurd hact (hno j)
    | ending rest hrest hstack _ =>
      exact Phase.ending rest hrest.stop hstack fun j hact _ => absurd hact (hno j)
    | adapting rest deltaMs k inHandler hrest hstack hdelta _ =>
      exact Phase.adapting rest deltaMs k inHandler hrest.stop hstack hdelta
        fun j hact _ => absurd hact (hno j)

/-! ## The loop and what follows it -/

/-- The end of `timeout_timer_callback` and of `timeout_start`. -/
theorem OnTime.startTimer {s : State} {w : Nat → Option Start} (hstack : s.stack = [])
    (hle : s.timerStartMs ≤ s.millis)
    (hreg : ∀ j, (s.registeredTimeouts j).active = true → j < s.numberOfRegisteredTimeouts)
    (hrun : s.timerRunning = false) (hset : s.timerStarted = false)
    (hdue : CountedFrom s w none fun _ => s.millis) (timerOk : Bool) :
    OnTime ⟨startTimer timerOk s, w⟩ := by
  unfold Timeout.startTimer
  split
  · refine ⟨Nat.le_refl _, hreg, Phase.idle hstack (fun _ => rfl) ?_⟩
    exact hdue.keep fun j hact _ => ⟨hact, rfl, rfl, Nat.le_refl _⟩
  · refine ⟨hle, hreg, Phase.idle hstack (fun h => ?_) ?_⟩
    · rw [hset] at h
      cases h
    · exact hdue.keep fun j hact _ => ⟨hact, rfl, rfl, by simp [hrun]⟩

/-- What is behind the loop, or behind a single call. -/
theorem OnTime.goOn_ending (h : OnTime o) {rest : Frame} (hrest : o.state.EndsWith rest)
    (hstack : o.state.stack = [rest])
    (hdue : CountedFrom o.state o.waiting none fun _ => o.state.millis) (timerOk : Bool) :
    OnTime (o.step (.goOn timerOk)) := by
  obtain ⟨hoff, hrest⟩ := hrest
  unfold Observed.step step observe goOn
  cases rest with
  | adaptRemainingMs _ _ _ => exact hrest.elim
  | timeoutTimerCallback =>
    simp only [hstack, State.expires]
    exact OnTime.startTimer (s := { o.state with stack := [] }) rfl h.startMs_le h.registered hrest
      hoff hdue timerOk
  | timeoutStart id ms =>
    obtain ⟨hid, hms⟩ := hrest
    simp only [hstack]
    refine OnTime.startTimer
      (s := { o.state.assign id
        (fun t => { t with timeoutMs := ms, remainingMs := ms, active := true }) with
        timerRunning := false, stack := [] }) rfl h.startMs_le ?_ rfl hoff ?_ timerOk
    · intro j hact
      by_cases hj : j = id
      · exact hj ▸ hid
      · simp only [assign_ne hj] at hact
        exact h.registered j hact
    · intro j hact _
      by_cases hj : j = id
      · subst hj
        refine ⟨⟨o.state.millis, ms⟩, Function.update_self _ _ _, hms, ?_⟩
        rw [assign_self]
        exact Nat.le_of_eq (Nat.add_comm o.state.millis ms)
      · simp only [assign_ne hj] at hact ⊢
        rw [Function.update_of_ne hj]
        exact hdue j hact (by simp)

/-- A timeout that the loop finds used up is past its deadline. -/
theorem OnTime.expires (h : OnTime o) {i : Nat} (hi : o.state.expires = some i) :
    ∃ start, o.waiting i = some start ∧ 0 < start.ms ∧
      start.since + start.ms < o.state.millis := by
  unfold State.expires at hi
  cases h.phase with
  | idle hstack _ _ => simp [hstack] at hi
  | ending rest hrest hstack _ =>
    have hrest' := hrest.2
    cases rest <;> simp_all
  | adapting rest deltaMs k inHandler hrest hstack hdelta hdue =>
    cases inHandler with
    | true => simp [hstack] at hi
    | false =>
      simp only [hstack, Option.ite_none_right_eq_some, Option.some.injEq] at hi
      obtain ⟨⟨_, hact, hused⟩, rfl⟩ := hi
      obtain ⟨start, hw, hpos, hle⟩ := hdue k hact (by simp)
      simp only [Nat.lt_irrefl, if_false] at hle
      exact ⟨start, hw, hpos, by omega⟩

/-- The loop goes on to the next timeout. -/
theorem Phase.next {s s' : State} {w w' : Nat → Option Start} {rest : Frame} {deltaMs i : Nat}
    {inHandler : Bool} (hrest : s.EndsWith rest) (hdelta : s.timerStartMs + deltaMs ≤ s.millis)
    (hdue : CountedFrom s w (if inHandler then some i else none)
      fun j => if j < i then s.millis else s.timerStartMs)
    (hstack : s'.stack = [.adaptRemainingMs deltaMs (i + 1) false, rest])
    (hsame : s' = { s with registeredTimeouts := s'.registeredTimeouts, stack := s'.stack })
    (hreg : ∀ j, j ≠ i → s'.registeredTimeouts j = s.registeredTimeouts j)
    (hw : ∀ j, j ≠ i → w' j = w j)
    (hi : (s'.registeredTimeouts i).active = true →
      DueBy (w' i) ((s'.registeredTimeouts i).remainingMs + s.millis)) : Phase s' w' := by
  rw [hsame]
  refine Phase.adapting rest deltaMs (i + 1) false hrest hstack hdelta ?_
  intro j hact _
  dsimp only at hact ⊢
  by_cases hj : j = i
  · subst hj
    rw [if_pos (Nat.lt_succ_self j)]
    exact hi hact
  · rw [hreg j hj] at hact ⊢
    rw [hw j hj]
    have hd := hdue j hact (by
      split
      · exact fun h => hj (Option.some.inj h).symm
      · exact nofun)
    refine hd.mono ?_
    dsimp only
    split <;> split <;> omega

/-- A turn of the loop, or the return of the handler that it called. -/
theorem OnTime.goOn_adapting (h : OnTime o) {rest : Frame} {deltaMs i : Nat} {inHandler : Bool}
    (hrest : o.state.EndsWith rest)
    (hstack : o.state.stack = [.adaptRemainingMs deltaMs i inHandler, rest])
    (hdelta : o.state.timerStartMs + deltaMs ≤ o.state.millis)
    (hdue : CountedFrom o.state o.waiting (if inHandler then some i else none)
      fun j => if j < i then o.state.millis else o.state.timerStartMs) (timerOk : Bool) :
    OnTime (o.step (.goOn timerOk)) := by
  have hle := h.startMs_le
  have hreg := h.registered
  unfold Observed.step step observe goOn
  cases inHandler with
  | true =>
    simp only [hstack, State.expires]
    refine ⟨hle, fun j hj => hreg j (active_of_deactivate hj).2, ?_⟩
    refine Phase.next hrest hdelta hdue rfl rfl (fun j hj => Function.update_of_ne hj _ _) (fun _ _ => rfl) ?_
    intro hact
    simp at hact
  | false =>
    simp only [hstack, State.expires, adaptTurn]
    by_cases hi : i < o.state.numberOfRegisteredTimeouts
    · by_cases hact : (o.state.registeredTimeouts i).active = true
      · by_cases hused : (o.state.registeredTimeouts i).remainingMs < deltaMs
        · have hw : ∀ j, j ≠ i → Function.update o.waiting i none j = o.waiting j :=
            fun j hj => Function.update_of_ne hj _ _
          simp only [hi, hact, hused, if_true, and_self]
          by_cases hhandler : (o.state.registeredTimeouts i).hasHandler = true
          · simp only [hhandler, if_true]
            refine ⟨hle, hreg, Phase.adapting rest deltaMs i true hrest rfl hdelta ?_⟩
            intro j hj hne
            have hji : j ≠ i := fun h => hne (by simp [h])
            dsimp only
            rw [hw j hji]
            exact hdue j hj (by simp)
          · simp only [hhandler, if_false, Bool.false_eq_true]
            refine ⟨hle, fun j hj => hreg j (active_of_deactivate hj).2, ?_⟩
            refine Phase.next hrest hdelta hdue rfl rfl (fun j hj => Function.update_of_ne hj _ _) hw ?_
            intro hact
            simp at hact
        · simp only [hi, hact, hused, if_true, if_false, and_false]
          refine ⟨hle, fun j hj => ?_, ?_⟩
          · by_cases hji : j = i
            · exact hji ▸ hi
            · simp only [assign_ne hji] at hj
              exact hreg j hj
          · refine Phase.next hrest hdelta hdue rfl rfl (fun j hj => Function.update_of_ne hj _ _) (fun _ _ => rfl) ?_
            intro _
            have hd := hdue i hact (by simp)
            simp only [Nat.lt_irrefl, if_false] at hd
            refine hd.mono ?_
            rw [assign_self]
            dsimp only
            omega
      · simp only [hi, hact, if_true, if_false, Bool.false_eq_true, and_false, false_and]
        refine ⟨hle, hreg, ?_⟩
        exact Phase.next hrest hdelta hdue rfl rfl (fun _ _ => rfl) (fun _ _ => rfl)
          fun hact' => absurd hact' hact
    · simp only [hi, if_false, false_and]
      refine ⟨hle, hreg, Phase.ending rest hrest rfl ?_⟩
      exact hdue.keep fun j hj _ => ⟨hj, rfl, rfl, by dsimp only; split <;> omega⟩

theorem OnTime.step (h : OnTime o) (a : Action) (hout : StartedOutside o a) :
    OnTime (o.step a) := by
  cases a with
  | tick ms => exact h.tick ms
  | timerExpires => exact h.timerExpires
  | start id ms =>
    have hcall : o.state.callable = true := by rw [State.callable, show o.state.stack = [] from hout]
    unfold Observed.step Timeout.step observe
    simp only [hcall, if_true]
    exact h.timeoutStart hout id ms
  | stop id =>
    unfold Observed.step Timeout.step observe
    by_cases hcall : o.state.callable = true
    · simp only [hcall, if_true]
      exact h.timeoutStop id
    · simp only [hcall, if_false, Bool.false_eq_true]
      exact h
  | reset id =>
    have hcall : o.state.callable = true := by rw [State.callable, show o.state.stack = [] from hout]
    unfold Observed.step Timeout.step observe timeoutReset
    by_cases hact : (o.state.registeredTimeouts id).active = true
    · simp only [hcall, hact, if_true, and_self]
      exact h.timeoutStart hout id _
    · simp only [hcall, hact, if_true, if_false, and_false, Bool.false_eq_true]
      exact h
  | goOn timerOk =>
    cases h.phase with
    | idle hstack _ _ =>
      unfold Observed.step Timeout.step observe goOn State.expires
      simp only [hstack]
      exact h
    | ending rest hrest hstack hdue => exact h.goOn_ending hrest hstack hdue timerOk
    | adapting rest deltaMs i inHandler hrest hstack hdelta hdue =>
      exact h.goOn_adapting hrest hstack hdelta hdue timerOk

theorem Fresh.onTime (h : Fresh o) : OnTime o := by
  refine ⟨h.startMs_le, fun j hj => ?_, Phase.idle h.idle (fun hset => ?_) fun j hj _ => ?_⟩
  · rw [h.inactive j] at hj
    cases hj
  · rw [h.not_started] at hset
    cases hset
  · rw [h.inactive j] at hj
    cases hj

/-- Where `a` makes the loop find a timeout used up, whose handler is then called: the
timeout waits for a start with a value above 0, more than that value has passed since,
and behind the step it waits for nothing. -/
def FiresOnTime (o : Observed) (a : Action) : Prop :=
  ∀ i, (∃ timerOk, a = .goOn timerOk) → o.state.expires = some i →
    (∃ start, o.waiting i = some start ∧ 0 < start.ms ∧
      start.since + start.ms < o.state.millis) ∧
    (o.step a).waiting i = none

/-- Along every run in which the handlers start no timeouts, every timeout that fires has
been started, neither stopped nor fired since, and is past its deadline. -/
theorem timeouts_fire_on_time (h : Fresh o) {as : List Action}
    (hc : Along Observed.step StartedOutside o as) : Along Observed.step FiresOnTime o as := by
  have hrun := hc.strengthen (I := OnTime) (fun o a ho ha => ho.step a ha) h.onTime
  apply hrun.mono
  rintro o a ⟨ho, _⟩ i ⟨timerOk, rfl⟩ hi
  refine ⟨ho.expires hi, ?_⟩
  rw [show (o.step (.goOn timerOk)).waiting = observe o.state o.waiting (.goOn timerOk) from rfl,
    observe_expires hi timerOk]
  exact Function.update_self _ _ _

/-- A long timeout and a short one, as far as the loop that finds the short one used up,
and the handler, which stops the long one. -/
def untilShortTimeout : List Action :=
  [.start 0 150000, .goOn true, .start 1 5, .goOn true, .goOn true, .goOn true, .goOn true,
    .tick 6, .timerExpires, .goOn true]

theorem timeouts_fire_on_time_short :
    (run Observed.step (powerUp [true, true]) untilShortTimeout).state.expires = some 1 ∧
    Along Observed.step StartedOutside (powerUp [true, true])
      (untilShortTimeout ++ [.goOn true, .stop 0, .goOn true]) ∧
    Along Observed.step FiresOnTime (powerUp [true, true])
      (untilShortTimeout ++ [.goOn true, .stop 0, .goOn true]) := by
  have hc : Along Observed.step StartedOutside (powerUp [true, true])
      (untilShortTimeout ++ [.goOn true, .stop 0, .goOn true]) := by
    decide +kernel
  exact ⟨by decide +kernel, hc, timeouts_fire_on_time (powerUp_fresh [true, true]) hc⟩

end OpenBadge.Timeout
