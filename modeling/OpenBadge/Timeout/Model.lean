import Mathlib.Algebra.Group.Nat.Defs
import OpenBadge.Lib.Run
import Mathlib.Logic.Function.Basic

/-!
# timeout_lib.c

All registered timeouts share one app-timer. A handler runs in the middle of
`adapt_remaining_ms` and may call the library again, so a state holds the functions that
are in progress. Beside it stands what each timeout waits for: the start that was neither
stopped nor has expired since.
-/

namespace OpenBadge.Timeout

open OpenBadge.Lib

/-- `MAX_MILLIS_PER_TIMEOUT_TIMER`. -/
def maxMillisPerTimeoutTimer : Nat := 100 * 1000

def uint32Max : Nat := 2 ^ 32 - 1

/-- `timeout_t`; `hasHandler` tells that `timeout_handler` is not `NULL`. -/
structure Timeout where
  remainingMs : Nat := 0
  timeoutMs : Nat := 0
  active : Bool := false
  hasHandler : Bool
  deriving DecidableEq, Repr

/-- A function in progress: the loop of `adapt_remaining_ms` at `i`, which may be in the
call of the handler, or what `timeout_timer_callback` and `timeout_start` do behind their
call of `adapt_remaining_ms`. -/
inductive Frame
  | adaptRemainingMs (deltaMs i : Nat) (inHandler : Bool)
  | timeoutTimerCallback
  | timeoutStart (timeoutId timeoutMs : Nat)
  deriving DecidableEq, Repr

/-- The variables of the library, the clock, and whether the app-timer is started. -/
structure State where
  registeredTimeouts : Nat → Timeout
  numberOfRegisteredTimeouts : Nat
  timerRunning : Bool
  timerStartMs : Nat
  timerStarted : Bool
  millis : Nat
  stack : List Frame

/-- `timeout_init`. -/
def timeoutInit (s : State) : State :=
  { s with numberOfRegisteredTimeouts := 0, timerRunning := false, timerStarted := false }

/-- `MAX_NUMBER_OF_TIMEOUTS`. -/
def maxNumberOfTimeouts : Nat := 20

/-- `timeout_register`, with the new id. -/
def timeoutRegister (s : State) (hasHandler : Bool) : Option Nat × State :=
  if s.numberOfRegisteredTimeouts ≥ maxNumberOfTimeouts then (none, s)
  else
    (some s.numberOfRegisteredTimeouts,
      { s with
        registeredTimeouts :=
          Function.update s.registeredTimeouts s.numberOfRegisteredTimeouts { hasHandler }
        numberOfRegisteredTimeouts := s.numberOfRegisteredTimeouts + 1 })

/-- An assignment to members of `registered_timeouts[i]`. -/
def State.assign (s : State) (i : Nat) (f : Timeout → Timeout) : State :=
  { s with
    registeredTimeouts := Function.update s.registeredTimeouts i (f (s.registeredTimeouts i)) }

section Assign

variable {s : State} {i j : Nat} {f : Timeout → Timeout}

@[simp] theorem assign_self : (s.assign i f).registeredTimeouts i = f (s.registeredTimeouts i) :=
  Function.update_self _ _ _

theorem assign_ne (h : j ≠ i) : (s.assign i f).registeredTimeouts j = s.registeredTimeouts j :=
  Function.update_of_ne h _ _

/-- Deactivating one timeout activates no other one. -/
theorem active_of_deactivate
    (h : ((s.assign i fun t => { t with active := false }).registeredTimeouts j).active = true) :
    j ≠ i ∧ (s.registeredTimeouts j).active = true := by
  by_cases hj : j = i
  · subst hj
    simp at h
  · rw [assign_ne hj] at h
    exact ⟨hj, h⟩

end Assign

/-- The loop of `get_minimal_remaining_ms` over the first `n` timeouts. -/
def minimalRemainingLoop (timeouts : Nat → Timeout) : Nat → Nat
  | 0 => uint32Max
  | n + 1 =>
    let minimal := minimalRemainingLoop timeouts n
    if (timeouts n).active = true ∧ (timeouts n).remainingMs < minimal then
      (timeouts n).remainingMs
    else minimal

def getMinimalRemainingMs (s : State) : Nat :=
  let minimal := minimalRemainingLoop s.registeredTimeouts s.numberOfRegisteredTimeouts
  if minimal = uint32Max then uint32Max
  else
    let minimal :=
      if minimal > maxMillisPerTimeoutTimer then maxMillisPerTimeoutTimer else minimal
    if minimal < 2 then 2 else minimal

/-- The end of `timeout_timer_callback` and of `timeout_start`; `timerOk` tells that
`app_timer_start` succeeds. -/
def startTimer (timerOk : Bool) (s : State) : State :=
  if getMinimalRemainingMs s < uint32Max then
    { s with timerRunning := true, timerStartMs := s.millis, timerStarted := timerOk }
  else s

/-- The call of `adapt_remaining_ms`: `delta_ms` is computed, the loop begins. -/
def callAdaptRemainingMs (s : State) (behind : List Frame) : State :=
  { s with
    stack := .adaptRemainingMs ((s.millis - s.timerStartMs) % 2 ^ 32) 0 false :: behind }

/-- The timeout whose remaining time the loop finds used up. -/
def State.expires (s : State) : Option Nat :=
  match s.stack with
  | .adaptRemainingMs deltaMs i false :: _ =>
    if i < s.numberOfRegisteredTimeouts ∧ (s.registeredTimeouts i).active = true ∧
        (s.registeredTimeouts i).remainingMs < deltaMs then some i else none
  | _ => none

/-- One turn of the loop of `adapt_remaining_ms`, as far as the handler if it is called. -/
def adaptTurn (s : State) (deltaMs i : Nat) (behind : List Frame) : State :=
  let next : List Frame := .adaptRemainingMs deltaMs (i + 1) false :: behind
  if i < s.numberOfRegisteredTimeouts then
    if (s.registeredTimeouts i).active = true then
      if (s.registeredTimeouts i).remainingMs < deltaMs then
        if (s.registeredTimeouts i).hasHandler = true then
          { s with stack := .adaptRemainingMs deltaMs i true :: behind }
        else { s.assign i (fun t => { t with active := false }) with stack := next }
      else
        { s.assign i (fun t => { t with remainingMs := t.remainingMs - deltaMs }) with stack := next }
    else { s with stack := next }
  else { s with stack := behind }

/-- `timeout_start` as far as its call of `adapt_remaining_ms`. -/
def timeoutStart (s : State) (timeoutId timeoutMs : Nat) : State :=
  if timeoutId ≥ s.numberOfRegisteredTimeouts then s
  else if timeoutMs = 0 then s.assign timeoutId fun t => { t with active := false }
  else if s.timerRunning = true then
    callAdaptRemainingMs { s with timerStarted := false }
      (.timeoutStart timeoutId timeoutMs :: s.stack)
  else { s with stack := .timeoutStart timeoutId timeoutMs :: s.stack }

def timeoutStop (s : State) (timeoutId : Nat) : State :=
  if timeoutId ≥ s.numberOfRegisteredTimeouts then s
  else
    let s := s.assign timeoutId fun t => { t with active := false }
    if ∃ i < s.numberOfRegisteredTimeouts, (s.registeredTimeouts i).active = true then s
    else { s with timerRunning := false, timerStarted := false }

def timeoutReset (s : State) (timeoutId : Nat) : State :=
  if (s.registeredTimeouts timeoutId).active = true then
    timeoutStart s timeoutId (s.registeredTimeouts timeoutId).timeoutMs
  else s

/-- The innermost function goes on: a turn of the loop, the return of a handler, or the
rest of a function behind the loop. -/
def goOn (timerOk : Bool) (s : State) : State :=
  match s.stack with
  | [] => s
  | .adaptRemainingMs deltaMs i false :: behind => adaptTurn s deltaMs i behind
  | .adaptRemainingMs deltaMs i true :: behind =>
    { s.assign i (fun t => { t with active := false }) with
      stack := .adaptRemainingMs deltaMs (i + 1) false :: behind }
  | .timeoutTimerCallback :: behind => startTimer timerOk { s with stack := behind }
  | .timeoutStart timeoutId timeoutMs :: behind =>
    startTimer timerOk
      { s.assign timeoutId
          (fun t => { t with timeoutMs := timeoutMs, remainingMs := timeoutMs, active := true }) with
        timerRunning := false, stack := behind }

/-- What can happen: time passes, the app-timer expires, the application or a handler
calls the library, the innermost function goes on. -/
inductive Action
  | tick (ms : Nat)
  | timerExpires
  | start (timeoutId timeoutMs : Nat)
  | stop (timeoutId : Nat)
  | reset (timeoutId : Nat)
  | goOn (timerOk : Bool)
  deriving DecidableEq, Repr

/-- Calls come from outside, or from the handler that is running. -/
def State.callable (s : State) : Bool :=
  match s.stack with
  | [] => true
  | .adaptRemainingMs _ _ inHandler :: _ => inHandler
  | _ => false

def step (s : State) : Action → State
  | .tick ms => { s with millis := s.millis + ms }
  | .timerExpires =>
    if s.timerStarted = true ∧ s.stack = [] then
      callAdaptRemainingMs { s with timerStarted := false, timerRunning := false }
        [.timeoutTimerCallback]
    else s
  | .start timeoutId timeoutMs => if s.callable then timeoutStart s timeoutId timeoutMs else s
  | .stop timeoutId => if s.callable then timeoutStop s timeoutId else s
  | .reset timeoutId => if s.callable then timeoutReset s timeoutId else s
  | .goOn timerOk => goOn timerOk s

/-! ## What the timeouts wait for -/

/-- A start of a timeout: when, and with which value. -/
structure Start where
  since : Nat
  ms : Nat
  deriving DecidableEq, Repr

/-- The library, and for each timeout the start that is neither stopped nor expired. -/
structure Observed where
  state : State
  waiting : Nat → Option Start

/-- What a call of `timeout_start` ends at once: with the value 0 it is a stop. -/
def stopped (s : State) (timeoutId timeoutMs : Nat) (waiting : Nat → Option Start) :
    Nat → Option Start :=
  if timeoutId < s.numberOfRegisteredTimeouts ∧ timeoutMs = 0 then
    Function.update waiting timeoutId none
  else waiting

def observe (s : State) (waiting : Nat → Option Start) : Action → Nat → Option Start
  | .start timeoutId timeoutMs => if s.callable then stopped s timeoutId timeoutMs waiting else waiting
  | .stop timeoutId => if s.callable then stopped s timeoutId 0 waiting else waiting
  | .reset timeoutId =>
    if s.callable ∧ (s.registeredTimeouts timeoutId).active then
      stopped s timeoutId (s.registeredTimeouts timeoutId).timeoutMs waiting
    else waiting
  | .goOn _ =>
    match s.stack with
    | .timeoutStart timeoutId timeoutMs :: _ =>
      Function.update waiting timeoutId (some { since := s.millis, ms := timeoutMs })
    | _ =>
      match s.expires with
      | some i => Function.update waiting i none
      | none => waiting
  | _ => waiting

def Observed.step (o : Observed) (a : Action) : Observed :=
  { state := Timeout.step o.state a, waiting := observe o.state o.waiting a }

theorem observe_expires {s : State} {w : Nat → Option Start} {i : Nat} (hi : s.expires = some i)
    (timerOk : Bool) : observe s w (.goOn timerOk) = Function.update w i none := by
  have hnot : ∀ id ms behind, s.stack ≠ .timeoutStart id ms :: behind := by
    intro id ms behind hstack
    simp [State.expires, hstack] at hi
  cases hstack : s.stack with
  | nil => simp [State.expires, hstack] at hi
  | cons frame behind =>
    cases frame with
    | timeoutStart id ms => exact absurd hstack (hnot id ms behind)
    | adaptRemainingMs _ _ _ => simp only [observe, hstack, hi]
    | timeoutTimerCallback => simp only [observe, hstack, hi]

/-- Timeouts are registered, none is started. -/
structure Fresh (o : Observed) : Prop where
  inactive : ∀ i, (o.state.registeredTimeouts i).active = false
  not_running : o.state.timerRunning = false
  not_started : o.state.timerStarted = false
  startMs_le : o.state.timerStartMs ≤ o.state.millis
  idle : o.state.stack = []
  nothing_waits : ∀ i, o.waiting i = none

/-- After power-up, `timeout_init` and the calls of `timeout_register`. -/
def registered (handlers : List Bool) : State :=
  handlers.foldl (fun s hasHandler => (timeoutRegister s hasHandler).2) <|
    timeoutInit
      { registeredTimeouts := fun _ => { hasHandler := false }, numberOfRegisteredTimeouts := 0,
        timerRunning := false, timerStartMs := 0, timerStarted := false, millis := 0, stack := [] }

def powerUp (handlers : List Bool) : Observed :=
  { state := registered handlers, waiting := fun _ => none }

theorem timeoutRegister_fresh {s : State} {waiting : Nat → Option Start}
    (h : Fresh ⟨s, waiting⟩) (hasHandler : Bool) :
    Fresh ⟨(timeoutRegister s hasHandler).2, waiting⟩ := by
  unfold timeoutRegister
  split
  · exact h
  · refine ⟨fun i => ?_, h.not_running, h.not_started, h.startMs_le, h.idle, h.nothing_waits⟩
    by_cases hi : i = s.numberOfRegisteredTimeouts
    · simp [hi]
    · simpa [hi] using h.inactive i

theorem powerUp_fresh (handlers : List Bool) : Fresh (powerUp handlers) := by
  have h : ∀ s, Fresh ⟨s, fun _ => none⟩ →
      Fresh ⟨handlers.foldl (fun s hasHandler => (timeoutRegister s hasHandler).2) s,
        fun _ => none⟩ := by
    induction handlers with
    | nil => exact fun s hs => hs
    | cons hasHandler handlers ih => exact fun s hs => ih _ (timeoutRegister_fresh hs hasHandler)
  exact h _ ⟨fun _ => rfl, rfl, rfl, Nat.le_refl _, rfl, fun _ => rfl⟩

end OpenBadge.Timeout
