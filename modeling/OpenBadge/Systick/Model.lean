import OpenBadge.Lib.Run
import Mathlib.Data.Nat.Bitwise

/-!
# systick_lib.c

A count of 64 bits is kept over a hardware counter of 24 bits: a callback adds the ticks
since the former one, a read adds them for itself only. The slope of the straight line
that turns ticks into milliseconds is a `float` and is left out with what only it needs.
-/

namespace OpenBadge.Systick

open OpenBadge.Lib

/-- `app_timer_cnt_diff_compute` of the SDK: the difference modulo 2^24. -/
def appTimerCntDiffCompute (ticksTo ticksFrom : UInt32) : UInt32 :=
  (ticksTo - ticksFrom) &&& 0x00FFFFFF

/-- The arguments of `systick_set_millis` and the ticks it has read. -/
structure SetCall where
  ticksSinceStartAtSync : UInt64
  millisSync : UInt64
  curTicksSinceStart : UInt64
  deriving DecidableEq, Repr

/-- The static variables. `now` is the true number of ticks since the initialisation,
`start` the counter at that time, and `lastCallback` the value of `now` at the last
callback. `setting` is a running call of `systick_set_millis`, and `getting` holds the
ticks that the running calls of `systick_get_millis` have read, the innermost first. -/
structure State where
  start : Nat
  now : Nat
  lastCallback : Nat
  ticksSinceStart : UInt64
  formerTicks : UInt32
  millisSynced : Bool
  millisOffset : UInt64
  ticksAtOffset : UInt64
  setting : Option SetCall
  getting : List UInt64

/-- The counter of 24 bits. -/
def appTimerCntGet (s : State) : UInt32 := UInt32.ofNat ((s.start + s.now) % 2 ^ 24)

def getTicksSinceStart (s : State) : UInt64 :=
  s.ticksSinceStart + (appTimerCntDiffCompute (appTimerCntGet s) s.formerTicks).toUInt64

def callback (s : State) : State :=
  { s with
    lastCallback := s.now
    ticksSinceStart :=
      s.ticksSinceStart + (appTimerCntDiffCompute (appTimerCntGet s) s.formerTicks).toUInt64
    formerTicks := appTimerCntGet s }

/-- `systick_init`, when the counter is at `start`; `delay` ticks pass before the offset
is read. -/
def init (start delay : Nat) : State :=
  let s : State :=
    { start
      now := delay
      lastCallback := 0
      ticksSinceStart := 0
      formerTicks := UInt32.ofNat (start % 2 ^ 24)
      millisSynced := false
      millisOffset := 0
      ticksAtOffset := 0
      setting := none
      getting := [] }
  { s with ticksAtOffset := getTicksSinceStart s }

/-- The two safety queries on the time of the synchronisation. -/
def clampSync (s : State) (c : SetCall) : UInt64 :=
  let sync :=
    if c.ticksSinceStartAtSync > c.curTicksSinceStart then c.curTicksSinceStart
    else c.ticksSinceStartAtSync
  if sync < s.ticksAtOffset then s.ticksAtOffset else sync

/-- The rest of `systick_set_millis`, which subtracts `ticks_at_offset` from the clamped
time before it replaces it. -/
def finishSetMillis (s : State) (c : SetCall) : State :=
  { s with
    millisSynced := true
    millisOffset := c.millisSync
    ticksAtOffset := clampSync s c
    setting := none }

/-- Ticks pass; the callback runs as an interrupt; and calls begin and go on. A call may
be interrupted after it has read the ticks. `systick_set_millis` is called by the request
handlers and interrupts nothing. -/
inductive Action where
  | tick (ticks : Nat)
  | callback
  | getTicksSinceStart
  | setMillis (ticksSinceStartAtSync millisSync : UInt64)
  | getMillis
  | proceed

/-- The innermost call goes on to its end. -/
def proceed (s : State) : State :=
  match s.getting, s.setting with
  | _ :: getting, _ => { s with getting }
  | [], some c => finishSetMillis s c
  | [], none => s

def step (s : State) : Action → State
  | .tick ticks => { s with now := s.now + ticks }
  | .callback => callback s
  | .getTicksSinceStart => s
  | .setMillis sync millis =>
    if s.setting = none ∧ s.getting = [] then
      { s with setting := some ⟨sync, millis, getTicksSinceStart s⟩ }
    else s
  | .getMillis => { s with getting := getTicksSinceStart s :: s.getting }
  | .proceed => proceed s

/-- What the calls of `systick_get_ticks_since_start` return in a run. -/
def readings (s : State) : List Action → List UInt64
  | [] => []
  | .getTicksSinceStart :: as => getTicksSinceStart s :: readings s as
  | a :: as => readings (step s a) as

end OpenBadge.Systick
