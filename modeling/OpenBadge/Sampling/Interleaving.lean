import OpenBadge.Lib.Run
import OpenBadge.Sampling.Model

/-!
# sampling_lib.c: the motion interrupt between the calls

`sampling_start_accelerometer_interrupt` taken apart into its calls, with the interrupt
of the sensor and the reset timer between any two of them. The main program runs one
function at a time: a start that has begun is ended before the next one, a stop or an
event of the scheduler.
-/

namespace OpenBadge.Sampling

open OpenBadge.Lib

/-- The calls and assignments of the start function. -/
inductive Stage where
  | setFullScale
  | setDatarate
  | setOperatingMode
  | setMotionInterruptParameters
  | setInterruptHandler
  | setInterrupt
  | recordIgnoreDuration
  | setupChunk
  | setBit
  | timeoutStart
  deriving DecidableEq, Repr

def Stage.exec (r : InterruptRequest) : Stage → M Unit
  | .setFullScale => onAccel (Accel.setFullScale .g4)
  | .setDatarate => onAccel (Accel.setDatarate .hz10)
  | .setOperatingMode => onAccel (Accel.setOperatingMode .lowPower)
  | .setMotionInterruptParameters =>
    onAccel (Accel.setMotionInterruptParameters r.thresholdMg r.minimalDurationMs)
  | .setInterruptHandler =>
    onAccel (Accel.setInterruptHandler (some .samplingAccelerometerInterruptCallback))
  | .setInterrupt => onAccel (Accel.setInterrupt .motionInterrupt)
  | .recordIgnoreDuration =>
    Proc.modify fun s => { s with accelerometerInterruptIgnoreDurationMs := r.ignoreDurationMs }
  | .setupChunk => setupAccelerometerInterruptChunk
  | .setBit => Sampling.setBit .accelerometerInterrupt r.streaming true
  | .timeoutStart => Sampling.timeoutStart .accelerometerInterrupt r.streaming r.timeoutMs

/-- The stages of a start that begins in `s`. -/
def stages (r : InterruptRequest) (s : State) : List Stage :=
  (if s.Off .accelerometer then [.setFullScale, .setDatarate, .setOperatingMode] else []) ++
    [.setMotionInterruptParameters, .setInterruptHandler, .setInterrupt, .recordIgnoreDuration] ++
    (if r.streaming then [] else [.setupChunk]) ++ [.setBit, .timeoutStart]

def execStages (r : InterruptRequest) : List Stage → M Unit
  | [] => pure ()
  | stage :: rest => do
    stage.exec r
    execStages r rest

/-- Without an interruption the stages are the function. -/
theorem execStages_stages (r : InterruptRequest) (s : State) :
    execStages r (stages r s) s = startAccelerometerInterrupt r s := by
  obtain ⟨timeoutMs, thresholdMg, minimalDurationMs, ignoreDurationMs, streaming⟩ := r
  rw [startAccelerometerInterrupt, Proc.get_bind_apply, stages]
  by_cases hoff : s.Off .accelerometer
  · rw [if_pos hoff, Proc.when_pos hoff]
    cases streaming with
    | false =>
      simp only [Proc.bind_assoc]
      rw [← Proc.bind_pure (timeoutStart _ _ _)]
      rfl
    | true =>
      simp only [Proc.bind_assoc]
      rw [← Proc.bind_pure (timeoutStart _ _ _)]
      rfl
  · rw [if_neg hoff, Proc.when_neg hoff]
    cases streaming with
    | false =>
      dsimp only
      rw [← Proc.bind_pure (timeoutStart _ _ _)]
      rfl
    | true =>
      dsimp only
      rw [← Proc.bind_pure (timeoutStart _ _ _)]
      rfl

/-- INT1 goes high, if it can, and its handler is called. -/
def onInt1 (s : State) : State :=
  if s.accel.CanFire then
    let t := { s with accel := { s.accel with latched := true } }
    if t.accel.calledHandler = some .samplingAccelerometerInterruptCallback then
      (accelerometerInterruptCallback t).2
    else t
  else s

/-- `sampling_accelerometer_interrupt_reset_callback` of the single-shot timer. -/
def onResetTimer (s : State) : State :=
  if (s.timers .accelerometerInterruptReset).isSome then
    { s with
      timers := Function.update s.timers .accelerometerInterruptReset none
      setupEvents := s.setupEvents + 1 }
  else s

/-- The scheduler takes an event of `sampling_setup_accelerometer_interrupt_chunk`. -/
def runSetupEvent (s : State) : State :=
  if s.setupEvents = 0 then s
  else (setupAccelerometerInterruptChunk { s with setupEvents := s.setupEvents - 1 }).2

/-- The badge with what is left of the start that is executing, and its parameters. -/
structure Interleaved where
  state : State
  request : InterruptRequest
  rest : List Stage

def Interleaved.init (accel : Accel.State) (ranOut : Nat → Source → Bool → Bool) : Interleaved :=
  ⟨Sampling.init accel (fun _ => false) ranOut, ⟨0, 0, 0, 0, false⟩, []⟩

inductive Action where
  | begin (r : InterruptRequest)
  | proceed
  | stop (streaming : Bool)
  | timeout (streaming : Bool)
  | int1
  | resetTimer
  | setupEvent

/-- The next stage; the start returns when it fails. -/
def Interleaved.proceed (w : Interleaved) : Interleaved :=
  match w.rest with
  | [] => w
  | stage :: rest =>
    match stage.exec w.request w.state with
    | (.ok _, t) => { w with state := t, rest }
    | (.error _, t) => { w with state := t, rest := [] }

def Interleaved.step (w : Interleaved) : Action → Interleaved
  | .begin r => if w.rest = [] then ⟨w.state, r, stages r w.state⟩ else w
  | .proceed => w.proceed
  | .stop streaming =>
    if w.rest = [] then { w with state := (stopAccelerometerInterrupt streaming w.state).2 } else w
  | .timeout streaming =>
    if w.rest = [] then
      { w with state := (Sampling.timeout .accelerometerInterrupt streaming w.state).2 }
    else w
  | .int1 => { w with state := onInt1 w.state }
  | .resetTimer => { w with state := onResetTimer w.state }
  | .setupEvent => if w.rest = [] then { w with state := runSetupEvent w.state } else w

end OpenBadge.Sampling
