import OpenBadge.Lib.Run
import OpenBadge.Sender.AppFifo

/-!
# sender_lib.c: the transmit path

`sender_transmit` queues bytes from the main program, one step at a time;
`transmit_queued_bytes` takes them out of the FIFO in the callback of a timer, which may
come between any two of these steps. The bytes go out in the order of the calls, and
bytes in the FIFO keep the timer running once the call that queued them has returned.
-/

namespace OpenBadge.Sender

open OpenBadge.Lib

def maxBytesPerTransmit : Nat := 20

/-- The state of `sender_lib.c` for one connection, without its receive side. -/
structure State (σ : Type) where
  txFifo : σ
  connected : Bool
  transmitting : Bool
  timerRunning : Bool

variable {σ : Type}

def senderReset (F : AppFifo σ) (s : State σ) : State σ :=
  { s with connected := false, transmitting := false, txFifo := F.flush s.txFifo }

def onConnectCallback (F : AppFifo σ) (s : State σ) : State σ :=
  { senderReset F s with connected := true }

/-- The bytes copied to `transmit_buf`. -/
def transmitBuf (F : AppFifo σ) (f : σ) (remainingSize : Nat) : List UInt8 :=
  (List.range (min remainingSize maxBytesPerTransmit)).map (F.peek f)

/-- `transmit_queued_bytes`, with what `ble_transmit` returns if it is called. The value
is the payload that `ble_transmit` has accepted. -/
def transmitQueuedBytes (F : AppFifo σ) (ble : Except RetCode Unit) :
    Proc (State σ) RetCode (List UInt8) := fun s =>
  if s.transmitting = false then (.error .invalidState, { s with timerRunning := false })
  else
    let remainingSize := F.readSize s.txFifo
    if remainingSize = 0 then
      (.ok [], { s with transmitting := false, timerRunning := false })
    else
      let buf := transmitBuf F s.txFifo remainingSize
      match ble with
      | .ok _ => (.ok buf, { s with txFifo := F.advance s.txFifo buf.length })
      | .error e => (.error e, s)

/-- Where `sender_transmit` stands in the main program. -/
inductive Call where
  | idle
  | checkingSpace (data : List UInt8)
  | writing (data : List UInt8)
  | testingFlag (data : List UInt8)
  | settingFlag (data : List UInt8)
  | startingTimer (data : List UInt8)
  deriving DecidableEq, Repr

/-- The sender with what has been seen of it: the payloads accepted by `ble_transmit`,
the data of the calls that have reached the write, and the calls that have returned. -/
structure Observed (σ : Type) where
  state : State σ
  call : Call
  transmitted : List UInt8
  written : List (List UInt8)
  returned : List (List UInt8 × Except RetCode Unit)

namespace Observed

def init (s : State σ) : Observed σ := ⟨s, .idle, [], [], []⟩

/-- The call in progress returns. -/
def finish (o : Observed σ) (data : List UInt8) (result : Except RetCode Unit) : Observed σ :=
  { o with call := .idle, returned := o.returned ++ [(data, result)] }

/-- The next step of `sender_transmit`. Behind the check `inTime` says whether its loop
goes on, that is whether `timeout_ms` have not passed. -/
def proceed (F : AppFifo σ) (o : Observed σ) (inTime : Bool) : Observed σ :=
  match o.call with
  | .idle => o
  | .checkingSpace data =>
    let availableSize := F.writeSize o.state.txFifo
    if availableSize < data.length then
      if inTime then o else o.finish data (.error .noMem)
    else { o with call := .writing data }
  | .writing data =>
    let o := { o with written := o.written ++ [data] }
    match F.write data o.state.txFifo with
    | (.ok _, f) => { o with state := { o.state with txFifo := f }, call := .testingFlag data }
    | (.error e, f) => { o with state := { o.state with txFifo := f } }.finish data (.error e)
  | .testingFlag data =>
    if o.state.transmitting then o.finish data (.ok ())
    else { o with call := .settingFlag data }
  | .settingFlag data =>
    { o with state := { o.state with transmitting := true }, call := .startingTimer data }
  | .startingTimer data =>
    { o with state := { o.state with timerRunning := true } }.finish data (.ok ())

end Observed

/-- `call` begins a `sender_transmit`, `proceed` takes its next step, and `timer` is the
callback of the timer. -/
inductive Action where
  | call (data : List UInt8)
  | proceed (inTime : Bool)
  | timer (ble : Except RetCode Unit)

def Observed.step (F : AppFifo σ) (o : Observed σ) : Action → Observed σ
  | .call data =>
    if o.call = .idle then
      if o.state.connected then { o with call := .checkingSpace data }
      else o.finish data (.error .invalidState)
    else o
  | .proceed inTime => o.proceed F inTime
  | .timer ble =>
    match transmitQueuedBytes F ble o.state with
    | (.ok payload, s) => { o with state := s, transmitted := o.transmitted ++ payload }
    | (.error _, s) => { o with state := s }

/-- The call has written its data and has not returned. -/
def Call.pending : Call → List (List UInt8)
  | .testingFlag data | .settingFlag data | .startingTimer data => [data]
  | _ => []

/-- The call has written its data and has not tested the flag. -/
def Call.BehindWrite : Call → Prop
  | .testingFlag _ => True
  | _ => False

/-- The call has written its data, and the flag is still to be tested or set. -/
def Call.FlagAhead : Call → Prop
  | .testingFlag _ | .settingFlag _ => True
  | _ => False

/-- The data of the calls that returned without an error. -/
def Observed.accepted (o : Observed σ) : List (List UInt8) :=
  (o.returned.filter fun call => call.2.toBool).map Prod.fst

/-- What holds between the steps of one connection. -/
structure Lossless (F : AppFifo σ) (o : Observed σ) : Prop where
  valid : F.Valid o.state.txFifo
  contents : o.transmitted ++ F.contents o.state.txFifo = o.written.flatten
  written : o.written.flatten = (o.accepted ++ o.call.pending).flatten
  room : ∀ data, o.call = .writing data →
    data.length + (F.contents o.state.txFifo).length ≤ F.size
  timer : o.state.transmitting = true →
    o.state.timerRunning = true ∨ ∃ data, o.call = .startingTimer data
  flag : F.contents o.state.txFifo ≠ [] → o.state.transmitting = true ∨
    (∃ data, o.call = .testingFlag data) ∨ ∃ data, o.call = .settingFlag data

variable {F : AppFifo σ} {o : Observed σ}

theorem accepted_finish (data : List UInt8) (result : Except RetCode Unit) :
    (o.finish data result).accepted = o.accepted ++ if result.toBool then [data] else [] := by
  cases h : result.toBool <;> simp [Observed.accepted, Observed.finish, h]

/-- A call that has written nothing returns with an error. -/
theorem Lossless.finish_error (h : Lossless F o) (hpending : o.call.pending = [])
    (data : List UInt8) (e : RetCode) : Lossless F (o.finish data (.error e)) where
  valid := h.valid
  contents := h.contents
  written := by
    rw [accepted_finish]
    have hw := h.written
    rw [hpending] at hw
    exact hw.trans (by simp [Except.toBool, Observed.finish, Call.pending])
  room _ hcall := nomatch hcall
  timer ht := by
    rcases h.timer ht with hrun | ⟨data, hcall⟩
    · exact Or.inl hrun
    · rw [hcall] at hpending
      exact nomatch hpending
  flag hf := by
    rcases h.flag hf with ht | ⟨data, hcall⟩ | ⟨data, hcall⟩
    · exact Or.inl ht
    · rw [hcall] at hpending
      exact nomatch hpending
    · rw [hcall] at hpending
      exact nomatch hpending

/-- A call that has written its data returns, with the flag and the timer set. -/
theorem Lossless.finish_ok (h : Lossless F o) {data : List UInt8}
    (hpending : o.call.pending = [data])
    (hflag : F.contents o.state.txFifo ≠ [] → o.state.transmitting = true)
    (hrun : o.state.transmitting = true → o.state.timerRunning = true) : Lossless F (o.finish data (.ok ())) where
  valid := h.valid
  contents := h.contents
  written := by
    rw [accepted_finish]
    have hw := h.written
    rw [hpending] at hw
    exact hw.trans (by simp [Except.toBool, Observed.finish, Call.pending])
  room _ hcall := nomatch hcall
  timer ht := Or.inl (hrun ht)
  flag hf := Or.inl (hflag hf)

/-- The call takes a step that leaves the sender and the record of its data alone. -/
theorem Lossless.move (h : Lossless F o) (call : Call) (hpending : call.pending = o.call.pending)
    (hroom : ∀ data, call = .writing data →
      data.length + (F.contents o.state.txFifo).length ≤ F.size)
    (htimer : ∀ data, o.call ≠ .startingTimer data)
    (hflag : F.contents o.state.txFifo ≠ [] → o.state.transmitting = true ∨
      (∃ data, call = .testingFlag data) ∨ ∃ data, call = .settingFlag data) :
    Lossless F { o with call := call } where
  valid := h.valid
  contents := h.contents
  written := by
    have hw := h.written
    rw [← hpending] at hw
    exact hw
  room := hroom
  timer ht := by
    rcases h.timer ht with hrun | ⟨data, hcall⟩
    · exact Or.inl hrun
    · exact absurd hcall (htimer data)
  flag := hflag

/-- Bytes in the FIFO of a call that has not written: they are being transmitted. -/
theorem Lossless.transmitting (h : Lossless F o) (hpending : o.call.pending = [])
    (hf : F.contents o.state.txFifo ≠ []) : o.state.transmitting = true := by
  rcases h.flag hf with ht | ⟨data, hcall⟩ | ⟨data, hcall⟩
  · exact ht
  · rw [hcall] at hpending
    exact nomatch hpending
  · rw [hcall] at hpending
    exact nomatch hpending

/-- The write takes the data as a whole, or fails with nothing to write. -/
theorem Lossless.write (h : Lossless F o) {data : List UInt8} (hcall : o.call = .writing data) :
    (data = [] ∧ F.write data o.state.txFifo = (.error .noMem, o.state.txFifo)) ∨
    ∃ g, F.write data o.state.txFifo = (.ok (), g) ∧ F.Valid g ∧
      F.contents g = F.contents o.state.txFifo ++ data := by
  have hroom := h.room data hcall
  by_cases hfull : (F.contents o.state.txFifo).length = F.size
  · have hnil : data = [] := List.eq_nil_of_length_eq_zero (by omega)
    exact Or.inl ⟨hnil, F.write_full _ _ h.valid hfull⟩
  · obtain ⟨g, hw, hvalid, hcontents⟩ := F.write_room o.state.txFifo data h.valid (by omega)
    rw [List.take_of_length_le (by omega)] at hcontents
    exact Or.inr ⟨g, hw, hvalid, hcontents⟩

theorem Lossless.proceed (h : Lossless F o) (inTime : Bool) : Lossless F (o.proceed F inTime) := by
  unfold Observed.proceed
  split
  · exact h
  · rename_i data hcall
    have hpending : o.call.pending = [] := by rw [hcall]; rfl
    dsimp only
    split
    · split
      · exact h
      · exact h.finish_error hpending data .noMem
    · rename_i hle
      have hle' := F.contents_length_le _ h.valid
      rw [F.writeSize_eq _ h.valid] at hle
      have hmove := h.move (.writing data) (by rw [hpending]; rfl)
      refine hmove (fun data' heq => ?_) (by simp [hcall]) fun hf => ?_
      · cases heq
        omega
      · exact Or.inl (h.transmitting hpending hf)
  · rename_i data hcall
    have hpending : o.call.pending = [] := by rw [hcall]; rfl
    have hwritten := h.written
    rw [hpending, List.append_nil] at hwritten
    rcases h.write hcall with ⟨rfl, hw⟩ | ⟨g, hw, hvalid, hcontents⟩
    · have hskip : Lossless F { o with written := o.written ++ [[]] } :=
        ⟨h.valid, by simpa using h.contents, by simpa [Observed.accepted] using h.written,
          h.room, h.timer, h.flag⟩
      simp only [hw]
      exact hskip.finish_error hpending [] .noMem
    · simp only [hw]
      exact {
        valid := hvalid
        contents := by
          dsimp only
          rw [hcontents, ← List.append_assoc, h.contents, List.flatten_append]
          simp
        written := by
          dsimp only [Call.pending]
          rw [List.flatten_append, List.flatten_append, hwritten]
          rfl
        room := fun _ heq => nomatch heq
        timer := fun ht => by
          rcases h.timer ht with hrun | ⟨data', heq⟩
          · exact Or.inl hrun
          · rw [hcall] at heq
            exact nomatch heq
        flag := fun _ => Or.inr (Or.inl ⟨data, rfl⟩) }
  · rename_i data hcall
    split
    · rename_i ht
      refine h.finish_ok (by rw [hcall]; rfl) (fun _ => ht) fun _ => ?_
      rcases h.timer ht with hrun | ⟨data', heq⟩
      · exact hrun
      · rw [hcall] at heq
        exact nomatch heq
    · exact h.move (.settingFlag data) (by rw [hcall]; rfl) (fun _ heq => nomatch heq) (by simp [hcall])
        fun _ => Or.inr (Or.inr ⟨data, rfl⟩)
  · rename_i data hcall
    exact {
      valid := h.valid
      contents := h.contents
      written := by
        have hw := h.written
        rw [hcall] at hw
        exact hw
      room := fun _ heq => nomatch heq
      timer := fun _ => Or.inr ⟨data, rfl⟩
      flag := fun _ => Or.inl rfl }
  · rename_i data hcall
    have hstarted : Lossless F { o with state := { o.state with timerRunning := true } } :=
      ⟨h.valid, h.contents, h.written, h.room, fun _ => Or.inl rfl, h.flag⟩
    refine hstarted.finish_ok (by dsimp only; rw [hcall]; rfl) (fun hf => ?_) fun _ => rfl
    rcases h.flag hf with ht | ⟨data', heq⟩ | ⟨data', heq⟩
    · exact ht
    · rw [hcall] at heq
      exact nomatch heq
    · rw [hcall] at heq
      exact nomatch heq

/-- The bytes peeked at are the oldest ones. -/
theorem transmitBuf_eq {f : σ} (hf : F.Valid f) :
    transmitBuf F f (F.readSize f) = (F.contents f).take maxBytesPerTransmit := by
  rw [F.readSize_eq f hf, transmitBuf]
  apply List.ext_getElem
  · simp [Nat.min_comm]
  · intro i hi _
    simp only [List.length_map, List.length_range, Nat.lt_min] at hi
    rw [List.getElem_map, List.getElem_range, List.getElem_take, F.peek_eq f i hf hi.1]

/-- The callback takes a prefix of the FIFO if `ble_transmit` accepts it, and nothing
otherwise. -/
theorem Lossless.timerCallback (h : Lossless F o) (ble : Except RetCode Unit) :
    Lossless F (o.step F (.timer ble)) := by
  unfold Observed.step transmitQueuedBytes
  dsimp only
  by_cases ht : o.state.transmitting = false
  · rw [if_pos ht]
    exact ⟨h.valid, h.contents, h.written, h.room, fun hset => by simp [ht] at hset, h.flag⟩
  · rw [if_neg ht]
    by_cases hempty : F.readSize o.state.txFifo = 0
    · rw [if_pos hempty]
      rw [F.readSize_eq _ h.valid, List.length_eq_zero_iff] at hempty
      exact ⟨h.valid, by simpa using h.contents, h.written, h.room, nofun,
        fun hf => absurd hempty hf⟩
    · rw [if_neg hempty, transmitBuf_eq h.valid]
      cases ble with
      | error e => exact h
      | ok _ =>
        have hn : ((F.contents o.state.txFifo).take maxBytesPerTransmit).length ≤
            (F.contents o.state.txFifo).length := by simp
        have hadvance := F.contents_advance _ _ h.valid hn
        have htake : (F.contents o.state.txFifo).take maxBytesPerTransmit ++
            (F.contents o.state.txFifo).drop
              ((F.contents o.state.txFifo).take maxBytesPerTransmit).length =
            F.contents o.state.txFifo :=
          List.prefix_iff_eq_append.mp (List.take_prefix _ _)
        exact {
          valid := F.valid_advance _ _ h.valid hn
          contents := by
            dsimp only
            rw [hadvance, List.append_assoc, htake, h.contents]
          written := h.written
          room := fun data hcall => by
            have hroom := h.room data hcall
            dsimp only
            rw [hadvance, List.length_drop]
            omega
          timer := h.timer
          flag := fun _ => Or.inl (by simpa using ht) }

theorem Lossless.step (h : Lossless F o) (a : Action) : Lossless F (o.step F a) := by
  cases a with
  | call data =>
    unfold Observed.step
    dsimp only
    split
    · rename_i hidle
      have hpending : o.call.pending = [] := by rw [hidle]; rfl
      split
      · exact h.move (.checkingSpace data) (by rw [hidle]; rfl) (fun _ heq => nomatch heq)
          (by simp [hidle]) fun hf => Or.inl (h.transmitting hpending hf)
      · exact h.finish_error hpending data .invalidState
    · exact h
  | proceed inTime => exact h.proceed inTime
  | timer ble => exact h.timerCallback ble

theorem lossless_onConnectCallback (F : AppFifo σ) (s : State σ) :
    Lossless F (Observed.init (onConnectCallback F s)) where
  valid := F.valid_flush _
  contents := F.contents_flush _
  written := rfl
  room _ hcall := nomatch hcall
  timer ht := nomatch ht
  flag hf := absurd (F.contents_flush _) hf

theorem lossless_run (F : AppFifo σ) (s : State σ) (as : List Action) :
    Lossless F (run (Observed.step F) (Observed.init (onConnectCallback F s)) as) :=
  run_invariant (C := fun _ _ => True) (fun _ a h _ => h.step a)
    (lossless_onConnectCallback F s) (Along.of_forall (fun _ _ => trivial) as)

/-- From the connection on, whatever the order of calls, steps and callbacks: the payloads
accepted by `ble_transmit` with the bytes still in the FIFO are the data of the calls that
reached the write, which are the data of the calls that returned without an error and of
the one that is about to return. Bytes in the FIFO are marked as being transmitted, unless
a call has still to test or set the flag, and the timer is running, unless it has still to
return. -/
theorem transmit_path_is_lossless (F : AppFifo σ) (s : State σ) (as : List Action) :
    let o := run (Observed.step F) (Observed.init (onConnectCallback F s)) as
    o.transmitted <+: o.written.flatten ∧
      o.transmitted ++ F.contents o.state.txFifo = o.written.flatten ∧
      o.written.flatten = (o.accepted ++ o.call.pending).flatten ∧
      (F.contents o.state.txFifo ≠ [] → ¬ o.call.FlagAhead → o.state.transmitting = true) ∧
      (F.contents o.state.txFifo ≠ [] → o.call.pending = [] →
        o.state.transmitting = true ∧ o.state.timerRunning = true) := by
  intro o
  have h : Lossless F o := lossless_run F s as
  refine ⟨⟨_, h.contents⟩, h.contents, h.written, fun hf hahead => ?_, fun hf hpending => ?_⟩
  · rcases h.flag hf with ht | ⟨data, hcall⟩ | ⟨data, hcall⟩
    · exact ht
    · exact absurd (by rw [hcall]; trivial) hahead
    · exact absurd (by rw [hcall]; trivial) hahead
  · have ht := h.transmitting hpending hf
    refine ⟨ht, ?_⟩
    rcases h.timer ht with hrun | ⟨data, hcall⟩
    · exact hrun
    · rw [hcall] at hpending
      exact nomatch hpending

/-- A byte is queued and the flag is set, and the timer is started by the next step. -/
theorem timer_starts_behind_the_flag :
    let s : State Ring := ⟨⟨fun _ => 0, 0, 0⟩, false, false, false⟩
    let as := [.call [1], .proceed true, .proceed true, .proceed true, .proceed true]
    let o := run (Observed.step txFifoOf512)
      (Observed.init (onConnectCallback txFifoOf512 s)) as
    txFifoOf512.contents o.state.txFifo = [1] ∧ ¬ o.call.BehindWrite ∧
      o.state.transmitting = true ∧ o.state.timerRunning = false := by
  refine ⟨by decide +kernel, fun h => ?_, by decide +kernel, by decide +kernel⟩
  exact h

end OpenBadge.Sender
