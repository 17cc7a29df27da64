import OpenBadge.RequestHandler.Effects

/-!
# The response flag is released

While `processing_response` is set, a `send_response` event is queued that will
clear it, as long as the storer gives every data response handler a chunk or the
end of the data.
-/

namespace OpenBadge.RequestHandler

open OpenBadge.Lib

variable {S : Type} (L : Libraries S) (a : Answers)

/-- A `send_response` event is pending. -/
def State.Sending (s : State S) : Prop := ∃ e ∈ s.queue, e.handler = .sendResponse

/-- If the response flag is set, a `send_response` event is pending. -/
def Releasing (s : State S) : Prop := s.processingResponse = true → s.Sending

theorem State.Sending.append {s : State S} {es : List Event} (h : s.Sending) (t : State S)
    (ht : t.queue = s.queue ++ es) : t.Sending := by
  obtain ⟨e, he, hs⟩ := h
  exact ⟨e, ht ▸ List.mem_append_left _ he, hs⟩

theorem Releasing.of_false {s : State S} (h : s.processingResponse = false) : Releasing s := by
  intro hs
  rw [h] at hs
  cases hs

theorem Releasing.append {s t : State S} {es : List Event} (h : Releasing s)
    (hq : t.queue = s.queue ++ es) (hp : t.processingResponse = s.processingResponse) :
    Releasing t := by
  intro ht
  exact (h (hp ▸ ht)).append t hq

/-- Whatever the flag was before, `send_response` leaves it clear or another one pending. -/
theorem Sends.releasing {s t : State S} (h : Sends L a s t) : Releasing t := by
  cases h with
  | dropped => exact .of_false rfl
  | sent => exact .of_false rfl
  | retried =>
    intro _
    exact ⟨⟨.sendResponse, s.responseEvent.origin⟩, by simp, rfl⟩

/-- The end of the stream handler keeps the response flag and only adds to the queue. -/
theorem StreamEnds.releasing {o : Nat} {b : Bool} {s t : State S} (h : StreamEnds a s o b t)
    (hs : Releasing s) : Releasing t := by
  cases h with
  | pumped => exact hs.append rfl rfl
  | idle => exact hs
  | stopped => exact hs

/-- The storer gives chunk after chunk and then the end of the data: `storer_get_next_*_chunk`
returns `NRF_SUCCESS`, `NRF_ERROR_NOT_FOUND` or `NRF_ERROR_INVALID_STATE`. -/
def Libraries.Yields (k : Sensor) (t : S) : Prop :=
  ∀ e, (L.getNextChunk k t).1 = .error e → e = .notFound ∨ e = .invalidState

theorem Responds.releasing {o : Nat} {s t : State S} {r : ResponseType}
    (h : Responds L a o s r t) (hs : Releasing s)
    (hy : ∀ k, r = .data k → s.processingResponse = false → L.Yields k s.storer) :
    Releasing t := by
  cases h with
  | busy => exact hs.append rfl rfl
  | answered _ _ sends => exact sends.releasing
  | chunk _ _ sends => exact sends.releasing
  | last _ _ _ sends => exact sends.releasing
  | @kept k e u free next fails => exact absurd (hy k rfl free e (by rw [next])) fails
  | tested _ sends => exact sends.releasing
  | quiet _ _ ends => exact ends.releasing a (.of_false rfl)
  | streamed _ _ sends ends => exact ends.releasing a sends.releasing

theorem Handles.releasing {o : Nat} {s t : State S} {r : RequestType} (h : Handles L a o s r t)
    (hs : Releasing s) : Releasing t := by
  cases h with
  | dropped => exact .of_false rfl
  | _ => exact hs.append rfl rfl

theorem Continues.releasing {s t : State S} (h : Continues L a s t) (hs : Releasing s) :
    Releasing t := by
  cases h with
  | handles _ run => exact run.releasing L a hs
  | rejects => exact .of_false rfl
  | loses => exact .of_false rfl
  | lacks => exact .of_false rfl
  | _ => exact hs

/-- Taking an event off the queue keeps the property unless it is the `send_response` itself. -/
theorem Releasing.pop {s : State S} {e : Event} {es : List Event} (h : Releasing s)
    (hq : s.queue = e :: es) (he : e.handler ≠ .sendResponse) :
    Releasing { s with queue := es } := by
  intro hp
  obtain ⟨e', hmem, hs⟩ := h hp
  rw [hq, List.mem_cons] at hmem
  rcases hmem with rfl | hmem
  · exact absurd hs he
  · exact ⟨e', hmem, hs⟩

theorem Runs.releasing {e : Event} {es : List Event} {s t : State S}
    (h : Runs L a e { s with queue := es } t) (hq : s.queue = e :: es) (hs : Releasing s)
    (hy : ∀ k, e.handler = .response (.data k) → s.processingResponse = false →
      L.Yields k s.storer) : Releasing t := by
  cases h with
  | waits process => exact (hs.pop hq (by rw [process]; decide)).append rfl rfl
  | rests process => exact hs.pop hq (by rw [process]; decide)
  | begins process => exact hs.pop hq (by rw [process]; decide)
  | sends _ run => exact run.releasing
  | handles request run => exact run.releasing L a (hs.pop hq (by simp [request]))
  | responds response run =>
    refine run.releasing L a (hs.pop hq (by simp [response])) ?_
    rintro k rfl free
    exact hy k response free

/-- No data response handler that holds the response flag gets a storage error. -/
def NoStorageError (s : State S) : Action S → Prop
  | .dispatch _ => ∀ e k, s.stage = .idle → s.queue.head? = some e →
      e.handler = .response (.data k) → s.processingResponse = false → L.Yields k s.storer
  | _ => True

theorem onReceiveCallback_releasing (data : List UInt8) (ticks : Nat) (timestamp : Timestamp)
    {s : State S} (hs : Releasing s) : Releasing (s.onReceiveCallback data ticks timestamp) := by
  unfold State.onReceiveCallback State.receiveNotificationHandler
  split
  · exact hs.append rfl rfl
  · exact hs

theorem step_releasing (s : State S) (x : Action S) (hs : Releasing s)
    (hx : NoStorageError L s x) : Releasing (step L s x) := by
  refine step_keeps L (C := NoStorageError L) ?_ ?_ ?_ ?_ ?_ ?_ ?_ ?_ s x hs hx
  · intro s data ticks timestamp hs _
    exact onReceiveCallback_releasing data ticks timestamp hs
  · intro s hs _
    exact hs
  · intro s hs _
    exact hs
  · intro s f g hs _
    exact hs
  · intro s c _ _ _
    exact .of_false rfl
  · intro s t hs _
    exact hs
  · intro s a e es t hs hx idle queue run
    refine run.releasing L a queue hs fun k hk free => ?_
    exact hx e k idle (by rw [queue]; rfl) hk free
  · intro s a t hs _ _ run
    exact run.releasing L a hs

/-- In every run in which no data response handler gets a storage error while it holds the
response flag, a set flag is always followed by a pending `send_response`. -/
theorem response_flag_released (t : S) (as : List (Action S))
    (h : Along (step L) (NoStorageError L) (State.init t) as)
    (hp : (run (step L) (State.init t) as).processingResponse = true) :
    ∃ e ∈ (run (step L) (State.init t) as).queue, e.handler = .sendResponse := by
  have hinit : Releasing (State.init t) := .of_false rfl
  exact run_invariant (step_releasing L) hinit h hp

/-- Every call succeeds and nothing is streamed. -/
def Answers.success : Answers where
  isSynced := true
  setBadgeAssignement := .ok ()
  badgeAssignement := default
  samplingStart := .ok ()
  stopAccelerometerMode := .ok ()
  stopInterruptInterrupt := .ok ()
  stopInterruptMode := .ok ()
  voltage := 0
  timestamp := default
  streams := default
  selftest := 0
  transmit := .ok ()

/-- A client whose requests have all parameters zero, so that a message says no more than its
tag. -/
def taggedLibraries (next : Except RetCode Chunk) : Libraries Unit where
  decode bytes := ({ (default : Request) with whichType := (bytes.headD 0).toNat }, true)
  encode _ := some []
  findChunk _ _ := pure ()
  getNextChunk _ := fun t => (next, t)
  invalidateIterators t := t

/-- A request with the given tag and `n` bytes of parameters, all zero. -/
def zeroRequest (tag : UInt8) (n : Nat) : List UInt8 := frame (tag :: List.replicate n 0)

/-- A connection, a microphone data request in a packet, and `n` turns of the main loop. -/
def oneRequest (n : Nat) : List (Action Unit) :=
  .connect :: .packet (zeroRequest 12 6) 7 default :: List.replicate n (.dispatch .success)

theorem response_flag_released_retry :
    ∃ e ∈ (run (step (taggedLibraries (.error .notFound))) (State.init ())
      (oneRequest 8 ++ [.dispatch { Answers.success with transmit := .error .noMem }])).queue,
      e.handler = .sendResponse := by
  refine response_flag_released _ _ _ ?_ (by decide +kernel)
  refine Along.of_forall ?_ _
  intro s x
  cases x with
  | dispatch a =>
    intro e k _ _ _ _ e' he
    cases he
    exact .inl rfl
  | _ => trivial

/-- One storage error is enough: the flag stays set with nothing pending that clears it. -/
theorem response_flag_kept :
    (run (step (taggedLibraries (.error .internal))) (State.init ())
      (oneRequest 9)).processingResponse = true ∧
    ∀ e ∈ (run (step (taggedLibraries (.error .internal))) (State.init ())
      (oneRequest 9)).queue, e.handler ≠ .sendResponse := by
  decide +kernel

end OpenBadge.RequestHandler
