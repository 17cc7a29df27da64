import OpenBadge.RequestHandler.Model

/-!
# What the handlers do

For `send_response`, the request and the response handlers, the list of
everything they can do. The proofs about the system go through these lists and
do not unfold the handlers.
-/

namespace OpenBadge.RequestHandler

open OpenBadge.Lib

variable {S : Type} (L : Libraries S) (a : Answers)

theorem requestHandler_start (o : Nat) (k : Sensor) :
    requestHandler L a o (.start k) = startRequestHandler a k o := by
  cases k <;> rfl

theorem requestHandler_stop (o : Nat) (k : Sensor) (s : State S) :
    requestHandler L a o (.stop k) s =
      (samplingStop a k false s).finishAndRescheduleReceiveNotification := by
  cases k <;> rfl

theorem requestHandler_data (o : Nat) (k : Sensor) :
    requestHandler L a o (.data k) = dataRequestHandler L k o := by
  cases k <;> rfl

theorem requestHandler_startStream (o : Nat) (k : Sensor) :
    requestHandler L a o (.startStream k) = startStreamRequestHandler a k o := by
  cases k <;> rfl

theorem requestHandler_stopStream (o : Nat) (k : Sensor) (s : State S) :
    requestHandler L a o (.stopStream k) s =
      (samplingStop a k true s).finishAndRescheduleReceiveNotification := by
  cases k <;> rfl

theorem responseHandler_start (o : Nat) (k : Sensor) :
    responseHandler L a o (.start k) = startResponseHandler L a k o := by
  cases k <;> rfl

theorem responseHandler_data (o : Nat) (k : Sensor) :
    responseHandler L a o (.data k) = dataResponseHandler L a k o := by
  cases k <;> rfl

/-- Two events are put on the queue, the second to look for the next request. -/
theorem put_finishAndReschedule (h : Handler) (o : Nat) (s : State S) :
    (s.put h o).finishAndRescheduleReceiveNotification = { s with
      processingReceiveNotification := false
      queue := s.queue ++ [⟨h, o⟩, ⟨.processReceiveNotification, 0⟩] } := by
  simp [State.finishAndRescheduleReceiveNotification, State.finishReceiveNotification, State.put]

theorem startPump_started (o : Nat) {s : State S} (h : s.streamingStarted = true) :
    s.startPump o = s := if_pos h

theorem startPump_stopped (o : Nat) {s : State S} (h : s.streamingStarted = false) :
    s.startPump o = { s with streamingStarted := true }.put (.response .stream) o :=
  if_neg (by simp [h])

/-- `sender_transmit` fails for another reason than a full FIFO. -/
def Answers.transmitFails (a : Answers) : Bool :=
  match a.transmit with
  | .ok _ => false
  | .error e => e ≠ .noMem

/-- The badge assignment fails for good. -/
def Answers.assignmentFails (a : Answers) : Bool :=
  match a.setBadgeAssignement with
  | .ok _ => false
  | .error e => e ≠ .internal

/-- `send_response` cannot transmit and will not try again. -/
def SendFails (s : State S) : Prop :=
  responseMaxTransmitRetries < s.responseEvent.retries ∨
    L.encode s.responseEvent.response = none ∨ s.connected = false ∨ a.transmitFails = true

/-- `response_event` after one more try. -/
def ResponseEvent.tried (ev : ResponseEvent) : ResponseEvent :=
  { ev with failHandler := some .sendResponse, retries := ev.retries + 1 }

/-- The same response for the same request; only the bookkeeping of the tries differs. -/
def ResponseEvent.Same (ev ev' : ResponseEvent) : Prop :=
  ev.response = ev'.response ∧ ev.successHandler = ev'.successHandler ∧ ev.origin = ev'.origin

/-- The bytes handed to `sender_transmit`. -/
def frame (bytes : List UInt8) : List UInt8 := lengthHeader bytes.length ++ bytes

/-- The event that follows a transmitted response. -/
def ResponseEvent.next (ev : ResponseEvent) : List Event :=
  match ev.successHandler with
  | some h => [⟨h, ev.origin⟩]
  | none => []

/-- Everything `send_response` can do. -/
inductive Sends (s : State S) : State S → Prop
  | dropped {ev : ResponseEvent} {tr : List Entry} (fails : SendFails L a s)
      (same : ev.Same s.responseEvent)
      (handed : tr = s.trace ∨ s.connected = true ∧ ∃ bytes, tr =
        .transmit s.responseEvent.origin s.responseEvent.response bytes false :: s.trace) :
      Sends s (finishError L { s with responseEvent := ev, trace := tr })
  | sent {bytes : List UInt8} (connected : s.connected = true) (ok : a.transmit = .ok ())
      (encoded : L.encode s.responseEvent.response = some bytes) :
      Sends s { s with
        responseEvent := s.responseEvent.tried
        trace := .transmit s.responseEvent.origin s.responseEvent.response (frame bytes) true
          :: s.trace
        queue := s.queue ++ s.responseEvent.next
        processingResponse := false }
  | retried {bytes : List UInt8} (connected : s.connected = true)
      (noMem : a.transmit = .error .noMem)
      (encoded : L.encode s.responseEvent.response = some bytes) :
      Sends s { s with
        responseEvent := s.responseEvent.tried
        trace := .transmit s.responseEvent.origin s.responseEvent.response (frame bytes) false
          :: s.trace
        queue := s.queue ++ [⟨.sendResponse, s.responseEvent.origin⟩] }

theorem sendResponse_sends (s : State S) : Sends L a s (sendResponse L a s) := by
  unfold sendResponse
  dsimp only
  split
  · next h => exact .dropped (.inl h) ⟨rfl, rfl, rfl⟩ (.inl rfl)
  · cases he : L.encode s.responseEvent.response with
    | none => exact .dropped (.inr (.inl he)) ⟨rfl, rfl, rfl⟩ (.inl rfl)
    | some bytes =>
      dsimp only
      by_cases hc : s.connected = true
      · unfold senderTransmit
        rw [if_pos hc]
        rcases ha : a.transmit with e | ⟨⟩
        · have dropped (hne : e ≠ .noMem) : Sends L a s (finishError L { s with
              responseEvent := s.responseEvent.tried
              trace := .transmit s.responseEvent.origin s.responseEvent.response (frame bytes)
                false :: s.trace }) :=
            .dropped (.inr (.inr (.inr (by simp [Answers.transmitFails, ha, hne]))))
              ⟨rfl, rfl, rfl⟩ (.inr ⟨hc, frame bytes, rfl⟩)
          cases e <;> first | exact Sends.retried hc ha he | exact dropped (by decide)
        · have sent := Sends.sent hc ha he
          dsimp only
          split
          · next h hs =>
            have hn : s.responseEvent.next = [⟨h, s.responseEvent.origin⟩] := by
              rw [ResponseEvent.next, show s.responseEvent.successHandler = some h from hs]
            rw [hn] at sent
            exact sent
          · next hs =>
            have hn : s.responseEvent.next = [] := by
              rw [ResponseEvent.next, show s.responseEvent.successHandler = none from hs]
            rw [hn, List.append_nil] at sent
            exact sent
      · unfold senderTransmit
        rw [if_neg hc]
        exact .dropped (.inr (.inr (.inl (by simpa using hc)))) ⟨rfl, rfl, rfl⟩ (.inl rfl)

/-- Stopping a stream only changes streaming bits, and how depends on the bits alone. -/
theorem samplingStop_streaming (k : Sensor) (s : State S) :
    samplingStop a k true s = { s with streaming := (samplingStop a k true s).streaming } := by
  cases k with
  | accelerometer =>
    unfold samplingStop samplingStopAccelerometer
    dsimp only
    split <;> rfl
  | accelerometerInterrupt =>
    unfold samplingStop samplingStopAccelerometerInterrupt
    dsimp only
    split <;> rfl
  | _ => rfl

theorem samplingStop_streaming_congr (k : Sensor) {s t : State S} (hs : s.sampling = t.sampling)
    (ht : s.streaming = t.streaming) :
    (samplingStop a k true s).streaming = (samplingStop a k true t).streaming := by
  have bit : (s.setSampling k true false).streaming = (t.setSampling k true false).streaming := by
    change setBit s.streaming k false = setBit t.streaming k false
    rw [ht]
  have hm (i : Sensor) : s.otherMode i true = t.otherMode i true := congrFun hs i
  have ha (i : Sensor) : s.active i = t.active i := by
    unfold State.active
    rw [hs, ht]
  cases k with
  | accelerometer =>
    unfold samplingStop samplingStopAccelerometer
    dsimp only
    rw [hm, ha]
    split
    · exact ht
    · exact bit
  | accelerometerInterrupt =>
    unfold samplingStop samplingStopAccelerometerInterrupt
    dsimp only
    rw [hm, ha]
    split
    · exact ht
    · exact bit
  | _ => exact bit

theorem stopStreams_eq_samplingStop (s : State S) :
    stopStreams a s = samplingStop a .scan true (samplingStop a .microphone true
      (samplingStop a .battery true (samplingStop a .accelerometerInterrupt true
        (samplingStop a .accelerometer true s)))) := rfl

theorem samplingStop_sampling (k : Sensor) (s : State S) :
    (samplingStop a k true s).sampling = s.sampling := by
  rw [samplingStop_streaming]

/-- Stopping all streams changes nothing but the streaming bits. -/
theorem stopStreams_eq (s : State S) :
    stopStreams a s = { s with streaming := (stopStreams a s).streaming } := by
  rw [stopStreams_eq_samplingStop]
  have h := fun k (t : State S) => samplingStop_streaming a k t
  rw [h .scan, h .microphone, h .battery, h .accelerometerInterrupt, h .accelerometer]

theorem stopStreams_congr {s t : State S} (hs : s.sampling = t.sampling)
    (ht : s.streaming = t.streaming) : (stopStreams a s).streaming = (stopStreams a t).streaming := by
  rw [stopStreams_eq_samplingStop, stopStreams_eq_samplingStop]
  have next (k : Sensor) {s t : State S} (h : s.sampling = t.sampling ∧ s.streaming = t.streaming) :
      (samplingStop a k true s).sampling = (samplingStop a k true t).sampling ∧
      (samplingStop a k true s).streaming = (samplingStop a k true t).streaming :=
    ⟨by rw [samplingStop_sampling, samplingStop_sampling, h.1],
      samplingStop_streaming_congr a k h.1 h.2⟩
  exact (next .scan (next .microphone (next .battery (next .accelerometerInterrupt
    (next .accelerometer ⟨hs, ht⟩))))).2

/-- Everything the end of the stream handler can do. -/
inductive StreamEnds (s : State S) (o : Nat) : Bool → State S → Prop
  | pumped (started : s.streamingStarted = true) :
      StreamEnds s o true (s.put (.response .stream) o)
  | idle (started : s.streamingStarted = true) :
      StreamEnds s o false { s with streamingStarted := false }
  | stopped {b : Bool} (notStarted : s.streamingStarted = false) :
      StreamEnds s o b { s with streaming := (stopStreams a s).streaming }

theorem finishStream_ends (b : Bool) (o : Nat) (s : State S) :
    StreamEnds a s o b (finishStream a b o s) := by
  unfold finishStream
  by_cases hs : s.streamingStarted = true
  · rw [if_pos hs]
    cases b with
    | false => exact .idle hs
    | true =>
      rw [if_neg (by simp [hs])]
      exact .pumped hs
  · have hf : s.streamingStarted = false := by simpa using hs
    rw [if_neg hs, stopStreams_eq]
    dsimp only
    rw [if_pos (by simp [hf])]
    have ends : StreamEnds a s o b _ := .stopped hf
    rw [← hf]
    exact ends

/-- The response that a status or start request is answered with. -/
def ownResponse (s : State S) : ResponseType → Option Response
  | .status => some (.status
      { clockStatus := s.responseClockStatus
        microphoneStatus := s.sampling .microphone
        scanStatus := s.sampling .scan
        accelerometerStatus := s.sampling .accelerometer
        accelerometerInterruptStatus := s.sampling .accelerometerInterrupt
        batteryStatus := s.sampling .battery
        timestamp := s.responseTimestamp
        voltage := a.voltage })
  | .start k => some (.start k s.responseTimestamp)
  | _ => none

/-- Everything a response handler can do. -/
inductive Responds (o : Nat) (s : State S) : ResponseType → State S → Prop
  | busy {r : ResponseType} (busy : s.processingResponse = true) :
      Responds o s r (s.put (.response r) o)
  | answered {r : ResponseType} {m : Response} {t : State S}
      (free : s.processingResponse = false) (own : ownResponse a s r = some m)
      (sends : Sends L a ({ s with
        processingResponse := true
        processingReceiveNotification := false
        queue := s.queue ++ [Event.mk .processReceiveNotification 0] }.prepare m none o) t) :
      Responds o s r t
  | chunk {k : Sensor} {c : Chunk} {u : S} {t : State S} (free : s.processingResponse = false)
      (next : L.getNextChunk k s.storer = (.ok c, u))
      (sends : Sends L a ({ s with processingResponse := true, storer := u }.prepare
        (.data k (some (c.toResponse k))) (some (.response (.data k))) o) t) :
      Responds o s (.data k) t
  | last {k : Sensor} {e : RetCode} {u : S} {t : State S} (free : s.processingResponse = false)
      (next : L.getNextChunk k s.storer = (.error e, u))
      (ends : e = .notFound ∨ e = .invalidState)
      (sends : Sends L a ({ s with processingResponse := true, storer := u }.prepare
        (.data k none) none o) t) :
      Responds o s (.data k) t
  | kept {k : Sensor} {e : RetCode} {u : S} (free : s.processingResponse = false)
      (next : L.getNextChunk k s.storer = (.error e, u))
      (fails : ¬ (e = .notFound ∨ e = .invalidState)) :
      Responds o s (.data k) (({ s with processingResponse := true, storer := u }.prepare
        (.data k none) (some (.response (.data k))) o).put (.response (.data k)) o)
  | tested {t : State S} (free : s.processingResponse = false)
      (sends : Sends L a ({ s with processingResponse := true }.prepare
        (.test (a.selftest % 2 ^ 8)) none o) t) :
      Responds o s .test t
  | quiet {t : State S} (free : s.processingResponse = false)
      (nothing : (readStreams a s).isEmpty = true)
      (ends : StreamEnds a ({ s with processingResponse := false }.prepare
        (.stream a.timestamp (readStreams a s)) none o) o s.anyStreaming t) :
      Responds o s .stream t
  | streamed {t u : State S} (free : s.processingResponse = false)
      (some : (readStreams a s).isEmpty = false)
      (sends : Sends L a ({ s with processingResponse := true }.prepare
        (.stream a.timestamp (readStreams a s)) none o) t)
      (ends : StreamEnds a t o s.anyStreaming u) :
      Responds o s .stream u

/-- The response an event is about to send. -/
def responseToSend (e : Event) (s : State S) : Option Response :=
  match e.handler with
  | .sendResponse => some s.responseEvent.response
  | .response (.data k) =>
    match (L.getNextChunk k s.storer).1 with
    | .ok c => some (.data k (some (c.toResponse k)))
    | .error e => if e = .notFound ∨ e = .invalidState then some (.data k none) else none
  | .response .stream =>
    if (readStreams a s).isEmpty then none else some (.stream a.timestamp (readStreams a s))
  | .response .test => some (.test (a.selftest % 2 ^ 8))
  | .response r => ownResponse a s r
  | _ => none

/-- The response an event is about to send is given up: it does not encode, there is no
connection, the transmission fails for another reason than a full FIFO, or it was tried too
often. -/
def Drops (e : Event) (s : State S) : Prop :=
  (e.handler = .sendResponse ∨ s.processingResponse = false) ∧
    ∃ m ∈ responseToSend L a e s, L.encode m = none ∨ s.connected = false ∨
      a.transmitFails = true ∨
      e.handler = .sendResponse ∧ responseMaxTransmitRetries < s.responseEvent.retries

instance (e : Event) (s : State S) : Decidable (Drops L a e s) :=
  inferInstanceAs (Decidable (_ ∧ ∃ m ∈ responseToSend L a e s, _ ∨ _ ∨ _ ∨ _))

theorem responseHandler_responds (o : Nat) (r : ResponseType) (s : State S) :
    Responds L a o s r (responseHandler L a o r s) := by
  by_cases hb : s.processingResponse = true
  · have busy : responseHandler L a o r s = s.put (.response r) o := by
      cases r with
      | status => exact if_pos hb
      | start k => rw [responseHandler_start]; exact if_pos hb
      | data k => rw [responseHandler_data]; exact if_pos hb
      | stream => exact if_pos hb
      | test => exact if_pos hb
    rw [busy]
    exact .busy hb
  · have free : s.processingResponse = false := by simpa using hb
    cases r with
    | status =>
      refine .answered free rfl ?_
      rw [show responseHandler L a o .status s = sendResponse L a _ from if_neg hb]
      exact sendResponse_sends ..
    | start k =>
      refine .answered free rfl ?_
      rw [responseHandler_start, show startResponseHandler L a k o s = sendResponse L a _ from
        if_neg hb]
      exact sendResponse_sends ..
    | data k =>
      rw [responseHandler_data, show dataResponseHandler L a k o s = _ from if_neg hb]
      dsimp only
      rcases hn : L.getNextChunk k s.storer with ⟨e | c, u⟩
      · cases e
        case notFound => exact .last free hn (.inl rfl) (sendResponse_sends ..)
        case invalidState => exact .last free hn (.inr rfl) (sendResponse_sends ..)
        all_goals exact .kept free hn (by decide)
      · exact .chunk free hn (sendResponse_sends ..)
    | stream =>
      change Responds L a o s .stream (streamResponseHandler L a o s)
      unfold streamResponseHandler State.startResponse
      rw [if_neg hb]
      dsimp only
      split
      · next h => exact .quiet free h (finishStream_ends ..)
      · next h =>
        exact .streamed free (Bool.eq_false_iff.mpr h) (sendResponse_sends ..)
          (finishStream_ends ..)
    | test =>
      rw [show responseHandler L a o .test s = sendResponse L a _ from if_neg hb]
      exact .tested free (sendResponse_sends ..)

/-- The response handler that goes on with the answer, where the request is kept until then. -/
def RequestType.answer : RequestType → Option ResponseType
  | .status => some .status
  | .start k => some (.start k)
  | _ => none

/-- The requests whose handler is done at once. -/
def RequestType.immediate : RequestType → Bool
  | .stop _ => true
  | .stopStream _ => true
  | .identify => true
  | .restart => true
  | _ => false

theorem answer_of_immediate {r : RequestType} (h : r.immediate = true) : r.answer = none := by
  cases r <;> first | rfl | cases h

/-- An entry that records a call to another library. -/
def Entry.isCall : Entry → Bool
  | .setTimestamp _ _ => true
  | .setBadgeAssignement _ => true
  | .samplingStart _ _ => true
  | _ => false

/-- Everything a request handler can do. -/
inductive Handles (o : Nat) (s : State S) : RequestType → State S → Prop
  | retried {r : RequestType} {calls : List Entry} {u : S} (fallible : r.immediate = false)
      (only : ∀ e ∈ calls, e.isCall = true)
      (fails : (∃ k e, r = .data k ∧ e ≠ .invalidState ∧
          L.findChunk k (s.requestEvent.request.data.timestamp k) s.storer = (.error e, u)) ∨
        (∀ k, r ≠ .data k) ∧ u = s.storer ∧
          (a.samplingStart.toBool = false ∨ a.setBadgeAssignement.toBool = false)) :
      Handles o s r ({ s with trace := calls ++ s.trace, storer := u }.put (.request r) o)
  | answered {r : RequestType} {q : ResponseType} {calls : List Entry} {f : Sensor → Bool}
      (answer : r.answer = some q) (only : ∀ e ∈ calls, e.isCall = true) :
      Handles o s r ({ s with trace := calls ++ s.trace, sampling := f }.put (.response q) o)
  | dropped {calls : List Entry} (fails : a.assignmentFails = true)
      (only : ∀ e ∈ calls, e.isCall = true) :
      Handles o s .status (finishError L { s with trace := calls ++ s.trace })
  | found {k : Sensor} {e : Except RetCode Unit} {u : S}
      (find : L.findChunk k (s.requestEvent.request.data.timestamp k) s.storer = (e, u))
      (ready : e = .ok () ∨ e = .error .invalidState) :
      Handles o s (.data k) { s with
        storer := u
        processingReceiveNotification := false
        queue := s.queue ++ [⟨.response (.data k), o⟩, ⟨.processReceiveNotification, 0⟩] }
  | joins {k : Sensor} {calls : List Entry} (ok : a.samplingStart.toBool = true)
      (started : s.streamingStarted = true) (only : ∀ e ∈ calls, e.isCall = true) :
      Handles o s (.startStream k) { s with
        trace := calls ++ s.trace
        streaming := setBit s.streaming k true
        processingReceiveNotification := false
        queue := s.queue ++ [⟨.processReceiveNotification, 0⟩] }
  | starts {k : Sensor} {calls : List Entry} (ok : a.samplingStart.toBool = true)
      (stopped : s.streamingStarted = false) (only : ∀ e ∈ calls, e.isCall = true) :
      Handles o s (.startStream k) { s with
        trace := calls ++ s.trace
        streaming := setBit s.streaming k true
        streamingStarted := true
        processingReceiveNotification := false
        queue := s.queue ++ [⟨.response .stream, o⟩, ⟨.processReceiveNotification, 0⟩] }
  | finished {r : RequestType} {f g : Sensor → Bool} (immediate : r.immediate = true)
      (cleared : ∀ k, g k = true → s.streaming k = true) :
      Handles o s r { s with
        sampling := f
        streaming := g
        processingReceiveNotification := false
        queue := s.queue ++ [⟨.processReceiveNotification, 0⟩] }
  | tested : Handles o s .test { s with
      processingReceiveNotification := false
      queue := s.queue ++ [⟨.response .test, o⟩, ⟨.processReceiveNotification, 0⟩] }

theorem setSampling_clears (k : Sensor) (streaming : Bool) (s : State S) :
    ∃ f g, s.setSampling k streaming false = { s with sampling := f, streaming := g } ∧
      ∀ i, g i = true → s.streaming i = true := by
  cases streaming with
  | false => exact ⟨_, _, rfl, fun _ h => h⟩
  | true =>
    refine ⟨_, _, rfl, fun i h => ?_⟩
    by_cases hi : i = k
    · simp [setBit, hi] at h
    · simpa [setBit, hi] using h

/-- Stopping a sensor only clears bits. -/
theorem samplingStop_clears (k : Sensor) (streaming : Bool) (s : State S) :
    ∃ f g, samplingStop a k streaming s = { s with sampling := f, streaming := g } ∧
      ∀ i, g i = true → s.streaming i = true := by
  cases k with
  | microphone => exact setSampling_clears ..
  | scan => exact setSampling_clears ..
  | accelerometer =>
    unfold samplingStop samplingStopAccelerometer
    dsimp only
    split
    · exact ⟨_, _, rfl, fun _ h => h⟩
    · exact setSampling_clears ..
  | accelerometerInterrupt =>
    unfold samplingStop samplingStopAccelerometerInterrupt
    dsimp only
    split
    · exact ⟨_, _, rfl, fun _ h => h⟩
    · exact setSampling_clears ..
  | battery => exact setSampling_clears ..

theorem requestHandler_handles (o : Nat) (r : RequestType) (s : State S) :
    Handles L a o s r (requestHandler L a o r s) := by
  have stopped (k : Sensor) (st : Bool) (r : RequestType) (hr : r.immediate = true) :
      Handles L a o s r (samplingStop a k st s).finishAndRescheduleReceiveNotification := by
    obtain ⟨f, g, he, hg⟩ := samplingStop_clears a k st s
    rw [he]
    exact .finished hr hg
  cases r with
  | status =>
    change Handles L a o s .status (statusRequestHandler L a o s)
    unfold statusRequestHandler
    dsimp only
    split
    · have only : ∀ e ∈ [Entry.setBadgeAssignement s.requestEvent.request.status.badgeAssignement,
          .setTimestamp s.requestEvent.timepointTicks s.requestEvent.request.status.timestamp],
          e.isCall = true := by simp [Entry.isCall]
      rcases hb : a.setBadgeAssignement with e | ⟨⟩
      · have fails (he : e ≠ .internal) : a.assignmentFails = true := by
          simp [Answers.assignmentFails, hb, he]
        cases e <;> first
          | exact .retried rfl only (.inr ⟨by simp, rfl, .inr (by rw [hb]; rfl)⟩)
          | exact .dropped (fails (by decide)) only
      · exact .answered rfl only
    · have only : ∀ e ∈ [Entry.setTimestamp s.requestEvent.timepointTicks
          s.requestEvent.request.status.timestamp], e.isCall = true := by simp [Entry.isCall]
      exact .answered rfl only
  | start k =>
    rw [requestHandler_start]
    unfold startRequestHandler samplingStart
    dsimp only
    have only : ∀ e ∈ [Entry.samplingStart (s.requestEvent.request.start.parameters
        a.badgeAssignement.group k) false, .setTimestamp s.requestEvent.timepointTicks
        (s.requestEvent.request.start.timestamp k)], e.isCall = true := by simp [Entry.isCall]
    rcases ha : a.samplingStart with e | ⟨⟩
    · exact .retried rfl only (.inr ⟨by simp, rfl, .inl (by rw [ha]; rfl)⟩)
    · exact .answered rfl only
  | stop k =>
    rw [requestHandler_stop]
    exact stopped k false _ rfl
  | data k =>
    rw [requestHandler_data]
    unfold dataRequestHandler
    rcases hf : L.findChunk k (s.requestEvent.request.data.timestamp k) s.storer with ⟨e | ⟨⟩, u⟩
    · have retried (he : e ≠ .invalidState) : Handles L a o s (.data k) ({ s with
          trace := [] ++ s.trace
          storer := u }.put (.request (.data k)) o) :=
        .retried rfl (by simp) (.inl ⟨k, e, rfl, he, hf⟩)
      cases e
      case invalidState =>
        dsimp only
        rw [put_finishAndReschedule]
        exact .found hf (.inr rfl)
      all_goals exact retried (by decide)
    · dsimp only
      rw [put_finishAndReschedule]
      exact .found hf (.inl rfl)
  | startStream k =>
    rw [requestHandler_startStream]
    unfold startStreamRequestHandler samplingStart
    dsimp only
    have only : ∀ e ∈ [Entry.samplingStart (s.requestEvent.request.startStream.parameters
        a.badgeAssignement.group k) true, .setTimestamp s.requestEvent.timepointTicks
        (s.requestEvent.request.startStream.timestamp k)], e.isCall = true := by
      simp [Entry.isCall]
    rcases ha : a.samplingStart with e | ⟨⟩
    · exact .retried rfl only (.inr ⟨by simp, rfl, .inl (by rw [ha]; rfl)⟩)
    · have ok : a.samplingStart.toBool = true := by rw [ha]; rfl
      by_cases hs : s.streamingStarted = true
      · have joins : Handles L a o s (.startStream k) _ := .joins ok hs only
        dsimp only
        rw [startPump_started o (by exact hs)]
        exact joins
      · have stopped : s.streamingStarted = false := by simpa using hs
        have starts : Handles L a o s (.startStream k) _ := .starts ok stopped only
        dsimp only
        rw [startPump_stopped o (by exact stopped), put_finishAndReschedule]
        exact starts
  | stopStream k =>
    rw [requestHandler_stopStream]
    exact stopped k true _ rfl
  | identify =>
    have finished : Handles L a o s .identify { s with
        sampling := s.sampling
        streaming := s.streaming
        processingReceiveNotification := false
        queue := s.queue ++ [⟨.processReceiveNotification, 0⟩] } := .finished rfl fun _ h => h
    exact finished
  | test =>
    change Handles L a o s .test (testRequestHandler o s)
    rw [testRequestHandler, put_finishAndReschedule]
    exact .tested
  | restart =>
    have finished : Handles L a o s .restart { s with
        sampling := s.sampling
        streaming := s.streaming
        processingReceiveNotification := false
        queue := s.queue ++ [⟨.processReceiveNotification, 0⟩] } := .finished rfl fun _ h => h
    exact finished

/-- `process_receive_notification` waits for bytes that have not come. -/
def State.Waits (s : State S) : Prop :=
  (∃ c, s.stage = .awaitHeader c ∧ s.rx.length < 2) ∨
    ∃ c len, s.stage = .awaitData c len ∧ s.rx.length < len

/-- Everything the next piece of `process_receive_notification` can do. -/
inductive Continues (s : State S) : State S → Prop
  | waits (why : s.stage = .idle ∨ s.Waits) : Continues s s
  | asksHeader {c : Capture} (stage : s.stage = .header c) (connected : s.connected = true) :
      Continues s { s with stage := .awaitHeader c }
  | readsHeader {c : Capture} (stage : s.stage = .awaitHeader c) (there : 2 ≤ s.rx.length) :
      Continues s { s with
        rx := s.rx.drop 2
        stage := .data c (headerLength (s.rx.take 2)) }
  | asksData {c : Capture} {len : Nat} (stage : s.stage = .data c len)
      (connected : s.connected = true) : Continues s { s with stage := .awaitData c len }
  | readsData {c : Capture} {len : Nat} (stage : s.stage = .awaitData c len)
      (there : len ≤ s.rx.length) :
      Continues s { s with rx := s.rx.drop len, stage := .consume c (s.rx.take len) }
  | consumes {c : Capture} {bytes : List UInt8} {ns : List ReceiveNotification}
      (stage : s.stage = .consume c bytes)
      (consumed : consumeNotifications ((bytes.length + 2) % 2 ^ 16) s.notifications = some ns) :
      Continues s { s with notifications := ns, stage := .decode c bytes }
  | decodes {c : Capture} {bytes : List UInt8} {t : RequestType}
      (stage : s.stage = .decode c bytes) (accepted : (L.decode bytes).2 = true)
      (known : findRequestHandler (L.decode bytes).1.whichType = some t) :
      Continues s { s with
        requestEvent := ⟨c.notification.ticks, (L.decode bytes).1⟩
        serial := s.serial + 1
        trace := .decode bytes c.notification.ticks :: s.trace
        stage := .handle c t }
  | rejects {c : Capture} {bytes : List UInt8} {r : RequestEvent} (stage : s.stage = .decode c bytes)
      (bad : (L.decode bytes).2 = false ∨
        findRequestHandler (L.decode bytes).1.whichType = none) :
      Continues s (abort L { s with
        requestEvent := r
        serial := s.serial + 1
        trace := .decode bytes c.notification.ticks :: s.trace })
  | loses {c : Capture} (stage : s.stage = .header c ∨ ∃ len, s.stage = .data c len)
      (gone : s.connected = false) : Continues s (abort L s)
  | lacks {c : Capture} {bytes : List UInt8} (stage : s.stage = .consume c bytes)
      (missing : consumeNotifications ((bytes.length + 2) % 2 ^ 16) s.notifications = none) :
      Continues s (abort L s)
  | handles {c : Capture} {r : RequestType} {t : State S} (stage : s.stage = .handle c r)
      (run : Handles L a s.serial { s with
        stage := .idle
        trace := .taken s.serial r c s.requestEvent.request :: s.trace } r t) :
      Continues s t

theorem continueProcessing_continues (s : State S) : Continues L a s (continueProcessing L a s) := by
  unfold continueProcessing
  cases hs : s.stage with
  | idle => exact .waits (.inl hs)
  | header c =>
    dsimp only
    by_cases hc : s.connected = true
    · rw [if_pos hc]
      exact .asksHeader hs hc
    · rw [if_neg hc]
      exact .loses (.inl hs) (by simpa using hc)
  | awaitHeader c =>
    dsimp only
    by_cases hr : 2 ≤ s.rx.length
    · rw [if_pos hr]
      exact .readsHeader hs hr
    · rw [if_neg hr]
      exact .waits (.inr (.inl ⟨c, hs, Nat.lt_of_not_le hr⟩))
  | data c len =>
    dsimp only
    by_cases hc : s.connected = true
    · rw [if_pos hc]
      exact .asksData hs hc
    · rw [if_neg hc]
      exact .loses (.inr ⟨len, hs⟩) (by simpa using hc)
  | awaitData c len =>
    dsimp only
    by_cases hr : len ≤ s.rx.length
    · rw [if_pos hr]
      exact .readsData hs hr
    · rw [if_neg hr]
      exact .waits (.inr (.inr ⟨c, len, hs, Nat.lt_of_not_le hr⟩))
  | consume c bytes =>
    dsimp only
    cases hn : consumeNotifications ((bytes.length + 2) % 2 ^ 16) s.notifications with
    | none => exact .lacks hs hn
    | some ns => exact .consumes hs hn
  | decode c bytes =>
    dsimp only
    unfold decodeRequest
    dsimp only
    by_cases hd : (L.decode bytes).2 = true
    · rw [if_pos hd]
      dsimp only [State.log]
      cases hf : findRequestHandler (L.decode bytes).1.whichType with
      | none => exact .rejects hs (.inr hf)
      | some t => exact .decodes hs hd hf
    · rw [if_neg hd]
      exact .rejects hs (.inl (by simpa using hd))
  | handle c t => exact .handles hs (requestHandler_handles ..)

/-- Everything a scheduler event can do; `s` is the state with the event taken off the queue. -/
inductive Runs (e : Event) (s : State S) : State S → Prop
  | waits (process : e.handler = .processReceiveNotification)
      (busy : s.processingReceiveNotification = true) :
      Runs e s (s.put .processReceiveNotification 0)
  | rests (process : e.handler = .processReceiveNotification)
      (free : s.processingReceiveNotification = false) (none : s.notifications = []) : Runs e s s
  | begins {n : ReceiveNotification} {ns : List ReceiveNotification}
      (process : e.handler = .processReceiveNotification)
      (free : s.processingReceiveNotification = false) (first : s.notifications = n :: ns) :
      Runs e s { s with
        processingReceiveNotification := true
        responseTimestamp := n.timestamp
        responseClockStatus := a.isSynced
        stage := .header ⟨n, a.isSynced⟩ }
  | sends {t : State S} (send : e.handler = .sendResponse) (run : Sends L a s t) : Runs e s t
  | handles {r : RequestType} {t : State S} (request : e.handler = .request r)
      (run : Handles L a e.origin s r t) : Runs e s t
  | responds {r : ResponseType} {t : State S} (response : e.handler = .response r)
      (run : Responds L a e.origin s r t) : Runs e s t

theorem runEvent_runs (e : Event) (s : State S) : Runs L a e s (runEvent L a e s) := by
  unfold runEvent
  cases he : e.handler with
  | processReceiveNotification =>
    dsimp only
    unfold processReceiveNotification
    by_cases hp : s.processingReceiveNotification = true
    · rw [if_pos hp]
      exact .waits he hp
    · have free : s.processingReceiveNotification = false := by simpa using hp
      rw [if_neg hp]
      split
      · next hn => exact .rests he free hn
      · next n ns hn => exact .begins he free hn
  | sendResponse => exact .sends he (sendResponse_sends ..)
  | request t => exact .handles he (requestHandler_handles ..)
  | response t => exact .responds he (responseHandler_responds ..)

/-- Everything the main loop can do. -/
inductive Dispatches (s : State S) : State S → Prop
  | nothing (idle : s.stage = .idle) (empty : s.queue = []) : Dispatches s s
  | event {e : Event} {es : List Event} {t : State S} (idle : s.stage = .idle)
      (queue : s.queue = e :: es) (run : Runs L a e { s with queue := es } t) : Dispatches s t
  | goesOn {t : State S} (running : s.stage ≠ .idle) (run : Continues L a s t) : Dispatches s t

theorem dispatch_dispatches (s : State S) : Dispatches L a s (dispatch L a s) := by
  unfold dispatch
  by_cases hs : s.stage = .idle
  · rw [if_pos hs]
    cases hq : s.queue with
    | nil => exact .nothing hs hq
    | cons e es => exact .event hs hq (runEvent_runs ..)
  · rw [if_neg hs]
    exact .goesOn hs (continueProcessing_continues ..)

/-- A wait that gives up ends in the error of `process_receive_notification`. -/
theorem awaitTimeout_cases (s : State S) : awaitTimeout L s = s ∨
    awaitTimeout L s = abort L s ∧
      ∃ c, s.stage = .awaitHeader c ∨ ∃ len, s.stage = .awaitData c len := by
  unfold awaitTimeout
  cases hs : s.stage with
  | awaitHeader c =>
    dsimp only
    split
    · exact .inr ⟨rfl, c, .inl rfl⟩
    · exact .inl rfl
  | awaitData c len =>
    dsimp only
    split
    · exact .inr ⟨rfl, c, .inr ⟨len, rfl⟩⟩
    · exact .inl rfl
  | _ => exact .inl rfl

/-- The invariant rule of the system: a property is kept by every step if the callbacks keep it
and everything the main loop can do keeps it. -/
theorem step_keeps {I : State S → Prop} {C : State S → Action S → Prop}
    (packet : ∀ s data ticks timestamp, I s → C s (.packet data ticks timestamp) →
      I (s.onReceiveCallback data ticks timestamp))
    (connect : ∀ s, I s → C s .connect → I s.onConnectCallback)
    (disconnect : ∀ s, I s → C s .disconnect → I s.onDisconnectCallback)
    (stop : ∀ s f g, I s → (∀ k, g k = true → s.streaming k = true) →
      I { s with sampling := f, streaming := g })
    (giveUp : ∀ s c, I s → C s .awaitTimeout →
      (s.stage = .awaitHeader c ∨ ∃ len, s.stage = .awaitData c len) → I (abort L s))
    (store : ∀ s t, I s → C s (.store t) → I { s with storer := t })
    (event : ∀ s a e es t, I s → C s (.dispatch a) → s.stage = .idle → s.queue = e :: es →
      Runs L a e { s with queue := es } t → I t)
    (goesOn : ∀ s a t, I s → C s (.dispatch a) → s.stage ≠ .idle → Continues L a s t → I t)
    (s : State S) (x : Action S) (hs : I s) (hx : C s x) : I (step L s x) := by
  cases x with
  | packet data ticks timestamp => exact packet s data ticks timestamp hs hx
  | connect => exact connect s hs hx
  | disconnect => exact disconnect s hs hx
  | samplingTimeout k streaming a =>
    obtain ⟨f, g, he, hg⟩ := samplingStop_clears a k streaming s
    change I (samplingStop a k streaming s)
    rw [he]
    exact stop s f g hs hg
  | awaitTimeout =>
    change I (awaitTimeout L s)
    rcases awaitTimeout_cases L s with he | ⟨he, c, hc⟩
    · rw [he]
      exact hs
    · rw [he]
      exact giveUp s c hs hx hc
  | store t => exact store s t hs hx
  | dispatch a =>
    have h := dispatch_dispatches L a s
    change I (dispatch L a s)
    generalize dispatch L a s = t at h
    cases h with
    | nothing => exact hs
    | event idle queue run => exact event s a _ _ t hs hx idle queue run
    | goesOn running run => exact goesOn s a t hs hx running run

end OpenBadge.RequestHandler
