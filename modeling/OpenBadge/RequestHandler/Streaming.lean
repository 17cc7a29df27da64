import OpenBadge.RequestHandler.Ownership

/-!
# One stream pump

`stream_response_handler` drains all streams and keeps itself on the queue. It
stays the only one, and no stream is left without it, as long as no stream is
started while the pump of an earlier one is still queued after an error, and
stopping the streams leaves none running.
-/

namespace OpenBadge.RequestHandler

open OpenBadge.Lib

variable {S : Type} (L : Libraries S) (a : Answers)

/-- The number of queued `stream_response_handler` events. -/
def pumps (es : List Event) : Nat := es.countP fun e => e.handler = .response .stream

@[simp] theorem pumps_append (es es' : List Event) : pumps (es ++ es') = pumps es + pumps es' :=
  List.countP_append ..

theorem pumps_cons_pump {e : Event} (he : e.handler = .response .stream) (es : List Event) :
    pumps (e :: es) = pumps es + 1 := List.countP_cons_of_pos (by simp [he])

theorem pumps_cons_other {e : Event} (he : e.handler ≠ .response .stream) (es : List Event) :
    pumps (e :: es) = pumps es := List.countP_cons_of_neg (by simp [he])

def Handler.startsStream : Handler → Bool
  | .request (.startStream _) => true
  | _ => false

/-- A `start_*_stream_request_handler` is queued for a retry. -/
def Restarting (es : List Event) : Prop := ∃ e ∈ es, e.handler.startsStream = true

instance (es : List Event) : Decidable (Restarting es) :=
  inferInstanceAs (Decidable (∃ e ∈ es, e.handler.startsStream = true))

structure OnePump (s : State S) : Prop where
  atMost : pumps s.queue ≤ 1
  started : s.streamingStarted = true → pumps s.queue = 1
  drained : s.anyStreaming = true → pumps s.queue = 1 ∨ Restarting s.queue
  success : ∀ h, s.responseEvent.successHandler = some h → h ≠ .response .stream

theorem anyStreaming_eq_false {s : State S} : s.anyStreaming = false ↔ ∀ k, s.streaming k = false := by
  constructor
  · intro h k
    simp only [State.anyStreaming, Bool.or_eq_false_iff] at h
    cases k <;> simp [h]
  · intro h
    simp [State.anyStreaming, h]

theorem anyStreaming_mono {s t : State S} (h : ∀ k, t.streaming k = true → s.streaming k = true)
    (ht : t.anyStreaming = true) : s.anyStreaming = true := by
  by_contra hs
  have hs' := anyStreaming_eq_false.mp (by simpa using hs)
  have : t.anyStreaming = false := anyStreaming_eq_false.mpr fun k => by
    by_contra hk
    have := h k (by simpa using hk)
    rw [hs' k] at this
    cases this
  rw [ht] at this
  cases this

theorem Restarting.append {es : List Event} (h : Restarting es) (es' : List Event) :
    Restarting (es ++ es') := by
  obtain ⟨e, he, hs⟩ := h
  exact ⟨e, List.mem_append_left _ he, hs⟩

theorem stopStreams_anyStreaming {s t : State S} (h : (stopStreams a s).anyStreaming = false)
    (hs : t.sampling = s.sampling) (ht : t.streaming = s.streaming) :
    (stopStreams a t).anyStreaming = false := by
  unfold State.anyStreaming at h ⊢
  rw [stopStreams_congr a hs ht]
  exact h

/-- What adds no pump, starts no stream and keeps or clears the flag. -/
theorem OnePump.mono {s t : State S} {es : List Event} (h : OnePump s)
    (hq : t.queue = s.queue ++ es) (hes : pumps es = 0)
    (hst : t.streamingStarted = true → s.streamingStarted = true)
    (hb : ∀ k, t.streaming k = true → s.streaming k = true)
    (hh : ∀ h, t.responseEvent.successHandler = some h → h ≠ .response .stream) : OnePump t := by
  have hp : pumps t.queue = pumps s.queue := by rw [hq, pumps_append, hes, Nat.add_zero]
  refine ⟨hp ▸ h.atMost, fun ht => hp ▸ h.started (hst ht), fun ht => ?_, hh⟩
  rcases h.drained (anyStreaming_mono hb ht) with h1 | h2
  · exact .inl (hp.trans h1)
  · exact .inr (hq ▸ h2.append es)

/-- `send_response` adds no pump. -/
theorem Sends.adds {s t : State S} (h : Sends L a s t)
    (hh : ∀ h, s.responseEvent.successHandler = some h → h ≠ .response .stream) :
    ∃ es, t.queue = s.queue ++ es ∧ pumps es = 0 ∧
      (t.streamingStarted = true → s.streamingStarted = true) ∧ t.streaming = s.streaming ∧
      t.sampling = s.sampling ∧
      (∀ h, t.responseEvent.successHandler = some h → h ≠ .response .stream) ∧
      (t.streamingStarted = false → s.streamingStarted = false ∨ SendFails L a s) := by
  cases h with
  | dropped fails same =>
    refine ⟨[], (List.append_nil _).symm, rfl, fun h => (by cases h), rfl, rfl, ?_, fun _ => .inr fails⟩
    intro h hs
    exact hh h (same.2.1 ▸ hs)
  | sent =>
    refine ⟨_, rfl, ?_, id, rfl, rfl, hh, .inl⟩
    unfold ResponseEvent.next
    cases hs : s.responseEvent.successHandler with
    | none => rfl
    | some h => exact pumps_cons_other (hh h hs) []
  | retried => exact ⟨_, rfl, rfl, id, rfl, rfl, hh, .inl⟩

theorem OnePump.sends {s t : State S} (hs : OnePump s) (h : Sends L a s t) : OnePump t := by
  obtain ⟨es, hq, hes, hst, hb, -, hh, -⟩ := h.adds L a hs.success
  exact hs.mono hq hes hst (fun k hk => hb ▸ hk) hh

theorem OnePump.prepare {s : State S} (hs : OnePump s) (m : Response) (next : Option Handler)
    (o : Nat) (hn : ∀ h, next = some h → h ≠ .response .stream) (u : S) (b : Bool) :
    OnePump ({ s with processingResponse := b, storer := u }.prepare m next o) :=
  hs.mono (List.append_nil _).symm rfl id (fun _ hk => hk) hn

/-- A response handler other than the pump. -/
theorem Responds.onePump {o : Nat} {r : ResponseType} {s t : State S} (hs : OnePump s)
    (h : Responds L a o s r t) (hr : r ≠ .stream) : OnePump t := by
  cases h with
  | busy => exact hs.mono rfl (pumps_cons_other (by simp [hr]) []) id (fun _ hk => hk) hs.success
  | answered _ _ sends =>
    refine OnePump.sends L a ?_ sends
    exact hs.mono rfl rfl id (fun _ hk => hk) (fun h hh => by cases hh)
  | chunk _ _ sends =>
    exact (hs.prepare _ _ _ (fun h hh => by cases hh; simp) _ true).sends L a sends
  | last _ _ _ sends =>
    exact (hs.prepare _ _ _ (fun h hh => by cases hh) _ true).sends L a sends
  | @kept k e u =>
    have hp := hs.prepare (.data k none) (some (.response (.data k))) o
      (fun h hh => by cases hh; simp) u true
    exact hp.mono rfl rfl id (fun _ hk => hk) hp.success
  | tested _ sends =>
    exact (hs.prepare _ _ _ (fun h hh => by cases hh) s.storer true).sends L a sends
  | quiet => exact absurd rfl hr
  | streamed => exact absurd rfl hr

/-- The end of the pump's turn, on a queue without another pump. -/
theorem StreamEnds.onePump {o : Nat} {b : Bool} {s t : State S} (h : StreamEnds a s o b t)
    (hq : pumps s.queue = 0) (hb : s.anyStreaming = b)
    (hh : ∀ h, s.responseEvent.successHandler = some h → h ≠ .response .stream)
    (stops : s.streamingStarted = false →
      (stopStreams a s).anyStreaming = false ∨ Restarting s.queue) : OnePump t := by
  cases h with
  | pumped =>
    have hp : pumps (s.queue ++ [⟨.response .stream, o⟩]) = 1 := by rw [pumps_append, hq]; rfl
    exact ⟨Nat.le_of_eq hp, fun _ => hp, fun _ => .inl hp, hh⟩
  | idle =>
    refine ⟨Nat.le_trans (Nat.le_of_eq hq) (Nat.zero_le 1), fun h => (by cases h), ?_, hh⟩
    intro hs
    change s.anyStreaming = true at hs
    rw [hb] at hs
    cases hs
  | stopped notStarted =>
    refine ⟨Nat.le_trans (Nat.le_of_eq hq) (Nat.zero_le 1), ?_, ?_, hh⟩
    · intro h
      rw [notStarted] at h
      cases h
    · intro hs
      rcases stops notStarted with hz | hr
      · change (stopStreams a s).anyStreaming = true at hs
        rw [hz] at hs
        cases hs
      · exact .inr hr

/-- The pump's own turn, with the pump taken off the queue. -/
theorem Responds.stream_onePump {o : Nat} {s t : State S} (h : Responds L a o s .stream t)
    (hq : pumps s.queue = 0)
    (hh : ∀ h, s.responseEvent.successHandler = some h → h ≠ .response .stream)
    (stops : s.processingResponse = false →
      s.streamingStarted = false ∨ Drops L a ⟨.response .stream, o⟩ s →
      (stopStreams a s).anyStreaming = false ∨ Restarting s.queue) : OnePump t := by
  cases h with
  | busy =>
    have hp : pumps (s.queue ++ [⟨.response .stream, o⟩]) = 1 := by rw [pumps_append, hq]; rfl
    exact ⟨Nat.le_of_eq hp, fun _ => hp, fun _ => .inl hp, hh⟩
  | answered _ own => cases own
  | quiet free nothing ends =>
    refine ends.onePump a hq rfl (fun h hh => by cases hh) fun hs => ?_
    rcases stops free (.inl hs) with h | h
    · exact .inl (stopStreams_anyStreaming a h rfl rfl)
    · exact .inr h
  | streamed free some sends ends =>
    obtain ⟨es, hq', hes, -, hb, hsa, hh', hfail⟩ := sends.adds L a (fun h hh => by cases hh)
    refine ends.onePump a ?_ ?_ hh' fun hs => ?_
    · rw [hq', pumps_append, hes]
      exact hq
    · unfold State.anyStreaming
      rw [hb]
      rfl
    · have hs' : s.streamingStarted = false ∨ Drops L a ⟨.response .stream, o⟩ s := by
        rcases hfail hs with h | h
        · exact .inl h
        · refine .inr (by_contra fun hd => ?_)
          exact not_sendFails_prepare L a hd free (by simp [responseToSend, some]) rfl h
      rcases stops free hs' with h | h
      · exact .inl (stopStreams_anyStreaming a h hsa hb)
      · exact .inr (hq' ▸ h.append es)

/-- A request handler; `hz` is about starting a stream, `hd` about the other requests. -/
theorem Handles.onePump {o : Nat} {s t : State S} {r : RequestType} (h : Handles L a o s r t)
    (hm : pumps s.queue ≤ 1) (hst : s.streamingStarted = true → pumps s.queue = 1)
    (hh : ∀ h, s.responseEvent.successHandler = some h → h ≠ .response .stream)
    (hz : (Handler.request r).startsStream = true → a.samplingStart.toBool = true →
      s.streamingStarted = false → pumps s.queue = 0)
    (hd : (Handler.request r).startsStream = false → OnePump s) : OnePump t := by
  cases h with
  | @retried _ calls u =>
    cases hr : (Handler.request r).startsStream with
    | true =>
      have hp : pumps (s.queue ++ [⟨.request r, o⟩]) = pumps s.queue := by
        rw [pumps_append]
        rfl
      exact ⟨hp ▸ hm, fun h => hp ▸ hst h,
        fun _ => .inr ⟨⟨.request r, o⟩, List.mem_append_right _ (List.mem_singleton.mpr rfl), hr⟩, hh⟩
    | false => exact (hd hr).mono rfl rfl id (fun _ hk => hk) hh
  | @answered _ q _ _ answer =>
    have hr : (Handler.request r).startsStream = false := by cases r <;> first | rfl | cases answer
    have hq : ResponseType.stream ≠ q := by cases r <;> cases answer <;> simp
    exact (hd hr).mono rfl (pumps_cons_other (by simp [hq.symm]) []) id (fun _ hk => hk) hh
  | dropped => exact (hd rfl).mono (List.append_nil _).symm rfl (fun h => by cases h) (fun _ hk => hk) hh
  | found => exact (hd rfl).mono rfl rfl id (fun _ hk => hk) hh
  | joins ok started =>
    have hp : pumps (s.queue ++ [⟨.processReceiveNotification, 0⟩]) = 1 := by
      rw [pumps_append, hst started]
      rfl
    exact ⟨Nat.le_of_eq hp, fun _ => hp, fun _ => .inl hp, hh⟩
  | starts ok stopped =>
    have hp : pumps (s.queue ++
        [⟨.response .stream, o⟩, ⟨.processReceiveNotification, 0⟩]) = 1 := by
      rw [pumps_append, hz rfl ok stopped]
      rfl
    exact ⟨Nat.le_of_eq hp, fun _ => hp, fun _ => .inl hp, hh⟩
  | finished immediate cleared =>
    have hr : (Handler.request r).startsStream = false := by
      cases r <;> first | rfl | cases immediate
    exact (hd hr).mono rfl rfl id cleared hh
  | tested => exact (hd rfl).mono rfl rfl id (fun _ hk => hk) hh

/-- The handler that the main loop is about to run. -/
def State.nextHandler (s : State S) : Option Handler :=
  match s.stage with
  | .idle => s.queue.head?.map Event.handler
  | .handle _ r => some (.request r)
  | _ => none

/-- No stream is started while `streaming_started` is clear and a pump is still queued; and when
the pump ends its turn with the flag clear, the `sampling_stop_*` calls leave no stream running
unless a start request is being retried. -/
def KeepsPump (s : State S) : Action S → Prop
  | .dispatch a =>
    ((∃ h ∈ s.nextHandler, h.startsStream = true) → a.samplingStart.toBool = true →
      s.streamingStarted = false → pumps s.queue = 0) ∧
    (s.stage = .idle → s.processingResponse = false →
      ∀ e ∈ s.queue.head?, e.handler = .response .stream →
        s.streamingStarted = false ∨ Drops L a e s →
        (stopStreams a s).anyStreaming = false ∨ Restarting s.queue)
  | _ => True

instance (s : State S) : ∀ x, Decidable (KeepsPump L s x)
  | .dispatch a => inferInstanceAs (Decidable
      (((∃ h ∈ s.nextHandler, h.startsStream = true) → a.samplingStart.toBool = true →
        s.streamingStarted = false → pumps s.queue = 0) ∧
      (s.stage = .idle → s.processingResponse = false →
        ∀ e ∈ s.queue.head?, e.handler = .response .stream →
          s.streamingStarted = false ∨ Drops L a e s →
          (stopStreams a s).anyStreaming = false ∨ Restarting s.queue)))
  | .packet _ _ _ => .isTrue trivial
  | .connect => .isTrue trivial
  | .disconnect => .isTrue trivial
  | .samplingTimeout _ _ _ => .isTrue trivial
  | .awaitTimeout => .isTrue trivial
  | .store _ => .isTrue trivial

/-- Taking an event off the queue that is neither the pump nor a start request. -/
theorem OnePump.pop {s : State S} {e : Event} {es : List Event} (hs : OnePump s)
    (hq : s.queue = e :: es) (he : e.handler ≠ .response .stream)
    (hn : e.handler.startsStream = false) : OnePump { s with queue := es } := by
  have hp : pumps s.queue = pumps es := by rw [hq, pumps_cons_other he]
  refine ⟨hp ▸ hs.atMost, fun h => hp ▸ hs.started h, fun h => ?_, hs.success⟩
  refine (hs.drained h).imp (fun h1 => hp ▸ h1) fun ⟨e', hmem, hst⟩ => ?_
  rw [hq, List.mem_cons] at hmem
  rcases hmem with rfl | hmem
  · rw [hn] at hst
    cases hst
  · exact ⟨e', hmem, hst⟩

theorem Restarting.pop {e : Event} {es : List Event} (h : Restarting (e :: es))
    (hn : e.handler.startsStream = false) : Restarting es := by
  obtain ⟨e', hmem, hst⟩ := h
  rcases List.mem_cons.mp hmem with rfl | hmem
  · rw [hn] at hst
    cases hst
  · exact ⟨e', hmem, hst⟩

theorem Runs.onePump {e : Event} {es : List Event} {s t : State S} (hs : OnePump s)
    (hi : s.stage = .idle) (hq : s.queue = e :: es) (h : Runs L a e { s with queue := es } t)
    (hx : KeepsPump L s (.dispatch a)) : OnePump t := by
  obtain ⟨hstart, hstop⟩ := hx
  have hhead : e ∈ s.queue.head? := by rw [hq]; rfl
  cases h with
  | waits process =>
    have hs' := hs.pop hq (by simp [process]) (by simp [process, Handler.startsStream])
    exact hs'.mono rfl rfl id (fun _ hk => hk) hs'.success
  | rests process => exact hs.pop hq (by simp [process]) (by simp [process, Handler.startsStream])
  | begins process =>
    have hs' := hs.pop hq (by simp [process]) (by simp [process, Handler.startsStream])
    exact hs'.mono (List.append_nil _).symm rfl id (fun _ hk => hk) hs'.success
  | sends send run =>
    exact (hs.pop hq (by simp [send]) (by simp [send, Handler.startsStream])).sends L a run
  | @handles r _ request run =>
    have hp : pumps s.queue = pumps es := by rw [hq, pumps_cons_other (by simp [request])]
    refine run.onePump L a (hp ▸ hs.atMost) (fun h => hp ▸ hs.started h) hs.success ?_ ?_
    · intro hr hok hf
      refine hp ▸ hstart ⟨.request r, ?_, hr⟩ hok hf
      simp [State.nextHandler, hi, hq, request]
    · intro hr
      exact hs.pop hq (by simp [request]) (by rw [request]; exact hr)
  | @responds r _ response run =>
    by_cases hr : r = .stream
    · subst hr
      have hp : pumps s.queue = pumps es + 1 := by rw [hq, pumps_cons_pump response]
      have hm := hs.atMost
      refine run.stream_onePump L a (by change pumps es = 0; omega) hs.success ?_
      intro free hd
      have hd' : s.streamingStarted = false ∨ Drops L a e s := by
        refine hd.imp_right fun ⟨hfree, m, hm, hf⟩ => ?_
        obtain ⟨h, o⟩ := e
        cases response
        exact ⟨hfree, m, hm, hf⟩
      have hstops := hstop hi free e hhead response hd'
      rcases hstops with h | h
      · exact .inl (stopStreams_anyStreaming a h rfl rfl)
      · rw [hq] at h
        exact .inr (h.pop (by simp [response, Handler.startsStream]))
    · have hs' := hs.pop hq (by simp [response, hr]) (by simp [response, Handler.startsStream])
      exact run.onePump L a hs' hr

theorem Continues.onePump {s t : State S} (hs : OnePump s) (h : Continues L a s t)
    (hx : KeepsPump L s (.dispatch a)) : OnePump t := by
  have same {t : State S} (hq : t.queue = s.queue)
      (hst : t.streamingStarted = true → s.streamingStarted = true)
      (hb : t.streaming = s.streaming) (he : t.responseEvent = s.responseEvent) : OnePump t :=
    hs.mono (hq.trans (List.append_nil _).symm) rfl hst (fun k hk => hb ▸ hk) (he ▸ hs.success)
  cases h with
  | waits => exact hs
  | rejects => exact same rfl (fun h => by cases h) rfl rfl
  | loses => exact same rfl (fun h => by cases h) rfl rfl
  | lacks => exact same rfl (fun h => by cases h) rfl rfl
  | @handles c r _ stage run =>
    refine run.onePump L a hs.atMost hs.started hs.success ?_ fun _ => same rfl id rfl rfl
    intro hr hok hf
    exact hx.1 ⟨.request r, by simp [State.nextHandler, stage], hr⟩ hok hf
  | _ => exact same rfl id rfl rfl

theorem onReceiveCallback_onePump (data : List UInt8) (ticks : Nat) (timestamp : Timestamp)
    {s : State S} (hs : OnePump s) : OnePump (s.onReceiveCallback data ticks timestamp) := by
  unfold State.onReceiveCallback State.receiveNotificationHandler
  split
  · exact hs.mono rfl rfl id (fun _ hk => hk) hs.success
  · exact hs.mono (List.append_nil _).symm rfl id (fun _ hk => hk) hs.success

theorem step_onePump (s : State S) (x : Action S) (hs : OnePump s) (hx : KeepsPump L s x) :
    OnePump (step L s x) := by
  have same {s t : State S} (hs : OnePump s) (hq : t.queue = s.queue)
      (hst : t.streamingStarted = true → s.streamingStarted = true)
      (hb : ∀ k, t.streaming k = true → s.streaming k = true)
      (he : t.responseEvent = s.responseEvent) : OnePump t :=
    hs.mono (hq.trans (List.append_nil _).symm) rfl hst hb (he ▸ hs.success)
  refine step_keeps L (C := KeepsPump L) ?_ ?_ ?_ ?_ ?_ ?_ ?_ ?_ s x hs hx
  · intro s data ticks timestamp hs _
    exact onReceiveCallback_onePump data ticks timestamp hs
  · intro s hs _
    exact same hs rfl id (fun _ hk => hk) rfl
  · intro s hs _
    exact same hs rfl id (fun _ hk => hk) rfl
  · intro s f g hs hg
    exact same hs rfl id hg rfl
  · intro s c hs _ _
    exact same hs rfl (fun h => by cases h) (fun _ hk => hk) rfl
  · intro s t hs _
    exact same hs rfl id (fun _ hk => hk) rfl
  · intro s a e es t hs hx idle queue run
    exact run.onePump L a hs idle queue hx
  · intro s a t hs hx _ run
    exact run.onePump L a hs hx

theorem onePump_init (t : S) : OnePump (State.init t) :=
  ⟨Nat.zero_le 1, fun h => (by cases h), fun h => (by cases h), fun h hh => (by cases hh)⟩

/-- In every run that keeps to the condition, the queue holds at most one pump, exactly one
while `streaming_started` is set, and one, or the retry of a start request, while a stream
runs. -/
theorem one_stream_pump (t : S) (as : List (Action S))
    (h : Along (step L) (KeepsPump L) (State.init t) as) :
    pumps (run (step L) (State.init t) as).queue ≤ 1 ∧
    ((run (step L) (State.init t) as).streamingStarted = true →
      pumps (run (step L) (State.init t) as).queue = 1) ∧
    ((∃ k, (run (step L) (State.init t) as).streaming k = true) →
      pumps (run (step L) (State.init t) as).queue = 1 ∨
      Restarting (run (step L) (State.init t) as).queue) := by
  have hs := run_invariant (step_onePump L) (onePump_init t) h
  refine ⟨hs.atMost, hs.started, fun ⟨k, hk⟩ => hs.drained ?_⟩
  by_contra hany
  have hz := anyStreaming_eq_false.mp (by simpa using hany) k
  rw [hk] at hz
  cases hz

/-- A running stream, a data response that waits for the FIFO, and behind it the retry of a
second start request. -/
def retriedStream : List (Action Unit) :=
  [.connect, .packet (zeroRequest 17 10) 7 default] ++ List.replicate 8 (.dispatch .success) ++
    [.packet (zeroRequest 12 6) 8 default] ++
    List.replicate 12 (.dispatch { Answers.success with
      samplingStart := .error .internal
      transmit := .error .noMem }) ++
    [.packet (zeroRequest 17 10) 9 default] ++
    List.replicate 9 (.dispatch { Answers.success with
      samplingStart := .error .internal
      transmit := .error .noMem })

theorem one_stream_pump_retry :
    (run (step (taggedLibraries (.error .notFound))) (State.init ())
      retriedStream).streamingStarted = true ∧
    pumps (run (step (taggedLibraries (.error .notFound))) (State.init ())
      retriedStream).queue = 1 := by
  have hst : (run (step (taggedLibraries (.error .notFound))) (State.init ())
    retriedStream).streamingStarted = true := by decide +kernel
  exact ⟨hst, (one_stream_pump (taggedLibraries (.error .notFound)) () retriedStream
    (by decide +kernel)).2.1 hst⟩

/-- The client disconnects: giving up the data response clears `streaming_started` with the pump
still queued, and the retried start request puts a second one. -/
def secondPump : List (Action Unit) :=
  retriedStream ++ .disconnect :: List.replicate 3 (.dispatch .success)

/-- The pump gives up its response, and the accelerometer call that would stop the stream
fails. -/
def orphanStream : List (Action Unit) :=
  [.connect, .packet (zeroRequest 21 14) 7 default] ++ List.replicate 8 (.dispatch .success) ++
    [.disconnect, .dispatch { Answers.success with
      streams := { (default : Streams) with accelerometer := [[1]] }
      stopAccelerometerMode := .error .internal }]

theorem stream_pump_lost :
    pumps (run (step (taggedLibraries (.error .notFound))) (State.init ()) secondPump).queue = 2 ∧
    (run (step (taggedLibraries (.error .notFound))) (State.init ())
      orphanStream).streaming .accelerometer = true ∧
    pumps (run (step (taggedLibraries (.error .notFound))) (State.init ())
      orphanStream).queue = 0 ∧
    ¬ Restarting (run (step (taggedLibraries (.error .notFound))) (State.init ())
      orphanStream).queue := by
  decide +kernel

end OpenBadge.RequestHandler
