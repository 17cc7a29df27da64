import OpenBadge.RequestHandler.Release

/-!
# Who owns the request event

`request_event` is one global for all request handlers. While
`processing_receive_notification` is set, exactly one queued event works on it,
a request handler or the response handler that still needs what was taken down
with the request. This is kept as long as `send_response` does not give up while
the flag is set.
-/

namespace OpenBadge.RequestHandler

open OpenBadge.Lib

variable {S : Type} (L : Libraries S) (a : Answers)

/-- The handlers that keep `processing_receive_notification` set. -/
def Handler.owns : Handler → Bool
  | .request _ => true
  | .response .status => true
  | .response (.start _) => true
  | _ => false

def owners (es : List Event) : List Event := es.filter fun e => e.handler.owns

@[simp] theorem owners_append (es es' : List Event) : owners (es ++ es') = owners es ++ owners es' :=
  List.filter_append ..

theorem owns_of_answer {r : RequestType} {q : ResponseType} (h : r.answer = some q) :
    (Handler.response q).owns = true := by
  cases r <;> cases h <;> rfl

/-- `request_event` holds the request `r` with number `o`, as it was taken. -/
def State.Holds (s : State S) (o : Nat) (r : RequestType) : Prop :=
  o = s.serial ∧ s.requestEvent.request.whichType = r.tag ∧
    ∃ c, .taken o r c s.requestEvent.request ∈ s.trace ∧
      c.notification.ticks = s.requestEvent.timepointTicks

/-- The event works on the request in `request_event`. -/
def State.Serves (s : State S) (e : Event) : Prop :=
  ∃ r, s.Holds e.origin r ∧
    (e.handler = .request r ∨ ∃ q, r.answer = some q ∧ e.handler = .response q)

structure Owned (s : State S) : Prop where
  free : s.processingReceiveNotification = false → s.stage = .idle ∧ owners s.queue = []
  running : s.stage ≠ .idle → owners s.queue = []
  held : s.processingReceiveNotification = true → s.stage = .idle →
    ∃ e, owners s.queue = [e] ∧ s.Serves e
  handle : ∀ c r, s.stage = .handle c r → s.requestEvent.request.whichType = r.tag ∧
    c.notification.ticks = s.requestEvent.timepointTicks
  success : ∀ h, s.responseEvent.successHandler = some h → h.owns = false

theorem State.Holds.mono {s t : State S} {o : Nat} {r : RequestType} (h : s.Holds o r)
    (hs : t.serial = s.serial) (hr : t.requestEvent = s.requestEvent)
    (ht : ∀ x ∈ s.trace, x ∈ t.trace) : t.Holds o r := by
  obtain ⟨ho, hw, c, hc, hn⟩ := h
  exact ⟨ho.trans hs.symm, hr ▸ hw, c, hr ▸ ht _ hc, hr ▸ hn⟩

theorem State.Serves.mono {s t : State S} {e : Event} (h : s.Serves e)
    (hs : t.serial = s.serial) (hr : t.requestEvent = s.requestEvent)
    (ht : ∀ x ∈ s.trace, x ∈ t.trace) : t.Serves e := by
  obtain ⟨r, hr', he⟩ := h
  exact ⟨r, hr'.mono hs hr ht, he⟩

/-- What does not touch the flag, the request event or the events that own it. -/
theorem Owned.mono {s t : State S} {es : List Event} (h : Owned s)
    (hp : t.processingReceiveNotification = s.processingReceiveNotification)
    (hst : t.stage = s.stage) (hq : t.queue = s.queue ++ es) (hes : owners es = [])
    (hs : t.serial = s.serial) (hr : t.requestEvent = s.requestEvent)
    (ht : ∀ x ∈ s.trace, x ∈ t.trace)
    (hh : ∀ h, t.responseEvent.successHandler = some h → h.owns = false) : Owned t := by
  have ho : owners t.queue = owners s.queue := by rw [hq, owners_append, hes, List.append_nil]
  constructor
  · intro hf
    rw [ho, hst]
    exact h.free (hp ▸ hf)
  · intro hrun
    rw [ho]
    exact h.running (hst ▸ hrun)
  · intro hf hi
    obtain ⟨e, he, hse⟩ := h.held (hp ▸ hf) (hst ▸ hi)
    exact ⟨e, ho.trans he, hse.mono hs hr ht⟩
  · intro c r hc
    rw [hr]
    exact h.handle c r (hst ▸ hc)
  · exact hh

/-- A state between events in which nobody owns the request event. -/
theorem Owned.of_free {s : State S} (hp : s.processingReceiveNotification = false)
    (hi : s.stage = .idle) (ho : owners s.queue = [])
    (hh : ∀ h, s.responseEvent.successHandler = some h → h.owns = false) : Owned s := by
  refine ⟨fun _ => ⟨hi, ho⟩, fun h => absurd hi h, ?_, ?_, hh⟩
  · intro hp'
    rw [hp] at hp'
    cases hp'
  · intro c r hc
    rw [hi] at hc
    cases hc

/-- A state between events with one owner. -/
theorem Owned.of_held {s : State S} {e : Event} (hp : s.processingReceiveNotification = true)
    (hi : s.stage = .idle) (ho : owners s.queue = [e]) (hse : s.Serves e)
    (hh : ∀ h, s.responseEvent.successHandler = some h → h.owns = false) : Owned s := by
  refine ⟨?_, fun h => absurd hi h, fun _ _ => ⟨e, ho, hse⟩, ?_, hh⟩
  · intro hp'
    rw [hp] at hp'
    cases hp'
  · intro c r hc
    rw [hi] at hc
    cases hc

/-- The state that a request handler finds, at the first call and at every retry. -/
structure Entered (s : State S) (o : Nat) (r : RequestType) : Prop where
  processing : s.processingReceiveNotification = true
  idle : s.stage = .idle
  alone : owners s.queue = []
  holds : s.Holds o r
  success : ∀ h, s.responseEvent.successHandler = some h → h.owns = false

theorem owners_singleton {e : Event} (h : e.handler.owns = true) : owners [e] = [e] :=
  List.filter_cons_of_pos h

theorem Handles.owned {o : Nat} {s t : State S} {r : RequestType} (h : Handles L a o s r t)
    (hs : Entered s o r) : Owned t := by
  cases h with
  | retried =>
    refine .of_held (e := ⟨.request r, o⟩) hs.processing hs.idle ?_
      ⟨r, hs.holds.mono rfl rfl fun x hx => List.mem_append_right _ hx, .inl rfl⟩ hs.success
    change owners (s.queue ++ [_]) = _
    rw [owners_append, hs.alone, owners_singleton rfl]
    rfl
  | @answered _ q _ _ answer =>
    refine .of_held (e := ⟨.response q, o⟩) hs.processing hs.idle ?_
      ⟨r, hs.holds.mono rfl rfl fun x hx => List.mem_append_right _ hx, .inr ⟨q, answer, rfl⟩⟩
      hs.success
    change owners (s.queue ++ [_]) = _
    rw [owners_append, hs.alone, owners_singleton (owns_of_answer answer)]
    rfl
  | dropped => exact .of_free rfl hs.idle hs.alone hs.success
  | _ =>
    refine .of_free rfl hs.idle ?_ hs.success
    change owners (s.queue ++ _) = _
    rw [owners_append, hs.alone]
    rfl

theorem Sends.owned {s t : State S} (h : Sends L a s t) (hi : s.stage = .idle) (hs : Owned s)
    (hd : s.processingReceiveNotification = true → .error ∈ t.trace → ¬ SendFails L a s) :
    Owned t := by
  cases h with
  | dropped fails same =>
    have hp : s.processingReceiveNotification = false := by
      by_contra hp
      exact hd (by simpa using hp) List.mem_cons_self fails
    refine .of_free rfl hi (hs.free hp).2 fun h hh => hs.success h ?_
    rw [← same.2.1]
    exact hh
  | sent =>
    refine hs.mono rfl rfl rfl ?_ rfl rfl (fun x hx => List.mem_cons_of_mem _ hx) hs.success
    unfold ResponseEvent.next
    cases hh : s.responseEvent.successHandler with
    | none => rfl
    | some h => exact List.filter_cons_of_neg (by simp [hs.success h hh])
  | retried =>
    exact hs.mono rfl rfl rfl rfl rfl rfl (fun x hx => List.mem_cons_of_mem _ hx) hs.success

theorem StreamEnds.owned {o : Nat} {b : Bool} {s t : State S} (h : StreamEnds a s o b t)
    (hs : Owned s) : Owned t := by
  cases h with
  | pumped => exact hs.mono rfl rfl rfl rfl rfl rfl (fun _ hx => hx) hs.success
  | idle =>
    exact hs.mono rfl rfl (List.append_nil _).symm rfl rfl rfl (fun _ hx => hx) hs.success
  | stopped =>
    exact hs.mono rfl rfl (List.append_nil _).symm rfl rfl rfl (fun _ hx => hx) hs.success

theorem Sends.stage_eq {s t : State S} (h : Sends L a s t) : t.stage = s.stage := by
  cases h <;> rfl

theorem StreamEnds.trace_eq {o : Nat} {b : Bool} {s t : State S} (h : StreamEnds a s o b t) :
    t.trace = s.trace := by
  cases h <;> rfl

/-- Filling `response_event` for a data, stream or test response. -/
theorem Owned.prepare {s : State S} (hs : Owned s) (m : Response) (next : Option Handler) (o : Nat)
    (hn : ∀ h, next = some h → h.owns = false) (u : S) (b : Bool) :
    Owned ({ s with processingResponse := b, storer := u }.prepare m next o) :=
  hs.mono rfl rfl (List.append_nil _).symm rfl rfl rfl (fun _ hx => hx) hn

/-- A response that has just been prepared is given up for one of three reasons. -/
theorem SendFails.prepared {s : State S} {m : Response} {next : Option Handler} {o : Nat}
    (h : SendFails L a (s.prepare m next o)) : L.encode m = none ∨ s.connected = false ∨
      a.transmitFails = true := by
  rcases h with h | h | h | h
  · exact absurd h (Nat.not_lt_zero _)
  · exact .inl h
  · exact .inr (.inl h)
  · exact .inr (.inr h)

/-- The event that is about to send `m` does not give it up. -/
theorem not_sendFails_prepare {e : Event} {s s' : State S} {m : Response} {next : Option Handler}
    {o : Nat} (hd : ¬ Drops L a e s) (free : s.processingResponse = false)
    (hm : responseToSend L a e s = some m) (hc : s'.connected = s.connected) :
    ¬ SendFails L a (s'.prepare m next o) := by
  intro hf
  refine hd ⟨.inr free, m, hm, ?_⟩
  rcases hf.prepared with h | h | h
  · exact .inl h
  · exact .inr (.inl (hc ▸ h))
  · exact .inr (.inr (.inl h))

/-- A `send_response` event does not give up the pending response. -/
theorem not_sendFails_send {e : Event} {s : State S} (send : e.handler = .sendResponse)
    (hd : ¬ Drops L a e s) : ¬ SendFails L a s := by
  intro hf
  refine hd ⟨.inl send, s.responseEvent.response, by rw [responseToSend, send]; rfl, ?_⟩
  rcases hf with h | h | h | h
  · exact .inr (.inr (.inr ⟨send, h⟩))
  · exact .inl h
  · exact .inr (.inl h)
  · exact .inr (.inr (.inl h))

theorem Responds.owned {o : Nat} {r : ResponseType} {s t : State S} (h : Responds L a o s r t)
    (hi : s.stage = .idle)
    (own : (Handler.response r).owns = true → s.processingReceiveNotification = true ∧
      owners s.queue = [] ∧ s.Serves ⟨.response r, o⟩ ∧
      ∀ h, s.responseEvent.successHandler = some h → h.owns = false)
    (other : (Handler.response r).owns = false → Owned s)
    (hd : s.processingReceiveNotification = true → .error ∈ t.trace →
      (Handler.response r).owns = false → ¬ Drops L a ⟨.response r, o⟩ s) : Owned t := by
  cases h with
  | busy =>
    cases hr : (Handler.response r).owns with
    | true =>
      obtain ⟨hp, ho, hse, hh⟩ := own hr
      refine .of_held (e := ⟨.response r, o⟩) hp hi ?_ hse hh
      change owners (s.queue ++ [_]) = _
      rw [owners_append, ho, owners_singleton hr]
      rfl
    | false =>
      refine (other hr).mono rfl rfl rfl ?_ rfl rfl (fun _ hx => hx) (other hr).success
      exact List.filter_cons_of_neg (by simp [hr])
  | @answered _ m _ free hm sends =>
    have hr : (Handler.response r).owns = true := by
      cases r <;> first | rfl | cases hm
    obtain ⟨-, ho, -, -⟩ := own hr
    refine sends.owned L a hi ?_ ?_
    · refine .of_free rfl hi ?_ (fun _ h => by cases h)
      change owners (s.queue ++ _) = _
      rw [owners_append, ho]
      rfl
    · intro hp _
      cases hp
  | @chunk k c u _ free next sends =>
    refine sends.owned L a hi ((other rfl).prepare _ _ _ (fun h hh => by cases hh; rfl) u true) ?_
    intro hp herr
    exact not_sendFails_prepare L a (hd hp herr rfl) free (by simp [responseToSend, next]) rfl
  | @last k e u _ free next ends sends =>
    refine sends.owned L a hi ((other rfl).prepare _ _ _ (fun h hh => by cases hh) u true) ?_
    intro hp herr
    exact not_sendFails_prepare L a (hd hp herr rfl) free (by simp [responseToSend, next, ends]) rfl
  | @kept k e u free next fails =>
    have hs := (other rfl).prepare (.data k none) (some (.response (.data k))) o
      (fun h hh => by cases hh; rfl) u true
    exact hs.mono rfl rfl rfl rfl rfl rfl (fun _ hx => hx) hs.success
  | tested free sends =>
    refine sends.owned L a hi
      ((other rfl).prepare _ _ _ (fun h hh => by cases hh) s.storer true) ?_
    intro hp herr
    exact not_sendFails_prepare L a (hd hp herr rfl) free rfl rfl
  | quiet free nothing ends =>
    exact ends.owned a ((other rfl).prepare _ _ _ (fun h hh => by cases hh) s.storer false)
  | streamed free some sends ends =>
    refine ends.owned a (sends.owned L a hi
      ((other rfl).prepare _ _ _ (fun h hh => by cases hh) s.storer true) ?_)
    intro hp herr
    rw [← ends.trace_eq] at herr
    exact not_sendFails_prepare L a (hd hp herr rfl) free (by simp [responseToSend, some]) rfl

/-- Taking the next event off the queue takes the owner, or leaves it there. -/
theorem Owned.pop {s : State S} {e : Event} {es : List Event} (hs : Owned s)
    (hi : s.stage = .idle) (hq : s.queue = e :: es) :
    (e.handler.owns = true → s.processingReceiveNotification = true ∧ owners es = [] ∧
      s.Serves e) ∧
    (e.handler.owns = false → Owned { s with queue := es }) := by
  constructor
  · intro he
    have ho : owners s.queue = e :: owners es := by
      rw [hq]
      exact List.filter_cons_of_pos he
    cases hp : s.processingReceiveNotification with
    | false =>
      rw [(hs.free hp).2] at ho
      cases ho
    | true =>
      obtain ⟨x, hx, hse⟩ := hs.held hp hi
      rw [ho] at hx
      obtain ⟨rfl, hn⟩ := List.cons.inj hx
      exact ⟨rfl, hn, hse⟩
  · intro he
    have ho : owners s.queue = owners es := by
      rw [hq]
      exact List.filter_cons_of_neg (by simp [he])
    exact ⟨fun h => ho ▸ hs.free h, fun h => ho ▸ hs.running h, fun h h' => ho ▸ hs.held h h',
      hs.handle, hs.success⟩

theorem Owned.enter {s : State S} {o : Nat} {r : RequestType} {es : List Event} (hs : Owned s)
    (hi : s.stage = .idle) (hq : s.queue = ⟨.request r, o⟩ :: es) :
    Entered { s with queue := es } o r := by
  obtain ⟨hp, ho, r', hr', he⟩ := (hs.pop hi hq).1 rfl
  rcases he with he | ⟨q, -, he⟩
  · cases he
    exact ⟨hp, hi, ho, hr', hs.success⟩
  · cases he

theorem Runs.owned {e : Event} {es : List Event} {s t : State S} (hs : Owned s)
    (hi : s.stage = .idle) (hq : s.queue = e :: es) (h : Runs L a e { s with queue := es } t)
    (hd : s.processingReceiveNotification = true → .error ∈ t.trace → e.handler.owns = false →
      ¬ Drops L a e s) : Owned t := by
  obtain ⟨own, other⟩ := hs.pop hi hq
  cases h with
  | waits process =>
    have hs' := other (by rw [process]; rfl)
    exact hs'.mono rfl rfl rfl rfl rfl rfl (fun _ hx => hx) hs'.success
  | rests process => exact other (by rw [process]; rfl)
  | begins process free =>
    have ho := ((other (by rw [process]; rfl)).free free).2
    refine ⟨fun h => (by cases h), fun _ => ho, fun _ h => (by cases h), ?_, hs.success⟩
    intro c r hc
    cases hc
  | sends send run =>
    refine run.owned L a hi (other (by rw [send]; rfl)) ?_
    intro hp herr
    exact not_sendFails_send L a send (hd hp herr (by rw [send]; rfl))
  | @handles r _ request run =>
    obtain ⟨h, o⟩ := e
    cases request
    exact run.owned L a (hs.enter hi hq)
  | @responds r _ response run =>
    obtain ⟨h, o⟩ := e
    cases response
    refine run.owned L a hi ?_ other hd
    intro hr
    obtain ⟨hp, ho, hse⟩ := own hr
    exact ⟨hp, ho, hse, hs.success⟩

/-- `process_receive_notification` ends in an error: nobody owns the request event. -/
theorem Owned.abort {s : State S} (ho : owners s.queue = [])
    (hh : ∀ h, s.responseEvent.successHandler = some h → h.owns = false) : Owned (abort L s) :=
  .of_free rfl rfl ho hh

/-- `process_receive_notification` goes on before the request is known. -/
theorem Owned.proceed {s t : State S} (hs : Owned s) (hrun : s.stage ≠ .idle)
    (hp : t.processingReceiveNotification = s.processingReceiveNotification)
    (hq : t.queue = s.queue) (hrun' : t.stage ≠ .idle)
    (hh : t.responseEvent = s.responseEvent)
    (hc : ∀ c r, t.stage = .handle c r → t.requestEvent.request.whichType = r.tag ∧
      c.notification.ticks = t.requestEvent.timepointTicks) : Owned t := by
  have ho := hs.running hrun
  refine ⟨fun h => ?_, fun _ => hq ▸ ho, fun _ h => absurd h hrun', hc, hh ▸ hs.success⟩
  exact absurd (hs.free (hp ▸ h)).1 hrun

theorem Continues.owned {s t : State S} (hs : Owned s) (hrun : s.stage ≠ .idle)
    (h : Continues L a s t) : Owned t := by
  have ho := hs.running hrun
  cases h with
  | waits => exact hs
  | decodes stage accepted known =>
    refine hs.proceed hrun rfl rfl (by simp) rfl ?_
    intro c r hc
    cases hc
    exact ⟨(tag_of_findRequestHandler known).symm, rfl⟩
  | rejects => exact .abort L ho hs.success
  | loses => exact .abort L ho hs.success
  | lacks => exact .abort L ho hs.success
  | @handles c r _ stage run =>
    obtain ⟨hw, hn⟩ := hs.handle c r stage
    have hp : s.processingReceiveNotification = true := by
      by_contra hp
      exact hrun (hs.free (by simpa using hp)).1
    exact run.owned L a ⟨hp, rfl, ho, ⟨rfl, hw, c, List.mem_cons_self, hn⟩, hs.success⟩
  | _ => exact hs.proceed hrun rfl rfl (by simp) rfl (by simp)

/-- No event but the owner of `request_event` gives up its response while
`processing_receive_notification` is set. -/
def KeepsRequest (s : State S) : Action S → Prop
  | .dispatch a => s.stage = .idle → s.processingReceiveNotification = true →
      ∀ e ∈ s.queue.head?, e.handler.owns = false → ¬ Drops L a e s
  | _ => True

instance (s : State S) : ∀ x, Decidable (KeepsRequest L s x)
  | .dispatch a => inferInstanceAs (Decidable (s.stage = .idle →
      s.processingReceiveNotification = true →
      ∀ e ∈ s.queue.head?, e.handler.owns = false → ¬ Drops L a e s))
  | .packet _ _ _ => .isTrue trivial
  | .connect => .isTrue trivial
  | .disconnect => .isTrue trivial
  | .samplingTimeout _ _ _ => .isTrue trivial
  | .awaitTimeout => .isTrue trivial
  | .store _ => .isTrue trivial

theorem onReceiveCallback_owned (data : List UInt8) (ticks : Nat) (timestamp : Timestamp)
    {s : State S} (hs : Owned s) : Owned (s.onReceiveCallback data ticks timestamp) := by
  unfold State.onReceiveCallback State.receiveNotificationHandler
  split
  · exact hs.mono rfl rfl rfl rfl rfl rfl (fun x hx => List.mem_cons_of_mem _ hx) hs.success
  · exact hs.mono rfl rfl (List.append_nil _).symm rfl rfl rfl
      (fun x hx => List.mem_cons_of_mem _ hx) hs.success

theorem step_owned (s : State S) (x : Action S) (hs : Owned s) (hx : KeepsRequest L s x) :
    Owned (step L s x) := by
  refine step_keeps L (C := KeepsRequest L) ?_ ?_ ?_ ?_ ?_ ?_ ?_ ?_ s x hs hx
  · intro s data ticks timestamp hs _
    exact onReceiveCallback_owned data ticks timestamp hs
  · intro s hs _
    exact hs.mono rfl rfl (List.append_nil _).symm rfl rfl rfl
      (fun x hx => List.mem_cons_of_mem _ hx) hs.success
  · intro s hs _
    exact hs.mono rfl rfl (List.append_nil _).symm rfl rfl rfl
      (fun x hx => List.mem_cons_of_mem _ hx) hs.success
  · intro s f g hs _
    exact hs.mono rfl rfl (List.append_nil _).symm rfl rfl rfl (fun _ hx => hx) hs.success
  · intro s c hs _ hc
    have hrun : s.stage ≠ .idle := by
      rcases hc with h | ⟨len, h⟩ <;> simp [h]
    exact .abort L (hs.running hrun) hs.success
  · intro s t hs _
    exact hs.mono rfl rfl (List.append_nil _).symm rfl rfl rfl (fun _ hx => hx) hs.success
  · intro s a e es t hs hx idle queue run
    exact run.owned L a hs idle queue fun hp _ he => hx idle hp e (by rw [queue]; rfl) he
  · intro s a t hs _ running run
    exact run.owned L a hs running

theorem owned_init (t : S) : Owned (State.init t) :=
  .of_free rfl rfl rfl fun h hh => by cases hh

theorem mem_owners {e : Event} {es : List Event} (h : e ∈ es) (he : e.handler.owns = true) :
    e ∈ owners es := List.mem_filter.mpr ⟨h, he⟩

/-- In every run in which no other event gives up its response while a request is being
processed, every queued request handler is that of the request in `request_event`, taken with
that number; and so is the handler that is about to be called first. -/
theorem request_handler_own_request (t : S) (as : List (Action S))
    (h : Along (step L) (KeepsRequest L) (State.init t) as) :
    (∀ e ∈ (run (step L) (State.init t) as).queue, ∀ r, e.handler = .request r →
      (run (step L) (State.init t) as).Holds e.origin r) ∧
    ∀ c r, (run (step L) (State.init t) as).stage = .handle c r →
      (run (step L) (State.init t) as).requestEvent.request.whichType = r.tag ∧
      ∀ e ∈ (run (step L) (State.init t) as).queue, ∀ r', e.handler ≠ .request r' := by
  have hs := run_invariant (step_owned L) (owned_init t) h
  generalize run (step L) (State.init t) as = s at hs
  constructor
  · intro e he r hr
    have hmem := mem_owners he (by rw [hr]; rfl)
    have hi : s.stage = .idle := by
      by_contra hi
      rw [hs.running hi] at hmem
      cases hmem
    have hp : s.processingReceiveNotification = true := by
      by_contra hp
      rw [(hs.free (by simpa using hp)).2] at hmem
      cases hmem
    obtain ⟨x, hx, r', hr', hxr⟩ := hs.held hp hi
    rw [hx, List.mem_singleton] at hmem
    subst hmem
    rw [hr] at hxr
    rcases hxr with hxr | ⟨q, -, hxr⟩
    · cases hxr
      exact hr'
    · cases hxr
  · intro c r hc
    refine ⟨(hs.handle c r hc).1, fun e he r' hr' => ?_⟩
    have hmem := mem_owners he (by rw [hr']; rfl)
    rw [hs.running (by simp [hc])] at hmem
    cases hmem

/-- A data request whose answer waits for the FIFO, and behind it a start request whose driver
call fails. -/
def retriedStart : List (Action Unit) :=
  [.connect, .packet (zeroRequest 12 6) 7 default] ++ List.replicate 8 (.dispatch .success) ++
    [.packet (zeroRequest 2 10) 8 default,
      .dispatch { Answers.success with transmit := .error .noMem }] ++
    List.replicate 9 (.dispatch { Answers.success with samplingStart := .error .internal })

theorem request_handler_own_request_retry :
    ⟨.request (.start .microphone), 2⟩ ∈ (run (step (taggedLibraries (.error .notFound)))
      (State.init ()) retriedStart).queue ∧
    (run (step (taggedLibraries (.error .notFound))) (State.init ()) retriedStart).Holds 2
      (.start .microphone) := by
  have hmem : ⟨.request (.start .microphone), 2⟩ ∈ (run (step (taggedLibraries
    (.error .notFound))) (State.init ()) retriedStart).queue := by decide +kernel
  exact ⟨hmem, (request_handler_own_request (taggedLibraries (.error .notFound)) ()
    retriedStart (by decide +kernel)).1 _ hmem _ rfl⟩

/-- The client disconnects while the start request is being retried. Giving up the data
response releases the request event, the client comes back with an identify request, and the
start handler is the next to run, on the identify request. -/
def staleRetry : List (Action Unit) :=
  retriedStart ++
    [.disconnect, .dispatch { Answers.success with samplingStart := .error .internal }, .connect,
      .packet (zeroRequest 27 2) 9 default] ++
    List.replicate 10 (.dispatch { Answers.success with samplingStart := .error .internal })

theorem stale_request_handler :
    (run (step (taggedLibraries (.error .notFound))) (State.init ()) staleRetry).stage = .idle ∧
    (run (step (taggedLibraries (.error .notFound))) (State.init ()) staleRetry).queue.head? =
      some ⟨.request (.start .microphone), 2⟩ ∧
    (run (step (taggedLibraries (.error .notFound))) (State.init ()) staleRetry).serial = 3 ∧
    (run (step (taggedLibraries (.error .notFound))) (State.init ())
      staleRetry).requestEvent.request.whichType = RequestType.identify.tag := by
  decide +kernel

end OpenBadge.RequestHandler
