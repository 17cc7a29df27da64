import OpenBadge.RequestHandler.Timing

/-!
# Status and start requests are answered in order

The timestamp and the clock status for the answer are taken down with the
request in two globals, the answer itself in a third. As long as no error drops
the connection, the requests that were taken are those that were answered, then
the one whose response waits to be sent, then the one that is being processed.
-/

namespace OpenBadge.RequestHandler

open OpenBadge.Lib

variable {S : Type} (L : Libraries S) (a : Answers)

/-- What the answer to a status or start request says about the request. -/
structure Stamp where
  type : ResponseType
  timestamp : Timestamp
  clockStatus : Option Bool
  deriving DecidableEq

def Response.stamp : Response → Option Stamp
  | .status r => some ⟨.status, r.timestamp, some r.clockStatus⟩
  | .start k timestamp => some ⟨.start k, timestamp, none⟩
  | _ => none

/-- The answer that is due, with what was taken down. -/
def ResponseType.stamp (timestamp : Timestamp) (clock : Bool) : ResponseType → Option Stamp
  | .status => some ⟨.status, timestamp, some clock⟩
  | .start k => some ⟨.start k, timestamp, none⟩
  | _ => none

def RequestType.stamp (timestamp : Timestamp) (clock : Bool) (r : RequestType) : Option Stamp :=
  r.answer.bind (ResponseType.stamp timestamp clock)

def Handler.stamp (timestamp : Timestamp) (clock : Bool) : Handler → Option Stamp
  | .request r => r.stamp timestamp clock
  | .response q => q.stamp timestamp clock
  | _ => none

/-- The stamp with the number of the request. -/
def numbered (o : Nat) (s : Option Stamp) : List (Nat × Stamp) := s.toList.map fun x => (o, x)

def Entry.asked : Entry → List (Nat × Stamp)
  | .taken o r c _ => numbered o (r.stamp c.notification.timestamp c.clockStatus)
  | _ => []

def Entry.answered : Entry → List (Nat × Stamp)
  | .transmit o m _ true => numbered o m.stamp
  | _ => []

/-- The status and start requests in the order they were taken, each with the answer it is due:
its type, and the timestamp and clock status taken down with it. -/
def State.asked (s : State S) : List (Nat × Stamp) := gather Entry.asked s.trace

/-- The status and start responses in the order they were transmitted. -/
def State.answered (s : State S) : List (Nat × Stamp) := gather Entry.answered s.trace

/-- The pending `send_response` events. -/
def senders (es : List Event) : List Event := es.filter fun e => e.handler = .sendResponse

@[simp] theorem senders_append (es es' : List Event) :
    senders (es ++ es') = senders es ++ senders es' := List.filter_append ..

/-- The response in `response_event`. -/
def State.prepared (s : State S) : List (Nat × Stamp) :=
  numbered s.responseEvent.origin s.responseEvent.response.stamp

/-- The answer an event will lead to. -/
def State.due (s : State S) (e : Event) : List (Nat × Stamp) :=
  numbered e.origin (e.handler.stamp s.responseTimestamp s.responseClockStatus)

/-- What was taken down for the request at hand. -/
def Stage.taking : Stage → Option Capture
  | .handle c _ => some c
  | st => st.capture

structure InOrder (s : State S) : Prop where
  flag : senders s.queue = [] ∨
    s.processingResponse = true ∧ ∃ e, senders s.queue = [e]
  success : ∀ h, s.responseEvent.successHandler = some h → h ≠ .sendResponse
  taking : ∀ c, s.stage.taking = some c → c.notification.timestamp = s.responseTimestamp ∧
    c.clockStatus = s.responseClockStatus
  order : s.asked = s.answered ++ (senders s.queue).flatMap (fun _ => s.prepared) ++
    (owners s.queue).flatMap s.due

/-- Entries that neither take a request nor answer one. -/
theorem gather_calls {β : Type} {f : Entry → List β} {calls tr : List Entry}
    (only : ∀ e ∈ calls, e.isCall = true) (hf : ∀ e, e.isCall = true → f e = []) :
    gather f (calls ++ tr) = gather f tr := gather_append (fun e he => hf e (only e he)) tr

theorem asked_of_isCall (e : Entry) (h : e.isCall = true) : e.asked = [] := by
  cases e <;> first | rfl | cases h

theorem answered_of_isCall (e : Entry) (h : e.isCall = true) : e.answered = [] := by
  cases e <;> first | rfl | cases h

theorem senders_next {ev : ResponseEvent} (h : ∀ x, ev.successHandler = some x → x ≠ .sendResponse) :
    senders ev.next = [] := by
  unfold ResponseEvent.next
  split
  · next x hx => exact List.filter_cons_of_neg (by simpa using h x hx)
  · rfl

theorem owners_next {ev : ResponseEvent} (h : ∀ x, ev.successHandler = some x → x.owns = false) :
    owners ev.next = [] := by
  unfold ResponseEvent.next
  split
  · next x hx => exact List.filter_cons_of_neg (by simp [h x hx])
  · rfl

/-- The response in `response_event` is sent, or will be by the event that was put on the queue. -/
theorem Sends.inOrder {s t : State S} (h : Sends L a s t) (herr : .error ∉ t.trace)
    (hi : s.stage = .idle) (hp : s.processingResponse = true) (hsend : senders s.queue = [])
    (hs : ∀ x, s.responseEvent.successHandler = some x → x ≠ .sendResponse)
    (ho : ∀ x, s.responseEvent.successHandler = some x → x.owns = false)
    (hord : s.asked = s.answered ++ s.prepared ++ (owners s.queue).flatMap s.due) :
    InOrder t := by
  have hst {P : Capture → Prop} : ∀ c, s.stage.taking = some c → P c := by
    intro c hc
    rw [hi] at hc
    cases hc
  cases h with
  | dropped => exact absurd List.mem_cons_self herr
  | @sent bytes =>
    have hnone : senders (s.queue ++ s.responseEvent.next) = [] := by
      rw [senders_append, hsend, senders_next hs]
      rfl
    refine ⟨.inl hnone, hs, hst, ?_⟩
    change s.asked ++ [] = (s.answered ++ s.prepared) ++
      (senders (s.queue ++ s.responseEvent.next)).flatMap _ ++
      (owners (s.queue ++ s.responseEvent.next)).flatMap s.due
    rw [hnone, owners_append, owners_next ho, List.append_nil, List.append_nil, hord]
    simp
  | @retried bytes =>
    have hone : senders (s.queue ++ [⟨.sendResponse, s.responseEvent.origin⟩]) =
        [⟨.sendResponse, s.responseEvent.origin⟩] := by
      rw [senders_append, hsend]
      rfl
    refine ⟨.inr ⟨hp, _, hone⟩, hs, hst, ?_⟩
    change s.asked ++ [] = (s.answered ++ []) ++
      (senders (s.queue ++ [⟨.sendResponse, s.responseEvent.origin⟩])).flatMap
        (fun _ => s.prepared) ++
      (owners (s.queue ++ [⟨.sendResponse, s.responseEvent.origin⟩])).flatMap s.due
    have hown : owners [⟨.sendResponse, s.responseEvent.origin⟩] = [] := rfl
    rw [hone, owners_append, hown, List.append_nil, List.append_nil, List.append_nil, hord]
    simp

/-- Events that neither send nor own are added, and nothing is taken or answered. -/
theorem InOrder.mono {s t : State S} {es : List Event} (h : InOrder s)
    (hq : t.queue = s.queue ++ es) (hsend : senders es = []) (hown : owners es = [])
    (hp : t.processingResponse = s.processingResponse)
    (hr : t.responseEvent = s.responseEvent)
    (htime : t.responseTimestamp = s.responseTimestamp)
    (hclock : t.responseClockStatus = s.responseClockStatus)
    (hst : ∀ c, t.stage.taking = some c → s.stage.taking = some c)
    (hasked : t.asked = s.asked) (hanswered : t.answered = s.answered) : InOrder t := by
  have hs : senders t.queue = senders s.queue := by
    rw [hq, senders_append, hsend, List.append_nil]
  have ho : owners t.queue = owners s.queue := by
    rw [hq, owners_append, hown, List.append_nil]
  have hprep : t.prepared = s.prepared := by
    unfold State.prepared
    rw [hr]
  have hdue : t.due = s.due := by
    unfold State.due
    rw [htime, hclock]
  refine ⟨?_, ?_, ?_, ?_⟩
  · rw [hs, hp]
    exact h.flag
  · rw [hr]
    exact h.success
  · rw [htime, hclock]
    exact fun c hc => h.taking c (hst c hc)
  · rw [hasked, hanswered, hs, ho, hprep, hdue]
    exact h.order

theorem StreamEnds.inOrder {o : Nat} {b : Bool} {s t : State S} (h : StreamEnds a s o b t)
    (hs : InOrder s) : InOrder t := by
  cases h with
  | pumped => exact hs.mono rfl rfl rfl rfl rfl rfl rfl (fun _ h => h) rfl rfl
  | idle =>
    exact hs.mono (List.append_nil _).symm rfl rfl rfl rfl rfl rfl (fun _ h => h) rfl rfl
  | stopped =>
    exact hs.mono (List.append_nil _).symm rfl rfl rfl rfl rfl rfl (fun _ h => h) rfl rfl

/-- The event `e` was taken off the queue of a state that is in order. -/
structure Popped (s : State S) (e : Event) : Prop where
  idle : s.stage = .idle
  flag : senders s.queue = [] ∨ s.processingResponse = true ∧ ∃ x, senders s.queue = [x]
  success : ∀ h, s.responseEvent.successHandler = some h → h ≠ .sendResponse ∧ h.owns = false
  alone : e.handler.owns = true → owners s.queue = []
  order : s.asked = s.answered ++ (senders s.queue).flatMap (fun _ => s.prepared) ++ s.due e ++
    (owners s.queue).flatMap s.due

theorem due_of_not_owns (s : State S) {e : Event} (h : e.handler.owns = false) : s.due e = [] := by
  obtain ⟨x, o⟩ := e
  unfold State.due
  cases x with
  | processReceiveNotification => rfl
  | sendResponse => rfl
  | request r => cases h
  | response q => cases q <;> first | rfl | cases h

theorem Popped.senders_nil {s : State S} {e : Event} (h : Popped s e)
    (free : s.processingResponse = false) : senders s.queue = [] := by
  rcases h.flag with h | ⟨hp, -⟩
  · exact h
  · rw [free] at hp
    cases hp

theorem stamp_of_ownResponse {s : State S} {r : ResponseType} {m : Response}
    (h : ownResponse a s r = some m) :
    m.stamp = r.stamp s.responseTimestamp s.responseClockStatus := by
  cases r <;> first | (obtain rfl := Option.some.inj h; rfl) | cases h

/-- A data, stream or test response is prepared and sent; it answers no status or start request. -/
theorem Popped.sends {s t : State S} {r : ResponseType} {o : Nat} (hs : Popped s ⟨.response r, o⟩)
    (hr : (Handler.response r).owns = false) (free : s.processingResponse = false)
    {m : Response} {next : Option Handler} {u : S} (hm : m.stamp = none)
    (hn : ∀ h, next = some h → h ≠ .sendResponse ∧ h.owns = false)
    (sends : Sends L a ({ s with processingResponse := true, storer := u }.prepare m next o) t)
    (herr : .error ∉ t.trace) : InOrder t := by
  have hsend := hs.senders_nil free
  refine sends.inOrder L a herr hs.idle rfl hsend (fun h hh => (hn h hh).1)
    (fun h hh => (hn h hh).2) ?_
  have hord := hs.order
  rw [hsend, due_of_not_owns s hr] at hord
  change s.asked = s.answered ++ numbered o m.stamp ++ (owners s.queue).flatMap s.due
  rw [hm, hord]
  simp [numbered]

theorem Responds.inOrder {o : Nat} {r : ResponseType} {s t : State S} (h : Responds L a o s r t)
    (hs : Popped s ⟨.response r, o⟩) (herr : .error ∉ t.trace) : InOrder t := by
  have hst {P : Capture → Prop} : ∀ c, s.stage.taking = some c → P c := by
    intro c hc
    rw [hs.idle] at hc
    cases hc
  cases h with
  | busy =>
    have hsend : senders (s.queue ++ [⟨.response r, o⟩]) = senders s.queue := by
      rw [senders_append]
      exact List.append_nil _
    refine ⟨hsend ▸ hs.flag, fun h hh => (hs.success h hh).1, hst, ?_⟩
    change s.asked = s.answered ++ (senders (s.queue ++ [_])).flatMap (fun _ => s.prepared) ++
      (owners (s.queue ++ [_])).flatMap s.due
    rw [hsend, owners_append, hs.order]
    cases hr : (Handler.response r).owns with
    | true =>
      rw [hs.alone hr, owners_singleton hr]
      simp
    | false =>
      rw [due_of_not_owns s hr, show owners [⟨.response r, o⟩] = [] from
        List.filter_cons_of_neg (by simp [hr])]
      simp
  | @answered _ m _ free hm sends =>
    have hr : (Handler.response r).owns = true := by
      cases r <;> first | rfl | cases hm
    have hsend := hs.senders_nil free
    have hq : owners (s.queue ++ [⟨.processReceiveNotification, 0⟩]) = [] := by
      rw [owners_append, hs.alone hr]
      rfl
    refine sends.inOrder L a herr hs.idle rfl ?_ (fun h hh => by cases hh)
      (fun h hh => by cases hh) ?_
    · change senders (s.queue ++ [⟨.processReceiveNotification, 0⟩]) = []
      rw [senders_append, hsend]
      rfl
    · have hord := hs.order
      rw [hsend, hs.alone hr] at hord
      change s.asked = s.answered ++ numbered o m.stamp ++
        (owners (s.queue ++ [⟨.processReceiveNotification, 0⟩])).flatMap s.due
      rw [hq, stamp_of_ownResponse a hm, hord]
      simp [State.due, Handler.stamp]
  | chunk free _ sends =>
    exact hs.sends L a rfl free rfl (by rintro h ⟨⟩; exact ⟨by simp, rfl⟩) sends herr
  | last free _ _ sends =>
    exact hs.sends L a rfl free rfl (by rintro h ⟨⟩) sends herr
  | @kept k e u free =>
    have hsend := hs.senders_nil free
    have hnone : senders (s.queue ++ [⟨.response (.data k), o⟩]) = [] := by
      rw [senders_append, hsend]
      rfl
    refine ⟨.inl hnone, by rintro h ⟨⟩; simp, hst, ?_⟩
    have hord := hs.order
    rw [hsend, due_of_not_owns s rfl] at hord
    change s.asked = s.answered ++ (senders (s.queue ++ [_])).flatMap _ ++
      (owners (s.queue ++ [⟨.response (.data k), o⟩])).flatMap s.due
    rw [hnone, owners_append, show owners [⟨.response (.data k), o⟩] = [] from rfl, hord]
    simp
  | tested free sends =>
    exact hs.sends L a rfl free rfl (by rintro h ⟨⟩) sends herr
  | quiet free _ ends =>
    refine ends.inOrder a ⟨.inl (hs.senders_nil free), by rintro h ⟨⟩, hst, ?_⟩
    have hord := hs.order
    rw [hs.senders_nil free, due_of_not_owns s rfl] at hord
    change s.asked = s.answered ++ (senders s.queue).flatMap _ ++ (owners s.queue).flatMap s.due
    rw [hs.senders_nil free, hord]
    simp
  | streamed free _ sends ends =>
    rw [ends.trace_eq] at herr
    exact ends.inOrder a (hs.sends L a rfl free rfl (by rintro h ⟨⟩) sends herr)

theorem due_request (s : State S) (r : RequestType) (o : Nat) :
    s.due ⟨.request r, o⟩ = numbered o
      (r.answer.bind (ResponseType.stamp s.responseTimestamp s.responseClockStatus)) := rfl

/-- A request handler leaves the answer it is due to the event it puts on the queue. -/
theorem Popped.owned {s t : State S} {r : RequestType} {o : Nat} (hs : Popped s ⟨.request r, o⟩)
    {e : Event} {calls : List Entry} (he : e.handler.owns = true) (hq : t.queue = s.queue ++ [e])
    (htr : t.trace = calls ++ s.trace) (only : ∀ e ∈ calls, e.isCall = true)
    (hdue : s.due e = s.due ⟨.request r, o⟩)
    (hp : t.processingResponse = s.processingResponse)
    (hr : t.responseEvent = s.responseEvent)
    (htime : t.responseTimestamp = s.responseTimestamp)
    (hclock : t.responseClockStatus = s.responseClockStatus) (hi : t.stage = s.stage) :
    InOrder t := by
  have hne : e.handler ≠ .sendResponse := by
    intro h
    rw [h] at he
    cases he
  have hsend : senders t.queue = senders s.queue := by
    rw [hq, senders_append, show senders [e] = [] from
      List.filter_cons_of_neg (by simpa using hne), List.append_nil]
  have hown : owners t.queue = [e] := by
    rw [hq, owners_append, hs.alone rfl, owners_singleton he]
    rfl
  have hprep : t.prepared = s.prepared := by
    unfold State.prepared
    rw [hr]
  have hdue' : t.due e = s.due ⟨.request r, o⟩ := by
    unfold State.due at hdue ⊢
    rw [htime, hclock]
    exact hdue
  have hasked : t.asked = s.asked := by
    unfold State.asked
    rw [htr, gather_calls only asked_of_isCall]
  have hanswered : t.answered = s.answered := by
    unfold State.answered
    rw [htr, gather_calls only answered_of_isCall]
  refine ⟨?_, ?_, ?_, ?_⟩
  · rw [hsend, hp]
    exact hs.flag
  · rw [hr]
    exact fun h hh => (hs.success h hh).1
  · rw [hi, hs.idle]
    exact fun c hc => by cases hc
  · rw [hasked, hanswered, hsend, hown, hprep, hs.order, hs.alone rfl]
    simp [hdue']

/-- A request handler whose request is due no status or start response. -/
theorem Popped.freed {s t : State S} {r : RequestType} {o : Nat} (hs : Popped s ⟨.request r, o⟩)
    {es : List Event} {calls : List Entry} (hans : r.answer = none)
    (hq : t.queue = s.queue ++ es) (hsend : senders es = []) (hown : owners es = [])
    (htr : t.trace = calls ++ s.trace) (only : ∀ e ∈ calls, e.isCall = true)
    (hp : t.processingResponse = s.processingResponse)
    (hr : t.responseEvent = s.responseEvent)
    (htime : t.responseTimestamp = s.responseTimestamp)
    (hclock : t.responseClockStatus = s.responseClockStatus) (hi : t.stage = s.stage) :
    InOrder t := by
  have hnone : s.due ⟨.request r, o⟩ = [] := by
    rw [due_request, hans]
    rfl
  have hs' : InOrder s := by
    refine ⟨hs.flag, fun h hh => (hs.success h hh).1, ?_, ?_⟩
    · rw [hs.idle]
      exact fun c hc => by cases hc
    · rw [hs.order, hs.alone rfl, hnone]
      simp
  refine hs'.mono hq hsend hown hp hr htime hclock (fun c hc => hi ▸ hc) ?_ ?_
  · unfold State.asked
    rw [htr, gather_calls only asked_of_isCall]
  · unfold State.answered
    rw [htr, gather_calls only answered_of_isCall]

theorem Handles.inOrder {o : Nat} {r : RequestType} {s t : State S} (h : Handles L a o s r t)
    (hs : Popped s ⟨.request r, o⟩) (herr : .error ∉ t.trace) : InOrder t := by
  have nothing : ∀ e ∈ ([] : List Entry), e.isCall = true := fun e he => by cases he
  cases h with
  | retried _ only => exact hs.owned rfl rfl rfl only rfl rfl rfl rfl rfl rfl
  | @answered _ q _ _ answer only =>
    refine hs.owned (owns_of_answer answer) rfl rfl only ?_ rfl rfl rfl rfl rfl
    rw [due_request, answer]
    rfl
  | dropped => exact absurd List.mem_cons_self herr
  | found => exact hs.freed rfl rfl rfl rfl (List.nil_append _).symm nothing rfl rfl rfl rfl rfl
  | joins _ _ only => exact hs.freed rfl rfl rfl rfl rfl only rfl rfl rfl rfl rfl
  | starts _ _ only => exact hs.freed rfl rfl rfl rfl rfl only rfl rfl rfl rfl rfl
  | finished immediate =>
    exact hs.freed (answer_of_immediate immediate) rfl rfl rfl (List.nil_append _).symm nothing
      rfl rfl rfl rfl rfl
  | tested => exact hs.freed rfl rfl rfl rfl (List.nil_append _).symm nothing rfl rfl rfl rfl rfl

/-- Taking an event off the queue that is not a `send_response`. -/
theorem InOrder.pop {s : State S} {e : Event} {es : List Event} (hs : InOrder s) (ho : Owned s)
    (hi : s.stage = .idle) (hq : s.queue = e :: es) (he : e.handler ≠ .sendResponse) :
    Popped { s with queue := es } e := by
  have hsend : senders s.queue = senders es := by
    rw [hq]
    exact List.filter_cons_of_neg (by simpa using he)
  refine ⟨hi, hsend ▸ hs.flag, fun h hh => ⟨hs.success h hh, ho.success h hh⟩,
    fun hown => ((ho.pop hi hq).1 hown).2.1, ?_⟩
  have hord := hs.order
  rw [hsend] at hord
  change s.asked = s.answered ++ (senders es).flatMap (fun _ => s.prepared) ++ s.due e ++
    (owners es).flatMap s.due
  cases hown : e.handler.owns with
  | true =>
    rw [hord, hq, show owners (e :: es) = e :: owners es from List.filter_cons_of_pos hown]
    simp
  | false =>
    rw [due_of_not_owns s hown, hord, hq, show owners (e :: es) = owners es from
      List.filter_cons_of_neg (by simp [hown])]
    simp

theorem Runs.inOrder {e : Event} {es : List Event} {s t : State S} (hs : InOrder s) (ho : Owned s)
    (hi : s.stage = .idle) (hq : s.queue = e :: es) (h : Runs L a e { s with queue := es } t)
    (herr : .error ∉ t.trace) : InOrder t := by
  have rest (he : e.handler = .processReceiveNotification) : InOrder { s with queue := es } := by
    have hpop := hs.pop ho hi hq (by rw [he]; decide)
    refine ⟨hpop.flag, hs.success, hs.taking, ?_⟩
    rw [hpop.order, due_of_not_owns _ (by rw [he]; rfl)]
    simp
  cases h with
  | waits process =>
    exact (rest process).mono rfl rfl rfl rfl rfl rfl rfl (fun _ h => h) rfl rfl
  | rests process => exact rest process
  | begins process free =>
    have hs' := rest process
    have hnone : owners es = [] := ((ho.pop hi hq).2 (by rw [process]; rfl)).free free |>.2
    refine ⟨hs'.flag, hs'.success, ?_, ?_⟩
    · rintro c ⟨⟩
      exact ⟨rfl, rfl⟩
    · have hord := hs'.order
      change s.asked = s.answered ++ (senders es).flatMap (fun _ => s.prepared) ++
        (owners es).flatMap s.due at hord
      change s.asked = s.answered ++ (senders es).flatMap (fun _ => s.prepared) ++
        (owners es).flatMap _
      rw [hord, hnone]
      rfl
  | sends send run =>
    have hcons : senders s.queue = e :: senders es := by
      rw [hq]
      exact List.filter_cons_of_pos (by simpa using send)
    obtain ⟨hp, x, hx⟩ := hs.flag.resolve_left (by rw [hcons]; simp)
    have hnone : senders es = [] := by
      rw [hcons] at hx
      exact (List.cons.inj hx).2
    have hown : owners s.queue = owners es := by
      rw [hq]
      exact List.filter_cons_of_neg (by rw [send]; decide)
    refine run.inOrder L a herr hi hp hnone hs.success ho.success ?_
    have hord := hs.order
    rw [hcons, hnone, hown] at hord
    change s.asked = s.answered ++ s.prepared ++ (owners es).flatMap s.due
    rw [hord]
    simp
  | handles request run =>
    obtain ⟨h, o⟩ := e
    cases request
    exact run.inOrder L a (hs.pop ho hi hq (by simp)) herr
  | responds response run =>
    obtain ⟨h, o⟩ := e
    cases response
    exact run.inOrder L a (hs.pop ho hi hq (by simp)) herr

theorem Continues.inOrder {s t : State S} (hs : InOrder s) (ho : Owned s)
    (hrun : s.stage ≠ .idle) (h : Continues L a s t) (herr : .error ∉ t.trace) : InOrder t := by
  have proceed {t : State S} (hq : t.queue = s.queue)
      (hp : t.processingResponse = s.processingResponse)
      (hr : t.responseEvent = s.responseEvent)
      (htime : t.responseTimestamp = s.responseTimestamp)
      (hclock : t.responseClockStatus = s.responseClockStatus)
      (hst : t.stage.taking = s.stage.taking)
      (hasked : t.asked = s.asked) (hanswered : t.answered = s.answered) : InOrder t :=
    hs.mono (hq.trans (List.append_nil _).symm) rfl rfl hp hr htime hclock
      (fun c hc => hst ▸ hc) hasked hanswered
  cases h with
  | waits => exact hs
  | decodes stage =>
    exact proceed rfl rfl rfl rfl rfl (by rw [stage]; rfl) (List.append_nil _) (List.append_nil _)
  | rejects => exact absurd List.mem_cons_self herr
  | loses => exact absurd List.mem_cons_self herr
  | lacks => exact absurd List.mem_cons_self herr
  | @handles c r _ stage run =>
    have hnone := ho.running hrun
    obtain ⟨htime, hclock⟩ := hs.taking c (by rw [stage]; rfl)
    refine run.inOrder L a ⟨rfl, hs.flag, fun h hh => ⟨hs.success h hh, ho.success h hh⟩,
      fun _ => hnone, ?_⟩ herr
    change s.asked ++ numbered s.serial (r.stamp c.notification.timestamp c.clockStatus) =
      (s.answered ++ []) ++ (senders s.queue).flatMap (fun _ => s.prepared) ++
      s.due ⟨.request r, s.serial⟩ ++ (owners s.queue).flatMap s.due
    rw [htime, hclock, hs.order, hnone]
    simp [State.due, Handler.stamp]
  | asksHeader stage => exact proceed rfl rfl rfl rfl rfl (by rw [stage]; rfl) rfl rfl
  | readsHeader stage => exact proceed rfl rfl rfl rfl rfl (by rw [stage]; rfl) rfl rfl
  | asksData stage => exact proceed rfl rfl rfl rfl rfl (by rw [stage]; rfl) rfl rfl
  | readsData stage => exact proceed rfl rfl rfl rfl rfl (by rw [stage]; rfl) rfl rfl
  | consumes stage => exact proceed rfl rfl rfl rfl rfl (by rw [stage]; rfl) rfl rfl

theorem onReceiveCallback_inOrder (data : List UInt8) (ticks : Nat) (timestamp : Timestamp)
    {s : State S} (hs : InOrder s) : InOrder (s.onReceiveCallback data ticks timestamp) := by
  unfold State.onReceiveCallback State.receiveNotificationHandler
  split
  · exact hs.mono rfl rfl rfl rfl rfl rfl rfl (fun _ h => h) (List.append_nil _)
      (List.append_nil _)
  · exact hs.mono (List.append_nil _).symm rfl rfl rfl rfl rfl rfl (fun _ h => h)
      (List.append_nil _) (List.append_nil _)

theorem step_inOrder (s : State S) (x : Action S) (ho : Owned s) (hs : InOrder s)
    (herr : .error ∉ (step L s x).trace) : InOrder (step L s x) := by
  refine step_keeps L (I := fun t => .error ∉ t.trace → Owned t → InOrder t)
    (C := fun t _ => .error ∉ t.trace ∧ Owned t) ?_ ?_ ?_ ?_ ?_ ?_ ?_ ?_ s x (fun _ _ => hs)
    ⟨fun h => herr ((step_trace L s x).subset h), ho⟩ herr
    (step_owned_of_no_error L s x (fun _ => ho) herr)
  · intro s data ticks timestamp hs hx _ _
    exact onReceiveCallback_inOrder data ticks timestamp (hs hx.1 hx.2)
  · intro s hs hx _ _
    exact (hs hx.1 hx.2).mono (List.append_nil _).symm rfl rfl rfl rfl rfl rfl (fun _ h => h)
      (List.append_nil _) (List.append_nil _)
  · intro s hs hx _ _
    exact (hs hx.1 hx.2).mono (List.append_nil _).symm rfl rfl rfl rfl rfl rfl (fun _ h => h)
      (List.append_nil _) (List.append_nil _)
  · intro s f g hs _ herr ho
    have ho' : Owned s := ⟨ho.free, ho.running, ho.held, ho.handle, ho.success⟩
    exact (hs herr ho').mono (List.append_nil _).symm rfl rfl rfl rfl rfl rfl (fun _ h => h)
      rfl rfl
  · intro s c _ _ _ herr _
    exact absurd List.mem_cons_self herr
  · intro s t hs hx _ _
    exact (hs hx.1 hx.2).mono (List.append_nil _).symm rfl rfl rfl rfl rfl rfl (fun _ h => h)
      rfl rfl
  · intro s a e es t hs hx idle queue run herr _
    exact run.inOrder L a (hs hx.1 hx.2) hx.2 idle queue herr
  · intro s a t hs hx running run herr _
    exact run.inOrder L a (hs hx.1 hx.2) hx.2 running herr

theorem inOrder_init (t : S) : InOrder (State.init t) :=
  ⟨.inl rfl, fun h hh => (by cases hh), fun c hc => (by cases hc), rfl⟩

/-- Every run without an error is in order. -/
theorem inOrder_of_no_error (t : S) (as : List (Action S))
    (herr : .error ∉ (run (step L) (State.init t) as).trace) :
    Owned (run (step L) (State.init t) as) ∧ InOrder (run (step L) (State.init t) as) := by
  have hstep : ∀ s x, (.error ∉ s.trace → Owned s ∧ InOrder s) → True →
      (.error ∉ (step L s x).trace → Owned (step L s x) ∧ InOrder (step L s x)) := by
    intro s x hs _ herr
    obtain ⟨ho, hs⟩ := hs fun h => herr ((step_trace L s x).subset h)
    exact ⟨step_owned_of_no_error L s x (fun _ => ho) herr, step_inOrder L s x ho hs herr⟩
  exact run_invariant hstep (fun _ => ⟨owned_init t, inOrder_init t⟩)
    (Along.of_forall (fun _ _ => trivial) as) herr

end OpenBadge.RequestHandler
