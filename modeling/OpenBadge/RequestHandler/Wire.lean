import OpenBadge.RequestHandler.DataResponses

/-!
# What goes over the air

In one connection: the bytes the sender took from the handlers, the responses they stand
for, and the requests that were taken for the messages that were decoded.
-/

namespace OpenBadge.RequestHandler

open OpenBadge.Lib

variable {S β : Type} (L : Libraries S) (a : Answers)

def Entry.wire : Entry → List UInt8
  | .transmit _ _ bytes true => bytes
  | _ => []

def Entry.response : Entry → List Response
  | .transmit _ m _ true => [m]
  | _ => []

def Entry.request : Entry → List Request
  | .taken _ _ _ q => [q]
  | _ => []

/-- The bytes that `sender_transmit` took. -/
def State.wired (s : State S) : List UInt8 := gather Entry.wire s.trace

/-- The responses they encode. -/
def State.responses (s : State S) : List Response := gather Entry.response s.trace

/-- The requests that were taken. -/
def State.requests (s : State S) : List Request := gather Entry.request s.trace

/-- The data requests for `k` among the requests. -/
def Request.dataFor (k : Sensor) (q : Request) : List Timestamp :=
  if findRequestHandler q.whichType = some (.data k) then [q.data.timestamp k] else []

/-- A transmitted response is there as its frame, and a taken request goes to the handler of its
tag. -/
def Entry.Faithful : Entry → Prop
  | .transmit _ m bytes true => ∃ d, L.encode m = some d ∧ bytes = frame d
  | .taken _ r _ q => findRequestHandler q.whichType = some r
  | _ => True

/-- An entry of the handlers, which neither take requests nor take part in the connection. -/
def Entry.Output : Entry → Prop
  | .transmit _ m bytes true => ∃ d, L.encode m = some d ∧ bytes = frame d
  | .taken _ _ _ _ => False
  | e => e.quiet = true

theorem Entry.Output.faithful {e : Entry} (h : e.Output L) : e.Faithful L := by
  cases e with
  | transmit _ _ _ sent =>
    cases sent with
    | true => exact h
    | false => trivial
  | taken => exact h.elim
  | _ => trivial

theorem Entry.Output.quiet {e : Entry} (h : e.Output L) : e.quiet = true := by
  cases e with
  | transmit => rfl
  | taken => rfl
  | _ => exact h

theorem Entry.Output.request_eq {e : Entry} (h : e.Output L) : e.request = [] := by
  cases e with
  | taken => exact h.elim
  | _ => rfl

theorem output_of_isCall {e : Entry} (h : e.isCall = true) : e.Output L := by
  cases e <;> first | rfl | cases h

/-- Only entries of the handlers are new. -/
def Outputs (s t : State S) : Prop := ∃ new, t.trace = new ++ s.trace ∧ ∀ e ∈ new, e.Output L

variable {L} in
theorem Outputs.of_eq {s t : State S} (h : t.trace = s.trace) : Outputs L s t :=
  ⟨[], h, fun _ he => (by cases he)⟩

theorem Sends.outputs {s t : State S} (h : Sends L a s t) : Outputs L s t := by
  cases h with
  | dropped fails same handed =>
    rcases handed with rfl | ⟨-, bytes, rfl⟩
    · exact ⟨[.error], rfl, by simp [Entry.Output, Entry.quiet]⟩
    · exact ⟨[.error, .transmit s.responseEvent.origin s.responseEvent.response bytes false], rfl,
        by simp [Entry.Output, Entry.quiet]⟩
  | sent _ _ encoded =>
    refine ⟨[_], rfl, fun e he => ?_⟩
    obtain rfl := List.mem_singleton.mp he
    exact ⟨_, encoded, rfl⟩
  | retried => exact ⟨[_], rfl, by simp [Entry.Output, Entry.quiet]⟩

theorem StreamEnds.trace_same {o : Nat} {b : Bool} {s t : State S} (h : StreamEnds a s o b t) :
    t.trace = s.trace := by
  cases h <;> rfl

theorem Responds.outputs {o : Nat} {r : ResponseType} {s t : State S} (h : Responds L a o s r t) :
    Outputs L s t := by
  cases h with
  | busy => exact .of_eq rfl
  | answered _ _ sends => exact sends.outputs
  | chunk _ _ sends => exact sends.outputs
  | last _ _ _ sends => exact sends.outputs
  | kept => exact .of_eq rfl
  | tested _ sends => exact sends.outputs
  | quiet _ _ ends => exact .of_eq (ends.trace_same a)
  | streamed _ _ sends ends =>
    obtain ⟨new, hnew, hall⟩ := sends.outputs
    exact ⟨new, (ends.trace_same a).trans hnew, hall⟩

theorem Handles.outputs {o : Nat} {r : RequestType} {s t : State S} (h : Handles L a o s r t) :
    Outputs L s t := by
  cases h with
  | retried _ only => exact ⟨_, rfl, fun e he => output_of_isCall L (only e he)⟩
  | answered _ only => exact ⟨_, rfl, fun e he => output_of_isCall L (only e he)⟩
  | @dropped calls _ only =>
    refine ⟨.error :: calls, rfl, fun e he => ?_⟩
    rcases List.mem_cons.mp he with rfl | he
    · rfl
    · exact output_of_isCall L (only e he)
  | joins _ _ only => exact ⟨_, rfl, fun e he => output_of_isCall L (only e he)⟩
  | starts _ _ only => exact ⟨_, rfl, fun e he => output_of_isCall L (only e he)⟩
  | found => exact .of_eq rfl
  | finished => exact .of_eq rfl
  | tested => exact .of_eq rfl

/-- The request that is decoded and not yet taken. -/
def State.decodedRequest (s : State S) : List Request :=
  match s.stage with
  | .handle _ _ => [s.requestEvent.request]
  | _ => []

/-- The history of a connection. -/
structure Carried (s : State S) : Prop where
  faithful : ∀ e ∈ s.trace, e.Faithful L
  connection : s.trace = current s.trace ++ [.connect]
  taken : s.requests ++ s.decodedRequest = s.decodes.map fun d => (L.decode d.1).1
  known : ∀ c r, s.stage = .handle c r →
    findRequestHandler s.requestEvent.request.whichType = some r

theorem decodedRequest_of_idle {s : State S} (h : s.stage = .idle) : s.decodedRequest = [] := by
  rw [State.decodedRequest, h]

variable {L} in
/-- Entries of the handlers are added. -/
theorem Carried.outputs {s t : State S} (hs : Carried L s) (h : Outputs L s t)
    (hd : t.decodedRequest = s.decodedRequest)
    (hk : ∀ c r, t.stage = .handle c r →
      findRequestHandler t.requestEvent.request.whichType = some r) : Carried L t := by
  obtain ⟨new, hnew, hall⟩ := h
  have hcurrent : current t.trace = new ++ current s.trace := by
    rw [hnew, current_append (connect_not_mem fun e he => (hall e he).quiet)]
  refine ⟨fun e he => ?_, ?_, ?_, hk⟩
  · rw [hnew] at he
    rcases List.mem_append.mp he with he | he
    · exact (hall e he).faithful
    · exact hs.faithful e he
  · rw [hcurrent, List.append_assoc, ← hs.connection, hnew]
  · have hrequests : t.requests = s.requests := by
      unfold State.requests
      rw [hnew, gather_append fun e he => (hall e he).request_eq]
    have hdecodes : t.decodes = s.decodes := by
      unfold State.decodes
      rw [hcurrent, gather_append fun e he => ?_]
      have hq := (hall e he).quiet
      cases e <;> first | rfl | cases hq
    rw [hrequests, hdecodes, hd, hs.taken]

/-- An event runs between two requests. -/
theorem Runs.carried {e : Event} {es : List Event} {s t : State S} (hs : Carried L s)
    (hi : s.stage = .idle) (h : Runs L a e { s with queue := es } t) : Carried L t := by
  have hidle {t : State S} (ht : t.stage = .idle) (hout : Outputs L s t) : Carried L t :=
    hs.outputs hout ((decodedRequest_of_idle ht).trans (decodedRequest_of_idle hi).symm)
      fun c r hr => (by rw [ht] at hr; cases hr)
  cases h with
  | waits => exact hidle hi (.of_eq rfl)
  | rests => exact hidle hi (.of_eq rfl)
  | begins =>
    exact hs.outputs (.of_eq rfl) (decodedRequest_of_idle hi).symm fun c r hr => (by cases hr)
  | sends _ run => exact hidle (run.flow.stage.trans hi) run.outputs
  | handles _ run => exact hidle (run.flow.stage.trans hi) run.outputs
  | responds _ run => exact hidle (run.flow.stage.trans hi) run.outputs

/-- `process_receive_notification` goes on. -/
theorem Continues.carried {s t : State S} (hs : Carried L s) (h : Continues L a s t)
    (herr : .error ∉ t.trace) : Carried L t := by
  have hsame {t : State S} (htrace : t.trace = s.trace) (hd : s.decodedRequest = [])
      (ht : t.decodedRequest = []) (hk : ∀ c r, t.stage ≠ .handle c r) : Carried L t :=
    hs.outputs (.of_eq htrace) (ht.trans hd.symm) fun c r hr => absurd hr (hk c r)
  cases h with
  | waits => exact hs
  | asksHeader stage => exact hsame rfl (by rw [State.decodedRequest, stage]) rfl (by simp)
  | readsHeader stage => exact hsame rfl (by rw [State.decodedRequest, stage]) rfl (by simp)
  | asksData stage => exact hsame rfl (by rw [State.decodedRequest, stage]) rfl (by simp)
  | readsData stage => exact hsame rfl (by rw [State.decodedRequest, stage]) rfl (by simp)
  | consumes stage => exact hsame rfl (by rw [State.decodedRequest, stage]) rfl (by simp)
  | rejects => exact absurd List.mem_cons_self herr
  | loses => exact absurd List.mem_cons_self herr
  | lacks => exact absurd List.mem_cons_self herr
  | @decodes c bytes r stage accepted known =>
    have hnone : s.decodedRequest = [] := by rw [State.decodedRequest, stage]
    refine ⟨fun e he => ?_, ?_, ?_, ?_⟩
    · rcases List.mem_cons.mp he with rfl | he
      · trivial
      · exact hs.faithful e he
    · exact congrArg (List.cons _) hs.connection
    · have hdecodes := hs.taken
      rw [hnone, List.append_nil] at hdecodes
      change (s.requests ++ []) ++ [(L.decode bytes).1] =
        (s.decodes ++ [(bytes, c.notification.ticks)]).map
          fun d : List UInt8 × Nat => (L.decode d.1).1
      rw [List.append_nil, List.map_append, ← hdecodes]
      rfl
    · rintro c' r' hr
      cases hr
      exact known
  | @handles c r u stage run =>
    have htaken : Carried L { s with
        stage := .idle
        trace := .taken s.serial r c s.requestEvent.request :: s.trace } := by
      refine ⟨fun e he => ?_, ?_, ?_, fun c r hr => (by cases hr)⟩
      · rcases List.mem_cons.mp he with rfl | he
        · exact hs.known c r stage
        · exact hs.faithful e he
      · exact congrArg (List.cons _) hs.connection
      · have hone : s.decodedRequest = [s.requestEvent.request] := by
          rw [State.decodedRequest, stage]
        change (s.requests ++ [s.requestEvent.request]) ++ [] =
          (s.decodes ++ []).map fun d : List UInt8 × Nat => (L.decode d.1).1
        rw [List.append_nil, List.append_nil, ← hs.taken, hone]
    exact htaken.outputs run.outputs ((decodedRequest_of_idle run.flow.stage).trans rfl)
      fun c r hr => (by rw [run.flow.stage] at hr; cases hr)

theorem step_carried (s : State S) (x : Action S) (hs : .error ∉ s.trace → Carried L s)
    (hx : Receiving s x) (herr : .error ∉ (step L s x).trace) : Carried L (step L s x) := by
  refine step_keeps L (I := fun t => .error ∉ t.trace → Carried L t) (C := Receiving)
    ?_ ?_ ?_ ?_ ?_ ?_ ?_ ?_ s x hs hx herr
  · intro s data ticks timestamp hs _ herr
    have htrace := onReceiveCallback_trace data ticks timestamp s
    rw [htrace] at herr
    have hs := hs fun h => herr (List.mem_cons_of_mem _ h)
    have hsame : (s.onReceiveCallback data ticks timestamp).stage = s.stage ∧
        (s.onReceiveCallback data ticks timestamp).requestEvent = s.requestEvent := by
      unfold State.onReceiveCallback State.receiveNotificationHandler
      split <;> exact ⟨rfl, rfl⟩
    refine ⟨fun e he => ?_, ?_, ?_, ?_⟩
    · rw [htrace] at he
      rcases List.mem_cons.mp he with rfl | he
      · trivial
      · exact hs.faithful e he
    · rw [htrace]
      exact congrArg (List.cons _) hs.connection
    · unfold State.requests State.decodes State.decodedRequest
      rw [htrace, hsame.1, hsame.2]
      change (s.requests ++ []) ++ s.decodedRequest = (s.decodes ++ []).map fun d : List UInt8 × Nat => (L.decode d.1).1
      rw [List.append_nil, List.append_nil, hs.taken]
    · rw [hsame.1, hsame.2]
      exact hs.known
  · exact fun s _ hx => hx.elim
  · exact fun s _ hx => hx.elim
  · intro s f g hs _ herr
    exact ⟨(hs herr).faithful, (hs herr).connection, (hs herr).taken, (hs herr).known⟩
  · intro s c _ _ _ herr
    exact absurd List.mem_cons_self herr
  · intro s t hs _ herr
    exact ⟨(hs herr).faithful, (hs herr).connection, (hs herr).taken, (hs herr).known⟩
  · intro s a e es t hs _ idle _ run herr
    exact run.carried L a (hs fun h => herr ((run.trace_suffix L a).subset h)) idle
  · intro s a t hs _ _ run herr
    exact run.carried L a (hs fun h => herr ((run.trace_suffix L a).subset h)) herr

/-- Only packets add to what was received. -/
theorem step_received (s : State S) {x : Action S}
    (hx : (∀ data ticks timestamp, x ≠ .packet data ticks timestamp) ∧ x ≠ .connect) :
    (step L s x).received = s.received := by
  refine step_keeps L (I := fun t => t.received = s.received)
    (C := fun _ x => (∀ data ticks timestamp, x ≠ .packet data ticks timestamp) ∧ x ≠ .connect)
    ?_ ?_ ?_ ?_ ?_ ?_ ?_ ?_ s x rfl hx
  · exact fun t data ticks timestamp _ hx => absurd rfl (hx.1 data ticks timestamp)
  · exact fun t _ hx => absurd rfl hx.2
  · exact fun t ht _ => (List.append_nil _).trans ht
  · exact fun t f g ht _ => ht
  · exact fun t c ht _ _ => (List.append_nil _).trans ht
  · exact fun t u ht _ => ht
  · exact fun t a e es u ht _ _ _ run => (run.received_eq L a).trans ht
  · exact fun t a u ht _ _ run => (run.received_eq L a).trans ht

theorem carried_connect (t : S) : Carried L (State.init t).onConnectCallback := by
  refine ⟨fun e he => ?_, rfl, rfl, fun c r hr => (by cases hr)⟩
  obtain rfl := List.mem_singleton.mp he
  trivial

/-! ## The history in the client's terms -/

variable {L} {s : State S}

/-- The bytes are the frames of the responses. -/
theorem wired_eq (h : ∀ e ∈ s.trace, e.Faithful L) :
    s.wired = s.responses.flatMap fun m => frame ((L.encode m).getD []) := by
  unfold State.wired State.responses
  generalize s.trace = tr at h
  induction tr with
  | nil => rfl
  | cons e tr ih =>
    have ih := ih fun x hx => h x (List.mem_cons_of_mem e hx)
    have he := h e List.mem_cons_self
    rw [gather, gather, List.flatMap_append, ih]
    refine congrArg _ ?_
    cases e with
    | transmit o m bytes sent =>
      cases sent with
      | false => rfl
      | true =>
        obtain ⟨d, hd, rfl⟩ := he
        change frame d = [m].flatMap fun m => frame ((L.encode m).getD [])
        rw [List.flatMap_singleton, hd]
        rfl
    | _ => rfl

/-- Every transmitted response was encoded. -/
theorem encoded_of_mem_responses (h : ∀ e ∈ s.trace, e.Faithful L) {m : Response}
    (hm : m ∈ s.responses) : ∃ d, L.encode m = some d := by
  unfold State.responses at hm
  generalize s.trace = tr at h hm
  induction tr with
  | nil => cases hm
  | cons e tr ih =>
    rw [gather, List.mem_append] at hm
    rcases hm with hm | hm
    · exact ih (fun x hx => h x (List.mem_cons_of_mem e hx)) hm
    · have he := h e List.mem_cons_self
      cases e with
      | transmit o m' bytes sent =>
        cases sent with
        | false => cases hm
        | true =>
          obtain rfl := List.mem_singleton.mp hm
          obtain ⟨d, hd, -⟩ := he
          exact ⟨d, hd⟩
      | _ => cases hm

theorem gather_map {γ : Type} (f : Entry → List β) (g : β → γ) (tr : List Entry) :
    (gather f tr).map g = gather (fun e => (f e).map g) tr := by
  induction tr with
  | nil => rfl
  | cons e tr ih => rw [gather, gather, List.map_append, ih]

theorem gather_flatMap {γ : Type} (f : Entry → List β) (g : β → List γ) (tr : List Entry) :
    (gather f tr).flatMap g = gather (fun e => (f e).flatMap g) tr := by
  induction tr with
  | nil => rfl
  | cons e tr ih => rw [gather, gather, List.flatMap_append, ih]

theorem gather_congr {f g : Entry → List β} {tr : List Entry} (h : ∀ e ∈ tr, f e = g e) :
    gather f tr = gather g tr := by
  induction tr with
  | nil => rfl
  | cons e tr ih =>
    rw [gather, gather, h e List.mem_cons_self,
      ih fun x hx => h x (List.mem_cons_of_mem e hx)]

theorem gather_concat (f : Entry → List β) (new tr : List Entry) :
    gather f (new ++ tr) = gather f tr ++ gather f new := by
  induction new with
  | nil => exact (List.append_nil _).symm
  | cons e new ih => rw [List.cons_append, gather, ih, gather, List.append_assoc]

/-- No response is taken back. -/
theorem responses_prefix {t : State S} (h : s.trace <:+ t.trace) :
    s.responses <+: t.responses := by
  obtain ⟨new, hnew⟩ := h
  exact ⟨gather Entry.response new, by rw [State.responses, State.responses, ← hnew, gather_concat]⟩

/-- The data responses for `k` among the responses. -/
theorem dataSent_eq (k : Sensor) (s : State S) :
    (s.dataSent k).map Prod.snd = s.responses.flatMap fun m => (m.data? k).toList := by
  unfold State.dataSent State.responses
  rw [gather_map, gather_flatMap]
  refine gather_congr fun e _ => ?_
  cases e with
  | transmit o m bytes sent =>
    cases sent with
    | false => rfl
    | true =>
      change ((m.data? k).toList.map fun x => (o, x)).map Prod.snd =
        [m].flatMap fun m => (m.data? k).toList
      rw [List.map_map, List.flatMap_singleton]
      exact List.map_id _
  | _ => rfl

/-- The data requests for `k` among the requests. -/
theorem dataAsked_eq (k : Sensor) (h : ∀ e ∈ s.trace, e.Faithful L) :
    (s.dataAsked k).map Prod.snd = s.requests.flatMap (Request.dataFor k) := by
  unfold State.dataAsked State.requests
  rw [gather_map, gather_flatMap]
  refine gather_congr fun e he => ?_
  have hf := h e he
  cases e with
  | taken o r c q =>
    have hr : findRequestHandler q.whichType = some r := hf
    change ((Entry.taken o r c q).dataAsked k).map Prod.snd = [q].flatMap (Request.dataFor k)
    rw [List.flatMap_singleton, Request.dataFor, hr]
    by_cases hk : r = .data k
    · subst hk
      rw [if_pos rfl]
      change (if k = k then [(o, q.data.timestamp k)] else []).map Prod.snd = _
      rw [if_pos rfl]
      rfl
    · rw [if_neg fun h => hk (Option.some.inj h), dataAsked_taken hk]
      rfl
  | _ => rfl

/-- At the end of a message nothing of the input is left, and all of it was decoded. -/
theorem Framed.decodes_eq_messages {done : List UInt8} (hs : Framed s done)
    (hc : s.connected = true) (hi : s.stage = .idle) (hrx : s.rx = [])
    {msgs : List (List UInt8)} (hm : ∀ m ∈ msgs, m.length < 2 ^ 16)
    (hr : s.received = msgs.flatMap frame) : s.decodes.map Prod.fst = msgs := by
  have hbytes := hs.bytes
  rw [hi, hrx, hs.exact hc, hr] at hbytes
  change msgs.flatMap frame = s.frames ++ [] ++ [] at hbytes
  rw [List.append_nil, List.append_nil] at hbytes
  have hframes : (s.decodes.map Prod.fst).flatMap frame = s.frames := by
    rw [List.flatMap_map]
    rfl
  obtain ⟨rest, hrest⟩ := hs.decodes_prefix hm (hr ▸ List.prefix_refl _)
  rw [← hrest, List.flatMap_append, hframes] at hbytes
  cases rest with
  | nil => exact (List.append_nil _).symm.trans hrest
  | cons m rest =>
    have hnil := List.append_cancel_left (hbytes.trans (List.append_nil s.frames).symm)
    rw [List.flatMap_cons, frame, List.append_assoc] at hnil
    cases hnil

end OpenBadge.RequestHandler
