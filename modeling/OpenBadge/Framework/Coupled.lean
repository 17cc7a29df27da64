import OpenBadge.Framework.Kinds

/-!
# The client and the badge together

The client writes its next request when the answer to the last one is complete, the badge
may take what was written in any pieces and at any time. So the badge never works at more
than one request that is answered, and every call gets the answer to its own request.
-/

namespace OpenBadge.Framework

open OpenBadge.Lib OpenBadge.Tinybuf OpenBadge.RequestHandler

variable {S : Type} {L : Libraries S} {found : Sensor → Timestamp → List Chunk}

/-- The badge reads what the client writes, and writes what the client reads. -/
structure Speaks (L : Libraries S) : Prop where
  decode : ∀ a : Ask, ∃ q, L.decode (request.wire .bigEndian a.value) = (q, true) ∧
    Request.Alike a.type q (requestOf a.value)
  encode : ∀ m d, L.encode m = some d → ∃ x, Shows m x ∧ response.Meets .valid (x, ()) ∧
    d = response.wire .bigEndian (x, ())

/-- A client that has just connected, and receives `bytes` in the end. -/
def newClient (bytes : List UInt8) : Badge where
  connection := ⟨true, [], [bytes], []⟩
  queues _ := []

/-- What the client has written when it has received `bytes`. -/
def written (asks : List Ask) (bytes : List UInt8) : List UInt8 :=
  (session asks (newClient bytes)).2.connection.sent.flatten

/-- The connection stays as it is. A packet fits into the FIFOs and brings what the client has
written by then. Nothing is stored, and every response finds room in the transmit FIFO. -/
def Coupled (asks : List Ask) (s : State S) : Action S → Prop
  | .packet data _ _ => s.Takes data ∧ s.received ++ data <+: written asks s.wired
  | .dispatch a => a.transmit = .ok ()
  | .connect => False
  | .disconnect => False
  | .store _ => False
  | _ => True

instance (asks : List Ask) (s : State S) : ∀ x, Decidable (Coupled asks s x)
  | .packet data _ _ => inferInstanceAs
      (Decidable (s.Takes data ∧ s.received ++ data <+: written asks s.wired))
  | .dispatch a => inferInstanceAs (Decidable (a.transmit = .ok ()))
  | .connect => .isFalse id
  | .disconnect => .isFalse id
  | .store _ => .isFalse id
  | .samplingTimeout _ _ _ => .isTrue trivial
  | .awaitTimeout => .isTrue trivial

theorem Coupled.receiving {asks : List Ask} {s : State S} {x : Action S} (h : Coupled asks s x) :
    Receiving s x := by
  cases x with
  | packet => exact h.1
  | connect => exact h.elim
  | disconnect => exact h.elim
  | _ => trivial

/-! ## Frames and messages -/

/-- `struct.pack('>H', n)` is the header that the badge writes. -/
theorem packed_two (n : Nat) : packed .bigEndian 2 n = lengthHeader n := by
  simp [packed, inOrder, bigEndianBytes, lengthHeader]

theorem framedRequest_eq (v : request.Value) :
    framedRequest v = frame (request.wire .bigEndian v) := by
  rw [framedRequest, frame, packed_two]

theorem framed_eq (x : BadgeResponse) :
    framed x = frame (response.wire .bigEndian (x, ())) := by
  rw [framed, frame, packed_two]

/-- The messages of the calls. -/
def messages (asks : List Ask) : List (List UInt8) :=
  asks.map fun a => request.wire .bigEndian a.value

theorem messages_short (asks : List Ask) : ∀ m ∈ messages asks, m.length < 2 ^ 16 := by
  intro m hm
  obtain ⟨a, -, rfl⟩ := List.mem_map.mp hm
  exact request_length_lt a.value

theorem frames_messages (asks : List Ask) :
    (asks.map fun a => framedRequest a.value).flatten = (messages asks).flatMap frame := by
  rw [messages, List.flatMap_map, ← List.flatMap_def]
  exact List.flatMap_congr fun a _ => framedRequest_eq a.value

/-- The client reads the bytes of the responses. -/
theorem Speaks.seen (hS : Speaks L) : ∃ value : Response → BadgeResponse,
    ∀ s : State S, (∀ e ∈ s.trace, e.Faithful L) → Seen value s.responses ∧
      s.wired = (s.responses.map value).flatMap framed := by
  have hvalue : ∀ m, ∃ x, ∀ d, L.encode m = some d → Shows m x ∧
      response.Meets .valid (x, ()) ∧ d = response.wire .bigEndian (x, ()) := by
    intro m
    cases hm : L.encode m with
    | none => exact ⟨testValue 0, fun d hd => (by cases hd)⟩
    | some d =>
      obtain ⟨x, hx⟩ := hS.encode m d hm
      exact ⟨x, fun d' hd => (Option.some.inj hd) ▸ hx⟩
  choose value hvalue using hvalue
  refine ⟨value, fun s hfaithful => ⟨⟨fun m hm => ?_, fun m hm => ?_⟩, ?_⟩⟩
  · obtain ⟨d, hd⟩ := encoded_of_mem_responses hfaithful hm
    exact (hvalue m d hd).1
  · obtain ⟨d, hd⟩ := encoded_of_mem_responses hfaithful hm
    exact sendable_of_valid (hvalue m d hd).2.1
  · rw [wired_eq hfaithful, List.flatMap_map]
    refine List.flatMap_congr fun m hm => ?_
    obtain ⟨d, hd⟩ := encoded_of_mem_responses hfaithful hm
    rw [hd, framed_eq, ← (hvalue m d hd).2.2]
    rfl

/-- A decoded request is answered like the call. -/
theorem Speaks.requestMarks_eq (hS : Speaks L) (a : Ask) :
    requestMarks found (L.decode (request.wire .bigEndian a.value)).1 = a.answer found := by
  obtain ⟨q, hq, hwhich, halike⟩ := hS.decode a
  have hhandler : findRequestHandler q.whichType = some a.type := by
    rw [hwhich]
    change findRequestHandler (requestType.which a.value.1).toNat = _
    rw [← a.tag_eq, findRequestHandler_tag]
  rw [hq, requestMarks, hhandler]
  change answer found a.type q = answer found a.type (requestOf a.value)
  obtain ⟨v, r, htag⟩ := a
  cases r with
  | data k =>
    have ht : q.data.timestamp k = (requestOf v).data.timestamp k := halike
    rw [answer, answer, ht]
  | _ => rfl

/-! ## What the badge has been asked -/

variable (found) in
/-- The calls whose requests were decoded. -/
theorem decoded_asked {s : State S} (hS : Speaks L) (hs : Carried L s) {pre : List Ask}
    (hdecodes : s.decodes.map Prod.fst = messages pre) :
    (s.requests ++ s.decodedRequest).map (requestMarks found) = pre.map (Ask.answer found) := by
  have hmap : s.decodes.map (fun d => (L.decode d.1).1) =
      (messages pre).map fun m => (L.decode m).1 := by
    rw [← hdecodes, List.map_map]
    rfl
  rw [hs.taken, hmap, messages, List.map_map, List.map_map]
  exact List.map_congr_left fun a _ => hS.requestMarks_eq a

/-- They are the first of those that were received. -/
theorem received_asked {s : State S} {done : List UInt8} (hs : Framed s done) {asks : List Ask}
    (hheard : s.received <+: (messages asks).flatMap frame) :
    ∃ n, s.decodes.map Prod.fst = messages (asks.take n) := by
  obtain ⟨rest, hrest⟩ := hs.decodes_prefix (messages_short asks) hheard
  refine ⟨(s.decodes.map Prod.fst).length, ?_⟩
  rw [messages, List.map_take, ← messages, ← hrest, List.take_left]

variable (L found) in
/-- The client and the badge agree on what was asked and on what was answered. -/
structure Joined (asks : List Ask) (s : State S) : Prop where
  carried : Carried L s
  chained : Chained L found s
  owned : Owned s
  inOrder : InOrder s
  answers : marks s.responses <+: (asks.map (Ask.answer found)).flatten
  heard : s.received <+: (messages (asks.take
    (completed (asks.map (Ask.answer found)) (marks s.responses) + 1))).flatMap frame

theorem answers_uniform (asks : List Ask) :
    ∀ A ∈ asks.map (Ask.answer found), Uniform Mark.type A := by
  intro A hA
  obtain ⟨a, -, rfl⟩ := List.mem_map.mp hA
  exact answer_uniform found a.type (requestOf a.value)

section Asked

variable {asks : List Ask} {s : State S} {done : List UInt8} (hS : Speaks L)
  (hf : Framed s done) (hs : Joined L found asks s)

include hS hf hs

/-- The calls that were decoded are those whose answers are complete, and at most one more. -/
theorem Joined.asked : ∃ pre, pre <+: asks.take
      (completed (asks.map (Ask.answer found)) (marks s.responses) + 1) ∧
    (s.requests ++ s.decodedRequest).map (requestMarks found) = pre.map (Ask.answer found) := by
  obtain ⟨n, hn⟩ := received_asked hf hs.heard
  exact ⟨_, List.take_prefix n _, decoded_asked found hS hs.carried hn⟩

/-- A data request is only handled when the chunks of the last one have all been sent. -/
theorem Joined.oneByOne {k : Sensor} (hk : k ∈ s.stage.dataRequest) :
    ∀ e ∈ s.queue, e.handler ≠ .response (.data k) := by
  obtain ⟨c, hstage⟩ : ∃ c, s.stage = .handle c (.data k) := by
    unfold Stage.dataRequest at hk
    split at hk
    · next c i hi =>
      cases hk
      exact ⟨c, hi⟩
    · cases hk
  have hpending : s.decodedRequest = [s.requestEvent.request] := by
    rw [State.decodedRequest, hstage]
  obtain ⟨pre, hpre, hasked⟩ := hs.asked hS hf
  rw [hpending, List.map_append] at hasked
  obtain ⟨front, back, rfl, hfront, hback⟩ := List.map_eq_append_iff.mp hasked.symm
  have hlen : back.length = 1 := by
    have h := congrArg List.length hback
    rwa [List.length_map] at h
  -- what was taken before is answered
  have hfrontPrefix : front <+: asks.take
      (completed (asks.map (Ask.answer found)) (marks s.responses)) := by
    have h := hpre.length_le
    rw [List.length_append, hlen, List.length_take] at h
    refine List.prefix_of_prefix_length_le
      ((List.prefix_append front back).trans (hpre.trans (List.take_prefix _ asks)))
      (List.take_prefix _ asks) ?_
    rw [List.length_take]
    omega
  have hanswered : (s.requests.flatMap (requestMarks found)) <+: marks s.responses := by
    obtain ⟨rest, hrest⟩ := hfrontPrefix
    have hall := flatten_take_completed (asks.map (Ask.answer found)) (marks s.responses)
    rw [← List.map_take, ← hrest, List.map_append, List.flatten_append, hfront,
      ← List.flatMap_def] at hall
    exact (List.prefix_append _ _).trans hall
  have hparts := part_mono Mark.type (.data k) hanswered
  rw [(data_parts found hs.carried.faithful).1, (data_parts found hs.carried.faithful).2] at hparts
  intro e he hhandler
  have hmem : e ∈ dataEvents k s.queue := List.mem_filter.mpr ⟨he, by simpa using hhandler⟩
  rcases hs.chained.chain k with ⟨hnone, -⟩ | ⟨o, cs, -, -, hmore⟩
  · rw [hnone] at hmem
    cases hmem
  · have hle := hparts.length_le
    rw [hmore, List.length_map, List.length_map, List.length_append, dataAnswer,
      List.length_append, List.length_singleton] at hle
    omega

end Asked

/-! ## Runs -/

section Steps

variable {asks : List Ask} (hS : Speaks L) (htest : ∀ a ∈ asks, a.type ≠ .test)

include hS htest

/-- What a client has written that received what the badge sent. -/
theorem Joined.written_eq {s : State S} (hs : Joined L found asks s) :
    written asks s.wired = (messages (asks.take
      (completed (asks.map (Ask.answer found)) (marks s.responses) + 1))).flatMap frame := by
  obtain ⟨value, hvalue⟩ := hS.seen
  obtain ⟨hseen, hwired⟩ := hvalue s hs.carried.faithful
  have hstream : (newClient s.wired).connection.stream =
      (s.responses.map value).flatMap framed := by
    rw [← hwired]
    exact List.flatten_singleton
  obtain ⟨-, -, hsent⟩ := session_answered found htest hseen rfl hstream hs.answers
  rw [written, hsent, ← frames_messages]
  rfl

omit htest in
/-- A step that brings nothing in keeps to what was asked. -/
theorem Joined.quiet {s t : State S} {done : List UInt8} (hs : Joined L found asks s)
    (hf : Framed t done) (hcarried : Carried L t) (hchained : Chained L found t)
    (howned : Owned t) (horder : InOrder t) (hreceived : t.received = s.received)
    (hresponses : s.responses <+: t.responses) : Joined L found asks t := by
  have hheard := hs.heard
  rw [← hreceived] at hheard
  obtain ⟨n, hn⟩ := received_asked hf hheard
  have hasked := decoded_asked found hS hcarried hn
  have hrequests : t.requests.flatMap (requestMarks found) <+:
      ((asks.map (Ask.answer found)).take
        (completed (asks.map (Ask.answer found)) (marks s.responses) + 1)).flatten := by
    rw [List.map_append, List.map_take] at hasked
    obtain ⟨rest, hrest⟩ := List.take_prefix n ((asks.take
      (completed (asks.map (Ask.answer found)) (marks s.responses) + 1)).map (Ask.answer found))
    rw [← List.map_take, ← hrest, ← hasked, List.flatten_append, List.flatten_append,
      ← List.flatMap_def, List.append_assoc]
    exact List.prefix_append ..
  obtain ⟨new, hnew⟩ := hresponses
  have hmarks : marks t.responses = marks s.responses ++ marks new := by
    rw [← hnew, marks_append]
  refine ⟨hcarried, hchained, howned, horder, ?_, ?_⟩
  · rw [hmarks]
    refine prefix_append_of_parts hs.answers (answers_uniform asks) fun K => ?_
    rw [← hmarks]
    exact (parts_begin found hcarried.faithful hchained horder K).trans (part_mono _ _ hrequests)
  · refine hheard.trans ?_
    have hmono : completed (asks.map (Ask.answer found)) (marks s.responses) ≤
        completed (asks.map (Ask.answer found)) (marks t.responses) :=
      completed_mono (hmarks ▸ List.prefix_append ..)
    obtain ⟨rest, hrest⟩ := List.take_prefix_take_left (l := asks) (Nat.succ_le_succ hmono)
    rw [messages, messages, ← hrest, List.map_append, List.flatMap_append]
    exact List.prefix_append ..

theorem step_joined (hL : L.Finds found) (s : State S) (x : Action S)
    (hs : (∃ done, Framed s done) ∧ (.error ∉ s.trace → Joined L found asks s))
    (hx : Coupled asks s x) :
    (∃ done, Framed (step L s x) done) ∧
      (.error ∉ (step L s x).trace → Joined L found asks (step L s x)) := by
  have hframed := step_framed L s x hs.1 hx.receiving
  refine ⟨hframed, fun herr => ?_⟩
  obtain ⟨done, hf⟩ := hs.1
  obtain ⟨done', hf'⟩ := hframed
  have hs := hs.2 fun h => herr ((step_trace L s x).subset h)
  have hone : OneByOne s x := by
    cases x with
    | dispatch a => exact ⟨hx, fun k hk => hs.oneByOne hS hf hk⟩
    | store => exact hx.elim
    | _ => trivial
  have hcarried := step_carried L s x (fun _ => hs.carried) hx.receiving herr
  have hchained := step_chained L found hL s x (fun _ => hs.chained) hone herr
  have howned := step_owned_of_no_error L s x (fun _ => hs.owned) herr
  have horder := step_inOrder L s x hs.owned hs.inOrder herr
  have hresponses := responses_prefix (step_trace L s x)
  have hquiet (hreceived : (step L s x).received = s.received) :
      Joined L found asks (step L s x) :=
    hs.quiet hS hf' hcarried hchained howned horder hreceived hresponses
  cases x with
  | packet data ticks timestamp =>
    have htrace := onReceiveCallback_trace data ticks timestamp s
    have hsame : (s.onReceiveCallback data ticks timestamp).responses = s.responses := by
      rw [State.responses, htrace]
      exact List.append_nil _
    have hreceived : (s.onReceiveCallback data ticks timestamp).received = s.received ++ data := by
      rw [State.received, htrace]
      rfl
    have hwritten := hx.2
    rw [hs.written_eq hS htest, ← hreceived] at hwritten
    refine ⟨hcarried, hchained, howned, horder, ?_, ?_⟩
    · exact hsame ▸ hs.answers
    · exact hsame ▸ hwritten
  | connect => exact hx.elim
  | _ => exact hquiet (step_received L s ⟨by simp, by simp⟩)

omit hS htest in
theorem joined_connect (t : S) : Joined L found asks (State.init t).onConnectCallback := by
  have herr : .error ∉ (step L (State.init t) .connect).trace := by
    intro h
    cases List.mem_singleton.mp h
  refine ⟨carried_connect L t, ⟨fun k => .inl ⟨rfl, rfl⟩, fun e he => (by cases he)⟩,
    step_owned_of_no_error L (State.init t) .connect (fun _ => owned_init t) herr,
    step_inOrder L (State.init t) .connect (owned_init t) (inOrder_init t) herr, ?_, ?_⟩
  · exact List.nil_prefix
  · exact List.nil_prefix

/-- All that was written was received and worked off, so all calls were made. -/
theorem Joined.all_answered {s : State S} {done : List UInt8} (hs : Joined L found asks s)
    (hf : Framed s done) (hconnected : s.connected = true) (hidle : s.stage = .idle)
    (hrx : s.rx = []) (hsettled : Settled s) (hreceived : s.received = written asks s.wired) :
    completed (asks.map (Ask.answer found)) (marks s.responses) = asks.length := by
  rw [hs.written_eq hS htest] at hreceived
  have hdecodes := hf.decodes_eq_messages hconnected hidle hrx (messages_short _) hreceived
  have hasked := decoded_asked found hS hs.carried hdecodes
  rw [decodedRequest_of_idle hidle, List.append_nil, List.map_take] at hasked
  have hparts (K : ResponseType) : part Mark.type K (marks s.responses) =
      part Mark.type K ((asks.map (Ask.answer found)).take
        (completed (asks.map (Ask.answer found)) (marks s.responses) + 1)).flatten := by
    rw [parts_eq found hs.carried.faithful hs.chained hs.inOrder hsettled K, ← hasked,
      ← List.flatMap_def]
  have hall := flatten_of_parts hs.answers (answers_uniform asks) hparts
  rwa [List.length_map] at hall

end Steps

/-- A client makes its calls one after the other, in one connection. The badge takes what the
client has written in any packets that fit its FIFOs, while its timers run and streams are
sent, and the client gets the bytes of the badge in any pieces. In every such run without an
error each call that returned has returned the answer to its own request: a data call the
chunks that the storer finds for its timestamp, each once and in order, a status or start call
a response of its own type. And when all that was written was received and worked off, every
call has returned.

Left out are runs with a test call, runs in which the transmit FIFO is full when a response is
handed over, and runs in which something is stored. A restart is taken as in the unit tests,
where the chip is not reset. -/
theorem calls_answered (hL : L.Finds found) (hS : Speaks L) {asks : List Ask}
    (htest : ∀ a ∈ asks, a.type ≠ .test) (t : S) {as : List (Action S)}
    (h : Along (step L) (Coupled asks) (State.init t).onConnectCallback as)
    (herr : .error ∉ (run (step L) (State.init t) (.connect :: as)).trace) {b : Badge}
    (hc : b.connection.connected = true) (hsent : b.connection.sent = [])
    (hs : b.connection.stream = (run (step L) (State.init t) (.connect :: as)).wired) :
    List.Forall₂ (Right found (run (step L) (State.init t) (.connect :: as)).responses)
      (asks.take (session asks b).1.length) (session asks b).1 ∧
    ((run (step L) (State.init t) (.connect :: as)).stage = .idle →
      (run (step L) (State.init t) (.connect :: as)).rx = [] →
      Settled (run (step L) (State.init t) (.connect :: as)) →
      (run (step L) (State.init t) (.connect :: as)).received =
        (session asks b).2.connection.sent.flatten →
      (session asks b).1.length = asks.length) := by
  obtain ⟨⟨done, hf⟩, hjoined⟩ :
      (∃ done, Framed (run (step L) (State.init t) (.connect :: as)) done) ∧
      (Entry.error ∉ (run (step L) (State.init t) (.connect :: as)).trace →
        Joined L found asks (run (step L) (State.init t) (.connect :: as))) :=
    run_invariant (step_joined hS htest hL)
      ⟨⟨[], framed_connect rfl rfl⟩, fun _ => joined_connect t⟩ h
  generalize run (step L) (State.init t) (.connect :: as) = s at herr hs hf hjoined ⊢
  have hjoined := hjoined herr
  obtain ⟨value, hvalue⟩ := hS.seen
  obtain ⟨hseen, hwired⟩ := hvalue s hjoined.carried.faithful
  obtain ⟨hlen, hrights, hsent'⟩ :=
    session_answered found htest hseen hc (hs.trans hwired) hjoined.answers
  refine ⟨hrights, fun hidle hrx hsettled hreceived => ?_⟩
  have hconnected : s.connected = true := by
    cases hconnected : s.connected with
    | true => rfl
    | false => exact absurd (hf.gone hconnected) herr
  rw [hsent', hsent, List.nil_append, frames_messages] at hreceived
  rw [hlen]
  refine hjoined.all_answered hS htest hf hconnected hidle hrx hsettled ?_
  rw [hjoined.written_eq hS htest, hreceived]

end OpenBadge.Framework
