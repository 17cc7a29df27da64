import OpenBadge.RequestHandler.Framing

/-!
# Every message is taken, with the time it came

As long as the connection is not dropped, every message that was received is
decoded, and the timepoint taken down with it is that of the packet that held
its first byte.
-/

namespace OpenBadge.RequestHandler

open OpenBadge.Lib

variable {S : Type} (L : Libraries S) (a : Answers)

/-! ## The history only grows -/

theorem Flow.trace_suffix {s t : State S} (h : Flow s t) : s.trace <:+ t.trace := by
  obtain ⟨new, he, -⟩ := h.trace
  exact ⟨new, he.symm⟩

theorem Continues.trace_suffix {s t : State S} (h : Continues L a s t) : s.trace <:+ t.trace := by
  cases h with
  | decodes => exact List.suffix_cons ..
  | rejects => exact (List.suffix_cons ..).trans (List.suffix_cons ..)
  | loses => exact List.suffix_cons ..
  | lacks => exact List.suffix_cons ..
  | handles _ run => exact (List.suffix_cons ..).trans run.flow.trace_suffix
  | _ => exact List.suffix_refl _

theorem Runs.trace_suffix {e : Event} {s t : State S} (h : Runs L a e s t) :
    s.trace <:+ t.trace := by
  cases h with
  | sends _ run => exact run.flow.trace_suffix
  | handles _ run => exact run.flow.trace_suffix
  | responds _ run => exact run.flow.trace_suffix
  | _ => exact List.suffix_refl _

theorem onReceiveCallback_trace (data : List UInt8) (ticks : Nat) (timestamp : Timestamp)
    (s : State S) : (s.onReceiveCallback data ticks timestamp).trace =
      .packet data ticks :: s.trace := by
  unfold State.onReceiveCallback State.receiveNotificationHandler
  split <;> rfl

theorem step_trace (s : State S) (x : Action S) : s.trace <:+ (step L s x).trace := by
  refine step_keeps L (I := fun t => s.trace <:+ t.trace) (C := fun _ _ => True)
    ?_ ?_ ?_ ?_ ?_ ?_ ?_ ?_ s x (List.suffix_refl _) trivial
  · intro t data ticks timestamp ht _
    rw [onReceiveCallback_trace]
    exact ht.trans (List.suffix_cons ..)
  · exact fun t ht _ => ht.trans (List.suffix_cons ..)
  · exact fun t ht _ => ht.trans (List.suffix_cons ..)
  · exact fun t f g ht _ => ht
  · exact fun t c ht _ _ => ht.trans (List.suffix_cons ..)
  · exact fun t u ht _ => ht
  · exact fun t a e es u ht _ _ _ run => ht.trans (run.trace_suffix L a)
  · exact fun t a u ht _ _ run => ht.trans (run.trace_suffix L a)

/-- The request event has its owner as long as no error has dropped the connection. -/
theorem step_owned_of_no_error (s : State S) (x : Action S) (hs : .error ∉ s.trace → Owned s)
    (herr : .error ∉ (step L s x).trace) : Owned (step L s x) := by
  have hs' := hs fun h => herr ((step_trace L s x).subset h)
  cases x with
  | dispatch a =>
    have hrun := dispatch_dispatches L a s
    change Owned (dispatch L a s)
    change .error ∉ (dispatch L a s).trace at herr
    generalize dispatch L a s = t at hrun herr
    cases hrun with
    | nothing => exact hs'
    | event idle queue run => exact run.owned L a hs' idle queue fun _ h => absurd h herr
    | goesOn running run => exact run.owned L a hs' running
  | _ => exact step_owned L s _ hs' trivial

theorem owned_of_no_error (t : S) (as : List (Action S))
    (herr : .error ∉ (run (step L) (State.init t) as).trace) :
    Owned (run (step L) (State.init t) as) := by
  have hstep : ∀ s x, (.error ∉ s.trace → Owned s) → True →
      (.error ∉ (step L s x).trace → Owned (step L s x)) :=
    fun s x hs _ => step_owned_of_no_error L s x hs
  exact run_invariant hstep (fun _ => owned_init t) (Along.of_forall (fun _ _ => trivial) as) herr

/-! ## No notification is left behind -/

/-- An event is queued that looks for the next notification. -/
def State.Looks (s : State S) : Prop := ∃ e ∈ s.queue, e.handler = .processReceiveNotification

/-- While notifications are there, the next request is being processed or looked for. -/
def Awake (s : State S) : Prop :=
  s.notifications ≠ [] → s.processingReceiveNotification = true ∨ s.Looks

theorem State.Looks.append {s t : State S} {es : List Event} (h : s.Looks)
    (hq : t.queue = s.queue ++ es) : t.Looks := by
  obtain ⟨e, he, hh⟩ := h
  exact ⟨e, hq ▸ List.mem_append_left _ he, hh⟩

theorem State.Looks.of_append {t : State S} {es es' : List Event}
    (hq : t.queue = es ++ es') (h : ⟨.processReceiveNotification, 0⟩ ∈ es') : t.Looks :=
  ⟨_, hq ▸ List.mem_append_right _ h, rfl⟩

theorem Awake.append {s t : State S} {es : List Event} (h : Awake s)
    (hn : t.notifications = s.notifications)
    (hp : t.processingReceiveNotification = s.processingReceiveNotification)
    (hq : t.queue = s.queue ++ es) : Awake t := by
  intro ht
  rcases h (hn ▸ ht) with h | h
  · exact .inl (hp.trans h)
  · exact .inr (h.append hq)

theorem Awake.of_nil {s : State S} (h : s.notifications = []) : Awake s := fun hn => absurd h hn

theorem Sends.awake {s t : State S} (h : Sends L a s t) (hs : Awake s) : Awake t := by
  cases h with
  | dropped => exact .of_nil rfl
  | sent => exact hs.append rfl rfl rfl
  | retried => exact hs.append rfl rfl rfl

theorem StreamEnds.awake {o : Nat} {b : Bool} {s t : State S} (h : StreamEnds a s o b t)
    (hs : Awake s) : Awake t := by
  cases h with
  | pumped => exact hs.append rfl rfl rfl
  | idle => exact hs
  | stopped => exact hs

theorem Responds.awake {o : Nat} {r : ResponseType} {s t : State S} (h : Responds L a o s r t)
    (hs : Awake s) : Awake t := by
  cases h with
  | busy => exact hs.append rfl rfl rfl
  | answered _ _ sends => exact sends.awake L a fun _ => .inr (.of_append rfl (by simp))
  | chunk _ _ sends => exact sends.awake L a hs
  | last _ _ _ sends => exact sends.awake L a hs
  | kept => exact hs.append rfl rfl rfl
  | tested _ sends => exact sends.awake L a hs
  | quiet _ _ ends => exact ends.awake a hs
  | streamed _ _ sends ends => exact ends.awake a (sends.awake L a hs)

theorem Handles.awake {o : Nat} {r : RequestType} {s t : State S} (h : Handles L a o s r t)
    (hs : Awake s) : Awake t := by
  cases h with
  | retried => exact hs.append rfl rfl rfl
  | answered => exact hs.append rfl rfl rfl
  | dropped => exact .of_nil rfl
  | _ => exact fun _ => .inr (.of_append rfl (by simp))

/-- Before its request is known, `process_receive_notification` holds the flag. -/
theorem Continues.awake {s t : State S} (h : Continues L a s t) (hs : Awake s)
    (hp : s.processingReceiveNotification = true) : Awake t := by
  cases h with
  | rejects => exact .of_nil rfl
  | loses => exact .of_nil rfl
  | lacks => exact .of_nil rfl
  | handles _ run => exact run.awake L a hs
  | _ => exact fun _ => .inl hp

theorem Runs.awake {e : Event} {es : List Event} {s t : State S} (hs : Awake s)
    (hq : s.queue = e :: es) (h : Runs L a e { s with queue := es } t) : Awake t := by
  have pop (he : e.handler ≠ .processReceiveNotification) : Awake { s with queue := es } := by
    intro hn
    rcases hs hn with hp | ⟨e', hmem, hl⟩
    · exact .inl hp
    · rw [hq, List.mem_cons] at hmem
      rcases hmem with rfl | hmem
      · exact absurd hl he
      · exact .inr ⟨e', hmem, hl⟩
  cases h with
  | waits => exact fun _ => .inr (.of_append rfl (by simp))
  | rests _ _ none => exact .of_nil none
  | begins => exact fun _ => .inl rfl
  | sends send run => exact run.awake L a (pop (by rw [send]; decide))
  | handles request run => exact run.awake L a (pop (by simp [request]))
  | responds response run => exact run.awake L a (pop (by simp [response]))

/-- A running `process_receive_notification` holds its flag. -/
def Busy (s : State S) : Prop := s.stage ≠ .idle → s.processingReceiveNotification = true

theorem Busy.of_idle {s : State S} (h : s.stage = .idle) : Busy s := fun hi => absurd h hi

theorem Runs.busy {e : Event} {s t : State S} (h : Runs L a e s t) (hi : s.stage = .idle) :
    Busy t := by
  cases h with
  | waits => exact .of_idle hi
  | rests => exact .of_idle hi
  | begins => exact fun _ => rfl
  | sends _ run => exact .of_idle (run.flow.stage.trans hi)
  | handles _ run => exact .of_idle (run.flow.stage.trans hi)
  | responds _ run => exact .of_idle (run.flow.stage.trans hi)

theorem Continues.busy {s t : State S} (h : Continues L a s t)
    (hp : s.processingReceiveNotification = true) : Busy t := by
  cases h with
  | rejects => exact .of_idle rfl
  | loses => exact .of_idle rfl
  | lacks => exact .of_idle rfl
  | handles _ run => exact .of_idle run.flow.stage
  | _ => exact fun _ => hp

theorem onReceiveCallback_awake (data : List UInt8) (ticks : Nat) (timestamp : Timestamp)
    {s : State S} (hs : Awake s ∧ Busy s) :
    Awake (s.onReceiveCallback data ticks timestamp) ∧
      Busy (s.onReceiveCallback data ticks timestamp) := by
  unfold State.onReceiveCallback State.receiveNotificationHandler
  split
  · exact ⟨fun _ => .inr (.of_append rfl (by simp)), hs.2⟩
  · exact hs

theorem step_awake (s : State S) (x : Action S) (hs : Awake s ∧ Busy s) :
    Awake (step L s x) ∧ Busy (step L s x) := by
  refine step_keeps L (I := fun s => Awake s ∧ Busy s) (C := fun _ _ => True)
    ?_ ?_ ?_ ?_ ?_ ?_ ?_ ?_ s x hs trivial
  · exact fun s data ticks timestamp hs _ => onReceiveCallback_awake data ticks timestamp hs
  · exact fun s hs _ => hs
  · exact fun s hs _ => hs
  · exact fun s f g hs _ => hs
  · exact fun s c _ _ _ => ⟨.of_nil rfl, .of_idle rfl⟩
  · exact fun s t hs _ => hs
  · intro s a e es t hs _ idle queue run
    exact ⟨run.awake L a hs.1 queue, run.busy L a (by exact idle)⟩
  · intro s a t hs _ running run
    exact ⟨run.awake L a hs.1 (hs.2 running), run.busy L a (hs.2 running)⟩

/-! ## The timepoint of a message -/

/-- What was taken down for the message that is being read. -/
def Stage.capture : Stage → Option Capture
  | .header c => some c
  | .awaitHeader c => some c
  | .data c _ => some c
  | .awaitData c _ => some c
  | .consume c _ => some c
  | .decode c _ => some c
  | _ => none

/-- Where the message that is being read begins among the received bytes. -/
def State.offset (s : State S) : Nat := s.received.length - (s.stage.read ++ s.rx).length

/-- The timepoints that were taken down are those of the packets with the first bytes. -/
structure Timed (s : State S) : Prop where
  positive : ∀ n ∈ s.notifications, 0 < n.len
  captured : ∀ c, s.stage.capture = some c → s.stamps[s.offset]? = some c.notification.ticks
  decoded : ∀ i d, s.decodes[i]? = some d →
    s.stamps[((s.decodes.take i).flatMap fun d => frame d.1).length]? = some d.2

theorem Framed.offset_eq {s : State S} {done : List UInt8} (hs : Framed s done) :
    s.offset = done.length := by
  unfold State.offset
  rw [hs.bytes, List.append_assoc, List.length_append]
  exact Nat.add_sub_cancel ..

theorem getElem?_append_some {α : Type} {l : List α} {i : Nat} {x : α} (h : l[i]? = some x)
    (l' : List α) : (l ++ l')[i]? = some x := by
  obtain ⟨hi, -⟩ := List.getElem?_eq_some_iff.mp h
  rw [List.getElem?_append_left hi, h]

theorem Timed.packet {s : State S} {done data : List UInt8} (hf : Framed s done) (hs : Timed s)
    (h : s.Fits data) (hd : data ≠ []) (ticks : Nat) (timestamp : Timestamp) :
    Timed (s.onReceiveCallback data ticks timestamp) := by
  have hoff := (hf.packet h ticks timestamp).offset_eq.trans hf.offset_eq.symm
  rw [onReceiveCallback_fits h] at hoff ⊢
  have hdec : { s with trace := .packet data ticks :: s.trace }.decodes = s.decodes :=
    List.append_nil _
  refine ⟨?_, ?_, ?_⟩
  · intro n hn
    rcases List.mem_append.mp hn with hn | hn
    · exact hs.positive n hn
    · obtain rfl := List.mem_singleton.mp hn
      exact List.length_pos_of_ne_nil hd
  · intro c hc
    rw [hoff]
    exact getElem?_append_some (hs.captured c hc) _
  · intro i d hi
    change { s with trace := .packet data ticks :: s.trace }.decodes[i]? = some d at hi
    change (s.stamps ++ _)[(List.flatMap (fun d => frame d.1)
      ({ s with trace := .packet data ticks :: s.trace }.decodes.take i)).length]? = _
    rw [hdec] at hi ⊢
    exact getElem?_append_some (hs.decoded i d hi) _

theorem Timed.flow {s t : State S} (hs : Timed s) (h : Flow s t) (hi : s.stage = .idle) :
    Timed t := by
  refine ⟨?_, ?_, ?_⟩
  · rcases h.input with ⟨-, hn, -⟩ | ⟨-, hn, -⟩
    · rw [hn]
      exact hs.positive
    · rw [hn]
      exact fun n hn => by cases hn
  · intro c hc
    rw [h.stage, hi] at hc
    cases hc
  · rw [h.decodes_eq, h.stamps_eq]
    exact hs.decoded

/-- `process_receive_notification` begins with the first packet of the next message. -/
theorem Timed.begins {s : State S} {done : List UInt8} {n : ReceiveNotification}
    {ns : List ReceiveNotification} (hf : Framed s done) (hs : Timed s) (hi : s.stage = .idle)
    (hn : s.notifications = n :: ns) : s.stamps[s.offset]? = some n.ticks := by
  obtain ⟨u, hu⟩ := hf.notes
  have hcount := hf.counted
  have hbytes := congrArg List.length hf.bytes
  rw [hi] at hcount hbytes
  have hlen := congrArg List.length hu
  simp only [List.length_append, Stage.read, Stage.taken, List.length_nil] at hcount hbytes hlen
  rw [stamps_length] at hlen
  have hpos := hs.positive n (by rw [hn]; exact List.mem_cons_self)
  obtain ⟨m, hm⟩ : ∃ m, n.len = m + 1 := ⟨n.len - 1, by omega⟩
  rw [hf.offset_eq, ← hu, List.getElem?_append_right (by omega),
    show done.length - u.length = 0 by omega, hn, noteStamps, List.flatMap_cons, hm,
    List.replicate_succ]
  rfl

theorem Timed.abort {s : State S} {r : RequestEvent} {n : Nat} {tr : List Entry}
    (hst : gather Entry.stamps (current tr) = s.stamps)
    (hd : ∀ i d, (gather Entry.decoded (current tr))[i]? = some d →
      s.stamps[(((gather Entry.decoded (current tr)).take i).flatMap
        fun d => frame d.1).length]? = some d.2) :
    Timed (abort L { s with requestEvent := r, serial := n, trace := tr }) := by
  have hdec : (RequestHandler.abort L { s with
      requestEvent := r
      serial := n
      trace := tr }).decodes = gather Entry.decoded (current tr) := List.append_nil _
  have hstamps : (RequestHandler.abort L { s with
      requestEvent := r
      serial := n
      trace := tr }).stamps = s.stamps := (List.append_nil _).trans hst
  refine ⟨fun n hn => (by cases hn), fun c hc => (by cases hc), ?_⟩
  rw [hdec, hstamps]
  exact hd

/-- The message in `bytes` is the next to be decoded. -/
theorem Timed.decode {s : State S} {done bytes : List UInt8} {c : Capture} (hf : Framed s done)
    (hs : Timed s) (hst : s.stage = .decode c bytes) : ∀ i d,
    (s.decodes ++ [(bytes, c.notification.ticks)])[i]? = some d →
    s.stamps[(((s.decodes ++ [(bytes, c.notification.ticks)]).take i).flatMap
      fun d => frame d.1).length]? = some d.2 := by
  intro i d hi
  have hconn := hf.connected (by simp [hst]) (by simp [hst])
  by_cases hlt : i < s.decodes.length
  · rw [List.getElem?_append_left hlt] at hi
    rw [List.take_append_of_le_length (Nat.le_of_lt hlt)]
    exact hs.decoded i d hi
  · have hlen := (List.getElem?_eq_some_iff.mp hi).1
    rw [List.length_append, List.length_singleton] at hlen
    obtain rfl : i = s.decodes.length := by omega
    rw [List.getElem?_append_right (Nat.le_refl _), Nat.sub_self] at hi
    obtain rfl := Option.some.inj hi
    rw [List.take_append_of_le_length (Nat.le_refl _), List.take_length]
    have hcap := hs.captured c (by rw [hst]; rfl)
    rw [hf.offset_eq, hf.exact hconn] at hcap
    exact hcap

/-- `process_receive_notification` goes on with the message it is reading. -/
theorem Timed.proceed {s t : State S} (hs : Timed s) (htr : t.trace = s.trace)
    (hread : (t.stage.read ++ t.rx).length = (s.stage.read ++ s.rx).length)
    (hn : ∀ n ∈ t.notifications, 0 < n.len) (hc : t.stage.capture = s.stage.capture) :
    Timed t := by
  have hrec : t.received = s.received := by unfold State.received; rw [htr]
  have hst : t.stamps = s.stamps := by unfold State.stamps; rw [htr]
  have hdec : t.decodes = s.decodes := by unfold State.decodes; rw [htr]
  have hoff : t.offset = s.offset := by unfold State.offset; rw [hrec, hread]
  refine ⟨hn, ?_, ?_⟩
  · rw [hst, hoff, hc]
    exact hs.captured
  · rw [hst, hdec]
    exact hs.decoded

theorem Continues.timed {s t : State S} {done : List UInt8} (hf : Framed s done) (hs : Timed s)
    (h : Continues L a s t) : Timed t := by
  cases h with
  | waits => exact hs
  | asksHeader stage =>
    exact hs.proceed rfl (by rw [stage]; rfl) hs.positive (by rw [stage]; rfl)
  | readsHeader stage there =>
    refine hs.proceed rfl ?_ hs.positive (by rw [stage]; rfl)
    rw [stage]
    simp only [Stage.read, lengthHeader, List.length_append, List.length_drop, List.length_cons,
      List.length_nil]
    omega
  | asksData stage =>
    exact hs.proceed rfl (by rw [stage]; rfl) hs.positive (by rw [stage]; rfl)
  | readsData stage there =>
    refine hs.proceed rfl ?_ hs.positive (by rw [stage]; rfl)
    rw [stage]
    simp only [Stage.read, lengthHeader, List.length_append, List.length_drop, List.length_cons,
      List.length_nil, frame_length, List.length_take]
    omega
  | consumes stage consumed =>
    refine hs.proceed rfl (by rw [stage]; rfl) ?_ (by rw [stage]; rfl)
    intro n hn
    obtain ⟨m, hm, -, hpos⟩ := consumeNotifications_mem consumed n hn
    exact hpos (hs.positive m hm)
  | decodes stage =>
    exact ⟨hs.positive, fun c hc => (by cases hc), fun i d hi =>
      getElem?_append_some (Timed.decode hf hs stage i d hi) _⟩
  | rejects stage =>
    exact .abort L (List.append_nil _) (Timed.decode hf hs stage)
  | loses => exact .abort L rfl hs.decoded
  | lacks => exact .abort L rfl hs.decoded
  | @handles c r _ stage run =>
    have hst : { s with trace := .taken s.serial r c s.requestEvent.request :: s.trace
      }.stamps = s.stamps := List.append_nil _
    have hdec : { s with trace := .taken s.serial r c s.requestEvent.request :: s.trace
      }.decodes = s.decodes := List.append_nil _
    have hs' : Timed { s with
        stage := .idle
        trace := .taken s.serial r c s.requestEvent.request :: s.trace } := by
      refine ⟨hs.positive, fun c hc => (by cases hc), ?_⟩
      change ∀ i d, { s with trace := .taken s.serial r c s.requestEvent.request :: s.trace
        }.decodes[i]? = some d → _
      rw [hdec]
      intro i d hi
      have := hs.decoded i d hi
      rw [← hst, ← hdec] at this
      exact this
    exact hs'.flow run.flow rfl

theorem Runs.timed {e : Event} {es : List Event} {s t : State S} {done : List UInt8}
    (hf : Framed s done) (hs : Timed s) (hi : s.stage = .idle)
    (h : Runs L a e { s with queue := es } t) : Timed t := by
  cases h with
  | waits => exact hs.flow (.of_same rfl rfl rfl rfl rfl) hi
  | rests => exact hs.flow (.of_same rfl rfl rfl rfl rfl) hi
  | @begins n ns _ _ first =>
    refine ⟨hs.positive, ?_, hs.decoded⟩
    intro c hc
    obtain rfl := Option.some.inj hc
    have hbegin := Timed.begins hf hs hi first
    unfold State.offset at hbegin
    rw [hi] at hbegin
    exact hbegin
  | sends _ run => exact hs.flow (run.flow.after rfl rfl rfl rfl rfl) hi
  | handles _ run => exact hs.flow (run.flow.after rfl rfl rfl rfl rfl) hi
  | responds _ run => exact hs.flow (run.flow.after rfl rfl rfl rfl rfl) hi

/-! ## The connection is kept -/

theorem Sends.no_error {s t : State S} (h : Sends L a s t) (hd : ¬ SendFails L a s)
    (hs : .error ∉ s.trace) : .error ∉ t.trace := by
  cases h with
  | dropped fails => exact absurd fails hd
  | sent => simpa using hs
  | retried => simpa using hs

theorem Responds.no_error {o : Nat} {r : ResponseType} {s t : State S} (h : Responds L a o s r t)
    (hd : ¬ Drops L a ⟨.response r, o⟩ s) (hs : .error ∉ s.trace) : .error ∉ t.trace := by
  cases h with
  | busy => exact hs
  | answered free own sends =>
    refine sends.no_error L a (not_sendFails_prepare L a hd free ?_ rfl) hs
    cases r <;> first | exact own | cases own
  | chunk free next sends =>
    exact sends.no_error L a
      (not_sendFails_prepare L a hd free (by simp [responseToSend, next]) rfl) hs
  | last free next ends sends =>
    exact sends.no_error L a
      (not_sendFails_prepare L a hd free (by simp [responseToSend, next, ends]) rfl) hs
  | kept => exact hs
  | tested free sends =>
    exact sends.no_error L a (not_sendFails_prepare L a hd free rfl rfl) hs
  | quiet _ _ ends => exact ends.trace_eq a ▸ hs
  | streamed free some sends ends =>
    rw [ends.trace_eq]
    exact sends.no_error L a
      (not_sendFails_prepare L a hd free (by simp [responseToSend, some]) rfl) hs

theorem error_not_mem_calls {calls tr : List Entry} (only : ∀ e ∈ calls, e.isCall = true)
    (hs : .error ∉ tr) : .error ∉ calls ++ tr := by
  intro h
  rcases List.mem_append.mp h with h | h
  · exact absurd (only _ h) (by decide)
  · exact hs h

theorem Handles.no_error {o : Nat} {r : RequestType} {s t : State S} (h : Handles L a o s r t)
    (hb : a.assignmentFails = false) (hs : .error ∉ s.trace) : .error ∉ t.trace := by
  cases h with
  | retried _ only => exact error_not_mem_calls only hs
  | answered _ only => exact error_not_mem_calls only hs
  | dropped fails =>
    rw [hb] at fails
    cases fails
  | joins _ _ only => exact error_not_mem_calls only hs
  | starts _ _ only => exact error_not_mem_calls only hs
  | _ => exact hs

theorem Runs.no_error {e : Event} {s t : State S} (h : Runs L a e s t) (hd : ¬ Drops L a e s)
    (hb : a.assignmentFails = false) (hs : .error ∉ s.trace) : .error ∉ t.trace := by
  cases h with
  | sends send run => exact run.no_error L a (not_sendFails_send L a send hd) hs
  | handles _ run => exact run.no_error L a hb hs
  | responds response run =>
    obtain ⟨h, o⟩ := e
    cases response
    exact run.no_error L a hd hs
  | _ => exact hs

/-- The messages are short enough for their header and decode to known requests. -/
def Libraries.Accepts (msgs : List (List UInt8)) : Prop :=
  ∀ m ∈ msgs, m.length < 2 ^ 16 ∧ (L.decode m).2 = true ∧
    (findRequestHandler (L.decode m).1.whichType).isSome = true

/-- The message that is about to be decoded is one of those that were sent. -/
theorem Framed.next_mem {s : State S} {done bytes : List UInt8} {c : Capture} (hs : Framed s done)
    (hst : s.stage = .decode c bytes) {msgs : List (List UInt8)}
    (hm : ∀ m ∈ msgs, m.length < 2 ^ 16) (hr : s.received <+: msgs.flatMap frame) :
    bytes ∈ msgs := by
  have hconn := hs.connected (by simp [hst]) (by simp [hst])
  have hmess := hs.message
  rw [hst] at hmess
  have hpre : s.decodes.map Prod.fst ++ [bytes] <+: msgs := by
    refine frame_prefixFree.of_flatMap (fun m => by simp [frame, lengthHeader]) ?_ hm ?_
    · intro m hmem
      rcases List.mem_append.mp hmem with h | h
      · obtain ⟨d, hd, rfl⟩ := List.mem_map.mp h
        exact Nat.lt_of_le_of_lt (hs.short d hd) (by decide)
      · obtain rfl := List.mem_singleton.mp h
        exact Nat.lt_of_le_of_lt hmess (by decide)
    · refine List.IsPrefix.trans ?_ hr
      rw [hs.bytes, hst, hs.exact hconn, List.flatMap_append, List.flatMap_map]
      refine ⟨s.rx, ?_⟩
      simp [State.frames, Stage.read]
  exact hpre.subset (List.mem_append_right _ (List.mem_singleton.mpr rfl))

/-- The wait for the notifications of a message that was read never fails. -/
theorem Framed.not_lacks {s : State S} {done bytes : List UInt8} {c : Capture} (hs : Framed s done)
    (hst : s.stage = .consume c bytes) :
    consumeNotifications ((bytes.length + 2) % 2 ^ 16) s.notifications ≠ none := by
  intro hnone
  have hcount := hs.counted
  rw [hst] at hcount
  have hlt := Nat.lt_of_lt_of_le (consumeNotifications_none hnone) (Nat.mod_le ..)
  rw [hcount] at hlt
  simp only [Stage.taken] at hlt
  omega

theorem Continues.no_error {s t : State S} {done : List UInt8} (hf : Framed s done)
    {msgs : List (List UInt8)} (hm : L.Accepts msgs) (hr : s.received <+: msgs.flatMap frame)
    (h : Continues L a s t) (hb : a.assignmentFails = false) (hs : .error ∉ s.trace) :
    .error ∉ t.trace := by
  cases h with
  | decodes => simpa using hs
  | rejects stage bad =>
    obtain ⟨-, hacc, hknown⟩ := hm _ (hf.next_mem stage (fun m h => (hm m h).1) hr)
    rcases bad with h | h
    · rw [hacc] at h
      cases h
    · rw [h] at hknown
      cases hknown
  | loses _ gone => exact absurd (hf.gone gone) hs
  | lacks stage missing => exact absurd missing (hf.not_lacks stage)
  | handles _ run => exact run.no_error L a hb (by simpa using hs)
  | _ => exact hs

/-! ## All messages are decoded -/

/-- The stream of messages comes in as non-empty packets that fit into the FIFOs, on one
connection, and no wait gives up. -/
def Delivering (msgs : List (List UInt8)) (s : State S) : Action S → Prop
  | .packet data _ _ => data ≠ [] ∧ s.Fits data ∧ s.received ++ data <+: msgs.flatMap frame
  | .connect => False
  | .disconnect => False
  | .awaitTimeout => False
  | _ => True

/-- No response is given up, and no badge assignment fails for good. -/
def Answering (s : State S) : Action S → Prop
  | .dispatch a => a.assignmentFails = false ∧
      (s.stage = .idle → ∀ e ∈ s.queue.head?, ¬ Drops L a e s)
  | _ => True

instance (msgs : List (List UInt8)) (s : State S) : ∀ x, Decidable (Delivering msgs s x)
  | .packet data _ _ => inferInstanceAs (Decidable (data ≠ [] ∧ s.Fits data ∧
      s.received ++ data <+: msgs.flatMap frame))
  | .connect => .isFalse id
  | .disconnect => .isFalse id
  | .awaitTimeout => .isFalse id
  | .samplingTimeout _ _ _ => .isTrue trivial
  | .store _ => .isTrue trivial
  | .dispatch _ => .isTrue trivial

instance (s : State S) : ∀ x, Decidable (Answering L s x)
  | .dispatch a => inferInstanceAs (Decidable (a.assignmentFails = false ∧
      (s.stage = .idle → ∀ e ∈ s.queue.head?, ¬ Drops L a e s)))
  | .packet _ _ _ => .isTrue trivial
  | .connect => .isTrue trivial
  | .disconnect => .isTrue trivial
  | .awaitTimeout => .isTrue trivial
  | .samplingTimeout _ _ _ => .isTrue trivial
  | .store _ => .isTrue trivial

/-- What holds throughout the delivery of `msgs`. -/
structure Delivered (msgs : List (List UInt8)) (s : State S) : Prop where
  framed : ∃ done, Framed s done
  timed : Timed s
  awake : Awake s ∧ Busy s
  sent : s.received <+: msgs.flatMap frame

theorem Delivering.receiving {msgs : List (List UInt8)} {s : State S} {x : Action S}
    (h : Delivering msgs s x) : Receiving s x := by
  cases x with
  | packet => exact .inr h.2.1
  | connect => exact h
  | disconnect => exact h
  | _ => trivial

/-- Only packets add to what was received. -/
theorem Runs.received_eq {e : Event} {s t : State S} (h : Runs L a e s t) :
    t.received = s.received := by
  cases h with
  | sends _ run => exact run.flow.received_eq
  | handles _ run => exact run.flow.received_eq
  | responds _ run => exact run.flow.received_eq
  | _ => rfl

theorem Continues.received_eq {s t : State S} (h : Continues L a s t) :
    t.received = s.received := by
  cases h with
  | decodes => exact List.append_nil _
  | rejects => exact (List.append_nil _).trans (List.append_nil _)
  | loses => exact List.append_nil _
  | lacks => exact List.append_nil _
  | handles _ run => exact run.flow.received_eq.trans (List.append_nil _)
  | _ => rfl

theorem step_delivered (msgs : List (List UInt8)) (s : State S) (x : Action S)
    (hs : Delivered msgs s) (hx : Delivering msgs s x) : Delivered msgs (step L s x) := by
  have hframed := step_framed L s x hs.framed hx.receiving
  have hawake := step_awake L s x hs.awake
  have htimed : Timed (step L s x) ∧ (step L s x).received <+: msgs.flatMap frame := by
    refine step_keeps L (C := fun s x => Delivering msgs s x ∧ ∃ done, Framed s done)
      (I := fun s => Timed s ∧ s.received <+: msgs.flatMap frame)
      ?_ ?_ ?_ ?_ ?_ ?_ ?_ ?_ s x ⟨hs.timed, hs.sent⟩ ⟨hx, hs.framed⟩
    · rintro s data ticks timestamp ⟨ht, -⟩ ⟨⟨hne, hfit, hsent⟩, done, hf⟩
      refine ⟨ht.packet hf hfit hne ticks timestamp, ?_⟩
      rw [onReceiveCallback_fits hfit]
      exact hsent
    · rintro s - ⟨hx, -⟩
      exact hx.elim
    · rintro s - ⟨hx, -⟩
      exact hx.elim
    · rintro s f g ⟨ht, hr⟩ -
      exact ⟨⟨ht.positive, ht.captured, ht.decoded⟩, hr⟩
    · rintro s c - ⟨hx, -⟩ -
      exact hx.elim
    · rintro s t ⟨ht, hr⟩ -
      exact ⟨⟨ht.positive, ht.captured, ht.decoded⟩, hr⟩
    · rintro s a e es t ⟨ht, hr⟩ ⟨-, done, hf⟩ idle - run
      refine ⟨run.timed L a hf ht idle, ?_⟩
      rw [run.received_eq L a]
      exact hr
    · rintro s a t ⟨ht, hr⟩ ⟨-, done, hf⟩ - run
      refine ⟨run.timed L a hf ht, ?_⟩
      rw [run.received_eq L a]
      exact hr
  exact ⟨hframed, htimed.1, hawake, htimed.2⟩

theorem delivered_connect (t : S) (msgs : List (List UInt8)) :
    Delivered msgs (State.init t).onConnectCallback := by
  refine ⟨⟨[], framed_connect rfl rfl⟩, ⟨fun n hn => (by cases hn), fun c hc => (by cases hc),
    fun i d hi => ?_⟩, ⟨.of_nil rfl, .of_idle rfl⟩, List.nil_prefix⟩
  change ([] : List (List UInt8 × Nat))[i]? = some d at hi
  cases hi

theorem step_no_error {msgs : List (List UInt8)} (hm : L.Accepts msgs) (s : State S)
    (x : Action S) (hs : .error ∉ s.trace)
    (hx : Delivered msgs s ∧ Delivering msgs s x ∧ Answering L s x) :
    .error ∉ (step L s x).trace := by
  refine step_keeps L (I := fun s => .error ∉ s.trace)
    (C := fun s x => Delivered msgs s ∧ Delivering msgs s x ∧ Answering L s x)
    ?_ ?_ ?_ ?_ ?_ ?_ ?_ ?_ s x hs hx
  · rintro s data ticks timestamp hs -
    rw [onReceiveCallback_trace]
    simpa using hs
  · rintro s - ⟨-, hx, -⟩
    exact hx.elim
  · rintro s - ⟨-, hx, -⟩
    exact hx.elim
  · exact fun s f g hs _ => hs
  · rintro s c - ⟨-, hx, -⟩ -
    exact hx.elim
  · exact fun s t hs _ => hs
  · rintro s a e es t hs ⟨-, -, hb, hd⟩ idle queue run
    exact run.no_error L a (hd idle e (by rw [queue]; rfl)) hb hs
  · rintro s a t hs ⟨⟨⟨done, hf⟩, -, -, hr⟩, -, hb, -⟩ - run
    exact run.no_error L a hf hm hr hb hs

/-- Nothing is left to do for the requests that came in. -/
def State.AtRest (s : State S) : Prop :=
  s.stage = .idle ∧ ∀ e ∈ s.queue,
    e.handler ≠ .processReceiveNotification ∧ e.handler.owns = false

instance (s : State S) : Decidable s.AtRest := inferInstanceAs (Decidable (_ ∧ _))

theorem Delivered.exhausted {msgs : List (List UInt8)} {s : State S} (hs : Delivered msgs s)
    (ho : Owned s) (hrest : s.AtRest) : s.notifications = [] := by
  by_contra hn
  rcases hs.awake.1 hn with hp | ⟨e, he, hl⟩
  · obtain ⟨e, he, -⟩ := ho.held hp hrest.1
    have hmem : e ∈ owners s.queue := by rw [he]; exact List.mem_singleton.mpr rfl
    obtain ⟨hq, hown⟩ := List.mem_filter.mp hmem
    rw [(hrest.2 e hq).2] at hown
    cases hown
  · exact (hrest.2 e he).1 hl

theorem Framed.decodes_all {s : State S} {done : List UInt8} (hs : Framed s done)
    {msgs : List (List UInt8)} (hm : ∀ m ∈ msgs, m.length < 2 ^ 16)
    (herr : .error ∉ s.trace) (hi : s.stage = .idle) (hn : s.notifications = [])
    (hr : s.received = msgs.flatMap frame) : s.decodes.map Prod.fst = msgs := by
  have hconn : s.connected = true := by
    by_contra hc
    exact herr (hs.gone (by simpa using hc))
  have hrx : s.rx = [] := by
    have hcount := hs.counted
    rw [hn, hi] at hcount
    simp only [noteStamps, Stage.taken, List.flatMap_nil, List.length_nil, Nat.zero_add] at hcount
    exact List.length_eq_zero_iff.mp hcount.symm
  have hframes : (s.decodes.map Prod.fst).flatMap frame = msgs.flatMap frame := by
    rw [← hr, hs.bytes, hi, hrx, hs.exact hconn, List.flatMap_map]
    simp [State.frames, Stage.read]
  have hpre := hs.decodes_prefix hm ⟨[], by rw [hr, List.append_nil]⟩
  refine List.IsPrefix.eq_of_length_le hpre ?_
  refine (frame_prefixFree.of_flatMap (fun m => by simp [frame, lengthHeader]) hm ?_
    ⟨[], by rw [hframes, List.append_nil]⟩).length_le
  exact fun m h => hm m (hpre.subset h)

/-- The state after a run on the first connection. -/
def onConnection (t : S) (as : List (Action S)) : State S :=
  run (step L) (State.init t) (.connect :: as)

/-- However the stream of messages is cut into packets and however their arrival interleaves
with the main loop, the messages are decoded one after the other, each with the timepoint of the
packet that held its first byte. When nothing is left to do and no error has dropped the
connection, all have been decoded; and no error does as long as the responses are not given up. -/
theorem messages_decoded {msgs : List (List UInt8)} (hm : L.Accepts msgs) (t : S)
    (as : List (Action S))
    (h : Along (step L) (Delivering msgs) (State.init t).onConnectCallback as) :
    (onConnection L t as).decodes.map Prod.fst <+: msgs ∧
    (∀ i d, (onConnection L t as).decodes[i]? = some d →
      (onConnection L t as).stamps[((msgs.take i).flatMap frame).length]? = some d.2) ∧
    ((onConnection L t as).stage = .idle →
      ((onConnection L t as).notifications.map ReceiveNotification.len).sum =
        (onConnection L t as).rx.length) ∧
    (.error ∉ (onConnection L t as).trace → (onConnection L t as).AtRest →
      (onConnection L t as).received = msgs.flatMap frame →
      (onConnection L t as).decodes.map Prod.fst = msgs) ∧
    (Along (step L) (Answering L) (State.init t).onConnectCallback as →
      .error ∉ (onConnection L t as).trace) := by
  have hs : Delivered msgs (onConnection L t as) :=
    run_invariant (step_delivered L msgs) (delivered_connect t msgs) h
  have hshort := fun m hmem => (hm m hmem).1
  obtain ⟨done, hf⟩ := hs.framed
  have hpre := hf.decodes_prefix hshort hs.sent
  refine ⟨hpre, ?_, ?_, ?_, ?_⟩
  · intro i d hi
    have htime := hs.timed.decoded i d hi
    have hi := (List.getElem?_eq_some_iff.mp hi).1
    have htake : ((onConnection L t as).decodes.take i).map Prod.fst = msgs.take i := by
      obtain ⟨rest, hrest⟩ := hpre
      rw [← hrest, List.map_take, List.take_append_of_le_length (by simp; omega)]
    rw [← htake, List.flatMap_map]
    exact htime
  · intro hi
    rw [← noteStamps_length, hf.counted, hi]
    exact Nat.zero_add _
  · intro herr hrest hall
    have ho := owned_of_no_error L t (.connect :: as) herr
    exact hf.decodes_all hshort herr hrest.1 (hs.exhausted ho hrest) hall
  · intro hans
    have hboth := Along.strengthen (step_delivered L msgs) (delivered_connect t msgs) h
    have hall : Along (step L) (fun s x => Delivered msgs s ∧ Delivering msgs s x ∧
        Answering L s x) (State.init t).onConnectCallback as :=
      (hboth.and hans).mono fun s x hx => ⟨hx.1.1, hx.1.2, hx.2⟩
    have hinit : .error ∉ (State.init t).onConnectCallback.trace := by simp [State.init]
    exact run_invariant (step_no_error L hm) hinit hall

/-- Two test requests; the second begins in the packet of the first. -/
def testTwice : List (Action Unit) :=
  [.packet [0, 1, 28, 0] 7 default] ++ List.replicate 12 (.dispatch .success) ++
    [.packet [1, 28] 8 default] ++ List.replicate 20 (.dispatch .success)

theorem messages_decoded_twice :
    (onConnection (taggedLibraries (.error .notFound)) () testTwice).decodes =
      [([28], 7), ([28], 7)] := by
  have hm : (taggedLibraries (.error .notFound)).Accepts [[28], [28]] := by
    intro m hmem
    obtain rfl : m = [28] := by simpa using hmem
    decide
  obtain ⟨-, htime, -, hall, hkeep⟩ := messages_decoded (taggedLibraries (.error .notFound)) hm ()
    testTwice (by decide +kernel)
  have hfst := hall (hkeep (by decide +kernel)) (by decide +kernel) (by decide +kernel)
  have hlen := congrArg List.length hfst
  rw [List.length_map] at hlen
  obtain ⟨x, y, hxy⟩ := List.length_eq_two.mp hlen
  rw [hxy] at hfst htime
  have hx := htime 0 x rfl
  have hy := htime 1 y rfl
  rw [show (onConnection (taggedLibraries (.error .notFound)) () testTwice).stamps =
    [7, 7, 7, 7, 8, 8] by decide +kernel] at hx hy
  obtain ⟨x1, x2⟩ := x
  obtain ⟨y1, y2⟩ := y
  simp only [List.map_cons, List.map_nil, List.cons.injEq, and_true] at hfst
  obtain rfl := hfst.1
  obtain rfl := hfst.2
  obtain rfl : 7 = x2 := Option.some.inj hx
  obtain rfl : 7 = y2 := Option.some.inj hy
  exact hxy

/-- The transmit FIFO stays full. -/
def Answers.full : Answers := { Answers.success with transmit := .error .noMem }

/-- The response to the first test request is given up just when the second request has come. -/
def givenUp : List (Action Unit) :=
  [.packet [0, 1, 28] 7 default] ++ List.replicate 60 (.dispatch .full) ++
    [.packet [0, 1, 28] 8 default] ++ List.replicate 3 (.dispatch .full)

/-- An empty packet, and then one with a test request. -/
def emptyFirst : List (Action Unit) :=
  [.packet [] 5 default, .packet [0, 1, 28] 7 default] ++ List.replicate 9 (.dispatch .success)

/-- A given-up response drops the connection and the request that waits, and an empty packet
lends its timepoint to the request behind it. -/
theorem messages_not_all_decoded :
    ((onConnection (taggedLibraries (.error .notFound)) () givenUp).queue = [] ∧
      (onConnection (taggedLibraries (.error .notFound)) () givenUp).stage = .idle ∧
      (onConnection (taggedLibraries (.error .notFound)) () givenUp).received =
        [[28], [28]].flatMap frame ∧
      (onConnection (taggedLibraries (.error .notFound)) () givenUp).decodes.map Prod.fst =
        [[28]]) ∧
    (onConnection (taggedLibraries (.error .notFound)) () emptyFirst).received =
      [[28]].flatMap frame ∧
    (onConnection (taggedLibraries (.error .notFound)) () emptyFirst).stamps = [7, 7, 7] ∧
    (onConnection (taggedLibraries (.error .notFound)) () emptyFirst).decodes = [([28], 5)] := by
  decide +kernel

end OpenBadge.RequestHandler
