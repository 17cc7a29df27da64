import OpenBadge.RequestHandler.Timing

/-!
# One connection after the other

A disconnect flushes the bytes at once and nothing else. What is decoded, its
timepoint, the answers and the counted bytes belong to the current connection, each
as long as no connection begins with something of that kind left of the one before.
-/

namespace OpenBadge.RequestHandler

open OpenBadge.Lib

variable {S : Type} (L : Libraries S) (a : Answers)

/-- The last of the connects and disconnects was a connect. -/
def linked : List Entry → Bool
  | [] => false
  | .connect :: _ => true
  | .disconnect :: _ => false
  | _ :: tr => linked tr

theorem linked_append {new : List Entry} (h : ∀ e ∈ new, e ≠ .connect ∧ e ≠ .disconnect)
    (tr : List Entry) : linked (new ++ tr) = linked tr := by
  induction new with
  | nil => rfl
  | cons x new ih =>
    have hx := h x List.mem_cons_self
    have ih := ih fun e he => h e (List.mem_cons_of_mem _ he)
    cases x <;> first | exact ih | exact absurd rfl hx.1 | exact absurd rfl hx.2

theorem Flow.linked_eq {s t : State S} (h : Flow s t) : linked t.trace = linked s.trace := by
  obtain ⟨new, he, hq⟩ := h.trace
  rw [he]
  refine linked_append (fun e hmem => ⟨?_, ?_⟩) _
  · rintro rfl
    cases hq _ hmem
  · rintro rfl
    cases hq _ hmem

/-- Packets come in over a connection and fit into the FIFOs, and `Q` holds whenever a connection
begins. -/
def Connecting (Q : State S → Prop) (s : State S) : Action S → Prop
  | .packet data _ _ => linked s.trace = true ∧ s.Takes data
  | .connect => Q s
  | _ => True

instance (Q : State S → Prop) [DecidablePred Q] (s : State S) : ∀ x, Decidable (Connecting Q s x)
  | .packet data _ _ => inferInstanceAs (Decidable (linked s.trace = true ∧ s.Takes data))
  | .connect => inferInstanceAs (Decidable (Q s))
  | .disconnect => .isTrue trivial
  | .samplingTimeout _ _ _ => .isTrue trivial
  | .awaitTimeout => .isTrue trivial
  | .store _ => .isTrue trivial
  | .dispatch _ => .isTrue trivial

/-! ## The bytes that are decoded came in over the current connection -/

/-- No message has been read that is still to be decoded. -/
def State.Decoded (s : State S) : Prop := s.stage.bytes = []

instance : DecidablePred (State.Decoded (S := S)) := fun s =>
  inferInstanceAs (Decidable (s.stage.bytes = []))

/-- The bytes are those of the current connection. -/
structure Inside (s : State S) : Prop where
  rx : s.rx <:+ s.received
  bytes : s.stage.bytes <:+: s.received
  decoded : ∀ d ∈ s.decodes, d.1 <:+: s.received

theorem Inside.packet {s : State S} {data : List UInt8} (hs : Inside s) (h : s.Takes data)
    (ticks : Nat) (timestamp : Timestamp) : Inside (s.onReceiveCallback data ticks timestamp) := by
  have hdec : { s with trace := .packet data ticks :: s.trace }.decodes = s.decodes :=
    List.append_nil _
  have hrx : s.rx ++ data.take (rxFifoSize - s.rx.length) = s.rx ++ data := by
    rcases h with rfl | h
    · rw [List.take_nil]
    · rw [List.take_of_length_le (by have := h.1; omega)]
  have grow {l : List UInt8} (h : l <:+: s.received) : l <:+: s.received ++ data :=
    h.trans (List.prefix_append ..).isInfix
  have hs' : Inside { s with
      rx := s.rx ++ data
      trace := .packet data ticks :: s.trace } := by
    refine ⟨?_, grow hs.bytes, ?_⟩
    · obtain ⟨u, hu⟩ := hs.rx
      exact ⟨u, by rw [← List.append_assoc, hu]; rfl⟩
    · change ∀ d ∈ { s with trace := .packet data ticks :: s.trace }.decodes, _
      rw [hdec]
      exact fun d hd => grow (hs.decoded d hd)
  unfold State.onReceiveCallback State.receiveNotificationHandler
  rw [hrx]
  split
  · exact ⟨hs'.rx, hs'.bytes, hs'.decoded⟩
  · exact hs'

theorem Inside.flow {s t : State S} (hs : Inside s) (h : Flow s t) (hi : s.stage = .idle) :
    Inside t := by
  refine ⟨?_, ?_, ?_⟩
  · rw [h.received_eq]
    rcases h.input with ⟨hrx, -⟩ | ⟨hrx, -⟩
    · rw [hrx]
      exact hs.rx
    · rw [hrx]
      exact List.nil_suffix
  · rw [h.stage.trans hi]
    exact List.nil_infix
  · rw [h.received_eq, h.decodes_eq]
    exact hs.decoded

/-- `process_receive_notification` gives up. -/
theorem Inside.abort {s : State S} {r : RequestEvent} {n : Nat} {tr : List Entry}
    (hrec : gather Entry.data (current tr) = s.received)
    (hd : ∀ d ∈ gather Entry.decoded (current tr), d.1 <:+: s.received) :
    Inside (abort L { s with requestEvent := r, serial := n, trace := tr }) := by
  have hdec : (RequestHandler.abort L { s with
      requestEvent := r
      serial := n
      trace := tr }).decodes = gather Entry.decoded (current tr) := List.append_nil _
  have hrec' : (RequestHandler.abort L { s with
      requestEvent := r
      serial := n
      trace := tr }).received = s.received := (List.append_nil _).trans hrec
  refine ⟨List.nil_suffix, List.nil_infix, ?_⟩
  rw [hdec, hrec']
  exact hd

/-- `process_receive_notification` goes on with the message it is reading. -/
theorem Inside.proceed {s t : State S} (hs : Inside s) (htr : t.trace = s.trace)
    (hrx : t.rx <:+ s.rx) (hb : t.stage.bytes <:+: s.received) : Inside t := by
  have hrec : t.received = s.received := by unfold State.received; rw [htr]
  have hdec : t.decodes = s.decodes := by unfold State.decodes; rw [htr]
  refine ⟨hrec ▸ hrx.trans hs.rx, hrec ▸ hb, ?_⟩
  rw [hrec, hdec]
  exact hs.decoded

/-- The message that was read may be decoded. -/
theorem Inside.decode {s : State S} {bytes : List UInt8} {c : Capture} (hs : Inside s)
    (hst : s.stage = .decode c bytes) :
    ∀ d ∈ s.decodes ++ [(bytes, c.notification.ticks)], d.1 <:+: s.received := by
  intro d hd
  rcases List.mem_append.mp hd with hd | hd
  · exact hs.decoded d hd
  · obtain rfl := List.mem_singleton.mp hd
    have hb := hs.bytes
    rw [hst] at hb
    exact hb

theorem Continues.inside {s t : State S} (hs : Inside s) (h : Continues L a s t) : Inside t := by
  cases h with
  | waits => exact hs
  | asksHeader => exact hs.proceed rfl (List.suffix_refl _) List.nil_infix
  | readsHeader => exact hs.proceed rfl (List.drop_suffix ..) List.nil_infix
  | asksData => exact hs.proceed rfl (List.suffix_refl _) List.nil_infix
  | @readsData c len =>
    exact hs.proceed rfl (List.drop_suffix ..)
      ((List.take_prefix len s.rx).isInfix.trans hs.rx.isInfix)
  | consumes stage =>
    have hb := hs.bytes
    rw [stage] at hb
    exact hs.proceed rfl (List.suffix_refl _) hb
  | @decodes c bytes r stage =>
    have hrec : { s with trace := .decode bytes c.notification.ticks :: s.trace }.received =
        s.received := List.append_nil _
    refine ⟨hrec ▸ hs.rx, List.nil_infix, fun d hd => ?_⟩
    exact hrec ▸ hs.decode stage d hd
  | rejects stage => exact .abort L (List.append_nil _) (hs.decode stage)
  | loses => exact .abort L rfl hs.decoded
  | lacks => exact .abort L rfl hs.decoded
  | @handles c r _ stage run =>
    have hs' : Inside { s with
        stage := .idle
        trace := .taken s.serial r c s.requestEvent.request :: s.trace } := by
      have hrec : { s with trace := .taken s.serial r c s.requestEvent.request :: s.trace
        }.received = s.received := List.append_nil _
      have hdec : { s with trace := .taken s.serial r c s.requestEvent.request :: s.trace
        }.decodes = s.decodes := List.append_nil _
      refine ⟨hrec ▸ hs.rx, List.nil_infix, fun d hd => ?_⟩
      exact hrec ▸ hs.decoded d (hdec ▸ hd)
    exact hs'.flow run.flow rfl

theorem Runs.inside {e : Event} {es : List Event} {s t : State S} (hs : Inside s)
    (hi : s.stage = .idle) (h : Runs L a e { s with queue := es } t) : Inside t := by
  cases h with
  | waits => exact hs.flow (.of_same rfl rfl rfl rfl rfl) hi
  | rests => exact hs.flow (.of_same rfl rfl rfl rfl rfl) hi
  | begins => exact ⟨hs.rx, List.nil_infix, hs.decoded⟩
  | sends _ run => exact hs.flow (run.flow.after rfl rfl rfl rfl rfl) hi
  | handles _ run => exact hs.flow (run.flow.after rfl rfl rfl rfl rfl) hi
  | responds _ run => exact hs.flow (run.flow.after rfl rfl rfl rfl rfl) hi

theorem inside_connect {s : State S} (hb : s.Decoded) : Inside s.onConnectCallback := by
  refine ⟨List.nil_suffix, ?_, fun d hd => (by cases hd)⟩
  change s.stage.bytes <:+: _
  rw [show s.stage.bytes = [] from hb]
  exact List.nil_infix

/-- A disconnect empties the receive FIFO and leaves the rest. -/
theorem Inside.disconnect {s : State S} (hs : Inside s) : Inside s.onDisconnectCallback := by
  have hrec : s.onDisconnectCallback.received = s.received := List.append_nil _
  have hdec : s.onDisconnectCallback.decodes = s.decodes := List.append_nil _
  refine ⟨List.nil_suffix, hrec ▸ hs.bytes, ?_⟩
  rw [hrec, hdec]
  exact hs.decoded

theorem step_inside (s : State S) (x : Action S) (hs : Inside s)
    (hx : Connecting State.Decoded s x) : Inside (step L s x) := by
  refine step_keeps L (C := Connecting State.Decoded) ?_ ?_ ?_ ?_ ?_ ?_ ?_ ?_ s x hs hx
  · exact fun s data ticks timestamp hs hx => hs.packet hx.2 ticks timestamp
  · exact fun s _ hx => inside_connect hx
  · exact fun s hs _ => hs.disconnect
  · exact fun s f g hs _ => ⟨hs.rx, hs.bytes, hs.decoded⟩
  · exact fun s c hs _ _ => .abort L rfl hs.decoded
  · exact fun s t hs _ => ⟨hs.rx, hs.bytes, hs.decoded⟩
  · exact fun s a e es t hs _ idle _ run => run.inside L a hs idle
  · exact fun s a t hs _ _ run => run.inside L a hs

/-! ## Their timepoints are those of the current connection -/

/-- No notification is queued, and none was taken down for a message that is being read. -/
def State.Unnotified (s : State S) : Prop := s.notifications = [] ∧ s.stage.capture = none

instance : DecidablePred (State.Unnotified (S := S)) := fun s =>
  inferInstanceAs (Decidable (s.notifications = [] ∧ s.stage.capture = none))

/-- The timepoints are those of the current connection. -/
structure Noted (s : State S) : Prop where
  notes : ∀ n ∈ s.notifications, n.ticks ∈ s.timepoints
  captured : ∀ c, s.stage.capture = some c → c.notification.ticks ∈ s.timepoints
  decoded : ∀ d ∈ s.decodes, d.2 ∈ s.timepoints

theorem Noted.packet {s : State S} (hs : Noted s) (data : List UInt8) (ticks : Nat)
    (timestamp : Timestamp) : Noted (s.onReceiveCallback data ticks timestamp) := by
  have hdec : { s with trace := .packet data ticks :: s.trace }.decodes = s.decodes :=
    List.append_nil _
  have hs' : Noted { s with
      rx := s.rx ++ data.take (rxFifoSize - s.rx.length)
      trace := .packet data ticks :: s.trace } := by
    refine ⟨fun n hn => List.mem_append_left _ (hs.notes n hn),
      fun c hc => List.mem_append_left _ (hs.captured c hc), ?_⟩
    change ∀ d ∈ { s with trace := .packet data ticks :: s.trace }.decodes, _
    rw [hdec]
    exact fun d hd => List.mem_append_left _ (hs.decoded d hd)
  unfold State.onReceiveCallback State.receiveNotificationHandler
  split
  · refine ⟨fun n hn => ?_, hs'.captured, hs'.decoded⟩
    rcases List.mem_append.mp hn with hn | hn
    · exact hs'.notes n hn
    · obtain rfl := List.mem_singleton.mp hn
      exact List.mem_append_right _ (List.mem_singleton.mpr rfl)
  · exact hs'

theorem Noted.flow {s t : State S} (hs : Noted s) (h : Flow s t) (hi : s.stage = .idle) :
    Noted t := by
  have hst := h.stage.trans hi
  refine ⟨?_, fun c hc => (by rw [hst] at hc; cases hc), ?_⟩
  · rw [h.timepoints_eq]
    rcases h.input with ⟨-, hn, -⟩ | ⟨-, hn, -⟩
    · rw [hn]
      exact hs.notes
    · rw [hn]
      exact fun n hn => by cases hn
  · rw [h.timepoints_eq, h.decodes_eq]
    exact hs.decoded

/-- `process_receive_notification` gives up. -/
theorem Noted.abort {s : State S} {r : RequestEvent} {n : Nat} {tr : List Entry}
    (htime : gather Entry.timepoint (current tr) = s.timepoints)
    (hd : ∀ d ∈ gather Entry.decoded (current tr), d.2 ∈ s.timepoints) :
    Noted (abort L { s with requestEvent := r, serial := n, trace := tr }) := by
  have hdec : (RequestHandler.abort L { s with
      requestEvent := r
      serial := n
      trace := tr }).decodes = gather Entry.decoded (current tr) := List.append_nil _
  have htime' : (RequestHandler.abort L { s with
      requestEvent := r
      serial := n
      trace := tr }).timepoints = s.timepoints := (List.append_nil _).trans htime
  refine ⟨fun n hn => (by cases hn), fun c hc => (by cases hc), ?_⟩
  rw [hdec, htime']
  exact hd

/-- `process_receive_notification` goes on with the message it is reading. -/
theorem Noted.proceed {s t : State S} (hs : Noted s) (htr : t.trace = s.trace)
    (hn : ∀ n ∈ t.notifications, ∃ m ∈ s.notifications, n.ticks = m.ticks)
    (hc : t.stage.capture = s.stage.capture) : Noted t := by
  have htime : t.timepoints = s.timepoints := by unfold State.timepoints; rw [htr]
  have hdec : t.decodes = s.decodes := by unfold State.decodes; rw [htr]
  refine ⟨fun n hmem => ?_, ?_, ?_⟩
  · obtain ⟨m, hm, he⟩ := hn n hmem
    rw [he, htime]
    exact hs.notes m hm
  · rw [htime, hc]
    exact hs.captured
  · rw [htime, hdec]
    exact hs.decoded

theorem Noted.decode {s : State S} {bytes : List UInt8} {c : Capture} (hs : Noted s)
    (hst : s.stage = .decode c bytes) :
    ∀ d ∈ s.decodes ++ [(bytes, c.notification.ticks)], d.2 ∈ s.timepoints := by
  intro d hd
  rcases List.mem_append.mp hd with hd | hd
  · exact hs.decoded d hd
  · obtain rfl := List.mem_singleton.mp hd
    exact hs.captured c (by rw [hst]; rfl)

theorem Continues.noted {s t : State S} (hs : Noted s) (h : Continues L a s t) : Noted t := by
  have same : ∀ n ∈ s.notifications, ∃ m ∈ s.notifications, n.ticks = m.ticks :=
    fun n hn => ⟨n, hn, rfl⟩
  cases h with
  | waits => exact hs
  | asksHeader stage => exact hs.proceed rfl same (by rw [stage]; rfl)
  | readsHeader stage => exact hs.proceed rfl same (by rw [stage]; rfl)
  | asksData stage => exact hs.proceed rfl same (by rw [stage]; rfl)
  | readsData stage => exact hs.proceed rfl same (by rw [stage]; rfl)
  | consumes stage consumed =>
    refine hs.proceed rfl (fun n hn => ?_) (by rw [stage]; rfl)
    obtain ⟨m, hm, he, -⟩ := consumeNotifications_mem consumed n hn
    exact ⟨m, hm, he⟩
  | @decodes c bytes r stage =>
    have htime : { s with trace := .decode bytes c.notification.ticks :: s.trace }.timepoints =
        s.timepoints := List.append_nil _
    refine ⟨htime ▸ hs.notes, fun c hc => (by cases hc), fun d hd => ?_⟩
    exact htime ▸ hs.decode stage d hd
  | rejects stage => exact .abort L (List.append_nil _) (hs.decode stage)
  | loses => exact .abort L rfl hs.decoded
  | lacks => exact .abort L rfl hs.decoded
  | @handles c r _ stage run =>
    have hs' : Noted { s with
        stage := .idle
        trace := .taken s.serial r c s.requestEvent.request :: s.trace } := by
      have htime : { s with trace := .taken s.serial r c s.requestEvent.request :: s.trace
        }.timepoints = s.timepoints := List.append_nil _
      have hdec : { s with trace := .taken s.serial r c s.requestEvent.request :: s.trace
        }.decodes = s.decodes := List.append_nil _
      refine ⟨htime ▸ hs.notes, fun c hc => (by cases hc), fun d hd => ?_⟩
      exact htime ▸ hs.decoded d (hdec ▸ hd)
    exact hs'.flow run.flow rfl

theorem Runs.noted {e : Event} {es : List Event} {s t : State S} (hs : Noted s)
    (hi : s.stage = .idle) (h : Runs L a e { s with queue := es } t) : Noted t := by
  cases h with
  | waits => exact hs.flow (.of_same rfl rfl rfl rfl rfl) hi
  | rests => exact hs.flow (.of_same rfl rfl rfl rfl rfl) hi
  | @begins n ns _ _ first =>
    refine ⟨hs.notes, fun c hc => ?_, hs.decoded⟩
    obtain rfl := Option.some.inj hc
    have hfirst : n ∈ s.notifications := by
      rw [show s.notifications = n :: ns from first]
      exact List.mem_cons_self
    exact hs.notes n hfirst
  | sends _ run => exact hs.flow (run.flow.after rfl rfl rfl rfl rfl) hi
  | handles _ run => exact hs.flow (run.flow.after rfl rfl rfl rfl rfl) hi
  | responds _ run => exact hs.flow (run.flow.after rfl rfl rfl rfl rfl) hi

theorem noted_connect {s : State S} (h : s.Unnotified) : Noted s.onConnectCallback := by
  refine ⟨?_, ?_, fun d hd => (by cases hd)⟩
  · change ∀ n ∈ s.notifications, _
    rw [h.1]
    exact fun n hn => by cases hn
  · change ∀ c, s.stage.capture = some c → _
    rw [h.2]
    exact fun c hc => by cases hc

theorem Noted.disconnect {s : State S} (hs : Noted s) : Noted s.onDisconnectCallback := by
  have htime : s.onDisconnectCallback.timepoints = s.timepoints := List.append_nil _
  have hdec : s.onDisconnectCallback.decodes = s.decodes := List.append_nil _
  refine ⟨htime ▸ hs.notes, htime ▸ hs.captured, ?_⟩
  rw [htime, hdec]
  exact hs.decoded

theorem step_noted (s : State S) (x : Action S) (hs : Noted s)
    (hx : Connecting State.Unnotified s x) : Noted (step L s x) := by
  refine step_keeps L (C := Connecting State.Unnotified) ?_ ?_ ?_ ?_ ?_ ?_ ?_ ?_ s x hs hx
  · exact fun s data ticks timestamp hs _ => hs.packet data ticks timestamp
  · exact fun s _ hx => noted_connect hx
  · exact fun s hs _ => hs.disconnect
  · exact fun s f g hs _ => ⟨hs.notes, hs.captured, hs.decoded⟩
  · exact fun s c hs _ _ => .abort L rfl hs.decoded
  · exact fun s t hs _ => ⟨hs.notes, hs.captured, hs.decoded⟩
  · exact fun s a e es t hs _ idle _ run => run.noted L a hs idle
  · exact fun s a t hs _ _ run => run.noted L a hs

/-! ## The notifications count the bytes -/

/-- No notification is queued, and no bytes of a message are taken that have theirs queued. -/
def State.Uncounted (s : State S) : Prop := s.notifications = [] ∧ s.stage.taken = 0

instance : DecidablePred (State.Uncounted (S := S)) := fun s =>
  inferInstanceAs (Decidable (s.notifications = [] ∧ s.stage.taken = 0))

/-- While the connection is there, the notifications stand for the bytes in the receive FIFO and
for those that were taken for the current message. -/
structure Counted (s : State S) : Prop where
  small : s.rx.length ≤ rxFifoSize
  message : s.stage.bytes.length ≤ rxFifoSize
  counted : linked s.trace = true →
    (noteStamps s.notifications).length = s.stage.taken + s.rx.length

theorem Counted.packet {s : State S} {data : List UInt8} (hs : Counted s)
    (hl : linked s.trace = true) (h : s.Takes data) (ticks : Nat) (timestamp : Timestamp) :
    Counted (s.onReceiveCallback data ticks timestamp) := by
  have hcounted := hs.counted hl
  by_cases hf : s.Fits data
  · rw [onReceiveCallback_fits hf]
    refine ⟨?_, hs.message, fun _ => ?_⟩
    · change (s.rx ++ data).length ≤ _
      rw [List.length_append]
      exact hf.1
    · have hnotes : noteStamps (s.notifications ++ [⟨data.length, ticks, timestamp⟩]) =
          noteStamps s.notifications ++ List.replicate data.length ticks := by
        simp [noteStamps]
      change (noteStamps (s.notifications ++ [_])).length = s.stage.taken + (s.rx ++ data).length
      rw [hnotes, List.length_append, List.length_append, hcounted, List.length_replicate,
        Nat.add_assoc]
  · obtain rfl : data = [] := h.resolve_right hf
    have hfull : ¬ s.notifications.length < notificationCapacity := fun hn => hf ⟨hs.small, hn⟩
    unfold State.onReceiveCallback State.receiveNotificationHandler
    rw [if_neg (by exact hfull), List.take_nil, List.append_nil]
    exact ⟨hs.small, hs.message, fun _ => hcounted⟩

theorem Counted.flow {s t : State S} (hs : Counted s) (h : Flow s t) (hi : s.stage = .idle) :
    Counted t := by
  have hst := h.stage.trans hi
  have hmess : t.stage.bytes.length ≤ rxFifoSize := by
    rw [hst]
    exact Nat.zero_le _
  rcases h.input with ⟨hrx, hn, -⟩ | ⟨hrx, hn, -⟩
  · refine ⟨hrx ▸ hs.small, hmess, fun hl => ?_⟩
    rw [hn, hrx, h.stage]
    exact hs.counted (h.linked_eq ▸ hl)
  · refine ⟨?_, hmess, fun _ => ?_⟩
    · rw [hrx]
      exact Nat.zero_le _
    · rw [hn, hrx, hst]
      rfl

theorem counted_abort (s : State S) : Counted (abort L s) :=
  ⟨Nat.zero_le _, Nat.zero_le _, fun _ => rfl⟩

/-- `process_receive_notification` goes on and takes bytes out of the FIFO for its message. -/
theorem Counted.proceed {s t : State S} (hs : Counted s) (htr : linked t.trace = linked s.trace)
    (hn : t.notifications = s.notifications)
    (hcount : t.stage.taken + t.rx.length = s.stage.taken + s.rx.length)
    (hrx : t.rx.length ≤ s.rx.length) (hmess : t.stage.bytes.length ≤ rxFifoSize) : Counted t := by
  refine ⟨Nat.le_trans hrx hs.small, hmess, fun hl => ?_⟩
  rw [hn, hcount]
  exact hs.counted (htr ▸ hl)

theorem Continues.counted {s t : State S} (hs : Counted s) (h : Continues L a s t) :
    Counted t := by
  cases h with
  | waits => exact hs
  | asksHeader stage =>
    exact hs.proceed rfl rfl (by rw [stage]; rfl) (Nat.le_refl _) (Nat.zero_le _)
  | @readsHeader c stage there =>
    refine hs.proceed rfl rfl ?_ (by simp) (Nat.zero_le _)
    rw [stage]
    change 2 + (s.rx.drop 2).length = 0 + s.rx.length
    rw [List.length_drop]
    omega
  | asksData stage =>
    exact hs.proceed rfl rfl (by rw [stage]; rfl) (Nat.le_refl _) (Nat.zero_le _)
  | @readsData c len stage there =>
    have hlen : (s.rx.take len).length = len := by simp [there]
    refine hs.proceed rfl rfl ?_ (by simp) ?_
    · rw [stage]
      change (s.rx.take len).length + 2 + (s.rx.drop len).length = 2 + s.rx.length
      rw [hlen, List.length_drop]
      omega
    · change (s.rx.take len).length ≤ _
      rw [hlen]
      exact Nat.le_trans there hs.small
  | @consumes c bytes ns stage consumed =>
    have hmess := hs.message
    rw [stage] at hmess
    change bytes.length ≤ rxFifoSize at hmess
    have hmod : (bytes.length + 2) % 2 ^ 16 = bytes.length + 2 :=
      Nat.mod_eq_of_lt (by unfold rxFifoSize at hmess; omega)
    rw [hmod] at consumed
    obtain ⟨hle, hdrop⟩ := consumeNotifications_some consumed
    refine ⟨hs.small, hmess, fun hl => ?_⟩
    have hcount := hs.counted hl
    rw [stage] at hcount
    change (noteStamps ns).length = 0 + s.rx.length
    rw [hdrop, List.length_drop, hcount]
    change bytes.length + 2 + s.rx.length - _ = _
    omega
  | decodes stage =>
    exact hs.proceed rfl rfl (by rw [stage]; rfl) (Nat.le_refl _) (Nat.zero_le _)
  | rejects => exact counted_abort L _
  | loses => exact counted_abort L _
  | lacks => exact counted_abort L _
  | @handles c r _ stage run =>
    have hs' : Counted { s with
        stage := .idle
        trace := .taken s.serial r c s.requestEvent.request :: s.trace } :=
      hs.proceed rfl rfl (by rw [stage]; rfl) (Nat.le_refl _) (Nat.zero_le _)
    exact hs'.flow run.flow rfl

theorem Runs.counted {e : Event} {es : List Event} {s t : State S} (hs : Counted s)
    (hi : s.stage = .idle) (h : Runs L a e { s with queue := es } t) : Counted t := by
  cases h with
  | waits => exact hs.flow (.of_same rfl rfl rfl rfl rfl) hi
  | rests => exact hs.flow (.of_same rfl rfl rfl rfl rfl) hi
  | begins => exact hs.proceed rfl rfl (by rw [hi]; rfl) (Nat.le_refl _) (Nat.zero_le _)
  | sends _ run => exact hs.flow (run.flow.after rfl rfl rfl rfl rfl) hi
  | handles _ run => exact hs.flow (run.flow.after rfl rfl rfl rfl rfl) hi
  | responds _ run => exact hs.flow (run.flow.after rfl rfl rfl rfl rfl) hi

theorem Counted.connect {s : State S} (hs : Counted s) (h : s.Uncounted) :
    Counted s.onConnectCallback := by
  refine ⟨Nat.zero_le _, hs.message, fun _ => ?_⟩
  change (noteStamps s.notifications).length = s.stage.taken + 0
  rw [h.1, h.2]
  rfl

theorem step_counted (s : State S) (x : Action S) (hs : Counted s)
    (hx : Connecting State.Uncounted s x) : Counted (step L s x) := by
  refine step_keeps L (C := Connecting State.Uncounted) ?_ ?_ ?_ ?_ ?_ ?_ ?_ ?_ s x hs hx
  · exact fun s data ticks timestamp hs hx => hs.packet hx.1 hx.2 ticks timestamp
  · exact fun s hs hx => hs.connect hx
  · exact fun s hs _ => ⟨Nat.zero_le _, hs.message, fun hl => (by cases hl)⟩
  · exact fun s f g hs _ => ⟨hs.small, hs.message, hs.counted⟩
  · exact fun s c _ _ _ => counted_abort L s
  · exact fun s t hs _ => ⟨hs.small, hs.message, hs.counted⟩
  · exact fun s a e es t hs _ idle _ run => run.counted L a hs idle
  · exact fun s a t hs _ _ run => run.counted L a hs

/-! ## What is answered came in over the current connection -/

/-- The request that is to be handled. -/
def Stage.handled : Stage → Option RequestType
  | .handle _ r => some r
  | _ => none

/-- No message is read that is still to be decoded, and no event is queued and no request at
hand that may lead to a response. -/
def State.Unanswering (s : State S) : Prop :=
  s.Decoded ∧ (∀ r ∈ s.stage.handled, r.immediate = true) ∧
    ∀ e ∈ s.queue, e.handler = .processReceiveNotification

instance : DecidablePred (State.Unanswering (S := S)) := fun s =>
  inferInstanceAs (Decidable (s.Decoded ∧ (∀ r ∈ s.stage.handled, r.immediate = true) ∧
    ∀ e ∈ s.queue, e.handler = .processReceiveNotification))

/-- Request number `o` was decoded and taken in the current connection. -/
def State.Took (s : State S) (o : Nat) : Prop :=
  ∃ r c bytes, .taken o r c (L.decode bytes).1 ∈ current s.trace ∧
    .decode bytes c.notification.ticks ∈ current s.trace

/-- The events that are queued, the response that waits and the responses that were handed over
answer requests of the current connection. -/
structure Originated (s : State S) : Prop where
  queued : ∀ e ∈ s.queue, e.handler ≠ .processReceiveNotification → s.Took L e.origin
  pending : s.Sending → s.Took L s.responseEvent.origin
  handling : ∀ c r, s.stage = .handle c r → r.immediate = false →
    ∃ bytes, s.requestEvent.request = (L.decode bytes).1 ∧
      .decode bytes c.notification.ticks ∈ current s.trace
  sent : ∀ o m bytes ok, .transmit o m bytes ok ∈ current s.trace → s.Took L o

variable {L} in
theorem State.Took.mono {s t : State S} {o : Nat} (h : s.Took L o)
    (ht : ∀ x ∈ current s.trace, x ∈ current t.trace) : t.Took L o := by
  obtain ⟨r, c, bytes, h1, h2⟩ := h
  exact ⟨r, c, bytes, ht _ h1, ht _ h2⟩

/-- Between two requests, with new events and entries that answer requests of the connection. -/
theorem Originated.grow {s t : State S} (hs : Originated L s) (new : List Entry)
    (hi : t.stage = .idle) (htr : t.trace = new ++ s.trace) (hnc : .connect ∉ new)
    (hnew : ∀ o m bytes ok, .transmit o m bytes ok ∈ new → s.Took L o)
    (hq : ∀ e ∈ t.queue, e ∈ s.queue ∨ e.handler = .processReceiveNotification ∨
      s.Took L e.origin)
    (hp : t.Sending → s.Sending ∧ t.responseEvent.origin = s.responseEvent.origin ∨
      s.Took L t.responseEvent.origin) : Originated L t := by
  have hcur : current t.trace = new ++ current s.trace := by rw [htr, current_append hnc]
  have mono {o : Nat} (h : s.Took L o) : t.Took L o :=
    h.mono fun x hx => by rw [hcur]; exact List.mem_append_right _ hx
  refine ⟨?_, ?_, ?_, ?_⟩
  · intro e he hne
    rcases hq e he with h | h | h
    · exact mono (hs.queued e h hne)
    · exact absurd h hne
    · exact mono h
  · intro hsend
    rcases hp hsend with ⟨h, ho⟩ | h
    · rw [ho]
      exact mono (hs.pending h)
    · exact mono h
  · intro c r hc
    rw [hi] at hc
    cases hc
  · intro o m bytes ok hmem
    rw [hcur] at hmem
    rcases List.mem_append.mp hmem with h | h
    · exact mono (hnew o m bytes ok h)
    · exact mono (hs.sent o m bytes ok h)

/-- `response_event` holds the response to a request of the connection. -/
theorem Sends.originated {s t : State S} (h : Sends L a s t) (hs : Originated L s)
    (hi : s.stage = .idle) (ho : s.Took L s.responseEvent.origin) : Originated L t := by
  cases h with
  | @dropped ev tr fails same handed =>
    have hev : ev.origin = s.responseEvent.origin := same.2.2
    have hq : ∀ e ∈ s.queue, e ∈ s.queue ∨ e.handler = .processReceiveNotification ∨
        s.Took L e.origin := fun e he => .inl he
    rcases handed with he | ⟨-, bytes, he⟩
    · refine hs.grow L [.error] hi ?_ (by simp) (by simp) hq fun _ => .inr ?_
      · change .error :: tr = _
        rw [he]
        rfl
      · change s.Took L ev.origin
        rw [hev]
        exact ho
    · refine hs.grow L [.error, .transmit s.responseEvent.origin s.responseEvent.response
        bytes false] hi ?_ (by simp) ?_ hq fun _ => .inr ?_
      · change .error :: tr = _
        rw [he]
        rfl
      · intro o m b k hmem
        obtain ⟨rfl, -⟩ : o = s.responseEvent.origin ∧ _ := by simpa using hmem
        exact ho
      · change s.Took L ev.origin
        rw [hev]
        exact ho
  | @sent bytes =>
    refine hs.grow L [.transmit s.responseEvent.origin s.responseEvent.response
      (frame bytes) true] hi rfl (by simp) ?_ ?_ fun _ => .inr ho
    · intro o m b k hmem
      obtain ⟨rfl, -⟩ : o = s.responseEvent.origin ∧ _ := by simpa using hmem
      exact ho
    · intro e he
      rcases List.mem_append.mp he with he | he
      · exact .inl he
      · unfold ResponseEvent.next at he
        split at he
        · obtain rfl := List.mem_singleton.mp he
          exact .inr (.inr ho)
        · cases he
  | @retried bytes =>
    refine hs.grow L [.transmit s.responseEvent.origin s.responseEvent.response
      (frame bytes) false] hi rfl (by simp) ?_ ?_ fun _ => .inr ho
    · intro o m b k hmem
      obtain ⟨rfl, -⟩ : o = s.responseEvent.origin ∧ _ := by simpa using hmem
      exact ho
    · intro e he
      rcases List.mem_append.mp he with he | he
      · exact .inl he
      · obtain rfl := List.mem_singleton.mp he
        exact .inr (.inr ho)

theorem StreamEnds.originated {o : Nat} {b : Bool} {s t : State S} (h : StreamEnds a s o b t)
    (hs : Originated L s) (hi : s.stage = .idle) (ho : s.Took L o) : Originated L t := by
  cases h with
  | pumped =>
    refine hs.grow L [] hi rfl (by simp) (by simp) ?_ ?_
    · intro e he
      rcases List.mem_append.mp he with he | he
      · exact .inl he
      · obtain rfl := List.mem_singleton.mp he
        exact .inr (.inr ho)
    · rintro ⟨e, he, hsend⟩
      rcases List.mem_append.mp he with he | he
      · exact .inl ⟨⟨e, he, hsend⟩, rfl⟩
      · obtain rfl := List.mem_singleton.mp he
        cases hsend
  | idle => exact ⟨hs.queued, hs.pending, hs.handling, hs.sent⟩
  | stopped => exact ⟨hs.queued, hs.pending, hs.handling, hs.sent⟩

/-- `response_event` is filled for request number `o`. -/
theorem Originated.prepare {s : State S} (hs : Originated L s) {o : Nat} (ho : s.Took L o)
    (hi : s.stage = .idle) {b p : Bool} {u : S} {es : List Event}
    (hq : ∀ e ∈ es, e ∈ s.queue ∨ e.handler = .processReceiveNotification) (m : Response)
    (next : Option Handler) : Originated L ({ s with
      processingResponse := b
      processingReceiveNotification := p
      storer := u
      queue := es }.prepare m next o) := by
  refine hs.grow L [] hi rfl (by simp) (by simp) ?_ fun _ => .inr ho
  intro e he
  rcases hq e he with h | h
  · exact .inl h
  · exact .inr (.inl h)

theorem Responds.originated {o : Nat} {r : ResponseType} {s t : State S}
    (h : Responds L a o s r t) (hs : Originated L s) (hi : s.stage = .idle) (ho : s.Took L o) :
    Originated L t := by
  have same : ∀ e ∈ s.queue, e ∈ s.queue ∨ e.handler = .processReceiveNotification :=
    fun e he => .inl he
  cases h with
  | busy =>
    refine hs.grow L [] hi rfl (by simp) (by simp) ?_ ?_
    · intro e he
      rcases List.mem_append.mp he with he | he
      · exact .inl he
      · obtain rfl := List.mem_singleton.mp he
        exact .inr (.inr ho)
    · rintro ⟨e, he, hsend⟩
      rcases List.mem_append.mp he with he | he
      · exact .inl ⟨⟨e, he, hsend⟩, rfl⟩
      · obtain rfl := List.mem_singleton.mp he
        cases hsend
  | answered _ _ sends =>
    refine sends.originated L a (hs.prepare L ho hi ?_ _ _) hi ho
    intro e he
    rcases List.mem_append.mp he with he | he
    · exact .inl he
    · obtain rfl := List.mem_singleton.mp he
      exact .inr rfl
  | chunk _ _ sends => exact sends.originated L a (hs.prepare L ho hi same _ _) hi ho
  | last _ _ _ sends => exact sends.originated L a (hs.prepare L ho hi same _ _) hi ho
  | kept =>
    refine hs.grow L [] hi rfl (by simp) (by simp) ?_ fun _ => .inr ho
    intro e he
    rcases List.mem_append.mp he with he | he
    · exact .inl he
    · obtain rfl := List.mem_singleton.mp he
      exact .inr (.inr ho)
  | tested _ sends => exact sends.originated L a (hs.prepare L ho hi same _ _) hi ho
  | quiet _ _ ends => exact ends.originated L a (hs.prepare L ho hi same _ _) hi ho
  | streamed _ _ sends ends =>
    refine ends.originated L a (sends.originated L a (hs.prepare L ho hi same _ _) hi ho)
      ((sends.stage_eq L a).trans hi) (ho.mono fun x hx => ?_)
    obtain ⟨new, he, hq⟩ := sends.flow.trace
    rw [he, current_append (connect_not_mem hq)]
    exact List.mem_append_right _ hx

/-- A request handler that only makes calls and puts events of its request on the queue. -/
theorem Originated.handled {s t : State S} (hs : Originated L s) {o : Nat} (ho : s.Took L o)
    (calls : List Entry) {es : List Event} (hi : t.stage = .idle)
    (htr : t.trace = calls ++ s.trace) (only : ∀ e ∈ calls, e.isCall = true)
    (hq : t.queue = s.queue ++ es)
    (hes : ∀ e ∈ es, e.handler ≠ .sendResponse ∧
      (e.handler = .processReceiveNotification ∨ e.origin = o))
    (hr : t.responseEvent = s.responseEvent) : Originated L t := by
  refine hs.grow L calls hi htr ?_ ?_ ?_ ?_
  · exact fun h => absurd (only _ h) (by decide)
  · exact fun o m bytes ok h => absurd (only _ h) (by simp [Entry.isCall])
  · intro e he
    rw [hq] at he
    rcases List.mem_append.mp he with he | he
    · exact .inl he
    · rcases (hes e he).2 with h | h
      · exact .inr (.inl h)
      · exact .inr (.inr (h ▸ ho))
  · rintro ⟨e, he, hsend⟩
    rw [hq] at he
    rcases List.mem_append.mp he with he | he
    · exact .inl ⟨⟨e, he, hsend⟩, by rw [hr]⟩
    · exact absurd hsend (hes e he).1

theorem Handles.originated {o : Nat} {r : RequestType} {s t : State S} (h : Handles L a o s r t)
    (hs : Originated L s) (hi : s.stage = .idle) (ho : s.Took L o) : Originated L t := by
  cases h with
  | retried _ only => exact hs.handled L ho _ hi rfl only rfl (by simp) rfl
  | answered _ only => exact hs.handled L ho _ hi rfl only rfl (by simp) rfl
  | @dropped calls _ only =>
    refine hs.grow L (.error :: calls) hi rfl ?_ ?_ (fun e he => .inl he)
      fun hsend => .inl ⟨hsend, rfl⟩
    · rintro (- | ⟨_, h⟩)
      exact absurd (only _ h) (by decide)
    · rintro o m bytes ok (- | ⟨_, h⟩)
      exact absurd (only _ h) (by simp [Entry.isCall])
  | found => exact hs.handled L ho [] hi rfl (by simp) rfl (by simp) rfl
  | joins _ _ only => exact hs.handled L ho _ hi rfl only rfl (by simp) rfl
  | starts _ _ only => exact hs.handled L ho _ hi rfl only rfl (by simp) rfl
  | finished => exact hs.handled L ho [] hi rfl (by simp) rfl (by simp) rfl
  | tested => exact hs.handled L ho [] hi rfl (by simp) rfl (by simp) rfl

/-- A request that is done at once puts no event of its own on the queue. -/
theorem Handles.originated_immediate {o : Nat} {r : RequestType} {s t : State S}
    (h : Handles L a o s r t) (himmediate : r.immediate = true) (hs : Originated L s)
    (hi : s.stage = .idle) : Originated L t := by
  cases h with
  | retried fallible =>
    rw [himmediate] at fallible
    cases fallible
  | answered answer =>
    rw [answer_of_immediate himmediate] at answer
    cases answer
  | finished =>
    refine hs.grow L [] hi rfl (by simp) (by simp) (fun e he => ?_) ?_
    · rcases List.mem_append.mp he with he | he
      · exact .inl he
      · obtain rfl := List.mem_singleton.mp he
        exact .inr (.inl rfl)
    · rintro ⟨e, he, hsend⟩
      rcases List.mem_append.mp he with he | he
      · exact .inl ⟨⟨e, he, hsend⟩, rfl⟩
      · obtain rfl := List.mem_singleton.mp he
        cases hsend
  | _ => cases himmediate

theorem Originated.pop {s : State S} {e : Event} {es : List Event} (hs : Originated L s)
    (hq : s.queue = e :: es) : Originated L { s with queue := es } := by
  have hsub : ∀ x ∈ es, x ∈ s.queue := by
    intro x hx
    rw [hq]
    exact List.mem_cons_of_mem _ hx
  refine ⟨fun x hx => hs.queued x (hsub x hx), ?_, hs.handling, hs.sent⟩
  rintro ⟨x, hx, hsend⟩
  exact hs.pending ⟨x, hsub x hx, hsend⟩

theorem Runs.originated {e : Event} {es : List Event} {s t : State S} (hs : Originated L s)
    (hi : s.stage = .idle) (hq : s.queue = e :: es) (h : Runs L a e { s with queue := es } t) :
    Originated L t := by
  have hs' := hs.pop L hq
  have hmem : e ∈ s.queue := by
    rw [hq]
    exact List.mem_cons_self
  cases h with
  | waits =>
    refine hs'.grow L [] hi rfl (by simp) (by simp) ?_ ?_
    · intro x hx
      rcases List.mem_append.mp hx with hx | hx
      · exact .inl hx
      · obtain rfl := List.mem_singleton.mp hx
        exact .inr (.inl rfl)
    · rintro ⟨x, hx, hsend⟩
      rcases List.mem_append.mp hx with hx | hx
      · exact .inl ⟨⟨x, hx, hsend⟩, rfl⟩
      · obtain rfl := List.mem_singleton.mp hx
        cases hsend
  | rests => exact hs'
  | begins => exact ⟨hs'.queued, hs'.pending, fun c r hc => (by cases hc), hs'.sent⟩
  | sends send run => exact run.originated L a hs' hi (hs.pending ⟨e, hmem, send⟩)
  | handles request run =>
    exact run.originated L a hs' hi (hs.queued e hmem (by simp [request]))
  | responds response run =>
    exact run.originated L a hs' hi (hs.queued e hmem (by simp [response]))

/-- `process_receive_notification` goes on, its entries being no responses. -/
theorem Originated.proceed {s t : State S} (hs : Originated L s) (new : List Entry)
    (htr : t.trace = new ++ s.trace) (hnc : .connect ∉ new)
    (hnew : ∀ o m bytes ok, .transmit o m bytes ok ∉ new) (hq : t.queue = s.queue)
    (hr : t.responseEvent = s.responseEvent)
    (hst : ∀ c r, t.stage = .handle c r → r.immediate = false →
      ∃ bytes, t.requestEvent.request = (L.decode bytes).1 ∧
        .decode bytes c.notification.ticks ∈ current t.trace) : Originated L t := by
  have hcur : current t.trace = new ++ current s.trace := by rw [htr, current_append hnc]
  have mono {o : Nat} (h : s.Took L o) : t.Took L o :=
    h.mono fun x hx => by rw [hcur]; exact List.mem_append_right _ hx
  refine ⟨fun e he hne => mono (hs.queued e (hq ▸ he) hne), ?_, hst, ?_⟩
  · rintro ⟨e, he, hsend⟩
    rw [hr]
    exact mono (hs.pending ⟨e, hq ▸ he, hsend⟩)
  · intro o m bytes ok hmem
    rw [hcur] at hmem
    rcases List.mem_append.mp hmem with h | h
    · exact absurd h (hnew o m bytes ok)
    · exact mono (hs.sent o m bytes ok h)

theorem Continues.originated {s t : State S} (hs : Originated L s) (h : Continues L a s t) :
    Originated L t := by
  cases h with
  | waits => exact hs
  | @decodes c bytes r stage =>
    refine hs.proceed L [.decode bytes c.notification.ticks] rfl (by simp) (by simp) rfl rfl ?_
    intro c' r' hc _
    cases hc
    exact ⟨bytes, rfl, List.mem_cons_self⟩
  | @rejects c bytes r stage =>
    exact hs.proceed L [.error, .decode bytes c.notification.ticks] rfl (by simp) (by simp) rfl rfl
      fun c r hc => by cases hc
  | loses =>
    exact hs.proceed L [.error] rfl (by simp) (by simp) rfl rfl fun c r hc => by cases hc
  | lacks =>
    exact hs.proceed L [.error] rfl (by simp) (by simp) rfl rfl fun c r hc => by cases hc
  | @handles c r _ stage run =>
    have hs' : Originated L { s with
        stage := .idle
        trace := .taken s.serial r c s.requestEvent.request :: s.trace } :=
      hs.proceed L [.taken s.serial r c s.requestEvent.request] rfl (by simp) (by simp) rfl rfl
        fun c r hc => by cases hc
    -- A request that leads to no response may be one of the connection before.
    cases himmediate : r.immediate with
    | true => exact run.originated_immediate L a himmediate hs' rfl
    | false =>
      obtain ⟨bytes, hreq, hdec⟩ := hs.handling c r stage himmediate
      refine run.originated L a hs' rfl ⟨r, c, bytes, ?_, List.mem_cons_of_mem _ hdec⟩
      rw [← hreq]
      exact List.mem_cons_self
  | _ =>
    exact hs.proceed L [] rfl (by simp) (by simp) rfl rfl fun c r hc => by cases hc

theorem originated_connect {s : State S} (h : s.Unanswering) :
    Originated L s.onConnectCallback := by
  obtain ⟨-, hi, hq⟩ := h
  refine ⟨fun e he hne => absurd (hq e he) hne, ?_, ?_, fun o m bytes ok h => (by cases h)⟩
  · rintro ⟨e, he, hsend⟩
    rw [hq e he] at hsend
    cases hsend
  · intro c r hc hanswers
    rw [show s.stage = .handle c r from hc] at hi
    rw [hi r rfl] at hanswers
    cases hanswers

/-- A callback of the radio adds one entry and perhaps an event that looks for notifications. -/
theorem Originated.callback {s t : State S} (hs : Originated L s) {x : Entry} {es : List Event}
    (htr : t.trace = x :: s.trace) (hx : x ≠ .connect)
    (hnew : ∀ o m bytes ok, .transmit o m bytes ok ≠ x) (hst : t.stage = s.stage)
    (hreq : t.requestEvent = s.requestEvent) (hr : t.responseEvent = s.responseEvent)
    (hq : t.queue = s.queue ++ es) (hes : ∀ e ∈ es, e.handler = .processReceiveNotification) :
    Originated L t := by
  have hnc : .connect ∉ [x] := by simpa using hx.symm
  have hcur : current t.trace = x :: current s.trace := by
    rw [htr]
    exact current_append hnc s.trace
  have mono {o : Nat} (h : s.Took L o) : t.Took L o :=
    h.mono fun y hy => by rw [hcur]; exact List.mem_cons_of_mem _ hy
  have old {e : Event} (he : e ∈ t.queue) (hne : e.handler ≠ .processReceiveNotification) :
      e ∈ s.queue := by
    rw [hq] at he
    rcases List.mem_append.mp he with he | he
    · exact he
    · exact absurd (hes e he) hne
  refine ⟨fun e he hne => mono (hs.queued e (old he hne) hne), ?_, ?_, ?_⟩
  · rintro ⟨e, he, hsend⟩
    rw [hr]
    exact mono (hs.pending ⟨e, old he (by rw [hsend]; decide), hsend⟩)
  · intro c r hc hanswers
    obtain ⟨bytes, h1, h2⟩ := hs.handling c r (hst ▸ hc) hanswers
    exact ⟨bytes, by rw [hreq, h1], by rw [hcur]; exact List.mem_cons_of_mem _ h2⟩
  · intro o m bytes ok hmem
    rw [hcur] at hmem
    rcases List.mem_cons.mp hmem with h | h
    · exact absurd h (hnew o m bytes ok)
    · exact mono (hs.sent o m bytes ok h)

theorem onReceiveCallback_originated (data : List UInt8) (ticks : Nat) (timestamp : Timestamp)
    {s : State S} (hs : Originated L s) :
    Originated L (s.onReceiveCallback data ticks timestamp) := by
  unfold State.onReceiveCallback State.receiveNotificationHandler
  split
  · exact hs.callback L rfl (by simp) (by simp) rfl rfl rfl rfl (by simp)
  · exact hs.callback L rfl (by simp) (by simp) rfl rfl rfl (List.append_nil _).symm (by simp)

theorem step_originated (s : State S) (x : Action S) (hs : Originated L s)
    (hx : Connecting State.Unanswering s x) :
    Originated L (step L s x) := by
  refine step_keeps L (C := Connecting State.Unanswering) ?_ ?_ ?_ ?_ ?_ ?_ ?_ ?_ s x hs hx
  · exact fun s data ticks timestamp hs _ => onReceiveCallback_originated L data ticks timestamp hs
  · exact fun s _ hx => originated_connect L hx
  · exact fun s hs _ => hs.callback L rfl (by simp) (by simp) rfl rfl rfl (List.append_nil _).symm
      (by simp)
  · exact fun s f g hs _ => ⟨hs.queued, hs.pending, hs.handling, hs.sent⟩
  · exact fun s c hs _ _ =>
      hs.proceed L [.error] rfl (by simp) (by simp) rfl rfl fun c r hc => by cases hc
  · exact fun s t hs _ => ⟨hs.queued, hs.pending, hs.handling, hs.sent⟩
  · exact fun s a e es t hs _ idle queue run => run.originated L a hs idle queue
  · exact fun s a t hs _ _ run => run.originated L a hs

theorem mem_decodes {s : State S} {bytes : List UInt8} {ticks : Nat}
    (h : .decode bytes ticks ∈ current s.trace) : (bytes, ticks) ∈ s.decodes := by
  unfold State.decodes
  generalize current s.trace = l at h
  induction l with
  | nil => cases h
  | cons x l ih =>
    rcases List.mem_cons.mp h with rfl | h
    · exact List.mem_append_right _ (List.mem_singleton.mpr rfl)
    · exact List.mem_append_left _ (ih h)

/-- A client comes, leaves while the badge identifies itself, and comes back with a test
request. -/
def comesBack : List (Action Unit) :=
  [.connect, .packet [0, 3, 27, 0, 1] 7 default] ++ List.replicate 7 (.dispatch .success) ++
    [.disconnect, .connect, .packet [0, 1, 28] 9 default] ++
    List.replicate 12 (.dispatch .success)

/-- The client comes back before the main loop has looked at the first request. -/
def comesBackSoon : List (Action Unit) :=
  [.connect, .packet [0, 1, 28] 7 default, .disconnect, .connect,
    .packet [0, 1, 28] 9 default] ++ List.replicate 12 (.dispatch .success)

/-- The client comes back when the main loop has taken `n` turns, and sends nothing. -/
def comesBackAfter (n : Nat) : List (Action Unit) :=
  [.connect, .packet [0, 1, 28] 7 default] ++ List.replicate n (.dispatch .success) ++
    [.disconnect, .connect] ++ List.replicate 6 (.dispatch .success)

end OpenBadge.RequestHandler
