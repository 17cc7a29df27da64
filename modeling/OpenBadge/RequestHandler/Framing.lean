import OpenBadge.Lib.PrefixCode
import OpenBadge.RequestHandler.Ownership

/-!
# The bytes of a connection

The bytes of a connection go through the receive FIFO, the packets they came in
through the FIFO of notifications. Both are compared with the history of the
connection: what was received, when each byte came, and which byte strings were
decoded.
-/

namespace OpenBadge.RequestHandler

open OpenBadge.Lib

variable {S β : Type} (L : Libraries S) (a : Answers)

/-! ## The history of a connection -/

/-- The history since the last connection, newest first. -/
def current : List Entry → List Entry
  | [] => []
  | .connect :: _ => []
  | x :: tr => x :: current tr

/-- What the entries of a history say, oldest first. -/
def gather (f : Entry → List β) : List Entry → List β
  | [] => []
  | x :: tr => gather f tr ++ f x

def Entry.data : Entry → List UInt8
  | .packet data _ => data
  | _ => []

def Entry.stamps : Entry → List Nat
  | .packet data ticks => List.replicate data.length ticks
  | _ => []

def Entry.timepoint : Entry → List Nat
  | .packet _ ticks => [ticks]
  | _ => []

def Entry.decoded : Entry → List (List UInt8 × Nat)
  | .decode bytes ticks => [(bytes, ticks)]
  | _ => []

/-- The bytes received in the current connection. -/
def State.received (s : State S) : List UInt8 := gather Entry.data (current s.trace)

/-- For each of them the timepoint of its packet. -/
def State.stamps (s : State S) : List Nat := gather Entry.stamps (current s.trace)

/-- The timepoints of the packets of the current connection. -/
def State.timepoints (s : State S) : List Nat := gather Entry.timepoint (current s.trace)

/-- The byte strings passed to `tb_decode` in the current connection, each with the timepoint
of its request. -/
def State.decodes (s : State S) : List (List UInt8 × Nat) :=
  gather Entry.decoded (current s.trace)

/-- An entry that says nothing about what came in. -/
def Entry.quiet : Entry → Bool
  | .connect => false
  | .disconnect => false
  | .packet _ _ => false
  | .decode _ _ => false
  | _ => true

theorem quiet_of_isCall {e : Entry} (h : e.isCall = true) : e.quiet = true := by
  cases e <;> first | rfl | cases h

theorem current_append {new : List Entry} (h : .connect ∉ new) (tr : List Entry) :
    current (new ++ tr) = new ++ current tr := by
  induction new with
  | nil => rfl
  | cons x new ih =>
    have ih := ih fun he => h (List.mem_cons_of_mem _ he)
    cases x <;> first | exact congrArg _ ih | exact absurd List.mem_cons_self h

theorem connect_not_mem {new : List Entry} (h : ∀ e ∈ new, e.quiet = true) : .connect ∉ new :=
  fun hmem => absurd (h _ hmem) (by decide)

theorem gather_append {f : Entry → List β} {new : List Entry} (h : ∀ e ∈ new, f e = [])
    (tr : List Entry) : gather f (new ++ tr) = gather f tr := by
  induction new with
  | nil => rfl
  | cons x new ih =>
    change gather f (new ++ tr) ++ f x = _
    rw [h x List.mem_cons_self, List.append_nil]
    exact ih fun e he => h e (List.mem_cons_of_mem _ he)

theorem stamps_length (s : State S) : s.stamps.length = s.received.length := by
  unfold State.stamps State.received
  induction current s.trace with
  | nil => rfl
  | cons x tr ih =>
    have hx : x.stamps.length = x.data.length := by
      cases x <;> first | rfl | exact List.length_replicate
    simp only [gather, List.length_append, ih, hx]

/-- The state as far as the input of a connection goes: nothing came in, and what was there is
still there or was dropped together. -/
structure Flow (s t : State S) : Prop where
  stage : t.stage = s.stage
  trace : ∃ new, t.trace = new ++ s.trace ∧ ∀ e ∈ new, e.quiet = true
  input : t.rx = s.rx ∧ t.notifications = s.notifications ∧ t.connected = s.connected ∨
    t.rx = [] ∧ t.notifications = [] ∧ t.connected = false ∧ .error ∈ t.trace

theorem Flow.gather_eq {s t : State S} (h : Flow s t) {f : Entry → List β}
    (hf : ∀ e, e.quiet = true → f e = []) :
    gather f (current t.trace) = gather f (current s.trace) := by
  obtain ⟨new, he, hq⟩ := h.trace
  rw [he, current_append (connect_not_mem hq), gather_append fun e he => hf e (hq e he)]

theorem Flow.received_eq {s t : State S} (h : Flow s t) : t.received = s.received :=
  h.gather_eq fun e he => by cases e <;> first | rfl | cases he

theorem Flow.stamps_eq {s t : State S} (h : Flow s t) : t.stamps = s.stamps :=
  h.gather_eq fun e he => by cases e <;> first | rfl | cases he

theorem Flow.timepoints_eq {s t : State S} (h : Flow s t) : t.timepoints = s.timepoints :=
  h.gather_eq fun e he => by cases e <;> first | rfl | cases he

theorem Flow.decodes_eq {s t : State S} (h : Flow s t) : t.decodes = s.decodes :=
  h.gather_eq fun e he => by cases e <;> first | rfl | cases he

theorem Flow.trans {s t u : State S} (h : Flow s t) (h' : Flow t u) : Flow s u := by
  obtain ⟨new, he, hq⟩ := h.trace
  obtain ⟨new', he', hq'⟩ := h'.trace
  refine ⟨h'.stage.trans h.stage, ⟨new' ++ new, by rw [he', he, List.append_assoc], ?_⟩, ?_⟩
  · intro e hmem
    rcases List.mem_append.mp hmem with h1 | h1
    · exact hq' e h1
    · exact hq e h1
  · rcases h'.input with ⟨h1, h2, h3⟩ | hf
    · rcases h.input with ⟨k1, k2, k3⟩ | kf
      · exact .inl ⟨h1.trans k1, h2.trans k2, h3.trans k3⟩
      · refine .inr ⟨h1.trans kf.1, h2.trans kf.2.1, h3.trans kf.2.2.1, ?_⟩
        rw [he']
        exact List.mem_append_right _ kf.2.2.2
    · exact .inr hf

/-- What leaves the input alone. -/
theorem Flow.of_same {s t : State S} (hst : t.stage = s.stage) (htr : t.trace = s.trace)
    (hrx : t.rx = s.rx) (hn : t.notifications = s.notifications)
    (hc : t.connected = s.connected) : Flow s t :=
  ⟨hst, ⟨[], by rw [htr]; rfl, by simp⟩, .inl ⟨hrx, hn, hc⟩⟩

/-- What leaves the input alone may come first. -/
theorem Flow.after {s s' t : State S} (h : Flow s' t) (hst : s'.stage = s.stage)
    (htr : s'.trace = s.trace) (hrx : s'.rx = s.rx) (hn : s'.notifications = s.notifications)
    (hc : s'.connected = s.connected) : Flow s t :=
  (Flow.of_same hst htr hrx hn hc).trans h

theorem Sends.flow {s t : State S} (h : Sends L a s t) : Flow s t := by
  cases h with
  | @dropped ev tr fails same handed =>
    refine ⟨rfl, ?_, .inr ⟨rfl, rfl, rfl, List.mem_cons_self⟩⟩
    rcases handed with he | ⟨-, bytes, he⟩
    · exact ⟨[.error], by simp [he], by simp [Entry.quiet]⟩
    · exact ⟨[.error, .transmit s.responseEvent.origin s.responseEvent.response bytes false],
        by simp [he], by simp [Entry.quiet]⟩
  | sent => exact ⟨rfl, ⟨[_], rfl, by simp [Entry.quiet]⟩, .inl ⟨rfl, rfl, rfl⟩⟩
  | retried => exact ⟨rfl, ⟨[_], rfl, by simp [Entry.quiet]⟩, .inl ⟨rfl, rfl, rfl⟩⟩

theorem StreamEnds.flow {o : Nat} {b : Bool} {s t : State S} (h : StreamEnds a s o b t) :
    Flow s t := by
  cases h <;> exact .of_same rfl rfl rfl rfl rfl

theorem Responds.flow {o : Nat} {r : ResponseType} {s t : State S} (h : Responds L a o s r t) :
    Flow s t := by
  cases h with
  | busy => exact .of_same rfl rfl rfl rfl rfl
  | answered _ _ sends => exact sends.flow.after rfl rfl rfl rfl rfl
  | chunk _ _ sends => exact sends.flow.after rfl rfl rfl rfl rfl
  | last _ _ _ sends => exact sends.flow.after rfl rfl rfl rfl rfl
  | kept => exact .of_same rfl rfl rfl rfl rfl
  | tested _ sends => exact sends.flow.after rfl rfl rfl rfl rfl
  | quiet _ _ ends => exact (ends.flow a).after rfl rfl rfl rfl rfl
  | streamed _ _ sends ends => exact (sends.flow.trans (ends.flow a)).after rfl rfl rfl rfl rfl

theorem Handles.flow {o : Nat} {r : RequestType} {s t : State S} (h : Handles L a o s r t) :
    Flow s t := by
  cases h with
  | retried _ only =>
    exact ⟨rfl, ⟨_, rfl, fun e he => quiet_of_isCall (only e he)⟩, .inl ⟨rfl, rfl, rfl⟩⟩
  | answered _ only =>
    exact ⟨rfl, ⟨_, rfl, fun e he => quiet_of_isCall (only e he)⟩, .inl ⟨rfl, rfl, rfl⟩⟩
  | @dropped calls _ only =>
    refine ⟨rfl, ⟨.error :: calls, rfl, ?_⟩, .inr ⟨rfl, rfl, rfl, List.mem_cons_self⟩⟩
    intro e he
    rcases List.mem_cons.mp he with rfl | he
    · rfl
    · exact quiet_of_isCall (only e he)
  | joins _ _ only =>
    exact ⟨rfl, ⟨_, rfl, fun e he => quiet_of_isCall (only e he)⟩, .inl ⟨rfl, rfl, rfl⟩⟩
  | starts _ _ only =>
    exact ⟨rfl, ⟨_, rfl, fun e he => quiet_of_isCall (only e he)⟩, .inl ⟨rfl, rfl, rfl⟩⟩
  | found => exact .of_same rfl rfl rfl rfl rfl
  | finished => exact .of_same rfl rfl rfl rfl rfl
  | tested => exact .of_same rfl rfl rfl rfl rfl

/-! ## Notifications and bytes in step -/

/-- For each byte the queued notifications stand for, the timepoint of its packet. -/
def noteStamps (ns : List ReceiveNotification) : List Nat :=
  ns.flatMap fun n => List.replicate n.len n.ticks

theorem noteStamps_length (ns : List ReceiveNotification) :
    (noteStamps ns).length = (ns.map ReceiveNotification.len).sum := by
  induction ns with
  | nil => rfl
  | cons n ns ih =>
    rw [List.map_cons, List.sum_cons, ← ih]
    simp [noteStamps]

theorem consumeNotifications_some {c : Nat} {ns ns' : List ReceiveNotification}
    (h : consumeNotifications c ns = some ns') :
    c ≤ (noteStamps ns).length ∧ noteStamps ns' = (noteStamps ns).drop c := by
  induction ns generalizing c with
  | nil =>
    cases c with
    | zero => cases h; exact ⟨Nat.zero_le _, rfl⟩
    | succ c => cases h
  | cons n ns ih =>
    cases c with
    | zero => cases h; exact ⟨Nat.zero_le _, rfl⟩
    | succ c =>
      rw [consumeNotifications] at h
      have hns : noteStamps (n :: ns) = List.replicate n.len n.ticks ++ noteStamps ns := rfl
      by_cases hle : n.len ≤ c + 1
      · rw [if_pos hle] at h
        obtain ⟨hc, hd⟩ := ih h
        rw [hns, List.length_append, List.length_replicate, List.drop_append,
          List.length_replicate, List.drop_of_length_le (by simpa using hle), List.nil_append]
        exact ⟨by omega, hd⟩
      · rw [if_neg hle] at h
        obtain rfl := Option.some.inj h
        rw [hns, List.length_append, List.length_replicate,
          List.drop_append_of_le_length (by simp; omega), List.drop_replicate]
        exact ⟨by omega, rfl⟩

theorem consumeNotifications_none {c : Nat} {ns : List ReceiveNotification}
    (h : consumeNotifications c ns = none) : (noteStamps ns).length < c := by
  induction ns generalizing c with
  | nil =>
    cases c with
    | zero => cases h
    | succ c => exact Nat.succ_pos c
  | cons n ns ih =>
    cases c with
    | zero => cases h
    | succ c =>
      rw [consumeNotifications] at h
      have hns : noteStamps (n :: ns) = List.replicate n.len n.ticks ++ noteStamps ns := rfl
      by_cases hle : n.len ≤ c + 1
      · rw [if_pos hle] at h
        have := ih h
        rw [hns, List.length_append, List.length_replicate]
        omega
      · rw [if_neg hle] at h
        cases h

/-- The notifications that stay are those that were there, one perhaps shortened. -/
theorem consumeNotifications_mem {c : Nat} {ns ns' : List ReceiveNotification}
    (h : consumeNotifications c ns = some ns') :
    ∀ n' ∈ ns', ∃ n ∈ ns, n'.ticks = n.ticks ∧ (0 < n.len → 0 < n'.len) := by
  induction ns generalizing c with
  | nil =>
    cases c with
    | zero => cases h; simp
    | succ c => cases h
  | cons n ns ih =>
    cases c with
    | zero => cases h; exact fun n' hn => ⟨n', hn, rfl, id⟩
    | succ c =>
      rw [consumeNotifications] at h
      intro n' hn'
      by_cases hle : n.len ≤ c + 1
      · rw [if_pos hle] at h
        obtain ⟨m, hm, hticks, hlen⟩ := ih h n' hn'
        exact ⟨m, List.mem_cons_of_mem _ hm, hticks, hlen⟩
      · rw [if_neg hle] at h
        obtain rfl := Option.some.inj h
        rcases List.mem_cons.mp hn' with rfl | hn'
        · exact ⟨n, List.mem_cons_self, rfl, fun _ => Nat.sub_pos_of_lt (Nat.lt_of_not_le hle)⟩
        · exact ⟨n', List.mem_cons_of_mem _ hn', rfl, id⟩

theorem lengthHeader_headerLength {h : List UInt8} (hl : h.length = 2) :
    lengthHeader (headerLength h) = h := by
  obtain ⟨x, y, rfl⟩ := List.length_eq_two.mp hl
  have hx := x.toNat_lt
  have hy := y.toNat_lt
  have h1 : (x.toNat * 256 + y.toNat) / 256 = x.toNat := by omega
  have h2 : UInt8.ofNat (x.toNat * 256 + y.toNat) = y := by
    apply UInt8.toNat_inj.mp
    rw [UInt8.toNat_ofNat']
    omega
  simp only [lengthHeader, headerLength, h1, h2, UInt8.ofNat_toNat]

theorem headerLength_lengthHeader {n : Nat} (hn : n < 2 ^ 16) : headerLength (lengthHeader n) = n := by
  simp only [lengthHeader, headerLength, UInt8.toNat_ofNat']
  omega

/-- The bytes of the current message that `process_receive_notification` has read. -/
def Stage.read : Stage → List UInt8
  | .data _ len => lengthHeader len
  | .awaitData _ len => lengthHeader len
  | .consume _ bytes => frame bytes
  | .decode _ bytes => frame bytes
  | _ => []

/-- How many of them still have their notifications queued. -/
def Stage.taken : Stage → Nat
  | .data _ _ => 2
  | .awaitData _ _ => 2
  | .consume _ bytes => bytes.length + 2
  | _ => 0

/-- The bytes it has read and not yet decoded. -/
def Stage.bytes : Stage → List UInt8
  | .consume _ bytes => bytes
  | .decode _ bytes => bytes
  | _ => []

/-- The messages that were decoded, as they were sent. -/
def State.frames (s : State S) : List UInt8 := s.decodes.flatMap fun d => frame d.1

/-- The two FIFOs are in step with each other and with what was received. The bytes in `done` were
decoded, or were dropped together with the connection. -/
structure Framed (s : State S) (done : List UInt8) : Prop where
  bytes : s.received = done ++ s.stage.read ++ s.rx
  notes : noteStamps s.notifications <:+ s.stamps
  counted : (noteStamps s.notifications).length = s.stage.taken + s.rx.length
  decoded : s.frames <+: done
  exact : s.connected = true → done = s.frames
  lost : s.connected = false → s.stage = .idle ∨ ∃ c, s.stage = .header c
  gone : s.connected = false → .error ∈ s.trace
  small : s.rx.length ≤ rxFifoSize
  message : s.stage.bytes.length ≤ rxFifoSize
  short : ∀ d ∈ s.decodes, d.1.length ≤ rxFifoSize

/-- The packet fits into both FIFOs. -/
def State.Fits (s : State S) (data : List UInt8) : Prop :=
  s.rx.length + data.length ≤ rxFifoSize ∧ s.notifications.length < notificationCapacity

instance (s : State S) (data : List UInt8) : Decidable (s.Fits data) :=
  inferInstanceAs (Decidable (_ ∧ _))

theorem frame_length (bytes : List UInt8) : (frame bytes).length = bytes.length + 2 := by
  rw [frame, List.length_append, Nat.add_comm]
  rfl

theorem onReceiveCallback_fits {s : State S} {data : List UInt8} (h : s.Fits data) (ticks : Nat)
    (timestamp : Timestamp) : s.onReceiveCallback data ticks timestamp = { s with
      rx := s.rx ++ data
      notifications := s.notifications ++ [⟨data.length, ticks, timestamp⟩]
      trace := .packet data ticks :: s.trace
      queue := s.queue ++ [⟨.processReceiveNotification, 0⟩] } := by
  have htake : data.take (rxFifoSize - s.rx.length) = data :=
    List.take_of_length_le (by have := h.1; omega)
  unfold State.onReceiveCallback State.receiveNotificationHandler
  rw [if_pos (by exact h.2), htake]
  rfl

/-- A packet comes in that fits. -/
theorem Framed.packet {s : State S} {done data : List UInt8} (hs : Framed s done)
    (h : s.Fits data) (ticks : Nat) (timestamp : Timestamp) :
    Framed (s.onReceiveCallback data ticks timestamp) done := by
  rw [onReceiveCallback_fits h]
  obtain ⟨tail, htail⟩ := hs.notes
  have hnotes : noteStamps (s.notifications ++ [⟨data.length, ticks, timestamp⟩]) =
      noteStamps s.notifications ++ List.replicate data.length ticks := by
    simp [noteStamps]
  have hdec : { s with trace := .packet data ticks :: s.trace }.decodes = s.decodes :=
    List.append_nil _
  have hframes : { s with trace := .packet data ticks :: s.trace }.frames = s.frames :=
    congrArg (List.flatMap _) hdec
  refine ⟨?_, ⟨tail, ?_⟩, ?_, ?_, ?_, hs.lost,
    fun hc => List.mem_cons_of_mem _ (hs.gone hc), ?_, hs.message, ?_⟩
  · change s.received ++ data = _
    rw [hs.bytes, List.append_assoc]
  · change tail ++ noteStamps (s.notifications ++ [_]) = s.stamps ++ List.replicate data.length ticks
    rw [hnotes, ← List.append_assoc, htail]
  · change (noteStamps (s.notifications ++ [_])).length = s.stage.taken + (s.rx ++ data).length
    rw [hnotes, List.length_append, List.length_append, hs.counted, List.length_replicate,
      Nat.add_assoc]
  · change { s with trace := .packet data ticks :: s.trace }.frames <+: done
    rw [hframes]
    exact hs.decoded
  · change s.connected = true → done = { s with trace := .packet data ticks :: s.trace }.frames
    rw [hframes]
    exact hs.exact
  · change (s.rx ++ data).length ≤ rxFifoSize
    rw [List.length_append]
    exact h.1
  · change ∀ d ∈ { s with trace := .packet data ticks :: s.trace }.decodes, _
    rw [hdec]
    exact hs.short

/-- A handler runs between two requests. -/
theorem Framed.flow {s t : State S} {done : List UInt8} (hs : Framed s done) (h : Flow s t)
    (hi : s.stage = .idle) : ∃ done', Framed t done' := by
  have hframes : t.frames = s.frames := by
    unfold State.frames
    rw [h.decodes_eq]
  have hst := h.stage.trans hi
  have hmess : t.stage.bytes.length ≤ rxFifoSize := by
    rw [hst]
    exact Nat.zero_le _
  have hshort : ∀ d ∈ t.decodes, d.1.length ≤ rxFifoSize := by
    rw [h.decodes_eq]
    exact hs.short
  rcases h.input with ⟨hrx, hn, hc⟩ | ⟨hrx, hn, hc, herr⟩
  · refine ⟨done, ?_, ?_, ?_, hframes ▸ hs.decoded, ?_, fun _ => .inl hst, ?_, hrx ▸ hs.small,
      hmess, hshort⟩
    · rw [h.received_eq, hrx, h.stage]
      exact hs.bytes
    · rw [hn, h.stamps_eq]
      exact hs.notes
    · rw [hn, hrx, h.stage]
      exact hs.counted
    · intro hct
      rw [hframes]
      exact hs.exact (hc ▸ hct)
    · intro hct
      obtain ⟨new, he, -⟩ := h.trace
      rw [he]
      exact List.mem_append_right _ (hs.gone (hc ▸ hct))
  · refine ⟨s.received, ?_, ?_, ?_, ?_, ?_, fun _ => .inl hst, fun _ => herr, ?_, hmess, hshort⟩
    · rw [h.received_eq, hrx, hst]
      simp [Stage.read]
    · rw [hn]
      exact List.nil_suffix
    · rw [hn, hrx, hst]
      rfl
    · rw [hframes, hs.bytes, List.append_assoc]
      exact hs.decoded.trans (List.prefix_append ..)
    · intro hct
      rw [hc] at hct
      cases hct
    · rw [hrx]
      exact Nat.zero_le _

/-- `process_receive_notification` gives up. -/
theorem Framed.abort {s : State S} {done : List UInt8} {r : RequestEvent} {n : Nat}
    {tr : List Entry} (hs : Framed s done)
    (hd : gather Entry.decoded (current tr) = s.decodes ∨
      ∃ c bytes, s.stage = .decode c bytes ∧ s.connected = true ∧
        gather Entry.decoded (current tr) = s.decodes ++ [(bytes, c.notification.ticks)])
    (hrec : gather Entry.data (current tr) = s.received) :
    Framed (abort L { s with requestEvent := r, serial := n, trace := tr }) s.received := by
  have hdec : (RequestHandler.abort L { s with
      requestEvent := r
      serial := n
      trace := tr }).decodes = gather Entry.decoded (current tr) := List.append_nil _
  refine ⟨?_, List.nil_suffix, rfl, ?_, fun hc => (by cases hc), fun _ => .inl rfl,
    fun _ => List.mem_cons_self, Nat.zero_le _, Nat.zero_le _, ?_⟩
  · change gather Entry.data (current tr) ++ [] = s.received ++ [] ++ []
    rw [hrec, List.append_nil, List.append_nil]
  · unfold State.frames
    rw [hdec, hs.bytes, List.append_assoc]
    rcases hd with hd | ⟨c, bytes, hst, hc, hd⟩
    · rw [hd]
      exact hs.decoded.trans (List.prefix_append ..)
    · rw [hd, List.flatMap_append, hs.exact hc, hst]
      refine (List.prefix_append_right_inj _).mpr ?_
      simp [Stage.read]
  · rw [hdec]
    rcases hd with hd | ⟨c, bytes, hst, hc, hd⟩
    · rw [hd]
      exact hs.short
    · rw [hd]
      intro d hmem
      rcases List.mem_append.mp hmem with h | h
      · exact hs.short d h
      · obtain rfl := List.mem_singleton.mp h
        have hmess := hs.message
        rw [hst] at hmess
        exact hmess

/-- `process_receive_notification` goes on and nothing is decoded. -/
theorem Framed.proceed {s t : State S} {done : List UInt8} (hs : Framed s done)
    (htr : t.trace = s.trace) (hc : t.connected = s.connected) (hconn : s.connected = true)
    (hread : t.stage.read ++ t.rx = s.stage.read ++ s.rx)
    (hnotes : noteStamps t.notifications <:+ noteStamps s.notifications)
    (hcount : (noteStamps t.notifications).length = t.stage.taken + t.rx.length)
    (hrx : t.rx.length ≤ s.rx.length) (hmess : t.stage.bytes.length ≤ rxFifoSize) :
    Framed t done := by
  have hrec : t.received = s.received := by unfold State.received; rw [htr]
  have hst : t.stamps = s.stamps := by unfold State.stamps; rw [htr]
  have hdec : t.decodes = s.decodes := by unfold State.decodes; rw [htr]
  have hframes : t.frames = s.frames := congrArg (List.flatMap _) hdec
  have hup : t.connected = true := hc.trans hconn
  refine ⟨?_, hst ▸ hnotes.trans hs.notes, hcount, hframes ▸ hs.decoded, ?_,
    fun hf => (by rw [hup] at hf; cases hf), fun hf => (by rw [hup] at hf; cases hf),
    Nat.le_trans hrx hs.small, hmess, hdec ▸ hs.short⟩
  · rw [hrec, hs.bytes, List.append_assoc, List.append_assoc, hread]
  · intro _
    rw [hframes]
    exact hs.exact hconn

/-- The connection is up, or the process is still before its first wait. -/
theorem Framed.connected {s : State S} {done : List UInt8} (hs : Framed s done)
    (hi : s.stage ≠ .idle) (hh : ∀ c, s.stage ≠ .header c) : s.connected = true := by
  by_contra hc
  rcases hs.lost (by simpa using hc) with h | ⟨c, h⟩
  · exact hi h
  · exact hh c h

theorem Continues.framed {s t : State S} {done : List UInt8} (hs : Framed s done)
    (h : Continues L a s t) : ∃ done', Framed t done' := by
  cases h with
  | waits => exact ⟨done, hs⟩
  | @asksHeader c stage connected =>
    have hcount := hs.counted
    rw [stage] at hcount
    refine ⟨done, hs.proceed rfl rfl connected ?_ (List.suffix_refl _) hcount (Nat.le_refl _)
      (Nat.zero_le _)⟩
    rw [stage]
    rfl
  | @readsHeader c stage there =>
    have hconn := hs.connected (by simp [stage]) (by simp [stage])
    have hhead : lengthHeader (headerLength (s.rx.take 2)) = s.rx.take 2 :=
      lengthHeader_headerLength (by simp [there])
    have hcount := hs.counted
    rw [stage] at hcount
    refine ⟨done, hs.proceed rfl rfl hconn ?_ (List.suffix_refl _) ?_ ?_ (Nat.zero_le _)⟩
    · change lengthHeader (headerLength (s.rx.take 2)) ++ s.rx.drop 2 = _
      rw [hhead, List.take_append_drop, stage]
      rfl
    · change _ = 2 + (s.rx.drop 2).length
      rw [List.length_drop, hcount]
      change 0 + s.rx.length = _
      omega
    · change (s.rx.drop 2).length ≤ _
      rw [List.length_drop]
      exact Nat.sub_le _ _
  | @asksData c len stage connected =>
    have hcount := hs.counted
    rw [stage] at hcount
    refine ⟨done, hs.proceed rfl rfl connected ?_ (List.suffix_refl _) hcount (Nat.le_refl _)
      (Nat.zero_le _)⟩
    rw [stage]
    rfl
  | @readsData c len stage there =>
    have hconn := hs.connected (by simp [stage]) (by simp [stage])
    have hlen : (s.rx.take len).length = len := by simp [there]
    have hcount := hs.counted
    rw [stage] at hcount
    refine ⟨done, hs.proceed rfl rfl hconn ?_ (List.suffix_refl _) ?_ ?_ ?_⟩
    · change frame (s.rx.take len) ++ s.rx.drop len = _
      rw [frame, hlen, List.append_assoc, List.take_append_drop, stage]
      rfl
    · change _ = (s.rx.take len).length + 2 + (s.rx.drop len).length
      rw [List.length_drop, hlen, hcount]
      change 2 + s.rx.length = _
      omega
    · change (s.rx.drop len).length ≤ _
      rw [List.length_drop]
      exact Nat.sub_le _ _
    · change (s.rx.take len).length ≤ _
      rw [hlen]
      exact Nat.le_trans there hs.small
  | @consumes c bytes ns stage consumed =>
    have hconn := hs.connected (by simp [stage]) (by simp [stage])
    have hmess := hs.message
    have hcount := hs.counted
    rw [stage] at hmess hcount
    change bytes.length ≤ rxFifoSize at hmess
    have hmod : (bytes.length + 2) % 2 ^ 16 = bytes.length + 2 :=
      Nat.mod_eq_of_lt (by unfold rxFifoSize at hmess; omega)
    rw [hmod] at consumed
    obtain ⟨hle, hdrop⟩ := consumeNotifications_some consumed
    refine ⟨done, hs.proceed rfl rfl hconn ?_ ?_ ?_ (Nat.le_refl _) hmess⟩
    · rw [stage]
      rfl
    · change noteStamps ns <:+ _
      rw [hdrop]
      exact List.drop_suffix ..
    · change (noteStamps ns).length = 0 + s.rx.length
      rw [hdrop, List.length_drop, hcount]
      change bytes.length + 2 + s.rx.length - _ = _
      omega
  | @decodes c bytes r stage accepted known =>
    have hconn := hs.connected (by simp [stage]) (by simp [stage])
    have hcount := hs.counted
    have hbytes := hs.bytes
    have hmess := hs.message
    rw [stage] at hcount hbytes hmess
    have hrec : { s with trace := .decode bytes c.notification.ticks :: s.trace }.received =
        s.received := List.append_nil _
    have hst : { s with trace := .decode bytes c.notification.ticks :: s.trace }.stamps =
        s.stamps := List.append_nil _
    have hframes : { s with trace := .decode bytes c.notification.ticks :: s.trace }.frames =
        done ++ frame bytes := by
      change (s.decodes ++ [(bytes, c.notification.ticks)]).flatMap _ = _
      rw [List.flatMap_append, hs.exact hconn]
      simp [State.frames]
    refine ⟨done ++ frame bytes, ?_, ?_, hcount, ?_, ?_, ?_,
      fun hc => List.mem_cons_of_mem _ (hs.gone hc), hs.small, Nat.zero_le _, ?_⟩
    · refine hrec.trans (hbytes.trans ?_)
      simp [Stage.read]
    · exact hst ▸ hs.notes
    · exact hframes ▸ List.prefix_refl _
    · exact fun _ => hframes.symm
    · intro hf
      rw [show s.connected = false from hf] at hconn
      cases hconn
    · intro d hmem
      rcases List.mem_append.mp (show d ∈ s.decodes ++ [(bytes, c.notification.ticks)] from hmem)
        with h | h
      · exact hs.short d h
      · obtain rfl := List.mem_singleton.mp h
        exact hmess
  | @rejects c bytes r stage bad =>
    have hconn := hs.connected (by simp [stage]) (by simp [stage])
    refine ⟨_, hs.abort L (.inr ⟨c, bytes, stage, hconn, rfl⟩) ?_⟩
    exact List.append_nil _
  | loses stage gone => exact ⟨_, hs.abort L (.inl rfl) rfl⟩
  | lacks stage missing => exact ⟨_, hs.abort L (.inl rfl) rfl⟩
  | @handles c r _ stage run =>
    have hcount := hs.counted
    have hbytes := hs.bytes
    rw [stage] at hcount hbytes
    have hs' : Framed { s with
        stage := .idle
        trace := .taken s.serial r c s.requestEvent.request :: s.trace } done := by
      have hrec : { s with trace := .taken s.serial r c s.requestEvent.request :: s.trace
        }.received = s.received := List.append_nil _
      have hst : { s with trace := .taken s.serial r c s.requestEvent.request :: s.trace
        }.stamps = s.stamps := List.append_nil _
      have hdec : { s with trace := .taken s.serial r c s.requestEvent.request :: s.trace
        }.decodes = s.decodes := List.append_nil _
      have hframes : { s with trace := .taken s.serial r c s.requestEvent.request :: s.trace
        }.frames = s.frames := congrArg (List.flatMap _) hdec
      exact ⟨hrec.trans hbytes, hst ▸ hs.notes, hcount, hframes ▸ hs.decoded,
        fun hc => (hs.exact hc).trans hframes.symm, fun _ => .inl rfl,
        fun hc => List.mem_cons_of_mem _ (hs.gone hc), hs.small, Nat.zero_le _, hdec ▸ hs.short⟩
    exact hs'.flow run.flow rfl

/-- `process_receive_notification` begins, or an event of the handlers runs. -/
theorem Runs.framed {e : Event} {es : List Event} {s t : State S} {done : List UInt8}
    (hs : Framed s done) (hi : s.stage = .idle) (h : Runs L a e { s with queue := es } t) :
    ∃ done', Framed t done' := by
  cases h with
  | waits => exact hs.flow (.of_same rfl rfl rfl rfl rfl) hi
  | rests => exact hs.flow (.of_same rfl rfl rfl rfl rfl) hi
  | begins =>
    have hcount := hs.counted
    have hbytes := hs.bytes
    rw [hi] at hcount hbytes
    exact ⟨done, hbytes, hs.notes, hcount, hs.decoded, hs.exact, fun _ => .inr ⟨_, rfl⟩,
      hs.gone, hs.small, Nat.zero_le _, hs.short⟩
  | sends _ run => exact hs.flow (run.flow.after rfl rfl rfl rfl rfl) hi
  | handles _ run => exact hs.flow (run.flow.after rfl rfl rfl rfl rfl) hi
  | responds _ run => exact hs.flow (run.flow.after rfl rfl rfl rfl rfl) hi

/-- The packet fits, or there is nothing in it. -/
def State.Takes (s : State S) (data : List UInt8) : Prop := data = [] ∨ s.Fits data

instance (s : State S) (data : List UInt8) : Decidable (s.Takes data) :=
  inferInstanceAs (Decidable (_ ∨ _))

theorem Framed.takes {s : State S} {done data : List UInt8} (hs : Framed s done)
    (h : s.Takes data) (ticks : Nat) (timestamp : Timestamp) :
    Framed (s.onReceiveCallback data ticks timestamp) done := by
  by_cases hf : s.Fits data
  · exact hs.packet hf ticks timestamp
  · obtain rfl : data = [] := h.resolve_right hf
    have hfull : ¬ s.notifications.length < notificationCapacity :=
      fun hn => hf ⟨hs.small, hn⟩
    have he : s.onReceiveCallback [] ticks timestamp = { s with
        trace := .packet [] ticks :: s.trace } := by
      unfold State.onReceiveCallback State.receiveNotificationHandler
      rw [if_neg (by exact hfull), List.take_nil, List.append_nil]
      rfl
    have hrec : { s with trace := .packet [] ticks :: s.trace }.received = s.received :=
      List.append_nil _
    have hst : { s with trace := .packet [] ticks :: s.trace }.stamps = s.stamps :=
      List.append_nil _
    have hdec : { s with trace := .packet [] ticks :: s.trace }.decodes = s.decodes :=
      List.append_nil _
    have hframes : { s with trace := .packet [] ticks :: s.trace }.frames = s.frames :=
      congrArg (List.flatMap _) hdec
    rw [he]
    exact ⟨hrec.trans hs.bytes, hst ▸ hs.notes, hs.counted, hframes ▸ hs.decoded,
      fun hc => (hs.exact hc).trans hframes.symm, hs.lost,
      fun hc => List.mem_cons_of_mem _ (hs.gone hc), hs.small, hs.message, hdec ▸ hs.short⟩

/-- The connection stays as it is, and every packet fits into the FIFOs. -/
def Receiving (s : State S) : Action S → Prop
  | .packet data _ _ => s.Takes data
  | .connect => False
  | .disconnect => False
  | _ => True

instance (s : State S) : ∀ x, Decidable (Receiving s x)
  | .packet data _ _ => inferInstanceAs (Decidable (s.Takes data))
  | .connect => .isFalse id
  | .disconnect => .isFalse id
  | .samplingTimeout _ _ _ => .isTrue trivial
  | .awaitTimeout => .isTrue trivial
  | .store _ => .isTrue trivial
  | .dispatch _ => .isTrue trivial

theorem step_framed (s : State S) (x : Action S) (hs : ∃ done, Framed s done)
    (hx : Receiving s x) : ∃ done, Framed (step L s x) done := by
  refine step_keeps L (I := fun s => ∃ done, Framed s done) (C := Receiving)
    ?_ ?_ ?_ ?_ ?_ ?_ ?_ ?_ s x hs hx
  · rintro s data ticks timestamp ⟨done, hs⟩ hx
    exact ⟨done, hs.takes hx ticks timestamp⟩
  · exact fun s _ hx => hx.elim
  · exact fun s _ hx => hx.elim
  · rintro s f g ⟨done, hs⟩ -
    exact ⟨done, hs.bytes, hs.notes, hs.counted, hs.decoded, hs.exact, hs.lost, hs.gone,
      hs.small, hs.message, hs.short⟩
  · rintro s c ⟨done, hs⟩ - -
    exact ⟨_, hs.abort L (.inl rfl) rfl⟩
  · rintro s t ⟨done, hs⟩ -
    exact ⟨done, hs.bytes, hs.notes, hs.counted, hs.decoded, hs.exact, hs.lost, hs.gone,
      hs.small, hs.message, hs.short⟩
  · rintro s a e es t ⟨done, hs⟩ - idle - run
    exact run.framed L a hs idle
  · rintro s a t ⟨done, hs⟩ - - run
    exact run.framed L a hs

/-- A connection begins while nothing is left of an earlier one. -/
theorem framed_connect {s : State S} (hi : s.stage = .idle) (hn : s.notifications = []) :
    Framed s.onConnectCallback [] := by
  refine ⟨?_, ?_, ?_, List.prefix_refl _, fun _ => rfl, fun h => (by cases h),
    fun h => (by cases h), Nat.zero_le _, ?_, fun d hd => (by cases hd)⟩
  · change [] = [] ++ s.stage.read ++ []
    rw [hi]
    rfl
  · change noteStamps s.notifications <:+ _
    rw [hn]
    exact List.nil_suffix
  · change (noteStamps s.notifications).length = s.stage.taken + 0
    rw [hn, hi]
    rfl
  · change s.stage.bytes.length ≤ _
    rw [hi]
    exact Nat.zero_le _

theorem frame_prefixFree : PrefixFree frame fun m => m.length < 2 ^ 16 := by
  intro x y u v hx hy h
  have happ : lengthHeader x.length ++ (x ++ u) = lengthHeader y.length ++ (y ++ v) := by
    simpa only [frame, List.append_assoc] using h
  obtain ⟨hlen, hrest⟩ := List.append_inj happ rfl
  have hxy : x.length = y.length := by
    rw [← headerLength_lengthHeader hx, hlen, headerLength_lengthHeader hy]
  exact (List.append_inj hrest hxy).1

/-- The decoded byte strings are the first of the messages that were sent. -/
theorem Framed.decodes_prefix {s : State S} {done : List UInt8} (hs : Framed s done)
    {msgs : List (List UInt8)} (hm : ∀ m ∈ msgs, m.length < 2 ^ 16)
    (hr : s.received <+: msgs.flatMap frame) : s.decodes.map Prod.fst <+: msgs := by
  refine frame_prefixFree.of_flatMap (fun m => by simp [frame, lengthHeader]) ?_ hm ?_
  · intro m hmem
    obtain ⟨d, hd, rfl⟩ := List.mem_map.mp hmem
    exact Nat.lt_of_le_of_lt (hs.short d hd) (by decide)
  · have hframes : (s.decodes.map Prod.fst).flatMap frame = s.frames := by
      rw [List.flatMap_map]
      rfl
    rw [hframes]
    refine (hs.decoded.trans ?_).trans hr
    rw [hs.bytes, List.append_assoc]
    exact List.prefix_append ..

/-- In every run of a connection in which every packet fits into the FIFOs, the decoded byte
strings are the first of the messages that were sent, and between events the notifications count
the bytes in the receive FIFO. Within an event they also count the bytes that were read for the
current message. -/
theorem decoded_messages_sent (t : S) (as : List (Action S))
    (h : Along (step L) Receiving (State.init t).onConnectCallback as)
    (msgs : List (List UInt8)) (hm : ∀ m ∈ msgs, m.length < 2 ^ 16)
    (hr : (run (step L) (State.init t) (.connect :: as)).received <+: msgs.flatMap frame) :
    (run (step L) (State.init t) (.connect :: as)).decodes.map Prod.fst <+: msgs ∧
    (((run (step L) (State.init t) (.connect :: as)).notifications.map
      ReceiveNotification.len).sum =
        (run (step L) (State.init t) (.connect :: as)).stage.taken +
          (run (step L) (State.init t) (.connect :: as)).rx.length) ∧
    ((run (step L) (State.init t) (.connect :: as)).stage = .idle →
      ((run (step L) (State.init t) (.connect :: as)).notifications.map
        ReceiveNotification.len).sum =
          (run (step L) (State.init t) (.connect :: as)).rx.length) := by
  have hs : ∃ done, Framed (run (step L) (State.init t) (.connect :: as)) done :=
    run_invariant (step_framed L) ⟨[], framed_connect rfl rfl⟩ h
  generalize run (step L) (State.init t) (.connect :: as) = s at hs hr
  obtain ⟨done, hs⟩ := hs
  have hsum := hs.counted
  rw [noteStamps_length] at hsum
  refine ⟨hs.decodes_prefix hm hr, hsum, fun hi => ?_⟩
  rw [hsum, hi]
  exact Nat.zero_add _

/-- A start request for the scanner, as long as a packet without its header. -/
def startScan : List UInt8 := [4, 0, 0, 0, 1, 0, 0, 0, 5, 1, 0, 18, 4, 0, 1, 0, 2, 0]

/-- One such request arrives in two pieces. -/
def twoPieces : List (Action Unit) :=
  [.packet ((frame startScan).take 7) 7 default] ++ List.replicate 4 (.dispatch .success) ++
    [.packet ((frame startScan).drop 7) 8 default] ++ List.replicate 8 (.dispatch .success)

theorem decoded_messages_sent_pieces :
    (run (step (taggedLibraries (.error .notFound))) (State.init ())
      (.connect :: twoPieces)).decodes.map Prod.fst = [startScan] ∧
    ((run (step (taggedLibraries (.error .notFound))) (State.init ())
      (.connect :: twoPieces)).notifications.map ReceiveNotification.len).sum = 0 := by
  have hdec : (run (step (taggedLibraries (.error .notFound))) (State.init ())
    (.connect :: twoPieces)).decodes.length = 1 := by decide +kernel
  obtain ⟨hpre, -, hsum⟩ := decoded_messages_sent (taggedLibraries (.error .notFound)) ()
    twoPieces (by decide +kernel) [startScan] (by decide) (by decide +kernel)
  refine ⟨hpre.eq_of_length (by simpa using hdec), ?_⟩
  rw [hsum (by decide +kernel)]
  decide +kernel

/-- Seven such requests arrive at once, 140 bytes for the FIFO of 128. Two more arrive when the
main loop has worked off what it can. -/
def overflow : List (Action Unit) :=
  .connect :: List.replicate 7 (.packet (frame startScan) 7 default)

def afterOverflow : List (Action Unit) :=
  overflow ++ List.replicate 90 (.dispatch .success) ++
    [.packet (frame startScan) 8 default] ++ List.replicate 12 (.dispatch .success) ++
    [.packet (frame startScan) 9 default] ++ List.replicate 12 (.dispatch .success)

theorem overflow_desynchronises :
    (run (step (taggedLibraries (.error .notFound))) (State.init ()) overflow).stage = .idle ∧
    ((run (step (taggedLibraries (.error .notFound))) (State.init ())
      overflow).notifications.map ReceiveNotification.len).sum = 140 ∧
    (run (step (taggedLibraries (.error .notFound))) (State.init ()) overflow).rx.length = 128 ∧
    (run (step (taggedLibraries (.error .notFound))) (State.init ())
      afterOverflow).received = (List.replicate 9 startScan).flatMap frame ∧
    (run (step (taggedLibraries (.error .notFound))) (State.init ())
      afterOverflow).decodes.map Prod.fst = List.replicate 6 startScan ++
        [startScan.take 6 ++ (frame startScan).take 12,
          [4, 0, 1, 0, 2, 0] ++ (frame startScan).take 12] ∧
    (run (step (taggedLibraries (.error .notFound))) (State.init ())
      afterOverflow).connected = true := by
  decide +kernel

end OpenBadge.RequestHandler
