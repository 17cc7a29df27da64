import OpenBadge.BadgeLegacy.Serving

/-!
# The client and the badge agree

What the client asks is decided by the bytes that have come, and what the badge has taken is
decided by what the client asked. So when the badge takes a request, no bytes of an earlier
answer are missing, and a response without bytes never meets bytes in the transmit FIFO.
-/

namespace OpenBadge.RequestHandler01

variable {S : Type}

/-- The notification that is being processed. -/
def Stage.awaiting : Stage → List ReceiveNotification
  | .awaitData n => [n]
  | _ => []

/-- A response that is under way counts as its next try. -/
def Stage.sending : Stage → List Handler
  | .transmitHeader _ | .transmitData _ => [.sendResponse]
  | _ => []

/-- What is to be transmitted when the header is out. -/
def Stage.behind : Stage → List UInt8
  | .transmitData bytes => bytes
  | _ => []

/-- The response whose header is out. -/
def State.current (s : State S) : List Response :=
  match s.stage with
  | .transmitData _ => [s.responseEvent.response]
  | _ => []

/-- The events of the calls that were taken. -/
def State.live (s : State S) : List Handler :=
  s.stage.sending ++ s.queue.filter (· ≠ .processReceiveNotification)

end OpenBadge.RequestHandler01

namespace OpenBadge.BadgeLegacy

open OpenBadge.Lib OpenBadge.Tinybuf OpenBadge.Framework
open RequestHandler01
open Processing (Timestamp)

variable {S : Type} (L : Libraries S) (d : Stored)

/-- The calls whose requests have come. -/
def asked (asks : List Ask) (s : State S) : List Ask := asks.take s.record.packets.length

/-- The calls whose requests were taken. -/
def taken (asks : List Ask) (s : State S) : List Ask := asks.take s.record.decodes.length

/-- The calls whose requests wait. -/
def pending (asks : List Ask) (s : State S) : List Ask :=
  (asked asks s).drop s.record.decodes.length

/-- Where the badge stands in the calls of the client. -/
structure Serving (asks : List Ask) (s : State S) : Prop where
  connected : s.connected = true
  packets : s.record.packets = (asked asks s).map Ask.bytes
  decodes : s.record.decodes = (taken asks s).map Ask.bytes
  order : s.record.decodes.length ≤ s.record.packets.length
  waiting : (s.stage.awaiting ++ s.notifications).map ReceiveNotification.len =
    (pending asks s).map fun a => a.bytes.length
  rx_eq : s.rx = (pending asks s).flatMap Ask.bytes
  /-- A request came when the answers to all before it had come. -/
  answered : size ((asks.take (s.record.packets.length - 1)).flatMap (Ask.answer d)) ≤
    s.record.sent.length
  working : ∃ todo rest, todo <:+ taken asks s ∧
    s.record.transmitted.map form ++ rest = (taken asks s).flatMap (Ask.answer d) ∧
    Working L d s s.live todo rest
  fits : ∀ r ∈ s.record.transmitted ++ s.current, r.Fits
  wire : s.record.sent ++ (s.tx ++ s.stage.behind) =
    (s.record.transmitted ++ s.current).flatMap Response.bytes
  header : ∀ bytes, s.stage = .transmitHeader bytes →
    bytes = s.responseEvent.response.bytes ∧ s.responseEvent.failHandler = some .sendResponse
  behind : s.stage.behind <:+ s.responseEvent.response.bytes
  awake : s.processingReceiveNotification = true ∨ s.notifications ≠ [] →
    .processReceiveNotification ∈ s.queue ∨ s.live ≠ [] ∨ s.stage.awaiting ≠ []

variable {L d} {asks : List Ask} {s : State S}

/-! ## What follows -/

theorem size_take_mono (d : Stored) (asks : List Ask) {i j : Nat} (h : i ≤ j) :
    size ((asks.take i).flatMap (Ask.answer d)) ≤ size ((asks.take j).flatMap (Ask.answer d)) := by
  obtain ⟨more, hmore⟩ := List.take_prefix_take_left (l := asks) h
  rw [← hmore, List.flatMap_append, size_append]
  exact Nat.le_add_right _ _

theorem Serving.packets_le (hs : Serving L d asks s) : s.record.packets.length ≤ asks.length := by
  have hlen := congrArg List.length hs.packets
  rw [List.length_map, asked, List.length_take] at hlen
  omega

theorem Serving.transmitted_fits (hs : Serving L d asks s) : ∀ r ∈ s.record.transmitted, r.Fits :=
  fun r hr => hs.fits r (List.mem_append_left _ hr)

/-- No response is under way, so all that was transmitted is on its way. -/
theorem Serving.sent_le (hs : Serving L d asks s) (hcurrent : s.current = []) :
    s.record.sent.length + s.tx.length ≤ size (s.record.transmitted.map form) := by
  have hlen := congrArg List.length hs.wire
  rw [hcurrent, List.append_nil, List.length_append, List.length_append] at hlen
  rw [size_map_form hs.transmitted_fits, size]
  omega

/-- When another request waits, all calls that were taken are silent or answered. -/
theorem Serving.quiet (hs : Serving L d asks s) (hcurrent : s.current = [])
    (hmore : s.record.decodes.length < s.record.packets.length) {todo : List Ask}
    {rest : List Response} {hs' : List Handler}
    (hdone : s.record.transmitted.map form ++ rest = (taken asks s).flatMap (Ask.answer d))
    (hworking : Working L d s hs' todo rest) : ∀ a ∈ todo, a.silent = true := by
  refine hworking.quiet_of_size ?_
  have hsize := congrArg size hdone
  rw [size_append] at hsize
  have hle := hs.sent_le hcurrent
  have hanswered := hs.answered
  have hmono := size_take_mono d asks (Nat.le_sub_one_of_lt hmore)
  rw [taken] at hsize
  omega

/-- A call that has brought nothing yet finds the transmit FIFO empty. -/
theorem Serving.tx_eq_nil (hs : Serving L d asks s) (hcurrent : s.current = []) {a : Ask}
    {as : List Ask} {rest : List Response}
    (hsuffix : a :: as <:+ taken asks s)
    (hdone : s.record.transmitted.map form ++ rest = (taken asks s).flatMap (Ask.answer d))
    (hrest : rest = (a :: as).flatMap (Ask.answer d)) : s.tx = [] := by
  obtain ⟨finished, hfinished⟩ := hsuffix
  have htransmitted : s.record.transmitted.map form = finished.flatMap (Ask.answer d) := by
    rw [← hfinished, List.flatMap_append, hrest] at hdone
    exact List.append_cancel_right hdone
  have hlen : finished.length + (as.length + 1) ≤ s.record.decodes.length := by
    have h := congrArg List.length hfinished
    rw [List.length_append, List.length_cons, taken, List.length_take] at h
    omega
  have htake : finished = asks.take finished.length := by
    have hprefix : finished <+: asks :=
      (hfinished ▸ List.prefix_append _ _ : finished <+: taken asks s).trans (List.take_prefix _ _)
    exact List.prefix_iff_eq_take.mp hprefix
  have horder := hs.order
  have hmono := size_take_mono d asks
    (show finished.length ≤ s.record.packets.length - 1 by omega)
  rw [← htake] at hmono
  have hle := hs.sent_le hcurrent
  rw [htransmitted] at hle
  have hanswered := hs.answered
  exact List.length_eq_zero_iff.mp (by omega)

/-! ## The environment -/

theorem filter_concat_poll (qs : List Handler) :
    (qs ++ [Handler.processReceiveNotification]).filter (· ≠ .processReceiveNotification) =
      qs.filter (· ≠ .processReceiveNotification) := by
  rw [List.filter_append]
  exact List.append_nil _

/-- A packet that fits brings its request, and the badge is or gets woken. -/
theorem onReceiveCallback_eq {data : List UInt8} {ticks : Nat} {t : Timestamp}
    (hnotifications : s.notifications.length < notificationCapacity)
    (hrx : s.rx.length + data.length ≤ rxFifoSize) : s.onReceiveCallback data ticks t =
      { s with
        rx := s.rx ++ data
        notifications := s.notifications ++ [⟨data.length, ticks, t⟩]
        processingReceiveNotification := true
        queue := if s.processingReceiveNotification then s.queue
          else s.queue ++ [.processReceiveNotification]
        trace := .packet data :: s.trace } := by
  have htake : data.take (rxFifoSize - s.rx.length) = data := List.take_of_length_le (by omega)
  rw [State.onReceiveCallback, htake]
  refine (if_pos hnotifications).trans ?_
  by_cases hflag : s.processingReceiveNotification = true
  · rw [if_pos hflag]
    refine (if_pos hflag).trans ?_
    simp [State.log, hflag]
  · rw [if_neg hflag]
    exact if_neg hflag

/-- The client has written the request of its next call. -/
theorem Serving.packet (hs : Serving L d asks s) {data : List UInt8} {ticks : Nat} {t : Timestamp}
    {a : Ask} (ha : asks[s.record.packets.length]? = some a) (hdata : data = a.bytes)
    (hnotifications : s.notifications.length < notificationCapacity)
    (hrx : s.rx.length + data.length ≤ rxFifoSize)
    (hanswered : size ((asks.take s.record.packets.length).flatMap (Ask.answer d)) ≤
      s.record.sent.length) : Serving L d asks (s.onReceiveCallback data ticks t) := by
  rw [onReceiveCallback_eq hnotifications hrx]
  have hasked : asks.take (s.record.packets.length + 1) = asked asks s ++ [a] := by
    rw [List.take_add_one, ha]
    rfl
  have hlen : (asked asks s).length = s.record.packets.length :=
    List.length_take_of_le hs.packets_le
  have hpending : (asks.take (s.record.packets.length + 1)).drop s.record.decodes.length =
      pending asks s ++ [a] := by
    rw [hasked, List.drop_append_of_le_length (hlen ▸ hs.order), pending]
  have hqueue : (if s.processingReceiveNotification = true then s.queue
      else s.queue ++ [.processReceiveNotification]).filter (· ≠ .processReceiveNotification) =
        s.queue.filter (· ≠ .processReceiveNotification) := by
    split
    · rfl
    · exact filter_concat_poll _
  have hcount : (s.record.packets ++ [data]).length = s.record.packets.length + 1 :=
    List.length_append
  refine
    { connected := hs.connected, packets := ?_, decodes := hs.decodes, order := ?_, waiting := ?_
      rx_eq := ?_, answered := ?_, working := ?_, fits := hs.fits, wire := hs.wire
      header := hs.header, behind := hs.behind, awake := ?_ }
  · change s.record.packets ++ [data] =
      (asks.take (s.record.packets ++ [data]).length).map Ask.bytes
    rw [hcount, hasked, List.map_append, ← hs.packets, hdata]
    rfl
  · change s.record.decodes.length ≤ (s.record.packets ++ [data]).length
    rw [hcount]
    exact Nat.le_succ_of_le hs.order
  · change (s.stage.awaiting ++ (s.notifications ++
      [(⟨data.length, ticks, t⟩ : ReceiveNotification)])).map _ =
        ((asks.take (s.record.packets ++ [data]).length).drop s.record.decodes.length).map _
    rw [hcount, hpending, ← List.append_assoc, List.map_append, hs.waiting, List.map_append, hdata]
    rfl
  · change s.rx ++ data =
      ((asks.take (s.record.packets ++ [data]).length).drop s.record.decodes.length).flatMap _
    rw [hcount, hpending, List.flatMap_append, ← hs.rx_eq, List.flatMap_singleton, hdata]
  · change size ((asks.take ((s.record.packets ++ [data]).length - 1)).flatMap _) ≤ _
    rw [hcount]
    exact hanswered
  · obtain ⟨todo, rest, htodo, hdone, hworking⟩ := hs.working
    refine ⟨todo, rest, htodo, hdone, ?_⟩
    have hlive : s.stage.sending ++ (if s.processingReceiveNotification = true then s.queue
        else s.queue ++ [.processReceiveNotification]).filter (· ≠ .processReceiveNotification) =
          s.live := by rw [hqueue, State.live]
    change Working L d _ (s.stage.sending ++ _) todo rest
    rw [hlive]
    exact hworking.frame rfl rfl rfl
  · intro _
    change .processReceiveNotification ∈ (if s.processingReceiveNotification = true then s.queue
      else s.queue ++ [.processReceiveNotification]) ∨ s.stage.sending ++ _ ≠ [] ∨ _
    by_cases hflag : s.processingReceiveNotification = true
    · rw [if_pos hflag]
      exact hs.awake (.inl hflag)
    · rw [if_neg hflag]
      exact .inl (List.mem_append_right _ (List.mem_singleton_self _))

/-- The radio takes bytes out of the transmit FIFO. -/
theorem Serving.radio (hs : Serving L d asks s) : Serving L d asks s.transmitQueuedBytes := by
  refine
    { connected := hs.connected, packets := hs.packets, decodes := hs.decodes, order := hs.order
      waiting := hs.waiting, rx_eq := hs.rx_eq, answered := ?_, working := ?_, fits := hs.fits
      wire := ?_, header := hs.header, behind := hs.behind, awake := hs.awake }
  · refine Nat.le_trans hs.answered ?_
    change _ ≤ (s.record.sent ++ s.tx.take Sender.maxBytesPerTransmit).length
    rw [List.length_append]
    exact Nat.le_add_right _ _
  · obtain ⟨todo, rest, htodo, hdone, hworking⟩ := hs.working
    exact ⟨todo, rest, htodo, hdone, hworking.frame rfl rfl rfl⟩
  · change s.record.sent ++ s.tx.take Sender.maxBytesPerTransmit ++
      (s.tx.drop Sender.maxBytesPerTransmit ++ s.stage.behind) = _
    rw [List.append_assoc, ← List.append_assoc (List.take _ _), List.take_append_drop]
    exact hs.wire

theorem Serving.samplingTimeout (hs : Serving L d asks s) (k : Source) :
    Serving L d asks (s.setSampling k false) := by
  obtain ⟨todo, rest, htodo, hdone, hworking⟩ := hs.working
  exact
    { connected := hs.connected, packets := hs.packets, decodes := hs.decodes, order := hs.order
      waiting := hs.waiting, rx_eq := hs.rx_eq, answered := hs.answered
      working := ⟨todo, rest, htodo, hdone, hworking.frame rfl rfl rfl⟩
      fits := hs.fits, wire := hs.wire, header := hs.header, behind := hs.behind
      awake := hs.awake }

/-- The first request that waits. -/
theorem Serving.awaited (hs : Serving L d asks s) {n : ReceiveNotification}
    (hstage : s.stage = .awaitData n) :
    ∃ a, asks[s.record.decodes.length]? = some a ∧ n.len = a.bytes.length ∧
      s.record.decodes.length < s.record.packets.length ∧
      s.rx.take n.len = a.bytes ∧
      s.rx.drop n.len = ((asked asks s).drop (s.record.decodes.length + 1)).flatMap Ask.bytes ∧
      s.notifications.map ReceiveNotification.len =
        ((asked asks s).drop (s.record.decodes.length + 1)).map fun a => a.bytes.length := by
  have hwaiting := hs.waiting
  rw [hstage] at hwaiting
  have hlen : (asked asks s).length = s.record.packets.length :=
    List.length_take_of_le hs.packets_le
  have hlt : s.record.decodes.length < (asked asks s).length := by
    have hcount := congrArg List.length hwaiting
    rw [List.length_map, List.length_map, pending, List.length_drop] at hcount
    change ([n] ++ s.notifications).length = _ at hcount
    rw [List.length_append, List.length_singleton] at hcount
    omega
  have hpending : pending asks s = (asked asks s)[s.record.decodes.length] ::
      (asked asks s).drop (s.record.decodes.length + 1) := List.drop_eq_getElem_cons hlt
  have hrx := hs.rx_eq
  rw [hpending, List.flatMap_cons] at hrx
  rw [hpending, List.map_cons] at hwaiting
  obtain ⟨hn, hrest⟩ := List.cons.inj hwaiting
  refine ⟨_, ?_, hn, hlen ▸ hlt, ?_, ?_, hrest⟩
  · have hget : (asked asks s)[s.record.decodes.length]? =
        some (asked asks s)[s.record.decodes.length] := List.getElem?_eq_getElem hlt
    rw [← hget, asked, List.getElem?_take_of_lt (hlen ▸ hlt)]
  · rw [hn, hrx, List.take_left]
  · rw [hn, hrx, List.drop_left]

/-- The bytes of a packet are there, so waiting for them does not end in vain. -/
theorem Serving.awaitTimeout (hs : Serving L d asks s) : awaitTimeout L s = s := by
  unfold RequestHandler01.awaitTimeout
  split
  · next n hstage =>
    obtain ⟨a, -, hn, -, htake, -⟩ := hs.awaited hstage
    refine if_neg fun hlt => ?_
    rw [List.take_of_length_le (Nat.le_of_lt hlt)] at htake
    rw [htake, hn] at hlt
    exact Nat.lt_irrefl _ hlt
  · rfl

end OpenBadge.BadgeLegacy
