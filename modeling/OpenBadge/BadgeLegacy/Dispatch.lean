import OpenBadge.BadgeLegacy.Agreement

/-!
# The scheduler events of the badge

Each event moves one call on: its request is handled, its response is made, sent, or tried
again. What was brought and what is still to come make up the answers throughout.
-/

namespace OpenBadge.BadgeLegacy

open OpenBadge.Lib OpenBadge.Tinybuf
open RequestHandler01
open Processing (Timestamp)

variable {S : Type} {L : Libraries S} {d : Stored} {asks : List Ask} {s : State S}

/-! ## Scheduler events -/

/-- A step that brings nothing in and nothing out. -/
theorem Serving.inner (hs : Serving L d asks s) {t : State S}
    (hconnected : t.connected = s.connected) (hrecord : t.record = s.record)
    (hwaiting : t.stage.awaiting ++ t.notifications = s.stage.awaiting ++ s.notifications)
    (hrx : t.rx = s.rx) (htx : t.tx ++ t.stage.behind = s.tx ++ s.stage.behind)
    (hbehind : t.stage.behind = []) (hcurrent : t.current = s.current)
    (hheader : ∀ bytes, t.stage = .transmitHeader bytes →
      bytes = t.responseEvent.response.bytes ∧ t.responseEvent.failHandler = some .sendResponse)
    (hworking : ∀ todo rest, Working L d s s.live todo rest → Working L d t t.live todo rest)
    (hawake : t.processingReceiveNotification = true ∨ t.notifications ≠ [] →
      .processReceiveNotification ∈ t.queue ∨ t.live ≠ [] ∨ t.stage.awaiting ≠ []) :
    Serving L d asks t := by
  have hasked : asked asks t = asked asks s := by rw [asked, hrecord, asked]
  have htaken : taken asks t = taken asks s := by rw [taken, hrecord, taken]
  have hpending : pending asks t = pending asks s := by rw [pending, hasked, hrecord, pending]
  obtain ⟨todo, rest, htodo, hdone, hw⟩ := hs.working
  exact
    { connected := hconnected.trans hs.connected
      packets := by rw [hasked, hrecord]; exact hs.packets
      decodes := by rw [hrecord, htaken]; exact hs.decodes
      order := by rw [hrecord]; exact hs.order
      waiting := by rw [hwaiting, hpending]; exact hs.waiting
      rx_eq := by rw [hrx, hpending]; exact hs.rx_eq
      answered := by rw [hrecord]; exact hs.answered
      working := ⟨todo, rest, htaken ▸ htodo, by rw [hrecord, htaken]; exact hdone,
        hworking todo rest hw⟩
      fits := by rw [hrecord, hcurrent]; exact hs.fits
      wire := by rw [hrecord, htx, hcurrent]; exact hs.wire
      header := hheader
      behind := hbehind ▸ List.nil_suffix
      awake := hawake }

theorem live_idle {qs : List Handler} (hstage : s.stage = .idle) (hqueue : s.queue = qs) :
    s.live = qs.filter (· ≠ .processReceiveNotification) := by
  rw [State.live, hstage, hqueue]
  rfl

theorem filter_cons_poll (qs : List Handler) :
    (Handler.processReceiveNotification :: qs).filter (· ≠ .processReceiveNotification) =
      qs.filter (· ≠ .processReceiveNotification) := List.filter_cons_of_neg (by simp)

theorem filter_cons_call {h : Handler} (hh : h ≠ .processReceiveNotification) (qs : List Handler) :
    (h :: qs).filter (· ≠ .processReceiveNotification) =
      h :: qs.filter (· ≠ .processReceiveNotification) :=
  List.filter_cons_of_pos (by simpa using hh)

theorem filter_concat_call {h : Handler} (hh : h ≠ .processReceiveNotification)
    (qs : List Handler) : (qs ++ [h]).filter (· ≠ .processReceiveNotification) =
      qs.filter (· ≠ .processReceiveNotification) ++ [h] := by
  rw [List.filter_append, filter_cons_call hh, List.filter_nil]

section Idle

variable (hs : Serving L d asks s) (hstage : s.stage = .idle)

include hs hstage

/-- `process_receive_notification` with and without a notification. -/
theorem Serving.poll {qs : List Handler} (hqueue : s.queue = .processReceiveNotification :: qs)
    (a : Answers) :
    Serving L d asks (processReceiveNotification L a { s with queue := qs }) := by
  have hlive : qs.filter (· ≠ .processReceiveNotification) = s.live := by
    rw [live_idle hstage hqueue, filter_cons_poll]
  by_cases hnotifications : s.notifications = []
  · have hcall := processReceiveNotification_empty (L := L) (a := a) (s := { s with queue := qs })
      hnotifications
    have hlive' : (processReceiveNotification L a { s with queue := qs }).live = s.live := by
      rw [hcall, ← hlive]
      exact live_idle hstage rfl
    refine hs.inner (by rw [hcall]) (by rw [hcall]; rfl) (by rw [hcall]) (by rw [hcall])
      (by rw [hcall]) (by rw [hcall, hstage]; rfl) (by rw [hcall]; rfl) ?_
      (fun todo rest hw => ?_) ?_
    · rw [hcall]
      exact hs.header
    · rw [hlive']
      exact hw.frame (by rw [hcall]) (by rw [hcall]) (by rw [hcall])
    · rw [hcall]
      rintro (hflag | hmore)
      · cases hflag
      · exact absurd hnotifications hmore
  · obtain ⟨n, ns, hnext⟩ := List.exists_cons_of_ne_nil hnotifications
    rw [processReceiveNotification_next (s := { s with queue := qs }) hnext hs.connected]
    refine hs.inner rfl rfl ?_ rfl ?_ rfl ?_ (fun bytes h => (by cases h))
      (fun todo rest hw => ?_) fun _ => .inr (.inr (List.cons_ne_nil _ _))
    · rw [hstage, hnext]
      rfl
    · rw [hstage]
      rfl
    · rw [State.current, State.current, hstage]
    · rw [← hlive] at hw
      exact hw.frame rfl rfl rfl

/-- The first event of a call begins to send. -/
theorem Serving.begin {h : Handler} (hh : h ≠ .processReceiveNotification) {qs : List Handler}
    (hqueue : s.queue = h :: qs) {t : State S} (hbegins : Begins { s with queue := qs } t)
    (howes : ∀ a rest, Owes L d s a h rest → rest <:+ a.answer d →
      Owes L d t a .sendResponse rest ∧ (a.silent = true → t.storer = s.storer)) :
    Serving L d asks t := by
  have hlive : s.live = h :: qs.filter (· ≠ .processReceiveNotification) := by
    rw [live_idle hstage hqueue, filter_cons_call hh]
  have heq := hbegins.eq
  have hsending : t.stage = .transmitHeader t.responseEvent.response.bytes := by rw [heq]
  have hlive' : t.live = .sendResponse :: qs.filter (· ≠ .processReceiveNotification) := by
    have hq : t.queue = qs := by rw [heq]
    rw [State.live, hsending, hq]
    rfl
  refine hs.inner (by rw [heq]) (by rw [heq]; rfl) ?_ (by rw [heq]) ?_ (by rw [hsending]; rfl)
    ?_ ?_ (fun todo rest hw => ?_) fun _ => .inr (.inl ?_)
  · have hn : t.notifications = s.notifications := by rw [heq]
    rw [hsending, hstage, hn]
    rfl
  · have htx : t.tx = s.tx := by rw [heq]
    rw [hsending, hstage, htx]
    rfl
  · rw [State.current, State.current, hsending, hstage]
  · intro bytes hbytes
    rw [hsending] at hbytes
    cases hbytes
    exact ⟨rfl, hbegins.failHandler⟩
  · rw [hlive] at hw
    rw [hlive']
    cases hw with
    | @busy _ hs' a as rest owes left more waiting quiet =>
      obtain ⟨howes', hstorer⟩ := howes a rest owes left
      refine .busy howes' left more ?_ quiet
      cases ha : a.silent with
      | true => exact waiting_frame waiting (by rw [heq]) (hstorer ha)
      | false =>
        obtain ⟨hnil, rfl⟩ := alone_of_loud ha waiting quiet
        rw [hnil]
        exact .nil
  · rw [hlive']
    exact List.cons_ne_nil _ _

/-- The first event of a call, which has bytes to bring, is put on the queue as another. -/
theorem Serving.put {h x : Handler} (hh : h ≠ .processReceiveNotification)
    (hx : x ≠ .processReceiveNotification) {qs : List Handler} (hqueue : s.queue = h :: qs)
    {t : State S} (heq : t = { s with
      queue := qs ++ [x], storer := t.storer, sampling := t.sampling
      responseEvent := t.responseEvent, trace := t.trace }) (hrecord : t.record = s.record)
    (howes : ∀ a rest, Owes L d s a h rest → rest <:+ a.answer d →
      a.silent = false ∧ Owes L d t a x rest) : Serving L d asks t := by
  have hlive : s.live = h :: qs.filter (· ≠ .processReceiveNotification) := by
    rw [live_idle hstage hqueue, filter_cons_call hh]
  have hidle : t.stage = .idle := by
    rw [heq]
    exact hstage
  have hlive' : t.live = qs.filter (· ≠ .processReceiveNotification) ++ [x] := by
    have hq : t.queue = qs ++ [x] := by rw [heq]
    rw [live_idle hidle hq, filter_concat_call hx]
  refine hs.inner (by rw [heq]) hrecord ?_ (by rw [heq]) ?_ (by rw [hidle]; rfl) ?_ ?_
    (fun todo rest hw => ?_) fun _ => .inr (.inl ?_)
  · have hn : t.notifications = s.notifications := by rw [heq]
    rw [hidle, hstage, hn]
  · have htx : t.tx = s.tx := by rw [heq]
    rw [hidle, hstage, htx]
  · rw [State.current, State.current, hidle, hstage]
  · intro bytes hbytes
    rw [hidle] at hbytes
    cases hbytes
  · rw [hlive] at hw
    rw [hlive']
    cases hw with
    | @busy _ hs' a as rest owes left more waiting quiet =>
      obtain ⟨hloud, howes'⟩ := howes a rest owes left
      obtain ⟨hnil, rfl⟩ := alone_of_loud hloud waiting quiet
      rw [hnil]
      exact .busy howes' left more .nil quiet
  · rw [hlive']
    exact List.append_ne_nil_of_right_ne_nil _ (List.cons_ne_nil _ _)

/-! ### Calls -/

/-- The first event belongs to a call. -/
theorem Serving.head {h : Handler} (hh : h ≠ .processReceiveNotification) {qs : List Handler}
    (hqueue : s.queue = h :: qs) : ∃ a rest, Owes L d s a h rest := by
  have hlive : s.live = h :: qs.filter (· ≠ .processReceiveNotification) := by
    rw [live_idle hstage hqueue, filter_cons_call hh]
  obtain ⟨todo, rest, -, -, hw⟩ := hs.working
  rw [hlive] at hw
  cases hw with
  | busy owes => exact ⟨_, _, owes⟩

theorem Serving.sendResponse {qs : List Handler} (hqueue : s.queue = .sendResponse :: qs)
    (herr : .error ∉ (sendResponse L { s with queue := qs }).trace) :
    Serving L d asks (sendResponse L { s with queue := qs }) := by
  have hsends := sendResponse_sends herr
  refine hs.begin hstage Handler.noConfusion hqueue (sends_begins hsends).1
    fun a rest howes _ => ⟨?_, fun _ => (sends_begins hsends).2.1⟩
  have howes' : Owes L d { s with queue := qs } a .sendResponse rest := howes.frame rfl rfl rfl
  exact (sends_owes hsends howes').2

theorem Serving.request (hL : Finds L d) {r : RequestType} {qs : List Handler}
    (hqueue : s.queue = .request r :: qs) {a : Answers}
    (herr : .error ∉ (requestHandler L a r { s with queue := qs }).trace) :
    Serving L d asks (requestHandler L a r { s with queue := qs }) := by
  have hhandles := requestHandler_handles herr
  generalize requestHandler L a r { s with queue := qs } = t at hhandles
  obtain ⟨b, _, rfl, -, hrequest, -⟩ := hs.head hstage Handler.noConfusion hqueue
  obtain ⟨x, hputs, hx, -⟩ := handles_fresh hL hhandles hrequest
  refine hs.put hstage Handler.noConfusion hx hqueue (by rw [hputs.1]) hputs.2
    fun c rest howes _ => ?_
  obtain ⟨htype, hloud, hsame, hrest⟩ := howes
  rw [htype] at hhandles
  obtain ⟨y, hputs', -, hfresh⟩ := handles_fresh hL hhandles hsame
  refine ⟨hloud, ?_⟩
  rw [hrest, puts_unique hputs hputs']
  exact hfresh.2

theorem Serving.response {r : ResponseType} {qs : List Handler}
    (hqueue : s.queue = .response r :: qs) {a : Answers}
    (herr : .error ∉ (responseHandler L a r { s with queue := qs }).trace) :
    Serving L d asks (responseHandler L a r { s with queue := qs }) := by
  have hresponds := responseHandler_responds herr
  generalize responseHandler L a r { s with queue := qs } = t at hresponds
  have howes (c : Ask) (rest : List Response) (h : Owes L d s c (.response r) rest) :=
    responds_owes hresponds (h.frame rfl rfl rfl : Owes L d { s with queue := qs } c _ rest)
  obtain ⟨b, rest, hb⟩ := hs.head hstage Handler.noConfusion hqueue
  rcases howes b rest hb with ⟨hbegins, -, -⟩ | ⟨k, rfl, heq, -⟩
  · refine hs.begin hstage Handler.noConfusion hqueue hbegins fun c rest h left => ?_
    rcases howes c rest h with ⟨-, howes', hstorer⟩ | ⟨k, -, heq, -⟩
    · refine ⟨howes', fun hc => hstorer fun k hk => ?_⟩
      subst hk
      have hloud := loud_of_data [] h left
      rw [hc] at hloud
      cases hloud
    · have hidle : t.stage = .idle := by
        rw [heq]
        exact hstage
      rw [hbegins.eq] at hidle
      cases hidle
  · have hidle : t.stage = .idle := by
      rw [heq]
      exact hstage
    refine hs.put hstage Handler.noConfusion Handler.noConfusion hqueue
      (t := t) (by rw [heq]) (by rw [heq]; rfl) fun c rest h left => ?_
    rcases howes c rest h with ⟨hbegins, -, -⟩ | ⟨k', hk, -, howes'⟩
    · rw [hbegins.eq] at hidle
      cases hidle
    · cases hk
      exact ⟨loud_of_data [] h left, howes'⟩

/-- The next event of the scheduler. -/
theorem Serving.runEvent (hL : Finds L d) {h : Handler} {qs : List Handler}
    (hqueue : s.queue = h :: qs) {a : Answers}
    (herr : .error ∉ (runEvent L a h { s with queue := qs }).trace) :
    Serving L d asks (runEvent L a h { s with queue := qs }) := by
  cases h with
  | processReceiveNotification => exact hs.poll hstage hqueue a
  | sendResponse => exact hs.sendResponse hstage hqueue herr
  | request r => exact hs.request hstage hL hqueue herr
  | response r => exact hs.response hstage hqueue herr

end Idle

/-! ### Requests -/

/-- The request of the next packet is taken, and its call has its event. -/
theorem Serving.handleNotification (hL : Finds L d) (hs : Serving L d asks s)
    {n : ReceiveNotification} (hstage : s.stage = .awaitData n) {a : Answers}
    (herr : .error ∉ (handleNotification L a n (s.rx.take n.len)
      { s with rx := s.rx.drop n.len }).trace) :
    Serving L d asks
      (handleNotification L a n (s.rx.take n.len) { s with rx := s.rx.drop n.len }) := by
  obtain ⟨b, hb, -, hmore, htake, hdrop, hlens⟩ := hs.awaited hstage
  have hcurrent : s.current = [] := by rw [State.current, hstage]
  obtain ⟨q, r, hq, hr, hhandles⟩ := handleNotification_handles herr
  generalize RequestHandler01.handleNotification L a n (s.rx.take n.len)
    { s with rx := s.rx.drop n.len } = t at hhandles
  rw [htake, b.understood] at hq
  cases hq
  rw [b.handler_found] at hr
  cases hr
  obtain ⟨x, hputs, hx, hfresh⟩ := handles_fresh hL hhandles rfl
  obtain ⟨heq, hrecord⟩ := hputs
  have hrecord : t.record =
      { s.record with decodes := s.record.decodes ++ [s.rx.take n.len] } := hrecord
  have hcount : t.record.decodes.length = s.record.decodes.length + 1 := by
    rw [hrecord]
    exact List.length_append
  have hasked : asked asks t = asked asks s := by rw [asked, hrecord, asked]
  have htaken : taken asks t = taken asks s ++ [b] := by
    rw [taken, hcount, List.take_add_one, hb]
    rfl
  have hpending : pending asks t = (asked asks s).drop (s.record.decodes.length + 1) := by
    rw [pending, hasked, hcount]
  have hidle : t.stage = .idle := by rw [heq]; rfl
  have hlive : t.live = s.live ++ [x] := by
    have hqueue : t.queue = s.queue ++ [x] := by rw [heq]; rfl
    rw [live_idle hidle hqueue, filter_concat_call hx, State.live, hstage]
    rfl
  refine
    { connected := ?_, packets := ?_, decodes := ?_, order := ?_, waiting := ?_, rx_eq := ?_
      answered := ?_, working := ?_, fits := ?_, wire := ?_, header := ?_, behind := ?_
      awake := ?_ }
  · rw [heq]
    exact hs.connected
  · rw [hasked, hrecord]
    exact hs.packets
  · rw [htaken, hrecord, List.map_append, ← hs.decodes, htake]
    rfl
  · rw [hcount, hrecord]
    exact hmore
  · have hnotifications : t.notifications = s.notifications := by rw [heq]; rfl
    rw [hidle, hnotifications, hpending]
    exact hlens
  · have hrx : t.rx = s.rx.drop n.len := by rw [heq]; rfl
    rw [hrx, hpending]
    exact hdrop
  · rw [hrecord]
    exact hs.answered
  · obtain ⟨todo, rest, htodo, hdone, hworking⟩ := hs.working
    have hquiet := hs.quiet hcurrent hmore hdone hworking
    have hevent : t.responseEvent = s.responseEvent := by rw [heq]; rfl
    refine ⟨todo ++ [b], rest ++ b.answer d, ?_, ?_, ?_⟩
    · obtain ⟨finished, hfinished⟩ := htodo
      rw [htaken, ← hfinished]
      exact ⟨finished, (List.append_assoc ..).symm⟩
    · rw [hrecord, htaken, List.flatMap_append, ← hdone, List.flatMap_singleton]
      exact (List.append_assoc ..).symm
    · rw [hlive]
      exact hworking.add hquiet hfresh hevent
  · have hnone : t.current = [] := by rw [State.current, hidle]
    rw [hrecord, hnone, ← hcurrent]
    exact hs.fits
  · have hnone : t.current = [] := by rw [State.current, hidle]
    have htx : t.tx = s.tx := by rw [heq]; rfl
    have hwire := hs.wire
    rw [hstage] at hwire
    rw [hrecord, hnone, htx, hidle, ← hcurrent]
    exact hwire
  · intro bytes hbytes
    rw [hidle] at hbytes
    cases hbytes
  · rw [hidle]
    exact List.nil_suffix
  · intro _
    rw [hlive]
    exact .inr (.inl (List.append_ne_nil_of_right_ne_nil _ (List.cons_ne_nil _ _)))

/-! ### Transmission -/

/-- The transmit FIFO holds every response. -/
theorem bytes_le_txFifoSize {r : Response} (hr : r.Fits) : r.bytes.length ≤ txFifoSize := by
  rw [bytes_length hr]
  cases r with
  | microphoneData t voltage samplePeriodMs data =>
    have hdata : data.length ≤ protocolMicrophoneDataSize := hr
    have hsize : messageLength MicrophoneDataHeader.messageFields + protocolMicrophoneDataSize ≤
        txFifoSize := by decide
    exact Nat.le_trans (Nat.add_le_add_left hdata _) hsize
  | scanData seconds voltage results =>
    have hresults : results.length ≤ protocolScanDataSize := hr
    have hbehind : (Response.scanData seconds voltage results).behind.length ≤
        4 * protocolScanDataSize := by
      change (results.flatMap deviceBytes).length ≤ _
      rw [devices_length]
      exact Nat.mul_le_mul_left 4 hresults
    have hsize : messageLength ScanDataHeader.messageFields + 4 * protocolScanDataSize ≤
        txFifoSize := by decide
    exact Nat.le_trans (Nat.add_le_add_left hbehind _) hsize
  | status r => exact (by decide : messageLength StatusResponse.messageFields ≤ txFifoSize)
  | start k t =>
    cases k <;> exact (by decide : messageLength StartRecordResponse.messageFields ≤ txFifoSize)
  | stop k => exact Nat.zero_le _
  | identify => exact Nat.zero_le _

theorem live_sending (hsending : s.stage.sending = [.sendResponse]) :
    s.live = .sendResponse :: s.queue.filter (· ≠ .processReceiveNotification) := by
  rw [State.live, hsending]
  rfl

/-- The response to `a` is under way, and the calls `as` wait. -/
structure UnderWay (L : Libraries S) (d : Stored) (asks : List Ask) (s : State S) (a : Ask)
    (as : List Ask) (rest : List Response) : Prop where
  suffix : a :: as <:+ taken asks s
  done : s.record.transmitted.map form ++ (rest ++ as.flatMap (Ask.answer d)) =
    (taken asks s).flatMap (Ask.answer d)
  owes : Sending L s rest
  left : rest <:+ a.answer d
  more : rest ≠ []
  waiting : List.Forall₂ (Fresh L d s) (s.queue.filter (· ≠ .processReceiveNotification)) as
  quiet : ∀ b ∈ (a :: as).dropLast, b.silent = true

theorem Serving.underWay (hs : Serving L d asks s) (hsending : s.stage.sending = [.sendResponse]) :
    ∃ a as rest, UnderWay L d asks s a as rest := by
  obtain ⟨todo, rest, htodo, hdone, hworking⟩ := hs.working
  rw [live_sending hsending] at hworking
  cases hworking with
  | busy owes left more waiting quiet =>
    exact ⟨_, _, _, htodo, hdone, owes, left, more, waiting, quiet⟩

/-- The header is put into the transmit FIFO. -/
theorem Serving.transmitHeader (hs : Serving L d asks s) {bytes : List UInt8}
    (hstage : s.stage = .transmitHeader bytes) (htx : s.tx = []) :
    Serving L d asks (transmitHeader L bytes s) := by
  have hsending : s.stage.sending = [.sendResponse] := by rw [hstage]; rfl
  obtain ⟨_, _, _, hunder⟩ := hs.underWay hsending
  have hfits := hunder.owes.1
  obtain ⟨rfl, -⟩ := hs.header bytes hstage
  rw [transmitHeader_ok hs.connected htx (bytes_le_txFifoSize hfits)]
  have hcurrent : s.current = [] := by rw [State.current, hstage]
  have hfit := hs.fits
  have hwire := hs.wire
  rw [hcurrent, List.append_nil] at hfit hwire
  rw [hstage, htx] at hwire
  have hwaiting := hs.waiting
  rw [hstage] at hwaiting
  refine
    { connected := hs.connected, packets := hs.packets, decodes := hs.decodes, order := hs.order
      waiting := hwaiting, rx_eq := hs.rx_eq, answered := hs.answered, working := ?_, fits := ?_
      wire := ?_, header := fun bytes h => (by cases h), behind := List.drop_suffix _ _
      awake := fun _ => .inr (.inl (List.cons_ne_nil _ _)) }
  · obtain ⟨todo, rest, htodo, hdone, hworking⟩ := hs.working
    refine ⟨todo, rest, htodo, hdone, ?_⟩
    rw [live_sending hsending] at hworking
    exact hworking.frame rfl rfl rfl
  · intro r hr
    rcases List.mem_append.mp hr with hr | hr
    · exact hfit r hr
    · obtain rfl := List.mem_singleton.mp hr
      exact hfits
  · change s.record.sent ++ (s.responseEvent.response.bytes.take _ ++
      s.responseEvent.response.bytes.drop _) =
        (s.record.transmitted ++ [s.responseEvent.response]).flatMap Response.bytes
    rw [List.take_append_drop, List.flatMap_append, List.flatMap_singleton, ← hwire]
    exact congrArg (· ++ s.responseEvent.response.bytes) (List.append_nil _).symm

/-- The response is out, and the next event is on the queue. -/
theorem Serving.out (hs : Serving L d asks s) {bytes : List UInt8}
    (hstage : s.stage = .transmitData bytes) (htx : s.tx = []) {x : Handler} {t : State S}
    (heq : t = { s with
      tx := bytes, stage := .idle, queue := s.queue ++ [x]
      processingReceiveNotification := t.processingReceiveNotification
      trace := .transmit s.responseEvent.response :: s.trace })
    (hworking : ∃ todo rest, todo <:+ taken asks s ∧
      (s.record.transmitted ++ [s.responseEvent.response]).map form ++ rest =
        (taken asks s).flatMap (Ask.answer d) ∧
      Working L d s ((s.queue ++ [x]).filter (· ≠ .processReceiveNotification)) todo rest) :
    Serving L d asks t := by
  have hcurrent : s.current = [s.responseEvent.response] := by rw [State.current, hstage]
  have hfit := hs.fits
  have hwire := hs.wire
  rw [hcurrent] at hfit hwire
  rw [hstage, htx] at hwire
  have hwaiting := hs.waiting
  rw [hstage] at hwaiting
  rw [heq]
  refine
    { connected := hs.connected, packets := hs.packets, decodes := hs.decodes, order := hs.order
      waiting := hwaiting, rx_eq := hs.rx_eq, answered := hs.answered, working := ?_, fits := ?_
      wire := ?_, header := fun bytes h => (by cases h), behind := List.nil_suffix
      awake := fun _ => ?_ }
  · obtain ⟨todo, rest, htodo, hdone, hworking⟩ := hworking
    exact ⟨todo, rest, htodo, hdone, hworking.frame rfl rfl rfl⟩
  · intro r hr
    rcases List.mem_append.mp hr with hr | hr
    · exact hfit r hr
    · cases hr
  · change s.record.sent ++ (bytes ++ []) = (s.record.transmitted ++ [_] ++ []).flatMap _
    rw [List.append_nil, List.append_nil]
    exact hwire
  · by_cases hx : x = .processReceiveNotification
    · subst hx
      exact .inl (List.mem_append_right _ (List.mem_singleton_self _))
    · refine .inr (.inl ?_)
      change (s.queue ++ [x]).filter _ ≠ []
      rw [filter_concat_call hx]
      exact List.append_ne_nil_of_right_ne_nil _ (List.cons_ne_nil _ _)

/-- The rest of the response is put into the transmit FIFO. After the last response the next
call has its turn; after a chunk the call goes on. -/
theorem Serving.transmitData (hs : Serving L d asks s) {bytes : List UInt8}
    (hstage : s.stage = .transmitData bytes) (htx : s.tx = []) :
    Serving L d asks (transmitData L bytes s) := by
  have hsending : s.stage.sending = [.sendResponse] := by rw [hstage]; rfl
  obtain ⟨a, as, rest, hunder⟩ := hs.underWay hsending
  obtain ⟨hfits, later, rfl, hnext⟩ := hunder.owes
  have hlen : bytes.length ≤ txFifoSize := by
    have hbehind := hs.behind
    rw [hstage] at hbehind
    exact Nat.le_trans hbehind.length_le (bytes_le_txFifoSize hfits)
  rw [transmitData_ok hs.connected htx hlen]
  have hdone : (s.record.transmitted ++ [s.responseEvent.response]).map form ++
      (later ++ as.flatMap (Ask.answer d)) = (taken asks s).flatMap (Ask.answer d) := by
    rw [← hunder.done, List.map_append, List.append_assoc]
    rfl
  rcases hnext with ⟨hnone, rfl⟩ | ⟨k, hsome, hdata⟩
  · rw [hnone]
    refine hs.out hstage htx (x := .processReceiveNotification) rfl
      ⟨as, as.flatMap (Ask.answer d), (List.suffix_cons a as).trans hunder.suffix, hdone, ?_⟩
    rw [filter_concat_poll]
    exact .of_waiting hunder.waiting fun b hb => hunder.quiet b <| by
      cases as with
      | nil => cases hb
      | cons c as => exact List.mem_cons_of_mem a hb
  · rw [hsome]
    have hloud := loud_of_data [form s.responseEvent.response] hdata hunder.left
    obtain ⟨hnil, rfl⟩ := alone_of_loud hloud hunder.waiting hunder.quiet
    have hmore : later ≠ [] := by
      obtain ⟨rs, -, rfl⟩ := hdata
      exact List.append_ne_nil_of_right_ne_nil _ (List.cons_ne_nil _ _)
    refine hs.out hstage htx (x := .response (.data k)) rfl
      ⟨[a], later ++ [].flatMap (Ask.answer d), hunder.suffix, hdone, ?_⟩
    rw [filter_concat_call Handler.noConfusion, hnil]
    exact .busy hdata ((List.suffix_cons _ _).trans hunder.left) hmore .nil hunder.quiet

/-- The response is tried again. The transmit FIFO is empty before the first response to a call,
so the call has bytes to bring, and no other event waits. -/
theorem Serving.transmitTimeout (hs : Serving L d asks s) :
    Serving L d asks (transmitTimeout L s) := by
  unfold RequestHandler01.transmitTimeout
  split
  · next bytes hstage =>
    split
    · exact hs
    · next htx =>
      have hsending : s.stage.sending = [.sendResponse] := by rw [hstage]; rfl
      have hcurrent : s.current = [] := by rw [State.current, hstage]
      obtain ⟨-, hfail⟩ := hs.header bytes hstage
      obtain ⟨a, as, rest, hunder⟩ := hs.underWay hsending
      have hloud : a.silent = false := by
        cases ha : a.silent with
        | false => rfl
        | true =>
          refine absurd (hs.tx_eq_nil hcurrent hunder.suffix hunder.done ?_) htx
          rw [left_of_silent ha hunder.left hunder.more]
          rfl
      obtain ⟨hnil, -⟩ := alone_of_loud hloud hunder.waiting hunder.quiet
      have heq : finishSend L (.error .noMem) s =
          { s with stage := .idle, queue := s.queue ++ [.sendResponse] } := by
        unfold finishSend
        simp only [hfail]
        rfl
      rw [heq]
      have hidle : ({ s with stage := .idle, queue := s.queue ++ [.sendResponse] } : State S).live
          = s.live := by
        rw [live_idle rfl rfl, filter_concat_call Handler.noConfusion, hnil, live_sending hsending,
          hnil]
        rfl
      refine hs.inner rfl rfl (by rw [hstage]; rfl) rfl (by rw [hstage]; rfl) rfl
        (by rw [hcurrent]; rfl) (fun bytes h => (by cases h)) (fun todo rest hw => ?_)
        fun _ => .inr (.inl ?_)
      · rw [hidle]
        exact hw.frame rfl rfl rfl
      · rw [hidle, live_sending hsending]
        exact List.cons_ne_nil _ _
  · exact hs

end OpenBadge.BadgeLegacy
