import OpenBadge.RequestHandler01.Model

/-!
# What the scheduler events do

For every scheduler event the list of everything it can do unless it gives the connection up.
The proofs about the system go through these lists and do not unfold the handlers.
-/

namespace OpenBadge.RequestHandler01

open OpenBadge.Lib
open Processing (Timestamp)

variable {S : Type} (L : Libraries S) (a : Answers)

/-! ## Histories -/

/-- What of a history the client has part in. -/
structure Record where
  packets : List (List UInt8)
  decodes : List (List UInt8)
  transmitted : List Response
  sent : List UInt8

def Record.add (r : Record) : Entry → Record
  | .packet data => { r with packets := r.packets ++ [data] }
  | .decode bytes => { r with decodes := r.decodes ++ [bytes] }
  | .transmit m => { r with transmitted := r.transmitted ++ [m] }
  | .sent data => { r with sent := r.sent ++ data }
  | _ => r

def history : List Entry → Record
  | [] => ⟨[], [], [], []⟩
  | e :: tr => (history tr).add e

def State.record (s : State S) : Record := history s.trace

/-! ## Effects -/

/-- The responses of the requests. -/
def RequestType.response : RequestType → ResponseType
  | .status | .statusAssign => .status
  | .start k => .start k
  | .stop k => .stop k
  | .data k => .data k
  | .identify => .identify

/-- The timestamp that a request for stored data looks for. -/
def Request.sought (r : Request) : Source → Timestamp
  | .microphone => r.timestamp
  | .scan => ⟨r.seconds, 0⟩

/-- Nothing but a new event, and what is no part of the record. -/
def Puts (h : Handler) (s t : State S) : Prop :=
  t = { s with
    queue := s.queue ++ [h], storer := t.storer, sampling := t.sampling, trace := t.trace } ∧
  t.record = s.record

/-- `send_response` goes to its wait. -/
def Sends (s t : State S) : Prop :=
  ∃ bytes, encodeResponse s.responseEvent.response = some bytes ∧
    t = { s with
      responseEvent := { s.responseEvent with
        failHandler := some .sendResponse, retries := s.responseEvent.retries + 1 }
      stage := .transmitHeader (bytes.drop 1) }

/-- A request handler. -/
inductive Handles (r : RequestType) (s t : State S) : Prop
  | answered (puts : Puts (.response r.response) s t) (same : t.storer = s.storer)
      (sought : ∀ k, r ≠ .data k)
  | retried (puts : Puts (.request r) s t) (same : t.storer = s.storer)
      (loud : r = .statusAssign ∨ ∃ k, r = .start k)
  | found {k : Source} (sought : r = .data k) (puts : Puts (.response (.data k)) s t)
      (ready : L.findChunk k (s.requestEvent.request.sought k) s.storer = (.ok (), t.storer) ∨
        L.findChunk k (s.requestEvent.request.sought k) s.storer = (.error .invalidState, t.storer))
  | busy {k : Source} (sought : r = .data k) (puts : Puts (.request (.data k)) s t)

/-- What the response handlers other than those of stored data send. -/
inductive Own : ResponseType → Response → Prop
  | status (r : StatusResponse) : Own .status (.status r)
  | start (k : Source) (t : Timestamp) : Own (.start k) (.start k t)
  | stop (k : Source) : Own (.stop k) (.stop k)
  | identify : Own .identify .identify

/-- A response handler. -/
inductive Responds (r : ResponseType) (s t : State S) : Prop
  | own {m : Response} (own : Own r m) (sends : Sends (s.prepare m none) t)
  | chunk {k : Source} (data : r = .data k) {m : Response} {u : S}
      (next : L.nextResponse k s.storer = (.ok m, u))
      (sends : Sends ({ s with storer := u }.prepare m (some (.response (.data k)))) t)
  | last {k : Source} (data : r = .data k) {e : RetCode} {u : S}
      (next : L.nextResponse k s.storer = (.error e, u)) (ends : e = .notFound ∨ e = .invalidState)
      (sends : Sends ({ s with storer := u }.prepare k.endResponse none) t)
  | busy {k : Source} (data : r = .data k) {e : RetCode} {u : S}
      (next : L.nextResponse k s.storer = (.error e, u))
      (more : e ≠ .notFound ∧ e ≠ .invalidState)
      (eq : t = ({ s with storer := u }.prepare k.endResponse (some (.response (.data k)))).put
        (.response (.data k)))

variable {L a}

theorem error_mem_finishRequestError (s : State S) :
    .error ∈ (finishRequestError L s).trace := List.mem_cons_self

theorem sendResponse_sends {s : State S} (herr : .error ∉ (sendResponse L s).trace) :
    Sends s (sendResponse L s) := by
  unfold sendResponse at herr ⊢
  dsimp only at herr ⊢
  split at herr
  · exact absurd (error_mem_finishRequestError _) herr
  · next hretries =>
    rw [if_neg hretries]
    split at herr
    · exact absurd (error_mem_finishRequestError _) herr
    · next bytes hencode =>
      exact ⟨bytes, hencode, rfl⟩

theorem requestHandler_handles {r : RequestType} {s : State S}
    (herr : .error ∉ (requestHandler L a r s).trace) : Handles L r s (requestHandler L a r s) := by
  cases r with
  | status => exact .answered ⟨rfl, rfl⟩ rfl (fun k h => (by cases h))
  | statusAssign =>
    change .error ∉ (statusAssignRequestHandler L a s).trace at herr
    change Handles L _ s (statusAssignRequestHandler L a s)
    unfold statusAssignRequestHandler at herr ⊢
    dsimp only at herr ⊢
    cases hset : a.setBadgeAssignement with
    | ok => exact .answered ⟨rfl, rfl⟩ rfl (fun k h => (by cases h))
    | error e =>
      rw [hset] at herr
      cases e with
      | internal => exact .retried ⟨rfl, rfl⟩ rfl (.inl rfl)
      | _ => exact absurd (error_mem_finishRequestError _) herr
  | start k =>
    cases hstart : a.samplingStart with
    | ok =>
      cases k
      · change Handles L _ s (startMicrophoneRequestHandler a s)
        rw [startMicrophoneRequestHandler, hstart]
        exact .answered ⟨rfl, rfl⟩ rfl (fun k h => (by cases h))
      · change Handles L _ s (startScanRequestHandler a s)
        rw [startScanRequestHandler, hstart]
        exact .answered ⟨rfl, rfl⟩ rfl (fun k h => (by cases h))
    | error e =>
      cases k
      · change Handles L _ s (startMicrophoneRequestHandler a s)
        rw [startMicrophoneRequestHandler, hstart]
        exact .retried ⟨rfl, rfl⟩ rfl (.inr ⟨_, rfl⟩)
      · change Handles L _ s (startScanRequestHandler a s)
        rw [startScanRequestHandler, hstart]
        exact .retried ⟨rfl, rfl⟩ rfl (.inr ⟨_, rfl⟩)
  | stop k => cases k <;> exact .answered ⟨rfl, rfl⟩ rfl (fun k h => (by cases h))
  | data k =>
    have hhandler : requestHandler L a (.data k) s =
        dataRequestHandler L k (s.requestEvent.request.sought k) s := by cases k <;> rfl
    rw [hhandler, dataRequestHandler]
    rcases hfind : L.findChunk k (s.requestEvent.request.sought k) s.storer with ⟨e | ⟨⟩, u⟩
    · by_cases he : e = .invalidState
      · subst he
        exact .found rfl ⟨rfl, rfl⟩ (.inr hfind)
      · cases e with
        | invalidState => exact absurd rfl he
        | _ => exact .busy rfl ⟨rfl, rfl⟩
    · exact .found rfl ⟨rfl, rfl⟩ (.inl hfind)
  | identify => exact .answered ⟨rfl, rfl⟩ rfl (fun k h => (by cases h))

theorem responseHandler_responds {r : ResponseType} {s : State S}
    (herr : .error ∉ (responseHandler L a r s).trace) :
    Responds L r s (responseHandler L a r s) := by
  cases r with
  | status => exact .own (.status _) (sendResponse_sends (L := L) herr)
  | start k => cases k <;> exact .own (.start _ _) (sendResponse_sends (L := L) herr)
  | stop k => cases k <;> exact .own (.stop _) (sendResponse_sends (L := L) herr)
  | identify => exact .own .identify (sendResponse_sends (L := L) herr)
  | data k =>
    have hhandler : responseHandler L a (.data k) s = dataResponseHandler L k s := by
      cases k <;> rfl
    rw [hhandler, dataResponseHandler] at herr ⊢
    rcases hnext : L.nextResponse k s.storer with ⟨e | m, u⟩
    · rw [hnext] at herr
      cases e with
      | notFound => exact .last rfl hnext (.inl rfl) (sendResponse_sends (L := L) herr)
      | invalidState => exact .last rfl hnext (.inr rfl) (sendResponse_sends (L := L) herr)
      | _ => exact .busy rfl hnext ⟨fun h => (by cases h), fun h => (by cases h)⟩ rfl
    · rw [hnext] at herr
      exact .chunk rfl hnext (sendResponse_sends (L := L) herr)

/-! ## The cut events -/

theorem processReceiveNotification_empty {s : State S} (h : s.notifications = []) :
    processReceiveNotification L a s = { s with processingReceiveNotification := false } := by
  rw [processReceiveNotification, h]

theorem processReceiveNotification_next {s : State S} {n : ReceiveNotification}
    {ns : List ReceiveNotification} (h : s.notifications = n :: ns) (hc : s.connected = true) :
    processReceiveNotification L a s = { s with
      processingReceiveNotification := true
      notifications := ns
      responseTimestamp := n.timestamp
      responseClockStatus := a.isSynced
      stage := .awaitData n } := by
  rw [processReceiveNotification, h]
  exact if_pos hc

theorem handleNotification_handles {n : ReceiveNotification} {bytes : List UInt8} {s : State S}
    (herr : .error ∉ (handleNotification L a n bytes s).trace) :
    ∃ q r, (decodeRequest bytes).map (reinterpretStatus bytes) = some q ∧
      findRequestHandler q.whichType = some r ∧
      Handles L r ({ s with stage := .idle, requestEvent := ⟨n.ticks, q⟩ }.log (.decode bytes))
        (handleNotification L a n bytes s) := by
  rw [handleNotification] at herr ⊢
  cases hdecode : decodeRequest bytes with
  | none =>
    rw [hdecode] at herr
    exact absurd (error_mem_finishRequestError _) herr
  | some q =>
    rw [hdecode] at herr
    dsimp only at herr ⊢
    cases hfind : findRequestHandler (reinterpretStatus bytes q).whichType with
    | none =>
      rw [hfind] at herr
      exact absurd (error_mem_finishRequestError _) herr
    | some r =>
      rw [hfind] at herr
      exact ⟨_, r, rfl, hfind, requestHandler_handles herr⟩

theorem senderTransmit_ok {data : List UInt8} {s : State S} (hc : s.connected = true)
    (htx : s.tx = []) (hlen : data.length ≤ txFifoSize) :
    senderTransmit data s = (.ok (), { s with tx := data }) := by
  have hroom : ¬ data.length > txFifoSize - s.tx.length := by
    rw [htx, List.length_nil, Nat.sub_zero]
    exact Nat.not_lt_of_le hlen
  rw [senderTransmit, if_pos hc, if_neg hroom, htx, List.nil_append]

theorem transmitHeader_ok {bytes : List UInt8} {s : State S} (hc : s.connected = true)
    (htx : s.tx = []) (hlen : bytes.length ≤ txFifoSize) : transmitHeader L bytes s =
      { s with
        tx := bytes.take (headerLen s.responseEvent.response)
        stage := .transmitData (bytes.drop (headerLen s.responseEvent.response)) } := by
  rw [transmitHeader, senderTransmit_ok hc htx (Nat.le_trans (List.length_take_le' ..) hlen)]

/-- The response is out; the request is finished or goes on. -/
theorem transmitData_ok {bytes : List UInt8} {s : State S} (hc : s.connected = true)
    (htx : s.tx = []) (hlen : bytes.length ≤ txFifoSize) : transmitData L bytes s =
      match s.responseEvent.successHandler with
      | some h => (({ s with tx := bytes, stage := .idle }).log
          (.transmit s.responseEvent.response)).put h
      | none => (({ s with tx := bytes, stage := .idle }).log
          (.transmit s.responseEvent.response)).finishRequest := by
  rw [transmitData, senderTransmit_ok hc htx hlen, finishSend]
  rfl

/-! ## Histories only grow -/

theorem finishRequestError_trace (s : State S) : s.trace <:+ (finishRequestError L s).trace :=
  List.suffix_cons ..

theorem sendResponse_trace {s t : State S} (h : t.trace = s.trace) :
    s.trace <:+ (sendResponse L t).trace := by
  rw [← h]
  unfold sendResponse
  dsimp only
  split
  · exact List.suffix_cons ..
  · split
    · exact List.suffix_cons ..
    · exact List.suffix_rfl

theorem finishSend_trace (ret : Except RetCode Unit) (s : State S) :
    s.trace <:+ (finishSend L ret s).trace := by
  unfold finishSend
  dsimp only
  split
  · split <;> exact List.suffix_cons ..
  · split
    · exact List.suffix_rfl
    · exact finishRequestError_trace _
  · exact finishRequestError_trace _

theorem senderTransmit_trace (data : List UInt8) (s : State S) :
    (senderTransmit data s).2.trace = s.trace := by
  unfold senderTransmit
  split
  · split <;> rfl
  · rfl

theorem transmitData_trace (bytes : List UInt8) (s : State S) :
    s.trace <:+ (transmitData L bytes s).trace := by
  have h := finishSend_trace (L := L) (senderTransmit bytes s).1 (senderTransmit bytes s).2
  rwa [senderTransmit_trace] at h

theorem transmitHeader_trace (bytes : List UInt8) (s : State S) :
    s.trace <:+ (transmitHeader L bytes s).trace := by
  have htrace := senderTransmit_trace (bytes.take (headerLen s.responseEvent.response)) s
  unfold transmitHeader
  dsimp only
  split
  · next ht =>
    rw [ht] at htrace
    exact ⟨[], htrace.symm⟩
  · next ht =>
    rw [ht] at htrace
    rw [← htrace]
    exact transmitData_trace _ _

theorem requestHandler_trace (r : RequestType) (s : State S) :
    s.trace <:+ (requestHandler L a r s).trace := by
  cases r with
  | status => exact List.suffix_cons ..
  | statusAssign =>
    change _ <:+ (statusAssignRequestHandler L a s).trace
    unfold statusAssignRequestHandler
    dsimp only
    split
    · exact ⟨[_, _], rfl⟩
    · exact ⟨[_, _], rfl⟩
    · exact ⟨[_, _, _], rfl⟩
  | start k =>
    cases k
    · change _ <:+ (startMicrophoneRequestHandler a s).trace
      unfold startMicrophoneRequestHandler
      dsimp only
      split <;> exact ⟨[_, _], rfl⟩
    · change _ <:+ (startScanRequestHandler a s).trace
      unfold startScanRequestHandler
      dsimp only
      split <;> exact ⟨[_, _], rfl⟩
  | stop k => cases k <;> exact List.suffix_cons ..
  | data k =>
    have hhandler : requestHandler L a (.data k) s =
        dataRequestHandler L k (s.requestEvent.request.sought k) s := by cases k <;> rfl
    rw [hhandler, dataRequestHandler]
    split <;> exact List.suffix_rfl
  | identify => exact List.suffix_rfl

theorem responseHandler_trace (r : ResponseType) (s : State S) :
    s.trace <:+ (responseHandler L a r s).trace := by
  cases r with
  | status => exact sendResponse_trace rfl
  | start k => cases k <;> exact sendResponse_trace rfl
  | stop k => cases k <;> exact sendResponse_trace rfl
  | identify => exact sendResponse_trace rfl
  | data k =>
    have hhandler : responseHandler L a (.data k) s = dataResponseHandler L k s := by
      cases k <;> rfl
    rw [hhandler, dataResponseHandler]
    split
    · exact sendResponse_trace rfl
    · exact sendResponse_trace rfl
    · exact sendResponse_trace rfl
    · exact List.suffix_rfl

theorem processReceiveNotification_trace (s : State S) :
    s.trace <:+ (processReceiveNotification L a s).trace := by
  unfold processReceiveNotification
  split
  · exact List.suffix_rfl
  · dsimp only
    split
    · exact List.suffix_rfl
    · exact List.suffix_cons ..

theorem handleNotification_trace (n : ReceiveNotification) (bytes : List UInt8) (s : State S) :
    s.trace <:+ (handleNotification L a n bytes s).trace := by
  unfold handleNotification
  dsimp only
  split
  · exact ⟨[_, _], rfl⟩
  · split
    · refine List.IsSuffix.trans ?_ (requestHandler_trace _ _)
      exact List.suffix_cons ..
    · exact ⟨[_, _], rfl⟩

theorem dispatch_trace (s : State S) : s.trace <:+ (dispatch L a s).trace := by
  unfold dispatch
  split
  · split
    · exact List.suffix_rfl
    · next h hs _ =>
      cases h with
      | processReceiveNotification => exact processReceiveNotification_trace { s with queue := hs }
      | sendResponse => exact sendResponse_trace (t := { s with queue := hs }) rfl
      | request r => exact requestHandler_trace r { s with queue := hs }
      | response r => exact responseHandler_trace r { s with queue := hs }
  · next n _ =>
    split
    · exact handleNotification_trace n (s.rx.take n.len) { s with rx := s.rx.drop n.len }
    · exact List.suffix_rfl
  · split
    · exact transmitHeader_trace _ _
    · exact List.suffix_rfl
  · split
    · exact transmitData_trace _ _
    · exact List.suffix_rfl

/-- What has happened stays in the history. -/
theorem step_trace (s : State S) (x : Action S) : s.trace <:+ (step L s x).trace := by
  cases x with
  | packet data ticks timestamp =>
    change _ <:+ (State.onReceiveCallback data ticks timestamp s).trace
    unfold State.onReceiveCallback State.receiveNotificationHandler
    split
    · dsimp only
      split <;> exact List.suffix_cons ..
    · exact List.suffix_cons ..
  | connect => exact List.suffix_cons ..
  | disconnect => exact List.suffix_cons ..
  | radio => exact List.suffix_cons ..
  | samplingTimeout => exact List.suffix_rfl
  | awaitTimeout =>
    change _ <:+ (awaitTimeout L s).trace
    unfold awaitTimeout
    split
    · split
      · exact finishRequestError_trace _
      · exact List.suffix_rfl
    · exact List.suffix_rfl
  | transmitTimeout =>
    change _ <:+ (transmitTimeout L s).trace
    unfold transmitTimeout
    split
    · split
      · exact List.suffix_rfl
      · exact finishSend_trace _ _
    · exact List.suffix_rfl
  | store => exact List.suffix_rfl
  | dispatch a => exact dispatch_trace s

end OpenBadge.RequestHandler01
