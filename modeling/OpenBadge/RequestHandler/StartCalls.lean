import OpenBadge.RequestHandler.Ownership

/-!
# What the start requests pass on

The start handlers copy the fields of the decoded request through local
variables. Two of these are narrower than their fields: the period of the
battery and the ignore duration of the accelerometer interrupt.
-/

namespace OpenBadge.RequestHandler

open OpenBadge.Lib

variable {S : Type} (L : Libraries S) (a : Answers)

/-- The fields are values of their types in `protocol_messages_02v1.h`. -/
structure StartRequests.WellTyped (r : StartRequests) : Prop where
  microphone : r.microphone.timeout < 2 ^ 16 ∧ r.microphone.periodMs < 2 ^ 16
  scan : r.scan.timeout < 2 ^ 16 ∧ r.scan.window < 2 ^ 16 ∧ r.scan.interval < 2 ^ 16 ∧
    r.scan.duration < 2 ^ 16 ∧ r.scan.period < 2 ^ 16 ∧ r.scan.aggregationType < 2 ^ 8
  accelerometer : r.accelerometer.timeout < 2 ^ 16 ∧ r.accelerometer.operatingMode < 2 ^ 8 ∧
    r.accelerometer.fullScale < 2 ^ 8 ∧ r.accelerometer.datarate < 2 ^ 16 ∧
    r.accelerometer.fifoSamplingPeriodMs < 2 ^ 16
  accelerometerInterrupt : r.accelerometerInterrupt.timeout < 2 ^ 16 ∧
    r.accelerometerInterrupt.thresholdMg < 2 ^ 16 ∧
    r.accelerometerInterrupt.minimalDurationMs < 2 ^ 16 ∧
    r.accelerometerInterrupt.ignoreDurationMs < 2 ^ 32
  battery : r.battery.timeout < 2 ^ 16 ∧ r.battery.periodMs < 2 ^ 32

/-- What a start request asks for: the timeout in milliseconds, the period of a scan not below
its duration, and every other field as it is. -/
def StartRequests.exactParameters (r : StartRequests) (group : Nat) : Sensor → SamplingParameters
  | .microphone => .microphone (r.microphone.timeout * 60 * 1000) r.microphone.periodMs
  | .scan =>
    .scan (r.scan.timeout * 60 * 1000) (max r.scan.period r.scan.duration) r.scan.interval
      r.scan.window r.scan.duration group r.scan.aggregationType
  | .accelerometer =>
    .accelerometer (r.accelerometer.timeout * 60 * 1000) r.accelerometer.operatingMode
      r.accelerometer.fullScale r.accelerometer.datarate r.accelerometer.fifoSamplingPeriodMs
  | .accelerometerInterrupt =>
    .accelerometerInterrupt (r.accelerometerInterrupt.timeout * 60 * 1000)
      r.accelerometerInterrupt.thresholdMg r.accelerometerInterrupt.minimalDurationMs
      r.accelerometerInterrupt.ignoreDurationMs
  | .battery => .battery (r.battery.timeout * 60 * 1000) r.battery.periodMs

/-- The 32-bit fields fit the 16-bit variables they go through. -/
def StartRequests.Narrow (r : StartRequests) : Sensor → Prop
  | .accelerometerInterrupt => r.accelerometerInterrupt.ignoreDurationMs < 2 ^ 16
  | .battery => r.battery.periodMs < 2 ^ 16
  | _ => True

instance (r : StartRequests) (k : Sensor) : Decidable (r.Narrow k) := by
  cases k <;> unfold StartRequests.Narrow <;> infer_instance

/-- A timeout of 16 bits does not overflow. -/
theorem timeoutMs_eq {timeout : Nat} (h : timeout < 2 ^ 16) :
    timeoutMs timeout = timeout * 60 * 1000 := by
  apply Nat.mod_eq_of_lt
  omega

theorem truncate_eq_iff (n : Nat) : n % 2 ^ 16 = n ↔ n < 2 ^ 16 := by
  constructor
  · intro h
    rw [← h]
    exact Nat.mod_lt _ (by decide)
  · exact Nat.mod_eq_of_lt

theorem parameters_exact_iff {r : StartRequests} (hr : r.WellTyped) (group : Nat) (k : Sensor) :
    r.parameters group k = r.exactParameters group k ↔ r.Narrow k := by
  cases k with
  | microphone =>
    simp only [StartRequests.parameters, StartRequests.exactParameters, StartRequests.Narrow,
      timeoutMs_eq hr.microphone.1]
  | scan =>
    have hperiod : (if r.scan.period < r.scan.duration then r.scan.duration else r.scan.period) =
        max r.scan.period r.scan.duration := by
      split
      · next h => exact (Nat.max_eq_right (Nat.le_of_lt h)).symm
      · next h => exact (Nat.max_eq_left (Nat.le_of_not_lt h)).symm
    simp only [StartRequests.parameters, StartRequests.exactParameters, StartRequests.Narrow,
      timeoutMs_eq hr.scan.1, hperiod]
  | accelerometer =>
    simp only [StartRequests.parameters, StartRequests.exactParameters, StartRequests.Narrow,
      timeoutMs_eq hr.accelerometer.1]
  | accelerometerInterrupt =>
    simp only [StartRequests.parameters, StartRequests.exactParameters, StartRequests.Narrow,
      timeoutMs_eq hr.accelerometerInterrupt.1, SamplingParameters.accelerometerInterrupt.injEq,
      true_and, truncate_eq_iff]
  | battery =>
    simp only [StartRequests.parameters, StartRequests.exactParameters, StartRequests.Narrow,
      timeoutMs_eq hr.battery.1, SamplingParameters.battery.injEq, true_and, truncate_eq_iff]

/-! ## The calls of a run -/

/-- The members of the union that the start or the stream handlers read. -/
def Request.starts (r : Request) (streaming : Bool) : StartRequests :=
  if streaming then r.startStream else r.start

/-- The request type whose handler makes the call. -/
def startType (k : Sensor) (streaming : Bool) : RequestType :=
  if streaming then .startStream k else .start k

/-- The request that was decoded last; at first the union is all zero. -/
def latestRequest : List Entry → Request
  | [] => default
  | .decode bytes _ :: _ => (L.decode bytes).1
  | _ :: older => latestRequest older

/-- An entry that neither decodes a request nor starts a sensor. -/
def Entry.silent : Entry → Bool
  | .decode _ _ => false
  | .samplingStart _ _ => false
  | _ => true

theorem latestRequest_append {new : List Entry} (h : ∀ e ∈ new, ∀ b n, e ≠ .decode b n)
    (older : List Entry) : latestRequest L (new ++ older) = latestRequest L older := by
  induction new with
  | nil => rfl
  | cons e new ih =>
    have ih := ih fun x hx => h x (List.mem_cons_of_mem _ hx)
    cases e with
    | decode b n => exact absurd rfl (h _ List.mem_cons_self b n)
    | _ => exact ih

/-- Every start call was made with a history that meets `G`. -/
def CallsMeet (G : List Entry → SamplingParameters → Bool → Prop) (trace : List Entry) : Prop :=
  ∀ newer older p streaming, trace = newer ++ .samplingStart p streaming :: older →
    G older p streaming

variable {G : List Entry → SamplingParameters → Bool → Prop}

theorem CallsMeet.append {new trace : List Entry} (h : CallsMeet G trace)
    (hnew : ∀ newer older p streaming, new = newer ++ .samplingStart p streaming :: older →
      G (older ++ trace) p streaming) : CallsMeet G (new ++ trace) := by
  intro newer older p streaming he
  rcases List.append_eq_append_iff.mp he with ⟨mid, hl, hr⟩ | ⟨mid, hl, hr⟩
  · exact h mid older p streaming hr
  · cases mid with
    | nil => exact h [] older p streaming hr.symm
    | cons e mid =>
      obtain ⟨rfl, rfl⟩ := List.cons.inj hr
      exact hnew newer mid p streaming hl

/-- The request event is the request decoded last, and every call met `G`. -/
structure Recorded (G : List Entry → SamplingParameters → Bool → Prop) (s : State S) : Prop where
  latest : s.requestEvent.request = latestRequest L s.trace
  calls : CallsMeet G s.trace

/-- Nothing is decoded and no sensor started. -/
structure Silent (s t : State S) : Prop where
  request : t.requestEvent.request = s.requestEvent.request
  trace : ∃ new, t.trace = new ++ s.trace ∧ ∀ e ∈ new, e.silent = true

variable {L} in
theorem Recorded.silent {s t : State S} (hs : Recorded L G s) (h : Silent s t) :
    Recorded L G t := by
  obtain ⟨new, he, hnew⟩ := h.trace
  constructor
  · rw [h.request, he, latestRequest_append]
    · exact hs.latest
    · intro e hmem b n hd
      rw [hd] at hmem
      cases hnew _ hmem
  · rw [he]
    apply hs.calls.append
    intro newer older p streaming hsplit
    have hmem : Entry.samplingStart p streaming ∈ new := by simp [hsplit]
    cases hnew _ hmem

theorem Silent.of_trace {s t : State S} (hr : t.requestEvent = s.requestEvent)
    (ht : t.trace = s.trace) : Silent s t :=
  ⟨by rw [hr], [], by rw [ht]; rfl, by simp⟩

theorem Silent.entry {s t : State S} {e : Entry} (hr : t.requestEvent = s.requestEvent)
    (ht : t.trace = e :: s.trace) (he : e.silent = true) : Silent s t :=
  ⟨by rw [hr], [e], ht, by simpa using he⟩

theorem Silent.trans {s t u : State S} (h : Silent s t) (h' : Silent t u) : Silent s u := by
  obtain ⟨new, he, hn⟩ := h.trace
  obtain ⟨new', he', hn'⟩ := h'.trace
  refine ⟨h'.request.trans h.request, new' ++ new, by rw [he', he, List.append_assoc], ?_⟩
  intro e hmem
  rcases List.mem_append.mp hmem with hm | hm
  · exact hn' e hm
  · exact hn e hm

/-- What leaves the history alone may come first. -/
theorem Silent.after {s s' t : State S} (h : Silent s' t) (hr : s'.requestEvent = s.requestEvent)
    (ht : s'.trace = s.trace) : Silent s t :=
  (Silent.of_trace hr ht).trans h

variable {L a}

theorem Sends.silent {s t : State S} (h : Sends L a s t) : Silent s t := by
  cases h with
  | @dropped ev tr fails same handed =>
    rcases handed with he | ⟨-, bytes, he⟩
    · exact ⟨rfl, [.error], by simp [he], by simp [Entry.silent]⟩
    · exact ⟨rfl, [.error, .transmit s.responseEvent.origin s.responseEvent.response bytes false],
        by simp [he], by simp [Entry.silent]⟩
  | sent => exact .entry rfl rfl rfl
  | retried => exact .entry rfl rfl rfl

theorem StreamEnds.silent {o : Nat} {b : Bool} {s t : State S} (h : StreamEnds a s o b t) :
    Silent s t := by
  cases h <;> exact .of_trace rfl rfl

theorem Responds.silent {o : Nat} {r : ResponseType} {s t : State S} (h : Responds L a o s r t) :
    Silent s t := by
  cases h with
  | busy => exact .of_trace rfl rfl
  | answered _ _ sends => exact sends.silent.after rfl rfl
  | chunk _ _ sends => exact sends.silent.after rfl rfl
  | last _ _ _ sends => exact sends.silent.after rfl rfl
  | kept => exact .of_trace rfl rfl
  | tested _ sends => exact sends.silent.after rfl rfl
  | quiet _ _ ends => exact ends.silent.after rfl rfl
  | streamed _ _ sends ends =>
    exact (sends.silent.trans ends.silent).after rfl rfl

variable (L a)

/-- What a request handler adds to the history: calls, of which a start call is that of its own
request type with the fields of the request event, and perhaps the error of the connection. -/
theorem requestHandler_trace (o : Nat) (r : RequestType) (s : State S) :
    (requestHandler L a o r s).requestEvent = s.requestEvent ∧
    ∃ new, (requestHandler L a o r s).trace = new ++ s.trace ∧
      (∀ e ∈ new, e.isCall = true ∨ e = .error) ∧
      ∀ p streaming, .samplingStart p streaming ∈ new → ∃ k, r = startType k streaming ∧
        p = (s.requestEvent.request.starts streaming).parameters a.badgeAssignement.group k := by
  cases r with
  | status =>
    change (statusRequestHandler L a o s).requestEvent = _ ∧ ∃ new,
      (statusRequestHandler L a o s).trace = _ ∧ _
    unfold statusRequestHandler
    dsimp only
    split
    · rcases hb : a.setBadgeAssignement with e | ⟨⟩
      · cases e
        case internal => exact ⟨rfl, [_, _], rfl, by simp [Entry.isCall], by simp⟩
        all_goals exact ⟨rfl, [_, _, _], rfl, by simp [Entry.isCall], by simp⟩
      · exact ⟨rfl, [_, _], rfl, by simp [Entry.isCall], by simp⟩
    · exact ⟨rfl, [_], rfl, by simp [Entry.isCall], by simp⟩
  | start k =>
    rw [requestHandler_start]
    unfold startRequestHandler samplingStart
    dsimp only
    have only : ∀ p streaming, .samplingStart p streaming ∈ [Entry.samplingStart
        (s.requestEvent.request.start.parameters a.badgeAssignement.group k) false,
        .setTimestamp s.requestEvent.timepointTicks (s.requestEvent.request.start.timestamp k)] →
        ∃ i, RequestType.start k = startType i streaming ∧
          p = (s.requestEvent.request.starts streaming).parameters a.badgeAssignement.group i := by
      intro p streaming hmem
      simp only [List.mem_cons, Entry.samplingStart.injEq, reduceCtorEq, List.not_mem_nil,
        or_false] at hmem
      obtain ⟨rfl, rfl⟩ := hmem
      exact ⟨k, rfl, rfl⟩
    rcases ha : a.samplingStart with e | ⟨⟩
    · exact ⟨rfl, [_, _], rfl, by simp [Entry.isCall], only⟩
    · exact ⟨rfl, [_, _], rfl, by simp [Entry.isCall], only⟩
  | startStream k =>
    rw [requestHandler_startStream]
    unfold startStreamRequestHandler samplingStart
    dsimp only
    have only : ∀ p streaming, .samplingStart p streaming ∈ [Entry.samplingStart
        (s.requestEvent.request.startStream.parameters a.badgeAssignement.group k) true,
        .setTimestamp s.requestEvent.timepointTicks
          (s.requestEvent.request.startStream.timestamp k)] →
        ∃ i, RequestType.startStream k = startType i streaming ∧
          p = (s.requestEvent.request.starts streaming).parameters a.badgeAssignement.group i := by
      intro p streaming hmem
      simp only [List.mem_cons, Entry.samplingStart.injEq, reduceCtorEq, List.not_mem_nil,
        or_false] at hmem
      obtain ⟨rfl, rfl⟩ := hmem
      exact ⟨k, rfl, rfl⟩
    rcases ha : a.samplingStart with e | ⟨⟩
    · exact ⟨rfl, [_, _], rfl, by simp [Entry.isCall], only⟩
    · dsimp only
      by_cases hs : s.streamingStarted = true
      · rw [startPump_started o (by exact hs)]
        exact ⟨rfl, [_, _], rfl, by simp [Entry.isCall], only⟩
      · rw [startPump_stopped o (by exact Bool.eq_false_iff.mpr hs)]
        exact ⟨rfl, [_, _], rfl, by simp [Entry.isCall], only⟩
  | stop k =>
    rw [requestHandler_stop]
    obtain ⟨f, g, he, -⟩ := samplingStop_clears a k false s
    rw [he]
    exact ⟨rfl, [], rfl, by simp, by simp⟩
  | stopStream k =>
    rw [requestHandler_stopStream]
    obtain ⟨f, g, he, -⟩ := samplingStop_clears a k true s
    rw [he]
    exact ⟨rfl, [], rfl, by simp, by simp⟩
  | data k =>
    rw [requestHandler_data]
    unfold dataRequestHandler
    rcases hf : L.findChunk k (s.requestEvent.request.data.timestamp k) s.storer with ⟨e | ⟨⟩, u⟩
    · cases e <;> exact ⟨rfl, [], rfl, by simp, by simp⟩
    · exact ⟨rfl, [], rfl, by simp, by simp⟩
  | identify => exact ⟨rfl, [], rfl, by simp, by simp⟩
  | test => exact ⟨rfl, [], rfl, by simp, by simp⟩
  | restart => exact ⟨rfl, [], rfl, by simp, by simp⟩

/-- The call passes on the fields of the request decoded last, and where `K` holds that is a
request of the handler's own type. -/
def Passes (K : Prop) (older : List Entry) (p : SamplingParameters) (streaming : Bool) : Prop :=
  ∃ k group, p = ((latestRequest L older).starts streaming).parameters group k ∧
    (K → ∃ o c, .taken o (startType k streaming) c (latestRequest L older) ∈ older)

variable {K : Prop}

theorem requestHandler_recorded {o : Nat} {r : RequestType} {s : State S}
    (hs : Recorded L (Passes L K) s)
    (hown : K → ∃ o c, .taken o r c s.requestEvent.request ∈ s.trace) :
    Recorded L (Passes L K) (requestHandler L a o r s) := by
  obtain ⟨hevent, new, he, hnew, hcalls⟩ := requestHandler_trace L a o r s
  have hdecode : ∀ e ∈ new, ∀ b n, e ≠ .decode b n := by
    rintro e hmem b n rfl
    rcases hnew _ hmem with h | h <;> cases h
  constructor
  · rw [hevent, he, latestRequest_append L hdecode]
    exact hs.latest
  · rw [he]
    apply hs.calls.append
    intro newer older p streaming hsplit
    obtain ⟨k, hr, hp⟩ := hcalls p streaming (by simp [hsplit])
    have holder : latestRequest L (older ++ s.trace) = s.requestEvent.request := by
      rw [hs.latest]
      exact latestRequest_append L (fun e hmem => hdecode e (by simp [hsplit, hmem])) _
    refine ⟨k, a.badgeAssignement.group, by rw [holder, hp], fun hk => ?_⟩
    obtain ⟨n, c, hc⟩ := hown hk
    rw [holder, ← hr]
    exact ⟨n, c, List.mem_append_right _ hc⟩

theorem decodeRequest_recorded {s : State S} (hs : Recorded L G s) (c : Capture)
    (bytes : List UInt8) : Recorded L G (decodeRequest L c bytes s) := by
  have hdecoded (ev : RequestEvent) (hev : ev.request = (L.decode bytes).1) (st : Stage) :
      Recorded L G { s with
        requestEvent := ev
        serial := s.serial + 1
        stage := st
        trace := .decode bytes c.notification.ticks :: s.trace } := by
    have hcalls : CallsMeet G ([.decode bytes c.notification.ticks] ++ s.trace) := by
      apply hs.calls.append
      intro newer older p streaming hsplit
      have hmem : Entry.samplingStart p streaming ∈ [Entry.decode bytes c.notification.ticks] := by
        simp [hsplit]
      simp at hmem
    exact ⟨hev, hcalls⟩
  unfold decodeRequest
  dsimp only
  split
  · split
    · exact hdecoded _ rfl _
    · exact (hdecoded ⟨c.notification.ticks, _⟩ rfl s.stage).silent (.entry rfl rfl rfl)
  · exact (hdecoded { s.requestEvent with request := (L.decode bytes).1 } rfl s.stage).silent
      (.entry rfl rfl rfl)

theorem continueProcessing_recorded {s : State S} (hs : Recorded L (Passes L K) s) :
    Recorded L (Passes L K) (continueProcessing L a s) := by
  have habort : Recorded L (Passes L K) (abort L s) := hs.silent (.entry rfl rfl rfl)
  unfold continueProcessing
  cases hstage : s.stage with
  | idle => exact hs
  | header c =>
    dsimp only
    split
    · exact hs.silent (.of_trace rfl rfl)
    · exact habort
  | awaitHeader c =>
    dsimp only
    split
    · exact hs.silent (.of_trace rfl rfl)
    · exact hs
  | data c len =>
    dsimp only
    split
    · exact hs.silent (.of_trace rfl rfl)
    · exact habort
  | awaitData c len =>
    dsimp only
    split
    · exact hs.silent (.of_trace rfl rfl)
    · exact hs
  | consume c bytes =>
    dsimp only
    split
    · exact hs.silent (.of_trace rfl rfl)
    · exact habort
  | decode c bytes => exact decodeRequest_recorded L hs c bytes
  | handle c t =>
    -- The first attempt: the request was taken in this very step.
    apply requestHandler_recorded
    · exact hs.silent (.entry rfl rfl rfl)
    · intro _
      exact ⟨s.serial, c, List.mem_cons_self⟩

theorem dispatch_recorded {s : State S} (hs : Recorded L (Passes L K) s) (hown : K → Owned s) :
    Recorded L (Passes L K) (dispatch L a s) := by
  unfold dispatch
  by_cases hidle : s.stage = .idle
  · rw [if_pos hidle]
    cases hq : s.queue with
    | nil => exact hs
    | cons e es =>
      have hpop : Recorded L (Passes L K) { s with queue := es } := hs.silent (.of_trace rfl rfl)
      obtain ⟨h, o⟩ := e
      cases h with
      | processReceiveNotification =>
        change Recorded L _ (processReceiveNotification a { s with queue := es })
        unfold processReceiveNotification
        split
        · exact hpop.silent (.of_trace rfl rfl)
        · split
          · exact hpop
          · exact hpop.silent (.of_trace rfl rfl)
      | sendResponse => exact hpop.silent (sendResponse_sends ..).silent
      | response r => exact hpop.silent (responseHandler_responds ..).silent
      | request r =>
        -- A later attempt: the request is the one that the owner of the event was taken for.
        apply requestHandler_recorded L a hpop
        intro hk
        obtain ⟨-, -, c, hc, -⟩ := ((hown hk).enter hidle hq).holds
        exact ⟨o, c, hc⟩
  · rw [if_neg hidle]
    exact continueProcessing_recorded L a hs

theorem step_recorded (s : State S) (x : Action S) (hs : Recorded L (Passes L K) s)
    (hown : K → Owned s) : Recorded L (Passes L K) (step L s x) := by
  cases x with
  | packet data ticks timestamp =>
    change Recorded L _ (s.onReceiveCallback data ticks timestamp)
    unfold State.onReceiveCallback State.receiveNotificationHandler
    split <;> exact hs.silent (.entry rfl rfl rfl)
  | connect => exact hs.silent (.entry rfl rfl rfl)
  | disconnect => exact hs.silent (.entry rfl rfl rfl)
  | samplingTimeout k streaming a =>
    obtain ⟨f, g, he, -⟩ := samplingStop_clears a k streaming s
    change Recorded L _ (samplingStop a k streaming s)
    rw [he]
    exact hs.silent (.of_trace rfl rfl)
  | awaitTimeout =>
    change Recorded L _ (awaitTimeout L s)
    rcases awaitTimeout_cases L s with he | ⟨he, -⟩
    · rw [he]
      exact hs
    · rw [he]
      exact hs.silent (.entry rfl rfl rfl)
  | store t => exact hs.silent (.of_trace rfl rfl)
  | dispatch a => exact dispatch_recorded L a hs hown

/-- In every run every start call passes on the fields of the request decoded last, and where no
other event gives up its response, that is the request the handler was called for. -/
theorem run_recorded (t : S) (as : List (Action S)) :
    Recorded L (Passes L (Along (step L) (KeepsRequest L) (State.init t) as))
      (run (step L) (State.init t) as) := by
  generalize hK : Along (step L) (KeepsRequest L) (State.init t) as = K
  have hstep : ∀ s x, Recorded L (Passes L K) s ∧ (K → Owned s) → (K → KeepsRequest L s x) →
      Recorded L (Passes L K) (step L s x) ∧ (K → Owned (step L s x)) := fun s x hs hx =>
    ⟨step_recorded L s x hs.1 hs.2, fun hk => step_owned L s x (hs.2 hk) (hx hk)⟩
  have hinit : Recorded L (Passes L K) (State.init t) := by
    refine ⟨rfl, fun newer older p streaming he => ?_⟩
    simp [State.init] at he
  have hall : Along (step L) (fun s x => K → KeepsRequest L s x) (State.init t) as := by
    by_cases hk : K
    · exact Along.mono (fun _ _ h _ => h) (hK ▸ hk)
    · exact Along.of_forall (fun _ _ h => absurd h hk) as
  exact (run_invariant hstep ⟨hinit, fun _ => owned_init t⟩ hall).1

theorem wellTyped_default : (default : StartRequests).WellTyped := by
  constructor <;> decide

theorem latestRequest_wellTyped
    (hL : ∀ bytes streaming, ((L.decode bytes).1.starts streaming).WellTyped)
    (older : List Entry) (streaming : Bool) :
    ((latestRequest L older).starts streaming).WellTyped := by
  induction older with
  | nil => cases streaming <;> exact wellTyped_default
  | cons e older ih =>
    cases e with
    | decode bytes n => exact hL bytes streaming
    | _ => exact ih

/-- Every start call of every run gets the fields of its request, unless the period of the battery
or the ignore duration of the interrupt does not fit the variable it goes through. -/
theorem start_call_exact_iff
    (hL : ∀ bytes streaming, ((L.decode bytes).1.starts streaming).WellTyped)
    (t : S) (as : List (Action S)) {newer older : List Entry} {p : SamplingParameters}
    {streaming : Bool}
    (h : (run (step L) (State.init t) as).trace = newer ++ .samplingStart p streaming :: older) :
    ∃ k group, p = ((latestRequest L older).starts streaming).parameters group k ∧
      (p = ((latestRequest L older).starts streaming).exactParameters group k ↔
        ((latestRequest L older).starts streaming).Narrow k) ∧
      (Along (step L) (KeepsRequest L) (State.init t) as →
        ∃ o c, .taken o (startType k streaming) c (latestRequest L older) ∈ older) := by
  obtain ⟨k, group, hp, htaken⟩ := (run_recorded L t as).calls newer older p streaming h
  have htyped := latestRequest_wellTyped L hL older streaming
  have hexact := parameters_exact_iff htyped group k
  rw [← hp] at hexact
  exact ⟨k, group, hp, hexact, htaken⟩

/-- The codec of a client that only starts the battery: a tag, a timestamp of six bytes, the
timeout and the period, most significant byte first. -/
def batteryLibraries : Libraries Unit :=
  let number (bytes : List UInt8) : Nat := bytes.foldl (fun n b => 256 * n + b.toNat) 0
  { taggedLibraries (.error .notFound) with
    decode := fun bytes => ({ (default : Request) with
      whichType := (bytes.headD 0).toNat
      start := { (default : StartRequests) with
        battery := ⟨default, number ((bytes.drop 7).take 2) % 2 ^ 16,
          number ((bytes.drop 9).take 4) % 2 ^ 32⟩ } }, true) }

theorem batteryLibraries_wellTyped (bytes : List UInt8) (streaming : Bool) :
    ((batteryLibraries.decode bytes).1.starts streaming).WellTyped := by
  cases streaming with
  | true => exact wellTyped_default
  | false =>
    exact { wellTyped_default with
      battery := ⟨Nat.mod_lt _ (by decide), Nat.mod_lt _ (by decide)⟩ }

/-- A connection, and a request to start the battery for a minute with the given period. -/
def batteryStart (period : List UInt8) : List (Action Unit) :=
  [.connect, .packet (frame ([10, 0, 0, 0, 0, 0, 0, 0, 1] ++ period)) 7 default] ++
    List.replicate 8 (.dispatch .success)

theorem start_call_exact_iff_second :
    ∃ k group, .battery 60000 1000 = ((latestRequest batteryLibraries
        ((run (step batteryLibraries) (State.init ()) (batteryStart [0, 0, 3, 232])).trace.drop
          1)).starts false).parameters group k ∧
      Along (step batteryLibraries) (KeepsRequest batteryLibraries) (State.init ())
        (batteryStart [0, 0, 3, 232]) := by
  have htrace : (run (step batteryLibraries) (State.init ()) (batteryStart [0, 0, 3, 232])).trace =
      [] ++ .samplingStart (.battery 60000 1000) false ::
        (run (step batteryLibraries) (State.init ()) (batteryStart [0, 0, 3, 232])).trace.drop 1 := by
    decide +kernel
  obtain ⟨k, group, hp, -⟩ := start_call_exact_iff batteryLibraries batteryLibraries_wellTyped ()
    (batteryStart [0, 0, 3, 232]) htrace
  exact ⟨k, group, hp, by decide +kernel⟩

/-- A battery period of 66,536 ms reaches the sampling module as 1,000 ms. -/
theorem battery_period_truncated :
    ((run (step batteryLibraries) (State.init ()) (batteryStart [0, 1, 3, 232])).trace.head? =
      some (.samplingStart (.battery 60000 1000) false)) ∧
    ∃ r, .taken 1 (.start .battery) ⟨⟨15, 7, default⟩, true⟩ r ∈
        (run (step batteryLibraries) (State.init ()) (batteryStart [0, 1, 3, 232])).trace ∧
      r.start.exactParameters 0 .battery = .battery 60000 66536 :=
  ⟨by decide +kernel, (batteryLibraries.decode [10, 0, 0, 0, 0, 0, 0, 0, 1, 0, 1, 3, 232]).1,
    by decide +kernel, by decide +kernel⟩

end OpenBadge.RequestHandler
