import OpenBadge.BadgeLegacy.Dispatch
import OpenBadge.Lib.Run

/-!
# The client's calls and the badge

The client asks on when it has read as many bytes as it waits for, and the badge sends what is
asked. Both are run against each other: what the client has written by then is what the badge
may get, and what the badge has sent is what the client reads.
-/

namespace OpenBadge.BadgeLegacy

open OpenBadge.Lib OpenBadge.Framework
open RequestHandler01
open Processing (MicrophoneChunk ScanChunk)

variable {S : Type} {L : Libraries S} {d : Stored} {asks : List Ask} {s : State S}

/-! ## The client's side -/

/-- A client that has just connected, and receives `bytes` in the end. -/
def connectedClient (bytes : List UInt8) : Connection := ⟨true, [], [bytes], []⟩

/-- The requests that the client has written when it has received `bytes`. -/
def writes (asks : List Ask) (bytes : List UInt8) : List (List UInt8) :=
  (session asks (connectedClient bytes)).2.sent

/-- The responses that have bytes. -/
def loud (rs : List Response) : List Response := rs.filter fun r => !silent r

theorem loud_form (rs : List Response) : (loud rs).map form = loud (rs.map form) := by
  rw [loud, loud, List.filter_map]
  exact congrArg _ (List.filter_congr fun r _ => by simp)

theorem loud_bytes (rs : List Response) :
    (loud rs).flatMap Response.bytes = rs.flatMap Response.bytes := by
  induction rs with
  | nil => rfl
  | cons r rs ih =>
    rw [List.flatMap_cons, ← ih, loud]
    cases h : silent r with
    | true =>
      rw [List.filter_cons_of_neg (by simp [h]), bytes_of_silent h]
      rfl
    | false =>
      rw [List.filter_cons_of_pos (by simp [h])]
      rfl

theorem loud_answer (d : Stored) (asks : List Ask) :
    loud (asks.flatMap (Ask.answer d)) = asks.flatMap (Ask.awaited d) := by
  induction asks with
  | nil => rfl
  | cons a asks ih =>
    rw [List.flatMap_cons, List.flatMap_cons, ← ih, loud, List.filter_append]
    refine congrArg (· ++ _) ?_
    cases ha : a.silent with
    | true =>
      rw [awaited_of_silent d ha]
      exact List.filter_eq_nil_iff.mpr fun r hr => by simp [(answer_mem hr).2.1, ha]
    | false =>
      rw [awaited_of_loud d (by simp [ha])]
      exact List.filter_eq_self.mpr fun r hr => by simp [(answer_mem hr).2.1, ha]

/-- What was made of responses are answers, in the order of the calls. -/
theorem Serving.made (hs : Serving L d asks s) :
    (s.record.transmitted ++ s.current).map form <+: asks.flatMap (Ask.answer d) := by
  have htaken : (taken asks s).flatMap (Ask.answer d) <+: asks.flatMap (Ask.answer d) :=
    List.IsPrefix.flatMap (List.take_prefix _ _) _
  refine List.IsPrefix.trans ?_ htaken
  obtain ⟨todo, rest, -, hdone, -⟩ := hs.working
  cases hstage : s.stage with
  | transmitData bytes =>
    have hsending : s.stage.sending = [.sendResponse] := by rw [hstage]; rfl
    obtain ⟨a, as, rest, hunder⟩ := hs.underWay hsending
    obtain ⟨-, later, rfl, -⟩ := hunder.owes
    have hcurrent : s.current = [s.responseEvent.response] := by rw [State.current, hstage]
    rw [hcurrent, List.map_append, ← hunder.done]
    exact ⟨later ++ as.flatMap (Ask.answer d), by simp⟩
  | _ =>
    have hcurrent : s.current = [] := by rw [State.current, hstage]
    rw [hcurrent, List.append_nil]
    exact ⟨rest, hdone⟩

/-- What the client makes of what the badge has sent. -/
theorem Serving.client (hs : Serving L d asks s) (hd : d.Readable) {c : Connection}
    (hc : c.connected = true) (hstream : c.stream = s.record.sent) :
    (session asks c).1.length =
        served (asks.map fun a => size (a.awaited d)) s.record.sent.length ∧
      (session asks c).2.sent = c.sent ++
        (asks.take ((session asks c).1.length + 1)).map Ask.bytes ∧
      ∃ parts : List (List Response),
        parts.flatten <+: loud (s.record.transmitted ++ s.current) ∧
        List.Forall₂ (fun p x => Right d p.1 p.2 x) (asks.zip parts) (session asks c).1 := by
  have hrs : (loud (s.record.transmitted ++ s.current)).map form <+:
      asks.flatMap (Ask.awaited d) := by
    rw [loud_form, ← loud_answer]
    exact hs.made.filter _
  have hsent : c.stream <+: (loud (s.record.transmitted ++ s.current)).flatMap Response.bytes := by
    rw [loud_bytes, hstream, ← hs.wire]
    exact List.prefix_append _ _
  rw [← hstream]
  exact session_answered hd hrs (fun r hr => hs.fits r (List.mem_of_mem_filter hr)) hc hsent

/-- The client waits for as many bytes as the badge answers with. -/
theorem le_served_answers_iff (d : Stored) {k w : Nat} (hk : k ≤ asks.length) :
    k ≤ served (asks.map fun a => size (a.awaited d)) w ↔
      size ((asks.take k).flatMap (Ask.answer d)) ≤ w := by
  have hsize : size ((asks.take k).flatMap (Ask.answer d)) =
      ((asks.map fun a => size (a.awaited d)).take k).sum := by
    rw [size_flatMap, ← List.map_take]
    exact congrArg List.sum (List.map_congr_left fun b _ => (size_awaited d b).symm)
  rw [hsize]
  exact le_served_iff (by rw [List.length_map]; exact hk)

/-- The client has written request `k` when the answers to those before it have come. -/
theorem Serving.writes (hs : Serving L d asks s) (hd : d.Readable) {k : Nat} {data : List UInt8}
    (h : (writes asks s.record.sent)[k]? = some data) :
    ∃ a, asks[k]? = some a ∧ data = a.bytes ∧
      size ((asks.take k).flatMap (Ask.answer d)) ≤ s.record.sent.length := by
  obtain ⟨hlen, hsent, -⟩ := hs.client hd (c := connectedClient s.record.sent) rfl
    List.flatten_singleton
  rw [BadgeLegacy.writes, hsent, hlen] at h
  change ((asks.take _).map Ask.bytes)[k]? = some data at h
  rw [List.getElem?_map, List.getElem?_take] at h
  split at h
  · next hk =>
    obtain ⟨a, ha, rfl⟩ := Option.map_eq_some_iff.mp h
    have hle := Nat.le_of_lt (List.getElem?_eq_some_iff.mp ha).1
    exact ⟨a, ha, rfl, (le_served_answers_iff d hle).mp (Nat.le_of_lt_succ hk)⟩
  · cases h

/-! ## Both -/

/-- The connection stays as it is. A packet is the next request that the client has written, and
fits the FIFOs. Nothing is stored. -/
def Coupled (asks : List Ask) (s : State S) : Action S → Prop
  | .packet data _ _ =>
    (writes asks s.record.sent)[s.record.packets.length]? = some data ∧
      s.notifications.length < notificationCapacity ∧ s.rx.length + data.length ≤ rxFifoSize
  | .connect => False
  | .disconnect => False
  | .store _ => False
  | _ => True

instance (asks : List Ask) (s : State S) : ∀ x, Decidable (Coupled asks s x)
  | .packet data _ _ => inferInstanceAs (Decidable
      ((writes asks s.record.sent)[s.record.packets.length]? = some data ∧
        s.notifications.length < notificationCapacity ∧ s.rx.length + data.length ≤ rxFifoSize))
  | .connect => .isFalse id
  | .disconnect => .isFalse id
  | .store _ => .isFalse id
  | .radio => .isTrue trivial
  | .samplingTimeout _ => .isTrue trivial
  | .awaitTimeout => .isTrue trivial
  | .transmitTimeout => .isTrue trivial
  | .dispatch _ => .isTrue trivial

theorem serving_connect (t : S) : Serving L d asks (State.init t).onConnectCallback where
  connected := rfl
  packets := rfl
  decodes := rfl
  order := Nat.le_refl _
  waiting := rfl
  rx_eq := rfl
  answered := Nat.zero_le _
  working := ⟨[], [], List.nil_suffix, rfl, .done⟩
  fits r hr := by cases hr
  wire := rfl
  header bytes h := by cases h
  behind := List.nil_suffix
  awake h := by
    rcases h with h | h
    · exact (Bool.false_ne_true h).elim
    · exact absurd rfl h

theorem Serving.dispatch (hL : Finds L d) (hs : Serving L d asks s) {a : Answers}
    (herr : .error ∉ (dispatch L a s).trace) : Serving L d asks (dispatch L a s) := by
  revert herr
  unfold RequestHandler01.dispatch
  split
  · next hstage =>
    split
    · exact fun _ => hs
    · next h qs hqueue => exact hs.runEvent hstage hL hqueue
  · next n hstage =>
    split
    · exact hs.handleNotification hL hstage
    · exact fun _ => hs
  · next bytes hstage =>
    split
    · next htx => exact fun _ => hs.transmitHeader hstage htx
    · exact fun _ => hs
  · next bytes hstage =>
    split
    · next htx => exact fun _ => hs.transmitData hstage htx
    · exact fun _ => hs

theorem step_serving (hL : Finds L d) (hd : d.Readable) (hs : Serving L d asks s) {x : Action S}
    (hx : Coupled asks s x) (herr : .error ∉ (step L s x).trace) :
    Serving L d asks (step L s x) := by
  cases x with
  | packet data ticks t =>
    obtain ⟨hwritten, hnotifications, hrx⟩ := hx
    obtain ⟨a, ha, hdata, hanswered⟩ := hs.writes hd hwritten
    exact hs.packet ha hdata hnotifications hrx hanswered
  | connect => exact hx.elim
  | disconnect => exact hx.elim
  | store => exact hx.elim
  | radio => exact hs.radio
  | samplingTimeout k => exact hs.samplingTimeout k
  | awaitTimeout =>
    change Serving L d asks (awaitTimeout L s)
    rw [hs.awaitTimeout]
    exact hs
  | transmitTimeout => exact hs.transmitTimeout
  | dispatch a => exact hs.dispatch hL herr

/-- An error stays in the history, so a run without one had none. -/
theorem run_serving (hL : Finds L d) (hd : d.Readable) (t : S) {as : List (Action S)}
    (h : Along (step L) (Coupled asks) (State.init t).onConnectCallback as)
    (herr : .error ∉ (run (step L) (State.init t) (.connect :: as)).trace) :
    Serving L d asks (run (step L) (State.init t) (.connect :: as)) :=
  run_invariant (I := fun s => .error ∉ s.trace → Serving L d asks s)
    (fun s x hs hx herr =>
      step_serving hL hd (hs fun hmem => herr ((step_trace s x).subset hmem)) hx herr)
    (fun _ => serving_connect t) h herr

/-- All requests that were written have come, and nothing is left to do. -/
structure WorkedOff (asks : List Ask) (s : State S) : Prop where
  received : s.record.packets = writes asks s.record.sent
  stage : s.stage = .idle
  queue : s.queue = []
  tx : s.tx = []

theorem Serving.all_answered (hs : Serving L d asks s) (hd : d.Readable)
    (h : WorkedOff asks s) : (session asks (connectedClient s.record.sent)).1.length =
      asks.length := by
  have hlive : s.live = [] := live_idle h.stage h.queue
  have hcurrent : s.current = [] := by rw [State.current, h.stage]
  have hnotifications : s.notifications = [] := by
    by_contra hmore
    rcases hs.awake (.inr hmore) with hmem | hne | hne
    · rw [h.queue] at hmem
      cases hmem
    · exact hne hlive
    · rw [h.stage] at hne
      exact hne rfl
  have hle := hs.packets_le
  have hdecodes : s.record.decodes.length = s.record.packets.length := by
    have hwaiting := congrArg List.length hs.waiting
    rw [h.stage, hnotifications, List.length_map, List.length_map, pending, asked,
      List.length_drop, List.length_take] at hwaiting
    have horder := hs.order
    change 0 = _ at hwaiting
    omega
  have hanswered : size ((asks.take s.record.packets.length).flatMap (Ask.answer d)) ≤
      s.record.sent.length := by
    obtain ⟨todo, rest, -, hdone, hworking⟩ := hs.working
    rw [hlive] at hworking
    cases hworking
    have hwire := congrArg List.length hs.wire
    rw [h.tx, h.stage, hcurrent, List.append_nil] at hwire
    rw [List.append_nil, taken, hdecodes] at hdone
    rw [← hdone, size_map_form hs.transmitted_fits, size, ← hwire]
    exact Nat.le_of_eq (congrArg List.length (List.append_nil _))
  obtain ⟨hlen, hsent, -⟩ := hs.client hd (c := connectedClient s.record.sent) rfl
    List.flatten_singleton
  have hserved : s.record.packets.length ≤
      served (asks.map fun a => size (a.awaited d)) s.record.sent.length :=
    (le_served_answers_iff d hle).mpr hanswered
  have hcount := congrArg List.length h.received
  rw [BadgeLegacy.writes, hsent] at hcount
  change _ = ((asks.take _).map Ask.bytes).length at hcount
  rw [List.length_map, List.length_take] at hcount
  have hmost := served_le_length (asks.map fun a => size (a.awaited d)) s.record.sent.length
  rw [List.length_map] at hmost
  omega

/-- The client makes its calls one after the other, and writes a request when the calls before
have what they wait for. In every run without an error the badge takes the requests in their
order, and the client reads the bytes in any pieces: a call returns when as many bytes were sent
as the calls up to it wait for, and then with what was sent for it, in order and without a byte
of another answer. And when all requests that were written have come and were worked off, every
call has returned. Nothing is stored during the run. -/
theorem commands_answered (hL : Finds L d) (hd : d.Readable) (asks : List Ask) (t : S)
    {as : List (Action S)}
    (h : Along (step L) (Coupled asks) (State.init t).onConnectCallback as)
    (herr : .error ∉ (run (step L) (State.init t) (.connect :: as)).trace) {c : Connection}
    (hc : c.connected = true) (hsent : c.sent = [])
    (hstream : c.stream = (run (step L) (State.init t) (.connect :: as)).record.sent) :
    (run (step L) (State.init t) (.connect :: as)).record.decodes <+: (session asks c).2.sent ∧
    (session asks c).1.length = served (asks.map fun a => size (a.awaited d))
      (run (step L) (State.init t) (.connect :: as)).record.sent.length ∧
    (∃ parts : List (List Response),
      parts.flatten <+: loud ((run (step L) (State.init t) (.connect :: as)).record.transmitted ++
        (run (step L) (State.init t) (.connect :: as)).current) ∧
      List.Forall₂ (fun p x => Right d p.1 p.2 x) (asks.zip parts) (session asks c).1) ∧
    (WorkedOff asks (run (step L) (State.init t) (.connect :: as)) →
      (session asks c).1.length = asks.length) := by
  have hs := run_serving hL hd t h herr
  generalize run (step L) (State.init t) (.connect :: as) = s at hs hstream ⊢
  obtain ⟨hlen, hwritten, hparts⟩ := hs.client hd hc hstream
  refine ⟨?_, hlen, hparts, fun hoff => ?_⟩
  · have hle := hs.packets_le
    have horder := hs.order
    have hserved := (le_served_answers_iff d (Nat.le_trans (Nat.sub_le _ 1) hle)).mpr hs.answered
    rw [hwritten, hsent, List.nil_append, hs.decodes, taken]
    exact (List.take_prefix_take_left (by omega)).map _
  · have hconnected := hs.client hd (c := connectedClient s.record.sent) rfl
      List.flatten_singleton
    rw [hlen, ← hconnected.1]
    exact hs.all_answered hd hoff

/-! ## A recording is read -/

/-- A storer that finds the same chunks for every timestamp. -/
def storedLibraries (microphone : List MicrophoneChunk) (scan : List ScanChunk) :
    Libraries (List MicrophoneChunk × List ScanChunk) where
  findChunk _ _ := fun _ => (.ok (), (microphone, scan))
  getNextMicrophoneChunk := fun u =>
    match u.1 with
    | [] => (.error .notFound, u)
    | chunk :: chunks => (.ok chunk, (chunks, u.2))
  getNextScanChunk := fun u =>
    match u.2 with
    | [] => (.error .notFound, u)
    | chunk :: chunks => (.ok chunk, (u.1, chunks))
  invalidateIterators _ := ([], [])

theorem storedLibraries_finds (microphone : List MicrophoneChunk) (scan : List ScanChunk) :
    Finds (storedLibraries microphone scan) ⟨fun _ => microphone, fun _ => scan⟩ := by
  have hmicrophone : ∀ chunks other, Yield (storedLibraries microphone scan) .microphone
      (chunks, other) (chunks.map microphoneResponse) := by
    intro chunks other
    induction chunks with
    | nil => exact .ends rfl (.inl rfl)
    | cons chunk chunks ih => exact .chunk rfl ih
  have hscan : ∀ other chunks, Yield (storedLibraries microphone scan) .scan
      (other, chunks) (chunks.map scanResponse) := by
    intro other chunks
    induction chunks with
    | nil => exact .ends rfl (.inl rfl)
    | cons chunk chunks ih => exact .chunk rfl ih
  intro k t u u' h
  have hu : u' = (microphone, scan) := by
    rcases h with h | h
    · exact (Prod.mk.inj h).2.symm
    · cases (Prod.mk.inj h).1
  subst hu
  cases k with
  | microphone => exact hmicrophone microphone scan
  | scan => exact hscan microphone scan

def recording : List MicrophoneChunk := [⟨⟨8, 0⟩, 50, [3, 1, 4]⟩, ⟨⟨9, 500⟩, 50, [1, 5]⟩]

def statusAndRecording : List Ask :=
  [.getStatus ⟨7, 0⟩ none none, .stopRecording, .getMicData ⟨8, 0⟩]

def quietAnswers : Answers := ⟨true, .ok (), ⟨1, 2⟩, .ok (), 0⟩

/-- The badge goes on, and the radio sends. -/
def goOn (n : Nat) : List (Action (List MicrophoneChunk × List ScanChunk)) :=
  (List.replicate n [.dispatch quietAnswers, .radio]).flatten

/-- The last two requests come together: the client does not wait after the first of them. -/
def recordingRun : List (Action (List MicrophoneChunk × List ScanChunk)) :=
  .packet (Ask.getStatus ⟨7, 0⟩ none none).bytes 7 ⟨7, 0⟩ :: goOn 8 ++
    .packet Ask.stopRecording.bytes 8 ⟨7, 1⟩ :: .packet (Ask.getMicData ⟨8, 0⟩).bytes 8 ⟨7, 1⟩ ::
    goOn 30

/-- What the client hears of it, in one piece. -/
def recordingClient : Connection :=
  connectedClient (run (step (storedLibraries recording [])) (State.init ([], []))
    (.connect :: recordingRun)).record.sent

/-- All calls return, the last with the recording. -/
theorem commands_answered_recording :
    ∃ x, (session statusAndRecording recordingClient).1 =
      [.attributes x, .attributes none, .microphone (recording.map shownMicrophone)] := by
  have hreadable : Stored.Readable ⟨fun _ => recording, fun _ => []⟩ :=
    ⟨fun _ => (by decide : ∀ chunk ∈ recording, chunk.microphoneData ≠ []),
      fun _ _ hchunk => (by cases hchunk)⟩
  have hcoupled : Along (step (storedLibraries recording [])) (Coupled statusAndRecording)
      (State.init ([], [])).onConnectCallback recordingRun := by decide +kernel
  obtain ⟨-, -, ⟨parts, -, hrights⟩, hall⟩ := commands_answered (storedLibraries_finds recording [])
    hreadable statusAndRecording ([], []) hcoupled (by decide +kernel) (c := recordingClient) rfl
    rfl List.flatten_singleton
  have hlen := hall ⟨by decide +kernel, by decide +kernel, by decide +kernel, by decide +kernel⟩
  have hzip := hrights.length_eq
  rw [hlen, List.length_zip] at hzip
  generalize (session statusAndRecording recordingClient).1 = results at hrights
  match parts with
  | [] => cases hzip
  | [_] => cases hzip
  | [_, _] => cases hzip
  | _ :: _ :: _ :: _ =>
    cases hrights with
    | cons hstatus hrights =>
      cases hrights with
      | cons hstop hrights =>
        cases hrights with
        | cons hdata hnil =>
          cases hnil
          obtain ⟨r, -, hx⟩ := hstatus
          exact ⟨_, by rw [hx, hstop.2, hdata.2]⟩

end OpenBadge.BadgeLegacy
