import OpenBadge.BadgeLegacy.Answers
import OpenBadge.Lib.Served

/-!
# A session of the client

The client makes its calls one after the other. It has no tags to go by: what a call reads is
what comes next, as many bytes as it expects.
-/

namespace OpenBadge.BadgeLegacy

open OpenBadge.Lib OpenBadge.Tinybuf OpenBadge.Framework
open RequestHandler01
open Processing (Timestamp MicrophoneChunk ScanChunk)

/-- What a call returns. -/
inductive Result where
  | attributes (x : Option Attributes)
  | microphone (chunks : List (Attributes × List UInt8))
  | scan (chunks : List (Attributes × List Attributes))
  deriving DecidableEq, Repr

def Ask.call : Ask → Client Result
  | .getStatus t newId newGroupNumber => do
    let x ← BadgeLegacy.getStatus t.seconds t.ms newId newGroupNumber
    pure (.attributes x)
  | .startRecording t timeoutMinutes => do
    let x ← BadgeLegacy.startRecording t.seconds t.ms timeoutMinutes
    pure (.attributes x)
  | .stopRecording => do
    let x ← BadgeLegacy.stopRecording
    pure (.attributes x)
  | .startScanning t timeoutMinutes windowMiliseconds intervalMiliseconds durationSeconds
      periodSeconds => do
    let x ← BadgeLegacy.startScanning t.seconds t.ms timeoutMinutes windowMiliseconds
      intervalMiliseconds durationSeconds periodSeconds
    pure (.attributes x)
  | .stopScanning => do
    let x ← BadgeLegacy.stopScanning
    pure (.attributes x)
  | .identify durationSeconds => do
    let x ← BadgeLegacy.identify durationSeconds
    pure (.attributes x)
  | .getMicData t => do
    let chunks ← BadgeLegacy.getMicData t.seconds t.ms
    pure (.microphone chunks)
  | .getScanData seconds => do
    let chunks ← BadgeLegacy.getScanData seconds
    pure (.scan chunks)

/-- The results of the calls that return, and the connection at the end. -/
def session : List Ask → Connection → List Result × Connection
  | [], c => ([], c)
  | a :: asks, c =>
    match a.call c with
    | (.ok x, c') => (x :: (session asks c').1, (session asks c').2)
    | (.error _, c') => ([], c')

/-- The forms of the responses that a call waits for. -/
def Ask.awaited (d : Stored) (a : Ask) : List Response := if a.silent then [] else a.answer d

/-- A call was answered with these responses, and returned what they say. -/
def Right (d : Stored) (a : Ask) (rs : List Response) (x : Result) : Prop :=
  match a with
  | .getStatus _ _ _ => ∃ r, rs = [.status r] ∧
      x = .attributes (some ((Response.status r).attributes.map some))
  | .startRecording _ _ => ∃ t, rs = [.start .microphone t] ∧
      x = .attributes (some [some t.seconds.toNat, some t.ms.toNat])
  | .startScanning _ _ _ _ _ _ => ∃ t, rs = [.start .scan t] ∧
      x = .attributes (some [some t.seconds.toNat, some t.ms.toNat])
  | .getMicData t => rs = microphoneSeries (d.microphone t) ∧
      x = .microphone ((d.microphone t).map shownMicrophone)
  | .getScanData seconds => rs = scanSeries (d.scan ⟨seconds, 0⟩) ∧
      x = .scan ((d.scan ⟨seconds, 0⟩).map shownScan)
  | _ => rs = [] ∧ x = .attributes none

/-! ## Commands -/

/-- A response of known length is read when it is there. -/
theorem sendCommand_ok {m : BadgeMessage} {message : List UInt8}
    (hm : serializeMessage m.messageFields m.attributes = .ok message) {r : Response}
    (hr : r.Fits) (hfields : r.messageFields ≠ []) (hbehind : r.behind = []) {rest : List UInt8}
    {c : Connection} (hc : c.connected = true) (hs : c.stream = r.bytes ++ rest) :
    ∃ c', sendCommand m (some r.messageFields) c = (.ok (some (r.attributes.map some)), c') ∧
      c'.connected = true ∧ c'.stream = rest ∧ c'.sent = c.sent ++ [message] := by
  have hexpected : Expected (fun _ => 0) r.messageFields r :=
    ⟨hr, rfl, hfields, by rw [hbehind]; rfl, fun _ => hbehind⟩
  obtain ⟨hlen, hne⟩ := hexpected.header_bytes
  rw [Response.bytes_eq, hbehind, List.append_nil] at hs
  obtain ⟨c', hsend, hstream, hconnected, hsent⟩ := send_next hc message hne hs
  rw [hlen] at hsend
  refine ⟨c', ?_, hconnected, hstream, hsent⟩
  rw [sendCommand, hm, raise_ok, Proc.pure_bind_apply, expectedResponseLength, Proc.bind_ok hsend]
  change (notNone (some _) >>= _) c' = _
  rw [notNone_some, Proc.pure_bind_apply, hexpected.deserialize, raise_ok, Proc.pure_bind_apply]
  rfl

/-- `send` waits for bytes that do not come. -/
theorem send_waits {c : Connection} (hc : c.connected = true) (message : List UInt8) {n : Nat}
    (hlt : c.stream.length < n) :
    ∃ c', send message n c = (.error .waits, c') ∧ c'.sent = c.sent ++ [message] := by
  refine ⟨{ c with sent := c.sent ++ [message] }, ?_, rfl⟩
  have hpos : n > 0 := Nat.lt_of_le_of_lt (Nat.zero_le _) hlt
  rw [send, Proc.get_bind_apply, Proc.failIf_bind_neg (by simp [hc]), Proc.modify_bind_apply,
    receiveSome, if_pos hpos]
  exact Proc.bind_error (receive_waits (c := { c with sent := c.sent ++ [message] }) hlt) _

theorem sendCommand_waits {m : BadgeMessage} {message : List UInt8}
    (hm : serializeMessage m.messageFields m.attributes = .ok message)
    {messageFields : List MessageField} {c : Connection} (hc : c.connected = true)
    (hlt : c.stream.length < messageLength messageFields) :
    ∃ c', sendCommand m (some messageFields) c = (.error .waits, c') ∧
      c'.sent = c.sent ++ [message] := by
  obtain ⟨c', hsend, hsent⟩ := send_waits hc message hlt
  refine ⟨c', ?_, hsent⟩
  rw [sendCommand, hm, raise_ok, Proc.pure_bind_apply, expectedResponseLength]
  exact Proc.bind_error hsend _

theorem sendCommand_silent {m : BadgeMessage} {message : List UInt8}
    (hm : serializeMessage m.messageFields m.attributes = .ok message) {c : Connection}
    (hc : c.connected = true) :
    ∃ c', sendCommand m none c = (.ok none, c') ∧ c'.connected = true ∧ c'.stream = c.stream ∧
      c'.sent = c.sent ++ [message] := by
  refine ⟨{ c with sent := c.sent ++ [message] }, ?_, hc, rfl, rfl⟩
  have hsend : send message 0 c = (.ok none, { c with sent := c.sent ++ [message] }) := by
    rw [send, Proc.get_bind_apply, Proc.failIf_bind_neg (by simp [hc])]
    rfl
  rw [sendCommand, hm, raise_ok, Proc.pure_bind_apply, expectedResponseLength, Proc.bind_ok hsend]
  rfl

/-! ## Downloads that are not complete -/

section Waits

variable {β : Type} {messageFields : List MessageField} {bytesAwaited : Attributes → Nat}
  {element : Attributes → Option (List UInt8) → Except Failure β}

theorem downloadLoop_waits {later : List Response} :
    ∀ {r : Response} {c : Connection} {n : Nat} (chunks : List β),
      (∀ y ∈ r :: later, Expected bytesAwaited messageFields y) →
      (∀ y ∈ (r :: later).dropLast, ¬ IsEnd y ∧ ∃ x, found element y = .ok x) →
      (∀ y ∈ (r :: later).getLast?, IsEnd y) → c.connected = true →
      c.stream <+: r.behind ++ later.flatMap Response.bytes →
      c.stream.length < (r.behind ++ later.flatMap Response.bytes).length →
      ∃ c', downloadLoop messageFields bytesAwaited element n (r.attributes.map some) chunks c =
        (.error .waits, c') ∧ c'.sent = c.sent := by
  induction later with
  | nil =>
    intro r c n chunks hall hmore hlast hc hpre hlt
    have halone := (hall r List.mem_cons_self).alone (hlast r rfl)
    rw [halone] at hlt
    exact absurd hlt (Nat.not_lt_zero _)
  | cons r' later ih =>
    intro r c n chunks hall hmore hlast hc hpre hlt
    cases n with
    | zero => exact ⟨c, rfl, rfl⟩
    | succ n =>
      have hr := hall r List.mem_cons_self
      have hr' := hall r' (List.mem_cons_of_mem r List.mem_cons_self)
      obtain ⟨hend, x, hx⟩ := hmore r List.mem_cons_self
      by_cases hdata : c.stream.length < r.behind.length
      · refine ⟨c, ?_, rfl⟩
        rw [downloadLoop, hr.isEndHeader_eq, raise_ok, Proc.pure_bind_apply,
          decide_eq_false hend, if_neg Bool.false_ne_true, hr.awaited]
        exact Proc.bind_error (awaitData_waits hc hdata) _
      · obtain ⟨rest, hrest⟩ : ∃ rest, c.stream = r.behind ++ rest := by
          obtain ⟨rest, hrest⟩ := List.prefix_of_prefix_length_le
            (List.prefix_append r.behind _) hpre (Nat.le_of_not_lt hdata)
          exact ⟨rest, hrest.symm⟩
        rw [hrest, List.prefix_append_right_inj] at hpre
        rw [hrest, List.length_append, List.length_append, Nat.add_lt_add_iff_left] at hlt
        obtain ⟨c₁, hawait, hstream₁, hconnected₁, hsent₁⟩ := awaitData_next hc hrest
        have hc₁ := hconnected₁.trans hc
        have hturn : downloadLoop messageFields bytesAwaited element (n + 1)
            (r.attributes.map some) chunks c = (do
              let serializedHeader ← awaitData (messageLength messageFields)
              let serializedHeader ← notNone serializedHeader
              let header ← raise (deserializeMessage messageFields serializedHeader)
              downloadLoop messageFields bytesAwaited element n header (chunks ++ [x])) c₁ := by
          rw [downloadLoop, hr.isEndHeader_eq, raise_ok, Proc.pure_bind_apply,
            decide_eq_false hend, if_neg Bool.false_ne_true, hr.awaited, Proc.bind_ok hawait]
          change (raise (found element r) >>= _) c₁ = _
          rw [hx, raise_ok, Proc.pure_bind_apply]
        rw [hturn]
        obtain ⟨hlen, hne⟩ := hr'.header_bytes
        have hbytes : (r' :: later).flatMap Response.bytes =
            fieldBytes messageFields r'.attributes ++
              (r'.behind ++ later.flatMap Response.bytes) := by
          rw [List.flatMap_cons, Response.bytes_eq, hr'.fields, List.append_assoc]
        rw [hbytes] at hpre hlt
        by_cases hheader : rest.length < messageLength messageFields
        · refine ⟨c₁, ?_, hsent₁⟩
          rw [← hstream₁] at hheader
          exact Proc.bind_error (awaitData_waits hc₁ hheader) _
        · obtain ⟨rest', rfl⟩ :
              ∃ rest', rest = fieldBytes messageFields r'.attributes ++ rest' := by
            rw [← hlen] at hheader
            obtain ⟨rest', hrest'⟩ := List.prefix_of_prefix_length_le
              (List.prefix_append (fieldBytes messageFields r'.attributes) _) hpre
              (Nat.le_of_not_lt hheader)
            exact ⟨rest', hrest'.symm⟩
          rw [List.prefix_append_right_inj] at hpre
          rw [List.length_append, List.length_append, Nat.add_lt_add_iff_left] at hlt
          obtain ⟨c₂, hawait₂, hstream₂, hconnected₂, hsent₂⟩ := awaitData_next hc₁ hstream₁
          rw [hlen, if_neg hne] at hawait₂
          rw [← hstream₂] at hpre hlt
          obtain ⟨c', hloop, hsent⟩ := ih (n := n) (chunks ++ [x])
            (fun y hy => hall y (List.mem_cons_of_mem r hy))
            (fun y hy => hmore y (List.mem_cons_of_mem r hy))
            (fun y hy => hlast y hy) (hconnected₂.trans hc₁) hpre hlt
          refine ⟨c', ?_, (hsent.trans hsent₂).trans hsent₁⟩
          rw [Proc.bind_ok hawait₂, notNone_some, Proc.pure_bind_apply, hr'.deserialize, raise_ok,
            Proc.pure_bind_apply]
          exact hloop

variable (element)

/-- A download waits for the rest of its series. -/
theorem download_waits {rs : List Response} {e : Response} (he : IsEnd e)
    (hall : ∀ r ∈ rs ++ [e], Expected bytesAwaited messageFields r)
    (hmore : ∀ r ∈ rs, ¬ IsEnd r ∧ ∃ x, found element r = .ok x) {m : BadgeMessage}
    {message : List UInt8} (hm : serializeMessage m.messageFields m.attributes = .ok message)
    {c : Connection} (hc : c.connected = true)
    (hpre : c.stream <+: (rs ++ [e]).flatMap Response.bytes)
    (hlt : c.stream.length < ((rs ++ [e]).flatMap Response.bytes).length) :
    ∃ c', download messageFields bytesAwaited element m c = (.error .waits, c') ∧
      c'.sent = c.sent ++ [message] := by
  obtain ⟨r, later, hrs⟩ := List.exists_cons_of_ne_nil
    (List.append_ne_nil_of_right_ne_nil rs (List.cons_ne_nil e []))
  have hmore' : ∀ y ∈ (r :: later).dropLast, ¬ IsEnd y ∧ ∃ x, found element y = .ok x := by
    rw [← hrs, List.dropLast_concat]
    exact hmore
  have hlast : ∀ y ∈ (r :: later).getLast?, IsEnd y := by
    intro y hy
    rw [← hrs, List.getLast?_concat] at hy
    cases hy
    exact he
  rw [hrs] at hall hpre hlt
  have hr := hall r List.mem_cons_self
  obtain ⟨hlen, hne⟩ := hr.header_bytes
  have hbytes : (r :: later).flatMap Response.bytes =
      fieldBytes messageFields r.attributes ++ (r.behind ++ later.flatMap Response.bytes) := by
    rw [List.flatMap_cons, Response.bytes_eq, hr.fields, List.append_assoc]
  rw [hbytes] at hpre hlt
  by_cases hheader : c.stream.length < messageLength messageFields
  · obtain ⟨c', hwaits, hsent⟩ := sendCommand_waits hm hc hheader
    exact ⟨c', Proc.bind_error hwaits _, hsent⟩
  · rw [← hlen] at hheader
    obtain ⟨rest, hrest⟩ := List.prefix_of_prefix_length_le
      (List.prefix_append (fieldBytes messageFields r.attributes) _) hpre
      (Nat.le_of_not_lt hheader)
    rw [← hrest, List.prefix_append_right_inj] at hpre
    rw [← hrest, List.length_append, List.length_append, Nat.add_lt_add_iff_left] at hlt
    obtain ⟨c₁, hsend, hstream, hconnected, hsent₁⟩ := send_next hc message hne hrest.symm
    rw [hlen] at hsend
    have hcommand : sendCommand m (some messageFields) c =
        (.ok (some (r.attributes.map some)), c₁) := by
      rw [sendCommand, hm, raise_ok, Proc.pure_bind_apply, expectedResponseLength,
        Proc.bind_ok hsend]
      change (notNone (some _) >>= _) c₁ = _
      rw [notNone_some, Proc.pure_bind_apply, hr.deserialize, raise_ok, Proc.pure_bind_apply]
      rfl
    rw [← hstream] at hpre hlt
    obtain ⟨c', hloop, hsent⟩ := downloadLoop_waits (n := c₁.stream.length + 1) [] hall hmore'
      hlast hconnected hpre hlt
    refine ⟨c', ?_, hsent.trans hsent₁⟩
    rw [download, Proc.bind_ok hcommand, notNone_some, Proc.pure_bind_apply, Proc.get_bind_apply]
    exact hloop

end Waits

/-! ## Calls -/

theorem awaited_of_silent (d : Stored) {a : Ask} (h : a.silent = true) : a.awaited d = [] :=
  if_pos h

theorem awaited_of_loud (d : Stored) {a : Ask} (h : ¬ a.silent = true) :
    a.awaited d = a.answer d := if_neg h

/-- Data responses are their own form. -/
theorem eq_of_map_form {rs ms : List Response} (h : rs.map form = ms)
    (hms : ∀ m ∈ ms, ∀ r, form r = m → r = m) : rs = ms := by
  induction rs generalizing ms with
  | nil => exact h
  | cons r rs ih =>
    subst h
    rw [List.map_cons, List.forall_mem_cons] at hms
    rw [List.map_cons, ← hms.1 r rfl, ← ih rfl hms.2]

theorem series_own {C : Type} {response : C → Response} {e : Response}
    (hresponse : ∀ chunk r, form r = response chunk → r = response chunk)
    (hend : ∀ r, form r = e → r = e) (chunks : List C) :
    ∀ m ∈ chunks.map response ++ [e], ∀ r, form r = m → r = m := by
  intro m hm
  rcases List.mem_append.mp hm with hm | hm
  · obtain ⟨chunk, -, rfl⟩ := List.mem_map.mp hm
    exact hresponse chunk
  · obtain rfl := List.mem_singleton.mp hm
    exact hend

theorem microphoneSeries_own (chunks : List MicrophoneChunk) :
    ∀ m ∈ microphoneSeries chunks, ∀ r, form r = m → r = m :=
  series_own (fun _ r h => by cases r <;> cases h; rfl)
    (fun r h => by cases r <;> cases h; rfl) chunks

theorem scanSeries_own (chunks : List ScanChunk) :
    ∀ m ∈ scanSeries chunks, ∀ r, form r = m → r = m :=
  series_own (fun _ r h => by cases r <;> cases h; rfl)
    (fun r h => by cases r <;> cases h; rfl) chunks

/-- A call whose responses have come returns what they say, and reads no further. -/
theorem Ask.call_ok {d : Stored} (hd : d.Readable) {a : Ask} {rs : List Response}
    (hrs : rs.map form = a.awaited d) (hfits : ∀ r ∈ rs, r.Fits) {rest : List UInt8}
    {c : Connection} (hc : c.connected = true)
    (hs : c.stream = rs.flatMap Response.bytes ++ rest) :
    ∃ x c', a.call c = (.ok x, c') ∧ Right d a rs x ∧ c'.connected = true ∧ c'.stream = rest ∧
      c'.sent = c.sent ++ [a.bytes] := by
  have hserialize := a.serialize
  -- a command: one response of known length
  have hcommand {m : Response} (hm : rs.map form = [m])
      (hfields : ∀ r, form r = m → r.messageFields ≠ [] ∧ r.behind = []) :
      ∃ r c', rs = [r] ∧ form r = m ∧
        sendCommand a.message (some r.messageFields) c = (.ok (some (r.attributes.map some)), c') ∧
        c'.connected = true ∧ c'.stream = rest ∧ c'.sent = c.sent ++ [a.bytes] := by
    obtain ⟨r, rfl, hr⟩ := List.map_eq_singleton_iff.mp hm
    rw [List.flatMap_singleton] at hs
    obtain ⟨c', hsend, hafter⟩ := sendCommand_ok hserialize (hfits r (List.mem_singleton_self r))
      (hfields r hr).1 (hfields r hr).2 hc hs
    exact ⟨r, c', rfl, hr, hsend, hafter⟩
  -- a call without a response
  have hnothing (hnil : rs.map form = []) : rs = [] ∧ ∃ c',
      sendCommand a.message none c = (.ok none, c') ∧ c'.connected = true ∧ c'.stream = rest ∧
        c'.sent = c.sent ++ [a.bytes] := by
    obtain rfl := List.map_eq_nil_iff.mp hnil
    obtain ⟨c', hsend, hconnected, hstream, hsent⟩ := sendCommand_silent hserialize hc
    exact ⟨rfl, c', hsend, hconnected, hstream.trans hs, hsent⟩
  cases a with
  | getStatus t newId newGroupNumber =>
    obtain ⟨r, c', rfl, hr, hsend, hafter⟩ := hcommand hrs fun r hr => by
      cases r <;> cases hr
      exact ⟨List.cons_ne_nil _ _, rfl⟩
    cases r <;> cases hr
    exact ⟨_, c', Proc.bind_ok hsend _, ⟨_, rfl, rfl⟩, hafter⟩
  | startRecording t timeoutMinutes =>
    obtain ⟨r, c', rfl, hr, hsend, hafter⟩ := hcommand hrs fun r hr => by
      cases r <;> cases hr
      exact ⟨List.cons_ne_nil _ _, rfl⟩
    cases r <;> cases hr
    exact ⟨_, c', Proc.bind_ok hsend _, ⟨_, rfl, rfl⟩, hafter⟩
  | startScanning =>
    obtain ⟨r, c', rfl, hr, hsend, hafter⟩ := hcommand hrs fun r hr => by
      cases r <;> cases hr
      exact ⟨List.cons_ne_nil _ _, rfl⟩
    cases r <;> cases hr
    exact ⟨_, c', Proc.bind_ok hsend _, ⟨_, rfl, rfl⟩, hafter⟩
  | stopRecording =>
    obtain ⟨rfl, c', hsend, hafter⟩ := hnothing hrs
    exact ⟨_, c', Proc.bind_ok hsend _, ⟨rfl, rfl⟩, hafter⟩
  | stopScanning =>
    obtain ⟨rfl, c', hsend, hafter⟩ := hnothing hrs
    exact ⟨_, c', Proc.bind_ok hsend _, ⟨rfl, rfl⟩, hafter⟩
  | identify durationSeconds =>
    obtain ⟨rfl, c', hsend, hafter⟩ := hnothing hrs
    exact ⟨_, c', Proc.bind_ok hsend _, ⟨rfl, rfl⟩, hafter⟩
  | getMicData t =>
    obtain rfl := eq_of_map_form hrs (microphoneSeries_own (d.microphone t))
    obtain ⟨c', hget, hafter⟩ :=
      (getMicData_complete_iff hc t.seconds t.ms hs).mpr (hd.microphone t)
    exact ⟨_, c', Proc.bind_ok hget _, ⟨rfl, rfl⟩, hafter⟩
  | getScanData seconds =>
    obtain rfl := eq_of_map_form hrs (scanSeries_own (d.scan ⟨seconds, 0⟩))
    obtain ⟨c', hget, hafter⟩ := (getScanData_complete_iff hc seconds hs).mpr (hd.scan _)
    exact ⟨_, c', Proc.bind_ok hget _, ⟨rfl, rfl⟩, hafter⟩

/-- A call waits for the responses that have not come. -/
theorem Ask.call_waits {d : Stored} (hd : d.Readable) {a : Ask} {rs : List Response}
    (hrs : rs.map form = a.awaited d) (hfits : ∀ r ∈ rs, r.Fits) {c : Connection}
    (hc : c.connected = true) (hpre : c.stream <+: rs.flatMap Response.bytes)
    (hlt : c.stream.length < size rs) :
    ∃ c', a.call c = (.error .waits, c') ∧ c'.sent = c.sent ++ [a.bytes] := by
  have hserialize := a.serialize
  have hcommand {m : Response} (hm : rs.map form = [m])
      (hbehind : ∀ r, form r = m → r.behind = []) :
      ∃ r c', rs = [r] ∧ form r = m ∧
        sendCommand a.message (some r.messageFields) c = (.error .waits, c') ∧
        c'.sent = c.sent ++ [a.bytes] := by
    obtain ⟨r, rfl, hr⟩ := List.map_eq_singleton_iff.mp hm
    rw [size_cons, size_nil, bytes_length (hfits r (List.mem_singleton_self r)), hbehind r hr]
      at hlt
    obtain ⟨c', hsend, hsent⟩ := sendCommand_waits hserialize hc hlt
    exact ⟨r, c', rfl, hr, hsend, hsent⟩
  have hnothing (hnil : rs.map form = []) : False := by
    obtain rfl := List.map_eq_nil_iff.mp hnil
    exact absurd hlt (Nat.not_lt_zero _)
  cases a with
  | getStatus t newId newGroupNumber =>
    obtain ⟨r, c', rfl, hr, hsend, hsent⟩ := hcommand hrs fun r hr => by
      cases r <;> cases hr
      rfl
    cases r <;> cases hr
    exact ⟨c', Proc.bind_error hsend _, hsent⟩
  | startRecording t timeoutMinutes =>
    obtain ⟨r, c', rfl, hr, hsend, hsent⟩ := hcommand hrs fun r hr => by
      cases r <;> cases hr
      rfl
    cases r <;> cases hr
    exact ⟨c', Proc.bind_error hsend _, hsent⟩
  | startScanning =>
    obtain ⟨r, c', rfl, hr, hsend, hsent⟩ := hcommand hrs fun r hr => by
      cases r <;> cases hr
      rfl
    cases r <;> cases hr
    exact ⟨c', Proc.bind_error hsend _, hsent⟩
  | stopRecording => exact (hnothing hrs).elim
  | stopScanning => exact (hnothing hrs).elim
  | identify durationSeconds => exact (hnothing hrs).elim
  | getMicData t =>
    obtain rfl := eq_of_map_form hrs (microphoneSeries_own (d.microphone t))
    obtain ⟨c', hwaits, hsent⟩ := download_waits microphoneElement
      isEnd_microphoneEnd (expected_microphoneSeries (d.microphone t)) (fun r hr => by
        obtain ⟨chunk, hchunk, rfl⟩ := List.mem_map.mp hr
        have hne := hd.microphone t chunk hchunk
        exact ⟨fun hend => (sent_ne_nil_iff chunk).mpr hne ((expected_microphone chunk).alone hend),
          _, (found_microphone_iff chunk).mpr hne⟩) hserialize hc hpre hlt
    exact ⟨c', Proc.bind_error hwaits _, hsent⟩
  | getScanData seconds =>
    obtain rfl := eq_of_map_form hrs (scanSeries_own (d.scan ⟨seconds, 0⟩))
    obtain ⟨c', hwaits, hsent⟩ := download_waits scanElement isEnd_scanEnd
      (expected_scanSeries (d.scan ⟨seconds, 0⟩)) (fun r hr => by
        obtain ⟨chunk, hchunk, rfl⟩ := List.mem_map.mp hr
        exact ⟨fun hend => hd.scan _ chunk hchunk ((isEnd_scan_iff chunk).mp hend), _,
          found_scan chunk⟩) hserialize hc hpre hlt
    exact ⟨c', Proc.bind_error hwaits _, hsent⟩

/-! ## The session -/

theorem awaited_mem {d : Stored} {a : Ask} {r : Response} (hr : r ∈ a.awaited d) :
    r.Fits ∧ silent r = false ∧ form r = r := by
  cases ha : a.silent with
  | true =>
    rw [awaited_of_silent d ha] at hr
    cases hr
  | false =>
    rw [awaited_of_loud d (by simp [ha])] at hr
    obtain ⟨hfits, hsilent, hform⟩ := answer_mem hr
    exact ⟨hfits, hsilent.trans ha, hform⟩

theorem size_awaited (d : Stored) (a : Ask) : size (a.awaited d) = size (a.answer d) := by
  cases ha : a.silent with
  | true => rw [awaited_of_silent d ha, (size_answer_eq_zero_iff d a).mpr ha, size_nil]
  | false => rw [awaited_of_loud d (by simp [ha])]

/-- As many bytes as an answer has are only there when all of it is. -/
theorem prefix_of_size {d : Stored} {a : Ask} {rs : List Response} {more : List Response}
    (hrs : rs.map form <+: a.awaited d ++ more) (hfits : ∀ r ∈ rs, r.Fits)
    (hle : size (a.awaited d) ≤ size rs) : a.awaited d <+: rs.map form := by
  rcases List.prefix_or_prefix_of_prefix hrs (List.prefix_append (a.awaited d) more) with h | h
  · obtain ⟨missing, hmissing⟩ := h
    have hsize := size_append (rs.map form) missing
    rw [hmissing, size_map_form hfits] at hsize
    have hzero : size missing = 0 := by omega
    have hmem : ∀ r ∈ missing, r ∈ a.awaited d := fun r hr =>
      hmissing ▸ List.mem_append_right _ hr
    have hsilent := (size_eq_zero_iff fun r hr => (awaited_mem (hmem r hr)).1).mp hzero
    cases missing with
    | nil =>
      rw [List.append_nil] at hmissing
      exact ⟨[], by rw [List.append_nil, hmissing]⟩
    | cons r missing =>
      have hloud := (awaited_mem (hmem r List.mem_cons_self)).2.1
      rw [hsilent r List.mem_cons_self] at hloud
      cases hloud
  · exact h

/-- The responses to the first call, as far as they were made. -/
theorem exists_part {d : Stored} {a : Ask} {rs more : List Response}
    (hrs : rs.map form <+: a.awaited d ++ more) (hfits : ∀ r ∈ rs, r.Fits) {w : List UInt8}
    (hw : w <+: rs.flatMap Response.bytes) (hlt : w.length < size (a.awaited d)) :
    ∃ part, part.map form = a.awaited d ∧ (∀ r ∈ part, r.Fits) ∧
      w <+: part.flatMap Response.bytes ∧ w.length < size part := by
  rcases List.prefix_or_prefix_of_prefix hrs (List.prefix_append (a.awaited d) more) with h | h
  · obtain ⟨missing, hmissing⟩ := h
    have hmem : ∀ r ∈ missing, r.Fits ∧ silent r = false ∧ form r = r := fun r hr =>
      awaited_mem (d := d) (a := a) (hmissing ▸ List.mem_append_right _ hr)
    have hforms : (rs ++ missing).map form = a.awaited d := by
      rw [List.map_append, ← hmissing]
      refine congrArg _ ?_
      exact (List.map_congr_left fun r hr => (hmem r hr).2.2).trans (List.map_id missing)
    have hall : ∀ r ∈ rs ++ missing, r.Fits := by
      intro r hr
      rcases List.mem_append.mp hr with hr | hr
      · exact hfits r hr
      · exact (hmem r hr).1
    refine ⟨rs ++ missing, hforms, hall, ?_, ?_⟩
    · rw [List.flatMap_append]
      exact hw.trans (List.prefix_append _ _)
    · rw [← size_map_form hall, hforms]
      exact hlt
  · obtain ⟨part, later, rfl, hpart, -⟩ := List.map_eq_append_iff.mp h.choose_spec.symm
    have hall : ∀ r ∈ part, r.Fits := fun r hr => hfits r (List.mem_append_left _ hr)
    have hlt' : w.length < size part := by
      rw [← size_map_form hall, hpart]
      exact hlt
    refine ⟨part, hpart, hall, ?_, hlt'⟩
    rw [List.flatMap_append] at hw
    exact List.prefix_of_prefix_length_le hw (List.prefix_append _ _) (Nat.le_of_lt hlt')

/-- Of the responses in the order of the calls, each call that returns has its own; which
calls return is decided by the number of bytes, and the first that does not was sent as well. -/
theorem session_answered {d : Stored} (hd : d.Readable) {asks : List Ask} :
    ∀ {rs : List Response} {c : Connection}, rs.map form <+: asks.flatMap (Ask.awaited d) →
      (∀ r ∈ rs, r.Fits) → c.connected = true → c.stream <+: rs.flatMap Response.bytes →
      (session asks c).1.length =
          served (asks.map fun a => size (a.awaited d)) c.stream.length ∧
        (session asks c).2.sent = c.sent ++
          (asks.take ((session asks c).1.length + 1)).map Ask.bytes ∧
        ∃ parts : List (List Response), parts.flatten <+: rs ∧
          List.Forall₂ (fun p x => Right d p.1 p.2 x) (asks.zip parts) (session asks c).1 := by
  induction asks with
  | nil =>
    intro rs c _ _ _ _
    exact ⟨rfl, (List.append_nil _).symm, [], List.nil_prefix, .nil⟩
  | cons a asks ih =>
    intro rs c hrs hfits hc hs
    rw [List.flatMap_cons] at hrs
    by_cases hlen : size (a.awaited d) ≤ c.stream.length
    · have hsize : size (a.awaited d) ≤ size rs := Nat.le_trans hlen hs.length_le
      obtain ⟨part, later, rfl, hpart, hlater⟩ :=
        List.map_eq_append_iff.mp (prefix_of_size hrs hfits hsize).choose_spec.symm
      have hpartFits : ∀ r ∈ part, r.Fits := fun r hr => hfits r (List.mem_append_left _ hr)
      have hlaterFits : ∀ r ∈ later, r.Fits := fun r hr => hfits r (List.mem_append_right _ hr)
      have hpartSize : size part = size (a.awaited d) := by rw [← hpart, size_map_form hpartFits]
      rw [List.map_append, hpart, List.prefix_append_right_inj] at hrs
      rw [List.flatMap_append] at hs
      obtain ⟨rest, hrest⟩ := List.prefix_of_prefix_length_le (List.prefix_append _ _) hs
        (hpartSize.trans_le hlen)
      rw [← hrest, List.prefix_append_right_inj] at hs
      obtain ⟨x, c', hcall, hright, hconnected, hstream, hsent⟩ :=
        a.call_ok hd hpart hpartFits hc hrest.symm
      rw [← hstream] at hs
      obtain ⟨hlength, hsent', parts, hparts, hrights⟩ := ih hrs hlaterFits hconnected hs
      have hsession : session (a :: asks) c = (x :: (session asks c').1, (session asks c').2) := by
        rw [session, hcall]
      have hleft : c'.stream.length = c.stream.length - size (a.awaited d) := by
        rw [hstream, ← hrest, List.length_append, ← hpartSize]
        exact (Nat.add_sub_cancel_left ..).symm
      rw [hsession, List.map_cons, served_cons_of_le hlen, ← hleft, ← hlength]
      refine ⟨rfl, ?_, part :: parts, ?_, .cons hright hrights⟩
      · rw [hsent', hsent, List.append_assoc]
        rfl
      · rw [List.flatten_cons, List.prefix_append_right_inj]
        exact hparts
    · obtain ⟨part, hpart, hpartFits, hpre, hlt⟩ :=
        exists_part hrs hfits hs (Nat.lt_of_not_le hlen)
      obtain ⟨c', hcall, hsent⟩ := a.call_waits hd hpart hpartFits hc hpre hlt
      have hsession : session (a :: asks) c = ([], c') := by
        rw [session, hcall]
      rw [hsession, List.map_cons, served_cons_of_lt (Nat.lt_of_not_le hlen)]
      exact ⟨rfl, hsent, [], List.nil_prefix, .nil⟩

end OpenBadge.BadgeLegacy
