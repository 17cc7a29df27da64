import OpenBadge.Framework.Demultiplex

/-!
# The calls of the client

A call writes its request with the number of its bytes in front. What it returns is decided
by the responses of its own kind alone.
-/

namespace OpenBadge.Framework

open OpenBadge.Lib OpenBadge.Tinybuf

/-- The bytes of a request, with their number in front. -/
def framedRequest (v : request.Value) : List UInt8 :=
  packed .bigEndian 2 (request.wire .bigEndian v).length ++ request.wire .bigEndian v

theorem request_accepted : request.Accepted := by
  simp [request, requestType, Message.Accepted, InnerFields.Accepted, SchemaType.Accepted,
    InnerFields.tags, Rule.Accepted, required, uint8, uint16, uint32, timestamp,
    badgeAssignement, statusRequest, startMicrophoneRequest, startScanRequest,
    startAccelerometerRequest, startAccelerometerInterruptRequest, startBatteryRequest,
    emptyRequest, dataRequest, identifyRequest]

theorem request_plain : request.plain = true := by decide

theorem request_length_lt (v : request.Value) :
    (request.wire .bigEndian v).length < 256 ^ 2 := by
  have hle := Message.wire_length_le armAbi .bigEndian request 0 (request.plain_valid request_plain v)
  have hend : request.cEnd armAbi 0 < 256 ^ 2 := by decide
  omega

/-- A valid response has an encoding whose length fits into the header. -/
theorem sendable_of_valid {x : BadgeResponse} (h : response.Meets .valid (x, ())) :
    Sendable x := by
  have hle := Message.wire_length_le armAbi .bigEndian response 0 h
  have hend : response.cEnd armAbi 0 < 256 ^ 2 := by decide
  exact ⟨Message.Meets.imp valid_implies_encodable response response_accepted h, by omega⟩

theorem framed_length_pos (x : BadgeResponse) : 0 < (framed x).length := by
  rw [framed, List.length_append, packed_length]
  exact Nat.lt_of_lt_of_le Nat.two_pos (Nat.le_add_right _ _)

/-- Every response takes some bytes. -/
theorem length_le_framed (xs : List BadgeResponse) :
    xs.length ≤ (xs.flatMap framed).length := by
  induction xs with
  | nil => exact Nat.le_refl _
  | cons x xs ih =>
    have hx := framed_length_pos x
    rw [List.flatMap_cons, List.length_append, List.length_cons]
    omega

/-- `send_request` writes the request, and reads nothing. -/
theorem sendRequest_ok (v : request.Value) {b : Badge} (hc : b.connection.connected = true) :
    ∃ b', sendRequest v b = (.ok (), b') ∧ b'.connection.connected = true ∧
      b'.connection.stream = b.connection.stream ∧ b'.queues = b.queues ∧
      b'.connection.sent = b.connection.sent ++ [framedRequest v] := by
  have hencode : request.encode .bigEndian v = .ok (request.wire .bigEndian v) :=
    encode_eq_wire request_accepted (request.plain_valid request_plain v)
  have hpack : structPack .bigEndian 2 (request.wire .bigEndian v).length =
      .ok (packed .bigEndian 2 (request.wire .bigEndian v).length) :=
    if_pos (request_length_lt v)
  have hsend : send (framedRequest v) 0 b.connection =
      (.ok none, { b.connection with sent := b.connection.sent ++ [framedRequest v] }) := by
    rw [send, Proc.get_bind_apply, Proc.failIf_bind_neg (by simp [hc])]
    rfl
  refine ⟨{ b with connection :=
    { b.connection with sent := b.connection.sent ++ [framedRequest v] } }, ?_, hc, rfl, rfl, rfl⟩
  rw [sendRequest, hencode, raise, Proc.pure_bind_apply, hpack, raise, Proc.pure_bind_apply]
  exact Proc.bind_ok (onConnection_ok hsend) _

/-- Without a last response the loop does not return. -/
theorem awaitChunks_waits {tag : UInt8} {xs : List BadgeResponse} (hxs : ∀ y ∈ xs, Sendable y)
    (hmore : ∀ y ∈ ofKind tag xs, lastResponse y = false) {n : Nat} :
    ∀ (chunks : List BadgeResponse) {b : Badge}, b.connection.connected = true →
      b.queues tag = [] → b.connection.stream = xs.flatMap framed →
      ∃ b', awaitChunks tag n chunks b = (.error .waits, b') ∧
        b'.connection.sent = b.connection.sent := by
  induction xs generalizing n with
  | nil =>
    intro chunks b hc _ hs
    cases n with
    | zero => exact ⟨b, rfl, rfl⟩
    | succ n =>
      refine ⟨b, ?_, rfl⟩
      rw [awaitChunks, Proc.bind_error (receiveResponse_waits hc hs)]
  | cons y ys ih =>
    intro chunks b hc hq hs
    have hy := hxs y List.mem_cons_self
    have hys : ∀ z ∈ ys, Sendable z := fun z hz => hxs z (List.mem_cons_of_mem y hz)
    rw [List.flatMap_cons] at hs
    cases n with
    | zero => exact ⟨b, rfl, rfl⟩
    | succ n =>
      by_cases hkind : responseType.which y = tag
      · rw [ofKind_cons_self hkind] at hmore
        obtain ⟨b₁, b₂, hreceive, htake, hto⟩ := receive_own hc hy hq hkind hs
        have hempty : b₂.queues tag = [] := by
          rw [hto.queues_eq]
          exact if_pos rfl
        obtain ⟨b', hloop, hsent⟩ := ih hys (fun z hz => hmore z (List.mem_cons_of_mem y hz))
          (n := n) (chunks ++ [y]) (hto.connection.2.1.trans hc) hempty hto.connection.1
        have hnot : ¬ lastResponse y = true := by simp [hmore y List.mem_cons_self]
        refine ⟨b', ?_, hsent.trans hto.connection.2.2⟩
        rw [awaitChunks, Proc.bind_ok hreceive, Proc.bind_ok htake]
        exact (congrFun (if_neg hnot) b₂).trans hloop
      · rw [ofKind_cons_ne hkind] at hmore
        obtain ⟨b₁, hreceive, htake, hto, hempty⟩ := receive_other hc hy hq hkind hs
        obtain ⟨b', hloop, hsent⟩ := ih hys hmore (n := n) chunks
          (hto.connection.2.1.trans hc) hempty hto.connection.1
        refine ⟨b', ?_, hsent.trans hto.connection.2.2⟩
        rw [awaitChunks, Proc.bind_ok hreceive, Proc.bind_ok htake]
        exact hloop

/-- The loop of the calls for one response ends at the first of its kind. -/
theorem awaitResponse_returns {tag : UInt8} {x : BadgeResponse} (hx : Sendable x)
    (htag : responseType.which x = tag) {rest : List UInt8} {xs : List BadgeResponse}
    (hxs : ∀ y ∈ xs, Sendable y) (hnone : ofKind tag xs = []) {n : Nat} (hn : xs.length + 1 < n) :
    ∀ {b : Badge}, b.connection.connected = true → b.queues tag = [] →
      b.connection.stream = xs.flatMap framed ++ (framed x ++ rest) →
      ∃ b', awaitResponse tag n b = (.ok x, b') ∧ b.ReadsTo b' rest (b.queuesAfter tag xs) := by
  induction xs generalizing n with
  | nil =>
    intro b hc hq hs
    obtain ⟨n, rfl⟩ : ∃ m, n = m + 2 := ⟨n - 2, by rw [List.length_nil] at hn; omega⟩
    obtain ⟨b', b'', hreceive, htake, hto⟩ := receive_own hc hx hq htag hs
    refine ⟨b'', ?_, hto⟩
    rw [awaitResponse, Proc.bind_ok (takeResponse_none hq)]
    refine (Proc.bind_ok hreceive _).trans ?_
    rw [awaitResponse, Proc.bind_ok htake]
    rfl
  | cons y ys ih =>
    intro b hc hq hs
    obtain ⟨n, rfl⟩ : ∃ m, n = m + 1 := ⟨n - 1, by omega⟩
    have hn' : ys.length + 1 < n := Nat.lt_of_succ_lt_succ hn
    have hkind : responseType.which y ≠ tag := by
      intro h
      rw [ofKind_cons_self h] at hnone
      exact List.cons_ne_nil _ _ hnone
    rw [ofKind_cons_ne hkind] at hnone
    rw [List.flatMap_cons, List.append_assoc] at hs
    obtain ⟨b₁, hreceive, -, hto, hempty⟩ :=
      receive_other hc (hxs y List.mem_cons_self) hq hkind hs
    obtain ⟨b', hloop, hto'⟩ := ih (fun z hz => hxs z (List.mem_cons_of_mem y hz)) hnone hn'
      (hto.connection.2.1.trans hc) hempty hto.connection.1
    rw [queuesAfter_cons_other hto.queues_eq] at hto'
    refine ⟨b', ?_, hto.trans hto'⟩
    rw [awaitResponse, Proc.bind_ok (takeResponse_none hq)]
    exact (Proc.bind_ok hreceive _).trans hloop

theorem awaitResponse_waits {tag : UInt8} {xs : List BadgeResponse} (hxs : ∀ y ∈ xs, Sendable y)
    (hnone : ofKind tag xs = []) {n : Nat} : ∀ {b : Badge}, b.connection.connected = true →
      b.queues tag = [] → b.connection.stream = xs.flatMap framed →
      ∃ b', awaitResponse tag n b = (.error .waits, b') ∧
        b'.connection.sent = b.connection.sent := by
  induction xs generalizing n with
  | nil =>
    intro b hc hq hs
    cases n with
    | zero => exact ⟨b, rfl, rfl⟩
    | succ n =>
      refine ⟨b, ?_, rfl⟩
      rw [awaitResponse, Proc.bind_ok (takeResponse_none hq)]
      exact Proc.bind_error (receiveResponse_waits hc hs) _
  | cons y ys ih =>
    intro b hc hq hs
    cases n with
    | zero => exact ⟨b, rfl, rfl⟩
    | succ n =>
      have hkind : responseType.which y ≠ tag := by
        intro h
        rw [ofKind_cons_self h] at hnone
        exact List.cons_ne_nil _ _ hnone
      rw [ofKind_cons_ne hkind] at hnone
      rw [List.flatMap_cons] at hs
      obtain ⟨b₁, hreceive, -, hto, hempty⟩ :=
        receive_other hc (hxs y List.mem_cons_self) hq hkind hs
      obtain ⟨b', hloop, hsent⟩ := ih (fun z hz => hxs z (List.mem_cons_of_mem y hz)) hnone
        (n := n) (hto.connection.2.1.trans hc) hempty hto.connection.1
      refine ⟨b', ?_, hsent.trans hto.connection.2.2⟩
      rw [awaitResponse, Proc.bind_ok (takeResponse_none hq)]
      exact (Proc.bind_ok hreceive _).trans hloop

/-- What a call leaves behind: its request was sent, the bytes were read up to `rest`, and of
the responses `xs` those of other kinds are in their queues. -/
structure Badge.Called (b b' : Badge) (v : request.Value) (tag : UInt8) (xs : List BadgeResponse)
    (rest : List UInt8) : Prop where
  connected : b'.connection.connected = true
  sent : b'.connection.sent = b.connection.sent ++ [framedRequest v]
  stream : b'.connection.stream = rest
  queues : b'.queues = b.queuesAfter tag xs

/-- The request is sent, and the queue of the call's own responses is empty. -/
theorem called_start (v : request.Value) (tag : UInt8) {b : Badge}
    (hc : b.connection.connected = true) :
    ∃ b₁ b₂, sendRequest v b = (.ok (), b₁) ∧ clearQueue tag b₁ = (.ok (), b₂) ∧
      b.Called b₂ v tag [] b.connection.stream := by
  obtain ⟨b₁, hsend, hc₁, hs₁, hq₁, hsent₁⟩ := sendRequest_ok v hc
  refine ⟨b₁, _, hsend, rfl, hc₁, hsent₁, hs₁, ?_⟩
  funext t
  change (if t = tag then [] else b₁.queues t) = if t = tag then [] else b.queues t ++ ofKind t []
  rw [hq₁, ofKind_nil, List.append_nil]

theorem Badge.Called.reads {b b' b'' : Badge} {v : request.Value} {tag : UInt8}
    {xs : List BadgeResponse} {rest rest' : List UInt8} (h : b.Called b' v tag [] rest)
    (h' : b'.ReadsTo b'' rest' (b'.queuesAfter tag xs)) : b.Called b'' v tag xs rest' := by
  refine ⟨h'.connection.2.1.trans h.connected, h'.connection.2.2.trans h.sent, h'.connection.1, ?_⟩
  rw [h'.queues_eq]
  funext t
  rw [Badge.queuesAfter, Badge.queuesAfter, h.queues, Badge.queuesAfter]
  by_cases ht : t = tag
  · rw [if_pos ht, if_pos ht]
  · rw [if_neg ht, if_neg ht, if_neg ht, ofKind_nil, List.append_nil]

theorem Badge.Called.empty {b b' : Badge} {v : request.Value} {tag : UInt8}
    {xs : List BadgeResponse} {rest : List UInt8} (h : b.Called b' v tag xs rest) :
    b'.queues tag = [] := by
  rw [h.queues]
  exact if_pos rfl

section Responses

variable (v : request.Value) {tag : UInt8} {b : Badge} (hc : b.connection.connected = true)
  {xs : List BadgeResponse} (hxs : ∀ y ∈ xs, Sendable y)

include hc hxs

/-- A call for stored data returns what came of its kind before the last response. -/
theorem getData_called {x : BadgeResponse} (hx : Sendable x) (htag : responseType.which x = tag)
    (hlast : lastResponse x = true) (hmore : ∀ y ∈ ofKind tag xs, lastResponse y = false)
    {rest : List UInt8} (hs : b.connection.stream = xs.flatMap framed ++ (framed x ++ rest)) :
    ∃ b', getData v tag b = (.ok (ofKind tag xs), b') ∧ b.Called b' v tag xs rest := by
  obtain ⟨b₁, b₂, hsend, hclear, hstart⟩ := called_start v tag hc
  have hn : xs.length < b₂.connection.stream.length + 1 := by
    have hlen := length_le_framed xs
    rw [hstart.stream, hs, List.length_append]
    omega
  obtain ⟨b', hloop, hto⟩ := awaitChunks_returns hx htag hlast hxs hmore hn [] hstart.connected
    hstart.empty (hstart.stream.trans hs)
  refine ⟨b', ?_, hstart.reads hto⟩
  rw [getData, Proc.bind_ok hsend, Proc.bind_ok hclear, Proc.get_bind_apply, hloop]
  rfl

theorem getData_waits (hmore : ∀ y ∈ ofKind tag xs, lastResponse y = false)
    (hs : b.connection.stream = xs.flatMap framed) :
    ∃ b', getData v tag b = (.error .waits, b') ∧
      b'.connection.sent = b.connection.sent ++ [framedRequest v] := by
  obtain ⟨b₁, b₂, hsend, hclear, hstart⟩ := called_start v tag hc
  obtain ⟨b', hloop, hsent⟩ := awaitChunks_waits hxs hmore (n := b₂.connection.stream.length + 1)
    [] hstart.connected hstart.empty (hstart.stream.trans hs)
  refine ⟨b', ?_, hsent.trans hstart.sent⟩
  rw [getData, Proc.bind_ok hsend, Proc.bind_ok hclear, Proc.get_bind_apply]
  exact hloop

/-- A call for one response returns the first of its kind. -/
theorem command_called {x : BadgeResponse} (hx : Sendable x) (htag : responseType.which x = tag)
    (hnone : ofKind tag xs = [])
    {rest : List UInt8} (hs : b.connection.stream = xs.flatMap framed ++ (framed x ++ rest)) :
    ∃ b', command v tag b = (.ok x, b') ∧ b.Called b' v tag xs rest := by
  obtain ⟨b₁, b₂, hsend, hclear, hstart⟩ := called_start v tag hc
  have hn : xs.length + 1 < b₂.connection.stream.length + 1 := by
    have hlen := length_le_framed xs
    have hpos := framed_length_pos x
    rw [hstart.stream, hs, List.length_append, List.length_append]
    omega
  obtain ⟨b', hloop, hto⟩ := awaitResponse_returns hx htag hxs hnone hn hstart.connected
    hstart.empty (hstart.stream.trans hs)
  refine ⟨b', ?_, hstart.reads hto⟩
  rw [command, Proc.bind_ok hsend, Proc.bind_ok hclear, Proc.get_bind_apply]
  exact hloop

theorem command_waits (hnone : ofKind tag xs = [])
    (hs : b.connection.stream = xs.flatMap framed) :
    ∃ b', command v tag b = (.error .waits, b') ∧
      b'.connection.sent = b.connection.sent ++ [framedRequest v] := by
  obtain ⟨b₁, b₂, hsend, hclear, hstart⟩ := called_start v tag hc
  obtain ⟨b', hloop, hsent⟩ := awaitResponse_waits hxs hnone (n := b₂.connection.stream.length + 1)
    hstart.connected hstart.empty (hstart.stream.trans hs)
  refine ⟨b', ?_, hsent.trans hstart.sent⟩
  rw [command, Proc.bind_ok hsend, Proc.bind_ok hclear, Proc.get_bind_apply]
  exact hloop

end Responses

/-- Among the responses there is a first last one of the kind, or none. -/
theorem exists_last (tag : UInt8) (xs : List BadgeResponse) :
    (∃ seen x later, xs = seen ++ x :: later ∧ responseType.which x = tag ∧
      lastResponse x = true ∧ ∀ y ∈ ofKind tag seen, lastResponse y = false) ∨
    ∀ y ∈ ofKind tag xs, lastResponse y = false := by
  induction xs with
  | nil => exact .inr fun _ hy => (by cases hy)
  | cons y ys ih =>
    by_cases hkind : responseType.which y = tag
    · by_cases hlast : lastResponse y = true
      · exact .inl ⟨[], y, ys, rfl, hkind, hlast, fun _ hy => (by cases hy)⟩
      · have hy : lastResponse y = false := by simpa using hlast
        rcases ih with ⟨seen, x, later, rfl, htag, hx, hmore⟩ | hmore
        · refine .inl ⟨y :: seen, x, later, rfl, htag, hx, ?_⟩
          rw [ofKind_cons_self hkind]
          exact List.forall_mem_cons.mpr ⟨hy, hmore⟩
        · rw [ofKind_cons_self hkind]
          exact .inr (List.forall_mem_cons.mpr ⟨hy, hmore⟩)
    · rcases ih with ⟨seen, x, later, rfl, htag, hx, hmore⟩ | hmore
      · refine .inl ⟨y :: seen, x, later, rfl, htag, hx, ?_⟩
        rwa [ofKind_cons_ne hkind]
      · exact .inr (by rwa [ofKind_cons_ne hkind])

/-- Whatever responses come and however the radio cuts them: a call for stored data returns
exactly if a last response of its kind is among them, and then with the responses of its kind
in front of the first such, in their order. -/
theorem getData_returns_iff (v : request.Value) (tag : UInt8) {b : Badge}
    (hc : b.connection.connected = true) {xs : List BadgeResponse} (hxs : ∀ y ∈ xs, Sendable y)
    (hs : b.connection.stream = xs.flatMap framed) (chunks : List BadgeResponse) :
    (getData v tag b).1 = .ok chunks ↔
      ∃ seen x later, xs = seen ++ x :: later ∧ responseType.which x = tag ∧
        lastResponse x = true ∧ (∀ y ∈ ofKind tag seen, lastResponse y = false) ∧
        chunks = ofKind tag seen := by
  have hreturns {seen later : List BadgeResponse} {x : BadgeResponse}
      (hsplit : xs = seen ++ x :: later) (htag : responseType.which x = tag)
      (hlast : lastResponse x = true) (hmore : ∀ y ∈ ofKind tag seen, lastResponse y = false) :
      (getData v tag b).1 = .ok (ofKind tag seen) := by
    subst hsplit
    rw [List.flatMap_append, List.flatMap_cons] at hs
    obtain ⟨b', hcall, -⟩ := getData_called v hc
      (fun y hy => hxs y (List.mem_append_left _ hy))
      (hxs x (List.mem_append_right _ List.mem_cons_self)) htag hlast hmore hs
    rw [hcall]
  constructor
  · intro h
    rcases exists_last tag xs with ⟨seen, x, later, hsplit, htag, hlast, hmore⟩ | hmore
    · rw [hreturns hsplit htag hlast hmore] at h
      exact ⟨seen, x, later, hsplit, htag, hlast, hmore, (Except.ok.inj h).symm⟩
    · obtain ⟨b', hcall, -⟩ := getData_waits v hc hxs hmore hs
      rw [hcall] at h
      cases h
  · rintro ⟨seen, x, later, hsplit, htag, hlast, hmore, rfl⟩
    exact hreturns hsplit htag hlast hmore

/-- A test response, two battery responses of which the second is the last, and one more. -/
def fourResponses : List BadgeResponse :=
  [responseType.choose 12 ((3 : BitVec 8), ()),
   responseType.choose 10 ((0 : BitVec 8), timestampValue 5 0, ((7 : BitVec 32), ()), ()),
   responseType.choose 10 ((1 : BitVec 8), timestampValue 6 0, ((8 : BitVec 32), ()), ()),
   responseType.choose 12 ((4 : BitVec 8), ())]

/-- They come in two pieces, cut within the first. -/
def hearsFour : Badge where
  connection := ⟨true, ((fourResponses.flatMap framed).take 3),
    [(fourResponses.flatMap framed).drop 3], []⟩
  queues _ := []

theorem getData_returns_one :
    (getData (requestType.choose 15 (timestampValue 1 2, ()), ()) 11 hearsFour).1 =
      .ok (fourResponses.drop 1 |>.take 1) := by
  have hvalid (x : BadgeResponse) (h : responseType.Meets .valid x) : Sendable x :=
    sendable_of_valid ⟨h, trivial⟩
  have hall : ∀ y ∈ fourResponses, Sendable y := by
    intro y hy
    simp only [fourResponses, List.mem_cons, List.not_mem_nil, or_false] at hy
    rcases hy with rfl | rfl | rfl | rfl
    · exact hvalid _ ⟨trivial, testResponse.plain_valid rfl _⟩
    · exact hvalid _ ⟨trivial, batteryDataResponse.plain_valid rfl _⟩
    · exact hvalid _ ⟨trivial, batteryDataResponse.plain_valid rfl _⟩
    · exact hvalid _ ⟨trivial, testResponse.plain_valid rfl _⟩
  have hs : hearsFour.connection.stream = fourResponses.flatMap framed := by
    change (fourResponses.flatMap framed).take 3 ++ ([(fourResponses.flatMap framed).drop 3]).flatten
      = _
    rw [List.flatten_singleton, List.take_append_drop]
  exact (getData_returns_iff _ 11 rfl hall hs _).mpr
    ⟨fourResponses.take 2, _, fourResponses.drop 3, rfl, rfl, rfl, by decide, rfl⟩

end OpenBadge.Framework
