import OpenBadge.Framework.Badge

/-!
# What the client makes of the responses it receives

The badge may send responses of every kind in any order, and the radio may cut them
anywhere. A call returns the responses of its own kind, the others wait in their queues,
and what is behind the response that ends the call stays unread.
-/

namespace OpenBadge.Framework

open OpenBadge.Lib OpenBadge.Tinybuf

/-- The bytes of a response, with their number in front. -/
def framed (x : BadgeResponse) : List UInt8 :=
  packed .bigEndian 2 (response.wire .bigEndian (x, ())).length ++ response.wire .bigEndian (x, ())

/-- A response with an encoding whose length fits into the header. -/
structure Sendable (x : BadgeResponse) : Prop where
  encodable : response.Meets .encodable (x, ())
  short : (response.wire .bigEndian (x, ())).length < 256 ^ 2

/-- The responses of a kind. -/
def ofKind (tag : UInt8) (xs : List BadgeResponse) : List BadgeResponse :=
  xs.filter fun x => responseType.which x = tag

@[simp] theorem ofKind_nil (tag : UInt8) : ofKind tag [] = [] := rfl

theorem ofKind_cons_self {tag : UInt8} {x : BadgeResponse} (h : responseType.which x = tag)
    (xs : List BadgeResponse) : ofKind tag (x :: xs) = x :: ofKind tag xs :=
  List.filter_cons_of_pos (by simpa using h)

theorem ofKind_cons_ne {tag : UInt8} {x : BadgeResponse} (h : responseType.which x ≠ tag)
    (xs : List BadgeResponse) : ofKind tag (x :: xs) = ofKind tag xs :=
  List.filter_cons_of_neg (by simpa using h)

theorem response_accepted : response.Accepted := by
  simp [response, responseType, Message.Accepted, InnerFields.Accepted, SchemaType.Accepted,
    InnerFields.tags, Rule.Accepted, required, uint8, uint16, uint32, timestamp, batteryData,
    microphoneData, scanDevice, scanResultData, accelerometerData, accelerometerRawData,
    batteryStream, microphoneStream, scanStream, accelerometerStream,
    accelerometerInterruptStream, statusResponse, startResponse, microphoneDataResponse,
    scanDataResponse, accelerometerDataResponse, accelerometerInterruptDataResponse,
    batteryDataResponse, streamResponse, testResponse]
  decide

/-- The state of the client when it has read up to `rest`, with what is in the queues. -/
structure Badge.ReadsTo (b b' : Badge) (rest : List UInt8) (queues : UInt8 → List BadgeResponse) :
    Prop where
  connection : b.connection.Reads b'.connection rest
  queues_eq : b'.queues = queues

theorem onConnection_ok {α : Type} {x : Proc Connection Failure α} {b : Badge} {c : Connection}
    {a : α} (h : x b.connection = (.ok a, c)) :
    onConnection x b = (.ok a, { b with connection := c }) := by
  rw [onConnection, Proc.within, h]

theorem onConnection_error {α : Type} {x : Proc Connection Failure α} {b : Badge}
    {c : Connection} {e : Failure} (h : x b.connection = (.error e, c)) :
    onConnection x b = (.error e, { b with connection := c }) := by
  rw [onConnection, Proc.within, h]

/-- The next response is taken from the stream and put into the queue of its type. -/
theorem receiveResponse_ok {b : Badge} (hc : b.connection.connected = true) {x : BadgeResponse}
    (hx : Sendable x) {rest : List UInt8} (hs : b.connection.stream = framed x ++ rest) :
    ∃ b', receiveResponse b = (.ok (), b') ∧ b.ReadsTo b' rest (b.put x).queues := by
  have hne : 0 < (response.wire .bigEndian (x, ())).length := Nat.succ_pos _
  rw [framed, List.append_assoc] at hs
  obtain ⟨c₁, hheader, hs₁, hc₁, hsent₁⟩ := awaitData_ok hc (n := 2) (by decide)
    (packed_length .bigEndian 2 _) hs
  obtain ⟨c₂, hmessage, hs₂, hc₂, hsent₂⟩ := awaitData_ok (hc₁.trans hc) hne rfl hs₁
  have hlen := unpacked_packed .bigEndian hx.short
  have hdecode : response.decode .bigEndian (response.wire .bigEndian (x, ())) = .ok (x, ()) :=
    (decode_eq_ok response_accepted).mpr ⟨hx.encodable, List.prefix_refl _⟩
  refine ⟨{ connection := c₂, queues := (b.put x).queues }, ?_,
    ⟨hs₂, hc₂.trans hc₁, hsent₂.trans hsent₁⟩, rfl⟩
  rw [receiveResponse, Proc.bind_ok (onConnection_ok hheader), notNone_some, Proc.pure_bind_apply,
    hlen, Proc.bind_ok (onConnection_ok hmessage), notNone_some, Proc.pure_bind_apply, hdecode]
  rfl

theorem receiveResponse_waits {b : Badge} (hc : b.connection.connected = true)
    (hs : b.connection.stream = []) : receiveResponse b = (.error .waits, b) := by
  have hlt : b.connection.stream.length < 2 := by
    rw [hs]
    decide
  rw [receiveResponse, Proc.bind_error (onConnection_error (awaitData_waits hc hlt))]

theorem takeResponse_none {b : Badge} {tag : UInt8} (h : b.queues tag = []) :
    takeResponse tag b = (.ok none, b) := by
  rw [takeResponse, h]

theorem takeResponse_some {b : Badge} {tag : UInt8} {x : BadgeResponse} {xs : List BadgeResponse}
    (h : b.queues tag = x :: xs) : takeResponse tag b =
      (.ok (some x), { b with queues := fun t => if t = tag then xs else b.queues t }) := by
  rw [takeResponse, h]

theorem Badge.put_self {b : Badge} {x : BadgeResponse} {tag : UInt8}
    (h : responseType.which x = tag) : (b.put x).queues tag = b.queues tag ++ [x] :=
  if_pos h.symm

theorem Badge.put_ne {b : Badge} {x : BadgeResponse} {tag : UInt8}
    (h : responseType.which x ≠ tag) : (b.put x).queues tag = b.queues tag :=
  if_neg fun heq => h heq.symm

/-- The queues behind a call for the responses `tag` that received `xs`. -/
def Badge.queuesAfter (b : Badge) (tag : UInt8) (xs : List BadgeResponse) :
    UInt8 → List BadgeResponse :=
  fun t => if t = tag then [] else b.queues t ++ ofKind t xs

theorem Badge.ReadsTo.trans {b b' b'' : Badge} {rest rest' : List UInt8}
    {queues queues' : UInt8 → List BadgeResponse} (h : b.ReadsTo b' rest queues)
    (h' : b'.ReadsTo b'' rest' queues') : b.ReadsTo b'' rest' queues' :=
  ⟨⟨h'.connection.1, h'.connection.2.1.trans h.connection.2.1,
    h'.connection.2.2.trans h.connection.2.2⟩, h'.queues_eq⟩

section Call

variable {tag : UInt8} {b : Badge} {x : BadgeResponse} {rest : List UInt8}
  (hc : b.connection.connected = true) (hx : Sendable x) (hq : b.queues tag = [])

include hc hx hq

/-- A response of another kind is received. -/
theorem receive_other (hne : responseType.which x ≠ tag)
    (hs : b.connection.stream = framed x ++ rest) :
    ∃ b', receiveResponse b = (.ok (), b') ∧ takeResponse tag b' = (.ok none, b') ∧
      b.ReadsTo b' rest (b.put x).queues ∧ b'.queues tag = [] := by
  obtain ⟨b', hreceive, hto⟩ := receiveResponse_ok hc hx hs
  have hempty : b'.queues tag = [] := by
    rw [hto.queues_eq, Badge.put_ne hne, hq]
  exact ⟨b', hreceive, takeResponse_none hempty, hto, hempty⟩

/-- A response of the call's own kind is received and taken. -/
theorem receive_own (htag : responseType.which x = tag)
    (hs : b.connection.stream = framed x ++ rest) :
    ∃ b' b'', receiveResponse b = (.ok (), b') ∧ takeResponse tag b' = (.ok (some x), b'') ∧
      b.ReadsTo b'' rest (b.queuesAfter tag []) := by
  obtain ⟨b', hreceive, hto⟩ := receiveResponse_ok hc hx hs
  have hone : b'.queues tag = [x] := by
    rw [hto.queues_eq, Badge.put_self htag, hq]
    rfl
  refine ⟨b', _, hreceive, takeResponse_some hone, hto.connection, ?_⟩
  funext t
  change (if t = tag then [] else b'.queues t) = if t = tag then [] else b.queues t ++ ofKind t []
  by_cases ht : t = tag
  · rw [if_pos ht, if_pos ht]
  · rw [if_neg ht, if_neg ht, hto.queues_eq, Badge.put_ne (fun h => ht (h.symm.trans htag)),
      ofKind_nil, List.append_nil]

end Call

/-- The queues after one more response. -/
theorem queuesAfter_cons_other {b b' : Badge} {y : BadgeResponse}
    (hb' : b'.queues = (b.put y).queues) (tag : UInt8) (ys : List BadgeResponse) :
    b'.queuesAfter tag ys = b.queuesAfter tag (y :: ys) := by
  funext t
  rw [Badge.queuesAfter, Badge.queuesAfter, hb']
  by_cases ht : t = tag
  · rw [if_pos ht, if_pos ht]
  · rw [if_neg ht, if_neg ht]
    by_cases hy : responseType.which y = t
    · rw [Badge.put_self hy, ofKind_cons_self hy, List.append_assoc]
      rfl
    · rw [Badge.put_ne hy, ofKind_cons_ne hy]

theorem queuesAfter_cons_own {b b' : Badge} {tag : UInt8} {y : BadgeResponse}
    (hy : responseType.which y = tag) (hb' : b'.queues = b.queuesAfter tag [])
    (ys : List BadgeResponse) : b'.queuesAfter tag ys = b.queuesAfter tag (y :: ys) := by
  funext t
  rw [Badge.queuesAfter, Badge.queuesAfter, hb', Badge.queuesAfter]
  by_cases ht : t = tag
  · rw [if_pos ht, if_pos ht]
  · rw [if_neg ht, if_neg ht, if_neg ht, ofKind_nil, List.append_nil,
      ofKind_cons_ne fun h => ht (h.symm.trans hy)]

/-- The loop of a `get_*_data` function ends at the first last response of its kind. -/
theorem awaitChunks_returns {tag : UInt8} {x : BadgeResponse} (hx : Sendable x)
    (htag : responseType.which x = tag) (hlast : lastResponse x = true) {rest : List UInt8}
    {xs : List BadgeResponse} (hxs : ∀ y ∈ xs, Sendable y)
    (hmore : ∀ y ∈ ofKind tag xs, lastResponse y = false) {n : Nat} (hn : xs.length < n) :
    ∀ (chunks : List BadgeResponse) {b : Badge}, b.connection.connected = true →
      b.queues tag = [] → b.connection.stream = xs.flatMap framed ++ (framed x ++ rest) →
      ∃ b', awaitChunks tag n chunks b = (.ok (chunks ++ ofKind tag xs), b') ∧
        b.ReadsTo b' rest (b.queuesAfter tag xs) := by
  induction xs generalizing n with
  | nil =>
    intro chunks b hc hq hs
    obtain ⟨n, rfl⟩ : ∃ m, n = m + 1 := ⟨n - 1, by omega⟩
    obtain ⟨b', b'', hreceive, htake, hto⟩ := receive_own hc hx hq htag hs
    refine ⟨b'', ?_, hto⟩
    rw [awaitChunks, Proc.bind_ok hreceive, Proc.bind_ok htake, ofKind_nil, List.append_nil]
    exact congrFun (if_pos hlast) b''
  | cons y ys ih =>
    intro chunks b hc hq hs
    obtain ⟨n, rfl⟩ : ∃ m, n = m + 1 := ⟨n - 1, by omega⟩
    have hn' : ys.length < n := Nat.lt_of_succ_lt_succ hn
    have hy := hxs y List.mem_cons_self
    have hys : ∀ z ∈ ys, Sendable z := fun z hz => hxs z (List.mem_cons_of_mem y hz)
    rw [List.flatMap_cons, List.append_assoc] at hs
    by_cases hkind : responseType.which y = tag
    · rw [ofKind_cons_self hkind] at hmore
      obtain ⟨b₁, b₂, hreceive, htake, hto⟩ := receive_own hc hy hq hkind hs
      have hempty : b₂.queues tag = [] := by
        rw [hto.queues_eq]
        exact if_pos rfl
      obtain ⟨b', hloop, hto'⟩ := ih hys (fun z hz => hmore z (List.mem_cons_of_mem y hz))
        hn' (chunks ++ [y]) (hto.connection.2.1.trans hc) hempty hto.connection.1
      rw [queuesAfter_cons_own hkind hto.queues_eq] at hto'
      refine ⟨b', ?_, hto.trans hto'⟩
      have hnot : ¬ lastResponse y = true := by simp [hmore y List.mem_cons_self]
      rw [awaitChunks, Proc.bind_ok hreceive, Proc.bind_ok htake, ofKind_cons_self hkind]
      refine (congrFun (if_neg hnot) b₂).trans ?_
      rw [hloop, List.append_assoc]
      rfl
    · rw [ofKind_cons_ne hkind] at hmore
      obtain ⟨b₁, hreceive, htake, hto, hempty⟩ := receive_other hc hy hq hkind hs
      obtain ⟨b', hloop, hto'⟩ := ih hys hmore hn' chunks
        (hto.connection.2.1.trans hc) hempty hto.connection.1
      rw [queuesAfter_cons_other hto.queues_eq] at hto'
      refine ⟨b', ?_, hto.trans hto'⟩
      rw [awaitChunks, Proc.bind_ok hreceive, Proc.bind_ok htake, ofKind_cons_ne hkind]
      exact hloop

end OpenBadge.Framework
