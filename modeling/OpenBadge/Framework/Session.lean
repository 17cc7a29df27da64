import OpenBadge.Framework.Requests
import OpenBadge.Lib.Dialogue
import Mathlib.Data.List.Forall2

/-!
# A session of the client

The client makes its calls one after the other. What the badge sends is seen by it as a
sequence of marks: which status and start responses come, and which data responses with
their chunks. As long as the marks are those of the answers to its calls, every call that
returns returns what belongs to it, and the next call has been sent.
-/

namespace OpenBadge.Framework

open OpenBadge.Lib OpenBadge.Tinybuf OpenBadge.RequestHandler

/-- A call of the client: its request, and the type under which the badge handles it. -/
structure Ask where
  value : request.Value
  type : RequestType
  tag_eq : type.tag = (requestType.which value.1).toNat

/-- The response that a call waits for. -/
def awaited : RequestType → Option ResponseType
  | .status => some .status
  | .start k => some (.start k)
  | .data k => some (.data k)
  | .test => some .test
  | _ => none

def Ask.call (a : Ask) : Client (List BadgeResponse) :=
  match awaited a.type with
  | some (.data k) => getData a.value (responseTag (.data k))
  | some r => do
    let x ← command a.value (responseTag r)
    pure [x]
  | none => do
    sendRequest a.value
    pure []

/-- The results of the calls that return, and the state at the end. -/
def session : List Ask → Badge → List (List BadgeResponse) × Badge
  | [], b => ([], b)
  | a :: asks, b =>
    match a.call b with
    | (.ok xs, b') => (xs :: (session asks b').1, (session asks b').2)
    | (.error _, b') => ([], b')

/-! ## The calls as they are made -/

/-- `get_status` as a call. -/
def askStatus (seconds : BitVec 32) (ms : BitVec 16) (newId : Option (BitVec 16))
    (newGroupNumber : Option (BitVec 8)) : Ask where
  value := (.inl (timestampValue seconds ms, assignementValue newId newGroupNumber, ()), ())
  type := .status
  tag_eq := rfl

theorem askStatus_call (seconds : BitVec 32) (ms : BitVec 16) (newId : Option (BitVec 16))
    (newGroupNumber : Option (BitVec 8)) :
    (askStatus seconds ms newId newGroupNumber).call =
      (do let x ← getStatus seconds ms newId newGroupNumber; pure [x]) := rfl

/-- `get_*_data` as a call. -/
def askData (k : Sensor) (seconds : BitVec 32) (ms : BitVec 16) : Ask :=
  match k with
  | .microphone =>
    ⟨(requestType.choose 11 (timestampValue seconds ms, ()), ()), .data .microphone, rfl⟩
  | .scan => ⟨(requestType.choose 12 (timestampValue seconds ms, ()), ()), .data .scan, rfl⟩
  | .accelerometer =>
    ⟨(requestType.choose 13 (timestampValue seconds ms, ()), ()), .data .accelerometer, rfl⟩
  | .accelerometerInterrupt =>
    ⟨(requestType.choose 14 (timestampValue seconds ms, ()), ()), .data .accelerometerInterrupt, rfl⟩
  | .battery => ⟨(requestType.choose 15 (timestampValue seconds ms, ()), ()), .data .battery, rfl⟩

theorem askData_type (k : Sensor) (seconds : BitVec 32) (ms : BitVec 16) :
    (askData k seconds ms).type = .data k := by
  cases k <;> rfl

/-- The call of the sensor's own function. -/
theorem askData_call (k : Sensor) (seconds : BitVec 32) (ms : BitVec 16) :
    (askData k seconds ms).call =
      match k with
      | .microphone => getMicrophoneData seconds ms
      | .scan => getScanData seconds ms
      | .accelerometer => getAccelerometerData seconds ms
      | .accelerometerInterrupt => getAccelerometerInterruptData seconds ms
      | .battery => getBatteryData seconds ms := by
  cases k <;> rfl

/-- The badge reads the timestamp of the call. -/
theorem askData_timestamp (k : Sensor) (seconds : BitVec 32) (ms : BitVec 16) :
    (requestOf (askData k seconds ms).value).data.timestamp k =
      ⟨seconds.toNat, ms.toNat⟩ := by
  cases k <;> rfl

/-! ## Marks -/

/-- What a call sees of a response it may wait for. -/
inductive Mark where
  | status
  | start (k : Sensor)
  | data (k : Sensor) (chunk : Option Chunk)
  deriving DecidableEq

def Mark.type : Mark → ResponseType
  | .status => .status
  | .start k => .start k
  | .data k _ => .data k

def mark : Response → Option Mark
  | .status _ => some .status
  | .start k _ => some (.start k)
  | .data k chunk => some (.data k chunk)
  | _ => none

def marks (ms : List Response) : List Mark := ms.filterMap mark

@[simp] theorem marks_append (ms ms' : List Response) : marks (ms ++ ms') = marks ms ++ marks ms' :=
  List.filterMap_append ..

theorem marks_cons_none {m : Response} (h : mark m = none) (ms : List Response) :
    marks (m :: ms) = marks ms := List.filterMap_cons_none h

theorem marks_cons_some {m : Response} {x : Mark} (h : mark m = some x) (ms : List Response) :
    marks (m :: ms) = x :: marks ms := List.filterMap_cons_some h

theorem mark_type {m : Response} {x : Mark} (h : mark m = some x) : x.type = m.type := by
  cases m with
  | status => cases h; rfl
  | start => cases h; rfl
  | data => cases h; rfl
  | stream => cases h
  | test => cases h

theorem mark_none {m : Response} (h : mark m = none) : m.type = .stream ∨ m.type = .test := by
  cases m with
  | stream => exact .inl rfl
  | test => exact .inr rfl
  | _ => cases h

variable (found : Sensor → Timestamp → List Chunk)

/-- The marks of the complete answer to a request. -/
def answer (r : RequestType) (q : Request) : List Mark :=
  match r with
  | .status => [.status]
  | .start k => [.start k]
  | .data k => (found k (q.data.timestamp k)).map (fun c => Mark.data k (some (c.toResponse k))) ++
      [.data k none]
  | _ => []

theorem answer_uniform (r : RequestType) (q : Request) :
    Uniform Mark.type (answer found r q) := by
  have hdata (k : Sensor) : ∀ x ∈ answer found (.data k) q, x.type = .data k := by
    intro x hx
    rcases List.mem_append.mp hx with hx | hx
    · obtain ⟨c, -, rfl⟩ := List.mem_map.mp hx
      rfl
    · rw [List.mem_singleton.mp hx]
      rfl
  intro x hx y hy
  cases r with
  | status => rw [List.mem_singleton.mp hx, List.mem_singleton.mp hy]
  | start => rw [List.mem_singleton.mp hx, List.mem_singleton.mp hy]
  | data k => rw [hdata k x hx, hdata k y hy]
  | _ => cases hx

def Ask.answer (a : Ask) : List Mark := Framework.answer found a.type (requestOf a.value)

/-- What a call returns. Of the responses `ms` that came, a status or start call has one of its
type, and a data call has what the storer finds. -/
def Right (ms : List Response) (a : Ask) (xs : List BadgeResponse) : Prop :=
  match a.type with
  | .status => ∃ r, .status r ∈ ms ∧ xs = [statusValue r]
  | .start k => ∃ t, .start k t ∈ ms ∧ xs = [startValue k t]
  | .data k => xs = (found k ((requestOf a.value).data.timestamp k)).map (chunkValue k)
  | _ => xs = []

theorem Right.mono {ms ms' : List Response} {a : Ask} {xs : List BadgeResponse}
    (h : Right found ms a xs) (hsub : ms ⊆ ms') : Right found ms' a xs := by
  unfold Right at h ⊢
  split
  · next hr =>
    rw [hr] at h
    obtain ⟨r, hmem, hxs⟩ := h
    exact ⟨r, hsub hmem, hxs⟩
  · next hr =>
    rw [hr] at h
    obtain ⟨t, hmem, hxs⟩ := h
    exact ⟨t, hsub hmem, hxs⟩
  · next hr =>
    rw [hr] at h
    exact h
  · next h1 h2 h3 =>
    split at h
    · next hr => exact absurd hr h1
    · next hr => exact absurd hr (h2 _)
    · next hr => exact absurd hr (h3 _)
    · exact h

/-! ## What the calls make of the responses -/

/-- The client sees of every response what it shows, and can read it. -/
structure Seen (value : Response → BadgeResponse) (ms : List Response) : Prop where
  shows : ∀ m ∈ ms, Shows m (value m)
  sendable : ∀ m ∈ ms, Sendable (value m)

section Calls

variable {found} {value : Response → BadgeResponse} {ms : List Response}

theorem Seen.of_subset {ms' : List Response} (h : Seen value ms) (hsub : ms' ⊆ ms) :
    Seen value ms' :=
  ⟨fun m hm => h.shows m (hsub hm), fun m hm => h.sendable m (hsub hm)⟩

theorem Seen.sendable_map (h : Seen value ms) : ∀ y ∈ ms.map value, Sendable y := by
  intro y hy
  obtain ⟨m, hm, rfl⟩ := List.mem_map.mp hy
  exact h.sendable m hm

/-- Responses without marks are of no kind that is waited for. -/
theorem ofKind_unmarked (h : Seen value ms) (hnone : marks ms = []) {x : Mark} :
    ofKind (responseTag x.type) (ms.map value) = [] := by
  refine List.filter_eq_nil_iff.mpr fun y hy => ?_
  obtain ⟨m, hm, rfl⟩ := List.mem_map.mp hy
  have hmark : mark m = none := List.filterMap_eq_nil_iff.mp hnone m hm
  rw [decide_eq_true_iff, (h.shows m hm).which_eq, responseTag_inj]
  intro htype
  cases x <;> rcases mark_none hmark with hm | hm <;> rw [htype] at hm <;> cases hm

/-- The chunks that the marks say. -/
theorem ofKind_chunks {k : Sensor} {cs : List Chunk} (h : Seen value ms)
    (hmarks : marks ms = cs.map fun c => Mark.data k (some (c.toResponse k))) :
    ofKind (responseTag (.data k)) (ms.map value) = cs.map (chunkValue k) := by
  induction ms generalizing cs with
  | nil =>
    cases cs with
    | nil => rfl
    | cons => cases hmarks
  | cons m ms ih =>
    have hseen := h.of_subset (List.subset_cons_self m ms)
    have hwhich := (h.shows m List.mem_cons_self).which_eq
    rw [List.map_cons]
    cases hm : mark m with
    | none =>
      rw [marks_cons_none hm] at hmarks
      have hne : responseType.which (value m) ≠ responseTag (.data k) := by
        rw [hwhich, ne_eq, responseTag_inj]
        intro htype
        rcases mark_none hm with hm | hm <;> rw [htype] at hm <;> cases hm
      rw [ofKind_cons_ne hne]
      exact ih hseen hmarks
    | some x =>
      rw [marks_cons_some hm] at hmarks
      cases cs with
      | nil => cases hmarks
      | cons c cs =>
        obtain ⟨rfl, hrest⟩ := List.cons.inj hmarks
        have hself : responseType.which (value m) = responseTag (.data k) := by
          rw [hwhich, ← mark_type hm]
          rfl
        have hvalue : value m = chunkValue k c := by
          have hshows := h.shows m List.mem_cons_self
          cases m with
          | data i chunk =>
            cases hm
            exact hshows
          | _ => cases hm
        rw [ofKind_cons_self hself, hvalue, List.map_cons, ih hseen hrest]

theorem not_last_chunks (k : Sensor) (cs : List Chunk) :
    ∀ y ∈ cs.map (chunkValue k), lastResponse y = false := by
  intro y hy
  obtain ⟨c, -, rfl⟩ := List.mem_map.mp hy
  exact lastResponse_dataValue false k _

/-- What a call does to the client, when the responses `ms'` are left. -/
structure Answered (value : Response → BadgeResponse) (a : Ask) (ms' : List Response)
    (b b' : Badge) : Prop where
  connected : b'.connection.connected = true
  stream : b'.connection.stream = (ms'.map value).flatMap framed
  sent : b'.connection.sent = b.connection.sent ++ [framedRequest a.value]

theorem Badge.Called.answered {b b' : Badge} {a : Ask} {tag : UInt8} {xs : List BadgeResponse}
    {ms' : List Response}
    (h : b.Called b' a.value tag xs ((ms'.map value).flatMap framed)) :
    Answered value a ms' b b' := ⟨h.connected, h.stream, h.sent⟩

variable (h : Seen value ms) {b : Badge} (hc : b.connection.connected = true)
  (hs : b.connection.stream = (ms.map value).flatMap framed) {a : Ask}

include h hc hs

/-- A call for one response. -/
theorem command_answered {x : Mark} {rest : List Mark} (hmarks : marks ms <+: x :: rest) :
    (∃ ms₁ m ms₂ b', ms = ms₁ ++ m :: ms₂ ∧ marks (ms₁ ++ [m]) = [x] ∧
      command a.value (responseTag x.type) b = (.ok (value m), b') ∧
      mark m = some x ∧ Answered value a ms₂ b b') ∨
    (marks ms = [] ∧ ∃ b', command a.value (responseTag x.type) b = (.error .waits, b') ∧
      b'.connection.sent = b.connection.sent ++ [framedRequest a.value]) := by
  rcases List.prefix_cons_iff.mp hmarks with hnone | ⟨ys, hys, -⟩
  · exact .inr ⟨hnone, command_waits a.value hc h.sendable_map (ofKind_unmarked h hnone) hs⟩
  · obtain ⟨ms₁, m, ms₂, rfl, hnone, hm, -⟩ := List.filterMap_eq_cons_iff.mp hys
    have hnone₁ : marks ms₁ = [] := List.filterMap_eq_nil_iff.mpr hnone
    have hmem : m ∈ ms₁ ++ m :: ms₂ := List.mem_append_right _ List.mem_cons_self
    have h₁ := h.of_subset (List.subset_append_left ms₁ (m :: ms₂))
    rw [List.map_append, List.flatMap_append, List.map_cons, List.flatMap_cons] at hs
    have hwhich : responseType.which (value m) = responseTag x.type := by
      rw [(h.shows m hmem).which_eq, mark_type hm]
    obtain ⟨b', hcall, hcalled⟩ := command_called a.value hc h₁.sendable_map
      (h.sendable m hmem) hwhich (ofKind_unmarked h₁ hnone₁) hs
    refine .inl ⟨ms₁, m, ms₂, b', rfl, ?_, hcall, hm, hcalled.answered⟩
    rw [marks_append, hnone₁, marks_cons_some hm]
    rfl

/-- A call for stored data. -/
theorem getData_answered {k : Sensor} {cs : List Chunk} {rest : List Mark}
    (hmarks : marks ms <+:
      (cs.map (fun c => Mark.data k (some (c.toResponse k))) ++ [.data k none]) ++ rest) :
    (∃ ms₁ ms₂ b', ms = ms₁ ++ ms₂ ∧
      marks ms₁ = cs.map (fun c => Mark.data k (some (c.toResponse k))) ++ [.data k none] ∧
      getData a.value (responseTag (.data k)) b = (.ok (cs.map (chunkValue k)), b') ∧
      Answered value a ms₂ b b') ∨
    (¬ cs.map (fun c => Mark.data k (some (c.toResponse k))) ++ [.data k none] <+: marks ms ∧
      ∃ b', getData a.value (responseTag (.data k)) b = (.error .waits, b') ∧
        b'.connection.sent = b.connection.sent ++ [framedRequest a.value]) := by
  by_cases hall :
      cs.map (fun c => Mark.data k (some (c.toResponse k))) ++ [.data k none] <+: marks ms
  · obtain ⟨later, hlater⟩ := hall
    rw [List.append_assoc] at hlater
    obtain ⟨ms₁, ms₂, rfl, hchunks, hlast⟩ := List.filterMap_eq_append_iff.mp hlater.symm
    obtain ⟨ms₃, m, ms₄, rfl, hnone, hm, -⟩ := List.filterMap_eq_cons_iff.mp hlast
    have hmem : m ∈ ms₁ ++ (ms₃ ++ m :: ms₄) :=
      List.mem_append_right _ (List.mem_append_right _ List.mem_cons_self)
    have h₁ : Seen value (ms₁ ++ ms₃) := h.of_subset fun y hy => by
      rw [← List.append_assoc]
      exact List.mem_append_left _ hy
    have hfront : marks (ms₁ ++ ms₃) =
        cs.map fun c => Mark.data k (some (c.toResponse k)) := by
      rw [marks_append, show marks ms₃ = [] from List.filterMap_eq_nil_iff.mpr hnone,
        List.append_nil]
      exact hchunks
    have hshows : responseType.which (value m) = responseTag (.data k) ∧
        lastResponse (value m) = true := by
      have hshows := h.shows m hmem
      cases m with
      | data i chunk =>
        cases hm
        exact hshows
      | _ => cases hm
    have hkind := ofKind_chunks h₁ hfront
    rw [← List.append_assoc, List.map_append, List.flatMap_append, List.map_cons,
      List.flatMap_cons] at hs
    obtain ⟨b', hcall, hcalled⟩ := getData_called a.value hc h₁.sendable_map
      (h.sendable m hmem) hshows.1 hshows.2 (hkind ▸ not_last_chunks k cs) hs
    refine .inl ⟨ms₁ ++ ms₃ ++ [m], ms₄, b', by simp, ?_, ?_, hcalled.answered⟩
    · rw [marks_append, hfront, marks_cons_some hm]
      rfl
    · rw [hcall, hkind]
  · have hpre := (List.prefix_concat_iff.mp (prefix_of_incomplete hall hmarks)).resolve_left
      fun heq => hall (heq ▸ List.prefix_refl _)
    obtain ⟨cs', -, hcs'⟩ := List.prefix_map_iff.mp hpre
    refine .inr ⟨hall, getData_waits a.value hc h.sendable_map ?_ hs⟩
    rw [ofKind_chunks h hcs']
    exact not_last_chunks k cs'

omit h in
/-- A call that waits for nothing. -/
theorem sendRequest_answered : ∃ b', sendRequest a.value b = (.ok (), b') ∧
    Answered value a ms b b' := by
  obtain ⟨b', hsend, hconnected, hstream, -, hsent⟩ := sendRequest_ok a.value hc
  exact ⟨b', hsend, hconnected, hstream.trans hs, hsent⟩

/-- A call gets its answer, or it waits for the rest of it. -/
theorem call_answered (htest : a.type ≠ .test) {rest : List Mark}
    (hmarks : marks ms <+: a.answer found ++ rest) :
    (∃ ms₁ ms₂ xs b', ms = ms₁ ++ ms₂ ∧ marks ms₁ = a.answer found ∧ a.call b = (.ok xs, b') ∧
      Right found ms₁ a xs ∧ Answered value a ms₂ b b') ∨
    (¬ a.answer found <+: marks ms ∧ ∃ b', a.call b = (.error .waits, b') ∧
      b'.connection.sent = b.connection.sent ++ [framedRequest a.value]) := by
  have hone {x : Mark} (hanswer : a.answer found = [x])
      (hcall : a.call = (do let y ← command a.value (responseTag x.type); pure [y]))
      (hright : ∀ ms₁ m, mark m = some x → m ∈ ms₁ → Shows m (value m) →
        Right found ms₁ a [value m]) :
      (∃ ms₁ ms₂ xs b', ms = ms₁ ++ ms₂ ∧ marks ms₁ = a.answer found ∧ a.call b = (.ok xs, b') ∧
        Right found ms₁ a xs ∧ Answered value a ms₂ b b') ∨
      (¬ a.answer found <+: marks ms ∧ ∃ b', a.call b = (.error .waits, b') ∧
        b'.connection.sent = b.connection.sent ++ [framedRequest a.value]) := by
    rw [hanswer] at hmarks ⊢
    rw [hcall]
    rcases command_answered h hc hs hmarks with
      ⟨ms₁, m, ms₂, b', hsplit, hx, hcommand, hm, hdone⟩ | ⟨hnone, b', hcommand, hsent⟩
    · have hmem : m ∈ ms := by
        rw [hsplit]
        exact List.mem_append_right _ List.mem_cons_self
      refine .inl ⟨ms₁ ++ [m], ms₂, [value m], b', by simp [hsplit], hx, ?_, ?_, hdone⟩
      · rw [Proc.bind_ok hcommand]
        rfl
      · exact hright _ m hm (List.mem_append_right _ List.mem_cons_self) (h.shows m hmem)
    · refine .inr ⟨?_, b', Proc.bind_error hcommand _, hsent⟩
      rw [hnone, List.prefix_nil]
      exact List.cons_ne_nil x []
  have hnothing (hanswer : a.answer found = [])
      (hcall : a.call = (do sendRequest a.value; pure [])) (hright : Right found [] a []) :
      ∃ ms₁ ms₂ xs b', ms = ms₁ ++ ms₂ ∧ marks ms₁ = a.answer found ∧ a.call b = (.ok xs, b') ∧
        Right found ms₁ a xs ∧ Answered value a ms₂ b b' := by
    obtain ⟨b', hsend, hdone⟩ := sendRequest_answered hc hs (a := a)
    refine ⟨[], ms, [], b', rfl, hanswer.symm, ?_, hright, hdone⟩
    rw [hcall, Proc.bind_ok hsend]
    rfl
  obtain ⟨v, r, htag⟩ := a
  cases r with
  | status =>
    refine hone rfl rfl fun ms₁ m hm hmem hshows => ?_
    cases m with
    | status r => exact ⟨r, hmem, congrArg (fun x => [x]) hshows⟩
    | _ => cases hm
  | start k =>
    refine hone rfl rfl fun ms₁ m hm hmem hshows => ?_
    cases m with
    | start i t =>
      cases hm
      exact ⟨t, hmem, congrArg (fun x => [x]) hshows⟩
    | _ => cases hm
  | data k =>
    rcases getData_answered h hc hs (a := ⟨v, .data k, htag⟩) hmarks with
      ⟨ms₁, ms₂, b', hsplit, hx, hcall, hdone⟩ | hwait
    · exact .inl ⟨ms₁, ms₂, _, b', hsplit, hx, hcall, rfl, hdone⟩
    · exact .inr hwait
  | test => exact absurd rfl htest
  | _ => exact .inl (hnothing rfl rfl rfl)

end Calls

/-- The results of a session: those of the calls whose answers are complete. The request of
the next call has been sent. -/
theorem session_answered {value : Response → BadgeResponse} {asks : List Ask}
    (htest : ∀ a ∈ asks, a.type ≠ .test) :
    ∀ {ms : List Response} {b : Badge}, Seen value ms → b.connection.connected = true →
      b.connection.stream = (ms.map value).flatMap framed →
      marks ms <+: (asks.map (Ask.answer found)).flatten →
      (session asks b).1.length = completed (asks.map (Ask.answer found)) (marks ms) ∧
      List.Forall₂ (Right found ms) (asks.take (session asks b).1.length) (session asks b).1 ∧
      (session asks b).2.connection.sent = b.connection.sent ++
        (asks.take (completed (asks.map (Ask.answer found)) (marks ms) + 1)).map
          fun a => framedRequest a.value := by
  induction asks with
  | nil =>
    intro ms b _ _ _ _
    exact ⟨rfl, .nil, (List.append_nil _).symm⟩
  | cons a asks ih =>
    intro ms b h hc hs hmarks
    rw [List.map_cons, List.flatten_cons] at hmarks
    rcases call_answered h hc hs (htest a List.mem_cons_self) hmarks with
      ⟨ms₁, ms₂, xs, b', rfl, hx, hcall, hright, hdone⟩ | ⟨hnot, b', hcall, hsent⟩
    · rw [marks_append, hx, List.prefix_append_right_inj] at hmarks
      obtain ⟨hlen, hrights, hsent⟩ := ih (fun c hc => htest c (List.mem_cons_of_mem a hc))
        (h.of_subset (List.subset_append_right ms₁ ms₂)) hdone.connected hdone.stream hmarks
      have hsession : session (a :: asks) b =
          (xs :: (session asks b').1, (session asks b').2) := by
        rw [session, hcall]
      rw [hsession, List.map_cons, marks_append, hx, completed_cons_append, List.take_succ_cons,
        List.length_cons, List.take_succ_cons, List.map_cons]
      refine ⟨congrArg _ hlen, .cons (hright.mono found (List.subset_append_left ms₁ ms₂)) ?_, ?_⟩
      · exact hrights.imp fun _ _ hr => hr.mono found (List.subset_append_right ms₁ ms₂)
      · rw [hsent, hdone.sent, List.append_assoc]
        rfl
    · have hsession : session (a :: asks) b = ([], b') := by
        rw [session, hcall]
      rw [hsession, List.map_cons, completed_cons_of_not hnot]
      exact ⟨rfl, .nil, hsent⟩

end OpenBadge.Framework
