import OpenBadge.Framework.Session
import OpenBadge.RequestHandler.Order

/-!
# Every kind of request is answered in order

For the status requests, for the start requests of a sensor and for the data requests of a
sensor: the responses of the kind that were transmitted are the front of the answers to the
requests of the kind that were taken.
-/

namespace OpenBadge.Framework

open OpenBadge.Lib OpenBadge.RequestHandler

variable {S : Type} {L : Libraries S} (found : Sensor → Timestamp → List Chunk)

/-- The marks of the answer to a request that was taken. -/
def requestMarks (q : Request) : List Mark :=
  match findRequestHandler q.whichType with
  | some r => answer found r q
  | none => []

theorem part_flatMap {α κ β : Type} [DecidableEq κ] {kind : α → κ} {k : κ} (f : β → List α)
    (l : List β) : part kind k (l.flatMap f) = l.flatMap fun x => part kind k (f x) := by
  induction l with
  | nil => rfl
  | cons x l ih => rw [List.flatMap_cons, part_append, ih, List.flatMap_cons]

theorem marks_eq_flatMap (ms : List Response) : marks ms = ms.flatMap fun m => (mark m).toList := by
  induction ms with
  | nil => rfl
  | cons m ms ih =>
    rw [List.flatMap_cons, ← ih]
    cases hm : mark m with
    | none => exact marks_cons_none hm ms
    | some x => exact marks_cons_some hm ms

/-! ## Data requests -/

theorem part_data_marks (k : Sensor) (ms : List Response) :
    part Mark.type (.data k) (marks ms) =
      (ms.flatMap fun m => (m.data? k).toList).map (Mark.data k) := by
  rw [marks_eq_flatMap, part_flatMap, List.map_flatMap]
  refine List.flatMap_congr fun m _ => ?_
  cases m with
  | data i chunk =>
    by_cases hi : i = k
    · subst hi
      rw [data?_self]
      exact part_singleton _
    · rw [show (Response.data i chunk).data? k = none from if_neg hi]
      refine part_eq_nil fun x hx => ?_
      obtain rfl : x = Mark.data i chunk := List.mem_singleton.mp hx
      exact fun h => hi (ResponseType.data.inj h)
  | status => rfl
  | start => rfl
  | stream => rfl
  | test => rfl

/-- The marks of the complete answer to a data request. -/
def dataMarks (k : Sensor) (t : Timestamp) : List Mark :=
  (found k t).map (fun c => Mark.data k (some (c.toResponse k))) ++ [.data k none]

theorem answer_type {r : RequestType} {q : Request} {x : Mark} (hx : x ∈ answer found r q) :
    awaited r = some x.type := by
  cases r with
  | status => rw [List.mem_singleton.mp hx]; rfl
  | start => rw [List.mem_singleton.mp hx]; rfl
  | data k =>
    rcases List.mem_append.mp hx with hx | hx
    · obtain ⟨c, -, rfl⟩ := List.mem_map.mp hx
      rfl
    · rw [List.mem_singleton.mp hx]
      rfl
  | _ => cases hx

/-- Of the marks of a request, those of one type are all or none. -/
theorem part_requestMarks (K : ResponseType) (q : Request) :
    part Mark.type K (requestMarks found q) =
      if (findRequestHandler q.whichType).bind awaited = some K then requestMarks found q
      else [] := by
  unfold requestMarks
  cases findRequestHandler q.whichType with
  | none =>
    rw [ite_self]
    rfl
  | some r =>
    change part Mark.type K (answer found r q) = if awaited r = some K then answer found r q else []
    by_cases hr : awaited r = some K
    · rw [if_pos hr]
      exact part_eq_self fun x hx => Option.some.inj ((answer_type found hx).symm.trans hr)
    · rw [if_neg hr]
      exact part_eq_nil fun x hx h => hr (h ▸ answer_type found hx)

theorem part_data_requests (k : Sensor) (qs : List Request) :
    part Mark.type (.data k) (qs.flatMap (requestMarks found)) =
      (qs.flatMap (Request.dataFor k)).flatMap (dataMarks found k) := by
  rw [part_flatMap, List.flatMap_assoc]
  refine List.flatMap_congr fun q _ => ?_
  rw [part_requestMarks, Request.dataFor]
  by_cases hq : findRequestHandler q.whichType = some (.data k)
  · rw [if_pos (by rw [hq]; rfl), if_pos hq, List.flatMap_singleton, requestMarks, hq]
    rfl
  · rw [if_neg hq, if_neg]
    · rfl
    · intro h
      obtain ⟨r, hr, ha⟩ := Option.bind_eq_some_iff.mp h
      cases r <;> cases ha
      exact hq hr

/-- The chunks of the answers to the data requests that were taken, as marks. -/
theorem dataAnswers_marks (k : Sensor) (s : State S) :
    (dataAnswers found k s).map (fun x => Mark.data k x.2) =
      ((s.dataAsked k).map Prod.snd).flatMap (dataMarks found k) := by
  rw [dataAnswers, List.map_flatMap, List.flatMap_map]
  refine List.flatMap_congr fun x _ => ?_
  rw [dataAnswer, dataMarks, List.map_append, List.map_map]
  rfl

theorem data_parts {k : Sensor} {s : State S} (hfaithful : ∀ e ∈ s.trace, e.Faithful L) :
    part Mark.type (.data k) (marks s.responses) =
      (s.dataSent k).map (fun x => Mark.data k x.2) ∧
    part Mark.type (.data k) (s.requests.flatMap (requestMarks found)) =
      (dataAnswers found k s).map fun x => Mark.data k x.2 := by
  refine ⟨?_, ?_⟩
  · rw [part_data_marks, ← dataSent_eq, List.map_map]
    rfl
  · rw [part_data_requests, ← dataAsked_eq k hfaithful, dataAnswers_marks]

/-! ## Status and start requests -/

/-- The types of the status and start responses. -/
def ownType (m : Response) : List ResponseType := (m.stamp.map Stamp.type).toList

/-- The types of the responses that the status and start requests are due. -/
def dueType (q : Request) : List ResponseType :=
  ((findRequestHandler q.whichType).bind RequestType.answer).toList

theorem answered_types (s : State S) :
    s.answered.map (fun x => x.2.type) = s.responses.flatMap ownType := by
  unfold State.answered State.responses
  rw [gather_map, gather_flatMap]
  refine gather_congr fun e _ => ?_
  cases e with
  | transmit o m bytes sent =>
    cases sent with
    | false => rfl
    | true =>
      change (numbered o m.stamp).map (fun x => x.2.type) = [m].flatMap ownType
      rw [List.flatMap_singleton, ownType, numbered]
      cases m.stamp <;> rfl
  | _ => rfl

theorem stamp_type (t : Timestamp) (clock : Bool) (r : RequestType) :
    (r.stamp t clock).map Stamp.type = r.answer := by
  cases r <;> rfl

theorem asked_types {s : State S} (h : ∀ e ∈ s.trace, e.Faithful L) :
    s.asked.map (fun x => x.2.type) = s.requests.flatMap dueType := by
  unfold State.asked State.requests
  rw [gather_map, gather_flatMap]
  refine gather_congr fun e he => ?_
  cases e with
  | taken o r c q =>
    have hr : findRequestHandler q.whichType = some r := h _ he
    change (numbered o (r.stamp c.notification.timestamp c.clockStatus)).map (fun x => x.2.type) =
      [q].flatMap dueType
    rw [List.flatMap_singleton, dueType, hr, Option.bind_some, ← stamp_type c.notification.timestamp
      c.clockStatus r, numbered]
    cases r.stamp c.notification.timestamp c.clockStatus <;> rfl
  | _ => rfl

/-- The mark of a status or start response. -/
def ownMark : ResponseType → Option Mark
  | .status => some .status
  | .start k => some (.start k)
  | _ => none

theorem part_ownMark {K : ResponseType} {x : Mark} (hx : ownMark K = some x) (r : ResponseType) :
    part Mark.type K (ownMark r).toList = ([r].filter fun r => r = K).map fun _ => x := by
  have htype {r : ResponseType} {y : Mark} (hy : ownMark r = some y) : y.type = r := by
    cases r <;> cases hy <;> rfl
  by_cases hr : r = K
  · subst hr
    rw [hx, List.filter_cons_of_pos (by simp)]
    exact part_eq_self fun y hy => (List.mem_singleton.mp hy) ▸ htype hx
  · rw [List.filter_cons_of_neg (by simpa using hr)]
    refine part_eq_nil fun y hy => ?_
    rw [htype (Option.mem_toList.mp hy)]
    exact hr

theorem part_own_marks {K : ResponseType} {x : Mark} (hx : ownMark K = some x)
    (ms : List Response) : part Mark.type K (marks ms) =
      ((ms.flatMap ownType).filter fun r => r = K).map fun _ => x := by
  rw [marks_eq_flatMap, part_flatMap, List.filter_flatMap, List.map_flatMap]
  refine List.flatMap_congr fun m _ => ?_
  cases m with
  | status => exact part_ownMark hx .status
  | start k => exact part_ownMark hx (.start k)
  | data k =>
    refine part_eq_nil fun y hy => ?_
    obtain rfl := List.mem_singleton.mp hy
    rintro rfl
    cases hx
  | stream => rfl
  | test => rfl

theorem part_own_requests {K : ResponseType} {x : Mark} (hx : ownMark K = some x)
    (qs : List Request) : part Mark.type K (qs.flatMap (requestMarks found)) =
      ((qs.flatMap dueType).filter fun r => r = K).map fun _ => x := by
  rw [part_flatMap, List.filter_flatMap, List.map_flatMap]
  refine List.flatMap_congr fun q _ => ?_
  rw [requestMarks, dueType]
  cases findRequestHandler q.whichType with
  | none => rfl
  | some r =>
    cases r with
    | status => exact part_ownMark hx .status
    | start k => exact part_ownMark hx (.start k)
    | data k =>
      refine part_eq_nil fun y hy h => ?_
      have htype := answer_type found (r := .data k) hy
      rw [h] at htype
      cases htype
      cases hx
    | _ => rfl

theorem own_prefix {K : ResponseType} {x : Mark} (hx : ownMark K = some x) {s : State S}
    (hfaithful : ∀ e ∈ s.trace, e.Faithful L) (hpre : s.answered <+: s.asked) :
    part Mark.type K (marks s.responses) <+:
      part Mark.type K (s.requests.flatMap (requestMarks found)) := by
  rw [part_own_marks hx, part_own_requests found hx, ← answered_types, ← asked_types hfaithful]
  exact ((hpre.map _).filter _).map _

/-! ## All of them -/

/-- The marks of a type that nobody waits for. -/
theorem part_none {K : ResponseType} (hK : K = .stream ∨ K = .test) (xs : List Mark) :
    part Mark.type K xs = [] := by
  refine part_eq_nil fun x _ h => ?_
  rcases hK with rfl | rfl <;> cases x <;> cases h

/-- Nothing is answered that was not asked. -/
theorem parts_begin {s : State S} (hfaithful : ∀ e ∈ s.trace, e.Faithful L)
    (hchained : Chained L found s) (horder : InOrder s) (K : ResponseType) :
    part Mark.type K (marks s.responses) <+:
      part Mark.type K (s.requests.flatMap (requestMarks found)) := by
  have hpre : s.answered <+: s.asked := by
    rw [horder.order, List.append_assoc]
    exact List.prefix_append ..
  cases K with
  | status => exact own_prefix found rfl hfaithful hpre
  | start k => exact own_prefix found rfl hfaithful hpre
  | data k =>
    rw [(data_parts found hfaithful).1, (data_parts found hfaithful).2]
    refine List.IsPrefix.map _ ?_
    rcases hchained.chain k with ⟨-, h⟩ | ⟨o, cs, -, -, h⟩
    · exact ⟨[], by rw [h, List.append_nil]⟩
    · rw [h]
      exact List.prefix_append ..
  | stream => rw [part_none (.inl rfl)]; exact List.nil_prefix
  | test => rw [part_none (.inr rfl)]; exact List.nil_prefix

/-- No handler is queued that a client waits for. -/
def Settled (s : State S) : Prop :=
  ∀ e ∈ s.queue, (∀ k, e.handler ≠ .response (.data k)) ∧ e.handler.owns = false

/-- Then everything that was asked is answered. -/
theorem parts_eq {s : State S} (hfaithful : ∀ e ∈ s.trace, e.Faithful L)
    (hchained : Chained L found s) (horder : InOrder s) (hsettled : Settled s)
    (K : ResponseType) : part Mark.type K (marks s.responses) =
      part Mark.type K (s.requests.flatMap (requestMarks found)) := by
  have hsenders : senders s.queue = [] := List.filter_eq_nil_iff.mpr fun e he => by
    have hplain := hchained.plain e he
    intro hsend
    rw [decide_eq_true_iff] at hsend
    rw [hsend] at hplain
    cases hplain
  have howners : owners s.queue = [] :=
    List.filter_eq_nil_iff.mpr fun e he => by simp [(hsettled e he).2]
  have hall : s.answered = s.asked := by
    rw [horder.order, hsenders, howners]
    simp
  have hown {x : Mark} (hx : ownMark K = some x) : part Mark.type K (marks s.responses) =
      part Mark.type K (s.requests.flatMap (requestMarks found)) := by
    rw [part_own_marks hx, part_own_requests found hx, ← answered_types,
      ← asked_types hfaithful, hall]
  cases K with
  | status => exact hown rfl
  | start k => exact hown rfl
  | data k =>
    rw [(data_parts found hfaithful).1, (data_parts found hfaithful).2]
    refine congrArg _ ?_
    rcases hchained.chain k with ⟨-, h⟩ | ⟨o, cs, h, -⟩
    · exact h.symm
    · have hmem : ⟨.response (.data k), o⟩ ∈ dataEvents k s.queue := h ▸ List.mem_cons_self
      exact absurd rfl ((hsettled _ (List.mem_filter.mp hmem).1).1 k)
  | stream => rw [part_none (.inl rfl), part_none (.inl rfl)]
  | test => rw [part_none (.inr rfl), part_none (.inr rfl)]

end OpenBadge.Framework
