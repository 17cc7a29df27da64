import OpenBadge.RequestHandler.Timing

/-!
# Data requests are answered completely

The answer to a data request is a chain of response handlers over the one
iterator its partition has. The chain sends everything the storer has found as
long as no other data request of the same kind is handled before its end.
-/

namespace OpenBadge.RequestHandler

open OpenBadge.Lib

variable {S : Type} (L : Libraries S) (a : Answers)

/-- From the storer state `u` on, the calls of `storer_get_next_*_chunk` give `cs` and then the
end of the data. -/
inductive Yield (k : Sensor) : S → List Chunk → Prop
  | ends {u : S} {e : RetCode} (last : (L.getNextChunk k u).1 = .error e)
      (ends : e = .notFound ∨ e = .invalidState) : Yield k u []
  | chunk {u u' : S} {c : Chunk} {cs : List Chunk} (next : L.getNextChunk k u = (.ok c, u'))
      (rest : Yield k u' cs) : Yield k u (c :: cs)

/-- A storer without storage errors and new stores: from a timestamp on it finds always the same
chunks, and each kind of data has an iterator of its own. -/
structure Libraries.Finds (found : Sensor → Timestamp → List Chunk) : Prop where
  ready : ∀ k t u, (L.findChunk k t u).1 = .ok () ∨ (L.findChunk k t u).1 = .error .invalidState
  find : ∀ k t u, Yield L k (L.findChunk k t u).2 (found k t)
  find_other : ∀ k i t u cs, i ≠ k → Yield L i u cs → Yield L i (L.findChunk k t u).2 cs
  next_other : ∀ k i u cs, i ≠ k → Yield L i u cs → Yield L i (L.getNextChunk k u).2 cs

def Entry.dataAsked (k : Sensor) : Entry → List (Nat × Timestamp)
  | .taken o (.data i) _ request => if i = k then [(o, request.data.timestamp k)] else []
  | _ => []

def Response.data? (k : Sensor) : Response → Option (Option Chunk)
  | .data i chunk => if i = k then some chunk else none
  | _ => none

theorem data?_self (k : Sensor) (chunk : Option Chunk) :
    (Response.data k chunk).data? k = some chunk := if_pos rfl

def Entry.dataSent (k : Sensor) : Entry → List (Nat × Option Chunk)
  | .transmit o m _ true => (m.data? k).toList.map fun x => (o, x)
  | _ => []

/-- The data requests for `k` that were taken, with their timestamps. -/
def State.dataAsked (k : Sensor) (s : State S) : List (Nat × Timestamp) :=
  gather (Entry.dataAsked k) s.trace

/-- The data responses for `k` that were transmitted; `none` is the last response. -/
def State.dataSent (k : Sensor) (s : State S) : List (Nat × Option Chunk) :=
  gather (Entry.dataSent k) s.trace

/-- The complete answer to request number `o`: the chunks, and one last response. -/
def dataAnswer (k : Sensor) (o : Nat) (cs : List Chunk) : List (Nat × Option Chunk) :=
  cs.map (fun c => (o, some (c.toResponse k))) ++ [(o, none)]

/-- The complete answers, request by request. -/
def dataAnswers (found : Sensor → Timestamp → List Chunk) (k : Sensor) (s : State S) :
    List (Nat × Option Chunk) :=
  (s.dataAsked k).flatMap fun r => dataAnswer k r.1 (found k r.2)

/-- The data response handlers for `k` on the queue. -/
def dataEvents (k : Sensor) (es : List Event) : List Event :=
  es.filter fun e => e.handler = .response (.data k)

@[simp] theorem dataEvents_append (k : Sensor) (es es' : List Event) :
    dataEvents k (es ++ es') = dataEvents k es ++ dataEvents k es' := List.filter_append ..

theorem dataEvents_cons_of_ne {k : Sensor} {e : Event} (h : e.handler ≠ .response (.data k))
    (es : List Event) : dataEvents k (e :: es) = dataEvents k es :=
  List.filter_cons_of_neg (by simpa using h)

variable (found : Sensor → Timestamp → List Chunk)

/-- Everything was answered, or the answer to the last request goes on. -/
def Chain (k : Sensor) (s : State S) : Prop :=
  dataEvents k s.queue = [] ∧ dataAnswers found k s = s.dataSent k ∨
  ∃ o cs, dataEvents k s.queue = [⟨.response (.data k), o⟩] ∧ Yield L k s.storer cs ∧
    dataAnswers found k s = s.dataSent k ++ dataAnswer k o cs

/-- Neither a response nor a data request is tried again. -/
def Handler.plain : Handler → Bool
  | .sendResponse => false
  | .request (.data _) => false
  | _ => true

structure Chained (s : State S) : Prop where
  chain : ∀ k, Chain L found k s
  plain : ∀ e ∈ s.queue, e.handler.plain = true

theorem dataAnswers_congr {k : Sensor} {s t : State S} (h : t.dataAsked k = s.dataAsked k) :
    dataAnswers found k t = dataAnswers found k s := by
  unfold dataAnswers
  rw [h]

variable {L found} in
theorem Chain.mono {k : Sensor} {s t : State S} (h : Chain L found k s)
    (hq : dataEvents k t.queue = dataEvents k s.queue)
    (hu : ∀ cs, Yield L k s.storer cs → Yield L k t.storer cs)
    (hasked : t.dataAsked k = s.dataAsked k) (hsent : t.dataSent k = s.dataSent k) :
    Chain L found k t := by
  have hans := dataAnswers_congr found hasked
  rcases h with ⟨h1, h2⟩ | ⟨o, cs, h1, h2, h3⟩
  · exact .inl ⟨hq.trans h1, by rw [hans, hsent, h2]⟩
  · exact .inr ⟨o, cs, hq.trans h1, hu cs h2, by rw [hans, hsent, h3]⟩

/-- A response for something else than data for `k` is sent. -/
theorem Sends.chain {k : Sensor} {s t : State S} (h : Sends L a s t) (ok : a.transmit = .ok ())
    (herr : .error ∉ t.trace) (hm : s.responseEvent.response.data? k = none)
    (hn : dataEvents k s.responseEvent.next = []) (hs : Chain L found k s) :
    Chain L found k t := by
  cases h with
  | dropped => exact absurd List.mem_cons_self herr
  | sent =>
    refine hs.mono ?_ (fun cs h => h) (List.append_nil _) ?_
    · change dataEvents k (s.queue ++ s.responseEvent.next) = _
      rw [dataEvents_append, hn, List.append_nil]
    · change s.dataSent k ++ ((s.responseEvent.response.data? k).toList.map _) = _
      rw [hm]
      exact List.append_nil _
  | retried _ noMem =>
    rw [ok] at noMem
    cases noMem

/-- A data response for `k` is sent. -/
theorem Sends.data {k : Sensor} {s t : State S} (h : Sends L a s t) (ok : a.transmit = .ok ())
    (herr : .error ∉ t.trace) {x : Option Chunk} (hm : s.responseEvent.response.data? k = some x) :
    t.queue = s.queue ++ s.responseEvent.next ∧ t.storer = s.storer ∧
      t.dataAsked k = s.dataAsked k ∧
      t.dataSent k = s.dataSent k ++ [(s.responseEvent.origin, x)] := by
  cases h with
  | dropped => exact absurd List.mem_cons_self herr
  | sent =>
    refine ⟨rfl, rfl, List.append_nil _, ?_⟩
    change s.dataSent k ++ ((s.responseEvent.response.data? k).toList.map _) = _
    rw [hm]
    rfl
  | retried _ noMem =>
    rw [ok] at noMem
    cases noMem

theorem StreamEnds.chain {k : Sensor} {o : Nat} {b : Bool} {s t : State S}
    (h : StreamEnds a s o b t) (hs : Chain L found k s) : Chain L found k t := by
  cases h with
  | pumped =>
    refine hs.mono ?_ (fun cs h => h) rfl rfl
    change dataEvents k (s.queue ++ [_]) = _
    rw [dataEvents_append]
    exact List.append_nil _
  | idle => exact hs
  | stopped => exact hs

/-- The handler of another kind of response runs. -/
theorem Responds.chain_other (hL : L.Finds found) {k : Sensor} {o : Nat} {r : ResponseType}
    {s t : State S} (h : Responds L a o s r t) (ok : a.transmit = .ok ())
    (herr : .error ∉ t.trace) (hr : r ≠ .data k) (hs : Chain L found k s)
    (hy : ∀ i, r = .data i → ∃ cs, Yield L i s.storer cs) : Chain L found k t := by
  have hadd {x : Event} (hx : x.handler ≠ .response (.data k)) :
      dataEvents k (s.queue ++ [x]) = dataEvents k s.queue := by
    rw [dataEvents_append, dataEvents_cons_of_ne hx]
    exact List.append_nil _
  have hother {i : Sensor} (hi : r = .data i) : i ≠ k := fun h => hr (by rw [hi, h])
  cases h with
  | busy => exact hs.mono (hadd (by simpa using hr)) (fun cs h => h) rfl rfl
  | @answered _ m _ _ own sends =>
    refine sends.chain L a found ok herr ?_ rfl (hs.mono (hadd (by simp)) (fun cs h => h) rfl rfl)
    cases r <;> first | (cases own; rfl) | cases own
  | @chunk i c u _ _ next sends =>
    refine sends.chain L a found ok herr (if_neg (hother rfl)) ?_
      (hs.mono rfl (fun cs h => ?_) rfl rfl)
    · exact List.filter_cons_of_neg (by simpa using hother rfl)
    · have := hL.next_other i k s.storer cs (hother rfl).symm h
      rw [next] at this
      exact this
  | @last i e u _ _ next ends sends =>
    refine sends.chain L a found ok herr (if_neg (hother rfl)) rfl
      (hs.mono rfl (fun cs h => ?_) rfl rfl)
    have := hL.next_other i k s.storer cs (hother rfl).symm h
    rw [next] at this
    exact this
  | @kept i e u _ next fails =>
    obtain ⟨cs, hcs⟩ := hy i rfl
    cases hcs with
    | ends last ends =>
      rw [next] at last
      cases last
      exact absurd ends fails
    | chunk next' =>
      rw [next] at next'
      cases next'
  | tested _ sends => exact sends.chain L a found ok herr rfl rfl hs
  | quiet _ _ ends => exact ends.chain L a found hs
  | streamed _ _ sends ends =>
    rw [ends.trace_eq] at herr
    exact ends.chain L a found (sends.chain L a found ok herr rfl rfl hs)

/-- The next handler of the chain runs. -/
theorem Responds.chain_own {k : Sensor} {o : Nat} {s t : State S}
    (h : Responds L a o s (.data k) t) (ok : a.transmit = .ok ()) (herr : .error ∉ t.trace)
    (hq : dataEvents k s.queue = []) {cs : List Chunk} (hy : Yield L k s.storer cs)
    (hs : dataAnswers found k s = s.dataSent k ++ dataAnswer k o cs) : Chain L found k t := by
  have hone : dataEvents k (s.queue ++ [⟨.response (.data k), o⟩]) =
      [⟨.response (.data k), o⟩] := by
    rw [dataEvents_append, hq]
    simp [dataEvents]
  cases h with
  | busy => exact .inr ⟨o, cs, hone, hy, hs⟩
  | answered _ own => cases own
  | @chunk _ c u _ _ next sends =>
    cases hy with
    | ends last => rw [next] at last; cases last
    | @chunk _ _ _ cs' next' rest =>
      rw [next] at next'
      cases next'
      obtain ⟨h1, h2, h3, h4⟩ := sends.data L a ok herr (data?_self k _)
      refine .inr ⟨o, cs', by rw [h1]; exact hone, by rw [h2]; exact rest, ?_⟩
      rw [dataAnswers_congr found h3, h4]
      change dataAnswers found k s = s.dataSent k ++ [(o, some (c.toResponse k))] ++ _
      rw [hs]
      simp [dataAnswer]
  | @last _ e u _ _ next ends sends =>
    cases hy with
    | chunk next' => rw [next] at next'; cases next'
    | ends last =>
      obtain ⟨h1, -, h3, h4⟩ := sends.data L a ok herr (data?_self k _)
      refine .inl ⟨?_, ?_⟩
      · rw [h1]
        change dataEvents k (s.queue ++ []) = []
        rw [List.append_nil, hq]
      · rw [dataAnswers_congr found h3, h4]
        exact hs
  | @kept _ e u _ next fails =>
    cases hy with
    | ends last ends =>
      rw [next] at last
      cases last
      exact absurd ends fails
    | chunk next' =>
      rw [next] at next'
      cases next'

theorem dataAsked_of_isCall (k : Sensor) (e : Entry) (h : e.isCall = true) :
    e.dataAsked k = [] := by
  cases e <;> first | rfl | cases h

theorem dataSent_of_isCall (k : Sensor) (e : Entry) (h : e.isCall = true) :
    e.dataSent k = [] := by
  cases e <;> first | rfl | cases h

theorem dataAsked_taken {k : Sensor} {r : RequestType} (hr : r ≠ .data k) (o : Nat) (c : Capture)
    (q : Request) : (Entry.taken o r c q).dataAsked k = [] := by
  cases r with
  | data i => exact if_neg fun h => hr (by rw [h])
  | _ => rfl

variable {L found} in
/-- Calls are made and events of other kinds are put on the queue. -/
theorem Chain.calls {k : Sensor} {s t : State S} (hs : Chain L found k s) {calls : List Entry}
    {es : List Event} (htr : t.trace = calls ++ s.trace) (only : ∀ e ∈ calls, e.isCall = true)
    (hq : t.queue = s.queue ++ es) (hes : dataEvents k es = []) (hu : t.storer = s.storer) :
    Chain L found k t := by
  refine hs.mono ?_ (fun cs h => hu ▸ h) ?_ ?_
  · rw [hq, dataEvents_append, hes, List.append_nil]
  · unfold State.dataAsked
    rw [htr, gather_append fun e he => dataAsked_of_isCall k e (only e he)]
  · unfold State.dataSent
    rw [htr, gather_append fun e he => dataSent_of_isCall k e (only e he)]

/-- The storer does not make a data request wait. -/
theorem Libraries.Finds.not_fails (hL : L.Finds found) {k : Sensor} {t : Timestamp} {u u' : S}
    {e : RetCode} (he : e ≠ .invalidState) : L.findChunk k t u ≠ (.error e, u') := by
  intro h
  have hready := hL.ready k t u
  rw [h] at hready
  rcases hready with h | h
  · cases h
  · exact he (Except.error.inj h)

theorem Handles.chain_other (hL : L.Finds found) {k : Sensor} {o : Nat} {r : RequestType}
    {s t : State S} (h : Handles L a o s r t) (herr : .error ∉ t.trace) (hr : r ≠ .data k)
    (hs : Chain L found k s) : Chain L found k t := by
  cases h with
  | retried _ only fails =>
    rcases fails with ⟨i, e, -, he, hf⟩ | ⟨-, hu, -⟩
    · exact absurd hf (hL.not_fails L found he)
    · exact hs.calls rfl only rfl (List.filter_cons_of_neg (by simp)) hu
  | @answered _ q _ _ answer only =>
    refine hs.calls rfl only rfl (List.filter_cons_of_neg ?_) rfl
    cases r <;> cases answer <;> simp
  | dropped => exact absurd List.mem_cons_self herr
  | @found i e u find ready =>
    have hi : k ≠ i := fun h => hr (by rw [h])
    refine hs.mono ?_ (fun cs hcs => ?_) rfl rfl
    · change dataEvents k (s.queue ++ [_, _]) = _
      rw [dataEvents_append, dataEvents_cons_of_ne (by simpa using hi.symm)]
      exact List.append_nil _
    · have := hL.find_other i k (s.requestEvent.request.data.timestamp i) _ cs hi hcs
      rw [find] at this
      exact this
  | joins _ _ only => exact hs.calls rfl only rfl rfl rfl
  | starts _ _ only => exact hs.calls rfl only rfl rfl rfl
  | finished => exact hs.calls (List.nil_append _).symm (by simp) rfl rfl rfl
  | tested => exact hs.calls (List.nil_append _).symm (by simp) rfl rfl rfl

/-- A data request is handled when no answer of its kind goes on. -/
theorem Handles.chain_own (hL : L.Finds found) {k : Sensor} {o : Nat} {s t : State S}
    (h : Handles L a o s (.data k) t) (hq : dataEvents k s.queue = [])
    (hs : dataAnswers found k s = s.dataSent k ++
      dataAnswer k o (found k (s.requestEvent.request.data.timestamp k))) :
    Chain L found k t := by
  cases h with
  | retried _ _ fails =>
    rcases fails with ⟨i, e, hi, he, hf⟩ | ⟨h, -⟩
    · exact absurd hf (hL.not_fails L found he)
    · exact absurd rfl (h k)
  | answered answer => cases answer
  | @found _ e u find ready =>
    refine .inr ⟨o, _, ?_, ?_, hs⟩
    · change dataEvents k (s.queue ++ [_, _]) = _
      rw [dataEvents_append, hq]
      simp [dataEvents]
    · have := hL.find k (s.requestEvent.request.data.timestamp k) s.storer
      rw [find] at this
      exact this
  | finished immediate => cases immediate

/-- The events that the handlers put on the queue. -/
theorem Sends.plain {s t : State S} (h : Sends L a s t) (ok : a.transmit = .ok ())
    (herr : .error ∉ t.trace) (hs : ∀ e ∈ s.queue, e.handler.plain = true)
    (hn : ∀ e ∈ s.responseEvent.next, e.handler.plain = true) :
    ∀ e ∈ t.queue, e.handler.plain = true := by
  cases h with
  | dropped => exact absurd List.mem_cons_self herr
  | sent =>
    intro e he
    rcases List.mem_append.mp he with he | he
    · exact hs e he
    · exact hn e he
  | retried _ noMem =>
    rw [ok] at noMem
    cases noMem

theorem plain_append {es es' : List Event} (h : ∀ e ∈ es, e.handler.plain = true)
    (h' : ∀ e ∈ es', e.handler.plain = true) : ∀ e ∈ es ++ es', e.handler.plain = true := by
  intro e he
  rcases List.mem_append.mp he with he | he
  · exact h e he
  · exact h' e he

theorem StreamEnds.plain {o : Nat} {b : Bool} {s t : State S} (h : StreamEnds a s o b t)
    (hs : ∀ e ∈ s.queue, e.handler.plain = true) : ∀ e ∈ t.queue, e.handler.plain = true := by
  cases h with
  | pumped => exact plain_append hs (by simp [Handler.plain])
  | idle => exact hs
  | stopped => exact hs

theorem Responds.plain {o : Nat} {r : ResponseType} {s t : State S} (h : Responds L a o s r t)
    (ok : a.transmit = .ok ()) (herr : .error ∉ t.trace)
    (hs : ∀ e ∈ s.queue, e.handler.plain = true) : ∀ e ∈ t.queue, e.handler.plain = true := by
  cases h with
  | busy => exact plain_append hs (by simp [Handler.plain])
  | answered _ _ sends =>
    exact sends.plain L a ok herr (plain_append hs (by simp [Handler.plain]))
      (by simp [ResponseEvent.next])
  | chunk _ _ sends =>
    exact sends.plain L a ok herr hs (by simp [ResponseEvent.next, Handler.plain])
  | last _ _ _ sends => exact sends.plain L a ok herr hs (by simp [ResponseEvent.next])
  | kept => exact plain_append hs (by simp [Handler.plain])
  | tested _ sends => exact sends.plain L a ok herr hs (by simp [ResponseEvent.next])
  | quiet _ _ ends => exact ends.plain a hs
  | streamed _ _ sends ends =>
    rw [ends.trace_eq] at herr
    exact ends.plain a (sends.plain L a ok herr hs (by simp [ResponseEvent.next]))

theorem Handles.plain (hL : L.Finds found) {o : Nat} {r : RequestType} {s t : State S}
    (h : Handles L a o s r t) (hs : ∀ e ∈ s.queue, e.handler.plain = true) :
    ∀ e ∈ t.queue, e.handler.plain = true := by
  cases h with
  | retried _ _ fails =>
    rcases fails with ⟨i, e, -, he, hf⟩ | ⟨hr, -⟩
    · exact absurd hf (hL.not_fails L found he)
    · refine plain_append hs ?_
      intro e he
      obtain rfl := List.mem_singleton.mp he
      cases r <;> first | rfl | exact absurd rfl (hr _)
  | answered => exact plain_append hs (by simp [Handler.plain])
  | dropped => exact hs
  | _ => exact plain_append hs (by simp [Handler.plain])

/-- The data request that is about to be handled. -/
def Stage.dataRequest : Stage → Option Sensor
  | .handle _ (.data k) => some k
  | _ => none

/-- The answer to a data request of the same kind is complete before the next is handled, nothing
is stored, and every response finds room in the transmit FIFO. -/
def OneByOne (s : State S) : Action S → Prop
  | .dispatch a => a.transmit = .ok () ∧ ∀ k ∈ s.stage.dataRequest,
      ∀ e ∈ s.queue, e.handler ≠ .response (.data k)
  | .store _ => False
  | _ => True

instance (s : State S) : ∀ x, Decidable (OneByOne s x)
  | .dispatch a => inferInstanceAs (Decidable (a.transmit = .ok () ∧
      ∀ k ∈ s.stage.dataRequest, ∀ e ∈ s.queue, e.handler ≠ .response (.data k)))
  | .packet _ _ _ => .isTrue trivial
  | .connect => .isTrue trivial
  | .disconnect => .isTrue trivial
  | .samplingTimeout _ _ _ => .isTrue trivial
  | .awaitTimeout => .isTrue trivial
  | .store _ => .isFalse id

theorem Runs.chained (hL : L.Finds found) {e : Event} {es : List Event} {s t : State S}
    (hs : Chained L found s) (hq : s.queue = e :: es) (h : Runs L a e { s with queue := es } t)
    (ok : a.transmit = .ok ()) (herr : .error ∉ t.trace) : Chained L found t := by
  have hmem : ∀ x ∈ es, x.handler.plain = true := by
    intro x hx
    exact hs.plain x (by rw [hq]; exact List.mem_cons_of_mem _ hx)
  have hplain : e.handler.plain = true := hs.plain e (by rw [hq]; exact List.mem_cons_self)
  have pop {k : Sensor} (hne : e.handler ≠ .response (.data k)) :
      Chain L found k { s with queue := es } := by
    refine (hs.chain k).mono ?_ (fun cs h => h) rfl rfl
    rw [hq]
    exact (dataEvents_cons_of_ne hne es).symm
  have popOwn {k : Sensor} (he : e.handler = .response (.data k)) : ∃ cs,
      dataEvents k es = [] ∧ Yield L k s.storer cs ∧
      dataAnswers found k s = s.dataSent k ++ dataAnswer k e.origin cs := by
    have hcons : dataEvents k s.queue = e :: dataEvents k es := by
      rw [hq]
      exact List.filter_cons_of_pos (by simpa using he)
    rcases hs.chain k with ⟨h1, -⟩ | ⟨o, cs, h1, h2, h3⟩
    · rw [hcons] at h1
      cases h1
    · rw [hcons] at h1
      obtain ⟨rfl, hnil⟩ := List.cons.inj h1
      exact ⟨cs, hnil, h2, h3⟩
  cases h with
  | waits process =>
    refine ⟨fun k => ?_, plain_append hmem (by simp [Handler.plain])⟩
    refine (pop (by rw [process]; simp)).mono ?_ (fun cs h => h) rfl rfl
    change dataEvents k (es ++ [_]) = _
    rw [dataEvents_append]
    exact List.append_nil _
  | rests process => exact ⟨fun k => pop (by rw [process]; simp), hmem⟩
  | begins process => exact ⟨fun k => pop (by rw [process]; simp), hmem⟩
  | sends send =>
    rw [send] at hplain
    cases hplain
  | @handles r _ request run =>
    refine ⟨fun k => ?_, run.plain L a found hL hmem⟩
    refine run.chain_other L a found hL herr ?_ (pop (by rw [request]; simp))
    rintro rfl
    rw [request] at hplain
    cases hplain
  | @responds r _ response run =>
    refine ⟨fun k => ?_, run.plain L a ok herr hmem⟩
    by_cases hr : r = .data k
    · subst hr
      obtain ⟨cs, h1, h2, h3⟩ := popOwn response
      exact run.chain_own L a found ok herr h1 h2 h3
    · refine run.chain_other L a found hL ok herr hr (pop (by rw [response]; simpa using hr)) ?_
      rintro i rfl
      obtain ⟨cs, -, h, -⟩ := popOwn response
      exact ⟨cs, h⟩

theorem Continues.chained (hL : L.Finds found) {s t : State S} (hs : Chained L found s)
    (h : Continues L a s t) (herr : .error ∉ t.trace)
    (hone : ∀ k ∈ s.stage.dataRequest, ∀ e ∈ s.queue, e.handler ≠ .response (.data k)) :
    Chained L found t := by
  have same {t : State S} (hq : t.queue = s.queue) (hu : t.storer = s.storer)
      (hasked : ∀ k, t.dataAsked k = s.dataAsked k) (hsent : ∀ k, t.dataSent k = s.dataSent k) :
      Chained L found t :=
    ⟨fun k => (hs.chain k).mono (by rw [hq]) (fun cs h => hu ▸ h) (hasked k) (hsent k),
      hq ▸ hs.plain⟩
  cases h with
  | decodes =>
    exact same rfl rfl (fun k => List.append_nil _) fun k => List.append_nil _
  | rejects => exact absurd List.mem_cons_self herr
  | loses => exact absurd List.mem_cons_self herr
  | lacks => exact absurd List.mem_cons_self herr
  | @handles c r _ stage run =>
    refine ⟨fun k => ?_, run.plain L a found hL hs.plain⟩
    by_cases hr : r = .data k
    · subst hr
      have hnone : dataEvents k s.queue = [] := List.filter_eq_nil_iff.mpr fun e he => by
        simpa using hone k (by rw [stage]; rfl) e he
      refine run.chain_own L a found hL hnone ?_
      rcases hs.chain k with ⟨-, h⟩ | ⟨o, cs, h1, -⟩
      · change (s.dataAsked k ++ if k = k then [(s.serial,
          s.requestEvent.request.data.timestamp k)] else []).flatMap _ = (s.dataSent k ++ []) ++ _
        rw [if_pos rfl, List.flatMap_append, List.append_nil, ← h]
        simp [dataAnswers]
      · rw [hnone] at h1
        cases h1
    · refine run.chain_other L a found hL herr hr ((hs.chain k).mono rfl (fun cs h => h) ?_ ?_)
      · change s.dataAsked k ++ (Entry.taken s.serial r c s.requestEvent.request).dataAsked k = _
        rw [dataAsked_taken hr, List.append_nil]
      · exact List.append_nil _
  | _ => exact same rfl rfl (fun _ => rfl) fun _ => rfl

theorem onReceiveCallback_chained (data : List UInt8) (ticks : Nat) (timestamp : Timestamp)
    {s : State S} (hs : Chained L found s) :
    Chained L found (s.onReceiveCallback data ticks timestamp) := by
  unfold State.onReceiveCallback State.receiveNotificationHandler
  split
  · refine ⟨fun k => (hs.chain k).mono ?_ (fun cs h => h) (List.append_nil _) (List.append_nil _),
      plain_append hs.plain (by simp [Handler.plain])⟩
    change dataEvents k (s.queue ++ [_]) = _
    rw [dataEvents_append]
    exact List.append_nil _
  · exact ⟨fun k => (hs.chain k).mono rfl (fun cs h => h) (List.append_nil _) (List.append_nil _),
      hs.plain⟩

theorem step_chained (hL : L.Finds found) (s : State S) (x : Action S)
    (hs : .error ∉ s.trace → Chained L found s) (hx : OneByOne s x)
    (herr : .error ∉ (step L s x).trace) : Chained L found (step L s x) := by
  refine step_keeps L (I := fun t => .error ∉ t.trace → Chained L found t) (C := OneByOne)
    ?_ ?_ ?_ ?_ ?_ ?_ ?_ ?_ s x hs hx herr
  · intro s data ticks timestamp hs _ herr
    rw [onReceiveCallback_trace] at herr
    exact onReceiveCallback_chained L found data ticks timestamp
      (hs fun h => herr (List.mem_cons_of_mem _ h))
  · intro s hs _ herr
    have hs := hs fun h => herr (List.mem_cons_of_mem _ h)
    exact ⟨fun k => (hs.chain k).mono rfl (fun cs h => h) (List.append_nil _) (List.append_nil _),
      hs.plain⟩
  · intro s hs _ herr
    have hs := hs fun h => herr (List.mem_cons_of_mem _ h)
    exact ⟨fun k => (hs.chain k).mono rfl (fun cs h => h) (List.append_nil _) (List.append_nil _),
      hs.plain⟩
  · intro s f g hs _ herr
    exact ⟨(hs herr).chain, (hs herr).plain⟩
  · intro s c _ _ _ herr
    exact absurd List.mem_cons_self herr
  · intro s t _ hx
    exact hx.elim
  · intro s a e es t hs hx _ queue run herr
    have hs := hs fun h => herr ((run.trace_suffix L a).subset h)
    exact run.chained L a found hL hs queue hx.1 herr
  · intro s a t hs hx _ run herr
    have hs := hs fun h => herr ((run.trace_suffix L a).subset h)
    exact run.chained L a found hL hs herr hx.2

theorem run_chained (hL : L.Finds found) (t : S) {as : List (Action S)}
    (h : Along (step L) OneByOne (State.init t) as)
    (herr : .error ∉ (run (step L) (State.init t) as).trace) :
    Chained L found (run (step L) (State.init t) as) := by
  have hinit : Chained L found (State.init t) :=
    ⟨fun k => .inl ⟨rfl, rfl⟩, fun e he => (by cases he)⟩
  exact run_invariant (step_chained L found hL) (fun _ => hinit) h herr

variable {L found} in
/-- With no handler queued everything was answered. -/
theorem Chain.complete {k : Sensor} {s : State S} (h : Chain L found k s)
    (hq : ∀ e ∈ s.queue, e.handler ≠ .response (.data k)) :
    s.dataSent k = dataAnswers found k s := by
  have hnone : dataEvents k s.queue = [] :=
    List.filter_eq_nil_iff.mpr fun e he => by simpa using hq e he
  rcases h with ⟨-, h⟩ | ⟨o, cs, h1, -⟩
  · exact h.symm
  · rw [hnone] at h1
    cases h1

/-- In every run without an error and without new stores, in which the transmit FIFO has room and
no data request is handled before the answer to the last one of its kind is complete, the data
responses that were transmitted are, request by request, the chunks the storer finds and one last
response; the answer to the last request goes on while its handler is queued. -/
theorem data_answered_completely (hL : L.Finds found) (t : S) (as : List (Action S))
    (h : Along (step L) OneByOne (State.init t) as)
    (herr : .error ∉ (run (step L) (State.init t) as).trace) (k : Sensor) :
    (run (step L) (State.init t) as).dataSent k <+:
      dataAnswers found k (run (step L) (State.init t) as) ∧
    ((∀ e ∈ (run (step L) (State.init t) as).queue, e.handler ≠ .response (.data k)) →
      (run (step L) (State.init t) as).dataSent k =
        dataAnswers found k (run (step L) (State.init t) as)) := by
  have hchain := (run_chained L found hL t h herr).chain k
  refine ⟨?_, hchain.complete⟩
  rcases hchain with ⟨-, h⟩ | ⟨o, cs, -, -, h⟩
  · exact ⟨[], by rw [h, List.append_nil]⟩
  · exact ⟨dataAnswer k o cs, h.symm⟩

/-- A storer with the same chunks for every sensor; its state is what is left of them for each
iterator. -/
def listLibraries (chunks : List Chunk) : Libraries (Sensor → List Chunk) where
  decode bytes := ({ (default : Request) with whichType := (bytes.headD 0).toNat }, true)
  encode _ := some []
  findChunk k _ := fun u => (.ok (), fun i => if i = k then chunks else u i)
  getNextChunk k := fun u =>
    match u k with
    | [] => (.error .notFound, u)
    | c :: cs => (.ok c, fun i => if i = k then cs else u i)
  invalidateIterators u := u

theorem listLibraries_yield (chunks : List Chunk) (k : Sensor) (u : Sensor → List Chunk) :
    Yield (listLibraries chunks) k u (u k) := by
  generalize hcs : u k = cs
  induction cs generalizing u with
  | nil => exact .ends (e := .notFound) (by simp [listLibraries, hcs]) (.inl rfl)
  | cons c cs ih =>
    have next : (listLibraries chunks).getNextChunk k u =
        (.ok c, fun i => if i = k then cs else u i) := by simp [listLibraries, hcs]
    exact .chunk next (ih _ (if_pos rfl))

theorem Yield.unique {k : Sensor} {u : S} {cs cs' : List Chunk} (h : Yield L k u cs)
    (h' : Yield L k u cs') : cs = cs' := by
  induction h generalizing cs' with
  | ends last =>
    cases h' with
    | ends => rfl
    | chunk next => rw [next] at last; cases last
  | chunk next rest ih =>
    cases h' with
    | ends last => rw [next] at last; cases last
    | chunk next' rest' =>
      rw [next] at next'
      cases next'
      rw [ih rest']

theorem listLibraries_finds (chunks : List Chunk) :
    (listLibraries chunks).Finds fun _ _ => chunks := by
  have other {i : Sensor} {u v : Sensor → List Chunk} {cs : List Chunk} (hv : v i = u i)
      (h : Yield (listLibraries chunks) i u cs) : Yield (listLibraries chunks) i v cs := by
    have hu := h.unique _ (listLibraries_yield chunks i u)
    have hvi := listLibraries_yield chunks i v
    rw [hv, ← hu] at hvi
    exact hvi
  refine ⟨fun _ _ _ => .inl rfl, fun k t u => ?_, fun k i t u cs hi h => ?_,
    fun k i u cs hi h => ?_⟩
  · have := listLibraries_yield chunks k fun i => if i = k then chunks else u i
    rw [if_pos rfl] at this
    exact this
  · exact other (if_neg hi) h
  · refine other ?_ h
    simp only [listLibraries]
    cases u k with
    | nil => rfl
    | cons c rest => exact if_neg hi

/-- Two stored chunks. -/
def twoChunks : List Chunk := [⟨⟨1, 0⟩, 0, []⟩, ⟨⟨2, 0⟩, 0, []⟩]

/-- The second request comes when the first is answered. -/
def dataInTurn : List (Action (Sensor → List Chunk)) :=
  [.connect, .packet (zeroRequest 12 6) 7 default] ++ List.replicate 16 (.dispatch .success) ++
    [.packet (zeroRequest 12 6) 9 default] ++ List.replicate 16 (.dispatch .success)

theorem data_answered_in_turn :
    (run (step (listLibraries twoChunks)) (State.init fun _ => []) dataInTurn).dataSent
      .microphone =
    dataAnswer .microphone 1 twoChunks ++ dataAnswer .microphone 2 twoChunks := by
  have h := (data_answered_completely (listLibraries twoChunks) _ (listLibraries_finds twoChunks)
    (fun _ => []) dataInTurn (by decide +kernel) (by decide +kernel) .microphone).2
    (by decide +kernel)
  rw [h]
  decide +kernel

/-- The second request comes before the first is answered. -/
def dataAtOnce : List (Action (Sensor → List Chunk)) :=
  [.connect, .packet (zeroRequest 12 6) 7 default, .packet (zeroRequest 12 6) 8 default] ++
    List.replicate 30 (.dispatch .success)

/-- Both answers together hold each chunk once. -/
theorem data_answers_mixed :
    (run (step (listLibraries twoChunks)) (State.init fun _ => []) dataAtOnce).queue = [] ∧
    .error ∉ (run (step (listLibraries twoChunks)) (State.init fun _ => []) dataAtOnce).trace ∧
    (run (step (listLibraries twoChunks)) (State.init fun _ => []) dataAtOnce).dataAsked
      .microphone = [(1, ⟨0, 0⟩), (2, ⟨0, 0⟩)] ∧
    ((run (step (listLibraries twoChunks)) (State.init fun _ => []) dataAtOnce).dataSent
      .microphone).map Prod.snd =
        [some ⟨⟨1, 0⟩, 0, []⟩, some ⟨⟨2, 0⟩, 0, []⟩, none, none] := by
  decide +kernel

end OpenBadge.RequestHandler
