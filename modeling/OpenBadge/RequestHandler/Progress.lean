import OpenBadge.RequestHandler.Order

/-!
# Every status and start request is answered

When the drivers and the transmit FIFO no longer refuse, the main loop works
its way through the queue to the event that a request waits for. Only the client
can hold it up, by the rest of a message it has begun.
-/

namespace OpenBadge.RequestHandler

open OpenBadge.Lib

variable {S : Type} (L : Libraries S) (a : Answers)

/-- Nothing has to be tried again. -/
def Answers.Ready (a : Answers) : Prop :=
  a.transmit = .ok () ∧ a.samplingStart = .ok () ∧ a.setBadgeAssignement = .ok ()

/-- The request `x` was taken, in a run without an error and without storage errors. -/
structure Calm (x : Nat × Stamp) (s : State S) : Prop where
  owned : Owned s
  inOrder : InOrder s
  releasing : Releasing s
  asked : x ∈ s.asked

theorem mem_gather {β : Type} {f : Entry → List β} {y : β} {tr : List Entry} :
    y ∈ gather f tr ↔ ∃ e ∈ tr, y ∈ f e := by
  induction tr with
  | nil => simp [gather]
  | cons e tr ih =>
    rw [gather, List.mem_append, ih]
    simp [or_comm]

variable {x : Nat × Stamp}

theorem Calm.dispatch {s : State S} (hs : Calm x s) (hy : ∀ k u, L.Yields k u)
    (herr : .error ∉ (dispatch L a s).trace) : Calm x (dispatch L a s) := by
  refine ⟨step_owned_of_no_error L s (.dispatch a) (fun _ => hs.owned) herr,
    step_inOrder L s (.dispatch a) hs.owned hs.inOrder herr,
    step_releasing L s (.dispatch a) hs.releasing fun _ k _ _ _ _ => hy k _, ?_⟩
  obtain ⟨e, he, hx⟩ := mem_gather.mp hs.asked
  exact mem_gather.mpr ⟨e, (step_trace L s (.dispatch a)).subset he, hx⟩

/-- Nobody owns the request event and no response waits: everything is answered. -/
theorem Calm.answered {s : State S} (hs : Calm x s)
    (hp : s.processingReceiveNotification = false) (hr : s.processingResponse = false) :
    x ∈ s.answered := by
  have hsend : senders s.queue = [] := by
    rcases hs.inOrder.flag with h | ⟨h, -⟩
    · exact h
    · rw [hr] at h
      cases h
  have hx := hs.asked
  rw [hs.inOrder.order, hsend, (hs.owned.free hp).2] at hx
  simpa using hx

/-- A response goes out at once, or an error drops the connection. -/
theorem Sends.ready {s t : State S} (h : Sends L a s t) (ha : a.Ready) :
    .error ∈ t.trace ∨ t.processingResponse = false ∧ t.stage = s.stage ∧
      t.processingReceiveNotification = s.processingReceiveNotification ∧
      (∃ es, t.queue = s.queue ++ es) ∧
      ∃ bytes, .transmit s.responseEvent.origin s.responseEvent.response bytes true ∈ t.trace := by
  cases h with
  | dropped => exact .inl List.mem_cons_self
  | sent => exact .inr ⟨rfl, rfl, rfl, ⟨_, rfl⟩, _, List.mem_cons_self⟩
  | retried _ noMem =>
    rw [ha.1] at noMem
    cases noMem

theorem StreamEnds.ready {o : Nat} {b : Bool} {s t : State S} (h : StreamEnds a s o b t) :
    t.processingResponse = s.processingResponse ∧ t.stage = s.stage ∧
      t.processingReceiveNotification = s.processingReceiveNotification ∧
      ∃ es, t.queue = s.queue ++ es := by
  cases h with
  | pumped => exact ⟨rfl, rfl, rfl, _, rfl⟩
  | idle => exact ⟨rfl, rfl, rfl, [], (List.append_nil _).symm⟩
  | stopped => exact ⟨rfl, rfl, rfl, [], (List.append_nil _).symm⟩

/-- A response handler that does not own the request event. -/
theorem Responds.ready {o : Nat} {r : ResponseType} {s t : State S} (h : Responds L a o s r t)
    (ha : a.Ready) (hy : ∀ k u, L.Yields k u) (hown : (Handler.response r).owns = false) :
    .error ∈ t.trace ∨ (t.processingResponse = true → s.processingResponse = true) ∧
      t.stage = s.stage ∧
      t.processingReceiveNotification = s.processingReceiveNotification ∧
      ∃ es, t.queue = s.queue ++ es := by
  have sent {s' t' : State S} (sends : Sends L a s' t') (hst : s'.stage = s.stage)
      (hp : s'.processingReceiveNotification = s.processingReceiveNotification)
      (hq : s'.queue = s.queue) :
      .error ∈ t'.trace ∨ t'.processingResponse = false ∧ t'.stage = s.stage ∧
        t'.processingReceiveNotification = s.processingReceiveNotification ∧
        ∃ es, t'.queue = s.queue ++ es := by
    rcases sends.ready L a ha with h | ⟨h1, h2, h3, ⟨es, h4⟩, -⟩
    · exact .inl h
    · exact .inr ⟨h1, h2.trans hst, h3.trans hp, es, by rw [h4, hq]⟩
  have clear {t' : State S} (h : .error ∈ t'.trace ∨ t'.processingResponse = false ∧
      t'.stage = s.stage ∧ t'.processingReceiveNotification = s.processingReceiveNotification ∧
      ∃ es, t'.queue = s.queue ++ es) :
      .error ∈ t'.trace ∨ (t'.processingResponse = true → s.processingResponse = true) ∧
        t'.stage = s.stage ∧
        t'.processingReceiveNotification = s.processingReceiveNotification ∧
        ∃ es, t'.queue = s.queue ++ es := by
    rcases h with h | ⟨h1, hrest⟩
    · exact .inl h
    · exact .inr ⟨fun h => (by rw [h1] at h; cases h), hrest⟩
  cases h with
  | busy => exact .inr ⟨fun h => h, rfl, rfl, _, rfl⟩
  | answered _ own =>
    have hr : (Handler.response r).owns = true := by
      cases r <;> first | rfl | cases own
    rw [hr] at hown
    cases hown
  | chunk _ _ sends => exact clear (sent sends rfl rfl rfl)
  | last _ _ _ sends => exact clear (sent sends rfl rfl rfl)
  | @kept k e u free next fails => exact absurd (hy k s.storer e (by rw [next])) fails
  | tested _ sends => exact clear (sent sends rfl rfl rfl)
  | quiet free _ ends =>
    obtain ⟨h1, h2, h3, es, h4⟩ := ends.ready a
    exact .inr ⟨fun h => (by rw [h1] at h; cases h), h2, h3, es, h4⟩
  | streamed _ _ sends ends =>
    obtain ⟨h1, h2, h3, es, h4⟩ := ends.ready a
    rcases sent sends rfl rfl rfl with h | ⟨k1, k2, k3, es', k4⟩
    · exact .inl (by rw [ends.trace_eq]; exact h)
    · refine .inr ⟨fun h => (by rw [h1, k1] at h; cases h), h2.trans k2, h3.trans k3, es' ++ es, ?_⟩
      rw [h4, k4, List.append_assoc]

/-- An event runs while another one owns the request event. -/
theorem Runs.passes {e : Event} {s t : State S} (h : Runs L a e s t) (ha : a.Ready)
    (hy : ∀ k u, L.Yields k u) (hi : s.stage = .idle)
    (hp : s.processingReceiveNotification = true) (hown : e.handler.owns = false) :
    .error ∈ t.trace ∨ t.stage = .idle ∧ t.processingReceiveNotification = true ∧
      (∃ es, t.queue = s.queue ++ es) ∧
      (t.processingResponse = true → s.processingResponse = true ∧ e.handler ≠ .sendResponse) := by
  cases h with
  | waits process =>
    exact .inr ⟨hi, hp, ⟨_, rfl⟩, fun h => ⟨h, by rw [process]; decide⟩⟩
  | rests _ free =>
    rw [hp] at free
    cases free
  | begins _ free =>
    rw [hp] at free
    cases free
  | sends _ run =>
    rcases run.ready L a ha with h | ⟨h1, h2, h3, h4, -⟩
    · exact .inl h
    · exact .inr ⟨h2.trans hi, h3.trans hp, h4, fun h => (by rw [h1] at h; cases h)⟩
  | handles request =>
    rw [request] at hown
    cases hown
  | responds response run =>
    rcases run.ready L a ha hy (by rw [← response]; exact hown) with h | ⟨h1, h2, h3, h4⟩
    · exact .inl h
    · exact .inr ⟨h2.trans hi, h3.trans hp, h4, fun h => ⟨h1 h, by simp [response]⟩⟩

/-- Dispatching an event is running it. -/
theorem dispatch_runs {s : State S} {e : Event} {es : List Event} (hi : s.stage = .idle)
    (hq : s.queue = e :: es) : Runs L a e { s with queue := es } (dispatch L a s) := by
  have h := dispatch_dispatches L a s
  generalize RequestHandler.dispatch L a s = t at h
  cases h with
  | nothing _ empty =>
    rw [hq] at empty
    cases empty
  | event _ queue run =>
    rw [hq] at queue
    obtain ⟨rfl, rfl⟩ := List.cons.inj queue
    exact run
  | goesOn running => exact absurd hi running

/-- The owner of the request event is next. -/
structure Turn (x : Nat × Stamp) (e : Event) (s : State S) : Prop where
  calm : Calm x s
  idle : s.stage = .idle
  processing : s.processingReceiveNotification = true
  next : ∃ es, s.queue = e :: es

/-- The main loop gets to the owner of the request event. If what holds the response flag is
queued before it, the flag is then free. -/
theorem owner_gets_turn (hy : ∀ k u, L.Yields k u) {e : Event} (hown : e.handler.owns = true)
    {s : State S} (hs : Calm x s) (hi : s.stage = .idle)
    (hp : s.processingReceiveNotification = true) (free : Prop) (pre post : List Event)
    (hq : s.queue = pre ++ e :: post)
    (hf : free → s.processingResponse = true → ∃ x ∈ pre, x.handler = .sendResponse) :
    Inevitable (fun s a => dispatch L a s) Answers.Ready (fun t => .error ∈ t.trace ∨
      Turn x e t ∧ (free → t.processingResponse = false)) s := by
  induction pre generalizing s post with
  | nil =>
    refine .now (.inr ⟨⟨hs, hi, hp, post, hq⟩, fun h => ?_⟩)
    by_contra hr
    obtain ⟨x, hx, -⟩ := hf h (by simpa using hr)
    cases hx
  | cons y pre ih =>
    refine .later fun a ha => ?_
    by_cases herr : .error ∈ (dispatch L a s).trace
    · exact .now (.inl herr)
    have hy' : y.handler.owns = false := by
      by_contra hyo
      obtain ⟨x, hx, -⟩ := hs.owned.held hp hi
      have h1 : owners s.queue = y :: owners (pre ++ e :: post) := by
        rw [hq]
        exact List.filter_cons_of_pos (by simpa using hyo)
      rw [h1] at hx
      have hmem : e ∈ owners (pre ++ e :: post) :=
        mem_owners (List.mem_append_right pre List.mem_cons_self) hown
      rw [(List.cons.inj hx).2] at hmem
      cases hmem
    have hrun := dispatch_runs L a hi hq
    rcases hrun.passes L a ha hy hi hp hy' with h | ⟨h1, h2, ⟨es, h3⟩, h4⟩
    · exact absurd h herr
    refine ih (hs.dispatch L a hy herr) h1 h2 (post ++ es) ?_ fun h hr => ?_
    · rw [h3]
      simp
    · obtain ⟨hr', hne⟩ := h4 hr
      obtain ⟨x, hx, hsend⟩ := hf h hr'
      rcases List.mem_cons.mp hx with rfl | hx
      · exact absurd hsend hne
      · exact ⟨x, hx, hsend⟩

/-- The answer to `x` has been transmitted, or an error has dropped the connection. -/
def Answered (x : Nat × Stamp) (s : State S) : Prop := .error ∈ s.trace ∨ x ∈ s.answered

/-- The response handler of a status or start request finds the response flag free. -/
theorem Turn.answers (hy : ∀ k u, L.Yields k u) {q : ResponseType} {o : Nat}
    (hown : (Handler.response q).owns = true) {s : State S} (hs : Turn x ⟨.response q, o⟩ s)
    (free : s.processingResponse = false) :
    Inevitable (fun s a => dispatch L a s) Answers.Ready (Answered x) s := by
  refine .later fun a ha => .now ?_
  by_cases herr : .error ∈ (dispatch L a s).trace
  · exact .inl herr
  obtain ⟨es, hq⟩ := hs.next
  have hcalm := hs.calm.dispatch L a hy herr
  have hrun := dispatch_runs L a hs.idle hq
  generalize dispatch L a s = t at hrun herr hcalm
  obtain ⟨hp, hr⟩ : t.processingReceiveNotification = false ∧ t.processingResponse = false := by
    cases hrun with
    | responds response run =>
      cases response
      cases run with
      | busy busy =>
        rw [show s.processingResponse = true from busy] at free
        cases free
      | answered _ _ sends =>
        rcases sends.ready L a ha with h | ⟨h1, -, h3, -⟩
        · exact absurd h herr
        · exact ⟨h3, h1⟩
      | _ => cases hown
    | waits process => cases process
    | rests process => cases process
    | begins process => cases process
    | sends send => cases send
    | handles request => cases request
  exact .inr (hcalm.answered hp hr)

/-- While the response flag is taken, the handler is put on the queue again. -/
theorem Turn.busy {q : ResponseType} {o : Nat} (hown : (Handler.response q).owns = true)
    {s : State S} (hs : Turn x ⟨.response q, o⟩ s) (hr : s.processingResponse = true) :
    ∃ es, s.queue = ⟨.response q, o⟩ :: es ∧
      dispatch L a s = { s with queue := es ++ [⟨.response q, o⟩] } := by
  obtain ⟨es, hq⟩ := hs.next
  refine ⟨es, hq, ?_⟩
  have hrun := dispatch_runs L a hs.idle hq
  generalize dispatch L a s = t at hrun
  cases hrun with
  | responds response run =>
    cases response
    cases run with
    | busy => rfl
    | answered free =>
      rw [show s.processingResponse = false from free] at hr
      cases hr
    | _ => cases hown
  | waits process => cases process
  | rests process => cases process
  | begins process => cases process
  | sends send => cases send
  | handles request => cases request

/-- Once the response handler of a status or start request is its turn, the request is answered;
if the response flag is taken, after one more round through the queue. -/
theorem Turn.response (hy : ∀ k u, L.Yields k u) {q : ResponseType} {o : Nat}
    (hown : (Handler.response q).owns = true) {s : State S} (hs : Turn x ⟨.response q, o⟩ s) :
    Inevitable (fun s a => dispatch L a s) Answers.Ready (Answered x) s := by
  cases hr : s.processingResponse with
  | false => exact hs.answers L hy hown hr
  | true =>
    refine .later fun a ha => ?_
    by_cases herr : .error ∈ (dispatch L a s).trace
    · exact .now (.inl herr)
    have hcalm := hs.calm.dispatch L a hy herr
    obtain ⟨es, hq, hbusy⟩ := hs.busy L a hown hr
    obtain ⟨y, hmem, hsend⟩ := hs.calm.releasing hr
    rw [hq] at hmem
    have hy' : y ∈ es := by
      rcases List.mem_cons.mp hmem with rfl | h
      · cases hsend
      · exact h
    rw [hbusy] at hcalm ⊢
    refine (owner_gets_turn L hy hown hcalm hs.idle hs.processing True es [] rfl
      fun _ _ => ⟨y, hy', hsend⟩).trans ?_
    rintro t (h | ⟨ht, hfree⟩)
    · exact .now (.inl h)
    · exact ht.answers L hy hown (hfree trivial)

/-- The request handler of a status or start request puts its response handler on the queue. -/
theorem Turn.request (hy : ∀ k u, L.Yields k u) {r : RequestType} {q : ResponseType} {o : Nat}
    (hans : r.answer = some q) {s : State S} (hs : Turn x ⟨.request r, o⟩ s) :
    Inevitable (fun s a => dispatch L a s) Answers.Ready (Answered x) s := by
  have hown := owns_of_answer hans
  refine .later fun a ha => ?_
  by_cases herr : .error ∈ (dispatch L a s).trace
  · exact .now (.inl herr)
  obtain ⟨es, hq⟩ := hs.next
  have hcalm := hs.calm.dispatch L a hy herr
  have hrun := dispatch_runs L a hs.idle hq
  generalize dispatch L a s = t at hrun herr hcalm
  obtain ⟨hi, hp, hq'⟩ : t.stage = .idle ∧ t.processingReceiveNotification = true ∧
      t.queue = es ++ [⟨.response q, o⟩] := by
    cases hrun with
    | handles request run =>
      cases request
      cases run with
      | retried _ _ fails =>
        rcases fails with ⟨k, e, rfl, -⟩ | ⟨-, -, h | h⟩
        · cases hans
        · rw [ha.2.1] at h
          cases h
        · rw [ha.2.2] at h
          cases h
      | answered answer =>
        rw [hans] at answer
        cases answer
        exact ⟨hs.idle, hs.processing, rfl⟩
      | dropped => exact absurd List.mem_cons_self herr
      | finished immediate =>
        rw [answer_of_immediate immediate] at hans
        cases hans
      | _ => cases hans
    | waits process => cases process
    | rests process => cases process
    | begins process => cases process
    | sends send => cases send
    | responds response => cases response
  refine (owner_gets_turn L hy hown hcalm hi hp False es [] hq' fun h => h.elim).trans ?_
  rintro u (h | ⟨hu, -⟩)
  · exact .now (.inl h)
  · exact hu.response L hy hown

/-- The request that is being processed is answered. -/
theorem owner_answered (hy : ∀ k u, L.Yields k u) {s : State S} (hs : Calm x s) {e : Event}
    (he : e ∈ owners s.queue) (hx : x ∈ s.due e) :
    Inevitable (fun s a => dispatch L a s) Answers.Ready (Answered x) s := by
  obtain ⟨hmem, hown⟩ := List.mem_filter.mp he
  have hi : s.stage = .idle := by
    by_contra hi
    rw [hs.owned.running hi] at he
    cases he
  have hp : s.processingReceiveNotification = true := by
    by_contra hp
    rw [(hs.owned.free (by simpa using hp)).2] at he
    cases he
  obtain ⟨pre, post, hq⟩ := List.append_of_mem hmem
  refine (owner_gets_turn L hy hown hs hi hp False pre post hq fun h => h.elim).trans ?_
  rintro t (h | ⟨ht, -⟩)
  · exact .now (.inl h)
  obtain ⟨h, o⟩ := e
  cases h with
  | processReceiveNotification => cases hown
  | sendResponse => cases hown
  | response q => exact ht.response L hy hown
  | request r =>
    cases hans : r.answer with
    | none =>
      rw [due_request, hans] at hx
      cases hx
    | some q => exact ht.request L hy hans

/-- How many pieces of `process_receive_notification` are left. -/
def Stage.left : Stage → Nat
  | .idle => 0
  | .handle _ _ => 1
  | .decode _ _ => 2
  | .consume _ _ => 3
  | .awaitData _ _ => 4
  | .data _ _ => 5
  | .awaitHeader _ => 6
  | .header _ => 7

theorem Stage.left_lt (st : Stage) : st.left < 8 := by
  cases st <;> simp [Stage.left]

theorem Handles.keeps {o : Nat} {r : RequestType} {s t : State S} (h : Handles L a o s r t) :
    .error ∈ t.trace ∨ t.responseEvent = s.responseEvent ∧ ∃ es, t.queue = s.queue ++ es := by
  cases h with
  | dropped => exact .inl List.mem_cons_self
  | _ => exact .inr ⟨rfl, _, rfl⟩

/-- While a response waits to be sent, no other event touches it. -/
theorem Runs.keeps {e : Event} {s t : State S} (h : Runs L a e s t)
    (hr : s.processingResponse = true) (he : e.handler ≠ .sendResponse) :
    .error ∈ t.trace ∨ t.responseEvent = s.responseEvent ∧ ∃ es, t.queue = s.queue ++ es := by
  have taken {P : Prop} (free : s.processingResponse = false) : P := by
    rw [hr] at free
    cases free
  cases h with
  | waits => exact .inr ⟨rfl, _, rfl⟩
  | rests => exact .inr ⟨rfl, [], (List.append_nil _).symm⟩
  | begins => exact .inr ⟨rfl, [], (List.append_nil _).symm⟩
  | sends send => exact absurd send he
  | handles _ run => exact run.keeps L a
  | responds _ run =>
    cases run with
    | busy => exact .inr ⟨rfl, _, rfl⟩
    | answered free => exact taken free
    | chunk free => exact taken free
    | last free => exact taken free
    | kept free => exact taken free
    | tested free => exact taken free
    | quiet free => exact taken free
    | streamed free => exact taken free

theorem Continues.keeps {s t : State S} (h : Continues L a s t) (hrun : s.stage ≠ .idle) :
    s.Waits ∨ .error ∈ t.trace ∨ t.responseEvent = s.responseEvent ∧
      (∃ es, t.queue = s.queue ++ es) ∧ t.stage.left < s.stage.left := by
  have same : ∃ es, s.queue = s.queue ++ es := ⟨[], (List.append_nil _).symm⟩
  cases h with
  | waits why => exact .inl (why.resolve_left hrun)
  | asksHeader stage => exact .inr (.inr ⟨rfl, same, by simp [stage, Stage.left]⟩)
  | readsHeader stage => exact .inr (.inr ⟨rfl, same, by simp [stage, Stage.left]⟩)
  | asksData stage => exact .inr (.inr ⟨rfl, same, by simp [stage, Stage.left]⟩)
  | readsData stage => exact .inr (.inr ⟨rfl, same, by simp [stage, Stage.left]⟩)
  | consumes stage => exact .inr (.inr ⟨rfl, same, by simp [stage, Stage.left]⟩)
  | decodes stage => exact .inr (.inr ⟨rfl, same, by simp [stage, Stage.left]⟩)
  | rejects => exact .inr (.inl List.mem_cons_self)
  | loses => exact .inr (.inl List.mem_cons_self)
  | lacks => exact .inr (.inl List.mem_cons_self)
  | handles stage run =>
    rcases run.keeps L a with h | ⟨h1, h2⟩
    · exact .inr (.inl h)
    · refine .inr (.inr ⟨h1, h2, ?_⟩)
      rw [run.flow.stage, stage]
      exact Nat.zero_lt_one

/-- The response that waits is sent, unless the main loop comes to wait for the client. The
induction is on the place of the `send_response` in the queue and on what is left of a running
`process_receive_notification`. -/
theorem pending_answered (hy : ∀ k u, L.Yields k u) {e : Event}
    (he : e.handler = .sendResponse) (n : Nat) {s : State S} (hs : Calm x s)
    (pre post : List Event) (hq : s.queue = pre ++ e :: post) (hx : x ∈ s.prepared)
    (hn : 8 * pre.length + s.stage.left ≤ n) :
    Inevitable (fun s a => dispatch L a s) Answers.Ready (fun t => Answered x t ∨ t.Waits) s := by
  induction n using Nat.strongRecOn generalizing s pre post with
  | ind n ih =>
    have hmem : e ∈ senders s.queue := by
      rw [hq]
      exact List.mem_filter.mpr ⟨List.mem_append_right _ List.mem_cons_self, by simpa using he⟩
    obtain ⟨hr, z, hz⟩ := hs.inOrder.flag.resolve_left fun h => by rw [h] at hmem; cases hmem
    by_cases hw : s.Waits
    · exact .now (.inr hw)
    refine .later fun a ha => ?_
    by_cases herr : .error ∈ (dispatch L a s).trace
    · exact .now (.inl (.inl herr))
    have hcalm := hs.dispatch L a hy herr
    -- what is left to show once the event is one place further or the process one piece
    have next {pre' : List Event} {u : State S} (hu : dispatch L a s = u)
        (hev : u.responseEvent = s.responseEvent) (hq' : ∃ es, u.queue = pre' ++ e :: post ++ es)
        (hlt : 8 * pre'.length + u.stage.left < 8 * pre.length + s.stage.left) :
        Inevitable (fun s a => dispatch L a s) Answers.Ready (fun t => Answered x t ∨ t.Waits)
          (dispatch L a s) := by
      obtain ⟨es, hq'⟩ := hq'
      rw [hu] at hcalm ⊢
      refine ih _ (Nat.lt_of_lt_of_le hlt hn) hcalm pre' (post ++ es) ?_ ?_ (Nat.le_refl _)
      · rw [hq']
        simp
      · unfold State.prepared
        rw [hev]
        exact hx
    by_cases hi : s.stage = .idle
    · cases pre with
      | nil =>
        have hrun := dispatch_runs L a hi hq
        generalize dispatch L a s = t at hrun herr
        refine .now (.inl ?_)
        cases hrun with
        | sends _ run =>
          rcases run.ready L a ha with h | ⟨-, -, -, -, bytes, h⟩
          · exact .inl h
          · exact .inr (mem_gather.mpr ⟨_, h, hx⟩)
        | waits process => rw [he] at process; cases process
        | rests process => rw [he] at process; cases process
        | begins process => rw [he] at process; cases process
        | handles request => rw [he] at request; cases request
        | responds response => rw [he] at response; cases response
      | cons y pre =>
        have hy' : y.handler ≠ .sendResponse := by
          intro hsend
          have h1 : senders s.queue = y :: senders (pre ++ e :: post) := by
            rw [hq]
            exact List.filter_cons_of_pos (by simpa using hsend)
          rw [h1] at hz
          have h2 : e ∈ senders (pre ++ e :: post) :=
            List.mem_filter.mpr ⟨List.mem_append_right _ List.mem_cons_self, by simpa using he⟩
          rw [(List.cons.inj hz).2] at h2
          cases h2
        rcases (dispatch_runs L a hi hq).keeps L a hr hy' with h | ⟨h1, h2⟩
        · exact absurd h herr
        · refine next rfl h1 h2 ?_
          have := (dispatch L a s).stage.left_lt
          rw [List.length_cons]
          omega
    · have hgoes := dispatch_dispatches L a s
      generalize hu : dispatch L a s = u at hgoes
      rw [hu] at herr
      cases hgoes with
      | nothing idle => exact absurd idle hi
      | event idle => exact absurd idle hi
      | goesOn running run =>
        rcases run.keeps L a running with h | h | ⟨h1, ⟨es, h2⟩, h3⟩
        · exact absurd h hw
        · exact absurd h herr
        · rw [← hu]
          refine next hu h1 ⟨es, ?_⟩ (Nat.add_lt_add_left h3 _)
          rw [h2, hq]

/-- The state of the main loop after `n` more turns. -/
def turns (f : Nat → Answers) (n : Nat) (s : State S) : State S :=
  run (fun s a => dispatch L a s) s ((List.range n).map f)

/-- In every run without an error, the status and start responses that were transmitted are those
of the first status and start requests that were taken, in the same order, each of its own type
and with the timestamp and the clock status taken down with its request. Once no `send_response`
and no handler of such a request is queued, all have been answered. And when nothing refuses any
more, each is answered after finitely many turns of the main loop, unless an error drops the
connection or the client leaves the main loop waiting for the rest of a message. -/
theorem answered_in_order (t : S) (as : List (Action S))
    (herr : .error ∉ (run (step L) (State.init t) as).trace) :
    (run (step L) (State.init t) as).answered <+: (run (step L) (State.init t) as).asked ∧
    ((∀ e ∈ (run (step L) (State.init t) as).queue,
      e.handler ≠ .sendResponse ∧ e.handler.owns = false) →
      (run (step L) (State.init t) as).answered = (run (step L) (State.init t) as).asked) ∧
    ((∀ k u, L.Yields k u) → ∀ x ∈ (run (step L) (State.init t) as).asked,
      ∀ f : Nat → Answers, (∀ i, (f i).Ready) →
      ∃ n, x ∈ (turns L f n (run (step L) (State.init t) as)).answered ∨
        .error ∈ (turns L f n (run (step L) (State.init t) as)).trace ∨
        (turns L f n (run (step L) (State.init t) as)).Waits) := by
  obtain ⟨ho, hs⟩ := inOrder_of_no_error L t as herr
  have hrel (hy : ∀ k u, L.Yields k u) : Releasing (run (step L) (State.init t) as) := by
    refine run_invariant (step_releasing L) (.of_false rfl) (Along.of_forall ?_ as)
    intro s y
    cases y with
    | dispatch a => exact fun _ k _ _ _ _ => hy k _
    | _ => trivial
  generalize run (step L) (State.init t) as = s at ho hs hrel
  have hord := hs.order
  refine ⟨?_, ?_, ?_⟩
  · rw [hord, List.append_assoc]
    exact List.prefix_append ..
  · intro hq
    have hsend : senders s.queue = [] :=
      List.filter_eq_nil_iff.mpr fun e he => by simpa using (hq e he).1
    have hown : owners s.queue = [] :=
      List.filter_eq_nil_iff.mpr fun e he => by simp [(hq e he).2]
    rw [hord, hsend, hown]
    simp
  · intro hy x hx f hf
    have hcalm : Calm x s := ⟨ho, hs, hrel hy, hx⟩
    have hsoon : Inevitable (fun s a => dispatch L a s) Answers.Ready
        (fun t => Answered x t ∨ t.Waits) s := by
      rw [hord, List.mem_append, List.mem_append] at hx
      rcases hx with (hx | hx) | hx
      · exact .now (.inl (.inr hx))
      · obtain ⟨e, he, hx⟩ := List.mem_flatMap.mp hx
        obtain ⟨hmem, hsend⟩ := List.mem_filter.mp he
        obtain ⟨pre, post, hq⟩ := List.append_of_mem hmem
        exact pending_answered L hy (by simpa using hsend) _ hcalm pre post hq hx (Nat.le_refl _)
      · obtain ⟨e, he, hx⟩ := List.mem_flatMap.mp hx
        exact (owner_answered L hy hcalm he hx).mono fun t ht => .inl ht
    obtain ⟨n, hn⟩ := hsoon.exists_run f hf
    refine ⟨n, ?_⟩
    rcases hn with (h | h) | h
    · exact .inr (.inl h)
    · exact .inl h
    · exact .inr (.inr h)

/-- A status request whose response waits for the FIFO, and behind it a start request whose
driver call is refused for a while. -/
def pipelined : List (Action Unit) :=
  [.connect, .packet (zeroRequest 1 7) 7 ⟨3, 5⟩, .packet (zeroRequest 2 10) 8 ⟨4, 6⟩] ++
    List.replicate 12 (.dispatch .full) ++
    List.replicate 10 (.dispatch { Answers.full with samplingStart := .error .internal }) ++
    List.replicate 12 (.dispatch .success)

theorem answered_in_order_pipelined :
    (run (step (taggedLibraries (.error .notFound))) (State.init ()) pipelined).answered =
      [(1, ⟨.status, ⟨3, 5⟩, some true⟩), (2, ⟨.start .microphone, ⟨4, 6⟩, none⟩)] := by
  have hasked : (run (step (taggedLibraries (.error .notFound))) (State.init ())
      pipelined).asked = [(1, ⟨.status, ⟨3, 5⟩, some true⟩),
        (2, ⟨.start .microphone, ⟨4, 6⟩, none⟩)] := by decide +kernel
  rw [← hasked]
  exact (answered_in_order (taggedLibraries (.error .notFound)) () pipelined
    (by decide +kernel)).2.1 (by decide +kernel)

end OpenBadge.RequestHandler
