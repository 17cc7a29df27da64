import OpenBadge.BadgeLegacy.Session
import OpenBadge.RequestHandler01.Effects

/-!
# What the badge owes to the client

A request that was taken has one event on the queue, or is the response that is being sent.
Requests without a response do not keep the client from asking on, so there may be several;
but only the last one may have bytes to bring.
-/

namespace OpenBadge.BadgeLegacy

open OpenBadge.Lib OpenBadge.Tinybuf
open RequestHandler01
open Processing (Timestamp MicrophoneChunk ScanChunk)

variable {S : Type} (L : Libraries S) (d : Stored)

/-! ## The storer -/

/-- The responses that the storer brings before it has no more; it may be busy in between. -/
inductive Yield (k : Source) : S → List Response → Prop
  | ends {u u' : S} {e : RetCode} (last : L.nextResponse k u = (.error e, u'))
      (ends : e = .notFound ∨ e = .invalidState) : Yield k u []
  | busy {u u' : S} {e : RetCode} {rs : List Response}
      (next : L.nextResponse k u = (.error e, u')) (more : e ≠ .notFound ∧ e ≠ .invalidState)
      (rest : Yield k u' rs) : Yield k u rs
  | chunk {u u' : S} {r : Response} {rs : List Response}
      (next : L.nextResponse k u = (.ok r, u')) (rest : Yield k u' rs) : Yield k u (r :: rs)

def Stored.responses (k : Source) (t : Timestamp) : List Response :=
  match k with
  | .microphone => (d.microphone t).map microphoneResponse
  | .scan => (d.scan t).map scanResponse

/-- A search that is not busy finds what is stored. -/
def Finds : Prop :=
  ∀ k t u u', L.findChunk k t u = (.ok (), u') ∨ L.findChunk k t u = (.error .invalidState, u') →
    Yield L k u' (d.responses k t)

variable {L}

theorem Yield.of_ok {k : Source} {u u' : S} {r : Response} {rs : List Response}
    (h : Yield L k u rs) (next : L.nextResponse k u = (.ok r, u')) :
    ∃ rs', rs = r :: rs' ∧ Yield L k u' rs' := by
  cases h with
  | ends last => cases last.symm.trans next
  | busy last => cases last.symm.trans next
  | chunk first rest =>
    cases first.symm.trans next
    exact ⟨_, rfl, rest⟩

theorem Yield.of_end {k : Source} {u u' : S} {e : RetCode} {rs : List Response}
    (h : Yield L k u rs) (next : L.nextResponse k u = (.error e, u'))
    (ends : e = .notFound ∨ e = .invalidState) : rs = [] := by
  cases h with
  | ends => rfl
  | busy last more =>
    cases last.symm.trans next
    rcases ends with he | he
    · exact absurd he more.1
    · exact absurd he more.2
  | chunk first => cases first.symm.trans next

theorem Yield.of_busy {k : Source} {u u' : S} {e : RetCode} {rs : List Response}
    (h : Yield L k u rs) (next : L.nextResponse k u = (.error e, u'))
    (more : e ≠ .notFound ∧ e ≠ .invalidState) : Yield L k u' rs := by
  cases h with
  | ends last ends =>
    cases last.symm.trans next
    rcases ends with he | he
    · exact absurd he more.1
    · exact absurd he more.2
  | busy last _ rest =>
    cases last.symm.trans next
    exact rest
  | chunk first => cases first.symm.trans next

/-! ## Debts -/

variable (L)

/-- What a response handler is going to bring, from this state of the storer on. -/
def Forthcoming (u : S) : ResponseType → List Response → Prop
  | .status, rest => rest = [.status ⟨false, false, false, ⟨0, 0⟩, 0⟩]
  | .start k, rest => rest = [.start k ⟨0, 0⟩]
  | .stop k, rest => rest = [.stop k]
  | .identify, rest => rest = [.identify]
  | .data k, rest => ∃ rs, Yield L k u rs ∧ rest = rs ++ [k.endResponse]

/-- What the response that is sent now, and its success handler, are going to bring. -/
def Sending (s : State S) (rest : List Response) : Prop :=
  s.responseEvent.response.Fits ∧ ∃ later, rest = form s.responseEvent.response :: later ∧
    ((s.responseEvent.successHandler = none ∧ later = []) ∨
      ∃ k, s.responseEvent.successHandler = some (.response (.data k)) ∧
        Forthcoming L s.storer (.data k) later)

/-- What an event is going to bring for a call. -/
def Owes (s : State S) (a : Ask) : Handler → List Response → Prop
  | .processReceiveNotification, _ => False
  | .sendResponse, rest => Sending L s rest
  | .request r, rest =>
    r = a.type ∧ a.silent = false ∧ s.requestEvent.request = a.request ∧ rest = a.answer d
  | .response r, rest => Forthcoming L s.storer r rest

/-- An event that has not brought anything. -/
def Fresh (s : State S) (h : Handler) (a : Ask) : Prop :=
  h ≠ .sendResponse ∧ Owes L d s a h (a.answer d)

/-- The events of the calls, and the responses still to come. Only the first may be under way,
and all but the last are silent. -/
inductive Working (s : State S) : List Handler → List Ask → List Response → Prop
  | done : Working s [] [] []
  | busy {h : Handler} {hs : List Handler} {a : Ask} {as : List Ask} {rest : List Response}
      (owes : Owes L d s a h rest) (left : rest <:+ a.answer d) (more : rest ≠ [])
      (waiting : List.Forall₂ (Fresh L d s) hs as)
      (quiet : ∀ b ∈ (a :: as).dropLast, b.silent = true) :
      Working s (h :: hs) (a :: as) (rest ++ as.flatMap (Ask.answer d))

variable {L d}

/-- A silent call has its one response before it. -/
theorem left_of_silent {a : Ask} (ha : a.silent = true) {rest : List Response}
    (left : rest <:+ a.answer d) (more : rest ≠ []) : rest = a.answer d := by
  obtain ⟨r, hr⟩ := answer_of_silent d ha
  rw [hr] at left ⊢
  obtain ⟨front, hfront⟩ := left
  cases front with
  | nil => exact hfront
  | cons x front =>
    have hnil := (List.append_eq_nil_iff.mp (List.cons.inj hfront).2).2
    exact absurd hnil more

/-- A call that is owed stored data waits for them. -/
theorem loud_of_data (front : List Response) {u : S} {a : Ask} {k : Source} {rest : List Response}
    (data : Forthcoming L u (.data k) rest) (left : front ++ rest <:+ a.answer d) :
    a.silent = false := by
  obtain ⟨rs, -, rfl⟩ := data
  have hmem : k.endResponse ∈ a.answer d :=
    left.subset (List.mem_append_right _ (List.mem_append_right _ (List.mem_singleton_self _)))
  rw [← (answer_mem hmem).2.1]
  cases k <;> rfl

/-- What a silent call is owed depends on the response event alone. -/
theorem Owes.of_silent {s t : State S} {a : Ask} {h : Handler} {rest : List Response}
    (owes : Owes L d s a h rest) (ha : a.silent = true) (left : rest <:+ a.answer d)
    (hevent : h = .sendResponse → t.responseEvent = s.responseEvent) :
    Owes L d t a h rest := by
  cases h with
  | processReceiveNotification => exact owes
  | request r =>
    have hsilent := owes.2.1
    rw [ha] at hsilent
    cases hsilent
  | response r =>
    cases r with
    | data k =>
      have hloud := loud_of_data [] owes left
      rw [ha] at hloud
      cases hloud
    | _ => exact owes
  | sendResponse =>
    have hsame := hevent rfl
    obtain ⟨hfits, later, hlater, hnext⟩ := owes
    change Sending L t rest
    rw [Sending, hsame]
    refine ⟨hfits, later, hlater, ?_⟩
    rcases hnext with hnone | ⟨k, -, hdata⟩
    · exact .inl hnone
    · rw [hlater] at left
      have hloud := loud_of_data [form s.responseEvent.response] hdata left
      rw [ha] at hloud
      cases hloud

theorem Fresh.of_silent {s t : State S} {a : Ask} {h : Handler} (hs : Fresh L d s h a)
    (ha : a.silent = true) : Fresh L d t h a :=
  ⟨hs.1, hs.2.of_silent ha (List.suffix_refl _) fun hh => absurd hh hs.1⟩

/-- An event that has not brought anything depends on the request and on the storer. -/
theorem Fresh.frame {s t : State S} {a : Ask} {h : Handler} (hs : Fresh L d s h a)
    (hrequest : t.requestEvent.request = s.requestEvent.request) (hstorer : t.storer = s.storer) :
    Fresh L d t h a := by
  refine ⟨hs.1, ?_⟩
  have howes := hs.2
  cases h with
  | processReceiveNotification => exact howes
  | sendResponse => exact absurd rfl hs.1
  | request r =>
    obtain ⟨htype, hsilent, hsame, hanswer⟩ := howes
    exact ⟨htype, hsilent, hrequest.trans hsame, hanswer⟩
  | response r =>
    change Forthcoming L t.storer r _
    rw [hstorer]
    exact howes

/-! ## Handlers -/

theorem forthcoming_answer {a : Ask} (h : ∀ k, a.type ≠ .data k) (u : S) :
    Forthcoming L u a.type.response (a.answer d) := by
  cases a with
  | getStatus t newId newGroupNumber =>
    rw [Ask.type]
    split <;> exact rfl
  | getMicData t => exact absurd rfl (h .microphone)
  | getScanData seconds => exact absurd rfl (h .scan)
  | _ => exact rfl

/-- A call for stored data is answered with what is found for its timestamp. -/
theorem answer_data {a : Ask} {k : Source} (h : a.type = .data k) :
    a.silent = false ∧ a.answer d = d.responses k (a.request.sought k) ++ [k.endResponse] := by
  cases a with
  | getStatus t newId newGroupNumber =>
    rw [Ask.type] at h
    split at h <;> cases h
  | getMicData t =>
    cases h
    exact ⟨rfl, rfl⟩
  | getScanData seconds =>
    cases h
    exact ⟨rfl, rfl⟩
  | _ => cases h

theorem loud_of_retried {a : Ask} (h : a.type = .statusAssign ∨ ∃ k, a.type = .start k) :
    a.silent = false := by
  cases a with
  | stopRecording => rcases h with h | ⟨k, h⟩ <;> cases h
  | stopScanning => rcases h with h | ⟨k, h⟩ <;> cases h
  | identify => rcases h with h | ⟨k, h⟩ <;> cases h
  | _ => rfl

theorem puts_unique {x y : Handler} {s t : State S} (hx : Puts x s t) (hy : Puts y s t) :
    x = y := by
  have hqueue : s.queue ++ [x] = s.queue ++ [y] :=
    (congrArg State.queue hx.1).symm.trans (congrArg State.queue hy.1)
  exact List.singleton_inj.mp (List.append_cancel_left hqueue)

/-- A request handler leaves one event for its call. -/
theorem handles_fresh (hL : Finds L d) {a : Ask} {s t : State S} (h : Handles L a.type s t)
    (hrequest : s.requestEvent.request = a.request) :
    ∃ x, Puts x s t ∧ x ≠ .processReceiveNotification ∧ Fresh L d t x a := by
  have hsame {x : Handler} (hputs : Puts x s t) : t.requestEvent.request = a.request := by
    rw [hputs.1]
    exact hrequest
  cases h with
  | answered puts same sought =>
    exact ⟨_, puts, Handler.noConfusion, Handler.noConfusion, forthcoming_answer sought _⟩
  | retried puts same loud =>
    exact ⟨_, puts, Handler.noConfusion, Handler.noConfusion, rfl, loud_of_retried loud,
      hsame puts, rfl⟩
  | found sought puts ready =>
    obtain ⟨-, hanswer⟩ := answer_data (d := d) sought
    rw [hrequest] at ready
    refine ⟨_, puts, Handler.noConfusion, Handler.noConfusion, _, hL _ _ _ _ ready, hanswer⟩
  | busy sought puts =>
    exact ⟨_, puts, Handler.noConfusion, Handler.noConfusion, sought.symm,
      (answer_data (d := d) sought).1, hsame puts, rfl⟩

theorem fits_of_encode {r : Response} {bytes : List UInt8} (h : encodeResponse r = some bytes) :
    r.Fits ∧ bytes.drop 1 = r.bytes := by
  rw [encodeResponse] at h
  split at h
  · next hfits => exact ⟨hfits, (Option.some.inj h) ▸ rfl⟩
  · cases h

/-- The state in which a response begins to be sent. -/
structure Begins (s t : State S) : Prop where
  eq : t = { s with
    responseEvent := t.responseEvent, storer := t.storer,
    stage := .transmitHeader t.responseEvent.response.bytes }
  failHandler : t.responseEvent.failHandler = some .sendResponse

theorem sends_begins {s t : State S} (h : Sends s t) :
    Begins s t ∧ t.storer = s.storer ∧ t.responseEvent.response = s.responseEvent.response ∧
      t.responseEvent.successHandler = s.responseEvent.successHandler ∧
      s.responseEvent.response.Fits := by
  obtain ⟨bytes, hencode, rfl⟩ := h
  obtain ⟨hfits, hbytes⟩ := fits_of_encode hencode
  rw [hbytes]
  exact ⟨⟨rfl, rfl⟩, rfl, rfl, rfl, hfits⟩

/-- A retry owes what the event owed. -/
theorem sends_owes {s t : State S} (h : Sends s t) {a : Ask} {rest : List Response}
    (howes : Owes L d s a .sendResponse rest) :
    Begins s t ∧ Owes L d t a .sendResponse rest := by
  obtain ⟨hbegins, hstorer, hresponse, hsuccess, -⟩ := sends_begins h
  refine ⟨hbegins, ?_⟩
  change Sending L t rest
  rw [Sending, hresponse, hsuccess, hstorer]
  exact howes

/-- A response handler begins to send the first of what it owes, or tries again. -/
theorem responds_owes {r : ResponseType} {s t : State S} (h : Responds L r s t) {a : Ask}
    {rest : List Response} (howes : Owes L d s a (.response r) rest) :
    (Begins s t ∧ Owes L d t a .sendResponse rest ∧
        ((∀ k, r ≠ .data k) → t.storer = s.storer)) ∨
      (∃ k, r = .data k ∧ t = { s with
          responseEvent := t.responseEvent, storer := t.storer,
          queue := s.queue ++ [.response (.data k)] } ∧
        Owes L d t a (.response (.data k)) rest) := by
  cases h with
  | own own sends =>
    obtain ⟨⟨heq, hfail⟩, hstorer, hresponse, hsuccess, hfits⟩ := sends_begins sends
    refine .inl ⟨⟨heq, hfail⟩, ?_, fun _ => hstorer⟩
    change Sending L t rest
    rw [Sending, hresponse, hsuccess]
    refine ⟨hfits, [], ?_, .inl ⟨rfl, rfl⟩⟩
    cases own <;> exact howes
  | @chunk k data m u next sends =>
    subst data
    obtain ⟨rs, hyield, rfl⟩ := howes
    obtain ⟨rs, rfl, hrest⟩ := hyield.of_ok next
    obtain ⟨⟨heq, hfail⟩, hstorer, hresponse, hsuccess, hfits⟩ := sends_begins sends
    refine .inl ⟨⟨heq, hfail⟩, ?_, fun hdata => absurd rfl (hdata k)⟩
    change Sending L t _
    rw [Sending, hresponse, hsuccess, hstorer]
    have hform : form m = m := by
      cases k with
      | microphone =>
        obtain ⟨chunk, u', -, hchunk⟩ := Proc.bind_eq_ok.mp next
        cases hchunk
        rfl
      | scan =>
        obtain ⟨chunk, u', -, hchunk⟩ := Proc.bind_eq_ok.mp next
        cases hchunk
        rfl
    refine ⟨hfits, rs ++ [k.endResponse], ?_, .inr ⟨k, rfl, rs, hrest, rfl⟩⟩
    change m :: (rs ++ [k.endResponse]) = form m :: _
    rw [hform]
  | @last k data e u next ends sends =>
    subst data
    obtain ⟨rs, hyield, rfl⟩ := howes
    obtain rfl := hyield.of_end next ends
    obtain ⟨⟨heq, hfail⟩, hstorer, hresponse, hsuccess, hfits⟩ := sends_begins sends
    refine .inl ⟨⟨heq, hfail⟩, ?_, fun hdata => absurd rfl (hdata k)⟩
    change Sending L t _
    rw [Sending, hresponse, hsuccess]
    refine ⟨hfits, [], ?_, .inl ⟨rfl, rfl⟩⟩
    cases k <;> rfl
  | @busy k data e u next more eq =>
    subst data
    obtain ⟨rs, hyield, rfl⟩ := howes
    refine .inr ⟨k, rfl, ?_, ?_⟩
    · rw [eq]
      rfl
    · rw [eq]
      exact ⟨rs, hyield.of_busy next more, rfl⟩

/-! ## Frames -/

theorem Owes.frame {s t : State S} {a : Ask} {h : Handler} {rest : List Response}
    (howes : Owes L d s a h rest) (hrequest : t.requestEvent.request = s.requestEvent.request)
    (hstorer : t.storer = s.storer) (hevent : t.responseEvent = s.responseEvent) :
    Owes L d t a h rest := by
  cases h with
  | processReceiveNotification => exact howes
  | sendResponse =>
    change Sending L t rest
    rw [Sending, hevent, hstorer]
    exact howes
  | request r =>
    obtain ⟨htype, hsilent, hsame, hanswer⟩ := howes
    exact ⟨htype, hsilent, hrequest.trans hsame, hanswer⟩
  | response r =>
    change Forthcoming L t.storer r rest
    rw [hstorer]
    exact howes

theorem waiting_frame {s t : State S} {hs : List Handler} {as : List Ask}
    (h : List.Forall₂ (Fresh L d s) hs as)
    (hrequest : t.requestEvent.request = s.requestEvent.request) (hstorer : t.storer = s.storer) :
    List.Forall₂ (Fresh L d t) hs as :=
  h.imp fun _ _ hfresh => hfresh.frame hrequest hstorer

theorem Working.frame {s t : State S} {hs : List Handler} {todo : List Ask} {rest : List Response}
    (h : Working L d s hs todo rest)
    (hrequest : t.requestEvent.request = s.requestEvent.request) (hstorer : t.storer = s.storer)
    (hevent : t.responseEvent = s.responseEvent) : Working L d t hs todo rest := by
  cases h with
  | done => exact .done
  | busy owes left more waiting quiet =>
    exact .busy (owes.frame hrequest hstorer hevent) left more
      (waiting_frame waiting hrequest hstorer) quiet

/-- Behind a call with bytes nothing waits. -/
theorem alone_of_loud {s : State S} {a : Ask} {as : List Ask} {hs : List Handler}
    (ha : a.silent = false) (waiting : List.Forall₂ (Fresh L d s) hs as)
    (quiet : ∀ b ∈ (a :: as).dropLast, b.silent = true) : hs = [] ∧ as = [] := by
  cases as with
  | nil => exact ⟨List.forall₂_nil_right_iff.mp waiting, rfl⟩
  | cons b as =>
    have hquiet := quiet a List.mem_cons_self
    rw [ha] at hquiet
    cases hquiet

/-- When no bytes are left, all calls are silent. -/
theorem Working.quiet_of_size {s : State S} {hs : List Handler} {todo : List Ask}
    {rest : List Response} (h : Working L d s hs todo rest) (hsize : size rest = 0) :
    ∀ a ∈ todo, a.silent = true := by
  cases h with
  | done => exact fun a ha => (by cases ha)
  | @busy h hs a as rest owes left more waiting quiet =>
    rw [size_append, Nat.add_eq_zero_iff] at hsize
    intro b hb
    rcases List.mem_cons.mp hb with rfl | hb
    · obtain ⟨r, rs, hrs⟩ := List.exists_cons_of_ne_nil more
      have hmem : ∀ r ∈ rest, r ∈ b.answer d := fun r hr => left.subset hr
      have hr : r ∈ rest := hrs ▸ List.mem_cons_self
      have hsilent := (size_eq_zero_iff fun r hr => (answer_mem (hmem r hr)).1).mp hsize.1 r hr
      exact (answer_mem (hmem r hr)).2.1.symm.trans hsilent
    · have hzero : size (b.answer d) = 0 := by
        obtain ⟨front, back, rfl⟩ := List.append_of_mem hb
        have hsum := hsize.2
        rw [List.flatMap_append, List.flatMap_cons, size_append, size_append] at hsum
        omega
      exact (size_answer_eq_zero_iff d b).mp hzero

/-- The events that wait, when the first call is answered. -/
theorem Working.of_waiting {s : State S} {hs : List Handler} {as : List Ask}
    (waiting : List.Forall₂ (Fresh L d s) hs as) (quiet : ∀ b ∈ as.dropLast, b.silent = true) :
    Working L d s hs as (as.flatMap (Ask.answer d)) := by
  cases waiting with
  | nil => exact .done
  | cons fresh waiting =>
    exact .busy fresh.2 (List.suffix_refl _) (answer_ne_nil d _) waiting quiet

/-- One more call after silent ones. -/
theorem Working.add {s t : State S} {hs : List Handler} {todo : List Ask} {rest : List Response}
    (h : Working L d s hs todo rest) (hquiet : ∀ a ∈ todo, a.silent = true) {a : Ask}
    {x : Handler} (hfresh : Fresh L d t x a) (hevent : t.responseEvent = s.responseEvent) :
    Working L d t (hs ++ [x]) (todo ++ [a]) (rest ++ a.answer d) := by
  cases h with
  | done =>
    have h : Working L d t [x] [a] (a.answer d ++ [].flatMap (Ask.answer d)) :=
      .busy hfresh.2 (List.suffix_refl _) (answer_ne_nil d a) .nil fun b hb => (by cases hb)
    rw [List.flatMap_nil, List.append_nil] at h
    exact h
  | @busy h hs b bs rest owes left more waiting quiet =>
    rw [List.forall_mem_cons] at hquiet
    have hwaiting : List.Forall₂ (Fresh L d t) (hs ++ [x]) (bs ++ [a]) := by
      refine List.rel_append ?_ (.cons hfresh .nil)
      refine List.forall₂_iff_zip.mpr ⟨waiting.length_eq, fun {y c} hzip => ?_⟩
      exact (List.forall₂_iff_zip.mp waiting).2 hzip |>.of_silent
        (hquiet.2 c (List.of_mem_zip hzip).2)
    have hsilent : ∀ c ∈ (b :: (bs ++ [a])).dropLast, c.silent = true := by
      rw [← List.cons_append, List.dropLast_concat]
      exact List.forall_mem_cons.mpr hquiet
    have h : Working L d t (h :: (hs ++ [x])) (b :: (bs ++ [a]))
        (rest ++ (bs ++ [a]).flatMap (Ask.answer d)) :=
      .busy (owes.of_silent hquiet.1 left fun _ => hevent) left more hwaiting hsilent
    rw [List.flatMap_append, List.flatMap_singleton, ← List.append_assoc] at h
    exact h

end OpenBadge.BadgeLegacy
