import OpenBadge.BadgeLegacy.Badge
import OpenBadge.BadgeLegacy.Responses

/-!
# What the client makes of a series of responses

Every turn of a download reads the data that its header announces and then the next header. A
header of zeros ends it, whoever meant it.
-/

namespace OpenBadge.BadgeLegacy

open OpenBadge.Lib OpenBadge.Tinybuf OpenBadge.Framework
open RequestHandler01 (Response Source StatusResponse)

/-! ## Fields -/

theorem messageLength_cons (f : MessageField) (fs : List MessageField) :
    messageLength (f :: fs) = f.type.length + messageLength fs := by
  have h (fs : List MessageField) (n : Nat) :
      fs.foldl (fun n f => n + f.type.length) n = n + messageLength fs := by
    induction fs generalizing n with
    | nil => rfl
    | cons g gs ih =>
      rw [messageLength, List.foldl_cons, List.foldl_cons, ih, ih (0 + g.type.length)]
      omega
  rw [messageLength, List.foldl_cons, h, Nat.zero_add]

theorem fieldBytes_length {fs : List MessageField} {xs : List Nat} (h : List.Forall₂ Fits fs xs) :
    (fieldBytes fs xs).length = messageLength fs := by
  induction h with
  | nil => rfl
  | cons _ _ ih => rw [fieldBytes, List.length_append, packed_length, ih, messageLength_cons]

theorem packed_zero (n : Nat) : packed .littleEndian n 0 = List.replicate n 0 := by
  have h : bigEndianBytes n 0 = List.replicate n 0 := by
    induction n with
    | zero => rfl
    | succ n ih =>
      rw [bigEndianBytes, Nat.zero_div, ih, List.replicate_succ']
      rfl
  rw [packed, h]
  exact List.reverse_replicate ..

/-- The bytes of a header are zero when its numbers are. -/
theorem fieldBytes_zero_iff {fs : List MessageField} {xs : List Nat}
    (h : List.Forall₂ Fits fs xs) :
    fieldBytes fs xs = List.replicate (messageLength fs) 0 ↔ ∀ x ∈ xs, x = 0 := by
  induction h with
  | nil => exact ⟨fun _ x hx => (by cases hx), fun _ => rfl⟩
  | @cons f x fs xs hx _ ih =>
    have hlen := packed_length .littleEndian f.type.length x
    rw [fieldBytes, messageLength_cons, ← List.replicate_append_replicate, List.forall_mem_cons,
      ← ih]
    constructor
    · intro heq
      obtain ⟨hfield, hrest⟩ := List.append_inj heq (by rw [hlen, List.length_replicate])
      rw [← packed_zero] at hfield
      have hround := congrArg (unpacked .littleEndian) hfield
      rw [unpacked_packed _ hx.1, unpacked_packed _ (Nat.pow_pos (by decide))] at hround
      exact ⟨hround, hrest⟩
    · rintro ⟨rfl, hrest⟩
      rw [packed_zero, hrest]

/-! ## Headers -/

/-- The end of a download. -/
def IsEnd (r : Response) : Prop := ∀ x ∈ r.attributes, x = 0

instance : DecidablePred IsEnd := fun r => inferInstanceAs (Decidable (∀ x ∈ r.attributes, x = 0))

theorem isEndHeader_eq {r : Response} (hr : r.Fits) :
    isEndHeader r.messageFields (r.attributes.map some) = .ok (decide (IsEnd r)) := by
  have hfits := Response.fits_attributes hr
  have hiff := fieldBytes_zero_iff hfits
  rw [isEndHeader, serializeMessage_some _ hfits]
  exact congrArg Except.ok (decide_eq_decide.mpr hiff)

theorem raise_ok {α : Type} (a : α) : raise (Except.ok a) = pure a := rfl

theorem notNone_some {α : Type} (a : α) : notNone (some a) = pure a := rfl

/-- `await_data` of the bytes that come next; without bytes it is `None`. -/
theorem awaitData_next {c : Connection} (hc : c.connected = true) {d rest : List UInt8}
    (hs : c.stream = d ++ rest) :
    ∃ c', awaitData d.length c = (.ok (if d = [] then none else some d), c') ∧
      c.Reads c' rest := by
  by_cases hd : d = []
  · refine ⟨c, ?_, ?_, rfl, rfl⟩
    · rw [awaitData, Proc.get_bind_apply, Proc.failIf_bind_neg (by simp [hc]), hd]
      rfl
    · rw [hs, hd, List.nil_append]
  · rw [if_neg hd]
    exact awaitData_ok hc (List.length_pos_iff.mpr hd) rfl hs

/-- `send`, with the response that comes next. -/
theorem send_next {c : Connection} (hc : c.connected = true) (message : List UInt8)
    {d rest : List UInt8} (hd : d ≠ []) (hs : c.stream = d ++ rest) :
    ∃ c', send message d.length c = (.ok (some d), c') ∧ c'.stream = rest ∧
      c'.connected = true ∧ c'.sent = c.sent ++ [message] := by
  have hlen : 0 < d.length := List.length_pos_iff.mpr hd
  obtain ⟨c', hreceive, hstream, hconnected, hsent⟩ :=
    receive_ok (c := { c with sent := c.sent ++ [message] }) hlen rfl hs
  refine ⟨c', ?_, hstream, hconnected.trans hc, hsent⟩
  rw [send, Proc.get_bind_apply, Proc.failIf_bind_neg (by simp [hc]), Proc.modify_bind_apply,
    receiveSome, if_pos hlen, Proc.bind_ok hreceive]
  rfl

section Loop

variable {β : Type} {messageFields : List MessageField} (bytesAwaited : Attributes → Nat)
  (element : Attributes → Option (List UInt8) → Except Failure β)

/-- A response as the client expects it in a series. -/
structure Expected (messageFields : List MessageField) (r : Response) : Prop where
  fits : r.Fits
  fields : r.messageFields = messageFields
  nonempty : messageFields ≠ []
  awaited : bytesAwaited (r.attributes.map some) = r.behind.length
  alone : IsEnd r → r.behind = []

/-- What the client makes of a response. -/
def found (r : Response) : Except Failure β :=
  element (r.attributes.map some) (if r.behind = [] then none else some r.behind)

/-- What it makes of a series, with the responses behind the first end. -/
def outcome : List Response → Except Failure (List β × List Response)
  | [] => .error .waits
  | r :: rs =>
    if IsEnd r then .ok ([], rs)
    else do
      let x ← found element r
      let (xs, left) ← outcome rs
      pure (x :: xs, left)

theorem outcome_end {r : Response} (hend : IsEnd r) (rs : List Response) :
    outcome element (r :: rs) = .ok ([], rs) := if_pos hend

theorem outcome_error {r : Response} (hend : ¬ IsEnd r) {err : Failure}
    (h : found element r = .error err) (rs : List Response) :
    outcome element (r :: rs) = .error err := by
  rw [outcome, if_neg hend, h]
  rfl

theorem outcome_cons {r : Response} (hend : ¬ IsEnd r) {x : β} (h : found element r = .ok x)
    (rs : List Response) : outcome element (r :: rs) =
      (outcome element rs).map fun p => (x :: p.1, p.2) := by
  rw [outcome, if_neg hend, h]
  rcases outcome element rs with err | ⟨xs, left⟩ <;> rfl

theorem outcome_length {rs left : List Response} {xs : List β}
    (h : outcome element rs = .ok (xs, left)) : xs.length + left.length + 1 = rs.length := by
  induction rs generalizing xs with
  | nil => cases h
  | cons r rs ih =>
    by_cases hend : IsEnd r
    · rw [outcome_end element hend] at h
      cases h
      rw [List.length_nil, List.length_cons, Nat.zero_add]
    · rcases hfound : found element r with err | x
      · rw [outcome_error element hend hfound] at h
        cases h
      · rw [outcome_cons element hend hfound] at h
        rcases houtcome : outcome element rs with err | ⟨ys, later⟩
        · rw [houtcome] at h
          cases h
        · rw [houtcome] at h
          cases h
          have hlen : ys.length + later.length + 1 = rs.length := ih houtcome
          change ys.length + 1 + later.length + 1 = rs.length + 1
          omega

/-- Everything in front of an end is returned if and only if it holds no end, and the client
takes each of it. -/
theorem outcome_complete_iff {e : Response} (he : IsEnd e) {rs : List Response} {xs : List β} :
    outcome element (rs ++ [e]) = .ok (xs, []) ↔
      (∀ r ∈ rs, ¬ IsEnd r) ∧ List.Forall₂ (fun r x => found element r = .ok x) rs xs := by
  induction rs generalizing xs with
  | nil =>
    rw [List.nil_append, outcome_end element he, List.forall₂_nil_left_iff, Except.ok.injEq,
      Prod.mk.injEq]
    exact ⟨fun h => ⟨fun _ hr => (by cases hr), h.1.symm⟩, fun h => ⟨h.2.symm, rfl⟩⟩
  | cons r rs ih =>
    rw [List.cons_append, List.forall_mem_cons]
    by_cases hend : IsEnd r
    · rw [outcome_end element hend]
      constructor
      · intro h
        cases rs <;> cases h
      · rintro ⟨⟨hnot, -⟩, -⟩
        exact absurd hend hnot
    · rcases hfound : found element r with err | x
      · rw [outcome_error element hend hfound]
        constructor
        · intro h
          cases h
        · rintro ⟨-, h⟩
          cases h with
          | cons h _ => cases hfound.symm.trans h
      · rw [outcome_cons element hend hfound]
        constructor
        · intro h
          rcases houtcome : outcome element (rs ++ [e]) with err | ⟨ys, left⟩
          · rw [houtcome] at h
            cases h
          · rw [houtcome] at h
            cases h
            obtain ⟨hnot, hall⟩ := ih.mp houtcome
            exact ⟨⟨hend, hnot⟩, .cons hfound hall⟩
        · rintro ⟨⟨-, hnot⟩, h⟩
          cases h with
          | cons h hall =>
            cases hfound.symm.trans h
            rw [ih.mpr ⟨hnot, hall⟩]
            rfl

variable {bytesAwaited element}

theorem Expected.header_bytes {r : Response} (h : Expected bytesAwaited messageFields r) :
    (fieldBytes messageFields r.attributes).length = messageLength messageFields ∧
      fieldBytes messageFields r.attributes ≠ [] := by
  have hlen := fieldBytes_length (Response.fits_attributes h.fits)
  rw [h.fields] at hlen
  refine ⟨hlen, fun hnil => ?_⟩
  obtain ⟨f, fs, hfs⟩ := List.exists_cons_of_ne_nil h.nonempty
  have hpos := f.type.length_pos
  rw [hnil, hfs, messageLength_cons, List.length_nil] at hlen
  omega

theorem Expected.deserialize {r : Response} (h : Expected bytesAwaited messageFields r) :
    deserializeMessage messageFields (fieldBytes messageFields r.attributes) =
      .ok (r.attributes.map some) :=
  deserializeMessage_fieldBytes (h.fields ▸ Response.fits_attributes h.fits)

theorem Expected.isEndHeader_eq {r : Response} (h : Expected bytesAwaited messageFields r) :
    isEndHeader messageFields (r.attributes.map some) = .ok (decide (IsEnd r)) :=
  h.fields ▸ BadgeLegacy.isEndHeader_eq h.fits

theorem length_le_stream {rs : List Response}
    (h : ∀ r ∈ rs, Expected bytesAwaited messageFields r) :
    rs.length ≤ (rs.flatMap Response.bytes).length := by
  induction rs with
  | nil => exact Nat.le_refl _
  | cons r rs ih =>
    have hr := h r List.mem_cons_self
    have hpos := List.length_pos_iff.mpr hr.header_bytes.2
    have hrest := ih fun y hy => h y (List.mem_cons_of_mem r hy)
    rw [List.flatMap_cons, Response.bytes_eq, hr.fields, List.length_append, List.length_append,
      List.length_cons]
    omega

/-- The connection holds what is behind the header of `r`, which has been read. -/
structure Ahead (r : Response) (later : List Response) (rest : List UInt8) (header : Attributes)
    (c : Connection) : Prop where
  header_eq : header = r.attributes.map some
  stream_eq : c.stream = r.behind ++ (later.flatMap Response.bytes ++ rest)
  connected : c.connected = true

theorem stream_cons {r : Response} {later : List Response} {rest : List UInt8} :
    (r :: later).flatMap Response.bytes ++ rest = fieldBytes r.messageFields r.attributes ++
      (r.behind ++ (later.flatMap Response.bytes ++ rest)) := by
  rw [List.flatMap_cons, Response.bytes_eq, List.append_assoc, List.append_assoc]

/-- One turn: the data behind the header, and the next header. -/
theorem downloadLoop_turn {r r' : Response} (hr : Expected bytesAwaited messageFields r)
    (hend : ¬ IsEnd r) {x : β} (hx : found element r = .ok x)
    (hr' : Expected bytesAwaited messageFields r') {later : List Response} {rest : List UInt8}
    {header : Attributes} {c : Connection} (h : Ahead r (r' :: later) rest header c) (n : Nat)
    (chunks : List β) :
    ∃ header' c', downloadLoop messageFields bytesAwaited element (n + 1) header chunks c =
        downloadLoop messageFields bytesAwaited element n header' (chunks ++ [x]) c' ∧
      Ahead r' later rest header' c' ∧ c'.sent = c.sent := by
  obtain ⟨c₁, hdata, hstream₁, hconnected₁, hsent₁⟩ := awaitData_next h.connected h.stream_eq
  rw [stream_cons, hr'.fields] at hstream₁
  have hc₁ := hconnected₁.trans h.connected
  obtain ⟨hlen, hne⟩ := hr'.header_bytes
  obtain ⟨c₂, hheader, hstream₂, hconnected₂, hsent₂⟩ := awaitData_next hc₁ hstream₁
  rw [hlen, if_neg hne] at hheader
  refine ⟨_, c₂, ?_, ⟨rfl, hstream₂, hconnected₂.trans hc₁⟩, hsent₂.trans hsent₁⟩
  rw [downloadLoop, h.header_eq, hr.isEndHeader_eq, raise_ok, Proc.pure_bind_apply,
    decide_eq_false hend, if_neg Bool.false_ne_true, hr.awaited, Proc.bind_ok hdata]
  change (raise (found element r) >>= _) c₁ = _
  rw [hx, raise_ok, Proc.pure_bind_apply, Proc.bind_ok hheader, notNone_some,
    Proc.pure_bind_apply, hr'.deserialize, raise_ok, Proc.pure_bind_apply]

/-- A header of zeros ends the download. -/
theorem downloadLoop_end {r : Response} (hr : Expected bytesAwaited messageFields r)
    (hend : IsEnd r) {later : List Response} {rest : List UInt8} {header : Attributes}
    {c : Connection} (h : Ahead r later rest header c) (n : Nat) (chunks : List β) :
    downloadLoop messageFields bytesAwaited element (n + 1) header chunks c = (.ok chunks, c) := by
  rw [downloadLoop, h.header_eq, hr.isEndHeader_eq, raise_ok, Proc.pure_bind_apply,
    decide_eq_true hend, if_pos rfl]
  rfl

/-- The client does not take what is behind the header. -/
theorem downloadLoop_fails {r : Response} (hr : Expected bytesAwaited messageFields r)
    (hend : ¬ IsEnd r) {err : Failure} (herr : found element r = .error err)
    {later : List Response} {rest : List UInt8} {header : Attributes} {c : Connection}
    (h : Ahead r later rest header c) (n : Nat) (chunks : List β) :
    ∃ c', downloadLoop messageFields bytesAwaited element (n + 1) header chunks c =
      (.error err, c') ∧ c'.sent = c.sent := by
  obtain ⟨c₁, hdata, -, -, hsent₁⟩ := awaitData_next h.connected h.stream_eq
  refine ⟨c₁, ?_, hsent₁⟩
  rw [downloadLoop, h.header_eq, hr.isEndHeader_eq, raise_ok, Proc.pure_bind_apply,
    decide_eq_false hend, if_neg Bool.false_ne_true, hr.awaited, Proc.bind_ok hdata]
  change (raise (found element r) >>= _) c₁ = _
  rw [herr]
  rfl

variable (element)

/-- The loop comes to what the client makes of the series, and leaves what is behind its first
end. -/
theorem downloadLoop_outcome {later : List Response} {rest : List UInt8} :
    ∀ {r : Response} {header : Attributes} {c : Connection} {n : Nat} (chunks : List β),
      (∀ y ∈ r :: later, Expected bytesAwaited messageFields y) → (∃ y ∈ r :: later, IsEnd y) →
      Ahead r later rest header c → later.length < n →
      ∃ c', downloadLoop messageFields bytesAwaited element n header chunks c =
          ((outcome element (r :: later)).map fun p => chunks ++ p.1, c') ∧ c'.sent = c.sent ∧
        ∀ xs left, outcome element (r :: later) = .ok (xs, left) →
          c'.connected = true ∧ c'.stream = left.flatMap Response.bytes ++ rest := by
  induction later with
  | nil =>
    intro r header c n chunks hall hend h hn
    obtain ⟨n, rfl⟩ : ∃ m, n = m + 1 := ⟨n - 1, by omega⟩
    obtain ⟨y, hy, hyend⟩ := hend
    obtain rfl := List.mem_singleton.mp hy
    have hy := hall y List.mem_cons_self
    rw [outcome_end element hyend]
    refine ⟨c, ?_, rfl, fun xs left hok => ?_⟩
    · rw [downloadLoop_end hy hyend h n chunks]
      exact congrArg (fun xs => (Except.ok xs, c)) (List.append_nil chunks).symm
    · cases hok
      have hs := h.stream_eq
      rw [hy.alone hyend] at hs
      exact ⟨h.connected, hs⟩
  | cons r' later ih =>
    intro r header c n chunks hall hend h hn
    obtain ⟨n, rfl⟩ : ∃ m, n = m + 1 := ⟨n - 1, by omega⟩
    have hr := hall r List.mem_cons_self
    have hall' : ∀ y ∈ r' :: later, Expected bytesAwaited messageFields y :=
      fun y hy => hall y (List.mem_cons_of_mem r hy)
    by_cases hrend : IsEnd r
    · rw [outcome_end element hrend]
      refine ⟨c, ?_, rfl, fun xs left hok => ?_⟩
      · rw [downloadLoop_end hr hrend h n chunks]
        exact congrArg (fun xs => (Except.ok xs, c)) (List.append_nil chunks).symm
      · cases hok
        have hs := h.stream_eq
        rw [hr.alone hrend] at hs
        exact ⟨h.connected, hs⟩
    · rcases hx : found element r with err | x
      · obtain ⟨c', hfails, hsent⟩ := downloadLoop_fails hr hrend hx h n chunks
        rw [outcome_error element hrend hx]
        exact ⟨c', hfails, hsent, fun _ _ hok => (by cases hok)⟩
      · obtain ⟨header', c₁, hturn, hahead, hsent₁⟩ :=
          downloadLoop_turn hr hrend hx (hall' r' List.mem_cons_self) h n chunks
        have hend' : ∃ y ∈ r' :: later, IsEnd y := by
          obtain ⟨y, hy, hyend⟩ := hend
          rcases List.mem_cons.mp hy with rfl | hy
          · exact absurd hyend hrend
          · exact ⟨y, hy, hyend⟩
        obtain ⟨c', hloop, hsent, hleft⟩ :=
          ih (n := n) (chunks ++ [x]) hall' hend' hahead (Nat.lt_of_succ_lt_succ hn)
        rw [outcome_cons element hrend hx, hturn, hloop]
        refine ⟨c', ?_, hsent.trans hsent₁, fun xs left hok => ?_⟩
        · rcases outcome element (r' :: later) with err | ⟨xs, left⟩
          · rfl
          · change (Except.ok (chunks ++ [x] ++ xs), c') = (Except.ok (chunks ++ x :: xs), c')
            rw [List.append_assoc, List.singleton_append]
        · rcases houtcome : outcome element (r' :: later) with err | ⟨ys, left'⟩
          · rw [houtcome] at hok
            cases hok
          · rw [houtcome] at hok
            cases hok
            exact hleft ys left' houtcome

/-- A download returns what the client makes of the series. -/
theorem download_outcome {rs : List Response}
    (hall : ∀ r ∈ rs, Expected bytesAwaited messageFields r) (hend : ∃ r ∈ rs, IsEnd r)
    {request : BadgeMessage} {message : List UInt8}
    (hrequest : serializeMessage request.messageFields request.attributes = .ok message)
    {rest : List UInt8} {c : Connection} (hc : c.connected = true)
    (hs : c.stream = rs.flatMap Response.bytes ++ rest) :
    ∃ c', download messageFields bytesAwaited element request c =
        ((outcome element rs).map fun p => p.1, c') ∧ c'.sent = c.sent ++ [message] ∧
      ∀ xs left, outcome element rs = .ok (xs, left) →
        c'.connected = true ∧ c'.stream = left.flatMap Response.bytes ++ rest := by
  obtain ⟨r, later, rfl⟩ : ∃ r later, rs = r :: later := by
    obtain ⟨r, hr, -⟩ := hend
    exact List.exists_cons_of_ne_nil (List.ne_nil_of_mem hr)
  have hr := hall r List.mem_cons_self
  obtain ⟨hlen, hne⟩ := hr.header_bytes
  rw [stream_cons, hr.fields] at hs
  obtain ⟨c₁, hsend, hstream, hconnected, hsent₁⟩ := send_next hc message hne hs
  rw [hlen] at hsend
  have hlater : later.length < c₁.stream.length + 1 := by
    have hle := length_le_stream fun y hy => hall y (List.mem_cons_of_mem r hy)
    rw [hstream, List.length_append, List.length_append]
    omega
  have hcommand : sendCommand request (some messageFields) c =
      (.ok (some (r.attributes.map some)), c₁) := by
    rw [sendCommand, hrequest, raise_ok, Proc.pure_bind_apply, expectedResponseLength,
      Proc.bind_ok hsend]
    change (notNone (some _) >>= _) c₁ = _
    rw [notNone_some, Proc.pure_bind_apply, hr.deserialize, raise_ok, Proc.pure_bind_apply]
    rfl
  obtain ⟨c', hloop, hsent, hleft⟩ := downloadLoop_outcome element [] hall hend
    ⟨rfl, hstream, hconnected⟩ hlater
  refine ⟨c', ?_, hsent.trans hsent₁, hleft⟩
  rw [download, Proc.bind_ok hcommand, notNone_some, Proc.pure_bind_apply, Proc.get_bind_apply,
    hloop]
  rfl

variable {element}

/-- A series is returned as a whole if and only if nothing in front of its end is an end, and
the client takes each response. -/
theorem download_complete_iff {rs : List Response} {e : Response} (he : IsEnd e)
    (hall : ∀ r ∈ rs ++ [e], Expected bytesAwaited messageFields r)
    {request : BadgeMessage} {message : List UInt8}
    (hrequest : serializeMessage request.messageFields request.attributes = .ok message)
    {rest : List UInt8} {c : Connection} (hc : c.connected = true)
    (hs : c.stream = (rs ++ [e]).flatMap Response.bytes ++ rest) {xs : List β}
    (hlen : xs.length = rs.length) :
    (∃ c', download messageFields bytesAwaited element request c = (.ok xs, c') ∧
        c'.connected = true ∧ c'.stream = rest ∧ c'.sent = c.sent ++ [message]) ↔
      (∀ r ∈ rs, ¬ IsEnd r) ∧ List.Forall₂ (fun r x => found element r = .ok x) rs xs := by
  have hend : ∃ r ∈ rs ++ [e], IsEnd r :=
    ⟨e, List.mem_append_right _ (List.mem_singleton_self e), he⟩
  obtain ⟨c', hdownload, hsent, hleft⟩ :=
    download_outcome element hall hend hrequest hc hs
  rw [← outcome_complete_iff element he]
  constructor
  · rintro ⟨c'', hok, -⟩
    rw [hdownload] at hok
    rcases houtcome : outcome element (rs ++ [e]) with err | ⟨ys, left⟩
    · rw [houtcome] at hok
      cases hok
    · rw [houtcome] at hok
      cases hok
      have hlength := outcome_length element houtcome
      have hsame : ys.length = rs.length := hlen
      rw [List.length_append, List.length_singleton] at hlength
      have hnone : left.length = 0 := by omega
      rw [List.length_eq_zero_iff.mp hnone]
  · intro houtcome
    obtain ⟨hconnected, hstream⟩ := hleft xs [] houtcome
    rw [houtcome] at hdownload
    exact ⟨c', hdownload, hconnected, hstream, hsent⟩

end Loop

end OpenBadge.BadgeLegacy
