import OpenBadge.Filesystem.Cursor
import OpenBadge.Filesystem.Damage
import OpenBadge.Storer.Model
import Mathlib.Data.List.DropRight

/-!
# Retrieval by timestamp

`find_chunk_from_timestamp` and then `get_next_chunk` until it finds no more, on a static
partition whose elements may be damaged, with stores in between.
-/

namespace OpenBadge.Storer

open OpenBadge.Lib OpenBadge.Storage OpenBadge.Filesystem
open Processing (Timestamp)

variable {D : Device} {s t : State D} {e : Extent} {base i : Nat} {α : Type}
  {ring : List (Option (List UInt8))} {decode : List UInt8 → Option α} {stamp : α → Timestamp}
  {timestamp : Timestamp}

/-! ## Chunks -/

/-- The chunk in an element that was read, if it decodes. -/
def chunkOf (decode : List UInt8 → Option α) (x : Option (List UInt8)) : Option α := x.bind decode

/-- The element has a chunk that is not older than the timestamp, or none. -/
def notOlder (decode : List UInt8 → Option α) (stamp : α → Timestamp) (timestamp : Timestamp)
    (x : Option (List UInt8)) : Bool :=
  !(chunkOf decode x).any fun c => compareTimestamps (stamp c) timestamp = 1

/-- The chunks from the timestamp on among the elements that are in the slots: those behind
the latest one that is older. -/
def chunksSince (decode : List UInt8 → Option α) (stamp : α → Timestamp) (timestamp : Timestamp)
    (slots : Nat) (ring : List (Option (List UInt8))) : List α :=
  ((ring.drop (ring.length - slots)).rtakeWhile (notOlder decode stamp timestamp)).filterMap
    (chunkOf decode)

/-- What a read of an element returns. -/
def readOf (recordId : Nat) : Option (List UInt8) → Except RetCode (List UInt8 × Nat)
  | some data => .ok (data, recordId)
  | none => .error .invalidData

theorem isOlder_readOf (recordId : Nat) (x : Option (List UInt8)) :
    isOlder (fun data => (decode data).map stamp) timestamp (readOf recordId x) =
      !notOlder decode stamp timestamp x := by
  cases x with
  | none => rfl
  | some data =>
    rw [notOlder, Bool.not_not, readOf, isOlder, Option.any_map]
    rfl

/-! ## The search -/

/-- The iterator is at the element `k`, for `get_next_chunk` to go on with the element `c`. -/
structure Standing (ring : List (Option (List UInt8))) (slots : Nat) (found : Bool) (k c : Nat) :
    Prop where
  lt : k < ring.length
  le : ring.length ≤ k + slots
  next : c = if found then k else k + 1

section Steps

variable (hd : isDynamic e.pid = false) (hslots : 3 ≤ e.slots) (hslots' : e.slots < 65534)
  (hsound : Sound D s.bytes e (s.part e.pid)) (hf : (s.part e.pid).hasFirstElement = true)
  (h : Worn D s.bytes e (s.part e.pid) base ring)

include hslots hsound hf h in
theorem read_eq (hi : i < ring.length) (hle : ring.length ≤ i + e.slots) :
    iteratorReadElement e.pid (s.atElement e i) =
      (readOf (slotHeader s.bytes e (i % e.slots)).recordId ring[i], s.atElement e i) := by
  rw [read_atElement hslots hsound.known hf, (h.slots i _ (List.getElem?_eq_getElem hi) hle).2]
  cases ring[i] <;> rfl

/-- A turn of the search, from an element that can be read. -/
theorem findChunkLoop_turn {pid recordId : Nat} {x : Option (List UInt8)} (fuel : Nat)
    (dec : List UInt8 → Option Timestamp) (timestamp : Timestamp) (hread : iteratorReadElement pid s = (readOf recordId x, s)) :
    findChunkLoop pid dec timestamp (fuel + 1) s =
      (if isOlder dec timestamp (readOf recordId x) then do
        let ret ← Proc.attempt (iteratorNext pid)
        match ret with
        | .ok _ => pure (some true)
        | .error .notFound => pure (some false)
        | .error r => giveUp pid r
      else do
        let ret ← Proc.attempt (iteratorPrevious pid)
        match ret with
        | .ok _ => findChunkLoop pid dec timestamp fuel
        | .error .notFound => pure (some true)
        | .error r => giveUp pid r : Fs D (Option Bool)) s := by
  rw [findChunkLoop, Proc.attempt_bind_apply, hread]
  cases x <;> rfl

include hd hslots hslots' hsound hf h in
/-- The search from an element stops behind the latest older one in front, or at the oldest. -/
theorem findChunkLoop_eq (decode : List UInt8 → Option α) (stamp : α → Timestamp)
    (timestamp : Timestamp) (n : Nat) (hn : i < n) (hi : i < ring.length)
    (hle : ring.length ≤ i + e.slots) : ∃ found k c, Standing ring e.slots found k c ∧ c ≤ i + 1 ∧
      ((ring.take (i + 1)).drop (ring.length - e.slots)).rtakeWhile
        (notOlder decode stamp timestamp) = (ring.take (i + 1)).drop c ∧
      ∀ fuel, n ≤ fuel →
        findChunkLoop e.pid (fun data => (decode data).map stamp) timestamp fuel
          (s.atElement e i) = (.ok (some found), s.atElement e k) := by
  induction n generalizing i with
  | zero => exact absurd hn (Nat.not_lt_zero i)
  | succ n ih =>
    have hturn (fuel : Nat) := findChunkLoop_turn fuel (fun data => (decode data).map stamp)
      timestamp (read_eq hslots hsound hf h hi hle)
    have hconcat {c : Nat} (hc : c ≤ i) :
        (ring.take (i + 1)).drop c = (ring.take i).drop c ++ [ring[i]] := by
      rw [List.take_succ_eq_append_getElem hi, List.drop_append_of_le_length]
      rw [List.length_take]
      omega
    rw [hconcat (by omega), List.rtakeWhile_concat]
    cases hnew : notOlder decode stamp timestamp ring[i] with
    | false =>
      have hnil : (ring.take (i + 1)).drop (i + 1) = [] := by
        rw [List.drop_eq_nil_iff, List.length_take]
        omega
      have hnext := h.next hd hslots hslots' hsound.known hf (hsound.stored hf)
        (hsound.probe_fits hf) hi hle
      rw [if_neg Bool.false_ne_true, ← hnil]
      by_cases hlast : i + 1 < ring.length
      · rw [if_pos hlast] at hnext
        refine ⟨true, i + 1, i + 1, ⟨hlast, by omega, rfl⟩, Nat.le_refl _, rfl, fun fuel hfuel => ?_⟩
        rw [← Nat.sub_add_cancel (Nat.zero_lt_of_lt hfuel), hturn, isOlder_readOf, hnew,
          Bool.not_false, if_pos rfl, Proc.attempt_bind_apply, hnext]
        rfl
      · rw [if_neg hlast] at hnext
        refine ⟨false, i, i + 1, ⟨hi, hle, rfl⟩, Nat.le_refl _, rfl, fun fuel hfuel => ?_⟩
        rw [← Nat.sub_add_cancel (Nat.zero_lt_of_lt hfuel), hturn, isOlder_readOf, hnew,
          Bool.not_false, if_pos rfl, Proc.attempt_bind_apply, hnext]
        rfl
    | true =>
      have hprevious := h.previous hd hslots hslots' hsound.known hf hi hle
      rw [if_pos rfl]
      by_cases hfirst : 0 < i ∧ ring.length < i + e.slots
      · rw [if_pos hfirst] at hprevious
        obtain ⟨found, k, c, hstanding, hc, hsince, hloop⟩ :=
          ih (i := i - 1) (by omega) (by omega) (by omega)
        rw [Nat.sub_add_cancel hfirst.1] at hsince hc
        refine ⟨found, k, c, hstanding, by omega, ?_, fun fuel hfuel => ?_⟩
        · rw [hsince, hconcat hc]
        · rw [← Nat.sub_add_cancel (Nat.zero_lt_of_lt hfuel), hturn, isOlder_readOf, hnew,
            Bool.not_true, if_neg Bool.false_ne_true, Proc.attempt_bind_apply, hprevious]
          exact hloop _ (by omega)
      · rw [if_neg hfirst] at hprevious
        refine ⟨true, i, i, ⟨hi, hle, rfl⟩, Nat.le_succ i, ?_, fun fuel hfuel => ?_⟩
        · have hnil {c : Nat} (hc : i ≤ c) : (ring.take i).drop c = [] := by
            rw [List.drop_eq_nil_iff, List.length_take]
            omega
          rw [hnil (by omega), hconcat (Nat.le_refl i), hnil (Nat.le_refl i), List.rtakeWhile_nil]
        · rw [← Nat.sub_add_cancel (Nat.zero_lt_of_lt hfuel), hturn, isOlder_readOf, hnew,
            Bool.not_true, if_neg Bool.false_ne_true, Proc.attempt_bind_apply, hprevious]
          rfl

/-! ## The next chunk -/

/-- A turn without a step, from an element that can be read. -/
theorem getNextChunk_found {pid recordId : Nat} {x : Option (List UInt8)}
    (decode : List UInt8 → Option α) (fuel : Nat) (hread : iteratorReadElement pid s = (readOf recordId x, s)) :
    getNextChunk pid decode true (fuel + 1) s =
      match chunkOf decode x with
      | some y => (.ok (some y), s)
      | none => getNextChunk pid decode false fuel s := by
  rw [getNextChunk, if_pos rfl, Proc.pure_bind_apply]
  dsimp only
  rw [Proc.attempt_bind_apply, hread]
  cases x with
  | none => rfl
  | some data =>
    rw [chunkOf, Option.bind_some]
    dsimp only [readOf]
    cases decode data <;> rfl

/-- A turn with a step is one without from where the step leads to. -/
theorem getNextChunk_step {pid fuel : Nat} {u : Unit} (hnext : iteratorNext pid s = (.ok u, t)) :
    getNextChunk pid decode false (fuel + 1) s = getNextChunk pid decode true (fuel + 1) t := by
  rw [getNextChunk, getNextChunk, if_neg Bool.false_ne_true, if_pos rfl, Proc.attempt_bind_apply,
    hnext, Proc.pure_bind_apply]

/-- Behind the latest element the iterator is invalidated. -/
theorem getNextChunk_ends {pid fuel : Nat} (hnext : iteratorNext pid s = (.error .notFound, t)) :
    getNextChunk pid decode false (fuel + 1) s = giveUp pid .notFound t := by
  rw [getNextChunk, if_neg Bool.false_ne_true, Proc.attempt_bind_apply, hnext]

/-- The next chunk, with the elements `rest` to go on with. -/
def GetsNext (decode : List UInt8 → Option α) (ring : List (Option (List UInt8))) (s : State D)
    (e : Extent) (rest : List (Option (List UInt8)))
    (r : Except RetCode (Option α) × State D) : Prop :=
  (rest.filterMap (chunkOf decode) = [] ∧ r.1 = .error .notFound) ∨
    ∃ x k, r = (.ok (some x), s.atElement e k) ∧ Standing ring e.slots false k (k + 1) ∧
      rest.filterMap (chunkOf decode) = x :: (ring.drop (k + 1)).filterMap (chunkOf decode)

include hd hslots hslots' hsound hf h in
theorem getNextChunk_latest {k : Nat} (hlt : k < ring.length) (hle : ring.length ≤ k + e.slots)
    (hlast : ¬ k + 1 < ring.length) : ∃ r, GetsNext decode ring s e (ring.drop (k + 1)) r ∧
      ∀ fuel, 0 < fuel → getNextChunk e.pid decode false fuel (s.atElement e k) = r := by
  have hnext := h.next hd hslots hslots' hsound.known hf (hsound.stored hf)
    (hsound.probe_fits hf) hlt hle
  rw [if_neg hlast] at hnext
  refine ⟨giveUp e.pid .notFound (s.atElement e k), .inl ⟨?_, rfl⟩, fun fuel hfuel => ?_⟩
  · rw [List.drop_eq_nil_iff.mpr (Nat.not_lt.mp hlast), List.filterMap_nil]
  · rw [← Nat.sub_add_cancel hfuel, getNextChunk_ends hnext]

include hd hslots hslots' hsound hf h in
/-- `get_next_chunk` returns the next chunk that can be read and decodes. -/
theorem getNextChunk_eq (decode : List UInt8 → Option α) (n : Nat) {found : Bool} {k c : Nat}
    (hstanding : Standing ring e.slots found k c) (hn : ring.length ≤ n + c) :
    ∃ r, GetsNext decode ring s e (ring.drop c) r ∧ ∀ fuel, n < fuel →
      getNextChunk e.pid decode found fuel (s.atElement e k) = r := by
  induction n generalizing found k c with
  | zero =>
    obtain ⟨hlt, hle, rfl⟩ := hstanding
    cases found with
    | true =>
      rw [if_pos rfl] at hn
      omega
    | false =>
      rw [if_neg Bool.false_ne_true] at hn
      exact getNextChunk_latest hd hslots hslots' hsound hf h hlt hle (by omega)
  | succ n ih =>
    -- where no step is made, the element is read
    have hread (k : Nat) (hlt : k < ring.length) (hle : ring.length ≤ k + e.slots)
        (hn : ring.length ≤ n + 1 + k) : ∃ r, GetsNext decode ring s e (ring.drop k) r ∧
          ∀ fuel, n + 1 < fuel → getNextChunk e.pid decode true fuel (s.atElement e k) = r := by
      have hturn (fuel : Nat) := getNextChunk_found decode fuel
        (read_eq hslots hsound hf h hlt hle)
      rw [List.drop_eq_getElem_cons hlt]
      cases hx : chunkOf decode ring[k] with
      | none =>
        obtain ⟨r, hr, hfuel⟩ := ih (k := k) (c := k + 1) ⟨hlt, hle, if_neg Bool.false_ne_true |>.symm⟩ (by omega)
        refine ⟨r, ?_, fun fuel hlt' => ?_⟩
        · unfold GetsNext
          rw [List.filterMap_cons_none hx]
          exact hr
        · rw [← Nat.sub_add_cancel (Nat.zero_lt_of_lt hlt'), hturn, hx]
          exact hfuel _ (by omega)
      | some x =>
        refine ⟨_, .inr ⟨x, k, rfl, ⟨hlt, hle, rfl⟩, List.filterMap_cons_some hx⟩, fun fuel hlt' => ?_⟩
        rw [← Nat.sub_add_cancel (Nat.zero_lt_of_lt hlt'), hturn, hx]
    obtain ⟨hlt, hle, hc⟩ := hstanding
    cases found with
    | true =>
      rw [if_pos rfl] at hc
      subst hc
      exact hread c hlt hle hn
    | false =>
      rw [if_neg Bool.false_ne_true] at hc
      subst hc
      by_cases hlast : k + 1 < ring.length
      · have hnext := h.next hd hslots hslots' hsound.known hf (hsound.stored hf)
          (hsound.probe_fits hf) hlt hle
        rw [if_pos hlast] at hnext
        obtain ⟨r, hr, hfuel⟩ := hread (k + 1) hlast (by omega) hn
        refine ⟨r, hr, fun fuel hlt' => ?_⟩
        rw [← hfuel fuel hlt', ← Nat.sub_add_cancel (Nat.zero_lt_of_lt hlt'),
          getNextChunk_step hnext]
      · obtain ⟨r, hr, hfuel⟩ := getNextChunk_latest hd hslots hslots' hsound hf h hlt hle hlast
        exact ⟨r, hr, fun fuel hlt' => hfuel fuel (Nat.zero_lt_of_lt hlt')⟩

end Steps

/-! ## Stores in between -/

/-- With enough fuel the call returns `r`. -/
def Gives {β : Type} (x : Nat → Fs D β) (s : State D) (r : Except RetCode β × State D) : Prop :=
  ∃ n, ∀ fuel, n ≤ fuel → x fuel s = r

/-- What may happen from the state `t₀` on, between calls of `get_next_chunk` on the partition at
`e` that return the chunks `got`: stores to the partition, with the data `new`, operations on the
other ones, and calls that are refused. -/
inductive Fetching (decode : List UInt8 → Option α) (pids : List Nat) (e : Extent) (t₀ : State D)
    (found₀ : Bool) : List α → List (List UInt8) → Bool → State D → Prop
  | start : Fetching decode pids e t₀ found₀ [] [] found₀ t₀
  | get {got : List α} {new : List (List UInt8)} {found : Bool} {s t : State D} {x : α} :
      Fetching decode pids e t₀ found₀ got new found s →
      Gives (getNextChunk e.pid decode found) s (.ok (some x), t) →
      Fetching decode pids e t₀ found₀ (got ++ [x]) new false t
  | store {got : List α} {new : List (List UInt8)} {found : Bool} {s t : State D}
      (elementData : Nat → UInt8) (elementLen : UInt16) :
      Fetching decode pids e t₀ found₀ got new found s →
      storeElement e.pid elementData elementLen.toNat s = (.ok (), t) →
      Fetching decode pids e t₀ found₀ got
        (new ++ [storedData e.pid (s.part e.pid) elementData elementLen.toNat]) found t
  | refused {got : List α} {new : List (List UInt8)} {found : Bool} {s t : State D} {pid : Nat}
      {code : RetCode} (elementData : Nat → UInt8) (elementLen : UInt16) :
      Fetching decode pids e t₀ found₀ got new found s → pid ∈ pids →
      storeElement pid elementData elementLen.toNat s = (.error code, t) →
      SameButIter pid s t → Fetching decode pids e t₀ found₀ got new found t
  | storeOther {got : List α} {new : List (List UInt8)} {found : Bool} {s t : State D} {pid : Nat}
      (elementData : Nat → UInt8) (elementLen : UInt16) :
      Fetching decode pids e t₀ found₀ got new found s → pid ∈ pids → pid ≠ e.pid →
      storeElement pid elementData elementLen.toNat s = (.ok (), t) →
      Fetching decode pids e t₀ found₀ got new found t
  | clearOther {got : List α} {new : List (List UInt8)} {found : Bool} {s t : State D} {pid : Nat} :
      Fetching decode pids e t₀ found₀ got new found s → pid ∈ pids → pid ≠ e.pid →
      clearPartition pid s = (.ok (), t) → Fetching decode pids e t₀ found₀ got new found t
  | iterateOther {got : List α} {new : List (List UInt8)} {found : Bool} {s : State D} {pid : Nat}
      (c : IteratorCall) :
      Fetching decode pids e t₀ found₀ got new found s → pid ∈ pids → pid ≠ e.pid →
      Fetching decode pids e t₀ found₀ got new found (iterate pid c s).2

/-- The iterator is where the calls of `get_next_chunk` go on, with the chunks `rest`. -/
structure Going (decode : List UInt8 → Option α) (rs : List Registration) (e : Extent)
    (ring : List (Option (List UInt8))) (found : Bool) (rest : List α) (s : State D) : Prop where
  upheld : Upheld rs e ring s
  standing : ∃ k c, Standing ring e.slots found k c ∧ IsAt s e k ∧
    (ring.drop c).filterMap (chunkOf decode) = rest

section Calls

variable {rs : List Registration} {found : Bool} {rest : List α}
  (hreg : AllRegistrable D 0 (firstFree D) rs) (he : e ∈ layout D rs)
  (hd : isDynamic e.pid = false) (hslots : 3 ≤ e.slots) (hslots' : e.slots < 65534)

include he hd hslots hslots' in
/-- The next call returns the first of the chunks, or there is none left; it takes at most a
turn for each element. -/
theorem Going.next (h : Going decode rs e ring found rest s) :
    (rest = [] ∧ ∀ fuel, ring.length < fuel →
      (getNextChunk e.pid decode found fuel s).1 = .error .notFound) ∨
    ∃ x more t, rest = x :: more ∧
      (∀ fuel, ring.length < fuel → getNextChunk e.pid decode found fuel s = (.ok (some x), t)) ∧
      Going decode rs e ring false more t := by
  obtain ⟨k, c, hstanding, hat, hrest⟩ := h.standing
  obtain ⟨base, hworn⟩ := h.upheld.worn
  have hsound := h.upheld.intact e he
  have hf := hworn.hasFirst (Nat.zero_lt_of_lt hstanding.lt)
  obtain ⟨r, hr, hfuel⟩ := getNextChunk_eq hd hslots hslots' hsound hf hworn decode
    ring.length hstanding (Nat.le_add_right _ _)
  rw [hat.eq] at hfuel
  rcases hr with ⟨hnil, hnone⟩ | ⟨x, k', rfl, hstanding', hsplit⟩
  · refine .inl ⟨hrest ▸ hnil, fun fuel hle => ?_⟩
    rw [hfuel fuel hle, hnone]
  · refine .inr ⟨x, _, s.atElement e k', hrest ▸ hsplit, hfuel, ?_, k', _,
      hstanding', isAt_atElement s e k', rfl⟩
    exact h.upheld.of_same rfl rfl

include he hd hslots hslots' in
theorem Going.get (h : Going decode rs e ring found rest s) :
    (rest = [] ∧ ∃ n, ∀ fuel, n ≤ fuel →
      (getNextChunk e.pid decode found fuel s).1 = .error .notFound) ∨
    ∃ x more t, rest = x :: more ∧ Gives (getNextChunk e.pid decode found) s (.ok (some x), t) ∧
      Going decode rs e ring false more t := by
  rcases h.next he hd hslots hslots' with ⟨hnil, hnone⟩ | ⟨x, more, t, hsplit, hnext, hmore⟩
  · exact .inl ⟨hnil, ring.length + 1, hnone⟩
  · exact .inr ⟨x, more, t, hsplit, ⟨ring.length + 1, hnext⟩, hmore⟩

include hreg he hd hslots hslots' in
/-- A new element is behind the others. -/
theorem Going.store (hD : D.ByteUnits) (h : Going decode rs e ring found rest s)
    {elementData : Nat → UInt8} {elementLen : Nat} (hlen : elementLen < 2 ^ 16)
    (hstore : storeElement e.pid elementData elementLen s = (.ok (), t)) :
    Going decode rs e (ring ++ [some (storedData e.pid (s.part e.pid) elementData elementLen)]) found
      (rest ++ [storedData e.pid (s.part e.pid) elementData elementLen].filterMap decode) t := by
  obtain ⟨k, c, ⟨hlt, hle, hc⟩, hat, hrest⟩ := h.standing
  obtain ⟨base, hworn⟩ := h.upheld.worn
  have hk := (h.upheld.intact e he).known
  have hf := hworn.hasFirst (Nat.zero_lt_of_lt hlt)
  obtain ⟨hroom, hat'⟩ := hat.store hd hslots hslots' hk hf hworn hD hlt hle hlen hstore
  have hclt : c ≤ ring.length := by
    rw [hc]
    split <;> omega
  refine ⟨h.upheld.store hreg he hslots hD hd hslots' hlen hstore, k, c, ⟨?_, ?_, hc⟩, hat', ?_⟩
  · rw [List.length_append]
    exact Nat.lt_add_right _ hlt
  · rw [List.length_append, List.length_singleton]
    exact hroom
  · rw [List.drop_append_of_le_length hclt, List.filterMap_append, hrest]
    rfl

include hreg he hslots in
/-- An operation on another partition. -/
theorem Going.other (h : Going decode rs e ring found rest s) {e' : Extent} (he' : e' ∈ layout D rs)
    (hne : e'.pid ≠ e.pid) (hstep : Sound D t.bytes e' (t.part e'.pid) ∧ Local e' s t)
    (hiters : ∀ j, j ≠ partitionIndex e'.pid → t.partitionIterators j = s.partitionIterators j) :
    Going decode rs e ring found rest t := by
  obtain ⟨k, c, hstanding, hat, hrest⟩ := h.standing
  have hapart := layout_apart hreg he' he fun heq => hne (congrArg Extent.pid heq)
  exact ⟨h.upheld.other hreg he hslots he' hne hstep, k, c, hstanding,
    hat.frame hslots (h.upheld.intact e he).known (hiters _ hapart.1.symm) fun x hx =>
      hstep.2.bytes x (hapart.not_owns (layout_ok hreg he') (layout_ok hreg he) hx), hrest⟩

include hreg he in
/-- A call on another partition that writes nothing. -/
theorem Going.moved (h : Going decode rs e ring found rest s) {e' : Extent} (he' : e' ∈ layout D rs)
    (hne : e'.pid ≠ e.pid) (hmoved : Moved e'.pid s t) : Going decode rs e ring found rest t := by
  obtain ⟨k, c, hstanding, hat, hrest⟩ := h.standing
  have hapart := layout_apart hreg he' he fun heq => hne (congrArg Extent.pid heq)
  refine ⟨h.upheld.of_same hmoved.dev hmoved.parts, k, c, hstanding, ?_, hrest⟩
  have hiter : t.iter e.pid = s.iter e.pid := hmoved.iters _ hapart.1.symm
  rw [IsAt, hiter, hmoved.bytes]
  exact hat

include hreg he hd hslots hslots' in
/-- What was returned and what is still to be returned are the chunks, and the new ones. -/
theorem Fetching.going (hD : D.ByteUnits) {pids : List Nat}
    (hpids : pids = (layout D rs).map Extent.pid) {t₀ : State D} {found₀ : Bool} {chunks got : List α}
    {new : List (List UInt8)} (h₀ : Going decode rs e ring found₀ chunks t₀)
    (h : Fetching decode pids e t₀ found₀ got new found s) :
    ∃ rest, Going decode rs e (ring ++ new.map some) found rest s ∧
      got ++ rest = chunks ++ new.filterMap decode := by
  subst hpids
  induction h with
  | start => exact ⟨chunks, by rwa [List.map_nil, List.append_nil], by simp⟩
  | get _ hcall ih =>
    obtain ⟨rest, hgoing, hall⟩ := ih
    obtain ⟨n, hn⟩ := hcall
    rcases hgoing.get he hd hslots hslots' with ⟨-, n', hnone⟩ | ⟨y, more, u, rfl, ⟨n', hn'⟩, hmore⟩
    · have hboth := hnone (n + n') (Nat.le_add_left _ _)
      rw [hn (n + n') (Nat.le_add_right _ _)] at hboth
      cases hboth
    · have hboth := (hn (n + n') (Nat.le_add_right _ _)).symm.trans
        (hn' (n + n') (Nat.le_add_left _ _))
      cases hboth
      exact ⟨more, hmore, by rw [← hall, List.append_assoc, List.singleton_append]⟩
  | store elementData elementLen _ hcall ih =>
    obtain ⟨rest, hgoing, hall⟩ := ih
    have hmore := hgoing.store hreg he hd hslots hslots' hD elementLen.toNat_lt hcall
    rw [List.append_assoc, ← List.map_singleton, ← List.map_append] at hmore
    exact ⟨_, hmore, by rw [List.filterMap_append, ← List.append_assoc, ← List.append_assoc, hall]⟩
  | refused elementData elementLen _ hpid hcall hsame ih =>
    obtain ⟨rest, hgoing, hall⟩ := ih
    obtain ⟨e', he', rfl⟩ := List.mem_map.mp hpid
    by_cases hne : e'.pid = e.pid
    · obtain ⟨k, c, hstanding, hat, -⟩ := hgoing.standing
      obtain ⟨base, hworn⟩ := hgoing.upheld.worn
      rw [hne] at hcall hsame
      have hsame' := hat.refused hslots (hgoing.upheld.intact e he).known
        (hworn.hasFirst (Nat.zero_lt_of_lt hstanding.lt)) hcall hsame
      rw [hsame']
      exact ⟨rest, hgoing, hall⟩
    · exact ⟨rest, hgoing.moved hreg he he' hne (Moved.of_sameButIter hsame), hall⟩
  | storeOther elementData elementLen _ hpid hne hcall ih =>
    obtain ⟨rest, hgoing, hall⟩ := ih
    obtain ⟨e', he', rfl⟩ := List.mem_map.mp hpid
    have hsound := hgoing.upheld.intact e' he'
    have hk := hsound.known
    have hstep := hsound.store hD elementLen.toNat_lt hcall
    obtain ⟨-, -, s₂, w, v, -, hmoved, -, rfl⟩ := storeElement_eq_ok hk.ram hk.sync hcall
    exact ⟨rest, hgoing.other hreg he hslots he' hne hstep (Moved.of_sameButIter hmoved).iters, hall⟩
  | clearOther _ hpid hne hcall ih =>
    obtain ⟨rest, hgoing, hall⟩ := ih
    obtain ⟨e', he', rfl⟩ := List.mem_map.mp hpid
    have hsound := hgoing.upheld.intact e' he'
    have hk := hsound.known
    have hstep := hsound.clear hcall
    obtain ⟨recordId, b, v, -, -, -, rfl⟩ := clearPartition_eq_ok hk.ram hk.sync hcall
    exact ⟨rest, hgoing.other hreg he hslots he' hne hstep fun _ _ => rfl, hall⟩
  | iterateOther c _ hpid hne ih =>
    obtain ⟨rest, hgoing, hall⟩ := ih
    obtain ⟨e', he', rfl⟩ := List.mem_map.mp hpid
    exact ⟨rest, hgoing.moved hreg he he' hne
      (iterate_moved (hgoing.upheld.intact e' he').known.sync c), hall⟩

end Calls

/-- The search starts at the latest element, and takes at most a turn for each element. -/
theorem find_going {rs : List Registration} (he : e ∈ layout D rs) (hd : isDynamic e.pid = false)
    (hslots : 3 ≤ e.slots) (hslots' : e.slots < 65534) (h : Upheld rs e ring s) (hne : ring ≠ [])
    (decode : List UInt8 → Option α) (stamp : α → Timestamp) (timestamp : Timestamp) :
    ∃ found t, (∀ fuel, ring.length ≤ fuel → findChunkFromTimestamp e.pid
        (fun data => (decode data).map stamp) timestamp fuel s = (.ok (some found), t)) ∧
      Going decode rs e ring found (chunksSince decode stamp timestamp e.slots ring) t := by
  obtain ⟨base, hworn⟩ := h.worn
  have hsound := h.intact e he
  have hpos := List.length_pos_iff.mpr hne
  have hf := hworn.hasFirst hpos
  have hinit := hworn.init hslots hsound.known hf
  obtain ⟨found, k, c, hstanding, -, hsince, hloop⟩ := findChunkLoop_eq hd hslots hslots'
    hsound hf hworn decode stamp timestamp (i := ring.length - 1) ring.length (by omega)
    (by omega) (by omega)
  rw [Nat.sub_add_cancel hpos, List.take_length] at hsince
  refine ⟨found, s.atElement e k, fun fuel hfuel => ?_, h.of_same rfl rfl, k, c,
    hstanding, isAt_atElement s e k, ?_⟩
  · rw [findChunkFromTimestamp, Proc.attempt_bind_apply, hinit]
    exact hloop fuel hfuel
  · rw [chunksSince, hsince]

/-- On an empty partition it is refused. -/
theorem find_empty {rs : List Registration} (h : Upheld rs e [] s)
    (decode : List UInt8 → Option Timestamp) (timestamp : Timestamp) (fuel : Nat) :
    ∃ u, findChunkFromTimestamp e.pid decode timestamp fuel s = giveUp e.pid .invalidState u := by
  obtain ⟨base, hring⟩ := h.worn
  have hempty : (s.part e.pid).hasFirstElement = false := by
    by_contra htrue
    obtain ⟨hpos, -⟩ := hring.turned.stored (Bool.of_not_eq_false htrue)
    exact absurd hpos (Nat.lt_irrefl 0)
  refine ⟨(iteratorInit e.pid s).2, ?_⟩
  rw [findChunkFromTimestamp, Proc.attempt_bind_apply, iteratorInit_empty hempty]

/-! ## Chunks in the order of their timestamps -/

theorem compareTimestamps_one_iff (timestamp1 timestamp2 : Timestamp) :
    compareTimestamps timestamp1 timestamp2 = 1 ↔
      timestamp1.seconds.toNat * 1000 + timestamp1.ms.toNat <
        timestamp2.seconds.toNat * 1000 + timestamp2.ms.toNat := by
  unfold compareTimestamps
  dsimp only
  split
  · omega
  · split <;> omega

theorem compareTimestamps_neg_iff (timestamp1 timestamp2 : Timestamp) :
    compareTimestamps timestamp1 timestamp2 = -1 ↔
      timestamp2.seconds.toNat * 1000 + timestamp2.ms.toNat <
        timestamp1.seconds.toNat * 1000 + timestamp1.ms.toNat := by
  unfold compareTimestamps
  dsimp only
  split
  · omega
  · split <;> omega

/-- If no chunk is older than the one in front of it, those behind the latest older one are all
that are not older. -/
theorem filterMap_rtakeWhile (xs : List (Option (List UInt8)))
    (hsorted : (xs.filterMap (chunkOf decode)).Pairwise fun a b =>
      compareTimestamps (stamp a) (stamp b) ≠ -1) :
    (xs.rtakeWhile (notOlder decode stamp timestamp)).filterMap (chunkOf decode) =
      (xs.filterMap (chunkOf decode)).filter fun c =>
        compareTimestamps (stamp c) timestamp ≠ 1 := by
  induction xs using List.reverseRecOn with
  | nil => rfl
  | append_singleton xs x ih =>
    rw [List.filterMap_append] at hsorted ⊢
    rw [List.rtakeWhile_concat]
    obtain ⟨hxs, -, hlast⟩ := List.pairwise_append.mp hsorted
    cases hx : chunkOf decode x with
    | none =>
      have hnew : notOlder decode stamp timestamp x = true := by
        rw [notOlder, hx]
        rfl
      rw [if_pos hnew, List.filterMap_append, ih hxs, List.filterMap_cons_none hx,
        List.filterMap_nil, List.append_nil, List.append_nil]
    | some c =>
      rw [List.filterMap_cons_some hx, List.filterMap_nil] at hlast ⊢
      by_cases hold : compareTimestamps (stamp c) timestamp = 1
      · have hnew : ¬ notOlder decode stamp timestamp x = true := by
          rw [notOlder, hx, Option.any_some, decide_eq_true hold]
          exact Bool.false_ne_true
        rw [if_neg hnew, List.filterMap_nil, eq_comm, List.filter_eq_nil_iff]
        intro d hd
        rw [decide_eq_true_iff, not_not]
        rcases List.mem_append.mp hd with hd | hd
        · have hle := hlast d hd c List.mem_cons_self
          rw [Ne, compareTimestamps_neg_iff] at hle
          rw [compareTimestamps_one_iff] at hold ⊢
          exact Nat.lt_of_le_of_lt (Nat.not_lt.mp hle) hold
        · rw [List.mem_singleton.mp hd]
          exact hold
      · have hnew : notOlder decode stamp timestamp x = true := by
          rw [notOlder, hx, Option.any_some, decide_eq_false hold]
          rfl
        rw [if_pos hnew, List.filterMap_append, ih hxs, List.filterMap_cons_some hx,
          List.filterMap_nil, List.filter_append, List.filter_cons_of_pos (by simpa using hold),
          List.filter_nil]

/-! ## The theorem -/

/-- From blank storage on, the elements are kept. -/
theorem upheld_since_boot (hD : D.ByteUnits) {rs : List Registration} {pids : List Nat}
    {s₀ s₁ : State D} (hblank : Blank s₀.bytes D.size) (hboot : boot rs s₀ = (.ok pids, s₁))
    (he : e ∈ layout D rs) (hstatic : isDynamic e.pid = false) (hslots : 3 ≤ e.slots)
    (hslots' : e.slots < 65534) (hworn : WornBy rs pids e s₁ ring s) : Upheld rs e ring s := by
  obtain ⟨hsize, hreg, hpids, hdev₁, -, hparts⟩ := boot_blank hblank hboot
  have hblank₁ : Blank s₁.bytes D.size := by
    unfold State.bytes
    rw [hdev₁]
    exact hblank
  have hfresh : (s₁.part e.pid).hasFirstElement = false := by
    obtain ⟨p, hp⟩ := hparts e he
    rw [hp]
    rfl
  exact hworn.upheld hreg he hslots hD hsize hpids hstatic hslots'
    (intact_blank hreg hblank₁ hparts) hfresh

/-- In storage with byte units, on a static partition with elements of which some may be damaged:
a search for a timestamp and then `get_next_chunk` until it finds no more return the chunks
behind the latest readable one that is older, each once and in the order they were stored. Stores
in between add their chunks at the end; no other call, and no refused one, changes what is
returned. Where timestamps do not decrease, these are all readable chunks that are not older. -/
theorem chunks_retrieved (hD : D.ByteUnits) {rs : List Registration} {pids : List Nat}
    {s₀ s₁ : State D} (hblank : Blank s₀.bytes D.size) (hboot : boot rs s₀ = (.ok pids, s₁))
    (he : e ∈ layout D rs) (hstatic : isDynamic e.pid = false) (hslots : 3 ≤ e.slots)
    (hslots' : e.slots < 65534) (hworn : WornBy rs pids e s₁ ring s)
    (decode : List UInt8 → Option α) (stamp : α → Timestamp) (timestamp : Timestamp) :
    (ring = [] → ∀ fuel, (findChunkFromTimestamp e.pid (fun data => (decode data).map stamp)
      timestamp fuel s).1 = .error .invalidState) ∧
    (ring ≠ [] → ∃ found t, Gives (findChunkFromTimestamp e.pid
        (fun data => (decode data).map stamp) timestamp) s (.ok (some found), t) ∧
      ∀ got new found' u, Fetching decode pids e t found got new found' u →
        (got = chunksSince decode stamp timestamp e.slots ring ++ new.filterMap decode ∧
          ∃ n, ∀ fuel, n ≤ fuel →
            (getNextChunk e.pid decode found' fuel u).1 = .error .notFound) ∨
        ∃ x more u', chunksSince decode stamp timestamp e.slots ring ++ new.filterMap decode =
            got ++ x :: more ∧
          Gives (getNextChunk e.pid decode found') u (.ok (some x), u')) ∧
    (((ring.drop (ring.length - e.slots)).filterMap (chunkOf decode)).Pairwise (fun a b =>
        compareTimestamps (stamp a) (stamp b) ≠ -1) →
      chunksSince decode stamp timestamp e.slots ring =
        ((ring.drop (ring.length - e.slots)).filterMap (chunkOf decode)).filter fun c =>
          compareTimestamps (stamp c) timestamp ≠ 1) := by
  obtain ⟨-, hreg, hpids, -⟩ := boot_blank hblank hboot
  have hupheld := upheld_since_boot hD hblank hboot he hstatic hslots hslots' hworn
  refine ⟨fun hnil fuel => ?_, fun hne => ?_, filterMap_rtakeWhile _⟩
  · subst hnil
    obtain ⟨u, hcall⟩ := find_empty hupheld (fun data => (decode data).map stamp) timestamp fuel
    rw [hcall]
    rfl
  · obtain ⟨found, t, hfind, hgoing⟩ :=
      find_going he hstatic hslots hslots' hupheld hne decode stamp timestamp
    refine ⟨found, t, ⟨ring.length, hfind⟩, fun got new found' u hfetching => ?_⟩
    obtain ⟨rest, hgoing', hall⟩ := hfetching.going hreg he hstatic hslots hslots' hD hpids hgoing
    rcases hgoing'.get he hstatic hslots hslots' with ⟨rfl, hnone⟩ | ⟨x, more, u', rfl, hnext, -⟩
    · rw [List.append_nil] at hall
      exact .inl ⟨hall, hnone⟩
    · exact .inr ⟨x, more, u', hall.symm, hnext⟩

theorem two_lt_elementLenMax : 2 < 2 ^ 16 := by decide

/-- Four slots for elements of two bytes and a checksum. -/
def checkedSlots : List Registration := [⟨38, false, true, 2, two_lt_elementLenMax⟩]

def checkedExtent : Extent := ⟨0x4000, 400, 38, 2⟩

def checkedStart : State eeprom := (boot checkedSlots (powerUp (D := eeprom) blankBytes)).2

/-- More elements than slots. -/
def checkedRing : State eeprom :=
  storeAll 0x4000 [[1, 1], [2, 2], [3, 3], [4, 9], [5, 5]] checkedStart

/-- The byte at an address cleared. -/
def damageByte (address : Nat) (s : State eeprom) : State eeprom :=
  { s with dev := fun x => if x = address then 0 else s.dev x }

theorem damageByte_damaged {address : Nat} (s : State eeprom) (h : e.InData address) :
    Damaged e s (damageByte address s) := by
  refine ⟨fun x hx => if_neg ?_, rfl, rfl⟩
  intro heq
  exact hx (heq ▸ h)

/-- With damage to the second one. -/
def damagedRing : State eeprom := damageByte 425 checkedRing

/-- Two bytes that are the same. -/
def decodePair : List UInt8 → Option UInt8
  | [a, b] => if a = b then some a else none
  | _ => none

def secondsOf (seconds : UInt8) : Timestamp := ⟨UInt32.ofNat seconds.toNat, 0⟩

theorem wornBy_storeList {rs : List Registration} {pids : List Nat} {s₁ : State D}
    (h : WornBy rs pids e s₁ ring s) (data : List UInt8)
    (hstore : (storeList e.pid data s).1 = .ok ())
    (hdata : storedData e.pid (s.part e.pid) (bytesOf data) (UInt16.ofNat data.length).toNat = data) :
    WornBy rs pids e s₁ (ring ++ [some data]) (storeList e.pid data s).2 := by
  have hnext := WornBy.store (bytesOf data) (UInt16.ofNat data.length) h (Proc.eq_of_fst hstore)
  rwa [hdata] at hnext

theorem damagedRing_worn : WornBy checkedSlots [0x4000] checkedExtent checkedStart
    [some [1, 1], none, some [3, 3], some [4, 9], some [5, 5]] damagedRing := by
  have h₀ : WornBy checkedSlots [0x4000] checkedExtent checkedStart [] checkedStart := WornBy.start
  have h₁ := wornBy_storeList h₀ [1, 1] (by decide +kernel) (by decide +kernel)
  have h₂ := wornBy_storeList h₁ [2, 2] (by decide +kernel) (by decide +kernel)
  have h₃ := wornBy_storeList h₂ [3, 3] (by decide +kernel) (by decide +kernel)
  have h₄ := wornBy_storeList h₃ [4, 9] (by decide +kernel) (by decide +kernel)
  have h₅ := wornBy_storeList h₄ [5, 5] (by decide +kernel) (by decide +kernel)
  have hin : checkedExtent.InData 425 := ⟨1, by decide +kernel, by decide +kernel, by decide +kernel⟩
  have hring : reread damagedRing.bytes checkedExtent [some [1, 1], some [2, 2], some [3, 3],
      some [4, 9], some [5, 5]] = [some [1, 1], none, some [3, 3], some [4, 9], some [5, 5]] := by
    decide +kernel
  rw [← hring]
  exact h₅.damage (damageByte_damaged checkedRing hin)

theorem chunks_retrieved_damaged :
    ∃ found t, Gives (findChunkFromTimestamp 0x4000 (fun data => (decodePair data).map secondsOf)
        ⟨3, 0⟩) damagedRing (.ok (some found), t) ∧
      ∀ got new found' u, Fetching decodePair [0x4000] checkedExtent t found got new found' u →
        (got = [3, 5] ++ new.filterMap decodePair ∧ ∃ n, ∀ fuel, n ≤ fuel →
          (getNextChunk 0x4000 decodePair found' fuel u).1 = .error .notFound) ∨
        ∃ x more u', [3, 5] ++ new.filterMap decodePair = got ++ x :: more ∧
          Gives (getNextChunk 0x4000 decodePair found') u (.ok (some x), u') := by
  have hboot : boot checkedSlots (powerUp (D := eeprom) blankBytes) = (.ok [0x4000], checkedStart) :=
    Proc.eq_of_fst (by decide +kernel)
  have hsince : chunksSince decodePair secondsOf ⟨3, 0⟩ checkedExtent.slots
      [some [1, 1], none, some [3, 3], some [4, 9], some [5, 5]] = [3, 5] := by decide +kernel
  rw [← hsince]
  exact (chunks_retrieved eeprom_byteUnits (fun _ _ => rfl) hboot (by decide +kernel) (by decide)
    (by decide +kernel) (by decide +kernel) damagedRing_worn decodePair secondsOf ⟨3, 0⟩).2.1
    (List.cons_ne_nil _ _)

end OpenBadge.Storer
