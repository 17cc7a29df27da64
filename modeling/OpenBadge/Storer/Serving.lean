import OpenBadge.Filesystem.Cleared
import OpenBadge.Storer.Retrieval

/-!
# Partitions that serve their chunks

While nothing is stored, the iterator of a partition is where the next call goes on, or it
is invalid. A call on one partition leaves the iterators of the other ones as they are.
-/

namespace OpenBadge.Storer

open OpenBadge.Lib OpenBadge.Storage OpenBadge.Filesystem
open Processing (Timestamp)
open Proc (Keeps)

variable {D : Device} {s t s₀ : State D} {pid : Nat} {α : Type}

/-! ## What a call moves -/

theorem giveUp_moved (e : RetCode) : Keeps (Moved pid s₀) (giveUp pid e : Fs D α) :=
  (modifyIterator_moved _).bind fun _ => Keeps.fail _ _

theorem iteratorReadElement_moved (hs₀ : Sync s₀ pid) :
    Keeps (Moved pid s₀) (iteratorReadElement pid) := by
  intro s hs
  have hread := iterate_keeps hs₀ .readElement s hs
  rw [iterate, Proc.bind_apply] at hread
  rcases hcall : iteratorReadElement pid s with ⟨_ | _, _⟩ <;> rwa [hcall] at hread

theorem findChunkLoop_moved (hs₀ : Sync s₀ pid) (decode : List UInt8 → Option Timestamp)
    (timestamp : Timestamp) (fuel : Nat) :
    Keeps (Moved pid s₀) (findChunkLoop pid decode timestamp fuel) := by
  induction fuel with
  | zero => exact Keeps.pure _ _
  | succ fuel ih =>
    refine (iteratorReadElement_moved hs₀).attempt.bind fun read => ?_
    split
    case h_3 => exact giveUp_moved _
    all_goals
      split
      · refine (iterate_keeps hs₀ .next).attempt.bind fun ret => ?_
        split
        · exact Keeps.pure _ _
        · exact Keeps.pure _ _
        · exact giveUp_moved _
      · refine (iterate_keeps hs₀ .previous).attempt.bind fun ret => ?_
        split
        · exact ih
        · exact Keeps.pure _ _
        · exact giveUp_moved _

theorem findChunkFromTimestamp_moved (hs₀ : Sync s₀ pid) (decode : List UInt8 → Option Timestamp)
    (timestamp : Timestamp) (fuel : Nat) :
    Keeps (Moved pid s₀) (findChunkFromTimestamp pid decode timestamp fuel) := by
  refine (iteratorInit_moved hs₀).attempt.bind fun ret => ?_
  split
  · exact giveUp_moved _
  · exact findChunkLoop_moved hs₀ decode timestamp fuel

theorem getNextChunk_moved (hs₀ : Sync s₀ pid) (decode : List UInt8 → Option α) (found : Bool)
    (fuel : Nat) : Keeps (Moved pid s₀) (getNextChunk pid decode found fuel) := by
  induction fuel generalizing found with
  | zero => exact Keeps.pure _ _
  | succ fuel ih =>
    have hread : Keeps (Moved pid s₀) (getNextChunk pid decode true (fuel + 1)) := by
      rw [getNextChunk, if_pos rfl]
      refine (Keeps.pure _ _).bind fun ret => ?_
      dsimp only
      split
      · exact giveUp_moved _
      · refine (iteratorReadElement_moved hs₀).attempt.bind fun read => ?_
        split
        · split
          · exact Keeps.pure _ _
          · exact ih false
        · exact ih false
        · exact giveUp_moved _
    cases found with
    | true => exact hread
    | false =>
      intro s hs
      have hnext := iterate_keeps hs₀ .next s hs
      rw [iterate] at hnext
      rcases hcall : iteratorNext pid s with ⟨e | _, u⟩
      · rw [getNextChunk, if_neg Bool.false_ne_true, Proc.attempt_bind_apply]
        rw [hcall] at hnext ⊢
        exact giveUp_moved e u hnext
      · rw [getNextChunk_step hcall]
        rw [hcall] at hnext
        exact hread u hnext

/-! ## Invalid iterators -/

theorem giveUp_apply (e : RetCode) (s : State D) :
    (giveUp pid e : Fs D α) s =
      (.error e, s.setIter pid { s.iter pid with iteratorValid := 0 }) := rfl

theorem giveUp_invalid (e : RetCode) (s : State D) :
    (((giveUp pid e : Fs D α) s).2.iter pid).iteratorValid = 0 := by
  rw [giveUp_apply, setIter_iter]

/-- A call that fails leaves the iterator invalid. -/
theorem getNextChunk_error {decode : List UInt8 → Option α} {found : Bool} {fuel : Nat}
    {e : RetCode} (h : getNextChunk pid decode found fuel s = (.error e, t)) :
    (t.iter pid).iteratorValid = 0 := by
  have hgiveUp {u : State D} {e' : RetCode}
      (h : (giveUp pid e' : Fs D (Option α)) u = (.error e, t)) : (t.iter pid).iteratorValid = 0 := by
    rw [← giveUp_invalid (α := Option α) e' u, h]
  induction fuel generalizing found s with
  | zero => cases h
  | succ fuel ih =>
    have hread (u : State D)
        (h : getNextChunk pid decode true (fuel + 1) u = (.error e, t)) :
        (t.iter pid).iteratorValid = 0 := by
      rw [getNextChunk, if_pos rfl, Proc.pure_bind_apply] at h
      dsimp only at h
      rw [Proc.attempt_bind_apply] at h
      rcases hcall : iteratorReadElement pid u with ⟨code | ⟨data, recordId⟩, u'⟩
      · rw [hcall] at h
        cases code with
        | invalidData => exact ih h
        | _ => exact hgiveUp h
      · rw [hcall] at h
        dsimp only at h
        cases hchunk : decode data with
        | none =>
          rw [hchunk] at h
          exact ih h
        | some x =>
          rw [hchunk] at h
          cases h
    cases found with
    | true => exact hread s h
    | false =>
      rcases hnext : iteratorNext pid s with ⟨e' | u, s'⟩
      · rw [getNextChunk, if_neg Bool.false_ne_true, Proc.attempt_bind_apply, hnext] at h
        exact hgiveUp h
      · rw [getNextChunk_step hnext] at h
        exact hread s' h

theorem iteratorCheckValidity_invalid
    (h : (s.iter pid).iteratorValid ≠ iteratorValidNumber) :
    iteratorCheckValidity pid s = (.error .invalidState, s) := by
  rw [iteratorCheckValidity, getIterator_bind, Proc.failIf_bind_pos h]

/-- An invalid iterator finds nothing. -/
theorem getNextChunk_invalid (decode : List UInt8 → Option α) (found : Bool) {fuel : Nat}
    (hfuel : 0 < fuel) (h : (s.iter pid).iteratorValid ≠ iteratorValidNumber) :
    getNextChunk pid decode found fuel s = giveUp pid .invalidState s := by
  have hcheck := iteratorCheckValidity_invalid h
  rw [← Nat.sub_add_cancel hfuel]
  cases found with
  | true =>
    rw [getNextChunk, if_pos rfl, Proc.pure_bind_apply]
    dsimp only
    rw [Proc.attempt_bind_apply, iteratorReadElement, Proc.bind_error hcheck]
  | false =>
    rw [getNextChunk, if_neg Bool.false_ne_true, Proc.attempt_bind_apply, iteratorNext,
      Proc.bind_error hcheck]

/-! ## Calls without stores in between -/

/-- The partition at `e` serves the chunks `rest` next. -/
structure Serves (decode : List UInt8 → Option α) (rs : List Registration) (e : Extent)
    (ring : List (Option (List UInt8))) (found : Bool) (rest : List α) (s : State D) : Prop where
  upheld : Upheld rs e ring s
  goes : Going decode rs e ring found rest s ∨
    rest = [] ∧ (s.iter e.pid).iteratorValid ≠ iteratorValidNumber

section Calls

variable {rs : List Registration} {e : Extent} {ring : List (Option (List UInt8))}
  {decode : List UInt8 → Option α} {found : Bool} {rest : List α} {fuel : Nat}
  (he : e ∈ layout D rs) (hd : isDynamic e.pid = false) (hslots : 3 ≤ e.slots)
  (hslots' : e.slots < 65534)

/-- Without a valid iterator, nothing is left. -/
theorem Serves.invalid (h : Upheld rs e ring s)
    (hinvalid : (s.iter e.pid).iteratorValid ≠ iteratorValidNumber) :
    Serves decode rs e ring found [] s := ⟨h, .inr ⟨rfl, hinvalid⟩⟩

theorem zero_ne_iteratorValidNumber : 0 ≠ iteratorValidNumber := by decide

include he hd hslots hslots' in
/-- A call of `get_next_chunk` serves the first of the chunks that are left. -/
theorem Serves.next (h : Serves decode rs e ring found rest s) (hfuel : ring.length < fuel) :
    (rest = [] ∧ ∃ code u, (code = .notFound ∨ code = .invalidState) ∧
      getNextChunk e.pid decode found fuel s = (.error code, u) ∧
      Serves decode rs e ring false [] u) ∨
    ∃ x more u, rest = x :: more ∧ getNextChunk e.pid decode found fuel s = (.ok (some x), u) ∧
      Serves decode rs e ring false more u := by
  have hsync := (h.upheld.intact e he).known.sync
  have hfails {code : RetCode} {u : State D}
      (hcall : getNextChunk e.pid decode found fuel s = (.error code, u)) :
      Serves decode rs e ring false [] u := by
    have hmoved := getNextChunk_moved hsync decode found fuel s (Moved.refl _ s)
    rw [hcall] at hmoved
    refine Serves.invalid (h.upheld.of_same hmoved.dev hmoved.parts) ?_
    rw [getNextChunk_error hcall]
    exact zero_ne_iteratorValidNumber
  rcases h.goes with hgoing | ⟨rfl, hinvalid⟩
  · rcases hgoing.next he hd hslots hslots' with ⟨rfl, hnone⟩ | ⟨x, more, u, rfl, hnext, hmore⟩
    · have hcall := Proc.eq_of_fst (hnone fuel hfuel)
      exact .inl ⟨rfl, .notFound, _, .inl rfl, hcall, hfails hcall⟩
    · exact .inr ⟨x, more, u, rfl, hnext fuel hfuel, hmore.upheld, .inl hmore⟩
  · have hcall := getNextChunk_invalid decode found (Nat.zero_lt_of_lt hfuel) hinvalid
    rw [giveUp_apply] at hcall
    exact .inl ⟨rfl, .invalidState, _, .inr rfl, hcall, hfails hcall⟩

include he hd hslots hslots' in
/-- After a search for a timestamp the chunks from the timestamp on are left. -/
theorem Serves.find (h : Upheld rs e ring s) (decode : List UInt8 → Option α)
    (stamp : α → Timestamp) (timestamp : Timestamp) (hfuel : ring.length ≤ fuel) :
    (∃ found u, findChunkFromTimestamp e.pid (fun data => (decode data).map stamp) timestamp
        fuel s = (.ok (some found), u) ∧
      Serves decode rs e ring found (chunksSince decode stamp timestamp e.slots ring) u) ∨
    ∃ u, findChunkFromTimestamp e.pid (fun data => (decode data).map stamp) timestamp fuel s =
        (.error .invalidState, u) ∧
      Serves decode rs e ring false (chunksSince decode stamp timestamp e.slots ring) u := by
  by_cases hne : ring = []
  · subst hne
    obtain ⟨u, hcall⟩ := find_empty h (fun data => (decode data).map stamp) timestamp fuel
    have hmoved := findChunkFromTimestamp_moved (h.intact e he).known.sync
      (fun data => (decode data).map stamp) timestamp fuel s (Moved.refl _ s)
    rw [hcall] at hmoved
    have hinvalid : (((giveUp e.pid .invalidState : Fs D (Option Bool)) u).2.iter
        e.pid).iteratorValid = 0 := giveUp_invalid _ u
    rw [giveUp_apply] at hcall hmoved hinvalid
    rw [chunksSince, List.drop_nil, List.rtakeWhile_nil, List.filterMap_nil]
    refine .inr ⟨_, hcall, Serves.invalid (h.of_same hmoved.dev hmoved.parts) ?_⟩
    rw [hinvalid]
    exact zero_ne_iteratorValidNumber
  · obtain ⟨found, u, hcall, hgoing⟩ :=
      find_going he hd hslots hslots' h hne decode stamp timestamp
    exact .inl ⟨found, u, hcall fuel hfuel, hgoing.upheld, .inl hgoing⟩

/-- A call on another partition. -/
theorem Serves.moved (hreg : AllRegistrable D 0 (firstFree D) rs) (he : e ∈ layout D rs)
    (h : Serves decode rs e ring found rest s) {e' : Extent} (he' : e' ∈ layout D rs)
    (hne : e'.pid ≠ e.pid) (hmoved : Moved e'.pid s t) : Serves decode rs e ring found rest t := by
  refine ⟨h.upheld.of_same hmoved.dev hmoved.parts, ?_⟩
  rcases h.goes with hgoing | ⟨rfl, hinvalid⟩
  · exact .inl (hgoing.moved hreg he he' hne hmoved)
  · have hapart := layout_apart hreg he' he fun heq => hne (congrArg Extent.pid heq)
    refine .inr ⟨rfl, ?_⟩
    rw [State.iter, hmoved.iters _ hapart.1.symm]
    exact hinvalid

end Calls

end OpenBadge.Storer
