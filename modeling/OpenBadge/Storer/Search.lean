import OpenBadge.Filesystem.Rank
import OpenBadge.Filesystem.Isolation
import OpenBadge.Storer.Model

/-!
# Searches end

On a storage with arbitrary contents: the search for the latest element ends, the iterator
steps back only so often, and with it `find_chunk_from_timestamp` ends.
-/

namespace OpenBadge.Storer

open OpenBadge.Lib OpenBadge.Storage OpenBadge.Filesystem
open Processing (Timestamp)

variable {D : Device} {s t : State D} {e : Extent}

/-- How many of `n` calls of `filesystem_iterator_previous` succeed. -/
def stepsBack (pid : Nat) : Nat → State D → Nat
  | 0, _ => 0
  | n + 1, s =>
    (if (iteratorPrevious pid s).1 = .ok () then 1 else 0) +
      stepsBack pid n (iteratorPrevious pid s).2

/-- One call lowers the rank when it succeeds, and never raises it. -/
theorem iteratorPrevious_rank (he : e.Ok D) (hroom : Roomless e) (hplace : (s.part e.pid).At e)
    (ht : Typed s e.pid) :
    ((iteratorPrevious e.pid s).2.part e.pid).At e ∧ Typed (iteratorPrevious e.pid s).2 e.pid ∧
      rank e (iteratorPrevious e.pid s).2 +
        (if (iteratorPrevious e.pid s).1 = .ok () then 1 else 0) ≤ rank e s := by
  rcases hstep : iteratorPrevious e.pid s with ⟨r | u, t⟩
  · have hlooked := iteratorPrevious_error he hplace hstep
    exact ⟨hlooked.at_place, hlooked.typed ht, hlooked.rank_le ht⟩
  · have hback := iteratorPrevious_eq_ok he hplace ht hstep
    exact ⟨hback.at_place, hback.typed, hback.rank_lt he hroom ht⟩

theorem stepsBack_le (he : e.Ok D) (hroom : Roomless e) (n : Nat) :
    ∀ {s : State D}, (s.part e.pid).At e → Typed s e.pid → stepsBack e.pid n s ≤ rank e s := by
  induction n with
  | zero => exact fun _ _ => Nat.zero_le _
  | succ n ih =>
    intro s hplace ht
    obtain ⟨hplace', ht', hrank⟩ := iteratorPrevious_rank he hroom hplace ht
    have hrest := ih hplace' ht'
    rw [stepsBack]
    omega

/-- A turn of the loop from where the iterator's element has been read. -/
theorem findChunkTurn_ends (he : e.Ok D) (hroom : Roomless e)
    {decode : List UInt8 → Option Timestamp} {timestamp : Timestamp} {fuel : Nat}
    (ih : ∀ {s : State D}, (s.part e.pid).At e → Typed s e.pid → rank e s < fuel →
      (findChunkLoop e.pid decode timestamp fuel s).1 ≠ .ok none)
    {t : State D} (hplace : (t.part e.pid).At e) (ht : Typed t e.pid) (hle : rank e t ≤ fuel)
    (read : Except RetCode (List UInt8 × Nat)) :
    ((if isOlder decode timestamp read then do
        let ret ← Proc.attempt (iteratorNext e.pid)
        match ret with
        | .ok _ => pure (some true)
        | .error .notFound => pure (some false)
        | .error e' => giveUp e.pid e'
      else do
        let ret ← Proc.attempt (iteratorPrevious e.pid)
        match ret with
        | .ok _ => findChunkLoop e.pid decode timestamp fuel
        | .error .notFound => pure (some true)
        | .error e' => giveUp e.pid e' : Fs D (Option Bool)) t).1 ≠ .ok none := by
  by_cases holder : isOlder decode timestamp read = true
  · rw [if_pos holder, Proc.attempt_bind_apply]
    rcases iteratorNext e.pid t with ⟨r | _, t'⟩
    · intro h
      cases r <;> cases h
    · intro h
      cases h
  · rw [if_neg holder, Proc.attempt_bind_apply]
    rcases hstep : iteratorPrevious e.pid t with ⟨r | _, t'⟩
    · intro h
      cases r <;> cases h
    · have hback := iteratorPrevious_eq_ok he hplace ht hstep
      have hrank : rank e t' < rank e t := hback.rank_lt he hroom ht
      exact ih (s := t') hback.at_place hback.typed (by omega)

/-- The loop runs at most as often as the rank of the state says. -/
theorem findChunkLoop_ends (he : e.Ok D) (hroom : Roomless e)
    (decode : List UInt8 → Option Timestamp) (timestamp : Timestamp) (fuel : Nat) :
    ∀ {s : State D}, (s.part e.pid).At e → Typed s e.pid → rank e s < fuel →
      (findChunkLoop e.pid decode timestamp fuel s).1 ≠ .ok none := by
  induction fuel with
  | zero => exact fun _ _ h => absurd h (Nat.not_lt_zero _)
  | succ fuel ih =>
    intro s hplace ht hlt
    have hlooked := iteratorReadElement_looked he s (Looked.refl hplace)
    rw [findChunkLoop, Proc.attempt_bind_apply]
    generalize iteratorReadElement e.pid s = x at hlooked ⊢
    obtain ⟨read, t⟩ := x
    have htt := hlooked.typed ht
    have hle : rank e t ≤ rank e s := hlooked.rank_le ht
    have hfuel : rank e t ≤ fuel := by omega
    have hgo := findChunkTurn_ends he hroom ih hlooked.at_place htt hfuel read
    rcases read with r | x
    · cases r with
      | invalidData => exact hgo
      | _ =>
        intro h
        cases h
    · exact hgo

/-- The iterator at the latest element. -/
theorem iteratorInit_typed (he : e.Ok D) (hplace : (s.part e.pid).At e) (ht : Typed s e.pid)
    {u : Unit} (h : iteratorInit e.pid s = (.ok u, t)) : (t.part e.pid).At e ∧ Typed t e.pid := by
  rw [iteratorInit, iteratorInvalidate, Proc.bind_ok (modifyIterator_apply _),
    getPartition_bind] at h
  obtain ⟨_, s₁, hcheck, h₁⟩ := Proc.bind_eq_ok.mp h
  rw [(Proc.failIf_eq_ok.mp hcheck).2, Proc.bind_ok (modifyIterator_apply _),
    Proc.attempt_bind_apply, setIter_setIter, setIter_part, setIter_iter] at h₁
  generalize hv : (s.setIter e.pid _) = v at h₁
  have hplace' : (v.part e.pid).At e := by
    rw [← hv]
    exact hplace
  have htv : Typed v e.pid := by
    rw [← hv]
    refine ⟨ht.last_lt, ht.latest_lt, ht.latestLen_lt, ?_, ?_, ?_⟩ <;> rw [setIter_iter]
    · exact ht.latest_lt
    · exact ht.latestLen_lt
    · exact ht.header
  rcases hread : readElementHeader e.pid (s.part e.pid).latestElementAddress v with ⟨r | hd, s₂⟩
  · rw [hread] at h₁
    cases r <;> cases h₁
  · rw [hread] at h₁
    obtain ⟨hlooked, -, -, hheader⟩ := readElementHeader_eq_ok he hplace' hread
    have ht₂ := hlooked.typed htv
    cases h₁
    refine ⟨hlooked.at_place, ht₂.last_lt, ht₂.latest_lt, ht₂.latestLen_lt, ?_, ?_, ?_⟩ <;>
      rw [setIter_iter]
    · exact ht₂.cur_lt
    · exact ht₂.len_lt
    · exact hheader

/-- `find_chunk_from_timestamp` ends, with enough fuel for the rank after the start. -/
theorem findChunkFromTimestamp_ends (he : e.Ok D) (hroom : Roomless e)
    (hplace : (s.part e.pid).At e) (ht : Typed s e.pid) (decode : List UInt8 → Option Timestamp)
    (timestamp : Timestamp) : ∃ n, ∀ fuel, n ≤ fuel →
      (findChunkFromTimestamp e.pid decode timestamp fuel s).1 ≠ .ok none := by
  rcases hinit : iteratorInit e.pid s with ⟨r | u, t⟩
  · refine ⟨0, fun fuel _ => ?_⟩
    rw [findChunkFromTimestamp, Proc.attempt_bind_apply, hinit]
    exact nofun
  · obtain ⟨hplace', ht'⟩ := iteratorInit_typed he hplace ht hinit
    refine ⟨rank e t + 1, fun fuel hle => ?_⟩
    rw [findChunkFromTimestamp, Proc.attempt_bind_apply, hinit]
    exact findChunkLoop_ends he hroom decode timestamp fuel hplace' ht' hle

/-- On a storage with any contents and for every registered partition whose size leaves room for
fewer than 65534 element-headers: the loop of `filesystem_find_latest_element_address`, started
as the function does, ends by its own condition; however often `filesystem_iterator_previous` is
called, the number of successes is bounded; `find_chunk_from_timestamp` returns. -/
theorem searches_end (he : e.Ok D) (hroom : e.size / getElementHeaderLen e.pid < 65534)
    (hplace : (s.part e.pid).At e) (ht : Typed s e.pid) :
    (∀ recordId len ret t, getNextElementHeader e.pid e.start recordId len s = (ret, t) →
      ∃ cur recordId' len' ret' u, findLatestLoop e.pid len ((s.part e.pid).metadata.partitionSize + 1)
          e.start recordId len ret t = (.ok (cur, recordId', len', ret'), u) ∧
        ∀ x, ret' = .ok x → x.1 ≤ cur) ∧
    (∃ k, ∀ n, stepsBack e.pid n s ≤ k) ∧
    ∀ decode timestamp, ∃ n, ∀ fuel, n ≤ fuel →
      (findChunkFromTimestamp e.pid decode timestamp fuel s).1 ≠ .ok none := by
  refine ⟨fun recordId len ret t hget => ?_, ⟨rank e s, fun n => stepsBack_le he hroom n hplace ht⟩,
    findChunkFromTimestamp_ends he hroom hplace ht⟩
  have hnext := getNextElementHeader_inside he e.start recordId len s (Looked.refl hplace)
  rw [hget] at hnext
  rw [hplace.size_eq]
  exact findLatestLoop_exits he len _ e.start recordId len ret hnext.1.at_place (Nat.le_refl _)
    (by omega) hnext.2

/-- A partition on a storage full of junk, with a valid iterator in the middle of it. -/
def scribbled : State eeprom :=
  { powerUp (D := eeprom) (fun a => UInt8.ofNat (a * 37)) with
    partitions := fun _ =>
      { ((powerUp (D := eeprom) blankBytes).part 0).registered ⟨0x8000, 400, 60, 0⟩ with
        hasFirstElement := true }
    partitionIterators := fun _ => ⟨440, 3, ⟨0x98BD, 0xE207, 0⟩, iteratorValidNumber⟩ }

theorem searches_end_scribbled :
    (iteratorCheckValidity 0x8000 scribbled).1 = .ok () ∧
      ∃ k, ∀ n, stepsBack 0x8000 n scribbled ≤ k :=
  have he : (⟨0x8000, 400, 60, 0⟩ : Extent).Ok eeprom :=
    ⟨by decide, by decide, by decide, by decide, by decide, by decide, by decide, by decide,
      by decide⟩
  ⟨by decide +kernel, (searches_end (s := scribbled) he (by decide) ⟨by decide, by decide⟩
    ⟨by decide, by decide, by decide, by decide, by decide, by decide, by decide⟩).2.1⟩

end OpenBadge.Storer
