import OpenBadge.Filesystem.Variables

/-!
# Retrying a store

A caller repeats a call of `filesystem_store_element` until one succeeds. Whichever storage
calls fail before, the storage and the library's variables end as if none had: unless the
library has lost track of the metadata and the call has a header behind the new element to
clear.
-/

namespace OpenBadge.Filesystem

open OpenBadge.Lib OpenBadge.Storage
open Proc (sure)

variable {D : Device} {s t u : State D} {pid elementLen : Nat} {elementData : Nat → UInt8}

/-- From `s`, calls that fail because a storage call did, and then one that succeeds, lead to
`t`. -/
inductive Retries (pid : Nat) (elementData : Nat → UInt8) (elementLen : Nat) :
    State D → State D → Prop
  | done {s : State D} {t : Faulty (State D)} (faults : List Bool) :
      Failing.storeElement pid elementData elementLen ⟨s, faults⟩ = (.ok (), t) →
      Retries pid elementData elementLen s t.state
  | again {s u : State D} {t : Faulty (State D)} (faults : List Bool) :
      Failing.storeElement pid elementData elementLen ⟨s, faults⟩ = (.error .internal, t) →
      Retries pid elementData elementLen t.state u → Retries pid elementData elementLen s u

theorem Retries.undisturbed (h : storeElement pid elementData elementLen s = (.ok (), t)) :
    Retries pid elementData elementLen s t := by
  have hquiet := Failing.storeElement_quiet pid elementData elementLen s
  rw [h] at hquiet
  exact Retries.done [] hquiet

/-! ## The lookups of a call -/

section Behind

variable {pl : Placement} {len : Nat} (ha : (s.part pid).firstElementAddress ≤ pl.address)
include ha

/-- The header behind the new element is never the first one. -/
theorem headerBehind_eq
    (hfits : stopOf pid (s.part pid) pl.address len + getElementHeaderLen pid < 2 ^ 32) :
    readElementHeader pid (stopOf pid (s.part pid) pl.address len) s =
      (if D.size < stopOf pid (s.part pid) pl.address len + getElementHeaderLen pid then
        .error .internal else .ok (headerOf s.bytes pid (stopOf pid (s.part pid) pl.address len)),
        s) := by
  have hlt := lt_stopOf pid (s.part pid) pl.address len
  have hne : stopOf pid (s.part pid) pl.address len ≠ (s.part pid).firstElementAddress := by omega
  rw [readElementHeader_elsewhere hne, foundAt, if_neg hne, Nat.mod_eq_of_lt hfits]

theorem probe_of_ok
    (hfits : stopOf pid (s.part pid) pl.address len + getElementHeaderLen pid < 2 ^ 32)
    (h : clearStaleNext pid pl len s = (.ok (), t)) :
    stopOf pid (s.part pid) pl.address len + getElementHeaderLen pid ≤ D.size := by
  by_contra hprobe
  have hread := headerBehind_eq ha hfits
  rw [if_pos (by omega)] at hread
  have hnext : getNextElementHeader pid pl.address pl.recordId len s = (.error .internal, s) := by
    rw [getNextElementHeader, getPartition_bind]
    exact Proc.bind_error hread _
  rw [clearStaleNext, Proc.attempt_bind_apply, hnext] at h
  cases h

/-- A header behind the new element is cleared, whatever the library knows. -/
theorem clearStaleNext_stale
    (hprobe : stopOf pid (s.part pid) pl.address len + getElementHeaderLen pid ≤ D.size)
    (hf : Follows s.bytes pid (s.part pid) pl.address pl.recordId len) :
    clearStaleNext pid pl len s = Proc.orFail (storageClear
      (stopOf pid (s.part pid) pl.address len) (getElementHeaderLen pid)) .internal s := by
  have hlt := lt_stopOf pid (s.part pid) pl.address len
  have hsize := size_lt D
  have hfits : stopOf pid (s.part pid) pl.address len + getElementHeaderLen pid < 2 ^ 32 := by
    omega
  have hread := headerBehind_eq ha hfits
  rw [if_neg (by omega)] at hread
  have hnext : getNextElementHeader pid pl.address pl.recordId len s =
      (.ok (stopOf pid (s.part pid) pl.address len,
        headerOf s.bytes pid (stopOf pid (s.part pid) pl.address len)), s) := by
    rw [getNextElementHeader, getPartition_bind]
    refine (Proc.bind_ok hread _).trans ?_
    rw [getPartition_bind]
    exact congrFun (if_pos hf) s
  rw [clearStaleNext, Proc.attempt_bind_apply, hnext]
  exact congrFun (Proc.when_pos (show stopOf pid (s.part pid) pl.address len > pl.address by omega) _) s

end Behind

/-! ## Retried calls -/

section Call

variable (hr : Ram D pid (s.part pid))
  (hiter : (s.iter pid).iteratorValid ≠ iteratorValidNumber)
include hr hiter

/-- What the call that would have succeeded has found. -/
theorem accepted_of_ok (h : storeElement pid elementData elementLen s = (.ok (), u)) :
    Accepted pid (s.part pid) elementLen ∧
      (Attempt.ofCall s pid elementData elementLen).Placed ∧
      ∃ w, clearStaleNext pid (storedAt pid (s.part pid) elementLen)
          (storedLen pid (s.part pid) elementLen) s = (.ok (), w) ∧
        storeWrites pid (s.part pid).firstElementAddress (storedAt pid (s.part pid) elementLen)
          (storedLen pid (s.part pid) elementLen)
          (storedData pid (s.part pid) elementData elementLen) w = (.ok (), u) := by
  have hD := size_lt D
  have hH := elementHeaderLen_bounds pid
  have hle := hr.stop_le
  rw [storeElement_eq] at h
  by_cases hparam : isDynamic pid = false ∧ elementLen ≠ 0 ∧
      elementLen ≠ (s.part pid).metadata.firstElementLen
  · rw [if_pos hparam] at h
    cases h
  · rw [if_neg hparam] at h
    by_cases hacc : Accepted pid (s.part pid) elementLen
    · rw [if_pos hacc] at h
      obtain ⟨_, w, hlook, hwrites⟩ := Proc.bind_eq_ok.mp h
      have hfree := Proc.orFail_ok (checkIteratorConflict_invalid hiter
        (storedAt pid (s.part pid) elementLen).address (storedLen pid (s.part pid) elementLen))
        RetCode.internal
      have hclear := (Proc.bind_ok hfree _).symm.trans hlook
      have hfit := hacc.2
      have hprobe := probe_of_ok (storedAt_ge hr elementLen) (by
        unfold storedAt
        omega) hclear
      refine ⟨hacc, ⟨hr, fits_of_accepted hr hacc, hprobe, slice_length _ _ _, fun hd => ?_⟩,
        w, hclear, hwrites⟩
      change storedLen pid (s.part pid) elementLen = _
      unfold storedLen
      by_cases hzero : elementLen = 0
      · rw [if_pos ⟨hd, hzero⟩]
        rfl
      · rw [if_neg fun hc => hzero hc.2]
        by_contra hne
        exact hparam ⟨hd, hzero, hne⟩
    · rw [if_neg hacc] at h
      cases h

end Call

section Finished

variable {A : Attempt D pid} (hD : D.Reliable) (hB : D.ByteUnits)
  (hA : A = Attempt.ofCall A.start pid elementData elementLen) (hP : A.Placed)
  (hacc : Accepted pid A.part elementLen) (hsafe : A.Safe)
include hD hB hA hP hacc hsafe

theorem Retries.finished (h : Retries pid elementData elementLen s t) :
    A.Pending s → A.Finished t := by
  have hcall := storeElement_endures hD hB hA hP hacc hsafe
  induction h with
  | done faults h =>
    intro hs
    have hdone := (hcall ⟨_, faults⟩ hs).2.1 ()
    rw [h] at hdone
    exact hdone rfl
  | again faults h _ ih =>
    intro hs
    have hfailed := (hcall ⟨_, faults⟩ hs).2.2 .internal
    rw [h] at hfailed
    rcases hfailed rfl with hE | ⟨-, -, hpending⟩
    · exact hE.elim
    · exact ih hpending

/-- Without faults the call succeeds. -/
theorem undisturbed_ok (hs : A.Pending s) :
    ∃ t, storeElement pid elementData elementLen s = (.ok (), t) := by
  have hquiet := Failing.storeElement_quiet pid elementData elementLen s
  obtain ⟨-, -, herror⟩ := storeElement_endures hD hB hA hP hacc hsafe ⟨s, []⟩ hs
  rw [hquiet] at herror
  rcases hcall : storeElement pid elementData elementLen s with ⟨code | _, t⟩
  · rw [hcall] at herror
    rcases herror code rfl with hE | ⟨-, hmem, -⟩
    · exact hE.elim
    · exact absurd hmem List.not_mem_nil
  · exact ⟨t, rfl⟩

end Finished

/-- Only the variables of the one partition change. -/
theorem Retries.inOrder (hlen : elementLen < 2 ^ 16) {s₀ : State D} (h : Retries pid elementData elementLen s t) :
    InOrder pid s₀ s → InOrder pid s₀ t := by
  have hstep : ∀ {s : State D} (faults : List Bool), InOrder pid s₀ s → InOrder pid s₀
      (Failing.storeElement pid elementData elementLen ⟨s, faults⟩).2.state := by
    intro s faults hs
    have hdone := Failing.storeElement_settles hs.ram elementData hlen ⟨s, faults⟩
      (CopyOnly.refl pid s)
    exact ⟨fun j hj => (hdone.others j hj).trans (hs.others j hj), hdone.ram⟩
  induction h with
  | done faults h =>
    intro hs
    have hdone := hstep faults hs
    rw [h] at hdone
    exact hdone
  | again faults h _ ih =>
    intro hs
    have hdone := hstep faults hs
    rw [h] at hdone
    exact ih hdone

theorem InOrder.partitions_eq {s₀ : State D} (h : InOrder pid s₀ s) (h' : InOrder pid s₀ t)
    (hpart : t.part pid = s.part pid) : t.partitions = s.partitions := by
  funext j
  by_cases hj : j = partitionIndex pid
  · rw [hj]
    exact hpart
  · rw [h'.others j hj, h.others j hj]

/-! ## A call that loses its place -/

section Lost

variable {pl : Placement} {len : Nat}

theorem sure_getPartition_bind {α : Type} (f : Partition → Failing.Fs D α)
    (t : Faulty (State D)) : (sure (getPartition pid) >>= f) t = f (t.state.part pid) t := rfl

/-- The lookups of a call whose first two storage calls pass. -/
theorem clearStaleNext_passes {w : State D} {fs : List Bool}
    (ha : (s.part pid).firstElementAddress ≤ pl.address)
    (hprobe : stopOf pid (s.part pid) pl.address len + getElementHeaderLen pid ≤ D.size)
    (hf : Follows s.bytes pid (s.part pid) pl.address pl.recordId len)
    (hclear : clearStaleNext pid pl len s = (.ok (), w)) :
    Failing.clearStaleNext pid pl len ⟨s, false :: false :: fs⟩ = (.ok (), ⟨w, fs⟩) := by
  have hlt := lt_stopOf pid (s.part pid) pl.address len
  have hsize := size_lt D
  have hne : stopOf pid (s.part pid) pl.address len ≠ (s.part pid).firstElementAddress := by omega
  rw [clearStaleNext_stale ha hprobe hf, Proc.orFail_eq_ok] at hclear
  have hread : Failing.readElementHeader pid (stopOf pid (s.part pid) pl.address len)
      ⟨s, false :: false :: fs⟩ =
        (.ok (headerOf s.bytes pid (stopOf pid (s.part pid) pl.address len)), ⟨s, false :: fs⟩) := by
    have hrisky : Failing.storageRead (stopOf pid (s.part pid) pl.address len)
        (getElementHeaderLen pid) ⟨s, false :: false :: fs⟩ =
          (.ok (slice s.bytes (stopOf pid (s.part pid) pl.address len) (getElementHeaderLen pid)),
            ⟨s, false :: fs⟩) := by
      rw [Failing.storageRead, Proc.risky_passes (fun h => by cases h), storageRead_ok hprobe]
      rfl
    rw [Failing.readElementHeader]
    rw [sure_getPartition_bind]
    rw [if_neg hne]
    exact Proc.bind_ok (Proc.orFail_ok hrisky _) _
  have hnext : Failing.getNextElementHeader pid pl.address pl.recordId len
      ⟨s, false :: false :: fs⟩ =
        (.ok (stopOf pid (s.part pid) pl.address len,
          headerOf s.bytes pid (stopOf pid (s.part pid) pl.address len)), ⟨s, false :: fs⟩) := by
    rw [Failing.getNextElementHeader]
    rw [sure_getPartition_bind]
    refine (Proc.bind_ok hread _).trans ?_
    rw [sure_getPartition_bind]
    exact congrFun (if_pos hf) _
  rw [Failing.clearStaleNext, Proc.attempt_bind_apply, hnext]
  refine (congrFun (Proc.when_pos (show stopOf pid (s.part pid) pl.address len > pl.address by
    omega) _) _).trans (Proc.orFail_ok ?_ _)
  rw [Failing.storageClear, Proc.risky_passes (fun h => by cases h)]
  dsimp only
  rw [hclear]
  rfl

/-- A call that clears the header behind the new element and fails at the next write. -/
theorem storeElement_cleared {w : State D} (hr : Ram D pid (s.part pid))
    (hiter : (s.iter pid).iteratorValid ≠ iteratorValidNumber)
    (hacc : Accepted pid (s.part pid) elementLen)
    (hne : (storedAt pid (s.part pid) elementLen).address ≠ (s.part pid).firstElementAddress)
    (hprobe : stopOf pid (s.part pid) (storedAt pid (s.part pid) elementLen).address
      (storedLen pid (s.part pid) elementLen) + getElementHeaderLen pid ≤ D.size)
    (hf : Follows s.bytes pid (s.part pid) (storedAt pid (s.part pid) elementLen).address
      (storedAt pid (s.part pid) elementLen).recordId (storedLen pid (s.part pid) elementLen))
    (hclear : clearStaleNext pid (storedAt pid (s.part pid) elementLen)
      (storedLen pid (s.part pid) elementLen) s = (.ok (), w)) (hw : w.part pid = s.part pid)
    (hB : D.ByteUnits) :
    Failing.storeElement pid elementData elementLen ⟨s, [false, false, true]⟩ =
      (.error .internal, ⟨w, []⟩) := by
  have hH := elementHeaderLen_bounds pid
  have hge := stopOf_ge pid (s.part pid) (storedAt pid (s.part pid) elementLen).address
    (storedLen pid (s.part pid) elementLen)
  have hconflict : Failing.checkIteratorConflict pid (storedAt pid (s.part pid) elementLen).address
      (storedLen pid (s.part pid) elementLen) ⟨s, [false, false, true]⟩ =
        (.ok (), ⟨s, [false, false, true]⟩) := by
    have hcheck : Failing.iteratorCheckValidity pid ⟨s, [false, false, true]⟩ =
        (.error .invalidState, ⟨s, [false, false, true]⟩) := by
      rw [Failing.iteratorCheckValidity]
      exact Proc.failIf_bind_pos hiter _ _ _
    rw [Failing.checkIteratorConflict, Proc.attempt_bind_apply, hcheck]
    rfl
  have hbackup : Failing.backupIfFirstUnit pid (storedAt pid (s.part pid) elementLen).address
      (storedLen pid (s.part pid) elementLen) ⟨w, [true]⟩ = (.ok (), ⟨w, [true]⟩) := by
    rw [Failing.backupIfFirstUnit]
    refine (Proc.bind_ok (Proc.orFail_ok (congrArg (fun r => (r.1, (⟨r.2, [true]⟩ : Faulty (State D))))
      (unitLimits_ok (s := w) (by omega) (by omega))) _) _).trans ?_
    dsimp only
    rw [sure_getPartition_bind]
    rw [Proc.when_neg (by rw [hw, unitStart_of_bytes hB]; exact hne)]
    rfl
  have hwrite : ∀ h data, Failing.writeElement pid (storedAt pid (s.part pid) elementLen).address
      h data ⟨w, [true]⟩ = (.error .internal, ⟨w, []⟩) := by
    intro h data
    rw [Failing.writeElement]
    rw [sure_getPartition_bind]
    exact Proc.bind_error (Proc.orFail_error (Proc.risky_fails rfl) _) _
  have hfit := hacc.2
  unfold stopOf storedLen at hfit
  rw [Failing.storeElement]
  rw [sure_getPartition_bind]
  rw [Proc.failIf_bind_neg hacc.1]
  dsimp only
  rw [Proc.failIf_bind_neg (Nat.not_lt.mpr hfit)]
  refine (Proc.bind_ok (Proc.orFail_ok hconflict _) _).trans ?_
  refine (Proc.bind_ok (clearStaleNext_passes (storedAt_ge hr elementLen) hprobe hf hclear) _).trans ?_
  have hkeep : ∀ x, Proc.when ((storedAt pid (s.part pid) elementLen).address =
      (s.part pid).firstElementAddress) x (⟨w, [true]⟩ : Faulty (State D)) =
        ((.ok (), ⟨w, [true]⟩) : Except RetCode Unit × Faulty (State D)) :=
    fun x => congrFun (Proc.when_neg hne x) _
  refine (Proc.bind_ok (hkeep _) _).trans ?_
  exact (Proc.bind_ok hbackup _).trans (Proc.bind_error (hwrite _ _) _)

end Lost

/-! ## The result -/

/-- The call has a header behind the new element to clear, while the library has lost track of
the metadata. -/
def LosesPlace (s : State D) (pid elementLen : Nat) : Prop :=
  Follows s.bytes pid (s.part pid) (storedAt pid (s.part pid) elementLen).address
      (storedAt pid (s.part pid) elementLen).recordId (storedLen pid (s.part pid) elementLen) ∧
    (storedAt pid (s.part pid) elementLen).address ≠ (s.part pid).firstElementAddress ∧
    ¬ Sync s pid

theorem safe_of_not_losesPlace (h : ¬ LosesPlace s pid elementLen) :
    (Attempt.ofCall s pid elementData elementLen).Safe :=
  fun hstale hne => by_contra fun hs => h ⟨hstale, hne, hs⟩

section Result

variable (hD : D.Reliable) (hB : D.ByteUnits) (hr : Ram D pid (s.part pid))
  (hiter : (s.iter pid).iteratorValid ≠ iteratorValidNumber)
  (hcall : storeElement pid elementData elementLen s = (.ok (), u))
include hD hB hr hiter hcall

theorem retries_same (hlen : elementLen < 2 ^ 16) (hsafe : ¬ LosesPlace s pid elementLen)
    (h : Retries pid elementData elementLen s t) :
    t.bytes = u.bytes ∧ t.partitions = u.partitions := by
  obtain ⟨hacc, hP, -⟩ := accepted_of_ok hr hiter hcall
  have hfinish : ∀ {t : State D}, Retries pid elementData elementLen s t →
      (Attempt.ofCall s pid elementData elementLen).Finished t := fun h =>
    h.finished hD hB rfl hP hacc (safe_of_not_losesPlace hsafe) (Attempt.pending_start _ hiter)
  have hu := Retries.undisturbed hcall
  obtain ⟨hbytes, hpart⟩ := (hfinish hu).same hP (hfinish h)
  have hstart : InOrder pid s s := ⟨fun _ _ => rfl, hr⟩
  exact ⟨hbytes, (hu.inOrder hlen hstart).partitions_eq (h.inOrder hlen hstart) hpart⟩

/-- The undisturbed call does not look at the first header. -/
theorem undisturbed_first (h : LosesPlace s pid elementLen) :
    ∃ v, clearStaleNext pid (storedAt pid (s.part pid) elementLen)
        (storedLen pid (s.part pid) elementLen) s = (.ok (), s.setDev v) ∧
      D.byte v = overwrite s.bytes (Attempt.ofCall s pid elementData elementLen).stop
        (List.replicate (getElementHeaderLen pid) 0xFF) ∧
      firstBytes u.bytes pid (s.part pid).firstElementAddress =
        firstBytes s.bytes pid (s.part pid).firstElementAddress ∧
      (u.part pid).metadata = (s.part pid).metadata := by
  obtain ⟨hf, hne, -⟩ := h
  obtain ⟨hacc, hP, w, hclear, hwrites⟩ := accepted_of_ok hr hiter hcall
  have hprobe : stopOf pid (s.part pid) (storedAt pid (s.part pid) elementLen).address
    (storedLen pid (s.part pid) elementLen) + getElementHeaderLen pid ≤ D.size := hP.probe_fits
  have hfit := fits_of_accepted hr hacc
  have hge := hfit.address.resolve_left hne
  have hstart := hr.start_ge
  have hlt := lt_stopOf pid (s.part pid) (storedAt pid (s.part pid) elementLen).address
    (storedLen pid (s.part pid) elementLen)
  obtain ⟨v, hv, hbytes⟩ := storageClear_bytes (s := s) hD hB hprobe
  rw [clearStaleNext_stale hfit.start_le hprobe hf, Proc.orFail_eq_ok] at hclear
  cases hv.symm.trans hclear
  refine ⟨v, ?_, hbytes, ?_⟩
  · rw [clearStaleNext_stale hfit.start_le hprobe hf]
    exact Proc.orFail_ok hv _
  obtain ⟨x, hx, rfl⟩ := (storeWrites_eq_ok (s := s.setDev v) hr (slice_length _ _ _)
    hfit.stop_le).mp hwrites
  constructor
  · refine slice_congr fun y hy hy' => ?_
    have hout : OutsideSwap pid y := hr.outsideSwap hy
    have hsame := hx.outside hr (slice_length _ _ _) hfit (.inl (by omega)) hout
    refine hsame.trans ?_
    change D.byte v y = s.bytes y
    rw [hbytes]
    exact overwrite_of_lt _ _ (by omega)
  · rw [setDev_part, setPart_part]
    exact appended_metadata_next hne

/-- A call that loses its place ends differently when it is retried. -/
theorem retries_differ (h : LosesPlace s pid elementLen) :
    ∃ t, Retries pid elementData elementLen s t ∧
      ¬ (t.bytes = u.bytes ∧ t.partitions = u.partitions) := by
  obtain ⟨v, hclear, hbytes, htop, hmeta⟩ := undisturbed_first hD hB hr hiter hcall h
  obtain ⟨hf, hne, hsync⟩ := h
  obtain ⟨hacc, hP, -⟩ := accepted_of_ok hr hiter hcall
  have hfail : Failing.storeElement pid elementData elementLen ⟨s, [false, false, true]⟩ =
      (.error .internal, ⟨s.setDev v, []⟩) :=
    storeElement_cleared hr hiter hacc hne hP.probe_fits hf hclear rfl hB
  have hstale : ¬ (Attempt.ofCall (s.setDev v) pid elementData elementLen).Stale := by
    intro hs
    refine not_followsIn_blank (Attempt.ofCall s pid elementData elementLen) ?_
    rw [← Attempt.behind_cleared _ s.bytes, ← hbytes]
    exact hs
  have hP' : (Attempt.ofCall (s.setDev v) pid elementData elementLen).Placed :=
    ⟨hP.ram, hP.fits, hP.probe_fits, hP.data_len, hP.len_eq⟩
  have hpending := Attempt.pending_start
    (Attempt.ofCall (s.setDev v) pid elementData elementLen) hiter
  have hsafe : (Attempt.ofCall (s.setDev v) pid elementData elementLen).Safe :=
    fun hs => absurd hs hstale
  obtain ⟨t, ht⟩ := undisturbed_ok hD hB rfl hP' hacc hsafe hpending
  have hretry := Retries.undisturbed ht
  obtain ⟨y, hy, hdone⟩ := hretry.finished hD hB rfl hP' hacc hsafe hpending
  refine ⟨t, Retries.again _ hfail hretry, fun hsame => hsync ?_⟩
  have hlooked := hy.saved.renewed.ready.looked hne
  refine hr.sync (lookedUp_eq_iff.mp ?_)
  have hpart : t.part pid = u.part pid := congrFun hsame.2 _
  have htmeta : (t.part pid).metadata = (y.part pid).metadata := by
    rw [hdone, setPart_part]
  have htbytes : t.bytes = y.bytes := by
    rw [hdone]
    rfl
  have hkept : lookedUp (D.byte v) pid (s.part pid) = lookedUp s.bytes pid (s.part pid) := by
    have hge := hP.stop_ge
    have hsl := hr.swap_le
    have hstart := hr.start_ge
    have hfirst : firstBytes (D.byte v) pid (s.part pid).firstElementAddress =
        firstBytes s.bytes pid (s.part pid).firstElementAddress := by
      rw [hbytes]
      exact slice_congr fun x _ hx => overwrite_of_lt _ _ (by
        change x < _ at hx
        have hge' : (s.part pid).firstElementAddress + metadataSize + getElementHeaderLen pid ≤
          (Attempt.ofCall s pid elementData elementLen).stop := hge
        omega)
    have hswap : firstBytes (D.byte v) pid (getSwapPageAddressOfPartition pid) =
        firstBytes s.bytes pid (getSwapPageAddressOfPartition pid) := by
      rw [hbytes]
      exact slice_congr fun x _ hx => overwrite_of_lt _ _ (by
        have hge' : (s.part pid).firstElementAddress + metadataSize + getElementHeaderLen pid ≤
          (Attempt.ofCall s pid elementData elementLen).stop := hge
        omega)
    unfold lookedUp
    rw [hfirst, hswap]
  rw [← hkept, ← htop, ← hmeta, ← hpart, htmeta, ← hsame.1, htbytes]
  exact hlooked.symm

end Result

/-- Retrying is without effect, in every run, except in the calls that lose their place. -/
theorem store_retryable_iff {rs : List Registration} {pids : List Nat} (hD : D.Reliable)
    (hB : D.ByteUnits) (hs : ReachedWithFaults rs pids s) (hpid : pid ∈ pids)
    (hiter : (s.iter pid).iteratorValid ≠ iteratorValidNumber) {elementLen : UInt16}
    (hcall : storeElement pid elementData elementLen.toNat s = (.ok (), u)) :
    (∀ t, Retries pid elementData elementLen.toNat s t →
      t.bytes = u.bytes ∧ t.partitions = u.partitions) ↔ ¬ LosesPlace s pid elementLen.toNat := by
  have hr := hs.allInOrder.ram pid hpid
  constructor
  · intro hsame hloses
    obtain ⟨t, ht, hdiffer⟩ := retries_differ hD hB hr hiter hcall hloses
    exact hdiffer (hsame t ht)
  · exact fun hsafe t ht => retries_same hD hB hr hiter hcall elementLen.toNat_lt hsafe ht

/-! ## A call that loses its place -/

theorem ReachedWithFaults.storeList {rs : List Registration} {pids : List Nat}
    (h : ReachedWithFaults rs pids s) (hpid : pid ∈ pids) (data : List UInt8) :
    ReachedWithFaults rs pids (storeList pid data s).2 := by
  have hstep := h.store [] (bytesOf data) (UInt16.ofNat data.length) hpid
  rw [Failing.storeElement_quiet] at hstep
  exact hstep

theorem ReachedWithFaults.clearPartition {rs : List Registration} {pids : List Nat}
    (h : ReachedWithFaults rs pids s) (hpid : pid ∈ pids) :
    ReachedWithFaults rs pids (clearPartition pid s).2 := by
  have hstep := h.clear [] hpid
  rw [Failing.clearPartition_quiet] at hstep
  exact hstep

/-- Forty bytes for elements of any length. -/
def fortyBytes : List Registration :=
  [{ requiredSize := 40, dynamic := true, crc := false, elementLen := 0 }]

def fortyStart : State eeprom := (boot fortyBytes (powerUp (D := eeprom) blankBytes)).2

/-- Four elements, a clear, and one more element. -/
def storedAgain : State eeprom :=
  (storeList 0x8000 [5] (clearPartition 0x8000 (storeList 0x8000 [4] (storeList 0x8000 [3]
    (storeList 0x8000 [2] (storeList 0x8000 [1] fortyStart).2).2).2).2).2).2

/-- A long element is given up after the library has renewed its metadata. -/
def outOfStep : State eeprom :=
  (Failing.storeElement 0x8000 (bytesOf (List.replicate 18 9)) (18 : UInt16).toNat
    ⟨storedAgain, [false, false, false, true]⟩).2.state

theorem fortyStart_eq :
    boot fortyBytes (powerUp (D := eeprom) blankBytes) = (.ok [0x8000], fortyStart) :=
  Proc.eq_of_fst (by decide +kernel)

theorem outOfStep_reached : ReachedWithFaults fortyBytes [0x8000] outOfStep := by
  have hpid : 0x8000 ∈ [0x8000] := List.mem_singleton.mpr rfl
  have hfour := ((((ReachedWithFaults.start fortyStart_eq).storeList hpid [1]).storeList hpid
    [2]).storeList hpid [3]).storeList hpid [4]
  unfold outOfStep storedAgain
  exact ((hfour.clearPartition hpid).storeList hpid [5]).store [false, false, false, true]
    (bytesOf (List.replicate 18 9)) 18 hpid

/-- The next short element. -/
def shortElement : Nat → UInt8 := bytesOf [6, 6, 6, 6, 6, 6]

theorem losesPlace_outOfStep : LosesPlace outOfStep 0x8000 (6 : UInt16).toNat := by
  refine ⟨by decide +kernel, by decide +kernel, fun hs => ?_⟩
  rcases hs.known with ⟨-, hmeta⟩ | ⟨hstart, -⟩
  · revert hmeta
    decide +kernel
  · have hc := hstart (by decide +kernel)
    revert hc
    decide +kernel

/-- It loses its place: its retries may end differently. -/
theorem store_retryable_outOfStep :
    ¬ ∀ t, Retries 0x8000 shortElement (6 : UInt16).toNat outOfStep t →
      t.bytes = (storeElement 0x8000 shortElement (6 : UInt16).toNat outOfStep).2.bytes ∧
        t.partitions =
          (storeElement 0x8000 shortElement (6 : UInt16).toNat outOfStep).2.partitions := by
  have hcall : storeElement 0x8000 shortElement (6 : UInt16).toNat outOfStep =
      (.ok (), (storeElement 0x8000 shortElement (6 : UInt16).toNat outOfStep).2) :=
    Proc.eq_of_fst (by decide +kernel)
  exact fun hsame => (store_retryable_iff (fillDevice_reliable _ _ _ _) eeprom_byteUnits
    outOfStep_reached (List.mem_singleton.mpr rfl) (by decide +kernel) hcall).mp hsame
    losesPlace_outOfStep

end OpenBadge.Filesystem
