import OpenBadge.Filesystem.Cleared
import OpenBadge.Filesystem.Reboot

/-!
# The element under an iterator

A store looks for a conflict with the element that the iterator of the partition is at: the
new element and the rest of the units it touches stay off it. The header behind the new
element is cleared without such a check.
-/

namespace OpenBadge.Filesystem

open OpenBadge.Lib OpenBadge.Storage
open Proc (Keeps)

variable {D : Device} {s t : State D} {e : Extent} {pid : Nat}

/-! ## Iterators inside the storage -/

/-- An iterator at an address behind the start of its partition and inside the storage, whose
members have the widths of their C types. -/
structure InStorage (D : Device) (start : Nat) (it : PartitionIterator) : Prop where
  address_ge : start ≤ it.curElementAddress
  address_le : it.curElementAddress ≤ D.size
  len_lt : it.curElementLen < 2 ^ 16
  header : it.curElementHeader.Typed

/-- The iterator of the partition at `start` is there unless it is invalid. -/
def Anchored (start : Nat) (s : State D) (pid : Nat) : Prop :=
  (s.iter pid).iteratorValid = iteratorValidNumber → InStorage D start (s.iter pid)

theorem Anchored.of_sameButIter {start : Nat} (h : Anchored start s pid)
    (hst : SameButIter pid s t) : Anchored start t pid := by
  rcases hst with rfl | rfl
  · exact h
  · intro hvalid
    rw [State.lost, setIter_iter] at hvalid
    cases hvalid

theorem Ram.neighbourLen_lt {p : Partition} (h : Ram D pid p) {len xor : Nat}
    (hlen : len < 2 ^ 16) (hxor : xor < 2 ^ 16) : neighbourLen pid p len xor < 2 ^ 16 := by
  rw [neighbourLen]
  split
  · exact Nat.xor_lt_two_pow hlen hxor
  · exact h.firstLen_lt

/-- A lookup in a state in sync changes nothing. -/
theorem readElementHeader_ok (hs : Sync s pid) {a : Nat} {hd : ElementHeader}
    (h : readElementHeader pid a s = (.ok hd, t)) : t = s ∧ hd.Typed := by
  refine ⟨?_, (readElementHeader_typed a s trivial).2 hd (congrArg Prod.fst h)⟩
  rw [readElementHeader_found hs] at h
  exact (congrArg Prod.snd h).symm

theorem getNextElementHeader_inStorage (hs : Sync s pid) (hr : Ram D pid (s.part pid))
    {a recordId len next : Nat} {hd : ElementHeader} (ha : (s.part pid).firstElementAddress ≤ a)
    (h : getNextElementHeader pid a recordId len s = (.ok (next, hd), t)) :
    t = s ∧ (s.part pid).firstElementAddress ≤ next ∧ next ≤ D.size ∧ hd.Typed := by
  have hstop := hr.stop_le
  rw [getNextElementHeader, getPartition_bind] at h
  obtain ⟨hd₁, s₁, hread, h⟩ := Proc.bind_eq_ok.mp h
  obtain ⟨rfl, htyped⟩ := readElementHeader_ok hs hread
  rw [getPartition_bind] at h
  split at h
  · rename_i hnext
    have hfit := hnext.2
    cases h
    exact ⟨rfl, by omega, by omega, htyped⟩
  · rw [getFirstAsNext, getPartition_bind] at h
    obtain ⟨hd₂, s₂, hread₂, h⟩ := Proc.bind_eq_ok.mp h
    obtain ⟨rfl, htyped₂⟩ := readElementHeader_ok hs hread₂
    obtain ⟨_, s₃, hid, h⟩ := Proc.bind_eq_ok.mp h
    obtain ⟨-, rfl⟩ := Proc.failIf_eq_ok.mp hid
    cases h
    exact ⟨rfl, Nat.le_refl _, by omega, htyped₂⟩

theorem getPreviousElementHeader_inStorage (hs : Sync s pid) (hr : Ram D pid (s.part pid))
    (hlast : (s.part pid).metadata.lastElementAddress ≤ D.size) {a recordId len previous : Nat}
    {hd : ElementHeader} (ha : a ≤ D.size)
    (h : getPreviousElementHeader pid a recordId len s = (.ok (previous, hd), t)) :
    t = s ∧ (s.part pid).firstElementAddress ≤ previous ∧ previous ≤ D.size ∧ hd.Typed := by
  have hstop := hr.stop_le
  rw [getPreviousElementHeader, getPartition_bind] at h
  split at h
  · obtain ⟨_, s₁, hcheck, h⟩ := Proc.bind_eq_ok.mp h
    obtain ⟨hgt, rfl⟩ := Proc.failIf_eq_ok.mp hcheck
    obtain ⟨hd₁, s₂, hread, h⟩ := Proc.bind_eq_ok.mp h
    obtain ⟨rfl, htyped⟩ := readElementHeader_ok hs hread
    obtain ⟨_, s₃, hid, h⟩ := Proc.bind_eq_ok.mp h
    obtain ⟨-, rfl⟩ := Proc.failIf_eq_ok.mp hid
    cases h
    exact ⟨rfl, by omega, hlast, htyped⟩
  · obtain ⟨hd₁, s₁, hread, h⟩ := Proc.bind_eq_ok.mp h
    obtain ⟨rfl, -⟩ := readElementHeader_ok hs hread
    rw [getPartition_bind] at h
    generalize neighbourLen pid (s₁.part pid) len hd₁.previousLenXorCurLen = previousLen at h
    obtain ⟨hd₂, s₂, hread₂, h⟩ := Proc.bind_eq_ok.mp h
    obtain ⟨rfl, htyped⟩ := readElementHeader_ok hs hread₂
    obtain ⟨_, s₃, hid, h⟩ := Proc.bind_eq_ok.mp h
    obtain ⟨-, rfl⟩ := Proc.failIf_eq_ok.mp hid
    cases h
    refine ⟨rfl, ?_, ?_, htyped⟩ <;> split <;> omega

/-- What a step to the next element assigns. -/
theorem nextFound_inStorage (hs : Sync s pid) (hr : Ram D pid (s.part pid))
    (h : Anchored (s.part pid).firstElementAddress s pid) {next len : Nat} {hd : ElementHeader}
    (hfound : nextFound pid s = (.ok (next, len, hd), t)) :
    t = s ∧ (s.part pid).firstElementAddress ≤ next ∧ next ≤ D.size ∧ len < 2 ^ 16 ∧
      hd.Typed := by
  obtain ⟨_, s₁, hcheck, hfound₁⟩ := Proc.bind_eq_ok.mp hfound
  obtain ⟨rfl, hvalid, -⟩ := iteratorCheckValidity_ok hs hcheck
  rw [getIterator_bind] at hfound₁
  obtain ⟨⟨next', hd'⟩, s₂, hnext, hfound₂⟩ := Proc.bind_eq_ok.mp hfound₁
  obtain ⟨rfl, hge, hle, htyped⟩ :=
    getNextElementHeader_inStorage hs hr (h hvalid).address_ge hnext
  dsimp only at hfound₂
  rw [getPartition_bind] at hfound₂
  cases hfound₂
  exact ⟨rfl, hge, hle, hr.neighbourLen_lt (h hvalid).len_lt htyped.xor_lt, htyped⟩

theorem previousFound_inStorage (hs : Sync s pid) (hr : Ram D pid (s.part pid))
    (hlast : (s.part pid).metadata.lastElementAddress ≤ D.size)
    (h : Anchored (s.part pid).firstElementAddress s pid) {previous len : Nat}
    {hd : ElementHeader} (hfound : previousFound pid s = (.ok (previous, len, hd), t)) :
    t = s ∧ (s.part pid).firstElementAddress ≤ previous ∧ previous ≤ D.size ∧ len < 2 ^ 16 ∧
      hd.Typed := by
  obtain ⟨_, s₁, hcheck, hfound₁⟩ := Proc.bind_eq_ok.mp hfound
  obtain ⟨rfl, hvalid, -⟩ := iteratorCheckValidity_ok hs hcheck
  have hin := h hvalid
  rw [getIterator_bind] at hfound₁
  obtain ⟨⟨previous', hd'⟩, s₂, hprevious, hfound₂⟩ := Proc.bind_eq_ok.mp hfound₁
  obtain ⟨rfl, hge, hle, htyped⟩ :=
    getPreviousElementHeader_inStorage hs hr hlast hin.address_le hprevious
  dsimp only at hfound₂
  rw [getPartition_bind] at hfound₂
  obtain ⟨_, s₃, hfits, hfound₃⟩ := Proc.bind_eq_ok.mp hfound₂
  obtain ⟨-, rfl⟩ := Proc.failIf_eq_ok.mp hfits
  cases hfound₃
  exact ⟨rfl, hge, hle, hr.neighbourLen_lt hin.len_lt hin.header.xor_lt, htyped⟩

/-- Assignments to the iterator from a step that was found. -/
theorem anchored_step {start : Nat} {x : Fs D (Nat × Nat × ElementHeader)}
    (hkeeps : Keeps (SameButIter pid s) x) (h : Anchored start s pid)
    (hx : ∀ a len hd u, x s = (.ok (a, len, hd), u) →
      u = s ∧ start ≤ a ∧ a ≤ D.size ∧ len < 2 ^ 16 ∧ hd.Typed) :
    Anchored start ((x >>= fun y => modifyIterator pid fun it =>
      { it with curElementAddress := y.1, curElementLen := y.2.1, curElementHeader := y.2.2 })
        s).2 pid := by
  have hsame := hkeeps s (.inl rfl)
  rw [Proc.bind_apply]
  rcases hcall : x s with ⟨_ | ⟨a, len, hd⟩, u⟩
  · rw [hcall] at hsame
    exact h.of_sameButIter hsame
  · obtain ⟨-, hge, hle, hlen, htyped⟩ := hx a len hd u hcall
    intro _
    dsimp only
    rw [modifyIterator_apply, setIter_iter]
    exact ⟨hge, hle, hlen, htyped⟩

theorem iteratorInit_anchored (hs : Sync s pid) (hr : Ram D pid (s.part pid)) :
    Anchored (s.part pid).firstElementAddress (iteratorInit pid s).2 pid := by
  have hstop := hr.stop_le
  have hlatest := hr.latest
  have hzero : ∀ u : State D, (u.iter pid).iteratorValid = 0 →
      Anchored (s.part pid).firstElementAddress u pid := by
    intro u hu hvalid
    rw [hu] at hvalid
    cases hvalid
  rw [iteratorInit, iteratorInvalidate, Proc.bind_ok (modifyIterator_apply _), getPartition_bind,
    setIter_part]
  by_cases hf : (s.part pid).hasFirstElement = false
  · rw [Proc.failIf_bind_pos hf]
    exact hzero _ (by rw [setIter_iter])
  · rw [Proc.failIf_bind_neg hf, Proc.bind_ok (modifyIterator_apply _), setIter_setIter,
      setIter_iter, Proc.attempt_bind_apply]
    rcases hread : readElementHeader pid (s.part pid).latestElementAddress (s.setIter pid
        ⟨(s.part pid).latestElementAddress, (s.part pid).latestElementLen,
          (s.iter pid).curElementHeader, 0⟩) with ⟨code | hd, u⟩
    · have hu := congrArg Prod.snd ((readElementHeader_found (hs.setIter _) _).symm.trans hread)
      dsimp only at hu
      have hlost := hzero u (by rw [← hu, setIter_iter])
      cases code <;> exact hlost
    · obtain ⟨rfl, htyped⟩ := readElementHeader_ok (hs.setIter _) hread
      intro _
      dsimp only
      rw [modifyIterator_apply, setIter_iter, setIter_iter]
      exact ⟨by dsimp only; omega, by dsimp only; omega, hr.latestLen_lt, htyped⟩

/-- Whatever an application does with the iterator, it stays inside the storage. -/
theorem iterate_anchored (hs : Sync s pid) (hr : Ram D pid (s.part pid))
    (hlast : (s.part pid).metadata.lastElementAddress ≤ D.size)
    (h : Anchored (s.part pid).firstElementAddress s pid) (c : IteratorCall) :
    Anchored (s.part pid).firstElementAddress (iterate pid c s).2 pid := by
  cases c with
  | invalidate => exact h.of_sameButIter (iteratorInvalidate_keeps s (.inl rfl))
  | init => exact iteratorInit_anchored hs hr
  | next =>
    rw [iterate, iteratorNext_eq]
    exact anchored_step (nextFound_sameButIter hs) h fun a len hd u hu =>
      nextFound_inStorage hs hr h hu
  | previous =>
    rw [iterate, iteratorPrevious_eq]
    exact anchored_step (previousFound_sameButIter hs) h fun a len hd u hu =>
      previousFound_inStorage hs hr hlast h hu
  | readElement =>
    have hkeeps := (iteratorReadElement_sameButIter hs).bind fun _ =>
      Keeps.pure (SameButIter pid s) ()
    exact h.of_sameButIter (hkeeps s (.inl rfl))

/-! ## Runs -/

/-- A partition whose elements sit inside it, with its last element inside the storage. -/
structure InBounds (D : Device) (m : Nat → UInt8) (e : Extent) (p : Partition) : Prop where
  seated : Seated D m e p
  last_le : p.metadata.lastElementAddress ≤ D.size

theorem InBounds.frame {m m' : Nat → UInt8} {p : Partition} (h : InBounds D m e p)
    (hm : ∀ x, e.Owns x → m' x = m x) : InBounds D m' e p :=
  ⟨h.seated.frame hm, h.last_le⟩

theorem InBounds.store (h : InBounds D s.bytes e (s.part e.pid)) {elementData : Nat → UInt8}
    {elementLen : Nat} (hlen : elementLen < 2 ^ 16)
    (hstore : storeElement e.pid elementData elementLen s = (.ok (), t)) :
    InBounds D t.bytes e (t.part e.pid) ∧ Local e s t := by
  have hr := h.seated.known.ram
  have hstop := hr.stop_le
  have hlatest := hr.latest
  obtain ⟨hseated, hlocal⟩ := h.seated.store hlen hstore
  obtain ⟨len, data, w, -, -, -, -, hpart, -, -⟩ := h.seated.known.store hlen hstore
  refine ⟨⟨hseated, ?_⟩, hlocal⟩
  rw [hpart]
  by_cases hstart : (placement e.pid (s.part e.pid) len).address =
      (s.part e.pid).firstElementAddress
  · rw [appended_metadata_start hstart, newMetadata_last]
    split <;> omega
  · rw [appended_metadata_next hstart]
    exact h.last_le

theorem InBounds.clear (h : InBounds D s.bytes e (s.part e.pid))
    (hclear : clearPartition e.pid s = (.ok (), t)) :
    InBounds D t.bytes e (t.part e.pid) ∧ Local e s t := by
  have hk := h.seated.known
  obtain ⟨hf, hknown, hlocal⟩ := hk.clear hclear
  obtain ⟨recordId, b, v, -, -, -, rfl⟩ := clearPartition_eq_ok hk.ram hk.sync hclear
  refine ⟨⟨⟨hknown, fun htrue => ?_, fun htrue => ?_⟩, ?_⟩, hlocal⟩
  · rw [hf] at htrue
    cases htrue
  · rw [hf] at htrue
    cases htrue
  · rw [setDev_part, setPart_part]
    exact h.last_le

/-- The iterator of a partition was not moved, or is invalid. -/
theorem Anchored.kept {start : Nat} (h : Anchored start s pid)
    (hiter : t.iter pid = s.iter pid ∨ (t.iter pid).iteratorValid ≠ iteratorValidNumber) :
    Anchored start t pid := by
  intro hvalid
  rcases hiter with hiter | hiter
  · rw [hiter] at hvalid ⊢
    exact h hvalid
  · exact absurd hvalid hiter

theorem SameButIter.iter_kept (h : SameButIter pid s t) (pid' : Nat) :
    t.iter pid' = s.iter pid' ∨ (t.iter pid').iteratorValid ≠ iteratorValidNumber := by
  rcases h with rfl | rfl
  · exact .inl rfl
  · by_cases hindex : partitionIndex pid' = partitionIndex pid
    · right
      unfold State.iter
      rw [hindex]
      change ((s.lost pid).iter pid).iteratorValid ≠ _
      rw [State.lost, setIter_iter]
      exact fun hc => absurd hc (by decide : (0 : Nat) ≠ iteratorValidNumber)
    · exact .inl (Function.update_of_ne hindex _ _)

/-- All partitions of the application are in bounds, and so are their iterators. -/
structure AllGuarded (rs : List Registration) (s : State D) : Prop where
  parts : ∀ e ∈ layout D rs, InBounds D s.bytes e (s.part e.pid)
  iters : ∀ e ∈ layout D rs, Anchored e.start s e.pid

section Steps

variable {rs : List Registration} (hreg : AllRegistrable D 0 (firstFree D) rs)
include hreg

theorem AllGuarded.store (h : AllGuarded rs s) (he : e ∈ layout D rs)
    {elementData : Nat → UInt8} {elementLen : Nat} (hlen : elementLen < 2 ^ 16)
    (hstore : storeElement e.pid elementData elementLen s = (.ok (), t)) : AllGuarded rs t := by
  have hk := (h.parts e he).seated.known
  refine ⟨forall_of_local hreg InBounds.frame h.parts he ((h.parts e he).store hlen hstore),
    fun e' he' => ?_⟩
  obtain ⟨-, -, s₁, w, v, -, hiter, -, rfl⟩ := storeElement_eq_ok hk.ram hk.sync hstore
  exact (h.iters e' he').kept (hiter.iter_kept e'.pid)

theorem AllGuarded.clear (h : AllGuarded rs s) (he : e ∈ layout D rs)
    (hclear : clearPartition e.pid s = (.ok (), t)) : AllGuarded rs t := by
  have hk := (h.parts e he).seated.known
  refine ⟨forall_of_local hreg InBounds.frame h.parts he ((h.parts e he).clear hclear),
    fun e' he' => ?_⟩
  obtain ⟨recordId, b, v, -, -, -, rfl⟩ := clearPartition_eq_ok hk.ram hk.sync hclear
  exact (h.iters e' he').kept (.inl rfl)

theorem AllGuarded.iterate (h : AllGuarded rs s) (he : e ∈ layout D rs) (c : IteratorCall) :
    AllGuarded rs (Filesystem.iterate e.pid c s).2 := by
  have hb := h.parts e he
  have hs := hb.seated.known.sync
  have hmoved := iterate_moved hs c
  refine ⟨fun e' he' => ?_, fun e' he' => ?_⟩
  · rw [hmoved.bytes, hmoved.part]
    exact h.parts e' he'
  · by_cases hee : e' = e
    · have hstart := hb.seated.known.start_eq
      have hiter := h.iters e he
      rw [hee]
      rw [← hstart] at hiter ⊢
      exact iterate_anchored hs hb.seated.known.ram hb.last_le hiter c
    · have hapart := layout_apart hreg he he' fun heq => hee heq.symm
      exact (h.iters e' he').kept (.inl (hmoved.iters _ hapart.1.symm))

theorem AllGuarded.restart (hsize : swapPageSize ≤ D.size) (h : AllGuarded rs s) {s' : State D}
    {pids : List Nat} (hdev : s'.dev = s.dev)
    (hiters : ∀ j, s'.partitionIterators j = s.partitionIterators j ∨
      (s'.partitionIterators j).iteratorValid ≠ iteratorValidNumber)
    (hboot : boot rs s' = (.ok pids, t)) : AllGuarded rs t := by
  have hbytes : s'.bytes = s.bytes := congrArg D.byte hdev
  obtain ⟨htdev, htiters, hparts⟩ := boot_refound hsize hreg
    (P := fun e p => p.metadata.lastElementAddress ≤ D.size)
    (fun e he => ⟨_, (h.parts e he).last_le, by rw [hbytes]; exact (h.parts e he).seated⟩) hboot
  refine ⟨fun e he => ?_, fun e he => ?_⟩
  · obtain ⟨p, hlast, hrefound⟩ := hparts e he
    have hstop := (layout_ok hreg he).stop_le
    rw [show t.bytes = s'.bytes from congrArg D.byte htdev]
    refine ⟨hrefound.seated, ?_⟩
    rcases hrefound.last_eq with heq | heq <;> omega
  · refine (h.iters e he).kept ?_
    unfold State.iter
    rw [htiters]
    exact hiters _

end Steps

theorem Used.allGuarded {rs : List Registration} {s₁ : State D} {log : List Element}
    (hsize : swapPageSize ≤ D.size) (hreg : AllRegistrable D 0 (firstFree D) rs)
    (hpid : pid ∈ (layout D rs).map Extent.pid) (h₁ : AllGuarded rs s₁)
    (h : Used rs ((layout D rs).map Extent.pid) pid s₁ log s) : AllGuarded rs s := by
  induction h with
  | start => exact h₁
  | store _ elementLen _ hcall ih =>
    obtain ⟨e, he, rfl⟩ := List.mem_map.mp hpid
    exact ih.store hreg he elementLen.toNat_lt hcall
  | clear _ hcall ih =>
    obtain ⟨e, he, rfl⟩ := List.mem_map.mp hpid
    exact ih.clear hreg he hcall
  | storeOther _ elementLen _ hpid' _ hcall ih =>
    obtain ⟨e, he, rfl⟩ := List.mem_map.mp hpid'
    exact ih.store hreg he elementLen.toNat_lt hcall
  | clearOther _ hpid' _ hcall ih =>
    obtain ⟨e, he, rfl⟩ := List.mem_map.mp hpid'
    exact ih.clear hreg he hcall
  | refused _ _ _ _ _ hsame ih =>
    refine ⟨fun e he => ?_, fun e he => (ih.iters e he).kept (hsame.iter_kept e.pid)⟩
    unfold State.bytes
    rw [hsame.dev, hsame.part]
    exact ih.parts e he
  | iterate c _ hpid' ih =>
    obtain ⟨e, he, rfl⟩ := List.mem_map.mp hpid'
    exact ih.iterate hreg he c
  | restart _ hdev hiters hboot ih => exact ih.restart hreg hsize hdev hiters hboot

/-! ## No conflict -/

/-- Without a conflict the new element ends in front of the first unit of the iterator's
element, or begins behind it. -/
theorem not_conflict {start stop itAddr itStop : Nat}
    (h : ¬ Conflict start stop (unitStart D.modules itAddr) itStop) :
    stop ≤ unitStart D.modules itAddr ∨ itStop ≤ start := by
  have hle := unitStart_le D.modules itAddr
  unfold Conflict at h
  omega

theorem checkIteratorConflict_apart (hs : Sync s pid)
    (hin : InStorage D (s.part pid).firstElementAddress (s.iter pid)) {x : Unit}
    (hvalid : iteratorCheckValidity pid s = (.ok x, s)) {a len : Nat}
    (h : checkIteratorConflict pid a len s = (.ok (), t)) :
    t = s ∧
      stopOf pid (s.part pid) (s.iter pid).curElementAddress (s.iter pid).curElementLen ≤ D.size ∧
      (stopOf pid (s.part pid) a len ≤ unitStart D.modules (s.iter pid).curElementAddress ∨
        stopOf pid (s.part pid) (s.iter pid).curElementAddress (s.iter pid).curElementLen ≤ a) := by
  have hD := size_lt D
  have hH := elementHeaderLen_bounds pid
  have haddr := hin.address_le
  have hlen := hin.len_lt
  have hlt := lt_stopOf pid (s.part pid) a len
  have hit := lt_stopOf pid (s.part pid) (s.iter pid).curElementAddress (s.iter pid).curElementLen
  have hhl : headerLenAt pid (s.part pid) (s.iter pid).curElementAddress ≤
      metadataSize + getElementHeaderLen pid := by
    unfold headerLenAt
    split <;> omega
  rw [checkIteratorConflict, Proc.attempt_bind_apply, hvalid] at h
  dsimp only at h
  rw [getPartition_bind, getIterator_bind] at h
  obtain ⟨⟨itStart, itEnd⟩, s₁, hlimits, hfree⟩ := Proc.bind_eq_ok.mp h
  rw [Proc.orFail_eq_ok] at hlimits
  have hfits : stopOf pid (s.part pid) (s.iter pid).curElementAddress (s.iter pid).curElementLen ≤
      D.size := by
    have hcheck := hlimits
    unfold storageGetUnitAddressLimits at hcheck
    obtain ⟨_, _, hcheck, -⟩ := Proc.bind_eq_ok.mp hcheck
    have hle := (Proc.failIf_eq_ok.mp hcheck).1
    unfold metadataSize at hhl
    rw [Nat.mod_eq_of_lt (by omega)] at hle
    unfold stopOf
    omega
  unfold stopOf at hfits hlt hit ⊢
  rw [unitLimits_ok (by omega) (by omega)] at hlimits
  cases hlimits
  obtain ⟨hfree, rfl⟩ := Proc.failIf_eq_ok.mp hfree
  rw [Nat.add_right_comm a len, Nat.add_comm (t.iter pid).curElementLen, ← Nat.add_assoc] at hfree
  exact ⟨rfl, hfits, not_conflict hfree⟩

/-- A header that carries the next record identifier lies behind the new element, and what is
cleared for it, up to the end of a unit, reaches the iterator's element. -/
def ClearsUnderIterator (s : State D) (pid elementLen : Nat) : Prop :=
  Follows s.bytes pid (s.part pid) (storedAt pid (s.part pid) elementLen).address
      (storedAt pid (s.part pid) elementLen).recordId (storedLen pid (s.part pid) elementLen) ∧
    stopOf pid (s.part pid) (storedAt pid (s.part pid) elementLen).address
        (storedLen pid (s.part pid) elementLen) <
      stopOf pid (s.part pid) (s.iter pid).curElementAddress (s.iter pid).curElementLen ∧
    (s.iter pid).curElementAddress <
      unitStop D.modules (stopOf pid (s.part pid) (storedAt pid (s.part pid) elementLen).address
        (storedLen pid (s.part pid) elementLen) + getElementHeaderLen pid - 1)

instance (s : State D) (pid elementLen : Nat) : Decidable (ClearsUnderIterator s pid elementLen) :=
  inferInstanceAs (Decidable (_ ∧ _ ∧ _))

/-- A store that is apart from a range, and clears nothing in it, keeps the range. -/
theorem StoreRun.keeps_apart {p : Partition} {pl : Placement} {len : Nat} {data : List UInt8}
    {u w v : D.State} (h : StoreRun D pid p pl len data u w v) (hr : Ram D pid p)
    (hdata : data.length = len) (hfit : Fits pid p pl len) {a stop : Nat}
    (ha : p.firstElementAddress ≤ a)
    (hapart : stopOf pid p pl.address len ≤ unitStart D.modules a ∨ stop ≤ pl.address)
    (hclear : ¬ (Follows (D.byte u) pid p pl.address pl.recordId len ∧
      stopOf pid p pl.address len < stop ∧
      a < unitStop D.modules (stopOf pid p pl.address len + getElementHeaderLen pid - 1)))
    {x : Nat} (hx : a ≤ x) (hx' : x < stop) : D.byte v x = D.byte u x := by
  have hH := elementHeaderLen_bounds pid
  rcases hapart with hfront | hbehind
  · have hunit := unitStart_unitStart D.modules a
    have hle := unitStart_le D.modules a
    have hhl := headerBytes_length pid p pl len data
    have hswap := hr.outsideSwap (Nat.le_trans ha hx)
    obtain ⟨b, y, hb, hy, hv⟩ := h.appended
    have hstop : stopOf pid p pl.address len = pl.address + headerLenAt pid p pl.address + len := rfl
    rw [hv.changed.after _ (by omega) hunit x (by omega),
      hy.changed.after _ (by omega) hunit x (by omega), backup_outside (backup_bytes hb) hswap]
    rcases h.wiped with ⟨hf, hc⟩ | ⟨-, rfl⟩
    · have hreach : unitStop D.modules (stopOf pid p pl.address len + getElementHeaderLen pid - 1) ≤
          a := by
        by_contra hgt
        exact hclear ⟨hf, by omega, by omega⟩
      have hlt := lt_unitStop D.modules (stopOf pid p pl.address len + getElementHeaderLen pid - 1)
      exact hc.changed.after _ (by rw [List.length_replicate]; omega)
        (unitStart_unitStop _ (stopOf pid p pl.address len + getElementHeaderLen pid - 1)) x
        (by omega)
    · rfl
  · exact h.outside hr hdata hfit (.inl (by omega)) (hr.outsideSwap (Nat.le_trans ha hx))

/-! ## Reading behind the store -/

/-- The check of the iterator looks at the iterator and at the header of its element. -/
theorem iteratorCheckValidity_congr (hs : Sync s pid) (ht : Sync t pid)
    (hiter : t.iter pid = s.iter pid)
    (hf : (t.part pid).hasFirstElement = (s.part pid).hasFirstElement)
    (hfound : foundAt D t.bytes pid (t.part pid) (s.iter pid).curElementAddress =
      foundAt D s.bytes pid (s.part pid) (s.iter pid).curElementAddress) :
    (iteratorCheckValidity pid t).1 = (iteratorCheckValidity pid s).1 := by
  unfold iteratorCheckValidity
  rw [getIterator_bind, getIterator_bind, hiter]
  by_cases hvalid : (s.iter pid).iteratorValid ≠ iteratorValidNumber
  · rw [Proc.failIf_bind_pos hvalid, Proc.failIf_bind_pos hvalid]
  · rw [Proc.failIf_bind_neg hvalid, Proc.failIf_bind_neg hvalid, getPartition_bind,
      getPartition_bind, hf]
    by_cases hfirst : (s.part pid).hasFirstElement = false
    · rw [Proc.when_pos hfirst]
      rfl
    · rw [Proc.when_neg hfirst, Proc.pure_bind_apply, Proc.pure_bind_apply,
        Proc.attempt_bind_apply, Proc.attempt_bind_apply, readElementHeader_found hs,
        readElementHeader_found ht, hfound]
      rcases foundAt D s.bytes pid (s.part pid) (s.iter pid).curElementAddress with code | hd
      · cases code <;> rfl
      · dsimp only
        by_cases hsame : hd.recordId ≠ (s.iter pid).curElementHeader.recordId ∨
            (hasElementCrc pid ∧ hd.elementCrc ≠ (s.iter pid).curElementHeader.elementCrc) ∨
            (isDynamic pid ∧
              hd.previousLenXorCurLen ≠ (s.iter pid).curElementHeader.previousLenXorCurLen)
        · rw [Proc.when_pos hsame]
          rfl
        · rw [Proc.when_neg hsame]
          rfl

/-- What an iterator that passes the check reads. -/
theorem iteratorReadElement_valid {x : Unit}
    (hvalid : iteratorCheckValidity pid s = (.ok x, s))
    (hfits : stopOf pid (s.part pid) (s.iter pid).curElementAddress (s.iter pid).curElementLen ≤
      D.size) {data : List UInt8}
    (hdata : data = slice s.bytes ((s.iter pid).curElementAddress +
      headerLenAt pid (s.part pid) (s.iter pid).curElementAddress) (s.iter pid).curElementLen) :
    (iteratorReadElement pid s).1 =
      if hasElementCrc pid ∧ (crc16Compute data).toNat ≠ (s.iter pid).curElementHeader.elementCrc
      then .error .invalidData else .ok (data, (s.iter pid).curElementHeader.recordId) := by
  rw [iteratorReadElement, Proc.bind_ok hvalid, getPartition_bind, getIterator_bind,
    Proc.bind_ok (Proc.orFail_ok (storageRead_ok hfits) _), ← hdata]
  split
  · rename_i hbad
    rw [Proc.failIf_bind_pos hbad]
  · rename_i hgood
    rw [Proc.failIf_bind_neg hgood]
    rfl

/-- The header of an element does not change with its bytes kept, if it is that of the first
element only with the metadata kept. -/
theorem foundAt_congr {m m' : Nat → UInt8} {p q : Partition}
    (hfirst : q.firstElementAddress = p.firstElementAddress) {a stop : Nat}
    (hstop : a + headerLenAt pid p a ≤ stop) (hm : ∀ x, a ≤ x → x < stop → m' x = m x)
    (hmeta : a = p.firstElementAddress → q.metadata = p.metadata) :
    foundAt D m' pid q a = foundAt D m pid p a := by
  unfold headerLenAt at hstop
  unfold foundAt
  rw [hfirst]
  by_cases ha : a = p.firstElementAddress
  · rw [if_pos ha] at hstop
    have hbytes : firstBytes m' pid a = firstBytes m pid a :=
      slice_congr fun x hx hx' => hm x hx (by omega)
    have hheader : headerOf m' pid (a + metadataSize) = headerOf m pid (a + metadataSize) :=
      headerOf_congr fun x hx hx' => hm x (by omega) (by omega)
    rw [if_pos ha, if_pos ha]
    unfold firstHeaderAt Metadata.consistent
    rw [hfirst, hmeta ha, ← ha, hbytes, hheader]
  · rw [if_neg ha] at hstop
    rw [if_neg ha, if_neg ha, headerOf_congr fun x hx hx' => hm x hx (by omega)]

/-- A store keeps the element under a valid iterator, unless what it clears behind the new
element reaches there; the iterator then reads what it read before. -/
theorem store_keeps_iterator_element {rs : List Registration} {pids : List Nat} {dev : D.State}
    {s₁ s t : State D} {log : List Element} (hblank : Blank (D.byte dev) D.size)
    (hboot : boot rs (powerUp dev) = (.ok pids, s₁)) (hpid : pid ∈ pids)
    (hused : Used rs pids pid s₁ log s) (hvalid : (iteratorCheckValidity pid s).1 = .ok ())
    (elementData : Nat → UInt8) (elementLen : UInt16)
    (hstore : storeElement pid elementData elementLen.toNat s = (.ok (), t))
    (hclear : ¬ ClearsUnderIterator s pid elementLen.toNat) :
    (∀ x, (s.iter pid).curElementAddress ≤ x →
      x < stopOf pid (s.part pid) (s.iter pid).curElementAddress (s.iter pid).curElementLen →
      t.bytes x = s.bytes x) ∧
      (iteratorReadElement pid t).1 = (iteratorReadElement pid s).1 := by
  obtain ⟨hsize, hreg, rfl, hdev, hiters, hparts⟩ := boot_blank (s := powerUp dev) hblank hboot
  have h₁ : AllGuarded rs s₁ := by
    refine ⟨fun e he => ?_, fun e he => ?_⟩
    · obtain ⟨p, hp⟩ := hparts e he
      have hstop := (layout_ok hreg he).stop_le
      rw [hp, show s₁.bytes = D.byte dev from congrArg D.byte hdev]
      refine ⟨⟨known_blank (layout_ok hreg he) hblank p, fun hf => ?_, fun hf => ?_⟩, ?_⟩
      · cases hf
      · cases hf
      · change e.start ≤ D.size
        omega
    · intro hnumber
      unfold State.iter at hnumber
      rw [hiters] at hnumber
      cases hnumber
  have hall := hused.allGuarded hsize hreg hpid h₁
  obtain ⟨e, he, rfl⟩ := List.mem_map.mp hpid
  have hk := (hall.parts e he).seated.known
  have hs := hk.sync
  have hcheck := Proc.eq_of_fst hvalid
  obtain ⟨hsame, hnumber, hf, -⟩ := iteratorCheckValidity_ok hs hcheck
  rw [hsame] at hcheck
  have hin := hall.iters e he hnumber
  rw [← hk.start_eq] at hin
  obtain ⟨hacc, hconflict, s₂, w, v, hs₂, -, hrun, ht⟩ := storeElement_eq_ok hk.ram hs hstore
  obtain ⟨hs₂', hfits, hapart⟩ :=
    checkIteratorConflict_apart hs hin hcheck (Proc.eq_of_fst hconflict)
  rw [hs₂'] at hs₂
  subst hs₂
  have hq := request_of_accepted hk.ram elementLen.toNat_lt hacc elementData
  obtain ⟨_, _, _, -, -, -, -, -, hknown, -⟩ := hk.store elementLen.toNat_lt hstore
  have hpart : t.part e.pid = (s₂.part e.pid).appended e.pid
      (storedAt e.pid (s₂.part e.pid) elementLen.toNat)
      (storedLen e.pid (s₂.part e.pid) elementLen.toNat)
      (storedData e.pid (s₂.part e.pid) elementData elementLen.toNat) := by
    rw [ht, setDev_part, setPart_part]
  have hiter : t.iter e.pid = s₂.iter e.pid := by rw [ht, setDev_iter, setPart_iter]
  have hfirst : (t.part e.pid).firstElementAddress = (s₂.part e.pid).firstElementAddress := by
    rw [hpart, appended_first]
  have hbytes : ∀ x, (s₂.iter e.pid).curElementAddress ≤ x →
      x < stopOf e.pid (s₂.part e.pid) (s₂.iter e.pid).curElementAddress
        (s₂.iter e.pid).curElementLen → t.bytes x = s₂.bytes x := by
    intro x hx hx'
    rw [ht]
    exact hrun.keeps_apart hk.ram hq.data_len hq.fits hin.address_ge hapart hclear hx hx'
  have hmeta : (s₂.iter e.pid).curElementAddress = (s₂.part e.pid).firstElementAddress →
      (t.part e.pid).metadata = (s₂.part e.pid).metadata := by
    intro ha
    have hle := unitStart_le D.modules (s₂.iter e.pid).curElementAddress
    have hlt := lt_stopOf e.pid (s₂.part e.pid)
      (storedAt e.pid (s₂.part e.pid) elementLen.toNat).address
      (storedLen e.pid (s₂.part e.pid) elementLen.toNat)
    have hit := lt_stopOf e.pid (s₂.part e.pid) (s₂.iter e.pid).curElementAddress
      (s₂.iter e.pid).curElementLen
    rw [hpart, appended_metadata_next (by omega)]
  have hfound := foundAt_congr (D := D) hfirst (Nat.le_add_right _ _) hbytes hmeta
  have hcheck' : iteratorCheckValidity e.pid t = (.ok (), t) := by
    have hcode := (iteratorCheckValidity_congr hs hknown.sync hiter (by rw [hpart, hf]; rfl)
      hfound).trans hvalid
    have heq := Proc.eq_of_fst hcode
    rw [(iteratorCheckValidity_ok hknown.sync heq).1] at heq
    exact heq
  refine ⟨hbytes, ?_⟩
  have hheader := headerLenAt_congr e.pid hfirst (s₂.iter e.pid).curElementAddress
  have hdata : slice s₂.bytes ((s₂.iter e.pid).curElementAddress + headerLenAt e.pid
      (s₂.part e.pid) (s₂.iter e.pid).curElementAddress) (s₂.iter e.pid).curElementLen =
      slice t.bytes ((t.iter e.pid).curElementAddress + headerLenAt e.pid (t.part e.pid)
        (t.iter e.pid).curElementAddress) (t.iter e.pid).curElementLen := by
    rw [hiter, hheader]
    exact (slice_congr fun x hx hx' => hbytes x (by omega) hx').symm
  have hfits' : stopOf e.pid (t.part e.pid) (t.iter e.pid).curElementAddress
      (t.iter e.pid).curElementLen ≤ D.size := by
    rw [hiter, stopOf_congr hfirst]
    exact hfits
  rw [iteratorReadElement_valid hcheck hfits rfl, iteratorReadElement_valid hcheck' hfits' hdata,
    hiter]

/-- No store after a run touches the element under a valid iterator. -/
def KeepsIteratorElement (rs : List Registration) (pids : List Nat) (pid : Nat)
    (s₁ : State D) : Prop :=
  ∀ (log : List Element) (s t : State D) (elementData : Nat → UInt8) (elementLen : UInt16),
    Used rs pids pid s₁ log s → (iteratorCheckValidity pid s).1 = .ok () →
    storeElement pid elementData elementLen.toNat s = (.ok (), t) →
    (∀ x, (s.iter pid).curElementAddress ≤ x →
      x < stopOf pid (s.part pid) (s.iter pid).curElementAddress (s.iter pid).curElementLen →
      t.bytes x = s.bytes x) ∧
      (iteratorReadElement pid t).1 = (iteratorReadElement pid s).1

/-- A dynamic partition with room for a few elements. -/
def guardedPartition : List Registration := [⟨42, true, false, 0, zero_lt_elementLenMax⟩]

def guardedStart : State eeprom := (boot guardedPartition (powerUp (D := eeprom) blankBytes)).2

theorem guardedStart_boot : boot guardedPartition (powerUp (D := eeprom) blankBytes) =
    (.ok [0x8000], guardedStart) := Proc.eq_of_fst (by decide +kernel)

def threeStored : State eeprom :=
  (storeList 0x8000 [0x33] (storeList 0x8000 [1, 1, 1, 1, 0, 5]
    (storeList 0x8000 [] guardedStart).2).2).2

/-- An iterator at the third of three elements. -/
def atThird : State eeprom := (iterate 0x8000 .init threeStored).2

theorem atThird_used : ∃ log, Used guardedPartition [0x8000] 0x8000 guardedStart log atThird := by
  have h₀ : Used guardedPartition [0x8000] 0x8000 guardedStart [] guardedStart := Used.start
  have h₁ := h₀.store (t := (storeList 0x8000 [] guardedStart).2) (bytesOf []) 0
    (Proc.eq_of_fst (by decide +kernel))
  have h₂ := h₁.store
    (t := (storeList 0x8000 [1, 1, 1, 1, 0, 5] (storeList 0x8000 [] guardedStart).2).2)
    (bytesOf [1, 1, 1, 1, 0, 5]) 6 (Proc.eq_of_fst (by decide +kernel))
  have h₃ := h₂.store (t := threeStored) (bytesOf [0x33]) 1 (Proc.eq_of_fst (by decide +kernel))
  exact ⟨_, h₃.iterate .init (show 0x8000 ∈ [0x8000] by decide)⟩

/-- A fourth element behind the third one. -/
theorem store_keeps_iterator_element_eeprom :
    (∀ x, (atThird.iter 0x8000).curElementAddress ≤ x →
      x < stopOf 0x8000 (atThird.part 0x8000) (atThird.iter 0x8000).curElementAddress
        (atThird.iter 0x8000).curElementLen →
      (storeList 0x8000 [0x44] atThird).2.bytes x = atThird.bytes x) ∧
      (iteratorReadElement 0x8000 (storeList 0x8000 [0x44] atThird).2).1 =
        (iteratorReadElement 0x8000 atThird).1 := by
  obtain ⟨log, hused⟩ := atThird_used
  have hvalid : (iteratorCheckValidity 0x8000 atThird).1 = .ok () := by decide +kernel
  have hstore : storeElement 0x8000 (bytesOf [0x44]) (1 : UInt16).toNat atThird =
      (.ok (), (storeList 0x8000 [0x44] atThird).2) := Proc.eq_of_fst (by decide +kernel)
  have hclear : ¬ ClearsUnderIterator atThird 0x8000 (1 : UInt16).toNat := by decide +kernel
  exact store_keeps_iterator_element (fun _ _ => rfl) guardedStart_boot (by decide) hused hvalid
    (bytesOf [0x44]) 1 hstore hclear

/-- A fourth element at the start of the partition, in front of two bytes of the second one that
look like the fifth record identifier. -/
def atStart : State eeprom := (storeList 0x8000 [0, 2, 0, 2, 0x55, 6, 7, 8] atThird).2

/-- The store clears the header of the third element, which the iterator is at. -/
theorem not_keepsIteratorElement_eeprom :
    boot guardedPartition (powerUp (D := eeprom) blankBytes) = (.ok [0x8000], guardedStart) ∧
      ¬ KeepsIteratorElement guardedPartition [0x8000] 0x8000 guardedStart := by
  refine ⟨guardedStart_boot, fun h => ?_⟩
  obtain ⟨log, hused⟩ := atThird_used
  have hvalid : (iteratorCheckValidity 0x8000 atThird).1 = .ok () := by decide +kernel
  have hstore : storeElement 0x8000 (bytesOf [0, 2, 0, 2, 0x55, 6, 7, 8]) (8 : UInt16).toNat
      atThird = (.ok (), atStart) := Proc.eq_of_fst (by decide +kernel)
  have hread := (h log atThird atStart _ 8 hused hvalid hstore).2
  exact absurd hread (by decide +kernel)

end OpenBadge.Filesystem
