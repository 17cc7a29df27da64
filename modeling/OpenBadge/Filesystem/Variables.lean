import OpenBadge.Filesystem.Retry
import OpenBadge.Filesystem.Used
import Mathlib.Data.List.Nodup

/-!
# The library's variables on any storage

Whatever the storage holds and whichever of its calls fail, the library's variables of a
partition stay within what its registration fixed: from a start on, in every run of stores,
clears and iterator calls.
-/

namespace OpenBadge.Filesystem

open OpenBadge.Lib OpenBadge.Storage
open Proc (Keeps Yields sure)

variable {D : Device} {s t s₀ : State D} {pid : Nat}

/-! ## Lookups -/

/-- From `s` to `t`, of the variables of partitions at most the copy of one first header has
changed. -/
structure CopyOnly (pid : Nat) (s t : State D) : Prop where
  others : ∀ j, j ≠ partitionIndex pid → t.partitions j = s.partitions j
  akin : Akin pid (s.part pid) (t.part pid)
  len_lt : (s.part pid).metadata.firstElementLen < 2 ^ 16 →
    (t.part pid).metadata.firstElementLen < 2 ^ 16
  count_eq : t.numberOfPartitions = s.numberOfPartitions

theorem CopyOnly.refl (pid : Nat) (s : State D) : CopyOnly pid s s :=
  ⟨fun _ _ => rfl, Akin.refl pid _, id, rfl⟩

theorem CopyOnly.of_same {u : State D} (h : CopyOnly pid s t) (hu : u.partitions = t.partitions)
    (hcount : u.numberOfPartitions = t.numberOfPartitions) : CopyOnly pid s u := by
  have hpart : u.part pid = t.part pid := congrFun hu _
  exact ⟨fun j hj => (congrFun hu j).trans (h.others j hj), by rw [hpart]; exact h.akin,
    by rw [hpart]; exact h.len_lt, hcount.trans h.count_eq⟩

theorem setPart_others {p : Partition} {j : Nat} (hj : j ≠ partitionIndex pid) :
    (s.setPart pid p).partitions j = s.partitions j := Function.update_of_ne hj _ _

theorem CopyOnly.setPart (h : CopyOnly pid s t) {p : Partition} (hakin : Akin pid (s.part pid) p)
    (hlen : (s.part pid).metadata.firstElementLen < 2 ^ 16 →
      p.metadata.firstElementLen < 2 ^ 16) : CopyOnly pid s (t.setPart pid p) :=
  ⟨fun j hj => (setPart_others hj).trans (h.others j hj), by rw [setPart_part]; exact hakin,
    by rw [setPart_part]; exact hlen, h.count_eq⟩

theorem keeps_of_same {α : Type} {x : Fs D α} (h : ∀ s, (x s).2.partitions = s.partitions ∧
    (x s).2.numberOfPartitions = s.numberOfPartitions) : Keeps (CopyOnly pid s₀) x :=
  fun s hs => hs.of_same (h s).1 (h s).2

theorem storageClear_setDev (a n : Nat) : ∃ v, (storageClear a n s).2 = s.setDev v := by
  rw [storageClear]
  by_cases hfits : (a + n) % 2 ^ 32 > D.size
  · rw [Proc.failIf_bind_pos hfits]
    exact ⟨s.dev, rfl⟩
  · rw [Proc.failIf_bind_neg hfits]
    by_cases hn : n ≠ 0
    · rw [Proc.when_pos hn]
      exact ⟨_, rfl⟩
    · rw [Proc.when_neg hn]
      exact ⟨s.dev, rfl⟩

namespace Failing

/-- `x` keeps the variables of partitions but for the copy of one first header. -/
abbrev KeepsCopy {α : Type} (pid : Nat) (s₀ : State D) (x : Fs D α) : Prop :=
  Keeps (fun s => CopyOnly pid s₀ s.state) x

theorem storageRead_copy (a n : Nat) : KeepsCopy pid s₀ (storageRead a n) :=
  (storageRead_keeps (CopyOnly pid s₀) a n).risky _

theorem storageStore_copy (a : Nat) (d : List UInt8) : KeepsCopy pid s₀ (storageStore a d) := by
  refine Keeps.risky (keeps_of_same fun s => ?_) _
  obtain ⟨v, hv⟩ := storageStore_setDev (s := s) a d
  rw [hv]
  exact ⟨rfl, rfl⟩

theorem storageClear_copy (a n : Nat) : KeepsCopy pid s₀ (storageClear a n) := by
  refine Keeps.risky (keeps_of_same fun s => ?_) _
  obtain ⟨v, hv⟩ := storageClear_setDev (s := s) a n
  rw [hv]
  exact ⟨rfl, rfl⟩

theorem unitLimits_copy (a n : Nat) :
    KeepsCopy pid s₀ (sure (storageGetUnitAddressLimits a n)) :=
  (unitLimits_keeps (CopyOnly pid s₀) a n).sure

theorem getIterator_copy : KeepsCopy pid s₀ (sure (getIterator pid)) :=
  Keeps.sure (I := CopyOnly pid s₀) fun _ hs => hs

theorem modifyIterator_copy (f : PartitionIterator → PartitionIterator) :
    KeepsCopy pid s₀ (sure (modifyIterator pid f)) :=
  (keeps_of_same fun _ => ⟨rfl, rfl⟩).sure

theorem iteratorLost_copy (α : Type) : KeepsCopy pid s₀ (sure (iteratorLost (α := α) pid)) :=
  (keeps_of_same fun _ => ⟨rfl, rfl⟩).sure

theorem getPartition_copy :
    Yields (fun s => CopyOnly pid s₀ s.state) (fun p => Akin pid (s₀.part pid) p)
      (sure (getPartition pid)) := by
  intro s hs
  refine ⟨hs, fun p hp => ?_⟩
  cases hp
  exact hs.akin

theorem acceptFirstHeader_copy {tmp : List UInt8}
    (h : (deserializeMetadata tmp).consistent pid (s₀.part pid) = true) :
    KeepsCopy pid s₀ (sure (acceptFirstHeader pid tmp)) :=
  Keeps.sure (I := CopyOnly pid s₀) fun _ hs =>
    hs.setPart (hs.akin.accept h) fun _ => ofBe16_lt _ _

theorem readFirstHeader_copy (a : Nat) : KeepsCopy pid s₀ (readFirstHeader pid a) := by
  refine ((storageRead_copy _ _).orFail _).bind fun tmp => ?_
  exact ((storageRead_copy _ _).orFail _).bind fun tmp' => Keeps.pure _ _

theorem restoreFirstHeader_copy (a : Nat) : KeepsCopy pid s₀ (restoreFirstHeader pid a) := by
  refine (readFirstHeader_copy _).bind fun tmp => getPartition_copy.seq fun p hp => ?_
  refine (Keeps.failIf _ _ _).bind fun _ => (Yields.failIf _ _).seq fun _ hc => ?_
  refine ((storageStore_copy _ _).orFail _).bind fun _ => ?_
  refine ((storageRead_copy _ _).orFail _).bind fun back => (Keeps.failIf _ _ _).bind fun _ => ?_
  rw [hp.consistent_eq] at hc
  exact acceptFirstHeader_copy (Bool.of_not_eq_false hc)

theorem readElementHeader_copy (a : Nat) : KeepsCopy pid s₀ (readElementHeader pid a) := by
  refine getPartition_copy.seq fun p hp => ?_
  split
  · refine (readFirstHeader_copy _).bind fun tmp => ?_
    split
    · refine (Yields.failIf _ _).seq fun _ hc => ?_
      rw [hp.consistent_eq] at hc
      exact acceptFirstHeader_copy (Bool.of_not_eq_false hc)
    · exact restoreFirstHeader_copy a
  · exact ((storageRead_copy _ _).orFail _).bind fun tmp => Keeps.pure _ _

theorem getFirstAsNext_copy (recordId : Nat) : KeepsCopy pid s₀ (getFirstAsNext pid recordId) := by
  refine getPartition_copy.seq fun p _ => (readElementHeader_copy _).bind fun h => ?_
  exact (Keeps.failIf _ _ _).bind fun _ => Keeps.pure _ _

theorem getNextElementHeader_copy (a recordId len : Nat) :
    KeepsCopy pid s₀ (getNextElementHeader pid a recordId len) := by
  refine getPartition_copy.seq fun p _ => (readElementHeader_copy _).bind fun h => ?_
  refine getPartition_copy.seq fun p' _ => ?_
  split
  · exact Keeps.pure _ _
  · exact getFirstAsNext_copy recordId

theorem getPreviousElementHeader_copy (a recordId len : Nat) :
    KeepsCopy pid s₀ (getPreviousElementHeader pid a recordId len) := by
  refine getPartition_copy.seq fun p _ => ?_
  split
  · refine (Keeps.failIf _ _ _).bind fun _ => (readElementHeader_copy _).bind fun h => ?_
    exact (Keeps.failIf _ _ _).bind fun _ => Keeps.pure _ _
  · refine (readElementHeader_copy _).bind fun h => getPartition_copy.seq fun p' _ => ?_
    refine (readElementHeader_copy _).bind fun h' => ?_
    exact (Keeps.failIf _ _ _).bind fun _ => Keeps.pure _ _

theorem backupFirstElementHeader_copy (a : Nat) (header : List UInt8) :
    KeepsCopy pid s₀ (backupFirstElementHeader a header) := by
  refine (Keeps.failIf _ _ _).bind fun _ => ((storageRead_copy _ _).orFail _).bind fun tmp => ?_
  refine Keeps.when fun _ => ((unitLimits_copy _ _).orFail _).bind fun limits => ?_
  refine ((storageRead_copy _ _).orFail _).bind fun page => ?_
  refine ((storageStore_copy _ _).orFail _).bind fun _ => ?_
  exact ((storageRead_copy _ _).orFail _).bind fun back => Keeps.failIf _ _ _

/-! ## Iterators -/

theorem iteratorCheckValidity_copy : KeepsCopy pid s₀ (iteratorCheckValidity pid) := by
  refine getIterator_copy.bind fun it => (Keeps.failIf _ _ _).bind fun _ => ?_
  refine getPartition_copy.seq fun p _ => (Keeps.when fun _ => iteratorLost_copy _).bind fun _ => ?_
  refine (readElementHeader_copy _).attempt.bind fun found => ?_
  split
  · exact iteratorLost_copy _
  · exact Keeps.fail _ _
  · exact Keeps.when fun _ => iteratorLost_copy _

theorem checkIteratorConflict_copy (a len : Nat) :
    KeepsCopy pid s₀ (checkIteratorConflict pid a len) := by
  refine iteratorCheckValidity_copy.attempt.bind fun valid => ?_
  split
  · exact Keeps.pure _ _
  · exact Keeps.fail _ _
  · refine getPartition_copy.seq fun p _ => getIterator_copy.bind fun it => ?_
    exact ((unitLimits_copy _ _).orFail _).bind fun limits => Keeps.failIf _ _ _

def iterate (pid : Nat) : IteratorCall → Fs D Unit
  | .invalidate => sure (iteratorInvalidate pid)
  | .init => iteratorInit pid
  | .next => iteratorNext pid
  | .previous => iteratorPrevious pid
  | .readElement => do
    let _ ← iteratorReadElement pid
    pure ()

theorem iterate_copy (c : IteratorCall) : KeepsCopy pid s₀ (iterate pid c) := by
  cases c with
  | invalidate => exact modifyIterator_copy _
  | init =>
    refine (modifyIterator_copy _).bind fun _ => getPartition_copy.seq fun p _ => ?_
    refine (Keeps.failIf _ _ _).bind fun _ => (modifyIterator_copy _).bind fun _ => ?_
    refine (readElementHeader_copy _).attempt.bind fun found => ?_
    split
    · exact Keeps.fail _ _
    · exact Keeps.fail _ _
    · exact modifyIterator_copy _
  | next =>
    refine iteratorCheckValidity_copy.bind fun _ => getIterator_copy.bind fun it => ?_
    refine (getNextElementHeader_copy _ _ _).bind fun found => ?_
    exact getPartition_copy.seq fun p _ => modifyIterator_copy _
  | previous =>
    refine iteratorCheckValidity_copy.bind fun _ => getIterator_copy.bind fun it => ?_
    refine (getPreviousElementHeader_copy _ _ _).bind fun found => ?_
    refine getPartition_copy.seq fun p _ => (Keeps.failIf _ _ _).bind fun _ => ?_
    exact modifyIterator_copy _
  | readElement =>
    refine Keeps.bind ?_ fun _ => Keeps.pure _ _
    refine iteratorCheckValidity_copy.bind fun _ => getPartition_copy.seq fun p _ => ?_
    refine getIterator_copy.bind fun it => ((storageRead_copy _ _).orFail _).bind fun data => ?_
    exact (Keeps.failIf _ _ _).bind fun _ => Keeps.pure _ _

/-! ## Stores and clears -/

theorem clearStaleNext_copy (pl : Placement) (len : Nat) :
    KeepsCopy pid s₀ (clearStaleNext pid pl len) := by
  refine (getNextElementHeader_copy _ _ _).attempt.bind fun ret => ?_
  split
  · exact Keeps.when fun _ => (storageClear_copy _ _).orFail _
  · exact Keeps.pure _ _
  · exact Keeps.fail _ _

theorem backupIfFirstUnit_copy (a len : Nat) : KeepsCopy pid s₀ (backupIfFirstUnit pid a len) := by
  refine ((unitLimits_copy _ _).orFail _).bind fun limits => getPartition_copy.seq fun p _ => ?_
  exact Keeps.when fun _ => (backupFirstElementHeader_copy _ _).orFail _

theorem writeElement_copy (a : Nat) (h : ElementHeader) (data : List UInt8) :
    KeepsCopy pid s₀ (writeElement pid a h data) := by
  refine getPartition_copy.seq fun p _ => ((storageStore_copy _ _).orFail _).bind fun _ => ?_
  refine ((storageRead_copy _ _).orFail _).bind fun back => (Keeps.failIf _ _ _).bind fun _ => ?_
  exact (storageStore_copy _ _).orFail _

end Failing

/-! ## What keeps the variables in order -/

theorem Ram.akin {p q : Partition} (h : Ram D pid p) (hq : Akin pid p q)
    (hlen : q.metadata.firstElementLen < 2 ^ 16) : Ram D pid q := by
  obtain ⟨heq, hid, hsize, -⟩ := hq
  rw [heq]
  refine ⟨h.pid_lt, h.index_lt, hid.trans h.id_eq, h.start_ge, h.start_unit, ?_, ?_, ?_, hlen, ?_,
    h.latestLen_lt, h.recordId⟩ <;> dsimp only <;> rw [hsize]
  · exact h.stop_unit
  · exact h.stop_le
  · exact h.size_ge
  · exact h.latest

/-- From `s` to `t` no other partition's variables have changed, and those of this one are in
order. -/
structure InOrder (pid : Nat) (s t : State D) : Prop where
  others : ∀ j, j ≠ partitionIndex pid → t.partitions j = s.partitions j
  ram : Ram D pid (t.part pid)

theorem CopyOnly.inOrder (h : CopyOnly pid s t) (hr : Ram D pid (s.part pid)) :
    InOrder pid s t := ⟨h.others, hr.akin h.akin (h.len_lt hr.firstLen_lt)⟩

theorem CopyOnly.finish {t : Faulty (State D)} (h : CopyOnly pid s t.state)
    {f : Partition → Partition} (hf : ∀ q, Akin pid (s.part pid) q →
      q.metadata.firstElementLen < 2 ^ 16 → Ram D pid (f q)) (hr : Ram D pid (s.part pid)) :
    InOrder pid s ((sure (modifyPartition pid f) t).2.state) := by
  refine ⟨fun j hj => (setPart_others hj).trans (h.others j hj), ?_⟩
  change Ram D pid ((t.state.setPart pid (f (t.state.part pid))).part pid)
  rw [setPart_part]
  exact hf _ h.akin (h.len_lt hr.firstLen_lt)

namespace Failing

/-- `x` begins where only a copy may have changed and ends with variables in order. -/
def Settles {α : Type} (pid : Nat) (s₀ : State D) (x : Fs D α) : Prop :=
  ∀ t : Faulty (State D), CopyOnly pid s₀ t.state → InOrder pid s₀ (x t).2.state

section Settles

variable {α β : Type} (hr : Ram D pid (s₀.part pid))
include hr

theorem KeepsCopy.settles {x : Fs D α} (hx : KeepsCopy pid s₀ x) : Settles pid s₀ x :=
  fun t ht => (hx t ht).inOrder hr

theorem settles_bind {Φ : α → Prop} {x : Fs D α} {f : α → Fs D β}
    (hx : Yields (fun s => CopyOnly pid s₀ s.state) Φ x) (hf : ∀ a, Φ a → Settles pid s₀ (f a)) :
    Settles pid s₀ (x >>= f) := by
  intro t ht
  obtain ⟨hcopy, hΦ⟩ := hx t ht
  rw [Proc.bind_apply]
  rcases hcall : x t with ⟨_ | a, u⟩
  · rw [hcall] at hcopy
    exact hcopy.inOrder hr
  · rw [hcall] at hcopy hΦ
    exact hf a (hΦ a rfl) u hcopy

theorem settles_modify {f : Partition → Partition} (hf : ∀ q, Akin pid (s₀.part pid) q →
    q.metadata.firstElementLen < 2 ^ 16 → Ram D pid (f q)) :
    Settles pid s₀ (sure (modifyPartition pid f)) := fun _ ht => ht.finish hf hr

/-- A clear, whichever of its calls fail. -/
theorem clearPartition_settles : Settles pid s₀ (clearPartition pid) := by
  refine settles_bind hr getPartition_copy fun p hp => ?_
  refine settles_bind hr (readElementHeader_copy _).attempt.yields fun found _ => ?_
  refine settles_bind hr (Φ := IsRecordId) ?_ fun recordId hid => ?_
  · split
    · exact Yields.pure (isRecordId_increment _)
    · exact Yields.pure (isRecordId_recordIdOf 0)
    · exact Yields.fail _
  · refine settles_bind hr ((backupFirstElementHeader_copy _ _).orFail _).yields fun _ _ => ?_
    refine settles_bind hr ((storageStore_copy _ _).orFail _).yields fun _ _ => ?_
    refine settles_bind hr ((storageRead_copy _ _).orFail _).yields fun back _ => ?_
    refine settles_bind hr (Yields.failIf _ _) fun _ _ => settles_modify hr fun q hq hlen => ?_
    have hq' := hr.akin hq hlen
    have hfirst : q.firstElementAddress = p.firstElementAddress :=
      hq.first_eq.trans hp.first_eq.symm
    rw [← hfirst]
    exact ⟨hq'.pid_lt, hq'.index_lt, hq'.id_eq, hq'.start_ge, hq'.start_unit, hq'.stop_unit,
      hq'.stop_le, hq'.size_ge, hq'.firstLen_lt, .inl rfl, Nat.two_pow_pos 16, fun _ => hid⟩

/-- A store, whichever of its calls fail. -/
theorem storeElement_settles (elementData : Nat → UInt8) {elementLen : Nat}
    (hlen : elementLen < 2 ^ 16) : Settles pid s₀ (storeElement pid elementData elementLen) := by
  refine settles_bind hr getPartition_copy fun p hp => ?_
  have hlenOf := hp.storedLen_eq elementLen
  have hlt := storedLen_lt hr hlen
  dsimp only
  rw [show (if isDynamic pid = false ∧ elementLen = 0 then p.metadata.firstElementLen
    else elementLen) = storedLen pid (s₀.part pid) elementLen from hlenOf]
  generalize hstored : storedLen pid (s₀.part pid) elementLen = len at hlt
  refine settles_bind hr (Yields.failIf _ _) fun _ hparam => ?_
  refine settles_bind hr (Yields.failIf _ _) fun _ hfull => ?_
  refine settles_bind hr ((checkIteratorConflict_copy _ _).orFail _).yields fun _ _ => ?_
  refine settles_bind hr (clearStaleNext_copy _ _).yields fun _ _ => ?_
  refine settles_bind hr (Keeps.when fun _ => ?_).yields fun _ _ => ?_
  · refine Keeps.sure (I := CopyOnly pid s₀) fun s hs => hs.setPart ?_ fun _ => hlt
    refine hs.akin.setCopy (m := newMetadata pid _ len _) hr.id_eq.symm hs.akin.size_eq
      (fun hd => ?_) _
    change len = _
    rw [← hstored, storedLen]
    rw [hp.len_eq hd] at hparam
    by_cases hzero : elementLen = 0
    · rw [if_pos ⟨hd, hzero⟩]
    · rw [if_neg fun h => hzero h.2]
      by_contra hne
      exact hparam ⟨hd, hzero, hne⟩
  refine settles_bind hr (backupIfFirstUnit_copy _ _).yields fun _ _ => ?_
  refine settles_bind hr (writeElement_copy _ _ _).yields fun _ _ => ?_
  refine settles_modify hr fun q hq hlenq => ?_
  have hq' := hr.akin hq hlenq
  have hfirst := hq.first_eq.trans hp.first_eq.symm
  have hsize := hq.size_eq.trans hp.size_eq.symm
  rw [hp.placement_eq] at hfull ⊢
  refine ⟨hq'.pid_lt, hq'.index_lt, hq'.id_eq, hq'.start_ge, hq'.start_unit, hq'.stop_unit,
      hq'.stop_le, hq'.size_ge, hq'.firstLen_lt, ?_, hlt, fun h => (by cases h)⟩
  dsimp only
  rw [hq.first_eq, hq.size_eq]
  rw [hp.first_eq, hp.size_eq] at hfull
  exact (placement_address hr len).imp_right fun h => ⟨h, by omega⟩

end Settles

theorem iterate_settles (hr : Ram D pid (s₀.part pid)) (c : IteratorCall) :
    Settles pid s₀ (iterate pid c) := (iterate_copy c).settles hr

end Failing

/-! ## Starts -/

theorem readElementHeader_copy (a : Nat) :
    Keeps (CopyOnly pid s₀) (readElementHeader pid a) :=
  (Failing.readElementHeader_quiet pid a).keeps (Failing.readElementHeader_copy a)

theorem getPartition_akin :
    Yields (CopyOnly pid s₀) (fun p => Akin pid (s₀.part pid) p ∧
      ((s₀.part pid).metadata.firstElementLen < 2 ^ 16 → p.metadata.firstElementLen < 2 ^ 16))
      (getPartition pid) := by
  intro s hs
  refine ⟨hs, fun p hp => ?_⟩
  cases hp
  exact ⟨hs.akin, hs.len_lt⟩

/-- An address at which an element of the partition may begin. -/
def Partition.Within (pid : Nat) (p : Partition) (a : Nat) : Prop :=
  a = p.firstElementAddress ∨ (p.firstElementAddress + metadataSize + getElementHeaderLen pid ≤ a ∧
    a ≤ p.firstElementAddress + p.metadata.partitionSize)

theorem readElementHeader_header (a : Nat) :
    Yields (CopyOnly pid s₀) ElementHeader.Typed (readElementHeader pid a) :=
  fun s hs => ⟨readElementHeader_copy a s hs, (readElementHeader_typed a s trivial).2⟩

/-- The element behind one of the partition's elements is one of them. -/
theorem getNextElementHeader_within {a : Nat} (ha : (s₀.part pid).Within pid a)
    (recordId len : Nat) :
    Yields (CopyOnly pid s₀) (fun x => (s₀.part pid).Within pid x.1 ∧ x.2.Typed)
      (getNextElementHeader pid a recordId len) := by
  have hH := elementHeaderLen_bounds pid
  refine getPartition_akin.bind fun p hp => (readElementHeader_header _).bind fun h hh => ?_
  refine getPartition_akin.bind fun p' _ => ?_
  have hfirst := hp.1.first_eq
  have hsize := hp.1.size_eq
  rw [headerLenAt_congr pid hfirst, hfirst, hsize]
  split
  · rename_i hnext
    refine Yields.pure ⟨.inr ⟨?_, by omega⟩, hh⟩
    unfold headerLenAt
    rcases ha with ha | ha
    · rw [if_pos ha]
      omega
    · split <;> omega
  · refine getPartition_akin.bind fun p'' hp'' => (readElementHeader_header _).bind fun h' hh' => ?_
    exact (Yields.failIf _ _).bind fun _ _ => Yields.pure ⟨.inl hp''.1.first_eq, hh'⟩

theorem findLatestLoop_within {firstLen : Nat} (hfirst : firstLen < 2 ^ 16) (fuel : Nat) :
    ∀ (cur recordId len : Nat) (ret : Except RetCode (Nat × ElementHeader)),
      (s₀.part pid).Within pid cur → len < 2 ^ 16 →
      (∀ x, ret = .ok x → (s₀.part pid).Within pid x.1 ∧ x.2.Typed) →
      Yields (CopyOnly pid s₀) (fun x => (s₀.part pid).Within pid x.1 ∧ x.2.2.1 < 2 ^ 16)
        (findLatestLoop pid firstLen fuel cur recordId len ret) := by
  induction fuel with
  | zero => exact fun cur _ len _ hcur hlen _ => Yields.pure ⟨hcur, hlen⟩
  | succ fuel ih =>
    intro cur recordId len ret hcur hlen hret
    rcases ret with code | ⟨next, h⟩
    · exact Yields.pure ⟨hcur, hlen⟩
    · obtain ⟨hnext, hh⟩ := hret _ rfl
      rw [findLatestLoop]
      by_cases hle : next ≤ cur
      · rw [if_pos hle]
        exact Yields.pure ⟨hcur, hlen⟩
      · rw [if_neg hle]
        have hlen' : (if isDynamic pid then len ^^^ h.previousLenXorCurLen else firstLen) < 2 ^ 16 := by
          split
          · exact Nat.xor_lt_two_pow hlen hh.xor_lt
          · exact hfirst
        exact (getNextElementHeader_within hnext _ _).attempt.bind fun ret' hret' =>
          ih next h.recordId _ ret' hnext hlen' hret'

/-- The variables are in order once the partition is known to have a first element. -/
structure InOrderWithFirst (pid : Nat) (s t : State D) : Prop where
  others : ∀ j, j ≠ partitionIndex pid → t.partitions j = s.partitions j
  ram : Ram D pid { t.part pid with hasFirstElement := true }
  count_eq : t.numberOfPartitions = s.numberOfPartitions

theorem findLatestElementAddress_inOrder (hr : Ram D pid (s.part pid))
    (h : findLatestElementAddress pid s = (.ok (), t)) : InOrderWithFirst pid s t := by
  obtain ⟨p, _, hget, h⟩ := Proc.bind_eq_ok.mp h
  cases hget
  obtain ⟨_, s₁, hmodify, h⟩ := Proc.bind_eq_ok.mp h
  have hbegin : s.setPart pid { s.part pid with
      latestElementAddress := (s.part pid).firstElementAddress } = s₁ := congrArg Prod.snd hmodify
  obtain ⟨hd, s₂, hread, h⟩ := Proc.bind_eq_ok.mp h
  obtain ⟨ret, s₃, hnext, h⟩ := Proc.bind_eq_ok.mp h
  obtain ⟨⟨a, recordId, len, ret'⟩, s₄, hloop, h⟩ := Proc.bind_eq_ok.mp h
  obtain ⟨_, s₅, hmodify₅, h⟩ := Proc.bind_eq_ok.mp h
  have hend : s₄.setPart pid { s₄.part pid with
      latestElementAddress := a
      latestElementRecordId := recordId
      latestElementLen := len } = s₅ := congrArg Prod.snd hmodify₅
  have hpart : s₁.part pid = { s.part pid with
      latestElementAddress := (s.part pid).firstElementAddress } := by
    rw [← hbegin, setPart_part]
  have hfirst : (s₁.part pid).firstElementAddress = (s.part pid).firstElementAddress := by
    rw [hpart]
  have hcopy₂ := readElementHeader_copy (s.part pid).firstElementAddress s₁ (CopyOnly.refl pid s₁)
  rw [hread] at hcopy₂
  have hstart : (s₁.part pid).Within pid (s.part pid).firstElementAddress := .inl hfirst.symm
  have hyield₃ := (getNextElementHeader_within hstart hd.recordId
    (s.part pid).metadata.firstElementLen).attempt s₂ hcopy₂
  rw [hnext] at hyield₃
  obtain ⟨hcopy₃, hret⟩ := hyield₃
  obtain ⟨hcopy₄, hlatest⟩ := findLatestLoop_within hr.firstLen_lt
    ((s.part pid).metadata.partitionSize + 1) _ hd.recordId _ ret hstart hr.firstLen_lt (hret ret rfl)
    s₃ hcopy₃
  rw [hloop] at hcopy₄ hlatest
  obtain ⟨hwithin, hlen⟩ := hlatest _ rfl
  have ht : t = s₅ := by
    rcases ret' with code | x
    · cases code <;> cases h
      rfl
    · cases h
      rfl
  rw [ht, ← hend]
  have hq : Ram D pid (s₁.part pid) := by
    rw [hpart]
    exact ⟨hr.pid_lt, hr.index_lt, hr.id_eq, hr.start_ge, hr.start_unit, hr.stop_unit, hr.stop_le,
      hr.size_ge, hr.firstLen_lt, .inl rfl, hr.latestLen_lt, hr.recordId⟩
  have hq' := hq.akin hcopy₄.akin (hcopy₄.len_lt hq.firstLen_lt)
  refine ⟨fun j hj => ?_, ?_, ?_⟩
  · rw [setPart_others hj, hcopy₄.others j hj, ← hbegin, setPart_others hj]
  · rw [setPart_part]
    refine ⟨hq'.pid_lt, hq'.index_lt, hq'.id_eq, hq'.start_ge, hq'.start_unit, hq'.stop_unit,
      hq'.stop_le, hq'.size_ge, hq'.firstLen_lt, ?_, hlen, fun hf => (by cases hf)⟩
    dsimp only
    rw [hcopy₄.akin.first_eq, hcopy₄.akin.size_eq]
    exact hwithin
  · change s₄.numberOfPartitions = s.numberOfPartitions
    rw [hcopy₄.count_eq, ← hbegin]
    rfl

/-- A registration, whatever the storage holds. -/
structure RegisteredAs (e : Extent) (s t : State D) : Prop where
  inOrder : InOrder e.pid s t
  next_eq : t.nextFreeAddress = e.start + e.size
  count_eq : t.numberOfPartitions = s.numberOfPartitions + 1

theorem registerFound_inOrder {e : Extent} {a : Nat} (hr : Ram D e.pid (s.part e.pid))
    (hempty : (s.part e.pid).hasFirstElement = false)
    (h : registerFound e s = (.ok a, t)) : a = e.pid ∧ RegisteredAs e s t := by
  obtain ⟨found, s₁, hread, h⟩ := Proc.bind_eq_ok.mp h
  have hcopy := (readElementHeader_copy e.start).attempt s (CopyOnly.refl e.pid s)
  rw [hread] at hcopy
  have hram := (hcopy.inOrder hr).ram
  rcases found with code | hd
  · cases code with
    | notFound =>
      obtain ⟨_, s₂, hmodify, h⟩ := Proc.bind_eq_ok.mp h
      cases hmodify
      cases h
      refine ⟨rfl, ⟨fun j hj => (setPart_others hj).trans (hcopy.others j hj), ?_⟩, rfl,
        congrArg (· + 1) hcopy.count_eq⟩
      change Ram D e.pid ((s₁.setPart e.pid _).part e.pid)
      rw [setPart_part]
      refine ⟨hram.pid_lt, hram.index_lt, hram.id_eq, hram.start_ge, hram.start_unit,
        hram.stop_unit, hram.stop_le, hram.size_ge, hram.firstLen_lt, hram.latest,
        hram.latestLen_lt, fun _ => ?_⟩
      dsimp only
      rw [hcopy.akin.eq]
      exact hr.recordId hempty
    | _ => cases h
  · obtain ⟨_, s₂, hlatest, h⟩ := Proc.bind_eq_ok.mp h
    obtain ⟨_, s₃, hmodify, h⟩ := Proc.bind_eq_ok.mp h
    cases hmodify
    cases h
    have hsearch := findLatestElementAddress_inOrder hram hlatest
    refine ⟨rfl, ⟨fun j hj => ?_, ?_⟩, rfl,
      congrArg (· + 1) (hsearch.count_eq.trans hcopy.count_eq)⟩
    · exact (setPart_others hj).trans ((hsearch.others j hj).trans (hcopy.others j hj))
    · change Ram D e.pid ((s₂.setPart e.pid _).part e.pid)
      rw [setPart_part]
      exact hsearch.ram

theorem registerPartition_inOrder {r : Registration} {pid : Nat}
    (hstart : swapPageSize ≤ s.nextFreeAddress) (h : registerPartition r s = (.ok pid, t)) :
    partitionIndex pid = s.numberOfPartitions ∧ swapPageSize ≤ t.nextFreeAddress ∧
      t.numberOfPartitions = s.numberOfPartitions + 1 ∧ InOrder pid s t := by
  have hreg := registrable_of_ok h
  have he := extentOf_ok hreg hstart
  have hindex : partitionIndex (extentOf D s.numberOfPartitions s.nextFreeAddress r).pid =
    s.numberOfPartitions := partitionIndex_partitionIdOf hreg.index_lt _ _
  generalize hext : extentOf D s.numberOfPartitions s.nextFreeAddress r = e at he hindex
  rw [registerPartition_eq hreg hext.symm] at h
  have hpart := setPart_part s e.pid ((s.part e.pid).registered e)
  obtain ⟨rfl, hdone⟩ := registerFound_inOrder (by rw [hpart]; exact ram_registered he _)
    (by rw [hpart]; rfl) h
  refine ⟨hindex, ?_, hdone.count_eq, fun j hj => ?_, hdone.inOrder.ram⟩
  · rw [hdone.next_eq]
    exact Nat.le_trans he.start_ge (Nat.le_add_right _ _)
  · exact (hdone.inOrder.others j hj).trans (setPart_others hj)

/-- The variables of the partitions of a list are in order, and no two share an entry. -/
structure AllInOrder (pids : List Nat) (s : State D) : Prop where
  ram : ∀ pid ∈ pids, Ram D pid (s.part pid)
  nodup : (pids.map partitionIndex).Nodup

theorem registerAll_inOrder : ∀ {rs : List Registration} {pids : List Nat} {s t : State D},
    swapPageSize ≤ s.nextFreeAddress → registerAll rs s = (.ok pids, t) →
    AllInOrder pids t ∧ (∀ pid ∈ pids, s.numberOfPartitions ≤ partitionIndex pid) ∧
      ∀ j < s.numberOfPartitions, t.partitions j = s.partitions j
  | [], _, _, _, _, h => by
    cases h
    exact ⟨⟨fun _ hp => absurd hp List.not_mem_nil, List.nodup_nil⟩,
      fun _ hp => absurd hp List.not_mem_nil, fun _ _ => rfl⟩
  | r :: rs, _, s, t, hstart, h => by
    obtain ⟨pid, s₁, hregister, h⟩ := Proc.bind_eq_ok.mp h
    obtain ⟨pids, t₁, hrest, h⟩ := Proc.bind_eq_ok.mp h
    cases h
    obtain ⟨hindex, hstart₁, hcount, hpid⟩ := registerPartition_inOrder hstart hregister
    obtain ⟨hall, hge, hbelow⟩ := registerAll_inOrder hstart₁ hrest
    rw [hcount] at hge hbelow
    refine ⟨⟨fun pid' hp => ?_, List.nodup_cons.mpr ⟨fun hmem => ?_, hall.nodup⟩⟩,
      fun pid' hp => ?_, fun j hj => ?_⟩
    · rcases List.mem_cons.mp hp with rfl | hp
      · have hsame : t.part pid' = s₁.part pid' := hbelow _ (by omega)
        rw [hsame]
        exact hpid.ram
      · exact hall.ram pid' hp
    · obtain ⟨pid', hp, hsame⟩ := List.mem_map.mp hmem
      have hge' := hge pid' hp
      omega
    · rcases List.mem_cons.mp hp with rfl | hp
      · exact Nat.le_of_eq hindex.symm
      · have hge' := hge pid' hp
        omega
    · rw [hbelow j (by omega), hpid.others j (by omega)]

/-- A start, whatever the storage and the library's variables hold. -/
theorem boot_inOrder {rs : List Registration} {pids : List Nat} (h : boot rs s = (.ok pids, t)) :
    AllInOrder pids t := by
  obtain ⟨_, s₁, hreset, h⟩ := Proc.bind_eq_ok.mp h
  have hsize := size_of_reset hreset
  rw [reset_eq hsize] at hreset
  cases hreset
  exact (registerAll_inOrder (firstFree_ge D) h).1

/-! ## Runs -/

theorem AllInOrder.step {pids : List Nat} (h : AllInOrder pids s) (hpid : pid ∈ pids)
    (hstep : InOrder pid s t) : AllInOrder pids t := by
  refine ⟨fun pid' hp => ?_, h.nodup⟩
  by_cases heq : pid' = pid
  · rw [heq]
    exact hstep.ram
  · have hne : partitionIndex pid' ≠ partitionIndex pid := fun hsame =>
      heq (List.inj_on_of_nodup_map h.nodup hp hpid hsame)
    have hsame : t.part pid' = s.part pid' := hstep.others _ hne
    rw [hsame]
    exact h.ram pid' hp

/-- The states of an application that has started with the registrations `rs` on any storage:
any of the storage calls of its stores, clears and iterator calls may have failed. -/
inductive ReachedWithFaults (rs : List Registration) (pids : List Nat) : State D → Prop
  | start {s t : State D} : boot rs s = (.ok pids, t) → ReachedWithFaults rs pids t
  | store {s : State D} {pid : Nat} (faults : List Bool) (elementData : Nat → UInt8)
      (elementLen : UInt16) : ReachedWithFaults rs pids s → pid ∈ pids →
      ReachedWithFaults rs pids
        (Failing.storeElement pid elementData elementLen.toNat ⟨s, faults⟩).2.state
  | clear {s : State D} {pid : Nat} (faults : List Bool) : ReachedWithFaults rs pids s →
      pid ∈ pids → ReachedWithFaults rs pids (Failing.clearPartition pid ⟨s, faults⟩).2.state
  | iterate {s : State D} {pid : Nat} (faults : List Bool) (c : IteratorCall) :
      ReachedWithFaults rs pids s → pid ∈ pids →
      ReachedWithFaults rs pids (Failing.iterate pid c ⟨s, faults⟩).2.state

/-- In every run the variables of all partitions stay within what was registered. -/
theorem ReachedWithFaults.allInOrder {rs : List Registration} {pids : List Nat}
    (h : ReachedWithFaults rs pids s) : AllInOrder pids s := by
  induction h with
  | start hboot => exact boot_inOrder hboot
  | store faults elementData elementLen _ hpid ih =>
    exact ih.step hpid (Failing.storeElement_settles (ih.ram _ hpid) elementData
      elementLen.toNat_lt _ (CopyOnly.refl _ _))
  | clear faults _ hpid ih =>
    exact ih.step hpid (Failing.clearPartition_settles (ih.ram _ hpid) _ (CopyOnly.refl _ _))
  | iterate faults c _ hpid ih =>
    exact ih.step hpid (Failing.iterate_settles (ih.ram _ hpid) c _ (CopyOnly.refl _ _))

end OpenBadge.Filesystem
