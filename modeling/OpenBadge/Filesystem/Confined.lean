import OpenBadge.Filesystem.Known

/-!
# What a call on one partition can reach

A call on the partition at `e` is `Confined`: whatever the storage contains and wherever
the call fails, it changes neither the place of the partition nor a byte or a variable of
another one.
-/

namespace OpenBadge.Filesystem

open OpenBadge.Lib OpenBadge.Storage

variable {D : Device} {s t s₀ : State D} {e : Extent}

/-! ## Writes -/

/-- How a store of `d` at `a` may change the bytes, successful or not. -/
def Reaches (D : Device) (a : Nat) (d : List UInt8) (m m' : Nat → UInt8) : Prop :=
  Reached (unitStop D.modules (a + d.length - 1)) m a d m'

theorem storageStore_reaches (hD : D.FailsWithin) {a : Nat} {d : List UInt8}
    (ha : a + d.length < 2 ^ 32) :
    ∃ v, (storageStore a d s).2 = s.setDev v ∧ Reaches D a d s.bytes (D.byte v) := by
  unfold storageStore
  by_cases hfits : (a + d.length) % 2 ^ 32 > D.size
  · rw [Proc.failIf_bind_pos hfits]
    exact ⟨s.dev, rfl, Reached.refl _ _ _ _⟩
  · rw [Proc.failIf_bind_neg hfits]
    rw [Nat.mod_eq_of_lt ha] at hfits
    by_cases hd : d.length ≠ 0
    · rw [Proc.when_pos hd]
      refine ⟨(D.store a d s.dev).2, rfl, ?_⟩
      rcases hcall : D.store a d s.dev with ⟨_ | _, v⟩
      · exact hD.1 a d s.dev _ v (by omega) (by omega) hcall
      · exact (D.store_spec a d s.dev v (by omega) (Nat.not_lt.mp hfits) hcall).reached
    · rw [Proc.when_neg hd]
      exact ⟨s.dev, rfl, Reached.refl _ _ _ _⟩

theorem storageClear_reaches (hD : D.FailsWithin) {a n : Nat} (ha : a + n < 2 ^ 32) :
    ∃ v, (storageClear a n s).2 = s.setDev v ∧
      Reaches D a (List.replicate n 0xFF) s.bytes (D.byte v) := by
  unfold storageClear Reaches
  rw [List.length_replicate]
  by_cases hfits : (a + n) % 2 ^ 32 > D.size
  · rw [Proc.failIf_bind_pos hfits]
    exact ⟨s.dev, rfl, Reached.refl _ _ _ _⟩
  · rw [Proc.failIf_bind_neg hfits]
    rw [Nat.mod_eq_of_lt ha] at hfits
    by_cases hn : n ≠ 0
    · rw [Proc.when_pos hn]
      refine ⟨(D.clear a n s.dev).2, rfl, ?_⟩
      rcases hcall : D.clear a n s.dev with ⟨_ | _, v⟩
      · exact hD.2 a n s.dev _ v (by omega) (by omega) hcall
      · exact (D.clear_spec a n s.dev v (by omega) (Nat.not_lt.mp hfits) hcall).reached
    · rw [Proc.when_neg hn]
      exact ⟨s.dev, rfl, Reached.refl _ _ _ _⟩

/-! ## The place of a partition -/

/-- The place that the table has for a partition. -/
def Partition.extent (p : Partition) : Extent :=
  { pid := p.metadata.partitionId
    start := p.firstElementAddress
    size := p.metadata.partitionSize
    elementLen := if isDynamic p.metadata.partitionId then 0 else p.metadata.firstElementLen }

/-- The library's variables of a partition at `e`. -/
structure Partition.At (p : Partition) (e : Extent) : Prop where
  extent_eq : p.extent = e
  latest_ge : e.start ≤ p.latestElementAddress

namespace Partition.At

variable {p : Partition}

theorem pid_eq (h : p.At e) : p.metadata.partitionId = e.pid := congrArg Extent.pid h.extent_eq

theorem start_eq (h : p.At e) : p.firstElementAddress = e.start :=
  congrArg Extent.start h.extent_eq

theorem size_eq (h : p.At e) : p.metadata.partitionSize = e.size :=
  congrArg Extent.size h.extent_eq

theorem len_eq (h : p.At e) (hd : isDynamic e.pid = false) :
    p.metadata.firstElementLen = e.elementLen := by
  have hlen := congrArg Extent.elementLen h.extent_eq
  unfold Partition.extent at hlen
  rw [h.pid_eq, hd] at hlen
  exact hlen

/-- Metadata that the library takes over for the partition leave it where it is. -/
theorem accept (h : p.At e) {m : Metadata} (hm : m.consistent e.pid p = true) :
    ({ p with metadata := m } : Partition).At e := by
  unfold Metadata.consistent at hm
  simp only [Bool.and_eq_true, Bool.or_eq_true, decide_eq_true_eq] at hm
  obtain ⟨⟨hid, hsize⟩, hlen⟩ := hm
  refine ⟨?_, h.latest_ge⟩
  rw [← h.extent_eq]
  unfold Partition.extent
  rw [hid, hsize, h.pid_eq]
  rcases hlen with hd | hlen
  · rw [if_pos hd, if_pos hd]
  · rw [hlen]

end Partition.At

/-! ## Confined calls -/

/-- From `s₀` on, only the partition at `e` was worked on. -/
structure Confined (e : Extent) (s₀ s : State D) : Prop extends Local e s₀ s where
  at_place : (s.part e.pid).At e
  number_eq : s.numberOfPartitions = s₀.numberOfPartitions
  next_eq : s.nextFreeAddress = s₀.nextFreeAddress

theorem Confined.refl (h : (s.part e.pid).At e) : Confined e s s :=
  ⟨⟨fun _ _ => rfl, fun _ _ => rfl⟩, h, rfl, rfl⟩

theorem Confined.setDev (h : Confined e s₀ s) {v : D.State}
    (hv : ∀ x, ¬ e.Owns x → D.byte v x = s.bytes x) : Confined e s₀ (s.setDev v) :=
  ⟨⟨fun x hx => (hv x hx).trans (h.bytes x hx), h.parts⟩, h.at_place, h.number_eq, h.next_eq⟩

theorem Confined.setPart (h : Confined e s₀ s) {p : Partition} (hp : p.At e) :
    Confined e s₀ (s.setPart e.pid p) := by
  refine ⟨⟨h.bytes, fun j hj => ?_⟩, ?_, h.number_eq, h.next_eq⟩
  · exact (Function.update_of_ne hj _ _).trans (h.parts j hj)
  · rw [setPart_part]
    exact hp

open Proc (Keeps Yields)

theorem getPartition_confined :
    Yields (Confined e s₀) (fun p => p.At e) (getPartition (D := D) e.pid) := by
  intro s hs
  refine ⟨hs, fun p hp => ?_⟩
  cases hp
  exact hs.at_place

theorem getIterator_keeps {I : State D → Prop} (pid : Nat) : Keeps I (getIterator pid) :=
  fun _ hs => hs

theorem modifyPartition_confined {f : Partition → Partition} (hf : ∀ p : Partition, p.At e →
    (f p).At e) : Keeps (Confined e s₀) (modifyPartition e.pid f) :=
  fun _ hs => hs.setPart (hf _ hs.at_place)

theorem modifyIterator_confined (f : PartitionIterator → PartitionIterator) :
    Keeps (Confined e s₀) (modifyIterator e.pid f) :=
  fun _ hs => ⟨⟨hs.bytes, hs.parts⟩, hs.at_place, hs.number_eq, hs.next_eq⟩

/-- A write inside the partition ends at the boundary behind the partition at the latest. -/
theorem Extent.Ok.reaches_outside (he : e.Ok D) {a : Nat} {d : List UInt8} {m m' : Nat → UInt8}
    (h : Reaches D a d m m') (ha : e.start ≤ a) (hd : a + d.length ≤ e.start + e.size) {x : Nat}
    (hx : ¬ e.Owns x) : m' x = m x := by
  have hstart := he.start_ge
  have hroom := he.room
  have hstop := unitStop_le_of_lt he.stop_unit (a := a + d.length - 1)
    (by unfold metadataSize at hroom; omega)
  rcases (outside_of_not_owns hx).1 with hlt | hge
  · exact h.before x (by omega)
  · exact h.after x (by omega)

theorem storageStore_confined (hD : D.FailsWithin) (he : e.Ok D) {a : Nat} {d : List UInt8}
    (ha : e.start ≤ a) (hd : a + d.length ≤ e.start + e.size) :
    Keeps (Confined e s₀) (storageStore a d) := by
  intro s hs
  have hlt := size_lt D
  have hstop := he.stop_le
  obtain ⟨v, hv, hreach⟩ := storageStore_reaches (s := s) hD (a := a) (d := d) (by omega)
  rw [hv]
  exact hs.setDev fun x hx => he.reaches_outside hreach ha hd hx

theorem storageClear_confined (hD : D.FailsWithin) (he : e.Ok D) {a n : Nat}
    (ha : e.start ≤ a) (hn : a + n ≤ e.start + e.size) :
    Keeps (Confined e s₀) (storageClear a n) := by
  intro s hs
  have hlt := size_lt D
  have hstop := he.stop_le
  obtain ⟨v, hv, hreach⟩ := storageClear_reaches (s := s) hD (a := a) (n := n) (by omega)
  rw [hv]
  exact hs.setDev fun x hx =>
    he.reaches_outside hreach ha (by rw [List.length_replicate]; exact hn) hx

/-- The units of the swap page are rewritten with what they hold, up to the own entry. -/
theorem swapUnits_reaches {a : Nat} {header : List UInt8} (hh : 0 < header.length)
    {m m' : Nat → UInt8}
    (h : Reaches D (unitStart D.modules a) (swapUnits D m a header) m m') {x : Nat}
    (hx : x < a ∨ a + header.length ≤ x) : m' x = m x := by
  have hstart := unitStart_le D.modules a
  have hstop := lt_unitStop D.modules (a + header.length - 1)
  have hlen : (swapUnits D m a header).length =
      unitStop D.modules (a + header.length - 1) - unitStart D.modules a := by
    rw [swapUnits_eq _ _ hh, slice_length]
  have hend : unitStop D.modules (unitStart D.modules a + (swapUnits D m a header).length - 1) ≤
      unitStop D.modules (a + header.length - 1) :=
    unitStop_le_of_lt (unitStart_unitStop _ _) (by omega)
  by_cases hlt : x < unitStart D.modules a
  · exact h.before x hlt
  · by_cases hge : unitStop D.modules (a + header.length - 1) ≤ x
    · exact h.after x (by omega)
    · apply h.same x (by omega) (by omega)
      have hpage := slice_overwrite m (unitStart D.modules a) (swapUnits D m a header)
      conv_rhs at hpage => rw [swapUnits_eq _ _ hh]
      rw [hlen] at hpage
      rw [eq_of_slice_eq hpage (by omega) (by omega)]
      rcases hx with hx | hx
      · exact overwrite_of_lt _ _ hx
      · exact overwrite_of_ge _ _ hx

theorem backupFirstElementHeader_confined (hD : D.FailsWithin) (he : e.Ok D)
    {header : List UInt8} (hlen : header.length = metadataSize + getElementHeaderLen e.pid) :
    Keeps (Confined e s₀)
      (backupFirstElementHeader (getSwapPageAddressOfPartition e.pid) header) := by
  intro s hs
  have hlt := size_lt D
  have hswap := swapEntry_le he.index_lt
  have hge := he.start_ge
  have hle := he.stop_le
  have hh : 0 < header.length := by unfold metadataSize at hlen; omega
  obtain ⟨a, ha⟩ : ∃ a, a = getSwapPageAddressOfPartition e.pid := ⟨_, rfl⟩
  rw [← ha] at hswap ⊢
  have hfits : a + header.length ≤ D.size := by omega
  have hstart := unitStart_le D.modules a
  have hstop := lt_unitStop D.modules (a + header.length - 1)
  have hstop' := unitRange_le (D := D) hh hfits
  have hsize : unitStop D.modules (a + header.length - 1) - 1 + 1 - unitStart D.modules a =
      unitStop D.modules (a + header.length - 1) - unitStart D.modules a := by omega
  have hpage : (swapUnits D s.bytes a header).length =
      unitStop D.modules (a + header.length - 1) - unitStart D.modules a := by
    rw [swapUnits_eq _ _ hh, slice_length]
  unfold backupFirstElementHeader
  rw [Proc.failIf_bind_neg (by omega), Proc.bind_ok (Proc.orFail_ok (storageRead_ok hfits) _)]
  by_cases hsame : header ≠ slice s.bytes a header.length
  · rw [Proc.when_pos hsame, Proc.bind_ok (Proc.orFail_ok (unitLimits_ok hh hfits) _)]
    dsimp only
    rw [hsize, Proc.bind_ok (Proc.orFail_ok (storageRead_ok (by omega)) _),
      page_eq s.bytes hh rfl]
    obtain ⟨v, hv, hreach⟩ := storageStore_reaches (s := s) hD (a := unitStart D.modules a)
      (d := swapUnits D s.bytes a header) (by omega)
    have hstored : Confined e s₀ (storageStore (unitStart D.modules a)
        (swapUnits D s.bytes a header) s).2 := by
      rw [hv]
      apply hs.setDev
      intro x hx
      have hout := (outside_of_not_owns hx).2
      unfold OutsideSwap at hout
      rw [← ha] at hout
      exact swapUnits_reaches hh hreach (by omega)
    exact Proc.bind_keeps (by rw [Proc.orFail_snd]; exact hstored) fun _ =>
      ((storageRead_keeps _ _ _).orFail _).bind fun _ => Keeps.failIf _ _ _
  · rw [Proc.when_neg hsame]
    exact hs

/-! ## Headers -/

theorem readFirstHeader_keeps (I : State D → Prop) (pid a : Nat) :
    Keeps I (readFirstHeader pid a) :=
  ((storageRead_keeps I _ _).orFail _).bind fun _ =>
    ((storageRead_keeps I _ _).orFail _).bind fun _ => Keeps.pure I _

theorem readFirstHeader_length (I : State D → Prop) (pid a : Nat) :
    Yields I (fun tmp => tmp.length = metadataSize + getElementHeaderLen pid)
      (readFirstHeader pid a) := by
  intro s hs
  refine ⟨readFirstHeader_keeps I pid a s hs, fun tmp htmp => ?_⟩
  obtain ⟨x, t, hx, h⟩ := Proc.bind_eq_ok.mp (Proc.eq_of_fst htmp)
  obtain ⟨y, u, hy, h⟩ := Proc.bind_eq_ok.mp h
  rw [Proc.orFail_eq_ok] at hx hy
  cases h
  rw [List.length_append, storageRead_length hx, storageRead_length hy]

theorem acceptFirstHeader_confined {tmp : List UInt8}
    (h : ∀ p : Partition, p.At e → (deserializeMetadata tmp).consistent e.pid p = true) :
    Keeps (Confined e s₀) (acceptFirstHeader (D := D) e.pid tmp) :=
  (modifyPartition_confined fun p hp => hp.accept (h p hp)).bind fun _ => Keeps.pure _ _

/-- Metadata that are consistent with one set of variables of the partition are
consistent with all. -/
theorem consistent_at {m : Metadata} {p q : Partition} (hp : p.At e) (hq : q.At e)
    (h : m.consistent e.pid p = true) : m.consistent e.pid q = true := by
  unfold Metadata.consistent at *
  rw [hp.pid_eq, hp.size_eq] at h
  rw [hq.pid_eq, hq.size_eq]
  cases hd : isDynamic e.pid with
  | true =>
    rw [hd] at h
    exact h
  | false =>
    rw [hd, hp.len_eq hd] at h
    rw [hq.len_eq hd]
    exact h

theorem restoreFirstHeader_confined (hD : D.FailsWithin) (he : e.Ok D) :
    Keeps (Confined e s₀) (restoreFirstHeader e.pid e.start) := by
  have hroom := he.room
  refine (readFirstHeader_length _ _ _).seq fun tmp htmp => ?_
  refine getPartition_confined.seq fun p hp => ?_
  refine (Keeps.failIf _ _ _).bind fun _ => ?_
  refine (Yields.failIf _ _).seq fun _ hcons => ?_
  refine ((storageStore_confined hD he (Nat.le_refl _) (by omega)).orFail _).bind fun _ => ?_
  refine ((storageRead_keeps _ _ _).orFail _).bind fun _ => ?_
  refine (Keeps.failIf _ _ _).bind fun _ => ?_
  exact acceptFirstHeader_confined fun q hq => consistent_at hp hq (by simpa using hcons)

theorem readElementHeader_confined (hD : D.FailsWithin) (he : e.Ok D) (a : Nat) :
    Keeps (Confined e s₀) (readElementHeader e.pid a) := by
  refine getPartition_confined.seq fun p hp => ?_
  split
  · rename_i ha
    rw [ha, hp.start_eq]
    refine (readFirstHeader_keeps _ _ _).bind fun tmp => ?_
    split
    · refine (Yields.failIf _ _).seq fun _ hcons => ?_
      exact acceptFirstHeader_confined fun q hq => consistent_at hp hq (by simpa using hcons)
    · exact restoreFirstHeader_confined hD he
  · exact ((storageRead_keeps _ _ _).orFail _).bind fun _ => Keeps.pure _ _

theorem getFirstAsNext_confined (hD : D.FailsWithin) (he : e.Ok D) (recordId : Nat) :
    Yields (Confined e s₀) (fun r => r.1 = e.start) (getFirstAsNext e.pid recordId) := by
  refine getPartition_confined.bind fun p hp => ?_
  refine (readElementHeader_confined hD he _).yields.bind fun h _ => ?_
  refine (Yields.failIf _ _).bind fun _ _ => ?_
  exact Yields.pure hp.start_eq

/-- The next header lies in the partition, behind the address it was searched from, or at
its start. -/
theorem getNextElementHeader_confined (hD : D.FailsWithin) (he : e.Ok D) (a recordId len : Nat) :
    Yields (Confined e s₀)
      (fun r => r.1 = e.start ∨ r.1 + getElementHeaderLen e.pid ≤ e.start + e.size)
      (getNextElementHeader e.pid a recordId len) := by
  refine getPartition_confined.bind fun p hp => ?_
  refine (readElementHeader_confined hD he _).yields.bind fun h _ => ?_
  refine getPartition_confined.bind fun p' _ => ?_
  split
  · rename_i hnext
    have hle := hnext.2
    rw [hp.start_eq, hp.size_eq] at hle
    exact Yields.pure (.inr (by dsimp only; omega))
  · intro s hs
    obtain ⟨hI, hfirst⟩ := getFirstAsNext_confined hD he recordId s hs
    exact ⟨hI, fun r hr => .inl (hfirst r hr)⟩

theorem getPreviousElementHeader_confined (hD : D.FailsWithin) (he : e.Ok D)
    (a recordId len : Nat) :
    Keeps (Confined e s₀) (getPreviousElementHeader e.pid a recordId len) := by
  refine getPartition_confined.seq fun p _ => ?_
  split
  · refine (Keeps.failIf _ _ _).bind fun _ => ?_
    refine (readElementHeader_confined hD he _).bind fun _ => ?_
    exact (Keeps.failIf _ _ _).bind fun _ => Keeps.pure _ _
  · refine (readElementHeader_confined hD he _).bind fun _ => ?_
    refine getPartition_confined.seq fun _ _ => ?_
    refine (readElementHeader_confined hD he _).bind fun _ => ?_
    exact (Keeps.failIf _ _ _).bind fun _ => Keeps.pure _ _

/-! ## Clearing and iterating -/

theorem clearPartition_confined (hD : D.FailsWithin) (he : e.Ok D) :
    Keeps (Confined e s₀) (clearPartition e.pid) := by
  have hroom := he.room
  have hblank := blankHeader_length e.pid
  refine getPartition_confined.seq fun p hp => ?_
  refine (readElementHeader_confined hD he _).attempt.bind fun found => ?_
  refine Keeps.bind (I := Confined e s₀) ?_ fun _ => ?_
  · split
    · exact Keeps.pure _ _
    · exact Keeps.pure _ _
    · exact Keeps.fail _ _
  refine ((backupFirstElementHeader_confined hD he hblank).orFail _).bind fun _ => ?_
  rw [hp.start_eq]
  refine ((storageStore_confined hD he (d := blankHeader e.pid) (Nat.le_refl _)
    (by omega)).orFail _).bind fun _ => ?_
  refine ((storageRead_keeps _ _ _).orFail _).bind fun _ => ?_
  refine (Keeps.failIf _ _ _).bind fun _ => ?_
  refine modifyPartition_confined fun q hq => ⟨?_, Nat.le_refl _⟩
  have hextent := hq.extent_eq
  unfold Partition.extent at *
  rw [← hq.start_eq]
  exact hextent

theorem iteratorInvalidate_confined :
    Keeps (Confined e s₀) (iteratorInvalidate (D := D) e.pid) := modifyIterator_confined _

theorem iteratorLost_confined {α : Type} :
    Keeps (Confined e s₀) (iteratorLost (D := D) (α := α) e.pid) :=
  iteratorInvalidate_confined.bind fun _ => Keeps.fail _ _

theorem iteratorCheckValidity_confined (hD : D.FailsWithin) (he : e.Ok D) :
    Keeps (Confined e s₀) (iteratorCheckValidity e.pid) := by
  refine (getIterator_keeps _).bind fun it => ?_
  refine (Keeps.failIf _ _ _).bind fun _ => ?_
  refine getPartition_confined.seq fun p _ => ?_
  refine (Keeps.when fun _ => iteratorLost_confined).bind fun _ => ?_
  refine (readElementHeader_confined hD he _).attempt.bind fun found => ?_
  split
  · exact iteratorLost_confined
  · exact Keeps.fail _ _
  · exact Keeps.when fun _ => iteratorLost_confined

theorem checkIteratorConflict_confined (hD : D.FailsWithin) (he : e.Ok D) (a len : Nat) :
    Keeps (Confined e s₀) (checkIteratorConflict e.pid a len) := by
  refine (iteratorCheckValidity_confined hD he).attempt.bind fun valid => ?_
  split
  · exact Keeps.pure _ _
  · exact Keeps.fail _ _
  · refine getPartition_confined.seq fun p _ => ?_
    refine (getIterator_keeps _).bind fun it => ?_
    refine ((unitLimits_keeps _ _ _).orFail _).bind fun limits => ?_
    exact Keeps.failIf _ _ _

theorem iteratorInit_confined (hD : D.FailsWithin) (he : e.Ok D) :
    Keeps (Confined e s₀) (iteratorInit e.pid) := by
  refine iteratorInvalidate_confined.bind fun _ => ?_
  refine getPartition_confined.seq fun p _ => ?_
  refine (Keeps.failIf _ _ _).bind fun _ => ?_
  refine (modifyIterator_confined _).bind fun _ => ?_
  refine (readElementHeader_confined hD he _).attempt.bind fun found => ?_
  split
  · exact Keeps.fail _ _
  · exact Keeps.fail _ _
  · exact modifyIterator_confined _

theorem iteratorNext_confined (hD : D.FailsWithin) (he : e.Ok D) :
    Keeps (Confined e s₀) (iteratorNext e.pid) := by
  refine (iteratorCheckValidity_confined hD he).bind fun _ => ?_
  refine (getIterator_keeps _).bind fun it => ?_
  refine (getNextElementHeader_confined hD he _ _ _).keeps.bind fun next => ?_
  refine getPartition_confined.seq fun p _ => ?_
  exact modifyIterator_confined _

theorem iteratorPrevious_confined (hD : D.FailsWithin) (he : e.Ok D) :
    Keeps (Confined e s₀) (iteratorPrevious e.pid) := by
  refine (iteratorCheckValidity_confined hD he).bind fun _ => ?_
  refine (getIterator_keeps _).bind fun it => ?_
  refine (getPreviousElementHeader_confined hD he _ _ _).bind fun previous => ?_
  refine getPartition_confined.seq fun p _ => ?_
  refine (Keeps.failIf _ _ _).bind fun _ => ?_
  exact modifyIterator_confined _

theorem iteratorReadElement_confined (hD : D.FailsWithin) (he : e.Ok D) :
    Keeps (Confined e s₀) (iteratorReadElement e.pid) := by
  refine (iteratorCheckValidity_confined hD he).bind fun _ => ?_
  refine getPartition_confined.seq fun p _ => ?_
  refine (getIterator_keeps _).bind fun it => ?_
  refine ((storageRead_keeps _ _ _).orFail _).bind fun data => ?_
  exact (Keeps.failIf _ _ _).bind fun _ => Keeps.pure _ _

/-! ## Storing -/

theorem clearStaleNext_confined (hD : D.FailsWithin) (he : e.Ok D) {pl : Placement}
    (hpl : e.start ≤ pl.address) (len : Nat) :
    Keeps (Confined e s₀) (clearStaleNext e.pid pl len) := by
  refine (getNextElementHeader_confined hD he _ _ _).attempt.seq fun ret hret => ?_
  split
  · rename_i next h
    refine Keeps.when fun hnext => (storageClear_confined hD he (by omega) ?_).orFail _
    rcases hret _ rfl with hfirst | hle
    · dsimp only at hfirst
      omega
    · exact hle
  · exact Keeps.pure _ _
  · exact Keeps.fail _ _

theorem backupIfFirstUnit_confined (hD : D.FailsWithin) (he : e.Ok D) (a len : Nat) :
    Keeps (Confined e s₀) (backupIfFirstUnit e.pid a len) := by
  refine ((unitLimits_keeps _ _ _).orFail _).bind fun limits => ?_
  refine getPartition_confined.seq fun p _ => ?_
  refine Keeps.when fun _ => (backupFirstElementHeader_confined hD he ?_).orFail _
  rw [List.length_append, serializeMetadata_length, serializeElementHeader_length]

theorem writeElement_confined (hD : D.FailsWithin) (he : e.Ok D) {p : Partition} (hp : p.At e)
    {a : Nat} {data : List UInt8} (ha : e.start ≤ a)
    (hstop : a + headerLenAt e.pid p a + data.length ≤ e.start + e.size) (h : ElementHeader) :
    Keeps (Confined e s₀) (writeElement e.pid a h data) := by
  refine getPartition_confined.seq fun q hq => ?_
  have hlen : headerLenAt e.pid q a = headerLenAt e.pid p a :=
    headerLenAt_congr e.pid (hq.start_eq.trans hp.start_eq.symm) a
  have htmp : (if a = q.firstElementAddress then
      serializeMetadata q.metadata ++ serializeElementHeader e.pid h
      else serializeElementHeader e.pid h).length = headerLenAt e.pid q a := by
    unfold headerLenAt
    split
    · rw [List.length_append, serializeMetadata_length, serializeElementHeader_length]
    · exact serializeElementHeader_length _ _
  refine ((storageStore_confined hD he ha (by rw [htmp]; omega)).orFail _).bind fun _ => ?_
  refine ((storageRead_keeps _ _ _).orFail _).bind fun _ => ?_
  refine (Keeps.failIf _ _ _).bind fun _ => ?_
  exact (storageStore_confined hD he (by omega) (by rw [hlen]; exact hstop)).orFail _

theorem Partition.At.placement_ge {p : Partition} (hp : p.At e) (len : Nat) :
    e.start ≤ (placement e.pid p len).address := by
  have hlatest := hp.latest_ge
  rw [← hp.start_eq] at hlatest ⊢
  unfold placement
  split
  · exact Nat.le_refl _
  · dsimp only
    split <;> omega

theorem storeElement_confined (hD : D.FailsWithin) (he : e.Ok D) (elementData : Nat → UInt8)
    (elementLen : Nat) :
    Keeps (Confined e s₀) (storeElement e.pid elementData elementLen) := by
  refine getPartition_confined.seq fun p hp => ?_
  refine (Yields.failIf _ _).seq fun _ hlen => ?_
  refine (Yields.failIf _ _).seq fun _ hroom => ?_
  obtain ⟨len, hl⟩ : ∃ len, len = if isDynamic e.pid = false ∧ elementLen = 0 then
    p.metadata.firstElementLen else elementLen := ⟨_, rfl⟩
  rw [← hl] at hroom ⊢
  rw [hp.start_eq, hp.size_eq] at hroom
  have hge := hp.placement_ge len
  refine ((checkIteratorConflict_confined hD he _ _).orFail _).bind fun _ => ?_
  refine (clearStaleNext_confined hD he hge _).bind fun _ => ?_
  have hstart : ∀ h, Keeps (Confined e s₀) (modifyPartition (D := D) e.pid fun q =>
      { q with metadata := newMetadata e.pid q len h, firstElementHeader := h }) := by
    intro h
    refine modifyPartition_confined fun q hq => ⟨?_, hq.latest_ge⟩
    have hstatic : isDynamic e.pid = false → len = e.elementLen := by
      intro hd
      have hplen := hp.len_eq hd
      rw [hl]
      split
      · exact hplen
      · rename_i hzero
        simp only [hd, true_and] at hlen hzero
        omega
    rw [← hq.extent_eq]
    unfold Partition.extent newMetadata
    dsimp only
    rw [hq.pid_eq]
    cases hd : isDynamic e.pid with
    | true => rfl
    | false => rw [hstatic hd, hq.len_eq hd]
  refine (Keeps.when fun _ => hstart _).bind fun _ => ?_
  refine (backupIfFirstUnit_confined hD he _ _).bind fun _ => ?_
  refine (writeElement_confined hD he hp hge (by rw [slice_length]; omega) _).bind fun _ => ?_
  exact modifyPartition_confined fun q hq => ⟨hq.extent_eq, hge⟩

end OpenBadge.Filesystem
