import OpenBadge.Filesystem.Effect

/-!
# Registering partitions

Registration places a partition at the next free address and looks for its latest
element. The places of a sequence of partitions depend on the registrations alone;
`latestFrom` is the element that the search ends at.
-/

namespace OpenBadge.Filesystem

open OpenBadge.Lib OpenBadge.Storage

variable {D : Device} {s t : State D} {pid : Nat}

/-! ## Searching the latest element -/

/-- The element that `filesystem_find_latest_element_address` ends at when it starts at
the element at `a`. -/
def latestFrom (m : Nat → UInt8) (pid : Nat) (p : Partition) :
    Nat → Nat → Nat → Nat → Nat × Nat × Nat
  | 0, a, recordId, len => (a, recordId, len)
  | fuel + 1, a, recordId, len =>
    if Follows m pid p a recordId len then
      latestFrom m pid p fuel (stopOf pid p a len)
        (headerOf m pid (stopOf pid p a len)).recordId
        (neighbourLen pid p len (headerOf m pid (stopOf pid p a len)).previousLenXorCurLen)
    else (a, recordId, len)

/-- Positions `(a, recordId, len)` that the search may pass: the header behind each can be
read. -/
structure Passable (s : State D) (pid : Nat) (Pos : Nat → Nat → Nat → Prop) : Prop where
  start_le : ∀ a recordId len, Pos a recordId len → (s.part pid).firstElementAddress ≤ a
  probe_fits : ∀ a recordId len, Pos a recordId len →
    stopOf pid (s.part pid) a len + getElementHeaderLen pid ≤ D.size
  step : ∀ a recordId len, Pos a recordId len → Follows s.bytes pid (s.part pid) a recordId len →
    Pos (stopOf pid (s.part pid) a len) (headerOf s.bytes pid (stopOf pid (s.part pid) a len)).recordId
      (neighbourLen pid (s.part pid) len
        (headerOf s.bytes pid (stopOf pid (s.part pid) a len)).previousLenXorCurLen)

theorem latestFrom_pos {Pos : Nat → Nat → Nat → Prop} (h : Passable s pid Pos) :
    ∀ (fuel a recordId len : Nat), Pos a recordId len →
      Pos (latestFrom s.bytes pid (s.part pid) fuel a recordId len).1
        (latestFrom s.bytes pid (s.part pid) fuel a recordId len).2.1
        (latestFrom s.bytes pid (s.part pid) fuel a recordId len).2.2
  | 0, _, _, _, hpos => hpos
  | fuel + 1, a, recordId, len, hpos => by
    unfold latestFrom
    split
    · rename_i hf
      exact latestFrom_pos h fuel _ _ _ (h.step a recordId len hpos hf)
    · exact hpos

theorem findLatestLoop_sync (hs : Sync s pid) {Pos : Nat → Nat → Nat → Prop}
    (hp : Passable s pid Pos) :
    ∀ (fuel a recordId len : Nat), Pos a recordId len →
      ∃ ret, findLatestLoop pid (s.part pid).metadata.firstElementLen fuel a recordId len
          (nextAt s pid a recordId len) s =
        (.ok ((latestFrom s.bytes pid (s.part pid) fuel a recordId len).1,
          (latestFrom s.bytes pid (s.part pid) fuel a recordId len).2.1,
          (latestFrom s.bytes pid (s.part pid) fuel a recordId len).2.2, ret), s) ∧
        (ret = .error .notFound ∨ ∃ x, ret = .ok x) := by
  intro fuel
  induction fuel with
  | zero =>
    intro a recordId len hpos
    refine ⟨_, rfl, ?_⟩
    unfold nextAt
    rw [if_pos (hp.probe_fits a recordId len hpos)]
    split
    · exact .inr ⟨_, rfl⟩
    · rcases firstAsNext_cases s.bytes pid (s.part pid) recordId with h | ⟨h, hn⟩
      · exact .inl h
      · exact .inr ⟨_, hn⟩
  | succ fuel ih =>
    intro a recordId len hpos
    have hD := size_lt D
    have hprobe := hp.probe_fits a recordId len hpos
    have hlt := lt_stopOf pid (s.part pid) a len
    have hle := hp.start_le a recordId len hpos
    unfold nextAt latestFrom
    rw [if_pos hprobe]
    by_cases hf : Follows s.bytes pid (s.part pid) a recordId len
    · have hpos' := hp.step a recordId len hpos hf
      have hprobe' := hp.probe_fits _ _ _ hpos'
      rw [if_pos hf]
      simp only [if_pos hf]
      unfold findLatestLoop
      dsimp only
      rw [if_neg (by omega)]
      obtain ⟨ret, hret, hcode⟩ := ih _ (headerOf s.bytes pid
        (stopOf pid (s.part pid) a len)).recordId _ hpos'
      refine ⟨ret, ?_, hcode⟩
      rw [← hret]
      change (Proc.attempt (getNextElementHeader pid _ _ (neighbourLen pid (s.part pid) len _)) >>=
        _) s = _
      rw [Proc.attempt_bind_apply,
        getNextElementHeader_sync hs (hp.start_le _ _ _ hpos') (by omega)]
      rfl
    · rw [if_neg hf]
      simp only [if_neg hf]
      rcases firstAsNext_cases s.bytes pid (s.part pid) recordId with hn | ⟨h, hn⟩
      · rw [hn]
        exact ⟨_, rfl, .inl rfl⟩
      · rw [hn]
        unfold findLatestLoop
        dsimp only
        rw [if_pos hle]
        exact ⟨_, rfl, .inr ⟨_, rfl⟩⟩

theorem latestFrom_congr {p q : Partition} (m : Nat → UInt8)
    (hfirst : q.firstElementAddress = p.firstElementAddress) (hmeta : q.metadata = p.metadata) :
    ∀ fuel a recordId len, latestFrom m pid q fuel a recordId len =
      latestFrom m pid p fuel a recordId len := by
  cases p
  cases q
  cases hfirst
  cases hmeta
  intro fuel
  induction fuel with
  | zero => intros; rfl
  | succ fuel ih =>
    intro a recordId len
    exact if_congr Iff.rfl (ih _ _ _) rfl

/-- The search from the start of the partition. -/
def latestOf (m : Nat → UInt8) (pid : Nat) (p : Partition) : Nat × Nat × Nat :=
  latestFrom m pid p (p.metadata.partitionSize + 1) p.firstElementAddress
    (headerOf m pid (p.firstElementAddress + metadataSize)).recordId p.metadata.firstElementLen

/-- The partition with the latest element that the search found. -/
def Partition.located (m : Nat → UInt8) (pid : Nat) (p : Partition) : Partition :=
  { p with
    latestElementAddress := (latestOf m pid p).1
    latestElementRecordId := (latestOf m pid p).2.1
    latestElementLen := (latestOf m pid p).2.2 }

theorem findLatestElementAddress_sync (hs : Sync s pid)
    (hcur : Current s.bytes pid (s.part pid)) {Pos : Nat → Nat → Nat → Prop}
    (hp : Passable s pid Pos)
    (hpos : Pos (s.part pid).firstElementAddress
      (headerOf s.bytes pid ((s.part pid).firstElementAddress + metadataSize)).recordId
      (s.part pid).metadata.firstElementLen) :
    findLatestElementAddress pid s =
      (.ok (), s.setPart pid ((s.part pid).located s.bytes pid)) := by
  have hD := size_lt D
  have hprobe := hp.probe_fits _ _ _ hpos
  obtain ⟨q, hq⟩ : ∃ q, q = { s.part pid with
    latestElementAddress := (s.part pid).firstElementAddress } := ⟨_, rfl⟩
  have hpart := setPart_part s pid q
  have hs' : Sync (s.setPart pid q) pid := by
    refine ⟨?_, hs.swap_fits, .inl ?_⟩
    · rw [hpart, hq]
      exact hs.start_fits
    · rw [hpart, hq]
      exact hcur
  have hp' : Passable (s.setPart pid q) pid Pos := by
    refine ⟨?_, ?_, ?_⟩
    · rw [hpart, hq]
      exact hp.start_le
    · rw [hpart, hq]
      exact hp.probe_fits
    · rw [hpart, hq]
      exact hp.step
  have hmodify : modifyPartition pid (fun r => { r with
      latestElementAddress := (s.part pid).firstElementAddress }) s =
      (.ok (), s.setPart pid q) := by
    rw [hq]
    rfl
  have hfirst : q.firstElementAddress = (s.part pid).firstElementAddress := by rw [hq]
  have hmeta : q.metadata = (s.part pid).metadata := by rw [hq]
  have hread := readElementHeader_first hs'
  rw [hpart, hfirst, firstHeaderAt_current (by rw [hq]; exact hcur), hfirst] at hread
  have hnext : ∀ recordId, getNextElementHeader pid (s.part pid).firstElementAddress recordId
      (s.part pid).metadata.firstElementLen (s.setPart pid q) =
        (nextAt (s.setPart pid q) pid (s.part pid).firstElementAddress recordId
          (s.part pid).metadata.firstElementLen, s.setPart pid q) := by
    intro recordId
    apply getNextElementHeader_sync hs'
    · exact Nat.le_of_eq (by rw [hpart, hfirst])
    · rw [hpart]
      unfold stopOf at hprobe ⊢
      rw [headerLenAt_congr pid hfirst]
      omega
  obtain ⟨ret, hret, hcode⟩ := findLatestLoop_sync hs' hp'
    ((s.part pid).metadata.partitionSize + 1) (s.part pid).firstElementAddress
    (headerOf s.bytes pid ((s.part pid).firstElementAddress + metadataSize)).recordId
    (s.part pid).metadata.firstElementLen hpos
  rw [hpart, hmeta, latestFrom_congr _ hfirst hmeta] at hret
  unfold findLatestElementAddress
  rw [getPartition_bind, Proc.bind_ok hmodify, Proc.bind_ok hread, Proc.attempt_bind_apply]
  dsimp only [setPart_bytes] at *
  rw [hnext, Proc.bind_ok hret]
  have hdone : modifyPartition pid (fun r => { r with
      latestElementAddress := (latestOf s.bytes pid (s.part pid)).1
      latestElementRecordId := (latestOf s.bytes pid (s.part pid)).2.1
      latestElementLen := (latestOf s.bytes pid (s.part pid)).2.2 }) (s.setPart pid q) =
      (.ok (), s.setPart pid ((s.part pid).located s.bytes pid)) := by
    rw [modifyPartition_apply, hpart, setPart_setPart, hq]
    rfl
  refine (Proc.bind_ok hdone _).trans ?_
  rcases hcode with rfl | ⟨x, rfl⟩
  · rfl
  · rfl

/-! ## Places of partitions -/

/-- Where a partition lies, and the element length it was registered with. -/
structure Extent where
  pid : Nat
  start : Nat
  size : Nat
  elementLen : Nat
  deriving DecidableEq, Repr

/-- The size of a partition at `start`: whole units. -/
def availableSize (D : Device) (start requiredSize : Nat) : Nat :=
  unitStop D.modules (start + min (D.size - start) requiredSize - 1) - start

def extentOf (D : Device) (index start : Nat) (r : Registration) : Extent :=
  { pid := partitionIdOf index r.dynamic r.crc
    start := start
    size := availableSize D start r.requiredSize
    elementLen := if r.dynamic then 0 else r.elementLen }

/-- The registration is accepted at this index and address. -/
structure Registrable (D : Device) (index start : Nat) (r : Registration) : Prop where
  index_lt : index < maxNumberOfPartitions
  len_ok : ¬ (r.dynamic = false ∧ r.elementLen = 0)
  start_lt : start < D.size
  size_ne : r.requiredSize ≠ 0
  start_unit : unitStart D.modules start = start
  room : metadataSize + getElementHeaderLen (extentOf D index start r).pid +
    (extentOf D index start r).elementLen ≤ (extentOf D index start r).size

theorem computeAvailableSize_ok {start requiredSize : Nat} (hstart : start < D.size)
    (hsize : requiredSize ≠ 0) (hunit : unitStart D.modules start = start) :
    computeAvailableSize start requiredSize s = (.ok (availableSize D start requiredSize), s) := by
  have hlt := lt_unitStop D.modules (start + min (D.size - start) requiredSize - 1)
  unfold computeAvailableSize availableSize
  rw [Proc.failIf_bind_neg (by omega),
    Proc.bind_ok (Proc.orFail_ok (unitLimits_ok (by omega) (by omega)) _)]
  dsimp only
  rw [Proc.failIf_bind_neg (not_not_intro hunit.symm), hunit, Proc.pure_apply,
    show unitStop D.modules (start + min (D.size - start) requiredSize - 1) - 1 - start + 1 =
      unitStop D.modules (start + min (D.size - start) requiredSize - 1) - start by omega]

theorem computeAvailableSize_eq_ok {start requiredSize a : Nat}
    (h : computeAvailableSize start requiredSize s = (.ok a, t)) :
    start < D.size ∧ requiredSize ≠ 0 ∧ unitStart D.modules start = start := by
  unfold computeAvailableSize at h
  by_cases hparam : start ≥ D.size ∨ requiredSize = 0
  · rw [Proc.failIf_bind_pos hparam] at h
    cases h
  · rw [Proc.failIf_bind_neg hparam,
      Proc.bind_ok (Proc.orFail_ok (unitLimits_ok (by omega) (by omega)) _)] at h
    dsimp only at h
    by_cases hunit : start ≠ unitStart D.modules start
    · rw [Proc.failIf_bind_pos hunit] at h
      cases h
    · exact ⟨by omega, by omega, (not_not.mp hunit).symm⟩

theorem computeAvailableSize_keeps (I : State D → Prop) (start requiredSize : Nat) :
    Proc.Keeps I (computeAvailableSize start requiredSize) :=
  (Proc.Keeps.failIf I _ _).bind fun _ => ((unitLimits_keeps I _ _).orFail _).bind fun _ =>
    (Proc.Keeps.failIf I _ _).bind fun _ => Proc.Keeps.pure I _

/-- The members that registration assigns. -/
def Partition.registered (e : Extent) (p : Partition) : Partition :=
  { p with
    hasFirstElement := false
    firstElementAddress := e.start
    latestElementAddress := e.start
    latestElementRecordId := 1
    latestElementLen := 0
    metadata := { p.metadata with
      partitionId := e.pid
      partitionSize := e.size
      firstElementLen := e.elementLen
      lastElementAddress := e.start } }

def State.advance (s : State D) (e : Extent) : State D :=
  { s with
    nextFreeAddress := e.start + e.size
    numberOfPartitions := s.numberOfPartitions + 1 }

/-- `registerPartition` behind its checks. -/
def registerFound (e : Extent) : Fs D Nat := do
  let found ← Proc.attempt (readElementHeader e.pid e.start)
  match found with
  | .ok _ => do
    findLatestElementAddress e.pid
    modifyPartition e.pid fun p => { p with hasFirstElement := true }
    Proc.modify fun s => s.advance e
    pure e.pid
  | .error .notFound => do
    modifyPartition e.pid fun p => { p with hasFirstElement := false }
    Proc.modify fun s => s.advance e
    pure e.pid
  | .error _ => Proc.fail .internal

theorem registerPartition_eq {r : Registration}
    (h : Registrable D s.numberOfPartitions s.nextFreeAddress r) {e : Extent}
    (he : e = extentOf D s.numberOfPartitions s.nextFreeAddress r) :
    registerPartition r s =
      registerFound e (s.setPart e.pid ((s.part e.pid).registered e)) := by
  subst he
  have hroom := h.room
  dsimp only [extentOf] at hroom
  unfold registerPartition
  rw [Proc.get_bind_apply, Proc.failIf_bind_neg (Nat.not_le.mpr h.index_lt),
    Proc.failIf_bind_neg h.len_ok]
  dsimp only
  rw [Proc.bind_ok (Proc.orFail_ok
    (computeAvailableSize_ok h.start_lt h.size_ne h.start_unit) _), modifyPartition]
  rw [Proc.modify_bind_apply, Proc.failIf_bind_neg (Nat.not_lt.mpr hroom)]
  rfl

theorem registrable_of_ok {r : Registration} {a : Nat}
    (h : registerPartition r s = (.ok a, t)) :
    Registrable D s.numberOfPartitions s.nextFreeAddress r := by
  unfold registerPartition at h
  rw [Proc.get_bind_apply] at h
  obtain ⟨_, _, hfull, h⟩ := Proc.bind_eq_ok.mp h
  obtain ⟨hindex, rfl⟩ := Proc.failIf_eq_ok.mp hfull
  obtain ⟨_, _, hempty, h⟩ := Proc.bind_eq_ok.mp h
  obtain ⟨hlen, rfl⟩ := Proc.failIf_eq_ok.mp hempty
  obtain ⟨a, _, havail, h⟩ := Proc.bind_eq_ok.mp h
  have hsize := Proc.orFail_eq_ok.mp havail
  obtain ⟨hstart, hne, hunit⟩ := computeAvailableSize_eq_ok hsize
  rw [computeAvailableSize_ok hstart hne hunit] at hsize
  cases hsize
  obtain ⟨_, _, hmodify, h⟩ := Proc.bind_eq_ok.mp h
  obtain ⟨_, _, hroom, h⟩ := Proc.bind_eq_ok.mp h
  exact ⟨Nat.not_le.mp hindex, hlen, hstart, hne, hunit,
    Nat.not_lt.mp (Proc.failIf_eq_ok.mp hroom).1⟩

/-- A partition without a first header is empty. -/
theorem registerFound_empty {e : Extent} (hs : Sync s e.pid)
    (hstart : (s.part e.pid).firstElementAddress = e.start)
    (hsilent : Silent s.bytes e.pid (s.part e.pid)) :
    registerFound e s =
      (.ok e.pid, (s.setPart e.pid { s.part e.pid with hasFirstElement := false }).advance e) := by
  have hread := readElementHeader_first hs
  rw [firstHeaderAt_silent hsilent, hstart] at hread
  unfold registerFound
  rw [Proc.attempt_bind_apply, hread]
  rfl

/-- Reading a first header that passes the checks takes over its metadata. -/
theorem readElementHeader_accept
    (hfits : (s.part pid).firstElementAddress + metadataSize + getElementHeaderLen pid ≤ D.size)
    (hcrc : CrcValid (firstBytes s.bytes pid (s.part pid).firstElementAddress))
    (hcons : (deserializeMetadata (firstBytes s.bytes pid
      (s.part pid).firstElementAddress)).consistent pid (s.part pid) = true) :
    readElementHeader pid (s.part pid).firstElementAddress s =
      (.ok (headerOf s.bytes pid ((s.part pid).firstElementAddress + metadataSize)),
        s.setPart pid { s.part pid with
          metadata := deserializeMetadata (firstBytes s.bytes pid
            (s.part pid).firstElementAddress) }) := by
  unfold readElementHeader headerOf
  rw [getPartition_bind, if_pos rfl, Proc.bind_ok (readFirstHeader_ok hfits), if_pos hcrc,
    Proc.failIf_bind_neg (by rw [hcons]; decide), ← firstBytes_drop]
  rfl

/-- The partition found in storage, with `p` the members that registration assigned. -/
def Partition.found (m : Nat → UInt8) (pid : Nat) (p : Partition) : Partition :=
  { ({ p with
      metadata := deserializeMetadata (Filesystem.firstBytes m pid p.firstElementAddress) } :
        Partition).located m pid with
    hasFirstElement := true }

theorem registerFound_found {e : Extent}
    (hfits : e.start + metadataSize + getElementHeaderLen e.pid ≤ D.size)
    (hswap : getSwapPageAddressOfPartition e.pid + metadataSize + getElementHeaderLen e.pid ≤
      D.size)
    (hstart : (s.part e.pid).firstElementAddress = e.start)
    (hcrc : CrcValid (firstBytes s.bytes e.pid (s.part e.pid).firstElementAddress))
    (hcons : (deserializeMetadata (firstBytes s.bytes e.pid
      (s.part e.pid).firstElementAddress)).consistent e.pid (s.part e.pid) = true)
    {q : Partition} (hq : q = { s.part e.pid with
      metadata := deserializeMetadata (firstBytes s.bytes e.pid
        (s.part e.pid).firstElementAddress) })
    {Pos : Nat → Nat → Nat → Prop} (hp : Passable (s.setPart e.pid q) e.pid Pos)
    (hpos : Pos q.firstElementAddress
      (headerOf s.bytes e.pid (q.firstElementAddress + metadataSize)).recordId
      q.metadata.firstElementLen) :
    registerFound e s =
      (.ok e.pid, (s.setPart e.pid ((s.part e.pid).found s.bytes e.pid)).advance e) := by
  have hpart := setPart_part s e.pid q
  have hfirst : q.firstElementAddress = (s.part e.pid).firstElementAddress := by rw [hq]
  have hmeta : q.metadata = deserializeMetadata (firstBytes s.bytes e.pid
      (s.part e.pid).firstElementAddress) := by rw [hq]
  have hcur : Current s.bytes e.pid q := by
    unfold Current
    rw [hfirst, hmeta]
    exact ⟨hcrc, rfl⟩
  have hread := readElementHeader_accept (by rw [hstart]; exact hfits) hcrc hcons
  rw [hstart, ← hstart, ← hq, hstart] at hread
  have hlatest := findLatestElementAddress_sync (s := s.setPart e.pid q)
    ⟨by rw [hpart, hfirst, hstart]; exact hfits, hswap, .inl (by rw [hpart]; exact hcur)⟩
    (by rw [hpart]; exact hcur) hp (by rw [hpart]; exact hpos)
  rw [hpart, setPart_setPart] at hlatest
  unfold registerFound
  rw [Proc.attempt_bind_apply, hread]
  refine (Proc.bind_ok hlatest _).trans ?_
  rw [Proc.bind_ok (modifyPartition_apply _), setPart_part, setPart_setPart, hq]
  rfl

end OpenBadge.Filesystem
