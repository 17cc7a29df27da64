import OpenBadge.Filesystem.Layout

/-!
# Chains of elements

`Linked` is the chain of headers that the search for the latest element follows from
the start of a partition. A store extends the chain or starts a new one.
-/

namespace OpenBadge.Filesystem

open OpenBadge.Lib OpenBadge.Storage

variable {D : Device} {pid : Nat} {p : Partition} {m m' : Nat → UInt8}

/-- The element at `a` is reached from the first one in `n` steps. -/
inductive Linked (m : Nat → UInt8) (pid : Nat) (p : Partition) : Nat → Nat → Nat → Nat → Prop
  | first : Linked m pid p 0 p.firstElementAddress
      (headerOf m pid (p.firstElementAddress + metadataSize)).recordId p.metadata.firstElementLen
  | next {n a recordId len : Nat} : Linked m pid p n a recordId len →
      Follows m pid p a recordId len →
      Linked m pid p (n + 1) (stopOf pid p a len)
        (headerOf m pid (stopOf pid p a len)).recordId
        (neighbourLen pid p len (headerOf m pid (stopOf pid p a len)).previousLenXorCurLen)

theorem Linked.start_le {n a recordId len : Nat} (h : Linked m pid p n a recordId len) :
    p.firstElementAddress + n ≤ a := by
  induction h with
  | first => exact Nat.le_refl _
  | @next n a recordId len _ _ ih =>
    have hlt := lt_stopOf pid p a len
    omega

theorem Linked.steps_le {n a recordId len : Nat} (h : Linked m pid p n a recordId len) :
    n ≤ p.metadata.partitionSize := by
  cases h with
  | first => exact Nat.zero_le _
  | @next n a recordId len hl hf =>
    have hle := hl.start_le
    have hlt := lt_stopOf pid p a len
    have hfit := hf.2
    omega

theorem stopOf_next {a len : Nat} (h : a ≠ p.firstElementAddress) :
    stopOf pid p a len = a + getElementHeaderLen pid + len := by
  unfold stopOf headerLenAt
  rw [if_neg h]

/-- The elements of the chain end inside the partition. -/
theorem Linked.stop_le {n a recordId len : Nat} (h : Linked m pid p n a recordId len)
    (hfirst : stopOf pid p p.firstElementAddress p.metadata.firstElementLen ≤
      p.firstElementAddress + p.metadata.partitionSize) :
    stopOf pid p a len ≤ p.firstElementAddress + p.metadata.partitionSize := by
  cases h with
  | first => exact hfirst
  | @next n a recordId len hl hf =>
    have hle := hl.start_le
    have hlt := lt_stopOf pid p a len
    rw [stopOf_next (by omega)]
    exact hf.2

/-- The search from the first element passes every element of the chain. -/
theorem Linked.latestFrom_eq {n a recordId len : Nat} (h : Linked m pid p n a recordId len)
    (fuel : Nat) :
    latestFrom m pid p (fuel + n) p.firstElementAddress
        (headerOf m pid (p.firstElementAddress + metadataSize)).recordId
        p.metadata.firstElementLen =
      latestFrom m pid p fuel a recordId len := by
  induction h generalizing fuel with
  | first => rfl
  | @next n a recordId len _ hf ih =>
    rw [show fuel + (n + 1) = (fuel + 1) + n by omega, ih]
    exact if_pos hf

/-- The search ends at the element of the chain that nothing follows. -/
theorem Linked.latestOf_eq {n a recordId len : Nat} (h : Linked m pid p n a recordId len)
    (hstop : ¬ Follows m pid p a recordId len) : latestOf m pid p = (a, recordId, len) := by
  have hle := h.steps_le
  unfold latestOf
  rw [show p.metadata.partitionSize + 1 = (p.metadata.partitionSize - n + 1) + n by omega,
    h.latestFrom_eq]
  exact if_neg hstop

theorem Linked.congr {q : Partition} (hfirst : q.firstElementAddress = p.firstElementAddress)
    (hmeta : q.metadata = p.metadata) {n a recordId len : Nat}
    (h : Linked m pid p n a recordId len) : Linked m pid q n a recordId len := by
  cases p
  cases q
  cases hfirst
  cases hmeta
  induction h with
  | first => exact Linked.first
  | next _ hf ih => exact Linked.next ih hf

theorem stopOf_congr {q : Partition} (hfirst : q.firstElementAddress = p.firstElementAddress)
    (a len : Nat) : stopOf pid q a len = stopOf pid p a len := by
  unfold stopOf
  rw [headerLenAt_congr pid hfirst]

theorem neighbourLen_congr {q : Partition} (hmeta : q.metadata = p.metadata) (len xor : Nat) :
    neighbourLen pid q len xor = neighbourLen pid p len xor := by
  unfold neighbourLen
  rw [hmeta]

theorem follows_congr {q : Partition} (hfirst : q.firstElementAddress = p.firstElementAddress)
    (hmeta : q.metadata = p.metadata) {a recordId len : Nat} :
    Follows m pid q a recordId len ↔ Follows m pid p a recordId len := by
  cases p
  cases q
  cases hfirst
  cases hmeta
  exact Iff.rfl

theorem headerOf_congr {a : Nat}
    (h : ∀ x, a ≤ x → x < a + getElementHeaderLen pid → m' x = m x) :
    headerOf m' pid a = headerOf m pid a := by
  unfold headerOf
  rw [slice_congr h]

theorem Follows.congr {a recordId len : Nat}
    (h : ∀ x, stopOf pid p a len ≤ x →
      x < p.firstElementAddress + p.metadata.partitionSize → m' x = m x) :
    Follows m' pid p a recordId len ↔ Follows m pid p a recordId len := by
  by_cases hin : stopOf pid p a len + getElementHeaderLen pid ≤
      p.firstElementAddress + p.metadata.partitionSize
  · have hh : headerOf m' pid (stopOf pid p a len) = headerOf m pid (stopOf pid p a len) :=
      headerOf_congr fun x hx hx' => h x hx (by omega)
    unfold Follows
    rw [hh]
  · constructor
    · intro hf
      exact absurd hf.2 (by omega)
    · intro hf
      exact absurd hf.2 (by omega)

/-- The chain up to an element depends on the bytes up to its header. -/
theorem Linked.frame {n a recordId len : Nat} (h : Linked m pid p n a recordId len)
    (hm : ∀ x, p.firstElementAddress ≤ x → x < a + headerLenAt pid p a → m' x = m x) :
    Linked m' pid p n a recordId len := by
  induction h with
  | first =>
    unfold headerLenAt at hm
    rw [if_pos rfl] at hm
    have hh : headerOf m' pid (p.firstElementAddress + metadataSize) =
        headerOf m pid (p.firstElementAddress + metadataSize) :=
      headerOf_congr fun x hx hx' => hm x (by omega) (by omega)
    rw [← hh]
    exact Linked.first
  | @next n a recordId len hl hf ih =>
    have hlt := lt_stopOf pid p a len
    have hle := hl.start_le
    have hne : stopOf pid p a len ≠ p.firstElementAddress := by omega
    unfold headerLenAt at hm
    rw [if_neg hne] at hm
    have hh : headerOf m' pid (stopOf pid p a len) = headerOf m pid (stopOf pid p a len) :=
      headerOf_congr fun x hx hx' => hm x (by omega) (by omega)
    have ih' := ih fun x hx hx' => hm x hx (by unfold stopOf; omega)
    have hf' : Follows m' pid p a recordId len := by
      unfold Follows
      rw [hh]
      exact hf
    rw [← hh]
    exact Linked.next ih' hf'

/-! ## The chain after a store -/

/-- An element that the partition accepts. -/
structure Request (D : Device) (pid : Nat) (p : Partition) (len : Nat) (data : List UInt8) :
    Prop where
  ram : Ram D pid p
  len_lt : len < 2 ^ 16
  data_len : data.length = len
  fits : Fits pid p (placement pid p len) len
  static_len : isDynamic pid = false → len = p.metadata.firstElementLen

theorem request_of_accepted (hr : Ram D pid p) {elementLen : Nat} (hlen : elementLen < 2 ^ 16)
    (h : Accepted pid p elementLen) (elementData : Nat → UInt8) :
    Request D pid p (storedLen pid p elementLen) (storedData pid p elementData elementLen) := by
  refine ⟨hr, storedLen_lt hr hlen, slice_length _ _ _, fits_of_accepted hr h, fun hd => ?_⟩
  unfold storedLen
  by_cases h0 : elementLen = 0
  · rw [if_pos ⟨hd, h0⟩]
  · rw [if_neg (fun hc => h0 hc.2)]
    by_contra hne
    exact h.1 ⟨hd, h0, hne⟩

variable {len : Nat} {data : List UInt8} {u w v : D.State}

/-- The header of the new element, read back. -/
theorem Request.headerOf_eq (hq : Request D pid p len data)
    (h : Appended D pid p (placement pid p len) len data w v) :
    headerOf (D.byte v) pid
        (if (placement pid p len).address = p.firstElementAddress then
          p.firstElementAddress + metadataSize else (placement pid p len).address) =
      (newHeader (placement pid p len) data).kept pid := by
  have hh := h.header
  have hf := newHeader_fits hq.ram hq.len_lt data
  unfold headerLenAt headerBytes at hh
  unfold headerOf
  by_cases hstart : (placement pid p len).address = p.firstElementAddress
  · rw [if_pos hstart, if_pos hstart] at hh
    rw [if_pos hstart]
    obtain ⟨-, hheader⟩ := slice_eq_append hh
    rw [serializeElementHeader_length, serializeMetadata_length, hstart] at hheader
    rw [hheader, deserializeElementHeader_serialize hf]
  · rw [if_neg hstart, if_neg hstart] at hh
    rw [if_neg hstart, hh, deserializeElementHeader_serialize hf]

/-- The length of the new element, computed from the one in front of it. -/
theorem Request.neighbourLen_eq (hq : Request D pid p len data)
    (hf : p.hasFirstElement = true) {q : Partition}
    (hmeta : q.metadata.firstElementLen = p.metadata.firstElementLen) :
    neighbourLen pid q p.latestElementLen
      ((newHeader (placement pid p len) data).kept pid).previousLenXorCurLen = len := by
  have hxor : (placement pid p len).previousLenXorCurLen = p.latestElementLen ^^^ len := by
    unfold placement
    rw [if_neg (by rw [hf]; decide)]
  unfold neighbourLen
  cases hd : isDynamic pid with
  | true =>
    simp only [ElementHeader.kept, hd, if_true]
    change p.latestElementLen ^^^ (placement pid p len).previousLenXorCurLen = len
    rw [hxor, ← Nat.xor_assoc, Nat.xor_self, Nat.zero_xor]
  | false =>
    rw [hmeta]
    exact (hq.static_len hd).symm

theorem Request.linked (hq : Request D pid p len data)
    (h : StoreRun D pid p (placement pid p len) len data u w v)
    (hlink : p.hasFirstElement = true → ∃ n, Linked (D.byte u) pid p n p.latestElementAddress
      p.latestElementRecordId p.latestElementLen) :
    ∃ n, Linked (D.byte v) pid (p.appended pid (placement pid p len) len data) n
      (placement pid p len).address (placement pid p len).recordId len := by
  have hread := hq.headerOf_eq h.appended
  by_cases hstart : (placement pid p len).address = p.firstElementAddress
  · rw [if_pos hstart] at hread
    have hfirst : Linked (D.byte v) pid (p.appended pid (placement pid p len) len data) _ _ _ _ :=
      Linked.first
    rw [appended_first, appended_metadata_start hstart, hread] at hfirst
    rw [hstart]
    exact ⟨0, hfirst⟩
  · rw [if_neg hstart] at hread
    obtain ⟨hf, haddr, hfit⟩ := (placement_cases pid p len).resolve_left hstart
    obtain ⟨n, hn⟩ := hlink hf
    have hpl := placement_next hf hfit
    have hstop : stopOf pid (p.appended pid (placement pid p len) len data)
        p.latestElementAddress p.latestElementLen = (placement pid p len).address := by
      rw [haddr, stopOf_congr (appended_first _ _ _ _ _)]
      rfl
    have hframe : Linked (D.byte v) pid p n p.latestElementAddress p.latestElementRecordId
        p.latestElementLen := by
      refine hn.frame fun x hx hx' => h.outside hq.ram hq.data_len hq.fits (.inl ?_)
        (hq.ram.outsideSwap hx)
      rw [haddr]
      unfold latestStop stopOf
      omega
    have hn' := hframe.congr (q := p.appended pid (placement pid p len) len data)
      (appended_first _ _ _ _ _) (appended_metadata_next hstart)
    have hlen := hq.neighbourLen_eq hf
      (q := p.appended pid (placement pid p len) len data)
      (by rw [appended_metadata_next hstart])
    have hid : ((newHeader (placement pid p len) data).kept pid).recordId =
        (placement pid p len).recordId := rfl
    have hfollows : Follows (D.byte v) pid (p.appended pid (placement pid p len) len data)
        p.latestElementAddress p.latestElementRecordId p.latestElementLen := by
      unfold Follows
      rw [hstop, hread, hlen, hid, appended_first, appended_size]
      refine ⟨?_, ?_⟩
      · rw [hpl]
      · rw [haddr]
        exact hfit
    have hnext := Linked.next hn' hfollows
    rw [hstop, hread, hlen, hid] at hnext
    exact ⟨n + 1, hnext⟩

/-- A blank header carries no record identifier. -/
theorem headerOf_blank {a : Nat}
    (h : slice m a (getElementHeaderLen pid) = List.replicate (getElementHeaderLen pid) 0xFF) :
    (headerOf m pid a).recordId = 0xFFFF := by
  have hH := elementHeaderLen_bounds pid
  obtain ⟨k, hk⟩ : ∃ k, getElementHeaderLen pid = k + 2 := ⟨getElementHeaderLen pid - 2, by omega⟩
  unfold headerOf
  rw [h, hk]
  change ofBe16 ((List.replicate (k + 2) (0xFF : UInt8)).getD 0 0)
    ((List.replicate (k + 2) (0xFF : UInt8)).getD 1 0) = 0xFFFF
  simp [List.replicate_succ, ofBe16]

theorem increment_ne_blank (recordId : Nat) : incrementRecordId recordId ≠ 0xFFFF := by
  have h := isRecordId_increment recordId
  unfold IsRecordId at h
  omega

/-- Behind the new element the writes change nothing, if a unit begins there. -/
theorem Appended.behind (h : Appended D pid p (placement pid p len) len data w v)
    (hq : Request D pid p len data)
    (hunit : unitStart D.modules (stopOf pid p (placement pid p len).address len) =
      stopOf pid p (placement pid p len).address len) {x : Nat}
    (hx : stopOf pid p (placement pid p len).address len ≤ x) : D.byte v x = D.byte w x := by
  obtain ⟨b, y, hb, hy, hv⟩ := h
  have hhl := headerBytes_length pid p (placement pid p len) len data
  have hlen := hq.data_len
  have hstart := hq.fits.start_le
  have hlt := lt_stopOf pid p (placement pid p len).address len
  have hstop : stopOf pid p (placement pid p len).address len = (placement pid p len).address +
      headerLenAt pid p (placement pid p len).address + len := rfl
  rw [hv.changed.after _ (by omega) hunit x hx, hy.changed.after _ (by omega) hunit x hx,
    backup_outside (backup_bytes hb) (hq.ram.outsideSwap (by omega))]

theorem follows_appended {a recordId len' : Nat} {pl : Placement}
    (hstatic : isDynamic pid = false → len = p.metadata.firstElementLen) :
    Follows m pid (p.appended pid pl len data) a recordId len' ↔
      Follows m pid p a recordId len' := by
  have hlen : ∀ x, neighbourLen pid (p.appended pid pl len data) len' x =
      neighbourLen pid p len' x := by
    intro x
    unfold neighbourLen
    cases hd : isDynamic pid with
    | true => rfl
    | false =>
      by_cases hstart : pl.address = p.firstElementAddress
      · rw [appended_metadata_start hstart]
        exact hstatic hd
      · rw [appended_metadata_next hstart]
  have hstop : stopOf pid (p.appended pid pl len data) a len' = stopOf pid p a len' :=
    stopOf_congr (appended_first _ _ _ _ _) a len'
  unfold Follows
  rw [hstop, hlen, appended_first, appended_size]

/-- When the writes begin nothing follows the new element: a header with the next identifier
was cleared before. -/
theorem StoreRun.not_follows {pl : Placement} (h : StoreRun D pid p pl len data u w v) :
    ¬ Follows (D.byte w) pid p pl.address pl.recordId len := by
  intro hw
  rcases h.wiped with ⟨-, hcleared⟩ | ⟨hnot, rfl⟩
  · have hblank := hcleared.changed.written
    rw [List.length_replicate] at hblank
    have hid := hw.1
    rw [headerOf_blank hblank] at hid
    exact increment_ne_blank _ hid.symm
  · exact hnot hw

/-- In byte units the writes keep it so. -/
theorem Request.not_follows (hD : D.ByteUnits) (hq : Request D pid p len data)
    (h : StoreRun D pid p (placement pid p len) len data u w v) :
    ¬ Follows (D.byte v) pid (p.appended pid (placement pid p len) len data)
      (placement pid p len).address (placement pid p len).recordId len := by
  rw [follows_appended hq.static_len]
  intro hf
  have hkept : ∀ x, stopOf pid p (placement pid p len).address len ≤ x →
      D.byte v x = D.byte w x :=
    fun x hx => h.appended.behind hq (unitStart_of_bytes hD) hx
  exact h.not_follows ((Follows.congr fun x hx _ => hkept x hx).mp hf)

end OpenBadge.Filesystem
