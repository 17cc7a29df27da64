import OpenBadge.Filesystem.Store

/-!
# What a store leaves in storage

The bytes after a successful store: the new element is there, with the metadata if it
is the first one; the swap entry holds the backup; everything in front of the element
and outside of the partition is as before.
-/

namespace OpenBadge.Filesystem

open OpenBadge.Lib OpenBadge.Storage

variable {D : Device} {pid : Nat} {p : Partition} {pl : Placement} {len : Nat}
  {data : List UInt8} {u w v : D.State}

/-- A place for a new element of length `len` inside the partition. -/
structure Fits (pid : Nat) (p : Partition) (pl : Placement) (len : Nat) : Prop where
  address : pl.address = p.firstElementAddress ∨
    p.firstElementAddress + metadataSize + getElementHeaderLen pid ≤ pl.address
  stop_le : stopOf pid p pl.address len ≤ p.firstElementAddress + p.metadata.partitionSize

theorem fits_of_accepted (hr : Ram D pid p) {elementLen : Nat} (h : Accepted pid p elementLen) :
    Fits pid p (storedAt pid p elementLen) (storedLen pid p elementLen) :=
  ⟨placement_address hr _, h.2⟩

theorem Fits.start_le (h : Fits pid p pl len) : p.firstElementAddress ≤ pl.address := by
  rcases h.address with h | h <;> omega

/-- Not a byte of the partition's entry in the swap page. -/
def OutsideSwap (pid x : Nat) : Prop :=
  x < getSwapPageAddressOfPartition pid ∨
    getSwapPageAddressOfPartition pid + metadataSize + getElementHeaderLen pid ≤ x

theorem Ram.outsideSwap (hr : Ram D pid p) {x : Nat} (hx : p.firstElementAddress ≤ x) :
    OutsideSwap pid x := by
  have hswap := hr.swap_le
  have hstart := hr.start_ge
  exact .inr (by omega)

theorem Wiped.before (h : Wiped D pid p pl len u w) {x : Nat}
    (hx : x < stopOf pid p pl.address len) : D.byte w x = D.byte u x := by
  rcases h with ⟨-, hc⟩ | ⟨-, rfl⟩
  · exact hc.changed.before x hx
  · rfl

theorem Wiped.behind (h : Wiped D pid p pl len u w) (hr : Ram D pid p) {x : Nat}
    (hx : p.firstElementAddress + p.metadata.partitionSize ≤ x) : D.byte w x = D.byte u x := by
  rcases h with ⟨hf, hc⟩ | ⟨-, rfl⟩
  · exact hc.changed.after _ (by rw [List.length_replicate]; have := hf.2; omega) hr.stop_unit x hx
  · rfl

theorem backup_bytes {b : D.State}
    (hb : (unitStart D.modules pl.address = p.firstElementAddress ∧
        BackedUp D (getSwapPageAddressOfPartition pid)
          ((p.renewed pid pl len data).firstBytes pid) w b) ∨
      (unitStart D.modules pl.address ≠ p.firstElementAddress ∧ b = w)) :
    D.byte b = if unitStart D.modules pl.address = p.firstElementAddress then
      overwrite (D.byte w) (getSwapPageAddressOfPartition pid)
        ((p.renewed pid pl len data).firstBytes pid) else D.byte w := by
  have hH := elementHeaderLen_bounds pid
  rcases hb with ⟨hfirst, hb⟩ | ⟨hfirst, rfl⟩
  · rw [if_pos hfirst, hb.bytes (by rw [firstBytes_length]; omega)]
  · rw [if_neg hfirst]

theorem backup_outside {b : D.State}
    (hb : D.byte b = if unitStart D.modules pl.address = p.firstElementAddress then
      overwrite (D.byte w) (getSwapPageAddressOfPartition pid)
        ((p.renewed pid pl len data).firstBytes pid) else D.byte w) {x : Nat}
    (hx : OutsideSwap pid x) : D.byte b x = D.byte w x := by
  rw [hb]
  split
  · rcases hx with hx | hx
    · rw [overwrite_of_lt _ _ hx]
    · rw [overwrite_of_ge _ _ (by rw [firstBytes_length]; omega)]
  · rfl

theorem Appended.outside (h : Appended D pid p pl len data w v) (hr : Ram D pid p)
    (hlen : data.length = len) (hfit : Fits pid p pl len) {x : Nat}
    (hx : x < pl.address ∨ p.firstElementAddress + p.metadata.partitionSize ≤ x)
    (hswap : OutsideSwap pid x) : D.byte v x = D.byte w x := by
  obtain ⟨b, y, hb, hy, hv⟩ := h
  have hstop := hfit.stop_le
  have hhl := headerBytes_length pid p pl len data
  unfold stopOf at hstop
  rw [← backup_outside (backup_bytes hb) hswap]
  rcases hx with hx | hx
  · rw [hv.changed.before x (by omega), hy.changed.before x hx]
  · rw [hv.changed.after _ (by omega) hr.stop_unit x hx,
      hy.changed.after _ (by omega) hr.stop_unit x hx]

theorem StoreRun.outside (h : StoreRun D pid p pl len data u w v) (hr : Ram D pid p)
    (hlen : data.length = len) (hfit : Fits pid p pl len) {x : Nat}
    (hx : x < pl.address ∨ p.firstElementAddress + p.metadata.partitionSize ≤ x)
    (hswap : OutsideSwap pid x) : D.byte v x = D.byte u x := by
  have hlt := lt_stopOf pid p pl.address len
  rw [h.appended.outside hr hlen hfit hx hswap]
  rcases hx with hx | hx
  · exact h.wiped.before (by omega)
  · exact h.wiped.behind hr hx

theorem Appended.header (h : Appended D pid p pl len data w v) :
    slice (D.byte v) pl.address (headerLenAt pid p pl.address) = headerBytes pid p pl len data := by
  obtain ⟨b, y, hb, hy, hv⟩ := h
  rw [hv.changed.slice_eq (Nat.le_refl _), ← headerBytes_length pid p pl len data,
    hy.changed.written]

theorem Appended.contents (h : Appended D pid p pl len data w v) :
    slice (D.byte v) (pl.address + headerLenAt pid p pl.address) data.length = data := by
  obtain ⟨b, y, hb, hy, hv⟩ := h
  exact hv.changed.written

/-- The swap entry after a store that starts in the first unit. -/
theorem Appended.swap (h : Appended D pid p pl len data w v) (hr : Ram D pid p)
    (hfit : Fits pid p pl len) (hfirst : unitStart D.modules pl.address = p.firstElementAddress) :
    firstBytes (D.byte v) pid (getSwapPageAddressOfPartition pid) =
      (p.renewed pid pl len data).firstBytes pid := by
  obtain ⟨b, y, hb, hy, hv⟩ := h
  have hswap := hr.swap_le
  have hstart := hr.start_ge
  have hle := hfit.start_le
  have hbytes := backup_bytes hb
  rw [if_pos hfirst] at hbytes
  unfold firstBytes
  rw [hv.changed.slice_eq (by omega), hy.changed.slice_eq (by omega), hbytes,
    ← firstBytes_length pid (p.renewed pid pl len data), slice_overwrite]

/-! ## The partition after the store -/

theorem newMetadata_fits (hr : Ram D pid p) (hlen : len < 2 ^ 16) (h : ElementHeader) :
    (newMetadata pid p len h).Fits := by
  have hD := size_lt D
  have hl := hr.latest
  have hle := hr.stop_le
  refine ⟨headerCrcOf_lt _, hr.pid_lt, ?_, hlen, ?_⟩
  · change p.metadata.partitionSize < 2 ^ 32
    omega
  · change (if _ then p.firstElementAddress else p.latestElementAddress) < 2 ^ 32
    split <;> omega

@[simp] theorem newMetadata_size (pid : Nat) (p : Partition) (len : Nat) (h : ElementHeader) :
    (newMetadata pid p len h).partitionSize = p.metadata.partitionSize := rfl

@[simp] theorem newMetadata_id (pid : Nat) (p : Partition) (len : Nat) (h : ElementHeader) :
    (newMetadata pid p len h).partitionId = pid := rfl

@[simp] theorem newMetadata_firstLen (pid : Nat) (p : Partition) (len : Nat) (h : ElementHeader) :
    (newMetadata pid p len h).firstElementLen = len := rfl

theorem newMetadata_last (pid : Nat) (p : Partition) (len : Nat) (h : ElementHeader) :
    (newMetadata pid p len h).lastElementAddress =
      if stopOf pid p p.firstElementAddress len ≥ p.latestElementAddress
      then p.firstElementAddress else p.latestElementAddress := by
  unfold stopOf headerLenAt
  rw [if_pos rfl, ← Nat.add_assoc]
  rfl

theorem renewed_size (pid : Nat) (p : Partition) (pl : Placement) (len : Nat)
    (data : List UInt8) :
    (p.renewed pid pl len data).metadata.partitionSize = p.metadata.partitionSize := by
  unfold Partition.renewed
  split <;> rfl

@[simp] theorem appended_first (pid : Nat) (p : Partition) (pl : Placement) (len : Nat)
    (data : List UInt8) :
    (p.appended pid pl len data).firstElementAddress = p.firstElementAddress :=
  renewed_first pid p pl len data

@[simp] theorem appended_size (pid : Nat) (p : Partition) (pl : Placement) (len : Nat)
    (data : List UInt8) :
    (p.appended pid pl len data).metadata.partitionSize = p.metadata.partitionSize :=
  renewed_size pid p pl len data

@[simp] theorem appended_latest (pid : Nat) (p : Partition) (pl : Placement) (len : Nat)
    (data : List UInt8) : (p.appended pid pl len data).latestElementAddress = pl.address := rfl

@[simp] theorem appended_recordId (pid : Nat) (p : Partition) (pl : Placement) (len : Nat)
    (data : List UInt8) : (p.appended pid pl len data).latestElementRecordId = pl.recordId := rfl

@[simp] theorem appended_len (pid : Nat) (p : Partition) (pl : Placement) (len : Nat)
    (data : List UInt8) : (p.appended pid pl len data).latestElementLen = len := rfl

@[simp] theorem appended_hasFirst (pid : Nat) (p : Partition) (pl : Placement) (len : Nat)
    (data : List UInt8) : (p.appended pid pl len data).hasFirstElement = true := rfl

theorem appended_metadata_start (h : pl.address = p.firstElementAddress) :
    (p.appended pid pl len data).metadata = newMetadata pid p len (newHeader pl data) := by
  unfold Partition.appended Partition.renewed
  rw [if_pos h]

theorem appended_metadata_next (h : pl.address ≠ p.firstElementAddress) :
    (p.appended pid pl len data).metadata = p.metadata := by
  unfold Partition.appended Partition.renewed
  rw [if_neg h]

theorem Ram.appended (hr : Ram D pid p) (hfit : Fits pid p pl len) (hlen : len < 2 ^ 16)
    (data : List UInt8) : Ram D pid (p.appended pid pl len data) := by
  have hlt := lt_stopOf pid p pl.address len
  have hle := hfit.stop_le
  refine ⟨hr.pid_lt, hr.index_lt, ?_, ?_, ?_, ?_, ?_, ?_, ?_, ?_, hlen, ?_⟩
  · by_cases h : pl.address = p.firstElementAddress
    · rw [appended_metadata_start h]
      rfl
    · rw [appended_metadata_next h]
      exact hr.id_eq
  · rw [appended_first]
    exact hr.start_ge
  · rw [appended_first]
    exact hr.start_unit
  · rw [appended_first, appended_size]
    exact hr.stop_unit
  · rw [appended_first, appended_size]
    exact hr.stop_le
  · rw [appended_size]
    exact hr.size_ge
  · by_cases h : pl.address = p.firstElementAddress
    · rw [appended_metadata_start h]
      exact hlen
    · rw [appended_metadata_next h]
      exact hr.firstLen_lt
  · rw [appended_first, appended_size, appended_latest]
    rcases hfit.address with h | h
    · exact .inl h
    · exact .inr ⟨h, by omega⟩
  · intro h
    rw [appended_hasFirst] at h
    cases h

/-- After a store the library's metadata are those at the start of the partition. -/
theorem StoreRun.current (h : StoreRun D pid p pl len data u w v) (hr : Ram D pid p)
    (hdata : data.length = len) (hlen : len < 2 ^ 16) (hfit : Fits pid p pl len)
    (hcur : pl.address ≠ p.firstElementAddress → Current (D.byte u) pid p) :
    Current (D.byte v) pid (p.appended pid pl len data) := by
  unfold Current
  rw [appended_first]
  by_cases hstart : pl.address = p.firstElementAddress
  · have hh := h.appended.header
    unfold headerBytes headerLenAt at hh
    rw [hstart, if_pos rfl, if_pos rfl] at hh
    change firstBytes (D.byte v) pid p.firstElementAddress = _ at hh
    have hf := newMetadata_fits hr hlen (newHeader pl data)
    rw [hh, appended_metadata_start hstart, deserializeMetadata_serialize hf]
    exact ⟨crcValid_newMetadata hf, rfl⟩
  · have hsame : firstBytes (D.byte v) pid p.firstElementAddress =
        firstBytes (D.byte u) pid p.firstElementAddress := by
      have haddr := hfit.address.resolve_left hstart
      refine slice_congr fun x hx hx' => h.outside hr hdata hfit (.inl (by omega)) ?_
      exact hr.outsideSwap hx
    rw [hsame, appended_metadata_next hstart]
    exact hcur hstart

end OpenBadge.Filesystem
