import OpenBadge.Filesystem.Back
import OpenBadge.Filesystem.Persist

/-!
# A partition for one element

A static partition that was registered for a single element ends with the unit that this
element ends in. Whatever a store leaves of the bytes behind its element is left as a whole
there, so that a restart finds the newest element in storage with any units.
-/

namespace OpenBadge.Filesystem

open OpenBadge.Lib OpenBadge.Storage

variable {D : Device} {s t : State D} {e : Extent} {p : Partition} {len : Nat} {data : List UInt8}
  {u w v : D.State}

/-! ## The bytes behind a store -/

theorem unitStop_of_mem {ms : List StorageModule} {a b : Nat} (h : a ≤ b)
    (hb : b < unitStop ms a) : unitStop ms b = unitStop ms a :=
  Nat.le_antisymm (unitStop_le_of_lt (unitStart_unitStop ms a) hb)
    (unitStop_le_of_lt (unitStart_unitStop ms b) (Nat.lt_of_le_of_lt h (lt_unitStop ms b)))

/-- From `lo` to `hi` all bytes are kept, or all are blank. -/
def Whole (lo hi : Nat) (m m' : Nat → UInt8) : Prop :=
  (∀ x, lo ≤ x → x < hi → m' x = m x) ∨ ∀ x, lo ≤ x → x < hi → m' x = 0xFF

theorem Whole.trans {lo hi : Nat} {m m' m'' : Nat → UInt8} (h : Whole lo hi m m')
    (h' : Whole lo hi m' m'') : Whole lo hi m m'' := by
  rcases h' with hkept' | hblank'
  · rcases h with hkept | hblank
    · exact .inl fun x hx hx' => (hkept' x hx hx').trans (hkept x hx hx')
    · exact .inr fun x hx hx' => (hkept' x hx hx').trans (hblank x hx hx')
  · exact .inr hblank'

/-- A write in front of the last bytes of a unit. -/
theorem Wrote.whole (hD : D.AllOrNothing) {a lo hi : Nat} {d : List UInt8} (h : Wrote D a d u v)
    (hlo : a + d.length ≤ lo) (hhi : unitStop D.modules (lo - 1) = hi) :
    Whole lo hi (D.byte u) (D.byte v) := by
  rcases h.call with ⟨rfl, rfl⟩ | ⟨hd, hcall⟩
  · exact .inl fun _ _ _ => rfl
  · have hpos := List.length_pos_iff.mpr hd
    have hspec := D.store_spec a d u v hpos h.fits hcall
    rcases hD.1 a d u v hpos h.fits hcall with hkept | hblank
    · exact .inl fun x hx _ => hkept x (by omega)
    · by_cases hin : lo - 1 < unitStop D.modules (a + d.length - 1)
      · rw [unitStop_of_mem (by omega) hin] at hhi
        exact .inr fun x hx hx' => hblank x (by omega) (by omega)
      · exact .inl fun x hx _ => hspec.after x (by omega)

/-- The unit that the first element ends in is the last one of the partition. -/
def Extent.Single (D : Device) (e : Extent) : Prop :=
  unitStop D.modules (e.stopOf e.start e.elementLen - 1) = e.start + e.size

theorem Extent.Single.stop {stop : Nat} (h : e.Single D)
    (hge : e.stopOf e.start e.elementLen ≤ stop) (hle : stop ≤ e.start + e.size) :
    unitStop D.modules (stop - 1) = e.start + e.size := by
  have hgt := stopOf_gt e e.start e.elementLen
  unfold Extent.Single at h
  rw [← h]
  exact unitStop_of_mem (by omega) (by omega)

theorem extentOf_single {index start : Nat} {r : Registration} (h : Registrable D index start r)
    (hstart : swapPageSize ≤ start) (hstatic : r.dynamic = false)
    (hsize : r.requiredSize = metadataSize +
      getElementHeaderLen (extentOf D index start r).pid + r.elementLen) :
    (extentOf D index start r).Single D := by
  have hne := h.size_ne
  have hroom := h.room
  have hstop := (extentOf_ok h hstart).stop_le
  have hlen : (extentOf D index start r).elementLen = r.elementLen := by
    unfold extentOf
    rw [hstatic]
    rfl
  have hlt := lt_unitStop D.modules (start + r.requiredSize - 1)
  have hfirst : (extentOf D index start r).start = start := rfl
  rw [hlen] at hroom
  rw [hfirst] at hstop
  rw [Extent.Single, extent_stopOf_start, hlen, hfirst]
  have hmin : min (D.size - start) r.requiredSize = r.requiredSize := by omega
  have havail : (extentOf D index start r).size =
      unitStop D.modules (start + r.requiredSize - 1) - start := by
    change availableSize D start r.requiredSize = _
    rw [availableSize, hmin]
  rw [havail]
  have hend : start + metadataSize + getElementHeaderLen (extentOf D index start r).pid +
      r.elementLen = start + r.requiredSize := by omega
  rw [hend]
  omega

/-- Nothing follows the new element in a partition for one. -/
theorem Request.not_follows_single (hD : D.AllOrNothing) (he : e.Single D)
    (hd : isDynamic e.pid = false) (hk : Known D (D.byte u) e p) (hq : Request D e.pid p len data)
    (h : StoreRun D e.pid p (placement e.pid p len) len data u w v) :
    ¬ Follows (D.byte v) e.pid (p.appended e.pid (placement e.pid p len) len data)
      (placement e.pid p len).address (placement e.pid p len).recordId len := by
  rw [follows_appended hq.static_len]
  intro hf
  have hH := elementHeaderLen_bounds e.pid
  have hlen : len = e.elementLen := by rw [hq.static_len hd, hk.len_eq hd]
  have haddr := hq.fits.address
  have hstop := hq.fits.stop_le
  have hstopOf := stopOf_extent hk.start_eq (placement e.pid p len).address len
  rw [hk.start_eq] at haddr
  rw [hk.start_eq, hk.size_eq] at hstop
  have hge : e.stopOf e.start e.elementLen ≤
      stopOf e.pid p (placement e.pid p len).address len := by
    rw [hstopOf]
    rcases haddr with ha | ha
    · exact Nat.le_of_eq (by rw [ha, hlen])
    · rw [extent_stopOf_start, extent_stopOf_next (by omega)]
      omega
  have hunit := he.stop hge hstop
  obtain ⟨b, y, hb, hy, hv⟩ := h.appended
  have hhl := headerBytes_length e.pid p (placement e.pid p len) len data
  have hdata := hq.data_len
  have hstart := hq.fits.start_le
  have hlt := lt_stopOf e.pid p (placement e.pid p len).address len
  have hdef : stopOf e.pid p (placement e.pid p len).address len =
    (placement e.pid p len).address + headerLenAt e.pid p (placement e.pid p len).address + len := rfl
  have hbackup : Whole (stopOf e.pid p (placement e.pid p len).address len) (e.start + e.size)
      (D.byte w) (D.byte b) :=
    .inl fun x hx _ => backup_outside (backup_bytes hb) (hq.ram.outsideSwap (by omega))
  have hwhole := (hbackup.trans (hy.whole hD (by omega) hunit)).trans
    (hv.whole hD (by omega) hunit)
  have hfit := hf.2
  rw [hk.start_eq, hk.size_eq] at hfit
  rcases hwhole with hkept | hblank
  · refine h.not_follows ((Follows.congr fun x hx hx' => hkept x hx ?_).mp hf)
    rw [hk.start_eq, hk.size_eq] at hx'
    exact hx'
  · have hid := hf.1
    rw [headerOf_recordId, hblank _ (Nat.le_refl _) (by omega), hblank _ (by omega) (by omega)]
      at hid
    exact increment_ne_blank _ hid.symm

/-! ## Clearing on a reliable device -/

/-- On a reliable device a partition can always be cleared. -/
theorem clearPartition_ok_of_reliable (hD : D.Reliable) {pid : Nat} (hr : Ram D pid (s.part pid))
    (hs : Sync s pid) : ∃ t, clearPartition pid s = (.ok (), t) := by
  have hsize := size_lt D
  have hH := elementHeaderLen_bounds pid
  have hswap := hr.swap_le
  have hstart := hr.start_ge
  have hlen := blankHeader_length pid
  have hfits := hs.start_fits
  obtain ⟨b, hb⟩ := backedUp_of_reliable hD (a := getSwapPageAddressOfPartition pid)
    (blankHeader pid) (by omega) (by omega) s.dev
  obtain ⟨v, hv⟩ := wrote_of_reliable hD (a := (s.part pid).firstElementAddress)
    (d := blankHeader pid) b (by omega)
  have hbackup := (backupFirstElementHeader_eq_ok (s := s) (t := s.setDev b) (blankHeader pid)
    (by omega) (by omega) (by omega)).mpr ⟨b, hb, rfl⟩
  have hstore := (storageStore_eq_ok (s := s.setDev b) (t := (s.setDev b).setDev v)
    (a := (s.part pid).firstElementAddress) (d := blankHeader pid) (by omega)).mpr ⟨v, hv, rfl⟩
  have hback := readBack_ok (s := s.setDev b) hv hlen.symm
  unfold blankHeader at hbackup hstore hback
  unfold clearPartition
  rw [getPartition_bind, Proc.attempt_bind_apply, readElementHeader_first hs]
  -- either way the same writes follow, with another record identifier
  rcases hs.known with hc | hc
  · rw [firstHeaderAt_current hc]
    dsimp only
    rw [Proc.pure_bind_apply, Proc.bind_ok (Proc.orFail_ok hbackup _),
      Proc.bind_ok (Proc.orFail_ok hstore _), ← Proc.bind_assoc, Proc.bind_ok hback]
    exact ⟨_, rfl⟩
  · rw [firstHeaderAt_silent hc]
    dsimp only
    rw [Proc.pure_bind_apply, Proc.bind_ok (Proc.orFail_ok hbackup _),
      Proc.bind_ok (Proc.orFail_ok hstore _), ← Proc.bind_assoc, Proc.bind_ok hback]
    exact ⟨_, rfl⟩

/-! ## The newest element -/

/-- The partition at `e` is sound, and the newest element in it, if any, has these data. -/
inductive Newest (D : Device) (m : Nat → UInt8) (e : Extent) (p : Partition) :
    Option (List UInt8) → Prop
  | empty : Sound D m e p → p.hasFirstElement = false → Newest D m e p none
  | stored {data : List UInt8} {link recordId : Nat} : Sound D m e p → p.hasFirstElement = true →
      p.latestElementLen = data.length → Stands m e p.latestElementAddress link (data, recordId) →
      Newest D m e p (some data)

variable {newest : Option (List UInt8)}

theorem Newest.sound {m : Nat → UInt8} (h : Newest D m e p newest) : Sound D m e p := by
  cases h with
  | empty hs => exact hs
  | stored hs => exact hs

theorem Newest.store (hD : D.AllOrNothing) (he : e.Single D) (hd : isDynamic e.pid = false)
    (h : Newest D s.bytes e (s.part e.pid) newest) {elementData : Nat → UInt8} {elementLen : Nat}
    (hlen : elementLen < 2 ^ 16)
    (hstore : storeElement e.pid elementData elementLen s = (.ok (), t)) :
    Newest D t.bytes e (t.part e.pid)
      (some (storedData e.pid (s.part e.pid) elementData elementLen)) ∧ Local e s t := by
  have hk := h.sound.known
  obtain ⟨hsound, hlocal⟩ := h.sound.store_ends hlen hstore fun hq hrun =>
    hq.not_follows_single hD he hd hk hrun
  obtain ⟨len, data, w, -, rfl, hq, hrun, hpart, -, -⟩ := hk.store hlen hstore
  have hstands := hq.stands hk.start_eq hk.size_eq hk.len_eq hrun.appended
  have hf : (t.part e.pid).hasFirstElement = true := by rw [hpart]; rfl
  have hlatest : (t.part e.pid).latestElementLen =
      (storedData e.pid (s.part e.pid) elementData elementLen).length := by
    rw [hpart, hq.data_len]
    rfl
  have haddr : (t.part e.pid).latestElementAddress =
      (placement e.pid (s.part e.pid) len).address := by rw [hpart]; rfl
  rw [← haddr] at hstands
  exact ⟨.stored hsound hf hlatest hstands, hlocal⟩

/-- An element of the registered length is accepted. -/
theorem Known.accepts {m : Nat → UInt8} (hk : Known D m e p) (he : e.Ok D)
    (hd : isDynamic e.pid = false) :
    storedLen e.pid p e.elementLen = e.elementLen ∧ Accepted e.pid p e.elementLen := by
  have hpos := he.len_static hd
  have hroom := he.room
  have hstored : storedLen e.pid p e.elementLen = e.elementLen := if_neg (by omega)
  refine ⟨hstored, fun hne => hne.2.2 (hk.len_eq hd).symm, ?_⟩
  rw [hstored]
  rcases placement_cases e.pid p e.elementLen with hstart | ⟨-, haddr, hfit⟩
  · rw [hstart, stopOf_extent hk.start_eq, hk.start_eq, extent_stopOf_start, hk.size_eq]
    omega
  · have hge := latestStop_ge hk.ram
    have hH := elementHeaderLen_bounds e.pid
    rw [haddr, stopOf_next (by omega)]
    exact hfit

/-- A store on a reliable device, with no iterator in the way. -/
theorem Newest.store_ok (hD : D.Reliable) (hD' : D.AllOrNothing) (he : e.Ok D) (hsingle : e.Single D)
    (hd : isDynamic e.pid = false)
    (hroom : e.start + e.size + getElementHeaderLen e.pid ≤ D.size)
    (h : Newest D s.bytes e (s.part e.pid) newest)
    (hiter : (s.iter e.pid).iteratorValid ≠ iteratorValidNumber) (elementData : Nat → UInt8) :
    ∃ t, storeElement e.pid elementData e.elementLen s = (.ok (), t) ∧
      Newest D t.bytes e (t.part e.pid) (some (slice elementData 0 e.elementLen)) ∧
      Local e s t ∧ (t.iter e.pid).iteratorValid ≠ iteratorValidNumber := by
  have hk := h.sound.known
  obtain ⟨hstored, hacc⟩ := hk.accepts he hd
  have hstop := hacc.2
  rw [hk.start_eq, hk.size_eq] at hstop
  obtain ⟨t, ht⟩ := storeElement_ok_of_reliable hD hk.ram hk.sync hiter hacc
    (Nat.le_trans (Nat.add_le_add_right hstop _) hroom) elementData
  obtain ⟨hnewest, hlocal⟩ := h.store hD' hsingle hd he.len_lt ht
  rw [storedData, hstored] at hnewest
  refine ⟨t, ht, hnewest, hlocal, ?_⟩
  obtain ⟨-, -, s₁, w, v, -, hsame, -, rfl⟩ := storeElement_eq_ok hk.ram hk.sync ht
  rw [setDev_iter, setPart_iter]
  rcases hsame with rfl | rfl
  · exact hiter
  · rw [State.lost, setIter_iter]
    exact fun h0 => absurd h0 (by decide : (0 : Nat) ≠ iteratorValidNumber)

theorem Newest.clear (h : Newest D s.bytes e (s.part e.pid) newest)
    (hclear : clearPartition e.pid s = (.ok (), t)) :
    Newest D t.bytes e (t.part e.pid) none ∧ Local e s t := by
  obtain ⟨hsound, hlocal⟩ := h.sound.clear hclear
  obtain ⟨hf, -, -⟩ := h.sound.known.clear hclear
  exact ⟨.empty hsound hf, hlocal⟩

/-- A restart finds the newest element. -/
theorem Newest.resumes {m : Nat → UInt8} {p' : Partition} (h : Newest D m e p newest)
    (hsound : Sound D m e p') (hres : p.Resumes p') : Newest D m e p' newest := by
  obtain ⟨hhas, hlatest⟩ := hres
  cases h with
  | empty _ hf => exact .empty hsound (hhas.trans hf)
  | stored _ hf hlen hstands =>
    obtain ⟨haddr, -, hlen', -⟩ := hlatest hf
    rw [← haddr] at hstands
    exact .stored hsound (hhas.trans hf) (hlen'.trans hlen) hstands

theorem iteratorInvalidate_apply (pid : Nat) : iteratorInvalidate pid s = (.ok (), s.lost pid) :=
  rfl

/-- Without an element the iterator is not initialised. -/
theorem Newest.init_none (h : Newest D s.bytes e (s.part e.pid) none) :
    iteratorInit e.pid s = (.error .invalidState, s.lost e.pid) := by
  cases h with
  | empty _ hf =>
    rw [iteratorInit, iteratorInvalidate, Proc.bind_ok (modifyIterator_apply _), getPartition_bind,
      setIter_part, Proc.failIf_bind_pos hf]
    rfl

/-- The iterator starts at the newest element and reads it. -/
theorem Newest.init_some (h : Newest D s.bytes e (s.part e.pid) (some data)) :
    ∃ it recordId, iteratorInit e.pid s = (.ok (), s.setIter e.pid it) ∧
      iteratorReadElement e.pid (s.setIter e.pid it) =
        (.ok (data, recordId), s.setIter e.pid it) := by
  cases h with
  | stored hs hf hlen hstands =>
    have hinit := hstands.init hs.known hf
    rw [hlen] at hinit
    exact ⟨_, _, hinit, hstands.read hs.known hf⟩

end OpenBadge.Filesystem
