import OpenBadge.Filesystem.Walk

/-!
# Laps

The elements of a partition lie in laps: the current lap from the start of the
partition to the latest element, and behind it what the stores left of the lap before.
`Fronted` says what they left: blank bytes up to some address, then the old bytes.
-/

namespace OpenBadge.Filesystem

open OpenBadge.Lib OpenBadge.Storage

variable {D : Device} {e : Extent} {m m' m'' : Nat → UInt8}

/-! ## Elements in storage -/

/-- Data and record identifier of a stored element. -/
abbrev Element : Type := List UInt8 × Nat

/-- The header of an element whose length differs from the one before it by `link`. -/
def Element.header (el : Element) (link : Nat) : ElementHeader :=
  ⟨el.2, link, (crc16Compute el.1).toNat⟩

/-- The element stands at `a`. -/
structure Stands (m : Nat → UInt8) (e : Extent) (a link : Nat) (el : Element) : Prop where
  address : a = e.start ∨ e.start + metadataSize + getElementHeaderLen e.pid ≤ a
  header : slice m (e.dataAt a - getElementHeaderLen e.pid) (getElementHeaderLen e.pid) =
    serializeElementHeader e.pid (el.header link)
  data : slice m (e.dataAt a) el.1.length = el.1
  stop_le : e.stopOf a el.1.length ≤ e.start + e.size
  len_lt : el.1.length < 2 ^ 16
  link_lt : link < 2 ^ 16
  recordId : IsRecordId el.2
  len_static : isDynamic e.pid = false → el.1.length = e.elementLen

theorem dataAt_ge (e : Extent) (a : Nat) : a + getElementHeaderLen e.pid ≤ e.dataAt a := by
  unfold Extent.dataAt
  split <;> omega

theorem Stands.frame {a link : Nat} {el : Element} (h : Stands m e a link el)
    (hm : ∀ x, a ≤ x → x < e.stopOf a el.1.length → m' x = m x) : Stands m' e a link el := by
  have hge := dataAt_ge e a
  unfold Extent.stopOf at hm
  refine ⟨h.address, ?_, ?_, h.stop_le, h.len_lt, h.link_lt, h.recordId, h.len_static⟩
  · rw [← h.header]
    exact slice_congr fun x hx hx' => hm x (by omega) (by omega)
  · conv_rhs => rw [← h.data]
    exact slice_congr fun x hx hx' => hm x (by omega) (by omega)

theorem Stands.header_fits {a link : Nat} {el : Element} (h : Stands m e a link el) :
    (el.header link).Fits :=
  ⟨Nat.lt_of_le_of_lt h.recordId.2 (by decide), h.link_lt, (crc16Compute el.1).toNat_lt⟩

theorem Stands.headerOf_eq {a link : Nat} {el : Element} (h : Stands m e a link el) :
    headerOf m e.pid (e.dataAt a - getElementHeaderLen e.pid) = (el.header link).kept e.pid := by
  unfold headerOf
  rw [h.header, deserializeElementHeader_serialize h.header_fits]

theorem Stands.recordId_eq {a link : Nat} {el : Element} (h : Stands m e a link el) :
    (headerOf m e.pid (e.dataAt a - getElementHeaderLen e.pid)).recordId = el.2 := by
  rw [h.headerOf_eq]
  rfl

/-- The header of another element than the first one is at its address. -/
theorem dataAt_next {a : Nat} (h : a ≠ e.start) :
    e.dataAt a - getElementHeaderLen e.pid = a := by
  unfold Extent.dataAt
  rw [if_neg h, Nat.add_sub_cancel]

theorem extent_stopOf_next {a : Nat} (h : a ≠ e.start) (len : Nat) :
    e.stopOf a len = a + getElementHeaderLen e.pid + len := by
  unfold Extent.stopOf Extent.dataAt
  rw [if_neg h]

theorem extent_stopOf_start (e : Extent) (len : Nat) :
    e.stopOf e.start len = e.start + metadataSize + getElementHeaderLen e.pid + len := by
  unfold Extent.stopOf Extent.dataAt
  rw [if_pos rfl]
  omega

theorem dataAt_start (e : Extent) :
    e.dataAt e.start - getElementHeaderLen e.pid = e.start + metadataSize := by
  unfold Extent.dataAt
  rw [if_pos rfl]
  omega

/-- The elements of a lap, the latest first, with the address of the latest one; `f` is
the first element and `link` its link to the lap before. -/
inductive Lap (m : Nat → UInt8) (e : Extent) (link : Nat) (f : Element) :
    List Element → Nat → Prop
  | first : Stands m e e.start link f → Lap m e link f [f] e.start
  | next {el el' : Element} {els : List Element} {a : Nat} :
      Lap m e link f (el :: els) a → el'.2 = incrementRecordId el.2 →
      Stands m e (e.stopOf a el.1.length) (el.1.length ^^^ el'.1.length) el' →
      Lap m e link f (el' :: el :: els) (e.stopOf a el.1.length)

variable {link : Nat} {f el el' : Element} {els : List Element} {a : Nat}

theorem Lap.head_stands (h : Lap m e link f (el :: els) a) :
    ∃ x, Stands m e a x el := by
  cases h with
  | first h => exact ⟨link, h⟩
  | next _ _ h => exact ⟨_, h⟩

theorem Lap.first_stands (h : Lap m e link f els a) : Stands m e e.start link f := by
  induction h with
  | first h => exact h
  | next _ _ _ ih => exact ih

theorem Lap.start_le (h : Lap m e link f els a) : e.start ≤ a := by
  cases h with
  | first _ => exact Nat.le_refl _
  | next _ _ h =>
    rcases h.address with h | h <;> omega

theorem stopOf_gt (e : Extent) (a len : Nat) : a < e.stopOf a len := by
  have hH := elementHeaderLen_bounds e.pid
  have hge := dataAt_ge e a
  unfold Extent.stopOf
  omega

/-- A lap rests on the bytes up to the end of its latest element. -/
theorem Lap.frame (h : Lap m e link f (el :: els) a)
    (hm : ∀ x, e.start ≤ x → x < e.stopOf a el.1.length → m' x = m x) :
    Lap m' e link f (el :: els) a := by
  generalize hl : el :: els = l at h
  induction h generalizing el els with
  | first hs =>
    cases hl
    exact Lap.first (hs.frame hm)
  | @next el₁ el₂ els₁ a₁ hlap hid hs ih =>
    cases hl
    have hgt := stopOf_gt e (e.stopOf a₁ el₁.1.length) el₂.1.length
    have hle := hlap.start_le
    have hgt₁ := stopOf_gt e a₁ el₁.1.length
    refine Lap.next (ih (fun x hx hx' => hm x hx (by omega)) rfl) hid (hs.frame fun x hx hx' => ?_)
    exact hm x (by omega) hx'

/-! ## What stores leave behind their element -/

/-- Behind `front` the bytes are blank up to some address and then those of `m`. -/
def Fronted (stop front : Nat) (m m' : Nat → UInt8) : Prop :=
  ∃ b, front ≤ b ∧ (∀ x, front ≤ x → x < b → x < stop → m' x = 0xFF) ∧
    ∀ x, b ≤ x → x < stop → m' x = m x

theorem Fronted.of_kept {stop front : Nat}
    (h : ∀ x, front ≤ x → x < stop → m' x = m x) : Fronted stop front m m' :=
  ⟨front, Nat.le_refl _, fun x hx hx' => by omega, h⟩

theorem Fronted.mono {stop front front' : Nat} (h : Fronted stop front m m')
    (hle : front ≤ front') : Fronted stop front' m m' := by
  obtain ⟨b, -, hblank, hkept⟩ := h
  refine ⟨max b front', Nat.le_max_right _ _, fun x hx hx' => hblank x (by omega) (by omega),
    fun x hx => hkept x (by omega)⟩

theorem Fronted.trans {stop front : Nat} (h : Fronted stop front m m')
    (h' : Fronted stop front m' m'') : Fronted stop front m m'' := by
  obtain ⟨b, hb, hblank, hkept⟩ := h
  obtain ⟨b', hb', hblank', hkept'⟩ := h'
  refine ⟨max b b', by omega, fun x hx hx' hstop => ?_, fun x hx hstop => ?_⟩
  · by_cases hlt : x < b'
    · exact hblank' x hx hlt hstop
    · rw [hkept' x (by omega) hstop]
      exact hblank x hx (by omega) hstop
  · rw [hkept' x (by omega) hstop, hkept x (by omega) hstop]

theorem Wrote.fronted (hD : D.AllOrNothing) {a : Nat} {d : List UInt8} {u v : D.State}
    (h : Wrote D a d u v) (stop : Nat) {front : Nat} (hfront : a + d.length ≤ front) :
    Fronted stop front (D.byte u) (D.byte v) := by
  rcases h.call with ⟨rfl, rfl⟩ | ⟨hd, hcall⟩
  · exact Fronted.of_kept fun _ _ _ => rfl
  · have hpos := List.length_pos_iff.mpr hd
    have hspec := D.store_spec a d u v hpos h.fits hcall
    rcases hD.1 a d u v hpos h.fits hcall with hkept | hblank
    · exact Fronted.of_kept fun x hx _ => hkept x (by omega)
    · refine ⟨max front (unitStop D.modules (a + d.length - 1)), Nat.le_max_left _ _,
        fun x hx hx' _ => hblank x (by omega) (by omega), fun x hx _ => hspec.after x (by omega)⟩

theorem Cleared.fronted (hD : D.AllOrNothing) {a n : Nat} {u v : D.State}
    (h : Cleared D a n u v) (stop : Nat) : Fronted stop a (D.byte u) (D.byte v) := by
  have hwritten := h.changed.written
  rw [List.length_replicate] at hwritten
  have hff : ∀ x, a ≤ x → x < a + n → D.byte v x = 0xFF := by
    intro x hx hx'
    have hget := slice_getElem? (D.byte v) (a := a) (n := n) (i := x - a) (by omega)
    rw [hwritten, List.getElem?_replicate, if_pos (by omega), Nat.add_sub_cancel' hx] at hget
    exact (Option.some.inj hget).symm
  rcases h.call with ⟨rfl, rfl⟩ | ⟨hn, hcall⟩
  · exact Fronted.of_kept fun _ _ _ => rfl
  · have hpos := Nat.pos_of_ne_zero hn
    have hspec := D.clear_spec a n u v hpos h.fits hcall
    have hstop := lt_unitStop D.modules (a + n - 1)
    rcases hD.2 a n u v hpos h.fits hcall with hkept | hblank
    · exact ⟨a + n, by omega, fun x hx hx' _ => hff x hx hx', fun x hx _ => hkept x hx⟩
    · refine ⟨unitStop D.modules (a + n - 1), by omega, fun x hx hx' _ => ?_,
        fun x hx _ => hspec.after x hx⟩
      by_cases hlt : x < a + n
      · exact hff x hx hlt
      · exact hblank x (by omega) hx'

/-- The record identifier is in the first two bytes of a header. -/
theorem headerOf_recordId (m : Nat → UInt8) (pid a : Nat) :
    (headerOf m pid a).recordId = ofBe16 (m a) (m (a + 1)) := by
  have hH := elementHeaderLen_bounds pid
  change ofBe16 ((slice m a (getElementHeaderLen pid)).getD 0 0)
    ((slice m a (getElementHeaderLen pid)).getD 1 0) = _
  rw [List.getD_eq_getElem?_getD, List.getD_eq_getElem?_getD, slice_getElem? m (by omega),
    slice_getElem? m (by omega)]
  rfl

/-- An element of the old bytes whose identifier can still be read is untouched. -/
theorem Fronted.intact {front : Nat} (h : Fronted (e.start + e.size) front m m')
    (hs : Stands m e a link el) (hne : a ≠ e.start) (hfront : front ≤ a)
    (hid : (headerOf m' e.pid a).recordId = el.2) {x : Nat} (hx : a ≤ x)
    (hx' : x < e.start + e.size) : m' x = m x := by
  obtain ⟨b, -, hblank, hkept⟩ := h
  have hold := congrArg ElementHeader.recordId hs.headerOf_eq
  rw [dataAt_next hne, headerOf_recordId] at hold
  change _ = el.2 at hold
  rw [headerOf_recordId] at hid
  have hstop := hs.stop_le
  have hge := dataAt_ge e a
  have hH := elementHeaderLen_bounds e.pid
  unfold Extent.stopOf at hstop
  by_cases hba : b ≤ a
  · exact hkept x (by omega) hx'
  · have hfirst := hblank a hfront (by omega) (by omega)
    by_cases hb2 : a + 2 ≤ b
    · have hsecond := hblank (a + 1) (by omega) (by omega) (by omega)
      have hrec := hs.recordId.2
      rw [hfirst, hsecond] at hid
      change 0xFFFF = el.2 at hid
      omega
    · have hsecond := hkept (a + 1) (by omega) (by omega)
      rw [← hold, hsecond] at hid
      have heq : m' a = m a := by
        apply UInt8.toNat_inj.mp
        unfold ofBe16 at hid
        omega
      by_cases hxa : x = a
      · rw [hxa]
        exact heq
      · exact hkept x (by omega) hx'

/-! ## The effect of a store -/

variable {p : Partition} {len : Nat} {data : List UInt8} {u w v : D.State}

/-- The new element stands in its place. -/
theorem Request.stands (hq : Request D e.pid p len data) (hstart : p.firstElementAddress = e.start)
    (hsize : p.metadata.partitionSize = e.size)
    (hlen : isDynamic e.pid = false → p.metadata.firstElementLen = e.elementLen)
    (h : Appended D e.pid p (placement e.pid p len) len data w v) :
    Stands (D.byte v) e (placement e.pid p len).address
      (placement e.pid p len).previousLenXorCurLen (data, (placement e.pid p len).recordId) := by
  have hheader := h.header
  have hdata := h.contents
  have haddr := hq.fits.address
  have hstop := hq.fits.stop_le
  rw [stopOf_extent hstart, hstart, hsize] at hstop
  rw [hstart] at haddr
  rw [headerLenAt_extent hstart] at hdata
  refine ⟨haddr, ?_, hdata, by rw [hq.data_len]; exact hstop, by rw [hq.data_len]; exact hq.len_lt,
    placement_xor_lt hq.ram hq.len_lt, placement_recordId hq.ram len, fun hd => ?_⟩
  · unfold headerBytes headerLenAt at hheader
    rw [hstart] at hheader
    by_cases ha : (placement e.pid p len).address = e.start
    · rw [if_pos ha, if_pos ha] at hheader
      obtain ⟨-, hheader⟩ := slice_eq_append hheader
      rw [serializeElementHeader_length, serializeMetadata_length] at hheader
      rw [ha, dataAt_start, ← ha]
      exact hheader
    · rw [if_neg ha, if_neg ha] at hheader
      rw [dataAt_next ha]
      exact hheader
  · rw [hq.data_len, hq.static_len hd, hlen hd]

theorem StoreRun.fronted (hD : D.AllOrNothing) (hq : Request D e.pid p len data)
    (h : StoreRun D e.pid p (placement e.pid p len) len data u w v) (stop : Nat) :
    Fronted stop (stopOf e.pid p (placement e.pid p len).address len) (D.byte u) (D.byte v) := by
  obtain ⟨b, y, hb, hy, hv⟩ := h.appended
  have hstart := hq.fits.start_le
  have hlt := lt_stopOf e.pid p (placement e.pid p len).address len
  have hhl := headerBytes_length e.pid p (placement e.pid p len) len data
  have hlen := hq.data_len
  have hstop : stopOf e.pid p (placement e.pid p len).address len =
    (placement e.pid p len).address + headerLenAt e.pid p (placement e.pid p len).address + len := rfl
  have hwipe : Fronted stop (stopOf e.pid p (placement e.pid p len).address len)
      (D.byte u) (D.byte w) := by
    rcases h.wiped with ⟨-, hc⟩ | ⟨-, rfl⟩
    · exact hc.fronted hD stop
    · exact Fronted.of_kept fun _ _ _ => rfl
  have hbackup : Fronted stop (stopOf e.pid p (placement e.pid p len).address len)
      (D.byte w) (D.byte b) :=
    Fronted.of_kept fun x hx _ => backup_outside (backup_bytes hb)
      (hq.ram.outsideSwap (by omega))
  have hheader := hy.fronted hD stop (show _ ≤ stopOf e.pid p (placement e.pid p len).address len
    by omega)
  have hdata := hv.fronted hD stop (show _ ≤ stopOf e.pid p (placement e.pid p len).address len
    by omega)
  exact ((hwipe.trans hbackup).trans hheader).trans hdata

/-- In byte units everything behind the element is kept, but for a stale header. -/
theorem StoreRun.behind (hD : D.ByteUnits) (hq : Request D e.pid p len data)
    (h : StoreRun D e.pid p (placement e.pid p len) len data u w v) {x : Nat}
    (hx : stopOf e.pid p (placement e.pid p len).address len ≤ x) :
    D.byte v x =
      if Follows (D.byte u) e.pid p (placement e.pid p len).address
          (placement e.pid p len).recordId len ∧
        x < stopOf e.pid p (placement e.pid p len).address len + getElementHeaderLen e.pid
      then 0xFF else D.byte u x := by
  rw [h.appended.behind hq (unitStart_of_bytes hD) hx]
  rcases h.wiped with ⟨hf, hcleared⟩ | ⟨hnot, rfl⟩
  · obtain ⟨i, rfl⟩ := Nat.exists_eq_add_of_le hx
    rw [hcleared.changed.eq_overwrite hD]
    by_cases hi : i < getElementHeaderLen e.pid
    · rw [if_pos ⟨hf, by omega⟩, overwrite_add _ _ _ (by rw [List.length_replicate]; exact hi),
        List.getElem_replicate]
    · rw [if_neg (fun hc => hi (by omega)),
        overwrite_of_ge _ _ (by rw [List.length_replicate]; omega)]
  · rw [if_neg (fun hc => hnot hc.1)]

/-- In byte units, if nothing is cleared behind the element, everything there is kept. -/
theorem StoreRun.kept (hD : D.ByteUnits) (hq : Request D e.pid p len data)
    (h : StoreRun D e.pid p (placement e.pid p len) len data u w v)
    (hnot : ¬ Follows (D.byte u) e.pid p (placement e.pid p len).address
      (placement e.pid p len).recordId len) {x : Nat}
    (hx : stopOf e.pid p (placement e.pid p len).address len ≤ x) : D.byte v x = D.byte u x := by
  rw [h.behind hD hq hx, if_neg (fun hc => hnot hc.1)]

end OpenBadge.Filesystem
