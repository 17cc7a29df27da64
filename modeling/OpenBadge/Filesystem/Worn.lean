import OpenBadge.Filesystem.Guarded

/-!
# Elements with damaged data

The slots of a static partition in storage with byte units, where the data of any elements may
have been damaged after they were stored. The headers still lead from slot to slot; what a read
returns is what the bytes in the slot and the checksum in its header give.
-/

namespace OpenBadge.Filesystem

open OpenBadge.Lib OpenBadge.Storage
open Proc (Keeps)

variable {D : Device} {s t : State D} {e : Extent} {m m' : Nat → UInt8} {p : Partition}
  {base : Nat} {ring : List (Option (List UInt8))}

/-! ## Slots -/

/-- The header in a slot. -/
def slotHeader (m : Nat → UInt8) (e : Extent) (j : Nat) : ElementHeader :=
  headerOf m e.pid (e.dataAt (e.slotAt j) - getElementHeaderLen e.pid)

/-- The bytes of the element in a slot. -/
def slotData (m : Nat → UInt8) (e : Extent) (j : Nat) : List UInt8 :=
  slice m (e.dataAt (e.slotAt j)) e.elementLen

/-- What a read of the element in a slot returns, if its checksum is right. -/
def slotContents (m : Nat → UInt8) (e : Extent) (j : Nat) : Option (List UInt8) :=
  if hasElementCrc e.pid = true ∧
      (crc16Compute (slotData m e j)).toNat ≠ (slotHeader m e j).elementCrc then none
  else some (slotData m e j)

/-- A byte of the data in one of the slots. -/
def Extent.InData (e : Extent) (x : Nat) : Prop :=
  ∃ j < e.slots, e.dataAt (e.slotAt j) ≤ x ∧ x < e.dataAt (e.slotAt j) + e.elementLen

/-- The headers lie between the data of the slots. -/
theorem not_inData_header {i x : Nat} (hx : e.slotAt i ≤ x) (hx' : x < e.dataAt (e.slotAt i)) :
    ¬ e.InData x := by
  rintro ⟨j, -, hj, hj'⟩
  rcases Nat.lt_trichotomy i j with hij | rfl | hij
  · have hle := slot_stop_le (e := e) hij
    have hge := dataAt_ge e (e.slotAt j)
    unfold Extent.stopOf at hle
    omega
  · omega
  · have hle := slot_stop_le (e := e) hij
    unfold Extent.stopOf at hle
    omega

theorem slotHeader_congr {j : Nat}
    (h : ∀ x, e.slotAt j ≤ x → x < e.dataAt (e.slotAt j) → m' x = m x) :
    slotHeader m' e j = slotHeader m e j := by
  have hge := dataAt_ge e (e.slotAt j)
  exact headerOf_congr fun x hx hx' => h x (by omega) (by omega)

theorem slotContents_congr {j : Nat}
    (h : ∀ x, e.slotAt j ≤ x → x < e.stopOf (e.slotAt j) e.elementLen → m' x = m x) :
    slotContents m' e j = slotContents m e j := by
  have hge := dataAt_ge e (e.slotAt j)
  have hdata : slotData m' e j = slotData m e j :=
    slice_congr fun x hx hx' => h x (by omega) hx'
  have hheader : slotHeader m' e j = slotHeader m e j := by
    refine slotHeader_congr fun x hx hx' => h x hx ?_
    unfold Extent.stopOf
    omega
  unfold slotContents
  rw [hdata, hheader]

/-- A slot begins where the one in front of it ends. -/
theorem slot_stopOf (hk : Known D m e p) (j : Nat) :
    stopOf e.pid p (e.slotAt j) e.elementLen = e.slotAt (j + 1) := by
  rw [stopOf_extent hk.start_eq, slotAt_succ]

theorem slotHeader_succ (m : Nat → UInt8) (e : Extent) (j : Nat) :
    headerOf m e.pid (e.slotAt (j + 1)) = slotHeader m e (j + 1) := by
  rw [slotHeader, dataAt_next (Nat.ne_of_gt (slotAt_gt (Nat.succ_ne_zero j)))]

theorem neighbourLen_static (hd : isDynamic e.pid = false) (hk : Known D m e p) (len xor : Nat) :
    neighbourLen e.pid p len xor = e.elementLen := by
  rw [neighbourLen, hd]
  exact hk.len_eq hd

/-- Behind the last slot there is no room for an element. -/
theorem not_follows_last (hd : isDynamic e.pid = false) (hk : Known D m e p) {j : Nat}
    (hj : j + 1 = e.slots) (recordId : Nat) :
    ¬ Follows m' e.pid p (e.slotAt j) recordId e.elementLen := by
  rintro ⟨-, hfit⟩
  have hsize := hk.ram.size_ge
  have hmul : (e.slots + 1) * e.slotSize =
      e.slots * e.slotSize + (getElementHeaderLen e.pid + e.elementLen) := Nat.succ_mul _ _
  rw [slot_stopOf hk, neighbourLen_static hd hk, hk.start_eq, hk.size_eq, hj,
    slotAt_pos (by omega)] at hfit
  rw [hk.size_eq] at hsize
  have hlt := (e.fits_iff (e.slots + 1) (by omega)).mp (by omega)
  omega

/-! ## The invariant -/

variable (D) in
/-- The elements that were stored since the partition was empty, in their order; the latest
of them are in the slots, with `none` for what a read refuses. -/
structure Worn (m : Nat → UInt8) (e : Extent) (p : Partition) (base : Nat)
    (ring : List (Option (List UInt8))) : Prop where
  turned : Turned e p base ring.length
  slots : ∀ i x, ring[i]? = some x → ring.length ≤ i + e.slots →
    (slotHeader m e (i % e.slots)).recordId = recordIdOf (base + i) ∧
      slotContents m e (i % e.slots) = x
  room : e.slots ≤ ring.length → e.slotAt e.slots + getElementHeaderLen e.pid ≤ D.size

theorem Worn.recordId_eq (h : Worn D m e p base ring) {i : Nat} (hi : i < ring.length)
    (hle : ring.length ≤ i + e.slots) :
    (slotHeader m e (i % e.slots)).recordId = recordIdOf (base + i) :=
  (h.slots i _ (List.getElem?_eq_getElem hi) hle).1

theorem Worn.hasFirst (h : Worn D m e p base ring)
    (hpos : 0 < ring.length) : p.hasFirstElement = true := by
  by_contra hfalse
  have hzero := (h.turned.fresh (Bool.eq_false_iff.mpr hfalse)).1
  omega

theorem Worn.frame (hk : Known D m e p) (h : Worn D m e p base ring) (hslots : 3 ≤ e.slots)
    (hm : ∀ x, e.Owns x → m' x = m x) : Worn D m' e p base ring := by
  refine ⟨h.turned, fun i x hx hle => ?_, h.room⟩
  have hstop := slot_fits hk (Nat.mod_lt i (show 0 < e.slots by omega))
  have hge := slotAt_ge e (i % e.slots)
  have hdata := dataAt_ge e (e.slotAt (i % e.slots))
  have hsame : ∀ y, e.slotAt (i % e.slots) ≤ y →
      y < e.stopOf (e.slotAt (i % e.slots)) e.elementLen → m' y = m y :=
    fun y hy hy' => hm y (.inl ⟨by omega, by omega⟩)
  rw [slotContents_congr hsame, slotHeader_congr fun y hy hy' => hsame y hy (by
    unfold Extent.stopOf
    omega)]
  exact h.slots i x hx hle

theorem Worn.empty (hf : p.hasFirstElement = false) (hid : IsRecordId p.latestElementRecordId)
    (hslots : 3 ≤ e.slots) : ∃ base, Worn D m e p base [] := by
  obtain ⟨hge, hle⟩ := hid
  refine ⟨p.latestElementRecordId - 1, ⟨fun _ => ⟨rfl, ?_⟩, fun htrue => ?_⟩, fun i x hx => ?_,
    fun hroom => ?_⟩
  · unfold recordIdOf
    omega
  · rw [hf] at htrue
    cases htrue
  · cases hx
  · rw [List.length_nil] at hroom
    omega

/-- A restart finds the elements as they were. -/
theorem Worn.resumes {p' : Partition} (h : Worn D m e p base ring) (hresumes : p.Resumes p')
    (hk : Known D m e p') (hslots : 3 ≤ e.slots) : ∃ base, Worn D m e p' base ring := by
  obtain ⟨hsame, hlatest⟩ := hresumes
  cases hf : p.hasFirstElement with
  | false =>
    obtain ⟨hnil, -⟩ := h.turned.fresh hf
    rw [List.length_eq_zero_iff] at hnil
    rw [hnil]
    rw [hf] at hsame
    exact Worn.empty hsame (hk.ram.recordId hsame) hslots
  | true =>
    obtain ⟨haddr, hid, hlen, hmeta⟩ := hlatest hf
    refine ⟨base, ⟨fun hfalse => ?_, fun _ => ?_⟩, h.slots, h.room⟩
    · rw [hsame, hf] at hfalse
      cases hfalse
    · rw [haddr, hid, hlen, hmeta]
      exact h.turned.stored hf

/-! ## Stores -/

section Stores

variable (hD : D.ByteUnits) (hd : isDynamic e.pid = false) (hslots : 3 ≤ e.slots)
  (hslots' : e.slots < 65534) (hk : Known D s.bytes e (s.part e.pid))
  (h : Worn D s.bytes e (s.part e.pid) base ring)

include hD hd hslots hslots' hk h

omit hd in
/-- A store leaves the other elements of the last round in their slots. -/
theorem Worn.slot_kept {data : List UInt8} {x v : D.State}
    (hq : Request D e.pid (s.part e.pid) e.elementLen data)
    (hrun : StoreRun D e.pid (s.part e.pid) (placement e.pid (s.part e.pid) e.elementLen)
      e.elementLen data s.dev x v) {i : Nat} (hi : i < ring.length)
    (hle : ring.length < i + e.slots) {y : Nat} (hy : e.slotAt (i % e.slots) ≤ y)
    (hy' : y < e.stopOf (e.slotAt (i % e.slots)) e.elementLen) :
    D.byte v y = D.byte s.dev y := by
  obtain ⟨haddr, hrec⟩ := h.turned.placement_eq hk hslots
  have hge := slotAt_ge e (i % e.slots)
  rcases slot_cases hi (by omega) with ⟨hfront, -⟩ | ⟨hbehind, -⟩
  · have hstop := slot_stop_le (e := e) hfront
    refine hrun.outside hq.ram hq.data_len hq.fits (.inl ?_) (hq.ram.outsideSwap ?_)
    · rw [haddr]
      omega
    · rw [hk.start_eq]
      omega
  · have hstop : stopOf e.pid (s.part e.pid) (placement e.pid (s.part e.pid) e.elementLen).address
        e.elementLen = e.slotAt (ring.length % e.slots + 1) := by
      rw [stopOf_extent hk.start_eq, haddr, slotAt_succ]
    have hle' := slot_stop_le (e := e) hbehind
    rw [← slotAt_succ] at hle'
    rw [hrun.behind hD hq (x := y) (by rw [hstop]; omega), hstop]
    refine if_neg fun hc => ?_
    obtain ⟨hfollows, hlt⟩ := hc
    by_cases hnext : i % e.slots = ring.length % e.slots + 1
    · have hid := h.recordId_eq hi (by omega)
      have hread := hfollows.1
      rw [hstop, hrec, increment_recordIdOf] at hread
      have hdata : e.dataAt (e.slotAt (i % e.slots)) - getElementHeaderLen e.pid =
          e.slotAt (ring.length % e.slots + 1) := by
        rw [hnext]
        exact dataAt_next (Nat.ne_of_gt (slotAt_gt (Nat.succ_ne_zero _)))
      rw [slotHeader, hdata] at hid
      have hmod := recordIdOf_inj (hid.symm.trans hread)
      omega
    · have hnext' := slot_stop_le (e := e)
        (show ring.length % e.slots + 1 < i % e.slots by omega)
      have hdata := dataAt_ge e (e.slotAt (ring.length % e.slots + 1))
      unfold Extent.stopOf at hnext'
      omega

omit hD hslots' in
/-- The new element is in the next slot. -/
theorem Worn.slot_new {data : List UInt8} {x v : D.State}
    (hq : Request D e.pid (s.part e.pid) e.elementLen data)
    (hrun : StoreRun D e.pid (s.part e.pid) (placement e.pid (s.part e.pid) e.elementLen)
      e.elementLen data s.dev x v) :
    (slotHeader (D.byte v) e (ring.length % e.slots)).recordId = recordIdOf (base + ring.length) ∧
      slotContents (D.byte v) e (ring.length % e.slots) = some data := by
  obtain ⟨haddr, hrec⟩ := h.turned.placement_eq hk hslots
  have hs := hq.stands hk.start_eq hk.size_eq hk.len_eq hrun.appended
  rw [haddr, hrec] at hs
  refine ⟨hs.recordId_eq, ?_⟩
  have hdata : slotData (D.byte v) e (ring.length % e.slots) = data := by
    have hslice := hs.data
    rw [hs.len_static hd] at hslice
    exact hslice
  unfold slotContents
  rw [hdata]
  refine if_neg fun hc => hc.2 ?_
  rw [slotHeader, hs.headerOf_eq]
  unfold ElementHeader.kept
  rw [hc.1]
  rfl

theorem Worn.store {elementData : Nat → UInt8} {elementLen : Nat} (hlen : elementLen < 2 ^ 16)
    (hstore : storeElement e.pid elementData elementLen s = (.ok (), t)) :
    Worn D t.bytes e (t.part e.pid) base
      (ring ++ [some (storedData e.pid (s.part e.pid) elementData elementLen)]) := by
  obtain ⟨len, data, x, hl, hdata, hq, hrun, hpart, -, -⟩ := hk.store hlen hstore
  rw [← hdata]
  obtain rfl : len = e.elementLen := (hq.static_len hd).trans (hk.len_eq hd)
  obtain ⟨haddr, -⟩ := h.turned.placement_eq hk hslots
  obtain ⟨hnewId, hnew⟩ := h.slot_new hd hslots hk hq hrun
  have hsize : (ring ++ [some data]).length = ring.length + 1 := by
    rw [List.length_append, List.length_singleton]
  refine ⟨?_, fun i y hy hle => ?_, fun hroom => ?_⟩
  · rw [hsize, hpart]
    exact h.turned.appended data hk hslots
  · rw [hsize] at hle
    by_cases hi : i < ring.length
    · rw [List.getElem?_append_left hi] at hy
      have hsame : ∀ z, e.slotAt (i % e.slots) ≤ z →
          z < e.stopOf (e.slotAt (i % e.slots)) e.elementLen → t.bytes z = s.bytes z :=
        fun z hz hz' => h.slot_kept hD hslots hslots' hk hq hrun hi (by omega) hz hz'
      rw [slotContents_congr hsame, slotHeader_congr fun z hz hz' => hsame z hz (by
        unfold Extent.stopOf
        omega)]
      exact h.slots i y hy (by omega)
    · obtain rfl : i = ring.length := by
        have hlt := (List.getElem?_eq_some_iff.mp hy).1
        omega
      rw [List.getElem?_concat_length] at hy
      cases hy
      exact ⟨hnewId, hnew⟩
  · rw [hsize] at hroom
    by_cases hfull : e.slots ≤ ring.length
    · exact h.room hfull
    · have hprobe := hrun.probe_fits
      rw [stopOf_extent hk.start_eq, haddr, ← slotAt_succ, Nat.mod_eq_of_lt (by omega),
        show ring.length + 1 = e.slots by omega] at hprobe
      exact hprobe

end Stores

end OpenBadge.Filesystem
