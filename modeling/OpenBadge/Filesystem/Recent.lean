import OpenBadge.Filesystem.Back
import OpenBadge.Filesystem.Rank
import OpenBadge.Filesystem.Used

/-!
# The slots of a static partition

The elements stored since the last clear stand in the slots of a static partition one after
the other, over and over again; the headers of older elements are never reached. Storage
with byte units.
-/

namespace OpenBadge.Filesystem

open OpenBadge.Lib OpenBadge.Storage

variable {D : Device} {s t : State D} {e : Extent} {m m' : Nat → UInt8} {p : Partition}
  {log : List Element} {base : Nat}

/-! ## Slots -/

/-- The address of a slot. -/
def Extent.slotAt (e : Extent) (j : Nat) : Nat :=
  if j = 0 then e.start else e.start + metadataSize + j * e.slotSize

theorem slotAt_zero (e : Extent) : e.slotAt 0 = e.start := if_pos rfl

theorem slotAt_ge (e : Extent) (j : Nat) : e.start + j * e.slotSize ≤ e.slotAt j := by
  unfold Extent.slotAt
  split
  · rename_i hj
    rw [hj, Nat.zero_mul]
    exact Nat.le_refl _
  · omega

theorem slotAt_pos {j : Nat} (hj : j ≠ 0) :
    e.slotAt j = e.start + metadataSize + j * e.slotSize := if_neg hj

theorem slotAt_gt {j : Nat} (hj : j ≠ 0) : e.start < e.slotAt j := by
  rw [slotAt_pos hj]
  unfold metadataSize
  omega

theorem slot_stop (e : Extent) (j : Nat) :
    e.stopOf (e.slotAt j) e.elementLen = e.start + metadataSize + (j + 1) * e.slotSize := by
  rw [Nat.succ_mul]
  by_cases hj : j = 0
  · rw [hj, slotAt_zero, extent_stopOf_start, Nat.zero_mul]
    unfold Extent.slotSize
    omega
  · have hgt := slotAt_gt (e := e) hj
    rw [extent_stopOf_next (by omega), slotAt_pos hj]
    unfold Extent.slotSize
    omega

/-- A slot ends where the next one begins. -/
theorem slotAt_succ (e : Extent) (j : Nat) :
    e.slotAt (j + 1) = e.stopOf (e.slotAt j) e.elementLen := by
  rw [slot_stop, slotAt_pos (Nat.succ_ne_zero j)]

/-- Slots lie in order. -/
theorem slot_stop_le {i j : Nat} (h : i < j) : e.stopOf (e.slotAt i) e.elementLen ≤ e.slotAt j := by
  have hmul := Nat.mul_le_mul_right e.slotSize (show i + 1 ≤ j from h)
  rw [slot_stop, slotAt_pos (Nat.ne_of_gt (Nat.zero_lt_of_lt h))]
  omega

/-- The slots lie in the partition. -/
theorem slot_fits (hk : Known D m e p) {j : Nat} (hj : j < e.slots) :
    e.stopOf (e.slotAt j) e.elementLen ≤ e.start + e.size := by
  have hsize := hk.ram.size_ge
  rw [hk.size_eq] at hsize
  rw [slot_stop]
  exact (e.fits_iff (j + 1) (by omega)).mpr hj

/-- Of two elements stored within one round, the earlier one is in a slot in front, or so
far behind as the round before reaches. -/
theorem slot_cases {n i j : Nat} (hlt : j < i) (hround : i < j + n) :
    (j % n < i % n ∧ i - j = i % n - j % n) ∨ (i % n < j % n ∧ j + n - i = j % n - i % n) := by
  have hn : 0 < n := by omega
  have hi := Nat.div_add_mod i n
  have hj := Nat.div_add_mod j n
  have hilt := Nat.mod_lt i hn
  have hjlt := Nat.mod_lt j hn
  have hle : j / n ≤ i / n := Nat.div_le_div_right (Nat.le_of_lt hlt)
  rcases Nat.lt_or_eq_of_le hle with hq | hq
  · have hq' : i / n = j / n + 1 := by
      have hmul := Nat.mul_le_mul_left n (show j / n + 1 ≤ i / n from hq)
      by_contra hne
      have hmul' := Nat.mul_le_mul_left n (show j / n + 2 ≤ i / n by omega)
      rw [Nat.mul_add] at hmul'
      omega
    rw [hq', Nat.mul_add, Nat.mul_one] at hi
    omega
  · rw [hq] at hj
    omega

/-- The slot after another one. -/
theorem slot_next {n i : Nat} (hn : 2 ≤ n) (hi : 0 < i) :
    ((i - 1) % n + 2 ≤ n → i % n = (i - 1) % n + 1) ∧
      (¬ (i - 1) % n + 2 ≤ n → i % n = 0 ∧ (i - 1) % n = n - 1) := by
  have hcases := slot_cases (n := n) (show i - 1 < i by omega) (by omega)
  have hlt := Nat.mod_lt i (show 0 < n by omega)
  have hlt' := Nat.mod_lt (i - 1) (show 0 < n by omega)
  generalize i % n = c at *
  generalize (i - 1) % n = c' at *
  omega

/-! ## The variables -/

/-- The variables of a static partition after `n` stores since it was empty. -/
structure Turned (e : Extent) (p : Partition) (base n : Nat) : Prop where
  fresh : p.hasFirstElement = false → n = 0 ∧ p.latestElementRecordId = recordIdOf base
  stored : p.hasFirstElement = true → 0 < n ∧
    p.latestElementAddress = e.slotAt ((n - 1) % e.slots) ∧
    p.latestElementLen = e.elementLen ∧
    p.latestElementRecordId = recordIdOf (base + (n - 1)) ∧
    p.metadata.lastElementAddress = if n ≤ e.slots then e.start else e.slotAt (e.slots - 1)

theorem Turned.latestStop_eq {n : Nat} (hk : Known D m e p) (h : Turned e p base n)
    (hf : p.hasFirstElement = true) :
    latestStop e.pid p = e.start + metadataSize + ((n - 1) % e.slots + 1) * e.slotSize := by
  obtain ⟨-, haddr, hlen, -, -⟩ := h.stored hf
  rw [latestStop, stopOf_extent hk.start_eq, haddr, hlen, slot_stop]

/-- A new element goes to the next slot, with the next identifier. -/
theorem Turned.placement_eq {n : Nat} (hk : Known D m e p) (hslots : 3 ≤ e.slots)
    (h : Turned e p base n) :
    (placement e.pid p e.elementLen).address = e.slotAt (n % e.slots) ∧
      (placement e.pid p e.elementLen).recordId = recordIdOf (base + n) := by
  cases hf : p.hasFirstElement with
  | false =>
    obtain ⟨rfl, hid⟩ := h.fresh hf
    rw [placement_empty hf, Nat.zero_mod, slotAt_zero]
    exact ⟨hk.start_eq, hid⟩
  | true =>
    have hstop := h.latestStop_eq hk hf
    obtain ⟨hpos, -, -, hid, -⟩ := h.stored hf
    have hsize := hk.ram.size_ge
    rw [hk.size_eq] at hsize
    have hfits := e.fits_iff ((n - 1) % e.slots + 2) (by omega)
    obtain ⟨hnext, hwrap⟩ := slot_next (n := e.slots) (by omega) hpos
    have hinc : incrementRecordId p.latestElementRecordId = recordIdOf (base + n) := by
      rw [hid, increment_recordIdOf, Nat.add_assoc, Nat.sub_add_cancel hpos]
    have hroom : latestStop e.pid p + getElementHeaderLen e.pid + e.elementLen =
        e.start + metadataSize + ((n - 1) % e.slots + 2) * e.slotSize := by
      have hmul : ((n - 1) % e.slots + 2) * e.slotSize =
          ((n - 1) % e.slots + 1) * e.slotSize +
            (getElementHeaderLen e.pid + e.elementLen) := Nat.succ_mul _ _
      rw [hstop, hmul]
      omega
    by_cases hin : (n - 1) % e.slots + 2 ≤ e.slots
    · rw [placement_next hf (by rw [hroom, hk.start_eq, hk.size_eq]; exact hfits.mpr hin)]
      refine ⟨?_, hinc⟩
      rw [hnext hin, slotAt_succ, slot_stop]
      exact hstop
    · rw [placement_wrap hf (by rw [hroom, hk.start_eq, hk.size_eq]; exact fun hle => hin (hfits.mp hle))]
      refine ⟨?_, hinc⟩
      rw [(hwrap hin).1, slotAt_zero]
      exact hk.start_eq

/-- Where the metadata say the last element is, after a store. -/
theorem Turned.last_appended {n : Nat} (data : List UInt8) (hk : Known D m e p)
    (hslots : 3 ≤ e.slots) (h : Turned e p base n) :
    (p.appended e.pid (placement e.pid p e.elementLen) e.elementLen data).metadata.lastElementAddress =
      if n + 1 ≤ e.slots then e.start else e.slotAt (e.slots - 1) := by
  obtain ⟨haddr, -⟩ := h.placement_eq hk hslots
  have hfirst : stopOf e.pid p p.firstElementAddress e.elementLen = e.slotAt 1 := by
    rw [stopOf_extent hk.start_eq, hk.start_eq, slotAt_succ, slotAt_zero]
  have hgt := slotAt_gt (e := e) (show 1 ≠ 0 by decide)
  have hmod := Nat.mod_eq_of_lt (a := n) (b := e.slots)
  cases hf : p.hasFirstElement with
  | false =>
    have hstart : (placement e.pid p e.elementLen).address = p.firstElementAddress := by
      rw [placement_empty hf]
    obtain ⟨rfl, -⟩ := h.fresh hf
    rw [appended_metadata_start hstart, newMetadata_last, hfirst, hk.rewound hf, hk.start_eq,
      if_pos (Nat.le_of_lt hgt), if_pos (by omega)]
  | true =>
    obtain ⟨hpos, hlatest, -, -, hlast⟩ := h.stored hf
    obtain ⟨hnext, hwrap⟩ := slot_next (n := e.slots) (by omega) hpos
    by_cases hin : (n - 1) % e.slots + 2 ≤ e.slots
    · have hne : (placement e.pid p e.elementLen).address ≠ p.firstElementAddress := by
        rw [haddr, hk.start_eq, hnext hin]
        exact Nat.ne_of_gt (slotAt_gt (Nat.succ_ne_zero _))
      have hne' : n ≠ e.slots := by
        intro heq
        rw [heq, Nat.mod_self] at hnext
        exact absurd (hnext (by rw [heq] at hin; exact hin)) (by omega)
      rw [appended_metadata_next hne, hlast]
      by_cases hle : n ≤ e.slots
      · rw [if_pos hle, if_pos (by omega)]
      · rw [if_neg hle, if_neg (by omega)]
    · obtain ⟨hzero, hlastSlot⟩ := hwrap hin
      have hstart : (placement e.pid p e.elementLen).address = p.firstElementAddress := by
        rw [haddr, hk.start_eq, hzero, slotAt_zero]
      have hlt := slot_stop_le (e := e) (show 1 < e.slots - 1 by omega)
      have hgt' := stopOf_gt e (e.slotAt 1) e.elementLen
      rw [appended_metadata_start hstart, newMetadata_last, hfirst, hlatest, hlastSlot,
        if_neg (by omega), if_neg]
      intro hle
      rw [hmod (by omega)] at hzero
      omega

theorem Turned.appended {n : Nat} (data : List UInt8) (hk : Known D m e p) (hslots : 3 ≤ e.slots)
    (h : Turned e p base n) :
    Turned e (p.appended e.pid (placement e.pid p e.elementLen) e.elementLen data) base (n + 1) := by
  obtain ⟨haddr, hrec⟩ := h.placement_eq hk hslots
  refine ⟨fun hf => (by cases hf), fun _ => ⟨Nat.succ_pos _, ?_, rfl, ?_,
    h.last_appended data hk hslots⟩⟩
  · rw [appended_latest, haddr, Nat.add_sub_cancel]
  · rw [appended_recordId, hrec, Nat.add_sub_cancel]

/-! ## The invariant -/

/-- No element has the identifier in the slot's header. -/
def Blanked (m : Nat → UInt8) (e : Extent) (j : Nat) : Prop :=
  (headerOf m e.pid (e.dataAt (e.slotAt j) - getElementHeaderLen e.pid)).recordId = 0xFFFF

/-- How many of the latest elements stand in their slots for sure: where identifiers come
round with the slots, the header of the oldest element looks like the one after the latest. -/
def Extent.window (e : Extent) : Nat := if 65534 ∣ e.slots then e.slots - 1 else e.slots

theorem window_bounds (e : Extent) : e.slots - 1 ≤ e.window ∧ e.window ≤ e.slots := by
  unfold Extent.window
  split <;> omega

theorem window_eq (h : ¬ 65534 ∣ e.slots) : e.window = e.slots := if_neg h

/-- The elements of `log`, the latest first, are the ones stored since the partition was
empty; the latest of them stand in their slots, and the header of the oldest may be blank. -/
structure Recent (m : Nat → UInt8) (e : Extent) (p : Partition) (base : Nat)
    (log : List Element) : Prop where
  fresh : p.hasFirstElement = false → log = [] ∧ p.latestElementRecordId = recordIdOf base
  stored : p.hasFirstElement = true → 0 < log.length ∧
    p.latestElementAddress = e.slotAt ((log.length - 1) % e.slots) ∧
    p.latestElementLen = e.elementLen ∧
    p.latestElementRecordId = recordIdOf (base + (log.length - 1)) ∧
    p.metadata.lastElementAddress =
      if log.length ≤ e.slots then e.start else e.slotAt (e.slots - 1)
  slots : ∀ k el, log[k]? = some el → k < e.slots →
    el.2 = recordIdOf (base + (log.length - 1 - k)) ∧
      ((∃ link, Stands m e (e.slotAt ((log.length - 1 - k) % e.slots)) link el) ∨
        (e.window ≤ k ∧ Blanked m e ((log.length - 1 - k) % e.slots)))

theorem Recent.turned (h : Recent m e p base log) : Turned e p base log.length :=
  ⟨fun hf => ⟨List.length_eq_zero_iff.mpr (h.fresh hf).1, (h.fresh hf).2⟩, h.stored⟩

theorem Recent.stands (h : Recent m e p base log) {k : Nat} {el : Element}
    (hel : log[k]? = some el) (hk : k < e.window) :
    el.2 = recordIdOf (base + (log.length - 1 - k)) ∧
      ∃ link, Stands m e (e.slotAt ((log.length - 1 - k) % e.slots)) link el := by
  have hle := (window_bounds e).2
  obtain ⟨hid, hs | ⟨hge, -⟩⟩ := h.slots k el hel (by omega)
  · exact ⟨hid, hs⟩
  · omega

theorem Recent.frame (hk : Known D m e p) (hslots : 3 ≤ e.slots) (h : Recent m e p base log)
    (hm : ∀ x, e.Owns x → m' x = m x) : Recent m' e p base log := by
  refine ⟨h.fresh, h.stored, fun k el hel hlt => ?_⟩
  have hstop := slot_fits hk (Nat.mod_lt (log.length - 1 - k) (show 0 < e.slots by omega))
  have hge := slotAt_ge e ((log.length - 1 - k) % e.slots)
  obtain ⟨hid, ⟨link, hs⟩ | ⟨hw, hblank⟩⟩ := h.slots k el hel hlt
  · have hstop' := hs.stop_le
    exact ⟨hid, .inl ⟨link, hs.frame fun x hx hx' => hm x (.inl ⟨by omega, by omega⟩)⟩⟩
  · refine ⟨hid, .inr ⟨hw, ?_⟩⟩
    have hdata := dataAt_ge e (e.slotAt ((log.length - 1 - k) % e.slots))
    unfold Extent.stopOf at hstop
    rw [Blanked, ← hblank, headerOf_congr fun x hx hx' => hm x (.inl ⟨by omega, by omega⟩)]

/-! ## Stores -/

/-- A new element goes to the next slot, with the next identifier. -/
theorem Recent.placement_eq (hk : Known D m e p) (hslots : 3 ≤ e.slots)
    (h : Recent m e p base log) :
    (placement e.pid p e.elementLen).address = e.slotAt (log.length % e.slots) ∧
      (placement e.pid p e.elementLen).recordId = recordIdOf (base + log.length) :=
  h.turned.placement_eq hk hslots

theorem recordIdOf_inj {i j : Nat} (h : recordIdOf i = recordIdOf j) : i % 65534 = j % 65534 := by
  unfold recordIdOf at h
  omega

variable {data : List UInt8} {u v x : D.State}

/-- A store leaves the elements in the other slots, but blanks the header of the oldest one if
its identifier is the next one. -/
theorem Recent.slot_kept (hD : D.ByteUnits) (hk : Known D (D.byte u) e p)
    (hslots : 3 ≤ e.slots) (h : Recent (D.byte u) e p base log)
    (hd : isDynamic e.pid = false) (hq : Request D e.pid p e.elementLen data)
    (hrun : StoreRun D e.pid p (placement e.pid p e.elementLen) e.elementLen data u x v)
    {k : Nat} {el : Element} (hel : log[k]? = some el) (hlt : k + 1 < e.slots) :
    (∃ link, Stands (D.byte v) e (e.slotAt ((log.length - 1 - k) % e.slots)) link el) ∨
      (k + 2 = e.slots ∧ 65534 ∣ e.slots ∧
        Blanked (D.byte v) e ((log.length - 1 - k) % e.slots)) := by
  obtain ⟨hwge, -⟩ := window_bounds e
  obtain ⟨hid, link, hs⟩ := h.stands hel (by omega)
  obtain ⟨haddr, hrec⟩ := h.placement_eq hk hslots
  have hklt : k < log.length := by
    by_contra hge
    rw [List.getElem?_eq_none (Nat.not_lt.mp hge)] at hel
    cases hel
  have hge := slotAt_ge e ((log.length - 1 - k) % e.slots)
  have hkeeps : (∀ y, e.slotAt ((log.length - 1 - k) % e.slots) ≤ y →
      y < e.stopOf (e.slotAt ((log.length - 1 - k) % e.slots)) e.elementLen →
      D.byte v y = D.byte u y) →
      ∃ link, Stands (D.byte v) e (e.slotAt ((log.length - 1 - k) % e.slots)) link el := by
    intro hsame
    refine ⟨link, hs.frame fun y hy hy' => ?_⟩
    rw [hs.len_static hd] at hy'
    exact hsame y hy hy'
  rcases slot_cases (n := e.slots) (show log.length - 1 - k < log.length by omega) (by omega)
    with ⟨hfront, -⟩ | ⟨hbehind, hdiff⟩
  · have hle := slot_stop_le (e := e) hfront
    refine .inl (hkeeps fun y hy hy' => ?_)
    refine hrun.outside hq.ram hq.data_len hq.fits (.inl ?_) (hq.ram.outsideSwap ?_)
    · rw [haddr]
      omega
    · rw [hk.start_eq]
      omega
  · have hle := slot_stop_le (e := e) hbehind
    have hstop : stopOf e.pid p (placement e.pid p e.elementLen).address e.elementLen =
        e.slotAt (log.length % e.slots + 1) := by
      rw [stopOf_extent hk.start_eq, haddr, slotAt_succ]
    have hbytes := fun y (hy : e.slotAt (log.length % e.slots + 1) ≤ y) =>
      hrun.behind hD hq (x := y) (by rw [hstop]; exact hy)
    rw [hstop] at hbytes
    by_cases hfollows : Follows (D.byte u) e.pid p (placement e.pid p e.elementLen).address
        (placement e.pid p e.elementLen).recordId e.elementLen
    · by_cases hnext : (log.length - 1 - k) % e.slots = log.length % e.slots + 1
      · rw [hnext] at hs ⊢
        have hdata : e.dataAt (e.slotAt (log.length % e.slots + 1)) - getElementHeaderLen e.pid =
            e.slotAt (log.length % e.slots + 1) :=
          dataAt_next (Nat.ne_of_gt (slotAt_gt (Nat.succ_ne_zero _)))
        have hread := hs.recordId_eq
        rw [hdata, hid] at hread
        have hfid := hfollows.1
        rw [hstop, hread, hrec, increment_recordIdOf] at hfid
        have hmod := recordIdOf_inj hfid
        refine .inr ⟨by omega, by omega, ?_⟩
        rw [Blanked, hdata]
        have hH := elementHeaderLen_bounds e.pid
        rw [headerOf_recordId, hbytes _ (Nat.le_refl _), hbytes _ (Nat.le_succ _),
          if_pos ⟨hfollows, by omega⟩, if_pos ⟨hfollows, by omega⟩]
        rfl
      · have hle' := slot_stop_le (e := e)
          (show log.length % e.slots + 1 < (log.length - 1 - k) % e.slots by omega)
        have hdata := dataAt_ge e (e.slotAt (log.length % e.slots + 1))
        refine .inl (hkeeps fun y hy _ => ?_)
        unfold Extent.stopOf at hle'
        rw [hbytes y (by omega), if_neg fun hc => by have hlt' := hc.2; omega]
    · refine .inl (hkeeps fun y hy _ => ?_)
      rw [← slotAt_succ] at hle
      rw [hbytes y (by omega), if_neg fun hc => hfollows hc.1]

theorem Recent.store (hD : D.ByteUnits) (hd : isDynamic e.pid = false) (hslots : 3 ≤ e.slots)
    (hk : Known D s.bytes e (s.part e.pid))
    (h : Recent s.bytes e (s.part e.pid) base log) {elementData : Nat → UInt8}
    {elementLen : Nat} (hlen : elementLen < 2 ^ 16)
    (hstore : storeElement e.pid elementData elementLen s = (.ok (), t)) :
    Recent t.bytes e (t.part e.pid) base
      ((storedData e.pid (s.part e.pid) elementData elementLen,
        (storedAt e.pid (s.part e.pid) elementLen).recordId) :: log) := by
  obtain ⟨len, data, x, hl, hdata, hq, hrun, hpart, -, -⟩ := hk.store hlen hstore
  unfold storedAt
  rw [← hl, ← hdata]
  have hstatic : len = e.elementLen := (hq.static_len hd).trans (hk.len_eq hd)
  subst hstatic
  obtain ⟨haddr, hrec⟩ := h.placement_eq hk hslots
  have hlast := h.turned.last_appended data hk hslots
  rw [hpart]
  refine ⟨nofun, fun _ => ⟨Nat.succ_pos _, ?_, rfl, ?_, ?_⟩, fun k el hel hkw => ?_⟩
  · rw [appended_latest, haddr, List.length_cons, Nat.add_sub_cancel]
  · rw [appended_recordId, hrec, List.length_cons, Nat.add_sub_cancel]
  · rw [hlast, List.length_cons]
  · rw [List.length_cons, Nat.add_sub_cancel]
    cases k with
    | zero =>
      cases hel
      have hs := hq.stands hk.start_eq hk.size_eq hk.len_eq hrun.appended
      rw [haddr] at hs
      exact ⟨hrec, .inl ⟨_, hs⟩⟩
    | succ k =>
      rw [List.getElem?_cons_succ] at hel
      have hid := (h.slots k el hel (Nat.lt_of_succ_lt hkw)).1
      have hkept := h.slot_kept hD hk hslots hd hq hrun hel hkw
      rw [show log.length - (k + 1) = log.length - 1 - k by omega]
      refine ⟨hid, hkept.imp_right fun hblank => ⟨?_, hblank.2.2⟩⟩
      obtain ⟨hlast, hdvd, -⟩ := hblank
      rw [Extent.window, if_pos hdvd]
      omega

/-! ## Walks -/

/-- The header of an element in a static partition has no link. -/
theorem Stands.relink {a link link' : Nat} {el : Element} (hs : Stands m e a link el)
    (hd : isDynamic e.pid = false) (hlink : link' < 2 ^ 16) : Stands m e a link' el := by
  have hheader : serializeElementHeader e.pid (el.header link') =
      serializeElementHeader e.pid (el.header link) := by
    unfold serializeElementHeader
    rw [hd]
    rfl
  exact ⟨hs.address, hs.header.trans hheader.symm, hs.data, hs.stop_le, hs.len_lt, hlink,
    hs.recordId, hs.len_static⟩

/-- The slot in front of another one. -/
def Extent.slotBefore (e : Extent) (j : Nat) : Nat := if j = 0 then e.slots - 1 else j - 1

theorem slotBefore_mod {i : Nat} (hslots : 2 ≤ e.slots) (hi : 0 < i) :
    e.slotBefore (i % e.slots) = (i - 1) % e.slots := by
  obtain ⟨hnext, hwrap⟩ := slot_next hslots hi
  unfold Extent.slotBefore
  by_cases hin : (i - 1) % e.slots + 2 ≤ e.slots
  · rw [hnext hin, if_neg (Nat.succ_ne_zero _), Nat.add_sub_cancel]
  · rw [(hwrap hin).1, if_pos rfl, (hwrap hin).2]

theorem slotBefore_lt {j : Nat} (hslots : 2 ≤ e.slots) (hj : j < e.slots) :
    e.slotBefore j < e.slots := by
  unfold Extent.slotBefore
  split <;> omega

/-- A step back from a slot, if there is a round before the current one behind the start. -/
theorem Recent.previous_eq (hk : Known D s.bytes e (s.part e.pid))
    (hf : (s.part e.pid).hasFirstElement = true) (hd : isDynamic e.pid = false)
    (hslots : 3 ≤ e.slots) (h : Recent s.bytes e (s.part e.pid) base log) {j link : Nat}
    {el : Element} (hj : j < e.slots) (hs : Stands s.bytes e (e.slotAt j) link el)
    (hround : j = 0 → e.slots < log.length) :
    iteratorPrevious e.pid (s.setIter e.pid (e.iteratorAt s.bytes (e.slotAt j) e.elementLen)) =
      if (headerOf s.bytes e.pid
          (e.dataAt (e.slotAt (e.slotBefore j)) - getElementHeaderLen e.pid)).recordId =
        decrementRecordId el.2 then
        (.ok (), s.setIter e.pid
          (e.iteratorAt s.bytes (e.slotAt (e.slotBefore j)) e.elementLen))
      else (.error .notFound,
        s.setIter e.pid (e.iteratorAt s.bytes (e.slotAt j) e.elementLen)) := by
  have hlen := hs.len_static hd
  have hxor : e.elementLen ^^^ el.1.length < 2 ^ 16 := by
    rw [hlen, Nat.xor_self]
    exact Nat.two_pow_pos 16
  have hs' := hs.relink hd hxor
  have hsize := hk.ram.size_ge
  rw [hk.size_eq] at hsize
  have hfits := (e.fits_iff e.slots (by omega)).mpr (Nat.le_refl _)
  have hbefore := slotBefore_lt (by omega) hj
  have hstop := slot_stop e (e.slotBefore j)
  have hmul := Nat.mul_le_mul_right e.slotSize (show e.slotBefore j + 1 ≤ e.slots from hbefore)
  have hdata := dataAt_ge e (e.slotAt (e.slotBefore j))
  have hfit : e.slotAt (e.slotBefore j) + getElementHeaderLen e.pid + e.elementLen ≤
      e.start + e.size := by
    unfold Extent.stopOf at hstop
    omega
  rw [← hlen] at hfit ⊢
  by_cases hzero : j = 0
  · subst hzero
    obtain ⟨-, -, -, -, hlast⟩ := h.stored hf
    rw [if_neg (Nat.not_le.mpr (hround rfl))] at hlast
    have hgt := slotAt_gt (e := e) (show e.slots - 1 ≠ 0 by omega)
    have htarget : previousAddress e.pid (s.part e.pid)
        (e.iteratorAt s.bytes (e.slotAt 0) el.1.length) = e.slotAt (e.slotBefore 0) := by
      unfold previousAddress Extent.slotBefore
      rw [hk.start_eq, slotAt_zero, hlast]
      exact if_pos (Nat.le_refl e.start)
    rw [← hlen] at hs'
    exact hs'.previous hk hf (fun _ => hlen) htarget hfit (by omega)
  · have hbefore_eq : e.slotBefore j = j - 1 := if_neg hzero
    have haddr : e.slotAt j = e.stopOf (e.slotAt (e.slotBefore j)) el.1.length := by
      rw [hbefore_eq, hlen, ← slotAt_succ, Nat.sub_add_cancel (Nat.pos_of_ne_zero hzero)]
    have hgt := slotAt_gt (e := e) hzero
    rw [← hlen, haddr] at hs'
    have haddress : e.slotAt (e.slotBefore j) = e.start ∨
        e.start + metadataSize + getElementHeaderLen e.pid ≤ e.slotAt (e.slotBefore j) := by
      by_cases hfirst : e.slotBefore j = 0
      · rw [hfirst]
        exact .inl (slotAt_zero e)
      · have hone := Nat.mul_le_mul_right e.slotSize (Nat.pos_of_ne_zero hfirst)
        rw [slotAt_pos hfirst]
        unfold Extent.slotSize at hone ⊢
        omega
    have htarget := hs'.previousAddress_eq hk (fun _ => hlen) haddress
    rw [haddr] at hgt ⊢
    exact hs'.previous hk hf (fun _ => hlen) htarget hfit (by omega)

/-- The walk from the element `k` stores before the latest one returns it and the older ones,
if the step back from the last of them fails. -/
theorem Recent.returns (hk : Known D s.bytes e (s.part e.pid))
    (hf : (s.part e.pid).hasFirstElement = true) (hd : isDynamic e.pid = false)
    (hslots : 3 ≤ e.slots) (h : Recent s.bytes e (s.part e.pid) base log) {n : Nat}
    (hn : n < e.window) (hnlt : n < log.length)
    (hend : iteratorPrevious e.pid (s.setIter e.pid (e.iteratorAt s.bytes
        (e.slotAt ((log.length - 1 - n) % e.slots)) e.elementLen)) =
      (.error .notFound, s.setIter e.pid (e.iteratorAt s.bytes
        (e.slotAt ((log.length - 1 - n) % e.slots)) e.elementLen))) :
    ∀ r k, k + r = n → Returns s e (e.slotAt ((log.length - 1 - k) % e.slots)) e.elementLen
      ((log.drop k).take (r + 1)) := by
  intro r
  induction r with
  | zero =>
    intro k hkn
    obtain rfl : k = n := hkn
    obtain ⟨-, link, hs⟩ := h.stands (List.getElem?_eq_getElem hnlt) hn
    rw [List.drop_eq_getElem_cons hnlt, ← hs.len_static hd]
    rw [← hs.len_static hd] at hend
    exact returns_last hk hf hs hend
  | succ r ih =>
    intro k hkn
    have hklt : k < log.length := by omega
    have hklt' : k + 1 < log.length := by omega
    obtain ⟨hid, link, hs⟩ := h.stands (List.getElem?_eq_getElem hklt) (by omega)
    obtain ⟨hid', link', hs'⟩ := h.stands (List.getElem?_eq_getElem hklt')
      (by omega)
    have hidx : log.length - 1 - (k + 1) = log.length - 1 - k - 1 := by omega
    have hbefore := slotBefore_mod (e := e) (i := log.length - 1 - k) (by omega) (by omega)
    have hround : (log.length - 1 - k) % e.slots = 0 → e.slots < log.length := by
      intro hzero
      by_contra hle
      rw [Nat.mod_eq_of_lt (by omega)] at hzero
      omega
    have hstep := h.previous_eq hk hf hd hslots (Nat.mod_lt _ (by omega)) hs hround
    rw [hbefore, ← hidx, hs'.recordId_eq, hid, hid', hidx] at hstep
    rw [show base + (log.length - 1 - k) = base + (log.length - 1 - k - 1) + 1 by omega,
      decrement_recordIdOf, if_pos rfl, ← hidx] at hstep
    have hrest := ih (k + 1) (by omega)
    rw [List.drop_eq_getElem_cons hklt, List.take_succ_cons, ← hs.len_static hd]
    rw [← hs.len_static hd] at hstep hrest
    exact returns_step hk hf hs hstep hrest

/-- Unless identifiers come round with the slots, the walk ends at the oldest element. -/
theorem Recent.previous_oldest (hk : Known D s.bytes e (s.part e.pid))
    (hf : (s.part e.pid).hasFirstElement = true) (hd : isDynamic e.pid = false)
    (hslots : 3 ≤ e.slots) (hdvd : ¬ 65534 ∣ e.slots)
    (h : Recent s.bytes e (s.part e.pid) base log) :
    iteratorPrevious e.pid (s.setIter e.pid (e.iteratorAt s.bytes
        (e.slotAt ((log.length - 1 - (min log.length e.slots - 1)) % e.slots)) e.elementLen)) =
      (.error .notFound, s.setIter e.pid (e.iteratorAt s.bytes
        (e.slotAt ((log.length - 1 - (min log.length e.slots - 1)) % e.slots)) e.elementLen)) := by
  obtain ⟨hpos, -, -, -, hlast⟩ := h.stored hf
  have hwindow := window_eq hdvd
  have hklt : min log.length e.slots - 1 < log.length := by omega
  obtain ⟨hid, link, hs⟩ := h.stands (List.getElem?_eq_getElem hklt) (by omega)
  by_cases hle : log.length ≤ e.slots
  · rw [if_pos hle] at hlast
    rw [show log.length - 1 - (min log.length e.slots - 1) = 0 by omega, Nat.zero_mod,
      slotAt_zero] at hs ⊢
    have hnone := hs.previous_none hk hf (Nat.le_of_eq hlast)
    rw [hs.len_static hd] at hnone
    exact hnone
  · obtain ⟨hid₀, link₀, hs₀⟩ := h.stands (List.getElem?_eq_getElem hpos) (by omega)
    have hidx : log.length - 1 - (min log.length e.slots - 1) = log.length - e.slots := by omega
    rw [hidx] at hs hid ⊢
    have hbefore := slotBefore_mod (e := e) (i := log.length - e.slots) (by omega) (by omega)
    have hlatest : (log.length - 1) % e.slots = (log.length - e.slots - 1) % e.slots := by
      rw [show log.length - 1 = log.length - e.slots - 1 + e.slots by omega, Nat.add_mod_right]
    have hstep := h.previous_eq hk hf hd hslots (Nat.mod_lt _ (by omega)) hs (by omega)
    rw [Nat.sub_zero, hlatest] at hs₀
    rw [hbefore, hs₀.recordId_eq, hid₀, hid,
      show base + (log.length - e.slots) = base + (log.length - e.slots - 1) + 1 by omega,
      decrement_recordIdOf, if_neg] at hstep
    · exact hstep
    · intro heq
      have hmod := recordIdOf_inj heq
      omega

theorem Recent.init (hk : Known D s.bytes e (s.part e.pid))
    (hf : (s.part e.pid).hasFirstElement = true) (hslots : 3 ≤ e.slots)
    (h : Recent s.bytes e (s.part e.pid) base log) :
    iteratorInit e.pid s = (.ok (), s.setIter e.pid (e.iteratorAt s.bytes
      (e.slotAt ((log.length - 1) % e.slots)) e.elementLen)) := by
  obtain ⟨hpos, haddr, hlen, -, -⟩ := h.stored hf
  obtain ⟨hwge, -⟩ := window_bounds e
  obtain ⟨-, link, hs⟩ := h.stands (List.getElem?_eq_getElem hpos) (by omega)
  rw [Nat.sub_zero, ← haddr] at hs
  have hinit := hs.init hk hf
  rw [haddr, hlen] at hinit
  exact hinit

/-- A walk back returns the elements in the slots. -/
theorem Recent.readBack_eq (hk : Known D s.bytes e (s.part e.pid))
    (hf : (s.part e.pid).hasFirstElement = true) (hd : isDynamic e.pid = false)
    (hslots : 3 ≤ e.slots) (hdvd : ¬ 65534 ∣ e.slots)
    (h : Recent s.bytes e (s.part e.pid) base log) {fuel : Nat}
    (hfuel : log.length ≤ fuel) :
    (readBack e.pid fuel s).1 = .ok (log.take e.slots, some .notFound) := by
  obtain ⟨hpos, -, -, -, -⟩ := h.stored hf
  have hwindow := window_eq hdvd
  have hret := h.returns hk hf hd hslots (n := min log.length e.slots - 1) (by omega) (by omega)
    (h.previous_oldest hk hf hd hslots hdvd) (min log.length e.slots - 1) 0 (Nat.zero_add _)
  rw [List.drop_zero, Nat.sub_zero, Nat.sub_add_cancel (by omega), Nat.min_comm,
    ← List.take_eq_take_min] at hret
  obtain ⟨t, ht⟩ := hret fuel (by rw [List.length_take]; omega)
  unfold readBack
  rw [Proc.bind_ok (h.init hk hf hslots), ht]

/-! ## Where identifiers come round with the slots -/

/-- The store behind a full round blanks the header of the oldest element. -/
theorem Recent.blanks (hD : D.ByteUnits) (hd : isDynamic e.pid = false) (hslots : 3 ≤ e.slots)
    (hdvd : 65534 ∣ e.slots) (hk : Known D s.bytes e (s.part e.pid))
    (h : Recent s.bytes e (s.part e.pid) base log) (hfull : e.slots ≤ log.length)
    (hbehind : log.length % e.slots + 2 ≤ e.slots) {elementData : Nat → UInt8} {elementLen : Nat}
    (hlen : elementLen < 2 ^ 16) (hstore : storeElement e.pid elementData elementLen s = (.ok (), t)) :
    Blanked t.bytes e (log.length % e.slots + 1) := by
  obtain ⟨len, data, x, -, -, hq, hrun, -, -, -⟩ := hk.store hlen hstore
  obtain rfl : len = e.elementLen := (hq.static_len hd).trans (hk.len_eq hd)
  obtain ⟨haddr, hrec⟩ := h.placement_eq hk hslots
  obtain ⟨hwge, -⟩ := window_bounds e
  have hstop : stopOf e.pid (s.part e.pid) (placement e.pid (s.part e.pid) e.elementLen).address
      e.elementLen = e.slotAt (log.length % e.slots + 1) := by
    rw [stopOf_extent hk.start_eq, haddr, slotAt_succ]
  have hdata : e.dataAt (e.slotAt (log.length % e.slots + 1)) - getElementHeaderLen e.pid =
      e.slotAt (log.length % e.slots + 1) :=
    dataAt_next (Nat.ne_of_gt (slotAt_gt (Nat.succ_ne_zero _)))
  have hklt : e.slots - 2 < log.length := by omega
  obtain ⟨hid, link, hs⟩ := h.stands (List.getElem?_eq_getElem hklt) (by omega)
  have hmod : (log.length - 1 - (e.slots - 2)) % e.slots = log.length % e.slots + 1 := by
    have hnext := (slot_next (n := e.slots) (i := log.length + 1) (by omega) (by omega)).1 hbehind
    rw [show log.length - 1 - (e.slots - 2) = log.length + 1 - e.slots by omega,
      ← Nat.add_mod_right, Nat.sub_add_cancel (by omega)]
    exact hnext
  have hfollows : Follows s.bytes e.pid (s.part e.pid)
      (placement e.pid (s.part e.pid) e.elementLen).address
      (placement e.pid (s.part e.pid) e.elementLen).recordId e.elementLen := by
    have hread := hs.recordId_eq
    have hfits := slot_fits hk (show log.length % e.slots + 1 < e.slots by omega)
    have hge := dataAt_ge e (e.slotAt (log.length % e.slots + 1))
    rw [hmod, hdata] at hread
    unfold Extent.stopOf at hfits
    refine ⟨?_, ?_⟩
    · rw [hstop, hread, hid, hrec, increment_recordIdOf]
      unfold recordIdOf
      omega
    · rw [hstop, neighbourLen, hd, hk.start_eq, hk.size_eq]
      simp only [Bool.false_eq_true, if_false]
      rw [hk.len_eq hd]
      omega
  have hH := elementHeaderLen_bounds e.pid
  have hbytes := fun y (hy : e.slotAt (log.length % e.slots + 1) ≤ y) =>
    hrun.behind hD hq (x := y) (by rw [hstop]; exact hy)
  rw [hstop] at hbytes
  change (headerOf (D.byte t.dev) e.pid _).recordId = 0xFFFF
  rw [hdata, headerOf_recordId, hbytes _ (Nat.le_refl _), hbytes _ (Nat.le_succ _),
    if_pos ⟨hfollows, by omega⟩, if_pos ⟨hfollows, by omega⟩]
  rfl

/-- A walk back ends in front of a blank header. -/
theorem Recent.readBack_blanked (hk : Known D s.bytes e (s.part e.pid))
    (hf : (s.part e.pid).hasFirstElement = true) (hd : isDynamic e.pid = false)
    (hslots : 3 ≤ e.slots) (h : Recent s.bytes e (s.part e.pid) base log) {n j : Nat}
    (hn : n < e.window) (hnlt : n < log.length) (hj : (log.length - 1 - n) % e.slots = j + 1)
    (hblank : Blanked s.bytes e j) {fuel : Nat} (hfuel : log.length ≤ fuel) :
    (readBack e.pid fuel s).1 = .ok (log.take (n + 1), some .notFound) := by
  obtain ⟨hid, link, hs⟩ := h.stands (List.getElem?_eq_getElem hnlt) hn
  have hstep := h.previous_eq hk hf hd hslots (Nat.mod_lt _ (by omega)) hs
    fun hzero => absurd (hj.symm.trans hzero) (Nat.succ_ne_zero j)
  have hbefore : e.slotBefore ((log.length - 1 - n) % e.slots) = j := by
    rw [hj, Extent.slotBefore, if_neg (Nat.succ_ne_zero j), Nat.add_sub_cancel]
  have hrec : IsRecordId (decrementRecordId log[n].2) :=
    isRecordId_decrement (Nat.lt_of_le_of_lt hs.recordId.2 (by decide))
  rw [hbefore, hblank, if_neg fun heq => absurd (heq ▸ hrec.2) (by decide)] at hstep
  have hret := h.returns hk hf hd hslots hn hnlt hstep n 0 (Nat.zero_add _)
  rw [List.drop_zero, Nat.sub_zero] at hret
  obtain ⟨t, ht⟩ := hret fuel (by rw [List.length_take]; omega)
  unfold readBack
  rw [Proc.bind_ok (h.init hk hf hslots), ht]

end OpenBadge.Filesystem
