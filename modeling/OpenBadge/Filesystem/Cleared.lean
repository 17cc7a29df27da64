import OpenBadge.Filesystem.Recent

/-!
# Cleared elements do not come back

Whatever is called on a static partition in storage with byte units, an iterator that passes
the check of its validity is in a slot that was written since the last clear, and a walk
from the latest element returns the elements stored since then, as many as there are slots.
-/

namespace OpenBadge.Filesystem

open OpenBadge.Lib OpenBadge.Storage
open Proc (Keeps)

variable {D : Device} {s t : State D} {e : Extent} {pid : Nat} {log : List Element} {base : Nat}

/-! ## Calls in a state in sync -/

theorem setIter_self (s : State D) (pid : Nat) : s.setIter pid (s.iter pid) = s := by
  rw [State.setIter, State.iter, Function.update_eq_self]

/-- An iterator passes the check if its element's header is the one in storage. -/
theorem iteratorCheckValidity_ok (hs : Sync s pid) {x : Unit}
    (h : iteratorCheckValidity pid s = (.ok x, t)) :
    t = s ∧ (s.iter pid).iteratorValid = iteratorValidNumber ∧
      (s.part pid).hasFirstElement = true ∧
      ∃ hd, foundAt D s.bytes pid (s.part pid) (s.iter pid).curElementAddress = .ok hd ∧
        hd.recordId = (s.iter pid).curElementHeader.recordId ∧
        (hasElementCrc pid = true → hd.elementCrc = (s.iter pid).curElementHeader.elementCrc) := by
  rw [iteratorCheckValidity, getIterator_bind] at h
  obtain ⟨_, s₁, hvalid, h₁⟩ := Proc.bind_eq_ok.mp h
  obtain ⟨hnumber, hs₁⟩ := Proc.failIf_eq_ok.mp hvalid
  rw [hs₁, getPartition_bind] at h₁
  obtain ⟨_, s₂, hfirst, h₂⟩ := Proc.bind_eq_ok.mp h₁
  obtain ⟨hf, hs₂⟩ := when_lost hfirst
  rw [hs₂, Proc.attempt_bind_apply, readElementHeader_found hs] at h₂
  rcases hread : foundAt D s.bytes pid (s.part pid) (s.iter pid).curElementAddress with r | hd
  · rw [hread] at h₂
    cases r <;> cases h₂
  · rw [hread] at h₂
    obtain ⟨hsame, ht⟩ := when_lost h₂
    refine ⟨ht, not_not.mp hnumber, Bool.of_not_eq_false hf, hd, rfl, ?_, fun hcrc => ?_⟩
    · by_contra hne
      exact hsame (.inl hne)
    · by_contra hne
      exact hsame (.inr (.inl ⟨hcrc, hne⟩))

/-- `filesystem_iterator_next` up to the assignments to the iterator. -/
def nextFound (pid : Nat) : Fs D (Nat × Nat × ElementHeader) := do
  iteratorCheckValidity pid
  let it ← getIterator pid
  let (next, h) ← getNextElementHeader pid it.curElementAddress it.curElementHeader.recordId
    it.curElementLen
  let p ← getPartition pid
  pure (next, neighbourLen pid p it.curElementLen h.previousLenXorCurLen, h)

theorem iteratorNext_eq (pid : Nat) : (iteratorNext pid : Fs D Unit) =
    nextFound pid >>= fun x => modifyIterator pid fun it =>
      { it with curElementAddress := x.1, curElementLen := x.2.1, curElementHeader := x.2.2 } := by
  unfold iteratorNext nextFound
  simp only [Proc.bind_assoc]
  rfl

theorem nextFound_sameButIter (hs : Sync s pid) : Keeps (SameButIter pid s) (nextFound pid) := by
  refine (iteratorCheckValidity_sameButIter hs).bind fun _ => (getIterator_keeps _).bind fun it => ?_
  refine Keeps.bind ?_ fun x => Keeps.bind (fun _ ht => ht) fun p => Keeps.pure _ _
  refine Keeps.bind (fun _ ht => ht) fun p => (readElementHeader_sameButIter hs _).bind fun h => ?_
  refine Keeps.bind (fun _ ht => ht) fun p' => ?_
  split
  · exact Keeps.pure _ _
  · refine Keeps.bind (fun _ ht => ht) fun p'' => ?_
    refine (readElementHeader_sameButIter hs _).bind fun h' => ?_
    exact (Keeps.failIf _ _ _).bind fun _ => Keeps.pure _ _

theorem previousFound_sameButIter (hs : Sync s pid) :
    Keeps (SameButIter pid s) (previousFound pid) := by
  refine (iteratorCheckValidity_sameButIter hs).bind fun _ => (getIterator_keeps _).bind fun it => ?_
  refine Keeps.bind ?_ fun x => Keeps.bind (fun _ ht => ht) fun p => ?_
  · refine Keeps.bind (fun _ ht => ht) fun p => ?_
    split
    · refine (Keeps.failIf _ _ _).bind fun _ => (readElementHeader_sameButIter hs _).bind fun h => ?_
      exact (Keeps.failIf _ _ _).bind fun _ => Keeps.pure _ _
    · refine (readElementHeader_sameButIter hs _).bind fun h => ?_
      refine Keeps.bind (fun _ ht => ht) fun p' => ?_
      refine (readElementHeader_sameButIter hs _).bind fun h' => ?_
      exact (Keeps.failIf _ _ _).bind fun _ => Keeps.pure _ _
  · exact (Keeps.failIf _ _ _).bind fun _ => Keeps.pure _ _

theorem iteratorReadElement_sameButIter (hs : Sync s pid) :
    Keeps (SameButIter pid s) (iteratorReadElement pid) := by
  refine (iteratorCheckValidity_sameButIter hs).bind fun _ => ?_
  refine Keeps.bind (fun _ ht => ht) fun p => (getIterator_keeps _).bind fun it => ?_
  refine ((storageRead_keeps _ _ _).orFail _).bind fun data => ?_
  exact (Keeps.failIf _ _ _).bind fun _ => Keeps.pure _ _

/-- An empty partition has no element for an iterator. -/
theorem iteratorInit_empty (hf : (s.part pid).hasFirstElement = false) :
    (iteratorInit pid s).1 = .error .invalidState := by
  rw [iteratorInit, iteratorInvalidate, Proc.bind_ok (modifyIterator_apply _), getPartition_bind,
    setIter_part, Proc.failIf_bind_pos hf]

/-- A call that fails before it assigns to the iterator moves it nowhere. -/
theorem bind_modifyIterator_error {α : Type} {x : Fs D α} {f : α → PartitionIterator → PartitionIterator}
    (hx : Keeps (SameButIter pid s) x) {r : RetCode}
    (h : (x >>= fun a => modifyIterator pid (f a)) s = (.error r, t)) : SameButIter pid s t := by
  have hkeeps := hx s (.inl rfl)
  rw [Proc.bind_apply] at h
  rcases hcall : x s with ⟨_ | a, u⟩
  · rw [hcall] at h hkeeps
    cases h
    exact hkeeps
  · rw [hcall] at h
    cases h

/-! ## Iterators -/

/-- A valid iterator is in a slot that was written since the last clear, with the header of an
element. -/
def InSlots (s : State D) (e : Extent) (log : List Element) : Prop :=
  (s.iter e.pid).iteratorValid = iteratorValidNumber → (s.part e.pid).hasFirstElement = true →
    ∃ j, j < log.length ∧ j < e.slots ∧ (s.iter e.pid).curElementAddress = e.slotAt j ∧
      (s.iter e.pid).curElementLen = e.elementLen ∧
      (s.iter e.pid).curElementHeader.kept e.pid = (s.iter e.pid).curElementHeader ∧
      IsRecordId (s.iter e.pid).curElementHeader.recordId

theorem InSlots.of_sameButIter (h : InSlots s e log) (hst : SameButIter e.pid s t) :
    InSlots t e log := by
  rcases hst with rfl | rfl
  · exact h
  · intro hvalid
    rw [State.lost, setIter_iter] at hvalid
    cases hvalid

theorem headerOf_kept (m : Nat → UInt8) (pid a : Nat) :
    (headerOf m pid a).kept pid = headerOf m pid a := by
  unfold headerOf deserializeElementHeader ElementHeader.kept
  cases isDynamic pid <;> cases hasElementCrc pid <;> rfl

/-- An element of the log is in the slot `j`. -/
def Holding (m : Nat → UInt8) (e : Extent) (base : Nat) (log : List Element) (j : Nat) (el : Element) :
    Prop :=
  ∃ k link, k < e.slots ∧ log[k]? = some el ∧ (log.length - 1 - k) % e.slots = j ∧
    el.2 = recordIdOf (base + (log.length - 1 - k)) ∧ Stands m e (e.slotAt j) link el

/-- Of the elements stored in one slot the latest one is among the last round's. -/
theorem slot_written {n c j : Nat} (hj : j < n) (hjc : j < c) :
    ∃ k, k < n ∧ k < c ∧ (c - 1 - k) % n = j := by
  by_cases hle : c ≤ n
  · refine ⟨c - 1 - j, by omega, by omega, ?_⟩
    rw [show c - 1 - (c - 1 - j) = j by omega, Nat.mod_eq_of_lt hj]
  · have hdiv := Nat.div_add_mod (c - 1) n
    have hlt := Nat.mod_lt (c - 1) (show 0 < n by omega)
    have hone : 1 ≤ (c - 1) / n := (Nat.one_le_div_iff (by omega)).mpr (by omega)
    have hpred : n * ((c - 1) / n - 1) + n = n * ((c - 1) / n) := by
      rw [← Nat.mul_succ, Nat.succ_eq_add_one, Nat.sub_add_cancel hone]
    by_cases hjc' : j ≤ (c - 1) % n
    · refine ⟨(c - 1) % n - j, by omega, by omega, ?_⟩
      rw [show c - 1 - ((c - 1) % n - j) = n * ((c - 1) / n) + j by omega, Nat.mul_add_mod,
        Nat.mod_eq_of_lt hj]
    · refine ⟨(c - 1) % n + n - j, by omega, by omega, ?_⟩
      rw [show c - 1 - ((c - 1) % n + n - j) = n * ((c - 1) / n - 1) + j by omega,
        Nat.mul_add_mod, Nat.mod_eq_of_lt hj]

/-- In a slot written since the last clear, with the header of an element, is one of the log. -/
theorem Recent.holding {m : Nat → UInt8} {p : Partition} (h : Recent m e p base log) {j : Nat}
    (hj : j < log.length) (hj' : j < e.slots)
    (hid : IsRecordId (headerOf m e.pid (e.dataAt (e.slotAt j) - getElementHeaderLen e.pid)).recordId) :
    ∃ el, Holding m e base log j el := by
  obtain ⟨k, hk, hklt, hmod⟩ := slot_written hj' hj
  obtain ⟨hrec, ⟨link, hs⟩ | ⟨-, hblank⟩⟩ := h.slots k _ (List.getElem?_eq_getElem hklt) hk
  · rw [hmod] at hs
    exact ⟨_, k, link, hk, List.getElem?_eq_getElem hklt, hmod, hrec, hs⟩
  · rw [Blanked, hmod] at hblank
    rw [hblank] at hid
    exact absurd hid.2 (by decide)

theorem Known.foundAt_eq (hk : Known D s.bytes e (s.part e.pid))
    (hf : (s.part e.pid).hasFirstElement = true) {a : Nat}
    (ha : a + getElementHeaderLen e.pid ≤ D.size) :
    foundAt D s.bytes e.pid (s.part e.pid) a =
      .ok (headerOf s.bytes e.pid (e.dataAt a - getElementHeaderLen e.pid)) := by
  have hread := readElementHeader_found hk.sync a
  have hD := size_lt D
  rw [readElementHeader_sync hk.sync (by omega), hk.headerAt_eq hf ha] at hread
  exact (congrArg Prod.fst hread).symm

/-- An iterator that passes the check points to an element of the log, with the header that
stands in storage. -/
theorem InSlots.checked (hk : Known D s.bytes e (s.part e.pid)) (hd : isDynamic e.pid = false)
    (h : Recent s.bytes e (s.part e.pid) base log) (hin : InSlots s e log) {x : Unit}
    (hcheck : iteratorCheckValidity e.pid s = (.ok x, t)) :
    t = s ∧ (s.part e.pid).hasFirstElement = true ∧ ∃ j el, j < log.length ∧ j < e.slots ∧
      Holding s.bytes e base log j el ∧
      s.iter e.pid = e.iteratorAt s.bytes (e.slotAt j) e.elementLen := by
  obtain ⟨ht, hvalid, hf, hd₁, hfound, hid, hcrc⟩ := iteratorCheckValidity_ok hk.sync hcheck
  obtain ⟨j, hj, hj', haddr, hlen, hkept, hrec⟩ := hin hvalid hf
  have hstop := slot_fits hk hj'
  have hdata := dataAt_ge e (e.slotAt j)
  have hle := hk.ram.stop_le
  rw [hk.start_eq, hk.size_eq] at hle
  unfold Extent.stopOf at hstop
  rw [haddr, hk.foundAt_eq hf (by omega)] at hfound
  cases hfound
  rw [← hid] at hrec
  obtain ⟨el, hel⟩ := h.holding hj hj' hrec
  refine ⟨ht, hf, j, el, hj, hj', hel, ?_⟩
  have hheader : (s.iter e.pid).curElementHeader =
      headerOf s.bytes e.pid (e.dataAt (e.slotAt j) - getElementHeaderLen e.pid) := by
    rw [← hkept, ← headerOf_kept s.bytes]
    unfold ElementHeader.kept
    rw [hid, hd]
    cases hc : hasElementCrc e.pid with
    | true => simp [hcrc hc]
    | false => rfl
  rw [Extent.iteratorAt, ← hheader, ← haddr, ← hlen, ← hvalid]

/-- From `s` to `t` the iterator moved to an element of the log. -/
def Visiting (s t : State D) (e : Extent) (base : Nat) (log : List Element) : Prop :=
  ∃ j el, j < log.length ∧ j < e.slots ∧ Holding s.bytes e base log j el ∧
    t = s.setIter e.pid (e.iteratorAt s.bytes (e.slotAt j) e.elementLen)

theorem Visiting.inSlots (h : Visiting s t e base log) : InSlots t e log := by
  obtain ⟨j, el, hj, hj', ⟨k, link, -, -, -, -, hs⟩, rfl⟩ := h
  intro _ _
  rw [setIter_iter]
  refine ⟨j, hj, hj', rfl, rfl, headerOf_kept _ _ _, ?_⟩
  change IsRecordId (headerOf _ _ _).recordId
  rw [hs.recordId_eq]
  exact hs.recordId

section

variable (hk : Known D s.bytes e (s.part e.pid)) (hd : isDynamic e.pid = false)
  (h : Recent s.bytes e (s.part e.pid) base log) (hin : InSlots s e log)

include hk hd h hin

/-- What the iterator reads is the element in its slot. -/
theorem Recent.read {el : Element} (hread : iteratorReadElement e.pid s = (.ok el, t)) :
    t = s ∧ ∃ j, j < log.length ∧ j < e.slots ∧ Holding s.bytes e base log j el ∧
      s.iter e.pid = e.iteratorAt s.bytes (e.slotAt j) e.elementLen := by
  obtain ⟨_, s₁, hcheck, -⟩ := Proc.bind_eq_ok.mp hread
  obtain ⟨-, hf, j, el', hj, hj', hel, hit⟩ := hin.checked hk hd h hcheck
  obtain ⟨k, link, hk', hlog, hmod, hrec, hs⟩ := hel
  have hself : s.setIter e.pid (e.iteratorAt s.bytes (e.slotAt j) e.elementLen) = s := by
    rw [← hit, setIter_self]
  have heq := hs.read hk hf
  rw [hs.len_static hd, hself, hread] at heq
  cases heq
  exact ⟨rfl, j, hj, hj', ⟨k, link, hk', hlog, hmod, hrec, hs⟩, hit⟩

variable (hslots : 3 ≤ e.slots)

include hslots

/-- Behind the latest element there is none to step to. -/
theorem Recent.next (hends : (s.part e.pid).hasFirstElement = true → ¬ Follows s.bytes e.pid
      (s.part e.pid) (s.part e.pid).latestElementAddress (s.part e.pid).latestElementRecordId
      (s.part e.pid).latestElementLen) {x : Unit}
    (hstep : iteratorNext e.pid s = (.ok x, t)) : Visiting s t e base log := by
  rw [iteratorNext_eq] at hstep
  obtain ⟨⟨a, len, hd₁⟩, s₃, hfound, hset⟩ := Proc.bind_eq_ok.mp hstep
  rw [modifyIterator_apply] at hset
  cases hset
  obtain ⟨_, s₁, hcheck, hfound₁⟩ := Proc.bind_eq_ok.mp hfound
  obtain ⟨hs₁, hf, j, el, hj, hj', hel, hit⟩ := hin.checked hk hd h hcheck
  obtain ⟨k, link, hk', hlog, hmod, hrec, hs⟩ := hel
  rw [hs₁, getIterator_bind, hit] at hfound₁
  obtain ⟨⟨next, hd₂⟩, s₂, hget, hfound₂⟩ := Proc.bind_eq_ok.mp hfound₁
  have hstop : stopOf e.pid (s.part e.pid) (e.slotAt j) e.elementLen = e.slotAt (j + 1) := by
    rw [stopOf_extent hk.start_eq, slotAt_succ]
  have hle := slot_fits hk hj'
  rw [← slotAt_succ] at hle
  have hD := size_lt D
  have hH := elementHeaderLen_bounds e.pid
  have hfits := hk.ram.stop_le
  rw [hk.start_eq, hk.size_eq] at hfits
  have hge := slotAt_ge e j
  change getNextElementHeader e.pid (e.slotAt j) _ e.elementLen s = _ at hget
  rw [getNextElementHeader_sync hk.sync (by rw [hk.start_eq]; omega) (by rw [hstop]; omega),
    nextAt, hstop] at hget
  have hlen : ∀ y, neighbourLen e.pid (s.part e.pid) e.elementLen y = e.elementLen := by
    intro y
    rw [neighbourLen, hd]
    exact hk.len_eq hd
  by_cases hroom : e.slotAt (j + 1) + getElementHeaderLen e.pid ≤ D.size
  · rw [if_pos hroom] at hget
    by_cases hf' : Follows s.bytes e.pid (s.part e.pid) (e.slotAt j)
        (e.iteratorAt s.bytes (e.slotAt j) e.elementLen).curElementHeader.recordId e.elementLen
    · rw [if_pos hf'] at hget
      cases hget
      cases hfound₂
      have hnz : j + 1 ≠ 0 := Nat.succ_ne_zero j
      have hgt : e.start < e.slotAt (j + 1) := slotAt_gt hnz
      have hdata := dataAt_next (Nat.ne_of_gt hgt)
      have hj₁ : j + 1 < log.length := by
        by_contra hge'
        obtain ⟨-, haddr, hlatestLen, hid, -⟩ := h.stored hf
        have hklt : log.length - 1 - k < e.slots := by omega
        rw [Nat.mod_eq_of_lt hklt] at hmod
        rw [show log.length - 1 = j by omega, Nat.mod_eq_of_lt hj'] at haddr
        refine hends hf ?_
        rw [haddr, hlatestLen, hid, show log.length - 1 = j by omega, ← hmod, ← hrec,
          ← hs.recordId_eq, hmod]
        exact hf'
      have hj₂ : j + 1 < e.slots := by
        have hroom' := hf'.2
        rw [hlen, hstop, hk.start_eq, hk.size_eq, slotAt_pos hnz] at hroom'
        have hsize := hk.ram.size_ge
        rw [hk.size_eq] at hsize
        have hmul : (j + 2) * e.slotSize =
            (j + 1) * e.slotSize + (getElementHeaderLen e.pid + e.elementLen) := Nat.succ_mul _ _
        exact (e.fits_iff (j + 2) (by omega)).mp (by omega)
      obtain ⟨el', hel'⟩ := h.holding hj₁ hj₂ (by
        rw [hdata, ← hstop, hf'.1]
        exact isRecordId_increment _)
      refine ⟨j + 1, el', hj₁, hj₂, hel', ?_⟩
      rw [hit, Extent.iteratorAt, Extent.iteratorAt, hdata]
      dsimp only
      rw [hlen]
    · rw [if_neg hf', firstAsNext, firstHeaderAt_current (hk.current hf)] at hget
      dsimp only at hget
      split at hget
      · cases hget
      · rename_i hfirst
        cases hget
        cases hfound₂
        have hdata : e.dataAt (e.slotAt 0) - getElementHeaderLen e.pid = e.start + metadataSize := by
          rw [slotAt_zero, dataAt_start]
        obtain ⟨el', hel'⟩ := h.holding (j := 0) (by omega) (by omega) (by
          rw [hdata, ← hk.start_eq, not_not.mp hfirst]
          exact isRecordId_increment _)
        refine ⟨0, el', by omega, by omega, hel', ?_⟩
        rw [hit, Extent.iteratorAt, Extent.iteratorAt, hdata, slotAt_zero, hk.start_eq]
        dsimp only
        rw [hlen]
  · rw [if_neg hroom] at hget
    cases hget

/-- A step back ends at the oldest element. -/
theorem Recent.previous {x : Unit}
    (hstep : iteratorPrevious e.pid s = (.ok x, t)) : Visiting s t e base log := by
  have hcall := hstep
  rw [iteratorPrevious_eq] at hcall
  obtain ⟨_, s₃, hfound, -⟩ := Proc.bind_eq_ok.mp hcall
  obtain ⟨_, s₁, hcheck, -⟩ := Proc.bind_eq_ok.mp hfound
  obtain ⟨-, hf, j, el, hj, hj', hel, hit⟩ := hin.checked hk hd h hcheck
  obtain ⟨k, link, -, -, -, -, hs⟩ := hel
  have hself : s.setIter e.pid (e.iteratorAt s.bytes (e.slotAt j) e.elementLen) = s := by
    rw [← hit, setIter_self]
  have hround : j = 0 → e.slots < log.length := by
    intro hzero
    by_contra hle
    obtain ⟨-, -, -, -, hlast⟩ := h.stored hf
    rw [if_pos (Nat.not_lt.mp hle)] at hlast
    rw [hzero, slotAt_zero] at hs hself
    have hnone := hs.previous_none hk hf (Nat.le_of_eq hlast)
    rw [hs.len_static hd, hself, hstep] at hnone
    cases hnone
  have heq := h.previous_eq hk hf hd hslots hj' hs hround
  rw [hself, hstep] at heq
  split at heq
  · rename_i hid
    cases heq
    have hlt : e.slotBefore j < e.slots := slotBefore_lt (by omega) hj'
    have hlt' : e.slotBefore j < log.length := by
      by_cases hzero : j = 0
      · have hwide := hround hzero
        omega
      · rw [Extent.slotBefore, if_neg hzero]
        omega
    have hrec : IsRecordId (decrementRecordId el.2) :=
      isRecordId_decrement (Nat.lt_of_le_of_lt hs.recordId.2 (by decide))
    rw [← hid] at hrec
    obtain ⟨el', hel'⟩ := h.holding hlt' hlt hrec
    exact ⟨_, el', hlt', hlt, hel', rfl⟩
  · cases heq

/-- A successful call leaves the iterator at an element of the log. -/
theorem Recent.iterate (hends : (s.part e.pid).hasFirstElement = true → ¬ Follows s.bytes e.pid
      (s.part e.pid) (s.part e.pid).latestElementAddress (s.part e.pid).latestElementRecordId
      (s.part e.pid).latestElementLen) {c : IteratorCall} (hc : c ≠ .invalidate) {x : Unit}
    (hcall : Filesystem.iterate e.pid c s = (.ok x, t)) : Visiting s t e base log := by
  cases c with
  | invalidate => exact absurd rfl hc
  | init =>
    have hf : (s.part e.pid).hasFirstElement = true := by
      by_contra hfalse
      have hempty := iteratorInit_empty (Bool.eq_false_iff.mpr hfalse)
      rw [Filesystem.iterate] at hcall
      rw [hcall] at hempty
      cases hempty
    rw [Filesystem.iterate, h.init hk hf hslots] at hcall
    cases hcall
    obtain ⟨hpos, -, -, -, -⟩ := h.stored hf
    obtain ⟨hwge, -⟩ := window_bounds e
    obtain ⟨hrec, link, hs⟩ := h.stands (List.getElem?_eq_getElem hpos) (by omega)
    have hmod := Nat.mod_lt (log.length - 1) (show 0 < e.slots by omega)
    have hle := Nat.mod_le (log.length - 1) e.slots
    exact ⟨_, log[0], by omega, hmod, ⟨0, link, by omega, List.getElem?_eq_getElem hpos, rfl, hrec, hs⟩, rfl⟩
  | next => exact h.next hk hd hin hslots hends hcall
  | previous => exact h.previous hk hd hin hslots hcall
  | readElement =>
    obtain ⟨el, s₁, hread, hcall₁⟩ := Proc.bind_eq_ok.mp hcall
    cases hcall₁
    obtain ⟨ht, j, hj, hj', hel, hit⟩ := h.read hk hd hin hread
    refine ⟨j, el, hj, hj', hel, ?_⟩
    rw [ht, ← hit, setIter_self]

/-- No call takes the iterator elsewhere. -/
theorem Recent.iterate_inSlots (hends : (s.part e.pid).hasFirstElement = true → ¬ Follows s.bytes
      e.pid (s.part e.pid) (s.part e.pid).latestElementAddress
      (s.part e.pid).latestElementRecordId (s.part e.pid).latestElementLen) (c : IteratorCall) :
    InSlots (Filesystem.iterate e.pid c s).2 e log := by
  rcases hcall : Filesystem.iterate e.pid c s with ⟨r | x, t⟩
  · cases c with
    | invalidate => cases hcall
    | init =>
      have hmoved := iterate_moved hk.sync .init
      rw [hcall] at hmoved
      intro _ hf
      rw [hmoved.part] at hf
      rw [Filesystem.iterate, h.init hk hf hslots] at hcall
      cases hcall
    | next =>
      rw [Filesystem.iterate, iteratorNext_eq] at hcall
      exact hin.of_sameButIter (bind_modifyIterator_error (nextFound_sameButIter hk.sync) hcall)
    | previous =>
      rw [Filesystem.iterate, iteratorPrevious_eq] at hcall
      exact hin.of_sameButIter (bind_modifyIterator_error (previousFound_sameButIter hk.sync) hcall)
    | readElement =>
      have hkeeps := (iteratorReadElement_sameButIter hk.sync).bind
        fun _ => Keeps.pure (SameButIter e.pid s) ()
      have hsame := hkeeps s (.inl rfl)
      change SameButIter e.pid s (Filesystem.iterate e.pid .readElement s).2 at hsame
      rw [hcall] at hsame
      exact hin.of_sameButIter hsame
  · by_cases hc : c = .invalidate
    · subst hc
      cases hcall
      intro hvalid
      rw [setIter_iter] at hvalid
      cases hvalid
    · exact (h.iterate hk hd hin hslots hends hc hcall).inSlots

end

/-! ## Runs -/

theorem Recent.empty {m : Nat → UInt8} {p : Partition} (hf : p.hasFirstElement = false)
    (hid : IsRecordId p.latestElementRecordId) : ∃ base, Recent m e p base [] := by
  obtain ⟨hge, hle⟩ := hid
  refine ⟨p.latestElementRecordId - 1, fun _ => ⟨rfl, ?_⟩, fun htrue => ?_, fun k el hel => ?_⟩
  · unfold recordIdOf
    omega
  · rw [hf] at htrue
    cases htrue
  · cases hel

theorem Recent.hasFirst {m : Nat → UInt8} {p : Partition} (h : Recent m e p base log)
    (hne : log ≠ []) : p.hasFirstElement = true := by
  by_contra hfalse
  exact hne (h.fresh (Bool.eq_false_iff.mpr hfalse)).1

/-- A restart finds the elements as they were. -/
theorem Recent.resumes {m : Nat → UInt8} {p p' : Partition} (h : Recent m e p base log)
    (hresumes : p.Resumes p') (hk : Known D m e p') : ∃ base, Recent m e p' base log := by
  obtain ⟨hsame, hlatest⟩ := hresumes
  cases hf : p.hasFirstElement with
  | false =>
    obtain ⟨rfl, -⟩ := h.fresh hf
    rw [hf] at hsame
    exact Recent.empty hsame (hk.ram.recordId hsame)
  | true =>
    obtain ⟨haddr, hid, hlen, hmeta⟩ := hlatest hf
    refine ⟨base, fun hfalse => ?_, fun _ => ?_, h.slots⟩
    · rw [hsame, hf] at hfalse
      cases hfalse
    · rw [haddr, hid, hlen, hmeta]
      exact h.stored hf

theorem InSlots.congr (h : InSlots s e log) (hiter : t.iter e.pid = s.iter e.pid)
    (hpart : t.part e.pid = s.part e.pid) : InSlots t e log := by
  intro hvalid hf
  rw [hiter] at hvalid ⊢
  rw [hpart] at hf
  exact h hvalid hf

/-- An iterator without elements is lost at the first store. -/
theorem InSlots.store (hk : Known D s.bytes e (s.part e.pid)) (h : InSlots s e log)
    {elementData : Nat → UInt8} {elementLen : Nat}
    (hstore : storeElement e.pid elementData elementLen s = (.ok (), t)) (el : Element) :
    InSlots t e (el :: log) := by
  obtain ⟨-, -, s₁, w, v, hs₁, hsame, -, rfl⟩ := storeElement_eq_ok hk.ram hk.sync hstore
  intro hvalid _
  rw [setDev_iter, setPart_iter] at hvalid ⊢
  cases hf : (s.part e.pid).hasFirstElement with
  | false =>
    rw [hs₁] at hvalid
    exact absurd hvalid (checkIteratorConflict_empty hf _ _)
  | true =>
    obtain ⟨j, hj, hrest⟩ := h.of_sameButIter hsame hvalid (by rw [hsame.part]; exact hf)
    exact ⟨j, Nat.lt_succ_of_lt hj, hrest⟩

/-- An operation on another partition. -/
theorem Recent.other {e' : Extent} (he : e.Ok D) (he' : e'.Ok D) (hapart : e'.Apart e)
    (hk : Known D s.bytes e (s.part e.pid)) (hslots : 3 ≤ e.slots)
    (h : Recent s.bytes e (s.part e.pid) base log) (hin : InSlots s e log) (hlocal : Local e' s t)
    (hiters : ∀ j, j ≠ partitionIndex e'.pid → t.partitionIterators j = s.partitionIterators j) :
    Recent t.bytes e (t.part e.pid) base log ∧ InSlots t e log := by
  have hpart : t.part e.pid = s.part e.pid := hlocal.parts _ hapart.1.symm
  refine ⟨?_, hin.congr (hiters _ hapart.1.symm) hpart⟩
  rw [hpart]
  exact h.frame hk hslots fun x hx => hlocal.bytes x (hapart.not_owns he' he hx)

theorem Used.recent {rs : List Registration} {pids : List Nat} {s₁ : State D} (hD : D.ByteUnits)
    (hsize : swapPageSize ≤ D.size) (hreg : AllRegistrable D 0 (firstFree D) rs)
    (hpids : pids = (layout D rs).map Extent.pid) (he : e ∈ layout D rs)
    (hd : isDynamic e.pid = false) (hslots : 3 ≤ e.slots) (h₁ : Intact rs s₁)
    (hf₁ : (s₁.part e.pid).hasFirstElement = false) (h : Used rs pids e.pid s₁ log s) :
    (∃ base, Recent s.bytes e (s.part e.pid) base log) ∧ InSlots s e log := by
  have hpid : e.pid ∈ pids := by
    rw [hpids]
    exact List.mem_map_of_mem he
  have hintact : ∀ {log : List Element} {s : State D}, Used rs pids e.pid s₁ log s → Intact rs s :=
    fun h => h.intact hD hsize hreg hpids hpid h₁
  have hsame : ∀ {log : List Element} {s t : State D} {pid' : Nat}, pid' ∈ pids → pid' ≠ e.pid →
      (∃ base, Recent s.bytes e (s.part e.pid) base log) ∧ InSlots s e log → Moved pid' s t →
      (∃ base, Recent t.bytes e (t.part e.pid) base log) ∧ InSlots t e log := by
    intro log s t pid' hpid' hne hs hmoved
    obtain ⟨hrecent, hin⟩ := hs
    rw [hpids] at hpid'
    obtain ⟨e', he', rfl⟩ := List.mem_map.mp hpid'
    have hapart := layout_apart hreg he' he fun heq => hne (congrArg Extent.pid heq)
    rw [hmoved.bytes, hmoved.part]
    exact ⟨hrecent, hin.congr (hmoved.iters _ hapart.1.symm) (congrFun hmoved.part _)⟩
  induction h with
  | start =>
    exact ⟨Recent.empty hf₁ ((h₁ e he).known.ram.recordId hf₁), fun _ hf => by
      rw [hf₁] at hf
      cases hf⟩
  | store elementData elementLen hprev hcall ih =>
    obtain ⟨⟨base, hrecent⟩, hin⟩ := ih
    have hk := (hintact hprev e he).known
    exact ⟨⟨base, hrecent.store hD hd hslots hk elementLen.toNat_lt hcall⟩,
      hin.store hk hcall _⟩
  | clear hprev hcall ih =>
    obtain ⟨hf, hk, -⟩ := (hintact hprev e he).known.clear hcall
    exact ⟨Recent.empty hf (hk.ram.recordId hf), fun _ hf' => by
      rw [hf] at hf'
      cases hf'⟩
  | storeOther elementData elementLen hprev hpid' hne hcall ih =>
    obtain ⟨⟨base, hrecent⟩, hin⟩ := ih
    rw [hpids] at hpid'
    obtain ⟨e', he', rfl⟩ := List.mem_map.mp hpid'
    have hk' := (hintact hprev e' he').known
    have hlocal := ((hintact hprev e' he').store hD elementLen.toNat_lt hcall).2
    have hapart := layout_apart hreg he' he fun heq => hne (congrArg Extent.pid heq)
    obtain ⟨-, -, s₂, w, v, -, hmoved, -, rfl⟩ := storeElement_eq_ok hk'.ram hk'.sync hcall
    have hother := hrecent.other (layout_ok hreg he) (layout_ok hreg he') hapart
      (hintact hprev e he).known hslots hin hlocal (Moved.of_sameButIter hmoved).iters
    exact ⟨⟨base, hother.1⟩, hother.2⟩
  | clearOther hprev hpid' hne hcall ih =>
    obtain ⟨⟨base, hrecent⟩, hin⟩ := ih
    rw [hpids] at hpid'
    obtain ⟨e', he', rfl⟩ := List.mem_map.mp hpid'
    have hk' := (hintact hprev e' he').known
    obtain ⟨-, -, hlocal⟩ := hk'.clear hcall
    have hapart := layout_apart hreg he' he fun heq => hne (congrArg Extent.pid heq)
    obtain ⟨recordId, b, v, -, -, -, rfl⟩ := clearPartition_eq_ok hk'.ram hk'.sync hcall
    have hother := hrecent.other (layout_ok hreg he) (layout_ok hreg he') hapart
      (hintact hprev e he).known hslots hin hlocal fun _ _ => rfl
    exact ⟨⟨base, hother.1⟩, hother.2⟩
  | @refused log s t pid' code elementData elementLen hprev hpid' hcall hkept ih =>
    by_cases hne : pid' = e.pid
    · subst hne
      have hmoved := Moved.of_sameButIter hkept
      rw [hmoved.bytes, hmoved.part]
      exact ⟨ih.1, ih.2.of_sameButIter hkept⟩
    · exact hsame hpid' hne ih (Moved.of_sameButIter hkept)
  | @iterate log s pid' c hprev hpid' ih =>
    by_cases hne : pid' = e.pid
    · subst hne
      have hsound := hintact hprev e he
      have hmoved := iterate_moved hsound.known.sync c
      obtain ⟨⟨base, hrecent⟩, hin⟩ := ih
      rw [hmoved.bytes, hmoved.part]
      exact ⟨⟨base, hrecent⟩, hrecent.iterate_inSlots hsound.known hd hin hslots
        (fun hf => (hsound.stored hf).ends) c⟩
    · have hmem := hpid'
      rw [hpids] at hmem
      obtain ⟨e', he', rfl⟩ := List.mem_map.mp hmem
      exact hsame hpid' hne ih (iterate_moved (hintact hprev e' he').known.sync c)
  | @restart log s s' t hprev hdev hiters hboot ih =>
    obtain ⟨⟨base, hrecent⟩, hin⟩ := ih
    obtain ⟨t', ht', hintact', hresumes, hbytes, hiters'⟩ :=
      (hintact hprev).restart hsize hreg hdev
    rw [ht'] at hboot
    cases hboot
    have hk := (hintact' e he).known
    obtain ⟨hfirst, hlatest⟩ := hresumes e he
    rw [hbytes] at hk ⊢
    refine ⟨hrecent.resumes ⟨hfirst, hlatest⟩ hk, fun hvalid hf => ?_⟩
    rcases hiters (partitionIndex e.pid) with hiter | hiter
    · have hsameIter : t.iter e.pid = s.iter e.pid := (congrFun hiters' _).trans hiter
      rw [hsameIter] at hvalid ⊢
      exact hin hvalid (by rw [← hfirst]; exact hf)
    · refine absurd ?_ hiter
      rw [← hiters']
      exact hvalid

/-! ## The theorem -/

/-- In storage with byte units, no successful call leaves the iterator of a static partition
at an element that was stored before the last clear, and a walk back returns the elements
stored since then, as many as there are slots, unless identifiers come round with the slots. -/
theorem cleared_stays_cleared (hD : D.ByteUnits) {rs : List Registration} {pids : List Nat}
    {s₀ s₁ : State D} (hblank : Blank s₀.bytes D.size) (hboot : boot rs s₀ = (.ok pids, s₁))
    (hpid : pid ∈ pids) (hstatic : isDynamic pid = false) (hslots : 3 ≤ (s₁.part pid).slots pid)
    (hrun : Used rs pids pid s₁ log s) :
    (∀ c t, c ≠ .invalidate → iterate pid c s = (.ok (), t) →
      ∃ el ∈ log.take ((s₁.part pid).slots pid), (iteratorReadElement pid t).1 = .ok el) ∧
      (∀ el t, iteratorReadElement pid s = (.ok el, t) →
        el ∈ log.take ((s₁.part pid).slots pid)) ∧
      (log = [] → (iteratorInit pid s).1 = .error .invalidState) ∧
      (log ≠ [] → ¬ 65534 ∣ (s₁.part pid).slots pid → ∀ fuel, log.length ≤ fuel →
        (readBack pid fuel s).1 = .ok (log.take ((s₁.part pid).slots pid), some .notFound)) := by
  obtain ⟨hsize, hreg, hpids, hdev₁, -, hparts⟩ := boot_blank hblank hboot
  have hblank₁ : Blank s₁.bytes D.size := by
    unfold State.bytes
    rw [hdev₁]
    exact hblank
  have hintact₁ := intact_blank hreg hblank₁ hparts
  have hintact := hrun.intact hD hsize hreg hpids hpid hintact₁
  have hpid' := hpid
  rw [hpids] at hpid'
  obtain ⟨e, he, rfl⟩ := List.mem_map.mp hpid'
  have hfresh : (s₁.part e.pid).hasFirstElement = false ∧ (s₁.part e.pid).slots e.pid = e.slots := by
    obtain ⟨p, hp⟩ := hparts e he
    rw [hp]
    exact ⟨rfl, rfl⟩
  rw [hfresh.2] at hslots ⊢
  obtain ⟨⟨base, hrecent⟩, hin⟩ :=
    hrun.recent hD hsize hreg hpids he hstatic hslots hintact₁ hfresh.1
  have hsound := hintact e he
  have hk := hsound.known
  have hmem : ∀ {m : Nat → UInt8} {j : Nat} {el : Element}, Holding m e base log j el →
      el ∈ log.take e.slots := by
    intro m j el hel
    obtain ⟨k, -, hklt, hlog, -⟩ := hel
    exact List.mem_of_getElem? (i := k) (by rw [List.getElem?_take_of_lt hklt, hlog])
  refine ⟨fun c t hc hcall => ?_, fun el t hread => ?_, fun hnil => ?_, fun hne hdvd fuel hfuel => ?_⟩
  · obtain ⟨j, el, hj, -, hel, rfl⟩ := hrecent.iterate hk hstatic hin hslots
      (fun hf => (hsound.stored hf).ends) hc hcall
    refine ⟨el, hmem hel, ?_⟩
    obtain ⟨k, link, -, -, -, -, hs⟩ := hel
    have hread := hs.read hk (hrecent.hasFirst (List.length_pos_iff.mp (Nat.zero_lt_of_lt hj)))
    rw [hs.len_static hstatic] at hread
    rw [hread]
  · obtain ⟨-, j, -, -, hel, -⟩ := hrecent.read hk hstatic hin hread
    exact hmem hel
  · refine iteratorInit_empty ?_
    by_contra htrue
    obtain ⟨hpos, -⟩ := hrecent.stored (Bool.of_not_eq_false htrue)
    rw [hnil] at hpos
    exact absurd hpos (Nat.lt_irrefl 0)
  · exact hrecent.readBack_eq hk (hrecent.hasFirst hne) hstatic hslots hdvd hfuel

/-- A cleared partition, with an iterator from before. -/
def usedBefore : State eeprom :=
  (clearPartition 0 (iterate 0 .init (storeList 0 [1, 1, 1, 1] ringStart).2).2).2

def usedAgain : State eeprom := (storeList 0 [2, 2, 2, 2] usedBefore).2

theorem cleared_stays_cleared_eeprom :
    (∀ c t, c ≠ .invalidate → iterate 0 c usedAgain = (.ok (), t) →
      ∃ el ∈ [([2, 2, 2, 2], 2)].take ((ringStart.part 0).slots 0),
        (iteratorReadElement 0 t).1 = .ok el) ∧
      (∀ el t, iteratorReadElement 0 usedAgain = (.ok el, t) →
        el ∈ [([2, 2, 2, 2], 2)].take ((ringStart.part 0).slots 0)) ∧
      ([([2, 2, 2, 2], 2)] = ([] : List Element) →
        (iteratorInit 0 usedAgain).1 = .error .invalidState) ∧
      ([([2, 2, 2, 2], 2)] ≠ ([] : List Element) → ¬ 65534 ∣ (ringStart.part 0).slots 0 →
        ∀ fuel, 1 ≤ fuel → (readBack 0 fuel usedAgain).1 =
          .ok ([([2, 2, 2, 2], 2)].take ((ringStart.part 0).slots 0), some .notFound)) := by
  have hboot : boot fourSlots (powerUp (D := eeprom) blankBytes) = (.ok [0], ringStart) :=
    Proc.eq_of_fst (by decide +kernel)
  have h₀ : Used fourSlots [0] 0 ringStart [] ringStart := Used.start
  have h₁ := h₀.store (t := (storeList 0 [1, 1, 1, 1] ringStart).2) (bytesOf [1, 1, 1, 1]) 4
    (Proc.eq_of_fst (by decide +kernel))
  have h₂ := h₁.iterate .init (show 0 ∈ [0] by decide)
  have h₃ := h₂.clear (Proc.eq_of_fst (by decide +kernel))
  have h₄ := h₃.store (t := usedAgain) (bytesOf [2, 2, 2, 2]) 4 (Proc.eq_of_fst (by decide +kernel))
  have hel : (storedData 0 (usedBefore.part 0) (bytesOf [2, 2, 2, 2]) (4 : UInt16).toNat,
      (storedAt 0 (usedBefore.part 0) (4 : UInt16).toNat).recordId) =
    (([2, 2, 2, 2], 2) : Element) := by decide +kernel
  change Used fourSlots [0] 0 ringStart
    [(storedData 0 (usedBefore.part 0) (bytesOf [2, 2, 2, 2]) (4 : UInt16).toNat,
      (storedAt 0 (usedBefore.part 0) (4 : UInt16).toNat).recordId)] usedAgain at h₄
  rw [hel] at h₄
  exact cleared_stays_cleared eeprom_byteUnits (fun _ _ => rfl) hboot (by decide) (by decide)
    (by decide +kernel) h₄

/-! ## A round of identifiers -/

/-- Stores to a partition with room behind it. -/
theorem Recent.stores (hD : D.ByteUnits) (hrel : D.Reliable) (hd : isDynamic e.pid = false)
    (hslots : 3 ≤ e.slots) (hroom : e.start + e.size + getElementHeaderLen e.pid ≤ D.size)
    {rs : List Registration} {pids : List Nat} {s₁ : State D} (hused : Used rs pids e.pid s₁ log s)
    (hk : Known D s.bytes e (s.part e.pid)) (h : Recent s.bytes e (s.part e.pid) base log)
    (hiter : (s.iter e.pid).iteratorValid ≠ iteratorValidNumber) (n : Nat) :
    ∃ log' s', Used rs pids e.pid s₁ log' s' ∧ log'.length = log.length + n ∧
      Known D s'.bytes e (s'.part e.pid) ∧ Recent s'.bytes e (s'.part e.pid) base log' ∧
      ∃ t, storeElement e.pid blankBytes (0 : UInt16).toNat s' = (.ok (), t) ∧
        (t.iter e.pid).iteratorValid ≠ iteratorValidNumber := by
  have hstore : ∀ {s : State D} {log : List Element}, Known D s.bytes e (s.part e.pid) →
      Recent s.bytes e (s.part e.pid) base log →
      (s.iter e.pid).iteratorValid ≠ iteratorValidNumber →
      ∃ t, storeElement e.pid blankBytes (0 : UInt16).toNat s = (.ok (), t) ∧
        (t.iter e.pid).iteratorValid ≠ iteratorValidNumber := by
    intro s log hk h hiter
    obtain ⟨haddr, -⟩ := h.placement_eq hk hslots
    have hlen : storedLen e.pid (s.part e.pid) 0 = e.elementLen := by
      rw [storedLen, if_pos ⟨hd, rfl⟩]
      exact hk.len_eq hd
    have hfits := slot_fits hk (Nat.mod_lt log.length (show 0 < e.slots by omega))
    have hstop : stopOf e.pid (s.part e.pid) (storedAt e.pid (s.part e.pid) 0).address
        (storedLen e.pid (s.part e.pid) 0) ≤ e.start + e.size := by
      rw [storedAt, hlen, haddr, stopOf_extent hk.start_eq]
      exact hfits
    have hacc : Accepted e.pid (s.part e.pid) 0 := by
      refine ⟨fun hc => hc.2.1 rfl, ?_⟩
      rw [hk.start_eq, hk.size_eq]
      exact hstop
    obtain ⟨t, ht⟩ := storeElement_ok_of_reliable hrel hk.ram hk.sync hiter hacc (by omega) blankBytes
    refine ⟨t, ht, ?_⟩
    obtain ⟨-, -, s₂, w, v, hs₂, -, -, rfl⟩ := storeElement_eq_ok hk.ram hk.sync ht
    rw [setDev_iter, setPart_iter, hs₂, checkIteratorConflict_invalid hiter]
    exact hiter
  induction n with
  | zero => exact ⟨log, s, hused, rfl, hk, h, hstore hk h hiter⟩
  | succ n ih =>
    obtain ⟨log', s', hused', hlog, hk', h', t, ht, hiter'⟩ := ih
    obtain ⟨-, -, -, -, -, -, -, -, hk'', -⟩ := hk'.store (by decide) ht
    have h'' := h'.store hD hd hslots hk' (by decide) ht
    exact ⟨_, t, hused'.store _ _ ht, congrArg Nat.succ hlog, hk'', h'', hstore hk'' h'' hiter'⟩

/-- An EEPROM of 256 KB. -/
def wideEeprom : Device :=
  fillDevice [⟨2 ^ 18, 1, Nat.one_pos, by decide⟩] (by decide) (fun _ b => b) fill_old

/-- A static partition with 65534 slots, for elements of one byte. -/
def wideRing : List Registration := [⟨14 + 65534 * 3, false, false, 1, by decide⟩]

def wideStart : State wideEeprom := (boot wideRing (powerUp (D := wideEeprom) blankBytes)).2

def wideCleared : State wideEeprom := (clearPartition 0 wideStart).2

/-- With as many slots as there are identifiers, the store behind a full round blanks the header
of an element, and a walk back misses one. -/
theorem round_loses_element :
    boot wideRing (powerUp (D := wideEeprom) blankBytes) = (.ok [0], wideStart) ∧
      (wideStart.part 0).slots 0 = 65534 ∧
      clearPartition 0 wideStart = (.ok (), wideCleared) ∧
      ∃ log s, Used wideRing [0] 0 wideCleared log s ∧ log.length = 65535 ∧
        ∃ els, (readBack 0 65535 s).1 = .ok (els, some .notFound) ∧
          els.length ≠ min log.length 65534 := by
  have hboot : boot wideRing (powerUp (D := wideEeprom) blankBytes) = (.ok [0], wideStart) :=
    Proc.eq_of_fst (by decide +kernel)
  have hclear : clearPartition 0 wideStart = (.ok (), wideCleared) :=
    Proc.eq_of_fst (by decide +kernel)
  have hD : wideEeprom.ByteUnits := by
    intro m hm
    rw [List.mem_singleton.mp hm]
  obtain ⟨-, hreg, -, -, -, hparts⟩ := boot_blank (fun _ _ => rfl) hboot
  have hlayout : layout wideEeprom wideRing = [⟨0, 400, 196616, 1⟩] := by decide +kernel
  have hk₀ : Known wideEeprom wideStart.bytes ⟨0, 400, 196616, 1⟩ (wideStart.part 0) :=
    (intact_blank hreg (fun _ _ => rfl) hparts _
      (by rw [hlayout]; exact List.mem_singleton_self _)).known
  obtain ⟨hf, hk, -⟩ := hk₀.clear hclear
  obtain ⟨base, h⟩ := Recent.empty (e := ⟨0, 400, 196616, 1⟩) (m := wideCleared.bytes) hf
    (hk.ram.recordId hf)
  have hslots : (⟨0, 400, 196616, 1⟩ : Extent).slots = 65534 := by decide
  have hused₀ : Used wideRing [0] 0 wideCleared [] wideCleared := Used.start
  obtain ⟨log, s, hused, hlog, hk', h', t, ht, -⟩ := Recent.stores hD (fillDevice_reliable _ _ _ _)
    rfl (by rw [hslots]; decide) (by decide) hused₀ hk h (by decide +kernel) 65534
  rw [Nat.add_comm, List.length_nil] at hlog
  obtain ⟨-, -, -, -, -, -, -, -, hk'', -⟩ := hk'.store (by decide) ht
  have h'' := h'.store hD rfl (by rw [hslots]; decide) hk' (by decide) ht
  have hblank := h'.blanks hD rfl (by rw [hslots]; decide) ⟨1, hslots⟩ hk'
    (Nat.le_of_eq (by rw [hslots, hlog])) (by rw [hslots, hlog]; decide) (by decide) ht
  rw [hslots, hlog] at hblank
  have hread := h''.readBack_blanked hk'' (h''.hasFirst (List.cons_ne_nil _ _)) rfl
    (by rw [hslots]; decide) (n := 65532) (j := 1) (by decide)
    (by rw [List.length_cons, hlog]; decide) (by rw [List.length_cons, hlog, hslots]) hblank
    (show _ ≤ 65535 from Nat.le_of_eq (by rw [List.length_cons, hlog]))
  refine ⟨hboot, by decide +kernel, hclear, _, t, hused.store _ _ ht, ?_, _, hread, ?_⟩
  · rw [List.length_cons, hlog]
  · rw [List.length_take, List.length_cons, hlog]
    decide

end OpenBadge.Filesystem
