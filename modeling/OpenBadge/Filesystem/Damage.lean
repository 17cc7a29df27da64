import OpenBadge.Filesystem.Worn

/-!
# Runs in which data get damaged

Bytes in the data of a static partition's elements may change at any time. The library does
not notice: its headers and metadata lead on to the same elements, and a restart finds them.
-/

namespace OpenBadge.Filesystem

open OpenBadge.Lib OpenBadge.Storage

variable {D : Device} {s t : State D} {e : Extent} {m m' : Nat → UInt8} {p : Partition}
  {base : Nat} {ring : List (Option (List UInt8))}

/-- From `s` to `t` only data of elements of the partition changed. -/
structure Damaged (e : Extent) (s t : State D) : Prop where
  bytes : ∀ x, ¬ e.InData x → t.bytes x = s.bytes x
  parts : t.partitions = s.partitions
  iters : t.partitionIterators = s.partitionIterators

/-- What the elements of the last round read as, after their bytes changed. -/
def reread (m : Nat → UInt8) (e : Extent) (ring : List (Option (List UInt8))) :
    List (Option (List UInt8)) :=
  ring.mapIdx fun i x => if ring.length ≤ i + e.slots then slotContents m e (i % e.slots) else x

@[simp] theorem reread_length (m : Nat → UInt8) (e : Extent) (ring : List (Option (List UInt8))) :
    (reread m e ring).length = ring.length := List.length_mapIdx

theorem Worn.damaged (h : Worn D m e p base ring) (hm : ∀ x, ¬ e.InData x → m' x = m x) :
    Worn D m' e p base (reread m' e ring) := by
  refine ⟨?_, fun i x hx hle => ?_, fun hfull => h.room (by rwa [reread_length] at hfull)⟩
  · rw [reread_length]
    exact h.turned
  · rw [reread_length] at hle
    rw [reread, List.getElem?_mapIdx] at hx
    obtain ⟨y, hy, rfl⟩ := Option.map_eq_some_iff.mp hx
    rw [if_pos hle, slotHeader_congr fun z hz hz' => hm z (not_inData_header hz hz')]
    exact ⟨(h.slots i y hy hle).1, rfl⟩

/-! ## Soundness -/

section

variable (hd : isDynamic e.pid = false) (hslots : 3 ≤ e.slots)
  (hm : ∀ x, ¬ e.InData x → m' x = m x)

include hm in
theorem headerOf_undamaged (j : Nat) :
    headerOf m' e.pid (e.dataAt (e.slotAt j) - getElementHeaderLen e.pid) =
      headerOf m e.pid (e.dataAt (e.slotAt j) - getElementHeaderLen e.pid) :=
  slotHeader_congr fun x hx hx' => hm x (not_inData_header hx hx')

include hm in
theorem Known.damaged (hk : Known D m e p) : Known D m' e p := by
  have hfirst : firstBytes m' e.pid p.firstElementAddress =
      firstBytes m e.pid p.firstElementAddress := by
    refine slice_congr fun x hx hx' => hm x (not_inData_header (i := 0) ?_ ?_)
    · rw [slotAt_zero, ← hk.start_eq]
      exact hx
    · rw [slotAt_zero, Extent.dataAt, if_pos rfl, ← hk.start_eq]
      exact hx'
  have hswap : firstBytes m' e.pid (getSwapPageAddressOfPartition e.pid) =
      firstBytes m e.pid (getSwapPageAddressOfPartition e.pid) := by
    refine slice_congr fun x hx hx' => hm x ?_
    rintro ⟨j, -, hj, -⟩
    have hle := hk.ram.swap_le
    have hstart := hk.ram.start_ge
    have hge := slotAt_ge e j
    have hdata := dataAt_ge e (e.slotAt j)
    rw [hk.start_eq] at hstart
    omega
  refine ⟨hk.ram, hk.start_eq, hk.size_eq, hk.len_eq, fun hf => ?_, fun hf => ?_, hk.rewound⟩
  · unfold Current
    rw [hfirst]
    exact hk.current hf
  · have hb := hk.empty hf
    exact ⟨by rw [hfirst]; exact hb.start, by rw [hswap]; exact hb.swap⟩

include hd hm in
/-- What follows the element in a slot, follows it still. -/
theorem follows_damaged (hk : Known D m e p) {j : Nat} (hj : j < e.slots) (recordId : Nat) :
    Follows m' e.pid p (e.slotAt j) recordId e.elementLen ↔
      Follows m e.pid p (e.slotAt j) recordId e.elementLen := by
  by_cases hnext : j + 1 < e.slots
  · unfold Follows
    rw [slot_stopOf hk, neighbourLen_static hd hk, neighbourLen_static hd hk, slotHeader_succ,
      slotHeader_succ, slotHeader, slotHeader, headerOf_undamaged hm]
  · have hlast : j + 1 = e.slots := by omega
    exact iff_of_false (not_follows_last hd hk hlast recordId) (not_follows_last hd hk hlast recordId)

include hd hm hslots in
/-- The chain leads through the slots as before. -/
theorem linked_damaged (hk : Known D m e p) {n a recordId len : Nat}
    (h : Linked m e.pid p n a recordId len) :
    n < e.slots ∧ a = e.slotAt n ∧ len = e.elementLen ∧ Linked m' e.pid p n a recordId len := by
  induction h with
  | first =>
    have hheader := headerOf_undamaged hm 0
    rw [slotAt_zero, dataAt_start, ← hk.start_eq] at hheader
    rw [← hheader]
    exact ⟨by omega, by rw [slotAt_zero, hk.start_eq], hk.len_eq hd, .first⟩
  | @next n a recordId len _ hf ih =>
    obtain ⟨hn, rfl, rfl, hlinked⟩ := ih
    have hnext : n + 1 < e.slots := by
      by_contra hge
      exact not_follows_last hd hk (show n + 1 = e.slots by omega) recordId hf
    have hlinked' := hlinked.next ((follows_damaged hd hm hk hn recordId).mpr hf)
    rw [slot_stopOf hk, slotHeader_succ, neighbourLen_static hd hk, slotHeader,
      headerOf_undamaged hm, ← slotHeader] at hlinked'
    rw [slot_stopOf hk, slotHeader_succ, neighbourLen_static hd hk]
    exact ⟨hnext, rfl, rfl, hlinked'⟩

include hd hm hslots in
theorem Sound.damaged (h : Sound D m e p) : Sound D m' e p := by
  have hk := h.known
  refine ⟨hk.damaged hm, fun hf => ?_, h.probe_fits⟩
  have hend := h.stored hf
  obtain ⟨n, hn⟩ := hend.linked
  obtain ⟨hlt, haddr, hlen, hlinked⟩ := linked_damaged hd hslots hm hk hn
  refine ⟨hend.first_fits, ⟨n, hlinked⟩, ?_, hend.recordId⟩
  have hends := hend.ends
  rw [haddr, hlen] at hends ⊢
  exact fun hf' => hends ((follows_damaged hd hm hk hlt _).mp hf')

end

/-! ## Runs -/

/-- The runs of an application from the state `s₁` after its first start, with damage to the
data of the partition at `e`. `ring` has what its elements read as since it was cleared. -/
inductive WornBy (rs : List Registration) (pids : List Nat) (e : Extent) (s₁ : State D) :
    List (Option (List UInt8)) → State D → Prop
  | start : WornBy rs pids e s₁ [] s₁
  | store {ring : List (Option (List UInt8))} {s t : State D} (elementData : Nat → UInt8)
      (elementLen : UInt16) :
      WornBy rs pids e s₁ ring s →
      storeElement e.pid elementData elementLen.toNat s = (.ok (), t) →
      WornBy rs pids e s₁
        (ring ++ [some (storedData e.pid (s.part e.pid) elementData elementLen.toNat)]) t
  | clear {ring : List (Option (List UInt8))} {s t : State D} :
      WornBy rs pids e s₁ ring s → clearPartition e.pid s = (.ok (), t) →
      WornBy rs pids e s₁ [] t
  | damage {ring : List (Option (List UInt8))} {s t : State D} :
      WornBy rs pids e s₁ ring s → Damaged e s t → WornBy rs pids e s₁ (reread t.bytes e ring) t
  | storeOther {ring : List (Option (List UInt8))} {s t : State D} {pid : Nat}
      (elementData : Nat → UInt8) (elementLen : UInt16) :
      WornBy rs pids e s₁ ring s → pid ∈ pids → pid ≠ e.pid →
      storeElement pid elementData elementLen.toNat s = (.ok (), t) → WornBy rs pids e s₁ ring t
  | clearOther {ring : List (Option (List UInt8))} {s t : State D} {pid : Nat} :
      WornBy rs pids e s₁ ring s → pid ∈ pids → pid ≠ e.pid →
      clearPartition pid s = (.ok (), t) → WornBy rs pids e s₁ ring t
  | refused {ring : List (Option (List UInt8))} {s t : State D} {pid : Nat} {code : RetCode}
      (elementData : Nat → UInt8) (elementLen : UInt16) :
      WornBy rs pids e s₁ ring s → pid ∈ pids →
      storeElement pid elementData elementLen.toNat s = (.error code, t) →
      SameButIter pid s t → WornBy rs pids e s₁ ring t
  | iterate {ring : List (Option (List UInt8))} {s : State D} {pid : Nat} (c : IteratorCall) :
      WornBy rs pids e s₁ ring s → pid ∈ pids → WornBy rs pids e s₁ ring (iterate pid c s).2
  | restart {ring : List (Option (List UInt8))} {s s' t : State D} :
      WornBy rs pids e s₁ ring s → s'.dev = s.dev → boot rs s' = (.ok pids, t) →
      WornBy rs pids e s₁ ring t

/-- All partitions are sound, and the one at `e` has the elements of `ring`. -/
structure Upheld (rs : List Registration) (e : Extent) (ring : List (Option (List UInt8)))
    (s : State D) : Prop where
  intact : Intact rs s
  worn : ∃ base, Worn D s.bytes e (s.part e.pid) base ring

variable {rs : List Registration}

/-- A call that writes nothing. -/
theorem Upheld.of_same (h : Upheld rs e ring s) (hdev : t.dev = s.dev)
    (hparts : t.partitions = s.partitions) : Upheld rs e ring t := by
  obtain ⟨base, hworn⟩ := h.worn
  refine ⟨h.intact.of_same hdev hparts, base, ?_⟩
  unfold State.bytes State.part at hworn ⊢
  rw [hdev, hparts]
  exact hworn

/-- The data of the elements belong to the partition. -/
theorem owns_of_inData (hk : Known D m e p) {x : Nat} (h : e.InData x) : e.Owns x := by
  obtain ⟨j, hj, hx, hx'⟩ := h
  have hstop := slot_fits hk hj
  have hge := slotAt_ge e j
  have hdata := dataAt_ge e (e.slotAt j)
  unfold Extent.stopOf at hstop
  exact .inl ⟨by omega, by omega⟩

section

variable {e' : Extent} (hreg : AllRegistrable D 0 (firstFree D) rs) (he : e ∈ layout D rs)
  (hslots : 3 ≤ e.slots)

include hreg he hslots

/-- An operation on another partition. -/
theorem Upheld.other (h : Upheld rs e ring s) (he' : e' ∈ layout D rs) (hne : e'.pid ≠ e.pid)
    (hstep : Sound D t.bytes e' (t.part e'.pid) ∧ Local e' s t) : Upheld rs e ring t := by
  obtain ⟨base, hworn⟩ := h.worn
  have hapart := layout_apart hreg he' he fun heq => hne (congrArg Extent.pid heq)
  have hpart : t.part e.pid = s.part e.pid := hstep.2.parts _ hapart.1.symm
  refine ⟨forall_of_local hreg Sound.frame h.intact he' hstep, base, ?_⟩
  rw [hpart]
  exact hworn.frame (h.intact e he).known hslots fun x hx => hstep.2.bytes x
    (hapart.not_owns (layout_ok hreg he') (layout_ok hreg he) hx)

theorem Upheld.store (hD : D.ByteUnits) (hd : isDynamic e.pid = false) (hslots' : e.slots < 65534)
    (h : Upheld rs e ring s) {elementData : Nat → UInt8} {elementLen : Nat}
    (hlen : elementLen < 2 ^ 16)
    (hstore : storeElement e.pid elementData elementLen s = (.ok (), t)) :
    Upheld rs e (ring ++ [some (storedData e.pid (s.part e.pid) elementData elementLen)]) t := by
  obtain ⟨base, hworn⟩ := h.worn
  have hsound := h.intact e he
  exact ⟨forall_of_local hreg Sound.frame h.intact he (hsound.store hD hlen hstore), base,
    hworn.store hD hd hslots hslots' hsound.known hlen hstore⟩

theorem WornBy.upheld (hD : D.ByteUnits) (hsize : swapPageSize ≤ D.size) {pids : List Nat}
    (hpids : pids = (layout D rs).map Extent.pid) (hd : isDynamic e.pid = false)
    (hslots' : e.slots < 65534) {s₁ : State D} (h₁ : Intact rs s₁)
    (hf₁ : (s₁.part e.pid).hasFirstElement = false) (h : WornBy rs pids e s₁ ring s) :
    Upheld rs e ring s := by
  subst hpids
  induction h with
  | start => exact ⟨h₁, Worn.empty hf₁ ((h₁ e he).known.ram.recordId hf₁) hslots⟩
  | store elementData elementLen _ hcall ih =>
    exact ih.store hreg he hslots hD hd hslots' elementLen.toNat_lt hcall
  | clear _ hcall ih =>
    have hsound := ih.intact e he
    obtain ⟨hf, hk, -⟩ := hsound.known.clear hcall
    exact ⟨forall_of_local hreg Sound.frame ih.intact he (hsound.clear hcall),
      Worn.empty hf (hk.ram.recordId hf) hslots⟩
  | @damage ring s t _ hdamaged ih =>
    obtain ⟨base, hworn⟩ := ih.worn
    have hpart : t.part = s.part := by
      unfold State.part
      rw [hdamaged.parts]
    refine ⟨fun e' he' => ?_, base, ?_⟩
    · rw [hpart]
      by_cases hee : e' = e
      · rw [hee]
        exact (ih.intact e he).damaged hd hslots hdamaged.bytes
      · have hapart := layout_apart hreg he he' fun heq => hee heq.symm
        exact (ih.intact e' he').frame fun x hx => hdamaged.bytes x fun hin =>
          hapart.not_owns (layout_ok hreg he) (layout_ok hreg he') hx
            (owns_of_inData (ih.intact e he).known hin)
    · rw [hpart]
      exact hworn.damaged hdamaged.bytes
  | storeOther elementData elementLen _ hpid hne hcall ih =>
    obtain ⟨e', he', rfl⟩ := List.mem_map.mp hpid
    exact ih.other hreg he hslots he' hne ((ih.intact e' he').store hD elementLen.toNat_lt hcall)
  | clearOther _ hpid hne hcall ih =>
    obtain ⟨e', he', rfl⟩ := List.mem_map.mp hpid
    exact ih.other hreg he hslots he' hne ((ih.intact e' he').clear hcall)
  | refused _ _ _ _ _ hsame ih =>
    have hmoved := Moved.of_sameButIter hsame
    exact ih.of_same hmoved.dev hmoved.parts
  | iterate c _ hpid ih =>
    obtain ⟨e', he', rfl⟩ := List.mem_map.mp hpid
    have hmoved := iterate_moved (ih.intact e' he').known.sync c
    exact ih.of_same hmoved.dev hmoved.parts
  | @restart ring s s' t _ hdev hboot ih =>
    obtain ⟨base, hworn⟩ := ih.worn
    obtain ⟨t', ht', hintact, hresumes, hbytes, -⟩ := ih.intact.restart hsize hreg hdev
    rw [ht'] at hboot
    cases hboot
    have hk := (hintact e he).known
    rw [hbytes] at hk
    refine ⟨hintact, ?_⟩
    rw [hbytes]
    exact hworn.resumes (hresumes e he) hk hslots

end

end OpenBadge.Filesystem
