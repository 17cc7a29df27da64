import OpenBadge.Filesystem.Known

/-!
# Room behind the last element

Before a store writes, and after each step of the search at registration, the library
reads the header behind an element. On a reliable device that read is the only one that
can fail. A partition needs room for one more header behind its last slot.
-/

namespace OpenBadge.Filesystem

open OpenBadge.Lib OpenBadge.Storage

variable {D : Device} {s t : State D}

/-! ## Seats -/

/-- A place of an element: in a static partition one of its slots. -/
structure Seat (e : Extent) (a len : Nat) : Prop where
  address : a = e.start ∨ e.start + metadataSize + getElementHeaderLen e.pid ≤ a
  len_lt : len < 2 ^ 16
  stop_le : e.stopOf a len ≤ e.start + e.size
  slot : isDynamic e.pid = false → len = e.elementLen ∧
    ∃ k, e.stopOf a len = e.start + metadataSize + k * (getElementHeaderLen e.pid + e.elementLen)

/-- One more header fits behind the last slot, or behind the partition if its elements
can have any length. -/
def Extent.Roomy (D : Device) (e : Extent) : Prop :=
  (if isDynamic e.pid then e.start + e.size
    else e.start + metadataSize + e.slots * (getElementHeaderLen e.pid + e.elementLen)) +
    getElementHeaderLen e.pid ≤ D.size

theorem Seat.slot_le {e : Extent} {a len k : Nat} (h : Seat e a len)
    (hk : e.stopOf a len =
      e.start + metadataSize + k * (getElementHeaderLen e.pid + e.elementLen)) :
    k ≤ e.slots := by
  have hH := elementHeaderLen_bounds e.pid
  have hstop := h.stop_le
  unfold Extent.slots
  rw [Nat.le_div_iff_mul_le (by omega)]
  omega

theorem Seat.probe_fits {e : Extent} {a len : Nat} (h : Seat e a len) (hroom : e.Roomy D) :
    e.stopOf a len + getElementHeaderLen e.pid ≤ D.size := by
  unfold Extent.Roomy at hroom
  have hstop := h.stop_le
  cases hd : isDynamic e.pid with
  | true =>
    rw [hd, if_pos rfl] at hroom
    omega
  | false =>
    rw [hd, if_neg (by decide)] at hroom
    obtain ⟨-, k, hk⟩ := h.slot hd
    have hle := Nat.mul_le_mul_right (getElementHeaderLen e.pid + e.elementLen) (h.slot_le hk)
    omega

/-- The seat behind a seat. -/
theorem Seat.next {e : Extent} {a len len' : Nat} (h : Seat e a len) (hlen : len' < 2 ^ 16)
    (hfit : e.stopOf a len + getElementHeaderLen e.pid + len' ≤ e.start + e.size)
    (hstatic : isDynamic e.pid = false → len' = e.elementLen) : Seat e (e.stopOf a len) len' := by
  have hH := elementHeaderLen_bounds e.pid
  have haddr := h.address
  have hgt : e.start + metadataSize + getElementHeaderLen e.pid ≤ e.stopOf a len := by
    unfold Extent.stopOf Extent.dataAt
    split <;> omega
  have hstop : e.stopOf (e.stopOf a len) len' =
      e.stopOf a len + getElementHeaderLen e.pid + len' := by
    rw [Extent.stopOf, Extent.dataAt, if_neg (by omega)]
  refine ⟨.inr hgt, hlen, by omega, fun hd => ⟨hstatic hd, ?_⟩⟩
  obtain ⟨-, k, hk⟩ := h.slot hd
  refine ⟨k + 1, ?_⟩
  rw [hstop, hk, hstatic hd, Nat.add_mul, Nat.one_mul]
  omega

theorem seat_start {e : Extent} {len : Nat} (hlen : len < 2 ^ 16)
    (hfit : e.stopOf e.start len ≤ e.start + e.size)
    (hstatic : isDynamic e.pid = false → len = e.elementLen) : Seat e e.start len := by
  refine ⟨.inl rfl, hlen, hfit, fun hd => ⟨hstatic hd, 1, ?_⟩⟩
  rw [Extent.stopOf, Extent.dataAt, if_pos rfl, hstatic hd, Nat.one_mul]
  omega

/-- The library's variables of a partition whose elements sit inside it. -/
structure Seated (D : Device) (m : Nat → UInt8) (e : Extent) (p : Partition) : Prop where
  known : Known D m e p
  first : p.hasFirstElement = true → Seat e e.start p.metadata.firstElementLen
  latest : p.hasFirstElement = true → Seat e p.latestElementAddress p.latestElementLen

theorem Seated.frame {m m' : Nat → UInt8} {e : Extent} {p : Partition} (h : Seated D m e p)
    (hm : ∀ x, e.Owns x → m' x = m x) : Seated D m' e p :=
  ⟨h.known.frame hm, h.first, h.latest⟩

theorem seat_placement {m : Nat → UInt8} {e : Extent} {p : Partition} {len : Nat}
    {data : List UInt8} (h : Seated D m e p) (hq : Request D e.pid p len data) :
    Seat e (placement e.pid p len).address len := by
  have hstatic : isDynamic e.pid = false → len = e.elementLen := by
    intro hd
    rw [hq.static_len hd, h.known.len_eq hd]
  have hfit := hq.fits.stop_le
  rw [stopOf_extent h.known.start_eq, h.known.start_eq, h.known.size_eq] at hfit
  rcases placement_cases e.pid p len with hstart | ⟨hf, haddr, hnext⟩
  · rw [hstart, h.known.start_eq] at hfit ⊢
    exact seat_start hq.len_lt hfit hstatic
  · unfold latestStop at haddr hnext
    rw [stopOf_extent h.known.start_eq] at haddr hnext
    rw [h.known.start_eq, h.known.size_eq] at hnext
    rw [haddr]
    exact (h.latest hf).next hq.len_lt hnext hstatic

theorem Seated.store {e : Extent} (h : Seated D s.bytes e (s.part e.pid))
    {elementData : Nat → UInt8} {elementLen : Nat} (hlen : elementLen < 2 ^ 16)
    (hstore : storeElement e.pid elementData elementLen s = (.ok (), t)) :
    Seated D t.bytes e (t.part e.pid) ∧ Local e s t := by
  obtain ⟨len, data, w, -, -, hq, hrun, hpart, hknown, hlocal⟩ := h.known.store hlen hstore
  have hseat := seat_placement h hq
  refine ⟨⟨hknown, fun _ => ?_, fun _ => ?_⟩, hlocal⟩
  · rw [hpart]
    by_cases hstart : (placement e.pid (s.part e.pid) len).address =
        (s.part e.pid).firstElementAddress
    · rw [appended_metadata_start hstart]
      rw [hstart, h.known.start_eq] at hseat
      exact hseat
    · rw [appended_metadata_next hstart]
      exact h.first (hasFirst_of_next hstart)
  · rw [hpart]
    exact hseat

/-- The search at registration stays on seats. -/
theorem passable_seats {e : Extent} (hroom : e.Roomy D) {q : Partition}
    (hstart : q.firstElementAddress = e.start) (hsize : q.metadata.partitionSize = e.size)
    (hlen : isDynamic e.pid = false → q.metadata.firstElementLen = e.elementLen) :
    Passable (s.setPart e.pid q) e.pid fun a _ len => Seat e a len := by
  refine ⟨fun a _ len h => ?_, fun a _ len h => ?_, fun a recordId len h hf => ?_⟩
  · rw [setPart_part, hstart]
    rcases h.address with ha | ha <;> omega
  · rw [setPart_part, stopOf_extent hstart]
    exact h.probe_fits hroom
  · rw [setPart_part] at hf ⊢
    have hfit := hf.2
    rw [stopOf_extent hstart] at hfit ⊢
    rw [hstart, hsize] at hfit
    refine h.next ?_ hfit fun hd => ?_
    · unfold neighbourLen
      cases hd : isDynamic e.pid with
      | true =>
        rw [if_pos rfl]
        exact Nat.xor_lt_two_pow h.len_lt (headerOf_xor_lt _ _ _)
      | false =>
        rw [if_neg (by decide), hlen hd, ← (h.slot hd).1]
        exact h.len_lt
    · unfold neighbourLen
      rw [hd, if_neg (by decide)]
      exact hlen hd

theorem Seated.registerFound {e : Extent} {p : Partition} (he : e.Ok D) (hroom : e.Roomy D)
    (h : Seated D s.bytes e p) :
    ∃ p', Filesystem.registerFound e (s.setPart e.pid ((s.part e.pid).registered e)) =
      (.ok e.pid, (s.setPart e.pid p').advance e) ∧ Seated D s.bytes e p' := by
  have hk := h.known
  cases hf : p.hasFirstElement with
  | true =>
    have hpass : ∀ q : Partition, q.firstElementAddress = p.firstElementAddress →
        q.metadata = p.metadata →
        Passable (s.setPart e.pid q) e.pid fun a _ len => Seat e a len := by
      intro q hq₁ hq₂
      apply passable_seats hroom
      · rw [hq₁, hk.start_eq]
      · rw [hq₂, hk.size_eq]
      · rw [hq₂]
        exact hk.len_eq
    obtain ⟨p', hp', hf', hfirst, hmeta, hlatest⟩ := hk.registerFound he hf hpass
      (by rw [hk.start_eq]; exact h.first hf)
    have hseat := latestFrom_pos (hpass p rfl rfl) (p.metadata.partitionSize + 1)
      p.firstElementAddress (headerOf s.bytes e.pid (p.firstElementAddress + metadataSize)).recordId
      p.metadata.firstElementLen (by rw [hk.start_eq]; exact h.first hf)
    rw [setPart_part, setPart_bytes] at hseat
    unfold latestOf at hlatest
    rw [← hlatest] at hseat
    change Seat e p'.latestElementAddress p'.latestElementLen at hseat
    have hstop := hseat.stop_le
    have hlt : p'.latestElementAddress ≤ e.stopOf p'.latestElementAddress p'.latestElementLen := by
      unfold Extent.stopOf Extent.dataAt
      split <;> omega
    have hram : Ram D e.pid p' := by
      refine hk.ram.located hfirst hmeta ?_ hseat.len_lt hf'
      rw [hk.start_eq, hk.size_eq]
      rcases hseat.address with ha | ha
      · exact .inl ha
      · exact .inr ⟨ha, by omega⟩
    exact ⟨p', hp', hk.resumed hf hfirst hmeta hf' hram, fun _ => by rw [hmeta]; exact h.first hf,
      fun _ => hseat⟩
  | false =>
    obtain ⟨hfound, hknown⟩ := hk.registerFound_bare he hf
    refine ⟨_, hfound, hknown, fun htrue => ?_, fun htrue => ?_⟩
    · cases htrue
    · cases htrue

/-! ## Runs -/

/-- No iterator is valid. -/
def NoIterator (s : State D) : Prop :=
  ∀ i, (s.partitionIterators i).iteratorValid ≠ iteratorValidNumber

theorem noIterator_powerUp (dev : D.State) : NoIterator (powerUp dev) := by
  intro i
  change 0 ≠ iteratorValidNumber
  decide

/-- The runs of an application from the state `s₀` after its first start: stores with any
outcome, and restarts, which keep the storage. -/
inductive StoreSteps (rs : List Registration) (pids : List Nat) (s₀ : State D) : State D → Prop
  | start : StoreSteps rs pids s₀ s₀
  | store {s : State D} {pid : Nat} (elementData : Nat → UInt8) (elementLen : UInt16) :
      StoreSteps rs pids s₀ s → pid ∈ pids →
      StoreSteps rs pids s₀ (storeElement pid elementData elementLen.toNat s).2
  | restart {s s' t : State D} :
      StoreSteps rs pids s₀ s → s'.dev = s.dev → NoIterator s' →
      boot rs s' = (.ok pids, t) → StoreSteps rs pids s₀ t

/-- In every state of a run an element that passes the checks of its length and for
space is stored, and a restart does not end in an internal error. -/
def NeverRefuses (rs : List Registration) (pids : List Nat) (s₀ : State D) : Prop :=
  ∀ s, StoreSteps rs pids s₀ s →
    (∀ pid ∈ pids, ∀ (elementData : Nat → UInt8) (elementLen : UInt16),
      Accepted pid (s.part pid) elementLen.toNat →
      (storeElement pid elementData elementLen.toNat s).1 = .ok ()) ∧
    ∀ s' : State D, s'.dev = s.dev → NoIterator s' → (boot rs s').1 ≠ .error .internal

/-- The partition leaves room for the header behind its last element. -/
def RoomBehind (D : Device) (pid : Nat) (p : Partition) : Prop :=
  (if isDynamic pid then p.firstElementAddress + p.metadata.partitionSize
    else p.firstElementAddress + metadataSize +
      (p.metadata.partitionSize - metadataSize) /
        (getElementHeaderLen pid + p.metadata.firstElementLen) *
        (getElementHeaderLen pid + p.metadata.firstElementLen)) +
    getElementHeaderLen pid ≤ D.size

/-- The partitions of an application, each with its elements in their seats. -/
structure AllSeated (rs : List Registration) (s : State D) : Prop where
  seated : ∀ e ∈ layout D rs, Seated D s.bytes e (s.part e.pid)
  noIterator : NoIterator s

/-- A store on a reliable device succeeds or leaves the state as it is. -/
theorem storeElement_outcome (hD : D.Reliable) {e : Extent}
    (h : Seated D s.bytes e (s.part e.pid)) (hiter : NoIterator s)
    (elementData : Nat → UInt8) (elementLen : Nat) :
    (∃ t, storeElement e.pid elementData elementLen s = (.ok (), t)) ∨
      (storeElement e.pid elementData elementLen s).2 = s := by
  by_cases hacc : Accepted e.pid (s.part e.pid) elementLen
  · by_cases hprobe : stopOf e.pid (s.part e.pid)
        (storedAt e.pid (s.part e.pid) elementLen).address
        (storedLen e.pid (s.part e.pid) elementLen) + getElementHeaderLen e.pid ≤ D.size
    · exact .inl (storeElement_ok_of_reliable hD h.known.ram h.known.sync (hiter _) hacc hprobe
        elementData)
    · right
      rw [storeElement_probe h.known.ram h.known.sync (hiter _) hacc (Nat.lt_of_not_le hprobe)]
  · exact .inr (storeElement_refused hacc elementData).2

theorem noIterator_store {pid : Nat} {elementData : Nat → UInt8} {elementLen : Nat}
    (hr : Ram D pid (s.part pid)) (hs : Sync s pid) (h : NoIterator s)
    (hstore : storeElement pid elementData elementLen s = (.ok (), t)) : NoIterator t := by
  obtain ⟨-, -, s₁, w, v, -, hiter, -, rfl⟩ := storeElement_eq_ok hr hs hstore
  rcases hiter with rfl | rfl
  · exact h
  · intro i
    change (Function.update s.partitionIterators (partitionIndex pid) _ i).iteratorValid ≠ _
    by_cases hi : i = partitionIndex pid
    · rw [hi, Function.update_self]
      change 0 ≠ iteratorValidNumber
      decide
    · rw [Function.update_of_ne hi]
      exact h i

theorem AllSeated.store (hD : D.Reliable) {rs : List Registration}
    (hreg : AllRegistrable D 0 (firstFree D) rs) (h : AllSeated rs s) {e : Extent}
    (he : e ∈ layout D rs) (elementData : Nat → UInt8) {elementLen : Nat}
    (hlen : elementLen < 2 ^ 16) :
    AllSeated rs (storeElement e.pid elementData elementLen s).2 := by
  have hs := h.seated e he
  rcases storeElement_outcome hD hs h.noIterator elementData elementLen with ⟨t, ht⟩ | hsame
  · rw [ht]
    exact ⟨forall_of_local hreg Seated.frame h.seated he (hs.store hlen ht),
      noIterator_store hs.known.ram hs.known.sync h.noIterator ht⟩
  · rw [hsame]
    exact h

theorem AllSeated.restart {rs : List Registration} (hsize : swapPageSize ≤ D.size)
    (hreg : AllRegistrable D 0 (firstFree D) rs) (hroom : ∀ e ∈ layout D rs, e.Roomy D)
    (h : AllSeated rs s) {s' : State D} (hdev : s'.dev = s.dev) (hiter : NoIterator s') :
    ∃ t, boot rs s' = (.ok ((layout D rs).map Extent.pid), t) ∧ AllSeated rs t := by
  obtain ⟨t, ht, hbytes, hiters, hparts⟩ := boot_of_found (s := s)
    (Q := fun e p => Seated D s.bytes e p) hsize hreg
    (fun e he s₁ hs₁ => by
      rw [← hs₁]
      exact Seated.registerFound (layout_ok hreg he) (hroom e he) (by rw [hs₁]; exact h.seated e he))
    hdev
  refine ⟨t, ht, fun e he => ?_, ?_⟩
  · rw [hbytes]
    exact hparts e he
  · unfold NoIterator
    rw [hiters]
    exact hiter

theorem StoreSteps.allSeated (hD : D.Reliable) {rs : List Registration} {s₀ : State D}
    (hsize : swapPageSize ≤ D.size) (hreg : AllRegistrable D 0 (firstFree D) rs)
    (hroom : ∀ e ∈ layout D rs, e.Roomy D) (h₀ : AllSeated rs s₀)
    (h : StoreSteps rs ((layout D rs).map Extent.pid) s₀ s) : AllSeated rs s := by
  induction h with
  | start => exact h₀
  | store elementData elementLen _ hpid ih =>
    obtain ⟨e, he, rfl⟩ := List.mem_map.mp hpid
    exact ih.store hD hreg he elementData elementLen.toNat_lt
  | restart _ hdev hiter hboot ih =>
    obtain ⟨t, ht, hseated⟩ := ih.restart hsize hreg hroom hdev hiter
    rw [ht] at hboot
    cases hboot
    exact hseated

/-- With room behind every partition no element is refused. -/
theorem neverRefuses_of_roomy (hD : D.Reliable) {rs : List Registration} {s₀ : State D}
    (hsize : swapPageSize ≤ D.size) (hreg : AllRegistrable D 0 (firstFree D) rs)
    (hroom : ∀ e ∈ layout D rs, e.Roomy D) (h₀ : AllSeated rs s₀) :
    NeverRefuses rs ((layout D rs).map Extent.pid) s₀ := by
  intro s hs
  have hseated := hs.allSeated hD hsize hreg hroom h₀
  refine ⟨fun pid hpid elementData elementLen hacc => ?_, fun s' hdev hiter => ?_⟩
  · obtain ⟨e, he, rfl⟩ := List.mem_map.mp hpid
    have hse := hseated.seated e he
    have hq := request_of_accepted hse.known.ram elementLen.toNat_lt hacc elementData
    have hprobe := (seat_placement hse hq).probe_fits (hroom e he)
    rw [← stopOf_extent hse.known.start_eq] at hprobe
    obtain ⟨t, ht⟩ := storeElement_ok_of_reliable hD hse.known.ram hse.known.sync
      (hseated.noIterator _) hacc hprobe elementData
    rw [ht]
  · obtain ⟨t, ht, -⟩ := hseated.restart hsize hreg hroom hdev hiter
    rw [ht]
    intro h
    cases h

/-! ## The way to the last seat -/

/-- An element that has to be accepted is stored, and the header behind it was read. -/
theorem NeverRefuses.store (hD : D.Reliable) {rs : List Registration} {s₀ : State D}
    (hreg : AllRegistrable D 0 (firstFree D) rs)
    (hnever : NeverRefuses rs ((layout D rs).map Extent.pid) s₀)
    (hs : StoreSteps rs ((layout D rs).map Extent.pid) s₀ s) (hseated : AllSeated rs s)
    {e : Extent} (he : e ∈ layout D rs) {elementLen : UInt16} {pl : Placement} {len : Nat}
    (hlen : len = storedLen e.pid (s.part e.pid) elementLen.toNat)
    (hpl : pl = placement e.pid (s.part e.pid) len)
    (hacc : Accepted e.pid (s.part e.pid) elementLen.toNat) :
    ∃ t, StoreSteps rs ((layout D rs).map Extent.pid) s₀ t ∧ AllSeated rs t ∧
      (t.part e.pid).hasFirstElement = true ∧ latestStop e.pid (t.part e.pid) =
        e.stopOf pl.address len ∧
      e.stopOf pl.address len + getElementHeaderLen e.pid ≤ D.size := by
  have hse := hseated.seated e he
  have hpid : e.pid ∈ (layout D rs).map Extent.pid := List.mem_map_of_mem he
  have hok := (hnever s hs).1 e.pid hpid blankBytes elementLen hacc
  have hstep := hs.store blankBytes elementLen hpid
  have hseated' := hseated.store hD hreg he blankBytes elementLen.toNat_lt
  obtain ⟨t, ht⟩ : ∃ t, storeElement e.pid blankBytes elementLen.toNat s = (.ok (), t) :=
    ⟨_, Proc.eq_of_fst hok⟩
  rw [ht] at hstep hseated'
  obtain ⟨-, -, s₁, w, v, -, -, hrun, rfl⟩ := storeElement_eq_ok hse.known.ram hse.known.sync ht
  have hprobe := hrun.probe_fits
  rw [stopOf_extent hse.known.start_eq] at hprobe
  refine ⟨_, hstep, hseated', by rw [setDev_part, setPart_part]; rfl, ?_, ?_⟩
  · rw [setDev_part, setPart_part, hpl, hlen]
    unfold latestStop
    rw [stopOf_extent (by rw [appended_first]; exact hse.known.start_eq)]
    rfl
  · rw [hpl, hlen]
    exact hprobe

section LastSeat

variable (hD : D.Reliable) {rs : List Registration} {s₀ : State D}
  (hreg : AllRegistrable D 0 (firstFree D) rs)
  (hnever : NeverRefuses rs ((layout D rs).map Extent.pid) s₀) (h₀ : AllSeated rs s₀)
  {e : Extent} (he : e ∈ layout D rs)

include hD hreg hnever he

/-- The next element of length `len` behind the latest one. -/
theorem NeverRefuses.next (hs : StoreSteps rs ((layout D rs).map Extent.pid) s₀ s)
    (hseated : AllSeated rs s) (hf : (s.part e.pid).hasFirstElement = true) {len : Nat}
    (hlen : len < 2 ^ 16)
    (hstatic : isDynamic e.pid = false → len = (s.part e.pid).metadata.firstElementLen)
    (hfit : latestStop e.pid (s.part e.pid) + getElementHeaderLen e.pid + len ≤
      e.start + e.size) :
    ∃ t, StoreSteps rs ((layout D rs).map Extent.pid) s₀ t ∧ AllSeated rs t ∧
      (t.part e.pid).hasFirstElement = true ∧
      latestStop e.pid (t.part e.pid) =
        latestStop e.pid (s.part e.pid) + getElementHeaderLen e.pid + len ∧
      latestStop e.pid (s.part e.pid) + getElementHeaderLen e.pid + len +
        getElementHeaderLen e.pid ≤ D.size := by
  have hk := (hseated.seated e he).known
  have hge := latestStop_ge hk.ram
  have hH := elementHeaderLen_bounds e.pid
  rw [hk.start_eq] at hge
  have htoNat : (UInt16.ofNat len).toNat = len := by
    rw [UInt16.toNat_ofNat', Nat.mod_eq_of_lt hlen]
  have hfit' : latestStop e.pid (s.part e.pid) + getElementHeaderLen e.pid + len ≤
      (s.part e.pid).firstElementAddress + (s.part e.pid).metadata.partitionSize := by
    rw [hk.start_eq, hk.size_eq]
    exact hfit
  have hstored : len = storedLen e.pid (s.part e.pid) (UInt16.ofNat len).toNat := by
    rw [htoNat]
    unfold storedLen
    split
    · rename_i h
      exact hstatic h.1
    · rfl
  have hpl := placement_next hf hfit'
  have hstop : e.stopOf (latestStop e.pid (s.part e.pid)) len =
      latestStop e.pid (s.part e.pid) + getElementHeaderLen e.pid + len := by
    rw [Extent.stopOf, Extent.dataAt, if_neg (by omega)]
  have hacc : Accepted e.pid (s.part e.pid) (UInt16.ofNat len).toNat := by
    refine ⟨fun h => h.2.2 (by rw [htoNat]; exact hstatic h.1), ?_⟩
    rw [← hstored, hpl, stopOf_extent hk.start_eq, hstop]
    exact hfit'
  obtain ⟨t, ht, hseated', hf', hlatest, hprobe⟩ := hnever.store hD hreg hs hseated he hstored
    hpl.symm hacc
  rw [hstop] at hlatest hprobe
  exact ⟨t, ht, hseated', hf', hlatest, hprobe⟩

/-- The first element, of length `len`. -/
theorem NeverRefuses.first (hs : StoreSteps rs ((layout D rs).map Extent.pid) s₀ s)
    (hseated : AllSeated rs s) (hf : (s.part e.pid).hasFirstElement = false) {len : Nat}
    (hlen : len < 2 ^ 16)
    (hstatic : isDynamic e.pid = false → len = (s.part e.pid).metadata.firstElementLen)
    (hfit : metadataSize + getElementHeaderLen e.pid + len ≤ e.size) :
    ∃ t, StoreSteps rs ((layout D rs).map Extent.pid) s₀ t ∧ AllSeated rs t ∧
      (t.part e.pid).hasFirstElement = true ∧
      latestStop e.pid (t.part e.pid) =
        e.start + (metadataSize + getElementHeaderLen e.pid) + len ∧
      e.start + (metadataSize + getElementHeaderLen e.pid) + len + getElementHeaderLen e.pid ≤
        D.size := by
  have hk := (hseated.seated e he).known
  have htoNat : (UInt16.ofNat len).toNat = len := by
    rw [UInt16.toNat_ofNat', Nat.mod_eq_of_lt hlen]
  have hstored : len = storedLen e.pid (s.part e.pid) (UInt16.ofNat len).toNat := by
    rw [htoNat]
    unfold storedLen
    split
    · rename_i h
      exact hstatic h.1
    · rfl
  have hpl : placement e.pid (s.part e.pid) len = _ := placement_empty hf len
  have hstop : e.stopOf (s.part e.pid).firstElementAddress len =
      e.start + (metadataSize + getElementHeaderLen e.pid) + len := by
    rw [Extent.stopOf, Extent.dataAt, if_pos hk.start_eq, hk.start_eq]
  have hacc : Accepted e.pid (s.part e.pid) (UInt16.ofNat len).toNat := by
    refine ⟨fun h => h.2.2 (by rw [htoNat]; exact hstatic h.1), ?_⟩
    rw [← hstored, hpl, stopOf_extent hk.start_eq, hstop, hk.start_eq, hk.size_eq]
    omega
  obtain ⟨t, ht, hseated', hf', hlatest, hprobe⟩ := hnever.store hD hreg hs hseated he hstored
    hpl.symm hacc
  rw [hstop] at hlatest hprobe
  exact ⟨t, ht, hseated', hf', hlatest, hprobe⟩

/-- A static partition is filled slot by slot. -/
theorem NeverRefuses.slots (hf : (s₀.part e.pid).hasFirstElement = false)
    (h₀ : AllSeated rs s₀) (hok : e.Ok D) : ∀ k, k < e.slots →
    ∃ t, StoreSteps rs ((layout D rs).map Extent.pid) s₀ t ∧ AllSeated rs t ∧
      (t.part e.pid).hasFirstElement = true ∧
      latestStop e.pid (t.part e.pid) = e.start + metadataSize +
        (k + 1) * (getElementHeaderLen e.pid + e.elementLen) ∧
      e.start + metadataSize + (k + 1) * (getElementHeaderLen e.pid + e.elementLen) +
        getElementHeaderLen e.pid ≤ D.size := by
  intro k
  have hH := elementHeaderLen_bounds e.pid
  have hroom := hok.room
  induction k with
  | zero =>
    intro _
    obtain ⟨t, ht, hseated, hf', hlatest, hprobe⟩ := hnever.first hD hreg he StoreSteps.start h₀ hf
      hok.len_lt (fun hd => ((h₀.seated e he).known.len_eq hd).symm) hroom
    refine ⟨t, ht, hseated, hf', ?_, ?_⟩
    · rw [hlatest]
      omega
    · omega
  | succ k ih =>
    intro hk
    obtain ⟨t, ht, hseated, hf', hlatest, -⟩ := ih (by omega)
    have hslots : (k + 1 + 1) * (getElementHeaderLen e.pid + e.elementLen) ≤
        e.size - metadataSize := by
      rw [← Nat.le_div_iff_mul_le (by omega)]
      exact hk
    have hmul : (k + 1 + 1) * (getElementHeaderLen e.pid + e.elementLen) =
        (k + 1) * (getElementHeaderLen e.pid + e.elementLen) +
          (getElementHeaderLen e.pid + e.elementLen) := Nat.succ_mul _ _
    obtain ⟨t', ht', hseated', hf'', hlatest', hprobe⟩ := hnever.next hD hreg he ht hseated hf'
      hok.len_lt (fun hd => ((hseated.seated e he).known.len_eq hd).symm) (by omega)
    exact ⟨t', ht', hseated', hf'', by omega, by omega⟩

/-- A dynamic partition is filled to its end. -/
theorem NeverRefuses.fill (hd : isDynamic e.pid = true) : ∀ (rest : Nat) (s : State D),
    StoreSteps rs ((layout D rs).map Extent.pid) s₀ s → AllSeated rs s →
    (s.part e.pid).hasFirstElement = true → getElementHeaderLen e.pid ≤ rest →
    latestStop e.pid (s.part e.pid) + rest = e.start + e.size →
    e.start + e.size + getElementHeaderLen e.pid ≤ D.size := by
  intro rest
  have hH := elementHeaderLen_bounds e.pid
  have hstatic : ∀ {len len' : Nat}, isDynamic e.pid = false → len = len' := by
    intro len len' h
    rw [hd] at h
    cases h
  induction rest using Nat.strongRecOn with
  | ind rest ih =>
    intro s hs hseated hf hrest hstop
    by_cases hlast : rest - getElementHeaderLen e.pid < 2 ^ 16
    · obtain ⟨t, -, -, -, -, hprobe⟩ := hnever.next hD hreg he hs hseated hf hlast hstatic
        (by omega)
      omega
    · obtain ⟨t, ht, hseated', hf', hlatest, -⟩ := hnever.next hD hreg he hs hseated hf
        (Nat.two_pow_pos 16) hstatic (by omega)
      exact ih (rest - getElementHeaderLen e.pid) (by omega) t ht hseated' hf' (by omega) (by omega)

/-- Where no element is refused there is room behind the partition. -/
theorem NeverRefuses.roomy (hf : (s₀.part e.pid).hasFirstElement = false)
    (h₀ : AllSeated rs s₀) (hok : e.Ok D) : e.Roomy D := by
  have hH := elementHeaderLen_bounds e.pid
  have hroom := hok.room
  unfold Extent.Roomy
  cases hd : isDynamic e.pid with
  | true =>
    have hstatic : ∀ {len len' : Nat}, isDynamic e.pid = false → len = len' := by
      intro len len' h
      rw [hd] at h
      cases h
    rw [if_pos rfl]
    by_cases hlast : e.size - (metadataSize + getElementHeaderLen e.pid) < 2 ^ 16
    · obtain ⟨t, -, -, -, -, hprobe⟩ := hnever.first hD hreg he StoreSteps.start h₀ hf hlast hstatic
        (by omega)
      omega
    · obtain ⟨t, ht, hseated, hf', hlatest, -⟩ := hnever.first hD hreg he StoreSteps.start h₀ hf
        (Nat.two_pow_pos 16) hstatic (by omega)
      exact hnever.fill hD hreg he hd (e.size - (metadataSize + getElementHeaderLen e.pid)) t ht
        hseated hf' (by omega) (by omega)
  | false =>
    rw [if_neg (by decide)]
    have hslots : 0 < e.slots := by
      unfold Extent.slots
      apply Nat.div_pos
      · omega
      · omega
    obtain ⟨t, -, -, -, -, hprobe⟩ := hnever.slots hD hreg he hf h₀ hok (e.slots - 1) (by omega)
    rw [Nat.sub_add_cancel hslots] at hprobe
    exact hprobe

end LastSeat

/-- On a reliable device a start with these partitions never leads to a refused element,
or to a failing restart, if and only if every partition has room for one more header
behind its last slot. -/
theorem never_refuses_iff (hD : D.Reliable) {rs : List Registration} {pids : List Nat}
    {s₀ s₁ : State D} (hblank : Blank s₀.bytes D.size) (hiter : NoIterator s₀)
    (hboot : boot rs s₀ = (.ok pids, s₁)) :
    NeverRefuses rs pids s₁ ↔ ∀ pid ∈ pids, RoomBehind D pid (s₁.part pid) := by
  obtain ⟨hsize, hreg, rfl, hdev, hiters, hparts⟩ := boot_blank hblank hboot
  have hblank₁ : Blank s₁.bytes D.size := by
    unfold State.bytes
    rw [hdev]
    exact hblank
  have h₀ : AllSeated rs s₁ := by
    refine ⟨fun e he => ?_, ?_⟩
    · obtain ⟨p, hp⟩ := hparts e he
      rw [hp]
      refine ⟨known_blank (layout_ok hreg he) hblank₁ p, fun htrue => ?_, fun htrue => ?_⟩
      · cases htrue
      · cases htrue
    · unfold NoIterator
      rw [hiters]
      exact hiter
  have hroomy : ∀ e ∈ layout D rs, (RoomBehind D e.pid (s₁.part e.pid) ↔ e.Roomy D) := by
    intro e he
    obtain ⟨p, hp⟩ := hparts e he
    rw [hp]
    exact Iff.rfl
  constructor
  · intro hnever pid hpid
    obtain ⟨e, he, rfl⟩ := List.mem_map.mp hpid
    rw [hroomy e he]
    obtain ⟨p, hp⟩ := hparts e he
    exact hnever.roomy hD hreg he (by rw [hp]; rfl) h₀ (layout_ok hreg he)
  · intro hroom
    refine neverRefuses_of_roomy hD hsize hreg (fun e he => ?_) h₀
    rw [← hroomy e he]
    exact hroom e.pid (List.mem_map_of_mem he)

/-- A static partition of two slots. -/
def twoSlots : List Registration := [⟨26, false, false, 4, four_lt_elementLenMax⟩]

/-- With storage behind the partition, every element is stored. -/
theorem never_refuses_eeprom :
    NeverRefuses twoSlots [0] (boot twoSlots (powerUp (D := eeprom) blankBytes)).2 := by
  have hboot : boot twoSlots (powerUp (D := eeprom) blankBytes) = (.ok [0], _) :=
    Proc.eq_of_fst (by decide +kernel)
  refine (never_refuses_iff (fillDevice_reliable _ _ _ _) (fun _ _ => rfl) (noIterator_powerUp _)
    hboot).mpr fun pid hpid => ?_
  rw [List.mem_singleton.mp hpid]
  unfold RoomBehind
  decide +kernel

/-- A storage that ends with the second slot. -/
def tightEeprom : Device :=
  fillDevice [⟨426, 1, Nat.one_pos, by decide⟩] (by decide) (fun _ b => b) fill_old

/-- There the second element is refused, although it passes the checks. -/
theorem second_slot_refused :
    ¬ NeverRefuses twoSlots [0] (boot twoSlots (powerUp (D := tightEeprom) blankBytes)).2 := by
  intro h
  have hstep := StoreSteps.store (bytesOf [1, 2, 3, 4]) 4
    (StoreSteps.start : StoreSteps twoSlots [0]
      (boot twoSlots (powerUp (D := tightEeprom) blankBytes)).2 _) (List.mem_singleton_self 0)
  have hstored := (h _ hstep).1 0 (List.mem_singleton_self 0) (bytesOf [5, 6, 7, 8]) 4
    (by decide +kernel)
  revert hstored
  decide +kernel

end OpenBadge.Filesystem
