import OpenBadge.Filesystem.Laps

/-!
# The log of a partition

`RingLog` relates a partition to the list of all elements that were stored in it: the
latest ones form the current lap, and behind the latest element lies what is left of
the lap before. Stores keep it.
-/

namespace OpenBadge.Filesystem

open OpenBadge.Lib OpenBadge.Storage

variable {D : Device} {m m₀ : Nat → UInt8} {e : Extent} {p : Partition}
  {link a : Nat} {f el : Element} {els log rest : List Element}

/-! ## Numbered logs -/

/-- The identifiers of a log, the latest element first, count the stores. -/
def Numbered : List Element → Prop
  | [] => True
  | el :: log => el.2 = recordIdOf log.length ∧ Numbered log

theorem Numbered.append : ∀ {front : List Element}, Numbered (front ++ log) → Numbered log
  | [], h => h
  | _ :: _, h => Numbered.append h.2

theorem Numbered.head (h : Numbered (el :: log)) : el.2 = recordIdOf log.length := h.1

/-! ## Slots -/

/-- The size of a slot of a static partition. -/
def Extent.slotSize (e : Extent) : Nat := getElementHeaderLen e.pid + e.elementLen

theorem Extent.slotSize_pos (e : Extent) : 0 < e.slotSize := by
  have hH := elementHeaderLen_bounds e.pid
  unfold Extent.slotSize
  omega

theorem Extent.fits_iff (e : Extent) (n : Nat) (hsize : metadataSize ≤ e.size) :
    e.start + metadataSize + n * e.slotSize ≤ e.start + e.size ↔ n ≤ e.slots := by
  unfold Extent.slots
  rw [show getElementHeaderLen e.pid + e.elementLen = e.slotSize from rfl,
    Nat.le_div_iff_mul_le e.slotSize_pos]
  omega

/-- In a static partition the elements of a lap fill its slots. -/
theorem Lap.static_stop (h : Lap m e link f (el :: els) a) (hd : isDynamic e.pid = false) :
    e.stopOf a el.1.length = e.start + metadataSize + (els.length + 1) * e.slotSize := by
  generalize hl : el :: els = l at h
  induction h generalizing el els with
  | first hs =>
    cases hl
    rw [hs.len_static hd]
    rw [extent_stopOf_start, List.length_nil]
    unfold Extent.slotSize
    omega
  | @next el₁ el₂ els₁ a₁ hlap hid hs ih =>
    cases hl
    have hle := hlap.start_le
    have hgt := stopOf_gt e a₁ el₁.1.length
    rw [hs.len_static hd, extent_stopOf_next (by omega), ih rfl, List.length_cons,
      Nat.succ_mul (els₁.length + 1)]
    unfold Extent.slotSize
    omega

/-- The identifier in a slot other than the first one. -/
theorem Lap.static_recordId (h : Lap m e link f els a) (hd : isDynamic e.pid = false)
    (hn : Numbered (els ++ rest)) {j : Nat} (hj : 1 ≤ j) (hj' : j < els.length) :
    (headerOf m e.pid (e.start + metadataSize + j * e.slotSize)).recordId =
      recordIdOf (rest.length + j) := by
  induction h with
  | first hs =>
    change j < 1 at hj'
    omega
  | @next el₁ el₂ els₁ a₁ hlap hid hs ih =>
    by_cases hlast : j = els₁.length + 1
    · have hle := hlap.start_le
      have hgt := stopOf_gt e a₁ el₁.1.length
      have hread := hs.headerOf_eq
      rw [dataAt_next (by omega), hlap.static_stop hd, ← hlast] at hread
      rw [hread]
      change el₂.2 = _
      rw [hn.1, hlast]
      congr 1
      change (el₁ :: els₁ ++ rest).length = _
      rw [List.length_append, List.length_cons]
      omega
    · exact ih hn.2 (by
        rw [List.length_cons, List.length_cons] at hj'
        rw [List.length_cons]
        omega)

/-! ## Rounds -/

/-- Storage with byte units and a static partition whose slots are fewer than the
record identifiers: no header behind a new element is ever cleared. -/
def Exact (D : Device) (e : Extent) : Prop :=
  D.ByteUnits ∧ isDynamic e.pid = false ∧ e.slots < 65534

/-- What is left of the bytes `m₀` behind `front`. -/
structure Residue (D : Device) (e : Extent) (front : Nat) (m₀ m : Nat → UInt8) : Prop where
  fronted : Fronted (e.start + e.size) front m₀ m
  kept : Exact D e → ∀ x, front ≤ x → x < e.start + e.size → m x = m₀ x

theorem Residue.trans {front front' : Nat} {m' : Nat → UInt8} (h : Residue D e front m₀ m)
    (hle : front ≤ front') (h' : Residue D e front' m m') : Residue D e front' m₀ m' := by
  refine ⟨(h.fronted.mono hle).trans h'.fronted, fun hx x hfront hstop => ?_⟩
  rw [h'.kept hx x hfront hstop]
  exact h.kept hx x (by omega) hstop

/-- The library's variables name the latest element. -/
structure Latest (p : Partition) (el : Element) : Prop where
  recordId : p.latestElementRecordId = el.2
  len : p.latestElementLen = el.1.length

/-- The log of a partition with elements. In the first round there is nothing behind the
current lap; later on there is the lap before. -/
inductive Rounds (D : Device) (m : Nat → UInt8) (e : Extent) (p : Partition) :
    List Element → Prop
  | first {f el : Element} {els : List Element} :
      Lap m e 0 f (el :: els) p.latestElementAddress → Latest p el →
      p.metadata.lastElementAddress ≤ e.start → Rounds D m e p (el :: els)
  | later {f el old f₀ : Element} {els olds rest : List Element} {m₀ : Nat → UInt8}
      {link₀ a₀ : Nat} :
      Lap m e (old.1.length ^^^ f.1.length) f (el :: els) p.latestElementAddress → Latest p el →
      Lap m₀ e link₀ f₀ (old :: olds) a₀ → f.2 = incrementRecordId old.2 →
      Residue D e (e.stopOf p.latestElementAddress el.1.length) m₀ m →
      p.metadata.lastElementAddress =
        (if e.stopOf e.start f.1.length ≥ a₀ then e.start else a₀) →
      (isDynamic e.pid = false → (old :: olds).length = e.slots) →
      Rounds D m e p (el :: els ++ (old :: olds ++ rest))

/-- The partition at `e` after the stores of `log`, the latest first. -/
structure RingLog (D : Device) (m : Nat → UInt8) (e : Extent) (p : Partition)
    (log : List Element) : Prop where
  known : Known D m e p
  numbered : Numbered log
  fresh : p.hasFirstElement = false → log = [] ∧ p.latestElementAddress = e.start ∧
    p.latestElementRecordId = recordIdOf 0
  rounds : p.hasFirstElement = true → Rounds D m e p log

theorem Rounds.cases_current (h : Rounds D m e p log) :
    ∃ link f el els tail, log = el :: els ++ tail ∧
      Lap m e link f (el :: els) p.latestElementAddress ∧ Latest p el := by
  cases h with
  | first hlap hlatest => exact ⟨_, _, _, _, [], (List.append_nil _).symm, hlap, hlatest⟩
  | later hlap hlatest => exact ⟨_, _, _, _, _, rfl, hlap, hlatest⟩

/-! ## Stores -/

/-- In a slot of the lap before there is no next element. -/
theorem not_follows_of_lap (hk : Known D m e p) (hd : isDynamic e.pid = false)
    (hslots : e.slots < 65534) {link₀ a₀ : Nat} {f₀ : Element} {olds : List Element}
    (hlap : Lap m₀ e link₀ f₀ olds a₀) (hn : Numbered (olds ++ rest))
    (holds : olds.length = e.slots) {c address recordId : Nat}
    (hstop : e.stopOf address e.elementLen = e.start + metadataSize + (c + 1) * e.slotSize)
    (hid : recordId = recordIdOf (c + e.slots + rest.length))
    (hm : ∀ x, e.stopOf address e.elementLen ≤ x → x < e.start + e.size → m x = m₀ x) :
    ¬ Follows m e.pid p address recordId e.elementLen := by
  rintro ⟨hrec, hfit⟩
  have hsize := hk.ram.size_ge
  rw [hk.size_eq] at hsize
  unfold neighbourLen at hfit
  rw [hd, stopOf_extent hk.start_eq, hk.start_eq, hk.size_eq] at hfit
  simp only [Bool.false_eq_true, if_false] at hfit
  rw [hk.len_eq hd, Nat.add_assoc] at hfit
  have hin : c + 1 + 1 ≤ e.slots := by
    rw [← e.fits_iff _ (by omega), Nat.succ_mul]
    change e.stopOf address e.elementLen + e.slotSize ≤ _ at hfit
    omega
  rw [stopOf_extent hk.start_eq, headerOf_congr (m := m₀) fun x hx hx' => hm x hx (by omega),
    hstop, hlap.static_recordId hd hn (by omega) (by omega), hid, increment_recordIdOf] at hrec
  exact recordIdOf_ne (by omega) (by omega) hrec

variable {len : Nat} {data : List UInt8} {u w v : D.State}

theorem StoreRun.residue (hD : D.AllOrNothing) (hk : Known D (D.byte u) e p)
    (hq : Request D e.pid p len data)
    (h : StoreRun D e.pid p (placement e.pid p len) len data u w v)
    (hnot : Exact D e → ¬ Follows (D.byte u) e.pid p (placement e.pid p len).address
      (placement e.pid p len).recordId len) :
    Residue D e (e.stopOf (placement e.pid p len).address len) (D.byte u) (D.byte v) := by
  rw [← stopOf_extent hk.start_eq]
  exact ⟨h.fronted hD hq _, fun hx x hfront _ => h.kept hx.1 hq (hnot hx) hfront⟩

/-- The current lap is in front of the new element. -/
theorem Lap.extend (hk : Known D (D.byte u) e p) (hq : Request D e.pid p len data)
    (h : StoreRun D e.pid p (placement e.pid p len) len data u w v)
    (hne : (placement e.pid p len).address ≠ p.firstElementAddress)
    (hlap : Lap (D.byte u) e link f (el :: els) p.latestElementAddress) (hlatest : Latest p el) :
    (placement e.pid p len).address = e.stopOf p.latestElementAddress el.1.length ∧
      Lap (D.byte v) e link f ((data, (placement e.pid p len).recordId) :: el :: els)
        (placement e.pid p len).address := by
  obtain ⟨hf, haddr, hfit⟩ := (placement_cases e.pid p len).resolve_left hne
  have hpl := placement_next hf hfit
  have hstands := hq.stands hk.start_eq hk.size_eq hk.len_eq h.appended
  have hstop : (placement e.pid p len).address =
      e.stopOf p.latestElementAddress el.1.length := by
    rw [haddr, latestStop, stopOf_extent hk.start_eq, hlatest.len]
  refine ⟨hstop, ?_⟩
  have hframe : Lap (D.byte v) e link f (el :: els) p.latestElementAddress := by
    refine hlap.frame fun x hx hx' => h.outside hq.ram hq.data_len hq.fits (.inl (by omega)) ?_
    exact hq.ram.outsideSwap (by rw [hk.start_eq]; exact hx)
  rw [hpl] at hstands ⊢
  have hxor : p.latestElementLen ^^^ len = el.1.length ^^^ data.length := by
    rw [hlatest.len, hq.data_len]
  dsimp only at hstands ⊢
  rw [hxor] at hstands
  rw [hpl] at hstop
  dsimp only at hstop
  rw [hstop] at hstands ⊢
  exact Lap.next hframe (congrArg incrementRecordId hlatest.recordId) hstands

theorem Rounds.store_next (hD : D.AllOrNothing) (hk : Known D (D.byte u) e p)
    (hn : Numbered log) (hq : Request D e.pid p len data)
    (h : StoreRun D e.pid p (placement e.pid p len) len data u w v)
    (hne : (placement e.pid p len).address ≠ p.firstElementAddress)
    (hr : Rounds D (D.byte u) e p log) :
    Rounds D (D.byte v) e (p.appended e.pid (placement e.pid p len) len data)
      ((data, (placement e.pid p len).recordId) :: log) := by
  have hlatest' : Latest (p.appended e.pid (placement e.pid p len) len data)
      (data, (placement e.pid p len).recordId) := ⟨rfl, hq.data_len.symm⟩
  cases hr with
  | first hlap hlatest hlast =>
    refine Rounds.first (hlap.extend hk hq h hne hlatest).2 hlatest' ?_
    rw [appended_metadata_next hne]
    exact hlast
  | @later f el old f₀ els olds rest m₀ link₀ a₀ hlap hlatest hold hid hres hlast hslots =>
    obtain ⟨hstop, hlap'⟩ := hlap.extend hk hq h hne hlatest
    obtain ⟨hf, haddr, hfit⟩ := (placement_cases e.pid p len).resolve_left hne
    have hgt := stopOf_gt e (placement e.pid p len).address len
    have hres' := h.residue hD hk hq fun hx => by
      have hlen : len = e.elementLen := (hq.static_len hx.2.1).trans (hk.len_eq hx.2.1)
      have hc := hlap'.static_stop hx.2.1
      rw [show data.length = len from hq.data_len, hlen] at hc
      rw [hlen] at hgt
      have hpid : (placement e.pid p len).recordId =
          recordIdOf ((el :: els).length + e.slots + rest.length) := by
        rw [placement_next hf hfit]
        dsimp only
        rw [hlatest.recordId, hn.head, increment_recordIdOf, ← hslots hx.2.1]
        congr 1
        change (els ++ (old :: olds ++ rest)).length + 1 = _
        rw [List.length_append, List.length_append, List.length_cons (a := el)]
        omega
      rw [hlen] at hpid hstop ⊢
      refine not_follows_of_lap hk hx.2.1 hx.2.2 hold hn.append (hslots hx.2.1) hc hpid
        fun x hx₁ hx₂ => hres.kept hx x ?_ hx₂
      rw [← hstop]
      omega
    refine Rounds.later hlap' hlatest' hold hid ?_ ?_ hslots
    · rw [appended_latest, hq.data_len]
      exact hres.trans (by rw [← hstop]; omega) hres'
    · rw [appended_metadata_next hne]
      exact hlast

/-- A store at the start of a partition with elements begins a new round. -/
theorem Rounds.store_start (hD : D.AllOrNothing) (hk : Known D (D.byte u) e p)
    (hn : Numbered log) (hq : Request D e.pid p len data)
    (h : StoreRun D e.pid p (placement e.pid p len) len data u w v)
    (hf : p.hasFirstElement = true)
    (hstart : (placement e.pid p len).address = p.firstElementAddress)
    (hr : Rounds D (D.byte u) e p log) :
    Rounds D (D.byte v) e (p.appended e.pid (placement e.pid p len) len data)
      ((data, (placement e.pid p len).recordId) :: log) := by
  obtain ⟨link, f, el, els, tail, rfl, hlap, hlatest⟩ := hr.cases_current
  have hnofit : ¬ latestStop e.pid p + getElementHeaderLen e.pid + len ≤
      p.firstElementAddress + p.metadata.partitionSize := by
    intro hfit
    have hge := latestStop_ge hk.ram
    have hH := elementHeaderLen_bounds e.pid
    rw [placement_next hf hfit] at hstart
    dsimp only at hstart
    omega
  have hpl := placement_wrap hf hnofit
  have hstands := hq.stands hk.start_eq hk.size_eq hk.len_eq h.appended
  have hsize := hk.ram.size_ge
  rw [hk.size_eq] at hsize
  rw [latestStop, stopOf_extent hk.start_eq, hlatest.len, hk.start_eq, hk.size_eq] at hnofit
  have hslots : isDynamic e.pid = false → (el :: els).length = e.slots := by
    intro hd
    obtain ⟨x, hs⟩ := hlap.head_stands
    have hin := hs.stop_le
    have hlen : len = e.elementLen := (hq.static_len hd).trans (hk.len_eq hd)
    rw [hlap.static_stop hd] at hin hnofit
    rw [hlen, Nat.add_assoc _ (getElementHeaderLen e.pid),
      show getElementHeaderLen e.pid + e.elementLen = e.slotSize from rfl, Nat.add_assoc _ _ e.slotSize,
      ← Nat.succ_mul, e.fits_iff _ (by omega)] at hnofit
    rw [e.fits_iff _ (by omega)] at hin
    rw [List.length_cons]
    omega
  have haddr : (placement e.pid p len).address = e.start := hstart.trans hk.start_eq
  have hres := h.residue hD hk hq fun hx => by
    have hlen : len = e.elementLen := (hq.static_len hx.2.1).trans (hk.len_eq hx.2.1)
    have hpid : (placement e.pid p len).recordId = recordIdOf (0 + e.slots + tail.length) := by
      rw [hpl]
      dsimp only
      rw [hlatest.recordId, hn.head, increment_recordIdOf, ← hslots hx.2.1]
      congr 1
      change (els ++ tail).length + 1 = _
      rw [List.length_append, List.length_cons]
      omega
    have hstop : e.stopOf (placement e.pid p len).address e.elementLen =
        e.start + metadataSize + (0 + 1) * e.slotSize := by
      rw [haddr, extent_stopOf_start]
      unfold Extent.slotSize
      omega
    rw [hlen] at hpid hstop ⊢
    exact not_follows_of_lap hk hx.2.1 hx.2.2 hlap hn (hslots hx.2.1) hstop hpid
      fun _ _ _ => rfl
  rw [haddr] at hstands hres
  have hxor : (placement e.pid p len).previousLenXorCurLen = el.1.length ^^^ data.length := by
    rw [hpl, hq.data_len, ← hlatest.len]
  rw [hxor] at hstands
  have hlatest' : Latest (p.appended e.pid (placement e.pid p len) len data)
      (data, (placement e.pid p len).recordId) := ⟨rfl, hq.data_len.symm⟩
  have hfirst := Lap.first hstands
  rw [← haddr, ← appended_latest e.pid p (placement e.pid p len) len data] at hfirst
  refine Rounds.later (f := (data, (placement e.pid p len).recordId)) hfirst hlatest' hlap ?_ ?_ ?_
    hslots
  · rw [hpl]
    exact congrArg incrementRecordId hlatest.recordId
  · rw [appended_latest, haddr, hq.data_len]
    exact hres
  · rw [appended_metadata_start hstart, extent_stopOf_start, hq.data_len, ← hk.start_eq]
    rfl

/-- The first element of an empty partition. -/
theorem rounds_fresh (hk : Known D (D.byte u) e p) (hq : Request D e.pid p len data)
    (h : StoreRun D e.pid p (placement e.pid p len) len data u w v)
    (hf : p.hasFirstElement = false) (hlatest : p.latestElementAddress = e.start) :
    Rounds D (D.byte v) e (p.appended e.pid (placement e.pid p len) len data)
      [(data, (placement e.pid p len).recordId)] := by
  have hpl : placement e.pid p len = _ := placement_empty hf len
  have hstands := hq.stands hk.start_eq hk.size_eq hk.len_eq h.appended
  have hstart : (placement e.pid p len).address = p.firstElementAddress := by rw [hpl]
  have haddr : (placement e.pid p len).address = e.start := hstart.trans hk.start_eq
  have hxor : (placement e.pid p len).previousLenXorCurLen = 0 := by rw [hpl]
  rw [haddr, hxor] at hstands
  refine Rounds.first (f := (data, (placement e.pid p len).recordId)) ?_
    ⟨rfl, hq.data_len.symm⟩ ?_
  · rw [appended_latest, haddr]
    exact Lap.first hstands
  · have hle : p.latestElementAddress ≤
        p.firstElementAddress + metadataSize + getElementHeaderLen e.pid + len := by
      rw [hlatest, hk.start_eq]
      omega
    rw [appended_metadata_start hstart]
    change (if _ ≥ p.latestElementAddress then p.firstElementAddress else _) ≤ e.start
    rw [if_pos hle]
    exact Nat.le_of_eq hk.start_eq

/-- A successful store adds its element to the log. -/
theorem RingLog.store {s t : State D} (hD : D.AllOrNothing)
    (h : RingLog D s.bytes e (s.part e.pid) log) {elementData : Nat → UInt8} {elementLen : Nat}
    (hlen : elementLen < 2 ^ 16)
    (hstore : storeElement e.pid elementData elementLen s = (.ok (), t)) :
    RingLog D t.bytes e (t.part e.pid)
        ((storedData e.pid (s.part e.pid) elementData elementLen,
          (storedAt e.pid (s.part e.pid) elementLen).recordId) :: log) ∧ Local e s t := by
  obtain ⟨len, data, w, rfl, rfl, hq, hrun, hpart, hknown, hlocal⟩ := h.known.store hlen hstore
  refine ⟨⟨hknown, ⟨?_, h.numbered⟩, fun hfalse => ?_, fun _ => ?_⟩, hlocal⟩
  · change (placement _ _ _).recordId = _
    cases hf : (s.part e.pid).hasFirstElement with
    | false =>
      obtain ⟨rfl, -, hid⟩ := h.fresh hf
      rw [placement_empty hf]
      exact hid
    | true =>
      obtain ⟨link, f, el, els, tail, rfl, -, hlatest⟩ := (h.rounds hf).cases_current
      have hid : (placement e.pid (s.part e.pid)
          (storedLen e.pid (s.part e.pid) elementLen)).recordId =
          incrementRecordId (s.part e.pid).latestElementRecordId := by
        unfold placement
        rw [if_neg (by rw [hf]; decide)]
      rw [hid, hlatest.recordId, h.numbered.head, increment_recordIdOf]
      rfl
  · rw [hpart] at hfalse
    cases hfalse
  · rw [hpart]
    cases hf : (s.part e.pid).hasFirstElement with
    | false =>
      obtain ⟨rfl, hlatest, -⟩ := h.fresh hf
      exact rounds_fresh h.known hq hrun hf hlatest
    | true =>
      by_cases hstart : (placement e.pid (s.part e.pid)
          (storedLen e.pid (s.part e.pid) elementLen)).address =
          (s.part e.pid).firstElementAddress
      · exact (h.rounds hf).store_start hD h.known h.numbered hq hrun hf hstart
      · exact (h.rounds hf).store_next hD h.known h.numbered hq hrun hstart

/-! ## Other partitions -/

theorem Residue.congr {front : Nat} {m' : Nat → UInt8} (h : Residue D e front m₀ m)
    (hstart : e.start ≤ front) (hm : ∀ x, e.Owns x → m' x = m x) : Residue D e front m₀ m' := by
  have hkept : ∀ x, front ≤ x → x < e.start + e.size → m' x = m x :=
    fun x hx hx' => hm x (.inl (by omega))
  obtain ⟨⟨b, hb, hblank, hold⟩, hexact⟩ := h
  refine ⟨⟨b, hb, fun x hx hx' hstop => ?_, fun x hx hstop => ?_⟩, fun hx x hfront hstop => ?_⟩
  · rw [hkept x hx hstop]
    exact hblank x hx hx' hstop
  · rw [hkept x (by omega) hstop]
    exact hold x hx hstop
  · rw [hkept x hfront hstop]
    exact hexact hx x hfront hstop

theorem Lap.frame_owned {m' : Nat → UInt8} (h : Lap m e link f (el :: els) a)
    (hm : ∀ x, e.Owns x → m' x = m x) : Lap m' e link f (el :: els) a := by
  obtain ⟨x, hs⟩ := h.head_stands
  have hstop := hs.stop_le
  exact h.frame fun x hx hx' => hm x (.inl (by omega))

/-- The log of a partition rests on its own bytes. -/
theorem RingLog.frame {m' : Nat → UInt8} (h : RingLog D m e p log)
    (hm : ∀ x, e.Owns x → m' x = m x) : RingLog D m' e p log := by
  refine ⟨h.known.frame hm, h.numbered, h.fresh, fun hf => ?_⟩
  cases h.rounds hf with
  | first hlap hlatest hlast => exact Rounds.first (hlap.frame_owned hm) hlatest hlast
  | @later f el old f₀ els olds rest m₀ link₀ a₀ hlap hlatest hold hid hres hlast hslots =>
    have hgt := stopOf_gt e p.latestElementAddress el.1.length
    have hle := hlap.start_le
    exact Rounds.later (hlap.frame_owned hm) hlatest hold hid (hres.congr (by omega) hm) hlast
      hslots

/-! ## Runs -/

/-- The runs of an application from the state `s₁` after its start, in which the
elements of `log`, the latest first, are stored in the partition `pid`. -/
inductive Logged (pids : List Nat) (pid : Nat) (s₁ : State D) :
    List Element → State D → Prop
  | start : Logged pids pid s₁ [] s₁
  | store {log : List Element} {s t : State D} (elementData : Nat → UInt8) (elementLen : UInt16) :
      Logged pids pid s₁ log s →
      storeElement pid elementData elementLen.toNat s = (.ok (), t) →
      Logged pids pid s₁ ((storedData pid (s.part pid) elementData elementLen.toNat,
        (storedAt pid (s.part pid) elementLen.toNat).recordId) :: log) t
  | other {log : List Element} {s t : State D} {pid' : Nat} (elementData : Nat → UInt8)
      (elementLen : UInt16) :
      Logged pids pid s₁ log s → pid' ∈ pids → pid' ≠ pid →
      storeElement pid' elementData elementLen.toNat s = (.ok (), t) →
      Logged pids pid s₁ log t

theorem ringLog_blank (he : e.Ok D) (hblank : Blank m D.size) (p : Partition) :
    RingLog D m e (p.registered e) [] :=
  ⟨known_blank he hblank p, trivial, fun _ => ⟨rfl, rfl, rfl⟩, fun htrue => by cases htrue⟩

/-- The log of a run is that of its partition, and the other partitions are known. -/
theorem Logged.ringLog {rs : List Registration} {pids : List Nat} {s₁ s : State D}
    (hD : D.AllOrNothing) (hreg : AllRegistrable D 0 (firstFree D) rs)
    (hpids : pids = (layout D rs).map Extent.pid) (hblank : Blank s₁.bytes D.size)
    (hparts : ∀ e ∈ layout D rs, ∃ p : Partition, s₁.part e.pid = p.registered e)
    (he : e ∈ layout D rs) (h : Logged pids e.pid s₁ log s) :
    ∀ e' ∈ layout D rs, Known D s.bytes e' (s.part e'.pid) ∧
      (e' = e → RingLog D s.bytes e' (s.part e'.pid) log) := by
  subst hpids
  induction h with
  | start =>
    intro e' he'
    obtain ⟨p, hp⟩ := hparts e' he'
    rw [hp]
    have hr := ringLog_blank (layout_ok hreg he') hblank p
    exact ⟨hr.known, fun _ => hr⟩
  | @store log s t elementData elementLen _ hstore ih =>
    have hr := ((ih e he).2 rfl).store hD elementLen.toNat_lt hstore
    intro e' he'
    by_cases hee : e' = e
    · rw [hee]
      exact ⟨hr.1.known, fun _ => hr.1⟩
    · refine ⟨?_, fun heq => absurd heq hee⟩
      exact forall_of_local (X := Known D) hreg Known.frame (fun e₁ he₁ => (ih e₁ he₁).1) he
        ⟨hr.1.known, hr.2⟩ e' he'
  | @other log s t pid' elementData elementLen _ hpid hne hstore ih =>
    obtain ⟨e', he', rfl⟩ := List.mem_map.mp hpid
    obtain ⟨_, _, _, -, -, -, -, -, hknown, hlocal⟩ :=
      (ih e' he').1.store elementLen.toNat_lt hstore
    have hee : e ≠ e' := fun heq => hne (by rw [heq])
    refine forall_of_local (X := fun m e₁ p => Known D m e₁ p ∧ (e₁ = e → RingLog D m e₁ p log))
      hreg (fun hx hm => ⟨hx.1.frame hm, fun heq => (hx.2 heq).frame hm⟩) ih he'
      ⟨⟨hknown, fun heq => absurd heq.symm hee⟩, hlocal⟩

end OpenBadge.Filesystem
