import OpenBadge.Filesystem.Ring

/-!
# Reading a log back

A walk from the latest element with `filesystem_iterator_previous` goes through the
current lap and, past the start of the partition, through what is left of the lap
before.
-/

namespace OpenBadge.Filesystem

open OpenBadge.Lib OpenBadge.Storage

variable {D : Device} {s : State D} {e : Extent} {m m₀ : Nat → UInt8}
  {link a front : Nat} {f el : Element} {els l tail log : List Element}

/-! ## One element -/

/-- The iterator at the address `a`, for an element of length `len`. -/
def Extent.iteratorAt (e : Extent) (m : Nat → UInt8) (a len : Nat) : PartitionIterator :=
  ⟨a, len, headerOf m e.pid (e.dataAt a - getElementHeaderLen e.pid), iteratorValidNumber⟩

theorem Known.headerAt_eq (hk : Known D s.bytes e (s.part e.pid))
    (hf : (s.part e.pid).hasFirstElement = true) (ha : a + getElementHeaderLen e.pid ≤ D.size) :
    headerAt s e.pid a =
      .ok (headerOf s.bytes e.pid (e.dataAt a - getElementHeaderLen e.pid)) := by
  unfold headerAt
  rw [hk.start_eq]
  by_cases hstart : a = e.start
  · rw [if_pos hstart, firstHeaderAt_current (hk.current hf), hk.start_eq, hstart, dataAt_start]
  · rw [if_neg hstart, if_pos ha, dataAt_next hstart]

theorem Known.points (hk : Known D s.bytes e (s.part e.pid))
    (hf : (s.part e.pid).hasFirstElement = true) (ha : a + getElementHeaderLen e.pid ≤ D.size)
    (len : Nat) : Points s e.pid (e.iteratorAt s.bytes a len) := by
  have hD := size_lt D
  exact ⟨rfl, hk.headerAt_eq hf ha, by change a + _ < _; omega⟩

theorem Stands.room (hs : Stands m e a link el) (hk : Known D m e (s.part e.pid)) :
    a + getElementHeaderLen e.pid + el.1.length ≤ e.start + e.size ∧
      e.dataAt a + el.1.length ≤ D.size ∧ e.start + e.size ≤ D.size := by
  have hstop := hs.stop_le
  have hge := dataAt_ge e a
  have hle := hk.ram.stop_le
  rw [hk.start_eq, hk.size_eq] at hle
  unfold Extent.stopOf at hstop
  omega

/-- Reading an element that stands in storage. -/
theorem Stands.read (hs : Stands s.bytes e a link el) (hk : Known D s.bytes e (s.part e.pid))
    (hf : (s.part e.pid).hasFirstElement = true) :
    iteratorReadElement e.pid (s.setIter e.pid (e.iteratorAt s.bytes a el.1.length)) =
      (.ok el, s.setIter e.pid (e.iteratorAt s.bytes a el.1.length)) := by
  obtain ⟨hin, hdata, hle⟩ := hs.room hk
  have hhead := hs.headerOf_eq
  have hpoints := hk.points hf (show a + getElementHeaderLen e.pid ≤ D.size by omega) el.1.length
  have hslice : slice s.bytes (a + headerLenAt e.pid (s.part e.pid) a) el.1.length = el.1 := by
    rw [headerLenAt_extent hk.start_eq]
    exact hs.data
  have hfits : a + headerLenAt e.pid (s.part e.pid) a + el.1.length ≤ D.size := by
    rw [headerLenAt_extent hk.start_eq]
    exact hdata
  rw [iteratorReadElement_points hk.sync hf hpoints hslice hfits fun hcrc => ?_]
  · unfold Extent.iteratorAt
    rw [hhead]
    rfl
  · unfold Extent.iteratorAt
    rw [hhead]
    unfold ElementHeader.kept
    rw [hcrc]
    rfl

/-- The length of the element in front, from the link in the header. -/
theorem Stands.previousLen_eq {len : Nat} (hs : Stands s.bytes e a (len ^^^ el.1.length) el)
    (hk : Known D s.bytes e (s.part e.pid))
    (hlen : isDynamic e.pid = false → len = e.elementLen) :
    previousLen e.pid (s.part e.pid) (e.iteratorAt s.bytes a el.1.length) = len := by
  unfold previousLen neighbourLen Extent.iteratorAt
  cases hd : isDynamic e.pid with
  | true =>
    simp only [if_true]
    rw [hs.headerOf_eq]
    simp only [ElementHeader.kept, hd, if_true]
    change el.1.length ^^^ (len ^^^ el.1.length) = len
    rw [Nat.xor_comm len, ← Nat.xor_assoc, Nat.xor_self, Nat.zero_xor]
  | false =>
    simp only [Bool.false_eq_true, if_false]
    rw [hk.len_eq hd, hlen hd]

/-- A step back from an element to the one it is linked to. -/
theorem Stands.previous {len a₁ : Nat}
    (hs : Stands s.bytes e a (len ^^^ el.1.length) el) (hk : Known D s.bytes e (s.part e.pid))
    (hf : (s.part e.pid).hasFirstElement = true)
    (hlen : isDynamic e.pid = false → len = e.elementLen)
    (htarget : previousAddress e.pid (s.part e.pid) (e.iteratorAt s.bytes a el.1.length) = a₁)
    (hfit : a₁ + getElementHeaderLen e.pid + len ≤ e.start + e.size)
    (hnot : ¬ (a ≤ e.start ∧ (s.part e.pid).metadata.lastElementAddress ≤ e.start)) :
    iteratorPrevious e.pid (s.setIter e.pid (e.iteratorAt s.bytes a el.1.length)) =
      if (headerOf s.bytes e.pid (e.dataAt a₁ - getElementHeaderLen e.pid)).recordId =
          decrementRecordId el.2 then
        (.ok (), s.setIter e.pid (e.iteratorAt s.bytes a₁ len))
      else (.error .notFound, s.setIter e.pid (e.iteratorAt s.bytes a el.1.length)) := by
  obtain ⟨hin, -, hle⟩ := hs.room hk
  have hD := size_lt D
  have hplen := hs.previousLen_eq hk hlen
  have hread := hk.headerAt_eq hf (show a₁ + getElementHeaderLen e.pid ≤ D.size by omega)
  have hpoints := hk.points hf (show a + getElementHeaderLen e.pid ≤ D.size by omega) el.1.length
  have hstep := iteratorPrevious_points hk.sync hf hpoints
    (by rw [hk.start_eq]; exact hnot) (by rw [htarget]; exact hread)
    (by rw [htarget]; omega)
  rw [hstep, htarget, hplen, hk.start_eq, hk.size_eq]
  have hid : (e.iteratorAt s.bytes a el.1.length).curElementHeader.recordId = el.2 := by
    unfold Extent.iteratorAt
    rw [hs.headerOf_eq]
    rfl
  rw [hid]
  by_cases hmatch : (headerOf s.bytes e.pid
      (e.dataAt a₁ - getElementHeaderLen e.pid)).recordId = decrementRecordId el.2
  · rw [if_pos ⟨hmatch, Nat.le_trans (Nat.mod_le _ _) hfit⟩, if_pos hmatch]
    rfl
  · rw [if_neg (fun hc => hmatch hc.1), if_neg hmatch]

theorem decrement_increment {r : Nat} (h : IsRecordId r) :
    decrementRecordId (incrementRecordId r) = r := by
  unfold IsRecordId at h
  unfold incrementRecordId decrementRecordId
  split <;> split <;> omega

/-! ## Steps in a lap -/

/-- The element at `a` of a lap of `m₀` is in `m` as it was. -/
def Agrees (e : Extent) (m₀ m : Nat → UInt8) (a : Nat) : Prop :=
  ∀ x, a ≤ x → x < e.start + e.size → m x = m₀ x

theorem Stands.agrees (hs : Stands m₀ e a link el) (h : Agrees e m₀ m a) :
    Stands m e a link el := by
  have hstop := hs.stop_le
  exact hs.frame fun x hx hx' => h x hx (by omega)

/-- The iterator looks for the element in front where it ends. -/
theorem Stands.previousAddress_eq {len a₁ : Nat}
    (hs : Stands s.bytes e (e.stopOf a₁ len) (len ^^^ el.1.length) el)
    (hk : Known D s.bytes e (s.part e.pid))
    (hlen : isDynamic e.pid = false → len = e.elementLen)
    (haddr : a₁ = e.start ∨ e.start + metadataSize + getElementHeaderLen e.pid ≤ a₁) :
    previousAddress e.pid (s.part e.pid)
      (e.iteratorAt s.bytes (e.stopOf a₁ len) el.1.length) = a₁ := by
  have hH := elementHeaderLen_bounds e.pid
  unfold previousAddress
  rw [hs.previousLen_eq hk hlen, hk.start_eq]
  change (if e.stopOf a₁ len ≤ e.start then _ else if e.stopOf a₁ len ≤ e.start +
    (metadataSize + getElementHeaderLen e.pid) + len then e.start else
      e.stopOf a₁ len - len - getElementHeaderLen e.pid) = a₁
  rcases haddr with rfl | hge
  · rw [extent_stopOf_start, if_neg (by omega), if_pos (by omega)]
  · rw [extent_stopOf_next (by omega), if_neg (by omega), if_neg (by omega)]
    omega

/-- A step back in a lap of which the element at `a` is left. -/
theorem Lap.previous {el₁ : Element} (hlap : Lap m₀ e link f (el :: el₁ :: els) a)
    (hagrees : Agrees e m₀ s.bytes a) (hk : Known D s.bytes e (s.part e.pid))
    (hf : (s.part e.pid).hasFirstElement = true) :
    ∃ a₁, Lap m₀ e link f (el₁ :: els) a₁ ∧ a = e.stopOf a₁ el₁.1.length ∧
      previousAddress e.pid (s.part e.pid) (e.iteratorAt s.bytes a el.1.length) = a₁ ∧
      iteratorPrevious e.pid (s.setIter e.pid (e.iteratorAt s.bytes a el.1.length)) =
        if (headerOf s.bytes e.pid (e.dataAt a₁ - getElementHeaderLen e.pid)).recordId = el₁.2 then
          (.ok (), s.setIter e.pid (e.iteratorAt s.bytes a₁ el₁.1.length))
        else (.error .notFound, s.setIter e.pid (e.iteratorAt s.bytes a el.1.length)) := by
  cases hlap with
  | @next _ _ _ a₁ hlap₁ hid hs =>
    obtain ⟨x, hs₁⟩ := hlap₁.head_stands
    have hs' := hs.agrees hagrees
    have hle := hlap₁.start_le
    have hgt := stopOf_gt e a₁ el₁.1.length
    obtain ⟨hin, -, -⟩ := hs'.room hk
    have hge := dataAt_ge e a₁
    have haddr := hs'.previousAddress_eq hk hs₁.len_static hs₁.address
    have hstep := hs'.previous hk hf hs₁.len_static haddr
      (by unfold Extent.stopOf at hin; omega) (by omega)
    rw [hid, decrement_increment hs₁.recordId] at hstep
    exact ⟨a₁, hlap₁, rfl, haddr, hstep⟩

/-- In the current lap the step succeeds. -/
theorem Lap.previous_current {el₁ : Element} (hlap : Lap s.bytes e link f (el :: el₁ :: els) a)
    (hk : Known D s.bytes e (s.part e.pid)) (hf : (s.part e.pid).hasFirstElement = true) :
    ∃ a₁, Lap s.bytes e link f (el₁ :: els) a₁ ∧ a = e.stopOf a₁ el₁.1.length ∧
      iteratorPrevious e.pid (s.setIter e.pid (e.iteratorAt s.bytes a el.1.length)) =
        (.ok (), s.setIter e.pid (e.iteratorAt s.bytes a₁ el₁.1.length)) := by
  obtain ⟨a₁, hlap₁, hstop, -, hstep⟩ := hlap.previous (fun _ _ _ => rfl) hk hf
  obtain ⟨x, hs₁⟩ := hlap₁.head_stands
  rw [if_pos hs₁.recordId_eq] at hstep
  exact ⟨a₁, hlap₁, hstop, hstep⟩

/-- What is left of the lap before: the step ends, or goes to an element that is left. -/
theorem Lap.step_before (hlap : Lap m₀ e link f (el :: els) a)
    (hres : Residue D e front m₀ m) (hfront : front ≤ a) (hstart : e.start < front)
    {r : Except RetCode Unit × State D} {ok notFound : State D}
    (hstep : r = if (headerOf m e.pid (e.dataAt a - getElementHeaderLen e.pid)).recordId = el.2
      then (.ok (), ok) else (.error .notFound, notFound)) :
    (r = (.ok (), ok) ∧ Agrees e m₀ m a) ∨ (r = (.error .notFound, notFound) ∧ ¬ Exact D e) := by
  obtain ⟨x, hs⟩ := hlap.head_stands
  have hne : a ≠ e.start := by omega
  rw [dataAt_next hne] at hstep
  by_cases hid : (headerOf m e.pid a).recordId = el.2
  · rw [if_pos hid] at hstep
    exact .inl ⟨hstep, fun y hy hy' => hres.fronted.intact hs hne hfront hid hy hy'⟩
  · rw [if_neg hid] at hstep
    refine .inr ⟨hstep, fun hx => hid ?_⟩
    have hs' : Stands m e a x el := hs.agrees fun y hy hy' => hres.kept hx y (by omega) hy'
    rw [← dataAt_next hne]
    exact hs'.recordId_eq

/-- A step back from the first element of the current lap. -/
theorem Lap.previous_start {old : Element} {olds : List Element} {link₀ a₀ : Nat} {f₀ : Element}
    (hs : Stands s.bytes e e.start (old.1.length ^^^ f.1.length) f)
    (hold : Lap m₀ e link₀ f₀ (old :: olds) a₀) (hid : f.2 = incrementRecordId old.2)
    (hk : Known D s.bytes e (s.part e.pid)) (hf : (s.part e.pid).hasFirstElement = true)
    (hlast : (s.part e.pid).metadata.lastElementAddress = a₀) (hgt : e.start < a₀) :
    previousAddress e.pid (s.part e.pid) (e.iteratorAt s.bytes e.start f.1.length) = a₀ ∧
      iteratorPrevious e.pid (s.setIter e.pid (e.iteratorAt s.bytes e.start f.1.length)) =
        if (headerOf s.bytes e.pid (e.dataAt a₀ - getElementHeaderLen e.pid)).recordId = old.2 then
          (.ok (), s.setIter e.pid (e.iteratorAt s.bytes a₀ old.1.length))
        else (.error .notFound, s.setIter e.pid (e.iteratorAt s.bytes e.start f.1.length)) := by
  obtain ⟨x, hs₀⟩ := hold.head_stands
  have hstop := hs₀.stop_le
  have haddr : previousAddress e.pid (s.part e.pid)
      (e.iteratorAt s.bytes e.start f.1.length) = a₀ := by
    unfold previousAddress
    rw [hk.start_eq]
    change (if e.start ≤ e.start then (s.part e.pid).metadata.lastElementAddress else _) = a₀
    rw [if_pos (Nat.le_refl e.start), hlast]
  rw [extent_stopOf_next (by omega)] at hstop
  have hstep := hs.previous hk hf hs₀.len_static haddr hstop (by omega)
  rw [hid, decrement_increment hs₀.recordId] at hstep
  exact ⟨haddr, hstep⟩

/-- The first element of the first lap has none in front. -/
theorem Stands.previous_none (hs : Stands s.bytes e e.start link f)
    (hk : Known D s.bytes e (s.part e.pid)) (hf : (s.part e.pid).hasFirstElement = true)
    (hlast : (s.part e.pid).metadata.lastElementAddress ≤ e.start) :
    iteratorPrevious e.pid (s.setIter e.pid (e.iteratorAt s.bytes e.start f.1.length)) =
      (.error .notFound, s.setIter e.pid (e.iteratorAt s.bytes e.start f.1.length)) := by
  obtain ⟨hin, -, hle⟩ := hs.room hk
  exact iteratorPrevious_ends hk.sync hf (hk.points hf (by omega) _)
    (Nat.le_of_eq hk.start_eq.symm) (by rw [hk.start_eq]; exact hlast)

/-! ## Walks over static partitions -/

/-- Read elements and step back until the first call that fails; with the elements, the
error of that call. -/
def walkBack (pid : Nat) : Nat → Fs D (List Element × Option RetCode)
  | 0 => pure ([], none)
  | fuel + 1 => do
    let read ← Proc.attempt (iteratorReadElement pid)
    match read with
    | .error r => pure ([], some r)
    | .ok el => do
      let step ← Proc.attempt (iteratorPrevious pid)
      match step with
      | .error r => pure ([el], some r)
      | .ok _ => do
        let (els, r) ← walkBack pid fuel
        pure (el :: els, r)

/-- The walk from the latest element. -/
def readBack (pid fuel : Nat) : Fs D (List Element × Option RetCode) := do
  iteratorInit pid
  walkBack pid fuel

/-- The walk from the address `a` returns `els` and ends. -/
def Returns (s : State D) (e : Extent) (a len : Nat) (els : List Element) : Prop :=
  ∀ fuel, els.length ≤ fuel → ∃ t,
    walkBack e.pid fuel (s.setIter e.pid (e.iteratorAt s.bytes a len)) =
      (.ok (els, some .notFound), t)

theorem returns_last (hk : Known D s.bytes e (s.part e.pid))
    (hf : (s.part e.pid).hasFirstElement = true) (hs : Stands s.bytes e a link el)
    (hstep : iteratorPrevious e.pid (s.setIter e.pid (e.iteratorAt s.bytes a el.1.length)) =
      (.error .notFound, s.setIter e.pid (e.iteratorAt s.bytes a el.1.length))) :
    Returns s e a el.1.length [el] := by
  intro fuel hfuel
  obtain ⟨n, rfl⟩ : ∃ n, fuel = n + 1 := ⟨fuel - 1, by
    rw [List.length_singleton] at hfuel
    omega⟩
  refine ⟨s.setIter e.pid (e.iteratorAt s.bytes a el.1.length), ?_⟩
  unfold walkBack
  rw [Proc.attempt_bind_apply, hs.read hk hf]
  dsimp only
  rw [Proc.attempt_bind_apply, hstep]
  rfl

theorem returns_step (hk : Known D s.bytes e (s.part e.pid))
    (hf : (s.part e.pid).hasFirstElement = true) (hs : Stands s.bytes e a link el) {a₁ len₁ : Nat}
    (hstep : iteratorPrevious e.pid (s.setIter e.pid (e.iteratorAt s.bytes a el.1.length)) =
      (.ok (), s.setIter e.pid (e.iteratorAt s.bytes a₁ len₁)))
    (hrest : Returns s e a₁ len₁ els) : Returns s e a el.1.length (el :: els) := by
  intro fuel hfuel
  rw [List.length_cons] at hfuel
  obtain ⟨n, rfl⟩ : ∃ n, fuel = n + 1 := ⟨fuel - 1, by omega⟩
  obtain ⟨t, ht⟩ := hrest n (by omega)
  refine ⟨t, ?_⟩
  unfold walkBack
  rw [Proc.attempt_bind_apply, hs.read hk hf]
  dsimp only
  rw [Proc.attempt_bind_apply, hstep]
  dsimp only
  rw [Proc.bind_ok ht]
  rfl

/-- A walk through the current lap goes on from its first element. -/
theorem Lap.returns (hk : Known D s.bytes e (s.part e.pid))
    (hf : (s.part e.pid).hasFirstElement = true) {more : List Element}
    (hfirst : Returns s e e.start f.1.length (f :: more)) :
    ∀ {els : List Element} {el : Element} {a : Nat}, Lap s.bytes e link f (el :: els) a →
      Returns s e a el.1.length (el :: els ++ more)
  | [], _, _, hlap => by
    cases hlap with
    | first _ => exact hfirst
  | el₁ :: els, el, a, hlap => by
    obtain ⟨x, hs⟩ := hlap.head_stands
    obtain ⟨a₁, hlap₁, -, hstep⟩ := hlap.previous_current hk hf
    exact returns_step hk hf hs hstep (Lap.returns hk hf hfirst hlap₁)

/-- Elements of equal number in two laps of a static partition share a slot. -/
theorem Lap.static_slot {link' a' : Nat} {f' el' : Element} {els' : List Element}
    (h : Lap m e link f (el :: els) a) (h' : Lap m₀ e link' f' (el' :: els') a')
    (hd : isDynamic e.pid = false) (hlen : els.length = els'.length) : a = a' := by
  have hstop := h.static_stop hd
  have hstop' := h'.static_stop hd
  obtain ⟨x, hs⟩ := h.head_stands
  obtain ⟨x', hs'⟩ := h'.head_stands
  have hH := elementHeaderLen_bounds e.pid
  have haddr := hs.address
  have haddr' := hs'.address
  rw [hlen, ← hstop', hs.len_static hd, hs'.len_static hd] at hstop
  unfold Extent.stopOf Extent.dataAt at hstop
  split at hstop <;> split at hstop <;> omega

/-- The address of an element of a static lap behind the first one. -/
theorem Lap.static_address {el₁ : Element} (h : Lap m e link f (el :: el₁ :: els) a)
    (hd : isDynamic e.pid = false) :
    a = e.start + metadataSize + (els.length + 1) * e.slotSize := by
  cases h with
  | next hlap _ _ => exact hlap.static_stop hd

/-- In the slot of the latest element, the lap before is not found. -/
theorem recordId_ne_latest {link₀ a₀ A : Nat} {f₀ el₀ old : Element}
    {els₀ olds rest : List Element} (hlap : Lap m e link f (el₀ :: els₀) A)
    (hold : Lap m₀ e link₀ f₀ (old :: olds) a₀) (hd : isDynamic e.pid = false)
    (hlen : els₀.length = olds.length) (hnew : el₀.2 = recordIdOf (olds.length + e.slots + rest.length))
    (hn : Numbered (old :: olds ++ rest)) (hslots : 0 < e.slots) (hslots' : e.slots < 65534) :
    (headerOf m e.pid (e.dataAt a₀ - getElementHeaderLen e.pid)).recordId ≠ old.2 := by
  obtain ⟨x, hs⟩ := hlap.head_stands
  have hid := hn.head
  rw [← hlap.static_slot hold hd hlen, hs.recordId_eq, hnew, hid,
    show (olds.append rest).length = olds.length + rest.length from List.length_append]
  exact (recordIdOf_ne (by omega) (by omega)).symm

/-- A walk through what is left of the lap before, in a static partition. `c` elements of
the current lap are in front of the address `front`. -/
theorem Lap.returns_before {link₀ A c : Nat} {f₀ el₀ : Element} {els₀ rest : List Element}
    (hk : Known D s.bytes e (s.part e.pid)) (hf : (s.part e.pid).hasFirstElement = true)
    (hd : isDynamic e.pid = false) (hslots : 0 < e.slots) (hslots' : e.slots < 65534)
    (hcur : Lap s.bytes e link f (el₀ :: els₀) A) (hc : els₀.length + 1 = c)
    (hfront : front = e.start + metadataSize + c * e.slotSize)
    (hnew : el₀.2 = recordIdOf (els₀.length + e.slots + rest.length))
    (hres : Residue D e front m₀ s.bytes) :
    ∀ {els : List Element} {el : Element} {a : Nat}, Lap m₀ e link₀ f₀ (el :: els) a →
      Numbered (el :: els ++ rest) → front ≤ a → Agrees e m₀ s.bytes a →
      ∃ k, 1 ≤ k ∧ k ≤ els.length + 1 ∧ (Exact D e → k = els.length + 1 - c) ∧
        Returns s e a el.1.length ((el :: els).take k)
  | [], el, a, hlap, _, hle, _ => by
    cases hlap with
    | first _ =>
      unfold metadataSize at hfront
      omega
  | el₁ :: els, el, a, hlap, hn, hle, hagrees => by
    obtain ⟨x, hs⟩ := hlap.head_stands
    have haddr := hlap.static_address hd
    obtain ⟨a₁, hlap₁, hstop, -, hstep⟩ := hlap.previous hagrees hk hf
    by_cases hbehind : front ≤ a₁
    · have hstart : e.start < front := by
        unfold metadataSize at hfront
        omega
      rcases hlap₁.step_before hres hbehind hstart hstep with ⟨hok, hagrees₁⟩ | ⟨hend, hnot⟩
      · obtain ⟨k, hk₁, hk₂, hk₃, hret⟩ := Lap.returns_before hk hf hd hslots hslots' hcur hc hfront
          hnew hres hlap₁ hn.2 hbehind hagrees₁
        refine ⟨k + 1, by omega, by rw [List.length_cons]; omega, fun hx => ?_,
          returns_step hk hf (hs.agrees hagrees) hok hret⟩
        rw [List.length_cons]
        have hkx := hk₃ hx
        omega
      · exact ⟨1, Nat.le_refl _, by rw [List.length_cons]; omega, fun hx => absurd hx hnot,
          returns_last hk hf (hs.agrees hagrees) hend⟩
    · have hlen : els.length + 1 = c := by
        have hge : c ≤ els.length + 1 := by
          rw [hfront, haddr] at hle
          exact Nat.le_of_mul_le_mul_right (by omega) e.slotSize_pos
        cases els with
        | nil =>
          rw [List.length_nil] at hge ⊢
          omega
        | cons el₂ els =>
          have haddr₁ := hlap₁.static_address hd
          have hlt : els.length + 1 < c := by
            rw [hfront, haddr₁] at hbehind
            exact Nat.lt_of_mul_lt_mul_right (by omega : _ * e.slotSize < _)
          rw [List.length_cons] at hge ⊢
          omega
      have hne := recordId_ne_latest hcur hlap₁ hd (by omega) (by rw [hnew]; congr 2; omega) hn.2
        hslots hslots'
      rw [if_neg hne] at hstep
      exact ⟨1, Nat.le_refl _, by rw [List.length_cons]; omega,
        fun _ => by rw [List.length_cons]; omega, returns_last hk hf (hs.agrees hagrees) hstep⟩

/-- A walk back over a static partition returns the latest elements of its log. -/
theorem RingLog.returns (h : RingLog D s.bytes e (s.part e.pid) log)
    (hf : (s.part e.pid).hasFirstElement = true) (hd : isDynamic e.pid = false)
    (hslots : 3 ≤ e.slots) (hslots' : e.slots < 65534) :
    ∃ k, 1 ≤ k ∧ k ≤ log.length ∧ (D.ByteUnits → k = min log.length e.slots) ∧
      Returns s e (s.part e.pid).latestElementAddress (s.part e.pid).latestElementLen
        (log.take k) := by
  have hk := h.known
  have hn := h.numbered
  have hsize := hk.ram.size_ge
  rw [hk.size_eq] at hsize
  cases h.rounds hf with
  | @first f el els hlap hlatest hlast =>
    obtain ⟨x, hs⟩ := hlap.head_stands
    have hin := hs.stop_le
    rw [hlap.static_stop hd, e.fits_iff _ (by omega)] at hin
    refine ⟨(el :: els).length, by rw [List.length_cons]; omega, Nat.le_refl _, fun _ => ?_, ?_⟩
    · rw [List.length_cons]
      omega
    · rw [List.take_length, hlatest.len, ← List.append_nil (el :: els)]
      refine hlap.returns hk hf ?_
      have hsf := hlap.first_stands
      exact returns_last hk hf hsf (hsf.previous_none hk hf hlast)
  | @later f el old f₀ els olds rest m₀ link₀ a₀ hlap hlatest hold hid hres hlast holds =>
    have holds' := holds hd
    rw [List.length_cons] at holds'
    obtain ⟨x, hs⟩ := hlap.head_stands
    have hsf := hlap.first_stands
    have hin := hs.stop_le
    have hstop := hlap.static_stop hd
    rw [hstop, e.fits_iff _ (by omega)] at hin
    obtain ⟨old₁, olds₁, rfl⟩ : ∃ old₁ olds₁, olds = old₁ :: olds₁ :=
      List.exists_cons_of_length_pos (by omega)
    rw [List.length_cons] at holds'
    have ha₀ := hold.static_address hd
    have hmul : 2 * e.slotSize ≤ (olds₁.length + 1) * e.slotSize :=
      Nat.mul_le_mul_right _ (by omega)
    have hpos := e.slotSize_pos
    have hfstop : e.stopOf e.start f.1.length = e.start + metadataSize + e.slotSize := by
      rw [extent_stopOf_start, hsf.len_static hd]
      unfold Extent.slotSize
      omega
    rw [hfstop, if_neg (by omega)] at hlast
    have hnew : el.2 = recordIdOf (els.length + e.slots + rest.length) := by
      rw [hn.head]
      congr 1
      change (els ++ (old :: old₁ :: olds₁ ++ rest)).length = _
      rw [List.length_append, List.length_append, List.length_cons, List.length_cons]
      omega
    obtain ⟨-, hstep⟩ := Lap.previous_start hsf hold hid hk hf hlast (by omega)
    have hfinish : ∀ k', k' ≤ olds₁.length + 2 →
        Returns s e e.start f.1.length (f :: (old :: old₁ :: olds₁).take k') →
        Returns s e (s.part e.pid).latestElementAddress (s.part e.pid).latestElementLen
          ((el :: els ++ (old :: old₁ :: olds₁ ++ rest)).take (els.length + 1 + k')) := by
      intro k' hk' hret
      rw [hlatest.len, show els.length + 1 + k' = (el :: els).length + k' from rfl,
        List.take_length_add_append, List.take_append_of_le_length (by
          rw [List.length_cons, List.length_cons]
          exact hk')]
      exact hlap.returns hk hf hret
    have htotal : (el :: els ++ (old :: old₁ :: olds₁ ++ rest)).length =
        els.length + 1 + (olds₁.length + 2) + rest.length := by
      rw [List.length_append, List.length_append, List.length_cons, List.length_cons,
        List.length_cons]
      omega
    rw [htotal]
    by_cases hbehind : e.stopOf (s.part e.pid).latestElementAddress el.1.length ≤ a₀
    · have hstart : e.start < e.stopOf (s.part e.pid).latestElementAddress el.1.length := by
        rw [hstop]
        unfold metadataSize
        omega
      rcases hold.step_before hres hbehind hstart hstep with ⟨hok, hagrees⟩ | ⟨hend, hnot⟩
      · obtain ⟨k, hk₁, hk₂, hk₃, hret⟩ := Lap.returns_before hk hf hd (by omega) hslots' hlap rfl
          hstop hnew hres hold hn.append hbehind hagrees
        rw [List.length_cons] at hk₂ hk₃
        refine ⟨els.length + 1 + k, by omega, by omega, fun hD => ?_,
          hfinish k (by omega) (returns_step hk hf hsf hok hret)⟩
        have hkx := hk₃ ⟨hD, hd, hslots'⟩
        omega
      · exact ⟨els.length + 1 + 0, by omega, by omega, fun hD => absurd ⟨hD, hd, hslots'⟩ hnot,
          hfinish 0 (by omega) (returns_last hk hf hsf hend)⟩
    · have hlen : els.length = (old₁ :: olds₁).length := by
        rw [hstop, ha₀] at hbehind
        have hlt : olds₁.length + 1 < els.length + 1 :=
          Nat.lt_of_mul_lt_mul_right (by omega : _ * e.slotSize < _)
        rw [List.length_cons]
        omega
      have hne := recordId_ne_latest hlap hold hd hlen (by rw [hnew, hlen]) hn.append
        (by omega) hslots'
      rw [if_neg hne] at hstep
      rw [List.length_cons] at hlen
      exact ⟨els.length + 1 + 0, by omega, by omega, fun _ => by omega,
        hfinish 0 (by omega) (returns_last hk hf hsf hstep)⟩

theorem Stands.init (hs : Stands s.bytes e (s.part e.pid).latestElementAddress link el)
    (hk : Known D s.bytes e (s.part e.pid)) (hf : (s.part e.pid).hasFirstElement = true) :
    iteratorInit e.pid s = (.ok (), s.setIter e.pid (e.iteratorAt s.bytes
      (s.part e.pid).latestElementAddress (s.part e.pid).latestElementLen)) := by
  have hD := size_lt D
  obtain ⟨hin, -, hle⟩ := hs.room hk
  rw [iteratorInit_points hk.sync hf (hk.headerAt_eq hf (by omega)) (by omega)]
  rfl

theorem RingLog.init (h : RingLog D s.bytes e (s.part e.pid) log)
    (hf : (s.part e.pid).hasFirstElement = true) :
    iteratorInit e.pid s = (.ok (), s.setIter e.pid (e.iteratorAt s.bytes
      (s.part e.pid).latestElementAddress (s.part e.pid).latestElementLen)) := by
  obtain ⟨link, f, el, els, tail, -, hlap, hlatest⟩ := (h.rounds hf).cases_current
  obtain ⟨x, hs⟩ := hlap.head_stands
  exact hs.init h.known hf

/-- The number of slots of a static partition, from the library's variables. -/
def Partition.slots (pid : Nat) (p : Partition) : Nat :=
  (p.metadata.partitionSize - metadataSize) /
    (getElementHeaderLen pid + p.metadata.firstElementLen)

/-- In storage that keeps, or blanks, the rest of the last unit of a store as a whole, a
walk back over a static partition returns the latest elements of its log, each with the
bytes and the identifier that it was stored with: at least one, and as many as there are
slots if the units are bytes. It ends with `NRF_ERROR_NOT_FOUND`. -/
theorem reads_back_newest (hD : D.AllOrNothing) {rs : List Registration} {pids : List Nat}
    {s₀ s₁ : State D} (hblank : Blank s₀.bytes D.size) (hboot : boot rs s₀ = (.ok pids, s₁))
    {pid : Nat} (hpid : pid ∈ pids) (hstatic : isDynamic pid = false)
    (hslots : 3 ≤ (s₁.part pid).slots pid) (hslots' : (s₁.part pid).slots pid < 65534)
    (hrun : Logged pids pid s₁ log s) (hlog : log ≠ []) :
    ∃ k, 1 ≤ k ∧ k ≤ log.length ∧
      (D.ByteUnits → k = min log.length ((s₁.part pid).slots pid)) ∧
      ∀ fuel, log.length ≤ fuel →
        (readBack pid fuel s).1 = .ok (log.take k, some .notFound) := by
  obtain ⟨-, hreg, hpids, hdev₁, -, hparts⟩ := boot_blank hblank hboot
  rw [hpids] at hpid
  obtain ⟨e, he, rfl⟩ := List.mem_map.mp hpid
  have hblank₁ : Blank s₁.bytes D.size := by
    unfold State.bytes
    rw [hdev₁]
    exact hblank
  have hring := ((hrun.ringLog hD hreg hpids hblank₁ hparts he) e he).2 rfl
  have hslots_eq : (s₁.part e.pid).slots e.pid = e.slots := by
    obtain ⟨p, hp⟩ := hparts e he
    rw [hp]
    rfl
  rw [hslots_eq] at hslots hslots' ⊢
  have hf : (s.part e.pid).hasFirstElement = true := by
    by_contra hfalse
    exact hlog (hring.fresh (Bool.eq_false_iff.mpr hfalse)).1
  obtain ⟨k, hk₁, hk₂, hk₃, hret⟩ := hring.returns hf hstatic hslots hslots'
  refine ⟨k, hk₁, hk₂, hk₃, fun fuel hfuel => ?_⟩
  obtain ⟨t, ht⟩ := hret fuel (by rw [List.length_take]; omega)
  unfold readBack
  rw [Proc.bind_ok (hring.init hf), ht]

theorem fillDevice_allOrNothing (modules : List StorageModule)
    (size_le : totalSize modules + 2 ^ 18 ≤ 2 ^ 32) :
    (fillDevice modules size_le (fun _ b => b) fun _ _ => .inl rfl).AllOrNothing := by
  have hkeep : ∀ (m : Nat → UInt8) (a : Nat) (d : List UInt8) (x : Nat), a + d.length ≤ x →
      fillStore modules (fun _ b => b) a d m x = m x := by
    intro m a d x hx
    unfold fillStore
    split
    · rfl
    · exact overwrite_of_ge m d hx
  refine ⟨fun a d m m' _ _ h => .inl fun x hx => ?_, fun a n m m' _ _ h => .inl fun x hx => ?_⟩
  · cases h
    exact hkeep m a d x hx
  · cases h
    exact hkeep m a _ x (by rw [List.length_replicate]; exact hx)

/-- A static partition with four slots. -/
def fourSlots : List Registration := [⟨38, false, false, 4, four_lt_elementLenMax⟩]

/-- Its start on a new EEPROM. -/
def ringStart : State eeprom := (boot fourSlots (powerUp (D := eeprom) blankBytes)).2

def storeAll (pid : Nat) : List (List UInt8) → State D → State D
  | [], s => s
  | data :: rest, s => storeAll pid rest (storeList pid data s).2

/-- More elements than slots. -/
def ringed : State eeprom :=
  storeAll 0 [[1, 1, 1, 1], [2, 2, 2, 2], [3, 3, 3, 3], [4, 4, 4, 4], [5, 5, 5, 5]] ringStart

theorem logged_storeList {pids : List Nat} {pid : Nat} {s₁ s : State D}
    (h : Logged pids pid s₁ log s) (data : List UInt8) (recordId : Nat)
    (hstore : (storeList pid data s).1 = .ok ())
    (hel : (storedData pid (s.part pid) (bytesOf data) (UInt16.ofNat data.length).toNat,
      (storedAt pid (s.part pid) (UInt16.ofNat data.length).toNat).recordId) = (data, recordId)) :
    Logged pids pid s₁ ((data, recordId) :: log) (storeList pid data s).2 := by
  rw [← hel]
  exact Logged.store _ _ h (Proc.eq_of_fst hstore)

theorem reads_back_newest_eeprom :
    ∃ k, 1 ≤ k ∧ k ≤ 5 ∧ (eeprom.ByteUnits → k = min 5 ((ringStart.part 0).slots 0)) ∧
      ∀ fuel, 5 ≤ fuel → (readBack 0 fuel ringed).1 =
        .ok ([([5, 5, 5, 5], 5), ([4, 4, 4, 4], 4), ([3, 3, 3, 3], 3), ([2, 2, 2, 2], 2),
          ([1, 1, 1, 1], 1)].take k, some .notFound) := by
  have hboot : boot fourSlots (powerUp (D := eeprom) blankBytes) = (.ok [0], ringStart) :=
    Proc.eq_of_fst (by decide +kernel)
  have h₀ : Logged [0] 0 ringStart [] ringStart := Logged.start
  have h₁ := logged_storeList h₀ [1, 1, 1, 1] 1 (by decide +kernel) (by decide +kernel)
  have h₂ := logged_storeList h₁ [2, 2, 2, 2] 2 (by decide +kernel) (by decide +kernel)
  have h₃ := logged_storeList h₂ [3, 3, 3, 3] 3 (by decide +kernel) (by decide +kernel)
  have h₄ := logged_storeList h₃ [4, 4, 4, 4] 4 (by decide +kernel) (by decide +kernel)
  have h₅ := logged_storeList h₄ [5, 5, 5, 5] 5 (by decide +kernel) (by decide +kernel)
  exact reads_back_newest (fillDevice_allOrNothing _ _) (fun _ _ => rfl) hboot (by decide)
    (by decide) (by decide +kernel) (by decide +kernel) h₅ (by simp)

/-- Pages of 32 bytes in which a store blanks the last byte of the last page it touches
and keeps the rest. -/
def lastByteFlash : Device :=
  fillDevice [⟨512, 32, by decide, by decide⟩] (by decide)
    (fun x b => if x % 32 = 31 then 0xFF else b) fun x b => by
      by_cases h : x % 32 = 31
      · exact .inr (if_pos h)
      · exact .inl (if_neg h)

/-- A static partition with three slots in one page. -/
def threeSlots : List Registration := [⟨32, false, false, 4, four_lt_elementLenMax⟩]

def pageStart : State lastByteFlash :=
  (boot threeSlots (powerUp (D := lastByteFlash) blankBytes)).2

/-- The elements of a log in which the ring goes round once. -/
def roundLog : List Element :=
  [([4, 4, 4, 4], 4), ([3, 3, 3, 3], 3), ([2, 2, 2, 2], 2), ([1, 1, 1, 1], 1)]

def pageRound : State lastByteFlash :=
  storeAll 0 [[1, 1, 1, 1], [2, 2, 2, 2], [3, 3, 3, 3], [4, 4, 4, 4]] pageStart

/-- A storage that blanks single bytes of the last unit returns bytes that were not
stored. -/
theorem single_blank_misread :
    Blank blankBytes lastByteFlash.size ∧
      boot threeSlots (powerUp (D := lastByteFlash) blankBytes) = (.ok [0], pageStart) ∧
      (pageStart.part 0).slots 0 = 3 ∧ Logged [0] 0 pageStart roundLog pageRound ∧
      ∀ k, (readBack 0 roundLog.length pageRound).1 ≠ .ok (roundLog.take k, some .notFound) := by
  have h₀ : Logged [0] 0 pageStart [] pageStart := Logged.start
  have h₁ := logged_storeList h₀ [1, 1, 1, 1] 1 (by decide +kernel) (by decide +kernel)
  have h₂ := logged_storeList h₁ [2, 2, 2, 2] 2 (by decide +kernel) (by decide +kernel)
  have h₃ := logged_storeList h₂ [3, 3, 3, 3] 3 (by decide +kernel) (by decide +kernel)
  have h₄ := logged_storeList h₃ [4, 4, 4, 4] 4 (by decide +kernel) (by decide +kernel)
  refine ⟨fun _ _ => rfl, Proc.eq_of_fst (by decide +kernel), by decide +kernel, h₄, ?_⟩
  intro k hk
  have hread : (readBack 0 roundLog.length pageRound).1 =
      .ok ([([4, 4, 4, 4], 4), ([3, 3, 3, 0xFF], 3), ([2, 2, 2, 2], 2)], some .notFound) := by
    decide +kernel
  rw [hread] at hk
  injection hk with hk
  injection hk with hk
  have hprefix : [(([4, 4, 4, 4], 4) : Element), ([3, 3, 3, 0xFF], 3), ([2, 2, 2, 2], 2)] <+:
      roundLog := by
    rw [hk]
    exact List.take_prefix _ _
  revert hprefix
  decide

/-! ## Walks over dynamic partitions -/

/-- The step back from the iterator's element leaves what the current round has not
overwritten: it starts at the first element or behind the latest one, and its target is
in front of the end of the latest one. -/
def Crosses (pid : Nat) (s : State D) : Prop :=
  ((s.iter pid).curElementAddress ≤ (s.part pid).firstElementAddress ∨
      latestStop pid (s.part pid) ≤ (s.iter pid).curElementAddress) ∧
    previousAddress pid (s.part pid) (s.iter pid) < latestStop pid (s.part pid)

instance (pid : Nat) (s : State D) : Decidable (Crosses pid s) :=
  inferInstanceAs (Decidable (_ ∧ _))

/-- The states of a walk back from the latest element: `k` steps succeeded, none of them
into what the current round has overwritten, with reads in between. -/
inductive WalkedBack (pid : Nat) (s : State D) : Nat → State D → Prop
  | init {t : State D} : iteratorInit pid s = (.ok (), t) → WalkedBack pid s 0 t
  | read {k : Nat} {t : State D} :
      WalkedBack pid s k t → WalkedBack pid s k (iteratorReadElement pid t).2
  | previous {k : Nat} {t t' : State D} : WalkedBack pid s k t → ¬ Crosses pid t →
      iteratorPrevious pid t = (.ok (), t') → WalkedBack pid s (k + 1) t'

/-- The place of the element `l.head` on a walk: in the current lap, or left of the lap
before. -/
inductive Visits (D : Device) (m : Nat → UInt8) (e : Extent) (p : Partition) :
    List Element → Nat → Prop
  | first {f el : Element} {els : List Element} {a : Nat} :
      Lap m e 0 f (el :: els) a → e.stopOf a el.1.length ≤ latestStop e.pid p →
      p.metadata.lastElementAddress ≤ e.start → Visits D m e p (el :: els) a
  | current {f el old f₀ : Element} {els olds rest : List Element} {m₀ : Nat → UInt8}
      {link₀ a₀ a : Nat} :
      Lap m e (old.1.length ^^^ f.1.length) f (el :: els) a →
      e.stopOf a el.1.length ≤ latestStop e.pid p →
      Lap m₀ e link₀ f₀ (old :: olds) a₀ → f.2 = incrementRecordId old.2 →
      Residue D e (latestStop e.pid p) m₀ m →
      p.metadata.lastElementAddress =
        (if e.stopOf e.start f.1.length ≥ a₀ then e.start else a₀) →
      Visits D m e p (el :: els ++ (old :: olds ++ rest)) a
  | before {f₀ el : Element} {els rest : List Element} {m₀ : Nat → UInt8} {link₀ a : Nat} :
      Lap m₀ e link₀ f₀ (el :: els) a → latestStop e.pid p ≤ a → Agrees e m₀ m a →
      Residue D e (latestStop e.pid p) m₀ m → Visits D m e p (el :: els ++ rest) a

theorem Visits.stands {p : Partition} (h : Visits D m e p (el :: l) a) :
    ∃ x, Stands m e a x el := by
  generalize hl : el :: l = l' at h
  cases h with
  | first hlap _ _ =>
    cases hl
    exact hlap.head_stands
  | current hlap _ _ _ _ _ =>
    cases hl
    exact hlap.head_stands
  | before hlap _ hagrees _ =>
    cases hl
    obtain ⟨x, hs⟩ := hlap.head_stands
    exact ⟨x, hs.agrees hagrees⟩

theorem Rounds.visits (hk : Known D m e (s.part e.pid)) (h : Rounds D m e (s.part e.pid) log) :
    Visits D m e (s.part e.pid) log (s.part e.pid).latestElementAddress := by
  cases h with
  | first hlap hlatest hlast =>
    refine Visits.first hlap (Nat.le_of_eq ?_) hlast
    rw [latestStop, stopOf_extent hk.start_eq, hlatest.len]
  | @later f el old f₀ els olds rest m₀ link₀ a₀ hlap hlatest hold hid hres hlast _ =>
    have hstop : e.stopOf (s.part e.pid).latestElementAddress el.1.length =
        latestStop e.pid (s.part e.pid) := by
      rw [latestStop, stopOf_extent hk.start_eq, hlatest.len]
    rw [hstop] at hres
    exact Visits.current hlap (Nat.le_of_eq hstop) hold hid hres hlast

/-- A successful step back that does not cross the latest element goes to the element
that was stored before. -/
theorem Visits.previous (hk : Known D s.bytes e (s.part e.pid))
    (hf : (s.part e.pid).hasFirstElement = true)
    (h : Visits D s.bytes e (s.part e.pid) (el :: l) a)
    (hcross : ¬ Crosses e.pid (s.setIter e.pid (e.iteratorAt s.bytes a el.1.length)))
    {t : State D}
    (hstep : iteratorPrevious e.pid (s.setIter e.pid (e.iteratorAt s.bytes a el.1.length)) =
      (.ok (), t)) :
    ∃ el' l' a', l = el' :: l' ∧ Visits D s.bytes e (s.part e.pid) (el' :: l') a' ∧
      t = s.setIter e.pid (e.iteratorAt s.bytes a' el'.1.length) := by
  have hge := latestStop_ge hk.ram
  rw [hk.start_eq] at hge
  have hH := elementHeaderLen_bounds e.pid
  have hahead : a ≤ e.start ∨ latestStop e.pid (s.part e.pid) ≤ a →
      latestStop e.pid (s.part e.pid) ≤ previousAddress e.pid (s.part e.pid)
        (e.iteratorAt s.bytes a el.1.length) := by
    intro ha
    by_contra hlt
    refine hcross ⟨?_, ?_⟩
    · rw [setIter_iter, setIter_part, hk.start_eq]
      exact ha
    · rw [setIter_iter, setIter_part]
      exact Nat.not_le.mp hlt
  generalize hl : el :: l = l' at h
  cases h with
  | @first f _ _ _ hlap hstop hlast =>
    cases hl
    cases l with
    | nil =>
      cases hlap with
      | first hs =>
        rw [hs.previous_none hk hf hlast] at hstep
        cases hstep
    | cons el₁ els =>
      obtain ⟨a₁, hlap₁, rfl, hok⟩ := hlap.previous_current hk hf
      have hgt := stopOf_gt e (e.stopOf a₁ el₁.1.length) el.1.length
      rw [hok] at hstep
      cases hstep
      exact ⟨el₁, els, a₁, rfl, Visits.first hlap₁ (by omega) hlast, rfl⟩
  | @current f _ old f₀ els olds rest m₀ link₀ a₀ _ hlap hstop hold hid hres hlast =>
    cases hl
    cases els with
    | nil =>
      cases hlap with
      | first hs =>
        by_cases hfar : e.stopOf e.start el.1.length ≥ a₀
        · rw [if_pos hfar] at hlast
          rw [hs.previous_none hk hf (Nat.le_of_eq hlast)] at hstep
          cases hstep
        · rw [if_neg hfar] at hlast
          have hgt := stopOf_gt e e.start el.1.length
          obtain ⟨haddr, hprev⟩ := Lap.previous_start hs hold hid hk hf hlast (by omega)
          have hbehind := hahead (.inl (Nat.le_refl _))
          rw [haddr] at hbehind
          rcases hold.step_before hres hbehind (by omega) hprev with ⟨hok, hagrees⟩ | ⟨hend, -⟩
          · rw [hok] at hstep
            cases hstep
            exact ⟨old, olds ++ rest, a₀, rfl, Visits.before hold hbehind hagrees hres, rfl⟩
          · rw [hend] at hstep
            cases hstep
    | cons el₁ els =>
      obtain ⟨a₁, hlap₁, rfl, hok⟩ := hlap.previous_current hk hf
      have hgt := stopOf_gt e (e.stopOf a₁ el₁.1.length) el.1.length
      rw [hok] at hstep
      cases hstep
      exact ⟨el₁, _, a₁, rfl, Visits.current hlap₁ (by omega) hold hid hres hlast, rfl⟩
  | @before f₀ _ els rest m₀ link₀ _ hlap hbehind hagrees hres =>
    cases hl
    cases els with
    | nil =>
      cases hlap with
      | first _ => omega
    | cons el₁ els =>
      obtain ⟨a₁, hlap₁, rfl, haddr, hprev⟩ := hlap.previous hagrees hk hf
      have hbehind₁ := hahead (.inr hbehind)
      rw [haddr] at hbehind₁
      rcases hlap₁.step_before hres hbehind₁ (by omega) hprev with ⟨hok, hagrees₁⟩ | ⟨hend, -⟩
      · rw [hok] at hstep
        cases hstep
        exact ⟨el₁, els ++ rest, a₁, rfl, Visits.before hlap₁ hbehind₁ hagrees₁ hres, rfl⟩
      · rw [hend] at hstep
        cases hstep

/-- On a walk the iterator stands at the elements of the log, one after the other. -/
theorem WalkedBack.visits {k : Nat} {t : State D}
    (hring : RingLog D s.bytes e (s.part e.pid) log) (h : WalkedBack e.pid s k t) :
    (s.part e.pid).hasFirstElement = true ∧ ∃ el l a, log.drop k = el :: l ∧
      Visits D s.bytes e (s.part e.pid) (el :: l) a ∧
      t = s.setIter e.pid (e.iteratorAt s.bytes a el.1.length) := by
  have hk := hring.known
  induction h with
  | init hinit =>
    have hf : (s.part e.pid).hasFirstElement = true := by
      by_contra hfalse
      unfold iteratorInit iteratorInvalidate at hinit
      rw [Proc.bind_ok (modifyIterator_apply _), getPartition_bind, setIter_part,
        Proc.failIf_bind_pos (Bool.eq_false_iff.mpr hfalse)] at hinit
      cases hinit
    rw [hring.init hf] at hinit
    cases hinit
    obtain ⟨link, f, el, els, tail, rfl, hlap, hlatest⟩ := (hring.rounds hf).cases_current
    refine ⟨hf, el, els ++ tail, _, rfl, (hring.rounds hf).visits hk, ?_⟩
    rw [hlatest.len]
  | read _ ih =>
    obtain ⟨hf, el, l, a, hdrop, hvisits, rfl⟩ := ih
    obtain ⟨x, hs⟩ := hvisits.stands
    rw [hs.read hk hf]
    exact ⟨hf, el, l, a, hdrop, hvisits, rfl⟩
  | @previous k t t' _ hcross hstep ih =>
    obtain ⟨hf, el, l, a, hdrop, hvisits, rfl⟩ := ih
    obtain ⟨el', l', a', rfl, hvisits', rfl⟩ := hvisits.previous hk hf hcross hstep
    refine ⟨hf, el', l', a', ?_, hvisits', rfl⟩
    rw [← List.tail_drop, hdrop, List.tail_cons]

/-- In storage that keeps, or blanks, the rest of the last unit of a store as a whole:
after `k` steps back, none of them into what the current round has overwritten, reading
returns the bytes and the identifier of the element stored `k` stores before the latest
one. -/
theorem walked_back_stored (hD : D.AllOrNothing) {rs : List Registration} {pids : List Nat}
    {s₀ s₁ : State D} (hblank : Blank s₀.bytes D.size) (hboot : boot rs s₀ = (.ok pids, s₁))
    {pid : Nat} (hpid : pid ∈ pids) (hrun : Logged pids pid s₁ log s) {k : Nat} {t : State D}
    (hwalk : WalkedBack pid s k t) :
    ∃ el, log[k]? = some el ∧ iteratorReadElement pid t = (.ok el, t) := by
  obtain ⟨-, hreg, hpids, hdev₁, -, hparts⟩ := boot_blank hblank hboot
  rw [hpids] at hpid
  obtain ⟨e, he, rfl⟩ := List.mem_map.mp hpid
  have hblank₁ : Blank s₁.bytes D.size := by
    unfold State.bytes
    rw [hdev₁]
    exact hblank
  have hring := ((hrun.ringLog hD hreg hpids hblank₁ hparts he) e he).2 rfl
  obtain ⟨hf, el, l, a, hdrop, hvisits, rfl⟩ := hwalk.visits hring
  obtain ⟨x, hs⟩ := hvisits.stands
  refine ⟨el, ?_, hs.read hring.known hf⟩
  rw [← Nat.add_zero k, ← List.getElem?_drop, hdrop]
  rfl

/-- A dynamic partition of thirty bytes. -/
def smallDynamic : List Registration := [⟨30, true, false, 0, zero_lt_elementLenMax⟩]

def dynamicStart : State eeprom := (boot smallDynamic (powerUp (D := eeprom) blankBytes)).2

/-- The fourth element goes to the start and ends inside the old second one. -/
def misaligned : State eeprom :=
  storeAll 0x8000 [[], [0x11, 0x22], [0x33], [0, 2, 0, 2, 0x55]] dynamicStart

def misalignedLog : List Element :=
  [([0, 2, 0, 2, 0x55], 4), ([0x33], 3), ([0x11, 0x22], 2), ([], 1)]

theorem misaligned_logged : Logged [0x8000] 0x8000 dynamicStart misalignedLog misaligned := by
  have h₀ : Logged [0x8000] 0x8000 dynamicStart [] dynamicStart := Logged.start
  have h₁ := logged_storeList h₀ [] 1 (by decide +kernel) (by decide +kernel)
  have h₂ := logged_storeList h₁ [0x11, 0x22] 2 (by decide +kernel) (by decide +kernel)
  have h₃ := logged_storeList h₂ [0x33] 3 (by decide +kernel) (by decide +kernel)
  exact logged_storeList h₃ [0, 2, 0, 2, 0x55] 4 (by decide +kernel) (by decide +kernel)

/-- The state after one step back from the latest element. -/
def oneBack : State eeprom := (iteratorPrevious 0x8000 (iteratorInit 0x8000 misaligned).2).2

theorem walked_back_stored_eeprom :
    ∃ el, misalignedLog[1]? = some el ∧ iteratorReadElement 0x8000 oneBack = (.ok el, oneBack) := by
  have hboot : boot smallDynamic (powerUp (D := eeprom) blankBytes) =
      (.ok [0x8000], dynamicStart) := Proc.eq_of_fst (by decide +kernel)
  have h₀ : WalkedBack 0x8000 misaligned 0 (iteratorInit 0x8000 misaligned).2 :=
    WalkedBack.init (Proc.eq_of_fst (by decide +kernel))
  have h₁ : WalkedBack 0x8000 misaligned 1 oneBack :=
    h₀.previous (by decide +kernel) (Proc.eq_of_fst (by decide +kernel))
  exact walked_back_stored (fillDevice_allOrNothing _ _) (fun _ _ => rfl) hboot (by decide)
    misaligned_logged h₁

/-- A second step back lands in the data of the latest element and succeeds. -/
theorem phantom_element :
    boot smallDynamic (powerUp (D := eeprom) blankBytes) = (.ok [0x8000], dynamicStart) ∧
      Logged [0x8000] 0x8000 dynamicStart misalignedLog misaligned ∧
      (iteratorInit 0x8000 misaligned).1 = .ok () ∧
      (iteratorPrevious 0x8000 (iteratorInit 0x8000 misaligned).2).1 = .ok () ∧
      (iteratorPrevious 0x8000 oneBack).1 = .ok () ∧
      (iteratorReadElement 0x8000 (iteratorPrevious 0x8000 oneBack).2).1 =
        .ok ([0x55, 0x22], 2) ∧
      ([0x55, 0x22], 2) ∉ misalignedLog :=
  ⟨Proc.eq_of_fst (by decide +kernel), misaligned_logged, by decide +kernel, by decide +kernel,
    by decide +kernel, by decide +kernel, by decide⟩

end OpenBadge.Filesystem
