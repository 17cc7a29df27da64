import Mathlib.Data.List.Pairwise
import OpenBadge.Filesystem.Register

/-!
# The layout of a storage

The places of the partitions that a sequence of registrations creates, what they have
in common, and the start of the firmware: `filesystem_reset` followed by the
registrations.
-/

namespace OpenBadge.Filesystem

open OpenBadge.Lib OpenBadge.Storage

variable {D : Device} {s t : State D}

/-! ## Partition identifiers -/

theorem partitionIdOf_bits : ∀ (i : Fin maxNumberOfPartitions) (dynamic crc : Bool),
    partitionIndex (partitionIdOf i dynamic crc) = i ∧
      isDynamic (partitionIdOf i dynamic crc) = dynamic ∧
      hasElementCrc (partitionIdOf i dynamic crc) = crc ∧
      partitionIdOf i dynamic crc < 2 ^ 16 := by decide

theorem partitionIndex_partitionIdOf {i : Nat} (h : i < maxNumberOfPartitions)
    (dynamic crc : Bool) : partitionIndex (partitionIdOf i dynamic crc) = i :=
  (partitionIdOf_bits ⟨i, h⟩ dynamic crc).1

theorem isDynamic_partitionIdOf {i : Nat} (h : i < maxNumberOfPartitions)
    (dynamic crc : Bool) : isDynamic (partitionIdOf i dynamic crc) = dynamic :=
  (partitionIdOf_bits ⟨i, h⟩ dynamic crc).2.1

theorem partitionIdOf_lt {i : Nat} (h : i < maxNumberOfPartitions) (dynamic crc : Bool) :
    partitionIdOf i dynamic crc < 2 ^ 16 :=
  (partitionIdOf_bits ⟨i, h⟩ dynamic crc).2.2.2

/-! ## Places -/

/-- A place of a partition in the storage, behind the swap page. -/
structure Extent.Ok (D : Device) (e : Extent) : Prop where
  pid_lt : e.pid < 2 ^ 16
  index_lt : partitionIndex e.pid < maxNumberOfPartitions
  start_ge : swapPageSize ≤ e.start
  start_unit : unitStart D.modules e.start = e.start
  stop_unit : unitStart D.modules (e.start + e.size) = e.start + e.size
  stop_le : e.start + e.size ≤ D.size
  room : metadataSize + getElementHeaderLen e.pid + e.elementLen ≤ e.size
  len_lt : e.elementLen < 2 ^ 16
  len_static : isDynamic e.pid = false → 0 < e.elementLen

theorem extentOf_ok {index start : Nat} {r : Registration} (h : Registrable D index start r)
    (hstart : swapPageSize ≤ start) : (extentOf D index start r).Ok D := by
  have hlt := h.start_lt
  have hne := h.size_ne
  have hstop := lt_unitStop D.modules (start + min (D.size - start) r.requiredSize - 1)
  have hend : start + availableSize D start r.requiredSize =
      unitStop D.modules (start + min (D.size - start) r.requiredSize - 1) := by
    unfold availableSize
    omega
  refine ⟨partitionIdOf_lt h.index_lt _ _, ?_, hstart, h.start_unit, ?_, ?_, h.room, ?_, ?_⟩
  · change partitionIndex (partitionIdOf _ _ _) < _
    rw [partitionIndex_partitionIdOf h.index_lt]
    exact h.index_lt
  · change unitStart D.modules (start + availableSize D start r.requiredSize) = _
    rw [hend, unitStart_unitStop]
    exact hend.symm
  · change start + availableSize D start r.requiredSize ≤ _
    rw [hend]
    exact unitStop_le (show _ < totalSize D.modules from by
      have htotal : D.size = totalSize D.modules := rfl
      omega)
  · change (if r.dynamic then 0 else r.elementLen) < _
    have hl := r.elementLen_lt
    split <;> omega
  · intro hd
    change isDynamic (partitionIdOf _ _ _) = false at hd
    rw [isDynamic_partitionIdOf h.index_lt] at hd
    have hl := h.len_ok
    change 0 < (if r.dynamic then 0 else r.elementLen)
    rw [hd]
    simp only [Bool.false_eq_true, if_false]
    simp only [hd, true_and] at hl
    omega

/-- The places of registrations, from an index and an address on. -/
def layoutFrom (D : Device) : Nat → Nat → List Registration → List Extent
  | _, _, [] => []
  | index, start, r :: rs =>
    extentOf D index start r ::
      layoutFrom D (index + 1) (start + (extentOf D index start r).size) rs

/-- All registrations are accepted. -/
def AllRegistrable (D : Device) : Nat → Nat → List Registration → Prop
  | _, _, [] => True
  | index, start, r :: rs =>
    Registrable D index start r ∧
      AllRegistrable D (index + 1) (start + (extentOf D index start r).size) rs

theorem layoutFrom_ok : ∀ {index start : Nat} {rs : List Registration},
    AllRegistrable D index start rs → swapPageSize ≤ start →
    ∀ e ∈ layoutFrom D index start rs,
      e.Ok D ∧ start ≤ e.start ∧ index ≤ partitionIndex e.pid
  | _, _, [], _, _, _, he => absurd he List.not_mem_nil
  | index, start, r :: rs, h, hstart, e, he => by
    rcases List.mem_cons.mp he with rfl | he
    · refine ⟨extentOf_ok h.1 hstart, Nat.le_refl _, ?_⟩
      exact Nat.le_of_eq (partitionIndex_partitionIdOf h.1.index_lt _ _).symm
    · obtain ⟨hok, hle, hindex⟩ := layoutFrom_ok h.2 (Nat.le_trans hstart (Nat.le_add_right _ _))
        e he
      exact ⟨hok, by omega, by omega⟩

/-- Two partitions that share neither bytes nor an entry of the tables. -/
def Extent.Apart (e e' : Extent) : Prop :=
  partitionIndex e.pid ≠ partitionIndex e'.pid ∧
    (e.start + e.size ≤ e'.start ∨ e'.start + e'.size ≤ e.start)

theorem Extent.Apart.symm {e e' : Extent} (h : e.Apart e') : e'.Apart e :=
  ⟨h.1.symm, h.2.symm⟩

theorem layoutFrom_apart : ∀ {index start : Nat} {rs : List Registration},
    AllRegistrable D index start rs → swapPageSize ≤ start →
    (layoutFrom D index start rs).Pairwise Extent.Apart
  | _, _, [], _, _ => List.Pairwise.nil
  | index, start, r :: rs, h, hstart => by
    refine List.Pairwise.cons ?_ (layoutFrom_apart h.2 (Nat.le_trans hstart (Nat.le_add_right _ _)))
    intro e he
    obtain ⟨-, hle, hindex⟩ := layoutFrom_ok h.2 (Nat.le_trans hstart (Nat.le_add_right _ _)) e he
    refine ⟨?_, .inl hle⟩
    change partitionIndex (partitionIdOf _ _ _) ≠ _
    rw [partitionIndex_partitionIdOf h.1.index_lt]
    omega

instance : Std.Symm Extent.Apart := ⟨fun _ _ h => h.symm⟩

/-- The bytes of a partition: its own and its entry in the swap page. -/
def Extent.Owns (e : Extent) (x : Nat) : Prop :=
  (e.start ≤ x ∧ x < e.start + e.size) ∨
    (getSwapPageAddressOfPartition e.pid ≤ x ∧
      x < getSwapPageAddressOfPartition e.pid + metadataSize + getElementHeaderLen e.pid)

theorem Extent.Apart.not_owns {e e' : Extent} (h : e.Apart e') (he : e.Ok D) (he' : e'.Ok D)
    {x : Nat} (hx : e'.Owns x) : ¬ e.Owns x := by
  have hswap := swapEntry_le he.index_lt
  have hswap' := swapEntry_le he'.index_lt
  have hstart := he.start_ge
  have hstart' := he'.start_ge
  have hH := elementHeaderLen_bounds e.pid
  have hH' := elementHeaderLen_bounds e'.pid
  have hindex := h.1
  have happart := h.2
  unfold Extent.Owns at *
  unfold getSwapPageAddressOfPartition swapEntrySize metadataSize recordIdSize
    previousLenXorCurLenSize elementCrcSize at *
  omega

/-! ## Starting the firmware -/

def registerAll : List Registration → Fs D (List Nat)
  | [] => pure []
  | r :: rs => do
    let pid ← registerPartition r
    let pids ← registerAll rs
    pure (pid :: pids)

/-- `filesystem_reset` and the registrations of the application. -/
def boot (rs : List Registration) : Fs D (List Nat) := do
  reset
  registerAll rs

/-- The first address behind the units of the swap page. -/
def firstFree (D : Device) : Nat := unitStop D.modules (swapPageSize - 1)

/-- The places of the partitions of an application. -/
def layout (D : Device) (rs : List Registration) : List Extent := layoutFrom D 0 (firstFree D) rs

theorem firstFree_ge (D : Device) : swapPageSize ≤ firstFree D := by
  have h := lt_unitStop D.modules (swapPageSize - 1)
  unfold firstFree
  omega

theorem layout_ok {rs : List Registration} (h : AllRegistrable D 0 (firstFree D) rs) {e : Extent}
    (he : e ∈ layout D rs) : e.Ok D :=
  (layoutFrom_ok h (firstFree_ge D) e he).1

theorem layout_apart {rs : List Registration} (h : AllRegistrable D 0 (firstFree D) rs)
    {e e' : Extent} (he : e ∈ layout D rs) (he' : e' ∈ layout D rs) (hne : e ≠ e') :
    e.Apart e' :=
  (layoutFrom_apart h (firstFree_ge D)).forall he he' hne

/-- The state after `filesystem_reset`. -/
def State.restarted (s : State D) : State D :=
  { s with numberOfPartitions := 0, nextFreeAddress := firstFree D }

theorem reset_eq (h : swapPageSize ≤ D.size) : reset s = (.ok (), s.restarted) := by
  have hstop := lt_unitStop D.modules (swapPageSize - 1)
  unfold reset
  rw [Proc.modify_bind_apply,
    Proc.bind_ok (Proc.orFail_ok (unitLimits_ok (by decide) (by omega)) _)]
  dsimp only
  rw [Proc.modify_apply, Nat.zero_add,
    show unitStop D.modules (swapPageSize - 1) - 1 + 1 = firstFree D by unfold firstFree; omega]
  rfl

theorem size_of_reset {x : Unit} (h : reset s = (.ok x, t)) : swapPageSize ≤ D.size := by
  unfold reset at h
  rw [Proc.modify_bind_apply] at h
  obtain ⟨_, _, hlimits, -⟩ := Proc.bind_eq_ok.mp h
  rw [Proc.orFail_eq_ok] at hlimits
  unfold storageGetUnitAddressLimits at hlimits
  obtain ⟨_, _, hfits, -⟩ := Proc.bind_eq_ok.mp hlimits
  have hle := (Proc.failIf_eq_ok.mp hfits).1
  rw [Nat.mod_eq_of_lt (by decide)] at hle
  omega

/-- Registrations that find their partitions without writing to the storage. -/
theorem registerAll_ok {Q : Extent → Partition → Prop} : ∀ {rs : List Registration} {s : State D},
    AllRegistrable D s.numberOfPartitions s.nextFreeAddress rs →
    swapPageSize ≤ s.nextFreeAddress →
    (∀ e ∈ layoutFrom D s.numberOfPartitions s.nextFreeAddress rs, ∀ s' : State D,
      s'.dev = s.dev → ∃ p, registerFound e
          (s'.setPart e.pid ((s'.part e.pid).registered e)) =
        (.ok e.pid, (s'.setPart e.pid p).advance e) ∧ Q e p) →
    ∃ t, registerAll rs s =
        (.ok ((layoutFrom D s.numberOfPartitions s.nextFreeAddress rs).map Extent.pid), t) ∧
      t.dev = s.dev ∧ t.partitionIterators = s.partitionIterators ∧
      (∀ j < s.numberOfPartitions, t.partitions j = s.partitions j) ∧
      ∀ e ∈ layoutFrom D s.numberOfPartitions s.nextFreeAddress rs, Q e (t.part e.pid)
  | [], s, _, _, _ => ⟨s, rfl, rfl, rfl, fun _ _ => rfl, fun _ he => absurd he List.not_mem_nil⟩
  | r :: rs, s, hreg, hstart, hfound => by
    obtain ⟨e, he⟩ : ∃ e, e = extentOf D s.numberOfPartitions s.nextFreeAddress r := ⟨_, rfl⟩
    have hindex : partitionIndex e.pid = s.numberOfPartitions := by
      rw [he]
      exact partitionIndex_partitionIdOf hreg.1.index_lt _ _
    have hmem : e ∈ layoutFrom D s.numberOfPartitions s.nextFreeAddress (r :: rs) := by
      rw [he]
      exact List.mem_cons_self
    obtain ⟨p, hregister, hQ⟩ := hfound e hmem s rfl
    rw [← registerPartition_eq hreg.1 he] at hregister
    have hlayout : layoutFrom D s.numberOfPartitions s.nextFreeAddress (r :: rs) =
        e :: layoutFrom D ((s.setPart e.pid p).advance e).numberOfPartitions
          ((s.setPart e.pid p).advance e).nextFreeAddress rs := by
      rw [he]
      rfl
    have hrest : AllRegistrable D ((s.setPart e.pid p).advance e).numberOfPartitions
        ((s.setPart e.pid p).advance e).nextFreeAddress rs := by
      rw [he]
      exact hreg.2
    have hge : swapPageSize ≤ ((s.setPart e.pid p).advance e).nextFreeAddress := by
      rw [he]
      exact Nat.le_trans hstart (Nat.le_add_right _ _)
    rw [hlayout] at hfound ⊢
    obtain ⟨t, ht, hdev, hiter, hkept, hparts⟩ := registerAll_ok hrest hge
      fun e' he' s' hs' => hfound e' (List.mem_cons_of_mem _ he') s' hs'
    refine ⟨t, ?_, hdev, hiter, ?_, ?_⟩
    · unfold registerAll
      rw [Proc.bind_ok hregister, Proc.bind_ok ht]
      rfl
    · intro j hj
      rw [hkept j (Nat.lt_succ_of_lt hj)]
      exact Function.update_of_ne (by omega) _ _
    · intro e' he'
      rcases List.mem_cons.mp he' with rfl | he'
      · unfold State.part
        rw [hindex, hkept s.numberOfPartitions (Nat.lt_succ_self _), ← hindex]
        have hpart : ((s.setPart e'.pid p).advance e').part e'.pid = p := setPart_part s e'.pid p
        unfold State.part at hpart
        rw [hpart]
        exact hQ
      · exact hparts e' he'

/-- The registrations of a successful start are accepted, if those that are accepted
find their partitions without writing to the storage. -/
theorem registrable_of_registerAll : ∀ {rs : List Registration} {s t : State D} {pids : List Nat},
    swapPageSize ≤ s.nextFreeAddress →
    (∀ e : Extent, e.Ok D → ∀ s' : State D, s'.dev = s.dev → ∃ p, registerFound e
        (s'.setPart e.pid ((s'.part e.pid).registered e)) =
      (.ok e.pid, (s'.setPart e.pid p).advance e)) →
    registerAll rs s = (.ok pids, t) →
    AllRegistrable D s.numberOfPartitions s.nextFreeAddress rs
  | [], _, _, _, _, _, _ => trivial
  | r :: rs, s, t, pids, hstart, hfound, h => by
    unfold registerAll at h
    obtain ⟨pid, s₁, hregister, h⟩ := Proc.bind_eq_ok.mp h
    obtain ⟨pids', t₁, hrest, -⟩ := Proc.bind_eq_ok.mp h
    have hreg := registrable_of_ok hregister
    obtain ⟨p, hp⟩ := hfound _ (extentOf_ok hreg hstart) s rfl
    rw [registerPartition_eq hreg rfl, hp] at hregister
    cases hregister
    refine ⟨hreg, registrable_of_registerAll (s := (s.setPart _ p).advance _)
      (Nat.le_trans hstart (Nat.le_add_right _ _)) hfound hrest⟩

/-- Room for one more header behind the last partition is room behind every one. -/
theorem layoutFrom_room : ∀ {index start : Nat} {rs : List Registration},
    AllRegistrable D index start rs → swapPageSize ≤ start →
    (∀ e, (layoutFrom D index start rs).getLast? = some e →
      e.start + e.size + getElementHeaderLen e.pid ≤ D.size) →
    ∀ e ∈ layoutFrom D index start rs, e.start + e.size + getElementHeaderLen e.pid ≤ D.size
  | _, _, [], _, _, _, _, he => absurd he List.not_mem_nil
  | index, start, [r], _, _, hlast, e, he => by
    rcases List.mem_cons.mp he with rfl | he
    · exact hlast _ rfl
    · exact absurd he List.not_mem_nil
  | index, start, r :: r' :: rs, h, hstart, hlast, e, he => by
    have hstart' : swapPageSize ≤ start + (extentOf D index start r).size :=
      Nat.le_trans hstart (Nat.le_add_right _ _)
    rcases List.mem_cons.mp he with rfl | he
    · have hok := extentOf_ok h.2.1 hstart'
      have hstop := hok.stop_le
      have hroom := hok.room
      have hH := elementHeaderLen_bounds (extentOf D index start r).pid
      change start + (extentOf D index start r).size + _ ≤ _ at hstop
      change start + (extentOf D index start r).size + _ ≤ _
      unfold metadataSize at hroom
      omega
    · exact layoutFrom_room h.2 hstart' hlast e he

/-! ## Blank storage -/

/-- Every byte of the storage is 0xFF. -/
def Blank (m : Nat → UInt8) (size : Nat) : Prop := ∀ x < size, m x = 0xFF

theorem slice_blank {m : Nat → UInt8} {size a n : Nat} (h : Blank m size) (ha : a + n ≤ size) :
    slice m a n = List.replicate n 0xFF := by
  have hlen : (List.replicate n (0xFF : UInt8)).length = n := List.length_replicate
  conv_lhs => rw [← hlen]
  rw [slice_eq_iff]
  intro i hi
  rw [List.getElem_replicate]
  exact h _ (by omega)

/-- A partition in blank storage. -/
theorem silent_of_blank {m : Nat → UInt8} {pid : Nat} {p : Partition}
    (hstart : firstBytes m pid p.firstElementAddress =
      List.replicate (metadataSize + getElementHeaderLen pid) 0xFF)
    (hswap : firstBytes m pid (getSwapPageAddressOfPartition pid) =
      List.replicate (metadataSize + getElementHeaderLen pid) 0xFF) : Silent m pid p := by
  have h := not_crcValid_blank pid
  unfold Silent
  rw [hstart, hswap]
  exact ⟨fun hc => absurd hc h, fun _ hc => absurd hc h⟩

/-- The library's variables after the registration of an empty partition. -/
theorem ram_registered {e : Extent} (he : e.Ok D) (p : Partition) :
    Ram D e.pid (p.registered e) := by
  have hroom := he.room
  refine ⟨he.pid_lt, he.index_lt, rfl, he.start_ge, he.start_unit, he.stop_unit, he.stop_le, ?_,
    he.len_lt, .inl rfl, ?_, fun _ => ?_⟩
  · change metadataSize + getElementHeaderLen e.pid ≤ e.size
    omega
  · exact Nat.two_pow_pos 16
  · exact isRecordId_recordIdOf 0

theorem registered_sync {e : Extent} (he : e.Ok D)
    (hpart : ∃ p : Partition, s.part e.pid = p.registered e)
    (hstart : firstBytes s.bytes e.pid e.start =
      List.replicate (metadataSize + getElementHeaderLen e.pid) 0xFF)
    (hswap : firstBytes s.bytes e.pid (getSwapPageAddressOfPartition e.pid) =
      List.replicate (metadataSize + getElementHeaderLen e.pid) 0xFF) :
    Sync s e.pid ∧ Silent s.bytes e.pid (s.part e.pid) := by
  obtain ⟨p, hp⟩ := hpart
  have hsilent : Silent s.bytes e.pid (s.part e.pid) :=
    silent_of_blank (by rw [hp]; exact hstart) hswap
  exact ⟨Ram.sync (by rw [hp]; exact ram_registered he p) (.inr hsilent), hsilent⟩

/-- In blank storage a partition is found empty. -/
theorem registerFound_blank {e : Extent} (he : e.Ok D) (hblank : Blank s.bytes D.size) :
    registerFound e (s.setPart e.pid ((s.part e.pid).registered e)) =
      (.ok e.pid, (s.setPart e.pid ((s.part e.pid).registered e)).advance e) := by
  have hstop := he.stop_le
  have hroom := he.room
  have hswap := swapEntry_le he.index_lt
  have hge := he.start_ge
  have hpart := setPart_part s e.pid ((s.part e.pid).registered e)
  obtain ⟨hsync, hsilent⟩ := registered_sync (s := s.setPart e.pid ((s.part e.pid).registered e))
    he ⟨_, hpart⟩ (slice_blank hblank (by omega)) (slice_blank hblank (by omega))
  rw [registerFound_empty hsync (by rw [hpart]; rfl) hsilent, hpart, setPart_setPart]
  rfl

/-- A start on blank storage creates the partitions of the layout, all of them empty. -/
theorem boot_blank {rs : List Registration} {pids : List Nat} (hblank : Blank s.bytes D.size)
    (h : boot rs s = (.ok pids, t)) :
    swapPageSize ≤ D.size ∧ AllRegistrable D 0 (firstFree D) rs ∧
      pids = (layout D rs).map Extent.pid ∧ t.dev = s.dev ∧
      t.partitionIterators = s.partitionIterators ∧
      ∀ e ∈ layout D rs, ∃ p : Partition, t.part e.pid = p.registered e := by
  obtain ⟨_, s₁, hreset, h⟩ := Proc.bind_eq_ok.mp h
  have hsize := size_of_reset hreset
  rw [reset_eq hsize] at hreset
  cases hreset
  have hreg : AllRegistrable D 0 (firstFree D) rs :=
    registrable_of_registerAll (s := s.restarted) (firstFree_ge D) (fun e he s' hs' =>
      ⟨_, registerFound_blank he (by unfold State.bytes; rw [hs']; exact hblank)⟩) h
  obtain ⟨t', ht', hdev, hiter, -, hparts⟩ := registerAll_ok (s := s.restarted)
    (Q := fun e p => ∃ q : Partition, p = q.registered e) hreg (firstFree_ge D)
    fun e he s' hs' => ⟨_, registerFound_blank (layoutFrom_ok hreg (firstFree_ge D) e he).1
      (by unfold State.bytes; rw [hs']; exact hblank), _, rfl⟩
  rw [ht'] at h
  cases h
  exact ⟨hsize, hreg, rfl, hdev, hiter, hparts⟩

/-! ## Concrete storages -/

/-- The library's variables before the first call: zero. -/
def powerUp (dev : D.State) : State D :=
  { dev := dev
    numberOfPartitions := 0
    nextFreeAddress := 0
    partitions := fun _ =>
      { metadata := ⟨0, 0, 0, 0, 0⟩
        firstElementAddress := 0
        hasFirstElement := false
        firstElementHeader := ⟨0, 0, 0⟩
        latestElementAddress := 0
        latestElementRecordId := 0
        latestElementLen := 0 }
    partitionIterators := fun _ => ⟨0, 0, ⟨0, 0, 0⟩, 0⟩ }

@[simp] theorem powerUp_dev (dev : D.State) : (powerUp dev).dev = dev := rfl

/-- A small storage with byte units. -/
def eeprom : Device :=
  fillDevice [⟨500, 1, Nat.one_pos, by decide⟩] (by decide) (fun _ b => b) fill_old

theorem eeprom_byteUnits : eeprom.ByteUnits := by
  intro m hm
  cases hm with
  | head => rfl
  | tail _ h => cases h

/-- The contents of a new storage. -/
def blankBytes : Nat → UInt8 := fun _ => 0xFF

/-- Element data from a list. -/
def bytesOf (data : List UInt8) : Nat → UInt8 := fun i => data.getD i 0

/-- The call that stores the bytes of a list. -/
def storeList (pid : Nat) (data : List UInt8) : Fs D Unit :=
  storeElement pid (bytesOf data) (UInt16.ofNat data.length).toNat

end OpenBadge.Filesystem
