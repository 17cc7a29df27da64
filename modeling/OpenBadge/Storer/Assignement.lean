import OpenBadge.Filesystem.Single
import OpenBadge.Storer.Model
import OpenBadge.Storer.Partitions

/-!
# storer_lib.c: the badge assignement

The storer keeps the badge assignement in the first of its partitions, which has room for
one. On a reliable storage the assignement that was stored last is read until it is cleared,
across restarts.
-/

namespace OpenBadge.Storer

open OpenBadge.Lib OpenBadge.Storage OpenBadge.Filesystem OpenBadge.Tinybuf

variable {D : Device}

structure BadgeAssignement where
  ID : UInt16
  group : UInt8
  deriving DecidableEq

namespace BadgeAssignement

/-- The members in the order of the structure, on the little-endian processor. -/
def bytes (b : BadgeAssignement) : List UInt8 := [b.ID.toUInt8, (b.ID >>> 8).toUInt8, b.group]

def memory (b : BadgeAssignement) : Memory := overwrite (fun _ => 0) 0 b.bytes

def ofMemory (m : Memory) : BadgeAssignement :=
  ⟨UInt16.ofNat (readNumber .littleEndian m 0 2), m 2⟩

theorem ofMemory_overwrite (b : BadgeAssignement) (m : Memory) :
    ofMemory (overwrite m 0 b.bytes) = b := by
  have hID : readNumber .littleEndian (overwrite m 0 b.bytes) 0 2 = b.ID.toNat := by
    have hlt := b.ID.toNat_lt
    have hshift : (b.ID >>> 8).toNat = b.ID.toNat / 256 := by
      rw [UInt16.toNat_shiftRight]
      exact Nat.shiftRight_eq_div_pow _ 8
    change (0 * 256 + (b.ID >>> 8).toUInt8.toNat) * 256 + b.ID.toUInt8.toNat = _
    rw [UInt16.toNat_toUInt8, UInt16.toNat_toUInt8, hshift]
    omega
  have hgroup : overwrite m 0 b.bytes 2 = b.group := rfl
  rw [ofMemory, hID, hgroup, UInt16.ofNat_toNat]

end BadgeAssignement

theorem tbEncode_badgeAssignement (b : BadgeAssignement) (buf : Memory) :
    tbEncode .littleEndian .littleEndian b.memory badgeAssignementFields 0
        (tbOstreamFromBuffer buf storerSerializedBufferSize) =
      (.ok (), ⟨overwrite buf 0 b.bytes, storerSerializedBufferSize, 3⟩) := by
  have hbytes := overwrite_append buf 0 [b.ID.toUInt8, (b.ID >>> 8).toUInt8] [b.group]
  change _ = overwrite buf 0 b.bytes at hbytes
  rw [← hbytes]
  rfl

theorem tbDecode_badgeAssignement (b : BadgeAssignement) (buf dst : Memory) :
    ∃ t, tbDecode .littleEndian .littleEndian badgeAssignementFields 0
        ⟨tbIstreamFromBuffer (overwrite buf 0 b.bytes) 3, dst, [], []⟩ = (.ok (), t) ∧
      t.dst = overwrite dst 0 b.bytes := by
  have hbytes := overwrite_append dst 0 [b.ID.toUInt8, (b.ID >>> 8).toUInt8] [b.group]
  change _ = overwrite dst 0 b.bytes at hbytes
  rw [← hbytes]
  exact ⟨_, rfl, rfl⟩

/-! ## The storer -/

/-- The filesystem, the identifiers of the partitions and `serialized_buf`. -/
structure StorerState (D : Device) where
  fs : Filesystem.State D
  partitionIds : PartitionIds
  serializedBuf : Memory

abbrev Stores (D : Device) := Proc (StorerState D) RetCode

def onFilesystem {α : Type} (x : Fs D α) : Stores D α :=
  Proc.within (fun s => s.fs) (fun s fs => { s with fs := fs }) x

theorem onFilesystem_apply {α : Type} (x : Fs D α) (s : StorerState D) :
    onFilesystem x s = ((x s.fs).1, { s with fs := (x s.fs).2 }) := rfl

theorem onFilesystem_eq_ok {α : Type} {x : Fs D α} {s t : StorerState D} {a : α} :
    onFilesystem x s = (.ok a, t) ↔ ∃ fs, x s.fs = (.ok a, fs) ∧ t = { s with fs := fs } := by
  unfold onFilesystem Proc.within
  constructor
  · intro h
    cases hx : x s.fs with
    | mk r fs =>
      rw [hx] at h
      cases h
      exact ⟨fs, rfl, rfl⟩
  · intro ⟨fs, hx, ht⟩
    rw [hx, ht]

/-- `storer_init`, with a `storage_init` that succeeds. -/
def storerInit : Stores D Unit := do
  onFilesystem reset
  let partitionIds ← onFilesystem storerRegisterPartitions
  Proc.modify fun s => { s with partitionIds := partitionIds }

def storerClearBadgeAssignement : Stores D Unit := do
  let s ← Proc.get
  onFilesystem (clearPartition s.partitionIds.badgeAssignement)

def storerStoreBadgeAssignement (b : BadgeAssignement) : Stores D Unit := do
  let s ← Proc.get
  let encoded := tbEncode .littleEndian .littleEndian b.memory badgeAssignementFields 0
    (tbOstreamFromBuffer s.serializedBuf storerSerializedBufferSize)
  Proc.modify fun s => { s with serializedBuf := encoded.2.buf }
  match encoded.1 with
  | .error _ => Proc.fail .invalidData
  | .ok _ => onFilesystem (storeElement s.partitionIds.badgeAssignement encoded.2.buf
      (encoded.2.bytesWritten % 2 ^ 16))

/-- What a failed read of the element leaves in `serialized_buf` is never looked at. -/
def storerReadBadgeAssignement : Stores D BadgeAssignement := do
  let s ← Proc.get
  let pid := s.partitionIds.badgeAssignement
  let ret ← Proc.attempt (onFilesystem (iteratorInit pid))
  match ret with
  | .error e => onFilesystem (giveUp pid e)
  | .ok _ => do
    let read ← Proc.attempt (onFilesystem (iteratorReadElement pid))
    onFilesystem (iteratorInvalidate pid)
    match read with
    | .error e => Proc.fail e
    | .ok (data, _) => do
      Proc.modify fun s => { s with serializedBuf := overwrite s.serializedBuf 0 data }
      let s ← Proc.get
      match tbDecode .littleEndian .littleEndian badgeAssignementFields 0
          ⟨tbIstreamFromBuffer s.serializedBuf data.length, fun _ => 0, [], []⟩ with
      | (.error _, _) => Proc.fail .invalidData
      | (.ok _, t) => pure (BadgeAssignement.ofMemory t.dst)

/-! ## The registrations -/

def storerRegistrations : List Registration :=
  [badgeAssignement.registration, batteryChunks.registration, microphoneChunks.registration,
    scanChunks.registration, accelerometerInterruptChunks.registration,
    accelerometerChunks.registration]

def PartitionIds.toList (ids : PartitionIds) : List Nat :=
  [ids.badgeAssignement, ids.batteryChunks, ids.microphoneChunks, ids.scanChunks,
    ids.accelerometerInterruptChunks, ids.accelerometerChunks]

theorem PartitionIds.toList_inj {ids ids' : PartitionIds} (h : ids.toList = ids'.toList) :
    ids = ids' := by
  cases ids
  cases ids'
  simpa [toList] using h

theorem registerAll_storer : (registerAll storerRegistrations : Fs D (List Nat)) =
    storerRegisterPartitions >>= fun ids => pure ids.toList := by
  simp only [registerAll, storerRegistrations, storerRegisterPartitions, Proc.bind_assoc]
  rfl

theorem storerInit_eq_ok {s t : StorerState D} {u : Unit} :
    storerInit s = (.ok u, t) ↔ ∃ ids fs, boot storerRegistrations s.fs = (.ok ids.toList, fs) ∧
      t = { s with fs := fs, partitionIds := ids } := by
  constructor
  · intro h
    obtain ⟨_, s₁, hreset, h⟩ := Proc.bind_eq_ok.mp h
    obtain ⟨ids, s₂, hregister, h⟩ := Proc.bind_eq_ok.mp h
    obtain ⟨fs₁, hreset', rfl⟩ := onFilesystem_eq_ok.mp hreset
    obtain ⟨fs₂, hregister', rfl⟩ := onFilesystem_eq_ok.mp hregister
    cases h
    refine ⟨ids, fs₂, ?_, rfl⟩
    rw [boot, Proc.bind_ok hreset', registerAll_storer, Proc.bind_ok hregister']
    rfl
  · intro ⟨ids, fs, hboot, ht⟩
    obtain ⟨_, fs₁, hreset, hboot⟩ := Proc.bind_eq_ok.mp hboot
    rw [registerAll_storer] at hboot
    obtain ⟨ids', fs₂, hregister, hboot⟩ := Proc.bind_eq_ok.mp hboot
    have hids := PartitionIds.toList_inj (Except.ok.inj (congrArg Prod.fst hboot))
    have hfs : fs₂ = fs := congrArg Prod.snd hboot
    rw [storerInit, Proc.bind_ok (onFilesystem_eq_ok.mpr ⟨fs₁, hreset, rfl⟩),
      Proc.bind_ok (onFilesystem_eq_ok.mpr ⟨fs₂, hregister, rfl⟩), ht, hids, hfs]
    rfl

theorem boot_storer {s t : Filesystem.State D} {pids : List Nat}
    (h : boot storerRegistrations s = (.ok pids, t)) : ∃ ids : PartitionIds, pids = ids.toList := by
  obtain ⟨_, s₁, -, h⟩ := Proc.bind_eq_ok.mp h
  rw [registerAll_storer] at h
  obtain ⟨ids, s₂, -, h⟩ := Proc.bind_eq_ok.mp h
  exact ⟨ids, (Except.ok.inj (congrArg Prod.fst h)).symm⟩

/-- The place of the partition for the badge assignement. -/
def badgeExtent (D : Device) : Extent := extentOf D 0 (firstFree D) badgeAssignement.registration

theorem badgeExtent_mem : badgeExtent D ∈ layout D storerRegistrations := List.mem_cons_self

theorem badgeExtent_pid : (badgeExtent D).pid = 0x4000 :=
  show partitionIdOf 0 false true = 0x4000 by decide

theorem badgeExtent_static : isDynamic (badgeExtent D).pid = false := by
  rw [badgeExtent_pid]
  decide

theorem badgeExtent_elementLen : (badgeExtent D).elementLen = 3 :=
  show badgeAssignement.registration.elementLen = 3 by decide

/-! ## What is stored -/

/-- The partitions are registered, `assigned` is stored, and no iterator is in the way. -/
structure Settled (s : StorerState D) (assigned : Option BadgeAssignement) : Prop where
  pid_eq : s.partitionIds.badgeAssignement = (badgeExtent D).pid
  intact : Intact storerRegistrations s.fs
  newest : Newest D s.fs.bytes (badgeExtent D) (s.fs.part (badgeExtent D).pid)
    (assigned.map BadgeAssignement.bytes)
  noIterator : (s.fs.iter (badgeExtent D).pid).iteratorValid ≠ iteratorValidNumber

section Operations

variable {s : StorerState D} {assigned : Option BadgeAssignement}

/-- The iterator is gone, and nothing else has changed in the filesystem. -/
theorem Settled.of_lost (h : Settled s assigned) {t : StorerState D}
    (hids : t.partitionIds = s.partitionIds) {it : PartitionIterator}
    (hfs : t.fs = (s.fs.setIter (badgeExtent D).pid it).lost (badgeExtent D).pid) :
    Settled t assigned := by
  refine ⟨by rw [hids]; exact h.pid_eq, ?_, ?_, ?_⟩
  · rw [hfs]
    exact h.intact
  · rw [hfs]
    exact h.newest
  · rw [hfs, State.lost, setIter_iter]
    exact fun h0 => absurd h0 (by decide : (0 : Nat) ≠ iteratorValidNumber)

theorem Settled.read (h : Settled s assigned) :
    ∃ t, storerReadBadgeAssignement s =
        (match assigned with | none => .error .invalidState | some b => .ok b, t) ∧
      Settled t assigned ∧ t.fs.dev = s.fs.dev := by
  cases assigned with
  | none =>
    refine ⟨{ s with fs := (s.fs.lost (badgeExtent D).pid).lost (badgeExtent D).pid }, ?_,
      h.of_lost rfl rfl, rfl⟩
    rw [storerReadBadgeAssignement, Proc.get_bind_apply, h.pid_eq, Proc.attempt_bind_apply,
      onFilesystem_apply, h.newest.init_none]
    dsimp only
    rw [onFilesystem_apply, giveUp, Proc.bind_ok (iteratorInvalidate_apply _)]
    rfl
  | some b =>
    obtain ⟨it, recordId, hinit, hread⟩ := h.newest.init_some
    obtain ⟨u, hdecode, hdst⟩ := tbDecode_badgeAssignement b s.serializedBuf fun _ => 0
    refine ⟨{ s with
      fs := (s.fs.setIter (badgeExtent D).pid it).lost (badgeExtent D).pid
      serializedBuf := overwrite s.serializedBuf 0 b.bytes }, ?_, h.of_lost rfl rfl, rfl⟩
    rw [storerReadBadgeAssignement, Proc.get_bind_apply, h.pid_eq, Proc.attempt_bind_apply,
      onFilesystem_apply, hinit]
    dsimp only
    rw [Proc.attempt_bind_apply, onFilesystem_apply, hread]
    dsimp only
    rw [Proc.bind_ok (onFilesystem_eq_ok.mpr ⟨_, iteratorInvalidate_apply _, rfl⟩)]
    dsimp only
    rw [Proc.modify_bind_apply, Proc.get_bind_apply]
    change (match tbDecode .littleEndian .littleEndian badgeAssignementFields 0
        ⟨tbIstreamFromBuffer (overwrite s.serializedBuf 0 b.bytes) 3, fun _ => 0, [], []⟩ with
      | (.error _, _) => Proc.fail .invalidData
      | (.ok _, t) => pure (BadgeAssignement.ofMemory t.dst) : Stores D BadgeAssignement) _ = _
    rw [hdecode]
    dsimp only
    rw [hdst, BadgeAssignement.ofMemory_overwrite]
    rfl

variable (hreg : AllRegistrable D 0 (firstFree D) storerRegistrations)
include hreg

theorem badgeExtent_ok : (badgeExtent D).Ok D := layout_ok hreg badgeExtent_mem

theorem badgeExtent_single : (badgeExtent D).Single D := by
  refine extentOf_single hreg.1 (firstFree_ge D) rfl ?_
  rw [show (extentOf D 0 (firstFree D) badgeAssignement.registration).pid = 0x4000 from
    badgeExtent_pid]
  decide

/-- Behind the partition there is another one. -/
theorem badgeExtent_room :
    (badgeExtent D).start + (badgeExtent D).size + getElementHeaderLen (badgeExtent D).pid ≤
      D.size := by
  have hok := extentOf_ok hreg.2.1 (Nat.le_trans (firstFree_ge D) (Nat.le_add_right _ _))
  have hroom := hok.room
  have hstop := hok.stop_le
  have hH := elementHeaderLen_bounds (badgeExtent D).pid
  change (badgeExtent D).start + (badgeExtent D).size + _ ≤ D.size at hstop
  unfold metadataSize at hroom
  omega

theorem Settled.store (hD : D.Reliable) (hD' : D.AllOrNothing) (h : Settled s assigned)
    (b : BadgeAssignement) :
    ∃ t, storerStoreBadgeAssignement b s = (.ok (), t) ∧ Settled t (some b) := by
  obtain ⟨fs, hfs, hnewest, hlocal, hiter⟩ := h.newest.store_ok hD hD' (badgeExtent_ok hreg)
    (badgeExtent_single hreg) badgeExtent_static (badgeExtent_room hreg) h.noIterator
    (overwrite s.serializedBuf 0 b.bytes)
  have hintact : Intact storerRegistrations fs :=
    forall_of_local hreg Sound.frame h.intact badgeExtent_mem ⟨hnewest.sound, hlocal⟩
  have hdata : slice (overwrite s.serializedBuf 0 b.bytes) 0 (badgeExtent D).elementLen =
      b.bytes := by
    rw [badgeExtent_elementLen]
    exact slice_overwrite _ 0 b.bytes
  rw [hdata] at hnewest
  rw [badgeExtent_elementLen] at hfs
  refine ⟨{ s with serializedBuf := overwrite s.serializedBuf 0 b.bytes, fs := fs }, ?_,
    h.pid_eq, hintact, hnewest, hiter⟩
  rw [storerStoreBadgeAssignement, Proc.get_bind_apply, tbEncode_badgeAssignement, h.pid_eq,
    Proc.modify_bind_apply]
  exact onFilesystem_eq_ok.mpr ⟨fs, hfs, rfl⟩

theorem Settled.clear (hD : D.Reliable) (h : Settled s assigned) :
    ∃ t, storerClearBadgeAssignement s = (.ok (), t) ∧ Settled t none := by
  have hk := h.newest.sound.known
  obtain ⟨fs, hfs⟩ := clearPartition_ok_of_reliable hD hk.ram hk.sync
  obtain ⟨hnewest, hlocal⟩ := h.newest.clear hfs
  have hintact : Intact storerRegistrations fs :=
    forall_of_local hreg Sound.frame h.intact badgeExtent_mem ⟨hnewest.sound, hlocal⟩
  have hiter : fs.iter (badgeExtent D).pid = s.fs.iter (badgeExtent D).pid := by
    obtain ⟨_, b, v, -, -, -, rfl⟩ := clearPartition_eq_ok hk.ram hk.sync hfs
    rfl
  refine ⟨{ s with fs := fs }, ?_, h.pid_eq, hintact, hnewest, by rw [hiter]; exact h.noIterator⟩
  rw [storerClearBadgeAssignement, Proc.get_bind_apply, h.pid_eq]
  exact onFilesystem_eq_ok.mpr ⟨fs, hfs, rfl⟩

/-- A restart on the same storage. -/
theorem Settled.restart (hsize : swapPageSize ≤ D.size) (h : Settled s assigned)
    {s' : StorerState D} (hdev : s'.fs.dev = s.fs.dev)
    (hiter : (s'.fs.iter (badgeExtent D).pid).iteratorValid ≠ iteratorValidNumber) :
    ∃ t, storerInit s' = (.ok (), t) ∧ Settled t assigned := by
  obtain ⟨fs, hboot, hintact, hresumes, hbytes, hiters⟩ := h.intact.restart hsize hreg hdev
  obtain ⟨ids, hids⟩ := boot_storer hboot
  have hsound := hintact _ badgeExtent_mem
  rw [hbytes] at hsound
  rw [hids] at hboot
  refine ⟨_, storerInit_eq_ok.mpr ⟨ids, fs, hboot, rfl⟩, (List.cons.inj hids).1.symm, hintact, ?_, ?_⟩
  · dsimp only
    rw [hbytes]
    exact h.newest.resumes hsound (hresumes _ badgeExtent_mem)
  · change (fs.iter (badgeExtent D).pid).iteratorValid ≠ _
    unfold State.iter at hiter ⊢
    rw [hiters]
    exact hiter

end Operations

/-- The first start, on blank storage. -/
theorem settled_blank {s t : StorerState D} (hblank : Blank s.fs.bytes D.size)
    (hiter : (s.fs.iter (badgeExtent D).pid).iteratorValid ≠ iteratorValidNumber)
    (hinit : storerInit s = (.ok (), t)) :
    swapPageSize ≤ D.size ∧ AllRegistrable D 0 (firstFree D) storerRegistrations ∧
      Settled t none := by
  obtain ⟨ids, fs, hboot, rfl⟩ := storerInit_eq_ok.mp hinit
  obtain ⟨hsize, hreg, hids, hdev, hiters, hparts⟩ := boot_blank hblank hboot
  have hintact : Intact storerRegistrations fs :=
    intact_blank hreg (by unfold State.bytes; rw [hdev]; exact hblank) hparts
  obtain ⟨p, hp⟩ := hparts _ badgeExtent_mem
  refine ⟨hsize, hreg, (List.cons.inj hids).1, hintact, ?_, ?_⟩
  · exact .empty (hintact _ badgeExtent_mem) (by dsimp only; rw [hp]; rfl)
  · change (fs.iter (badgeExtent D).pid).iteratorValid ≠ _
    unfold State.iter at hiter ⊢
    rw [hiters]
    exact hiter

end OpenBadge.Storer
