import OpenBadge.Filesystem.Isolation
import OpenBadge.Filesystem.Refused
import OpenBadge.Storer.Messages

/-!
# storer_lib.c: the partitions

The partitions that the storer registers, and what it stores in them. A static partition
is registered for elements of the greatest length of its messages, and keeps that length
whatever calls follow.
-/

namespace OpenBadge.Storer

open OpenBadge.Lib OpenBadge.Storage OpenBadge.Filesystem OpenBadge.Tinybuf

variable {D : Device} {s t : State D}

/-- The messages of a partition, and how many of them it has to hold. -/
structure Contents where
  fields : Fields
  number : Nat
  dynamic : Bool
  crc : Bool

/-- The arguments of the registration; the length is cut to a `uint16_t`. -/
def Contents.registration (c : Contents) : Registration :=
  let len := tbGetMaxEncodedLen c.fields
  { requiredSize := metadataSize + c.number * (len + recordIdSize +
      (if c.dynamic then previousLenXorCurLenSize else 0) + if c.crc then elementCrcSize else 0)
    dynamic := c.dynamic
    crc := c.crc
    elementLen := if c.dynamic then 0 else len % 2 ^ 16
    elementLen_lt := by split <;> omega }

def badgeAssignement : Contents := ⟨badgeAssignementFields, 1, false, true⟩

def batteryChunks : Contents := ⟨batteryChunkFields, 100, false, false⟩

def microphoneChunks : Contents := ⟨microphoneChunkFields, 1340, false, true⟩

def scanChunks : Contents := ⟨scanChunkFields, 960, true, true⟩

def accelerometerInterruptChunks : Contents := ⟨accelerometerInterruptChunkFields, 50, false, true⟩

def accelerometerChunks : Contents := ⟨accelerometerChunkFields, 50, false, true⟩

/-- The static variables `partition_id_…`. -/
structure PartitionIds where
  badgeAssignement : Nat
  batteryChunks : Nat
  microphoneChunks : Nat
  scanChunks : Nat
  accelerometerInterruptChunks : Nat
  accelerometerChunks : Nat
  deriving DecidableEq

def storerRegisterPartitions : Fs D PartitionIds := do
  let badgeAssignement ← registerPartition badgeAssignement.registration
  let batteryChunks ← registerPartition batteryChunks.registration
  let microphoneChunks ← registerPartition microphoneChunks.registration
  let scanChunks ← registerPartition scanChunks.registration
  let accelerometerInterruptChunks ← registerPartition accelerometerInterruptChunks.registration
  let accelerometerChunks ← registerPartition accelerometerChunks.registration
  pure ⟨badgeAssignement, batteryChunks, microphoneChunks, scanChunks,
    accelerometerInterruptChunks, accelerometerChunks⟩

def storerSerializedBufferSize : Nat := 512

/-- `store_chunk`; `serializedBuf` is what `serialized_buf` held before. -/
def storeChunk (serializedBuf : Memory) (pid : Nat) (messageFields : Fields) (message : Memory)
    (base : Nat) : Fs D Unit :=
  match tbEncode .littleEndian .littleEndian message messageFields base
      (tbOstreamFromBuffer serializedBuf storerSerializedBufferSize) with
  | (.ok _, ostream) => storeElement pid ostream.buf (ostream.bytesWritten % 2 ^ 16)
  | (.error _, _) => Proc.fail .invalidData

/-! ## The length of the elements -/

/-- `pid` designates a static partition with elements of `elementLen` bytes. -/
def Static (s : State D) (pid elementLen : Nat) : Prop :=
  isDynamic pid = false ∧
    ∃ i < s.numberOfPartitions, (s.extent i).pid = pid ∧ (s.extent i).elementLen = elementLen

theorem Static.mono {pid elementLen : Nat} {c : Option Nat} (h : Static s pid elementLen)
    (hiso : Isolates c s t) (hle : s.numberOfPartitions ≤ t.numberOfPartitions) :
    Static t pid elementLen := by
  obtain ⟨hstatic, i, hi, hpid, hlen⟩ := h
  refine ⟨hstatic, i, Nat.lt_of_lt_of_le hi hle, ?_, ?_⟩
  · rw [hiso.extent_eq i hi, hpid]
  · rw [hiso.extent_eq i hi, hlen]

/-- A registration leaves the other partitions, and adds one with the length it was given. -/
theorem registerPartition_static (hD : D.FailsWithin) (h : Placed s) {r : Registration} {pid : Nat}
    (hr : registerPartition r s = (.ok pid, t)) :
    Placed t ∧ (∀ pid' n, Static s pid' n → Static t pid' n) ∧
      (r.dynamic = false → Static t pid r.elementLen) := by
  obtain ⟨hnumber, hextent, hpid⟩ := registerPartition_eq_ok hD h hr
  obtain ⟨hplaced, hiso, -⟩ := registerPartition_isolates hD h r
  rw [hr] at hplaced hiso
  refine ⟨hplaced, fun pid' n hs => hs.mono hiso (by rw [hnumber]; exact Nat.le_succ _), ?_⟩
  intro hstatic
  have hindex := (registrable_of_ok hr).index_lt
  refine ⟨?_, s.numberOfPartitions, by omega, ?_, ?_⟩
  · rw [hpid, isDynamic_partitionIdOf hindex, hstatic]
  · rw [hextent, hpid]
    rfl
  · rw [hextent, extentOf, hstatic]
    rfl

/-- The two partitions whose chunks collect samples, after the registration. -/
theorem storerRegisterPartitions_static (hD : D.FailsWithin) (h : Placed s) {ids : PartitionIds}
    (hr : storerRegisterPartitions s = (.ok ids, t)) :
    Placed t ∧ Static t ids.microphoneChunks microphoneChunks.registration.elementLen ∧
      Static t ids.accelerometerChunks accelerometerChunks.registration.elementLen := by
  obtain ⟨_, s₁, h₁, hr⟩ := Proc.bind_eq_ok.mp hr
  obtain ⟨_, s₂, h₂, hr⟩ := Proc.bind_eq_ok.mp hr
  obtain ⟨_, s₃, h₃, hr⟩ := Proc.bind_eq_ok.mp hr
  obtain ⟨_, s₄, h₄, hr⟩ := Proc.bind_eq_ok.mp hr
  obtain ⟨_, s₅, h₅, hr⟩ := Proc.bind_eq_ok.mp hr
  obtain ⟨_, s₆, h₆, hr⟩ := Proc.bind_eq_ok.mp hr
  cases hr
  obtain ⟨hp₁, -, -⟩ := registerPartition_static hD h h₁
  obtain ⟨hp₂, -, -⟩ := registerPartition_static hD hp₁ h₂
  obtain ⟨hp₃, -, hmicrophone⟩ := registerPartition_static hD hp₂ h₃
  obtain ⟨hp₄, hkept₄, -⟩ := registerPartition_static hD hp₃ h₄
  obtain ⟨hp₅, hkept₅, -⟩ := registerPartition_static hD hp₄ h₅
  obtain ⟨hp₆, hkept₆, haccelerometer⟩ := registerPartition_static hD hp₅ h₆
  exact ⟨hp₆, hkept₆ _ _ (hkept₅ _ _ (hkept₄ _ _ (hmicrophone rfl))), haccelerometer rfl⟩

theorem callStep_number (hD : D.FailsWithin) (h : Placed s) {c : Call} (hc : OnRegistered s c) :
    s.numberOfPartitions ≤ (callStep s c).numberOfPartitions := by
  rcases hpid : c.pid with _ | pid
  · cases c with
    | registerPartition r =>
      obtain ⟨-, -, hfailed⟩ := registerPartition_isolates hD h r
      rcases hr : registerPartition r s with ⟨code | pid, u⟩
      · rw [hr] at hfailed
        rw [callStep, execCall, Proc.bind_error hr]
        exact Nat.le_of_eq (hfailed code rfl).1.symm
      · rw [callStep, execCall, Proc.bind_ok hr]
        exact Nat.le_of_lt (Nat.lt_of_lt_of_eq (Nat.lt_succ_self _)
          (registerPartition_eq_ok hD h hr).1.symm)
    | _ => cases hpid
  · obtain ⟨i, hi, rfl⟩ := hc pid hpid
    have hconf := execCall_confined hD (h.ok i hi) hpid s (Confined.refl (h.at_part hi))
    exact Nat.le_of_eq hconf.number_eq.symm

/-- Whatever the calls, a static partition keeps the length of its elements. -/
theorem Static.run (hD : D.FailsWithin) {pid n : Nat} (h : Placed s) (hs : Static s pid n)
    {calls : List Call} (hcalls : Along callStep OnRegistered s calls) :
    Placed (run callStep s calls) ∧ Static (run callStep s calls) pid n :=
  run_invariant (I := fun s => Placed s ∧ Static s pid n) (C := OnRegistered)
    (fun _ _ hs hc => by
      obtain ⟨hplaced, hiso⟩ := callStep_isolates hD hs.1 hc
      exact ⟨hplaced, hs.2.mono hiso (callStep_number hD hs.1 hc)⟩) ⟨h, hs⟩ hcalls

/-- A store of that length is not refused for its length. -/
theorem Static.storeElement_accepts {pid n : Nat} (hs : Static s pid n) (h : Placed s)
    (elementData : Nat → UInt8) :
    (storeElement pid elementData n s).1 ≠ .error .invalidParam := by
  obtain ⟨hstatic, i, hi, rfl, rfl⟩ := hs
  rw [Ne, storeElement_invalidParam_iff, (h.at_part hi).len_eq hstatic]
  exact fun hne => hne.2.2 rfl

/-- A full chunk is encoded and handed to the filesystem with the length of its partition. -/
theorem storeChunk_full {fields : Fields} {size : Nat} (hwf : WellFormed fields size)
    (he : fields.Emitted) (hlen : tbGetMaxEncodedLen fields ≤ storerSerializedBufferSize)
    {message : Memory} {base : Nat} (hfull : fields.Full .littleEndian message base)
    (serializedBuf : Memory) (pid : Nat) :
    ∃ buf, storeChunk (D := D) serializedBuf pid fields message base =
      storeElement pid buf (tbGetMaxEncodedLen fields) := by
  obtain ⟨o, ho, hwritten⟩ := tbEncode_full hwf he .littleEndian hfull
    ⟨serializedBuf, storerSerializedBufferSize, by decide⟩ hlen
  refine ⟨o.buf, ?_⟩
  have hlt : o.bytesWritten < 2 ^ 16 := by
    rw [hwritten]
    exact Nat.lt_of_le_of_lt hlen (by decide)
  rw [storeChunk, ho]
  dsimp only
  rw [Nat.mod_eq_of_lt hlt, hwritten]

end OpenBadge.Storer
