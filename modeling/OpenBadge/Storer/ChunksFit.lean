import OpenBadge.Sampling.OpenSamples
import OpenBadge.Storer.Partitions

/-!
# Committed chunks fit their partition

The microphone and the accelerometer collect samples in chunks. In every run the chunks
that can be read are full, so that each of them is encoded with the length that its
partition was registered with.
-/

namespace OpenBadge.Storer

open OpenBadge.Lib OpenBadge.Storage OpenBadge.Filesystem OpenBadge.Tinybuf OpenBadge.Sampling

variable {D : Device}

/-- The sources whose chunks collect samples. -/
inductive Collector where
  | accelerometer
  | microphone
  deriving DecidableEq

namespace Collector

def source : Collector → Source
  | .accelerometer => .accelerometer
  | .microphone => .microphone

/-- The offset of the number of samples in the chunk. -/
def count : Collector → Nat
  | .accelerometer => accelerometerCount
  | .microphone => microphoneCount

def fields : Collector → Fields
  | .accelerometer => accelerometerChunkFields
  | .microphone => microphoneChunkFields

def contents : Collector → Contents
  | .accelerometer => accelerometerChunks
  | .microphone => microphoneChunks

def pid (ids : PartitionIds) : Collector → Nat
  | .accelerometer => ids.accelerometerChunks
  | .microphone => ids.microphoneChunks

/-- `storer_store_accelerometer_chunk` and `storer_store_microphone_chunk`. -/
def store (serializedBuf : Memory) (ids : PartitionIds) (k : Collector) (message : Memory)
    (base : Nat) : Fs D Unit :=
  storeChunk serializedBuf (k.pid ids) k.fields message base

end Collector

/-- The chunk at `ptr` in the buffer of the FIFO is full, its encoding has the length of the
elements of its partition, and it is not refused for its length. -/
structure Fits (k : Collector) (buf : Memory) (ptr : Nat) : Prop where
  full : (buf (ptr + k.count)).toNat = k.source.dataSize
  encoded : ∀ serializedBuf, ∃ ostream,
    tbEncode .littleEndian .littleEndian buf k.fields ptr
      (tbOstreamFromBuffer serializedBuf storerSerializedBufferSize) = (.ok (), ostream) ∧
    ostream.bytesWritten = k.contents.registration.elementLen
  accepted : ∀ (D : Device) (u s t : State D) (ids : PartitionIds) (calls : List Filesystem.Call),
    D.FailsWithin → reset u = (.ok (), s) → storerRegisterPartitions s = (.ok ids, t) →
    Along callStep OnRegistered t calls → ∀ serializedBuf,
      Static (run callStep t calls) (k.pid ids) k.contents.registration.elementLen ∧
        (k.store serializedBuf ids buf ptr (run callStep t calls)).1 ≠ .error .invalidParam

theorem Collector.countOffset (k : Collector) : k.source.countOffset = some k.count := by
  cases k <;> rfl

theorem Collector.fields_full (k : Collector) {buf : Memory} {ptr : Nat}
    (h : (buf (ptr + k.count)).toNat = k.source.dataSize) :
    k.fields.Full .littleEndian buf ptr := by
  cases k with
  | accelerometer =>
    refine Fields.Full.required (by decide) (by decide) ?_
    exact full_repeatedMessage (by decide) h
  | microphone =>
    refine Fields.Full.required (by decide) (by decide) ?_
    refine Fields.Full.required (by decide) (by decide) ?_
    exact full_repeatedMessage (by decide) h

theorem Collector.fields_wellFormed (k : Collector) :
    WellFormed k.fields (chunkFifo k.source).chunkSize := by
  cases k with
  | accelerometer => exact accelerometerChunkFields_wellFormed
  | microphone => exact microphoneChunkFields_wellFormed

theorem Collector.fields_emitted (k : Collector) : k.fields.Emitted := by
  cases k <;> decide

theorem Collector.elementLen (k : Collector) :
    k.contents.registration.elementLen = tbGetMaxEncodedLen k.fields := by
  cases k <;> decide

theorem Collector.max_le (k : Collector) :
    tbGetMaxEncodedLen k.fields ≤ storerSerializedBufferSize := by
  cases k <;> decide

/-- What a full chunk leads to. -/
theorem Collector.fits (k : Collector) {buf : Memory} {ptr : Nat}
    (h : (buf (ptr + k.count)).toNat = k.source.dataSize) : Fits k buf ptr := by
  have hfull := k.fields_full h
  refine ⟨h, fun serializedBuf => ?_, ?_⟩
  · rw [k.elementLen]
    exact tbEncode_full k.fields_wellFormed k.fields_emitted .littleEndian hfull
      ⟨serializedBuf, storerSerializedBufferSize, by decide⟩ k.max_le
  · intro D u s t ids calls hD hreset hreg hcalls serializedBuf
    obtain ⟨hplaced, hmicrophone, haccelerometer⟩ :=
      storerRegisterPartitions_static hD (placed_of_reset hreset) hreg
    have hstatic : Static t (k.pid ids) k.contents.registration.elementLen := by
      cases k with
      | accelerometer => exact haccelerometer
      | microphone => exact hmicrophone
    obtain ⟨hplaced', hstatic'⟩ := Static.run hD hplaced hstatic hcalls
    obtain ⟨elementData, hstore⟩ := storeChunk_full k.fields_wellFormed k.fields_emitted k.max_le
      hfull serializedBuf (k.pid ids) (D := D)
    refine ⟨hstatic', ?_⟩
    rw [Collector.store, hstore, ← k.elementLen]
    exact hstatic'.storeElement_accepts hplaced' elementData

/-! ## Runs of the badge -/

section Runs

variable {flash : Nat → UInt8} {b : Badge}

/-- A sample goes into the array of the open chunk, whatever the callback. -/
theorem samples_inside (h : Sane b) (a : BadgeAction) :
    ∀ access ∈ accesses flash b a, access.1.ofSample → AccessOk access.1 access.2 := by
  intro access haccess hsample
  cases a with
  | callback c =>
    obtain ⟨busy, hbusy, hsound⟩ := h.sound
    obtain ⟨t, hguarantee⟩ := (abides_callback flash hbusy hsound c).visits access haccess
    exact hguarantee.1 (.inr hsample)
  | _ => cases haccess

/-- The chunks that can be read are full. -/
theorem unread_full (h : Sane b) (k : Collector) {ptr : Nat}
    (hptr : ptr ∈ ChunkFifo.unreadPtrs (chunkFifo k.source) (b.state.fifos k.source)) :
    ((b.state.fifos k.source).buf (ptr + k.count)).toNat = k.source.dataSize := by
  obtain ⟨busy, hbusy, hsound⟩ := h.sound
  have hfilling : ∃ C, Filling k.source C (b.state.lane k.source) := by
    by_cases hb : busy = some k.source
    · exact ⟨_, (hsound.busy _ hb).1⟩
    · exact ⟨_, hsound.filling _ (by cases k <;> decide) hb⟩
  obtain ⟨C, hfilling⟩ := hfilling
  obtain ⟨q, hq, hchunks, -⟩ := hfilling.queue
  have hcount := hchunks _ (hq.chunkAt_mem hptr) k.count k.countOffset
  have hlt : k.count < (chunkFifo k.source).slotSize := by cases k <;> decide
  rw [ChunkFifo.chunkAt, List.getD_eq_getElem?_getD, slice_getElem? _ hlt] at hcount
  exact hcount

end Runs

/-- In every run of the badge the samples stay inside the arrays of the chunks, and every
chunk that can be read fits its partition. -/
theorem committed_chunks_fit (flash : Nat → UInt8) (accel : Accel.State)
    (timerFaults : Nat → Bool) (ranOut : Nat → Source → Bool → Bool)
    (actions : List BadgeAction) (k : Collector) :
    Along (Badge.step flash)
        (fun b a => ∀ access ∈ accesses flash b a, access.1.ofSample → AccessOk access.1 access.2)
        (Badge.init accel timerFaults ranOut) actions ∧
      let fifo :=
        (run (Badge.step flash) (Badge.init accel timerFaults ranOut) actions).state.fifos k.source
      ∀ ptr ∈ ChunkFifo.unreadPtrs (chunkFifo k.source) fifo, Fits k fifo.buf ptr := by
  have hinit := sane_init accel timerFaults ranOut
  have hstep : ∀ b a, Sane b → True → Sane (Badge.step flash b a) := fun b a h _ => h.step a
  have halways : Along (Badge.step flash) (fun _ _ => True)
      (Badge.init accel timerFaults ranOut) actions :=
    Along.of_forall (fun _ _ => trivial) actions
  constructor
  · exact (halways.strengthen hstep hinit).mono fun b a h => samples_inside h.1 a
  · intro fifo ptr hptr
    exact k.fits (unread_full (run_invariant hstep hinit halways) k hptr)

/-- The sensor has 32 samples whenever it is asked. -/
def fourBursts : List BadgeAction :=
  .begin (.start (.accelerometer ⟨0, 1, 0, 10, 1000, false⟩)) :: List.replicate 17 .proceed ++
    .sense 31 (fun _ => 1) :: List.replicate 4 (.callback .accelerometerFifo)

/-- A storage with room for all partitions. -/
def largeStorage : Device :=
  fillDevice [⟨2 ^ 19, 1, Nat.one_pos, by decide⟩] (by decide) (fun _ b => b) fill_old

def largeStorageIds : PartitionIds := ⟨0x4000, 1, 0x4002, 0xC003, 0x4004, 0x4005⟩

def burstsBadge : Badge :=
  run (Badge.step fun _ => 0)
    (Badge.init (Accel.init resetAccel).2 (fun _ => false) fun _ _ _ => false) fourBursts

theorem committed_chunks_fit_four_bursts :
    let fifo := burstsBadge.state.fifos Collector.accelerometer.source
    let t := (storerRegisterPartitions (powerUp (D := largeStorage) blankBytes).restarted).2
    0 ∈ ChunkFifo.unreadPtrs (chunkFifo Collector.accelerometer.source) fifo ∧
      Static t largeStorageIds.accelerometerChunks accelerometerChunks.registration.elementLen ∧
      (Collector.store (fun _ => 0) largeStorageIds .accelerometer fifo.buf 0 t).1 ≠
        .error .invalidParam := by
  intro fifo t
  have hptr : 0 ∈ ChunkFifo.unreadPtrs (chunkFifo Collector.accelerometer.source)
      (burstsBadge.state.fifos Collector.accelerometer.source) := by decide +kernel
  have hfits : Fits .accelerometer
      (burstsBadge.state.fifos Collector.accelerometer.source).buf 0 := by
    rw [burstsBadge] at hptr ⊢
    exact (committed_chunks_fit (fun _ => 0) (Accel.init resetAccel).2 (fun _ => false)
      (fun _ _ _ => false) fourBursts .accelerometer).2 0 hptr
  have hreg : storerRegisterPartitions (powerUp (D := largeStorage) blankBytes).restarted =
      (.ok largeStorageIds, t) := Proc.eq_of_fst (by decide +kernel)
  exact ⟨hptr, hfits.accepted largeStorage _ _ t largeStorageIds [] (fillDevice_failsWithin _ _ _ _)
    (reset_eq (by decide)) hreg trivial fun _ => 0⟩

end OpenBadge.Storer
