import OpenBadge.Fifo.ChunkQueue
import OpenBadge.Sampling.Callbacks

/-!
# The chunks of one source

What the functions that fill chunks read and change of one source: its bit for sampling,
whether its timer runs, its chunk FIFO and its chunk pointer. The chunks that wait for
the reader are full, and the one that is open has room for a sample.
-/

namespace OpenBadge.Sampling

open OpenBadge.Lib

structure Lane where
  sampling : Bool
  running : Bool
  fifo : ChunkFifo.State
  chunk : Option Nat

/-- The timer whose callback fills the chunks. -/
def Source.timer : Source → Timer
  | .accelerometer => .accelerometerFifo
  | .accelerometerInterrupt => .accelerometerInterruptReset
  | .battery => .battery
  | .microphone => .microphone
  | .scan => .scan

def State.lane (s : State) (source : Source) : Lane :=
  ⟨s.configuration source false, (s.timers source.timer).isSome, s.fifos source, s.chunks source⟩

namespace Lane

def opened (source : Source) (v : Lane) : Lane :=
  { v with
    fifo := ChunkFifo.writeOpen (chunkFifo source) v.fifo
    chunk := some (ChunkFifo.slotPtr (chunkFifo source) v.fifo.chunkWritePos) }

def closed (source : Source) (v : Lane) : Lane :=
  { v with fifo := ChunkFifo.writeClose (chunkFifo source) v.fifo }

def write (offset : Nat) (data : List UInt8) (v : Lane) : Lane :=
  match v.chunk with
  | none => v
  | some ptr => { v with fifo := { v.fifo with buf := overwrite v.fifo.buf (ptr + offset) data } }

@[simp] theorem write_chunk (offset : Nat) (data : List UInt8) (v : Lane) :
    (v.write offset data).chunk = v.chunk := by
  rw [write]
  split <;> rfl

@[simp] theorem write_running (offset : Nat) (data : List UInt8) (v : Lane) :
    (v.write offset data).running = v.running := by
  rw [write]
  split <;> rfl

@[simp] theorem write_sampling (offset : Nat) (data : List UInt8) (v : Lane) :
    (v.write offset data).sampling = v.sampling := by
  rw [write]
  split <;> rfl

/-- The pointer designates the chunk that is open for writing. -/
def Open (source : Source) (v : Lane) : Prop :=
  v.fifo.chunkOpenWrite = true ∧
    v.chunk = some (ChunkFifo.slotPtr (chunkFifo source) v.fifo.chunkWritePos)

instance (source : Source) (v : Lane) : Decidable (v.Open source) :=
  inferInstanceAs (Decidable (_ ∧ _))

end Lane

@[simp] theorem littleEndian_length (len n : Nat) : (littleEndian len n).length = len := by
  induction len generalizing n with
  | zero => rfl
  | succ len ih => rw [littleEndian, List.length_cons, ih]

/-- The offset of the number of samples in the chunks that collect them. -/
def Source.countOffset : Source → Option Nat
  | .accelerometer => some accelerometerCount
  | .microphone => some microphoneCount
  | _ => none

/-- The number of samples in the bytes of a chunk has `C`. -/
def CountIs (source : Source) (C : Nat → Prop) (chunk : List UInt8) : Prop :=
  ∀ offset ∈ source.countOffset, C (chunk.getD offset 0).toNat

/-- The chunks of the source: those that wait are full, and the number of samples in the
open one has `C`. Only the interrupt leaves its chunk closed. -/
structure Filling (source : Source) (C : Nat → Prop) (v : Lane) : Prop where
  queue : ∃ q, ChunkFifo.Refines (chunkFifo source) v.fifo q ∧
    (∀ chunk ∈ q.chunks, CountIs source (· = source.dataSize) chunk) ∧
    ∀ draft ∈ q.draft, CountIs source C draft
  pointer : v.fifo.chunkOpenWrite = true →
    v.chunk = some (ChunkFifo.slotPtr (chunkFifo source) v.fifo.chunkWritePos)
  sampling : v.sampling = true → v.chunk ≠ none
  kept : source ≠ .accelerometerInterrupt → v.chunk ≠ none → v.fifo.chunkOpenWrite = true

section Filling

variable {source : Source} {C D : Nat → Prop} {v : Lane}

theorem CountIs.mono {chunk : List UInt8} (h : CountIs source C chunk) (hcd : ∀ n, C n → D n) :
    CountIs source D chunk := fun offset ho => hcd _ (h offset ho)

theorem Filling.mono (h : Filling source C v) (hcd : ∀ n, C n → D n) : Filling source D v := by
  obtain ⟨q, hq, hchunks, hdraft⟩ := h.queue
  exact ⟨⟨q, hq, hchunks, fun d hd => (hdraft d hd).mono hcd⟩, h.pointer, h.sampling, h.kept⟩

theorem Filling.of_uncounted (h : Filling source C v) (hcount : source.countOffset = none) :
    Filling source D v := by
  obtain ⟨q, hq, hchunks, -⟩ := h.queue
  refine ⟨⟨q, hq, hchunks, fun _ _ offset ho => ?_⟩, h.pointer, h.sampling, h.kept⟩
  rw [hcount] at ho
  cases ho

theorem Filling.open (h : Filling source C v) (hsource : source ≠ .accelerometerInterrupt)
    (hchunk : v.chunk ≠ none) : v.Open source :=
  ⟨h.kept hsource hchunk, h.pointer (h.kept hsource hchunk)⟩

/-- The bits of the source may be set when it has a chunk. -/
theorem Filling.bits (h : Filling source C v) {sampling running : Bool}
    (hs : sampling = true → v.chunk ≠ none) : Filling source C { v with sampling, running } :=
  ⟨h.queue, h.pointer, hs, h.kept⟩

theorem filling_init (accel : Accel.State) (timerFaults : Nat → Bool)
    (ranOut : Nat → Source → Bool → Bool) :
    Filling source C ((init accel timerFaults ranOut).lane source) :=
  ⟨⟨_, ChunkFifo.refines_init _ _, nofun, nofun⟩, nofun, nofun, fun _ h => absurd rfl h⟩

/-- Opening takes the slot at the write position, whose bytes are arbitrary. -/
theorem Filling.opened (h : Filling source C v) :
    Filling source (fun _ => True) (v.opened source) := by
  obtain ⟨q, hq, hchunks, -⟩ := h.queue
  exact ⟨⟨_, hq.writeOpen, hchunks, fun _ _ _ _ => trivial⟩, fun _ => rfl, fun _ => nofun,
    fun _ _ => rfl⟩

theorem Lane.open_opened (source : Source) (v : Lane) : (v.opened source).Open source := ⟨rfl, rfl⟩

/-- What is written behind the pointer of the open chunk is written to the draft. -/
theorem Lane.write_of_open (hopen : v.Open source) {offset : Nat} {data : List UInt8}
    {q : ChunkFifo.Queue} (hq : ChunkFifo.Refines (chunkFifo source) v.fifo q)
    (hfit : offset + data.length ≤ (chunkFifo source).slotSize) :
    v.write offset data =
      { v with fifo := ChunkFifo.write (chunkFifo source) v.fifo offset data } := by
  have hptr : v.chunk = some v.fifo.writePtr := by rw [hq.writePtr hopen.1, hopen.2]
  rw [Lane.write, hptr, ChunkFifo.write, if_pos ⟨hopen.1, hfit⟩]

/-- Writing behind the pointer of the open chunk changes its draft only. -/
theorem Filling.write_draft (h : Filling source C v) (hopen : v.Open source) {offset : Nat}
    {data : List UInt8} (hfit : offset + data.length ≤ (chunkFifo source).slotSize)
    (hcount : ∀ draft, draft.length = (chunkFifo source).slotSize → CountIs source C draft →
      CountIs source D (ChunkFifo.patch draft offset data)) :
    Filling source D (v.write offset data) := by
  obtain ⟨q, hq, hchunks, hdraft⟩ := h.queue
  have hsize : ∀ draft ∈ q.draft, draft.length = (chunkFifo source).slotSize := by
    intro draft hd
    rw [hq.draft, if_pos hopen.1] at hd
    cases hd
    exact slice_length _ _ _
  have hpos : (ChunkFifo.write (chunkFifo source) v.fifo offset data).chunkWritePos =
      v.fifo.chunkWritePos := by
    rw [ChunkFifo.write]
    split <;> rfl
  have hflag : (ChunkFifo.write (chunkFifo source) v.fifo offset data).chunkOpenWrite =
      v.fifo.chunkOpenWrite := by
    rw [ChunkFifo.write]
    split <;> rfl
  rw [Lane.write_of_open hopen hq hfit]
  refine ⟨⟨_, hq.write offset data, hchunks, ?_⟩, ?_, h.sampling, ?_⟩
  · intro draft hd
    obtain ⟨old, hold, rfl⟩ := Option.mem_map.mp hd
    rw [if_pos hfit]
    exact hcount old (hsize old hold) (hdraft old hold)
  · dsimp only
    rw [hflag, hpos]
    exact h.pointer
  · dsimp only
    rw [hflag]
    exact h.kept

theorem patch_getD_self {draft : List UInt8} {offset : Nat} (n : UInt8) (h : offset < draft.length) :
    (ChunkFifo.patch draft offset [n]).getD offset 0 = n := by
  rw [ChunkFifo.patch, List.append_assoc, List.getD_eq_getElem?_getD,
    List.getElem?_append_right (List.length_take_le ..), List.length_take,
    Nat.min_eq_left h.le, Nat.sub_self]
  rfl

theorem patch_getD_of_lt {draft data : List UInt8} {offset i : Nat} (h : i < offset)
    (hlen : offset ≤ draft.length) : (ChunkFifo.patch draft offset data).getD i 0 =
      draft.getD i 0 := by
  have htake : i < (draft.take offset).length := by
    rw [List.length_take]
    omega
  rw [ChunkFifo.patch, List.append_assoc, List.getD_eq_getElem?_getD,
    List.getElem?_append_left htake, List.getElem?_take_of_lt h, List.getD_eq_getElem?_getD]

theorem patch_getD_of_ge {draft data : List UInt8} {offset i : Nat} (h : offset + data.length ≤ i)
    (hlen : offset + data.length ≤ draft.length) :
    (ChunkFifo.patch draft offset data).getD i 0 = draft.getD i 0 := by
  have hfront : (draft.take offset ++ data).length = offset + data.length := by
    rw [List.length_append, List.length_take]
    omega
  rw [ChunkFifo.patch, List.getD_eq_getElem?_getD, List.getElem?_append_right (by omega),
    hfront, List.getElem?_drop, List.getD_eq_getElem?_getD]
  congr 2
  omega

/-- The number of samples is written to the open chunk. -/
theorem Filling.write_count (h : Filling source C v) (hopen : v.Open source) {offset : Nat}
    (hoffset : source.countOffset = some offset) {n : UInt8}
    (hfit : offset + 1 ≤ (chunkFifo source).slotSize) (hn : D n.toNat) :
    Filling source D (v.write offset [n]) := by
  refine h.write_draft hopen hfit fun draft hlen _ i hi => ?_
  rw [hoffset] at hi
  cases hi
  rw [patch_getD_self n (by omega)]
  exact hn

/-- Something else is written to the open chunk. -/
theorem Filling.write_other (h : Filling source C v) (hopen : v.Open source) {offset : Nat}
    {data : List UInt8} (hfit : offset + data.length ≤ (chunkFifo source).slotSize)
    (hother : ∀ i ∈ source.countOffset, i < offset ∨ offset + data.length ≤ i) :
    Filling source C (v.write offset data) := by
  refine h.write_draft hopen hfit fun draft hlen hcount i hi => ?_
  rcases hother i hi with hlt | hge
  · rw [patch_getD_of_lt hlt (by omega)]
    exact hcount i hi
  · rw [patch_getD_of_ge hge (by omega)]
    exact hcount i hi

/-- A chunk that is closed full and opened anew. -/
theorem Filling.reopened (h : Filling source (· = source.dataSize) v) :
    Filling source (fun _ => True) ((v.closed source).opened source) := by
  obtain ⟨q, hq, hchunks, hdraft⟩ := h.queue
  obtain ⟨q', hq', hchunks'⟩ : ∃ q', ChunkFifo.Refines (chunkFifo source) (v.closed source).fifo q' ∧
      ∀ chunk ∈ q'.chunks, CountIs source (· = source.dataSize) chunk := by
    refine ⟨_, hq.writeClose [], fun chunk hchunk => ?_⟩
    rw [ChunkFifo.Queue.step] at hchunk
    cases hd : q.draft with
    | none =>
      rw [hd] at hchunk
      exact hchunks chunk hchunk
    | some draft =>
      rw [hd] at hchunk
      dsimp only at hchunk
      split at hchunk
      · rcases List.mem_append.mp hchunk with hold | hnew
        · exact hchunks chunk hold
        · rw [List.mem_singleton.mp hnew]
          exact hdraft draft hd
      · exact hchunks chunk hchunk
  exact ⟨⟨_, hq'.writeOpen, hchunks', fun _ _ _ _ => trivial⟩, fun _ => rfl,
    fun _ => Option.some_ne_none _, fun _ _ => rfl⟩

theorem writeClose_chunkOpenWrite (c : ChunkFifo.Config) (s : ChunkFifo.State) :
    (ChunkFifo.writeClose c s).chunkOpenWrite = false := by
  rw [ChunkFifo.writeClose]
  split
  · next h => exact h
  · dsimp only
    split <;> rfl

/-- The queue is where the positions are, whatever the bytes. -/
theorem refines_rebuf {c : ChunkFifo.Config} {s : ChunkFifo.State} {q : ChunkFifo.Queue}
    (h : ChunkFifo.Refines c s q) (buf : Nat → UInt8) :
    ∃ q', ChunkFifo.Refines c { s with buf } q' :=
  ⟨⟨_, _, _⟩, h.read_lt, h.write_lt, rfl, rfl, rfl, h.writePtr, h.readPtr, h.unread⟩

/-- The interrupt works behind its pointer whether or not the chunk is open, and closes it. -/
theorem Filling.interrupted (h : Filling .accelerometerInterrupt C v) (offset : Nat)
    (data : List UInt8) : Filling .accelerometerInterrupt C
      ((v.write offset data).closed .accelerometerInterrupt) := by
  obtain ⟨q, hq, -, -⟩ := h.queue
  obtain ⟨buf, hbuf⟩ : ∃ buf, v.write offset data = { v with fifo := { v.fifo with buf } } := by
    rw [Lane.write]
    split
    · exact ⟨v.fifo.buf, rfl⟩
    · exact ⟨_, rfl⟩
  obtain ⟨q', hq'⟩ := refines_rebuf hq buf
  rw [hbuf]
  refine ⟨⟨_, hq'.writeClose [], fun _ _ => nofun, fun _ _ => nofun⟩, ?_, h.sampling, fun hne => ?_⟩
  · intro hopen
    rw [Lane.closed, writeClose_chunkOpenWrite] at hopen
    cases hopen
  · exact absurd rfl hne

/-- The reader takes nothing but the oldest chunk away. -/
theorem Filling.read (h : Filling source C v) {fifo : ChunkFifo.State}
    (hq : ∀ q, ChunkFifo.Refines (chunkFifo source) v.fifo q →
      ∃ q', ChunkFifo.Refines (chunkFifo source) fifo q' ∧ q'.chunks ⊆ q.chunks ∧
        q'.draft = q.draft)
    (hopen : fifo.chunkOpenWrite = v.fifo.chunkOpenWrite)
    (hpos : fifo.chunkWritePos = v.fifo.chunkWritePos) :
    Filling source C { v with fifo } := by
  obtain ⟨q, hq₀, hchunks, hdraft⟩ := h.queue
  obtain ⟨q', hq', hsub, hsame⟩ := hq q hq₀
  refine ⟨⟨q', hq', fun chunk hc => hchunks chunk (hsub hc), ?_⟩, ?_, h.sampling, ?_⟩
  · rw [hsame]
    exact hdraft
  · dsimp only
    rw [hopen, hpos]
    exact h.pointer
  · dsimp only
    rw [hopen]
    exact h.kept

theorem Filling.readOpen (h : Filling source C v) : Filling source C
    { v with fifo := (ChunkFifo.readOpen (chunkFifo source) v.fifo).2 } := by
  refine h.read (fun q hq => ⟨_, (hq.readOpen []).1, ?_, ?_⟩) ?_ ?_
  · rw [ChunkFifo.Queue.step]
    split
    · exact List.Subset.refl _
    · exact List.Subset.refl _
  · rw [ChunkFifo.Queue.step]
    split <;> rfl
  · rw [ChunkFifo.readOpen]
    split <;> rfl
  · rw [ChunkFifo.readOpen]
    split <;> rfl

theorem Filling.readClose (h : Filling source C v) : Filling source C
    { v with fifo := ChunkFifo.readClose (chunkFifo source) v.fifo } := by
  refine h.read (fun q hq => ⟨_, hq.readClose [], ?_, ?_⟩) ?_ ?_
  · rw [ChunkFifo.Queue.step]
    split
    · exact fun _ => List.mem_of_mem_tail
    · exact List.Subset.refl _
  · rw [ChunkFifo.Queue.step]
    split <;> rfl
  · exact (ChunkFifo.readClose_write _ _).1
  · rw [ChunkFifo.readClose]
    split
    · rfl
    · dsimp only
      split <;> rfl

end Filling

end OpenBadge.Sampling
