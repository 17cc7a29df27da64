import OpenBadge.Lib.Bytes
import OpenBadge.Lib.Ring
import OpenBadge.Lib.Run
import OpenBadge.RetCode

/-!
# chunk_fifo_lib.c

A ring of `chunk_num + 1` slots in one byte buffer. The writer and the reader get
pointers into the buffer and work on the bytes behind them between their open and
close calls. Over the ring stands the queue the library is meant to be; every
interleaving of the calls refines it.
-/

namespace OpenBadge.ChunkFifo

open OpenBadge.Lib

/-- What `chunk_fifo_init` is given: at least one chunk, and a buffer of
`(chunk_num + 1) * (chunk_size + additional_info_size)` bytes in the memory of a
32-bit processor, so that no pointer into it wraps. -/
structure Config where
  chunkNum : UInt8
  chunkSize : Nat
  additionalInfoSize : Nat
  chunkNum_pos : 0 < chunkNum.toNat
  buf_le : (chunkNum.toNat + 1) * (chunkSize + additionalInfoSize) ≤ 2 ^ 32

def Config.slotSize (c : Config) : Nat := c.chunkSize + c.additionalInfoSize

/-- The number of slots. -/
def Config.slots (c : Config) : Nat := c.chunkNum.toNat + 1

/-- The positions and flags of `chunk_fifo_t`, the bytes of the buffer, and the
chunk pointers that the writer and the reader were given last. -/
structure State where
  buf : Nat → UInt8
  chunkReadPos : UInt8
  chunkWritePos : UInt8
  chunkOpenRead : Bool
  chunkOpenWrite : Bool
  writePtr : Nat
  readPtr : Nat

def init (buf : Nat → UInt8) : State :=
  { buf, chunkReadPos := 0, chunkWritePos := 0, chunkOpenRead := false, chunkOpenWrite := false,
    writePtr := 0, readPtr := 0 }

/-- `(pos + 1) % (chunk_num + 1)` as the code stores it, in eight bits. -/
def nextPos (c : Config) (pos : UInt8) : UInt8 :=
  UInt8.ofNat ((pos.toNat + 1) % (c.chunkNum.toNat + 1))

/-- The offset of a slot in the buffer. -/
def slotPtr (c : Config) (pos : UInt8) : Nat :=
  pos.toNat * (c.chunkSize + c.additionalInfoSize)

/-- `chunk_fifo_read_open`; the additional info stands behind the chunk. -/
def readOpen (c : Config) (s : State) : Except RetCode Unit × State :=
  if s.chunkReadPos ≠ s.chunkWritePos then
    (.ok (), { s with readPtr := slotPtr c s.chunkReadPos, chunkOpenRead := true })
  else (.error .notFound, s)

def readClose (c : Config) (s : State) : State :=
  if s.chunkOpenRead = false then s
  else
    let s := { s with chunkOpenRead := false }
    if s.chunkReadPos = s.chunkWritePos then s
    else { s with chunkReadPos := nextPos c s.chunkReadPos }

def writeOpen (c : Config) (s : State) : State :=
  { s with chunkOpenWrite := true, writePtr := slotPtr c s.chunkWritePos }

def writeClose (c : Config) (s : State) : State :=
  if s.chunkOpenWrite = false then s
  else
    let s := { s with chunkOpenWrite := false }
    if nextPos c s.chunkWritePos = s.chunkReadPos then s
    else { s with chunkWritePos := nextPos c s.chunkWritePos }

def getNumberOfChunks (c : Config) (s : State) : UInt8 :=
  if s.chunkReadPos ≤ s.chunkWritePos then s.chunkWritePos - s.chunkReadPos
  else UInt8.ofNat ((c.chunkNum.toNat + 1) - (s.chunkReadPos.toNat - s.chunkWritePos.toNat))

/-- The slot behind a pointer: the chunk and its additional info. -/
def chunkAt (c : Config) (s : State) (ptr : Nat) : List UInt8 := slice s.buf ptr c.slotSize

/-- The calls of the writer and the reader, and their work on the open chunks: the
writer writes bytes into its chunk, the reader looks at its own. -/
inductive Action where
  | writeOpen
  | write (offset : Nat) (data : List UInt8)
  | writeClose
  | readOpen
  | look
  | readClose

inductive Reply where
  | done
  | notFound
  | chunk (bytes : List UInt8)
  deriving DecidableEq, Repr

/-- The writer stays inside its chunk. -/
def write (c : Config) (s : State) (offset : Nat) (data : List UInt8) : State :=
  if s.chunkOpenWrite ∧ offset + data.length ≤ c.slotSize then
    { s with buf := overwrite s.buf (s.writePtr + offset) data }
  else s

def step (c : Config) (s : State) : Action → State
  | .writeOpen => writeOpen c s
  | .write offset data => write c s offset data
  | .writeClose => writeClose c s
  | .readOpen => (readOpen c s).2
  | .look => s
  | .readClose => readClose c s

/-- What the caller sees: the reader sees the bytes behind the pointer it holds. -/
def reply (c : Config) (s : State) : Action → Reply
  | .readOpen =>
    match (readOpen c s).1 with
    | .ok _ => .chunk (chunkAt c (readOpen c s).2 (readOpen c s).2.readPtr)
    | .error _ => .notFound
  | .look => if s.chunkOpenRead then .chunk (chunkAt c s s.readPtr) else .done
  | _ => .done

/-- The actions of a run with what they answered. -/
def trace (c : Config) (s : State) : List Action → List (Action × Reply)
  | [] => []
  | a :: as => (a, reply c s a) :: trace c (step c s a) as

/-! ## The queue -/

/-- The closed chunks that were not yet read, oldest first; the chunk the writer
works on; and whether the oldest chunk is open for reading. -/
structure Queue where
  chunks : List (List UInt8)
  draft : Option (List UInt8)
  reading : Bool

def Queue.empty : Queue := ⟨[], none, false⟩

/-- Bytes `data` written over `draft` from `offset` on. -/
def patch (draft : List UInt8) (offset : Nat) (data : List UInt8) : List UInt8 :=
  draft.take offset ++ data ++ draft.drop (offset + data.length)

/-- A queue of at most `capacity` chunks of `size` bytes. A chunk that is opened for
writing anew starts with the bytes `found`. -/
def Queue.step (capacity size : Nat) (found : List UInt8) (q : Queue) : Action → Queue × Reply
  | .writeOpen => ({ q with draft := some (q.draft.getD found) }, .done)
  | .write offset data =>
    ({ q with draft := q.draft.map fun draft =>
        if offset + data.length ≤ size then patch draft offset data else draft }, .done)
  | .writeClose =>
    match q.draft with
    | some draft =>
      ({ q with
        chunks := if q.chunks.length < capacity then q.chunks ++ [draft] else q.chunks
        draft := none }, .done)
    | none => (q, .done)
  | .readOpen =>
    match q.chunks with
    | oldest :: _ => ({ q with reading := true }, .chunk oldest)
    | [] => (q, .notFound)
  | .look =>
    match q.reading, q.chunks with
    | true, oldest :: _ => (q, .chunk oldest)
    | _, _ => (q, .done)
  | .readClose =>
    if q.reading then ({ q with chunks := q.chunks.tail, reading := false }, .done) else (q, .done)

/-- A run of the queue with its actions and answers. -/
inductive Queue.Runs (capacity size : Nat) : Queue → List (Action × Reply) → Queue → Prop
  | nil (q : Queue) : Runs capacity size q [] q
  | cons {q q' : Queue} {a : Action} {r : Reply} {tr : List (Action × Reply)} (found : List UInt8)
    (hfound : found.length = size) (hreply : (q.step capacity size found a).2 = r)
    (h : Runs capacity size (q.step capacity size found a).1 tr q') :
    Runs capacity size q ((a, r) :: tr) q'

end OpenBadge.ChunkFifo
