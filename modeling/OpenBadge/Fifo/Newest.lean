import OpenBadge.Fifo.CircularFifo
import OpenBadge.Lib.Run

/-!
# The circular FIFO keeps the newest bytes

Without concurrency `read_flag` is clear between any two calls, and the FIFO is a
queue of at most `buf_size` bytes that drops its oldest byte to make room.
-/

namespace OpenBadge.CircularFifo

open OpenBadge.Lib

/-- The loop of `circular_fifo_read`. -/
def fetch (bufSize : Nat) : Nat → Fifo → List UInt8 × Fifo
  | 0, f => ([], f)
  | n + 1, f =>
    match get bufSize f with
    | (.error _, g) => ([], g)
    | (.ok byte, g) => (byte :: (fetch bufSize n g).1, (fetch bufSize n g).2)

def read (bufSize : Nat) (size : Nat) (f : Fifo) : List UInt8 × Fifo :=
  let r := fetch bufSize size { f with readFlag := true }
  (r.1, { r.2 with readFlag := false })

def flush (f : Fifo) : Fifo := { f with readPos := f.writePos }

inductive Call where
  | put (byte : UInt8)
  | write (bytes : List UInt8)
  | get
  | read (size : Nat)
  | flush
  | getSize
  deriving DecidableEq, Repr

inductive Answer where
  | none
  | byte (byte : UInt8)
  | notFound
  | bytes (bytes : List UInt8)
  | size (size : Nat)
  deriving DecidableEq, Repr

def serve (bufSize : Nat) (f : Fifo) : Call → Answer × Fifo
  | .put byte => (.none, put bufSize f byte)
  | .write bytes => (.none, write bufSize f bytes)
  | .get =>
    match get bufSize f with
    | (.ok byte, g) => (.byte byte, g)
    | (.error _, g) => (.notFound, g)
  | .read size => (.bytes (read bufSize size f).1, (read bufSize size f).2)
  | .flush => (.none, flush f)
  | .getSize => (.size (getSize bufSize f), f)

/-! ## The queue -/

namespace Newest

/-- A byte goes behind the queue; in a full queue the oldest one makes room. -/
def push (bufSize : Nat) (queue : List UInt8) (byte : UInt8) : List UInt8 :=
  if queue.length = bufSize then queue.tail ++ [byte] else queue ++ [byte]

def serve (bufSize : Nat) (queue : List UInt8) : Call → Answer × List UInt8
  | .put byte => (.none, push bufSize queue byte)
  | .write bytes => (.none, bytes.foldl (push bufSize) queue)
  | .get =>
    match queue with
    | [] => (.notFound, [])
    | byte :: rest => (.byte byte, rest)
  | .read size => (.bytes (queue.take (min size queue.length)), queue.drop (min size queue.length))
  | .flush => (.none, [])
  | .getSize => (.size queue.length, queue)

end Newest

/-- The FIFO holds the bytes of the queue, and no read is in progress. -/
structure Represents (bufSize : Nat) (f : Fifo) (queue : List UInt8) : Prop where
  valid : Valid bufSize f
  idle : f.readFlag = false
  contents_eq : contents bufSize f = queue

variable {bufSize : Nat} {f : Fifo} {queue : List UInt8}

theorem represents_init (bufSize : Nat) (buf : Nat → UInt8) : Represents bufSize (init buf) [] where
  valid := ⟨Nat.succ_pos _, Nat.succ_pos _⟩
  idle := rfl
  contents_eq := rfl

theorem Represents.length_le (h : Represents bufSize f queue) : queue.length ≤ bufSize :=
  h.contents_eq ▸ contents_length_le h.valid

/-- A FIFO with room for a byte drops its oldest byte for a new one only if it is full. -/
theorem putList_eq_push (hpos : 0 < bufSize) (hle : queue.length ≤ bufSize) (byte : UInt8) :
    putList bufSize false queue byte = Newest.push bufSize queue byte := by
  unfold putList Newest.push
  by_cases hfull : queue.length = bufSize
  · obtain ⟨b, rest, rfl⟩ := List.exists_cons_of_length_pos (l := queue) (by omega)
    rw [if_neg (by omega), if_neg (by decide), if_pos hfull]
    rfl
  · rw [if_pos (by omega), if_neg hfull]

theorem Represents.put (hpos : 0 < bufSize) (h : Represents bufSize f queue) (byte : UInt8) :
    Represents bufSize (put bufSize f byte) (Newest.push bufSize queue byte) := by
  obtain ⟨hput, hvalid, hflag⟩ := put_spec h.valid byte
  refine ⟨hvalid, hflag.trans h.idle, ?_⟩
  rw [hput, h.idle, h.contents_eq, putList_eq_push hpos h.length_le]

theorem Represents.write (hpos : 0 < bufSize) (h : Represents bufSize f queue)
    (bytes : List UInt8) :
    Represents bufSize (write bufSize f bytes) (bytes.foldl (Newest.push bufSize) queue) := by
  induction bytes generalizing f queue with
  | nil => exact h
  | cons byte bytes ih => exact ih (h.put hpos byte)

/-- The loop takes bytes from the front until it has enough of them or none is left. -/
theorem fetch_spec (h : Valid bufSize f) (size : Nat) :
    (fetch bufSize size f).1 = (contents bufSize f).take size ∧
      contents bufSize (fetch bufSize size f).2 = (contents bufSize f).drop size ∧
      Valid bufSize (fetch bufSize size f).2 := by
  induction size generalizing f with
  | zero => exact ⟨(List.take_zero).symm, rfl, h⟩
  | succ size ih =>
    obtain ⟨hnil, hget⟩ | ⟨byte, rest, g, hcons, hget, hg, hvalid, -⟩ := get_spec h
    · have hfetch : fetch bufSize (size + 1) f = ([], f) := by rw [fetch, hget]
      rw [hfetch, hnil]
      exact ⟨rfl, rfl, h⟩
    · obtain ⟨hbytes, hleft, hvalid'⟩ := ih hvalid
      rw [fetch, hget, hcons]
      dsimp only
      rw [hbytes, hleft, hg]
      exact ⟨rfl, rfl, hvalid'⟩

theorem Represents.read (h : Represents bufSize f queue) (size : Nat) :
    (read bufSize size f).1 = queue.take size ∧
      Represents bufSize (read bufSize size f).2 (queue.drop size) := by
  have hvalid : Valid bufSize { f with readFlag := true } := ⟨h.valid.read_lt, h.valid.write_lt⟩
  obtain ⟨hbytes, hleft, hvalid'⟩ := fetch_spec hvalid size
  rw [show contents bufSize { f with readFlag := true } = queue from h.contents_eq] at hbytes hleft
  exact ⟨hbytes, ⟨hvalid'.read_lt, hvalid'.write_lt⟩, rfl, hleft⟩

theorem Represents.flush (h : Represents bufSize f queue) : Represents bufSize (flush f) [] := by
  refine ⟨⟨h.valid.write_lt, h.valid.write_lt⟩, h.idle, ?_⟩
  show ringList f.buf (bufSize + 1) f.writePos (ringLen (bufSize + 1) f.writePos f.writePos) = []
  rw [ringLen_self]
  rfl

/-- Every call answers as the queue does and leaves what the queue leaves. -/
theorem Represents.serve (hpos : 0 < bufSize) (h : Represents bufSize f queue) (call : Call) :
    (serve bufSize f call).1 = (Newest.serve bufSize queue call).1 ∧
      Represents bufSize (serve bufSize f call).2 (Newest.serve bufSize queue call).2 := by
  cases call with
  | put byte => exact ⟨rfl, h.put hpos byte⟩
  | write bytes => exact ⟨rfl, h.write hpos bytes⟩
  | get =>
    unfold CircularFifo.serve Newest.serve
    obtain ⟨hnil, hget⟩ | ⟨byte, rest, g, hcons, hget, hg, hvalid, hflag⟩ := get_spec h.valid
    · rw [hget, ← h.contents_eq, hnil]
      exact ⟨rfl, h.valid, h.idle, hnil⟩
    · rw [hget, ← h.contents_eq, hcons]
      exact ⟨rfl, hvalid, hflag.trans h.idle, hg⟩
  | read size =>
    obtain ⟨hbytes, hleft⟩ := h.read size
    unfold CircularFifo.serve Newest.serve
    dsimp only
    rw [hbytes, ← List.take_eq_take_min, ← List.drop_eq_drop_min]
    exact ⟨rfl, hleft⟩
  | flush => exact ⟨rfl, h.flush⟩
  | getSize =>
    unfold CircularFifo.serve Newest.serve
    dsimp only
    rw [getSize_eq h.valid, h.contents_eq]
    exact ⟨rfl, h⟩

/-- After any sequence of calls the FIFO has answered as the queue that keeps the newest
`buf_size` bytes, and holds its bytes. -/
theorem keeps_the_newest (hpos : 1 ≤ bufSize) (buf : Nat → UInt8) (calls : List Call) :
    (answers (serve bufSize) (init buf) calls).1 = (answers (Newest.serve bufSize) [] calls).1 ∧
      contents bufSize (answers (serve bufSize) (init buf) calls).2 =
        (answers (Newest.serve bufSize) [] calls).2 ∧
      (answers (Newest.serve bufSize) [] calls).2.length ≤ bufSize ∧
      (answers (serve bufSize) (init buf) calls).2.readPos < bufSize + 1 ∧
      (answers (serve bufSize) (init buf) calls).2.writePos < bufSize + 1 := by
  obtain ⟨hanswers, hlast⟩ := answers_refine (R := Represents bufSize)
    (fun f queue call h => h.serve hpos call) (represents_init bufSize buf) calls
  exact ⟨hanswers, hlast.contents_eq, hlast.length_le, hlast.valid.read_lt, hlast.valid.write_lt⟩

theorem keeps_the_newest_three :
    (answers (serve 2) (init fun _ => 0) [.write [1, 2, 3], .read 5]).1 =
      [.none, .bytes [2, 3]] :=
  (keeps_the_newest (by decide) (fun _ => 0) [.write [1, 2, 3], .read 5]).1

end OpenBadge.CircularFifo
