import OpenBadge.Filesystem.Model
import OpenBadge.Processing.Model

/-!
# storer_lib.c: searching for a chunk

`find_chunk_from_timestamp` steps the iterator of a partition back until it meets a chunk
that is older than the timestamp, and `get_next_chunk` steps it forward again. What the decoder
makes of the bytes of an element is a parameter: the timestamp of the chunk, or the chunk, or
that they do not decode.
-/

namespace OpenBadge.Storer

open OpenBadge.Lib OpenBadge.Storage OpenBadge.Filesystem
open Processing (Timestamp)

variable {D : Device}

/-- `storer_compare_timestamps`. -/
def compareTimestamps (timestamp1 timestamp2 : Timestamp) : Int :=
  let t1 := timestamp1.seconds.toNat * 1000 + timestamp1.ms.toNat
  let t2 := timestamp2.seconds.toNat * 1000 + timestamp2.ms.toNat
  if t1 > t2 then -1 else if t2 > t1 then 1 else 0

/-- Invalidate the iterator and return the error. -/
def giveUp {α : Type} (pid : Nat) (e : RetCode) : Fs D α := do
  iteratorInvalidate pid
  Proc.fail e

/-- The element was read, decodes and is older than the timestamp. -/
def isOlder (decode : List UInt8 → Option Timestamp) (timestamp : Timestamp) :
    Except RetCode (List UInt8 × Nat) → Bool
  | .ok (data, _) => (decode data).any fun t => compareTimestamps t timestamp = 1
  | .error _ => false

/-- The `while(1)` loop of `find_chunk_from_timestamp`, with `*found_timestamp`; without
enough fuel, nothing. -/
def findChunkLoop (pid : Nat) (decode : List UInt8 → Option Timestamp) (timestamp : Timestamp) :
    Nat → Fs D (Option Bool)
  | 0 => pure none
  | fuel + 1 => do
    let read ← Proc.attempt (iteratorReadElement pid)
    match read with
    | .error .invalidData | .ok _ =>
      if isOlder decode timestamp read then do
        let ret ← Proc.attempt (iteratorNext pid)
        match ret with
        | .ok _ => pure (some true)
        | .error .notFound => pure (some false)
        | .error e => giveUp pid e
      else do
        let ret ← Proc.attempt (iteratorPrevious pid)
        match ret with
        | .ok _ => findChunkLoop pid decode timestamp fuel
        | .error .notFound => pure (some true)
        | .error e => giveUp pid e
    | .error e => giveUp pid e

/-- `find_chunk_from_timestamp`. -/
def findChunkFromTimestamp (pid : Nat) (decode : List UInt8 → Option Timestamp)
    (timestamp : Timestamp) (fuel : Nat) : Fs D (Option Bool) := do
  let ret ← Proc.attempt (iteratorInit pid)
  match ret with
  | .error e => giveUp pid e
  | .ok _ => findChunkLoop pid decode timestamp fuel

/-- The loop of `get_next_chunk`; the flag is `*found_timestamp`, which is 0 after each turn.
Without enough fuel, nothing. -/
def getNextChunk {α : Type} (pid : Nat) (decode : List UInt8 → Option α) :
    Bool → Nat → Fs D (Option α)
  | _, 0 => pure none
  | found, fuel + 1 => do
    let ret ← if found then pure (.ok ()) else Proc.attempt (iteratorNext pid)
    match ret with
    | .error e => giveUp pid e
    | .ok _ => do
      let read ← Proc.attempt (iteratorReadElement pid)
      match read with
      | .ok (data, _) =>
        match decode data with
        | some x => pure (some x)
        | none => getNextChunk pid decode false fuel
      | .error .invalidData => getNextChunk pid decode false fuel
      | .error e => giveUp pid e

end OpenBadge.Storer
