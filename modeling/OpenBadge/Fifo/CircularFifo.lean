import OpenBadge.Lib.Proc
import OpenBadge.Lib.Ring
import OpenBadge.RetCode

/-!
# circular_fifo_lib.c

A byte FIFO of `buf_size` bytes in a ring of `buf_size + 1`. A byte put into the
full FIFO takes the place of the oldest one, unless a read is in progress: then it
is dropped.
-/

namespace OpenBadge.CircularFifo

open OpenBadge.Lib

/-- The members of `circular_fifo_t` that change, with the bytes behind `p_buf`. -/
structure Fifo where
  buf : Nat → UInt8
  readPos : Nat
  writePos : Nat
  readFlag : Bool

def init (buf : Nat → UInt8) : Fifo := { buf, readPos := 0, writePos := 0, readFlag := false }

def get (bufSize : Nat) : Proc Fifo RetCode UInt8 := fun f =>
  if f.readPos ≠ f.writePos then
    (.ok (f.buf f.readPos), { f with readPos := (f.readPos + 1) % (bufSize + 1) })
  else (.error .notFound, f)

/-- The byte goes to the write position, which moves on. -/
def append (bufSize : Nat) (f : Fifo) (byte : UInt8) : Fifo :=
  { f with
    buf := Function.update f.buf f.writePos byte
    writePos := (f.writePos + 1) % (bufSize + 1) }

def put (bufSize : Nat) (f : Fifo) (byte : UInt8) : Fifo :=
  if (f.writePos + 1) % (bufSize + 1) = f.readPos then
    if f.readFlag then f
    else append bufSize { f with readPos := (f.readPos + 1) % (bufSize + 1) } byte
  else append bufSize f byte

def write (bufSize : Nat) (f : Fifo) (bytes : List UInt8) : Fifo := bytes.foldl (put bufSize) f

def getSize (bufSize : Nat) (f : Fifo) : Nat :=
  if f.readPos ≤ f.writePos then f.writePos - f.readPos
  else bufSize + 1 - f.readPos + f.writePos

/-- Positions of an initialised FIFO. -/
structure Valid (bufSize : Nat) (f : Fifo) : Prop where
  read_lt : f.readPos < bufSize + 1
  write_lt : f.writePos < bufSize + 1

/-- The bytes in the FIFO, oldest first. -/
def contents (bufSize : Nat) (f : Fifo) : List UInt8 :=
  ringList f.buf (bufSize + 1) f.readPos (ringLen (bufSize + 1) f.readPos f.writePos)

variable {bufSize : Nat} {f : Fifo}

theorem getSize_eq (h : Valid bufSize f) : getSize bufSize f = (contents bufSize f).length := by
  have hr := h.read_lt
  rw [contents, ringList_length, getSize, ringLen]
  split <;> omega

theorem contents_length_le (h : Valid bufSize f) : (contents bufSize f).length ≤ bufSize := by
  rw [contents, ringList_length]
  exact Nat.le_of_lt_succ (ringLen_lt h.read_lt h.write_lt)

/-- `get` takes the oldest byte. -/
theorem get_spec (h : Valid bufSize f) :
    (contents bufSize f = [] ∧ get bufSize f = (.error .notFound, f)) ∨
    ∃ byte rest g, contents bufSize f = byte :: rest ∧ get bufSize f = (.ok byte, g) ∧
      contents bufSize g = rest ∧ Valid bufSize g ∧ g.readFlag = f.readFlag := by
  unfold get
  by_cases hne : f.readPos ≠ f.writePos
  · rw [if_pos hne]
    refine Or.inr ⟨_, _, _, ?_, rfl, rfl, ⟨Nat.mod_lt _ (Nat.succ_pos _), h.write_lt⟩, rfl⟩
    rw [contents, ← ringLen_next_read h.read_lt h.write_lt hne, ringList_cons _ _ _ h.read_lt]
    rfl
  · rw [if_neg hne]
    refine Or.inl ⟨?_, rfl⟩
    rw [contents, not_not.mp hne, ringLen_self]
    rfl

/-- A byte behind the contents, where there is room. -/
theorem append_spec (h : Valid bufSize f) (hroom : (contents bufSize f).length < bufSize)
    (byte : UInt8) :
    contents bufSize (append bufSize f byte) = contents bufSize f ++ [byte] ∧
      Valid bufSize (append bufSize f byte) := by
  have hlen : ringLen (bufSize + 1) f.readPos f.writePos < bufSize := by
    rw [contents, ringList_length] at hroom
    exact hroom
  have hne : (f.writePos + 1) % (bufSize + 1) ≠ f.readPos := by
    rw [Ne, next_eq_read_iff h.read_lt h.write_lt]
    omega
  refine ⟨?_, ⟨h.read_lt, Nat.mod_lt _ (Nat.succ_pos _)⟩⟩
  unfold contents append
  dsimp only
  rw [ringLen_next_write h.read_lt h.write_lt hne, ringList_succ, add_ringLen h.read_lt h.write_lt,
    Function.update_self]
  congr 1
  apply ringList_of_free (by omega)
  intro p hp
  rw [add_ringLen h.read_lt h.write_lt] at hp
  exact Function.update_of_ne hp _ _

/-- What `put` does to the contents. -/
def putList (bufSize : Nat) (reading : Bool) (l : List UInt8) (byte : UInt8) : List UInt8 :=
  if l.length < bufSize then l ++ [byte] else if reading then l else (l ++ [byte]).tail

theorem put_spec (h : Valid bufSize f) (byte : UInt8) :
    contents bufSize (put bufSize f byte) =
        putList bufSize f.readFlag (contents bufSize f) byte ∧
      Valid bufSize (put bufSize f byte) ∧ (put bufSize f byte).readFlag = f.readFlag := by
  have hlen : (contents bufSize f).length = ringLen (bufSize + 1) f.readPos f.writePos :=
    ringList_length _ _ _ _
  have hle := contents_length_le h
  unfold put putList
  by_cases hfull : (f.writePos + 1) % (bufSize + 1) = f.readPos
  · rw [if_pos hfull]
    rw [next_eq_read_iff h.read_lt h.write_lt, ← hlen] at hfull
    rw [if_neg (show ¬ (contents bufSize f).length < bufSize by omega)]
    by_cases hflag : f.readFlag = true
    · rw [if_pos hflag, if_pos hflag]
      exact ⟨rfl, h, rfl⟩
    rw [if_neg hflag, if_neg hflag]
    rcases Nat.eq_zero_or_pos bufSize with hzero | hpos
    · subst hzero
      have hr : f.readPos = 0 := by have := h.read_lt; omega
      have hw : f.writePos = 0 := by have := h.write_lt; omega
      have hnil : contents 0 f = [] := List.eq_nil_of_length_eq_zero (by omega)
      refine ⟨?_, ⟨Nat.mod_lt _ Nat.one_pos, Nat.mod_lt _ Nat.one_pos⟩, rfl⟩
      rw [hnil]
      unfold contents append
      dsimp only
      rw [hr, hw]
      rfl
    · have hne : f.readPos ≠ f.writePos := by
        intro heq
        rw [hlen, heq, ringLen_self] at hfull
        omega
      have hvalid : Valid bufSize { f with readPos := (f.readPos + 1) % (bufSize + 1) } :=
        ⟨Nat.mod_lt _ (Nat.succ_pos _), h.write_lt⟩
      have hcons : contents bufSize f = f.buf f.readPos ::
          contents bufSize { f with readPos := (f.readPos + 1) % (bufSize + 1) } := by
        rw [contents, ← ringLen_next_read h.read_lt h.write_lt hne,
          ringList_cons _ _ _ h.read_lt]
        rfl
      have hroom : (contents bufSize
          { f with readPos := (f.readPos + 1) % (bufSize + 1) }).length < bufSize := by
        rw [hcons, List.length_cons] at hfull
        omega
      obtain ⟨hcontents, hvalid'⟩ := append_spec hvalid hroom byte
      refine ⟨?_, hvalid', rfl⟩
      rw [hcontents, hcons, List.cons_append, List.tail_cons]
  · rw [if_neg hfull]
    rw [next_eq_read_iff h.read_lt h.write_lt, ← hlen] at hfull
    have hroom : (contents bufSize f).length < bufSize := by omega
    obtain ⟨hcontents, hvalid⟩ := append_spec h hroom byte
    rw [if_pos hroom]
    exact ⟨hcontents, hvalid, rfl⟩

theorem write_spec (h : Valid bufSize f) (bytes : List UInt8) :
    contents bufSize (write bufSize f bytes) =
        bytes.foldl (putList bufSize f.readFlag) (contents bufSize f) ∧
      Valid bufSize (write bufSize f bytes) ∧ (write bufSize f bytes).readFlag = f.readFlag := by
  induction bytes generalizing f with
  | nil => exact ⟨rfl, h, rfl⟩
  | cons byte bytes ih =>
    obtain ⟨hput, hvalid, hflag⟩ := put_spec h byte
    obtain ⟨hwrite, hvalid', hflag'⟩ := ih hvalid
    refine ⟨?_, hvalid', hflag'.trans hflag⟩
    rw [List.foldl_cons, ← hput, ← hflag]
    exact hwrite

/-- Bytes that fit are appended. -/
theorem putList_roomy (reading : Bool) (l bytes : List UInt8)
    (h : l.length + bytes.length ≤ bufSize) :
    bytes.foldl (putList bufSize reading) l = l ++ bytes := by
  induction bytes generalizing l with
  | nil => exact (List.append_nil l).symm
  | cons byte bytes ih =>
    rw [List.length_cons] at h
    rw [List.foldl_cons, putList, if_pos (by omega), ih _ (by simp; omega), List.append_assoc]
    rfl

/-- During a read a full FIFO takes nothing. -/
theorem putList_reading (l bytes : List UInt8) (h : l.length = bufSize) :
    bytes.foldl (putList bufSize true) l = l := by
  induction bytes with
  | nil => rfl
  | cons byte bytes ih => rw [List.foldl_cons, putList, if_neg (by omega), if_pos rfl, ih]

/-- Otherwise the bytes push out as many of the oldest ones. -/
theorem putList_overwriting (l bytes : List UInt8) (h : l.length = bufSize) :
    bytes.foldl (putList bufSize false) l = (l ++ bytes).drop bytes.length := by
  induction bytes generalizing l with
  | nil => simp
  | cons byte bytes ih =>
    have hlen : (l ++ [byte]).tail.length = bufSize := by simp [h]
    rw [List.foldl_cons, putList, if_neg (by omega), if_neg (by decide), ih _ hlen,
      List.length_cons, ← List.drop_one, Nat.add_comm bytes.length 1, ← List.drop_drop]
    congr 1
    have hone : 1 ≤ (l ++ [byte]).length := by simp
    rw [← List.drop_append_of_le_length hone, List.append_assoc]
    rfl

end OpenBadge.CircularFifo
