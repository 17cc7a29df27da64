import OpenBadge.Lib.Proc
import OpenBadge.Lib.Ring
import OpenBadge.RetCode

/-!
# The byte FIFO of the sender

`app_fifo` comes with the SDK. `AppFifo` is what `sender_lib.c` relies on: the two
functions it calls, the cells it reads by hand behind the read position, and the
move of that position. `ringFifo` has both.
-/

namespace OpenBadge.Sender

open OpenBadge.Lib

/-- A bounded byte FIFO with states in `σ`. -/
structure AppFifo (σ : Type) where
  /-- `buf_size_mask + 1` -/
  size : Nat
  Valid : σ → Prop
  /-- The bytes in the FIFO, oldest first. -/
  contents : σ → List UInt8
  flush : σ → σ
  /-- The size `app_fifo_read` stores when it is given no buffer. -/
  readSize : σ → Nat
  /-- The size `app_fifo_write` stores when it is given no data. -/
  writeSize : σ → Nat
  write : List UInt8 → Proc σ RetCode Unit
  /-- `p_buf[(read_pos + i) & buf_size_mask]` -/
  peek : σ → Nat → UInt8
  /-- `read_pos += len` -/
  advance : σ → Nat → σ
  valid_flush : ∀ f, Valid (flush f)
  contents_flush : ∀ f, contents (flush f) = []
  contents_length_le : ∀ f, Valid f → (contents f).length ≤ size
  readSize_eq : ∀ f, Valid f → readSize f = (contents f).length
  writeSize_eq : ∀ f, Valid f → writeSize f = size - (contents f).length
  write_full : ∀ f data, Valid f → (contents f).length = size →
    write data f = (.error .noMem, f)
  write_room : ∀ f data, Valid f → (contents f).length < size →
    ∃ g, write data f = (.ok (), g) ∧ Valid g ∧
      contents g = contents f ++ data.take (size - (contents f).length)
  peek_eq : ∀ f i, Valid f → (hi : i < (contents f).length) → peek f i = (contents f)[i]
  valid_advance : ∀ f n, Valid f → n ≤ (contents f).length → Valid (advance f n)
  contents_advance : ∀ f n, Valid f → n ≤ (contents f).length →
    contents (advance f n) = (contents f).drop n

/-- The members of `app_fifo_t` with the bytes behind `p_buf`. The positions run freely
and are reduced when a cell is accessed. -/
structure Ring where
  buf : Nat → UInt8
  readPos : UInt32
  writePos : UInt32

namespace Ring

variable {size : Nat} {f : Ring}

def length (f : Ring) : Nat := (f.writePos - f.readPos).toNat

def flush (f : Ring) : Ring := { f with readPos := f.writePos }

def put (size : Nat) (f : Ring) (byte : UInt8) : Ring :=
  { f with
    buf := Function.update f.buf (f.writePos.toNat % size) byte
    writePos := f.writePos + 1 }

def write (size : Nat) (data : List UInt8) : Proc Ring RetCode Unit := fun f =>
  if size - f.length = 0 then (.error .noMem, f)
  else (.ok (), (data.take (size - f.length)).foldl (put size) f)

def peek (size : Nat) (f : Ring) (i : Nat) : UInt8 :=
  f.buf ((f.readPos + UInt32.ofNat i).toNat % size)

def advance (f : Ring) (n : Nat) : Ring := { f with readPos := f.readPos + UInt32.ofNat n }

def contents (size : Nat) (f : Ring) : List UInt8 :=
  ringList f.buf size f.readPos.toNat f.length

theorem contents_length : (contents size f).length = f.length := by
  simp [contents]

/-- A position `n` behind another one, as the cell it stands for. -/
theorem add_toNat_mod (hdvd : size ∣ 2 ^ 32) (p : UInt32) (n : Nat) :
    (p + UInt32.ofNat n).toNat % size = (p.toNat + n) % size := by
  rw [UInt32.toNat_add, Nat.mod_mod_of_dvd _ hdvd, UInt32.toNat_ofNat', Nat.add_mod,
    Nat.mod_mod_of_dvd _ hdvd, ← Nat.add_mod]

theorem writePos_mod (hdvd : size ∣ 2 ^ 32) :
    f.writePos.toNat % size = (f.readPos.toNat + f.length) % size := by
  rw [← add_toNat_mod hdvd, length, UInt32.ofNat_toNat, UInt32.add_comm, UInt32.sub_add_cancel]

theorem length_put (size : Nat) (byte : UInt8) (h : f.length < 2 ^ 31) :
    (put size f byte).length = f.length + 1 := by
  unfold length at h ⊢
  have hadd : f.writePos + 1 - f.readPos = f.writePos - f.readPos + 1 := by grind
  rw [put, hadd, UInt32.toNat_add]
  exact Nat.mod_eq_of_lt (show _ + 1 < 2 ^ 32 by omega)

/-- A byte behind the contents, where there is room. -/
theorem contents_put (hdvd : size ∣ 2 ^ 32) (hle : size ≤ 2 ^ 31) (byte : UInt8)
    (h : f.length < size) : contents size (put size f byte) = contents size f ++ [byte] := by
  have hcell := writePos_mod (f := f) hdvd
  rw [contents, length_put size byte (by omega), ringList_succ]
  dsimp only [put]
  rw [← hcell, Function.update_self]
  congr 1
  apply ringList_of_free h
  intro p hp
  exact Function.update_of_ne (by rw [hcell]; exact hp) _ _

theorem foldl_put (hdvd : size ∣ 2 ^ 32) (hle : size ≤ 2 ^ 31) (data : List UInt8)
    (h : f.length + data.length ≤ size) :
    (data.foldl (put size) f).length = f.length + data.length ∧
      contents size (data.foldl (put size) f) = contents size f ++ data := by
  induction data generalizing f with
  | nil => simp
  | cons byte data ih =>
    rw [List.length_cons] at h
    have hlen := length_put size byte (show f.length < 2 ^ 31 by omega)
    obtain ⟨ihlen, ihcontents⟩ := ih (f := put size f byte) (by omega)
    rw [List.foldl_cons]
    constructor
    · rw [ihlen, hlen, List.length_cons]
      omega
    · rw [ihcontents, contents_put hdvd hle byte (by omega), List.append_assoc,
        List.singleton_append]

theorem length_advance {n : Nat} (h : n ≤ f.length) : (advance f n).length = f.length - n := by
  have hlt : f.length < 2 ^ 32 := (f.writePos - f.readPos).toNat_lt
  have hsub : f.writePos - (f.readPos + UInt32.ofNat n) =
      f.writePos - f.readPos - UInt32.ofNat n := by grind
  have hn : (UInt32.ofNat n).toNat = n := UInt32.toNat_ofNat_of_lt' (h.trans_lt hlt)
  unfold length at h ⊢
  rw [advance, hsub, UInt32.toNat_sub_of_le _ _ (by rw [UInt32.le_iff_toNat_le, hn]; exact h), hn]

theorem contents_advance (hdvd : size ∣ 2 ^ 32) {n : Nat} (h : n ≤ f.length) :
    contents size (advance f n) = (contents size f).drop n := by
  apply List.ext_getElem
  · rw [List.length_drop, contents_length, contents_length, length_advance h]
  · intro i _ _
    simp only [contents, ringList, advance, List.getElem_map, List.getElem_range,
      List.getElem_drop]
    rw [Nat.add_mod, add_toNat_mod hdvd, ← Nat.add_mod, Nat.add_assoc]

theorem write_full {data : List UInt8} (h : f.length = size) :
    write size data f = (.error .noMem, f) := by
  rw [write, if_pos (by omega)]

theorem write_room (hdvd : size ∣ 2 ^ 32) (hle : size ≤ 2 ^ 31) {data : List UInt8}
    (h : f.length < size) :
    ∃ g, write size data f = (.ok (), g) ∧ g.length ≤ size ∧
      contents size g = contents size f ++ data.take (size - f.length) := by
  have htake : f.length + (data.take (size - f.length)).length ≤ size := by
    rw [List.length_take]
    omega
  obtain ⟨hlen, hcontents⟩ := foldl_put hdvd hle _ htake
  refine ⟨_, if_neg (by omega), ?_, hcontents⟩
  rw [hlen]
  exact htake

theorem length_advance_le {n : Nat} (hf : f.length ≤ size) (hn : n ≤ f.length) :
    (advance f n).length ≤ size := by
  rw [length_advance hn]
  exact (Nat.sub_le _ _).trans hf

theorem peek_eq (hdvd : size ∣ 2 ^ 32) {i : Nat} (hi : i < (contents size f).length) :
    peek size f i = (contents size f)[i] := by
  simp only [contents, ringList, List.getElem_map, List.getElem_range, peek]
  rw [add_toNat_mod hdvd]

end Ring

/-- `app_fifo` over a buffer whose size is a power of two. -/
def ringFifo (size : Nat) (hdvd : size ∣ 2 ^ 32) (hle : size ≤ 2 ^ 31) : AppFifo Ring where
  size := size
  Valid f := f.length ≤ size
  contents := Ring.contents size
  flush := Ring.flush
  readSize := Ring.length
  writeSize f := size - f.length
  write := Ring.write size
  peek := Ring.peek size
  advance := Ring.advance
  valid_flush f := by simp [Ring.flush, Ring.length]
  contents_flush f := by simp [Ring.contents, Ring.flush, Ring.length]
  contents_length_le f hf := Ring.contents_length.trans_le hf
  readSize_eq f _ := Ring.contents_length.symm
  writeSize_eq f _ := by rw [Ring.contents_length]
  write_full f data _ h := Ring.write_full (by rwa [Ring.contents_length] at h)
  write_room f data _ h := by
    rw [Ring.contents_length] at h ⊢
    exact Ring.write_room hdvd hle h
  peek_eq f i _ hi := Ring.peek_eq hdvd hi
  valid_advance f n hf hn := Ring.length_advance_le hf (by rwa [Ring.contents_length] at hn)
  contents_advance f n _ hn := Ring.contents_advance hdvd (by rwa [Ring.contents_length] at hn)

/-- The transmit FIFO of `sender_lib.c` has 512 bytes. -/
def txFifoOf512 : AppFifo Ring := ringFifo 512 (by decide) (by decide)

end OpenBadge.Sender
