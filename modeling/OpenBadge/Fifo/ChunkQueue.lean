import OpenBadge.Fifo.ChunkFifo

/-!
# The chunk FIFO is a bounded queue

The chunks of the queue are the slots from the read position up to the write
position, and the writer works on the slot at the write position, which is none of
them. Each call keeps this relation and answers what the queue answers.
-/

namespace OpenBadge.ChunkFifo

open OpenBadge.Lib

variable {c : Config} {s : State} {q : Queue}

/-- The bytes of the slot at a position. -/
def slotAt (c : Config) (buf : Nat → UInt8) (pos : Nat) : List UInt8 :=
  slice buf (pos * c.slotSize) c.slotSize

/-- The state holds the queue. -/
structure Refines (c : Config) (s : State) (q : Queue) : Prop where
  read_lt : s.chunkReadPos.toNat < c.slots
  write_lt : s.chunkWritePos.toNat < c.slots
  chunks : q.chunks = ringList (slotAt c s.buf) c.slots s.chunkReadPos.toNat
    (ringLen c.slots s.chunkReadPos.toNat s.chunkWritePos.toNat)
  draft : q.draft = if s.chunkOpenWrite then some (slotAt c s.buf s.chunkWritePos.toNat) else none
  reading : q.reading = s.chunkOpenRead
  writePtr : s.chunkOpenWrite = true → s.writePtr = slotPtr c s.chunkWritePos
  readPtr : s.chunkOpenRead = true → s.readPtr = slotPtr c s.chunkReadPos
  unread : s.chunkOpenRead = true → s.chunkReadPos ≠ s.chunkWritePos

theorem nextPos_toNat (c : Config) (pos : UInt8) :
    (nextPos c pos).toNat = (pos.toNat + 1) % c.slots := by
  have hnum := c.chunkNum.toNat_lt
  have hlt : (pos.toNat + 1) % c.slots < c.slots := Nat.mod_lt _ (Nat.succ_pos _)
  change (UInt8.ofNat ((pos.toNat + 1) % c.slots)).toNat = _
  rw [UInt8.toNat_ofNat']
  apply Nat.mod_eq_of_lt
  unfold Config.slots at hlt ⊢
  omega

theorem nextPos_lt (c : Config) (pos : UInt8) : (nextPos c pos).toNat < c.slots := by
  rw [nextPos_toNat]
  exact Nat.mod_lt _ (Nat.succ_pos _)

theorem refines_init (c : Config) (buf : Nat → UInt8) : Refines c (init buf) Queue.empty where
  read_lt := Nat.succ_pos _
  write_lt := Nat.succ_pos _
  chunks := rfl
  draft := rfl
  reading := rfl
  writePtr h := absurd h Bool.false_ne_true
  readPtr h := absurd h Bool.false_ne_true
  unread h := absurd h Bool.false_ne_true

theorem Refines.length (h : Refines c s q) :
    q.chunks.length = ringLen c.slots s.chunkReadPos.toNat s.chunkWritePos.toNat := by
  rw [h.chunks, ringList_length]

/-- The queue is empty when the positions are equal. -/
theorem Refines.chunks_eq_nil (h : Refines c s q) :
    q.chunks = [] ↔ s.chunkReadPos = s.chunkWritePos := by
  rw [← List.length_eq_zero_iff, h.length, ringLen_eq_zero h.read_lt, UInt8.toNat_inj]

/-- The oldest chunk stands at the read position. -/
theorem Refines.oldest (h : Refines c s q) (hne : s.chunkReadPos ≠ s.chunkWritePos) :
    q.chunks = slotAt c s.buf s.chunkReadPos.toNat ::
      ringList (slotAt c s.buf) c.slots ((s.chunkReadPos.toNat + 1) % c.slots)
        (ringLen c.slots ((s.chunkReadPos.toNat + 1) % c.slots) s.chunkWritePos.toNat) := by
  have hne' : s.chunkReadPos.toNat ≠ s.chunkWritePos.toNat := fun he => hne (UInt8.toNat_inj.mp he)
  rw [h.chunks, ← ringLen_next_read h.read_lt h.write_lt hne', ringList_cons _ _ _ h.read_lt]

/-- The queue is full when the write position is just before the read position. -/
theorem Refines.full (h : Refines c s q) :
    nextPos c s.chunkWritePos = s.chunkReadPos ↔ ¬ q.chunks.length < c.chunkNum.toNat := by
  rw [← UInt8.toNat_inj, nextPos_toNat, next_eq_read_iff h.read_lt h.write_lt, ← h.length]
  have hlt := ringLen_lt h.read_lt h.write_lt
  rw [← h.length] at hlt
  unfold Config.slots at hlt ⊢
  omega

/-- The pointers to the chunks that were not read, the oldest first. -/
def unreadPtrs (c : Config) (s : State) : List Nat :=
  ringList (· * c.slotSize) c.slots s.chunkReadPos.toNat
    (ringLen c.slots s.chunkReadPos.toNat s.chunkWritePos.toNat)

theorem Refines.chunkAt_mem (h : Refines c s q) {ptr : Nat} (hptr : ptr ∈ unreadPtrs c s) :
    chunkAt c s ptr ∈ q.chunks := by
  rw [unreadPtrs, ringList] at hptr
  obtain ⟨i, hi, rfl⟩ := List.mem_map.mp hptr
  rw [h.chunks, ringList]
  exact List.mem_map.mpr ⟨i, hi, rfl⟩

theorem Refines.length_le (h : Refines c s q) : q.chunks.length ≤ c.chunkNum.toNat := by
  have hlt := ringLen_lt h.read_lt h.write_lt
  rw [← h.length] at hlt
  exact Nat.le_of_lt_succ hlt

/-- The slot at the write position is none of the unread ones. -/
theorem Refines.write_slot_free (h : Refines c s q) {i : Nat} (hi : i < q.chunks.length) :
    (s.chunkReadPos.toNat + i) % c.slots ≠ s.chunkWritePos.toNat := by
  rw [h.length] at hi
  have hw := add_ringLen h.read_lt h.write_lt
  intro heq
  exact ring_add_ne hi (ringLen_lt h.read_lt h.write_lt) (heq.trans hw.symm)

theorem Refines.number (h : Refines c s q) : (getNumberOfChunks c s).toNat = q.chunks.length := by
  have hlt := ringLen_lt h.read_lt h.write_lt
  have hnum := c.chunkNum.toNat_lt
  have hslots : c.slots ≤ 2 ^ 8 := by
    unfold Config.slots
    omega
  rw [h.length]
  unfold getNumberOfChunks
  by_cases hle : s.chunkReadPos ≤ s.chunkWritePos
  · have hle' : s.chunkReadPos.toNat ≤ s.chunkWritePos.toNat := UInt8.le_iff_toNat_le.mp hle
    rw [if_pos hle, UInt8.toNat_sub_of_le _ _ hle, ringLen, if_pos hle']
  · have hle' : ¬ s.chunkReadPos.toNat ≤ s.chunkWritePos.toNat :=
      fun hc => hle (UInt8.le_iff_toNat_le.mpr hc)
    have hlen : ringLen c.slots s.chunkReadPos.toNat s.chunkWritePos.toNat =
        c.slots - (s.chunkReadPos.toNat - s.chunkWritePos.toNat) := by
      rw [ringLen, if_neg hle']
    rw [if_neg hle, UInt8.toNat_ofNat', hlen]
    apply Nat.mod_eq_of_lt
    change c.slots - _ < _
    omega

/-! ## The calls -/

theorem slotPtr_eq (c : Config) (pos : UInt8) : slotPtr c pos = pos.toNat * c.slotSize := rfl

theorem Refines.writeOpen (h : Refines c s q) :
    Refines c (writeOpen c s) { q with
      draft := some (q.draft.getD (slotAt c s.buf s.chunkWritePos.toNat)) } := by
  constructor
  · exact h.read_lt
  · exact h.write_lt
  · exact h.chunks
  · rw [h.draft]
    split <;> rfl
  · exact h.reading
  · exact fun _ => rfl
  · exact h.readPtr
  · exact h.unread

/-- Bytes written inside one slot leave the other slots as they are. -/
theorem slotAt_overwrite_ne {buf : Nat → UInt8} {pos pos' offset : Nat} {data : List UInt8}
    (hfit : offset + data.length ≤ c.slotSize) (hne : pos' ≠ pos) :
    slotAt c (overwrite buf (pos * c.slotSize + offset) data) pos' = slotAt c buf pos' := by
  apply slice_congr
  intro x hx hx'
  rcases Nat.lt_or_gt_of_ne hne with hlt | hgt
  · have hle : (pos' + 1) * c.slotSize ≤ pos * c.slotSize := Nat.mul_le_mul_right _ hlt
    rw [Nat.succ_mul] at hle
    exact overwrite_of_lt _ _ (by omega)
  · have hle : (pos + 1) * c.slotSize ≤ pos' * c.slotSize := Nat.mul_le_mul_right _ hgt
    rw [Nat.succ_mul] at hle
    exact overwrite_of_ge _ _ (by omega)

/-- Bytes written inside a slot patch it. -/
theorem slotAt_overwrite_self {buf : Nat → UInt8} {pos offset : Nat} {data : List UInt8}
    (hfit : offset + data.length ≤ c.slotSize) :
    slotAt c (overwrite buf (pos * c.slotSize + offset) data) pos =
      patch (slotAt c buf pos) offset data := by
  unfold slotAt patch
  generalize pos * c.slotSize = ptr
  rw [slice_take _ _ (by omega), slice_drop _ _ hfit]
  have hsplit : c.slotSize = offset + (data.length + (c.slotSize - (offset + data.length))) := by
    omega
  conv_lhs => rw [hsplit, slice_add, slice_add, slice_overwrite]
  rw [List.append_assoc]
  congr 1
  · apply slice_congr
    intro x _ hx
    exact overwrite_of_lt _ _ (by omega)
  · congr 1
    rw [Nat.add_assoc]
    apply slice_congr
    intro x hx _
    exact overwrite_of_ge _ _ (by omega)

theorem Refines.write (h : Refines c s q) (offset : Nat) (data : List UInt8) :
    Refines c (write c s offset data) { q with
      draft := q.draft.map fun draft =>
        if offset + data.length ≤ c.slotSize then patch draft offset data else draft } := by
  unfold ChunkFifo.write
  by_cases hopen : s.chunkOpenWrite = true
  · by_cases hfit : offset + data.length ≤ c.slotSize
    · have hptr : s.writePtr = s.chunkWritePos.toNat * c.slotSize := h.writePtr hopen
      rw [if_pos ⟨hopen, hfit⟩]
      constructor
      · exact h.read_lt
      · exact h.write_lt
      · refine h.chunks.trans (ringList_of_free (ringLen_lt h.read_lt h.write_lt) ?_).symm
        intro p hp
        rw [add_ringLen h.read_lt h.write_lt] at hp
        rw [hptr]
        exact slotAt_overwrite_ne hfit hp
      · dsimp only
        rw [h.draft, if_pos hopen, if_pos hopen, Option.map_some, if_pos hfit, hptr,
          slotAt_overwrite_self hfit]
      · exact h.reading
      · exact h.writePtr
      · exact h.readPtr
      · exact h.unread
    · rw [if_neg fun hc => hfit hc.2]
      simp only [if_neg hfit, Option.map_id']
      exact h
  · rw [if_neg fun hc => hopen hc.1]
    have hnone : q.draft = none := by rw [h.draft, if_neg hopen]
    rw [hnone, Option.map_none, ← hnone]
    exact h

theorem Refines.writeClose (h : Refines c s q) (found : List UInt8) :
    Refines c (writeClose c s) (q.step c.chunkNum.toNat c.slotSize found .writeClose).1 := by
  unfold ChunkFifo.writeClose
  by_cases hopen : s.chunkOpenWrite = true
  · have hdraft : q.draft = some (slotAt c s.buf s.chunkWritePos.toNat) := by
      rw [h.draft, if_pos hopen]
    rw [if_neg (by rw [hopen]; decide), Queue.step, hdraft]
    dsimp only
    by_cases hfull : nextPos c s.chunkWritePos = s.chunkReadPos
    · rw [if_pos hfull, if_neg (h.full.mp hfull)]
      exact ⟨h.read_lt, h.write_lt, h.chunks, rfl, h.reading,
        fun hc => absurd hc Bool.false_ne_true, h.readPtr, h.unread⟩
    · have hroom : q.chunks.length < c.chunkNum.toNat := by
        by_contra hc
        exact hfull (h.full.mpr hc)
      have hne : (s.chunkWritePos.toNat + 1) % c.slots ≠ s.chunkReadPos.toNat := by
        rw [← nextPos_toNat]
        exact fun he => hfull (UInt8.toNat_inj.mp he)
      rw [if_neg hfull, if_pos hroom]
      constructor
      · exact h.read_lt
      · exact nextPos_lt c _
      · dsimp only
        rw [nextPos_toNat, ringLen_next_write h.read_lt h.write_lt hne, ringList_succ,
          add_ringLen h.read_lt h.write_lt, ← h.chunks]
      · rfl
      · exact h.reading
      · exact fun hc => absurd hc Bool.false_ne_true
      · exact h.readPtr
      · exact fun _ he => hfull he.symm
  · have hnone : q.draft = none := by rw [h.draft, if_neg hopen]
    rw [if_pos (Bool.eq_false_iff.mpr hopen), Queue.step, hnone]
    exact h

theorem Refines.readOpen (h : Refines c s q) (found : List UInt8) :
    Refines c (readOpen c s).2 (q.step c.chunkNum.toNat c.slotSize found .readOpen).1 ∧
      (q.step c.chunkNum.toNat c.slotSize found .readOpen).2 = reply c s .readOpen := by
  unfold reply ChunkFifo.readOpen
  by_cases hne : s.chunkReadPos ≠ s.chunkWritePos
  · have hold := h.oldest hne
    rw [if_pos hne, Queue.step, hold]
    exact ⟨⟨h.read_lt, h.write_lt, hold.symm.trans h.chunks, h.draft, rfl, h.writePtr, fun _ => rfl,
      fun _ => hne⟩, rfl⟩
  · rw [if_neg hne, Queue.step, h.chunks_eq_nil.mpr (not_not.mp hne)]
    exact ⟨h, rfl⟩

theorem Refines.look (h : Refines c s q) (found : List UInt8) :
    Refines c s (q.step c.chunkNum.toNat c.slotSize found .look).1 ∧
      (q.step c.chunkNum.toNat c.slotSize found .look).2 = reply c s .look := by
  unfold reply
  by_cases hopen : s.chunkOpenRead = true
  · rw [if_pos hopen, Queue.step, h.reading, hopen, h.oldest (h.unread hopen), h.readPtr hopen]
    exact ⟨h, rfl⟩
  · have hfalse : s.chunkOpenRead = false := Bool.eq_false_iff.mpr hopen
    rw [if_neg hopen, Queue.step, h.reading, hfalse]
    exact ⟨h, rfl⟩

theorem Refines.readClose (h : Refines c s q) (found : List UInt8) :
    Refines c (readClose c s) (q.step c.chunkNum.toNat c.slotSize found .readClose).1 := by
  unfold ChunkFifo.readClose
  by_cases hopen : s.chunkOpenRead = true
  · have hne := h.unread hopen
    rw [if_neg (by rw [hopen]; decide), Queue.step, h.reading, if_pos hopen]
    dsimp only
    rw [if_neg hne, h.oldest hne, List.tail_cons]
    constructor
    · exact nextPos_lt c _
    · exact h.write_lt
    · dsimp only
      rw [nextPos_toNat]
    · exact h.draft
    · rfl
    · exact h.writePtr
    · exact fun hc => absurd hc Bool.false_ne_true
    · exact fun hc => absurd hc Bool.false_ne_true
  · have hfalse : s.chunkOpenRead = false := Bool.eq_false_iff.mpr hopen
    rw [if_pos hfalse, Queue.step, h.reading, if_neg hopen]
    exact h

/-- Each action keeps the relation and answers what the queue answers. -/
theorem refines_step (h : Refines c s q) (a : Action) :
    Refines c (step c s a) (q.step c.chunkNum.toNat c.slotSize
        (slotAt c s.buf s.chunkWritePos.toNat) a).1 ∧
      (q.step c.chunkNum.toNat c.slotSize (slotAt c s.buf s.chunkWritePos.toNat) a).2 =
        reply c s a := by
  cases a with
  | writeOpen => exact ⟨h.writeOpen, rfl⟩
  | write offset data => exact ⟨h.write offset data, rfl⟩
  | writeClose =>
    refine ⟨h.writeClose _, ?_⟩
    rw [Queue.step]
    cases q.draft with
    | none => rfl
    | some draft => rfl
  | readOpen => exact h.readOpen _
  | look => exact h.look _
  | readClose =>
    refine ⟨h.readClose _, ?_⟩
    rw [Queue.step]
    split
    · rfl
    · rfl

theorem refines_run (h : Refines c s q) (actions : List Action) :
    ∃ q', Queue.Runs c.chunkNum.toNat c.slotSize q (trace c s actions) q' ∧
      Refines c (run (step c) s actions) q' := by
  induction actions generalizing s q with
  | nil => exact ⟨q, .nil q, h⟩
  | cons a as ih =>
    obtain ⟨hstep, hreply⟩ := refines_step h a
    obtain ⟨q', hruns, href⟩ := ih hstep
    exact ⟨q', .cons _ (slice_length _ _ _) hreply hruns, href⟩

/-- Every interleaving of the writer and the reader is a run of the queue: the
answers, with the bytes the reader sees, are the queue's; the slot that `write_open`
hands out is the slot of no unread chunk; an open chunk is the oldest unread one;
and the number of chunks is the length of the queue. -/
theorem chunk_fifo_refines_queue (c : Config) (buf : Nat → UInt8) (actions : List Action) :
    ∃ q, Queue.Runs c.chunkNum.toNat c.slotSize Queue.empty (trace c (init buf) actions) q ∧
      q.chunks.length ≤ c.chunkNum.toNat ∧
      (getNumberOfChunks c (run (step c) (init buf) actions)).toNat = q.chunks.length ∧
      (∀ i (h : i < q.chunks.length),
        slotAt c (run (step c) (init buf) actions).buf
          (((run (step c) (init buf) actions).chunkReadPos.toNat + i) % c.slots) = q.chunks[i] ∧
        ((run (step c) (init buf) actions).chunkReadPos.toNat + i) % c.slots ≠
          (run (step c) (init buf) actions).chunkWritePos.toNat) ∧
      (writeOpen c (run (step c) (init buf) actions)).writePtr =
        (run (step c) (init buf) actions).chunkWritePos.toNat * c.slotSize ∧
      ((run (step c) (init buf) actions).chunkOpenRead = true → 0 < q.chunks.length ∧
        (run (step c) (init buf) actions).readPtr =
          (run (step c) (init buf) actions).chunkReadPos.toNat * c.slotSize) := by
  obtain ⟨q, hruns, h⟩ := refines_run (refines_init c buf) actions
  refine ⟨q, hruns, h.length_le, h.number, ?_, rfl, ?_⟩
  · intro i hi
    refine ⟨?_, h.write_slot_free hi⟩
    rw [List.getElem_of_eq h.chunks hi]
    simp only [ringList, List.getElem_map, List.getElem_range]
  · intro hopen
    refine ⟨?_, h.readPtr hopen⟩
    rw [List.length_pos_iff]
    exact fun hnil => h.unread hopen (h.chunks_eq_nil.mp hnil)

/-! ## The slots that wait for the reader -/

/-- The offsets of the closed chunks that were not yet read, oldest first. -/
def waiting (c : Config) (s : State) : List Nat :=
  ringList (fun pos => pos * c.slotSize) c.slots s.chunkReadPos.toNat
    (ringLen c.slots s.chunkReadPos.toNat s.chunkWritePos.toNat)

/-- The writer's slot is none of them. -/
theorem Refines.writePtr_not_mem_waiting (h : Refines c s q) (hsize : 0 < c.slotSize)
    (hopen : s.chunkOpenWrite = true) : s.writePtr ∉ waiting c s := by
  intro hmem
  obtain ⟨i, hi, heq⟩ := List.mem_map.mp hmem
  rw [List.mem_range, ← h.length] at hi
  rw [h.writePtr hopen, slotPtr_eq] at heq
  exact h.write_slot_free hi (Nat.eq_of_mul_eq_mul_right hsize heq)

/-- The writer's calls leave the reader's side as it is. -/
theorem writeClose_read (c : Config) (s : State) :
    (ChunkFifo.writeClose c s).chunkOpenRead = s.chunkOpenRead ∧
      (ChunkFifo.writeClose c s).readPtr = s.readPtr := by
  rw [ChunkFifo.writeClose]
  split
  · exact ⟨rfl, rfl⟩
  · dsimp only
    split <;> exact ⟨rfl, rfl⟩

/-- The reader's calls leave the writer's side as it is. -/
theorem readClose_write (c : Config) (s : State) :
    (ChunkFifo.readClose c s).chunkOpenWrite = s.chunkOpenWrite ∧
      (ChunkFifo.readClose c s).writePtr = s.writePtr := by
  rw [ChunkFifo.readClose]
  split
  · exact ⟨rfl, rfl⟩
  · dsimp only
    split <;> exact ⟨rfl, rfl⟩

/-- Closing adds the writer's slot when the write position moves. -/
theorem Refines.waiting_writeClose (h : Refines c s q) :
    waiting c (ChunkFifo.writeClose c s) =
      if (ChunkFifo.writeClose c s).chunkWritePos = s.chunkWritePos then waiting c s
      else waiting c s ++ [s.writePtr] := by
  by_cases hopen : s.chunkOpenWrite = true
  · rw [ChunkFifo.writeClose, if_neg (by rw [hopen]; decide)]
    dsimp only
    by_cases hfull : nextPos c s.chunkWritePos = s.chunkReadPos
    · rw [if_pos hfull, if_pos rfl]
      rfl
    · have hne : (s.chunkWritePos.toNat + 1) % c.slots ≠ s.chunkReadPos.toNat := by
        rw [← nextPos_toNat]
        exact fun he => hfull (UInt8.toNat_inj.mp he)
      have hmoves : nextPos c s.chunkWritePos ≠ s.chunkWritePos := by
        intro he
        have hmod := congrArg UInt8.toNat he
        have hpos := c.chunkNum_pos
        rw [nextPos_toNat, next_eq h.write_lt] at hmod
        unfold Config.slots at hmod
        split at hmod <;> omega
      rw [if_neg hfull, if_neg hmoves, waiting]
      dsimp only
      rw [nextPos_toNat, ringLen_next_write h.read_lt h.write_lt hne, ringList_succ,
        add_ringLen h.read_lt h.write_lt, h.writePtr hopen]
      rfl
  · have hsame : ChunkFifo.writeClose c s = s := by
      rw [ChunkFifo.writeClose, if_pos (Bool.eq_false_iff.mpr hopen)]
    rw [hsame, if_pos rfl]

/-- Closing adds the writer's slot at most. -/
theorem Refines.mem_waiting_writeClose (h : Refines c s q) {ptr : Nat}
    (hmem : ptr ∈ waiting c (ChunkFifo.writeClose c s)) :
    ptr ∈ waiting c s ∨ s.chunkOpenWrite = true ∧ ptr = s.writePtr := by
  by_cases hopen : s.chunkOpenWrite = true
  · rw [h.waiting_writeClose] at hmem
    split at hmem
    · exact .inl hmem
    · rcases List.mem_append.mp hmem with hmem | hmem
      · exact .inl hmem
      · exact .inr ⟨hopen, List.mem_singleton.mp hmem⟩
  · rw [ChunkFifo.writeClose, if_pos (Bool.eq_false_iff.mpr hopen)] at hmem
    exact .inl hmem

/-- The chunk that is open for reading is the first one; closing takes it away. -/
theorem Refines.waiting_readClose (h : Refines c s q) (hopen : s.chunkOpenRead = true) :
    waiting c s = s.readPtr :: waiting c (ChunkFifo.readClose c s) := by
  have hne := h.unread hopen
  have hne' : s.chunkReadPos.toNat ≠ s.chunkWritePos.toNat :=
    fun he => hne (UInt8.toNat_inj.mp he)
  rw [waiting, ← ringLen_next_read h.read_lt h.write_lt hne', ringList_cons _ _ _ h.read_lt,
    h.readPtr hopen, ChunkFifo.readClose, if_neg (by rw [hopen]; decide)]
  dsimp only
  rw [if_neg hne, waiting]
  dsimp only
  rw [nextPos_toNat, slotPtr_eq]

theorem Refines.mem_waiting_readClose (h : Refines c s q) {ptr : Nat}
    (hmem : ptr ∈ waiting c (ChunkFifo.readClose c s)) : ptr ∈ waiting c s := by
  by_cases hopen : s.chunkOpenRead = true
  · rw [h.waiting_readClose hopen]
    exact List.mem_cons_of_mem _ hmem
  · rw [ChunkFifo.readClose, if_pos (Bool.eq_false_iff.mpr hopen)] at hmem
    exact hmem

/-- No chunk waits when the positions are equal. -/
theorem Refines.waiting_eq_nil (h : Refines c s q) :
    waiting c s = [] ↔ s.chunkReadPos = s.chunkWritePos := by
  rw [← h.chunks_eq_nil, ← List.length_eq_zero_iff, ← List.length_eq_zero_iff, waiting,
    ringList_length, h.length]

end OpenBadge.ChunkFifo
