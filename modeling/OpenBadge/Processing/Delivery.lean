import OpenBadge.Processing.Model
import OpenBadge.Fifo.ChunkQueue

/-!
# From the sampling to the storage

Every chunk that the FIFO took is either settled, that is stored or rejected for good,
or it waits in the FIFO, and both parts are in the order of the commits. The proof
follows the form in which a chunk is stored, which the work on the FIFO's own memory
does not change.
-/

namespace OpenBadge.Processing

open OpenBadge.Lib OpenBadge.Sampling

variable {α β : Type} {k : ChunkKind α β} {s : State α β}

/-- What was stored or rejected with another code than `NRF_ERROR_INTERNAL`. -/
def settled (attempts : List (β × Except RetCode Unit)) : List β :=
  (attempts.filter fun a => a.2 ≠ .error .internal).map Prod.fst

/-- Each attempt hands over the first of the chunks that is not yet settled. -/
def InTurn (forms : List β) (attempts : List (β × Except RetCode Unit)) : Prop :=
  ∀ i (h : i < attempts.length), forms[(settled (attempts.take i)).length]? = some attempts[i].1

/-- The chunks that wait to be read, as they will be stored. -/
def State.queued (k : ChunkKind α β) (s : State α β) : List β :=
  (ChunkFifo.waiting k.fifo s.fifo).map fun ptr => k.form (s.chunkAt ptr)

/-- The chunks that are not settled: the open one is settled before it is closed. -/
def State.unsettled (k : ChunkKind α β) (s : State α β) : List β :=
  match s.place with
  | .answered ret => if ret = .error .internal then s.queued k else (s.queued k).tail
  | _ => s.queued k

/-- The call that runs has the first chunk open. -/
def Place.HasOpened : Place β → Prop
  | .idle | .opening => False
  | .opened | .storing _ | .answered _ => True

structure Sound (k : ChunkKind α β) (s : State α β) : Prop where
  queue : ∃ q, ChunkFifo.Refines k.fifo s.fifo q
  reading : s.place.HasOpened → s.fifo.chunkOpenRead = true
  handed : ∀ b, s.place = .storing b → b = k.form (s.chunkAt s.fifo.readPtr)
  kept : s.committed.map k.form = settled s.attempts ++ s.unsettled k
  inTurn : InTurn (s.committed.map k.form) s.attempts
  awake : s.place = .idle → ChunkFifo.waiting k.fifo s.fifo ≠ [] → 0 < s.events

/-! ## Attempts -/

theorem settled_append (attempts : List (β × Except RetCode Unit)) (b : β)
    (ret : Except RetCode Unit) :
    settled (attempts ++ [(b, ret)]) =
      settled attempts ++ if ret = .error .internal then [] else [b] := by
  rw [settled, List.filter_append, List.map_append]
  by_cases h : ret = .error .internal <;> simp [settled, h]

/-- More chunks may come. -/
theorem InTurn.append_forms {forms : List β} {attempts : List (β × Except RetCode Unit)}
    (h : InTurn forms attempts) (more : List β) : InTurn (forms ++ more) attempts := by
  intro i hi
  have hsome := h i hi
  obtain ⟨hlt, -⟩ := List.getElem?_eq_some_iff.mp hsome
  rw [List.getElem?_append_left hlt, hsome]

theorem InTurn.append {forms : List β} {attempts : List (β × Except RetCode Unit)}
    (h : InTurn forms attempts) {b : β} (hb : forms[(settled attempts).length]? = some b)
    (ret : Except RetCode Unit) : InTurn forms (attempts ++ [(b, ret)]) := by
  intro i hi
  rw [List.length_append, List.length_singleton] at hi
  rcases Nat.lt_succ_iff_lt_or_eq.mp hi with hlt | rfl
  · rw [List.take_append_of_le_length (Nat.le_of_lt hlt), List.getElem_append_left hlt]
    exact h i hlt
  · rw [List.take_left, List.getElem_concat_length rfl]
    exact hb

/-! ## The form of a chunk -/

theorem ChunkKind.form_reduce (k : ChunkKind α β) (a : α) : k.form (k.reduce a) = k.form a := by
  rw [ChunkKind.form, k.reduce_reduce, ← ChunkKind.form]

/-- The work on the chunk in the FIFO does not change what will be stored. -/
theorem form_update_reduce (k : ChunkKind α β) (chunkAt : Nat → α) (p ptr : Nat) :
    k.form (Function.update chunkAt p (k.reduce (chunkAt p)) ptr) = k.form (chunkAt ptr) := by
  by_cases h : ptr = p
  · rw [h, Function.update_self, k.form_reduce]
  · rw [Function.update_of_ne h]

/-- The chunk that is open for reading is the first one. -/
theorem Sound.queued_cons (h : Sound k s) (hopen : s.fifo.chunkOpenRead = true) :
    s.queued k = k.form (s.chunkAt s.fifo.readPtr) ::
      { s with fifo := ChunkFifo.readClose k.fifo s.fifo }.queued k := by
  obtain ⟨q, hq⟩ := h.queue
  rw [State.queued, hq.waiting_readClose hopen, List.map_cons, State.queued]

theorem unsettled_congr {s t : State α β} (hplace : s.place = t.place)
    (hqueued : s.queued k = t.queued k) : s.unsettled k = t.unsettled k := by
  rw [State.unsettled, State.unsettled, hplace, hqueued]

/-! ## The sampling -/

theorem Sound.init (k : ChunkKind α β) (chunkAt : Nat → α) : Sound k (init chunkAt) where
  queue := ⟨_, ChunkFifo.refines_init k.fifo _⟩
  reading h := h.elim
  handed _ h := nomatch h
  kept := by
    have hnil : ChunkFifo.waiting k.fifo (ChunkFifo.init fun _ => 0) = [] :=
      (ChunkFifo.refines_init k.fifo _).waiting_eq_nil.mpr rfl
    simp only [Processing.init, State.unsettled, State.queued, hnil]
    rfl
  inTurn := fun i hi => absurd hi (Nat.not_lt_zero i)
  awake _ hne := absurd ((ChunkFifo.refines_init k.fifo _).waiting_eq_nil.mpr rfl) hne

theorem Sound.writeOpen (h : Sound k s) : Sound k (writeOpen k s) := by
  obtain ⟨q, hq⟩ := h.queue
  exact ⟨⟨_, hq.writeOpen⟩, h.reading, h.handed, h.kept, h.inTurn, h.awake⟩

/-- The writer's slot is none of the waiting ones, so nothing that is queued changes. -/
theorem Sound.work (h : Sound k s) (f : α → α) : Sound k (work s f) := by
  rw [Processing.work]
  split
  · rename_i hopen
    obtain ⟨q, hq⟩ := h.queue
    have hne : ∀ ptr ∈ ChunkFifo.waiting k.fifo s.fifo,
        Function.update s.chunkAt s.fifo.writePtr (f (s.chunkAt s.fifo.writePtr)) ptr =
          s.chunkAt ptr := by
      intro ptr hptr
      refine Function.update_of_ne ?_ _ _
      rintro rfl
      exact hq.writePtr_not_mem_waiting k.slotSize_pos hopen hptr
    refine ⟨h.queue, h.reading, ?_, ?_, h.inTurn, h.awake⟩
    · intro b hb
      have hread := h.reading (by
        rw [show s.place = .storing b from hb]
        trivial)
      have hmem : s.fifo.readPtr ∈ ChunkFifo.waiting k.fifo s.fifo := by
        rw [hq.waiting_readClose hread]
        exact List.mem_cons_self ..
      rw [h.handed b hb]
      exact congrArg k.form (hne _ hmem).symm
    · refine h.kept.trans (congrArg _ (unsettled_congr rfl ?_))
      exact List.map_congr_left fun ptr hptr => congrArg k.form (hne ptr hptr).symm
  · exact h

/-- A chunk that the FIFO takes is queued behind the others. -/
theorem Sound.queued_commit (h : Sound k s) :
    (commit k s).queued k = s.queued k ++
      if (ChunkFifo.writeClose k.fifo s.fifo).chunkWritePos = s.fifo.chunkWritePos then []
      else [k.form (s.chunkAt s.fifo.writePtr)] := by
  obtain ⟨q, hq⟩ := h.queue
  rw [State.queued, State.queued]
  change (ChunkFifo.waiting k.fifo (ChunkFifo.writeClose k.fifo s.fifo)).map
    (fun ptr => k.form (s.chunkAt ptr)) = _
  rw [hq.waiting_writeClose]
  split
  · rw [List.append_nil]
  · rw [List.map_append, List.map_singleton]

/-- It is the last of the chunks that are not settled. -/
theorem Sound.unsettled_commit (h : Sound k s) :
    (commit k s).unsettled k = s.unsettled k ++
      if (ChunkFifo.writeClose k.fifo s.fifo).chunkWritePos = s.fifo.chunkWritePos then []
      else [k.form (s.chunkAt s.fifo.writePtr)] := by
  have hplace : (Processing.commit k s).place = s.place := rfl
  rw [State.unsettled, State.unsettled, hplace, h.queued_commit]
  cases hp : s.place with
  | answered ret =>
    dsimp only
    have hopen := h.reading (by rw [hp]; trivial)
    split
    · rfl
    · rw [h.queued_cons hopen, List.cons_append, List.tail_cons, List.tail_cons]
  | idle => rfl
  | opening => rfl
  | opened => rfl
  | storing handed => rfl

theorem Sound.commit (h : Sound k s) : Sound k (commit k s) := by
  obtain ⟨q, hq⟩ := h.queue
  have hread := ChunkFifo.writeClose_read k.fifo s.fifo
  have hwaiting := hq.waiting_writeClose
  refine ⟨⟨_, hq.writeClose []⟩, ?_, ?_, ?_, ?_, fun _ _ => Nat.succ_pos _⟩
  · intro hplace
    exact hread.1.trans (h.reading hplace)
  · intro b hb
    rw [h.handed b hb]
    change _ = k.form (s.chunkAt (ChunkFifo.writeClose k.fifo s.fifo).readPtr)
    rw [hread.2]
  · rw [h.unsettled_commit, ← List.append_assoc]
    change (if (ChunkFifo.writeClose k.fifo s.fifo).chunkWritePos = s.fifo.chunkWritePos
      then s.committed else s.committed ++ [s.chunkAt s.fifo.writePtr]).map k.form =
        (settled s.attempts ++ s.unsettled k) ++ _
    rw [← h.kept]
    split
    · rw [List.append_nil]
    · rw [List.map_append, List.map_singleton]
  · rw [Processing.commit]
    dsimp only
    split
    · exact h.inTurn
    · rw [List.map_append]
      exact h.inTurn.append_forms _

/-! ## The processing -/

theorem Sound.dispatch (h : Sound k s) : Sound k (dispatch s) := by
  rw [Processing.dispatch]
  split
  · rename_i events hplace hevents
    refine ⟨h.queue, fun hc => hc.elim, (fun b hb => nomatch hb), ?_, h.inTurn, (fun hp => nomatch hp)⟩
    refine h.kept.trans ?_
    rw [State.unsettled, State.unsettled, hplace]
    rfl
  · exact h

/-- The `while` loop ends when no chunk waits. -/
theorem Sound.readOpen (h : Sound k s) (hp : s.place = .opening) (ret : Except RetCode Unit) :
    Sound k (proceed k s ret) := by
  obtain ⟨q, hq⟩ := h.queue
  have hkept := h.kept
  rw [State.unsettled, hp] at hkept
  dsimp only at hkept
  rw [proceed, hp]
  dsimp only
  by_cases hne : s.fifo.chunkReadPos ≠ s.fifo.chunkWritePos
  · have hopened := (hq.readOpen []).1
    rw [ChunkFifo.readOpen, if_pos hne] at hopened ⊢
    exact ⟨⟨_, hopened⟩, fun _ => rfl, (fun b hb => nomatch hb), hkept, h.inTurn,
      (fun hp => nomatch hp)⟩
  · rw [ChunkFifo.readOpen, if_neg hne]
    refine ⟨h.queue, fun hc => hc.elim, (fun b hb => nomatch hb), hkept, h.inTurn, ?_⟩
    intro _ hwaiting
    exact absurd (hq.waiting_eq_nil.mpr (not_not.mp hne)) hwaiting

/-- The chunk is reduced where it lies and handed over in the form in which it is stored. -/
theorem Sound.reduce (h : Sound k s) (hp : s.place = .opened) (ret : Except RetCode Unit) :
    Sound k (proceed k s ret) := by
  have hkept := h.kept
  rw [State.unsettled, hp] at hkept
  dsimp only at hkept
  rw [proceed, hp]
  dsimp only
  refine ⟨h.queue, fun _ => h.reading (by rw [hp]; trivial), ?_, ?_, h.inTurn,
    (fun hp => nomatch hp)⟩
  · intro b hb
    cases hb
    exact (form_update_reduce k s.chunkAt _ _).symm
  · refine hkept.trans (congrArg _ ?_)
    rw [State.queued, State.unsettled]
    exact List.map_congr_left fun ptr _ => (form_update_reduce k s.chunkAt _ ptr).symm

/-- The storer gets the first chunk that is not settled, and may settle it. -/
theorem Sound.store (h : Sound k s) {handed : β} (hp : s.place = .storing handed)
    (ret : Except RetCode Unit) : Sound k (proceed k s ret) := by
  have hopen := h.reading (by rw [hp]; trivial)
  have hkept := h.kept
  rw [State.unsettled, hp] at hkept
  dsimp only at hkept
  have hqueued := h.queued_cons hopen
  rw [← h.handed handed hp] at hqueued
  rw [proceed, hp]
  dsimp only
  refine ⟨h.queue, fun _ => hopen, (fun b hb => nomatch hb), ?_, ?_, (fun hp => nomatch hp)⟩
  · dsimp only
    rw [settled_append, State.unsettled, hkept]
    dsimp only
    split
    · rw [List.append_nil]
      rfl
    · change _ = _ ++ [handed] ++ (s.queued k).tail
      rw [hqueued, List.tail_cons, List.append_assoc, List.singleton_append]
  · refine h.inTurn.append ?_ ret
    rw [hkept, List.getElem?_append_right (Nat.le_refl _), Nat.sub_self, hqueued]
    rfl

/-- A busy storer leaves the chunk open for the next call; otherwise it is closed. -/
theorem Sound.answered (h : Sound k s) {ret : Except RetCode Unit} (hp : s.place = .answered ret)
    (ret' : Except RetCode Unit) : Sound k (proceed k s ret') := by
  have hopen := h.reading (by rw [hp]; trivial)
  have hkept := h.kept
  rw [State.unsettled, hp] at hkept
  dsimp only at hkept
  rw [proceed, hp]
  dsimp only
  split
  · rename_i hbusy
    rw [if_pos hbusy] at hkept
    exact ⟨h.queue, fun hc => hc.elim, (fun b hb => nomatch hb), hkept, h.inTurn,
      fun _ _ => Nat.succ_pos _⟩
  · rename_i hdone
    obtain ⟨q, hq⟩ := h.queue
    rw [if_neg hdone, h.queued_cons hopen, List.tail_cons] at hkept
    exact ⟨⟨_, hq.readClose []⟩, fun hc => hc.elim, (fun b hb => nomatch hb), hkept, h.inTurn,
      (fun hp => nomatch hp)⟩

theorem Sound.proceed (h : Sound k s) (ret : Except RetCode Unit) :
    Sound k (proceed k s ret) := by
  cases hp : s.place with
  | idle =>
    rw [Processing.proceed, hp]
    exact h
  | opening => exact h.readOpen hp ret
  | opened => exact h.reduce hp ret
  | storing handed => exact h.store hp ret
  | answered ret' => exact h.answered hp ret

/-! ## Runs -/

theorem Sound.step (h : Sound k s) (a : Action α) : Sound k (step k s a) := by
  cases a with
  | writeOpen => exact h.writeOpen
  | work f => exact h.work f
  | commit => exact h.commit
  | dispatch => exact h.dispatch
  | proceed ret => exact h.proceed ret

theorem Sound.run (h : Sound k s) (actions : List (Action α)) :
    Sound k (run (Processing.step k) s actions) :=
  run_invariant (fun _ a hs _ => hs.step a) h (Along.of_forall (fun _ _ => trivial) actions)

/-- The chunks that were stored or rejected are the first ones that the FIFO took, each
once and in order, and the others wait; every attempt for a chunk hands over the same; and
while chunks wait, the scheduler holds an event unless a call of the function runs. -/
structure Delivered (k : ChunkKind α β) (s : State α β) : Prop where
  in_order : settled s.attempts <+: s.committed.map k.form
  none_lost : s.committed.map k.form = settled s.attempts ++ s.unsettled k
  same_contents : InTurn (s.committed.map k.form) s.attempts
  event_pending : ChunkFifo.waiting k.fifo s.fifo ≠ [] → 0 < s.events ∨ s.place ≠ .idle

/-- Whatever the sampling commits and the storer answers. -/
theorem chunks_delivered_in_order (k : ChunkKind α β) (chunkAt : Nat → α)
    (actions : List (Action α)) : Delivered k (run (step k) (init chunkAt) actions) := by
  have h := (Sound.init k chunkAt).run actions
  refine ⟨⟨_, h.kept.symm⟩, h.kept, h.inTurn, fun hne => ?_⟩
  by_cases hp : (run (step k) (init chunkAt) actions).place = .idle
  · exact .inl (h.awake hp hne)
  · exact .inr hp

/-- A battery chunk of the given second. -/
def batteryChunk (seconds : UInt32) : BatteryChunk := ⟨⟨seconds, 0⟩, 0⟩

def commitBattery (seconds : UInt32) : List (Action BatteryChunk) :=
  [.writeOpen, .work fun _ => batteryChunk seconds, .commit]

/-- Three commits before the processing runs, and one after it: the FIFO has room for two
chunks. -/
def batteryCommits : List (Action BatteryChunk) :=
  commitBattery 1 ++ commitBattery 2 ++ commitBattery 3 ++ [.dispatch] ++
    List.replicate 9 (.proceed (.ok ())) ++ commitBattery 4 ++ [.dispatch] ++
    List.replicate 5 (.proceed (.ok ()))

/-- The third chunk is closed and its event is put, but it is never stored. -/
theorem full_fifo_drops_chunk :
    (run (step processBatteryChunk) (init fun _ => batteryChunk 0) batteryCommits).closed =
        [batteryChunk 1, batteryChunk 2, batteryChunk 3, batteryChunk 4] ∧
      settled (run (step processBatteryChunk) (init fun _ => batteryChunk 0)
        batteryCommits).attempts = [batteryChunk 1, batteryChunk 2, batteryChunk 4] ∧
      ¬ settled (run (step processBatteryChunk) (init fun _ => batteryChunk 0)
          batteryCommits).attempts <+:
        (run (step processBatteryChunk) (init fun _ => batteryChunk 0)
          batteryCommits).closed.map processBatteryChunk.form := by
  decide +kernel

end OpenBadge.Processing
