import OpenBadge.Sampling.Reports
import OpenBadge.Sampling.Timers

/-!
# The scan chunk over whole runs

A run carries the list of all reports and, for every slot of the chunk FIFO, how many
reports had come when its chunk was set up. What a report or the end of a scan works on
is the open chunk, as long as the SoftDevice reports only on the scan that runs and
sampling is not switched on in the middle of a scan that has no chunk.
-/

namespace OpenBadge.Sampling

open OpenBadge.Lib

/-- The badge with the reports so far and their number at the last set-up of each slot. -/
structure ScanRun where
  state : State
  log : List Report
  since : Nat → Nat

def ScanRun.init (accel : Accel.State) (timerFaults : Nat → Bool)
    (ranOut : Nat → Source → Bool → Bool) : ScanRun :=
  ⟨Sampling.init accel timerFaults ranOut, [], fun _ => 0⟩

def ScanRun.step (w : ScanRun) (a : ScanAction) : ScanRun where
  state := scanStep w.state a
  log :=
    match a with
    | .report r => w.log ++ [r]
    | _ => w.log
  since :=
    match a with
    | .timerExpires _ =>
      if w.state.configuration .scan false then
        Function.update w.since
          (ChunkFifo.writeOpen (chunkFifo .scan) (w.state.fifos .scan)).writePtr w.log.length
      else w.since
    | _ => w.since

/-- The state in which a report or the end of a scan works on `*scan_sampling_chunk`, if
the action comes to that. -/
def scanChunkAccess (s : State) : ScanAction → Option State
  | .report r =>
    if r.group = s.scanParameters.groupFilter ∧ s.configuration .scan false = true then some s
    else none
  | .scanEnds => if s.configuration .scan false = true then some s else none
  | .timerExpires accepted =>
    if accepted = false ∧ s.configuration .scan false = true then some (afterSetup s) else none
  | _ => none

/-- `scan_sampling_chunk` is the chunk that is open for writing. -/
def ChunkOpen (s : State) : Prop :=
  (s.fifos .scan).chunkOpenWrite = true ∧ s.chunks .scan = some (s.fifos .scan).writePtr

/-- The offsets of the committed chunks that were not yet read. -/
def State.committed (s : State) : List Nat := ChunkFifo.waiting (chunkFifo .scan) (s.fifos .scan)

/-- An action works on the open chunk only, leaves the committed chunks as they are, and
each chunk that is committed after it is made of reports since its set-up. -/
def KeepsChunks (w : ScanRun) (a : ScanAction) : Prop :=
  (∀ t, scanChunkAccess w.state a = some t → ChunkOpen t) ∧
    (∀ ptr ∈ w.state.committed, (w.step a).state.scanChunkAt ptr = w.state.scanChunkAt ptr) ∧
    ∀ ptr ∈ (w.step a).state.committed,
      FromReports ((w.step a).log.drop ((w.step a).since ptr)) ((w.step a).state.scanChunkAt ptr)

/-- Sampling is not switched on while a scan runs that has no chunk open. -/
def NotAmidScan (w : ScanRun) : ScanAction → Prop
  | .start r => r.streaming = false → w.state.configuration .scan false = false →
      w.state.scanning = true → (w.state.fifos .scan).chunkOpenWrite = true
  | _ => True

instance (w : ScanRun) (a : ScanAction) : Decidable (NotAmidScan w a) := by
  unfold NotAmidScan
  split <;> infer_instance

/-- What the SoftDevice promises: reports that are sampled and the end of a sampled scan are
handled while a scan runs, started and accepted by the last timer, and neither stopped nor
ended since. -/
def OfRunningScan (w : ScanRun) : ScanAction → Prop
  | .report r => r.group = w.state.scanParameters.groupFilter →
      w.state.configuration .scan false = true → w.state.scanning = true
  | .scanEnds => w.state.configuration .scan false = true → w.state.scanning = true
  | _ => True

instance (w : ScanRun) (a : ScanAction) : Decidable (OfRunningScan w a) := by
  unfold OfRunningScan
  split <;> infer_instance

/-- Nothing else writes to the chunks, but for the set-up of the one that is opened. -/
theorem scanChunkAt_of_no_access {s : State} {a : ScanAction} (h : scanChunkAccess s a = none)
    {ptr : Nat} (hptr : ptr ≠ (ChunkFifo.writeOpen (chunkFifo .scan) (s.fifos .scan)).writePtr) :
    (scanStep s a).scanChunkAt ptr = s.scanChunkAt ptr := by
  have hcalls : ∀ x : M Unit, Proc.Keeps (fun t => t.scanView.chunkAt = s.scanChunkAt) x →
      (x s).2.scanChunkAt ptr = s.scanChunkAt ptr := fun x hx => congrFun (hx s rfl) ptr
  have hends : ∀ t : State, t.configuration .scan false ≠ true →
      (onScanTimeoutCallback t).2.scanChunkAt ptr = t.scanChunkAt ptr := by
    intro t ht
    rw [onScanTimeoutCallback, Proc.get_bind_apply, Proc.when_neg ht]
    rfl
  cases a with
  | start r => exact hcalls _ (keeps_startScan (J := fun v => v.chunkAt = s.scanChunkAt)
      (fun _ hv => hv) (fun _ hv => hv) fun _ _ hv => hv)
  | stop streaming => exact hcalls _ (keeps_stop_view (J := fun v => v.chunkAt = s.scanChunkAt)
      (fun _ hv => hv) (fun _ hv => hv) .scan streaming)
  | timeout streaming =>
    exact hcalls _ (keeps_timeoutScan (J := fun v => v.chunkAt = s.scanChunkAt)
      (fun _ hv => hv) (fun _ hv => hv) streaming)
  | timerExpires accepted =>
    have hsetup : (afterSetup s).scanChunkAt ptr = s.scanChunkAt ptr := by
      rw [afterSetup]
      split
      · have hview := congrArg ScanView.chunkAt (scanView_setup s)
        exact (congrFun hview ptr).trans (Function.update_of_ne hptr _ _)
      · rfl
    change (scanCallback accepted s).2.scanChunkAt ptr = _
    rw [scanCallback_eq]
    cases accepted with
    | true =>
      rw [if_pos rfl]
      exact hsetup
    | false =>
      have hset : s.configuration .scan false ≠ true := fun hc => by
        rw [scanChunkAccess, if_pos ⟨rfl, hc⟩] at h
        cases h
      have hafter : afterSetup s = s := if_neg hset
      rw [if_neg (by decide), hafter]
      exact hends _ hset
  | report r =>
    have hview := scanView_onScanReportCallback r s
    rw [if_neg fun hc => by cases (if_pos hc).symm.trans h] at hview
    exact congrFun (congrArg ScanView.chunkAt hview) ptr
  | scanEnds =>
    have hset : s.configuration .scan false ≠ true := fun hc => by
      rw [scanChunkAccess, if_pos hc] at h
      cases h
    exact hends { s with scanning := false } hset
  | readOpen => rfl
  | readClose => rfl

/-! ## The invariant -/

/-- What holds of the six parts, the reports and the set-ups. -/
structure Orderly (log : List Report) (since : Nat → Nat) (v : ScanView) : Prop where
  queue : ∃ q, ChunkFifo.Refines (chunkFifo .scan) v.fifo q
  chunk : v.fifo.chunkOpenWrite = true → v.chunk = some v.fifo.writePtr
  scanning : v.scanning = true → v.sampling = true → v.fifo.chunkOpenWrite = true
  since_le : ∀ ptr, since ptr ≤ log.length
  draft : v.fifo.chunkOpenWrite = true →
    Built (log.drop (since v.fifo.writePtr)) (v.chunkAt v.fifo.writePtr) v.aggregated
  committed : ∀ ptr ∈ ChunkFifo.waiting (chunkFifo .scan) v.fifo,
    FromReports (log.drop (since ptr)) (v.chunkAt ptr)

section Invariant

variable {log : List Report} {since : Nat → Nat} {v : ScanView}

theorem slotSize_pos : 0 < (chunkFifo .scan).slotSize := by decide

/-- The bits of scanning and sampling may change within the third part. -/
theorem Orderly.of_bits (h : Orderly log since v) {sampling scanning : Bool}
    (hscan : scanning = true → sampling = true → v.fifo.chunkOpenWrite = true) :
    Orderly log since { v with sampling, scanning } :=
  ⟨h.queue, h.chunk, hscan, h.since_le, h.draft, h.committed⟩

theorem Orderly.writePtr_not_committed (h : Orderly log since v)
    (hopen : v.fifo.chunkOpenWrite = true) :
    v.fifo.writePtr ∉ ChunkFifo.waiting (chunkFifo .scan) v.fifo := by
  obtain ⟨q, hq⟩ := h.queue
  exact hq.writePtr_not_mem_waiting slotSize_pos hopen

theorem drop_append_of_le (h : ∀ ptr, since ptr ≤ log.length) (r : Report) (ptr : Nat) :
    (log ++ [r]).drop (since ptr) = log.drop (since ptr) ++ [r] :=
  List.drop_append_of_le_length (h ptr)

theorem Orderly.ignored (h : Orderly log since v) (r : Report) : Orderly (log ++ [r]) since v := by
  refine ⟨h.queue, h.chunk, h.scanning, ?_, ?_, ?_⟩
  · intro ptr
    rw [List.length_append]
    exact (h.since_le ptr).trans (Nat.le_add_right ..)
  · intro hopen
    rw [drop_append_of_le h.since_le]
    exact (h.draft hopen).ignored r
  · intro ptr hptr
    rw [drop_append_of_le h.since_le]
    exact (h.committed ptr hptr).ignored r

/-- Work behind the pointer of the open chunk. -/
theorem work_of_open (f : List ScanResult → (Nat → Int) → List ScanResult × (Nat → Int))
    {ptr : Nat} (h : v.chunk = some ptr) :
    v.work f = { v with
      chunkAt := Function.update v.chunkAt ptr (f (v.chunkAt ptr) v.aggregated).1
      aggregated := (f (v.chunkAt ptr) v.aggregated).2 } := by
  simp only [ScanView.work, h]

theorem Orderly.added (h : Orderly log since v) (hopen : v.fifo.chunkOpenWrite = true)
    (aggregationType : UInt8) (r : Report) :
    Orderly (log ++ [r]) since (v.work (addReport aggregationType r)) ∧
      ∀ ptr ∈ ChunkFifo.waiting (chunkFifo .scan) v.fifo,
        (v.work (addReport aggregationType r)).chunkAt ptr = v.chunkAt ptr := by
  have hsame : ∀ ptr ∈ ChunkFifo.waiting (chunkFifo .scan) v.fifo, ptr ≠ v.fifo.writePtr := by
    rintro ptr hptr rfl
    exact h.writePtr_not_committed hopen hptr
  rw [work_of_open _ (h.chunk hopen)]
  refine ⟨⟨h.queue, h.chunk, h.scanning, (h.ignored r).since_le, ?_, ?_⟩, ?_⟩
  · intro _
    dsimp only
    rw [drop_append_of_le h.since_le, Function.update_self]
    exact (h.draft hopen).added aggregationType r
  · intro ptr hptr
    dsimp only
    rw [Function.update_of_ne (hsame ptr hptr)]
    exact (h.ignored r).committed ptr hptr
  · intro ptr hptr
    exact Function.update_of_ne (hsame ptr hptr) _ _

/-- Setting a chunk up opens the slot at the write position, which waits for no reader. -/
theorem Orderly.setup (h : Orderly log since v) :
    Orderly log (Function.update since v.opened.fifo.writePtr log.length) v.setup ∧
      v.setup.fifo.chunkOpenWrite = true ∧
      ∀ ptr ∈ ChunkFifo.waiting (chunkFifo .scan) v.fifo, v.setup.chunkAt ptr = v.chunkAt ptr := by
  obtain ⟨q, hq⟩ := h.queue
  have hopened := hq.writeOpen
  have hsame : ∀ ptr ∈ ChunkFifo.waiting (chunkFifo .scan) v.fifo,
      ptr ≠ v.opened.fifo.writePtr := by
    rintro ptr hptr rfl
    exact hopened.writePtr_not_mem_waiting slotSize_pos rfl hptr
  rw [ScanView.setup, work_of_open _ (show v.opened.chunk = some v.opened.fifo.writePtr from rfl)]
  refine ⟨⟨⟨_, hopened⟩, fun _ => rfl, fun _ _ => rfl, ?_, ?_, ?_⟩, rfl, ?_⟩
  · intro ptr
    by_cases hptr : ptr = v.opened.fifo.writePtr
    · rw [hptr, Function.update_self]
    · rw [Function.update_of_ne hptr]
      exact h.since_le ptr
  · intro _
    dsimp only
    rw [Function.update_self, Function.update_self, List.drop_length]
    exact .setup _
  · intro ptr hptr
    dsimp only
    rw [Function.update_of_ne (hsame ptr hptr), Function.update_of_ne (hsame ptr hptr)]
    exact h.committed ptr hptr
  · intro ptr hptr
    exact Function.update_of_ne (hsame ptr hptr) _ _

/-- At the end of a scan the open chunk is processed and committed. -/
theorem Orderly.finalize (h : Orderly log since v) (hopen : v.fifo.chunkOpenWrite = true)
    (hscan : v.scanning = false) (aggregationType : UInt8) :
    Orderly log since (v.finalize aggregationType) ∧
      ∀ ptr ∈ ChunkFifo.waiting (chunkFifo .scan) v.fifo,
        (v.finalize aggregationType).chunkAt ptr = v.chunkAt ptr := by
  obtain ⟨q, hq⟩ := h.queue
  have hclosed : (ChunkFifo.writeClose (chunkFifo .scan) v.fifo).chunkOpenWrite = false := by
    rw [ChunkFifo.writeClose, if_neg (by rw [hopen]; decide)]
    dsimp only
    split <;> rfl
  have hsame : ∀ ptr ∈ ChunkFifo.waiting (chunkFifo .scan) v.fifo, ptr ≠ v.fifo.writePtr := by
    rintro ptr hptr rfl
    exact h.writePtr_not_committed hopen hptr
  rw [ScanView.finalize, work_of_open _ (h.chunk hopen), ScanView.closed]
  dsimp only
  refine ⟨⟨⟨_, hq.writeClose []⟩, fun ho => ?_, fun hs => ?_, h.since_le, fun ho => ?_, ?_⟩, ?_⟩
  · exact absurd (hclosed.symm.trans ho) (by decide)
  · exact absurd (hscan.symm.trans hs) (by decide)
  · exact absurd (hclosed.symm.trans ho) (by decide)
  · intro ptr hptr
    dsimp only
    rcases hq.mem_waiting_writeClose hptr with hold | ⟨-, rfl⟩
    · rw [Function.update_of_ne (hsame ptr hold)]
      exact h.committed ptr hold
    · rw [Function.update_self]
      exact ⟨aggregationType, _, _, h.draft hopen, rfl⟩
  · intro ptr hptr
    exact Function.update_of_ne (hsame ptr hptr) _ _

theorem Orderly.readOpen (h : Orderly log since v) :
    Orderly log since { v with fifo := (ChunkFifo.readOpen (chunkFifo .scan) v.fifo).2 } := by
  obtain ⟨q, hq⟩ := h.queue
  have hread := (hq.readOpen []).1
  by_cases hne : v.fifo.chunkReadPos ≠ v.fifo.chunkWritePos
  · have heq : (ChunkFifo.readOpen (chunkFifo .scan) v.fifo).2 =
        { v.fifo with
          readPtr := ChunkFifo.slotPtr (chunkFifo .scan) v.fifo.chunkReadPos
          chunkOpenRead := true } := by
      rw [ChunkFifo.readOpen, if_pos hne]
    rw [heq] at hread ⊢
    exact ⟨⟨_, hread⟩, h.chunk, h.scanning, h.since_le, h.draft, h.committed⟩
  · have heq : (ChunkFifo.readOpen (chunkFifo .scan) v.fifo).2 = v.fifo := by
      rw [ChunkFifo.readOpen, if_neg hne]
    rw [heq]
    exact h

theorem Orderly.readClose (h : Orderly log since v) :
    Orderly log since { v with fifo := ChunkFifo.readClose (chunkFifo .scan) v.fifo } := by
  obtain ⟨q, hq⟩ := h.queue
  have hread := hq.readClose []
  have hwrite := ChunkFifo.readClose_write (chunkFifo .scan) v.fifo
  refine ⟨⟨_, hread⟩, ?_, ?_, h.since_le, ?_, ?_⟩
  · dsimp only
    rw [hwrite.1, hwrite.2]
    exact h.chunk
  · dsimp only
    rw [hwrite.1]
    exact h.scanning
  · dsimp only
    rw [hwrite.1, hwrite.2]
    exact h.draft
  · intro ptr hptr
    exact h.committed ptr (hq.mem_waiting_readClose hptr)

end Invariant

/-! ## Runs -/

section Runs

variable {w : ScanRun}

/-- The invariant of a run. -/
def InOrder (w : ScanRun) : Prop := Orderly w.log w.since w.state.scanView

theorem chunkOpen_of_orderly {log : List Report} {since : Nat → Nat} {s : State}
    (h : Orderly log since s.scanView) (hopen : (s.fifos .scan).chunkOpenWrite = true) :
    ChunkOpen s := ⟨hopen, h.chunk hopen⟩

/-- An action after which the invariant holds keeps the chunks if it works on an open
chunk and leaves the committed ones. -/
theorem keepsChunks_of_inOrder {a : ScanAction} (h : InOrder (w.step a))
    (haccess : ∀ t, scanChunkAccess w.state a = some t → ChunkOpen t)
    (hsame : ∀ ptr ∈ w.state.committed,
      (w.step a).state.scanChunkAt ptr = w.state.scanChunkAt ptr) :
    KeepsChunks w a := ⟨haccess, hsame, h.committed⟩

/-- The calls that start and stop do not touch the memory of the chunks. -/
theorem inOrder_of_keeps {x : M Unit} {s : State} {log : List Report} {since : Nat → Nat}
    (h : Orderly log since s.scanView)
    (hx : Proc.Keeps
      (fun t => Orderly log since t.scanView ∧ t.scanView.chunkAt = s.scanChunkAt) x) :
    Orderly log since (x s).2.scanView ∧ (x s).2.scanChunkAt = s.scanChunkAt := hx s ⟨h, rfl⟩

theorem keeps_orderly_stop {log : List Report} {since : Nat → Nat}
    {chunkAt : Nat → List ScanResult} {v : ScanView}
    (h : Orderly log since v ∧ v.chunkAt = chunkAt) :
    Orderly log since { v with scanning := false } ∧ v.chunkAt = chunkAt :=
  ⟨h.1.of_bits fun hs => absurd hs (by decide), h.2⟩

theorem keeps_orderly_clear {log : List Report} {since : Nat → Nat}
    {chunkAt : Nat → List ScanResult} {v : ScanView}
    (h : Orderly log since v ∧ v.chunkAt = chunkAt) :
    Orderly log since { v with sampling := false } ∧ v.chunkAt = chunkAt :=
  ⟨h.1.of_bits fun _ hs => absurd hs (by decide), h.2⟩

theorem inOrder_start (h : InOrder w) {r : ScanRequest} (hr : NotAmidScan w (.start r)) :
    Orderly w.log w.since (startScan r w.state).2.scanView ∧
      (startScan r w.state).2.scanChunkAt = w.state.scanChunkAt := by
  -- A request for sampling sets the bit; the chunk of a running scan is open then.
  have hopen : r.streaming = false → w.state.scanning = true →
      (w.state.fifos .scan).chunkOpenWrite = true := by
    intro hstreaming hscan
    by_cases hset : w.state.configuration .scan false = false
    · exact hr hstreaming hset hscan
    · exact h.scanning hscan (Bool.eq_true_of_not_eq_false hset)
  have hkeeps := keeps_startScan (r := r)
    (J := fun v => (Orderly w.log w.since v ∧ v.chunkAt = w.state.scanChunkAt) ∧
      (r.streaming = false → v.scanning = true → v.fifo.chunkOpenWrite = true))
    (fun v hv => ⟨keeps_orderly_stop hv.1, fun _ hs => absurd hs Bool.false_ne_true⟩)
    (fun v hv => ⟨keeps_orderly_clear hv.1, hv.2⟩)
    fun hstreaming v hv =>
      ⟨⟨hv.1.1.of_bits fun hscan _ => hv.2 hstreaming hscan, hv.1.2⟩, hv.2⟩
  exact (hkeeps w.state ⟨⟨h, rfl⟩, hopen⟩).1

theorem step_start (h : InOrder w) {r : ScanRequest} (hr : NotAmidScan w (.start r)) :
    InOrder (w.step (.start r)) ∧ KeepsChunks w (.start r) := by
  obtain ⟨horder, hsame⟩ := inOrder_start h hr
  refine ⟨horder, keepsChunks_of_inOrder horder (fun _ ht => by cases ht) fun ptr _ => ?_⟩
  exact congrFun hsame ptr

theorem step_stop (h : InOrder w) (streaming : Bool) :
    InOrder (w.step (.stop streaming)) ∧ KeepsChunks w (.stop streaming) := by
  obtain ⟨horder, hsame⟩ := inOrder_of_keeps h
    (keeps_stop_view (J := fun v => Orderly w.log w.since v ∧ v.chunkAt = w.state.scanChunkAt)
      (fun _ => keeps_orderly_stop) (fun _ => keeps_orderly_clear) .scan streaming)
  refine ⟨horder, keepsChunks_of_inOrder horder (fun _ ht => by cases ht) fun ptr _ => ?_⟩
  exact congrFun hsame ptr

theorem step_timeout (h : InOrder w) (streaming : Bool) :
    InOrder (w.step (.timeout streaming)) ∧ KeepsChunks w (.timeout streaming) := by
  obtain ⟨horder, hsame⟩ := inOrder_of_keeps h
    (keeps_timeoutScan (J := fun v => Orderly w.log w.since v ∧ v.chunkAt = w.state.scanChunkAt)
      (fun _ => keeps_orderly_stop) (fun _ => keeps_orderly_clear) streaming)
  refine ⟨horder, keepsChunks_of_inOrder horder (fun _ ht => by cases ht) fun ptr _ => ?_⟩
  exact congrFun hsame ptr

theorem step_report (h : InOrder w) {r : Report} (hr : OfRunningScan w (.report r)) :
    InOrder (w.step (.report r)) ∧ KeepsChunks w (.report r) := by
  have hview : (w.step (.report r)).state.scanView = _ := scanView_onScanReportCallback r w.state
  by_cases hadd : r.group = w.state.scanParameters.groupFilter ∧ w.state.scanView.sampling = true
  · have hopen := h.scanning (hr hadd.1 hadd.2) hadd.2
    obtain ⟨horder, hsame⟩ := h.added hopen w.state.scanParameters.aggregationType r
    rw [if_pos hadd] at hview
    rw [← hview] at horder hsame
    refine ⟨horder, keepsChunks_of_inOrder horder (fun t ht => ?_) hsame⟩
    cases (if_pos hadd).symm.trans ht
    exact chunkOpen_of_orderly h hopen
  · rw [if_neg hadd] at hview
    have horder : InOrder (w.step (.report r)) := by
      rw [InOrder, hview]
      exact h.ignored r
    refine ⟨horder, keepsChunks_of_inOrder horder (fun t ht => ?_) fun ptr _ => ?_⟩
    · cases (if_neg hadd).symm.trans ht
    · exact congrFun (congrArg ScanView.chunkAt hview) ptr

/-- The end of a scan, also of one that was not accepted. -/
theorem inOrder_onScanTimeoutCallback {log : List Report} {since : Nat → Nat} {s : State}
    (h : Orderly log since s.scanView) (hscan : s.scanning = false)
    (hopen : s.configuration .scan false = true → (s.fifos .scan).chunkOpenWrite = true) :
    Orderly log since (onScanTimeoutCallback s).2.scanView ∧
      ∀ ptr ∈ s.committed, (onScanTimeoutCallback s).2.scanChunkAt ptr = s.scanChunkAt ptr := by
  have hview := scanView_onScanTimeoutCallback s
  by_cases hset : s.scanView.sampling = true
  · rw [if_pos hset] at hview
    obtain ⟨horder, hsame⟩ := h.finalize (hopen hset) hscan s.scanParameters.aggregationType
    rw [← hview] at horder hsame
    exact ⟨horder, hsame⟩
  · rw [if_neg hset] at hview
    rw [hview]
    exact ⟨h, fun ptr _ => congrFun (congrArg ScanView.chunkAt hview) ptr⟩

theorem step_scanEnds (h : InOrder w) (hends : OfRunningScan w .scanEnds) :
    InOrder (w.step .scanEnds) ∧ KeepsChunks w .scanEnds := by
  have hopen : w.state.configuration .scan false = true →
      (w.state.fifos .scan).chunkOpenWrite = true := fun hset => h.scanning (hends hset) hset
  have hstopped : Orderly w.log w.since
      ({ w.state with scanning := false } : State).scanView :=
    h.of_bits fun hs => absurd hs Bool.false_ne_true
  obtain ⟨horder, hsame⟩ := inOrder_onScanTimeoutCallback hstopped rfl hopen
  refine ⟨horder, keepsChunks_of_inOrder horder (fun t ht => ?_) hsame⟩
  rw [scanChunkAccess] at ht
  split at ht
  · next hset =>
    cases ht
    exact chunkOpen_of_orderly h (hopen hset)
  · cases ht

theorem step_timerExpires (h : InOrder w) (accepted : Bool) :
    InOrder (w.step (.timerExpires accepted)) ∧ KeepsChunks w (.timerExpires accepted) := by
  -- With sampling switched on a chunk is set up first.
  have hsetup : Orderly w.log (w.step (.timerExpires accepted)).since (afterSetup w.state).scanView ∧
      (w.state.configuration .scan false = true →
        ((afterSetup w.state).fifos .scan).chunkOpenWrite = true) ∧
      (afterSetup w.state).configuration .scan false = w.state.configuration .scan false ∧
      (afterSetup w.state).committed = w.state.committed ∧
      ∀ ptr ∈ w.state.committed, (afterSetup w.state).scanChunkAt ptr = w.state.scanChunkAt ptr := by
    have hsince : (w.step (.timerExpires accepted)).since =
        if w.state.configuration .scan false then
          Function.update w.since
            (ChunkFifo.writeOpen (chunkFifo .scan) (w.state.fifos .scan)).writePtr w.log.length
        else w.since := rfl
    rw [hsince, afterSetup]
    by_cases hset : w.state.configuration .scan false = true
    · rw [if_pos hset, if_pos hset]
      obtain ⟨horder, hopen, hsame⟩ := h.setup
      have hview := scanView_setup w.state
      rw [← hview] at horder hopen hsame
      have hchunk : w.state.scanView.setup.sampling = w.state.configuration .scan false ∧
          ChunkFifo.waiting (chunkFifo .scan) w.state.scanView.setup.fifo = w.state.committed :=
        ⟨rfl, rfl⟩
      rw [← hview] at hchunk
      exact ⟨horder, fun _ => hopen, hchunk.1, hchunk.2, hsame⟩
    · rw [if_neg hset, if_neg hset]
      exact ⟨h, fun hc => absurd hc hset, rfl, rfl, fun _ _ => rfl⟩
  obtain ⟨hbefore, hopen, hconf, hcommitted, hsame⟩ := hsetup
  have hstep : (w.step (.timerExpires accepted)).state = (scanCallback accepted w.state).2 := rfl
  rw [scanCallback_eq] at hstep
  cases accepted with
  | true =>
    rw [if_pos rfl] at hstep
    have horder : InOrder (w.step (.timerExpires true)) := by
      rw [InOrder, hstep]
      exact hbefore.of_bits fun _ hs => hopen (hconf.symm.trans hs)
    refine ⟨horder, keepsChunks_of_inOrder horder (fun t ht => ?_) ?_⟩
    · rw [scanChunkAccess, if_neg fun hc => absurd hc.1 (by decide)] at ht
      cases ht
    · rw [hstep]
      exact hsame
  | false =>
    rw [if_neg (by decide)] at hstep
    have hstopped : Orderly w.log (w.step (.timerExpires false)).since
        ({ afterSetup w.state with scanning := false } : State).scanView :=
      hbefore.of_bits fun hs => absurd hs Bool.false_ne_true
    obtain ⟨horder, hsame'⟩ := inOrder_onScanTimeoutCallback hstopped rfl
      fun hc => hopen (hconf.symm.trans hc)
    rw [← hstep] at horder hsame'
    refine ⟨horder, keepsChunks_of_inOrder horder (fun t ht => ?_) fun ptr hptr => ?_⟩
    · rw [scanChunkAccess] at ht
      split at ht
      · next hc =>
        cases ht
        exact chunkOpen_of_orderly hbefore (hopen hc.2)
      · cases ht
    · have hmem : ptr ∈ (afterSetup w.state).committed := by
        rw [hcommitted]
        exact hptr
      exact (hsame' ptr hmem).trans (hsame ptr hptr)

theorem step_readOpen (h : InOrder w) :
    InOrder (w.step .readOpen) ∧ KeepsChunks w .readOpen := by
  have hview : (w.step .readOpen).state.scanView = { w.state.scanView with
      fifo := (ChunkFifo.readOpen (chunkFifo .scan) w.state.scanView.fifo).2 } := by
    simp only [ScanRun.step, scanStep, scanExec, onScanFifo, Proc.modify_apply, State.scanView,
      Function.update_self]
  have horder : InOrder (w.step .readOpen) := by
    rw [InOrder, hview]
    exact h.readOpen
  exact ⟨horder, keepsChunks_of_inOrder horder (fun _ ht => by cases ht) fun _ _ => rfl⟩

theorem step_readClose (h : InOrder w) :
    InOrder (w.step .readClose) ∧ KeepsChunks w .readClose := by
  have hview : (w.step .readClose).state.scanView = { w.state.scanView with
      fifo := ChunkFifo.readClose (chunkFifo .scan) w.state.scanView.fifo } := by
    simp only [ScanRun.step, scanStep, scanExec, onScanFifo, Proc.modify_apply, State.scanView,
      Function.update_self]
  have horder : InOrder (w.step .readClose) := by
    rw [InOrder, hview]
    exact h.readClose
  exact ⟨horder, keepsChunks_of_inOrder horder (fun _ ht => by cases ht) fun _ _ => rfl⟩

/-- Each action keeps the invariant and the chunks. -/
theorem step_inOrder (h : InOrder w) {a : ScanAction} (ha : NotAmidScan w a)
    (hscan : OfRunningScan w a) : InOrder (w.step a) ∧ KeepsChunks w a := by
  cases a with
  | start r => exact step_start h ha
  | stop streaming => exact step_stop h streaming
  | timeout streaming => exact step_timeout h streaming
  | timerExpires accepted => exact step_timerExpires h accepted
  | report r => exact step_report h hscan
  | scanEnds => exact step_scanEnds h hscan
  | readOpen => exact step_readOpen h
  | readClose => exact step_readClose h

theorem inOrder_init (accel : Accel.State) (timerFaults : Nat → Bool)
    (ranOut : Nat → Source → Bool → Bool) : InOrder (.init accel timerFaults ranOut) := by
  have hclosed : ∀ p : Prop,
      ((init accel timerFaults ranOut).fifos .scan).chunkOpenWrite = true → p :=
    fun _ h => absurd h Bool.false_ne_true
  refine ⟨⟨_, ChunkFifo.refines_init _ _⟩, hclosed _, fun h => absurd h Bool.false_ne_true,
    fun _ => Nat.le_refl 0, hclosed _, ?_⟩
  intro ptr hptr
  exact absurd hptr List.not_mem_nil

/-- In every run from the initialisation on in which the SoftDevice reports on the running scan
and sampling is not switched on amid a scan without a chunk, all work is done on the open
chunk, no committed chunk changes, and each is made of reports since its own set-up. -/
theorem scan_chunks_kept (accel : Accel.State) (timerFaults : Nat → Bool)
    (ranOut : Nat → Source → Bool → Bool) (actions : List ScanAction)
    (hscanner : Along ScanRun.step OfRunningScan (.init accel timerFaults ranOut) actions)
    (h : Along ScanRun.step NotAmidScan (.init accel timerFaults ranOut) actions) :
    Along ScanRun.step KeepsChunks (.init accel timerFaults ranOut) actions := by
  have hinv := (h.and hscanner).strengthen (I := InOrder)
    (fun _ _ hw ha => (step_inOrder hw ha.1 ha.2).1) (inOrder_init accel timerFaults ranOut)
  exact hinv.mono fun _ _ hw => (step_inOrder hw.1 hw.2.1 hw.2.2).2

/-- Sampling is started before the scan. -/
theorem scan_chunks_kept_at_scan :
    Along ScanRun.step KeepsChunks (.init resetAccel (fun _ => false) fun _ _ _ => false)
      [.start ⟨0, 60, 100, 50, 10, 1, 0, false⟩, .timerExpires true, .report ⟨7, 1, -60⟩,
        .scanEnds] :=
  scan_chunks_kept _ _ _ _ (by decide +kernel) (by decide +kernel)

/-- Reports are streamed when sampling is started. The scan that runs has no chunk, and
a report is written through `NULL`; had an earlier scan been sampled, the report would
change its chunk, which waits for the reader. And the end of a scan that is handled when the
timer has started the next one commits the next one's chunk, which a report changes then. -/
theorem sampling_started_amid_scan :
    let stream : ScanAction := .start ⟨0, 60, 100, 50, 10, 1, 0, true⟩
    let sample : ScanAction := .start ⟨0, 60, 100, 50, 10, 1, 0, false⟩
    let w := run ScanRun.step (.init resetAccel (fun _ => false) fun _ _ _ => false)
      [stream, .timerExpires true, sample]
    let v := run ScanRun.step (.init resetAccel (fun _ => false) fun _ _ _ => false)
      [sample, stream, .timerExpires true, .report ⟨7, 1, -60⟩, .scanEnds, .stop false,
        .timerExpires true, sample]
    let u := run ScanRun.step (.init resetAccel (fun _ => false) fun _ _ _ => false)
      [sample, .timerExpires true, .timerExpires true, .scanEnds]
    (scanChunkAccess w.state (.report ⟨8, 1, -70⟩)).isSome = true ∧
      w.state.chunks .scan = none ∧ ¬ KeepsChunks w (.report ⟨8, 1, -70⟩) ∧
      v.state.committed = [0] ∧ v.state.scanChunkAt 0 = [⟨7, -60, 1⟩] ∧
      (v.step (.report ⟨8, 1, -70⟩)).state.scanChunkAt 0 = [⟨7, -60, 1⟩, ⟨8, 0, 1⟩] ∧
      u.state.committed = [0] ∧ u.state.scanChunkAt 0 = [] ∧
      (u.step (.report ⟨8, 1, -70⟩)).state.scanChunkAt 0 = [⟨8, 0, 1⟩] := by
  intro stream sample w v u
  have hwrites : (1 : UInt8) = w.state.scanParameters.groupFilter ∧
      w.state.configuration .scan false = true := by decide +kernel
  have hnull : w.state.chunks .scan = none := by decide +kernel
  have haccess : scanChunkAccess w.state (.report ⟨8, 1, -70⟩) = some w.state := by
    rw [scanChunkAccess]
    exact if_pos hwrites
  refine ⟨congrArg Option.isSome haccess, hnull, fun h => ?_, by decide +kernel,
    by decide +kernel, by decide +kernel, by decide +kernel, by decide +kernel, by decide +kernel⟩
  have hopen := (h.1 w.state haccess).2
  rw [hnull] at hopen
  cases hopen

end Runs

end OpenBadge.Sampling
