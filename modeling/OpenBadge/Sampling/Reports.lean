import OpenBadge.Fifo.ChunkQueue
import OpenBadge.Lib.Run
import OpenBadge.Sampling.Begin
import OpenBadge.Sampling.Scan

/-!
# Reports go into the open chunk

The scan functions act on six parts of the state. While sampling is not switched on in
the middle of a scan without a chunk, a running scan that is sampled has its chunk open,
and so reports and the end of a scan find it behind the pointer.
-/

namespace OpenBadge.Sampling

open OpenBadge.Lib

/-! ## Chunks made of reports -/

/-- The entries and the aggregated values after some of the reports, each with the
aggregation type of its time. -/
inductive Built : List Report → List ScanResult → (Nat → Int) → Prop
  | setup (aggregated : Nat → Int) : Built [] [] aggregated
  | ignored {rs : List Report} {chunk : List ScanResult} {aggregated : Nat → Int} (r : Report)
    (h : Built rs chunk aggregated) : Built (rs ++ [r]) chunk aggregated
  | added {rs : List Report} {chunk : List ScanResult} {aggregated : Nat → Int}
    (aggregationType : UInt8) (r : Report) (h : Built rs chunk aggregated) :
    Built (rs ++ [r]) (addReport aggregationType r chunk aggregated).1
      (addReport aggregationType r chunk aggregated).2

/-- The contents of a committed chunk. -/
def FromReports (rs : List Report) (chunk : List ScanResult) : Prop :=
  ∃ aggregationType built aggregated, Built rs built aggregated ∧
    chunk = processReports aggregationType built aggregated

theorem FromReports.ignored {rs : List Report} {chunk : List ScanResult} (r : Report)
    (h : FromReports rs chunk) : FromReports (rs ++ [r]) chunk := by
  obtain ⟨aggregationType, built, aggregated, hbuilt, rfl⟩ := h
  exact ⟨aggregationType, built, aggregated, hbuilt.ignored r, rfl⟩

/-- An entry counts a device that was reported as often at least. -/
def Counts (rs : List Report) (entry : ScanResult) : Prop :=
  0 < entry.count.toNat ∧ entry.count.toNat ≤ rs.countP fun r => r.id = entry.id

theorem Counts.append {rs : List Report} {entry : ScanResult} (h : Counts rs entry) (r : Report) :
    Counts (rs ++ [r]) entry := by
  refine ⟨h.1, h.2.trans ?_⟩
  rw [List.countP_append]
  exact Nat.le_add_right ..

theorem countP_append_of_id (rs : List Report) {r : Report} {id : UInt16} (h : id = r.id) :
    (rs ++ [r]).countP (fun r => r.id = id) = rs.countP (fun r => r.id = id) + 1 := by
  rw [List.countP_append, List.countP_singleton, if_pos (decide_eq_true h.symm)]

theorem counts_countReport {rs : List Report} {aggregationType : UInt8} {r : Report}
    {aggregated : Nat → Int} {i : Nat} {chunk : List ScanResult}
    {p : List ScanResult × (Nat → Int)} (h : ∀ entry ∈ chunk, Counts rs entry)
    (hp : countReport aggregationType r aggregated i chunk = some p) :
    ∀ entry ∈ p.1, Counts (rs ++ [r]) entry := by
  induction chunk generalizing i p with
  | nil => cases hp
  | cons entry rest ih =>
    have hentry := h entry (List.mem_cons_self ..)
    have hrest : ∀ e ∈ rest, Counts rs e := fun e he => h e (List.mem_cons_of_mem _ he)
    rw [countReport] at hp
    by_cases hid : entry.id = r.id
    · rw [if_pos hid] at hp
      by_cases hcount : entry.count < 255
      · rw [if_pos hcount] at hp
        cases hp
        intro e he
        rcases List.mem_cons.mp he with rfl | he
        · have hlt := UInt8.lt_iff_toNat_lt.mp hcount
          have hsucc : (entry.count + 1).toNat = entry.count.toNat + 1 := by
            rw [UInt8.toNat_add]
            exact Nat.mod_eq_of_lt (Nat.succ_lt_succ hlt)
          constructor
          · dsimp only
            omega
          · dsimp only
            rw [countP_append_of_id rs hid, hsucc]
            exact Nat.succ_le_succ hentry.2
        · exact (hrest e he).append r
      · rw [if_neg hcount] at hp
        cases hp
        exact fun e he => (h e he).append r
    · rw [if_neg hid, Option.map_eq_some_iff] at hp
      obtain ⟨q, hq, rfl⟩ := hp
      intro e he
      rcases List.mem_cons.mp he with rfl | he
      · exact hentry.append r
      · exact ih hrest hq e he

theorem counts_addReport {rs : List Report} (aggregationType : UInt8) {r : Report}
    {aggregated : Nat → Int} {chunk : List ScanResult} (h : ∀ entry ∈ chunk, Counts rs entry) :
    ∀ entry ∈ (addReport aggregationType r chunk aggregated).1, Counts (rs ++ [r]) entry := by
  rw [addReport]
  cases hp : countReport aggregationType r aggregated 0 chunk with
  | some p => exact counts_countReport h hp
  | none =>
    dsimp only
    split
    · intro entry he
      rcases List.mem_append.mp he with he | he
      · exact (h entry he).append r
      · rw [List.mem_singleton.mp he]
        refine ⟨Nat.one_pos, ?_⟩
        rw [countP_append_of_id rs (r := r) rfl]
        exact Nat.le_add_left ..
    · exact fun entry he => (h entry he).append r

theorem counts_of_built {rs : List Report} {chunk : List ScanResult} {aggregated : Nat → Int}
    (h : Built rs chunk aggregated) : ∀ entry ∈ chunk, Counts rs entry := by
  induction h with
  | setup aggregated => exact fun entry he => absurd he List.not_mem_nil
  | ignored r _ ih => exact fun entry he => (ih entry he).append r
  | added aggregationType r _ ih => exact counts_addReport aggregationType ih

/-- What is in a committed chunk was reported. -/
theorem counts_of_fromReports {rs : List Report} {chunk : List ScanResult}
    (h : FromReports rs chunk) : ∀ entry ∈ chunk, Counts rs entry := by
  obtain ⟨aggregationType, built, aggregated, hbuilt, rfl⟩ := h
  intro entry he
  obtain ⟨i, hi, rfl⟩ := List.mem_mapIdx.mp he
  have hcounts : Counts rs built[i] := counts_of_built hbuilt _ (List.getElem_mem hi)
  exact hcounts

/-! ## The parts of the state that the scanner's functions share -/

structure ScanView where
  sampling : Bool
  scanning : Bool
  fifo : ChunkFifo.State
  chunk : Option Nat
  chunkAt : Nat → List ScanResult
  aggregated : Nat → Int

def State.scanView (s : State) : ScanView :=
  { sampling := s.configuration .scan false
    scanning := s.scanning
    fifo := s.fifos .scan
    chunk := s.chunks .scan
    chunkAt := s.scanChunkAt
    aggregated := s.scanAggregatedRssi }

namespace ScanView

def work (f : List ScanResult → (Nat → Int) → List ScanResult × (Nat → Int)) (v : ScanView) :
    ScanView :=
  match v.chunk with
  | none => v
  | some ptr =>
    { v with
      chunkAt := Function.update v.chunkAt ptr (f (v.chunkAt ptr) v.aggregated).1
      aggregated := (f (v.chunkAt ptr) v.aggregated).2 }

def opened (v : ScanView) : ScanView :=
  let fifo := ChunkFifo.writeOpen (chunkFifo .scan) v.fifo
  { v with fifo, chunk := some fifo.writePtr }

def closed (v : ScanView) : ScanView :=
  { v with fifo := ChunkFifo.writeClose (chunkFifo .scan) v.fifo }

def setup (v : ScanView) : ScanView := v.opened.work fun _ aggregated => ([], aggregated)

def finalize (aggregationType : UInt8) (v : ScanView) : ScanView :=
  (v.work fun chunk aggregated =>
    (processReports aggregationType chunk aggregated, aggregated)).closed

end ScanView

section View

variable {s : State}

theorem scanView_onScanChunk
    (f : List ScanResult → (Nat → Int) → List ScanResult × (Nat → Int)) (s : State) :
    (onScanChunk f s).2.scanView = s.scanView.work f := by
  rw [onScanChunk, Proc.modify_apply]
  cases h : s.chunks .scan with
  | none => simp only [State.scanView, ScanView.work, h]
  | some ptr => simp only [State.scanView, ScanView.work, h]

theorem scanView_openChunk (s : State) : (openChunk .scan s).2.scanView = s.scanView.opened := by
  simp only [openChunk, Proc.modify_apply, State.scanView, ScanView.opened, Function.update_self]

theorem scanView_closeChunk (s : State) : (closeChunk .scan s).2.scanView = s.scanView.closed := by
  simp only [closeChunk, Proc.modify_apply, State.scanView, ScanView.closed, Function.update_self]

theorem scanView_setup (s : State) :
    (setupScanSamplingChunk s).2.scanView = s.scanView.setup := by
  rw [ScanView.setup, ← scanView_openChunk]
  exact scanView_onScanChunk _ _

theorem scanView_finalize (s : State) :
    (finalizeScanSamplingChunk s).2.scanView =
      s.scanView.finalize s.scanParameters.aggregationType := by
  rw [ScanView.finalize, ← scanView_onScanChunk]
  exact scanView_closeChunk _

theorem scanView_onScanTimeoutCallback (s : State) :
    (onScanTimeoutCallback s).2.scanView =
      if s.scanView.sampling = true then s.scanView.finalize s.scanParameters.aggregationType
      else s.scanView := by
  rw [onScanTimeoutCallback, Proc.get_bind_apply]
  by_cases h : s.configuration .scan false = true
  · rw [Proc.when_pos h, scanView_finalize]
    exact (if_pos h).symm
  · rw [Proc.when_neg h]
    exact (if_neg h).symm

theorem scanView_onScanReportCallback (r : Report) (s : State) :
    (onScanReportCallback r s).2.scanView =
      if r.group = s.scanParameters.groupFilter ∧ s.scanView.sampling = true then
        s.scanView.work (addReport s.scanParameters.aggregationType r)
      else s.scanView := by
  rw [onScanReportCallback, Proc.get_bind_apply]
  by_cases h : r.group = s.scanParameters.groupFilter ∧ s.configuration .scan false = true
  · rw [Proc.when_pos h, scanView_onScanChunk]
    exact (if_pos h).symm
  · rw [Proc.when_neg h]
    exact (if_neg h).symm

/-- The state after the optional set-up of the scan timer's callback. -/
def afterSetup (s : State) : State :=
  if s.configuration .scan false = true then (setupScanSamplingChunk s).2 else s

theorem scanCallback_eq (accepted : Bool) (s : State) :
    (scanCallback accepted s).2 =
      if accepted = true then { afterSetup s with scanning := true }
      else (onScanTimeoutCallback { afterSetup s with scanning := false }).2 := by
  have hsetup : Proc.when (s.configuration .scan false = true) setupScanSamplingChunk s =
      (.ok (), afterSetup s) := by
    rw [afterSetup]
    by_cases h : s.configuration .scan false = true
    · rw [Proc.when_pos h, if_pos h]
      rfl
    · rw [Proc.when_neg h, if_neg h]
      rfl
  rw [scanCallback, Proc.get_bind_apply, Proc.bind_ok hsetup]
  cases accepted with
  | true => rfl
  | false => rfl

/-! ### The functions that start and stop -/

variable {J : ScanView → Prop}

/-- A step that changes none of the six parts. -/
theorem keeps_view {f : State → State} (h : ∀ s, (f s).scanView = s.scanView) :
    Proc.Keeps (fun s => J s.scanView) (Proc.modify f : M Unit) := by
  intro s hs
  change J (f s).scanView
  rw [h]
  exact hs

theorem keeps_appTimerStop_view (timer : Timer) :
    Proc.Keeps (fun s => J s.scanView) (appTimerStop timer) :=
  keeps_appTimerStop_of (fun _ _ _ h => h) timer

theorem keeps_appTimerStart_view (timer : Timer) (ticks : Nat) :
    Proc.Keeps (fun s => J s.scanView) (appTimerStart timer ticks) :=
  keeps_appTimerStart_of (fun _ _ _ h => h) timer ticks

theorem keeps_setBit_view {streaming value : Bool}
    (h : streaming = false → ∀ v, J v → J { v with sampling := value }) :
    Proc.Keeps (fun s => J s.scanView) (setBit .scan streaming value) := by
  intro s hs
  cases streaming with
  | false =>
    have hview : (setBit .scan false value s).2.scanView =
        { s.scanView with sampling := value } := by
      simp only [setBit, Proc.modify_apply, State.scanView, Function.update_self]
    rw [hview]
    exact h rfl _ hs
  | true =>
    have hview : (setBit .scan true value s).2.scanView = s.scanView := by
      simp only [setBit, Proc.modify_apply, State.scanView, Function.update_self]
      rw [Function.update_of_ne (by decide)]
    rw [hview]
    exact hs

/-- The other sources have their own bits. -/
theorem keeps_setBit_other {source : Source} (h : source ≠ .scan) (streaming value : Bool) :
    Proc.Keeps (fun s => J s.scanView) (setBit source streaming value) := by
  refine keeps_view fun s => ?_
  simp only [State.scanView]
  rw [Function.update_of_ne (Ne.symm h)]

section Stops

variable (hstop : ∀ v, J v → J { v with scanning := false })
  (hclear : ∀ v, J v → J { v with sampling := false })
include hstop hclear

theorem keeps_stop_view (source : Source) (streaming : Bool) :
    Proc.Keeps (fun s => J s.scanView) (stop source streaming) := by
  have hother : ∀ {source : Source} {timers : List (Timer × Nat)} {release : M Unit},
      source ≠ .scan → Proc.Keeps (fun s => J s.scanView) release →
      Proc.Keeps (fun s => J s.scanView) (stopSampling source timers release streaming) :=
    fun hne hrelease => keeps_stopSampling_of (fun _ _ => keeps_appTimerStop_view _) hrelease
      (keeps_setBit_other hne _ _)
  have haccel : ∀ {α : Type} (x : Accel.M α), Proc.Keeps (fun s => J s.scanView) (onAccel x) :=
    fun _ _ hs => hs
  cases source with
  | accelerometer =>
    exact Proc.Keeps.bind (fun _ hs => hs) fun _ =>
      hother (by decide) (Proc.Keeps.when fun _ => haccel _)
  | accelerometerInterrupt =>
    exact Proc.Keeps.bind (fun _ hs => hs) fun _ =>
      hother (by decide) ((haccel _).bind fun _ => Proc.Keeps.when fun _ => haccel _)
  | battery => exact hother (by decide) (Proc.Keeps.pure _ ())
  | microphone => exact hother (by decide) (Proc.Keeps.pure _ ())
  | scan =>
    have hscanner : Proc.Keeps (fun s => J s.scanView) scannerStopScanning :=
      fun s hs => hstop s.scanView hs
    exact keeps_stopSampling_of (fun _ _ => keeps_appTimerStop_view _) hscanner
      (keeps_setBit_view fun _ => hclear)

theorem keeps_timeoutScan (streaming : Bool) :
    Proc.Keeps (fun s => J s.scanView) (timeout .scan streaming) :=
  keeps_timeout_of (keeps_stop_view hstop hclear _ _) fun _ _ _ hs => hs

/-- The timeouts that have run out when a scan is started may stop any source. -/
theorem keeps_startScan {r : ScanRequest}
    (h : r.streaming = false → ∀ v, J v → J { v with sampling := true }) :
    Proc.Keeps (fun s => J s.scanView) (startScan r) := by
  have hrecord : Proc.Keeps (fun s => J s.scanView) (Proc.modify fun s =>
      { s with scanParameters := s.scanParameters.update r } : M Unit) := keeps_view fun _ => rfl
  refine Proc.Keeps.bind (fun _ hs => hs) fun s => hrecord.bind fun _ => ?_
  exact keeps_startSampling_of (fun _ _ => keeps_appTimerStop_view _)
    (fun _ _ => keeps_appTimerStart_view _ _) (Proc.Keeps.pure _ ()) (keeps_setBit_view h)
    (keeps_timeoutStart_of (keeps_stop_view hstop hclear) (fun _ _ _ hs => hs) _ _)

end Stops

end View

end OpenBadge.Sampling
