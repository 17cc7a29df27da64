import OpenBadge.Lib.Simulation
import OpenBadge.Sampling.Counted
import OpenBadge.Sampling.Reports
import OpenBadge.Sampling.Timers

/-!
# What a scan makes of its reports

Between the set-up and the end of a chunk the reports of the filtered group are counted
device by device. The aggregation type is read at each report and once more at the end,
and `sampling_start_scan` may change it in between: then a sum is taken for a maximum or a
maximum for a sum. It may also find that the sampling has timed out: then the reports that
follow are missed.
-/

namespace OpenBadge.Sampling

open OpenBadge.Lib

/-! ## The calls during a scan -/

inductive ScanEvent where
  | start (r : ScanRequest)
  | report (r : Report)

def ScanEvent.exec : ScanEvent → M Unit
  | .start r => startScan r
  | .report r => onScanReportCallback r

/-- The state when the chunk is finalized. -/
def duringScan (s : State) (es : List ScanEvent) : State :=
  es.foldl (fun s e => (e.exec s).2) (setupScanSamplingChunk s).2

/-- The chunk that is set up, after it was finalized. -/
def finalizedChunk (s : State) (es : List ScanEvent) : Option (List ScanResult) :=
  ((setupScanSamplingChunk s).2.chunks .scan).map
    (finalizeScanSamplingChunk (duringScan s es)).2.scanChunkAt

/-! ## What a chunk should hold -/

/-- The reports of the group that the filter lets through at their time. -/
def counted (p : ScanParameters) : List ScanEvent → List Counted
  | [] => []
  | .start r :: es => counted (p.update r) es
  | .report r :: es =>
    if r.group = p.groupFilter then ⟨p.aggregationType, r⟩ :: counted p es else counted p es

/-- These reports, each with whether the scan was sampled when it came. -/
def heard (s : State) : List ScanEvent → List (Counted × Bool)
  | [] => []
  | .start r :: es => heard (startScan r s).2 es
  | .report r :: es =>
    if r.group = s.scanParameters.groupFilter then
      (⟨s.scanParameters.aggregationType, r⟩, s.configuration .scan false) :: heard s es
    else heard s es

/-- The reports that are not missed. -/
def taken (cs : List (Counted × Bool)) : List Counted := (cs.filter (·.2)).map (·.1)

/-- The parameters at the end. -/
def finalParameters (p : ScanParameters) : List ScanEvent → ScanParameters
  | [] => p
  | .start r :: es => finalParameters (p.update r) es
  | .report _ :: es => finalParameters p es

/-- The first devices stand in the chunk, each once, with the number of their reports and
an RSSI value that is theirs. -/
structure Aggregates (p : ScanParameters) (es : List ScanEvent) (chunk : List ScanResult) :
    Prop where
  ids : chunk.map (·.id) = (distinctIds (counted p es)).take scanSamplingChunkDataSize
  nodup : (chunk.map (·.id)).Nodup
  count : ∀ entry ∈ chunk, entry.count.toNat = min 255 (reportsOf entry.id (counted p es)).length
  between : ∀ entry ∈ chunk, Between (firstReportsOf entry.id (counted p es)) entry.rssi
  unchanged : (∀ r, .start r ∈ es → r.aggregationType = p.aggregationType) → ∀ entry ∈ chunk,
    Aggregated p.aggregationType (firstReportsOf entry.id (counted p es)) entry.rssi

/-- No device has values that were aggregated in one way and taken in the other. -/
def Unmixed (p : ScanParameters) (es : List ScanEvent) : Prop :=
  ∀ id ∈ (distinctIds (counted p es)).take scanSamplingChunkDataSize,
    ∀ c ∈ (firstReportsOf id (counted p es)).tail,
      c.aggregationType = 0 ↔ (finalParameters p es).aggregationType = 0

/-- The first reports of the first devices come while the scan is sampled. -/
def Complete (s : State) (es : List ScanEvent) : Prop :=
  ∀ id ∈ (distinctIds (counted s.scanParameters es)).take scanSamplingChunkDataSize,
    ∀ c ∈ ((heard s es).filter fun c => c.1.report.id = id).take 255, c.2 = true

/-! ## The calls -/

/-- The state with the chunks of `t`. -/
def State.withChunks (t s : State) : State :=
  { s with
    fifos := t.fifos
    chunks := t.chunks
    scanChunkAt := t.scanChunkAt
    scanAggregatedRssi := t.scanAggregatedRssi }

theorem ignores_appTimerStart (timer : Timer) (ticks : Nat) :
    Proc.Ignores State.withChunks (appTimerStart timer ticks) := by
  intro t s
  unfold appTimerStart
  by_cases hticks : ticks < minTimeoutTicks
  · rw [if_pos hticks, if_pos hticks]
    rfl
  · rw [if_neg hticks, if_neg hticks]
    by_cases hfault : s.timerFaults 0 = true
    · rw [if_pos hfault, if_pos (c := (t.withChunks s).timerFaults 0 = true) hfault]
      rfl
    · rw [if_neg hfault, if_neg (c := (t.withChunks s).timerFaults 0 = true) hfault]
      by_cases hruns : (s.timers timer).isSome = true
      · rw [if_pos hruns, if_pos (c := ((t.withChunks s).timers timer).isSome = true) hruns]
        rfl
      · rw [if_neg hruns, if_neg (c := ((t.withChunks s).timers timer).isSome = true) hruns]
        rfl

theorem ignores_appTimerStop (timer : Timer) :
    Proc.Ignores State.withChunks (appTimerStop timer) := Proc.Ignores.modify fun _ _ => rfl

theorem ignores_stopTimers (timers : List (Timer × Nat)) :
    Proc.Ignores State.withChunks (stopTimers timers) := by
  induction timers with
  | nil => exact Proc.Ignores.pure _ ()
  | cons entry timers ih => exact (ignores_appTimerStop _).bind fun _ => ih

theorem ignores_startTimers (timers : List (Timer × Nat)) :
    Proc.Ignores State.withChunks (startTimers timers) := by
  induction timers with
  | nil => exact Proc.Ignores.pure _ ()
  | cons entry timers ih => exact (ignores_appTimerStart _ _).bind fun _ => ih

theorem ignores_setBit (source : Source) (streaming value : Bool) :
    Proc.Ignores State.withChunks (setBit source streaming value) :=
  Proc.Ignores.modify fun _ _ => rfl

theorem ignores_setTimeout (source : Source) (streaming : Bool) (timeoutMs : Option UInt32) :
    Proc.Ignores State.withChunks (setTimeout source streaming timeoutMs) :=
  Proc.Ignores.modify fun _ _ => rfl

theorem ignores_onAccel {α : Type} (x : Accel.M α) :
    Proc.Ignores State.withChunks (onAccel x) :=
  Proc.Ignores.within x (fun _ _ => rfl) fun _ _ _ => rfl

theorem ignores_stopSampling {source : Source} {timers : List (Timer × Nat)} {release : M Unit}
    (hrelease : Proc.Ignores State.withChunks release) (streaming : Bool) :
    Proc.Ignores State.withChunks (stopSampling source timers release streaming) :=
  Proc.Ignores.get_bind (fun _ _ => rfl) fun _ =>
    (Proc.Ignores.when fun _ => (ignores_stopTimers _).bind fun _ => hrelease).bind fun _ =>
      ignores_setBit _ _ _

theorem ignores_stop (source : Source) (streaming : Bool) :
    Proc.Ignores State.withChunks (stop source streaming) := by
  have hpower : ∀ p : Prop, [Decidable p] → Proc.Ignores State.withChunks
      (Proc.when p (onAccel (Accel.setOperatingMode .powerDown))) := fun _ _ =>
    Proc.Ignores.when fun _ => ignores_onAccel _
  cases source with
  | accelerometer =>
    exact Proc.Ignores.get_bind (fun _ _ => rfl) fun _ => ignores_stopSampling (hpower _) _
  | accelerometerInterrupt =>
    exact Proc.Ignores.get_bind (fun _ _ => rfl) fun _ =>
      ignores_stopSampling ((ignores_onAccel _).bind fun _ => hpower _) _
  | battery => exact ignores_stopSampling (Proc.Ignores.pure _ ()) _
  | microphone => exact ignores_stopSampling (Proc.Ignores.pure _ ()) _
  | scan => exact ignores_stopSampling (Proc.Ignores.modify fun _ _ => rfl) _

theorem ignores_timeout (source : Source) (streaming : Bool) :
    Proc.Ignores State.withChunks (timeout source streaming) :=
  Proc.Ignores.get_bind (fun _ _ => rfl) fun _ => Proc.Ignores.when fun _ =>
    (ignores_stop _ _).attempt.bind fun _ => ignores_setTimeout _ _ _

theorem ignores_adaptRemainingMs (ranOut : Source → Bool → Bool)
    (entries : List (Source × Bool)) :
    Proc.Ignores State.withChunks (adaptRemainingMs ranOut entries) := by
  induction entries with
  | nil => exact Proc.Ignores.pure _ ()
  | cons entry entries ih =>
    exact (Proc.Ignores.when fun _ => ignores_timeout _ _).bind fun _ => ih

theorem ignores_timeoutStart (source : Source) (streaming : Bool) (timeoutMs : UInt32) :
    Proc.Ignores State.withChunks (timeoutStart source streaming timeoutMs) := by
  refine Proc.Ignores.branch (fun _ => ignores_setTimeout _ _ _) fun _ =>
    Proc.Ignores.get_bind (fun _ _ => rfl) fun _ => Proc.Ignores.bind ?_ fun _ =>
    (ignores_adaptRemainingMs _ _).bind fun _ => ignores_setTimeout _ _ _
  exact Proc.Ignores.modify fun _ _ => rfl

/-- A scan is started without a look at the chunks. -/
theorem ignores_startScan (r : ScanRequest) :
    Proc.Ignores State.withChunks (startScan r) := by
  have hrecord : Proc.Ignores State.withChunks (Proc.modify fun s =>
      { s with scanParameters := s.scanParameters.update r } : M Unit) :=
    Proc.Ignores.modify fun _ _ => rfl
  have hmark : ∀ streaming, Proc.Ignores State.withChunks (do
      setBit .scan streaming true
      timeoutStart .scan streaming r.timeoutMs) := fun _ =>
    (ignores_setBit _ _ _).bind fun _ => ignores_timeoutStart _ _ _
  have hrestart : ∀ x : M Unit, Proc.Ignores State.withChunks x → Proc.Ignores State.withChunks (do
      stopTimers (scanTimers r.periodSeconds)
      pure ()
      x) := fun _ hx =>
    (ignores_stopTimers _).bind fun _ => (Proc.Ignores.pure _ ()).bind fun _ => hx
  refine Proc.Ignores.get_bind (fun _ _ => rfl) fun s => hrecord.bind fun _ =>
    Proc.Ignores.get_bind (fun _ _ => rfl) fun s => ?_
  cases r.streaming with
  | false =>
    exact Proc.Ignores.when fun _ => hrestart _ ((ignores_startTimers _).bind fun _ => hmark _)
  | true =>
    exact (Proc.Ignores.branch (fun _ => hrestart _ (ignores_startTimers _)) fun _ =>
      Proc.Ignores.when fun _ => (ignores_stopTimers _).bind fun _ =>
        ignores_startTimers _).bind fun _ => hmark _

theorem scanParameters_startScan (r : ScanRequest) (s : State) :
    (startScan r s).2.scanParameters = s.scanParameters.update r := by
  have hkeeps : Proc.Keeps (fun t : State => t.scanParameters = s.scanParameters.update r)
      (startSampling .scan (scanTimers r.periodSeconds) (pure ()) r.timeoutMs
        (s.scanParameters.changed r) r.streaming) :=
    keeps_startSampling_of (fun _ _ _ h => h)
      (fun _ _ => keeps_appTimerStart_of (fun _ _ _ h => h) _ _) (Proc.Keeps.pure _ ())
      (fun _ h => h) (keeps_timeoutStart_of (keeps_stop_of fun _ _ _ _ _ h => h)
        (fun _ _ _ h => h) _ _)
  exact hkeeps { s with scanParameters := s.scanParameters.update r } rfl

/-- Reports are only looked at through the chunk. -/
theorem onScanReportCallback_snd {ptr : Nat} {s : State} (h : s.chunks .scan = some ptr)
    (r : Report) :
    (onScanReportCallback r s).2 =
      if r.group = s.scanParameters.groupFilter ∧ s.configuration .scan false = true then
        { s with
          scanChunkAt := Function.update s.scanChunkAt ptr (addReport
            s.scanParameters.aggregationType r (s.scanChunkAt ptr) s.scanAggregatedRssi).1
          scanAggregatedRssi := (addReport
            s.scanParameters.aggregationType r (s.scanChunkAt ptr) s.scanAggregatedRssi).2 }
      else s := by
  rw [onScanReportCallback, Proc.get_bind_apply]
  by_cases hc : r.group = s.scanParameters.groupFilter ∧ s.configuration .scan false = true
  · rw [Proc.when_pos hc, if_pos hc, onScanChunk, Proc.modify_apply, h]
  · rw [Proc.when_neg hc, if_neg hc]
    rfl

/-- A scan that is sampled into the chunk at `ptr`, after the reports taken so far; `u` is the
state without them. -/
structure Sampled (ptr : Nat) (u : State) (cs : List Counted) (s : State) : Prop where
  same : s = s.withChunks u
  chunk : s.chunks .scan = some ptr
  built : BuiltFrom cs (s.scanChunkAt ptr) s.scanAggregatedRssi

namespace Sampled

variable {ptr : Nat} {cs : List Counted} {u s : State}

theorem start (h : Sampled ptr u cs s) (r : ScanRequest) :
    Sampled ptr (startScan r u).2 cs (startScan r s).2 := by
  have hnext : (startScan r s).2 = s.withChunks (startScan r u).2 := by
    rw [congrArg (startScan r) h.same, ignores_startScan r s u]
  rw [hnext]
  exact ⟨rfl, h.chunk, h.built⟩

theorem report (h : Sampled ptr u cs s) (r : Report) :
    Sampled ptr u (cs ++ taken (heard u [.report r])) (onScanReportCallback r s).2 := by
  have hparameters : s.scanParameters = u.scanParameters :=
    (congrArg State.scanParameters h.same).trans rfl
  have hbits : s.configuration = u.configuration :=
    (congrArg State.configuration h.same).trans rfl
  rw [onScanReportCallback_snd h.chunk, hparameters, hbits]
  by_cases hgroup : r.group = u.scanParameters.groupFilter
  · by_cases hon : u.configuration .scan false = true
    · rw [if_pos ⟨hgroup, hon⟩]
      have htaken : taken (heard u [.report r]) = [⟨u.scanParameters.aggregationType, r⟩] := by
        simp [heard, taken, hgroup, hon]
      rw [htaken]
      refine ⟨?_, h.chunk, ?_⟩
      · conv_lhs => rw [h.same]
        rfl
      · dsimp only
        rw [Function.update_self]
        exact h.built.add ⟨u.scanParameters.aggregationType, r⟩
    · rw [if_neg fun hc => hon hc.2]
      have htaken : taken (heard u [.report r]) = [] := by simp [heard, taken, hgroup, hon]
      rw [htaken, List.append_nil]
      exact h
  · rw [if_neg fun hc => hgroup hc.1]
    have htaken : taken (heard u [.report r]) = [] := by simp [heard, taken, hgroup]
    rw [htaken, List.append_nil]
    exact h

theorem run (h : Sampled ptr u cs s) (es : List ScanEvent) :
    ∃ u', Sampled ptr u' (cs ++ taken (heard u es)) (es.foldl (fun s e => (e.exec s).2) s) ∧
      u'.scanParameters = finalParameters u.scanParameters es := by
  induction es generalizing u cs s with
  | nil => exact ⟨u, by rw [heard, taken]; simpa using h, rfl⟩
  | cons e es ih =>
    cases e with
    | start r =>
      obtain ⟨u', hu', hparameters⟩ := ih (h.start r)
      refine ⟨u', hu', ?_⟩
      rw [hparameters, scanParameters_startScan]
      rfl
    | report r =>
      obtain ⟨u', hu', hparameters⟩ := ih (h.report r)
      refine ⟨u', ?_, hparameters⟩
      have hsplit : taken (heard u (.report r :: es)) =
          taken (heard u [.report r]) ++ taken (heard u es) := by
        rw [taken, taken, taken, ← List.map_append, ← List.filter_append, heard, heard, heard]
        split <;> rfl
      rw [hsplit, ← List.append_assoc]
      exact hu'

/-- The chunk after its end. -/
theorem finalized (h : Sampled ptr u cs s) :
    (finalizeScanSamplingChunk s).2.scanChunkAt ptr =
      processReports u.scanParameters.aggregationType (s.scanChunkAt ptr)
        s.scanAggregatedRssi := by
  have hview := congrArg ScanView.chunkAt (scanView_finalize s)
  have hchunk : s.scanView.chunk = some ptr := h.chunk
  rw [ScanView.finalize, ScanView.work, hchunk] at hview
  change (finalizeScanSamplingChunk s).2.scanChunkAt = _ at hview
  rw [hview, congrArg State.scanParameters h.same]
  exact Function.update_self ..

end Sampled

theorem sampled_setup (s : State) :
    ∃ ptr, (setupScanSamplingChunk s).2.chunks .scan = some ptr ∧
      Sampled ptr s [] (setupScanSamplingChunk s).2 := by
  have hopen : (openChunk .scan s).2.chunks .scan =
      some (ChunkFifo.writeOpen (chunkFifo .scan) (s.fifos .scan)).writePtr := by
    rw [openChunk, Proc.modify_apply]
    dsimp only
    rw [Function.update_self]
  have hsetup : (setupScanSamplingChunk s).2 = { (openChunk .scan s).2 with
      scanChunkAt := Function.update s.scanChunkAt
        (ChunkFifo.writeOpen (chunkFifo .scan) (s.fifos .scan)).writePtr [] } := by
    change (onScanChunk _ (openChunk .scan s).2).2 = _
    rw [onScanChunk, Proc.modify_apply, hopen]
    rfl
  rw [hsetup]
  refine ⟨_, hopen, rfl, hopen, ?_⟩
  dsimp only
  rw [Function.update_self]
  exact builtFrom_nil _

theorem finalizedChunk_eq (s : State) (es : List ScanEvent) :
    ∃ built aggregated, BuiltFrom (taken (heard s es)) built aggregated ∧
      finalizedChunk s es = some (processReports
        (finalParameters s.scanParameters es).aggregationType built aggregated) := by
  obtain ⟨ptr, hptr, hsetup⟩ := sampled_setup s
  obtain ⟨u, hrun, hparameters⟩ := hsetup.run es
  rw [List.nil_append] at hrun
  refine ⟨_, _, hrun.built, ?_⟩
  rw [finalizedChunk, hptr, Option.map_some, duringScan, hrun.finalized, hparameters]

/-! ## Missed reports -/

section Missed

variable {L : List (Counted × Bool)}

theorem counted_eq_heard (s : State) (es : List ScanEvent) :
    counted s.scanParameters es = (heard s es).map Prod.fst := by
  induction es generalizing s with
  | nil => rfl
  | cons e es ih =>
    cases e with
    | start r =>
      rw [counted, heard, ← ih, scanParameters_startScan]
    | report r =>
      rw [counted, heard, ih]
      split <;> rfl

theorem taken_append (cs ds : List (Counted × Bool)) : taken (cs ++ ds) = taken cs ++ taken ds := by
  rw [taken, List.filter_append, List.map_append, taken, taken]

theorem reportsOf_taken (id : UInt16) (cs : List (Counted × Bool)) :
    reportsOf id (taken cs) = taken (cs.filter fun c => c.1.report.id = id) := by
  rw [reportsOf, taken, taken, List.filter_map, List.filter_filter, List.filter_filter]
  simp only [Function.comp_def, Bool.and_comm]

theorem reportsOf_map_fst (id : UInt16) (cs : List (Counted × Bool)) :
    reportsOf id (cs.map Prod.fst) = (cs.filter fun c => c.1.report.id = id).map Prod.fst := by
  rw [reportsOf, List.filter_map]
  rfl

/-- The first reports are taken if none of them is missed. -/
theorem take_taken {n : Nat} (h : ∀ c ∈ L.take n, c.2 = true) :
    (taken L).take n = (L.map Prod.fst).take n := by
  induction L generalizing n with
  | nil => rfl
  | cons c L ih =>
    cases n with
    | zero => rfl
    | succ n =>
      rw [List.take_succ_cons] at h
      have hc : c.2 = true := h c List.mem_cons_self
      have htaken : taken (c :: L) = c.1 :: taken L := by
        rw [taken, List.filter_cons_of_pos hc, List.map_cons, taken]
      rw [htaken, List.take_succ_cons, ih fun d hd => h d (List.mem_cons_of_mem _ hd),
        List.map_cons, List.take_succ_cons]

theorem firstReportsOf_taken {id : UInt16}
    (h : ∀ c ∈ (L.filter fun c => c.1.report.id = id).take 255, c.2 = true) :
    firstReportsOf id (taken L) = firstReportsOf id (L.map Prod.fst) := by
  rw [firstReportsOf, firstReportsOf, reportsOf_taken, reportsOf_map_fst, take_taken h]

theorem mem_distinctIds_of_taken {id : UInt16} (h : id ∈ distinctIds (taken L)) :
    id ∈ distinctIds (L.map Prod.fst) := by
  obtain ⟨c, hc, hid⟩ := mem_distinctIds.mp h
  exact mem_distinctIds.mpr ⟨c, (List.filter_sublist.map _).subset hc, hid⟩

theorem take_prefix_take {α : Type} {xs ys : List α} (h : xs <+: ys) (n : Nat) :
    xs.take n <+: ys.take n :=
  List.prefix_take_iff.mpr ⟨(List.take_prefix n xs).trans h, List.length_take_le n xs⟩

/-- The first devices are those of the taken reports, too. -/
theorem distinctIds_taken (n : Nat)
    (h : ∀ id ∈ (distinctIds (L.map Prod.fst)).take n,
      ∀ c ∈ (L.filter fun c => c.1.report.id = id).take 255, c.2 = true) :
    (distinctIds (taken L)).take n = (distinctIds (L.map Prod.fst)).take n := by
  induction L using List.reverseRecOn with
  | nil => rfl
  | append_singleton L c ih =>
    have hmono : distinctIds (L.map Prod.fst) <+: distinctIds ((L ++ [c]).map Prod.fst) := by
      rw [List.map_append, List.map_singleton, distinctIds_append]
      split
      · exact List.prefix_rfl
      · exact List.prefix_append _ _
    have hih := ih fun id hid d hd => h id ((take_prefix_take hmono n).subset hid) d
      ((take_prefix_take ((List.prefix_append L [c]).filter _) 255).subset hd)
    have hlen := congrArg List.length hih
    rw [List.length_take, List.length_take] at hlen
    -- a device that is not among the first ones changes nothing once these are full
    have hfull : n ≤ (distinctIds (L.map Prod.fst)).length → ∀ cs,
        (distinctIds (taken L) ++ cs).take n = (distinctIds (taken L)).take n :=
      fun hle cs => List.take_append_of_le_length (by omega)
    rw [taken_append, List.map_append, List.map_singleton, distinctIds_append]
    by_cases hknown : c.1.report.id ∈ distinctIds (L.map Prod.fst)
    · rw [if_pos hknown, ← hih]
      by_cases hc : c.2 = true
      · rw [show taken [c] = [c.1] by simp [taken, hc], distinctIds_append]
        split
        · rfl
        · next hnew =>
          refine hfull (Nat.le_of_not_lt fun hlt => hnew ?_) _
          have hall := hih
          rw [List.take_of_length_le hlt.le, List.take_of_length_le (by omega)] at hall
          rw [hall]
          exact hknown
      · rw [show taken [c] = [] by simp [taken, hc], List.append_nil]
    · have hnew : c.1.report.id ∉ distinctIds (taken L) := mt mem_distinctIds_of_taken hknown
      rw [if_neg hknown]
      by_cases hle : n ≤ (distinctIds (L.map Prod.fst)).length
      · rw [List.take_append_of_le_length hle, ← hih]
        by_cases hc : c.2 = true
        · rw [show taken [c] = [c.1] by simp [taken, hc], distinctIds_append, if_neg hnew,
            hfull hle]
        · rw [show taken [c] = [] by simp [taken, hc], List.append_nil]
      · have hall := hih
        rw [List.take_of_length_le (by omega), List.take_of_length_le (by omega)] at hall
        have hc : c.2 = true := by
          refine h c.1.report.id ?_ c ?_
          · rw [List.map_append, List.map_singleton, distinctIds_append, if_neg hknown,
              List.take_of_length_le (by rw [List.length_append, List.length_singleton]; omega)]
            exact List.mem_append_right _ (List.mem_singleton_self _)
          · have hnone : (L.filter fun d => d.1.report.id = c.1.report.id) = [] := by
              rw [← List.map_eq_nil_iff (f := Prod.fst), ← reportsOf_map_fst]
              exact reportsOf_eq_nil_iff.mpr hknown
            rw [List.filter_append, hnone, List.filter_cons_of_pos (by simp), List.filter_nil]
            exact List.mem_singleton_self c
        rw [show taken [c] = [c.1] by simp [taken, hc], distinctIds_append, if_neg hnew, hall]

/-- Without missed reports the chunk is built from all. -/
theorem BuiltFrom.of_complete {s : State} {es : List ScanEvent} {chunk : List ScanResult}
    {aggregated : Nat → Int} (h : BuiltFrom (taken (heard s es)) chunk aggregated)
    (hc : Complete s es) : BuiltFrom (counted s.scanParameters es) chunk aggregated := by
  rw [Complete, counted_eq_heard] at hc
  rw [counted_eq_heard]
  have hids := distinctIds_taken scanSamplingChunkDataSize hc
  have hfirst : ∀ i (hi : i < chunk.length), firstReportsOf chunk[i].id (taken (heard s es)) =
      firstReportsOf chunk[i].id ((heard s es).map Prod.fst) := by
    intro i hi
    refine firstReportsOf_taken (hc _ ?_)
    rw [← hids, ← h.ids]
    exact List.mem_map_of_mem (List.getElem_mem hi)
  refine ⟨h.ids.trans hids, fun i hi => ?_, fun i hi => ?_⟩
  · rw [h.count i hi, hfirst i hi]
  · rw [h.value i hi, hfirst i hi]

end Missed

/-! ## A chunk that is not mixed -/

section Finalized

variable {p : ScanParameters} {es : List ScanEvent} {cs : List Counted} {built : List ScanResult}
  {aggregated : Nat → Int}

theorem processReports_ids (aggregationType : UInt8) (built : List ScanResult)
    (aggregated : Nat → Int) :
    (processReports aggregationType built aggregated).map (·.id) = built.map (·.id) := by
  refine List.ext_getElem ?_ fun i hi hi' => ?_
  · rw [List.length_map, processReports, List.length_mapIdx, List.length_map]
  · rw [List.getElem_map, List.getElem_map]
    simp only [processReports, List.getElem_mapIdx]

theorem finalParameters_unchanged
    (h : ∀ r, .start r ∈ es → r.aggregationType = p.aggregationType) :
    (finalParameters p es).aggregationType = p.aggregationType := by
  induction es generalizing p with
  | nil => rfl
  | cons e es ih =>
    cases e with
    | start r =>
      have hr : (p.update r).aggregationType = p.aggregationType := h r List.mem_cons_self
      rw [finalParameters, ih fun r' hr' => ?_, hr]
      rw [hr]
      exact h r' (List.mem_cons_of_mem _ hr')
    | report r => exact ih fun r' hr' => h r' (List.mem_cons_of_mem _ hr')

/-- An entry of the finalized chunk. -/
theorem mem_processReports (h : BuiltFrom cs built aggregated) {aggregationType : UInt8}
    {entry : ScanResult} (he : entry ∈ processReports aggregationType built aggregated) :
    entry.id ∈ (distinctIds cs).take scanSamplingChunkDataSize ∧
      entry.count.toNat = (firstReportsOf entry.id cs).length ∧
      entry.rssi = processScanSample aggregationType
        (aggregateReports (firstReportsOf entry.id cs)) entry.count := by
  obtain ⟨i, hi, rfl⟩ := List.mem_mapIdx.mp he
  dsimp only
  refine ⟨?_, h.count i hi, ?_⟩
  · rw [← h.ids]
    exact List.mem_map_of_mem (List.getElem_mem hi)
  · rw [h.value i hi]

/-- What an entry holds of reports that are not mixed. -/
theorem aggregated_of_mem (h : BuiltFrom cs built aggregated) {aggregationType : UInt8}
    {entry : ScanResult} (he : entry ∈ processReports aggregationType built aggregated)
    (hu : ∀ c ∈ (firstReportsOf entry.id cs).tail,
      c.aggregationType = 0 ↔ aggregationType = 0) :
    Aggregated aggregationType (firstReportsOf entry.id cs) entry.rssi ∧
      Between (firstReportsOf entry.id cs) entry.rssi := by
  obtain ⟨hid, hcount, hrssi⟩ := mem_processReports h he
  rw [hrssi]
  exact processed_of_unmixed (firstReportsOf_ne_nil (List.mem_of_mem_take hid)) hcount hu

theorem aggregates_of_unmixed (h : BuiltFrom (counted p es) built aggregated)
    (hu : Unmixed p es) :
    Aggregates p es (processReports (finalParameters p es).aggregationType built aggregated) := by
  have hvalue : ∀ entry ∈ processReports (finalParameters p es).aggregationType built aggregated,
      Aggregated (finalParameters p es).aggregationType
          (firstReportsOf entry.id (counted p es)) entry.rssi ∧
        Between (firstReportsOf entry.id (counted p es)) entry.rssi := fun entry he =>
    aggregated_of_mem h he (hu entry.id (mem_processReports h he).1)
  refine ⟨?_, ?_, fun entry he => ?_, fun entry he => (hvalue entry he).2, fun hun entry he => ?_⟩
  · rw [processReports_ids, h.ids]
  · rw [processReports_ids]
    exact h.nodup
  · rw [(mem_processReports h he).2.1, firstReportsOf, List.length_take]
  · rw [← finalParameters_unchanged hun]
    exact (hvalue entry he).1

end Finalized

/-! ## Other RSSI values -/

def ScanEvent.withRssi (x : Int8) : ScanEvent → ScanEvent
  | .start r => .start r
  | .report r => .report { r with rssi := x }

/-- The same calls and reports with other RSSI values. -/
def withRssi (rssi : Nat → Int8) (es : List ScanEvent) : List ScanEvent :=
  es.mapIdx fun i e => e.withRssi (rssi i)

def Counted.withRssi (x : Int8) (c : Counted) : Counted :=
  { c with report := { c.report with rssi := x } }

/-- All reports with the same RSSI value. -/
def levelled (x : Int8) (cs : List (Counted × Bool)) : List (Counted × Bool) :=
  cs.map (Prod.map (Counted.withRssi x) id)

section Rssi

variable {s : State} {es : List ScanEvent} {cs : List Counted} {L L' : List (Counted × Bool)}
  {x : Int8}

/-- Which reports are heard does not depend on the RSSI values. -/
theorem heard_withRssi (s : State) (rssi : Nat → Int8) (es : List ScanEvent) (x : Int8) :
    levelled x (heard s (withRssi rssi es)) = levelled x (heard s es) := by
  induction es generalizing s rssi with
  | nil => rfl
  | cons e es ih =>
    rw [withRssi, List.mapIdx_cons]
    cases e with
    | start r => exact ih (startScan r s).2 fun i => rssi (i + 1)
    | report r =>
      rw [ScanEvent.withRssi, heard, heard]
      by_cases hgroup : r.group = s.scanParameters.groupFilter
      · rw [if_pos hgroup, if_pos hgroup, levelled, levelled, List.map_cons, List.map_cons]
        exact congrArg _ (ih s fun i => rssi (i + 1))
      · rw [if_neg hgroup, if_neg hgroup]
        exact ih s fun i => rssi (i + 1)

/-- The reports can have any RSSI values. -/
theorem exists_withRssi (h : levelled 0 L = levelled 0 (heard s es)) :
    ∃ rssi, heard s (withRssi rssi es) = L := by
  induction es generalizing s L with
  | nil => exact ⟨fun _ => 0, (List.map_eq_nil_iff.mp h).symm⟩
  | cons e es ih =>
    cases e with
    | start r =>
      obtain ⟨rssi, hrssi⟩ := ih h
      refine ⟨fun i => rssi (i - 1), ?_⟩
      rw [withRssi, List.mapIdx_cons]
      exact hrssi
    | report r =>
      by_cases hgroup : r.group = s.scanParameters.groupFilter
      · rw [heard, if_pos hgroup] at h
        obtain ⟨c, L, rfl⟩ : ∃ c L', L = c :: L' := by
          cases L with
          | nil => cases h
          | cons c L => exact ⟨c, L, rfl⟩
        rw [levelled, levelled, List.map_cons, List.map_cons, List.cons.injEq] at h
        obtain ⟨rssi, hrssi⟩ := ih h.2
        refine ⟨fun i => if i = 0 then c.1.report.rssi else rssi (i - 1), ?_⟩
        obtain ⟨⟨aggregationType, id, group, x⟩, on⟩ := c
        cases h.1
        rw [withRssi, List.mapIdx_cons, ScanEvent.withRssi, heard, if_pos hgroup]
        exact congrArg _ hrssi
      · rw [heard, if_neg hgroup] at h
        obtain ⟨rssi, hrssi⟩ := ih h
        refine ⟨fun i => rssi (i - 1), ?_⟩
        rw [withRssi, List.mapIdx_cons, ScanEvent.withRssi, heard, if_neg hgroup]
        exact hrssi

theorem finalParameters_withRssi (p : ScanParameters) (rssi : Nat → Int8) (es : List ScanEvent) :
    finalParameters p (withRssi rssi es) = finalParameters p es := by
  induction es generalizing p rssi with
  | nil => rfl
  | cons e es ih =>
    rw [withRssi, List.mapIdx_cons]
    cases e with
    | start r => exact ih (p.update r) fun i => rssi (i + 1)
    | report r => exact ih p fun i => rssi (i + 1)

theorem distinctIds_map (x : Int8) (cs : List Counted) :
    distinctIds (cs.map (·.withRssi x)) = distinctIds cs := by
  rw [distinctIds, List.foldl_map]
  rfl

theorem firstReportsOf_map (x : Int8) (id : UInt16) (cs : List Counted) :
    firstReportsOf id (cs.map (·.withRssi x)) = (firstReportsOf id cs).map (·.withRssi x) := by
  rw [firstReportsOf, reportsOf, List.filter_map, ← List.map_take]
  rfl

/-- Whether the reports are mixed does not depend on their RSSI values. -/
theorem unmixed_map (x : Int8) {aggregationType : UInt8} (id : UInt16) (cs : List Counted) :
    (∀ c ∈ (firstReportsOf id (cs.map (·.withRssi x))).tail,
        c.aggregationType = 0 ↔ aggregationType = 0) ↔
      ∀ c ∈ (firstReportsOf id cs).tail, c.aggregationType = 0 ↔ aggregationType = 0 := by
  rw [firstReportsOf_map, ← List.map_tail]
  exact List.forall_mem_map

theorem map_fst_levelled (x : Int8) (L : List (Counted × Bool)) :
    (levelled x L).map Prod.fst = (L.map Prod.fst).map (·.withRssi x) := by
  rw [levelled, List.map_map, List.map_map]
  rfl

theorem taken_levelled (x : Int8) (L : List (Counted × Bool)) :
    taken (levelled x L) = (taken L).map (·.withRssi x) := by
  rw [taken, levelled, List.filter_map, List.map_map, taken, List.map_map]
  rfl

theorem filter_levelled (x : Int8) (id : UInt16) (L : List (Counted × Bool)) :
    (levelled x L).filter (fun c => c.1.report.id = id) =
      levelled x (L.filter fun c => c.1.report.id = id) := List.filter_map ..

theorem distinctIds_of_levelled (h : levelled x L = levelled x L') :
    distinctIds (L.map Prod.fst) = distinctIds (L'.map Prod.fst) := by
  rw [← distinctIds_map x, ← map_fst_levelled, h, map_fst_levelled, distinctIds_map]

theorem unmixed_of_levelled (h : levelled x L = levelled x L') (id : UInt16)
    {aggregationType : UInt8}
    (hu : ∀ c ∈ (firstReportsOf id (taken L)).tail,
      c.aggregationType = 0 ↔ aggregationType = 0) :
    ∀ c ∈ (firstReportsOf id (taken L')).tail,
      c.aggregationType = 0 ↔ aggregationType = 0 := by
  rw [← unmixed_map x, ← taken_levelled, ← h, taken_levelled, unmixed_map]
  exact hu

theorem unmixed_withRssi (s : State) (rssi : Nat → Int8) (es : List ScanEvent) :
    Unmixed s.scanParameters (withRssi rssi es) ↔ Unmixed s.scanParameters es := by
  have hlevelled := heard_withRssi s rssi es 0
  have hmap := congrArg (List.map Prod.fst) hlevelled
  rw [map_fst_levelled, map_fst_levelled] at hmap
  rw [Unmixed, Unmixed, counted_eq_heard, counted_eq_heard, distinctIds_of_levelled hlevelled,
    finalParameters_withRssi]
  refine forall₂_congr fun id _ => ?_
  rw [← unmixed_map 0, hmap, unmixed_map]

theorem complete_withRssi (s : State) (rssi : Nat → Int8) (es : List ScanEvent) :
    Complete s (withRssi rssi es) ↔ Complete s es := by
  have hlevelled := heard_withRssi s rssi es 0
  have hflags : ∀ id L, (∀ c ∈ ((levelled 0 L).filter fun c => c.1.report.id = id).take 255,
      c.2 = true) ↔ ∀ c ∈ (L.filter fun c => c.1.report.id = id).take 255, c.2 = true := by
    intro id L
    rw [filter_levelled, levelled, ← List.map_take]
    exact List.forall_mem_map
  rw [Complete, Complete, counted_eq_heard, counted_eq_heard, distinctIds_of_levelled hlevelled]
  refine forall₂_congr fun id _ => ?_
  rw [← hflags, hlevelled, hflags]

end Rssi

/-! ## A chunk that is mixed -/

section Mixed

variable {s : State} {es : List ScanEvent} {cs : List Counted}

/-- Values of 1 are added up, or stay as they are. -/
theorem aggregateReports_ones (hne : cs ≠ []) (h : ∀ c ∈ cs, c.report.rssi = 1) :
    aggregateReports cs = 1 + cs.tail.countP fun c => c.aggregationType ≠ 0 := by
  induction cs using List.reverseRecOn with
  | nil => exact absurd rfl hne
  | append_singleton cs c ih =>
    have hc : c.report.rssi.toInt = 1 := by
      rw [h c (List.mem_append_right _ (List.mem_singleton_self c))]
      rfl
    by_cases hcs : cs = []
    · subst hcs
      exact hc
    · rw [aggregateReports_append hcs, ih hcs fun d hd => h d (List.mem_append_left _ hd),
        tail_append_singleton hcs, List.countP_append, aggregateScanSample, hc]
      by_cases ht : c.aggregationType = 0
      · rw [if_pos ht]
        simp [ht]
      · rw [if_neg ht]
        simp [ht, Int.add_comm]

/-- A value of 1 for reports of 1 shows that they were not mixed. -/
theorem unmixed_of_one {aggregationType count : UInt8} {cs : List Counted} (hne : cs ≠ [])
    (hones : ∀ c ∈ cs, c.report.rssi = 1) (hlen : cs.length ≤ 255)
    (hcount : count.toNat = cs.length)
    (h : processScanSample aggregationType (aggregateReports cs) count = 1) :
    ∀ c ∈ cs.tail, c.aggregationType = 0 ↔ aggregationType = 0 := by
  have htail : cs.tail.length + 1 = cs.length := by
    rw [List.length_tail]
    exact Nat.sub_add_cancel (List.length_pos_iff.mpr hne)
  have hle := List.countP_le_length (p := fun c : Counted => c.aggregationType ≠ 0) (l := cs.tail)
  rw [processScanSample, aggregateReports_ones hne hones, hcount] at h
  have htoInt := congrArg Int8.toInt h
  rw [Int8.toInt_ofInt, show (1 : Int8).toInt = 1 from rfl] at htoInt
  by_cases ht : aggregationType = 0
  · rw [if_pos ht] at htoInt
    have hnone : cs.tail.countP (fun c => c.aggregationType ≠ 0) = 0 := by
      have hsize : (Int8.size : Int) = 256 := rfl
      rw [Int.bmod_def, hsize] at htoInt
      split at htoInt <;> omega
    intro c hc
    have hc' := List.countP_eq_zero.mp hnone c hc
    rw [decide_eq_true_eq, not_not] at hc'
    exact iff_of_true hc' ht
  · rw [if_neg ht] at htoInt
    have hall : cs.tail.countP (fun c => c.aggregationType ≠ 0) = cs.tail.length := by
      by_contra hne
      rw [Int.tdiv_eq_zero_of_lt (by omega) (by omega)] at htoInt
      exact absurd htoInt (by decide)
    intro c hc
    have hc' := List.countP_eq_length.mp hall c hc
    rw [decide_eq_true_eq] at hc'
    exact iff_of_false hc' ht

/-- Between equal values there is no other. -/
theorem eq_of_between {x y : Int8} (h : Between cs x) (hcs : ∀ c ∈ cs, c.report.rssi = y) :
    x = y := by
  obtain ⟨⟨lo, hlo, hle⟩, hi, hhi, hge⟩ := h
  rw [hcs lo hlo] at hle
  rw [hcs hi hhi] at hge
  exact Int8.le_antisymm hge hle

/-- The property of the claim, whatever the RSSI values are. -/
def AlwaysAggregates (s : State) (es : List ScanEvent) : Prop :=
  ∀ rssi : Nat → Int8, ∃ chunk, finalizedChunk s (withRssi rssi es) = some chunk ∧
    Aggregates s.scanParameters (withRssi rssi es) chunk

theorem heard_level (s : State) (x : Int8) (es : List ScanEvent) :
    heard s (withRssi (fun _ => x) es) = levelled x (heard s es) := by
  induction es generalizing s with
  | nil => rfl
  | cons e es ih =>
    rw [withRssi, List.mapIdx_cons]
    cases e with
    | start r => exact ih (startScan r s).2
    | report r =>
      rw [ScanEvent.withRssi, heard, heard]
      by_cases hgroup : r.group = s.scanParameters.groupFilter
      · rw [if_pos hgroup, if_pos hgroup]
        exact congrArg _ (ih s)
      · rw [if_neg hgroup, if_neg hgroup]
        exact ih s

/-- The entry of one of the first devices. -/
theorem AlwaysAggregates.entry (h : AlwaysAggregates s es) (rssi : Nat → Int8) {id : UInt16}
    (hid : id ∈ (distinctIds (counted s.scanParameters es)).take scanSamplingChunkDataSize) :
    ∃ built aggregated, BuiltFrom (taken (heard s (withRssi rssi es))) built aggregated ∧
      ∃ entry ∈ processReports (finalParameters s.scanParameters es).aggregationType built
        aggregated, entry.id = id ∧
          entry.count.toNat =
            min 255 (reportsOf id ((heard s (withRssi rssi es)).map Prod.fst)).length ∧
          Between (firstReportsOf id ((heard s (withRssi rssi es)).map Prod.fst)) entry.rssi := by
  obtain ⟨chunk, hchunk, ha⟩ := h rssi
  obtain ⟨built, aggregated, hbuilt, heq⟩ := finalizedChunk_eq s (withRssi rssi es)
  rw [heq, finalParameters_withRssi, Option.some.injEq] at hchunk
  subst hchunk
  refine ⟨built, aggregated, hbuilt, ?_⟩
  have hmem := ha.ids
  rw [counted_eq_heard, distinctIds_of_levelled (heard_withRssi s rssi es 0),
    ← counted_eq_heard] at hmem
  rw [← hmem] at hid
  obtain ⟨entry, he, rfl⟩ := List.mem_map.mp hid
  have hcount := ha.count entry he
  have hbetween := ha.between entry he
  rw [counted_eq_heard] at hcount hbetween
  exact ⟨entry, he, rfl, hcount, hbetween⟩

/-- If all reports have the RSSI 1, the chunk shows whether those that were taken are mixed. -/
theorem AlwaysAggregates.unmixed (h : AlwaysAggregates s es) {id : UInt16}
    (hid : id ∈ (distinctIds (counted s.scanParameters es)).take scanSamplingChunkDataSize) :
    ∀ c ∈ (firstReportsOf id (taken (heard s es))).tail,
      c.aggregationType = 0 ↔ (finalParameters s.scanParameters es).aggregationType = 0 := by
  obtain ⟨built, aggregated, hbuilt, entry, he, rfl, -, hbetween⟩ := h.entry (fun _ => 1) hid
  rw [heard_level] at hbuilt hbetween
  obtain ⟨hknown, hcount, hrssi⟩ := mem_processReports hbuilt he
  have hones : ∀ cs : List Counted, ∀ c ∈ firstReportsOf entry.id (cs.map (·.withRssi 1)),
      c.report.rssi = 1 := by
    intro cs c hc
    rw [firstReportsOf_map] at hc
    obtain ⟨d, -, rfl⟩ := List.mem_map.mp hc
    rfl
  rw [map_fst_levelled] at hbetween
  have hone := eq_of_between hbetween (hones _)
  rw [taken_levelled] at hknown hcount hrssi
  rw [← unmixed_map 1]
  exact unmixed_of_one (firstReportsOf_ne_nil (List.mem_of_mem_take hknown)) (hones _)
    (List.length_take_le _ _) hcount (hrssi.symm.trans hone)

/-! ### A missed report -/

/-- The first `n` reports of the device have the RSSI `a`, all others `b`. -/
def marked (id : UInt16) (a b : Int8) : Nat → List (Counted × Bool) → List (Counted × Bool)
  | 0, cs => levelled b cs
  | _ + 1, [] => []
  | n + 1, c :: cs =>
    if c.1.report.id = id then (c.1.withRssi a, c.2) :: marked id a b n cs
    else (c.1.withRssi b, c.2) :: marked id a b (n + 1) cs

theorem levelled_marked (x : Int8) (id : UInt16) (a b : Int8) (n : Nat)
    (L : List (Counted × Bool)) : levelled x (marked id a b n L) = levelled x L := by
  induction L generalizing n with
  | nil => cases n <;> rfl
  | cons c L ih =>
    cases n with
    | zero =>
      rw [marked, levelled, levelled, List.map_map]
      rfl
    | succ n =>
      rw [marked]
      split
      · exact congrArg (List.cons _) (ih n)
      · exact congrArg (List.cons _) (ih (n + 1))

theorem filter_marked (id : UInt16) (a b : Int8) (n : Nat) (L : List (Counted × Bool)) :
    (marked id a b n L).filter (fun c => c.1.report.id = id) =
      levelled a ((L.filter fun c => c.1.report.id = id).take n) ++
        levelled b ((L.filter fun c => c.1.report.id = id).drop n) := by
  induction L generalizing n with
  | nil => cases n <;> rfl
  | cons c L ih =>
    cases n with
    | zero =>
      rw [marked, filter_levelled, List.take_zero, List.drop_zero]
      rfl
    | succ n =>
      rw [marked]
      by_cases hid : c.1.report.id = id
      · rw [if_pos hid, List.filter_cons_of_pos (by exact decide_eq_true hid),
          List.filter_cons_of_pos (by exact decide_eq_true hid), ih,
          List.take_succ_cons, List.drop_succ_cons]
        rfl
      · rw [if_neg hid, List.filter_cons_of_neg (by exact mt of_decide_eq_true hid),
          List.filter_cons_of_neg (by exact mt of_decide_eq_true hid), ih]

theorem take_marked (a b : Int8) (n : Nat) (M : List (Counted × Bool)) :
    (levelled a (M.take n) ++ levelled b (M.drop n)).take n = levelled a (M.take n) := by
  rcases Nat.le_total n M.length with hle | hle
  · exact List.take_left' (by rw [levelled, List.length_map, List.length_take_of_le hle])
  · rw [List.drop_of_length_le hle, levelled, levelled, List.map_nil, List.append_nil,
      ← List.map_take, List.take_take, Nat.min_self]

theorem mem_marked {a b : Int8} {n : Nat} {M : List (Counted × Bool)} {c : Counted × Bool}
    (h : c ∈ levelled a (M.take n) ++ levelled b (M.drop n)) :
    c.1.report.rssi = a ∨ c.1.report.rssi = b := by
  rcases List.mem_append.mp h with h | h
  · obtain ⟨d, -, rfl⟩ := List.mem_map.mp h
    exact .inl rfl
  · obtain ⟨d, -, rfl⟩ := List.mem_map.mp h
    exact .inr rfl

/-- When as many reports are counted as came first, but one of these was missed, a later
one was counted. -/
theorem exists_late {a b : Int8} {n : Nat} {M : List (Counted × Bool)}
    (hmissed : ∃ c ∈ M.take n, ¬ c.2 = true)
    (hlen : ((taken (levelled a (M.take n) ++ levelled b (M.drop n))).take n).length =
      min n M.length) :
    ∃ c ∈ (taken (levelled a (M.take n) ++ levelled b (M.drop n))).take n, c.report.rssi = b := by
  obtain ⟨c, hc, hoff⟩ := hmissed
  have hlt : (taken (levelled a (M.take n))).length < min n M.length := by
    rw [taken_levelled, List.length_map, taken, List.length_map, ← List.length_take]
    exact List.length_filter_lt_length_iff_exists.mpr ⟨c, hc, hoff⟩
  rw [taken_append] at hlen ⊢
  rw [← hlen] at hlt
  refine ⟨_, List.getElem_mem hlt, ?_⟩
  rw [List.getElem_take, List.getElem_append_right (Nat.le_refl _)]
  have hb : ∀ c ∈ taken (levelled b (M.drop n)), c.report.rssi = b := by
    rw [taken_levelled]
    exact List.forall_mem_map.mpr fun _ _ => rfl
  exact hb _ (List.getElem_mem _)

/-- There are two values by which every aggregation tells a later report from the first
ones. -/
theorem exists_telling (aggregationType : UInt8) :
    ∃ a b : Int8, ∀ cs : List Counted, (∀ c ∈ cs, c.report.rssi = a ∨ c.report.rssi = b) →
      (∃ c ∈ cs, c.report.rssi = b) → ¬ Aggregated aggregationType cs a := by
  by_cases ht : aggregationType = 0
  · refine ⟨0, 1, fun cs _ hex h => ?_⟩
    obtain ⟨c, hc, hb⟩ := hex
    rw [Aggregated, if_pos ht] at h
    have hle := h.2 c hc
    rw [hb] at hle
    exact absurd hle (by decide)
  · refine ⟨1, 0, fun cs hcs hex h => ?_⟩
    obtain ⟨c, hc, hb⟩ := hex
    have hbounds : ∀ c ∈ cs, 0 ≤ c.report.rssi.toInt ∧ c.report.rssi.toInt ≤ 1 := by
      intro c hc
      rcases hcs c hc with h | h
      · rw [h]
        decide
      · rw [h]
        decide
    have hsum : (cs.map fun c : Counted => c.report.rssi.toInt).sum < cs.length := by
      have hlt := List.sum_lt_sum (l := cs) (fun c : Counted => c.report.rssi.toInt) (fun _ => 1)
        (fun c hc => (hbounds c hc).2) ⟨c, hc, by rw [hb]; decide⟩
      simpa using hlt
    rw [Aggregated, if_neg ht, Int.tdiv_eq_zero_of_lt
      (List.sum_nonneg (List.forall_mem_map.mpr fun c hc => (hbounds c hc).1)) hsum] at h
    exact absurd h (by decide)

theorem AlwaysAggregates.complete (h : AlwaysAggregates s es) : Complete s es := by
  intro id hid
  by_contra hmissed
  simp only [not_forall, exists_prop] at hmissed
  obtain ⟨a, b, htell⟩ := exists_telling (finalParameters s.scanParameters es).aggregationType
  obtain ⟨rssi, hL⟩ := exists_withRssi (levelled_marked 0 id a b 255 (heard s es))
  obtain ⟨built, aggregated, hbuilt, entry, he, rfl, hlen, hbetween⟩ := h.entry rssi hid
  rw [hL] at hbuilt hlen hbetween
  obtain ⟨-, hcount, -⟩ := mem_processReports hbuilt he
  have hreports := filter_marked entry.id a b 255 (heard s es)
  -- the first reports of the device have the one value, so the entry has it
  have hfirst : ∀ c ∈ firstReportsOf entry.id ((marked entry.id a b 255 (heard s es)).map
      Prod.fst), c.report.rssi = a := by
    rw [firstReportsOf, reportsOf_map_fst, hreports, ← List.map_take, take_marked,
      map_fst_levelled]
    exact List.forall_mem_map.mpr fun _ _ => rfl
  have ha := eq_of_between hbetween hfirst
  have hu := unmixed_of_levelled (levelled_marked 0 entry.id a b 255 (heard s es)).symm entry.id
    (h.unmixed hid)
  have hvalue := (aggregated_of_mem hbuilt he hu).1
  rw [ha, firstReportsOf, reportsOf_taken, hreports] at hvalue
  refine htell _ (fun c hc => ?_) (exists_late hmissed ?_) hvalue
  · obtain ⟨d, hd, rfl⟩ := List.mem_map.mp (List.mem_of_mem_take hc)
    exact mem_marked (List.mem_of_mem_filter hd)
  · rw [← hreports, ← reportsOf_taken]
    refine hcount.symm.trans (hlen.trans ?_)
    rw [reportsOf_map_fst, hreports, List.length_map, List.length_append, levelled, levelled,
      List.length_map, List.length_map, ← List.length_append, List.take_append_drop]

end Mixed

/-- Between the set-up and the end of a chunk: it holds what it should, whatever the RSSI
values are, exactly if no device is mixed and no report that counts is missed. -/
theorem scan_aggregation_iff (s : State) (es : List ScanEvent) :
    (∀ rssi : Nat → Int8, ∃ chunk, finalizedChunk s (withRssi rssi es) = some chunk ∧
      Aggregates s.scanParameters (withRssi rssi es) chunk) ↔
        Unmixed s.scanParameters es ∧ Complete s es := by
  constructor
  · intro h
    have hcomplete : Complete s es := AlwaysAggregates.complete h
    refine ⟨fun id hid => ?_, hcomplete⟩
    have hu := AlwaysAggregates.unmixed h hid
    rw [firstReportsOf_taken (hcomplete id hid), ← counted_eq_heard] at hu
    exact hu
  · rintro ⟨hu, hc⟩ rssi
    obtain ⟨built, aggregated, hbuilt, heq⟩ := finalizedChunk_eq s (withRssi rssi es)
    exact ⟨_, heq, aggregates_of_unmixed (hbuilt.of_complete ((complete_withRssi s rssi es).mpr hc))
      ((unmixed_withRssi s rssi es).mpr hu)⟩

/-- A scan that is sampled with the mean. -/
def meanScan : State :=
  (startScan ⟨0, 60, 100, 50, 10, 1, 1, false⟩
    (init resetAccel (fun _ => false) fun _ _ _ => false)).2

/-- A sum that is taken for the maximum. -/
theorem sum_taken_for_maximum :
    let es : List ScanEvent := [.report ⟨7, 1, -60⟩, .report ⟨7, 1, -60⟩,
      .start ⟨0, 60, 100, 50, 10, 1, 0, false⟩]
    meanScan.configuration .scan false = true ∧
      finalizedChunk meanScan es = some [⟨7, -120, 2⟩] ∧
      ¬ ∃ chunk, finalizedChunk meanScan es = some chunk ∧
        Aggregates meanScan.scanParameters es chunk := by
  intro es
  have hchunk : finalizedChunk meanScan es = some [⟨7, -120, 2⟩] := by decide +kernel
  refine ⟨by decide +kernel, hchunk, ?_⟩
  rintro ⟨chunk, heq, ha⟩
  rw [hchunk, Option.some.injEq] at heq
  subst heq
  obtain ⟨⟨c, hc, hle⟩, -⟩ := ha.between _ (List.mem_singleton_self _)
  have hnot : ∀ c ∈ firstReportsOf 7 (counted meanScan.scanParameters es),
      ¬ c.report.rssi ≤ -120 := by decide +kernel
  exact hnot c hc hle

end OpenBadge.Sampling
