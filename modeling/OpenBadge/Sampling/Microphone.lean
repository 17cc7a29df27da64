import OpenBadge.Sampling.Callbacks
import OpenBadge.Sampling.Timers

/-!
# The microphone's average

The readings of the microphone are added up between two calls of the callback that
stores their average. The callback looks whether there were any and then divides by half
their number, which is zero for a single one.
-/

namespace OpenBadge.Sampling

open OpenBadge.Lib

variable (flash : Nat → UInt8)

/-! ## The calls -/

/-- The readings of `microphone_read` that did not fail. -/
def successes (reads : List (Except RetCode UInt8)) : List UInt8 := reads.filterMap Except.toOption

/-- A call of one of the three functions, or whatever the rest of the firmware does, which does
not touch the two sums. -/
inductive MicrophoneCall where
  | aggregatedCallback (reads : List (Except RetCode UInt8))
  | setupChunk
  | callback
  | elsewhere (t : State)

def State.withSums (s t : State) : State :=
  { t with
    microphoneAggregated := s.microphoneAggregated
    microphoneAggregatedCount := s.microphoneAggregatedCount }

/-- No sample has been added up, in a state that is otherwise arbitrary. -/
def State.cleared (t : State) : State :=
  { t with microphoneAggregated := 0, microphoneAggregatedCount := 0 }

/-- The state with the samples that were collected since the last reset. -/
structure Collected where
  state : State
  samples : List UInt8

def Collected.step (w : Collected) : MicrophoneCall → Collected
  | .aggregatedCallback reads =>
    ⟨((Interrupted.microphoneAggregatedCallback (successes reads)).run w.state).2,
      w.samples ++ successes reads⟩
  | .setupChunk => ⟨(Interrupted.setupMicrophoneChunk.run w.state).2, []⟩
  | .callback =>
    ⟨((Interrupted.microphoneCallback flash).run w.state).2,
      if w.state.microphoneAggregatedCount = 0 then w.samples else []⟩
  | .elsewhere t => ⟨w.state.withSums t, w.samples⟩

/-! ## The specification -/

/-- The sum of the samples. -/
def total (samples : List UInt8) : Nat := (samples.map UInt8.toNat).sum

/-- The smaller of 255 and the sum divided by half the number of samples, rounded down. -/
def average (samples : List UInt8) : UInt8 :=
  UInt8.ofNat (min 255 (total samples / (samples.length / 2)))

/-- The value goes to the next entry of the chunk, and a full chunk is finalized. -/
def storeSample (value : UInt8) : P Unit := do
  let t ← Interrupted.lookChunk .microphone
  let num := t.chunkByte flash .microphone microphoneCount
  Interrupted.writeChunk .microphone (some num.toNat) (microphoneData num.toNat) [value]
  let t ← Interrupted.lookChunk .microphone
  Interrupted.writeChunk .microphone none microphoneCount
    [t.chunkByte flash .microphone microphoneCount + 1]
  let t ← Interrupted.lookChunk .microphone
  Program.when (Source.microphone.dataSize ≤
      (t.chunkByte flash .microphone microphoneCount).toNat)
    Interrupted.finalizeMicrophoneChunk

/-- Nothing without a sample; else the sums are reset and the average is stored. -/
def storeAverage (samples : List UInt8) : P Unit := do
  let s ← (Proc.get : M State)
  Program.when (samples ≠ []) do
    (Proc.modify State.cleared : M Unit)
    Program.when (s.configuration .microphone false) (storeSample flash (average samples))

/-- A callback in this state that finds samples divides by a divisor that is not zero, and the
value it gets is the average. -/
def Averages (samples : List UInt8) (s : State) : Prop :=
  s.microphoneAggregatedCount ≠ 0 → s.microphoneAggregatedCount / 2 ≠ 0 ∧
    microphoneValue s.microphoneAggregated s.microphoneAggregatedCount = average samples

/-! ## The two sums -/

/-- The two variables hold the sum and the number of the samples, as far as 32 bits go. -/
structure Tallied (w : Collected) : Prop where
  sum : w.state.microphoneAggregated.toNat = total w.samples % 2 ^ 32
  count : w.state.microphoneAggregatedCount.toNat = w.samples.length % 2 ^ 32

theorem total_append (xs ys : List UInt8) : total (xs ++ ys) = total xs + total ys := by
  simp [total]

theorem add_up (values : List UInt8) (sum : UInt32) :
    (values.foldl (fun sum value => sum + value.toUInt32) sum).toNat =
      (sum.toNat + total values) % 2 ^ 32 := by
  induction values generalizing sum with
  | nil =>
    have h := sum.toNat_lt
    simp only [List.foldl_nil, total, List.map_nil, List.sum_nil, Nat.add_zero]
    exact (Nat.mod_eq_of_lt h).symm
  | cons value values ih =>
    have hvalue : total (value :: values) = value.toNat + total values := by simp [total]
    rw [List.foldl_cons, ih, UInt32.toNat_add, UInt8.toNat_toUInt32, hvalue]
    omega

/-- What neither resets nor adds to the sums. -/
def SumsAre (sum count : UInt32) (s : State) : Prop :=
  s.microphoneAggregated = sum ∧ s.microphoneAggregatedCount = count

variable {sum count : UInt32}

theorem writeChunk_sums (source : Source) (offset : Nat) (data : List UInt8) :
    Proc.Keeps (SumsAre sum count) (writeChunk source offset data) := by
  intro s hs
  obtain ⟨fifos, ht⟩ := writeChunk_ok source offset data s
  rw [ht]
  exact hs

theorem openChunk_sums (source : Source) :
    Proc.Keeps (SumsAre sum count) (openChunk source) := fun _ hs => hs

theorem get_sums : Proc.Keeps (SumsAre sum count) (Proc.get : M State) := fun _ hs => hs

theorem stampChunk_sums (source : Source) :
    Proc.Keeps (SumsAre sum count) (stampChunk source) :=
  get_sums.bind fun _ => writeChunk_sums source 0 _

theorem setupMicrophoneChunk_sums (s : State) :
    SumsAre 0 0 (Interrupted.setupMicrophoneChunk.run s).2 := by
  have hrest : Proc.Keeps (SumsAre 0 0) (do
      openChunk .microphone
      stampChunk .microphone
      let s ← Proc.get
      writeChunk .microphone microphoneSamplePeriod
        (littleEndian 2 s.microphoneParameters.periodMs.toNat)
      writeChunk .microphone microphoneCount [0]) := by
    apply (openChunk_sums _).bind
    intro _
    apply (stampChunk_sums _).bind
    intro _
    apply get_sums.bind
    intro _
    exact (writeChunk_sums _ _ _).bind fun _ => writeChunk_sums _ _ _
  exact hrest s.cleared ⟨rfl, rfl⟩

theorem storeSample_sums (value : UInt8) :
    Proc.Keeps (SumsAre 0 0) (storeSample flash value).run := by
  simp only [storeSample, Program.run_bind, Program.run_when]
  apply get_sums.bind
  intro _
  apply (writeChunk_sums _ _ _).bind
  intro _
  apply get_sums.bind
  intro _
  apply (writeChunk_sums _ _ _).bind
  intro _
  apply get_sums.bind
  intro _
  apply Proc.Keeps.when
  intro _ s _
  exact setupMicrophoneChunk_sums _

/-- The callback resets the sums unless there was nothing to add up. -/
theorem microphoneCallback_of_pos {s : State} (h : s.microphoneAggregatedCount ≠ 0) :
    (Interrupted.microphoneCallback flash).run s =
      (Proc.when (s.configuration .microphone false) (storeSample flash (microphoneValue
        s.microphoneAggregated s.microphoneAggregatedCount)).run) s.cleared := by
  have hrun : Interrupted.microphoneCallback flash = (do
      let s ← (Proc.get : M State)
      Program.when (s.microphoneAggregatedCount ≠ 0) do
        (Proc.modify State.cleared : M Unit)
        Program.when (s.configuration .microphone false) (storeSample flash (microphoneValue
          s.microphoneAggregated s.microphoneAggregatedCount))) := rfl
  rw [hrun]
  simp only [Program.run_bind, Program.run_when, Interrupted.run_lift, Proc.get_bind_apply]
  rw [Proc.when_pos h, Proc.modify_bind_apply]

theorem microphoneCallback_of_zero {s : State} (h : s.microphoneAggregatedCount = 0) :
    (Interrupted.microphoneCallback flash).run s = (.ok (), s) := by
  simp only [Interrupted.microphoneCallback, Program.run_bind, Program.run_when,
    Interrupted.run_lift, Proc.get_bind_apply]
  rw [Proc.when_neg (not_not_intro h)]
  rfl

theorem storeAverage_of_ne {samples : List UInt8} (h : samples ≠ []) (s : State) :
    (storeAverage flash samples).run s =
      (Proc.when (s.configuration .microphone false)
        (storeSample flash (average samples)).run) s.cleared := by
  simp only [storeAverage, Program.run_bind, Program.run_when, Interrupted.run_lift,
    Proc.get_bind_apply]
  rw [Proc.when_pos h, Proc.modify_bind_apply]

/-- What one call does to the two sums. -/
theorem step_tallied {w : Collected} (h : Tallied w) (c : MicrophoneCall) :
    Tallied (w.step flash c) := by
  cases c with
  | aggregatedCallback reads =>
    constructor
    · change (((successes reads).foldl (fun sum value => sum + value.toUInt32)
        w.state.microphoneAggregated).toNat) = total (w.samples ++ successes reads) % 2 ^ 32
      rw [add_up, h.sum, total_append, Nat.mod_add_mod]
    · change (w.state.microphoneAggregatedCount + UInt32.ofNat (successes reads).length).toNat =
        (w.samples ++ successes reads).length % 2 ^ 32
      rw [UInt32.toNat_add, UInt32.toNat_ofNat', h.count, List.length_append, ← Nat.add_mod]
  | setupChunk =>
    obtain ⟨hs, hc⟩ := setupMicrophoneChunk_sums w.state
    exact ⟨congrArg UInt32.toNat hs, congrArg UInt32.toNat hc⟩
  | callback =>
    by_cases hc : w.state.microphoneAggregatedCount = 0
    · have hstep : w.step flash .callback = w := by
        simp only [Collected.step, microphoneCallback_of_zero flash hc, if_pos hc]
      rw [hstep]
      exact h
    · have hcleared : SumsAre 0 0 ((Interrupted.microphoneCallback flash).run w.state).2 := by
        rw [microphoneCallback_of_pos flash hc]
        exact Proc.Keeps.when (fun _ => storeSample_sums flash _) _ ⟨rfl, rfl⟩
      simp only [Collected.step, if_neg hc]
      exact ⟨congrArg UInt32.toNat hcleared.1, congrArg UInt32.toNat hcleared.2⟩
  | elsewhere t => exact ⟨h.sum, h.count⟩

theorem run_tallied (t : State) (calls : List MicrophoneCall) :
    Tallied (run (Collected.step flash) ⟨t.cleared, []⟩ calls) := by
  have hinit : Tallied ⟨t.cleared, []⟩ := ⟨rfl, rfl⟩
  have hstep : ∀ w c, Tallied w → True → Tallied (w.step flash c) :=
    fun w c hw _ => step_tallied flash hw c
  exact run_invariant hstep hinit (Along.of_forall (fun _ _ => trivial) calls)

/-! ## The average -/

/-- A wrapped sum gives another quotient, which is hidden where both are cut off. -/
theorem wrapped_quotient_iff {sum half : Nat} (hpos : 0 < half) (hhalf : half < 2 ^ 32) :
    min 255 (sum % 2 ^ 32 / half) = min 255 (sum / half) ↔
      sum < 2 ^ 32 ∨ 255 * half ≤ sum % 2 ^ 32 := by
  by_cases hlt : sum < 2 ^ 32
  · rw [Nat.mod_eq_of_lt hlt]
    exact ⟨fun _ => .inl hlt, fun _ => rfl⟩
  · have hmod : sum % 2 ^ 32 + half ≤ sum := by omega
    have hquot : sum % 2 ^ 32 / half + 1 ≤ sum / half := by
      rw [← Nat.add_div_right _ hpos]
      exact Nat.div_le_div_right hmod
    rw [← Nat.le_div_iff_mul_le hpos]
    omega

theorem microphoneValue_toNat (aggregated count : UInt32) :
    (microphoneValue aggregated count).toNat =
      min 255 (aggregated.toNat / (count.toNat / 2)) := by
  have hdiv : (aggregated / (count / 2)).toNat = aggregated.toNat / (count.toNat / 2) := rfl
  unfold microphoneValue
  dsimp only
  split
  · next h =>
    have h' : 255 < aggregated.toNat / (count.toNat / 2) := by
      rw [← hdiv]
      exact UInt32.lt_iff_toNat_lt.mp h
    exact (Nat.min_eq_left (Nat.le_of_lt h')).symm
  · next h =>
    have h' : ¬ 255 < aggregated.toNat / (count.toNat / 2) := by
      rw [← hdiv]
      exact fun hlt => h (UInt32.lt_iff_toNat_lt.mpr hlt)
    rw [UInt32.toNat_toUInt8, hdiv]
    omega

theorem average_toNat (samples : List UInt8) :
    (average samples).toNat = min 255 (total samples / (samples.length / 2)) := by
  have hle := Nat.min_le_left 255 (total samples / (samples.length / 2))
  rw [average, UInt8.toNat_ofNat']
  exact Nat.mod_eq_of_lt (by omega)

theorem averages_iff {w : Collected} (h : Tallied w) (hlen : w.samples.length < 2 ^ 32) :
    Averages w.samples w.state ↔ w.samples.length ≠ 1 ∧
      (total w.samples < 2 ^ 32 ∨ 255 * (w.samples.length / 2) ≤ total w.samples % 2 ^ 32) := by
  have hcount := h.count
  rw [Nat.mod_eq_of_lt hlen] at hcount
  have hdiv : (w.state.microphoneAggregatedCount / 2).toNat = w.samples.length / 2 := by
    rw [← hcount]
    rfl
  have hvalue : microphoneValue w.state.microphoneAggregated w.state.microphoneAggregatedCount =
      average w.samples ↔ min 255 (total w.samples % 2 ^ 32 / (w.samples.length / 2)) =
        min 255 (total w.samples / (w.samples.length / 2)) := by
    rw [← UInt8.toNat_inj, microphoneValue_toNat, average_toNat, h.sum, hcount]
  unfold Averages
  rw [hvalue, Ne, ← UInt32.toNat_inj, hcount, Ne, ← UInt32.toNat_inj, hdiv]
  change (¬ w.samples.length = 0 → ¬ w.samples.length / 2 = 0 ∧ _) ↔ _
  rcases Nat.lt_or_ge w.samples.length 2 with hsmall | hlarge
  · rcases Nat.lt_or_ge w.samples.length 1 with hzero | hone
    · have hnil : w.samples = [] := List.eq_nil_of_length_eq_zero (by omega)
      simp [hnil, total]
    · have hlength : w.samples.length = 1 := by omega
      simp [hlength]
  · rw [wrapped_quotient_iff (by omega) (by omega)]
    constructor
    · intro hall
      exact ⟨by omega, (hall (by omega)).2⟩
    · intro hall _
      exact ⟨by omega, hall.2⟩

theorem storeAverage_of_averages {w : Collected} (h : Tallied w)
    (hlen : w.samples.length < 2 ^ 32) (ha : Averages w.samples w.state) :
    (Interrupted.microphoneCallback flash).run w.state =
      (storeAverage flash w.samples).run w.state := by
  have hcount := h.count
  rw [Nat.mod_eq_of_lt hlen] at hcount
  by_cases hc : w.state.microphoneAggregatedCount = 0
  · have hnil : w.samples = [] := by
      apply List.eq_nil_of_length_eq_zero
      rw [← hcount, hc]
      rfl
    rw [microphoneCallback_of_zero flash hc, hnil]
    rfl
  · have hne : w.samples ≠ [] := by
      intro hnil
      apply hc
      rw [← UInt32.toNat_inj, hcount, hnil]
      rfl
    rw [microphoneCallback_of_pos flash hc, storeAverage_of_ne flash hne, (ha hc).2]

/-- In every run of the three functions the callback divides by something else than zero and
stores the average of the samples since the last reset, except after a single sample and after
so many that their sum has wrapped. -/
theorem microphone_average_iff (t : State) (calls : List MicrophoneCall)
    (hlen : (run (Collected.step flash) ⟨t.cleared, []⟩ calls).samples.length < 2 ^ 32) :
    let w := run (Collected.step flash) ⟨t.cleared, []⟩ calls
    (Averages w.samples w.state ↔ w.samples.length ≠ 1 ∧
      (total w.samples < 2 ^ 32 ∨ 255 * (w.samples.length / 2) ≤ total w.samples % 2 ^ 32)) ∧
    (Averages w.samples w.state → (Interrupted.microphoneCallback flash).run w.state =
      (storeAverage flash w.samples).run w.state) := by
  have h := run_tallied flash t calls
  exact ⟨averages_iff h hlen, storeAverage_of_averages flash h hlen⟩

/-- The badge after a window with the given readings. -/
def afterWindow (reads : List (Except RetCode UInt8)) : Collected :=
  run (Collected.step fun _ => 0)
    ⟨(Sampling.init (Accel.init resetAccel).2 (fun _ => false) fun _ _ _ => false).cleared, []⟩
    [.aggregatedCallback reads]

theorem microphone_average_iff_three :
    Averages [7, 9, 200] (afterWindow [.ok 7, .error .busy, .ok 9, .ok 200]).state := by
  have h := microphone_average_iff (fun _ => 0)
    (Sampling.init (Accel.init resetAccel).2 (fun _ => false) fun _ _ _ => false)
    [.aggregatedCallback [.ok 7, .error .busy, .ok 9, .ok 200]] (by decide +kernel)
  exact h.1.mpr (by decide +kernel)

/-- All readings of the window but one fail. -/
theorem single_sample_divides_by_zero :
    (afterWindow [.error .busy, .ok 7]).samples = [7] ∧
    (afterWindow [.error .busy, .ok 7]).state.microphoneAggregatedCount ≠ 0 ∧
    (afterWindow [.error .busy, .ok 7]).state.microphoneAggregatedCount / 2 = 0 := by
  decide +kernel

end OpenBadge.Sampling
