import OpenBadge.Systick.Model

/-!
# The ticks since start

As long as the counter does not go round between a callback and the next callback or
read, the count at the last callback and the counter's difference make up the true number
of ticks, up to the 64 bits of the count.
-/

namespace OpenBadge.Systick

open OpenBadge.Lib

variable {s : State}

/-- Fewer than 2^24 ticks lie between a callback and the next callback or read. -/
def InTime (s : State) : Action → Prop
  | .callback | .getTicksSinceStart | .setMillis _ _ | .getMillis =>
    s.now - s.lastCallback < 2 ^ 24
  | .tick _ | .proceed => True

instance (s : State) (a : Action) : Decidable (InTime s a) := by
  unfold InTime
  split <;> infer_instance

/-- The variables at the last callback. -/
structure Counting (s : State) : Prop where
  last_le : s.lastCallback ≤ s.now
  count : s.ticksSinceStart.toNat = s.lastCallback % 2 ^ 64
  former : s.formerTicks = UInt32.ofNat ((s.start + s.lastCallback) % 2 ^ 24)

/-- The difference of two readings of the counter. -/
theorem cntDiff_toNat {a b : Nat} (hle : a ≤ b) (hlt : b - a < 2 ^ 24) :
    (appTimerCntDiffCompute (UInt32.ofNat (b % 2 ^ 24)) (UInt32.ofNat (a % 2 ^ 24))).toNat =
      b - a := by
  have hmask : (0x00FFFFFF : UInt32).toNat = 2 ^ 24 - 1 := rfl
  rw [appTimerCntDiffCompute, UInt32.toNat_and, hmask, Nat.and_two_pow_sub_one_eq_mod,
    UInt32.toNat_sub, UInt32.toNat_ofNat', UInt32.toNat_ofNat']
  omega

theorem Counting.diff (h : Counting s) (hin : s.now - s.lastCallback < 2 ^ 24) :
    (appTimerCntDiffCompute (appTimerCntGet s) s.formerTicks).toNat = s.now - s.lastCallback := by
  have hle := h.last_le
  rw [appTimerCntGet, h.former, cntDiff_toNat (by omega) (by omega)]
  omega

/-- What a read returns. -/
theorem Counting.getTicksSinceStart (h : Counting s) (hin : s.now - s.lastCallback < 2 ^ 24) :
    (getTicksSinceStart s).toNat = s.now % 2 ^ 64 := by
  have hle := h.last_le
  rw [Systick.getTicksSinceStart, UInt64.toNat_add, UInt32.toNat_toUInt64, h.diff hin, h.count]
  omega

theorem Counting.callback (h : Counting s) (hin : s.now - s.lastCallback < 2 ^ 24) :
    Counting (callback s) where
  last_le := Nat.le_refl _
  count := h.getTicksSinceStart hin
  former := rfl

theorem counting_init (start delay : Nat) : Counting (init start delay) where
  last_le := Nat.zero_le _
  count := rfl
  former := rfl

theorem Counting.step (h : Counting s) {a : Action} (hin : InTime s a) :
    Counting (step s a) := by
  cases a with
  | tick ticks =>
    exact ⟨h.last_le.trans (Nat.le_add_right _ _), h.count, h.former⟩
  | callback => exact h.callback hin
  | getTicksSinceStart => exact h
  | setMillis sync millis =>
    rw [Systick.step]
    split
    · exact ⟨h.last_le, h.count, h.former⟩
    · exact h
  | getMillis => exact ⟨h.last_le, h.count, h.former⟩
  | proceed =>
    rw [Systick.step, proceed]
    split <;> exact ⟨h.last_le, h.count, h.former⟩

/-! ## The offset -/

/-- The offset lies in the past, also for the calls that have read the ticks already. -/
structure Ordered (s : State) : Prop extends Counting s where
  offset_le : s.ticksAtOffset.toNat ≤ s.now
  setting : ∀ c, s.setting = some c →
    s.ticksAtOffset ≤ c.curTicksSinceStart ∧ c.curTicksSinceStart.toNat ≤ s.now
  getting : ∀ cur ∈ s.getting, s.ticksAtOffset ≤ cur

/-- The counter has not gone round, and the 64 bits of the count suffice. -/
def Within (s : State) (a : Action) : Prop := InTime s a ∧ s.now < 2 ^ 64

instance (s : State) (a : Action) : Decidable (Within s a) := inferInstanceAs (Decidable (_ ∧ _))

/-- The time that the synchronisation is taken for lies between the offset and the ticks
that the call has read. -/
theorem clampSync_mem (c : SetCall) (h : s.ticksAtOffset ≤ c.curTicksSinceStart) :
    s.ticksAtOffset ≤ clampSync s c ∧ clampSync s c ≤ c.curTicksSinceStart := by
  rw [clampSync]
  split
  · rw [if_neg (UInt64.not_lt.mpr h)]
    exact ⟨h, UInt64.le_refl _⟩
  · rename_i hsync
    split
    · exact ⟨UInt64.le_refl _, h⟩
    · rename_i hoffset
      exact ⟨UInt64.not_lt.mp hoffset, UInt64.not_lt.mp hsync⟩

theorem Counting.exact (h : Counting s) (hin : s.now - s.lastCallback < 2 ^ 24)
    (hnow : s.now < 2 ^ 64) : (Systick.getTicksSinceStart s).toNat = s.now := by
  rw [h.getTicksSinceStart hin, Nat.mod_eq_of_lt hnow]

theorem ordered_init (start : Nat) {delay : Nat} (hdelay : delay < 2 ^ 24) :
    Ordered (init start delay) where
  toCounting := counting_init start delay
  offset_le := by
    have hread := (counting_init start delay).exact (by exact hdelay) (by
      change delay < _
      omega)
    exact Nat.le_of_eq hread
  setting _ h := nomatch h
  getting _ h := nomatch h

theorem Ordered.step (h : Ordered s) {a : Action} (hin : Within s a) : Ordered (step s a) := by
  have hcount := h.toCounting.step hin.1
  cases a with
  | tick ticks =>
    refine ⟨hcount, h.offset_le.trans (Nat.le_add_right _ _), fun c hc => ?_, h.getting⟩
    exact ⟨(h.setting c hc).1, (h.setting c hc).2.trans (Nat.le_add_right _ _)⟩
  | callback => exact ⟨hcount, h.offset_le, h.setting, h.getting⟩
  | getTicksSinceStart => exact h
  | setMillis sync millis =>
    rw [Systick.step] at hcount ⊢
    split at hcount
    · rename_i hfree
      have hread := h.toCounting.exact hin.1 hin.2
      rw [if_pos hfree]
      refine ⟨hcount, h.offset_le, ?_, h.getting⟩
      rintro c ⟨⟩
      refine ⟨UInt64.le_iff_toNat_le.mpr ?_, Nat.le_of_eq hread⟩
      exact h.offset_le.trans (Nat.le_of_eq hread.symm)
    · rename_i hbusy
      rw [if_neg hbusy]
      exact h
  | getMillis =>
    have hread := h.toCounting.exact hin.1 hin.2
    refine ⟨hcount, h.offset_le, h.setting, fun cur hcur => ?_⟩
    rcases List.mem_cons.mp hcur with rfl | hcur
    · exact UInt64.le_iff_toNat_le.mpr (h.offset_le.trans (Nat.le_of_eq hread.symm))
    · exact h.getting cur hcur
  | proceed =>
    rw [Systick.step, proceed] at hcount ⊢
    split at hcount
    · rename_i cur getting hg
      exact ⟨hcount, h.offset_le, h.setting, fun x hx => h.getting x (by
        rw [hg]
        exact List.mem_cons_of_mem _ hx)⟩
    · rename_i c hg hs
      obtain ⟨hle, hcur⟩ := h.setting c hs
      refine ⟨hcount, ?_, (fun _ hc => nomatch hc), fun x hx => ?_⟩
      · exact (UInt64.le_iff_toNat_le.mp (clampSync_mem c hle).2).trans hcur
      · change x ∈ s.getting at hx
        rw [hg] at hx
        cases hx
    · exact h

/-! ## Runs -/

/-- The reads of an action are exact and its subtractions do not go below 0. -/
def Exact (s : State) : Action → Prop
  | .getTicksSinceStart | .setMillis _ _ | .getMillis => (getTicksSinceStart s).toNat = s.now
  | .proceed =>
    match s.getting, s.setting with
    | cur :: _, _ => s.ticksAtOffset ≤ cur
    | [], some c => s.ticksAtOffset ≤ clampSync s c
    | [], none => True
  | .tick _ | .callback => True

theorem Ordered.exact (h : Ordered s) {a : Action} (hin : Within s a) : Exact s a := by
  cases a with
  | tick ticks => trivial
  | callback => trivial
  | getTicksSinceStart => exact h.toCounting.exact hin.1 hin.2
  | setMillis sync millis => exact h.toCounting.exact hin.1 hin.2
  | getMillis => exact h.toCounting.exact hin.1 hin.2
  | proceed =>
    rw [Exact]
    split
    · rename_i cur getting hg
      exact h.getting cur (by
        rw [hg]
        exact List.mem_cons_self ..)
    · rename_i c hg hs
      exact (clampSync_mem c (h.setting c hs).1).1
    · trivial

theorem now_le_step (s : State) (a : Action) : s.now ≤ (step s a).now := by
  cases a with
  | tick ticks => exact Nat.le_add_right _ _
  | callback => exact Nat.le_refl _
  | getTicksSinceStart => exact Nat.le_refl _
  | setMillis sync millis =>
    rw [step]
    split <;> exact Nat.le_refl _
  | getMillis => exact Nat.le_refl _
  | proceed =>
    rw [step, proceed]
    split <;> exact Nat.le_refl _

/-- Later reads return no less than earlier ones. -/
theorem Ordered.readings {actions : List Action} (h : Ordered s)
    (hin : Along Systick.step Within s actions) :
    (readings s actions).Pairwise (· ≤ ·) ∧ ∀ r ∈ readings s actions, s.now ≤ r.toNat := by
  induction actions generalizing s with
  | nil => exact ⟨List.Pairwise.nil, fun r hr => nomatch hr⟩
  | cons a as ih =>
    obtain ⟨hsorted, hge⟩ := ih (h.step hin.1) hin.2
    have hlater : ∀ r ∈ Systick.readings (Systick.step s a) as, s.now ≤ r.toNat :=
      fun r hr => (now_le_step s a).trans (hge r hr)
    rw [Systick.readings.eq_def]
    split
    · contradiction
    · rename_i as' heq
      cases heq
      have hread := h.toCounting.exact hin.1.1 hin.1.2
      refine ⟨List.Pairwise.cons (fun r hr => ?_) hsorted, fun r hr => ?_⟩
      · exact UInt64.le_iff_toNat_le.mpr (by
          rw [hread]
          exact hlater r hr)
      · rcases List.mem_cons.mp hr with rfl | hr
        · exact Nat.le_of_eq hread.symm
        · exact hlater r hr
    · rename_i a' as' _ heq
      cases heq
      exact ⟨hsorted, hlater⟩

/-- As long as 64 bits suffice, every read returns the true number of ticks, later reads
return no less than earlier ones, and no subtraction of ticks goes below 0. -/
theorem ticks_since_start_exact (start : Nat) {delay : Nat} (hdelay : delay < 2 ^ 24)
    {actions : List Action} (hin : Along step Within (init start delay) actions) :
    Along step Exact (init start delay) actions ∧
      (readings (init start delay) actions).Pairwise (· ≤ ·) ∧
      (run step (init start delay) actions).ticksAtOffset.toNat ≤
        (run step (init start delay) actions).now := by
  have hinit := ordered_init start hdelay
  refine ⟨?_, (hinit.readings hin).1, ?_⟩
  · exact (Along.strengthen (I := Ordered) (fun _ _ h hc => h.step hc) hinit hin).mono
      fun _ _ h => h.1.exact h.2
  · exact (run_invariant (I := Ordered) (fun _ _ h hc => h.step hc) hinit hin).offset_le

/-- The counter goes round during the run, and a time in the future is synchronised with
while the callback runs. -/
def roundTheCounter : List Action :=
  [.tick 10, .getTicksSinceStart, .callback, .tick 16777215, .setMillis 99999999 5, .callback,
    .tick 7, .getMillis, .proceed, .proceed, .getTicksSinceStart]

theorem ticks_since_start_exact_round :
    readings (init 16777210 1) roundTheCounter = [11, 16777233] ∧
      Along step Exact (init 16777210 1) roundTheCounter ∧
      (readings (init 16777210 1) roundTheCounter).Pairwise (· ≤ ·) ∧
      (run step (init 16777210 1) roundTheCounter).ticksAtOffset.toNat ≤
        (run step (init 16777210 1) roundTheCounter).now :=
  ⟨by decide, ticks_since_start_exact 16777210 (by decide) (by decide)⟩

/-- Callbacks every 2^23 ticks. -/
def callbacks : Nat → List Action
  | 0 => []
  | n + 1 => .tick (2 ^ 23) :: .callback :: callbacks n

theorem Counting.callbacks (h : Counting s) (hlast : s.lastCallback = s.now) (n : Nat)
    (rest : List Action) :
    (Along Systick.step InTime s (callbacks n ++ rest) ↔
        Along Systick.step InTime (run Systick.step s (callbacks n)) rest) ∧
      Counting (run Systick.step s (callbacks n)) ∧
      (run Systick.step s (callbacks n)).now = s.now + n * 2 ^ 23 ∧
      (run Systick.step s (callbacks n)).lastCallback = s.now + n * 2 ^ 23 := by
  induction n generalizing s with
  | zero => exact ⟨Iff.rfl, h, rfl, hlast⟩
  | succ n ih =>
    have htick := h.step (a := .tick (2 ^ 23)) trivial
    have hin : InTime (Systick.step s (.tick (2 ^ 23))) .callback := by
      change s.now + 2 ^ 23 - s.lastCallback < 2 ^ 24
      omega
    obtain ⟨hiff, hcount, hnow, hcallback⟩ := ih (htick.step hin) rfl
    refine ⟨?_, hcount, hnow.trans ?_, hcallback.trans ?_⟩
    · exact ⟨fun hc => hiff.mp hc.2.2, fun hc => ⟨trivial, hin, hiff.mpr hc⟩⟩
    · change s.now + 2 ^ 23 + n * 2 ^ 23 = _
      omega
    · change s.now + 2 ^ 23 + n * 2 ^ 23 = _
      omega

/-- After 2^64 ticks the count starts again. -/
theorem ticks_since_start_goes_round :
    Along step InTime (init 0 0) (callbacks (2 ^ 41) ++ [.getTicksSinceStart]) ∧
      ¬ Along step Exact (init 0 0) (callbacks (2 ^ 41) ++ [.getTicksSinceStart]) := by
  obtain ⟨hiff, hcount, hnow, hlast⟩ :=
    (counting_init 0 0).callbacks rfl (2 ^ 41) [.getTicksSinceStart]
  have hin : (run step (init 0 0) (callbacks (2 ^ 41))).now -
      (run step (init 0 0) (callbacks (2 ^ 41))).lastCallback < 2 ^ 24 := by omega
  refine ⟨hiff.mpr ⟨hin, trivial⟩, fun hexact => ?_⟩
  have hread := ((along_append _ _).mp hexact).2.1
  have h : (getTicksSinceStart (run step (init 0 0) (callbacks (2 ^ 41)))).toNat =
    (run step (init 0 0) (callbacks (2 ^ 41))).now := hread
  rw [hcount.getTicksSinceStart hin, hnow] at h
  have hinit : (init 0 0).now = 0 := rfl
  omega

end OpenBadge.Systick
