import OpenBadge.Sampling.Tasks

/-!
# What the callbacks do to the chunks

A callback runs to its end without an interruption. It stores samples in the open chunk,
commits full chunks only, and leaves the other sources alone.
-/

namespace OpenBadge.Sampling

open OpenBadge.Lib

/-- What is behind the pointer is the open chunk, and a sample goes into the array. -/
def AccessOk : Event → State → Prop
  | .access source index, s =>
    (s.lane source).Open source ∧ ∀ i ∈ index, i < source.dataSize
  | _, _ => True

instance (e : Event) (s : State) : Decidable (AccessOk e s) := by
  unfold AccessOk
  split <;> infer_instance

/-- Only a sample has an index. -/
def Event.ofSample : Event → Prop
  | .access _ index => index ≠ none
  | _ => False

/-- The proof outline of a callback that begins in `s₀`, where `C` says that the pointer it
uses designates the open chunk. Samples are written on no other condition. -/
def callbackRules (C : Prop) (s₀ : State) : Program.Rules Event State where
  others _ _ := False
  guarantee e s t := (C ∨ e.ofSample → AccessOk e s) ∧ Honest e s t
  failure := Interferes s₀

/-- Only the chunks of one source changed since `s₀`, to a lane with `F`. -/
def Among (source : Source) (F : Lane → Prop) (s₀ t : State) : Prop :=
  (∀ other, other ≠ source → t.lane other = s₀.lane other) ∧ F (t.lane source)

/-- The open chunk of the source, whose number of samples has `C`. -/
def Collects (source : Source) (C : Nat → Prop) (v : Lane) : Prop :=
  Filling source C v ∧ v.Open source

section Rules

variable {C : Prop} {s₀ : State} {source : Source} {F G : Lane → Prop}

theorem stable_alone (A : State → Prop) : Program.Stable (callbackRules C s₀) A :=
  fun _ _ h => h.elim

theorem Among.mono {t : State} (h : Among source F s₀ t) (hFG : ∀ v, F v → G v) :
    Among source G s₀ t := ⟨h.1, hFG _ h.2⟩

theorem Among.interferes {t : State} (h : Among source F s₀ t)
    (hF : ∀ v, F v → LaneStep source (s₀.lane source) v) : Interferes s₀ t := by
  intro other _
  by_cases he : other = source
  · subst he
    exact hF _ h.2
  · rw [h.1 other he]
    exact LaneStep.refl _ _

/-- A call that cannot fail, of a function that works on the chunks of the source. -/
theorem callback_call {α : Type} {e : Event} {x : M α} (hok : ∀ s, ∃ a, (x s).1 = .ok a)
    (hother : ∀ s other, other ≠ source → (x s).2.lane other = s.lane other)
    (hsource : ∀ s, F (s.lane source) → G ((x s).2.lane source))
    (haccess : ∀ s, Among source F s₀ s → C ∨ e.ofSample → AccessOk e s)
    (hhonest : ∀ s, Honest e s (x s).2) :
    Program.Triple (callbackRules C s₀) (Among source F s₀) (.call e x)
      fun _ => Among source G s₀ := by
  refine Program.Triple.call (stable_alone _) (fun _ => stable_alone _) (stable_alone _)
    fun s hs => ⟨⟨haccess s hs, hhonest s⟩, ?_⟩
  obtain ⟨a, ha⟩ := hok s
  rw [ha]
  exact ⟨fun other hne => (hother s other hne).trans (hs.1 other hne), hsource s hs.2⟩

theorem callback_get {A : State → Prop} :
    Program.Triple (callbackRules C s₀) A (liftM (Proc.get : M State) : P State)
      fun r s => r = s ∧ A s :=
  Program.Triple.call (stable_alone _) (fun _ => stable_alone _) (stable_alone _) fun s hs =>
    ⟨⟨fun _ => trivial, (Unfilling.refl s).honest⟩, rfl, hs⟩

theorem callback_read {A : State → Prop} :
    Program.Triple (callbackRules C s₀) A (liftM (Proc.get : M State) : P State) fun _ => A :=
  callback_get.weaken (fun _ hs => hs) fun _ _ hs => hs.2

theorem callback_look (hopen : C → ∀ v, F v → v.Open source) :
    Program.Triple (callbackRules C s₀) (Among source F s₀) (Interrupted.lookChunk source)
      fun r s => r = s ∧ Among source F s₀ s := by
  refine Program.Triple.call (stable_alone _) (fun _ => stable_alone _) (stable_alone _)
    fun s hs => ⟨⟨fun hC => ⟨hopen ?_ _ hs.2, nofun⟩, ?_⟩, rfl, hs⟩
  · exact hC.elim id fun h => absurd rfl h
  · exact honest_of_same nofun nofun (fun _ => rfl) fun _ => rfl

/-- Calls that do not concern the chunks. -/
theorem callback_modify {f : State → State} (hf : ∀ s, (f s).lane = s.lane)
    (hfifos : ∀ s, (f s).fifos = s.fifos) :
    Program.Triple (callbackRules C s₀) (Among source F s₀)
      (liftM (Proc.modify f : M Unit) : P Unit) fun _ => Among source F s₀ := by
  refine callback_call (fun _ => ⟨(), rfl⟩) (fun s other _ => congrFun (hf s) other) (fun s hs => ?_)
    (fun _ _ _ => trivial) fun s => ?_
  · change F ((f s).lane source)
    rw [hf]
    exact hs
  · refine honest_of_same nofun nofun (fun other => ?_) fun other => ?_
    · exact congrArg Lane.chunk (congrFun (hf s) other)
    · exact congrArg _ (congrFun (hfifos s) other)

theorem callback_open (hG : ∀ v, F v → G (v.opened source)) :
    Program.Triple (callbackRules C s₀) (Among source F s₀) (Interrupted.openChunk source)
      fun _ => Among source G s₀ :=
  callback_call (fun _ => ⟨(), rfl⟩) (fun _ _ hne => lane_openChunk_of_ne hne)
    (fun s hs => by rw [lane_openChunk]; exact hG _ hs) (fun _ _ _ => trivial)
    (honest_openChunk source)

theorem callback_close (hG : ∀ v, F v → G (v.closed source)) :
    Program.Triple (callbackRules C s₀) (Among source F s₀) (Interrupted.closeChunk source)
      fun _ => Among source G s₀ :=
  callback_call (fun _ => ⟨(), rfl⟩) (fun _ _ hne => lane_closeChunk_of_ne hne)
    (fun s hs => by rw [lane_closeChunk]; exact hG _ hs) (fun _ _ _ => trivial)
    (honest_closeChunk source)

theorem callback_write {index : Option Nat} {offset : Nat} {data : List UInt8}
    (hopen : C ∨ index ≠ none → ∀ v, F v → v.Open source)
    (hindex : ∀ i ∈ index, i < source.dataSize) (hG : ∀ v, F v → G (v.write offset data)) :
    Program.Triple (callbackRules C s₀) (Among source F s₀)
      (Interrupted.writeChunk source index offset data) fun _ => Among source G s₀ :=
  callback_call (fun _ => ⟨(), rfl⟩) (fun _ _ hne => lane_writeChunk_of_ne hne _ _)
    (fun s hs => by rw [lane_writeChunk]; exact hG _ hs)
    (fun _ hs hC => ⟨hopen hC _ hs.2, hindex⟩) (honest_writeChunk source index offset data)

theorem callback_stamp (hopen : C → ∀ v, F v → v.Open source)
    (hG : ∀ v data, data.length = 6 → F v → G (v.write 0 data)) :
    Program.Triple (callbackRules C s₀) (Among source F s₀) (Interrupted.stampChunk source)
      fun _ => Among source G s₀ :=
  callback_call (fun _ => ⟨(), rfl⟩) (fun _ _ hne => lane_writeChunk_of_ne hne _ _)
    (fun s hs => by
      change G ((Sampling.writeChunk source 0 _ s).2.lane source)
      rw [lane_writeChunk]
      exact hG _ _ rfl hs)
    (fun _ hs hC => ⟨hopen (hC.elim id fun h => absurd rfl h) _ hs.2, nofun⟩)
    fun s => honest_writeChunk source none 0 _ s

theorem callback_pure (hFG : ∀ v, F v → G v) :
    Program.Triple (callbackRules C s₀) (Among source F s₀) (pure () : P Unit)
      fun _ => Among source G s₀ := fun s hs =>
  Program.Triple.pure (Q := fun _ => Among source G s₀) () (stable_alone _) s (hs.mono hFG)

end Rules

/-! ## Work on the open chunk -/

section Collecting

variable {C : Prop} {s₀ : State} {source : Source} {D E : Nat → Prop} {v : Lane}

theorem Collects.mono (h : Collects source D v) (hDE : ∀ n, D n → E n) : Collects source E v :=
  ⟨h.1.mono hDE, h.2⟩

theorem Lane.write_open {offset : Nat} {data : List UInt8} (h : v.Open source) :
    (v.write offset data).Open source := by
  rw [Lane.write, h.2]
  exact ⟨h.1, rfl⟩

/-- The number of samples that is read is the one in the chunk. -/
theorem Collects.count {s : State} (h : Collects source D (s.lane source)) (flash : Nat → UInt8)
    {offset : Nat} (hoffset : source.countOffset = some offset)
    (hfit : offset < (chunkFifo source).slotSize) :
    D (s.chunkByte flash source offset).toNat ∧
      Collects source (· = (s.chunkByte flash source offset).toNat) (s.lane source) := by
  obtain ⟨q, hq, hchunks, hdraft⟩ := h.1.queue
  have hchunk : s.chunks source = _ := h.2.2
  have hbyte : s.chunkByte flash source offset = (ChunkFifo.slotAt (chunkFifo source)
      (s.fifos source).buf (s.fifos source).chunkWritePos.toNat).getD offset 0 := by
    rw [State.chunkByte, hchunk, ChunkFifo.slotAt, List.getD_eq_getElem?_getD,
      slice_getElem? _ hfit]
    rfl
  have hsome : q.draft = some _ := hq.draft.trans (if_pos h.2.1)
  have hcount := hdraft _ hsome offset hoffset
  rw [hbyte]
  refine ⟨hcount, ⟨⟨q, hq, hchunks, ?_⟩, h.1.pointer, h.1.sampling, h.1.kept⟩, h.2⟩
  intro draft hd i hi
  rw [hsome] at hd
  rw [hoffset] at hi
  cases hd
  cases hi
  rfl

theorem callback_lookCount (flash : Nat → UInt8) {offset : Nat}
    (hoffset : source.countOffset = some offset) (hfit : offset < (chunkFifo source).slotSize) :
    Program.Triple (callbackRules C s₀) (Among source (Collects source D) s₀)
      (Interrupted.lookChunk source) fun r s => D (r.chunkByte flash source offset).toNat ∧
        Among source (Collects source (· = (r.chunkByte flash source offset).toNat)) s₀ s := by
  refine (callback_look fun _ v hv => hv.2).weaken (fun _ hs => hs) fun r s hs => ?_
  obtain ⟨rfl, hother, hcollects⟩ := hs
  obtain ⟨hD, hsame⟩ := hcollects.count flash hoffset hfit
  exact ⟨hD, hother, hsame⟩

theorem callback_writeOther {index : Option Nat} {offset : Nat} {data : List UInt8}
    (hindex : ∀ i ∈ index, i < source.dataSize)
    (hfit : offset + data.length ≤ (chunkFifo source).slotSize)
    (hother : ∀ i ∈ source.countOffset, i < offset ∨ offset + data.length ≤ i) :
    Program.Triple (callbackRules C s₀) (Among source (Collects source D) s₀)
      (Interrupted.writeChunk source index offset data)
      fun _ => Among source (Collects source D) s₀ :=
  callback_write (fun _ _ hv => hv.2) hindex fun _ hv =>
    ⟨hv.1.write_other hv.2 hfit hother, Lane.write_open hv.2⟩

theorem callback_writeCount {offset : Nat} (hoffset : source.countOffset = some offset) {n : UInt8}
    (hfit : offset + 1 ≤ (chunkFifo source).slotSize) (hn : E n.toNat) :
    Program.Triple (callbackRules C s₀) (Among source (Collects source D) s₀)
      (Interrupted.writeChunk source none offset [n])
      fun _ => Among source (Collects source E) s₀ :=
  callback_write (fun _ _ hv => hv.2) nofun fun _ hv =>
    ⟨hv.1.write_count hv.2 hoffset hfit hn, Lane.write_open hv.2⟩

theorem callback_stampCollected (hfit : 6 ≤ (chunkFifo source).slotSize)
    (hother : ∀ i ∈ source.countOffset, 6 ≤ i) :
    Program.Triple (callbackRules C s₀) (Among source (Collects source D) s₀)
      (Interrupted.stampChunk source) fun _ => Among source (Collects source D) s₀ :=
  callback_stamp (fun _ _ hv => hv.2) fun _ data hlen hv =>
    ⟨hv.1.write_other hv.2 (by rw [hlen]; omega)
      fun i hi => .inr (by rw [hlen]; exact (Nat.zero_add 6).symm ▸ hother i hi),
      Lane.write_open hv.2⟩

/-- The lane of a source whose chunk was full and is closed. -/
def ClosedFull (source : Source) (v : Lane) : Prop :=
  ∃ w, Collects source (· = source.dataSize) w ∧ v = w.closed source

theorem callback_closeFull :
    Program.Triple (callbackRules C s₀) (Among source (Collects source (· = source.dataSize)) s₀)
      (Interrupted.closeChunk source) fun _ => Among source (ClosedFull source) s₀ :=
  callback_close fun v hv => ⟨v, hv, rfl⟩

theorem callback_reopen :
    Program.Triple (callbackRules C s₀) (Among source (ClosedFull source) s₀)
      (Interrupted.openChunk source)
      fun _ => Among source (Collects source fun _ => True) s₀ := by
  refine callback_open fun v hv => ?_
  obtain ⟨w, hw, rfl⟩ := hv
  exact ⟨hw.1.reopened, Lane.open_opened _ _⟩

/-- What a callback leaves, when the timer of its source was running. -/
theorem Collects.interferes {t : State} (hrunning : (s₀.lane source).running = true)
    (h : Among source (Collects source (· < source.dataSize)) s₀ t) : Interferes s₀ t := by
  refine h.interferes fun v hv => ⟨fun _ => hv.1, fun _ => ?_, fun _ hstopped => ?_⟩
  · rw [hv.2.2]
    nofun
  · rw [hrunning] at hstopped
    cases hstopped

/-- A source whose bit for sampling is set has a chunk open. -/
theorem Filling.collects (h : Filling source D (s₀.lane source))
    (hne : source ≠ .accelerometerInterrupt) (hbit : s₀.configuration source false = true) :
    Collects source D (s₀.lane source) := ⟨h, h.open hne (h.sampling hbit)⟩

end Collecting

/-! ## The callbacks -/

section Callbacks

variable {C : Prop} {s₀ : State} (flash : Nat → UInt8)

/-- A callback that begins in `s₀` keeps to its rules. -/
def Abides (C : Prop) (s₀ : State) (x : P Unit) : Prop :=
  Program.Safe (callbackRules C s₀) x (fun _ => Interferes s₀) s₀

theorem interferes_refl (s : State) : Interferes s s := fun _ _ => LaneStep.refl _ _

/-- The beginning of a callback, which reads the state. -/
theorem abides_get {f : State → P Unit} (h : Abides C s₀ (f s₀)) :
    Abides C s₀ ((liftM (Proc.get : M State) : P State) >>= f) := by
  have hget : Program.Triple (callbackRules C s₀) (· = s₀)
      (liftM (Proc.get : M State) : P State) fun r s => r = s ∧ s = s₀ := callback_get
  refine Program.Safe.bind ((hget s₀ rfl).mono fun r s hs => ?_)
  obtain ⟨rfl, rfl⟩ := hs
  exact h

theorem abides_when {p : Prop} [Decidable p] {x : P Unit} (h : p → Abides C s₀ x) :
    Abides C s₀ (Program.when p x) := by
  rw [Program.when, Program.branch]
  split
  · next hp => exact h hp
  · exact fun t ht => (stable_alone (Interferes s₀)).trans ht (interferes_refl s₀)

/-- The callback of a timer, when it is running. -/
theorem abides_ofTimer {timer : Timer} {x : P Unit}
    (h : (s₀.timers timer).isSome = true → Abides C s₀ x) : Abides C s₀ (ofTimer timer x) :=
  abides_get (abides_when h)

theorem callback_when {A : State → Prop} {p : Prop} [Decidable p] {x : P Unit}
    (hx : p → Program.Triple (callbackRules C s₀) A x fun _ => Interferes s₀)
    (h : ¬ p → ∀ s, A s → Interferes s₀ s) :
    Program.Triple (callbackRules C s₀) A (Program.when p x) fun _ => Interferes s₀ :=
  Program.Triple.when hx (stable_alone _) fun s hp hs => h hp s hs

theorem abides_of_triple {A : State → Prop} {x : P Unit} (hs : A s₀)
    (h : Program.Triple (callbackRules C s₀) A x fun _ => Interferes s₀) : Abides C s₀ x := h s₀ hs

/-- The end of a callback that has counted `n` samples. -/
theorem callback_finish {source : Source} {offset n : Nat} {finalize : P Unit}
    (hoffset : source.countOffset = some offset) (hfit : offset < (chunkFifo source).slotSize)
    (hrunning : (s₀.lane source).running = true) (hn : n ≤ source.dataSize)
    (hfinalize : Program.Triple (callbackRules C s₀)
      (Among source (Collects source (· = source.dataSize)) s₀) finalize fun _ => Interferes s₀) :
    Program.Triple (callbackRules C s₀) (Among source (Collects source (· = n)) s₀)
      (do
        let t ← Interrupted.lookChunk source
        Program.when (source.dataSize ≤ (t.chunkByte flash source offset).toNat) finalize)
      fun _ => Interferes s₀ := by
  refine (callback_lookCount flash hoffset hfit).bind fun r => Program.Triple.of_fact fun hr =>
    callback_when (fun hfull => ?_) fun hroom s hs => ?_
  · have hsize : (r.chunkByte flash source offset).toNat = source.dataSize :=
      Nat.le_antisymm (hr.le.trans hn) hfull
    rw [hsize]
    exact hfinalize
  · refine Collects.interferes hrunning (hs.mono fun v hv => hv.mono fun m hm => ?_)
    rw [hm]
    exact Nat.lt_of_not_le hroom

theorem callback_setupMicrophoneChunk (hrunning : (s₀.lane .microphone).running = true) :
    Program.Triple (callbackRules C s₀) (Among .microphone (ClosedFull .microphone) s₀)
      Interrupted.setupMicrophoneChunk fun _ => Interferes s₀ := by
  have hstamp : Program.Triple (callbackRules C s₀)
      (Among .microphone (Collects .microphone fun _ => True) s₀)
      (Interrupted.stampChunk .microphone)
      fun _ => Among .microphone (Collects .microphone fun _ => True) s₀ :=
    callback_stampCollected (by decide) (by decide)
  refine (callback_modify (fun _ => ?_) fun _ => ?_).bind fun _ => callback_reopen.bind fun _ =>
    hstamp.bind fun _ => callback_read.bind fun r =>
      (callback_writeOther (fun _ h => ?_) ?_ ?_).bind fun _ => ?_
  · rfl
  · rfl
  · cases h
  · rw [littleEndian_length]
    decide
  · rw [littleEndian_length]
    decide
  · exact (callback_writeCount rfl (by decide) (by decide)).weaken (fun _ hs => hs)
      fun _ _ hs => Collects.interferes hrunning hs

theorem abides_microphoneCallback
    (hfill : Filling .microphone (· < Source.microphone.dataSize) (s₀.lane .microphone))
    (hrunning : (s₀.lane .microphone).running = true) :
    Abides C s₀ (Interrupted.microphoneCallback flash) := by
  have hstart : Among .microphone (· = s₀.lane .microphone) s₀ s₀ := ⟨fun _ _ => rfl, rfl⟩
  refine abides_get (abides_when fun _ => abides_of_triple hstart ?_)
  refine (callback_modify (fun _ => ?_) fun _ => ?_).bind fun _ => callback_when (fun hbit => ?_) ?_
  · rfl
  · rfl
  · have hcollects := hfill.collects nofun hbit
    have hlook : Program.Triple (callbackRules C s₀) (Among .microphone (· = s₀.lane .microphone) s₀)
        (Interrupted.lookChunk .microphone) fun r s =>
          (r.chunkByte flash .microphone microphoneCount).toNat < Source.microphone.dataSize ∧
          Among .microphone (Collects .microphone
            (· = (r.chunkByte flash .microphone microphoneCount).toNat)) s₀ s :=
      (callback_lookCount flash rfl (by decide)).weaken
        (fun s hs => hs.mono fun v hv => by rw [hv]; exact hcollects) fun _ _ hs => hs
    refine hlook.bind fun r => Program.Triple.of_fact fun hroom => ?_
    generalize r.chunkByte flash .microphone microphoneCount = num at hroom ⊢
    have hroom' : num.toNat < 114 := hroom
    have hslot : (chunkFifo .microphone).slotSize = 128 := rfl
    have hnext : (num + 1).toNat = num.toNat + 1 := by
      rw [UInt8.toNat_add]
      exact Nat.mod_eq_of_lt (Nat.lt_of_lt_of_le (Nat.succ_lt_succ hroom') (by decide))
    have hfinalize : Program.Triple (callbackRules C s₀)
        (Among .microphone (Collects .microphone (· = Source.microphone.dataSize)) s₀)
        Interrupted.finalizeMicrophoneChunk fun _ => Interferes s₀ :=
      callback_closeFull.bind fun _ => callback_setupMicrophoneChunk hrunning
    refine (callback_writeOther ?_ ?_ ?_).bind fun _ =>
      (callback_lookCount flash rfl (by decide)).bind fun r₁ => Program.Triple.of_fact fun h₁ => ?_
    · intro i hi
      cases hi
      exact hroom
    · rw [hslot, microphoneData]
      exact Nat.add_le_add_right (Nat.add_le_add_left hroom'.le 11) 1 |>.trans (by decide)
    · intro i hi
      cases hi
      exact .inl (Nat.lt_of_lt_of_le (by decide) (Nat.le_add_right 11 num.toNat))
    · rw [UInt8.toNat_inj.mp h₁]
      exact (callback_writeCount (E := (· = (num + 1).toNat)) rfl (by decide) rfl).bind fun _ =>
        callback_finish flash rfl (by decide) hrunning (by rw [hnext]; exact hroom') hfinalize
  · intro _ s hs
    refine hs.interferes fun v hv => ?_
    rw [hv]
    exact LaneStep.refl _ _

theorem callback_setupAccelerometerChunk (hrunning : (s₀.lane .accelerometer).running = true) :
    Program.Triple (callbackRules C s₀) (Among .accelerometer (ClosedFull .accelerometer) s₀)
      Interrupted.setupAccelerometerChunk fun _ => Interferes s₀ := by
  have hstamp : Program.Triple (callbackRules C s₀)
      (Among .accelerometer (Collects .accelerometer fun _ => True) s₀)
      (Interrupted.stampChunk .accelerometer)
      fun _ => Among .accelerometer (Collects .accelerometer fun _ => True) s₀ :=
    callback_stampCollected (by decide) (by decide)
  exact callback_reopen.bind fun _ => hstamp.bind fun _ =>
    (callback_writeCount rfl (by decide) (by decide)).weaken (fun _ hs => hs)
      fun _ _ hs => Collects.interferes hrunning hs

/-- The loop over the samples, which all have room. -/
theorem callback_writeSamples {num i : Nat} {D : Nat → Prop} {samples : List (Int16 × Int16 × Int16)}
    (hroom : num + i + samples.length ≤ Source.accelerometer.dataSize) :
    Program.Triple (callbackRules C s₀) (Among .accelerometer (Collects .accelerometer D) s₀)
      (Interrupted.writeSamples num i samples)
      fun _ => Among .accelerometer (Collects .accelerometer D) s₀ := by
  induction samples generalizing i with
  | nil => exact callback_pure fun _ hv => hv
  | cons sample rest ih =>
    rw [List.length_cons] at hroom
    have hsize : Source.accelerometer.dataSize = 100 := rfl
    have hslot : (chunkFifo .accelerometer).slotSize = 212 := rfl
    refine (callback_writeOther ?_ ?_ ?_).bind fun _ => ih (by omega)
    · intro j hj
      cases hj
      omega
    · rw [hslot, accelerometerData, littleEndian_length]
      omega
    · intro j hj
      cases hj
      rw [accelerometerData, accelerometerCount]
      omega

theorem readAcceleration_length {n : Nat} {s t : Accel.State}
    {samples : List (Int16 × Int16 × Int16)}
    (h : Accel.readAcceleration n s = (.ok samples, t)) : samples.length ≤ n := by
  obtain ⟨src, u, -, h⟩ := Proc.bind_eq_ok.mp h
  obtain ⟨_, u', -, h⟩ := Proc.bind_eq_ok.mp h
  rw [Proc.get_bind_apply] at h
  cases h
  rw [List.length_map, List.length_range]
  exact Nat.min_le_right _ _

/-- The driver does not work on the chunks. -/
theorem callback_onAccel {α : Type} {source : Source} {y : Accel.M α} {F : Lane → Prop}
    {Φ : α → Prop} (hy : ∀ s a t, y s = (.ok a, t) → Φ a)
    (hF : ∀ s, Among source F s₀ s → Interferes s₀ s) :
    Program.Triple (callbackRules C s₀) (Among source F s₀) (liftM (onAccel y) : P α)
      fun a s => Φ a ∧ Among source F s₀ s := by
  refine Program.Triple.call (stable_alone _) (fun _ => stable_alone _) (stable_alone _)
    fun s hs => ⟨⟨fun _ => trivial, honest_of_same nofun nofun (fun _ => rfl) fun _ => rfl⟩, ?_⟩
  cases hr : (onAccel y s).1 with
  | ok a => exact ⟨hy s.accel a _ (Prod.ext hr rfl), hs⟩
  | error e => exact hF _ hs

/-- The room that is left for samples. -/
theorem room_toNat {num : UInt8} (h : num.toNat < Source.accelerometer.dataSize) :
    (UInt32.ofNat Source.accelerometer.dataSize - num.toUInt32).toNat =
      Source.accelerometer.dataSize - num.toNat := by
  have hle : num.toUInt32 ≤ UInt32.ofNat Source.accelerometer.dataSize := by
    rw [UInt32.le_iff_toNat_le, UInt8.toNat_toUInt32]
    exact h.le
  rw [UInt32.toNat_sub_of_le _ _ hle, UInt8.toNat_toUInt32]
  rfl

/-- Where no sample is wanted, the number of samples is only read. -/
theorem abides_accelerometerFifoCallback
    (hfill : Filling .accelerometer (· < Source.accelerometer.dataSize) (s₀.lane .accelerometer))
    (hrunning : (s₀.lane .accelerometer).running = true)
    (hC : C → ¬ s₀.Off .accelerometer → (s₀.lane .accelerometer).chunk ≠ none) :
    Abides C s₀ (Interrupted.accelerometerFifoCallback flash) := by
  have hstart : Among .accelerometer (· = s₀.lane .accelerometer) s₀ s₀ := ⟨fun _ _ => rfl, rfl⟩
  have hstay : ∀ s, Among .accelerometer (· = s₀.lane .accelerometer) s₀ s → Interferes s₀ s := by
    intro s hs
    refine hs.interferes fun v hv => ?_
    rw [hv]
    exact LaneStep.refl _ _
  refine abides_get (abides_when fun hon => abides_of_triple hstart ?_)
  have hlook : Program.Triple (callbackRules C s₀)
      (Among .accelerometer (· = s₀.lane .accelerometer) s₀) (Interrupted.lookChunk .accelerometer)
      fun r s => r.lane .accelerometer = s₀.lane .accelerometer ∧
        Among .accelerometer (· = s₀.lane .accelerometer) s₀ s := by
    refine (callback_look fun h v hv => ?_).weaken (fun _ hs => hs) fun r s hs => ?_
    · rw [hv]
      exact hfill.open nofun (hC h hon)
    · rw [hs.1]
      exact ⟨hs.2.2, hs.2⟩
  refine hlook.bind fun r => Program.Triple.of_fact fun hr =>
    (callback_onAccel (fun _ _ _ h => readAcceleration_length h) hstay).bind fun samples =>
      Program.Triple.of_fact fun hlen => callback_when (fun hbit => ?_) fun _ => hstay
  have hcollects := hfill.collects nofun hbit
  rw [← hr] at hcollects
  obtain ⟨hroom, hcount⟩ := hcollects.count flash rfl (by decide)
  rw [hr] at hcount
  rw [room_toNat hroom] at hlen
  generalize r.chunkByte flash .accelerometer accelerometerCount = num at hroom hcount hlen ⊢
  have hsize : Source.accelerometer.dataSize = 100 := rfl
  have hnext : (num + UInt8.ofNat samples.length).toNat = num.toNat + samples.length := by
    rw [UInt8.toNat_add, UInt8.toNat_ofNat']
    omega
  have hfinalize : Program.Triple (callbackRules C s₀)
      (Among .accelerometer (Collects .accelerometer (· = Source.accelerometer.dataSize)) s₀)
      Interrupted.finalizeAccelerometerChunk fun _ => Interferes s₀ :=
    callback_closeFull.bind fun _ => callback_setupAccelerometerChunk hrunning
  have hwrite : Program.Triple (callbackRules C s₀)
      (Among .accelerometer (· = s₀.lane .accelerometer) s₀)
      (Interrupted.writeSamples num.toNat 0 samples)
      fun _ => Among .accelerometer (Collects .accelerometer (· = num.toNat)) s₀ :=
    (callback_writeSamples (by omega)).weaken
      (fun s hs => hs.mono fun v hv => by rw [hv]; exact hcount) fun _ _ hs => hs
  exact hwrite.bind fun _ =>
    (callback_writeCount (E := (· = (num + UInt8.ofNat samples.length).toNat)) rfl (by decide)
      rfl).bind fun _ => callback_finish flash rfl (by decide) hrunning (by omega) hfinalize

theorem abides_batteryCallback (voltage : UInt32)
    (hfill : Filling .battery (· < Source.battery.dataSize) (s₀.lane .battery))
    (hrunning : (s₀.lane .battery).running = true) :
    Abides C s₀ (Interrupted.batteryCallback voltage) := by
  refine abides_get (abides_when fun _ => abides_when fun hbit => ?_)
  have hcollects := hfill.collects nofun hbit
  have hstart : Among .battery (Collects .battery fun n => n = Source.battery.dataSize) s₀ s₀ :=
    ⟨fun _ _ => rfl, hcollects.1.of_uncounted rfl, hcollects.2⟩
  refine abides_of_triple hstart ((callback_stampCollected (by decide) (by nofun)).bind fun _ =>
    (callback_writeOther (by nofun) ?_ (by nofun)).bind fun _ => callback_closeFull.bind fun _ =>
      callback_reopen.weaken (fun _ hs => hs) fun _ s hs => ?_)
  · rw [littleEndian_length]
    decide
  · exact Collects.interferes hrunning (hs.mono fun v hv => ⟨hv.1.of_uncounted rfl, hv.2⟩)

/-- What the interrupt does to its chunk. -/
def Interrupts (v w : Lane) : Prop :=
  w = v ∨ ∃ data, w = (v.write 0 data).closed .accelerometerInterrupt

theorem Interrupts.laneStep {v w : Lane} (h : Interrupts v w) (running : Bool) :
    LaneStep .accelerometerInterrupt v { w with running } := by
  rcases h with rfl | ⟨data, rfl⟩
  · exact ⟨fun hf => hf.bits hf.sampling, fun hc => hc, fun hne => absurd rfl hne⟩
  · refine ⟨fun hf => (hf.interrupted 0 data).bits (hf.interrupted 0 data).sampling, fun hc => ?_,
      fun hne => absurd rfl hne⟩
    change (v.write 0 data).chunk ≠ none
    rw [Lane.write_chunk]
    exact hc

/-- The reset timer is no other source's. -/
theorem lane_of_timers {s t : State} (hconfiguration : t.configuration = s.configuration)
    (hfifos : t.fifos = s.fifos) (hchunks : t.chunks = s.chunks)
    (h : ∀ timer, timer ≠ .accelerometerInterruptReset → t.timers timer = s.timers timer)
    {other : Source} (hne : other ≠ .accelerometerInterrupt) : t.lane other = s.lane other := by
  have htimer : other.timer ≠ .accelerometerInterruptReset := by
    cases other with
    | accelerometerInterrupt => exact absurd rfl hne
    | _ => nofun
  rw [State.lane, State.lane, hconfiguration, hfifos, hchunks, h _ htimer]

theorem appTimerStart_timers (timer : Timer) (ticks : Nat) (s : State) :
    ∃ timers faults, (appTimerStart timer ticks s).2 = { s with timers, timerFaults := faults } ∧
      ∀ other, other ≠ timer → timers other = s.timers other := by
  rw [appTimerStart]
  dsimp only
  split
  · exact ⟨s.timers, _, rfl, fun _ _ => rfl⟩
  split
  · exact ⟨s.timers, _, rfl, fun _ _ => rfl⟩
  split
  · exact ⟨s.timers, _, rfl, fun _ _ => rfl⟩
  · exact ⟨_, _, rfl, fun _ hne => Function.update_of_ne hne _ _⟩

/-- The interrupt uses its pointer only where the bit for sampling is set. -/
theorem abides_accelerometerInterruptCallback {s : State}
    (hs : Among .accelerometerInterrupt (· = s₀.lane .accelerometerInterrupt) s₀ s)
    (hopen : C → s₀.configuration .accelerometerInterrupt false = true →
      (s₀.lane .accelerometerInterrupt).Open .accelerometerInterrupt) :
    Program.Safe (callbackRules C s₀) Interrupted.accelerometerInterruptCallback
      (fun _ => Interferes s₀) s := by
  have hwork : s₀.configuration .accelerometerInterrupt false = true →
      Program.Triple (callbackRules C s₀)
      (Among .accelerometerInterrupt (· = s₀.lane .accelerometerInterrupt) s₀) (do
        Interrupted.stampChunk .accelerometerInterrupt
        Interrupted.closeChunk .accelerometerInterrupt)
      fun _ => Among .accelerometerInterrupt (Interrupts (s₀.lane .accelerometerInterrupt)) s₀ := by
    intro hbit
    refine (callback_stamp (G := fun w => ∃ data, w =
      (s₀.lane .accelerometerInterrupt).write 0 data) ?_ ?_).bind fun _ => callback_close ?_
    · intro h v hv
      rw [hv]
      exact hopen h hbit
    · intro v data _ hv
      exact ⟨data, by rw [hv]⟩
    · rintro v ⟨data, rfl⟩
      exact .inr ⟨data, rfl⟩
  have htimer : ∀ ticks, Program.Triple (callbackRules C s₀)
      (Among .accelerometerInterrupt (Interrupts (s₀.lane .accelerometerInterrupt)) s₀)
      (.call .call (Proc.attempt (appTimerStart .accelerometerInterruptReset ticks)))
      fun _ => Interferes s₀ := by
    intro ticks
    refine (callback_call (e := .call) (G := fun v => ∃ w running,
      Interrupts (s₀.lane .accelerometerInterrupt) w ∧ v = { w with running })
      (fun _ => ⟨_, rfl⟩) ?_ ?_ (fun _ _ _ => trivial) ?_).weaken (fun _ hs => hs) fun _ s hs => ?_
    · intro s other hne
      obtain ⟨timers, faults, ht, hsame⟩ := appTimerStart_timers .accelerometerInterruptReset ticks s
      rw [Proc.attempt_apply, ht]
      apply lane_of_timers _ _ _ hsame hne
      · rfl
      · rfl
      · rfl
    · intro s hs
      obtain ⟨timers, faults, ht, -⟩ := appTimerStart_timers .accelerometerInterruptReset ticks s
      rw [Proc.attempt_apply, ht]
      exact ⟨_, _, hs, rfl⟩
    · exact fun s => (appTimerStart_unfilling _ ticks s).honest
    · refine hs.interferes fun v hv => ?_
      obtain ⟨w, running, hw, rfl⟩ := hv
      exact hw.laneStep running
  have hcallback : Program.Triple (callbackRules C s₀)
      (Among .accelerometerInterrupt (· = s₀.lane .accelerometerInterrupt) s₀)
      Interrupted.accelerometerInterruptCallback fun _ => Interferes s₀ := by
    have hget : Program.Triple (callbackRules C s₀)
        (Among .accelerometerInterrupt (· = s₀.lane .accelerometerInterrupt) s₀)
        (liftM (Proc.get : M State) : P State) fun r s =>
          r.configuration .accelerometerInterrupt false =
            s₀.configuration .accelerometerInterrupt false ∧
          Among .accelerometerInterrupt (· = s₀.lane .accelerometerInterrupt) s₀ s := by
      refine callback_get.weaken (fun _ hs => hs) fun r s hs => ?_
      rw [hs.1]
      exact ⟨congrArg Lane.sampling hs.2.2, hs.2⟩
    refine hget.bind fun r => Program.Triple.of_fact fun hr => callback_when (fun _ => ?_) ?_
    · refine (Program.Triple.when (fun hbit => hwork (hr ▸ hbit)) (stable_alone _) fun s _ hs =>
        hs.mono fun v hv => .inl hv).bind fun _ => (htimer _).bind fun _ => ?_
      exact Program.Triple.pure (Q := fun _ => Interferes s₀) () (stable_alone _)
    · intro _ s hs
      refine hs.interferes fun v hv => ?_
      rw [hv]
      exact LaneStep.refl _ _
  exact hcallback s hs

/-- The chunk pointers that a callback uses besides those of the samples it stores. -/
def PointerOpen (s : State) : Callback → Prop
  | .accelerometerFifo => (s.timers .accelerometerFifo).isSome = true → ¬ s.Off .accelerometer →
      (s.lane .accelerometer).chunk ≠ none
  | .int1 => s.accel.CanFire →
      s.accel.calledHandler = some .samplingAccelerometerInterruptCallback →
      s.configuration .accelerometerInterrupt false = true →
      (s.lane .accelerometerInterrupt).fifo.chunkOpenWrite = true
  | _ => True

theorem Sound.running {busy : Option Source} {s : State} (h : Sound busy s) {source : Source}
    (hscan : source ≠ .scan) (hrunning : (s.lane source).running = true) :
    Filling source (· < source.dataSize) (s.lane source) := by
  refine h.filling source hscan fun hb => ?_
  rw [(h.busy source hb).2] at hrunning
  cases hrunning

/-- Every callback keeps to its rules, whatever the task it interrupts. -/
theorem abides_callback {busy : Option Source} (hbusy : busy ≠ some .accelerometerInterrupt)
    (h : Sound busy s₀) (c : Callback) : Abides (PointerOpen s₀ c) s₀ (c.program flash) := by
  cases c with
  | accelerometerFifo =>
    exact abides_ofTimer fun hr =>
      abides_accelerometerFifoCallback flash (h.running nofun hr) hr fun hC => hC hr
  | battery voltage =>
    exact abides_ofTimer fun hr => abides_batteryCallback voltage (h.running nofun hr) hr
  | microphone =>
    exact abides_ofTimer fun hr => abides_microphoneCallback flash (h.running nofun hr) hr
  | microphoneAggregated values =>
    have hstart : Among .microphone (· = s₀.lane .microphone) s₀ s₀ := ⟨fun _ _ => rfl, rfl⟩
    refine abides_ofTimer fun _ => abides_of_triple hstart
      ((callback_modify (fun _ => ?_) fun _ => ?_).weaken (fun _ hs => hs) fun _ s hs => ?_)
    · rfl
    · rfl
    · refine hs.interferes fun v hv => ?_
      rw [hv]
      exact LaneStep.refl _ _
  | int1 =>
    have hstart : Among .accelerometerInterrupt (· = s₀.lane .accelerometerInterrupt) s₀ s₀ :=
      ⟨fun _ _ => rfl, rfl⟩
    have hfill := h.filling .accelerometerInterrupt nofun hbusy
    refine abides_get (abides_when fun hfires => abides_of_triple hstart
      ((callback_modify (fun _ => ?_) fun _ => ?_).bind fun _ =>
        callback_when (fun hhandler s hs => ?_) ?_))
    · rfl
    · rfl
    · exact abides_accelerometerInterruptCallback hs fun hC hbit =>
        ⟨hC hfires hhandler hbit, hfill.pointer (hC hfires hhandler hbit)⟩
    · intro _ s hs
      refine hs.interferes fun v hv => ?_
      rw [hv]
      exact LaneStep.refl _ _
  | resetTimer =>
    have hstart : Among .accelerometerInterrupt (· = s₀.lane .accelerometerInterrupt) s₀ s₀ :=
      ⟨fun _ _ => rfl, rfl⟩
    have hreset : ∀ s, ∃ timers n, onResetTimer s = { s with timers, setupEvents := n } ∧
        ∀ other, other ≠ .accelerometerInterruptReset → timers other = s.timers other := by
      intro s
      rw [onResetTimer]
      split
      · exact ⟨_, _, rfl, fun _ hne => Function.update_of_ne hne _ _⟩
      · exact ⟨s.timers, s.setupEvents, rfl, fun _ _ => rfl⟩
    refine abides_of_triple hstart ((callback_call (e := .call) (G := fun v => ∃ running,
      v = { s₀.lane .accelerometerInterrupt with running }) (fun _ => ⟨(), rfl⟩) ?_ ?_
      (fun _ _ _ => trivial) ?_).weaken (fun _ hs => hs) fun _ s hs => ?_)
    · intro s other hne
      obtain ⟨timers, n, ht, hsame⟩ := hreset s
      change (onResetTimer s).lane other = _
      rw [ht]
      apply lane_of_timers _ _ _ hsame hne
      · rfl
      · rfl
      · rfl
    · intro s hs
      obtain ⟨timers, n, ht, -⟩ := hreset s
      change ∃ running, (onResetTimer s).lane .accelerometerInterrupt = _
      rw [ht, ← hs]
      exact ⟨_, rfl⟩
    · intro s
      obtain ⟨timers, n, ht, -⟩ := hreset s
      change Honest .call s (onResetTimer s)
      rw [ht]
      exact honest_of_same nofun nofun (fun _ => rfl) fun _ => rfl
    · refine hs.interferes fun v hv => ?_
      obtain ⟨running, rfl⟩ := hv
      exact Interrupts.laneStep (.inl rfl) running

end Callbacks

end OpenBadge.Sampling
