import Mathlib.Logic.Function.Iterate
import OpenBadge.Filesystem.Untrusted

/-!
# Walking back ends on any storage

Addresses fall while the iterator steps back, up to the jump from the partition's start to
the last element. Record identifiers fall by one with every step, modulo 65534, so that a
partition with room for fewer headers sees that jump once: `rank` falls with every step back
and grows with no lookup.
-/

namespace OpenBadge.Filesystem

open OpenBadge.Lib OpenBadge.Storage
open Proc (Keeps)

variable {D : Device} {s t : State D} {e : Extent}

/-! ## Record identifiers run around a ring -/

theorem isRecordId_decrement {r : Nat} (hr : r < 2 ^ 16) : IsRecordId (decrementRecordId r) := by
  rw [IsRecordId, decrementRecordId]
  split <;> omega

/-- Going back `k` elements takes `k` off the identifier, modulo 65534. -/
theorem decrement_iterate {r : Nat} (hr : IsRecordId r) (k : Nat) :
    IsRecordId (decrementRecordId^[k] r) ∧ (decrementRecordId^[k] r + k) % 65534 = r % 65534 := by
  induction k with
  | zero => exact ⟨hr, rfl⟩
  | succ k ih =>
    obtain ⟨hid, hmod⟩ := ih
    rw [Function.iterate_succ_apply']
    obtain ⟨hge, hle⟩ := hid
    refine ⟨isRecordId_decrement (by omega), ?_⟩
    rw [decrementRecordId]
    split <;> omega

theorem decrement_iterate_ne {r k : Nat} (hr : IsRecordId r) (hk : 0 < k) (hk' : k < 65534) :
    decrementRecordId^[k] r ≠ r := by
  intro heq
  have hmod := (decrement_iterate hr k).2
  rw [heq] at hmod
  omega

/-! ## One step back -/

/-- From the element at `a` the iterator goes back to the one at `a'`: from the partition's
start to the last element, and else to the start or down by a header at least. -/
inductive StepsBack (e : Extent) (last : Nat) : Nat → Nat → Prop
  | jump {a : Nat} : a ≤ e.start → e.start < last → StepsBack e last a last
  | first {a : Nat} : e.start < a → a ≤ e.start + 2 ^ 17 → StepsBack e last a e.start
  | down {a a' : Nat} : e.start + metadataSize < a' → a' + getElementHeaderLen e.pid ≤ a →
      a ≤ a' + getElementHeaderLen e.pid + 2 ^ 16 → StepsBack e last a a'

theorem neighbourLen_lt {p : Partition} (he : e.Ok D) (h : p.At e) {len xor : Nat}
    (hlen : len < 2 ^ 16) (hxor : xor < 2 ^ 16) : neighbourLen e.pid p len xor < 2 ^ 16 := by
  rw [neighbourLen]
  cases hd : isDynamic e.pid with
  | true => exact Nat.xor_lt_two_pow hlen hxor
  | false =>
    simp only [Bool.false_eq_true, if_false]
    rw [h.len_eq hd]
    exact he.len_lt

/-- What a successful lookup of the header in front leaves behind. -/
structure FoundBack (e : Extent) (s t : State D) (a recordId a' : Nat) (hd : ElementHeader) :
    Prop where
  looked : Looked e s t
  recordId_eq : hd.recordId = decrementRecordId recordId
  steps : StepsBack e (t.part e.pid).metadata.lastElementAddress a a'
  sync : a' = e.start → Sync t e.pid
  found : a' ≠ e.start → foundAt D t.bytes e.pid (t.part e.pid) a' = .ok hd
  header : hd.Typed

theorem getPreviousElementHeader_eq_ok (he : e.Ok D) (h : (s.part e.pid).At e)
    {a recordId len a' : Nat} {hd : ElementHeader} (hlen : len < 2 ^ 16)
    (hget : getPreviousElementHeader e.pid a recordId len s = (.ok (a', hd), t)) :
    FoundBack e s t a recordId a' hd := by
  have hH := elementHeaderLen_bounds e.pid
  rw [getPreviousElementHeader, getPartition_bind, h.start_eq] at hget
  by_cases ha : a ≤ e.start
  · rw [if_pos ha] at hget
    obtain ⟨_, s₁, hcheck, hget₁⟩ := Proc.bind_eq_ok.mp hget
    obtain ⟨hlast, hs₁⟩ := Proc.failIf_eq_ok.mp hcheck
    rw [hs₁] at hget₁
    obtain ⟨hd', s₂, hread, hget₂⟩ := Proc.bind_eq_ok.mp hget₁
    obtain ⟨_, s₃, hid, hget₃⟩ := Proc.bind_eq_ok.mp hget₂
    obtain ⟨hmatch, hs₃⟩ := Proc.failIf_eq_ok.mp hid
    cases hget₃
    rw [← hs₃] at hread
    have hne : (s.part e.pid).metadata.lastElementAddress ≠ e.start := by omega
    obtain ⟨hlooked, -, hsame, hheader⟩ := readElementHeader_eq_ok he h hread
    obtain ⟨rfl, hfound⟩ := hsame hne
    exact ⟨hlooked, not_not.mp hmatch, .jump ha (Nat.not_le.mp hlast),
      fun heq => absurd heq hne, fun _ => hfound, hheader⟩
  · rw [if_neg ha] at hget
    obtain ⟨hd₀, s₁, hcur, hget₁⟩ := Proc.bind_eq_ok.mp hget
    obtain ⟨-, -, hsame, hheader₀⟩ := readElementHeader_eq_ok he h hcur
    obtain ⟨rfl, -⟩ := hsame (by omega)
    have hplen := neighbourLen_lt he h hlen hheader₀.xor_lt
    rw [getPartition_bind] at hget₁
    generalize neighbourLen e.pid (s₁.part e.pid) len hd₀.previousLenXorCurLen = previousLen
      at hget₁ hplen
    generalize hprev : (if a ≤ e.start + (metadataSize + getElementHeaderLen e.pid) + previousLen
      then e.start else a - previousLen - getElementHeaderLen e.pid) = previous at hget₁
    obtain ⟨hd', s₂, hread, hget₂⟩ := Proc.bind_eq_ok.mp hget₁
    obtain ⟨_, s₃, hid, hget₃⟩ := Proc.bind_eq_ok.mp hget₂
    obtain ⟨hmatch, hs₃⟩ := Proc.failIf_eq_ok.mp hid
    cases hget₃
    rw [← hs₃] at hread
    obtain ⟨hlooked, hsync, hsame, hheader⟩ := readElementHeader_eq_ok he h hread
    refine ⟨hlooked, not_not.mp hmatch, ?_, hsync, fun hne => ?_, hheader⟩
    · by_cases hfirst : a ≤ e.start + (metadataSize + getElementHeaderLen e.pid) + previousLen
      · rw [if_pos hfirst] at hprev
        subst hprev
        exact .first (by omega) (by unfold metadataSize at hfirst; omega)
      · rw [if_neg hfirst] at hprev
        exact .down (by omega) (by omega) (by omega)
    · obtain ⟨rfl, hfound⟩ := hsame hne
      exact hfound

/-- `filesystem_iterator_previous` up to the assignments to the iterator. -/
def previousFound (pid : Nat) : Fs D (Nat × Nat × ElementHeader) := do
  iteratorCheckValidity pid
  let it ← getIterator pid
  let (previous, h) ← getPreviousElementHeader pid it.curElementAddress
    it.curElementHeader.recordId it.curElementLen
  let p ← getPartition pid
  let previousLen := neighbourLen pid p it.curElementLen it.curElementHeader.previousLenXorCurLen
  Proc.failIf ((previous + getElementHeaderLen pid + previousLen) % 2 ^ 32 >
    p.firstElementAddress + p.metadata.partitionSize) .notFound
  pure (previous, previousLen, h)

theorem iteratorPrevious_eq (pid : Nat) : (iteratorPrevious pid : Fs D Unit) =
    previousFound pid >>= fun x => modifyIterator pid fun it =>
      { it with curElementAddress := x.1, curElementLen := x.2.1, curElementHeader := x.2.2 } := by
  unfold iteratorPrevious previousFound
  simp only [Proc.bind_assoc]
  rfl

theorem previousFound_looked {s₀ : State D} (he : e.Ok D) :
    Keeps (Looked e s₀) (previousFound e.pid) := by
  refine (iteratorCheckValidity_looked he).bind fun _ => ?_
  refine (getIterator_keeps _).bind fun it => ?_
  refine (getPreviousElementHeader_looked he _ _ _).bind fun previous => ?_
  refine Keeps.bind (fun _ hs => hs) fun p => ?_
  exact (Keeps.failIf _ _ _).bind fun _ => Keeps.pure _ _

theorem iteratorPrevious_error (he : e.Ok D) (h : (s.part e.pid).At e) {r : RetCode}
    (hstep : iteratorPrevious e.pid s = (.error r, t)) : Looked e s t := by
  have hlooked := previousFound_looked he s (Looked.refl h)
  rw [iteratorPrevious_eq, Proc.bind_apply] at hstep
  rcases hfound : previousFound e.pid s with ⟨_ | _, u⟩
  · rw [hfound] at hstep hlooked
    cases hstep
    exact hlooked
  · rw [hfound] at hstep
    cases hstep

theorem when_lost {pid : Nat} {p : Prop} [Decidable p] {u : Unit}
    (h : Proc.when p (iteratorLost pid) s = (.ok u, t)) : ¬ p ∧ t = s := by
  by_cases hp : p
  · rw [Proc.when_pos hp] at h
    cases h
  · rw [Proc.when_neg hp] at h
    exact ⟨hp, (congrArg Prod.snd h).symm⟩

/-- The check at the front reads the header of the current element. -/
theorem iteratorCheckValidity_eq_ok (he : e.Ok D) (h : (s.part e.pid).At e) {u : Unit}
    (hcheck : iteratorCheckValidity e.pid s = (.ok u, t)) :
    Looked e s t ∧ ((s.iter e.pid).curElementAddress = e.start → Sync t e.pid) := by
  have hlooked := iteratorCheckValidity_looked he s (Looked.refl h)
  rw [hcheck] at hlooked
  refine ⟨hlooked, fun ha => ?_⟩
  rw [iteratorCheckValidity, getIterator_bind] at hcheck
  obtain ⟨_, s₁, hvalid, hcheck₁⟩ := Proc.bind_eq_ok.mp hcheck
  rw [(Proc.failIf_eq_ok.mp hvalid).2, getPartition_bind] at hcheck₁
  obtain ⟨_, s₂, hfirst, hcheck₂⟩ := Proc.bind_eq_ok.mp hcheck₁
  rw [(when_lost hfirst).2, Proc.attempt_bind_apply, ha] at hcheck₂
  rcases hread : readElementHeader e.pid e.start s with ⟨r | hd, s₃⟩
  · rw [hread] at hcheck₂
    cases r <;> cases hcheck₂
  · have hsync := (readElementHeader_start he h).2 hd s₃ hread
    rw [hread] at hcheck₂
    rw [(when_lost hcheck₂).2]
    exact hsync

/-- What a successful step back from `s` leaves behind. -/
structure SteppedBack (e : Extent) (s t : State D) : Prop where
  at_place : (t.part e.pid).At e
  typed : Typed t e.pid
  known : Sync t e.pid ∨ t.part e.pid = s.part e.pid ∧
    (s.iter e.pid).curElementAddress ≠ e.start ∧ (t.iter e.pid).curElementAddress ≠ e.start
  sync : Sync s e.pid → t.bytes = s.bytes ∧ t.part e.pid = s.part e.pid
  recordId_eq : (t.iter e.pid).curElementHeader.recordId =
    decrementRecordId (s.iter e.pid).curElementHeader.recordId
  steps : StepsBack e (t.part e.pid).metadata.lastElementAddress
    (s.iter e.pid).curElementAddress (t.iter e.pid).curElementAddress
  found : (t.iter e.pid).curElementAddress ≠ e.start → foundAt D t.bytes e.pid (t.part e.pid)
    (t.iter e.pid).curElementAddress = .ok (t.iter e.pid).curElementHeader
  fits : ((t.iter e.pid).curElementAddress + getElementHeaderLen e.pid +
    (t.iter e.pid).curElementLen) % 2 ^ 32 ≤ e.start + e.size

theorem StepsBack.lt {last a a' : Nat} (he : e.Ok D) (h : StepsBack e last a a')
    (hlast : last < 2 ^ 32) (ha : a < 2 ^ 32) : a' < 2 ^ 32 := by
  have hD := size_lt D
  have hstop := he.stop_le
  cases h with
  | jump => exact hlast
  | first hgt => omega
  | down => omega

theorem iteratorPrevious_eq_ok (he : e.Ok D) (h : (s.part e.pid).At e) (ht : Typed s e.pid)
    {u : Unit} (hstep : iteratorPrevious e.pid s = (.ok u, t)) : SteppedBack e s t := by
  rw [iteratorPrevious_eq] at hstep
  obtain ⟨⟨previous, previousLen, hd⟩, s₃, hfound, hset⟩ := Proc.bind_eq_ok.mp hstep
  rw [modifyIterator_apply] at hset
  cases hset
  obtain ⟨_, s₁, hcheck, hfound₁⟩ := Proc.bind_eq_ok.mp hfound
  obtain ⟨hlooked₁, hsync₁⟩ := iteratorCheckValidity_eq_ok he h hcheck
  have ht₁ := hlooked₁.typed ht
  obtain ⟨_, hit₁⟩ := hlooked₁.iter_eq
  rw [getIterator_bind, hit₁] at hfound₁
  obtain ⟨⟨a', hd'⟩, s₂, hget, hfound₂⟩ := Proc.bind_eq_ok.mp hfound₁
  have hback := getPreviousElementHeader_eq_ok he hlooked₁.at_place ht.len_lt hget
  dsimp only at hfound₂ hback
  rw [getPartition_bind] at hfound₂
  obtain ⟨_, s₄, hroom, hfound₃⟩ := Proc.bind_eq_ok.mp hfound₂
  obtain ⟨hfits, hs₄⟩ := Proc.failIf_eq_ok.mp hroom
  cases hfound₃
  subst hs₄
  have hlooked := hlooked₁.trans hback.looked
  have hplace := hlooked.at_place
  have htyped := hlooked.typed ht
  rw [hplace.start_eq, hplace.size_eq] at hfits
  have hlen := neighbourLen_lt he hplace ht.len_lt ht.header.xor_lt
  refine ⟨hplace, ⟨htyped.last_lt, htyped.latest_lt, htyped.latestLen_lt, ?_, ?_, ?_⟩, ?_,
    hlooked.sync, ?_, ?_, ?_, ?_⟩ <;> rw [setIter_iter]
  · exact hback.steps.lt he htyped.last_lt ht.cur_lt
  · exact hlen
  · exact hback.header
  · by_cases hs : Sync s₃ e.pid
    · exact .inl (hs.of_same rfl rfl)
    · refine .inr ⟨?_, fun ha => hs (hback.looked.in_sync (hsync₁ ha)), fun ha => hs (hback.sync ha)⟩
      rcases hlooked.known with hk | hk
      · exact absurd hk hs
      · exact hk
  · exact hback.recordId_eq
  · exact hback.steps
  · exact hback.found
  · exact Nat.not_lt.mp hfits

/-! ## The rank -/

/-- `k` steps behind the jump the iterator has come down to `a`. -/
def Descended (e : Extent) (k a : Nat) : Prop :=
  (a = e.start ∧ (k ≤ 1 ∨ metadataSize + k * getElementHeaderLen e.pid < e.size)) ∨
  (e.start < a ∧ a + k * getElementHeaderLen e.pid + getElementHeaderLen e.pid ≤
    e.start + e.size ∧ (k = 0 ∨ e.start + metadataSize < a))

/-- The walk does not jump any more: it jumped, or it left the storage. -/
def Spent (e : Extent) (s : State D) : Prop :=
  D.size + 2 ^ 17 < (s.iter e.pid).curElementAddress ∨
  ∃ k h, foundAt D s.bytes e.pid (s.part e.pid) (s.part e.pid).metadata.lastElementAddress = .ok h ∧
    IsRecordId h.recordId ∧
    (s.iter e.pid).curElementHeader.recordId = decrementRecordId^[k] h.recordId ∧
    Descended e k (s.iter e.pid).curElementAddress

open Classical in
/-- What falls with every step back, and grows with no lookup. -/
noncomputable def rank (e : Extent) (s : State D) : Nat :=
  let a := (s.iter e.pid).curElementAddress
  let last := (s.part e.pid).metadata.lastElementAddress
  if Sync s e.pid then (if Spent e s then a else a + last + 1)
  else (if a < e.start then last + 1 else a) + 2 ^ 34

/-- The partition has no room for as many element-headers as there are identifiers. -/
def Roomless (e : Extent) : Prop := e.size / getElementHeaderLen e.pid < 65534

theorem Roomless.lt (h : Roomless e) : e.size < 65534 * getElementHeaderLen e.pid :=
  (Nat.div_lt_iff_lt_mul (Nat.lt_of_lt_of_le (by decide) (elementHeaderLen_bounds e.pid).1)).mp h

/-- Behind the start there is no second jump, and a step goes further down. -/
theorem Descended.step (hroom : Roomless e) {last k a a' : Nat} (h : Descended e k a)
    (hsteps : StepsBack e last a a') :
    (a = e.start ∧ a' = last ∧ k + 1 < 65534) ∨ (Descended e (k + 1) a' ∧ a' < a) := by
  have hlt := hroom.lt
  have hH := elementHeaderLen_bounds e.pid
  unfold Descended at h ⊢
  rw [Nat.succ_mul]
  generalize hkH : k * getElementHeaderLen e.pid = kH at *
  cases hsteps with
  | jump hle hgt =>
    refine .inl ⟨by omega, rfl, ?_⟩
    have hmul : k * getElementHeaderLen e.pid < 65533 * getElementHeaderLen e.pid ∨ k ≤ 1 := by
      unfold metadataSize at h
      omega
    rcases hmul with hmul | hk
    · have := Nat.lt_of_mul_lt_mul_right hmul
      omega
    · omega
  | first hgt hle =>
    refine .inr ⟨.inl ⟨rfl, ?_⟩, hgt⟩
    omega
  | down hgt hle hge =>
    unfold metadataSize at h hgt ⊢
    exact .inr ⟨.inr ⟨by omega, by omega, .inr (by omega)⟩, by omega⟩

/-- The header at the last element is in the storage or wraps around the address space. -/
theorem foundAt_eq_ok {m : Nat → UInt8} {pid : Nat} {p : Partition} {a : Nat} {h : ElementHeader}
    (ha : a ≠ p.firstElementAddress) (hfound : foundAt D m pid p a = .ok h) :
    (a + getElementHeaderLen pid) % 2 ^ 32 ≤ D.size := by
  rw [foundAt, if_neg ha] at hfound
  by_contra hlt
  rw [if_pos (Nat.not_le.mp hlt)] at hfound
  cases hfound

/-- From outside the storage there is no step back. -/
theorem SteppedBack.not_beyond (he : e.Ok D) (ht : Typed s e.pid) (h : SteppedBack e s t) :
    (s.iter e.pid).curElementAddress ≤ D.size + 2 ^ 17 := by
  have hD := size_lt D
  have hstop := he.stop_le
  have hH := elementHeaderLen_bounds e.pid
  have hcur := ht.cur_lt
  have hstart := h.at_place.start_eq
  have hfound := h.found
  have hsteps := h.steps
  generalize (s.iter e.pid).curElementAddress = a at hcur hsteps ⊢
  generalize (t.iter e.pid).curElementAddress = a' at hfound hsteps
  cases hsteps with
  | jump hle => omega
  | first _ hle => omega
  | down hgt hle hge =>
    have hin := foundAt_eq_ok (by omega) (hfound (by omega))
    rw [Nat.mod_eq_of_lt (by omega)] at hin
    omega

/-- A step back in sync, from behind the jump. -/
theorem SteppedBack.spent (he : e.Ok D) (hroom : Roomless e) (hs : Sync s e.pid)
    (ht : Typed s e.pid) (h : SteppedBack e s t) (hspent : Spent e s) :
    Spent e t ∧ (t.iter e.pid).curElementAddress < (s.iter e.pid).curElementAddress := by
  obtain ⟨hm, hp⟩ := h.sync hs
  rcases hspent with hbeyond | ⟨k, hd, hlast, hid, hk, hdesc⟩
  · have hle := h.not_beyond he ht
    omega
  · rcases hdesc.step hroom h.steps with ⟨ha, ha', hlt⟩ | ⟨hdesc', hlt⟩
    · have hgt : e.start < (t.iter e.pid).curElementAddress := by
        rw [ha']
        have hsteps := h.steps
        rw [ha, ha'] at hsteps
        generalize (t.part e.pid).metadata.lastElementAddress = last at hsteps
        cases hsteps <;> omega
      have hfound := h.found (Nat.ne_of_gt hgt)
      rw [ha', hm, hp, hlast] at hfound
      have heq := h.recordId_eq
      rw [hk, ← Function.iterate_succ_apply' decrementRecordId, ← Except.ok.inj hfound] at heq
      exact absurd heq.symm (decrement_iterate_ne hid (Nat.succ_pos k) hlt)
    · refine ⟨.inr ⟨k + 1, hd, ?_, hid, ?_, hdesc'⟩, hlt⟩
      · rw [hm, hp]
        exact hlast
      · rw [h.recordId_eq, hk, Function.iterate_succ_apply']

theorem StepsBack.jump_eq {last a a' : Nat} (h : StepsBack e last a a') (ha : a ≤ e.start) :
    a' = last ∧ e.start < last := by
  cases h with
  | jump _ hgt => exact ⟨rfl, hgt⟩
  | first hgt => omega
  | down hgt hle => omega

theorem StepsBack.lt_of_gt {last a a' : Nat} (h : StepsBack e last a a') (ha : e.start < a) :
    e.start ≤ a' ∧ a' < a := by
  have hH := elementHeaderLen_bounds e.pid
  cases h with
  | jump hle => omega
  | first hgt => exact ⟨Nat.le_refl _, hgt⟩
  | down hgt hle => omega

/-- A step back in sync from the start of the partition is the jump. -/
theorem SteppedBack.jumped (he : e.Ok D) (ht : Typed s e.pid) (h : SteppedBack e s t)
    (ha : (s.iter e.pid).curElementAddress ≤ e.start) : Spent e t := by
  have hD := size_lt D
  have hstop := he.stop_le
  have hH := elementHeaderLen_bounds e.pid
  have hfits := h.fits
  have hlen := h.typed.len_lt
  have hlast := h.typed.last_lt
  obtain ⟨heq, hgt⟩ := h.steps.jump_eq ha
  have hfound := h.found (by omega)
  rw [heq] at hfound hfits
  by_cases hwrap : (t.part e.pid).metadata.lastElementAddress + getElementHeaderLen e.pid +
      (t.iter e.pid).curElementLen < 2 ^ 32
  · rw [Nat.mod_eq_of_lt hwrap] at hfits
    refine .inr ⟨0, _, hfound, ?_, rfl, .inr ⟨by omega, by omega, .inl rfl⟩⟩
    rw [h.recordId_eq]
    exact isRecordId_decrement ht.header.recordId_lt
  · exact .inl (by omega)

theorem rank_spent (hs : Sync s e.pid) (h : Spent e s) :
    rank e s = (s.iter e.pid).curElementAddress := by
  rw [rank, if_pos hs, if_pos h]

theorem rank_unspent (hs : Sync s e.pid) (h : ¬ Spent e s) : rank e s =
    (s.iter e.pid).curElementAddress + (s.part e.pid).metadata.lastElementAddress + 1 := by
  rw [rank, if_pos hs, if_neg h]

theorem rank_of_not_sync (hs : ¬ Sync s e.pid) : rank e s =
    (if (s.iter e.pid).curElementAddress < e.start
      then (s.part e.pid).metadata.lastElementAddress + 1
      else (s.iter e.pid).curElementAddress) + 2 ^ 34 := by
  rw [rank, if_neg hs]

theorem rank_lt_of_sync (ht : Typed s e.pid) (hs : Sync s e.pid) : rank e s < 2 ^ 34 := by
  have hcur := ht.cur_lt
  have hlast := ht.last_lt
  by_cases h : Spent e s
  · rw [rank_spent hs h]
    omega
  · rw [rank_unspent hs h]
    omega

/-- Every step back lowers the rank. -/
theorem SteppedBack.rank_lt (he : e.Ok D) (hroom : Roomless e) (ht : Typed s e.pid)
    (h : SteppedBack e s t) : rank e t < rank e s := by
  by_cases hs : Sync s e.pid
  · obtain ⟨hm, hp⟩ := h.sync hs
    have hst : Sync t e.pid := hs.of_same hm hp
    by_cases hspent : Spent e s
    · obtain ⟨hspent', hlt⟩ := h.spent he hroom hs ht hspent
      rw [rank_spent hs hspent, rank_spent hst hspent']
      exact hlt
    · rw [rank_unspent hs hspent, ← hp]
      by_cases ha : (s.iter e.pid).curElementAddress ≤ e.start
      · rw [rank_spent hst (h.jumped he ht ha), (h.steps.jump_eq ha).1]
        omega
      · have hlt := (h.steps.lt_of_gt (Nat.not_le.mp ha)).2
        by_cases hspent' : Spent e t
        · rw [rank_spent hst hspent']
          omega
        · rw [rank_unspent hst hspent']
          omega
  · rw [rank_of_not_sync hs]
    rcases h.known with hst | ⟨hp, hne, hne'⟩
    · exact Nat.lt_of_lt_of_le (rank_lt_of_sync h.typed hst) (Nat.le_add_left _ _)
    · by_cases hst : Sync t e.pid
      · exact Nat.lt_of_lt_of_le (rank_lt_of_sync h.typed hst) (Nat.le_add_left _ _)
      · rw [rank_of_not_sync hst, hp]
        have hsteps := h.steps
        rw [hp] at hsteps
        by_cases ha : (s.iter e.pid).curElementAddress ≤ e.start
        · obtain ⟨heq, hgt⟩ := hsteps.jump_eq ha
          rw [if_pos (Nat.lt_of_le_of_ne ha hne), heq, if_neg (Nat.lt_asymm hgt)]
          omega
        · obtain ⟨hge, hlt⟩ := hsteps.lt_of_gt (Nat.not_le.mp ha)
          rw [if_neg (Nat.not_lt.mpr hge), if_neg (Nat.lt_asymm (Nat.not_le.mp ha))]
          omega

/-- No lookup raises it. -/
theorem Looked.rank_le (ht : Typed s e.pid) (h : Looked e s t) : rank e t ≤ rank e s := by
  obtain ⟨_, hit⟩ := h.iter_eq
  have hcur : (t.iter e.pid).curElementAddress = (s.iter e.pid).curElementAddress := by rw [hit]
  by_cases hs : Sync s e.pid
  · obtain ⟨hm, hp⟩ := h.sync hs
    have hst := h.in_sync hs
    have hspent : Spent e t ↔ Spent e s := by
      rw [Spent, Spent, hit, hm, hp]
    by_cases hsp : Spent e s
    · apply Nat.le_of_eq
      rw [rank_spent hs hsp, rank_spent hst (hspent.mpr hsp), hcur]
    · apply Nat.le_of_eq
      rw [rank_unspent hs hsp, rank_unspent hst (mt hspent.mp hsp), hcur, hp]
  · rw [rank_of_not_sync hs]
    by_cases hst : Sync t e.pid
    · exact Nat.le_of_lt (Nat.lt_of_lt_of_le (rank_lt_of_sync (h.typed ht) hst)
        (Nat.le_add_left _ _))
    · rcases h.known with hk | hp
      · exact absurd hk hst
      · apply Nat.le_of_eq
        rw [rank_of_not_sync hst, hcur, hp]

end OpenBadge.Filesystem
