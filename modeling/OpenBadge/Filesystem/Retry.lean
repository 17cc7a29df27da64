import OpenBadge.Filesystem.Failing
import OpenBadge.Filesystem.Untrusted

/-!
# Storing an element again

A call of `filesystem_store_element` that fails because a storage call did leaves a state
from which the next call goes on as if nothing had happened: `Pending` describes these
states, `Finished` what a success makes of each of them. It is another matter if the
library's copy of the metadata is not that in storage.
-/

namespace OpenBadge.Filesystem

open OpenBadge.Lib OpenBadge.Storage
open Proc (Endures sure)

variable {D : Device} {s t : State D} {pid : Nat}

/-! ## The storage calls -/

section Calls

variable {F P : State D → Prop} {E : RetCode → State D → Prop}

theorem storageRead_endures {Q : List UInt8 → State D → Prop} {a n : Nat}
    (hfits : a + n ≤ D.size) (hF : ∀ t, P t → F t) (hQ : ∀ t, P t → Q (slice t.bytes a n) t) :
    Endures .internal F P (Failing.storageRead a n) Q E := by
  refine Endures.risky hF (fun s d t hs h => ?_) (fun s code t hs h => ?_)
  · rw [storageRead_ok hfits] at h
    cases h
    exact hQ s hs
  · rw [storageRead_ok hfits] at h
    cases h

/-- The units of a range are its bytes. -/
theorem sure_unitLimits (hB : D.ByteUnits) {Q : Nat × Nat → State D → Prop} {a n : Nat}
    (hn : 0 < n) (hfits : a + n ≤ D.size) (hQ : ∀ t, P t → Q (a, a + n - 1) t) :
    Endures .internal F P (sure (storageGetUnitAddressLimits a n)) Q E := by
  have hlimits : ∀ s : State D,
      storageGetUnitAddressLimits a n s = (.ok (a, a + n - 1), s) := by
    intro s
    rw [unitLimits_ok hn hfits, unitStart_of_bytes hB, unitStop_of_bytes hB, Nat.add_sub_cancel]
  refine Endures.sure (fun s _ t hs h => ?_) (fun s code t hs h => ?_)
  · rw [hlimits] at h
    cases h
    exact hQ s hs
  · rw [hlimits] at h
    cases h

section Writes

variable (hD : D.Reliable) (hB : D.ByteUnits)
include hD hB

theorem storageStore_bytes {a : Nat} {d : List UInt8} (hfits : a + d.length ≤ D.size) :
    ∃ v, storageStore a d s = (.ok (), s.setDev v) ∧ D.byte v = overwrite s.bytes a d := by
  have hsize := size_lt D
  obtain ⟨v, hv⟩ := wrote_of_reliable hD s.dev hfits
  exact ⟨v, (storageStore_eq_ok (by omega)).mpr ⟨v, hv, rfl⟩, hv.changed.eq_overwrite hB⟩

theorem storageClear_bytes {a n : Nat} (hfits : a + n ≤ D.size) :
    ∃ v, storageClear a n s = (.ok (), s.setDev v) ∧
      D.byte v = overwrite s.bytes a (List.replicate n 0xFF) := by
  have hsize := size_lt D
  obtain ⟨v, hv⟩ := cleared_of_reliable hD s.dev hfits
  exact ⟨v, (storageClear_eq_ok (by omega)).mpr ⟨v, hv, rfl⟩, hv.changed.eq_overwrite hB⟩

variable {Q : Unit → State D → Prop}

theorem storageStore_endures {a : Nat} {d : List UInt8} (hfits : a + d.length ≤ D.size)
    (hF : ∀ t, P t → F t)
    (hQ : ∀ t v, P t → D.byte v = overwrite t.bytes a d → Q () (t.setDev v)) :
    Endures .internal F P (Failing.storageStore a d) Q E := by
  refine Endures.risky hF (fun s _ t hs h => ?_) (fun s code t hs h => ?_)
  · obtain ⟨v, hv, hbytes⟩ := storageStore_bytes (s := s) hD hB hfits
    rw [hv] at h
    cases h
    exact hQ s v hs hbytes
  · obtain ⟨v, hv, -⟩ := storageStore_bytes (s := s) hD hB hfits
    rw [hv] at h
    cases h

theorem storageClear_endures {a n : Nat} (hfits : a + n ≤ D.size) (hF : ∀ t, P t → F t)
    (hQ : ∀ t v, P t → D.byte v = overwrite t.bytes a (List.replicate n 0xFF) →
      Q () (t.setDev v)) :
    Endures .internal F P (Failing.storageClear a n) Q E := by
  refine Endures.risky hF (fun s _ t hs h => ?_) (fun s code t hs h => ?_)
  · obtain ⟨v, hv, hbytes⟩ := storageClear_bytes (s := s) hD hB hfits
    rw [hv] at h
    cases h
    exact hQ s v hs hbytes
  · obtain ⟨v, hv, -⟩ := storageClear_bytes (s := s) hD hB hfits
    rw [hv] at h
    cases h

/-- A backup in the swap page, with units of a byte. -/
theorem backupFirstElementHeader_endures {a : Nat} {header : List UInt8}
    (hh : 0 < header.length) (hswap : a + header.length ≤ swapPageSize)
    (hfits : a + header.length ≤ D.size) (hF : ∀ t, P t → F t)
    (hF' : ∀ t v, P t → D.byte v = overwrite t.bytes a header → F (t.setDev v))
    (hQ : ∀ t v, P t → D.byte v = overwrite t.bytes a header → Q () (t.setDev v)) :
    Endures .internal F P (Failing.backupFirstElementHeader a header) Q fun _ _ => False := by
  refine Endures.bind (Q := fun _ => P) (Endures.failIf (fun hlt => absurd hlt (by omega))
    fun _ t ht => ht) fun _ => ?_
  refine Endures.bind (Q := fun tmp t => P t ∧ tmp = slice t.bytes a header.length)
    (Endures.orFail (storageRead_endures hfits hF fun t ht => ⟨ht, rfl⟩) fun _ _ h => h)
    fun tmp => ?_
  refine Endures.when (fun _ => ?_) fun hsame t ht => ?_
  · refine Endures.bind (Q := fun limits t => P t ∧ limits = (a, a + header.length - 1))
      (Endures.orFail (sure_unitLimits hB hh hfits fun t ht => ⟨ht.1, rfl⟩) fun _ _ h => h)
      fun limits => ?_
    refine Endures.assume (p := limits = (a, a + header.length - 1)) (fun t ht => ht.2)
      fun hlimits => ?_
    subst hlimits
    dsimp only
    rw [show a + header.length - 1 + 1 - a = header.length by omega, Nat.sub_self, Nat.zero_add]
    refine Endures.bind (Q := fun page t => P t ∧ page.length = header.length)
      (Endures.orFail (storageRead_endures hfits (fun t ht => hF t ht.1)
        fun t ht => ⟨ht.1, slice_length _ _ _⟩) fun _ _ h => h) fun page => ?_
    refine Endures.assume (p := page.length = header.length) (fun t ht => ht.2) fun hlen => ?_
    rw [List.take_zero, List.nil_append, List.drop_of_length_le (Nat.le_of_eq hlen),
      List.append_nil]
    refine Endures.bind (Q := fun _ t => F t ∧ Q () t ∧ slice t.bytes a header.length = header)
      (Endures.orFail (storageStore_endures hD hB hfits (fun t ht => hF t ht.1)
        fun t v ht hv => ⟨hF' t v ht.1 hv, hQ t v ht.1 hv, ?_⟩) fun _ _ h => h) fun _ => ?_
    · rw [setDev_bytes, hv, slice_overwrite]
    refine Endures.bind (Q := fun back t => Q () t ∧ back = header)
      (Endures.orFail (storageRead_endures hfits (fun t ht => ht.1)
        fun t ht => ⟨ht.2.1, ht.2.2⟩) fun _ _ h => h) fun back => ?_
    refine Endures.assume (p := back = header) (fun t ht => ht.2) fun hback => ?_
    exact Endures.failIf (fun hne => absurd hback.symm hne) fun _ t ht => ht.1
  · have hread : slice t.bytes a header.length = header := by
      rw [← ht.2]
      exact (not_not.mp hsame).symm
    exact hQ t t.dev ht.1 (overwrite_same hread).symm

end Writes

theorem getPartition_endures :
    Endures .internal F P (sure (getPartition pid)) (fun p t => P t ∧ p = t.part pid) E := by
  refine Endures.sure (fun s p t hs h => ?_) (fun s code t hs h => (by cases h))
  cases h
  exact ⟨hs, rfl⟩

theorem modifyPartition_endures {Q : Unit → State D → Prop} {f : Partition → Partition}
    (hQ : ∀ t, P t → Q () (t.setPart pid (f (t.part pid)))) :
    Endures .internal F P (sure (modifyPartition pid f)) Q E := by
  refine Endures.sure (fun s _ t hs h => ?_) (fun s code t hs h => (by cases h))
  cases h
  exact hQ s hs

theorem acceptFirstHeader_endures {Q : ElementHeader → State D → Prop} {tmp : List UInt8}
    (hQ : ∀ t hd, P t → Q hd (t.setPart pid
      { t.part pid with metadata := deserializeMetadata tmp })) :
    Endures .internal F P (sure (acceptFirstHeader pid tmp)) Q E := by
  refine Endures.sure (fun s hd t hs h => ?_) (fun s code t hs h => (by cases h))
  cases h
  exact hQ s _ hs

theorem readFirstHeader_endures {a : Nat} (hfits : a + metadataSize + getElementHeaderLen pid ≤
    D.size) (hF : ∀ t, P t → F t) :
    Endures .internal F P (Failing.readFirstHeader pid a)
      (fun tmp t => P t ∧ tmp = firstBytes t.bytes pid a) E := by
  refine (Endures.orFail (storageRead_endures (Q := fun tmp t => P t ∧
    tmp = slice t.bytes a metadataSize) (E := fun _ _ => False) (by omega) hF
      fun t ht => ⟨ht, rfl⟩) fun _ _ h => h.elim).bind fun tmp => ?_
  refine (Endures.orFail (storageRead_endures (Q := fun tmp' t => P t ∧
    tmp ++ tmp' = firstBytes t.bytes pid a) (E := fun _ _ => False) hfits
      (fun t ht => hF t ht.1) fun t ht => ⟨ht.1, ?_⟩) fun _ _ h => h.elim).bind fun tmp' => ?_
  · rw [ht.2, firstBytes, slice_add]
  · exact Endures.pure fun t ht => ht

end Calls

/-! ## The copy of the first header -/

/-- `q` is `p`, but for the copy of the first header. -/
structure Akin (pid : Nat) (p q : Partition) : Prop where
  eq : q = { p with metadata := q.metadata, firstElementHeader := q.firstElementHeader }
  id_eq : q.metadata.partitionId = p.metadata.partitionId
  size_eq : q.metadata.partitionSize = p.metadata.partitionSize
  len_eq : isDynamic pid = false → q.metadata.firstElementLen = p.metadata.firstElementLen

namespace Akin

variable {p q : Partition}

theorem refl (pid : Nat) (p : Partition) : Akin pid p p := ⟨rfl, rfl, rfl, fun _ => rfl⟩

theorem first_eq (h : Akin pid p q) : q.firstElementAddress = p.firstElementAddress := by
  rw [h.eq]

theorem consistent_eq (h : Akin pid p q) (m : Metadata) :
    m.consistent pid q = m.consistent pid p := by
  unfold Metadata.consistent
  rw [h.id_eq, h.size_eq]
  cases hd : isDynamic pid with
  | true => rfl
  | false => rw [h.len_eq hd]

theorem neighbourLen_eq (h : Akin pid p q) (len xor : Nat) :
    neighbourLen pid q len xor = neighbourLen pid p len xor := by
  unfold neighbourLen
  split
  · rfl
  · rename_i hd
    exact h.len_eq (Bool.of_not_eq_true hd)

theorem stopOf_eq (h : Akin pid p q) (a len : Nat) : stopOf pid q a len = stopOf pid p a len :=
  stopOf_congr h.first_eq a len

theorem storedLen_eq (h : Akin pid p q) (elementLen : Nat) :
    storedLen pid q elementLen = storedLen pid p elementLen := by
  unfold storedLen
  split
  · rename_i hc
    exact h.len_eq hc.1
  · rfl

theorem placement_eq (h : Akin pid p q) (len : Nat) : placement pid q len = placement pid p len := by
  have hheader := headerLenAt_congr pid h.first_eq
  have hsize := h.size_eq
  rw [h.eq] at hheader hsize ⊢
  unfold placement
  dsimp only at hheader hsize ⊢
  rw [hheader, hsize]

theorem newMetadata_eq (h : Akin pid p q) (len : Nat) (hd : ElementHeader) :
    newMetadata pid q len hd = newMetadata pid p len hd := by
  have hsize := h.size_eq
  rw [h.eq] at hsize ⊢
  unfold newMetadata
  dsimp only at hsize ⊢
  rw [hsize]

theorem setCopy (h : Akin pid p q) {m : Metadata} (hid : m.partitionId = p.metadata.partitionId)
    (hsize : m.partitionSize = p.metadata.partitionSize)
    (hlen : isDynamic pid = false → m.firstElementLen = p.metadata.firstElementLen)
    (hd : ElementHeader) : Akin pid p { q with metadata := m, firstElementHeader := hd } := by
  refine ⟨?_, hid, hsize, hlen⟩
  rw [h.eq]

theorem accept (h : Akin pid p q) {m : Metadata} (hm : m.consistent pid p = true) :
    Akin pid p { q with metadata := m } := by
  simp only [Metadata.consistent, Bool.and_eq_true, Bool.or_eq_true, decide_eq_true_eq] at hm
  refine h.setCopy hm.1.1 hm.1.2 (fun hd => ?_) q.firstElementHeader
  exact hm.2.resolve_left (by rw [hd]; decide)

end Akin

/-- The bytes at the partition's start and the library's metadata after a lookup of the first
header. -/
def lookedUp (m : Nat → UInt8) (pid : Nat) (p : Partition) : List UInt8 × Metadata :=
  let tmp := firstBytes m pid p.firstElementAddress
  let swap := firstBytes m pid (getSwapPageAddressOfPartition pid)
  if CrcValid tmp then
    (tmp, if (deserializeMetadata tmp).consistent pid p then deserializeMetadata tmp
      else p.metadata)
  else if CrcValid swap ∧ (deserializeMetadata swap).consistent pid p = true then
    (swap, deserializeMetadata swap)
  else (tmp, p.metadata)

/-- In a state in sync a lookup of the first header changes nothing, in any other it does. -/
theorem lookedUp_eq_iff {m : Nat → UInt8} {p : Partition} :
    lookedUp m pid p = (firstBytes m pid p.firstElementAddress, p.metadata) ↔
      Current m pid p ∨ Silent m pid p := by
  unfold lookedUp Current Silent
  by_cases hcrc : CrcValid (firstBytes m pid p.firstElementAddress)
  · rw [if_pos hcrc]
    constructor
    · intro h
      have hm := congrArg Prod.snd h
      dsimp only at hm
      by_cases hc : (deserializeMetadata (firstBytes m pid p.firstElementAddress)).consistent
          pid p = true
      · rw [if_pos hc] at hm
        exact .inl ⟨hcrc, hm⟩
      · exact .inr ⟨fun _ => Bool.of_not_eq_true hc, fun hn => absurd hcrc hn⟩
    · rintro (⟨-, h⟩ | ⟨h, -⟩)
      · rw [h, ite_self]
      · rw [if_neg (by rw [h hcrc]; decide)]
  · rw [if_neg hcrc]
    constructor
    · intro h
      right
      refine ⟨fun hc => absurd hc hcrc, fun _ hswap => Bool.of_not_eq_true fun hc => ?_⟩
      rw [if_pos ⟨hswap, hc⟩] at h
      have hsame := congrArg Prod.fst h
      dsimp only at hsame
      exact hcrc (hsame ▸ hswap)
    · rintro (⟨h, -⟩ | ⟨-, h⟩)
      · exact absurd h hcrc
      · rw [if_neg fun hc => by rw [h hcrc hc.1] at hc; exact absurd hc.2 (by decide)]

theorem lookedUp_start {m : Nat → UInt8} {p : Partition}
    (hcrc : CrcValid (firstBytes m pid p.firstElementAddress)) :
    lookedUp m pid p = (firstBytes m pid p.firstElementAddress,
      if (deserializeMetadata (firstBytes m pid p.firstElementAddress)).consistent pid p then
        deserializeMetadata (firstBytes m pid p.firstElementAddress) else p.metadata) := if_pos hcrc

theorem lookedUp_swap {m : Nat → UInt8} {p : Partition}
    (hcrc : ¬ CrcValid (firstBytes m pid p.firstElementAddress))
    (hswap : CrcValid (firstBytes m pid (getSwapPageAddressOfPartition pid)))
    (hc : (deserializeMetadata (firstBytes m pid (getSwapPageAddressOfPartition pid))).consistent
      pid p = true) :
    lookedUp m pid p = (firstBytes m pid (getSwapPageAddressOfPartition pid),
      deserializeMetadata (firstBytes m pid (getSwapPageAddressOfPartition pid))) := by
  unfold lookedUp
  rw [if_neg hcrc, if_pos ⟨hswap, hc⟩]

theorem lookedUp_none {m : Nat → UInt8} {p : Partition}
    (hcrc : ¬ CrcValid (firstBytes m pid p.firstElementAddress))
    (hswap : ¬ (CrcValid (firstBytes m pid (getSwapPageAddressOfPartition pid)) ∧
      (deserializeMetadata (firstBytes m pid (getSwapPageAddressOfPartition pid))).consistent
        pid p = true)) :
    lookedUp m pid p = (firstBytes m pid p.firstElementAddress, p.metadata) := by
  unfold lookedUp
  rw [if_neg hcrc, if_neg hswap]

/-! ## Calls that have failed -/

/-- A call of `filesystem_store_element` that begins in `start`, for an element that goes to
`pl`. -/
structure Attempt (D : Device) (pid : Nat) where
  start : State D
  pl : Placement
  len : Nat
  data : List UInt8

namespace Attempt

variable (A : Attempt D pid)

/-- The partition when the first call begins. -/
def part : Partition := A.start.part pid

/-- The address behind the new element. -/
def stop : Nat := stopOf pid A.part A.pl.address A.len

/-- The header behind the new element. -/
def behind (m : Nat → UInt8) : List UInt8 := slice m A.stop (getElementHeaderLen pid)

/-- A header behind the new element has to be cleared. -/
def FollowsIn (tmp : List UInt8) : Prop :=
  (deserializeElementHeader pid tmp).recordId = incrementRecordId A.pl.recordId ∧
    A.stop + getElementHeaderLen pid +
        neighbourLen pid A.part A.len (deserializeElementHeader pid tmp).previousLenXorCurLen ≤
      A.part.firstElementAddress + A.part.metadata.partitionSize

/-- So has the one that is there at first. -/
def Stale : Prop := A.FollowsIn (A.behind A.start.bytes)

/-- What has become of the first header, if the new element is not the first one: a lookup
finds what it found at first. -/
structure Held (t : State D) : Prop where
  header_eq : (t.part pid).firstElementHeader = A.part.firstElementHeader
  swap_eq : firstBytes t.bytes pid (getSwapPageAddressOfPartition pid) =
    firstBytes A.start.bytes pid (getSwapPageAddressOfPartition pid)
  lookup_eq : lookedUp t.bytes pid (t.part pid) = lookedUp A.start.bytes pid A.part
  sync : Sync A.start pid → firstBytes t.bytes pid A.part.firstElementAddress =
    firstBytes A.start.bytes pid A.part.firstElementAddress ∧
      (t.part pid).metadata = A.part.metadata

/-- A state in which a call has failed. -/
structure Pending (t : State D) : Prop where
  akin : Akin pid A.part (t.part pid)
  noIterator : (t.iter pid).iteratorValid ≠ iteratorValidNumber
  outside : ∀ x, OutsideSwap pid x →
    (x < A.part.firstElementAddress ∨
      A.part.firstElementAddress + metadataSize + getElementHeaderLen pid ≤ x) →
    (x < A.pl.address ∨ A.stop + getElementHeaderLen pid ≤ x) → t.bytes x = A.start.bytes x
  behind : A.behind t.bytes = A.behind A.start.bytes ∨
    (A.Stale ∧ A.behind t.bytes = List.replicate (getElementHeaderLen pid) 0xFF)
  held : A.pl.address ≠ A.part.firstElementAddress → A.Held t

/-- The first header has been looked up, or need not be. -/
def Looked (t : State D) : Prop :=
  A.pl.address ≠ A.part.firstElementAddress →
    (firstBytes t.bytes pid A.part.firstElementAddress, (t.part pid).metadata) =
      lookedUp A.start.bytes pid A.part

/-- The element goes to the start of the partition or behind its first header. -/
structure Placed : Prop where
  ram : Ram D pid A.part
  fits : Fits pid A.part A.pl A.len
  probe_fits : A.stop + getElementHeaderLen pid ≤ D.size
  data_len : A.data.length = A.len
  len_eq : isDynamic pid = false → A.len = A.part.metadata.firstElementLen

theorem pending_start (hiter : (A.start.iter pid).iteratorValid ≠ iteratorValidNumber) :
    A.Pending A.start :=
  ⟨Akin.refl pid _, hiter, fun _ _ _ _ => rfl, .inl rfl,
    fun _ => ⟨rfl, rfl, rfl, fun _ => ⟨rfl, rfl⟩⟩⟩

end Attempt

variable {A : Attempt D pid}

theorem Attempt.Pending.first_eq (h : A.Pending t) :
    (t.part pid).firstElementAddress = A.part.firstElementAddress := h.akin.first_eq

theorem Attempt.Placed.stop_ge (h : A.Placed) :
    A.part.firstElementAddress + metadataSize + getElementHeaderLen pid ≤ A.stop := by
  have hle := h.fits.start_le
  unfold Attempt.stop stopOf headerLenAt
  rcases h.fits.address with ha | ha
  · rw [if_pos ha]
    omega
  · omega

/-- The bytes of the first header. -/
abbrev Attempt.top (A : Attempt D pid) (m : Nat → UInt8) : List UInt8 :=
  firstBytes m pid A.part.firstElementAddress

theorem Attempt.lookup_sync (hs : Sync A.start pid) :
    lookedUp A.start.bytes pid A.part = (A.top A.start.bytes, A.part.metadata) :=
  lookedUp_eq_iff.mpr hs.known

theorem Attempt.Held.lookup (h : A.Held t) (hakin : Akin pid A.part (t.part pid))
    (hcrc : CrcValid (A.top t.bytes))
    (hc : (deserializeMetadata (A.top t.bytes)).consistent pid A.part = true) :
    lookedUp A.start.bytes pid A.part = (A.top t.bytes, deserializeMetadata (A.top t.bytes)) := by
  rw [← h.lookup_eq, lookedUp_start (by rw [hakin.first_eq]; exact hcrc), hakin.consistent_eq,
    hakin.first_eq, if_pos hc]

/-- Metadata that a lookup finds are taken over. -/
theorem Attempt.Pending.accept (h : A.Pending t) (hcrc : CrcValid (A.top t.bytes))
    (hc : (deserializeMetadata (A.top t.bytes)).consistent pid A.part = true) :
    A.Pending (t.setPart pid
        { t.part pid with metadata := deserializeMetadata (A.top t.bytes) }) ∧
      A.Looked (t.setPart pid
        { t.part pid with metadata := deserializeMetadata (A.top t.bytes) }) := by
  have hakin := h.akin.accept hc
  have hpart := setPart_part t pid
    { t.part pid with metadata := deserializeMetadata (A.top t.bytes) }
  refine ⟨⟨by rw [hpart]; exact hakin, h.noIterator, h.outside, h.behind, fun ha => ?_⟩,
    fun ha => ?_⟩
  · have hheld := h.held ha
    have hlookup := hheld.lookup h.akin hcrc hc
    refine ⟨by rw [hpart]; exact hheld.header_eq, hheld.swap_eq, ?_, fun hs => ?_⟩
    · rw [hpart, setPart_bytes, hlookup,
        lookedUp_start (by rw [hakin.first_eq]; exact hcrc), hakin.consistent_eq, hakin.first_eq,
        if_pos hc]
    · rw [lookup_sync hs] at hlookup
      rw [hpart, setPart_bytes]
      exact ⟨(congrArg Prod.fst hlookup).symm, (congrArg Prod.snd hlookup).symm⟩
  · rw [hpart, setPart_bytes, (h.held ha).lookup h.akin hcrc hc]

theorem Attempt.Pending.looked (h : A.Pending t)
    (hl : lookedUp t.bytes pid (t.part pid) = (A.top t.bytes, (t.part pid).metadata)) :
    A.Looked t := by
  intro ha
  rw [← (h.held ha).lookup_eq, hl]

section Lookups

variable (hP : A.Placed)
include hP

/-- The first header is restored from the swap page. -/
theorem Attempt.Pending.restore (h : A.Pending t) {tmp : List UInt8}
    (htmp : tmp = firstBytes t.bytes pid (getSwapPageAddressOfPartition pid))
    (hcrc : ¬ CrcValid (A.top t.bytes)) (hswap : CrcValid tmp)
    (hc : (deserializeMetadata tmp).consistent pid A.part = true) {v : D.State}
    (hv : D.byte v = overwrite t.bytes A.part.firstElementAddress tmp) :
    A.Pending (t.setDev v) ∧ A.top (D.byte v) = tmp ∧ A.behind (D.byte v) = A.behind t.bytes := by
  have hlen : tmp.length = metadataSize + getElementHeaderLen pid := by
    rw [htmp]
    exact slice_length _ _ _
  have hge := hP.stop_ge
  have hsl := hP.ram.swap_le
  have hstart := hP.ram.start_ge
  have htop : A.top (D.byte v) = tmp := by
    rw [Attempt.top, firstBytes, ← hlen, hv, slice_overwrite]
  have hbehind : A.behind (D.byte v) = A.behind t.bytes := by
    rw [hv]
    exact slice_congr fun x hx _ => overwrite_of_ge _ _ (by omega)
  have hpage : firstBytes (D.byte v) pid (getSwapPageAddressOfPartition pid) =
      firstBytes t.bytes pid (getSwapPageAddressOfPartition pid) := by
    rw [hv]
    exact slice_congr fun x _ hx => overwrite_of_lt _ _ (by omega)
  refine ⟨⟨h.akin, h.noIterator, fun x hx hx' hx'' => ?_, ?_, fun ha => ?_⟩, htop, hbehind⟩
  · rw [setDev_bytes, hv, ← h.outside x hx hx' hx'']
    rcases hx' with hx' | hx'
    · exact overwrite_of_lt _ _ hx'
    · exact overwrite_of_ge _ _ (by omega)
  · rw [setDev_bytes, hbehind]
    exact h.behind
  · have hheld := h.held ha
    have hfound : lookedUp t.bytes pid (t.part pid) = (tmp, deserializeMetadata tmp) := by
      rw [htmp]
      exact lookedUp_swap (by rw [h.first_eq]; exact hcrc) (by rw [← htmp]; exact hswap)
        (by rw [h.akin.consistent_eq, ← htmp]; exact hc)
    refine ⟨hheld.header_eq, hpage.trans hheld.swap_eq, ?_, fun hs => ?_⟩
    · have hfirst := h.first_eq
      have htop' : firstBytes (D.byte v) pid (t.part pid).firstElementAddress = tmp := by
        rw [hfirst]
        exact htop
      rw [← hheld.lookup_eq, hfound, setDev_bytes, setDev_part,
        lookedUp_start (by rw [htop']; exact hswap), htop', h.akin.consistent_eq, if_pos hc]
    · rw [hheld.lookup_eq]  at hfound
      replace hfound := (lookup_sync hs).symm.trans hfound
      have hsame : A.top t.bytes = tmp := (hheld.sync hs).1.trans (congrArg Prod.fst hfound)
      rw [hsame] at hcrc
      exact absurd hswap hcrc

/-! ## The lookups -/

/-- A failed call, with the header that is behind the new element. -/
def Attempt.PendingWith (A : Attempt D pid) (tmp : List UInt8) (t : State D) : Prop :=
  A.Pending t ∧ A.behind t.bytes = tmp

theorem restoreFirstHeader_endures (hD : D.Reliable) (hB : D.ByteUnits) (tmp : List UInt8) :
    Endures .internal A.Pending
      (fun t => A.PendingWith tmp t ∧ ¬ CrcValid (A.top t.bytes))
      (Failing.restoreFirstHeader pid A.part.firstElementAddress)
      (fun _ t => A.PendingWith tmp t ∧ A.Looked t)
      (fun code t => code = .notFound ∧ A.PendingWith tmp t ∧ A.Looked t) := by
  have hsl := hP.ram.swap_le
  have hsize := hP.ram.size_ge
  have hstop := hP.ram.stop_le
  have hstart := hP.ram.start_ge
  refine (readFirstHeader_endures (by omega) fun t ht => ht.1.1).bind fun swap => ?_
  refine getPartition_endures.bind fun p => ?_
  refine Endures.assume (p := Akin pid A.part p ∧
    swap.length = metadataSize + getElementHeaderLen pid) (fun t ht => ?_) fun hp => ?_
  · obtain ⟨⟨⟨hpending, -⟩, rfl⟩, rfl⟩ := ht
    exact ⟨hpending.1.akin, slice_length _ _ _⟩
  obtain ⟨hakin, hlen⟩ := hp
  -- without a backup that belongs to the partition, the lookup has found nothing
  have hnone : ∀ t, ((A.PendingWith tmp t ∧ ¬ CrcValid (A.top t.bytes)) ∧
      swap = firstBytes t.bytes pid (getSwapPageAddressOfPartition pid)) ∧ p = t.part pid →
      ¬ (CrcValid swap ∧ (deserializeMetadata swap).consistent pid A.part = true) →
      A.PendingWith tmp t ∧ A.Looked t := by
    rintro t ⟨⟨⟨hpending, hcrc⟩, rfl⟩, rfl⟩ hno
    refine ⟨hpending, hpending.1.looked ?_⟩
    have hfirst := hpending.1.first_eq
    rw [← hakin.consistent_eq] at hno
    rw [lookedUp_none (by rw [hfirst]; exact hcrc) hno, hfirst]
  refine Endures.bind (Q := fun _ t => (((A.PendingWith tmp t ∧ ¬ CrcValid (A.top t.bytes)) ∧
      swap = firstBytes t.bytes pid (getSwapPageAddressOfPartition pid)) ∧ p = t.part pid) ∧
      CrcValid swap) (Endures.failIf (fun hno t ht => ⟨rfl, hnone t ht fun hc => hno hc.1⟩)
    fun hc t ht => ⟨ht, not_not.mp hc⟩) fun _ => ?_
  refine Endures.bind (Q := fun _ t => (((A.PendingWith tmp t ∧ ¬ CrcValid (A.top t.bytes)) ∧
      swap = firstBytes t.bytes pid (getSwapPageAddressOfPartition pid)) ∧ p = t.part pid) ∧
      CrcValid swap ∧ (deserializeMetadata swap).consistent pid A.part = true)
    (Endures.failIf (fun hno t ht => ⟨rfl, hnone t ht.1 fun hc => ?_⟩) fun hc t ht =>
      ⟨ht.1, ht.2, ?_⟩) fun _ => ?_
  · rw [hakin.consistent_eq, hc.2] at hno
    cases hno
  · rw [hakin.consistent_eq] at hc
    exact Bool.of_not_eq_false hc
  refine Endures.bind (Q := fun _ t => A.PendingWith tmp t ∧ A.top t.bytes = swap ∧
      CrcValid swap ∧ (deserializeMetadata swap).consistent pid A.part = true)
    (Endures.orFail (storageStore_endures (E := fun _ _ => False) hD hB (by omega)
      (fun t ht => ht.1.1.1.1.1) fun t v ht hv => ?_) fun _ _ h => h.elim) fun _ => ?_
  · obtain ⟨⟨⟨⟨⟨hpending, hbehind⟩, hcrc⟩, hswap⟩, -⟩, hvalid, hc⟩ := ht
    obtain ⟨hpending', htop, hbehind'⟩ := hpending.restore hP hswap hcrc hvalid hc hv
    exact ⟨⟨hpending', hbehind'.trans hbehind⟩, htop, hvalid, hc⟩
  refine Endures.bind (Q := fun back t => (A.PendingWith tmp t ∧ A.top t.bytes = swap ∧
      CrcValid swap ∧ (deserializeMetadata swap).consistent pid A.part = true) ∧ back = swap)
    (Endures.orFail (storageRead_endures (E := fun _ _ => False) (by omega)
      (fun t ht => ht.1.1) fun t ht => ⟨ht, ht.2.1⟩) fun _ _ h => h.elim) fun back => ?_
  refine Endures.bind (Q := fun _ t => A.PendingWith tmp t ∧ A.top t.bytes = swap ∧
      CrcValid swap ∧ (deserializeMetadata swap).consistent pid A.part = true)
    (Endures.assume (p := back = swap) (fun t ht => ht.2) fun hback =>
      Endures.failIf (fun hne => absurd hback.symm hne) fun _ t ht => ht.1) fun _ => ?_
  refine acceptFirstHeader_endures fun t hd ht => ?_
  obtain ⟨⟨hpending, hbehind⟩, htop, hvalid, hc⟩ := ht
  rw [← htop] at hvalid hc ⊢
  obtain ⟨hpending', hlooked⟩ := hpending.accept hvalid hc
  exact ⟨⟨hpending', hbehind⟩, hlooked⟩

theorem readElementHeader_first_endures (hD : D.Reliable) (hB : D.ByteUnits) (tmp : List UInt8) :
    Endures .internal A.Pending (A.PendingWith tmp)
      (Failing.readElementHeader pid A.part.firstElementAddress)
      (fun _ t => A.PendingWith tmp t ∧ A.Looked t)
      (fun code t => code = .notFound ∧ A.PendingWith tmp t ∧ A.Looked t) := by
  have hsize := hP.ram.size_ge
  have hstop := hP.ram.stop_le
  refine getPartition_endures.bind fun p => ?_
  refine Endures.assume (p := Akin pid A.part p) (fun t ht => ?_) fun hakin => ?_
  · obtain ⟨hpending, rfl⟩ := ht
    exact hpending.1.akin
  refine Endures.ite (fun _ => ?_) fun hne => absurd hakin.first_eq.symm hne
  refine (readFirstHeader_endures (by omega) fun t ht => ht.1.1).bind fun first => ?_
  refine Endures.ite (fun hcrc => ?_) fun hcrc => ?_
  · refine Endures.bind (Q := fun _ t => ((A.PendingWith tmp t ∧ p = t.part pid) ∧
        first = A.top t.bytes) ∧ (deserializeMetadata first).consistent pid A.part = true)
      (Endures.failIf (fun hno t ht => ?_) fun hc t ht => ⟨ht, ?_⟩) fun _ => ?_
    · obtain ⟨⟨hpending, rfl⟩, rfl⟩ := ht
      have hfirst := hpending.1.first_eq
      refine ⟨rfl, hpending, hpending.1.looked ?_⟩
      rw [lookedUp_start (by rw [hfirst]; exact hcrc), hfirst, if_neg (by rw [hno]; decide)]
    · rw [hakin.consistent_eq] at hc
      exact Bool.of_not_eq_false hc
    · refine acceptFirstHeader_endures fun t hd ht => ?_
      obtain ⟨⟨⟨⟨hpending, hbehind⟩, -⟩, rfl⟩, hc⟩ := ht
      obtain ⟨hpending', hlooked⟩ := hpending.accept hcrc hc
      exact ⟨⟨hpending', hbehind⟩, hlooked⟩
  · refine (restoreFirstHeader_endures hP hD hB tmp).mono (fun t ht => ⟨ht.1.1, ?_⟩)
      (fun _ _ h => h) fun _ _ h => h
    have hfirst : first = A.top t.bytes := ht.2
    rw [← hfirst]
    exact hcrc

theorem getFirstAsNext_endures (hD : D.Reliable) (hB : D.ByteUnits) (tmp : List UInt8)
    (recordId : Nat) :
    Endures .internal A.Pending (A.PendingWith tmp) (Failing.getFirstAsNext pid recordId)
      (fun found t => found.1 = A.part.firstElementAddress ∧ A.PendingWith tmp t ∧ A.Looked t)
      (fun code t => code = .notFound ∧ A.PendingWith tmp t ∧ A.Looked t) := by
  refine getPartition_endures.bind fun p => ?_
  refine Endures.assume (p := p.firstElementAddress = A.part.firstElementAddress)
    (fun t ht => ?_) fun hfirst => ?_
  · obtain ⟨hpending, rfl⟩ := ht
    exact hpending.1.first_eq
  rw [hfirst]
  refine ((readElementHeader_first_endures hP hD hB tmp).mono (fun t ht => ht.1)
    (fun _ _ h => h) fun _ _ h => h).bind fun h => ?_
  refine Endures.bind (Q := fun _ t => A.PendingWith tmp t ∧ A.Looked t)
    (Endures.failIf (fun _ t ht => ⟨rfl, ht⟩) fun _ t ht => ht) fun _ => ?_
  exact Endures.pure fun t ht => ⟨rfl, ht⟩

theorem getNextElementHeader_endures (hD : D.Reliable) (hB : D.ByteUnits) (tmp : List UInt8) :
    Endures .internal A.Pending (A.PendingWith tmp)
      (Failing.getNextElementHeader pid A.pl.address A.pl.recordId A.len)
      (fun found t => A.PendingWith tmp t ∧ ((found.1 = A.stop ∧ A.FollowsIn tmp) ∨
        (found.1 = A.part.firstElementAddress ∧ ¬ A.FollowsIn tmp ∧ A.Looked t)))
      (fun code t => code = .notFound ∧ A.PendingWith tmp t ∧ ¬ A.FollowsIn tmp ∧ A.Looked t) := by
  have hge := hP.stop_ge
  have hprobe := hP.probe_fits
  have hH := elementHeaderLen_bounds pid
  refine getPartition_endures.bind fun p => ?_
  refine Endures.assume (p := Akin pid A.part p) (fun t ht => ?_) fun hakin => ?_
  · obtain ⟨hpending, rfl⟩ := ht
    exact hpending.1.akin
  have hnext : A.pl.address + headerLenAt pid p A.pl.address + A.len = A.stop :=
    hakin.stopOf_eq A.pl.address A.len
  dsimp only
  rw [hnext]
  refine Endures.bind (Q := fun h t => A.PendingWith tmp t ∧ h = deserializeElementHeader pid tmp)
    (getPartition_endures.bind fun p' => ?_) fun h => ?_
  · refine Endures.assume (p := p'.firstElementAddress = A.part.firstElementAddress)
      (fun t ht => ?_) fun hfirst => ?_
    · obtain ⟨⟨hpending, -⟩, rfl⟩ := ht
      exact hpending.1.first_eq
    refine Endures.ite (fun heq => absurd heq (by omega)) fun _ => ?_
    refine Endures.bind (Q := fun read t => A.PendingWith tmp t ∧ read = tmp)
      (Endures.orFail (storageRead_endures (E := fun _ _ => False) hprobe
        (fun t ht => ht.1.1.1) fun t ht => ⟨ht.1.1, ht.1.1.2⟩) fun _ _ h => h.elim) fun read => ?_
    refine Endures.pure fun t ht => ⟨ht.1, ?_⟩
    rw [ht.2]
  · refine getPartition_endures.bind fun p' => ?_
    refine Endures.assume (p := Akin pid A.part p' ∧ h = deserializeElementHeader pid tmp)
      (fun t ht => ?_) fun hfound => ?_
    · obtain ⟨⟨hpending, hh⟩, rfl⟩ := ht
      exact ⟨hpending.1.akin, hh⟩
    obtain ⟨hakin', rfl⟩ := hfound
    rw [hakin.first_eq, hakin.size_eq, hakin'.neighbourLen_eq]
    refine Endures.ite (fun hf => ?_) fun hf => ?_
    · exact Endures.pure fun t ht => ⟨ht.1.1, .inl ⟨rfl, hf⟩⟩
    · exact (getFirstAsNext_endures hP hD hB tmp A.pl.recordId).mono (fun t ht => ht.1.1)
        (fun found t ht => ⟨ht.2.1, .inr ⟨ht.1, hf, ht.2.2⟩⟩)
        fun code t ht => ⟨ht.1, ht.2.1, hf, ht.2.2⟩

/-! ## The writes -/

/-- The lookups are done: the header behind the new element is not stale any more. -/
structure Attempt.Ready (A : Attempt D pid) (t : State D) : Prop where
  pending : A.Pending t
  looked : A.Looked t
  cleared : A.Stale → A.behind t.bytes = List.replicate (getElementHeaderLen pid) 0xFF

/-- Without a stale header, or with the metadata known, calls that have failed make no
difference. -/
def Attempt.Safe (A : Attempt D pid) : Prop :=
  A.Stale → A.pl.address ≠ A.part.firstElementAddress → Sync A.start pid

omit hP in
theorem not_followsIn_blank (A : Attempt D pid) :
    ¬ A.FollowsIn (List.replicate (getElementHeaderLen pid) 0xFF) := by
  intro h
  have hid := isRecordId_increment A.pl.recordId
  rw [← h.1] at hid
  have hblank : (deserializeElementHeader pid
      (List.replicate (getElementHeaderLen pid) 0xFF)).recordId = 0xFFFF := by
    unfold deserializeElementHeader getElementHeaderLen
    split <;> split <;> rfl
  rw [hblank] at hid
  exact absurd hid.2 (by decide)

omit hP in
theorem Attempt.behind_cleared (A : Attempt D pid) (m : Nat → UInt8) :
    A.behind (overwrite m A.stop (List.replicate (getElementHeaderLen pid) 0xFF)) =
      List.replicate (getElementHeaderLen pid) 0xFF := by
  have hw := slice_overwrite m A.stop (List.replicate (getElementHeaderLen pid) (0xFF : UInt8))
  rw [List.length_replicate] at hw
  exact hw

omit hP in
theorem Attempt.PendingWith.stale {tmp : List UInt8} (h : A.PendingWith tmp t)
    (hf : A.FollowsIn tmp) : A.Stale := by
  obtain ⟨hpending, rfl⟩ := h
  rcases hpending.behind with hb | ⟨hs, -⟩
  · rw [hb] at hf
    exact hf
  · exact hs

omit hP in
theorem Attempt.PendingWith.ready {tmp : List UInt8} (h : A.PendingWith tmp t)
    (hf : ¬ A.FollowsIn tmp) (hl : A.Looked t) : A.Ready t := by
  obtain ⟨hpending, rfl⟩ := h
  refine ⟨hpending, hl, fun hs => ?_⟩
  rcases hpending.behind with hb | ⟨-, hb⟩
  · rw [hb] at hf
    exact absurd hs hf
  · exact hb

/-- A write to the place of the new element, or to the header behind it. -/
theorem Attempt.Pending.write (h : A.Pending t) {a : Nat} {d : List UInt8} {v : D.State}
    (ha : A.pl.address ≤ a)
    (hv : D.byte v = overwrite t.bytes a d)
    (hstop : a + d.length ≤ A.stop ∨ (a = A.stop ∧ A.Stale ∧
      d = List.replicate (getElementHeaderLen pid) 0xFF)) : A.Pending (t.setDev v) := by
  have hlt := lt_stopOf pid A.part A.pl.address A.len
  have hend : a + d.length ≤ A.stop + getElementHeaderLen pid := by
    rcases hstop with hstop | ⟨rfl, -, rfl⟩
    · omega
    · exact Nat.le_of_eq (by rw [List.length_replicate])
  refine ⟨h.akin, h.noIterator, fun x hx hx' hx'' => ?_, ?_, fun hne => ?_⟩
  · rw [setDev_bytes, hv, ← h.outside x hx hx' hx'']
    rcases hx'' with hx'' | hx''
    · exact overwrite_of_lt _ _ (by omega)
    · exact overwrite_of_ge _ _ (by omega)
  · rw [setDev_bytes, hv]
    rcases hstop with hstop | ⟨rfl, hs, rfl⟩
    · have hsame : A.behind (overwrite t.bytes a d) = A.behind t.bytes :=
        slice_congr fun x hx _ => overwrite_of_ge _ _ (by omega)
      rw [hsame]
      exact h.behind
    · exact .inr ⟨hs, A.behind_cleared t.bytes⟩
  · have hheld := h.held hne
    have hsl := hP.ram.swap_le
    have hstart := hP.ram.start_ge
    have haddr := hP.fits.address.resolve_left hne
    have hfirst := h.first_eq
    have htop : firstBytes (D.byte v) pid A.part.firstElementAddress = A.top t.bytes := by
      rw [hv]
      exact slice_congr fun x _ hx => overwrite_of_lt _ _ (by omega)
    have hswap : firstBytes (D.byte v) pid (getSwapPageAddressOfPartition pid) =
        firstBytes t.bytes pid (getSwapPageAddressOfPartition pid) := by
      rw [hv]
      exact slice_congr fun x _ hx => overwrite_of_lt _ _ (by omega)
    refine ⟨hheld.header_eq, hswap.trans hheld.swap_eq, ?_, fun hs => ?_⟩
    · rw [← hheld.lookup_eq, setDev_bytes, setDev_part]
      unfold lookedUp
      rw [hfirst, htop, hswap]
    · rw [setDev_bytes, htop, setDev_part]
      exact hheld.sync hs

theorem clearStaleNext_endures (hD : D.Reliable) (hB : D.ByteUnits) (hsafe : A.Safe) :
    Endures .internal A.Pending A.Pending (Failing.clearStaleNext pid A.pl A.len)
      (fun _ => A.Ready) (fun _ _ => False) := by
  have hprobe := hP.probe_fits
  have hlt := lt_stopOf pid A.part A.pl.address A.len
  have hle := hP.fits.start_le
  refine Endures.named (fun t => A.behind t.bytes) fun tmp => ?_
  unfold Failing.clearStaleNext
  refine Endures.attempt_bind (getNextElementHeader_endures hP hD hB tmp) rfl (fun found => ?_)
    fun code => ?_
  · refine Endures.when (fun hgt => ?_) fun hgt t ht => ?_
    · refine Endures.assume (p := found.1 = A.stop ∧ A.Stale) (fun t ht => ?_) fun hfound => ?_
      · rcases ht.2 with ⟨heq, hf⟩ | ⟨heq, -⟩
        · exact ⟨heq, ht.1.stale hf⟩
        · omega
      · obtain ⟨heq, hstale⟩ := hfound
        rw [heq]
        refine Endures.orFail (storageClear_endures (E := fun _ _ => False) hD hB hprobe
          (fun t ht => ht.1.1) fun t v ht hv => ?_) fun _ _ h => h
        have hpending := ht.1.1.write hP (Nat.le_trans (Nat.le_succ _) (Nat.le_of_lt hlt)) hv
          (.inr ⟨rfl, hstale, rfl⟩)
        refine ⟨hpending, fun hne => ?_, fun _ => ?_⟩
        · have hsync := hsafe hstale hne
          obtain ⟨htop, hmeta⟩ := (hpending.held hne).sync hsync
          rw [htop, hmeta]
          exact (Attempt.lookup_sync hsync).symm
        · rw [setDev_bytes, hv]
          exact A.behind_cleared t.bytes
    · rcases ht.2 with ⟨heq, -⟩ | ⟨-, hf, hl⟩
      · exact absurd hgt (by
          have hstop : A.pl.address + 1 < A.stop := hlt
          omega)
      · exact ht.1.ready hf hl
  · refine Endures.assume (p := code = .notFound) (fun t ht => ht.1) fun hcode => ?_
    subst hcode
    exact Endures.pure fun t ht => ht.2.1.ready ht.2.2.1 ht.2.2.2

/-- The copy of the first header is that of the new element, if it is the first one. -/
structure Attempt.Renewed (A : Attempt D pid) (t : State D) : Prop where
  ready : A.Ready t
  metadata_eq : A.pl.address = A.part.firstElementAddress →
    (t.part pid).metadata = newMetadata pid A.part A.len (newHeader A.pl A.data)
  header_eq : A.pl.address = A.part.firstElementAddress →
    (t.part pid).firstElementHeader = newHeader A.pl A.data

theorem renew_endures {p : Partition} (hp : p.firstElementAddress = A.part.firstElementAddress) :
    Endures .internal A.Pending A.Ready
      (Proc.when (A.pl.address = p.firstElementAddress)
        (sure (modifyPartition pid fun q =>
          { q with
            metadata := newMetadata pid q A.len (newHeader A.pl A.data)
            firstElementHeader := newHeader A.pl A.data })))
      (fun _ => A.Renewed) (fun _ _ => False) := by
  rw [hp]
  refine Endures.when (fun haddr => modifyPartition_endures fun t ht => ?_) fun haddr t ht =>
    ⟨ht, fun h => absurd h haddr, fun h => absurd h haddr⟩
  have hakin := ht.pending.akin
  have hmeta := hakin.newMetadata_eq A.len (newHeader A.pl A.data)
  rw [hmeta]
  have hpart := setPart_part t pid
    { t.part pid with
      metadata := newMetadata pid A.part A.len (newHeader A.pl A.data)
      firstElementHeader := newHeader A.pl A.data }
  refine ⟨⟨⟨?_, ht.pending.noIterator, ht.pending.outside, ht.pending.behind,
    fun hne => absurd haddr hne⟩, fun hne => absurd haddr hne, ht.cleared⟩,
    fun _ => by rw [hpart], fun _ => by rw [hpart]⟩
  rw [hpart]
  exact hakin.setCopy (m := newMetadata pid A.part A.len (newHeader A.pl A.data))
    hP.ram.id_eq.symm rfl hP.len_eq _

/-- The backup of the first header is that of the new element, if it is the first one. -/
structure Attempt.Saved (A : Attempt D pid) (t : State D) : Prop where
  renewed : A.Renewed t
  swap_eq : A.pl.address = A.part.firstElementAddress →
    firstBytes t.bytes pid (getSwapPageAddressOfPartition pid) =
      headerBytes pid A.part A.pl A.len A.data

omit hP in
theorem Attempt.Renewed.headerBytes_eq (h : A.Renewed t) :
    (if A.pl.address = A.part.firstElementAddress then
      serializeMetadata (t.part pid).metadata ++
        serializeElementHeader pid (newHeader A.pl A.data)
      else serializeElementHeader pid (newHeader A.pl A.data)) =
        headerBytes pid A.part A.pl A.len A.data := by
  unfold headerBytes
  split
  · rename_i haddr
    rw [h.metadata_eq haddr]
  · rfl

/-- A write to the entry of the swap page, for a new first element. -/
theorem Attempt.Renewed.backup (h : A.Renewed t)
    (haddr : A.pl.address = A.part.firstElementAddress) {v : D.State}
    (hv : D.byte v = overwrite t.bytes (getSwapPageAddressOfPartition pid)
      (headerBytes pid A.part A.pl A.len A.data)) : A.Saved (t.setDev v) := by
  have hsl := hP.ram.swap_le
  have hstart := hP.ram.start_ge
  have hge := hP.stop_ge
  have hlen : (headerBytes pid A.part A.pl A.len A.data).length =
      metadataSize + getElementHeaderLen pid := by
    rw [headerBytes_length, headerLenAt, if_pos haddr]
  have hpending := h.ready.pending
  have hbehind : A.behind (D.byte v) = A.behind t.bytes := by
    rw [hv]
    exact slice_congr fun x hx _ => overwrite_of_ge _ _ (by omega)
  refine ⟨⟨⟨⟨hpending.akin, hpending.noIterator, fun x hx hx' hx'' => ?_, ?_,
    fun hne => absurd haddr hne⟩, fun hne => absurd haddr hne, fun hs => ?_⟩,
    h.metadata_eq, h.header_eq⟩, fun _ => ?_⟩
  · rw [setDev_bytes, hv, ← hpending.outside x hx hx' hx'']
    rcases hx with hx | hx
    · exact overwrite_of_lt _ _ hx
    · exact overwrite_of_ge _ _ (by omega)
  · rw [setDev_bytes, hbehind]
    exact hpending.behind
  · rw [setDev_bytes, hbehind]
    exact h.ready.cleared hs
  · rw [setDev_bytes, firstBytes, ← hlen, hv, slice_overwrite]

theorem backupIfFirstUnit_endures (hD : D.Reliable) (hB : D.ByteUnits) :
    Endures .internal A.Pending A.Renewed (Failing.backupIfFirstUnit pid A.pl.address A.len)
      (fun _ => A.Saved) (fun _ _ => False) := by
  have hsl := hP.ram.swap_le
  have hstart := hP.ram.start_ge
  have hsize := hP.ram.size_ge
  have hstop := hP.ram.stop_le
  have hH := elementHeaderLen_bounds pid
  have hfit := stopOf_ge pid A.part A.pl.address A.len
  have hfits := hP.fits.stop_le
  refine Endures.bind (Q := fun limits t => A.Renewed t ∧
      limits = (A.pl.address, A.pl.address + (getElementHeaderLen pid + A.len) - 1))
    (Endures.orFail (sure_unitLimits hB (by omega) (by omega) fun t ht => ⟨ht, rfl⟩)
      fun _ _ h => h) fun limits => ?_
  refine Endures.assume (fun t ht => ht.2) fun hlimits => ?_
  subst hlimits
  dsimp only
  refine getPartition_endures.bind fun p => ?_
  refine Endures.assume (p := p.firstElementAddress = A.part.firstElementAddress ∧
    (A.pl.address = A.part.firstElementAddress →
      serializeMetadata p.metadata ++ serializeElementHeader pid p.firstElementHeader =
        headerBytes pid A.part A.pl A.len A.data)) (fun t ht => ?_) fun hp => ?_
  · obtain ⟨⟨hrenewed, -⟩, rfl⟩ := ht
    refine ⟨hrenewed.ready.pending.first_eq, fun haddr => ?_⟩
    rw [← hrenewed.headerBytes_eq, if_pos haddr, hrenewed.header_eq haddr]
  obtain ⟨hfirst, hbytes⟩ := hp
  rw [hfirst]
  refine Endures.when (fun haddr => ?_) fun hne t ht => ⟨ht.1.1, fun haddr => absurd haddr hne⟩
  rw [hbytes haddr]
  have hlen : (headerBytes pid A.part A.pl A.len A.data).length =
      metadataSize + getElementHeaderLen pid := by
    rw [headerBytes_length, headerLenAt, if_pos haddr]
  exact Endures.orFail (backupFirstElementHeader_endures hD hB (by omega) (by omega) (by omega)
    (fun t ht => ht.1.1.ready.pending)
    (fun t v ht hv => (ht.1.1.backup hP haddr hv).renewed.ready.pending)
    fun t v ht hv => ht.1.1.backup hP haddr hv) fun _ _ h => h

/-- A write of the new element. -/
theorem Attempt.Saved.write (h : A.Saved t) {a : Nat} {d : List UInt8} {v : D.State}
    (ha : A.pl.address ≤ a) (hv : D.byte v = overwrite t.bytes a d)
    (hstop : a + d.length ≤ A.stop) : A.Saved (t.setDev v) := by
  have hpending := h.renewed.ready.pending
  have hsl := hP.ram.swap_le
  have hstart := hP.ram.start_ge
  have hle := hP.fits.start_le
  refine ⟨⟨⟨hpending.write hP ha hv (.inl hstop), fun hne => ?_, fun hs => ?_⟩,
    h.renewed.metadata_eq, h.renewed.header_eq⟩, fun haddr => ?_⟩
  · have hbehind := hP.fits.address.resolve_left hne
    have htop : firstBytes (D.byte v) pid A.part.firstElementAddress = A.top t.bytes := by
      rw [hv]
      exact slice_congr fun x _ hx => overwrite_of_lt _ _ (by omega)
    rw [setDev_bytes, htop, setDev_part]
    exact h.renewed.ready.looked hne
  · have hbehind : A.behind (D.byte v) = A.behind t.bytes := by
      rw [hv]
      exact slice_congr fun x hx _ => overwrite_of_ge _ _ (by omega)
    rw [setDev_bytes, hbehind]
    exact h.renewed.ready.cleared hs
  · rw [← h.swap_eq haddr, setDev_bytes, hv]
    exact slice_congr fun x _ hx => overwrite_of_lt _ _ (by omega)

/-- Header and data of the new element are in the storage. -/
structure Attempt.Written (A : Attempt D pid) (t : State D) : Prop where
  saved : A.Saved t
  header_eq : slice t.bytes A.pl.address (headerLenAt pid A.part A.pl.address) =
    headerBytes pid A.part A.pl A.len A.data
  data_eq : slice t.bytes (A.pl.address + headerLenAt pid A.part A.pl.address) A.len = A.data

theorem writeElement_endures (hD : D.Reliable) (hB : D.ByteUnits) :
    Endures .internal A.Pending A.Saved
      (Failing.writeElement pid A.pl.address (newHeader A.pl A.data) A.data)
      (fun _ => A.Written) (fun _ _ => False) := by
  have hstop := hP.ram.stop_le
  have hfits := hP.fits.stop_le
  have hhl := headerBytes_length pid A.part A.pl A.len A.data
  have hdata := hP.data_len
  have heq : stopOf pid A.part A.pl.address A.len =
    A.pl.address + headerLenAt pid A.part A.pl.address + A.len := rfl
  have heq' : A.stop = stopOf pid A.part A.pl.address A.len := rfl
  refine getPartition_endures.bind fun p => ?_
  refine Endures.assume (p := p.firstElementAddress = A.part.firstElementAddress ∧
    (if A.pl.address = A.part.firstElementAddress then
      serializeMetadata p.metadata ++ serializeElementHeader pid (newHeader A.pl A.data)
      else serializeElementHeader pid (newHeader A.pl A.data)) =
        headerBytes pid A.part A.pl A.len A.data) (fun t ht => ?_) fun hp => ?_
  · obtain ⟨hsaved, rfl⟩ := ht
    exact ⟨hsaved.renewed.ready.pending.first_eq, hsaved.renewed.headerBytes_eq⟩
  obtain ⟨hfirst, hbytes⟩ := hp
  dsimp only
  rw [hfirst, hbytes, headerLenAt_congr pid hfirst]
  refine Endures.bind (Q := fun _ t => A.Saved t ∧
      slice t.bytes A.pl.address (headerLenAt pid A.part A.pl.address) =
        headerBytes pid A.part A.pl A.len A.data)
    (Endures.orFail (storageStore_endures hD hB (by omega)
      (fun t ht => ht.1.renewed.ready.pending) fun t v ht hv => ⟨?_, ?_⟩) fun _ _ h => h)
    fun _ => ?_
  · exact ht.1.write hP (Nat.le_refl _) hv (by omega)
  · rw [setDev_bytes, hv, ← hhl, slice_overwrite]
  refine Endures.bind (Q := fun back t => (A.Saved t ∧
      slice t.bytes A.pl.address (headerLenAt pid A.part A.pl.address) =
        headerBytes pid A.part A.pl A.len A.data) ∧
      back = headerBytes pid A.part A.pl A.len A.data)
    (Endures.orFail (storageRead_endures (by omega)
      (fun t ht => ht.1.renewed.ready.pending) fun t ht => ⟨ht, ht.2⟩) fun _ _ h => h)
    fun back => ?_
  refine Endures.bind (Q := fun _ t => A.Saved t ∧
      slice t.bytes A.pl.address (headerLenAt pid A.part A.pl.address) =
        headerBytes pid A.part A.pl A.len A.data)
    (Endures.assume (fun t ht => ht.2) fun hback =>
      Endures.failIf (fun hne => absurd hback.symm hne) fun _ t ht => ht.1) fun _ => ?_
  refine Endures.orFail (storageStore_endures hD hB (by omega)
    (fun t ht => ht.1.renewed.ready.pending) fun t v ht hv => ⟨?_, ?_, ?_⟩) fun _ _ h => h
  · exact ht.1.write hP (Nat.le_add_right _ _) hv (by omega)
  · rw [← ht.2, setDev_bytes, hv]
    exact slice_congr fun x _ hx => overwrite_of_lt _ _ (by omega)
  · rw [← hdata, setDev_bytes, hv, slice_overwrite]

/-! ## The whole call -/

/-- A call that has succeeded. -/
def Attempt.Finished (A : Attempt D pid) (t : State D) : Prop :=
  ∃ u, A.Written u ∧ t = u.setPart pid
    { u.part pid with
      latestElementAddress := A.pl.address
      latestElementRecordId := A.pl.recordId
      latestElementLen := A.len
      hasFirstElement := true }

omit hP in
theorem Attempt.Written.part_eq (h : A.Written s) (h' : A.Written t) :
    t.part pid = s.part pid := by
  have hs := h.saved.renewed
  have ht := h'.saved.renewed
  have hsame : (t.part pid).metadata = (s.part pid).metadata ∧
      (t.part pid).firstElementHeader = (s.part pid).firstElementHeader := by
    by_cases haddr : A.pl.address = A.part.firstElementAddress
    · exact ⟨(ht.metadata_eq haddr).trans (hs.metadata_eq haddr).symm,
        (ht.header_eq haddr).trans (hs.header_eq haddr).symm⟩
    · have hl := (ht.ready.looked haddr).trans (hs.ready.looked haddr).symm
      exact ⟨congrArg Prod.snd hl, (ht.ready.pending.held haddr).header_eq.trans
        (hs.ready.pending.held haddr).header_eq.symm⟩
  rw [ht.ready.pending.akin.eq, hs.ready.pending.akin.eq, hsame.1, hsame.2]

omit hP in
theorem Attempt.Ready.behind_eq (h : A.Ready s) (h' : A.Ready t) :
    A.behind t.bytes = A.behind s.bytes := by
  by_cases hs : A.Stale
  · rw [h.cleared hs, h'.cleared hs]
  · have hkept : ∀ u : State D, A.Pending u → A.behind u.bytes = A.behind A.start.bytes :=
      fun u hu => hu.behind.resolve_right fun hb => hs hb.1
    rw [hkept s h.pending, hkept t h'.pending]

/-- The bytes after a success are the same, whatever calls have failed before. -/
theorem Attempt.Written.bytes_eq (h : A.Written s) (h' : A.Written t) : t.bytes = s.bytes := by
  have hs := h.saved.renewed.ready
  have ht := h'.saved.renewed.ready
  have hle := hP.fits.start_le
  have heq : A.stop = A.pl.address + headerLenAt pid A.part A.pl.address + A.len := rfl
  funext x
  by_cases hswap : OutsideSwap pid x
  · by_cases haddr : x < A.pl.address
    · by_cases htop : x < A.part.firstElementAddress ∨
          A.part.firstElementAddress + metadataSize + getElementHeaderLen pid ≤ x
      · rw [ht.pending.outside x hswap htop (.inl haddr),
          hs.pending.outside x hswap htop (.inl haddr)]
      · have hne : A.pl.address ≠ A.part.firstElementAddress := by omega
        have hl := (ht.looked hne).trans (hs.looked hne).symm
        exact eq_of_slice_eq (congrArg Prod.fst hl) (by omega) (by omega)
    · by_cases hheader : x < A.pl.address + headerLenAt pid A.part A.pl.address
      · exact eq_of_slice_eq (h'.header_eq.trans h.header_eq.symm) (by omega) hheader
      · by_cases hdata : x < A.stop
        · exact eq_of_slice_eq (h'.data_eq.trans h.data_eq.symm) (by omega) (by omega)
        · by_cases hbehind : x < A.stop + getElementHeaderLen pid
          · exact eq_of_slice_eq (hs.behind_eq ht) (by omega) hbehind
          · have hge := hP.stop_ge
            rw [ht.pending.outside x hswap (.inr (by omega)) (.inr (by omega)),
              hs.pending.outside x hswap (.inr (by omega)) (.inr (by omega))]
  · have hpage : firstBytes t.bytes pid (getSwapPageAddressOfPartition pid) =
        firstBytes s.bytes pid (getSwapPageAddressOfPartition pid) := by
      by_cases haddr : A.pl.address = A.part.firstElementAddress
      · rw [h.saved.swap_eq haddr, h'.saved.swap_eq haddr]
      · rw [(ht.pending.held haddr).swap_eq, (hs.pending.held haddr).swap_eq]
    unfold OutsideSwap at hswap
    exact eq_of_slice_eq hpage (by omega) (by omega)

theorem Attempt.Finished.same (h : A.Finished s) (h' : A.Finished t) :
    t.bytes = s.bytes ∧ t.part pid = s.part pid := by
  obtain ⟨u, hu, rfl⟩ := h
  obtain ⟨v, hv, rfl⟩ := h'
  have hbytes := hu.bytes_eq hP hv
  refine ⟨hbytes, ?_⟩
  rw [setPart_part, setPart_part, hu.part_eq hv]

omit hP in
/-- Without a valid iterator there is no conflict. -/
theorem checkIteratorConflict_endures (a len : Nat) :
    Endures .internal A.Pending A.Pending (Failing.checkIteratorConflict pid a len)
      (fun _ => A.Pending) (fun _ _ => False) := by
  have hcheck : Endures .internal A.Pending A.Pending (Failing.iteratorCheckValidity pid)
      (fun _ _ => False) fun code t => code = .invalidState ∧ A.Pending t := by
    refine Endures.bind (Q := fun it t => A.Pending t ∧ it = t.iter pid)
      (Endures.sure (fun s it t hs h => ?_) fun s code t hs h => by cases h) fun it => ?_
    · cases h
      exact ⟨hs, rfl⟩
    · refine Endures.bind (Q := fun _ _ => False) (Endures.failIf (fun _ t ht => ⟨rfl, ht.1⟩)
        fun hvalid t ht => hvalid ?_) fun _ => Endures.assume (fun _ h => h) False.elim
      rw [ht.2]
      exact ht.1.noIterator
  unfold Failing.checkIteratorConflict
  refine Endures.attempt_bind hcheck rfl (fun _ => Endures.assume (fun _ h => h) False.elim)
    fun code => Endures.assume (fun _ h => h.1) fun hcode => ?_
  subst hcode
  exact Endures.pure fun t ht => ht.2

end Lookups

/-- The call for an element that begins in `s`. -/
def Attempt.ofCall (s : State D) (pid : Nat) (elementData : Nat → UInt8) (elementLen : Nat) :
    Attempt D pid where
  start := s
  pl := storedAt pid (s.part pid) elementLen
  len := storedLen pid (s.part pid) elementLen
  data := storedData pid (s.part pid) elementData elementLen

/-- From any state that failed calls leave, a call succeeds as the first one would have, or it
fails because a storage call did and leaves such a state. -/
theorem storeElement_endures (hD : D.Reliable) (hB : D.ByteUnits) {elementData : Nat → UInt8}
    {elementLen : Nat} (hA : A = Attempt.ofCall A.start pid elementData elementLen)
    (hP : A.Placed) (hacc : Accepted pid A.part elementLen) (hsafe : A.Safe) :
    Endures .internal A.Pending A.Pending (Failing.storeElement pid elementData elementLen)
      (fun _ => A.Finished) (fun _ _ => False) := by
  have hlen : A.len = storedLen pid A.part elementLen := congrArg Attempt.len hA
  have hpl : A.pl = placement pid A.part A.len := by
    rw [hlen]
    exact congrArg Attempt.pl hA
  have hdata : A.data = slice elementData 0 A.len := by
    rw [hlen]
    exact congrArg Attempt.data hA
  refine getPartition_endures.bind fun p => ?_
  refine Endures.assume (p := Akin pid A.part p) (fun t ht => ?_) fun hakin => ?_
  · obtain ⟨hpending, rfl⟩ := ht
    exact hpending.akin
  have hlen' : (if isDynamic pid = false ∧ elementLen = 0 then p.metadata.firstElementLen
      else elementLen) = A.len := (hakin.storedLen_eq elementLen).trans hlen.symm
  have hpl' : placement pid p A.len = A.pl := (hakin.placement_eq A.len).trans hpl.symm
  dsimp only
  rw [hlen', hpl', ← hdata]
  refine Endures.bind (Q := fun _ => A.Pending) (Endures.failIf (fun hparam => ?_)
    fun _ t ht => ht.1) fun _ => ?_
  · rw [hakin.len_eq hparam.1] at hparam
    exact absurd hparam hacc.1
  refine Endures.bind (Q := fun _ => A.Pending) (Endures.failIf (fun hfull => ?_)
    fun _ t ht => ht) fun _ => ?_
  · have hfits := hP.fits.stop_le
    rw [← hakin.stopOf_eq, ← hakin.first_eq, ← hakin.size_eq] at hfits
    unfold stopOf at hfits
    omega
  refine (Endures.orFail (checkIteratorConflict_endures A.pl.address A.len)
    fun _ _ h => h).bind fun _ => ?_
  refine (clearStaleNext_endures hP hD hB hsafe).bind fun _ => ?_
  refine (renew_endures hP hakin.first_eq).bind fun _ => ?_
  refine (backupIfFirstUnit_endures hP hD hB).bind fun _ => ?_
  refine (writeElement_endures hP hD hB).bind fun _ => ?_
  exact modifyPartition_endures fun t ht => ⟨t, ht, rfl⟩

end OpenBadge.Filesystem
