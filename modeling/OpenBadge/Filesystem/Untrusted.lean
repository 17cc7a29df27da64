import OpenBadge.Filesystem.Confined
import OpenBadge.Filesystem.Walk

/-!
# Reading storage that nobody vouches for

The lookups of headers on a storage with arbitrary contents. They may take over metadata
and restore the first header from the swap page, once: a state in sync is reached, and no
lookup changes that any more.
-/

namespace OpenBadge.Filesystem

open OpenBadge.Lib OpenBadge.Storage
open Proc (Keeps Yields)

variable {D : Device} {s t u s₀ : State D} {e : Extent} {pid : Nat}

/-- What `filesystem_read_element_header` returns in a state in sync, at any address. -/
def foundAt (D : Device) (m : Nat → UInt8) (pid : Nat) (p : Partition) (a : Nat) :
    Except RetCode ElementHeader :=
  if a = p.firstElementAddress then firstHeaderAt m pid p
  else if (a + getElementHeaderLen pid) % 2 ^ 32 > D.size then .error .internal
  else .ok (headerOf m pid a)

theorem readElementHeader_elsewhere {a : Nat} (ha : a ≠ (s.part pid).firstElementAddress) :
    readElementHeader pid a s = (foundAt D s.bytes pid (s.part pid) a, s) := by
  rw [readElementHeader, getPartition_bind, if_neg ha, foundAt, if_neg ha, storageRead]
  by_cases hin : (a + getElementHeaderLen pid) % 2 ^ 32 > D.size
  · rw [if_pos hin, Proc.bind_error (Proc.orFail_error
      ((Proc.get_bind_apply _ _).trans (Proc.failIf_bind_pos hin _ _ _)) _)]
  · rw [if_neg hin, Proc.bind_ok (Proc.orFail_ok
      ((Proc.get_bind_apply _ _).trans (Proc.failIf_bind_neg hin _ _ _)) _)]
    rfl

theorem readElementHeader_found (hs : Sync s pid) (a : Nat) :
    readElementHeader pid a s = (foundAt D s.bytes pid (s.part pid) a, s) := by
  by_cases ha : a = (s.part pid).firstElementAddress
  · rw [ha, readElementHeader_first hs, foundAt, if_pos rfl]
  · exact readElementHeader_elsewhere ha

theorem Sync.of_same (hs : Sync s pid) (hm : t.bytes = s.bytes) (hp : t.part pid = s.part pid) :
    Sync t pid :=
  ⟨by rw [hp]; exact hs.start_fits, hs.swap_fits, by rw [hm, hp]; exact hs.known⟩

/-! ## What a lookup may change -/

/-- The members of an element-header have the widths of their C types. -/
structure ElementHeader.Typed (h : ElementHeader) : Prop where
  recordId_lt : h.recordId < 2 ^ 16
  xor_lt : h.previousLenXorCurLen < 2 ^ 16

/-- So have those of a partition and its iterator. -/
structure Typed (s : State D) (pid : Nat) : Prop where
  last_lt : (s.part pid).metadata.lastElementAddress < 2 ^ 32
  latest_lt : (s.part pid).latestElementAddress < 2 ^ 32
  latestLen_lt : (s.part pid).latestElementLen < 2 ^ 16
  cur_lt : (s.iter pid).curElementAddress < 2 ^ 32
  len_lt : (s.iter pid).curElementLen < 2 ^ 16
  header : (s.iter pid).curElementHeader.Typed

/-- Lookups in the partition at `e` lead from `s` to `t`, on any storage: the iterator stays
where it is, and the partition is as before or in sync; once in sync, nothing changes. -/
structure Looked (e : Extent) (s t : State D) : Prop where
  at_place : (t.part e.pid).At e
  known : Sync t e.pid ∨ t.part e.pid = s.part e.pid
  sync : Sync s e.pid → t.bytes = s.bytes ∧ t.part e.pid = s.part e.pid
  last_lt : (s.part e.pid).metadata.lastElementAddress < 2 ^ 32 →
    (t.part e.pid).metadata.lastElementAddress < 2 ^ 32
  latest_eq : (t.part e.pid).latestElementAddress = (s.part e.pid).latestElementAddress
  latestLen_eq : (t.part e.pid).latestElementLen = (s.part e.pid).latestElementLen
  iter_eq : ∃ valid, t.iter e.pid = { s.iter e.pid with iteratorValid := valid }

theorem Looked.refl (h : (s.part e.pid).At e) : Looked e s s :=
  ⟨h, .inr rfl, fun _ => ⟨rfl, rfl⟩, id, rfl, rfl, _, rfl⟩

theorem Looked.in_sync (h : Looked e s t) (hs : Sync s e.pid) : Sync t e.pid :=
  hs.of_same (h.sync hs).1 (h.sync hs).2

theorem Looked.trans (h : Looked e s t) (h' : Looked e t u) : Looked e s u := by
  refine ⟨h'.at_place, ?_, fun hs => ?_, fun hlt => h'.last_lt (h.last_lt hlt),
    h'.latest_eq.trans h.latest_eq, h'.latestLen_eq.trans h.latestLen_eq, ?_⟩
  · rcases h'.known with hu | hu
    · exact .inl hu
    · rcases h.known with ht | ht
      · exact .inl (h'.in_sync ht)
      · exact .inr (hu.trans ht)
  · obtain ⟨hm, hp⟩ := h.sync hs
    obtain ⟨hm', hp'⟩ := h'.sync (h.in_sync hs)
    exact ⟨hm'.trans hm, hp'.trans hp⟩
  · obtain ⟨_, hit⟩ := h.iter_eq
    obtain ⟨valid', hit'⟩ := h'.iter_eq
    exact ⟨valid', by rw [hit', hit]⟩

theorem Looked.typed (h : Looked e s t) (ht : Typed s e.pid) : Typed t e.pid := by
  obtain ⟨_, hit⟩ := h.iter_eq
  refine ⟨h.last_lt ht.last_lt, by rw [h.latest_eq]; exact ht.latest_lt,
    by rw [h.latestLen_eq]; exact ht.latestLen_lt, ?_, ?_, ?_⟩ <;> rw [hit]
  · exact ht.cur_lt
  · exact ht.len_lt
  · exact ht.header

theorem lastElementAddress_lt (tmp : List UInt8) :
    (deserializeMetadata tmp).lastElementAddress < 2 ^ 32 := by
  change ofBe32 _ _ _ _ < _
  have h₀ := (tmp.getD 10 0).toNat_lt
  have h₁ := (tmp.getD 11 0).toNat_lt
  have h₂ := (tmp.getD 12 0).toNat_lt
  have h₃ := (tmp.getD 13 0).toNat_lt
  rw [ofBe32]
  omega

theorem storageStore_setDev (a : Nat) (d : List UInt8) :
    ∃ v, (storageStore a d s).2 = s.setDev v := by
  rw [storageStore]
  by_cases hfits : (a + d.length) % 2 ^ 32 > D.size
  · rw [Proc.failIf_bind_pos hfits]
    exact ⟨s.dev, rfl⟩
  · rw [Proc.failIf_bind_neg hfits]
    by_cases hd : d.length ≠ 0
    · rw [Proc.when_pos hd]
      exact ⟨_, rfl⟩
    · rw [Proc.when_neg hd]
      exact ⟨s.dev, rfl⟩

/-- A store, unless the library is in sync. -/
theorem Looked.setDev (h : (s.part e.pid).At e) (hs : ¬ Sync s e.pid) (v : D.State) :
    Looked e s (s.setDev v) :=
  ⟨h, .inr rfl, fun hsync => absurd hsync hs, id, rfl, rfl, _, rfl⟩

/-- The metadata that pass the CRC at the start are taken over. -/
theorem accepted (he : e.Ok D) (h : (s.part e.pid).At e) {v : D.State} {tmp : List UInt8}
    (htmp : firstBytes (D.byte v) e.pid e.start = tmp) (hcrc : CrcValid tmp)
    (hc : (deserializeMetadata tmp).consistent e.pid (s.part e.pid) = true) :
    Sync ((s.setDev v).setPart e.pid
        { s.part e.pid with metadata := deserializeMetadata tmp }) e.pid ∧
      (¬ Sync s e.pid → Looked e s ((s.setDev v).setPart e.pid
        { s.part e.pid with metadata := deserializeMetadata tmp })) := by
  have hswap := swapEntry_le he.index_lt
  have hroom := he.room
  have hstop := he.stop_le
  have hstart := he.start_ge
  have hsync : Sync ((s.setDev v).setPart e.pid
      { s.part e.pid with metadata := deserializeMetadata tmp }) e.pid := by
    refine ⟨?_, by omega, .inl ?_⟩
    · rw [setPart_part]
      change (s.part e.pid).firstElementAddress + metadataSize + _ ≤ _
      rw [h.start_eq]
      omega
    · rw [setPart_part, setPart_bytes, setDev_bytes]
      unfold Current
      dsimp only
      rw [h.start_eq, htmp]
      exact ⟨hcrc, rfl⟩
  refine ⟨hsync, fun hs => ⟨?_, .inl hsync, fun h' => absurd h' hs, fun _ => ?_, ?_, ?_, _, rfl⟩⟩ <;>
    rw [setPart_part]
  · exact h.accept hc
  · exact lastElementAddress_lt tmp

/-- Looking up the first header: when it succeeds, the library is in sync. -/
theorem readElementHeader_start (he : e.Ok D) (h : (s.part e.pid).At e) :
    Looked e s (readElementHeader e.pid e.start s).2 ∧
      ∀ hd t, readElementHeader e.pid e.start s = (.ok hd, t) → Sync t e.pid := by
  by_cases hs : Sync s e.pid
  · have hread := readElementHeader_found hs e.start
    rw [hread]
    refine ⟨Looked.refl h, fun hd t ht => ?_⟩
    rw [← show s = t from congrArg Prod.snd ht]
    exact hs
  · have hswap := swapEntry_le he.index_lt
    have hroom := he.room
    have hstop := he.stop_le
    have hge := he.start_ge
    have hrefl := Looked.refl h
    have hfail : ∀ {r : RetCode} {v : D.State}, Looked e s ((Except.error r : Except RetCode
        ElementHeader), s.setDev v).2 ∧ ∀ hd t, ((Except.error r : Except RetCode ElementHeader),
          s.setDev v) = (.ok hd, t) → Sync t e.pid :=
      ⟨Looked.setDev h hs _, fun _ _ ht => nomatch ht⟩
    rw [readElementHeader, getPartition_bind, if_pos h.start_eq.symm,
      Proc.bind_ok (readFirstHeader_ok (by omega))]
    by_cases hcrc : CrcValid (firstBytes s.bytes e.pid e.start)
    · rw [if_pos hcrc]
      by_cases hc : (deserializeMetadata (firstBytes s.bytes e.pid e.start)).consistent e.pid
          (s.part e.pid) = false
      · rw [Proc.failIf_bind_pos hc]
        exact hfail (v := s.dev)
      · rw [Proc.failIf_bind_neg hc]
        obtain ⟨hsync, hlooked⟩ := accepted he h (v := s.dev) rfl hcrc (Bool.of_not_eq_false hc)
        refine ⟨hlooked hs, fun hd t ht => ?_⟩
        cases ht
        exact hsync
    · rw [if_neg hcrc, restoreFirstHeader, Proc.bind_ok (readFirstHeader_ok (by omega)),
        getPartition_bind]
      generalize htmp : firstBytes s.bytes e.pid (getSwapPageAddressOfPartition e.pid) = tmp
      have hlen : tmp.length = metadataSize + getElementHeaderLen e.pid := by
        rw [← htmp]
        exact slice_length _ _ _
      by_cases hswapCrc : CrcValid tmp
      · rw [Proc.failIf_bind_neg (not_not_intro hswapCrc)]
        by_cases hc : (deserializeMetadata tmp).consistent e.pid (s.part e.pid) = false
        · rw [Proc.failIf_bind_pos hc]
          exact hfail (v := s.dev)
        · rw [Proc.failIf_bind_neg hc]
          obtain ⟨v, hv⟩ := storageStore_setDev (s := s) e.start tmp
          rcases hstore : storageStore e.start tmp s with ⟨_ | _, t₁⟩
          · rw [hstore] at hv
            dsimp only at hv
            rw [Proc.bind_error (Proc.orFail_error hstore _), hv]
            exact hfail
          · rw [hstore] at hv
            dsimp only at hv
            rw [Proc.bind_ok (Proc.orFail_ok hstore _), hv,
              Proc.bind_ok (Proc.orFail_ok (storageRead_ok (by omega)) _)]
            by_cases hback : tmp ≠ slice (s.setDev v).bytes e.start
                (metadataSize + getElementHeaderLen e.pid)
            · rw [Proc.failIf_bind_pos hback]
              exact hfail
            · rw [Proc.failIf_bind_neg hback]
              obtain ⟨hsync, hlooked⟩ := accepted he h (v := v) (not_not.mp hback).symm hswapCrc
                (Bool.of_not_eq_false hc)
              refine ⟨hlooked hs, fun hd t ht => ?_⟩
              cases ht
              exact hsync
      · rw [Proc.failIf_bind_pos hswapCrc]
        exact hfail (v := s.dev)

theorem readElementHeader_looked (he : e.Ok D) (a : Nat) :
    Keeps (Looked e s₀) (readElementHeader e.pid a) := by
  intro s hs
  by_cases ha : a = e.start
  · rw [ha]
    exact hs.trans (readElementHeader_start he hs.at_place).1
  · rw [readElementHeader_elsewhere (by rw [hs.at_place.start_eq]; exact ha)]
    exact hs

theorem deserialize_typed (pid : Nat) (tmp : List UInt8) :
    (deserializeElementHeader pid tmp).Typed :=
  ⟨ofBe16_lt _ _, deserialize_xor_lt pid tmp⟩

theorem acceptFirstHeader_typed (tmp : List UInt8) :
    Yields (fun _ => True) ElementHeader.Typed
      (acceptFirstHeader pid tmp : Fs D ElementHeader) :=
  (Keeps.yields fun _ _ => trivial).bind fun _ _ => Yields.pure (deserialize_typed pid _)

theorem readElementHeader_typed (a : Nat) :
    Yields (fun _ => True) ElementHeader.Typed
      (readElementHeader pid a : Fs D ElementHeader) := by
  refine (Keeps.yields fun _ _ => trivial).bind fun p _ => ?_
  split
  · refine (Keeps.yields fun _ _ => trivial).bind fun tmp _ => ?_
    split
    · exact (Yields.failIf _ _).bind fun _ _ => acceptFirstHeader_typed tmp
    · refine (Keeps.yields fun _ _ => trivial).bind fun tmp _ => ?_
      refine (Keeps.yields fun _ _ => trivial).bind fun p _ => ?_
      refine (Yields.failIf _ _).bind fun _ _ => (Yields.failIf _ _).bind fun _ _ => ?_
      refine (Keeps.yields fun _ _ => trivial).bind fun _ _ => ?_
      refine (Keeps.yields fun _ _ => trivial).bind fun _ _ => ?_
      exact (Yields.failIf _ _).bind fun _ _ => acceptFirstHeader_typed tmp
  · refine (Keeps.yields fun _ _ => trivial).bind fun tmp _ => ?_
    exact Yields.pure (deserialize_typed pid tmp)

/-- A header that was found: at the start the library is in sync, elsewhere nothing changed. -/
theorem readElementHeader_eq_ok (he : e.Ok D) (h : (s.part e.pid).At e) {a : Nat}
    {hd : ElementHeader} (hread : readElementHeader e.pid a s = (.ok hd, t)) :
    Looked e s t ∧ (a = e.start → Sync t e.pid) ∧ (a ≠ e.start → t = s ∧
      foundAt D s.bytes e.pid (s.part e.pid) a = .ok hd) ∧ hd.Typed := by
  refine ⟨?_, fun ha => ?_, fun ha => ?_, ?_⟩
  · have hlooked := readElementHeader_looked he a s (Looked.refl h)
    rw [hread] at hlooked
    exact hlooked
  · rw [ha] at hread
    exact (readElementHeader_start he h).2 hd t hread
  · rw [readElementHeader_elsewhere (by rw [h.start_eq]; exact ha)] at hread
    exact ⟨(congrArg Prod.snd hread).symm, congrArg Prod.fst hread⟩
  · exact (readElementHeader_typed a s trivial).2 hd (congrArg Prod.fst hread)

/-! ## The iterator -/

theorem iteratorInvalidate_looked : Keeps (Looked e s₀) (iteratorInvalidate e.pid) := by
  intro s hs
  obtain ⟨_, hit⟩ := hs.iter_eq
  refine ⟨hs.at_place, ?_, fun hsync => hs.sync hsync, hs.last_lt, hs.latest_eq, hs.latestLen_eq,
    0, ?_⟩
  · rcases hs.known with hk | hk
    · exact .inl (hk.of_same rfl rfl)
    · exact .inr hk
  · rw [iteratorInvalidate, modifyIterator_apply, setIter_iter, hit]

theorem iteratorLost_looked (α : Type) :
    Keeps (Looked e s₀) (iteratorLost e.pid : Fs D α) :=
  iteratorInvalidate_looked.bind fun _ => Keeps.fail _ _

theorem iteratorCheckValidity_looked (he : e.Ok D) :
    Keeps (Looked e s₀) (iteratorCheckValidity e.pid) := by
  refine (getIterator_keeps _).bind fun it => (Keeps.failIf _ _ _).bind fun _ => ?_
  refine Keeps.bind (fun _ hs => hs) fun p => ?_
  refine (Keeps.when fun _ => iteratorLost_looked Unit).bind fun _ => ?_
  refine (readElementHeader_looked he _).attempt.bind fun found => ?_
  split
  · exact iteratorLost_looked Unit
  · exact Keeps.fail _ _
  · exact Keeps.when fun _ => iteratorLost_looked Unit

theorem getPreviousElementHeader_looked (he : e.Ok D) (a recordId len : Nat) :
    Keeps (Looked e s₀) (getPreviousElementHeader e.pid a recordId len) := by
  refine Keeps.bind (fun _ hs => hs) fun p => ?_
  split
  · refine (Keeps.failIf _ _ _).bind fun _ => ?_
    refine (readElementHeader_looked he _).bind fun h => ?_
    exact (Keeps.failIf _ _ _).bind fun _ => Keeps.pure _ _
  · refine (readElementHeader_looked he _).bind fun h => ?_
    refine Keeps.bind (fun _ hs => hs) fun p' => ?_
    refine (readElementHeader_looked he _).bind fun h' => ?_
    exact (Keeps.failIf _ _ _).bind fun _ => Keeps.pure _ _

theorem iteratorReadElement_looked (he : e.Ok D) :
    Keeps (Looked e s₀) (iteratorReadElement e.pid) := by
  refine (iteratorCheckValidity_looked he).bind fun _ => ?_
  refine Keeps.bind (fun _ hs => hs) fun p => (getIterator_keeps _).bind fun it => ?_
  refine ((storageRead_keeps _ _ _).orFail _).bind fun data => ?_
  exact (Keeps.failIf _ _ _).bind fun _ => Keeps.pure _ _

/-! ## The search for the latest element -/

theorem getPartition_place {s₀ : State D} :
    Yields (Looked e s₀) (fun p => p.At e) (getPartition (D := D) e.pid) := by
  intro s hs
  refine ⟨hs, fun p hp => ?_⟩
  cases hp
  exact hs.at_place

/-- The element after another one is the first one or lies inside the partition. -/
theorem getNextElementHeader_inside (he : e.Ok D) (a recordId len : Nat) :
    Yields (Looked e s₀)
      (fun x => x.1 = e.start ∨ x.1 + getElementHeaderLen e.pid ≤ e.start + e.size)
      (getNextElementHeader e.pid a recordId len) := by
  refine getPartition_place.bind fun p hp => ?_
  refine (readElementHeader_looked he _).yields.bind fun h _ => ?_
  refine getPartition_place.bind fun p' _ => ?_
  split
  · rename_i hc
    refine Yields.pure (.inr ?_)
    rw [← hp.start_eq, ← hp.size_eq]
    omega
  · refine getPartition_place.bind fun p'' hp'' => ?_
    refine (readElementHeader_looked he _).yields.bind fun h' _ => ?_
    exact (Yields.failIf _ _).bind fun _ _ => Yields.pure (.inl hp''.start_eq)

/-- The loop of `filesystem_find_latest_element_address` ends by its own condition. -/
theorem findLatestLoop_exits (he : e.Ok D) (firstLen : Nat) : ∀ (fuel : Nat) {s : State D}
    (cur recordId len : Nat) (ret : Except RetCode (Nat × ElementHeader)),
    (s.part e.pid).At e → e.start ≤ cur → e.start + e.size < cur + fuel →
    (∀ x, ret = .ok x → x.1 = e.start ∨ x.1 + getElementHeaderLen e.pid ≤ e.start + e.size) →
    ∃ cur' recordId' len' ret' t, findLatestLoop e.pid firstLen fuel cur recordId len ret s =
      (.ok (cur', recordId', len', ret'), t) ∧ ∀ x, ret' = .ok x → x.1 ≤ cur' := by
  intro fuel
  induction fuel with
  | zero =>
    intro s cur recordId len ret _ hge hlt hret
    refine ⟨cur, recordId, len, ret, s, rfl, fun x hx => ?_⟩
    have hx := hret x hx
    omega
  | succ fuel ih =>
    intro s cur recordId len ret hplace hge hlt hret
    cases ret with
    | error r => exact ⟨cur, recordId, len, .error r, s, rfl, nofun⟩
    | ok x =>
      obtain ⟨next, h⟩ := x
      rw [findLatestLoop]
      by_cases hle : next ≤ cur
      · refine ⟨cur, recordId, len, .ok (next, h), s, if_pos hle ▸ rfl, fun x hx => ?_⟩
        cases hx
        exact hle
      · rw [if_neg hle, Proc.attempt_bind_apply]
        have hnext := getNextElementHeader_inside he next h.recordId
          (if isDynamic e.pid = true then len ^^^ h.previousLenXorCurLen else firstLen) s
          (Looked.refl hplace)
        exact ih next h.recordId _ _ hnext.1.at_place (by omega) (by omega) hnext.2

end OpenBadge.Filesystem
