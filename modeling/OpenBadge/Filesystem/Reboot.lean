import OpenBadge.Filesystem.Room

/-!
# Restarts that succeed

A registration that succeeds finds its partition as it lies in storage, wherever the search
for the latest element ends: in storage with pages that may be at an element of a former
lap.
-/

namespace OpenBadge.Filesystem

open OpenBadge.Lib OpenBadge.Storage

variable {D : Device} {s t : State D} {e : Extent}

/-! ## The search -/

/-- A next element behind the current one is the one whose header lies there. -/
theorem nextAt_forward {pid a recordId len next : Nat} {h : ElementHeader}
    (hnext : nextAt s pid a recordId len = .ok (next, h))
    (ha : (s.part pid).firstElementAddress ≤ a) (hlt : a < next) :
    Follows s.bytes pid (s.part pid) a recordId len ∧ next = stopOf pid (s.part pid) a len ∧
      h = headerOf s.bytes pid (stopOf pid (s.part pid) a len) := by
  unfold nextAt at hnext
  by_cases hfits : stopOf pid (s.part pid) a len + getElementHeaderLen pid ≤ D.size
  · rw [if_pos hfits] at hnext
    by_cases hf : Follows s.bytes pid (s.part pid) a recordId len
    · rw [if_pos hf] at hnext
      cases hnext
      exact ⟨hf, rfl, rfl⟩
    · rw [if_neg hf] at hnext
      rcases firstAsNext_cases s.bytes pid (s.part pid) recordId with hn | ⟨_, hn⟩
      · rw [hn] at hnext
        cases hnext
      · rw [hn] at hnext
        cases hnext
        omega
  · rw [if_neg hfits] at hnext
    cases hnext

/-- The members that the search for the latest element leaves alone. -/
structure LiesAt (e : Extent) (p : Partition) : Prop where
  start_eq : p.firstElementAddress = e.start
  size_eq : p.metadata.partitionSize = e.size
  len_eq : isDynamic e.pid = false → p.metadata.firstElementLen = e.elementLen

/-- The element behind a seat sits, too. -/
theorem LiesAt.seat_next {p : Partition} (hp : LiesAt e p) {m : Nat → UInt8} {a recordId len : Nat}
    (h : Seat e a len) (hf : Follows m e.pid p a recordId len) :
    Seat e (stopOf e.pid p a len) (neighbourLen e.pid p len
      (headerOf m e.pid (stopOf e.pid p a len)).previousLenXorCurLen) := by
  have hfit := hf.2
  rw [stopOf_extent hp.start_eq, hp.start_eq, hp.size_eq] at hfit
  rw [stopOf_extent hp.start_eq]
  unfold neighbourLen at *
  cases hd : isDynamic e.pid with
  | true =>
    rw [hd, if_pos rfl] at hfit
    rw [if_pos rfl]
    refine h.next (Nat.xor_lt_two_pow h.len_lt (headerOf_xor_lt _ _ _)) hfit fun hfalse => ?_
    rw [hd] at hfalse
    cases hfalse
  | false =>
    have hlen := h.len_lt
    rw [hd, if_neg (by decide), hp.len_eq hd] at hfit
    rw [if_neg (by decide), hp.len_eq hd]
    rw [(h.slot hd).1] at hlen
    exact h.next hlen hfit fun _ => rfl

theorem findLatestLoop_seat (hs : Sync s e.pid) (hp : LiesAt e (s.part e.pid))
    (hstop : e.start + e.size ≤ D.size) :
    ∀ (fuel a recordId len : Nat), Seat e a len → ∃ a' recordId' len' ret,
      findLatestLoop e.pid (s.part e.pid).metadata.firstElementLen fuel a recordId len
        (nextAt s e.pid a recordId len) s = (.ok (a', recordId', len', ret), s) ∧
      Seat e a' len' := by
  have hD := size_lt D
  have hH := elementHeaderLen_bounds e.pid
  have hge : ∀ {a len : Nat}, Seat e a len → (s.part e.pid).firstElementAddress ≤ a := by
    intro a len h
    have haddr := h.address
    rw [hp.start_eq]
    omega
  intro fuel
  induction fuel with
  | zero => exact fun a recordId len h => ⟨a, recordId, len, _, rfl, h⟩
  | succ fuel ih =>
    intro a recordId len h
    rcases hnext : nextAt s e.pid a recordId len with code | ⟨next, header⟩
    · exact ⟨a, recordId, len, _, rfl, h⟩
    · by_cases hle : next ≤ a
      · refine ⟨a, recordId, len, .ok (next, header), ?_, h⟩
        rw [findLatestLoop, if_pos hle]
        rfl
      · obtain ⟨hf, rfl, rfl⟩ := nextAt_forward hnext (hge h) (Nat.not_le.mp hle)
        have hseat := hp.seat_next h hf
        have hfit := hseat.stop_le
        rw [← stopOf_extent hp.start_eq] at hfit
        obtain ⟨a', recordId', len', ret, hret, h'⟩ := ih _ (headerOf s.bytes e.pid
          (stopOf e.pid (s.part e.pid) a len)).recordId _ hseat
        refine ⟨a', recordId', len', ret, ?_, h'⟩
        rw [← hret, findLatestLoop, if_neg hle]
        change (Proc.attempt (getNextElementHeader e.pid _ _ (neighbourLen e.pid (s.part e.pid)
          len _)) >>= _) s = _
        rw [Proc.attempt_bind_apply, getNextElementHeader_sync hs (hge hseat) (by omega)]
        rfl

theorem findLatestElementAddress_seat (hs : Sync s e.pid)
    (hcur : Current s.bytes e.pid (s.part e.pid)) (hp : LiesAt e (s.part e.pid))
    (hstop : e.start + e.size ≤ D.size)
    (hfirst : Seat e e.start (s.part e.pid).metadata.firstElementLen)
    (h : findLatestElementAddress e.pid s = (.ok (), t)) :
    ∃ a recordId len, Seat e a len ∧ t = s.setPart e.pid
      { s.part e.pid with
        latestElementAddress := a
        latestElementRecordId := recordId
        latestElementLen := len } := by
  have hD := size_lt D
  have hH := elementHeaderLen_bounds e.pid
  have hstart := hp.start_eq
  obtain ⟨q, hq⟩ : ∃ q, q = { s.part e.pid with
    latestElementAddress := (s.part e.pid).firstElementAddress } := ⟨_, rfl⟩
  have hpart := setPart_part s e.pid q
  have hmodify : modifyPartition e.pid (fun r => { r with
      latestElementAddress := (s.part e.pid).firstElementAddress }) s =
      (.ok (), s.setPart e.pid q) := by
    rw [hq]
    rfl
  have hcur' : Current s.bytes e.pid q := by
    rw [hq]
    exact hcur
  have hq₁ : q.firstElementAddress = (s.part e.pid).firstElementAddress := by rw [hq]
  have hq₂ : q.metadata = (s.part e.pid).metadata := by rw [hq]
  have hs' : Sync (s.setPart e.pid q) e.pid :=
    ⟨by rw [hpart, hq₁]; exact hs.start_fits, hs.swap_fits, .inl (by rw [hpart]; exact hcur')⟩
  have hp' : LiesAt e ((s.setPart e.pid q).part e.pid) := by
    rw [hpart]
    exact ⟨hq₁.trans hp.start_eq, by rw [hq₂]; exact hp.size_eq, by rw [hq₂]; exact hp.len_eq⟩
  have hread := readElementHeader_first hs'
  rw [hpart, hq₁, setPart_bytes, firstHeaderAt_current hcur', hq₁] at hread
  have hfit := hfirst.stop_le
  rw [← stopOf_extent hp'.start_eq, ← hp.start_eq] at hfit
  have hnext : ∀ recordId, getNextElementHeader e.pid (s.part e.pid).firstElementAddress recordId
      (s.part e.pid).metadata.firstElementLen (s.setPart e.pid q) =
        (nextAt (s.setPart e.pid q) e.pid (s.part e.pid).firstElementAddress recordId
          (s.part e.pid).metadata.firstElementLen, s.setPart e.pid q) := fun recordId =>
    getNextElementHeader_sync hs' (Nat.le_of_eq (by rw [hpart, hq₁])) (by omega)
  obtain ⟨a, recordId, len, ret, hret, hseat⟩ := findLatestLoop_seat hs' hp' hstop
    ((s.part e.pid).metadata.partitionSize + 1) (s.part e.pid).firstElementAddress
    (headerOf s.bytes e.pid ((s.part e.pid).firstElementAddress + metadataSize)).recordId
    (s.part e.pid).metadata.firstElementLen (by rw [hp.start_eq]; exact hfirst)
  rw [hpart, hq₂] at hret
  rw [findLatestElementAddress, getPartition_bind, Proc.bind_ok hmodify, Proc.bind_ok hread,
    Proc.attempt_bind_apply, hnext] at h
  dsimp only [setPart_bytes] at *
  rw [Proc.bind_ok hret] at h
  dsimp only at h
  obtain ⟨_, u, hdone, h⟩ := Proc.bind_eq_ok.mp h
  rw [modifyPartition_apply, hpart, setPart_setPart, hq] at hdone
  cases hdone
  refine ⟨a, recordId, len, hseat, ?_⟩
  rcases ret with code | x
  · cases code <;> cases h
    rfl
  · cases h
    rfl

/-! ## Registrations -/

/-- What a registration makes of a partition that lies in storage as `p`, with `q` the
library's variables before it. -/
structure Refound (D : Device) (m : Nat → UInt8) (e : Extent) (q p p' : Partition) : Prop where
  seated : Seated D m e p'
  hasFirst_eq : p'.hasFirstElement = p.hasFirstElement
  header_eq : p'.firstElementHeader = q.firstElementHeader
  last_eq : p'.metadata.lastElementAddress = p.metadata.lastElementAddress ∨
    p'.metadata.lastElementAddress = e.start

/-- A registration that succeeds finds the partition as it is in storage. -/
theorem Seated.registerFound_ok {p : Partition} {x : Nat} (he : e.Ok D)
    (h : Seated D s.bytes e p)
    (hfound : Filesystem.registerFound e (s.setPart e.pid ((s.part e.pid).registered e)) =
      (.ok x, t)) :
    ∃ p', t = (s.setPart e.pid p').advance e ∧ Refound D s.bytes e (s.part e.pid) p p' := by
  have hk := h.known
  cases hf : p.hasFirstElement with
  | false =>
    obtain ⟨hbare, hknown⟩ := hk.registerFound_bare he hf
    rw [hbare] at hfound
    cases hfound
    refine ⟨_, rfl, ⟨hknown, fun htrue => ?_, fun htrue => ?_⟩, hf.symm, rfl, .inr rfl⟩
    · cases htrue
    · cases htrue
  | true =>
    have hroom := he.room
    have hstop := he.stop_le
    have hge := he.start_ge
    have hswap := hk.ram.swap_le
    have hcur := hk.current hf
    unfold Current at hcur
    rw [hk.start_eq] at hcur
    obtain ⟨r, hr⟩ : ∃ r, r = (s.part e.pid).registered e := ⟨_, rfl⟩
    have hr' : r.firstElementAddress = e.start := by rw [hr]; rfl
    obtain ⟨q, hq⟩ : ∃ q, q = { r with metadata := p.metadata } := ⟨_, rfl⟩
    have hq₁ : q.firstElementAddress = e.start := by rw [hq]; exact hr'
    have hq₂ : q.metadata = p.metadata := by rw [hq]
    have hread := @readElementHeader_accept _ (s.setPart e.pid r) e.pid
      (by rw [setPart_part, hr']; omega) (by rw [setPart_part, hr']; exact hcur.1)
      (by
        rw [setPart_part, hr', setPart_bytes, hcur.2, hr]
        exact consistent_registered hk.ram.id_eq hk.size_eq hk.len_eq _)
    rw [setPart_part, hr', setPart_bytes, hcur.2, setPart_setPart, ← hq] at hread
    have hcur' : Current (s.setPart e.pid q).bytes e.pid ((s.setPart e.pid q).part e.pid) := by
      rw [setPart_part]
      unfold Current
      rw [hq₁, hq₂]
      exact hcur
    rw [← hr, Filesystem.registerFound, Proc.attempt_bind_apply, hread] at hfound
    dsimp only at hfound
    obtain ⟨_, u, hlatest, hfound⟩ := Proc.bind_eq_ok.mp hfound
    obtain ⟨a, recordId, len, hseat, rfl⟩ := findLatestElementAddress_seat
      (s := s.setPart e.pid q) (t := u) (e := e)
      ⟨by rw [setPart_part, hq₁]; omega, by omega, .inl hcur'⟩ hcur'
      (by rw [setPart_part]; exact ⟨hq₁, by rw [hq₂]; exact hk.size_eq, by
        rw [hq₂]; exact hk.len_eq⟩)
      hstop (by rw [setPart_part, hq₂]; exact h.first hf) hlatest
    rw [Proc.bind_ok (modifyPartition_apply _), setPart_part, setPart_part, setPart_setPart,
      setPart_setPart] at hfound
    cases hfound
    have hfits := hseat.stop_le
    have hlt : a ≤ e.stopOf a len := by
      unfold Extent.stopOf Extent.dataAt
      split <;> omega
    refine ⟨_, rfl, ?_, hf.symm, by rw [hq, hr]; rfl, .inl (by rw [← hq₂])⟩
    refine ⟨hk.resumed hf (hq₁.trans hk.start_eq.symm) hq₂ rfl (hk.ram.located
      (hq₁.trans hk.start_eq.symm) hq₂ ?_ hseat.len_lt rfl), fun _ => ?_, fun _ => hseat⟩
    · rw [hk.start_eq, hk.size_eq]
      rcases hseat.address with ha | ha
      · exact .inl ha
      · exact .inr ⟨ha, Nat.le_trans hlt hfits⟩
    · change Seat e e.start q.metadata.firstElementLen
      rw [hq₂]
      exact h.first hf

/-- Registrations that all succeed: each finds its partition without a write to the storage. -/
theorem registerAll_eq_ok {Q : Extent → Partition → Prop} :
    ∀ {rs : List Registration} {s t : State D} {pids : List Nat},
    AllRegistrable D s.numberOfPartitions s.nextFreeAddress rs →
    swapPageSize ≤ s.nextFreeAddress →
    (∀ e ∈ layoutFrom D s.numberOfPartitions s.nextFreeAddress rs, ∀ (s' u : State D) (x : Nat),
      s'.dev = s.dev → s'.part e.pid = s.part e.pid →
      registerFound e (s'.setPart e.pid ((s'.part e.pid).registered e)) = (.ok x, u) →
      ∃ p, u = (s'.setPart e.pid p).advance e ∧ Q e p) →
    registerAll rs s = (.ok pids, t) →
    t.dev = s.dev ∧ t.partitionIterators = s.partitionIterators ∧
      (∀ j < s.numberOfPartitions, t.partitions j = s.partitions j) ∧
      ∀ e ∈ layoutFrom D s.numberOfPartitions s.nextFreeAddress rs, Q e (t.part e.pid)
  | [], s, t, pids, _, _, _, h => by
    cases h
    exact ⟨rfl, rfl, fun _ _ => rfl, fun _ he => absurd he List.not_mem_nil⟩
  | r :: rs, s, t, pids, hreg, hstart, hfound, h => by
    obtain ⟨e, he⟩ : ∃ e, e = extentOf D s.numberOfPartitions s.nextFreeAddress r := ⟨_, rfl⟩
    have hindex : partitionIndex e.pid = s.numberOfPartitions := by
      rw [he]
      exact partitionIndex_partitionIdOf hreg.1.index_lt _ _
    have hlayout : layoutFrom D s.numberOfPartitions s.nextFreeAddress (r :: rs) =
        e :: layoutFrom D (s.numberOfPartitions + 1) (e.start + e.size) rs := by
      rw [he]
      rfl
    rw [hlayout] at hfound ⊢
    obtain ⟨x, u, hregister, h⟩ := Proc.bind_eq_ok.mp h
    rw [registerPartition_eq hreg.1 he] at hregister
    obtain ⟨p, rfl, hQ⟩ := hfound e List.mem_cons_self s u x rfl rfl hregister
    obtain ⟨pids', t', hrest, hdone⟩ := Proc.bind_eq_ok.mp h
    cases hdone
    have hrest' : AllRegistrable D (s.numberOfPartitions + 1) (e.start + e.size) rs := by
      rw [he]
      exact hreg.2
    have hge : swapPageSize ≤ e.start + e.size := by
      rw [he]
      exact Nat.le_trans hstart (Nat.le_add_right _ _)
    have hother : ∀ e' ∈ layoutFrom D (s.numberOfPartitions + 1) (e.start + e.size) rs,
        ((s.setPart e.pid p).advance e).part e'.pid = s.part e'.pid := by
      intro e' he'
      obtain ⟨-, -, hle⟩ := layoutFrom_ok hrest' hge e' he'
      exact Function.update_of_ne (by omega) _ _
    obtain ⟨hdev, hiters, hkept, hparts⟩ := registerAll_eq_ok (s := (s.setPart e.pid p).advance e)
      hrest' hge (fun e' he' s' u x hs' hpart => hfound e' (List.mem_cons_of_mem _ he') s' u x hs'
        (hpart.trans (hother e' he'))) hrest
    refine ⟨hdev, hiters, fun j hj => ?_, fun e' he' => ?_⟩
    · rw [hkept j (Nat.lt_succ_of_lt hj)]
      exact Function.update_of_ne (by omega) _ _
    · rcases List.mem_cons.mp he' with rfl | he'
      · have hpart : t.part e'.pid = ((s.setPart e'.pid p).advance e').part e'.pid :=
          hkept _ (by rw [hindex]; exact Nat.lt_succ_self _)
        rw [hpart, show ((s.setPart e'.pid p).advance e').part e'.pid = p from
          setPart_part s e'.pid p]
        exact hQ
      · exact hparts e' he'

/-- A restart that succeeds finds every partition as it is in storage. -/
theorem boot_refound {rs : List Registration} {pids : List Nat} (hsize : swapPageSize ≤ D.size)
    (hreg : AllRegistrable D 0 (firstFree D) rs) {P : Extent → Partition → Prop}
    (h : ∀ e ∈ layout D rs, ∃ p, P e p ∧ Seated D s.bytes e p)
    (hboot : boot rs s = (.ok pids, t)) :
    t.dev = s.dev ∧ t.partitionIterators = s.partitionIterators ∧
      ∀ e ∈ layout D rs, ∃ p, P e p ∧ Refound D s.bytes e (s.part e.pid) p (t.part e.pid) := by
  obtain ⟨_, s₁, hreset, hboot⟩ := Proc.bind_eq_ok.mp hboot
  rw [reset_eq hsize] at hreset
  cases hreset
  obtain ⟨hdev, hiters, -, hparts⟩ := registerAll_eq_ok (s := s.restarted)
    (Q := fun e p' => ∃ p, P e p ∧ Refound D s.bytes e (s.part e.pid) p p') hreg
    (firstFree_ge D) (fun e he u v x hu hpart hfound => by
      obtain ⟨p, hp, hseated⟩ := h e he
      have hbytes : u.bytes = s.bytes := congrArg D.byte hu
      obtain ⟨p', hv, hrefound⟩ := Seated.registerFound_ok (layout_ok hreg he)
        (by rw [hbytes]; exact hseated) hfound
      rw [hbytes, hpart] at hrefound
      exact ⟨p', hv, p, hp, hrefound⟩) hboot
  exact ⟨hdev, hiters, hparts⟩

end OpenBadge.Filesystem
