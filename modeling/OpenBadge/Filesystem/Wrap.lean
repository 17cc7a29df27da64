import OpenBadge.Filesystem.Back
import OpenBadge.Filesystem.Used

/-!
# The last element behind a wrap-around

A store at the start of a partition records where the last element of the round before is.
The address is dropped when the new element ends exactly where that one begins, and the
clearing of a stale header behind the new element may reach into it.
-/

namespace OpenBadge.Filesystem

open OpenBadge.Lib OpenBadge.Storage

variable {D : Device} {s t u : State D} {e : Extent} {m : Nat → UInt8} {pid len : Nat}
  {p : Partition}

/-! ## Walks -/

/-- The states of a walk: `filesystem_iterator_init`, and `k` successful steps back. -/
inductive Stepped (pid : Nat) (s : State D) : Nat → State D → Prop
  | init {t : State D} : iteratorInit pid s = (.ok (), t) → Stepped pid s 0 t
  | previous {k : Nat} {t u : State D} :
      Stepped pid s k t → iteratorPrevious pid t = (.ok (), u) → Stepped pid s (k + 1) u

/-- A walk back in `t` comes to the element that was the latest one of `p`. -/
def ReachesLatest (pid : Nat) (p : Partition) (t : State D) : Prop :=
  ∃ k u, Stepped pid t k u ∧ (u.iter pid).curElementAddress = p.latestElementAddress ∧
    (u.iter pid).curElementLen = p.latestElementLen ∧
    (u.iter pid).curElementHeader.recordId = p.latestElementRecordId

/-- When the first step back fails, the walk stays at the latest element. -/
theorem Stepped.eq_init {k : Nat} (h : Stepped pid s k u) (hinit : iteratorInit pid s = (.ok (), t))
    (hend : (iteratorPrevious pid t).1 ≠ .ok ()) : u = t := by
  induction h with
  | init hcall =>
    rw [hinit] at hcall
    cases hcall
    rfl
  | previous _ hstep ih =>
    rw [ih] at hstep
    rw [hstep] at hend
    exact absurd rfl hend

/-! ## The range of the new element -/

/-- No byte of the latest element lies in the range of a new first element of length `len`:
metadata, header and data. -/
def LatestSpared (pid : Nat) (p : Partition) (len : Nat) : Prop :=
  ∀ x, p.latestElementAddress ≤ x → x < latestStop pid p →
    ¬ (p.firstElementAddress ≤ x ∧ x < stopOf pid p p.firstElementAddress len)

theorem latestSpared_iff (hr : Ram D pid p) :
    LatestSpared pid p len ↔ stopOf pid p p.firstElementAddress len ≤ p.latestElementAddress := by
  have hlt := lt_stopOf pid p p.latestElementAddress p.latestElementLen
  have hge : p.firstElementAddress ≤ p.latestElementAddress := by
    rcases hr.latest with h | h <;> omega
  constructor
  · intro h
    by_contra hlt'
    exact h _ (Nat.le_refl _) (Nat.lt_of_succ_lt hlt) ⟨hge, Nat.not_le.mp hlt'⟩
  · intro h x hx _ hin
    omega

/-- In front of the store to the start, the clearing of a header behind the new element
changes a byte of the latest element. -/
def ClearsLatest (m : Nat → UInt8) (pid : Nat) (p : Partition) (len : Nat) : Prop :=
  stopOf pid p p.firstElementAddress len < p.latestElementAddress ∧
    Follows m pid p p.firstElementAddress (incrementRecordId p.latestElementRecordId) len ∧
    ∃ x, p.latestElementAddress ≤ x ∧
      x < stopOf pid p p.firstElementAddress len + getElementHeaderLen pid ∧ m x ≠ 0xFF

/-- The `last_element_address` of the metadata in storage. -/
def lastInStorage (m : Nat → UInt8) (pid : Nat) (p : Partition) : Nat :=
  (deserializeMetadata (firstBytes m pid p.firstElementAddress)).lastElementAddress

/-- What the store of a first element of length `len` from `s` to `t` should leave of the
latest element: the metadata written point to it if it was spared, and else to the start,
and a walk back comes to it exactly if it was spared. -/
structure KeepsLast (pid len : Nat) (s t : State D) : Prop where
  spared : LatestSpared pid (s.part pid) len →
    lastInStorage t.bytes pid (t.part pid) = (s.part pid).latestElementAddress
  overwritten : ¬ LatestSpared pid (s.part pid) len →
    lastInStorage t.bytes pid (t.part pid) = (s.part pid).firstElementAddress
  reached : ReachesLatest pid (s.part pid) t ↔ LatestSpared pid (s.part pid) len

/-! ## The store to the start -/

/-- A new element goes to the start of a partition with elements when it does not fit
behind the latest one. -/
theorem placement_start (hr : Ram D pid p) (hf : p.hasFirstElement = true)
    (h : (placement pid p len).address = p.firstElementAddress) :
    placement pid p len = ⟨p.firstElementAddress, incrementRecordId p.latestElementRecordId,
      p.latestElementLen ^^^ len⟩ := by
  refine placement_wrap hf fun hfit => ?_
  have hge := latestStop_ge hr
  rw [placement_next hf hfit] at h
  change latestStop pid p = p.firstElementAddress at h
  unfold metadataSize at hge
  omega

/-- The header of an element of the chain is at its address, behind the metadata for the
first one. -/
theorem Linked.recordId_eq {n a recordId len : Nat} (h : Linked m pid p n a recordId len) :
    recordId = (headerOf m pid
      (if a = p.firstElementAddress then p.firstElementAddress + metadataSize else a)).recordId := by
  cases h with
  | first => rw [if_pos rfl]
  | @next n a _ len hl _ =>
    have hle := hl.start_le
    have hlt := lt_stopOf pid p a len
    rw [if_neg (by omega)]

/-- In a static partition all elements are of the registered length. -/
theorem Linked.static_len {n a recordId len : Nat} (h : Linked m pid p n a recordId len)
    (hd : isDynamic pid = false) : len = p.metadata.firstElementLen := by
  cases h with
  | first => rfl
  | next _ _ =>
    unfold neighbourLen
    rw [hd]
    rfl

/-- The identifier at the latest element, if it was spared, is still there when nothing of
its header was cleared, and then only. -/
theorem latest_recordId_iff {u w v : D.State} {data : List UInt8} (hD : D.ByteUnits)
    (hq : Request D e.pid p len data)
    (hrun : StoreRun D e.pid p (placement e.pid p len) len data u w v)
    (hpl : placement e.pid p len = ⟨p.firstElementAddress,
      incrementRecordId p.latestElementRecordId, p.latestElementLen ^^^ len⟩)
    (hspared : stopOf e.pid p p.firstElementAddress len < p.latestElementAddress)
    (hid : IsRecordId p.latestElementRecordId)
    (hold : (headerOf (D.byte u) e.pid p.latestElementAddress).recordId =
      p.latestElementRecordId) :
    (headerOf (D.byte v) e.pid p.latestElementAddress).recordId = p.latestElementRecordId ↔
      ¬ ClearsLatest (D.byte u) e.pid p len := by
  have hH := elementHeaderLen_bounds e.pid
  have hbehind := fun x => hrun.behind hD hq (x := x)
  rw [hpl] at hbehind
  dsimp only at hbehind
  rw [← hold] at hid ⊢
  rw [headerOf_recordId] at hid ⊢
  rw [headerOf_recordId]
  have h₀ := hbehind p.latestElementAddress (Nat.le_of_lt hspared)
  have h₁ := hbehind (p.latestElementAddress + 1) (by omega)
  constructor
  · intro heq hclears
    obtain ⟨-, hf, x, hx, hx', hne⟩ := hclears
    rw [h₀, if_pos ⟨hf, by omega⟩] at heq
    unfold ofBe16 at heq hid
    have hlt := (D.byte v (p.latestElementAddress + 1)).toNat_lt
    have hlt' := (D.byte u (p.latestElementAddress + 1)).toNat_lt
    have h255 : (0xFF : UInt8).toNat = 255 := rfl
    by_cases hxL : x = p.latestElementAddress
    · rw [hxL] at hne
      exact hne (UInt8.toNat_inj.mp (by omega))
    · rw [h₁, if_pos ⟨hf, by omega⟩] at heq
      have hle := hid.2
      omega
  · intro hnot
    have hkeep : ∀ x, p.latestElementAddress ≤ x → D.byte v x = D.byte u x := by
      intro x hx
      rw [hbehind x (by omega)]
      split
      · rename_i hc
        by_contra hne
        exact hnot ⟨hspared, hc.1, x, hx, hc.2, fun heq => hne heq.symm⟩
      · rfl
    rw [hkeep _ (Nat.le_refl _), hkeep _ (Nat.le_succ _)]

variable {f : Element} {link : Nat}

theorem increment_ne (r : Nat) : incrementRecordId r ≠ r := by
  unfold incrementRecordId
  split <;> omega

/-- Without an address of the last element a walk ends at the first one. -/
theorem not_reachesLatest (hk : Known D t.bytes e (t.part e.pid))
    (hf : (t.part e.pid).hasFirstElement = true) (hs : Stands t.bytes e e.start link f)
    (hinit : iteratorInit e.pid t =
      (.ok (), t.setIter e.pid (e.iteratorAt t.bytes e.start f.1.length)))
    (hlast : (t.part e.pid).metadata.lastElementAddress ≤ e.start)
    (hid : f.2 ≠ p.latestElementRecordId) : ¬ ReachesLatest e.pid p t := by
  intro hreach
  obtain ⟨k, u, hwalk, -, -, hrec⟩ := hreach
  have hu := hwalk.eq_init hinit (by rw [hs.previous_none hk hf hlast]; exact nofun)
  rw [hu, setIter_iter] at hrec
  exact hid (hs.recordId_eq.symm.trans hrec)

/-- With its address, the walk comes to the last element if its identifier is there. -/
theorem reachesLatest_iff (hk : Known D t.bytes e (t.part e.pid))
    (hf : (t.part e.pid).hasFirstElement = true)
    (hs : Stands t.bytes e e.start (p.latestElementLen ^^^ f.1.length) f)
    (hinit : iteratorInit e.pid t =
      (.ok (), t.setIter e.pid (e.iteratorAt t.bytes e.start f.1.length)))
    (hlast : (t.part e.pid).metadata.lastElementAddress = p.latestElementAddress)
    (hgt : e.start < p.latestElementAddress)
    (hfit : p.latestElementAddress + getElementHeaderLen e.pid + p.latestElementLen ≤
      e.start + e.size)
    (hlen : isDynamic e.pid = false → p.latestElementLen = e.elementLen)
    (hrec : IsRecordId p.latestElementRecordId)
    (hid : f.2 = incrementRecordId p.latestElementRecordId) :
    ReachesLatest e.pid p t ↔
      (headerOf t.bytes e.pid p.latestElementAddress).recordId = p.latestElementRecordId := by
  have htarget : previousAddress e.pid (t.part e.pid)
      (e.iteratorAt t.bytes e.start f.1.length) = p.latestElementAddress := by
    unfold previousAddress
    rw [hk.start_eq]
    exact (if_pos (Nat.le_refl e.start)).trans hlast
  have hstep := hs.previous hk hf hlen htarget hfit (by omega)
  rw [dataAt_next (by omega), hid, decrement_increment hrec] at hstep
  constructor
  · intro hreach
    obtain ⟨k, u, hwalk, haddr, -, -⟩ := hreach
    by_contra hne
    rw [if_neg hne] at hstep
    have hu := hwalk.eq_init hinit (by rw [hstep]; exact nofun)
    rw [hu, setIter_iter] at haddr
    change e.start = _ at haddr
    omega
  · intro heq
    rw [if_pos heq] at hstep
    refine ⟨1, _, (Stepped.init hinit).previous hstep, ?_, ?_, ?_⟩
    · rw [setIter_iter]
      rfl
    · rw [setIter_iter]
      rfl
    · rw [setIter_iter, Extent.iteratorAt, dataAt_next (by omega)]
      exact heq

/-- A store to the start of a sound partition keeps the last element as it should when the
new element does not end where that one begins, and no byte of it is cleared. -/
theorem Sound.keeps_last (hD : D.ByteUnits) (hs : Sound D s.bytes e (s.part e.pid))
    (hf : (s.part e.pid).hasFirstElement = true) {elementData : Nat → UInt8} {elementLen : Nat}
    (hlen : elementLen < 2 ^ 16)
    (hstore : storeElement e.pid elementData elementLen s = (.ok (), t))
    (hwrap : (storedAt e.pid (s.part e.pid) elementLen).address =
      (s.part e.pid).firstElementAddress) :
    KeepsLast e.pid (storedLen e.pid (s.part e.pid) elementLen) s t ↔
      stopOf e.pid (s.part e.pid) (s.part e.pid).firstElementAddress
          (storedLen e.pid (s.part e.pid) elementLen) ≠ (s.part e.pid).latestElementAddress ∧
        ¬ ClearsLatest s.bytes e.pid (s.part e.pid)
          (storedLen e.pid (s.part e.pid) elementLen) := by
  obtain ⟨len, data, w, hl, -, hq, hrun, hpart, hknown, -⟩ := hs.known.store hlen hstore
  unfold storedAt at hwrap
  rw [← hl] at hwrap ⊢
  have hstart := hs.known.start_eq
  have hend := hs.stored hf
  have hpl := placement_start hs.known.ram hf hwrap
  have hft : (t.part e.pid).hasFirstElement = true := by rw [hpart]; rfl
  have hgt := lt_stopOf e.pid (s.part e.pid) (s.part e.pid).firstElementAddress len
  have hspared : LatestSpared e.pid (s.part e.pid) len ↔
      stopOf e.pid (s.part e.pid) (s.part e.pid).firstElementAddress len ≤
        (s.part e.pid).latestElementAddress := latestSpared_iff hs.known.ram
  -- the new first element, and the walk's start there
  have hstands : Stands t.bytes e e.start ((s.part e.pid).latestElementLen ^^^ data.length)
      (data, incrementRecordId (s.part e.pid).latestElementRecordId) := by
    have hst := hq.stands hstart hs.known.size_eq hs.known.len_eq hrun.appended
    rw [hpl, hstart, ← hq.data_len] at hst
    exact hst
  have hlatest : (t.part e.pid).latestElementAddress = e.start := by
    rw [hpart, appended_latest, hpl, hstart]
  have hlatestLen : (t.part e.pid).latestElementLen = data.length := by
    rw [hpart, appended_len, hq.data_len]
  have hinit : iteratorInit e.pid t =
      (.ok (), t.setIter e.pid (e.iteratorAt t.bytes e.start data.length)) := by
    have hi := Stands.init (s := t) (by rw [hlatest]; exact hstands) hknown hft
    rw [hlatest, hlatestLen] at hi
    exact hi
  have hmeta : (t.part e.pid).metadata.lastElementAddress =
      if stopOf e.pid (s.part e.pid) (s.part e.pid).firstElementAddress len ≥
        (s.part e.pid).latestElementAddress
      then (s.part e.pid).firstElementAddress else (s.part e.pid).latestElementAddress := by
    rw [hpart, appended_metadata_start hwrap, newMetadata_last]
  have hlast : lastInStorage t.bytes e.pid (t.part e.pid) =
      (t.part e.pid).metadata.lastElementAddress := by
    unfold lastInStorage
    rw [(hknown.current hft).2]
  rw [← hlast] at hmeta
  rcases Nat.lt_trichotomy (stopOf e.pid (s.part e.pid) (s.part e.pid).firstElementAddress len)
    (s.part e.pid).latestElementAddress with hlt | heq | hlt
  · rw [if_neg (Nat.not_le.mpr hlt)] at hmeta
    obtain ⟨n, hn⟩ := hend.linked
    have hle := hn.stop_le hend.first_fits
    have hne : (s.part e.pid).latestElementAddress ≠ (s.part e.pid).firstElementAddress := by omega
    rw [stopOf_next hne, hstart, hs.known.size_eq] at hle
    have hold := hn.recordId_eq
    rw [if_neg hne] at hold
    have hreach := reachesLatest_iff (f := (data, _)) hknown hft hstands hinit (hlast.symm.trans hmeta) (by omega)
      hle (fun hd => (hn.static_len hd).trans (hs.known.len_eq hd)) hend.recordId rfl
    have hkept := latest_recordId_iff hD hq hrun hpl hlt hend.recordId hold.symm
    have hsp := hspared.mpr (Nat.le_of_lt hlt)
    constructor
    · intro hk
      exact ⟨Nat.ne_of_lt hlt, hkept.mp (hreach.mp (hk.reached.mpr hsp))⟩
    · intro hc
      exact ⟨fun _ => hmeta, fun h => absurd hsp h, fun _ => hsp,
        fun _ => hreach.mpr (hkept.mpr hc.2)⟩
  · rw [if_pos (Nat.le_of_eq heq.symm)] at hmeta
    constructor
    · intro hk
      have hL := hk.spared (hspared.mpr (Nat.le_of_eq heq))
      omega
    · intro hc
      exact absurd heq hc.1
  · rw [if_pos (Nat.le_of_lt hlt)] at hmeta
    have hnot : ¬ LatestSpared e.pid (s.part e.pid) len := fun h => by
      have hle := hspared.mp h
      omega
    constructor
    · intro _
      exact ⟨by omega, fun hc => absurd hc.1 (by omega)⟩
    · intro _
      have hno : ¬ ReachesLatest e.pid (s.part e.pid) t := not_reachesLatest hknown hft hstands
        hinit (by omega) (increment_ne _)
      exact ⟨fun h => absurd h hnot, fun _ => hmeta, fun h => absurd h hno, fun h => absurd h hnot⟩

/-- In storage with byte units, in every run of the application: a successful store to the
start of a partition with elements keeps its last element as it should exactly when the new
element does not end at the address of the latest one, and the clearing of a stale header
behind the new element changes no byte of the latest one. -/
theorem keepsLast_iff (hD : D.ByteUnits) {rs : List Registration} {pids : List Nat}
    {s₀ s₁ : State D} {log : List Element} (hblank : Blank s₀.bytes D.size)
    (hboot : boot rs s₀ = (.ok pids, s₁)) (hpid : pid ∈ pids)
    (hrun : Used rs pids pid s₁ log s) (hf : (s.part pid).hasFirstElement = true)
    {elementData : Nat → UInt8} {elementLen : UInt16}
    (hstore : storeElement pid elementData elementLen.toNat s = (.ok (), t))
    (hwrap : (storedAt pid (s.part pid) elementLen.toNat).address =
      (s.part pid).firstElementAddress) :
    KeepsLast pid (storedLen pid (s.part pid) elementLen.toNat) s t ↔
      stopOf pid (s.part pid) (s.part pid).firstElementAddress
          (storedLen pid (s.part pid) elementLen.toNat) ≠ (s.part pid).latestElementAddress ∧
        ¬ ClearsLatest s.bytes pid (s.part pid)
          (storedLen pid (s.part pid) elementLen.toNat) := by
  obtain ⟨hsize, hreg, hpids, hdev₁, -, hparts⟩ := boot_blank hblank hboot
  have hblank₁ : Blank s₁.bytes D.size := by
    unfold State.bytes
    rw [hdev₁]
    exact hblank
  have hintact := hrun.intact hD hsize hreg hpids hpid (intact_blank hreg hblank₁ hparts)
  rw [hpids] at hpid
  obtain ⟨e, he, rfl⟩ := List.mem_map.mp hpid
  exact (hintact e he).keeps_last hD hf elementLen.toNat_lt hstore hwrap

theorem used_storeList {rs : List Registration} {pids : List Nat} {s₁ : State D}
    {log : List Element} (h : Used rs pids pid s₁ log s) (data : List UInt8)
    (hstore : (storeList pid data s).1 = .ok ()) :
    ∃ log', Used rs pids pid s₁ log' (storeList pid data s).2 :=
  ⟨_, Used.store _ _ h (Proc.eq_of_fst hstore)⟩

/-- Two elements; the next one goes to the start. -/
def almostFull (first second : List UInt8) : State eeprom :=
  storeAll 0x8000 [first, second] dynamicStart

theorem almostFull_used (first second : List UInt8)
    (h₁ : (storeList 0x8000 first dynamicStart).1 = .ok ())
    (h₂ : (storeList 0x8000 second (storeList 0x8000 first dynamicStart).2).1 = .ok ()) :
    ∃ log, Used smallDynamic [0x8000] 0x8000 dynamicStart log (almostFull first second) := by
  have h₀ : Used smallDynamic [0x8000] 0x8000 dynamicStart [] dynamicStart := Used.start
  obtain ⟨log, hlog⟩ := used_storeList h₀ first h₁
  exact used_storeList hlog second h₂

theorem dynamicStart_eq :
    boot smallDynamic (powerUp (D := eeprom) blankBytes) = (.ok [0x8000], dynamicStart) :=
  Proc.eq_of_fst (by decide +kernel)

/-- An element behind the end of the new one is kept. -/
theorem keepsLast_iff_eeprom :
    KeepsLast 0x8000 2 (almostFull [9, 9, 0, 5] [7])
        (storeList 0x8000 [1, 2] (almostFull [9, 9, 0, 5] [7])).2 ↔
      stopOf 0x8000 ((almostFull [9, 9, 0, 5] [7]).part 0x8000)
          ((almostFull [9, 9, 0, 5] [7]).part 0x8000).firstElementAddress 2 ≠
        ((almostFull [9, 9, 0, 5] [7]).part 0x8000).latestElementAddress ∧
      ¬ ClearsLatest (almostFull [9, 9, 0, 5] [7]).bytes 0x8000
        ((almostFull [9, 9, 0, 5] [7]).part 0x8000) 2 := by
  obtain ⟨log, hrun⟩ := almostFull_used [9, 9, 0, 5] [7] (by decide +kernel) (by decide +kernel)
  have hstore : storeElement 0x8000 (bytesOf [1, 2]) (2 : UInt16).toNat
      (almostFull [9, 9, 0, 5] [7]) =
        (.ok (), (storeList 0x8000 [1, 2] (almostFull [9, 9, 0, 5] [7])).2) :=
    Proc.eq_of_fst (by decide +kernel)
  exact keepsLast_iff eeprom_byteUnits (fun _ _ => rfl) dynamicStart_eq (by decide) hrun
    (by decide +kernel) hstore (by decide +kernel)

/-- The new first element ends where the latest one begins: no byte of that is overwritten,
and it is lost. -/
theorem adjacent_element_lost :
    boot smallDynamic (powerUp (D := eeprom) blankBytes) = (.ok [0x8000], dynamicStart) ∧
      (∃ log, Used smallDynamic [0x8000] 0x8000 dynamicStart log (almostFull [1, 2] [3])) ∧
      ((almostFull [1, 2] [3]).part 0x8000).hasFirstElement = true ∧
      (storeList 0x8000 [4, 5] (almostFull [1, 2] [3])).1 = .ok () ∧
      (storedAt 0x8000 ((almostFull [1, 2] [3]).part 0x8000) 2).address =
        ((almostFull [1, 2] [3]).part 0x8000).firstElementAddress ∧
      LatestSpared 0x8000 ((almostFull [1, 2] [3]).part 0x8000) 2 ∧
      ¬ KeepsLast 0x8000 2 (almostFull [1, 2] [3])
        (storeList 0x8000 [4, 5] (almostFull [1, 2] [3])).2 := by
  have hspared : LatestSpared 0x8000 ((almostFull [1, 2] [3]).part 0x8000) 2 := by
    have hstop : stopOf 0x8000 ((almostFull [1, 2] [3]).part 0x8000)
        ((almostFull [1, 2] [3]).part 0x8000).firstElementAddress 2 ≤
      ((almostFull [1, 2] [3]).part 0x8000).latestElementAddress := by decide +kernel
    intro x hx _ hin
    omega
  refine ⟨dynamicStart_eq, almostFull_used _ _ (by decide +kernel) (by decide +kernel),
    by decide +kernel, by decide +kernel, by decide +kernel, hspared, fun hk => ?_⟩
  have hlast := hk.spared hspared
  revert hlast
  decide +kernel

/-- Two data bytes of the first element look like the identifier after the new one, and the
clearing of that header takes the identifier of the latest element along. -/
theorem spared_element_cleared :
    LatestSpared 0x8000 ((almostFull [9, 9, 0, 4] [7]).part 0x8000) 2 ∧
      ClearsLatest (almostFull [9, 9, 0, 4] [7]).bytes 0x8000
        ((almostFull [9, 9, 0, 4] [7]).part 0x8000) 2 := by
  have hlt : stopOf 0x8000 ((almostFull [9, 9, 0, 4] [7]).part 0x8000)
      ((almostFull [9, 9, 0, 4] [7]).part 0x8000).firstElementAddress 2 <
    ((almostFull [9, 9, 0, 4] [7]).part 0x8000).latestElementAddress := by decide +kernel
  refine ⟨fun x hx _ hin => by omega, hlt, by decide +kernel, 422, by decide +kernel,
    by decide +kernel, by decide +kernel⟩

end OpenBadge.Filesystem
