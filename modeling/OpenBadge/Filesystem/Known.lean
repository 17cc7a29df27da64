import OpenBadge.Filesystem.Linked

/-!
# Partitions that the library knows

`Known` ties the library's variables of a partition to the storage: the metadata are
those at its start, or it has no header, neither there nor in the swap page. Stores,
clears and restarts keep it, on every device.
-/

namespace OpenBadge.Filesystem

open OpenBadge.Lib OpenBadge.Storage

variable {D : Device} {s t : State D}

/-! ## Clearing a partition -/

/-- The library's variables of a cleared partition. -/
def Partition.cleared (p : Partition) (recordId : Nat) : Partition :=
  { p with
    hasFirstElement := false
    latestElementAddress := p.firstElementAddress
    latestElementRecordId := recordId
    latestElementLen := 0 }

/-- A blank header with metadata. -/
def blankHeader (pid : Nat) : List UInt8 :=
  List.replicate (metadataSize + getElementHeaderLen pid) 0xFF

@[simp] theorem blankHeader_length (pid : Nat) :
    (blankHeader pid).length = metadataSize + getElementHeaderLen pid := List.length_replicate

theorem clearPartition_eq_ok {pid : Nat} (hr : Ram D pid (s.part pid)) (hs : Sync s pid)
    (h : clearPartition pid s = (.ok (), t)) :
    ∃ recordId b v, IsRecordId recordId ∧
      BackedUp D (getSwapPageAddressOfPartition pid) (blankHeader pid) s.dev b ∧
      Wrote D (s.part pid).firstElementAddress (blankHeader pid) b v ∧
      t = (s.setPart pid ((s.part pid).cleared recordId)).setDev v := by
  have hD := size_lt D
  have hH := elementHeaderLen_bounds pid
  have hswap := hr.swap_le
  have hstart := hr.start_ge
  have hlen := blankHeader_length pid
  have hsf := hs.start_fits
  unfold clearPartition at h
  rw [getPartition_bind, Proc.attempt_bind_apply, readElementHeader_first hs] at h
  obtain ⟨recordId, s₁, hid, h⟩ := Proc.bind_eq_ok.mp h
  have hrec : IsRecordId recordId ∧ s₁ = s := by
    rcases hs.known with hc | hc
    · rw [firstHeaderAt_current hc] at hid
      cases hid
      exact ⟨isRecordId_increment _, rfl⟩
    · rw [firstHeaderAt_silent hc] at hid
      cases hid
      exact ⟨isRecordId_recordIdOf 0, rfl⟩
  obtain ⟨hrec, rfl⟩ := hrec
  obtain ⟨_, s₂, hbackup, h⟩ := Proc.bind_eq_ok.mp h
  rw [Proc.orFail_eq_ok] at hbackup
  obtain ⟨b, hb, rfl⟩ := (backupFirstElementHeader_eq_ok (blankHeader pid) (by omega)
    (by omega) (by omega)).mp hbackup
  obtain ⟨_, s₃, hstore, h⟩ := Proc.bind_eq_ok.mp h
  rw [Proc.orFail_eq_ok] at hstore
  obtain ⟨v, hv, rfl⟩ := (storageStore_eq_ok (d := blankHeader pid) (by omega)).mp hstore
  have hback := readBack_ok (s := s₁.setDev b) hv hlen.symm
  rw [← Proc.bind_assoc] at h
  obtain ⟨_, s₄, hcheck, h⟩ := Proc.bind_eq_ok.mp h
  have hsame := hback.symm.trans hcheck
  cases hsame
  rw [modifyPartition_apply] at h
  cases h
  exact ⟨recordId, b, v, hrec, hb, hv, rfl⟩

/-! ## The library's knowledge -/

/-- A partition without elements: no header at its start, no backup of one. -/
structure Bare (m : Nat → UInt8) (pid : Nat) (p : Partition) : Prop where
  start : ¬ CrcValid (firstBytes m pid p.firstElementAddress)
  swap : ¬ CrcValid (firstBytes m pid (getSwapPageAddressOfPartition pid))

/-- The library's variables agree with the registration at `e` and with the header that
the storage has there. -/
structure Known (D : Device) (m : Nat → UInt8) (e : Extent) (p : Partition) : Prop where
  ram : Ram D e.pid p
  start_eq : p.firstElementAddress = e.start
  size_eq : p.metadata.partitionSize = e.size
  len_eq : isDynamic e.pid = false → p.metadata.firstElementLen = e.elementLen
  current : p.hasFirstElement = true → Current m e.pid p
  empty : p.hasFirstElement = false → Bare m e.pid p
  rewound : p.hasFirstElement = false → p.latestElementAddress = p.firstElementAddress

theorem Bare.silent {m : Nat → UInt8} {pid : Nat} {p : Partition} (h : Bare m pid p) :
    Silent m pid p :=
  ⟨fun hc => absurd hc h.start, fun _ hc => absurd hc h.swap⟩

theorem Known.sync {e : Extent} (h : Known D s.bytes e (s.part e.pid)) : Sync s e.pid := by
  apply h.ram.sync
  cases hf : (s.part e.pid).hasFirstElement with
  | true => exact .inl (h.current hf)
  | false => exact .inr (h.empty hf).silent

/-- The knowledge rests on the bytes of the partition only. -/
theorem Known.frame {m m' : Nat → UInt8} {e : Extent} {p : Partition} (h : Known D m e p)
    (hm : ∀ x, e.Owns x → m' x = m x) : Known D m' e p := by
  have hstart := h.start_eq
  have hsize := h.size_eq
  have hge := h.ram.size_ge
  have hfirst : firstBytes m' e.pid p.firstElementAddress =
      firstBytes m e.pid p.firstElementAddress :=
    slice_congr fun x hx hx' => hm x (.inl (by omega))
  have hswap : firstBytes m' e.pid (getSwapPageAddressOfPartition e.pid) =
      firstBytes m e.pid (getSwapPageAddressOfPartition e.pid) :=
    slice_congr fun x hx hx' => hm x (.inr (by omega))
  refine ⟨h.ram, h.start_eq, h.size_eq, h.len_eq, fun hf => ?_, fun hf => ?_, h.rewound⟩
  · unfold Current
    rw [hfirst]
    exact h.current hf
  · have hb := h.empty hf
    exact ⟨by rw [hfirst]; exact hb.start, by rw [hswap]; exact hb.swap⟩

/-- An empty partition of a blank storage. -/
theorem known_blank {m : Nat → UInt8} {e : Extent} (he : e.Ok D) (hblank : Blank m D.size)
    (p : Partition) : Known D m e (p.registered e) := by
  have hswap := swapEntry_le he.index_lt
  have hstop := he.stop_le
  have hroom := he.room
  have hge := he.start_ge
  refine ⟨ram_registered he p, rfl, rfl, fun _ => rfl, ?_, fun _ => ⟨?_, ?_⟩, fun _ => rfl⟩
  · intro htrue
    cases htrue
  · change ¬ CrcValid (slice m e.start _)
    rw [slice_blank hblank (by omega)]
    exact not_crcValid_blank e.pid
  · change ¬ CrcValid (slice m _ _)
    rw [slice_blank hblank (by omega)]
    exact not_crcValid_blank e.pid

/-! ## Places of elements -/

/-- The address of the data of an element of the partition at `e`. -/
def Extent.dataAt (e : Extent) (a : Nat) : Nat :=
  a + (if a = e.start then metadataSize + getElementHeaderLen e.pid
    else getElementHeaderLen e.pid)

/-- The address behind an element of the partition at `e`. -/
def Extent.stopOf (e : Extent) (a len : Nat) : Nat := e.dataAt a + len

theorem headerLenAt_extent {e : Extent} {p : Partition} (h : p.firstElementAddress = e.start)
    (a : Nat) : a + headerLenAt e.pid p a = e.dataAt a := by
  unfold Extent.dataAt headerLenAt
  rw [h]

theorem stopOf_extent {e : Extent} {p : Partition} (h : p.firstElementAddress = e.start)
    (a len : Nat) : Filesystem.stopOf e.pid p a len = e.stopOf a len := by
  unfold Filesystem.stopOf Extent.stopOf
  rw [headerLenAt_extent h]

/-- The number of slots of a static partition. -/
def Extent.slots (e : Extent) : Nat :=
  (e.size - metadataSize) / (getElementHeaderLen e.pid + e.elementLen)

/-! ## Stores and clears -/

/-- An operation on the partition at `e` changes its own bytes and variables only. -/
structure Local (e : Extent) (s t : State D) : Prop where
  bytes : ∀ x, ¬ e.Owns x → t.bytes x = s.bytes x
  parts : ∀ j, j ≠ partitionIndex e.pid → t.partitions j = s.partitions j

theorem outside_of_not_owns {e : Extent} {x : Nat} (h : ¬ e.Owns x) :
    (x < e.start ∨ e.start + e.size ≤ x) ∧ OutsideSwap e.pid x := by
  unfold Extent.Owns at h
  unfold OutsideSwap
  omega

theorem StoreRun.not_owns {e : Extent} {p : Partition} {pl : Placement} {len : Nat}
    {data : List UInt8} {u w v : D.State} (h : StoreRun D e.pid p pl len data u w v)
    (hr : Ram D e.pid p) (hstart : p.firstElementAddress = e.start)
    (hsize : p.metadata.partitionSize = e.size) (hlen : data.length = len)
    (hfit : Fits e.pid p pl len) {x : Nat} (hx : ¬ e.Owns x) : D.byte v x = D.byte u x := by
  obtain ⟨hout, hswap⟩ := outside_of_not_owns hx
  have hle := hfit.start_le
  exact h.outside hr hlen hfit (by omega) hswap

theorem Request.first_fits {pid : Nat} {p : Partition} {len : Nat} {data : List UInt8}
    (hq : Request D pid p len data)
    (h : (placement pid p len).address ≠ p.firstElementAddress →
      stopOf pid p p.firstElementAddress p.metadata.firstElementLen ≤
        p.firstElementAddress + p.metadata.partitionSize) :
    stopOf pid (p.appended pid (placement pid p len) len data) p.firstElementAddress
        (p.appended pid (placement pid p len) len data).metadata.firstElementLen ≤
      p.firstElementAddress + p.metadata.partitionSize := by
  rw [stopOf_congr (appended_first _ _ _ _ _)]
  by_cases hstart : (placement pid p len).address = p.firstElementAddress
  · have hfit := hq.fits.stop_le
    rw [hstart] at hfit
    rw [appended_metadata_start hstart]
    exact hfit
  · rw [appended_metadata_next hstart]
    exact h hstart

/-- A store at another place than the start goes behind an element. -/
theorem hasFirst_of_next {pid : Nat} {p : Partition} {len : Nat}
    (h : (placement pid p len).address ≠ p.firstElementAddress) : p.hasFirstElement = true :=
  ((placement_cases pid p len).resolve_left h).1

theorem Known.store {e : Extent} (h : Known D s.bytes e (s.part e.pid))
    {elementData : Nat → UInt8} {elementLen : Nat} (hlen : elementLen < 2 ^ 16)
    (hstore : storeElement e.pid elementData elementLen s = (.ok (), t)) :
    ∃ len data w,
      len = storedLen e.pid (s.part e.pid) elementLen ∧
      data = storedData e.pid (s.part e.pid) elementData elementLen ∧
      Request D e.pid (s.part e.pid) len data ∧
      StoreRun D e.pid (s.part e.pid) (placement e.pid (s.part e.pid) len) len data s.dev w t.dev ∧
      t.part e.pid = (s.part e.pid).appended e.pid (placement e.pid (s.part e.pid) len) len data ∧
      Known D t.bytes e (t.part e.pid) ∧ Local e s t := by
  obtain ⟨hacc, -, s₁, w, v, -, hiter, hrun, rfl⟩ := storeElement_eq_ok h.ram h.sync hstore
  have hq := request_of_accepted h.ram hlen hacc elementData
  refine ⟨_, _, w, rfl, rfl, hq, hrun, ?_, ?_, fun x hx => hrun.not_owns h.ram h.start_eq h.size_eq
    hq.data_len hq.fits hx, fun j hj => ?_⟩
  · rw [setDev_part, setPart_part]
    rfl
  · rw [setDev_part, setPart_part, setDev_bytes]
    refine ⟨h.ram.appended hq.fits hq.len_lt _, ?_, ?_, fun hd => ?_, fun _ => ?_, nofun, nofun⟩
    · rw [appended_first]
      exact h.start_eq
    · rw [appended_size]
      exact h.size_eq
    · by_cases hstart : (storedAt e.pid (s.part e.pid) elementLen).address =
          (s.part e.pid).firstElementAddress
      · rw [appended_metadata_start hstart, newMetadata_firstLen, hq.static_len hd]
        exact h.len_eq hd
      · rw [appended_metadata_next hstart]
        exact h.len_eq hd
    · exact hrun.current h.ram hq.data_len hq.len_lt hq.fits fun hne =>
        h.current (hasFirst_of_next hne)
  · have hparts : s₁.partitions = s.partitions := by rcases hiter with rfl | rfl <;> rfl
    rw [← hparts]
    exact Function.update_of_ne hj _ _

theorem Known.clear {e : Extent} (h : Known D s.bytes e (s.part e.pid))
    (hclear : clearPartition e.pid s = (.ok (), t)) :
    (t.part e.pid).hasFirstElement = false ∧ Known D t.bytes e (t.part e.pid) ∧
      Local e s t := by
  obtain ⟨recordId, b, v, hid, hb, hv, rfl⟩ := clearPartition_eq_ok h.ram h.sync hclear
  have hH := elementHeaderLen_bounds e.pid
  have hlen := blankHeader_length e.pid
  have hbytes := hb.bytes (by omega)
  have hswap := h.ram.swap_le
  have hge := h.ram.start_ge
  have hsize := h.ram.size_ge
  have hs := h.start_eq
  have hz := h.size_eq
  have hr := h.ram
  refine ⟨by rw [setDev_part, setPart_part]; rfl, ?_, ?_, ?_⟩
  · rw [setDev_part, setPart_part, setDev_bytes]
    refine ⟨⟨hr.pid_lt, hr.index_lt, hr.id_eq, hr.start_ge, hr.start_unit, hr.stop_unit,
      hr.stop_le, hr.size_ge, hr.firstLen_lt, .inl rfl, Nat.two_pow_pos 16, fun _ => hid⟩,
      h.start_eq, h.size_eq, h.len_eq, nofun, fun _ => ⟨?_, ?_⟩, fun _ => rfl⟩
    · have hblank := hv.changed.written
      rw [hlen] at hblank
      change ¬ CrcValid (slice (D.byte v) (s.part e.pid).firstElementAddress _)
      rw [hblank]
      exact not_crcValid_blank e.pid
    · have hblank : firstBytes (D.byte v) e.pid (getSwapPageAddressOfPartition e.pid) =
          blankHeader e.pid := by
        unfold firstBytes
        rw [hv.changed.slice_eq (by omega), hbytes, ← hlen, slice_overwrite]
      rw [hblank]
      exact not_crcValid_blank e.pid
  · intro x hx
    obtain ⟨hout, hoswap⟩ := outside_of_not_owns hx
    change D.byte v x = D.byte s.dev x
    have hv1 : D.byte v x = D.byte b x := by
      rcases hout with hout | hout
      · exact hv.changed.before x (by omega)
      · exact hv.changed.after _ (by omega) hr.stop_unit x (by omega)
    rw [hv1, hbytes]
    rcases hoswap with hoswap | hoswap
    · exact overwrite_of_lt _ _ hoswap
    · exact overwrite_of_ge _ _ (by omega)
  · intro j hj
    exact Function.update_of_ne hj _ _

/-! ## Registration -/

/-- Metadata of the partition at `e` pass the check of a registration there. -/
theorem consistent_registered {e : Extent} {m : Metadata} (hid : m.partitionId = e.pid)
    (hsize : m.partitionSize = e.size)
    (hlen : isDynamic e.pid = false → m.firstElementLen = e.elementLen) (p : Partition) :
    m.consistent e.pid (p.registered e) = true := by
  unfold Metadata.consistent
  cases hd : isDynamic e.pid with
  | true => simp [Partition.registered, hid, hsize]
  | false => simp [Partition.registered, hid, hsize, hlen hd]

/-- Registration of a partition whose metadata are known to be those of `p`. -/
theorem registerFound_current {e : Extent} {p : Partition} (he : e.Ok D)
    (hcur : Current s.bytes e.pid p) (hid : p.metadata.partitionId = e.pid)
    (hstart : p.firstElementAddress = e.start) (hsize : p.metadata.partitionSize = e.size)
    (hlen : isDynamic e.pid = false → p.metadata.firstElementLen = e.elementLen)
    {Pos : Nat → Nat → Nat → Prop} (hpass : ∀ q : Partition,
      q.firstElementAddress = p.firstElementAddress → q.metadata = p.metadata →
      Passable (s.setPart e.pid q) e.pid Pos)
    (hpos : Pos p.firstElementAddress
      (headerOf s.bytes e.pid (p.firstElementAddress + metadataSize)).recordId
      p.metadata.firstElementLen) :
    ∃ p', registerFound e (s.setPart e.pid ((s.part e.pid).registered e)) =
        (.ok e.pid, (s.setPart e.pid p').advance e) ∧
      p'.hasFirstElement = true ∧ p'.firstElementAddress = p.firstElementAddress ∧
      p'.metadata = p.metadata ∧
      (p'.latestElementAddress, p'.latestElementRecordId, p'.latestElementLen) =
        latestOf s.bytes e.pid p := by
  have hroom := he.room
  have hstop := he.stop_le
  have hge := he.start_ge
  have hswap := swapEntry_le he.index_lt
  unfold Current at hcur
  rw [hstart] at hcur
  obtain ⟨r, hr⟩ : ∃ r, r = (s.part e.pid).registered e := ⟨_, rfl⟩
  have hpart := setPart_part s e.pid r
  have hr' : r.firstElementAddress = e.start := by rw [hr]; rfl
  obtain ⟨q, hq⟩ : ∃ q, q = { r with metadata := p.metadata } := ⟨_, rfl⟩
  have hfirst : q.firstElementAddress = p.firstElementAddress := by
    rw [hq, hstart]
    exact hr'
  have hmeta : q.metadata = p.metadata := by rw [hq]
  have hcons : (deserializeMetadata (firstBytes s.bytes e.pid e.start)).consistent e.pid r =
      true := by
    rw [hcur.2, hr]
    exact consistent_registered hid hsize hlen _
  have hlatest : latestOf s.bytes e.pid q = latestOf s.bytes e.pid p := by
    unfold latestOf
    rw [latestFrom_congr _ hfirst hmeta, hfirst, hmeta]
  have hfound := registerFound_found (s := s.setPart e.pid r) (e := e) (q := q) (by omega)
    (by omega) (by rw [hpart, hr']) (by rw [hpart, hr']; exact hcur.1)
    (by rw [hpart, hr']; exact hcons)
    (by rw [hpart, hr', setPart_bytes, hcur.2, hq])
    (by rw [setPart_setPart]; exact hpass q hfirst hmeta) (by rw [hfirst, hmeta]; exact hpos)
  rw [hpart, setPart_setPart] at hfound
  rw [← hr]
  refine ⟨r.found (s.setPart e.pid r).bytes e.pid, hfound, rfl, hr'.trans hstart.symm, ?_⟩
  have hread : deserializeMetadata (firstBytes s.bytes e.pid r.firstElementAddress) =
      p.metadata := by
    rw [hr']
    exact hcur.2
  unfold Partition.found
  rw [setPart_bytes, hread, ← hq]
  unfold Partition.located
  exact ⟨hmeta, hlatest⟩

/-- The variables after a search that ended inside the partition. -/
theorem Ram.located {pid : Nat} {p p' : Partition} (h : Ram D pid p)
    (hfirst : p'.firstElementAddress = p.firstElementAddress) (hmeta : p'.metadata = p.metadata)
    (hlatest : p'.latestElementAddress = p.firstElementAddress ∨
      (p.firstElementAddress + metadataSize + getElementHeaderLen pid ≤ p'.latestElementAddress ∧
        p'.latestElementAddress ≤ p.firstElementAddress + p.metadata.partitionSize))
    (hlen : p'.latestElementLen < 2 ^ 16) (hf : p'.hasFirstElement = true) : Ram D pid p' := by
  refine ⟨h.pid_lt, h.index_lt, ?_, ?_, ?_, ?_, ?_, ?_, ?_, ?_, hlen, fun hfalse => ?_⟩
  · rw [hmeta]
    exact h.id_eq
  · rw [hfirst]
    exact h.start_ge
  · rw [hfirst]
    exact h.start_unit
  · rw [hfirst, hmeta]
    exact h.stop_unit
  · rw [hfirst, hmeta]
    exact h.stop_le
  · rw [hmeta]
    exact h.size_ge
  · rw [hmeta]
    exact h.firstLen_lt
  · rw [hfirst, hmeta]
    exact hlatest
  · rw [hf] at hfalse
    cases hfalse

theorem Known.resumed {m : Nat → UInt8} {e : Extent} {p p' : Partition} (h : Known D m e p)
    (hf : p.hasFirstElement = true) (hfirst : p'.firstElementAddress = p.firstElementAddress)
    (hmeta : p'.metadata = p.metadata) (hf' : p'.hasFirstElement = true)
    (hram : Ram D e.pid p') : Known D m e p' := by
  refine ⟨hram, by rw [hfirst]; exact h.start_eq, by rw [hmeta]; exact h.size_eq,
    by rw [hmeta]; exact h.len_eq, fun _ => ?_, fun hfalse => ?_, fun hfalse => ?_⟩
  · unfold Current
    rw [hfirst, hmeta]
    exact h.current hf
  · rw [hf'] at hfalse
    cases hfalse
  · rw [hf'] at hfalse
    cases hfalse

/-- Registration of a partition that is known to be empty. -/
theorem Known.registerFound_bare {e : Extent} {p : Partition} (he : e.Ok D)
    (h : Known D s.bytes e p) (hf : p.hasFirstElement = false) :
    registerFound e (s.setPart e.pid ((s.part e.pid).registered e)) =
        (.ok e.pid, (s.setPart e.pid ((s.part e.pid).registered e)).advance e) ∧
      Known D s.bytes e ((s.part e.pid).registered e) := by
  have hbare := h.empty hf
  have hb : Bare s.bytes e.pid ((s.part e.pid).registered e) := by
    have hstart := hbare.start
    rw [h.start_eq] at hstart
    exact ⟨hstart, hbare.swap⟩
  have hram := ram_registered he (s.part e.pid)
  have hpart := setPart_part s e.pid ((s.part e.pid).registered e)
  have hfound := registerFound_empty (s := s.setPart e.pid ((s.part e.pid).registered e))
    (e := e) (Ram.sync (by rw [hpart]; exact hram) (.inr (by rw [hpart]; exact hb.silent)))
    (by rw [hpart]; rfl) (by rw [hpart]; exact hb.silent)
  rw [hpart, setPart_setPart] at hfound
  exact ⟨hfound, hram, rfl, rfl, fun _ => rfl, nofun, fun _ => hb, fun _ => rfl⟩

/-- Registration of a partition that is known to have elements. -/
theorem Known.registerFound {e : Extent} {p : Partition} (he : e.Ok D)
    (h : Known D s.bytes e p) (hf : p.hasFirstElement = true)
    {Pos : Nat → Nat → Nat → Prop} (hpass : ∀ q : Partition,
      q.firstElementAddress = p.firstElementAddress → q.metadata = p.metadata →
      Passable (s.setPart e.pid q) e.pid Pos)
    (hpos : Pos p.firstElementAddress
      (headerOf s.bytes e.pid (p.firstElementAddress + metadataSize)).recordId
      p.metadata.firstElementLen) :
    ∃ p', Filesystem.registerFound e (s.setPart e.pid ((s.part e.pid).registered e)) =
        (.ok e.pid, (s.setPart e.pid p').advance e) ∧
      p'.hasFirstElement = true ∧ p'.firstElementAddress = p.firstElementAddress ∧
      p'.metadata = p.metadata ∧
      (p'.latestElementAddress, p'.latestElementRecordId, p'.latestElementLen) =
        latestOf s.bytes e.pid p :=
  registerFound_current he (h.current hf) h.ram.id_eq h.start_eq h.size_eq h.len_eq hpass hpos

/-! ## All partitions of an application -/

/-- An operation on one partition keeps what rests on the bytes and variables of the
others. -/
theorem forall_of_local {rs : List Registration} (hreg : AllRegistrable D 0 (firstFree D) rs)
    {X : (Nat → UInt8) → Extent → Partition → Prop}
    (hframe : ∀ {m m' : Nat → UInt8} {e : Extent} {p : Partition}, X m e p →
      (∀ x, e.Owns x → m' x = m x) → X m' e p)
    (h : ∀ e ∈ layout D rs, X s.bytes e (s.part e.pid)) {e : Extent} (he : e ∈ layout D rs)
    (hstep : X t.bytes e (t.part e.pid) ∧ Local e s t) :
    ∀ e ∈ layout D rs, X t.bytes e (t.part e.pid) := by
  intro e' he'
  by_cases hee : e' = e
  · rw [hee]
    exact hstep.1
  · have hapart := layout_apart hreg he he' fun heq => hee heq.symm
    have hpart : t.part e'.pid = s.part e'.pid := hstep.2.parts _ hapart.1.symm
    rw [hpart]
    exact hframe (h e' he') fun x hx => hstep.2.bytes x
      (hapart.not_owns (layout_ok hreg he) (layout_ok hreg he') hx)

/-- A restart whose registrations all find their partitions. -/
theorem boot_of_found {rs : List Registration} (hsize : swapPageSize ≤ D.size)
    (hreg : AllRegistrable D 0 (firstFree D) rs) {Q : Extent → Partition → Prop}
    (hfound : ∀ e ∈ layout D rs, ∀ s' : State D, s'.bytes = s.bytes →
      ∃ p, registerFound e (s'.setPart e.pid ((s'.part e.pid).registered e)) =
        (.ok e.pid, (s'.setPart e.pid p).advance e) ∧ Q e p)
    {s' : State D} (hdev : s'.dev = s.dev) :
    ∃ t, boot rs s' = (.ok ((layout D rs).map Extent.pid), t) ∧ t.bytes = s.bytes ∧
      t.partitionIterators = s'.partitionIterators ∧ ∀ e ∈ layout D rs, Q e (t.part e.pid) := by
  obtain ⟨t, ht, htdev, hiter, -, hparts⟩ := registerAll_ok (s := s'.restarted) (Q := Q) hreg
    (firstFree_ge D) fun e he s₁ hs₁ => hfound e he s₁ (by
      unfold State.bytes
      rw [hs₁, ← hdev]
      rfl)
  refine ⟨t, ?_, ?_, hiter, hparts⟩
  · unfold boot
    rw [Proc.bind_ok (reset_eq hsize)]
    exact ht
  · unfold State.bytes
    rw [htdev, ← hdev]
    rfl

end OpenBadge.Filesystem
