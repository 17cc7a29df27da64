import OpenBadge.Filesystem.Reboot

/-!
# The backup of the first header

A store in the first unit of a partition backs up the metadata and the first
element-header from the library's variables. A registration that finds the partition
fills in the metadata, but not the element-header: only a store in the first slot does.
-/

namespace OpenBadge.Filesystem

open OpenBadge.Lib OpenBadge.Storage

variable {D : Device} {s t : State D} {e : Extent}

/-! ## The copy of the first element-header -/

/-- The swap entry of a partition is the metadata and the header at its start, and passes the
CRC. -/
def BackupCurrent (m : Nat → UInt8) (pid : Nat) (p : Partition) : Prop :=
  firstBytes m pid (getSwapPageAddressOfPartition pid) = firstBytes m pid p.firstElementAddress ∧
    CrcValid (firstBytes m pid (getSwapPageAddressOfPartition pid))

instance (m : Nat → UInt8) (pid : Nat) (p : Partition) : Decidable (BackupCurrent m pid p) :=
  inferInstanceAs (Decidable (_ ∧ _))

/-- `first_element_header` is the header in the first slot. -/
def Copied (m : Nat → UInt8) (e : Extent) (p : Partition) : Prop :=
  serializeElementHeader e.pid p.firstElementHeader =
    slice m (e.start + metadataSize) (getElementHeaderLen e.pid)

/-- The copy in a partition whose first slot was stored to, or was not, since the last
power-up; `written` has those where it was. -/
structure Tracked (D : Device) (written : List Nat) (m : Nat → UInt8) (e : Extent)
    (p : Partition) : Prop where
  seated : Seated D m e p
  recordId : p.hasFirstElement = true →
    IsRecordId (headerOf m e.pid (e.start + metadataSize)).recordId
  copied : e.pid ∈ written → Copied m e p
  zero : e.pid ∉ written → p.firstElementHeader = ⟨0, 0, 0⟩

theorem Tracked.frame {written : List Nat} {m m' : Nat → UInt8} {p : Partition}
    (h : Tracked D written m e p) (hm : ∀ x, e.Owns x → m' x = m x) :
    Tracked D written m' e p := by
  have hsize := h.seated.known.ram.size_ge
  rw [h.seated.known.size_eq] at hsize
  refine ⟨h.seated.frame hm, fun hf => ?_, fun hw => ?_, h.zero⟩
  · rw [headerOf_congr fun x hx hx' => hm x (.inl (by omega))]
    exact h.recordId hf
  · unfold Copied
    rw [slice_congr fun x hx hx' => hm x (.inl (by omega))]
    exact h.copied hw

theorem Tracked.congr {written written' : List Nat} {m : Nat → UInt8} {p : Partition}
    (h : Tracked D written m e p) (hw : e.pid ∈ written' ↔ e.pid ∈ written) :
    Tracked D written' m e p :=
  ⟨h.seated, h.recordId, fun hmem => h.copied (hw.mp hmem), fun hmem => h.zero (mt hw.mpr hmem)⟩

/-- The list of written first slots after a store. -/
def writtenAfter (pid : Nat) (p : Partition) (elementLen : Nat) (written : List Nat) : List Nat :=
  if (storedAt pid p elementLen).address = p.firstElementAddress then pid :: written else written

theorem Tracked.store {written : List Nat} (h : Tracked D written s.bytes e (s.part e.pid))
    {elementData : Nat → UInt8} {elementLen : Nat} (hlen : elementLen < 2 ^ 16)
    (hstore : storeElement e.pid elementData elementLen s = (.ok (), t)) :
    Tracked D (writtenAfter e.pid (s.part e.pid) elementLen written) t.bytes e (t.part e.pid) ∧
      Local e s t := by
  have hk := h.seated.known
  have hsize := hk.ram.size_ge
  obtain ⟨hseated, hlocal⟩ := h.seated.store hlen hstore
  obtain ⟨len, data, w, rfl, rfl, hq, hrun, hpart, -, -⟩ := hk.store hlen hstore
  refine ⟨?_, hlocal⟩
  unfold writtenAfter storedAt
  by_cases hstart : (placement e.pid (s.part e.pid) (storedLen e.pid (s.part e.pid)
      elementLen)).address = (s.part e.pid).firstElementAddress
  · have hread := hq.headerOf_eq hrun.appended
    have hheader := hrun.appended.header
    unfold headerBytes headerLenAt at hheader
    rw [if_pos hstart, hk.start_eq] at hread
    rw [if_pos hstart, if_pos hstart, hstart] at hheader
    obtain ⟨-, hbytes⟩ := slice_eq_append hheader
    rw [serializeElementHeader_length, serializeMetadata_length, hk.start_eq] at hbytes
    rw [if_pos hstart]
    refine ⟨hseated, fun _ => ?_, fun _ => ?_, fun hmem => absurd List.mem_cons_self hmem⟩
    · change IsRecordId (headerOf (D.byte t.dev) e.pid _).recordId
      rw [hread]
      exact placement_recordId hk.ram _
    · unfold Copied
      rw [hpart, Partition.appended, Partition.renewed, if_pos hstart]
      exact hbytes.symm
  · have hsame : ∀ x, e.start ≤ x → x < e.start + metadataSize + getElementHeaderLen e.pid →
        t.bytes x = s.bytes x := by
      intro x hx hx'
      have haddr := hq.fits.address.resolve_left hstart
      rw [hk.start_eq] at haddr
      exact hrun.outside hk.ram hq.data_len hq.fits (.inl (by omega))
        (hk.ram.outsideSwap (by rw [hk.start_eq]; exact hx))
    rw [if_neg hstart]
    refine ⟨hseated, fun _ => ?_, fun hmem => ?_, fun hmem => ?_⟩
    · rw [headerOf_congr fun x hx hx' => hsame x (by omega) hx']
      exact h.recordId (hasFirst_of_next hstart)
    · unfold Copied
      rw [hpart, Partition.appended, Partition.renewed, if_neg hstart,
        slice_congr fun x hx hx' => hsame x (by omega) hx']
      exact h.copied hmem
    · rw [hpart, Partition.appended, Partition.renewed, if_neg hstart]
      exact h.zero hmem

/-- The copy is that of the header in the first slot if and only if that slot was stored to
since the last power-up. -/
theorem Tracked.copied_iff {written : List Nat} {m : Nat → UInt8} {p : Partition}
    (h : Tracked D written m e p) (hf : p.hasFirstElement = true) :
    Copied m e p ↔ e.pid ∈ written := by
  refine ⟨fun hcopy => ?_, h.copied⟩
  by_contra hmem
  have hid := h.recordId hf
  unfold Copied at hcopy
  have hfits : (⟨0, 0, 0⟩ : ElementHeader).Fits :=
    ⟨Nat.two_pow_pos 16, Nat.two_pow_pos 16, Nat.two_pow_pos 16⟩
  unfold headerOf at hid
  rw [← hcopy, h.zero hmem, deserializeElementHeader_serialize hfits] at hid
  exact Nat.not_succ_le_zero 0 hid.1

/-- What a store in the first unit backs up is current if and only if the copy is. -/
theorem backupCurrent_iff_copied {written : List Nat}
    (h : Tracked D written s.bytes e (s.part e.pid)) {elementData : Nat → UInt8}
    {elementLen : Nat} (hlen : elementLen < 2 ^ 16)
    (hstore : storeElement e.pid elementData elementLen s = (.ok (), t))
    (hunit : unitStart D.modules (storedAt e.pid (s.part e.pid) elementLen).address =
      (s.part e.pid).firstElementAddress) :
    BackupCurrent t.bytes e.pid (t.part e.pid) ↔ Copied t.bytes e (t.part e.pid) := by
  have hk := h.seated.known
  obtain ⟨len, data, w, rfl, rfl, hq, hrun, hpart, hknown, -⟩ := hk.store hlen hstore
  have hswap : firstBytes t.bytes e.pid (getSwapPageAddressOfPartition e.pid) =
      (t.part e.pid).firstBytes e.pid := by
    rw [hpart]
    exact hrun.appended.swap hk.ram hq.fits hunit
  obtain ⟨hcrc, hmeta⟩ := hknown.current (by rw [hpart]; rfl)
  have hlength : metadataSize ≤
      (firstBytes t.bytes e.pid (t.part e.pid).firstElementAddress).length := by
    unfold firstBytes
    rw [slice_length]
    exact Nat.le_add_right _ _
  have hstart : firstBytes t.bytes e.pid (t.part e.pid).firstElementAddress =
      serializeMetadata (t.part e.pid).metadata ++
        slice t.bytes (e.start + metadataSize) (getElementHeaderLen e.pid) := by
    rw [← hmeta, serializeMetadata_deserialize hlength, ← hknown.start_eq, ← firstBytes_drop,
      List.take_append_drop]
  unfold BackupCurrent Copied
  rw [hswap]
  constructor
  · intro hcur
    have heq := hcur.1
    rw [hstart] at heq
    exact List.append_cancel_left heq
  · intro hcopy
    have heq : (t.part e.pid).firstBytes e.pid =
        firstBytes t.bytes e.pid (t.part e.pid).firstElementAddress := by
      rw [hstart, ← hcopy]
      rfl
    exact ⟨heq, by rw [heq]; exact hcrc⟩

/-! ## Runs -/

/-- The runs of an application from the state `s₁` after its first start. `written` has the
partitions whose first slot was stored to since the last power-up. A store that is refused
changes at most the iterator. -/
inductive BackupRun (rs : List Registration) (pids : List Nat) (s₁ : State D) :
    List Nat → State D → Prop
  | start : BackupRun rs pids s₁ [] s₁
  | store {written : List Nat} {s t : State D} {pid : Nat} (elementData : Nat → UInt8)
      (elementLen : UInt16) :
      BackupRun rs pids s₁ written s → pid ∈ pids →
      storeElement pid elementData elementLen.toNat s = (.ok (), t) →
      BackupRun rs pids s₁ (writtenAfter pid (s.part pid) elementLen.toNat written) t
  | refused {written : List Nat} {s t : State D} {pid : Nat} {code : RetCode}
      (elementData : Nat → UInt8) (elementLen : UInt16) :
      BackupRun rs pids s₁ written s → pid ∈ pids →
      storeElement pid elementData elementLen.toNat s = (.error code, t) →
      SameButIter pid s t → BackupRun rs pids s₁ written t
  | register {written : List Nat} {s t : State D} :
      BackupRun rs pids s₁ written s → boot rs s = (.ok pids, t) → BackupRun rs pids s₁ written t
  | powerUp {written : List Nat} {s t : State D} :
      BackupRun rs pids s₁ written s → boot rs (powerUp s.dev) = (.ok pids, t) →
      BackupRun rs pids s₁ [] t

/-- All partitions of the application are tracked. -/
def AllTracked (rs : List Registration) (written : List Nat) (s : State D) : Prop :=
  ∀ e ∈ layout D rs, Tracked D written s.bytes e (s.part e.pid)

theorem AllTracked.store {rs : List Registration} {written : List Nat}
    (hreg : AllRegistrable D 0 (firstFree D) rs) (h : AllTracked rs written s)
    (he : e ∈ layout D rs) {elementData : Nat → UInt8} {elementLen : Nat}
    (hlen : elementLen < 2 ^ 16)
    (hstore : storeElement e.pid elementData elementLen s = (.ok (), t)) :
    AllTracked rs (writtenAfter e.pid (s.part e.pid) elementLen written) t := by
  obtain ⟨htracked, hlocal⟩ := (h e he).store hlen hstore
  have hothers := forall_of_local hreg (s := s) (t := t)
    (X := fun m e' p => e' ≠ e →
      Tracked D (writtenAfter e.pid (s.part e.pid) elementLen written) m e' p)
    (fun hx hm hne => (hx hne).frame hm)
    (fun e' he' hne => (h e' he').congr ?_) he ⟨fun hne => absurd rfl hne, hlocal⟩
  · intro e' he'
    by_cases hee : e' = e
    · rw [hee]
      exact htracked
    · exact hothers e' he' hee
  · have hpid : e'.pid ≠ e.pid := fun heq =>
      (layout_apart hreg he he' fun h => hne h.symm).1 (by rw [heq])
    unfold writtenAfter
    split
    · rw [List.mem_cons]
      exact ⟨fun hmem => hmem.resolve_left hpid, .inr⟩
    · exact Iff.rfl

/-- A restart from `s`, whose copies are those of partitions as they lie in storage where
`written'` says so, and zero elsewhere. -/
theorem allTracked_boot {rs : List Registration} {written written' : List Nat}
    {pids : List Nat} (hsize : swapPageSize ≤ D.size)
    (hreg : AllRegistrable D 0 (firstFree D) rs)
    (h : ∀ e ∈ layout D rs, ∃ p, Tracked D written s.bytes e p ∧ (e.pid ∈ written' →
      e.pid ∈ written ∧ (s.part e.pid).firstElementHeader = p.firstElementHeader))
    (hzero : ∀ e ∈ layout D rs, e.pid ∉ written' →
      (s.part e.pid).firstElementHeader = ⟨0, 0, 0⟩)
    (hboot : boot rs s = (.ok pids, t)) : AllTracked rs written' t := by
  obtain ⟨hdev, -, hparts⟩ := boot_refound (P := fun e p => Tracked D written s.bytes e p ∧
      (e.pid ∈ written' → e.pid ∈ written ∧
        (s.part e.pid).firstElementHeader = p.firstElementHeader)) hsize hreg
    (fun e he => by
      obtain ⟨p, hp, hcopy⟩ := h e he
      exact ⟨p, ⟨hp, hcopy⟩, hp.seated⟩) hboot
  intro e he
  obtain ⟨p, ⟨hp, hcopy⟩, hrefound⟩ := hparts e he
  rw [show t.bytes = s.bytes from congrArg D.byte hdev]
  refine ⟨hrefound.seated, fun hf => ?_, fun hmem => ?_, fun hmem => ?_⟩
  · rw [hrefound.hasFirst_eq] at hf
    exact hp.recordId hf
  · obtain ⟨hmem', heq⟩ := hcopy hmem
    unfold Copied
    rw [hrefound.header_eq, heq]
    exact hp.copied hmem'
  · rw [hrefound.header_eq]
    exact hzero e he hmem

theorem tracked_blank {m : Nat → UInt8} (he : e.Ok D) (hblank : Blank m D.size)
    {p : Partition} (hzero : p.firstElementHeader = ⟨0, 0, 0⟩) :
    Tracked D [] m e (p.registered e) := by
  refine ⟨⟨known_blank he hblank p, fun hf => ?_, fun hf => ?_⟩, fun hf => ?_,
    fun hmem => absurd hmem List.not_mem_nil, fun _ => hzero⟩ <;> cases hf

theorem BackupRun.tracked {rs : List Registration} {s₁ : State D} {written : List Nat}
    (hsize : swapPageSize ≤ D.size) (hreg : AllRegistrable D 0 (firstFree D) rs)
    (h₁ : AllTracked rs [] s₁)
    (h : BackupRun rs ((layout D rs).map Extent.pid) s₁ written s) : AllTracked rs written s := by
  induction h with
  | start => exact h₁
  | store elementData elementLen _ hpid hstore ih =>
    obtain ⟨e, he, rfl⟩ := List.mem_map.mp hpid
    exact ih.store hreg he elementLen.toNat_lt hstore
  | refused _ _ _ _ _ hsame ih =>
    intro e he
    rw [hsame.part]
    unfold State.bytes
    rw [hsame.dev]
    exact ih e he
  | register _ hboot ih =>
    exact allTracked_boot hsize hreg (fun e he => ⟨_, ih e he, fun hmem => ⟨hmem, rfl⟩⟩)
      (fun e he hmem => (ih e he).zero hmem) hboot
  | @powerUp _ s _ _ hboot ih =>
    exact allTracked_boot (s := Filesystem.powerUp s.dev) hsize hreg
      (fun e he => ⟨_, ih e he, fun hmem => absurd hmem List.not_mem_nil⟩) (fun _ _ _ => rfl) hboot

/-- After every store in the first unit of a partition, its entry in the swap page is the
metadata and the header at its start if and only if the store went to the first slot, or an
earlier one did since the last power-up. -/
theorem backup_current_iff {rs : List Registration} {pids : List Nat} {dev : D.State}
    {s₁ s t : State D} {written : List Nat} {pid : Nat} (hblank : Blank (D.byte dev) D.size)
    (hboot : boot rs (powerUp dev) = (.ok pids, s₁)) (hrun : BackupRun rs pids s₁ written s)
    (hpid : pid ∈ pids) (elementData : Nat → UInt8) (elementLen : UInt16)
    (hstore : storeElement pid elementData elementLen.toNat s = (.ok (), t))
    (hunit : unitStart D.modules (storedAt pid (s.part pid) elementLen.toNat).address =
      (s.part pid).firstElementAddress) :
    BackupCurrent t.bytes pid (t.part pid) ↔
      (storedAt pid (s.part pid) elementLen.toNat).address = (s.part pid).firstElementAddress ∨
        pid ∈ written := by
  obtain ⟨hsize, hreg, rfl, -, -, -⟩ := boot_blank (s := powerUp dev) hblank hboot
  have h₁ : AllTracked rs [] s₁ := allTracked_boot (s := powerUp dev) hsize hreg
    (fun e he => ⟨_, tracked_blank (layout_ok hreg he) hblank (p := (powerUp dev).part e.pid) rfl,
      fun hmem => absurd hmem List.not_mem_nil⟩) (fun _ _ _ => rfl) hboot
  have htracked := hrun.tracked hsize hreg h₁
  obtain ⟨e, he, rfl⟩ := List.mem_map.mp hpid
  have hafter := ((htracked e he).store elementLen.toNat_lt hstore).1
  obtain ⟨_, _, _, -, -, -, -, hpart, -⟩ :=
    (htracked e he).seated.known.store elementLen.toNat_lt hstore
  rw [backupCurrent_iff_copied (htracked e he) elementLen.toNat_lt hstore hunit,
    hafter.copied_iff (by rw [hpart]; rfl), writtenAfter]
  split
  · rename_i hstart
    exact iff_of_true List.mem_cons_self (.inl hstart)
  · rename_i hstart
    exact ⟨.inr, fun h => h.resolve_left hstart⟩

/-- After every store in the first unit of a partition its backup is current. -/
def KeepsBackups (rs : List Registration) (pids : List Nat) (s₁ : State D) : Prop :=
  ∀ (written : List Nat) (s t : State D) (pid : Nat) (elementData : Nat → UInt8)
    (elementLen : UInt16), BackupRun rs pids s₁ written s → pid ∈ pids →
    storeElement pid elementData elementLen.toNat s = (.ok (), t) →
    unitStart D.modules (storedAt pid (s.part pid) elementLen.toNat).address =
      (s.part pid).firstElementAddress →
    BackupCurrent t.bytes pid (t.part pid)

/-! ## A storage with pages -/

theorem fill_blank : ∀ (_ : Nat) (b : UInt8), (0xFF : UInt8) = b ∨ (0xFF : UInt8) = 0xFF :=
  fun _ _ => .inr rfl

/-- Five pages; a store blanks the rest of the last one it touches. -/
def pagedFlash : Device :=
  fillDevice [⟨500, 100, by decide, by decide⟩] (by decide) (fun _ _ => 0xFF) fill_blank

def onePartition : List Registration := [⟨30, true, false, 0, zero_lt_elementLenMax⟩]

def pagedStart : State pagedFlash :=
  (boot onePartition (powerUp (D := pagedFlash) blankBytes)).2

theorem pagedStart_boot : boot onePartition (powerUp (D := pagedFlash) blankBytes) =
    (.ok [0x8000], pagedStart) := Proc.eq_of_fst (by decide +kernel)

/-- The first element, in the first slot. -/
def firstStored : State pagedFlash := (storeList 0x8000 [0x11] pagedStart).2

theorem firstStored_run :
    BackupRun onePartition [0x8000] pagedStart [0x8000] firstStored := by
  have h₀ : BackupRun onePartition [0x8000] pagedStart [] pagedStart := BackupRun.start
  have hstore : storeElement 0x8000 (bytesOf [0x11]) (UInt16.ofNat 1).toNat pagedStart =
      (.ok (), firstStored) := Proc.eq_of_fst (by decide +kernel)
  have h := h₀.store (bytesOf [0x11]) (UInt16.ofNat 1) List.mem_cons_self hstore
  have hwritten : writtenAfter 0x8000 (pagedStart.part 0x8000) (UInt16.ofNat 1).toNat [] =
      [0x8000] := by decide +kernel
  rw [hwritten] at h
  exact h

/-- A second element without a power-up in between finds the backup current. -/
theorem backup_current_iff_paged :
    BackupCurrent (storeList 0x8000 [0x22] firstStored).2.bytes 0x8000
      ((storeList 0x8000 [0x22] firstStored).2.part 0x8000) := by
  have hstore : storeList 0x8000 [0x22] firstStored =
      (.ok (), (storeList 0x8000 [0x22] firstStored).2) := Proc.eq_of_fst (by decide +kernel)
  have hunit : unitStart pagedFlash.modules (storedAt 0x8000 (firstStored.part 0x8000)
      (UInt16.ofNat 1).toNat).address = (firstStored.part 0x8000).firstElementAddress := by
    decide +kernel
  exact (backup_current_iff (fun _ _ => rfl) pagedStart_boot firstStored_run List.mem_cons_self
    (bytesOf [0x22]) (UInt16.ofNat 1) hstore hunit).mpr (.inr List.mem_cons_self)

/-- The same after a power-up. -/
def poweredUp : State pagedFlash := (boot onePartition (powerUp firstStored.dev)).2

/-- After a power-up the second element's store leaves the backup behind. -/
theorem not_keepsBackups_paged :
    boot onePartition (powerUp (D := pagedFlash) blankBytes) = (.ok [0x8000], pagedStart) ∧
      ¬ KeepsBackups onePartition [0x8000] pagedStart := by
  refine ⟨pagedStart_boot, fun h => ?_⟩
  have hrun : BackupRun onePartition [0x8000] pagedStart [] poweredUp :=
    .powerUp firstStored_run (Proc.eq_of_fst (by decide +kernel))
  have hcur := h [] poweredUp _ 0x8000 (bytesOf [0x22]) (UInt16.ofNat 1) hrun (by decide)
    (Proc.eq_of_fst (by decide +kernel)) (by decide +kernel)
  exact absurd hcur (by decide +kernel)

end OpenBadge.Filesystem
