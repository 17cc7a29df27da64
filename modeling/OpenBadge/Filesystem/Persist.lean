import OpenBadge.Filesystem.Known

/-!
# Persistence

In storage with byte units the search at registration finds the element that was the
latest one before a restart, whatever stores and clears came before.
-/

namespace OpenBadge.Filesystem

open OpenBadge.Lib OpenBadge.Storage

variable {D : Device} {s t : State D}

/-! ## The invariant of a partition -/

/-- The chain leads to the latest element, and nothing behind that looks like a newer
one. -/
structure Ending (m : Nat → UInt8) (pid : Nat) (p : Partition) : Prop where
  first_fits : stopOf pid p p.firstElementAddress p.metadata.firstElementLen ≤
    p.firstElementAddress + p.metadata.partitionSize
  linked : ∃ n, Linked m pid p n p.latestElementAddress p.latestElementRecordId p.latestElementLen
  ends : ¬ Follows m pid p p.latestElementAddress p.latestElementRecordId p.latestElementLen
  recordId : IsRecordId p.latestElementRecordId

/-- The library's variables describe the partition at `e` as a search would find it, and the
header behind the latest element can be read, as it was for the store. -/
structure Sound (D : Device) (m : Nat → UInt8) (e : Extent) (p : Partition) : Prop where
  known : Known D m e p
  stored : p.hasFirstElement = true → Ending m e.pid p
  probe_fits : p.hasFirstElement = true → latestStop e.pid p + getElementHeaderLen e.pid ≤ D.size

/-- The invariant rests on the bytes of the partition only. -/
theorem Sound.frame {m m' : Nat → UInt8} {e : Extent} {p : Partition} (h : Sound D m e p)
    (hm : ∀ x, e.Owns x → m' x = m x) : Sound D m' e p := by
  have hstart := h.known.start_eq
  have hsize := h.known.size_eq
  refine ⟨h.known.frame hm, fun hf => ?_, h.probe_fits⟩
  have hs := h.stored hf
  obtain ⟨n, hn⟩ := hs.linked
  have hle := hn.start_le
  have hlt := lt_stopOf e.pid p p.latestElementAddress p.latestElementLen
  have hlatest := hn.stop_le hs.first_fits
  refine ⟨hs.first_fits, ⟨n, hn.frame fun x hx hx' => hm x (.inl ?_)⟩, ?_, hs.recordId⟩
  · unfold stopOf at hlatest
    omega
  · rw [Follows.congr fun x hx hx' => hm x (.inl (by omega))]
    exact hs.ends

/-- A store behind whose element nothing follows. -/
theorem Sound.store_ends {e : Extent} (h : Sound D s.bytes e (s.part e.pid))
    {elementData : Nat → UInt8} {elementLen : Nat} (hlen : elementLen < 2 ^ 16)
    (hstore : storeElement e.pid elementData elementLen s = (.ok (), t))
    (hends : ∀ {len : Nat} {data : List UInt8} {w : D.State},
      Request D e.pid (s.part e.pid) len data →
      StoreRun D e.pid (s.part e.pid) (placement e.pid (s.part e.pid) len) len data s.dev w
        t.dev →
      ¬ Follows t.bytes e.pid
        ((s.part e.pid).appended e.pid (placement e.pid (s.part e.pid) len) len data)
        (placement e.pid (s.part e.pid) len).address
        (placement e.pid (s.part e.pid) len).recordId len) :
    Sound D t.bytes e (t.part e.pid) ∧ Local e s t := by
  obtain ⟨len, data, w, -, -, hq, hrun, hpart, hknown, hlocal⟩ := h.known.store hlen hstore
  refine ⟨⟨hknown, fun _ => ?_, fun _ => ?_⟩, hlocal⟩
  · rw [hpart]
    refine ⟨?_, ?_, ?_, placement_recordId hq.ram len⟩
    · rw [appended_first, appended_size]
      exact hq.first_fits fun hne => (h.stored (hasFirst_of_next hne)).first_fits
    · exact hq.linked hrun fun hf => (h.stored hf).linked
    · exact hends hq hrun
  · have hprobe := hrun.probe_fits
    rw [hpart, latestStop, stopOf_congr (appended_first _ _ _ _ _)]
    exact hprobe

theorem Sound.store {e : Extent} (hD : D.ByteUnits) (h : Sound D s.bytes e (s.part e.pid))
    {elementData : Nat → UInt8} {elementLen : Nat} (hlen : elementLen < 2 ^ 16)
    (hstore : storeElement e.pid elementData elementLen s = (.ok (), t)) :
    Sound D t.bytes e (t.part e.pid) ∧ Local e s t :=
  h.store_ends hlen hstore fun hq hrun => hq.not_follows hD hrun

theorem Sound.clear {e : Extent} (h : Sound D s.bytes e (s.part e.pid))
    (hclear : clearPartition e.pid s = (.ok (), t)) :
    Sound D t.bytes e (t.part e.pid) ∧ Local e s t := by
  obtain ⟨hf, hknown, hlocal⟩ := h.known.clear hclear
  refine ⟨⟨hknown, fun htrue => ?_, fun htrue => ?_⟩, hlocal⟩ <;>
    rw [hf] at htrue <;> cases htrue

/-! ## Registration -/

/-- What has to be the same after a restart. -/
def Partition.Resumes (p p' : Partition) : Prop :=
  p'.hasFirstElement = p.hasFirstElement ∧
    (p.hasFirstElement = true →
      p'.latestElementAddress = p.latestElementAddress ∧
      p'.latestElementRecordId = p.latestElementRecordId ∧
      p'.latestElementLen = p.latestElementLen ∧ p'.metadata = p.metadata)

/-- The search passes the chain up to the latest element. -/
theorem Linked.passable {pid : Nat} {p : Partition} {n a recordId len : Nat}
    (h : Linked s.bytes pid p n a recordId len)
    (hends : ¬ Follows s.bytes pid p a recordId len)
    (hprobe : stopOf pid p a len + getElementHeaderLen pid ≤ D.size)
    (hstop : p.firstElementAddress + p.metadata.partitionSize ≤ D.size)
    {q : Partition} (hfirst : q.firstElementAddress = p.firstElementAddress)
    (hmeta : q.metadata = p.metadata) :
    Passable (s.setPart pid q) pid fun a₁ recordId₁ len₁ =>
      ∃ k, Linked s.bytes pid p k a₁ recordId₁ len₁ := by
  refine ⟨fun a₁ recordId₁ len₁ hpos => ?_, fun a₁ recordId₁ len₁ hpos => ?_,
    fun a₁ recordId₁ len₁ hpos hf => ?_⟩
  · obtain ⟨k, hk⟩ := hpos
    rw [setPart_part, hfirst]
    exact Nat.le_of_add_right_le hk.start_le
  · obtain ⟨k, hk⟩ := hpos
    rw [setPart_part, stopOf_congr hfirst]
    by_cases hf : Follows s.bytes pid p a₁ recordId₁ len₁
    · exact Nat.le_trans (Nat.le_of_add_right_le hf.2) hstop
    · have heq := (hk.latestOf_eq hf).symm.trans (h.latestOf_eq hends)
      rw [Prod.mk.injEq, Prod.mk.injEq] at heq
      rw [heq.1, heq.2.2]
      exact hprobe
  · obtain ⟨k, hk⟩ := hpos
    rw [setPart_part, setPart_bytes, follows_congr hfirst hmeta] at hf
    rw [setPart_part, setPart_bytes, stopOf_congr hfirst, neighbourLen_congr hmeta]
    exact ⟨k + 1, .next hk hf⟩

/-- A restart finds the partition as it was. -/
theorem Sound.registerFound {e : Extent} {p : Partition} (he : e.Ok D)
    (h : Sound D s.bytes e p) :
    ∃ p', Filesystem.registerFound e (s.setPart e.pid ((s.part e.pid).registered e)) =
        (.ok e.pid, (s.setPart e.pid p').advance e) ∧
      Sound D s.bytes e p' ∧ p.Resumes p' := by
  have hk := h.known
  cases hf : p.hasFirstElement with
  | true =>
    have hend := h.stored hf
    obtain ⟨n, hn⟩ := hend.linked
    have hprobe := h.probe_fits hf
    obtain ⟨p', hp', hf', hfirst, hmeta, hlatest⟩ := hk.registerFound he hf
      (fun q hq₁ hq₂ => hn.passable hend.ends hprobe hk.ram.stop_le hq₁ hq₂) ⟨0, .first⟩
    rw [hn.latestOf_eq hend.ends, Prod.mk.injEq, Prod.mk.injEq] at hlatest
    obtain ⟨haddr, hid, hlen⟩ := hlatest
    refine ⟨p', hp', ⟨hk.resumed hf hfirst hmeta hf' (hk.ram.located hfirst hmeta
      (by rw [haddr]; exact hk.ram.latest) (by rw [hlen]; exact hk.ram.latestLen_lt) hf'),
      fun _ => ?_, fun _ => ?_⟩, by rw [hf', hf], fun _ => ⟨haddr, hid, hlen, hmeta⟩⟩
    · refine ⟨?_, ⟨n, ?_⟩, ?_, by rw [hid]; exact hend.recordId⟩
      · rw [hfirst, hmeta, stopOf_congr hfirst]
        exact hend.first_fits
      · rw [haddr, hid, hlen]
        exact hn.congr hfirst hmeta
      · rw [haddr, hid, hlen, follows_congr hfirst hmeta]
        exact hend.ends
    · rw [latestStop, haddr, hlen, stopOf_congr hfirst]
      exact hprobe
  | false =>
    obtain ⟨hfound, hknown⟩ := hk.registerFound_bare he hf
    refine ⟨_, hfound, ⟨hknown, fun htrue => ?_, fun htrue => ?_⟩, hf.symm, fun htrue => ?_⟩
    · cases htrue
    · cases htrue
    · rw [hf] at htrue
      cases htrue

/-! ## Runs -/

/-- The runs of an application from the state `s₀` after its first start: successful
stores and clears, and restarts, which keep the storage and no other variable. -/
inductive Run (rs : List Registration) (pids : List Nat) (s₀ : State D) : State D → Prop
  | start : Run rs pids s₀ s₀
  | store {s t : State D} {pid : Nat} (elementData : Nat → UInt8) (elementLen : UInt16) :
      Run rs pids s₀ s → pid ∈ pids →
      storeElement pid elementData elementLen.toNat s = (.ok (), t) → Run rs pids s₀ t
  | clear {s t : State D} {pid : Nat} :
      Run rs pids s₀ s → pid ∈ pids → clearPartition pid s = (.ok (), t) → Run rs pids s₀ t
  | restart {s s' t : State D} :
      Run rs pids s₀ s → s'.dev = s.dev → boot rs s' = (.ok pids, t) → Run rs pids s₀ t

/-- All partitions of the application are sound. -/
def Intact (rs : List Registration) (s : State D) : Prop :=
  ∀ e ∈ layout D rs, Sound D s.bytes e (s.part e.pid)

theorem intact_blank {rs : List Registration} (hreg : AllRegistrable D 0 (firstFree D) rs)
    (hblank : Blank s.bytes D.size)
    (hparts : ∀ e ∈ layout D rs, ∃ p : Partition, s.part e.pid = p.registered e) :
    Intact rs s := by
  intro e he
  obtain ⟨p, hp⟩ := hparts e he
  rw [hp]
  refine ⟨known_blank (layout_ok hreg he) hblank p, fun htrue => ?_, fun htrue => ?_⟩ <;>
    cases htrue

/-- A restart finds every partition as it was. -/
theorem Intact.restart {rs : List Registration} (hsize : swapPageSize ≤ D.size)
    (hreg : AllRegistrable D 0 (firstFree D) rs) (h : Intact rs s) {s' : State D} (hdev : s'.dev = s.dev) :
    ∃ t, boot rs s' = (.ok ((layout D rs).map Extent.pid), t) ∧ Intact rs t ∧
      (∀ e ∈ layout D rs, (s.part e.pid).Resumes (t.part e.pid)) ∧ t.bytes = s.bytes ∧
      t.partitionIterators = s'.partitionIterators := by
  obtain ⟨t, ht, hbytes, hiters, hparts⟩ := boot_of_found (s := s)
    (Q := fun e p => Sound D s.bytes e p ∧ (s.part e.pid).Resumes p) hsize hreg
    (fun e he s₁ hs₁ => by
      rw [← hs₁]
      exact Sound.registerFound (layout_ok hreg he) (by rw [hs₁]; exact h e he))
    hdev
  refine ⟨t, ht, fun e he => ?_, fun e he => (hparts e he).2, hbytes, hiters⟩
  rw [hbytes]
  exact (hparts e he).1

theorem Run.intact {rs : List Registration} {pids : List Nat} {s₀ : State D}
    (hD : D.ByteUnits) (hsize : swapPageSize ≤ D.size)
    (hreg : AllRegistrable D 0 (firstFree D) rs)
    (hpids : pids = (layout D rs).map Extent.pid) (h₀ : Intact rs s₀)
    (h : Run rs pids s₀ s) : Intact rs s := by
  subst hpids
  induction h with
  | start => exact h₀
  | store elementData elementLen _ hpid hstore ih =>
    obtain ⟨e, he, rfl⟩ := List.mem_map.mp hpid
    exact forall_of_local hreg Sound.frame ih he ((ih e he).store hD elementLen.toNat_lt hstore)
  | clear _ hpid hclear ih =>
    obtain ⟨e, he, rfl⟩ := List.mem_map.mp hpid
    exact forall_of_local hreg Sound.frame ih he ((ih e he).clear hclear)
  | restart _ hdev hboot ih =>
    obtain ⟨t, ht, hintact, -⟩ := ih.restart hsize hreg hdev
    rw [ht] at hboot
    cases hboot
    exact hintact

/-- In storage with byte units, every restart after any run of stores, clears and
restarts finds each partition as it was: empty or not, and with the same latest element
and metadata. -/
theorem restart_resumes (hD : D.ByteUnits) {rs : List Registration} {pids : List Nat}
    {s₀ s₁ s s' : State D} (hblank : Blank s₀.bytes D.size)
    (hboot : boot rs s₀ = (.ok pids, s₁))
    (hrun : Run rs pids s₁ s) (hdev : s'.dev = s.dev) :
    ∃ t, boot rs s' = (.ok pids, t) ∧ ∀ pid ∈ pids, (s.part pid).Resumes (t.part pid) := by
  obtain ⟨hsize, hreg, hpids, hdev₁, -, hparts⟩ := boot_blank hblank hboot
  have hblank₁ : Blank s₁.bytes D.size := by
    unfold State.bytes
    rw [hdev₁]
    exact hblank
  have hintact := hrun.intact hD hsize hreg hpids (intact_blank hreg hblank₁ hparts)
  obtain ⟨t, ht, -, hres, -, -⟩ := hintact.restart hsize hreg hdev
  refine ⟨t, by rw [ht, hpids], fun pid hpid => ?_⟩
  rw [hpids] at hpid
  obtain ⟨e, he, rfl⟩ := List.mem_map.mp hpid
  exact hres e he

/-- A dynamic partition and a static one with CRC. -/
def twoPartitions : List Registration :=
  [⟨30, true, false, 0, zero_lt_elementLenMax⟩, ⟨40, false, true, 4, four_lt_elementLenMax⟩]

def twoPids : List Nat := [partitionIdOf 0 true false, partitionIdOf 1 false true]

/-- The start on a new storage. -/
def started : State eeprom := (boot twoPartitions (powerUp (D := eeprom) blankBytes)).2

/-- Two elements, a clear, and an element behind it. -/
def recycled : State eeprom :=
  (storeList 0x8000 [0x33] (clearPartition 0x8000
    (storeList 0x4001 [1, 2, 3, 4] (storeList 0x8000 [0x11, 0x22] started).2).2).2).2

/-- An element behind a restart. -/
def resumed : State eeprom :=
  (storeList 0x4001 [5, 6, 7, 8] (boot twoPartitions (powerUp recycled.dev)).2).2

theorem restart_resumes_eeprom :
    ∃ t, boot twoPartitions (powerUp resumed.dev) = (.ok twoPids, t) ∧
      ∀ pid ∈ twoPids, (resumed.part pid).Resumes (t.part pid) := by
  have hboot : boot twoPartitions (powerUp (D := eeprom) blankBytes) = (.ok twoPids, started) :=
    Proc.eq_of_fst (by decide +kernel)
  have h₁ : Run twoPartitions twoPids started (storeList 0x8000 [0x11, 0x22] started).2 :=
    Run.store _ _ Run.start (by decide) (Proc.eq_of_fst (by decide +kernel))
  have h₂ := Run.store _ _ h₁ (by decide) (Proc.eq_of_fst (x := storeList 0x4001 [1, 2, 3, 4])
    (by decide +kernel))
  have h₃ := Run.clear h₂ (by decide) (Proc.eq_of_fst (x := clearPartition 0x8000)
    (by decide +kernel))
  have h₄ : Run twoPartitions twoPids started recycled :=
    Run.store _ _ h₃ (by decide) (Proc.eq_of_fst (by decide +kernel))
  have h₅ : Run twoPartitions twoPids started (boot twoPartitions (powerUp recycled.dev)).2 :=
    Run.restart h₄ (powerUp_dev _) (Proc.eq_of_fst (by decide +kernel))
  have h₆ : Run twoPartitions twoPids started resumed :=
    Run.store _ _ h₅ (by decide) (Proc.eq_of_fst (by decide +kernel))
  exact restart_resumes eeprom_byteUnits (fun _ _ => rfl) hboot h₆ (powerUp_dev _)

end OpenBadge.Filesystem
