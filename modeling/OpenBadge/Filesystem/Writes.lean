import OpenBadge.Filesystem.Reads

/-!
# Writing to storage

The storage calls that write: a store, a clear and the backup of the first header in
the swap page, each as a relation between the device before and after a success, with
the bytes that it leaves alone.
-/

namespace OpenBadge.Filesystem

open OpenBadge.Lib OpenBadge.Storage

variable {D : Device} {s t : State D} {pid : Nat}

def State.setDev (s : State D) (d : D.State) : State D := { s with dev := d }

@[simp] theorem setDev_dev (s : State D) (d : D.State) : (s.setDev d).dev = d := rfl

@[simp] theorem setDev_bytes (s : State D) (d : D.State) : (s.setDev d).bytes = D.byte d := rfl

@[simp] theorem setDev_part (s : State D) (d : D.State) (pid : Nat) :
    (s.setDev d).part pid = s.part pid := rfl

@[simp] theorem setDev_iter (s : State D) (d : D.State) (pid : Nat) :
    (s.setDev d).iter pid = s.iter pid := rfl

/-- A successful `storage_store` of `d` at `a`. -/
structure Wrote (D : Device) (a : Nat) (d : List UInt8) (u v : D.State) : Prop where
  fits : a + d.length ≤ D.size
  call : (d = [] ∧ v = u) ∨ (d ≠ [] ∧ D.store a d u = (.ok (), v))

/-- A successful `storage_clear` of `n` bytes at `a`. -/
structure Cleared (D : Device) (a n : Nat) (u v : D.State) : Prop where
  fits : a + n ≤ D.size
  call : (n = 0 ∧ v = u) ∨ (n ≠ 0 ∧ D.clear a n u = (.ok (), v))

/-- What a write of `d` at `a` does to the bytes: it reaches at most to the next
boundary between units. -/
structure Changed (D : Device) (a : Nat) (d : List UInt8) (m m' : Nat → UInt8) : Prop where
  written : slice m' a d.length = d
  before : ∀ x, x < a → m' x = m x
  after : ∀ b, a + d.length ≤ b → unitStart D.modules b = b → ∀ x, b ≤ x → m' x = m x

theorem Changed.refl_nil (m : Nat → UInt8) (a : Nat) : Changed D a [] m m :=
  ⟨rfl, fun _ _ => rfl, fun _ _ _ _ _ => rfl⟩

theorem changed_of_stored {a : Nat} {d : List UInt8} {m m' : Nat → UInt8} (hd : 0 < d.length)
    (h : Stored (unitStop D.modules (a + d.length - 1)) m a d m') : Changed D a d m m' := by
  refine ⟨h.written, h.before, fun b hb hunit x hx => h.after x ?_⟩
  exact Nat.le_trans (unitStop_le_of_lt hunit (by omega)) hx

theorem Wrote.changed {a : Nat} {d : List UInt8} {u v : D.State} (h : Wrote D a d u v) :
    Changed D a d (D.byte u) (D.byte v) := by
  rcases h.call with ⟨rfl, rfl⟩ | ⟨hd, hcall⟩
  · exact Changed.refl_nil _ _
  · have hpos := List.length_pos_iff.mpr hd
    exact changed_of_stored hpos (D.store_spec a d u v hpos h.fits hcall)

theorem Cleared.changed {a n : Nat} {u v : D.State} (h : Cleared D a n u v) :
    Changed D a (List.replicate n 0xFF) (D.byte u) (D.byte v) := by
  rcases h.call with ⟨rfl, rfl⟩ | ⟨hn, hcall⟩
  · exact Changed.refl_nil _ _
  · have hpos := Nat.pos_of_ne_zero hn
    apply changed_of_stored (by simpa using hpos)
    rw [List.length_replicate]
    exact D.clear_spec a n u v hpos h.fits hcall

/-- In byte units a write changes exactly its own bytes. -/
theorem Changed.eq_overwrite {a : Nat} {d : List UInt8} {m m' : Nat → UInt8}
    (h : Changed D a d m m') (hD : D.ByteUnits) : m' = overwrite m a d := by
  apply Stored.eq_overwrite
  refine ⟨h.written, h.before, h.after _ (Nat.le_refl _) (unitStart_of_bytes hD), ?_⟩
  intro x hx hx'
  omega

theorem Changed.slice_eq {a : Nat} {d : List UInt8} {m m' : Nat → UInt8}
    (h : Changed D a d m m') {b n : Nat} (hb : b + n ≤ a) : slice m' b n = slice m b n :=
  slice_congr fun x _ hx' => h.before x (by omega)

/-! ## Inversion -/

theorem deviceCall_eq_ok {f : Proc D.State RetCode Unit} {u : Unit} :
    deviceCall f s = (.ok u, t) ↔ ∃ d, f s.dev = (.ok (), d) ∧ t = s.setDev d := by
  unfold deviceCall State.setDev
  rcases f s.dev with ⟨_ | _, d⟩
  · simp
  · constructor
    · intro h
      cases h
      exact ⟨d, rfl, rfl⟩
    · rintro ⟨d', h, rfl⟩
      cases h
      rfl

theorem storageStore_eq_ok {a : Nat} {d : List UInt8} (ha : a + d.length < 2 ^ 32) :
    storageStore a d s = (.ok (), t) ↔ ∃ v, Wrote D a d s.dev v ∧ t = s.setDev v := by
  unfold storageStore
  simp only [Proc.bind_eq_ok, Proc.failIf_eq_ok, Nat.mod_eq_of_lt ha]
  constructor
  · rintro ⟨_, _, ⟨hfits, rfl⟩, hcall⟩
    by_cases hd : d.length ≠ 0
    · rw [Proc.when_pos hd, deviceCall_eq_ok] at hcall
      obtain ⟨v, hv, rfl⟩ := hcall
      exact ⟨v, ⟨by omega, .inr ⟨by simpa using hd, hv⟩⟩, rfl⟩
    · rw [Proc.when_neg hd] at hcall
      cases hcall
      exact ⟨t.dev, ⟨by omega, .inl ⟨by simpa using hd, rfl⟩⟩, rfl⟩
  · rintro ⟨v, ⟨hfits, ⟨rfl, hv⟩ | ⟨hd, hv⟩⟩, rfl⟩
    · exact ⟨(), s, ⟨by omega, rfl⟩, by rw [hv]; rfl⟩
    · refine ⟨(), s, ⟨by omega, rfl⟩, ?_⟩
      rw [Proc.when_pos (by simpa using hd)]
      exact deviceCall_eq_ok.mpr ⟨v, hv, rfl⟩

theorem storageClear_eq_ok {a n : Nat} (ha : a + n < 2 ^ 32) :
    storageClear a n s = (.ok (), t) ↔ ∃ v, Cleared D a n s.dev v ∧ t = s.setDev v := by
  unfold storageClear
  simp only [Proc.bind_eq_ok, Proc.failIf_eq_ok, Nat.mod_eq_of_lt ha]
  constructor
  · rintro ⟨_, _, ⟨hfits, rfl⟩, hcall⟩
    by_cases hn : n ≠ 0
    · rw [Proc.when_pos hn, deviceCall_eq_ok] at hcall
      obtain ⟨v, hv, rfl⟩ := hcall
      exact ⟨v, ⟨by omega, .inr ⟨hn, hv⟩⟩, rfl⟩
    · rw [Proc.when_neg hn] at hcall
      cases hcall
      exact ⟨t.dev, ⟨by omega, .inl ⟨not_not.mp hn, rfl⟩⟩, rfl⟩
  · rintro ⟨v, ⟨hfits, ⟨rfl, hv⟩ | ⟨hn, hv⟩⟩, rfl⟩
    · exact ⟨(), s, ⟨by omega, rfl⟩, by rw [hv]; rfl⟩
    · refine ⟨(), s, ⟨by omega, rfl⟩, ?_⟩
      rw [Proc.when_pos hn]
      exact deviceCall_eq_ok.mpr ⟨v, hv, rfl⟩

/-! ## Progress -/

theorem wrote_of_reliable (hD : D.Reliable) {a : Nat} {d : List UInt8} (u : D.State)
    (h : a + d.length ≤ D.size) : ∃ v, Wrote D a d u v := by
  by_cases hd : d = []
  · exact ⟨u, h, .inl ⟨hd, rfl⟩⟩
  · have hok := hD.1 a d u (List.length_pos_iff.mpr hd) h
    exact ⟨(D.store a d u).2, h, .inr ⟨hd, by rw [← hok]⟩⟩

theorem cleared_of_reliable (hD : D.Reliable) {a n : Nat} (u : D.State)
    (h : a + n ≤ D.size) : ∃ v, Cleared D a n u v := by
  by_cases hn : n = 0
  · exact ⟨u, h, .inl ⟨hn, rfl⟩⟩
  · have hok := hD.2 a n u (Nat.pos_of_ne_zero hn) h
    exact ⟨(D.clear a n u).2, h, .inr ⟨hn, by rw [← hok]⟩⟩

/-! ## The backup in the swap page -/

/-- The units around the swap entry at `a`, with `header` in place. -/
def swapUnits (D : Device) (m : Nat → UInt8) (a : Nat) (header : List UInt8) : List UInt8 :=
  let start := unitStart D.modules a
  let stop := unitStop D.modules (a + header.length - 1)
  slice m start (a - start) ++ header ++ slice m (a + header.length) (stop - (a + header.length))

/-- A successful backup of `header` to `a`: nothing is written if it is there already. -/
def BackedUp (D : Device) (a : Nat) (header : List UInt8) (u v : D.State) : Prop :=
  (slice (D.byte u) a header.length = header ∧ v = u) ∨
    (slice (D.byte u) a header.length ≠ header ∧
      Wrote D (unitStart D.modules a) (swapUnits D (D.byte u) a header) u v)

theorem swapUnits_eq (m : Nat → UInt8) (a : Nat) {header : List UInt8}
    (h : 0 < header.length) :
    swapUnits D m a header = slice (overwrite m a header) (unitStart D.modules a)
      (unitStop D.modules (a + header.length - 1) - unitStart D.modules a) := by
  have hstart := unitStart_le D.modules a
  have hstop := lt_unitStop D.modules (a + header.length - 1)
  have hfront : slice m (unitStart D.modules a) (a - unitStart D.modules a) =
      slice (overwrite m a header) (unitStart D.modules a) (a - unitStart D.modules a) :=
    slice_congr fun x _ hx => (overwrite_of_lt m header (by omega)).symm
  have hback : slice m (a + header.length)
      (unitStop D.modules (a + header.length - 1) - (a + header.length)) =
      slice (overwrite m a header) (a + header.length)
        (unitStop D.modules (a + header.length - 1) - (a + header.length)) :=
    slice_congr fun x hx _ => (overwrite_of_ge m header hx).symm
  have hmid := slice_overwrite m a header
  have hsplit : unitStop D.modules (a + header.length - 1) - unitStart D.modules a =
      a - unitStart D.modules a + (header.length +
        (unitStop D.modules (a + header.length - 1) - (a + header.length))) := by omega
  unfold swapUnits
  rw [hsplit, slice_add, slice_add, show unitStart D.modules a + (a - unitStart D.modules a) = a
    by omega, hmid, ← hfront, ← hback, List.append_assoc]

/-- The backup changes the entry and nothing else. -/
theorem BackedUp.bytes {a : Nat} {header : List UInt8} {u v : D.State}
    (h : BackedUp D a header u v) (hh : 0 < header.length) :
    D.byte v = overwrite (D.byte u) a header := by
  have hstart := unitStart_le D.modules a
  have hstop := lt_unitStop D.modules (a + header.length - 1)
  rcases h with ⟨hsame, rfl⟩ | ⟨-, hwrote⟩
  · exact (overwrite_same hsame).symm
  · have hc := hwrote.changed
    have hw := hc.written
    rw [swapUnits_eq _ _ hh, slice_length] at hw
    have hlen : (swapUnits D (D.byte u) a header).length =
        unitStop D.modules (a + header.length - 1) - unitStart D.modules a := by
      rw [swapUnits_eq _ _ hh, slice_length]
    funext x
    by_cases hlt : x < unitStart D.modules a
    · rw [hc.before x hlt, overwrite_of_lt _ _ (by omega)]
    · by_cases hge : unitStop D.modules (a + header.length - 1) ≤ x
      · rw [hc.after _ (by omega) (unitStart_unitStop _ _) x hge, overwrite_of_ge _ _ (by omega)]
      · exact eq_of_slice_eq hw (by omega) (by omega)

theorem unitRange_le {a n : Nat} (hn : 0 < n) (h : a + n ≤ D.size) :
    unitStop D.modules (a + n - 1) ≤ D.size :=
  unitStop_le (show a + n - 1 < totalSize D.modules from by
    have htotal : D.size = totalSize D.modules := rfl
    omega)

/-- The page with the header in its place, as the code assembles it. -/
theorem page_eq (m : Nat → UInt8) {a : Nat} {header : List UInt8} (hh : 0 < header.length)
    {page : List UInt8} (hpage : page = slice m (unitStart D.modules a)
      (unitStop D.modules (a + header.length - 1) - unitStart D.modules a)) :
    page.take (a - unitStart D.modules a) ++ header ++
      page.drop (a - unitStart D.modules a + header.length) = swapUnits D m a header := by
  have hstart := unitStart_le D.modules a
  have hstop := lt_unitStop D.modules (a + header.length - 1)
  subst hpage
  rw [slice_take _ _ (by omega), slice_drop _ _ (by omega)]
  unfold swapUnits
  rw [show unitStart D.modules a + (a - unitStart D.modules a + header.length) = a + header.length
    by omega, show unitStop D.modules (a + header.length - 1) - unitStart D.modules a -
      (a - unitStart D.modules a + header.length) =
      unitStop D.modules (a + header.length - 1) - (a + header.length) by omega]

/-- Reading back what a successful store wrote. -/
theorem readBack_ok {a n : Nat} {d : List UInt8} {v : D.State} (h : Wrote D a d s.dev v)
    (hn : n = d.length) :
    (Proc.orFail (storageRead a n) .internal >>= fun readBack =>
      Proc.failIf (d ≠ readBack) .internal) (s.setDev v) = (.ok (), s.setDev v) := by
  subst hn
  rw [Proc.bind_ok (Proc.orFail_ok (storageRead_ok h.fits) _), setDev_bytes, h.changed.written,
    Proc.failIf_neg (not_not_intro rfl)]

theorem backupFirstElementHeader_eq_ok {a : Nat} (header : List UInt8) (hh : 0 < header.length)
    (hswap : a + header.length ≤ swapPageSize) (hfits : a + header.length ≤ D.size) :
    backupFirstElementHeader a header s = (.ok (), t) ↔
      ∃ v, BackedUp D a header s.dev v ∧ t = s.setDev v := by
  have hD := size_lt D
  have hstart := unitStart_le D.modules a
  have hstop := lt_unitStop D.modules (a + header.length - 1)
  have hstop' := unitRange_le (D := D) hh hfits
  have hsize : unitStop D.modules (a + header.length - 1) - 1 + 1 - unitStart D.modules a =
      unitStop D.modules (a + header.length - 1) - unitStart D.modules a := by omega
  have hlen : (swapUnits D s.bytes a header).length =
      unitStop D.modules (a + header.length - 1) - unitStart D.modules a := by
    rw [swapUnits_eq _ _ hh, slice_length]
  unfold backupFirstElementHeader
  rw [Proc.failIf_bind_neg (by omega), Proc.bind_ok (Proc.orFail_ok (storageRead_ok hfits) _)]
  by_cases hsame : header ≠ slice s.bytes a header.length
  · rw [Proc.when_pos hsame, Proc.bind_ok (Proc.orFail_ok (unitLimits_ok hh hfits) _)]
    dsimp only
    rw [hsize, Proc.bind_ok (Proc.orFail_ok (storageRead_ok (by omega)) _),
      page_eq s.bytes hh rfl]
    constructor
    · intro h
      obtain ⟨_, w, hstore, hback⟩ := Proc.bind_eq_ok.mp h
      rw [Proc.orFail_eq_ok, storageStore_eq_ok (by omega)] at hstore
      obtain ⟨v, hv, rfl⟩ := hstore
      rw [readBack_ok hv hlen.symm] at hback
      cases hback
      exact ⟨v, .inr ⟨fun heq => hsame heq.symm, hv⟩, rfl⟩
    · rintro ⟨v, ⟨heq, -⟩ | ⟨-, hv⟩, rfl⟩
      · exact absurd heq.symm hsame
      · change Wrote D _ (swapUnits D s.bytes a header) s.dev v at hv
        rw [Proc.bind_ok (Proc.orFail_ok ((storageStore_eq_ok (by omega)).mpr ⟨v, hv, rfl⟩) _),
          readBack_ok hv hlen.symm]
  · rw [Proc.when_neg hsame]
    constructor
    · intro h
      cases h
      exact ⟨s.dev, .inl ⟨(not_not.mp hsame).symm, rfl⟩, rfl⟩
    · rintro ⟨v, ⟨-, rfl⟩ | ⟨hne, -⟩, rfl⟩
      · rfl
      · exact absurd (not_not.mp hsame).symm hne

theorem backedUp_of_reliable (hD : D.Reliable) {a : Nat} (header : List UInt8)
    (hh : 0 < header.length) (hfits : a + header.length ≤ D.size) (u : D.State) :
    ∃ v, BackedUp D a header u v := by
  by_cases hsame : slice (D.byte u) a header.length = header
  · exact ⟨u, .inl ⟨hsame, rfl⟩⟩
  · have hstart := unitStart_le D.modules a
    have hstop := lt_unitStop D.modules (a + header.length - 1)
    have hstop' := unitRange_le (D := D) hh hfits
    obtain ⟨v, hv⟩ := wrote_of_reliable hD (a := unitStart D.modules a)
      (d := swapUnits D (D.byte u) a header) u (by
        rw [swapUnits_eq _ _ hh, slice_length]
        omega)
    exact ⟨v, .inr ⟨hsame, hv⟩⟩

end OpenBadge.Filesystem
