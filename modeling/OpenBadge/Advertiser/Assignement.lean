import OpenBadge.Filesystem.Room
import OpenBadge.Storer.Assignement
import OpenBadge.Storer.ChunksFit

/-!
# advertiser_lib.c: the badge assignement

What is advertised after any sequence of assignements and reboots: the last assignement, or
the default derived from the MAC address. The battery voltage and the status flags, which
have their own setters, play no part.
-/

namespace OpenBadge.Advertiser

open OpenBadge.Lib OpenBadge.Storage OpenBadge.Filesystem OpenBadge.Storer

variable {D : Device}

/-- `custom_advdata_t`. -/
structure CustomAdvdata where
  battery : UInt8
  statusFlags : UInt8
  ID : UInt16
  group : UInt8
  MAC : Vector UInt8 6

/-- The storer below, `custom_advdata`, and the data that the BLE module was last given. -/
structure AdvertiserState (D : Device) where
  storer : StorerState D
  customAdvdata : CustomAdvdata
  advertised : CustomAdvdata

abbrev Advertises (D : Device) := Proc (AdvertiserState D) RetCode

def onStorer {α : Type} (x : Stores D α) : Advertises D α :=
  Proc.within (fun s => s.storer) (fun s storer => { s with storer := storer }) x

/-- `ble_set_advertising_custom_advdata` with `custom_advdata`; its result is not looked at. -/
def bleSetAdvertisingCustomAdvdata : Advertises D Unit :=
  Proc.modify fun s => { s with advertised := s.customAdvdata }

def advertisingResetId : UInt16 := 0xFFFF

def advertisingResetGroup : UInt8 := 0xFF

def advertisingDefaultGroup : UInt8 := 1

def getDefaultBadgeAssignement (MAC : Vector UInt8 6) : BadgeAssignement :=
  ⟨crc16Compute MAC.toList, advertisingDefaultGroup⟩

def CustomAdvdata.assign (c : CustomAdvdata) (b : BadgeAssignement) : CustomAdvdata :=
  { c with ID := b.ID, group := b.group }

/-- `advertiser_init` on a badge whose address is `MAC`. -/
def advertiserInit (MAC : Vector UInt8 6) : Advertises D Unit := do
  Proc.modify fun s => { s with customAdvdata := ⟨0, 0, 0, 0, MAC.reverse⟩ }
  let ret ← Proc.attempt (onStorer storerReadBadgeAssignement)
  match ret with
  | .error _ => Proc.modify fun s => { s with
      customAdvdata := s.customAdvdata.assign (getDefaultBadgeAssignement s.customAdvdata.MAC) }
  | .ok b => Proc.modify fun s => { s with customAdvdata := s.customAdvdata.assign b }
  bleSetAdvertisingCustomAdvdata

/-- The pair that stands for the default. -/
def IsReset (b : BadgeAssignement) : Prop :=
  b.ID = advertisingResetId ∧ b.group = advertisingResetGroup

instance (b : BadgeAssignement) : Decidable (IsReset b) := inferInstanceAs (Decidable (_ ∧ _))

/-- `advertiser_set_badge_assignement`. -/
def advertiserSetBadgeAssignement (b : BadgeAssignement) : Advertises D Unit := do
  let s ← Proc.get
  let badgeAssignement := if IsReset b then getDefaultBadgeAssignement s.customAdvdata.MAC else b
  Proc.modify fun s => { s with customAdvdata := s.customAdvdata.assign badgeAssignement }
  bleSetAdvertisingCustomAdvdata
  Proc.branch (IsReset b) (onStorer storerClearBadgeAssignement) do
    let ret ← Proc.attempt (onStorer storerReadBadgeAssignement)
    match ret with
    | .error .invalidState => onStorer (storerStoreBadgeAssignement badgeAssignement)
    | .error .invalidData => onStorer (storerStoreBadgeAssignement badgeAssignement)
    | .error .internal => Proc.fail .internal
    | .error _ => pure ()
    | .ok stored =>
      Proc.when (stored.ID ≠ badgeAssignement.ID ∨ stored.group ≠ badgeAssignement.group)
        (onStorer (storerStoreBadgeAssignement badgeAssignement))

/-- The static variables before the first call. -/
def AdvertiserState.powerUp (dev : D.State) : AdvertiserState D :=
  { storer := ⟨Filesystem.powerUp dev, ⟨0, 0, 0, 0, 0, 0⟩, fun _ => 0⟩
    customAdvdata := ⟨0, 0, 0, 0, Vector.replicate 6 0⟩
    advertised := ⟨0, 0, 0, 0, Vector.replicate 6 0⟩ }

/-- The start of the firmware. -/
def startUp (MAC : Vector UInt8 6) : Advertises D Unit := do
  onStorer storerInit
  advertiserInit MAC

/-! ## Runs -/

inductive Action
  | setBadgeAssignement (b : BadgeAssignement)
  | reboot (powerLoss : Bool)

/-- A reboot keeps the storage, with a loss of power nothing else. -/
def exec (MAC : Vector UInt8 6) : Action → Advertises D Unit
  | .setBadgeAssignement b => advertiserSetBadgeAssignement b
  | .reboot powerLoss => do
    Proc.when (powerLoss = true)
      (Proc.modify fun s => AdvertiserState.powerUp s.storer.fs.dev)
    startUp MAC

def step (MAC : Vector UInt8 6) (s : AdvertiserState D) (a : Action) : AdvertiserState D :=
  (exec MAC a s).2

/-- The assignement that is advertised. -/
def AdvertiserState.assignement (s : AdvertiserState D) : BadgeAssignement :=
  ⟨s.advertised.ID, s.advertised.group⟩

/-- The default of a badge, from its address as it is advertised. -/
def defaultOf (MAC : Vector UInt8 6) : BadgeAssignement := getDefaultBadgeAssignement MAC.reverse

/-- The assignement in force after an action. -/
def assigned (last : Option BadgeAssignement) : Action → Option BadgeAssignement
  | .setBadgeAssignement b => if IsReset b then none else some b
  | .reboot _ => last

/-- What is stored is what is advertised, and without that the default. -/
structure Steady (MAC : Vector UInt8 6) (s : AdvertiserState D) (last : Option BadgeAssignement) :
    Prop where
  settled : Settled s.storer last
  mac_eq : s.customAdvdata.MAC = MAC.reverse
  advertised : s.assignement = last.getD (defaultOf MAC)
  pair : ∀ b ∈ last, ¬ IsReset b

variable {s : AdvertiserState D} {last : Option BadgeAssignement} {MAC : Vector UInt8 6}

theorem onStorer_eq_ok {α : Type} {x : Stores D α} {u : StorerState D} {a : α}
    (h : x s.storer = (.ok a, u)) : onStorer x s = (.ok a, { s with storer := u }) := by
  unfold onStorer Proc.within
  rw [h]

theorem onStorer_apply {α : Type} (x : Stores D α) (s : AdvertiserState D) :
    onStorer x s = ((x s.storer).1, { s with storer := (x s.storer).2 }) := rfl

theorem advertiserInit_steady (MAC : Vector UInt8 6) (h : Settled s.storer last)
    (hpair : ∀ b ∈ last, ¬ IsReset b) :
    ∃ t, advertiserInit MAC s = (.ok (), t) ∧ Steady MAC t last := by
  obtain ⟨u, hread, hsettled, -⟩ := h.read
  obtain ⟨c, hc⟩ : ∃ c : CustomAdvdata,
    c = CustomAdvdata.assign ⟨0, 0, 0, 0, MAC.reverse⟩ (last.getD (defaultOf MAC)) := ⟨_, rfl⟩
  refine ⟨⟨u, c, c⟩, ?_, hsettled, by rw [hc]; rfl, by rw [hc]; rfl, hpair⟩
  rw [advertiserInit, Proc.modify_bind_apply, Proc.attempt_bind_apply, onStorer_apply, hread, hc]
  cases last with
  | none => rfl
  | some b => rfl

section Steps

variable (hreg : AllRegistrable D 0 (firstFree D) storerRegistrations)
include hreg

/-- The default for the reset pair, and no stored assignement any more. -/
theorem Steady.setReset (hD : D.Reliable) (h : Steady MAC s last) {b : BadgeAssignement}
    (hreset : IsReset b) :
    ∃ t, advertiserSetBadgeAssignement b s = (.ok (), t) ∧ Steady MAC t none := by
  obtain ⟨u, hclear, hsettled⟩ := h.settled.clear hreg hD
  obtain ⟨c, hc⟩ : ∃ c, c = s.customAdvdata.assign (defaultOf MAC) := ⟨_, rfl⟩
  refine ⟨⟨u, c, c⟩, ?_, hsettled, by rw [hc]; exact h.mac_eq, by rw [hc]; rfl,
    fun _ hb => absurd hb (by simp)⟩
  rw [advertiserSetBadgeAssignement, Proc.get_bind_apply, if_pos hreset, h.mac_eq,
    Proc.modify_bind_apply, bleSetAdvertisingCustomAdvdata, Proc.modify_bind_apply,
    Proc.branch_pos hreset, hc]
  exact onStorer_eq_ok hclear

/-- Any other pair is stored, if it is not stored already. -/
theorem Steady.setPair (hD : D.Reliable) (hD' : D.AllOrNothing) (h : Steady MAC s last)
    {b : BadgeAssignement} (hpair : ¬ IsReset b) :
    ∃ t, advertiserSetBadgeAssignement b s = (.ok (), t) ∧ Steady MAC t (some b) ∧
      (last = some b → t.storer.fs.dev = s.storer.fs.dev) := by
  obtain ⟨u, hread, hsettled, hdev⟩ := h.settled.read
  obtain ⟨v, hstore, hsettled'⟩ := hsettled.store hreg hD hD' b
  obtain ⟨c, hc⟩ : ∃ c, c = s.customAdvdata.assign b := ⟨_, rfl⟩
  have hsteady : ∀ w : StorerState D, Settled w (some b) → Steady MAC ⟨w, c, c⟩ (some b) :=
    fun w hw => ⟨hw, by rw [hc]; exact h.mac_eq, by rw [hc]; rfl,
      fun _ hb => by cases hb; exact hpair⟩
  have hset : advertiserSetBadgeAssignement b s =
      (Proc.attempt (onStorer storerReadBadgeAssignement) >>= fun ret => match ret with
        | .error .invalidState => onStorer (storerStoreBadgeAssignement b)
        | .error .invalidData => onStorer (storerStoreBadgeAssignement b)
        | .error .internal => Proc.fail .internal
        | .error _ => pure ()
        | .ok stored => Proc.when (stored.ID ≠ b.ID ∨ stored.group ≠ b.group)
            (onStorer (storerStoreBadgeAssignement b)) : Advertises D Unit) ⟨s.storer, c, c⟩ := by
    rw [advertiserSetBadgeAssignement, Proc.get_bind_apply, if_neg hpair,
      Proc.modify_bind_apply, bleSetAdvertisingCustomAdvdata, Proc.modify_bind_apply,
      Proc.branch_neg hpair, hc]
  rw [hset, Proc.attempt_bind_apply, onStorer_apply, hread]
  cases last with
  | none =>
    exact ⟨_, onStorer_eq_ok hstore, hsteady v hsettled', fun hsome => by cases hsome⟩
  | some stored =>
    dsimp only
    by_cases hdiffers : stored.ID ≠ b.ID ∨ stored.group ≠ b.group
    · rw [Proc.when_pos hdiffers]
      refine ⟨_, onStorer_eq_ok hstore, hsteady v hsettled', fun hsome => ?_⟩
      cases hsome
      exact absurd hdiffers (by simp)
    · have hsame : stored = b := by
        cases stored
        cases b
        simpa using hdiffers
      rw [hsame] at hsettled
      rw [Proc.when_neg hdiffers]
      exact ⟨_, rfl, hsteady u hsettled, fun _ => hdev⟩

theorem Steady.reboot (hsize : swapPageSize ≤ D.size) (h : Steady MAC s last)
    (powerLoss : Bool) :
    ∃ t, exec MAC (.reboot powerLoss) s = (.ok (), t) ∧ Steady MAC t last := by
  obtain ⟨s', hs', hdev, hiter⟩ : ∃ s' : AdvertiserState D,
      exec MAC (.reboot powerLoss) s = startUp MAC s' ∧ s'.storer.fs.dev = s.storer.fs.dev ∧
        (s'.storer.fs.iter (badgeExtent D).pid).iteratorValid ≠ iteratorValidNumber := by
    cases powerLoss with
    | true => exact ⟨AdvertiserState.powerUp s.storer.fs.dev, rfl, rfl, noIterator_powerUp _ _⟩
    | false => exact ⟨s, rfl, rfl, h.settled.noIterator⟩
  obtain ⟨u, hinit, hsettled⟩ := h.settled.restart hreg hsize hdev hiter
  obtain ⟨t, ht, hsteady⟩ := advertiserInit_steady (s := { s' with storer := u }) MAC
    hsettled h.pair
  refine ⟨t, ?_, hsteady⟩
  rw [hs', startUp, Proc.bind_ok (onStorer_eq_ok hinit)]
  exact ht

theorem Steady.step (hD : D.Reliable) (hD' : D.AllOrNothing) (hsize : swapPageSize ≤ D.size)
    (h : Steady MAC s last) (a : Action) :
    (exec MAC a s).1 = .ok () ∧ Steady MAC (Advertiser.step MAC s a) (assigned last a) := by
  obtain ⟨t, ht, hsteady⟩ : ∃ t, exec MAC a s = (.ok (), t) ∧ Steady MAC t (assigned last a) := by
    cases a with
    | setBadgeAssignement b =>
      by_cases hreset : IsReset b
      · rw [assigned, if_pos hreset]
        exact h.setReset hreg hD hreset
      · rw [assigned, if_neg hreset]
        obtain ⟨t, ht, hsteady, -⟩ := h.setPair hreg hD hD' hreset
        exact ⟨t, ht, hsteady⟩
    | reboot powerLoss => exact h.reboot hreg hsize powerLoss
  rw [Advertiser.step, ht]
  exact ⟨rfl, hsteady⟩

theorem Steady.run (hD : D.Reliable) (hD' : D.AllOrNothing) (hsize : swapPageSize ≤ D.size)
    (h : Steady MAC s last) (actions : List Action) :
    Along (Advertiser.step MAC) (fun s a => (exec MAC a s).1 = .ok ()) s actions ∧
      Steady MAC (Lib.run (Advertiser.step MAC) s actions) (actions.foldl assigned last) := by
  induction actions generalizing s last with
  | nil => exact ⟨trivial, h⟩
  | cons a actions ih =>
    obtain ⟨hok, hstep⟩ := h.step hreg hD hD' hsize a
    obtain ⟨halong, hrun⟩ := ih hstep
    exact ⟨⟨hok, halong⟩, hrun⟩

end Steps

/-- From the first start on, every call and every reboot succeeds, and the last assignement,
or the default if there is none, is advertised. Setting the pair that is stored writes
nothing. -/
theorem assignement_survives (hD : D.Reliable) (hD' : D.AllOrNothing) (MAC : Vector UInt8 6)
    {dev : D.State} {s₀ : AdvertiserState D} (hblank : Blank (D.byte dev) D.size)
    (hstart : startUp MAC (AdvertiserState.powerUp dev) = (.ok (), s₀)) (actions : List Action) :
    Along (step MAC) (fun s a => (exec MAC a s).1 = .ok ()) s₀ actions ∧
      (run (step MAC) s₀ actions).assignement =
        (actions.foldl assigned none).getD (defaultOf MAC) ∧
      ∀ b, actions.foldl assigned none = some b →
        (step MAC (run (step MAC) s₀ actions) (.setBadgeAssignement b)).storer.fs.dev =
          (run (step MAC) s₀ actions).storer.fs.dev := by
  obtain ⟨⟨⟩, u, hstorer, hinit⟩ := Proc.bind_eq_ok.mp hstart
  rw [onStorer_apply] at hstorer
  have hok := congrArg Prod.fst hstorer
  have hstate := congrArg (fun r => r.2.storer) hstorer
  have hstorer' : storerInit (AdvertiserState.powerUp dev).storer = (.ok (), u.storer) :=
    Prod.ext hok hstate
  obtain ⟨hsize, hreg, hsettled⟩ := settled_blank (s := (AdvertiserState.powerUp dev).storer)
    hblank (noIterator_powerUp _ _) hstorer'
  obtain ⟨t, ht, hsteady⟩ := advertiserInit_steady MAC hsettled fun b hb => absurd hb (by simp)
  rw [ht] at hinit
  cases hinit
  obtain ⟨halong, hrun⟩ := hsteady.run hreg hD hD' hsize actions
  refine ⟨halong, hrun.advertised, fun b hlast => ?_⟩
  obtain ⟨v, hv, -, hdev⟩ := hrun.setPair hreg hD hD' (hrun.pair b hlast)
  rw [step, exec, hv]
  exact hdev hlast

/-- A badge with a new storage. -/
def newBadge : AdvertiserState largeStorage :=
  (startUp #v[1, 2, 3, 4, 5, 6] (AdvertiserState.powerUp (D := largeStorage) blankBytes)).2

theorem newBadge_startUp : startUp #v[1, 2, 3, 4, 5, 6]
    (AdvertiserState.powerUp (D := largeStorage) blankBytes) = (.ok (), newBadge) :=
  Proc.eq_of_fst (by decide +kernel)

/-- An assignement, a reset and another assignement, with reboots in between. -/
def reassigned : List Action :=
  [.setBadgeAssignement ⟨7, 2⟩, .reboot true, .setBadgeAssignement ⟨0xFFFF, 0xFF⟩, .reboot false,
    .setBadgeAssignement ⟨8, 3⟩, .reboot true]

theorem assignement_survives_reassigned :
    (run (step #v[1, 2, 3, 4, 5, 6]) newBadge reassigned).assignement = ⟨8, 3⟩ := by
  have hreliable : largeStorage.Reliable := fillDevice_reliable _ _ _ _
  have hallOrNothing : largeStorage.AllOrNothing := fillDevice_allOrNothing _ _
  obtain ⟨-, hlast, -⟩ := assignement_survives hreliable hallOrNothing #v[1, 2, 3, 4, 5, 6]
    (fun _ _ => rfl) newBadge_startUp reassigned
  exact hlast

/-- A call that leaves the advertised pair as it is writes nothing. -/
def WritesOnChange (MAC : Vector UInt8 6) (s₀ : AdvertiserState D) : Prop :=
  ∀ (actions : List Action) (b : BadgeAssignement),
    (step MAC (run (step MAC) s₀ actions) (.setBadgeAssignement b)).assignement =
      (run (step MAC) s₀ actions).assignement →
    (step MAC (run (step MAC) s₀ actions) (.setBadgeAssignement b)).storer.fs.dev =
      (run (step MAC) s₀ actions).storer.fs.dev

/-- The default pair, set on a badge that has no assignement and advertises it already, is
written to the storage. -/
theorem not_writesOnChange_newBadge :
    startUp #v[1, 2, 3, 4, 5, 6] (AdvertiserState.powerUp (D := largeStorage) blankBytes) =
        (.ok (), newBadge) ∧
      ¬ WritesOnChange #v[1, 2, 3, 4, 5, 6] newBadge := by
  refine ⟨newBadge_startUp, fun h => ?_⟩
  have hsame := h [] (defaultOf #v[1, 2, 3, 4, 5, 6]) (by decide +kernel)
  have hbyte := congrFun hsame 400
  exact absurd hbyte (by decide +kernel)

end OpenBadge.Advertiser
