import OpenBadge.Storage.Modules

/-!
# Requests behind the end of the storage

Every function checks its range with the sum of address and length in 32 bits. A request
whose sum wraps around to a number inside the storage passes the check: `storage_store`,
`storage_read` and `storage_clear` then find no module that holds its address and report
success, the unit limits are computed, the flash and the EEPROM are accessed at addresses
they do not have.
-/

namespace OpenBadge.StorageLib

open OpenBadge.Lib OpenBadge.Storage OpenBadge.Storage1 OpenBadge.Eeprom

/-- The sum of address and length wraps around to a number up to `size`. -/
def Wraps (size address length : Nat) : Prop :=
  2 ^ 32 ≤ address + length ∧ (address + length) % 2 ^ 32 ≤ size

instance (size address length : Nat) : Decidable (Wraps size address length) := by
  unfold Wraps
  infer_instance

/-- A request that does not wrap is out of range for the check as well. -/
theorem check_of_not_wraps {size own address length : Nat} (h : ¬ Wraps size address length)
    (hle : own ≤ size) (ho : own < address + length) : own < (address + length) % 2 ^ 32 := by
  unfold Wraps at h
  by_cases hs : address + length < 2 ^ 32
  · rw [Nat.mod_eq_of_lt hs]
    exact ho
  · omega

/-- Every function whose own size the request exceeds returns `NRF_ERROR_INVALID_PARAM` and
leaves everything as it is. -/
structure RejectsOutside (c : Config) (B : Bus) (address length : Nat) : Prop where
  storageStore : storageSize c < address + length → ∀ (inRam : Bool) (data : List UInt8) (s : Stack B),
    data.length = length →
      storageStore (storageFunctions c B inRam) address data s = (.error .invalidParam, s)
  storageRead : storageSize c < address + length → ∀ (inRam : Bool) (buffer : Nat → UInt8) (s : Stack B),
    storageRead (storageFunctions c B inRam) address length buffer s = (.error .invalidParam, s)
  storageClear : storageSize c < address + length → ∀ (inRam : Bool) (s : Stack B),
    storageClear (storageFunctions c B inRam) address length s = (.error .invalidParam, s)
  storageGetUnitAddressLimits : storageSize c < address + length →
    storageGetUnitAddressLimits (unitModules c) address length = .error .invalidParam
  storage1Store : Storage1.getSize c < address + length →
    ∀ (data : List UInt8) (s : Storage1.State), data.length = length →
      Storage1.store c address data s = (.error .invalidParam, s)
  storage1Read : Storage1.getSize c < address + length → ∀ s : Storage1.State,
    Storage1.read c address length s = (.error .invalidParam, s)
  eepromStore : eepromSize < address + length →
    ∀ (inRam : Bool) (data : List UInt8) (s : Eeprom.State B), data.length = length →
      eepromStore inRam address data s = (.error .invalidParam, s)
  eepromRead : eepromSize < address + length → ∀ (inRam : Bool) (s : Eeprom.State B),
    eepromRead inRam address length s = (.error .invalidParam, s)
  flashRead : length < 2 ^ 16 → c.pageSizeWords * c.numPages < address + length →
    ∀ (inRam : Bool) (s : Storage1.State),
      flashReadWords c inRam address length s = (.error .invalidParam, s)

section Checks

variable {c : Config} {B : Bus} {address length : Nat}

theorem storageStore_rejects (inRam : Bool) {data : List UInt8} (s : Stack B)
    (h : storageSize c < (address + data.length) % 2 ^ 32) :
    storageStore (storageFunctions c B inRam) address data s = (.error .invalidParam, s) := by
  unfold storageStore
  rw [storageGetSize_stack]
  exact Proc.failIf_bind_pos h _ _ s

theorem storageRead_rejects (inRam : Bool) (buffer : Nat → UInt8) (s : Stack B)
    (h : storageSize c < (address + length) % 2 ^ 32) :
    storageRead (storageFunctions c B inRam) address length buffer s =
      (.error .invalidParam, s) := by
  unfold storageRead
  rw [storageGetSize_stack]
  exact Proc.failIf_bind_pos h _ _ s

theorem storageClear_rejects (inRam : Bool) (s : Stack B)
    (h : storageSize c < (address + length) % 2 ^ 32) :
    storageClear (storageFunctions c B inRam) address length s = (.error .invalidParam, s) := by
  unfold storageClear
  rw [storageGetSize_stack]
  exact Proc.failIf_bind_pos h _ _ s

/-- The unit limits are refused exactly if the sum as it is computed is too large. -/
theorem unitAddressLimits_rejects_iff (hl : 0 < length) :
    storageGetUnitAddressLimits (unitModules c) address length = .error .invalidParam ↔
      storageSize c < (address + length) % 2 ^ 32 := by
  unfold storageGetUnitAddressLimits
  rw [totalSize_stack, Nat.mod_eq_of_lt (storageSize_lt c), if_neg (Nat.ne_of_gt hl)]
  split
  · next h => exact iff_of_true rfl h
  · next h => exact iff_of_false (fun he => by cases he) h

theorem storage1Store_rejects {data : List UInt8} (s : Storage1.State)
    (h : Storage1.getSize c < (address + data.length) % 2 ^ 32) :
    Storage1.store c address data s = (.error .invalidParam, s) := by
  unfold Storage1.store
  exact Proc.failIf_bind_pos h _ _ s

theorem storage1Read_rejects (s : Storage1.State)
    (h : Storage1.getSize c < (address + length) % 2 ^ 32) :
    Storage1.read c address length s = (.error .invalidParam, s) := by
  unfold Storage1.read
  exact Proc.failIf_bind_pos h _ _ s

theorem eepromStore_rejects (inRam : Bool) {data : List UInt8} (s : Eeprom.State B)
    (h : eepromSize < (address + data.length) % 2 ^ 32) :
    eepromStore inRam address data s = (.error .invalidParam, s) := by
  unfold eepromStore
  exact Proc.failIf_bind_pos (Or.inl h) _ _ s

theorem eepromRead_rejects (inRam : Bool) (s : Eeprom.State B)
    (h : eepromSize < (address + length) % 2 ^ 32) :
    eepromRead inRam address length s = (.error .invalidParam, s) := by
  unfold eepromRead
  exact Proc.failIf_bind_pos (Or.inl h) _ _ s

theorem flashReadWords_rejects (inRam : Bool) (s : Storage1.State)
    (h : c.pageSizeWords * c.numPages < (address + length) % 2 ^ 32) :
    flashReadWords c inRam address length s = (.error .invalidParam, s) := by
  unfold flashReadWords
  cases inRam with
  | false => exact Proc.failIf_bind_pos rfl _ _ s
  | true =>
    rw [Proc.failIf_bind_neg (by decide)]
    exact Proc.failIf_bind_pos h _ _ s

theorem flashWords_le (c : Config) : c.pageSizeWords * c.numPages ≤ storageSize c := by
  unfold storageSize Storage1.getSize
  omega

/-! ## Requests that wrap around -/

/-- No module is found for an address behind the storage. -/
theorem splitLoop_far (address : Nat) (data : Option Nat) {sizes : List Nat}
    {tmpAddress tmpLength cumulated : Nat} (ht : tmpAddress < 2 ^ 32)
    (h : cumulated + sizes.sum ≤ tmpAddress) :
    ∀ p ∈ splitLoop address data sizes tmpAddress tmpLength cumulated, p.length = 0 := by
  induction sizes generalizing cumulated with
  | nil => exact List.forall_mem_nil _
  | cons size sizes ih =>
    rw [List.sum_cons] at h
    have hstop : (cumulated + size) % 2 ^ 32 = cumulated + size := Nat.mod_eq_of_lt (by omega)
    unfold splitLoop
    rw [hstop, if_neg (by omega)]
    exact List.forall_mem_cons.mpr ⟨rfl, ih (by omega)⟩

theorem forPieces_empty {σ β : Type} (act : StorageFunctions σ → Piece → β → Proc σ RetCode β)
    {ps : List Piece} (h : ∀ p ∈ ps, p.length = 0) (ms : List (StorageFunctions σ)) (b : β) :
    forPieces act ms ps b = pure b := by
  induction ps generalizing ms with
  | nil => cases ms <;> rfl
  | cons p ps ih =>
    obtain ⟨hp, hps⟩ := List.forall_mem_cons.mp h
    cases ms with
    | nil => rfl
    | cons m ms => rw [forPieces, if_pos hp, ih hps]

/-- The pieces of a request whose address is not in the storage are served at once. -/
theorem forPieces_far {σ β : Type} (act : StorageFunctions σ → Piece → β → Proc σ RetCode β)
    (ms : List (StorageFunctions σ)) (data : Option Nat) (b : β) (ha : address < 2 ^ 32)
    (h : (storageSizes ms).sum ≤ address) :
    forPieces act ms (storageSplitToStorageModules address data length (storageSizes ms)) b =
      pure b :=
  forPieces_empty act (splitLoop_far address data ha (by omega)) ms b

/-- A store that wraps around behind the storage stores nothing and reports success. -/
theorem storageStore_wraps (inRam : Bool) {data : List UInt8} (s : Stack B) (ha : address < 2 ^ 32)
    (hfar : storageSize c ≤ address) (hw : Wraps (storageSize c) address data.length) :
    storageStore (storageFunctions c B inRam) address data s = (.ok (), s) := by
  unfold storageStore
  have hpos : data.length ≠ 0 := by
    have := hw.1
    omega
  have hsum : (storageSizes (storageFunctions c B inRam)).sum ≤ address := hfar
  rw [storageGetSize_stack, Proc.failIf_bind_neg (Nat.not_lt.mpr hw.2), Proc.when_pos hpos,
    forPieces_far _ _ _ _ ha hsum]
  rfl

theorem storageRead_wraps (inRam : Bool) (buffer : Nat → UInt8) (s : Stack B)
    (ha : address < 2 ^ 32) (hfar : storageSize c ≤ address)
    (hw : Wraps (storageSize c) address length) :
    storageRead (storageFunctions c B inRam) address length buffer s = (.ok buffer, s) := by
  unfold storageRead
  have hpos : length ≠ 0 := by
    have := hw.1
    omega
  have hsum : (storageSizes (storageFunctions c B inRam)).sum ≤ address := hfar
  rw [storageGetSize_stack, Proc.failIf_bind_neg (Nat.not_lt.mpr hw.2), Proc.branch_neg hpos,
    forPieces_far _ _ _ _ ha hsum]
  rfl

theorem storageClear_wraps (inRam : Bool) (s : Stack B) (ha : address < 2 ^ 32)
    (hfar : storageSize c ≤ address) (hw : Wraps (storageSize c) address length) :
    storageClear (storageFunctions c B inRam) address length s = (.ok (), s) := by
  unfold storageClear
  have hpos : length ≠ 0 := by
    have := hw.1
    omega
  have hsum : (storageSizes (storageFunctions c B inRam)).sum ≤ address := hfar
  rw [storageGetSize_stack, Proc.failIf_bind_neg (Nat.not_lt.mpr hw.2), Proc.when_pos hpos,
    forPieces_far _ _ _ _ ha hsum]
  rfl

/-- Behind the flash a store that wraps around fails, but with `NRF_ERROR_INTERNAL`: the page
of the address is taken to be the first one. -/
theorem storage1Store_wraps {data : List UInt8} (s : Storage1.State) (ha : address < 2 ^ 32)
    (hfar : Storage1.getSize c < address) (hw : Wraps (Storage1.getSize c) address data.length) :
    Storage1.store c address data s = (.error .internal, s) := by
  have hunit : c.pageSizeWords * 4 ≤ Storage1.getSize c := by
    unfold Storage1.getSize
    exact Nat.mul_le_mul_right 4 (Nat.le_mul_of_pos_right _ c.numPages_pos)
  have hpos : data.length ≠ 0 := by
    have := hw.1
    omega
  unfold Storage1.store
  rw [Proc.failIf_bind_neg (Nat.not_lt.mpr hw.2), if_neg hpos, getPageAddress,
    if_pos (Nat.le_of_lt hfar)]
  apply Proc.failIf_bind_pos
  omega

/-- The flash is read behind its end. -/
theorem flashReadWords_wraps (s : Storage1.State)
    (hw : Wraps (c.pageSizeWords * c.numPages) address length) :
    ∃ words, flashReadWords c true address length s = (.ok words, s) := by
  unfold flashReadWords
  rw [Proc.failIf_bind_neg (by decide), Proc.failIf_bind_neg (Nat.not_lt.mpr hw.2)]
  exact ⟨_, rfl⟩

/-! The EEPROM -/

/-- The SPI library accepts the buffers of the EEPROM library. -/
def Addressable (B : Bus) : Prop :=
  (∀ tx s, (B.transmit tx s).1 ≠ .error .invalidAddr) ∧
    ∀ tx n s, (B.transmitReceive tx n s).1 ≠ .error .invalidAddr

/-- The procedure does not return `NRF_ERROR_INVALID_PARAM`. -/
def NotInvalid {α : Type} (x : Eeprom.M B α) : Prop := ∀ s, (x s).1 ≠ .error .invalidParam

section NotInvalid

variable {α β : Type} {x : Eeprom.M B α}

theorem NotInvalid.pure (a : α) : NotInvalid (B := B) (pure a) := fun _ h => by cases h

theorem NotInvalid.bind {f : α → Eeprom.M B β} (hx : NotInvalid x) (hf : ∀ a, NotInvalid (f a)) :
    NotInvalid (x >>= f) := by
  intro s
  rcases hr : x s with ⟨r, t⟩
  cases r with
  | error e =>
    have he := hx s
    rw [hr] at he
    rw [Proc.bind_error hr]
    exact fun h => he (by cases h; rfl)
  | ok a =>
    rw [Proc.bind_ok hr]
    exact hf a t

theorem NotInvalid.when {p : Prop} [Decidable p] {x : Eeprom.M B Unit} (hx : NotInvalid x) :
    NotInvalid (Proc.when p x) := by
  by_cases hp : p
  · rwa [Proc.when_pos hp]
  · rw [Proc.when_neg hp]
    exact .pure ()

theorem NotInvalid.spi {x : Proc B.State SpiError α} {code : SpiError → RetCode}
    (h : ∀ s e, (x s).1 = .error e → code e ≠ .invalidParam) : NotInvalid (Eeprom.spi x code) := by
  intro s
  unfold Eeprom.spi
  split
  · intro he
    cases he
  · next e t hr =>
    exact fun he => h s.spi e (by rw [hr]) (Except.error.inj he)

theorem NotInvalid.resetOnError (hx : NotInvalid x) : NotInvalid (resetOnError x) := by
  intro s
  have h := hx s
  unfold Eeprom.resetOnError
  split
  · intro he
    cases he
  · next e t hr =>
    rw [hr] at h
    intro he
    apply h
    cases he
    rfl

theorem NotInvalid.modify (f : Eeprom.State B → Eeprom.State B) :
    NotInvalid (Proc.modify f : Eeprom.M B Unit) := fun _ h => by cases h

theorem NotInvalid.failBusy (p : Prop) [Decidable p] :
    NotInvalid (Proc.failIf p .busy : Eeprom.M B Unit) := by
  intro s
  unfold Proc.failIf
  split <;> exact fun h => by cases h

theorem NotInvalid.attempt (x : Eeprom.M B α) :
    NotInvalid (Proc.attempt x : Eeprom.M B (Except RetCode α)) := fun _ h => by cases h

theorem eepromIsBusy_notInvalid : NotInvalid (eepromIsBusy : Eeprom.M B Bool) := by
  unfold eepromIsBusy
  apply NotInvalid.bind (.attempt _)
  intro r
  cases r with
  | error e => exact .pure _
  | ok status => exact .pure _

theorem eepromGetOperation_notInvalid :
    NotInvalid (eepromGetOperation : Eeprom.M B Operation) := by
  unfold eepromGetOperation
  exact eepromIsBusy_notInvalid.bind fun _ => (NotInvalid.modify _).bind fun _ =>
    fun _ h => by cases h

theorem pollLoop_notInvalid (n : Nat) : NotInvalid (pollLoop n : Eeprom.M B Unit) := by
  induction n with
  | zero => exact eepromGetOperation_notInvalid.bind fun _ => .pure _
  | succ n ih => exact eepromGetOperation_notInvalid.bind fun _ => ih.when

theorem awaitOperation_notInvalid : NotInvalid (awaitOperation : Eeprom.M B Unit) := by
  unfold awaitOperation
  have hend : NotInvalid (do setOperation .none; Proc.fail .timeout : Eeprom.M B Unit) :=
    (NotInvalid.modify _).bind fun _ _ h => by cases h
  have hget : NotInvalid (Proc.get : Eeprom.M B (Eeprom.State B)) := fun _ h => by cases h
  exact hget.bind fun _ => (pollLoop_notInvalid _).bind fun _ =>
    eepromGetOperation_notInvalid.bind fun _ => hend.when

theorem eepromWriteEnable_notInvalid : NotInvalid (eepromWriteEnable : Eeprom.M B Unit) := by
  unfold eepromWriteEnable
  have hspi : NotInvalid (spi (B.transmit [cmdWren]) toBusy) := .spi fun _ _ _ h => by cases h
  exact hspi.bind fun _ => awaitOperation_notInvalid

theorem toInvalidParam_ne {e : SpiError} (h : e ≠ .invalidAddr) :
    toInvalidParam e ≠ .invalidParam := by
  cases e with
  | busy => decide
  | invalidAddr => exact absurd rfl h

theorem storeLoop_notInvalid (hB : Addressable B) (address addressOffset : Nat)
    (txData : List UInt8) :
    NotInvalid (storeLoop address addressOffset txData : Eeprom.M B Unit) := by
  induction hn : txData.length using Nat.strongRecOn generalizing addressOffset txData with
  | _ n ih =>
    subst hn
    rw [storeLoop]
    split
    · exact .pure ()
    · next hne =>
      have hl := List.length_pos_iff.mpr hne
      have hstep := stepLen_pos (address + addressOffset) hl
      have htransmit (tx : List UInt8) : NotInvalid (spi (B.transmit tx) toInvalidParam) :=
        .spi fun s e he => toInvalidParam_ne fun hi => hB.1 tx s (hi ▸ he)
      have hlt : (txData.drop (stepLen ((address + addressOffset) % 2 ^ 32) txData.length)).length <
          txData.length := by
        rw [List.length_drop]
        omega
      have hrest := ih _ hlt (addressOffset + stepLen ((address + addressOffset) % 2 ^ 32)
        txData.length) _ rfl
      exact (NotInvalid.modify _).bind fun _ =>
        eepromWriteEnable_notInvalid.resetOnError.bind fun _ =>
          (htransmit _).resetOnError.bind fun _ => awaitOperation_notInvalid.bind fun _ => hrest

theorem readLoop_notInvalid (hB : Addressable B) (address addressOffset length : Nat) :
    NotInvalid (readLoop address addressOffset length : Eeprom.M B (List UInt8)) := by
  induction length using Nat.strongRecOn generalizing addressOffset with
  | _ length ih =>
    rw [readLoop]
    split
    · exact .pure []
    · next hne =>
      have hstep := stepLen_pos (address + addressOffset) (Nat.pos_of_ne_zero hne)
      have hreceive (tx : List UInt8) (n : Nat) :
          NotInvalid (spi (B.transmitReceive tx n) toInvalidParam) :=
        .spi fun s e he => toInvalidParam_ne fun hi => hB.2 tx n s (hi ▸ he)
      have hrest := ih (length - stepLen ((address + addressOffset) % 2 ^ 32) length) (by omega)
        (addressOffset + stepLen ((address + addressOffset) % 2 ^ 32) length)
      exact (NotInvalid.modify _).bind fun _ => (hreceive _ _).resetOnError.bind fun _ =>
        awaitOperation_notInvalid.bind fun _ => hrest.bind fun _ => .pure _

end NotInvalid

/-- The EEPROM is accessed: the result is never that of the range check. -/
theorem eepromStore_wraps (hB : Addressable B) {data : List UInt8} (s : Eeprom.State B)
    (hw : Wraps eepromSize address data.length) :
    (eepromStore true address data s).1 ≠ .error .invalidParam := by
  have hcheck : ¬ (eepromSize < (address + data.length) % 2 ^ 32 ∨ true = false) := by
    simpa using hw.2
  have hrest : NotInvalid (do
      let operation ← eepromGetOperation
      Proc.failIf (operation ≠ .none) .busy
      storeLoop address 0 data : Eeprom.M B Unit) :=
    eepromGetOperation_notInvalid.bind fun _ => (NotInvalid.failBusy _).bind fun _ =>
      storeLoop_notInvalid hB address 0 data
  unfold eepromStore
  rw [Proc.failIf_bind_neg hcheck]
  exact hrest s

theorem eepromRead_wraps (hB : Addressable B) (s : Eeprom.State B)
    (hw : Wraps eepromSize address length) :
    (eepromRead true address length s).1 ≠ .error .invalidParam := by
  have hcheck : ¬ (eepromSize < (address + length) % 2 ^ 32 ∨ true = false) := by
    simpa using hw.2
  have hrest : NotInvalid (do
      let operation ← eepromGetOperation
      Proc.failIf (operation ≠ .none) .busy
      readLoop address 0 length : Eeprom.M B (List UInt8)) :=
    eepromGetOperation_notInvalid.bind fun _ => (NotInvalid.failBusy _).bind fun _ =>
      readLoop_notInvalid hB address 0 length
  unfold eepromRead
  rw [Proc.failIf_bind_neg hcheck]
  exact hrest s

end Checks

/-- All requests out of range are rejected, unless the sum of address and length wraps around
into the storage. -/
theorem rejects_outside_iff (c : Config) (B : Bus) (address length : Nat) (ha : address < 2 ^ 32) :
    RejectsOutside c B address length ↔ ¬ Wraps (storageSize c) address length := by
  constructor
  · intro h hw
    have hpos : 0 < length := by
      have := hw.1
      omega
    have hout : storageSize c < address + length :=
      Nat.lt_of_lt_of_le (storageSize_lt c) hw.1
    have hlt := (unitAddressLimits_rejects_iff hpos).mp (h.storageGetUnitAddressLimits hout)
    exact Nat.not_lt.mpr hw.2 hlt
  · intro hw
    have hflash : Storage1.getSize c ≤ storageSize c := Nat.le_add_left _ _
    have heeprom : eepromSize ≤ storageSize c := Nat.le_add_right _ _
    exact {
      storageStore := fun h inRam data s hd =>
        storageStore_rejects inRam s (hd ▸ check_of_not_wraps hw (Nat.le_refl _) h)
      storageRead := fun h inRam buffer s =>
        storageRead_rejects inRam buffer s (check_of_not_wraps hw (Nat.le_refl _) h)
      storageClear := fun h inRam s => storageClear_rejects inRam s (check_of_not_wraps hw (Nat.le_refl _) h)
      storageGetUnitAddressLimits := fun h => by
        unfold storageGetUnitAddressLimits
        rw [totalSize_stack, Nat.mod_eq_of_lt (storageSize_lt c),
          if_pos (check_of_not_wraps hw (Nat.le_refl _) h)]
      storage1Store := fun h data s hd =>
        storage1Store_rejects s (hd ▸ check_of_not_wraps hw hflash h)
      storage1Read := fun h s => storage1Read_rejects s (check_of_not_wraps hw hflash h)
      eepromStore := fun h inRam data s hd =>
        eepromStore_rejects inRam s (hd ▸ check_of_not_wraps hw heeprom h)
      eepromRead := fun h inRam s => eepromRead_rejects inRam s (check_of_not_wraps hw heeprom h)
      flashRead := fun _ h inRam s =>
        flashReadWords_rejects inRam s (check_of_not_wraps hw (flashWords_le c) h) }

/-- An SPI interface that accepts everything and reads zeros. -/
def idleBus : Bus where
  State := Unit
  transmit := fun _ => pure ()
  transmitReceive := fun _ n => pure (List.replicate n 0)
  polls := fun _ => 1

theorem rejects_outside_iff_top :
    0xFFFFFFF0 < 2 ^ 32 ∧ (RejectsOutside nrf51 idleBus 0xFFFFFFF0 8 ↔
      ¬ Wraps (storageSize nrf51) 0xFFFFFFF0 8) :=
  ⟨by decide, rejects_outside_iff nrf51 idleBus 0xFFFFFFF0 8 (by decide)⟩

/-- The EEPROM at rest and blank flash. -/
def blankStack : Stack idleBus where
  eeprom := { spi := (), operation := .none }
  flash :=
    { cells := fun _ _ => 0xFF, fault := fun _ => none, calls := 0, lastStored := [],
      initDone := true }

/-- Two bytes at the last 32-bit address: the store reports success. -/
theorem wrapped_store_succeeds :
    ¬ ∀ (c : Config) (B : Bus) (address length : Nat), address < 2 ^ 32 → length < 2 ^ 32 →
      RejectsOutside c B address length := by
  intro h
  have hr := h nrf51 idleBus 0xFFFFFFFF 2 (by decide) (by decide)
  have hstore := hr.storageStore (by decide) true [1, 2] blankStack rfl
  have hwraps : Wraps (storageSize nrf51) 0xFFFFFFFF [(1 : UInt8), 2].length := by decide
  rw [storageStore_wraps true blankStack (by decide) (by decide) hwraps] at hstore
  cases hstore

end OpenBadge.StorageLib
