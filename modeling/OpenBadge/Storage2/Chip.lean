import OpenBadge.Lib.Bytes
import OpenBadge.Storage2.Pages

/-!
# The EEPROM behind the bus

What the EEPROM does with the transfers that reach it, and what a store and a read make of it.
A transmission with the write command takes effect while the EEPROM is idle and writing is
enabled, and only inside one page.
-/

namespace OpenBadge.Eeprom

open OpenBadge.Lib

/-- Every SPI transfer succeeds. -/
structure Bus.Succeeds (B : Bus) : Prop where
  transmit : ∀ tx s, (B.transmit tx s).1 = .ok ()
  transmitReceive : ∀ tx n s, ∃ rx, (B.transmitReceive tx n s).1 = .ok rx

/-- The bit of the status register that is set as long as the EEPROM writes. -/
def writeInProgress (rx : List UInt8) : Prop := rx.getD 1 0x01 &&& 0x01 ≠ 0

instance (rx : List UInt8) : Decidable (writeInProgress rx) :=
  inferInstanceAs (Decidable (rx.getD 1 0x01 &&& 0x01 ≠ 0))

/-- The cells of the EEPROM and the transfers that address them by the 24-bit address of their
header. -/
structure Chip (B : Bus) where
  cells : B.State → Nat → UInt8
  Idle : B.State → Prop
  WriteEnabled : B.State → Prop
  wren : ∀ {s t}, Idle s → B.transmit [cmdWren] s = (.ok (), t) →
    cells t = cells s ∧ WriteEnabled t
  rdsr : ∀ {s t rx}, B.transmitReceive [cmdRdsr] 2 s = (.ok rx, t) →
    cells t = cells s ∧ (WriteEnabled s → WriteEnabled t) ∧ (¬ writeInProgress rx → Idle t)
  write : ∀ {s t a₂ a₁ a₀ data}, Idle s → WriteEnabled s →
    (SpiCall.transmit (cmdWrite :: a₂ :: a₁ :: a₀ :: data)).Fits →
    address24 a₂ a₁ a₀ + data.length ≤ eepromSize →
    B.transmit (cmdWrite :: a₂ :: a₁ :: a₀ :: data) s = (.ok (), t) →
    cells t = overwrite (cells s) (address24 a₂ a₁ a₀) data
  read : ∀ {s t a₂ a₁ a₀ n rx}, Idle s →
    (SpiCall.transmitReceive [cmdRead, a₂, a₁, a₀] (4 + n)).Fits →
    address24 a₂ a₁ a₀ + n ≤ eepromSize →
    B.transmitReceive [cmdRead, a₂, a₁, a₀] (4 + n) s = (.ok rx, t) →
    cells t = cells s ∧ (rx.drop 4).take n = slice (cells s) (address24 a₂ a₁ a₀) n

variable {B : Bus} {C : Chip B} {s t u : State B}

/-- A transmission with the header that the code writes. -/
theorem Chip.write_header (C : Chip B) {v w : B.State} {address : Nat} {data : List UInt8}
    (hidle : C.Idle v) (henabled : C.WriteEnabled v) (hlt : address < eepromSize)
    (hpage : address % pageSize + data.length ≤ pageSize)
    (hroom : address + data.length ≤ eepromSize)
    (h : B.transmit (header cmdWrite address ++ data) v = (.ok (), w)) :
    C.cells w = overwrite (C.cells v) address data := by
  have h24 := lt_two_pow_24 hlt
  have haddress := address24_header h24
  have hwrite := C.write hidle henabled (SpiCall.fits_write h24 hpage) (by rwa [haddress]) h
  rwa [haddress] at hwrite

theorem Chip.read_header (C : Chip B) {v w : B.State} {address n : Nat} {rx : List UInt8}
    (hidle : C.Idle v) (hlt : address < eepromSize) (hpage : address % pageSize + n ≤ pageSize)
    (hroom : address + n ≤ eepromSize)
    (h : B.transmitReceive (header cmdRead address) (4 + n) v = (.ok rx, w)) :
    C.cells w = C.cells v ∧ (rx.drop 4).take n = slice (C.cells v) address n := by
  have h24 := lt_two_pow_24 hlt
  have haddress := address24_header h24
  have hread := C.read hidle (SpiCall.fits_read h24 hpage) (by rwa [haddress]) h
  rwa [haddress] at hread

/-! ## One status register read -/

/-- The operation after a read of the status register. -/
def polledOperation (rx : List UInt8) (operation : Operation) : Operation :=
  if writeInProgress rx then if operation = .none then .store else operation else .none

theorem polledOperation_eq_none {rx : List UInt8} {operation : Operation} :
    polledOperation rx operation = .none ↔ ¬ writeInProgress rx := by
  rw [polledOperation]
  by_cases h : writeInProgress rx
  · by_cases ho : operation = .none
    · simp [h, ho]
    · simp [h, ho]
  · simp [h]

theorem spi_ok {α : Type} {x : Proc B.State SpiError α} {code : SpiError → RetCode} {b : α}
    {w : B.State} (h : x s.spi = (.ok b, w)) : spi x code s = (.ok b, { s with spi := w }) := by
  rw [spi, h]

theorem spi_eq_ok {α : Type} {x : Proc B.State SpiError α} {code : SpiError → RetCode} {b : α}
    (h : spi x code s = (.ok b, t)) : x s.spi = (.ok b, t.spi) := by
  rw [spi] at h
  rcases hx : x s.spi with ⟨e | c, w⟩
  · rw [hx] at h
    cases h
  · rw [hx] at h
    cases h
    rfl

theorem resetOnError_eq_ok {α : Type} {x : M B α} {b : α} (h : resetOnError x s = (.ok b, t)) :
    x s = (.ok b, t) := by
  rw [resetOnError] at h
  rcases hx : x s with ⟨e | c, w⟩
  · rw [hx] at h
    cases h
  · rw [hx] at h
    exact h

theorem eepromGetOperation_eq {rx : List UInt8} {w : B.State}
    (h : B.transmitReceive [cmdRdsr] 2 s.spi = (.ok rx, w)) :
    eepromGetOperation s =
      (.ok (polledOperation rx s.operation), ⟨w, polledOperation rx s.operation⟩) := by
  have hstatus : eepromReadStatus s = (.ok (rx.getD 1 0x01), { s with spi := w }) :=
    Proc.bind_ok (spi_ok h) _
  have hbusy : eepromIsBusy s = (.ok (decide (writeInProgress rx)), { s with spi := w }) := by
    rw [eepromIsBusy, Proc.attempt_bind_apply, hstatus]
    rfl
  rw [eepromGetOperation, Proc.bind_ok hbusy, Proc.modify_bind_apply, Proc.get_bind_apply,
    polledOperation]
  simp only [decide_eq_true_eq]
  rfl

/-! ## Waiting -/

/-- The cells are as before, and writing is still enabled if it was. -/
structure Chip.Waited (C : Chip B) (s t : State B) : Prop where
  cells_eq : C.cells t.spi = C.cells s.spi
  enabled : C.WriteEnabled s.spi → C.WriteEnabled t.spi

theorem Chip.Waited.trans (h : C.Waited s t) (h' : C.Waited t u) : C.Waited s u :=
  ⟨h'.cells_eq.trans h.cells_eq, fun he => h'.enabled (h.enabled he)⟩

theorem eepromGetOperation_waited (hB : B.Succeeds) (C : Chip B) (s : State B) :
    ∃ operation t, eepromGetOperation s = (.ok operation, t) ∧ C.Waited s t ∧
      (operation = .none → C.Idle t.spi) := by
  obtain ⟨rx, hrx⟩ := hB.transmitReceive [cmdRdsr] 2 s.spi
  have hcall := Proc.eq_of_fst hrx
  obtain ⟨hcells, henabled, hidle⟩ := C.rdsr hcall
  exact ⟨_, _, eepromGetOperation_eq hcall, ⟨hcells, henabled⟩,
    fun h => hidle (polledOperation_eq_none.mp h)⟩

theorem pollLoop_waited (hB : B.Succeeds) (C : Chip B) (polls : Nat) :
    ∀ s : State B, ∃ t, pollLoop polls s = (.ok (), t) ∧ C.Waited s t := by
  induction polls with
  | zero =>
    intro s
    obtain ⟨operation, t, hget, hwaited, -⟩ := eepromGetOperation_waited hB C s
    exact ⟨t, Proc.bind_ok hget _, hwaited⟩
  | succ polls ih =>
    intro s
    obtain ⟨operation, t, hget, hwaited, -⟩ := eepromGetOperation_waited hB C s
    rw [pollLoop, Proc.bind_ok hget]
    by_cases ho : operation = .none
    · rw [Proc.when_neg (not_not.mpr ho)]
      exact ⟨t, rfl, hwaited⟩
    · obtain ⟨u, hloop, hwaited'⟩ := ih t
      rw [Proc.when_pos ho]
      exact ⟨u, hloop, hwaited.trans hwaited'⟩

/-- After a wait that succeeds, the EEPROM takes the next command. -/
theorem awaitOperation_waited (hB : B.Succeeds) (C : Chip B)
    (h : awaitOperation s = (.ok (), t)) : C.Waited s t ∧ C.Idle t.spi := by
  rw [awaitOperation, Proc.get_bind_apply] at h
  obtain ⟨v, hloop, hwaited⟩ := pollLoop_waited hB C (B.polls s.spi) s
  obtain ⟨operation, w, hget, hwaited', hidle⟩ := eepromGetOperation_waited hB C v
  rw [Proc.bind_ok hloop, Proc.bind_ok hget] at h
  by_cases ho : operation = .none
  · rw [Proc.when_neg (not_not.mpr ho)] at h
    cases h
    exact ⟨hwaited.trans hwaited', hidle ho⟩
  · rw [Proc.when_pos ho] at h
    cases h

theorem eepromWriteEnable_enables (hB : B.Succeeds) (C : Chip B) (hidle : C.Idle s.spi)
    (h : eepromWriteEnable s = (.ok (), t)) :
    C.cells t.spi = C.cells s.spi ∧ C.WriteEnabled t.spi ∧ C.Idle t.spi := by
  obtain ⟨_, v, hspi, hawait⟩ := Proc.bind_eq_ok.mp h
  obtain ⟨hcells, henabled⟩ := C.wren hidle (spi_eq_ok hspi)
  obtain ⟨hwaited, hidle'⟩ := awaitOperation_waited hB C hawait
  exact ⟨hwaited.cells_eq.trans hcells, hwaited.enabled henabled, hidle'⟩

/-! ## The loops -/

/-- The bytes are stored one page after the other, each at the cells behind the last one. -/
theorem storeLoop_stores (hB : B.Succeeds) (C : Chip B) {address offset : Nat}
    {data : List UInt8} (hroom : address + offset + data.length ≤ eepromSize)
    (hidle : C.Idle s.spi) (h : storeLoop address offset data s = (.ok (), t)) :
    C.cells t.spi = overwrite (C.cells s.spi) (address + offset) data ∧ C.Idle t.spi := by
  induction hn : data.length using Nat.strongRecOn generalizing offset data s with
  | _ n ih =>
    subst hn
    rw [storeLoop] at h
    split at h
    · next hnil =>
      cases h
      rw [hnil, overwrite_nil]
      exact ⟨rfl, hidle⟩
    · next hne =>
      have hl := List.length_pos_iff.mpr hne
      have hlt : address + offset < eepromSize := by omega
      have hpos : 0 < stepLen (address + offset) data.length := by
        have hpos := stepLen_pos (address + offset) hl
        rwa [tmpAddress_eq hlt] at hpos
      have hle := stepLen_le (address + offset) data.length
      have hpage := stepLen_in_page hlt data.length
      dsimp only at h
      rw [tmpAddress_eq hlt] at h
      generalize stepLen (address + offset) data.length = step at hpos hle hpage h
      have htake : (data.take step).length = step := by
        rw [List.length_take, Nat.min_eq_left hle]
      have hdrop : (data.drop step).length = data.length - step := List.length_drop
      obtain ⟨_, s₁, hset, h₁⟩ := Proc.bind_eq_ok.mp h
      obtain ⟨_, s₂, henable, h₂⟩ := Proc.bind_eq_ok.mp h₁
      obtain ⟨_, s₃, htransmit, h₃⟩ := Proc.bind_eq_ok.mp h₂
      obtain ⟨_, s₄, hawait, hrest⟩ := Proc.bind_eq_ok.mp h₃
      have hspi : s₁.spi = s.spi := by
        cases hset
        rfl
      obtain ⟨hcells, henabled, hidle'⟩ :=
        eepromWriteEnable_enables hB C (hspi ▸ hidle) (resetOnError_eq_ok henable)
      have hstored := C.write_header hidle' henabled hlt (by rwa [htake]) (by omega)
        (spi_eq_ok (resetOnError_eq_ok htransmit))
      obtain ⟨hwaited, hidle''⟩ := awaitOperation_waited hB C hawait
      have hbound : address + (offset + step) + (data.drop step).length ≤ eepromSize := by omega
      obtain ⟨hlast, hend⟩ := ih (data.length - step) (by omega) hbound hidle'' hrest hdrop
      refine ⟨?_, hend⟩
      have hjoin := overwrite_append (C.cells s.spi) (address + offset) (data.take step)
        (data.drop step)
      rw [List.take_append_drop, htake] at hjoin
      rw [hlast, hwaited.cells_eq, hstored, hcells, hspi, ← Nat.add_assoc, hjoin]

theorem readLoop_fetches (hB : B.Succeeds) (C : Chip B) {address offset length : Nat}
    {data : List UInt8} (hroom : address + offset + length ≤ eepromSize)
    (hidle : C.Idle s.spi) (h : readLoop address offset length s = (.ok data, t)) :
    data = slice (C.cells s.spi) (address + offset) length := by
  induction length using Nat.strongRecOn generalizing offset data s t with
  | _ length ih =>
    rw [readLoop] at h
    split at h
    · next hzero =>
      cases h
      rw [hzero, slice_zero]
    · next hne =>
      have hlt : address + offset < eepromSize := by omega
      have hpos : 0 < stepLen (address + offset) length := by
        have hpos := stepLen_pos (address + offset) (Nat.pos_of_ne_zero hne)
        rwa [tmpAddress_eq hlt] at hpos
      have hle := stepLen_le (address + offset) length
      have hpage := stepLen_in_page hlt length
      dsimp only at h
      rw [tmpAddress_eq hlt] at h
      generalize stepLen (address + offset) length = step at hpos hle hpage h
      obtain ⟨_, s₁, hset, h₁⟩ := Proc.bind_eq_ok.mp h
      obtain ⟨rx, s₂, hreceive, h₂⟩ := Proc.bind_eq_ok.mp h₁
      obtain ⟨_, s₃, hawait, h₃⟩ := Proc.bind_eq_ok.mp h₂
      obtain ⟨rest, s₄, hrest, hend⟩ := Proc.bind_eq_ok.mp h₃
      have hspi : s₁.spi = s.spi := by
        cases hset
        rfl
      obtain ⟨hcells, hfetched⟩ := C.read_header (hspi ▸ hidle) hlt hpage (by omega)
        (spi_eq_ok (resetOnError_eq_ok hreceive))
      obtain ⟨hwaited, hidle'⟩ := awaitOperation_waited hB C hawait
      have hbound : address + (offset + step) + (length - step) ≤ eepromSize := by omega
      have hlast := ih (length - step) (by omega) hbound hidle' hrest
      cases hend
      rw [hfetched, hlast, hwaited.cells_eq, hcells, hspi, ← Nat.add_assoc, ← slice_add,
        Nat.add_sub_cancel' hle]

/-! ## Store and read -/

theorem eepromStore_stores (hB : B.Succeeds) (C : Chip B) {address : Nat} {data : List UInt8}
    (hroom : address + data.length ≤ eepromSize) {inRam : Bool}
    (h : eepromStore inRam address data s = (.ok (), t)) :
    C.cells t.spi = overwrite (C.cells s.spi) address data := by
  obtain ⟨_, s₁, hcheck, h₁⟩ := Proc.bind_eq_ok.mp h
  rw [(Proc.failIf_eq_ok.mp hcheck).2] at h₁
  obtain ⟨operation, s₂, hget, hwaited, hidle⟩ := eepromGetOperation_waited hB C s
  rw [Proc.bind_ok hget] at h₁
  obtain ⟨_, s₃, hfree, hloop⟩ := Proc.bind_eq_ok.mp h₁
  obtain ⟨hnone, rfl⟩ := Proc.failIf_eq_ok.mp hfree
  rw [(storeLoop_stores hB C hroom (hidle (not_not.mp hnone)) hloop).1, hwaited.cells_eq,
    Nat.add_zero]

theorem eepromRead_fetches (hB : B.Succeeds) (C : Chip B) {address length : Nat}
    {data : List UInt8} (hroom : address + length ≤ eepromSize) {inRam : Bool}
    (h : eepromRead inRam address length s = (.ok data, t)) :
    data = slice (C.cells s.spi) address length := by
  obtain ⟨_, s₁, hcheck, h₁⟩ := Proc.bind_eq_ok.mp h
  rw [(Proc.failIf_eq_ok.mp hcheck).2] at h₁
  obtain ⟨operation, s₂, hget, hwaited, hidle⟩ := eepromGetOperation_waited hB C s
  rw [Proc.bind_ok hget] at h₁
  obtain ⟨_, s₃, hfree, hloop⟩ := Proc.bind_eq_ok.mp h₁
  obtain ⟨hnone, rfl⟩ := Proc.failIf_eq_ok.mp hfree
  rw [readLoop_fetches hB C hroom (hidle (not_not.mp hnone)) hloop, hwaited.cells_eq,
    Nat.add_zero]

end OpenBadge.Eeprom
