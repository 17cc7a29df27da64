import OpenBadge.Lib.Covers
import OpenBadge.Storage2.Eeprom

/-!
# The transfers of a store and of a read

The bus keeps a list of the calls of the SPI library. A store and a read are seen as the cells
that their transfers address: one page at a time, from the first cell of the range to the last.
-/

namespace OpenBadge.Eeprom

open OpenBadge.Lib

/-- A call of `spi_transmit` or `spi_transmit_receive`. -/
inductive SpiCall where
  | transmit (tx : List UInt8)
  | transmitReceive (tx : List UInt8) (rxLength : Nat)

/-- The bus together with the calls it has received. -/
def Bus.traced (B : Bus) : Bus where
  State := B.State × List SpiCall
  transmit tx := fun s =>
    ((B.transmit tx s.1).1, (B.transmit tx s.1).2, s.2 ++ [.transmit tx])
  transmitReceive tx rxLength := fun s =>
    ((B.transmitReceive tx rxLength s.1).1, (B.transmitReceive tx rxLength s.1).2,
      s.2 ++ [.transmitReceive tx rxLength])
  polls s := B.polls s.1

/-- The address that the three bytes behind the command name. -/
def address24 (a₂ a₁ a₀ : UInt8) : Nat := a₂.toNat * 2 ^ 16 + a₁.toNat * 2 ^ 8 + a₀.toNat

theorem address24_header {address : Nat} (h : address < 2 ^ 24) :
    address24 (UInt8.ofNat (address / 2 ^ 16)) (UInt8.ofNat (address / 2 ^ 8))
      (UInt8.ofNat address) = address := by
  rw [address24, UInt8.toNat_ofNat', UInt8.toNat_ofNat', UInt8.toNat_ofNat']
  simp only [Nat.reducePow] at h ⊢
  omega

namespace SpiCall

/-- The cells that a transfer stores to or fetches from. -/
def cells : SpiCall → List Nat
  | .transmit (cmd :: a₂ :: a₁ :: a₀ :: data) =>
    if cmd = cmdWrite then List.range' (address24 a₂ a₁ a₀) data.length else []
  | .transmitReceive [cmd, a₂, a₁, a₀] rxLength =>
    if cmd = cmdRead then List.range' (address24 a₂ a₁ a₀) (rxLength - 4) else []
  | _ => []

/-- The bytes that the buffers of a transfer hold. -/
def length : SpiCall → Nat
  | .transmit tx => tx.length
  | .transmitReceive tx rxLength => max tx.length rxLength

/-- The transfer stays in one page, and in `eeprom_buf`. -/
structure Fits (call : SpiCall) : Prop where
  one_page : ∀ x ∈ call.cells, ∀ y ∈ call.cells, x / pageSize = y / pageSize
  in_buf : call.length ≤ pageSize + 4

theorem cells_write {address : Nat} (h : address < 2 ^ 24) (data : List UInt8) :
    (transmit (header cmdWrite address ++ data)).cells = List.range' address data.length := by
  simp only [header, List.cons_append, List.nil_append, cells, if_true]
  rw [address24_header h]

theorem cells_read {address : Nat} (h : address < 2 ^ 24) (n : Nat) :
    (transmitReceive (header cmdRead address) (4 + n)).cells = List.range' address n := by
  simp only [header, cells, if_true]
  rw [address24_header h, Nat.add_sub_cancel_left]

theorem one_page_range {a n : Nat} (h : a % pageSize + n ≤ pageSize) :
    ∀ x ∈ List.range' a n, ∀ y ∈ List.range' a n, x / pageSize = y / pageSize := by
  intro x hx y hy
  rw [List.mem_range'_1] at hx hy
  rw [pageSize] at h ⊢
  omega

theorem fits_write {address : Nat} {data : List UInt8} (h : address < 2 ^ 24)
    (hpage : address % pageSize + data.length ≤ pageSize) :
    (transmit (header cmdWrite address ++ data)).Fits := by
  constructor
  · rw [cells_write h]
    exact one_page_range hpage
  · rw [length, List.length_append]
    change 4 + data.length ≤ pageSize + 4
    omega

theorem fits_read {address n : Nat} (h : address < 2 ^ 24)
    (hpage : address % pageSize + n ≤ pageSize) :
    (transmitReceive (header cmdRead address) (4 + n)).Fits := by
  constructor
  · rw [cells_read h]
    exact one_page_range hpage
  · change max 4 (4 + n) ≤ pageSize + 4
    omega

theorem fits_wren : (transmit [cmdWren]).Fits :=
  ⟨fun _ hx => absurd hx List.not_mem_nil, by decide⟩

theorem fits_rdsr : (transmitReceive [cmdRdsr] 2).Fits :=
  ⟨fun _ hx => absurd hx List.not_mem_nil, by decide⟩

end SpiCall

/-! ## The length of a step -/

theorem stepLen_eq {a : Nat} (h : a < eepromSize) (n : Nat) :
    stepLen a n = min n (pageSize - a % pageSize) := by
  rw [eepromSize] at h
  unfold stepLen pageSize
  simp only [Nat.reducePow, Nat.reduceMul] at h ⊢
  omega

theorem stepLen_le (a n : Nat) : stepLen a n ≤ n := Nat.min_le_left n _

theorem stepLen_in_page {a : Nat} (h : a < eepromSize) (n : Nat) :
    a % pageSize + stepLen a n ≤ pageSize := by
  rw [stepLen_eq h, pageSize]
  omega

/-- The address of a step inside the EEPROM does not wrap around. -/
theorem tmpAddress_eq {address offset : Nat} (h : address + offset < eepromSize) :
    (address + offset) % 2 ^ 32 = address + offset := by
  rw [eepromSize] at h
  apply Nat.mod_eq_of_lt
  simp only [Nat.reducePow, Nat.reduceMul] at h ⊢
  omega

theorem lt_two_pow_24 {address : Nat} (h : address < eepromSize) : address < 2 ^ 24 := by
  rw [eepromSize] at h
  simp only [Nat.reducePow, Nat.reduceMul] at h ⊢
  omega

/-! ## The transfers -/

variable {B : Bus} {α : Type} {a n : Nat}

/-- The transfers of a run, by the cells they address. -/
def transfers (B : Bus) : Proc.Log (State B.traced) SpiCall where
  emitted s := s.spi.2
  positions := SpiCall.cells
  Fine := SpiCall.Fits

theorem spi_snd (x : Proc B.State SpiError α) (code : SpiError → RetCode) (s : State B) :
    (spi x code s).2 = { s with spi := (x s.spi).2 } := by
  rw [spi]
  rcases x s.spi with ⟨_ | _, _⟩ <;> rfl

theorem transmit_covers {tx : List UInt8} (hcells : (SpiCall.transmit tx).cells = List.range' a n)
    (hfits : (SpiCall.transmit tx).Fits) (code : SpiError → RetCode) :
    Proc.Covers (transfers B) (spi (B.traced.transmit tx) code) a n := by
  refine Proc.Covers.emit (fun s => ?_) hcells hfits
  rw [spi_snd]
  rfl

theorem transmitReceive_covers {tx : List UInt8} {rxLength : Nat}
    (hcells : (SpiCall.transmitReceive tx rxLength).cells = List.range' a n)
    (hfits : (SpiCall.transmitReceive tx rxLength).Fits) (code : SpiError → RetCode) :
    Proc.Covers (transfers B) (spi (B.traced.transmitReceive tx rxLength) code) a n := by
  refine Proc.Covers.emit (fun s => ?_) hcells hfits
  rw [spi_snd]
  rfl

theorem resetOnError_covers {x : M B.traced α} (hx : Proc.Covers (transfers B) x a n) :
    Proc.Covers (transfers B) (resetOnError x) a n := by
  intro s
  obtain ⟨k, hk, pieces, hlog, hcover, hfine, hall⟩ := hx s
  rw [resetOnError]
  rcases hrun : x s with ⟨e | b, t⟩
  · rw [hrun] at hlog
    refine ⟨k, hk, pieces, hlog, hcover, hfine, fun b hb => ?_⟩
    cases hb
  · rw [hrun] at hlog hall
    exact ⟨k, hk, pieces, hlog, hcover, hfine, hall⟩

theorem setOperation_covers (operation : Operation) (a : Nat) :
    Proc.Covers (transfers B) (setOperation operation) a 0 :=
  Proc.Covers.silent (fun _ => rfl) a

theorem eepromGetOperation_covers (a : Nat) :
    Proc.Covers (transfers B) (eepromGetOperation (B := B.traced)) a 0 := by
  have hstatus : Proc.Covers (transfers B) (eepromReadStatus (B := B.traced)) a 0 :=
    (transmitReceive_covers (n := 0) rfl SpiCall.fits_rdsr toBusy).bind fun _ =>
      Proc.Covers.pure _ a
  have hbusy : Proc.Covers (transfers B) (eepromIsBusy (B := B.traced)) a 0 := by
    refine hstatus.attempt.after fun status => ?_
    cases status with
    | error e => exact Proc.Covers.pure true a
    | ok status => exact Proc.Covers.pure _ a
  refine hbusy.after fun busy => Proc.Covers.after (Proc.Covers.silent (fun _ => rfl) a) fun _ => ?_
  exact (Proc.Covers.get a).after fun _ => Proc.Covers.pure _ a

theorem pollLoop_covers (polls a : Nat) :
    Proc.Covers (transfers B) (pollLoop (B := B.traced) polls) a 0 := by
  induction polls with
  | zero => exact (eepromGetOperation_covers a).after fun _ => Proc.Covers.pure () a
  | succ polls ih =>
    exact (eepromGetOperation_covers a).after fun _ => Proc.Covers.when fun _ => ih

theorem awaitOperation_covers (a : Nat) :
    Proc.Covers (transfers B) (awaitOperation (B := B.traced)) a 0 := by
  refine (Proc.Covers.get a).after fun s => (pollLoop_covers _ a).after fun _ =>
    (eepromGetOperation_covers a).after fun operation => Proc.Covers.when fun _ => ?_
  exact (setOperation_covers .none a).after fun _ => Proc.Covers.fail RetCode.timeout a 0

theorem eepromWriteEnable_covers (a : Nat) :
    Proc.Covers (transfers B) (eepromWriteEnable (B := B.traced)) a 0 :=
  (transmit_covers (n := 0) rfl SpiCall.fits_wren toBusy).after fun _ => awaitOperation_covers a

/-- The induction is on what is left: each turn covers the rest of one page. -/
theorem storeLoop_covers {address offset : Nat} {data : List UInt8}
    (h : address + offset + data.length ≤ eepromSize) :
    Proc.Covers (transfers B) (storeLoop (B := B.traced) address offset data) (address + offset)
      data.length := by
  induction hn : data.length using Nat.strongRecOn generalizing offset data with
  | _ n ih =>
    subst hn
    rw [storeLoop]
    split
    · next hnil =>
      rw [hnil]
      exact Proc.Covers.pure () _
    · next hne =>
      have hl := List.length_pos_iff.mpr hne
      have hlt : address + offset < eepromSize := by omega
      have hpos : 0 < stepLen (address + offset) data.length := by
        have hpos := stepLen_pos (address + offset) hl
        rwa [tmpAddress_eq hlt] at hpos
      have hle := stepLen_le (address + offset) data.length
      have hpage := stepLen_in_page hlt data.length
      dsimp only
      rw [tmpAddress_eq hlt]
      generalize stepLen (address + offset) data.length = step at hpos hle hpage ⊢
      have htake : (data.take step).length = step := by
        rw [List.length_take, Nat.min_eq_left hle]
      have hdrop : (data.drop step).length = data.length - step := List.length_drop
      have hwrite : Proc.Covers (transfers B) (spi (B.traced.transmit
          (header cmdWrite (address + offset) ++ data.take step)) toInvalidParam)
          (address + offset) step := by
        apply transmit_covers
        · rw [SpiCall.cells_write (lt_two_pow_24 hlt), htake]
        · apply SpiCall.fits_write (lt_two_pow_24 hlt)
          rw [htake]
          exact hpage
      have hrest : Proc.Covers (transfers B) (storeLoop (B := B.traced) address (offset + step)
          (data.drop step)) (address + offset + step) (data.length - step) := by
        have hbound : address + (offset + step) + (data.drop step).length ≤ eepromSize := by
          omega
        have hih := ih (data.length - step) (by omega) hbound hdrop
        rwa [← Nat.add_assoc] at hih
      have hturn := (resetOnError_covers hwrite).bind fun _ =>
        (awaitOperation_covers _).after fun _ => hrest
      rw [Nat.add_sub_cancel' hle] at hturn
      exact (setOperation_covers .store _).after fun _ =>
        (resetOnError_covers (eepromWriteEnable_covers _)).after fun _ => hturn

theorem readLoop_covers {address offset length : Nat}
    (h : address + offset + length ≤ eepromSize) :
    Proc.Covers (transfers B) (readLoop (B := B.traced) address offset length)
      (address + offset) length := by
  induction length using Nat.strongRecOn generalizing offset with
  | _ length ih =>
    rw [readLoop]
    split
    · next hzero =>
      rw [hzero]
      exact Proc.Covers.pure [] _
    · next hne =>
      have hlt : address + offset < eepromSize := by omega
      have hpos : 0 < stepLen (address + offset) length := by
        have hpos := stepLen_pos (address + offset) (Nat.pos_of_ne_zero hne)
        rwa [tmpAddress_eq hlt] at hpos
      have hle := stepLen_le (address + offset) length
      have hpage := stepLen_in_page hlt length
      dsimp only
      rw [tmpAddress_eq hlt]
      generalize stepLen (address + offset) length = step at hpos hle hpage ⊢
      have hread : Proc.Covers (transfers B) (spi (B.traced.transmitReceive
          (header cmdRead (address + offset)) (4 + step)) toInvalidParam)
          (address + offset) step :=
        transmitReceive_covers (SpiCall.cells_read (lt_two_pow_24 hlt) step)
          (SpiCall.fits_read (lt_two_pow_24 hlt) hpage) toInvalidParam
      have hrest : Proc.Covers (transfers B) (readLoop (B := B.traced) address (offset + step)
          (length - step)) (address + offset + step) (length - step) := by
        have hbound : address + (offset + step) + (length - step) ≤ eepromSize := by omega
        have hih := ih (length - step) (by omega) hbound
        rwa [← Nat.add_assoc] at hih
      have hturn := (resetOnError_covers hread).bind fun rx =>
        (awaitOperation_covers _).after fun _ =>
          hrest.bind fun rest => Proc.Covers.pure ((rx.drop 4).take step ++ rest) _
      rw [Nat.add_zero, Nat.add_sub_cancel' hle] at hturn
      exact (setOperation_covers .read _).after fun _ => hturn

theorem eepromStore_covers {address : Nat} {data : List UInt8}
    (h : address + data.length ≤ eepromSize) (inRam : Bool) :
    Proc.Covers (transfers B) (eepromStore (B := B.traced) inRam address data) address
      data.length :=
  (Proc.Covers.failIf _ _ _).after fun _ => (eepromGetOperation_covers _).after fun _ =>
    (Proc.Covers.failIf _ _ _).after fun _ => storeLoop_covers h

theorem eepromRead_covers {address length : Nat} (h : address + length ≤ eepromSize)
    (inRam : Bool) :
    Proc.Covers (transfers B) (eepromRead (B := B.traced) inRam address length) address length :=
  (Proc.Covers.failIf _ _ _).after fun _ => (eepromGetOperation_covers _).after fun _ =>
    (Proc.Covers.failIf _ _ _).after fun _ => readLoop_covers h

end OpenBadge.Eeprom
