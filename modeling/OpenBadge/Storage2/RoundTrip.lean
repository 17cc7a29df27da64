import Mathlib.Logic.Function.Iterate
import OpenBadge.Storage2.Chip

/-!
# Store and read of the EEPROM

The transfers of a store and of a read, the bytes that a read returns after a store of the same
range, and the success of both on an EEPROM that is done before the timeouts.
-/

namespace OpenBadge.Eeprom

open OpenBadge.Lib

variable {B : Bus} {s : State B}

/-! ## An EEPROM that is done in time -/

/-- The next read of the status register reports that nothing is being written. -/
def Bus.Ready (B : Bus) (v : B.State) : Prop :=
  ∃ rx, (B.transmitReceive [cmdRdsr] 2 v).1 = .ok rx ∧ ¬ writeInProgress rx

def Bus.polled (B : Bus) (v : B.State) : B.State := (B.transmitReceive [cmdRdsr] 2 v).2

/-- A waiting loop gets to the end of the operation before its timeout. -/
structure Bus.Prompt (B : Bus) : Prop where
  settles : ∀ v, ∃ n ≤ B.polls v, B.Ready (B.polled^[n] v)
  stays : ∀ v, B.Ready v → B.Ready (B.polled v)

theorem Bus.Succeeds.traced (hB : B.Succeeds) : B.traced.Succeeds :=
  ⟨fun tx v => hB.transmit tx v.1, fun tx n v => hB.transmitReceive tx n v.1⟩

theorem polled_traced (n : Nat) (v : B.traced.State) :
    (B.traced.polled^[n] v).1 = B.polled^[n] v.1 := by
  induction n generalizing v with
  | zero => rfl
  | succ n ih =>
    rw [Function.iterate_succ_apply, Function.iterate_succ_apply, ih]
    rfl

theorem Bus.Prompt.traced (hp : B.Prompt) : B.traced.Prompt := by
  constructor
  · intro v
    obtain ⟨n, hn, hready⟩ := hp.settles v.1
    refine ⟨n, hn, ?_⟩
    change B.Ready (B.traced.polled^[n] v).1
    rwa [polled_traced]
  · exact fun v hv => hp.stays v.1 hv

theorem eepromGetOperation_polled (hB : B.Succeeds) (s : State B) :
    ∃ operation, eepromGetOperation s = (.ok operation, ⟨B.polled s.spi, operation⟩) ∧
      (operation = .none ↔ B.Ready s.spi) := by
  obtain ⟨rx, hrx⟩ := hB.transmitReceive [cmdRdsr] 2 s.spi
  refine ⟨_, eepromGetOperation_eq (Proc.eq_of_fst hrx), ?_⟩
  rw [polledOperation_eq_none]
  constructor
  · exact fun h => ⟨rx, hrx, h⟩
  · rintro ⟨rx', hrx', h⟩
    rw [hrx] at hrx'
    cases hrx'
    exact h

theorem pollLoop_ready (hB : B.Succeeds) (hp : B.Prompt) (polls : Nat) :
    ∀ {s : State B} {n : Nat}, n ≤ polls → B.Ready (B.polled^[n] s.spi) →
      ∃ t, pollLoop polls s = (.ok (), t) ∧ B.Ready t.spi := by
  induction polls with
  | zero =>
    intro s n hn hready
    obtain rfl := Nat.le_zero.mp hn
    obtain ⟨operation, hget, -⟩ := eepromGetOperation_polled hB s
    exact ⟨_, Proc.bind_ok hget _, hp.stays s.spi hready⟩
  | succ polls ih =>
    intro s n hn hready
    obtain ⟨operation, hget, hnone⟩ := eepromGetOperation_polled hB s
    rw [pollLoop, Proc.bind_ok hget]
    by_cases ho : operation = .none
    · rw [Proc.when_neg (not_not.mpr ho)]
      exact ⟨_, rfl, hp.stays s.spi (hnone.mp ho)⟩
    · rw [Proc.when_pos ho]
      cases n with
      | zero => exact absurd (hnone.mpr hready) ho
      | succ n =>
        rw [Function.iterate_succ_apply] at hready
        exact ih (Nat.le_of_succ_le_succ hn) hready

theorem awaitOperation_ready (hB : B.Succeeds) (hp : B.Prompt) (s : State B) :
    ∃ t, awaitOperation s = (.ok (), t) ∧ B.Ready t.spi := by
  obtain ⟨n, hn, hready⟩ := hp.settles s.spi
  obtain ⟨v, hloop, hv⟩ := pollLoop_ready hB hp (B.polls s.spi) hn hready
  obtain ⟨operation, hget, hnone⟩ := eepromGetOperation_polled hB v
  refine ⟨⟨B.polled v.spi, operation⟩, ?_, hp.stays v.spi hv⟩
  rw [awaitOperation, Proc.get_bind_apply, Proc.bind_ok hloop, Proc.bind_ok hget,
    Proc.when_neg (not_not.mpr (hnone.mpr hv))]
  rfl

theorem resetOnError_ok {α : Type} {x : M B α} {b : α} {t : State B} (h : x s = (.ok b, t)) :
    resetOnError x s = (.ok b, t) := by
  rw [resetOnError, h]

theorem transmit_ok (hB : B.Succeeds) (tx : List UInt8) (code : SpiError → RetCode)
    (s : State B) : ∃ t, spi (B.transmit tx) code s = (.ok (), t) :=
  ⟨_, spi_ok (Proc.eq_of_fst (hB.transmit tx s.spi))⟩

theorem transmitReceive_ok (hB : B.Succeeds) (tx : List UInt8) (n : Nat)
    (code : SpiError → RetCode) (s : State B) :
    ∃ rx t, spi (B.transmitReceive tx n) code s = (.ok rx, t) := by
  obtain ⟨rx, hrx⟩ := hB.transmitReceive tx n s.spi
  exact ⟨rx, _, spi_ok (Proc.eq_of_fst hrx)⟩

theorem eepromWriteEnable_ok (hB : B.Succeeds) (hp : B.Prompt) (s : State B) :
    ∃ t, eepromWriteEnable s = (.ok (), t) := by
  obtain ⟨v, hspi⟩ := transmit_ok hB [cmdWren] toBusy s
  obtain ⟨t, hawait, -⟩ := awaitOperation_ready hB hp v
  exact ⟨t, (Proc.bind_ok hspi _).trans hawait⟩

theorem storeLoop_ok (hB : B.Succeeds) (hp : B.Prompt) (address offset : Nat)
    (data : List UInt8) (s : State B) (hs : B.Ready s.spi) :
    ∃ t, storeLoop address offset data s = (.ok (), t) ∧ B.Ready t.spi := by
  induction hn : data.length using Nat.strongRecOn generalizing offset data s with
  | _ n ih =>
    subst hn
    rw [storeLoop]
    split
    · exact ⟨s, rfl, hs⟩
    · next hne =>
      have hpos := stepLen_pos (address + offset) (List.length_pos_iff.mpr hne)
      dsimp only
      generalize stepLen ((address + offset) % 2 ^ 32) data.length = step at hpos ⊢
      have hshorter : (data.drop step).length < data.length := by
        have hl := List.length_pos_iff.mpr hne
        rw [List.length_drop]
        omega
      obtain ⟨s₁, henable⟩ := eepromWriteEnable_ok hB hp { s with operation := .store }
      obtain ⟨s₂, htransmit⟩ := transmit_ok hB
        (header cmdWrite ((address + offset) % 2 ^ 32) ++ data.take step) toInvalidParam s₁
      obtain ⟨s₃, hawait, hready⟩ := awaitOperation_ready hB hp s₂
      obtain ⟨t, hrest, ht⟩ := ih _ hshorter (offset + step) (data.drop step) s₃ hready rfl
      refine ⟨t, ?_, ht⟩
      rw [setOperation, Proc.modify_bind_apply, Proc.bind_ok (resetOnError_ok henable),
        Proc.bind_ok (resetOnError_ok htransmit), Proc.bind_ok hawait, hrest]

theorem readLoop_ok (hB : B.Succeeds) (hp : B.Prompt) (address offset length : Nat)
    (s : State B) : ∃ rx t, readLoop address offset length s = (.ok rx, t) := by
  induction length using Nat.strongRecOn generalizing offset s with
  | _ length ih =>
    rw [readLoop]
    split
    · exact ⟨[], s, rfl⟩
    · next hne =>
      have hpos := stepLen_pos (address + offset) (Nat.pos_of_ne_zero hne)
      dsimp only
      generalize stepLen ((address + offset) % 2 ^ 32) length = step at hpos ⊢
      obtain ⟨rx, s₁, hreceive⟩ := transmitReceive_ok hB
        (header cmdRead ((address + offset) % 2 ^ 32)) (4 + step) toInvalidParam
        { s with operation := .read }
      obtain ⟨s₂, hawait, -⟩ := awaitOperation_ready hB hp s₁
      obtain ⟨rest, t, hrest⟩ := ih (length - step) (by omega) (offset + step) s₂
      refine ⟨(rx.drop 4).take step ++ rest, t, ?_⟩
      rw [setOperation, Proc.modify_bind_apply, Proc.bind_ok (resetOnError_ok hreceive),
        Proc.bind_ok hawait, Proc.bind_ok hrest]
      rfl

/-- A range inside the EEPROM passes the check of the parameters. -/
theorem range_accepted {address length : Nat} (h : address + length ≤ eepromSize) :
    ¬ (eepromSize < (address + length) % 2 ^ 32 ∨ true = false) := by
  have hmod := Nat.mod_le (address + length) (2 ^ 32)
  rintro (hlt | hram)
  · omega
  · cases hram

theorem eepromStore_ok (hB : B.Succeeds) (hp : B.Prompt) {address : Nat} {data : List UInt8}
    (hroom : address + data.length ≤ eepromSize) (hs : B.Ready s.spi) :
    ∃ t, eepromStore true address data s = (.ok (), t) ∧ B.Ready t.spi := by
  obtain ⟨operation, hget, hnone⟩ := eepromGetOperation_polled hB s
  rw [eepromStore, Proc.failIf_bind_neg (range_accepted hroom), Proc.bind_ok hget,
    Proc.failIf_bind_neg (not_not.mpr (hnone.mpr hs))]
  exact storeLoop_ok hB hp address 0 data _ (hp.stays s.spi hs)

theorem eepromRead_ok (hB : B.Succeeds) (hp : B.Prompt) {address length : Nat}
    (hroom : address + length ≤ eepromSize) (hs : B.Ready s.spi) :
    ∃ rx t, eepromRead true address length s = (.ok rx, t) := by
  obtain ⟨operation, hget, hnone⟩ := eepromGetOperation_polled hB s
  rw [eepromRead, Proc.failIf_bind_neg (range_accepted hroom), Proc.bind_ok hget,
    Proc.failIf_bind_neg (not_not.mpr (hnone.mpr hs))]
  exact readLoop_ok hB hp address 0 length _

/-! ## The whole call -/

theorem transmit_traced {tx : List UInt8} {v w : B.traced.State}
    (h : B.traced.transmit tx v = (.ok (), w)) : B.transmit tx v.1 = (.ok (), w.1) := by
  have hresult : (B.transmit tx v.1).1 = .ok () := congrArg Prod.fst h
  have hstate : (B.transmit tx v.1).2 = w.1 := congrArg (fun r => r.2.1) h
  exact Prod.ext hresult hstate

theorem transmitReceive_traced {tx rx : List UInt8} {n : Nat} {v w : B.traced.State}
    (h : B.traced.transmitReceive tx n v = (.ok rx, w)) :
    B.transmitReceive tx n v.1 = (.ok rx, w.1) := by
  have hresult : (B.transmitReceive tx n v.1).1 = .ok rx := congrArg Prod.fst h
  have hstate : (B.transmitReceive tx n v.1).2 = w.1 := congrArg (fun r => r.2.1) h
  exact Prod.ext hresult hstate

/-- The EEPROM does not see that the calls are kept. -/
def Chip.traced (C : Chip B) : Chip B.traced where
  cells v := C.cells v.1
  Idle v := C.Idle v.1
  WriteEnabled v := C.WriteEnabled v.1
  wren hidle h := C.wren hidle (transmit_traced h)
  rdsr h := C.rdsr (transmitReceive_traced h)
  write hidle henabled hfits hroom h := C.write hidle henabled hfits hroom (transmit_traced h)
  read hidle hfits hroom h := C.read hidle hfits hroom (transmitReceive_traced h)

/-- The transfers of a store and of a read cover the range page by page, a prefix of it where a
wait ends in its timeout. A read returns what a store of the same range has stored, and on an
EEPROM that is done in time both succeed. -/
theorem eeprom_page_splitting (hB : B.Succeeds) {address length : Nat}
    (hroom : address + length ≤ eepromSize) :
    (∀ (inRam : Bool) (data : List UInt8), data.length = length →
      Proc.Covers (transfers B) (eepromStore (B := B.traced) inRam address data) address length) ∧
    (∀ inRam : Bool,
      Proc.Covers (transfers B) (eepromRead (B := B.traced) inRam address length) address
        length) ∧
    (Chip B → ∀ (inRam inRam' : Bool) (data rx : List UInt8) (s t u : State B.traced),
      data.length = length → eepromStore inRam address data s = (.ok (), t) →
        eepromRead inRam' address length t = (.ok rx, u) → rx = data) ∧
    (B.Prompt → ∀ (data : List UInt8) (s : State B.traced), data.length = length →
      B.Ready s.spi.1 → ∃ t, eepromStore true address data s = (.ok (), t) ∧
        ∃ rx u, eepromRead true address length t = (.ok rx, u)) := by
  refine ⟨?_, eepromRead_covers hroom, ?_, ?_⟩
  · rintro inRam data rfl
    exact eepromStore_covers hroom inRam
  · rintro C inRam inRam' data rx s t u rfl hstore hread
    have hcells := eepromStore_stores hB.traced C.traced hroom hstore
    have hrx := eepromRead_fetches hB.traced C.traced hroom hread
    rw [hrx, hcells, slice_overwrite]
  · rintro hp data s rfl hready
    obtain ⟨t, hstore, ht⟩ := eepromStore_ok hB.traced hp.traced hroom hready
    exact ⟨t, hstore, eepromRead_ok hB.traced hp.traced hroom ht⟩

/-! An EEPROM that takes some reads of the status register to write a page -/

structure PagedState where
  cells : Nat → UInt8
  writeEnabled : Bool
  /-- The reads of the status register until the page is written. -/
  writing : Nat

/-- Behind the end of the page the bytes go to its start. -/
def pageWrite (m : Nat → UInt8) (a : Nat) (data : List UInt8) : Nat → UInt8 := fun x =>
  if x / pageSize = a / pageSize then
    (data[(x + pageSize - a % pageSize) % pageSize]?).getD (m x) else m x

theorem pageWrite_eq (m : Nat → UInt8) {a : Nat} {data : List UInt8}
    (h : a % pageSize + data.length ≤ pageSize) : pageWrite m a data = overwrite m a data := by
  funext x
  rw [pageSize] at h
  rw [pageWrite, overwrite, pageSize]
  by_cases hpage : x / 128 = a / 128
  · rw [if_pos hpage]
    by_cases ha : a ≤ x
    · have hindex : (x + 128 - a % 128) % 128 = x - a := by omega
      rw [if_pos ha, hindex]
    · rw [if_neg ha, List.getElem?_eq_none (by omega), Option.getD_none]
  · rw [if_neg hpage]
    by_cases ha : a ≤ x
    · rw [if_pos ha, List.getElem?_eq_none (by omega), Option.getD_none]
    · rw [if_neg ha]

theorem in_page_of_fits {a₂ a₁ a₀ : UInt8} {data : List UInt8}
    (h : (SpiCall.transmit (cmdWrite :: a₂ :: a₁ :: a₀ :: data)).Fits) :
    address24 a₂ a₁ a₀ % pageSize + data.length ≤ pageSize := by
  have hcells : (SpiCall.transmit (cmdWrite :: a₂ :: a₁ :: a₀ :: data)).cells =
      List.range' (address24 a₂ a₁ a₀) data.length := by
    simp only [SpiCall.cells, if_true]
  have hpage := h.one_page
  rw [hcells] at hpage
  generalize address24 a₂ a₁ a₀ = a at hpage ⊢
  rw [pageSize] at hpage ⊢
  by_cases hzero : data.length = 0
  · omega
  · have hsame := hpage a (List.mem_range'_1.mpr (by omega)) (a + data.length - 1)
      (List.mem_range'_1.mpr (by omega))
    omega

def PagedState.transmit (v : PagedState) : List UInt8 → PagedState
  | [cmd] => if cmd = cmdWren then { v with writeEnabled := true } else v
  | cmd :: a₂ :: a₁ :: a₀ :: data =>
    if cmd = cmdWrite ∧ v.writeEnabled = true ∧ v.writing = 0 then
      ⟨pageWrite v.cells (address24 a₂ a₁ a₀) data, false, 3⟩ else v
  | _ => v

def PagedState.receive (v : PagedState) (n : Nat) : List UInt8 → List UInt8 × PagedState
  | [cmd, a₂, a₁, a₀] =>
    (if cmd = cmdRead then [0, 0, 0, 0] ++ slice v.cells (address24 a₂ a₁ a₀) (n - 4) else [], v)
  | _ => ([0, if v.writing = 0 then 0 else 1], { v with writing := v.writing - 1 })

theorem PagedState.transmit_write {v : PagedState} {a₂ a₁ a₀ : UInt8} {data : List UInt8}
    (henabled : v.writeEnabled = true) (hidle : v.writing = 0)
    (h : (SpiCall.transmit (cmdWrite :: a₂ :: a₁ :: a₀ :: data)).Fits) :
    (v.transmit (cmdWrite :: a₂ :: a₁ :: a₀ :: data)).cells =
      overwrite v.cells (address24 a₂ a₁ a₀) data := by
  rw [PagedState.transmit, if_pos ⟨rfl, henabled, hidle⟩]
  exact pageWrite_eq v.cells (in_page_of_fits h)

theorem PagedState.receive_read (v : PagedState) (a₂ a₁ a₀ : UInt8) (n : Nat) :
    ((v.receive (4 + n) [cmdRead, a₂, a₁, a₀]).1.drop 4).take n =
      slice v.cells (address24 a₂ a₁ a₀) n := by
  rw [PagedState.receive, if_pos rfl, Nat.add_sub_cancel_left]
  exact List.take_of_length_le (Nat.le_of_eq (slice_length _ _ n))

theorem PagedState.receive_rdsr (v : PagedState) :
    writeInProgress (v.receive 2 [cmdRdsr]).1 ↔ v.writing ≠ 0 := by
  change writeInProgress [0, if v.writing = 0 then 0 else 1] ↔ _
  by_cases hw : v.writing = 0
  · rw [if_pos hw]
    exact iff_of_false (by decide) (not_not.mpr hw)
  · rw [if_neg hw]
    exact iff_of_true (by decide) hw

def pagedBus : Bus where
  State := PagedState
  transmit tx v := (.ok (), v.transmit tx)
  transmitReceive tx n v := (.ok (v.receive n tx).1, (v.receive n tx).2)
  polls v := v.writing

def pagedChip : Chip pagedBus where
  cells := PagedState.cells
  Idle := fun v : PagedState => v.writing = 0
  WriteEnabled := fun v : PagedState => v.writeEnabled = true
  wren _ h := by
    cases h
    exact ⟨rfl, rfl⟩
  rdsr := by
    rintro (s : PagedState) t rx h
    cases h
    refine ⟨rfl, id, fun hdone => ?_⟩
    have hw : s.writing = 0 := not_not.mp (mt (PagedState.receive_rdsr s).mpr hdone)
    exact Nat.sub_eq_zero_of_le (by omega)
  write := by
    rintro (s : PagedState) t a₂ a₁ a₀ data hidle henabled hfits _ h
    cases h
    exact PagedState.transmit_write henabled hidle hfits
  read := by
    rintro (s : PagedState) t a₂ a₁ a₀ n rx _ _ _ h
    cases h
    exact ⟨rfl, PagedState.receive_read s a₂ a₁ a₀ n⟩

theorem pagedBus_succeeds : pagedBus.Succeeds := ⟨fun _ _ => rfl, fun _ _ _ => ⟨_, rfl⟩⟩

/-- The status reads that are left. -/
def pagedWriting (v : pagedBus.State) : Nat := PagedState.writing v

theorem pagedBus_ready (v : pagedBus.State) : pagedBus.Ready v ↔ pagedWriting v = 0 := by
  constructor
  · rintro ⟨rx, hrx, hdone⟩
    cases hrx
    exact not_not.mp (mt (PagedState.receive_rdsr v).mpr hdone)
  · exact fun hw => ⟨_, rfl, fun h => (PagedState.receive_rdsr v).mp h hw⟩

theorem pagedBus_polled (n : Nat) (v : pagedBus.State) :
    pagedWriting (pagedBus.polled^[n] v) = pagedWriting v - n := by
  induction n generalizing v with
  | zero => rfl
  | succ n ih =>
    have hone : pagedWriting (pagedBus.polled v) = pagedWriting v - 1 := rfl
    rw [Function.iterate_succ_apply, ih, hone]
    omega

theorem pagedBus_prompt : pagedBus.Prompt := by
  constructor
  · intro v
    refine ⟨pagedWriting v, Nat.le_refl _, (pagedBus_ready _).mpr ?_⟩
    rw [pagedBus_polled, Nat.sub_self]
  · intro v hv
    have hw := (pagedBus_ready v).mp hv
    have hone : pagedWriting (pagedBus.polled v) = pagedWriting v - 1 := rfl
    exact (pagedBus_ready _).mpr (by rw [hone, hw])

/-- Forty bytes, from the end of one page into the next one. -/
theorem eeprom_page_splitting_two_pages :
    let data := (List.range 40).map UInt8.ofNat
    let s : State pagedBus.traced := ⟨((⟨fun _ => 0xFF, false, 0⟩ : PagedState), []), .none⟩
    pagedBus.Succeeds ∧ 100 + 40 ≤ eepromSize ∧
      ∃ t u, eepromStore true 100 data s = (.ok (), t) ∧
        t.spi.2.flatMap SpiCall.cells = List.range' 100 40 ∧
        eepromRead true 100 40 t = (.ok data, u) := by
  intro data s
  have hlen : data.length = 40 := by rw [List.length_map, List.length_range]
  have hroom : 100 + 40 ≤ eepromSize := by decide
  obtain ⟨hstores, -, hround, hends⟩ := eeprom_page_splitting pagedBus_succeeds hroom
  obtain ⟨t, hstore, rx, u, hread⟩ :=
    hends pagedBus_prompt data s hlen ((pagedBus_ready _).mpr rfl)
  have hsame : rx = data := hround pagedChip true true data rx s t u hlen hstore hread
  obtain ⟨k, -, issued, hlog, hcells, -, hall⟩ := hstores true data hlen s
  rw [hstore] at hlog hall
  obtain rfl : k = 40 := hall () rfl
  rw [hsame] at hread
  have hissued : t.spi.2 = issued := hlog
  refine ⟨pagedBus_succeeds, hroom, t, u, hstore, ?_, hread⟩
  rw [hissued]
  exact hcells

end OpenBadge.Eeprom
