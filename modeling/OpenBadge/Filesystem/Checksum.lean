import OpenBadge.Filesystem.Reads
import OpenBadge.Lib.Crc
import Mathlib.Tactic.IntervalCases

/-!
# The checksum of headers and elements

`crc16_compute` with the operands of its expressions promoted to `int` and every
assignment cut to 16 bits, against the division by the polynomial `0x1021` one bit at a
time.
-/

namespace OpenBadge.Filesystem

open OpenBadge.Lib OpenBadge.Storage

/-- One pass of the loop of `crc16_compute`. -/
def crc16Pass (crc : UInt16) (b : UInt8) : UInt16 :=
  let crc : UInt16 := ((crc.toUInt32 >>> 8).toUInt8.toUInt32 ||| (crc.toUInt32 <<< 8)).toUInt16
  let crc : UInt16 := (crc.toUInt32 ^^^ b.toUInt32).toUInt16
  let crc : UInt16 := (crc.toUInt32 ^^^ ((crc.toUInt32 &&& 0xFF).toUInt8.toUInt32 >>> 4)).toUInt16
  let crc : UInt16 := (crc.toUInt32 ^^^ ((crc.toUInt32 <<< 8) <<< 4)).toUInt16
  (crc.toUInt32 ^^^ (((crc.toUInt32 &&& 0xFF) <<< 4) <<< 1)).toUInt16

/-- `crc16_compute(p_data, size, p_crc)`; no initial value is a `NULL` pointer. -/
def crc16ComputeBlock (pCrc : Option UInt16) (pData : List UInt8) : UInt16 :=
  pData.foldl crc16Pass (pCrc.getD 0xFFFF)

/-- The polynomial of CRC-16/CCITT below its leading term. -/
def ccitt : BitVec 16 := 0x1021#16

/-- The promotions change nothing: each assignment keeps the lower 16 bits. -/
theorem crc16Pass_eq (crc : UInt16) (b : UInt8) : crc16Pass crc b = crc16Step crc b := by
  apply UInt16.toBitVec_inj.mp
  apply BitVec.eq_of_getLsbD_eq
  intro i hi
  unfold crc16Pass crc16Step
  simp only [UInt16.toBitVec_xor, UInt16.toBitVec_or, UInt16.toBitVec_shiftLeft,
    UInt16.toBitVec_shiftRight, UInt16.toBitVec_and, UInt32.toBitVec_toUInt16,
    UInt32.toBitVec_toUInt8, UInt32.toBitVec_xor, UInt32.toBitVec_or, UInt32.toBitVec_and,
    UInt32.toBitVec_shiftLeft, UInt32.toBitVec_shiftRight, UInt16.toBitVec_toUInt32,
    UInt8.toBitVec_toUInt32, UInt8.toBitVec_toUInt16, BitVec.getLsbD_xor, BitVec.getLsbD_or,
    BitVec.getLsbD_setWidth]
  interval_cases i <;> simp

theorem crc16Compute_eq (pData : List UInt8) :
    crc16Compute pData = crc16ComputeBlock none pData := by
  have hpass : crc16Pass = crc16Step := funext fun crc => funext fun b => crc16Pass_eq crc b
  rw [crc16Compute, crc16ComputeBlock, hpass]
  rfl

/-! ## One byte -/

/-- The lower byte of the register only moves up; the upper one meets the message byte. -/
theorem crc16Step_split (crc : UInt16) (b : UInt8) :
    crc16Step crc b = crc16Step 0 ((crc >>> 8).toUInt8 ^^^ b) ^^^ (crc <<< 8) := by
  apply UInt16.toBitVec_inj.mp
  apply BitVec.eq_of_getLsbD_eq
  intro i hi
  unfold crc16Step
  simp only [UInt16.toBitVec_xor, UInt16.toBitVec_or, UInt16.toBitVec_shiftLeft,
    UInt16.toBitVec_shiftRight, UInt16.toBitVec_and, UInt8.toBitVec_toUInt16,
    UInt16.toBitVec_toUInt8, UInt8.toBitVec_xor, BitVec.getLsbD_xor, BitVec.getLsbD_or,
    BitVec.getLsbD_setWidth]
  interval_cases i <;> simp <;> grind

/-- The five assignments divide a byte in front of an empty register. -/
theorem crc16Step_zero (b : BitVec 8) :
    (crc16Step 0 (UInt8.ofBitVec b)).toBitVec = (Crc.shift ccitt)^[8] (b.setWidth 16 <<< 8) := by
  revert b
  decide +kernel

theorem load_byteBits (b : BitVec 8) :
    Crc.load 16 (Crc.byteBits (UInt8.ofBitVec b)) = b.setWidth 16 <<< 8 := by
  revert b
  decide +kernel

theorem shifts_lower (r : BitVec 16) : (Crc.shift ccitt)^[8] (r <<< 8 >>> 8) = r <<< 8 := by
  have hmove : ∀ n, n ≤ 8 → (Crc.shift ccitt)^[n] (r <<< 8 >>> n) = r <<< 8 := by
    intro n hn
    induction n with
    | zero => rfl
    | succ n ih =>
      have hclear : (r <<< 8 >>> n).getLsbD 0 = false := by
        rw [BitVec.getLsbD_ushiftRight, BitVec.getLsbD_shiftLeft,
          decide_eq_true (show n + 0 < 8 by omega)]
        simp
      rw [Function.iterate_succ_apply, BitVec.shiftRight_add,
        Crc.shift_ushiftRight ccitt _ hclear, ih (by omega)]
  exact hmove 8 (Nat.le_refl 8)

theorem upper_xor_lower (crc : BitVec 16) (b : BitVec 8) :
    crc ^^^ b.setWidth 16 <<< 8 =
      (((crc >>> 8).setWidth 8 ^^^ b).setWidth 16 <<< 8) ^^^ (crc <<< 8 >>> 8) := by
  apply BitVec.eq_of_getLsbD_eq
  intro i hi
  simp only [BitVec.getLsbD_xor, BitVec.getLsbD_shiftLeft, BitVec.getLsbD_ushiftRight,
    BitVec.getLsbD_setWidth]
  interval_cases i <;> simp

/-- A pass of the loop divides the eight bits of its byte, the most significant first. -/
theorem crc16Step_feedBits (crc : UInt16) (b : UInt8) :
    (crc16Step crc b).toBitVec = Crc.feedBits ccitt crc.toBitVec (Crc.byteBits b) := by
  have hlen : (Crc.byteBits b).length = 8 := Crc.byteBits_length b
  have hload : Crc.load 16 (Crc.byteBits b) = b.toBitVec.setWidth 16 <<< 8 := load_byteBits b.toBitVec
  have hupper : ((crc >>> 8).toUInt8 ^^^ b) =
      UInt8.ofBitVec ((crc.toBitVec >>> 8).setWidth 8 ^^^ b.toBitVec) := rfl
  rw [Crc.feedBits_eq_shifts _ _ _ (by rw [hlen]; decide), hlen, hload, upper_xor_lower,
    Crc.shifts_xor, shifts_lower, crc16Step_split, UInt16.toBitVec_xor, hupper, crc16Step_zero]
  rfl

theorem crc16Compute_feedBits (crc : UInt16) (pData : List UInt8) :
    (pData.foldl crc16Pass crc).toBitVec = Crc.feedBits ccitt crc.toBitVec (Crc.bitsOf pData) := by
  induction pData generalizing crc with
  | nil => rfl
  | cons b pData ih =>
    have hbits : Crc.bitsOf (b :: pData) = Crc.byteBits b ++ Crc.bitsOf pData := rfl
    rw [List.foldl_cons, ih, crc16Pass_eq, crc16Step_feedBits, hbits, Crc.feedBits_append]

/-- `crc16_compute` is CRC-16/CCITT, with and without an initial value. -/
theorem crc16_compute_is_ccitt (pCrc : Option UInt16) (pData : List UInt8) :
    (crc16ComputeBlock pCrc pData).toBitVec =
        Crc.feedBits 0x1021#16 (pCrc.elim 0xFFFF#16 UInt16.toBitVec) (Crc.bitsOf pData) ∧
      (crc16Compute pData).toBitVec = Crc.feedBits 0x1021#16 0xFFFF#16 (Crc.bitsOf pData) := by
  constructor
  · rw [crc16ComputeBlock, crc16Compute_feedBits]
    cases pCrc <;> rfl
  · rw [crc16Compute_eq, crc16ComputeBlock, crc16Compute_feedBits]
    rfl

example : crc16ComputeBlock none [0x31, 0x32, 0x33, 0x34, 0x35, 0x36, 0x37, 0x38, 0x39] = 0x29B1 := by
  decide +kernel

/-! ## What it detects -/

theorem crc16Compute_burst (pCrc : Option UInt16) {x y : List UInt8} {start : Nat}
    (hlen : x.length = y.length) (hne : x ≠ y)
    (hwithin : Crc.DifferWithin 16 start (Crc.bitsOf x) (Crc.bitsOf y)) :
    crc16ComputeBlock pCrc x ≠ crc16ComputeBlock pCrc y := by
  intro h
  have hbits := congrArg UInt16.toBitVec h
  rw [crc16ComputeBlock, crc16ComputeBlock, crc16Compute_feedBits, crc16Compute_feedBits] at hbits
  have hconstant : ccitt.getLsbD 0 = true := by decide
  refine Crc.burst_detected hconstant ?_ ?_ hwithin hbits
  · rw [Crc.bitsOf_length, Crc.bitsOf_length, hlen]
  · exact mt Crc.bitsOf_injective hne

theorem crc16Compute_append (pCrc : Option UInt16) (x y : List UInt8) :
    crc16ComputeBlock pCrc (x ++ y) = crc16ComputeBlock (some (crc16ComputeBlock pCrc x)) y :=
  List.foldl_append

/-- Strings that differ within 16 consecutive bits have different checksums, and the
checksum of a concatenation is computed block by block. -/
theorem crc16_compute_detects_bursts (pCrc : Option UInt16) :
    (∀ (x y : List UInt8) (start : Nat), x.length = y.length → x ≠ y →
      Crc.DifferWithin 16 start (Crc.bitsOf x) (Crc.bitsOf y) →
        crc16ComputeBlock pCrc x ≠ crc16ComputeBlock pCrc y) ∧
    ∀ x y : List UInt8,
      crc16ComputeBlock pCrc (x ++ y) = crc16ComputeBlock (some (crc16ComputeBlock pCrc x)) y :=
  ⟨fun _ _ _ hlen hne hwithin => crc16Compute_burst pCrc hlen hne hwithin,
    crc16Compute_append pCrc⟩

theorem differWithin_third_bit :
    Crc.DifferWithin 16 2 (Crc.bitsOf [0x20, 0x01]) (Crc.bitsOf [0x00, 0x00]) := by
  intro i hi
  by_contra hout
  apply hi
  have hcases : i = 0 ∨ i = 1 ∨ 16 ≤ i := by omega
  obtain rfl | rfl | hlong := hcases
  · decide
  · decide
  · rw [List.getElem?_eq_none (by rw [Crc.bitsOf_length]; exact hlong),
      List.getElem?_eq_none (by rw [Crc.bitsOf_length]; exact hlong)]

theorem crc16_compute_detects_two_bits :
    crc16ComputeBlock (some 0x1D0F) [0x20, 0x01] ≠ crc16ComputeBlock (some 0x1D0F) [0x00, 0x00] :=
  (crc16_compute_detects_bursts (some 0x1D0F)).1 [0x20, 0x01] [0x00, 0x00] 2 rfl (by decide)
    differWithin_third_bit

theorem storageRead_state {D : Device} {s t : State D} {a n : Nat} {r : Except RetCode (List UInt8)}
    (h : storageRead a n s = (r, t)) : t = s := by
  have hkept := storageRead_keeps (fun u => u = s) a n s rfl
  rw [h] at hkept
  exact hkept

/-- No element is read whose bytes changed within 16 consecutive bits after the checksum in
its header was computed. -/
theorem iteratorReadElement_unchanged {D : Device} {pid : Nat} {s t : State D}
    {data stored : List UInt8} {recordId start : Nat} (hcrc : hasElementCrc pid = true)
    (h : iteratorReadElement pid s = (.ok (data, recordId), t))
    (hheader : (t.iter pid).curElementHeader.elementCrc = (crc16Compute stored).toNat)
    (hlen : data.length = stored.length)
    (hwithin : Crc.DifferWithin 16 start (Crc.bitsOf data) (Crc.bitsOf stored)) :
    data = stored := by
  unfold iteratorReadElement at h
  obtain ⟨_, s₁, _, h₁⟩ := Proc.bind_eq_ok.mp h
  rw [getPartition_bind, getIterator_bind] at h₁
  obtain ⟨bytes, s₂, hread, h₂⟩ := Proc.bind_eq_ok.mp h₁
  obtain ⟨_, s₃, hcheck, h₃⟩ := Proc.bind_eq_ok.mp h₂
  have hs₂ : s₂ = s₁ := storageRead_state (Proc.orFail_eq_ok.mp hread)
  obtain ⟨hsame, hs₃⟩ := Proc.failIf_eq_ok.mp hcheck
  obtain ⟨hvalue, ht⟩ := Prod.mk.inj h₃
  obtain ⟨rfl, _⟩ := Prod.mk.inj (Except.ok.inj hvalue)
  have hiter : t = s₁ := ht.symm.trans (hs₃.trans hs₂)
  by_contra hne
  apply hsame
  refine ⟨hcrc, fun heq => ?_⟩
  rw [← hiter, hheader, crc16Compute_eq, crc16Compute_eq] at heq
  exact crc16Compute_burst none hlen hne hwithin (UInt16.toNat_inj.mp heq)

end OpenBadge.Filesystem
