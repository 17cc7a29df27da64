import OpenBadge.Sampling.Callbacks
import OpenBadge.Sampling.Timers

/-!
# The values of the accelerometer

A sample is the upper 8, 10 or 12 bits of two bytes of the FIFO. The driver multiplies it
with the sensitivity in 16 bits, and the sampling stores the sum of the three absolute values
in 16 bits.
-/

namespace OpenBadge.Accel

open OpenBadge.Lib

/-! ## One coordinate -/

/-- The number of significant bits of a sample. -/
def OperatingMode.significantBits : OperatingMode → Nat
  | .powerDown => 0
  | .lowPower => 8
  | .normal => 10
  | .highResolution => 12

/-- The sample in two bytes: their upper significant bits in two's complement. -/
def rawSample (operatingMode : OperatingMode) (low high : UInt8) : Int :=
  ((high.toBitVec ++ low.toBitVec).extractLsb' (16 - operatingMode.significantBits)
    operatingMode.significantBits).toInt

/-- The sensitivity in mg for each LSB. -/
def sensitivity (operatingMode : OperatingMode) (fullScale : FullScale) : Int :=
  (getShiftFactorAndSensitivity operatingMode fullScale).2.toInt

theorem toInt16_bytes (low high : UInt8) :
    (((high.toUInt16 <<< 8) ||| low.toUInt16).toInt16).toBitVec =
      high.toBitVec ++ low.toBitVec := by
  have h (top bottom : BitVec 8) :
      (top.setWidth 16 <<< 8) ||| bottom.setWidth 16 = top ++ bottom := by
    apply BitVec.eq_of_getLsbD_eq
    intro i hi
    simp only [BitVec.getLsbD_or, BitVec.getLsbD_shiftLeft, BitVec.getLsbD_setWidth,
      BitVec.getLsbD_append]
    by_cases hlt : i < 8
    · simp [hlt, hi]
    · simp [hlt, hi]
      grind
  exact h high.toBitVec low.toBitVec

/-- The upper bits of a word are its value divided by the power of two below them. -/
theorem toInt_extractLsb_top (w : BitVec 16) {s : Nat} (hs : s = 4 ∨ s = 6 ∨ s = 8) :
    (w.extractLsb' s (16 - s)).toInt = w.toInt / 2 ^ s := by
  have hlt := w.isLt
  rw [BitVec.toInt_extractLsb', BitVec.toInt_eq_toNat_cond, Nat.shiftRight_eq_div_pow,
    Int.bmod_def]
  rcases hs with h | h | h
  all_goals
    subst h
    simp only [Nat.reduceSub, Nat.reducePow, Nat.cast_ofNat, Int.reducePow]
    omega

/-- The arithmetic shift of a driver's shift factor. -/
theorem toInt_shiftFactor (a : Int16) {k : Nat} (hk : k = 4 ∨ k = 6 ∨ k = 8) :
    (a >>> Int16.ofNat k).toInt = a.toInt / 2 ^ k := by
  have hshift : (a >>> Int16.ofNat k).toBitVec = a.toBitVec.sshiftRight k := by
    rcases hk with h | h | h <;> rw [h] <;> rfl
  rw [← Int16.toInt_toBitVec, hshift, BitVec.toInt_sshiftRight, Int.shiftRight_eq_div_pow,
    Int16.toInt_toBitVec]
  rfl

/-- A product that fits is not cut. -/
theorem toInt_mul_of_fits {a b : Int16} (h : -2 ^ 15 ≤ a.toInt * b.toInt)
    (h' : a.toInt * b.toInt < 2 ^ 15) : (a * b).toInt = a.toInt * b.toInt := by
  rw [Int16.toInt_mul, Int.bmod_def]
  omega

/-- The shift factor leaves the significant bits, and the largest sample times the sensitivity
is 24,576. -/
theorem shiftFactor_spec {operatingMode : OperatingMode} (h : operatingMode ≠ .powerDown)
    (fullScale : FullScale) : ∃ k, (k = 4 ∨ k = 6 ∨ k = 8) ∧
      operatingMode.significantBits = 16 - k ∧
      (getShiftFactorAndSensitivity operatingMode fullScale).1 = Int16.ofNat k ∧
      0 < sensitivity operatingMode fullScale ∧
      2 ^ (15 - k) * sensitivity operatingMode fullScale ≤ 24576 := by
  cases operatingMode with
  | powerDown => exact absurd rfl h
  | lowPower => exact ⟨8, by decide, rfl, by cases fullScale <;> rfl, by cases fullScale <;> decide,
      by cases fullScale <;> decide⟩
  | normal => exact ⟨6, by decide, rfl, by cases fullScale <;> rfl, by cases fullScale <;> decide,
      by cases fullScale <;> decide⟩
  | highResolution => exact ⟨4, by decide, rfl, by cases fullScale <;> rfl,
      by cases fullScale <;> decide, by cases fullScale <;> decide⟩

theorem rawSample_bounds {operatingMode : OperatingMode} {k : Nat} (hk : k = 4 ∨ k = 6 ∨ k = 8)
    (hbits : operatingMode.significantBits = 16 - k) (low high : UInt8) :
    rawSample operatingMode low high = (high.toBitVec ++ low.toBitVec).toInt / 2 ^ k ∧
    -2 ^ (15 - k) ≤ rawSample operatingMode low high ∧
    rawSample operatingMode low high < 2 ^ (15 - k) := by
  have hraw : rawSample operatingMode low high = (high.toBitVec ++ low.toBitVec).toInt / 2 ^ k := by
    have hsub : 16 - (16 - k) = k := by omega
    rw [rawSample, hbits, hsub]
    exact toInt_extractLsb_top _ hk
  have hle := BitVec.le_toInt (high.toBitVec ++ low.toBitVec)
  have hlt := BitVec.toInt_lt (x := high.toBitVec ++ low.toBitVec)
  rw [hraw]
  refine ⟨rfl, ?_⟩
  rcases hk with h | h | h
  all_goals
    subst h
    simp only [Nat.reduceSub, Nat.reduceAdd, Int.reducePow, Int.reduceNeg] at *
    omega

/-- A coordinate is the sample times the sensitivity, in every mode and at every full scale. -/
theorem convert_toInt {operatingMode : OperatingMode} (h : operatingMode ≠ .powerDown)
    (fullScale : FullScale) (low high : UInt8) :
    (convert (getShiftFactorAndSensitivity operatingMode fullScale).1
      (getShiftFactorAndSensitivity operatingMode fullScale).2 low high).toInt =
      rawSample operatingMode low high * sensitivity operatingMode fullScale := by
  obtain ⟨k, hk, hbits, hshift, hpos, hmax⟩ := shiftFactor_spec h fullScale
  obtain ⟨hraw, hle, hlt⟩ := rawSample_bounds hk hbits low high
  have hshifted : (((high.toUInt16 <<< 8) ||| low.toUInt16).toInt16 >>> Int16.ofNat k).toInt =
      rawSample operatingMode low high := by
    rw [toInt_shiftFactor _ hk, ← Int16.toInt_toBitVec, toInt16_bytes, hraw]
  rw [convert, hshift]
  rw [toInt_mul_of_fits, hshifted]
  · rfl
  · have hlow := Int.mul_le_mul_of_nonneg_right hle (Int.le_of_lt hpos)
    rw [Int.neg_mul] at hlow
    rw [hshifted]
    change _ ≤ _ * sensitivity operatingMode fullScale
    omega
  · have hhigh := Int.mul_le_mul_of_nonneg_right (Int.le_of_lt hlt) (Int.le_of_lt hpos)
    rw [hshifted]
    change _ * sensitivity operatingMode fullScale < _
    omega

/-! ## accel_read_acceleration with its memory -/

/-- `FIFO_SIZE`. -/
def fifoSize : Nat := 32

/-- `FIFO_BUFFER_SIZE`. -/
def fifoBufferSize : Nat := 1 + fifoSize * 6

/-- `fifo_buf` and the arrays of the caller. -/
structure Buffers where
  fifoBuf : List UInt8
  accelX : List Int16
  accelY : List Int16
  accelZ : List Int16

/-- The value of `*num_samples` before the FIFO is read. -/
def numSamples (fifoSrcReg : UInt8) (maxNumSamples : UInt32) : UInt8 :=
  let n := (fifoSrcReg &&& 0x1F) + 1
  let n := if 32 < n then 32 else n
  if maxNumSamples < n.toUInt32 then maxNumSamples.toUInt8 else n

/-- The transfer of `len` received bytes into `fifo_buf`; nothing where they do not fit. -/
def receive (fifoBuf : List UInt8) (rx : Nat → UInt8) (len : Nat) : Option (List UInt8) :=
  if len ≤ fifoBuf.length then some ((List.range len).map rx ++ fifoBuf.drop len) else none

/-- An assignment to an entry of an array; nothing where it is not in the array. -/
def assign (array : List Int16) (i : Nat) (value : Int16) : Option (List Int16) :=
  if i < array.length then some (array.set i value) else none

/-- The coordinate `k` of sample `i` in `fifo_buf`; nothing where a byte is not in it. -/
def coordinate (shiftFactor sensitivity : Int16) (fifoBuf : List UInt8) (i k : Nat) :
    Option Int16 := do
  let high ← fifoBuf[(i * 6 + (2 * k + 1)) + 1]?
  let low ← fifoBuf[(i * 6 + 2 * k) + 1]?
  pure (convert shiftFactor sensitivity low high)

/-- The first `n` turns of the loop that sets the output values. -/
def setOutputs (shiftFactor sensitivity : Int16) : Nat → Buffers → Option Buffers
  | 0, m => some m
  | i + 1, m => do
    let m ← setOutputs shiftFactor sensitivity i m
    let accelX ← assign m.accelX i (← coordinate shiftFactor sensitivity m.fifoBuf i 0)
    let accelY ← assign m.accelY i (← coordinate shiftFactor sensitivity m.fifoBuf i 1)
    let accelZ ← assign m.accelZ i (← coordinate shiftFactor sensitivity m.fifoBuf i 2)
    pure { m with accelX, accelY, accelZ }

/-- `accel_read_acceleration` when both transfers succeed: `fifoSrcReg` is what the first one
reads and `rx` what the second one receives, a header byte and the raw bytes of the samples. -/
def readInto (operatingMode : OperatingMode) (fullScale : FullScale) (fifoSrcReg : UInt8)
    (rx : Nat → UInt8) (maxNumSamples : UInt32) (m : Buffers) : Option (UInt8 × Buffers) := do
  let n := numSamples fifoSrcReg maxNumSamples
  let fifoBuf ← receive m.fifoBuf rx (n.toNat * 6 + 1)
  let (shiftFactor, sensitivity) := getShiftFactorAndSensitivity operatingMode fullScale
  let m ← setOutputs shiftFactor sensitivity n.toNat { m with fifoBuf }
  pure (n, m)

theorem numSamples_toNat (fifoSrcReg : UInt8) (maxNumSamples : UInt32) :
    (numSamples fifoSrcReg maxNumSamples).toNat =
      min (min ((fifoSrcReg &&& 0x1F).toNat + 1) 32) maxNumSamples.toNat := by
  have hle : (fifoSrcReg &&& 0x1F).toNat ≤ 31 := by
    rw [UInt8.toNat_and]
    exact Nat.and_le_right
  have hadd : ((fifoSrcReg &&& 0x1F) + 1).toNat = (fifoSrcReg &&& 0x1F).toNat + 1 := by
    rw [UInt8.toNat_add]
    apply Nat.mod_eq_of_lt
    change (fifoSrcReg &&& 0x1F).toNat + 1 < 256
    omega
  have hsafe : ¬ 32 < (fifoSrcReg &&& 0x1F) + 1 := by
    intro h
    have hlt := UInt8.lt_iff_toNat_lt.mp h
    rw [hadd] at hlt
    change 32 < _ at hlt
    omega
  unfold numSamples
  dsimp only
  rw [if_neg hsafe]
  split
  · next h =>
    have hlt := UInt32.lt_iff_toNat_lt.mp h
    rw [UInt8.toNat_toUInt32, hadd] at hlt
    rw [UInt32.toNat_toUInt8]
    omega
  · next h =>
    have hge : ¬ maxNumSamples.toNat < ((fifoSrcReg &&& 0x1F) + 1).toUInt32.toNat :=
      fun hlt => h (UInt32.lt_iff_toNat_lt.mpr hlt)
    rw [UInt8.toNat_toUInt32, hadd] at hge
    rw [hadd]
    omega

section Loop

variable {shiftFactor sensitivity : Int16}

/-- Coordinate `k` of sample `i` in the raw bytes. -/
def rawCoordinate (shiftFactor sensitivity : Int16) (rx : Nat → UInt8) (k i : Nat) : Int16 :=
  convert shiftFactor sensitivity (rx (i * 6 + 2 * k + 1)) (rx (i * 6 + (2 * k + 1) + 1))

theorem receive_ok {fifoBuf : List UInt8} {len : Nat} (h : len ≤ fifoBuf.length)
    (rx : Nat → UInt8) : ∃ buf, receive fifoBuf rx len = some buf ∧
      buf.length = fifoBuf.length ∧ (∀ i < len, buf[i]? = some (rx i)) ∧
      ∀ i, len ≤ i → buf[i]? = fifoBuf[i]? := by
  refine ⟨_, if_pos h, ?_, ?_, ?_⟩
  · simp
    omega
  · intro i hi
    rw [List.getElem?_append_left (by simpa using hi)]
    simp [hi]
  · intro i hi
    rw [List.getElem?_append_right (by simpa using hi), List.getElem?_drop]
    congr 1
    simp
    omega

/-- The entries below `n` are set, and the others stay. -/
def filled (f : Nat → Int16) (n : Nat) (array : List Int16) : List Int16 :=
  (List.range n).map f ++ array.drop n

theorem assign_filled {f : Nat → Int16} {n : Nat} {array : List Int16} (h : n < array.length) :
    assign (filled f n array) n (f n) = some (filled f (n + 1) array) := by
  have hlength : ((List.range n).map f).length = n := by simp
  have hn : n < (filled f n array).length := by
    rw [filled, List.length_append, List.length_drop, hlength]
    omega
  rw [assign, if_pos hn]
  congr 1
  rw [filled, filled, List.range_succ, List.map_append, List.append_assoc,
    List.set_append_right _ _ (by omega), hlength, Nat.sub_self, List.drop_eq_getElem_cons h]
  rfl

theorem setOutputs_ok {n : Nat} {m : Buffers} {rx : Nat → UInt8}
    (hbuf : ∀ i < n * 6 + 1, m.fifoBuf[i]? = some (rx i)) (hx : n ≤ m.accelX.length)
    (hy : n ≤ m.accelY.length) (hz : n ≤ m.accelZ.length) :
    setOutputs shiftFactor sensitivity n m = some { m with
      accelX := filled (rawCoordinate shiftFactor sensitivity rx 0) n m.accelX
      accelY := filled (rawCoordinate shiftFactor sensitivity rx 1) n m.accelY
      accelZ := filled (rawCoordinate shiftFactor sensitivity rx 2) n m.accelZ } := by
  induction n with
  | zero => rfl
  | succ n ih =>
    have hcoordinate (k : Nat) (hk : k < 3) : coordinate shiftFactor sensitivity m.fifoBuf n k =
        some (rawCoordinate shiftFactor sensitivity rx k n) := by
      rw [coordinate, hbuf _ (by omega), hbuf _ (by omega)]
      rfl
    have ih := ih (fun i hi => hbuf i (by omega)) (by omega) (by omega) (by omega)
    rw [setOutputs, ih]
    simp only [Option.bind_eq_bind, Option.bind_some, hcoordinate 0 (by decide),
      hcoordinate 1 (by decide), hcoordinate 2 (by decide), assign_filled (Nat.lt_of_succ_le hx),
      assign_filled (Nat.lt_of_succ_le hy), assign_filled (Nat.lt_of_succ_le hz)]
    rfl

end Loop

/-- The driver stays inside its buffer and sets the first entries of the arrays, as many as are
reported and one more, but not more than the FIFO or the caller has room for. -/
theorem readInto_ok {operatingMode : OperatingMode} {fullScale : FullScale} {m : Buffers}
    (hbuf : m.fifoBuf.length = fifoBufferSize) (fifoSrcReg : UInt8) (rx : Nat → UInt8)
    (maxNumSamples : UInt32) {n : Nat}
    (hn : n = min (min ((fifoSrcReg &&& 0x1F).toNat + 1) fifoSize) maxNumSamples.toNat)
    (hx : n ≤ m.accelX.length) (hy : n ≤ m.accelY.length) (hz : n ≤ m.accelZ.length) :
    let raw := rawCoordinate (getShiftFactorAndSensitivity operatingMode fullScale).1
      (getShiftFactorAndSensitivity operatingMode fullScale).2 rx
    ∃ fifoBuf, fifoBuf.length = fifoBufferSize ∧
      readInto operatingMode fullScale fifoSrcReg rx maxNumSamples m = some (UInt8.ofNat n,
        ⟨fifoBuf, filled (raw 0) n m.accelX, filled (raw 1) n m.accelY,
          filled (raw 2) n m.accelZ⟩) := by
  have hnum : (numSamples fifoSrcReg maxNumSamples).toNat = n := by
    rw [numSamples_toNat, hn]
    rfl
  have hroom : n * 6 + 1 ≤ m.fifoBuf.length := by
    rw [hbuf, fifoBufferSize, fifoSize] at *
    omega
  obtain ⟨buf, hreceive, hlength, hbytes, -⟩ := receive_ok hroom rx
  have hset : setOutputs (getShiftFactorAndSensitivity operatingMode fullScale).1
      (getShiftFactorAndSensitivity operatingMode fullScale).2 n { m with fifoBuf := buf } = _ :=
    setOutputs_ok (m := { m with fifoBuf := buf }) hbytes hx hy hz
  refine ⟨buf, hlength.trans hbuf, ?_⟩
  unfold readInto
  dsimp only
  rw [hnum, hreceive, Option.bind_eq_bind, Option.bind_some, Option.bind_eq_bind, hset,
    Option.bind_some, ← hnum, UInt8.ofNat_toNat]
  rfl

/-- What the second transfer receives: the byte for the address, then the raw bytes. -/
def received (header : UInt8) (out : Nat → UInt8) : Nat → UInt8
  | 0 => header
  | i + 1 => out i

/-- The samples in the raw bytes. -/
def rawSamples (operatingMode : OperatingMode) (fullScale : FullScale) (out : Nat → UInt8)
    (n : Nat) : List (Int16 × Int16 × Int16) :=
  let raw := rawCoordinate (getShiftFactorAndSensitivity operatingMode fullScale).1
    (getShiftFactorAndSensitivity operatingMode fullScale).2 (received 0 out)
  (List.range n).map fun i => (raw 0 i, raw 1 i, raw 2 i)

theorem rawSamples_length (operatingMode : OperatingMode) (fullScale : FullScale)
    (out : Nat → UInt8) (n : Nat) : (rawSamples operatingMode fullScale out n).length = n := by
  simp [rawSamples]

theorem rawCoordinate_received (shiftFactor sensitivity : Int16) (header : UInt8)
    (out : Nat → UInt8) (k i : Nat) :
    rawCoordinate shiftFactor sensitivity (received header out) k i =
      convert shiftFactor sensitivity (out (6 * i + 2 * k)) (out (6 * i + 2 * k + 1)) := by
  rw [rawCoordinate, Nat.mul_comm i 6]
  rfl

/-- The samples that the driver returns when both transfers succeed. -/
theorem readAcceleration_ok {s : State} (h : s.spi 0 = none) (h' : s.spi 1 = none) (max : Nat) :
    readAcceleration max s = (.ok (rawSamples s.operatingMode s.fullScale s.out
      (min (min ((s.registers .fifoSrcReg &&& 0x1F).toNat + 1) fifoSize) max)),
      { s with spi := fun i => s.spi (i + 1 + 1) }) := by
  have hread : readReg .fifoSrcReg s = (.ok (s.registers .fifoSrcReg),
      { s with spi := fun i => s.spi (i + 1) }) := by
    simp [readReg, Proc.bind_apply, spiTransmitReceive, h]
  have hsecond : spiTransmitReceive { s with spi := fun i => s.spi (i + 1) } =
      (.ok (), { s with spi := fun i => s.spi (i + 1 + 1) }) := by
    simp [spiTransmitReceive, h']
  have hraw (i k : Nat) := rawCoordinate_received
    (getShiftFactorAndSensitivity s.operatingMode s.fullScale).1
    (getShiftFactorAndSensitivity s.operatingMode s.fullScale).2 0 s.out k i
  rw [readAcceleration, Proc.bind_ok hread, Proc.bind_ok hsecond]
  simp only [rawSamples, hraw]
  rfl

/-! ## Exact values -/

/-- The number of samples that are read. -/
def State.numSamples (s : State) (maxNumSamples : Nat) : Nat :=
  min (min ((s.registers .fifoSrcReg &&& 0x1F).toNat + 1) fifoSize) maxNumSamples

/-- Coordinate `k` of raw sample `i`. -/
def State.rawSample (s : State) (i k : Nat) : Int :=
  Accel.rawSample s.operatingMode (s.out (6 * i + 2 * k)) (s.out (6 * i + 2 * k + 1))

/-- The mathematical value of coordinate `k` of sample `i`. -/
def State.exact (s : State) (i k : Nat) : Int :=
  s.rawSample i k * sensitivity s.operatingMode s.fullScale

/-- The array holds the exact values of coordinate `k` in its first entries and is otherwise
unchanged. -/
def State.Outputs (s : State) (k n : Nat) (old new : List Int16) : Prop :=
  (∀ i < n, ∃ value, new[i]? = some value ∧ value.toInt = s.exact i k) ∧
    ∀ i, n ≤ i → new[i]? = old[i]?

/-- The driver reads and writes inside `fifo_buf` and the first entries of the arrays, and these
get the exact values. -/
def State.ReadsExactly (s : State) (header : UInt8) (maxNumSamples : UInt32) (m : Buffers) : Prop :=
  ∃ m', readInto s.operatingMode s.fullScale (s.registers .fifoSrcReg) (received header s.out)
      maxNumSamples m = some (UInt8.ofNat (s.numSamples maxNumSamples.toNat), m') ∧
    m'.fifoBuf.length = fifoBufferSize ∧
    s.Outputs 0 (s.numSamples maxNumSamples.toNat) m.accelX m'.accelX ∧
    s.Outputs 1 (s.numSamples maxNumSamples.toNat) m.accelY m'.accelY ∧
    s.Outputs 2 (s.numSamples maxNumSamples.toNat) m.accelZ m'.accelZ

theorem rawCoordinate_exact {s : State} (h : s.operatingMode ≠ .powerDown) (header : UInt8)
    (k i : Nat) : (rawCoordinate (getShiftFactorAndSensitivity s.operatingMode s.fullScale).1
      (getShiftFactorAndSensitivity s.operatingMode s.fullScale).2 (received header s.out) k
        i).toInt = s.exact i k := by
  rw [rawCoordinate_received, convert_toInt h]
  rfl

theorem outputs_filled {s : State} {k n : Nat} {f : Nat → Int16} {array : List Int16}
    (hf : ∀ i, (f i).toInt = s.exact i k) : s.Outputs k n array (filled f n array) := by
  have hlength : ((List.range n).map f).length = n := by simp
  constructor
  · intro i hi
    refine ⟨f i, ?_, hf i⟩
    rw [filled, List.getElem?_append_left (by omega)]
    simp [hi]
  · intro i hi
    rw [filled, List.getElem?_append_right (by omega), hlength, List.getElem?_drop]
    congr 1
    omega

theorem readsExactly {s : State} (h : s.operatingMode ≠ .powerDown) (header : UInt8)
    (maxNumSamples : UInt32) {m : Buffers} (hbuf : m.fifoBuf.length = fifoBufferSize)
    (hx : s.numSamples maxNumSamples.toNat ≤ m.accelX.length)
    (hy : s.numSamples maxNumSamples.toNat ≤ m.accelY.length)
    (hz : s.numSamples maxNumSamples.toNat ≤ m.accelZ.length) :
    s.ReadsExactly header maxNumSamples m := by
  obtain ⟨fifoBuf, hlength, hread⟩ := readInto_ok hbuf (s.registers .fifoSrcReg)
    (received header s.out) maxNumSamples rfl hx hy hz
  have hexact := rawCoordinate_exact h header
  exact ⟨_, hread, hlength, outputs_filled (hexact 0), outputs_filled (hexact 1),
    outputs_filled (hexact 2)⟩

/-! ## The sum -/

/-- The sum of the absolute values of a raw sample. -/
def State.rawSum (s : State) (i : Nat) : Nat :=
  (s.rawSample i 0).natAbs + (s.rawSample i 1).natAbs + (s.rawSample i 2).natAbs

/-- The sum of the absolute values of a sample. -/
def State.exactSum (s : State) (i : Nat) : Nat :=
  (s.exact i 0).natAbs + (s.exact i 1).natAbs + (s.exact i 2).natAbs

/-- The largest raw sum that 16 bits hold at 16 g. -/
def OperatingMode.largestSum : OperatingMode → Nat
  | .powerDown => 0
  | .lowPower => 341
  | .normal => 1365
  | .highResolution => 5461

theorem exactSum_eq (s : State) (i : Nat) :
    s.exactSum i = s.rawSum i * (sensitivity s.operatingMode s.fullScale).natAbs := by
  simp only [State.exactSum, State.exact, State.rawSum, Int.natAbs_mul, Nat.add_mul]

theorem rawSum_le {s : State} {k : Nat} (hk : k = 4 ∨ k = 6 ∨ k = 8)
    (hbits : s.operatingMode.significantBits = 16 - k) (i : Nat) :
    s.rawSum i ≤ 3 * 2 ^ (15 - k) := by
  have hcoordinate (j : Nat) : (s.rawSample i j).natAbs ≤ 2 ^ (15 - k) := by
    obtain ⟨-, hle, hlt⟩ := rawSample_bounds hk hbits (s.out (6 * i + 2 * j))
      (s.out (6 * i + 2 * j + 1))
    change -2 ^ (15 - k) ≤ s.rawSample i j at hle
    change s.rawSample i j < 2 ^ (15 - k) at hlt
    have hcast : ((2 ^ (15 - k) : Nat) : Int) = 2 ^ (15 - k) := by simp
    omega
  have h0 := hcoordinate 0
  have h1 := hcoordinate 1
  have h2 := hcoordinate 2
  rw [State.rawSum]
  omega

/-- The three largest samples fit 16 bits below 16 g, and at 16 g up to the largest sum. -/
theorem largestSum_spec {operatingMode : OperatingMode} (h : operatingMode ≠ .powerDown) :
    ∃ k, (k = 4 ∨ k = 6 ∨ k = 8) ∧ operatingMode.significantBits = 16 - k ∧
      (∀ f ≠ FullScale.g16, 3 * 2 ^ (15 - k) * (sensitivity operatingMode f).natAbs < 2 ^ 16) ∧
      operatingMode.largestSum * (sensitivity operatingMode .g16).natAbs < 2 ^ 16 ∧
      2 ^ 16 ≤ (operatingMode.largestSum + 1) * (sensitivity operatingMode .g16).natAbs := by
  have below (f : FullScale) (hf : f ≠ .g16) : f = .g2 ∨ f = .g4 ∨ f = .g8 := by
    cases f <;> simp at hf ⊢
  cases operatingMode with
  | powerDown => exact absurd rfl h
  | lowPower =>
    refine ⟨8, by decide, rfl, fun f hf => ?_, by decide, by decide⟩
    rcases below f hf with rfl | rfl | rfl <;> decide
  | normal =>
    refine ⟨6, by decide, rfl, fun f hf => ?_, by decide, by decide⟩
    rcases below f hf with rfl | rfl | rfl <;> decide
  | highResolution =>
    refine ⟨4, by decide, rfl, fun f hf => ?_, by decide, by decide⟩
    rcases below f hf with rfl | rfl | rfl <;> decide

/-- Only at 16 g are there sums that need more than 16 bits. -/
theorem exactSum_lt_iff {s : State} (h : s.operatingMode ≠ .powerDown) (i : Nat) :
    s.exactSum i < 2 ^ 16 ↔
      s.fullScale ≠ .g16 ∨ s.rawSum i ≤ s.operatingMode.largestSum := by
  obtain ⟨k, hk, hbits, hbelow, hfits, hover⟩ := largestSum_spec h
  rw [exactSum_eq]
  by_cases hf : s.fullScale = .g16
  · rw [hf]
    constructor
    · intro hlt
      right
      by_contra hgt
      have hmul := Nat.mul_le_mul_right (sensitivity s.operatingMode .g16).natAbs
        (Nat.lt_of_not_le hgt)
      exact absurd (Nat.lt_of_lt_of_le hlt hover) (Nat.not_lt.mpr hmul)
    · intro hor
      have hle : s.rawSum i ≤ s.operatingMode.largestSum := by
        rcases hor with hne | hle
        · exact absurd rfl hne
        · exact hle
      exact Nat.lt_of_le_of_lt (Nat.mul_le_mul_right _ hle) hfits
  · constructor
    · exact fun _ => .inl hf
    · intro _
      exact Nat.lt_of_le_of_lt (Nat.mul_le_mul_right _ (rawSum_le hk hbits i)) (hbelow _ hf)

/-- The sum the sampling takes of a sample is the exact one. -/
theorem absoluteSum_rawSamples {s : State} (h : s.operatingMode ≠ .powerDown) {n i : Nat}
    (hi : i < (rawSamples s.operatingMode s.fullScale s.out n).length) :
    Sampling.absoluteSum (rawSamples s.operatingMode s.fullScale s.out n)[i] = s.exactSum i := by
  have hexact := fun k => rawCoordinate_exact h 0 k i
  simp only [rawSamples, List.getElem_map, List.getElem_range, Sampling.absoluteSum, hexact]
  rfl

end OpenBadge.Accel

namespace OpenBadge.Sampling

open OpenBadge.Lib

variable (flash : Nat → UInt8)

/-! ## The stored sum -/

/-- The acceleration that stands in an entry of the chunk at `ptr`. -/
def State.acceleration (s : State) (ptr index : Nat) : Nat :=
  ((s.fifos .accelerometer).buf (ptr + accelerometerData index)).toNat +
    256 * ((s.fifos .accelerometer).buf (ptr + accelerometerData index + 1)).toNat

/-- The callback after the loop over the samples. -/
def countSamples (num : UInt8) (n : Nat) : P Unit := do
  Interrupted.writeChunk .accelerometer none accelerometerCount [num + UInt8.ofNat n]
  let t ← Interrupted.lookChunk .accelerometer
  Program.when (Source.accelerometer.dataSize ≤
      (t.chunkByte flash .accelerometer accelerometerCount).toNat)
    Interrupted.finalizeAccelerometerChunk

theorem littleEndian_two (n : Nat) : littleEndian 2 n = [UInt8.ofNat n, UInt8.ofNat (n / 256)] := rfl

/-- The sum of two bytes is what 16 bits hold of the number. -/
theorem littleEndian_two_value (n : Nat) :
    (UInt8.ofNat n).toNat + 256 * (UInt8.ofNat (n / 256)).toNat = n % 2 ^ 16 := by
  rw [UInt8.toNat_ofNat', UInt8.toNat_ofNat']
  omega

/-- One turn of the loop. -/
theorem writeSample_run {s : State} {ptr : Nat} (h : s.chunks .accelerometer = some ptr)
    (index n : Nat) : ∃ t, (Interrupted.writeChunk .accelerometer (some index)
        (accelerometerData index) (littleEndian 2 n)).run s = (.ok (), t) ∧
      t.chunks = s.chunks ∧ t.acceleration ptr index = n % 2 ^ 16 ∧
      ∀ x < ptr + accelerometerData index,
        (t.fifos .accelerometer).buf x = (s.fifos .accelerometer).buf x := by
  have hrun : (Interrupted.writeChunk .accelerometer (some index) (accelerometerData index)
      (littleEndian 2 n)).run s = (.ok (), { s with
        fifos := Function.update s.fifos .accelerometer { s.fifos .accelerometer with
          buf := overwrite (s.fifos .accelerometer).buf (ptr + accelerometerData index)
            (littleEndian 2 n) } }) := by
    simp only [Interrupted.writeChunk, Program.run_call, writeChunk, Proc.modify_apply, h]
  refine ⟨_, hrun, rfl, ?_, ?_⟩
  · rw [← littleEndian_two_value n]
    simp only [State.acceleration, Function.update_self]
    have h0 := overwrite_add (s.fifos .accelerometer).buf (ptr + accelerometerData index)
      (littleEndian 2 n) (i := 0) (by simp [littleEndian_two])
    have h1 := overwrite_add (s.fifos .accelerometer).buf (ptr + accelerometerData index)
      (littleEndian 2 n) (i := 1) (by simp [littleEndian_two])
    rw [Nat.add_zero] at h0
    rw [h0, h1]
    rfl
  · intro x hx
    simp only [Function.update_self]
    exact overwrite_of_lt _ _ hx

/-- The loop leaves in each entry what 16 bits hold of the sum of its sample. -/
theorem writeSamples_run {ptr : Nat} (num : Nat) (samples : List (Int16 × Int16 × Int16))
    (i : Nat) {s : State} (h : s.chunks .accelerometer = some ptr) :
    ∃ t, (Interrupted.writeSamples num i samples).run s = (.ok (), t) ∧
      (∀ x < ptr + accelerometerData (num + i),
        (t.fifos .accelerometer).buf x = (s.fifos .accelerometer).buf x) ∧
      ∀ j (hj : j < samples.length),
        t.acceleration ptr (num + i + j) = absoluteSum samples[j] % 2 ^ 16 := by
  induction samples generalizing i s with
  | nil => exact ⟨s, rfl, fun _ _ => rfl, fun j hj => absurd hj (Nat.not_lt_zero j)⟩
  | cons sample samples ih =>
    obtain ⟨t, ht, hchunks, hvalue, hframe⟩ := writeSample_run h (num + i) (absoluteSum sample)
    obtain ⟨u, hu, hframe', hvalues⟩ := ih (i + 1) (hchunks ▸ h : t.chunks .accelerometer = some ptr)
    have hnext : accelerometerData (num + (i + 1)) = accelerometerData (num + i) + 2 := by
      rw [accelerometerData, accelerometerData]
      omega
    refine ⟨u, ?_, ?_, ?_⟩
    · rw [Interrupted.writeSamples, Program.run_bind, Proc.bind_ok ht]
      exact hu
    · intro x hx
      rw [hframe' x (by omega), hframe x hx]
    · intro j hj
      cases j with
      | zero =>
        rw [Nat.add_zero, List.getElem_cons_zero, ← hvalue, State.acceleration, State.acceleration,
          hframe' _ (by omega), hframe' _ (by omega)]
      | succ j =>
        have hindex : num + i + (j + 1) = num + (i + 1) + j := by omega
        rw [hindex, List.getElem_cons_succ]
        exact hvalues j (Nat.lt_of_succ_lt_succ hj)

/-- The room in the chunk, as the callback computes it. -/
def remainingNumSamples (num : UInt8) : UInt32 :=
  UInt32.ofNat Source.accelerometer.dataSize - num.toUInt32

/-- The callback reads the samples, goes through the loop and counts them. -/
theorem fifoCallback_run {s : State} (hbit : s.configuration .accelerometer false = true)
    (h0 : s.accel.spi 0 = none) (h1 : s.accel.spi 1 = none) :
    let num := s.chunkByte flash .accelerometer accelerometerCount
    let n := s.accel.numSamples (remainingNumSamples num).toNat
    (Interrupted.accelerometerFifoCallback flash).run s =
      (do
        Interrupted.writeSamples num.toNat 0
          (Accel.rawSamples s.accel.operatingMode s.accel.fullScale s.accel.out n)
        countSamples flash num n : P Unit).run
        { s with accel := { s.accel with spi := fun i => s.accel.spi (i + 1 + 1) } } := by
  intro num n
  have hoff : ¬ s.Off .accelerometer := by
    intro h
    rw [State.Off, hbit] at h
    simp at h
  have hread : onAccel (Accel.readAcceleration (remainingNumSamples num).toNat) s =
      (.ok (Accel.rawSamples s.accel.operatingMode s.accel.fullScale s.accel.out n),
        { s with accel := { s.accel with spi := fun i => s.accel.spi (i + 1 + 1) } }) := by
    rw [onAccel, Proc.within, Accel.readAcceleration_ok h0 h1]
    rfl
  have hlook : (Interrupted.lookChunk .accelerometer).run = (Proc.get : M State) := rfl
  simp only [Interrupted.accelerometerFifoCallback, Program.run_bind, Program.run_when,
    Interrupted.run_lift, Proc.get_bind_apply]
  rw [Proc.when_pos hoff, hlook, Proc.get_bind_apply]
  change (onAccel (Accel.readAcceleration (remainingNumSamples num).toNat) >>= _) s = _
  rw [Proc.bind_ok hread, Proc.when_pos hbit, Accel.rawSamples_length]
  simp only [countSamples, Program.run_bind, Program.run_when, hlook]
  rfl

/-- Everything but the stored sum is exact in every configuration, and the sum is exactly where it
fits into 16 bits: below 16 g always, and at 16 g up to the largest sum of the mode. -/
theorem acceleration_exact_iff {s : State} {ptr : Nat}
    (hmode : s.accel.operatingMode ≠ .powerDown) (h0 : s.accel.spi 0 = none)
    (h1 : s.accel.spi 1 = none) (hbit : s.configuration .accelerometer false = true)
    (hptr : s.chunks .accelerometer = some ptr) :
    (∀ header (maxNumSamples : UInt32) (m : Accel.Buffers),
      m.fifoBuf.length = Accel.fifoBufferSize →
      s.accel.numSamples maxNumSamples.toNat ≤ m.accelX.length →
      s.accel.numSamples maxNumSamples.toNat ≤ m.accelY.length →
      s.accel.numSamples maxNumSamples.toNat ≤ m.accelZ.length →
      s.accel.ReadsExactly header maxNumSamples m) ∧
    let num := s.chunkByte flash .accelerometer accelerometerCount
    let n := s.accel.numSamples (remainingNumSamples num).toNat
    ∃ t, (Interrupted.accelerometerFifoCallback flash).run s =
        (countSamples flash num n).run t ∧
      ∀ i < n, t.acceleration ptr (num.toNat + i) = s.accel.exactSum i ↔
        s.accel.fullScale ≠ .g16 ∨
          s.accel.rawSum i ≤ s.accel.operatingMode.largestSum := by
  constructor
  · intro header maxNumSamples m hbuf hx hy hz
    exact Accel.readsExactly hmode header maxNumSamples hbuf hx hy hz
  · intro num n
    let u : State := { s with accel := { s.accel with spi := fun i => s.accel.spi (i + 1 + 1) } }
    have hu : u.chunks .accelerometer = some ptr := hptr
    obtain ⟨t, ht, -, hvalues⟩ := writeSamples_run num.toNat
      (Accel.rawSamples s.accel.operatingMode s.accel.fullScale s.accel.out n) 0 hu
    have hrun := fifoCallback_run flash hbit h0 h1
    refine ⟨t, ?_, fun i hi => ?_⟩
    · rw [hrun, Program.run_bind, Proc.bind_ok ht]
    · have hlength : i < (Accel.rawSamples s.accel.operatingMode s.accel.fullScale s.accel.out
          n).length := by
        rw [Accel.rawSamples_length]
        exact hi
      have hvalue := hvalues i hlength
      rw [Nat.add_zero, Accel.absoluteSum_rawSamples hmode] at hvalue
      rw [hvalue, ← Accel.exactSum_lt_iff hmode]
      exact Nat.mod_eq_iff_lt (by decide)

/-- A badge with an open chunk that samples the accelerometer in high resolution at the given full
scale, and a sensor that has one sample in its FIFO, with these raw bytes. -/
def sampledOnce (fullScale : Accel.FullScale) (out : Nat → UInt8) : State :=
  let s := Sampling.init { resetAccel with
    operatingMode := .highResolution
    fullScale
    out } (fun _ => false) fun _ _ _ => false
  { s with
    configuration := fun source streaming => source = .accelerometer && !streaming
    chunks := fun _ => some 0 }

theorem acceleration_exact_iff_g2 :
    ∃ t, (Interrupted.accelerometerFifoCallback fun _ => 0).run (sampledOnce .g2 fun _ => 0x7F) =
        (countSamples (fun _ => 0) 0 1).run t ∧
      t.acceleration 0 0 = (sampledOnce .g2 fun _ => 0x7F).accel.exactSum 0 := by
  obtain ⟨t, hrun, hvalues⟩ := (acceleration_exact_iff (fun _ => 0)
    (s := sampledOnce .g2 fun _ => 0x7F) (by decide) rfl rfl rfl rfl).2
  exact ⟨t, hrun, (hvalues 0 (by decide)).mpr (.inl (by decide))⟩

/-- The largest sample at 16 g: three times 24,564 mg are stored as 8,156. -/
theorem acceleration_truncated :
    ((Interrupted.accelerometerFifoCallback fun _ => 0).run
      (sampledOnce .g16 fun i => if i % 2 = 0 then 0xF0 else 0x7F)).2.acceleration 0 0 = 8156 ∧
    (sampledOnce .g16 fun i => if i % 2 = 0 then 0xF0 else 0x7F).accel.exactSum 0 = 73692 := by
  decide +kernel

end OpenBadge.Sampling
