import Mathlib.Algebra.Group.Nat.Defs
import Mathlib.Data.List.Basic
import Mathlib.Logic.Function.Iterate
import Mathlib.Tactic.Common

/-!
# Cyclic redundancy checks, bit by bit

A register of `w` bits is divided by a polynomial of degree `w`, the most significant
bit first; `poly` holds the coefficients below the leading one. The rules are about
the register after a block of bits, for every width and polynomial.
-/

namespace OpenBadge.Lib.Crc

variable {w : Nat}

/-- One message bit: the bit that leaves the register decides whether the polynomial is
subtracted. -/
def feedBit (poly r : BitVec w) (b : Bool) : BitVec w :=
  if r.msb ^^ b then r <<< 1 ^^^ poly else r <<< 1

def feedBits (poly r : BitVec w) (bits : List Bool) : BitVec w := bits.foldl (feedBit poly) r

/-- The bits of a byte, the most significant one first. -/
def byteBits (b : UInt8) : List Bool := (List.range 8).map fun i => b.toBitVec.getLsbD (7 - i)

def bitsOf (bytes : List UInt8) : List Bool := bytes.flatMap byteBits

/-- A step of the register without a message bit. -/
def shift (poly r : BitVec w) : BitVec w := feedBit poly r false

/-- A message bit at the upper end of the register. -/
def top (w : Nat) (b : Bool) : BitVec w := if b then BitVec.twoPow w (w - 1) else 0

/-- The first bits of a message, lined up with the upper end of the register. -/
def load (w : Nat) : List Bool → BitVec w
  | [] => 0
  | b :: bits => top w b ^^^ load w bits >>> 1

theorem feedBits_append (poly r : BitVec w) (bits bits' : List Bool) :
    feedBits poly r (bits ++ bits') = feedBits poly (feedBits poly r bits) bits' :=
  List.foldl_append

theorem byteBits_length (b : UInt8) : (byteBits b).length = 8 := by
  rw [byteBits, List.length_map, List.length_range]

theorem bitsOf_length (bytes : List UInt8) : (bitsOf bytes).length = 8 * bytes.length := by
  induction bytes with
  | nil => rfl
  | cons b bytes ih =>
    rw [bitsOf, List.flatMap_cons, List.length_append, byteBits_length, ← bitsOf, ih,
      List.length_cons]
    omega

theorem byteBits_injective {a b : UInt8} (h : byteBits a = byteBits b) : a = b := by
  apply UInt8.toBitVec_inj.mp
  apply BitVec.eq_of_getLsbD_eq
  intro i hi
  have hbit : (byteBits a)[7 - i]? = (byteBits b)[7 - i]? := by rw [h]
  rw [byteBits, byteBits, List.getElem?_map, List.getElem?_map, List.getElem?_range (by omega),
    Option.map_some, Option.map_some, Option.some_inj] at hbit
  rw [show 7 - (7 - i) = i by omega] at hbit
  exact hbit

theorem bitsOf_injective {x y : List UInt8} (h : bitsOf x = bitsOf y) : x = y := by
  induction x generalizing y with
  | nil =>
    have hlen : 8 * y.length = 0 := by rw [← bitsOf_length, ← h]; rfl
    exact (List.eq_nil_of_length_eq_zero (by omega)).symm
  | cons a x ih =>
    cases y with
    | nil =>
      have hlen : 8 * (a :: x).length = 0 := by rw [← bitsOf_length, h]; rfl
      rw [List.length_cons] at hlen
      omega
    | cons b y =>
      have hbits : byteBits a ++ bitsOf x = byteBits b ++ bitsOf y := h
      obtain ⟨hab, hxy⟩ := List.append_inj hbits (by rw [byteBits_length, byteBits_length])
      rw [byteBits_injective hab, ih hxy]

section Register

variable (poly r s : BitVec w) (b : Bool)

theorem msb_top (hw : 0 < w) : (top w b).msb = b := by
  cases b
  · simp [top]
  · simp [top, BitVec.msb_twoPow]
    omega

theorem top_shiftLeft (hw : 0 < w) : top w b <<< 1 = 0 := by
  apply BitVec.eq_of_getLsbD_eq
  intro i hi
  cases b
  · simp [top]
  · simp only [top, if_true, BitVec.getLsbD_shiftLeft, BitVec.getLsbD_twoPow]
    simp
    omega

/-- A message bit may be added to the register in front of the step. -/
theorem feedBit_eq_shift (hw : 0 < w) : feedBit poly r b = shift poly (r ^^^ top w b) := by
  unfold shift feedBit
  rw [BitVec.msb_xor, msb_top b hw, Bool.xor_false, BitVec.shiftLeft_xor_distrib,
    top_shiftLeft b hw, BitVec.ofNat_eq_ofNat, BitVec.xor_zero]

theorem shift_xor : shift poly (r ^^^ s) = shift poly r ^^^ shift poly s := by
  unfold shift feedBit
  rw [BitVec.msb_xor, BitVec.shiftLeft_xor_distrib]
  cases r.msb <;> cases s.msb
  · rfl
  · exact BitVec.xor_assoc _ _ _
  · show r <<< 1 ^^^ s <<< 1 ^^^ poly = r <<< 1 ^^^ poly ^^^ s <<< 1
    ac_rfl
  · show r <<< 1 ^^^ s <<< 1 = r <<< 1 ^^^ poly ^^^ (s <<< 1 ^^^ poly)
    rw [BitVec.xor_comm (s <<< 1), BitVec.xor_assoc (r <<< 1) poly, ← BitVec.xor_assoc poly,
      BitVec.xor_self, BitVec.zero_xor]

theorem shifts_xor (n : Nat) :
    (shift poly)^[n] (r ^^^ s) = (shift poly)^[n] r ^^^ (shift poly)^[n] s := by
  induction n generalizing r s with
  | zero => rfl
  | succ n ih => rw [Function.iterate_succ_apply, shift_xor, ih]; rfl

/-- A register with a clear upper bit only moves up. -/
theorem shift_ushiftRight (h : r.getLsbD 0 = false) : shift poly (r >>> 1) = r := by
  have hmsb : (r >>> 1).msb = false := by
    rw [BitVec.msb_ushiftRight]
    rfl
  unfold shift feedBit
  rw [hmsb, if_neg (by decide)]
  apply BitVec.eq_of_getLsbD_eq
  intro i hi
  rw [BitVec.getLsbD_shiftLeft, BitVec.getLsbD_ushiftRight]
  rcases Nat.eq_zero_or_pos i with rfl | hpos
  · simp [h]
  · simp [hi, show ¬ i < 1 by omega, show 1 + (i - 1) = i by omega]

/-- With a constant term in the polynomial the register can be stepped back. -/
theorem shift_injective (hpoly : poly.getLsbD 0 = true) (h : shift poly r = shift poly s) :
    r = s := by
  have hw : 0 < w := Nat.pos_of_ne_zero fun hzero => by subst hzero; simp at hpoly
  have hmsb : r.msb = s.msb := by
    have hbit := congrArg (fun x => x.getLsbD 0) h
    unfold shift feedBit at hbit
    cases hr : r.msb <;> cases hs : s.msb <;> simp_all
  have hleft : r <<< 1 = s <<< 1 := by
    unfold shift feedBit at h
    rw [hmsb] at h
    cases hs : s.msb
    · rw [hs] at h
      exact h
    · rw [hs] at h
      exact (BitVec.xor_left_inj poly).mp h
  apply BitVec.eq_of_getLsbD_eq
  intro i hi
  by_cases hlast : i = w - 1
  · rw [BitVec.msb_eq_getLsbD_last, BitVec.msb_eq_getLsbD_last] at hmsb
    rw [hlast]
    exact hmsb
  · have hbit := congrArg (fun x => x.getLsbD (i + 1)) hleft
    simp only [BitVec.getLsbD_shiftLeft, Nat.add_sub_cancel] at hbit
    simpa [show i + 1 < w by omega] using hbit

theorem shifts_injective (hpoly : poly.getLsbD 0 = true) (n : Nat)
    (h : (shift poly)^[n] r = (shift poly)^[n] s) : r = s :=
  Function.Injective.iterate (fun _ _ h => shift_injective poly _ _ hpoly h) n h

/-- Message bits that agree never bring two registers together. -/
theorem feedBits_injective (hpoly : poly.getLsbD 0 = true) (bits : List Bool)
    (h : feedBits poly r bits = feedBits poly s bits) : r = s := by
  have hw : 0 < w := Nat.pos_of_ne_zero fun hzero => by subst hzero; simp at hpoly
  induction bits generalizing r s with
  | nil => exact h
  | cons b bits ih =>
    have hstep : feedBit poly r b = feedBit poly s b := ih _ _ h
    rw [feedBit_eq_shift poly r b hw, feedBit_eq_shift poly s b hw] at hstep
    exact (BitVec.xor_left_inj _).mp (shift_injective poly _ _ hpoly hstep)

end Register

section Load

/-- Below the loaded bits the register is clear. -/
theorem load_getLsbD (bits : List Bool) {i : Nat} (h : i + bits.length < w) :
    (load w bits).getLsbD i = false := by
  induction bits generalizing i with
  | nil => exact BitVec.getLsbD_zero
  | cons b bits ih =>
    rw [List.length_cons] at h
    rw [load, BitVec.getLsbD_xor, BitVec.getLsbD_ushiftRight, ih (by omega), Bool.xor_false]
    cases b
    · exact BitVec.getLsbD_zero
    · rw [top, if_pos rfl, BitVec.getLsbD_twoPow, decide_eq_false (show ¬ w - 1 = i by omega),
        Bool.and_false]

/-- A block of at most `w` bits is added to the register at once. -/
theorem feedBits_eq_shifts (poly r : BitVec w) (bits : List Bool) (h : bits.length ≤ w) :
    feedBits poly r bits = (shift poly)^[bits.length] (r ^^^ load w bits) := by
  induction bits generalizing r with
  | nil =>
    rw [load, BitVec.ofNat_eq_ofNat, BitVec.xor_zero]
    rfl
  | cons b bits ih =>
    rw [List.length_cons] at h
    have hstep : feedBits poly r (b :: bits) = feedBits poly (feedBit poly r b) bits := rfl
    have hload : shift poly (load w bits >>> 1) = load w bits :=
      shift_ushiftRight poly _ (load_getLsbD bits (by omega))
    rw [hstep, ih _ (by omega), feedBit_eq_shift poly r b (by omega), List.length_cons,
      Function.iterate_succ_apply, load, ← BitVec.xor_assoc, shift_xor poly _ (load w bits >>> 1),
      hload]

theorem load_injective {x y : List Bool} (hlen : x.length = y.length) (hw : x.length ≤ w)
    (h : load w x = load w y) : x = y := by
  induction x generalizing y with
  | nil => exact (List.eq_nil_of_length_eq_zero hlen.symm).symm
  | cons b x ih =>
    obtain ⟨c, y, rfl⟩ := List.exists_cons_of_length_eq_add_one hlen.symm
    rw [List.length_cons] at hw
    rw [List.length_cons, List.length_cons] at hlen
    have hpos : 0 < w := by omega
    have hbc : b = c := by
      have hmsb := congrArg BitVec.msb h
      rw [load, load, BitVec.msb_xor, BitVec.msb_xor, BitVec.msb_ushiftRight,
        BitVec.msb_ushiftRight, msb_top b hpos, msb_top c hpos] at hmsb
      simpa using hmsb
    subst hbc
    have htail : load w x >>> 1 = load w y >>> 1 := (BitVec.xor_right_inj _).mp h
    have heq : load w x = load w y := by
      rw [← shift_ushiftRight 0 _ (load_getLsbD x (show 0 + x.length < w by omega)), htail,
        shift_ushiftRight 0 _ (load_getLsbD y (by omega))]
    rw [ih (by omega) (by omega) heq]

end Load

section Burst

variable {poly r : BitVec w}

/-- Blocks of at most `w` bits lead to different registers. -/
theorem feedBits_ne_of_short (hpoly : poly.getLsbD 0 = true) {x y : List Bool}
    (hlen : x.length = y.length) (hw : x.length ≤ w) (hne : x ≠ y) :
    feedBits poly r x ≠ feedBits poly r y := by
  intro h
  rw [feedBits_eq_shifts poly r x hw, feedBits_eq_shifts poly r y (hlen ▸ hw), hlen] at h
  have hload := (BitVec.xor_right_inj r).mp (shifts_injective poly _ _ hpoly _ h)
  exact hne (load_injective hlen hw hload)

/-- The messages differ at most in the `w` bits from `start` on. -/
def DifferWithin (w start : Nat) (x y : List Bool) : Prop :=
  ∀ i, x[i]? ≠ y[i]? → start ≤ i ∧ i < start + w

/-- Every burst of at most `w` bits is detected. -/
theorem burst_detected (hpoly : poly.getLsbD 0 = true) {x y : List Bool} {start : Nat}
    (hlen : x.length = y.length) (hne : x ≠ y) (hwithin : DifferWithin w start x y) :
    feedBits poly r x ≠ feedBits poly r y := by
  have hsame : ∀ i, ¬ (start ≤ i ∧ i < start + w) → x[i]? = y[i]? := fun i hi =>
    not_not.mp (mt (hwithin i) hi)
  have hbefore : x.take start = y.take start := by
    apply List.ext_getElem?
    intro i
    rw [List.getElem?_take, List.getElem?_take]
    split
    · exact hsame i (by omega)
    · rfl
  have hbehind : x.drop (start + w) = y.drop (start + w) := by
    apply List.ext_getElem?
    intro i
    rw [List.getElem?_drop, List.getElem?_drop]
    exact hsame _ (by omega)
  have hsplit : ∀ z : List Bool,
      z = z.take start ++ ((z.drop start).take w ++ z.drop (start + w)) := by
    intro z
    rw [← List.drop_drop, List.take_append_drop, List.take_append_drop]
  rw [hsplit x, hsplit y, hbefore, hbehind, feedBits_append, feedBits_append, feedBits_append,
    feedBits_append]
  intro h
  refine feedBits_ne_of_short hpoly ?_ ?_ ?_ (feedBits_injective poly _ _ hpoly _ h)
  · rw [List.length_take, List.length_take, List.length_drop, List.length_drop, hlen]
  · rw [List.length_take]
    exact Nat.min_le_left _ _
  · intro hmiddle
    apply hne
    rw [hsplit x, hsplit y, hbefore, hbehind, hmiddle]

end Burst

end OpenBadge.Lib.Crc
