import Mathlib.Data.Nat.Log
import Mathlib.Tactic.Ring

/-!
# Double-precision numbers by their fields

A number is its sign, its biased exponent and its fraction. A finite one is a
whole number of units of `2^-1074`, so which doubles are integers, and which
integer each is, needs no rational arithmetic. An integer below `2^53` in
magnitude has one double, apart from the two zeros.
-/

namespace Trpi.Library

def bigEndian : Nat → Nat → List UInt8
  | 0, _ => []
  | width + 1, value => UInt8.ofNat (value / 256 ^ width) :: bigEndian width value

def ofBigEndian (bytes : List UInt8) : Nat :=
  bytes.foldl (fun value byte => value * 256 + byte.toNat) 0

@[simp] theorem length_bigEndian (width v : Nat) : (bigEndian width v).length = width := by
  induction width with
  | zero => rfl
  | succ width ih => simp [bigEndian, ih]

theorem foldl_bigEndian (width v start : Nat) :
    (bigEndian width v).foldl (fun v byte => v * 256 + byte.toNat) start =
      start * 256 ^ width + v % 256 ^ width := by
  induction width generalizing start with
  | zero => simp [bigEndian, Nat.mod_one]
  | succ width ih =>
    have top : (UInt8.ofNat (v / 256 ^ width)).toNat = v / 256 ^ width % 256 := by
      rw [UInt8.toNat_ofNat']
    have split : v % 256 ^ (width + 1) =
        v % 256 ^ width + 256 ^ width * (v / 256 ^ width % 256) := by
      rw [Nat.pow_succ, Nat.mod_mul]
    simp only [bigEndian, List.foldl_cons, ih, top, split]
    ring

theorem ofBigEndian_bigEndian {width v : Nat} (fits : v < 256 ^ width) :
    ofBigEndian (bigEndian width v) = v := by
  rw [ofBigEndian, foldl_bigEndian, Nat.zero_mul, Nat.zero_add, Nat.mod_eq_of_lt fits]

structure Binary64 where
  sign : Bool
  exponent : Fin 2048
  fraction : Fin (2 ^ 52)
  deriving DecidableEq

namespace Binary64

def negativeZero : Binary64 := ⟨true, 0, 0⟩

def isFinite (number : Binary64) : Bool := number.exponent ≠ 2047

def significand (number : Binary64) : Nat :=
  if number.exponent.val = 0 then number.fraction.val else 2 ^ 52 + number.fraction.val

/-- A finite number is a whole number of units of `2^-1074`. -/
def fractionalBits : Nat := 1074

/-- The absolute value of a finite number in these units. -/
def magnitude (number : Binary64) : Nat :=
  number.significand * 2 ^ (number.exponent.val - 1)

def natAbs (number : Binary64) : Nat := number.magnitude / 2 ^ fractionalBits

def isInteger (number : Binary64) : Bool :=
  number.isFinite && decide (2 ^ fractionalBits ∣ number.magnitude)

/-- The value of an integer. -/
def toInt (number : Binary64) : Int :=
  if number.sign then -(number.natAbs : Int) else number.natAbs

def maxSafeInteger : Nat := 2 ^ 53 - 1

def isSafeInteger (number : Binary64) : Bool :=
  number.isInteger && decide (number.natAbs ≤ maxSafeInteger)

/-- The double of an integer of at most 53 bits. -/
def ofNatAbs (sign : Bool) (n : Nat) : Binary64 :=
  if n = 0 then ⟨false, 0, 0⟩
  else ⟨sign, Fin.ofNat 2048 (1023 + n.log2), Fin.ofNat (2 ^ 52) (n * 2 ^ (52 - n.log2))⟩

def ofInt (value : Int) : Binary64 := ofNatAbs (value < 0) value.natAbs

variable {number : Binary64}

theorem isSafeInteger_iff :
    number.isSafeInteger = true ↔ number.isInteger = true ∧ number.natAbs ≤ maxSafeInteger := by
  rw [isSafeInteger, Bool.and_eq_true, decide_eq_true_eq]

theorem significand_lt (number : Binary64) : number.significand < 2 ^ 53 := by
  have := number.fraction.isLt
  unfold significand
  split <;> omega

theorem le_significand (normal : number.exponent.val ≠ 0) : 2 ^ 52 ≤ number.significand := by
  rw [significand, if_neg normal]
  omega

theorem magnitude_eq (integer : number.isInteger = true) :
    number.magnitude = number.natAbs * 2 ^ fractionalBits := by
  simp only [isInteger, Bool.and_eq_true, decide_eq_true_eq] at integer
  rw [natAbs, Nat.div_mul_cancel integer.2]

theorem exponent_of_integer (integer : number.isInteger = true) (nonzero : number.natAbs ≠ 0) :
    number.exponent.val = 1023 + number.natAbs.log2 := by
  have scaled := magnitude_eq integer
  have positive : 2 ^ fractionalBits ≤ number.magnitude := by
    rw [scaled]
    exact Nat.le_mul_of_pos_left _ (Nat.pos_of_ne_zero nonzero)
  have normal : number.exponent.val ≠ 0 := by
    intro subnormal
    have small := number.significand_lt
    have wide : 2 ^ 53 ≤ 2 ^ fractionalBits := Nat.pow_le_pow_right (by omega) (by decide)
    rw [magnitude, subnormal, Nat.zero_sub, Nat.pow_zero, Nat.mul_one] at positive
    exact absurd (Nat.lt_of_lt_of_le small wide) (Nat.not_lt.mpr positive)
  obtain ⟨e, exponent⟩ := Nat.exists_eq_succ_of_ne_zero normal
  have low : 2 ^ (52 + e) ≤ number.natAbs * 2 ^ fractionalBits := by
    rw [← scaled, magnitude, exponent, Nat.pow_add]
    exact Nat.mul_le_mul_right _ (le_significand normal)
  have high : number.natAbs * 2 ^ fractionalBits < 2 ^ (53 + e) := by
    rw [← scaled, magnitude, exponent, Nat.pow_add]
    exact Nat.mul_lt_mul_of_pos_right number.significand_lt (Nat.two_pow_pos e)
  have lower := Nat.log2_self_le nonzero
  have upper : number.natAbs < 2 ^ (number.natAbs.log2 + 1) := Nat.lt_log2_self
  -- Both the value and its magnitude lie between consecutive powers of two.
  have below : 52 + e < number.natAbs.log2 + 1 + fractionalBits := by
    apply (Nat.pow_lt_pow_iff_right (Nat.lt_succ_self 1)).mp
    apply Nat.lt_of_le_of_lt low
    rw [Nat.pow_add 2 _ fractionalBits]
    exact Nat.mul_lt_mul_of_pos_right upper (Nat.two_pow_pos fractionalBits)
  have above : number.natAbs.log2 + fractionalBits < 53 + e := by
    apply (Nat.pow_lt_pow_iff_right (Nat.lt_succ_self 1)).mp
    apply Nat.lt_of_le_of_lt _ high
    rw [Nat.pow_add 2 _ fractionalBits]
    exact Nat.mul_le_mul_right (2 ^ fractionalBits) lower
  unfold fractionalBits at below above
  omega

theorem fraction_of_integer (safe : number.isSafeInteger = true) (nonzero : number.natAbs ≠ 0) :
    number.natAbs * 2 ^ (52 - number.natAbs.log2) = 2 ^ 52 + number.fraction.val := by
  obtain ⟨integer, small⟩ := isSafeInteger_iff.mp safe
  have exponent := exponent_of_integer integer nonzero
  have scaled := magnitude_eq integer
  have short : number.natAbs.log2 < 53 := by
    rw [Nat.log2_lt nonzero]
    exact Nat.lt_of_le_of_lt small (by decide)
  have units : fractionalBits = 1074 := rfl
  have significand : number.significand = 2 ^ 52 + number.fraction.val := by
    rw [Binary64.significand, if_neg (by omega)]
  have cancel : (2 ^ 52 + number.fraction.val) * 2 ^ (1022 + number.natAbs.log2) =
      number.natAbs * 2 ^ (52 - number.natAbs.log2) * 2 ^ (1022 + number.natAbs.log2) := by
    calc (2 ^ 52 + number.fraction.val) * 2 ^ (1022 + number.natAbs.log2)
        = number.magnitude := by rw [magnitude, significand, exponent]; congr 2; omega
      _ = number.natAbs * 2 ^ ((52 - number.natAbs.log2) + (1022 + number.natAbs.log2)) := by
        rw [scaled]; congr 2; omega
      _ = _ := by rw [Nat.pow_add, Nat.mul_assoc]
  exact (Nat.eq_of_mul_eq_mul_right (Nat.two_pow_pos _) cancel).symm

theorem ofNatAbs_natAbs (safe : number.isSafeInteger = true) (nonzero : number.natAbs ≠ 0) :
    ofNatAbs number.sign number.natAbs = number := by
  have integer := (isSafeInteger_iff.mp safe).1
  have exponent := exponent_of_integer integer nonzero
  have fraction := fraction_of_integer safe nonzero
  obtain ⟨sign, biased, trailing⟩ := number
  rw [ofNatAbs, if_neg nonzero]
  congr 1
  · apply Fin.ext
    rw [Fin.val_ofNat, ← exponent, Nat.mod_eq_of_lt biased.isLt]
  · apply Fin.ext
    rw [Fin.val_ofNat, fraction, Nat.add_mod_left, Nat.mod_eq_of_lt trailing.isLt]

theorem zero_of_natAbs (integer : number.isInteger = true) (zero : number.natAbs = 0) :
    number = ⟨number.sign, 0, 0⟩ := by
  have scaled := magnitude_eq integer
  rw [zero, Nat.zero_mul, magnitude] at scaled
  have significand : number.significand = 0 :=
    (Nat.mul_eq_zero.mp scaled).resolve_right (Nat.two_pow_pos _).ne'
  obtain ⟨sign, biased, trailing⟩ := number
  have subnormal : biased.val = 0 := by
    by_contra normal
    have large : 2 ^ 52 ≤ (Binary64.mk sign biased trailing).significand := le_significand normal
    omega
  rw [Binary64.significand, if_pos subnormal] at significand
  congr 1
  · exact Fin.ext subnormal
  · exact Fin.ext significand

theorem ofInt_toInt (safe : number.isSafeInteger = true) (notNegativeZero : number ≠ negativeZero) :
    ofInt number.toInt = number := by
  have integer := (isSafeInteger_iff.mp safe).1
  by_cases zero : number.natAbs = 0
  · have shape := zero_of_natAbs integer zero
    have positive : number.sign = false := by
      by_contra negative
      rw [Bool.not_eq_false] at negative
      rw [negative] at shape
      exact notNegativeZero shape
    rw [toInt, positive, zero]
    rw [positive] at shape
    exact shape.symm
  · have same := ofNatAbs_natAbs safe zero
    cases sign : number.sign with
    | false =>
      have positive : ¬ (number.natAbs : Int) < 0 := by omega
      rw [sign] at same
      rw [toInt, sign, if_neg Bool.false_ne_true, ofInt, Int.natAbs_natCast, decide_eq_false positive]
      exact same
    | true =>
      have negative : (-(number.natAbs : Int) < 0) := by omega
      rw [sign] at same
      rw [toInt, sign, if_pos rfl, ofInt, Int.natAbs_neg, Int.natAbs_natCast,
        decide_eq_true negative]
      exact same

theorem natAbs_toInt (number : Binary64) : number.toInt.natAbs = number.natAbs := by
  unfold toInt
  split <;> omega

theorem magnitude_ofNatAbs {sign : Bool} {n : Nat} (positive : n ≠ 0) (small : n ≤ maxSafeInteger) :
    (ofNatAbs sign n).exponent.val = 1023 + n.log2 ∧
      (ofNatAbs sign n).magnitude = n * 2 ^ fractionalBits := by
  have short : n.log2 < 53 := by
    rw [Nat.log2_lt positive]
    exact Nat.lt_of_le_of_lt small (by decide)
  have lower := Nat.log2_self_le positive
  have upper : n < 2 ^ (n.log2 + 1) := Nat.lt_log2_self
  have units : fractionalBits = 1074 := rfl
  have exponent : (ofNatAbs sign n).exponent.val = 1023 + n.log2 := by
    rw [ofNatAbs, if_neg positive]
    exact Nat.mod_eq_of_lt (by omega)
  have scale : 2 ^ n.log2 * 2 ^ (52 - n.log2) = 2 ^ 52 := by
    rw [← Nat.pow_add]
    congr 1
    omega
  have least : 2 ^ 52 ≤ n * 2 ^ (52 - n.log2) := by
    rw [← scale]
    exact Nat.mul_le_mul_right _ lower
  have most : n * 2 ^ (52 - n.log2) < 2 ^ 52 + 2 ^ 52 := by
    have doubled : 2 ^ (n.log2 + 1) * 2 ^ (52 - n.log2) = 2 ^ 52 + 2 ^ 52 := by
      rw [Nat.pow_succ, Nat.mul_right_comm, scale, Nat.mul_two]
    rw [← doubled]
    exact Nat.mul_lt_mul_of_pos_right upper (Nat.two_pow_pos _)
  have fraction : (ofNatAbs sign n).fraction.val = n * 2 ^ (52 - n.log2) - 2 ^ 52 := by
    rw [ofNatAbs, if_neg positive]
    change n * 2 ^ (52 - n.log2) % 2 ^ 52 = _
    omega
  refine ⟨exponent, ?_⟩
  rw [magnitude, significand, if_neg (by omega), exponent, fraction, Nat.add_sub_cancel' least,
    Nat.mul_assoc, ← Nat.pow_add]
  congr 2
  omega

theorem toInt_ofInt {v : Int} (small : v.natAbs ≤ maxSafeInteger) :
    (ofInt v).toInt = v ∧ (ofInt v).isSafeInteger = true ∧ ofInt v ≠ negativeZero := by
  by_cases zero : v = 0
  · rw [zero]
    decide +kernel
  · have positive : v.natAbs ≠ 0 := Int.natAbs_ne_zero.mpr zero
    obtain ⟨exponent, scaled⟩ :=
      @magnitude_ofNatAbs (decide (v < 0)) v.natAbs positive small
    have size : (ofInt v).natAbs = v.natAbs := by
      rw [natAbs, ofInt, scaled, Nat.mul_div_cancel _ (Nat.two_pow_pos _)]
    have finite : (ofInt v).isFinite = true := by
      have short : v.natAbs.log2 < 53 := by
        rw [Nat.log2_lt positive]
        exact Nat.lt_of_le_of_lt small (by decide)
      rw [isFinite, decide_eq_true_eq, ofInt]
      intro infinite
      rw [infinite] at exponent
      have limit : (2047 : Fin 2048).val = 2047 := rfl
      omega
    have sign : (ofInt v).sign = decide (v < 0) := by
      rw [ofInt, ofNatAbs, if_neg positive]
    refine ⟨?_, ?_, ?_⟩
    · rw [toInt, sign, size]
      split <;> rename_i negative
      · rw [decide_eq_true_eq] at negative
        omega
      · rw [decide_eq_true_eq] at negative
        omega
    · rw [isSafeInteger_iff, isInteger, finite, Bool.true_and, decide_eq_true_eq, size]
      refine ⟨?_, small⟩
      rw [ofInt, scaled]
      exact Nat.dvd_mul_left _ _
    · intro same
      rw [ofInt] at same
      rw [same] at exponent
      have none : (negativeZero.exponent).val = 0 := rfl
      omega

def bits (number : Binary64) : Nat :=
  (if number.sign then 2 ^ 63 else 0) + number.exponent.val * 2 ^ 52 + number.fraction.val

def ofBits (bits : Nat) : Binary64 :=
  ⟨decide (bits / 2 ^ 63 % 2 = 1), Fin.ofNat 2048 (bits / 2 ^ 52), Fin.ofNat (2 ^ 52) bits⟩

theorem bits_lt (number : Binary64) : number.bits < 256 ^ 8 := by
  have := number.exponent.isLt
  have := number.fraction.isLt
  unfold bits
  split <;> omega

theorem ofBits_bits (number : Binary64) : ofBits number.bits = number := by
  obtain ⟨sign, ⟨exponent, small⟩, ⟨fraction, short⟩⟩ := number
  have parts : ofBits (bits ⟨sign, ⟨exponent, small⟩, ⟨fraction, short⟩⟩) =
      ⟨sign, ⟨exponent, small⟩, ⟨fraction, short⟩⟩ ↔
      (decide (bits ⟨sign, ⟨exponent, small⟩, ⟨fraction, short⟩⟩ / 2 ^ 63 % 2 = 1) = sign ∧
        bits ⟨sign, ⟨exponent, small⟩, ⟨fraction, short⟩⟩ / 2 ^ 52 % 2048 = exponent ∧
        bits ⟨sign, ⟨exponent, small⟩, ⟨fraction, short⟩⟩ % 2 ^ 52 = fraction) := by
    simp only [ofBits, mk.injEq, Fin.ext_iff, Fin.val_ofNat]
  rw [parts]
  simp only [bits]
  cases sign with
  | false => simp; omega
  | true => simp; omega

/-- The eight bytes of a number, the sign first. -/
def toBytes (number : Binary64) : List UInt8 := bigEndian 8 number.bits

def ofBytes (bytes : List UInt8) : Binary64 := ofBits (ofBigEndian bytes)

@[simp] theorem length_toBytes (number : Binary64) : number.toBytes.length = 8 :=
  length_bigEndian 8 number.bits

@[simp] theorem ofBytes_toBytes (number : Binary64) : ofBytes number.toBytes = number := by
  rw [ofBytes, toBytes, ofBigEndian_bigEndian number.bits_lt, ofBits_bits]

end Binary64

end Trpi.Library
