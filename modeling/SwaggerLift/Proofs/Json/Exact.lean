import Mathlib.Data.Rat.Cast.Order
import Mathlib.Tactic.NormNum
import SwaggerLift.Proofs.Json.Fraction
/-!
Which numerals keep their value when the numbers that they are read as are written again: the
integers that fit a signed or an unsigned word of 64 bits. All others are read as binary fractions.
-/

namespace SwaggerLift.Json

open Decimal

namespace Numeral

/-- The power of ten that the last digit of a numeral stands for. -/
def lastPower (n : Numeral) : Int :=
  (match n.exponent with
    | none => 0
    | some (below, digits) => if below then -(digitsValue digits : Int) else digitsValue digits) -
    (n.fraction.getD []).length

def value (n : Numeral) : ℚ :=
  (if n.negative then -1 else 1) * digitsValue (n.whole ++ n.fraction.getD []) *
    (10 : ℚ) ^ n.lastPower

def Integral (n : Numeral) : Prop := n.fraction = none ∧ n.exponent = none

def FitsWord (n : Numeral) : Prop :=
  n.Integral ∧ -0x8000000000000000 ≤ n.value ∧ n.value ≤ 0xFFFFFFFFFFFFFFFF

def integer (n : Numeral) : Int :=
  if n.negative then -(digitsValue n.whole : Int) else digitsValue n.whole

theorem value_of_integral (n : Numeral) (integral : n.Integral) : n.value = n.integer := by
  have power : n.lastPower = 0 := by rw [lastPower, integral.1, integral.2]; rfl
  rw [value, power, integral.1, integer]
  cases n.negative <;> simp

theorem value_ofWhole (w : Whole) : (ofWhole w).value = w.val := by
  rw [value_of_integral _ ⟨rfl, rfl⟩]
  congr 1
  simp only [integer, ofWhole, digitsValue_digitsOf]
  by_cases below : w.val < 0
  · rw [if_pos (decide_eq_true below)]
    omega
  · rw [if_neg (by simpa using below)]
    omega

end Numeral

-- The negative zero is the only integer of 64 bits that is read as a fraction.
theorem isFinite_negativeZero : (signed true 0).isFinite = true := by decide

def negativeZero : Number := .float (signed true 0) isFinite_negativeZero

theorem writtenNumeral_negativeZero :
    writtenNumeral negativeZero = ⟨true, ['0'], some ['0'], none⟩ := by
  have text : numberText negativeZero = "-0.0".toList := by decide
  rw [writtenNumeral, text]
  rfl

theorem wholeNumber_of_word (negative : Bool) (n : Nat) (w : Whole)
    (signed : w.val = if negative then -(n : Int) else n) :
    wholeNumber negative n = .ok (.whole w) ∨ w.val = 0 ∧
      wholeNumber negative n = .ok negativeZero := by
  rw [wholeNumber]
  by_cases zero : (negative && n = 0) = true
  · rw [if_pos zero]
    obtain ⟨rfl, none⟩ := Bool.and_eq_true_iff.mp zero
    refine Or.inr ⟨?_, ?_⟩
    · rw [signed, of_decide_eq_true none]
      rfl
    · rw [fractionNumber, Number.ofFloat?, dif_pos isFinite_negativeZero]
      rfl
  · rw [if_neg zero, ← signed, Whole.ofInt?_val]
    exact Or.inl rfl

namespace Numeral

theorem number_of_fitsWord (n : Numeral) (fits : n.FitsWord) :
    (∃ w : Whole, (w.val : ℚ) = n.value ∧ n.number = .ok (.whole w)) ∨
      n.value = 0 ∧ n.number = .ok negativeZero := by
  obtain ⟨integral, low, high⟩ := fits
  rw [value_of_integral n integral] at low high ⊢
  let w : Whole := ⟨n.integer, by exact_mod_cast low, by exact_mod_cast high⟩
  have small : digitsValue n.whole ≤ largestWord := by
    have low := w.low
    have high := w.high
    simp only [w, integer] at low high
    rw [largestWord]
    cases sign : n.negative <;>
      simp only [sign, if_true, if_false, Bool.false_eq_true] at low high <;> omega
  have number : n.number = wholeNumber n.negative (digitsValue n.whole) := by
    rw [Numeral.number, gather_of_fits 0 n.whole small, integral.1, integral.2]
    rfl
  rw [number]
  rcases wholeNumber_of_word n.negative _ w rfl with whole | ⟨zero, fraction⟩
  · exact Or.inl ⟨w, rfl, whole⟩
  · exact Or.inr ⟨by exact_mod_cast zero, fraction⟩

/-- What an integer of 64 bits is read as has the same value when it is written. -/
theorem value_writtenNumeral (n : Numeral) (fits : n.FitsWord) (m : Number)
    (read : n.number = .ok m) :
    (writtenNumeral m).value = n.value := by
  rcases n.number_of_fitsWord fits with ⟨w, same, whole⟩ | ⟨zero, fraction⟩
  · cases read.symm.trans whole
    rw [writtenNumeral_whole, value_ofWhole, same]
  · cases read.symm.trans fraction
    have none : digitsValue ['0', '0'] = 0 := rfl
    rw [writtenNumeral_negativeZero, zero]
    simp [value, none]

end Numeral

-- The integer behind the largest one of 64 bits becomes another.
def nextNumeral : Numeral := ⟨false, "18446744073709551616".toList, none, none⟩

theorem isFinite_rounded : (scaled 1844674407370955161 1).isFinite = true := by decide +kernel

def roundedNumber : Number := .float (scaled 1844674407370955161 1) isFinite_rounded

theorem reading_next : nextNumeral.reading = .clean roundedNumber := by
  -- The last digit does not fit, so it only counts as a power of ten.
  have digits : gather 0 nextNumeral.whole = (1844674407370955161, ['6']) := by decide
  have power : nextNumeral.significand = (1844674407370955161, 1) := by
    rw [Numeral.significand, digits]
    rfl
  have number : nextNumeral.number = .ok roundedNumber := by
    rw [Numeral.number, digits, power]
    change fractionNumber false (scaled 1844674407370955161 1) = _
    rw [fractionNumber, signed, if_neg Bool.false_ne_true, Number.ofFloat?,
      dif_pos isFinite_rounded]
    rfl
  rw [Numeral.reading, number]
  rfl

theorem value_next : nextNumeral.value = 18446744073709551616 := by
  have digits : digitsValue nextNumeral.whole = 18446744073709551616 := by decide
  rw [Numeral.value_of_integral nextNumeral ⟨rfl, rfl⟩, Numeral.integer, digits]
  rfl

def roundedNumeral : Numeral :=
  ⟨false, ['1'], some "8446744073709552".toList, some (false, ['1', '9'])⟩

theorem writtenNumeral_rounded : writtenNumeral roundedNumber = roundedNumeral := by
  have text : numberText roundedNumber = "1.8446744073709552e+19".toList := by decide +kernel
  rw [writtenNumeral, text]
  rfl

theorem value_rounded : roundedNumeral.value = 18446744073709552000 := by
  have digits :
      digitsValue (roundedNumeral.whole ++ roundedNumeral.fraction.getD []) =
        18446744073709552 := by
    decide
  have power : roundedNumeral.lastPower = 3 := by decide
  rw [Numeral.value, digits, power]
  norm_num [roundedNumeral]

end SwaggerLift.Json
