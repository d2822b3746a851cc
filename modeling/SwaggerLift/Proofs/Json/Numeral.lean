import SwaggerLift.Json.Print
import SwaggerLift.Json.Token
import SwaggerLift.Proofs.Decimal
/-!
The text of a number is one numeral, whatever follows it, if it does not go on with the numeral. A
whole number of 64 bits is read back from its text; a fraction can be missed by the last place.
-/

namespace SwaggerLift.Json

open Decimal

def endsDigits : List Char → Bool
  | [] => true
  | c :: _ => !isDecimalDigit c

def endsNumeral : List Char → Bool
  | [] => true
  | c :: _ => !(isDecimalDigit c || c == '.' || c == 'e' || c == 'E')

theorem endsDigits_of_endsNumeral (rest : List Char) (ends : endsNumeral rest = true) :
    endsDigits rest = true := by
  cases rest with
  | nil => rfl
  | cons c rest =>
      simp only [endsNumeral, Bool.not_eq_true', Bool.or_eq_false_iff] at ends
      simp [endsDigits, ends]

namespace Numeral

def fractionText : Option (List Char) → List Char
  | none => []
  | some digits => '.' :: digits

def exponentText : Option (Bool × List Char) → List Char
  | none => []
  | some (below, digits) => 'e' :: (if below then '-' else '+') :: digits

def text (n : Numeral) : List Char :=
  (if n.negative then ['-'] else []) ++
    (n.whole ++ (fractionText n.fraction ++ exponentText n.exponent))

def Digits (digits : List Char) : Prop := digits ≠ [] ∧ ∀ c ∈ digits, isDecimalDigit c = true

structure Valid (n : Numeral) : Prop where
  whole : Digits n.whole
  leading : n.whole.head? = some '0' → n.whole.length = 1
  fraction : ∀ digits, n.fraction = some digits → Digits digits
  exponent : ∀ below digits, n.exponent = some (below, digits) → Digits digits

end Numeral

open Numeral

theorem leadingDigits_append (digits rest : List Char) (all : ∀ c ∈ digits, isDecimalDigit c = true)
    (ends : endsDigits rest = true) : leadingDigits (digits ++ rest) = (digits, rest) := by
  rw [leadingDigits, List.takeWhile_append_of_pos all, List.dropWhile_append_of_pos all]
  cases rest with
  | nil => simp
  | cons c rest =>
      have other : isDecimalDigit c = false := by simpa [endsDigits] using ends
      rw [List.takeWhile_cons_of_neg (by simp [other]),
        List.dropWhile_cons_of_neg (by simp [other]), List.append_nil]

theorem readExponent_of_ends (numeral : Numeral) (rest : List Char)
    (ends : endsNumeral rest = true) : readExponent numeral rest = (numeral.reading, rest) := by
  cases rest with
  | nil => rfl
  | cons c rest =>
      simp only [endsNumeral, Bool.not_eq_true', Bool.or_eq_false_iff, beq_eq_false_iff_ne] at ends
      obtain ⟨⟨_, noLower⟩, noUpper⟩ := ends
      rw [readExponent, if_neg (by simp [noLower, noUpper])]

theorem readExponent_exponentText (numeral : Numeral) (exponent : Option (Bool × List Char))
    (digits : ∀ below digits, exponent = some (below, digits) → Digits digits) (rest : List Char)
    (ends : endsNumeral rest = true) :
    readExponent ⟨numeral.negative, numeral.whole, numeral.fraction,
      none⟩ (exponentText exponent ++ rest) =
      (reading ⟨numeral.negative, numeral.whole, numeral.fraction, exponent⟩, rest) := by
  cases exponent with
  | none => exact readExponent_of_ends _ rest ends
  | some exponent =>
      obtain ⟨below, row⟩ := exponent
      obtain ⟨filled, all⟩ := digits below row rfl
      have split := leadingDigits_append row rest all (endsDigits_of_endsNumeral rest ends)
      have sign :
          exponentSign ((if below then '-' else '+') :: (row ++ rest)) = (below, row ++ rest) := by
        cases below <;> rfl
      change readExponent _ ('e' :: (if below then '-' else '+') :: (row ++ rest)) = _
      rw [readExponent, if_pos (Or.inl rfl)]
      simp only [sign, split, List.isEmpty_iff, filled, if_false]

theorem endsDigits_exponentText (exponent : Option (Bool × List Char)) (rest : List Char)
    (ends : endsNumeral rest = true) : endsDigits (exponentText exponent ++ rest) = true := by
  cases exponent with
  | none => exact endsDigits_of_endsNumeral rest ends
  | some exponent => rfl

theorem point_ne_head (exponent : Option (Bool × List Char)) (rest : List Char)
    (ends : endsNumeral rest = true) : (exponentText exponent ++ rest).head? ≠ some '.' := by
  cases exponent with
  | some exponent => simp [exponentText]
  | none =>
      cases rest with
      | nil => simp [exponentText]
      | cons c rest =>
          simp only [endsNumeral, Bool.not_eq_true', Bool.or_eq_false_iff,
            beq_eq_false_iff_ne] at ends
          simpa [exponentText] using ends.1.1.2

theorem endsDigits_behindWhole (numeral : Numeral) (rest : List Char)
    (ends : endsNumeral rest = true) :
    endsDigits (fractionText numeral.fraction ++ (exponentText numeral.exponent ++ rest)) =
      true := by
  cases numeral.fraction with
  | none => exact endsDigits_exponentText numeral.exponent rest ends
  | some digits => rfl

theorem readFraction_fractionText (numeral : Numeral) (valid : numeral.Valid) (rest : List Char)
    (ends : endsNumeral rest = true) :
    readFraction ⟨numeral.negative, numeral.whole, none, none⟩
      (fractionText numeral.fraction ++ (exponentText numeral.exponent ++ rest)) =
        (numeral.reading, rest) := by
  have exponent := readExponent_exponentText numeral numeral.exponent valid.exponent rest ends
  cases fraction : numeral.fraction with
  | none =>
      rw [fraction] at exponent
      have passes : ∀ text : List Char, text.head? ≠ some '.' → ∀ numeral,
          readFraction numeral text = readExponent numeral text := by
        intro text other numeral
        fun_cases readFraction numeral text with
        | case1 => exact absurd rfl other
        | case2 => exact absurd rfl other
        | case3 => rfl
      rw [fractionText, List.nil_append, passes _ (point_ne_head _ rest ends), exponent, ← fraction]
  | some digits =>
      rw [fraction] at exponent
      obtain ⟨filled, all⟩ := valid.fraction digits fraction
      have split := leadingDigits_append digits (exponentText numeral.exponent ++ rest) all
        (endsDigits_exponentText numeral.exponent rest ends)
      rw [fractionText, List.cons_append, readFraction]
      simp only [split, List.isEmpty_iff, filled, if_false]
      rw [exponent, ← fraction]

theorem readUnsigned_whole (numeral : Numeral) (valid : numeral.Valid) (first : Char)
    (more : List Char) (whole : numeral.whole = first :: more) (rest : List Char)
    (ends : endsNumeral rest = true) :
    readUnsigned numeral.negative first
      (more ++ (fractionText numeral.fraction ++ (exponentText numeral.exponent ++ rest))) =
        (numeral.reading, rest) := by
  have all : ∀ c ∈ more, isDecimalDigit c = true := fun c later =>
    valid.whole.2 c (by rw [whole]; exact List.mem_cons_of_mem first later)
  have noZero : ¬ (first = '0' ∧ more.isEmpty = false) := by
    rintro ⟨rfl, longer⟩
    have single := valid.leading (by rw [whole]; rfl)
    rw [whole, List.length_cons, Nat.add_eq_right, List.length_eq_zero_iff] at single
    rw [single] at longer
    cases longer
  simp only [readUnsigned,
    leadingDigits_append more _ all (endsDigits_behindWhole numeral rest ends), if_neg noZero]
  rw [← whole]
  exact readFraction_fractionText numeral valid rest ends

theorem Token.isBlank_of_digit (c : Char) (digit : isDecimalDigit c = true) :
    isBlank c = false := by
  rw [Bool.eq_false_iff]
  intro blank
  simp only [isBlank, Bool.or_eq_true, beq_iff_eq] at blank
  rcases blank with ((rfl | rfl) | rfl) | rfl <;> exact absurd digit (by decide)

theorem Token.first_numeral (numeral : Numeral) (valid : numeral.Valid) (rest : List Char)
    (ends : endsNumeral rest = true) :
    ∃ c more, numeral.text ++ rest = c :: more ∧ isBlank c = false ∧
      first c more = (.number numeral.reading, rest) := by
  cases whole : numeral.whole with
  | nil => exact absurd whole valid.whole.1
  | cons lead more =>
      have digit := valid.whole.2 lead (by rw [whole]; exact List.mem_cons_self)
      have read := readUnsigned_whole numeral valid lead more whole rest ends
      simp only [Numeral.text, whole, List.append_assoc, List.cons_append]
      cases negative : numeral.negative with
      | true =>
          rw [negative] at read
          refine ⟨'-', _, rfl, rfl, ?_⟩
          change (Token.number (readNegative (lead :: _)).1, (readNegative (lead :: _)).2) = _
          rw [readNegative, if_pos digit, read]
      | false =>
          rw [negative] at read
          refine ⟨lead, _, rfl, isBlank_of_digit lead digit, ?_⟩
          unfold Token.first
          rw [if_pos digit, read]

theorem le_foldl_digits (n : Nat) (digits : List Char) :
    n ≤ digits.foldl (fun n c => 10 * n + digitValue c) n := by
  induction digits generalizing n with
  | nil => exact Nat.le_refl n
  | cons c rest ih =>
      have first : n ≤ 10 * n + digitValue c := by omega
      exact Nat.le_trans first (ih _)

theorem gather_of_fits (n : Nat) (digits : List Char)
    (fits : digits.foldl (fun n c => 10 * n + digitValue c) n ≤ largestWord) :
    gather n digits = (digits.foldl (fun n c => 10 * n + digitValue c) n, []) := by
  induction digits generalizing n with
  | nil => rfl
  | cons c rest ih =>
      have next : 10 * n + digitValue c ≤ largestWord := Nat.le_trans (le_foldl_digits _ rest) fits
      rw [gather, if_pos next, ih _ fits, List.foldl_cons]

theorem gather_digitsOf (n : Nat) (fits : n ≤ largestWord) : gather 0 (digitsOf n) = (n, []) := by
  have value : (digitsOf n).foldl (fun n c => 10 * n + digitValue c) 0 = n := digitsValue_digitsOf n
  rw [gather_of_fits 0 _ (by rw [value]; exact fits), value]

theorem wholeNumber_natAbs (w : Whole) :
    wholeNumber (decide (w.val < 0)) w.val.natAbs = .ok (.whole w) := by
  have same :
      (if decide (w.val < 0) = true then -(w.val.natAbs : Int) else w.val.natAbs) = w.val := by
    by_cases below : w.val < 0
    · rw [if_pos (decide_eq_true below)]
      omega
    · rw [if_neg (by simpa using below)]
      omega
  -- Zero has no sign, so the sign of a numeral that says zero is never lost here.
  have notZero : (decide (w.val < 0) && w.val.natAbs = 0) = false := by
    rw [Bool.and_eq_false_imp]
    intro below
    have negative : w.val < 0 := of_decide_eq_true below
    exact decide_eq_false (by omega)
  rw [wholeNumber, notZero, same, Whole.ofInt?_val]
  rfl

theorem natAbs_le_largestWord (w : Whole) : w.val.natAbs ≤ largestWord := by
  have low := w.low
  have high := w.high
  rw [largestWord]
  omega

namespace Numeral

def ofWhole (w : Whole) : Numeral := ⟨decide (w.val < 0), digitsOf w.val.natAbs, none, none⟩

theorem digits_digitsOf (n : Nat) : Digits (digitsOf n) :=
  ⟨Nat.toDigits_ne_nil, isDecimalDigit_of_mem n⟩

theorem ofWhole_valid (w : Whole) : (ofWhole w).Valid where
  whole := digits_digitsOf w.val.natAbs
  leading := by
    intro zero
    rcases Nat.eq_zero_or_pos w.val.natAbs with none | positive
    · rw [ofWhole, none]
      rfl
    · exact absurd zero (head_digitsOf w.val.natAbs positive)
  fraction := by
    intro digits given
    cases given
  exponent := by
    intro below digits given
    cases given

theorem ofWhole_text (w : Whole) : (ofWhole w).text = wholeText w.val := by
  by_cases below : w.val < 0
  · simp [ofWhole, text, wholeText, below, fractionText, exponentText]
  · simp [ofWhole, text, wholeText, below, fractionText, exponentText]

theorem ofWhole_reading (w : Whole) : (ofWhole w).reading = .clean (.whole w) := by
  have gathered := gather_digitsOf w.val.natAbs (natAbs_le_largestWord w)
  have number : (ofWhole w).number = .ok (.whole w) := by
    simp [ofWhole, Numeral.number, gathered, wholeNumber_natAbs]
  rw [reading, number]
  rfl

end Numeral

end SwaggerLift.Json
