import SwaggerLift.Proofs.Json.Lexeme
/-!
A fraction is spelled as one numeral too, around a point or with an exponent. So wherever a number
stands, its text is read as one number, and only the value of a fraction is left open.
-/

namespace SwaggerLift.Json

open Decimal

namespace Numeral

theorem digits_singleton (c : Char) (digit : isDecimalDigit c = true) : Digits [c] := by
  refine ⟨List.cons_ne_nil c [], ?_⟩
  intro other member
  rw [List.mem_singleton.mp member]
  exact digit

theorem digits_zero : Digits ['0'] := digits_singleton '0' rfl

/-- The numeral of a fraction whose first digit, of this power of ten, stands before the point. -/
def scientific (negative : Bool) (lead : Char) (more : List Char) (first : Int) : Numeral :=
  ⟨negative, [lead], if more = [] then none else some more,
    some (decide (first < 0), digitsOf first.natAbs)⟩

theorem scientific_valid (negative : Bool) (lead : Char) (more : List Char) (first : Int)
    (all : ∀ c ∈ lead :: more, isDecimalDigit c = true) :
    (scientific negative lead more first).Valid where
  whole := digits_singleton lead (all lead List.mem_cons_self)
  leading _ := rfl
  fraction := by
    intro digits given
    rw [scientific] at given
    split at given
    · cases given
    · next filled =>
        cases given
        exact ⟨filled, fun c member => all c (List.mem_cons_of_mem lead member)⟩
  exponent := by
    intro below digits given
    cases given
    exact digits_digitsOf first.natAbs

theorem scientific_text (negative : Bool) (lead : Char) (more : List Char) (first : Int) :
    (scientific negative lead more first).text =
      (if negative then ['-'] else []) ++ fractions.scientificText (lead :: more) first := by
  have plus : fractions.plus = true := rfl
  by_cases below : first < 0
  · cases more <;>
      simp [scientific, text, fractionText, exponentText, Spelling.scientificText, below]
  · cases more <;>
      simp [scientific, text, fractionText, exponentText, Spelling.scientificText, below, plus]

def positional (negative : Bool) (digits : List Char) (first : Int) : Numeral :=
  if first < 0 then ⟨negative, ['0'], some (List.replicate (-first - 1).toNat '0' ++ digits), none⟩
  else
    let width := first.toNat + 1
    let fraction := digits.drop width
    ⟨negative, digits.take width ++ List.replicate (width - digits.length) '0',
      some (if fraction = [] then ['0'] else fraction), none⟩

theorem isDecimalDigit_of_replicate (count : Nat) (c : Char)
    (member : c ∈ List.replicate count '0') : isDecimalDigit c = true := by
  rw [List.eq_of_mem_replicate member]
  rfl

theorem positional_valid (negative : Bool) (lead : Char) (more : List Char) (first : Int)
    (other : lead ≠ '0') (all : ∀ c ∈ lead :: more, isDecimalDigit c = true) :
    (positional negative (lead :: more) first).Valid := by
  by_cases below : first < 0
  · rw [positional, if_pos below]
    refine ⟨digits_zero, fun _ => rfl, ?_, nofun⟩
    intro digits given
    cases given
    refine ⟨List.append_ne_nil_of_right_ne_nil _ (List.cons_ne_nil lead more), ?_⟩
    intro c member
    rcases List.mem_append.mp member with zero | later
    · exact isDecimalDigit_of_replicate _ c zero
    · exact all c later
  · rw [positional, if_neg below]
    refine ⟨⟨List.cons_ne_nil lead _, ?_⟩, ?_, ?_, nofun⟩
    · intro c member
      rcases List.mem_append.mp member with taken | zero
      · exact all c (List.mem_of_mem_take taken)
      · exact isDecimalDigit_of_replicate _ c zero
    · -- The first digit of the whole part is that of all digits, which is no zero.
      intro zero
      exact absurd (Option.some.inj zero) other
    · intro digits given
      cases given
      split
      · exact digits_zero
      · next filled => exact ⟨filled, fun c member => all c (List.mem_of_mem_drop member)⟩

theorem positional_text (negative : Bool) (digits : List Char) (first : Int) :
    (positional negative digits first).text =
      (if negative then ['-'] else []) ++ Spelling.positionalText digits first := by
  by_cases below : first < 0
  · simp [positional, text, fractionText, exponentText, Spelling.positionalText, below]
  · simp only [positional, text, fractionText, exponentText, Spelling.positionalText,
      below, if_false, List.append_nil]
    cases digits.drop (first.toNat + 1) <;> simp

theorem exists_text_of_fraction (x : Float) :
    ∃ numeral : Numeral, numeral.Valid ∧ numeral.text = fractions.text x := by
  rw [Spelling.text]
  generalize sign : decide (¬ x.toBits.toNat < 0x8000000000000000) = negative
  have shown : (if x.toBits.toNat < 0x8000000000000000 then [] else ['-']) =
      if negative then ['-'] else [] := by
    rw [← sign]
    split <;> simp [*]
  dsimp only
  rw [shown]
  by_cases zero : (Binary.ofBits x.toBits.toNat).mantissa = 0
  · rw [if_pos zero]
    refine ⟨⟨negative, ['0'], some ['0'], none⟩, ⟨digits_zero, fun _ => rfl, ?_, nofun⟩, rfl⟩
    intro digits given
    cases given
    exact digits_zero
  · rw [if_neg zero]
    have positive := Binary.shortest_pos x.toBits.toNat (Nat.pos_of_ne_zero zero)
    obtain ⟨lead, more, digits, other, all⟩ := Scaled.leading_eq_cons _ positive
    rw [digits]
    by_cases around : fractions.positional (Binary.ofBits x.toBits.toNat).shortest.leading.2 = true
    · rw [if_pos around]
      exact ⟨_, positional_valid negative lead more _ other all,
        positional_text negative (lead :: more) _⟩
    · rw [if_neg around]
      exact ⟨_, scientific_valid negative lead more _ all, scientific_text negative lead more _⟩

end Numeral

theorem exists_text_of_number (n : Number) :
    ∃ numeral : Numeral, numeral.Valid ∧ numeral.text = numberText n := by
  cases n with
  | whole w => exact ⟨Numeral.ofWhole w, Numeral.ofWhole_valid w, Numeral.ofWhole_text w⟩
  | float x finite => exact Numeral.exists_text_of_fraction x

def writtenNumeral (n : Number) : Numeral := .front (numberText n)

theorem writtenNumeral_of_text (n : Number) (numeral : Numeral) (valid : numeral.Valid)
    (text : numeral.text = numberText n) : writtenNumeral n = numeral := by
  rw [writtenNumeral, ← text]
  have alone := numeral.front_text valid [] rfl
  rwa [List.append_nil] at alone

theorem writtenNumeral_whole (w : Whole) : writtenNumeral (.whole w) = .ofWhole w :=
  writtenNumeral_of_text _ _ (Numeral.ofWhole_valid w) (Numeral.ofWhole_text w)

theorem lexemes_numberText (n : Number) (rest : List Char) (ends : endsNumeral rest = true) :
    lexemes (numberText n ++ rest) = .numeral (writtenNumeral n).reading (writtenNumeral n) ::
      lexemes rest := by
  obtain ⟨numeral, valid, text⟩ := exists_text_of_number n
  rw [writtenNumeral_of_text n numeral valid text, ← text]
  exact lexemes_numeral numeral valid rest ends

def rereadNumber (n : Number) : Reading Number := (writtenNumeral n).reading

theorem rereadNumber_whole (w : Whole) : rereadNumber (.whole w) = .clean (.whole w) := by
  rw [rereadNumber, writtenNumeral_whole]
  exact Numeral.ofWhole_reading w

end SwaggerLift.Json
