import SwaggerLift.Proofs.Json.Quotation
/-!
The tokens of a text together with its numerals as they are written. A token only keeps the number
that a numeral is read as; its lexeme keeps both.
-/

namespace SwaggerLift.Json

open Decimal

def frontSign : List Char → Bool × List Char
  | '-' :: rest => (true, rest)
  | rest => (false, rest)

def frontFraction : List Char → Option (List Char) × List Char
  | '.' :: rest => (some (leadingDigits rest).1, (leadingDigits rest).2)
  | rest => (none, rest)

def frontExponent : List Char → Option (Bool × List Char)
  | [] => none
  | c :: rest =>
      if c = 'e' ∨ c = 'E' then
        some ((exponentSign rest).1, (leadingDigits (exponentSign rest).2).1)
      else none

def Numeral.front (text : List Char) : Numeral :=
  let whole := leadingDigits (frontSign text).2
  let fraction := frontFraction whole.2
  ⟨(frontSign text).1, whole.1, fraction.1, frontExponent fraction.2⟩

inductive Lexeme where
  | mark (token : Token)
  | numeral (reading : Reading Number) (numeral : Numeral)

namespace Lexeme

def token : Lexeme → Token
  | mark token => token
  | numeral reading _ => .number reading

def of (text : List Char) : Token → Lexeme
  | .number reading => numeral reading (.front text)
  | token => mark token

theorem token_of (text : List Char) (token : Token) : (of text token).token = token := by
  cases token <;> rfl

end Lexeme

def lexemes : List Char → List Lexeme
  | [] => []
  | c :: rest =>
      if Token.isBlank c then lexemes rest
      else
        let found := Token.first c rest
        .of (c :: rest) found.1 :: lexemes found.2
termination_by text => text.length
decreasing_by
  · simp
  · exact Nat.lt_succ_of_le (Token.first_length c rest)

theorem map_token_lexemes (text : List Char) :
    (lexemes text).map Lexeme.token = Token.scan text := by
  fun_induction lexemes text with
  | case1 => rw [Token.scan]; rfl
  | case2 c rest blank ih => rw [Token.scan, if_pos blank, ih]
  | case3 c rest visible found ih =>
      rw [Token.scan, if_neg visible, List.map_cons, ih, Lexeme.token_of]

theorem lexemes_of_first (c : Char) (rest after : List Char) (token : Token)
    (visible : Token.isBlank c = false) (found : Token.first c rest = (token, after)) :
    lexemes (c :: rest) = .of (c :: rest) token :: lexemes after := by
  rw [lexemes, visible, found]
  rfl

theorem lexemes_blanks (blanks rest : List Char) (all : ∀ c ∈ blanks, Token.isBlank c = true) :
    lexemes (blanks ++ rest) = lexemes rest := by
  induction blanks with
  | nil => rfl
  | cons c blanks ih =>
      rw [List.cons_append, lexemes, if_pos (all c List.mem_cons_self)]
      exact ih fun d later => all d (List.mem_cons_of_mem c later)

theorem readExponent_front (numeral : Numeral) (unset : numeral.exponent = none)
    (text : List Char) :
    (readExponent numeral text).1 = { numeral with exponent := frontExponent text }.reading ∨
      (readExponent numeral text).2 = [] := by
  obtain ⟨negative, whole, fraction, _⟩ := numeral
  subst unset
  fun_cases readExponent ⟨negative, whole, fraction, none⟩ text with
  | case1 => exact Or.inl rfl
  | case2 => exact Or.inr rfl
  | case3 c rest letter => exact Or.inl (by rw [frontExponent, if_pos letter])
  | case4 c rest other => exact Or.inl (by rw [frontExponent, if_neg other])

theorem readFraction_front (negative : Bool) (whole text : List Char) :
    (readFraction ⟨negative, whole, none, none⟩ text).1 =
        Numeral.reading ⟨negative, whole, (frontFraction text).1,
          frontExponent (frontFraction text).2⟩ ∨
      (readFraction ⟨negative, whole, none, none⟩ text).2 = [] := by
  fun_cases readFraction ⟨negative, whole, none, none⟩ text with
  | case1 => exact Or.inr rfl
  | case2 rest digits => exact readExponent_front _ rfl _
  | case3 text other =>
      have point : frontFraction text = (none, text) := by
        cases text with
        | nil => rfl
        | cons c rest => exact frontFraction.eq_2 _ fun rest same => other rest same
      rw [point]
      exact readExponent_front _ rfl text

theorem readUnsigned_front (negative : Bool) (first : Char) (rest : List Char)
    (digit : isDecimalDigit first = true) :
    let whole := leadingDigits (first :: rest)
    let fraction := frontFraction whole.2
    (readUnsigned negative first rest).1 =
        Numeral.reading ⟨negative, whole.1, fraction.1, frontExponent fraction.2⟩ ∨
      (readUnsigned negative first rest).2 = [] := by
  have whole : leadingDigits (first :: rest) =
      (first :: (leadingDigits rest).1, (leadingDigits rest).2) := by
    simp [leadingDigits, digit]
  rw [whole]
  fun_cases readUnsigned negative first rest with
  | case1 => exact Or.inr rfl
  | case2 => exact readFraction_front negative _ _

theorem readNegative_front (rest : List Char) :
    (readNegative rest).1 = (Numeral.front ('-' :: rest)).reading ∨ (readNegative rest).2 = [] := by
  fun_cases readNegative rest with
  | case1 => exact Or.inr rfl
  | case2 first rest digit => exact readUnsigned_front true first rest digit
  | case3 => exact Or.inr rfl

theorem frontSign_of_digit (c : Char) (rest : List Char) (digit : isDecimalDigit c = true) :
    frontSign (c :: rest) = (false, c :: rest) := by
  apply frontSign.eq_2
  intro after same
  rw [(List.cons.inj same).1] at digit
  exact absurd digit (by decide)

theorem Token.word_ne_number (token : Token) (letters rest : List Char) (reading : Reading Number)
    (other : token ≠ .number reading) : (word token letters rest).1 ≠ .number reading := by
  fun_induction word token letters rest with
  | case1 => exact other
  | case3 _ _ _ ih => exact ih
  | case2 | case4 => rintro ⟨⟩

theorem Token.first_front (c : Char) (rest : List Char) (reading : Reading Number)
    (number : (first c rest).1 = .number reading) :
    reading = (Numeral.front (c :: rest)).reading ∨ (first c rest).2 = [] := by
  revert number
  fun_cases first c rest with
  | case1 =>
      rename_i digit _
      have read := readUnsigned_front false c rest digit
      rw [Numeral.front, frontSign_of_digit c rest digit]
      rintro ⟨⟩
      exact read
  | case2 => rintro ⟨⟩; exact readNegative_front rest
  | case4 | case5 | case6 =>
      intro number
      exact absurd number (word_ne_number _ _ _ reading (by rintro ⟨⟩))
  | _ => rintro ⟨⟩

/-- Every number has its numeral, and behind one that is read as anything else no text is left. -/
def Faultless : List Lexeme → Prop
  | [] => True
  | .numeral reading numeral :: rest => (reading = numeral.reading ∨ rest = []) ∧ Faultless rest
  | .mark token :: rest => (∀ reading, token ≠ .number reading) ∧ Faultless rest

theorem Faultless.of_append (first rest : List Lexeme) (faultless : Faultless (first ++ rest)) :
    Faultless rest := by
  induction first with
  | nil => exact faultless
  | cons lexeme first ih => cases lexeme <;> exact ih faultless.2

theorem faultless_lexemes (text : List Char) : Faultless (lexemes text) := by
  fun_induction lexemes text with
  | case1 => trivial
  | case2 c rest blank ih => exact ih
  | case3 c rest visible found ih =>
      have number := Token.first_front c rest
      change Faultless (.of (c :: rest) (Token.first c rest).1 :: lexemes (Token.first c rest).2)
      cases token : (Token.first c rest).1 with
      | number reading =>
          refine ⟨(number reading token).imp_right fun ended => ?_, ih⟩
          rw [ended, lexemes]
      | _ =>
          refine ⟨fun reading same => ?_, ih⟩
          cases same

theorem frontExponent_exponentText (exponent : Option (Bool × List Char))
    (digits : ∀ below digits, exponent = some (below, digits) → Numeral.Digits digits)
    (rest : List Char) (ends : endsNumeral rest = true) :
    frontExponent (Numeral.exponentText exponent ++ rest) = exponent := by
  cases exponent with
  | none =>
      cases rest with
      | nil => rfl
      | cons c rest =>
          simp only [endsNumeral, Bool.not_eq_true', Bool.or_eq_false_iff,
            beq_eq_false_iff_ne] at ends
          exact if_neg (not_or.mpr ⟨ends.1.2, ends.2⟩)
  | some exponent =>
      obtain ⟨below, row⟩ := exponent
      have split :=
        leadingDigits_append row rest (digits below row rfl).2 (endsDigits_of_endsNumeral rest ends)
      have sign :
          exponentSign ((if below then '-' else '+') :: (row ++ rest)) = (below, row ++ rest) := by
        cases below <;> rfl
      change frontExponent ('e' :: (if below then '-' else '+') :: (row ++ rest)) = _
      rw [frontExponent, if_pos (Or.inl rfl), sign, split]

theorem frontFraction_fractionText (numeral : Numeral) (valid : numeral.Valid) (rest : List Char)
    (ends : endsNumeral rest = true) :
    frontFraction (Numeral.fractionText numeral.fraction ++
      (Numeral.exponentText numeral.exponent ++ rest)) =
      (numeral.fraction, Numeral.exponentText numeral.exponent ++ rest) := by
  cases fraction : numeral.fraction with
  | none =>
      have noPoint := point_ne_head numeral.exponent rest ends
      rw [Numeral.fractionText, List.nil_append]
      apply frontFraction.eq_2
      rintro after same
      rw [same] at noPoint
      exact noPoint rfl
  | some digits =>
      have split := leadingDigits_append digits (Numeral.exponentText numeral.exponent ++ rest)
        (valid.fraction digits fraction).2 (endsDigits_exponentText numeral.exponent rest ends)
      rw [Numeral.fractionText, List.cons_append, frontFraction, split]

theorem Numeral.front_text (numeral : Numeral) (valid : numeral.Valid) (rest : List Char)
    (ends : endsNumeral rest = true) : front (numeral.text ++ rest) = numeral := by
  have fraction := frontFraction_fractionText numeral valid rest ends
  have exponent := frontExponent_exponentText numeral.exponent valid.exponent rest ends
  have whole := leadingDigits_append numeral.whole _ valid.whole.2
    (endsDigits_behindWhole numeral rest ends)
  have sign : frontSign (numeral.text ++ rest) = (numeral.negative, numeral.whole ++
      (fractionText numeral.fraction ++ (exponentText numeral.exponent ++ rest))) := by
    cases negative : numeral.negative with
    | true => simp [text, negative, frontSign]
    | false =>
        cases digits : numeral.whole with
        | nil => exact absurd digits valid.whole.1
        | cons first more =>
            have digit := valid.whole.2 first (by rw [digits]; exact List.mem_cons_self)
            simp only [text, negative, digits, List.append_assoc, List.cons_append,
              Bool.false_eq_true, if_false, List.nil_append]
            exact frontSign_of_digit first _ digit
  simp only [front, sign, whole, fraction, exponent]

theorem lexemes_numeral (numeral : Numeral) (valid : numeral.Valid) (rest : List Char)
    (ends : endsNumeral rest = true) :
    lexemes (numeral.text ++ rest) = .numeral numeral.reading numeral :: lexemes rest := by
  obtain ⟨c, more, split, visible, found⟩ := Token.first_numeral numeral valid rest ends
  have written := numeral.front_text valid rest ends
  rw [split] at written ⊢
  rw [lexemes_of_first c more rest _ visible found, Lexeme.of, written]

theorem lexemes_escaped (s : String) (rest : List Char) :
    lexemes (escaped s ++ rest) = .mark (.text (.clean s)) :: lexemes rest := by
  have split : escaped s ++ rest = '"' :: (s.toList.flatMap escapedChar ++ '"' :: rest) := by
    simp [escaped]
  rw [split]
  exact lexemes_of_first '"' _ rest _ rfl (Token.first_escaped s rest)

end SwaggerLift.Json
