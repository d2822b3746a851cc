import SwaggerLift.Proofs.Json.Numeral
/-!
What stands between quotes spells characters one by one: as they are, by a short escape, or by their
code units. Exactly such a text is read, whatever follows it, and gives those characters; what is
written is one.
-/

namespace SwaggerLift.Json

inductive SpelledChar : List Char → Char → Prop
  | plain (c : Char) (printable : ¬ c.toNat < 0x20) (noQuote : c ≠ '"') (noBackslash : c ≠ '\\') :
      SpelledChar [c] c
  | short (letter c : Char) (stands : shortEscape? letter = some c) : SpelledChar ['\\', letter] c
  | unit (p q r s : Char) (n : Nat) (digits : Text.hexRow? [p, q, r, s] = some n)
      (noHigh : isHighSurrogate n = false) (noLow : isLowSurrogate n = false) :
      SpelledChar ['\\', 'u', p, q, r, s] (Char.ofNat n)
  /-- Two code units stand for a character beyond the basic plane. -/
  | pair (p q r s t u v w : Char) (high low : Nat) (first : Text.hexRow? [p, q, r, s] = some high)
      (isHigh : isHighSurrogate high = true) (second : Text.hexRow? [t, u, v, w] = some low)
      (isLow : isLowSurrogate low = true) :
      SpelledChar ['\\', 'u', p, q, r, s, '\\', 'u', t, u, v, w] (joinSurrogates high low)

inductive Spelled : List Char → List Char → Prop
  | nil : Spelled [] []
  | cons {piece raw chars : List Char} {c : Char} (first : SpelledChar piece c)
      (rest : Spelled raw chars) :
      Spelled (piece ++ raw) (c :: chars)

theorem hexRow?_of_control (n : Nat) (control : n < 0x20) :
    ∃ a b c d, Text.hexPadded 4 n = [a, b, c, d] ∧ Text.hexRow? [a, b, c, d] = some n := by
  have all : ∀ n < 0x20, (Text.hexPadded 4 n).length = 4 ∧
      Text.hexRow? (Text.hexPadded 4 n) = some n := by
    decide
  obtain ⟨width, value⟩ := all n control
  match Text.hexPadded 4 n, width, value with
  | [a, b, c, d], _, value => exact ⟨a, b, c, d, rfl, value⟩

theorem spelledChar_escapedChar (c : Char) : SpelledChar (escapedChar c) c := by
  fun_cases escapedChar c with
  | case1 same | case2 _ same | case3 _ _ same | case4 _ _ _ same | case5 _ _ _ _ same
  | case6 _ _ _ _ _ same | case7 _ _ _ _ _ _ same =>
      subst same
      exact .short _ _ rfl
  | case8 _ _ _ _ _ _ _ control =>
      obtain ⟨p, q, r, s, digits, value⟩ := hexRow?_of_control c.toNat control
      have high : isHighSurrogate c.toNat = false := by simp [isHighSurrogate]; omega
      have low : isLowSurrogate c.toNat = false := by simp [isLowSurrogate]; omega
      have spelled := SpelledChar.unit p q r s c.toNat value high low
      rwa [Char.ofNat_toNat, ← digits] at spelled
  | case9 noQuote noBackslash _ _ _ _ _ printable => exact .plain c printable noQuote noBackslash

theorem spelled_escaped (chars : List Char) : Spelled (chars.flatMap escapedChar) chars := by
  induction chars with
  | nil => exact .nil
  | cons c rest ih => exact .cons (spelledChar_escapedChar c) ih

/-! What spells characters is read: each is read from its own piece, so the loop over the pieces
carries the ones before in reverse. -/

def Partial.plain (chars : List Char) : Partial := ⟨chars, none, none⟩

theorem readQuoted_unit (p q r s : Char) (n : Nat) (digits : Text.hexRow? [p, q, r, s] = some n)
    (rest : List Char) (before : Partial) :
    readQuoted ('\\' :: 'u' :: p :: q :: r :: s :: rest) before =
      readQuoted rest (before.addUnit n) := by
  rw [readQuoted, digits]

theorem readQuoted_piece (piece : List Char) (c : Char) (spelled : SpelledChar piece c)
    (rest chars : List Char) :
    readQuoted (piece ++ rest) (.plain chars) = readQuoted rest (.plain (c :: chars)) := by
  cases spelled with
  | plain _ printable noQuote noBackslash =>
      change readQuoted (c :: rest) _ = _
      rw [readQuoted, if_neg printable]
      · rfl
      · exact noQuote
      all_goals intros; exact noBackslash ‹c = '\\'›
  | short letter _ stands =>
      revert stands
      fun_cases shortEscape? letter <;> rintro ⟨⟩ <;> rfl
  | unit p q r s n digits noHigh noLow =>
      change readQuoted ('\\' :: 'u' :: p :: q :: r :: s :: rest) _ = _
      rw [readQuoted_unit p q r s n digits]
      simp [Partial.addUnit, Partial.plain, noHigh, noLow, Partial.add, Partial.settle]
  | pair p q r s t u v w high low first isHigh second isLow =>
      change readQuoted ('\\' :: 'u' :: p :: q :: r :: s :: '\\' :: 'u' :: t :: u :: v ::
          w :: rest) _ = _
      rw [readQuoted_unit p q r s high first, readQuoted_unit t u v w low second]
      simp [Partial.addUnit, Partial.plain, isHigh, isLow]

theorem readQuoted_spelled (raw decoded : List Char) (spelled : Spelled raw decoded)
    (rest chars : List Char) :
    readQuoted (raw ++ '"' :: rest) (.plain chars) =
      (.clean (String.ofList (chars.reverse ++ decoded)), rest) := by
  induction spelled generalizing chars with
  | nil => simp [readQuoted, Partial.result, Partial.settle, Partial.plain]
  | cons first _ ih =>
      rw [List.append_assoc, readQuoted_piece _ _ first, ih]
      simp

-- Nothing else is read. What is unfit stays so, and a high surrogate waits for a low one.
/-- What stands up to the closing quote completes what has been read in part. -/
def Partial.Completes (before : Partial) (text : List Char) (s : String)
    (rest : List Char) : Prop :=
  before.unfit = none ∧ ∃ raw chars, text = raw ++ '"' :: rest ∧
    s.toList = before.chars.reverse ++ chars ∧
    match before.high with
    | none => Spelled raw chars
    | some high => ∃ p q r s low more later, raw = '\\' :: 'u' :: p :: q :: r :: s :: more ∧
        Text.hexRow? [p, q, r, s] = some low ∧ isLowSurrogate low = true ∧
        chars = joinSurrogates high low :: later ∧ Spelled more later

theorem Partial.completes_add (before : Partial) (piece : List Char) (c : Char)
    (spelled : SpelledChar piece c) (text : List Char) (s : String) (rest : List Char)
    (completes : (before.add c).Completes text s rest) :
    before.Completes (piece ++ text) s rest := by
  obtain ⟨chars, high, unfit⟩ := before
  cases high with
  | some high => cases unfit <;> cases completes.1
  | none =>
      obtain ⟨fit, raw, later, split, read, rest⟩ := completes
      refine ⟨fit, piece ++ raw,
        c :: later, by rw [split, List.append_assoc], ?_, .cons spelled rest⟩
      rw [read]
      simp [add, settle]

theorem Partial.completes_addUnit (before : Partial) (p q r s : Char) (n : Nat)
    (digits : Text.hexRow? [p, q, r, s] = some n) (text : List Char) (found : String)
    (rest : List Char) (completes : (before.addUnit n).Completes text found rest) :
    before.Completes ('\\' :: 'u' :: p :: q :: r :: s :: text) found rest := by
  obtain ⟨chars, high, unfit⟩ := before
  cases high with
  | some high =>
      by_cases low : isLowSurrogate n = true
      · simp only [addUnit, low, if_true] at completes
        obtain ⟨fit, raw, later, split, read, spelled⟩ := completes
        refine ⟨fit, '\\' :: 'u' :: p :: q :: r :: s :: raw, joinSurrogates high n :: later,
          by rw [split]; rfl, ?_, p, q, r, s, n, raw, later, rfl, digits, low, rfl, spelled⟩
        rw [read]
        simp
      · simp only [addUnit, low] at completes
        cases unfit <;> cases completes.1
  | none =>
      by_cases isHigh : isHighSurrogate n = true
      · simp only [addUnit, isHigh, if_true] at completes
        obtain ⟨fit, _, _, split, read, t, u, v, w, low, _, _, rfl, second, isLow, rfl, spelled⟩ :=
          completes
        exact ⟨fit, _, _, by rw [split]; rfl, read,
          .cons (.pair p q r s t u v w n low digits isHigh second isLow) spelled⟩
      · rw [Bool.not_eq_true] at isHigh
        by_cases isLow : isLowSurrogate n = true
        · simp only [addUnit, isHigh, isLow, if_true] at completes
          cases unfit <;> cases completes.1
        · rw [Bool.not_eq_true] at isLow
          simp only [addUnit, isHigh, isLow] at completes
          exact completes_add _ _ _ (.unit p q r s n digits isHigh isLow) text found rest completes

theorem Partial.stop_ne_ok (before : Partial) (cut : Cut) (s : String) (passed : Option Cut) :
    before.stop cut ≠ ⟨.ok s, passed⟩ := nofun

theorem completes_of_readQuoted (text : List Char) (before : Partial) (s : String)
    (passed : Option Cut) (rest : List Char)
    (read : readQuoted text before = (⟨.ok s, passed⟩, rest)) : before.Completes text s rest := by
  fun_induction readQuoted text before with
  | case2 after before =>
      obtain ⟨chars, high, unfit⟩ := before
      cases high <;> cases unfit <;> cases read
      exact ⟨rfl, [], [], rfl, by simp [Partial.settle], .nil⟩
  | case3 p q r s after before n digits ih =>
      exact before.completes_addUnit p q r s n digits after _ rest (ih read)
  | case6 letter after before _ _ c stands ih =>
      exact before.completes_add ['\\', letter] c (.short letter c stands) after s rest (ih read)
  | case10 c after before noQuote _ _ followed last printable ih =>
      have noBackslash : c ≠ '\\' := by
        intro same
        cases after with
        | nil => exact last same rfl
        | cons letter more => exact followed letter more same rfl
      exact before.completes_add [c] c (.plain c printable noQuote noBackslash) after s
        rest (ih read)
  | _ => exact absurd (congrArg Prod.fst read) (Partial.stop_ne_ok _ _ _ _)

theorem Token.first_quote_iff (text : List Char) (s : String) (rest : List Char) :
    first '"' text = (.text (.clean s), rest) ↔
      ∃ raw, text = raw ++ '"' :: rest ∧ Spelled raw s.toList := by
  constructor
  · intro found
    obtain ⟨token, behind⟩ := Prod.mk.inj found
    have read : readQuoted text .start = (.clean s, rest) := Prod.ext (Token.text.inj token) behind
    obtain ⟨_, raw, chars, split, same, spelled⟩ :=
      completes_of_readQuoted text .start s none rest read
    exact ⟨raw, split, same ▸ spelled⟩
  · rintro ⟨raw, rfl, spelled⟩
    have read := readQuoted_spelled raw s.toList spelled rest []
    rw [List.reverse_nil, List.nil_append, String.ofList_toList] at read
    change (Token.text (readQuoted _ (.plain [])).1, (readQuoted _ (.plain [])).2) = _
    rw [read]

theorem Token.first_escaped (s : String) (rest : List Char) :
    first '"' (s.toList.flatMap escapedChar ++ '"' :: rest) = (.text (.clean s), rest) :=
  (first_quote_iff _ s rest).mpr ⟨_, rfl, spelled_escaped s.toList⟩

end SwaggerLift.Json
