import SwaggerLift.Proofs.Decimal
import SwaggerLift.Proofs.Value
import SwaggerLift.Proofs.Yaml.ScalarToken
/-!
Scalars of a printed value. Each is written in a style that fits its text, and its text in that
style means the value again: a text that could be taken for something else is never plain.
-/

namespace SwaggerLift.Yaml

open Decimal

theorem hasPair_of_none (p q : Char → Bool) (s : List Char) (none : ∀ c ∈ s, p c = false) :
    hasPair p q s = false := by
  induction s with
  | nil => rfl
  | cons c s ih =>
      have later := ih fun d member => none d (List.mem_cons_of_mem c member)
      cases s with
      | nil => rfl
      | cons d rest => simpa [hasPair, none c List.mem_cons_self] using later

theorem hasIndicator_of_none (s : List Char) (none : ∀ c ∈ s, c ≠ ':' ∧ c ≠ '#') :
    hasIndicator s = false := by
  induction s with
  | nil => rfl
  | cons c s ih =>
      have later := ih fun d member => none d (List.mem_cons_of_mem c member)
      cases s with
      | nil => rfl
      | cons d rest =>
          obtain ⟨colon, comment⟩ := none d (by simp)
          simpa [hasIndicator, colon, comment] using later

theorem isDecimalDigit_iff (c : Char) : isDecimalDigit c = true ↔
    0x30 ≤ c.toNat ∧ c.toNat ≤ 0x39 := by
  rw [isDecimalDigit, Bool.and_eq_true, decide_eq_true_iff, decide_eq_true_iff]
  rfl

def isNumberChar (c : Char) : Bool := isDecimalDigit c || c == '-' || c == '.' || c == 'e'

theorem ne_of_isNumberChar {c : Char} (part : isNumberChar c = true) (d : Char)
    (other : isNumberChar d = false) : c ≠ d := by
  rintro rfl
  rw [part] at other
  cases other

theorem isPrintable_of_isNumberChar {c : Char} (part : isNumberChar c = true) :
    isPrintable c = true := by
  simp only [isNumberChar, Bool.or_eq_true, isDecimalDigit_iff, beq_iff_eq] at part
  rcases part with ((range | rfl) | rfl) | rfl
  · exact (isPrintable_iff c).mpr (by omega)
  all_goals rfl

theorem isBreak_of_isNumberChar {c : Char} (part : isNumberChar c = true) : isBreak c = false := by
  have ne := ne_of_isNumberChar part
  simp [isBreak, ne '\n' (by decide), ne '\r' (by decide), ne '\x85' (by decide),
    ne '\u2028' (by decide), ne '\u2029' (by decide)]

theorem isSpace_of_isNumberChar {c : Char} (part : isNumberChar c = true) : isSpace c = false := by
  simpa [isSpace] using ne_of_isNumberChar part ' ' (by decide)

theorem isStartIndicator_of_isNumberChar {c : Char} (part : isNumberChar c = true) :
    isStartIndicator c = false := by
  have others : ∀ d, isStartIndicator d = true → isNumberChar d = false := by
    intro d indicator
    rw [isStartIndicator, List.contains_iff_mem] at indicator
    have apart := (List.all_eq_true (p := fun d => !isNumberChar d)).mp (by decide) d indicator
    simpa using apart
  rw [← Bool.not_eq_true]
  intro indicator
  rw [others c indicator] at part
  cases part

theorem plainText_of_number {s : List Char} (filled : s ≠ [])
    (parts : ∀ c ∈ s, isNumberChar c = true) (start : startsIndicated s = false) : PlainText s := by
  have printable : s.all isPrintable = true :=
    List.all_eq_true.mpr fun c member => isPrintable_of_isNumberChar (parts c member)
  have unbroken : s.any isBreak = false :=
    List.any_eq_false.mpr fun c member => by simp [isBreak_of_isNumberChar (parts c member)]
  have unspaced : ∀ c ∈ s, isSpace c = false :=
    fun c member => isSpace_of_isNumberChar (parts c member)
  have head : s.head?.any isSpace = false := by
    cases s with
    | nil => rfl
    | cons c rest => exact unspaced c List.mem_cons_self
  have last : s.getLast?.any isSpace = false := by
    rw [← Bool.not_eq_true, Option.any_eq_true]
    rintro ⟨c, found, space⟩
    rw [unspaced c (List.mem_of_getLast? found)] at space
    cases space
  have pair := hasPair_of_none isSpace isBreak s unspaced
  have inside := hasIndicator_of_none s fun c member =>
    ⟨ne_of_isNumberChar (parts c member) ':' rfl, ne_of_isNumberChar (parts c member) '#' rfl⟩
  refine ⟨filled, ?_⟩
  simp [plainAllowed, isPresentable, printable, unbroken, head, last, pair, inside, start]

theorem isNumberChar_of_digit {c : Char} (digit : isDecimalDigit c = true) :
    isNumberChar c = true := by
  simp only [isNumberChar, digit, Bool.true_or]

theorem startsIndicated_of_digit (c : Char) (rest : List Char) (digit : isDecimalDigit c = true) :
    startsIndicated (c :: rest) = false := by
  have ne : ∀ d, isDecimalDigit d = false → c ≠ d := by
    rintro d other rfl
    rw [digit] at other
    cases other
  rw [startsIndicated.eq_def]
  split
  · rename_i same
    exact absurd (List.cons.inj same).1 (ne '-' rfl)
  · rename_i same
    exact absurd (List.cons.inj same).1 (ne '.' rfl)
  · rename_i same
    cases same
    simp [isStartIndicator_of_isNumberChar (isNumberChar_of_digit digit), ne '?' rfl,
      ne ':' rfl, ne '-' rfl]
  · rfl

theorem startsIndicated_of_negative (c : Char) (rest : List Char)
    (digit : isDecimalDigit c = true) : startsIndicated ('-' :: c :: rest) = false := by
  have part := isNumberChar_of_digit digit
  have inside : beforeGap (c :: rest) = false := by
    have range := (isDecimalDigit_iff c).mp digit
    have space := isSpace_of_isNumberChar part
    have blank := isBlank_of_isPrintable (isPrintable_of_isNumberChar part)
    simp [beforeGap, blank, space, isBreak_of_isNumberChar part]
    omega
  rw [startsIndicated.eq_def]
  split
  · rename_i same
    cases same
    cases digit
  · rename_i same
    cases same
  · rename_i same
    cases same
    rw [inside]
    rfl
  · rfl

theorem digitsOf_eq_cons (n : Nat) :
    ∃ c rest, digitsOf n = c :: rest ∧ isDecimalDigit c = true := by
  obtain ⟨c, rest, digits⟩ := List.exists_cons_of_ne_nil (Nat.toDigits_ne_nil (n := n) (b := 10))
  refine ⟨c, rest, digits, isDecimalDigit_of_mem n c ?_⟩
  rw [digitsOf, digits]
  exact List.mem_cons_self

structure Numeric (s : List Char) : Prop where
  starts : s.head?.any isDecimalDigit = true
  parts : ∀ c ∈ s, isNumberChar c = true

namespace Numeric

theorem of_digits {lead : Char} {more : List Char}
    (all : ∀ c ∈ lead :: more, isDecimalDigit c = true) : Numeric (lead :: more) :=
  ⟨all lead List.mem_cons_self, fun c member => isNumberChar_of_digit (all c member)⟩

theorem append {s t : List Char} (numeric : Numeric s) (more : ∀ c ∈ t, isNumberChar c = true) :
    Numeric (s ++ t) := by
  constructor
  · obtain ⟨starts, _⟩ := numeric
    cases s with
    | nil => cases starts
    | cons c s => exact starts
  · intro c member
    rcases List.mem_append.mp member with first | later
    · exact numeric.parts c first
    · exact more c later

theorem plainText {s : List Char} (numeric : Numeric s) : PlainText s ∧ PlainText ('-' :: s) := by
  obtain ⟨starts, parts⟩ := numeric
  cases s with
  | nil => cases starts
  | cons c rest =>
      constructor
      · exact plainText_of_number (List.cons_ne_nil c rest) parts
          (startsIndicated_of_digit c rest starts)
      · apply plainText_of_number (List.cons_ne_nil '-' _)
        · intro d member
          rcases List.mem_cons.mp member with rfl | member
          · rfl
          · exact parts d member
        · exact startsIndicated_of_negative c rest starts

theorem digitsOf (n : Nat) : Numeric (digitsOf n) := by
  obtain ⟨c, rest, digits, _⟩ := digitsOf_eq_cons n
  have all := isDecimalDigit_of_mem n
  rw [digits] at all ⊢
  exact .of_digits all

variable {lead : Char} {more : List Char} (all : ∀ c ∈ lead :: more, isDecimalDigit c = true)

include all

theorem positionalText (first : Int) : Numeric (Spelling.positionalText (lead :: more) first) := by
  have zeros : ∀ count, ∀ c ∈ List.replicate count '0', isNumberChar c = true := by
    intro count c member
    rw [List.eq_of_mem_replicate member]
    rfl
  have digits : Numeric (lead :: more) := .of_digits all
  unfold Spelling.positionalText
  split
  · have start : Numeric ['0', '.'] := ⟨rfl, List.all_eq_true.mp rfl⟩
    exact (start.append (zeros _)).append digits.parts
  · have taken : Numeric (lead :: more.take first.toNat) :=
      .of_digits fun c member => all c (List.mem_of_mem_take (i := first.toNat + 1) member)
    have whole := taken.append (zeros (first.toNat + 1 - (lead :: more).length))
    dsimp only
    split
    · exact whole.append (List.all_eq_true.mp rfl)
    · next left =>
        apply whole.append
        intro c member
        rcases List.mem_cons.mp member with rfl | later
        · rfl
        · exact digits.parts c (List.mem_of_mem_drop later)

theorem scientificText (first : Int) : Numeric (fractions.scientificText (lead :: more) first) := by
  have digits : Numeric (lead :: more) := .of_digits all
  have sign : ∀ c ∈ 'e' :: (if first < 0 then ['-'] else if fractions.plus then ['+'] else []),
      isNumberChar c = true := by
    have plus : fractions.plus = false := rfl
    rw [plus]
    split <;> exact List.all_eq_true.mp rfl
  unfold Spelling.scientificText
  refine ((?_ : Numeric _).append sign).append (Numeric.digitsOf first.natAbs).parts
  cases more with
  | nil => exact digits
  | cons next rest =>
      refine ⟨digits.starts, ?_⟩
      intro c member
      rcases List.mem_cons.mp member with rfl | later
      · exact digits.parts c List.mem_cons_self
      · rcases List.mem_cons.mp later with rfl | later
        · rfl
        · exact digits.parts c (List.mem_cons_of_mem lead later)

end Numeric

/-- A fraction is spelled as one word of digits, with a sign before it if it is negative. -/
theorem plainText_fraction (x : Float) : PlainText (fractions.text x) := by
  have signed : ∀ (negative : Prop) [Decidable negative] (s : List Char), Numeric s →
      PlainText ((if negative then [] else ['-']) ++ s) := by
    intro negative _ s numeric
    split
    · exact numeric.plainText.1
    · exact numeric.plainText.2
  rw [Spelling.text]
  dsimp only
  by_cases zero : (Binary.ofBits x.toBits.toNat).mantissa = 0
  · rw [if_pos zero]
    exact signed _ _ ⟨rfl, List.all_eq_true.mp rfl⟩
  · rw [if_neg zero]
    have positive := Binary.shortest_pos x.toBits.toNat (Nat.pos_of_ne_zero zero)
    obtain ⟨lead, more, digits, _, all⟩ := Scaled.leading_eq_cons _ positive
    rw [digits]
    apply signed
    split
    · exact Numeric.positionalText all _
    · exact Numeric.scientificText all _

theorem plainText_number (n : Number) : PlainText (numberText n) := by
  cases n with
  | whole w =>
      have plain := (Numeric.digitsOf w.val.natAbs).plainText
      rw [numberText]
      split
      · exact plain.2
      · exact plain.1
  | float x finite => exact plainText_fraction x

theorem hexValue?_of_digit {c : Char} (digit : isDecimalDigit c = true) :
    Text.hexValue? c = some (digitValue c) ∧ digitValue c < 10 := by
  have range := (isDecimalDigit_iff c).mp digit
  constructor
  · exact if_pos range
  · have zero : '0'.toNat = 0x30 := rfl
    rw [digitValue, zero]
    omega

theorem digitsIn?_digitsOf (n : Nat) : digitsIn? 10 (digitsOf n) = some n := by
  have fold : ∀ (digits : List Char) (start : Nat), (∀ c ∈ digits, isDecimalDigit c = true) →
      digits.foldl (fun n? c => do
        let n ← n?
        let d ← Text.hexValue? c
        if d < 10 then some (10 * n + d) else none) (some start) =
        some (digits.foldl (fun n c => 10 * n + digitValue c) start) := by
    intro digits
    induction digits with
    | nil => exact fun _ _ => rfl
    | cons c rest ih =>
        intro start all
        obtain ⟨value, small⟩ := hexValue?_of_digit (all c List.mem_cons_self)
        rw [List.foldl_cons, List.foldl_cons, ← ih _ fun d member =>
          all d (List.mem_cons_of_mem c member)]
        simp [value, small]
  obtain ⟨c, rest, digits, _⟩ := digitsOf_eq_cons n
  have filled : (digitsOf n).isEmpty = false := by rw [digits]; rfl
  have value : (digitsOf n).foldl (fun n c => 10 * n + digitValue c) 0 = n := digitsValue_digitsOf n
  rw [digitsIn?, filled, if_neg Bool.false_ne_true, fold _ 0 (isDecimalDigit_of_mem n), value]

theorem based?_digitsOf (n : Nat) : based? (digitsOf n) = none := by
  have none_of : ∀ c, isDecimalDigit c = false → c ∉ digitsOf n := by
    intro c other member
    rw [isDecimalDigit_of_mem n c member] at other
    cases other
  rw [based?.eq_def]
  split
  · rename_i same
    exact absurd (by simp [same]) (none_of 'x' rfl)
  · rename_i same
    exact absurd (by simp [same]) (none_of 'o' rfl)
  · rename_i same
    exact absurd (by simp [same]) (none_of 'b' rfl)
  · rfl

theorem isZeroLed_digitsOf (n : Nat) :
    isZeroLed (digitsOf n) = false ∧ isZeroLed ('-' :: digitsOf n) = false := by
  rcases Nat.eq_zero_or_pos n with rfl | positive
  · exact ⟨rfl, rfl⟩
  · obtain ⟨c, rest, digits, digit⟩ := digitsOf_eq_cons n
    have head := head_digitsOf n positive
    rw [digits] at head ⊢
    have zero : c ≠ '0' := by simpa using head
    have hyphen : c ≠ '-' := by rintro rfl; cases digit
    have plus : c ≠ '+' := by rintro rfl; cases digit
    constructor
    · simp [isZeroLed, zero, hyphen, plus]
    · simp [isZeroLed, zero]

theorem wholeWord?_numberText (w : Whole) : wholeWord? (numberText (.whole w)) = some w.val := by
  have low := w.low
  have high := w.high
  obtain ⟨unsigned, signed⟩ := isZeroLed_digitsOf w.val.natAbs
  have value := digitsIn?_digitsOf w.val.natAbs
  have noBase := based?_digitsOf w.val.natAbs
  by_cases below : w.val < 0
  · have fits : w.val.natAbs ≤ largestWide + 1 := by rw [largestWide]; omega
    rw [numberText, if_pos below]
    simp only [wholeWord?, noBase, Option.bind_none, signed, value, Bool.false_eq_true, if_false,
      if_true, fits]
    exact congrArg some (by omega)
  · obtain ⟨c, rest, digits, digit⟩ := digitsOf_eq_cons w.val.natAbs
    have fits : w.val.natAbs ≤ 2 * largestWide + 1 := by rw [largestWide]; omega
    have hyphen : c ≠ '-' := by rintro rfl; cases digit
    have plus : c ≠ '+' := by rintro rfl; cases digit
    rw [numberText, if_neg below]
    rw [digits] at unsigned value noBase ⊢
    simp [wholeWord?, hyphen, plus, noBase, unsigned, value, fits]
    omega

theorem plainMeaning_whole (w : Whole) :
    plainMeaning (String.ofList (numberText (.whole w))) = .whole w.val := by
  obtain ⟨c, rest, digits, digit⟩ := digitsOf_eq_cons w.val.natAbs
  -- No word that means something else starts like a number.
  have ne : ∀ word : List Char, word.head?.any isNumberChar = false →
      numberText (.whole w) ≠ word := by
    rintro word other rfl
    rw [numberText, digits] at other
    split at other
    · cases other
    · rw [List.head?_cons, Option.any_some, isNumberChar_of_digit digit] at other
      cases other
  have filled : (numberText (.whole w)).isEmpty = false := by
    rw [List.isEmpty_eq_false_iff]
    exact (plainText_number (.whole w)).filled
  have notNull : isNullWord (numberText (.whole w)) = false := by
    rw [isNullWord, decide_eq_false (ne ['~'] rfl), decide_eq_false (ne "null".toList rfl),
      decide_eq_false (ne "Null".toList rfl), decide_eq_false (ne "NULL".toList rfl)]
    rfl
  have noFlag : flagWord? (numberText (.whole w)) = none := by
    rw [flagWord?, decide_eq_false (ne "true".toList rfl), decide_eq_false (ne "True".toList rfl),
      decide_eq_false (ne "TRUE".toList rfl), decide_eq_false (ne "false".toList rfl),
      decide_eq_false (ne "False".toList rfl), decide_eq_false (ne "FALSE".toList rfl)]
    rfl
  simp only [plainMeaning, String.toList_ofList, filled, notNull, noFlag, wholeWord?_numberText]
  rfl

def leaf : Value → Style × List Char
  | .flag true => (.plain, "true".toList)
  | .flag false => (.plain, "false".toList)
  | .number n => (.plain, numberText n)
  | .text s => (styleOf s.toList, s.toList)
  | _ => (.plain, "null".toList)

def isLeaf : Value → Bool
  | .list _ | .object _ => false
  | _ => true

theorem styled_leaf (value : Value) : Styled (leaf value).2 (leaf value).1 := by
  have null : PlainText "null".toList := ⟨by decide, by decide⟩
  match value with
  | .number n => exact .plain (plainText_number n)
  | .text s => exact styled s.toList
  | .flag true | .flag false => exact .plain ⟨by decide, by decide⟩
  | .null | .list _ | .object _ => exact .plain null

def meant : Value → Meaning
  | .flag b => .flag b
  | .number (.whole w) => .whole w.val
  | .text s => .text s
  | _ => .null

theorem eq_of_plainMeaning {text s : String} (means : plainMeaning text = .text s) : s = text := by
  simp only [plainMeaning] at means
  split at means
  · cases means
  · split at means
    · cases means
    · split at means
      · cases means
      · split at means <;> cases means
        rfl

theorem clear_of_styleOf {s : List Char} (plain : styleOf s = .plain) : isAmbiguous s = false := by
  unfold styleOf at plain
  split at plain
  · split at plain <;> cases plain
  · split at plain
    · rename_i clear
      exact (by simpa using clear : isAmbiguous s = false ∧ plainAllowed s = true).1
    · split at plain <;> cases plain

theorem meaning_styleOf (s : String) : meaning none (styleOf s.toList) s = .text s := by
  rw [meaning]
  by_cases plain : styleOf s.toList = .plain
  · rw [if_pos plain]
    have clear := clear_of_styleOf plain
    rw [isAmbiguous, String.ofList_toList] at clear
    cases means : plainMeaning s with
    | text t => rw [eq_of_plainMeaning means]
    | _ => rw [means] at clear; cases clear
  · rw [if_neg plain]

theorem meaning_leaf (value : Value) (single : isLeaf value = true)
    (whole : value.floatFree = true) :
    meaning none (leaf value).1 (String.ofList (leaf value).2) = meant value := by
  match value with
  | .null | .flag true | .flag false => rfl
  | .number (.whole w) => exact plainMeaning_whole w
  | .text s =>
      rw [leaf, String.ofList_toList]
      exact meaning_styleOf s

end SwaggerLift.Yaml
