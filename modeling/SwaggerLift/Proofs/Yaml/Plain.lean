import SwaggerLift.Proofs.Yaml.Character
import SwaggerLift.Yaml.Plain
/-!
A text that may be written plain is scanned back as one plain scalar, before the colon of a key as
well as before the end of a line. The scan goes word by word: `prev` is the character in front of
what is left, which tells whether a gap is open.
-/

namespace SwaggerLift.Yaml

structure PlainText (s : List Char) : Prop where
  filled : s ≠ []
  allowed : plainAllowed s = true

namespace PlainText

variable {s : List Char} (text : PlainText s)

include text

theorem parts : s.all isPrintable = true ∧ s.any isBreak = false ∧ s.head?.any isSpace = false ∧
    s.getLast?.any isSpace = false ∧ startsIndicated s = false ∧ hasIndicator s = false := by
  have allowed := text.allowed
  simp only [plainAllowed, isPresentable, Bool.and_eq_true, Bool.not_eq_true'] at allowed
  obtain ⟨⟨⟨⟨⟨⟨printable, _⟩, unbroken⟩, head⟩, last⟩, start⟩, inside⟩ := allowed
  exact ⟨printable, unbroken, head, last, start, inside⟩

end PlainText

def Gap.ofBlanks (blanks : List Char) : Gap := ⟨blanks, false, .none, []⟩

@[simp] theorem Gap.ofBlanks_nil : Gap.ofBlanks [] = .none := rfl

theorem atGap_append {rest : List Char} (tail : List Char) (inside : beforeGap rest = false) :
    atGap (rest ++ tail) = false := by
  cases rest with
  | nil => cases inside
  | cons c rest =>
      simp only [beforeGap, Bool.or_eq_false_iff] at inside
      simp [atGap, inside.1]

theorem scanPlain_cons (indent : Int) (c : Char) (rest : List Char) (line column : Nat)
    (before blanks : List Char) (blank : isBlank c = false) (unbroken : isBreak c = false)
    (indented : blanks ≠ [] → indent ≤ column)
    (unmarked : column = 0 → atDocumentMark (c :: rest) = false)
    (uncommented : blanks ≠ [] → c ≠ '#') (inside : c = ':' → atGap rest = false) :
    scanPlain false indent (c :: rest) line column before (.ofBlanks blanks) =
      scanPlain false indent rest line (column + 1) (c :: blanks ++ before) .none := by
  have outdented :
      ((Gap.ofBlanks blanks).isOpen && !false && decide ((column : Int) < indent)) = false := by
    cases blanks with
    | nil => rfl
    | cons b more => simp [indented (by simp)]
  have marked : (column == 0 && atDocumentMark (c :: rest)) = false := by
    by_cases first : column = 0
    · simp [unmarked first]
    · simp [first]
  have commented : ((Gap.ofBlanks blanks).isOpen && c == '#') = false := by
    cases blanks with
    | nil => rfl
    | cons b more => simp [uncommented (by simp)]
  have ends : endsPlain false (c :: rest) = false := by
    by_cases colon : c = ':'
    · simp [endsPlain, inside colon]
    · simp [endsPlain, colon]
  rw [scanPlain, blank, unbroken, outdented, marked, commented, ends]
  simp [Gap.ofBlanks, Gap.text]

theorem scanPlain_words (indent : Int) (tail : List Char) (line : Nat) (rest : List Char)
    (prev : Char) (before blanks : List Char) (column : Nat)
    (printable : rest.all isPrintable = true) (unbroken : rest.any isBreak = false)
    (last : (prev :: rest).getLast?.any isSpace = false)
    (inside : hasIndicator (prev :: rest) = false) (opened : blanks ≠ [] → prev = ' ')
    (started : 0 < column) (indented : indent ≤ column) :
    scanPlain false indent (rest ++ tail) line column before (.ofBlanks blanks) =
      scanPlain false indent tail line (column + rest.length)
        (rest.reverse ++ blanks ++ before) .none := by
  -- Spaces stay in the gap until a character follows them, and one does.
  induction rest generalizing prev before blanks column with
  | nil =>
      have closed : blanks = [] := by
        by_contra filled
        rw [opened filled] at last
        cases last
      subst closed
      rfl
  | cons c rest ih =>
      rw [List.all_cons, Bool.and_eq_true] at printable
      rw [List.any_cons, Bool.or_eq_false_iff] at unbroken
      rw [List.getLast?_cons_cons] at last
      simp only [hasIndicator, Bool.or_eq_false_iff] at inside
      obtain ⟨⟨colon, comment⟩, later⟩ := inside
      have width : column + (c :: rest).length = column + 1 + rest.length := by
        rw [List.length_cons]
        omega
      by_cases space : c = ' '
      · subst space
        have next :=
          ih ' ' before (' ' :: blanks) (column + 1) printable.2 unbroken.2 last later
            (fun _ => rfl)
          (by omega) (by omega)
        rw [List.cons_append, scanPlain, width]
        simpa [isBlank, Gap.ofBlanks, Gap.addBlank] using next
      · have blank : isBlank c = false := by
          rw [isBlank_of_isPrintable printable.1]
          simpa [isSpace] using space
        have next := ih c (c :: blanks ++ before) [] (column + 1) printable.2 unbroken.2 last later
          (fun filled => absurd rfl filled) (by omega) (by omega)
        rw [List.cons_append, scanPlain_cons indent c _ line column before blanks blank unbroken.1
          (fun _ => indented) (fun first => absurd first (by omega)), width]
        · simpa [Gap.ofBlanks, Gap.none] using next
        · rintro filled rfl
          rw [opened filled] at comment
          cases comment
        · rintro rfl
          exact atGap_append tail (by simpa using colon)

theorem eq_of_atDocumentMark {text : List Char} (marked : atDocumentMark text = true) :
    ∃ c rest, (c = '-' ∨ c = '.') ∧ text = c :: c :: c :: rest := by
  rw [atDocumentMark.eq_def] at marked
  split at marked
  · exact ⟨'-', _, Or.inl rfl, rfl⟩
  · exact ⟨'.', _, Or.inr rfl, rfl⟩
  · cases marked

theorem atDocumentMark_cons {c : Char} (rest : List Char) (hyphen : c ≠ '-') (point : c ≠ '.') :
    atDocumentMark (c :: rest) = false := by
  rw [← Bool.not_eq_true]
  intro marked
  obtain ⟨d, more, mark, whole⟩ := eq_of_atDocumentMark marked
  rw [(List.cons.inj whole).1] at hyphen point
  exact mark.elim hyphen point

/-- No plain text starts with a document mark, whatever follows it but the characters of marks. -/
theorem atDocumentMark_append (s tail : List Char) (start : startsIndicated s = false)
    (apart : ∀ c ∈ tail.head?, c ≠ '-' ∧ c ≠ '.') : atDocumentMark (s ++ tail) = false := by
  rw [← Bool.not_eq_true]
  intro marked
  obtain ⟨c, rest, mark, whole⟩ := eq_of_atDocumentMark marked
  -- The tail cannot begin with the character of the mark, so the whole mark stands in the text.
  have outside : ∀ more, tail ≠ c :: more := by
    rintro more rfl
    have other := apart c rfl
    exact mark.elim other.1 other.2
  match s, whole with
  | [], whole => exact outside _ whole
  | [_], whole => exact outside _ (List.cons.inj whole).2
  | [_, _], whole => exact outside _ (List.cons.inj (List.cons.inj whole).2).2
  | a :: b :: d :: more, whole =>
      simp only [List.cons_append, List.cons.injEq] at whole
      obtain ⟨rfl, rfl, rfl, _⟩ := whole
      rcases mark with rfl | rfl <;> cases start

theorem scanPlain_text {s : List Char} (text : PlainText s) (indent : Int) (tail : List Char)
    (line column : Nat) (indented : indent ≤ column + 1)
    (apart : ∀ c ∈ tail.head?, c ≠ '-' ∧ c ≠ '.') :
    scanPlain false indent (s ++ tail) line column [] .none =
      scanPlain false indent tail line (column + s.length) s.reverse .none := by
  obtain ⟨printable, unbroken, head, last, start, inside⟩ := text.parts
  cases s with
  | nil => exact absurd rfl text.filled
  | cons c rest =>
      rw [List.all_cons, Bool.and_eq_true] at printable
      rw [List.any_cons, Bool.or_eq_false_iff] at unbroken
      have blank : isBlank c = false := by
        rw [isBlank_of_isPrintable printable.1]
        simpa using head
      have first := scanPlain_cons indent c (rest ++ tail) line column [] [] blank unbroken.1
        (fun filled => absurd rfl filled)
          (fun _ => atDocumentMark_append (c :: rest) tail start apart)
        (fun filled => absurd rfl filled)
      have words :=
        scanPlain_words indent tail line rest c [c] [] (column + 1) printable.2 unbroken.2 last
          inside (fun filled => absurd rfl filled) (by omega) (by omega)
      have colon : c = ':' → atGap (rest ++ tail) = false := by
        rintro rfl
        exact atGap_append tail (by simpa [startsIndicated, isStartIndicator] using start)
      rw [List.cons_append, List.length_cons, List.reverse_cons, Nat.add_comm rest.length,
        ← Nat.add_assoc]
      simpa [Gap.ofBlanks, Gap.none] using (first colon).trans words

theorem scanPlain_colon (indent : Int) (rest : List Char) (line column : Nat) (before : List Char)
    (value : atGap rest = true) :
    scanPlain false indent (':' :: rest) line column before .none =
      some ⟨⟨before.reverse, ':' :: rest, line, column⟩, false⟩ := by
  have unmarked : (column == 0 && atDocumentMark (':' :: rest)) = false := by
    rw [atDocumentMark_cons rest (by decide) (by decide), Bool.and_false]
  have ends : endsPlain false (':' :: rest) = true := by simp [endsPlain, value]
  rw [scanPlain, unmarked, ends]
  rfl

/-- A character that begins a token, wherever a line starts. -/
structure Begins (c : Char) : Prop where
  blank : isBlank c = false
  unbroken : isBreak c = false
  noComment : c ≠ '#'
  noMark : c ≠ byteOrderMark

/-- What is left of a text goes on with an entry at a column up to the
    indentation, or not at all. -/
inductive NextLine (indent : Int) : (rest after : List Char) → (column : Nat) → Prop
  | nothing : NextLine indent [] [] 0
  | entry (column : Nat) (c : Char) (rest : List Char) (within : column ≤ indent)
      (begins : Begins c) :
      NextLine indent (pad column ++ c :: rest) (c :: rest) column

namespace NextLine

variable {indent : Int} {rest after : List Char} {start : Nat}
  (next : NextLine indent rest after start)

include next

theorem length_le : after.length ≤ rest.length := by
  cases next <;> simp

theorem mono {further : Int} (right : indent ≤ further) : NextLine further rest after start := by
  cases next with
  | nothing => exact .nothing
  | entry _ c more within begins => exact .entry start c more (Int.le_trans within right) begins

theorem start_lt {column : Nat} (right : indent < column) (inside : 0 < column) :
    (start : Int) < column := by
  cases next with
  | nothing => exact Int.natCast_pos.mpr inside
  | entry _ c more within begins => exact Int.lt_of_le_of_lt within right

end NextLine

theorem scanPlain_pad (indent : Int) (count : Nat) (rest : List Char) (line column : Nat)
    (before : List Char) (gap : Gap) (broken : gap.broken = true) :
    scanPlain false indent (pad count ++ rest) line column before gap =
      scanPlain false indent rest line (column + count) before gap := by
  induction count generalizing column with
  | zero => rfl
  | succ n ih =>
      change scanPlain false indent (' ' :: (pad n ++ rest)) line column before gap = _
      rw [scanPlain, if_pos (show isBlank ' ' = true from rfl), if_neg (by simp), Gap.addBlank,
        if_pos broken, ih, Nat.add_assoc, Nat.add_comm 1]

/-- A line that is not indented more than the collection around the scalar does not belong to it. -/
theorem scanPlain_nextLine {indent : Int} {rest after : List Char} {start : Nat}
    (next : NextLine indent rest after start) (line column : Nat) (before : List Char) :
    scanPlain false (indent + 1) ('\n' :: rest) line column before .none =
      some ⟨⟨before.reverse, after, line + 1, start⟩, true⟩ := by
  let gap : Gap := ⟨[], true, some '\n', []⟩
  have crossed : scanPlain false (indent + 1) ('\n' :: rest) line column before .none =
      scanPlain false (indent + 1) rest (line + 1) 0 before gap := rfl
  rw [crossed]
  cases next with
  | nothing => rfl
  | entry _ c more within begins =>
      have outdented : (gap.isOpen && !false && decide ((start : Int) < indent + 1)) = true := by
        simpa [Gap.isOpen, gap] using Int.lt_add_one_of_le within
      rw [scanPlain_pad _ _ _ _ _ _ gap rfl, Nat.zero_add, scanPlain, begins.blank,
        begins.unbroken, outdented]
      rfl

end SwaggerLift.Yaml
