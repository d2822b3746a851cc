import SwaggerLift.Proofs.Yaml.Plain
import SwaggerLift.Yaml.BlockScalar
/-!
A text that is written as a literal block is read back, before whatever stands on the following
lines. What has been read of it is kept in three parts: the text up to its last character that is no
break, the break after that, and the breaks of empty lines. The header says how much of them belongs
to the text.
-/

namespace SwaggerLift.Yaml

/-- What happens to the breaks at the end fits to a text, which is given in reverse. -/
inductive Chomping.Fits : Chomping → List Char → Prop
  | strip (last : Char) (before : List Char) (unbroken : isBreak last = false) :
      Fits .strip (last :: before)
  | clip (last previous : Char) (before : List Char) (broken : isBreak last = true)
      (unbroken : isBreak previous = false) : Fits .clip (last :: previous :: before)
  | keep (last : Char) (before : List Char) (broken : isBreak last = true) :
      Fits .keep (last :: before)

theorem Chomping.Fits.eq_strip {chomping : Chomping} {text : List Char} (fits : chomping.Fits text)
    (inLine : atLineEnd text = false) : chomping = .strip := by
  cases fits with
  | strip => rfl
  | clip last previous before broken _ | keep last before broken =>
      rw [atLineEnd, broken] at inLine
      cases inLine

def needsIncrement (s : List Char) : Bool := s.head?.any fun c => isSpace c || isBreak c

def Chomping.mark : Chomping → List Char
  | .strip => ['-']
  | .clip => []
  | .keep => ['+']

theorem literalHeader_eq (s : List Char) (filled : s ≠ []) :
    ∃ chomping : Chomping, chomping.Fits s.reverse ∧
    literalHeader s = '|' ::
      ((if needsIncrement s then ['2'] else []) ++ (chomping.mark ++ ['\n'])) := by
  rw [literalHeader, needsIncrement]
  match ends : s.reverse with
  | [] => exact absurd (List.reverse_eq_nil_iff.mp ends) filled
  | [last] =>
      cases broken : isBreak last with
      | true => exact ⟨.keep, .keep last [] broken, by simp [Chomping.mark, broken]⟩
      | false => exact ⟨.strip, .strip last [] broken, by simp [Chomping.mark, broken]⟩
  | last :: previous :: before =>
      cases broken : isBreak last with
      | false => exact ⟨.strip, .strip last _ broken, by simp [Chomping.mark, broken]⟩
      | true =>
          cases twice : isBreak previous with
          | true => exact ⟨.keep, .keep last _ broken, by simp [Chomping.mark, broken, twice]⟩
          | false =>
              exact ⟨.clip, .clip last previous _ broken
                twice, by simp [Chomping.mark, broken, twice]⟩

theorem scanHeader_marks (increment : Bool) (chomping : Chomping) (rest : List Char)
    (line column : Nat) :
    scanHeader ⟨(if increment then ['2'] else []) ++ (chomping.mark ++ ['\n']) ++ rest,
      line, column⟩ =
      some (⟨chomping, if increment then some 2 else none⟩, ⟨rest, line + 1, 0⟩) := by
  cases increment <;> cases chomping <;> rfl

namespace BlockText

/-- This much of a text has been read, and where its breaks went. -/
structure Holds (t : BlockText) (read : List Char) : Prop where
  before : t.before = read.reverse.dropWhile isBreak
  breaks : t.more ++ t.first.toList = read.reverse.takeWhile isBreak
  ended : t.before ≠ [] → atLineEnd read.reverse = true → t.first.isSome = true

theorem holds_empty : empty.Holds [] := ⟨rfl, rfl, fun filled => absurd rfl filled⟩

namespace Holds

variable {t : BlockText} {read : List Char} (holds : t.Holds read)

include holds

theorem whole : t.more ++ t.first.toList ++ t.before = read.reverse := by
  rw [holds.before, holds.breaks, List.takeWhile_append_dropWhile]

theorem closed (inLine : atLineEnd read.reverse = false) :
    t.more = [] ∧ t.first = none ∧ t.before = read.reverse := by
  have none : t.more ++ t.first.toList = [] := by
    rw [holds.breaks]
    cases backwards : read.reverse with
    | nil => rfl
    | cons last before =>
        rw [backwards] at inLine
        exact List.takeWhile_cons_of_neg (by simpa [atLineEnd] using inLine)
  obtain ⟨more, first⟩ := List.append_eq_nil_iff.mp none
  have whole := holds.whole
  rw [none, List.nil_append] at whole
  exact ⟨more, by simpa using first, whole⟩

theorem add (c : Char) (unbroken : isBreak c = false) (inLine : atLineEnd read.reverse = false) :
    (t.add c).Holds (read ++ [c]) := by
  obtain ⟨more, first, before⟩ := holds.closed inLine
  refine ⟨?_, ?_, ?_⟩
  · simp [BlockText.add, before, unbroken]
  · simp [BlockText.add, more, first, unbroken]
  · simp [atLineEnd, unbroken]

theorem startLine (c : Char) (unbroken : isBreak c = false) :
    (t.startLine false c).Holds (read ++ [c]) := by
  have whole := holds.whole
  refine ⟨?_, ?_, ?_⟩
  · simp [BlockText.startLine, unbroken, ← whole]
  · simp [BlockText.startLine, unbroken]
  · simp [atLineEnd, unbroken]

theorem endLine (c : Char) (broken : isBreak c = true) (inLine : atLineEnd read.reverse = false) :
    (t.endLine c).Holds (read ++ [c]) := by
  obtain ⟨more, first, before⟩ := holds.closed inLine
  have breaks := holds.breaks
  refine ⟨?_, ?_, fun _ _ => rfl⟩
  · simpa [BlockText.endLine, broken] using holds.before
  · rw [more, first] at breaks
    simpa [BlockText.endLine, broken, more] using breaks

theorem addBreak (c : Char) (broken : isBreak c = true) (ended : atLineEnd read.reverse = true) :
    (t.addBreak c).Holds (read ++ [c]) := by
  refine ⟨?_, ?_, fun filled _ => holds.ended filled ended⟩
  · simpa [BlockText.addBreak, broken] using holds.before
  · simpa [BlockText.addBreak, broken] using holds.breaks

theorem finish (chomping : Chomping) (fits : chomping.Fits read.reverse) :
    t.finish chomping = read := by
  have whole := holds.whole
  apply List.reverse_injective
  generalize backwards : read.reverse = text at fits whole ⊢
  cases fits with
  | strip last before unbroken =>
      obtain ⟨_, _, same⟩ := holds.closed (by simpa [backwards, atLineEnd] using unbroken)
      rw [BlockText.finish, List.reverse_reverse, same, backwards]
  | clip last previous before broken unbroken =>
      have breaks : t.more ++ t.first.toList = [last] := by
        rw [holds.breaks, backwards]
        simp [broken, unbroken]
      have filled : t.before ≠ [] := by
        rw [holds.before, backwards]
        simp [broken, unbroken]
      have ended := holds.ended filled (by simpa [backwards, atLineEnd] using broken)
      obtain ⟨first, found⟩ := Option.isSome_iff_exists.mp ended
      have alone : t.more = [] := by
        rw [found] at breaks
        exact (List.append_eq_singleton_iff.mp breaks).elim And.left fun other =>
          absurd other.2 (List.cons_ne_nil first [])
      rw [alone, List.nil_append] at whole
      rw [BlockText.finish, List.reverse_reverse, whole]
  | keep last before broken => rw [BlockText.finish, List.reverse_reverse, whole]

end Holds

end BlockText

def BlockPlace.behind (width : Nat) (read : List Char) : BlockPlace :=
  if atLineEnd read.reverse then .before (some width) 0 else .inLine width

def mayIndent (indent : Option Nat) (column : Nat) : Bool := indent.all fun width => column < width

theorem scanLines_before (chomping : Chomping) (least : Nat) (c : Char) (rest : List Char)
    (line column : Nat) (indent : Option Nat) (t : BlockText) :
    scanLines false chomping least (c :: rest) line column (.before indent 0) t =
      if mayIndent indent column && c == ' ' then
        scanLines false chomping least rest line (column + 1) (.before indent 0) t
      else if mayIndent indent column && c == '\t' then none
      else if isBreak c then
        scanLines false chomping least rest (line + 1) 0 (.before indent (max 0 column))
          (t.addBreak c)
      else if column = indent.getD (max (max 0 column) least) then
        scanLines false chomping least rest line (column + 1)
          (.inLine (indent.getD (max (max 0 column) least))) (t.startLine false c)
      else some ⟨t.finish chomping, c :: rest, line, column⟩ := by
  cases indent <;> rfl

theorem scanLines_pad (chomping : Chomping) (least : Nat) (rest : List Char)
    (line count column : Nat) (indent : Option Nat) (t : BlockText)
    (within : ∀ width ∈ indent, column + count ≤ width) :
    scanLines false chomping least (pad count ++ rest) line column (.before indent 0) t =
      scanLines false chomping least rest line (column + count) (.before indent 0) t := by
  induction count generalizing column with
  | zero => rfl
  | succ n ih =>
      have inside : mayIndent indent column = true := by
        rw [mayIndent, Option.all_eq_true]
        intro width known
        have room := within width known
        simp only [decide_eq_true_eq]
        omega
      have room : ∀ width ∈ indent, column + 1 + n ≤ width := by
        intro width known
        have room := within width known
        omega
      change scanLines false chomping least (' ' :: (pad n ++ rest)) line column _ t = _
      rw [scanLines_before, inside, if_pos (by rfl), ih (column + 1) room, Nat.add_assoc,
        Nat.add_comm 1]

/-- The first character of a line stands where the lines are indented to. It shows that, if it is
    known from nowhere else. -/
theorem scanLines_lineStart (chomping : Chomping) (least width : Nat) (fits : least ≤ width)
    (indent : Option Nat) (c : Char) (unbroken : isBreak c = false)
    (known : indent = some width ∨ indent = none ∧ isBlank c = false)
    (rest : List Char) (line : Nat) (t : BlockText) :
    scanLines false chomping least (pad width ++ c :: rest) line 0 (.before indent 0) t =
      scanLines false chomping least rest line (width + 1) (.inLine width)
        (t.startLine false c) := by
  rw [scanLines_pad chomping least _ line width 0 indent t, Nat.zero_add]
  · rcases known with rfl | ⟨rfl, filled⟩
    · rw [scanLines_before]
      simp [mayIndent, unbroken]
    · obtain ⟨space, tab⟩ : c ≠ ' ' ∧ c ≠ '\t' := by simpa [isBlank] using filled
      rw [scanLines_before]
      simp [mayIndent, unbroken, space, tab, Nat.max_eq_left fits]
  · rintro other found
    rcases known with rfl | ⟨rfl, _⟩
    · cases found
      omega
    · cases found

theorem BlockPlace.behind_of_ended {width : Nat} {read : List Char}
    (ended : atLineEnd read.reverse = true) :
    behind width read = .before (some width) 0 := if_pos ended

theorem BlockPlace.behind_of_inLine {width : Nat} {read : List Char}
    (inLine : atLineEnd read.reverse = false) : behind width read = .inLine width := by
  rw [behind, inLine]
  rfl

theorem atLineEnd_reverse_append (read : List Char) (c : Char) :
    atLineEnd (read ++ [c]).reverse = isBreak c := by
  simp [atLineEnd]

theorem scanLines_char (chomping : Chomping) (least width : Nat) (fits : least ≤ width)
    (tail : List Char) (read : List Char) (t : BlockText) (line column : Nat) (holds : t.Holds read)
    (start : atLineEnd read.reverse = true → column = 0) (c : Char) (s : List Char) :
    ∃ next nextLine nextColumn, next.Holds (read ++ [c]) ∧ (isBreak c = true → nextColumn = 0) ∧
      scanLines false chomping least
        (literalBody width (atLineEnd read.reverse) (c :: s) ++ tail) line column
          (.behind width read) t =
        scanLines false chomping least (literalBody width (isBreak c) s ++ tail) nextLine nextColumn
          (.behind width (read ++ [c])) next := by
  have after := atLineEnd_reverse_append read c
  -- Either place may be met by a break or by another character, and each pair is a step of its own.
  cases ended : atLineEnd read.reverse with
  | true =>
      rw [BlockPlace.behind_of_ended ended, start ended]
      cases broken : isBreak c with
      | true =>
          refine ⟨t.addBreak c, line + 1, 0, holds.addBreak c broken ended, fun _ => rfl, ?_⟩
          have space : c ≠ ' ' := by rintro rfl; cases broken
          have tab : c ≠ '\t' := by rintro rfl; cases broken
          rw [literalBody, if_pos broken, List.cons_append, scanLines_before,
            BlockPlace.behind_of_ended (after.trans broken)]
          simp [broken, space, tab]
      | false =>
          refine ⟨t.startLine false c, line, width + 1, holds.startLine c broken, nofun, ?_⟩
          rw [literalBody, broken, BlockPlace.behind_of_inLine (after.trans broken)]
          have first :=
            scanLines_lineStart chomping least width fits (some width) c broken (Or.inl rfl)
              (literalBody width false s ++ tail) line t
          simpa using first
  | false =>
      rw [BlockPlace.behind_of_inLine ended, literalBody]
      cases broken : isBreak c with
      | true =>
          refine ⟨t.endLine c, line + 1, 0, holds.endLine c broken ended, fun _ => rfl, ?_⟩
          rw [BlockPlace.behind_of_ended (after.trans broken), if_pos rfl,
            List.cons_append, scanLines, if_pos broken]
      | false =>
          refine ⟨t.add c, line, column + 1, holds.add c broken ended, nofun, ?_⟩
          rw [BlockPlace.behind_of_inLine (after.trans broken)]
          simp only [Bool.false_eq_true, if_false, List.nil_append, List.cons_append]
          rw [scanLines, broken]
          rfl

theorem scanLines_rest (chomping : Chomping) (least width : Nat) (fits : least ≤ width)
    (tail : List Char) (s read : List Char) (t : BlockText) (line column : Nat)
    (holds : t.Holds read) (start : atLineEnd read.reverse = true → column = 0) :
    ∃ done endLine endColumn, done.Holds (read ++ s) ∧
      (atLineEnd (read ++ s).reverse = true → endColumn = 0) ∧
      scanLines false chomping least
        (literalBody width (atLineEnd read.reverse) s ++ tail) line column
          (.behind width read) t =
        scanLines false chomping least tail endLine endColumn (.behind width (read ++ s)) done := by
  induction s generalizing read t line column with
  | nil =>
      exact ⟨t, line, column, by simpa using holds, by simpa using start, by simp [literalBody]⟩
  | cons c s ih =>
      obtain ⟨next, nextLine, nextColumn, more, first, step⟩ :=
        scanLines_char chomping least width fits tail read t line column holds start c s
      have after := atLineEnd_reverse_append read c
      obtain ⟨done, endLine, endColumn, whole, ended, rest⟩ :=
        ih (read ++ [c]) next nextLine nextColumn more
          (fun ended => first (after ▸ ended))
      have joined : read ++ c :: s = read ++ [c] ++ s := by simp
      rw [joined]
      refine ⟨done, endLine, endColumn, whole, ended, ?_⟩
      rw [step, ← rest, after]

/-- The scalar ends where the next line is not indented as far as its own lines are. -/
theorem scanLines_nextLine {indent : Int} {rest after : List Char} {start : Nat}
    (next : NextLine indent rest after start) (chomping : Chomping) (least width : Nat)
    (narrow : indent < width) (line : Nat) (t : BlockText) :
    scanLines false chomping least rest line 0 (.before (some width) 0) t =
      some ⟨t.finish chomping, after, line, start⟩ := by
  cases next with
  | nothing => rfl
  | entry _ c more within begins =>
      have outside : start < width := by omega
      obtain ⟨space, tab⟩ : c ≠ ' ' ∧ c ≠ '\t' := by simpa [isBlank] using begins.blank
      rw [scanLines_pad, Nat.zero_add, scanLines_before]
      · simp [mayIndent, outside, space, tab, begins.unbroken, Nat.ne_of_lt outside]
      · rintro _ ⟨⟩
        omega

structure LiteralText (s : List Char) : Prop where
  allowed : literalAllowed s = true
  fed : '\n' ∈ s

theorem LiteralText.printable {s : List Char} (text : LiteralText s) :
    s.all isPrintable = true := by
  have allowed := text.allowed
  simp only [literalAllowed, isPresentable, Bool.and_eq_true] at allowed
  exact allowed.1.1

/-- Reads a whole text: the header says how far its lines are indented, or
    its first line shows it. -/
theorem scanLines_text (chomping : Chomping) (least width : Nat) (fits : least ≤ width)
    (tail : List Char) (s : List Char) (printable : s.all isPrintable = true) (filled : s ≠ [])
    (line : Nat) :
    ∃ done endLine endColumn, done.Holds s ∧ (atLineEnd s.reverse = true → endColumn = 0) ∧
      scanLines false chomping least (literalBody width true s ++ tail) line 0
          (.before (if needsIncrement s then some width else none) 0) .empty =
        scanLines false chomping least tail endLine endColumn (.behind width s) done := by
  cases needed : needsIncrement s with
  | true =>
      exact scanLines_rest chomping least width fits tail s [] .empty line 0 BlockText.holds_empty
        (fun _ => rfl)
  | false =>
      cases s with
      | nil => exact absurd rfl filled
      | cons c s =>
          rw [List.all_cons, Bool.and_eq_true] at printable
          obtain ⟨space, broken⟩ : isSpace c = false ∧ isBreak c = false := by
            simpa [needsIncrement] using needed
          have blank : isBlank c = false := (isBlank_of_isPrintable printable.1).trans space
          have first :=
            scanLines_lineStart chomping least width fits none c broken (Or.inr ⟨rfl, blank⟩)
              (literalBody width false s ++ tail) line .empty
          obtain ⟨done, endLine, endColumn, whole, ended, rest⟩ :=
            scanLines_rest chomping least width fits
              tail s [c] _ line (width + 1) (BlockText.holds_empty.startLine c broken)
              (fun ended => by simp [atLineEnd, broken] at ended)
          refine ⟨done, endLine, endColumn, whole, ended, ?_⟩
          rw [literalBody, broken]
          have inLine : atLineEnd [c].reverse = false := broken
          rw [inLine, BlockPlace.behind_of_inLine inLine] at rest
          simpa using first.trans rest

def lastBreak (s : List Char) : List Char := if atLineEnd s.reverse then [] else ['\n']

theorem scanBlock_text {s : List Char} (text : LiteralText s) {indent : Int} (lower : -1 ≤ indent)
    {rest after : List Char} {start : Nat} (next : NextLine indent rest after start)
    (line column : Nat) :
    ∃ endLine, scanBlock false indent
        ⟨(literalHeader s).tail ++ (literalBody (indent.toNat + 2) true s ++ (lastBreak s ++ rest)),
          line, column⟩ = some ⟨s, after, endLine, start⟩ := by
  have filled : s ≠ [] := List.ne_nil_of_mem text.fed
  have narrow : indent < ((indent.toNat + 2 : Nat) : Int) := by omega
  obtain ⟨chomping, fits, header⟩ := literalHeader_eq s filled
  obtain ⟨done, endLine, endColumn, holds, ended, read⟩ := scanLines_text chomping
    (max 1 (indent + 1).toNat) (indent.toNat + 2) (by omega)
      (lastBreak s ++ rest) s text.printable filled
    (line + 1)
  have increment : (if needsIncrement s then some 2 else none).map (indent.toNat + ·) =
      if needsIncrement s then some (indent.toNat + 2) else none := by
    cases needsIncrement s <;> rfl
  rw [header, List.tail_cons, scanBlock, scanHeader_marks]
  simp only [Option.bind_eq_bind, Option.bind_some]
  rw [increment, read]
  cases last : atLineEnd s.reverse with
  | true =>
      refine ⟨endLine, ?_⟩
      rw [lastBreak, if_pos last, List.nil_append, ended last, BlockPlace.behind_of_ended last,
        scanLines_nextLine next chomping _ _ narrow endLine done, holds.finish chomping fits]
  | false =>
      refine ⟨endLine + 1, ?_⟩
      have broken : isBreak '\n' = true := rfl
      -- Then the break behind the text does not count.
      have stripped : (done.endLine '\n').finish chomping = done.finish chomping := by
        rw [fits.eq_strip last]
        rfl
      rw [lastBreak, last, BlockPlace.behind_of_inLine last]
      change scanLines false chomping _ ('\n' :: rest) endLine endColumn _ done = _
      rw [scanLines, if_pos broken,
        scanLines_nextLine next chomping _ _ narrow (endLine + 1) _, stripped,
        holds.finish chomping fits]

end SwaggerLift.Yaml
