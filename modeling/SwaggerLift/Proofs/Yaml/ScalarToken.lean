import SwaggerLift.Proofs.Yaml.BlockScalar
import SwaggerLift.Proofs.Yaml.Quoted
import SwaggerLift.Proofs.Yaml.Scanner
/-!
A text in the style that was chosen for it is one scalar token: before the end of its line, and as a
short key before its colon. A short key has no breaks, so the colon stands on the same line, and its
text is not so wide that the scanner gives it up.
-/

namespace SwaggerLift.Yaml

inductive Styled (s : List Char) : Style → Prop
  | plain (text : PlainText s) : Styled s .plain
  | single (text : SingleText s) : Styled s .single
  | double : Styled s .double
  | literal (text : LiteralText s) : Styled s .literal

theorem styled (s : List Char) : Styled s (styleOf s) := by
  unfold styleOf
  cases fed : s.contains '\n' with
  | true =>
      cases allowed : literalAllowed s with
      | true => exact .literal ⟨allowed, by simpa using fed⟩
      | false => exact .double
  | false =>
      cases plain : !isAmbiguous s && plainAllowed s with
      | true =>
          obtain ⟨clear, allowed⟩ : isAmbiguous s = false ∧
              plainAllowed s = true := by simpa using plain
          refine .plain ⟨?_, allowed⟩
          rintro rfl
          cases clear
      | false =>
          cases allowed : singleAllowed s with
          | true => exact .single ⟨allowed, by simpa using fed⟩
          | false => exact .double

namespace PlainText

variable {c : Char} {s : List Char} (text : PlainText (c :: s))

include text

theorem start :
    isStartIndicator c = false ∧ ((c == '?' || c == ':' || c == '-') && beforeGap s) = false := by
  have start := text.parts.2.2.2.2.1
  rw [startsIndicated.eq_def] at start
  split at start
  · cases start
  · cases start
  · rename_i same
    cases same
    exact Bool.or_eq_false_iff.mp start
  · rename_i same
    cases same

theorem head : isPrintable c = true ∧ isBlank c = false ∧ isBreak c = false := by
  obtain ⟨printable, unbroken, head, _⟩ := text.parts
  rw [List.all_cons, Bool.and_eq_true] at printable
  rw [List.any_cons, Bool.or_eq_false_iff] at unbroken
  exact ⟨printable.1, (isBlank_of_isPrintable printable.1).trans head, unbroken.1⟩

theorem last : (c :: s).getLast?.any isBreak = false := by
  have unbroken := text.parts.2.1
  rw [← Bool.not_eq_true, Option.any_eq_true]
  rintro ⟨d, found, broken⟩
  rw [List.any_eq_false] at unbroken
  exact unbroken d (List.mem_of_getLast? found) broken

theorem begins : Begins c := by
  obtain ⟨printable, blank, unbroken⟩ := text.head
  refine ⟨blank, unbroken, ?_, ne_of_isPrintable printable byteOrderMark (by decide)⟩
  rintro rfl
  have indicated := text.start.1
  cases indicated

end PlainText

theorem endLine_of_unbroken {text : List Char} (last : text.getLast?.any isBreak = false) :
    endLine text = text ++ ['\n'] := by
  rw [endLine, last]
  rfl

theorem endLine_concat (text : List Char) {c : Char} (unbroken : isBreak c = false) :
    endLine (text ++ [c]) = text ++ [c] ++ ['\n'] :=
  endLine_of_unbroken (by simp [unbroken])

/-- A literal block ends with the last character of its text. -/
theorem literalBody_concat (indent : Nat) (atBreak : Bool) (s : List Char) (c : Char) :
    ∃ before, literalBody indent atBreak (s ++ [c]) = before ++ [c] := by
  induction s generalizing atBreak with
  | nil =>
      rw [List.nil_append, literalBody]
      cases isBreak c with
      | true => exact ⟨[], rfl⟩
      | false => exact ⟨if atBreak then pad indent else [], rfl⟩
  | cons d s ih =>
      rw [List.cons_append, literalBody]
      cases isBreak d with
      | true =>
          obtain ⟨before, rest⟩ := ih true
          exact ⟨d :: before, by simp [rest]⟩
      | false =>
          obtain ⟨before, rest⟩ := ih false
          exact ⟨(if atBreak then pad indent else []) ++ d :: before, by simp [rest]⟩

theorem endLine_literal (indent : Nat) (s : List Char) (filled : s ≠ []) :
    endLine (literalHeader s ++ literalBody indent true s) =
      literalHeader s ++ (literalBody indent true s ++ lastBreak s) := by
  obtain ⟨before, c, rfl⟩ : ∃ before c, s = before ++ [c] := by
    simpa [List.concat_eq_append] using (List.eq_nil_or_concat s).resolve_left filled
  obtain ⟨text, ends⟩ := literalBody_concat indent true before c
  rw [endLine, lastBreak, atLineEnd_reverse_append, ends]
  cases broken : isBreak c <;> simp [broken]

theorem all_pad (indent : Nat) : (pad indent).all isPrintable = true := by
  rw [List.all_eq_true]
  intro c member
  rw [List.eq_of_mem_replicate member]
  rfl

theorem all_indentation (indent : Nat) (atBreak : Bool) :
    (if atBreak then pad indent else []).all isPrintable = true := by
  cases atBreak with
  | true => exact all_pad indent
  | false => rfl

theorem all_singleBody (indent : Nat) (atBreak : Bool) (s : List Char)
    (printable : s.all isPrintable = true) :
    (singleBody indent atBreak s).all isPrintable = true := by
  induction s generalizing atBreak with
  | nil => exact all_indentation indent atBreak
  | cons c s ih =>
      rw [List.all_cons, Bool.and_eq_true] at printable
      have later := fun atBreak => ih atBreak printable.2
      have quoted : (if c = '\'' then ['\'', '\''] else [c]).all isPrintable = true := by
        split
        · rfl
        · rw [List.all_cons, printable.1]
          rfl
      rw [singleBody]
      split
      · rw [List.all_cons, printable.1, later]
        rfl
      · rw [List.all_append, List.all_append, all_indentation, quoted, later]
        rfl

theorem all_literalBody (indent : Nat) (atBreak : Bool) (s : List Char)
    (printable : s.all isPrintable = true) :
    (literalBody indent atBreak s).all isPrintable = true := by
  induction s generalizing atBreak with
  | nil => rfl
  | cons c s ih =>
      rw [List.all_cons, Bool.and_eq_true] at printable
      have later := fun atBreak => ih atBreak printable.2
      rw [literalBody]
      split
      · rw [List.all_cons, printable.1, later]
        rfl
      · rw [List.all_append, List.all_cons, all_indentation, printable.1, later]
        rfl

theorem all_doubleChar (c : Char) : (doubleChar c).all isPrintable = true := by
  cases short : shortEscapeOf? c with
  | some letter =>
      have printable : isPrintable letter = true := by
        rw [shortEscapeOf?] at short
        split at short <;> cases short <;> rfl
      simp only [doubleChar, short, List.all_cons, printable]
      rfl
  | none =>
      cases printable : isPrintable c with
      | true => simp [doubleChar, short, printable]
      | false =>
          rcases codeEscapeOf_eq printable with ⟨a, b, escape, row⟩ | ⟨a, b, d, e, escape, row⟩
          · simp only [doubleChar, short, printable, escape]
            exact row.printable
          · simp only [doubleChar, short, printable, escape]
            exact row.printable

theorem all_styledText {s : List Char} {style : Style} (styled : Styled s style) (indent : Nat) :
    (styledText style indent s).all isPrintable = true := by
  cases styled with
  | plain text => exact text.parts.1
  | single text =>
      have body := all_singleBody indent false s text.rest.printable
      rw [styledText, List.cons_append, List.all_cons, List.all_append, body]
      rfl
  | double =>
      have body : (s.flatMap doubleChar).all isPrintable = true := by
        rw [List.all_flatMap, List.all_eq_true]
        exact fun c _ => all_doubleChar c
      rw [styledText, List.cons_append, List.all_cons, List.all_append, body]
      rfl
  | literal text =>
      obtain ⟨chomping, _, header⟩ := literalHeader_eq s (List.ne_nil_of_mem text.fed)
      have body := all_literalBody indent true s text.printable
      have marks : (literalHeader s).all isPrintable = true := by
        rw [header]
        cases needsIncrement s <;> cases chomping <;> rfl
      rw [styledText, List.all_append, marks, body]
      rfl

theorem all_endLine {text : List Char} (printable : text.all isPrintable = true) :
    (endLine text).all isPrintable = true := by
  rw [endLine]
  split
  · exact printable
  · rw [List.all_append, printable]
    rfl

theorem doubleChar_length (c : Char) : (doubleChar c).length ≤ 6 := by
  cases short : shortEscapeOf? c with
  | some letter => simp [doubleChar, short]
  | none =>
      cases printable : isPrintable c with
      | true => simp [doubleChar, short, printable]
      | false =>
          rcases codeEscapeOf_eq printable with ⟨a, b, escape, _⟩ | ⟨a, b, d, e, escape, _⟩ <;>
            simp [doubleChar, short, printable, escape]

theorem length_flatMap_doubleChar (s : List Char) :
    (s.flatMap doubleChar).length ≤ 6 * s.length := by
  induction s with
  | nil => exact Nat.le_refl 0
  | cons c s ih =>
      have first := doubleChar_length c
      rw [List.flatMap_cons, List.length_append, List.length_cons]
      omega

theorem length_singleBody (indent : Nat) (s : List Char) (unbroken : s.any isBreak = false) :
    (singleBody indent false s).length ≤ 2 * s.length := by
  induction s with
  | nil => exact Nat.le_refl 0
  | cons c s ih =>
      rw [List.any_cons, Bool.or_eq_false_iff] at unbroken
      have later := ih unbroken.2
      rw [singleBody, unbroken.1]
      by_cases quote : c = '\''
      · simp [quote]
        omega
      · simp [quote]
        omega

theorem length_le_utf8ByteSize (s : List Char) : s.length ≤ (String.ofList s).utf8ByteSize := by
  induction s with
  | nil => exact Nat.zero_le _
  | cons c s ih =>
      have one := Char.utf8Size_pos c
      rw [String.ofList_cons, String.utf8ByteSize_append, String.utf8ByteSize_singleton,
        List.length_cons]
      omega

namespace Scanner

section

variable {rest : List Char} {line column : Nat} {tokens : List Token} {indent : Int}
  {outer : List Int} {keyAllowed : Bool} {s : List Char}

theorem token_plain {c : Char} (text : PlainText (c :: s)) (tail : List Char)
    (apart : ∀ d ∈ tail.head?, d ≠ '-' ∧ d ≠ '.') :
    (block (c :: s ++ tail) line column tokens indent outer keyAllowed).token c (s ++ tail) =
      (block (c :: s ++ tail) line column tokens indent outer keyAllowed).plainScalar := by
  obtain ⟨printable, blank, unbroken⟩ := text.head
  obtain ⟨indicated, alone⟩ := text.start
  have unmarked : atDocumentMark (c :: (s ++ tail)) = false :=
    atDocumentMark_append (c :: s) tail text.parts.2.2.2.2.1 apart
  have inside : c = '?' ∨ c = ':' ∨ c = '-' → atGap (s ++ tail) = false := by
    intro mark
    have marked : (c == '?' || c == ':' || c == '-') = true := by simpa [or_assoc] using mark
    rw [marked, Bool.true_and] at alone
    exact atGap_append tail alone
  -- The indicators that a plain scalar never begins with.
  have others : ∀ d, isStartIndicator d = true → c ≠ d := by
    rintro d start rfl
    rw [indicated] at start
    cases start
  -- The three that it may begin with unless a gap follows them.
  have special : ∀ d, d = '?' ∨ d = ':' ∨ d = '-' → ¬(c = d ∧ atGap (s ++ tail) = true) := by
    rintro d mark ⟨rfl, gap⟩
    rw [inside mark] at gap
    cases gap
  have plain : startsPlain false c (s ++ tail) = true := by
    by_cases mark : c = '?' ∨ c = ':' ∨ c = '-'
    · have gap := inside mark
      have blank : (s ++ tail).head?.any isBlank = false := by
        cases more : s ++ tail with
        | nil => rfl
        | cons d rest =>
            rw [more, atGap, Bool.or_eq_false_iff] at gap
            exact gap.1
      have hyphen : (c == '-' && !(s ++ tail).head?.any isBlank) = (c == '-') := by
        rw [blank, Bool.not_false, Bool.and_true]
      rw [startsPlain, hyphen, gap]
      rcases mark with rfl | rfl | rfl <;> rfl
    · obtain ⟨question, colon, hyphen⟩ : c ≠ '?' ∧ c ≠ ':' ∧ c ≠ '-' := by simpa using mark
      have word : isIndicator c = false := by
        simp only [isStartIndicator, List.contains_eq_mem, List.mem_cons, List.not_mem_nil,
          decide_eq_false_iff_not, not_or] at indicated
        simp [isIndicator, question, colon, hyphen, indicated]
      simp [startsPlain, blank, unbroken, word]
  have flow :
      (block (c :: (s ++ tail)) line column tokens indent outer keyAllowed).inFlow = false := rfl
  simp [token, flow, unmarked, plain, special '-' (by simp), special '?' (by simp),
    special ':' (by simp), others '%' rfl, others '[' rfl, others '{' rfl, others ']' rfl,
    others '}' rfl, others ',' rfl, others '*' rfl, others '&' rfl, others '!' rfl, others '|' rfl,
    others '>' rfl, others '\'' rfl, others '"' rfl]

variable (line column tokens indent outer keyAllowed)

/-- The plain scalar, wherever the text behind it makes it end. -/
theorem taken_plain {c : Char} (text : PlainText (c :: s)) (within : indent ≤ column)
    (tail : List Char) (apart : ∀ d ∈ tail.head?, d ≠ '-' ∧ d ≠ '.') (cursor : Cursor)
    (broken : Bool) (ends :
      scanPlain false (indent + 1) tail line (column + (c :: s).length) (c :: s).reverse .none =
      some ⟨⟨c :: s, cursor⟩, broken⟩) :
    (block (c :: s ++ tail) line column tokens indent outer keyAllowed).token c (s ++ tail) =
      some { block cursor.rest cursor.line cursor.column (.scalar .plain (c :: s) :: tokens)
        indent outer broken
        with key := savedKey keyAllowed tokens line column indent } := by
  have scan := scanPlain_text text (indent + 1) tail line column (by omega) apart
  rw [token_plain text tail apart, plainScalar, saveKey_block]
  simp only [block, Option.bind_eq_bind, Option.bind_some, inFlow, List.isEmpty_nil,
    Bool.not_true, scan, ends]
  rfl

theorem taken_single (text : SingleText s) (width : Nat) (inside : 0 < width) (tail : List Char)
    (last : tail.head? ≠ some '\'') :
    ∃ endLine endColumn,
      (block ('\'' :: (singleBody width false s ++ '\'' :: tail)) line column tokens indent outer
          keyAllowed).token '\'' (singleBody width false s ++ '\'' :: tail) =
        some { block tail endLine endColumn (.scalar .single s :: tokens) indent outer false with
          key := savedKey keyAllowed tokens line column indent } ∧
      line ≤ endLine ∧ (s.any isBreak = false → endLine = line ∧
        endColumn = column + 1 + (singleBody width false s).length + 1) := by
  obtain ⟨endLine, endColumn, scan, below, measured⟩ :=
    scanSingle_text text width inside tail last line (column + 1) (Nat.succ_pos column)
  refine ⟨endLine, endColumn, ?_, below, measured⟩
  have dispatch : ∀ (s : Scanner) rest, s.inFlow = false →
      s.token '\'' rest = s.quotedScalar .single := by
    intro s rest flow
    simp [token, flow, atDocumentMark_cons]
  rw [dispatch _ _ rfl, quotedScalar, saveKey_block]
  simp only [block, Option.bind_eq_bind, Option.bind_some, Cursor.skip, List.drop_succ_cons,
    List.drop_zero, if_pos, scan]
  rfl

theorem taken_double (s tail : List Char) :
    (block ('"' :: (s.flatMap doubleChar ++ '"' :: tail)) line column tokens indent outer
        keyAllowed).token '"' (s.flatMap doubleChar ++ '"' :: tail) =
      some { block tail line (column + 1 + (s.flatMap doubleChar).length + 1)
        (.scalar .double s :: tokens) indent outer false with
        key := savedKey keyAllowed tokens line column indent } := by
  have scan := scanDouble_text s tail line (column + 1) [] [] (Nat.succ_pos column)
  have dispatch : ∀ (s : Scanner) rest, s.inFlow = false →
      s.token '"' rest = s.quotedScalar .double := by
    intro s rest flow
    simp [token, flow, atDocumentMark_cons]
  rw [dispatch _ _ rfl, quotedScalar, saveKey_block]
  rw [Gap.ofBlanks_nil] at scan
  simp only [block, Option.bind_eq_bind, Option.bind_some, Cursor.skip, List.drop_succ_cons,
    List.drop_zero, reduceCtorEq, if_false, scan]
  rfl

theorem taken_literal (text : LiteralText s) (lower : -1 ≤ indent) {after : List Char} {start : Nat}
    (next : NextLine indent rest after start) :
    ∃ endLine header,
      literalHeader s = '|' :: header ∧
      (block ('|' :: (header ++ (literalBody (indent.toNat + 2) true s ++ (lastBreak s ++ rest))))
        line column
          tokens indent outer keyAllowed).token '|'
          (header ++ (literalBody (indent.toNat + 2) true s ++ (lastBreak s ++ rest))) =
        some (block after endLine start (.scalar .literal s :: tokens) indent outer true) := by
  obtain ⟨endLine, scan⟩ := scanBlock_text text lower next line (column + 1)
  refine ⟨endLine, (literalHeader s).tail, rfl, ?_⟩
  have dispatch : ∀ (s : Scanner) rest, s.inFlow = false →
      s.token '|' rest = s.blockScalar .literal := by
    intro s rest flow
    simp [token, flow, atDocumentMark_cons]
  rw [dispatch _ _ rfl, blockScalar]
  simp only [block, dropKey, Option.bind_eq_bind, Option.bind_some, Cursor.skip,
    List.drop_succ_cons, List.drop_zero]
  have literal : (Style.literal == Style.folded) = false := rfl
  rw [literal, scan]
  rfl

variable {line column tokens indent outer keyAllowed}

theorem scans_scalarLine {style : Style} (styled : Styled s style) (inside : indent < column)
    (lower : -1 ≤ indent) {after : List Char} {start : Nat}
    (next : NextLine indent rest after start) {later : List Token}
    (continues : Continues rest indent outer later) :
    (block (endLine (styledText style (indent.toNat + 2) s) ++ rest) line column tokens indent outer
      keyAllowed).Scans (.scalar style s :: later) := by
  have within : indent ≤ column := Int.le_of_lt inside
  have saved := lapsed_savedKey inside keyAllowed tokens line
  -- Plain and literal scalars leave the scanner on the next line, quoted ones at the end of theirs.
  cases styled with
  | plain text =>
      cases s with
      | nil => exact absurd rfl text.filled
      | cons c s =>
          have ends := scanPlain_nextLine next line (column + (c :: s).length) (c :: s).reverse
          rw [List.reverse_reverse] at ends
          have taken :=
            taken_plain line column tokens indent outer keyAllowed text within ('\n' :: rest)
              (by simp) ⟨after, line + 1, start⟩ true ends
          have shorter := next.length_le
          change (block (endLine (c :: s) ++ rest) line column tokens indent outer keyAllowed).Scans
              _
          rw [endLine_of_unbroken text.last, List.append_assoc]
          exact scans_node text.begins within taken (by simp [block]; omega)
            (ready_nextLine next saved) continues
  | single text =>
      obtain ⟨nextLine, nextColumn, taken, below, _⟩ :=
        taken_single line column tokens indent outer keyAllowed
          text (indent.toNat + 2) (Nat.succ_pos _) ('\n' :: rest) (by simp)
      have whole : styledText .single (indent.toNat + 2) s =
          '\'' :: singleBody (indent.toNat + 2) false s ++ ['\''] := rfl
      rw [whole, endLine_concat _ (by decide)]
      simp only [List.append_assoc, List.cons_append, List.nil_append]
      exact scans_node ⟨rfl, rfl, by decide, by decide⟩ within taken (by simp [block]; omega)
        (ready_newline (saved.mono (Nat.succ_le_succ below))) continues
  | double =>
      have taken := taken_double line column tokens indent outer keyAllowed s ('\n' :: rest)
      have whole : styledText .double (indent.toNat + 2) s = '"' :: s.flatMap doubleChar ++ ['"'] :=
        rfl
      rw [whole, endLine_concat _ (by decide)]
      simp only [List.append_assoc, List.cons_append, List.nil_append]
      exact scans_node ⟨rfl, rfl, by decide, by decide⟩ within taken (by simp [block]; omega)
        (ready_newline saved) continues
  | literal text =>
      obtain ⟨nextLine, header, marks, taken⟩ :=
        taken_literal line column tokens indent outer keyAllowed text lower next
      have whole : styledText .literal (indent.toNat + 2) s =
          literalHeader s ++ literalBody (indent.toNat + 2) true s := rfl
      have shorter := next.length_le
      rw [whole, endLine_literal _ s (List.ne_nil_of_mem text.fed), marks]
      simp only [List.append_assoc, List.cons_append]
      exact scans_node ⟨rfl, rfl, by decide, by decide⟩ within taken (by simp [block]; omega)
        (ready_nextLine next (lapsed_none _)) continues

theorem scans_key {c : Char} {more : List Char} {node : Token} {endColumn : Nat} {around : List Int}
    {opened later : List Token} (begins : Begins c)
    (opens : Opens .blockMapping column indent outer around opened)
    (taken : (block (c :: more) line column tokens indent outer true).token c more =
      some { block (':' :: rest) line endColumn (node :: tokens) indent outer keyAllowed with
        key := savedKey true tokens line column indent })
    (shorter : rest.length < more.length) (gap : atGap rest = true) (behind : column ≤ endColumn)
    (width : endColumn ≤ column + keyWidth)
    (scans : ∀ tokens, (block rest line (endColumn + 1) tokens column around false).Scans later) :
    (block (c :: more) line column tokens indent outer true).Scans
      (opened ++ Token.key :: node :: .value :: later) :=
  Cuts.of_token (ready_begins begins opens.le) rfl taken
    (by simpa [block, Nat.succ_le_iff] using shorter)
    (cuts_keyEnd opens gap behind width scans)

theorem scans_scalarKey {style : Style} (styled : Styled s style) (unbroken : s.any isBreak = false)
    (short : s.length ≤ keyBytes) {width : Nat} (inside : 0 < width) {around : List Int}
    {opened later : List Token} (opens : Opens .blockMapping column indent outer around opened)
    (gap : atGap rest = true)
    (scans : ∀ endColumn tokens, column < endColumn →
      (block rest line endColumn tokens column around false).Scans later) :
    (block (styledText style width s ++ ':' :: rest) line column tokens indent outer true).Scans
      (opened ++ Token.key :: .scalar style s :: .value :: later) := by
  -- However many escapes it needs, so short a key does not reach the limit.
  have bound : keyWidth = 1024 := rfl
  have bytes : keyBytes = 128 := rfl
  cases styled with
  | plain text =>
      cases s with
      | nil => exact absurd rfl text.filled
      | cons c s =>
          have ends :=
            scanPlain_colon (indent + 1) rest line (column + (c :: s).length) (c :: s).reverse gap
          rw [List.reverse_reverse] at ends
          have taken :=
            taken_plain line column tokens indent outer true text opens.le (':' :: rest) (by simp)
              _ _ ends
          exact scans_key text.begins opens taken (by simp; omega) gap (Nat.le_add_right _ _)
            (show column + (c :: s).length ≤ column + keyWidth by omega)
            (fun tokens => scans (column + (c :: s).length + 1) tokens (by omega))
  | single text =>
      obtain ⟨endLine, endColumn, taken, _, measured⟩ :=
        taken_single line column tokens indent outer true
          text width inside (':' :: rest) (by simp)
      obtain ⟨rfl, rfl⟩ := measured unbroken
      have length := length_singleBody width s unbroken
      have whole : styledText .single width s ++ ':' :: rest =
          '\'' :: (singleBody width false s ++ '\'' :: ':' :: rest) := by simp [styledText]
      rw [whole]
      exact scans_key ⟨rfl, rfl, by decide, by decide⟩ opens taken (by simp; omega) gap
        (by omega) (by omega)
        (fun tokens => scans _ tokens (by omega))
  | double =>
      have taken := taken_double line column tokens indent outer true s (':' :: rest)
      have length := length_flatMap_doubleChar s
      have whole : styledText .double width s ++ ':' :: rest =
          '"' :: (s.flatMap doubleChar ++ '"' :: ':' :: rest) := by simp [styledText]
      rw [whole]
      exact scans_key ⟨rfl, rfl, by decide, by decide⟩ opens taken (by simp; omega) gap
        (by omega) (by omega)
        (fun tokens => scans _ tokens (by omega))
  | literal text =>
      rw [List.any_eq_false] at unbroken
      exact absurd rfl (unbroken '\n' text.fed)

end

end Scanner

end SwaggerLift.Yaml
