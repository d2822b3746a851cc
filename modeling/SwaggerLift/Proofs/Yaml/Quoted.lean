import SwaggerLift.Proofs.Yaml.Plain
/-!
Texts between quotes are read back, whatever follows the closing quote. Between double quotes every
character is read from its own spelling, and the text stays on one line. Between single quotes the
text may hold line separators; the spaces with which the next line is indented do not count, and
since no space of the text stands beside a separator, nothing else is lost in the gap.
-/

namespace SwaggerLift.Yaml

theorem codeEscape?_of_hexRow? {c : Char} {digits : List Char}
    (row : Text.hexRow? digits = some c.toNat) : codeEscape? digits = some c := by
  have valid : c.toNat.isValidChar := c.valid
  rw [codeEscape?, row]
  exact dif_pos valid

/-- Only few characters need an escape by number, all of them in the basic plane. -/
theorem toNat_of_unprintable {c : Char} (hidden : isPrintable c = false) :
    c.toNat < 0xA0 ∨ c.toNat = 0xFEFF ∨ c.toNat = 0xFFFE ∨ c.toNat = 0xFFFF := by
  have out : ¬isPrintable c = true := by simp [hidden]
  rw [isPrintable_iff] at out
  omega

structure Spells (row : List Char) (n : Nat) : Prop where
  value : Text.hexRow? row = some n
  printable : row.all isPrintable = true

theorem codeEscapeOf_eq {c : Char} (hidden : isPrintable c = false) :
    (∃ a b, codeEscapeOf c = ['\\', 'x', a, b] ∧ Spells [a, b] c.toNat) ∨
      ∃ a b d e, codeEscapeOf c = ['\\', 'u', a, b, d, e] ∧ Spells [a, b, d, e] c.toNat := by
  let upper (width n : Nat) := (Text.hexPadded width n).map Char.toUpper
  have narrow : ∀ n < 0xA0, (upper 2 n).length = 2 ∧ Text.hexRow? (upper 2 n) = some n ∧
      (upper 2 n).all isPrintable = true := by decide +kernel
  have wide : ∀ n ∈ [0xFEFF, 0xFFFE, 0xFFFF], (upper 4 n).length = 4 ∧
      Text.hexRow? (upper 4 n) = some n ∧ (upper 4 n).all isPrintable = true := by decide +kernel
  rcases toNat_of_unprintable hidden with low | high
  · left
    have escape : codeEscapeOf c = '\\' :: 'x' :: upper 2 c.toNat := if_pos (by omega)
    obtain ⟨width, value, printable⟩ := narrow c.toNat low
    rw [escape]
    match upper 2 c.toNat, width, value, printable with
    | [a, b], _, value, printable => exact ⟨a, b, rfl, value, printable⟩
  · right
    have escape : codeEscapeOf c = '\\' :: 'u' :: upper 4 c.toNat := by
      rw [codeEscapeOf, if_neg (by omega), if_pos (by omega)]
    obtain ⟨width, value, printable⟩ := wide c.toNat (by simpa using high)
    rw [escape]
    match upper 4 c.toNat, width, value, printable with
    | [a, b, d, e], _, value, printable => exact ⟨a, b, d, e, rfl, value, printable⟩

theorem scanDouble_codeEscape (c : Char) (hidden : isPrintable c = false) (rest : List Char)
    (line column : Nat) (before : List Char) (gap : Gap) :
    scanDouble (codeEscapeOf c ++ rest) line column before gap =
      scanDouble rest line (column + (codeEscapeOf c).length) (c :: gap.text ++ before) .none := by
  rcases codeEscapeOf_eq hidden with ⟨a, b, escape, row, _⟩ | ⟨a, b, d, e, escape, row, _⟩
  · rw [escape]
    change scanDouble ('\\' :: 'x' :: a :: b :: rest) line column before gap = _
    rw [scanDouble, codeEscape?_of_hexRow? row]
    rfl
  · rw [escape]
    change scanDouble ('\\' :: 'u' :: a :: b :: d :: e :: rest) line column before gap = _
    rw [scanDouble, codeEscape?_of_hexRow? row]
    rfl

theorem scanDouble_shortEscape (c letter : Char) (short : shortEscapeOf? c = some letter)
    (rest : List Char) (line column : Nat) (before : List Char) (gap : Gap) :
    scanDouble ('\\' :: letter :: rest) line column before gap =
      scanDouble rest line (column + 2) (c :: gap.text ++ before) .none := by
  have code : ∀ n, c.toNat = n → c = Char.ofNat n := by
    rintro n rfl
    exact (Char.ofNat_toNat c).symm
  -- Each short escape has its own letter.
  rw [shortEscapeOf?] at short
  split at short <;> first | (cases short; rename_i same; rw [code _ same]; rfl) | cases short

structure IsOpenChar (c : Char) : Prop where
  printable : isPrintable c = true
  unbroken : isBreak c = false
  noQuote : c ≠ '"'
  noBackslash : c ≠ '\\'

theorem isOpenChar_of_shortEscapeOf? {c : Char} (printable : isPrintable c = true)
    (long : shortEscapeOf? c = none) : IsOpenChar c := by
  have escaped : ∀ d letter, shortEscapeOf? d = some letter → c ≠ d := by
    rintro d letter short rfl
    rw [long] at short
    cases short
  refine ⟨printable, ?_, escaped '"' '"' rfl, escaped '\\' '\\' rfl⟩
  simp [isBreak, escaped '\n' 'n' rfl, escaped '\r' 'r' rfl, escaped '\x85' 'N' rfl,
    escaped '\u2028' 'L' rfl, escaped '\u2029' 'P' rfl]

theorem scanDouble_cons {c : Char} (stands : IsOpenChar c) (rest : List Char) (line column : Nat)
    (before : List Char) (gap : Gap) (later : 0 < column) :
    scanDouble (c :: rest) line column before gap =
      if isBlank c then scanDouble rest line (column + 1) before (gap.addBlank c)
      else scanDouble rest line (column + 1) (c :: gap.text ++ before) .none := by
  rw [scanDouble, if_neg (by omega), if_neg stands.noQuote, stands.unbroken]
  · rfl
  all_goals intros; exact stands.noBackslash ‹c = '\\'›

theorem scanDouble_doubleChar (c : Char) (rest : List Char) (line column : Nat)
    (before blanks : List Char) (later : 0 < column) (space : c ≠ ' ') :
    scanDouble (doubleChar c ++ rest) line column before (.ofBlanks blanks) =
      scanDouble rest line (column + (doubleChar c).length) (c :: blanks ++ before) .none := by
  cases short : shortEscapeOf? c with
  | some letter =>
      simp only [doubleChar, short]
      exact scanDouble_shortEscape c letter short rest line column before _
  | none =>
      simp only [doubleChar, short]
      cases printable : isPrintable c with
      | false => exact scanDouble_codeEscape c printable rest line column before _
      | true =>
          have blank : isBlank c = false := by
            rw [isBlank_of_isPrintable printable]
            simpa [isSpace] using space
          have stands := isOpenChar_of_shortEscapeOf? printable short
          change scanDouble (c :: rest) line column before _ = _
          rw [scanDouble_cons stands rest line column before _ later, blank]
          rfl

theorem scanDouble_text (s rest : List Char) (line column : Nat) (before blanks : List Char)
    (later : 0 < column) :
    scanDouble (s.flatMap doubleChar ++ '"' :: rest) line column before (.ofBlanks blanks) =
      some ⟨(blanks ++ before).reverse ++ s, rest, line,
        column + (s.flatMap doubleChar).length + 1⟩ := by
  induction s generalizing column before blanks with
  | nil =>
      rw [List.flatMap_nil, List.nil_append, List.append_nil, scanDouble,
        if_neg (by omega), if_pos rfl]
      · rfl
      all_goals intros; exact absurd (by assumption : '"' = '\\') (by decide)
  | cons c s ih =>
      have width : column + (doubleChar c ++ s.flatMap doubleChar).length =
          column + (doubleChar c).length + (s.flatMap doubleChar).length := by
        rw [List.length_append, Nat.add_assoc]
      rw [List.flatMap_cons, List.append_assoc, width]
      by_cases space : c = ' '
      · subst space
        have next := ih (column + 1) before (' ' :: blanks) (by omega)
        change scanDouble (' ' :: (s.flatMap doubleChar ++ '"' :: rest)) line column before _ = _
        rw [scanDouble_cons ⟨rfl, rfl, by decide, by decide⟩ _ line column before _ later,
          if_pos (show isBlank ' ' = true from rfl)]
        have one : (doubleChar ' ').length = 1 := rfl
        have blanked : (Gap.ofBlanks blanks).addBlank ' ' = .ofBlanks (' ' :: blanks) := rfl
        simpa [one, blanked] using next
      · rw [scanDouble_doubleChar c _ line column before blanks later space]
        have next := ih (column + (doubleChar c).length) (c :: blanks ++ before) [] (by omega)
        simpa [Gap.ofBlanks_nil] using next

/-- The gap that is open behind a character of a text that has no line feeds and no
    spaces beside breaks. -/
inductive Gap.Behind : Char → Gap → Prop
  | word (c : Char) (unbroken : isBreak c = false) : Behind c .none
  | blanks (blanks : List Char) : Behind ' ' (.ofBlanks blanks)
  | breaks (c first : Char) (more : List Char) (broken : isBreak c = true) (kept : first ≠ '\n') :
      Behind c ⟨[], true, some first, more⟩

namespace Gap.Behind

variable {prev : Char} {gap : Gap} (behind : Gap.Behind prev gap)

include behind

/-- A break that is no line feed stays, unless blanks stand before it. -/
theorem addBreak (c : Char) (broken : isBreak c = true) (kept : c ≠ '\n') (space : prev ≠ ' ') :
    Gap.Behind c (gap.addBreak c) ∧ (gap.addBreak c).text = c :: gap.text := by
  cases behind with
  | word _ unbroken =>
      refine ⟨.breaks c c [] broken kept, ?_⟩
      simp [Gap.addBreak, Gap.text, Gap.none]
  | blanks blanks => exact absurd rfl space
  | breaks _ first more before firstKept =>
      refine ⟨.breaks c first (c :: more) broken firstKept, ?_⟩
      simp [Gap.addBreak, Gap.text]

theorem addBlank (unbroken : isBreak prev = false) :
    Gap.Behind ' ' (gap.addBlank ' ') ∧ (gap.addBlank ' ').text = ' ' :: gap.text := by
  cases behind with
  | word _ _ => exact ⟨.blanks [' '], rfl⟩
  | blanks blanks => exact ⟨.blanks (' ' :: blanks), rfl⟩
  | breaks _ _ _ broken _ =>
      rw [broken] at unbroken
      cases unbroken

theorem broken_iff : gap.broken = true ↔ isBreak prev = true := by
  cases behind with
  | word _ unbroken => simp [Gap.none, unbroken]
  | blanks blanks => simp [Gap.ofBlanks, isBreak]
  | breaks _ _ _ broken _ => simp [broken]

end Gap.Behind

theorem scanSingle_pad (indent : Nat) (rest : List Char) (line column : Nat)
    (before : List Char) (gap : Gap) (broken : gap.broken = true) :
    scanSingle (pad indent ++ rest) line column before gap =
      scanSingle rest line (column + indent) before gap := by
  induction indent generalizing column with
  | zero => rfl
  | succ n ih =>
      have unmarked : ¬(column = 0 ∧ atDocumentMark (' ' :: (pad n ++ rest)) = true) := by
        simp [atDocumentMark_cons]
      change scanSingle (' ' :: (pad n ++ rest)) line column before gap = _
      rw [scanSingle, if_neg unmarked, if_neg (by decide),
        if_pos (show isBlank ' ' = true from rfl), Gap.addBlank, if_pos broken, ih, Nat.add_assoc,
        Nat.add_comm 1]
      simp

theorem scanSingle_close (rest : List Char) (line column : Nat) (before : List Char) (gap : Gap)
    (last : rest.head? ≠ some '\'') (later : 0 < column) :
    scanSingle ('\'' :: rest) line column before gap =
      some ⟨(gap.text ++ before).reverse, rest, line, column + 1⟩ := by
  cases rest with
  | nil => simp [scanSingle, show column ≠ 0 by omega]
  | cons d rest =>
      have other : d ≠ '\'' := by simpa using last
      rw [scanSingle, if_neg (by omega), if_pos rfl]
      exact fun _ _ same => other (List.cons.inj same).1

theorem scanSingle_cons {c : Char} (rest : List Char) (line column : Nat)
    (before : List Char) (gap : Gap) (unmarked : column = 0 → c ≠ '-' ∧ c ≠ '.')
    (quote : c ≠ '\'') :
    scanSingle (c :: rest) line column before gap =
      if isBlank c then scanSingle rest line (column + 1) before (gap.addBlank c)
      else if isBreak c then scanSingle rest (line + 1) 0 before (gap.addBreak c)
      else scanSingle rest line (column + 1) (c :: gap.text ++ before) .none := by
  have noMark : ¬(column = 0 ∧ atDocumentMark (c :: rest) = true) := by
    rintro ⟨first, marked⟩
    rw [atDocumentMark_cons rest (unmarked first).1 (unmarked first).2] at marked
    cases marked
  rw [scanSingle, if_neg noMark, if_neg quote]
  exact fun _ same _ => quote same

/-- A text that may stand between single quotes: no line feeds, and no spaces beside its breaks. -/
structure SingleText (s : List Char) : Prop where
  allowed : singleAllowed s = true
  unfed : '\n' ∉ s

structure SingleRest (prev : Char) (rest : List Char) : Prop where
  printable : rest.all isPrintable = true
  unfed : '\n' ∉ rest
  ends : hasPair isSpace isBreak (prev :: rest) = false
  starts : hasPair isBreak isSpace (prev :: rest) = false

namespace SingleRest

variable {prev c : Char} {rest : List Char} (left : SingleRest prev (c :: rest))

include left

theorem tail : SingleRest c rest where
  printable := by
    have printable := left.printable
    rw [List.all_cons, Bool.and_eq_true] at printable
    exact printable.2
  unfed := fun fed => left.unfed (List.mem_cons_of_mem c fed)
  ends := (Bool.or_eq_false_iff.mp left.ends).2
  starts := (Bool.or_eq_false_iff.mp left.starts).2

theorem head : isPrintable c = true ∧ c ≠ '\n' ∧ (isBreak c = true → prev ≠ ' ') ∧
    (isBreak prev = true → c ≠ ' ') := by
  have printable := left.printable
  rw [List.all_cons, Bool.and_eq_true] at printable
  refine ⟨printable.1, fun fed => left.unfed (fed ▸ List.mem_cons_self), ?_, ?_⟩
  · rintro broken rfl
    have apart := (Bool.or_eq_false_iff.mp left.ends).1
    simp [isSpace, broken] at apart
  · rintro broken rfl
    have apart := (Bool.or_eq_false_iff.mp left.starts).1
    simp [isSpace, broken] at apart

end SingleRest

theorem SingleText.rest {s : List Char} (text : SingleText s) : SingleRest '\'' s := by
  have allowed := text.allowed
  simp only [singleAllowed, isPresentable, Bool.and_eq_true, Bool.not_eq_true'] at allowed
  obtain ⟨⟨printable, ends⟩, starts⟩ := allowed
  have quote : ∀ p q : Char → Bool, p '\'' = false → hasPair p q s = false →
      hasPair p q ('\'' :: s) = false := by
    intro p q other apart
    cases s with
    | nil => rfl
    | cons c s => simp [hasPair, other, apart]
  exact ⟨printable, text.unfed, quote _ _ rfl ends, quote _ _ rfl starts⟩

theorem scanSingle_char (c : Char) (printable : isPrintable c = true) (unbroken : isBreak c = false)
    (prev : Char) (gap : Gap) (behind : gap.Behind prev) (apart : c = ' ' → isBreak prev = false)
    (line column : Nat) (before : List Char) (later : 0 < column) :
    ∃ after next, Gap.Behind c next ∧ next.text ++ after = c :: (gap.text ++ before) ∧ ∀ rest,
      scanSingle ((if c = '\'' then ['\'', '\''] else [c]) ++ rest) line column before gap =
        scanSingle rest line (column + (if c = '\'' then ['\'', '\''] else [c]).length)
          after next := by
  have onLine : column = 0 → c ≠ '-' ∧ c ≠ '.' := fun first => absurd first (by omega)
  by_cases quote : c = '\''
  · subst quote
    exact ⟨'\'' :: gap.text ++ before, .none, .word _ rfl, rfl, fun _ => rfl⟩
  · rw [if_neg quote]
    by_cases space : c = ' '
    · subst space
      obtain ⟨next, added⟩ := behind.addBlank (apart rfl)
      refine ⟨before, _, next, by rw [added]; rfl, fun rest => ?_⟩
      rw [List.singleton_append, scanSingle_cons rest line column before gap onLine quote,
        if_pos (show isBlank ' ' = true from rfl)]
      rfl
    · have blank : isBlank c = false := by
        rw [isBlank_of_isPrintable printable]
        simpa [isSpace] using space
      refine ⟨c :: gap.text ++ before, .none, .word c unbroken, rfl, fun rest => ?_⟩
      rw [List.singleton_append, scanSingle_cons rest line column before gap onLine quote,
        blank, unbroken]
      rfl

theorem scanSingle_lineStart (indent : Nat) (inside : 0 < indent) (prev : Char) (gap : Gap)
    (behind : gap.Behind prev) (rest : List Char) (line column : Nat) (before : List Char)
    (later : isBreak prev = false → 0 < column) :
    ∃ start, 0 < start ∧ (isBreak prev = false → start = column) ∧
      scanSingle ((if isBreak prev then pad indent else []) ++ rest) line column before gap =
        scanSingle rest line start before gap := by
  cases broken : isBreak prev with
  | true =>
      refine ⟨column + indent, by omega, nofun, ?_⟩
      exact scanSingle_pad indent rest line column before gap (behind.broken_iff.mpr broken)
  | false => exact ⟨column, later broken, fun _ => rfl, rfl⟩

theorem scanSingle_rest (indent : Nat) (inside : 0 < indent) (tail : List Char)
    (last : tail.head? ≠ some '\'') (s : List Char) (prev : Char) (gap : Gap) (line column : Nat)
    (before : List Char) (left : SingleRest prev s) (behind : gap.Behind prev)
    (later : isBreak prev = false → 0 < column) :
    ∃ endLine endColumn,
      scanSingle (singleBody indent (isBreak prev) s ++ '\'' :: tail) line column before gap =
          some ⟨(gap.text ++ before).reverse ++ s, tail, endLine, endColumn⟩ ∧ line ≤ endLine ∧
        (isBreak prev = false → s.any isBreak = false → endLine = line ∧
          endColumn = column + (singleBody indent false s).length + 1) := by
  -- The gap behind the last character carries the induction; the column is only known while no
  -- break has been met.
  induction s generalizing prev gap line column before with
  | nil =>
      -- The end of the text. Behind a break it is indented as any line.
      obtain ⟨start, inLine, same, skipped⟩ :=
        scanSingle_lineStart indent inside prev gap behind ('\'' :: tail) line column before later
      refine ⟨line, start + 1, ?_, Nat.le_refl line,
        fun unbroken _ => ⟨rfl, by rw [same unbroken]; rfl⟩⟩
      rw [singleBody, skipped, scanSingle_close tail line start before gap last inLine,
        List.append_nil]
  | cons c s ih =>
      obtain ⟨printable, unfed, ends, starts⟩ := left.head
      cases broken : isBreak c with
      | true =>
          have differs : ∀ d, isBreak d = false → c ≠ d := by
            rintro d unbroken rfl
            rw [broken] at unbroken
            cases unbroken
          have blank : isBlank c = false := by
            rw [isBlank_of_isPrintable printable]
            simpa [isSpace] using differs ' ' rfl
          obtain ⟨next, added⟩ := behind.addBreak c broken unfed (ends broken)
          obtain ⟨endLine, endColumn, read, below, _⟩ :=
            ih c (gap.addBreak c) (line + 1) 0 before left.tail next
              (fun unbroken => by rw [broken] at unbroken; cases unbroken)
          refine ⟨endLine, endColumn, ?_, by omega, fun _ unbroken => ?_⟩
          · rw [singleBody, if_pos broken, List.cons_append,
              scanSingle_cons _ line column before gap (fun _ => ⟨differs '-' rfl, differs '.' rfl⟩)
                (differs '\'' rfl), blank, broken, if_neg Bool.false_ne_true, if_pos rfl]
            rw [broken, added] at read
            simpa using read
          · simp [broken] at unbroken
      | false =>
          obtain ⟨start, inLine, same, skipped⟩ :=
            scanSingle_lineStart indent inside prev gap behind
              ((if c = '\'' then ['\'', '\''] else [c]) ++ singleBody indent false s ++
                '\'' :: tail)
              line column before later
          rw [singleBody, broken, if_neg Bool.false_ne_true, List.append_assoc, List.append_assoc,
            ← List.append_assoc _ _ ('\'' :: tail), skipped, List.append_assoc]
          have unbroken : c = ' ' → isBreak prev = false := by
            rintro rfl
            cases after : isBreak prev with
            | true => exact absurd rfl (starts after)
            | false => rfl
          obtain ⟨after, next, behind, kept, step⟩ :=
            scanSingle_char c printable broken prev gap behind unbroken line start before inLine
          rw [step]
          obtain ⟨endLine, endColumn, read, below, measured⟩ :=
            ih c next line _ after left.tail behind
              (fun _ => Nat.add_pos_left inLine _)
          refine ⟨endLine, endColumn, ?_, below, fun onLine free => ?_⟩
          · rw [broken, kept] at read
            simpa using read
          · rw [List.any_cons, Bool.or_eq_false_iff] at free
            obtain ⟨sameLine, width⟩ := measured broken free.2
            refine ⟨sameLine, ?_⟩
            rw [width, same onLine, singleBody, broken]
            simp [Nat.add_assoc]

/-- A text between single quotes is read back; it ends on the line where it
    starts if it has no breaks. -/
theorem scanSingle_text {s : List Char} (text : SingleText s) (indent : Nat) (inside : 0 < indent)
    (tail : List Char) (last : tail.head? ≠ some '\'') (line column : Nat) (later : 0 < column) :
    ∃ endLine endColumn,
      scanSingle (singleBody indent false s ++ '\'' :: tail) line column [] .none =
          some ⟨s, tail, endLine, endColumn⟩ ∧ line ≤ endLine ∧
        (s.any isBreak = false → endLine = line ∧
          endColumn = column + (singleBody indent false s).length + 1) := by
  obtain ⟨endLine, endColumn, read, below, measured⟩ :=
    scanSingle_rest indent inside tail last s '\'' .none line
      column [] text.rest (.word '\'' rfl) (fun _ => later)
  exact ⟨endLine, endColumn, read, below, measured rfl⟩

end SwaggerLift.Yaml
