import SwaggerLift.Proofs.Yaml.Plain
import SwaggerLift.Yaml.Scanner
/-!
Scanning in block context. What a piece of text is cut into is said for every rest behind it and for
every token before it, so pieces compose; `Scans` counts the steps against the length of the text.
Block collections open where an entry starts and close where the next line starts further left.
-/

namespace SwaggerLift.Yaml.Scanner

def ready (s : Scanner) : Option Scanner := do
  let s ← s.toNextToken.dropStaleKey
  some (s.outdentTo s.cursor.column)

theorem run_succ (steps : Nat) (s : Scanner) :
    s.run (steps + 1) = s.ready.bind fun ready =>
      match ready.cursor.rest with
      | [] => ready.endStream.bind fun done => some done.tokens.reverse
      | c :: rest => (ready.token c rest).bind (run steps) := by
  rw [run, ready]
  cases s.toNextToken.dropStaleKey <;> rfl

theorem skipGap_length (flow : Bool) (rest : List Char) (line column : Nat)
    (comment keyAllowed : Bool) :
    (skipGap flow rest line column comment keyAllowed).1.rest.length ≤ rest.length := by
  induction rest generalizing line column comment keyAllowed with
  | nil => exact Nat.le_refl 0
  | cons c rest ih =>
      rw [skipGap]
      split
      · exact Nat.le_succ_of_le (ih (line + 1) 0 false _)
      · split
        · exact Nat.le_succ_of_le (ih line (column + 1) true _)
        · split
          · exact Nat.le_succ_of_le (ih line (column + 1) false _)
          · exact Nat.le_refl _

theorem ready_length {s start : Scanner} (ready : s.ready = some start) :
    start.cursor.rest.length ≤ s.cursor.rest.length := by
  obtain ⟨fresh, dropped, here⟩ := Option.bind_eq_some_iff.mp ready
  cases here
  have outdented : (fresh.outdentTo fresh.cursor.column).cursor = fresh.cursor := by
    rw [outdentTo]
    split <;> rfl
  have kept : fresh.cursor = s.toNextToken.cursor := by
    rw [dropStaleKey] at dropped
    split at dropped
    · split at dropped
      · rw [dropKey] at dropped
        split at dropped
        · split at dropped <;> cases dropped
          rfl
        · cases dropped
          rfl
      · cases dropped
        rfl
    · cases dropped
      rfl
  rw [outdented, kept]
  exact skipGap_length ..

/-- The whole text is cut into these tokens, in no more steps than there are characters from the
    next token on, and one. -/
def Cuts (s : Scanner) (all : List Token) : Prop :=
  ∃ start steps, s.ready = some start ∧ steps ≤ start.cursor.rest.length ∧
    s.run (steps + 1) = some all

def Scans (s : Scanner) (later : List Token) : Prop := s.Cuts (s.tokens.reverse ++ later)

theorem Cuts.of_token {s start next : Scanner} {c : Char} {rest : List Char} {all : List Token}
    (ready : s.ready = some start) (here : start.cursor.rest = c :: rest)
    (taken : start.token c rest = some next) (shorter : next.cursor.rest.length ≤ rest.length)
    (cuts : next.Cuts all) : s.Cuts all := by
  obtain ⟨after, steps, readyAfter, bound, result⟩ := cuts
  refine ⟨start, steps + 1, ready, ?_, ?_⟩
  · have within := ready_length readyAfter
    rw [here, List.length_cons]
    omega
  · rw [run_succ, ready, Option.bind_some, here, ← result]
    simp only [taken, Option.bind_some]

theorem Cuts.of_ready {s start : Scanner} {all : List Token} (same : s.ready = start.ready)
    (cuts : start.Cuts all) : s.Cuts all := by
  obtain ⟨after, steps, ready, bound, result⟩ := cuts
  refine ⟨after, steps, same.trans ready, bound, ?_⟩
  rw [run_succ, same, ← run_succ, result]

theorem run_mono {s : Scanner} {few many : Nat} (more : few ≤ many) {tokens : List Token}
    (result : s.run few = some tokens) : s.run many = some tokens := by
  induction few generalizing s many with
  | zero => cases result
  | succ few ih =>
      obtain ⟨many, rfl⟩ := Nat.exists_eq_add_of_le' (Nat.lt_of_lt_of_le (Nat.succ_pos few) more)
      rw [run_succ] at result ⊢
      cases ready : s.ready with
      | none => rw [ready] at result; cases result
      | some start =>
          rw [ready] at result
          simp only [Option.bind_some] at result ⊢
          cases here : start.cursor.rest with
          | nil => simpa only [here] using result
          | cons c rest =>
              simp only [here] at result ⊢
              obtain ⟨next, taken, later⟩ := Option.bind_eq_some_iff.mp result
              rw [taken]
              exact ih (Nat.le_of_succ_le_succ more) later

def block (rest : List Char) (line column : Nat) (tokens : List Token) (indent : Int)
    (outer : List Int) (keyAllowed : Bool) : Scanner :=
  ⟨⟨rest, line, column⟩, tokens, indent, outer, none, [], keyAllowed⟩

def Continues (rest : List Char) (indent : Int) (outer : List Int) (later : List Token) : Prop :=
  ∀ line tokens, (block rest line 0 tokens indent outer true).Scans later

theorem closedBy_of_le {column indent : Int} (within : indent ≤ column) (outer : List Int) :
    closedBy column indent outer = (0, indent, outer) := by
  cases outer with
  | nil => rfl
  | cons next outer => rw [closedBy, if_neg (by omega)]

theorem outdentTo_of_le {s : Scanner} {column : Int} (within : s.indent ≤ column) :
    s.outdentTo column = s := by
  simp [outdentTo, closedBy_of_le within]

theorem skipGap_begins {c : Char} (begins : Begins c) (flow : Bool) (rest : List Char)
    (line column : Nat) (keyAllowed : Bool) :
    skipGap flow (c :: rest) line column false keyAllowed =
      (⟨c :: rest, line, column⟩, keyAllowed) := by
  obtain ⟨space, tab⟩ : c ≠ ' ' ∧ c ≠ '\t' := by simpa [isBlank] using begins.blank
  simp [skipGap, begins.unbroken, begins.noComment, begins.noMark, space, tab]

theorem skipGap_pad (flow : Bool) (count : Nat) (rest : List Char) (line column : Nat)
    (keyAllowed : Bool) :
    skipGap flow (pad count ++ rest) line column false keyAllowed =
      skipGap flow rest line (column + count) false keyAllowed := by
  induction count generalizing column with
  | zero => rfl
  | succ n ih =>
      change skipGap flow (' ' :: (pad n ++ rest)) line column false keyAllowed = _
      rw [skipGap, ← Nat.add_assoc, Nat.add_right_comm, ← ih]
      rfl

theorem skipGap_nextLine {indent : Int} {rest after : List Char} {start : Nat}
    (next : NextLine indent rest after start) (line : Nat) (keyAllowed : Bool) :
    skipGap false rest line 0 false keyAllowed = (⟨after, line, start⟩, keyAllowed) ∧
      skipGap false after line start false keyAllowed = (⟨after, line, start⟩, keyAllowed) := by
  cases next with
  | nothing => exact ⟨rfl, rfl⟩
  | entry _ c more within begins =>
      rw [skipGap_pad, Nat.zero_add]
      exact ⟨skipGap_begins begins .., skipGap_begins begins ..⟩

theorem skipGap_line (flow : Bool) (rest : List Char) (line column : Nat)
    (comment keyAllowed : Bool) :
    line ≤ (skipGap flow rest line column comment keyAllowed).1.line := by
  induction rest generalizing line column comment keyAllowed with
  | nil => exact Nat.le_refl line
  | cons c rest ih =>
      rw [skipGap]
      split
      · exact Nat.le_of_succ_le (ih (line + 1) 0 false _)
      · split
        · exact ih line (column + 1) true _
        · split
          · exact ih line (column + 1) false _
          · exact Nat.le_refl line

section

variable {rest after : List Char} {line column : Nat} {tokens : List Token} {indent : Int}
  {outer : List Int} {keyAllowed : Bool}

theorem ready_begins {c : Char} (begins : Begins c) (within : indent ≤ column) :
    (block (c :: rest) line column tokens indent outer keyAllowed).ready =
      some (block (c :: rest) line column tokens indent outer keyAllowed) := by
  have here : (block (c :: rest) line column tokens indent outer keyAllowed).toNextToken =
      block (c :: rest) line column tokens indent outer keyAllowed := by
    simp only [toNextToken, block, inFlow, List.isEmpty_nil, Bool.not_true, skipGap_begins begins]
  have level :=
    outdentTo_of_le (s := block (c :: rest) line column tokens indent outer keyAllowed) within
  simp only [ready, here]
  exact congrArg some level

theorem ready_pad (count : Nat) :
    (block (pad count ++ rest) line column tokens indent outer keyAllowed).ready =
      (block rest line (column + count) tokens indent outer keyAllowed).ready := by
  simp only [ready, toNextToken, block, inFlow, List.isEmpty_nil, Bool.not_true, skipGap_pad]

/-- A possible key has lapsed on a line: it is not required, and stands on one before. -/
def Lapsed (key : Option PossibleKey) (line : Nat) : Prop :=
  ∀ possible ∈ key, possible.required = false ∧ possible.line < line

theorem lapsed_none (line : Nat) : Lapsed none line := nofun

theorem Lapsed.mono {key : Option PossibleKey} {line below : Nat} (lapsed : Lapsed key line)
    (further : line ≤ below) : Lapsed key below := fun possible found =>
  ⟨(lapsed possible found).1, Nat.lt_of_lt_of_le (lapsed possible found).2 further⟩

theorem dropStaleKey_of_lapsed {s : Scanner} (lapsed : Lapsed s.key s.cursor.line) :
    s.dropStaleKey = some { s with key := none } := by
  obtain ⟨cursor, tokens, indent, outer, key, outerKeys, keyAllowed⟩ := s
  cases key with
  | none => rfl
  | some possible =>
      obtain ⟨free, stale⟩ := lapsed possible rfl
      simp only at stale
      simp [dropStaleKey, dropKey, stale, free]

theorem ready_newline {key : Option PossibleKey} (lapsed : Lapsed key (line + 1)) :
    { block ('\n' :: rest) line column tokens indent outer keyAllowed with key }.ready =
      (block rest (line + 1) 0 tokens indent outer true).ready := by
  have skipped : skipGap false ('\n' :: rest) line column false keyAllowed =
      skipGap false rest (line + 1) 0 false true := by
    rw [skipGap, if_pos (show isBreak '\n' = true from rfl)]
    simp
  have below := skipGap_line false rest (line + 1) 0 false true
  simp only [ready, toNextToken, block, inFlow, List.isEmpty_nil, Bool.not_true, skipped]
  rw [dropStaleKey_of_lapsed (lapsed.mono below)]
  rfl

/-- A scalar may leave the scanner where the next line starts. -/
theorem ready_nextLine {level : Int} {start : Nat} (next : NextLine level rest after start)
    {key : Option PossibleKey} (lapsed : Lapsed key line) :
    { block after line start tokens indent outer true with key }.ready =
      (block rest line 0 tokens indent outer true).ready := by
  obtain ⟨skipped, stays⟩ := skipGap_nextLine next line true
  simp only [ready, toNextToken, block, inFlow, List.isEmpty_nil, Bool.not_true, skipped, stays]
  rw [dropStaleKey_of_lapsed lapsed]
  rfl

/-- A line that starts further left ends the innermost collection. -/
theorem ready_close {level inner : Int} {start : Nat} (next : NextLine level rest after start)
    (left : (start : Int) < inner) :
    (block rest line 0 tokens inner (indent :: outer) true).ready =
      (block rest line 0 (.blockEnd :: tokens) indent outer true).ready := by
  obtain ⟨skipped, _⟩ := skipGap_nextLine next line true
  simp only [ready, toNextToken, block, inFlow, List.isEmpty_nil, Bool.not_true, skipped,
    dropStaleKey, Option.bind_eq_bind, Option.bind_some, outdentTo, closedBy, if_pos left]
  simp [List.replicate_succ']

end

theorem Continues.close {level inner indent : Int} {outer : List Int} {rest after : List Char}
    {start : Nat} {later : List Token} (next : NextLine level rest after start)
    (left : (start : Int) < inner) (continues : Continues rest indent outer later) :
    Continues rest inner (indent :: outer) (.blockEnd :: later) := fun line tokens =>
  Cuts.of_ready (ready_close next left) (by
    simpa [Scans, block] using continues line (.blockEnd :: tokens))

/-- An entry at a column stands in the innermost collection, or a token opens one for it there. -/
inductive Opens (opening : Token) (column : Nat) :
    (indent : Int) → (outer around : List Int) → (opened : List Token) → Prop
  | inside (outer : List Int) : Opens opening column column outer outer []
  | opens (indent : Int) (outer : List Int) (right : indent < column) :
      Opens opening column indent outer (indent :: outer) [opening]

theorem Opens.le {opening : Token} {column : Nat} {indent : Int} {outer around : List Int}
    {opened : List Token} (opens : Opens opening column indent outer around opened) :
    indent ≤ column := by
  cases opens with
  | inside => exact Int.le_refl _
  | opens _ _ right => exact Int.le_of_lt right

theorem indentTo_eq {s : Scanner} (inBlock : s.outerKeys = []) {opening : Token} {column : Nat}
    {around : List Int} {opened : List Token}
    (opens : Opens opening column s.indent s.outer around opened) (recent before : List Token)
    (split : s.tokens = recent ++ before) :
    s.indentTo column before.length opening =
      { s with tokens := recent ++ opened ++ before, indent := column, outer := around } := by
  obtain ⟨cursor, tokens, indent, outer, key, outerKeys, keyAllowed⟩ := s
  cases inBlock
  cases split
  cases opens with
  | inside => simp [indentTo]
  | opens _ _ right =>
      simp [indentTo, inFlow, right, insertAfter]

theorem atDocumentMark_of_atGap {c : Char} {rest : List Char} (gap : atGap rest = true) :
    atDocumentMark (c :: rest) = false := by
  rw [← Bool.not_eq_true]
  intro marked
  obtain ⟨d, more, mark, whole⟩ := eq_of_atDocumentMark marked
  obtain ⟨_, rfl⟩ := List.cons.inj whole
  rcases mark with rfl | rfl <;> cases gap

section

variable {rest : List Char} {line column : Nat} {tokens : List Token} {indent : Int}
  {outer around : List Int} {opened later : List Token}

theorem openBlock_eq {s : Scanner} (inBlock : s.outerKeys = []) (allowed : s.keyAllowed = true)
    {opening : Token} (opens : Opens opening s.cursor.column s.indent s.outer around opened) :
    s.openBlock opening =
      some { s with tokens := opened ++ s.tokens, indent := s.cursor.column, outer := around } := by
  have flow : s.inFlow = false := by simp [inFlow, inBlock]
  rw [openBlock, if_neg (by simp [flow]), if_pos allowed, indentTo_eq inBlock opens [] s.tokens rfl]
  rfl

theorem opened_reverse {opening : Token} (opens : Opens opening column indent outer around opened) :
    opened.reverse = opened := by
  cases opens <;> rfl

theorem scans_blockEntry (opens : Opens .blockSequence column indent outer around opened)
    (gap : atGap rest = true)
    (scans : ∀ tokens, (block rest line (column + 1) tokens column around true).Scans later) :
    (block ('-' :: rest) line column tokens indent outer true).Scans
      (opened ++ .blockEntry :: later) := by
  have unmarked := atDocumentMark_of_atGap (c := '-') gap
  have taken : (block ('-' :: rest) line column tokens indent outer true).token '-' rest =
      some (block rest line (column + 1) (.blockEntry :: (opened ++ tokens)) column
        around true) := by
    have dispatch : (block ('-' :: rest) line column tokens indent outer true).token '-' rest =
        (block ('-' :: rest) line column tokens indent outer true).blockEntry := by
      simp [token, unmarked, gap]
    rw [dispatch, blockEntry, openBlock_eq rfl rfl opens]
    rfl
  apply Cuts.of_token (ready_begins ⟨rfl, rfl, by decide, by decide⟩ opens.le) rfl taken
    (by simp [block])
  simpa [Scans, block, opened_reverse opens] using scans (.blockEntry :: (opened ++ tokens))

theorem scans_keyMark (opens : Opens .blockMapping column indent outer around opened)
    (gap : atGap rest = true)
    (scans : ∀ tokens, (block rest line (column + 1) tokens column around true).Scans later) :
    (block ('?' :: rest) line column tokens indent outer true).Scans (opened ++ .key :: later) := by
  have unmarked := atDocumentMark_of_atGap (c := '?') gap
  have taken : (block ('?' :: rest) line column tokens indent outer true).token '?' rest =
      some (block rest line (column + 1) (.key :: (opened ++ tokens)) column around true) := by
    have dispatch : (block ('?' :: rest) line column tokens indent outer true).token '?' rest =
        (block ('?' :: rest) line column tokens indent outer true).keyMark := by
      simp [token, unmarked, gap]
    rw [dispatch, keyMark, openBlock_eq rfl rfl opens]
    rfl
  apply Cuts.of_token (ready_begins ⟨rfl, rfl, by decide, by decide⟩ opens.le) rfl taken
    (by simp [block])
  simpa [Scans, block, opened_reverse opens] using scans (.key :: (opened ++ tokens))

theorem scans_valueMark (gap : atGap rest = true)
    (scans : ∀ tokens, (block rest line (column + 1) tokens column outer true).Scans later) :
    (block (':' :: rest) line column tokens column outer true).Scans (.value :: later) := by
  have opens : Opens .blockMapping column column outer outer [] := .inside outer
  have unmarked := atDocumentMark_of_atGap (c := ':') gap
  have taken : (block (':' :: rest) line column tokens column outer true).token ':' rest =
      some (block rest line (column + 1) (.value :: tokens) column outer true) := by
    have dispatch : (block (':' :: rest) line column tokens column outer true).token ':' rest =
        (block (':' :: rest) line column tokens column outer true).valueMark := by
      simp [token, unmarked, gap]
    rw [dispatch, valueMark]
    simp only [block]
    rw [openBlock_eq rfl rfl opens]
    rfl
  apply Cuts.of_token (ready_begins ⟨rfl, rfl, by decide, by decide⟩ opens.le) rfl taken
    (by simp [block])
  simpa [Scans, block] using scans (.value :: tokens)

/-- The colon behind a node on its line shows that the node is a key. -/
theorem cuts_keyEnd {start : Nat} {node : Token} {required keyAllowed : Bool}
    (opens : Opens .blockMapping start indent outer around opened) (gap : atGap rest = true)
    (behind : start ≤ column) (width : column ≤ start + keyWidth)
    (scans : ∀ tokens, (block rest line (column + 1) tokens start around false).Scans later) :
    { block (':' :: rest) line column (node :: tokens) indent outer keyAllowed with
      key := some ⟨tokens.length, line, start, required⟩ }.Cuts
        (tokens.reverse ++ (opened ++ Token.key :: node :: .value :: later)) := by
  let s : Scanner := { block (':' :: rest) line column (node :: tokens) indent outer keyAllowed with
    key := some ⟨tokens.length, line, start, required⟩ }
  have unmarked := atDocumentMark_of_atGap (c := ':') gap
  have within : indent ≤ column := Int.le_trans opens.le (by omega)
  have ready : s.ready = some s := by
    have here : s.toNextToken = s := by
      simp only [s, toNextToken, block, inFlow, List.isEmpty_nil, Bool.not_true,
        skipGap_begins (c := ':') ⟨rfl, rfl, by decide, by decide⟩]
    have fresh : s.dropStaleKey = some s := by
      simp only [s, dropStaleKey, block, Nat.lt_irrefl, false_or]
      rw [if_neg (by omega)]
    rw [Scanner.ready, here, fresh]
    exact congrArg some (outdentTo_of_le (s := s) within)
  have taken : s.token ':' rest =
      some (block rest line (column + 1) (.value :: node :: .key :: (opened ++ tokens)) start
        around false) := by
    have dispatch : s.token ':' rest = s.valueMark := by simp [s, token, unmarked, gap]
    -- The mark of the key goes in front of the node, where nothing has come since.
    have inserted :
        s.insertAfter tokens.length .key = { s with tokens := [node, .key] ++ tokens } := by
      simp [s, insertAfter, block]
    rw [dispatch, valueMark]
    simp only [s, block] at inserted ⊢
    rw [inserted, indentTo_eq rfl opens [node, .key] tokens rfl]
    rfl
  apply Cuts.of_token ready rfl taken (by simp [block])
  simpa [Scans, block, opened_reverse opens] using scans
    (.value :: node :: .key :: (opened ++ tokens))

end

def savedKey (keyAllowed : Bool) (tokens : List Token) (line column : Nat) (indent : Int) :
    Option PossibleKey :=
  if keyAllowed then some ⟨tokens.length, line, column, indent == column⟩ else none

section

variable {rest more : List Char} {line column : Nat} {tokens : List Token} {indent : Int}
  {outer : List Int} {keyAllowed : Bool} {later : List Token}

theorem saveKey_block : (block rest line column tokens indent outer keyAllowed).saveKey =
    some { block rest line column tokens indent outer keyAllowed with
      key := savedKey keyAllowed tokens line column indent } := by
  cases keyAllowed <;> rfl

theorem lapsed_savedKey (inside : indent < column) (keyAllowed : Bool) (tokens : List Token)
    (line : Nat) : Lapsed (savedKey keyAllowed tokens line column indent) (line + 1) := by
  intro possible found
  cases keyAllowed with
  | false => cases found
  | true =>
      cases found
      exact ⟨by simpa using Int.ne_of_lt inside, Nat.lt_succ_self line⟩

theorem scans_node {c : Char} {node : Token} {next : Scanner} {nextLine : Nat} (begins : Begins c)
    (within : indent ≤ column)
    (taken : (block (c :: more) line column tokens indent outer keyAllowed).token c
      more = some next)
    (shorter : next.cursor.rest.length ≤ more.length)
    (ends : next.ready = (block rest nextLine 0 (node :: tokens) indent outer true).ready)
    (continues : Continues rest indent outer later) :
    (block (c :: more) line column tokens indent outer keyAllowed).Scans (node :: later) := by
  apply Cuts.of_token (ready_begins begins within) rfl taken shorter
  apply Cuts.of_ready ends
  simpa [Scans, block] using continues nextLine (node :: tokens)

theorem scans_empty {opening closing : Char} {start stop : Token} (begins : Begins opening)
    (ends : Begins closing) (opens : ∀ (s : Scanner) rest, s.token opening rest = s.flowStart start)
    (closes : ∀ (s : Scanner) rest, s.token closing rest = s.flowEnd stop)
    (inside : indent < column) (continues : Continues rest indent outer later) :
    (block (opening :: closing :: '\n' :: rest) line column tokens indent outer keyAllowed).Scans
      (start :: stop :: later) := by
  let key := savedKey keyAllowed tokens line column indent
  let opened : Scanner :=
    ⟨⟨closing :: '\n' :: rest, line, column + 1⟩, start :: tokens, indent, outer, none, [key], true⟩
  let closed : Scanner :=
    { block ('\n' :: rest) line (column + 2) (stop :: start :: tokens) indent outer false with key }
  have first :
      (block (opening :: closing :: '\n' :: rest) line column tokens indent outer keyAllowed).token
      opening (closing :: '\n' :: rest) = some opened := by
    rw [opens, flowStart, saveKey_block]
    rfl
  have here : opened.ready = some opened := by
    simp only [ready, toNextToken, opened, inFlow, skipGap_begins ends]
    rfl
  have second : opened.token closing ('\n' :: rest) = some closed := by
    rw [closes]
    rfl
  apply Cuts.of_token (ready_begins begins (Int.le_of_lt inside)) rfl first (by simp [opened])
  apply Cuts.of_token here rfl second (by simp [closed, block])
  apply Cuts.of_ready (ready_newline (lapsed_savedKey inside keyAllowed tokens line))
  simpa [Scans, block] using continues (line + 1) (stop :: start :: tokens)

theorem scans_emptyList (inside : indent < column) (continues : Continues rest indent outer later) :
    (block ('[' :: ']' :: '\n' :: rest) line column tokens indent outer keyAllowed).Scans
      (.flowSequence :: .flowSequenceEnd :: later) :=
  scans_empty ⟨rfl, rfl, by decide, by decide⟩ ⟨rfl, rfl, by decide, by decide⟩
    (fun s rest => by simp [token, atDocumentMark_cons])
      (fun s rest => by simp [token, atDocumentMark_cons])
    inside continues

theorem scans_emptyObject (inside : indent < column)
    (continues : Continues rest indent outer later) :
    (block ('{' :: '}' :: '\n' :: rest) line column tokens indent outer keyAllowed).Scans
      (.flowMapping :: .flowMappingEnd :: later) :=
  scans_empty ⟨rfl, rfl, by decide, by decide⟩ ⟨rfl, rfl, by decide, by decide⟩
    (fun s rest => by simp [token, atDocumentMark_cons])
      (fun s rest => by simp [token, atDocumentMark_cons])
    inside continues

end

end SwaggerLift.Yaml.Scanner
