import SwaggerLift.Proofs.Yaml.Leaf
/-!
The tokens of a printed value. A piece of the text is scanned in whatever collections it stands in,
before whatever stands on the next line. Entries are the same for lists and mappings: the first one
opens its collection where it starts, and what follows further left closes it.
-/

namespace SwaggerLift.Yaml

open Scanner

mutual

/-- The tokens of a value. A list that hangs below its key has none of its own around its items. -/
def nodeTokens (hanging : Bool) : Value → List Token
  | .list [] => [.flowSequence, .flowSequenceEnd]
  | .object [] => [.flowMapping, .flowMappingEnd]
  | .list (item :: items) =>
      let rows := (itemRows (item :: items)).flatten
      if hanging then rows else .blockSequence :: rows ++ [.blockEnd]
  | .object (member :: members) =>
      .blockMapping :: (memberRows (member :: members)).flatten ++ [.blockEnd]
  | .null => [.scalar (leaf .null).1 (leaf .null).2]
  | .flag b => [.scalar (leaf (.flag b)).1 (leaf (.flag b)).2]
  | .number n => [.scalar (leaf (.number n)).1 (leaf (.number n)).2]
  | .text s => [.scalar (leaf (.text s)).1 (leaf (.text s)).2]

def itemRows : List Value → List (List Token)
  | [] => []
  | item :: rest => (.blockEntry :: nodeTokens false item) :: itemRows rest

def memberRows : List (String × Value) → List (List Token)
  | [] => []
  | (name, item) :: rest =>
      (.key :: .scalar (styleOf name.toList) name.toList :: .value ::
        nodeTokens (isShortKey name.toList) item) :: memberRows rest

end

theorem nodeTokens_leaf (hanging : Bool) (value : Value) (single : isLeaf value = true) :
    nodeTokens hanging value = [.scalar (leaf value).1 (leaf value).2] := by
  cases value with
  | list _ | object _ => cases single
  | null | flag _ | number _ | text _ => rw [nodeTokens]

section

variable {rest : List Char} {line column : Nat} {tokens : List Token} {indent : Int}
  {outer : List Int}
  {keyAllowed : Bool} {all : List Token}

theorem cuts_space (cuts : (block rest line (column + 1) tokens indent outer keyAllowed).Cuts all) :
    (block (' ' :: rest) line column tokens indent outer keyAllowed).Cuts all :=
  Cuts.of_ready (ready_pad 1) cuts

theorem cuts_pad (count : Nat)
    (cuts : (block rest line (column + count) tokens indent outer keyAllowed).Cuts all) :
    (block (pad count ++ rest) line column tokens indent outer keyAllowed).Cuts all :=
  Cuts.of_ready (ready_pad count) cuts

theorem cuts_newline (cuts : (block rest (line + 1) 0 tokens indent outer true).Cuts all) :
    (block ('\n' :: rest) line column tokens indent outer keyAllowed).Cuts all := by
  exact Cuts.of_ready (ready_newline (lapsed_none (line + 1))) cuts

end

/-- An entry of a collection, and how it is scanned, also where it opens the collection. -/
structure Entry (opening : Token) (column : Nat) (text : List Char) (row : List Token) : Prop where
  printable : text.all isPrintable = true
  starts : ∃ c more, text = c :: more ∧ Begins c
  scans : ∀ {indent : Int} {outer around : List Int} {opened : List Token},
    Opens opening column indent outer around opened →
      ∀ {rest after : List Char} {start : Nat} {later : List Token},
        NextLine column rest after start →
        Continues rest column around later → ∀ line tokens,
          (block (text ++ rest) line column tokens indent outer true).Scans
            (opened ++ (row ++ later))

section

variable {opening : Token} {column : Nat} {entries : List (List Char)} {rows : List (List Token)}
  {rest after : List Char} {start : Nat} {later : List Token}

/-- Whatever stands below a line that starts at a column starts further left, or there. -/
theorem nextLine_lines (each : List.Forall₂ (Entry opening column) entries rows)
    (next : NextLine column rest after start) :
    ∃ after start, NextLine column (lines column entries ++ rest) after start := by
  cases each with
  | nil => exact ⟨after, start, next⟩
  | @cons entry row entries rows first more =>
      obtain ⟨c, text, rfl, begins⟩ := first.starts
      have shape : lines column ((c :: text) :: entries) ++ rest =
          pad column ++ c :: (text ++ (lines column entries ++ rest)) := by simp [lines]
      rw [shape]
      exact ⟨_, _, .entry column c _ (Int.le_refl _) begins⟩

theorem all_lines (each : List.Forall₂ (Entry opening column) entries rows) :
    (lines column entries).all isPrintable = true := by
  induction each with
  | nil => rfl
  | @cons entry row entries rows first more ih =>
      rw [lines, List.flatMap_cons, List.all_append, List.all_append, all_pad,
        first.printable, ← lines, ih]
      rfl

theorem all_joined (each : List.Forall₂ (Entry opening column) entries rows) :
    (joined column entries).all isPrintable = true := by
  cases each with
  | nil => rfl
  | cons first more =>
      rw [joined, List.all_append, first.printable, ← lines, all_lines more]
      rfl

theorem continues_lines (each : List.Forall₂ (Entry opening column) entries rows)
    (next : NextLine column rest after start) {outer : List Int}
    (continues : Continues rest column outer later) :
    Continues (lines column entries ++ rest) column outer (rows.flatten ++ later) := by
  induction each with
  | nil => exact continues
  | @cons entry row entries rows first more ih =>
      obtain ⟨_, _, below⟩ := nextLine_lines more next
      intro line tokens
      have shape : lines column (entry :: entries) ++ rest =
          pad column ++ (entry ++ (lines column entries ++ rest)) := by simp [lines]
      rw [shape, List.flatten_cons, List.append_assoc]
      apply cuts_pad column
      rw [Nat.zero_add]
      exact first.scans (.inside outer) below ih line tokens

theorem scans_joined {entry : List Char} {indent : Int} {outer around : List Int}
    {opened : List Token} (opens : Opens opening column indent outer around opened)
    (each : List.Forall₂ (Entry opening column) (entry :: entries) rows)
    (next : NextLine column rest after start) (continues : Continues rest column around later)
    (line : Nat) (tokens : List Token) :
    (block (joined column (entry :: entries) ++ rest) line column tokens indent outer true).Scans
      (opened ++ (rows.flatten ++ later)) := by
  cases each with
  | @cons _ row _ rows first more =>
      obtain ⟨_, _, below⟩ := nextLine_lines more next
      have shape :
          joined column (entry :: entries) ++ rest = entry ++ (lines column entries ++ rest) := by
        simp [joined, lines]
      rw [shape, List.flatten_cons, List.append_assoc]
      exact first.scans opens below (continues_lines more next continues) line tokens

/-- The first entry opens a collection, and the line below it closes the collection. -/
theorem scans_collection {entry : List Char} {indent : Int} (right : indent < column)
    (inside : 0 < column) (each : List.Forall₂ (Entry opening column) (entry :: entries) rows)
    (next : NextLine indent rest after start) {outer : List Int}
    (continues : Continues rest indent outer later) (line : Nat) (tokens : List Token) :
    (block (joined column (entry :: entries) ++ rest) line column tokens indent outer true).Scans
      (opening :: rows.flatten ++ [.blockEnd] ++ later) := by
  have scans := scans_joined (.opens indent outer right) each (next.mono (Int.le_of_lt right))
    (continues.close next (next.start_lt right inside)) line tokens
  simpa using scans

end

/-- How a value is scanned behind a mark at a column, or behind a key that starts there. Only behind
    a mark may another key start on the same line. -/
structure Follows (hanging : Bool) (column : Nat) (text : List Char) (row : List Token) : Prop where
  printable : text.all isPrintable = true
  gap : ∀ rest, atGap (text ++ rest) = true
  scans : ∀ {outer : List Int} {rest after : List Char} {start : Nat} {later : List Token},
    NextLine column rest after start → Continues rest column outer later → ∀ line behind tokens,
      column < behind → (hanging = false → behind = column + 1) →
        (block (text ++ rest) line behind tokens column outer !hanging).Scans (row ++ later)

theorem follows_scalar {style : Style} {s : List Char} (styled : Styled s style) (hanging : Bool)
    (column : Nat) :
    Follows hanging column (' ' :: endLine (styledText style (column + 2) s))
      [.scalar style s] where
  printable := all_endLine (all_styledText styled _)
  gap _ := rfl
  scans next continues line behind tokens right _ := by
    have lower : (-1 : Int) ≤ column := by omega
    exact cuts_space (scans_scalarLine styled (by omega) lower next continues)

theorem follows_emptyList (hanging : Bool) (column : Nat) :
    Follows hanging column " []\n".toList [.flowSequence, .flowSequenceEnd] where
  printable := rfl
  gap _ := rfl
  scans _ continues line behind tokens right _ := cuts_space (scans_emptyList (by omega) continues)

theorem follows_emptyObject (hanging : Bool) (column : Nat) :
    Follows hanging column " \x7b\x7d\n".toList [.flowMapping, .flowMappingEnd] where
  printable := rfl
  gap _ := rfl
  scans _ continues line behind tokens right _ :=
    cuts_space (scans_emptyObject (by omega) continues)

section

variable {opening : Token} {column : Nat} {entry : List Char} {entries : List (List Char)}
  {rows : List (List Token)}

theorem follows_joined (each : List.Forall₂ (Entry opening (column + 2)) (entry :: entries) rows) :
    Follows false column (' ' :: joined (column + 2) (entry :: entries))
      (opening :: rows.flatten ++ [.blockEnd]) where
  printable := all_joined each
  gap _ := rfl
  scans next continues line behind tokens _ marked := by
    rw [marked rfl]
    exact cuts_space (scans_collection (by omega) (Nat.succ_pos _) each next continues line tokens)

theorem follows_lines (each : List.Forall₂ (Entry opening (column + 2)) (entry :: entries) rows) :
    Follows true column ('\n' :: lines (column + 2) (entry :: entries))
      (opening :: rows.flatten ++ [.blockEnd]) where
  printable := all_lines each
  gap _ := rfl
  scans {_ rest _ _ _} next continues line _ tokens _ _ := by
    have inner := scans_collection (by omega) (Nat.succ_pos _) each next continues (line + 1) tokens
    have shape : '\n' :: lines (column + 2) (entry :: entries) ++ rest =
        '\n' :: (pad (column + 2) ++ (joined (column + 2) (entry :: entries) ++ rest)) := by
      simp [lines, joined]
    rw [shape]
    apply cuts_newline
    apply cuts_pad (column + 2)
    rw [Nat.zero_add]
    exact inner

/-- The items of a list stand below the key itself. -/
theorem follows_hanging (each : List.Forall₂ (Entry .blockSequence column) entries rows) :
    Follows true column ('\n' :: lines column entries) rows.flatten where
  printable := all_lines each
  gap _ := rfl
  scans next continues line _ tokens _ _ :=
    cuts_newline (continues_lines each next continues (line + 1) tokens)

end

theorem entry_item {column : Nat} {text : List Char} {row : List Token}
    (follows : Follows false column text row) :
    Entry .blockSequence column ('-' :: text) (.blockEntry :: row) where
  printable := follows.printable
  starts := ⟨'-', text, rfl, rfl, rfl, by decide, by decide⟩
  scans opens _ _ _ _ next continues line _ :=
    scans_blockEntry opens (follows.gap _) fun tokens =>
      follows.scans next continues line (column + 1) tokens (Nat.lt_succ_self column) fun _ => rfl

theorem styledText_begins {s : List Char} {style : Style} (styled : Styled s style) (indent : Nat) :
    ∃ c more, styledText style indent s = c :: more ∧ Begins c := by
  cases styled with
  | plain text =>
      cases s with
      | nil => exact absurd rfl text.filled
      | cons c s => exact ⟨c, s, rfl, text.begins⟩
  | single | double | literal => exact ⟨_, _, rfl, rfl, rfl, by decide, by decide⟩

theorem entry_shortKey {column : Nat} {name text : List Char} {row : List Token}
    (short : isShortKey name = true) (follows : Follows true column text row) :
    Entry .blockMapping column (scalarText (column + 2) name ++ ':' :: text)
      (.key :: .scalar (styleOf name) name :: .value :: row) where
  printable := by
    rw [List.all_append, List.all_cons, scalarText, all_styledText (styled name), follows.printable]
    rfl
  starts := by
    obtain ⟨c, more, key, begins⟩ := styledText_begins (styled name) (column + 2)
    exact ⟨c, more ++ ':' :: text, by rw [scalarText, key]; rfl, begins⟩
  scans opens _ _ _ _ next continues line tokens := by
    obtain ⟨unbroken, bytes⟩ : name.any isBreak = false ∧
        (String.ofList name).utf8ByteSize ≤ keyBytes := by
      rw [isShortKey, Bool.and_eq_true, Bool.not_eq_true'] at short
      exact ⟨short.1, of_decide_eq_true short.2⟩
    rw [List.append_assoc]
    exact scans_scalarKey (styled name) unbroken (Nat.le_trans (length_le_utf8ByteSize name) bytes)
      (Nat.succ_pos _) opens (follows.gap _) fun behind tokens right =>
        follows.scans next continues line behind tokens right nofun

/-- A key with a mark; its colon stands on the line below it. -/
theorem entry_longKey {column : Nat} {name text : List Char} {row : List Token}
    (follows : Follows false column text row) :
    Entry .blockMapping column
      ("? ".toList ++ endLine (scalarText (column + 2) name) ++ pad column ++ ':' :: text)
      (.key :: .scalar (styleOf name) name :: .value :: row) where
  printable := by
    have key : (endLine (scalarText (column + 2) name)).all isPrintable = true :=
      all_endLine (all_styledText (styled name) _)
    rw [List.all_append, List.all_append, List.all_append, List.all_cons, key, all_pad,
      follows.printable]
    rfl
  starts := ⟨'?', _, rfl, rfl, rfl, by decide, by decide⟩
  scans {_ _ around _} opens {rest _ _ later} next continues line tokens := by
    have lower : (-1 : Int) ≤ column := by omega
    have right : (column : Int) < ((column + 2 : Nat) : Int) := by omega
    -- The line below the key starts with the colon, in the column of the mark.
    have below :
        NextLine column (pad column ++ ':' :: (text ++ rest)) (':' :: (text ++ rest)) column :=
      .entry column ':' _ (Int.le_refl _) ⟨rfl, rfl, by decide, by decide⟩
    have value :
        Continues (pad column ++ ':' :: (text ++ rest)) column around
          (.value :: (row ++ later)) := by
      intro line tokens
      apply cuts_pad column
      rw [Nat.zero_add]
      exact scans_valueMark (follows.gap _) fun tokens =>
        follows.scans next continues line (column + 1) tokens (Nat.lt_succ_self column) fun _ => rfl
    have shape :
        "? ".toList ++ endLine (scalarText (column + 2) name) ++ pad column ++ ':' :: text ++ rest =
        '?' :: ' ' :: (endLine (scalarText (column + 2) name) ++
          (pad column ++ ':' :: (text ++ rest))) := by
      simp
    rw [shape]
    exact scans_keyMark opens rfl fun tokens =>
      cuts_space (scans_scalarLine (styled name) right lower below value)

theorem endLine_leaf (value : Value) (single : isLeaf value = true) (column : Nat) :
    afterMark column value = ' ' ::
      endLine (styledText (leaf value).1 (column + 2) (leaf value).2) ∧
      afterKey column value = ' ' ::
        endLine (styledText (leaf value).1 (column + 2) (leaf value).2) := by
  match value with
  | .null | .flag true | .flag false | .text s => exact ⟨rfl, rfl⟩
  | .number n =>
      have ends : endLine (numberText n) = numberText n ++ ['\n'] := by
        have text := plainText_number n
        revert text
        generalize numberText n = s
        intro text
        cases s with
        | nil => exact absurd rfl text.filled
        | cons c s => exact endLine_of_unbroken text.last
      have both : ' ' :: endLine (styledText .plain (column + 2) (numberText n)) =
          ' ' :: numberText n ++ ['\n'] := congrArg _ ends
      exact ⟨both.symm, both.symm⟩

mutual

theorem afterMark_follows (value : Value) (column : Nat) :
    Follows false column (afterMark column value) (nodeTokens false value) := by
  match value with
  | .list [] => exact follows_emptyList false column
  | .object [] => exact follows_emptyObject false column
  | .list (item :: items) => exact follows_joined (items_scan (item :: items) (column + 2))
  | .object (member :: members) =>
      exact follows_joined (members_scan (member :: members) (column + 2))
  | .null | .flag _ | .number _ | .text _ =>
      rw [(endLine_leaf _ rfl column).1, nodeTokens_leaf false _ rfl]
      exact follows_scalar (styled_leaf _) false column

theorem afterKey_follows (value : Value) (column : Nat) :
    Follows true column (afterKey column value) (nodeTokens true value) := by
  match value with
  | .list [] => exact follows_emptyList true column
  | .object [] => exact follows_emptyObject true column
  | .list (item :: items) => exact follows_hanging (items_scan (item :: items) column)
  | .object (member :: members) =>
      exact follows_lines (members_scan (member :: members) (column + 2))
  | .null | .flag _ | .number _ | .text _ =>
      rw [(endLine_leaf _ rfl column).2, nodeTokens_leaf true _ rfl]
      exact follows_scalar (styled_leaf _) true column

theorem items_scan (items : List Value) (column : Nat) :
    List.Forall₂ (Entry .blockSequence column) (itemEntries column items) (itemRows items) := by
  match items with
  | [] => exact .nil
  | item :: rest =>
      exact .cons (entry_item (afterMark_follows item column)) (items_scan rest column)

theorem members_scan (members : List (String × Value)) (column : Nat) :
    List.Forall₂ (Entry .blockMapping column) (memberEntries column members)
      (memberRows members) := by
  match members with
  | [] => exact .nil
  | (name, item) :: rest =>
      refine .cons ?_ (members_scan rest column)
      cases short : isShortKey name.toList with
      | true => exact entry_shortKey short (afterKey_follows item column)
      | false => exact entry_longKey (afterMark_follows item column)

end

theorem continues_end : Continues [] (-1) [] [.streamEnd] := by
  intro line tokens
  refine ⟨block [] line 0 tokens (-1) [] true, 0, rfl, Nat.le_refl 0, ?_⟩
  exact congrArg some (List.reverse_cons : (Token.streamEnd :: tokens).reverse = _)

theorem continues_close : Continues [] (0 : Nat) [-1] [.blockEnd, .streamEnd] := by
  intro line tokens
  refine ⟨block [] line 0 tokens (0 : Nat) [-1] true, 0, rfl, Nat.le_refl 0, ?_⟩
  have done : (block [] line 0 tokens (0 : Nat) [-1] true).run 1 =
      some (.streamEnd :: .blockEnd :: tokens).reverse := rfl
  rw [Nat.zero_add, done]
  simp [block]

theorem start_eq (text : List Char) : start text = block text 0 0 [] (-1) [] true := rfl

theorem scans_alone {value : Value} (single : isLeaf value = true)
    (printed : print value = (afterMark 0 value).drop 1) :
    (print value).all isPrintable = true ∧
      (start (print value)).Scans (nodeTokens false value ++ [.streamEnd]) := by
  rw [printed, (endLine_leaf value single 0).1, List.drop_one, List.tail_cons,
    nodeTokens_leaf false value single, start_eq]
  refine ⟨all_endLine (all_styledText (styled_leaf value) 2), ?_⟩
  have scans :
      (block (endLine (styledText (leaf value).1 2 (leaf value).2) ++ []) 0 0 [] (-1) [] true).Scans
      (.scalar (leaf value).1 (leaf value).2 :: [.streamEnd]) :=
    scans_scalarLine (styled_leaf value) (by decide) (Int.le_refl (-1)) .nothing continues_end
  rwa [List.append_nil] at scans

theorem scans_outermost {opening : Token} {entry : List Char} {entries : List (List Char)}
    {rows : List (List Token)} (each : List.Forall₂ (Entry opening 0) (entry :: entries) rows) :
    (start (lines 0 (entry :: entries))).Scans
      (opening :: rows.flatten ++ [.blockEnd] ++ [.streamEnd]) := by
  have scans := scans_joined (.opens (-1) [] (by decide)) each .nothing continues_close 0 []
  have shape :
      joined 0 (entry :: entries) ++ [] = lines 0 (entry :: entries) := by simp [joined, lines, pad]
  rw [shape] at scans
  rw [start_eq]
  simpa using scans

/-- A printed text has only printable characters, and is scanned as the tokens of its value. -/
theorem scans_print (value : Value) :
    (print value).all isPrintable = true ∧
      (start (print value)).Scans (nodeTokens false value ++ [.streamEnd]) := by
  match value with
  | .list [] => exact ⟨rfl, scans_emptyList (by decide) continues_end⟩
  | .object [] => exact ⟨rfl, scans_emptyObject (by decide) continues_end⟩
  | .list (item :: items) =>
      have each := items_scan (item :: items) 0
      exact ⟨all_lines each, scans_outermost each⟩
  | .object (member :: members) =>
      have each := members_scan (member :: members) 0
      exact ⟨all_lines each, scans_outermost each⟩
  | .null | .flag _ | .number _ | .text _ => exact scans_alone rfl rfl

theorem tokens?_of_printable (text : List Char) (printable : text.all isPrintable = true) :
    tokens? (String.ofList text) = (start text).run (text.length + 1) := by
  have readable : text.all isReadable = true := by
    rw [List.all_eq_true] at printable ⊢
    exact fun c member => isReadable_of_isPrintable (printable c member)
  have unified := unifyBreaks_of_isPrintable text printable
  cases text with
  | nil => rfl
  | cons c rest =>
      rw [List.all_cons, Bool.and_eq_true] at printable
      have unmarked : c ≠ byteOrderMark := ne_of_isPrintable printable.1 byteOrderMark (by decide)
      rw [tokens?, String.toList_ofList]
      simp only [if_neg unmarked, readable, unified, if_true]

theorem tokens?_print (value : Value) :
    tokens? (String.ofList (print value)) = some (nodeTokens false value ++ [.streamEnd]) := by
  obtain ⟨printable, first, steps, ready, bound, result⟩ := scans_print value
  have enough : steps + 1 ≤ (print value).length + 1 :=
    Nat.succ_le_succ (Nat.le_trans bound (ready_length ready))
  rw [tokens?_of_printable _ printable]
  exact run_mono enough result

end SwaggerLift.Yaml
