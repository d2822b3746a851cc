import SwaggerLift.Proofs.Json.Fraction
import SwaggerLift.Proofs.Json.Literal
import SwaggerLift.Proofs.Json.Source
/-!
The text of a value is well formed and says that value: it spells the literal content of the value,
so it builds its tree. Only where a fraction stands, the tree can hold another one, since reading
can miss it by the last place; without fractions the value itself is read back.
-/

namespace SwaggerLift.Json

mutual

def Literal.ofValue : Value → Literal
  | .null => .null
  | .flag b => .flag b
  | .number n => .numeral (writtenNumeral n)
  | .text s => .text (.clean s)
  | .list items => .list (ofItems items)
  | .object members => .object (ofMembers members)

def Literal.ofItems : List Value → List Literal
  | [] => []
  | value :: rest => ofValue value :: ofItems rest

def Literal.ofMembers : List (String × Value) → List (Reading String × Literal)
  | [] => []
  | (name, value) :: rest => (.clean name, ofValue value) :: ofMembers rest

end

mutual

theorem Literal.tree_ofValue (value : Value) :
    (Literal.ofValue value).tree = .ofValue rereadNumber value := by
  match value with
  | .null | .flag _ | .number _ | .text _ => rfl
  | .list items => rw [Literal.ofValue, Literal.tree, Tree.ofValue, Literal.itemTrees_ofItems items]
  | .object members =>
      rw [Literal.ofValue, Literal.tree, Tree.ofValue, Literal.memberTrees_ofMembers members]

theorem Literal.itemTrees_ofItems (items : List Value) :
    Literal.itemTrees (Literal.ofItems items) = Tree.ofItems rereadNumber items := by
  match items with
  | [] => rfl
  | value :: rest =>
      rw [Literal.ofItems, Literal.itemTrees, Tree.ofItems, Literal.tree_ofValue value,
        Literal.itemTrees_ofItems rest]

theorem Literal.memberTrees_ofMembers (members : List (String × Value)) :
    Literal.memberTrees (Literal.ofMembers members) = Tree.ofMembers rereadNumber members := by
  match members with
  | [] => rfl
  | (name, value) :: rest =>
      rw [Literal.ofMembers, Literal.memberTrees, Tree.ofMembers, Literal.tree_ofValue value,
        Literal.memberTrees_ofMembers rest]

end

/-- Wherever a numeral could end after the text, the text is cut into these lexemes. -/
def Lexes (text : List Char) (found : List Lexeme) : Prop :=
  ∀ rest, endsNumeral rest = true → lexemes (text ++ rest) = found ++ lexemes rest

theorem lexemes_line (spacing : Spacing) (depth : Nat) (rest : List Char) :
    lexemes (spacing.line depth ++ rest) = lexemes rest := by
  apply lexemes_blanks _ rest
  intro c member
  cases spacing with
  | compact => cases member
  | pretty =>
      rcases List.mem_cons.mp member with rfl | later
      · rfl
      · rw [List.eq_of_mem_replicate later]; rfl

theorem endsNumeral_line (spacing : Spacing) (depth : Nat) (rest : List Char)
    (ends : endsNumeral rest = true) : endsNumeral (spacing.line depth ++ rest) = true := by
  cases spacing with
  | compact => exact ends
  | pretty => rfl

theorem lexemes_tail (spacing : Spacing) (depth : Nat) (closing : Char) (close : Token)
    (ends : ∀ rest, endsNumeral (closing :: rest) = true)
    (cuts : ∀ rest, lexemes (closing :: rest) = .mark close :: lexemes rest)
    (parts : List (List Char)) (found : List (List Lexeme))
    (beside : List.Forall₂ Lexes parts found) (rest : List Char) :
    let tail := parts.flatMap (fun part => ',' :: spacing.line (depth + 1) ++ part) ++
      (spacing.line depth ++ closing :: rest)
    endsNumeral tail = true ∧ lexemes tail =
      found.flatMap (fun part => .mark .comma :: part) ++ .mark close :: lexemes rest := by
  induction beside with
  | nil =>
      refine ⟨endsNumeral_line spacing depth _ (ends rest), ?_⟩
      rw [List.flatMap_nil, List.nil_append, lexemes_line, cuts]
      rfl
  | @cons part found parts others first _ ih =>
      obtain ⟨stops, later⟩ := ih
      refine ⟨rfl, ?_⟩
      -- A comma ends any numeral before it, so the part that it follows is cut off there.
      have comma : ∀ after, lexemes (',' :: after) = .mark .comma :: lexemes after := fun after =>
        lexemes_of_first ',' after after .comma rfl rfl
      simp only [List.flatMap_cons, List.cons_append, List.append_assoc, comma,
        lexemes_line] at later ⊢
      rw [first _ (by simpa using stops), later]

theorem lexes_bracketed (spacing : Spacing) (depth : Nat) (opening closing : Char)
    (opened close : Token)
    (opens : ∀ rest, lexemes (opening :: rest) = .mark opened :: lexemes rest)
    (ends : ∀ rest, endsNumeral (closing :: rest) = true)
    (cuts : ∀ rest, lexemes (closing :: rest) = .mark close :: lexemes rest)
    (parts : List (List Char)) (found : List (List Lexeme))
    (beside : List.Forall₂ Lexes parts found) :
    Lexes (bracketed spacing depth opening closing parts) (between opened close found) := by
  intro rest _
  cases beside with
  | nil =>
      change lexemes (opening :: closing :: rest) = _
      rw [opens, cuts]
      rfl
  | cons first others =>
      obtain ⟨stops, tail⟩ := lexemes_tail spacing depth closing close ends cuts _ _ others rest
      simp only [bracketed, between, List.cons_append, List.append_assoc, opens, lexemes_line,
        List.nil_append] at stops tail ⊢
      rw [first _ stops, tail]

mutual

theorem lexes_print (spacing : Spacing) (depth : Nat) (value : Value) :
    Lexes (print spacing depth value) (Literal.ofValue value).lexemes := by
  match value with
  | .null => exact fun rest _ => lexemes_of_first 'n' _ rest .null rfl rfl
  | .flag true => exact fun rest _ => lexemes_of_first 't' _ rest (.flag true) rfl rfl
  | .flag false => exact fun rest _ => lexemes_of_first 'f' _ rest (.flag false) rfl rfl
  | .number n => exact lexemes_numberText n
  | .text s => exact fun rest _ => lexemes_escaped s rest
  | .list items =>
      exact lexes_bracketed spacing depth '[' ']' .listOpen .listClose
        (fun rest => lexemes_of_first '[' rest rest .listOpen rfl rfl) (fun _ => rfl)
        (fun rest => lexemes_of_first ']' rest rest .listClose rfl rfl) _ _
        (lexes_printItems spacing (depth + 1) items)
  | .object members =>
      exact lexes_bracketed spacing depth '{' '}' .objectOpen .objectClose
        (fun rest => lexemes_of_first '{' rest rest .objectOpen rfl rfl) (fun _ => rfl)
        (fun rest => lexemes_of_first '}' rest rest .objectClose rfl rfl) _ _
        (lexes_printMembers spacing (depth + 1) members)

theorem lexes_printItems (spacing : Spacing) (depth : Nat) (items : List Value) :
    List.Forall₂ Lexes (printItems spacing depth items)
      (Literal.itemLexemes (Literal.ofItems items)) := by
  match items with
  | [] => exact List.Forall₂.nil
  | value :: rest =>
      exact List.Forall₂.cons (lexes_print spacing depth value)
        (lexes_printItems spacing depth rest)

theorem lexes_printMembers (spacing : Spacing) (depth : Nat) (members : List (String × Value)) :
    List.Forall₂ Lexes (printMembers spacing depth members)
      (Literal.memberLexemes (Literal.ofMembers members)) := by
  match members with
  | [] => exact List.Forall₂.nil
  | (name, value) :: rest =>
      refine List.Forall₂.cons (fun after ends => ?_) (lexes_printMembers spacing depth rest)
      have read := lexes_print spacing depth value after ends
      have colon : lexemes (spacing.afterColon ++ (print spacing depth value ++ after)) =
          .mark .colon :: lexemes (print spacing depth value ++ after) := by
        cases spacing with
        | compact => exact lexemes_of_first ':' _ _ .colon rfl rfl
        | pretty =>
            refine (lexemes_of_first ':' _ _ .colon rfl rfl).trans (congrArg _ ?_)
            exact lexemes_blanks [' '] _ (by simp [Token.isBlank])
      rw [List.append_assoc, List.append_assoc, lexemes_escaped, colon, read]
      rfl

end

theorem spells_print (spacing : Spacing) (value : Value) (after : List Char)
    (ends : endsNumeral after = true) (blank : lexemes after = []) :
    (Literal.ofValue value).Spells (String.ofList (print spacing 0 value ++ after)) := by
  rw [Literal.Spells, String.toList_ofList, lexes_print spacing 0 value after ends, blank,
    List.append_nil]

theorem spells_compact (value : Value) : (Literal.ofValue value).Spells (compact value) := by
  have printed := spells_print .compact value [] rfl (by rw [lexemes])
  rwa [List.append_nil] at printed

theorem spells_pretty (value : Value) : (Literal.ofValue value).Spells (pretty value) := by
  apply spells_print .pretty value ['\n'] rfl
  exact (lexemes_blanks ['\n'] [] (by simp [Token.isBlank])).trans (by rw [lexemes])

theorem ofText_compact (value : Value) :
    Parsed.ofText (compact value) = ⟨.ofValue rereadNumber value, false⟩ := by
  rw [(spells_compact value).ofText, Literal.tree_ofValue]

theorem ofText_pretty (value : Value) :
    Parsed.ofText (pretty value) = ⟨.ofValue rereadNumber value, false⟩ := by
  rw [(spells_pretty value).ofText, Literal.tree_ofValue]

mutual

theorem Tree.ofValue_of_floatFree (value : Value) (whole : value.floatFree = true) :
    Tree.ofValue rereadNumber value = Tree.ofValue .clean value := by
  match value with
  | .null | .flag b | .text s => rfl
  | .number (.whole w) => rw [Tree.ofValue, Tree.ofValue, rereadNumber_whole]
  | .list items => rw [Tree.ofValue, Tree.ofValue, Tree.ofItems_of_floatFree items whole]
  | .object members => rw [Tree.ofValue, Tree.ofValue, Tree.ofMembers_of_floatFree members whole]

theorem Tree.ofItems_of_floatFree (items : List Value) (whole : Value.itemsFloatFree items = true) :
    Tree.ofItems rereadNumber items = Tree.ofItems .clean items := by
  match items with
  | [] => rfl
  | value :: rest =>
      obtain ⟨first, later⟩ := Bool.and_eq_true_iff.mp whole
      rw [Tree.ofItems, Tree.ofItems, Tree.ofValue_of_floatFree value first,
        Tree.ofItems_of_floatFree rest later]

theorem Tree.ofMembers_of_floatFree (members : List (String × Value))
    (whole : Value.membersFloatFree members = true) :
    Tree.ofMembers rereadNumber members = Tree.ofMembers .clean members := by
  match members with
  | [] => rfl
  | (name, value) :: rest =>
      obtain ⟨first, later⟩ := Bool.and_eq_true_iff.mp whole
      rw [Tree.ofMembers, Tree.ofMembers, Tree.ofValue_of_floatFree value first,
        Tree.ofMembers_of_floatFree rest later]

end

theorem read_of_ofText {α : Type} (layout : Layout α) (text : String) (value : Value)
    (whole : value.floatFree = true)
    (parsed : Parsed.ofText text = ⟨.ofValue rereadNumber value, false⟩) :
    read layout text = layout.read (Place.mk deepest (.ofValue .clean value)) := by
  rw [read, parsed, Tree.ofValue_of_floatFree value whole, Parsed.read]
  simp only [Bool.false_eq_true, if_false, bind_pure]

/-- What is written as a text is read back from it, unless it is too deep. -/
theorem read_written {α : Type} (layout : Layout α) (wellFormed : layout.WellFormed) (a : α)
    (legible : layout.Legible true a) (whole : (layout.write a).floatFree = true) :
    read layout (pretty (layout.write a)) = limit.fit deepest (layout.write a).depth a ∧
      read layout (compact (layout.write a)) = limit.fit deepest (layout.write a).depth a := by
  have written := layout.read_written wellFormed faithful deepest _ a legible rfl
  exact ⟨(read_of_ofText layout _ _ whole (ofText_pretty _)).trans written,
    (read_of_ofText layout _ _ whole (ofText_compact _)).trans written⟩

end SwaggerLift.Json
