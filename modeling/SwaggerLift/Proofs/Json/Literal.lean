import SwaggerLift.Json.Tree
import SwaggerLift.Proofs.Json.Lexeme
/-!
The literal content of a JSON text: its tree, with the numerals as they are written. A text spells
one content at most, and builds the tree of that content; and every text whose tree is closed, as a
reader of lists and objects requires, spells some content.
-/

namespace SwaggerLift.Json

/-- What a text says, with its numerals as they are written and its quoted
    texts as they are read. -/
inductive Literal where
  | null
  | flag (b : Bool)
  | numeral (n : Numeral)
  | text (s : Reading String)
  | list (items : List Literal)
  | object (members : List (Reading String × Literal))

def between (opening closing : Token) : List (List Lexeme) → List Lexeme
  | [] => [.mark opening, .mark closing]
  | first :: rest =>
      .mark opening :: first ++ rest.flatMap (fun part => .mark .comma :: part) ++ [.mark closing]

namespace Literal

mutual

def lexemes : Literal → List Lexeme
  | null => [.mark .null]
  | flag b => [.mark (.flag b)]
  | numeral n => [.numeral n.reading n]
  | text s => [.mark (.text s)]
  | list items => between .listOpen .listClose (itemLexemes items)
  | object members => between .objectOpen .objectClose (memberLexemes members)

def itemLexemes : List Literal → List (List Lexeme)
  | [] => []
  | item :: rest => item.lexemes :: itemLexemes rest

def memberLexemes : List (Reading String × Literal) → List (List Lexeme)
  | [] => []
  | (name, item) :: rest =>
      (.mark (.text name) :: .mark .colon :: item.lexemes) :: memberLexemes rest

end

def Spells (s : Literal) (text : String) : Prop := Json.lexemes text.toList = s.lexemes

mutual

def tree : Literal → Tree
  | null => .null
  | flag b => .flag b
  | numeral n => .number n.reading
  | text s => .text s
  | list items => .list (itemTrees items) none
  | object members => .object (memberTrees members) none

def itemTrees : List Literal → List Tree
  | [] => []
  | item :: rest => item.tree :: itemTrees rest

def memberTrees : List (Reading String × Literal) → List (Key × Tree)
  | [] => []
  | (name, item) :: rest => (.text name, item.tree) :: memberTrees rest

end

def itemTail (items : List Literal) : List Lexeme :=
  (itemLexemes items).flatMap fun part => .mark .comma :: part

def memberTail (members : List (Reading String × Literal)) : List Lexeme :=
  (memberLexemes members).flatMap fun part => .mark .comma :: part

theorem itemTail_cons (item : Literal) (rest : List Literal) :
    itemTail (item :: rest) = .mark .comma :: (item.lexemes ++ itemTail rest) := rfl

theorem memberTail_cons (name : Reading String) (item : Literal)
    (rest : List (Reading String × Literal)) :
    memberTail ((name, item) :: rest) =
      .mark .comma :: .mark (.text name) :: .mark .colon :: (item.lexemes ++ memberTail rest) := rfl

theorem lexemes_list_cons (item : Literal) (rest : List Literal) (after : List Lexeme) :
    (list (item :: rest)).lexemes ++ after =
      .mark .listOpen :: (item.lexemes ++ (itemTail rest ++ .mark .listClose :: after)) := by
  simp [lexemes, itemLexemes, between, itemTail]

theorem lexemes_object_cons (name : Reading String) (item : Literal)
    (rest : List (Reading String × Literal)) (after : List Lexeme) :
    (object ((name, item) :: rest)).lexemes ++ after =
      .mark .objectOpen :: .mark (.text name) :: .mark .colon ::
        (item.lexemes ++ (memberTail rest ++ .mark .objectClose :: after)) := by
  simp [lexemes, memberLexemes, between, memberTail]

end Literal

def resume (tree : Tree) (stack : List Frame) (rest : List Token) : Parsed :=
  match stack with
  | [] => ⟨tree, !rest.isEmpty⟩
  | frame :: outer => build rest .separator (frame.add tree :: outer)

def Awaited.Starts (awaited : Awaited) : Prop := awaited = .value ∨ awaited = .item

/-- A token that can start a value does so wherever a value may start. -/
theorem build_begin (awaited : Awaited) (starts : awaited.Starts) (token : Token)
    (opens : token ≠ .listClose) (stack : List Frame) :
    awaited.move token stack = token.begin stack := by
  rcases starts with rfl | rfl
  · rfl
  · cases token with
    | listClose => exact absurd rfl opens
    | _ => rfl

theorem build_scalar (awaited : Awaited) (starts : awaited.Starts) (token : Token) (tree : Tree)
    (opens : token ≠ .listClose) (begins : ∀ stack, token.begin stack = .complete tree stack)
    (rest : List Token) (stack : List Frame) :
    build (token :: rest) awaited stack = resume tree stack rest := by
  rw [build, build_begin awaited starts token opens, begins]
  cases stack <;> rfl

abbrev buildLexemes (found : List Lexeme) : Awaited → List Frame → Parsed :=
  build (found.map Lexeme.token)

theorem build_listOpen (awaited : Awaited) (starts : awaited.Starts) (rest : List Lexeme)
    (stack : List Frame) :
    buildLexemes (.mark .listOpen :: rest) awaited stack =
      buildLexemes rest .item (.list [] :: stack) := by
  change build (.listOpen :: _) awaited stack = _
  rw [build, build_begin awaited starts .listOpen nofun]
  rfl

theorem build_objectOpen (awaited : Awaited) (starts : awaited.Starts) (rest : List Lexeme)
    (stack : List Frame) :
    buildLexemes (.mark .objectOpen :: rest) awaited stack =
      buildLexemes rest .firstKey (.object [] :: stack) := by
  change build (.objectOpen :: _) awaited stack = _
  rw [build, build_begin awaited starts .objectOpen nofun]
  rfl

mutual

theorem build_literal (s : Literal) (awaited : Awaited) (starts : awaited.Starts)
    (stack : List Frame) (rest : List Lexeme) :
    buildLexemes (s.lexemes ++ rest) awaited stack =
      resume s.tree stack (rest.map Lexeme.token) := by
  match s with
  | .null => exact build_scalar awaited starts .null .null nofun (fun _ => rfl) _ stack
  | .flag b => exact build_scalar awaited starts (.flag b) _ nofun (fun _ => rfl) _ stack
  | .numeral n =>
      exact build_scalar awaited starts (.number n.reading) _ nofun (fun _ => rfl) _ stack
  | .text s => exact build_scalar awaited starts (.text s) _ nofun (fun _ => rfl) _ stack
  | .list [] =>
      -- Only right behind its bracket may a list end where an item could start.
      change buildLexemes (.mark .listOpen :: .mark .listClose :: rest) awaited stack = _
      rw [build_listOpen awaited starts]
      cases stack <;> rfl
  | .list (first :: more) =>
      rw [Literal.lexemes_list_cons, build_listOpen awaited starts,
        build_literal first .item (Or.inr rfl) (.list [] :: stack)]
      exact build_itemTail more [first.tree] stack rest
  | .object [] =>
      change buildLexemes (.mark .objectOpen :: .mark .objectClose :: rest) awaited stack = _
      rw [build_objectOpen awaited starts]
      cases stack <;> rfl
  | .object ((name, first) :: more) =>
      rw [Literal.lexemes_object_cons, build_objectOpen awaited starts]
      change buildLexemes _ .value (.member [] (.text name) :: stack) = _
      rw [build_literal first .value (Or.inl rfl) (.member [] (.text name) :: stack)]
      exact build_memberTail more [(.text name, first.tree)] stack rest

theorem build_itemTail (items : List Literal) (before : List Tree) (stack : List Frame)
    (rest : List Lexeme) :
    buildLexemes (Literal.itemTail items ++ .mark .listClose :: rest) .separator
      (.list before :: stack) =
      resume (.list (before.reverse ++ Literal.itemTrees items) none) stack
        (rest.map Lexeme.token) := by
  match items with
  | [] =>
      rw [Literal.itemTrees, List.append_nil]
      cases stack <;> rfl
  | first :: more =>
      rw [Literal.itemTail_cons, List.cons_append, List.append_assoc]
      change buildLexemes _ .value (.list before :: stack) = _
      rw [build_literal first .value (Or.inl rfl) (.list before :: stack)]
      apply (build_itemTail more (first.tree :: before) stack rest).trans
      rw [List.reverse_cons, List.append_assoc]
      rfl

theorem build_memberTail (members : List (Reading String × Literal)) (before : List (Key × Tree))
    (stack : List Frame) (rest : List Lexeme) :
    buildLexemes (Literal.memberTail members ++ .mark .objectClose :: rest) .separator
      (.object before :: stack) =
        resume (.object (before.reverse ++ Literal.memberTrees members) none) stack
          (rest.map Lexeme.token) := by
  match members with
  | [] =>
      rw [Literal.memberTrees, List.append_nil]
      cases stack <;> rfl
  | (name, first) :: more =>
      rw [Literal.memberTail_cons, List.cons_append, List.cons_append, List.cons_append,
        List.append_assoc]
      change buildLexemes _ .value (.member before (.text name) :: stack) = _
      rw [build_literal first .value (Or.inl rfl) (.member before (.text name) :: stack)]
      apply (build_memberTail more ((.text name, first.tree) :: before) stack rest).trans
      rw [List.reverse_cons, List.append_assoc]
      rfl

end

def Tree.Closed : Tree → Prop
  | .list _ none | .object _ none => True
  | _ => False

theorem Frame.not_closed_close (frame : Frame) (cut : Cut) : ¬ (frame.close (some cut)).Closed := by
  cases frame <;> exact id

theorem not_closed_abandon (cut : Cut) (tree : Tree) (stack : List Frame) (broken : ¬ tree.Closed) :
    ¬ (abandon cut tree stack).Closed := by
  induction stack generalizing tree with
  | nil => exact broken
  | cons frame outer ih => exact ih _ ((frame.add tree).not_closed_close cut)

theorem Awaited.not_closed_stop (awaited : Awaited) (cut : Cut) (stack : List Frame) :
    ¬ (awaited.stop cut stack).Closed := by
  fun_cases Awaited.stop cut stack awaited
  all_goals
    first
    | exact id
    | exact not_closed_abandon cut _ _ id
    | exact not_closed_abandon cut _ _ (Frame.not_closed_close _ cut)

theorem Token.not_closed_begin (token : Token) (stack : List Frame) (tree : Tree)
    (stops : token.begin stack = .stop tree) : ¬ tree.Closed := by
  cases token <;> cases stops <;> exact not_closed_abandon _ _ _ id

theorem Awaited.not_closed_move (awaited : Awaited) (token : Token) (stack : List Frame)
    (tree : Tree) (stops : awaited.move token stack = .stop tree) : ¬ tree.Closed := by
  revert stops
  fun_cases Awaited.move awaited token stack with
  | case2 | case3 => exact token.not_closed_begin stack tree
  | case6 => rintro ⟨⟩; exact not_closed_abandon _ _ _ (by cases token <;> exact id)
  | case13 => rintro ⟨⟩; exact awaited.not_closed_stop .malformed stack
  | _ => nofun

/-- Where the tree is going to be closed, the next token does not stop the building. -/
theorem goes_on (lexeme : Lexeme) (rest : List Lexeme) (awaited : Awaited) (stack : List Frame)
    (closed : (buildLexemes (lexeme :: rest) awaited stack).tree.Closed) (tree : Tree) :
    awaited.move lexeme.token stack ≠ .stop tree := by
  intro stops
  rw [buildLexemes, List.map_cons, build, stops] at closed
  exact awaited.not_closed_move _ _ _ stops closed

theorem not_closed_nil (awaited : Awaited) (stack : List Frame) :
    ¬ (buildLexemes [] awaited stack).tree.Closed := awaited.not_closed_stop .ended stack

section

variable (found : List Lexeme) (before : List (Key × Tree)) (stack : List Frame)

theorem colon_of_closed (name : Reading String)
    (closed : (buildLexemes found (.colon name) (.object before :: stack)).tree.Closed) :
    ∃ rest, found = .mark .colon :: rest ∧
      (buildLexemes rest .value (.member before (.text name) :: stack)).tree.Closed := by
  cases found with
  | nil => exact absurd closed (not_closed_nil _ _)
  | cons lexeme rest =>
      have goes := goes_on lexeme rest _ _ closed
      cases lexeme with
      | numeral => exact absurd rfl (goes _)
      | mark token =>
          cases token with
          | colon => exact ⟨rest, rfl, closed⟩
          | _ => exact absurd rfl (goes _)

theorem key_of_closed (closed : (buildLexemes found .key (.object before :: stack)).tree.Closed) :
    ∃ name rest, found = .mark (.text name) :: .mark .colon :: rest ∧
      (buildLexemes rest .value (.member before (.text name) :: stack)).tree.Closed := by
  cases found with
  | nil => exact absurd closed (not_closed_nil _ _)
  | cons lexeme rest =>
      have goes := goes_on lexeme rest _ _ closed
      cases lexeme with
      | numeral => exact absurd rfl (goes _)
      | mark token =>
          cases token with
          | text name =>
              obtain ⟨behind, rfl, closed⟩ := colon_of_closed rest before stack name closed
              exact ⟨name, behind, rfl, closed⟩
          | _ => exact absurd rfl (goes _)

theorem firstKey_of_closed
    (closed : (buildLexemes found .firstKey (.object [] :: stack)).tree.Closed) :
    (∃ rest, found = .mark .objectClose :: rest) ∨
      ∃ name rest, found = .mark (.text name) :: .mark .colon :: rest ∧
        (buildLexemes rest .value (.member [] (.text name) :: stack)).tree.Closed := by
  cases found with
  | nil => exact absurd closed (not_closed_nil _ _)
  | cons lexeme rest =>
      have goes := goes_on lexeme rest _ _ closed
      cases lexeme with
      | numeral => exact absurd rfl (goes _)
      | mark token =>
          cases token with
          | objectClose => exact Or.inl ⟨rest, rfl⟩
          | text name =>
              obtain ⟨behind, rfl, closed⟩ := colon_of_closed rest [] stack name closed
              exact Or.inr ⟨name, behind, rfl, closed⟩
          | _ => exact absurd rfl (goes _)

theorem member_of_closed
    (closed : (buildLexemes found .separator (.object before :: stack)).tree.Closed) :
    (∃ rest, found = .mark .objectClose :: rest) ∨
      ∃ name rest, found = .mark .comma :: .mark (.text name) :: .mark .colon :: rest ∧
        (buildLexemes rest .value (.member before (.text name) :: stack)).tree.Closed := by
  cases found with
  | nil => exact absurd closed (not_closed_nil _ _)
  | cons lexeme rest =>
      have goes := goes_on lexeme rest _ _ closed
      cases lexeme with
      | numeral => exact absurd rfl (goes _)
      | mark token =>
          cases token with
          | objectClose => exact Or.inl ⟨rest, rfl⟩
          | comma =>
              obtain ⟨name, behind, rfl, closed⟩ := key_of_closed rest before stack closed
              exact Or.inr ⟨name, behind, rfl, closed⟩
          | _ => exact absurd rfl (goes _)

theorem item_of_closed (before : List Tree)
    (closed : (buildLexemes found .separator (.list before :: stack)).tree.Closed) :
    (∃ rest, found = .mark .listClose :: rest) ∨
      ∃ rest, found = .mark .comma :: rest ∧
        (buildLexemes rest .value (.list before :: stack)).tree.Closed := by
  cases found with
  | nil => exact absurd closed (not_closed_nil _ _)
  | cons lexeme rest =>
      have goes := goes_on lexeme rest _ _ closed
      cases lexeme with
      | numeral => exact absurd rfl (goes _)
      | mark token =>
          cases token with
          | listClose => exact Or.inl ⟨rest, rfl⟩
          | comma => exact Or.inr ⟨rest, rfl, closed⟩
          | _ => exact absurd rfl (goes _)

end

/-! A closed tree has been built from the lexemes of a content: values are taken off the front one
after the other, and what is left is shorter each time. -/

mutual

theorem exists_literal (found : List Lexeme) (faultless : Faultless found) (awaited : Awaited)
    (starts : awaited.Starts) (opens : awaited = .item → found.head? ≠ some (.mark .listClose))
    (stack : List Frame) (closed : (buildLexemes found awaited stack).tree.Closed) :
    ∃ s : Literal, ∃ rest, found = s.lexemes ++ rest := by
  match found with
  | [] => exact absurd closed (not_closed_nil awaited stack)
  | .numeral reading numeral :: rest =>
      rcases faultless.1 with rfl | rfl
      · exact ⟨.numeral numeral, rest, rfl⟩
      · -- Nothing is left to close what is open, and a number alone is not closed either.
        have built :
            buildLexemes [.numeral reading numeral] awaited stack =
              resume (.number reading) stack [] :=
          build_scalar awaited starts (.number reading) _ nofun (fun _ => rfl) [] stack
        rw [built] at closed
        cases stack with
        | nil => exact closed.elim
        | cons frame outer => exact absurd closed (not_closed_nil .separator _)
  | .mark token :: rest =>
      have goes := goes_on _ rest awaited stack closed
      cases token with
      | null => exact ⟨.null, rest, rfl⟩
      | flag b => exact ⟨.flag b, rest, rfl⟩
      | text s => exact ⟨.text s, rest, rfl⟩
      | number reading => exact absurd rfl (faultless.1 reading)
      | listOpen =>
          rw [build_listOpen awaited starts] at closed
          by_cases ends : rest.head? = some (.mark .listClose)
          · obtain ⟨more, rfl⟩ := List.head?_eq_some_iff.mp ends
            exact ⟨.list [], more, rfl⟩
          · obtain ⟨first, behind, split⟩ :=
              exists_literal rest faultless.2 .item (Or.inr rfl) (fun _ => ends)
                (.list [] :: stack) closed
            have shorter := congrArg List.length split
            rw [split, build_literal first .item (Or.inr rfl)] at closed
            obtain ⟨items, after, ended⟩ :=
              exists_itemTail behind (.of_append _ _ (split ▸ faultless.2))
                [first.tree] stack closed
            refine ⟨.list (first :: items), after, ?_⟩
            rw [Literal.lexemes_list_cons, split, ended]
      | objectOpen =>
          rw [build_objectOpen awaited starts] at closed
          rcases firstKey_of_closed rest stack closed with
            ⟨more, rfl⟩ | ⟨name, value, begins, closed⟩
          · exact ⟨.object [], more, rfl⟩
          · have sound : Faultless value := .of_append [_, _] value (begins ▸ faultless.2)
            have shortened := congrArg List.length begins
            obtain ⟨first, behind, split⟩ :=
              exists_literal value sound .value (Or.inl rfl) nofun _ closed
            have shorter := congrArg List.length split
            rw [split, build_literal first .value (Or.inl rfl)] at closed
            obtain ⟨members, after, ended⟩ :=
              exists_memberTail behind (.of_append _ _ (split ▸ sound))
                [(.text name, first.tree)] stack closed
            refine ⟨.object ((name, first) :: members), after, ?_⟩
            rw [Literal.lexemes_object_cons, begins, split, ended]
      -- No value begins with any of these tokens, so nothing would be closed behind them.
      | listClose =>
          rcases starts with rfl | rfl
          · exact absurd rfl (goes _)
          · exact absurd rfl (opens rfl)
      | objectClose => exact absurd (build_begin awaited starts .objectClose nofun stack) (goes _)
      | comma => exact absurd (build_begin awaited starts .comma nofun stack) (goes _)
      | colon => exact absurd (build_begin awaited starts .colon nofun stack) (goes _)
      | broken cut => exact absurd (build_begin awaited starts (.broken cut) nofun stack) (goes _)
termination_by found.length
decreasing_by all_goals (simp only [List.length_cons, List.length_append] at *; omega)

theorem exists_itemTail (found : List Lexeme) (faultless : Faultless found) (before : List Tree)
    (stack : List Frame)
    (closed : (buildLexemes found .separator (.list before :: stack)).tree.Closed) :
    ∃ items rest, found = Literal.itemTail items ++ .mark .listClose :: rest := by
  rcases item_of_closed found stack before closed with ⟨rest, rfl⟩ | ⟨value, begins, closed⟩
  · exact ⟨[], rest, rfl⟩
  · have sound : Faultless value := .of_append [_] value (begins ▸ faultless)
    have shortened := congrArg List.length begins
    obtain ⟨item, behind, split⟩ := exists_literal value sound .value (Or.inl rfl) nofun _ closed
    have shorter := congrArg List.length split
    rw [split, build_literal item .value (Or.inl rfl)] at closed
    obtain ⟨items, after, ended⟩ := exists_itemTail behind (.of_append _ _ (split ▸ sound))
      (item.tree :: before) stack closed
    refine ⟨item :: items, after, ?_⟩
    rw [Literal.itemTail_cons, List.cons_append, List.append_assoc, begins, split, ended]
termination_by found.length
decreasing_by all_goals (simp only [List.length_cons, List.length_append] at *; omega)

theorem exists_memberTail (found : List Lexeme) (faultless : Faultless found)
    (before : List (Key × Tree)) (stack : List Frame)
    (closed : (buildLexemes found .separator (.object before :: stack)).tree.Closed) :
    ∃ members rest, found = Literal.memberTail members ++ .mark .objectClose :: rest := by
  rcases member_of_closed found before stack closed with ⟨rest, rfl⟩ | ⟨name, value, begins, closed⟩
  · exact ⟨[], rest, rfl⟩
  · have sound : Faultless value := .of_append [_, _, _] value (begins ▸ faultless)
    have shortened := congrArg List.length begins
    obtain ⟨item, behind, split⟩ := exists_literal value sound .value (Or.inl rfl) nofun _ closed
    have shorter := congrArg List.length split
    rw [split, build_literal item .value (Or.inl rfl)] at closed
    obtain ⟨members, after, ended⟩ := exists_memberTail behind (.of_append _ _ (split ▸ sound))
      ((.text name, item.tree) :: before) stack closed
    refine ⟨(name, item) :: members, after, ?_⟩
    rw [Literal.memberTail_cons, begins, split, ended]
    simp
termination_by found.length
decreasing_by all_goals (simp only [List.length_cons, List.length_append] at *; omega)

end

namespace Literal

def lead : Literal → Lexeme
  | null => .mark .null
  | flag b => .mark (.flag b)
  | numeral n => .numeral n.reading n
  | text s => .mark (.text s)
  | list _ => .mark .listOpen
  | object _ => .mark .objectOpen

theorem head?_lexemes (s : Literal) (rest : List Lexeme) :
    (s.lexemes ++ rest).head? = some s.lead := by
  match s with
  | null | flag _ | numeral _ | text _ | list [] | list (_ :: _) | object [] | object (_ :: _) =>
      rfl

theorem lead_ne_listClose (s : Literal) : s.lead ≠ .mark .listClose := by
  intro same
  cases s with
  | numeral n => injection same
  | _ => injection same with token; cases token

mutual

/-- Where two rows of lexemes are the same, so are the values that they begin with. -/
theorem eq_of_lexemes (s t : Literal) (rest other : List Lexeme)
    (same : s.lexemes ++ rest = t.lexemes ++ other) : s = t ∧ rest = other := by
  -- The first lexeme tells of which kind both values are.
  have lead : s.lead = t.lead := by
    have heads := congrArg List.head? same
    rw [head?_lexemes, head?_lexemes] at heads
    exact Option.some.inj heads
  match s, t with
  | null, null => exact ⟨rfl, (List.cons.inj same).2⟩
  | flag b, flag c => cases lead; exact ⟨rfl, (List.cons.inj same).2⟩
  | numeral m, numeral n =>
      rw [(Lexeme.numeral.inj lead).2]
      exact ⟨rfl, (List.cons.inj same).2⟩
  | text a, text b => cases lead; exact ⟨rfl, (List.cons.inj same).2⟩
  | list [], list [] => exact ⟨rfl, (List.cons.inj (List.cons.inj same).2).2⟩
  -- One list ends where the other goes on, and no value begins with the end of a list.
  | list [], list (item :: items) =>
      rw [lexemes_list_cons] at same
      have heads := congrArg List.head? (List.cons.inj same).2
      rw [head?_lexemes] at heads
      exact absurd (Option.some.inj heads).symm item.lead_ne_listClose
  | list (item :: items), list [] =>
      rw [lexemes_list_cons] at same
      have heads := congrArg List.head? (List.cons.inj same).2
      rw [head?_lexemes] at heads
      exact absurd (Option.some.inj heads) item.lead_ne_listClose
  | list (first :: items), list (second :: others) =>
      rw [lexemes_list_cons, lexemes_list_cons] at same
      obtain ⟨rfl, behind⟩ := eq_of_lexemes first second _ _ (List.cons.inj same).2
      obtain ⟨rfl, ended⟩ := eq_of_itemTail items others rest other behind
      exact ⟨rfl, ended⟩
  | object [], object [] => exact ⟨rfl, (List.cons.inj (List.cons.inj same).2).2⟩
  | object [], object ((name, item) :: members) =>
      rw [lexemes_object_cons] at same
      injection (List.cons.inj (List.cons.inj same).2).1 with tokens
      cases tokens
  | object ((name, item) :: members), object [] =>
      rw [lexemes_object_cons] at same
      injection (List.cons.inj (List.cons.inj same).2).1 with tokens
      cases tokens
  | object ((name, first) :: members), object ((key, second) :: others) =>
      rw [lexemes_object_cons, lexemes_object_cons] at same
      obtain ⟨names, behind⟩ := List.cons.inj (List.cons.inj same).2
      obtain ⟨rfl, after⟩ := eq_of_lexemes first second _ _ (List.cons.inj behind).2
      obtain ⟨rfl, ended⟩ := eq_of_memberTail members others rest other after
      cases names
      exact ⟨rfl, ended⟩

theorem eq_of_itemTail (items others : List Literal) (rest other : List Lexeme)
    (same : itemTail items ++ .mark .listClose :: rest =
      itemTail others ++ .mark .listClose :: other) :
    items = others ∧ rest = other := by
  match items, others with
  | [], [] => exact ⟨rfl, (List.cons.inj same).2⟩
  | [], _ :: _ => injection (List.cons.inj same).1 with tokens; cases tokens
  | _ :: _, [] => injection (List.cons.inj same).1 with tokens; cases tokens
  | first :: items, second :: others =>
      rw [itemTail_cons, itemTail_cons, List.cons_append, List.cons_append, List.append_assoc,
        List.append_assoc] at same
      obtain ⟨rfl, behind⟩ := eq_of_lexemes first second _ _ (List.cons.inj same).2
      obtain ⟨rfl, ended⟩ := eq_of_itemTail items others rest other behind
      exact ⟨rfl, ended⟩

theorem eq_of_memberTail (members others : List (Reading String × Literal))
    (rest other : List Lexeme) (same : memberTail members ++ .mark .objectClose :: rest =
      memberTail others ++ .mark .objectClose :: other) : members = others ∧ rest = other := by
  match members, others with
  | [], [] => exact ⟨rfl, (List.cons.inj same).2⟩
  | [], (_, _) :: _ => injection (List.cons.inj same).1 with tokens; cases tokens
  | (_, _) :: _, [] => injection (List.cons.inj same).1 with tokens; cases tokens
  | (name, first) :: members, (key, second) :: others =>
      rw [memberTail_cons, memberTail_cons] at same
      simp only [List.cons_append, List.append_assoc] at same
      obtain ⟨names, behind⟩ := List.cons.inj (List.cons.inj same).2
      obtain ⟨rfl, after⟩ := eq_of_lexemes first second _ _ (List.cons.inj behind).2
      obtain ⟨rfl, ended⟩ := eq_of_memberTail members others rest other after
      cases names
      exact ⟨rfl, ended⟩

end

theorem Spells.unique {s t : Literal} {text : String} (first : s.Spells text)
    (second : t.Spells text) : s = t := by
  refine (eq_of_lexemes s t [] [] ?_).1
  rw [List.append_nil, List.append_nil, ← first, second]

theorem Spells.ofText {s : Literal} {text : String} (spells : s.Spells text) :
    Parsed.ofText text = ⟨s.tree, false⟩ := by
  rw [Parsed.ofText, ← map_token_lexemes, spells]
  have built := build_literal s .value (Or.inl rfl) [] []
  rwa [List.append_nil] at built

end Literal

/-- A text whose tree is closed, with nothing behind it, spells a content. -/
theorem Parsed.exists_spells (text : String) (closed : (ofText text).tree.Closed)
    (alone : (ofText text).trailing = false) : ∃ s : Literal, s.Spells text := by
  rw [ofText, ← map_token_lexemes] at closed alone
  obtain ⟨s, rest, split⟩ :=
    exists_literal (lexemes text.toList) (faultless_lexemes _) .value (Or.inl rfl) nofun [] closed
  rw [split] at alone
  have built := build_literal s .value (Or.inl rfl) [] rest
  rw [buildLexemes] at built
  rw [built] at alone
  cases rest with
  | nil => exact ⟨s, by rw [Literal.Spells, split, List.append_nil]⟩
  | cons lexeme rest => cases alone

end SwaggerLift.Json
