import Mathlib.Data.List.DropRight
import Mathlib.Data.List.TakeWhile
import SwaggerLift.Convert.Name
import SwaggerLift.Proofs.Text.Capital
/-!
Which part of a reference gives its schema name. Looking behind the last slash, and there behind the
last point, is looking behind the last separator of either kind; whatever stands before a separator
plays no part. A reference has a name exactly if something stands behind its last separator. A name
holds no separator and is its own name.
-/

namespace SwaggerLift

def isSeparator (c : Char) : Bool := c == '/' || c == '.'

/-- What stands behind the last separator: the longest end of the text that holds none. -/
def lastPart (text : List Char) : List Char := text.rtakeWhile fun c => !isSeparator c

theorem leaf_eq_lastPart (text : List Char) : leaf text = lastPart text := by
  have nested : leaf text = (text.rtakeWhile (· != '/')).rtakeWhile (· != '.') := rfl
  rw [nested, lastPart, List.rtakeWhile, List.rtakeWhile, List.rtakeWhile, List.reverse_reverse,
    List.takeWhile_takeWhile]
  congr 2
  funext c
  by_cases slash : c = '/' <;> by_cases point : c = '.' <;> simp [isSeparator, slash, point]

theorem lastPart_append (before after : List Char) (c : Char) (separator : isSeparator c = true) :
    lastPart (before ++ c :: after) = lastPart after := by
  induction after using List.reverseRecOn with
  | nil => simp [lastPart, separator]
  | append_singleton rest last ih =>
      rw [← List.cons_append, ← List.append_assoc, lastPart, List.rtakeWhile_concat, lastPart,
        List.rtakeWhile_concat]
      rw [lastPart, lastPart] at ih
      rw [ih]

theorem schemaName_eq_ok_iff (reference name : String) :
    schemaName reference = .ok name ↔
      ∃ first rest, lastPart reference.toList = first :: rest ∧
        name = String.ofList (Text.capital first ++ rest) := by
  rw [schemaName, leaf_eq_lastPart]
  cases lastPart reference.toList with
  | nil => simp
  | cons first rest => simp [eq_comm]

theorem schemaName_eq_error_iff (reference : String) (error : ConversionError) :
    schemaName reference = .error error ↔
      lastPart reference.toList = [] ∧ error = .emptyName reference := by
  rw [schemaName, leaf_eq_lastPart]
  cases lastPart reference.toList with
  | nil => simp [eq_comm]
  | cons first rest => simp

theorem exists_schemaName_iff (reference : String) :
    (∃ name, schemaName reference = .ok name) ↔ lastPart reference.toList ≠ [] := by
  rw [schemaName, leaf_eq_lastPart]
  cases lastPart reference.toList <;> simp

theorem schemaName_congr (reference other name : String)
    (same : lastPart reference.toList = lastPart other.toList) :
    schemaName reference = .ok name ↔ schemaName other = .ok name := by
  rw [schemaName_eq_ok_iff, schemaName_eq_ok_iff, same]

theorem schemaName_behind (before after name : String) (c : Char)
    (separator : isSeparator c = true) :
    schemaName (before.push c ++ after) = .ok name ↔ schemaName after = .ok name := by
  apply schemaName_congr
  have split : (before.push c ++ after).toList = before.toList ++ c :: after.toList := by simp
  rw [split, lastPart_append _ _ c separator]

def definitionsPath : String := "#/definitions/"

/-- A reference into the definitions has the name of the key that it names, whatever separators
    the key itself holds. -/
theorem schemaName_definition (key name : String) :
    schemaName (definitionsPath ++ key) = .ok name ↔ schemaName key = .ok name :=
  schemaName_behind "#/definitions" key name '/' rfl

theorem schemaName_schema (key name : String) :
    schemaName (schemasPath ++ key) = .ok name ↔ schemaName key = .ok name :=
  schemaName_behind "#/components/schemas" key name '/' rfl

structure WellNamed (name : String) : Prop where
  filled : name ≠ ""
  whole : ∀ c ∈ name.toList, isSeparator c = false
  settled : schemaName name = .ok name

theorem separator_free_of_mem_lastPart (text : List Char) (c : Char) (member : c ∈ lastPart text) :
    isSeparator c = false := by
  have kept := List.mem_rtakeWhile_imp member
  simpa using kept

theorem lastPart_eq_self (text : List Char) (free : ∀ c ∈ text, isSeparator c = false) :
    lastPart text = text := by
  rw [lastPart, List.rtakeWhile_eq_self_iff]
  intro c member
  simp [free c member]

theorem separator_free_of_mem_capital (c d : Char) (free : isSeparator c = false)
    (member : d ∈ Text.capital c) : isSeparator d = false := by
  rcases Text.le_of_mem_capital c d member with rfl | behind
  · exact free
  · -- Both separators stand before the letter A.
    have apart : d ≠ '/' ∧ d ≠ '.' := by
      constructor <;> rintro rfl <;> exact absurd behind (by decide)
    simp [isSeparator, apart]

theorem wellNamed_of_schemaName (reference name : String)
    (named : schemaName reference = .ok name) : WellNamed name := by
  obtain ⟨first, rest, last, rfl⟩ := (schemaName_eq_ok_iff reference name).mp named
  obtain ⟨capital, more, form, fixed⟩ := Text.capital_eq_cons first
  have free : ∀ c ∈ Text.capital first ++ rest, isSeparator c = false := by
    intro c member
    have part := separator_free_of_mem_lastPart reference.toList
    rw [last, List.forall_mem_cons] at part
    rcases List.mem_append.mp member with inside | behind
    · exact separator_free_of_mem_capital first c part.1 inside
    · exact part.2 c behind
  refine ⟨?filled, ?whole, ?settled⟩
  case filled => simp [form]
  case whole => simpa using free
  case settled =>
    rw [schemaName_eq_ok_iff]
    refine ⟨capital, more ++ rest, ?_, ?_⟩
    · rw [String.toList_ofList, lastPart_eq_self _ free, form, List.cons_append]
    · rw [fixed, form, List.cons_append, List.singleton_append]

/-- An end of a text that holds no separator, and no end without separators is longer. -/
structure LongestEnd (part text : List Char) : Prop where
  ends : part <:+ text
  free : ∀ c ∈ part, c ≠ '/' ∧ c ≠ '.'
  longest : ∀ other, other <:+ text → (∀ c ∈ other, c ≠ '/' ∧ c ≠ '.') → other.length ≤ part.length

theorem isSeparator_eq_false_iff (c : Char) : isSeparator c = false ↔ c ≠ '/' ∧ c ≠ '.' := by
  simp [isSeparator]

theorem lastPart_append_of_free (before part : List Char)
    (free : ∀ c ∈ part, isSeparator c = false) :
    lastPart (before ++ part) = lastPart before ++ part := by
  have reversed : ∀ c ∈ part.reverse, (!isSeparator c) = true := by
    intro c member
    rw [free c (List.mem_reverse.mp member), Bool.not_false]
  rw [lastPart, List.rtakeWhile, List.reverse_append, List.takeWhile_append_of_pos reversed,
    List.reverse_append, List.reverse_reverse]
  rfl

theorem longestEnd_lastPart (text : List Char) : LongestEnd (lastPart text) text where
  ends := List.rtakeWhile_suffix _ text
  free c member := (isSeparator_eq_false_iff c).mp (separator_free_of_mem_lastPart text c member)
  longest other ends free := by
    obtain ⟨before, rfl⟩ := ends
    rw [lastPart_append_of_free before other fun c member =>
      (isSeparator_eq_false_iff c).mpr (free c member), List.length_append]
    exact Nat.le_add_left _ _

theorem longestEnd_iff (part text : List Char) : LongestEnd part text ↔ part = lastPart text := by
  constructor
  · intro held
    have whole := longestEnd_lastPart text
    -- Of two ends of one text the shorter is an end of the longer, and neither of these is shorter.
    have shorter := held.longest _ whole.ends whole.free
    have longer := whole.longest _ held.ends held.free
    exact (List.suffix_of_suffix_length_le held.ends whole.ends longer).eq_of_length
      (Nat.le_antisymm longer shorter)
  · rintro rfl
    exact longestEnd_lastPart text

/-- The name of a reference is made from its longest end without separators. Without that end
    there is no name; whatever stands before a separator plays no part; and no name holds a
    separator or is empty. -/
theorem schemaName_longestEnd (reference : String) :
    ∃ part, (∀ other, LongestEnd other reference.toList ↔ other = part) ∧
      (∀ error, schemaName reference = .error error ↔ part = [] ∧ error = .emptyName reference) ∧
      (∀ name, schemaName reference = .ok name ↔
        ∃ first rest, part = first :: rest ∧ name = String.ofList (Text.capital first ++ rest)) ∧
      (∀ before separator name, separator = '/' ∨ separator = '.' →
        (schemaName (before ++ String.singleton separator ++ reference) = .ok name ↔
          schemaName reference = .ok name)) ∧
      ∀ name, schemaName reference = .ok name → name ≠ "" ∧ ∀ c ∈ name.toList, c ≠ '/' ∧
        c ≠ '.' := by
  refine ⟨lastPart reference.toList, fun other => longestEnd_iff other _,
    schemaName_eq_error_iff reference, schemaName_eq_ok_iff reference, ?behind, ?named⟩
  case behind =>
    intro before separator name kind
    have parts : isSeparator separator = true := by
      rcases kind with rfl | rfl <;> rfl
    have pushed : before ++ String.singleton separator = before.push separator := by
      rw [← String.toList_inj]
      simp
    rw [pushed]
    exact schemaName_behind before reference name separator parts
  case named =>
    intro name named
    have whole := wellNamed_of_schemaName reference name named
    exact ⟨whole.filled, fun c member => (isSeparator_eq_false_iff c).mp (whole.whole c member)⟩

example : schemaName "v1.0/models/user" = .ok "User" := rfl

example : schemaName "a/b." = .error (.emptyName "a/b.") := rfl

/-- A name is the name of itself and of the reference that is written for it, and that reference
    is written for itself. -/
theorem schemaReference_idempotent (reference name : String)
    (named : schemaName reference = .ok name) :
    schemaName name = .ok name ∧
      ∃ full, schemaReference reference = .ok full ∧ schemaName full = .ok name ∧
        schemaReference full = .ok full := by
  have itself : schemaName name = .ok name := (wellNamed_of_schemaName reference name named).settled
  have behind : schemaName (schemasPath ++ name) = .ok name :=
    (schemaName_schema name name).mpr itself
  refine ⟨itself, schemasPath ++ name, ?_, behind, ?_⟩
  · rw [schemaReference, named]
    rfl
  · rw [schemaReference, behind]
    rfl

/-- The capital form of a ligature has three characters. -/
theorem schemaReference_idempotent_ligature :
    schemaName "#/definitions/v1.ﬃx" = .ok "FFIx" ∧ schemaName "FFIx" = .ok "FFIx" ∧
      ∃ full, schemaReference "#/definitions/v1.ﬃx" = .ok full ∧ schemaName full = .ok "FFIx" ∧
        schemaReference full = .ok full :=
  ⟨rfl, schemaReference_idempotent _ _ rfl⟩

end SwaggerLift
