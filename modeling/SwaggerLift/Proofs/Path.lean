import Mathlib.Data.List.TakeWhile
import SwaggerLift.Path
/-!
The parts of paths. The directory of a path has the parts of the path without the last one, and the
row of directories up to a path goes through the beginnings of its parts; all of them start where
the path starts.
-/

namespace SwaggerLift.Path

def isPart (part : List Char) : Bool := !part.isEmpty && part != ['.']

def partsOf (text : List Char) : List (List Char) := (parts.split text).filter isPart

theorem parts_eq (path : String) : parts path = partsOf path.toList := rfl

theorem split_ne_nil (text : List Char) : parts.split text ≠ [] := by
  cases text with
  | nil => simp [parts.split]
  | cons c rest =>
      rw [parts.split]
      split
      · simp
      · split <;> simp

theorem split_append (before after : List Char) :
    parts.split (before ++ '/' :: after) = parts.split before ++ parts.split after := by
  induction before with
  | nil => simp [parts.split]
  | cons c rest ih =>
      by_cases slash : c = '/'
      · simp [parts.split, slash, ih]
      · cases pieces : parts.split rest with
        | nil => exact absurd pieces (split_ne_nil rest)
        | cons part others => simp [parts.split, slash, ih, pieces]

theorem split_of_free (part : List Char) (free : '/' ∉ part) : parts.split part = [part] := by
  induction part with
  | nil => rfl
  | cons c rest ih =>
      rw [List.mem_cons, not_or] at free
      rw [parts.split, if_neg (Ne.symm free.1), ih free.2]

theorem free_of_mem_split (text part : List Char) (member : part ∈ parts.split text) :
    '/' ∉ part := by
  induction text generalizing part with
  | nil =>
      rw [List.mem_singleton.mp member]
      exact List.not_mem_nil
  | cons c rest ih =>
      by_cases slash : c = '/'
      · rw [parts.split, if_pos slash] at member
        rcases List.mem_cons.mp member with rfl | later
        · exact List.not_mem_nil
        · exact ih part later
      · cases pieces : parts.split rest with
        | nil => exact absurd pieces (split_ne_nil rest)
        | cons first others =>
            rw [pieces] at ih
            simp only [parts.split, if_neg slash, pieces] at member
            rcases List.mem_cons.mp member with rfl | later
            · rw [List.mem_cons, not_or]
              exact ⟨Ne.symm slash, ih first List.mem_cons_self⟩
            · exact ih part (List.mem_cons_of_mem _ later)

theorem subset_of_mem_split (text part : List Char) (member : part ∈ parts.split text) :
    part ⊆ text := by
  induction text generalizing part with
  | nil =>
      rw [List.mem_singleton.mp member]
      exact List.nil_subset []
  | cons c rest ih =>
      by_cases slash : c = '/'
      · rw [parts.split, if_pos slash] at member
        rcases List.mem_cons.mp member with rfl | later
        · exact List.nil_subset _
        · exact List.subset_cons_of_subset c (ih part later)
      · cases pieces : parts.split rest with
        | nil => exact absurd pieces (split_ne_nil rest)
        | cons first others =>
            rw [pieces] at ih
            simp only [parts.split, if_neg slash, pieces] at member
            rcases List.mem_cons.mp member with rfl | later
            · exact List.cons_subset_cons c (ih first List.mem_cons_self)
            · exact List.subset_cons_of_subset c (ih part (List.mem_cons_of_mem _ later))

theorem partsOf_append (before after : List Char) :
    partsOf (before ++ '/' :: after) = partsOf before ++ partsOf after := by
  rw [partsOf, split_append, List.filter_append]
  rfl

@[simp] theorem partsOf_nil : partsOf [] = [] := rfl

theorem partsOf_of_free (part : List Char) (free : '/' ∉ part) (counts : isPart part = true) :
    partsOf part = [part] := by
  rw [partsOf, split_of_free part free, List.filter_cons_of_pos counts, List.filter_nil]

theorem mem_partsOf (text part : List Char) (member : part ∈ partsOf text) :
    '/' ∉ part ∧ isPart part = true := by
  obtain ⟨stands, counts⟩ := List.mem_filter.mp member
  exact ⟨free_of_mem_split text part stands, counts⟩

theorem subset_of_mem_parts (path : String) (part : List Char) (member : part ∈ parts path) :
    part ⊆ path.toList :=
  subset_of_mem_split path.toList part (List.mem_filter.mp member).1

theorem exists_split_at_last (text : List Char) :
    ∃ last, '/' ∉ last ∧ (text = last ∨ ∃ before, text = before ++ '/' :: last) := by
  induction text with
  | nil => exact ⟨[], List.not_mem_nil, Or.inl rfl⟩
  | cons c rest ih =>
      obtain ⟨last, free, rfl | ⟨before, rfl⟩⟩ := ih
      · by_cases slash : c = '/'
        · exact ⟨rest, free, Or.inr ⟨[], by rw [slash]; rfl⟩⟩
        · refine ⟨c :: rest, ?_, Or.inl rfl⟩
          rw [List.mem_cons, not_or]
          exact ⟨Ne.symm slash, free⟩
      · exact ⟨last, free, Or.inr ⟨c :: before, rfl⟩⟩

theorem ends_of_partsOf_nil (text : List Char) (none : partsOf text = []) :
    text = [] ∨ text = ['.'] ∨ ∃ before, text = before ++ ['/'] ∨ text = before ++ ['/', '.'] := by
  obtain ⟨last, free, shape⟩ := exists_split_at_last text
  have counts : isPart last = false := by
    rw [← Bool.not_eq_true]
    intro counts
    have alone := partsOf_of_free last free counts
    rcases shape with rfl | ⟨before, rfl⟩
    · rw [alone] at none
      cases none
    · rw [partsOf_append, alone, List.append_eq_nil_iff] at none
      cases none.2
  have ends : last = [] ∨ last = ['.'] := by
    cases last with
    | nil => exact Or.inl rfl
    | cons c others => exact Or.inr (by simpa [isPart] using counts)
  rcases ends with rfl | rfl <;> rcases shape with rfl | ⟨before, rfl⟩
  · exact Or.inl rfl
  · exact Or.inr (Or.inr ⟨before, Or.inl rfl⟩)
  · exact Or.inr (Or.inl rfl)
  · exact Or.inr (Or.inr ⟨before, Or.inr rfl⟩)

theorem partsOf_intercalate (pieces : List (List Char))
    (each : ∀ part ∈ pieces, '/' ∉ part ∧ isPart part = true) :
    partsOf (['/'].intercalate pieces) = pieces := by
  induction pieces with
  | nil => rfl
  | cons part rest ih =>
      obtain ⟨⟨free, counts⟩, later⟩ := List.forall_mem_cons.mp each
      cases rest with
      | nil => rw [List.intercalate_singleton, partsOf_of_free part free counts]
      | cons next others =>
          rw [List.intercalate_cons_cons, List.append_assoc, List.singleton_append, partsOf_append,
            partsOf_of_free part free counts, ih later, List.singleton_append]

theorem dropTrailing_of_other (reversed : List Char) (slash : ∀ rest, reversed ≠ '/' :: rest)
    (point : ∀ rest, reversed ≠ '.' :: '/' :: rest) : dropTrailing reversed = reversed :=
  dropTrailing.eq_3 reversed slash point

/-- Slashes at the end of a path, and points behind them, are no parts of it. -/
theorem partsOf_dropTrailing (reversed : List Char) :
    partsOf (dropTrailing reversed).reverse = partsOf reversed.reverse := by
  induction reversed using dropTrailing.induct with
  | case1 rest ih =>
      rw [dropTrailing, ih, List.reverse_cons, partsOf_append, partsOf_nil, List.append_nil]
  | case2 rest ih =>
      have point : partsOf ['.'] = [] := rfl
      rw [dropTrailing, ih, List.reverse_cons, List.reverse_cons, List.reverse_cons,
        List.append_assoc, List.singleton_append, partsOf_append, partsOf_append,
        point, partsOf_nil]
  | case3 rest slash point => rw [dropTrailing_of_other rest slash point]

theorem dropTrailing_suffix (reversed : List Char) : dropTrailing reversed <:+ reversed := by
  induction reversed using dropTrailing.induct with
  | case1 rest ih =>
      rw [dropTrailing]
      exact ih.trans (List.suffix_cons _ _)
  | case2 rest ih =>
      rw [dropTrailing]
      exact ih.trans (List.suffix_cons _ _)
  | case3 rest slash point => simp [dropTrailing_of_other rest slash point]

theorem dropTrailing_ne (reversed rest : List Char) :
    dropTrailing reversed ≠ '/' :: rest ∧ dropTrailing reversed ≠ '.' :: '/' :: rest := by
  induction reversed using dropTrailing.induct with
  | case1 _ ih => rwa [dropTrailing]
  | case2 _ ih => rwa [dropTrailing]
  | case3 reversed slash point =>
      rw [dropTrailing_of_other reversed slash point]
      exact ⟨slash rest, point rest⟩

/-- Only a path that starts with a slash is dropped as a whole. -/
theorem getLast?_of_dropTrailing (reversed : List Char) (filled : reversed ≠ [])
    (dropped : dropTrailing reversed = []) : reversed.getLast? = some '/' := by
  induction reversed using dropTrailing.induct with
  | case1 rest ih =>
      rw [dropTrailing] at dropped
      cases rest with
      | nil => rfl
      | cons c others =>
          rw [List.getLast?_cons_cons]
          exact ih (List.cons_ne_nil c others) dropped
  | case2 rest ih =>
      rw [dropTrailing] at dropped
      rw [List.getLast?_cons_cons]
      exact ih (List.cons_ne_nil '/' rest) dropped
  | case3 rest slash point =>
      rw [dropTrailing_of_other rest slash point] at dropped
      exact absurd dropped filled

theorem parent?_eq_some (path directory : String) (found : parent? path = some directory) :
    ∃ last above, dropTrailing path.toList.reverse = last ++ '/' :: above ∧ '/' ∉ last ∧
      ((dropTrailing ('/' :: above) ≠ [] ∧
        directory.toList = (dropTrailing ('/' :: above)).reverse) ∨
        (dropTrailing ('/' :: above) = [] ∧ directory = "/")) := by
  rw [parent?] at found
  generalize dropTrailing path.toList.reverse = name at found
  have parted := List.takeWhile_append_dropWhile (p := (· != '/')) (l := name)
  have free : '/' ∉ name.takeWhile (· != '/') := by
    intro member
    have other := List.mem_takeWhile_imp member
    simp at other
  cases above : name.dropWhile (· != '/') with
  | nil => simp [above, dropTrailing] at found
  | cons c rest =>
      have slash : c = '/' := by
        have first := List.head?_dropWhile_not (· != '/') name
        simpa [above] using first
      subst slash
      refine ⟨name.takeWhile (· != '/'), rest, by rw [← above, parted], free, ?_⟩
      by_cases kept : dropTrailing ('/' :: rest) = []
      · simp [above, kept] at found
        exact Or.inr ⟨kept, found.2.symm⟩
      · simp [above, kept] at found
        exact Or.inl ⟨kept, by rw [← found, String.toList_ofList]⟩

theorem parts_of_parent? (path directory : String) (found : parent? path = some directory) :
    ∃ part, parts path = parts directory ++ [part] := by
  obtain ⟨last, above, name, free, kept⟩ := parent?_eq_some path directory found
  have counts : isPart last.reverse = true := by
    have ends := dropTrailing_ne path.toList.reverse above
    rw [name] at ends
    have filled : last ≠ [] := by
      rintro rfl
      exact ends.1 rfl
    have point : last.reverse ≠ ['.'] := by
      intro same
      rw [List.reverse_eq_iff] at same
      rw [same] at ends
      exact ends.2 rfl
    simp [isPart, filled, point]
  have whole : parts path = partsOf above.reverse ++ [last.reverse] := by
    rw [parts_eq, ← List.reverse_reverse path.toList, ← partsOf_dropTrailing, name,
      List.reverse_append, List.reverse_cons, List.append_assoc, List.singleton_append,
      partsOf_append, partsOf_of_free last.reverse (by simpa using free) counts]
  have before : partsOf (dropTrailing ('/' :: above)).reverse = partsOf above.reverse := by
    rw [partsOf_dropTrailing, List.reverse_cons, partsOf_append, partsOf_nil, List.append_nil]
  refine ⟨last.reverse, ?_⟩
  rw [whole, ← before, parts_eq directory]
  rcases kept with ⟨_, same⟩ | ⟨nothing, rfl⟩
  · rw [same]
  · rw [nothing]
    rfl

theorem parts_of_parent?_none (path : String) (none : parent? path = none) :
    parts path = [] ∨ ∃ part, parts path = [part] := by
  rw [parts_eq, ← List.reverse_reverse path.toList, ← partsOf_dropTrailing]
  rw [parent?] at none
  generalize dropTrailing path.toList.reverse = name at none
  have free : '/' ∉ name := by
    cases above : name.dropWhile (· != '/') with
    | nil =>
        have other : ∀ c ∈ name, c ≠ '/' := by simpa using above
        exact fun member => other '/' member rfl
    | cons c rest =>
        have filled : name ≠ [] := by
          rintro rfl
          cases above
        simp only [above, List.isEmpty_eq_false_iff.mpr filled, List.isEmpty_cons, Bool.not_false,
          Bool.and_self, if_true] at none
        split at none <;> cases none
  by_cases counts : isPart name.reverse = true
  · exact Or.inr ⟨_, partsOf_of_free name.reverse (by simpa using free) counts⟩
  · rw [partsOf, split_of_free name.reverse (by simpa using free), List.filter_cons_of_neg counts]
    exact Or.inl rfl

theorem head?_of_prefix (first whole : List Char) (start : first <+: whole) (filled : first ≠ []) :
    first.head? = whole.head? := by
  obtain ⟨rest, rfl⟩ := start
  cases first with
  | nil => exact absurd rfl filled
  | cons c others => rfl

theorem head?_of_parent? (path directory : String) (found : parent? path = some directory) :
    directory.toList.head? = path.toList.head? := by
  obtain ⟨last, above, name, _, kept⟩ := parent?_eq_some path directory found
  have ends : '/' :: above <:+ path.toList.reverse :=
    (name ▸ List.suffix_append last ('/' :: above)).trans (dropTrailing_suffix _)
  rcases kept with ⟨filled, same⟩ | ⟨nothing, rfl⟩
  · have start := (dropTrailing_suffix ('/' :: above)).trans ends
    rw [same]
    apply head?_of_prefix
    · rwa [← List.reverse_suffix, List.reverse_reverse]
    · simpa using filled
  · have slash := getLast?_of_dropTrailing _ (List.cons_ne_nil _ _) nothing
    have start := head?_of_prefix ('/' :: above).reverse path.toList
      (by rwa [← List.reverse_suffix, List.reverse_reverse]) (by simp)
    rw [← start, List.head?_reverse, slash]
    rfl

theorem toList_intercalate_parts (pieces : List (List Char)) :
    ("/".intercalate (pieces.map String.ofList)).toList = ['/'].intercalate pieces := by
  rw [String.toList_intercalate, List.map_map]
  congr 1
  exact List.map_id'' (fun part => String.toList_ofList) pieces

theorem head?_intercalate (pieces : List (List Char))
    (each : ∀ part ∈ pieces, '/' ∉ part ∧ isPart part = true) :
    (['/'].intercalate pieces).head? ≠ some '/' := by
  match pieces with
  | [] => simp
  | [] :: _ => simp [isPart] at each
  | (c :: rest) :: others =>
      obtain ⟨free, _⟩ := each (c :: rest) List.mem_cons_self
      have other : c ≠ '/' := by
        rintro rfl
        exact free List.mem_cons_self
      cases others <;> simpa [List.intercalate_cons_cons] using other

def joined (lead : String) (pieces : List (List Char)) : String :=
  lead ++ "/".intercalate (pieces.map String.ofList)

theorem rowOf_cons (lead : String) (part : List Char) (above : List (List Char)) :
    rowOf lead (part :: above) = joined lead (above.reverse ++ [part]) :: rowOf lead above := by
  rw [rowOf, joined, List.reverse_cons]

theorem toList_joined (lead : String) (pieces : List (List Char)) :
    (joined lead pieces).toList = lead.toList ++ ['/'].intercalate pieces := by
  rw [joined, String.toList_append, toList_intercalate_parts]

theorem parts_joined (lead : String) (leads : lead = "/" ∨ lead = "") (pieces : List (List Char))
    (each : ∀ part ∈ pieces, '/' ∉ part ∧ isPart part = true) :
    parts (joined lead pieces) = pieces := by
  have whole := partsOf_intercalate pieces each
  rw [parts_eq, toList_joined]
  rcases leads with rfl | rfl
  · exact (partsOf_append [] (['/'].intercalate pieces)).trans whole
  · exact whole

theorem head?_joined (lead : String) (leads : lead = "/" ∨ lead = "") (pieces : List (List Char))
    (each : ∀ part ∈ pieces, '/' ∉ part ∧ isPart part = true) :
    (joined lead pieces).toList.head? = some '/' ↔ lead = "/" := by
  rw [toList_joined]
  rcases leads with rfl | rfl
  · exact iff_of_true rfl rfl
  · exact iff_of_false (head?_intercalate pieces each) (by decide)

theorem mem_intercalate (pieces : List (List Char)) (c : Char)
    (member : c ∈ ['/'].intercalate pieces) : c = '/' ∨ ∃ part ∈ pieces, c ∈ part := by
  match pieces with
  | [] => cases member
  | [part] =>
      rw [List.intercalate_singleton] at member
      exact Or.inr ⟨part, List.mem_cons_self, member⟩
  | part :: next :: others =>
      rw [List.intercalate_cons_cons, List.mem_append, List.mem_append,
        List.mem_singleton] at member
      rcases member with (here | slash) | later
      · exact Or.inr ⟨part, List.mem_cons_self, here⟩
      · exact Or.inl slash
      · apply (mem_intercalate (next :: others) c later).imp_right
        rintro ⟨other, stands, inside⟩
        exact ⟨other, List.mem_cons_of_mem part stands, inside⟩

end SwaggerLift.Path
