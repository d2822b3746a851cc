import SwaggerLift.Text.Capital
/-!
Capital forms are settled: the first character of a capital form is its own capital, and no
character of a form that differs from the character stands before the letter A. Both are read off
the table, run by run.
-/

namespace SwaggerLift.Text

/-- Whether no run covers a point between the bounds. `alike` tells that the points looked at
    are all even or all odd. -/
def CapitalRun.misses (first last : Nat) (alike : Bool) (run : CapitalRun) : Bool :=
  Nat.blt last run.first || Nat.blt run.last first ||
    (alike && Nat.beq run.step 2 && !Nat.beq (first % 2) (run.first % 2))

def isSettled (first last : Nat) (alike : Bool) : Bool :=
  capitalRuns.all (CapitalRun.misses first last alike) &&
    capitalSequences.all fun entry => (CapitalRun.mk entry.1 entry.1 2 0).misses first last alike

theorem CapitalRun.covers_of_misses (first last : Nat) (alike : Bool) (run : CapitalRun)
    (misses : run.misses first last alike = true) (point : Nat) (above : first ≤ point)
    (below : point ≤ last) (same : alike = true → point % 2 = first % 2) :
    run.covers point = false := by
  have apart : last < run.first ∨ run.last < first ∨
      (alike = true ∧ run.step = 2) ∧ first % 2 ≠ run.first % 2 := by
    simpa only [CapitalRun.misses, Bool.or_eq_true, Bool.and_eq_true, Nat.blt_eq, Nat.beq_eq,
      Bool.not_eq_true', ← Bool.not_eq_true, or_assoc, ne_eq] using misses
  rw [← Bool.not_eq_true]
  intro covered
  simp only [CapitalRun.covers, Bool.and_eq_true, decide_eq_true_eq, beq_iff_eq] at covered
  obtain ⟨⟨start, stop⟩, stepped⟩ := covered
  rcases apart with before | after | ⟨⟨even, two⟩, other⟩
  · omega
  · omega
  · rw [two] at stepped
    have parity := same even
    omega

theorem capitalPoints_of_settled (first last : Nat) (alike : Bool)
    (settled : isSettled first last alike = true) (point : Nat) (above : first ≤ point)
    (below : point ≤ last) (same : alike = true → point % 2 = first % 2) :
    capitalPoints point = [point] := by
  rw [isSettled, Bool.and_eq_true, List.all_eq_true, List.all_eq_true] at settled
  have alone : capitalSequences.lookup point = none := by
    rw [List.lookup_eq_none_iff]
    intro entry member
    have missed :=
      CapitalRun.covers_of_misses first last alike _ (settled.2 entry member) point above below same
    rw [bne_iff_ne]
    intro here
    simp [CapitalRun.covers, here] at missed
  have uncovered : capitalRuns.find? (·.covers point) = none := by
    rw [List.find?_eq_none]
    intro run member
    have missed :=
      CapitalRun.covers_of_misses first last alike run (settled.1 run member) point above below same
    rw [missed]
    exact Bool.false_ne_true
  rw [capitalPoints, alone, uncovered]

def isBehindA (first last : Nat) : Bool :=
  Nat.ble 0x41 first && (Nat.blt last 0xD800 || (Nat.ble 0xE000 first && Nat.blt last 0x110000))

def CapitalRun.isSettled (run : CapitalRun) : Bool :=
  let first := (run.first + run.shift).toNat
  let last := (run.last + run.shift).toNat
  Nat.ble run.first run.last && isBehindA first last &&
    Text.isSettled first last (Nat.beq run.step 2 || Nat.beq run.first run.last)

theorem capitalRuns_settled : capitalRuns.all CapitalRun.isSettled = true := by decide +kernel

def isSettledSequence : List Nat → Bool
  | [] => false
  | first :: rest =>
      (first :: rest).all (fun point => isBehindA point point) && isSettled first first true

theorem capitalSequences_settled :
    (capitalSequences.all fun entry => isSettledSequence entry.2) = true := by decide +kernel

def Settled (points : List Nat) : Prop :=
  ∃ first rest, points = first :: rest ∧ capitalPoints first = [first] ∧
    ∀ point ∈ points, 0x41 ≤ point ∧ point.isValidChar

theorem isBehindA_iff (first last point : Nat) (behind : isBehindA first last = true)
    (above : first ≤ point) (below : point ≤ last) : 0x41 ≤ point ∧ point.isValidChar := by
  simp only [isBehindA, Bool.and_eq_true, Bool.or_eq_true, Nat.ble_eq, Nat.blt_eq] at behind
  rw [Nat.isValidChar]
  omega

theorem CapitalRun.settled_of_covers (run : CapitalRun) (settled : run.isSettled = true)
    (point : Nat) (covered : run.covers point = true) : Settled [(point + run.shift).toNat] := by
  simp only [CapitalRun.isSettled, Bool.and_eq_true, Nat.ble_eq] at settled
  obtain ⟨⟨ordered, behind⟩, fixed⟩ := settled
  simp only [CapitalRun.covers, Bool.and_eq_true, decide_eq_true_eq, beq_iff_eq] at covered
  obtain ⟨⟨start, stop⟩, stepped⟩ := covered
  have above : (run.first + run.shift).toNat ≤ (point + run.shift).toNat := by omega
  have below : (point + run.shift).toNat ≤ (run.last + run.shift).toNat := by omega
  have positive : 0x41 ≤ (run.first + run.shift).toNat :=
    (isBehindA_iff _ _ _ behind (Nat.le_refl _) (by omega)).1
  refine ⟨_, [], rfl, capitalPoints_of_settled _ _ _ fixed _ above below ?_, ?_⟩
  · intro alike
    rw [Bool.or_eq_true, Nat.beq_eq, Nat.beq_eq] at alike
    rcases alike with two | single
    · rw [two] at stepped
      omega
    · omega
  · intro other member
    rw [List.mem_singleton.mp member]
    exact isBehindA_iff _ _ _ behind above below

theorem settled_of_isSettledSequence (points : List Nat)
    (settled : isSettledSequence points = true) : Settled points := by
  cases points with
  | nil => cases settled
  | cons first rest =>
      simp only [isSettledSequence, Bool.and_eq_true, List.all_eq_true] at settled
      refine ⟨first, rest, rfl, ?_, ?_⟩
      · exact capitalPoints_of_settled first first true settled.2 first (Nat.le_refl _)
          (Nat.le_refl _)
          fun _ => rfl
      · intro point member
        exact isBehindA_iff point point point (settled.1 point member) (Nat.le_refl _)
          (Nat.le_refl _)

theorem capitalPoints_settled (point : Nat) :
    capitalPoints point = [point] ∨ Settled (capitalPoints point) := by
  have sequences := List.all_eq_true.mp capitalSequences_settled
  have runs := List.all_eq_true.mp capitalRuns_settled
  rw [capitalPoints]
  cases listed : capitalSequences.lookup point with
  | some points =>
      obtain ⟨before, after, split, _⟩ := List.lookup_eq_some_iff.mp listed
      right
      exact settled_of_isSettledSequence points (sequences (point, points) (by simp [split]))
  | none =>
      cases found : capitalRuns.find? (·.covers point) with
      | some run =>
          right
          have covered : run.covers point = true := by simpa using List.find?_some found
          exact run.settled_of_covers (runs run (List.mem_of_find?_eq_some found)) point covered
      | none => exact Or.inl rfl

theorem toNat_ofNat (point : Nat) (valid : point.isValidChar) :
    (Char.ofNat point).toNat = point := by
  rw [Char.ofNat, dif_pos valid]
  rfl

theorem capital_eq_cons (c : Char) :
    ∃ first rest, capital c = first :: rest ∧ capital first = [first] := by
  rcases capitalPoints_settled c.toNat with same | ⟨first, rest, points, fixed, valid⟩
  · refine ⟨c, [], ?_, ?_⟩ <;> simp [capital, same]
  · refine ⟨Char.ofNat first, rest.map Char.ofNat, ?_, ?_⟩
    · simp [capital, points]
    · have here := (valid first (by simp [points])).2
      rw [capital, toNat_ofNat first here, fixed]
      rfl

theorem le_of_mem_capital (c d : Char) (member : d ∈ capital c) : d = c ∨ 'A' ≤ d := by
  rw [capital, List.mem_map] at member
  obtain ⟨point, stands, rfl⟩ := member
  rcases capitalPoints_settled c.toNat with same | ⟨first, rest, points, fixed, valid⟩
  · left
    rw [same, List.mem_singleton] at stands
    rw [stands, Char.ofNat_toNat]
  · right
    obtain ⟨behind, here⟩ := valid point stands
    change 0x41 ≤ (Char.ofNat point).toNat
    rw [toNat_ofNat point here]
    exact behind

end SwaggerLift.Text
