import Mathlib.Data.List.DropRight
import SwaggerLift.Decimal.Nearest
import SwaggerLift.Decimal.Spelling
/-!
Decimal digits. The digits of a number say that number, and only zero begins with a zero. The
decimal that is written for a fraction other than zero is never zero, so its first digit is none
either.
-/

namespace SwaggerLift.Decimal

theorem isDecimalDigit_of_mem (n : Nat) (c : Char) (member : c ∈ digitsOf n) :
    isDecimalDigit c = true := by
  have digit := Nat.isDigit_of_mem_toDigits (by decide) (by decide) member
  simpa [isDecimalDigit, Char.isDigit, Char.le_def] using digit

theorem digitsValue_digitsOf (n : Nat) : digitsValue (digitsOf n) = n := by
  have value := Nat.ofDigitChars_ten_toDigits (n := n)
  rwa [Nat.ofDigitChars_eq_foldl] at value

theorem head_digitsOf (n : Nat) (positive : 0 < n) : (digitsOf n).head? ≠ some '0' := by
  induction n using Nat.strongRecOn with
  | ind n ih =>
      by_cases small : n < 10
      · have zeroDigit : ∀ n < 10, Nat.digitChar n = '0' → n = 0 := by decide
        rw [digitsOf, Nat.toDigits_of_lt_base small]
        intro zero
        have none := zeroDigit n small (Option.some.inj zero)
        omega
      · have shorter := ih (n / 10) (by omega) (by omega)
        rw [digitsOf, Nat.toDigits_of_base_le (by decide) (by omega)]
        rwa [List.head?_append, Option.or_of_isSome]
        rw [List.isSome_head?]
        exact Nat.toDigits_ne_nil

theorem digitsOf_length (n : Nat) (positive : 0 < n) :
    1 ≤ (digitsOf n).length ∧ tenTo ((digitsOf n).length - 1) ≤ n := by
  have filled : 1 ≤ (digitsOf n).length := Nat.length_toDigits_pos
  refine ⟨filled, ?_⟩
  rcases Nat.eq_zero_or_pos ((digitsOf n).length - 1) with single | longer
  · rw [single]
    exact positive
  · apply Nat.le_of_not_lt
    intro small
    have short : (digitsOf n).length ≤ (digitsOf n).length - 1 :=
      (Nat.length_toDigits_le_iff (by decide) longer).mpr small
    omega

theorem tenTo_add (m n : Nat) : tenTo (m + n) = tenTo m * tenTo n := Nat.pow_add 10 m n

theorem tenTo_mono {m n : Nat} (le : m ≤ n) : tenTo m ≤ tenTo n :=
  Nat.pow_le_pow_right (by decide) le

theorem twoTo_mono {m n : Nat} (le : m ≤ n) : twoTo m ≤ twoTo n :=
  Nat.pow_le_pow_right (by decide) le

theorem tenTo_pos (n : Nat) : 0 < tenTo n := Nat.pow_pos (by decide)

theorem twoTo_pos (n : Nat) : 0 < twoTo n := Nat.pow_pos (by decide)

theorem le_divideScaled_iff (n x : Nat) (exponent scale : Int) :
    n ≤ (divideScaled x exponent scale).1 ↔
      n * (tenTo scale.toNat * twoTo (-exponent).toNat) ≤
        x * twoTo exponent.toNat * tenTo (-scale).toNat :=
  Nat.le_div_iff_mul_le (Nat.mul_pos (tenTo_pos _) (twoTo_pos _))

/-- No fraction is so small that it vanishes at this scale. -/
theorem twoTo_le_tenTo : twoTo 1074 ≤ tenTo 400 := by
  have row : twoTo (9 * 120) ≤ tenTo (3 * 120) := by
    rw [twoTo, tenTo]
    simp only [Nat.pow_eq, Nat.pow_mul]
    exact Nat.pow_le_pow_left (by decide) 120
  calc twoTo 1074 ≤ twoTo (9 * 120) := twoTo_mono (by decide)
    _ ≤ tenTo (3 * 120) := row
    _ ≤ tenTo 400 := tenTo_mono (by decide)

theorem divideScaled_smallest_pos (x : Nat) (exponent : Int) (positive : 0 < x)
    (bounded : -1074 ≤ exponent) : 0 < (divideScaled x exponent (-400)).1 := by
  apply (le_divideScaled_iff 1 x exponent (-400)).mpr
  have divisor : twoTo (-exponent).toNat ≤ tenTo 400 :=
    Nat.le_trans (twoTo_mono (by omega)) twoTo_le_tenTo
  have factor : 1 ≤ x * twoTo exponent.toNat := Nat.mul_pos positive (twoTo_pos _)
  calc 1 * (tenTo (-400 : Int).toNat * twoTo (-exponent).toNat)
      = twoTo (-exponent).toNat := by rw [Nat.one_mul]; exact Nat.one_mul _
    _ ≤ tenTo 400 := divisor
    _ ≤ x * twoTo exponent.toNat * tenTo 400 := Nat.le_mul_of_pos_left _ factor

theorem divideScaled_pos (b : Binary) (positive : 0 < b.mantissa) (bounded : -1074 ≤ b.exponent)
    (scale : Int) (low : scale ≤ b.magnitude) :
    0 < (divideScaled b.mantissa b.exponent scale).1 := by
  have smallest := divideScaled_smallest_pos b.mantissa b.exponent positive bounded
  obtain ⟨filled, size⟩ := digitsOf_length _ smallest
  have magnitude : b.magnitude =
      (digitsOf (divideScaled b.mantissa b.exponent (-400)).1).length - 401 := rfl
  generalize (digitsOf (divideScaled b.mantissa b.exponent (-400)).1).length = width at *
  -- Both sides are compared after scaling by as much as for the smallest fraction.
  have reach := (le_divideScaled_iff _ _ _ _).mp size
  have powers : tenTo scale.toNat * tenTo 400 ≤ tenTo (width - 1) * tenTo (-scale).toNat := by
    rw [← tenTo_add, ← tenTo_add]
    exact tenTo_mono (by omega)
  apply (le_divideScaled_iff 1 b.mantissa b.exponent scale).mpr
  apply Nat.le_of_mul_le_mul_right _ (tenTo_pos 400)
  calc 1 * (tenTo scale.toNat * twoTo (-b.exponent).toNat) * tenTo 400
      = tenTo scale.toNat * tenTo 400 * twoTo (-b.exponent).toNat := by
        rw [Nat.one_mul, Nat.mul_right_comm]
    _ ≤ tenTo (width - 1) * tenTo (-scale).toNat * twoTo (-b.exponent).toNat :=
        Nat.mul_le_mul_right _ powers
    _ = tenTo (width - 1) * (tenTo (-400 : Int).toNat * twoTo (-b.exponent).toNat) *
          tenTo (-scale).toNat := by
        rw [Nat.mul_right_comm]
        congr 2
        exact (Nat.one_mul _).symm
    _ ≤ b.mantissa * twoTo b.exponent.toNat * tenTo (400) * tenTo (-scale).toNat :=
        Nat.mul_le_mul_right _ reach
    _ = b.mantissa * twoTo b.exponent.toNat * tenTo (-scale).toNat * tenTo 400 :=
      Nat.mul_right_comm _ _ _

theorem Binary.ofBits_exponent (bits : Nat) : -1074 ≤ (ofBits bits).exponent := by
  simp only [ofBits]
  split
  · exact Int.le_refl _
  · dsimp only
    omega

theorem eq_or_eq_of_ite {α : Type} (p q : Bool) (a b found : α)
    (chosen : (if p then some a else if q then some b else none) = some found) :
    found = a ∨ found = b := by
  cases p
  · cases q
    · cases chosen
    · exact Or.inr (Option.some.inj chosen).symm
  · exact Or.inl (Option.some.inj chosen).symm

theorem le_ite_of_le {n a b : Nat} (p : Prop) [Decidable p] (left : n ≤ a) (right : n ≤ b) :
    n ≤ if p then a else b := by
  split
  · exact left
  · exact right

/-- Both neighbours are at least the number of times that the last place goes into the fraction. -/
theorem Binary.le_withDigits (b : Binary) (magnitude : Int) (count : Nat) (found : Scaled)
    (reads : b.withDigits magnitude count = some found) :
    (divideScaled b.mantissa b.exponent (magnitude - count + 1)).1 ≤ found.digits := by
  have same := Nat.le_refl (divideScaled b.mantissa b.exponent (magnitude - count + 1)).1
  have next := Nat.le_succ (divideScaled b.mantissa b.exponent (magnitude - count + 1)).1
  rcases eq_or_eq_of_ite _ _ _ _ _ reads with rfl | rfl
  · exact le_ite_of_le _ same next
  · exact le_ite_of_le _ next same

theorem Binary.search_pos (b : Binary) (positive : 0 < b.mantissa) (bounded : -1074 ≤ b.exponent)
    (tries count : Nat) (some : 1 ≤ count) : 0 < (b.search b.magnitude tries count).digits := by
  induction tries generalizing count with
  | zero => exact divideScaled_pos b positive bounded _ (by omega)
  | succ tries ih =>
      rw [search]
      cases found : b.withDigits b.magnitude count with
      | none => exact ih (count + 1) (Nat.le_succ_of_le some)
      | some scaled =>
          have least := divideScaled_pos b positive bounded (b.magnitude - count + 1) (by omega)
          exact Nat.lt_of_lt_of_le least (b.le_withDigits b.magnitude count scaled found)

theorem Binary.shortest_pos (bits : Nat) (positive : 0 < (ofBits bits).mantissa) :
    0 < (ofBits bits).shortest.digits :=
  search_pos _ positive (ofBits_exponent bits) 17 1 (Nat.le_refl 1)

/-- Zeros are only taken away behind the first digit that is none. -/
theorem Scaled.leading_eq_cons (d : Scaled) (positive : 0 < d.digits) :
    ∃ first more, d.leading.1 = first :: more ∧ first ≠ '0' ∧
      ∀ c ∈ first :: more, isDecimalDigit c = true := by
  have before : d.leading.1 <+: digitsOf d.digits := List.rdropWhile_prefix (· == '0') _
  have head := head_digitsOf d.digits positive
  cases digits : digitsOf d.digits with
  | nil => exact absurd digits Nat.toDigits_ne_nil
  | cons first more =>
      rw [digits, List.head?_cons, ne_eq, Option.some.injEq] at head
      cases kept : d.leading.1 with
      | nil =>
          have zeros := List.rdropWhile_eq_nil_iff.mp kept
          have zero := zeros first (by rw [digits]; exact List.mem_cons_self)
          exact absurd (beq_iff_eq.mp zero) head
      | cons other rest =>
          rw [kept, digits, List.cons_prefix_cons] at before
          obtain ⟨rfl, within⟩ := before
          refine ⟨other, rest, rfl, head, ?_⟩
          intro c member
          apply isDecimalDigit_of_mem d.digits c
          rw [digits]
          rcases List.mem_cons.mp member with rfl | later
          · exact List.mem_cons_self
          · exact List.mem_cons_of_mem _ (within.subset later)

end SwaggerLift.Decimal
