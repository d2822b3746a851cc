import Mathlib.Data.List.Basic
import SwaggerLift.Yaml.Print
/-!
Characters that a writer leaves as they are: a reader accepts all of them, takes none of them for
another line break, and among them only the space is a blank.
-/

namespace SwaggerLift.Yaml

theorem isPrintable_iff (c : Char) :
    isPrintable c = true ↔ c = '\n' ∨ (0x20 ≤ c.toNat ∧ c.toNat ≤ 0x7E) ∨
      (0xA0 ≤ c.toNat ∧ c.toNat ≠ 0xFEFF ∧ c.toNat ≠ 0xFFFE ∧ c.toNat ≠ 0xFFFF) := by
  have value : ∀ d : Char, c ≠ d ↔ c.toNat ≠ d.toNat := fun d => not_congr Char.toNat_inj.symm
  simp only [isPrintable, byteOrderMark, Bool.or_eq_true, Bool.and_eq_true, beq_iff_eq, bne_iff_ne,
    decide_eq_true_eq, or_assoc, and_assoc, value]
  rfl

theorem isReadable_of_isPrintable {c : Char} (printable : isPrintable c = true) :
    isReadable c = true := by
  have high : 0xFFFD < c.toNat → c.toNat ≠ 0xFFFE → c.toNat ≠ 0xFFFF → 0x10000 ≤ c.toNat := by omega
  have split : '\xa0' ≤ c ∧ c ≤ '\ufffd' ↔ 0xA0 ≤ c.toNat ∧ c.toNat ≤ 0xFFFD := Iff.rfl
  have ascii : ' ' ≤ c ∧ c ≤ '~' ↔ 0x20 ≤ c.toNat ∧ c.toNat ≤ 0x7E := Iff.rfl
  simp only [isReadable, Bool.or_eq_true, Bool.and_eq_true, beq_iff_eq, decide_eq_true_eq,
    ascii, split]
  rcases (isPrintable_iff c).mp printable with rfl | low | ⟨above, _, notLast, notEnd⟩
  · simp
  · simp [low]
  · by_cases basic : c.toNat ≤ 0xFFFD
    · simp [above, basic]
    · simp [high (by omega) notLast notEnd]

theorem ne_of_isPrintable {c : Char} (printable : isPrintable c = true) (d : Char)
    (excluded : isPrintable d = false) : c ≠ d := by
  rintro rfl
  rw [printable] at excluded
  cases excluded

theorem isBlank_of_isPrintable {c : Char} (printable : isPrintable c = true) :
    isBlank c = isSpace c := by
  have noTab : c ≠ '\t' := ne_of_isPrintable printable '\t' (by decide)
  simp [isBlank, isSpace, noTab]

theorem unifyBreaks_of_isPrintable (text : List Char) (printable : text.all isPrintable = true) :
    unifyBreaks text = text := by
  induction text with
  | nil => rfl
  | cons c rest ih =>
      rw [List.all_cons, Bool.and_eq_true] at printable
      have noReturn : c ≠ '\r' := ne_of_isPrintable printable.1 '\r' (by decide)
      have noNext : c ≠ '\x85' := ne_of_isPrintable printable.1 '\x85' (by decide)
      rw [unifyBreaks, ih printable.2, if_neg (not_or.mpr ⟨noReturn, noNext⟩)]
      intro _ same _
      exact noReturn same

end SwaggerLift.Yaml
