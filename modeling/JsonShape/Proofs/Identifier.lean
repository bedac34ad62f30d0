import JsonShape.Identifier
import Mathlib

/-!
# Characters of identifiers

The identifier of a key is made of ASCII letters and digits and the underscore, whatever the key is.
-/

namespace JsonShape

/-- The characters of which identifiers are made. -/
def isIdentifierChar (c : Char) : Bool := isWordChar c || c = '_'

/-- Each ASCII character has what they are found to have one by one. -/
theorem of_ascii {P : Char → Prop} (hall : ∀ n < 128, P (Char.ofNat n)) {c : Char} (h : c.toNat < 128) : P c := by
  have hc := hall c.toNat h
  rwa [Char.ofNat_toNat] at hc

theorem isWordChar_of_isDigit {c : Char} (h : c.isDigit = true) : isWordChar c = true := by
  simp [isWordChar, Char.isAlphanum, h]

theorem toNat_lt_of_isWordChar {c : Char} (h : isWordChar c = true) : c.toNat < 128 := by
  simp only [isWordChar, Char.isAlphanum, Char.isAlpha, Char.isUpper, Char.isLower, Char.isDigit, Bool.or_eq_true,
    decide_eq_true_eq, Bool.and_eq_true, ge_iff_le, UInt32.le_iff_toNat_le] at h
  have hval : c.toNat = c.val.toNat := rfl
  have hlast : 'Z'.val.toNat = 90 ∧ 'z'.val.toNat = 122 ∧ '9'.val.toNat = 57 := ⟨rfl, rfl, rfl⟩
  omega

theorem of_isWordChar {P : Char → Prop} (hall : ∀ n < 128, P (Char.ofNat n)) {c : Char} (h : isWordChar c = true) :
    P c :=
  of_ascii hall (toNat_lt_of_isWordChar h)

theorem isWordChar_toUpper {c : Char} (h : isWordChar c = true) : isWordChar c.toUpper = true :=
  of_isWordChar (P := fun c => isWordChar c = true → isWordChar c.toUpper = true) (by decide) h h

theorem isWordChar_of_mem_collapse {after : Bool} {cs : List Char} {c : Char} (h : c ∈ collapse after cs) :
    isWordChar c = true := by
  fun_induction collapse after cs with
  | case1 => cases h
  | case2 after b rest hb ih =>
    rcases List.mem_cons.mp h with rfl | h
    · cases after
      · exact hb
      · exact isWordChar_toUpper hb
    · exact ih h
  | case3 _ b rest hb ih => exact ih h

theorem isIdentifierChar_of_mem_capitalize {cs : List Char} {c : Char} (hcs : ∀ b ∈ cs, isWordChar b = true)
    (h : c ∈ capitalize cs) : isIdentifierChar c = true := by
  unfold isIdentifierChar
  cases cs with
  | nil => simp_all [capitalize]
  | cons b rest =>
    rw [capitalize] at h
    split at h
    · rcases List.mem_cons.mp h with rfl | h
      · simp
      · simp [hcs c h]
    · rcases List.mem_cons.mp h with rfl | h
      · simp [isWordChar_toUpper (hcs b (List.mem_cons_self ..))]
      · simp [hcs c (List.mem_cons_of_mem _ h)]

/-- An identifier has no characters but ASCII letters and digits and the underscore. -/
theorem isIdentifierChar_of_mem {key : String} {c : Char} (h : c ∈ (deriveIdentifier key).toList) :
    isIdentifierChar c = true := by
  rw [deriveIdentifier, String.toList_ofList] at h
  exact isIdentifierChar_of_mem_capitalize (fun b hb => isWordChar_of_mem_collapse hb) h

end JsonShape
