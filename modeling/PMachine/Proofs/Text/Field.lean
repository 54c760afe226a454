import PMachine.Text.Reader
import PMachine.Text.Writer

/-!
# The characters of a field

A field is made of ASCII letters and digits and of the two signs. No blank, no separator and no comment mark is among them, so
a line that is put together from fields and one separator comes apart at the separator alone.
-/

namespace PMachine

namespace Text

/-- Whether a field may hold a character. -/
def isFieldChar (c : Char) : Bool := c.isAlphanum || c = '+' || c = '-'

/-- The ASCII letters and digits lie in three ranges. -/
theorem toNat_of_isAlphanum {c : Char} (h : c.isAlphanum = true) :
    (0x41 ≤ c.toNat ∧ c.toNat ≤ 0x5A) ∨ (0x61 ≤ c.toNat ∧ c.toNat ≤ 0x7A) ∨ (0x30 ≤ c.toNat ∧ c.toNat ≤ 0x39) := by
  rcases Bool.or_eq_true_iff.mp h with hc | hc
  · rcases Bool.or_eq_true_iff.mp hc with hc | hc
    · exact Or.inl (of_decide_eq_true hc)
    · exact Or.inr (Or.inl ⟨of_decide_eq_true (Bool.and_eq_true_iff.mp hc).1,
        of_decide_eq_true (Bool.and_eq_true_iff.mp hc).2⟩)
  · exact Or.inr (Or.inr ⟨of_decide_eq_true (Bool.and_eq_true_iff.mp hc).1,
      of_decide_eq_true (Bool.and_eq_true_iff.mp hc).2⟩)

/-- Every ASCII letter is among them. -/
theorem isAlphanum_of_letter {c : Char} (h : (0x41 ≤ c.toNat ∧ c.toNat ≤ 0x5A) ∨ (0x61 ≤ c.toNat ∧ c.toNat ≤ 0x7A)) :
    c.isAlphanum = true := by
  refine Bool.or_eq_true_iff.mpr (Or.inl (Bool.or_eq_true_iff.mpr ?_))
  rcases h with hupper | hlower
  · exact Or.inl (decide_eq_true hupper)
  · exact Or.inr (Bool.and_eq_true_iff.mpr ⟨decide_eq_true hlower.1, decide_eq_true hlower.2⟩)

/-- A character of a field is a letter, a digit or a sign. -/
theorem isFieldChar_iff {c : Char} : isFieldChar c = true ↔ c.isAlphanum = true ∨ c = '+' ∨ c = '-' := by
  simp [isFieldChar, or_assoc]

/-- No character between the exclamation mark and the tilde is a blank. -/
theorem isBlank_of_printable {c : Char} (lo : 0x21 ≤ c.toNat) (hi : c.toNat ≤ 0x7E) : isBlank c = false := by
  rw [← Bool.not_eq_true]
  intro h
  obtain ⟨r, hr, hc⟩ := List.any_eq_true.mp h
  obtain ⟨h1, h2⟩ := Bool.and_eq_true_iff.mp hc
  have h1 := of_decide_eq_true h1
  have h2 := of_decide_eq_true h2
  simp only [blankRanges, List.mem_cons, List.not_mem_nil, or_false] at hr
  rcases hr with rfl | rfl | rfl | rfl | rfl | rfl | rfl | rfl | rfl | rfl <;> simp only at h1 h2 <;> omega

/-- No character of a field is a blank. -/
theorem isBlank_of_isFieldChar {c : Char} (h : isFieldChar c = true) : isBlank c = false := by
  rcases isFieldChar_iff.mp h with hc | rfl | rfl
  · have := toNat_of_isAlphanum hc
    exact isBlank_of_printable (by omega) (by omega)
  · decide
  · decide

/-- No character of a field starts a comment. -/
theorem ne_hash_of_isFieldChar {c : Char} (h : isFieldChar c = true) : c ≠ '#' := by
  rintro rfl
  exact absurd h (by decide)

/-- No character of a field may divide fields. -/
theorem isSeparator_of_isFieldChar {c : Char} (h : isFieldChar c = true) : isSeparator c = false := by
  rcases isFieldChar_iff.mp h with hc | rfl | rfl
  · simp [isSeparator, isPunctuation, hc]
  · decide
  · decide

/-- The separator is no character of a field. -/
theorem ne_char_of_isFieldChar {c : Char} (s : Separator) (h : isFieldChar c = true) : c ≠ s.char := by
  rintro rfl
  have hs := isSeparator_of_isFieldChar h
  rw [s.isSeparator_char] at hs
  exact Bool.noConfusion hs

end Text

/-- A separator is no blank. -/
theorem Separator.isBlank_char (s : Separator) : Text.isBlank s.char = false := by
  have h := s.isSeparator_char
  simp only [isSeparator, isPunctuation, Bool.and_eq_true, decide_eq_true_eq] at h
  obtain ⟨⟨⟨⟨⟨lo, hi⟩, -⟩, -⟩, -⟩, -⟩ := h
  exact Text.isBlank_of_printable lo hi

/-! ## Written fields -/

namespace Text

/-- A mnemonic is a field. -/
theorem isFieldChar_of_mem_mnemonic (o : Opcode) : ∀ c ∈ o.mnemonic.toList, isFieldChar c = true := by
  have hall : o.mnemonic.toList.all isFieldChar = true := by cases o <;> rfl
  intro c hc
  exact List.all_eq_true.mp hall c hc

/-- The digits of a number are a field. -/
theorem isFieldChar_of_mem_repr (n : Nat) : ∀ c ∈ n.repr.toList, isFieldChar c = true := by
  intro c hc
  rw [Nat.toList_repr] at hc
  have hd : c.isDigit = true := Nat.isDigit_of_mem_toDigits (by decide) (by decide) hc
  exact isFieldChar_iff.mpr (Or.inl (Bool.or_eq_true_iff.mpr (Or.inr hd)))

/-- A written integer is a field. -/
theorem isFieldChar_of_mem_intRepr (i : Int) : ∀ c ∈ i.repr.toList, isFieldChar c = true := by
  intro c hc
  cases i with
  | ofNat n => exact isFieldChar_of_mem_repr n c hc
  | negSucc n =>
    rw [Int.repr, String.toList_append, List.mem_append] at hc
    rcases hc with hc | hc
    · rw [List.mem_singleton.mp hc]
      decide
    · exact isFieldChar_of_mem_repr _ c hc

/-- A written word is a field. -/
theorem isFieldChar_of_mem_ofWord (w : Word) : ∀ c ∈ (Numeral.ofWord w).toList, isFieldChar c = true :=
  isFieldChar_of_mem_intRepr w.toInt

end Text

end PMachine
