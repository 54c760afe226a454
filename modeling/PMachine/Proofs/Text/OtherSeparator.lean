import PMachine.Proofs.Text.Field
import PMachine.Proofs.Text.LoadError

/-!
# Reading with another separator

An instruction is made of characters of fields and of the separator that it was written with. No other separator is among them,
so to every other separator the whole line is one field. A text that can be read with one separator is therefore refused with
any other at its first instruction; only a text without instructions does not tell its separator.
-/

namespace PMachine

namespace Text

/-! ## The characters of an instruction -/

theorem isFieldChar_of_isDigit {c : Char} (h : c.isDigit = true) : isFieldChar c = true :=
  isFieldChar_iff.mpr (Or.inl (Bool.or_eq_true_iff.mpr (Or.inr h)))

/-- A numeral is a field. -/
theorem isFieldChar_of_isDecimal {cs : List Char} {n : Nat} (h : IsDecimal cs n) : ∀ c ∈ cs, isFieldChar c = true := by
  obtain ⟨-, hdigits, -⟩ := isDecimal_iff.mp h
  intro c hc
  exact isFieldChar_of_isDigit (hdigits c hc)

/-- An integer is a field. -/
theorem isFieldChar_of_isInteger {cs : List Char} {z : Int} (h : IsInteger cs z) : ∀ c ∈ cs, isFieldChar c = true := by
  cases h with
  | plain h => exact isFieldChar_of_isDecimal h
  | plus h => exact List.forall_mem_cons.mpr ⟨by decide, isFieldChar_of_isDecimal h⟩
  | minus h => exact List.forall_mem_cons.mpr ⟨by decide, isFieldChar_of_isDecimal h⟩

/-- A letter in either case is a character of a field. -/
theorem isFieldChar_of_sameLetter {upper c : Char} (h : SameLetter upper c) (hu : 0x41 ≤ upper.toNat ∧ upper.toNat ≤ 0x5A) :
    isFieldChar c = true := by
  refine isFieldChar_iff.mpr (Or.inl (isAlphanum_of_letter ?_))
  rcases h with rfl | h
  · exact Or.inl hu
  · exact Or.inr (by omega)

/-- A mnemonic in any case is a field. -/
theorem isFieldChar_of_spells {cs : List Char} {o : Opcode} (h : Spells cs o) : ∀ c ∈ cs, isFieldChar c = true := by
  have hupper := upper_of_mem_mnemonic o
  rw [Spells] at h
  generalize o.mnemonic.toList = us at h hupper
  induction h with
  | nil => exact fun c hc => absurd hc List.not_mem_nil
  | cons hc hcs ih =>
    obtain ⟨hu, hus⟩ := List.forall_mem_cons.mp hupper
    exact List.forall_mem_cons.mpr ⟨isFieldChar_of_sameLetter hc hu, ih hus⟩

/-- An instruction holds characters of fields and its separator. -/
theorem IsInstruction.isFieldChar_or_eq {s : Separator} {text : List Char} {i : Instruction} (h : IsInstruction s text i) :
    ∀ c ∈ text, isFieldChar c = true ∨ c = s.char := by
  obtain ⟨mnemonic, level, address, ⟨rfl, -⟩, hm, hl, ha⟩ := h
  intro c hc
  simp only [List.mem_append, List.mem_cons] at hc
  rcases hc with hc | rfl | hc | rfl | hc
  · exact Or.inl (isFieldChar_of_spells hm c hc)
  · exact Or.inr rfl
  · exact Or.inl (isFieldChar_of_isInteger hl c hc)
  · exact Or.inr rfl
  · exact Or.inl (isFieldChar_of_isInteger ha c hc)

/-- An instruction holds no other separator. -/
theorem IsInstruction.count_eq_zero {s d : Separator} (hne : d ≠ s) {text : List Char} {i : Instruction}
    (h : IsInstruction s text i) : text.count d.char = 0 := by
  rw [List.count_eq_zero]
  intro hd
  rcases h.isFieldChar_or_eq d.char hd with hfield | hchar
  · exact ne_char_of_isFieldChar d hfield rfl
  · obtain ⟨c, hc⟩ := d
    obtain ⟨c', hc'⟩ := s
    cases hchar
    exact hne rfl

/-- An instruction is refused as a whole by every other separator. -/
theorem instruction_of_other {s d : Separator} (hne : d ≠ s) {line : Line} {i : Instruction}
    (h : line.instruction s = .ok i) :
    line.instruction d = .error (.malformedInstruction line.number d.char (String.ofList line.text)) := by
  have hcount := (instruction_eq_ok_iff.mp h).count_eq_zero hne
  exact instruction_of_count_ne (by omega)

end Text

/-- A text that is read as a program with one separator, read with another: a program without instructions is the same, and
otherwise the first instruction, which is the second line that is not passed over, is malformed. -/
theorem Program.parse_other_separator {s d : Separator} (hne : d ≠ s) {text : String} {p : Program}
    (h : Program.parse s text = .ok p) :
    (p.isEmpty = true → Program.parse d text = .ok p) ∧
    (p.isEmpty = false → ∃ first line rest, Text.contents text.toList = first :: line :: rest ∧
      Program.parse d text = .error (.malformedInstruction line.number d.char (String.ofList line.text))) := by
  rw [Program.parse, Text.significantLines_eq_contents] at h ⊢
  obtain ⟨first, body, hlines, hcount, hbody⟩ := Text.readLines_eq_ok_iff.mp h
  rw [hlines, Text.readLines_of_count_eq hcount]
  have hread := Text.mapM_eq_ok_iff.mp hbody
  obtain ⟨⟨is⟩⟩ := p
  cases hread with
  | nil => exact ⟨fun _ => rfl, fun hp => absurd hp (by decide)⟩
  | @cons line i rest is hline hrest =>
    refine ⟨fun hp => absurd hp (by simp [isEmpty]), fun _ => ⟨first, line, rest, rfl, ?_⟩⟩
    rw [List.mapM_cons, Text.instruction_of_other hne hline]
    rfl

/-- A text for the semicolon, whose first instruction stands on the fourth line, read with a bar; and a text that declares no
instructions, read with both. -/
theorem Program.parse_other_separator_bar :
    let bar : Separator := ⟨'|', by decide⟩
    let text := "# two\n2\n\nlit ; -1 ; +5\nJmp;0;0"
    let p := Program.ofList [⟨.lit, -1, 5⟩, ⟨.jmp, 0, 0⟩]
    (bar ≠ .semicolon ∧ Program.parse .semicolon text = .ok p ∧
      Program.parse bar text = .error (.malformedInstruction 4 '|' "lit;-1;+5")) ∧
    Program.parse .semicolon "+0\n# none" = .ok {} ∧ Program.parse bar "+0\n# none" = .ok {} := by
  intro bar text p
  have hne : bar ≠ .semicolon := by decide
  have htext : Program.parse .semicolon text = .ok p := by decide +kernel
  have hnone : Program.parse .semicolon "+0\n# none" = .ok {} := by decide +kernel
  have hcontents : Text.contents text.toList =
      [⟨2, "2".toList⟩, ⟨4, "lit;-1;+5".toList⟩, ⟨5, "Jmp;0;0".toList⟩] := by decide +kernel
  obtain ⟨first, line, rest, hlines, hbar⟩ := (Program.parse_other_separator hne htext).2 rfl
  rw [hcontents] at hlines
  cases hlines
  exact ⟨⟨hne, htext, hbar⟩, hnone, (Program.parse_other_separator hne hnone).1 rfl⟩

end PMachine
