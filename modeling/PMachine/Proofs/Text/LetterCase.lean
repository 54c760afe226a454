import PMachine.Proofs.Text.Field
import PMachine.Proofs.Text.Line

/-!
# The case of letters

A text in upper case is read as the same program. Blanks, comment marks, digits, signs and separators have no case, and a
mnemonic is compared in upper case anyway; an error shows what it shows of the text in upper case.
-/

namespace PMachine

namespace Text

/-! ## Characters in upper case -/

/-- Raising to upper case leaves a character as it is, or takes a lower-case letter to the upper-case one 32 code points in front
of it. -/
theorem toUpper_cases (c : Char) :
    c.toUpper = c ∨ (0x61 ≤ c.toNat ∧ c.toNat ≤ 0x7A ∧ c.toUpper.toNat = c.toNat - 32) := by
  have hup := toNat_toUpper c
  split at hup
  · rename_i hlower
    exact Or.inr ⟨hlower.1, hlower.2, hup⟩
  · exact Or.inl (Char.toNat_inj.mp hup)

theorem toUpper_toUpper (c : Char) : c.toUpper.toUpper = c.toUpper := by
  rcases toUpper_cases c.toUpper with h | ⟨hlo, hhi, -⟩
  · exact h
  · rcases toUpper_cases c with h | ⟨hlo', hhi', hup⟩
    · rw [h, h]
    · omega

/-- What is neither a letter nor a digit comes from itself alone. -/
theorem toUpper_eq_iff_of_not_isAlphanum {c a : Char} (ha : a.isAlphanum = false) : c.toUpper = a ↔ c = a := by
  have hletter : ¬((0x41 ≤ a.toNat ∧ a.toNat ≤ 0x5A) ∨ (0x61 ≤ a.toNat ∧ a.toNat ≤ 0x7A)) := by
    intro h
    rw [isAlphanum_of_letter h] at ha
    cases ha
  constructor
  · rintro rfl
    rcases toUpper_cases c with h | ⟨hlo, hhi, hup⟩
    · exact h.symm
    · exact absurd (Or.inl (by omega)) hletter
  · rintro rfl
    rcases toUpper_cases c with h | ⟨hlo, hhi, -⟩
    · exact h
    · exact absurd (Or.inr ⟨hlo, hhi⟩) hletter

theorem isBlank_toUpper (c : Char) : isBlank c.toUpper = isBlank c := by
  rcases toUpper_cases c with h | ⟨hlo, hhi, hup⟩
  · rw [h]
  · rw [isBlank_of_printable (c := c) (by omega) (by omega), isBlank_of_printable (by omega) (by omega)]

/-- A digit has no case, and no other character becomes one. -/
theorem isDigit_toUpper (c : Char) : c.toUpper.isDigit = c.isDigit ∧ (c.isDigit = true → c.toUpper = c) := by
  have hdigit : ∀ d : Char, 0x39 < d.toNat → d.isDigit = false := by
    intro d hd
    rw [Bool.eq_false_iff]
    intro h
    have hle : d.toNat ≤ 0x39 := of_decide_eq_true (Bool.and_eq_true_iff.mp h).2
    omega
  rcases toUpper_cases c with h | ⟨hlo, hhi, hup⟩
  · exact ⟨by rw [h], fun _ => h⟩
  · rw [hdigit c (by omega), hdigit c.toUpper (by omega)]
    exact ⟨rfl, nofun⟩

/-! ## Fields in upper case -/

/-- Numbers are read alike in either case. -/
theorem readDigits_toUpper (limit : Nat) (cs : List Char) :
    Numeral.readDigits limit (cs.map Char.toUpper) = Numeral.readDigits limit cs := by
  have htake : (cs.map Char.toUpper).takeWhile Char.isDigit = cs.takeWhile Char.isDigit := by
    induction cs with
    | nil => rfl
    | cons c cs ih =>
      obtain ⟨hsame, hfix⟩ := isDigit_toUpper c
      rw [List.map_cons, List.takeWhile_cons, List.takeWhile_cons, hsame, ih]
      split
      · rename_i hc
        rw [hfix hc]
      · rfl
  rw [Numeral.readDigits, Numeral.readDigits, htake, List.length_map]

theorem readNat_cons (limit : Nat) (c : Char) (cs : List Char) :
    Numeral.readNat limit (c :: cs) = Numeral.readDigits limit (if c = '+' then cs else c :: cs) := by
  by_cases hc : c = '+'
  · subst hc
    rfl
  · simp [Numeral.readNat, hc]

theorem readNat_toUpper (limit : Nat) (cs : List Char) :
    Numeral.readNat limit (cs.map Char.toUpper) = Numeral.readNat limit cs := by
  cases cs with
  | nil => rfl
  | cons c cs =>
    have hplus : c.toUpper = '+' ↔ c = '+' := toUpper_eq_iff_of_not_isAlphanum rfl
    simp only [List.map_cons, readNat_cons, hplus]
    split
    · exact readDigits_toUpper limit cs
    · exact readDigits_toUpper limit (c :: cs)

theorem readWord?_cons (c : Char) (cs : List Char) :
    Numeral.readWord? (c :: cs) =
      if c = '-' then (Numeral.readDigits (Numeral.maxWord + 1) cs).toOption.map fun n : Nat => Int32.ofInt (-n)
      else (Numeral.readDigits Numeral.maxWord (if c = '+' then cs else c :: cs)).toOption.map Int32.ofNat := by
  by_cases hminus : c = '-'
  · subst hminus
    rfl
  · by_cases hplus : c = '+'
    · subst hplus
      rfl
    · simp [Numeral.readWord?, hminus, hplus]

theorem readWord?_toUpper (cs : List Char) : Numeral.readWord? (cs.map Char.toUpper) = Numeral.readWord? cs := by
  cases cs with
  | nil => rfl
  | cons c cs =>
    have hminus : c.toUpper = '-' ↔ c = '-' := toUpper_eq_iff_of_not_isAlphanum rfl
    have hplus : c.toUpper = '+' ↔ c = '+' := toUpper_eq_iff_of_not_isAlphanum rfl
    have hwhole := readDigits_toUpper Numeral.maxWord (c :: cs)
    rw [List.map_cons] at hwhole
    simp only [List.map_cons, readWord?_cons, hminus, hplus, readDigits_toUpper]
    split
    · rfl
    · split
      · rw [readDigits_toUpper]
      · rw [hwhole]

theorem ofMnemonic?_toUpper (cs : List Char) : Opcode.ofMnemonic? (cs.map Char.toUpper) = Opcode.ofMnemonic? cs := by
  have htwice : (cs.map Char.toUpper).map Char.toUpper = cs.map Char.toUpper := by
    rw [List.map_map]
    exact List.map_congr_left fun c _ => toUpper_toUpper c
  rw [Opcode.ofMnemonic?, Opcode.ofMnemonic?, htwice]

/-- A text that is raised to upper case comes apart at the same places, unless they are letters or digits. -/
theorem splitOn_toUpper {a : Char} (ha : a.isAlphanum = false) (cs : List Char) :
    (cs.map Char.toUpper).splitOn a = (cs.splitOn a).map (List.map Char.toUpper) := by
  induction cs with
  | nil => rfl
  | cons c cs ih =>
    have hc : (c.toUpper == a) = (c == a) := by
      rw [Bool.eq_iff_iff, beq_iff_eq, beq_iff_eq, toUpper_eq_iff_of_not_isAlphanum ha]
    rw [List.map_cons, List.splitOn_cons_eq_if_modifyHead, List.splitOn_cons_eq_if_modifyHead, hc, ih]
    split
    · rfl
    · cases cs.splitOn a <;> rfl

/-! ## Lines in upper case -/

/-- A line in upper case. -/
def Line.upperCase (line : Line) : Line := ⟨line.number, line.text.map Char.toUpper⟩

end Text

/-- The error of lines in upper case: what it shows of them is in upper case. -/
def LoadError.upperCase : LoadError → LoadError
  | .missingCount => .missingCount
  | .invalidCount line token => .invalidCount line (String.ofList (token.toList.map Char.toUpper))
  | .unknownOpcode line token => .unknownOpcode line (String.ofList (token.toList.map Char.toUpper))
  | .malformedInstruction line separator text =>
    .malformedInstruction line separator (String.ofList (text.toList.map Char.toUpper))
  | .invalidNumber line token => .invalidNumber line (String.ofList (token.toList.map Char.toUpper))
  | .countMismatch declared found => .countMismatch declared found

/-- A separator is neither a letter nor a digit. -/
theorem Separator.isAlphanum_char (s : Separator) : s.char.isAlphanum = false := by
  have h := s.isSeparator_char
  simp only [isSeparator, isPunctuation, Bool.and_eq_true, Bool.not_eq_true'] at h
  exact h.1.1.1.2

namespace Text

theorem count_upperCase (line : Line) : line.upperCase.count = line.count.mapError LoadError.upperCase := by
  simp only [Line.count, Line.upperCase, readNat_toUpper]
  cases Numeral.readNat Numeral.maxNat64 line.text with
  | ok n => rfl
  | error flaw => simp [Except.mapError, LoadError.upperCase]

theorem readField_upperCase (line : Nat) (field : List Char) :
    readField line (field.map Char.toUpper) = (readField line field).mapError LoadError.upperCase := by
  simp only [readField, readWord?_toUpper]
  cases Numeral.readWord? field with
  | some w => rfl
  | none => simp [Except.mapError, LoadError.upperCase]

theorem readFields_upperCase (line : Nat) (mnemonic level address : List Char) :
    readFields line (mnemonic.map Char.toUpper) (level.map Char.toUpper) (address.map Char.toUpper) =
      (readFields line mnemonic level address).mapError LoadError.upperCase := by
  simp only [readFields, ofMnemonic?_toUpper, readField_upperCase]
  cases Opcode.ofMnemonic? mnemonic with
  | none => simp [Except.mapError, LoadError.upperCase]
  | some opcode =>
    cases readField line level with
    | error e => rfl
    | ok l => cases readField line address <;> rfl

theorem instruction_upperCase (s : Separator) (line : Line) :
    line.upperCase.instruction s = (line.instruction s).mapError LoadError.upperCase := by
  simp only [Line.instruction, Line.upperCase, splitOn_toUpper s.isAlphanum_char]
  rcases line.text.splitOn s.char with _ | ⟨mnemonic, _ | ⟨level, _ | ⟨address, _ | ⟨next, rest⟩⟩⟩⟩
  · simp [Except.mapError, LoadError.upperCase]
  · simp [Except.mapError, LoadError.upperCase]
  · simp [Except.mapError, LoadError.upperCase]
  · exact readFields_upperCase line.number mnemonic level address
  · simp [Except.mapError, LoadError.upperCase]

theorem strip_toUpper (raw : List Char) : strip (raw.map Char.toUpper) = (strip raw).map Char.toUpper := by
  have hblank : ((fun c => !isBlank c) ∘ Char.toUpper) = fun c => !isBlank c := funext fun c => by
    rw [Function.comp, isBlank_toUpper]
  rw [strip, strip, List.filter_map, hblank]

/-- A line is passed over in either case. -/
theorem isPassedOver_toUpper (raw : List Char) : IsPassedOver (raw.map Char.toUpper) ↔ IsPassedOver raw := by
  rw [IsPassedOver, IsPassedOver, strip_toUpper]
  cases strip raw with
  | nil => exact Iff.rfl
  | cons c cs =>
    have hhash : c.toUpper = '#' ↔ c = '#' := toUpper_eq_iff_of_not_isAlphanum rfl
    simp [hhash]

theorem ofRaw?_toUpper (number : Nat) (raw : List Char) :
    Line.ofRaw? number (raw.map Char.toUpper) = (Line.ofRaw? number raw).map Line.upperCase := by
  simp only [ofRaw?_eq, isPassedOver_toUpper, strip_toUpper]
  split <;> rfl

theorem significantFrom_toUpper (number : Nat) (raws : List (List Char)) :
    significantFrom number (raws.map (List.map Char.toUpper)) = (significantFrom number raws).map Line.upperCase := by
  induction raws generalizing number with
  | nil => rfl
  | cons raw raws ih =>
    rw [List.map_cons, significantFrom_cons, significantFrom_cons, ofRaw?_toUpper, ih, List.map_append]
    cases Line.ofRaw? number raw <;> rfl

/-- A text in upper case is read as the same program, and what an error shows of it is in upper case. -/
theorem readLines_toUpper (s : Separator) (text : List Char) :
    readLines s (significantLines (text.map Char.toUpper)) =
      (readLines s (significantLines text)).mapError LoadError.upperCase := by
  rw [significantLines_eq, significantLines_eq, splitOn_toUpper rfl, significantFrom_toUpper]
  exact readLines_map rfl (fun _ _ => rfl) count_upperCase (instruction_upperCase s) _

/-! ## Texts that differ in the case of letters -/

/-- Whether two characters are the same, or the same ASCII letter, whatever its case. -/
def SameButCase (c d : Char) : Prop :=
  c = d ∨ ∃ upper : Char, (0x41 ≤ upper.toNat ∧ upper.toNat ≤ 0x5A) ∧ SameLetter upper c ∧ SameLetter upper d

/-- Texts that differ in the case of letters are the same in upper case. -/
theorem map_toUpper_of_sameButCase {cs ds : List Char} (h : List.Forall₂ SameButCase cs ds) :
    cs.map Char.toUpper = ds.map Char.toUpper := by
  induction h with
  | nil => rfl
  | cons hc h ih =>
    rw [List.map_cons, List.map_cons, ih]
    rcases hc with rfl | ⟨upper, hupper, hc, hd⟩
    · rfl
    · rw [(toUpper_eq_iff hupper).mpr hc, (toUpper_eq_iff hupper).mpr hd]

end Text

end PMachine
