import Mathlib.Data.List.Forall2
import Mathlib.Data.List.Induction
import Mathlib.Data.List.TakeWhile
import PMachine.Text.Reader

/-!
# The text format

What a program text is, said without the reader: how a text comes apart into lines, how a count, a word and a mnemonic are
written, and what the fields of an instruction are. The main statement is that the reader accepts these texts, with the programs
that they write, and no others.
-/

namespace PMachine

namespace Text

/-! ## Lines -/

/-- A line without the carriage return at its end, if there is one: it belongs to the line feed that follows. -/
def dropReturn (raw : List Char) : List Char := if raw.getLast? = some '\r' then raw.dropLast else raw

/-- The lines of a text that comes apart into these pieces at its line feeds. What follows the last line feed is a line only if
there is something. -/
def closeLines : List (List Char) → List (List Char)
  | [] => []
  | [last] => if last = [] then [] else [last]
  | raw :: rest => dropReturn raw :: closeLines rest

/-- All lines of a text. -/
def rawLines (text : List Char) : List (List Char) := closeLines (text.splitOn '\n')

/-- A line without its blanks. -/
def strip (raw : List Char) : List Char := raw.filter fun c => !isBlank c

/-- Whether a line says nothing: without its blanks it is empty or starts with `#`. -/
def IsPassedOver (raw : List Char) : Prop := strip raw = [] ∨ (strip raw).head? = some '#'

instance (raw : List Char) : Decidable (IsPassedOver raw) :=
  inferInstanceAs (Decidable (strip raw = [] ∨ (strip raw).head? = some '#'))

/-- The lines of a text that are not passed over, without their blanks. Each has its place among all lines, counted from 1. -/
def contents (text : List Char) : List Line :=
  (((rawLines text).zipIdx 1).filter fun raw => !decide (IsPassedOver raw.1)).map fun raw => ⟨raw.2, strip raw.1⟩

/-- A carriage return is a blank, so it does not matter whether it belongs to the line. -/
theorem strip_dropReturn (raw : List Char) : strip (dropReturn raw) = strip raw := by
  unfold dropReturn
  split
  · rename_i h
    obtain ⟨front, rfl⟩ := List.getLast?_eq_some_iff.mp h
    have hblank : isBlank '\r' = true := by decide
    simp [strip, hblank]
  · rfl

theorem isIdle_strip_iff (raw : List Char) : isIdle (strip raw) = true ↔ IsPassedOver raw := by
  unfold IsPassedOver
  cases strip raw with
  | nil => simp [isIdle]
  | cons c cs => simp [isIdle]

/-- What a raw line says depends on it without its blanks. -/
theorem ofRaw?_eq (number : Nat) (raw : List Char) :
    Line.ofRaw? number raw = if IsPassedOver raw then none else some ⟨number, strip raw⟩ := by
  have hidle := isIdle_strip_iff raw
  by_cases h : IsPassedOver raw
  · rw [if_pos h]
    exact if_pos (hidle.mpr h)
  · rw [if_neg h]
    exact if_neg (fun hi => h (hidle.mp hi))

theorem ofRaw?_congr {raw raw' : List Char} (h : strip raw = strip raw') (number : Nat) :
    Line.ofRaw? number raw = Line.ofRaw? number raw' := by
  change (if isIdle (strip raw) = true then none else some (Line.mk number (strip raw))) = _
  rw [h]
  rfl

/-- The pieces between line feeds and the lines say the same. -/
theorem filterMap_closeLines (pieces : List (List Char)) (number : Nat) :
    ((closeLines pieces).zipIdx number).filterMap (fun raw => Line.ofRaw? raw.2 raw.1) =
      (pieces.zipIdx number).filterMap fun raw => Line.ofRaw? raw.2 raw.1 := by
  induction pieces generalizing number with
  | nil => rfl
  | cons raw rest ih =>
    cases rest with
    | nil =>
      by_cases h : raw = []
      · subst h
        rfl
      · simp [closeLines, h]
    | cons next rest =>
      have hsame := ofRaw?_congr (strip_dropReturn raw) number
      simp only [closeLines, List.zipIdx_cons, List.filterMap_cons, hsame] at ih ⊢
      rw [ih (number + 1)]

/-- The significant lines are the lines of the text that are not passed over. -/
theorem significantLines_eq_contents (text : List Char) : significantLines text = contents text := by
  rw [significantLines, contents, rawLines, ← filterMap_closeLines]
  induction (closeLines (text.splitOn '\n')).zipIdx 1 with
  | nil => rfl
  | cons raw rest ih =>
    have hraw := ofRaw?_eq raw.2 raw.1
    by_cases h : IsPassedOver raw.1
    · rw [if_pos h] at hraw
      simp [hraw, h, ih]
    · rw [if_neg h] at hraw
      simp [hraw, h, ih]

/-- The lines that are not passed over, each found in the text at its number. -/
theorem mem_contents_iff {text : List Char} {line : Line} :
    line ∈ contents text ↔
      ∃ k raw, line.number = k + 1 ∧ (rawLines text)[k]? = some raw ∧ ¬IsPassedOver raw ∧ line.text = strip raw := by
  simp only [contents, List.mem_map, List.mem_filter, Prod.exists, List.mk_mem_zipIdx_iff_le_and_getElem?_sub]
  constructor
  · rintro ⟨raw, n, ⟨⟨hn, hraw⟩, hpass⟩, rfl⟩
    exact ⟨n - 1, raw, by simp only; omega, hraw, by simpa using hpass, rfl⟩
  · rintro ⟨k, raw, hk, hraw, hpass, htext⟩
    refine ⟨raw, k + 1, ⟨⟨by omega, by simpa using hraw⟩, by simpa using hpass⟩, ?_⟩
    rw [← hk, ← htext]

/-- Nothing is left of a text whose lines are all passed over. -/
theorem contents_eq_nil_iff {text : List Char} : contents text = [] ↔ ∀ raw ∈ rawLines text, IsPassedOver raw := by
  rw [List.eq_nil_iff_forall_not_mem]
  constructor
  · intro h raw hraw
    obtain ⟨k, hk⟩ := List.mem_iff_getElem?.mp hraw
    by_contra hpass
    exact h ⟨k + 1, strip raw⟩ (mem_contents_iff.mpr ⟨k, raw, rfl, hk, hpass, rfl⟩)
  · intro h line hline
    obtain ⟨k, raw, -, hraw, hpass, -⟩ := mem_contents_iff.mp hline
    exact hpass (h raw (List.mem_of_getElem? hraw))

/-! ## Numerals -/

/-- Whether characters are a decimal numeral, and of which number: one ASCII digit, or a numeral with one more digit. -/
inductive IsDecimal : List Char → Nat → Prop where
  | digit {c : Char} (hc : c.isDigit = true) : IsDecimal [c] (c.toNat - '0'.toNat)
  | concat {cs : List Char} {n : Nat} {c : Char} (h : IsDecimal cs n) (hc : c.isDigit = true) :
      IsDecimal (cs ++ [c]) (10 * n + (c.toNat - '0'.toNat))

/-- Whether characters declare a length: an optional plus sign and a numeral, of a number of 64 bits. -/
def IsCount (cs : List Char) (n : Nat) : Prop :=
  (IsDecimal cs n ∨ ∃ ds, cs = '+' :: ds ∧ IsDecimal ds n) ∧ n ≤ Numeral.maxNat64

/-- Whether characters are an integer, and which: an optional sign and a numeral. -/
inductive IsInteger : List Char → Int → Prop where
  | plain {cs : List Char} {n : Nat} (h : IsDecimal cs n) : IsInteger cs n
  | plus {cs : List Char} {n : Nat} (h : IsDecimal cs n) : IsInteger ('+' :: cs) n
  | minus {cs : List Char} {n : Nat} (h : IsDecimal cs n) : IsInteger ('-' :: cs) (-n)

/-- A numeral is a run of digits, at least one, with their value. -/
theorem isDecimal_iff {cs : List Char} {n : Nat} :
    IsDecimal cs n ↔ cs ≠ [] ∧ (∀ c ∈ cs, c.isDigit = true) ∧ Nat.ofDigitChars 10 cs 0 = n := by
  constructor
  · intro h
    induction h with
    | digit hc => exact ⟨List.cons_ne_nil _ _, by simpa using hc, by simp [Nat.ofDigitChars_cons, Nat.ofDigitChars_nil]⟩
    | @concat cs n c h hc ih =>
      obtain ⟨-, hall, hvalue⟩ := ih
      refine ⟨by simp, ?_, ?_⟩
      · intro d hd
        rcases List.mem_append.mp hd with hd | hd
        · exact hall d hd
        · rw [List.mem_singleton.mp hd]
          exact hc
      · rw [Nat.ofDigitChars_append, hvalue, Nat.ofDigitChars_cons, Nat.ofDigitChars_nil]
  · rintro ⟨hne, hall, rfl⟩
    induction cs using List.reverseRecOn with
    | nil => exact absurd rfl hne
    | append_singleton cs c ih =>
      have hc : c.isDigit = true := hall c (by simp)
      rw [Nat.ofDigitChars_append, Nat.ofDigitChars_cons, Nat.ofDigitChars_nil]
      by_cases hcs : cs = []
      · subst hcs
        rw [Nat.ofDigitChars_nil, Nat.mul_zero, Nat.zero_add]
        exact .digit hc
      · exact .concat (ih hcs fun d hd => hall d (List.mem_append_left _ hd)) hc

/-- A numeral starts with a digit, so not with a sign. -/
theorem not_isDecimal_of_not_isDigit {c : Char} {cs : List Char} {n : Nat} (hc : c.isDigit = false) :
    ¬IsDecimal (c :: cs) n := by
  intro h
  obtain ⟨-, hall, -⟩ := isDecimal_iff.mp h
  have hdigit := hall c List.mem_cons_self
  rw [hc] at hdigit
  cases hdigit

theorem isInteger_minus_iff {ds : List Char} {z : Int} : IsInteger ('-' :: ds) z ↔ ∃ n : Nat, IsDecimal ds n ∧ z = -n := by
  constructor
  · intro h
    cases h with
    | plain h => exact absurd h (not_isDecimal_of_not_isDigit (by decide))
    | minus h => exact ⟨_, h, rfl⟩
  · rintro ⟨n, hn, rfl⟩
    exact .minus hn

theorem isInteger_plus_iff {ds : List Char} {z : Int} : IsInteger ('+' :: ds) z ↔ ∃ n : Nat, IsDecimal ds n ∧ z = n := by
  constructor
  · intro h
    cases h with
    | plain h => exact absurd h (not_isDecimal_of_not_isDigit (by decide))
    | plus h => exact ⟨_, h, rfl⟩
  · rintro ⟨n, hn, rfl⟩
    exact .plus hn

/-- Without a sign an integer is a numeral. -/
theorem isInteger_iff_of_unsigned {cs : List Char} {z : Int} (hminus : ∀ ds, cs ≠ '-' :: ds) (hplus : ∀ ds, cs ≠ '+' :: ds) :
    IsInteger cs z ↔ ∃ n : Nat, IsDecimal cs n ∧ z = n := by
  constructor
  · intro h
    cases h with
    | plain h => exact ⟨_, h, rfl⟩
    | plus h => exact absurd rfl (hplus _)
    | minus h => exact absurd rfl (hminus _)
  · rintro ⟨n, hn, rfl⟩
    exact .plain hn

/-! ## Numerals that are read -/

/-- Digits are read exactly if they are a numeral of a number within the limit. -/
theorem readDigits_eq_ok_iff {limit n : Nat} {cs : List Char} :
    Numeral.readDigits limit cs = .ok n ↔ IsDecimal cs n ∧ n ≤ limit := by
  rw [isDecimal_iff, Numeral.readDigits]
  constructor
  · intro h
    split at h
    · cases h
    · rename_i hle
      split at h
      · cases h
      · rename_i hrun
        cases h
        obtain ⟨hne, hlen⟩ := not_or.mp hrun
        -- A run of digits that is not shorter than the characters is all of them.
        have hall : cs.takeWhile Char.isDigit = cs :=
          (List.takeWhile_prefix Char.isDigit).eq_of_length_le (by omega)
        rw [hall] at hle hne ⊢
        exact ⟨⟨hne, List.takeWhile_eq_self_iff.mp hall, rfl⟩, by omega⟩
  · rintro ⟨⟨hne, hall, rfl⟩, hle⟩
    have htake : cs.takeWhile Char.isDigit = cs := List.takeWhile_eq_self_iff.mpr hall
    rw [htake, if_neg (by omega), if_neg (by simp [hne])]

/-- A number is read exactly if the characters are a numeral of it with an optional plus sign, and it is within the limit. -/
theorem readNat_eq_ok_iff {limit n : Nat} {cs : List Char} :
    Numeral.readNat limit cs = .ok n ↔ (IsDecimal cs n ∨ ∃ ds, cs = '+' :: ds ∧ IsDecimal ds n) ∧ n ≤ limit := by
  unfold Numeral.readNat
  split
  · simp [isDecimal_iff]
  · rename_i ds
    have hsign : ¬IsDecimal ('+' :: ds) n := not_isDecimal_of_not_isDigit (by decide)
    simp [readDigits_eq_ok_iff, hsign]
  · rename_i hplus
    have hsign : ¬∃ ds, cs = '+' :: ds ∧ IsDecimal ds n := by
      rintro ⟨ds, h, -⟩
      exact hplus ds h
    rw [readDigits_eq_ok_iff, or_iff_left hsign]

/-- A line declares a length exactly if it is a count. -/
theorem count_eq_ok_iff {line : Line} {n : Nat} : line.count = .ok n ↔ IsCount line.text n := by
  rw [IsCount, ← readNat_eq_ok_iff, Line.count]
  split <;> simp [*]

/-- Digits are read as the word of a number that depends on theirs, `value`, if the limit is right for it. -/
theorem map_readDigits_eq_some_iff {limit : Nat} {cs : List Char} {w : Word} (value : Nat → Int)
    (hvalue : ∀ n ≤ limit, (Int32.ofInt (value n)).toInt = value n) (hlimit : ∀ n, w.toInt = value n → n ≤ limit) :
    (Numeral.readDigits limit cs).toOption.map (fun n => Int32.ofInt (value n)) = some w ↔
      ∃ n, IsDecimal cs n ∧ w.toInt = value n := by
  constructor
  · intro h
    cases hr : Numeral.readDigits limit cs with
    | error e =>
      rw [hr] at h
      cases h
    | ok n =>
      rw [hr] at h
      cases h
      obtain ⟨hn, hle⟩ := readDigits_eq_ok_iff.mp hr
      exact ⟨n, hn, hvalue n hle⟩
  · rintro ⟨n, hn, hw⟩
    have hword : Int32.ofInt (value n) = w := by rw [← hw, w.ofInt_toInt]
    rw [readDigits_eq_ok_iff.mpr ⟨hn, hlimit n hw⟩]
    exact congrArg some hword

/-- Without a minus sign the limit is the highest word. -/
theorem map_ofNat_readDigits_eq_some_iff {cs : List Char} {w : Word} :
    (Numeral.readDigits Numeral.maxWord cs).toOption.map Int32.ofNat = some w ↔ ∃ n : Nat, IsDecimal cs n ∧ w.toInt = n := by
  have hhi := w.toInt_lt
  refine map_readDigits_eq_some_iff (fun n => n) ?_ ?_
  · intro n hn
    rw [Numeral.maxWord] at hn
    exact Int32.toInt_ofInt_of_le (by omega) (by omega)
  · intro n hw
    rw [Numeral.maxWord]
    omega

/-- With a minus sign the lowest word has one more number. -/
theorem map_neg_readDigits_eq_some_iff {cs : List Char} {w : Word} :
    (Numeral.readDigits (Numeral.maxWord + 1) cs).toOption.map (fun n : Nat => Int32.ofInt (-n)) = some w ↔
      ∃ n : Nat, IsDecimal cs n ∧ w.toInt = -n := by
  have hlo := w.le_toInt
  refine map_readDigits_eq_some_iff (fun n => -n) ?_ ?_
  · intro n hn
    rw [Numeral.maxWord] at hn
    exact Int32.toInt_ofInt_of_le (by omega) (by omega)
  · intro n hw
    rw [Numeral.maxWord]
    omega

/-- A word is read exactly if the characters are its integer. -/
theorem readWord?_eq_some_iff {cs : List Char} {w : Word} : Numeral.readWord? cs = some w ↔ IsInteger cs w.toInt := by
  unfold Numeral.readWord?
  split
  · rw [map_neg_readDigits_eq_some_iff, isInteger_minus_iff]
  · rw [map_ofNat_readDigits_eq_some_iff, isInteger_plus_iff]
  · rename_i hminus hplus
    rw [map_ofNat_readDigits_eq_some_iff, isInteger_iff_of_unsigned hminus hplus]

/-! ## Mnemonics -/

/-- Whether a character is an upper-case ASCII letter or its lower-case form, which comes 32 code points behind it. -/
def SameLetter (upper c : Char) : Prop := c = upper ∨ c.toNat = upper.toNat + 32

/-- Whether characters spell the mnemonic of an opcode, each letter in either case. -/
def Spells (cs : List Char) (o : Opcode) : Prop := List.Forall₂ SameLetter o.mnemonic.toList cs

/-- Lower-case ASCII letters are raised to upper case, and all other characters stay as they are. -/
theorem toNat_toUpper (c : Char) :
    c.toUpper.toNat = if 0x61 ≤ c.toNat ∧ c.toNat ≤ 0x7A then c.toNat - 32 else c.toNat := by
  have hup : c.toUpper = if h : 'a'.val ≤ c.val ∧ c.val ≤ 'z'.val then Char.mk (c.val + ('A'.val - 'a'.val)) _ else c := rfl
  by_cases h : 'a'.val ≤ c.val ∧ c.val ≤ 'z'.val
  · rw [hup, dif_pos h]
    have hrange : 0x61 ≤ c.toNat ∧ c.toNat ≤ 0x7A := h
    -- The distance from a letter to its upper case is negative, so it is added with wrap-around.
    have hval : (c.val + ('A'.val - 'a'.val)).toNat = (c.toNat + 4294967264) % 4294967296 := UInt32.toNat_add _ _
    rw [if_pos hrange]
    refine hval.trans ?_
    omega
  · rw [hup, dif_neg h]
    exact (if_neg h).symm

/-- A letter is raised to an upper-case one exactly if it is this letter in either case. -/
theorem toUpper_eq_iff {c upper : Char} (h : 0x41 ≤ upper.toNat ∧ upper.toNat ≤ 0x5A) :
    c.toUpper = upper ↔ SameLetter upper c := by
  rw [SameLetter, ← Char.toNat_inj, ← Char.toNat_inj, toNat_toUpper]
  split <;> omega

/-- The letters of a mnemonic are upper-case ASCII letters. -/
theorem upper_of_mem_mnemonic (o : Opcode) : ∀ c ∈ o.mnemonic.toList, 0x41 ≤ c.toNat ∧ c.toNat ≤ 0x5A := by
  have hall : (o.mnemonic.toList.all fun c => 0x41 ≤ c.toNat && c.toNat ≤ 0x5A) = true := by cases o <;> rfl
  intro c hc
  simpa using List.all_eq_true.mp hall c hc

/-- Characters are raised to a text in upper case exactly if they are its letters in either case. -/
theorem map_toUpper_eq_iff {us cs : List Char} (h : ∀ u ∈ us, 0x41 ≤ u.toNat ∧ u.toNat ≤ 0x5A) :
    us = cs.map Char.toUpper ↔ List.Forall₂ SameLetter us cs := by
  induction us generalizing cs with
  | nil => cases cs <;> simp
  | cons u us ih =>
    cases cs with
    | nil => simp
    | cons c cs =>
      have hu : u = c.toUpper ↔ SameLetter u c := eq_comm.trans (toUpper_eq_iff (h u List.mem_cons_self))
      have hus : us = cs.map Char.toUpper ↔ List.Forall₂ SameLetter us cs :=
        ih fun v hv => h v (List.mem_cons_of_mem u hv)
      rw [List.map_cons, List.cons.injEq, List.forall₂_cons, hu, hus]

/-- An opcode is found exactly if the characters spell its mnemonic. -/
theorem ofMnemonic?_eq_some_iff {cs : List Char} {o : Opcode} : Opcode.ofMnemonic? cs = some o ↔ Spells cs o := by
  rw [Spells, ← map_toUpper_eq_iff (upper_of_mem_mnemonic o)]
  constructor
  · intro h
    simpa using List.find?_some h
  · intro h
    rw [Opcode.ofMnemonic?, ← h]
    cases o <;> decide

/-! ## Fields -/

/-- A text has one piece more than it has separators. -/
theorem length_splitOn (c : Char) (cs : List Char) : (cs.splitOn c).length = cs.count c + 1 := by
  induction cs with
  | nil => rfl
  | cons d cs ih =>
    rw [List.splitOn_cons_eq_if_modifyHead, List.count_cons]
    split
    · rw [List.length_cons, ih]
    · rw [List.length_modifyHead, ih]

/-- Whether a line is three fields with separators between them, and holds no other separator. -/
def HasFields (s : Separator) (text mnemonic level address : List Char) : Prop :=
  text = mnemonic ++ s.char :: (level ++ s.char :: address) ∧ text.count s.char = 2

/-- A line comes apart into its three fields. -/
theorem splitOn_eq_fields_iff {s : Separator} {text mnemonic level address : List Char} :
    text.splitOn s.char = [mnemonic, level, address] ↔ HasFields s text mnemonic level address := by
  constructor
  · intro h
    have htext : [s.char].intercalate (text.splitOn s.char) = text := List.intercalate_splitOn s.char
    have hcount := length_splitOn s.char text
    rw [h] at htext hcount
    refine ⟨?_, by simpa using hcount.symm⟩
    rw [← htext]
    simp [List.intercalate]
  · rintro ⟨rfl, hcount⟩
    -- The two separators between the fields are all there are.
    obtain ⟨hm, hl, ha⟩ : s.char ∉ mnemonic ∧ s.char ∉ level ∧ s.char ∉ address := by
      simp only [← List.count_eq_zero]
      simp only [List.count_append, List.count_cons_self] at hcount
      omega
    rw [List.splitOn_append_cons_self_of_not_mem hm, List.splitOn_append_cons_self_of_not_mem hl,
      List.splitOn_eq_singleton ha]

/-! ## Programs -/

/-- Whether a line without blanks is an instruction, and which: a mnemonic, and two integers that are words. -/
def IsInstruction (s : Separator) (text : List Char) (i : Instruction) : Prop :=
  ∃ mnemonic level address, HasFields s text mnemonic level address ∧ Spells mnemonic i.opcode ∧
    IsInteger level i.level.toInt ∧ IsInteger address i.address.toInt

/-- A field is read exactly if it is an integer that is a word. -/
theorem readField_eq_ok_iff {line : Nat} {field : List Char} {w : Word} :
    readField line field = .ok w ↔ IsInteger field w.toInt := by
  rw [← readWord?_eq_some_iff, readField]
  split <;> simp [*]

/-- Three fields are read exactly if they write the parts of the instruction. -/
theorem readFields_eq_ok_iff {line : Nat} {mnemonic level address : List Char} {i : Instruction} :
    readFields line mnemonic level address = .ok i ↔
      Spells mnemonic i.opcode ∧ IsInteger level i.level.toInt ∧ IsInteger address i.address.toInt := by
  have hlevel : readField line level = .ok i.level ↔ _ := readField_eq_ok_iff
  have haddress : readField line address = .ok i.address ↔ _ := readField_eq_ok_iff
  rw [← ofMnemonic?_eq_some_iff, ← hlevel, ← haddress, readFields]
  cases Opcode.ofMnemonic? mnemonic with
  | none => simp
  | some opcode =>
    cases readField line level with
    | error e => simp [bind, Except.bind]
    | ok l =>
      cases readField line address with
      | error e => simp [bind, Except.bind]
      | ok a =>
        cases i
        simp [bind, Except.bind, pure, Except.pure]

/-- A line is read exactly if it is an instruction. -/
theorem instruction_eq_ok_iff {s : Separator} {line : Line} {i : Instruction} :
    line.instruction s = .ok i ↔ IsInstruction s line.text i := by
  rw [Line.instruction]
  constructor
  · intro h
    split at h
    · rename_i mnemonic level address hfields
      exact ⟨mnemonic, level, address, splitOn_eq_fields_iff.mp hfields, readFields_eq_ok_iff.mp h⟩
    · cases h
  · rintro ⟨mnemonic, level, address, hfields, hread⟩
    rw [splitOn_eq_fields_iff.mpr hfields]
    exact readFields_eq_ok_iff.mpr hread

/-- Every element of a list is read exactly if each is. -/
theorem mapM_eq_ok_iff {α β ε : Type} {f : α → Except ε β} {xs : List α} {ys : List β} :
    xs.mapM f = .ok ys ↔ List.Forall₂ (fun x y => f x = .ok y) xs ys := by
  induction xs generalizing ys with
  | nil => cases ys <;> simp [pure, Except.pure]
  | cons x xs ih =>
    rw [List.mapM_cons]
    cases hx : f x with
    | error e => cases ys <;> simp [bind, Except.bind, hx]
    | ok y =>
      cases hxs : xs.mapM f with
      | error e => cases ys <;> simp [bind, Except.bind, ← ih, hx, hxs]
      | ok ys' => cases ys <;> simp [bind, Except.bind, pure, Except.pure, ← ih, hx, hxs]

/-- A first line that declares no length decides. -/
theorem readLines_of_count_eq_error {s : Separator} {first : Line} {body : List Line} {e : LoadError}
    (h : first.count = .error e) : readLines s (first :: body) = .error e := by
  rw [readLines, h]
  rfl

/-- A length that is not that of the other lines decides before any of them is read. -/
theorem readLines_of_count_ne {s : Separator} {first : Line} {body : List Line} {declared : Nat}
    (h : first.count = .ok declared) (hne : declared ≠ body.length) :
    readLines s (first :: body) = .error (.countMismatch declared body.length) := by
  simp only [readLines, h, bind, Except.bind, if_neg hne]
  rfl

/-- Under the right length the other lines are read. -/
theorem readLines_of_count_eq {s : Separator} {first : Line} {body : List Line} (h : first.count = .ok body.length) :
    readLines s (first :: body) = (body.mapM (Line.instruction s)).map Program.ofList := by
  simp only [readLines, h, bind, Except.bind, if_true]
  cases body.mapM (Line.instruction s) <;> rfl

/-- Lines are a program if the first declares the number of the others, and each of the others is an instruction. -/
theorem readLines_eq_ok_iff {s : Separator} {lines : List Line} {p : Program} :
    readLines s lines = .ok p ↔ ∃ first body, lines = first :: body ∧ first.count = .ok body.length ∧
      body.mapM (Line.instruction s) = .ok p.instructions.toList := by
  constructor
  · intro h
    cases lines with
    | nil => cases h
    | cons first body =>
      refine ⟨first, body, rfl, ?_⟩
      cases hc : first.count with
      | error e =>
        rw [readLines_of_count_eq_error hc] at h
        cases h
      | ok declared =>
        by_cases hd : declared = body.length
        · subst hd
          rw [readLines_of_count_eq hc] at h
          cases hm : body.mapM (Line.instruction s) with
          | error e =>
            rw [hm] at h
            cases h
          | ok is =>
            rw [hm] at h
            cases h
            exact ⟨rfl, rfl⟩
        · rw [readLines_of_count_ne hc hd] at h
          cases h
  · rintro ⟨first, body, rfl, hc, hm⟩
    rw [readLines_of_count_eq hc, hm]
    rfl

end Text

/-- The texts that can be read, and what they are read as. Of the lines that are not passed over the first declares how many
others there are, and each of the others is an instruction; the program is these instructions, in this order. -/
theorem Program.parse_eq_ok_iff (s : Separator) (text : String) (p : Program) :
    Program.parse s text = .ok p ↔ ∃ first body, Text.contents text.toList = first :: body ∧
      Text.IsCount first.text body.length ∧
      List.Forall₂ (fun line i => Text.IsInstruction s line.text i) body p.instructions.toList := by
  rw [Program.parse, Text.significantLines_eq_contents, Text.readLines_eq_ok_iff]
  simp only [Text.count_eq_ok_iff, Text.mapM_eq_ok_iff, Text.instruction_eq_ok_iff]

end PMachine
