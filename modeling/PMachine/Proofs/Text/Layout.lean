import PMachine.Proofs.Text.LetterCase

/-!
# The layout of a text

What of a text does not matter to its program: the blanks, the lines that are passed over and the case of its letters. Blanks can
be put in anywhere. Lines that are passed over move the lines behind them, and with them the line of an error. A letter in
the other case changes at most which characters an error shows.
-/

namespace PMachine

namespace Text

/-! ## Blanks -/

/-- Whether the second text is the first with blanks put in, none of which is a line feed. -/
inductive Padded : List Char → List Char → Prop where
  | nil : Padded [] []
  | keep {c : Char} {text padded : List Char} (h : Padded text padded) : Padded (c :: text) (c :: padded)
  | blank {c : Char} {text padded : List Char} (hc : isBlank c = true) (hne : c ≠ '\n') (h : Padded text padded) :
      Padded text (c :: padded)

/-- A text without the blanks that do not end a line. -/
def squeeze (text : List Char) : List Char := text.filter fun c => c = '\n' || !isBlank c

/-- The lines of a text without blanks are its lines without theirs. -/
theorem splitOn_squeeze (text : List Char) : (squeeze text).splitOn '\n' = (text.splitOn '\n').map strip := by
  induction text with
  | nil => rfl
  | cons c text ih =>
    by_cases hc : c = '\n'
    · subst hc
      have hkeep : squeeze ('\n' :: text) = '\n' :: squeeze text := rfl
      rw [hkeep, List.splitOn_cons_eq_if_modifyHead, List.splitOn_cons_eq_if_modifyHead, ih]
      rfl
    · cases hblank : isBlank c with
      | true =>
        have hdrop : squeeze (c :: text) = squeeze text := by simp [squeeze, hc, hblank]
        rw [hdrop, ih, List.splitOn_cons_eq_if_modifyHead, if_neg (by simpa using hc)]
        cases text.splitOn '\n' with
        | nil => rfl
        | cons raw rest => simp [strip, hblank]
      | false =>
        have hkeep : squeeze (c :: text) = c :: squeeze text := by simp [squeeze, hblank]
        rw [hkeep, List.splitOn_cons_eq_if_modifyHead, List.splitOn_cons_eq_if_modifyHead, if_neg (by simpa using hc),
          if_neg (by simpa using hc), ih]
        cases text.splitOn '\n' with
        | nil => rfl
        | cons raw rest => simp [strip, hblank]

theorem strip_strip (raw : List Char) : strip (strip raw) = strip raw := by
  simp [strip]

theorem significantFrom_map_strip (number : Nat) (raws : List (List Char)) :
    significantFrom number (raws.map strip) = significantFrom number raws := by
  induction raws generalizing number with
  | nil => rfl
  | cons raw raws ih => rw [List.map_cons, significantFrom_cons, significantFrom_cons, ofRaw?_congr (strip_strip raw), ih]

/-- The significant lines of a text do not depend on its blanks. -/
theorem significantLines_squeeze (text : List Char) : significantLines (squeeze text) = significantLines text := by
  rw [significantLines_eq, significantLines_eq, splitOn_squeeze, significantFrom_map_strip]

/-- Putting in blanks changes nothing but the blanks. -/
theorem Padded.squeeze_eq {text padded : List Char} (h : Padded text padded) : squeeze padded = squeeze text := by
  induction h with
  | nil => rfl
  | keep h ih => simp only [squeeze, List.filter_cons] at ih ⊢; rw [ih]
  | blank hc hne h ih =>
    rw [← ih]
    simp [squeeze, hc, hne]

/-! ## Lines that are passed over -/

/-- A line that has moved to another place. -/
def Line.renumber (place : Nat → Nat) (line : Line) : Line := ⟨place line.number, line.text⟩

end Text

/-- The error of lines that have moved to other places. -/
def LoadError.renumber (place : Nat → Nat) : LoadError → LoadError
  | .missingCount => .missingCount
  | .invalidCount line token => .invalidCount (place line) token
  | .unknownOpcode line token => .unknownOpcode (place line) token
  | .malformedInstruction line separator text => .malformedInstruction (place line) separator text
  | .invalidNumber line token => .invalidNumber (place line) token
  | .countMismatch declared found => .countMismatch declared found

namespace Text

theorem count_renumber (place : Nat → Nat) (line : Line) :
    (line.renumber place).count = line.count.mapError (LoadError.renumber place) := by
  simp only [Line.count, Line.renumber]
  cases Numeral.readNat Numeral.maxNat64 line.text <;> rfl

theorem readField_renumber (place : Nat → Nat) (line : Nat) (field : List Char) :
    readField (place line) field = (readField line field).mapError (LoadError.renumber place) := by
  simp only [readField]
  cases Numeral.readWord? field <;> rfl

theorem instruction_renumber (s : Separator) (place : Nat → Nat) (line : Line) :
    (line.renumber place).instruction s = (line.instruction s).mapError (LoadError.renumber place) := by
  simp only [Line.instruction, Line.renumber]
  split
  · rename_i mnemonic level address _
    simp only [readFields, readField_renumber]
    cases Opcode.ofMnemonic? mnemonic with
    | none => rfl
    | some opcode =>
      cases readField line.number level with
      | error e => rfl
      | ok l => cases readField line.number address <;> rfl
  · rfl

/-- Lines that have moved are read as the same program, and an error moves with its line. -/
theorem readLines_renumber (s : Separator) (place : Nat → Nat) (lines : List Line) :
    readLines s (lines.map (Line.renumber place)) = (readLines s lines).mapError (LoadError.renumber place) :=
  readLines_map rfl (fun _ _ => rfl) (count_renumber place) (instruction_renumber s place) lines

/-- A text with lines put in: those of `gap n` stand in front of line number `n`, each ended by a line feed. -/
def insertLines (gap : Nat → List (List Char)) (text : List Char) : List Char :=
  ['\n'].intercalate (((text.splitOn '\n').zipIdx 1).flatMap fun line => gap line.2 ++ [line.1])

/-- The number of lines that are put in before line number `n`. -/
def inserted (gap : Nat → List (List Char)) : Nat → Nat
  | 0 => 0
  | n + 1 => inserted gap n + (gap (n + 1)).length

/-- The lines of a text with lines put in. -/
theorem splitOn_insertLines {gap : Nat → List (List Char)} (hgap : ∀ n, ∀ l ∈ gap n, '\n' ∉ l) (text : List Char) :
    (insertLines gap text).splitOn '\n' =
      ((text.splitOn '\n').zipIdx 1).flatMap fun line => gap line.2 ++ [line.1] := by
  apply List.splitOn_intercalate
  · intro raw hraw
    obtain ⟨line, hline, hraw⟩ := List.mem_flatMap.mp hraw
    rcases List.mem_append.mp hraw with hraw | hraw
    · exact hgap line.2 raw hraw
    · rw [List.mem_singleton.mp hraw]
      exact newline_not_mem_of_mem_splitOn (List.fst_mem_of_mem_zipIdx hline)
  · cases hs : text.splitOn '\n' with
    | nil => exact absurd hs (List.splitOn_ne_nil '\n' text)
    | cons first rest => simp

/-- Lines that are passed over say nothing, wherever they stand. -/
theorem significantFrom_passedOver {raws : List (List Char)} (h : ∀ raw ∈ raws, IsPassedOver raw) (number : Nat) :
    significantFrom number raws = [] := by
  rw [significantFrom, List.filterMap_eq_nil_iff]
  intro raw hraw
  rw [ofRaw?_eq, if_pos (h raw.1 (List.fst_mem_of_mem_zipIdx hraw))]

/-- A raw line says the same in another place. -/
theorem ofRaw?_renumber (place : Nat → Nat) (number : Nat) (raw : List Char) :
    Line.ofRaw? (place number) raw = (Line.ofRaw? number raw).map (Line.renumber place) := by
  rw [ofRaw?_eq, ofRaw?_eq]
  split <;> rfl

/-- From line number `n + 1` on every line is moved by the lines put in before it, if those before line number `n` have been put
in already. -/
theorem significantFrom_insert {gap : Nat → List (List Char)} (hgap : ∀ n, ∀ l ∈ gap n, IsPassedOver l)
    (raws : List (List Char)) (n : Nat) :
    significantFrom (n + 1 + inserted gap n) ((raws.zipIdx (n + 1)).flatMap fun line => gap line.2 ++ [line.1]) =
      (significantFrom (n + 1) raws).map (Line.renumber fun n => n + inserted gap n) := by
  induction raws generalizing n with
  | nil => rfl
  | cons raw raws ih =>
    have hplace : n + 1 + inserted gap n + (gap (n + 1)).length = n + 1 + inserted gap (n + 1) := by
      rw [inserted]
      omega
    have hnext : n + 1 + inserted gap (n + 1) + 1 = n + 1 + 1 + inserted gap (n + 1) := by omega
    rw [List.zipIdx_cons, List.flatMap_cons, List.append_assoc, List.singleton_append, significantFrom_append,
      significantFrom_passedOver (hgap (n + 1)), List.nil_append, hplace, significantFrom_cons, significantFrom_cons, hnext,
      ih (n + 1), List.map_append, ofRaw?_renumber (fun n => n + inserted gap n)]
    cases Line.ofRaw? (n + 1) raw <;> rfl

/-- The significant lines of a text with lines put in that are passed over are those of the text, each moved by the number of
lines put in before it. -/
theorem significantLines_insertLines {gap : Nat → List (List Char)}
    (hgap : ∀ n, ∀ l ∈ gap n, '\n' ∉ l ∧ IsPassedOver l) (text : List Char) :
    significantLines (insertLines gap text) =
      (significantLines text).map (Line.renumber fun n => n + inserted gap n) := by
  rw [significantLines_eq, significantLines_eq, splitOn_insertLines fun n l hl => (hgap n l hl).1]
  exact significantFrom_insert (fun n l hl => (hgap n l hl).2) (text.splitOn '\n') 0

end Text

open Text

/-- What of a text does not matter, in three parts.
1. With blanks put in anywhere, none of which is a line feed, a text is read as before, with the same error if there is one.
2. With lines put in that are passed over, each in front of some line and ended by a line feed, a text is read as the same
   program, or the line of its error has moved by the number of lines put in before it.
3. With letters in the other case a text that is read as a program is read as the same program. -/
theorem Program.parse_ignores_layout (s : Separator) (text : String) :
    (∀ padded : String, Padded text.toList padded.toList → Program.parse s padded = Program.parse s text) ∧
    (∀ gap : Nat → List (List Char), (∀ n, ∀ l ∈ gap n, '\n' ∉ l ∧ IsPassedOver l) →
      Program.parse s (String.ofList (insertLines gap text.toList)) =
        (Program.parse s text).mapError (LoadError.renumber fun n => n + inserted gap n)) ∧
    ∀ (other : String) (p : Program), List.Forall₂ SameButCase text.toList other.toList →
      Program.parse s text = .ok p → Program.parse s other = .ok p := by
  refine ⟨?_, ?_, ?_⟩
  · intro padded h
    rw [Program.parse, Program.parse, ← significantLines_squeeze, h.squeeze_eq, significantLines_squeeze]
  · intro gap hgap
    rw [Program.parse, Program.parse, String.toList_ofList, significantLines_insertLines hgap, readLines_renumber]
  · intro other p h hp
    have hupper : (Program.parse s other).mapError LoadError.upperCase =
        (Program.parse s text).mapError LoadError.upperCase := by
      rw [Program.parse, Program.parse, ← readLines_toUpper, ← readLines_toUpper, map_toUpper_of_sameButCase h]
    rw [hp] at hupper
    cases ho : Program.parse s other with
    | ok q =>
      rw [ho] at hupper
      cases hupper
      rfl
    | error e =>
      rw [ho] at hupper
      cases hupper

/-- A text with blanks in a mnemonic and at the ends of lines; the same text in another case; and an error that two lines in front
of the count and one in front of its own line move by three. -/
theorem Program.parse_ignores_layout_moved :
    let text := "1\nlit;0;5"
    let wrong := "1\nlit;0;x"
    let p := Program.ofList [⟨.lit, 0, 5⟩]
    let gap : Nat → List (List Char) := fun n => if n = 1 then ["# one".toList, []] else if n = 2 then ["\t#".toList] else []
    Program.parse .semicolon text = .ok p ∧ Program.parse .semicolon "1\r\nl\u2028it;0;5 " = .ok p ∧
      Program.parse .semicolon "1\nLiT;0;5" = .ok p ∧
      Program.parse .semicolon wrong = .error (.invalidNumber 2 "x") ∧
      String.ofList (insertLines gap wrong.toList) = "# one\n\n1\n\t#\nlit;0;x" ∧
      Program.parse .semicolon "# one\n\n1\n\t#\nlit;0;x" = .error (.invalidNumber 5 "x") := by
  intro text wrong p gap
  have htext : Program.parse .semicolon text = .ok p := by decide +kernel
  have hwrong : Program.parse .semicolon wrong = .error (.invalidNumber 2 "x") := by decide +kernel
  have hmoved : String.ofList (insertLines gap wrong.toList) = "# one\n\n1\n\t#\nlit;0;x" := by decide +kernel
  have hlist : text.toList = ['1', '\n', 'l', 'i', 't', ';', '0', ';', '5'] := by decide
  have hpadded : Padded text.toList "1\r\nl\u2028it;0;5 ".toList := by
    have hlist' : "1\r\nl\u2028it;0;5 ".toList = ['1', '\r', '\n', 'l', '\u2028', 'i', 't', ';', '0', ';', '5', ' '] := by
      decide +kernel
    rw [hlist, hlist']
    exact .keep (.blank rfl (by decide) (.keep (.keep (.blank rfl (by decide) (.keep (.keep (.keep (.keep (.keep (.keep
      (.blank rfl (by decide) .nil)))))))))))
  have hcase : List.Forall₂ SameButCase text.toList "1\nLiT;0;5".toList := by
    have hlist' : "1\nLiT;0;5".toList = ['1', '\n', 'L', 'i', 'T', ';', '0', ';', '5'] := by decide
    have hl : SameButCase 'l' 'L' := .inr ⟨'L', by decide, .inr rfl, .inl rfl⟩
    have ht : SameButCase 't' 'T' := .inr ⟨'T', by decide, .inr rfl, .inl rfl⟩
    rw [hlist, hlist']
    exact .cons (.inl rfl) (.cons (.inl rfl) (.cons hl (.cons (.inl rfl) (.cons ht
      (List.forall₂_same.mpr fun _ _ => .inl rfl)))))
  have hgap : ∀ n, ∀ l ∈ gap n, '\n' ∉ l ∧ IsPassedOver l := by
    intro n l hl
    dsimp only [gap] at hl
    split at hl
    · revert l
      decide
    · split at hl
      · revert l
        decide
      · exact absurd hl List.not_mem_nil
  obtain ⟨hblank, -, hother⟩ := Program.parse_ignores_layout .semicolon text
  obtain ⟨-, hlines, -⟩ := Program.parse_ignores_layout .semicolon wrong
  have hline := hlines gap hgap
  rw [hmoved, hwrong] at hline
  exact ⟨htext, (hblank _ hpadded).trans htext, hother _ p hcase htext, hwrong, hmoved, hline⟩

end PMachine
