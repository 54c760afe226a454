import PMachine.Proofs.Text.Field
import PMachine.Proofs.Text.Format

/-!
# Reading what was written

The canonical text of a program is read back as that program, whichever separator divides its fields. A text that can be read
declares a length of at most 64 bits, so its program has a canonical text that is read back too: reading and writing again
leaves a canonical text as it is.
-/

namespace PMachine

namespace Text

/-! ## Lines that are significant as they stand -/

/-- A text that is a significant line as it stands: it says something, and it holds no blank. -/
def IsBare (text : List Char) : Prop := isIdle text = false ∧ ∀ c ∈ text, isBlank c = false

/-- Nothing is dropped from a bare line. -/
theorem IsBare.ofRaw? {text : List Char} (h : IsBare text) (number : Nat) :
    Line.ofRaw? number text = some ⟨number, text⟩ := by
  obtain ⟨hi, hb⟩ := h
  have hf : (text.filter fun c => !isBlank c) = text := by
    rw [List.filter_eq_self]
    intro c hc
    simp [hb c hc]
  simp [Line.ofRaw?, hf, hi]

/-- A bare line holds no line feed, which is a blank. -/
theorem IsBare.newline_not_mem {text : List Char} (h : IsBare text) : '\n' ∉ text := by
  intro hc
  exact absurd (h.2 '\n' hc) (by decide)

/-- A text that starts with a character of a field and holds no blank is bare. -/
theorem isBare_of_head {c : Char} {cs : List Char} (hc : isFieldChar c = true) (hcs : ∀ d ∈ cs, isBlank d = false) :
    IsBare (c :: cs) := by
  refine ⟨by simp [isIdle, ne_hash_of_isFieldChar hc], ?_⟩
  intro d hd
  rcases List.mem_cons.mp hd with rfl | hd
  · exact isBlank_of_isFieldChar hc
  · exact hcs d hd

/-- Lines that are each ended by a line feed come apart at the line feeds, and nothing stands behind the last one. -/
theorem splitOn_lines {ls : List (List Char)} (h : ∀ l ∈ ls, '\n' ∉ l) :
    (ls.flatMap (· ++ ['\n'])).splitOn '\n' = ls ++ [[]] := by
  induction ls with
  | nil => rfl
  | cons l ls ih =>
    have hl : '\n' ∉ l := h l List.mem_cons_self
    have hls := ih fun l' hl' => h l' (List.mem_cons_of_mem l hl')
    rw [List.flatMap_cons, List.append_assoc, List.singleton_append, List.splitOn_append_cons_self_of_not_mem hl, hls,
      List.cons_append]

/-- Of bare lines all are significant, from whatever line on they are counted. -/
theorem filterMap_ofRaw? {ls : List (List Char)} (h : ∀ l ∈ ls, IsBare l) (number : Nat) :
    (ls.zipIdx number).filterMap (fun raw => Line.ofRaw? raw.2 raw.1) =
      (ls.zipIdx number).map fun l => ⟨l.2, l.1⟩ := by
  induction ls generalizing number with
  | nil => rfl
  | cons l ls ih =>
    have hl := (h l List.mem_cons_self).ofRaw? number
    have hls := ih (fun l' hl' => h l' (List.mem_cons_of_mem l hl')) (number + 1)
    simp only [List.zipIdx_cons, List.filterMap_cons, hl, hls, List.map_cons]

/-- The significant lines of a text of bare lines are these lines, in their places. -/
theorem significantLines_lines {ls : List (List Char)} (h : ∀ l ∈ ls, IsBare l) :
    significantLines (ls.flatMap (· ++ ['\n'])) = (ls.zipIdx 1).map fun l => ⟨l.2, l.1⟩ := by
  have hlast : (([[]] : List (List Char)).zipIdx (1 + ls.length)).filterMap (fun raw => Line.ofRaw? raw.2 raw.1) = [] :=
    rfl
  rw [significantLines, splitOn_lines fun l hl => (h l hl).newline_not_mem, List.zipIdx_append, List.filterMap_append,
    hlast, List.append_nil]
  exact filterMap_ofRaw? h 1

/-! ## The lines of a canonical text -/

/-- The text of an instruction is its three fields with the separator between them. -/
theorem toList_render (c : Char) (i : Instruction) :
    (i.render c).toList =
      [c].intercalate [i.opcode.mnemonic.toList, (Numeral.ofWord i.level).toList, (Numeral.ofWord i.address).toList] := by
  simp [Instruction.render, List.intercalate]

/-- The text of an instruction comes apart into its three fields. -/
theorem splitOn_render (s : Separator) (i : Instruction) :
    (i.render s.char).toList.splitOn s.char =
      [i.opcode.mnemonic.toList, (Numeral.ofWord i.level).toList, (Numeral.ofWord i.address).toList] := by
  rw [toList_render]
  apply List.splitOn_intercalate
  · intro field hf hs
    simp only [List.mem_cons, List.not_mem_nil, or_false] at hf
    rcases hf with rfl | rfl | rfl
    · exact ne_char_of_isFieldChar s (isFieldChar_of_mem_mnemonic _ _ hs) rfl
    · exact ne_char_of_isFieldChar s (isFieldChar_of_mem_ofWord _ _ hs) rfl
    · exact ne_char_of_isFieldChar s (isFieldChar_of_mem_ofWord _ _ hs) rfl
  · exact List.cons_ne_nil _ _

/-- The text of an instruction is read back, on whatever line it stands. -/
theorem instruction_render (s : Separator) (i : Instruction) (number : Nat) :
    Line.instruction s ⟨number, (i.render s.char).toList⟩ = .ok i := by
  simp only [Line.instruction, splitOn_render, readFields, Opcode.ofMnemonic?_mnemonic, readField,
    Numeral.readWord?_ofWord]
  rfl

/-- The text of an instruction is a bare line. -/
theorem isBare_render (s : Separator) (i : Instruction) : IsBare (i.render s.char).toList := by
  have hblank : ∀ c ∈ (i.render s.char).toList, isBlank c = false := by
    intro c hc
    simp only [Instruction.render, String.toList_append, String.toList_singleton, List.mem_append,
      List.mem_singleton] at hc
    rcases hc with (((hc | rfl) | hc) | rfl) | hc
    · exact isBlank_of_isFieldChar (isFieldChar_of_mem_mnemonic _ c hc)
    · exact s.isBlank_char
    · exact isBlank_of_isFieldChar (isFieldChar_of_mem_ofWord _ c hc)
    · exact s.isBlank_char
    · exact isBlank_of_isFieldChar (isFieldChar_of_mem_ofWord _ c hc)
  refine ⟨?_, hblank⟩
  rw [toList_render]
  cases i.opcode <;> rfl

/-- The number of instructions is a bare line. -/
theorem isBare_repr (n : Nat) : IsBare n.repr.toList := by
  have hchars := isFieldChar_of_mem_repr n
  obtain ⟨c, cs, hcs, -, -⟩ := Numeral.toDigits_eq_cons n
  rw [Nat.toList_repr, hcs] at hchars ⊢
  exact isBare_of_head (hchars c List.mem_cons_self)
    fun d hd => isBlank_of_isFieldChar (hchars d (List.mem_cons_of_mem c hd))

/-- A canonical text is its lines, each ended by a line feed. -/
theorem toList_program_render (s : Separator) (p : Program) :
    (p.render s).toList = ((p.canonicalLines s).map String.toList).flatMap (· ++ ['\n']) := by
  simp [Program.render, String.toList_join, List.flatMap_map]

/-- The significant lines of a canonical text are its lines. -/
theorem significantLines_render (s : Separator) (p : Program) :
    significantLines (p.render s).toList =
      (((p.canonicalLines s).map String.toList).zipIdx 1).map fun l => ⟨l.2, l.1⟩ := by
  rw [toList_program_render]
  apply significantLines_lines
  intro l hl
  obtain ⟨line, hline, rfl⟩ := List.mem_map.mp hl
  rcases List.mem_cons.mp hline with rfl | hline
  · exact isBare_repr p.size
  · obtain ⟨i, -, rfl⟩ := List.mem_map.mp hline
    exact isBare_render s i

/-- The lines of instructions are read back, from whatever line on they stand. -/
theorem mapM_instruction_render (s : Separator) (is : List Instruction) (number : Nat) :
    (((is.map fun i => (i.render s.char).toList).zipIdx number).map fun l => (⟨l.2, l.1⟩ : Line)).mapM
      (Line.instruction s) = .ok is := by
  induction is generalizing number with
  | nil => rfl
  | cons i is ih =>
    rw [List.map_cons, List.zipIdx_cons, List.map_cons, List.mapM_cons, instruction_render, ih]
    rfl

/-! ## What the declared length bounds -/

/-- A text that can be read is a program of a length of at most 64 bits. -/
theorem size_le_of_parse {s : Separator} {text : String} {p : Program} (h : Program.parse s text = .ok p) :
    p.size ≤ Numeral.maxNat64 := by
  obtain ⟨first, body, -, hc, hm⟩ := readLines_eq_ok_iff.mp h
  have hlen : body.length = p.size := (mapM_eq_ok_iff.mp hm).length_eq
  rw [← hlen]
  exact (count_eq_ok_iff.mp hc).2

end Text

/-- A program of a length of at most 64 bits is read back from its canonical text. -/
theorem Program.parse_render_of_le {s : Separator} {p : Program} (h : p.size ≤ Numeral.maxNat64) :
    Program.parse s (p.render s) = .ok p := by
  rw [Program.parse, Text.significantLines_render, Text.readLines_eq_ok_iff]
  refine ⟨_, _, rfl, ?_, ?_⟩
  · simp only [Text.Line.count, Numeral.readNat_repr h, List.length_map, List.length_zipIdx, Array.length_toList]
    rfl
  · rw [List.map_map]
    exact Text.mapM_instruction_render s p.instructions.toList 2

/-- Every character that may divide fields divides them so that a program is read back from its canonical text; and whatever
text a program was read from, reading and writing again leaves its canonical text as it is. -/
theorem Program.parse_render {c : Char} {s : Separator} (hs : Separator.ofChar c = .ok s) :
    s.char = c ∧ (∀ p : Program, p.size ≤ Numeral.maxNat64 → Program.parse s (p.render s) = .ok p) ∧
      ∀ (text : String) (p : Program), Program.parse s text = .ok p →
        (Program.parse s (p.render s)).map (Program.render s) = .ok (p.render s) := by
  refine ⟨?_, fun p hp => parse_render_of_le hp, ?_⟩
  · unfold Separator.ofChar at hs
    split at hs
    · cases hs
      rfl
    · cases hs
  · intro text p h
    rw [parse_render_of_le (Text.size_le_of_parse h)]
    rfl

/-- With a bar between the fields: a program with the extreme words is read back, and the canonical text of a program that was
read from a text with a comment, blanks and lower case stays as it is. -/
theorem Program.parse_render_bar :
    let bar : Separator := ⟨'|', by decide⟩
    let extremes := Program.ofList [⟨.lit, 2147483647, -2147483648⟩, ⟨.opr, -3, 0⟩]
    let loose := "# loose\n +1\r\n\n l i t | -0 | +07"
    let tidy := Program.ofList [⟨.lit, 0, 7⟩]
    Separator.ofChar '|' = .ok bar ∧ Program.parse bar (extremes.render bar) = .ok extremes ∧
      Program.parse bar loose = .ok tidy ∧
      (Program.parse bar (tidy.render bar)).map (Program.render bar) = .ok (tidy.render bar) := by
  intro bar extremes loose tidy
  have hbar : Separator.ofChar '|' = .ok bar := rfl
  have htidy : (Program.parse bar loose).toOption = some tidy := by decide +kernel
  have hloose : Program.parse bar loose = .ok tidy := by
    cases hp : Program.parse bar loose with
    | error e =>
      rw [hp] at htidy
      cases htidy
    | ok p =>
      rw [hp] at htidy
      exact congrArg Except.ok (Option.some.inj htidy)
  obtain ⟨-, hread, hagain⟩ := Program.parse_render hbar
  exact ⟨hbar, hread extremes (by decide), hloose, hagain loose tidy hloose⟩

end PMachine
