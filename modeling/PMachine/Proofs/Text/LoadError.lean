import PMachine.Proofs.Text.Format

/-!
# Why a text cannot be read

Which fault of a text is reported, and where. The declared length is looked at before any instruction is, and of the
instructions the first that is wrong decides; in a line the number of fields comes first, then the fields from left to right. The
main statement gives for every error the texts that lead to it.
-/

namespace PMachine

namespace Text

/-! ## Lines that are no instructions -/

/-- Why a line is no instruction. Each reason stands for lines without those in front of it. -/
inductive Refuses (s : Separator) (line : Line) : LoadError → Prop where
  /-- There are not three fields. -/
  | fields (h : line.text.count s.char ≠ 2) :
      Refuses s line (.malformedInstruction line.number s.char (String.ofList line.text))
  /-- The first field is no mnemonic. -/
  | opcode {mnemonic level address : List Char} (h : HasFields s line.text mnemonic level address)
      (hm : ∀ o, ¬Spells mnemonic o) : Refuses s line (.unknownOpcode line.number (String.ofList mnemonic))
  /-- The second field is no word. -/
  | level {mnemonic level address : List Char} {o : Opcode} (h : HasFields s line.text mnemonic level address)
      (hm : Spells mnemonic o) (hl : ∀ w : Word, ¬IsInteger level w.toInt) :
      Refuses s line (.invalidNumber line.number (String.ofList level))
  /-- The third field is no word. -/
  | address {mnemonic level address : List Char} {o : Opcode} {l : Word} (h : HasFields s line.text mnemonic level address)
      (hm : Spells mnemonic o) (hl : IsInteger level l.toInt) (ha : ∀ w : Word, ¬IsInteger address w.toInt) :
      Refuses s line (.invalidNumber line.number (String.ofList address))

/-- A field is refused exactly if it is no word. -/
theorem readField_eq_error_iff {line : Nat} {field : List Char} {e : LoadError} :
    readField line field = .error e ↔
      (∀ w : Word, ¬IsInteger field w.toInt) ∧ e = .invalidNumber line (String.ofList field) := by
  simp only [← readWord?_eq_some_iff, readField]
  cases Numeral.readWord? field with
  | none => simp [eq_comm]
  | some w => simp

/-- A text has three fields exactly if it has two separators. -/
theorem exists_hasFields_iff {s : Separator} {text : List Char} :
    (∃ mnemonic level address, HasFields s text mnemonic level address) ↔ text.count s.char = 2 := by
  constructor
  · rintro ⟨mnemonic, level, address, h⟩
    exact h.2
  · intro h
    have hlen := length_splitOn s.char text
    rw [h] at hlen
    obtain ⟨mnemonic, level, address, hfields⟩ := List.length_eq_three.mp hlen
    exact ⟨mnemonic, level, address, splitOn_eq_fields_iff.mp hfields⟩

/-- A line with three fields is read field by field. -/
theorem instruction_of_hasFields {s : Separator} {line : Line} {mnemonic level address : List Char}
    (h : HasFields s line.text mnemonic level address) :
    line.instruction s = readFields line.number mnemonic level address := by
  rw [Line.instruction, splitOn_eq_fields_iff.mpr h]

/-- A line without three fields is refused as a whole. -/
theorem instruction_of_count_ne {s : Separator} {line : Line} (h : line.text.count s.char ≠ 2) :
    line.instruction s = .error (.malformedInstruction line.number s.char (String.ofList line.text)) := by
  unfold Line.instruction
  split
  · rename_i mnemonic level address hfields
    exact absurd (splitOn_eq_fields_iff.mp hfields).2 h
  · rfl

/-- A line with a fault is refused for it. -/
theorem Refuses.instruction {s : Separator} {line : Line} {e : LoadError} (h : Refuses s line e) :
    line.instruction s = .error e := by
  cases h with
  | fields h => exact instruction_of_count_ne h
  | @opcode mnemonic level address h hm =>
    have hread : Opcode.ofMnemonic? mnemonic = none := by
      rw [Option.eq_none_iff_forall_ne_some]
      intro o ho
      exact hm o (ofMnemonic?_eq_some_iff.mp ho)
    rw [instruction_of_hasFields h, readFields, hread]
  | @level mnemonic level address o h hm hl =>
    have hread : readField line.number level = .error _ := readField_eq_error_iff.mpr ⟨hl, rfl⟩
    rw [instruction_of_hasFields h, readFields, ofMnemonic?_eq_some_iff.mpr hm, hread]
    rfl
  | @address mnemonic level address o l h hm hl ha =>
    have hlevel : readField line.number level = .ok l := readField_eq_ok_iff.mpr hl
    have hread : readField line.number address = .error _ := readField_eq_error_iff.mpr ⟨ha, rfl⟩
    rw [instruction_of_hasFields h, readFields, ofMnemonic?_eq_some_iff.mpr hm, hlevel, hread]
    rfl

/-- A line is an instruction or has a fault. -/
theorem isInstruction_or_refuses (s : Separator) (line : Line) :
    (∃ i, IsInstruction s line.text i) ∨ ∃ e, Refuses s line e := by
  by_cases hcount : line.text.count s.char = 2
  · obtain ⟨mnemonic, level, address, h⟩ := exists_hasFields_iff.mpr hcount
    by_cases hm : ∃ o, Spells mnemonic o
    · obtain ⟨o, hm⟩ := hm
      by_cases hl : ∃ w : Word, IsInteger level w.toInt
      · obtain ⟨l, hl⟩ := hl
        by_cases ha : ∃ w : Word, IsInteger address w.toInt
        · obtain ⟨a, ha⟩ := ha
          exact Or.inl ⟨⟨o, l, a⟩, mnemonic, level, address, h, hm, hl, ha⟩
        · exact Or.inr ⟨_, .address h hm hl (not_exists.mp ha)⟩
      · exact Or.inr ⟨_, .level h hm (not_exists.mp hl)⟩
    · exact Or.inr ⟨_, .opcode h (not_exists.mp hm)⟩
  · exact Or.inr ⟨_, .fields hcount⟩

/-- A line is refused exactly for its fault. -/
theorem instruction_eq_error_iff {s : Separator} {line : Line} {e : LoadError} :
    line.instruction s = .error e ↔ Refuses s line e := by
  constructor
  · intro h
    rcases isInstruction_or_refuses s line with ⟨i, hi⟩ | ⟨e', he⟩
    · rw [instruction_eq_ok_iff.mpr hi] at h
      cases h
    · have hsame := he.instruction
      rw [h] at hsame
      cases hsame
      exact he
  · intro h
    exact h.instruction

/-! ## The first fault -/

/-- The first element that cannot be read decides. -/
theorem mapM_eq_error_iff {α β ε : Type} {f : α → Except ε β} {xs : List α} {e : ε} :
    xs.mapM f = .error e ↔
      ∃ good bad rest, xs = good ++ bad :: rest ∧ (∀ x ∈ good, ∃ y, f x = .ok y) ∧ f bad = .error e := by
  constructor
  · intro h
    induction xs with
    | nil => cases h
    | cons x xs ih =>
      rw [List.mapM_cons] at h
      cases hx : f x with
      | error e' =>
        rw [hx] at h
        cases h
        exact ⟨[], x, xs, rfl, fun y hy => absurd hy List.not_mem_nil, hx⟩
      | ok y =>
        cases hxs : xs.mapM f with
        | error e' =>
          rw [hx, hxs] at h
          cases h
          obtain ⟨good, bad, rest, rfl, hgood, hbad⟩ := ih hxs
          refine ⟨x :: good, bad, rest, rfl, ?_, hbad⟩
          intro z hz
          rcases List.mem_cons.mp hz with rfl | hz
          · exact ⟨y, hx⟩
          · exact hgood z hz
        | ok ys =>
          rw [hx, hxs] at h
          cases h
  · rintro ⟨good, bad, rest, rfl, hgood, hbad⟩
    induction good with
    | nil =>
      rw [List.nil_append, List.mapM_cons, hbad]
      rfl
    | cons x good ih =>
      obtain ⟨y, hy⟩ := hgood x List.mem_cons_self
      rw [List.cons_append, List.mapM_cons, hy, ih fun z hz => hgood z (List.mem_cons_of_mem x hz)]
      rfl

/-- The first of some lines that is no instruction has this fault. -/
def FirstRefused (s : Separator) (body : List Line) (e : LoadError) : Prop :=
  ∃ good bad rest, body = good ++ bad :: rest ∧ (∀ line ∈ good, ∃ i, IsInstruction s line.text i) ∧ Refuses s bad e

/-- The first fault of the lines of a program. -/
inductive FirstFault (s : Separator) : List Line → LoadError → Prop where
  | missingCount : FirstFault s [] .missingCount
  | invalidCount {first : Line} {body : List Line} (h : ∀ n, ¬IsCount first.text n) :
      FirstFault s (first :: body) (.invalidCount first.number (String.ofList first.text))
  | countMismatch {first : Line} {body : List Line} {declared : Nat} (h : IsCount first.text declared)
      (hne : declared ≠ body.length) : FirstFault s (first :: body) (.countMismatch declared body.length)
  | instruction {first : Line} {body : List Line} {e : LoadError} (h : IsCount first.text body.length)
      (hfirst : FirstRefused s body e) : FirstFault s (first :: body) e

/-- A first line is refused exactly if it is no count. -/
theorem count_eq_error_iff {line : Line} {e : LoadError} :
    line.count = .error e ↔
      (∀ n, ¬IsCount line.text n) ∧ e = .invalidCount line.number (String.ofList line.text) := by
  simp only [← count_eq_ok_iff, Line.count]
  cases Numeral.readNat Numeral.maxNat64 line.text with
  | ok n => simp
  | error flaw => simp [eq_comm]

/-- Instructions are refused for the first fault among them. -/
theorem mapM_instruction_eq_error_iff {s : Separator} {body : List Line} {e : LoadError} :
    body.mapM (Line.instruction s) = .error e ↔ FirstRefused s body e := by
  simp only [mapM_eq_error_iff, instruction_eq_ok_iff, instruction_eq_error_iff, FirstRefused]

/-- The lines of a program are refused exactly for their first fault. -/
theorem readLines_eq_error_iff {s : Separator} {lines : List Line} {e : LoadError} :
    readLines s lines = .error e ↔ FirstFault s lines e := by
  constructor
  · intro h
    cases lines with
    | nil =>
      cases h
      exact .missingCount
    | cons first body =>
      cases hc : first.count with
      | error e' =>
        rw [readLines_of_count_eq_error hc] at h
        cases h
        obtain ⟨hno, rfl⟩ := count_eq_error_iff.mp hc
        exact .invalidCount hno
      | ok declared =>
        have hcount := count_eq_ok_iff.mp hc
        by_cases hd : declared = body.length
        · subst hd
          rw [readLines_of_count_eq hc] at h
          cases hm : body.mapM (Line.instruction s) with
          | error e' =>
            rw [hm] at h
            cases h
            exact .instruction hcount (mapM_instruction_eq_error_iff.mp hm)
          | ok is =>
            rw [hm] at h
            cases h
        · rw [readLines_of_count_ne hc hd] at h
          cases h
          exact .countMismatch hcount hd
  · intro h
    cases h with
    | missingCount => rfl
    | invalidCount h => exact readLines_of_count_eq_error (count_eq_error_iff.mpr ⟨h, rfl⟩)
    | countMismatch h hne => exact readLines_of_count_ne (count_eq_ok_iff.mpr h) hne
    | instruction h hfirst =>
      rw [readLines_of_count_eq (count_eq_ok_iff.mpr h), mapM_instruction_eq_error_iff.mpr hfirst]
      rfl

/-- A text is a count of one number. -/
theorem IsCount.unique {cs : List Char} {m n : Nat} (hm : IsCount cs m) (hn : IsCount cs n) : m = n := by
  have hline : (Line.mk 0 cs).count = .ok m := count_eq_ok_iff.mpr hm
  rw [count_eq_ok_iff.mpr hn] at hline
  cases hline
  rfl

/-- The fault of an instruction is none of the count. -/
theorem FirstRefused.ne_count {s : Separator} {body : List Line} {e : LoadError} (h : FirstRefused s body e) :
    e ≠ .missingCount ∧ (∀ n token, e ≠ .invalidCount n token) ∧ ∀ declared found, e ≠ .countMismatch declared found := by
  obtain ⟨good, bad, rest, -, -, hbad⟩ := h
  cases hbad <;> simp

theorem firstFault_missingCount_iff {s : Separator} {lines : List Line} : FirstFault s lines .missingCount ↔ lines = [] := by
  constructor
  · intro h
    cases h with
    | missingCount => rfl
    | instruction h hfirst => exact absurd rfl hfirst.ne_count.1
  · rintro rfl
    exact .missingCount

theorem firstFault_invalidCount_iff {s : Separator} {lines : List Line} {n : Nat} {token : String} :
    FirstFault s lines (.invalidCount n token) ↔ ∃ first body, lines = first :: body ∧ (∀ k, ¬IsCount first.text k) ∧
      n = first.number ∧ token = String.ofList first.text := by
  constructor
  · intro h
    cases h with
    | invalidCount h => exact ⟨_, _, rfl, h, rfl, rfl⟩
    | instruction h hfirst => exact absurd rfl (hfirst.ne_count.2.1 n token)
  · rintro ⟨first, body, rfl, h, rfl, rfl⟩
    exact .invalidCount h

theorem firstFault_countMismatch_iff {s : Separator} {lines : List Line} {declared found : Nat} :
    FirstFault s lines (.countMismatch declared found) ↔ ∃ first body, lines = first :: body ∧ IsCount first.text declared ∧
      found = body.length ∧ declared ≠ found := by
  constructor
  · intro h
    cases h with
    | countMismatch h hne => exact ⟨_, _, rfl, h, rfl, hne⟩
    | instruction h hfirst => exact absurd rfl (hfirst.ne_count.2.2 declared found)
  · rintro ⟨first, body, rfl, h, rfl, hne⟩
    exact .countMismatch h hne

/-- Under the right count the first fault is that of an instruction. -/
theorem firstFault_iff_of_isCount {s : Separator} {first : Line} {body : List Line} {e : LoadError}
    (hcount : IsCount first.text body.length) : FirstFault s (first :: body) e ↔ FirstRefused s body e := by
  constructor
  · intro h
    cases h with
    | invalidCount h => exact absurd hcount (h _)
    | countMismatch h hne => exact absurd (h.unique hcount) hne
    | instruction h hfirst => exact hfirst
  · intro h
    exact .instruction hcount h

end Text

open Text

/-- Which error a text leads to, in five parts.
1. The count is missing exactly if every line is passed over.
2. The count is invalid exactly if the first of the other lines is no count. The error holds the number and the whole of it.
3. The count does not match exactly if it is not the number of the lines behind it, whatever they hold. The error holds both.
4. Under the right count the error is that of the first line behind it that is no instruction.
5. The lines that are not passed over have as numbers their places among all lines, counted from 1. -/
theorem Program.parse_eq_error_iff (s : Separator) (text : String) :
    (Program.parse s text = .error .missingCount ↔ ∀ raw ∈ rawLines text.toList, IsPassedOver raw) ∧
    (∀ n token, Program.parse s text = .error (.invalidCount n token) ↔
      ∃ first body, contents text.toList = first :: body ∧ (∀ k, ¬IsCount first.text k) ∧ n = first.number ∧
        token = String.ofList first.text) ∧
    (∀ declared found, Program.parse s text = .error (.countMismatch declared found) ↔
      ∃ first body, contents text.toList = first :: body ∧ IsCount first.text declared ∧ found = body.length ∧
        declared ≠ found) ∧
    (∀ first body, contents text.toList = first :: body → IsCount first.text body.length → ∀ e,
      (Program.parse s text = .error e ↔ ∃ good bad rest, body = good ++ bad :: rest ∧
        (∀ line ∈ good, ∃ i, IsInstruction s line.text i) ∧ Refuses s bad e)) ∧
    ∀ line, line ∈ contents text.toList ↔ ∃ k raw, line.number = k + 1 ∧ (rawLines text.toList)[k]? = some raw ∧
      ¬IsPassedOver raw ∧ line.text = strip raw := by
  have hparse : ∀ e, Program.parse s text = .error e ↔ FirstFault s (contents text.toList) e := by
    intro e
    rw [Program.parse, significantLines_eq_contents, readLines_eq_error_iff]
  refine ⟨?_, ?_, ?_, ?_, fun line => mem_contents_iff⟩
  · rw [hparse, firstFault_missingCount_iff, contents_eq_nil_iff]
  · intro n token
    rw [hparse, firstFault_invalidCount_iff]
  · intro declared found
    rw [hparse, firstFault_countMismatch_iff]
  · intro first body hcontents hcount e
    rw [hparse, hcontents, firstFault_iff_of_isCount hcount]
    rfl

/-- Comments and an empty line count as lines. The address of the second instruction, just above the highest word, is the first
fault, and the line behind it does not matter. -/
theorem Program.parse_eq_error_iff_above :
    let text := "# three\r\n\n +3\nlit ; 0 ; 1\n  # skipped\nLoD;-0;2147483648\nnonsense"
    let body : List Line := [⟨4, "lit;0;1".toList⟩, ⟨6, "LoD;-0;2147483648".toList⟩, ⟨7, "nonsense".toList⟩]
    contents text.toList = ⟨3, "+3".toList⟩ :: body ∧ IsCount "+3".toList body.length ∧
      Program.parse .semicolon text = .error (.invalidNumber 6 "2147483648") := by
  intro text body
  have hcontents : contents text.toList = ⟨3, "+3".toList⟩ :: body := by decide +kernel
  have hcount : IsCount "+3".toList body.length := ⟨Or.inr ⟨_, rfl, .digit rfl⟩, by decide⟩
  have hgood : Line.instruction .semicolon ⟨4, "lit;0;1".toList⟩ = .ok ⟨.lit, 0, 1⟩ := rfl
  have hbad : Line.instruction .semicolon ⟨6, "LoD;-0;2147483648".toList⟩ = .error (.invalidNumber 6 "2147483648") := rfl
  obtain ⟨-, -, -, hbody, -⟩ := Program.parse_eq_error_iff .semicolon text
  refine ⟨hcontents, hcount, ?_⟩
  rw [hbody _ _ hcontents hcount]
  refine ⟨[⟨4, "lit;0;1".toList⟩], ⟨6, "LoD;-0;2147483648".toList⟩, [⟨7, "nonsense".toList⟩], rfl, ?_, ?_⟩
  · intro line hline
    rw [List.mem_singleton.mp hline]
    exact ⟨⟨.lit, 0, 1⟩, instruction_eq_ok_iff.mp hgood⟩
  · exact instruction_eq_error_iff.mp hbad

end PMachine
