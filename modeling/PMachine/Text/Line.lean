import PMachine.Text.Blank

/-!
# Significant lines

A text is cut into lines at line feeds. Blanks are dropped from every line; what then is empty, or starts with `#`, is passed
over. The lines that remain keep their numbers in the whole text, counted from 1.
-/

namespace PMachine

namespace Text

/-- A line that says something: its number in the text, and its characters without blanks. -/
structure Line where
  number : Nat
  text : List Char
  deriving DecidableEq, Repr

/-- Whether a line without blanks says nothing: it is empty or a comment. -/
def isIdle : List Char → Bool
  | [] => true
  | c :: _ => c = '#'

/-- What a raw line says, if it says something. -/
def Line.ofRaw? (number : Nat) (raw : List Char) : Option Line :=
  let text := raw.filter fun c => !isBlank c
  if isIdle text then none else some ⟨number, text⟩

/-- The significant lines of a text. -/
def significantLines (text : List Char) : List Line :=
  ((text.splitOn '\n').zipIdx 1).filterMap fun raw => Line.ofRaw? raw.2 raw.1

/-- A significant line is not empty, holds no blank and does not start with `#`. -/
theorem Line.ofRaw?_text {number : Nat} {raw : List Char} {line : Line} (h : Line.ofRaw? number raw = some line) :
    line.number = number ∧ isIdle line.text = false ∧ ∀ c ∈ line.text, isBlank c = false := by
  simp only [Line.ofRaw?] at h
  split at h
  · cases h
  · rename_i hi
    cases h
    refine ⟨rfl, by simpa using hi, ?_⟩
    intro c hc
    simpa using (List.mem_filter.mp hc).2

end Text

end PMachine
