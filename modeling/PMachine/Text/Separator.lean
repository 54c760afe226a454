/-!
# Field separators

The three fields of an instruction line are divided by one character. Blanks are dropped before a line is cut, `#` starts a
comment, `+` and `-` are signs, and letters and digits belong to the fields, so the other ASCII punctuation remains.
-/

namespace PMachine

/-- Whether a character is ASCII punctuation: printable, and neither the space nor a letter nor a digit. -/
def isPunctuation (c : Char) : Bool := 0x21 ≤ c.toNat && c.toNat ≤ 0x7E && !c.isAlphanum

/-- Whether a character may divide fields. -/
def isSeparator (c : Char) : Bool := isPunctuation c && c ≠ '#' && c ≠ '+' && c ≠ '-'

/-- A character that may divide fields. -/
structure Separator where
  char : Char
  isSeparator_char : isSeparator char = true

instance : DecidableEq Separator := fun s t =>
  if h : s.char = t.char then isTrue (by cases s; cases t; cases h; rfl) else isFalse fun e => h (congrArg Separator.char e)

/-- A character that may not divide fields. -/
structure InvalidSeparator where
  char : Char
  deriving DecidableEq, Repr

/-- The wording of the refusal. -/
def InvalidSeparator.message (e : InvalidSeparator) : String :=
  s!"invalid separator '{e.char}': expected a punctuation character other than '#', '+' or '-'"

namespace Separator

/-- The semicolon, which divides fields where nothing else is asked for. -/
def semicolon : Separator := ⟨';', by decide⟩

/-- The separator of a character, or the refusal. -/
def ofChar (c : Char) : Except InvalidSeparator Separator :=
  if h : isSeparator c = true then .ok ⟨c, h⟩ else .error ⟨c⟩

end Separator

end PMachine
