import PMachine.Instruction.Basic
import PMachine.Text.Separator

/-!
# Writing a program

The canonical text of a program: the number of instructions, then a line for each instruction, every line ended by a line
feed, without comments and blanks.
-/

namespace PMachine

namespace Program

/-- The lines of the canonical text. -/
def canonicalLines (s : Separator) (p : Program) : List String :=
  p.size.repr :: p.instructions.toList.map (Instruction.render s.char)

/-- The canonical text of a program with fields divided by `s`. -/
def render (s : Separator) (p : Program) : String :=
  String.join ((p.canonicalLines s).map (· ++ "\n"))

end Program

end PMachine
