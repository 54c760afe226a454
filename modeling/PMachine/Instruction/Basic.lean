import PMachine.Instruction.Opcode
import PMachine.Instruction.Operation

/-!
# Instructions and programs

An instruction is an opcode with a level and an address; a program is a sequence of instructions, whose positions are the
targets of jumps and calls.
-/

namespace PMachine

/-- One instruction. -/
structure Instruction where
  opcode : Opcode
  level : Word
  address : Word
  deriving DecidableEq, Repr

namespace Instruction

/-- The operation that the address of the instruction selects, whatever its opcode is. -/
def operation? (i : Instruction) : Option Operation := Operation.ofId? i.address

/-- The text of an instruction: mnemonic, level and address, divided by `separator`. -/
def render (separator : Char) (i : Instruction) : String :=
  i.opcode.mnemonic ++ String.singleton separator ++ Numeral.ofWord i.level ++ String.singleton separator ++
    Numeral.ofWord i.address

/-- The text of an instruction with semicolons, as messages show it. -/
def text (i : Instruction) : String := i.render ';'

end Instruction

/-- A sequence of instructions. -/
structure Program where
  instructions : Array Instruction := #[]
  deriving DecidableEq, Repr

namespace Program

/-- The program of a list of instructions. -/
def ofList (is : List Instruction) : Program := ⟨is.toArray⟩

/-- The number of instructions. -/
def size (p : Program) : Nat := p.instructions.size

/-- Whether there is no instruction. -/
def isEmpty (p : Program) : Bool := p.instructions.isEmpty

/-- The instruction at a position, if the position lies in the program. -/
def get? (p : Program) (position : Int) : Option Instruction :=
  if position < 0 then none else p.instructions[position.toNat]?

end Program

end PMachine
