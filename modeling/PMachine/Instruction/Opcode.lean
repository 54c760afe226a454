/-!
# Opcodes

The eight kinds of instruction. A text names an opcode by its mnemonic, in any mixture of ASCII upper and lower case;
writing uses upper case.
-/

namespace PMachine

/-- What an instruction does with its level and address. -/
inductive Opcode where
  /-- Pushes the address. -/
  | lit
  /-- Performs the operation that the address numbers. -/
  | opr
  /-- Pushes the variable at the address, in the frame as many scopes out as the level says. -/
  | lod
  /-- Pops into the variable at the address, in the frame as many scopes out as the level says. -/
  | sto
  /-- Calls the procedure at the address, declared as many scopes out as the level says. -/
  | cal
  /-- Moves the stack top by the address. -/
  | int
  /-- Jumps to the address. -/
  | jmp
  /-- Pops, and jumps to the address if the popped word is 1. -/
  | jpc
  deriving DecidableEq, Repr

/-- A text that is no mnemonic. -/
structure UnknownMnemonic where
  text : String
  deriving DecidableEq, Repr

/-- The wording of the refusal. -/
def UnknownMnemonic.message (e : UnknownMnemonic) : String := s!"unknown opcode mnemonic '{e.text}'"

namespace Opcode

/-- Every opcode, in the conventional order. -/
def all : List Opcode := [.lit, .opr, .lod, .sto, .cal, .int, .jmp, .jpc]

/-- The upper-case name of an opcode. -/
def mnemonic : Opcode → String
  | .lit => "LIT"
  | .opr => "OPR"
  | .lod => "LOD"
  | .sto => "STO"
  | .cal => "CAL"
  | .int => "INT"
  | .jmp => "JMP"
  | .jpc => "JPC"

/-- The opcode whose mnemonic the characters spell, ASCII case aside. -/
def ofMnemonic? (cs : List Char) : Option Opcode :=
  all.find? fun o => o.mnemonic.toList = cs.map Char.toUpper

/-- The opcode that a text names, or the refusal. Blanks are not trimmed. -/
def ofString (text : String) : Except UnknownMnemonic Opcode :=
  match ofMnemonic? text.toList with
  | some o => .ok o
  | none => .error ⟨text⟩

/-- A mnemonic names its opcode. -/
@[simp]
theorem ofMnemonic?_mnemonic (o : Opcode) : ofMnemonic? o.mnemonic.toList = some o := by
  cases o <;> decide

end Opcode

end PMachine
