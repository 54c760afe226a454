import PMachine.Log.Basic
import PMachine.Text.Line
import PMachine.Text.Separator

/-!
# Reading a program

The first significant line is the number of instructions, and each line after it is one instruction. The number is compared
with the lines that follow before any of them is read; then the first line that is no instruction decides. A line is asked in
turn for three fields, an opcode, a level and an address.
-/

namespace PMachine

/-- Why a text is no program. Lines are counted from 1 in the whole text. -/
inductive LoadError where
  | missingCount
  | invalidCount (line : Nat) (token : String)
  | unknownOpcode (line : Nat) (token : String)
  | malformedInstruction (line : Nat) (separator : Char) (text : String)
  | invalidNumber (line : Nat) (token : String)
  | countMismatch (declared found : Nat)
  deriving DecidableEq, Repr

/-- The wording of a load error. -/
def LoadError.message : LoadError → String
  | .missingCount => "missing instruction count"
  | .invalidCount line token => s!"line {line}: invalid instruction count '{token}'"
  | .unknownOpcode line token => s!"line {line}: unknown opcode '{token}'"
  | .malformedInstruction line separator text =>
    s!"line {line}: expected OPCODE{separator}level{separator}address, found '{text}'"
  | .invalidNumber line token => s!"line {line}: invalid number '{token}'"
  | .countMismatch declared found => s!"declared {declared} instructions but found {found}"

namespace Text

/-- Reads the line that declares the number of instructions. -/
def Line.count (line : Line) : Except LoadError Nat :=
  match Numeral.readNat Numeral.maxNat64 line.text with
  | .ok n => .ok n
  | .error _ => .error (.invalidCount line.number (String.ofList line.text))

/-- Reads a field that holds a word. -/
def readField (line : Nat) (field : List Char) : Except LoadError Word :=
  match Numeral.readWord? field with
  | some w => .ok w
  | none => .error (.invalidNumber line (String.ofList field))

/-- Reads the three fields of an instruction: opcode, level, address. -/
def readFields (line : Nat) (mnemonic level address : List Char) : Except LoadError Instruction :=
  match Opcode.ofMnemonic? mnemonic with
  | none => .error (.unknownOpcode line (String.ofList mnemonic))
  | some opcode => do
    let level ← readField line level
    let address ← readField line address
    return ⟨opcode, level, address⟩

/-- Reads a line as an instruction. -/
def Line.instruction (s : Separator) (line : Line) : Except LoadError Instruction :=
  match line.text.splitOn s.char with
  | [mnemonic, level, address] => readFields line.number mnemonic level address
  | _ => .error (.malformedInstruction line.number s.char (String.ofList line.text))

/-- Reads the significant lines of a program. -/
def readLines (s : Separator) : List Line → Except LoadError Program
  | [] => .error .missingCount
  | first :: body => do
    let declared ← first.count
    if declared = body.length then return Program.ofList (← body.mapM (Line.instruction s))
    else throw (.countMismatch declared body.length)

end Text

/-- Reads a program whose fields are divided by `s`. -/
def Program.parse (s : Separator) (text : String) : Except LoadError Program :=
  Text.readLines s (Text.significantLines text.toList)

/-- Reads a program, and tells its length in a log if it is one. -/
def Program.parseLogged (s : Separator) (text : String) (log : Log) : Log × Except LoadError Program :=
  match Program.parse s text with
  | .ok p => (log.add (.loaded p.size), .ok p)
  | .error e => (log, .error e)

end PMachine
