import PMachine.Instruction.Basic

/-!
# Events

What the library does is told in events. An event has a level of severity, an origin, which is the part of the program that
tells it, a message and named fields.
-/

namespace PMachine

/-- How severe an event is. -/
inductive Level where
  | error
  | warn
  | info
  | debug
  | trace
  deriving DecidableEq, Repr

namespace Level

/-- The upper-case name of a level. -/
def name : Level → String
  | .error => "ERROR"
  | .warn => "WARN"
  | .info => "INFO"
  | .debug => "DEBUG"
  | .trace => "TRACE"

/-- The place of a level among all of them: the more severe, the lower. -/
def rank : Level → Nat
  | .error => 0
  | .warn => 1
  | .info => 2
  | .debug => 3
  | .trace => 4

end Level

/-- The value of a field of an event. -/
inductive Field where
  | number (n : Int)
  | text (s : String)
  /-- A text that is written between quotation marks. -/
  | quoted (s : String)
  deriving DecidableEq, Repr

/-- The written form of a field's value. -/
def Field.render : Field → String
  | .number n => n.repr
  | .text s => s
  | .quoted s => s!"\"{s}\""

/-- What a log tells. -/
inductive Event where
  /-- A program is about to be read from a file. -/
  | reading (path : String) (separator : Char)
  /-- A program has been read. -/
  | loaded (count : Nat)
  /-- A run begins. -/
  | started (instructions stackSize : Nat)
  /-- An instruction is about to be executed; the registers are those before it. -/
  | dispatched (pc bp sp : Word) (instruction : Instruction)
  /-- The instruction at position `site` is about to perform an operation. -/
  | operating (op : Operation) (site : Word)
  /-- A run has ended by itself. -/
  | halted (steps : Nat) (resultIndex : Int)
  /-- A run has used up its steps; `pc` is the position it would go on at. -/
  | exhausted (limit : Nat) (pc : Word)
  /-- The result of a run is about to be read. -/
  | finished (steps : Nat)
  deriving DecidableEq, Repr

namespace Event

/-- How severe an event is. -/
def level : Event → Level
  | .reading .. | .loaded .. | .started .. | .halted .. | .finished .. => .debug
  | .dispatched .. | .operating .. => .trace
  | .exhausted .. => .warn

/-- The part of the program that tells an event: a path of names, from the whole to the part. -/
def origin : Event → String
  | .reading .. | .finished .. => "pcode::commands"
  | .loaded .. => "pcode_loader"
  | .started .. | .dispatched .. | .halted .. | .exhausted .. => "pcode_vm::engine"
  | .operating .. => "pcode_vm::execute"

/-- What an event says. -/
def message : Event → String
  | .reading .. => "reading program"
  | .loaded .. => "loaded program"
  | .started .. => "starting run"
  | .dispatched .. => "dispatch"
  | .operating .. => "opr"
  | .halted .. => "halted"
  | .exhausted .. => "step limit exceeded"
  | .finished .. => "program halted"

/-- The named fields of an event, in the order in which they are written. -/
def fields : Event → List (String × Field)
  | .reading path separator => [("path", .text path), ("separator", .text (String.singleton separator))]
  | .loaded count => [("count", .number count)]
  | .started instructions stackSize => [("instructions", .number instructions), ("stack_size", .number stackSize)]
  | .dispatched pc bp sp instruction =>
    [("pc", .number pc.toInt), ("bp", .number bp.toInt), ("sp", .number sp.toInt), ("instr", .text instruction.text)]
  | .operating op site => [("op", .quoted op.name), ("at", .number site.toInt)]
  | .halted steps resultIndex => [("steps", .number steps), ("result_index", .number resultIndex)]
  | .exhausted limit pc => [("limit", .number limit), ("pc", .number pc.toInt)]
  | .finished steps => [("steps", .number steps)]

/-- The plain line of an event, which neither colours nor the time stand in: its level in five columns from the right, its
message, and its fields. -/
def render (e : Event) : String :=
  let level := String.ofList (List.replicate (5 - e.level.name.length) ' ') ++ e.level.name
  s!"{level} {e.message}" ++ String.join (e.fields.map fun f => s!" {f.1}={f.2.render}")

end Event

end PMachine
