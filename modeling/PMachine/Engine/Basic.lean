import PMachine.Machine.Basic

/-!
# Engines

An engine holds the sizes of the machine to run on and, once it is bound, a program. A program is bound once, and only if the
address space has room for it.
-/

namespace PMachine

/-- The sizes of a machine, and how long a run may take. -/
structure Config where
  /-- The number of slots of the stack. -/
  stackSize : Nat := 5012
  /-- The number added to the level and address of the last instruction to find the slot of the result. -/
  maxLevel : Word := 3
  /-- The number of addresses; a program has one instruction less at most. -/
  addressSpace : Nat := 2047
  /-- The number of instructions after which a run that has not halted is stopped. -/
  stepLimit : Option Nat := none
  deriving DecidableEq, Repr

/-- The length of the longest program. -/
def Config.capacity (c : Config) : Nat := c.addressSpace - 1

/-- Why a program could not be bound or run. -/
inductive Error where
  | addressSpaceExceeded (length limit : Nat)
  | alreadyBound
  | emptyProgram
  | fault (f : Fault)
  | pcOutOfRange (pc : Word)
  | stepLimitExceeded (limit : Nat)
  deriving DecidableEq, Repr

/-- The wording of an error. -/
def Error.message : Error → String
  | .addressSpaceExceeded length limit => s!"program of {length} instructions exceeds the limit of {limit}"
  | .alreadyBound => "instruction sequence already bound"
  | .emptyProgram => "no instructions to run"
  | .fault f => f.message
  | .pcOutOfRange pc => s!"program counter {Numeral.ofWord pc} outside the program"
  | .stepLimitExceeded limit => s!"step limit of {limit} exceeded"

/-- The sizes of a machine with the program that is bound, if one is. -/
structure Engine where
  config : Config
  bound : Option Program := none
  deriving DecidableEq, Repr

namespace Engine

/-- Whether a program is bound. -/
def isBound (e : Engine) : Bool := e.bound.isSome

/-- The program that runs: the bound one, or else the empty one. -/
def program (e : Engine) : Program := e.bound.getD {}

/-- Accepts the length of a program that the address space has room for. -/
def checkLength (config : Config) (length : Nat) : Except Error Unit :=
  if config.capacity < length then .error (.addressSpaceExceeded length config.capacity) else .ok ()

/-- An unbound engine that is meant for a program of `length` instructions. -/
def withRoom (length : Nat) (config : Config := {}) : Except Error Engine :=
  match checkLength config length with
  | .ok () => .ok { config }
  | .error e => .error e

/-- Binds a program. Only the first binding succeeds. -/
def bind (e : Engine) (p : Program) : Except Error Engine :=
  if e.isBound then .error .alreadyBound
  else match checkLength e.config p.size with
    | .ok () => .ok { e with bound := some p }
    | .error err => .error err

/-- An engine with a program bound from the start. -/
def ofProgram (p : Program) (config : Config := {}) : Except Error Engine :=
  match withRoom p.size config with
  | .ok e => e.bind p
  | .error err => .error err

end Engine

end PMachine
