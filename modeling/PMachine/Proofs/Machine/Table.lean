import PMachine.Proofs.Machine.Action

/-!
# The dispatch table

What an instruction does, as a table says it: one row for each opcode and one for each operation, and in each row assignments
that are performed one after the other. Registers wrap around, the number of a slot is computed in the integers, and the first
slot that is asked for outside the stack aborts the row. Nothing is looked at before its turn, so a row may have moved the stack
top by the time it aborts.

The table knows neither positions nor causes of faults. Values are computed in the integers too, and then reduced to words.
-/

namespace PMachine

namespace Table

/-- What the table speaks of: the stack and the three registers. -/
structure State where
  stack : Array Word
  pc : Word
  bp : Word
  sp : Word
  deriving DecidableEq, Repr

/-- A sequence of assignments, or a part of one that gives an `α`; none once it has aborted. -/
abbrev Row (α : Type) := StateT State Option α

/-- Ends the row. -/
def abort {α : Type} : Row α := fun _ => none

/-- `stack[i]`. -/
def slot (i : Int) : Row Word := fun t => if i < 0 then none else t.stack[i.toNat]?.map fun w => (w, t)

/-- `stack[i] = w`. -/
def assign (i : Int) (w : Word) : Row Unit := fun t =>
  if 0 ≤ i ∧ i < t.stack.size then some ((), { t with stack := t.stack.setIfInBounds i.toNat w }) else none

/-- `base = stack[base]`, as often as the number says. -/
def links : Nat → Word → Row Word
  | 0, base => pure base
  | n + 1, base => do
    let next ← slot base.toInt
    links n next

/-- `findBase(level)`: a level of zero or less means the current frame. -/
def findBase (level : Word) : Row Word := do
  links level.toInt.toNat (← get).bp

/-- `pc = w`. -/
def setPc (w : Word) : Row Unit := modify fun t => { t with pc := w }

/-- `bp = w`. -/
def setBp (w : Word) : Row Unit := modify fun t => { t with bp := w }

/-- `sp = w`. -/
def setSp (w : Word) : Row Unit := modify fun t => { t with sp := w }

/-- 1 for true and 0 for false, as integers. -/
def truth (b : Bool) : Int := if b then 1 else 0

/-- `stack[sp] = f(stack[sp])`. -/
def replace (f : Int → Int) : Row Unit := do
  let a ← slot (← get).sp.toInt
  assign (← get).sp.toInt (Int32.ofInt (f a.toInt))

/-- `sp--; stack[sp] = f(stack[sp], stack[sp+1])`, unless there is no such value. -/
def combine (f : Int → Int → Option Int) : Row Unit := do
  setSp ((← get).sp - 1)
  let a ← slot (← get).sp.toInt
  let b ← slot ((← get).sp.toInt + 1)
  match f a.toInt b.toInt with
  | none => abort
  | some c => assign (← get).sp.toInt (Int32.ofInt c)

/-- The rows of the operations, by their numbers. -/
def operation (id : Word) : Row Unit :=
  match id.toInt with
  | 0 => do
    setSp ((← get).bp - 1)
    setPc (← slot ((← get).sp.toInt + 3))
    setBp (← slot ((← get).sp.toInt + 2))
  | 1 => replace fun a => -a
  | 2 => combine fun a b => some (a + b)
  | 3 => combine fun a b => some (a - b)
  | 4 => combine fun a b => some (a * b)
  | 5 => combine fun a b => if b = 0 then none else some (a.tdiv b)
  | 6 => replace fun a => truth (a.tmod 2 = 1)
  | 7 => combine fun a b => some (truth (a = b))
  | 8 => combine fun a b => some (1 - truth (a = b))
  | 9 => combine fun a b => some (truth (a < b))
  | 10 => combine fun a b => some (truth (a ≤ b))
  | 11 => combine fun a b => some (1 - truth (a < b))
  | 12 => combine fun a b => some (truth (b ≤ a))
  | _ => abort

/-- The rows of the opcodes. -/
def row (i : Instruction) : Row Unit :=
  match i.opcode with
  | .lit => do
    setSp ((← get).sp + 1)
    assign (← get).sp.toInt i.address
  | .opr => operation i.address
  | .lod => do
    setSp ((← get).sp + 1)
    let base ← findBase i.level
    assign (← get).sp.toInt (← slot (base.toInt + i.address.toInt))
  | .sto => do
    let base ← findBase i.level
    assign (base.toInt + i.address.toInt) (← slot (← get).sp.toInt)
    setSp ((← get).sp - 1)
  | .cal => do
    assign ((← get).sp.toInt + 1) (← findBase i.level)
    assign ((← get).sp.toInt + 2) (← get).bp
    assign ((← get).sp.toInt + 3) (← get).pc
    setBp ((← get).sp + 1)
    setPc i.address
  | .int => do
    setSp ((← get).sp + i.address)
  | .jmp => setPc i.address
  | .jpc => do
    if (← slot (← get).sp.toInt) = 1 then setPc i.address
    setSp ((← get).sp - 1)

/-- What the table makes of an instruction: the program counter moves on, and then the row is performed. -/
def step (i : Instruction) (t : State) : Option State :=
  ((do
    setPc ((← get).pc + 1)
    row i : Row Unit).run t).map (·.2)

end Table

/-- What the table sees of a machine. -/
def Machine.view (m : Machine) : Table.State := ⟨m.stack, m.pc, m.bp, m.sp⟩

end PMachine
