import PMachine.Machine.Basic

/-!
# Executing an instruction

An instruction is a sequence of reads and writes of one machine, any of which may stop it with a fault; what was written before
a fault stays written. Every instruction first moves the program counter to the next position, so a call saves the position
after it and a jump overwrites the move.
-/

namespace PMachine

/-- A sequence of reads and writes of a machine that gives an `α` or stops with a fault. -/
abbrev Action (α : Type) := EStateM Fault Machine α

namespace Action

/-- Reads the machine. -/
def read {α : Type} (f : Machine → Except Fault α) : Action α := fun m =>
  match f m with
  | .ok a => .ok a m
  | .error e => .error e m

/-- Stops the instruction. -/
def stop {α : Type} (cause : Cause) : Action α := fun m => .error ⟨m.site, cause⟩ m

/-- Writes `w` into slot `i`. -/
def write (i : Int) (w : Word) : Action Unit := fun m =>
  match m.place i with
  | .ok k => .ok () { m with stack := m.stack.setIfInBounds k.val w }
  | .error f => .error f m

/-- Writing succeeds on the slots of the stack, and changes that slot alone. -/
theorem write_eq_ok_iff {i : Int} {w : Word} {m m' : Machine} :
    write i w m = .ok () m' ↔
      0 ≤ i ∧ i < m.stack.size ∧ m' = { m with stack := m.stack.setIfInBounds i.toNat w } := by
  unfold write
  cases hp : m.place i with
  | ok k =>
    have hi := Machine.place_eq_ok_iff.mp hp
    have hk := k.isLt
    subst hi
    simp [eq_comm]
  | error f =>
    simp only [reduceCtorEq, false_iff]
    rintro ⟨h0, hlt, -⟩
    rcases Machine.place_eq_error_iff.mp hp with ⟨h, -⟩ | ⟨h, -⟩ <;> omega

/-- Writing elsewhere faults as asking for the slot does, and leaves the machine as it is. -/
theorem write_eq_error_iff {i : Int} {w : Word} {m m' : Machine} {f : Fault} :
    write i w m = .error f m' ↔ m.place i = .error f ∧ m' = m := by
  unfold write
  cases m.place i with
  | ok k => simp
  | error g => simp [eq_comm]

/-- Moves to the next position and remembers where the instruction stands. -/
def begin : Action Unit := modify fun m => { m with site := m.pc, pc := m.pc + 1 }

/-- Writes `w` one slot above the stack top, which moves there. -/
def push (w : Word) : Action Unit := do
  write ((← get).sp.toInt + 1) w
  modify fun m => { m with sp := m.sp + 1 }

/-- Moves the stack top down by one slot. -/
def drop : Action Unit := modify fun m => { m with sp := m.sp - 1 }

/-- Pushes the variable at `address`, `level` scopes out. -/
def load (level address : Word) : Action Unit := do
  let base ← read (·.findBase level)
  let w ← read (·.slot (base.toInt + address.toInt))
  push w

/-- Pops into the variable at `address`, `level` scopes out. -/
def store (level address : Word) : Action Unit := do
  let base ← read (·.findBase level)
  let w ← read (·.top)
  write (base.toInt + address.toInt) w
  drop

/-- Writes the links and the return address of a new frame above the stack top and enters the frame. The first and the last
of the three slots are looked at before any is written; the stack top stays where it is. -/
def call (level address : Word) : Action Unit := do
  let link ← read (·.findBase level)
  let base := (← get).sp.toInt + 1
  let _ ← read (·.slot base)
  let _ ← read (·.slot (base + 2))
  write base link
  write (base + 1) (← get).bp
  write (base + 2) (← get).pc
  modify fun m => { m with bp := m.sp + 1, pc := address }

/-- Leaves the current frame: its return address and its dynamic link become the program counter and the base, and the stack
top moves below it. -/
def leave : Action Unit := do
  let sp := (← get).bp - 1
  let pc ← read (·.slot (sp.toInt + 3))
  let bp ← read (·.slot (sp.toInt + 2))
  modify fun m => { m with pc := pc, bp := bp, sp := sp }

/-- Moves the stack top by `address`, which no check bounds. -/
def reserve (address : Word) : Action Unit := modify fun m => { m with sp := m.sp + address }

/-- Jumps to `address`. -/
def jump (address : Word) : Action Unit := modify fun m => { m with pc := address }

/-- Pops, and jumps to `address` if the popped word is 1. -/
def jumpIf (address : Word) : Action Unit := do
  let w ← read (·.top)
  if w = 1 then jump address
  drop

/-- Replaces the topmost word by its value under `op`. -/
def unary (op : Unary) : Action Unit := do
  let a ← read (·.top)
  write (← get).sp.toInt (op.apply a)

/-- Replaces the two topmost words by their value under `op`. The deeper one is read first, and both are read before a zero
divisor stops the instruction. -/
def binary (op : Binary) : Action Unit := do
  let a ← read fun m => m.slot (m.sp.toInt - 1)
  let b ← read (·.top)
  match op.apply a b with
  | none => stop .divisionByZero
  | some c =>
    write ((← get).sp - 1).toInt c
    drop

/-- Performs an operation. -/
def perform : Operation → Action Unit
  | .leave => leave
  | .unary op => unary op
  | .binary op => binary op

/-- Performs the operation that an instruction selects, if it selects one. -/
def operate (i : Instruction) : Action Unit :=
  match i.operation? with
  | none => stop (.unknownOperation i.address)
  | some op => perform op

/-- What an instruction does once the program counter has moved on. -/
def effect (i : Instruction) : Action Unit :=
  match i.opcode with
  | .lit => push i.address
  | .opr => operate i
  | .lod => load i.level i.address
  | .sto => store i.level i.address
  | .cal => call i.level i.address
  | .int => reserve i.address
  | .jmp => jump i.address
  | .jpc => jumpIf i.address

theorem operate_of_some {i : Instruction} {op : Operation} (h : i.operation? = some op) : operate i = perform op := by
  simp only [operate, h]

/-- An `opr` instruction with the number of an operation performs it. -/
theorem effect_operation (level : Word) (op : Operation) : effect ⟨.opr, level, op.id⟩ = perform op :=
  operate_of_some (Operation.ofId?_id op)

theorem operate_of_none {i : Instruction} (h : i.operation? = none) : operate i = stop (.unknownOperation i.address) := by
  simp only [operate, h]

end Action

/-- Executes an instruction as if it stood where the program counter points. The result is the machine that is left, with the
fault that stopped the instruction, if one did. -/
def Machine.execute (m : Machine) (i : Instruction) : EStateM.Result Fault Machine Unit :=
  (do Action.begin; Action.effect i : Action Unit).run m

end PMachine
