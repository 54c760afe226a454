import PMachine.Instruction.Basic

/-!
# The machine

A machine is a stack of words with three registers: the program counter `pc`, the base `bp` of the current frame and the
stack top `sp`. Frames lie in the stack. The three slots from a frame's base up hold its static link, which is the base of the
frame that encloses it lexically, its dynamic link, which is the base of its caller, and its return address; variables follow.

Registers hold any word. Only a slot that is read or written has to lie in the stack.
-/

namespace PMachine

/-- Why an instruction stopped. -/
inductive Cause where
  /-- A slot at or above the size of the stack was asked for. -/
  | stackOverflow (slot : Int)
  /-- A slot below zero was asked for. -/
  | stackUnderflow (slot : Int)
  | divisionByZero
  | unknownOperation (id : Word)
  deriving DecidableEq, Repr

/-- A cause, and the position of the instruction it stopped. -/
structure Fault where
  site : Word
  cause : Cause
  deriving DecidableEq, Repr

/-- The wording of a cause. -/
def Cause.message : Cause → String
  | .stackOverflow slot => s!"stack overflow (slot {slot})"
  | .stackUnderflow slot => s!"stack underflow (slot {slot})"
  | .divisionByZero => "division by zero"
  | .unknownOperation id => (UnknownOperation.mk id).message

/-- The wording of a fault. -/
def Fault.message (f : Fault) : String := s!"{f.cause.message} at instruction {Numeral.ofWord f.site}"

/-- Stack and registers. -/
structure Machine where
  stack : Array Word
  /-- The position of the next instruction. -/
  pc : Word := 0
  /-- The base of the current frame. -/
  bp : Word := 0
  /-- The topmost slot in use. -/
  sp : Word := -1
  /-- The position at which the latest instruction was executed. -/
  site : Word := 0
  deriving DecidableEq, Repr

namespace Machine

/-- The machine before a run: an empty stack of zeros. A stack of any size can be had: memory does not run out here. -/
def initial (stackSize : Nat) : Machine := { stack := Array.replicate stackSize 0 }

/-- Where slot `i` lies in the stack, or the fault of asking for it. -/
def place (m : Machine) (i : Int) : Except Fault (Fin m.stack.size) :=
  if i < 0 then .error ⟨m.site, .stackUnderflow i⟩
  else if h : i.toNat < m.stack.size then .ok ⟨i.toNat, h⟩
  else .error ⟨m.site, .stackOverflow i⟩

/-- The word in slot `i`. -/
def slot (m : Machine) (i : Int) : Except Fault Word := (m.place i).map fun k => m.stack[k]

/-- The topmost word. -/
def top (m : Machine) : Except Fault Word := m.slot m.sp.toInt

/-- The base reached from `base` over `n` static links. -/
def follow (m : Machine) : Nat → Word → Except Fault Word
  | 0, base => .ok base
  | n + 1, base =>
    match m.slot base.toInt with
    | .ok next => m.follow n next
    | .error f => .error f

/-- The base of the frame `level` scopes out. A level of zero or less means the current frame. -/
def findBase (m : Machine) (level : Word) : Except Fault Word := m.follow level.toInt.toNat m.bp

/-- The instruction that the program counter points to. -/
def fetch? (m : Machine) (p : Program) : Option Instruction := p.get? m.pc.toInt

/-! ## Slots and links -/

/-- The place of a slot is its number. -/
theorem place_eq_ok_iff {m : Machine} {i : Int} {k : Fin m.stack.size} : m.place i = .ok k ↔ i = k.val := by
  unfold place
  have hk := k.isLt
  split
  · simp only [reduceCtorEq, false_iff]
    omega
  · split
    · simp only [Except.ok.injEq, Fin.ext_iff]
      omega
    · simp only [reduceCtorEq, false_iff]
      omega

/-- A slot outside the stack is below zero or at its size and above, and the fault says which. -/
theorem place_eq_error_iff {m : Machine} {i : Int} {f : Fault} :
    m.place i = .error f ↔ (i < 0 ∧ f = ⟨m.site, .stackUnderflow i⟩) ∨
      ((m.stack.size : Int) ≤ i ∧ f = ⟨m.site, .stackOverflow i⟩) := by
  unfold place
  split
  · rename_i h
    have hn : ¬((m.stack.size : Int) ≤ i) := by omega
    simp [h, hn, eq_comm]
  · rename_i h
    split
    · rename_i hk
      have hn : ¬((m.stack.size : Int) ≤ i) := by omega
      simp [h, hn]
    · rename_i hk
      have hn : (m.stack.size : Int) ≤ i := by omega
      simp [h, hn, eq_comm]

/-- A slot is read if it lies in the stack, and its word is what the stack holds there. -/
theorem slot_eq_ok_iff {m : Machine} {i : Int} {w : Word} :
    m.slot i = .ok w ↔ 0 ≤ i ∧ m.stack[i.toNat]? = some w := by
  unfold slot
  cases hp : m.place i with
  | ok k =>
    have hi := place_eq_ok_iff.mp hp
    subst hi
    simp [Except.map]
  | error f =>
    simp only [Except.map, reduceCtorEq, false_iff, not_and]
    intro h0 hw
    have hlt := (Array.getElem?_eq_some_iff.mp hw).1
    rcases place_eq_error_iff.mp hp with ⟨h, -⟩ | ⟨h, -⟩ <;> omega

/-- Reading a slot faults as asking for its place does. -/
theorem slot_eq_error_iff {m : Machine} {i : Int} {f : Fault} : m.slot i = .error f ↔ m.place i = .error f := by
  unfold slot
  cases m.place i <;> simp [Except.map]

/-- Links are followed one after the other. -/
theorem follow_add (m : Machine) (a b : Nat) (base : Word) :
    m.follow (a + b) base = (m.follow a base).bind (m.follow b) := by
  induction a generalizing base with
  | zero => simp [follow, Except.bind]
  | succ a ih =>
    rw [Nat.succ_add]
    simp only [follow]
    cases m.slot base.toInt with
    | ok next => exact ih next
    | error f => rfl

end Machine

end PMachine
