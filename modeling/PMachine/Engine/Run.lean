import PMachine.Engine.Basic
import PMachine.Machine.Execute
import PMachine.Log.Basic

/-!
# Runs

A run starts on a fresh machine at position 0 and executes one instruction a turn, until the program counter is back at 0, an
instruction faults, the program counter leaves the program or the step limit is used up. A run need not end, so it is carried
on for a number of turns that the caller gives: after them it has returned, or is still running.
-/

namespace PMachine

/-- The end of a run that came back to position 0. -/
structure Halted where
  machine : Machine
  /-- The instruction that ended the run. -/
  last : Instruction
  /-- The number of instructions executed, the last one included. -/
  steps : Nat
  maxLevel : Word
  deriving DecidableEq, Repr

namespace Halted

/-- The slot that the last instruction names as that of the result. -/
def resultIndex (h : Halted) : Int := h.maxLevel.toInt + h.last.level.toInt + h.last.address.toInt

/-- The word in slot `i` of the machine that is left. -/
def slot (h : Halted) (i : Int) : Except Fault Word := h.machine.slot i

/-- The result of the run. -/
def result (h : Halted) : Except Fault Word := h.slot h.resultIndex

end Halted

/-- A run that goes on. -/
structure Run where
  machine : Machine
  /-- The number of instructions executed so far. Nothing bounds it: a count of 64 bits would have to end somewhere. -/
  steps : Nat := 0
  log : Log

/-- How far a run has come. -/
inductive Progress where
  | running (r : Run)
  | returned (log : Log) (outcome : Except Error Halted)

/-- Tells that an instruction is about to be executed, and which operation it is about to perform, if it has one. -/
def Log.dispatch (log : Log) (m : Machine) (i : Instruction) : Log :=
  let log := log.add (.dispatched m.pc m.bp m.sp i)
  match i.opcode, i.operation? with
  | .opr, some op => log.add (.operating op m.pc)
  | _, _ => log

namespace Engine

/-- The start of a run, which a program without instructions does not have. -/
def start (e : Engine) (log : Log) : Progress :=
  if e.program.isEmpty then .returned log (.error .emptyProgram)
  else .running
    { machine := .initial e.config.stackSize, log := log.add (.started e.program.size e.config.stackSize) }

/-- What follows when instruction `i` has been executed as step number `steps` and has left machine `m`: halting is looked at
first, then the step limit. -/
def settle (e : Engine) (i : Instruction) (m : Machine) (steps : Nat) (log : Log) : Progress :=
  if m.pc = 0 then
    let h : Halted := { machine := m, last := i, steps, maxLevel := e.config.maxLevel }
    .returned (log.add (.halted steps h.resultIndex)) (.ok h)
  else
    match e.config.stepLimit with
    | none => .running { machine := m, steps, log }
    | some limit =>
      if limit ≤ steps then .returned (log.add (.exhausted limit m.pc)) (.error (.stepLimitExceeded limit))
      else .running { machine := m, steps, log }

/-- One turn of a run: fetches an instruction and executes it. -/
def turn (e : Engine) (r : Run) : Progress :=
  match r.machine.fetch? e.program with
  | none => .returned r.log (.error (.pcOutOfRange r.machine.pc))
  | some i =>
    let log := r.log.dispatch r.machine i
    match r.machine.execute i with
    | .ok () m => e.settle i m (r.steps + 1) log
    | .error f _ => .returned log (.error (.fault f))

/-- Carries a run on for `turns` turns. -/
def advance (e : Engine) : Nat → Progress → Progress
  | 0, p => p
  | _ + 1, .returned log outcome => .returned log outcome
  | turns + 1, .running r => e.advance turns (e.turn r)

/-- Runs the program and tells it in a log; none if the run takes more than `turns` turns. -/
def executeLogged (e : Engine) (turns : Nat) (log : Log) : Option (Log × Except Error Halted) :=
  match e.advance turns (e.start log) with
  | .running _ => none
  | .returned log outcome => some (log, outcome)

/-- Runs the program; none if the run takes more than `turns` turns. -/
def execute (e : Engine) (turns : Nat) : Option (Except Error Halted) := (e.executeLogged turns {}).map (·.2)

@[simp]
theorem advance_returned (e : Engine) (turns : Nat) (log : Log) (outcome : Except Error Halted) :
    e.advance turns (.returned log outcome) = .returned log outcome := by
  cases turns <;> rfl

/-- A run that is carried on twice is carried on for the sum of the turns. -/
theorem advance_add (e : Engine) (a b : Nat) (p : Progress) :
    e.advance (a + b) p = e.advance b (e.advance a p) := by
  induction a generalizing p with
  | zero => rw [Nat.zero_add]; rfl
  | succ a ih =>
    rw [Nat.succ_add]
    cases p with
    | returned log outcome => simp
    | running r => exact ih (e.turn r)

/-- A run that has returned stays as it is when it is given more turns. -/
theorem executeLogged_of_le {e : Engine} {a b : Nat} {log : Log} {r : Log × Except Error Halted} (hab : a ≤ b)
    (h : e.executeLogged a log = some r) : e.executeLogged b log = some r := by
  unfold executeLogged at h ⊢
  obtain ⟨c, rfl⟩ := Nat.exists_eq_add_of_le hab
  rw [advance_add]
  cases hp : e.advance a (e.start log) with
  | running s => simp [hp] at h
  | returned log' outcome => simpa [hp] using h

/-- What a run that ended so gives: the word in the slot that its last instruction names. -/
def resultOf (outcome : Except Error Halted) : Except Error Word :=
  outcome.bind fun h => h.result.mapError .fault

/-- Runs the program to its result, and tells it in a log. -/
def runLogged (e : Engine) (turns : Nat) (log : Log) : Option (Log × Except Error Word) :=
  (e.executeLogged turns log).map fun r => (r.1, resultOf r.2)

/-- Runs the program to its result; none if the run takes more than `turns` turns. -/
def run (e : Engine) (turns : Nat) : Option (Except Error Word) := (e.execute turns).map resultOf

end Engine

/-- Runs a program to its result, on a machine of the usual sizes. -/
def Program.eval (p : Program) (turns : Nat) : Option (Except Error Word) :=
  match Engine.ofProgram p with
  | .error e => some (.error e)
  | .ok engine => engine.run turns

end PMachine
