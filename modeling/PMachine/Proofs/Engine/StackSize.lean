import PMachine.Proofs.Engine.Turn
import PMachine.Proofs.Machine.LargerStack

/-!
# The size of the stack

A larger stack does not change a run that never asks for a slot above the smaller one: turn by turn, the machine of the one run
is that of the other with zeros above its stack. So a run that halts, or fails otherwise than by such a slot, does so on a larger
stack too.
-/

namespace PMachine

/-- Whether a run failed since a slot above the stack was asked for. -/
def Error.IsOverflow : Error → Prop
  | .fault f => f.cause.IsOverflow
  | .addressSpaceExceeded _ _ | .alreadyBound | .emptyProgram | .pcOutOfRange _ | .stepLimitExceeded _ => False

/-- An error that names no slot above the stack was not caused by one. -/
theorem Error.not_isOverflow {err : Error} (h : ∀ site slot, err ≠ .fault ⟨site, .stackOverflow slot⟩) :
    ¬err.IsOverflow := by
  intro hover
  rcases err with _ | _ | _ | ⟨site, slot | _ | _ | _⟩ | _ | _
  case fault.stackOverflow => exact h site slot rfl
  all_goals exact hover

namespace Halted

/-- The end of the run with `n` zeros above the stack. -/
def grow (h : Halted) (n : Nat) : Halted := { h with machine := h.machine.grow n }

end Halted

/-- The second run is as far as the first, with `n` zeros above its stack, unless the first has failed by a slot above its
stack. -/
def Progress.Lifts (n : Nat) : Progress → Progress → Prop
  | .running r, q => ∃ log, q = .running ⟨r.machine.grow n, r.steps, log⟩
  | .returned _ (.ok h), q => ∃ log, q = .returned log (.ok (h.grow n))
  | .returned _ (.error err), q => ¬err.IsOverflow → ∃ log, q = .returned log (.error err)

namespace Engine

/-- The engine with another size of the stack. -/
def withStackSize (e : Engine) (size : Nat) : Engine := { e with config.stackSize := size }

variable {e : Engine} {n size : Nat}

/-- What follows an instruction does not depend on the stack. -/
theorem lifts_settle (i : Instruction) (m : Machine) (steps : Nat) (log log' : Log) :
    Progress.Lifts n (e.settle i m steps log) ((e.withStackSize size).settle i (m.grow n) steps log') := by
  have hpc : (m.grow n).pc = m.pc := rfl
  have hlimit : (e.withStackSize size).config.stepLimit = e.config.stepLimit := rfl
  unfold settle
  rw [hpc, hlimit]
  by_cases h0 : m.pc = 0
  · rw [if_pos h0, if_pos h0]
    exact ⟨_, rfl⟩
  · rw [if_neg h0, if_neg h0]
    cases e.config.stepLimit with
    | none => exact ⟨_, rfl⟩
    | some limit =>
      by_cases hle : limit ≤ steps
      · simp only [hle, if_true]
        exact fun _ => ⟨_, rfl⟩
      · simp only [hle, if_false]
        exact ⟨_, rfl⟩

/-- A turn does the same on a larger stack. -/
theorem lifts_turn (r : Run) (log : Log) :
    Progress.Lifts n (e.turn r) ((e.withStackSize size).turn ⟨r.machine.grow n, r.steps, log⟩) := by
  -- The program counter is the same, so both runs fetch the same instruction.
  rcases e.turn_cases r with ⟨hfetch, ht⟩ | ⟨i, f, m, hfetch, hexec, ht⟩ | ⟨i, m, hfetch, hexec, ht⟩
  · rw [ht]
    intro _
    exact ⟨_, turn_of_fetch?_eq_none hfetch⟩
  · have hgrow := r.machine.execute_grow i n
    rw [hexec] at hgrow
    rw [ht]
    intro hf
    exact ⟨_, turn_of_execute_eq_error hfetch (hgrow hf)⟩
  · have hgrow := r.machine.execute_grow i n
    rw [hexec] at hgrow
    have hlarger := turn_of_execute_eq_ok (e := e.withStackSize size) (r := ⟨r.machine.grow n, r.steps, log⟩) hfetch hgrow
    rw [ht, hlarger]
    exact lifts_settle i m _ _ _

/-- Turn by turn, a run on a larger stack comes as far. -/
theorem lifts_advance {p q : Progress} (h : Progress.Lifts n p q) (turns : Nat) :
    Progress.Lifts n (e.advance turns p) ((e.withStackSize size).advance turns q) := by
  induction turns generalizing p q with
  | zero => exact h
  | succ turns ih =>
    cases p with
    | running r =>
      obtain ⟨log, rfl⟩ := h
      exact ih (lifts_turn r log)
    | returned log outcome =>
      rw [advance_returned]
      cases outcome with
      | ok halted =>
        obtain ⟨log', rfl⟩ := h
        exact ⟨log', advance_returned _ _ _ _⟩
      | error err =>
        intro herr
        obtain ⟨log', rfl⟩ := h herr
        exact ⟨log', advance_returned _ _ _ _⟩

/-- Two runs start alike but for the sizes of their stacks. -/
theorem lifts_start (e : Engine) (n : Nat) (log : Log) :
    Progress.Lifts n (e.start log) ((e.withStackSize (e.config.stackSize + n)).start log) := by
  have hprogram : (e.withStackSize (e.config.stackSize + n)).program = e.program := rfl
  have hsize : (e.withStackSize (e.config.stackSize + n)).config.stackSize = e.config.stackSize + n := rfl
  unfold start
  rw [hprogram, hsize, ← Machine.grow_initial]
  cases e.program.isEmpty with
  | true => exact fun _ => ⟨_, rfl⟩
  | false => exact ⟨_, rfl⟩

/-- A whole run on a larger stack. -/
theorem lifts_run (e : Engine) (n turns : Nat) :
    Progress.Lifts n (e.advance turns (e.start {}))
      ((e.withStackSize (e.config.stackSize + n)).advance turns ((e.withStackSize (e.config.stackSize + n)).start {})) :=
  lifts_advance (lifts_start e n {}) turns

/-- Of every engine, with a program bound or not, and every larger stack. A run that halts does so on the larger stack after as
many steps, by the same instruction and with the same registers, so that it names the same slot as that of its result; its stack
has zeros above it, and a result that could be read is the same. A run that fails otherwise than by a slot above its stack fails
with the same error. -/
theorem execute_larger_stack (hsize : e.config.stackSize ≤ size) (turns : Nat) :
    (∀ h, e.execute turns = some (.ok h) → ∃ h', (e.withStackSize size).execute turns = some (.ok h') ∧
      h'.machine.pc = h.machine.pc ∧ h'.machine.bp = h.machine.bp ∧ h'.machine.sp = h.machine.sp ∧
      h'.steps = h.steps ∧ h'.last = h.last ∧ h'.resultIndex = h.resultIndex ∧
      h'.machine.stack = h.machine.stack ++ Array.replicate (size - e.config.stackSize) 0 ∧
      ∀ w, h.result = .ok w → h'.result = .ok w) ∧
    ∀ err, e.execute turns = some (.error err) → (∀ site slot, err ≠ .fault ⟨site, .stackOverflow slot⟩) →
      (e.withStackSize size).execute turns = some (.error err) := by
  obtain ⟨n, rfl⟩ := Nat.exists_eq_add_of_le hsize
  have hlifts := lifts_run e n turns
  rw [Nat.add_sub_cancel_left]
  constructor
  · intro h hret
    obtain ⟨log, hp⟩ := execute_eq_some_iff.mp hret
    rw [hp] at hlifts
    refine ⟨h.grow n, execute_eq_some_iff.mpr hlifts, rfl, rfl, rfl, rfl, rfl, rfl, rfl, ?_⟩
    intro w hw
    have hread := h.machine.persists_slot n h.resultIndex
    have hslot : h.machine.slot h.resultIndex = .ok w := hw
    rw [hslot] at hread
    exact hread
  · intro err hret herr
    obtain ⟨log, hp⟩ := execute_eq_some_iff.mp hret
    rw [hp] at hlifts
    exact execute_eq_some_iff.mpr (hlifts (Error.not_isOverflow herr))

/-- A run that halts on three slots, of which it needs all, and one that asks for slot -2 of an empty stack, both on five
slots. -/
theorem execute_larger_stack_five :
    let halts : Engine := { config := { stackSize := 3 }, bound := some (.ofList [⟨.lit, 0, 8⟩, ⟨.opr, -3, 0⟩]) }
    let fails : Engine := { config := { stackSize := 0 }, bound := some (.ofList [⟨.opr, 0, 2⟩]) }
    let h : Halted :=
      { machine := { stack := #[8, 0, 0], site := 1 }, last := ⟨.opr, -3, 0⟩, steps := 2, maxLevel := 3 }
    let err : Error := .fault ⟨0, .stackUnderflow (-2)⟩
    (halts.execute 2 = some (.ok h) ∧ h.result = .ok 8 ∧
      ∃ h', (halts.withStackSize 5).execute 2 = some (.ok h') ∧ h'.steps = 2 ∧ h'.machine.stack = #[8, 0, 0, 0, 0] ∧
        h'.result = .ok 8) ∧
    fails.execute 1 = some (.error err) ∧ (fails.withStackSize 5).execute 1 = some (.error err) := by
  intro halts fails h err
  have hhalts : halts.execute 2 = some (.ok h) := by
    dsimp only [halts, h]
    rfl
  have hresult : h.result = .ok 8 := by
    dsimp only [h]
    rfl
  have hfails : fails.execute 1 = some (.error err) := by
    dsimp only [fails, err]
    rfl
  have hthree : halts.config.stackSize ≤ 5 := by decide
  have hnone : fails.config.stackSize ≤ 5 := by decide
  obtain ⟨hlarger, -⟩ := execute_larger_stack hthree 2
  obtain ⟨h', hexec, -, -, -, hsteps, -, -, hstack, hread⟩ := hlarger h hhalts
  obtain ⟨-, hsame⟩ := execute_larger_stack hnone 1
  refine ⟨⟨hhalts, hresult, h', hexec, hsteps, hstack, hread 8 hresult⟩, hfails, hsame err hfails ?_⟩
  intro site slot
  simp [err]

end Engine

end PMachine
