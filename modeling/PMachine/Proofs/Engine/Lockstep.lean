import PMachine.Proofs.Engine.Turn

/-!
# Two runs in step

Two engines of one configuration run in step for as long as they fetch instructions that do the same to every machine. Turn by
turn they come to the same machine after as many steps, and they return in the same turn, with the same error or with ends that
differ in the last instruction at most.
-/

namespace PMachine

/-- The second run is as far as the first. It goes on from the same machine after as many steps, or has failed with the same
error, or has halted with an end that differs in the last instruction at most; `R` relates the two last instructions. -/
def Progress.InStep (R : Instruction → Instruction → Prop) : Progress → Progress → Prop
  | .running r, q => ∃ log, q = .running ⟨r.machine, r.steps, log⟩
  | .returned _ (.error err), q => ∃ log, q = .returned log (.error err)
  | .returned _ (.ok h), q => ∃ log last, R h.last last ∧ q = .returned log (.ok { h with last })

namespace Engine

variable {e e' : Engine} {R : Instruction → Instruction → Prop}

/-- What follows related instructions that leave the same machine. -/
theorem inStep_settle (hconfig : e'.config = e.config) {i j : Instruction} (hij : R i j) (m : Machine) (steps : Nat)
    (log log' : Log) : Progress.InStep R (e.settle i m steps log) (e'.settle j m steps log') := by
  unfold settle
  rw [hconfig]
  by_cases h0 : m.pc = 0
  · rw [if_pos h0, if_pos h0]
    exact ⟨_, j, hij, rfl⟩
  · rw [if_neg h0, if_neg h0]
    cases e.config.stepLimit with
    | none => exact ⟨_, rfl⟩
    | some limit =>
      by_cases hle : limit ≤ steps
      · simp only [hle, if_true]
        exact ⟨_, rfl⟩
      · simp only [hle, if_false]
        exact ⟨_, rfl⟩

/-- A turn in which both runs fetch related instructions, or both find none. -/
theorem inStep_turn (hconfig : e'.config = e.config) (hsame : ∀ i j, R i j → ∀ m : Machine, m.execute j = m.execute i)
    {r : Run} (hfetch : Option.Rel R (r.machine.fetch? e.program) (r.machine.fetch? e'.program)) (log : Log) :
    Progress.InStep R (e.turn r) (e'.turn ⟨r.machine, r.steps, log⟩) := by
  generalize hi : r.machine.fetch? e.program = a at hfetch
  generalize hj : r.machine.fetch? e'.program = b at hfetch
  cases hfetch with
  | none =>
    rw [turn_of_fetch?_eq_none hi]
    exact ⟨_, turn_of_fetch?_eq_none hj⟩
  | @some i j hij =>
    have hexec := hsame i j hij r.machine
    cases hm : r.machine.execute i with
    | error f m =>
      rw [turn_of_execute_eq_error hi hm]
      exact ⟨_, turn_of_execute_eq_error (r := ⟨r.machine, r.steps, log⟩) hj (hexec.trans hm)⟩
    | ok u m =>
      rw [turn_of_execute_eq_ok hi hm, turn_of_execute_eq_ok (r := ⟨r.machine, r.steps, log⟩) hj (hexec.trans hm)]
      exact inStep_settle hconfig hij m _ _ _

/-- Two runs start alike if both programs have instructions, or neither has. -/
theorem inStep_start (hconfig : e'.config = e.config) (hempty : e'.program.isEmpty = e.program.isEmpty) (log log' : Log) :
    Progress.InStep R (e.start log) (e'.start log') := by
  unfold start
  rw [hconfig, hempty]
  cases e.program.isEmpty with
  | true => exact ⟨_, rfl⟩
  | false => exact ⟨_, rfl⟩

/-- Two runs stay in step if wherever the first has come to, both fetch related instructions, or both find none. -/
theorem inStep_run (hconfig : e'.config = e.config) (hempty : e'.program.isEmpty = e.program.isEmpty)
    (hsame : ∀ i j, R i j → ∀ m : Machine, m.execute j = m.execute i) {turns : Nat}
    (hfetch : ∀ turn < turns, ∀ r, e.advance turn (e.start {}) = .running r →
      Option.Rel R (r.machine.fetch? e.program) (r.machine.fetch? e'.program)) :
    Progress.InStep R (e.advance turns (e.start {})) (e'.advance turns (e'.start {})) := by
  induction turns with
  | zero => exact inStep_start hconfig hempty {} {}
  | succ turns ih =>
    have hbefore := ih fun turn hturn => hfetch turn (by omega)
    cases hp : e.advance turns (e.start {}) with
    | running r =>
      rw [hp] at hbefore
      obtain ⟨log, hq⟩ := hbefore
      rw [advance_succ_of_running hp, advance_succ_of_running hq]
      exact inStep_turn hconfig hsame (hfetch turns (by omega) r hp) log
    | returned log outcome =>
      rw [hp] at hbefore
      rw [advance_add, hp, advance_returned, advance_add]
      cases outcome with
      | ok h =>
        obtain ⟨log', last, hlast, hq⟩ := hbefore
        rw [hq, advance_returned]
        exact ⟨log', last, hlast, rfl⟩
      | error err =>
        obtain ⟨log', hq⟩ := hbefore
        rw [hq, advance_returned]
        exact ⟨log', rfl⟩

/-- What two runs in step have come to: neither has returned, or both have failed with the same error, or both have halted. -/
theorem execute_of_inStep {turns : Nat}
    (h : Progress.InStep R (e.advance turns (e.start {})) (e'.advance turns (e'.start {}))) :
    (e.execute turns = none ∧ e'.execute turns = none) ∨
      (∃ err, e.execute turns = some (.error err) ∧ e'.execute turns = some (.error err)) ∨
      ∃ h last, R h.last last ∧ e.execute turns = some (.ok h) ∧ e'.execute turns = some (.ok { h with last }) := by
  rw [execute_eq_outcome?, execute_eq_outcome?]
  cases hp : e.advance turns (e.start {}) with
  | running r =>
    rw [hp] at h
    obtain ⟨log, hq⟩ := h
    rw [hq]
    exact .inl ⟨rfl, rfl⟩
  | returned log outcome =>
    rw [hp] at h
    cases outcome with
    | error err =>
      obtain ⟨log', hq⟩ := h
      rw [hq]
      exact .inr (.inl ⟨err, rfl, rfl⟩)
    | ok halted =>
      obtain ⟨log', last, hlast, hq⟩ := h
      rw [hq]
      exact .inr (.inr ⟨halted, last, hlast, rfl, rfl⟩)

end Engine

end PMachine
