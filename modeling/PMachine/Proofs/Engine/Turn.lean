import PMachine.Engine.Run

/-!
# Turns of a run

What one turn of a run can do, and what follows for a run that is carried on turn by turn: it has executed one instruction for
every turn it went on after.
-/

namespace PMachine

/-- What the run came to, if it has returned. -/
def Progress.outcome? : Progress → Option (Except Error Halted)
  | .running _ => none
  | .returned _ outcome => some outcome

namespace Engine

/-- The run returns `outcome` in turn number `turns`, and not earlier. -/
def ReturnsIn (e : Engine) (turns : Nat) (outcome : Except Error Halted) : Prop :=
  e.execute turns = some outcome ∧ ∀ k < turns, e.execute k = none

variable {e : Engine}

/-- Running the program is carrying its start on. -/
theorem execute_eq_outcome? (e : Engine) (turns : Nat) :
    e.execute turns = (e.advance turns (e.start {})).outcome? := by
  unfold execute executeLogged
  cases e.advance turns (e.start {}) <;> rfl

/-- A run gives an outcome exactly if it has returned with it. -/
theorem executeLogged_eq_some_iff {turns : Nat} {log log' : Log} {outcome : Except Error Halted} :
    e.executeLogged turns log = some (log', outcome) ↔ e.advance turns (e.start log) = .returned log' outcome := by
  unfold executeLogged
  cases e.advance turns (e.start log) <;> simp

theorem execute_eq_some_iff {turns : Nat} {outcome : Except Error Halted} :
    e.execute turns = some outcome ↔ ∃ log, e.advance turns (e.start {}) = .returned log outcome := by
  rw [execute_eq_outcome?]
  cases e.advance turns (e.start {}) <;> simp [Progress.outcome?]

/-- An outcome stays as it is when the run is given more turns. -/
theorem execute_of_le {a b : Nat} {outcome : Except Error Halted} (hab : a ≤ b) (h : e.execute a = some outcome) :
    e.execute b = some outcome := by
  obtain ⟨r, hr, rfl⟩ := Option.map_eq_some_iff.mp h
  exact Option.map_eq_some_iff.mpr ⟨r, executeLogged_of_le hab hr, rfl⟩

/-- A run that has not returned had not returned before. -/
theorem execute_eq_none_of_le {a b : Nat} (hab : a ≤ b) (h : e.execute b = none) : e.execute a = none := by
  cases ha : e.execute a with
  | none => rfl
  | some outcome =>
    rw [execute_of_le hab ha] at h
    cases h

/-! ## One turn -/

/-- The run goes on after an instruction that does not lead back to position 0, unless the step limit is used up. -/
theorem settle_eq_running_iff {i : Instruction} {m : Machine} {steps : Nat} {log : Log} {r : Run} :
    e.settle i m steps log = .running r ↔
      m.pc ≠ 0 ∧ (∀ limit, e.config.stepLimit = some limit → steps < limit) ∧ r = { machine := m, steps, log } := by
  unfold settle
  by_cases hpc : m.pc = 0
  · simp [hpc]
  · cases e.config.stepLimit with
    | none => simp [hpc, eq_comm]
    | some limit =>
      by_cases hle : limit ≤ steps
      · have hlt : ¬steps < limit := by omega
        simp [hpc, hle, hlt]
      · have hlt : steps < limit := by omega
        simp [hpc, hle, hlt, eq_comm]

/-- The run halts after an instruction that leads back to position 0, whatever the step limit is. -/
theorem settle_eq_halted_iff {i : Instruction} {m : Machine} {steps : Nat} {log log' : Log} {h : Halted} :
    e.settle i m steps log = .returned log' (.ok h) ↔
      m.pc = 0 ∧ h = { machine := m, last := i, steps, maxLevel := e.config.maxLevel } ∧
        log' = log.add (.halted steps h.resultIndex) := by
  unfold settle
  by_cases hpc : m.pc = 0
  · rw [if_pos hpc]
    constructor
    · intro hs
      cases hs
      exact ⟨hpc, rfl, rfl⟩
    · rintro ⟨-, rfl, rfl⟩
      rfl
  · cases e.config.stepLimit with
    | none => simp [hpc]
    | some limit => by_cases hle : limit ≤ steps <;> simp [hpc, hle]

/-- After an instruction that succeeds, a run fails only by the step limit of its engine, which it has used up. -/
theorem settle_eq_error_iff {i : Instruction} {m : Machine} {steps : Nat} {log log' : Log} {err : Error} :
    e.settle i m steps log = .returned log' (.error err) ↔
      ∃ limit, e.config.stepLimit = some limit ∧ m.pc ≠ 0 ∧ limit ≤ steps ∧ err = .stepLimitExceeded limit ∧
        log' = log.add (.exhausted limit m.pc) := by
  unfold settle
  by_cases hpc : m.pc = 0
  · simp [hpc]
  · cases e.config.stepLimit with
    | none => simp [hpc]
    | some limit =>
      by_cases hle : limit ≤ steps
      · simp [hpc, hle, eq_comm, and_comm]
      · simp [hpc, hle]

theorem turn_of_fetch?_eq_none {r : Run} (h : r.machine.fetch? e.program = none) :
    e.turn r = .returned r.log (.error (.pcOutOfRange r.machine.pc)) := by
  simp only [turn, h]

theorem turn_of_execute_eq_error {r : Run} {i : Instruction} {f : Fault} {m : Machine}
    (h : r.machine.fetch? e.program = some i) (hexec : r.machine.execute i = .error f m) :
    e.turn r = .returned (r.log.dispatch r.machine i) (.error (.fault f)) := by
  simp only [turn, h, hexec]

theorem turn_of_execute_eq_ok {r : Run} {i : Instruction} {m : Machine} (h : r.machine.fetch? e.program = some i)
    (hexec : r.machine.execute i = .ok () m) :
    e.turn r = e.settle i m (r.steps + 1) (r.log.dispatch r.machine i) := by
  simp only [turn, h, hexec]

/-- What a turn can do: the program counter has left the program, the instruction there faults, or it succeeds and is
settled. -/
theorem turn_cases (e : Engine) (r : Run) :
    (r.machine.fetch? e.program = none ∧ e.turn r = .returned r.log (.error (.pcOutOfRange r.machine.pc))) ∨
      (∃ i f m, r.machine.fetch? e.program = some i ∧ r.machine.execute i = .error f m ∧
        e.turn r = .returned (r.log.dispatch r.machine i) (.error (.fault f))) ∨
      ∃ i m, r.machine.fetch? e.program = some i ∧ r.machine.execute i = .ok () m ∧
        e.turn r = e.settle i m (r.steps + 1) (r.log.dispatch r.machine i) := by
  cases hfetch : r.machine.fetch? e.program with
  | none => exact .inl ⟨rfl, turn_of_fetch?_eq_none hfetch⟩
  | some i =>
    cases hexec : r.machine.execute i with
    | error f m => exact .inr (.inl ⟨i, f, m, rfl, hexec, turn_of_execute_eq_error hfetch hexec⟩)
    | ok u m => exact .inr (.inr ⟨i, m, rfl, hexec, turn_of_execute_eq_ok hfetch hexec⟩)

/-- A turn that the run goes on after has executed an instruction that did not lead to position 0, and has counted it. -/
theorem exists_of_turn_eq_running {r r' : Run} (h : e.turn r = .running r') :
    ∃ i, r.machine.fetch? e.program = some i ∧ r.machine.execute i = .ok () r'.machine ∧ r'.machine.pc ≠ 0 ∧
      r'.steps = r.steps + 1 := by
  rcases e.turn_cases r with ⟨-, ht⟩ | ⟨i, f, m, -, -, ht⟩ | ⟨i, m, hfetch, hexec, ht⟩
  · cases ht.symm.trans h
  · cases ht.symm.trans h
  · obtain ⟨hpc, -, rfl⟩ := settle_eq_running_iff.mp (ht.symm.trans h)
    exact ⟨i, hfetch, hexec, hpc, rfl⟩

/-- A turn that the run halts in has executed the last instruction, which led to position 0, and has counted it. -/
theorem of_turn_eq_halted {r : Run} {log : Log} {h : Halted} (hr : e.turn r = .returned log (.ok h)) :
    r.machine.fetch? e.program = some h.last ∧ r.machine.execute h.last = .ok () h.machine ∧ h.machine.pc = 0 ∧
      h.maxLevel = e.config.maxLevel ∧ h.steps = r.steps + 1 := by
  rcases e.turn_cases r with ⟨-, ht⟩ | ⟨i, f, m, -, -, ht⟩ | ⟨i, m, hfetch, hexec, ht⟩
  · cases ht.symm.trans hr
  · cases ht.symm.trans hr
  · obtain ⟨hpc, rfl, -⟩ := settle_eq_halted_iff.mp (ht.symm.trans hr)
    exact ⟨hfetch, hexec, hpc, rfl, rfl⟩

/-- A turn that the run fails in found no instruction, or one that a fault stopped, or used the step limit up. -/
theorem of_turn_eq_error {r : Run} {log : Log} {err : Error} (h : e.turn r = .returned log (.error err)) :
    (r.machine.fetch? e.program = none ∧ err = .pcOutOfRange r.machine.pc) ∨
      (∃ i f m, r.machine.fetch? e.program = some i ∧ r.machine.execute i = .error f m ∧ err = .fault f) ∨
      ∃ limit, e.config.stepLimit = some limit ∧ err = .stepLimitExceeded limit := by
  rcases e.turn_cases r with ⟨hfetch, ht⟩ | ⟨i, f, m, hfetch, hexec, ht⟩ | ⟨i, m, -, -, ht⟩
  · cases ht.symm.trans h
    exact .inl ⟨hfetch, rfl⟩
  · cases ht.symm.trans h
    exact .inr (.inl ⟨i, f, m, hfetch, hexec, rfl⟩)
  · obtain ⟨limit, hlimit, -, -, herr, -⟩ := settle_eq_error_iff.mp (ht.symm.trans h)
    exact .inr (.inr ⟨limit, hlimit, herr⟩)

/-- A turn that the run goes on after counts one instruction. -/
theorem steps_of_turn_eq_running {r r' : Run} (h : e.turn r = .running r') : r'.steps = r.steps + 1 := by
  obtain ⟨i, -, -, -, hsteps⟩ := exists_of_turn_eq_running h
  exact hsteps

/-! ## Turn by turn -/

/-- The last turn of a run that goes on until then. -/
theorem advance_succ_of_running {turns : Nat} {p : Progress} {r : Run} (h : e.advance turns p = .running r) :
    e.advance (turns + 1) p = e.turn r := by
  rw [advance_add, h]
  rfl

/-- A run that goes on after a turn went on before it. -/
theorem exists_running_of_succ {turns : Nat} {p : Progress} {r' : Run} (h : e.advance (turns + 1) p = .running r') :
    ∃ r, e.advance turns p = .running r ∧ e.turn r = .running r' := by
  cases hp : e.advance turns p with
  | running r => exact ⟨r, rfl, advance_succ_of_running hp ▸ h⟩
  | returned log outcome =>
    rw [advance_add, hp, advance_returned] at h
    cases h

/-- A run starts on a fresh machine and has executed nothing. -/
theorem of_start_eq_running {log : Log} {r : Run} (h : e.start log = .running r) :
    r.machine = .initial e.config.stackSize ∧ r.steps = 0 := by
  unfold start at h
  split at h
  · cases h
  · cases h
    exact ⟨rfl, rfl⟩

/-- A run that goes on has executed as many instructions as it had turns. -/
theorem steps_of_running {log : Log} {turns : Nat} {r : Run} (h : e.advance turns (e.start log) = .running r) :
    r.steps = turns := by
  induction turns generalizing r with
  | zero => exact (of_start_eq_running h).2
  | succ turns ih =>
    obtain ⟨s, hs, hturn⟩ := exists_running_of_succ h
    rw [steps_of_turn_eq_running hturn, ih hs]

/-- What holds of the machine that a run starts on, and is kept by every instruction of the program that succeeds, holds of
every machine that the run comes to. -/
theorem running_induction {P : Machine → Prop} {log : Log} {turns : Nat} {r : Run}
    (hinit : P (.initial e.config.stackSize))
    (hstep : ∀ m i m', m.fetch? e.program = some i → m.execute i = .ok () m' → P m → P m')
    (h : e.advance turns (e.start log) = .running r) : P r.machine := by
  induction turns generalizing r with
  | zero =>
    rw [(of_start_eq_running h).1]
    exact hinit
  | succ turns ih =>
    obtain ⟨s, hs, hturn⟩ := exists_running_of_succ h
    obtain ⟨i, hfetch, hexec, -⟩ := exists_of_turn_eq_running hturn
    exact hstep s.machine i r.machine hfetch hexec (ih hs)

/-! ## The turn a run returns in -/

/-- A run that has not returned goes on. -/
theorem exists_running_of_execute_eq_none {turns : Nat} (h : e.execute turns = none) :
    ∃ r, e.advance turns (e.start {}) = .running r := by
  rw [execute_eq_outcome?] at h
  cases hp : e.advance turns (e.start {}) with
  | running r => exact ⟨r, rfl⟩
  | returned log outcome =>
    rw [hp] at h
    cases h

/-- A run of a program with instructions does not return before its first turn. -/
theorem execute_zero (h : e.program.isEmpty = false) : e.execute 0 = none := by
  have hstart : e.start {} = .running _ := if_neg (by simp [h])
  rw [execute_eq_outcome?, show e.advance 0 (e.start {}) = e.start {} from rfl, hstart]
  rfl

/-- A run of a program without instructions returns at once. -/
theorem execute_of_isEmpty (h : e.program.isEmpty = true) (turns : Nat) :
    e.execute turns = some (.error .emptyProgram) := by
  have hstart : e.start {} = .returned {} (.error .emptyProgram) := if_pos h
  rw [execute_eq_outcome?, hstart, advance_returned]
  rfl

/-- A run returns in the turn after the last one that it goes on after. -/
theorem returnsIn_succ_iff {turns : Nat} {outcome : Except Error Halted} :
    e.ReturnsIn (turns + 1) outcome ↔
      ∃ r log, e.advance turns (e.start {}) = .running r ∧ r.steps = turns ∧ e.turn r = .returned log outcome := by
  constructor
  · rintro ⟨hret, hbefore⟩
    obtain ⟨r, hr⟩ := exists_running_of_execute_eq_none (hbefore turns (by omega))
    rw [execute_eq_outcome?, advance_succ_of_running hr] at hret
    cases ht : e.turn r with
    | running r' =>
      rw [ht] at hret
      cases hret
    | returned log outcome' =>
      rw [ht] at hret
      cases hret
      exact ⟨r, log, hr, steps_of_running hr, ht⟩
  · rintro ⟨r, log, hr, -, ht⟩
    have hnone : e.execute turns = none := by
      rw [execute_eq_outcome?, hr]
      rfl
    refine ⟨?_, fun k hk => execute_eq_none_of_le (by omega) hnone⟩
    rw [execute_eq_outcome?, advance_succ_of_running hr, ht]
    rfl

/-- A run that has returned did so in one of its turns. -/
theorem exists_returnsIn {turns : Nat} {outcome : Except Error Halted} (h : e.execute turns = some outcome) :
    ∃ n ≤ turns, e.ReturnsIn n outcome := by
  induction turns with
  | zero => exact ⟨0, by omega, h, by omega⟩
  | succ turns ih =>
    cases hprev : e.execute turns with
    | some o =>
      cases (execute_of_le (by omega) hprev).symm.trans h
      obtain ⟨n, hn, hret⟩ := ih hprev
      exact ⟨n, by omega, hret⟩
    | none =>
      exact ⟨turns + 1, by omega, h, fun k hk => execute_eq_none_of_le (by omega) hprev⟩

/-- A run of a program with instructions that returns does so in one of its turns. -/
theorem ReturnsIn.exists_succ {turns : Nat} {outcome : Except Error Halted} (h : e.ReturnsIn turns outcome)
    (hne : e.program.isEmpty = false) : ∃ n, turns = n + 1 := by
  cases turns with
  | succ n => exact ⟨n, rfl⟩
  | zero => cases (execute_zero hne).symm.trans h.1

/-- A run of a program with instructions that has returned did so in the turn that followed those it has counted. -/
theorem exists_last_turn {turns : Nat} {outcome : Except Error Halted} (h : e.execute turns = some outcome)
    (hne : e.program.isEmpty = false) :
    ∃ n r log, e.advance n (e.start {}) = .running r ∧ r.steps = n ∧ e.turn r = .returned log outcome := by
  obtain ⟨n, -, hret⟩ := exists_returnsIn h
  obtain ⟨k, rfl⟩ := hret.exists_succ hne
  exact ⟨k, returnsIn_succ_iff.mp hret⟩

/-- A run that halts has counted the turn it halts in. -/
theorem ReturnsIn.steps_eq {turns : Nat} {h : Halted} (hret : e.ReturnsIn turns (.ok h))
    (hne : e.program.isEmpty = false) : h.steps = turns := by
  obtain ⟨n, rfl⟩ := hret.exists_succ hne
  obtain ⟨r, log, -, hr, ht⟩ := returnsIn_succ_iff.mp hret
  obtain ⟨-, -, -, -, hsteps⟩ := of_turn_eq_halted ht
  rw [hsteps, hr]

/-- A run of a program with instructions halts in a turn, fails in one or never returns. -/
theorem halts_or_fails_or_goes_on (hne : e.program.isEmpty = false) :
    (∃ n h, e.ReturnsIn n (.ok h)) ∨ (∃ n err, e.ReturnsIn (n + 1) (.error err)) ∨ ∀ turns, e.execute turns = none := by
  by_cases hret : ∃ turns outcome, e.execute turns = some outcome
  · obtain ⟨turns, outcome, h⟩ := hret
    obtain ⟨n, -, hn⟩ := exists_returnsIn h
    cases outcome with
    | ok halted => exact .inl ⟨n, halted, hn⟩
    | error err =>
      obtain ⟨k, rfl⟩ := hn.exists_succ hne
      exact .inr (.inl ⟨k, err, hn⟩)
  · refine .inr (.inr fun turns => ?_)
    cases h : e.execute turns with
    | none => rfl
    | some outcome => exact absurd ⟨turns, outcome, h⟩ hret

end Engine

end PMachine
