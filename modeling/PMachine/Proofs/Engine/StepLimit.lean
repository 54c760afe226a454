import PMachine.Proofs.Engine.Turn

/-!
# The step limit

A step limit does not change what a run does, only how long it may take: turn by turn, a run with a limit is the run without
one, until the turn that uses the limit up. A limit of 0 is used up by the first turn, as a limit of 1 is, so the last turn of
a run with limit `L` is turn number `max L 1`.
-/

namespace PMachine

/-- Stops a run that still goes on, as it has used up its limit. -/
def Progress.exhaust (limit : Nat) : Progress → Progress
  | .running r => .returned (r.log.add (.exhausted limit r.machine.pc)) (.error (.stepLimitExceeded limit))
  | .returned log outcome => .returned log outcome

/-- A run that is stopped keeps the outcome that it has. -/
theorem Progress.outcome?_exhaust (limit : Nat) (p : Progress) :
    (p.exhaust limit).outcome? = some (p.outcome?.getD (.error (.stepLimitExceeded limit))) := by
  cases p <;> rfl

namespace Engine

/-- The engine with another step limit, or with none. -/
def withLimit (e : Engine) (limit : Option Nat) : Engine := { e with config.stepLimit := limit }

variable {e : Engine} {limit : Nat}

/-! ## A limit, turn by turn -/

@[simp]
theorem program_withLimit (e : Engine) (limit : Option Nat) : (e.withLimit limit).program = e.program := rfl

@[simp]
theorem start_withLimit (e : Engine) (limit : Option Nat) (log : Log) : (e.withLimit limit).start log = e.start log := rfl

/-- An instruction that does not use the limit up is settled as without one. -/
theorem settle_withLimit_of_lt {i : Instruction} {m : Machine} {steps : Nat} {log : Log} (h : steps < limit) :
    (e.withLimit (some limit)).settle i m steps log = (e.withLimit none).settle i m steps log := by
  have hle : ¬limit ≤ steps := by omega
  unfold settle withLimit
  by_cases hpc : m.pc = 0
  · rw [if_pos hpc, if_pos hpc]
  · rw [if_neg hpc, if_neg hpc]
    exact if_neg hle

/-- An instruction that uses the limit up stops a run that would go on. -/
theorem settle_withLimit_of_le {i : Instruction} {m : Machine} {steps : Nat} {log : Log} (h : limit ≤ steps) :
    (e.withLimit (some limit)).settle i m steps log = ((e.withLimit none).settle i m steps log).exhaust limit := by
  unfold settle withLimit
  by_cases hpc : m.pc = 0
  · rw [if_pos hpc, if_pos hpc]
    rfl
  · rw [if_neg hpc, if_neg hpc]
    exact if_pos h

/-- A turn that does not use the limit up is the turn without one. -/
theorem turn_withLimit_of_lt {r : Run} (h : r.steps + 1 < limit) :
    (e.withLimit (some limit)).turn r = (e.withLimit none).turn r := by
  unfold turn
  simp only [settle_withLimit_of_lt h, program_withLimit]

/-- A turn that uses the limit up is the turn without one, except that the run does not go on. -/
theorem turn_withLimit_of_le {r : Run} (h : limit ≤ r.steps + 1) :
    (e.withLimit (some limit)).turn r = ((e.withLimit none).turn r).exhaust limit := by
  unfold turn
  simp only [settle_withLimit_of_le h, program_withLimit]
  cases r.machine.fetch? e.program with
  | none => rfl
  | some i => cases hm : r.machine.execute i <;> simp [hm, Progress.exhaust]

/-! ## A limit on a whole run -/

/-- Two engines that have come equally far: if the next turn of the one is that of the other but for a change that leaves a
run that has returned alone, so is the run after that turn. -/
theorem advance_succ_eq {e' : Engine} {turns : Nat} {p : Progress} {g : Progress → Progress}
    (hprev : e'.advance turns p = e.advance turns p) (hg : ∀ log outcome, g (.returned log outcome) = .returned log outcome)
    (hturn : ∀ r, e.advance turns p = .running r → e'.turn r = g (e.turn r)) :
    e'.advance (turns + 1) p = g (e.advance (turns + 1) p) := by
  cases hp : e.advance turns p with
  | returned log outcome => rw [advance_add, advance_add, hprev, hp, advance_returned, advance_returned, hg]
  | running r => rw [advance_succ_of_running hp, advance_succ_of_running (hprev.trans hp), hturn r hp]

/-- Until its last turn but one, a run with a limit is the run without one. -/
theorem advance_withLimit_of_lt {turns : Nat} (log : Log) (h : turns < max limit 1) :
    (e.withLimit (some limit)).advance turns (e.start log) = (e.withLimit none).advance turns (e.start log) := by
  induction turns with
  | zero => rfl
  | succ turns ih =>
    refine advance_succ_eq (g := id) (ih (by omega)) (fun _ _ => rfl) ?_
    intro r hr
    have hsteps : r.steps = turns := steps_of_running (e := e.withLimit none) hr
    exact turn_withLimit_of_lt (by omega)

/-- In its last turn, a run with a limit is stopped if it would go on without one. -/
theorem advance_withLimit_last (e : Engine) (limit : Nat) (log : Log) :
    (e.withLimit (some limit)).advance (max limit 1) (e.start log) =
      ((e.withLimit none).advance (max limit 1) (e.start log)).exhaust limit := by
  obtain ⟨turns, hlast⟩ : ∃ turns, max limit 1 = turns + 1 := ⟨max limit 1 - 1, by omega⟩
  rw [hlast]
  refine advance_succ_eq (advance_withLimit_of_lt log (by omega)) (fun _ _ => rfl) ?_
  intro r hr
  have hsteps : r.steps = turns := steps_of_running (e := e.withLimit none) hr
  exact turn_withLimit_of_le (by omega)

/-- Until its last turn but one, a run with a limit returns what the run without one does. -/
theorem execute_withLimit_of_lt {turns : Nat} (h : turns < max limit 1) :
    (e.withLimit (some limit)).execute turns = (e.withLimit none).execute turns := by
  rw [execute_eq_outcome?, execute_eq_outcome?, start_withLimit, start_withLimit, advance_withLimit_of_lt {} h]

/-- In its last turn, a run with a limit has returned: what the run without one has, or else that the limit is exceeded. -/
theorem execute_withLimit_last (e : Engine) (limit : Nat) :
    (e.withLimit (some limit)).execute (max limit 1) =
      some (((e.withLimit none).execute (max limit 1)).getD (.error (.stepLimitExceeded limit))) := by
  rw [execute_eq_outcome?, execute_eq_outcome?, start_withLimit, start_withLimit, advance_withLimit_last,
    Progress.outcome?_exhaust]

/-- What a run without a limit returns before the limit is used up, it returns with the limit. -/
theorem returnsIn_withLimit {turns : Nat} {outcome : Except Error Halted} (h : turns ≤ max limit 1)
    (hret : (e.withLimit none).ReturnsIn turns outcome) : (e.withLimit (some limit)).ReturnsIn turns outcome := by
  obtain ⟨hnow, hbefore⟩ := hret
  refine ⟨?_, ?_⟩
  · by_cases hlt : turns < max limit 1
    · rw [execute_withLimit_of_lt hlt, hnow]
    · obtain rfl : turns = max limit 1 := by omega
      rw [execute_withLimit_last, hnow]
      rfl
  · intro k hk
    rw [execute_withLimit_of_lt (by omega), hbefore k hk]

/-- A run that goes on when the limit is used up returns with the limit that it is exceeded. -/
theorem returnsIn_withLimit_exceeded (h : (e.withLimit none).execute (max limit 1) = none) :
    (e.withLimit (some limit)).ReturnsIn (max limit 1) (.error (.stepLimitExceeded limit)) := by
  refine ⟨?_, ?_⟩
  · rw [execute_withLimit_last, h]
    rfl
  · intro k hk
    rw [execute_withLimit_of_lt hk]
    exact execute_eq_none_of_le (by omega) h

/-- A run with a limit that goes on has not used it up. -/
theorem steps_lt_of_running_withLimit {turns : Nat} {r : Run}
    (h : (e.withLimit (some limit)).advance turns (e.start {}) = .running r) : r.steps = turns ∧ turns < max limit 1 := by
  have hnone : (e.withLimit (some limit)).execute turns = none := by
    rw [execute_eq_outcome?, start_withLimit, h]
    rfl
  refine ⟨steps_of_running (e := e.withLimit (some limit)) h, ?_⟩
  by_cases hlt : turns < max limit 1
  · exact hlt
  · have hlast := execute_eq_none_of_le (show max limit 1 ≤ turns by omega) hnone
    rw [execute_withLimit_last] at hlast
    cases hlast

/-- Without a limit, a run that has come to a jump to its own position goes on for ever. -/
theorem exists_running_of_self_jump {r : Run} {level : Word} (hl : e.config.stepLimit = none) (hpc : r.machine.pc ≠ 0)
    (hf : r.machine.fetch? e.program = some ⟨.jmp, level, r.machine.pc⟩) (turns : Nat) :
    ∃ r', e.advance turns (.running r) = .running r' ∧ r'.machine.pc = r.machine.pc := by
  induction turns with
  | zero => exact ⟨r, rfl, rfl⟩
  | succ turns ih =>
    obtain ⟨s, hs, hspc⟩ := ih
    have hfetch : s.machine.fetch? e.program = some ⟨.jmp, level, r.machine.pc⟩ := by
      rw [← hf, Machine.fetch?, Machine.fetch?, hspc]
    have hexec : s.machine.execute ⟨.jmp, level, r.machine.pc⟩ =
        .ok () { s.machine with site := s.machine.pc, pc := r.machine.pc } := rfl
    rw [advance_succ_of_running hs, turn, hfetch]
    simp only [hexec, settle, if_neg hpc, hl]
    exact ⟨_, rfl, rfl⟩

/-- A step limit shows only in the runs that it stops. Of a program with instructions, without a limit: a run that halts has
counted the turns it took, and halts as it does with the limit unless it took more than `max limit 1`; a run that fails after
`n` instructions fails as it does if `n` is 0 or below the limit; and a run that does neither never returns. All others are
stopped in turn `max limit 1`. So a run with a limit returns after so many instructions at most, and its count never leaves
64 bits. -/
theorem execute_withLimit_transparent {p : Program} (hp : e.bound = some p) (hne : p.isEmpty = false)
    (hlimit : limit ≤ Numeral.maxNat64) :
    (∀ n h, (e.withLimit none).ReturnsIn n (.ok h) → h.steps = n ∧
      if n ≤ max limit 1 then (e.withLimit (some limit)).ReturnsIn n (.ok h)
      else (e.withLimit (some limit)).ReturnsIn (max limit 1) (.error (.stepLimitExceeded limit))) ∧
    (∀ n err, (e.withLimit none).ReturnsIn (n + 1) (.error err) →
      (∃ r, (e.withLimit none).advance n (e.start {}) = .running r ∧ r.steps = n) ∧
      if n = 0 ∨ n < limit then (e.withLimit (some limit)).ReturnsIn (n + 1) (.error err)
      else (e.withLimit (some limit)).ReturnsIn (max limit 1) (.error (.stepLimitExceeded limit))) ∧
    ((∀ turns, (e.withLimit none).execute turns = none) →
      (e.withLimit (some limit)).ReturnsIn (max limit 1) (.error (.stepLimitExceeded limit))) ∧
    ((∃ n h, (e.withLimit none).ReturnsIn n (.ok h)) ∨ (∃ n err, (e.withLimit none).ReturnsIn (n + 1) (.error err)) ∨
      ∀ turns, (e.withLimit none).execute turns = none) ∧
    (∃ n ≤ max limit 1, ∃ outcome, (e.withLimit (some limit)).ReturnsIn n outcome) ∧
    ∀ turns r, (e.withLimit (some limit)).advance turns (e.start {}) = .running r →
      r.steps = turns ∧ r.steps + 1 ≤ max limit 1 ∧ r.steps + 1 ≤ Numeral.maxNat64 := by
  have hne' : ∀ limit, (e.withLimit limit).program.isEmpty = false := by
    intro limit
    rw [program_withLimit, program, hp]
    exact hne
  refine ⟨?_, ?_, fun h => returnsIn_withLimit_exceeded (h _), halts_or_fails_or_goes_on (hne' none), ?_, ?_⟩
  · intro n h hret
    refine ⟨hret.steps_eq (hne' none), ?_⟩
    by_cases hn : n ≤ max limit 1
    · rw [if_pos hn]
      exact returnsIn_withLimit hn hret
    · rw [if_neg hn]
      exact returnsIn_withLimit_exceeded (hret.2 _ (by omega))
  · intro n err hret
    obtain ⟨r, log, hr, hsteps, -⟩ := returnsIn_succ_iff.mp hret
    refine ⟨⟨r, hr, hsteps⟩, ?_⟩
    by_cases hn : n = 0 ∨ n < limit
    · rw [if_pos hn]
      exact returnsIn_withLimit (by omega) hret
    · rw [if_neg hn]
      exact returnsIn_withLimit_exceeded (hret.2 _ (by omega))
  · obtain ⟨n, hn, hret⟩ := exists_returnsIn (execute_withLimit_last e limit)
    exact ⟨n, hn, _, hret⟩
  · intro turns r h
    obtain ⟨hsteps, hlt⟩ := steps_lt_of_running_withLimit h
    have hmax : max limit 1 ≤ Numeral.maxNat64 := by
      unfold Numeral.maxNat64 at hlimit ⊢
      omega
    omega

/-- Three programs at their edges: one that halts in its second instruction, under a limit of 2, of 1 and of 64 bits; one that
jumps out of the program with its second, under limits of 2 and 3; and one that never returns, under a limit of 0. -/
theorem execute_withLimit_transparent_edges :
    let halting : Engine := { config := { stackSize := 4 }, bound := some (.ofList [⟨.lit, 0, 8⟩, ⟨.opr, -3, 0⟩]) }
    let failing : Engine := { config := { stackSize := 4 }, bound := some (.ofList [⟨.lit, 0, 8⟩, ⟨.jmp, 0, 5⟩]) }
    let looping : Engine := { config := { stackSize := 4 }, bound := some (.ofList [⟨.jmp, 0, 1⟩, ⟨.jmp, 0, 1⟩]) }
    let h : Halted :=
      { machine := { stack := #[8, 0, 0, 0], pc := 0, bp := 0, sp := -1, site := 1 }, last := ⟨.opr, -3, 0⟩, steps := 2,
        maxLevel := 3 }
    ((halting.withLimit none).ReturnsIn 2 (.ok h) ∧ (halting.withLimit (some 2)).ReturnsIn 2 (.ok h) ∧
      (halting.withLimit (some 1)).ReturnsIn 1 (.error (.stepLimitExceeded 1)) ∧
      (halting.withLimit (some Numeral.maxNat64)).ReturnsIn 2 (.ok h)) ∧
    ((failing.withLimit none).ReturnsIn 3 (.error (.pcOutOfRange 5)) ∧
      (failing.withLimit (some 2)).ReturnsIn 2 (.error (.stepLimitExceeded 2)) ∧
      (failing.withLimit (some 3)).ReturnsIn 3 (.error (.pcOutOfRange 5))) ∧
    (∀ turns, (looping.withLimit none).execute turns = none) ∧
      (looping.withLimit (some 0)).ReturnsIn 1 (.error (.stepLimitExceeded 0)) := by
  intro halting failing looping h
  have hhalts : (halting.withLimit none).ReturnsIn 2 (.ok h) :=
    ⟨rfl, fun k hk => execute_eq_none_of_le (show k ≤ 1 by omega) (by decide +kernel)⟩
  have hfails : (failing.withLimit none).ReturnsIn 3 (.error (.pcOutOfRange 5)) :=
    ⟨rfl, fun k hk => execute_eq_none_of_le (show k ≤ 2 by omega) (by decide +kernel)⟩
  have hloops : ∀ turns, (looping.withLimit none).execute turns = none := by
    intro turns
    refine execute_eq_none_of_le (show turns ≤ 1 + turns by omega) ?_
    obtain ⟨s, hs, hpc⟩ : ∃ s, (looping.withLimit none).advance 1 (looping.start {}) = .running s ∧ s.machine.pc = 1 :=
      ⟨_, rfl, rfl⟩
    have hf : s.machine.fetch? (looping.withLimit none).program = some ⟨.jmp, 0, s.machine.pc⟩ := by
      rw [Machine.fetch?, hpc]
      rfl
    obtain ⟨r, hr, -⟩ := exists_running_of_self_jump rfl (by rw [hpc]; decide) hf turns
    rw [execute_eq_outcome?, start_withLimit, advance_add, hs, hr]
    rfl
  have hhalting := fun limit (hl : limit ≤ Numeral.maxNat64) => execute_withLimit_transparent (e := halting) rfl rfl hl
  have hfailing := fun limit (hl : limit ≤ Numeral.maxNat64) => execute_withLimit_transparent (e := failing) rfl rfl hl
  refine ⟨⟨hhalts, ?_, ?_, ?_⟩, ⟨hfails, ?_, ?_⟩, hloops, ?_⟩
  · exact ((hhalting 2 (by decide)).1 2 h hhalts).2
  · exact ((hhalting 1 (by decide)).1 2 h hhalts).2
  · exact ((hhalting Numeral.maxNat64 (by decide)).1 2 h hhalts).2
  · exact ((hfailing 2 (by decide)).2.1 2 _ hfails).2
  · exact ((hfailing 3 (by decide)).2.1 2 _ hfails).2
  · exact (execute_withLimit_transparent (e := looping) rfl rfl (by decide)).2.2.1 hloops

end Engine

end PMachine
