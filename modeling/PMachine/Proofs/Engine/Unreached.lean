import PMachine.Proofs.Engine.Binding
import PMachine.Proofs.Engine.Halt
import PMachine.Proofs.Engine.Lockstep

/-!
# Code that is not reached

A run looks at its program only where it fetches an instruction. Two programs that agree in these places run in step, whatever
else they hold and however long they are, unless the run leaves the shorter one. A program without instructions is told apart
before anything is fetched, so it does not run as any other does.
-/

namespace PMachine

namespace Program

/-- The first program with the second behind it. -/
instance : Append Program := ⟨fun p q => ⟨p.instructions ++ q.instructions⟩⟩

/-- What is put behind a program does not move its instructions. -/
theorem get?_append {p : Program} {k : Int} {i : Instruction} (h : p.get? k = some i) (rest : Program) :
    (p ++ rest).get? k = some i := by
  have hrange := range_of_get? h
  unfold get? at h ⊢
  have hk : ¬k < 0 := by omega
  rw [if_neg hk] at h ⊢
  have hlt := (Array.getElem?_eq_some_iff.mp h).1
  exact (Array.getElem?_append_left hlt).trans h

/-- A program with an instruction somewhere is not empty. -/
theorem isEmpty_of_get? {p : Program} {k : Int} {i : Instruction} (h : p.get? k = some i) : p.isEmpty = false := by
  have hrange := range_of_get? h
  rw [← Bool.not_eq_true, isEmpty_iff_size_eq_zero]
  omega

/-- A program that is not empty has an instruction at position 0. -/
theorem exists_get?_zero {p : Program} (h : p.isEmpty = false) : ∃ i, p.get? 0 = some i := by
  rw [← Bool.not_eq_true, isEmpty_iff_size_eq_zero] at h
  have hpos : 0 < p.instructions.size := Nat.pos_of_ne_zero h
  exact ⟨_, Array.getElem?_eq_getElem hpos⟩

end Program

namespace Engine

variable {e e' : Engine}

/-- A program with instructions executes one in its first turn, which begins at position 0. -/
theorem exists_dispatches_zero (h : e.program.isEmpty = false) : ∃ r i, e.Dispatches 0 r i := by
  obtain ⟨i, hi⟩ := Program.exists_get?_zero h
  have hstart : e.start {} = .running _ := if_neg (by simp [h])
  exact ⟨_, i, hstart, hi⟩

/-- A run that has returned executes nothing any more. -/
theorem Dispatches.lt_of_execute {turn turns : Nat} {r : Run} {i : Instruction} {outcome : Except Error Halted}
    (h : e.Dispatches turn r i) (hret : e.execute turns = some outcome) : turn < turns := by
  refine Nat.lt_of_not_le fun hle => ?_
  have hlater := execute_of_le hle hret
  rw [execute_eq_outcome?, h.1] at hlater
  cases hlater

/-- A run that comes to a position without an instruction returns there. -/
theorem execute_of_fetch?_eq_none {turn : Nat} {r : Run} (hr : e.advance turn (e.start {}) = .running r)
    (h : r.machine.fetch? e.program = none) : e.execute (turn + 1) = some (.error (.pcOutOfRange r.machine.pc)) := by
  rw [execute_eq_outcome?, advance_succ_of_running hr, turn_of_fetch?_eq_none h]
  rfl

/-- A program that agrees with one that has instructions, where this is run, has instructions too. -/
theorem isEmpty_eq_of_agree (hempty : e.program.isEmpty = true → e'.program.isEmpty = true)
    (hagree : ∀ turn r i, e.Dispatches turn r i → e'.program.get? r.machine.pc.toInt = some i) :
    e'.program.isEmpty = e.program.isEmpty := by
  cases h : e.program.isEmpty with
  | true => exact hempty h
  | false =>
    obtain ⟨r, i, hdisp⟩ := exists_dispatches_zero h
    exact Program.isEmpty_of_get? (hagree 0 r i hdisp)

/-- A run that has not left its program by then is that of every engine which has the same instructions where it fetches. -/
theorem execute_eq_of_agree {turns : Nat} (hconfig : e'.config = e.config)
    (hempty : e.program.isEmpty = true → e'.program.isEmpty = true)
    (hinside : ∀ pc, e.execute turns ≠ some (.error (.pcOutOfRange pc)))
    (hagree : ∀ turn r i, e.Dispatches turn r i → e'.program.get? r.machine.pc.toInt = some i) :
    e'.execute turns = e.execute turns := by
  have hfetch : ∀ turn < turns, ∀ r, e.advance turn (e.start {}) = .running r →
      Option.Rel Eq (r.machine.fetch? e.program) (r.machine.fetch? e'.program) := by
    intro turn hturn r hr
    cases hi : r.machine.fetch? e.program with
    | none => exact absurd (execute_of_le hturn (execute_of_fetch?_eq_none hr hi)) (hinside r.machine.pc)
    | some i =>
      have hi' : r.machine.fetch? e'.program = some i := hagree turn r i ⟨hr, hi⟩
      rw [hi']
      exact .some rfl
  have hsame : ∀ i j : Instruction, i = j → ∀ m : Machine, m.execute j = m.execute i := by
    rintro i - rfl m
    rfl
  have hstep := inStep_run hconfig (isEmpty_eq_of_agree hempty hagree) hsame hfetch
  rcases execute_of_inStep hstep with ⟨hp, hq⟩ | ⟨err, hp, hq⟩ | ⟨h, last, rfl, hp, hq⟩
  · rw [hp, hq]
  · rw [hp, hq]
  · rw [hp, hq]

/-- Of any two programs that can be bound under a configuration, the second being empty if the first is. If the run of the first
returns without having left its program, and the second has the same instruction in every place where this run fetched one, then
the run of the second returns in the same turn with the same outcome and the same result. So what is put behind a program does
not change a run that has not left it, whether it has returned or goes on. -/
theorem execute_ignores_unreached {config : Config} {p p' : Program} (he : ofProgram p config = .ok e)
    (he' : ofProgram p' config = .ok e') (hempty : p.isEmpty = true → p'.isEmpty = true) :
    (∀ turns outcome, e.execute turns = some outcome → (∀ pc, outcome ≠ .error (.pcOutOfRange pc)) →
      (∀ turn r i, e.Dispatches turn r i → p'.get? r.machine.pc.toInt = some i) →
      e'.execute turns = some outcome ∧ e'.run turns = some (resultOf outcome)) ∧
    ∀ rest, p' = p ++ rest → ∀ turns, (∀ pc, e.execute turns ≠ some (.error (.pcOutOfRange pc))) →
      e'.execute turns = e.execute turns ∧ e'.run turns = e.run turns := by
  obtain ⟨-, rfl⟩ := ofProgram_eq_ok_iff.mp he
  obtain ⟨-, rfl⟩ := ofProgram_eq_ok_iff.mp he'
  -- Both parts are the same fact; behind a program, agreement is a matter of course.
  have hsame : ∀ turns, (∀ pc, Engine.execute ⟨config, some p⟩ turns ≠ some (.error (.pcOutOfRange pc))) →
      (∀ turn r i, Engine.Dispatches ⟨config, some p⟩ turn r i → p'.get? r.machine.pc.toInt = some i) →
      Engine.execute ⟨config, some p'⟩ turns = Engine.execute ⟨config, some p⟩ turns :=
    fun _ hinside hagree => execute_eq_of_agree rfl hempty hinside hagree
  constructor
  · intro turns outcome hret hinside hagree
    have hexec : Engine.execute ⟨config, some p'⟩ turns = some outcome := by
      rw [hsame turns ?_ hagree, hret]
      intro pc hpc
      exact hinside pc (Option.some.inj (hret.symm.trans hpc))
    refine ⟨hexec, ?_⟩
    rw [run, hexec]
    rfl
  · rintro rest rfl turns hinside
    have hexec := hsame turns hinside fun turn r i hdisp => Program.get?_append hdisp.2 rest
    refine ⟨hexec, ?_⟩
    rw [run, hexec, run]

/-- A program that jumps over an instruction and halts. Another one, with an unknown operation in the gap and one instruction
more, ends as it does; so does the program itself with anything behind it. -/
theorem execute_ignores_unreached_gap :
    let config : Config := { stackSize := 1 }
    let p := Program.ofList [⟨.jmp, 0, 2⟩, ⟨.lit, 0, 7⟩, ⟨.jmp, -3, 0⟩]
    let p' := Program.ofList [⟨.jmp, 0, 2⟩, ⟨.opr, 0, 99⟩, ⟨.jmp, -3, 0⟩, ⟨.lit, 0, 1⟩]
    let rest := Program.ofList [⟨.opr, 0, 5⟩]
    let h : Halted := { machine := { stack := #[0], site := 2 }, last := ⟨.jmp, -3, 0⟩, steps := 2, maxLevel := 3 }
    ∃ e e' e'' : Engine, ofProgram p config = .ok e ∧ ofProgram p' config = .ok e' ∧ ofProgram (p ++ rest) config = .ok e'' ∧
      e.execute 2 = some (.ok h) ∧ (∀ turn r i, e.Dispatches turn r i → p'.get? r.machine.pc.toInt = some i) ∧
      e'.execute 2 = some (.ok h) ∧ e'.run 2 = some (.ok 0) ∧ e''.execute 2 = some (.ok h) := by
  intro config p p' rest h
  have he : ofProgram p config = .ok ⟨config, some p⟩ := ofProgram_eq_ok_iff.mpr ⟨by decide, rfl⟩
  have he' : ofProgram p' config = .ok ⟨config, some p'⟩ := ofProgram_eq_ok_iff.mpr ⟨by decide, rfl⟩
  have he'' : ofProgram (p ++ rest) config = .ok ⟨config, some (p ++ rest)⟩ := ofProgram_eq_ok_iff.mpr ⟨by decide, rfl⟩
  have hexec : Engine.execute ⟨config, some p⟩ 2 = some (.ok h) := by
    dsimp only [config, p, h]
    rfl
  have hagree : ∀ turn r i, Engine.Dispatches ⟨config, some p⟩ turn r i → p'.get? r.machine.pc.toInt = some i := by
    intro turn r i hdisp
    -- The run is over after two turns, which fetch at positions 0 and 2.
    have hlt := hdisp.lt_of_execute hexec
    obtain ⟨hr, hi⟩ := hdisp
    obtain rfl | rfl : turn = 0 ∨ turn = 1 := by omega
    · cases hr
      exact hi
    · cases hr
      exact hi
  obtain ⟨hkeeps, -⟩ := execute_ignores_unreached he he' (by decide)
  obtain ⟨-, hbehind⟩ := execute_ignores_unreached he he'' (by decide)
  obtain ⟨hexec', hrun'⟩ := hkeeps 2 (.ok h) hexec nofun hagree
  obtain ⟨hexec'', -⟩ := hbehind rest rfl 2 (by rw [hexec]; nofun)
  exact ⟨_, _, _, he, he', he'', hexec, hagree, hexec', hrun', hexec''.trans hexec⟩

/-- With nothing to run, the run of the empty program returns before anything is fetched. So every program has the same
instructions where it fetched, and yet the one that jumps to position 0 halts. -/
theorem execute_emptyProgram_not_kept :
    let config : Config := {}
    let p := Program.ofList []
    let p' := Program.ofList [⟨.jmp, 0, 0⟩]
    ∃ e e' : Engine, ofProgram p config = .ok e ∧ ofProgram p' config = .ok e' ∧
      e.execute 1 = some (.error .emptyProgram) ∧
      (∀ turn r i, e.Dispatches turn r i → p'.get? r.machine.pc.toInt = some i) ∧
      e'.execute 1 ≠ some (.error .emptyProgram) := by
  intro config p p'
  have hexec : ∀ turns, Engine.execute ⟨config, some p⟩ turns = some (.error .emptyProgram) := execute_of_isEmpty rfl
  refine ⟨⟨config, some p⟩, ⟨config, some p'⟩, rfl, rfl, hexec 1, ?_, nofun⟩
  intro turn r i hdisp
  exact absurd (hdisp.lt_of_execute (hexec 0)) (Nat.not_lt_zero turn)

end Engine

end PMachine
