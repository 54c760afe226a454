import PMachine.Proofs.Engine.Error
import PMachine.Proofs.Engine.Lockstep

/-!
# What a level does

`lod`, `sto` and `cal` look for a frame as many scopes out as their level says, and in the current one if it says zero or less;
the other opcodes do not look at their level. So two programs that differ in no more than this leaves open run in step. What
remains of a level is that of the last instruction, which chooses the slot of the result: a level of `lit` or `int` does not even
do this, since neither ends a run.
-/

namespace PMachine

/-- Whether an instruction stands for another: it has the same opcode and address, and if it looks for a frame, it does so as
many scopes out. -/
structure Instruction.StandsFor (i j : Instruction) : Prop where
  opcode_eq : i.opcode = j.opcode
  address_eq : i.address = j.address
  scopes_eq : i.opcode = .lod ∨ i.opcode = .sto ∨ i.opcode = .cal → max i.level.toInt 0 = max j.level.toInt 0

/-- Whether every instruction of a program stands for that in its place in another, which is as long. -/
structure Program.StandsFor (p q : Program) : Prop where
  size_eq : p.size = q.size
  instruction : ∀ k i j, p.get? k = some i → q.get? k = some j → i.StandsFor j

/-- In every place both programs have instructions, of which the one stands for the other, or neither has one. -/
theorem Program.StandsFor.get? {p q : Program} (h : p.StandsFor q) (k : Int) :
    Option.Rel Instruction.StandsFor (p.get? k) (q.get? k) := by
  have hsize := h.size_eq
  cases hi : p.get? k with
  | none =>
    cases hj : q.get? k with
    | none => exact .none
    | some j =>
      have hin := range_of_get? hj
      have hout := range_of_get?_eq_none hi
      omega
  | some i =>
    cases hj : q.get? k with
    | none =>
      have hin := range_of_get? hi
      have hout := range_of_get?_eq_none hj
      omega
    | some j => exact .some (h.instruction k i j hi hj)

/-! ## Single instructions -/

/-- Levels of zero and less lead to the same base. -/
theorem Machine.findBase_congr {level level' : Word} (h : max level.toInt 0 = max level'.toInt 0) (m : Machine) :
    m.findBase level = m.findBase level' := by
  have hscopes : level.toInt.toNat = level'.toInt.toNat := by omega
  rw [findBase, findBase, hscopes]

namespace Action

variable {level level' : Word} (h : max level.toInt 0 = max level'.toInt 0)

include h

theorem read_findBase_congr : read (·.findBase level) = read (·.findBase level') :=
  congrArg read (funext fun m => m.findBase_congr h)

theorem load_congr (address : Word) : load level address = load level' address := by
  rw [load, load, read_findBase_congr h]

theorem store_congr (address : Word) : store level address = store level' address := by
  rw [store, store, read_findBase_congr h]

theorem call_congr (address : Word) : call level address = call level' address := by
  rw [call, call, read_findBase_congr h]

end Action

/-- An instruction does what the one that it stands for does: one case for each opcode. -/
theorem Action.effect_congr {i j : Instruction} (h : i.StandsFor j) : effect i = effect j := by
  obtain ⟨opcode, level, address⟩ := i
  obtain ⟨opcode', level', address'⟩ := j
  obtain ⟨hopcode, haddress, hscopes⟩ := h
  cases hopcode
  cases haddress
  cases opcode with
  | lit => rfl
  | opr => rfl
  | lod => exact load_congr (hscopes (.inl rfl)) address
  | sto => exact store_congr (hscopes (.inr (.inl rfl))) address
  | cal => exact call_congr (hscopes (.inr (.inr rfl))) address
  | int => rfl
  | jmp => rfl
  | jpc => rfl

theorem Machine.execute_congr {i j : Instruction} (h : i.StandsFor j) (m : Machine) : m.execute j = m.execute i := by
  rw [execute_eq_effect, execute_eq_effect, Action.effect_congr h]

/-! ## Whole runs -/

namespace Engine

variable {e e' : Engine} {p q : Program}

theorem program_of_bound (h : e.bound = some p) : e.program = p := by
  rw [program, h]
  rfl

/-- The last instruction of a run that halts is where the machine says that the latest one was, and is neither a `lit` nor an
`int`. -/
theorem last_of_halted {turns : Nat} {h : Halted} (hexec : e.execute turns = some (.ok h)) :
    e.program.get? h.machine.site.toInt = some h.last ∧ h.last.opcode ≠ .lit ∧ h.last.opcode ≠ .int := by
  obtain ⟨n, r, -, ⟨-, hfetch⟩, hlast, hpc, -⟩ := exists_halting_turn hexec
  have hstep := Machine.step_of_execute hlast
  refine ⟨?_, ?_⟩
  · rw [hstep.site]
    exact hfetch
  · obtain ⟨hopcode, -⟩ := hstep.explicit hfetch hpc
    rcases hopcode with hop | hop | hop | hop <;> simp [hop]

/-- Two engines whose programs stand for each other run in step. -/
theorem inStep_of_standsFor (hconfig : e'.config = e.config) (h : e.program.StandsFor e'.program) (turns : Nat) :
    Progress.InStep Instruction.StandsFor (e.advance turns (e.start {})) (e'.advance turns (e'.start {})) := by
  have hempty : e'.program.isEmpty = e.program.isEmpty := by
    rw [Bool.eq_iff_iff, Program.isEmpty_iff_size_eq_zero, Program.isEmpty_iff_size_eq_zero, h.size_eq]
  exact inStep_run hconfig hempty (fun _ _ hij m => m.execute_congr hij) fun _ _ r _ => h.get? r.machine.pc.toInt

/-- Of any two bound programs under one configuration, of which the one stands for the other. In every turn neither run has
returned, or both have failed with the same error, or both have halted: with the same machine, after as many steps, by the
instructions in the same place, and with slots of their results that are as far apart as the levels of these instructions. If
the programs differ in levels of `lit` and `int` only, then what the runs have come to is the same, and so are their results. -/
theorem level_shows_in_result_only (hp : e.bound = some p) (hq : e'.bound = some q) (hconfig : e'.config = e.config)
    (hpq : p.StandsFor q) (turns : Nat) :
    ((e.execute turns = none ∧ e'.execute turns = none) ∨
      (∃ err, e.execute turns = some (.error err) ∧ e'.execute turns = some (.error err)) ∨
      ∃ h h', e.execute turns = some (.ok h) ∧ e'.execute turns = some (.ok h') ∧ h'.machine = h.machine ∧
        h'.steps = h.steps ∧ p.get? h.machine.site.toInt = some h.last ∧ q.get? h.machine.site.toInt = some h'.last ∧
        h'.resultIndex - h.resultIndex = h'.last.level.toInt - h.last.level.toInt) ∧
    ((∀ k i j, p.get? k = some i → q.get? k = some j → i ≠ j → i.opcode = .lit ∨ i.opcode = .int) →
      e'.execute turns = e.execute turns ∧ e'.run turns = e.run turns) := by
  obtain rfl := program_of_bound hp
  obtain rfl := program_of_bound hq
  rcases execute_of_inStep (inStep_of_standsFor hconfig hpq turns) with ⟨he, he'⟩ | ⟨err, he, he'⟩ | ⟨h, last, hlast, he, he'⟩
  · refine ⟨.inl ⟨he, he'⟩, fun _ => ?_⟩
    rw [run, run, he, he']
    exact ⟨rfl, rfl⟩
  · refine ⟨.inr (.inl ⟨err, he, he'⟩), fun _ => ?_⟩
    rw [run, run, he, he']
    exact ⟨rfl, rfl⟩
  · obtain ⟨hsite, hlit, hint⟩ := last_of_halted he
    obtain ⟨hsite', -, -⟩ := last_of_halted he'
    refine ⟨.inr (.inr ⟨h, _, he, he', rfl, rfl, hsite, hsite', ?_⟩), fun hdiffer => ?_⟩
    · simp only [Halted.resultIndex, hlast.address_eq]
      omega
    · -- The last instruction is no `lit` and no `int`, so it is the same in both programs.
      have heq : h.last = last := Decidable.byContradiction fun hne => (hdiffer _ _ _ hsite hsite' hne).elim hlit hint
      subst heq
      rw [run, run, he, he']
      exact ⟨rfl, rfl⟩

/-- Programs that push 5 and halt, with other levels. One that ends with another level names the slot next to that of the first;
one that differs in the level of the `lit` only gives the same result. -/
theorem level_shows_in_result_only_halted :
    let program := fun a b => Program.ofList [⟨.lit, a, 5⟩, ⟨.opr, b, 0⟩]
    let engine := fun a b => ({ config := { stackSize := 3 }, bound := some (program a b) } : Engine)
    (program 0 (-3)).StandsFor (program 7 (-2)) ∧ (program 0 (-3)).StandsFor (program (-9) (-3)) ∧
    (∃ h h', (engine 0 (-3)).execute 2 = some (.ok h) ∧ (engine 7 (-2)).execute 2 = some (.ok h') ∧
      h'.machine = h.machine ∧ h'.steps = h.steps ∧ h'.resultIndex - h.resultIndex = 1) ∧
    (engine (-9) (-3)).run 2 = (engine 0 (-3)).run 2 ∧ (engine 0 (-3)).run 2 = some (.ok 5) := by
  intro program engine
  have hplaces : ∀ a b k i, (program a b).get? k = some i →
      (k = 0 ∧ i = ⟨.lit, a, 5⟩) ∨ (k = 1 ∧ i = ⟨.opr, b, 0⟩) := by
    intro a b k i hi
    have hrange := Program.range_of_get? hi
    have hsize : (program a b).size = 2 := rfl
    obtain rfl | rfl : k = 0 ∨ k = 1 := by omega
    · exact .inl ⟨rfl, (Option.some.inj hi).symm⟩
    · exact .inr ⟨rfl, (Option.some.inj hi).symm⟩
  have hstands : ∀ a b, (program 0 (-3)).StandsFor (program a b) := by
    refine fun a b => ⟨rfl, fun k i j hi hj => ?_⟩
    rcases hplaces 0 (-3) k i hi with ⟨rfl, rfl⟩ | ⟨rfl, rfl⟩
    · cases hj
      exact ⟨rfl, rfl, by simp⟩
    · cases hj
      exact ⟨rfl, rfl, by simp⟩
  have hhalts : ∀ a b, ∃ h, (engine a b).execute 2 = some (.ok h) ∧ h.last = ⟨.opr, b, 0⟩ := by
    dsimp only [engine, program]
    exact fun a b => ⟨_, rfl, rfl⟩
  have hfive : (engine 0 (-3)).run 2 = some (.ok 5) := by
    dsimp only [engine, program]
    rfl
  have hbound : ∀ a b, (engine a b).bound = some (program a b) := fun _ _ => rfl
  obtain ⟨hends, -⟩ := level_shows_in_result_only (hbound 0 (-3)) (hbound 7 (-2)) rfl (hstands _ _) 2
  obtain ⟨-, hsame⟩ := level_shows_in_result_only (hbound 0 (-3)) (hbound (-9) (-3)) rfl (hstands _ _) 2
  refine ⟨hstands _ _, hstands _ _, ?_, ?_, hfive⟩
  · obtain ⟨h, hexec, hlast⟩ := hhalts 0 (-3)
    obtain ⟨h', hexec', hlast'⟩ := hhalts 7 (-2)
    rw [hexec, hexec'] at hends
    rcases hends with ⟨hnone, -⟩ | ⟨err, herr, -⟩ | ⟨_, _, hh, hh', hmachine, hsteps, -, -, hindex⟩
    · cases hnone
    · cases herr
    · cases hh
      cases hh'
      rw [hlast, hlast'] at hindex
      exact ⟨h, h', hexec, hexec', hmachine, hsteps, hindex⟩
  · refine (hsame fun k i j hi hj hne => ?_).2
    rcases hplaces 0 (-3) k i hi with ⟨rfl, rfl⟩ | ⟨rfl, rfl⟩
    · exact .inl rfl
    · cases hj
      exact absurd rfl hne

end Engine

end PMachine
