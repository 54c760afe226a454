import PMachine.Proofs.Engine.Halt

/-!
# What an error says

An error of a run says what is the case: of the program and the sizes of the machine, and, if a fault stopped an instruction,
of this instruction and its position. The causes that can stop an instruction are `Cause.Fits`; that every fault of a machine
has such a cause is read off the actions, opcode by opcode. A run adds that its stack keeps its size, so that a slot which is
called too large for the stack is too large for the stack of the engine.
-/

namespace PMachine

namespace Instruction

/-- Whether an instruction is an `opr` whose address is not the number of an operation. -/
def IsUnknown (i : Instruction) : Prop := i.opcode = .opr ∧ (i.address.toInt < 0 ∨ 12 < i.address.toInt)

/-- Whether an instruction asks for slots of the stack. To move the stack top and to jump takes none, and an operation that is
not known is refused before any. -/
def AsksForSlots (i : Instruction) : Prop := i.opcode ≠ .int ∧ i.opcode ≠ .jmp ∧ ¬i.IsUnknown

/-- An `opr` whose address is the number of an operation is known. -/
theorem not_isUnknown_of_ofId? {i : Instruction} {op : Operation} (h : Operation.ofId? i.address = some op) :
    ¬i.IsUnknown := by
  intro hi
  rw [Operation.ofId?_eq_none_iff.mpr hi.2] at h
  cases h

end Instruction

/-- Whether a cause can stop instruction `i` on a stack of `size` slots. -/
def Cause.Fits (size : Nat) (i : Instruction) : Cause → Prop
  | .stackOverflow slot => (size : Int) ≤ slot ∧ i.AsksForSlots
  | .stackUnderflow slot => slot < 0 ∧ i.AsksForSlots
  | .divisionByZero => i.opcode = .opr ∧ i.address = 5
  | .unknownOperation id => i.IsUnknown ∧ i.address = id

/-- An operation that is not known is stopped by nothing else. -/
theorem Cause.Fits.of_isUnknown {size : Nat} {i : Instruction} {c : Cause} (h : c.Fits size i) (hi : i.IsUnknown) :
    c = .unknownOperation i.address := by
  cases c with
  | stackOverflow slot => exact absurd hi h.2.2.2
  | stackUnderflow slot => exact absurd hi h.2.2.2
  | divisionByZero =>
    have hdiv : (Operation.binary .divide).id = i.address := h.2.symm
    exact absurd hi (Instruction.not_isUnknown_of_ofId? (Operation.ofId?_eq_some_iff.mpr hdiv))
  | unknownOperation id => rw [h.2]

/-- Only a division has no value. -/
theorem Binary.eq_divide_of_apply_eq_none {op : Binary} {a b : Word} (h : op.apply a b = none) : op = .divide := by
  cases op with
  | divide => rfl
  | add | subtract | multiply | equal | notEqual | less | lessOrEqual | greater | greaterOrEqual => cases h

/-! ## Instructions -/

namespace Machine

variable {m m' : Machine} {i : Instruction} {f : Fault}

theorem fits_of_place (hi : i.AsksForSlots) {k : Int} (h : m.place k = .error f) : f.cause.Fits m.stack.size i := by
  rcases place_eq_error_iff.mp h with ⟨hk, rfl⟩ | ⟨hk, rfl⟩
  · exact ⟨hk, hi⟩
  · exact ⟨hk, hi⟩

theorem fits_of_slot (hi : i.AsksForSlots) {k : Int} (h : m.slot k = .error f) : f.cause.Fits m.stack.size i :=
  fits_of_place hi (slot_eq_error_iff.mp h)

theorem fits_of_follow (hi : i.AsksForSlots) {n : Nat} {base : Word} (h : m.follow n base = .error f) :
    f.cause.Fits m.stack.size i := by
  induction n generalizing base with
  | zero => cases h
  | succ n ih =>
    rw [follow] at h
    cases hs : m.slot base.toInt with
    | ok next =>
      rw [hs] at h
      exact ih h
    | error g =>
      rw [hs] at h
      cases h
      exact fits_of_slot hi hs

/-- The cause that stops an operation fits it. -/
theorem fits_of_operate {level id : Word} (h : Action.operate ⟨.opr, level, id⟩ m = .error f m') :
    f.cause.Fits m.stack.size ⟨.opr, level, id⟩ := by
  cases ho : Instruction.operation? ⟨.opr, level, id⟩ with
  | none =>
    rw [Action.operate_of_none ho, Action.stop, EStateM.Result.error.injEq] at h
    obtain ⟨rfl, -⟩ := h
    exact ⟨⟨rfl, Operation.ofId?_eq_none_iff.mp ho⟩, rfl⟩
  | some op =>
    have hi : Instruction.AsksForSlots ⟨.opr, level, id⟩ := ⟨by simp, by simp, Instruction.not_isUnknown_of_ofId? ho⟩
    rw [Action.operate_of_some ho] at h
    cases op with
    | leave =>
      obtain ⟨-, hf | ⟨-, hf⟩⟩ := Action.leave_eq_error_iff.mp h
      · exact fits_of_slot hi hf
      · exact fits_of_slot hi hf
    | unary op =>
      obtain ⟨-, hf⟩ := Action.unary_eq_error_iff.mp h
      exact fits_of_slot hi hf
    | binary op =>
      obtain ⟨-, hf | ⟨a, -, hf | ⟨b, -, hnone, rfl⟩⟩⟩ := Action.binary_eq_error_iff.mp h
      · exact fits_of_slot hi hf
      · exact fits_of_slot hi hf
      · obtain rfl := Binary.eq_divide_of_apply_eq_none hnone
        exact ⟨rfl, (Operation.ofId?_eq_some_iff.mp ho).symm⟩

/-- The cause that stops an instruction fits it: one case for each opcode. -/
theorem fits_of_effect (h : Action.effect i m = .error f m') : f.cause.Fits m.stack.size i := by
  obtain ⟨opcode, level, address⟩ := i
  cases opcode with
  | opr => exact fits_of_operate h
  | int => exact absurd h Action.modify_ne_error
  | jmp => exact absurd h Action.modify_ne_error
  | lit =>
    obtain ⟨hf, -⟩ := Action.push_eq_error_iff.mp h
    exact fits_of_place ⟨nofun, nofun, nofun⟩ hf
  | lod =>
    have hi : Instruction.AsksForSlots ⟨.lod, level, address⟩ := ⟨nofun, nofun, nofun⟩
    obtain ⟨-, hf | ⟨base, -, hf | ⟨w, -, hf⟩⟩⟩ := Action.load_eq_error_iff.mp h
    · exact fits_of_follow hi hf
    · exact fits_of_slot hi hf
    · exact fits_of_place hi hf
  | sto =>
    have hi : Instruction.AsksForSlots ⟨.sto, level, address⟩ := ⟨nofun, nofun, nofun⟩
    obtain ⟨-, hf | ⟨base, -, hf | ⟨w, -, hf⟩⟩⟩ := Action.store_eq_error_iff.mp h
    · exact fits_of_follow hi hf
    · exact fits_of_slot hi hf
    · exact fits_of_place hi hf
  | cal =>
    have hi : Instruction.AsksForSlots ⟨.cal, level, address⟩ := ⟨nofun, nofun, nofun⟩
    obtain ⟨-, hf | ⟨-, hf | ⟨-, hf⟩⟩⟩ := Action.call_eq_error_iff.mp h
    · exact fits_of_follow hi hf
    · exact fits_of_place hi hf
    · exact fits_of_place hi hf
  | jpc =>
    obtain ⟨-, hf⟩ := Action.jumpIf_eq_error_iff.mp h
    exact fits_of_slot ⟨nofun, nofun, nofun⟩ hf

/-- A fault names the position of the instruction that it stopped, and its cause fits the instruction. -/
theorem fits_of_execute (h : m.execute i = .error f m') : f.site = m.pc ∧ f.cause.Fits m.stack.size i := by
  have hsize : m.begun.stack.size = m.stack.size := rfl
  exact ⟨(execute_eq_error h).2, hsize ▸ fits_of_effect h⟩

end Machine

/-! ## Runs -/

/-- A position that has no instruction lies outside the program. -/
theorem Program.range_of_get?_eq_none {p : Program} {k : Int} (h : p.get? k = none) : k < 0 ∨ (p.size : Int) ≤ k := by
  unfold get? at h
  split at h
  · rename_i hk
    exact .inl hk
  · have hle := Array.getElem?_eq_none_iff.mp h
    unfold size
    omega

namespace Engine

variable {e : Engine}

/-- Whether an error says what is the case. Binding and its checks are over when a program runs. A fault names a position of
the program that the run has come to, and has a cause that fits the instruction there. -/
def Truthful (e : Engine) : Error → Prop
  | .addressSpaceExceeded _ _ => False
  | .alreadyBound => False
  | .emptyProgram => e.bound = none ∨ e.bound = some {}
  | .pcOutOfRange pc => (pc.toInt < 0 ∨ (e.program.size : Int) ≤ pc.toInt) ∧ pc ≠ 0
  | .stepLimitExceeded limit => e.config.stepLimit = some limit
  | .fault f => (0 ≤ f.site.toInt ∧ f.site.toInt < e.program.size) ∧
      ∃ n r i, e.Dispatches n r i ∧ f.site = r.machine.pc ∧ e.program.get? f.site.toInt = some i ∧
        f.cause.Fits e.config.stackSize i ∧ (i.IsUnknown → f.cause = .unknownOperation i.address)

/-- The program that runs has no instructions if none is bound, or the one without instructions is. -/
theorem isEmpty_program_iff : e.program.isEmpty = true ↔ e.bound = none ∨ e.bound = some {} := by
  unfold program
  cases e.bound with
  | none => simp [Program.isEmpty]
  | some p =>
    obtain ⟨is⟩ := p
    simp [Program.isEmpty]

/-- The stack keeps the size that the engine gives it. -/
theorem stack_size_of_running {turns : Nat} {r : Run} (h : e.advance turns (e.start {}) = .running r) :
    r.machine.stack.size = e.config.stackSize := by
  refine running_induction (P := fun m => m.stack.size = e.config.stackSize) ?_ ?_ h
  · simp [Machine.initial]
  · intro m i m' _ hexec hm
    rw [(Machine.step_of_execute hexec).stack_size, hm]

/-- The error that a turn fails with says what is the case. -/
theorem truthful_of_turn {n : Nat} {r : Run} {log : Log} {err : Error} (hne : e.program.isEmpty = false)
    (hr : e.advance n (e.start {}) = .running r) (ht : e.turn r = .returned log (.error err)) : e.Truthful err := by
  rcases of_turn_eq_error ht with ⟨hfetch, rfl⟩ | ⟨i, f, m, hfetch, hexec, rfl⟩ | ⟨limit, hlimit, rfl⟩
  · have hout := Program.range_of_get?_eq_none hfetch
    refine ⟨hout, fun hzero => ?_⟩
    -- A program that is not empty has an instruction at position 0.
    have hsize : e.program.size ≠ 0 := by
      intro h
      simp [Program.isEmpty, Array.size_eq_zero_iff.mp h] at hne
    have hpc : r.machine.pc.toInt = 0 := by rw [hzero]; rfl
    omega
  · obtain ⟨hsite, hfits⟩ := Machine.fits_of_execute hexec
    rw [stack_size_of_running hr] at hfits
    have hget : e.program.get? f.site.toInt = some i := by
      rw [hsite]
      exact hfetch
    exact ⟨Program.range_of_get? hget, n, r, i, ⟨hr, hfetch⟩, hsite, hget, hfits, hfits.of_isUnknown⟩
  · exact hlimit

/-- The error that a run fails with says what is the case. -/
theorem truthful_of_execute {turns : Nat} {err : Error} (h : e.execute turns = some (.error err)) : e.Truthful err := by
  cases hempty : e.program.isEmpty with
  | true =>
    cases (execute_of_isEmpty hempty turns).symm.trans h
    exact isEmpty_program_iff.mp hempty
  | false =>
    obtain ⟨n, r, log, hr, -, ht⟩ := exists_last_turn h hempty
    exact truthful_of_turn hempty hr ht

/-- A run has nothing to execute exactly if no program or the one without instructions is bound, and whatever error it fails
with says what is the case. If a run halts, its result can be missing only since its slot lies outside the stack; the fault of
reading it names this slot and the position of the last instruction. -/
theorem execute_errors_truthful (e : Engine) (turns : Nat) :
    (e.execute turns = some (.error .emptyProgram) ↔ e.bound = none ∨ e.bound = some {}) ∧
    (∀ err, e.execute turns = some (.error err) → e.Truthful err) ∧
    ∀ h f, e.execute turns = some (.ok h) → h.result = .error f →
      ((f.cause = .stackOverflow h.resultIndex ∧ (e.config.stackSize : Int) ≤ h.resultIndex) ∨
        (f.cause = .stackUnderflow h.resultIndex ∧ h.resultIndex < 0)) ∧
      ∃ n r, h.steps = n + 1 ∧ e.Dispatches n r h.last ∧ f.site = r.machine.pc := by
  refine ⟨⟨truthful_of_execute, ?_⟩, fun err => truthful_of_execute, ?_⟩
  · intro hbound
    exact execute_of_isEmpty (isEmpty_program_iff.mpr hbound) turns
  · intro h f hexec hresult
    obtain ⟨n, r, hsteps, hdisp, hlast, -, -⟩ := exists_halting_turn hexec
    have hstep := Machine.step_of_execute hlast
    have hsize : h.machine.stack.size = e.config.stackSize := hstep.stack_size.trans (stack_size_of_running hdisp.1)
    refine ⟨?_, n, r, hsteps, hdisp, (Machine.site_of_slot hresult).trans hstep.site⟩
    rcases Machine.place_eq_error_iff.mp (Machine.slot_eq_error_iff.mp hresult) with ⟨hneg, rfl⟩ | ⟨hle, rfl⟩
    · exact .inr ⟨rfl, hneg⟩
    · rw [hsize] at hle
      exact .inl ⟨rfl, hle⟩

/-- A division by zero at position 2 of a program of three instructions, and a jump to position 0 that names the first slot
above the stack as that of the result. -/
theorem execute_errors_truthful_edges :
    let divides : Engine :=
      { config := { stackSize := 8 }, bound := some (.ofList [⟨.lit, 0, 7⟩, ⟨.lit, 0, 0⟩, ⟨.opr, 0, 5⟩]) }
    let halts : Engine := { config := { stackSize := 8 }, bound := some (.ofList [⟨.jmp, 5, 0⟩]) }
    let h : Halted :=
      { machine := { stack := #[0, 0, 0, 0, 0, 0, 0, 0] }, last := ⟨.jmp, 5, 0⟩, steps := 1, maxLevel := 3 }
    let f : Fault := ⟨0, .stackOverflow 8⟩
    (divides.execute 3 = some (.error (.fault ⟨2, .divisionByZero⟩)) ∧ divides.Truthful (.fault ⟨2, .divisionByZero⟩)) ∧
    halts.execute 1 = some (.ok h) ∧ h.result = .error f ∧
      ((f.cause = .stackOverflow h.resultIndex ∧ 8 ≤ h.resultIndex) ∨
        (f.cause = .stackUnderflow h.resultIndex ∧ h.resultIndex < 0)) ∧
      ∃ n r, h.steps = n + 1 ∧ halts.Dispatches n r h.last ∧ f.site = r.machine.pc := by
  intro divides halts h f
  have hfails : divides.execute 3 = some (.error (.fault ⟨2, .divisionByZero⟩)) := by
    dsimp only [divides]
    rfl
  have hhalts : halts.execute 1 = some (.ok h) := by
    dsimp only [halts, h]
    rfl
  have hresult : h.result = .error f := by
    dsimp only [h, f]
    rfl
  obtain ⟨-, htruth, -⟩ := execute_errors_truthful divides 3
  obtain ⟨-, -, hmissing⟩ := execute_errors_truthful halts 1
  exact ⟨⟨hfails, htruth _ hfails⟩, hhalts, hresult, hmissing h f hhalts hresult⟩

end Engine

end PMachine
