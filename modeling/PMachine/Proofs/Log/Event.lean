import PMachine.Proofs.Engine.Replay
import PMachine.Proofs.Text.RoundTrip

/-!
# What is written of an event

An event is written as its message and its fields, and nothing is lost in them: two events that are written alike are the same.
What a run writes of an instruction are the registers before it, its text and the name of the operation that it performs; what it
writes of its end are the counts and positions of its outcome.
-/

namespace PMachine

/-- The text of an instruction is that of no other. -/
theorem Instruction.text_inj {i j : Instruction} : i.text = j.text ↔ i = j := by
  refine ⟨fun h => ?_, congrArg text⟩
  have hi := Text.instruction_render .semicolon i 1
  have htext : i.render Separator.semicolon.char = j.render Separator.semicolon.char := h
  rw [htext, Text.instruction_render] at hi
  exact (Except.ok.inj hi).symm

/-- The name of an operation is that of no other. -/
theorem Operation.name_inj {op op' : Operation} : op.name = op'.name ↔ op = op' := by
  refine ⟨fun h => ?_, congrArg name⟩
  have hfind : ∀ op : Operation, all.find? (fun o => o.name = op.name) = some op := by
    rintro (_ | op | op)
    · decide
    · cases op <;> decide
    · cases op <;> decide
  have hop := hfind op
  rw [h, hfind op'] at hop
  exact (Option.some.inj hop).symm

/-- An event is known by its message and its fields. -/
theorem Event.eq_of_fields {a b : Event} (hm : a.message = b.message) (hf : a.fields = b.fields) : a = b := by
  -- The messages of two different constructors differ, so one case for each constructor remains.
  cases a <;> cases b <;> simp [message] at hm
  all_goals simpa [fields, Int.ofNat_inj, Int32.toInt_inj, Instruction.text_inj, Operation.name_inj] using hf

/-- The events of a dispatch are the dispatch itself, and the operation that its instruction performs, if it performs one. -/
theorem Dispatch.mem_events_iff {d : Dispatch} {ev : Event} :
    ev ∈ d.events ↔ ev = .dispatched d.pc d.bp d.sp d.instruction ∨
      ∃ op, d.instruction.opcode = .opr ∧ d.instruction.operation? = some op ∧ ev = .operating op d.pc := by
  obtain ⟨pc, bp, sp, opcode, level, address⟩ := d
  simp only [events, Instruction.operation?, List.mem_cons]
  refine or_congr_right ?_
  cases ho : Operation.ofId? address with
  | none =>
    have hout := Operation.ofId?_eq_none_iff.mp ho
    rw [if_neg (by omega)]
    simp
  | some op =>
    obtain rfl := Operation.ofId?_eq_some_iff.mp ho
    have hin := op.toInt_id
    by_cases hop : opcode = .opr
    · rw [if_pos ⟨hop, hin⟩, op.getElem?_all]
      simp [hop]
    · rw [if_neg fun h => hop h.1]
      simp [hop]

/-- What is written of a dispatch are its registers and its instruction, and the name of the operation and its position, if the
instruction performs one. -/
theorem Dispatch.fields_of_mem {d : Dispatch} {ev : Event} (h : ev ∈ d.events) :
    (ev.message = "dispatch" ∧ ev.fields = [("pc", .number d.pc.toInt), ("bp", .number d.bp.toInt),
      ("sp", .number d.sp.toInt), ("instr", .text d.instruction.text)]) ∨
    ∃ op, d.instruction.opcode = .opr ∧ d.instruction.operation? = some op ∧
      ev.message = "opr" ∧ ev.fields = [("op", .quoted op.name), ("at", .number d.pc.toInt)] := by
  rcases mem_events_iff.mp h with rfl | ⟨op, hop, ho, rfl⟩
  · exact .inl ⟨rfl, rfl⟩
  · exact .inr ⟨op, hop, ho, rfl, rfl⟩

/-- What is written of the end of a run are the counts of its outcome, or the limit and the position that the run has come to. -/
theorem Engine.EndsWith.fields_of_mem {e : Engine} {log : Log} {ds : List Dispatch} {outcome : Except Error Halted}
    {ending : List Event} (h : e.EndsWith log ds outcome ending) {ev : Event} (hev : ev ∈ ending) :
    (∃ halted, outcome = .ok halted ∧ ev.message = "halted" ∧
      ev.fields = [("steps", .number halted.steps), ("result_index", .number halted.resultIndex)]) ∨
    ∃ limit m, outcome = .error (.stepLimitExceeded limit) ∧ e.replay ds = some m ∧ ev.message = "step limit exceeded" ∧
      ev.fields = [("limit", .number limit), ("pc", .number m.pc.toInt)] := by
  cases outcome with
  | ok halted =>
    obtain ⟨-, -, rfl⟩ := h
    obtain rfl := List.mem_singleton.mp hev
    exact .inl ⟨halted, rfl, rfl, rfl⟩
  | error err =>
    cases err with
    | stepLimitExceeded limit =>
      obtain ⟨-, m, hreplay, rfl⟩ := h
      obtain rfl := List.mem_singleton.mp hev
      exact .inr ⟨limit, m, rfl, hreplay, rfl, rfl⟩
    | fault f =>
      obtain ⟨-, rfl⟩ := h
      cases hev
    | pcOutOfRange pc =>
      obtain ⟨-, rfl⟩ := h
      cases hev
    | _ => exact h.elim

end PMachine
