import PMachine.Proofs.Machine.Step

/-!
# Calls and returns

A list of instructions matches each return with the latest call before it that is not returned from yet. As long as nothing
writes the dynamic link and the return address of such a call, the return that matches it resumes the caller: the program
counter, the base and the stack top are those of the caller again, whatever was executed in between.

What carries this from one instruction to the next is `Linked`: the base is the one that the latest open call set, its header
leads to the caller's base, which is the one that the open call before it set, and so on. The registers may hold any words,
since entering a frame and leaving it wrap around the same way.
-/

namespace PMachine

/-! ## Open calls -/

/-- The calls that are open after instruction number `k`, of those that were open before it. -/
def Instruction.track (calls : List Nat) (k : Nat) (i : Instruction) : List Nat :=
  if i.opcode = .cal then k :: calls else if i.IsReturn then calls.tail else calls

/-- The positions of the calls in a list of instructions that are not returned from, the latest first. -/
def openCalls (is : List Instruction) : List Nat :=
  is.zipIdx.foldl (fun calls (i, k) => i.track calls k) []

theorem openCalls_concat (is : List Instruction) (i : Instruction) :
    openCalls (is ++ [i]) = i.track (openCalls is) is.length := by
  simp [openCalls, List.zipIdx_append]

/-- What is open is a call. -/
theorem opcode_of_mem_openCalls {is : List Instruction} {j k : Nat} (hk : k ≤ is.length) (hj : j ∈ openCalls (is.take k)) :
    ∃ hlt : j < k, is[j].opcode = .cal := by
  induction k with
  | zero => cases hj
  | succ k ih =>
    have hlt : k < is.length := hk
    have hlen : (is.take k).length = k := List.length_take_of_le (by omega)
    have hold : j ∈ openCalls (is.take k) → ∃ hlt : j < k + 1, is[j].opcode = .cal := by
      intro hmem
      obtain ⟨h, hcall⟩ := ih (by omega) hmem
      exact ⟨by omega, hcall⟩
    rw [List.take_succ_eq_append_getElem hlt, openCalls_concat, hlen, Instruction.track] at hj
    split at hj
    · rename_i hcall
      rcases List.mem_cons.mp hj with rfl | hmem
      · exact ⟨by omega, hcall⟩
      · exact hold hmem
    · split at hj
      · exact hold (List.mem_of_mem_tail hj)
      · exact hold hj

namespace Machine

/-- The machine before instruction number `k` of a list is executed. -/
def before (m : Machine) (is : List Instruction) (k : Nat) : Machine := m.afterAll (is.take k)

variable {m m' : Machine} {i : Instruction} {is : List Instruction} {k : Nat}

theorem before_succ (hk : k < is.length) : m.before is (k + 1) = (m.before is k).after is[k] := by
  unfold before afterAll
  rw [List.take_succ_eq_append_getElem hk, List.foldl_append, List.foldl_cons, List.foldl_nil]

/-- An instruction that does not fault takes a step. -/
theorem step_of_not_faults (h : m.faults i = false) : Step m i (m.after i) := by
  unfold faults at h
  unfold after
  cases he : m.execute i with
  | ok u m' => exact step_of_execute he
  | error f m' =>
    rw [he] at h
    cases h

/-! ## Linked calls -/

/-- The base `bp` was set by the first of the open calls, made on the first of the machines `callers`; its header leads to the
base that the machine had, which was set by the next call, and so on. -/
def Linked (m : Machine) : Word → List Machine → Prop
  | _, [] => True
  | bp, caller :: callers =>
    bp = caller.sp + 1 ∧ m.slot (caller.sp.toInt + 2) = .ok caller.bp ∧ m.slot (caller.sp.toInt + 3) = .ok (caller.pc + 1) ∧
      m.Linked caller.bp callers

/-- Whether an instruction keeps off the dynamic links and the return addresses of the calls of `callers`. -/
def KeepsOff (m : Machine) (i : Instruction) (callers : List Machine) : Prop :=
  ∀ caller ∈ callers, caller.sp.toInt + 2 ∉ m.written i ∧ caller.sp.toInt + 3 ∉ m.written i

/-- An instruction that keeps off their headers leaves the calls linked. -/
theorem Step.linked {bp : Word} {callers : List Machine} (h : Step m i m') (hoff : m.KeepsOff i callers)
    (hl : m.Linked bp callers) : m'.Linked bp callers := by
  induction callers generalizing bp with
  | nil => trivial
  | cons caller callers ih =>
    obtain ⟨hbp, hlink, hpc, hrest⟩ := hl
    obtain ⟨hoff2, hoff3⟩ := hoff caller List.mem_cons_self
    have hoff' : m.KeepsOff i callers := fun c hc => hoff c (List.mem_cons_of_mem caller hc)
    exact ⟨hbp, (h.slot_eq_ok_iff hoff2).mpr hlink, (h.slot_eq_ok_iff hoff3).mpr hpc, ih hoff' hrest⟩

/-- A call links itself to the open calls. -/
theorem Step.linked_call {callers : List Machine} (h : Step m i m') (hi : i.opcode = .cal) (hoff : m.KeepsOff i callers)
    (hl : m.Linked m.bp callers) : m'.Linked m'.bp (m :: callers) := by
  obtain ⟨link, -, -, hlink, hpc, -, hbp, -⟩ := h.call hi
  exact ⟨hbp, hlink, hpc, h.linked hoff hl⟩

/-- A return undoes the latest open call: it finds the header that the call wrote, from the base that the call set. -/
theorem Step.resumes {caller : Machine} {callers : List Machine} (h : Step m i m') (hi : i.IsReturn)
    (hl : m.Linked m.bp (caller :: callers)) :
    m'.pc = caller.pc + 1 ∧ m'.bp = caller.bp ∧ m'.sp = caller.sp := by
  obtain ⟨hbp, hlink, hpc, -⟩ := hl
  have hsp : m.bp - 1 = caller.sp := by rw [hbp, Int32.add_sub_cancel]
  obtain ⟨pc, bp, hpc', hlink', rfl⟩ := h.ret hi
  rw [hsp] at hpc' hlink'
  have hpc'' : pc = caller.pc + 1 := Except.ok.inj (hpc'.symm.trans hpc)
  have hbp'' : bp = caller.bp := Except.ok.inj (hlink'.symm.trans hlink)
  exact ⟨hpc'', hbp'', hsp⟩

/-- One instruction keeps the open calls linked, whichever it is. -/
theorem Step.linked_track {calls : List Nat} {f : Nat → Machine} {k : Nat} (h : Step m i m') (hk : f k = m)
    (hoff : m.KeepsOff i (calls.map f)) (hl : m.Linked m.bp (calls.map f)) :
    m'.Linked m'.bp ((i.track calls k).map f) := by
  unfold Instruction.track
  by_cases hcall : i.opcode = .cal
  · rw [if_pos hcall, List.map_cons, hk]
    exact h.linked_call hcall hoff hl
  · rw [if_neg hcall]
    by_cases hret : i.IsReturn
    · rw [if_pos hret]
      have hl' := h.linked hoff hl
      cases calls with
      | nil => trivial
      | cons j calls =>
        have hbp := (h.resumes hret hl).2.1
        rw [hbp]
        exact hl'.2.2.2
    · rw [if_neg hret, h.bp_eq hcall hret]
      exact h.linked hoff hl

/-- Before every instruction of a list the open calls are linked, if no instruction faults and each keeps off their headers. -/
theorem linked_before (hok : ∀ k (hk : k < is.length), (m.before is k).faults is[k] = false)
    (hoff : ∀ k (hk : k < is.length), (m.before is k).KeepsOff is[k] ((openCalls (is.take k)).map (m.before is)))
    (hk : k ≤ is.length) : (m.before is k).Linked (m.before is k).bp ((openCalls (is.take k)).map (m.before is)) := by
  induction k with
  | zero => trivial
  | succ k ih =>
    have hlt : k < is.length := hk
    have hstep := step_of_not_faults (hok k hlt)
    rw [← before_succ hlt] at hstep
    have hlen : (is.take k).length = k := List.length_take_of_le (by omega)
    rw [List.take_succ_eq_append_getElem hlt, openCalls_concat, hlen]
    exact hstep.linked_track rfl (hoff k hlt) (ih (by omega))

/-- Take any machine and any instructions none of which faults in its turn. If no instruction writes the dynamic link or the
return address of a call that is open when its turn comes, then every return that matches a call leaves the program counter
after that call, and the base and the stack top that the machine had before it. -/
theorem return_resumes_caller (hok : ∀ k (hk : k < is.length), (m.before is k).faults is[k] = false)
    (hoff : ∀ k (hk : k < is.length), ∀ j ∈ openCalls (is.take k),
      (m.before is j).sp.toInt + 2 ∉ (m.before is k).written is[k] ∧
        (m.before is j).sp.toInt + 3 ∉ (m.before is k).written is[k])
    {j k : Nat} (hk : k < is.length) (hret : is[k].IsReturn) (hj : (openCalls (is.take k)).head? = some j) :
    (∃ hlt : j < k, is[j].opcode = .cal) ∧ (m.before is (k + 1)).pc = (m.before is j).pc + 1 ∧
      (m.before is (k + 1)).bp = (m.before is j).bp ∧ (m.before is (k + 1)).sp = (m.before is j).sp := by
  obtain ⟨calls, hcalls⟩ := List.head?_eq_some_iff.mp hj
  refine ⟨opcode_of_mem_openCalls (Nat.le_of_lt hk) (hcalls ▸ List.mem_cons_self), ?_⟩
  have hlinked := linked_before hok (fun k hk => List.forall_mem_map.mpr (hoff k hk)) (Nat.le_of_lt hk)
  rw [hcalls, List.map_cons] at hlinked
  rw [before_succ hk]
  exact (step_of_not_faults (hok k hk)).resumes hret hlinked

/-- A procedure that calls itself, entered on a machine with a base below the stack and left twice: the first return resumes the
inner call, the second the outer one. -/
theorem return_resumes_caller_recursive :
    let m : Machine := { stack := Array.replicate 12 0, pc := 5, bp := -7, sp := 1 }
    let is : List Instruction :=
      [⟨.cal, 0, 20⟩, ⟨.int, 0, 3⟩, ⟨.lit, 0, 9⟩, ⟨.cal, 1, 20⟩, ⟨.int, 0, 3⟩, ⟨.opr, 0, 0⟩, ⟨.opr, 0, 0⟩]
    (openCalls (is.take 5) = [3, 0] ∧ (m.before is 6).pc = (m.before is 3).pc + 1 ∧
      (m.before is 6).bp = (m.before is 3).bp ∧ (m.before is 6).sp = (m.before is 3).sp) ∧
    openCalls (is.take 6) = [0] ∧ (m.before is 7).pc = m.pc + 1 ∧ (m.before is 7).bp = m.bp ∧ (m.before is 7).sp = m.sp := by
  intro m is
  have hok : ∀ k (hk : k < is.length), (m.before is k).faults is[k] = false := by decide +kernel
  have hoff : ∀ k (hk : k < is.length), ∀ j ∈ openCalls (is.take k),
      (m.before is j).sp.toInt + 2 ∉ (m.before is k).written is[k] ∧
        (m.before is j).sp.toInt + 3 ∉ (m.before is k).written is[k] := by decide +kernel
  have hinner := return_resumes_caller hok hoff (show 5 < is.length by decide) (by decide) (j := 3) (by decide)
  have houter := return_resumes_caller hok hoff (show 6 < is.length by decide) (by decide) (j := 0) (by decide)
  exact ⟨⟨by decide, hinner.2⟩, by decide, houter.2⟩

end Machine

end PMachine
