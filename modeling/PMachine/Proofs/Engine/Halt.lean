import PMachine.Proofs.Engine.Turn
import PMachine.Proofs.Machine.Step

/-!
# How a run halts

A run halts when the program counter is 0 after an instruction. An instruction that is executed stands at a position of the
program, so moving on from it never leads to 0, and neither does a return to an address that a call has saved. What remains is a
jump, a call or a return that goes to 0 as its address says: the last instruction of a run names position 0, and its level alone
chooses the slot of the result.
-/

namespace PMachine

/-- A position that has an instruction lies in the program. -/
theorem Program.range_of_get? {p : Program} {k : Int} {i : Instruction} (h : p.get? k = some i) : 0 ≤ k ∧ k < p.size := by
  unfold Program.get? at h
  split at h
  · cases h
  · have hlt := (Array.getElem?_eq_some_iff.mp h).1
    unfold Program.size
    omega

/-- A program is empty if its length is zero. -/
theorem Program.isEmpty_iff_size_eq_zero {p : Program} : p.isEmpty = true ↔ p.size = 0 :=
  Array.isEmpty_iff_size_eq_zero

/-- Moving on from an instruction of the program does not lead to position 0. -/
theorem Machine.pc_add_one_ne_zero {m : Machine} {p : Program} {i : Instruction} (h : m.fetch? p = some i) :
    m.pc + 1 ≠ 0 := by
  intro hzero
  have hpc := (Program.range_of_get? h).1
  have hnext : (m.pc + 1).toInt = 0 := by rw [hzero]; rfl
  have hadd := Word.toInt_add_one m.pc
  omega

/-- An instruction of the program that leads to position 0 is a jump or a call to it, or a return. -/
theorem Machine.Step.explicit {m m' : Machine} {p : Program} {i : Instruction} (h : m.Step i m') (hfetch : m.fetch? p = some i)
    (hpc : m'.pc = 0) :
    (i.opcode = .jmp ∨ i.opcode = .jpc ∨ i.opcode = .cal ∨ i.opcode = .opr) ∧ i.address = 0 := by
  rcases h.pc_cases with hnext | ⟨hop, haddr⟩ | ⟨⟨hop, haddr⟩, -⟩
  · exact absurd (hnext.symm.trans hpc) (pc_add_one_ne_zero hfetch)
  · refine ⟨?_, haddr.symm.trans hpc⟩
    rcases hop with hop | hop | hop
    · exact .inl hop
    · exact .inr (.inl hop)
    · exact .inr (.inr (.inl hop))
  · exact ⟨.inr (.inr (.inr hop)), haddr⟩

namespace Engine

/-- In turn number `turn`, counted from 0, the run has come to `r` and executes `i`. -/
def Dispatches (e : Engine) (turn : Nat) (r : Run) (i : Instruction) : Prop :=
  e.advance turn (e.start {}) = .running r ∧ r.machine.fetch? e.program = some i

variable {e : Engine}

/-- A run that goes on after a turn has executed an instruction in it. -/
theorem exists_dispatches {turn : Nat} {s : Run} (h : e.advance (turn + 1) (e.start {}) = .running s) :
    ∃ r i, e.Dispatches turn r i ∧ r.machine.execute i = .ok () s.machine := by
  obtain ⟨r, hr, hturn⟩ := exists_running_of_succ h
  obtain ⟨i, hfetch, hexec, -⟩ := exists_of_turn_eq_running hturn
  exact ⟨r, i, ⟨hr, hfetch⟩, hexec⟩

/-- The return address that a call saves stays in its slot for as long as no instruction writes that slot. -/
theorem saved_address_kept {a b : Nat} {r s : Run} {i : Instruction} (hcall : e.Dispatches a r i) (hi : i.opcode = .cal)
    (hab : a < b) (hs : e.advance b (e.start {}) = .running s)
    (hoff : ∀ c t k, a < c → c < b → e.Dispatches c t k → r.machine.sp.toInt + 3 ∉ t.machine.written k) :
    s.machine.slot (r.machine.sp.toInt + 3) = .ok (r.machine.pc + 1) := by
  induction b generalizing s with
  | zero => omega
  | succ b ih =>
    obtain ⟨t, k, ht, hexec⟩ := exists_dispatches hs
    have hstep := Machine.step_of_execute hexec
    -- The turn before is the call itself, whose step tells what it saved, or a later one, which keeps it.
    by_cases hb : a = b
    · subst hb
      obtain rfl : r = t := Progress.running.inj (hcall.1.symm.trans ht.1)
      obtain rfl : i = k := Option.some.inj (hcall.2.symm.trans ht.2)
      obtain ⟨link, -, -, -, hsaved, -⟩ := hstep.call hi
      exact hsaved
    · have hkept := ih (by omega) ht.1 fun c t k hac hcb => hoff c t k hac (by omega)
      exact (hstep.slot_eq_ok_iff (hoff b t k (by omega) (by omega) ht)).mpr hkept

/-- The turn that a run halts in executes its last instruction, as the last one that is counted. -/
theorem exists_halting_turn {turns : Nat} {h : Halted} (hexec : e.execute turns = some (.ok h)) :
    ∃ n r, h.steps = n + 1 ∧ e.Dispatches n r h.last ∧ r.machine.execute h.last = .ok () h.machine ∧ h.machine.pc = 0 ∧
      h.maxLevel = e.config.maxLevel := by
  cases hempty : e.program.isEmpty with
  | true =>
    rw [execute_of_isEmpty hempty] at hexec
    cases hexec
  | false =>
    obtain ⟨n, r, log, hr, hsteps, hturn⟩ := exists_last_turn hexec hempty
    obtain ⟨hfetch, hlast, hpc, hlevel, hcount⟩ := of_turn_eq_halted hturn
    rw [hsteps] at hcount
    exact ⟨n, r, hcount, ⟨hr, hfetch⟩, hlast, hpc, hlevel⟩

/-- Of every run of a bound program. If it halts, its last instruction is a jump or a call with address 0 or a return, so that
the level of this instruction alone chooses the slot of the result; the program counter is 0, an instruction has been executed,
and the last one stands where every fault of reading the machine that is left says. In no turn does moving on lead to position
0, nor does a call save it. So a return does not lead there either if what it reads was saved by a call and has not been written
since. -/
theorem halts_explicitly {p : Program} (hp : e.bound = some p) :
    (∀ turns h, e.execute turns = some (.ok h) →
      ((h.last.opcode = .jmp ∨ h.last.opcode = .jpc ∨ h.last.opcode = .cal ∨ h.last.opcode = .opr) ∧ h.last.address = 0) ∧
      h.resultIndex = e.config.maxLevel.toInt + h.last.level.toInt ∧ h.machine.pc = 0 ∧ 1 ≤ h.steps ∧
      p.get? h.machine.site.toInt = some h.last ∧
      ∀ f, (∃ k, h.slot k = .error f) ∨ h.result = .error f → f.site = h.machine.site) ∧
    (∀ turn r i, e.Dispatches turn r i → r.machine.pc + 1 ≠ 0 ∧
      ∀ m', i.opcode = .cal → r.machine.execute i = .ok () m' →
        ∃ w, m'.slot (r.machine.sp.toInt + 3) = .ok w ∧ w ≠ 0) ∧
    ∀ a b r s i j m', e.Dispatches a r i → i.opcode = .cal → a < b → e.Dispatches b s j → j.IsReturn →
      (s.machine.bp - 1).toInt + 3 = r.machine.sp.toInt + 3 →
      (∀ c t k, a < c → c < b → e.Dispatches c t k → r.machine.sp.toInt + 3 ∉ t.machine.written k) →
      s.machine.execute j = .ok () m' → m'.pc = r.machine.pc + 1 ∧ m'.pc ≠ 0 := by
  have hprogram : e.program = p := by rw [program, hp]; rfl
  refine ⟨?_, ?_, ?_⟩
  · intro turns h hexec
    obtain ⟨n, r, hsteps, ⟨hr, hfetch⟩, hlast, hpc, hlevel⟩ := exists_halting_turn hexec
    have hstep := Machine.step_of_execute hlast
    have hexplicit := hstep.explicit hfetch hpc
    refine ⟨hexplicit, ?_, hpc, by omega, ?_, ?_⟩
    · have hzero : h.last.address.toInt = 0 := by rw [hexplicit.2]; rfl
      unfold Halted.resultIndex
      rw [hlevel, hzero, Int.add_zero]
    · rw [hstep.site, ← hprogram]
      exact hfetch
    · intro f hf
      rcases hf with ⟨k, hk⟩ | hresult
      · exact Machine.site_of_slot hk
      · exact Machine.site_of_slot hresult
  · intro turn r i hdisp
    have hnext := Machine.pc_add_one_ne_zero hdisp.2
    refine ⟨hnext, fun m' hi hexec => ?_⟩
    obtain ⟨link, -, -, -, hsaved, -⟩ := (Machine.step_of_execute hexec).call hi
    exact ⟨r.machine.pc + 1, hsaved, hnext⟩
  · intro a b r s i j m' hcall hi hab hret hj hslot hoff hexec
    have hkept := saved_address_kept hcall hi hab hret.1 hoff
    obtain ⟨pc, bp, hpc, -, rfl⟩ := (Machine.step_of_execute hexec).ret hj
    rw [hslot, hkept] at hpc
    obtain rfl := Except.ok.inj hpc
    exact ⟨rfl, Machine.pc_add_one_ne_zero hcall.2⟩

/-- A program that calls a procedure and halts when this has returned: the return resumes position 2, and the jump there ends
the run, with the slot of the result in its level. -/
theorem halts_explicitly_call :
    let e : Engine :=
      { config := { stackSize := 8 },
        bound := some (.ofList [⟨.jmp, 0, 1⟩, ⟨.cal, 0, 3⟩, ⟨.jmp, -1, 0⟩, ⟨.int, 0, 3⟩, ⟨.opr, 0, 0⟩]) }
    let h : Halted :=
      { machine := { stack := #[0, 0, 2, 0, 0, 0, 0, 0], site := 2 }, last := ⟨.jmp, -1, 0⟩, steps := 5, maxLevel := 3 }
    (e.execute 5 = some (.ok h) ∧ h.last.address = 0 ∧ h.resultIndex = 3 + h.last.level.toInt ∧ h.machine.pc = 0 ∧
      1 ≤ h.steps) ∧
    ∃ r s m', e.Dispatches 1 r ⟨.cal, 0, 3⟩ ∧ e.Dispatches 3 s ⟨.opr, 0, 0⟩ ∧ s.machine.execute ⟨.opr, 0, 0⟩ = .ok () m' ∧
      m'.pc = r.machine.pc + 1 ∧ m'.pc ≠ 0 := by
  intro e h
  obtain ⟨hhalts, -, hreturns⟩ := halts_explicitly (e := e) rfl
  have hexec : e.execute 5 = some (.ok h) := by
    dsimp only [e, h]
    rfl
  obtain ⟨⟨-, haddr⟩, hindex, hpc, hsteps, -⟩ := hhalts 5 h hexec
  refine ⟨⟨hexec, haddr, hindex, hpc, hsteps⟩, ?_⟩
  obtain ⟨r, hr, hsp⟩ : ∃ r, e.Dispatches 1 r ⟨.cal, 0, 3⟩ ∧ r.machine.sp = -1 := by
    dsimp only [e]
    exact ⟨_, ⟨rfl, rfl⟩, rfl⟩
  obtain ⟨t, ht⟩ : ∃ t, e.Dispatches 2 t ⟨.int, 0, 3⟩ := by
    dsimp only [e]
    exact ⟨_, rfl, rfl⟩
  obtain ⟨s, m', hs, hbp, hret⟩ : ∃ s m', e.Dispatches 3 s ⟨.opr, 0, 0⟩ ∧ s.machine.bp = 0 ∧
      s.machine.execute ⟨.opr, 0, 0⟩ = .ok () m' := by
    dsimp only [e]
    exact ⟨_, _, ⟨rfl, rfl⟩, rfl, rfl⟩
  have hslot : (s.machine.bp - 1).toInt + 3 = r.machine.sp.toInt + 3 := by
    rw [hbp, hsp]
    rfl
  have hoff : ∀ c t' k, 1 < c → c < 3 → e.Dispatches c t' k → r.machine.sp.toInt + 3 ∉ t'.machine.written k := by
    intro c t' k hlo hhi hdisp
    obtain rfl : c = 2 := by omega
    obtain rfl : t = t' := Progress.running.inj (ht.1.symm.trans hdisp.1)
    obtain rfl : ⟨.int, 0, 3⟩ = k := Option.some.inj (ht.2.symm.trans hdisp.2)
    exact nofun
  have hresumes : m'.pc = r.machine.pc + 1 ∧ m'.pc ≠ 0 :=
    hreturns 1 3 r s ⟨.cal, 0, 3⟩ ⟨.opr, 0, 0⟩ m' hr rfl (by omega) hs ⟨rfl, rfl⟩ hslot hoff hret
  exact ⟨r, s, m', hr, hs, hret, hresumes⟩

end Engine

end PMachine
