import PMachine.Proofs.Machine.Fault

/-!
# Steps

What an instruction that succeeds makes of a machine, said once for every opcode and every kind of operation: `Step` lists the
cases with what they need and what they leave. Statements about runs split on it and do not open the actions again.

The slots that an instruction writes are `written`; every other slot keeps its word. So static links lead where they led before,
unless one of the slots on the way is written.
-/

namespace PMachine

/-- Whether an instruction is a return from a procedure. -/
def Instruction.IsReturn (i : Instruction) : Prop := i.opcode = .opr ∧ i.address = Operation.leave.id

instance (i : Instruction) : Decidable i.IsReturn :=
  inferInstanceAs (Decidable (i.opcode = .opr ∧ i.address = Operation.leave.id))

namespace Machine

variable {m m' : Machine} {i : Instruction} {j k : Int} {w : Word}

/-! ## Slots after a write -/

/-- Which word is read from a slot depends on the stack alone. -/
theorem slot_eq_ok_congr (h : m'.stack = m.stack) : m'.slot j = .ok w ↔ m.slot j = .ok w := by
  rw [slot_eq_ok_iff, slot_eq_ok_iff, h]

/-- Other registers do not change what is read. -/
theorem slot_mk {pc bp sp site : Word} : slot ⟨m.stack, pc, bp, sp, site⟩ j = .ok w ↔ m.slot j = .ok w :=
  slot_eq_ok_congr rfl

/-- A slot that is written holds what was written. -/
theorem slot_set_self (h : m.HasSlot k) : (m.set k w).slot k = .ok w := by
  obtain ⟨h0, hlt⟩ := h
  have hk : k.toNat < m.stack.size := by omega
  rw [slot_eq_ok_iff]
  exact ⟨h0, by simp [set, hk]⟩

/-- Writing one slot leaves every other as it is. -/
theorem slot_set_of_ne {v : Word} (h : m.HasSlot k) (hne : j ≠ k) : (m.set k w).slot j = .ok v ↔ m.slot j = .ok v := by
  rw [slot_eq_ok_iff, slot_eq_ok_iff]
  refine and_congr_right fun h0 => ?_
  have hk := h.1
  have hjk : k.toNat ≠ j.toNat := by omega
  simp [set, hjk]

@[simp]
theorem stack_size_set (m : Machine) (k : Int) (w : Word) : (m.set k w).stack.size = m.stack.size := by
  simp [set]

/-! ## Slots on the way over links -/

/-- The slots that are read on the way over `n` static links from `base`, up to the first one outside the stack. -/
def linkSlots (m : Machine) : Nat → Word → List Int
  | 0, _ => []
  | n + 1, base =>
    base.toInt :: match m.slot base.toInt with
      | .ok next => m.linkSlots n next
      | .error _ => []

/-- Which base is found over links depends on the words in the slots on the way alone. -/
theorem follow_eq_ok_congr {n : Nat} {base b : Word}
    (h : ∀ slot ∈ m.linkSlots n base, ∀ w, m'.slot slot = .ok w ↔ m.slot slot = .ok w) :
    m'.follow n base = .ok b ↔ m.follow n base = .ok b := by
  induction n generalizing base with
  | zero => exact Iff.rfl
  | succ n ih =>
    unfold linkSlots at h
    obtain ⟨hfirst, hrest⟩ := List.forall_mem_cons.mp h
    rw [follow, follow]
    cases hs : m.slot base.toInt with
    | ok next =>
      rw [hs] at hrest
      rw [(hfirst next).mpr hs]
      exact ih hrest
    | error f =>
      cases hs' : m'.slot base.toInt with
      | ok next =>
        have hs'' := (hfirst next).mp hs'
        rw [hs] at hs''
        cases hs''
      | error g => simp

/-! ## The cases of a step -/

/-- What an instruction that succeeds makes of a machine. The parts of the machine that is left stand in the order stack, `pc`,
`bp`, `sp`, site. -/
inductive Step (m : Machine) : Instruction → Machine → Prop where
  | lit {level address : Word} (htop : m.HasSlot (m.sp.toInt + 1)) :
      Step m ⟨.lit, level, address⟩ ⟨(m.set (m.sp.toInt + 1) address).stack, m.pc + 1, m.bp, m.sp + 1, m.pc⟩
  | lod {level address base w : Word} (hbase : m.findBase level = .ok base)
      (hw : m.slot (base.toInt + address.toInt) = .ok w) (htop : m.HasSlot (m.sp.toInt + 1)) :
      Step m ⟨.lod, level, address⟩ ⟨(m.set (m.sp.toInt + 1) w).stack, m.pc + 1, m.bp, m.sp + 1, m.pc⟩
  | sto {level address base w : Word} (hbase : m.findBase level = .ok base) (hw : m.top = .ok w)
      (hslot : m.HasSlot (base.toInt + address.toInt)) :
      Step m ⟨.sto, level, address⟩ ⟨(m.set (base.toInt + address.toInt) w).stack, m.pc + 1, m.bp, m.sp - 1, m.pc⟩
  | cal {level address link : Word} (hlink : m.findBase level = .ok link) (hlo : m.HasSlot (m.sp.toInt + 1))
      (hhi : m.HasSlot (m.sp.toInt + 3)) :
      Step m ⟨.cal, level, address⟩
        ⟨(((m.set (m.sp.toInt + 1) link).set (m.sp.toInt + 2) m.bp).set (m.sp.toInt + 3) (m.pc + 1)).stack, address,
          m.sp + 1, m.sp, m.pc⟩
  | int {level address : Word} : Step m ⟨.int, level, address⟩ ⟨m.stack, m.pc + 1, m.bp, m.sp + address, m.pc⟩
  | jmp {level address : Word} : Step m ⟨.jmp, level, address⟩ ⟨m.stack, address, m.bp, m.sp, m.pc⟩
  | jpc {level address w : Word} (hw : m.top = .ok w) :
      Step m ⟨.jpc, level, address⟩ ⟨m.stack, if w = 1 then address else m.pc + 1, m.bp, m.sp - 1, m.pc⟩
  | leave {level pc bp : Word} (hpc : m.slot ((m.bp - 1).toInt + 3) = .ok pc)
      (hbp : m.slot ((m.bp - 1).toInt + 2) = .ok bp) :
      Step m ⟨.opr, level, Operation.leave.id⟩ ⟨m.stack, pc, bp, m.bp - 1, m.pc⟩
  | unary {level a : Word} {op : Unary} (ha : m.top = .ok a) :
      Step m ⟨.opr, level, (Operation.unary op).id⟩ ⟨(m.set m.sp.toInt (op.apply a)).stack, m.pc + 1, m.bp, m.sp, m.pc⟩
  | binary {level a b c : Word} {op : Binary} (ha : m.slot (m.sp.toInt - 1) = .ok a) (hb : m.top = .ok b)
      (hc : op.apply a b = some c) :
      Step m ⟨.opr, level, (Operation.binary op).id⟩
        ⟨(m.set (m.sp.toInt - 1) c).stack, m.pc + 1, m.bp, m.sp - 1, m.pc⟩

/-- Reading after an instruction has begun finds the words that were there. -/
theorem slot_begun : m.begun.slot j = .ok w ↔ m.slot j = .ok w := slot_eq_ok_congr rfl

theorem top_begun : m.begun.top = .ok w ↔ m.top = .ok w := slot_begun

theorem findBase_begun {level : Word} : m.begun.findBase level = .ok w ↔ m.findBase level = .ok w := by
  have hstack : m.begun.stack = m.stack := rfl
  exact follow_eq_ok_congr fun _ _ _ => slot_eq_ok_congr hstack

/-- An operation that succeeds is one of the three kinds. -/
theorem step_of_operate {level id : Word} (h : Action.operate ⟨.opr, level, id⟩ m.begun = .ok () m') :
    Step m ⟨.opr, level, id⟩ m' := by
  cases ho : Instruction.operation? ⟨.opr, level, id⟩ with
  | none =>
    rw [Action.operate_of_none ho] at h
    cases h
  | some op =>
    rw [Action.operate_of_some ho] at h
    obtain rfl := Operation.ofId?_eq_some_iff.mp ho
    cases op with
    | leave =>
      obtain ⟨pc, bp, hpc, hbp, rfl⟩ := Action.leave_eq_ok_iff.mp h
      exact .leave (slot_begun.mp hpc) (slot_begun.mp hbp)
    | unary op =>
      obtain ⟨a, ha, rfl⟩ := Action.unary_eq_ok_iff.mp h
      exact .unary (top_begun.mp ha)
    | binary op =>
      obtain ⟨a, b, c, ha, hb, hc, rfl⟩ := Action.binary_eq_ok_iff.mp h
      exact .binary (slot_begun.mp ha) (top_begun.mp hb) hc

/-- An instruction that succeeds is one of the cases. -/
theorem step_of_execute (h : m.execute i = .ok () m') : Step m i m' := by
  rw [execute_eq_effect] at h
  obtain ⟨opcode, level, address⟩ := i
  cases opcode with
  | lit =>
    obtain ⟨htop, rfl⟩ := Action.push_eq_ok_iff.mp h
    exact .lit htop
  | opr => exact step_of_operate h
  | lod =>
    obtain ⟨base, w, hbase, hw, hpush⟩ := Action.load_eq_ok_iff.mp h
    obtain ⟨htop, rfl⟩ := Action.push_eq_ok_iff.mp hpush
    exact .lod (findBase_begun.mp hbase) (slot_begun.mp hw) htop
  | sto =>
    obtain ⟨base, w, hbase, hw, hslot, rfl⟩ := Action.store_eq_ok_iff.mp h
    exact .sto (findBase_begun.mp hbase) (top_begun.mp hw) hslot
  | cal =>
    obtain ⟨link, hlink, hlo, hhi, rfl⟩ := Action.call_eq_ok_iff.mp h
    exact .cal (findBase_begun.mp hlink) hlo hhi
  | int =>
    obtain rfl := Action.modify_eq_ok_iff.mp h
    exact .int
  | jmp =>
    obtain rfl := Action.modify_eq_ok_iff.mp h
    exact .jmp
  | jpc =>
    obtain ⟨w, hw, rfl⟩ := Action.jumpIf_eq_ok_iff.mp h
    exact .jpc (top_begun.mp hw)

/-- Every case is one of an instruction that succeeds. -/
theorem Step.execute (h : Step m i m') : m.execute i = .ok () m' := by
  rw [execute_eq_effect]
  cases h with
  | lit htop => exact Action.push_eq_ok_iff.mpr ⟨htop, rfl⟩
  | lod hbase hw htop =>
    exact Action.load_eq_ok_iff.mpr
      ⟨_, _, findBase_begun.mpr hbase, slot_begun.mpr hw, Action.push_eq_ok_iff.mpr ⟨htop, rfl⟩⟩
  | sto hbase hw hslot => exact Action.store_eq_ok_iff.mpr ⟨_, _, findBase_begun.mpr hbase, top_begun.mpr hw, hslot, rfl⟩
  | cal hlink hlo hhi => exact Action.call_eq_ok_iff.mpr ⟨_, findBase_begun.mpr hlink, hlo, hhi, rfl⟩
  | int => rfl
  | jmp => rfl
  | jpc hw => exact Action.jumpIf_eq_ok_iff.mpr ⟨_, top_begun.mpr hw, rfl⟩
  | leave hpc hbp => exact Action.leave_eq_ok_iff.mpr ⟨_, _, slot_begun.mpr hpc, slot_begun.mpr hbp, rfl⟩
  | unary ha =>
    rw [Action.effect_operation]
    exact Action.unary_eq_ok_iff.mpr ⟨_, top_begun.mpr ha, rfl⟩
  | binary ha hb hc =>
    rw [Action.effect_operation]
    exact Action.binary_eq_ok_iff.mpr ⟨_, _, _, slot_begun.mpr ha, top_begun.mpr hb, hc, rfl⟩

/-! ## What a step leaves alone -/

/-- The slots that an instruction writes when it succeeds. -/
def written (m : Machine) (i : Instruction) : List Int :=
  match i.opcode with
  | .lit | .lod => [m.sp.toInt + 1]
  | .sto =>
    match m.findBase i.level with
    | .ok base => [base.toInt + i.address.toInt]
    | .error _ => []
  | .cal => [m.sp.toInt + 1, m.sp.toInt + 2, m.sp.toInt + 3]
  | .opr =>
    match i.operation? with
    | some (.unary _) => [m.sp.toInt]
    | some (.binary _) => [m.sp.toInt - 1]
    | _ => []
  | .int | .jmp | .jpc => []

@[simp]
theorem written_cal (m : Machine) (level address : Word) :
    m.written ⟨.cal, level, address⟩ = [m.sp.toInt + 1, m.sp.toInt + 2, m.sp.toInt + 3] := rfl

@[simp]
theorem written_unary (m : Machine) (level : Word) (op : Unary) :
    m.written ⟨.opr, level, (Operation.unary op).id⟩ = [m.sp.toInt] := by
  simp [written, Instruction.operation?]

@[simp]
theorem written_binary (m : Machine) (level : Word) (op : Binary) :
    m.written ⟨.opr, level, (Operation.binary op).id⟩ = [m.sp.toInt - 1] := by
  simp [written, Instruction.operation?]

theorem written_sto {level address base : Word} (h : m.findBase level = .ok base) :
    m.written ⟨.sto, level, address⟩ = [base.toInt + address.toInt] := by
  simp [written, h]

/-- A return writes nothing. -/
theorem written_of_isReturn (hi : i.IsReturn) : m.written i = [] := by
  obtain ⟨opcode, level, address⟩ := i
  obtain ⟨rfl, rfl⟩ := hi
  rfl

/-- A slot that an instruction does not write keeps its word. -/
theorem Step.slot_eq_ok_iff (h : Step m i m') (hj : j ∉ m.written i) : m'.slot j = .ok w ↔ m.slot j = .ok w := by
  cases h with
  | lit htop =>
    have hne : j ≠ m.sp.toInt + 1 := List.ne_of_not_mem_cons hj
    rw [slot_mk, slot_set_of_ne htop hne]
  | lod hbase hw htop =>
    have hne : j ≠ m.sp.toInt + 1 := List.ne_of_not_mem_cons hj
    rw [slot_mk, slot_set_of_ne htop hne]
  | sto hbase hw hslot =>
    rw [written_sto hbase] at hj
    rw [slot_mk, slot_set_of_ne hslot (List.ne_of_not_mem_cons hj)]
  | cal hlink hlo hhi =>
    simp only [written_cal, List.mem_cons, List.not_mem_nil, or_false, not_or] at hj
    obtain ⟨h1, h2, h3⟩ := hj
    have hmid := hlo.between hhi
    rw [slot_mk, slot_set_of_ne (hasSlot_set.mpr (hasSlot_set.mpr hhi)) h3, slot_set_of_ne (hasSlot_set.mpr hmid) h2,
      slot_set_of_ne hlo h1]
  | int => rw [slot_mk]
  | jmp => rw [slot_mk]
  | jpc hw => rw [slot_mk]
  | leave hpc hbp => rw [slot_mk]
  | unary ha =>
    rw [written_unary] at hj
    rw [slot_mk, slot_set_of_ne (hasSlot_of_slot ha) (List.ne_of_not_mem_cons hj)]
  | binary ha hb hc =>
    rw [written_binary] at hj
    rw [slot_mk, slot_set_of_ne (hasSlot_of_slot ha) (List.ne_of_not_mem_cons hj)]

/-- Links lead where they led before, if an instruction writes none of the slots on the way. -/
theorem Step.follow_eq_ok_iff (h : Step m i m') {n : Nat} {base b : Word}
    (hoff : ∀ slot ∈ m.written i, slot ∉ m.linkSlots n base) : m'.follow n base = .ok b ↔ m.follow n base = .ok b :=
  follow_eq_ok_congr fun slot hslot _ => h.slot_eq_ok_iff fun hwritten => hoff slot hwritten hslot

/-- A call writes the header of the new frame, slot by slot, and enters the frame below which the stack top stays. -/
theorem Step.call (h : Step m i m') (hi : i.opcode = .cal) :
    ∃ link, m.findBase i.level = .ok link ∧ m'.slot (m.sp.toInt + 1) = .ok link ∧
      m'.slot (m.sp.toInt + 2) = .ok m.bp ∧ m'.slot (m.sp.toInt + 3) = .ok (m.pc + 1) ∧
      m.HasSlot (m.sp.toInt + 3) ∧ m'.bp = m.sp + 1 ∧ m'.sp = m.sp := by
  cases h with
  | @cal level address link hlink hlo hhi =>
    have h2 : (m.set (m.sp.toInt + 1) link).HasSlot (m.sp.toInt + 2) := hasSlot_set.mpr (hlo.between hhi)
    have h3 : ((m.set (m.sp.toInt + 1) link).set (m.sp.toInt + 2) m.bp).HasSlot (m.sp.toInt + 3) :=
      hasSlot_set.mpr (hasSlot_set.mpr hhi)
    refine ⟨link, hlink, ?_, ?_, ?_, hhi, rfl, rfl⟩
    · rw [slot_mk, slot_set_of_ne h3 (by omega), slot_set_of_ne h2 (by omega)]
      exact slot_set_self hlo
    · rw [slot_mk, slot_set_of_ne h3 (by omega)]
      exact slot_set_self h2
    · rw [slot_mk]
      exact slot_set_self h3
  | lit | lod | sto | int | jmp | jpc | leave | unary | binary => cases hi

/-- A store pops the topmost word into the variable. -/
theorem Step.store (h : Step m i m') (hi : i.opcode = .sto) :
    ∃ base v, m.findBase i.level = .ok base ∧ m.top = .ok v ∧ m.HasSlot (base.toInt + i.address.toInt) ∧
      m'.stack = (m.set (base.toInt + i.address.toInt) v).stack ∧ m'.bp = m.bp ∧ m'.sp = m.sp - 1 := by
  cases h with
  | sto hbase htop hslot => exact ⟨_, _, hbase, htop, hslot, rfl, rfl, rfl⟩
  | lit | lod | cal | int | jmp | jpc | leave | unary | binary => cases hi

/-- A load pushes the word of the variable. -/
theorem Step.load (h : Step m i m') (hi : i.opcode = .lod) :
    ∃ base v, m.findBase i.level = .ok base ∧ m.slot (base.toInt + i.address.toInt) = .ok v ∧
      m.HasSlot (m.sp.toInt + 1) ∧ m'.stack = (m.set (m.sp.toInt + 1) v).stack ∧ m'.bp = m.bp ∧ m'.sp = m.sp + 1 := by
  cases h with
  | lod hbase hv htop => exact ⟨_, _, hbase, hv, htop, rfl, rfl, rfl⟩
  | lit | sto | cal | int | jmp | jpc | leave | unary | binary => cases hi

/-- A return goes by the header of the current frame. -/
theorem Step.ret (h : Step m i m') (hi : i.IsReturn) :
    ∃ pc bp, m.slot ((m.bp - 1).toInt + 3) = .ok pc ∧ m.slot ((m.bp - 1).toInt + 2) = .ok bp ∧
      m' = ⟨m.stack, pc, bp, m.bp - 1, m.pc⟩ := by
  obtain ⟨hop, hid⟩ := hi
  cases h with
  | leave hpc hbp => exact ⟨_, _, hpc, hbp, rfl⟩
  | @unary _ _ op => cases op <;> cases hid
  | @binary _ _ _ _ op => cases op <;> cases hid
  | lit | lod | sto | cal | int | jmp | jpc => cases hop

/-- Only calls and returns change the base. -/
theorem Step.bp_eq (h : Step m i m') (hcall : i.opcode ≠ .cal) (hret : ¬i.IsReturn) : m'.bp = m.bp := by
  cases h with
  | cal => exact absurd rfl hcall
  | leave => exact absurd ⟨rfl, rfl⟩ hret
  | lit | lod | sto | int | jmp | jpc | unary | binary => rfl

/-- The program counter moves on by one, unless a jump or a call sets it to its address or a return to the address that it
reads. -/
theorem Step.pc_cases (h : Step m i m') :
    m'.pc = m.pc + 1 ∨ ((i.opcode = .jmp ∨ i.opcode = .jpc ∨ i.opcode = .cal) ∧ m'.pc = i.address) ∨
      (i.IsReturn ∧ m.slot ((m.bp - 1).toInt + 3) = .ok m'.pc) := by
  cases h with
  | lit | lod | sto | int | unary | binary => exact .inl rfl
  | cal => exact .inr (.inl ⟨.inr (.inr rfl), rfl⟩)
  | jmp => exact .inr (.inl ⟨.inl rfl, rfl⟩)
  | @jpc level address w =>
    by_cases hw : w = 1
    · exact .inr (.inl ⟨.inr (.inl rfl), if_pos hw⟩)
    · exact .inl (if_neg hw)
  | leave hpc hbp => exact .inr (.inr ⟨⟨rfl, rfl⟩, hpc⟩)

/-- The machine that is left remembers where the instruction stood. -/
theorem Step.site (h : Step m i m') : m'.site = m.pc := by
  cases h <;> rfl

/-- No instruction changes the size of the stack. -/
theorem Step.stack_size (h : Step m i m') : m'.stack.size = m.stack.size := by
  cases h <;> simp

end Machine

end PMachine
