import PMachine.Proofs.Machine.Fault
import PMachine.Proofs.Machine.Table

/-!
# Executing an instruction is performing its row

An instruction looks at every slot before it changes anything, with numbers that no register bounds; a row of the table changes
the registers first and looks at slots in its turn. On a stack all of whose slots have a word for a number the two agree: an
instruction succeeds exactly if its row does not abort, and then both leave the same stack and registers. The registers may hold
any words, also those at which the stack top wraps around.
-/

namespace PMachine

/-! ## The operations in integers -/

/-- The value of a unary operation in the integers. -/
def Unary.value : Unary → Int → Int
  | .negate, a => -a
  | .odd, a => Table.truth (a.tmod 2 = 1)

/-- The value of a binary operation in the integers, or none when the divisor is zero. -/
def Binary.value : Binary → Int → Int → Option Int
  | .add, a, b => some (a + b)
  | .subtract, a, b => some (a - b)
  | .multiply, a, b => some (a * b)
  | .divide, a, b => if b = 0 then none else some (a.tdiv b)
  | .equal, a, b => some (Table.truth (a = b))
  | .notEqual, a, b => some (1 - Table.truth (a = b))
  | .less, a, b => some (Table.truth (a < b))
  | .lessOrEqual, a, b => some (Table.truth (a ≤ b))
  | .greater, a, b => some (1 - Table.truth (a < b))
  | .greaterOrEqual, a, b => some (Table.truth (b ≤ a))

/-- The word of a truth value is its integer. -/
theorem Word.ofInt_truth (b : Bool) : Int32.ofInt (Table.truth b) = Word.flag b := by
  cases b <;> rfl

/-- A word is odd for the remainder of words exactly if it is for the remainder of integers. -/
theorem Word.mod_two_eq_one_iff {a : Word} : a % 2 = 1 ↔ a.toInt.tmod 2 = 1 := by
  rw [← Int32.toInt_inj, Int32.toInt_mod]
  rfl

/-- Words are divided as integers are, rounding toward zero, and the quotient is reduced to a word. -/
theorem Word.ofInt_tdiv (a b : Word) : Int32.ofInt (a.toInt.tdiv b.toInt) = a / b := by
  rw [Int32.ofInt_eq_iff_bmod_eq_toInt, Int32.toInt_div]

theorem Word.toInt_eq_zero_iff {a : Word} : a.toInt = 0 ↔ a = 0 := by
  rw [← Int32.toInt_inj]
  rfl

/-- A unary operation on words is the one on integers, reduced to a word. -/
theorem Unary.apply_eq (op : Unary) (a : Word) : op.apply a = Int32.ofInt (op.value a.toInt) := by
  cases op with
  | negate => simp [Unary.apply, Unary.value]
  | odd => simp only [Unary.apply, Unary.value, Word.ofInt_truth, Word.mod_two_eq_one_iff]

/-- A binary operation on words is the one on integers, reduced to a word. -/
theorem Binary.apply_eq (op : Binary) (a b : Word) : op.apply a b = (op.value a.toInt b.toInt).map Int32.ofInt := by
  cases op with
  | divide =>
    by_cases hb : b = 0
    · simp [Binary.apply, Binary.value, hb]
    · have hb' : b.toInt ≠ 0 := fun h => hb (Word.toInt_eq_zero_iff.mp h)
      rw [Binary.apply, Binary.value, if_neg hb, if_neg hb', Option.map_some, Word.ofInt_tdiv]
  | add | subtract | multiply => simp [Binary.apply, Binary.value]
  | equal | notEqual => simp [Binary.apply, Binary.value, Word.ofInt_truth, Int32.toInt_inj]
  | less | greater => simp [Binary.apply, Binary.value, Word.ofInt_truth, Int32.lt_iff_toInt_lt]
  | lessOrEqual | greaterOrEqual => simp [Binary.apply, Binary.value, Word.ofInt_truth, Int32.le_iff_toInt_le]

namespace Table

open Machine

/-! ## A row on the view of a machine

A row is performed on the view of a machine as if on the machine: what it reads and writes is said in the words of the machine.
-/

variable {α : Type} {m : Machine}

@[simp]
theorem get_bind (g : State → Row α) (t : State) : (get >>= g) t = g t t := rfl

@[simp]
theorem setPc_bind (w : Word) (g : Unit → Row α) : (setPc w >>= g) m.view = g () { m with pc := w }.view := rfl

@[simp]
theorem setBp_bind (w : Word) (g : Unit → Row α) : (setBp w >>= g) m.view = g () { m with bp := w }.view := rfl

@[simp]
theorem setSp_bind (w : Word) (g : Unit → Row α) : (setSp w >>= g) m.view = g () { m with sp := w }.view := rfl

theorem setPc_view (w : Word) : setPc w m.view = some ((), { m with pc := w }.view) := rfl

theorem setBp_view (w : Word) : setBp w m.view = some ((), { m with bp := w }.view) := rfl

theorem setSp_view (w : Word) : setSp w m.view = some ((), { m with sp := w }.view) := rfl

theorem some_unit_eq_iff {t t' : State} : some ((), t') = some ((), t) ↔ t = t' := by
  simp [eq_comm]

/-- A row reads the slots that the machine reads. -/
theorem slot_view (m : Machine) (i : Int) : slot i m.view = (m.slot i).toOption.map fun w => (w, m.view) := by
  cases hs : m.slot i with
  | ok w =>
    obtain ⟨h0, hw⟩ := slot_eq_ok_iff.mp hs
    have hw' : m.view.stack[i.toNat]? = some w := hw
    rw [slot, if_neg (by omega), hw']
    rfl
  | error f =>
    rw [slot]
    rcases place_eq_error_iff.mp (slot_eq_error_iff.mp hs) with ⟨hi, -⟩ | ⟨hi, -⟩
    · rw [if_pos hi]
      rfl
    · have hn : m.view.stack[i.toNat]? = none := Array.getElem?_eq_none (by show m.stack.size ≤ i.toNat; omega)
      rw [if_neg (by omega), hn]
      rfl

/-- A part of a row that reads what the machine reads hands it on if the machine has it. -/
theorem bind_eq_some_iff_of_view {x : Row α} {r : Except Fault α} {g : α → Row Unit} {t : State}
    (hx : x m.view = r.toOption.map fun a => (a, m.view)) :
    (x >>= g) m.view = some ((), t) ↔ ∃ a, r = .ok a ∧ g a m.view = some ((), t) := by
  simp only [bind, StateT.bind, hx]
  cases r <;> simp [Except.toOption]

@[simp]
theorem slot_bind_eq_some_iff {i : Int} {g : Word → Row Unit} {t : State} :
    (slot i >>= g) m.view = some ((), t) ↔ ∃ w, m.slot i = .ok w ∧ g w m.view = some ((), t) :=
  bind_eq_some_iff_of_view (slot_view m i)

/-- A row follows the links that the machine follows. -/
theorem links_view (m : Machine) (n : Nat) (base : Word) :
    links n base m.view = (m.follow n base).toOption.map fun b => (b, m.view) := by
  induction n generalizing base with
  | zero => rfl
  | succ n ih =>
    rw [follow]
    simp only [links, bind, StateT.bind, slot_view]
    cases m.slot base.toInt with
    | ok next => exact ih next
    | error f => rfl

@[simp]
theorem findBase_bind_eq_some_iff {level : Word} {g : Word → Row Unit} {t : State} :
    (findBase level >>= g) m.view = some ((), t) ↔ ∃ base, m.findBase level = .ok base ∧ g base m.view = some ((), t) :=
  bind_eq_some_iff_of_view (links_view m level.toInt.toNat m.bp)

/-- A row writes the slots that the machine writes. -/
@[simp]
theorem assign_view_eq_some_iff {i : Int} {w : Word} {t : State} :
    assign i w m.view = some ((), t) ↔ m.HasSlot i ∧ t = (m.set i w).view := by
  rw [assign]
  split
  · rename_i hi
    have hs : m.HasSlot i := hi
    simp only [Option.some.injEq, Prod.mk.injEq, true_and, hs, eq_comm]
    exact Iff.rfl
  · rename_i hi
    have hs : ¬m.HasSlot i := hi
    simp [hs]

@[simp]
theorem assign_bind_eq_some_iff {i : Int} {w : Word} {g : Unit → Row Unit} {t : State} :
    (assign i w >>= g) m.view = some ((), t) ↔ m.HasSlot i ∧ g () (m.set i w).view = some ((), t) := by
  simp only [bind, StateT.bind]
  cases ha : assign i w m.view with
  | none =>
    have hs : ¬m.HasSlot i := fun hs => by simp [assign_view_eq_some_iff.mpr ⟨hs, rfl⟩] at ha
    simp [hs]
  | some r =>
    obtain ⟨hs, hr⟩ := assign_view_eq_some_iff.mp ha
    simp [hs, hr]

/-! ## Moving the stack top first -/

/-- If every slot has a word for a number, the slot above a word is the same slot after wrapping around, or neither is one. -/
theorem hasSlot_add_one_iff (hm : m.stack.size ≤ Numeral.maxWord + 1) (w : Word) :
    m.HasSlot (w + 1).toInt ↔ m.HasSlot (w.toInt + 1) := by
  simp only [HasSlot, Numeral.maxWord] at hm ⊢
  rcases Word.toInt_add_one w with ⟨-, hw⟩ | ⟨hw, hlow⟩
  · rw [hw]
  · omega

/-! ## Rows and actions -/

/-- A row agrees with an action on a machine: it leaves the view of what the action leaves, and aborts if a fault stops it. -/
def Agrees (r : Row Unit) (a : Action Unit) (m : Machine) : Prop :=
  ∀ t, r m.view = some ((), t) ↔ ∃ m', a m = .ok () m' ∧ t = m'.view

/-- Moving the stack top up and then writing there is a push, also where the move wraps around. -/
theorem assign_above_iff (hm : m.stack.size ≤ Numeral.maxWord + 1) {w : Word} {t : State} :
    assign (m.sp + 1).toInt w { m with sp := m.sp + 1 }.view = some ((), t) ↔
      ∃ m', Action.push w m = .ok () m' ∧ t = m'.view := by
  rw [assign_view_eq_some_iff, hasSlot_registers, hasSlot_add_one_iff hm]
  constructor
  · rintro ⟨hs, rfl⟩
    refine ⟨_, Action.push_eq_ok_iff.mpr ⟨hs, rfl⟩, ?_⟩
    rw [hs.toInt_add_one (Int.le_refl 1) hm]
    rfl
  · rintro ⟨m', hpush, rfl⟩
    obtain ⟨hs, rfl⟩ := Action.push_eq_ok_iff.mp hpush
    refine ⟨hs, ?_⟩
    rw [hs.toInt_add_one (Int.le_refl 1) hm]
    rfl

theorem agrees_lit (hm : m.stack.size ≤ Numeral.maxWord + 1) (level address : Word) :
    Agrees (row ⟨.lit, level, address⟩) (Action.push address) m := by
  intro t
  simp only [row, get_bind, setSp_bind]
  exact assign_above_iff hm

theorem agrees_lod (hm : m.stack.size ≤ Numeral.maxWord + 1) (level address : Word) :
    Agrees (row ⟨.lod, level, address⟩) (Action.load level address) m := by
  intro t
  simp only [row, get_bind, setSp_bind, findBase_bind_eq_some_iff, findBase_registers, slot_bind_eq_some_iff,
    slot_registers, Action.load_eq_ok_iff]
  constructor
  · rintro ⟨base, hb, w, hw, h⟩
    obtain ⟨m', hpush, rfl⟩ := (assign_above_iff hm).mp h
    exact ⟨m', ⟨base, w, hb, hw, hpush⟩, rfl⟩
  · rintro ⟨m', ⟨base, w, hb, hw, hpush⟩, rfl⟩
    exact ⟨base, hb, w, hw, (assign_above_iff hm).mpr ⟨m', hpush, rfl⟩⟩

theorem agrees_sto (level address : Word) : Agrees (row ⟨.sto, level, address⟩) (Action.store level address) m := by
  intro t
  simp only [row, get_bind, findBase_bind_eq_some_iff, slot_bind_eq_some_iff, assign_bind_eq_some_iff, setSp_view,
    some_unit_eq_iff, Action.store_eq_ok_iff]
  constructor
  · rintro ⟨base, hb, w, hw, hs, rfl⟩
    exact ⟨_, ⟨base, w, hb, hw, hs, rfl⟩, rfl⟩
  · rintro ⟨m', ⟨base, w, hb, hw, hs, rfl⟩, rfl⟩
    exact ⟨base, hb, w, hw, hs, rfl⟩

theorem agrees_cal (level address : Word) : Agrees (row ⟨.cal, level, address⟩) (Action.call level address) m := by
  intro t
  simp only [row, get_bind, findBase_bind_eq_some_iff, assign_bind_eq_some_iff, setBp_bind, setPc_view, hasSlot_set,
    some_unit_eq_iff, Action.call_eq_ok_iff]
  constructor
  · rintro ⟨link, hl, h1, -, h3, rfl⟩
    exact ⟨_, ⟨link, hl, h1, h3, rfl⟩, rfl⟩
  · rintro ⟨m', ⟨link, hl, h1, h3, rfl⟩, rfl⟩
    exact ⟨link, hl, h1, h1.between h3, h3, rfl⟩

theorem agrees_jpc (level address : Word) : Agrees (row ⟨.jpc, level, address⟩) (Action.jumpIf address) m := by
  intro t
  simp only [row, get_bind, slot_bind_eq_some_iff, Action.jumpIf_eq_ok_iff]
  constructor
  · rintro ⟨w, hw, h⟩
    refine ⟨_, ⟨w, hw, rfl⟩, ?_⟩
    by_cases h1 : w = 1
    · rw [if_pos h1] at h
      rw [if_pos h1]
      exact some_unit_eq_iff.mp h
    · rw [if_neg h1] at h
      rw [if_neg h1]
      exact some_unit_eq_iff.mp h
  · rintro ⟨m', ⟨w, hw, rfl⟩, rfl⟩
    refine ⟨w, hw, ?_⟩
    by_cases h1 : w = 1
    · rw [if_pos h1, if_pos h1]
      rfl
    · rw [if_neg h1, if_neg h1]
      rfl

theorem agrees_int (level address : Word) : Agrees (row ⟨.int, level, address⟩) (Action.reserve address) m := by
  intro t
  simp only [row, get_bind, setSp_view, some_unit_eq_iff, Action.reserve, Action.modify_eq_ok_iff, exists_eq_left]
  exact Iff.rfl

theorem agrees_jmp (level address : Word) : Agrees (row ⟨.jmp, level, address⟩) (Action.jump address) m := by
  intro t
  simp only [row, setPc_view, some_unit_eq_iff, Action.jump, Action.modify_eq_ok_iff, exists_eq_left]

/-! ## Rows and operations -/

theorem agrees_leave : Agrees (operation 0) Action.leave m := by
  intro t
  have hrow : operation 0 = (do
    setSp ((← get).bp - 1)
    setPc (← slot ((← get).sp.toInt + 3))
    setBp (← slot ((← get).sp.toInt + 2))) := rfl
  simp only [hrow, get_bind, setSp_bind, slot_bind_eq_some_iff, setPc_bind, setBp_view, slot_registers,
    some_unit_eq_iff, Action.leave_eq_ok_iff]
  constructor
  · rintro ⟨pc, hpc, bp, hbp, rfl⟩
    exact ⟨_, ⟨pc, bp, hpc, hbp, rfl⟩, rfl⟩
  · rintro ⟨m', ⟨pc, bp, hpc, hbp, rfl⟩, rfl⟩
    exact ⟨pc, hpc, bp, hbp, rfl⟩

theorem agrees_replace (op : Unary) : Agrees (replace op.value) (Action.unary op) m := by
  intro t
  simp only [replace, get_bind, slot_bind_eq_some_iff, assign_view_eq_some_iff, Action.unary_eq_ok_iff, Unary.apply_eq]
  constructor
  · rintro ⟨a, ha, -, rfl⟩
    exact ⟨_, ⟨a, ha, rfl⟩, rfl⟩
  · rintro ⟨m', ⟨a, ha, rfl⟩, rfl⟩
    exact ⟨a, ha, hasSlot_of_slot ha, rfl⟩

/-- The two topmost words are found from the new stack top as they are from the old one. Where the move down wraps around, the
slot above the new stack top lies beyond every stack. -/
theorem operands_iff (hm : m.stack.size ≤ Numeral.maxWord + 1) {a b : Word} :
    (m.slot (m.sp - 1).toInt = .ok a ∧ m.slot ((m.sp - 1).toInt + 1) = .ok b) ↔
      m.slot (m.sp.toInt - 1) = .ok a ∧ m.top = .ok b := by
  rcases Word.toInt_sub_one m.sp with ⟨-, hw⟩ | ⟨hlow, hhigh⟩
  · have htop : m.sp.toInt - 1 + 1 = m.sp.toInt := by omega
    rw [hw, htop]
    exact Iff.rfl
  · constructor
    · rintro ⟨-, hb⟩
      have hs := (hasSlot_of_slot hb).2
      simp only [Numeral.maxWord] at hm
      omega
    · rintro ⟨ha, -⟩
      have hs := (hasSlot_of_slot ha).1
      omega

theorem agrees_combine (hm : m.stack.size ≤ Numeral.maxWord + 1) (op : Binary) :
    Agrees (combine op.value) (Action.binary op) m := by
  intro t
  simp only [combine, get_bind, setSp_bind, slot_bind_eq_some_iff, slot_registers, Action.binary_eq_ok_iff,
    Binary.apply_eq]
  constructor
  · rintro ⟨a, ha, b, hb, h⟩
    obtain ⟨hl, hr⟩ := (operands_iff hm).mp ⟨ha, hb⟩
    cases hc : op.value a.toInt b.toInt with
    | none => simp [hc, abort] at h
    | some c =>
      simp only [hc, get_bind, assign_view_eq_some_iff] at h
      obtain ⟨-, rfl⟩ := h
      refine ⟨_, ⟨a, b, Int32.ofInt c, hl, hr, by rw [hc]; rfl, rfl⟩, ?_⟩
      rw [← Action.toInt_sp_sub_one hl]
      rfl
  · rintro ⟨m', ⟨a, b, c, hl, hr, hc, rfl⟩, rfl⟩
    obtain ⟨ha, hb⟩ := (operands_iff hm).mpr ⟨hl, hr⟩
    obtain ⟨c, hfc, rfl⟩ := Option.map_eq_some_iff.mp hc
    refine ⟨a, ha, b, hb, ?_⟩
    simp only [hfc, get_bind, assign_view_eq_some_iff]
    refine ⟨hasSlot_of_slot ha, ?_⟩
    rw [← Action.toInt_sp_sub_one hl]
    rfl

/-- The rows of the operations, by name. -/
theorem operation_unary (op : Unary) : operation (Operation.unary op).id = replace op.value := by
  cases op <;> rfl

theorem operation_binary (op : Binary) : operation (Operation.binary op).id = combine op.value := by
  cases op <;> rfl

/-- A number that selects no operation has no row. -/
theorem operation_eq_abort {id : Word} (h : Operation.ofId? id = none) : operation id = abort := by
  have hid := Operation.ofId?_eq_none_iff.mp h
  unfold operation
  split
  case h_14 => rfl
  all_goals omega

theorem agrees_operate (hm : m.stack.size ≤ Numeral.maxWord + 1) (level id : Word) :
    Agrees (operation id) (Action.operate ⟨.opr, level, id⟩) m := by
  cases ho : Instruction.operation? ⟨.opr, level, id⟩ with
  | none =>
    intro t
    simp [operation_eq_abort ho, abort, Action.operate_of_none ho, Action.stop]
  | some op =>
    rw [Action.operate_of_some ho]
    obtain rfl := Operation.ofId?_eq_some_iff.mp ho
    cases op with
    | leave => exact agrees_leave
    | unary op =>
      rw [operation_unary]
      exact agrees_replace op
    | binary op =>
      rw [operation_binary]
      exact agrees_combine hm op

/-- Every row agrees with what its instruction does. -/
theorem agrees_row (hm : m.stack.size ≤ Numeral.maxWord + 1) (i : Instruction) :
    Agrees (row i) (Action.effect i) m := by
  obtain ⟨opcode, level, address⟩ := i
  cases opcode with
  | lit => exact agrees_lit hm level address
  | opr => exact agrees_operate hm level address
  | lod => exact agrees_lod hm level address
  | sto => exact agrees_sto level address
  | cal => exact agrees_cal level address
  | int => exact agrees_int level address
  | jmp => exact agrees_jmp level address
  | jpc => exact agrees_jpc level address

/-- The table makes of the view of a machine what executing makes of the machine. -/
theorem step_view_eq_some_iff (hm : m.stack.size ≤ Numeral.maxWord + 1) (i : Instruction) (t : State) :
    step i m.view = some t ↔ ∃ m', m.execute i = .ok () m' ∧ t = m'.view := by
  have hrow : step i m.view = (row i m.begun.view).map (·.2) := rfl
  rw [hrow, Option.map_eq_some_iff, execute_eq_effect, ← agrees_row (m := m.begun) hm i t]
  constructor
  · rintro ⟨⟨u, t'⟩, h, rfl⟩
    exact h
  · intro h
    exact ⟨_, h, rfl⟩

end Table

/-- On a stack all of whose slots have a word for a number, whatever the registers hold: an instruction succeeds exactly if its
row of the table does not abort, and then it leaves the stack and the registers that the row leaves. -/
theorem Machine.execute_refines_table {m : Machine} (hm : m.stack.size ≤ Numeral.maxWord + 1) (i : Instruction) :
    ((∃ m', m.execute i = .ok () m') ↔ ∃ t, Table.step i m.view = some t) ∧
      ∀ m', m.execute i = .ok () m' → Table.step i m.view = some m'.view := by
  have hstep : ∀ m', m.execute i = .ok () m' → Table.step i m.view = some m'.view :=
    fun m' h => (Table.step_view_eq_some_iff hm i _).mpr ⟨m', h, rfl⟩
  refine ⟨⟨?_, ?_⟩, hstep⟩
  · rintro ⟨m', h⟩
    exact ⟨m'.view, hstep m' h⟩
  · rintro ⟨t, ht⟩
    obtain ⟨m', h, -⟩ := (Table.step_view_eq_some_iff hm i t).mp ht
    exact ⟨m', h⟩

/-- A call that just fits into the stack, and a push from the highest stack top there is: the row of the first writes the header
of the new frame, and that of the second aborts, as the stack top has wrapped around. -/
theorem Machine.execute_refines_table_edges :
    let m : Machine := { stack := #[4, 0, 0, 0], pc := 6, sp := 0 }
    let high : Machine := { m with sp := 2147483647 }
    (m.stack.size ≤ Numeral.maxWord + 1 ∧ Table.step ⟨.cal, 0, 2⟩ m.view = some ⟨#[4, 0, 0, 7], 2, 1, 0⟩) ∧
      high.stack.size ≤ Numeral.maxWord + 1 ∧ ¬∃ t, Table.step ⟨.lit, 0, 9⟩ high.view = some t := by
  intro m high
  have hm : m.stack.size ≤ Numeral.maxWord + 1 := by decide
  have hcall : m.execute ⟨.cal, 0, 2⟩ =
      .ok () { m with stack := #[4, 0, 0, 7], pc := 2, bp := 1, site := 6 } := rfl
  have hpush : high.execute ⟨.lit, 0, 9⟩ =
      .error ⟨6, .stackOverflow 2147483648⟩ { high with pc := 7, site := 6 } := rfl
  refine ⟨⟨hm, (Machine.execute_refines_table hm _).2 _ hcall⟩, hm, fun ht => ?_⟩
  obtain ⟨m', h⟩ := (Machine.execute_refines_table (m := high) hm _).1.mpr ht
  rw [hpush] at h
  cases h

end PMachine
