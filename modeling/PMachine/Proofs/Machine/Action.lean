import PMachine.Machine.Execute

/-!
# What each action does

For every action two statements: when it succeeds and what machine it leaves, and when it stops and with which fault. An action
that stops leaves the machine as it is, although some write more than once: whatever is written after a first write lies in the
stack as soon as the checks in front of it have passed.
-/

namespace PMachine

namespace Machine

/-- Whether slot `i` lies in the stack. -/
def HasSlot (m : Machine) (i : Int) : Prop := 0 ≤ i ∧ i < m.stack.size

instance (m : Machine) (i : Int) : Decidable (m.HasSlot i) := inferInstanceAs (Decidable (0 ≤ i ∧ i < m.stack.size))

/-- The machine with `w` in slot `i`, if there is such a slot. -/
def set (m : Machine) (i : Int) (w : Word) : Machine := { m with stack := m.stack.setIfInBounds i.toNat w }

@[simp]
theorem set_pc (m : Machine) (i : Int) (w : Word) : (m.set i w).pc = m.pc := rfl

@[simp]
theorem set_bp (m : Machine) (i : Int) (w : Word) : (m.set i w).bp = m.bp := rfl

@[simp]
theorem set_sp (m : Machine) (i : Int) (w : Word) : (m.set i w).sp = m.sp := rfl

@[simp]
theorem set_site (m : Machine) (i : Int) (w : Word) : (m.set i w).site = m.site := rfl

@[simp]
theorem hasSlot_set {m : Machine} {i j : Int} {w : Word} : (m.set i w).HasSlot j ↔ m.HasSlot j := by
  simp [HasSlot, set]

/-! Slots and links depend on the stack alone, and a fault on the site besides. -/

@[simp]
theorem hasSlot_registers (m : Machine) (pc bp sp : Word) (i : Int) :
    HasSlot ⟨m.stack, pc, bp, sp, m.site⟩ i ↔ m.HasSlot i := Iff.rfl

@[simp]
theorem slot_registers (m : Machine) (pc bp sp : Word) (i : Int) : slot ⟨m.stack, pc, bp, sp, m.site⟩ i = m.slot i := rfl

@[simp]
theorem follow_registers (m : Machine) (pc bp sp : Word) (n : Nat) (base : Word) :
    follow ⟨m.stack, pc, bp, sp, m.site⟩ n base = m.follow n base := by
  induction n generalizing base with
  | zero => rfl
  | succ n ih =>
    rw [follow, follow, slot_registers]
    cases m.slot base.toInt with
    | ok next => exact ih next
    | error f => rfl

@[simp]
theorem findBase_registers (m : Machine) (pc sp level : Word) :
    findBase ⟨m.stack, pc, m.bp, sp, m.site⟩ level = m.findBase level :=
  follow_registers m pc m.bp sp _ _

/-- A slot that lies between two of the stack lies in the stack. -/
theorem HasSlot.between {m : Machine} {i : Int} (hlo : m.HasSlot (i + 1)) (hhi : m.HasSlot (i + 3)) :
    m.HasSlot (i + 2) := by
  obtain ⟨lo, -⟩ := hlo
  obtain ⟨-, hi⟩ := hhi
  exact ⟨by omega, by omega⟩

/-- If every slot has a word for a number, a word below a slot of the stack has a next one. -/
theorem HasSlot.toInt_add_one {m : Machine} {w : Word} {k : Int} (h : m.HasSlot (w.toInt + k)) (hk : 1 ≤ k)
    (hsize : m.stack.size ≤ Numeral.maxWord + 1) : (w + 1).toInt = w.toInt + 1 := by
  obtain ⟨-, hlt⟩ := h
  unfold Numeral.maxWord at hsize
  exact Word.toInt_add_one_of_lt (by omega)

/-- A slot is asked for without a fault exactly if it lies in the stack. -/
theorem exists_place_iff {m : Machine} {i : Int} : (∃ k, m.place i = .ok k) ↔ m.HasSlot i := by
  constructor
  · rintro ⟨k, hk⟩
    have hi := place_eq_ok_iff.mp hk
    have hlt := k.isLt
    exact ⟨by omega, by omega⟩
  · rintro ⟨h0, hlt⟩
    exact ⟨⟨i.toNat, by omega⟩, place_eq_ok_iff.mpr (by simp only; omega)⟩

/-- A slot is read without a fault exactly if it lies in the stack. -/
theorem exists_slot_iff {m : Machine} {i : Int} : (∃ w, m.slot i = .ok w) ↔ m.HasSlot i := by
  rw [← exists_place_iff, slot]
  cases m.place i <;> simp [Except.map]

/-- A slot that is asked for with a fault does not lie in the stack. -/
theorem not_hasSlot_of_place {m : Machine} {i : Int} {f : Fault} (h : m.place i = .error f) : ¬m.HasSlot i := by
  rw [← exists_place_iff, h]
  rintro ⟨k, hk⟩
  cases hk

theorem hasSlot_of_slot {m : Machine} {i : Int} {w : Word} (h : m.slot i = .ok w) : m.HasSlot i :=
  exists_slot_iff.mp ⟨w, h⟩

/-- The fault of asking for a slot names the site of the machine. -/
theorem site_of_place {m : Machine} {i : Int} {f : Fault} (h : m.place i = .error f) : f.site = m.site := by
  rcases place_eq_error_iff.mp h with ⟨-, rfl⟩ | ⟨-, rfl⟩ <;> rfl

/-- The fault of reading a slot names the site of the machine. -/
theorem site_of_slot {m : Machine} {i : Int} {f : Fault} (h : m.slot i = .error f) : f.site = m.site :=
  site_of_place (slot_eq_error_iff.mp h)

/-- The fault of following links names the site of the machine. -/
theorem site_of_follow {m : Machine} {n : Nat} {base : Word} {f : Fault} (h : m.follow n base = .error f) :
    f.site = m.site := by
  induction n generalizing base with
  | zero => cases h
  | succ n ih =>
    rw [follow] at h
    cases hs : m.slot base.toInt with
    | ok next =>
      rw [hs] at h
      exact ih h
    | error g =>
      rw [hs] at h
      cases h
      exact site_of_slot hs

end Machine

namespace Action

open Machine

variable {α β : Type} {m m' : Machine} {f : Fault}

/-! ## Sequences of actions -/

@[simp]
theorem get_bind (g : Machine → Action α) : (get >>= g) m = g m m := rfl

@[simp]
theorem modify_eq_ok_iff {g : Machine → Machine} : (modify g : Action Unit) m = .ok () m' ↔ m' = g m := by
  constructor
  · rintro ⟨⟩
    rfl
  · rintro rfl
    rfl

@[simp]
theorem modify_ne_error {g : Machine → Machine} : (modify g : Action Unit) m ≠ .error f m' := nofun

@[simp]
theorem modify_bind {g : Machine → Machine} {h : Unit → Action α} : ((modify g : Action Unit) >>= h) m = h () (g m) :=
  rfl

/-- A sequence that starts with a read succeeds if the read does and the rest does with what was read. -/
@[simp]
theorem read_bind_eq_ok_iff {r : Machine → Except Fault α} {g : α → Action β} {b : β} :
    (read r >>= g) m = .ok b m' ↔ ∃ a, r m = .ok a ∧ g a m = .ok b m' := by
  simp only [bind, EStateM.bind, read]
  cases r m <;> simp

@[simp]
theorem read_bind_eq_error_iff {r : Machine → Except Fault α} {g : α → Action β} :
    (read r >>= g) m = .error f m' ↔ (r m = .error f ∧ m' = m) ∨ ∃ a, r m = .ok a ∧ g a m = .error f m' := by
  simp only [bind, EStateM.bind, read]
  cases r m <;> simp [eq_comm]

/-- Writing succeeds on the slots of the stack. -/
@[simp]
theorem write_eq_ok_iff_hasSlot {i : Int} {w : Word} :
    write i w m = .ok () m' ↔ m.HasSlot i ∧ m' = m.set i w := by
  rw [write_eq_ok_iff, ← and_assoc]
  rfl

/-- A sequence that starts with a write succeeds if the slot lies in the stack and the rest does with the slot written. -/
@[simp]
theorem write_bind_eq_ok_iff {i : Int} {w : Word} {g : Unit → Action β} {b : β} :
    (write i w >>= g) m = .ok b m' ↔ m.HasSlot i ∧ g () (m.set i w) = .ok b m' := by
  simp only [bind, EStateM.bind]
  cases hw : write i w m with
  | ok u m₁ =>
    obtain ⟨hi, rfl⟩ := write_eq_ok_iff_hasSlot.mp hw
    simp [hi]
  | error f m₁ =>
    obtain ⟨hp, rfl⟩ := write_eq_error_iff.mp hw
    simp [not_hasSlot_of_place hp]

@[simp]
theorem write_bind_eq_error_iff {i : Int} {w : Word} {g : Unit → Action β} :
    (write i w >>= g) m = .error f m' ↔
      (m.place i = .error f ∧ m' = m) ∨ (m.HasSlot i ∧ g () (m.set i w) = .error f m') := by
  simp only [bind, EStateM.bind]
  cases hw : write i w m with
  | ok u m₁ =>
    obtain ⟨hi, rfl⟩ := write_eq_ok_iff_hasSlot.mp hw
    obtain ⟨k, hk⟩ := exists_place_iff.mpr hi
    simp [hi, hk]
  | error g m₁ =>
    obtain ⟨hp, rfl⟩ := write_eq_error_iff.mp hw
    simp [not_hasSlot_of_place hp, hp, eq_comm]

/-! ## The actions of single instructions -/

theorem push_eq_ok_iff {w : Word} :
    push w m = .ok () m' ↔ m.HasSlot (m.sp.toInt + 1) ∧ m' = { m.set (m.sp.toInt + 1) w with sp := m.sp + 1 } := by
  simp [push]

theorem push_eq_error_iff {w : Word} : push w m = .error f m' ↔ m.place (m.sp.toInt + 1) = .error f ∧ m' = m := by
  simp [push]

theorem load_eq_ok_iff {level address : Word} :
    load level address m = .ok () m' ↔ ∃ base w, m.findBase level = .ok base ∧
      m.slot (base.toInt + address.toInt) = .ok w ∧ push w m = .ok () m' := by
  simp [load]

theorem load_eq_error_iff {level address : Word} :
    load level address m = .error f m' ↔ m' = m ∧ (m.findBase level = .error f ∨ ∃ base, m.findBase level = .ok base ∧
      (m.slot (base.toInt + address.toInt) = .error f ∨ ∃ w, m.slot (base.toInt + address.toInt) = .ok w ∧
        m.place (m.sp.toInt + 1) = .error f)) := by
  simp only [load, read_bind_eq_error_iff, push_eq_error_iff]
  grind

theorem store_eq_ok_iff {level address : Word} :
    store level address m = .ok () m' ↔ ∃ base w, m.findBase level = .ok base ∧ m.top = .ok w ∧
      m.HasSlot (base.toInt + address.toInt) ∧
      m' = { m.set (base.toInt + address.toInt) w with sp := m.sp - 1 } := by
  simp [store, drop]

theorem store_eq_error_iff {level address : Word} :
    store level address m = .error f m' ↔ m' = m ∧ (m.findBase level = .error f ∨ ∃ base, m.findBase level = .ok base ∧
      (m.top = .error f ∨ ∃ w, m.top = .ok w ∧ m.place (base.toInt + address.toInt) = .error f)) := by
  simp only [store, drop, read_bind_eq_error_iff, write_bind_eq_error_iff, modify_ne_error]
  grind

/-- A call succeeds if the first and the last slot of the new frame lie in the stack: then so does the one between them. -/
theorem call_eq_ok_iff {level address : Word} :
    call level address m = .ok () m' ↔ ∃ link, m.findBase level = .ok link ∧ m.HasSlot (m.sp.toInt + 1) ∧
      m.HasSlot (m.sp.toInt + 3) ∧
      m' = { ((m.set (m.sp.toInt + 1) link).set (m.sp.toInt + 2) m.bp).set (m.sp.toInt + 3) m.pc with
        bp := m.sp + 1, pc := address } := by
  have h2 : m.sp.toInt + 1 + 1 = m.sp.toInt + 2 := by omega
  have h3 : m.sp.toInt + 1 + 2 = m.sp.toInt + 3 := by omega
  simp only [call, get_bind, read_bind_eq_ok_iff, write_bind_eq_ok_iff, modify_eq_ok_iff, h2, h3, hasSlot_set, set_bp,
    set_pc, set_sp, exists_and_right, exists_slot_iff]
  refine exists_congr fun link => and_congr_right fun _ => ?_
  constructor
  · rintro ⟨-, -, h1, -, h3, hm⟩
    exact ⟨h1, h3, hm⟩
  · rintro ⟨h1, h3, hm⟩
    exact ⟨h1, h3, h1, h1.between h3, h3, hm⟩

theorem call_eq_error_iff {level address : Word} :
    call level address m = .error f m' ↔ m' = m ∧ (m.findBase level = .error f ∨ (∃ link, m.findBase level = .ok link) ∧
      (m.place (m.sp.toInt + 1) = .error f ∨
        m.HasSlot (m.sp.toInt + 1) ∧ m.place (m.sp.toInt + 3) = .error f)) := by
  have h2 : m.sp.toInt + 1 + 1 = m.sp.toInt + 2 := by omega
  have h3 : m.sp.toInt + 1 + 2 = m.sp.toInt + 3 := by omega
  simp only [call, get_bind, read_bind_eq_error_iff, write_bind_eq_error_iff, modify_ne_error, h2, h3, hasSlot_set,
    exists_and_right, exists_slot_iff, slot_eq_error_iff, and_false, or_false]
  constructor
  · rintro (⟨h, rfl⟩ | ⟨link, hl, ⟨h, rfl⟩ | ⟨h1, ⟨h, rfl⟩ | ⟨h3, ⟨h, -⟩ | ⟨-, ⟨h, -⟩ | ⟨-, h, -⟩⟩⟩⟩⟩)
    · exact ⟨rfl, Or.inl h⟩
    · exact ⟨rfl, Or.inr ⟨⟨link, hl⟩, Or.inl h⟩⟩
    · exact ⟨rfl, Or.inr ⟨⟨link, hl⟩, Or.inr ⟨h1, h⟩⟩⟩
    -- The three writes that follow the two checks do not fault.
    · exact absurd h1 (not_hasSlot_of_place h)
    · exact absurd (hasSlot_set.mpr (h1.between h3)) (not_hasSlot_of_place h)
    · exact absurd (hasSlot_set.mpr (hasSlot_set.mpr h3)) (not_hasSlot_of_place h)
  · rintro ⟨rfl, h | ⟨⟨link, hl⟩, h | ⟨h1, h⟩⟩⟩
    · exact Or.inl ⟨h, rfl⟩
    · exact Or.inr ⟨link, hl, Or.inl ⟨h, rfl⟩⟩
    · exact Or.inr ⟨link, hl, Or.inr ⟨h1, Or.inl ⟨h, rfl⟩⟩⟩

theorem leave_eq_ok_iff : leave m = .ok () m' ↔ ∃ pc bp, m.slot ((m.bp - 1).toInt + 3) = .ok pc ∧
    m.slot ((m.bp - 1).toInt + 2) = .ok bp ∧ m' = { m with pc, bp, sp := m.bp - 1 } := by
  simp [leave]

theorem leave_eq_error_iff : leave m = .error f m' ↔ m' = m ∧ (m.slot ((m.bp - 1).toInt + 3) = .error f ∨
    (∃ pc, m.slot ((m.bp - 1).toInt + 3) = .ok pc) ∧ m.slot ((m.bp - 1).toInt + 2) = .error f) := by
  simp only [leave, get_bind, read_bind_eq_error_iff, modify_ne_error]
  grind

theorem jumpIf_eq_ok_iff {address : Word} : jumpIf address m = .ok () m' ↔
    ∃ w, m.top = .ok w ∧ m' = { m with pc := if w = 1 then address else m.pc, sp := m.sp - 1 } := by
  simp only [jumpIf, drop, jump, read_bind_eq_ok_iff]
  refine exists_congr fun w => and_congr_right fun _ => ?_
  split <;> simp

theorem jumpIf_eq_error_iff {address : Word} :
    jumpIf address m = .error f m' ↔ m' = m ∧ m.top = .error f := by
  simp only [jumpIf, drop, jump, read_bind_eq_error_iff]
  constructor
  · rintro (⟨h, rfl⟩ | ⟨w, -, h⟩)
    · exact ⟨rfl, h⟩
    · split at h <;> simp at h
  · rintro ⟨rfl, h⟩
    exact Or.inl ⟨h, rfl⟩

theorem unary_eq_ok_iff {op : Unary} :
    unary op m = .ok () m' ↔ ∃ a, m.top = .ok a ∧ m' = m.set m.sp.toInt (op.apply a) := by
  simp only [unary, read_bind_eq_ok_iff, get_bind, write_eq_ok_iff_hasSlot]
  exact exists_congr fun a => and_congr_right fun ha => and_iff_right (hasSlot_of_slot ha)

theorem unary_eq_error_iff {op : Unary} : unary op m = .error f m' ↔ m' = m ∧ m.top = .error f := by
  simp only [unary, read_bind_eq_error_iff, get_bind, write_eq_error_iff]
  constructor
  · rintro (⟨h, rfl⟩ | ⟨a, ha, h, rfl⟩)
    · exact ⟨rfl, h⟩
    · exact absurd (hasSlot_of_slot ha) (not_hasSlot_of_place h)
  · rintro ⟨rfl, h⟩
    exact Or.inl ⟨h, rfl⟩

/-- The slot of the left operand lies in the stack, so the stack top moves down to it without wrapping around. -/
theorem toInt_sp_sub_one {a : Word} (h : m.slot (m.sp.toInt - 1) = .ok a) : (m.sp - 1).toInt = m.sp.toInt - 1 := by
  have hs := hasSlot_of_slot h
  rcases Word.toInt_sub_one m.sp with ⟨-, hw⟩ | ⟨hw, -⟩
  · exact hw
  · have := hs.1
    omega

theorem binary_eq_ok_iff {op : Binary} :
    binary op m = .ok () m' ↔ ∃ a b c, m.slot (m.sp.toInt - 1) = .ok a ∧ m.top = .ok b ∧ op.apply a b = some c ∧
      m' = { m.set (m.sp.toInt - 1) c with sp := m.sp - 1 } := by
  simp only [binary, read_bind_eq_ok_iff]
  constructor
  · rintro ⟨a, ha, b, hb, h⟩
    cases hc : op.apply a b with
    | none => simp [hc, stop] at h
    | some c =>
      simp only [hc, get_bind, write_bind_eq_ok_iff, toInt_sp_sub_one ha, drop, modify_eq_ok_iff] at h
      exact ⟨a, b, c, ha, hb, hc, h.2⟩
  · rintro ⟨a, b, c, ha, hb, hc, rfl⟩
    refine ⟨a, ha, b, hb, ?_⟩
    simp only [hc, get_bind, write_bind_eq_ok_iff, toInt_sp_sub_one ha, drop, modify_eq_ok_iff]
    exact ⟨hasSlot_of_slot ha, rfl⟩

theorem binary_eq_error_iff {op : Binary} :
    binary op m = .error f m' ↔ m' = m ∧ (m.slot (m.sp.toInt - 1) = .error f ∨
      ∃ a, m.slot (m.sp.toInt - 1) = .ok a ∧ (m.top = .error f ∨
        ∃ b, m.top = .ok b ∧ op.apply a b = none ∧ f = ⟨m.site, .divisionByZero⟩)) := by
  simp only [binary, read_bind_eq_error_iff]
  constructor
  · rintro (⟨h, rfl⟩ | ⟨a, ha, ⟨h, rfl⟩ | ⟨b, hb, h⟩⟩)
    · exact ⟨rfl, Or.inl h⟩
    · exact ⟨rfl, Or.inr ⟨a, ha, Or.inl h⟩⟩
    · cases hc : op.apply a b with
      | none =>
        simp only [hc, stop, EStateM.Result.error.injEq] at h
        exact ⟨h.2.symm, Or.inr ⟨a, ha, Or.inr ⟨b, hb, hc, h.1.symm⟩⟩⟩
      | some c =>
        simp only [hc, get_bind, write_bind_eq_error_iff, toInt_sp_sub_one ha, drop, modify_ne_error, and_false,
          or_false] at h
        exact absurd (hasSlot_of_slot ha) (not_hasSlot_of_place h.1)
  · rintro ⟨rfl, h | ⟨a, ha, h | ⟨b, hb, hc, rfl⟩⟩⟩
    · exact Or.inl ⟨h, rfl⟩
    · exact Or.inr ⟨a, ha, Or.inl ⟨h, rfl⟩⟩
    · refine Or.inr ⟨a, ha, Or.inr ⟨b, hb, ?_⟩⟩
      simp [hc, stop]

end Action

end PMachine
