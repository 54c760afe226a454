import PMachine.Proofs.Machine.Action

/-!
# Instructions on a larger stack

A machine with zeros above its stack executes every instruction as the machine without them does, unless the instruction asks
for a slot above the smaller stack. An action that has this property `Scales`. Reads and writes of a slot scale, since a slot of
the smaller stack and a slot below zero are the same on both; and what is put together from actions that scale does.
-/

namespace PMachine

/-- Whether a slot above the stack was asked for. -/
def Cause.IsOverflow : Cause → Prop
  | .stackOverflow _ => True
  | .stackUnderflow _ | .divisionByZero | .unknownOperation _ => False

namespace Machine

/-- The machine with `n` zeros above its stack. -/
def grow (m : Machine) (n : Nat) : Machine := { m with stack := m.stack ++ Array.replicate n 0 }

/-- A fresh machine with zeros above its stack is a fresh machine. -/
theorem grow_initial (size n : Nat) : (initial size).grow n = initial (size + n) := by
  simp [grow, initial]

/-- A fault of asking for a slot stays the same, unless the slot lies above the smaller stack. -/
theorem place_grow_eq_error {m : Machine} {n : Nat} {i : Int} {f : Fault} (h : m.place i = .error f)
    (hf : ¬f.cause.IsOverflow) : (m.grow n).place i = .error f := by
  rcases place_eq_error_iff.mp h with ⟨hneg, rfl⟩ | ⟨-, rfl⟩
  · exact place_eq_error_iff.mpr (.inl ⟨hneg, rfl⟩)
  · exact absurd trivial hf

/-- The second reading is the first, unless this asks for a slot above its stack. -/
def Persists {α : Type} : Except Fault α → Except Fault α → Prop
  | .ok a, r => r = .ok a
  | .error f, r => ¬f.cause.IsOverflow → r = .error f

theorem persists_slot (m : Machine) (n : Nat) (i : Int) : Persists (m.slot i) ((m.grow n).slot i) := by
  cases h : m.slot i with
  | ok w =>
    obtain ⟨h0, hw⟩ := slot_eq_ok_iff.mp h
    have hlt := (Array.getElem?_eq_some_iff.mp hw).1
    refine slot_eq_ok_iff.mpr ⟨h0, ?_⟩
    simp only [grow]
    rw [Array.getElem?_append_left hlt, hw]
  | error f =>
    intro hf
    exact slot_eq_error_iff.mpr (place_grow_eq_error (slot_eq_error_iff.mp h) hf)

theorem persists_follow (m : Machine) (n count : Nat) (base : Word) :
    Persists (m.follow count base) ((m.grow n).follow count base) := by
  induction count generalizing base with
  | zero => rfl
  | succ count ih =>
    have hslot := persists_slot m n base.toInt
    simp only [follow]
    cases h : m.slot base.toInt with
    | ok next =>
      rw [h] at hslot
      rw [hslot]
      exact ih next
    | error f =>
      rw [h] at hslot
      intro hf
      rw [hslot hf]

end Machine

namespace Action

open Machine

variable {α β : Type}

/-- The second result is the first with `n` zeros above its stack, unless the first is the fault of a slot above its stack. -/
def Lifts (n : Nat) : EStateM.Result Fault Machine α → EStateM.Result Fault Machine α → Prop
  | .ok a m, r => r = .ok a (m.grow n)
  | .error f m, r => ¬f.cause.IsOverflow → r = .error f (m.grow n)

/-- Whether an action does the same on a larger stack, unless it asks for a slot above the smaller one. -/
def Scales (a : Action α) : Prop := ∀ m n, Lifts n (a m) (a (m.grow n))

/-! ## Sequences of actions -/

theorem Scales.bind {a : Action α} {g : α → Action β} (ha : Scales a) (hg : ∀ x, Scales (g x)) : Scales (a >>= g) := by
  intro m n
  have hlift := ha m n
  simp only [Bind.bind, EStateM.bind]
  cases h : a m with
  | ok x m' =>
    rw [h] at hlift
    rw [hlift]
    exact hg x m' n
  | error f m' =>
    rw [h] at hlift
    intro hf
    rw [hlift hf]

/-- An action that looks at the machine first scales if what it does next scales and depends on the registers alone. -/
theorem scales_get {g : Machine → Action α} (hg : ∀ m, Scales (g m)) (hsame : ∀ m n, g (m.grow n) = g m) :
    Scales (get >>= g) := by
  intro m n
  rw [get_bind, get_bind, hsame]
  exact hg m m n

theorem scales_read {f : Machine → Except Fault α} (hf : ∀ m n, Persists (f m) (f (m.grow n))) : Scales (read f) := by
  intro m n
  have hread := hf m n
  unfold read
  cases h : f m with
  | ok a =>
    rw [h] at hread
    rw [hread]
    rfl
  | error e =>
    rw [h] at hread
    intro he
    rw [hread he]

theorem scales_modify {f : Machine → Machine} (hf : ∀ m n, f (m.grow n) = (f m).grow n) :
    Scales (modify f : Action Unit) := by
  intro m n
  exact congrArg (EStateM.Result.ok ()) (hf m n)

theorem scales_stop (cause : Cause) : Scales (stop cause : Action α) := fun _ _ _ => rfl

theorem scales_write (i : Int) (w : Word) : Scales (write i w) := by
  intro m n
  cases h : write i w m with
  | ok u m' =>
    obtain ⟨h0, hlt, rfl⟩ := write_eq_ok_iff.mp h
    have hk : i.toNat < m.stack.size := by omega
    refine write_eq_ok_iff.mpr ⟨h0, ?_, ?_⟩
    · simp only [grow, Array.size_append]
      omega
    · simp only [grow]
      rw [Array.setIfInBounds_append_left hk]
  | error f m' =>
    obtain ⟨hplace, rfl⟩ := write_eq_error_iff.mp h
    intro hf
    exact write_eq_error_iff.mpr ⟨place_grow_eq_error hplace hf, rfl⟩

/-! ## The actions of single instructions -/

theorem scales_findBase (level : Word) : Scales (read (·.findBase level)) :=
  scales_read fun m n => persists_follow m n level.toInt.toNat m.bp

theorem scales_top : Scales (read (·.top)) := scales_read fun m n => persists_slot m n m.sp.toInt

theorem scales_slot (i : Int) : Scales (read (·.slot i)) := scales_read fun m n => persists_slot m n i

theorem scales_drop : Scales drop := scales_modify fun _ _ => rfl

theorem scales_push (w : Word) : Scales (push w) := by
  refine scales_get (fun m => ?_) fun _ _ => rfl
  refine (scales_write _ w).bind fun _ => ?_
  exact scales_modify fun _ _ => rfl

theorem scales_load (level address : Word) : Scales (load level address) := by
  refine (scales_findBase level).bind fun base => ?_
  refine (scales_slot _).bind fun w => ?_
  exact scales_push w

theorem scales_store (level address : Word) : Scales (store level address) := by
  refine (scales_findBase level).bind fun base => ?_
  refine scales_top.bind fun w => ?_
  exact (scales_write _ w).bind fun _ => scales_drop

theorem scales_call (level address : Word) : Scales (call level address) := by
  refine (scales_findBase level).bind fun link => ?_
  refine scales_get (fun m => ?_) fun _ _ => rfl
  refine (scales_slot _).bind fun _ => ?_
  refine (scales_slot _).bind fun _ => ?_
  refine (scales_write _ link).bind fun _ => ?_
  refine scales_get (fun m' => ?_) fun _ _ => rfl
  refine (scales_write _ m'.bp).bind fun _ => ?_
  refine scales_get (fun m'' => ?_) fun _ _ => rfl
  refine (scales_write _ m''.pc).bind fun _ => ?_
  exact scales_modify fun _ _ => rfl

theorem scales_leave : Scales leave := by
  refine scales_get (fun m => ?_) fun _ _ => rfl
  refine (scales_slot _).bind fun pc => ?_
  refine (scales_slot _).bind fun bp => ?_
  exact scales_modify fun _ _ => rfl

theorem scales_jumpIf (address : Word) : Scales (jumpIf address) := by
  refine scales_top.bind fun w => ?_
  by_cases hw : w = 1
  · simp only [hw, if_true]
    exact (scales_modify fun _ _ => rfl).bind fun _ => scales_drop
  · simp only [hw, if_false]
    exact scales_drop

theorem scales_unary (op : Unary) : Scales (unary op) := by
  refine scales_top.bind fun a => ?_
  exact scales_get (fun m => scales_write _ (op.apply a)) fun _ _ => rfl

theorem scales_binary (op : Binary) : Scales (binary op) := by
  refine (scales_read fun m n => persists_slot m n (m.sp.toInt - 1)).bind fun a => ?_
  refine scales_top.bind fun b => ?_
  cases op.apply a b with
  | none => exact scales_stop .divisionByZero
  | some c =>
    refine scales_get (fun m => ?_) fun _ _ => rfl
    exact (scales_write _ c).bind fun _ => scales_drop

theorem scales_operate (i : Instruction) : Scales (operate i) := by
  cases ho : i.operation? with
  | none =>
    rw [operate_of_none ho]
    exact scales_stop _
  | some op =>
    rw [operate_of_some ho]
    cases op with
    | leave => exact scales_leave
    | unary op => exact scales_unary op
    | binary op => exact scales_binary op

/-- What an instruction does scales: one case for each opcode. -/
theorem scales_effect (i : Instruction) : Scales (effect i) := by
  obtain ⟨opcode, level, address⟩ := i
  cases opcode with
  | lit => exact scales_push address
  | opr => exact scales_operate ⟨.opr, level, address⟩
  | lod => exact scales_load level address
  | sto => exact scales_store level address
  | cal => exact scales_call level address
  | int => exact scales_modify fun _ _ => rfl
  | jmp => exact scales_modify fun _ _ => rfl
  | jpc => exact scales_jumpIf address

end Action

/-- An instruction does the same on a larger stack, unless it asks for a slot above the smaller one. -/
theorem Machine.execute_grow (m : Machine) (i : Instruction) (n : Nat) :
    Action.Lifts n (m.execute i) ((m.grow n).execute i) := by
  have hbegin : Action.Scales Action.begin := Action.scales_modify fun _ _ => rfl
  exact hbegin.bind (fun _ => Action.scales_effect i) m n

end PMachine
