import PMachine.Proofs.Machine.Action

/-!
# Instructions that a fault stops

An instruction that a fault stops moves the program counter on and changes nothing else, and the fault names the position where
the instruction stood. That is what `int 0 0` does at the same place. So a list of instructions that is executed to its end,
faults or no faults, leaves the machine that it leaves with `int 0 0` in the place of every instruction that faulted.
-/

namespace PMachine

namespace Action

open Machine

variable {m m' : Machine} {f : Fault}

/-- An operation that a fault stops leaves the machine as it is, and the fault names its site. -/
theorem operate_eq_error {i : Instruction} (h : operate i m = .error f m') : m' = m ∧ f.site = m.site := by
  cases ho : i.operation? with
  | none =>
    rw [operate_of_none ho, stop, EStateM.Result.error.injEq] at h
    obtain ⟨rfl, rfl⟩ := h
    exact ⟨rfl, rfl⟩
  | some op =>
    rw [operate_of_some ho] at h
    cases op with
    | leave =>
      obtain ⟨hm, hf | ⟨-, hf⟩⟩ := leave_eq_error_iff.mp h
      · exact ⟨hm, site_of_slot hf⟩
      · exact ⟨hm, site_of_slot hf⟩
    | unary op =>
      obtain ⟨hm, hf⟩ := unary_eq_error_iff.mp h
      exact ⟨hm, site_of_slot hf⟩
    | binary op =>
      obtain ⟨hm, hf | ⟨a, -, hf | ⟨b, -, -, rfl⟩⟩⟩ := binary_eq_error_iff.mp h
      · exact ⟨hm, site_of_slot hf⟩
      · exact ⟨hm, site_of_slot hf⟩
      · exact ⟨hm, rfl⟩

/-- What an instruction does is done as a whole or not at all: one case for each opcode. -/
theorem effect_eq_error {i : Instruction} (h : effect i m = .error f m') : m' = m ∧ f.site = m.site := by
  obtain ⟨opcode, level, address⟩ := i
  cases opcode with
  | lit =>
    obtain ⟨hf, hm⟩ := push_eq_error_iff.mp h
    exact ⟨hm, site_of_place hf⟩
  | opr => exact operate_eq_error h
  | lod =>
    obtain ⟨hm, hf | ⟨base, -, hf | ⟨w, -, hf⟩⟩⟩ := load_eq_error_iff.mp h
    · exact ⟨hm, site_of_follow hf⟩
    · exact ⟨hm, site_of_slot hf⟩
    · exact ⟨hm, site_of_place hf⟩
  | sto =>
    obtain ⟨hm, hf | ⟨base, -, hf | ⟨w, -, hf⟩⟩⟩ := store_eq_error_iff.mp h
    · exact ⟨hm, site_of_follow hf⟩
    · exact ⟨hm, site_of_slot hf⟩
    · exact ⟨hm, site_of_place hf⟩
  | cal =>
    obtain ⟨hm, hf | ⟨-, hf | ⟨-, hf⟩⟩⟩ := call_eq_error_iff.mp h
    · exact ⟨hm, site_of_follow hf⟩
    · exact ⟨hm, site_of_place hf⟩
    · exact ⟨hm, site_of_place hf⟩
  | int => exact absurd h modify_ne_error
  | jmp => exact absurd h modify_ne_error
  | jpc =>
    obtain ⟨hm, hf⟩ := jumpIf_eq_error_iff.mp h
    exact ⟨hm, site_of_slot hf⟩

end Action

/-- The instruction that only moves the program counter on. -/
def Instruction.idle : Instruction := ⟨.int, 0, 0⟩

namespace Machine

/-- The machine in which the instruction at the program counter has begun. -/
def begun (m : Machine) : Machine := { m with site := m.pc, pc := m.pc + 1 }

/-- An instruction begins, and then does what it does. -/
theorem execute_eq_effect (m : Machine) (i : Instruction) : m.execute i = Action.effect i m.begun := rfl

/-- An instruction that a fault stops has only begun, and the fault names the position where it stood. -/
theorem execute_eq_error {m m' : Machine} {i : Instruction} {f : Fault} (h : m.execute i = .error f m') :
    m' = m.begun ∧ f.site = m.pc :=
  Action.effect_eq_error h

/-- `int 0 0` only begins. -/
theorem execute_idle (m : Machine) : m.execute .idle = .ok () m.begun := by
  have hsp : m.sp + 0 = m.sp := Int32.add_zero m.sp
  rw [execute_eq_effect]
  show EStateM.Result.ok () { m.begun with sp := m.sp + 0 } = .ok () m.begun
  rw [hsp]
  rfl

/-! ## Lists of instructions, faults ignored -/

/-- The machine that is left, and whether a fault stopped the instruction. -/
def left : EStateM.Result Fault Machine Unit → Machine × Bool
  | .ok _ m => (m, false)
  | .error _ m => (m, true)

/-- The machine that an instruction leaves, whether or not a fault stops it. -/
def after (m : Machine) (i : Instruction) : Machine := (left (m.execute i)).1

/-- Whether a fault stops an instruction. -/
def faults (m : Machine) (i : Instruction) : Bool := (left (m.execute i)).2

/-- The machine that instructions leave which are executed one after the other, whether or not faults stop some of them. -/
def afterAll (m : Machine) (is : List Instruction) : Machine := is.foldl after m

/-- The instructions with `int 0 0` in the place of every one that a fault stops in its turn. -/
def withoutFaults : Machine → List Instruction → List Instruction
  | _, [] => []
  | m, i :: is => (if m.faults i then .idle else i) :: withoutFaults (m.after i) is

/-- An instruction that faults leaves the machine that `int 0 0` leaves. -/
theorem after_idle_of_faults {m : Machine} {i : Instruction} (h : m.faults i = true) : m.after .idle = m.after i := by
  cases he : m.execute i with
  | ok u m' => simp [faults, he, left] at h
  | error f m' =>
    obtain ⟨rfl, -⟩ := execute_eq_error he
    rw [after, after, execute_idle, he]
    rfl

/-- Replacing an instruction only if it faults changes nothing that it leaves. -/
theorem after_replaced (m : Machine) (i : Instruction) : m.after (if m.faults i then .idle else i) = m.after i := by
  by_cases h : m.faults i = true
  · rw [if_pos h, after_idle_of_faults h]
  · rw [if_neg h]

/-- The instructions that faulted may be replaced by `int 0 0`. -/
theorem afterAll_withoutFaults (m : Machine) (is : List Instruction) : m.afterAll (m.withoutFaults is) = m.afterAll is := by
  induction is generalizing m with
  | nil => rfl
  | cons i is ih =>
    have hrest : (m.after i).afterAll ((m.after i).withoutFaults is) = (m.after i).afterAll is := ih (m.after i)
    simp only [afterAll, withoutFaults, List.foldl_cons, after_replaced] at hrest ⊢
    exact hrest

/-- A fault leaves the stack, the base and the stack top of any machine alone, moves the program counter on by one, wrapping
around, and names the position of its instruction. So a list of instructions that is executed with its faults ignored leaves
the same machine when `int 0 0` stands for every instruction that faulted. -/
theorem execute_fault_changes_only_pc (m : Machine) :
    (∀ (i : Instruction) (f : Fault) (m' : Machine), m.execute i = .error f m' →
      m'.stack = m.stack ∧ m'.bp = m.bp ∧ m'.sp = m.sp ∧ m'.pc = m.pc + 1 ∧ f.site = m.pc) ∧
    ∀ is : List Instruction, m.afterAll (m.withoutFaults is) = m.afterAll is := by
  refine ⟨?_, m.afterAll_withoutFaults⟩
  intro i f m' h
  obtain ⟨rfl, hf⟩ := execute_eq_error h
  exact ⟨rfl, rfl, rfl, rfl, hf⟩

/-- A call whose third header slot lies above the stack, from the highest position there is: nothing is written, the program
counter wraps around, and the two instructions that fault may be replaced. -/
theorem execute_fault_changes_only_pc_call :
    let m : Machine := { stack := #[5, 0, 0], pc := 2147483647, sp := 0 }
    let call : Instruction := ⟨.cal, 0, 2⟩
    let f : Fault := ⟨2147483647, .stackOverflow 3⟩
    let m' : Machine := { m with pc := -2147483648, site := 2147483647 }
    m.execute call = .error f m' ∧
      (m'.stack = m.stack ∧ m'.bp = m.bp ∧ m'.sp = m.sp ∧ m'.pc = m.pc + 1 ∧ f.site = m.pc) ∧
      m.withoutFaults [call, ⟨.lit, 0, 7⟩, ⟨.opr, 0, 13⟩] = [.idle, ⟨.lit, 0, 7⟩, .idle] ∧
      m.afterAll [.idle, ⟨.lit, 0, 7⟩, .idle] = m.afterAll [call, ⟨.lit, 0, 7⟩, ⟨.opr, 0, 13⟩] := by
  intro m call f m'
  have hbegun : m' = m.begun := by decide
  have hplace : m.begun.place (m.begun.sp.toInt + 3) = .error f := place_eq_error_iff.mpr (by decide)
  have heffect : Action.call 0 2 m.begun = .error f m' :=
    Action.call_eq_error_iff.mpr ⟨hbegun, Or.inr ⟨⟨m.begun.bp, rfl⟩, Or.inr ⟨by decide, hplace⟩⟩⟩
  have hcall : m.execute call = .error f m' := heffect
  have hrep : m.withoutFaults [call, ⟨.lit, 0, 7⟩, ⟨.opr, 0, 13⟩] = [.idle, ⟨.lit, 0, 7⟩, .idle] := by decide
  obtain ⟨hone, hall⟩ := execute_fault_changes_only_pc m
  exact ⟨hcall, hone call f m' hcall, hrep, hrep ▸ hall [call, ⟨.lit, 0, 7⟩, ⟨.opr, 0, 13⟩]⟩

end Machine

end PMachine
