import PMachine.Proofs.Machine.Refinement
import PMachine.Proofs.Machine.Step

/-!
# Expressions in postfix form

An expression over words and variables has a value in the integers, reduced to a word after each operation. Its code is the
list of its parts in postorder, each with the instruction that computes it from its operands. On a machine with room for the
operands the code pushes the value and changes nothing below it, or stops at the first division by zero.

Variables are looked up through static links while operands lie on the stack above them. `Machine.Reaches` says that all the
slots of such a look-up are in use, so that no operand is written over them.
-/

namespace PMachine

/-- An expression over words and variables. -/
inductive Expr where
  | const (w : Word)
  | var (level address : Word)
  | unary (op : Unary) (operand : Expr)
  | binary (op : Binary) (left right : Expr)
  deriving DecidableEq, Repr

namespace Expr

/-- The parts of an expression in postorder, those of the left operand first. The last one is the expression itself. -/
def nodes : Expr → List Expr
  | .const w => [.const w]
  | .var level address => [.var level address]
  | .unary op operand => operand.nodes ++ [.unary op operand]
  | .binary op left right => left.nodes ++ right.nodes ++ [.binary op left right]

/-- The instruction that computes an expression from its operands. -/
def instruction : Expr → Instruction
  | .const w => ⟨.lit, 0, w⟩
  | .var level address => ⟨.lod, level, address⟩
  | .unary op _ => ⟨.opr, 0, (Operation.unary op).id⟩
  | .binary op _ _ => ⟨.opr, 0, (Operation.binary op).id⟩

/-- The postfix code of an expression. -/
def code (e : Expr) : List Instruction := e.nodes.map instruction

/-- The number of slots that the code of an expression needs for its operands. -/
def depth : Expr → Nat
  | .const _ | .var _ _ => 1
  | .unary _ operand => operand.depth
  | .binary _ left right => max left.depth (1 + right.depth)

/-- The value of an expression, where `env` gives the words of the variables; none if it divides by zero. -/
def value (env : Word → Word → Option Word) : Expr → Option Word
  | .const w => some w
  | .var level address => env level address
  | .unary op operand => (operand.value env).map fun a => Int32.ofInt (op.value a.toInt)
  | .binary op left right =>
    (left.value env).bind fun a => (right.value env).bind fun b => (op.value a.toInt b.toInt).map Int32.ofInt

/-- Whether an expression is a division whose divisor has the value zero. -/
def dividesByZero (env : Word → Word → Option Word) : Expr → Bool
  | .binary .divide _ right => right.value env = some 0
  | _ => false

/-- The place in the code of the first division whose divisor has the value zero. -/
def zeroDivision? (env : Word → Word → Option Word) (e : Expr) : Option Nat := e.nodes.findIdx? (dividesByZero env)

variable {env : Word → Word → Option Word}

theorem one_le_depth (e : Expr) : 1 ≤ e.depth := by
  induction e with
  | const | var => exact Nat.le_refl 1
  | unary op operand ih => exact ih
  | binary op left right ihl ihr => exact Nat.le_trans ihl (Nat.le_max_left _ _)

theorem code_unary (op : Unary) (operand : Expr) :
    (unary op operand).code = operand.code ++ [(unary op operand).instruction] := by
  simp only [code, nodes, List.map_append, List.map_cons, List.map_nil]

theorem code_binary (op : Binary) (left right : Expr) :
    (binary op left right).code = left.code ++ (right.code ++ [(binary op left right).instruction]) := by
  simp only [code, nodes, List.map_append, List.map_cons, List.map_nil, List.append_assoc]

theorem length_nodes (e : Expr) : e.nodes.length = e.code.length := (List.length_map _).symm

theorem zeroDivision?_unary (op : Unary) (operand : Expr) :
    (unary op operand).zeroDivision? env = operand.zeroDivision? env := by
  simp [zeroDivision?, nodes, List.findIdx?_append, dividesByZero]

/-- The first division by zero is in the left operand, else in the right one, else it is the operation itself. -/
theorem zeroDivision?_binary (op : Binary) (left right : Expr) :
    (binary op left right).zeroDivision? env =
      (left.zeroDivision? env).or (((right.zeroDivision? env).or
        (if (binary op left right).dividesByZero env then some right.code.length else none)).map (· + left.code.length)) := by
  simp [zeroDivision?, nodes, List.findIdx?_append, length_nodes]

/-- An operation on values has none exactly if it divides by zero. -/
theorem dividesByZero_binary {op : Binary} {left right : Expr} {a b : Word} (hb : right.value env = some b) :
    (binary op left right).dividesByZero env = true ↔ op.apply a b = none := by
  cases op <;> simp [dividesByZero, Binary.apply, hb]

end Expr

namespace Machine

variable {m m' m₁ m₂ : Machine}

/-! ## Lists of instructions, up to the first fault -/

/-- Executes instructions one after the other, up to the first one that a fault stops. -/
def executeAll (m : Machine) : List Instruction → EStateM.Result Fault Machine Unit
  | [] => .ok () m
  | i :: is =>
    match m.execute i with
    | .ok _ m' => m'.executeAll is
    | .error f m' => .error f m'

/-- What follows a list is executed on the machine that the list leaves, unless a fault stops the list. -/
theorem executeAll_append (m : Machine) (is js : List Instruction) :
    m.executeAll (is ++ js) =
      match m.executeAll is with
      | .ok _ m' => m'.executeAll js
      | .error f m' => .error f m' := by
  induction is generalizing m with
  | nil => rfl
  | cons i is ih =>
    rw [List.cons_append, executeAll, executeAll]
    cases m.execute i with
    | ok u m' => exact ih m'
    | error f m' => rfl

theorem executeAll_append_of_ok {is : List Instruction} (h : m.executeAll is = .ok () m') (js : List Instruction) :
    m.executeAll (is ++ js) = m'.executeAll js := by
  rw [executeAll_append, h]

theorem executeAll_append_of_error {is : List Instruction} {f : Fault} (h : m.executeAll is = .error f m')
    (js : List Instruction) : m.executeAll (is ++ js) = .error f m' := by
  rw [executeAll_append, h]

theorem executeAll_singleton (m : Machine) (i : Instruction) : m.executeAll [i] = m.execute i := by
  rw [executeAll]
  cases m.execute i <;> rfl

/-! ## Looking up variables -/

/-- The word of the variable at `address`, `level` scopes out. -/
def lookup (m : Machine) (level address : Word) : Option Word :=
  match m.findBase level with
  | .ok base => (m.slot (base.toInt + address.toInt)).toOption
  | .error _ => none

/-- Whether the slots of all the links to a variable and the slot of the variable itself are in use: from 0 to the stack
top. -/
def Reaches (m : Machine) (level address : Word) : Prop :=
  (∀ n < level.toInt.toNat, ∃ base, m.follow n m.bp = .ok base ∧ 0 ≤ base.toInt ∧ base.toInt ≤ m.sp.toInt) ∧
    ∃ base, m.findBase level = .ok base ∧ 0 ≤ base.toInt + address.toInt ∧ base.toInt + address.toInt ≤ m.sp.toInt

/-- Whether a machine has the base of another one, at least its stack top and the same words in the slots that the other one
uses. -/
structure Extends (m' m : Machine) : Prop where
  bp : m'.bp = m.bp
  sp_le : m.sp.toInt ≤ m'.sp.toInt
  kept {j : Int} {w : Word} (h0 : 0 ≤ j) (hj : j ≤ m.sp.toInt) : m.slot j = .ok w → m'.slot j = .ok w

theorem lookup_eq_some_iff {level address w : Word} :
    m.lookup level address = some w ↔
      ∃ base, m.findBase level = .ok base ∧ m.slot (base.toInt + address.toInt) = .ok w := by
  rw [lookup]
  cases m.findBase level with
  | error f => simp
  | ok base => cases hs : m.slot (base.toInt + address.toInt) <;> simp [hs, Except.toOption]

/-- A variable in a used slot has a word. -/
theorem Reaches.exists_lookup {level address : Word} (hm : m.Reaches level address) (hsp : m.sp.toInt < m.stack.size) :
    ∃ w, m.lookup level address = some w := by
  obtain ⟨-, base, hbase, h0, hle⟩ := hm
  have hslot : m.HasSlot (base.toInt + address.toInt) := ⟨h0, by omega⟩
  obtain ⟨w, hw⟩ := exists_slot_iff.mpr hslot
  exact ⟨w, lookup_eq_some_iff.mpr ⟨base, hbase, hw⟩⟩

/-- Following one link more is reading the slot of the last link. -/
theorem follow_succ_eq_ok_iff {n : Nat} {base b : Word} :
    m.follow (n + 1) base = .ok b ↔ ∃ link, m.follow n base = .ok link ∧ m.slot link.toInt = .ok b := by
  rw [follow_add]
  cases m.follow n base with
  | error f => simp [Except.bind]
  | ok link =>
    simp only [Except.bind, follow, Except.ok.injEq, exists_eq_left']
    cases m.slot link.toInt <;> rfl

/-- Links in used slots lead to the same bases. -/
theorem Extends.follow (h : Extends m' m) {n : Nat} {b : Word}
    (hlinks : ∀ k < n, ∃ base, m.follow k m.bp = .ok base ∧ 0 ≤ base.toInt ∧ base.toInt ≤ m.sp.toInt)
    (hb : m.follow n m.bp = .ok b) : m'.follow n m'.bp = .ok b := by
  rw [h.bp]
  induction n generalizing b with
  | zero => exact hb
  | succ n ih =>
    obtain ⟨link, hlink, hslot⟩ := follow_succ_eq_ok_iff.mp hb
    obtain ⟨base, hbase, h0, hle⟩ := hlinks n (Nat.lt_succ_self n)
    cases hlink.symm.trans hbase
    exact follow_succ_eq_ok_iff.mpr ⟨link, ih (fun k hk => hlinks k (Nat.lt_succ_of_lt hk)) hlink, h.kept h0 hle hslot⟩

/-- A variable in a used slot stays in reach. -/
theorem Reaches.extend {level address : Word} (hm : m.Reaches level address) (h : Extends m' m) :
    m'.Reaches level address := by
  have hsp := h.sp_le
  obtain ⟨hlinks, base, hbase, h0, hle⟩ := hm
  refine ⟨fun n hn => ?_, base, h.follow hlinks hbase, h0, by omega⟩
  obtain ⟨b, hb, hb0, hble⟩ := hlinks n hn
  exact ⟨b, h.follow (fun k hk => hlinks k (by omega)) hb, hb0, by omega⟩

/-- A variable in a used slot keeps its word. -/
theorem Extends.lookup {level address w : Word} (h : Extends m' m) (hm : m.Reaches level address)
    (hw : m.lookup level address = some w) : m'.lookup level address = some w := by
  obtain ⟨hlinks, base, hbase, h0, hle⟩ := hm
  obtain ⟨base', hbase', hslot⟩ := lookup_eq_some_iff.mp hw
  cases hbase.symm.trans hbase'
  exact lookup_eq_some_iff.mpr ⟨base, h.follow hlinks hbase, h.kept h0 hle hslot⟩

/-! ## Pushing a value -/

/-- Whether a machine is left by `length` instructions that push `w` and use no more than `depth` slots above the stack top for
that. -/
structure Pushes (m m' : Machine) (depth length : Nat) (w : Word) : Prop where
  sp : m'.sp.toInt = m.sp.toInt + 1
  bp : m'.bp = m.bp
  pc : m'.pc = m.pc + Int32.ofNat length
  size : m'.stack.size = m.stack.size
  kept {j : Int} {v : Word} : j ≤ m.sp.toInt ∨ m.sp.toInt + depth < j → (m'.slot j = .ok v ↔ m.slot j = .ok v)
  top : m'.top = .ok w

theorem Pushes.extends {depth length : Nat} {w : Word} (h : m.Pushes m' depth length w) : Extends m' m where
  bp := h.bp
  sp_le := by
    have hsp := h.sp
    omega
  kept _ hj hw := (h.kept (.inl hj)).mpr hw

/-- Below the value lies the word that was on top before it. -/
theorem Pushes.slot_below {depth length : Nat} {a w : Word} (h : m.Pushes m' depth length w) (ha : m.top = .ok a) :
    m'.slot (m'.sp.toInt - 1) = .ok a := by
  have hsp : m'.sp.toInt - 1 = m.sp.toInt := by
    have hsp := h.sp
    omega
  rw [hsp, h.kept (.inl (Int.le_refl _))]
  exact ha

/-- Writing above the stack top pushes a word. -/
theorem pushes_push (hsize : m.stack.size ≤ Numeral.maxWord + 1) (htop : m.HasSlot (m.sp.toInt + 1)) (w : Word) :
    m.Pushes ⟨(m.set (m.sp.toInt + 1) w).stack, m.pc + 1, m.bp, m.sp + 1, m.pc⟩ 1 1 w := by
  have hsp : (m.sp + 1).toInt = m.sp.toInt + 1 := htop.toInt_add_one (Int.le_refl 1) hsize
  refine ⟨hsp, rfl, rfl, stack_size_set .., fun hj => ?_, ?_⟩
  · rw [slot_mk, slot_set_of_ne htop (by omega)]
  · show slot _ (m.sp + 1).toInt = _
    rw [slot_mk, hsp]
    exact slot_set_self htop

/-- An operation on the topmost word replaces the value that was pushed. -/
theorem Pushes.unary {depth length : Nat} {a : Word} (h : m.Pushes m₁ depth length a) (hdepth : 1 ≤ depth) (op : Unary)
    (level : Word) :
    ∃ m', m₁.execute ⟨.opr, level, (Operation.unary op).id⟩ = .ok () m' ∧
      m.Pushes m' depth (length + 1) (op.apply a) := by
  have hsp := h.sp
  have hstep : Step m₁ ⟨.opr, level, (Operation.unary op).id⟩ _ := .unary h.top
  refine ⟨_, hstep.execute, h.sp, h.bp, ?_, hstep.stack_size.trans h.size, fun hj => ?_, ?_⟩
  · show m₁.pc + 1 = _
    rw [h.pc, Int32.add_assoc, Int32.ofNat_add]
    rfl
  · rw [hstep.slot_eq_ok_iff, h.kept hj]
    rw [written_unary, List.mem_singleton]
    omega
  · show slot _ m₁.sp.toInt = _
    rw [slot_mk]
    exact slot_set_self (hasSlot_of_slot h.top)

/-- An operation on the two topmost words replaces the two values that were pushed. -/
theorem Pushes.binary {depth depth' length length' : Nat} {a b c : Word} {op : Binary} (h : m.Pushes m₁ depth length a)
    (h' : m₁.Pushes m₂ depth' length' b) (hdepth : 1 ≤ depth) (hc : op.apply a b = some c) (level : Word) :
    ∃ m', m₂.execute ⟨.opr, level, (Operation.binary op).id⟩ = .ok () m' ∧
      m.Pushes m' (max depth (1 + depth')) (length + (length' + 1)) c := by
  have hsp := h.sp
  have hsp' := h'.sp
  have ha := h'.slot_below h.top
  have hsub := Action.toInt_sp_sub_one ha
  have hstep : Step m₂ ⟨.opr, level, (Operation.binary op).id⟩ _ := .binary ha h'.top hc
  refine ⟨_, hstep.execute, ?_, h'.bp.trans h.bp, ?_, (hstep.stack_size.trans h'.size).trans h.size, fun hj => ?_, ?_⟩
  · show (m₂.sp - 1).toInt = _
    omega
  · show m₂.pc + 1 = _
    rw [h'.pc, h.pc, Int32.ofNat_add, Int32.ofNat_add, ← Int32.add_assoc, ← Int32.add_assoc]
    rfl
  · rw [hstep.slot_eq_ok_iff, h'.kept (by omega), h.kept (by omega)]
    rw [written_binary, List.mem_singleton]
    omega
  · show slot _ (m₂.sp - 1).toInt = _
    rw [slot_mk, hsub]
    exact slot_set_self (hasSlot_of_slot ha)

/-- An operation on the two topmost words that has no value there stops with the division by zero. -/
theorem Pushes.divide {depth depth' length length' : Nat} {a b : Word} {op : Binary} (h : m.Pushes m₁ depth length a)
    (h' : m₁.Pushes m₂ depth' length' b) (hc : op.apply a b = none) (level : Word) :
    ∃ m', m₂.execute ⟨.opr, level, (Operation.binary op).id⟩ =
      .error ⟨m.pc + Int32.ofNat (length + length'), .divisionByZero⟩ m' := by
  have ha := h'.slot_below h.top
  have hpc : m.pc + Int32.ofNat (length + length') = m₂.pc := by
    rw [h'.pc, h.pc, Int32.ofNat_add, Int32.add_assoc]
  refine ⟨m₂.begun, ?_⟩
  rw [execute_eq_effect, hpc]
  rw [Action.effect_operation]
  exact Action.binary_eq_error_iff.mpr ⟨rfl, .inr ⟨a, slot_begun.mpr ha, .inr ⟨b, top_begun.mpr h'.top, hc, rfl⟩⟩⟩

/-! ## The code of an expression -/

/-- Whether a machine has room for the operands of an expression and reaches its variables, whose words `env` gives. -/
structure ReadyFor (m : Machine) (env : Word → Word → Option Word) (e : Expr) : Prop where
  size : m.stack.size ≤ Numeral.maxWord + 1
  sp : -1 ≤ m.sp.toInt
  room : m.sp.toInt + e.depth < m.stack.size
  reaches {level address : Word} : .var level address ∈ e.nodes → m.Reaches level address
  lookup {level address : Word} : .var level address ∈ e.nodes →
    ∃ w, env level address = some w ∧ m.lookup level address = some w

variable {env : Word → Word → Option Word} {op : Binary} {e left right : Expr}

theorem ReadyFor.hasSlot (h : m.ReadyFor env e) : m.HasSlot (m.sp.toInt + 1) := by
  have hsp := h.sp
  have hroom := h.room
  have hdepth := e.one_le_depth
  exact ⟨by omega, by omega⟩

theorem ReadyFor.operand {op : Unary} (h : m.ReadyFor env (.unary op e)) : m.ReadyFor env e where
  size := h.size
  sp := h.sp
  room := h.room
  reaches hv := h.reaches (List.mem_append_left _ hv)
  lookup hv := h.lookup (List.mem_append_left _ hv)

theorem ReadyFor.leftOperand (h : m.ReadyFor env (.binary op left right)) : m.ReadyFor env left where
  size := h.size
  sp := h.sp
  room := by
    have hroom := h.room
    simp only [Expr.depth] at hroom
    omega
  reaches hv := h.reaches (List.mem_append_left _ (List.mem_append_left _ hv))
  lookup hv := h.lookup (List.mem_append_left _ (List.mem_append_left _ hv))

/-- A machine that is ready for an operation is ready for its right operand once the value of the left one is pushed. -/
theorem ReadyFor.rightOperand {depth length : Nat} {a : Word} (h : m.ReadyFor env (.binary op left right))
    (hp : m.Pushes m₁ depth length a) : m₁.ReadyFor env right where
  size := hp.size ▸ h.size
  sp := by
    have hsp := h.sp
    have hsp₁ := hp.sp
    omega
  room := by
    have hroom := h.room
    have hsp₁ := hp.sp
    have hsize := hp.size
    simp only [Expr.depth] at hroom
    omega
  reaches hv := (h.reaches (List.mem_append_left _ (List.mem_append_right _ hv))).extend hp.extends
  lookup hv := by
    have hmem := List.mem_append_left [Expr.binary op left right] (List.mem_append_right left.nodes hv)
    obtain ⟨w, henv, hw⟩ := h.lookup hmem
    exact ⟨w, henv, hp.extends.lookup (h.reaches hmem) hw⟩

/-- The code of an expression pushes its value, or stops at the first division by zero. -/
theorem ReadyFor.executeAll_code (h : m.ReadyFor env e) :
    (e.zeroDivision? env = none ∧ ∃ w m', e.value env = some w ∧ m.executeAll e.code = .ok () m' ∧
      m.Pushes m' e.depth e.code.length w) ∨
    ∃ n m', e.zeroDivision? env = some n ∧
      m.executeAll e.code = .error ⟨m.pc + Int32.ofNat n, .divisionByZero⟩ m' := by
  -- Each operand leaves a machine that is ready for what follows, so the induction is for every machine at once.
  induction e generalizing m with
  | const w =>
    have hstep : Step m (Expr.const w).instruction _ := .lit h.hasSlot
    exact .inl ⟨rfl, w, _, rfl, (executeAll_singleton m _).trans hstep.execute, pushes_push h.size h.hasSlot w⟩
  | var level address =>
    obtain ⟨w, henv, hw⟩ := h.lookup (List.mem_singleton_self _)
    obtain ⟨base, hbase, hslot⟩ := lookup_eq_some_iff.mp hw
    have hstep : Step m (Expr.var level address).instruction _ := .lod hbase hslot h.hasSlot
    exact .inl ⟨rfl, w, _, henv, (executeAll_singleton m _).trans hstep.execute, pushes_push h.size h.hasSlot w⟩
  | unary op operand ih =>
    rw [Expr.zeroDivision?_unary, Expr.code_unary]
    rcases ih h.operand with ⟨hzero, a, m₁, hvalue, hexec, hpush⟩ | ⟨n, m', hzero, hexec⟩
    · obtain ⟨m', hexec', hpush'⟩ := hpush.unary operand.one_le_depth op 0
      refine .inl ⟨hzero, op.apply a, m', ?_, ?_, ?_⟩
      · rw [Expr.value, hvalue, Option.map_some, Unary.apply_eq]
      · rw [executeAll_append_of_ok hexec, executeAll_singleton]
        exact hexec'
      · rw [List.length_append]
        exact hpush'
    · exact .inr ⟨n, m', hzero, executeAll_append_of_error hexec _⟩
  | binary op left right ihl ihr =>
    rw [Expr.zeroDivision?_binary, Expr.code_binary]
    -- A fault in the left operand comes first, then one in the right operand, and only then one in the operation.
    rcases ihl h.leftOperand with ⟨hzl, a, m₁, hva, hel, hpl⟩ | ⟨n, m', hzl, hel⟩
    · rw [hzl, executeAll_append_of_ok hel, Option.none_or]
      rcases ihr (h.rightOperand hpl) with ⟨hzr, b, m₂, hvb, her, hpr⟩ | ⟨n, m', hzr, her⟩
      · rw [hzr, executeAll_append_of_ok her, executeAll_singleton, Option.none_or]
        cases hc : op.apply a b with
        | some c =>
          obtain ⟨m', hexec, hpush⟩ := hpl.binary hpr left.one_le_depth hc 0
          have hne : ¬(Expr.binary op left right).dividesByZero env = true := by
            rw [Expr.dividesByZero_binary (a := a) hvb, hc]
            exact Option.some_ne_none c
          refine .inl ⟨?_, c, m', ?_, hexec, ?_⟩
          · rw [if_neg hne]
            rfl
          · rw [Expr.value, hva, Option.bind_some, hvb, Option.bind_some, ← Binary.apply_eq, hc]
          · rw [List.length_append, List.length_append]
            exact hpush
        | none =>
          obtain ⟨m', hexec⟩ := hpl.divide hpr hc 0
          refine .inr ⟨right.code.length + left.code.length, m', ?_, ?_⟩
          · rw [if_pos ((Expr.dividesByZero_binary hvb).mpr hc)]
            rfl
          · rw [Nat.add_comm]
            exact hexec
      · refine .inr ⟨n + left.code.length, m', ?_, ?_⟩
        · rw [hzr]
          rfl
        · rw [executeAll_append_of_error her, hpl.pc, Int32.add_assoc, ← Int32.ofNat_add, Nat.add_comm]
    · refine .inr ⟨n, m', ?_, executeAll_append_of_error hel _⟩
      rw [hzl]
      rfl

/-- On a machine with room for the operands of an expression, whose variables and the links to them all lie in used slots, the
code of the expression does one of two things. If no divisor has the value zero, it pushes the value of the expression: the
stack top moves up by one and the program counter on by the length of the code, the base stays, and so does every slot up to
the old stack top or above those that the operands need. Otherwise it stops with a division by zero, at the first division in
postorder whose divisor has the value zero. -/
theorem executeAll_postfix {m : Machine} {e : Expr} (hsize : m.stack.size ≤ Numeral.maxWord + 1) (hsp : -1 ≤ m.sp.toInt)
    (hroom : m.sp.toInt + e.depth < m.stack.size)
    (hvars : ∀ level address, .var level address ∈ e.nodes → m.Reaches level address) :
    (e.zeroDivision? m.lookup = none ∧ ∃ w m', e.value m.lookup = some w ∧ m.executeAll e.code = .ok () m' ∧
      m.Pushes m' e.depth e.code.length w) ∨
    ∃ n m', e.zeroDivision? m.lookup = some n ∧
      m.executeAll e.code = .error ⟨m.pc + Int32.ofNat n, .divisionByZero⟩ m' := by
  have hready : m.ReadyFor m.lookup e := by
    refine ⟨hsize, hsp, hroom, fun hv => hvars _ _ hv, fun hv => ?_⟩
    have hdepth := e.one_le_depth
    obtain ⟨w, hw⟩ := (hvars _ _ hv).exists_lookup (by omega)
    exact ⟨w, hw, hw⟩
  exact hready.executeAll_code

/-- A variable of the enclosing frame less the quotient of the lowest word by minus one, which wraps around to the lowest word;
and the same plus a quotient by a variable that is zero. The program counter wraps around on the way. -/
theorem executeAll_postfix_two_frames :
    let m : Machine := { stack := #[0, 0, 0, 7, 0, 0, 0, 0, 9, 9, 9, 9], pc := 2147483646, bp := 4, sp := 7 }
    let e : Expr := .binary .subtract (.var 1 3) (.binary .divide (.const (-2147483648)) (.const (-1)))
    let d : Expr := .binary .add e (.binary .divide (.const 1) (.var 0 3))
    m.Reaches 1 3 ∧ m.Reaches 0 3 ∧
      (∃ m', m.executeAll e.code = .ok () m' ∧ m.Pushes m' 3 5 (-2147483641)) ∧
      ∃ m', m.executeAll d.code = .error ⟨-2147483643, .divisionByZero⟩ m' := by
  intro m e d
  have houter : m.Reaches 1 3 := by
    refine ⟨fun n hn => ⟨4, ?_, by decide, by decide⟩, 0, rfl, by decide, by decide⟩
    obtain rfl : n = 0 := Nat.lt_one_iff.mp hn
    rfl
  have hinner : m.Reaches 0 3 := ⟨fun n hn => absurd hn (Nat.not_lt_zero n), 4, rfl, by decide, by decide⟩
  have hmem : ∀ level address, .var level address ∈ d.nodes ↔ level = 1 ∧ address = 3 ∨ level = 0 ∧ address = 3 := by
    simp [d, e, Expr.nodes]
  have hmem' : ∀ level address, .var level address ∈ e.nodes ↔ level = 1 ∧ address = 3 := by
    simp [e, Expr.nodes]
  have hvars : ∀ level address, .var level address ∈ d.nodes → m.Reaches level address := by
    intro level address hv
    rcases (hmem level address).mp hv with ⟨rfl, rfl⟩ | ⟨rfl, rfl⟩
    · exact houter
    · exact hinner
  have hvars' : ∀ level address, .var level address ∈ e.nodes → m.Reaches level address := by
    intro level address hv
    obtain ⟨rfl, rfl⟩ := (hmem' level address).mp hv
    exact houter
  refine ⟨houter, hinner, ?_, ?_⟩
  · rcases executeAll_postfix (by decide) (by decide) (by decide) hvars' with
      ⟨-, w, m', hvalue, hexec, hpush⟩ | ⟨n, m', hzero, -⟩
    · have hw : e.value m.lookup = some (-2147483641) := by decide
      cases hvalue.symm.trans hw
      exact ⟨m', hexec, hpush⟩
    · have hnone : e.zeroDivision? m.lookup = none := by decide
      cases hzero.symm.trans hnone
  · have hseven : d.zeroDivision? m.lookup = some 7 := by decide
    rcases executeAll_postfix (by decide) (by decide) (by decide) hvars with ⟨hzero, -⟩ | ⟨n, m', hzero, hexec⟩
    · cases hzero.symm.trans hseven
    · cases hzero.symm.trans hseven
      have hsite : m.pc + Int32.ofNat 7 = -2147483643 := by decide
      rw [hsite] at hexec
      exact ⟨m', hexec⟩

end Machine

end PMachine
