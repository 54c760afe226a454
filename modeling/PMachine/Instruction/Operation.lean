import PMachine.Numeral

/-!
# Operations

The thirteen operations of an `opr` instruction: the return from a procedure, two operations on the topmost word and ten on
the two topmost words, of which the deeper one is the left operand. Each has a number, by which an address selects it, and a
short name.
-/

namespace PMachine

/-- An operation on the topmost word. -/
inductive Unary where
  | negate
  | odd
  deriving DecidableEq, Repr

/-- An operation on the two topmost words. -/
inductive Binary where
  | add
  | subtract
  | multiply
  | divide
  | equal
  | notEqual
  | less
  | lessOrEqual
  | greater
  | greaterOrEqual
  deriving DecidableEq, Repr

/-- What an `opr` instruction performs. -/
inductive Operation where
  /-- Leaves the current frame and resumes its caller. -/
  | leave
  | unary (op : Unary)
  | binary (op : Binary)
  deriving DecidableEq, Repr

/-- The value of a unary operation. The remainder of a negative word by two is never 1, so no negative word is odd. -/
def Unary.apply : Unary → Word → Word
  | .negate, a => -a
  | .odd, a => Word.flag (a % 2 = 1)

/-- The value of a binary operation, or none when the divisor is zero. `greater` is the complement of `less`, so it holds of
equal operands too. -/
def Binary.apply : Binary → Word → Word → Option Word
  | .add, a, b => some (a + b)
  | .subtract, a, b => some (a - b)
  | .multiply, a, b => some (a * b)
  | .divide, a, b => if b = 0 then none else some (a / b)
  | .equal, a, b => some (Word.flag (a = b))
  | .notEqual, a, b => some (1 - Word.flag (a = b))
  | .less, a, b => some (Word.flag (a < b))
  | .lessOrEqual, a, b => some (Word.flag (a ≤ b))
  | .greater, a, b => some (1 - Word.flag (a < b))
  | .greaterOrEqual, a, b => some (Word.flag (b ≤ a))

/-- A number that selects no operation. -/
structure UnknownOperation where
  id : Word
  deriving DecidableEq, Repr

/-- The wording of the refusal. -/
def UnknownOperation.message (e : UnknownOperation) : String := s!"unknown OPR sub-operation {Numeral.ofWord e.id}"

namespace Operation

/-- Every operation, in the order of the numbers 0 to 12. -/
def all : List Operation :=
  [.leave, .unary .negate, .binary .add, .binary .subtract, .binary .multiply, .binary .divide, .unary .odd,
    .binary .equal, .binary .notEqual, .binary .less, .binary .lessOrEqual, .binary .greater, .binary .greaterOrEqual]

/-- The number that selects an operation. -/
def id : Operation → Word
  | .leave => 0
  | .unary .negate => 1
  | .binary .add => 2
  | .binary .subtract => 3
  | .binary .multiply => 4
  | .binary .divide => 5
  | .unary .odd => 6
  | .binary .equal => 7
  | .binary .notEqual => 8
  | .binary .less => 9
  | .binary .lessOrEqual => 10
  | .binary .greater => 11
  | .binary .greaterOrEqual => 12

/-- The short name of an operation. -/
def name : Operation → String
  | .leave => "ret"
  | .unary .negate => "neg"
  | .binary .add => "add"
  | .binary .subtract => "sub"
  | .binary .multiply => "mul"
  | .binary .divide => "div"
  | .unary .odd => "odd"
  | .binary .equal => "eq"
  | .binary .notEqual => "neq"
  | .binary .less => "lt"
  | .binary .lessOrEqual => "lte"
  | .binary .greater => "gt"
  | .binary .greaterOrEqual => "gte"

/-- The operation with a number. -/
def ofId? (id : Word) : Option Operation := all.find? fun op => op.id = id

/-- The operation with a number, or the refusal. -/
def ofId (id : Word) : Except UnknownOperation Operation :=
  match ofId? id with
  | some op => .ok op
  | none => .error ⟨id⟩

/-- The number of an operation selects it. -/
@[simp]
theorem ofId?_id (op : Operation) : ofId? op.id = some op := by
  rcases op with _ | op | op
  · decide
  · cases op <;> decide
  · cases op <;> decide

/-- An operation has a number from 0 to 12. -/
theorem toInt_id (op : Operation) : 0 ≤ op.id.toInt ∧ op.id.toInt ≤ 12 := by
  rcases op with _ | op | op
  · decide
  · cases op <;> decide
  · cases op <;> decide

/-- A number selects the operation that has it, and no other. -/
theorem ofId?_eq_some_iff {id : Word} {op : Operation} : ofId? id = some op ↔ op.id = id := by
  constructor
  · intro h
    exact of_decide_eq_true (List.find?_some (p := fun op : Operation => decide (op.id = id)) h)
  · rintro rfl
    exact ofId?_id op

/-- The numbers that select no operation are those outside 0 to 12. -/
theorem ofId?_eq_none_iff {id : Word} : ofId? id = none ↔ id.toInt < 0 ∨ 12 < id.toInt := by
  constructor
  · intro h
    have hall : ∀ n < 13, ofId? (Int32.ofNat n) ≠ none := by decide
    refine Decidable.byContradiction fun hin => ?_
    have hid : Int32.ofNat id.toInt.toNat = id := by
      rw [← Int32.ofInt_eq_ofNat, Int.toNat_of_nonneg (by omega), Int32.ofInt_toInt]
    exact hall id.toInt.toNat (by omega) (by rw [hid]; exact h)
  · intro h
    cases ho : ofId? id with
    | none => rfl
    | some op =>
      have hop := op.toInt_id
      rw [ofId?_eq_some_iff.mp ho] at hop
      omega

end Operation

end PMachine
