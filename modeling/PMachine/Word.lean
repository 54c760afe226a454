/-!
# Machine words

Registers, stack slots, levels and addresses are 32-bit two's complement words. Arithmetic on them wraps around, division
rounds toward zero and its remainder takes the sign of the dividend. Slot numbers are computed in the integers instead, so a
sum of two words never wraps on its way to the stack.
-/

namespace PMachine

/-- A 32-bit two's complement word. -/
abbrev Word := Int32

namespace Word

/-- The word of a truth value: 1 for true, 0 for false. -/
def flag (b : Bool) : Word := if b then 1 else 0

/-! ## Neighbours -/

/-- The word after the highest one is the lowest one. -/
theorem toInt_add_one (w : Word) :
    (w.toInt < 2147483647 ∧ (w + 1).toInt = w.toInt + 1) ∨ (w.toInt = 2147483647 ∧ (w + 1).toInt = -2147483648) := by
  have hlo := w.le_toInt
  have hhi := w.toInt_lt
  have h1 : (1 : Word).toInt = 1 := rfl
  rw [Int32.toInt_add, h1, Int.bmod_def]
  omega

theorem toInt_add_one_of_lt {w : Word} (h : w.toInt < 2147483647) : (w + 1).toInt = w.toInt + 1 := by
  rcases toInt_add_one w with ⟨-, hw⟩ | ⟨hw, -⟩
  · exact hw
  · omega

/-- The word before the lowest one is the highest one. -/
theorem toInt_sub_one (w : Word) :
    (-2147483648 < w.toInt ∧ (w - 1).toInt = w.toInt - 1) ∨ (w.toInt = -2147483648 ∧ (w - 1).toInt = 2147483647) := by
  have hlo := w.le_toInt
  have hhi := w.toInt_lt
  have h1 : (1 : Word).toInt = 1 := rfl
  rw [Int32.toInt_sub, h1, Int.bmod_def]
  omega

theorem toInt_sub_one_of_nonneg {w : Word} (h : 0 ≤ w.toInt) : (w - 1).toInt = w.toInt - 1 := by
  rcases toInt_sub_one w with ⟨-, hw⟩ | ⟨hw, -⟩
  · exact hw
  · omega

end Word

end PMachine
