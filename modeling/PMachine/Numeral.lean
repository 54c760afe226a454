import PMachine.Word

/-!
# Decimal numerals

A numeral is a run of ASCII digits, with a sign in front where one is allowed. Leading zeros are fine, and nothing may stand
between or after the digits. Reading gives the number or the flaw that is met first on the way from left to right: a number
that has already grown past the limit is too large, whatever follows it.
-/

namespace PMachine

namespace Numeral

/-- The largest number of 64 bits. -/
def maxNat64 : Nat := 18446744073709551615

/-- The largest number that a word can hold. -/
def maxWord : Nat := 2147483647

/-- Why a text is not a numeral. -/
inductive Flaw where
  | empty
  | invalidDigit
  | tooLarge
  deriving DecidableEq, Repr

/-- The wording of a flaw. -/
def Flaw.message : Flaw → String
  | .empty => "cannot parse integer from empty string"
  | .invalidDigit => "invalid digit found in string"
  | .tooLarge => "number too large to fit in target type"

/-- Reads digits only, at least one, of a number at most `limit`. The digits in front of the first other character decide
whether the number is too large before that character is looked at. -/
def readDigits (limit : Nat) (cs : List Char) : Except Flaw Nat :=
  let digits := cs.takeWhile Char.isDigit
  let value := Nat.ofDigitChars 10 digits 0
  if limit < value then .error .tooLarge
  else if digits = [] ∨ digits.length < cs.length then .error .invalidDigit
  else .ok value

/-- Reads a natural number at most `limit`: an optional plus sign, then digits. A minus sign is refused, even before zero. -/
def readNat (limit : Nat) : List Char → Except Flaw Nat
  | [] => .error .empty
  | '+' :: cs => readDigits limit cs
  | cs => readDigits limit cs

/-- Reads a word: an optional sign, then digits, of a number that a word can hold. The lowest word is one further from zero
than the highest. -/
def readWord? : List Char → Option Word
  | '-' :: cs => (readDigits (maxWord + 1) cs).toOption.map fun n : Nat => Int32.ofInt (-n)
  | '+' :: cs => (readDigits maxWord cs).toOption.map Int32.ofNat
  | cs => (readDigits maxWord cs).toOption.map Int32.ofNat

/-- Writes a word in decimal, with a minus sign in front of a negative one. -/
def ofWord (w : Word) : String := w.toInt.repr

/-! ## Written numerals are read back -/

/-- The digits that write a number at most `limit` are read back. -/
theorem readDigits_toDigits {limit n : Nat} (h : n ≤ limit) : readDigits limit (Nat.toDigits 10 n) = .ok n := by
  have hall : (Nat.toDigits 10 n).takeWhile Char.isDigit = Nat.toDigits 10 n := by
    have hd : ∀ c ∈ Nat.toDigits 10 n, c.isDigit = true :=
      fun c hc => Nat.isDigit_of_mem_toDigits (by decide) (by decide) hc
    rw [← List.append_nil (Nat.toDigits 10 n), List.takeWhile_append_of_pos (by simpa using hd)]
    simp
  have hval : Nat.ofDigitChars 10 (Nat.toDigits 10 n) 0 = n := Nat.ofDigitChars_toDigits (by decide) (by decide)
  simp only [readDigits, hall, hval, Nat.toDigits_ne_nil, Nat.lt_irrefl, or_self, if_false]
  rw [if_neg (by omega)]

/-- The digits that write a number start with a digit, not with a sign. -/
theorem toDigits_eq_cons (n : Nat) : ∃ c cs, Nat.toDigits 10 n = c :: cs ∧ c ≠ '+' ∧ c ≠ '-' := by
  have hd : ∀ c ∈ Nat.toDigits 10 n, c.isDigit = true :=
    fun c hc => Nat.isDigit_of_mem_toDigits (by decide) (by decide) hc
  obtain ⟨c, cs, h⟩ := List.exists_cons_of_ne_nil (Nat.toDigits_ne_nil (n := n) (b := 10))
  have hc := hd c (by rw [h]; exact List.mem_cons_self)
  refine ⟨c, cs, h, ?_, ?_⟩ <;> rintro rfl <;> exact absurd hc (by decide)

/-- The written form of a number at most `limit` is read back. -/
theorem readNat_repr {limit n : Nat} (h : n ≤ limit) : readNat limit n.repr.toList = .ok n := by
  have hr := readDigits_toDigits h
  obtain ⟨c, cs, hcs, hc, -⟩ := toDigits_eq_cons n
  rw [Nat.toList_repr]
  rw [hcs] at hr ⊢
  simpa [readNat, hc] using hr

/-- The written form of a word is read back. -/
theorem readWord?_ofWord (w : Word) : readWord? (ofWord w).toList = some w := by
  have hlo := w.le_toInt
  have hhi := w.toInt_lt
  have hw := w.ofInt_toInt
  rw [ofWord]
  generalize w.toInt = i at hlo hhi hw
  cases i with
  | ofNat n =>
    have hr : readDigits maxWord (Nat.toDigits 10 n) = .ok n :=
      readDigits_toDigits (by simp [maxWord] at hhi ⊢; omega)
    obtain ⟨c, cs, hcs, hp, hm⟩ := toDigits_eq_cons n
    have hread : readWord? (c :: cs) = (readDigits maxWord (c :: cs)).toOption.map Int32.ofNat := by
      simp [readWord?, hp, hm]
    rw [hcs] at hr
    rw [Int.repr, Nat.toList_repr, hcs, hread, hr]
    exact congrArg some hw
  | negSucc n =>
    have hr : readDigits (maxWord + 1) (Nat.toDigits 10 n.succ) = .ok n.succ :=
      readDigits_toDigits (by simp [maxWord] at hlo ⊢; omega)
    have hcs : "-".toList ++ Nat.toDigits 10 n.succ = '-' :: Nat.toDigits 10 n.succ := rfl
    rw [Int.repr, String.toList_append, Nat.toList_repr, hcs]
    simp only [readWord?, hr, Except.toOption, Option.map_some]
    rw [← hw, Int.negSucc_eq]
    rfl

end Numeral

end PMachine
