import PMachine.Proofs.Text.Format

/-!
# Lines, one by one

The significant lines of a text are found line by line, and a program is read from them line by line. So a change that can be
followed through one line can be followed through a whole text.
-/

namespace PMachine

namespace Text

/-! ## Significant lines -/

/-- The significant ones among raw lines that are counted from `number` on. -/
def significantFrom (number : Nat) (raws : List (List Char)) : List Line :=
  (raws.zipIdx number).filterMap fun raw => Line.ofRaw? raw.2 raw.1

theorem significantLines_eq (text : List Char) : significantLines text = significantFrom 1 (text.splitOn '\n') := rfl

theorem significantFrom_cons (number : Nat) (raw : List Char) (raws : List (List Char)) :
    significantFrom number (raw :: raws) = (Line.ofRaw? number raw).toList ++ significantFrom (number + 1) raws := by
  simp only [significantFrom, List.zipIdx_cons, List.filterMap_cons]
  cases Line.ofRaw? number raw <;> rfl

theorem significantFrom_append (number : Nat) (raws raws' : List (List Char)) :
    significantFrom number (raws ++ raws') =
      significantFrom number raws ++ significantFrom (number + raws.length) raws' := by
  rw [significantFrom, List.zipIdx_append, List.filterMap_append]
  rfl

/-- No line holds a line feed. -/
theorem newline_not_mem_of_mem_splitOn {text raw : List Char} (h : raw ∈ text.splitOn '\n') : '\n' ∉ raw := by
  induction text generalizing raw with
  | nil =>
    rw [List.splitOn_nil, List.mem_singleton] at h
    subst h
    exact List.not_mem_nil
  | cons c text ih =>
    rw [List.splitOn_cons_eq_if_modifyHead] at h
    split at h
    · rcases List.mem_cons.mp h with rfl | h
      · exact List.not_mem_nil
      · exact ih h
    · rename_i hc
      cases hs : text.splitOn '\n' with
      | nil => exact absurd hs (List.splitOn_ne_nil '\n' text)
      | cons first rest =>
        rw [hs, List.modifyHead_cons] at h
        rcases List.mem_cons.mp h with rfl | h
        · intro hmem
          rcases List.mem_cons.mp hmem with rfl | hmem
          · exact hc (by decide)
          · exact ih (hs ▸ List.mem_cons_self) hmem
        · exact ih (hs ▸ List.mem_cons_of_mem first h)

/-! ## Changes line by line -/

/-- If a change of the elements changes what each is refused for, and nothing else, the same is true of the list. -/
theorem mapM_map {α β ε : Type} {read : α → Except ε β} {f : α → α} {g : ε → ε}
    (h : ∀ x, read (f x) = (read x).mapError g) (xs : List α) : (xs.map f).mapM read = (xs.mapM read).mapError g := by
  induction xs with
  | nil => rfl
  | cons x xs ih =>
    rw [List.map_cons, List.mapM_cons, List.mapM_cons, h, ih]
    cases read x with
    | error e => rfl
    | ok y => cases xs.mapM read <;> rfl

/-- If a change of the lines changes what each line is refused for, and nothing else, the same is true of the program. -/
theorem readLines_map {s : Separator} {f : Line → Line} {g : LoadError → LoadError}
    (hmissing : g .missingCount = .missingCount)
    (hmismatch : ∀ declared found, g (.countMismatch declared found) = .countMismatch declared found)
    (hcount : ∀ line, (f line).count = line.count.mapError g)
    (hinstruction : ∀ line, (f line).instruction s = (line.instruction s).mapError g) (lines : List Line) :
    readLines s (lines.map f) = (readLines s lines).mapError g := by
  cases lines with
  | nil => exact congrArg Except.error hmissing.symm
  | cons first body =>
    have hfirst := hcount first
    cases hc : first.count with
    | error e =>
      rw [hc] at hfirst
      rw [List.map_cons, readLines_of_count_eq_error hfirst, readLines_of_count_eq_error hc]
      rfl
    | ok declared =>
      rw [hc] at hfirst
      by_cases hd : declared = body.length
      · subst hd
        rw [List.map_cons, readLines_of_count_eq hc, readLines_of_count_eq (by rw [List.length_map]; exact hfirst),
          mapM_map hinstruction]
        cases body.mapM (Line.instruction s) <;> rfl
      · rw [List.map_cons, readLines_of_count_ne hc hd, readLines_of_count_ne hfirst (by rw [List.length_map]; exact hd),
          List.length_map]
        exact congrArg Except.error (hmismatch declared body.length).symm

end Text

end PMachine
