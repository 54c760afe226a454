import PMachine.Proofs.Text.Layout

/-!
# Texts put together

The significant lines of a text are found part by part: put together at a line feed, two texts have the lines of the first and
then those of the second, which come after all lines of the first, significant or not. With what a text of a single line says
this determines the significant lines of every text. Their numbers go up, and each says something.
-/

namespace PMachine

namespace Text

/-- Lines that are counted from `k` lines further on are moved by `k`. -/
theorem significantFrom_add (number k : Nat) (raws : List (List Char)) :
    significantFrom (number + k) raws = (significantFrom number raws).map (Line.renumber (· + k)) := by
  induction raws generalizing number with
  | nil => rfl
  | cons raw raws ih =>
    have hnext : number + k + 1 = number + 1 + k := by omega
    rw [significantFrom_cons, significantFrom_cons, hnext, ih, List.map_append, ofRaw?_renumber (· + k)]
    cases Line.ofRaw? number raw <;> rfl

/-- A text of a single line says what that line says. -/
theorem significantLines_of_newline_not_mem {raw : List Char} (h : '\n' ∉ raw) :
    significantLines raw = if IsPassedOver raw then [] else [⟨1, strip raw⟩] := by
  rw [significantLines_eq, List.splitOn_eq_singleton h, significantFrom_cons, ofRaw?_eq]
  split <;> rfl

/-- A text that goes on after a line feed goes on with lines that are counted on. -/
theorem significantLines_append (first second : List Char) :
    significantLines (first ++ '\n' :: second) =
      significantLines first ++ (significantLines second).map (Line.renumber (· + (first.count '\n' + 1))) := by
  rw [significantLines_eq, List.splitOn_append_cons_self, significantFrom_append, length_splitOn, significantFrom_add]
  rfl

/-- The numbers of the significant lines go up: they are some of the numbers of all lines, in their order. -/
theorem pairwise_contents (text : List Char) : (contents text).Pairwise fun line next => line.number < next.number := by
  unfold contents
  rw [List.pairwise_map]
  refine List.Pairwise.filter _ ?_
  rw [← List.pairwise_map (f := Prod.snd) (R := (· < ·)), List.zipIdx_map_snd]
  exact List.pairwise_lt_range'

/-- What says something is not empty and no comment. -/
theorem isIdle_eq_false_iff {text : List Char} : isIdle text = false ↔ text ≠ [] ∧ text.head? ≠ some '#' := by
  cases text <;> simp [isIdle]

/-- A significant line has one of the numbers from 1 on, and says something without blanks. -/
theorem of_mem_significantLines {text : List Char} {line : Line} (h : line ∈ significantLines text) :
    1 ≤ line.number ∧ line.text ≠ [] ∧ (∀ c ∈ line.text, isBlank c = false) ∧ line.text.head? ≠ some '#' := by
  unfold significantLines at h
  obtain ⟨raw, hraw, hline⟩ := List.mem_filterMap.mp h
  obtain ⟨hnumber, hidle, hblank⟩ := Line.ofRaw?_text hline
  obtain ⟨hne, hhash⟩ := isIdle_eq_false_iff.mp hidle
  rw [hnumber]
  exact ⟨List.le_snd_of_mem_zipIdx hraw, hne, hblank, hhash⟩

/-- What the significant lines of a text are, part by part.
1. A text of a single line has that line without its blanks, with the number 1, or none if the line is passed over.
2. Two texts put together at a line feed have the lines of the first, and then those of the second with their numbers moved by the
   number of lines in the first, which is one more than its line feeds.
3. In every text the numbers go up from at least 1, and each line is not empty, holds no blank and does not start with `#`. -/
theorem significantLines_part_by_part :
    (∀ raw : List Char, '\n' ∉ raw → significantLines raw = if IsPassedOver raw then [] else [⟨1, strip raw⟩]) ∧
    (∀ first second : List Char, significantLines (first ++ '\n' :: second) =
      significantLines first ++ (significantLines second).map (Line.renumber (· + (first.count '\n' + 1)))) ∧
    ∀ text : List Char, (significantLines text).Pairwise (fun line next => line.number < next.number) ∧
      ∀ line ∈ significantLines text, 1 ≤ line.number ∧ line.text ≠ [] ∧ (∀ c ∈ line.text, isBlank c = false) ∧
        line.text.head? ≠ some '#' := by
  refine ⟨fun raw h => significantLines_of_newline_not_mem h, significantLines_append, fun text => ⟨?_, ?_⟩⟩
  · rw [significantLines_eq_contents]
    exact pairwise_contents text
  · intro line hline
    exact of_mem_significantLines hline

/-- A first text that ends in a carriage return, and a second one that starts with an empty line and ends in a line feed. -/
theorem significantLines_part_by_part_joined :
    let first := "# two\r\n 2\r".toList
    let second := "\nJMP ; 0;0\n".toList
    let count : Line := ⟨2, "2".toList⟩
    let jump : Line := ⟨4, "JMP;0;0".toList⟩
    '\n' ∉ "# two\r".toList ∧ significantLines "# two\r".toList = [] ∧
    significantLines first = [count] ∧ significantLines second = [⟨2, jump.text⟩] ∧
    significantLines (first ++ '\n' :: second) = [count, jump] ∧
    count.number < jump.number ∧ 1 ≤ jump.number ∧ jump.text ≠ [] ∧ jump.text.head? ≠ some '#' := by
  intro first second count jump
  obtain ⟨hsingle, hjoined, hevery⟩ := significantLines_part_by_part
  have hfirst : significantLines first = [count] := by decide +kernel
  have hsecond : significantLines second = [⟨2, jump.text⟩] := by decide +kernel
  have hlines : significantLines (first ++ '\n' :: second) = [count, jump] := by
    rw [hjoined, hfirst, hsecond]
    decide +kernel
  obtain ⟨hup, hall⟩ := hevery (first ++ '\n' :: second)
  rw [hlines] at hup hall
  obtain ⟨hnumber, hne, -, hhash⟩ := hall jump (List.mem_cons_of_mem _ List.mem_cons_self)
  exact ⟨by decide, hsingle _ (by decide), hfirst, hsecond, hlines, List.rel_of_pairwise_cons hup List.mem_cons_self, hnumber,
    hne, hhash⟩

end Text

end PMachine
