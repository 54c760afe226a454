import PMachine.Command.Report
import PMachine.Proofs.Engine.Replay
import PMachine.Proofs.Text.Field

/-!
# The line of a runtime error

A run that does not come to a result says so in a line of its own, behind the log. `runtimeErrors` counts such lines. The wording
of an error stands on one line, so there is exactly one, unless a line of the log passes for another. None does in a log that is
kept as usual, of warnings.
-/

namespace PMachine

/-! ## Messages on one line -/


theorem newline_not_mem_append {a b : String} (ha : '\n' ∉ a.toList) (hb : '\n' ∉ b.toList) : '\n' ∉ (a ++ b).toList := by
  rw [String.toList_append, List.mem_append, not_or]
  exact ⟨ha, hb⟩

/-- A written integer stands on one line. -/
theorem newline_not_mem_intRepr (i : Int) : '\n' ∉ i.repr.toList := by
  intro h
  exact absurd (Text.isFieldChar_of_mem_intRepr i '\n' h) (by decide)

theorem newline_not_mem_repr (n : Nat) : '\n' ∉ n.repr.toList := newline_not_mem_intRepr n

/-- The wording of a cause stands on one line. -/
theorem Cause.newline_not_mem_message (c : Cause) : '\n' ∉ c.message.toList := by
  cases c with
  | stackOverflow slot =>
    exact newline_not_mem_append (newline_not_mem_append (by decide) (newline_not_mem_intRepr slot)) (by decide)
  | stackUnderflow slot =>
    exact newline_not_mem_append (newline_not_mem_append (by decide) (newline_not_mem_intRepr slot)) (by decide)
  | divisionByZero => decide
  | unknownOperation id => exact newline_not_mem_append (by decide) (newline_not_mem_intRepr id.toInt)

/-- The wording of an error stands on one line. -/
theorem Error.newline_not_mem_message (e : Error) : '\n' ∉ e.message.toList := by
  cases e with
  | addressSpaceExceeded length limit =>
    exact newline_not_mem_append (newline_not_mem_append (newline_not_mem_append (by decide) (newline_not_mem_repr length))
      (by decide)) (newline_not_mem_repr limit)
  | alreadyBound => decide
  | emptyProgram => decide
  | fault f =>
    exact newline_not_mem_append (newline_not_mem_append f.cause.newline_not_mem_message (by decide))
      (newline_not_mem_intRepr f.site.toInt)
  | pcOutOfRange pc =>
    exact newline_not_mem_append (newline_not_mem_append (by decide) (newline_not_mem_intRepr pc.toInt)) (by decide)
  | stepLimitExceeded limit =>
    exact newline_not_mem_append (newline_not_mem_append (by decide) (newline_not_mem_repr limit)) (by decide)

/-! ## Counting the lines -/

/-- The mark that a runtime error starts with. -/
def runtimeErrorMark : String := "runtime error: "

/-- How many lines of a text tell a runtime error. -/
def runtimeErrors (text : String) : Nat :=
  (text.toList.splitOn '\n').countP fun l => runtimeErrorMark.toList.isPrefixOf l

/-- The lines before the end of a line and those behind it are counted apart. -/
theorem runtimeErrors_append_line (a b : String) : runtimeErrors (a ++ "\n" ++ b) = runtimeErrors a + runtimeErrors b := by
  have htext : (a ++ "\n" ++ b).toList = a.toList ++ '\n' :: b.toList := by simp
  rw [runtimeErrors, htext, List.splitOn_append_cons_self, List.countP_append]
  rfl

theorem runtimeErrors_of_newline_not_mem {text : String} (h : '\n' ∉ text.toList) :
    runtimeErrors text = if runtimeErrorMark.toList.isPrefixOf text.toList then 1 else 0 := by
  rw [runtimeErrors, List.splitOn_eq_singleton h, List.countP_singleton]

/-- A single line tells none if it does not start as the mark does. -/
theorem runtimeErrors_eq_zero {text : String} (h : '\n' ∉ text.toList) (hhead : text.toList.head? ≠ some 'r') :
    runtimeErrors text = 0 := by
  rw [runtimeErrors_of_newline_not_mem h, if_neg]
  intro hmark
  obtain ⟨rest, hrest⟩ := List.isPrefixOf_iff_prefix.mp hmark
  rw [← hrest] at hhead
  exact hhead rfl

/-- Lines none of which tells one do not change the count. -/
theorem runtimeErrors_join_append {ls : List String} (h : ∀ l ∈ ls, runtimeErrors l = 0) (rest : String) :
    runtimeErrors (String.join (ls.map (· ++ "\n")) ++ rest) = runtimeErrors rest := by
  induction ls with
  | nil => rw [List.map_nil, String.join_nil, String.empty_append]
  | cons l ls ih =>
    rw [List.map_cons, String.join_cons, String.append_assoc, runtimeErrors_append_line, h l List.mem_cons_self, Nat.zero_add,
      ih fun l' hl' => h l' (List.mem_cons_of_mem l hl')]

/-! ## The log in front of it -/

/-- The warning that the steps are used up stands on one line, which starts with a space. -/
theorem Event.render_exhausted (limit : Nat) (pc : Word) :
    '\n' ∉ (Event.exhausted limit pc).render.toList ∧ (Event.exhausted limit pc).render.toList.head? = some ' ' := by
  have hrender : (Event.exhausted limit pc).render =
      " WARN step limit exceeded limit=" ++ Int.repr limit ++ " pc=" ++ Int.repr pc.toInt := by
    rw [← String.toList_inj]
    simp [Event.render, Event.level, Event.message, Event.fields, Level.name, Field.render]
    rfl
  rw [hrender]
  refine ⟨?_, ?_⟩
  · exact newline_not_mem_append (newline_not_mem_append (newline_not_mem_append (by decide) (newline_not_mem_intRepr _))
      (by decide)) (newline_not_mem_intRepr _)
  · simp only [String.toList_append]
    rfl

/-- A log that was empty holds events that its filter keeps. -/
theorem Log.keeps_of_mem_tell {filter : Filter} {es : List Event} {e : Event}
    (h : e ∈ (({ filter } : Log).tell es).events.toList) : filter.keeps e = true := by
  rw [tell_events, List.nil_append] at h
  exact (List.mem_filter.mp h).2

/-- A filter that keeps no event. -/
def Filter.IsSilent (filter : Filter) : Prop := ∀ event, filter.keeps event = false

theorem Filter.isSilent_off : Filter.off.IsSilent := fun _ => rfl

namespace Environment

variable {env : Environment}

/-- The lines that the log holds when events have been told. -/
def logText (env : Environment) (es : List Event) : String := (({ filter := env.filter } : Log).tell es).render env.line

/-- No line of the log passes for a runtime error. -/
def IsUnmistakable (env : Environment) : Prop := ∀ n e, env.filter.keeps e = true → runtimeErrors (env.line n e) = 0

/-- Under a filter that keeps no event nothing is told. -/
theorem logText_of_isSilent (h : env.filter.IsSilent) (es : List Event) : env.logText es = "" := by
  have hevents : (({ filter := env.filter } : Log).tell es).events.toList = [] := by
    rw [List.eq_nil_iff_forall_not_mem]
    intro event hevent
    exact Bool.false_ne_true ((h event).symm.trans (Log.keeps_of_mem_tell hevent))
  rw [logText, Log.render, hevents]
  rfl

theorem runtimeErrors_logText_append (h : env.IsUnmistakable) (es : List Event) (rest : String) :
    runtimeErrors (env.logText es ++ rest) = runtimeErrors rest := by
  rw [logText, Log.render, runtimeErrors_join_append]
  intro l hl
  obtain ⟨n, hn, rfl⟩ := List.mem_mapIdx.mp hl
  exact h n _ (Log.keeps_of_mem_tell (List.getElem_mem hn))

/-- Behind a log that does not pass for one, a runtime error is told in exactly one line. -/
theorem runtimeErrors_eq_one (h : env.IsUnmistakable) (es : List Event) (e : Error) :
    runtimeErrors (env.logText es ++ (Failure.unfinished e).message ++ "\n") = 1 := by
  have hline : '\n' ∉ (Failure.unfinished e).message.toList := newline_not_mem_append (by decide) e.newline_not_mem_message
  have hmark : runtimeErrorMark.toList.isPrefixOf (Failure.unfinished e).message.toList = true := by
    rw [List.isPrefixOf_iff_prefix]
    exact ⟨e.message.toList, (String.toList_append ..).symm⟩
  rw [String.append_assoc, runtimeErrors_logText_append h, ← String.append_empty (s := _ ++ "\n"), runtimeErrors_append_line,
    runtimeErrors_of_newline_not_mem hline, if_pos hmark]
  rfl

/-- No line of a log of warnings passes for a runtime error, if that of the only warning there is stands on one line and does not
start as the mark does. -/
theorem isUnmistakable_of_warnings (hfilter : env.filter = .warnings)
    (hline : ∀ n limit pc, '\n' ∉ (env.line n (.exhausted limit pc)).toList ∧
      (env.line n (.exhausted limit pc)).toList.head? ≠ some 'r') : env.IsUnmistakable := by
  intro n e he
  rw [hfilter] at he
  cases e with
  | exhausted limit pc => exact runtimeErrors_eq_zero (hline n limit pc).1 (hline n limit pc).2
  | _ => cases he

/-- So it is with plain lines behind something on one line, as the time is, that does not start as the mark does. -/
theorem isUnmistakable_of_plain (stamp : Nat → String) (hfilter : env.filter = .warnings)
    (hline : ∀ n e, env.line n e = stamp n ++ e.render)
    (hstamp : ∀ n, '\n' ∉ (stamp n).toList ∧ (stamp n).toList.head? ≠ some 'r') : env.IsUnmistakable := by
  refine isUnmistakable_of_warnings hfilter fun n limit pc => ?_
  obtain ⟨hnewline, hr⟩ := hstamp n
  obtain ⟨hrender, hspace⟩ := Event.render_exhausted limit pc
  rw [hline]
  refine ⟨newline_not_mem_append hnewline hrender, ?_⟩
  rw [String.toList_append, List.head?_append, hspace]
  cases hs : (stamp n).toList.head? with
  | none => simp
  | some c =>
    rw [hs] at hr
    exact hr

end Environment

end PMachine
